import Mathlib.Algebra.Order.BigOperators.Group.List
import AsmOS.Heap.Coalescing

/-
  The memory meters of the heap.

  `get_memory_usage_percent` walks the list and adds up the
  blocks in use.  The platform scales the percentage to the
  memory of the machine, and the dashboard draws it as a bar.

  Main declarations:
    * `getMemoryUsagePercent`
    * `memstatFromSystem`, `dashboardBar`
    * `usedLoop_spec`
    * `Held`, `Metered`
    * `reachable_metered`
-/

------------------------------------------------------------
-- The Meters
------------------------------------------------------------

namespace AsmOS

namespace Heap

open ByteMem BlockTiling

/- The loop of `get_memory_usage_percent`. -/
def usedLoop
    (mem : ByteMem) : Nat → Nat → Nat → Option Nat
| 0, _, _ => none
| fuel + 1, current, used =>
    if current ≠ 0 then
      let used :=
        if blockFree mem current = 0 then
          (used + (sizeofMemBlock + blockSize mem current)) %
            2 ^ 32
        else used
      usedLoop mem fuel (blockNext mem current) used
    else
      some used

/- `get_memory_usage_percent`. -/
def getMemoryUsagePercent
    (heap : State) : Option Nat :=
  (usedLoop heap.mem walkFuel heap.freeList 0).map fun used =>
    used * 100 % 2 ^ 32 / memoryPoolSize

/- `detect_ps2_memory`: `memMb` is the boot parameter. -/
def detectPs2Memory
    (memMb : Nat) : Nat :=
  if memMb = 0 then 32 else memMb

/- `plat_mem_total_kb`. -/
def platMemTotalKb
    (memMb : Nat) : Nat :=
  let mb := detectPs2Memory memMb
  let mb := if mb = 0 then 32 else mb
  mb * 1024 % 2 ^ 32

/- `plat_mem_used_kb`. -/
def platMemUsedKb
    (memMb : Nat)
    (heap : State) : Option Nat :=
  (getMemoryUsagePercent heap).map fun pct =>
    platMemTotalKb memMb * pct % 2 ^ 32 / 100

/- `plat_mem_free_kb`. -/
def platMemFreeKb
    (memMb : Nat)
    (heap : State) : Option Nat :=
  (platMemUsedKb memMb heap).map fun u =>
    let t := platMemTotalKb memMb
    if u < t then t - u else 0

/- `hw_memstat_t`. -/
structure HwMemstat where
  totalKb : Nat
  freeKb : Nat
  usedKb : Nat
  kernelKb : Nat

/- `memstat_from_system`. -/
def memstatFromSystem
    (memMb : Nat)
    (heap : State) : Option HwMemstat := do
  let used ← platMemUsedKb memMb heap
  let free ← platMemFreeKb memMb heap
  return {
    totalKb := platMemTotalKb memMb
    freeKb := free
    usedKb := used
    kernelKb := 512 }

def dashboardBarLen : Nat := 32

/- The memory bar of `dashboard_show`; true is `#`. -/
def dashboardBar
    (heap : State) : Option (List Bool) :=
  (getMemoryUsagePercent heap).map fun pct =>
    let memPct := if 100 < pct then 100 else pct
    let filled := memPct * dashboardBarLen / 100
    (List.range dashboardBarLen).map fun i =>
      decide (i < filled)

------------------------------------------------------------
-- The Walk
------------------------------------------------------------

section Walk

variable {mem : ByteMem} {bs : List HeapBlock}

/- The walk adds up the bytes of the blocks in use. -/
theorem usedLoop_spec
    {a fuel used : Nat}
    (hHeaders : Headers mem 0 a bs)
    (ha : 0 < a)
    (hFuel : bs.length < fuel)
    (hSum : used + extent bs < 2 ^ 32) :
    usedLoop mem fuel (link a 0 bs) used =
      some (used + taken bs) := by
  induction bs generalizing a fuel used with
  | nil =>
      cases fuel with
      | zero => simp at hFuel
      | succ fuel => simp [usedLoop, taken]
  | cons b bs ih =>
      cases fuel with
      | zero => simp at hFuel
      | succ fuel =>
          rcases hHeaders with ⟨hSize, hNext, hFree, hRest⟩
          simp only [List.length_cons,
            Nat.add_lt_add_iff_right] at hFuel
          rw [extent_cons] at hSum
          simp only [usedLoop, link_cons, hSize, hNext, hFree,
            show a ≠ 0 by omega, ne_eq, not_false_eq_true,
            if_true]
          cases hMark : b.free with
          | true =>
              simp only [if_true, Nat.one_ne_zero, if_false,
                taken, hMark]
              exact ih hRest (by omega) hFuel (by omega)
          | false =>
              simp only [Bool.false_eq_true, if_false, if_true,
                sizeofMemBlock, taken, hMark,
                heapGeometry_header]
              rw [Nat.mod_eq_of_lt (by omega),
                ih hRest (by omega) hFuel (by omega),
                Nat.add_assoc used]

end Walk

------------------------------------------------------------
-- Statements
------------------------------------------------------------

/-
  The live pointers, each listed once; `used` is the size of
  their blocks, which have room for the bytes asked for.
-/
structure Held
    (c : Client)
    (ptrs : List Nat)
    (used : Nat) : Prop where
  live : ∀ p, p ∈ ptrs ↔ ∃ n, c.owned p = some n
  once : ptrs.Nodup
  blocks :
    (ptrs.map fun p =>
      12 + blockSize c.heap.mem (p - 12)).sum = used
  asked :
    (ptrs.map fun p => 12 + (c.owned p).getD 0).sum ≤ used

/-
  What the meters show when `used` bytes of the pool are in
  use.
-/
structure Metered
    (heap : State)
    (used : Nat) : Prop where
  within : used ≤ memoryPoolSize
  percent :
    getMemoryUsagePercent heap =
      some (used * 100 / memoryPoolSize)
  refuses :
    ∀ n, n + 3 < 2 ^ 32 →
      memoryPoolSize < used + (12 + n) →
        malloc heap n = some (0, heap)
  bar :
    dashboardBar heap =
        some (List.replicate dashboardBarLen true) ↔
      used = memoryPoolSize
  memstat :
    ∀ memMb, ∃ m, memstatFromSystem memMb heap = some m ∧
      m.totalKb = platMemTotalKb memMb ∧
      m.usedKb + m.freeKb = m.totalKb ∧
      (memMb ≤ 41943 →
        m.usedKb =
          m.totalKb * (used * 100 / memoryPoolSize) / 100)

------------------------------------------------------------
-- The Blocks In Use
------------------------------------------------------------

section Blocks

variable {pool : Pool} {c : Client} {heap : State}
variable {bs : List HeapBlock}

/- The payloads in use are the live pointers. -/
theorem Accounted.held
    (hInv : Invariant pool c bs)
    (hAccounted : Accounted pool c bs) :
    Held c ((payloads pool bs).map Prod.fst) (taken bs) where
  live := by
    intro p
    constructor
    · intro hMember
      rcases List.mem_map.mp hMember with ⟨⟨q, s⟩, hBusy, rfl⟩
      exact hAccounted.owned q s hBusy
    · rintro ⟨n, hOwned⟩
      rcases hInv.owned p n hOwned with ⟨s, _, hBusy⟩
      exact List.mem_map.mpr ⟨(p, s), hBusy, rfl⟩
  once := busy_starts_nodup _ _
  blocks := by
    rw [← sum_busy pool.base bs, List.map_map]
    congr 1
    refine List.map_congr_left fun u hBusy => ?_
    have hHeader := hInv.represents.payload_header
      (p := u.1) (s := u.2) hBusy
    simp only [Function.comp_apply, hHeader.1,
      heapGeometry_header]
  asked := by
    rw [← sum_busy pool.base bs, List.map_map]
    refine List.sum_le_sum fun u hBusy => ?_
    rcases hAccounted.owned u.1 u.2 hBusy with ⟨n, hOwned⟩
    rcases hInv.owned u.1 n hOwned with ⟨s, hSize, hMember⟩
    have hSame : u.2 = s := by
      have hBounds := payload_bounds (p := u.1) (s := u.2) hBusy
      rcases busy_apart hBusy hMember with
        ⟨_, hSame⟩ | hApart
      · exact hSame
      · have hBounds' := payload_bounds hMember
        omega
    simp only [Function.comp_apply, hOwned, Option.getD_some,
      heapGeometry_header]
    omega

theorem Represents.percent
    (hHeap : Represents pool heap bs) :
    getMemoryUsagePercent heap =
      some (taken bs * 100 / memoryPoolSize) := by
  have hLe := taken_le_extent bs
  have hWalk :
      usedLoop heap.mem walkFuel (link pool.base 0 bs) 0 =
        some (0 + taken bs) :=
    usedLoop_spec hHeap.headers pool.base_pos
      hHeap.length_lt (by
        rw [hHeap.total]
        norm_num)
  rw [link_of_ne_nil _ _ hHeap.ne_nil, ← hHeap.head,
    Nat.zero_add] at hWalk
  rw [hHeap.total] at hLe
  simp only [memoryPoolSize] at hLe
  rw [getMemoryUsagePercent, hWalk, Option.map_some,
    Nat.mod_eq_of_lt (by omega)]

/- A request fails when the bytes not in use are too few. -/
theorem Represents.refuses
    (hHeap : Represents pool heap bs)
    {n : Nat}
    (hn : n + 3 < 2 ^ 32)
    (hRoom : memoryPoolSize < taken bs + (12 + n)) :
    malloc heap n = some (0, heap) := by
  rcases malloc_search hHeap n with
    ⟨hNone, _⟩ | ⟨_, pre, b, post, rfl, hFree, hFits, _⟩
  · exact hNone
  · have hSpace :=
      taken_add_free
        (List.mem_append_right pre
          (List.mem_cons_self (l := post))) hFree
    have hAlign := (align_spec hn).2.1
    rw [hHeap.total, heapGeometry_header] at hSpace
    omega

end Blocks

------------------------------------------------------------
-- The Bar And The Platform
------------------------------------------------------------

section Scaled

variable {heap : State} {pct : Nat}

/- The bar is full at one hundred percent only. -/
theorem dashboardBar_full
    (hPercent : getMemoryUsagePercent heap = some pct)
    (hLe : pct ≤ 100) :
    dashboardBar heap =
        some (List.replicate dashboardBarLen true) ↔
      pct = 100 := by
  simp only [dashboardBar, hPercent, Option.map_some,
    Option.some.injEq, if_neg (Nat.not_lt.mpr hLe)]
  rw [List.eq_replicate_iff]
  simp only [List.length_map, List.length_range, true_and,
    List.mem_map, List.mem_range, dashboardBarLen]
  constructor
  · intro hAll
    have hLast := hAll _ ⟨31, by omega, rfl⟩
    have hFilled := of_decide_eq_true hLast
    omega
  · rintro rfl _ ⟨i, hi, rfl⟩
    exact decide_eq_true (by omega)

/-
  The scaled reading never exceeds the total, also where the
  product wraps.
-/
theorem memstatFromSystem_spec
    (hPercent : getMemoryUsagePercent heap = some pct)
    (hLe : pct ≤ 100)
    (memMb : Nat) :
    ∃ m, memstatFromSystem memMb heap = some m ∧
      m.totalKb = platMemTotalKb memMb ∧
      m.usedKb + m.freeKb = m.totalKb ∧
      (memMb ≤ 41943 →
        m.usedKb = m.totalKb * pct / 100) := by
  have hUsed :
      platMemTotalKb memMb * pct % 2 ^ 32 / 100 ≤
        platMemTotalKb memMb := by
    have hProduct :
        platMemTotalKb memMb * pct ≤
          platMemTotalKb memMb * 100 :=
      Nat.mul_le_mul_left _ hLe
    have hMod :=
      Nat.mod_le (platMemTotalKb memMb * pct) (2 ^ 32)
    omega
  refine ⟨_, by
    simp only [memstatFromSystem, platMemFreeKb,
      platMemUsedKb, hPercent, Option.map_some]
    rfl, rfl, ?_, ?_⟩
  · simp only
    split <;> omega
  · intro hSmall
    have hTotal : platMemTotalKb memMb ≤ 41943 * 1024 := by
      have hMb : detectPs2Memory memMb ≤ 41943 := by
        unfold detectPs2Memory
        split <;> omega
      simp only [platMemTotalKb]
      split <;> omega
    have hProduct :
        platMemTotalKb memMb * pct ≤ 41943 * 1024 * 100 :=
      Nat.mul_le_mul hTotal hLe
    simp only
    rw [Nat.mod_eq_of_lt (by omega)]

end Scaled

------------------------------------------------------------
-- Every Reachable State
------------------------------------------------------------

theorem Represents.metered
    {pool : Pool}
    {heap : State}
    {bs : List HeapBlock}
    (hHeap : Represents pool heap bs) :
    Metered heap (taken bs) := by
  have hWithin := taken_le_extent bs
  rw [hHeap.total] at hWithin
  have hPercent := hHeap.percent
  have hPct : taken bs * 100 / memoryPoolSize ≤ 100 := by
    simp only [memoryPoolSize] at hWithin ⊢
    omega
  refine ⟨hWithin, hPercent,
    fun n hn => hHeap.refuses hn, ?_,
    memstatFromSystem_spec hPercent hPct⟩
  rw [dashboardBar_full hPercent hPct]
  simp only [memoryPoolSize] at hWithin ⊢
  omega

/-
  In every reachable state the meters show exactly the bytes
  of the blocks of live pointers.
-/
theorem reachable_metered
    {pool : Pool}
    {c : Client}
    (hReach : Reachable pool c) :
    ∃ ptrs used, Held c ptrs used ∧
      Metered c.heap used := by
  rcases reachable_accounted hReach with
    ⟨bs, hInv, hAccounted⟩
  exact ⟨_, _, hAccounted.held hInv, hInv.represents.metered⟩

/- After one allocation a block of a hundred bytes is held. -/
theorem reachable_metered_malloc :
    ∃ c, Reachable samplePool c ∧
      c.owned 0x10000C = some 100 ∧
      ∃ ptrs used, Held c ptrs used ∧
        Metered c.heap used := by
  have hStart :
      Reachable samplePool (.start samplePool zeros) :=
    .start zeros
  have hMalloc :=
    hStart.call (.malloc 100)
      (show 100 + 3 < 2 ^ 32 by norm_num) rfl
  exact ⟨_, hMalloc, rfl, reachable_metered hMalloc⟩

end Heap

end AsmOS
