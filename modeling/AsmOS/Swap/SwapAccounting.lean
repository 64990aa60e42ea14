import Mathlib.Algebra.BigOperators.Group.Finset.Basic
import AsmOS.Base.StepRuns
import AsmOS.Heap.TilingInvariant
import AsmOS.Swap.MemoryBudget

/-
  The swap budget against the slots in use.

  A client keeps the handles that `swap_slot_alloc` gave it
  until it frees them.  The charge of a slot is given back
  with its memory, so a slot that is evicted when it is freed
  leaves its charge behind.

  Main declarations:
    * `SwapClient`, `SwapCall.run`
    * `Budget.chargedKb`, `Balanced`
    * `SwapCall.KeepsBalance`
    * `run_balanced_iff`
    * `everyState_balanced_iff`
-/

------------------------------------------------------------
-- Clients
------------------------------------------------------------

namespace AsmOS

namespace Swap

open StepRuns

/- The handles that are not yet freed. -/
structure SwapClient where
  state : State
  handles : List SwapSlot

/- The handle passed to a call is named by its index. -/
inductive SwapCall where
| alloc (size : UInt32) (region : Nat) (out : SwapSlot)
| evict (k : Nat)
| restore (k : Nat)
| free (k : Nat)

/- The client after a call that returns. -/
def SwapCall.run
    (pool : Heap.Pool)
    (c : SwapClient) : SwapCall → Option SwapClient
| .alloc size region out =>
    (swapSlotAlloc pool c.state size region (some out)).map
      fun r =>
        if r.1 = 0 then
          ⟨r.2.2, c.handles ++ r.2.1.toList⟩
        else ⟨r.2.2, c.handles⟩
| .evict k =>
    c.handles[k]?.bind fun handle =>
      (swapEvict pool c.state (some handle)).map fun r =>
        ⟨r.2, c.handles⟩
| .restore k =>
    c.handles[k]?.bind fun handle =>
      (swapRestore c.state (some handle)).map fun r =>
        ⟨r.2.2, c.handles.set k (r.2.1.getD handle)⟩
| .free k =>
    c.handles[k]?.bind fun handle =>
      (swapSlotFree pool c.state (some handle)).map fun s =>
        ⟨s, c.handles.eraseIdx k⟩

/- After `memory_budget_init`, with any heap. -/
def SwapClient.start
    (heap : Heap.State) : SwapClient where
  state := ⟨memoryBudgetInit Budget.boot, heap⟩
  handles := []

------------------------------------------------------------
-- Statements
------------------------------------------------------------

/- The size of a slot in use in KB, rounded up. -/
def SwapSlot.chargeKb
    (slot : SwapSlot) : Nat :=
  if slot.inUse then (slot.size.toNat + 1023) / 1024 else 0

theorem chargeKb_of_use
    {slot : SwapSlot}
    (hUse : slot.inUse = true) :
    slot.chargeKb = (slot.size.toNat + 1023) / 1024 :=
  if_pos hUse

theorem chargeKb_of_free
    {slot : SwapSlot}
    (hFree : slot.inUse = false) :
    slot.chargeKb = 0 := by
  simp [SwapSlot.chargeKb, hFree]

/- The sum over the slots in use. -/
def Budget.chargedKb
    (b : Budget) : Nat :=
  (Finset.range swapSlotMax).sum fun i =>
    (b.slots i).chargeKb

/- The use of the swap budget is what the slots account for. -/
def Balanced
    (c : SwapClient) : Prop :=
  (c.state.budget.regions budgetSwapCache).usedKb.toNat =
    c.state.budget.chargedKb

/-
  Rounding the size of a new slot up to KB does not wrap, or
  the heap or the table has no room for the slot; and a slot
  that is freed has its memory.
-/
def SwapCall.KeepsBalance
    (c : SwapClient) : SwapCall → Prop
| .alloc size _ _ =>
    size.toNat + 1023 < 2 ^ 32 ∨
      (∃ heap,
        Heap.malloc c.state.heap size.toNat =
          some (0, heap)) ∨
      c.state.budget.freeSlot = none
| .free k =>
    ∀ handle, c.handles[k]? = some handle →
      (c.state.budget.slots handle.offset).localPtr ≠ 0
| _ => True

------------------------------------------------------------
-- Charges
------------------------------------------------------------

section Charges

variable {b : Budget} {i region : Nat}

/- Storing a slot exchanges its charge. -/
theorem chargedKb_setSlot
    (b : Budget)
    (slot : SwapSlot)
    (hi : i < swapSlotMax) :
    (b.setSlot i slot).chargedKb + (b.slots i).chargeKb =
      b.chargedKb + slot.chargeKb := by
  have hMember : i ∈ Finset.range swapSlotMax :=
    Finset.mem_range.mpr hi
  unfold Budget.chargedKb
  rw [← Finset.add_sum_erase _ _ hMember,
    ← Finset.add_sum_erase (Finset.range swapSlotMax)
      (fun i => (b.slots i).chargeKb) hMember]
  have hOthers :
      ((Finset.range swapSlotMax).erase i).sum
          (fun j => ((b.setSlot i slot).slots j).chargeKb) =
        ((Finset.range swapSlotMax).erase i).sum
          (fun j => (b.slots j).chargeKb) := by
    apply Finset.sum_congr rfl
    intro j hj
    rw [setSlot_of_ne _ _ _ (Finset.ne_of_mem_erase hj)]
  rw [hOthers, setSlot_self]
  omega

/- A slot is charged no more than all slots. -/
theorem chargeKb_le
    (b : Budget)
    (hi : i < swapSlotMax) :
    (b.slots i).chargeKb ≤ b.chargedKb := by
  unfold Budget.chargedKb
  rw [← Finset.add_sum_erase _ _ (Finset.mem_range.mpr hi)]
  exact Nat.le_add_right _ _

theorem freeSlot_eq_some
    (hFree : b.freeSlot = some i) :
    i < swapSlotMax ∧ (b.slots i).inUse = false := by
  have hMember := List.mem_of_find?_eq_some hFree
  have hTest := List.find?_some hFree
  rw [List.mem_range] at hMember
  exact ⟨hMember, by simpa using hTest⟩

end Charges

------------------------------------------------------------
-- Budget Calls
------------------------------------------------------------

/- What the run of a client keeps, balanced or not. -/
structure Budget.Sound
    (b : Budget) : Prop where
  inited : b.inited = true
  limit : (b.regions budgetSwapCache).limitKb = 4096
  used : (b.regions budgetSwapCache).usedKb.toNat ≤ 4096

section BudgetCalls

variable {b : Budget} {size : UInt32}

/- The budget refuses a size or adds its charge. -/
theorem memoryBudgetAlloc_cases
    (hSound : b.Sound)
    (size : UInt32) :
    (memoryBudgetAlloc b budgetSwapCache size = (0, b) ∧
        sizeKb size ≠ 0) ∨
      ∃ kb,
        memoryBudgetAlloc b budgetSwapCache size =
          (1, b.setUsed budgetSwapCache kb) ∧
        kb.toNat =
          (b.regions budgetSwapCache).usedKb.toNat +
            (sizeKb size).toNat ∧
        kb.toNat ≤ 4096 := by
  have hUsed := hSound.used
  have hKb := sizeKb_le size
  have hLimit : (4096 : UInt32).toNat = 4096 := rfl
  have hSum :
      ((b.regions budgetSwapCache).usedKb +
          sizeKb size).toNat =
        (b.regions budgetSwapCache).usedKb.toNat +
          (sizeKb size).toNat := by
    rw [UInt32.toNat_add, Nat.mod_eq_of_lt (by omega)]
  unfold memoryBudgetAlloc
  simp only [hSound.inited, if_true, hSound.limit,
    UInt32.lt_iff_toNat_lt, hSum, hLimit]
  rw [if_neg (by decide)]
  by_cases hOver :
      4096 <
        (b.regions budgetSwapCache).usedKb.toNat +
          (sizeKb size).toNat
  · left
    refine ⟨if_pos ⟨hOver, by decide⟩, ?_⟩
    intro hZero
    rw [hZero] at hOver
    have hNone : (0 : UInt32).toNat = 0 := rfl
    omega
  · right
    exact ⟨_, if_neg fun hBoth => hOver hBoth.1, hSum,
      by omega⟩

theorem memoryBudgetFree_eq
    (b : Budget)
    (size : UInt32) :
    ∃ kb,
      memoryBudgetFree b budgetSwapCache size =
        b.setUsed budgetSwapCache kb ∧
      kb.toNat =
        (b.regions budgetSwapCache).usedKb.toNat -
          (sizeKb size).toNat := by
  unfold memoryBudgetFree
  rw [if_neg (by decide)]
  by_cases hMore :
      (b.regions budgetSwapCache).usedKb < sizeKb size
  · refine ⟨0, if_pos hMore, ?_⟩
    rw [UInt32.lt_iff_toNat_lt] at hMore
    show 0 = _
    omega
  · refine ⟨_, if_neg hMore, ?_⟩
    rw [UInt32.not_lt] at hMore
    exact UInt32.toNat_sub_of_le _ _ hMore

/- Giving a charge back restores the budget. -/
theorem memoryBudgetFree_setUsed
    {kb : UInt32}
    (hKb :
      kb.toNat =
        (b.regions budgetSwapCache).usedKb.toNat +
          (sizeKb size).toNat) :
    memoryBudgetFree (b.setUsed budgetSwapCache kb)
      budgetSwapCache size = b := by
  rcases memoryBudgetFree_eq (b.setUsed budgetSwapCache kb)
      size with ⟨kb', hFree, hLeft⟩
  rw [setUsed_usedKb, hKb, Nat.add_sub_cancel] at hLeft
  rw [hFree, setUsed_setUsed, UInt32.toNat_inj.mp hLeft,
    setUsed_self]

theorem Budget.Sound.setUsed
    {kb : UInt32}
    (hSound : b.Sound)
    (hUsed : kb.toNat ≤ 4096) :
    (b.setUsed budgetSwapCache kb).Sound where
  inited := hSound.inited
  limit := by
    rw [setUsed_limitKb]
    exact hSound.limit
  used := by
    rw [setUsed_usedKb]
    exact hUsed

theorem Budget.Sound.setSlot
    (hSound : b.Sound)
    (i : Nat)
    (slot : SwapSlot) :
    (b.setSlot i slot).Sound :=
  ⟨hSound.inited, hSound.limit, hSound.used⟩

end BudgetCalls

------------------------------------------------------------
-- Slot Calls
------------------------------------------------------------

/- A slot is reserved, and its size charged. -/
structure Reserves
    (s s' : State)
    (size : UInt32)
    (slot : SwapSlot) : Prop where
  free : s.budget.freeSlot = some slot.offset
  granted :
    ∀ heap, Heap.malloc s.heap size.toNat ≠ some (0, heap)
  in_use : slot.inUse = true
  size_eq : slot.size = size
  size_ne : size ≠ 0
  budget :
    ∃ kb,
      s'.budget =
        (s.budget.setUsed budgetSwapCache kb).setSlot
          slot.offset slot ∧
      kb.toNat =
        (s.budget.regions budgetSwapCache).usedKb.toNat +
          (sizeKb size).toNat ∧
      kb.toNat ≤ 4096

section SlotCalls

variable {pool : Heap.Pool} {s s' : State}
variable {size : UInt32} {region : Nat}
variable {out : SwapSlot} {out' : Option SwapSlot} {rc : Int}

/- The heap has no block of no bytes. -/
theorem size_ne_zero_of_malloc
    {heap heap' : Heap.State}
    {p : Nat}
    (hMalloc : Heap.malloc heap size.toNat = some (p, heap'))
    (hNull : p ≠ 0) :
    size ≠ 0 := by
  rintro rfl
  have hNone :
      Heap.malloc heap (0 : UInt32).toNat = some (0, heap) :=
    rfl
  rw [hNone] at hMalloc
  cases hMalloc
  exact hNull rfl

/- What an allocation does to the heap, the use and the slots. -/
theorem swapSlotAlloc_result
    (hSound : s.budget.Sound)
    (hCall :
      swapSlotAlloc pool s size region (some out) =
        some (rc, out', s')) :
    (rc ≠ 0 ∧ ∃ heap,
        Heap.malloc s.heap size.toNat = some (0, heap) ∧
          s' = { s with heap }) ∨
      ∃ p heap, p ≠ 0 ∧
        Heap.malloc s.heap size.toNat = some (p, heap) ∧
        ((rc ≠ 0 ∧
            (size.toNat + 1023 < 2 ^ 32 ∨
              s.budget.freeSlot = none) ∧
            ∃ heap',
              Heap.free pool heap p = some heap' ∧
                s' = ⟨s.budget, heap'⟩) ∨
          ∃ i kb, rc = 0 ∧ s.budget.freeSlot = some i ∧
            out' = some ⟨true, i, p, size, region⟩ ∧
            s' =
              ⟨(s.budget.setUsed budgetSwapCache kb).setSlot i
                ⟨true, i, p, size, region⟩, heap⟩ ∧
            kb.toNat =
              (s.budget.regions budgetSwapCache).usedKb.toNat +
                (sizeKb size).toNat ∧
            kb.toNat ≤ 4096) := by
  unfold swapSlotAlloc at hCall
  dsimp only at hCall
  cases hMalloc : Heap.malloc s.heap size.toNat with
  | none =>
      rw [hMalloc] at hCall
      cases hCall
  | some got =>
  rcases got with ⟨p, heap⟩
  rw [hMalloc] at hCall
  dsimp only at hCall
  by_cases hNull : p = 0
  · subst hNull
    rw [if_pos rfl] at hCall
    cases hCall
    exact Or.inl ⟨by decide, heap, rfl, rfl⟩
  rw [if_neg hNull] at hCall
  refine Or.inr ⟨p, heap, hNull, rfl, ?_⟩
  rcases memoryBudgetAlloc_cases hSound size with
    ⟨hRefused, hKb⟩ | ⟨kb, hCharged, hUsed, hLimit⟩
  · rw [hRefused, if_pos rfl] at hCall
    rcases Option.map_eq_some_iff.mp hCall with
      ⟨heap', hFree, hEq⟩
    cases hEq
    refine Or.inl ⟨by decide, Or.inl ?_, heap', hFree, rfl⟩
    by_contra hWraps
    exact hKb (sizeKb_wrapped hWraps)
  rw [hCharged, if_neg Int.one_ne_zero] at hCall
  dsimp only at hCall
  have hSlots :
      (s.budget.setUsed budgetSwapCache kb).freeSlot =
        s.budget.freeSlot :=
    rfl
  rw [hSlots] at hCall
  cases hFree : s.budget.freeSlot with
  | none =>
      rw [hFree] at hCall
      dsimp only at hCall
      rw [memoryBudgetFree_setUsed hUsed] at hCall
      rcases Option.map_eq_some_iff.mp hCall with
        ⟨heap', hFreed, hEq⟩
      cases hEq
      exact Or.inl ⟨by decide, Or.inr rfl, heap', hFreed, rfl⟩
  | some i =>
      rw [hFree] at hCall
      cases hCall
      exact Or.inr ⟨i, kb, rfl, rfl, rfl, rfl, hUsed, hLimit⟩

/- A slot is reserved, or the budget is as before. -/
theorem swapSlotAlloc_cases
    (hSound : s.budget.Sound)
    (hCall :
      swapSlotAlloc pool s size region (some out) =
        some (rc, out', s')) :
    (rc ≠ 0 ∧ s'.budget = s.budget ∧
        (size.toNat + 1023 < 2 ^ 32 ∨
          (∃ heap,
            Heap.malloc s.heap size.toNat =
              some (0, heap)) ∨
          s.budget.freeSlot = none)) ∨
      ∃ slot, rc = 0 ∧ out' = some slot ∧
        Reserves s s' size slot := by
  rcases swapSlotAlloc_result hSound hCall with
    ⟨hRc, heap, hNone, rfl⟩ |
    ⟨p, heap, hNull, hMalloc,
      ⟨hRc, hWhy, heap', _, rfl⟩ |
      ⟨i, kb, hRc, hFree, hOut, rfl, hUsed, hLimit⟩⟩
  · exact Or.inl ⟨hRc, rfl, Or.inr (Or.inl ⟨heap, hNone⟩)⟩
  · exact Or.inl ⟨hRc, rfl, hWhy.imp_right Or.inr⟩
  · refine Or.inr ⟨_, hRc, hOut, hFree, ?_, rfl, rfl,
      size_ne_zero_of_malloc hMalloc hNull, kb, rfl, hUsed,
      hLimit⟩
    intro heap' hContra
    rw [hMalloc] at hContra
    cases hContra
    exact hNull rfl

/- Evicting and restoring exchange the pointer of a slot. -/
def Repoints
    (b b' : Budget)
    (i : Nat) : Prop :=
  b' = b ∨
    ∃ p, b' = b.setSlot i { b.slots i with localPtr := p }

theorem swapEvict_repoints
    {handle : SwapSlot}
    (hCall :
      swapEvict pool s (some handle) = some (rc, s')) :
    Repoints s.budget s'.budget handle.offset := by
  unfold swapEvict at hCall
  dsimp only at hCall
  split at hCall
  · cases hCall
    exact Or.inl rfl
  · split at hCall
    · cases hCall
      exact Or.inl rfl
    · rcases Option.map_eq_some_iff.mp hCall with
        ⟨heap, _, hEq⟩
      cases hEq
      exact Or.inr ⟨0, rfl⟩

/- A restored handle names the same slot. -/
theorem swapRestore_repoints
    {handle : SwapSlot}
    (hCall :
      swapRestore s (some handle) = some (rc, out', s')) :
    Repoints s.budget s'.budget handle.offset ∧
      (out'.getD handle).offset = handle.offset := by
  unfold swapRestore at hCall
  dsimp only at hCall
  split at hCall
  · cases hCall
    exact ⟨Or.inl rfl, rfl⟩
  · split at hCall
    · cases hCall
      exact ⟨Or.inl rfl, rfl⟩
    · rcases Option.map_eq_some_iff.mp hCall with
        ⟨got, _, hEq⟩
      split at hEq
      · cases hEq
        exact ⟨Or.inl rfl, rfl⟩
      · cases hEq
        exact ⟨Or.inr ⟨_, rfl⟩, rfl⟩

/- A freed slot is cleared; its charge goes with its memory. -/
theorem swapSlotFree_budget
    {handle : SwapSlot}
    (hOffset : handle.offset < swapSlotMax)
    (hCall : swapSlotFree pool s (some handle) = some s') :
    ∃ slot b, slot.inUse = false ∧
      s'.budget = b.setSlot handle.offset slot ∧
      b =
        if (s.budget.slots handle.offset).localPtr ≠ 0 then
          memoryBudgetFree s.budget budgetSwapCache
            (s.budget.slots handle.offset).size
        else s.budget := by
  unfold swapSlotFree at hCall
  dsimp only at hCall
  rw [if_neg (by omega)] at hCall
  by_cases hHeld :
      (s.budget.slots handle.offset).localPtr ≠ 0
  · rw [if_pos hHeld] at hCall
    rcases Option.map_eq_some_iff.mp hCall with
      ⟨heap, _, hEq⟩
    cases hEq
    exact ⟨_, _, rfl, rfl, (if_pos hHeld).symm⟩
  · rw [if_neg hHeld] at hCall
    cases hCall
    exact ⟨_, _, rfl, rfl, (if_neg hHeld).symm⟩

end SlotCalls

------------------------------------------------------------
-- Runs
------------------------------------------------------------

/- What the budget and the slots named by handles keep. -/
structure Tracks
    (b : Budget)
    (names : List Nat) : Prop where
  sound : b.Sound
  sized :
    ∀ i < swapSlotMax, (b.slots i).inUse = true →
      (b.slots i).size ≠ 0
  held :
    ∀ i ∈ names, i < swapSlotMax ∧ (b.slots i).inUse = true
  nodup : names.Nodup

/- The slots that the handles of a client name. -/
def SwapClient.names
    (c : SwapClient) : List Nat :=
  c.handles.map SwapSlot.offset

section Runs

variable {pool : Heap.Pool} {b b' : Budget}
variable {c c' : SwapClient} {names : List Nat}
variable {s s' : State} {size : UInt32} {slot : SwapSlot}

theorem start_tracks
    (heap : Heap.State) :
    Tracks (SwapClient.start heap).state.budget [] where
  sound :=
    ⟨rfl, rfl, show (0 : UInt32).toNat ≤ 4096 by decide⟩
  sized := by
    intro i _ hUse
    cases hUse
  held := by simp
  nodup := List.nodup_nil

theorem start_balanced
    (heap : Heap.State) :
    Balanced (SwapClient.start heap) := by
  show 0 = _
  unfold Budget.chargedKb
  exact (Finset.sum_eq_zero fun _ _ => rfl).symm

theorem Reserves.tracks
    (hReserves : Reserves s s' size slot)
    (hTracks : Tracks s.budget names) :
    Tracks s'.budget (names ++ [slot.offset]) := by
  rcases hReserves.budget with ⟨kb, hBudget, _, hLimit⟩
  rcases freeSlot_eq_some hReserves.free with
    ⟨hOffset, hFree⟩
  have hNew : slot.offset ∉ names := by
    intro hMember
    have hUse := (hTracks.held slot.offset hMember).2
    rw [hFree] at hUse
    cases hUse
  rw [hBudget]
  refine ⟨(hTracks.sound.setUsed hLimit).setSlot _ _,
    ?_, ?_, ?_⟩
  · intro i hi hUse
    by_cases hSame : i = slot.offset
    · rw [hSame, setSlot_self, hReserves.size_eq]
      exact hReserves.size_ne
    · rw [setSlot_of_ne _ _ _ hSame] at hUse ⊢
      exact hTracks.sized i hi hUse
  · intro i hMember
    rcases List.mem_append.mp hMember with hOld | hLast
    · rw [setSlot_of_ne _ _ _ (ne_of_mem_of_not_mem hOld hNew)]
      exact hTracks.held i hOld
    · rw [List.mem_singleton.mp hLast, setSlot_self]
      exact ⟨hOffset, hReserves.in_use⟩
  · exact hTracks.nodup.append (List.nodup_singleton _)
      (by simpa using hNew)

/- A reservation is balanced when its size does not wrap. -/
theorem Reserves.balanced_iff
    (hReserves : Reserves s s' size slot)
    (hBalanced :
      (s.budget.regions budgetSwapCache).usedKb.toNat =
        s.budget.chargedKb) :
    (s'.budget.regions budgetSwapCache).usedKb.toNat =
        s'.budget.chargedKb ↔
      size.toNat + 1023 < 2 ^ 32 := by
  rcases hReserves.budget with ⟨kb, hBudget, hUsed, _⟩
  rcases freeSlot_eq_some hReserves.free with
    ⟨hOffset, hFree⟩
  have hExchange :=
    chargedKb_setSlot
      (s.budget.setUsed budgetSwapCache kb) slot hOffset
  have hSame :
      (s.budget.setUsed budgetSwapCache kb).chargedKb =
        s.budget.chargedKb :=
    rfl
  rw [hSame, setUsed_slots, chargeKb_of_free hFree,
    chargeKb_of_use hReserves.in_use, hReserves.size_eq]
    at hExchange
  rw [hBudget, setSlot_regions, setUsed_usedKb, hUsed,
    hBalanced]
  by_cases hRounds : size.toNat + 1023 < 2 ^ 32
  · rw [sizeKb_toNat hRounds]
    exact iff_of_true (by omega) hRounds
  · rw [sizeKb_wrapped hRounds]
    have hZero : (0 : UInt32).toNat = 0 := rfl
    exact iff_of_false (by omega) hRounds

theorem Repoints.tracks
    {i : Nat}
    (hRepoints : Repoints b b' i)
    (hTracks : Tracks b names) :
    Tracks b' names := by
  rcases hRepoints with rfl | ⟨p, rfl⟩
  · exact hTracks
  · refine ⟨hTracks.sound.setSlot _ _, ?_, ?_,
      hTracks.nodup⟩
    · intro j hj hUse
      by_cases hSame : j = i
      · subst hSame
        rw [setSlot_self] at hUse ⊢
        exact hTracks.sized j hj hUse
      · rw [setSlot_of_ne _ _ _ hSame] at hUse ⊢
        exact hTracks.sized j hj hUse
    · intro j hMember
      have hHeld := hTracks.held j hMember
      by_cases hSame : j = i
      · subst hSame
        rw [setSlot_self]
        exact hHeld
      · rw [setSlot_of_ne _ _ _ hSame]
        exact hHeld

/- The charges do not depend on where a slot's memory is. -/
theorem Repoints.balanced
    {i : Nat}
    (hRepoints : Repoints b b' i)
    (hi : i < swapSlotMax)
    (hBalanced :
      (b.regions budgetSwapCache).usedKb.toNat =
        b.chargedKb) :
    (b'.regions budgetSwapCache).usedKb.toNat =
      b'.chargedKb := by
  rcases hRepoints with rfl | ⟨p, rfl⟩
  · exact hBalanced
  · have hExchange :=
      chargedKb_setSlot b { b.slots i with localPtr := p } hi
    have hSame :
        SwapSlot.chargeKb
            { b.slots i with localPtr := p } =
          (b.slots i).chargeKb :=
      rfl
    rw [hSame] at hExchange
    rw [setSlot_regions]
    omega

/- The names that are left are other names. -/
theorem mem_eraseIdx_of_nodup
    {k i j : Nat}
    (hNodup : names.Nodup)
    (hName : names[k]? = some i)
    (hMember : j ∈ names.eraseIdx k) :
    j ∈ names ∧ j ≠ i := by
  refine ⟨List.mem_of_mem_eraseIdx hMember, ?_⟩
  rintro rfl
  rcases List.getElem?_eq_some_iff.mp hName with ⟨hk, hGet⟩
  rcases List.mem_eraseIdx_iff_getElem.mp hMember with
    ⟨l, hl, hNe, hOther⟩
  exact hNe ((hNodup.getElem_inj_iff).mp
    (hOther.trans hGet.symm))

/- Freeing the slot that a handle names. -/
theorem free_tracks
    {k i : Nat}
    (hTracks : Tracks b names)
    (hName : names[k]? = some i)
    (hUsed : b'.Sound)
    (hSlots : b'.slots = b.slots)
    (hCleared : slot.inUse = false) :
    Tracks (b'.setSlot i slot) (names.eraseIdx k) := by
  refine ⟨hUsed.setSlot _ _, ?_, ?_, ?_⟩
  · intro j hj hUse
    by_cases hSame : j = i
    · rw [hSame, setSlot_self, hCleared] at hUse
      cases hUse
    · rw [setSlot_of_ne _ _ _ hSame, hSlots] at hUse ⊢
      exact hTracks.sized j hj hUse
  · intro j hMember
    rcases mem_eraseIdx_of_nodup hTracks.nodup hName hMember
      with ⟨hOld, hNe⟩
    rw [setSlot_of_ne _ _ _ hNe, hSlots]
    exact hTracks.held j hOld
  · exact hTracks.nodup.sublist (List.eraseIdx_sublist _ k)

/-
  A freed slot leaves the books balanced when its memory is
  freed with it.
-/
theorem free_balanced_iff
    {i : Nat}
    (hTracks : Tracks b names)
    (hi : i < swapSlotMax)
    (hUse : (b.slots i).inUse = true)
    (hCleared : slot.inUse = false)
    (hBalanced :
      (b.regions budgetSwapCache).usedKb.toNat = b.chargedKb)
    (hFreed :
      b' =
        if (b.slots i).localPtr ≠ 0 then
          memoryBudgetFree b budgetSwapCache (b.slots i).size
        else b) :
    b'.Sound ∧ b'.slots = b.slots ∧
      (((b'.setSlot i slot).regions
            budgetSwapCache).usedKb.toNat =
          (b'.setSlot i slot).chargedKb ↔
        (b.slots i).localPtr ≠ 0) := by
  have hLe := chargeKb_le b hi
  have hUsed := hTracks.sound.used
  have hSize := hTracks.sized i hi hUse
  have hPos : 0 < (b.slots i).size.toNat :=
    Nat.pos_of_ne_zero fun hZero =>
      hSize (UInt32.toNat_inj.mp hZero)
  rw [chargeKb_of_use hUse] at hLe
  -- The books bound the size of every slot in use.
  have hKb :
      (sizeKb (b.slots i).size).toNat =
        ((b.slots i).size.toNat + 1023) / 1024 :=
    sizeKb_toNat (by omega)
  have hExchange := chargedKb_setSlot b' slot hi
  rw [chargeKb_of_free hCleared] at hExchange
  by_cases hHeld : (b.slots i).localPtr ≠ 0
  · rw [if_pos hHeld] at hFreed
    rcases memoryBudgetFree_eq b (b.slots i).size with
      ⟨kb, hFree, hLeft⟩
    rw [hFree] at hFreed
    subst hFreed
    have hSame :
        (b.setUsed budgetSwapCache kb).chargedKb =
          b.chargedKb :=
      rfl
    rw [hSame, setUsed_slots, chargeKb_of_use hUse] at hExchange
    refine ⟨hTracks.sound.setUsed (by omega), rfl,
      iff_of_true ?_ hHeld⟩
    rw [setSlot_regions, setUsed_usedKb, hLeft, hKb]
    omega
  · rw [if_neg hHeld] at hFreed
    subst hFreed
    rw [chargeKb_of_use hUse] at hExchange
    refine ⟨hTracks.sound, rfl, iff_of_false ?_ hHeld⟩
    rw [setSlot_regions]
    omega

theorem names_getElem
    {k : Nat}
    {handle : SwapSlot}
    (hHandle : c.handles[k]? = some handle) :
    c.names[k]? = some handle.offset := by
  rw [SwapClient.names, List.getElem?_map, hHandle]
  rfl

/- The slot that a handle names is in use. -/
theorem Tracks.of_handle
    {k : Nat}
    {handle : SwapSlot}
    (hTracks : Tracks b c.names)
    (hHandle : c.handles[k]? = some handle) :
    handle.offset < swapSlotMax ∧
      (b.slots handle.offset).inUse = true :=
  hTracks.held handle.offset
    (List.mem_of_getElem? (names_getElem hHandle))

/- A handle that names the same slot keeps the names. -/
theorem names_set
    {k : Nat}
    {handle handle' : SwapSlot}
    (hHandle : c.handles[k]? = some handle)
    (hSame : handle'.offset = handle.offset) :
    (c.handles.set k handle').map SwapSlot.offset =
      c.names := by
  rcases List.getElem?_eq_some_iff.mp (names_getElem hHandle)
    with ⟨hk, hGet⟩
  rw [List.map_set, hSame, ← hGet]
  exact List.set_getElem_self hk

/- One call: the books stay balanced on its condition. -/
theorem run_balanced_iff
    (hTracks : Tracks c.state.budget c.names)
    (hBalanced : Balanced c)
    {call : SwapCall}
    (hCall : call.run pool c = some c') :
    Tracks c'.state.budget c'.names ∧
      (Balanced c' ↔ call.KeepsBalance c) := by
  cases call with
  | alloc size region out =>
      rcases Option.map_eq_some_iff.mp hCall with
        ⟨⟨rc, out', s'⟩, hAlloc, hEq⟩
      rcases swapSlotAlloc_cases hTracks.sound hAlloc with
        ⟨hRc, hBudget, hKeeps⟩ | ⟨slot, rfl, rfl, hReserves⟩
      · rw [if_neg hRc] at hEq
        subst hEq
        refine ⟨?_, iff_of_true ?_ hKeeps⟩
        · show Tracks s'.budget c.names
          rw [hBudget]
          exact hTracks
        · show _ = s'.budget.chargedKb
          rw [hBudget]
          exact hBalanced
      · rw [if_pos rfl] at hEq
        subst hEq
        refine ⟨?_,
          (hReserves.balanced_iff hBalanced).trans ?_⟩
        · have hNew := hReserves.tracks hTracks
          simpa [SwapClient.names] using hNew
        constructor
        · exact Or.inl
        · rintro (hRounds | ⟨heap, hNull⟩ | hNone)
          · exact hRounds
          · exact absurd hNull (hReserves.granted heap)
          · rw [hReserves.free] at hNone
            cases hNone
  | evict k =>
      rcases Option.bind_eq_some_iff.mp hCall with
        ⟨handle, hHandle, hMap⟩
      rcases Option.map_eq_some_iff.mp hMap with
        ⟨⟨rc, s'⟩, hEvict, rfl⟩
      have hOffset := (hTracks.of_handle hHandle).1
      have hRepoints := swapEvict_repoints hEvict
      exact ⟨hRepoints.tracks hTracks,
        iff_of_true (hRepoints.balanced hOffset hBalanced)
          trivial⟩
  | restore k =>
      rcases Option.bind_eq_some_iff.mp hCall with
        ⟨handle, hHandle, hMap⟩
      rcases Option.map_eq_some_iff.mp hMap with
        ⟨⟨rc, out', s'⟩, hRestore, rfl⟩
      have hOffset := (hTracks.of_handle hHandle).1
      rcases swapRestore_repoints hRestore with
        ⟨hRepoints, hNames⟩
      have hSet := hRepoints.tracks hTracks
      rw [← names_set hHandle hNames] at hSet
      exact ⟨hSet,
        iff_of_true (hRepoints.balanced hOffset hBalanced)
          trivial⟩
  | free k =>
      rcases Option.bind_eq_some_iff.mp hCall with
        ⟨handle, hHandle, hMap⟩
      rcases Option.map_eq_some_iff.mp hMap with
        ⟨s', hFree, rfl⟩
      have hName := names_getElem hHandle
      rcases hTracks.of_handle hHandle with ⟨hOffset, hUse⟩
      rcases swapSlotFree_budget hOffset hFree with
        ⟨slot, b, hCleared, hBudget, hFreed⟩
      rcases free_balanced_iff hTracks hOffset hUse hCleared
        hBalanced hFreed with ⟨hSound, hSlots, hIff⟩
      constructor
      · show Tracks s'.budget
          ((c.handles.eraseIdx k).map SwapSlot.offset)
        rw [hBudget, ← List.eraseIdx_map]
        exact free_tracks hTracks hName hSound hSlots hCleared
      · unfold Balanced
        simp only [hBudget]
        rw [hIff]
        constructor
        · intro hHeld other hOther
          rw [hHandle] at hOther
          cases hOther
          exact hHeld
        · intro hAll
          exact hAll handle hHandle

/-
  In every run the books are balanced in every state exactly
  if every call keeps the balance.
-/
theorem everyState_balanced_iff
    (pool : Heap.Pool)
    (heap : Heap.State)
    (calls : List SwapCall) :
    EveryState (fun c call => SwapCall.run pool c call)
        Balanced (SwapClient.start heap) calls ↔
      EveryStep (fun c call => SwapCall.run pool c call)
        (fun c call => call.KeepsBalance c)
        (SwapClient.start heap) calls := by
  have hStep :
      ∀ c call c', Tracks c.state.budget c.names →
        Balanced c → SwapCall.run pool c call = some c' →
          Tracks c'.state.budget c'.names ∧
            (Balanced c' ↔ call.KeepsBalance c) :=
    fun _ _ _ hTracks hBalanced hCall =>
      run_balanced_iff hTracks hBalanced hCall
  exact everyState_iff_everyStep hStep (start_tracks heap)
    (start_balanced heap) calls

end Runs

/- A slot of one kilobyte is evicted and then freed. -/
theorem not_everyState_balanced_evicted :
    ¬ EveryState
      (fun c call => SwapCall.run Heap.samplePool c call)
      Balanced
      (SwapClient.start
        (Heap.initMemoryManager Heap.samplePool
          ByteMem.zeros))
      [.alloc 1000 budgetApp ⟨false, 0, 0, 0, 0⟩, .evict 0,
        .free 0] := by
  rintro ⟨_, hAlloc⟩
  rcases hAlloc _ rfl with ⟨_, hEvict⟩
  rcases hEvict _ rfl with ⟨_, hFree⟩
  have hBalanced : Balanced _ := hFree _ rfl
  revert hBalanced
  unfold Balanced
  decide +kernel

end Swap

end AsmOS
