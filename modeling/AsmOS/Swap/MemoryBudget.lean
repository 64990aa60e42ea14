import Mathlib.Logic.Function.Basic
import AsmOS.Heap.MemoryManager

/-
  Memory budgets and swap slots (`src/memory_budget.c`).

  A budget region has a limit and a use in KB, 32-bit words
  both.  A swap slot owns heap memory while it is in RAM; its
  handle is a copy of it that names it by `offset`.

  Main declarations:
    * `Budget`, `memoryBudgetInit`
    * `memoryBudgetAlloc`, `memoryBudgetFree`,
      `memoryBudgetTotalUsedKb`
    * `swapSlotAlloc`, `swapEvict`, `swapRestore`,
      `swapSlotFree`
-/

------------------------------------------------------------
-- Regions And Slots
------------------------------------------------------------

namespace AsmOS

namespace Swap

abbrev budgetRegionMax : Nat := 8

abbrev swapSlotMax : Nat := 32

abbrev budgetKernel : Nat := 0

abbrev budgetNetwork : Nat := 1

abbrev budgetFs : Nat := 2

abbrev budgetStreaming : Nat := 3

abbrev budgetApp : Nat := 4

abbrev budgetPauseCache : Nat := 5

abbrev budgetSwapCache : Nat := 6

abbrev budgetOther : Nat := 7

/- `budget_entry_t`, without the name that is printed. -/
structure BudgetEntry where
  limitKb : UInt32
  usedKb : UInt32

/- `swap_slot_t`; the null pointer is 0. -/
structure SwapSlot where
  inUse : Bool
  offset : Nat
  localPtr : Nat
  size : UInt32
  region : Nat

/- The static variables of the file. -/
structure Budget where
  regions : Nat → BudgetEntry
  slots : Nat → SwapSlot
  inited : Bool

/- Static storage before the first call. -/
def Budget.boot : Budget where
  regions := fun _ => ⟨0, 0⟩
  slots := fun _ => ⟨false, 0, 0, 0, 0⟩
  inited := false

def Budget.setUsed
    (b : Budget)
    (region : Nat)
    (usedKb : UInt32) : Budget :=
  { b with
    regions :=
      Function.update b.regions region
        { b.regions region with usedKb } }

def Budget.setSlot
    (b : Budget)
    (i : Nat)
    (slot : SwapSlot) : Budget :=
  { b with slots := Function.update b.slots i slot }

section Stores

variable (b : Budget) (i region : Nat) (usedKb : UInt32)
variable (slot : SwapSlot)

@[simp] theorem setUsed_slots :
    (b.setUsed region usedKb).slots = b.slots :=
  rfl

@[simp] theorem setUsed_inited :
    (b.setUsed region usedKb).inited = b.inited :=
  rfl

@[simp] theorem setUsed_usedKb :
    ((b.setUsed region usedKb).regions region).usedKb =
      usedKb := by
  simp [Budget.setUsed]

@[simp] theorem setUsed_limitKb :
    ((b.setUsed region usedKb).regions region).limitKb =
      (b.regions region).limitKb := by
  simp [Budget.setUsed]

theorem setUsed_of_ne
    {i : Nat}
    (hNe : i ≠ region) :
    (b.setUsed region usedKb).regions i = b.regions i :=
  Function.update_of_ne hNe _ _

theorem setUsed_setUsed
    (usedKb' : UInt32) :
    (b.setUsed region usedKb).setUsed region usedKb' =
      b.setUsed region usedKb' := by
  simp [Budget.setUsed]

theorem setUsed_self :
    b.setUsed region (b.regions region).usedKb = b := by
  simp [Budget.setUsed]

@[simp] theorem setSlot_regions :
    (b.setSlot i slot).regions = b.regions :=
  rfl

@[simp] theorem setSlot_inited :
    (b.setSlot i slot).inited = b.inited :=
  rfl

@[simp] theorem setSlot_self :
    (b.setSlot i slot).slots i = slot := by
  simp [Budget.setSlot]

theorem setSlot_of_ne
    {j : Nat}
    (hNe : j ≠ i) :
    (b.setSlot i slot).slots j = b.slots j :=
  Function.update_of_ne hNe _ _

end Stores

------------------------------------------------------------
-- Budgets
------------------------------------------------------------

def memoryBudgetSetLimit
    (b : Budget)
    (region : Nat)
    (limitKb : UInt32) : Budget :=
  if budgetRegionMax ≤ region then b
  else
    { b with
      regions :=
        Function.update b.regions region
          { b.regions region with limitKb } }

/- Called again, it does nothing. -/
def memoryBudgetInit
    (b : Budget) : Budget :=
  if b.inited then b
  else
    let b := { b with regions := fun _ => ⟨0, 0⟩ }
    let b := memoryBudgetSetLimit b budgetKernel (4 * 1024)
    let b := memoryBudgetSetLimit b budgetNetwork (2 * 1024)
    let b := memoryBudgetSetLimit b budgetFs (1 * 1024)
    let b := memoryBudgetSetLimit b budgetStreaming (2 * 1024)
    let b := memoryBudgetSetLimit b budgetApp (16 * 1024)
    let b := memoryBudgetSetLimit b budgetPauseCache (2 * 1024)
    let b := memoryBudgetSetLimit b budgetSwapCache (4 * 1024)
    let b := memoryBudgetSetLimit b budgetOther (1 * 1024)
    { b with
      slots := fun i =>
        { b.slots i with inUse := false, localPtr := 0 }
      inited := true }

/- `(size_bytes + 1023) / 1024`, in 32 bits. -/
def sizeKb
    (sizeBytes : UInt32) : UInt32 :=
  (sizeBytes + 1023) / 1024

section Kilobytes

variable {size : UInt32}

theorem sizeKb_toNat
    (hRounds : size.toNat + 1023 < 2 ^ 32) :
    (sizeKb size).toNat = (size.toNat + 1023) / 1024 := by
  unfold sizeKb
  rw [UInt32.toNat_div, UInt32.toNat_add]
  have hBlock : (1023 : UInt32).toNat = 1023 := rfl
  have hKb : (1024 : UInt32).toNat = 1024 := rfl
  rw [hBlock, hKb, Nat.mod_eq_of_lt hRounds]

/- A size that wraps is charged nothing. -/
theorem sizeKb_wrapped
    (hWraps : ¬ size.toNat + 1023 < 2 ^ 32) :
    sizeKb size = 0 := by
  have hSize := size.toNat_lt
  have hBlock : (1023 : UInt32).toNat = 1023 := rfl
  have hKb : (1024 : UInt32).toNat = 1024 := rfl
  apply UInt32.toNat_inj.mp
  unfold sizeKb
  rw [UInt32.toNat_div, UInt32.toNat_add, hBlock, hKb]
  show _ = 0
  omega

/- A charge stays far below the width of the counters. -/
theorem sizeKb_le
    (size : UInt32) :
    (sizeKb size).toNat ≤ 2 ^ 22 := by
  by_cases hRounds : size.toNat + 1023 < 2 ^ 32
  · rw [sizeKb_toNat hRounds]
    omega
  · rw [sizeKb_wrapped hRounds]
    exact Nat.zero_le _

end Kilobytes

/- The result is 0 for a size over budget, 1 when charged. -/
def memoryBudgetAlloc
    (b : Budget)
    (region : Nat)
    (sizeBytes : UInt32) : Int × Budget :=
  let b := if b.inited then b else memoryBudgetInit b
  if budgetRegionMax ≤ region then (-1, b)
  else
    let entry := b.regions region
    let addKb := sizeKb sizeBytes
    if entry.limitKb < entry.usedKb + addKb ∧
        entry.limitKb ≠ 0 then (0, b)
    else (1, b.setUsed region (entry.usedKb + addKb))

def memoryBudgetFree
    (b : Budget)
    (region : Nat)
    (sizeBytes : UInt32) : Budget :=
  if budgetRegionMax ≤ region then b
  else
    let usedKb := (b.regions region).usedKb
    let subKb := sizeKb sizeBytes
    if usedKb < subKb then b.setUsed region 0
    else b.setUsed region (usedKb - subKb)

/- `memory_budget_total_used_kb`: a sum of 32 bits. -/
def memoryBudgetTotalUsedKb
    (b : Budget) : UInt32 :=
  (List.range budgetRegionMax).foldl
    (fun t i => t + (b.regions i).usedKb) 0

------------------------------------------------------------
-- Swap Slots
------------------------------------------------------------

/- The budgets and the heap. -/
structure State where
  budget : Budget
  heap : Heap.State

/- The first slot that is not in use. -/
def Budget.freeSlot
    (b : Budget) : Option Nat :=
  (List.range swapSlotMax).find? fun i => !(b.slots i).inUse

/-
  The result, what `out` points to and the state after a
  call.  A call has no result when a heap call has none.
-/
def swapSlotAlloc
    (pool : Heap.Pool)
    (s : State)
    (size : UInt32)
    (region : Nat)
    (out : Option SwapSlot) :
    Option (Int × Option SwapSlot × State) :=
  match out with
  | none => some (-1, none, s)
  | some _ =>
      match Heap.malloc s.heap size.toNat with
      | none => none
      | some (p, heap) =>
          if p = 0 then some (-2, out, { s with heap })
          else
            let charged :=
              memoryBudgetAlloc s.budget budgetSwapCache size
            if charged.1 = 0 then
              (Heap.free pool heap p).map fun heap =>
                (-3, out, ⟨charged.2, heap⟩)
            else
              match charged.2.freeSlot with
              | some i =>
                  let slot : SwapSlot :=
                    ⟨true, i, p, size, region⟩
                  some (0, some slot,
                    ⟨charged.2.setSlot i slot, heap⟩)
              | none =>
                  let b :=
                    memoryBudgetFree charged.2 budgetSwapCache
                      size
                  (Heap.free pool heap p).map fun heap =>
                    (-4, out, ⟨b, heap⟩)

/- The slot loses its memory. -/
def swapEvict
    (pool : Heap.Pool)
    (s : State)
    (slot : Option SwapSlot) : Option (Int × State) :=
  match slot with
  | none => some (-1, s)
  | some handle =>
      if swapSlotMax ≤ handle.offset then some (-1, s)
      else
        let real := s.budget.slots handle.offset
        if real.localPtr = 0 then some (0, s)
        else
          (Heap.free pool s.heap real.localPtr).map fun heap =>
            (0,
              ⟨s.budget.setSlot handle.offset
                { real with localPtr := 0 }, heap⟩)

/- The slot gets new memory; the handle is told of it. -/
def swapRestore
    (s : State)
    (slot : Option SwapSlot) :
    Option (Int × Option SwapSlot × State) :=
  match slot with
  | none => some (-1, none, s)
  | some handle =>
      if swapSlotMax ≤ handle.offset then some (-1, slot, s)
      else
        let real := s.budget.slots handle.offset
        if real.localPtr ≠ 0 then some (0, slot, s)
        else
          (Heap.malloc s.heap real.size.toNat).map fun got =>
            if got.1 = 0 then
              (-2, slot, { s with heap := got.2 })
            else
              (0, some { handle with localPtr := got.1 },
                ⟨s.budget.setSlot handle.offset
                  { real with localPtr := got.1 }, got.2⟩)

/- The charge is only given back with the memory. -/
def swapSlotFree
    (pool : Heap.Pool)
    (s : State)
    (slot : Option SwapSlot) : Option State :=
  match slot with
  | none => some s
  | some handle =>
      if swapSlotMax ≤ handle.offset then some s
      else
        let real := s.budget.slots handle.offset
        let cleared : SwapSlot :=
          { real with inUse := false, localPtr := 0 }
        if real.localPtr ≠ 0 then
          (Heap.free pool s.heap real.localPtr).map fun heap =>
            let b :=
              memoryBudgetFree s.budget budgetSwapCache
                real.size
            ⟨b.setSlot handle.offset cleared, heap⟩
        else
          some
            { s with
              budget :=
                s.budget.setSlot handle.offset cleared }

end Swap

end AsmOS
