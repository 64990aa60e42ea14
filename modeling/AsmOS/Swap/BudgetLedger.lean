import Mathlib.Algebra.BigOperators.Group.List.Basic
import AsmOS.Base.StepRuns
import AsmOS.Swap.MemoryBudget

/-
  The charges of budgets (`src/memory_budget.c`) over runs in
  which every free names an allocation that is outstanding.

  A size is rounded up to KB in 32 bits: a size near the end
  of the range is charged nothing.

  Main declarations:
    * `memoryBudgetCanAlloc`, `memoryBudgetAlloc_eq`
    * `Ledger`, `ledgerStep`
    * `Exact`, `ChargesExactly`
    * `exact_iff`
-/

------------------------------------------------------------
-- Charges
------------------------------------------------------------

namespace AsmOS

namespace Swap

open StepRuns

/- `memory_budget_can_alloc`. -/
def memoryBudgetCanAlloc
    (b : Budget)
    (region : Nat)
    (sizeBytes : UInt32) : Bool :=
  if budgetRegionMax ≤ region then false
  else
    let entry := b.regions region
    let addKb := sizeKb sizeBytes
    if entry.limitKb = 0 then true
    else decide (entry.usedKb + addKb ≤ entry.limitKb)

section Charges

variable {b : Budget}

/- An allocation charges its region exactly if it can. -/
theorem memoryBudgetAlloc_eq
    (b : Budget)
    (region : Nat)
    (size : UInt32) :
    memoryBudgetAlloc b region size =
      if memoryBudgetCanAlloc (memoryBudgetInit b) region size
      then
        (1,
          (memoryBudgetInit b).setUsed region
            (((memoryBudgetInit b).regions region).usedKb +
              sizeKb size))
      else
        (if budgetRegionMax ≤ region then -1 else 0,
          memoryBudgetInit b) := by
  have hEntered :
      (if b.inited = true then b else memoryBudgetInit b) =
        memoryBudgetInit b := by
    unfold memoryBudgetInit
    split
    · rfl
    · rfl
  unfold memoryBudgetAlloc memoryBudgetCanAlloc
  rw [hEntered]
  generalize memoryBudgetInit b = b
  by_cases hRegion : budgetRegionMax ≤ region
  · rw [if_pos hRegion, if_pos hRegion, if_pos hRegion,
      if_neg Bool.false_ne_true]
  · rw [if_neg hRegion, if_neg hRegion, if_neg hRegion]
    dsimp only
    by_cases hNone : (b.regions region).limitKb = 0
    · rw [if_pos hNone, if_neg (fun h => h.2 hNone), if_pos rfl]
    · rw [if_neg hNone]
      by_cases hOver :
          (b.regions region).limitKb <
            (b.regions region).usedKb + sizeKb size
      · rw [if_pos ⟨hOver, hNone⟩,
          decide_eq_false (UInt32.not_le.mpr hOver),
          if_neg Bool.false_ne_true]
      · rw [if_neg (fun h => hOver h.1),
          decide_eq_true (UInt32.not_lt.mp hOver), if_pos rfl]

@[simp] theorem setLimit_usedKb
    (b : Budget)
    (region : Nat)
    (limitKb : UInt32)
    (i : Nat) :
    ((memoryBudgetSetLimit b region limitKb).regions
        i).usedKb =
      (b.regions i).usedKb := by
  unfold memoryBudgetSetLimit
  split
  · rfl
  · by_cases hSame : i = region
    · subst hSame
      simp
    · simp [Function.update_of_ne hSame]

@[simp] theorem setLimit_inited
    (b : Budget)
    (region : Nat)
    (limitKb : UInt32) :
    (memoryBudgetSetLimit b region limitKb).inited =
      b.inited := by
  unfold memoryBudgetSetLimit
  split <;> rfl

theorem memoryBudgetInit_of_inited
    (hInited : b.inited = true) :
    memoryBudgetInit b = b :=
  if_pos hInited

theorem memoryBudgetInit_inited
    (b : Budget) :
    (memoryBudgetInit b).inited = true := by
  unfold memoryBudgetInit
  split
  · assumption
  · rfl

/- The first call leaves every region unused. -/
theorem memoryBudgetInit_usedKb
    (hFirst : ¬ b.inited = true)
    (i : Nat) :
    ((memoryBudgetInit b).regions i).usedKb = 0 := by
  unfold memoryBudgetInit
  rw [if_neg hFirst]
  simp

theorem memoryBudgetFree_inited
    (b : Budget)
    (region : Nat)
    (size : UInt32) :
    (memoryBudgetFree b region size).inited = b.inited := by
  unfold memoryBudgetFree
  split
  · rfl
  · dsimp only
    split <;> rfl

end Charges

------------------------------------------------------------
-- Runs
------------------------------------------------------------

inductive LedgerCall where
| init
| setLimit
    (region : Nat)
    (limitKb : UInt32)
| alloc
    (region : Nat)
    (sizeBytes : UInt32)
| free
    (region : Nat)
    (sizeBytes : UInt32)

/-
  The budgets, with the regions and sizes of the allocations
  that succeeded and are not freed.
-/
structure Ledger where
  budget : Budget
  outstanding : List (Nat × UInt32)

def Ledger.start : Ledger := ⟨Budget.boot, []⟩

/- A free has a step if it names an outstanding allocation. -/
def ledgerStep
    (x : Ledger) : LedgerCall → Option Ledger
| .init => some { x with budget := memoryBudgetInit x.budget }
| .setLimit region limitKb =>
    some
      { x with
        budget := memoryBudgetSetLimit x.budget region limitKb }
| .alloc region sizeBytes =>
    match memoryBudgetAlloc x.budget region sizeBytes with
    | (rc, budget) =>
        some
          ⟨budget,
            if rc = 1 then
              (region, sizeBytes) :: x.outstanding
            else
              x.outstanding⟩
| .free region sizeBytes =>
    if (region, sizeBytes) ∈ x.outstanding then
      some
        ⟨memoryBudgetFree x.budget region sizeBytes,
          x.outstanding.erase (region, sizeBytes)⟩
    else
      none

------------------------------------------------------------
-- Statements
------------------------------------------------------------

/- `ceil(size / 1024)`, in exact integers. -/
def ceilKb
    (size : UInt32) : Nat :=
  (size.toNat + 1023) / 1024

def Ledger.outstandingKb
    (x : Ledger)
    (region : Nat) : Nat :=
  ((x.outstanding.filter fun a => a.1 = region).map fun a =>
    ceilKb a.2).sum

def Exact
    (x : Ledger) : Prop :=
  ∀ region < budgetRegionMax,
    (x.budget.regions region).usedKb.toNat =
      x.outstandingKb region

/-
  An allocation that will be charged is rounded, and added to
  what is outstanding, within 32 bits.
-/
def ChargesExactly
    (x : Ledger) : LedgerCall → Prop
| .alloc region sizeBytes =>
    memoryBudgetCanAlloc (memoryBudgetInit x.budget) region
        sizeBytes = true →
      sizeBytes.toNat + 1023 < 2 ^ 32 ∧
        x.outstandingKb region + ceilKb sizeBytes < 2 ^ 32
| _ => True

------------------------------------------------------------
-- Steps
------------------------------------------------------------

/- What a run keeps while its charges are exact. -/
structure Ledger.Rounds
    (x : Ledger) : Prop where
  started : x.budget.inited = true ∨ x.outstanding = []
  sizes : ∀ a ∈ x.outstanding, a.2.toNat + 1023 < 2 ^ 32

section Steps

variable {x y : Ledger}

/- A charge is exact, or it is nothing for a large size. -/
theorem sizeKb_eq_ceilKb_iff
    (size : UInt32) :
    (sizeKb size).toNat = ceilKb size ↔
      size.toNat + 1023 < 2 ^ 32 := by
  unfold ceilKb
  constructor
  · intro hSame
    by_contra hWraps
    rw [sizeKb_wrapped hWraps] at hSame
    have hZero : (0 : UInt32).toNat = 0 := rfl
    omega
  · exact sizeKb_toNat

theorem outstandingKb_cons
    (b : Budget)
    (a : Nat × UInt32)
    (as : List (Nat × UInt32))
    (region : Nat) :
    Ledger.outstandingKb ⟨b, a :: as⟩ region =
      (if a.1 = region then ceilKb a.2 else 0) +
        Ledger.outstandingKb ⟨b, as⟩ region := by
  unfold Ledger.outstandingKb
  dsimp only
  by_cases hSame : a.1 = region
  · rw [if_pos hSame]
    simp [hSame]
  · rw [if_neg hSame, Nat.zero_add]
    simp [hSame]

/- An allocation that is freed leaves the sum. -/
theorem outstandingKb_erase
    (b b' : Budget)
    {a : Nat × UInt32}
    {as : List (Nat × UInt32)}
    (hMember : a ∈ as)
    (region : Nat) :
    Ledger.outstandingKb ⟨b, as⟩ region =
      (if a.1 = region then ceilKb a.2 else 0) +
        Ledger.outstandingKb ⟨b', as.erase a⟩ region := by
  have hPerm := List.perm_cons_erase hMember
  have hSum :
      Ledger.outstandingKb ⟨b, as⟩ region =
        Ledger.outstandingKb ⟨b', a :: as.erase a⟩ region :=
    ((hPerm.filter _).map _).sum_eq
  rw [hSum, outstandingKb_cons]

theorem init_kept
    (hRounds : x.Rounds)
    (hExact : Exact x) :
    Ledger.Rounds
        { x with budget := memoryBudgetInit x.budget } ∧
      Exact { x with budget := memoryBudgetInit x.budget } := by
  refine ⟨⟨.inl (memoryBudgetInit_inited _), hRounds.sizes⟩, ?_⟩
  by_cases hInited : x.budget.inited = true
  · rw [memoryBudgetInit_of_inited hInited]
    exact hExact
  · have hNone := hRounds.started.resolve_left hInited
    intro region _
    dsimp only
    rw [memoryBudgetInit_usedKb hInited]
    unfold Ledger.outstandingKb
    dsimp only
    rw [hNone]
    rfl

/- A charge keeps the sums exactly if it does not wrap. -/
theorem charge_exact_iff
    {region : Nat}
    (hRegion : region < budgetRegionMax)
    (hExact : Exact x)
    (size : UInt32) :
    Exact
        ⟨x.budget.setUsed region
            ((x.budget.regions region).usedKb + sizeKb size),
          (region, size) :: x.outstanding⟩ ↔
      size.toNat + 1023 < 2 ^ 32 ∧
        x.outstandingKb region + ceilKb size < 2 ^ 32 := by
  have hUsed := hExact region hRegion
  have hOwn :
      ∀ b, Ledger.outstandingKb
          ⟨b, (region, size) :: x.outstanding⟩ region =
        ceilKb size + x.outstandingKb region := by
    intro b
    rw [outstandingKb_cons, if_pos rfl]
    rfl
  have hCharge := sizeKb_le size
  constructor
  · intro hAfter
    have hSum := hAfter region hRegion
    dsimp only at hSum
    rw [setUsed_usedKb, hOwn, UInt32.toNat_add, hUsed] at hSum
    have hSize : size.toNat + 1023 < 2 ^ 32 := by
      by_contra hWraps
      rw [sizeKb_wrapped hWraps] at hSum
      have hBelow := Nat.mod_le (x.outstandingKb region) (2 ^ 32)
      have hZero : (0 : UInt32).toNat = 0 := rfl
      unfold ceilKb at hSum
      omega
    have hRounded := (sizeKb_eq_ceilKb_iff size).mpr hSize
    exact ⟨hSize, by omega⟩
  · rintro ⟨hSize, hFits⟩ i hi
    have hRounded := (sizeKb_eq_ceilKb_iff size).mpr hSize
    dsimp only
    by_cases hSame : i = region
    · subst hSame
      rw [setUsed_usedKb, hOwn, UInt32.toNat_add, hUsed,
        hRounded, Nat.mod_eq_of_lt hFits, Nat.add_comm]
    · rw [setUsed_of_ne _ _ _ hSame, outstandingKb_cons,
        if_neg (Ne.symm hSame), Nat.zero_add]
      exact hExact i hi

/- A free takes back what was charged. -/
theorem free_kept
    (hRounds : x.Rounds)
    (hExact : Exact x)
    {region : Nat}
    {size : UInt32}
    (hMember : (region, size) ∈ x.outstanding) :
    Ledger.Rounds
        ⟨memoryBudgetFree x.budget region size,
          x.outstanding.erase (region, size)⟩ ∧
      Exact
        ⟨memoryBudgetFree x.budget region size,
          x.outstanding.erase (region, size)⟩ := by
  have hSize := hRounds.sizes _ hMember
  have hRounded := (sizeKb_eq_ceilKb_iff size).mpr hSize
  refine ⟨⟨?_, fun a ha =>
    hRounds.sizes a (List.mem_of_mem_erase ha)⟩, ?_⟩
  · left
    dsimp only
    rw [memoryBudgetFree_inited]
    refine hRounds.started.resolve_right fun hNone => ?_
    rw [hNone] at hMember
    cases hMember
  · intro i hi
    have hBefore := hExact i hi
    have hSplit :=
      outstandingKb_erase x.budget
        (memoryBudgetFree x.budget region size) hMember i
    change x.outstandingKb i = _ at hSplit
    rw [hSplit] at hBefore
    by_cases hSame : i = region
    · subst hSame
      rw [if_pos rfl, ← hRounded] at hBefore
      have hEnough :
          ¬ (x.budget.regions i).usedKb < sizeKb size := by
        rw [UInt32.lt_iff_toNat_lt]
        omega
      have hFree :
          memoryBudgetFree x.budget i size =
            x.budget.setUsed i
              ((x.budget.regions i).usedKb - sizeKb size) := by
        unfold memoryBudgetFree
        rw [if_neg (Nat.not_le.mpr hi)]
        exact if_neg hEnough
      rw [hFree] at hBefore ⊢
      dsimp only
      rw [setUsed_usedKb,
        UInt32.toNat_sub_of_le _ _ (UInt32.not_lt.mp hEnough)]
      omega
    · rw [if_neg (Ne.symm hSame), Nat.zero_add] at hBefore
      have hOther :
          (memoryBudgetFree x.budget region size).regions i =
            x.budget.regions i := by
        unfold memoryBudgetFree
        split
        · rfl
        · dsimp only
          split
          · exact setUsed_of_ne _ _ _ hSame
          · exact setUsed_of_ne _ _ _ hSame
      dsimp only
      rw [hOther]
      exact hBefore

/- What an allocation keeps, and when. -/
theorem alloc_step
    (hRounds : x.Rounds)
    (hExact : Exact x)
    {region : Nat}
    {size : UInt32}
    (hNext : ledgerStep x (.alloc region size) = some y) :
    (Exact y ↔ ChargesExactly x (.alloc region size)) ∧
      (Exact y → y.Rounds) := by
  have hEntered := init_kept hRounds hExact
  unfold ledgerStep at hNext
  dsimp only at hNext
  rw [memoryBudgetAlloc_eq] at hNext
  by_cases hCan :
      memoryBudgetCanAlloc (memoryBudgetInit x.budget) region
        size = true
  · have hRegion : region < budgetRegionMax := by
      by_contra hPast
      unfold memoryBudgetCanAlloc at hCan
      rw [if_pos (Nat.le_of_not_lt hPast)] at hCan
      cases hCan
    rw [if_pos hCan] at hNext
    dsimp only at hNext
    rw [if_pos rfl] at hNext
    cases hNext
    have hIff := charge_exact_iff hRegion hEntered.2 size
    refine ⟨hIff.trans ⟨fun hFits _ => hFits,
        fun hFits => hFits hCan⟩,
      fun hAfter => ⟨.inl (memoryBudgetInit_inited _), ?_⟩⟩
    have hSize := (hIff.mp hAfter).1
    exact List.forall_mem_cons.mpr ⟨hSize, hRounds.sizes⟩
  · rw [if_neg hCan] at hNext
    have hNot :
        ¬ (if budgetRegionMax ≤ region then (-1 : Int)
          else 0) = 1 := by
      split
      · decide
      · decide
    dsimp only at hNext
    rw [if_neg hNot] at hNext
    cases hNext
    exact ⟨iff_of_true hEntered.2 fun h => absurd h hCan,
      fun _ => hEntered.1⟩

/- What a step keeps, and when. -/
theorem ledger_step
    (hRounds : x.Rounds)
    (hExact : Exact x)
    {call : LedgerCall}
    (hNext : ledgerStep x call = some y) :
    (Exact y ↔ ChargesExactly x call) ∧
      (Exact y → y.Rounds) := by
  have hKept :
      ∀ {z : Ledger}, z.Rounds ∧ Exact z →
        (Exact z ↔ True) ∧ (Exact z → z.Rounds) :=
    fun h => ⟨iff_true_intro h.2, fun _ => h.1⟩
  cases call with
  | init =>
      cases hNext
      exact hKept (init_kept hRounds hExact)
  | setLimit region limitKb =>
      cases hNext
      refine hKept ⟨⟨?_, hRounds.sizes⟩, fun i hi => ?_⟩
      · dsimp only
        rw [setLimit_inited]
        exact hRounds.started
      · dsimp only
        rw [setLimit_usedKb]
        exact hExact i hi
  | alloc region size => exact alloc_step hRounds hExact hNext
  | free region size =>
      unfold ledgerStep at hNext
      dsimp only at hNext
      split at hNext
      · next hMember =>
          cases hNext
          exact hKept (free_kept hRounds hExact hMember)
      · cases hNext

end Steps

/-
  In every run from boot the use of each region is the exact
  sum of what is outstanding exactly if no charge of the run
  is rounded or added beyond 32 bits.
-/
theorem exact_iff
    (calls : List LedgerCall) :
    EveryState ledgerStep Exact Ledger.start calls ↔
      EveryStep ledgerStep ChargesExactly Ledger.start
        calls := by
  have hStep :
      ∀ x call y, (Exact x → x.Rounds) → Exact x →
        ledgerStep x call = some y →
          (Exact y → y.Rounds) ∧
            (Exact y ↔ ChargesExactly x call) := by
    intro x call y hRounds hExact hNext
    exact (ledger_step (hRounds hExact) hExact hNext).symm
  refine everyState_iff_everyStep hStep (fun _ => ?_)
    (fun _ _ => rfl) calls
  exact ⟨.inr rfl, fun _ hNone => nomatch hNone⟩

/- The largest size is charged nothing. -/
theorem not_exact :
    ¬ ∀ calls,
      EveryState ledgerStep Exact Ledger.start calls := by
  intro hAlways
  have hRun := hAlways [.alloc budgetApp 0xFFFFFFFF]
  have hAfter := hRun.2 _ rfl budgetApp (by decide)
  exact absurd hAfter (by decide)

end Swap

end AsmOS
