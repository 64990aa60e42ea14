import Mathlib.Algebra.Order.BigOperators.Group.List
import Mathlib.Data.List.Induction
import AsmOS.Swap.MemoryBudget

/-
  The default limits over every run of allocations and frees.

  Main declarations:
    * `BudgetCall`, `budgetRun`
    * `WithinLimits`
    * `budgetRun_bounded`
-/

------------------------------------------------------------
-- Runs
------------------------------------------------------------

namespace AsmOS

namespace Swap

/- A call that moves KB in or out of a region. -/
inductive BudgetCall where
| alloc
    (region : Nat)
    (sizeBytes : UInt32)
| free
    (region : Nat)
    (sizeBytes : UInt32)

def BudgetCall.run
    (b : Budget) : BudgetCall → Budget
| .alloc region sizeBytes =>
    (memoryBudgetAlloc b region sizeBytes).2
| .free region sizeBytes => memoryBudgetFree b region sizeBytes

/- The budgets after `memory_budget_init` and the calls. -/
def budgetRun
    (calls : List BudgetCall) : Budget :=
  calls.foldl BudgetCall.run (memoryBudgetInit Budget.boot)

/- The limit that `memory_budget_init` sets. -/
def defaultLimit
    (region : Nat) : UInt32 :=
  ((memoryBudgetInit Budget.boot).regions region).limitKb

/- The RAM in KB. -/
abbrev ramKb : Nat := 32768

/-
  No region is over its limit, all of them fit in the RAM,
  and neither their sum nor the sum that the next allocation
  compares with a limit wraps.
-/
structure Budget.Bounded
    (b : Budget) : Prop where
  region :
    ∀ i < budgetRegionMax,
      (b.regions i).limitKb = defaultLimit i ∧
        (b.regions i).usedKb ≤ defaultLimit i
  comparison :
    ∀ i < budgetRegionMax, ∀ sizeBytes,
      ((b.regions i).usedKb + sizeKb sizeBytes).toNat =
        (b.regions i).usedKb.toNat + (sizeKb sizeBytes).toNat
  exact_total :
    (memoryBudgetTotalUsedKb b).toNat =
      ((List.range budgetRegionMax).map fun i =>
        (b.regions i).usedKb.toNat).sum
  total : (memoryBudgetTotalUsedKb b).toNat ≤ ramKb

------------------------------------------------------------
-- One Call
------------------------------------------------------------

/- What a run keeps. -/
structure WithinLimits
    (b : Budget) : Prop where
  inited : b.inited = true
  limit :
    ∀ i < budgetRegionMax,
      (b.regions i).limitKb = defaultLimit i
  used :
    ∀ i < budgetRegionMax,
      (b.regions i).usedKb ≤ defaultLimit i

section Calls

variable {b : Budget}

theorem defaultLimit_pos :
    ∀ i < budgetRegionMax, defaultLimit i ≠ 0 := by
  decide

theorem defaultLimit_le :
    ∀ i < budgetRegionMax,
      (defaultLimit i).toNat ≤ 16384 := by
  decide

theorem init_withinLimits :
    WithinLimits (memoryBudgetInit Budget.boot) where
  inited := rfl
  limit := fun _ _ => rfl
  used := by decide

/- A region that stays within its limit. -/
theorem WithinLimits.setUsed
    {region : Nat}
    {kb : UInt32}
    (hWithin : WithinLimits b)
    (hKb : kb ≤ defaultLimit region) :
    WithinLimits (b.setUsed region kb) := by
  refine ⟨hWithin.inited, fun i hi => ?_, fun i hi => ?_⟩
  · by_cases hSame : i = region
    · subst hSame
      rw [setUsed_limitKb]
      exact hWithin.limit i hi
    · rw [setUsed_of_ne _ _ _ hSame]
      exact hWithin.limit i hi
  · by_cases hSame : i = region
    · subst hSame
      rw [setUsed_usedKb]
      exact hKb
    · rw [setUsed_of_ne _ _ _ hSame]
      exact hWithin.used i hi

/- An allocation is refused or stays within the limit. -/
theorem WithinLimits.alloc
    (hWithin : WithinLimits b)
    (region : Nat)
    (sizeBytes : UInt32) :
    WithinLimits
      (memoryBudgetAlloc b region sizeBytes).2 := by
  unfold memoryBudgetAlloc
  rw [if_pos hWithin.inited]
  by_cases hRegion : budgetRegionMax ≤ region
  · rw [if_pos hRegion]
    exact hWithin
  rw [if_neg hRegion]
  have hi : region < budgetRegionMax := Nat.lt_of_not_le hRegion
  have hSome := defaultLimit_pos region hi
  dsimp only
  rw [hWithin.limit region hi]
  split
  · exact hWithin
  · next hFits =>
      apply hWithin.setUsed
      rw [not_and_or, not_not] at hFits
      exact UInt32.not_lt.mp (hFits.resolve_right hSome)

/- A free only lowers what is used. -/
theorem WithinLimits.free
    (hWithin : WithinLimits b)
    (region : Nat)
    (sizeBytes : UInt32) :
    WithinLimits (memoryBudgetFree b region sizeBytes) := by
  unfold memoryBudgetFree
  by_cases hRegion : budgetRegionMax ≤ region
  · rw [if_pos hRegion]
    exact hWithin
  rw [if_neg hRegion]
  have hi : region < budgetRegionMax := Nat.lt_of_not_le hRegion
  have hUsed := hWithin.used region hi
  dsimp only
  split
  · exact hWithin.setUsed UInt32.zero_le
  · next hEnough =>
      apply hWithin.setUsed
      rw [UInt32.not_lt] at hEnough
      rw [UInt32.le_iff_toNat_le] at hUsed ⊢
      rw [UInt32.toNat_sub_of_le _ _ hEnough]
      omega

theorem WithinLimits.run
    (hWithin : WithinLimits b)
    (call : BudgetCall) :
    WithinLimits (call.run b) := by
  cases call with
  | alloc region sizeBytes =>
      exact hWithin.alloc region sizeBytes
  | free region sizeBytes => exact hWithin.free region sizeBytes

/- A sum of words below a sum of bounds does not wrap. -/
theorem foldl_add_toNat
    {is : List Nat}
    {word : Nat → UInt32}
    {bound : Nat → Nat}
    (hWord : ∀ i ∈ is, (word i).toNat ≤ bound i)
    (t : UInt32)
    (hFits : t.toNat + (is.map bound).sum < 2 ^ 32) :
    (is.foldl (fun t i => t + word i) t).toNat =
      t.toNat + (is.map fun i => (word i).toNat).sum := by
  induction is generalizing t with
  | nil => rfl
  | cons i is ih =>
      have hFirst := hWord i List.mem_cons_self
      rw [List.map_cons, List.sum_cons] at hFits
      have hSum : (t + word i).toNat = t.toNat + (word i).toNat := by
        rw [UInt32.toNat_add]
        exact Nat.mod_eq_of_lt (by omega)
      rw [List.foldl_cons,
        ih (fun j hj => hWord j (List.mem_cons_of_mem i hj))
          (t + word i) (by omega),
        hSum, List.map_cons, List.sum_cons]
      omega

theorem sum_defaultLimit :
    ((List.range budgetRegionMax).map fun i =>
      (defaultLimit i).toNat).sum = ramKb := by
  decide

/- The counters are small, so no sum of them wraps. -/
theorem WithinLimits.bounded
    (hWithin : WithinLimits b) :
    b.Bounded := by
  have hUsed :
      ∀ i ∈ List.range budgetRegionMax,
        (b.regions i).usedKb.toNat ≤ (defaultLimit i).toNat :=
    fun i hi =>
      UInt32.le_iff_toNat_le.mp
        (hWithin.used i (List.mem_range.mp hi))
  have hZero : (0 : UInt32).toNat = 0 := rfl
  have hTotal :
      (memoryBudgetTotalUsedKb b).toNat =
        ((List.range budgetRegionMax).map fun i =>
          (b.regions i).usedKb.toNat).sum := by
    unfold memoryBudgetTotalUsedKb
    rw [foldl_add_toNat hUsed 0 (by
      rw [sum_defaultLimit, hZero]
      decide), hZero, Nat.zero_add]
  refine ⟨fun i hi => ⟨hWithin.limit i hi, hWithin.used i hi⟩,
    fun i hi sizeBytes => ?_, hTotal, ?_⟩
  · have hBelow := hUsed i (List.mem_range.mpr hi)
    have hLimit := defaultLimit_le i hi
    have hKb := sizeKb_le sizeBytes
    rw [UInt32.toNat_add]
    exact Nat.mod_eq_of_lt (by omega)
  · rw [hTotal, ← sum_defaultLimit]
    exact List.sum_le_sum hUsed

end Calls

theorem budgetRun_withinLimits
    (calls : List BudgetCall) :
    WithinLimits (budgetRun calls) := by
  induction calls using List.reverseRecOn with
  | nil => exact init_withinLimits
  | append_singleton calls call ih =>
      rw [budgetRun, List.foldl_append]
      exact ih.run call

/- In every run the limits hold and nothing wraps. -/
theorem budgetRun_bounded
    (calls : List BudgetCall) :
    (budgetRun calls).Bounded :=
  (budgetRun_withinLimits calls).bounded

end Swap

end AsmOS
