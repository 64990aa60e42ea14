import Mathlib.Data.List.Basic
import AsmOS.Base.Loops

/-
  Compaction of rows in place.

  A scan goes from the last row to the first.  A row that is
  full is taken out, the rows above it move down, an empty
  one comes in on top, and the scan stays where it is.

  Main declarations:
    * `Compaction.Scan`, `Compaction.scanStep`
    * `Compaction.Removes`, `Compaction.settled`
    * `Compaction.scan_settles`
-/

------------------------------------------------------------
-- Scans
------------------------------------------------------------

namespace Compaction

variable {σ ρ : Type}

/- The row that is tested next, and what was done so far. -/
structure Scan (σ : Type) where
  row : Int
  removed : Nat
  state : σ

def scanStep
    (full : Int → σ → Bool)
    (remove : Int → σ → σ)
    (t : Scan σ) : Scan σ :=
  if full t.row t.state then
    { t with
      removed := t.removed + 1
      state := remove t.row t.state }
  else
    { t with row := t.row - 1 }

/- Rows are left to be tested. -/
def scanning
    (t : Scan σ) : Bool :=
  decide (0 ≤ t.row)

/- A scan from the last of `n` rows. -/
def scan
    (full : Int → σ → Bool)
    (remove : Int → σ → σ)
    (n tests : Nat)
    (s : σ) : Option (Scan σ) :=
  Loops.whileLoop scanning (scanStep full remove) tests
    ⟨(n : Int) - 1, 0, s⟩

------------------------------------------------------------
-- Settled Rows
------------------------------------------------------------

/- The rows that are not full, below as many empty ones. -/
def settled
    (isFull : ρ → Bool)
    (empty : ρ)
    (rows : List ρ) : List ρ :=
  List.replicate (rows.countP isFull) empty ++
    rows.filter fun x => !isFull x

/- What the tests and the removals must do to the rows. -/
structure Removes
    (rows : σ → List ρ)
    (isFull : ρ → Bool)
    (empty : ρ)
    (full : Int → σ → Bool)
    (remove : Int → σ → σ) : Prop where
  empty_not_full : isFull empty = false
  full_eq :
    ∀ s above x below, rows s = above ++ x :: below →
      full above.length s = isFull x
  rows_remove :
    ∀ s above x below, rows s = above ++ x :: below →
      rows (remove above.length s) = empty :: (above ++ below)

section Settling

variable {rows : σ → List ρ} {isFull : ρ → Bool} {empty : ρ}
variable {full : Int → σ → Bool} {remove : Int → σ → σ}

/- A row at the bottom stays there, unless it is full. -/
theorem settled_snoc_keep
    {x : ρ}
    (hKeep : isFull x = false)
    (above : List ρ) :
    settled isFull empty (above ++ [x]) =
      settled isFull empty above ++ [x] := by
  unfold settled
  rw [List.countP_append, List.filter_append,
    List.countP_singleton, hKeep, if_neg Bool.false_ne_true,
    List.filter_cons_of_pos (by rw [hKeep]; rfl),
    List.filter_nil, Nat.add_zero, List.append_assoc]

/- A full one is an empty row on top of the others. -/
theorem settled_snoc_full
    (hEmpty : isFull empty = false)
    {x : ρ}
    (hFull : isFull x = true)
    (above : List ρ) :
    settled isFull empty (above ++ [x]) =
      settled isFull empty (empty :: above) := by
  unfold settled
  rw [List.countP_append, List.filter_append,
    List.countP_singleton, hFull, if_pos rfl,
    List.filter_cons_of_neg (by rw [hFull]; decide),
    List.filter_nil, List.append_nil,
    List.countP_cons_of_neg (by rw [hEmpty]; decide),
    List.filter_cons_of_pos (by rw [hEmpty]; rfl),
    List.replicate_succ', List.append_assoc,
    List.singleton_append]

/- No row is full then. -/
theorem not_full_of_mem_settled
    (hEmpty : isFull empty = false)
    {above : List ρ}
    {x : ρ}
    (hMem : x ∈ settled isFull empty above) :
    isFull x = false := by
  rcases List.mem_append.mp hMem with hNew | hOld
  · rw [List.eq_of_mem_replicate hNew]
    exact hEmpty
  · have hTest := (List.mem_filter.mp hOld).2
    exact Bool.not_eq_true' _ ▸ hTest

/- One step of the scan. -/
theorem scanStep_full
    (hRemoves : Removes rows isFull empty full remove)
    {s : σ}
    {above below : List ρ}
    {x : ρ}
    (hRows : rows s = above ++ x :: below)
    (hFull : isFull x = true)
    (removed : Nat) :
    scanStep full remove ⟨above.length, removed, s⟩ =
      ⟨above.length, removed + 1, remove above.length s⟩ :=
  if_pos ((hRemoves.full_eq s above x below hRows).trans hFull)

theorem scanStep_keep
    (hRemoves : Removes rows isFull empty full remove)
    {s : σ}
    {above below : List ρ}
    {x : ρ}
    (hRows : rows s = above ++ x :: below)
    (hKeep : isFull x = false)
    (removed : Nat) :
    scanStep full remove ⟨above.length, removed, s⟩ =
      ⟨(above.length : Int) - 1, removed, s⟩ := by
  refine if_neg ?_
  rw [hRemoves.full_eq s above x below hRows, hKeep]
  exact Bool.false_ne_true

/-
  The scan of some rows, with rows below them that were
  scanned already, settles them.  A removal leaves the rows
  to scan and makes a full one less, so that the sum of both
  is how often the test holds.
-/
theorem scan_from
    (hRemoves : Removes rows isFull empty full remove)
    {n : Nat}
    (above below : List ρ)
    (s : σ)
    (row : Int)
    (removed : Nat)
    {tests : Nat}
    (hCount : above.countP isFull + above.length = n)
    (hTests : n < tests)
    (hRow : row = above.length - 1)
    (hRows : rows s = above ++ below) :
    ∃ s',
      Loops.whileLoop scanning (scanStep full remove) tests
          ⟨row, removed, s⟩ =
        some ⟨-1, removed + above.countP isFull, s'⟩ ∧
      rows s' = settled isFull empty above ++ below := by
  have hEmpty := hRemoves.empty_not_full
  induction n generalizing above below s row removed tests with
  | zero =>
      have hNil : above = [] :=
        List.length_eq_zero_iff.mp (by omega)
      subst hNil hRow
      cases tests with
      | zero => exact absurd hTests (Nat.lt_irrefl 0)
      | succ tests =>
          exact ⟨s, Loops.whileLoop_of_not rfl tests, hRows⟩
  | succ n ih =>
      cases tests with
      | zero => exact absurd hTests (Nat.not_lt_zero _)
      | succ tests =>
          rcases List.eq_nil_or_concat' above with
            rfl | ⟨init, x, rfl⟩
          · exact absurd hCount (Nat.zero_ne_add_one n)
          · have hLast :
                (init ++ [x]).countP isFull =
                  init.countP isFull +
                    if isFull x = true then 1 else 0 := by
              rw [List.countP_append, List.countP_singleton]
            rw [hLast, List.length_append, List.length_singleton]
              at hCount
            have hHere : row = init.length := by
              rw [hRow, List.length_append,
                List.length_singleton]
              omega
            have hSplit : rows s = init ++ x :: below := by
              rw [hRows, List.append_assoc,
                List.singleton_append]
            have hTest :
                scanning ⟨row, removed, s⟩ = true :=
              decide_eq_true (hHere ▸ Int.natCast_nonneg _)
            rw [Loops.whileLoop_of_test hTest, hHere]
            cases hFull : isFull x with
            | true =>
                rw [hFull, if_pos rfl] at hCount
                have hNext :
                    (empty :: init).countP isFull +
                        (empty :: init).length = n := by
                  rw [List.countP_cons_of_neg
                    (by rw [hEmpty]; decide), List.length_cons]
                  omega
                have hMoved :
                    rows (remove init.length s) =
                      (empty :: init) ++ below := by
                  rw [hRemoves.rows_remove s init x below hSplit]
                  rfl
                rcases ih (empty :: init) below
                    (remove init.length s) init.length
                    (removed + 1) hNext
                    (Nat.lt_of_succ_lt_succ hTests)
                    (by rw [List.length_cons]; omega) hMoved
                  with ⟨s', hLoop, hSettled⟩
                refine ⟨s', ?_, ?_⟩
                · rw [scanStep_full hRemoves hSplit hFull, hLoop,
                    hLast, hFull, if_pos rfl,
                    List.countP_cons_of_neg
                      (by rw [hEmpty]; decide)]
                  congr 2
                  omega
                · rw [settled_snoc_full hEmpty hFull]
                  exact hSettled
            | false =>
                rw [hFull, if_neg Bool.false_ne_true] at hCount
                rcases ih init (x :: below) s (init.length - 1)
                    removed (by omega)
                    (Nat.lt_of_succ_lt_succ hTests) rfl hSplit
                  with ⟨s', hLoop, hSettled⟩
                refine ⟨s', ?_, ?_⟩
                · rw [scanStep_keep hRemoves hSplit hFull, hLoop,
                    hLast, hFull, if_neg Bool.false_ne_true,
                    Nat.add_zero]
                · rw [settled_snoc_keep hFull, hSettled,
                    List.append_assoc, List.singleton_append]

end Settling

/- A scan of all rows settles them, and counts what it took. -/
theorem scan_settles
    {rows : σ → List ρ}
    {isFull : ρ → Bool}
    {empty : ρ}
    {full : Int → σ → Bool}
    {remove : Int → σ → σ}
    (hRemoves : Removes rows isFull empty full remove)
    {n tests : Nat}
    {s : σ}
    (hLength : (rows s).length = n)
    (hTests : 2 * n < tests) :
    ∃ s',
      scan full remove n tests s =
        some ⟨-1, (rows s).countP isFull, s'⟩ ∧
      rows s' = settled isFull empty (rows s) := by
  have hCount :
      (rows s).countP isFull ≤ (rows s).length :=
    List.countP_le_length
  have hEnough :
      (rows s).countP isFull + (rows s).length < tests := by
    omega
  rcases scan_from hRemoves (rows s) [] s ((n : Int) - 1) 0 rfl
      hEnough (by omega) (List.append_nil _).symm with
    ⟨s', hLoop, hSettled⟩
  refine ⟨s', ?_, ?_⟩
  · rw [Nat.zero_add] at hLoop
    exact hLoop
  · rw [List.append_nil] at hSettled
    exact hSettled

end Compaction
