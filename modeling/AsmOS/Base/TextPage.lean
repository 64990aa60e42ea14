import Mathlib.Data.List.Basic
import Mathlib.Tactic.Common

/-
  An unbounded page of text in rows of a fixed width.

  A cell is written at the end of the last row; a new row is
  begun on request and right after a row is full.  Places
  that were never written hold a blank.

  Main declarations:
    * `TextPage`, `TextPage.put`, `TextPage.newline`
    * `TextPage.cellAt`
    * `TextPage.cellAt_extend`, `TextPage.cellAt_newline`
-/

------------------------------------------------------------
-- Pages
------------------------------------------------------------

/- The finished rows and the row that is written. -/
structure TextPage (α : Type) where
  above : List (List α)
  line : List α

namespace TextPage

variable {α : Type}

/- The page before anything is written. -/
def empty : TextPage α where
  above := []
  line := []

def newline
    (t : TextPage α) : TextPage α where
  above := t.above ++ [t.line]
  line := []

/- Write one cell, in rows of `width` cells. -/
def put
    (width : Nat)
    (t : TextPage α)
    (a : α) : TextPage α :=
  let t := { t with line := t.line ++ [a] }
  if t.line.length < width then t else t.newline

/- All rows, the last one being written. -/
def rows
    (t : TextPage α) : List (List α) :=
  t.above ++ [t.line]

/- The cell of a row and a column. -/
def cellAt
    (blank : α)
    (t : TextPage α)
    (r c : Nat) : α :=
  (t.rows.getD r []).getD c blank

section Cells

variable {blank : α}
variable {t : TextPage α}
variable {r c : Nat}

@[simp] theorem rows_length :
    t.rows.length = t.above.length + 1 := by
  simp [rows]

@[simp] theorem rows_length_newline :
    t.newline.rows.length = t.rows.length + 1 := by
  simp [rows, newline]

/- Past the last row everything is blank. -/
theorem cellAt_of_le
    (hPast : t.rows.length ≤ r) :
    cellAt blank t r c = blank := by
  simp only [cellAt, List.getD]
  rw [List.getElem?_eq_none hPast]
  rfl

/- The row that is written. -/
theorem cellAt_line :
    cellAt blank t t.above.length c = t.line.getD c blank := by
  simp [cellAt, rows, List.getD]

/- A new row has nothing in it. -/
theorem cellAt_newline :
    cellAt blank t.newline r c = cellAt blank t r c := by
  by_cases hOld : r < t.rows.length
  · simp only [cellAt, List.getD]
    rw [show t.newline.rows = t.rows ++ [[]] from rfl,
      List.getElem?_append_left hOld]
  · rw [cellAt_of_le (t := t) (by omega)]
    by_cases hNew : r = t.rows.length
    · simp only [cellAt, List.getD, hNew]
      rw [show t.newline.rows = t.rows ++ [[]] from rfl,
        List.getElem?_append_right (Nat.le_refl _)]
      simp
    · exact cellAt_of_le (by
        rw [rows_length_newline]
        omega)

/- Extending the last row changes one place. -/
theorem cellAt_extend
    (a : α) :
    cellAt blank { t with line := t.line ++ [a] } r c =
      if r = t.above.length ∧ c = t.line.length then a
      else cellAt blank t r c := by
  by_cases hRow : r = t.above.length
  · subst hRow
    have hNew :
        cellAt blank { t with line := t.line ++ [a] }
            t.above.length c = (t.line ++ [a]).getD c blank :=
      cellAt_line (t := { t with line := t.line ++ [a] })
    rw [hNew, cellAt_line]
    simp only [List.getD, true_and]
    by_cases hOld : c < t.line.length
    · rw [List.getElem?_append_left hOld, if_neg (by omega)]
    · by_cases hLast : c = t.line.length
      · rw [if_pos hLast, hLast]
        simp
      · rw [if_neg hLast, List.getElem?_eq_none (by
            rw [List.length_append, List.length_singleton]
            omega),
          List.getElem?_eq_none (by omega)]
  · rw [if_neg (fun hPlace => hRow hPlace.1)]
    by_cases hAbove : r < t.above.length
    · simp only [cellAt, rows, List.getD]
      rw [List.getElem?_append_left hAbove,
        List.getElem?_append_left hAbove]
    · rw [cellAt_of_le (by
          rw [rows_length]
          dsimp only
          omega),
        cellAt_of_le (by
          rw [rows_length]
          omega)]

theorem put_of_lt
    {width : Nat}
    {a : α}
    (hRoom : t.line.length + 1 < width) :
    t.put width a = { t with line := t.line ++ [a] } := by
  have hLength : (t.line ++ [a]).length < width := by
    rw [List.length_append]
    exact hRoom
  exact if_pos hLength

theorem put_of_le
    {width : Nat}
    {a : α}
    (hFull : width ≤ t.line.length + 1) :
    t.put width a =
      TextPage.newline { t with line := t.line ++ [a] } := by
  have hLength : ¬ (t.line ++ [a]).length < width := by
    rw [List.length_append]
    exact Nat.not_lt.mpr hFull
  exact if_neg hLength

end Cells

end TextPage
