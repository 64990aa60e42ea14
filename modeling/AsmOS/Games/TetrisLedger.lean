import Mathlib.Algebra.BigOperators.Group.List.Basic
import Mathlib.Data.List.Nodup
import AsmOS.Games.TetrisRun

/-
  The cells of a Tetris game are accounted for.

  A lock fills the empty cells that the piece is over, and
  takes ten off for every full row.  So the cells on the board
  and those of the counted lines are exactly the cells that
  were filled, in every state of a run.

  Main declarations:
    * `gridCells`, `settled_cells`
    * `OpenCell`, `gridFill_cells`, `gridFill_rows`
    * `cellsFilled`, `cellsFilled_free`
    * `Balanced`, `ledgerStep`, `Conserved`
    * `tetrisRun_conserves`
-/

------------------------------------------------------------
-- Cells Of Rows
------------------------------------------------------------

namespace AsmOS

namespace Games

open Compaction

/- The cells of a row that are filled. -/
def rowCells
    (row : List UInt8) : Nat :=
  row.countP fun v => v ≠ 0

def gridCells
    (rows : List (List UInt8)) : Nat :=
  (rows.map rowCells).sum

/- Twenty rows of ten cells. -/
structure BoardShaped
    (rows : List (List UInt8)) : Prop where
  rows_length : rows.length = 20
  row_length : ∀ row ∈ rows, row.length = 10

theorem gridCells_append
    (rows rows' : List (List UInt8)) :
    gridCells (rows ++ rows') =
      gridCells rows + gridCells rows' := by
  unfold gridCells
  rw [List.map_append, List.sum_append]

theorem gridCells_cons
    (row : List UInt8)
    (rows : List (List UInt8)) :
    gridCells (row :: rows) = rowCells row + gridCells rows := by
  unfold gridCells
  rw [List.map_cons, List.sum_cons]

theorem gridCells_empty
    (n : Nat) :
    gridCells (List.replicate n emptyRow) = 0 := by
  unfold gridCells
  rw [List.map_replicate, List.sum_replicate,
    show rowCells emptyRow = 0 by decide, Nat.nsmul_eq_mul,
    Nat.mul_zero]

/- A full row has all of its cells. -/
theorem rowCells_full
    {row : List UInt8}
    (hFull : isFullRow row = true) :
    rowCells row = row.length := by
  refine List.countP_eq_length.mpr fun v hv => ?_
  exact List.all_eq_true.mp hFull v hv

/- The full rows take ten cells each with them. -/
theorem settled_cells
    {rows : List (List UInt8)}
    (hLength : ∀ row ∈ rows, row.length = 10) :
    gridCells (settled isFullRow emptyRow rows) +
        10 * rows.countP isFullRow =
      gridCells rows := by
  unfold settled
  rw [gridCells_append, gridCells_empty, Nat.zero_add]
  induction rows with
  | nil => rfl
  | cons row rows ih =>
      rw [List.forall_mem_cons] at hLength
      have hRest := ih hLength.2
      rw [gridCells_cons]
      by_cases hFull : isFullRow row = true
      · rw [List.filter_cons_of_neg (by rw [hFull]; decide),
          List.countP_cons_of_pos hFull, rowCells_full hFull,
          hLength.1]
        omega
      · rw [Bool.not_eq_true] at hFull
        rw [List.filter_cons_of_pos (by rw [hFull]; rfl),
          List.countP_cons_of_neg (by rw [hFull]; decide),
          gridCells_cons]
        omega

------------------------------------------------------------
-- Cells Of A Piece
------------------------------------------------------------

section Fill

variable {rows : List (List UInt8)} {cell : Int × Int} {v : UInt8}

theorem fillCell_shaped
    (hShaped : BoardShaped rows) :
    BoardShaped (fillCell cell v rows) := by
  unfold fillCell
  split_ifs
  · refine ⟨?_, fun row hRow => ?_⟩
    · rw [List.length_modify]
      exact hShaped.rows_length
    · rcases List.mem_iff_getElem?.mp hRow with ⟨r, hr⟩
      rw [List.getElem?_modify] at hr
      rcases Option.map_eq_some_iff.mp hr with ⟨old, hOld, rfl⟩
      have hMem :=
        hShaped.row_length old (List.mem_of_getElem? hOld)
      split_ifs
      · rw [List.length_set]
        exact hMem
      · exact hMem
  · exact hShaped

/- A cell of the board that is empty. -/
def OpenCell
    (rows : List (List UInt8))
    (cell : Int × Int) : Prop :=
  0 ≤ cell.1 ∧ cell.1 < 10 ∧ 0 ≤ cell.2 ∧ cell.2 < 20 ∧
    gridCell rows cell.1 cell.2 = 0

instance : DecidablePred (OpenCell rows) :=
  fun cell =>
    inferInstanceAs
      (Decidable
        (0 ≤ cell.1 ∧ cell.1 < 10 ∧ 0 ≤ cell.2 ∧ cell.2 < 20 ∧
          gridCell rows cell.1 cell.2 = 0))

/- A value over another one changes the cells by one at most. -/
theorem rowCells_set
    {row : List UInt8}
    {c : Nat}
    (hc : c < row.length)
    (hValue : v ≠ 0) :
    rowCells (row.set c v) =
      rowCells row + if row[c] = 0 then 1 else 0 := by
  unfold rowCells
  rw [List.countP_set hc]
  by_cases hOld : row[c] = 0
  · simp [hOld, hValue]
  · have hMany : 0 < row.countP fun v => v ≠ 0 :=
      List.countP_pos_iff.mpr
        ⟨row[c], List.getElem_mem hc, decide_eq_true hOld⟩
    rw [if_pos (decide_eq_true hOld),
      if_pos (decide_eq_true hValue), if_neg hOld]
    omega

/- An empty cell that is filled is one more. -/
theorem fillCell_cells
    (hShaped : BoardShaped rows)
    (hValue : v ≠ 0) :
    gridCells (fillCell cell v rows) =
      gridCells rows + if OpenCell rows cell then 1 else 0 := by
  unfold fillCell
  by_cases hBoard : 0 ≤ cell.2 ∧ cell.2 < 20 ∧ 0 ≤ cell.1
  · have hr : cell.2.toNat < rows.length := by
      rw [hShaped.rows_length]
      omega
    have hLength := hShaped.row_length _ (List.getElem_mem hr)
    have hSplit := List.take_append_drop cell.2.toNat rows
    rw [List.drop_eq_getElem_cons hr] at hSplit
    have hRow :
        rowCells (rows[cell.2.toNat].set cell.1.toNat v) =
          rowCells rows[cell.2.toNat] +
            if OpenCell rows cell then 1 else 0 := by
      by_cases hColumn : cell.1 < 10
      · have hc : cell.1.toNat < rows[cell.2.toNat].length := by
          omega
        have hCell :
            gridCell rows cell.1 cell.2 =
              rows[cell.2.toNat][cell.1.toNat] := by
          unfold gridCell
          simp only [List.getD_eq_getElem?_getD,
            List.getElem?_eq_getElem hr, Option.getD_some,
            List.getElem?_eq_getElem hc]
        have hOpen :
            OpenCell rows cell ↔
              rows[cell.2.toNat][cell.1.toNat] = 0 := by
          rw [← hCell]
          exact
            ⟨fun h => h.2.2.2.2, fun h =>
              ⟨hBoard.2.2, hColumn, hBoard.1, hBoard.2.1, h⟩⟩
        rw [rowCells_set hc hValue, if_congr hOpen rfl rfl]
      · rw [List.set_eq_of_length_le (by omega),
          if_neg fun h => hColumn h.2.1, Nat.add_zero]
    rw [if_pos hBoard, List.modify_eq_take_cons_drop hr]
    conv_rhs => rw [← hSplit]
    rw [gridCells_append, gridCells_append, gridCells_cons,
      gridCells_cons, hRow, hSplit]
    omega
  · rw [if_neg hBoard, if_neg fun h =>
      hBoard ⟨h.2.2.1, h.2.2.2.1, h.1⟩, Nat.add_zero]

/- Other cells are what they were. -/
theorem fillCell_other
    {other : Int × Int}
    (hOther : other ≠ cell)
    (hColumn : 0 ≤ other.1)
    (hRow : 0 ≤ other.2) :
    gridCell (fillCell cell v rows) other.1 other.2 =
      gridCell rows other.1 other.2 := by
  unfold fillCell
  split_ifs with hHere
  · unfold gridCell
    simp only [List.getD_eq_getElem?_getD, List.getElem?_modify]
    by_cases hSame : other.2 = cell.2
    · have hNe : other.1 ≠ cell.1 := fun hEq =>
        hOther (Prod.ext hEq hSame)
      rw [hSame]
      cases rows[cell.2.toNat]? with
      | none => rfl
      | some row =>
          change
            (if cell.2.toNat = cell.2.toNat then
                row.set cell.1.toNat v
              else row)[other.1.toNat]?.getD 0 =
              row[other.1.toNat]?.getD 0
          rw [if_pos rfl, List.getElem?_set_ne (by omega)]
    · cases rows[other.2.toNat]? with
      | none => rfl
      | some row =>
          change
            (if cell.2.toNat = other.2.toNat then
                row.set cell.1.toNat v
              else row)[other.1.toNat]?.getD 0 =
              row[other.1.toNat]?.getD 0
          rw [if_neg (by omega)]
  · rfl

theorem openCell_fill
    {other : Int × Int}
    (hOther : other ≠ cell) :
    OpenCell (fillCell cell v rows) other ↔
      OpenCell rows other := by
  unfold OpenCell
  refine and_congr_right fun hColumn => and_congr_right fun _ =>
    and_congr_right fun hRow => and_congr_right fun _ => ?_
  rw [fillCell_other hOther hColumn hRow]

/- Different cells are counted as they were before the first. -/
theorem foldl_fill_cells
    {cells : List (Int × Int)}
    (hNodup : cells.Nodup)
    (hShaped : BoardShaped rows)
    (hValue : v ≠ 0) :
    gridCells
        (cells.foldl (fun rows cell => fillCell cell v rows)
          rows) =
      gridCells rows +
        cells.countP fun cell => OpenCell rows cell := by
  induction cells generalizing rows with
  | nil => rfl
  | cons cell cells ih =>
      rw [List.nodup_cons] at hNodup
      have hSame :
          (cells.countP fun other =>
              OpenCell (fillCell cell v rows) other) =
            cells.countP fun other => OpenCell rows other := by
        refine List.countP_congr fun other hMem => ?_
        rw [decide_eq_true_iff, decide_eq_true_iff]
        exact openCell_fill fun hEq => hNodup.1 (hEq ▸ hMem)
      rw [List.foldl_cons, ih hNodup.2 (fillCell_shaped hShaped),
        fillCell_cells hShaped hValue, hSame, List.countP_cons]
      simp only [decide_eq_true_iff]
      omega

/- A cell makes one more row full at most. -/
theorem fillCell_rows :
    (fillCell cell v rows).countP isFullRow ≤
      rows.countP isFullRow + 1 := by
  unfold fillCell
  split_ifs
  · by_cases hr : cell.2.toNat < rows.length
    · have hSplit := List.take_append_drop cell.2.toNat rows
      rw [List.drop_eq_getElem_cons hr] at hSplit
      rw [List.modify_eq_take_cons_drop hr]
      conv_rhs => rw [← hSplit]
      rw [List.countP_append, List.countP_append,
        List.countP_cons, List.countP_cons]
      split_ifs <;> omega
    · rw [List.modify_eq_self (by omega)]
      exact Nat.le_succ _
  · exact Nat.le_succ _

theorem foldl_fill_rows
    (cells : List (Int × Int)) :
    (cells.foldl (fun rows cell => fillCell cell v rows)
        rows).countP isFullRow ≤
      rows.countP isFullRow + cells.length := by
  induction cells generalizing rows with
  | nil => exact Nat.le_refl _
  | cons cell cells ih =>
      have hFirst :
          (fillCell cell v rows).countP isFullRow ≤
            rows.countP isFullRow + 1 :=
        fillCell_rows
      rw [List.foldl_cons, List.length_cons]
      exact ih.trans (by omega)

end Fill

/- No cell of a shape is there twice. -/
theorem tetrisShapes_injective :
    ∀ p < 7, ∀ rot : Turn, ∀ i j : Fin 4,
      ((tetrisShapes.getD p []).getD rot []).getD i (0, 0) =
          ((tetrisShapes.getD p []).getD rot []).getD j (0, 0) →
        i = j := by
  decide

section Locked

variable {around : Around} {g g' : TetrisGrid}

variable {event : TetrisEvent}

theorem pieceCells_nodup
    (hPiece : 0 ≤ g.piece.toInt ∧ g.piece.toInt < 7) :
    ((List.finRange 4).map (pieceCell around g g.rot)).Nodup := by
  refine List.Nodup.map (fun i j hSame => ?_)
    (List.nodup_finRange 4)
  rcases Prod.mk.inj hSame with ⟨hColumn, hRow⟩
  have hShape :
      shapeCell around g.piece g.rot i =
        shapeCell around g.piece g.rot j :=
    Prod.ext (Int.add_left_cancel hColumn)
      (Int.add_left_cancel hRow)
  unfold shapeCell at hShape
  rw [if_pos hPiece, if_pos hPiece] at hShape
  exact tetrisShapes_injective _ (by omega) g.rot i j hShape

theorem gridFill_foldl
    (around : Around)
    (g : TetrisGrid) :
    gridFill around g =
      ((List.finRange 4).map (pieceCell around g g.rot)).foldl
        (fun rows cell =>
          fillCell cell (g.piece + 1).toUInt32.toUInt8 rows)
        g.board := by
  rw [List.foldl_map]
  rfl

/- The value of a piece is not that of an empty cell. -/
theorem piece_nonzero
    (hPiece : 0 ≤ g.piece.toInt ∧ g.piece.toInt < 7) :
    (g.piece + 1).toUInt32.toUInt8 ≠ 0 := by
  have hOne : (1 : Int32).toInt = 1 := rfl
  have hNext : (g.piece + 1).toInt = g.piece.toInt + 1 := by
    rw [SignedWords.toInt_add] <;> rw [hOne]
    exact ⟨by omega, by omega⟩
  have hWord := SignedWords.toNat_toUInt32 (g.piece + 1)
  rw [hNext, if_pos (by omega)] at hWord
  intro hZero
  have hByte := congrArg UInt8.toNat hZero
  rw [UInt32.toNat_toUInt8, show (0 : UInt8).toNat = 0 by rfl]
    at hByte
  omega

/- The empty cells of the board that the piece is over. -/
def cellsFilled
    (around : Around)
    (g : TetrisGrid) : Nat :=
  ((List.finRange 4).map (pieceCell around g g.rot)).countP
    fun cell => OpenCell g.board cell

theorem gridFill_cells
    (hOk : GridOk around g)
    (hShaped : BoardShaped g.board) :
    gridCells (gridFill around g) =
      gridCells g.board + cellsFilled around g := by
  rw [gridFill_foldl]
  exact foldl_fill_cells (pieceCells_nodup hOk.piece) hShaped
    (piece_nonzero hOk.piece)

/- A piece makes four rows full at most. -/
theorem gridFill_rows
    (hOk : GridOk around g) :
    (gridFill around g).countP isFullRow ≤ 4 := by
  have hNone : g.board.countP isFullRow = 0 :=
    List.countP_eq_zero.mpr fun row hRow => by
      rw [hOk.rows row hRow]
      exact Bool.false_ne_true
  have hFill :
      (gridFill around g).countP isFullRow ≤
        g.board.countP isFullRow +
          ((List.finRange 4).map
            (pieceCell around g g.rot)).length := by
    rw [gridFill_foldl]
    exact foldl_fill_rows _
  rw [hNone, List.length_map,
    List.length_finRange, Nat.zero_add] at hFill
  exact hFill

/- A lock happens exactly when it is due. -/
theorem gridStep_locks
    (hLocks : tetrisLocks (gridCollide around) g event = true) :
    gridStep around g event = some (gridLock around g) := by
  cases event with
  | key sc =>
      unfold tetrisLocks at hLocks
      rw [Bool.and_eq_true, decide_eq_true_iff] at hLocks
      rcases hLocks with ⟨rfl, hTest⟩
      have hDown :
          gridStep around g (.key 0x50) =
            tetrisDown (gridCollide around)
              (fun g => some (gridLock around g)) g :=
        rfl
      rw [hDown]
      exact if_pos hTest
  | tick =>
      unfold tetrisLocks at hLocks
      rw [Bool.and_eq_true, decide_eq_true_iff] at hLocks
      change tetrisTick _ _ g = _
      unfold tetrisTick tetrisDown
      have hTest :
          gridCollide around { g with dropTicks := 0 } 0 1 g.rot =
            true :=
        hLocks.2
      rw [if_pos hLocks.1, if_pos hTest]
      rfl

/- Other steps leave the board and what was counted. -/
theorem gridStep_keeps
    (hLocks : tetrisLocks (gridCollide around) g event = false)
    (hStep : gridStep around g event = some g') :
    g'.board = g.board ∧ g'.lines = g.lines ∧
      g'.score = g.score := by
  rcases gridStep_move around g event with ⟨u, hNext, hMove⟩
  rw [hStep] at hNext
  cases hNext
  cases hMove with
  | stop => exact ⟨rfl, rfl, rfl⟩
  | wait n => exact ⟨rfl, rfl, rfl⟩
  | move dx dy rot n hFree => exact ⟨rfl, rfl, rfl⟩
  | lock hLock =>
      rw [hLocks] at hLock
      exact absurd hLock Bool.false_ne_true

end Locked

------------------------------------------------------------
-- Runs
------------------------------------------------------------

/- The cells of the board and of the counted lines are those
   that were filled, and a line is worth 100 to 400 points. -/
structure Balanced
    (g : TetrisGrid)
    (filled : Nat) : Prop where
  cells : (gridCells g.board : Int) + 10 * g.lines.toInt = filled
  score :
    100 * g.lines.toInt ≤ g.score.toInt ∧
      g.score.toInt ≤ 400 * g.lines.toInt

/- What the ledger needs of a state. -/
structure LedgerOk
    (around : Around)
    (g : TetrisGrid)
    (filled : Nat) : Prop where
  grid : GridOk around g
  shaped : BoardShaped g.board
  balanced : Balanced g filled

section Ledger

variable {around : Around} {g g' : TetrisGrid}

variable {event : TetrisEvent} {filled : Nat}

theorem settled_shaped
    {rows : List (List UInt8)}
    (hShaped : BoardShaped rows) :
    BoardShaped (settled isFullRow emptyRow rows) := by
  refine ⟨?_, fun row hRow => ?_⟩
  · have hSplit :=
      List.length_eq_countP_add_countP isFullRow (l := rows)
    simp only [decide_not, Bool.decide_eq_true] at hSplit
    rw [settled, List.length_append, List.length_replicate,
      ← List.countP_eq_length_filter, ← hSplit,
      hShaped.rows_length]
  · rcases List.mem_append.mp hRow with hNew | hOld
    · rw [List.eq_of_mem_replicate hNew]
      rfl
    · exact hShaped.row_length row (List.mem_filter.mp hOld).1

theorem gridFill_shaped
    (hShaped : BoardShaped g.board) :
    BoardShaped (gridFill around g) := by
  have hFold :
      ∀ (cells : List (Int × Int)) (rows : List (List UInt8)),
        BoardShaped rows →
          BoardShaped
            (cells.foldl
              (fun rows cell =>
                fillCell cell (g.piece + 1).toUInt32.toUInt8
                  rows)
              rows) := by
    intro cells
    induction cells with
    | nil => exact fun _ hRows => hRows
    | cons cell cells ih =>
        exact fun rows hRows => ih _ (fillCell_shaped hRows)
  rw [gridFill_foldl]
  exact hFold _ g.board hShaped

/- A lock fills cells and counts the rows it takes out. -/
theorem gridLock_ledger
    (hOk : LedgerOk around g filled)
    (hFits :
      GainFits g.score ((gridFill around g).countP isFullRow)) :
    LedgerOk around (gridLock around g)
      (filled + cellsFilled around g) := by
  have hFields := gridLock_fields around g
  dsimp only at hFields
  have hShaped : BoardShaped (gridFill around g) :=
    gridFill_shaped hOk.shaped
  have hCells := gridFill_cells hOk.grid hOk.shaped
  have hSettled := settled_cells hShaped.row_length
  have hFour := gridFill_rows hOk.grid
  have hScore := toInt_score hOk.grid.score hFits
  have hBefore := hOk.balanced
  generalize hCount :
    (gridFill around g).countP isFullRow = k at *
  have hLow : (k : Int) ≤ (k : Int) ^ 2 := by
    rw [sq]
    exact_mod_cast Nat.le_mul_self k
  have hHigh : (k : Int) ^ 2 ≤ 4 * (k : Int) := by
    rw [sq]
    exact_mod_cast Nat.mul_le_mul_right k hFour
  have hFitsHere : g.score.toInt + 100 * (k : Int) ^ 2 < 2 ^ 31 :=
    hFits
  have hLines :
      (g.lines + Int32.ofNat k).toInt = g.lines.toInt + k := by
    have hk : (Int32.ofNat k).toInt = k := by
      rw [← Int32.ofInt_eq_ofNat]
      exact SignedWords.toInt_ofInt ⟨by omega, by omega⟩
    rw [SignedWords.toInt_add] <;> rw [hk]
    have hPoints := hBefore.score
    have hPositive := hOk.grid.score
    exact ⟨by omega, by omega⟩
  refine ⟨gridLock_ok hOk.grid (hCount ▸ hFits), ?_, ?_, ?_⟩
  · rw [hFields.1]
    exact settled_shaped hShaped
  · rw [hFields.1, hFields.2.1, hLines]
    have hSum := hBefore.cells
    omega
  · rw [hFields.2.1, hFields.2.2, hLines, hScore]
    have hPoints := hBefore.score
    exact ⟨by omega, by omega⟩

theorem gridStep_ledger
    (hOk : LedgerOk around g filled)
    (hFits : GridFits around g event)
    (hStep : gridStep around g event = some g') :
    LedgerOk around g'
      (if tetrisLocks (gridCollide around) g event then
        filled + cellsFilled around g
      else filled) := by
  by_cases hLocks :
      tetrisLocks (gridCollide around) g event = true
  · rw [gridStep_locks hLocks] at hStep
    cases hStep
    rw [if_pos hLocks]
    exact gridLock_ledger hOk (hFits hLocks)
  · have hKept :=
      gridStep_keeps (Bool.eq_false_iff.mpr hLocks) hStep
    rw [if_neg hLocks]
    refine ⟨gridStep_ok hOk.grid hFits hStep, ?_, ?_, ?_⟩
    · rw [hKept.1]
      exact hOk.shaped
    · rw [hKept.1, hKept.2.1]
      exact hOk.balanced.cells
    · rw [hKept.2.1, hKept.2.2]
      exact hOk.balanced.score

/- A piece that is free is over empty cells only. -/
theorem cellsFilled_free
    {s : Tetris}
    (hLegal : TetrisLegal around s)
    (hQuit : s.quit = false) :
    cellsFilled around (tetrisGrid s) =
      (List.finRange 4).countP fun i =>
        0 ≤ (pieceCell around s s.rot i).2 := by
  unfold cellsFilled
  rw [List.countP_map]
  refine List.countP_congr fun i _ => ?_
  have hFree := hLegal.cells hQuit i
  change
    decide
          (OpenCell (tetrisRows s.board)
            (pieceCell around s s.rot i)) =
        true ↔
      decide (0 ≤ (pieceCell around s s.rot i).2) = true
  rw [decide_eq_true_iff, decide_eq_true_iff]
  refine ⟨fun hOpen => hOpen.2.2.1, fun hBoard => ?_⟩
  refine ⟨hFree.1, hFree.2.1, hBoard, hFree.2.2.1, ?_⟩
  rw [gridCell_tetrisRows ⟨hFree.1, hFree.2.1⟩
    ⟨hBoard, hFree.2.2.1⟩]
  exact hFree.2.2.2 hBoard

end Ledger

/- A step of the game, and the cells that locks filled. -/
def ledgerStep
    (around : Around)
    (tests : Nat)
    (p : Tetris × Nat)
    (event : TetrisEvent) : Option (Tetris × Nat) :=
  (tetrisStep around tests p.1 event).map fun t =>
    (t,
      if tetrisLocks (tetrisCollide around) p.1 event then
        p.2 + cellsFilled around (tetrisGrid p.1)
      else p.2)

/- The books of a state. -/
structure Conserved
    (around : Around)
    (p : Tetris × Nat) : Prop where
  balanced : Balanced (tetrisGrid p.1) p.2
  fills :
    p.1.quit = false →
      cellsFilled around (tetrisGrid p.1) =
        (List.finRange 4).countP fun i =>
          0 ≤ (pieceCell around p.1 p.1.rot i).2

theorem ledgerStep_ok
    {around : Around}
    {tests : Nat}
    (hTests : lockTests ≤ tests)
    {p q : Tetris × Nat}
    {event : TetrisEvent}
    (hOk : LedgerOk around (tetrisGrid p.1) p.2)
    (hFits : LockFits around p.1 event)
    (hStep : ledgerStep around tests p event = some q) :
    LedgerOk around (tetrisGrid q.1) q.2 := by
  rcases Option.map_eq_some_iff.mp hStep with ⟨t, hNext, rfl⟩
  have hKept :=
    gridStep_ledger hOk (lockFits_iff_grid.mp hFits)
      (gridStep_of_step hTests hNext)
  have hLocks :
      tetrisLocks (gridCollide around) (tetrisGrid p.1) event =
        tetrisLocks (tetrisCollide around) p.1 event := by
    have hTest := gridCollide_eq around p.1 0 1 p.1.rot
    cases event with
    | key sc => exact congrArg (sc = 0x50 && ·) hTest
    | tick =>
        exact congrArg (decide (p.1.dropTicks + 1 ≥ 25) && ·)
          hTest
  rw [hLocks] at hKept
  exact hKept

theorem ledgerOk_init
    (around : Around)
    (s : Tetris) :
    LedgerOk around (tetrisGrid (tetrisInit s)) 0 := by
  rw [tetrisGrid_init]
  refine ⟨gridStart_ok around, ⟨rfl, fun row hRow => ?_⟩, ?_, ?_⟩
  · rw [List.eq_of_mem_replicate hRow]
    rfl
  · decide
  · decide

/-
  In every state of a run from `tetris_init` whose score stays
  in range, the cells on the board and ten for every counted
  line are the cells that the locks filled.  As long as the
  game is not over those are all cells of the piece that are
  not above the board.
-/
theorem tetrisRun_conserves
    (around : Around)
    {tests : Nat}
    (hTests : lockTests ≤ tests)
    (s : Tetris)
    (events : List TetrisEvent)
    (hFits :
      StepRuns.EveryStep (ledgerStep around tests)
        (fun p => LockFits around p.1) (tetrisInit s, 0)
        events) :
    StepRuns.EveryState (ledgerStep around tests)
      (Conserved around) (tetrisInit s, 0) events := by
  have hKeeps :
      ∀ p event q,
        LedgerOk around (tetrisGrid p.1) p.2 →
          LockFits around p.1 event →
            ledgerStep around tests p event = some q →
              LedgerOk around (tetrisGrid q.1) q.2 :=
    fun p event q hOk hFits hStep =>
      ledgerStep_ok hTests hOk hFits hStep
  have hRun :=
    StepRuns.everyState_of hKeeps (ledgerOk_init around s) hFits
  exact hRun.mono fun p hOk =>
    ⟨hOk.balanced, cellsFilled_free hOk.grid.legal⟩

/- The books of a round, in which ten rows are cleared. -/
theorem tetrisRun_conserves_round :
    StepRuns.EveryState (ledgerStep zeros lockTests)
      (Conserved zeros) (tetrisInit tetrisStatics, 0)
      roundKeys := by
  refine
    tetrisRun_conserves zeros (Nat.le_refl lockTests)
      tetrisStatics roundKeys ?_
  refine StepRuns.EveryStep.of_map (f := Prod.fst)
    (fun p event q hStep => ?_) (fun _ _ hFits => hFits)
    roundKeys_fits
  rcases Option.map_eq_some_iff.mp hStep with ⟨t, hNext, rfl⟩
  exact hNext

end Games

end AsmOS
