import Mathlib.Algebra.GroupWithZero.Nat
import Mathlib.Data.List.Basic
import AsmOS.Games.Tetris

/-
  The Tetris board as a list of rows, and what a lock does to
  it.

  The list shows what the game is about: a lock fills the
  cells of the piece, takes out the rows that are full and
  puts as many empty ones on top.

  Main declarations:
    * `tetrisRows`, `isFullRow`, `withPiece`
    * `removeRow_removes`
    * `tetrisLock_clears`
-/

------------------------------------------------------------
-- Rows
------------------------------------------------------------

namespace AsmOS

namespace Games

open Compaction

/- The cells of row `r` of the array. -/
def tetrisRow
    (b : TetrisBoard)
    (r : Nat) : List UInt8 :=
  (List.range 10).map fun c : Nat => b c r

/- The rows of the array, from the top. -/
def tetrisRows
    (b : TetrisBoard) : List (List UInt8) :=
  (List.range 20).map (tetrisRow b)

def isFullRow
    (row : List UInt8) : Bool :=
  row.all fun v => v ≠ 0

def emptyRow : List UInt8 :=
  List.replicate 10 0

section Rows

variable {b : TetrisBoard} {r : Nat}

theorem tetrisRows_length
    (b : TetrisBoard) :
    (tetrisRows b).length = 20 :=
  List.length_map _

theorem tetrisRows_getElem?
    (hr : r < 20) :
    (tetrisRows b)[r]? = some (tetrisRow b r) := by
  unfold tetrisRows
  rw [List.getElem?_map, List.getElem?_range hr]
  rfl

/- A row is known by its cells in the array. -/
theorem tetrisRow_congr
    {b' : TetrisBoard}
    {r' : Nat}
    (hCells : ∀ c : Nat, c < 10 → b c r = b' c r') :
    tetrisRow b r = tetrisRow b' r' :=
  List.map_congr_left fun c hMem =>
    hCells c (List.mem_range.mp hMem)

theorem tetrisRow_empty
    (hCells : ∀ c : Nat, c < 10 → b c r = 0) :
    tetrisRow b r = emptyRow := by
  refine List.eq_replicate_iff.mpr ⟨List.length_map _, ?_⟩
  intro v hMem
  rcases List.mem_map.mp hMem with ⟨c, hc, rfl⟩
  exact hCells c (List.mem_range.mp hc)

theorem rowFull_eq
    (b : TetrisBoard)
    (r : Nat) :
    rowFull r b = isFullRow (tetrisRow b r) := by
  unfold isFullRow tetrisRow
  rw [List.all_map]
  rfl

end Rows

------------------------------------------------------------
-- Removal
------------------------------------------------------------

/- Row `r` is set, column by column. -/
def setRow
    (r : Int)
    (value : TetrisBoard → Int → UInt8)
    (n : Nat)
    (b : TetrisBoard) : TetrisBoard :=
  (List.range n).foldl
    (fun b (c : Nat) => b.set c r (value b c)) b

/- The values do not depend on the row that is set. -/
def Elsewhere
    (r : Int)
    (value : TetrisBoard → Int → UInt8) : Prop :=
  ∀ b b' : TetrisBoard, (∀ x y, y ≠ r → b x y = b' x y) →
    ∀ c, value b c = value b' c

theorem setRow_apply
    (r : Int)
    (value : TetrisBoard → Int → UInt8)
    (hElsewhere : Elsewhere r value)
    (n : Nat)
    (b : TetrisBoard)
    (x y : Int) :
    setRow r value n b x y =
      if y = r ∧ 0 ≤ x ∧ x < n then value b x else b x y := by
  induction n generalizing x y with
  | zero =>
      rw [if_neg (by omega)]
      rfl
  | succ n ih =>
      have hSnoc :
          setRow r value (n + 1) b =
            (setRow r value n b).set n r
              (value (setRow r value n b) n) := by
        unfold setRow
        rw [List.range_succ, List.foldl_append]
        rfl
      have hValue :
          value (setRow r value n b) n = value b n := by
        refine hElsewhere _ _ (fun x y hy => ?_) n
        rw [ih, if_neg (fun hBoth => hy hBoth.1)]
      rw [hSnoc, TetrisBoard.set, hValue, ih]
      by_cases hHere : x = n ∧ y = r
      · rw [if_pos hHere, if_pos (by omega), hHere.1]
      · rw [if_neg hHere]
        by_cases hBefore : y = r ∧ 0 ≤ x ∧ x < n
        · rw [if_pos hBefore, if_pos (by omega)]
        · rw [if_neg hBefore, if_neg (by omega)]

theorem copyRow_apply
    (r : Int)
    (b : TetrisBoard)
    (x y : Int) :
    copyRow r b x y =
      if y = r ∧ 0 ≤ x ∧ x < 10 then b x (r - 1) else b x y :=
  setRow_apply r (fun b c => b c (r - 1))
    (fun _ _ hSame c => hSame c (r - 1) (by omega)) 10 b x y

theorem clearTop_apply
    (b : TetrisBoard)
    (x y : Int) :
    clearTop b x y =
      if y = 0 ∧ 0 ≤ x ∧ x < 10 then 0 else b x y :=
  setRow_apply 0 (fun _ _ => 0) (fun _ _ _ _ => rfl) 10 b x y

/- The copies go up, so that no row is read after it is set. -/
theorem copyRows_apply
    (n : Nat)
    (b : TetrisBoard)
    (x y : Int) :
    copyRows n b x y =
      if 1 ≤ y ∧ y ≤ n ∧ 0 ≤ x ∧ x < 10 then b x (y - 1)
      else b x y := by
  induction n generalizing b with
  | zero =>
      rw [if_neg (by omega)]
      rfl
  | succ n ih =>
      rw [copyRows, ih, copyRow_apply, copyRow_apply]
      by_cases hLast : y = (n : Int) + 1 ∧ 0 ≤ x ∧ x < 10
      · rw [if_neg (by omega), if_pos hLast, if_pos (by omega),
          hLast.1]
      · rw [if_neg hLast]
        by_cases hBelow : 1 ≤ y ∧ y ≤ n ∧ 0 ≤ x ∧ x < 10
        · rw [if_pos hBelow, if_neg (by omega),
            if_pos (by omega)]
        · rw [if_neg hBelow, if_neg (by omega)]

theorem removeRow_apply
    (row : Nat)
    (b : TetrisBoard)
    {x : Int}
    (hx : 0 ≤ x ∧ x < 10)
    (y : Nat) :
    removeRow row b x y =
      if y = 0 then 0
      else if y ≤ row then b x ((y - 1 : Nat) : Int)
      else b x y := by
  unfold removeRow
  rw [clearTop_apply, copyRows_apply, Int.toNat_natCast]
  by_cases hTop : y = 0
  · rw [if_pos hTop, if_pos (by omega)]
  · rw [if_neg hTop, if_neg (by omega)]
    by_cases hMoved : y ≤ row
    · rw [if_pos hMoved, if_pos (by omega)]
      congr 1
      omega
    · rw [if_neg hMoved, if_neg (by omega)]

theorem removeRow_row
    (row : Nat)
    (b : TetrisBoard)
    (r : Nat) :
    tetrisRow (removeRow row b) r =
      if r = 0 then emptyRow
      else if r ≤ row then tetrisRow b (r - 1)
      else tetrisRow b r := by
  split_ifs with hTop hMoved
  · refine tetrisRow_empty fun c hc => ?_
    rw [removeRow_apply row b (by omega), if_pos hTop]
  · refine tetrisRow_congr fun c hc => ?_
    rw [removeRow_apply row b (by omega), if_neg hTop,
      if_pos hMoved]
  · refine tetrisRow_congr fun c hc => ?_
    rw [removeRow_apply row b (by omega), if_neg hTop,
      if_neg hMoved]

/- What the second loop of a lock does to the rows. -/
theorem removeRow_removes :
    Removes tetrisRows isFullRow emptyRow rowFull removeRow := by
  refine ⟨by decide, fun b above x below hRows => ?_,
    fun b above x below hRows => ?_⟩
  · have hLength := tetrisRows_length b
    rw [hRows, List.length_append, List.length_cons] at hLength
    have hRow : some x = some (tetrisRow b above.length) := by
      rw [← tetrisRows_getElem? (by omega), hRows,
        List.getElem?_append_right (Nat.le_refl _), Nat.sub_self]
      rfl
    rw [rowFull_eq, Option.some.inj hRow]
  · have hLength := tetrisRows_length b
    rw [hRows, List.length_append, List.length_cons] at hLength
    have hRow :
        ∀ i, i < 20 →
          some (tetrisRow b i) = (above ++ x :: below)[i]? := by
      intro i hi
      rw [← hRows, tetrisRows_getElem? hi]
    apply List.ext_getElem?
    intro i
    by_cases hi : i < 20
    · rw [tetrisRows_getElem? hi, removeRow_row]
      cases i with
      | zero => rfl
      | succ j =>
          rw [if_neg (Nat.succ_ne_zero j),
            List.getElem?_cons_succ, Nat.add_sub_cancel]
          by_cases hAbove : j + 1 ≤ above.length
          · rw [if_pos hAbove, hRow j (by omega),
              List.getElem?_append_left hAbove,
              List.getElem?_append_left hAbove]
          · have hPlace :
                j + 1 - above.length = j - above.length + 1 := by
              omega
            rw [if_neg hAbove, hRow (j + 1) hi,
              List.getElem?_append_right (by omega),
              List.getElem?_append_right (by omega), hPlace]
            rfl
    · rw [List.getElem?_eq_none, List.getElem?_eq_none]
      · rw [List.length_cons, List.length_append]
        omega
      · rw [tetrisRows_length]
        omega

------------------------------------------------------------
-- Locks
------------------------------------------------------------

section Locks

variable {around : Around} {s : Tetris}

/- The old board with the cells of the piece filled. -/
def withPiece
    (around : Around)
    (s : Tetris) : TetrisBoard :=
  fun x y =>
    if 0 ≤ y ∧ y < 20 ∧ ∃ i, pieceCell around s s.rot i = (x, y)
    then (s.piece + 1).toUInt32.toUInt8
    else s.board x y

theorem fill_apply
    (cell : Int × Int)
    (v : UInt8)
    (b : TetrisBoard)
    (x y : Int) :
    (if cell.2 ≥ 0 ∧ cell.2 < 20 then b.set cell.1 cell.2 v
        else b) x y =
      if 0 ≤ y ∧ y < 20 ∧ cell = (x, y) then v else b x y := by
  by_cases hHere : 0 ≤ y ∧ y < 20 ∧ cell = (x, y)
  · rcases hHere with ⟨hLow, hHigh, rfl⟩
    have hSet :
        (if y ≥ 0 ∧ y < 20 then b.set x y v else b) =
          b.set x y v :=
      if_pos ⟨hLow, hHigh⟩
    have hCell : b.set x y v x y = v := if_pos ⟨rfl, rfl⟩
    dsimp only
    rw [hSet, hCell]
    exact (if_pos ⟨hLow, hHigh, rfl⟩).symm
  · rw [if_neg hHere]
    split_ifs with hRange
    · refine if_neg ?_
      rintro ⟨rfl, rfl⟩
      exact hHere ⟨hRange.1, hRange.2, rfl⟩
    · rfl

/- Cells of a list are filled one by one. -/
theorem foldl_fill_apply
    {ι : Type}
    (cell : ι → Int × Int)
    (v : UInt8)
    (is : List ι)
    (b : TetrisBoard)
    (x y : Int) :
    is.foldl
        (fun b i =>
          if (cell i).2 ≥ 0 ∧ (cell i).2 < 20 then
            b.set (cell i).1 (cell i).2 v
          else b) b x y =
      if 0 ≤ y ∧ y < 20 ∧ ∃ i ∈ is, cell i = (x, y) then v
      else b x y := by
  induction is generalizing b with
  | nil =>
      refine (if_neg ?_).symm
      rintro ⟨_, _, i, hNone, _⟩
      cases hNone
  | cons i is ih =>
      rw [List.foldl_cons, ih, fill_apply]
      simp only [List.exists_mem_cons_iff]
      by_cases hRange : 0 ≤ y ∧ y < 20
      · by_cases hLater : ∃ j ∈ is, cell j = (x, y)
        · rw [if_pos ⟨hRange.1, hRange.2, hLater⟩,
            if_pos ⟨hRange.1, hRange.2, .inr hLater⟩]
        · rw [if_neg fun hAll => hLater hAll.2.2]
          by_cases hHere : cell i = (x, y)
          · rw [if_pos ⟨hRange.1, hRange.2, hHere⟩,
              if_pos ⟨hRange.1, hRange.2, .inl hHere⟩]
          · rw [if_neg fun hAll => hHere hAll.2.2,
              if_neg fun hAll =>
                hAll.2.2.elim hHere hLater]
      · rw [if_neg fun hAll => hRange ⟨hAll.1, hAll.2.1⟩,
          if_neg fun hAll => hRange ⟨hAll.1, hAll.2.1⟩,
          if_neg fun hAll => hRange ⟨hAll.1, hAll.2.1⟩]

theorem fillPiece_eq
    (around : Around)
    (s : Tetris) :
    fillPiece around s = withPiece around s := by
  funext x y
  unfold fillPiece withPiece
  rw [foldl_fill_apply]
  simp only [List.mem_finRange, true_and]

/- How often the test of the second loop is made at most. -/
abbrev lockTests : Nat := 41

/- The second loop ends, with the rows settled. -/
theorem clearRows_settles
    (b : TetrisBoard) :
    ∃ b',
      (∀ tests, lockTests ≤ tests →
        clearRows tests b =
          some ⟨-1, (tetrisRows b).countP isFullRow, b'⟩) ∧
      tetrisRows b' =
        settled isFullRow emptyRow (tetrisRows b) := by
  have hTests : 2 * 20 < lockTests := by decide
  rcases scan_settles removeRow_removes (tetrisRows_length b)
      hTests with
    ⟨b', hScan, hRows⟩
  refine ⟨b', fun tests hTests => ?_, hRows⟩
  have hMore := Loops.whileLoop_add hScan (tests - lockTests)
  rw [Nat.add_sub_cancel' hTests] at hMore
  exact hMore

end Locks

------------------------------------------------------------
-- The Grid
------------------------------------------------------------

/- The game with the rows of its board. -/
abbrev TetrisGrid := TetrisState (List (List UInt8))

/- The same state with another board. -/
def TetrisState.withBoard
    {β γ : Type}
    (s : TetrisState β)
    (board : γ) : TetrisState γ :=
  { board := board
    piece := s.piece
    rot := s.rot
    px := s.px
    py := s.py
    score := s.score
    lines := s.lines
    quit := s.quit
    dropTicks := s.dropTicks }

def tetrisGrid
    (s : Tetris) : TetrisGrid :=
  s.withBoard (tetrisRows s.board)

/- The cell in a column and a row of the grid. -/
def gridCell
    (rows : List (List UInt8))
    (x y : Int) : UInt8 :=
  (rows.getD y.toNat []).getD x.toNat 0

def gridCollide
    (around : Around)
    (g : TetrisGrid)
    (dx dy : Int)
    (rot : Turn) : Bool :=
  (List.finRange 4).any fun i =>
    let cx := (pieceCell around g rot i).1 + dx
    let cy := (pieceCell around g rot i).2 + dy
    if cx < 0 ∨ cx ≥ 10 ∨ cy ≥ 20 then true
    else decide (cy ≥ 0 ∧ gridCell g.board cx cy ≠ 0)

/- A cell is filled, if it is on the grid. -/
def fillCell
    (cell : Int × Int)
    (v : UInt8)
    (rows : List (List UInt8)) : List (List UInt8) :=
  if 0 ≤ cell.2 ∧ cell.2 < 20 ∧ 0 ≤ cell.1 then
    rows.modify cell.2.toNat fun row => row.set cell.1.toNat v
  else rows

def gridFill
    (around : Around)
    (g : TetrisGrid) : List (List UInt8) :=
  (List.finRange 4).foldl
    (fun rows i =>
      fillCell (pieceCell around g g.rot i)
        (g.piece + 1).toUInt32.toUInt8 rows)
    g.board

/- A lock: the full rows are taken out and counted. -/
def gridLock
    (around : Around)
    (g : TetrisGrid) : TetrisGrid :=
  let filled := gridFill around g
  let g :=
    g.next (settled isFullRow emptyRow filled)
      (Int32.ofNat (filled.countP isFullRow))
  if gridCollide around g 0 0 0 then { g with quit := true }
  else g

section Refinement

variable {around : Around} {s : Tetris} {b : TetrisBoard}

theorem tetrisRow_getElem?
    {r c : Nat}
    (hc : c < 10) :
    (tetrisRow b r)[c]? = some (b c r) := by
  unfold tetrisRow
  rw [List.getElem?_map, List.getElem?_range hc]
  rfl

/- The rows hold the cells of the array. -/
theorem gridCell_tetrisRows
    {x y : Int}
    (hx : 0 ≤ x ∧ x < 10)
    (hy : 0 ≤ y ∧ y < 20) :
    gridCell (tetrisRows b) x y = b x y := by
  have hRow :
      (tetrisRows b).getD y.toNat [] = tetrisRow b y.toNat := by
    rw [List.getD_eq_getElem?_getD,
      tetrisRows_getElem? (by omega), Option.getD_some]
  unfold gridCell
  rw [hRow, List.getD_eq_getElem?_getD,
    tetrisRow_getElem? (by omega), Option.getD_some,
    Int.toNat_of_nonneg hx.1, Int.toNat_of_nonneg hy.1]

theorem gridCollide_eq
    (around : Around)
    (s : Tetris)
    (dx dy : Int)
    (rot : Turn) :
    gridCollide around (tetrisGrid s) dx dy rot =
      tetrisCollide around s dx dy rot := by
  unfold gridCollide tetrisCollide
  refine congrArg (List.any _) (funext fun i => ?_)
  have hCell :
      pieceCell around (tetrisGrid s) rot i =
        pieceCell around s rot i :=
    rfl
  dsimp only
  rw [hCell]
  split_ifs with hOut
  · rfl
  · rw [not_or, not_or, Int.not_lt, ge_iff_le, Int.not_le,
      ge_iff_le, Int.not_le] at hOut
    refine decide_eq_decide.mpr (and_congr_right fun hBelow => ?_)
    have hSame :
        gridCell (tetrisGrid s).board
            ((pieceCell around s rot i).1 + dx)
            ((pieceCell around s rot i).2 + dy) =
          s.board ((pieceCell around s rot i).1 + dx)
            ((pieceCell around s rot i).2 + dy) :=
      gridCell_tetrisRows ⟨hOut.1, hOut.2.1⟩ ⟨hBelow, hOut.2.2⟩
    rw [hSame]

theorem tetrisRow_set
    (x y : Int)
    (v : UInt8)
    {r : Nat}
    (hHere : 0 ≤ x ∧ (r : Int) = y) :
    tetrisRow (b.set x y v) r =
      (tetrisRow b r).set x.toNat v := by
  apply List.ext_getElem?
  intro c
  by_cases hc : c < 10
  · have hLength : (tetrisRow b r).length = 10 :=
      List.length_map _
    rw [tetrisRow_getElem? hc, List.getElem?_set, hLength,
      tetrisRow_getElem? hc, TetrisBoard.set]
    by_cases hColumn : (c : Int) = x
    · rw [if_pos ⟨hColumn, hHere.2⟩, if_pos (by omega),
        if_pos (by omega)]
    · rw [if_neg fun hBoth => hColumn hBoth.1,
        if_neg (by omega)]
  · rw [List.getElem?_eq_none, List.getElem?_eq_none]
    · rw [List.length_set]
      exact Nat.le_trans (Nat.le_of_eq (List.length_map _))
        (Nat.le_of_not_lt hc)
    · exact Nat.le_trans (Nat.le_of_eq (List.length_map _))
        (Nat.le_of_not_lt hc)

/- A store into the array is one into the grid. -/
theorem tetrisRows_fill
    (cell : Int × Int)
    (v : UInt8)
    (b : TetrisBoard) :
    tetrisRows
        (if cell.2 ≥ 0 ∧ cell.2 < 20 then b.set cell.1 cell.2 v
        else b) =
      fillCell cell v (tetrisRows b) := by
  unfold fillCell
  by_cases hRange : cell.2 ≥ 0 ∧ cell.2 < 20
  · rw [if_pos hRange]
    apply List.ext_getElem?
    intro r
    by_cases hr : r < 20
    · rw [tetrisRows_getElem? hr]
      by_cases hHere : 0 ≤ cell.1 ∧ (r : Int) = cell.2
      · rw [if_pos ⟨hRange.1, hRange.2, hHere.1⟩,
          tetrisRow_set cell.1 cell.2 v hHere,
          List.getElem?_modify, tetrisRows_getElem? hr]
        exact congrArg some (if_pos (by omega)).symm
      · have hSame :
            tetrisRow (b.set cell.1 cell.2 v) r =
              tetrisRow b r := by
          refine tetrisRow_congr fun c _ => if_neg ?_
          omega
        rw [hSame]
        split_ifs with hColumn
        · rw [List.getElem?_modify, tetrisRows_getElem? hr]
          exact congrArg some (if_neg (by omega)).symm
        · exact (tetrisRows_getElem? hr).symm
    · rw [List.getElem?_eq_none, List.getElem?_eq_none]
      · split_ifs
        · rw [List.length_modify, tetrisRows_length]
          exact Nat.le_of_not_lt hr
        · rw [tetrisRows_length]
          exact Nat.le_of_not_lt hr
      · rw [tetrisRows_length]
        exact Nat.le_of_not_lt hr
  · rw [if_neg hRange, if_neg]
    exact fun hAll => hRange ⟨hAll.1, hAll.2.1⟩

theorem gridFill_eq
    (around : Around)
    (s : Tetris) :
    gridFill around (tetrisGrid s) =
      tetrisRows (fillPiece around s) := by
  unfold gridFill fillPiece
  have hFold :
      ∀ (is : List (Fin 4)) (b : TetrisBoard),
        is.foldl
            (fun rows i =>
              fillCell (pieceCell around s s.rot i)
                (s.piece + 1).toUInt32.toUInt8 rows)
            (tetrisRows b) =
          tetrisRows
            (is.foldl
              (fun b i =>
                if (pieceCell around s s.rot i).2 ≥ 0 ∧
                    (pieceCell around s s.rot i).2 < 20 then
                  b.set (pieceCell around s s.rot i).1
                    (pieceCell around s s.rot i).2
                    (s.piece + 1).toUInt32.toUInt8
                else b) b) := by
    intro is
    induction is with
    | nil => exact fun _ => rfl
    | cons i is ih =>
        intro b
        rw [List.foldl_cons, List.foldl_cons,
          ← tetrisRows_fill, ih]
  exact hFold (List.finRange 4) s.board

/- A lock of the game is a lock of the grid. -/
theorem tetrisLock_grid
    (around : Around)
    (s : Tetris) :
    ∃ t,
      (∀ tests, lockTests ≤ tests →
        tetrisLock around tests s = some t) ∧
      tetrisGrid t = gridLock around (tetrisGrid s) := by
  rcases clearRows_settles (fillPiece around s) with
    ⟨b', hClear, hRows⟩
  have hFill := gridFill_eq around s
  let cleared :=
    Int32.ofNat
      ((tetrisRows (fillPiece around s)).countP isFullRow)
  have hNext :
      tetrisGrid (s.next b' cleared) =
        (tetrisGrid s).next
          (settled isFullRow emptyRow
            (gridFill around (tetrisGrid s)))
          (Int32.ofNat
            ((gridFill around (tetrisGrid s)).countP
              isFullRow)) := by
    rw [hFill, ← hRows]
    rfl
  refine ⟨if tetrisCollide around (s.next b' cleared) 0 0 0 then
      { s.next b' cleared with quit := true }
    else s.next b' cleared, fun tests hTests => ?_, ?_⟩
  · unfold tetrisLock
    rw [hClear tests hTests]
    rfl
  · unfold gridLock
    dsimp only
    rw [← hNext, gridCollide_eq]
    split_ifs
    · rfl
    · rfl

/- The rows that are full once the piece is in its place. -/
def fullRows
    (around : Around)
    (s : Tetris) : Nat :=
  (tetrisRows (withPiece around s)).countP isFullRow

/- What a lock must leave. -/
structure LockClears
    (around : Around)
    (s t : Tetris) : Prop where
  rows :
    tetrisRows t.board =
      List.replicate (fullRows around s) emptyRow ++
        (tetrisRows (withPiece around s)).filter
          fun row => !isFullRow row
  lines : t.lines = s.lines + Int32.ofNat (fullRows around s)
  score :
    t.score = s.score + Int32.ofNat (100 * fullRows around s ^ 2)

/- A lock of the grid, but for the end of the game. -/
theorem gridLock_fields
    (around : Around)
    (g : TetrisGrid) :
    let filled := gridFill around g
    let k := filled.countP isFullRow
    (gridLock around g).board =
        settled isFullRow emptyRow filled ∧
      (gridLock around g).lines = g.lines + Int32.ofNat k ∧
      (gridLock around g).score =
        g.score + Int32.ofNat (100 * k ^ 2) := by
  have hGain :
      ∀ k : Nat,
        Int32.ofNat k * Int32.ofNat k * 100 =
          Int32.ofNat (100 * k ^ 2) := by
    intro k
    have hHundred : (100 : Int32) = Int32.ofNat 100 := rfl
    rw [hHundred, ← Int32.ofNat_mul, ← Int32.ofNat_mul,
      Nat.mul_comm, Nat.pow_two]
  unfold gridLock
  dsimp only
  rw [← hGain]
  split_ifs
  · exact ⟨rfl, rfl, rfl⟩
  · exact ⟨rfl, rfl, rfl⟩

/-
  A lock ends, takes out the full rows and counts them, for
  every board and every place of the piece.
-/
theorem tetrisLock_clears
    (around : Around)
    (s : Tetris) :
    ∃ t, LockClears around s t ∧
      ∃ enough, ∀ tests, enough ≤ tests →
        tetrisLock around tests s = some t := by
  rcases tetrisLock_grid around s with ⟨t, hLock, hGrid⟩
  have hFields := gridLock_fields around (tetrisGrid s)
  rw [← hGrid] at hFields
  dsimp only at hFields
  rw [gridFill_eq, fillPiece_eq] at hFields
  exact ⟨t, ⟨hFields.1, hFields.2.1, hFields.2.2⟩, lockTests,
    hLock⟩

end Refinement

end Games

end AsmOS
