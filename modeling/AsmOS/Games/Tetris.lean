import AsmOS.Base.Compaction

/-
  The Tetris game (`src/game.c`) on a board of 10 columns and
  20 rows.

  The number of the piece is the score modulo 7.  With a
  score below zero it is outside of the table of shapes, and
  the cells are what memory holds there.

  Main declarations:
    * `TetrisState`, `Tetris`, `pieceCell`
    * `tetrisCollide`, `tetrisLock`, `tetrisInit`
    * `TetrisEvent`, `tetrisMove`, `tetrisStep`
-/

------------------------------------------------------------
-- State
------------------------------------------------------------

namespace AsmOS

namespace Games

/- A column and a row; cells outside of the array are other
   memory. -/
abbrev TetrisBoard := Int → Int → UInt8

/- In how many ways a piece can be turned. -/
def tetrisTurns : Nat := 4

instance : NeZero tetrisTurns :=
  ⟨Nat.succ_ne_zero 3⟩

abbrev Turn := Fin tetrisTurns

/- The static variables of the game, with some board. -/
structure TetrisState (β : Type) where
  board : β
  piece : Int32
  rot : Turn
  px : Int
  py : Int
  score : Int32
  lines : Int32
  quit : Bool
  dropTicks : Nat
deriving DecidableEq

abbrev Tetris := TetrisState TetrisBoard

/- `tetris_shapes`: for a piece and a rotation, four cells. -/
def tetrisShapes : List (List (List (Int × Int))) :=
  [[[(1, 0), (1, 1), (1, 2), (1, 3)],
    [(0, 1), (1, 1), (2, 1), (3, 1)],
    [(1, 0), (1, 1), (1, 2), (1, 3)],
    [(0, 1), (1, 1), (2, 1), (3, 1)]],
   [[(0, 0), (1, 0), (0, 1), (1, 1)],
    [(0, 0), (1, 0), (0, 1), (1, 1)],
    [(0, 0), (1, 0), (0, 1), (1, 1)],
    [(0, 0), (1, 0), (0, 1), (1, 1)]],
   [[(1, 0), (0, 1), (1, 1), (2, 1)],
    [(0, 0), (0, 1), (1, 1), (0, 2)],
    [(0, 1), (1, 1), (2, 1), (1, 2)],
    [(1, 0), (0, 1), (1, 1), (1, 2)]],
   [[(1, 0), (2, 0), (0, 1), (1, 1)],
    [(0, 0), (0, 1), (1, 1), (1, 2)],
    [(1, 0), (2, 0), (0, 1), (1, 1)],
    [(0, 0), (0, 1), (1, 1), (1, 2)]],
   [[(0, 0), (1, 0), (1, 1), (2, 1)],
    [(1, 0), (0, 1), (1, 1), (0, 2)],
    [(0, 0), (1, 0), (1, 1), (2, 1)],
    [(1, 0), (0, 1), (1, 1), (0, 2)]],
   [[(0, 0), (0, 1), (1, 1), (2, 1)],
    [(1, 0), (1, 1), (0, 2), (1, 2)],
    [(0, 1), (1, 1), (2, 1), (2, 2)],
    [(0, 0), (1, 0), (0, 1), (0, 2)]],
   [[(2, 0), (0, 1), (1, 1), (2, 1)],
    [(0, 0), (1, 0), (0, 1), (0, 2)],
    [(0, 1), (1, 1), (2, 1), (0, 2)],
    [(1, 0), (1, 1), (0, 2), (1, 2)]]]

/- The bytes around the table, by the number of a cell. -/
abbrev Around := Int → Int8 × Int8

/- An entry of the table, or what is read outside of it. -/
def shapeCell
    (around : Around)
    (piece : Int32)
    (rot : Turn)
    (i : Fin 4) : Int × Int :=
  if 0 ≤ piece.toInt ∧ piece.toInt < 7 then
    ((tetrisShapes.getD piece.toInt.toNat []).getD rot []).getD i
      (0, 0)
  else
    let cell := around ((piece.toInt * 4 + rot.val) * 4 + i.val)
    (cell.1.toInt, cell.2.toInt)

/- The place of cell `i` of the piece, in a rotation. -/
def pieceCell
    {β : Type}
    (around : Around)
    (s : TetrisState β)
    (rot : Turn)
    (i : Fin 4) : Int × Int :=
  (s.px + (shapeCell around s.piece rot i).1,
    s.py + (shapeCell around s.piece rot i).2)

/- `tetris_collide`. -/
def tetrisCollide
    (around : Around)
    (s : Tetris)
    (dx dy : Int)
    (rot : Turn) : Bool :=
  (List.finRange 4).any fun i =>
    let cx := (pieceCell around s rot i).1 + dx
    let cy := (pieceCell around s rot i).2 + dy
    if cx < 0 ∨ cx ≥ 10 ∨ cy ≥ 20 then true
    else decide (cy ≥ 0 ∧ s.board cx cy ≠ 0)

------------------------------------------------------------
-- Locking
------------------------------------------------------------

/- A store to a cell. -/
def TetrisBoard.set
    (b : TetrisBoard)
    (x y : Int)
    (v : UInt8) : TetrisBoard :=
  fun x' y' => if x' = x ∧ y' = y then v else b x' y'

/- The first loop of `tetris_lock`. -/
def fillPiece
    (around : Around)
    (s : Tetris) : TetrisBoard :=
  (List.finRange 4).foldl
    (fun b i =>
      let cx := (pieceCell around s s.rot i).1
      let cy := (pieceCell around s s.rot i).2
      if cy ≥ 0 ∧ cy < 20 then
        b.set cx cy (s.piece + 1).toUInt32.toUInt8
      else b)
    s.board

/- The test of a row. -/
def rowFull
    (row : Int)
    (b : TetrisBoard) : Bool :=
  (List.range 10).all fun c : Nat => decide (b c row ≠ 0)

/- Row `r` gets what is in the row above it. -/
def copyRow
    (r : Int)
    (b : TetrisBoard) : TetrisBoard :=
  (List.range 10).foldl
    (fun b (c : Nat) => b.set c r (b c (r - 1))) b

/- The rows from `r` up to row 1 do. -/
def copyRows : Nat → TetrisBoard → TetrisBoard
| 0, b => b
| r + 1, b => copyRows r (copyRow (r + 1) b)

/- Row 0 gets empty. -/
def clearTop
    (b : TetrisBoard) : TetrisBoard :=
  (List.range 10).foldl (fun b (c : Nat) => b.set c 0 0) b

def removeRow
    (row : Int)
    (b : TetrisBoard) : TetrisBoard :=
  clearTop (copyRows row.toNat b)

/- The second loop, with `tests` tests at most. -/
def clearRows
    (tests : Nat)
    (b : TetrisBoard) : Option (Compaction.Scan TetrisBoard) :=
  Compaction.scan rowFull removeRow 20 tests b

/- The next piece, over the board that a lock leaves. -/
def TetrisState.next
    {β : Type}
    (s : TetrisState β)
    (board : β)
    (cleared : Int32) : TetrisState β :=
  let score := s.score + cleared * cleared * 100
  { board := board
    piece := score % 7
    rot := 0
    px := 3
    py := -2
    score := score
    lines := s.lines + cleared
    quit := s.quit
    dropTicks := 0 }

/- `tetris_lock`. -/
def tetrisLock
    (around : Around)
    (tests : Nat)
    (s : Tetris) : Option Tetris :=
  (clearRows tests (fillPiece around s)).map fun out =>
    let s := s.next out.state (Int32.ofNat out.removed)
    if tetrisCollide around s 0 0 0 then { s with quit := true }
    else s

/- `tetris_init`. -/
def tetrisInit
    (s : Tetris) : Tetris :=
  { board := fun x y =>
      if 0 ≤ x ∧ x < 10 ∧ 0 ≤ y ∧ y < 20 then 0
      else s.board x y
    piece := 0
    rot := 0
    px := 3
    py := -2
    score := 0
    lines := 0
    quit := false
    dropTicks := 0 }

------------------------------------------------------------
-- Moves
------------------------------------------------------------

section Moves

variable {β : Type}
variable (collide : TetrisState β → Int → Int → Turn → Bool)
variable (lock : TetrisState β → Option (TetrisState β))

/- A move down, or a lock where there is none. -/
def tetrisDown
    (s : TetrisState β) : Option (TetrisState β) :=
  if collide s 0 1 s.rot then lock s
  else some { s with py := s.py + 1 }

/- The scancode tests of `tetris_run`. -/
def tetrisKey
    (sc : UInt8)
    (s : TetrisState β) : Option (TetrisState β) :=
  if sc &&& 0x80 ≠ 0 then
    some s
  else if sc = 0x01 then
    some { s with quit := true }
  else if sc = 0x4B then
    if collide s (-1) 0 s.rot then some s
    else some { s with px := s.px - 1 }
  else if sc = 0x4D then
    if collide s 1 0 s.rot then some s
    else some { s with px := s.px + 1 }
  else if sc = 0x50 then
    tetrisDown collide lock s
  else if sc = 0x48 then
    let r := s.rot + 1
    if collide s 0 0 r then some s
    else some { s with rot := r }
  else
    some s

/- The rest of the loop of `tetris_run`. -/
def tetrisTick
    (s : TetrisState β) : Option (TetrisState β) :=
  if s.dropTicks + 1 ≥ 25 then
    tetrisDown collide lock { s with dropTicks := 0 }
  else
    some { s with dropTicks := s.dropTicks + 1 }

/- What the loop of `tetris_run` does. -/
inductive TetrisEvent where
| key (sc : UInt8)
| tick
deriving DecidableEq, Repr

def tetrisMove
    (s : TetrisState β) :
    TetrisEvent → Option (TetrisState β)
| .key sc => tetrisKey collide lock sc s
| .tick => tetrisTick collide lock s

end Moves

/- The game, with the procedures that look at the board. -/
def tetrisStep
    (around : Around)
    (tests : Nat)
    (s : Tetris)
    (event : TetrisEvent) : Option Tetris :=
  tetrisMove (tetrisCollide around) (tetrisLock around tests) s
    event

end Games

end AsmOS
