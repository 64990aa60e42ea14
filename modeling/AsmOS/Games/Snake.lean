import Mathlib.Data.Fin.VecNotation
import Mathlib.Tactic.Common

/-
  The snake game (`src/game.c`) on a grid of 16 columns and
  10 rows, the outermost of which are the walls.

  The two segment arrays have 64 cells; the first
  `snake_len` are the snake, head first.

  Main declarations:
    * `Snake`
    * `snakePlaceFood`, `snakeInit`
    * `snakeTick`, `snakeKey`
    * `SnakeEvent`, `snakeRun`
-/

------------------------------------------------------------
-- State
------------------------------------------------------------

namespace AsmOS

namespace Games

abbrev snakeGridW : Nat := 16
abbrev snakeGridH : Nat := 10
abbrev snakeMaxLen : Nat := 64
abbrev snakeUp : Fin 4 := 0
abbrev snakeRight : Fin 4 := 1
abbrev snakeDown : Fin 4 := 2
abbrev snakeLeft : Fin 4 := 3

/- The static variables of the game. -/
structure Snake where
  snakeSegX : Nat → Int
  snakeSegY : Nat → Int
  snakeLen : Nat
  snakeDir : Fin 4
  snakeNextDir : Fin 4
  snakeFoodX : Int
  snakeFoodY : Int
  snakeGameOver : Bool
  snakeScore : Int32

/- `snake_dx` and `snake_dy`. -/
def snakeDx : Fin 4 → Int := ![0, 1, 0, -1]

def snakeDy : Fin 4 → Int := ![-1, 0, 1, 0]

/- The loop that looks for a segment at a cell. -/
def onSnake
    (s : Snake)
    (x y : Int) : Bool :=
  (List.range s.snakeLen).any fun i =>
    s.snakeSegX i = x && s.snakeSegY i = y

------------------------------------------------------------
-- Food
------------------------------------------------------------

/- The cell of try `n`. -/
def foodCell
    (score n : Int32) : Int × Int :=
  (1 + ((score * 7 + n) % 14).toInt,
    1 + ((score * 11 + n * 3) % 8).toInt)

/- One try; a cell on the snake gets column -1. -/
def foodTry
    (s : Snake)
    (n : Nat) : Int × Int :=
  let cell := foodCell s.snakeScore (Int32.ofNat n)
  if onSnake s cell.1 cell.2 then (-1, cell.2) else cell

/- The loop of `snake_place_food` at try `n`, `left` to go. -/
def foodSearch
    (s : Snake) :
    Nat → Nat → Int × Int
| 0, n => foodTry s n
| left + 1, n =>
    if (foodTry s n).1 ≤ 0 then
      foodSearch s left (n + 1)
    else
      foodTry s n

/- `snake_place_food`, with its 200 tries. -/
def snakePlaceFood
    (s : Snake) : Snake :=
  let found := foodSearch s 199 0
  let cell := if found.1 ≤ 0 then (1, 1) else found
  { s with snakeFoodX := cell.1, snakeFoodY := cell.2 }

/- `snake_init`; the rest of the arrays is left as it is. -/
def snakeInit
    (s : Snake) : Snake :=
  snakePlaceFood
    { s with
      snakeLen := 3
      snakeDir := snakeRight
      snakeNextDir := snakeRight
      snakeScore := 0
      snakeGameOver := false
      snakeSegX := fun i =>
        if i = 0 then 8 else if i = 1 then 7
        else if i = 2 then 6 else s.snakeSegX i
      snakeSegY := fun i =>
        if i = 0 then 5 else if i = 1 then 5
        else if i = 2 then 5 else s.snakeSegY i }

------------------------------------------------------------
-- Moves
------------------------------------------------------------

/- The loop that moves `seg[0 .. i - 1]` up by one. -/
def shiftSegments
    (seg : Nat → Int) :
    Nat → Nat → Int
| 0 => seg
| i + 1 =>
    shiftSegments
      (fun j => if j = i + 1 then seg i else seg j) i

/- The segments after a move of the head. -/
def snakeMove
    (s : Snake)
    (hx hy : Int) : Snake :=
  { s with
    snakeSegX := fun j =>
      if j = 0 then hx
      else shiftSegments s.snakeSegX s.snakeLen j
    snakeSegY := fun j =>
      if j = 0 then hy
      else shiftSegments s.snakeSegY s.snakeLen j }

/- The growth of a snake that eats. -/
def snakeGrow
    (s : Snake) : Snake :=
  { s with
    snakeLen :=
      if s.snakeLen < snakeMaxLen - 1 then s.snakeLen + 1
      else s.snakeLen
    snakeScore := s.snakeScore + 1 }

/- The first statement of a tick. -/
def snakeTurn
    (s : Snake) : Snake :=
  let opp := s.snakeDir + 2
  if s.snakeNextDir ≠ opp then
    { s with snakeDir := s.snakeNextDir }
  else
    s

/- `snake_tick`. -/
def snakeTick
    (s : Snake) : Snake :=
  let s := snakeTurn s
  let hx := s.snakeSegX 0 + snakeDx s.snakeDir
  let hy := s.snakeSegY 0 + snakeDy s.snakeDir
  if hx ≤ 0 ∨ hx ≥ snakeGridW - 1 ∨ hy ≤ 0 ∨
      hy ≥ snakeGridH - 1 then
    { s with snakeGameOver := true }
  else if onSnake s hx hy then
    { s with snakeGameOver := true }
  else
    let s := snakeMove s hx hy
    if hx = s.snakeFoodX ∧ hy = s.snakeFoodY then
      snakePlaceFood (snakeGrow s)
    else
      s

/- The scancode tests of `snake_run`. -/
def snakeKey
    (s : Snake)
    (sc : UInt8) : Snake :=
  if sc &&& 0x80 ≠ 0 then
    s
  else if sc = 0x48 then
    { s with snakeNextDir := snakeUp }
  else if sc = 0x50 then
    { s with snakeNextDir := snakeDown }
  else if sc = 0x4B then
    { s with snakeNextDir := snakeLeft }
  else if sc = 0x4D then
    { s with snakeNextDir := snakeRight }
  else
    s

------------------------------------------------------------
-- Games
------------------------------------------------------------

/- What the loop of `snake_run` does. -/
inductive SnakeEvent where
| key (sc : UInt8)
| tick
deriving DecidableEq, Repr

def snakeStep
    (s : Snake) :
    SnakeEvent → Snake
| .key sc => snakeKey s sc
| .tick => snakeTick s

/- The state after some events of a new game. -/
def snakeRun
    (s : Snake)
    (events : List SnakeEvent) : Snake :=
  events.foldl snakeStep (snakeInit s)

end Games

end AsmOS
