import Mathlib.Logic.Function.Basic
import AsmOS.Graphics.Pixels

/-
  The Space Invaders game (`src/game.c`).

  The aliens are a grid of 8 columns and 3 rows that moves as
  a whole.  The counters of the source stay small, but for
  the place of a bullet that is not there, which nothing
  reads.

  Main declarations:
    * `Invaders`, `alienX`, `alienY`
    * `spaceInvadersInit`, `siFire`, `spaceInvadersTick`
    * `InvadersEvent`, `spaceInvadersStep`
-/

------------------------------------------------------------
-- State
------------------------------------------------------------

namespace AsmOS

namespace Games

open Graphics

/- The static variables of the game. -/
structure Invaders where
  px : Int
  alienDx : Int
  alienOx : Int
  alienOy : Int
  alienTick : Nat
  aliens : Fin 8 → Fin 3 → Bool
  bulletX : Int
  bulletY : Int
  bulletActive : Bool
  score : Nat
  quit : Bool
  win : Bool

/- `VIDEO_WIDTH` and `VIDEO_HEIGHT`. -/
def screenWidth
    (d : Display) : Int :=
  (videoWidth d).toNat

def screenHeight
    (d : Display) : Int :=
  (videoHeight d).toNat

/- The left edge of a column. -/
def alienX
    (s : Invaders)
    (c : Fin 8) : Int :=
  20 + s.alienOx + c.val * (14 + 2)

/- The upper edge of a row. -/
def alienY
    (s : Invaders)
    (r : Fin 3) : Int :=
  20 + s.alienOy + r.val * (10 + 2)

/- The cells, by column. -/
def alienCells : List (Fin 8 × Fin 3) :=
  (List.finRange 8).flatMap fun c =>
    (List.finRange 3).map fun r => (c, r)

/- `space_invaders_init`. -/
def spaceInvadersInit
    (d : Display)
    (s : Invaders) : Invaders :=
  { px := screenWidth d / 2 - 20 / 2
    alienDx := 2
    alienOx := 0
    alienOy := 0
    alienTick := 0
    aliens := fun _ _ => true
    bulletX := s.bulletX
    bulletY := s.bulletY
    bulletActive := false
    score := 0
    quit := false
    win := false }

------------------------------------------------------------
-- Shots
------------------------------------------------------------

/- `si_fire`. -/
def siFire
    (d : Display)
    (s : Invaders) : Invaders :=
  if s.bulletActive then s
  else
    { s with
      bulletX := s.px + 20 / 2 - 4 / 2
      bulletY := screenHeight d - 12 - 8
      bulletActive := true }

/- The middle of the bullet is on a live alien. -/
def bulletHits
    (s : Invaders)
    (cell : Fin 8 × Fin 3) : Bool :=
  let x := s.bulletX + 4 / 2
  let y := s.bulletY + 8 / 2
  let ax := alienX s cell.1
  let ay := alienY s cell.2
  s.aliens cell.1 cell.2 && x ≥ ax && x < ax + 14 &&
    y ≥ ay && y < ay + 10

/- An alien is shot. -/
def siKill
    (cell : Fin 8 × Fin 3)
    (s : Invaders) : Invaders :=
  { s with
    aliens := fun c r =>
      if (c, r) = cell then false else s.aliens c r
    score := s.score + 10
    bulletActive := false }

/- The bullet moves, up to the top of the screen. -/
def siFlight
    (s : Invaders) : Invaders :=
  let s := { s with bulletY := s.bulletY - 4 }
  if s.bulletY < 0 then { s with bulletActive := false } else s

/- The loops that look for the first alien it is on. -/
def siHit
    (s : Invaders) : Invaders :=
  if s.bulletActive then
    match alienCells.find? (bulletHits s) with
    | some cell => siKill cell s
    | none => s
  else s

def siBullet
    (s : Invaders) : Invaders :=
  siHit (siFlight s)

------------------------------------------------------------
-- Moves Of The Aliens
------------------------------------------------------------

/- A step to the side would leave the screen. -/
def siAtEdge
    (d : Display)
    (s : Invaders) : Bool :=
  let live := alienCells.filter fun cell =>
    s.aliens cell.1 cell.2
  let leftOk :=
    !live.any fun cell => alienX s cell.1 + s.alienDx ≤ 0
  let rightOk :=
    !live.any fun cell =>
      alienX s cell.1 + 14 + s.alienDx ≥ screenWidth d
  (decide (s.alienDx < 0) && !leftOk) ||
    (decide (s.alienDx > 0) && !rightOk)

/- The lower edge of a row is at the line of the player. -/
def atLine
    (d : Display)
    (s : Invaders)
    (r : Fin 3) : Bool :=
  alienY s r + 10 ≥ screenHeight d - 12 - 5

/- The cells, each column from its lowest row up. -/
def landingCells : List (Fin 8 × Fin 3) :=
  (List.finRange 8).flatMap fun c =>
    (List.finRange 3).reverse.map fun r => (c, r)

/- The loops that end at `done_check`, with the first alien. -/
def siLanded
    (d : Display)
    (s : Invaders) : Bool :=
  match landingCells.find? fun cell => s.aliens cell.1 cell.2 with
  | some cell => atLine d s cell.2
  | none => false

/- What is done at every 25th tick. -/
def siMarch
    (d : Display)
    (s : Invaders) : Invaders :=
  if siAtEdge d s then
    let s :=
      { s with
        alienDx := -s.alienDx
        alienOy := s.alienOy + 12 }
    { s with quit := s.quit || siLanded d s }
  else
    { s with alienOx := s.alienOx + s.alienDx }

/- Without aliens the game is won. -/
def siEnd
    (s : Invaders) : Invaders :=
  if alienCells.any fun cell => s.aliens cell.1 cell.2 then s
  else { s with win := true, quit := true }

/- `space_invaders_tick`. -/
def spaceInvadersTick
    (d : Display)
    (s : Invaders) : Invaders :=
  let s := siBullet s
  let s := { s with alienTick := s.alienTick + 1 }
  siEnd
    (if s.alienTick ≥ 25 then siMarch d { s with alienTick := 0 }
    else s)

------------------------------------------------------------
-- Events
------------------------------------------------------------

/- The scancode tests of `space_invaders_run`. -/
def siKey
    (d : Display)
    (sc : UInt8)
    (s : Invaders) : Invaders :=
  if sc &&& 0x80 ≠ 0 then s
  else if sc = 0x01 then { s with quit := true }
  else
    let s :=
      if sc = 0x4B ∧ s.px > 5 then { s with px := s.px - 8 }
      else s
    let s :=
      if sc = 0x4D ∧ s.px + 20 < screenWidth d - 5 then
        { s with px := s.px + 8 }
      else s
    if sc = 0x39 then siFire d s else s

/- What the loop of `space_invaders_run` does. -/
inductive InvadersEvent where
| key (sc : UInt8)
| tick
deriving DecidableEq, Repr

def spaceInvadersStep
    (d : Display)
    (s : Invaders) : InvadersEvent → Invaders
| .key sc => siKey d sc s
| .tick => spaceInvadersTick d s

end Games

end AsmOS
