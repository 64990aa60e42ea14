import AsmOS.Games.Invaders
import AsmOS.Graphics.Picture

/-
  The Racing game (`src/game.c`): obstacles come down three
  lanes, and the car changes lanes.

  The list of obstacles is what the arrays hold below
  `race_obst_n`.  A run is a list of frames, each with the
  scancodes that the keyboard has then.  The tick and the
  score are 32-bit integers that wrap, and the remainder of
  a negative tick is negative.

  Main declarations:
    * `Racing`, `racingInit`, `racingTick`, `racingDraw`
    * `racingFrame`, `racingRun`
-/

------------------------------------------------------------
-- State
------------------------------------------------------------

namespace AsmOS

namespace Games

open ByteMem Graphics

structure RaceObst where
  lane : Int
  y : Int
deriving DecidableEq

/- The static variables of the game. -/
structure Racing where
  raceLane : Nat
  raceObst : List RaceObst
  raceScore : Int32
  raceQuit : Bool
  raceTick : Int32

/- `RACE_LANE_W`, and the upper edge of the car. -/
def raceLaneW
    (d : Display) : Int :=
  screenWidth d / 3

def raceCarY
    (d : Display) : Int :=
  screenHeight d - 35 - 15

/- `race_car_center_x`. -/
def raceCarCenterX
    (d : Display)
    (s : Racing) : Int :=
  s.raceLane * raceLaneW d + raceLaneW d / 2

/- The left edge of an obstacle. -/
def raceObstX
    (d : Display)
    (o : RaceObst) : Int :=
  o.lane * raceLaneW d + raceLaneW d / 2 - 30 / 2

/- `racing_init`. -/
def racingInit : Racing :=
  { raceLane := 1
    raceObst := []
    raceScore := 0
    raceQuit := false
    raceTick := 0 }

------------------------------------------------------------
-- A Tick
------------------------------------------------------------

/- `racing_spawn_obstacle`. -/
def racingSpawnObstacle
    (s : Racing) : Racing :=
  if s.raceObst.length ≥ 4 then s
  else
    { s with
      raceObst :=
        s.raceObst ++
          [{ lane := (s.raceTick % 3).toInt, y := -25 }] }

/-
  The first loop of `racing_tick`: an obstacle below the
  screen is taken out, and the next one comes to its place.
-/
def racingScroll
    (d : Display) :
    List RaceObst → Int32 → List RaceObst × Int32
| [], score => ([], score)
| o :: obst, score =>
    let o := { o with y := o.y + 3 }
    if o.y > screenHeight d then racingScroll d obst (score + 10)
    else
      let rest := racingScroll d obst score
      (o :: rest.1, rest.2)

/- The test of the second loop. -/
def raceHits
    (d : Display)
    (s : Racing)
    (o : RaceObst) : Bool :=
  !(decide (o.y + 25 < raceCarY d) ||
      decide (o.y > raceCarY d + 35)) &&
    (decide (raceCarCenterX d s + 24 / 2 > raceObstX d o) &&
      decide (raceCarCenterX d s - 24 / 2 < raceObstX d o + 30))

/- `racing_tick`. -/
def racingTick
    (d : Display)
    (s : Racing) : Racing :=
  let s := { s with raceTick := s.raceTick + 1 }
  let s :=
    if s.raceTick % 20 = 0 then racingSpawnObstacle s else s
  let moved := racingScroll d s.raceObst s.raceScore
  let s := { s with raceObst := moved.1, raceScore := moved.2 }
  { s with
    raceQuit := s.raceQuit || s.raceObst.any (raceHits d s) }

------------------------------------------------------------
-- Frames
------------------------------------------------------------

/- The scancode tests of `racing_run`, but for Esc. -/
def racingMove
    (sc : UInt8)
    (s : Racing) : Racing :=
  let s :=
    if sc = 0x4B ∧ s.raceLane > 0 then
      { s with raceLane := s.raceLane - 1 }
    else s
  if sc = 0x4D ∧ s.raceLane < 3 - 1 then
    { s with raceLane := s.raceLane + 1 }
  else s

/- The scancodes of a frame; those after Esc are not read. -/
def racingKeys : List UInt8 → Racing → Racing
| [], s => s
| sc :: keys, s =>
    if sc &&& 0x80 ≠ 0 then racingKeys keys s
    else if sc = 0x01 then { s with raceQuit := true }
    else racingKeys keys (racingMove sc s)

/- One turn of the loop of `racing_run`. -/
def racingFrame
    (d : Display)
    (keys : List UInt8)
    (s : Racing) : Racing :=
  racingTick d (racingKeys keys s)

/- The loop of `racing_run`. -/
def racingRun
    (d : Display) : List (List UInt8) → Racing → Racing
| [], s => s
| keys :: frames, s =>
    if s.raceQuit then s
    else racingRun d frames (racingFrame d keys s)

------------------------------------------------------------
-- Drawing
------------------------------------------------------------

/- The marks at the left of a lane, down to the lower edge. -/
def racingMarks
    (d : Display)
    (lane : Nat) : List DrawCall :=
  (List.range ((screenHeight d - 30 + 7) / 8).toNat).map
    fun (k : Nat) =>
      .rectangle (signedArg (lane * raceLaneW d))
        (signedArg (30 + 8 * k)) 4 4 0x444444

def racingObstCall
    (d : Display)
    (o : RaceObst) : DrawCall :=
  .rectangle (signedArg (raceObstX d o)) (signedArg o.y) 30 25
    0xFF0000

def racingCarCall
    (d : Display)
    (s : Racing) : DrawCall :=
  .rectangle (signedArg (raceCarCenterX d s - 24 / 2))
    (signedArg (raceCarY d)) 24 35 0x0000FF

def racingTexts
    (s : Racing) : List DrawCall :=
  [.text 5 5 (ascii "Racing") 0xFFFFFF,
    .text 5 15 (ascii "Score:") 0xAAAAAA,
    .number 45 15 s.raceScore.toUInt32 0xFFFFFF,
    .text 200 5 (ascii "L/R dodge Esc quit") 0x666666]

/- `racing_draw`. -/
def racingDraw
    (d : Display)
    (s : Racing) : List DrawCall :=
  .clear ::
    ((List.range 4).flatMap (racingMarks d) ++
      s.raceObst.map (racingObstCall d) ++ [racingCarCall d s] ++
      racingTexts s)

end Games

end AsmOS
