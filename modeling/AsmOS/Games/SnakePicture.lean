import AsmOS.Games.SnakeInvariant
import AsmOS.Graphics.CellGrid

/-
  The frames of the snake game, and what a player reads off
  them.

  Main declarations:
    * `snakeDraw`
    * `SnakePart`, `snakePart`, `readPart`
    * `lastCellColor_snake`
    * `snakeRun_read`
-/

------------------------------------------------------------
-- Drawing
------------------------------------------------------------

namespace AsmOS

namespace Games

open ByteMem Graphics

/- The loop of `snake_draw`. -/
def snakeSegments
    (s : Snake) : List DrawCall :=
  (List.range s.snakeLen).map fun i =>
    .rectangle (signedArg (s.snakeSegX i * 20 + 1))
      (signedArg (s.snakeSegY i * 20 + 1)) 18 18
      (if i = 0 then 0x00FF00 else 0x00AA00)

def snakeFood
    (s : Snake) : DrawCall :=
  .rectangle (signedArg (s.snakeFoodX * 20 + 1))
    (signedArg (s.snakeFoodY * 20 + 1)) 18 18 0xFF0000

def snakeTexts
    (s : Snake) : List DrawCall :=
  [.text 5 2 (ascii "Snake") 0xFFFFFF,
    .text 5 12 (ascii "Score:") 0xFFFFFF,
    .number 50 12 s.snakeScore.toUInt32 0xFFFFFF]

/- `snake_draw`. -/
def snakeDraw
    (s : Snake) : List DrawCall :=
  .clear :: (snakeSegments s ++ [snakeFood s] ++ snakeTexts s)

------------------------------------------------------------
-- Parts
------------------------------------------------------------

/- What is in a cell of the field. -/
inductive SnakePart where
| empty
| head
| tail
| food
deriving DecidableEq

def SnakePart.color : SnakePart → UInt32
| .empty => 0x000000
| .head => 0x00FF00
| .tail => 0x00AA00
| .food => 0xFF0000

def snakePart
    (s : Snake)
    (cell : Int × Int) : SnakePart :=
  if (s.snakeFoodX, s.snakeFoodY) = cell then .food
  else if (s.snakeSegX 0, s.snakeSegY 0) = cell then .head
  else if cell ∈ s.body then .tail
  else .empty

/- The part that a value in the framebuffer stands for. -/
def readPart
    (d : Display)
    (value : UInt32) : SnakePart :=
  if value = cellValue d SnakePart.food.color then .food
  else if value = cellValue d SnakePart.head.color then .head
  else if value = cellValue d SnakePart.tail.color then .tail
  else .empty

/- No two parts look the same, on either display. -/
theorem readPart_color
    (d : Display)
    (part : SnakePart) :
    readPart d (cellValue d part.color) = part := by
  cases d <;> cases part <;> decide

------------------------------------------------------------
-- Cells Of A Frame
------------------------------------------------------------

/- Boxes of 18 pixels, 20 pixels apart. -/
def snakeCells : CellGrid :=
  ⟨1, 1, 20, 18, by decide⟩

def snakePaints
    (s : Snake) : List ((Int × Int) × UInt32) :=
  (List.range s.snakeLen).map fun i =>
    ((s.snakeSegX i, s.snakeSegY i),
      if i = 0 then 0x00FF00 else 0x00AA00)

section Frames

variable {s : Snake}

/- The field is drawn box by box. -/
theorem snakeField_boxes
    (s : Snake) :
    snakeSegments s ++ [snakeFood s] =
      (snakePaints s ++
        [((s.snakeFoodX, s.snakeFoodY), 0xFF0000)]).map
          snakeCells.box := by
  have hPlace : ∀ z : Int,
      z * 20 + 1 =
        (snakeCells.left : Int) + z * snakeCells.pitch := by
    intro z
    exact Int.add_comm _ _
  unfold snakeSegments snakePaints snakeFood
  rw [List.map_append, List.map_map, List.map_singleton]
  simp only [hPlace]
  rfl

/- The boxes of the field are on the screen. -/
theorem snakeCells_fits
    {cell : Int × Int}
    (hField : InField cell) :
    snakeCells.Fits cell := by
  rcases hField with ⟨hLeft, hRight, hTop, hBottom⟩
  have hPitch : snakeCells.pitch = 20 := rfl
  have hCorner : snakeCells.left = 1 ∧ snakeCells.top = 1 :=
    ⟨rfl, rfl⟩
  refine ⟨by omega, by omega, ?_, ?_⟩
  · rw [hPitch, hCorner.1]
    omega
  · rw [hPitch, hCorner.2]
    omega

theorem inCell_field
    {cell : Int × Int}
    {px py : Nat}
    (hField : InField cell)
    (hCell : InCell snakeCells cell px py) :
    px < 320 ∧ 20 < py ∧ py < 200 := by
  rcases hField with ⟨hLeft, hRight, hTop, hBottom⟩
  rcases hCell with ⟨_, hEast, hNorth, hSouth⟩
  have hPitch : (snakeCells.pitch : Int) = 20 := rfl
  have hSize : (snakeCells.size.toNat : Int) = 18 := rfl
  have hCorner :
      (snakeCells.left : Int) = 1 ∧ (snakeCells.top : Int) = 1 :=
    ⟨rfl, rfl⟩
  rw [hPitch, hSize, hCorner.1] at hEast
  rw [hPitch, hCorner.2] at hNorth
  rw [hPitch, hSize, hCorner.2] at hSouth
  omega

/- A segment is painted once, as what it is. -/
theorem lastCellColor_segments
    (hBody : BodyOk s.body)
    (cell : Int × Int) :
    lastCellColor (snakePaints s) 0x000000 cell =
      if (s.snakeSegX 0, s.snakeSegY 0) = cell then 0x00FF00
      else if cell ∈ s.body then 0x00AA00
      else 0x000000 := by
  have hLong : 3 ≤ s.snakeLen := by
    rw [← s.body_length]
    exact hBody.lo
  have hOnce :
      ∀ i < s.snakeLen,
        (s.snakeSegX i, s.snakeSegY i) =
            (s.snakeSegX 0, s.snakeSegY 0) →
          i = 0 := by
    intro i hi hSame
    exact List.inj_on_of_nodup_map hBody.nodup
      (List.mem_range.mpr hi) (List.mem_range.mpr (by omega)) hSame
  by_cases hHead : (s.snakeSegX 0, s.snakeSegY 0) = cell
  · rw [if_pos hHead]
    refine lastCellColor_uniform ⟨_, List.mem_map.mpr
      ⟨0, List.mem_range.mpr (by omega), rfl⟩, hHead⟩ ?_
    intro paint hMem hSame
    rcases List.mem_map.mp hMem with ⟨i, hi, rfl⟩
    exact if_pos
      (hOnce i (List.mem_range.mp hi) (hSame.trans hHead.symm))
  rw [if_neg hHead]
  by_cases hTail : cell ∈ s.body
  · rw [if_pos hTail]
    rcases List.mem_map.mp hTail with ⟨k, hk, hSegment⟩
    refine lastCellColor_uniform
      ⟨_, List.mem_map.mpr ⟨k, hk, rfl⟩, hSegment⟩ ?_
    intro paint hMem hSame
    rcases List.mem_map.mp hMem with ⟨i, _, rfl⟩
    refine if_neg ?_
    rintro rfl
    exact hHead hSame
  · rw [if_neg hTail]
    refine lastCellColor_elsewhere fun paint hMem hSame => ?_
    rcases List.mem_map.mp hMem with ⟨i, hi, rfl⟩
    exact hTail (List.mem_map.mpr ⟨i, hi, hSame⟩)

/- A cell has the colour of the part that is in it. -/
theorem lastCellColor_snake
    (hOk : SnakeOk s)
    (cell : Int × Int) :
    lastCellColor
        (snakePaints s ++
          [((s.snakeFoodX, s.snakeFoodY), 0xFF0000)])
        0x000000 cell =
      (snakePart s cell).color := by
  rw [lastCellColor_append, lastCellColor_segments hOk.body]
  unfold lastCellColor snakePart
  rw [List.foldl_cons, List.foldl_nil]
  split_ifs <;> rfl

theorem snakeTexts_elsewhere
    {py : Nat}
    (hRow : 20 < py) :
    ∀ c ∈ snakeTexts s, WritesElsewhere py c := by
  have hTitle :
      (2 : UInt32).toNat + 8 ≤ 2 ^ 32 ∧
        (py < (2 : UInt32).toNat ∨ (2 : UInt32).toNat + 8 ≤ py) :=
    ⟨by decide, .inr (Nat.le_of_lt (Nat.lt_trans (by decide) hRow))⟩
  have hScore :
      (12 : UInt32).toNat + 8 ≤ 2 ^ 32 ∧
        (py < (12 : UInt32).toNat ∨
          (12 : UInt32).toNat + 8 ≤ py) :=
    ⟨by decide, .inr (Nat.le_of_lt hRow)⟩
  unfold snakeTexts
  simp only [List.forall_mem_cons]
  exact ⟨hTitle, hScore, hScore, fun c hNone =>
    absurd hNone List.not_mem_nil⟩

end Frames

/-
  As long as a game goes on, whatever the keys, the frame
  that is drawn tells for every pixel of every cell inside
  the walls what is in the cell: the head, another segment,
  the food or nothing.
-/
theorem snakeRun_read
    (d : Display)
    (s : Snake)
    (events : List SnakeEvent)
    (hScores :
      ∀ before, before <+: events →
        ScoreFits (snakeRun s before).snakeScore)
    (hGoes : (snakeRun s events).snakeGameOver = false)
    (fb : FrameBuffer) :
    let s := snakeRun s events
    ∃ fb',
      (∀ tests, 2 ^ 32 ≤ tests →
        draw d tests (snakeDraw s) fb = some fb') ∧
      ∀ cell, InField cell →
        ∀ px py, InCell snakeCells cell px py →
          readPart d (fb' (cellOf d px py)) =
            snakePart s cell := by
  intro s
  have hOk : SnakeOk s := snakeRun_ok _ events hScores hGoes
  rcases draw_shows d
      (snakeSegments s ++ [snakeFood s] ++ snakeTexts s) fb with
    ⟨fb', hDraws, hShows, _⟩
  refine ⟨fb', hDraws, fun cell hField px py hCell => ?_⟩
  rcases inCell_field hField hCell with ⟨hx, hBelow, hy⟩
  have hOn : OnScreen d px py := by
    cases d
    · exact ⟨hx, hy⟩
    · exact ⟨Nat.lt_trans hx (by decide),
        Nat.lt_trans hy (by decide)⟩
  have hBoxes :
      ∀ paint ∈ snakePaints s ++
          [((s.snakeFoodX, s.snakeFoodY), 0xFF0000)],
        snakeCells.Fits paint.1 := by
    intro paint hMem
    refine snakeCells_fits ?_
    rcases List.mem_append.mp hMem with hSegment | hFood
    · rcases List.mem_map.mp hSegment with ⟨i, hi, rfl⟩
      exact hOk.body.field _ (List.mem_map.mpr ⟨i, hi, rfl⟩)
    · rw [List.mem_singleton.mp hFood]
      exact hOk.food
  rw [hShows px py hOn,
    lastColor_append_elsewhere _ (snakeTexts_elsewhere hBelow),
    snakeField_boxes,
    lastColor_boxes (by decide) hBoxes hOn hCell,
    lastCellColor_snake hOk, readPart_color]

/- The frame after a move to the right, on the PC. -/
theorem snakeRun_read_move :
    ∃ fb',
      (∀ tests, 2 ^ 32 ≤ tests →
        draw .pc tests (snakeDraw (snakeRun zeroSnake [.tick]))
          (fun _ => 7) = some fb') ∧
      ∀ cell, InField cell →
        ∀ px py, InCell snakeCells cell px py →
          readPart .pc (fb' (cellOf .pc px py)) =
            snakePart (snakeRun zeroSnake [.tick]) cell := by
  have hScores :
      ∀ before, before <+: [.tick] →
        ScoreFits (snakeRun zeroSnake before).snakeScore := by
    intro before hBefore
    have hAll :
        ∀ events ∈ ([.tick] : List SnakeEvent).inits,
          ScoreFits (snakeRun zeroSnake events).snakeScore := by
      decide +kernel
    exact hAll before ((List.mem_inits _ _).mpr hBefore)
  exact
    snakeRun_read .pc zeroSnake [.tick] hScores (by decide +kernel)
      fun _ => 7

end Games

end AsmOS
