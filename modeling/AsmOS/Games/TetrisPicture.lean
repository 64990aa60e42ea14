import AsmOS.Games.TetrisRun
import AsmOS.Graphics.CellGrid

/-
  The frames of the Tetris game.

  The numbers of the score and the lines are drawn over the
  first three rows of the board; from the fourth row on a
  frame tells what is in every cell.

  Main declarations:
    * `tetrisColor`, `tetrisDraw`
    * `shownCell`, `readCell`
    * `lastCellColor_tetris`
    * `tetrisRun_read`
-/

------------------------------------------------------------
-- Drawing
------------------------------------------------------------

namespace AsmOS

namespace Games

open ByteMem Graphics

/- `tetris_colors`. -/
def tetrisColors : List UInt32 :=
  [0x00FFFF, 0xFFFF00, 0xFF00FF, 0x00FF00, 0xFF0000, 0x0000FF,
    0xFF8800]

/- An entry of the table, or a word `beyond` it. -/
def tetrisColor
    (beyond : Int → UInt32)
    (i : Int) : UInt32 :=
  if 0 ≤ i ∧ i < 7 then tetrisColors.getD i.toNat 0
  else beyond i

/- The box of a cell of the board. -/
def tetrisBox
    (x y : Int)
    (color : UInt32) : DrawCall :=
  .rectangle (signedArg (45 + x * 7)) (signedArg (15 + y * 7)) 6 6
    color

/- The loops over the board in `tetris_draw`. -/
def tetrisBoardCalls
    (beyond : Int → UInt32)
    (s : Tetris) : List DrawCall :=
  (List.range 10).flatMap fun x : Nat =>
    (List.range 20).filterMap fun y : Nat =>
      if s.board x y = 0 then none
      else
        some (tetrisBox x y
          (tetrisColor beyond ((s.board x y).toNat - 1)))

/- The loop over the cells of the piece. -/
def tetrisPieceCalls
    (around : Around)
    (beyond : Int → UInt32)
    (s : Tetris) : List DrawCall :=
  (List.finRange 4).filterMap fun i =>
    let cell := pieceCell around s s.rot i
    if cell.2 ≥ 0 then
      some (tetrisBox cell.1 cell.2
        (tetrisColor beyond s.piece.toInt))
    else none

def tetrisTexts
    (s : Tetris) : List DrawCall :=
  [.text 5 5 (ascii "Tetris") 0xFFFFFF,
    .text 5 15 (ascii "Score:") 0xAAAAAA,
    .number 45 15 s.score.toUInt32 0xFFFFFF,
    .text 5 25 (ascii "Lines:") 0xAAAAAA,
    .number 45 25 s.lines.toUInt32 0xFFFFFF,
    .text 125 5 (ascii "Arrows move") 0x666666,
    .text 125 15 (ascii "Up rotate") 0x666666,
    .text 125 25 (ascii "Esc quit") 0x666666]

/- `tetris_draw`. -/
def tetrisDraw
    (around : Around)
    (beyond : Int → UInt32)
    (s : Tetris) : List DrawCall :=
  .clear ::
    (tetrisBoardCalls beyond s ++ tetrisPieceCalls around beyond s ++
      tetrisTexts s)

------------------------------------------------------------
-- Cells Of A Frame
------------------------------------------------------------

/- Boxes of six pixels, seven pixels apart. -/
def tetrisCells : CellGrid :=
  ⟨45, 15, 7, 6, by decide⟩

/- What a player sees in a cell: the piece, or the board. -/
def shownCell
    (around : Around)
    (s : Tetris)
    (cell : Int × Int) : UInt8 :=
  if ∃ i, pieceCell around s s.rot i = cell then
    (s.piece + 1).toUInt32.toUInt8
  else s.board cell.1 cell.2

/- The colour of a value that is at most 7. -/
def valueColor
    (v : UInt8) : UInt32 :=
  if v = 0 then 0x000000
  else tetrisColors.getD (v.toNat - 1) 0

/- The value that a word in the framebuffer stands for. -/
def readCell
    (d : Display)
    (word : UInt32) : UInt8 :=
  if word ∈ tetrisColors.map (cellValue d) then
    UInt8.ofNat ((tetrisColors.map (cellValue d)).idxOf word + 1)
  else 0

/- No two values look the same, on either display. -/
theorem readCell_color
    (d : Display)
    {v : UInt8}
    (hv : v ≤ 7) :
    readCell d (cellValue d (valueColor v)) = v := by
  have hAll :
      ∀ d : Display, ∀ n < 8,
        readCell d (cellValue d (valueColor (UInt8.ofNat n))) =
          UInt8.ofNat n := by
    intro d
    cases d <;> decide
  have hRead := hAll d v.toNat
    (Nat.lt_succ_of_le (UInt8.le_iff_toNat_le.mp hv))
  rw [UInt8.ofNat_toNat] at hRead
  exact hRead

def boardPaints
    (beyond : Int → UInt32)
    (s : Tetris) : List ((Int × Int) × UInt32) :=
  (List.range 10).flatMap fun x : Nat =>
    (List.range 20).filterMap fun y : Nat =>
      if s.board x y = 0 then none
      else
        some (((x : Int), (y : Int)),
          tetrisColor beyond ((s.board x y).toNat - 1))

def piecePaints
    (around : Around)
    (beyond : Int → UInt32)
    (s : Tetris) : List ((Int × Int) × UInt32) :=
  (List.finRange 4).filterMap fun i =>
    if (pieceCell around s s.rot i).2 ≥ 0 then
      some (pieceCell around s s.rot i,
        tetrisColor beyond s.piece.toInt)
    else none

section Frames

variable {around : Around} {beyond : Int → UInt32} {s : Tetris}

theorem tetrisBox_eq
    (cell : Int × Int)
    (color : UInt32) :
    tetrisCells.box (cell, color) =
      tetrisBox cell.1 cell.2 color :=
  rfl

/- The board and the piece are drawn box by box. -/
theorem tetrisField_boxes
    (around : Around)
    (beyond : Int → UInt32)
    (s : Tetris) :
    tetrisBoardCalls beyond s ++ tetrisPieceCalls around beyond s =
      (boardPaints beyond s ++ piecePaints around beyond s).map
        tetrisCells.box := by
  unfold tetrisBoardCalls tetrisPieceCalls boardPaints piecePaints
  rw [List.map_append, List.map_flatMap, List.map_filterMap]
  simp only [List.map_filterMap, apply_ite (Option.map _),
    Option.map_none, Option.map_some, tetrisBox_eq]

theorem mem_boardPaints
    {paint : (Int × Int) × UInt32} :
    paint ∈ boardPaints beyond s ↔
      ∃ x < 10, ∃ y < 20, s.board (x : Nat) (y : Nat) ≠ 0 ∧
        (((x : Int), (y : Int)),
          tetrisColor beyond ((s.board x y).toNat - 1)) = paint := by
  unfold boardPaints
  simp only [List.mem_flatMap, List.mem_filterMap, List.mem_range]
  constructor
  · rintro ⟨x, hx, y, hy, hPaint⟩
    split_ifs at hPaint with hZero
    exact ⟨x, hx, y, hy, hZero, Option.some.inj hPaint⟩
  · rintro ⟨x, hx, y, hy, hFilled, hPaint⟩
    exact ⟨x, hx, y, hy, by rw [if_neg hFilled, hPaint]⟩

theorem mem_piecePaints
    {paint : (Int × Int) × UInt32} :
    paint ∈ piecePaints around beyond s ↔
      ∃ i, 0 ≤ (pieceCell around s s.rot i).2 ∧
        (pieceCell around s s.rot i,
          tetrisColor beyond s.piece.toInt) = paint := by
  unfold piecePaints
  simp only [List.mem_filterMap]
  constructor
  · rintro ⟨i, _, hPaint⟩
    split_ifs at hPaint with hBelow
    exact ⟨i, hBelow, Option.some.inj hPaint⟩
  · rintro ⟨i, hBelow, hPaint⟩
    exact ⟨i, List.mem_finRange i, by rw [if_pos hBelow, hPaint]⟩

/- The colour of a value of the board is in the table. -/
theorem tetrisColor_value
    {v : UInt8}
    (hv : v ≤ 7)
    (hFilled : v ≠ 0) :
    tetrisColor beyond (v.toNat - 1) = valueColor v := by
  have hSmall := UInt8.le_iff_toNat_le.mp hv
  have hSeven : (7 : UInt8).toNat = 7 := rfl
  have hPositive : v.toNat ≠ 0 := fun hZero =>
    hFilled (UInt8.toNat_inj.mp hZero)
  unfold tetrisColor valueColor
  rw [if_pos (by omega), if_neg hFilled]
  congr 1
  omega

/- The piece has the colour of the value that it is given on
   the board. -/
theorem tetrisColor_piece
    (hPiece : 0 ≤ s.piece.toInt ∧ s.piece.toInt < 7) :
    tetrisColor beyond s.piece.toInt =
      valueColor (s.piece + 1).toUInt32.toUInt8 := by
  have hOne : (1 : Int32).toInt = 1 := rfl
  have hNext : (s.piece + 1).toInt = s.piece.toInt + 1 := by
    rw [SignedWords.toInt_add] <;> rw [hOne]
    exact ⟨by omega, by omega⟩
  have hWord := SignedWords.toNat_toUInt32 (s.piece + 1)
  rw [hNext, if_pos (by omega)] at hWord
  have hByte :
      (s.piece + 1).toUInt32.toUInt8.toNat =
        s.piece.toInt.toNat + 1 := by
    rw [UInt32.toNat_toUInt8]
    omega
  have hFilled : (s.piece + 1).toUInt32.toUInt8 ≠ 0 := by
    intro hZero
    rw [hZero] at hByte
    exact absurd hByte.symm (Nat.succ_ne_zero _)
  have hSmall := piece_value hPiece
  have hIndex :
      (((s.piece + 1).toUInt32.toUInt8.toNat : Nat) : Int) - 1 =
        s.piece.toInt := by
    omega
  rw [← tetrisColor_value hSmall hFilled, hIndex]

/- A cell of the board has the colour of its value. -/
theorem lastCellColor_board
    (hValues :
      ∀ x y, 0 ≤ x ∧ x < 10 → 0 ≤ y ∧ y < 20 → s.board x y ≤ 7)
    {cell : Int × Int}
    (hx : 0 ≤ cell.1 ∧ cell.1 < 10)
    (hy : 0 ≤ cell.2 ∧ cell.2 < 20) :
    lastCellColor (boardPaints beyond s) 0x000000 cell =
      valueColor (s.board cell.1 cell.2) := by
  have hColumn := Int.toNat_of_nonneg hx.1
  have hRow := Int.toNat_of_nonneg hy.1
  by_cases hEmpty : s.board cell.1 cell.2 = 0
  · rw [hEmpty]
    refine lastCellColor_elsewhere fun paint hMem hSame => ?_
    rcases mem_boardPaints.mp hMem with
      ⟨x, _, y, _, hFilled, rfl⟩
    subst hSame
    exact hFilled hEmpty
  · have hPainted :
        (cell,
            tetrisColor beyond
              ((s.board cell.1 cell.2).toNat - 1)) ∈
          boardPaints beyond s := by
      refine mem_boardPaints.mpr ⟨cell.1.toNat, by omega,
        cell.2.toNat, by omega, ?_, ?_⟩
      · rw [hColumn, hRow]
        exact hEmpty
      · rw [hColumn, hRow]
    rw [← tetrisColor_value (hValues _ _ hx hy) hEmpty]
    refine lastCellColor_uniform ⟨_, hPainted, rfl⟩ ?_
    intro paint hMem hSame
    rcases mem_boardPaints.mp hMem with ⟨x, _, y, _, _, rfl⟩
    subst hSame
    rfl

/- The piece is in front of the board. -/
theorem lastCellColor_tetris
    (hOk : GridOk around (tetrisGrid s))
    {cell : Int × Int}
    (hx : 0 ≤ cell.1 ∧ cell.1 < 10)
    (hy : 0 ≤ cell.2 ∧ cell.2 < 20)
    (hValues :
      ∀ x y, 0 ≤ x ∧ x < 10 → 0 ≤ y ∧ y < 20 → s.board x y ≤ 7) :
    lastCellColor
        (boardPaints beyond s ++ piecePaints around beyond s)
        0x000000 cell =
      valueColor (shownCell around s cell) := by
  rw [lastCellColor_append, lastCellColor_board hValues hx hy]
  unfold shownCell
  by_cases hPiece : ∃ i, pieceCell around s s.rot i = cell
  · have hColor : tetrisColor beyond s.piece.toInt =
        valueColor (s.piece + 1).toUInt32.toUInt8 :=
      tetrisColor_piece hOk.piece
    rw [if_pos hPiece, ← hColor]
    rcases hPiece with ⟨i, hHere⟩
    refine lastCellColor_uniform ⟨_, mem_piecePaints.mpr
      ⟨i, hHere ▸ hy.1, rfl⟩, hHere⟩ ?_
    intro paint hMem _
    rcases mem_piecePaints.mp hMem with ⟨j, _, rfl⟩
    rfl
  · rw [if_neg hPiece]
    refine lastCellColor_elsewhere fun paint hMem hSame => ?_
    rcases mem_piecePaints.mp hMem with ⟨j, _, rfl⟩
    exact hPiece ⟨j, hSame⟩

/- The boxes of the board are on the screen. -/
theorem tetrisCells_fits
    {cell : Int × Int}
    (hx : 0 ≤ cell.1 ∧ cell.1 < 10)
    (hy : 0 ≤ cell.2 ∧ cell.2 < 20) :
    tetrisCells.Fits cell := by
  have hGrid :
      tetrisCells.left = 45 ∧ tetrisCells.top = 15 ∧
        tetrisCells.pitch = 7 :=
    ⟨rfl, rfl, rfl⟩
  refine ⟨hx.1, hy.1, ?_, ?_⟩
  · rw [hGrid.1, hGrid.2.2]
    omega
  · rw [hGrid.2.1, hGrid.2.2]
    omega

theorem inCell_board
    {cell : Int × Int}
    {px py : Nat}
    (hx : 0 ≤ cell.1 ∧ cell.1 < 10)
    (hy : 3 ≤ cell.2 ∧ cell.2 < 20)
    (hCell : InCell tetrisCells cell px py) :
    px < 320 ∧ 33 ≤ py ∧ py < 200 := by
  rcases hCell with ⟨_, hEast, hNorth, hSouth⟩
  have hSize : (tetrisCells.size.toNat : Int) = 6 := rfl
  have hGrid :
      (tetrisCells.left : Int) = 45 ∧
        (tetrisCells.top : Int) = 15 ∧
        (tetrisCells.pitch : Int) = 7 :=
    ⟨rfl, rfl, rfl⟩
  rw [hSize, hGrid.1, hGrid.2.2] at hEast
  rw [hGrid.2.1, hGrid.2.2] at hNorth
  rw [hSize, hGrid.2.1, hGrid.2.2] at hSouth
  omega

/- No text is in the rows from 33 on. -/
theorem tetrisTexts_elsewhere
    {py : Nat}
    (hRow : 33 ≤ py) :
    ∀ c ∈ tetrisTexts s, WritesElsewhere py c := by
  have hAbove :
      ∀ y : UInt32, y ≤ 25 →
        y.toNat + 8 ≤ 2 ^ 32 ∧
          (py < y.toNat ∨ y.toNat + 8 ≤ py) := by
    intro y hy
    have hLine := UInt32.le_iff_toNat_le.mp hy
    have hLast : (25 : UInt32).toNat = 25 := rfl
    exact ⟨by omega, .inr (by omega)⟩
  have hTitle := hAbove 5 (by decide)
  have hScore := hAbove 15 (by decide)
  have hLines := hAbove 25 (by decide)
  unfold tetrisTexts
  simp only [List.forall_mem_cons]
  exact ⟨hTitle, hScore, hScore, hLines, hLines, hTitle, hScore,
    hLines, fun c hNone => absurd hNone List.not_mem_nil⟩

end Frames

/- The value of a cell in a legal state is that of a piece. -/
theorem shownCell_small
    {around : Around}
    {s : Tetris}
    (hOk : GridOk around (tetrisGrid s))
    (hLegal : TetrisLegal around s)
    (hQuit : s.quit = false)
    {cell : Int × Int}
    (hx : 0 ≤ cell.1 ∧ cell.1 < 10)
    (hy : 0 ≤ cell.2 ∧ cell.2 < 20) :
    shownCell around s cell ≤ 7 := by
  unfold shownCell
  split_ifs
  · exact piece_value hOk.piece
  · exact hLegal.values hQuit _ _ hx hy

/- A frame of a legal state can be read. -/
theorem tetrisDraw_read
    (d : Display)
    (beyond : Int → UInt32)
    (fb : FrameBuffer)
    {around : Around}
    {s : Tetris}
    (hOk : GridOk around (tetrisGrid s))
    (hQuit : s.quit = false) :
    ∃ fb',
      (∀ tests, 2 ^ 32 ≤ tests →
        draw d tests (tetrisDraw around beyond s) fb =
          some fb') ∧
      ∀ x y, 0 ≤ x ∧ x < 10 → 3 ≤ y ∧ y < 20 →
        ∀ px py, InCell tetrisCells (x, y) px py →
          readCell d (fb' (cellOf d px py)) =
            shownCell around s (x, y) := by
  have hLegal := hOk.legal
  have hValues := hLegal.values hQuit
  rcases draw_shows d
      (tetrisBoardCalls beyond s ++
        tetrisPieceCalls around beyond s ++ tetrisTexts s) fb with
    ⟨fb', hDraws, hShows, _⟩
  refine ⟨fb', hDraws, fun x y hx hy px py hCell => ?_⟩
  have hRow : 0 ≤ y ∧ y < 20 := ⟨by omega, hy.2⟩
  rcases inCell_board hx hy hCell with ⟨hEast, hBelow, hSouth⟩
  have hOn : OnScreen d px py := by
    cases d
    · exact ⟨hEast, hSouth⟩
    · exact ⟨Nat.lt_trans hEast (by decide),
        Nat.lt_trans hSouth (by decide)⟩
  have hBoxes :
      ∀ paint ∈ boardPaints beyond s ++ piecePaints around beyond s,
        tetrisCells.Fits paint.1 := by
    intro paint hMem
    rcases List.mem_append.mp hMem with hBoard | hPiece
    · rcases mem_boardPaints.mp hBoard with
        ⟨x, hColumn, y, hLine, _, rfl⟩
      have hX : 0 ≤ (x : Int) ∧ (x : Int) < 10 := by omega
      have hY : 0 ≤ (y : Int) ∧ (y : Int) < 20 := by omega
      exact tetrisCells_fits hX hY
    · rcases mem_piecePaints.mp hPiece with ⟨i, hVisible, rfl⟩
      have hFree := hLegal.cells hQuit i
      exact tetrisCells_fits ⟨hFree.1, hFree.2.1⟩
        ⟨hVisible, hFree.2.2.1⟩
  rw [hShows px py hOn,
    lastColor_append_elsewhere _ (tetrisTexts_elsewhere hBelow),
    tetrisField_boxes,
    lastColor_boxes (by decide) hBoxes hOn hCell,
    lastCellColor_tetris hOk hx hRow hValues,
    readCell_color d
      (shownCell_small hOk hLegal hQuit hx hRow)]

/-
  In every state of a run from `tetris_init` whose score stays
  in range, as long as the game is not over, the frame tells
  for every pixel of the board's cells from the fourth row on
  what is in the cell: which piece, be it the falling one or
  one that is locked, or nothing.  What is in the memory
  around the table of colours does not matter.
-/
theorem tetrisRun_read
    (d : Display)
    (around : Around)
    (beyond : Int → UInt32)
    {tests : Nat}
    (hTests : lockTests ≤ tests)
    (s : Tetris)
    (events : List TetrisEvent)
    (hFits :
      StepRuns.EveryStep (tetrisStep around tests)
        (LockFits around) (tetrisInit s) events)
    (fb : FrameBuffer) :
    StepRuns.EveryState (tetrisStep around tests)
      (fun s => s.quit = false →
        ∃ fb',
          (∀ tests, 2 ^ 32 ≤ tests →
            draw d tests (tetrisDraw around beyond s) fb =
              some fb') ∧
          ∀ x y, 0 ≤ x ∧ x < 10 → 3 ≤ y ∧ y < 20 →
            ∀ px py, InCell tetrisCells (x, y) px py →
              readCell d (fb' (cellOf d px py)) =
                shownCell around s (x, y))
      (tetrisInit s) events := by
  have hInit : GridOk around (tetrisGrid (tetrisInit s)) := by
    rw [tetrisGrid_init]
    exact gridStart_ok around
  have hKeeps :
      ∀ s event t,
        GridOk around (tetrisGrid s) →
          LockFits around s event →
            tetrisStep around tests s event = some t →
              GridOk around (tetrisGrid t) :=
    fun s event t hOk hFits hStep =>
      gridStep_ok hOk (lockFits_iff_grid.mp hFits)
        (gridStep_of_step hTests hStep)
  have hRun := StepRuns.everyState_of hKeeps hInit hFits
  exact hRun.mono fun s hOk hQuit =>
    tetrisDraw_read d beyond fb hOk hQuit

/- The frames of a round, in which ten rows are cleared. -/
theorem tetrisRun_read_round :
    StepRuns.EveryState (tetrisStep zeros lockTests)
      (fun s => s.quit = false →
        ∃ fb',
          (∀ tests, 2 ^ 32 ≤ tests →
            draw .pc tests (tetrisDraw zeros (fun _ => 0) s)
              (fun _ => 7) = some fb') ∧
          ∀ x y, 0 ≤ x ∧ x < 10 → 3 ≤ y ∧ y < 20 →
            ∀ px py, InCell tetrisCells (x, y) px py →
              readCell .pc (fb' (cellOf .pc px py)) =
                shownCell zeros s (x, y))
      (tetrisInit tetrisStatics) roundKeys :=
  tetrisRun_read .pc zeros (fun _ => 0)
    (Nat.le_refl lockTests) tetrisStatics roundKeys
    roundKeys_fits fun _ => 7

end Games

end AsmOS
