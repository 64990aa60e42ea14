import AsmOS.Base.Loops
import AsmOS.Base.SignedWords
import AsmOS.Graphics.Pixels

/-
  Rectangles and circles (`draw_rectangle`, `draw_circle` in
  `src/graphics.c`).

  The coordinates are unsigned.  A negative one, as the games
  pass it, is above every bound of the loops that wraps to
  the screen, so that nothing is drawn then.

  Main declarations:
    * `drawRectangle`, `drawCircle`
    * `drawRectangle_paints`, `drawCircle_paints`
    * `drawRectangle_clips_iff`, `drawCircle_complete_iff`
-/

------------------------------------------------------------
-- Loops Over Pixels
------------------------------------------------------------

namespace AsmOS

namespace Graphics

open Loops

section LoopsOverPixels

variable {ι : Type} {more : ι → Bool} {next : ι → ι}
variable {act : ι → FrameBuffer → Option FrameBuffer}
variable {i : ι} {vs : List ι} {tests : Nat}

/- A loop whose body is calls is the calls of all of them. -/
theorem forLoop_setPixels
    {d : Display}
    {color : UInt32}
    {calls : ι → List (UInt32 × UInt32)}
    (hCounts : Counts more next i vs)
    (hAct : ∀ v fb, act v fb = some (setPixels d color (calls v) fb))
    (hTests : vs.length < tests)
    (fb : FrameBuffer) :
    forLoop more next act tests i fb =
      some (setPixels d color (vs.flatMap calls) fb) := by
  rw [forLoop_returns hCounts hAct hTests]
  unfold setPixels
  rw [List.foldl_flatMap]

end LoopsOverPixels

/- Values that a counter can take in so many tests. -/
theorem upFrom_length_lt
    {n tests : Nat}
    (hn : n < 2 ^ 32)
    (hTests : 2 ^ 32 ≤ tests)
    (a : UInt32) :
    (upFrom n a).length < tests := by
  rw [upFrom_length]
  exact Nat.lt_of_lt_of_le hn hTests

------------------------------------------------------------
-- Rectangles
------------------------------------------------------------

/- `draw_rectangle`, with `tests` tests of a loop at most. -/
def drawRectangle
    (d : Display)
    (x y width height color : UInt32)
    (tests : Nat)
    (fb : FrameBuffer) : Option FrameBuffer :=
  forLoop (fun py => decide (py < y + height))
    (fun py => py + 1)
    (fun py fb =>
      forLoop (fun px => decide (px < x + width))
        (fun px => px + 1)
        (fun px fb => some (setPixel d px py color fb))
        tests x fb)
    tests y fb

/- The calls of a row, and of all rows. -/
def rectangleRow
    (x width py : UInt32) : List (UInt32 × UInt32) :=
  (upFrom ((x + width).toNat - x.toNat) x).flatMap
    fun px => [(px, py)]

def rectangleCalls
    (x y width height : UInt32) : List (UInt32 × UInt32) :=
  (upFrom ((y + height).toNat - y.toNat) y).flatMap
    (rectangleRow x width)

theorem drawRectangle_calls
    (d : Display)
    (x y width height color : UInt32)
    {tests : Nat}
    (hTests : 2 ^ 32 ≤ tests)
    (fb : FrameBuffer) :
    drawRectangle d x y width height color tests fb =
      some (setPixels d color
        (rectangleCalls x y width height) fb) := by
  have hColumns := (x + width).toNat_lt
  have hRows := (y + height).toNat_lt
  refine forLoop_setPixels (counts_lt y (y + height)) ?_
    (upFrom_length_lt (by omega) hTests y) fb
  intro py fb
  refine forLoop_setPixels (counts_lt x (x + width)) ?_
    (upFrom_length_lt (by omega) hTests x) fb
  intro px fb
  rfl

/- What an unsigned counter from `z` on passes. -/
theorem mem_upFrom_lt
    {a b v : UInt32} :
    v ∈ upFrom (b.toNat - a.toNat) a ↔
      a.toNat ≤ v.toNat ∧ v.toNat < b.toNat := by
  have ha := a.toNat_lt
  have hb := b.toNat_lt
  rw [mem_upFrom (by omega)]
  omega

theorem calls_rectangleCalls
    {x y width height : UInt32}
    {px py : Nat} :
    Calls (rectangleCalls x y width height) px py ↔
      (x.toNat ≤ px ∧ px < (x + width).toNat) ∧
        (y.toNat ≤ py ∧ py < (y + height).toNat) := by
  unfold Calls rectangleCalls rectangleRow
  simp only [List.mem_flatMap, mem_upFrom_lt, List.mem_singleton]
  constructor
  · rintro ⟨c, ⟨w, hRow, v, hColumn, rfl⟩, rfl, rfl⟩
    exact ⟨hColumn, hRow⟩
  · rintro ⟨hColumn, hRow⟩
    have hColumns := (x + width).toNat_lt
    have hRows := (y + height).toNat_lt
    have hx : (UInt32.ofNat px).toNat = px :=
      UInt32.toNat_ofNat_of_lt' (hColumn.2.trans hColumns)
    have hy : (UInt32.ofNat py).toNat = py :=
      UInt32.toNat_ofNat_of_lt' (hRow.2.trans hRows)
    refine ⟨(UInt32.ofNat px, UInt32.ofNat py),
      ⟨UInt32.ofNat py, ?_, UInt32.ofNat px, ?_, rfl⟩, hx, hy⟩
    · rw [hy]
      exact hRow
    · rw [hx]
      exact hColumn

/- The pixels of a rectangle at a signed position. -/
structure InRectangle
    (x y : Int32)
    (width height : UInt32)
    (px py : Nat) : Prop where
  left : x.toInt ≤ px
  right : (px : Int) < x.toInt + width.toNat
  above : y.toInt ≤ py
  below : (py : Int) < y.toInt + height.toNat

/- The pixels that the loops name, near the screen. -/
theorem counter_iff
    {z : Int32}
    {size : UInt32}
    {p : Nat}
    (hPlace : z.toInt.natAbs < 2 ^ 20)
    (hSize : size.toNat < 2 ^ 20)
    (hp : p < 2 ^ 20) :
    (z.toUInt32.toNat ≤ p ∧
        p < (z.toUInt32 + size).toNat) ↔
      0 ≤ z.toInt ∧ z.toInt ≤ p ∧
        (p : Int) < z.toInt + size.toNat := by
  have hStart := SignedWords.toNat_toUInt32 z
  rw [UInt32.toNat_add]
  split_ifs at hStart <;> omega

section Rectangles

variable {d : Display} {x y : Int32}
variable {width height color : UInt32}

/- Some pixel of the rectangle is on the screen. -/
structure Visible
    (d : Display)
    (x y : Int32)
    (width height : UInt32) : Prop where
  wide : 0 < width.toNat
  high : 0 < height.toNat
  left : x.toInt < (videoWidth d).toNat
  right : 0 < x.toInt + width.toNat
  above : y.toInt < (videoHeight d).toNat
  below : 0 < y.toInt + height.toNat

theorem visible_iff :
    Visible d x y width height ↔
      ∃ px py, OnScreen d px py ∧
        InRectangle x y width height px py := by
  have hSize := video_size d
  constructor
  · intro hVisible
    have hLeft := hVisible.left
    have hRight := hVisible.right
    have hAbove := hVisible.above
    have hBelow := hVisible.below
    have hWide := hVisible.wide
    have hHigh := hVisible.high
    exact ⟨x.toInt.toNat, y.toInt.toNat,
      ⟨by omega, by omega⟩,
      ⟨by omega, by omega, by omega, by omega⟩⟩
  · rintro ⟨px, py, hOn, hIn⟩
    have hx := hOn.width
    have hy := hOn.height
    have hLeft := hIn.left
    have hRight := hIn.right
    have hAbove := hIn.above
    have hBelow := hIn.below
    exact ⟨by omega, by omega, by omega, by omega, by omega,
      by omega⟩

/- The loops draw what is at a position on the screen. -/
theorem drawRectangle_paints
    (d : Display)
    (color : UInt32)
    (hx : x.toInt.natAbs < 2 ^ 20)
    (hy : y.toInt.natAbs < 2 ^ 20)
    (hWidth : width.toNat < 2 ^ 20)
    (hHeight : height.toNat < 2 ^ 20)
    (fb : FrameBuffer) :
    Paints d color
      (fun px py =>
        (0 ≤ x.toInt ∧ 0 ≤ y.toInt) ∧
          InRectangle x y width height px py)
      fb
      (setPixels d color
        (rectangleCalls x.toUInt32 y.toUInt32 width height)
        fb) := by
  refine (setPixels_paints d color _ fb).congr fun px py hOn => ?_
  have hSize := video_size d
  have hpx := hOn.width
  have hpy := hOn.height
  rw [calls_rectangleCalls,
    counter_iff hx hWidth (by omega),
    counter_iff hy hHeight (by omega)]
  constructor
  · rintro ⟨⟨hx0, hLeft, hRight⟩, hy0, hAbove, hBelow⟩
    exact ⟨⟨hx0, hy0⟩, hLeft, hRight, hAbove, hBelow⟩
  · rintro ⟨⟨hx0, hy0⟩, hLeft, hRight, hAbove, hBelow⟩
    exact ⟨⟨hx0, hLeft, hRight⟩, hy0, hAbove, hBelow⟩

/- What the loops must leave in every framebuffer. -/
def DrawsRectangle
    (d : Display)
    (x y : Int32)
    (width height color : UInt32) : Prop :=
  ∀ fb, ∃ enough fb',
    (∀ tests, enough ≤ tests →
      drawRectangle d x.toUInt32 y.toUInt32 width height color
        tests fb = some fb') ∧
    Paints d color (InRectangle x y width height) fb fb'

/- A framebuffer without the colour shows what is drawn. -/
theorem drawsRectangle_iff
    (hx : x.toInt.natAbs < 2 ^ 20)
    (hy : y.toInt.natAbs < 2 ^ 20)
    (hWidth : width.toNat < 2 ^ 20)
    (hHeight : height.toNat < 2 ^ 20) :
    DrawsRectangle d x y width height color ↔
      ∀ px py, OnScreen d px py →
        InRectangle x y width height px py →
          0 ≤ x.toInt ∧ 0 ≤ y.toInt := by
  constructor
  · intro hDraws px py hOn hIn
    rcases hDraws (otherFrame d color) with
      ⟨enough, fb', hRuns, hPaints⟩
    have hRun := hRuns (enough + 2 ^ 32) (Nat.le_add_right _ _)
    rw [drawRectangle_calls d _ _ _ _ _ (Nat.le_add_left _ _)]
      at hRun
    rw [← Option.some.inj hRun] at hPaints
    have hLoops :=
      drawRectangle_paints d color hx hy hWidth hHeight
        (otherFrame d color)
    exact ((hPaints.region_iff hLoops (otherFrame_ne d color)
      hOn).mp hIn).1
  · intro hInside fb
    refine ⟨2 ^ 32, _, fun tests hTests =>
      drawRectangle_calls d _ _ _ _ _ hTests fb, ?_⟩
    refine (drawRectangle_paints d color hx hy hWidth hHeight
      fb).congr fun px py hOn => ?_
    exact and_iff_right_of_imp (hInside px py hOn)

/-
  A rectangle is clipped at the edges of the screen exactly
  if none of it is above or left of the screen, or all of it
  is outside.
-/
theorem drawRectangle_clips_iff
    (d : Display)
    (x y : Int32)
    (width height color : UInt32)
    (hx : x.toInt.natAbs < 2 ^ 20)
    (hy : y.toInt.natAbs < 2 ^ 20)
    (hWidth : width.toNat < 2 ^ 20)
    (hHeight : height.toNat < 2 ^ 20) :
    DrawsRectangle d x y width height color ↔
      (0 ≤ x.toInt ∧ 0 ≤ y.toInt) ∨
        ¬ Visible d x y width height := by
  rw [drawsRectangle_iff hx hy hWidth hHeight, visible_iff,
    or_iff_not_imp_right, not_not]
  constructor
  · rintro hInside ⟨px, py, hOn, hIn⟩
    exact hInside px py hOn hIn
  · intro hInside px py hOn hIn
    exact hInside ⟨px, py, hOn, hIn⟩

theorem drawRectangle_clips_iff_obstacle :
    DrawsRectangle .pc 250 10 30 25 0xFF0000 ↔
      (0 ≤ (250 : Int32).toInt ∧ 0 ≤ (10 : Int32).toInt) ∨
        ¬ Visible .pc 250 10 30 25 :=
  drawRectangle_clips_iff .pc 250 10 30 25 0xFF0000 (by decide)
    (by decide) (by decide) (by decide)

/- An obstacle of the racing game that comes into view. -/
theorem drawRectangle_hides_obstacle :
    ¬ DrawsRectangle .pc 250 (-22) 30 25 0xFF0000 := by
  rw [drawsRectangle_iff (by decide) (by decide) (by decide)
    (by decide)]
  intro hInside
  have hBoth :=
    hInside 250 0 ⟨by decide, by decide⟩
      ⟨by decide, by decide, by decide, by decide⟩
  exact absurd hBoth.2 (by decide)

end Rectangles

------------------------------------------------------------
-- Circles
------------------------------------------------------------

/- The body of the loop over a row of a circle. -/
def circlePixel
    (d : Display)
    (x y radius color : UInt32)
    (px py : Int32)
    (fb : FrameBuffer) : FrameBuffer :=
  let dx := (px.toUInt32 - x).toInt32
  let dy := (py.toUInt32 - y).toInt32
  if (dx * dx + dy * dy).toUInt32 ≤ radius * radius then
    setPixel d px.toUInt32 py.toUInt32 color fb
  else fb

/-
  `draw_circle`, with `tests` tests of a loop at most.  The
  counters are signed, and are compared as unsigned.
-/
def drawCircle
    (d : Display)
    (x y radius color : UInt32)
    (tests : Nat)
    (fb : FrameBuffer) : Option FrameBuffer :=
  forLoop (fun py => decide (py.toUInt32 ≤ y + radius))
    (fun py => py + 1)
    (fun py fb =>
      forLoop (fun px => decide (px.toUInt32 ≤ x + radius))
        (fun px => px + 1)
        (fun px fb => some (circlePixel d x y radius color px py fb))
        tests (x - radius).toInt32 fb)
    tests (y - radius).toInt32 fb

/- The calls for a pixel, a row, and all rows. -/
def circleCall
    (x y radius : UInt32)
    (px py : Int32) : List (UInt32 × UInt32) :=
  let dx := (px.toUInt32 - x).toInt32
  let dy := (py.toUInt32 - y).toInt32
  if (dx * dx + dy * dy).toUInt32 ≤ radius * radius then
    [(px.toUInt32, py.toUInt32)]
  else []

/- The values of a counter from `z - radius` to `z + radius`. -/
def span
    (z radius : UInt32) : List Int32 :=
  (upFrom ((z + radius).toNat + 1 - (z - radius).toNat)
    (z - radius)).map UInt32.toInt32

def circleCalls
    (x y radius : UInt32) : List (UInt32 × UInt32) :=
  (span y radius).flatMap fun py =>
    (span x radius).flatMap fun px => circleCall x y radius px py

/- A signed counter that is compared as unsigned. -/
theorem counts_span
    {z radius : UInt32}
    (hEnd : (z + radius).toNat + 1 < 2 ^ 32) :
    Counts (fun p : Int32 => decide (p.toUInt32 ≤ z + radius))
      (fun p => p + 1) (z - radius).toInt32 (span z radius) :=
  (counts_le (z - radius) hEnd).map (fun _ => rfl) fun _ => rfl

theorem span_length_lt
    {tests : Nat}
    {z radius : UInt32}
    (hEnd : (z + radius).toNat + 1 < 2 ^ 32)
    (hTests : 2 ^ 32 ≤ tests) :
    (span z radius).length < tests := by
  unfold span
  rw [List.length_map]
  exact upFrom_length_lt (by omega) hTests _

theorem drawCircle_calls
    (d : Display)
    {x y radius : UInt32}
    (color : UInt32)
    (hColumns : (x + radius).toNat + 1 < 2 ^ 32)
    (hRows : (y + radius).toNat + 1 < 2 ^ 32)
    {tests : Nat}
    (hTests : 2 ^ 32 ≤ tests)
    (fb : FrameBuffer) :
    drawCircle d x y radius color tests fb =
      some (setPixels d color (circleCalls x y radius) fb) := by
  refine forLoop_setPixels (counts_span hRows) ?_
    (span_length_lt hRows hTests) fb
  intro py fb
  refine forLoop_setPixels (counts_span hColumns) ?_
    (span_length_lt hColumns hTests) fb
  intro px fb
  refine congrArg some ?_
  unfold circlePixel circleCall
  dsimp only
  split_ifs <;> rfl

/- The pixels of a circle. -/
def InCircle
    (x y radius : UInt32)
    (px py : Nat) : Prop :=
  ((px : Int) - x.toNat) ^ 2 + ((py : Int) - y.toNat) ^ 2 ≤
    (radius.toNat : Int) ^ 2

section Circles

variable {d : Display} {x y z radius color : UInt32}
variable {px py : Nat}

theorem mem_span
    {p : Int32} :
    p ∈ span z radius ↔
      (z - radius).toNat ≤ p.toUInt32.toNat ∧
        p.toUInt32.toNat ≤ (z + radius).toNat := by
  have hStart := (z - radius).toNat_lt
  have hEnd := (z + radius).toNat_lt
  have hMap :
      p ∈ span z radius ↔
        p.toUInt32 ∈
          upFrom ((z + radius).toNat + 1 - (z - radius).toNat)
            (z - radius) := by
    unfold span
    rw [List.mem_map]
    constructor
    · rintro ⟨v, hMem, rfl⟩
      exact hMem
    · intro hMem
      exact ⟨p.toUInt32, hMem, rfl⟩
  rw [hMap, mem_upFrom (by omega)]
  omega

/- A counter that would start below zero passes nothing. -/
theorem mem_span_iff
    {p : Int32}
    (hz : z.toNat < 640)
    (hRadius : radius.toNat < 2 ^ 14) :
    p ∈ span z radius ↔
      radius.toNat ≤ z.toNat ∧
        z.toNat ≤ p.toUInt32.toNat + radius.toNat ∧
        p.toUInt32.toNat ≤ z.toNat + radius.toNat := by
  rw [mem_span, UInt32.toNat_add, UInt32.toNat_sub]
  omega

/- The test of the loops, where nothing overflows. -/
theorem circleTest_iff
    {p q : Int32}
    (hx : x.toNat < 640)
    (hy : y.toNat < 640)
    (hRadius : radius.toNat < 2 ^ 14)
    (hp : p ∈ span x radius)
    (hq : q ∈ span y radius) :
    (((p.toUInt32 - x).toInt32 * (p.toUInt32 - x).toInt32 +
          (q.toUInt32 - y).toInt32 *
            (q.toUInt32 - y).toInt32).toUInt32 ≤
        radius * radius) ↔
      InCircle x y radius p.toUInt32.toNat q.toUInt32.toNat := by
  rw [mem_span_iff hx hRadius] at hp
  rw [mem_span_iff hy hRadius] at hq
  have hdx :
      (p.toUInt32 - x).toInt32.toInt =
        (p.toUInt32.toNat : Int) - x.toNat :=
    SignedWords.toInt_sub_toInt32 (by omega) (by omega)
  have hdy :
      (q.toUInt32 - y).toInt32.toInt =
        (q.toUInt32.toNat : Int) - y.toNat :=
    SignedWords.toInt_sub_toInt32 (by omega) (by omega)
  have hSquares :=
    SignedWords.squares_le_iff
      (a := (p.toUInt32 - x).toInt32)
      (b := (q.toUInt32 - y).toInt32) (r := radius)
      (by omega) (by omega) (by omega)
  rw [hdx, hdy] at hSquares
  exact hSquares

/- A pixel of a circle is in reach of both counters. -/
theorem InCircle.near
    (hIn : InCircle x y radius px py) :
    ((px : Int) - x.toNat).natAbs ≤ radius.toNat ∧
      ((py : Int) - y.toNat).natAbs ≤ radius.toNat := by
  unfold InCircle at hIn
  have hColumns := sq_nonneg ((px : Int) - x.toNat)
  have hRows := sq_nonneg ((py : Int) - y.toNat)
  have hRadius : (0 : Int) ≤ radius.toNat := by omega
  have hx :=
    abs_le_of_sq_le_sq'
      (a := (px : Int) - x.toNat) (by omega) hRadius
  have hy :=
    abs_le_of_sq_le_sq'
      (a := (py : Int) - y.toNat) (by omega) hRadius
  omega

/- What the loops name, if they start on the screen. -/
theorem calls_circleCalls
    (hx : x.toNat < 640)
    (hy : y.toNat < 640)
    (hRadius : radius.toNat < 2 ^ 14)
    (hpx : px < 2 ^ 32)
    (hpy : py < 2 ^ 32) :
    Calls (circleCalls x y radius) px py ↔
      (radius.toNat ≤ x.toNat ∧ radius.toNat ≤ y.toNat) ∧
        InCircle x y radius px py := by
  unfold Calls circleCalls circleCall
  simp only [List.mem_flatMap]
  constructor
  · rintro ⟨c, ⟨q, hq, p, hp, hCall⟩, rfl, rfl⟩
    split_ifs at hCall with hTest
    · rw [circleTest_iff hx hy hRadius hp hq] at hTest
      rw [List.mem_singleton] at hCall
      rw [hCall]
      exact ⟨⟨((mem_span_iff hx hRadius).mp hp).1,
        ((mem_span_iff hy hRadius).mp hq).1⟩, hTest⟩
    · exact absurd hCall List.not_mem_nil
  · rintro ⟨⟨hLeft, hAbove⟩, hIn⟩
    have hNear := hIn.near
    have hpxNat : (UInt32.ofNat px).toInt32.toUInt32.toNat = px :=
      UInt32.toNat_ofNat_of_lt' hpx
    have hpyNat : (UInt32.ofNat py).toInt32.toUInt32.toNat = py :=
      UInt32.toNat_ofNat_of_lt' hpy
    have hp : (UInt32.ofNat px).toInt32 ∈ span x radius := by
      rw [mem_span_iff hx hRadius, hpxNat]
      omega
    have hq : (UInt32.ofNat py).toInt32 ∈ span y radius := by
      rw [mem_span_iff hy hRadius, hpyNat]
      omega
    refine ⟨(UInt32.ofNat px, UInt32.ofNat py),
      ⟨_, hq, _, hp, ?_⟩, hpxNat, hpyNat⟩
    rw [if_pos]
    · exact List.mem_singleton_self _
    · rw [circleTest_iff hx hy hRadius hp hq, hpxNat, hpyNat]
      exact hIn

/- What the loops must leave in every framebuffer. -/
def DrawsCircle
    (d : Display)
    (x y radius color : UInt32) : Prop :=
  ∀ fb, ∃ enough fb',
    (∀ tests, enough ≤ tests →
      drawCircle d x y radius color tests fb = some fb') ∧
    Paints d color (InCircle x y radius) fb fb'

theorem drawCircle_paints
    (d : Display)
    (color : UInt32)
    (hx : x.toNat < 640)
    (hy : y.toNat < 640)
    (hRadius : radius.toNat < 2 ^ 14)
    (fb : FrameBuffer) :
    Paints d color
      (fun px py =>
        (radius.toNat ≤ x.toNat ∧ radius.toNat ≤ y.toNat) ∧
          InCircle x y radius px py)
      fb (setPixels d color (circleCalls x y radius) fb) := by
  refine (setPixels_paints d color _ fb).congr fun px py hOn => ?_
  have hSize := video_size d
  have hpx := hOn.width
  have hpy := hOn.height
  exact calls_circleCalls hx hy hRadius (by omega) (by omega)

/- A bound of the loops for a centre on the screen. -/
theorem circleBound_lt
    (hz : z.toNat < 640)
    (hRadius : radius.toNat < 2 ^ 14) :
    (z + radius).toNat + 1 < 2 ^ 32 := by
  rw [UInt32.toNat_add]
  omega

theorem centre_lt
    (hCentre : OnScreen d px py) :
    px < 640 ∧ py < 640 := by
  have hSize := video_size d
  have hWidth := hCentre.width
  have hHeight := hCentre.height
  omega

/- Its centre is missing if a circle is past these edges. -/
theorem DrawsCircle.inside
    (hDraws : DrawsCircle d x y radius color)
    (hCentre : OnScreen d x.toNat y.toNat)
    (hRadius : radius.toNat < 2 ^ 14) :
    radius.toNat ≤ x.toNat ∧ radius.toNat ≤ y.toNat := by
  rcases centre_lt hCentre with ⟨hx, hy⟩
  rcases hDraws (otherFrame d color) with
    ⟨enough, fb', hRuns, hPaints⟩
  have hRun := hRuns (enough + 2 ^ 32) (Nat.le_add_right _ _)
  rw [drawCircle_calls d color (circleBound_lt hx hRadius)
    (circleBound_lt hy hRadius) (Nat.le_add_left _ _)] at hRun
  rw [← Option.some.inj hRun] at hPaints
  have hLoops :=
    drawCircle_paints d color hx hy hRadius
      (otherFrame d color)
  have hMiddle : InCircle x y radius x.toNat y.toNat := by
    unfold InCircle
    rw [sub_self, sub_self]
    exact sq_nonneg _
  exact ((hPaints.region_iff hLoops (otherFrame_ne d color)
    hCentre).mp hMiddle).1

/-
  A circle around a pixel of the screen is complete exactly
  if it does not go past the top or the left edge.
-/
theorem drawCircle_complete_iff
    (d : Display)
    (x y radius color : UInt32)
    (hCentre : OnScreen d x.toNat y.toNat)
    (hRadius : radius.toNat < 2 ^ 14) :
    DrawsCircle d x y radius color ↔
      radius.toNat ≤ x.toNat ∧ radius.toNat ≤ y.toNat := by
  constructor
  · intro hDraws
    exact hDraws.inside hCentre hRadius
  · intro hInside fb
    rcases centre_lt hCentre with ⟨hx, hy⟩
    refine ⟨2 ^ 32, _, fun tests hTests =>
      drawCircle_calls d color (circleBound_lt hx hRadius)
        (circleBound_lt hy hRadius) hTests fb, ?_⟩
    refine (drawCircle_paints d color hx hy hRadius fb).congr
      fun px py _ => ?_
    exact and_iff_right hInside

theorem drawCircle_complete_iff_middle :
    DrawsCircle .pc 160 100 20 0x00FF00 ↔
      (20 : UInt32).toNat ≤ (160 : UInt32).toNat ∧
        (20 : UInt32).toNat ≤ (100 : UInt32).toNat :=
  drawCircle_complete_iff .pc 160 100 20 0x00FF00
    ⟨by decide, by decide⟩ (by decide)

/- A circle in the corner is not drawn at all. -/
theorem drawCircle_hides_corner :
    ¬ DrawsCircle .pc 5 5 10 0x00FF00 := by
  intro hDraws
  have hInside :=
    hDraws.inside ⟨by decide, by decide⟩ (by decide)
  exact absurd hInside.1 (by decide)

end Circles

end Graphics

end AsmOS
