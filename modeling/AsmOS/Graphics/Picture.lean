import AsmOS.Base.CStrings
import AsmOS.Graphics.Shapes
import AsmOS.Graphics.Text

/-
  Pictures: what the drawing functions of `src/graphics.c`
  leave on the screen when they are called one after the
  other, as the games do for a frame.

  A frame that begins with `clear_graphics_screen` depends on
  its calls alone, and a pixel has the colour of the last
  call that covers it.

  Main declarations:
    * `DrawCall`, `draw`
    * `Covers`, `lastColor`, `Shows`
    * `draw_shows`
    * `covers_rectangle`, `lastColor_append_elsewhere`
-/

------------------------------------------------------------
-- Calls
------------------------------------------------------------

namespace AsmOS

namespace Graphics

open Loops

/- `clear_graphics_screen`, with at most `tests` tests. -/
def clearGraphicsScreen
    (d : Display)
    (tests : Nat)
    (fb : FrameBuffer) : Option FrameBuffer :=
  forLoop (fun y => decide (y < videoHeight d))
    (fun y => y + 1)
    (fun y fb =>
      forLoop (fun x => decide (x < videoWidth d))
        (fun x => x + 1)
        (fun x fb => some (setPixel d x y 0x000000 fb))
        tests 0 fb)
    tests 0 fb

/- A call of a drawing function. -/
inductive DrawCall where
| clear
| rectangle (x y width height color : UInt32)
| text (x y : UInt32) (str : List UInt8) (color : UInt32)
| number (x y n color : UInt32)

def DrawCall.run
    (d : Display)
    (tests : Nat) :
    DrawCall → FrameBuffer → Option FrameBuffer
| .clear, fb => clearGraphicsScreen d tests fb
| .rectangle x y width height color, fb =>
    drawRectangle d x y width height color tests fb
| .text x y str color, fb => some (drawText d x y str color fb)
| .number x y n color, fb => some (drawNumber d x y n color fb)

/- A signed argument, which becomes unsigned. -/
def signedArg
    (z : Int) : UInt32 :=
  (Int32.ofInt z).toUInt32

/- One call after the other. -/
def draw
    (d : Display)
    (tests : Nat)
    (calls : List DrawCall)
    (fb : FrameBuffer) : Option FrameBuffer :=
  calls.foldlM (fun fb c => c.run d tests fb) fb

------------------------------------------------------------
-- Pixels Of The Calls
------------------------------------------------------------

def DrawCall.color : DrawCall → UInt32
| .clear => 0x000000
| .rectangle _ _ _ _ color => color
| .text _ _ _ color => color
| .number _ _ _ color => color

/- The pixels that a call sets. -/
def DrawCall.pixels
    (d : Display) : DrawCall → List (UInt32 × UInt32)
| .clear => rectangleCalls 0 0 (videoWidth d) (videoHeight d)
| .rectangle x y width height _ => rectangleCalls x y width height
| .text x y str _ => textCalls x y str
| .number x y n _ => textCalls x y (intToString n)

theorem clearGraphicsScreen_eq
    (d : Display)
    {tests : Nat}
    (hTests : 2 ^ 32 ≤ tests)
    (fb : FrameBuffer) :
    clearGraphicsScreen d tests fb =
      some (setPixels d 0x000000
        (rectangleCalls 0 0 (videoWidth d) (videoHeight d)) fb) := by
  rw [← drawRectangle_calls d 0 0 _ _ _ hTests]
  unfold clearGraphicsScreen drawRectangle
  rw [UInt32.zero_add, UInt32.zero_add]

theorem DrawCall.run_eq
    (d : Display)
    {tests : Nat}
    (hTests : 2 ^ 32 ≤ tests)
    (c : DrawCall)
    (fb : FrameBuffer) :
    c.run d tests fb = some (setPixels d c.color (c.pixels d) fb) := by
  cases c with
  | clear => exact clearGraphicsScreen_eq d hTests fb
  | rectangle x y width height color =>
      exact drawRectangle_calls d x y width height color hTests fb
  | text x y str color =>
      exact congrArg some (drawText_eq d x y color str fb)
  | number x y n color =>
      exact congrArg some (drawText_eq d x y color _ fb)

theorem draw_eq
    (d : Display)
    {tests : Nat}
    (hTests : 2 ^ 32 ≤ tests)
    (calls : List DrawCall)
    (fb : FrameBuffer) :
    draw d tests calls fb =
      some (calls.foldl
        (fun fb c => setPixels d c.color (c.pixels d) fb) fb) := by
  have hRun :
      (fun fb (c : DrawCall) => c.run d tests fb) =
        fun fb c => some (setPixels d c.color (c.pixels d) fb) :=
    funext fun fb => funext fun c => c.run_eq d hTests fb
  unfold draw
  rw [hRun]
  exact List.foldlM_pure

------------------------------------------------------------
-- What Is Shown
------------------------------------------------------------

/- A call sets the pixel. -/
def Covers
    (d : Display)
    (c : DrawCall)
    (px py : Nat) : Prop :=
  Calls (c.pixels d) px py

instance
    (d : Display)
    (c : DrawCall)
    (px py : Nat) :
    Decidable (Covers d c px py) := by
  unfold Covers Calls
  infer_instance

/- The colour of the last call that sets the pixel. -/
def lastColor
    (d : Display)
    (calls : List DrawCall)
    (under : UInt32)
    (px py : Nat) : UInt32 :=
  calls.foldl
    (fun color c => if Covers d c px py then c.color else color)
    under

/- The screen shows the calls on a black ground. -/
def Shows
    (d : Display)
    (calls : List DrawCall)
    (fb : FrameBuffer) : Prop :=
  ∀ px py, OnScreen d px py →
    fb (cellOf d px py) =
      cellValue d (lastColor d calls 0x000000 px py)

section Shown

variable {d : Display} {calls : List DrawCall}

theorem foldl_shows
    (calls : List DrawCall)
    {fb : FrameBuffer}
    {under : UInt32}
    {px py : Nat}
    (hOn : OnScreen d px py)
    (hUnder : fb (cellOf d px py) = cellValue d under) :
    calls.foldl
        (fun fb c => setPixels d c.color (c.pixels d) fb) fb
        (cellOf d px py) =
      cellValue d (lastColor d calls under px py) := by
  induction calls generalizing fb under with
  | nil => exact hUnder
  | cons c calls ih =>
      have hPaints := setPixels_paints d c.color (c.pixels d) fb
      unfold lastColor
      rw [List.foldl_cons, List.foldl_cons]
      refine ih ?_
      by_cases hCovers : Covers d c px py
      · rw [if_pos hCovers]
        exact hPaints.inside px py hOn hCovers
      · rw [if_neg hCovers]
        exact (hPaints.outside px py hOn hCovers).trans hUnder

theorem foldl_beyond
    (calls : List DrawCall)
    (fb : FrameBuffer)
    {i : Nat}
    (hi : (videoHeight d).toNat * (videoWidth d).toNat ≤ i) :
    calls.foldl
        (fun fb c => setPixels d c.color (c.pixels d) fb) fb i =
      fb i := by
  induction calls generalizing fb with
  | nil => rfl
  | cons c calls ih =>
      rw [List.foldl_cons, ih]
      exact (setPixels_paints d c.color (c.pixels d) fb).beyond i hi

/- The whole screen is cleared. -/
theorem covers_clear
    {px py : Nat}
    (hOn : OnScreen d px py) :
    Covers d .clear px py := by
  refine calls_rectangleCalls.mpr ?_
  rw [UInt32.zero_add, UInt32.zero_add]
  exact ⟨⟨Nat.zero_le _, hOn.width⟩, Nat.zero_le _, hOn.height⟩

/-
  A frame that begins with a clear screen shows its calls,
  whatever the screen showed, and leaves the memory behind
  the screen alone.
-/
theorem draw_shows
    (d : Display)
    (calls : List DrawCall)
    (fb : FrameBuffer) :
    ∃ fb',
      (∀ tests, 2 ^ 32 ≤ tests →
        draw d tests (.clear :: calls) fb = some fb') ∧
      Shows d calls fb' ∧
      ∀ i, (videoHeight d).toNat * (videoWidth d).toNat ≤ i →
        fb' i = fb i := by
  refine ⟨_, fun tests hTests => draw_eq d hTests _ fb, ?_, ?_⟩
  · intro px py hOn
    rw [List.foldl_cons]
    refine foldl_shows calls hOn ?_
    exact (setPixels_paints d 0x000000 _ fb).inside px py hOn
      (covers_clear hOn)
  · intro i hi
    exact foldl_beyond (.clear :: calls) fb hi

end Shown

------------------------------------------------------------
-- Where The Calls Draw
------------------------------------------------------------

/- The pixels of a box whose corner is anywhere. -/
structure InBox
    (x y : Int)
    (width height : Nat)
    (px py : Nat) : Prop where
  left : x ≤ px
  right : px < x + width
  above : y ≤ py
  below : py < y + height

instance
    (x y : Int)
    (width height px py : Nat) :
    Decidable (InBox x y width height px py) :=
  decidable_of_iff
    ((x ≤ px ∧ px < x + width) ∧ y ≤ py ∧ py < y + height)
    ⟨fun h => ⟨h.1.1, h.1.2, h.2.1, h.2.2⟩,
      fun h => ⟨⟨h.left, h.right⟩, h.above, h.below⟩⟩

section Places

variable {d : Display} {px py : Nat}

/- A box with a negative corner is not drawn. -/
theorem covers_rectangle
    {x y : Int}
    {width height color : UInt32}
    (hx : x.natAbs < 2 ^ 20)
    (hy : y.natAbs < 2 ^ 20)
    (hWidth : width.toNat < 2 ^ 20)
    (hHeight : height.toNat < 2 ^ 20)
    (hpx : px < 2 ^ 20)
    (hpy : py < 2 ^ 20) :
    Covers d
        (.rectangle (signedArg x) (signedArg y) width height color)
        px py ↔
      (0 ≤ x ∧ 0 ≤ y) ∧ InBox x y width.toNat height.toNat px py := by
  have hValueX : (Int32.ofInt x).toInt = x :=
    SignedWords.toInt_ofInt ⟨by omega, by omega⟩
  have hValueY : (Int32.ofInt y).toInt = y :=
    SignedWords.toInt_ofInt ⟨by omega, by omega⟩
  refine calls_rectangleCalls.trans ?_
  unfold signedArg
  rw [counter_iff (by rw [hValueX]; exact hx) hWidth hpx,
    counter_iff (by rw [hValueY]; exact hy) hHeight hpy,
    hValueX, hValueY]
  constructor
  · rintro ⟨⟨hx0, hLeft, hRight⟩, hy0, hAbove, hBelow⟩
    exact ⟨⟨hx0, hy0⟩, hLeft, hRight, hAbove, hBelow⟩
  · rintro ⟨⟨hx0, hy0⟩, hLeft, hRight, hAbove, hBelow⟩
    exact ⟨⟨hx0, hLeft, hRight⟩, hy0, hAbove, hBelow⟩

/- A box at a place on the screen. -/
theorem covers_box
    {x y : Int}
    {width height : UInt32}
    (color : UInt32)
    (hx : 0 ≤ x ∧ x ≤ 640)
    (hy : 0 ≤ y ∧ y ≤ 480)
    (hWidth : width.toNat ≤ 640)
    (hHeight : height.toNat ≤ 480)
    (hOn : OnScreen d px py) :
    Covers d
        (.rectangle (signedArg x) (signedArg y) width height color)
        px py ↔
      InBox x y width.toNat height.toNat px py := by
  have hSize := video_size d
  have hpx := hOn.width
  have hpy := hOn.height
  rw [covers_rectangle (by omega) (by omega) (by omega) (by omega)
    (by omega) (by omega)]
  exact and_iff_right ⟨hx.1, hy.1⟩

/- A text stays in the eight rows from its own on. -/
theorem calls_textCalls_rows
    {x y : UInt32}
    {str : List UInt8}
    (hy : y.toNat + 8 ≤ 2 ^ 32)
    (hCalls : Calls (textCalls x y str) px py) :
    y.toNat ≤ py ∧ py < y.toNat + 8 := by
  rcases hCalls with ⟨p, hCall, _, rfl⟩
  rcases mem_textCallsFrom.mp hCall with ⟨k, c, _, hChar⟩
  rcases List.mem_map.mp hChar with ⟨q, hPixel, rfl⟩
  rcases mem_glyphPixels.mp hPixel with
    ⟨gx, _, gy, hgy, _, rfl⟩
  have hRow : (y + UInt32.ofNat gy).toNat = y.toNat + gy := by
    rw [UInt32.toNat_add, UInt32.toNat_ofNat']
    omega
  dsimp only
  omega

/- A call that writes in other rows than `py`. -/
def WritesElsewhere
    (py : Nat) : DrawCall → Prop
| .text _ y _ _ =>
    y.toNat + 8 ≤ 2 ^ 32 ∧ (py < y.toNat ∨ y.toNat + 8 ≤ py)
| .number _ y _ _ =>
    y.toNat + 8 ≤ 2 ^ 32 ∧ (py < y.toNat ∨ y.toNat + 8 ≤ py)
| _ => False

theorem not_covers_elsewhere
    {c : DrawCall}
    (hElsewhere : WritesElsewhere py c) :
    ¬ Covers d c px py := by
  intro hCovers
  cases c with
  | clear => exact hElsewhere
  | rectangle => exact hElsewhere
  | text x y str color =>
      have hRows := calls_textCalls_rows hElsewhere.1 hCovers
      have hApart := hElsewhere.2
      omega
  | number x y n color =>
      have hRows := calls_textCalls_rows hElsewhere.1 hCovers
      have hApart := hElsewhere.2
      omega

theorem lastColor_append
    (calls calls' : List DrawCall)
    (under : UInt32) :
    lastColor d (calls ++ calls') under px py =
      lastColor d calls' (lastColor d calls under px py) px py :=
  List.foldl_append

/- Calls of one colour. -/
theorem lastColor_uniform
    {calls : List DrawCall}
    {color : UInt32}
    (hColor : ∀ c ∈ calls, c.color = color)
    (under : UInt32) :
    lastColor d calls under px py =
      if ∃ c ∈ calls, Covers d c px py then color else under := by
  induction calls generalizing under with
  | nil => exact (if_neg (by simp)).symm
  | cons c calls ih =>
      rcases List.forall_mem_cons.mp hColor with ⟨hHere, hRest⟩
      have hStep :
          lastColor d (c :: calls) under px py =
            lastColor d calls
              (if Covers d c px py then c.color else under)
              px py := rfl
      rw [hStep, ih hRest, hHere]
      simp only [List.mem_cons, exists_eq_or_imp]
      by_cases hCovers : Covers d c px py
      · rw [if_pos hCovers, if_pos (Or.inl hCovers), ite_self]
      · rw [if_neg hCovers]
        exact if_congr (or_iff_right hCovers).symm rfl rfl

/- What is written elsewhere does not show. -/
theorem lastColor_append_elsewhere
    (calls : List DrawCall)
    {texts : List DrawCall}
    (hTexts : ∀ c ∈ texts, WritesElsewhere py c)
    (under : UInt32) :
    lastColor d (calls ++ texts) under px py =
      lastColor d calls under px py := by
  rw [lastColor_append]
  unfold lastColor
  generalize calls.foldl _ under = shown
  induction texts generalizing shown with
  | nil => rfl
  | cons c texts ih =>
      rcases List.forall_mem_cons.mp hTexts with ⟨hHere, hRest⟩
      rw [List.foldl_cons, if_neg (not_covers_elsewhere hHere)]
      exact ih hRest shown

end Places

end Graphics

end AsmOS
