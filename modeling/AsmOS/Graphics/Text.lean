import AsmOS.Base.Numerals
import AsmOS.Base.Reversal
import AsmOS.Graphics.Font
import AsmOS.Graphics.Pixels

/-
  Text on the screen (`draw_char`, `draw_text`,
  `int_to_string` and `draw_number` in `src/graphics.c`).

  A text is the bytes of a C string before its NUL.

  Main declarations:
    * `drawChar`, `drawText`, `drawNumber`
    * `intToString_eq`
    * `calls_textCalls`
    * `drawText_eq_iff`, `drawNumber_injective`
-/

------------------------------------------------------------
-- Characters
------------------------------------------------------------

namespace AsmOS

namespace Graphics

open Numerals

/- The pixels of a glyph, row after row. -/
def glyphPixels
    (c : UInt8) : List (UInt32 × UInt32) :=
  (List.range 8).flatMap fun py =>
    ((List.range 8).filter fun px => glyphBit c px py).map
      fun px => (UInt32.ofNat px, UInt32.ofNat py)

/- The calls of `set_pixel` that `draw_char` makes. -/
def charCalls
    (x y : UInt32)
    (c : UInt8) : List (UInt32 × UInt32) :=
  (glyphPixels c).map fun p => (x + p.1, y + p.2)

def drawChar
    (d : Display)
    (x y : UInt32)
    (c : UInt8)
    (color : UInt32)
    (fb : FrameBuffer) : FrameBuffer :=
  setPixels d color (charCalls x y c) fb

/- The loop of `draw_text` from the character `i` on. -/
def drawTextFrom
    (d : Display)
    (x y color : UInt32) :
    Nat → List UInt8 → FrameBuffer → FrameBuffer
| _, [], fb => fb
| i, c :: text, fb =>
    drawTextFrom d x y color (i + 1) text
      (drawChar d (x + UInt32.ofNat (i * 8)) y c color fb)

def drawText
    (d : Display)
    (x y : UInt32)
    (text : List UInt8)
    (color : UInt32)
    (fb : FrameBuffer) : FrameBuffer :=
  drawTextFrom d x y color 0 text fb

------------------------------------------------------------
-- Numbers
------------------------------------------------------------

/-
  `int_to_string`: what the buffer holds before the NUL.  The
  loop writes the last digit first.
-/
def intToString
    (num : UInt32) : List UInt8 :=
  if num = 0 then [0x30]
  else Reversal.swapEnds (digitsBackward 10 0x41 num.toNat)

def drawNumber
    (d : Display)
    (x y number color : UInt32)
    (fb : FrameBuffer) : FrameBuffer :=
  drawText d x y (intToString number) color fb

theorem intToString_eq
    (num : UInt32) :
    intToString num = decimal num.toNat := by
  unfold intToString decimal numeral
  rw [Reversal.swapEnds_eq_reverse]
  refine if_congr ?_ rfl rfl
  rw [← UInt32.toNat_inj]
  rfl

/- With its NUL it fits the 16 bytes of `draw_number`. -/
theorem intToString_length_le
    (num : UInt32) :
    (intToString num).length ≤ 10 := by
  have hSmall : num.toNat < 10 ^ 10 :=
    num.toNat_lt.trans (by decide)
  rw [intToString_eq]
  exact numeral_length_le (by decide) _ (by decide) hSmall

------------------------------------------------------------
-- Pixels Of A Text
------------------------------------------------------------

/- The calls of a text from the character `i` on. -/
def textCallsFrom
    (x y : UInt32) : Nat → List UInt8 → List (UInt32 × UInt32)
| _, [] => []
| i, c :: text =>
    charCalls (x + UInt32.ofNat (i * 8)) y c ++
      textCallsFrom x y (i + 1) text

def textCalls
    (x y : UInt32)
    (text : List UInt8) : List (UInt32 × UInt32) :=
  textCallsFrom x y 0 text

section Pixels

variable {d : Display} {x y color : UInt32}
variable {text : List UInt8}

theorem drawText_eq
    (d : Display)
    (x y color : UInt32)
    (text : List UInt8)
    (fb : FrameBuffer) :
    drawText d x y text color fb =
      setPixels d color (textCalls x y text) fb := by
  unfold drawText textCalls
  generalize 0 = i
  induction text generalizing i fb with
  | nil => rfl
  | cons c text ih =>
      rw [drawTextFrom, ih, textCallsFrom]
      exact List.foldl_append.symm

theorem mem_glyphPixels
    {c : UInt8}
    {p : UInt32 × UInt32} :
    p ∈ glyphPixels c ↔
      ∃ px < 8, ∃ py < 8, glyphBit c px py = true ∧
        p = (UInt32.ofNat px, UInt32.ofNat py) := by
  unfold glyphPixels
  simp only [List.mem_flatMap, List.mem_map, List.mem_filter,
    List.mem_range]
  constructor
  · rintro ⟨py, hpy, px, ⟨hpx, hBit⟩, rfl⟩
    exact ⟨px, hpx, py, hpy, hBit, rfl⟩
  · rintro ⟨px, hpx, py, hpy, hBit, rfl⟩
    exact ⟨py, hpy, px, ⟨hpx, hBit⟩, rfl⟩

theorem mem_textCallsFrom
    {i : Nat}
    {p : UInt32 × UInt32} :
    p ∈ textCallsFrom x y i text ↔
      ∃ k c, text[k]? = some c ∧
        p ∈ charCalls (x + UInt32.ofNat ((i + k) * 8)) y c := by
  induction text generalizing i with
  | nil =>
      refine iff_of_false List.not_mem_nil ?_
      rintro ⟨k, c, hNone, _⟩
      cases hNone
  | cons c text ih =>
      rw [textCallsFrom, List.mem_append, ih]
      constructor
      · rintro (hFirst | ⟨k, b, hGet, hLater⟩)
        · exact ⟨0, c, rfl, hFirst⟩
        · refine ⟨k + 1, b, hGet, ?_⟩
          rw [← Nat.add_assoc, Nat.add_right_comm]
          exact hLater
      · rintro ⟨k, b, hGet, hCall⟩
        cases k with
        | zero =>
            cases hGet
            exact .inl hCall
        | succ k =>
            refine .inr ⟨k, b, hGet, ?_⟩
            rw [Nat.add_right_comm, Nat.add_assoc]
            exact hCall

/- The pixel is on the glyph of some character. -/
def OnText
    (x y : Nat)
    (text : List UInt8)
    (px py : Nat) : Prop :=
  ∃ k c, text[k]? = some c ∧
    ∃ gx < 8, ∃ gy < 8, glyphBit c gx gy = true ∧
      px = x + 8 * k + gx ∧ py = y + gy

theorem calls_textCalls
    (hx : x.toNat + 8 * text.length < 2 ^ 32)
    (hy : y.toNat + 8 < 2 ^ 32)
    {px py : Nat} :
    Calls (textCalls x y text) px py ↔
      OnText x.toNat y.toNat text px py := by
  have hColumn :
      ∀ k gx, k < text.length → gx < 8 →
        (x + UInt32.ofNat ((0 + k) * 8) + UInt32.ofNat gx).toNat =
          x.toNat + 8 * k + gx := by
    intro k gx hk hgx
    rw [UInt32.toNat_add, UInt32.toNat_add, UInt32.toNat_ofNat',
      UInt32.toNat_ofNat']
    omega
  have hRow :
      ∀ gy, gy < 8 →
        (y + UInt32.ofNat gy).toNat = y.toNat + gy := by
    intro gy hgy
    rw [UInt32.toNat_add, UInt32.toNat_ofNat']
    omega
  unfold Calls textCalls OnText
  constructor
  · rintro ⟨p, hCall, rfl, rfl⟩
    rcases mem_textCallsFrom.mp hCall with ⟨k, c, hGet, hChar⟩
    have hk := (List.getElem?_eq_some_iff.mp hGet).1
    rcases List.mem_map.mp hChar with ⟨q, hPixel, rfl⟩
    rcases mem_glyphPixels.mp hPixel with
      ⟨gx, hgx, gy, hgy, hBit, rfl⟩
    exact ⟨k, c, hGet, gx, hgx, gy, hgy, hBit, hColumn k gx hk hgx,
      hRow gy hgy⟩
  · rintro ⟨k, c, hGet, gx, hgx, gy, hgy, hBit, rfl, rfl⟩
    have hk := (List.getElem?_eq_some_iff.mp hGet).1
    refine ⟨_, mem_textCallsFrom.mpr ⟨k, c, hGet, List.mem_map.mpr
      ⟨_, mem_glyphPixels.mpr ⟨gx, hgx, gy, hgy, hBit, rfl⟩,
        rfl⟩⟩, hColumn k gx hk hgx, hRow gy hgy⟩

end Pixels

------------------------------------------------------------
-- Reading A Text Off The Screen
------------------------------------------------------------

/- What is seen at a place of a text; blanks are not. -/
def seenAt
    (text : List UInt8)
    (k : Nat) : Option Nat :=
  text[k]?.bind seen

def inkAt
    (text : List UInt8)
    (k gx gy : Nat) : Bool :=
  text[k]?.any fun c => glyphBit c gx gy

section Reading

variable {x y : Nat} {text text' : List UInt8}

theorem onText_at
    {k gx gy : Nat}
    (hgx : gx < 8)
    (hgy : gy < 8) :
    OnText x y text (x + 8 * k + gx) (y + gy) ↔
      inkAt text k gx gy = true := by
  unfold OnText inkAt
  rw [Option.any_eq_true]
  constructor
  · rintro ⟨j, c, hGet, hx, hhx, hy, hhy, hBit, hColumn, hRow⟩
    have hPlace : j = k ∧ hx = gx ∧ hy = gy := by omega
    rcases hPlace with ⟨rfl, rfl, rfl⟩
    exact ⟨c, hGet, hBit⟩
  · rintro ⟨c, hGet, hBit⟩
    exact ⟨k, c, hGet, gx, hgx, gy, hgy, hBit, rfl, rfl⟩

theorem inkAt_eq_iff
    (text text' : List UInt8)
    (k : Nat) :
    (∀ gx < 8, ∀ gy < 8,
        inkAt text k gx gy = inkAt text' k gx gy) ↔
      seenAt text k = seenAt text' k := by
  unfold inkAt seenAt
  cases text[k]? with
  | none =>
      cases text'[k]? with
      | none => exact iff_of_true (fun _ _ _ _ => rfl) rfl
      | some c =>
          refine Iff.trans ?_ (seen_eq_none_iff c).symm |>.trans
            eq_comm
          exact forall₂_congr fun gx _ => forall₂_congr fun gy _ =>
            eq_comm
  | some c =>
      cases text'[k]? with
      | none => exact (seen_eq_none_iff c).symm
      | some c' => exact glyphBit_eq_iff c c'

/- The same pixels are the same text, but for blanks. -/
theorem onText_same_iff :
    (∀ px py, OnText x y text px py ↔ OnText x y text' px py) ↔
      ∀ k, seenAt text k = seenAt text' k := by
  constructor
  · intro hSame k
    refine (inkAt_eq_iff text text' k).mp fun gx hgx gy hgy => ?_
    rw [Bool.eq_iff_iff, ← onText_at hgx hgy,
      ← onText_at hgx hgy]
    exact hSame _ _
  · intro hSeen
    have hHalf :
        ∀ {a b : List UInt8} {px py : Nat},
          (∀ k, seenAt a k = seenAt b k) →
            OnText x y a px py → OnText x y b px py := by
      intro a b px py hSeen hOn
      rcases hOn with ⟨k, c, hGet, gx, hgx, gy, hgy, hBit, rfl, rfl⟩
      refine (onText_at hgx hgy).mpr ?_
      rw [← (inkAt_eq_iff a b k).mpr (hSeen k) gx hgx gy hgy]
      exact Option.any_eq_true _ _ |>.mpr ⟨c, hGet, hBit⟩
    exact fun px py =>
      ⟨hHalf hSeen, hHalf fun k => (hSeen k).symm⟩

end Reading

/- The whole text is on the screen. -/
structure TextFits
    (d : Display)
    (x y : UInt32)
    (text : List UInt8) : Prop where
  wide : x.toNat + 8 * text.length ≤ (videoWidth d).toNat
  high : y.toNat + 8 ≤ (videoHeight d).toNat

section Screens

variable {d : Display} {x y color : UInt32}
variable {text text' : List UInt8}

theorem TextFits.onScreen
    {px py : Nat}
    (hFits : TextFits d x y text)
    (hOn : OnText x.toNat y.toNat text px py) :
    OnScreen d px py := by
  rcases hOn with ⟨k, c, hGet, gx, hgx, gy, hgy, _, rfl, rfl⟩
  have hk := (List.getElem?_eq_some_iff.mp hGet).1
  have hWide := hFits.wide
  have hHigh := hFits.high
  exact ⟨by omega, by omega⟩

theorem drawText_paints
    (color : UInt32)
    (hFits : TextFits d x y text)
    (fb : FrameBuffer) :
    Paints d color (OnText x.toNat y.toNat text) fb
      (drawText d x y text color fb) := by
  have hSize := video_size d
  have hWide := hFits.wide
  have hHigh := hFits.high
  rw [drawText_eq]
  exact (setPixels_paints d color _ fb).congr fun px py _ =>
    calls_textCalls (by omega) (by omega)

theorem drawText_eq_iff
    (hFits : TextFits d x y text)
    (hFits' : TextFits d x y text')
    {fb : FrameBuffer}
    (hOther : ∀ i, fb i ≠ cellValue d color) :
    drawText d x y text color fb =
        drawText d x y text' color fb ↔
      ∀ k, seenAt text k = seenAt text' k := by
  rw [(drawText_paints color hFits fb).eq_iff
    (drawText_paints color hFits' fb) hOther, ← onText_same_iff]
  constructor
  · intro hSame px py
    constructor
    · intro hOn
      exact (hSame px py (hFits.onScreen hOn)).mp hOn
    · intro hOn
      exact (hSame px py (hFits'.onScreen hOn)).mpr hOn
  · intro hSame px py _
    exact hSame px py

/- A digit is seen as it is. -/
theorem seen_of_isDigit
    {c : UInt8}
    (hDigit : IsDigit c) :
    seen c = some c.toNat := by
  have hAll :
      ∀ n < 256, IsDigit (UInt8.ofNat n) →
        seen (UInt8.ofNat n) = some n := by
    decide +kernel
  have hSeen := hAll c.toNat c.toNat_lt
  rw [UInt8.ofNat_toNat] at hSeen
  exact hSeen hDigit

/- Texts of digits that are seen alike are the same. -/
theorem eq_of_seenAt
    (hDigits : ∀ c ∈ text, IsDigit c)
    (hDigits' : ∀ c ∈ text', IsDigit c)
    (hSeen : ∀ k, seenAt text k = seenAt text' k) :
    text = text' := by
  refine List.ext_getElem? fun k => ?_
  have hk := hSeen k
  unfold seenAt at hk
  cases hGet : text[k]? with
  | none =>
      cases hGet' : text'[k]? with
      | none => rfl
      | some c' =>
          rw [hGet, hGet', Option.bind_some, seen_of_isDigit
            (hDigits' c' (List.mem_of_getElem? hGet'))] at hk
          cases hk
  | some c =>
      have hc := seen_of_isDigit
        (hDigits c (List.mem_of_getElem? hGet))
      cases hGet' : text'[k]? with
      | none =>
          rw [hGet, hGet', Option.bind_some, hc] at hk
          cases hk
      | some c' =>
          rw [hGet, hGet', Option.bind_some, Option.bind_some, hc,
            seen_of_isDigit
              (hDigits' c' (List.mem_of_getElem? hGet'))] at hk
          rw [UInt8.toNat_inj.mp (Option.some.inj hk)]

/-
  A number can be read off the screen: no two numbers give
  the same picture where ten characters fit.
-/
theorem drawNumber_injective
    (d : Display)
    (x y color : UInt32)
    (hWide : x.toNat + 80 ≤ (videoWidth d).toNat)
    (hHigh : y.toNat + 8 ≤ (videoHeight d).toNat)
    (fb : FrameBuffer)
    (hOther : ∀ i, fb i ≠ cellValue d color)
    (n m : UInt32)
    (hSame :
      drawNumber d x y n color fb = drawNumber d x y m color fb) :
    n = m := by
  have hFits :
      ∀ k : UInt32, TextFits d x y (intToString k) := by
    intro k
    have hLength := intToString_length_le k
    exact ⟨by omega, hHigh⟩
  have hDigits :
      ∀ k : UInt32, ∀ c ∈ intToString k, IsDigit c := by
    intro k c hMem
    rw [intToString_eq] at hMem
    exact decimal_isDigit hMem
  have hSeen :=
    (drawText_eq_iff (hFits n) (hFits m) hOther).mp hSame
  have hText := eq_of_seenAt (hDigits n) (hDigits m) hSeen
  rw [intToString_eq, intToString_eq] at hText
  have hValue := congrArg (valueOf 10) hText
  rw [valueOf_decimal, valueOf_decimal] at hValue
  exact UInt32.toNat_inj.mp hValue

/- The score of the games, and a score of another digit. -/
theorem drawNumber_injective_score :
    drawNumber .pc 95 5 7 0xFFFFFF (otherFrame .pc 0xFFFFFF) ≠
      drawNumber .pc 95 5 70 0xFFFFFF
        (otherFrame .pc 0xFFFFFF) := by
  intro hSame
  have hEq :=
    drawNumber_injective .pc 95 5 0xFFFFFF (by decide) (by decide)
      (otherFrame .pc 0xFFFFFF) (otherFrame_ne .pc 0xFFFFFF) 7 70
      hSame
  exact absurd hEq (by decide)

end Screens

end Graphics

end AsmOS
