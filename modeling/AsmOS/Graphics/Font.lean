import Mathlib.Data.List.Basic
import Mathlib.Data.List.GetD

/-
  The bitmap font (`src/font_8x8.c`): eight rows for each of
  128 characters, the most significant bit on the left.

  Main declarations:
    * `font8x8`, `glyph`, `glyphBit`
    * `Blank`, `glyph_eq_iff`
-/

------------------------------------------------------------
-- The Table
------------------------------------------------------------

namespace AsmOS

namespace Graphics

/- The rows of a character without ink. -/
def noInk : List UInt8 :=
  List.replicate 8 0

/- The characters from the space to the tilde. -/
def inkRows : List (List UInt8) :=
  [[0x00, 0x00, 0x00, 0x00, 0x00, 0x00, 0x00, 0x00],
    [0x18, 0x18, 0x18, 0x18, 0x18, 0x00, 0x18, 0x00],
    [0x36, 0x36, 0x36, 0x00, 0x00, 0x00, 0x00, 0x00],
    [0x36, 0x36, 0x7F, 0x36, 0x7F, 0x36, 0x36, 0x00],
    [0x0C, 0x3E, 0x03, 0x1E, 0x30, 0x1F, 0x0C, 0x00],
    [0x63, 0x33, 0x18, 0x0C, 0x66, 0x63, 0x00, 0x00],
    [0x1C, 0x36, 0x1C, 0x6E, 0x3B, 0x33, 0x6E, 0x00],
    [0x0C, 0x0C, 0x06, 0x00, 0x00, 0x00, 0x00, 0x00],
    [0x18, 0x0C, 0x06, 0x06, 0x06, 0x0C, 0x18, 0x00],
    [0x06, 0x0C, 0x18, 0x18, 0x18, 0x0C, 0x06, 0x00],
    [0x00, 0x66, 0x3C, 0xFF, 0x3C, 0x66, 0x00, 0x00],
    [0x00, 0x0C, 0x0C, 0x3F, 0x0C, 0x0C, 0x00, 0x00],
    [0x00, 0x00, 0x00, 0x00, 0x0C, 0x0C, 0x06, 0x00],
    [0x00, 0x00, 0x00, 0x3F, 0x00, 0x00, 0x00, 0x00],
    [0x00, 0x00, 0x00, 0x00, 0x00, 0x0C, 0x0C, 0x00],
    [0x60, 0x30, 0x18, 0x0C, 0x06, 0x03, 0x01, 0x00],
    [0x3E, 0x63, 0x73, 0x6B, 0x67, 0x63, 0x3E, 0x00],
    [0x0C, 0x1C, 0x0C, 0x0C, 0x0C, 0x0C, 0x3F, 0x00],
    [0x1E, 0x33, 0x30, 0x1C, 0x06, 0x33, 0x3F, 0x00],
    [0x1E, 0x33, 0x30, 0x1C, 0x30, 0x33, 0x1E, 0x00],
    [0x38, 0x3C, 0x36, 0x33, 0x7F, 0x30, 0x30, 0x00],
    [0x3F, 0x03, 0x1F, 0x30, 0x30, 0x33, 0x1E, 0x00],
    [0x1C, 0x06, 0x03, 0x1F, 0x33, 0x33, 0x1E, 0x00],
    [0x3F, 0x33, 0x30, 0x18, 0x0C, 0x0C, 0x0C, 0x00],
    [0x1E, 0x33, 0x33, 0x1E, 0x33, 0x33, 0x1E, 0x00],
    [0x1E, 0x33, 0x33, 0x3E, 0x30, 0x18, 0x0E, 0x00],
    [0x00, 0x0C, 0x0C, 0x00, 0x0C, 0x0C, 0x00, 0x00],
    [0x00, 0x0C, 0x0C, 0x00, 0x0C, 0x0C, 0x06, 0x00],
    [0x18, 0x0C, 0x06, 0x03, 0x06, 0x0C, 0x18, 0x00],
    [0x00, 0x00, 0x3F, 0x00, 0x3F, 0x00, 0x00, 0x00],
    [0x06, 0x0C, 0x18, 0x30, 0x18, 0x0C, 0x06, 0x00],
    [0x1E, 0x33, 0x30, 0x18, 0x0C, 0x00, 0x0C, 0x00],
    [0x3E, 0x63, 0x7B, 0x7B, 0x7B, 0x03, 0x1E, 0x00],
    [0x0C, 0x1E, 0x33, 0x33, 0x3F, 0x33, 0x33, 0x00],
    [0x3F, 0x66, 0x66, 0x3E, 0x66, 0x66, 0x3F, 0x00],
    [0x3C, 0x66, 0x03, 0x03, 0x03, 0x66, 0x3C, 0x00],
    [0x1F, 0x36, 0x66, 0x66, 0x66, 0x36, 0x1F, 0x00],
    [0x7F, 0x46, 0x16, 0x1E, 0x16, 0x46, 0x7F, 0x00],
    [0x7F, 0x46, 0x16, 0x1E, 0x16, 0x06, 0x0F, 0x00],
    [0x3C, 0x66, 0x03, 0x03, 0x73, 0x66, 0x7C, 0x00],
    [0x33, 0x33, 0x33, 0x3F, 0x33, 0x33, 0x33, 0x00],
    [0x1E, 0x0C, 0x0C, 0x0C, 0x0C, 0x0C, 0x1E, 0x00],
    [0x78, 0x30, 0x30, 0x30, 0x33, 0x33, 0x1E, 0x00],
    [0x67, 0x66, 0x36, 0x1E, 0x36, 0x66, 0x67, 0x00],
    [0x0F, 0x06, 0x06, 0x06, 0x46, 0x66, 0x7F, 0x00],
    [0x63, 0x77, 0x7F, 0x6B, 0x63, 0x63, 0x63, 0x00],
    [0x63, 0x67, 0x6F, 0x7B, 0x73, 0x63, 0x63, 0x00],
    [0x1C, 0x36, 0x63, 0x63, 0x63, 0x36, 0x1C, 0x00],
    [0x3F, 0x66, 0x66, 0x3E, 0x06, 0x06, 0x0F, 0x00],
    [0x1E, 0x33, 0x33, 0x33, 0x3B, 0x1E, 0x38, 0x00],
    [0x3F, 0x66, 0x66, 0x3E, 0x36, 0x66, 0x67, 0x00],
    [0x1E, 0x33, 0x07, 0x0E, 0x38, 0x33, 0x1E, 0x00],
    [0x3F, 0x2D, 0x0C, 0x0C, 0x0C, 0x0C, 0x1E, 0x00],
    [0x33, 0x33, 0x33, 0x33, 0x33, 0x33, 0x1E, 0x00],
    [0x33, 0x33, 0x33, 0x33, 0x33, 0x1E, 0x0C, 0x00],
    [0x63, 0x63, 0x63, 0x6B, 0x7F, 0x77, 0x63, 0x00],
    [0x63, 0x63, 0x36, 0x1C, 0x1C, 0x36, 0x63, 0x00],
    [0x33, 0x33, 0x33, 0x1E, 0x0C, 0x0C, 0x1E, 0x00],
    [0x7F, 0x63, 0x31, 0x18, 0x4C, 0x66, 0x7F, 0x00],
    [0x1E, 0x06, 0x06, 0x06, 0x06, 0x06, 0x1E, 0x00],
    [0x03, 0x06, 0x0C, 0x18, 0x30, 0x60, 0x40, 0x00],
    [0x1E, 0x18, 0x18, 0x18, 0x18, 0x18, 0x1E, 0x00],
    [0x08, 0x1C, 0x36, 0x63, 0x00, 0x00, 0x00, 0x00],
    [0x00, 0x00, 0x00, 0x00, 0x00, 0x00, 0x7F, 0x00],
    [0x0C, 0x0C, 0x18, 0x00, 0x00, 0x00, 0x00, 0x00],
    [0x00, 0x00, 0x1E, 0x30, 0x3E, 0x33, 0x6E, 0x00],
    [0x07, 0x06, 0x1E, 0x36, 0x66, 0x36, 0x1E, 0x00],
    [0x00, 0x00, 0x1E, 0x33, 0x03, 0x33, 0x1E, 0x00],
    [0x38, 0x30, 0x30, 0x3E, 0x33, 0x33, 0x6E, 0x00],
    [0x00, 0x00, 0x1E, 0x33, 0x3F, 0x03, 0x1E, 0x00],
    [0x1C, 0x36, 0x06, 0x0F, 0x06, 0x06, 0x0F, 0x00],
    [0x00, 0x00, 0x6E, 0x33, 0x33, 0x3E, 0x30, 0x1F],
    [0x07, 0x06, 0x36, 0x6E, 0x66, 0x66, 0x67, 0x00],
    [0x0C, 0x00, 0x0E, 0x0C, 0x0C, 0x0C, 0x1E, 0x00],
    [0x30, 0x00, 0x38, 0x30, 0x30, 0x33, 0x33, 0x1E],
    [0x07, 0x06, 0x66, 0x36, 0x1E, 0x36, 0x67, 0x00],
    [0x0E, 0x0C, 0x0C, 0x0C, 0x0C, 0x0C, 0x1E, 0x00],
    [0x00, 0x00, 0x37, 0x7F, 0x6B, 0x6B, 0x63, 0x00],
    [0x00, 0x00, 0x1F, 0x33, 0x33, 0x33, 0x33, 0x00],
    [0x00, 0x00, 0x1E, 0x33, 0x33, 0x33, 0x1E, 0x00],
    [0x00, 0x00, 0x1B, 0x36, 0x36, 0x1E, 0x06, 0x0F],
    [0x00, 0x00, 0x6E, 0x33, 0x33, 0x3E, 0x30, 0x78],
    [0x00, 0x00, 0x1B, 0x36, 0x36, 0x06, 0x0F, 0x00],
    [0x00, 0x00, 0x3E, 0x03, 0x1E, 0x30, 0x1F, 0x00],
    [0x08, 0x0C, 0x3E, 0x0C, 0x0C, 0x2C, 0x18, 0x00],
    [0x00, 0x00, 0x33, 0x33, 0x33, 0x33, 0x6E, 0x00],
    [0x00, 0x00, 0x33, 0x33, 0x33, 0x1E, 0x0C, 0x00],
    [0x00, 0x00, 0x63, 0x6B, 0x6B, 0x7F, 0x36, 0x00],
    [0x00, 0x00, 0x63, 0x36, 0x1C, 0x36, 0x63, 0x00],
    [0x00, 0x00, 0x33, 0x33, 0x33, 0x3E, 0x30, 0x1F],
    [0x00, 0x00, 0x3F, 0x19, 0x0C, 0x26, 0x3F, 0x00],
    [0x38, 0x0C, 0x0C, 0x07, 0x0C, 0x0C, 0x38, 0x00],
    [0x18, 0x18, 0x18, 0x18, 0x18, 0x18, 0x18, 0x00],
    [0x07, 0x0C, 0x0C, 0x38, 0x0C, 0x0C, 0x07, 0x00],
    [0x6E, 0x3B, 0x00, 0x00, 0x00, 0x00, 0x00, 0x00]]

/- `font_8x8`. -/
def font8x8 : List (List UInt8) :=
  List.replicate 32 noInk ++ inkRows ++ [noInk]

/- `(unsigned char)c & 0x7F`. -/
def fontIndex
    (c : UInt8) : Nat :=
  (c &&& 0x7F).toNat

def glyph
    (c : UInt8) : List UInt8 :=
  font8x8.getD (fontIndex c) []

/- `line & (0x80u >> px)`, with `line` the row `py`. -/
def glyphBit
    (c : UInt8)
    (px py : Nat) : Bool :=
  (glyph c).getD py 0 &&& (0x80 : UInt8) >>> UInt8.ofNat px ≠ 0

/- The character that a glyph shows, if there is ink. -/
def seen
    (c : UInt8) : Option Nat :=
  if 32 < fontIndex c ∧ fontIndex c < 127 then
    some (fontIndex c)
  else none

------------------------------------------------------------
-- Distinct Glyphs
------------------------------------------------------------

theorem fontIndex_lt
    (c : UInt8) :
    fontIndex c < 128 := by
  unfold fontIndex
  rw [UInt8.toNat_and]
  exact Nat.lt_of_le_of_lt Nat.and_le_right (by decide)

theorem font8x8_length :
    ∀ rows ∈ font8x8, rows.length = 8 := by
  decide +kernel

theorem inkRows_nodup :
    inkRows.Nodup := by
  decide +kernel

/- Before the space, and behind the tilde, there is no ink. -/
theorem font8x8_get
    {i : Nat}
    (hi : i < 128) :
    font8x8[i]? =
      if 32 < i ∧ i < 127 then inkRows[i - 32]?
      else some noInk := by
  have hInk : inkRows.length = 95 := rfl
  have hSpace : inkRows[0]? = some noInk := rfl
  unfold font8x8
  rw [List.append_assoc]
  by_cases hControl : i < 32
  · rw [if_neg (by omega), List.getElem?_append_left
      (by rw [List.length_replicate]; exact hControl),
      List.getElem?_replicate_of_lt hControl]
  · rw [List.getElem?_append_right
      (by rw [List.length_replicate]; omega),
      List.length_replicate]
    by_cases hLast : i < 127
    · rw [List.getElem?_append_left (by omega)]
      by_cases hBlank : i = 32
      · subst hBlank
        exact hSpace
      · rw [if_pos (by omega)]
    · have hEnd : i = 127 := by omega
      subst hEnd
      rfl

theorem glyph_eq
    (c : UInt8) :
    some (glyph c) =
      match seen c with
      | some i => inkRows[i - 32]?
      | none => some noInk := by
  have hLookup := font8x8_get (fontIndex_lt c)
  have hRows :
      font8x8[fontIndex c]? =
        some (font8x8.get ⟨fontIndex c, fontIndex_lt c⟩) :=
    List.getElem?_eq_getElem (fontIndex_lt c)
  have hGlyph : some (glyph c) = font8x8[fontIndex c]? := by
    unfold glyph
    rw [List.getD_eq_getElem?_getD, hRows]
    rfl
  rw [hGlyph, hLookup]
  unfold seen
  split_ifs <;> rfl

/- No two characters with ink have the same rows. -/
theorem glyph_eq_iff
    (c c' : UInt8) :
    glyph c = glyph c' ↔ seen c = seen c' := by
  have hSpace : inkRows[0]? = some noInk := rfl
  have hRange :
      ∀ b i, seen b = some i → 32 < i ∧ i - 32 < 95 := by
    intro b i hSeen
    unfold seen at hSeen
    split_ifs at hSeen with hInk
    have hIndex := Option.some.inj hSeen
    omega
  have hPlaces :
      ∀ i j, i < 95 → inkRows[i]? = inkRows[j]? → i = j :=
    fun i j hi hSame =>
      (List.getElem?_inj hi inkRows_nodup).mp hSame
  have hc := glyph_eq c
  have hc' := glyph_eq c'
  rw [← Option.some_inj, hc, hc']
  cases hSeen : seen c with
  | none =>
      cases hSeen' : seen c' with
      | none => exact iff_of_true rfl rfl
      | some j =>
          have hj := hRange c' j hSeen'
          refine iff_of_false (fun hSame => ?_) (by simp)
          have hPlace := hPlaces 0 (j - 32) (by omega)
            (hSpace.trans hSame)
          omega
  | some i =>
      have hi := hRange c i hSeen
      cases hSeen' : seen c' with
      | none =>
          refine iff_of_false (fun hSame => ?_) (by simp)
          have hPlace := hPlaces (i - 32) 0 hi.2
            (hSame.trans hSpace.symm)
          omega
      | some j =>
          have hj := hRange c' j hSeen'
          dsimp only
          constructor
          · intro hSame
            have hPlace := hPlaces (i - 32) (j - 32) hi.2 hSame
            exact congrArg some (by omega)
          · intro hSame
            rw [Option.some.inj hSame]

/- A row is made of its bits. -/
theorem row_eq_of_bits
    {a b : UInt8}
    (hBits :
      ∀ px < 8,
        decide (a &&& (0x80 : UInt8) >>> UInt8.ofNat px ≠ 0) =
          decide (b &&& (0x80 : UInt8) >>> UInt8.ofNat px ≠ 0)) :
    a = b := by
  have hRebuilt :
      ∀ n < 256,
        (List.range 8).foldl
          (fun v px =>
            2 * v +
              if decide (UInt8.ofNat n &&&
                (0x80 : UInt8) >>> UInt8.ofNat px ≠ 0) then 1
              else 0) 0 = n := by
    decide +kernel
  have hSum :
      ∀ c : UInt8,
        (List.range 8).foldl
          (fun v px =>
            2 * v +
              if decide (c &&&
                (0x80 : UInt8) >>> UInt8.ofNat px ≠ 0) then 1
              else 0) 0 = c.toNat := by
    intro c
    have hc := hRebuilt c.toNat c.toNat_lt
    rw [UInt8.ofNat_toNat] at hc
    exact hc
  rw [← UInt8.toNat_inj, ← hSum a, ← hSum b]
  refine List.foldl_ext _ _ _ fun v px hMem => ?_
  rw [hBits px (List.mem_range.mp hMem)]

/- Glyphs of the same pixels show the same character. -/
theorem glyphBit_eq_iff
    (c c' : UInt8) :
    (∀ px < 8, ∀ py < 8, glyphBit c px py = glyphBit c' px py) ↔
      seen c = seen c' := by
  rw [← glyph_eq_iff]
  constructor
  · intro hBits
    have hLength :
        ∀ b : UInt8, (glyph b).length = 8 := by
      intro b
      refine font8x8_length _ ?_
      unfold glyph
      rw [List.getD_eq_getElem _ _ (fontIndex_lt b)]
      exact List.getElem_mem _
    refine List.ext_getElem ((hLength c).trans (hLength c').symm)
      fun py hpy hpy' => ?_
    refine row_eq_of_bits fun px hpx => ?_
    have hBit := hBits px hpx py (hLength c ▸ hpy)
    unfold glyphBit at hBit
    rw [List.getD_eq_getElem _ _ hpy,
      List.getD_eq_getElem _ _ hpy'] at hBit
    exact hBit
  · intro hSame px _ py _
    unfold glyphBit
    rw [hSame]

/- Just the characters without ink have an empty glyph. -/
theorem seen_eq_none_iff
    (c : UInt8) :
    seen c = none ↔
      ∀ px < 8, ∀ py < 8, glyphBit c px py = false := by
  have hBlank :
      ∀ px < 8, ∀ py < 8, glyphBit 0 px py = false := by
    decide +kernel
  have hNone : seen 0 = none := rfl
  rw [← hNone, ← glyphBit_eq_iff]
  refine forall₂_congr fun px hpx => forall₂_congr fun py hpy => ?_
  rw [hBlank px hpx py hpy]

end Graphics

end AsmOS
