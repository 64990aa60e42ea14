import Mathlib.Data.List.Basic
import Mathlib.Data.List.Induction
import Mathlib.Logic.Function.Basic

/-
  Pixels of the graphics layer (`set_pixel` in
  `src/graphics.c`), for both sizes of `video.h`.

  A cell of the framebuffer is a byte, with a palette index,
  on the PC, and a word, with a colour, on the PS2.

  Main declarations:
    * `Display`, `videoWidth`, `videoHeight`
    * `setPixel`, `setPixels`
    * `Paints`, `setPixels_paints`
-/

------------------------------------------------------------
-- Displays
------------------------------------------------------------

namespace AsmOS

namespace Graphics

inductive Display where
| pc
| ps2
deriving DecidableEq

def videoWidth : Display → UInt32
| .pc => 320
| .ps2 => 640

def videoHeight : Display → UInt32
| .pc => 200
| .ps2 => 480

/- `color_to_palette`. -/
def colorToPalette
    (rgb : UInt32) : UInt8 :=
  if rgb = 0x000000 then 0
  else if rgb = 0xFF0000 then 1
  else if rgb = 0x00FF00 then 2
  else if rgb = 0x0000FF then 3
  else if rgb = 0xFFFF00 then 4
  else if rgb = 0x00FFFF then 5
  else if rgb = 0xFF00FF then 6
  else if rgb = 0xFFFFFF then 7
  else
    let r := (rgb >>> 16) &&& 0xFF
    let g := (rgb >>> 8) &&& 0xFF
    let b := rgb &&& 0xFF
    let lum := (r + g + b) / 3
    (8 + (lum * 7) / 255).toUInt8

/- What a cell holds for a colour. -/
def cellValue
    (d : Display)
    (color : UInt32) : UInt32 :=
  match d with
  | .pc => (colorToPalette color).toUInt32
  | .ps2 => color

/- The cells from the framebuffer's address on. -/
abbrev FrameBuffer := Nat → UInt32

def setPixel
    (d : Display)
    (x y color : UInt32)
    (fb : FrameBuffer) : FrameBuffer :=
  if videoWidth d ≤ x ∨ videoHeight d ≤ y then fb
  else
    Function.update fb (y * videoWidth d + x).toNat
      (cellValue d color)

/- One call after the other, with the same colour. -/
def setPixels
    (d : Display)
    (color : UInt32)
    (calls : List (UInt32 × UInt32))
    (fb : FrameBuffer) : FrameBuffer :=
  calls.foldl (fun t c => setPixel d c.1 c.2 color t) fb

------------------------------------------------------------
-- Cells
------------------------------------------------------------

section Cells

variable {d : Display} {x y color : UInt32}
variable {fb : FrameBuffer} {px py : Nat}

/- The cell of a pixel. -/
def cellOf
    (d : Display)
    (px py : Nat) : Nat :=
  py * (videoWidth d).toNat + px

/- A pixel of the screen. -/
structure OnScreen
    (d : Display)
    (px py : Nat) : Prop where
  width : px < (videoWidth d).toNat
  height : py < (videoHeight d).toNat

theorem video_size
    (d : Display) :
    0 < (videoWidth d).toNat ∧ (videoWidth d).toNat ≤ 640 ∧
      0 < (videoHeight d).toNat ∧
      (videoHeight d).toNat ≤ 480 := by
  cases d <;> decide

/- The address of a pixel does not wrap. -/
theorem offset_toNat
    (hOn : OnScreen d x.toNat y.toNat) :
    (y * videoWidth d + x).toNat =
      cellOf d x.toNat y.toNat := by
  have hSize := video_size d
  have hx := hOn.width
  have hy := hOn.height
  have hRows :
      y.toNat * (videoWidth d).toNat ≤ 480 * 640 :=
    Nat.mul_le_mul (by omega) hSize.2.1
  unfold cellOf
  rw [UInt32.toNat_add, UInt32.toNat_mul,
    Nat.mod_eq_of_lt (by omega), Nat.mod_eq_of_lt (by omega)]

theorem cellOf_inj
    {qx qy : Nat}
    (hp : OnScreen d px py)
    (hq : OnScreen d qx qy)
    (hSame : cellOf d px py = cellOf d qx qy) :
    px = qx ∧ py = qy := by
  have hWidth := (video_size d).1
  have hColumn := congrArg (· % (videoWidth d).toNat) hSame
  have hRow := congrArg (· / (videoWidth d).toNat) hSame
  unfold cellOf at hColumn hRow
  simp only [Nat.mul_add_mod', Nat.mod_eq_of_lt hp.width,
    Nat.mod_eq_of_lt hq.width] at hColumn
  rw [Nat.add_comm, Nat.add_mul_div_right _ _ hWidth,
    Nat.div_eq_of_lt hp.width, Nat.add_comm (qy * _),
    Nat.add_mul_div_right _ _ hWidth,
    Nat.div_eq_of_lt hq.width] at hRow
  exact ⟨hColumn, by omega⟩

theorem cellOf_lt
    (hp : OnScreen d px py) :
    cellOf d px py <
      (videoHeight d).toNat * (videoWidth d).toNat := by
  unfold cellOf
  have hRow := Nat.mul_le_mul_right (videoWidth d).toNat
    (Nat.succ_le_of_lt hp.height)
  have hColumn := hp.width
  rw [Nat.succ_mul] at hRow
  omega

/- The call that is outside of the screen does nothing. -/
theorem setPixel_off
    (hOff : ¬ OnScreen d x.toNat y.toNat) :
    setPixel d x y color fb = fb := by
  refine if_pos ?_
  rw [UInt32.le_iff_toNat_le, UInt32.le_iff_toNat_le]
  by_contra hNot
  rw [not_or, Nat.not_le, Nat.not_le] at hNot
  exact hOff ⟨hNot.1, hNot.2⟩

theorem setPixel_on
    (hOn : OnScreen d x.toNat y.toNat) :
    setPixel d x y color fb =
      Function.update fb (cellOf d x.toNat y.toNat)
        (cellValue d color) := by
  have hTest :
      ¬ (videoWidth d ≤ x ∨ videoHeight d ≤ y) := by
    rw [UInt32.le_iff_toNat_le, UInt32.le_iff_toNat_le, not_or,
      Nat.not_le, Nat.not_le]
    exact ⟨hOn.width, hOn.height⟩
  unfold setPixel
  rw [if_neg hTest, offset_toNat hOn]

end Cells

------------------------------------------------------------
-- Painted Regions
------------------------------------------------------------

/- Just the pixels of the screen in a region are painted. -/
structure Paints
    (d : Display)
    (color : UInt32)
    (region : Nat → Nat → Prop)
    (fb fb' : FrameBuffer) : Prop where
  inside :
    ∀ px py, OnScreen d px py → region px py →
      fb' (cellOf d px py) = cellValue d color
  outside :
    ∀ px py, OnScreen d px py → ¬ region px py →
      fb' (cellOf d px py) = fb (cellOf d px py)
  beyond :
    ∀ i, (videoHeight d).toNat * (videoWidth d).toNat ≤ i →
      fb' i = fb i

section Painting

variable {d : Display} {color : UInt32}
variable {calls : List (UInt32 × UInt32)}

/- Regions that agree on the screen are painted alike. -/
theorem Paints.congr
    {region region' : Nat → Nat → Prop}
    {fb fb' : FrameBuffer}
    (hPaints : Paints d color region fb fb')
    (hSame :
      ∀ px py, OnScreen d px py →
        (region px py ↔ region' px py)) :
    Paints d color region' fb fb' :=
  ⟨fun px py hp hRegion =>
      hPaints.inside px py hp ((hSame px py hp).mpr hRegion),
    fun px py hp hRegion =>
      hPaints.outside px py hp
        (mt (hSame px py hp).mp hRegion),
    hPaints.beyond⟩

/- One call more paints one pixel more, if it is on screen. -/
theorem Paints.call
    {region : Nat → Nat → Prop}
    {fb fb' : FrameBuffer}
    (hPaints : Paints d color region fb fb')
    (x y : UInt32) :
    Paints d color
      (fun px py =>
        region px py ∨ (x.toNat = px ∧ y.toNat = py))
      fb (setPixel d x y color fb') := by
  by_cases hOn : OnScreen d x.toNat y.toNat
  · have hNe :
        ∀ px py, OnScreen d px py →
          ¬ (x.toNat = px ∧ y.toNat = py) →
            cellOf d px py ≠ cellOf d x.toNat y.toNat := by
      intro px py hp hOther hSame
      have hEq := cellOf_inj hp hOn hSame
      exact hOther ⟨hEq.1.symm, hEq.2.symm⟩
    rw [setPixel_on hOn]
    constructor
    · intro px py hp hRegion
      by_cases hHere : x.toNat = px ∧ y.toNat = py
      · rw [← hHere.1, ← hHere.2, Function.update_self]
      · rw [Function.update_of_ne (hNe px py hp hHere)]
        exact hPaints.inside px py hp
          (hRegion.resolve_right hHere)
    · intro px py hp hRegion
      rw [not_or] at hRegion
      rw [Function.update_of_ne (hNe px py hp hRegion.2)]
      exact hPaints.outside px py hp hRegion.1
    · intro i hi
      have hInside := cellOf_lt hOn
      rw [Function.update_of_ne (by omega)]
      exact hPaints.beyond i hi
  · rw [setPixel_off hOn]
    refine hPaints.congr fun px py hp => ?_
    refine (or_iff_left ?_).symm
    rintro ⟨rfl, rfl⟩
    exact hOn hp

/- Some call sets the pixel. -/
def Calls
    (calls : List (UInt32 × UInt32))
    (px py : Nat) : Prop :=
  ∃ c ∈ calls, c.1.toNat = px ∧ c.2.toNat = py

/- Calls paint the pixels that they name. -/
theorem setPixels_paints
    (d : Display)
    (color : UInt32)
    (calls : List (UInt32 × UInt32))
    (fb : FrameBuffer) :
    Paints d color (Calls calls) fb
      (setPixels d color calls fb) := by
  induction calls using List.reverseRecOn with
  | nil =>
      refine ⟨fun px py _ hCalls => ?_, fun _ _ _ _ => rfl,
        fun _ _ => rfl⟩
      rcases hCalls with ⟨c, hNone, _⟩
      cases hNone
  | append_singleton calls c ih =>
      have hSnoc :
          setPixels d color (calls ++ [c]) fb =
            setPixel d c.1 c.2 color
              (setPixels d color calls fb) := by
        unfold setPixels
        rw [List.foldl_append]
        rfl
      rw [hSnoc]
      refine (ih.call c.1 c.2).congr fun px py _ => ?_
      unfold Calls
      simp only [List.mem_append, List.mem_singleton,
        or_and_right, exists_or, exists_eq_left]

/- A frame of another colour shows which pixels are painted. -/
theorem Paints.region_iff
    {region region' : Nat → Nat → Prop}
    {fb fb' : FrameBuffer}
    (hPaints : Paints d color region fb fb')
    (hPaints' : Paints d color region' fb fb')
    (hOther : ∀ i, fb i ≠ cellValue d color)
    {px py : Nat}
    (hp : OnScreen d px py) :
    region px py ↔ region' px py := by
  constructor
  · intro hRegion
    by_contra hNot
    have hSame := hPaints.inside px py hp hRegion
    rw [hPaints'.outside px py hp hNot] at hSame
    exact hOther _ hSame
  · intro hRegion
    by_contra hNot
    have hSame := hPaints'.inside px py hp hRegion
    rw [hPaints.outside px py hp hNot] at hSame
    exact hOther _ hSame

/- A cell of the screen is the cell of a pixel. -/
theorem exists_cellOf
    {i : Nat}
    (hi : i < (videoHeight d).toNat * (videoWidth d).toNat) :
    ∃ px py, OnScreen d px py ∧ cellOf d px py = i := by
  have hWidth := (video_size d).1
  refine ⟨i % (videoWidth d).toNat, i / (videoWidth d).toNat,
    ⟨Nat.mod_lt _ hWidth, Nat.div_lt_of_lt_mul ?_⟩,
    Nat.div_add_mod' _ _⟩
  rw [Nat.mul_comm]
  exact hi

/- What is painted on a frame is what the screen shows. -/
theorem Paints.eq_iff
    {region region' : Nat → Nat → Prop}
    {fb fb' fb'' : FrameBuffer}
    (hPaints : Paints d color region fb fb')
    (hPaints' : Paints d color region' fb fb'')
    (hOther : ∀ i, fb i ≠ cellValue d color) :
    fb' = fb'' ↔
      ∀ px py, OnScreen d px py →
        (region px py ↔ region' px py) := by
  constructor
  · rintro rfl px py hp
    exact hPaints.region_iff hPaints' hOther hp
  · intro hSame
    funext i
    by_cases hi :
        i < (videoHeight d).toNat * (videoWidth d).toNat
    · rcases exists_cellOf hi with ⟨px, py, hp, rfl⟩
      by_cases hRegion : region px py
      · rw [hPaints.inside px py hp hRegion,
          hPaints'.inside px py hp ((hSame px py hp).mp hRegion)]
      · rw [hPaints.outside px py hp hRegion,
          hPaints'.outside px py hp
            (mt (hSame px py hp).mpr hRegion)]
    · rw [hPaints.beyond i (Nat.not_lt.mp hi),
        hPaints'.beyond i (Nat.not_lt.mp hi)]

/- A framebuffer in which no cell has a colour. -/
def otherFrame
    (d : Display)
    (color : UInt32) : FrameBuffer :=
  fun _ => cellValue d color + 1

theorem otherFrame_ne
    (d : Display)
    (color : UInt32)
    (i : Nat) :
    otherFrame d color i ≠ cellValue d color := by
  intro hSame
  have hZero : (1 : UInt32) = 0 := by
    have hCancel :
        cellValue d color + 1 = cellValue d color + 0 := by
      rw [UInt32.add_zero]
      exact hSame
    exact (UInt32.add_right_inj _).mp hCancel
  exact absurd hZero (by decide)

end Painting

end Graphics

end AsmOS
