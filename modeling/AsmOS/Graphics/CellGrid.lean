import AsmOS.Graphics.Picture

/-
  Pictures of a grid: boxes of one size, a cell each.

  The boxes of two cells have no pixel in common, so a pixel
  of a cell has the colour that the cell was given last.

  Main declarations:
    * `CellGrid`, `CellGrid.box`, `InCell`
    * `InCell.unique`
    * `lastCellColor`, `lastColor_boxes`
-/

------------------------------------------------------------
-- Grids
------------------------------------------------------------

namespace AsmOS

namespace Graphics

/- The place of the first box, the distance of two, and the
   size of each. -/
structure CellGrid where
  left : Nat
  top : Nat
  pitch : Nat
  size : UInt32
  size_le : size.toNat ≤ pitch

/- A box in the colour of its cell. -/
def CellGrid.box
    (g : CellGrid)
    (paint : (Int × Int) × UInt32) : DrawCall :=
  .rectangle (signedArg (g.left + paint.1.1 * g.pitch))
    (signedArg (g.top + paint.1.2 * g.pitch)) g.size g.size
    paint.2

/- The pixels of the box of a cell. -/
def InCell
    (g : CellGrid)
    (cell : Int × Int)
    (px py : Nat) : Prop :=
  InBox (g.left + cell.1 * g.pitch) (g.top + cell.2 * g.pitch)
    g.size.toNat g.size.toNat px py

/- The box of the cell is drawn where it should be. -/
structure CellGrid.Fits
    (g : CellGrid)
    (cell : Int × Int) : Prop where
  column : 0 ≤ cell.1
  row : 0 ≤ cell.2
  right : g.left + cell.1 * g.pitch ≤ 640
  bottom : g.top + cell.2 * g.pitch ≤ 480

/- The colour that a cell was given last. -/
def lastCellColor
    (paints : List ((Int × Int) × UInt32))
    (under : UInt32)
    (cell : Int × Int) : UInt32 :=
  paints.foldl
    (fun color paint => if paint.1 = cell then paint.2 else color)
    under

section Cells

variable {d : Display} {g : CellGrid}

variable {cell cell' : Int × Int}

variable {px py : Nat}

/- A pixel is in one box of a row at most. -/
theorem column_unique
    {start pitch size a b p : Int}
    (hSize : size ≤ pitch)
    (hFirst : start + a * pitch ≤ p ∧ p < start + a * pitch + size)
    (hSecond : start + b * pitch ≤ p ∧ p < start + b * pitch + size) :
    a = b := by
  have hPitch : 0 < pitch := by omega
  by_contra hNe
  rcases lt_or_gt_of_ne hNe with hLess | hMore
  · have hStep := Int.mul_le_mul_of_nonneg_right
      (Int.add_one_le_of_lt hLess) hPitch.le
    rw [Int.add_mul, Int.one_mul] at hStep
    omega
  · have hStep := Int.mul_le_mul_of_nonneg_right
      (Int.add_one_le_of_lt hMore) hPitch.le
    rw [Int.add_mul, Int.one_mul] at hStep
    omega

theorem InCell.unique
    (hHere : InCell g cell px py)
    (hThere : InCell g cell' px py) :
    cell = cell' := by
  have hSize : (g.size.toNat : Int) ≤ g.pitch := by
    exact_mod_cast g.size_le
  exact Prod.ext
    (column_unique hSize ⟨hHere.left, hHere.right⟩
      ⟨hThere.left, hThere.right⟩)
    (column_unique hSize ⟨hHere.above, hHere.below⟩
      ⟨hThere.above, hThere.below⟩)

/- A box is drawn on the pixels of its cell. -/
theorem covers_cell
    {paint : (Int × Int) × UInt32}
    (hSize : g.size.toNat ≤ 480)
    (hFits : g.Fits paint.1)
    (hOn : OnScreen d px py) :
    Covers d (g.box paint) px py ↔ InCell g paint.1 px py := by
  have hColumn :=
    Int.mul_nonneg hFits.column (Int.natCast_nonneg g.pitch)
  have hRow :=
    Int.mul_nonneg hFits.row (Int.natCast_nonneg g.pitch)
  have hRight := hFits.right
  have hBottom := hFits.bottom
  exact covers_box paint.2 ⟨by omega, hRight⟩ ⟨by omega, hBottom⟩
    (by omega) hSize hOn

/- A pixel of a cell shows the last colour of the cell. -/
theorem lastColor_boxes
    {paints : List ((Int × Int) × UInt32)}
    (hSize : g.size.toNat ≤ 480)
    (hFits : ∀ paint ∈ paints, g.Fits paint.1)
    (hOn : OnScreen d px py)
    (hHere : InCell g cell px py)
    (under : UInt32) :
    lastColor d (paints.map g.box) under px py =
      lastCellColor paints under cell := by
  unfold lastColor lastCellColor
  rw [List.foldl_map]
  induction paints generalizing under with
  | nil => rfl
  | cons paint paints ih =>
      rw [List.forall_mem_cons] at hFits
      have hCovers :
          Covers d (g.box paint) px py ↔ paint.1 = cell := by
        rw [covers_cell hSize hFits.1 hOn]
        constructor
        · exact fun hThere => hThere.unique hHere
        · exact fun hSame => hSame ▸ hHere
      rw [List.foldl_cons, List.foldl_cons, ih hFits.2,
        if_congr hCovers rfl rfl]
      rfl

end Cells

------------------------------------------------------------
-- Colours Of Cells
------------------------------------------------------------

section Colors

variable {paints : List ((Int × Int) × UInt32)}

variable {under color : UInt32} {cell : Int × Int}

theorem lastCellColor_append
    (paints paints' : List ((Int × Int) × UInt32))
    (under : UInt32)
    (cell : Int × Int) :
    lastCellColor (paints ++ paints') under cell =
      lastCellColor paints' (lastCellColor paints under cell)
        cell :=
  List.foldl_append

/- A cell that is not painted keeps its colour. -/
theorem lastCellColor_elsewhere
    (hNone : ∀ paint ∈ paints, paint.1 ≠ cell) :
    lastCellColor paints under cell = under := by
  unfold lastCellColor
  induction paints generalizing under with
  | nil => rfl
  | cons paint paints ih =>
      rw [List.forall_mem_cons] at hNone
      rw [List.foldl_cons, if_neg hNone.1]
      exact ih hNone.2

/- A cell that is only painted in one colour gets it. -/
theorem lastCellColor_uniform
    (hSome : ∃ paint ∈ paints, paint.1 = cell)
    (hColor : ∀ paint ∈ paints, paint.1 = cell → paint.2 = color) :
    lastCellColor paints under cell = color := by
  unfold lastCellColor
  induction paints using List.reverseRecOn with
  | nil =>
      rcases hSome with ⟨_, hMem, _⟩
      cases hMem
  | append_singleton paints paint ih =>
      rw [List.foldl_append, List.foldl_cons, List.foldl_nil]
      by_cases hLast : paint.1 = cell
      · rw [if_pos hLast]
        exact hColor paint (by simp) hLast
      · rw [if_neg hLast]
        refine ih ?_ fun other hMem =>
          hColor other (List.mem_append_left _ hMem)
        rcases hSome with ⟨other, hMem, hSame⟩
        rcases List.mem_append.mp hMem with hOld | hNew
        · exact ⟨other, hOld, hSame⟩
        · rw [List.mem_singleton.mp hNew] at hSame
          exact absurd hSame hLast

end Colors

end Graphics

end AsmOS
