import Mathlib.Data.List.Basic

/-
  Values over an initial segment of the numbers, cut into
  blocks of one size, or into the rows of a rectangle.

  Main declarations:
    * `Blocks.block`, `Blocks.flatten_blocks`
    * `Blocks.map_range_mul`
    * `Blocks.evens`, `Blocks.evens_double`
-/

------------------------------------------------------------
-- Blocks
------------------------------------------------------------

namespace Blocks

variable {α : Type}

/- The `k`-th block of at most `c` of the first `total`. -/
def block
    (c total : Nat)
    (g : Nat → α)
    (k : Nat) : List α :=
  (List.range (min c (total - c * k))).map fun i =>
    g (c * k + i)

theorem block_length
    (c total : Nat)
    (g : Nat → α)
    (k : Nat) :
    (block c total g k).length = min c (total - c * k) := by
  rw [block, List.length_map, List.length_range]

/- Some blocks are all that lies in front of their end. -/
theorem flatten_blocks
    (c total : Nat)
    (g : Nat → α)
    (n : Nat) :
    ((List.range n).map (block c total g)).flatten =
      (List.range (min total (c * n))).map g := by
  induction n with
  | zero => rw [Nat.mul_zero, Nat.min_zero]; rfl
  | succ n ih =>
      have hEnd : c * (n + 1) = c * n + c := Nat.mul_succ c n
      rw [List.range_succ, List.map_append, List.flatten_append,
        ih, List.map_singleton, List.flatten_singleton, hEnd]
      by_cases hMore : c * n ≤ total
      · have hSum :
            min total (c * n + c) =
              c * n + min c (total - c * n) := by
          omega
        rw [hSum, Nat.min_eq_right hMore, List.range_add,
          List.map_append, List.map_map]
        rfl
      · have hNone : min c (total - c * n) = 0 := by
          omega
        have hSum : min total (c * n + c) = total := by
          omega
        rw [hSum, Nat.min_eq_left (by omega), block, hNone,
          List.range_zero, List.map_nil, List.append_nil]

/- Blocks that reach the end are everything. -/
theorem flatten_blocks_all
    {c total n : Nat}
    (hReach : total ≤ c * n)
    (g : Nat → α) :
    ((List.range n).map (block c total g)).flatten =
      (List.range total).map g := by
  rw [flatten_blocks, Nat.min_eq_left hReach]

------------------------------------------------------------
-- Rectangles
------------------------------------------------------------

/- A rectangle is its rows, one behind the other. -/
theorem map_range_mul
    (rows width : Nat)
    (g : Nat → α) :
    (List.range (width * rows)).map g =
      (List.range rows).flatMap fun row =>
        (List.range width).map fun i => g (width * row + i) := by
  rw [← flatten_blocks_all (Nat.le_refl (width * rows)),
    List.flatMap_def]
  congr 1
  refine List.map_congr_left fun row hRow => ?_
  have hInside : row + 1 ≤ rows := List.mem_range.mp hRow
  have hEnd := Nat.mul_le_mul_left width hInside
  have hSucc : width * (row + 1) = width * row + width :=
    Nat.mul_succ width row
  rw [block, Nat.min_eq_left (by omega)]

/- The even numbers below a bound. -/
def evens
    (n : Nat) : List Nat :=
  (List.range n).filter fun i => i % 2 = 0

theorem evens_double
    (n : Nat) :
    evens (2 * n) = (List.range n).map fun i => 2 * i := by
  induction n with
  | zero => rfl
  | succ n ih =>
      have hTwo : 2 * (n + 1) = 2 * n + 1 + 1 := by omega
      have hEven : 2 * n % 2 = 0 := Nat.mul_mod_right 2 n
      have hOdd : (2 * n + 1) % 2 ≠ 0 := by omega
      unfold evens at ih ⊢
      rw [hTwo, List.range_succ, List.range_succ,
        List.filter_append, List.filter_append, ih,
        List.filter_singleton, List.filter_singleton,
        List.range_succ, List.map_append]
      simp [hEven]

end Blocks
