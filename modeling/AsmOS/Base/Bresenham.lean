import Mathlib.Algebra.Order.Ring.Int
import Mathlib.Data.List.Range

/-
  Straight lines on a grid, by an error that is carried from
  column to column.

  A line goes `a` columns along and `b` rows up, `b` at most
  `a`.  Its rise after `k` columns is a quotient by `a`, and
  the error is what is left of `a` above the remainder.

  Main declarations:
    * `Bresenham.rise`, `Bresenham.error`
    * `Bresenham.rise_error_succ`
    * `Bresenham.path`, `Bresenham.Connects`
    * `Bresenham.path_connects`
-/

------------------------------------------------------------
-- Rises And Errors
------------------------------------------------------------

namespace Bresenham

/- The rise after `k` columns, before the division by `a`. -/
def scaled
    (a b k : Nat) : Nat :=
  k * b + (a - 1 - a / 2)

def rise
    (a b k : Nat) : Nat :=
  scaled a b k / a

def error
    (a b k : Nat) : Int :=
  a - 1 - (scaled a b k % a : Nat)

variable {a b : Nat}

theorem error_range
    (ha : 0 < a)
    (k : Nat) :
    0 ≤ error a b k ∧ error a b k < a := by
  have hRest := Nat.mod_lt (scaled a b k) ha
  unfold error
  omega

theorem rise_zero :
    rise a b 0 = 0 := by
  unfold rise scaled
  rw [Nat.zero_mul, Nat.zero_add]
  rcases Nat.eq_zero_or_pos a with rfl | ha
  · rfl
  · exact Nat.div_eq_of_lt (by omega)

theorem error_zero
    (ha : 0 < a) :
    error a b 0 = (a / 2 : Nat) := by
  unfold error scaled
  rw [Nat.zero_mul, Nat.zero_add, Nat.mod_eq_of_lt (by omega)]
  omega

/- The line ends in row `b`. -/
theorem rise_full
    (hb : b ≤ a) :
    rise a b a = b := by
  unfold rise scaled
  rcases Nat.eq_zero_or_pos a with rfl | ha
  · exact (Nat.div_zero _).trans (Nat.le_zero.mp hb).symm
  · rw [Nat.mul_add_div ha, Nat.div_eq_of_lt (by omega),
      Nat.add_zero]

/- The error decides if the next column is one row up. -/
theorem rise_error_succ
    (ha : 0 < a)
    (hb : b ≤ a)
    (k : Nat) :
    (error a b k - b < 0 ∧
        rise a b (k + 1) = rise a b k + 1 ∧
        error a b (k + 1) = error a b k - b + a) ∨
      (¬ error a b k - b < 0 ∧
        rise a b (k + 1) = rise a b k ∧
        error a b (k + 1) = error a b k - b) := by
  have hSplit := Nat.mod_add_div (scaled a b k) a
  have hRest := Nat.mod_lt (scaled a b k) ha
  have hNext : scaled a b (k + 1) = scaled a b k + b := by
    unfold scaled
    rw [Nat.succ_mul, Nat.add_right_comm]
  unfold rise error
  by_cases hUp : scaled a b k % a + b < a
  · have hBoth :=
      (Nat.div_mod_unique ha
        (a := scaled a b (k + 1)) (c := scaled a b k % a + b)
        (d := scaled a b k / a)).mpr ⟨by omega, hUp⟩
    rw [hBoth.1, hBoth.2]
    exact .inr ⟨by omega, rfl, by omega⟩
  · have hBoth :=
      (Nat.div_mod_unique ha
        (a := scaled a b (k + 1))
        (c := scaled a b k % a + b - a)
        (d := scaled a b k / a + 1)).mpr
          ⟨by rw [Nat.mul_succ]; omega, by omega⟩
    rw [hBoth.1, hBoth.2]
    exact .inl ⟨by omega, rfl, by omega⟩

/- A column is in the same row as the one before, or above. -/
theorem rise_succ
    (ha : 0 < a)
    (hb : b ≤ a)
    (k : Nat) :
    rise a b k ≤ rise a b (k + 1) ∧
      rise a b (k + 1) ≤ rise a b k + 1 := by
  rcases rise_error_succ ha hb k with
    ⟨_, hUp, _⟩ | ⟨_, hSame, _⟩
  · omega
  · omega

theorem rise_le
    (hb : b ≤ a)
    {k : Nat}
    (hk : k ≤ a) :
    rise a b k ≤ b := by
  calc
    rise a b k ≤ rise a b a := by
      unfold rise scaled
      exact Nat.div_le_div_right
        (Nat.add_le_add_right (Nat.mul_le_mul_right b hk) _)
    _ = b := rise_full hb

------------------------------------------------------------
-- Paths
------------------------------------------------------------

/- What a drawn line must be. -/
structure Connects
    (p q : Int × Int)
    (cells : List (Int × Int)) : Prop where
  length :
    cells.length =
      max (q.1 - p.1).natAbs (q.2 - p.2).natAbs + 1
  first : cells.head? = some p
  last : cells.getLast? = some q
  near :
    cells.IsChain fun c c' =>
      (c'.1 - c.1).natAbs ≤ 1 ∧ (c'.2 - c.2).natAbs ≤ 1
  columns :
    ∀ c ∈ cells, min p.1 q.1 ≤ c.1 ∧ c.1 ≤ max p.1 q.1
  rows :
    ∀ c ∈ cells, min p.2 q.2 ≤ c.2 ∧ c.2 ≤ max p.2 q.2

/- A line that is mirrored at the diagonal. -/
theorem Connects.swap
    {p q : Int × Int}
    {cells : List (Int × Int)}
    (hConnects : Connects p q cells) :
    Connects p.swap q.swap (cells.map Prod.swap) := by
  constructor
  · rw [List.length_map, hConnects.length, max_comm]
    rfl
  · rw [List.head?_map, hConnects.first]
    rfl
  · rw [List.getLast?_map, hConnects.last]
    rfl
  · rw [List.isChain_map]
    exact hConnects.near.imp fun c c' hNear => hNear.symm
  · intro c hMem
    rcases List.mem_map.mp hMem with ⟨c', hMem', rfl⟩
    exact hConnects.rows c' hMem'
  · intro c hMem
    rcases List.mem_map.mp hMem with ⟨c', hMem', rfl⟩
    exact hConnects.columns c' hMem'

/- The cell in column `j` of a line from `p`. -/
def cell
    (p : Int × Int)
    (su sv : Int)
    (a b j : Nat) : Int × Int :=
  (p.1 + su * j, p.2 + sv * rise a b j)

def path
    (p : Int × Int)
    (su sv : Int)
    (a b : Nat) : List (Int × Int) :=
  (List.range (a + 1)).map (cell p su sv a b)

/- A direction along an axis. -/
def UnitStep
    (s : Int) : Prop :=
  s = 1 ∨ s = -1

section Paths

variable {p : Int × Int} {su sv : Int}

theorem cell_zero :
    cell p su sv a b 0 = p := by
  unfold cell
  rw [rise_zero, Nat.cast_zero, mul_zero, mul_zero, add_zero,
    add_zero]

theorem cell_full
    (hb : b ≤ a) :
    cell p su sv a b a = (p.1 + su * a, p.2 + sv * b) := by
  unfold cell
  rw [rise_full hb]

theorem cell_columns
    (sv : Int)
    (b : Nat)
    (hu : UnitStep su)
    {j : Nat}
    (hj : j ≤ a) :
    min p.1 (p.1 + su * a) ≤ (cell p su sv a b j).1 ∧
      (cell p su sv a b j).1 ≤ max p.1 (p.1 + su * a) := by
  unfold cell
  rcases hu with rfl | rfl
  · omega
  · omega

theorem cell_rows
    (hb : b ≤ a)
    (hv : UnitStep sv)
    {j : Nat}
    (hj : j ≤ a) :
    min p.2 (p.2 + sv * b) ≤ (cell p su sv a b j).2 ∧
      (cell p su sv a b j).2 ≤ max p.2 (p.2 + sv * b) := by
  have hRise := rise_le hb hj
  unfold cell
  rcases hv with rfl | rfl
  · omega
  · omega

theorem cell_near
    (ha : 0 < a)
    (hb : b ≤ a)
    (hu : UnitStep su)
    (hv : UnitStep sv)
    (j : Nat) :
    ((cell p su sv a b (j + 1)).1 -
        (cell p su sv a b j).1).natAbs ≤ 1 ∧
      ((cell p su sv a b (j + 1)).2 -
        (cell p su sv a b j).2).natAbs ≤ 1 := by
  have hRise := rise_succ ha hb j
  unfold cell
  rcases hu with rfl | rfl <;> rcases hv with rfl | rfl <;>
    omega

theorem path_connects
    (hb : b ≤ a)
    (hu : UnitStep su)
    (hv : UnitStep sv) :
    Connects p (p.1 + su * a, p.2 + sv * b)
      (path p su sv a b) := by
  constructor
  · unfold path
    rw [List.length_map, List.length_range]
    rcases hu with rfl | rfl <;> rcases hv with rfl | rfl <;>
      omega
  · unfold path
    rw [List.range_succ_eq_map, List.map_cons, List.head?_cons,
      cell_zero]
  · unfold path
    rw [List.range_succ, List.map_append, List.map_singleton,
      List.getLast?_concat, cell_full hb]
  · unfold path
    rw [List.isChain_map, List.isChain_range_succ]
    intro j hj
    exact cell_near (Nat.zero_lt_of_lt hj) hb hu hv j
  · intro c hMem
    rcases List.mem_map.mp hMem with ⟨j, hj, rfl⟩
    exact cell_columns sv b hu
      (Nat.le_of_lt_succ (List.mem_range.mp hj))
  · intro c hMem
    rcases List.mem_map.mp hMem with ⟨j, hj, rfl⟩
    exact cell_rows hb hv
      (Nat.le_of_lt_succ (List.mem_range.mp hj))

end Paths

end Bresenham
