import AsmOS.Base.Bresenham
import AsmOS.Base.SignedWords
import AsmOS.Graphics.Pixels

/-
  Lines (`draw_line` in `src/graphics.c`).

  Both branches of the source are one loop, with the
  coordinates exchanged.  Its test is on the coordinate that
  moves at every step; the other arrives with it.

  Main declarations:
    * `lineLoop`, `lineCalls`, `drawLine`
    * `lineLoop_path`
    * `drawLine_connects`
-/

------------------------------------------------------------
-- Lines
------------------------------------------------------------

namespace AsmOS

namespace Graphics

open Bresenham

/-
  One of the loops: the calls of `set_pixel` that it makes,
  in order.  `u` moves by `su` at every step until it is
  `goal`, `v` by `sv` when the error is below zero.
-/
def lineLoop
    (pixel : Int32 → Int32 → UInt32 × UInt32)
    (goal su sv au av : Int32) :
    Nat → Int32 → Int32 → Int32 →
      Option (List (UInt32 × UInt32))
| 0, _, _, _ => none
| tests + 1, u, v, err =>
    if u = goal then some [pixel u v]
    else
      let err := err - av
      if err < 0 then
        (lineLoop pixel goal su sv au av tests (u + su) (v + sv)
          (err + au)).map fun calls => pixel u v :: calls
      else
        (lineLoop pixel goal su sv au av tests (u + su) v
          err).map fun calls => pixel u v :: calls

/- The calls that `draw_line` makes. -/
def lineCalls
    (x1 y1 x2 y2 : UInt32)
    (tests : Nat) : Option (List (UInt32 × UInt32)) :=
  let dx := (x2 - x1).toInt32
  let dy := (y2 - y1).toInt32
  let ax := if dx < 0 then -dx else dx
  let ay := if dy < 0 then -dy else dy
  let sx : Int32 := if dx < 0 then -1 else 1
  let sy : Int32 := if dy < 0 then -1 else 1
  if ay < ax then
    lineLoop (fun x y => (x.toUInt32, y.toUInt32)) x2.toInt32
      sx sy ax ay tests x1.toInt32 y1.toInt32 (ax / 2)
  else
    lineLoop (fun y x => (x.toUInt32, y.toUInt32)) y2.toInt32
      sy sx ay ax tests y1.toInt32 x1.toInt32 (ay / 2)

/- `draw_line`, with `tests` tests of its loop at most. -/
def drawLine
    (d : Display)
    (x1 y1 x2 y2 color : UInt32)
    (tests : Nat)
    (fb : FrameBuffer) : Option FrameBuffer :=
  (lineCalls x1 y1 x2 y2 tests).map fun calls =>
    setPixels d color calls fb

------------------------------------------------------------
-- Loops
------------------------------------------------------------

section LineLoops

variable {p : Int × Int} {su sv : Int} {a b : Nat}

/- Coordinates of a line between small ones. -/
structure SmallLine
    (p : Int × Int)
    (su sv : Int)
    (a b : Nat) : Prop where
  steep : b ≤ a
  short : a < 2 ^ 29
  unit : UnitStep su
  unit' : UnitStep sv
  start : 0 ≤ p.1 ∧ p.1 < 2 ^ 29
  goal : 0 ≤ p.1 + su * a ∧ p.1 + su * a < 2 ^ 29

/- The test of the loop holds in the last column. -/
theorem SmallLine.atGoal_iff
    (hLine : SmallLine p su sv a b)
    {k : Nat}
    (hk : k ≤ a) :
    Int32.ofInt (cell p su sv a b k).1 =
        Int32.ofInt (p.1 + su * a) ↔
      k = a := by
  have hStart := hLine.start
  have hGoal := hLine.goal
  have hColumn :=
    cell_columns (p := p) sv b hLine.unit hk
  rw [SignedWords.ofInt_inj ⟨by omega, by omega⟩
    ⟨by omega, by omega⟩]
  unfold cell
  rcases hLine.unit with rfl | rfl
  · omega
  · omega

/- The loop from column `k` on, `n` columns from its end. -/
theorem lineLoop_from
    (hLine : SmallLine p su sv a b)
    (pixel : Int32 → Int32 → UInt32 × UInt32)
    {n k tests : Nat}
    (hEnd : k + n = a)
    (hTests : n < tests) :
    lineLoop pixel (Int32.ofInt (p.1 + su * a))
        (Int32.ofInt su) (Int32.ofInt sv) (Int32.ofInt a)
        (Int32.ofInt b) tests
        (Int32.ofInt (cell p su sv a b k).1)
        (Int32.ofInt (cell p su sv a b k).2)
        (Int32.ofInt (error a b k)) =
      some ((List.range' k (n + 1)).map fun j =>
        pixel (Int32.ofInt (cell p su sv a b j).1)
          (Int32.ofInt (cell p su sv a b j).2)) := by
  have hShort := hLine.short
  have hSteep := hLine.steep
  induction n generalizing k tests with
  | zero =>
      cases tests with
      | zero => exact absurd hTests (Nat.lt_irrefl 0)
      | succ tests =>
          have hHere := (hLine.atGoal_iff (k := k) (by omega)).mpr hEnd
          rw [lineLoop, if_pos hHere]
          rfl
  | succ n ih =>
      cases tests with
      | zero => exact absurd hTests (Nat.not_lt_zero _)
      | succ tests =>
          have hBefore :=
            mt (hLine.atGoal_iff (k := k) (by omega)).mp
              (by omega)
          have hError := error_range (a := a) (b := b) (by omega) k
          have hTest :
              Int32.ofInt (error a b k - b) < 0 ↔
                error a b k - b < 0 :=
            SignedWords.ofInt_lt (w := 0) ⟨by omega, by omega⟩
              ⟨by decide, by decide⟩
          have hColumn :
              Int32.ofInt (cell p su sv a b k).1 +
                  Int32.ofInt su =
                Int32.ofInt (cell p su sv a b (k + 1)).1 := by
            rw [← Int32.ofInt_add]
            refine congrArg Int32.ofInt ?_
            unfold cell
            rw [Nat.cast_succ, mul_add, mul_one, add_assoc]
          have hRest :=
            ih (k := k + 1) (by omega)
              (Nat.lt_of_succ_lt_succ hTests)
          rw [lineLoop, if_neg hBefore, ← Int32.ofInt_sub]
          dsimp only
          rw [hColumn, List.range'_succ, List.map_cons]
          rcases rise_error_succ (a := a) (by omega) hSteep k with
            ⟨hBelow, hRise, hNext⟩ | ⟨hBelow, hRise, hNext⟩
          · have hRow :
                Int32.ofInt (cell p su sv a b k).2 +
                    Int32.ofInt sv =
                  Int32.ofInt (cell p su sv a b (k + 1)).2 := by
              rw [← Int32.ofInt_add]
              refine congrArg Int32.ofInt ?_
              dsimp only [cell]
              rw [hRise, Nat.cast_succ, mul_add, mul_one,
                add_assoc]
            rw [if_pos (hTest.mpr hBelow), hRow,
              ← Int32.ofInt_add, ← hNext, hRest]
            rfl
          · have hRow :
                (cell p su sv a b k).2 =
                  (cell p su sv a b (k + 1)).2 := by
              unfold cell
              rw [hRise]
            rw [if_neg (mt hTest.mp hBelow), hRow, ← hNext,
              hRest]
            rfl

/- A loop makes the calls for the cells of the line. -/
theorem lineLoop_path
    (hLine : SmallLine p su sv a b)
    (pixel : Int32 → Int32 → UInt32 × UInt32)
    {tests : Nat}
    (hTests : a < tests) :
    lineLoop pixel (Int32.ofInt (p.1 + su * a))
        (Int32.ofInt su) (Int32.ofInt sv) (Int32.ofInt a)
        (Int32.ofInt b) tests (Int32.ofInt p.1)
        (Int32.ofInt p.2) (Int32.ofInt a / 2) =
      some ((path p su sv a b).map fun c =>
        pixel (Int32.ofInt c.1) (Int32.ofInt c.2)) := by
  have hShort := hLine.short
  have hCells :
      (path p su sv a b).map (fun c =>
          pixel (Int32.ofInt c.1) (Int32.ofInt c.2)) =
        (List.range' 0 (a + 1)).map fun j =>
          pixel (Int32.ofInt (cell p su sv a b j).1)
            (Int32.ofInt (cell p su sv a b j).2) := by
    unfold path
    rw [List.map_map, List.range_eq_range']
    rfl
  rw [hCells]
  rcases Nat.eq_zero_or_pos a with rfl | ha
  · cases tests with
    | zero => exact absurd hTests (Nat.lt_irrefl 0)
    | succ tests =>
        have hStart :
            Int32.ofInt p.1 = Int32.ofInt (p.1 + su * (0 : Nat)) := by
          rw [Nat.cast_zero, mul_zero, add_zero]
        rw [lineLoop, if_pos hStart]
        refine congrArg some (congrArg (fun c => [c]) ?_)
        beta_reduce
        rw [cell_zero]
  · have hHalf :
        Int32.ofInt a / 2 = Int32.ofInt (error a b 0) := by
      have hTwo : (2 : Int32) = Int32.ofInt 2 := rfl
      have hLow : Int32.minValue.toInt = -2 ^ 31 := rfl
      have hHigh : Int32.maxValue.toInt = 2 ^ 31 - 1 := rfl
      rw [error_zero ha, hTwo,
        ← Int32.ofInt_tdiv (by omega) (by omega) (by omega)
          (by omega)]
      rfl
    have hLoop :=
      lineLoop_from hLine pixel (Nat.zero_add a) hTests
    rw [cell_zero] at hLoop
    rw [hHalf]
    exact hLoop

end LineLoops

------------------------------------------------------------
-- Endpoints
------------------------------------------------------------

/- The direction of a difference. -/
def direction
    (z : Int) : Int :=
  if z < 0 then -1 else 1

theorem direction_unit
    (z : Int) :
    UnitStep (direction z) := by
  unfold direction UnitStep
  split_ifs
  · exact .inr rfl
  · exact .inl rfl

theorem direction_mul_natAbs
    (z : Int) :
    direction z * (z.natAbs : Int) = z := by
  unfold direction
  split_ifs <;> omega

section Endpoints

variable {a b : UInt32}

/- The distance and the direction between two words. -/
theorem difference_ofInt
    (ha : a.toNat < 2 ^ 29)
    (hb : b.toNat < 2 ^ 29) :
    (if (b - a).toInt32 < 0 then -(b - a).toInt32
        else (b - a).toInt32) =
        Int32.ofInt ((b.toNat - a.toNat : Int).natAbs) ∧
      (if (b - a).toInt32 < 0 then (-1 : Int32) else 1) =
        Int32.ofInt (direction (b.toNat - a.toNat)) := by
  generalize hw : (b - a).toInt32 = w
  generalize hz : (b.toNat - a.toNat : Int) = z
  have hWord : w = Int32.ofInt z := by
    rw [← hw, ← Int32.toInt_inj,
      SignedWords.toInt_sub_toInt32 (by omega) (by omega),
      SignedWords.toInt_ofInt ⟨by omega, by omega⟩, hz]
  have hTest : w < 0 ↔ z < 0 := by
    rw [hWord]
    exact SignedWords.ofInt_lt (w := 0) ⟨by omega, by omega⟩
      ⟨by decide, by decide⟩
  unfold direction
  by_cases hNegative : z < 0
  · rw [if_pos (hTest.mpr hNegative),
      if_pos (hTest.mpr hNegative), if_pos hNegative, hWord,
      ← Int32.ofInt_neg]
    refine ⟨congrArg Int32.ofInt ?_, rfl⟩
    omega
  · rw [if_neg (mt hTest.mp hNegative),
      if_neg (mt hTest.mp hNegative), if_neg hNegative, hWord]
    refine ⟨congrArg Int32.ofInt ?_, rfl⟩
    omega

/- One loop between two points, along its longer side. -/
theorem lineLoop_connects
    {u1 v1 u2 v2 : UInt32}
    (hu1 : u1.toNat < 2 ^ 29)
    (hv1 : v1.toNat < 2 ^ 29)
    (hu2 : u2.toNat < 2 ^ 29)
    (hSteep :
      (v2.toNat - v1.toNat : Int).natAbs ≤
        (u2.toNat - u1.toNat : Int).natAbs)
    (pixel : Int32 → Int32 → UInt32 × UInt32) :
    ∃ cells,
      Connects (u1.toNat, v1.toNat) (u2.toNat, v2.toNat) cells ∧
      ∀ tests, 2 ^ 29 ≤ tests → lineLoop pixel u2.toInt32
          (Int32.ofInt (direction (u2.toNat - u1.toNat)))
          (Int32.ofInt (direction (v2.toNat - v1.toNat)))
          (Int32.ofInt (u2.toNat - u1.toNat : Int).natAbs)
          (Int32.ofInt (v2.toNat - v1.toNat : Int).natAbs)
          tests u1.toInt32 v1.toInt32
          (Int32.ofInt (u2.toNat - u1.toNat : Int).natAbs / 2) =
        some (cells.map fun c =>
          pixel (Int32.ofInt c.1) (Int32.ofInt c.2)) := by
  have hu := direction_mul_natAbs (u2.toNat - u1.toNat)
  have hv := direction_mul_natAbs (v2.toNat - v1.toNat)
  have hGoal :
      (u1.toNat : Int) + direction (u2.toNat - u1.toNat) *
          ((u2.toNat - u1.toNat : Int).natAbs : Int) =
        u2.toNat := by
    rw [hu]
    omega
  have hRow :
      (v1.toNat : Int) + direction (v2.toNat - v1.toNat) *
          ((v2.toNat - v1.toNat : Int).natAbs : Int) =
        v2.toNat := by
    rw [hv]
    omega
  have hLine :
      SmallLine (u1.toNat, v1.toNat)
        (direction (u2.toNat - u1.toNat))
        (direction (v2.toNat - v1.toNat))
        (u2.toNat - u1.toNat : Int).natAbs
        (v2.toNat - v1.toNat : Int).natAbs :=
    { steep := hSteep
      short := by omega
      unit := direction_unit _
      unit' := direction_unit _
      start := ⟨by omega, by omega⟩
      goal := by
        rw [hGoal]
        exact ⟨by omega, by omega⟩ }
  refine ⟨path (u1.toNat, v1.toNat)
    (direction (u2.toNat - u1.toNat))
    (direction (v2.toNat - v1.toNat))
    (u2.toNat - u1.toNat : Int).natAbs
    (v2.toNat - v1.toNat : Int).natAbs, ?_, ?_⟩
  · have hPath :=
      path_connects (p := (u1.toNat, v1.toNat)) hLine.steep
        hLine.unit hLine.unit'
    rw [hGoal, hRow] at hPath
    exact hPath
  · intro tests hTests
    have hLoop :=
      lineLoop_path hLine pixel
        (Nat.lt_of_lt_of_le hLine.short hTests)
    dsimp only at hLoop
    rw [hGoal] at hLoop
    rw [SignedWords.toInt32_eq_ofInt (a := u2) (by omega),
      SignedWords.toInt32_eq_ofInt (a := u1) (by omega),
      SignedWords.toInt32_eq_ofInt (a := v1) (by omega)]
    exact hLoop

end Endpoints

/- The pixel of a pair of integers. -/
def toPixel
    (c : Int × Int) : UInt32 × UInt32 :=
  ((Int32.ofInt c.1).toUInt32, (Int32.ofInt c.2).toUInt32)

/- The integers of a pixel. -/
def ofPixel
    (c : UInt32 × UInt32) : Int × Int :=
  (c.1.toNat, c.2.toNat)

theorem ofPixel_toPixel
    {c : Int × Int}
    (hColumn : 0 ≤ c.1 ∧ c.1 < 2 ^ 31)
    (hRow : 0 ≤ c.2 ∧ c.2 < 2 ^ 31) :
    ofPixel (toPixel c) = c :=
  Prod.ext (SignedWords.toNat_ofInt hColumn.1 hColumn.2)
    (SignedWords.toNat_ofInt hRow.1 hRow.2)

/- A line between small coordinates has pixels. -/
theorem map_ofPixel
    {p q : Int × Int}
    {cells : List (Int × Int)}
    (hConnects : Connects p q cells)
    (hStart : 0 ≤ p.1 ∧ p.1 < 2 ^ 29 ∧ 0 ≤ p.2 ∧ p.2 < 2 ^ 29)
    (hEnd : 0 ≤ q.1 ∧ q.1 < 2 ^ 29 ∧ 0 ≤ q.2 ∧ q.2 < 2 ^ 29) :
    (cells.map toPixel).map ofPixel = cells := by
  have hSame :
      ∀ c ∈ cells, (ofPixel ∘ toPixel) c = id c := by
    intro c hMem
    have hColumn := hConnects.columns c hMem
    have hRow := hConnects.rows c hMem
    exact ofPixel_toPixel ⟨by omega, by omega⟩
      ⟨by omega, by omega⟩
  rw [List.map_map, List.map_congr_left hSame, List.map_id]

/- The calls of `draw_line`, by the branch that it takes. -/
theorem lineCalls_connects
    {x1 y1 x2 y2 : UInt32}
    (hx1 : x1.toNat < 2 ^ 29)
    (hy1 : y1.toNat < 2 ^ 29)
    (hx2 : x2.toNat < 2 ^ 29)
    (hy2 : y2.toNat < 2 ^ 29) :
    ∃ cells,
      Connects (x1.toNat, y1.toNat) (x2.toNat, y2.toNat) cells ∧
      ∀ tests, 2 ^ 29 ≤ tests →
        lineCalls x1 y1 x2 y2 tests =
          some (cells.map toPixel) := by
  have hX := difference_ofInt hx1 hx2
  have hY := difference_ofInt hy1 hy2
  have hTest :=
    SignedWords.ofInt_lt
      (z := (y2.toNat - y1.toNat : Int).natAbs)
      (w := (x2.toNat - x1.toNat : Int).natAbs)
      ⟨by omega, by omega⟩ ⟨by omega, by omega⟩
  unfold lineCalls
  dsimp only
  rw [hX.1, hX.2, hY.1, hY.2]
  by_cases hWide :
      (y2.toNat - y1.toNat : Int).natAbs <
        (x2.toNat - x1.toNat : Int).natAbs
  · simp only [if_pos (hTest.mpr (Int.ofNat_lt.mpr hWide))]
    exact lineLoop_connects hx1 hy1 hx2 (Nat.le_of_lt hWide) _
  · simp only [if_neg (mt hTest.mp (mt Int.ofNat_lt.mp hWide))]
    rcases lineLoop_connects hy1 hx1 hy2
        (Nat.le_of_not_lt hWide)
        fun y x => (x.toUInt32, y.toUInt32) with
      ⟨cells, hConnects, hLoop⟩
    refine ⟨cells.map Prod.swap, hConnects.swap, ?_⟩
    intro tests hTests
    rw [hLoop tests hTests, List.map_map]
    rfl

/-
  A line between points with small coordinates is drawn by
  calls that go from one to the other, cell by cell.
-/
theorem drawLine_connects
    (d : Display)
    (x1 y1 x2 y2 color : UInt32)
    (hx1 : x1.toNat < 2 ^ 29)
    (hy1 : y1.toNat < 2 ^ 29)
    (hx2 : x2.toNat < 2 ^ 29)
    (hy2 : y2.toNat < 2 ^ 29) :
    ∃ calls,
      Connects (ofPixel (x1, y1)) (ofPixel (x2, y2))
        (calls.map ofPixel) ∧
      ∃ enough, ∀ tests, enough ≤ tests →
        lineCalls x1 y1 x2 y2 tests = some calls ∧
        ∀ fb, drawLine d x1 y1 x2 y2 color tests fb =
          some (setPixels d color calls fb) := by
  rcases lineCalls_connects hx1 hy1 hx2 hy2 with
    ⟨cells, hConnects, hCalls⟩
  refine ⟨cells.map toPixel, ?_, 2 ^ 29, fun tests hTests => ?_⟩
  · rw [map_ofPixel hConnects
      ⟨by omega, by omega, by omega, by omega⟩
      ⟨by omega, by omega, by omega, by omega⟩]
    exact hConnects
  · refine ⟨hCalls tests hTests, fun fb => ?_⟩
    unfold drawLine
    rw [hCalls tests hTests]
    rfl

theorem drawLine_connects_diagonal :
    ∃ calls,
      Connects (ofPixel (10, 10)) (ofPixel (3, 90))
        (calls.map ofPixel) ∧
      ∃ enough, ∀ tests, enough ≤ tests →
        lineCalls 10 10 3 90 tests = some calls ∧
        ∀ fb, drawLine .pc 10 10 3 90 0xFFFFFF tests fb =
          some (setPixels .pc 0xFFFFFF calls fb) :=
  drawLine_connects .pc 10 10 3 90 0xFFFFFF (by decide)
    (by decide) (by decide) (by decide)

end Graphics

end AsmOS
