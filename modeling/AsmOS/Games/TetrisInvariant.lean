import AsmOS.Base.SignedWords
import AsmOS.Games.TetrisGrid

/-
  Steps of the Tetris game over its rows, and what they keep.

  A piece only goes to a place that was tested, and a lock
  draws the next one with a number below 7 as long as the
  score does not wrap.

  Main declarations:
    * `TetrisState.map`, `tetrisMove_related`
    * `gridStep`, `tetrisStep_grid`
    * `GridMove`, `gridStep_move`
    * `GridOk`, `gridStep_ok`
-/

------------------------------------------------------------
-- Steps Of The Grid
------------------------------------------------------------

namespace AsmOS

namespace Games

open Compaction

/- The state with another view of its board and its counters. -/
def TetrisState.map
    {β γ : Type}
    (h : β → γ)
    (u v : Int32 → Int32)
    (s : TetrisState β) : TetrisState γ :=
  { board := h s.board
    piece := s.piece
    rot := s.rot
    px := s.px
    py := s.py
    score := u s.score
    lines := v s.lines
    quit := s.quit
    dropTicks := s.dropTicks }

section Views

variable {β γ : Type} {h : β → γ} {u v : Int32 → Int32}
variable {collide : TetrisState β → Int → Int → Turn → Bool}
variable {collide' : TetrisState γ → Int → Int → Turn → Bool}
variable {lock : TetrisState β → Option (TetrisState β)}
variable {lock' : TetrisState γ → Option (TetrisState γ)}
variable
  {R : Option (TetrisState β) → Option (TetrisState γ) → Prop}

theorem tetrisDown_related
    (hSome : ∀ s, R (some s) (some (s.map h u v)))
    (hLock : ∀ s, R (lock s) (lock' (s.map h u v)))
    (hCollide :
      ∀ s dx dy rot,
        collide' (s.map h u v) dx dy rot = collide s dx dy rot)
    (s : TetrisState β) :
    R (tetrisDown collide lock s)
      (tetrisDown collide' lock' (s.map h u v)) := by
  unfold tetrisDown
  have hTest := hCollide s 0 1 s.rot
  have hRot : (s.map h u v).rot = s.rot := rfl
  rw [hRot, hTest]
  split_ifs
  · exact hLock s
  · exact hSome { s with py := s.py + 1 }

theorem tetrisKey_related
    (hSome : ∀ s, R (some s) (some (s.map h u v)))
    (hLock : ∀ s, R (lock s) (lock' (s.map h u v)))
    (hCollide :
      ∀ s dx dy rot,
        collide' (s.map h u v) dx dy rot = collide s dx dy rot)
    (sc : UInt8)
    (s : TetrisState β) :
    R (tetrisKey collide lock sc s)
      (tetrisKey collide' lock' sc (s.map h u v)) := by
  have hTest := hCollide s
  have hRot : (s.map h u v).rot = s.rot := rfl
  unfold tetrisKey
  dsimp only
  rw [hRot, hTest, hTest, hTest]
  split_ifs
  · exact hSome s
  · exact hSome { s with quit := true }
  · exact hSome s
  · exact hSome { s with px := s.px - 1 }
  · exact hSome s
  · exact hSome { s with px := s.px + 1 }
  · exact tetrisDown_related hSome hLock hCollide s
  · exact hSome s
  · exact hSome { s with rot := s.rot + 1 }
  · exact hSome s

/-
  A relation of what locks return is one of what the moves
  return, where the tests are the same.
-/
theorem tetrisMove_related
    (hSome : ∀ s, R (some s) (some (s.map h u v)))
    (hLock : ∀ s, R (lock s) (lock' (s.map h u v)))
    (hCollide :
      ∀ s dx dy rot,
        collide' (s.map h u v) dx dy rot = collide s dx dy rot)
    (s : TetrisState β)
    (event : TetrisEvent) :
    R (tetrisMove collide lock s event)
      (tetrisMove collide' lock' (s.map h u v) event) := by
  cases event with
  | key sc => exact tetrisKey_related hSome hLock hCollide sc s
  | tick =>
      change
        R (tetrisTick _ _ s) (tetrisTick _ _ (s.map h u v))
      have hTicks : (s.map h u v).dropTicks = s.dropTicks := rfl
      unfold tetrisTick
      rw [hTicks]
      split_ifs
      · exact
          tetrisDown_related hSome hLock hCollide
            { s with dropTicks := 0 }
      · exact hSome { s with dropTicks := s.dropTicks + 1 }

end Views

def gridStep
    (around : Around)
    (g : TetrisGrid)
    (event : TetrisEvent) : Option TetrisGrid :=
  tetrisMove (gridCollide around)
    (fun g => some (gridLock around g)) g event

/- A step of the game is a step of the grid. -/
theorem tetrisStep_grid
    {around : Around}
    {tests : Nat}
    (hTests : lockTests ≤ tests)
    (s : Tetris)
    (event : TetrisEvent) :
    (tetrisStep around tests s event).map tetrisGrid =
      gridStep around (tetrisGrid s) event := by
  have hLock :
      ∀ s,
        (tetrisLock around tests s).map tetrisGrid =
          some (gridLock around (tetrisGrid s)) := by
    intro s
    rcases tetrisLock_grid around s with ⟨t, hLock, hGrid⟩
    rw [hLock tests hTests, Option.map_some, hGrid]
  exact
    tetrisMove_related (h := tetrisRows) (u := id) (v := id)
      (R := fun t g => t.map tetrisGrid = g)
      (fun _ => rfl) hLock (gridCollide_eq around) s event

/- The event locks the piece. -/
def tetrisLocks
    {β : Type}
    (collide : TetrisState β → Int → Int → Turn → Bool)
    (s : TetrisState β) : TetrisEvent → Bool
| .key sc => sc = 0x50 && collide s 0 1 s.rot
| .tick => s.dropTicks + 1 ≥ 25 && collide s 0 1 s.rot

/- What a step can do. -/
inductive GridMove
    (around : Around)
    (g : TetrisGrid)
    (event : TetrisEvent) : TetrisGrid → Prop
| stop :
    GridMove around g event { g with quit := true }
| wait (n : Nat) :
    GridMove around g event { g with dropTicks := n }
| move
    (dx dy : Int)
    (rot : Turn)
    (n : Nat)
    (hFree : gridCollide around g dx dy rot = false) :
    GridMove around g event
      { g with
        px := g.px + dx
        py := g.py + dy
        rot := rot
        dropTicks := n }
| lock
    (hLocks :
      tetrisLocks (gridCollide around) g event = true) :
    GridMove around g event (gridLock around g)

section Inversion

variable {around : Around} {g : TetrisGrid}

variable {event : TetrisEvent}

/- A move whose test found nothing. -/
theorem GridMove.of_test
    {dx dy : Int}
    {rot : Turn}
    (hTest : ¬ gridCollide around g dx dy rot = true)
    {g' : TetrisGrid}
    (hMoved :
      g' =
        { g with
          px := g.px + dx
          py := g.py + dy
          rot := rot }) :
    GridMove around g event g' := by
  rw [hMoved]
  exact .move dx dy rot g.dropTicks
    (Bool.eq_false_iff.mpr hTest)

theorem gridDown_move
    {n : Nat}
    (hLocks :
      gridCollide around g 0 1 g.rot = true →
        tetrisLocks (gridCollide around) g event = true) :
    ∃ g',
      tetrisDown (gridCollide around)
          (fun g => some (gridLock around g))
          { g with dropTicks := n } =
        some g' ∧
      GridMove around g event g' := by
  unfold tetrisDown
  by_cases hTest : gridCollide around g 0 1 g.rot = true
  · exact ⟨gridLock around g, if_pos hTest,
      .lock (hLocks hTest)⟩
  · have hMove : GridMove around g event _ :=
      .move 0 1 g.rot n (Bool.eq_false_iff.mpr hTest)
    rw [Int.add_zero] at hMove
    exact ⟨_, if_neg hTest, hMove⟩

theorem gridStep_key
    (sc : UInt8) :
    ∃ g', gridStep around g (.key sc) = some g' ∧
      GridMove around g (.key sc) g' := by
  change
    ∃ g', tetrisKey _ _ sc g = some g' ∧
      GridMove around g (.key sc) g'
  unfold tetrisKey
  split_ifs with hRelease hStop hLeft hTest hRight hTest hDown
    hUp
  · exact ⟨g, rfl, .wait g.dropTicks⟩
  · exact ⟨_, rfl, .stop⟩
  · exact ⟨g, rfl, .wait g.dropTicks⟩
  · refine ⟨_, rfl, .of_test hTest ?_⟩
    rw [Int.add_zero]
    rfl
  · exact ⟨g, rfl, .wait g.dropTicks⟩
  · refine ⟨_, rfl, .of_test hTest ?_⟩
    rw [Int.add_zero]
  · refine gridDown_move fun hTest => ?_
    rw [hDown]
    exact hTest
  · dsimp only
    split_ifs with hTest
    · exact ⟨g, rfl, .wait g.dropTicks⟩
    · refine ⟨_, rfl, .of_test hTest ?_⟩
      rw [Int.add_zero, Int.add_zero]
  · exact ⟨g, rfl, .wait g.dropTicks⟩

/- Every step returns, and does one of these. -/
theorem gridStep_move
    (around : Around)
    (g : TetrisGrid)
    (event : TetrisEvent) :
    ∃ g', gridStep around g event = some g' ∧
      GridMove around g event g' := by
  cases event with
  | key sc => exact gridStep_key sc
  | tick =>
      change
        ∃ g', tetrisTick _ _ g = some g' ∧
          GridMove around g .tick g'
      unfold tetrisTick
      split_ifs with hDue
      · refine gridDown_move fun hTest => ?_
        unfold tetrisLocks
        rw [hTest, Bool.and_true]
        exact decide_eq_true hDue
      · exact ⟨_, rfl, .wait _⟩

end Inversion

------------------------------------------------------------
-- The Invariant
------------------------------------------------------------

/- Every cell of the board holds 0 or the number of a piece. -/
def SmallValues
    (rows : List (List UInt8)) : Prop :=
  ∀ row ∈ rows, ∀ v ∈ row, v ≤ 7

structure GridOk
    (around : Around)
    (g : TetrisGrid) : Prop where
  score : 0 ≤ g.score.toInt
  piece : 0 ≤ g.piece.toInt ∧ g.piece.toInt < 7
  free :
    g.quit = false → gridCollide around g 0 0 g.rot = false
  values : SmallValues g.board
  rows : ∀ row ∈ g.board, isFullRow row = false

/- The score of `k` more rows is a number of type `int`. -/
def GainFits
    (score : Int32)
    (k : Nat) : Prop :=
  score.toInt + 100 * (k : Int) ^ 2 < 2 ^ 31

/- No lock of the step takes the score out of range. -/
def GridFits
    (around : Around)
    (g : TetrisGrid)
    (event : TetrisEvent) : Prop :=
  tetrisLocks (gridCollide around) g event = true →
    GainFits g.score ((gridFill around g).countP isFullRow)

instance
    (around : Around)
    (g : TetrisGrid)
    (event : TetrisEvent) :
    Decidable (GridFits around g event) := by
  unfold GridFits GainFits
  infer_instance

section Invariant

variable {around : Around} {g g' : TetrisGrid}

variable {event : TetrisEvent}

/- The test of a place is the test of the piece there. -/
theorem gridCollide_moved
    (dx dy : Int)
    (rot : Turn)
    (n : Nat) :
    gridCollide around
        { g with
          px := g.px + dx
          py := g.py + dy
          rot := rot
          dropTicks := n }
        0 0 rot =
      gridCollide around g dx dy rot := by
  unfold gridCollide
  refine congrArg (List.any _) (funext fun i => ?_)
  unfold pieceCell
  dsimp only
  have hColumn :
      ∀ x : Int, g.px + dx + x + 0 = g.px + x + dx := by
    intro x
    omega
  have hRow :
      ∀ y : Int, g.py + dy + y + 0 = g.py + y + dy := by
    intro y
    omega
  rw [hColumn, hRow]

theorem fillCell_values
    {cell : Int × Int}
    {v : UInt8}
    (hValue : v ≤ 7)
    {rows : List (List UInt8)}
    (hValues : SmallValues rows) :
    SmallValues (fillCell cell v rows) := by
  unfold fillCell
  split_ifs
  · intro row hRow w hw
    rcases List.mem_iff_getElem?.mp hRow with ⟨r, hr⟩
    rw [List.getElem?_modify] at hr
    rcases Option.map_eq_some_iff.mp hr with ⟨old, hOld, rfl⟩
    have hMem := List.mem_of_getElem? hOld
    split_ifs at hw
    · rcases List.mem_or_eq_of_mem_set hw with hKept | rfl
      · exact hValues old hMem w hKept
      · exact hValue
    · exact hValues old hMem w hw
  · exact hValues

/- The value that a lock puts on the board. -/
theorem piece_value
    {piece : Int32}
    (hPiece : 0 ≤ piece.toInt ∧ piece.toInt < 7) :
    (piece + 1).toUInt32.toUInt8 ≤ 7 := by
  have hOne : (1 : Int32).toInt = 1 := rfl
  have hNext : (piece + 1).toInt = piece.toInt + 1 := by
    rw [SignedWords.toInt_add] <;> rw [hOne]
    exact ⟨by omega, by omega⟩
  have hWord := SignedWords.toNat_toUInt32 (piece + 1)
  rw [hNext, if_pos (by omega)] at hWord
  have hSeven : (7 : UInt8).toNat = 7 := rfl
  rw [UInt8.le_iff_toNat_le, UInt32.toNat_toUInt8, hSeven]
  omega

theorem gridFill_values
    (hOk : GridOk around g) :
    SmallValues (gridFill around g) := by
  have hFold :
      ∀ (is : List (Fin 4)) (rows : List (List UInt8)),
        SmallValues rows →
          SmallValues
            (is.foldl
              (fun rows i =>
                fillCell (pieceCell around g g.rot i)
                  (g.piece + 1).toUInt32.toUInt8 rows)
              rows) := by
    intro is
    induction is with
    | nil => exact fun _ hValues => hValues
    | cons i is ih =>
        exact fun rows hValues =>
          ih _ (fillCell_values (piece_value hOk.piece) hValues)
  exact hFold (List.finRange 4) g.board hOk.values

theorem settled_values
    {rows : List (List UInt8)}
    (hValues : SmallValues rows) :
    SmallValues (settled isFullRow emptyRow rows) := by
  intro row hRow v hv
  rcases List.mem_append.mp hRow with hNew | hOld
  · rw [List.eq_of_mem_replicate hNew] at hv
    rw [List.eq_of_mem_replicate hv]
    decide
  · exact hValues row (List.mem_filter.mp hOld).1 v hv

/- The piece that a lock draws, and its place. -/
theorem gridLock_piece
    (around : Around)
    (g : TetrisGrid) :
    (gridLock around g).piece = (gridLock around g).score % 7 ∧
      ((gridLock around g).quit = false →
        gridCollide around (gridLock around g) 0 0
          (gridLock around g).rot = false) := by
  unfold gridLock
  dsimp only
  split_ifs with hTest
  · exact ⟨rfl, False.elim⟩
  · exact ⟨rfl, fun _ => Bool.eq_false_iff.mpr hTest⟩

/- The score of a lock does not wrap. -/
theorem toInt_score
    {score : Int32}
    {k : Nat}
    (hScore : 0 ≤ score.toInt)
    (hFits : GainFits score k) :
    (score + Int32.ofNat (100 * k ^ 2)).toInt =
      score.toInt + 100 * (k : Int) ^ 2 := by
  have hSquare := sq_nonneg (k : Int)
  have hHigh : score.toInt + 100 * (k : Int) ^ 2 < 2 ^ 31 :=
    hFits
  have hGain :
      (Int32.ofNat (100 * k ^ 2)).toInt =
        100 * (k : Int) ^ 2 := by
    rw [← Int32.ofInt_eq_ofNat, Nat.cast_mul, Nat.cast_pow]
    exact SignedWords.toInt_ofInt ⟨by omega, by omega⟩
  rw [SignedWords.toInt_add] <;> rw [hGain]
  exact ⟨by omega, hHigh⟩

theorem gridLock_ok
    (hOk : GridOk around g)
    (hFits :
      GainFits g.score
        ((gridFill around g).countP isFullRow)) :
    GridOk around (gridLock around g) := by
  have hFields := gridLock_fields around g
  have hPiece := gridLock_piece around g
  have hSeven : (7 : Int32).toInt = 7 := rfl
  have hScore : 0 ≤ (gridLock around g).score.toInt := by
    have hLow := hOk.score
    have hSquare :=
      sq_nonneg ((gridFill around g).countP isFullRow : Int)
    rw [hFields.2.2, toInt_score hLow hFits]
    omega
  refine ⟨hScore, ?_, hPiece.2, ?_, ?_⟩
  · rw [hPiece.1, Int32.toInt_mod, hSeven]
    exact ⟨Int.tmod_nonneg 7 hScore,
      Int.tmod_lt_of_pos _ (by decide)⟩
  · rw [hFields.1]
    exact settled_values (gridFill_values hOk)
  · rw [hFields.1]
    intro row hRow
    exact not_full_of_mem_settled (by decide) hRow

/- Every step keeps the invariant. -/
theorem gridStep_ok
    (hOk : GridOk around g)
    (hFits : GridFits around g event)
    (hStep : gridStep around g event = some g') :
    GridOk around g' := by
  rcases gridStep_move around g event with ⟨u, hNext, hMove⟩
  rw [hStep] at hNext
  cases hNext
  cases hMove with
  | stop =>
      exact ⟨hOk.score, hOk.piece,
        fun hQuit => absurd hQuit.symm Bool.false_ne_true,
        hOk.values,
        hOk.rows⟩
  | wait n =>
      exact ⟨hOk.score, hOk.piece, hOk.free, hOk.values,
        hOk.rows⟩
  | move dx dy rot n hFree =>
      refine ⟨hOk.score, hOk.piece, fun _ => ?_, hOk.values,
        hOk.rows⟩
      exact (gridCollide_moved dx dy rot n).trans hFree
  | lock hLocks => exact gridLock_ok hOk (hFits hLocks)

end Invariant

end Games

end AsmOS
