import AsmOS.Base.StepRuns
import AsmOS.Games.TetrisInvariant

/-
  Runs of the Tetris game.

  The piece stays legal as long as the score does not leave
  the numbers from zero up.  A score that wraps picks a piece
  in front of the table, and the cells that are read there
  are put on the board.

  Main declarations:
    * `TetrisLegal`, `LockFits`, `tetrisRun_legal`
    * `raise`, `gridRun_raise`
    * `overflowKeys`, `tetrisRun_overflows`
-/

------------------------------------------------------------
-- Legal Pieces
------------------------------------------------------------

namespace AsmOS

namespace Games

open Compaction

/- A place on the board, or above it, that is not filled. -/
def FreeCell
    (b : TetrisBoard)
    (cell : Int × Int) : Prop :=
  0 ≤ cell.1 ∧ cell.1 < 10 ∧ cell.2 < 20 ∧
    (0 ≤ cell.2 → b cell.1 cell.2 = 0)

/- What must hold in every state. -/
structure TetrisLegal
    (around : Around)
    (s : Tetris) : Prop where
  cells :
    s.quit = false →
      ∀ i, FreeCell s.board (pieceCell around s s.rot i)
  values :
    s.quit = false →
      ∀ x y, 0 ≤ x ∧ x < 10 → 0 ≤ y ∧ y < 20 → s.board x y ≤ 7
  rows :
    ∀ y, 0 ≤ y ∧ y < 20 →
      ∃ x, 0 ≤ x ∧ x < 10 ∧ s.board x y = 0

/- No lock of the step takes the score out of range. -/
def LockFits
    (around : Around)
    (s : Tetris)
    (event : TetrisEvent) : Prop :=
  tetrisLocks (tetrisCollide around) s event = true →
    GainFits s.score (fullRows around s)

def gridStart : TetrisGrid :=
  { board := List.replicate 20 emptyRow
    piece := 0
    rot := 0
    px := 3
    py := -2
    score := 0
    lines := 0
    quit := false
    dropTicks := 0 }

section Legal

variable {around : Around} {s t : Tetris}

variable {event : TetrisEvent}

theorem tetrisCollide_free
    {rot : Turn}
    (hFree : tetrisCollide around s 0 0 rot = false)
    (i : Fin 4) :
    FreeCell s.board (pieceCell around s rot i) := by
  have hCell := List.any_eq_false.mp hFree i (List.mem_finRange i)
  dsimp only at hCell
  rw [Int.add_zero, Int.add_zero] at hCell
  split_ifs at hCell with hOut
  · exact absurd rfl hCell
  · rw [decide_eq_true_iff] at hCell
    refine ⟨by omega, by omega, by omega, fun hBoard => ?_⟩
    by_contra hFilled
    exact hCell ⟨hBoard, hFilled⟩

theorem mem_tetrisRows
    {b : TetrisBoard}
    {y : Int}
    (hy : 0 ≤ y ∧ y < 20) :
    tetrisRow b y.toNat ∈ tetrisRows b :=
  List.mem_map_of_mem (List.mem_range.mpr (by omega))

/- The invariant of the grid makes the piece legal. -/
theorem GridOk.legal
    (hOk : GridOk around (tetrisGrid s)) :
    TetrisLegal around s := by
  refine ⟨fun hQuit i => ?_, fun _ x y hx hy => ?_,
    fun y hy => ?_⟩
  · have hFree := hOk.free hQuit
    rw [gridCollide_eq] at hFree
    exact tetrisCollide_free hFree i
  · have hCell :
        s.board x y ∈ tetrisRow s.board y.toNat := by
      have hMem :
          s.board (x.toNat : Int) (y.toNat : Int) ∈
            tetrisRow s.board y.toNat :=
        List.mem_map_of_mem (List.mem_range.mpr (by omega))
      rw [Int.toNat_of_nonneg hx.1, Int.toNat_of_nonneg hy.1]
        at hMem
      exact hMem
    exact hOk.values _ (mem_tetrisRows hy) _ hCell
  · have hRow := hOk.rows _ (mem_tetrisRows hy)
    rcases List.all_eq_false.mp hRow with ⟨v, hMem, hv⟩
    rcases List.mem_map.mp hMem with ⟨c, hc, rfl⟩
    have hColumn := List.mem_range.mp hc
    refine ⟨c, by omega, by omega, ?_⟩
    rw [Int.toNat_of_nonneg hy.1] at hv
    by_contra hFilled
    exact hv (decide_eq_true hFilled)

/- The board is empty at first. -/
theorem tetrisGrid_init
    (s : Tetris) :
    tetrisGrid (tetrisInit s) = gridStart := by
  have hRows :
      tetrisRows (tetrisInit s).board =
        List.replicate 20 emptyRow := by
    refine List.eq_replicate_iff.mpr ⟨tetrisRows_length _, ?_⟩
    intro row hMem
    rcases List.mem_map.mp hMem with ⟨r, hr, rfl⟩
    have hRange := List.mem_range.mp hr
    refine tetrisRow_empty fun c hc => if_pos ?_
    omega
  unfold tetrisGrid
  rw [hRows]
  rfl

theorem gridStart_ok
    (around : Around) :
    GridOk around gridStart := by
  refine ⟨by decide, by decide, fun _ => rfl, ?_, ?_⟩
  · intro row hRow v hv
    rw [List.eq_of_mem_replicate hRow] at hv
    rw [List.eq_of_mem_replicate hv]
    decide
  · intro row hRow
    rw [List.eq_of_mem_replicate hRow]
    rfl

/- A step that returns is one of the grid. -/
theorem gridStep_of_step
    {tests : Nat}
    (hTests : lockTests ≤ tests)
    (hStep : tetrisStep around tests s event = some t) :
    gridStep around (tetrisGrid s) event =
      some (tetrisGrid t) := by
  rw [← tetrisStep_grid hTests, hStep, Option.map_some]

/- The condition on the locks is one on the grid. -/
theorem lockFits_iff_grid :
    LockFits around s event ↔
      GridFits around (tetrisGrid s) event := by
  have hTest := gridCollide_eq around s 0 1 s.rot
  have hLocks :
      tetrisLocks (gridCollide around) (tetrisGrid s) event =
        tetrisLocks (tetrisCollide around) s event := by
    cases event with
    | key sc => exact congrArg (sc = 0x50 && ·) hTest
    | tick =>
        exact congrArg (decide (s.dropTicks + 1 ≥ 25) && ·)
          hTest
  unfold LockFits GridFits
  rw [hLocks, gridFill_eq, fillPiece_eq]
  rfl

/-
  In every state of a run from `tetris_init` whose score stays
  in range the piece is legal, and every step returns.
-/
theorem tetrisRun_legal
    (around : Around)
    {tests : Nat}
    (hTests : lockTests ≤ tests)
    (s : Tetris)
    (events : List TetrisEvent)
    (hFits :
      StepRuns.EveryStep (tetrisStep around tests)
        (LockFits around) (tetrisInit s) events) :
    StepRuns.EveryState (tetrisStep around tests)
      (fun s =>
        TetrisLegal around s ∧
          ∀ event, (tetrisStep around tests s event).isSome)
      (tetrisInit s) events := by
  have hInit : GridOk around (tetrisGrid (tetrisInit s)) := by
    rw [tetrisGrid_init]
    exact gridStart_ok around
  have hKeeps :
      ∀ s event t,
        GridOk around (tetrisGrid s) →
          LockFits around s event →
            tetrisStep around tests s event = some t →
              GridOk around (tetrisGrid t) :=
    fun s event t hOk hFits hStep =>
      gridStep_ok hOk (lockFits_iff_grid.mp hFits)
        (gridStep_of_step hTests hStep)
  have hRun := StepRuns.everyState_of hKeeps hInit hFits
  refine hRun.mono fun s hOk => ⟨hOk.legal, fun event => ?_⟩
  rcases gridStep_move around (tetrisGrid s) event with
    ⟨g, hStep, _⟩
  rw [← Option.isSome_map, tetrisStep_grid hTests, hStep,
    Option.isSome_some]

/- The game before it is first started. -/
def tetrisStatics : Tetris :=
  { board := fun _ _ => 0
    piece := 0
    rot := 0
    px := 0
    py := 0
    score := 0
    lines := 0
    quit := false
    dropTicks := 0 }

/- All bytes around the table are zero. -/
def zeros : Around :=
  fun _ => (0, 0)

/- A piece is turned, moved to its side and down. -/
def dropKeys
    (turns : Nat)
    (side : Int)
    (downs : Nat) : List TetrisEvent :=
  List.replicate turns (.key 0x48) ++
    List.replicate side.natAbs
      (.key (if side < 0 then 0x4B else 0x4D)) ++
    List.replicate downs (.key 0x50)

/- From the empty board back to it, over ten full rows. -/
def roundKeys : List TetrisEvent :=
  dropKeys 0 4 19 ++ dropKeys 0 5 19 ++ dropKeys 1 1 21 ++
    dropKeys 1 1 20 ++ dropKeys 1 1 19 ++ dropKeys 1 (-3) 21 ++
    dropKeys 0 (-3) 21 ++ dropKeys 3 (-1) 20 ++
    dropKeys 1 (-1) 19 ++ dropKeys 1 (-3) 20 ++
    dropKeys 0 2 21 ++ dropKeys 2 (-3) 19 ++ dropKeys 2 1 20 ++
    dropKeys 0 (-1) 19 ++ dropKeys 0 1 20 ++ dropKeys 0 5 21 ++
    dropKeys 0 3 21 ++ dropKeys 1 (-3) 20 ++ dropKeys 2 1 20 ++
    dropKeys 3 (-3) 19 ++ dropKeys 2 4 20 ++ dropKeys 0 0 21 ++
    dropKeys 0 4 21 ++ dropKeys 2 (-1) 20 ++ dropKeys 2 3 20

/- In a round every lock fits. -/
theorem roundKeys_fits :
    StepRuns.EveryStep (tetrisStep zeros lockTests)
      (LockFits zeros) (tetrisInit tetrisStatics) roundKeys := by
  have hTested :
      (roundKeys.foldlM
        (fun g event =>
          if GridFits zeros g event then
            gridStep zeros g event
          else none) gridStart).isSome := by
    decide +kernel
  refine StepRuns.EveryStep.of_map (f := tetrisGrid)
    (fun _ _ _ => gridStep_of_step (Nat.le_refl lockTests))
    (fun _ _ => lockFits_iff_grid.mpr) ?_
  rw [tetrisGrid_init]
  exact StepRuns.everyStep_of_tested hTested

/- Twenty-five pieces lock and ten rows are cleared. -/
theorem tetrisRun_legal_round :
    StepRuns.EveryState (tetrisStep zeros lockTests)
      (fun s =>
        TetrisLegal zeros s ∧
          ∀ event, (tetrisStep zeros lockTests s event).isSome)
      (tetrisInit tetrisStatics) roundKeys :=
  tetrisRun_legal zeros (Nat.le_refl lockTests) tetrisStatics
    roundKeys roundKeys_fits

end Legal

------------------------------------------------------------
-- Overflow
------------------------------------------------------------

/- The state with more points and lines. -/
def raise
    (d k : Int32) : TetrisGrid → TetrisGrid :=
  TetrisState.map id (· + d) (· + k)

/- The end of a lock: a piece without a place ends the game. -/
def gridSpawn
    (around : Around)
    (g : TetrisGrid) : TetrisGrid :=
  if gridCollide around g 0 0 0 then { g with quit := true }
  else g

/- A step that stops where a lock leaves a range of scores. -/
def lowStep
    (around : Around)
    (limit : Int)
    (g : TetrisGrid)
    (event : TetrisEvent) : Option TetrisGrid :=
  tetrisMove (gridCollide around)
    (fun g =>
      let g := gridLock around g
      if 0 ≤ g.score.toInt ∧ g.score.toInt ≤ limit then some g
      else none)
    g event

section Raised

variable {around : Around} {g g' : TetrisGrid}

variable {d k : Int32} {limit : Int}

/- Points that are a multiple of 7 change no piece. -/
theorem mod_raise
    {score : Int32}
    (hPoints : 0 ≤ d.toInt ∧ 7 ∣ d.toInt)
    (hLow : 0 ≤ score.toInt)
    (hHigh : score.toInt + d.toInt < 2 ^ 31) :
    (score + d) % 7 = score % 7 := by
  have hSeven : (7 : Int32).toInt = 7 := rfl
  have hSum : (score + d).toInt = score.toInt + d.toInt :=
    SignedWords.toInt_add ⟨by omega, hHigh⟩
  rw [← Int32.toInt_inj, Int32.toInt_mod, Int32.toInt_mod, hSum,
    hSeven, Int.tmod_eq_emod_of_nonneg hLow,
    Int.tmod_eq_emod_of_nonneg (by omega)]
  omega

theorem next_raise
    (hPoints : 0 ≤ d.toInt ∧ 7 ∣ d.toInt)
    (board : List (List UInt8))
    (c : Int32)
    (hLow : 0 ≤ (g.next board c).score.toInt)
    (hHigh :
      (g.next board c).score.toInt + d.toInt < 2 ^ 31) :
    (raise d k g).next board c = raise d k (g.next board c) := by
  have hScore :
      g.score + d + c * c * 100 = g.score + c * c * 100 + d :=
    SignedWords.add_right_comm g.score d (c * c * 100)
  have hLines : g.lines + k + c = g.lines + c + k :=
    SignedWords.add_right_comm g.lines k c
  have hPiece := mod_raise hPoints hLow hHigh
  have hNext : (g.next board c).score = g.score + c * c * 100 :=
    rfl
  rw [hNext] at hPiece
  unfold raise TetrisState.map TetrisState.next
  dsimp only
  rw [hScore, hLines, hPiece]
  rfl

theorem gridLock_raise
    (hPoints : 0 ≤ d.toInt ∧ 7 ∣ d.toInt)
    (hLow : 0 ≤ (gridLock around g).score.toInt)
    (hHigh :
      (gridLock around g).score.toInt + d.toInt < 2 ^ 31) :
    gridLock around (raise d k g) =
      raise d k (gridLock around g) := by
  let filled := gridFill around g
  let next :=
    g.next (settled isFullRow emptyRow filled)
      (Int32.ofNat (filled.countP isFullRow))
  have hLock : gridLock around g = gridSpawn around next := rfl
  have hScore : (gridSpawn around next).score = next.score := by
    unfold gridSpawn
    split_ifs
    · rfl
    · rfl
  rw [hLock, hScore] at hLow hHigh
  have hNext :
      (raise d k g).next (settled isFullRow emptyRow filled)
          (Int32.ofNat (filled.countP isFullRow)) =
        raise d k next :=
    next_raise hPoints _ _ hLow hHigh
  have hRaised :
      gridLock around (raise d k g) =
        gridSpawn around
          ((raise d k g).next
            (settled isFullRow emptyRow filled)
            (Int32.ofNat (filled.countP isFullRow))) :=
    rfl
  have hTest :
      gridCollide around (raise d k next) 0 0 0 =
        gridCollide around next 0 0 0 :=
    rfl
  rw [hRaised, hNext, hLock]
  unfold gridSpawn
  rw [hTest]
  split_ifs
  · rfl
  · rfl

/- A step in the range is the same step with more points. -/
theorem gridStep_raise
    (hPoints : 0 ≤ d.toInt ∧ 7 ∣ d.toInt)
    (hRange : limit + d.toInt < 2 ^ 31)
    {event : TetrisEvent}
    (hStep : lowStep around limit g event = some g') :
    gridStep around (raise d k g) event =
      some (raise d k g') := by
  have hLock :
      ∀ g g',
        (if 0 ≤ (gridLock around g).score.toInt ∧
              (gridLock around g).score.toInt ≤ limit then
            some (gridLock around g)
          else none) = some g' →
          some (gridLock around (raise d k g)) =
            some (raise d k g') := by
    intro g g' hReturns
    split_ifs at hReturns with hLow
    cases hReturns
    rw [gridLock_raise hPoints hLow.1 (by omega)]
  exact
    tetrisMove_related (h := id) (u := (· + d)) (v := (· + k))
      (R := fun t u =>
        ∀ g', t = some g' → u = some (raise d k g'))
      (fun _ _ hSame => congrArg (Option.map (raise d k)) hSame)
      hLock
      (fun _ _ _ _ => rfl) g event g' hStep

theorem gridRun_raise
    (hPoints : 0 ≤ d.toInt ∧ 7 ∣ d.toInt)
    (hRange : limit + d.toInt < 2 ^ 31)
    {events : List TetrisEvent}
    (hRun : events.foldlM (lowStep around limit) g = some g') :
    events.foldlM (gridStep around) (raise d k g) =
      some (raise d k g') := by
  induction events generalizing g with
  | nil =>
      cases hRun
      rfl
  | cons event events ih =>
      rw [List.foldlM_cons] at hRun ⊢
      rcases Option.bind_eq_some_iff.mp hRun with
        ⟨u, hStep, hRest⟩
      refine Option.bind_eq_some_iff.mpr
        ⟨raise d k u, ?_, ih hRest⟩
      exact gridStep_raise hPoints hRange hStep

end Raised

/- Rounds up to the last score, one more, and a last piece. -/
def overflowKeys : List TetrisEvent :=
  (List.replicate 1533916 roundKeys).flatten ++
    (roundKeys ++ dropKeys 0 0 22)

theorem roundKeys_run :
    roundKeys.foldlM (lowStep zeros 1400) gridStart =
      some (raise 1400 10 gridStart) := by
  decide +kernel

/- A piece from in front of the table is on the board. -/
theorem overflowKeys_end :
    ((roundKeys ++ dropKeys 0 0 22).foldlM (gridStep zeros)
        (raise (Int32.ofNat (1400 * 1533916))
          (Int32.ofNat (10 * 1533916)) gridStart)).map
        (fun g => (g.quit, gridCell g.board 3 19)) =
      some (false, 253) := by
  decide +kernel

theorem raise_raise
    (d e k l : Int32)
    (g : TetrisGrid) :
    raise d k (raise e l g) = raise (e + d) (l + k) g := by
  unfold raise TetrisState.map
  dsimp only [id_eq]
  rw [Int32.add_assoc, Int32.add_assoc]

theorem gridRun_rounds
    (n : Nat)
    (hScore : 1400 * n < 2 ^ 31) :
    (List.replicate n roundKeys).flatten.foldlM (gridStep zeros)
        gridStart =
      some
        (raise (Int32.ofNat (1400 * n)) (Int32.ofNat (10 * n))
          gridStart) := by
  induction n with
  | zero => rfl
  | succ n ih =>
      have hPoints :
          (Int32.ofNat (1400 * n)).toInt =
            (1400 * n : Nat) := by
        rw [← Int32.ofInt_eq_ofNat]
        exact SignedWords.toInt_ofInt ⟨by omega, by omega⟩
      have hRound :=
        gridRun_raise
          (d := Int32.ofNat (1400 * n))
          (k := Int32.ofNat (10 * n))
          ⟨by omega, by omega⟩ (by omega) roundKeys_run
      have hFourteen : (1400 : Int32) = Int32.ofNat 1400 := rfl
      have hTen : (10 : Int32) = Int32.ofNat 10 := rfl
      rw [raise_raise, hFourteen, hTen, ← Int32.ofNat_add,
        ← Int32.ofNat_add, Nat.add_comm 1400, Nat.add_comm 10]
        at hRound
      rw [List.replicate_succ', List.flatten_append,
        List.flatten_singleton]
      exact StepRuns.foldlM_append_of (ih (by omega)) hRound

/-
  With keys enough the score wraps, and a value that no piece
  has is on the board of a game that goes on.
-/
theorem tetrisRun_overflows :
    ¬ StepRuns.EveryState (tetrisStep zeros lockTests)
      (TetrisLegal zeros) (tetrisInit tetrisStatics)
      overflowKeys := by
  intro hAll
  have hValues :
      StepRuns.EveryState (tetrisStep zeros lockTests)
        (fun s =>
          (tetrisGrid s).quit = false →
            gridCell (tetrisGrid s).board 3 19 ≤ 7)
        (tetrisInit tetrisStatics) overflowKeys := by
    refine hAll.mono fun s hLegal hQuit => ?_
    have hCell :
        gridCell (tetrisGrid s).board 3 19 = s.board 3 19 :=
      gridCell_tetrisRows (by decide) (by decide)
    rw [hCell]
    exact hLegal.values hQuit 3 19 (by decide) (by decide)
  have hGrid :=
    hValues.map (f := tetrisGrid)
      (R := fun g => g.quit = false → gridCell g.board 3 19 ≤ 7)
      fun s event u hStep =>
        Option.map_eq_some_iff.mp
          ((tetrisStep_grid (Nat.le_refl lockTests) s
            event).trans hStep)
  rw [tetrisGrid_init] at hGrid
  rcases Option.map_eq_some_iff.mp overflowKeys_end with
    ⟨g, hEnd, hFields⟩
  have hRun :
      overflowKeys.foldlM (gridStep zeros) gridStart =
        some g :=
    StepRuns.foldlM_append_of (gridRun_rounds 1533916 (by decide))
      hEnd
  have hQuit : g.quit = false := congrArg Prod.fst hFields
  have hValue : gridCell g.board 3 19 = 253 :=
    congrArg Prod.snd hFields
  have hSmall := hGrid.last hRun hQuit
  rw [hValue] at hSmall
  exact absurd hSmall (by decide)

end Games

end AsmOS
