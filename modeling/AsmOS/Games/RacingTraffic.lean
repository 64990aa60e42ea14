import Mathlib.Data.List.Basic
import AsmOS.Games.Racing

/-
  The traffic of the Racing game on the screen of the PC.

  An obstacle comes every 20 ticks and is on the road for 75,
  so the road depends on the tick alone: no obstacle is
  dropped for want of room, and each is counted once when it
  has passed.  At most two lanes are closed at a time, and a
  player who looks ahead by one tick is never caught.  This
  is so for as long as the tick does not wrap.

  Main declarations:
    * `OnRoad`, `racingRoad`, `OnTrack`
    * `racingTick_onTrack`, `racingRun_onTrack`
    * `Closed`, `racingFrame_quit_iff`
    * `racingRun_drawn`, `racingRun_escapes`
-/

------------------------------------------------------------
-- The Road
------------------------------------------------------------

namespace AsmOS

namespace Games

open Graphics

/- The obstacle of tick `20 * k` is on the road at tick `t`. -/
def OnRoad
    (t k : Nat) : Prop :=
  1 ≤ k ∧ 20 * k ≤ t ∧ t < 20 * k + 75

instance
    (t k : Nat) :
    Decidable (OnRoad t k) :=
  inferInstanceAs (Decidable (_ ∧ _))

def obstAt
    (t k : Nat) : RaceObst :=
  { lane := (20 * k % 3 : Nat)
    y := 3 * ((t : Int) + 1 - 20 * k) - 25 }

/- The obstacles of tick `t`, the lowest one first. -/
def racingRoad
    (t : Nat) : List RaceObst :=
  ((List.range (t / 20 + 1)).filter fun k => OnRoad t k).map
    (obstAt t)

/-
  What holds after `t` ticks: the score is ten for every
  obstacle that is no longer on the road.
-/
structure OnTrack
    (s : Racing)
    (t : Nat) : Prop where
  bound : t < 2 ^ 31
  tick : s.raceTick = Int32.ofNat t
  lane : s.raceLane ≤ 2
  road : s.raceObst = racingRoad t
  passed :
    ∃ score, s.raceScore = Int32.ofNat score ∧
      score + 10 * s.raceObst.length = 10 * (t / 20)

------------------------------------------------------------
-- Scrolling
------------------------------------------------------------

def RaceObst.moved
    (o : RaceObst) : RaceObst :=
  { o with y := o.y + 3 }

theorem racingScroll_fst
    (d : Display)
    (obst : List RaceObst)
    (score : Int32) :
    (racingScroll d obst score).1 =
      (obst.map RaceObst.moved).filter
        fun o => o.y ≤ screenHeight d := by
  induction obst generalizing score with
  | nil => rfl
  | cons o obst ih =>
      rw [racingScroll, List.map_cons]
      dsimp only
      split_ifs with hBelow
      · have hOut : ¬ o.moved.y ≤ screenHeight d :=
          Int.not_le.mpr hBelow
        rw [ih, List.filter_cons_of_neg (by simpa using hOut)]
      · have hIn : o.moved.y ≤ screenHeight d :=
          Int.not_lt.mp hBelow
        rw [List.filter_cons_of_pos (by simpa using hIn), ← ih score]
        rfl

/- An obstacle that leaves the road is counted. -/
theorem racingScroll_counts
    (d : Display)
    (obst : List RaceObst)
    (score : Nat) :
    ∃ score',
      (racingScroll d obst (Int32.ofNat score)).2 =
          Int32.ofNat score' ∧
        score' + 10 *
            (racingScroll d obst (Int32.ofNat score)).1.length =
          score + 10 * obst.length := by
  induction obst generalizing score with
  | nil => exact ⟨score, rfl, rfl⟩
  | cons o obst ih =>
      have hTen :
          Int32.ofNat score + 10 = Int32.ofNat (score + 10) :=
        (Int32.ofNat_add score 10).symm
      rw [racingScroll]
      dsimp only
      split_ifs
      · rcases ih (score + 10) with ⟨score', hScore, hSum⟩
        rw [hTen, hScore]
        refine ⟨score', rfl, ?_⟩
        rw [hSum, List.length_cons]
        omega
      · rcases ih score with ⟨score', hScore, hSum⟩
        refine ⟨score', hScore, ?_⟩
        rw [List.length_cons, List.length_cons]
        omega

theorem obstAt_moved
    (t k : Nat) :
    (obstAt t k).moved = obstAt (t + 1) k := by
  unfold obstAt RaceObst.moved
  rw [RaceObst.mk.injEq]
  refine ⟨rfl, ?_⟩
  push_cast
  omega

theorem obstAt_y_le
    (t k : Nat) :
    (obstAt t k).y ≤ screenHeight .pc ↔ t < 20 * k + 75 := by
  have hHeight : screenHeight .pc = 200 := rfl
  unfold obstAt
  dsimp only
  omega

/- The numbers of those on the road before the scrolling. -/
def comingIn
    (t : Nat) : List Nat :=
  ((List.range (t / 20 + 1)).filter fun k => OnRoad t k) ++
    if (t + 1) % 20 = 0 then [(t + 1) / 20] else []

theorem comingIn_filter
    (t : Nat) :
    ((comingIn t).filter fun k => decide (t + 1 < 20 * k + 75)) =
      (List.range ((t + 1) / 20 + 1)).filter
        fun k => OnRoad (t + 1) k := by
  unfold comingIn
  rw [List.filter_append, List.filter_filter]
  by_cases hSpawn : (t + 1) % 20 = 0
  · have hNext : (t + 1) / 20 = t / 20 + 1 := by omega
    have hLast : OnRoad (t + 1) (t / 20 + 1) :=
      ⟨by omega, by omega, by omega⟩
    have hKept :
        [t / 20 + 1].filter
            (fun k => decide (t + 1 < 20 * k + 75)) =
          [t / 20 + 1] :=
      List.filter_cons_of_pos (decide_eq_true hLast.2.2)
    have hComes :
        [t / 20 + 1].filter (fun k => OnRoad (t + 1) k) =
          [t / 20 + 1] :=
      List.filter_cons_of_pos (decide_eq_true hLast)
    have hRange :
        List.range (t / 20 + 1 + 1) =
          List.range (t / 20 + 1) ++ [t / 20 + 1] :=
      List.range_succ
    rw [if_pos hSpawn, hNext, hRange, List.filter_append, hKept,
      hComes]
    congr 1
    refine List.filter_congr fun k hMem => ?_
    have hk := List.mem_range.mp hMem
    rw [← Bool.decide_and]
    refine decide_eq_decide.mpr ?_
    unfold OnRoad
    omega
  · have hSame : (t + 1) / 20 = t / 20 := by omega
    rw [if_neg hSpawn, hSame, List.filter_nil, List.append_nil]
    refine List.filter_congr fun k hMem => ?_
    have hk := List.mem_range.mp hMem
    rw [← Bool.decide_and]
    refine decide_eq_decide.mpr ?_
    unfold OnRoad
    omega

/- Scrolling takes the road of a tick to that of the next. -/
theorem scroll_comingIn
    (t : Nat)
    (score : Int32) :
    (racingScroll .pc ((comingIn t).map (obstAt t)) score).1 =
      racingRoad (t + 1) := by
  have hMoved :
      RaceObst.moved ∘ obstAt t = obstAt (t + 1) :=
    funext fun k => obstAt_moved t k
  unfold racingRoad
  rw [racingScroll_fst, List.map_map, hMoved, List.filter_map,
    ← comingIn_filter]
  congr 1
  refine List.filter_congr fun k _ => ?_
  exact decide_eq_decide.mpr (obstAt_y_le (t + 1) k)

------------------------------------------------------------
-- Room For The Obstacles
------------------------------------------------------------

/- Numbers of a range that are all near its end. -/
theorem filter_range_length_le
    (p : Nat → Bool)
    {n m : Nat}
    (hNear : ∀ k < n, p k = true → n ≤ k + m) :
    ((List.range n).filter p).length ≤ m := by
  induction m generalizing n with
  | zero =>
      have hNone : (List.range n).filter p = [] := by
        refine List.filter_eq_nil_iff.mpr fun k hMem hp => ?_
        have hk := List.mem_range.mp hMem
        have hEnd := hNear k hk hp
        omega
      rw [hNone]
      exact Nat.le_refl 0
  | succ m ih =>
      cases n with
      | zero => exact Nat.zero_le _
      | succ n =>
          have hRest : ((List.range n).filter p).length ≤ m :=
            ih fun k hk hp => by
              have hEnd := hNear k (by omega) hp
              omega
          have hLast := List.length_filter_le p [n]
          rw [List.range_succ, List.filter_append,
            List.length_append]
          rw [List.length_singleton] at hLast
          omega

theorem racingRoad_length_le
    (t : Nat) :
    (racingRoad t).length ≤ 4 := by
  unfold racingRoad
  rw [List.length_map]
  refine filter_range_length_le _ fun k hk hOn => ?_
  have hRoad := of_decide_eq_true hOn
  unfold OnRoad at hRoad
  omega

/- When the next one comes there is room for it. -/
theorem racingRoad_room
    {t : Nat}
    (hSpawn : (t + 1) % 20 = 0) :
    (racingRoad t).length ≤ 3 := by
  unfold racingRoad
  rw [List.length_map]
  refine filter_range_length_le _ fun k hk hOn => ?_
  have hRoad := of_decide_eq_true hOn
  unfold OnRoad at hRoad
  omega

theorem racingInit_onTrack :
    OnTrack racingInit 0 :=
  ⟨by decide, rfl, by decide, rfl, 0, rfl, rfl⟩

/- The remainder of a tick that has not wrapped. -/
theorem tick_mod
    {t : Nat}
    (ht : t < 2 ^ 31)
    {m : Int32}
    {n : Nat}
    (hm : m.toInt = n) :
    (Int32.ofNat t % m).toInt = (t % n : Nat) := by
  rw [Int32.toInt_mod, Int32.toInt_ofNat_of_lt ht, hm,
    ← Int.ofNat_tmod]

section Ticks

variable {s : Racing} {t : Nat}

/- The obstacles of a tick before they are scrolled. -/
theorem spawn_onTrack
    (hTrack : OnTrack s t)
    (hNext : t + 1 < 2 ^ 31) :
    let u := { s with raceTick := s.raceTick + 1 }
    (if u.raceTick % 20 = 0 then racingSpawnObstacle u else u) =
      { s with
        raceTick := Int32.ofNat (t + 1)
        raceObst := (comingIn t).map (obstAt t) } := by
  intro u
  have hRoad := hTrack.road
  have hTick : u.raceTick = Int32.ofNat (t + 1) := by
    rw [Int32.ofNat_add, ← hTrack.tick]
    rfl
  have hTwenty :
      u.raceTick % 20 = 0 ↔ (t + 1) % 20 = 0 := by
    rw [hTick, ← Int32.toInt_inj,
      tick_mod hNext (show (20 : Int32).toInt = (20 : Nat) from
        rfl)]
    exact Int.natCast_eq_zero
  unfold comingIn
  by_cases hSpawn : (t + 1) % 20 = 0
  · have hRoom : ¬ u.raceObst.length ≥ 4 := by
      have hLength := racingRoad_room hSpawn
      rw [← hRoad] at hLength
      exact Nat.not_le.mpr (Nat.lt_succ_of_le hLength)
    have hLane :
        (u.raceTick % 3).toInt = ((t + 1) % 3 : Nat) := by
      rw [hTick]
      exact tick_mod hNext rfl
    have hNew :
        obstAt t ((t + 1) / 20) =
          { lane := (u.raceTick % 3).toInt, y := -25 } := by
      unfold obstAt
      rw [RaceObst.mk.injEq, hLane]
      constructor <;> omega
    rw [if_pos (hTwenty.mpr hSpawn), if_pos hSpawn,
      List.map_append, List.map_cons, hNew, ← hTick]
    unfold racingSpawnObstacle
    rw [if_neg hRoom, hRoad]
    rfl
  · rw [if_neg (mt hTwenty.mp hSpawn), if_neg hSpawn,
      List.append_nil, ← hTick]
    unfold racingRoad at hRoad
    rw [← hRoad]

/- How many there are then, and how many have come. -/
theorem comingIn_length
    (hTrack : OnTrack s t) :
    ∃ score, s.raceScore = Int32.ofNat score ∧
      score + 10 * (comingIn t).length =
        10 * ((t + 1) / 20) := by
  rcases hTrack.passed with ⟨score, hScore, hPassed⟩
  have hRoad := hTrack.road
  unfold racingRoad at hRoad
  rw [hRoad, List.length_map] at hPassed
  refine ⟨score, hScore, ?_⟩
  unfold comingIn
  rw [List.length_append]
  by_cases hSpawn : (t + 1) % 20 = 0
  · rw [if_pos hSpawn, List.length_singleton]
    omega
  · rw [if_neg hSpawn, List.length_nil]
    omega

/- What a tick leaves, but for the end of the game. -/
theorem racingTick_eq
    (hTrack : OnTrack s t)
    (hNext : t + 1 < 2 ^ 31) :
    ∃ score,
      score + 10 * (racingRoad (t + 1)).length =
          10 * ((t + 1) / 20) ∧
        let u :=
          { s with
            raceTick := Int32.ofNat (t + 1)
            raceObst := racingRoad (t + 1)
            raceScore := Int32.ofNat score }
        racingTick .pc s =
          { u with
            raceQuit :=
              s.raceQuit || u.raceObst.any (raceHits .pc u) } := by
  rcases comingIn_length hTrack with ⟨score, hScore, hComing⟩
  rcases racingScroll_counts .pc ((comingIn t).map (obstAt t))
    score with ⟨score', hScroll, hSum⟩
  rw [scroll_comingIn, List.length_map, hComing] at hSum
  refine ⟨score', hSum, ?_⟩
  unfold racingTick
  dsimp only
  rw [spawn_onTrack hTrack hNext]
  dsimp only
  rw [scroll_comingIn, hScore, hScroll]

theorem racingTick_onTrack
    (hTrack : OnTrack s t)
    (hNext : t + 1 < 2 ^ 31) :
    OnTrack (racingTick .pc s) (t + 1) := by
  rcases racingTick_eq hTrack hNext with ⟨score, hPassed, hTick⟩
  rw [hTick]
  exact ⟨hNext, rfl, hTrack.lane, rfl, score, rfl, hPassed⟩

/- The keys of a frame change the lane, and may end the game. -/
theorem racingMove_cases
    (sc : UInt8)
    (s : Racing)
    (hLane : s.raceLane ≤ 2) :
    ∃ lane ≤ 2, racingMove sc s = { s with raceLane := lane } := by
  unfold racingMove
  dsimp only
  by_cases hLeft : sc = 0x4B ∧ s.raceLane > 0
  · have hOther : ¬ sc = 0x4D := by
      rw [hLeft.1]
      decide
    rw [if_pos hLeft, if_neg (fun hBoth => hOther hBoth.1)]
    exact ⟨_, by omega, rfl⟩
  · rw [if_neg hLeft]
    split_ifs with hRight
    · exact ⟨_, by omega, rfl⟩
    · exact ⟨s.raceLane, hLane, rfl⟩

theorem racingKeys_cases
    (keys : List UInt8)
    (hLane : s.raceLane ≤ 2) :
    ∃ lane ≤ 2, ∃ quit,
      racingKeys keys s =
        { s with raceLane := lane, raceQuit := quit } := by
  induction keys generalizing s with
  | nil => exact ⟨s.raceLane, hLane, s.raceQuit, rfl⟩
  | cons sc keys ih =>
      unfold racingKeys
      split_ifs
      · exact ih hLane
      · exact ⟨s.raceLane, hLane, true, rfl⟩
      · rcases racingMove_cases sc s hLane with
          ⟨lane, hLane', hMove⟩
        rw [hMove]
        exact ih (s := { s with raceLane := lane }) hLane'

theorem racingKeys_onTrack
    (keys : List UInt8)
    (hTrack : OnTrack s t) :
    OnTrack (racingKeys keys s) t := by
  rcases racingKeys_cases keys hTrack.lane with
    ⟨lane, hLane, quit, hKeys⟩
  rw [hKeys]
  exact ⟨hTrack.bound, hTrack.tick, hLane, hTrack.road,
    hTrack.passed⟩

theorem racingFrame_onTrack
    (keys : List UInt8)
    (hTrack : OnTrack s t)
    (hNext : t + 1 < 2 ^ 31) :
    OnTrack (racingFrame .pc keys s) (t + 1) :=
  racingTick_onTrack (racingKeys_onTrack keys hTrack) hNext

/- A run makes a tick a frame until it is over. -/
theorem racingRun_onTrack
    (frames : List (List UInt8))
    (hTrack : OnTrack s t)
    (hTicks : t + frames.length < 2 ^ 31) :
    ∃ t', t' ≤ t + frames.length ∧
      OnTrack (racingRun .pc frames s) t' := by
  induction frames generalizing s t with
  | nil => exact ⟨t, Nat.le_refl t, hTrack⟩
  | cons keys frames ih =>
      rw [List.length_cons] at hTicks ⊢
      unfold racingRun
      split_ifs
      · exact ⟨t, by omega, hTrack⟩
      · rcases ih (racingFrame_onTrack keys hTrack (by omega))
          (by omega) with ⟨t', hBefore, hTrack'⟩
        exact ⟨t', by omega, hTrack'⟩

end Ticks

------------------------------------------------------------
-- Collisions
------------------------------------------------------------

/- An obstacle of the lane is beside the car at tick `t`. -/
def Closed
    (t lane : Nat) : Prop :=
  ∃ k, 1 ≤ k ∧ 20 * k + 49 ≤ t ∧ t ≤ 20 * k + 69 ∧
    20 * k % 3 = lane

section Collisions

variable {s : Racing} {t : Nat}

theorem raceHits_obstAt
    (s : Racing)
    (t k : Nat) :
    raceHits .pc s (obstAt t k) = true ↔
      20 * k + 49 ≤ t ∧ t ≤ 20 * k + 69 ∧
        20 * k % 3 = s.raceLane := by
  have hWidth : raceLaneW .pc = 106 := rfl
  have hCar : raceCarY .pc = 150 := rfl
  unfold raceHits raceCarCenterX raceObstX obstAt
  rw [hWidth, hCar]
  simp only [Bool.and_eq_true, Bool.not_eq_true', Bool.or_eq_false_iff,
    decide_eq_true_eq, decide_eq_false_iff_not]
  omega

theorem racingRoad_hits_iff
    (s : Racing)
    (t : Nat) :
    (racingRoad t).any (raceHits .pc s) = true ↔
      Closed t s.raceLane := by
  unfold racingRoad Closed
  rw [List.any_map, List.any_eq_true]
  simp only [List.mem_filter, List.mem_range, decide_eq_true_eq,
    Function.comp_apply, raceHits_obstAt s]
  constructor
  · rintro ⟨k, ⟨_, hOn⟩, hHits⟩
    exact ⟨k, hOn.1, hHits⟩
  · rintro ⟨k, hFirst, hHits⟩
    refine ⟨k, ⟨by omega, hFirst, by omega, by omega⟩, hHits⟩

/- A frame ends the game by Esc or in a closed lane only. -/
theorem racingFrame_quit_iff
    (keys : List UInt8)
    (hTrack : OnTrack s t)
    (hNext : t + 1 < 2 ^ 31) :
    (racingFrame .pc keys s).raceQuit = true ↔
      (racingKeys keys s).raceQuit = true ∨
        Closed (t + 1) (racingKeys keys s).raceLane := by
  have hKeys := racingKeys_onTrack keys hTrack
  rcases racingTick_eq hKeys hNext with ⟨score, _, hAfter⟩
  unfold racingFrame
  rw [hAfter]
  dsimp only
  rw [Bool.or_eq_true]
  exact or_congr_right
    (racingRoad_hits_iff { racingKeys keys s with
      raceTick := Int32.ofNat (t + 1)
      raceObst := racingRoad (t + 1)
      raceScore := Int32.ofNat score } _)

/- The lane of neither of the obstacles beside the car. -/
theorem exists_open_lane
    (t : Nat) :
    ∃ lane ≤ 2, ¬ Closed t lane := by
  refine ⟨(20 * ((t - 49) / 20) + 2) % 3, by omega, ?_⟩
  rintro ⟨k, hFirst, hFrom, hTo, hSame⟩
  have hk : k = (t - 49) / 20 ∨ k + 1 = (t - 49) / 20 := by omega
  rcases hk with rfl | hk
  · omega
  · rw [← hk] at hSame
    omega

/- The keys that take the car to another lane. -/
def steer
    (lane lane' : Nat) : List UInt8 :=
  List.replicate (lane - lane') 0x4B ++
    List.replicate (lane' - lane) 0x4D

theorem racingKeys_append
    {keys : List UInt8}
    (keys' : List UInt8)
    (hNoEsc : (0x01 : UInt8) ∉ keys)
    (s : Racing) :
    racingKeys (keys ++ keys') s =
      racingKeys keys' (racingKeys keys s) := by
  induction keys generalizing s with
  | nil => rfl
  | cons sc keys ih =>
      have hEsc : ¬ sc = 0x01 := fun hSame =>
        hNoEsc (hSame ▸ List.mem_cons_self)
      have hRest : (0x01 : UInt8) ∉ keys := fun hMem =>
        hNoEsc (List.mem_cons_of_mem _ hMem)
      rw [List.cons_append, racingKeys, racingKeys]
      split_ifs
      · exact ih hRest s
      · exact ih hRest _

theorem racingKeys_left
    (n : Nat)
    (hRoom : n ≤ s.raceLane) :
    racingKeys (List.replicate n 0x4B) s =
      { s with raceLane := s.raceLane - n } := by
  induction n generalizing s with
  | zero => rfl
  | succ n ih =>
      have hMove :
          racingMove 0x4B s =
            { s with raceLane := s.raceLane - 1 } := by
        unfold racingMove
        dsimp only
        rw [if_neg (by
          rintro ⟨hKey, _⟩
          exact absurd hKey (by decide)), if_pos ⟨rfl, by omega⟩]
      rw [List.replicate_succ, racingKeys, if_neg (by decide),
        if_neg (by decide), hMove, ih (by dsimp only; omega)]
      rw [Racing.mk.injEq]
      exact ⟨by dsimp only; omega, rfl, rfl, rfl, rfl⟩

theorem racingKeys_right
    (n : Nat)
    (hRoom : s.raceLane + n ≤ 2) :
    racingKeys (List.replicate n 0x4D) s =
      { s with raceLane := s.raceLane + n } := by
  induction n generalizing s with
  | zero => rfl
  | succ n ih =>
      have hMove :
          racingMove 0x4D s =
            { s with raceLane := s.raceLane + 1 } := by
        have hNot : ¬ ((0x4D : UInt8) = 0x4B ∧ s.raceLane > 0) :=
          fun hBoth => absurd hBoth.1 (by decide)
        unfold racingMove
        dsimp only
        rw [if_neg hNot, if_pos ⟨rfl, by omega⟩]
      rw [List.replicate_succ, racingKeys, if_neg (by decide),
        if_neg (by decide), hMove, ih (by dsimp only; omega)]
      rw [Racing.mk.injEq]
      exact ⟨by dsimp only; omega, rfl, rfl, rfl, rfl⟩

theorem racingKeys_steer
    {lane : Nat}
    (hLane : lane ≤ 2) :
    racingKeys (steer s.raceLane lane) s =
      { s with raceLane := lane } := by
  unfold steer
  rw [racingKeys_append _ (fun hMem => absurd
    (List.eq_of_mem_replicate hMem) (by decide)),
    racingKeys_left _ (by omega), racingKeys_right _
      (by dsimp only; omega), Racing.mk.injEq]
  exact ⟨by dsimp only; omega, rfl, rfl, rfl, rfl⟩

/- A player who sees the next tick gets through it. -/
theorem racingFrame_escapes
    (hTrack : OnTrack s t)
    (hNext : t + 1 < 2 ^ 31)
    (hGoes : s.raceQuit = false) :
    ∃ keys, (racingFrame .pc keys s).raceQuit = false := by
  rcases exists_open_lane (t + 1) with ⟨lane, hLane, hOpen⟩
  have hKeys := racingKeys_steer (s := s) hLane
  have hQuit :=
    racingFrame_quit_iff (steer s.raceLane lane) hTrack hNext
  rw [hKeys] at hQuit
  refine ⟨steer s.raceLane lane,
    Bool.eq_false_iff.mpr fun hOver => ?_⟩
  rcases hQuit.mp hOver with hEsc | hClosed
  · exact Bool.false_ne_true (hGoes.symm.trans hEsc)
  · exact hOpen hClosed

theorem racingRun_append
    (d : Display)
    (frames frames' : List (List UInt8))
    (s : Racing) :
    racingRun d (frames ++ frames') s =
      racingRun d frames' (racingRun d frames s) := by
  induction frames generalizing s with
  | nil => rfl
  | cons keys frames ih =>
      rw [List.cons_append, racingRun, racingRun]
      split_ifs with hQuit
      · cases frames' with
        | nil => rfl
        | cons keys' frames' =>
            rw [racingRun, if_pos hQuit]
      · exact ih _

theorem racing_survivable
    (hTrack : OnTrack s t)
    (hGoes : s.raceQuit = false)
    (n : Nat)
    (hTicks : t + n < 2 ^ 31) :
    ∃ frames : List (List UInt8),
      frames.length = n ∧
        (racingRun .pc frames s).raceQuit = false ∧
        OnTrack (racingRun .pc frames s) (t + n) := by
  induction n generalizing s t with
  | zero => exact ⟨[], rfl, hGoes, hTrack⟩
  | succ n ih =>
      have hNext : t + 1 < 2 ^ 31 := by omega
      rcases racingFrame_escapes hTrack hNext hGoes with
        ⟨keys, hGoes'⟩
      rcases ih (racingFrame_onTrack keys hTrack hNext) hGoes'
        (by omega) with ⟨frames, hLength, hOver, hTrack'⟩
      rw [show t + 1 + n = t + (n + 1) by omega] at hTrack'
      refine ⟨keys :: frames, congrArg Nat.succ hLength, ?_, ?_⟩
      · rw [racingRun, hGoes]
        exact hOver
      · rw [racingRun, hGoes]
        exact hTrack'

end Collisions

/-
  A race that is still going can go on for as long as its
  tick does not wrap: however it got there, some keys take
  the car past all obstacles.
-/
theorem racingRun_escapes
    (frames : List (List UInt8))
    (hGoes : (racingRun .pc frames racingInit).raceQuit = false)
    (n : Nat)
    (hTicks : frames.length + n < 2 ^ 31) :
    ∃ more : List (List UInt8),
      more.length = n ∧
        (racingRun .pc (frames ++ more) racingInit).raceQuit =
          false ∧
        (racingRun .pc (frames ++ more) racingInit).raceTick =
          (racingRun .pc frames racingInit).raceTick +
            Int32.ofNat n := by
  rcases racingRun_onTrack frames racingInit_onTrack (by omega)
    with ⟨t, hBefore, hTrack⟩
  rcases racing_survivable hTrack hGoes n (by omega) with
    ⟨more, hLength, hOver, hTrack'⟩
  rw [← racingRun_append] at hOver hTrack'
  refine ⟨more, hLength, hOver, ?_⟩
  rw [hTrack'.tick, hTrack.tick, Int32.ofNat_add]

/- From the start, and far past the first obstacle. -/
theorem racingRun_escapes_start :
    ∃ more : List (List UInt8),
      more.length = 1000 ∧
        (racingRun .pc ([] ++ more) racingInit).raceQuit = false ∧
        (racingRun .pc ([] ++ more) racingInit).raceTick =
          (racingRun .pc [] racingInit).raceTick +
            Int32.ofNat 1000 :=
  racingRun_escapes [] rfl 1000 (by decide)

------------------------------------------------------------
-- What Is Seen
------------------------------------------------------------

/- A mark at the left of a lane. -/
def OnMark
    (d : Display)
    (px py : Nat) : Prop :=
  ∃ lane : Nat, lane ∈ List.range 4 ∧
    ∃ k : Nat,
      k ∈ List.range ((screenHeight d - 30 + 7) / 8).toNat ∧
        InBox (lane * raceLaneW d) (30 + 8 * k) 4 4 px py

instance
    (d : Display)
    (px py : Nat) :
    Decidable (OnMark d px py) :=
  inferInstanceAs (Decidable (∃ _ : Nat, _ ∧ ∃ _ : Nat, _ ∧ _))

/- The car is in front of the obstacles. -/
def racingColor
    (d : Display)
    (s : Racing)
    (px py : Nat) : UInt32 :=
  if InBox (raceCarCenterX d s - 12) (raceCarY d) 24 35 px py then
    0x0000FF
  else if
      ∃ o ∈ s.raceObst, InBox (raceObstX d o) o.y 30 25 px py then
    0xFF0000
  else if OnMark d px py then 0x444444
  else 0x000000

section Seen

variable {s : Racing} {px py : Nat}

theorem covers_marks
    (hOn : OnScreen .pc px py) :
    (∃ c ∈ (List.range 4).flatMap (racingMarks .pc),
        Covers .pc c px py) ↔
      OnMark .pc px py := by
  have hWidth : raceLaneW .pc = 106 := rfl
  have hBox :
      ∀ lane k : Nat, lane < 4 → k < 22 →
        (Covers .pc (.rectangle (signedArg (lane * raceLaneW .pc))
            (signedArg (30 + 8 * k)) 4 4 0x444444) px py ↔
          InBox (lane * raceLaneW .pc) (30 + 8 * k) 4 4 px py) :=
    fun lane k hLane hk =>
      covers_box 0x444444 (by rw [hWidth]; omega) (by omega)
        (by decide) (by decide) hOn
  unfold OnMark racingMarks
  simp only [List.mem_flatMap, List.mem_map, List.mem_range]
  constructor
  · rintro ⟨c, ⟨lane, hLane, k, hk, rfl⟩, hCovers⟩
    exact ⟨lane, hLane, k, hk, (hBox lane k hLane hk).mp hCovers⟩
  · rintro ⟨lane, hLane, k, hk, hIn⟩
    exact ⟨_, ⟨lane, hLane, k, hk, rfl⟩,
      (hBox lane k hLane hk).mpr hIn⟩

/- An obstacle that is not drawn is above the row. -/
theorem covers_obstAt
    {t k : Nat}
    (hRoad : OnRoad t k)
    (hRow : 24 ≤ py)
    (hOn : OnScreen .pc px py) :
    Covers .pc (racingObstCall .pc (obstAt t k)) px py ↔
      InBox (raceObstX .pc (obstAt t k)) (obstAt t k).y 30 25
        px py := by
  have hWidth : raceLaneW .pc = 106 := rfl
  have hSize := video_size .pc
  have hpx := hOn.width
  have hpy := hOn.height
  have hFrom := hRoad.2.1
  have hTo := hRoad.2.2
  have hx :
      (raceObstX .pc (obstAt t k)) =
        (20 * k % 3 : Nat) * 106 + 53 - 15 := rfl
  have hy :
      (obstAt t k).y = 3 * ((t : Int) + 1 - 20 * k) - 25 := rfl
  unfold racingObstCall
  refine (covers_rectangle (by omega) (by omega) (by decide)
    (by decide) (by omega) (by omega)).trans ?_
  refine and_iff_right_of_imp fun hIn => ⟨by omega, ?_⟩
  have hBelow : (py : Int) < (obstAt t k).y + 25 := hIn.below
  omega

theorem covers_obst
    {t : Nat}
    (hTrack : OnTrack s t)
    (hRow : 24 ≤ py)
    (hOn : OnScreen .pc px py) :
    (∃ c ∈ s.raceObst.map (racingObstCall .pc),
        Covers .pc c px py) ↔
      ∃ o ∈ s.raceObst,
        InBox (raceObstX .pc o) o.y 30 25 px py := by
  rw [hTrack.road]
  unfold racingRoad
  simp only [List.mem_map, List.mem_filter, decide_eq_true_eq]
  constructor
  · rintro ⟨_, ⟨_, ⟨k, hk, rfl⟩, rfl⟩, hCovers⟩
    exact ⟨_, ⟨k, hk, rfl⟩,
      (covers_obstAt hk.2 hRow hOn).mp hCovers⟩
  · rintro ⟨_, ⟨k, hk, rfl⟩, hIn⟩
    exact ⟨_, ⟨_, ⟨k, hk, rfl⟩, rfl⟩,
      (covers_obstAt hk.2 hRow hOn).mpr hIn⟩

theorem covers_car
    {t : Nat}
    (hTrack : OnTrack s t)
    (hOn : OnScreen .pc px py) :
    Covers .pc (racingCarCall .pc s) px py ↔
      InBox (raceCarCenterX .pc s - 12) (raceCarY .pc) 24 35
        px py := by
  have hLane := hTrack.lane
  have hx :
      raceCarCenterX .pc s - 24 / 2 =
        (s.raceLane : Int) * 106 + 53 - 12 := rfl
  have hy : raceCarY .pc = 150 := rfl
  exact covers_box 0x0000FF (by omega) (by omega) (by decide)
    (by decide) hOn

theorem racingTexts_elsewhere
    (hRow : 24 ≤ py) :
    ∀ c ∈ racingTexts s, WritesElsewhere py c := by
  have hFirst :
      (5 : UInt32).toNat + 8 ≤ 2 ^ 32 ∧
        (py < (5 : UInt32).toNat ∨ (5 : UInt32).toNat + 8 ≤ py) := by
    have hFive : (5 : UInt32).toNat = 5 := rfl
    omega
  have hSecond :
      (15 : UInt32).toNat + 8 ≤ 2 ^ 32 ∧
        (py < (15 : UInt32).toNat ∨
          (15 : UInt32).toNat + 8 ≤ py) := by
    have hFifteen : (15 : UInt32).toNat = 15 := rfl
    omega
  unfold racingTexts
  simp only [List.forall_mem_cons]
  exact ⟨hFirst, hSecond, hSecond, hFirst, fun c hNone =>
    absurd hNone List.not_mem_nil⟩

end Seen

end Games

end AsmOS
