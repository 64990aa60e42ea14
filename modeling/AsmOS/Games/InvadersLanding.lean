import AsmOS.Base.StepRuns
import AsmOS.Games.InvadersInvariant

/-
  Landings of the aliens.

  A landing ends the game where it is one of the first column
  with aliens.  An alien of another column can be further
  down, and passes the line.

  Main declarations:
    * `LandingSeen`, `spaceInvadersStep_up_iff`
    * `invaders_landing_iff`
    * `Marching`, `invaders_land_unseen`
-/

------------------------------------------------------------
-- Runs
------------------------------------------------------------

namespace AsmOS

namespace Games

open Graphics

/-
  When the aliens move down to the line, with a bullet that
  has moved already, those of the first column do.
-/
def LandingSeen
    (d : Display)
    (s : Invaders) : InvadersEvent → Prop
| .key _ => True
| .tick =>
    s.quit = false → s.alienTick + 1 ≥ 25 →
      siAtEdge d (siBullet s) = true →
        (∃ c r, (siBullet s).aliens c r = true ∧
          atLine d (lowered (siBullet s)) r = true) →
          FirstColumnLands d (lowered (siBullet s))

/- A step keeps the aliens up exactly if a landing is seen. -/
theorem spaceInvadersStep_up_iff
    {d : Display}
    {s : Invaders}
    (hOk : InvadersOk d s)
    (hUp : AliensUp d s)
    (event : InvadersEvent) :
    InvadersOk d (spaceInvadersStep d s event) ∧
      (AliensUp d (spaceInvadersStep d s event) ↔
        LandingSeen d s event) := by
  cases event with
  | key sc =>
      have hFewer := siKey_fewer d sc s
      exact ⟨hFewer.ok hOk, iff_of_true (hFewer.up hUp) trivial⟩
  | tick =>
      have hFewer := siBullet_fewer s
      have hFields := siBullet_fields s
      change
        InvadersOk d (spaceInvadersTick d s) ∧
          (AliensUp d (spaceInvadersTick d s) ↔ _)
      by_cases hDue : s.alienTick + 1 ≥ 25
      · let u := { siBullet s with alienTick := 0 }
        have hOkU : InvadersOk d u :=
          ⟨(hFewer.ok hOk).speed, (hFewer.ok hOk).inside⟩
        have hUpU : AliensUp d u := hFewer.up hUp
        have hTick :
            spaceInvadersTick d s = siEnd (siMarch d u) := by
          unfold spaceInvadersTick
          dsimp only
          rw [hFields.2, if_pos hDue]
        have hQuit : u.quit = s.quit := hFields.1
        have hMarch := siMarch_up_iff hOkU hUpU
        rw [hQuit] at hMarch
        rw [hTick, siEnd_up_iff, hMarch]
        refine ⟨(siEnd_fewer _).ok (siMarch_ok hOkU), ?_⟩
        exact forall_congr' fun _ =>
          ⟨fun hSeen _ => hSeen, fun hSeen => hSeen hDue⟩
      · let u :=
          { siBullet s with alienTick := s.alienTick + 1 }
        have hOkU : InvadersOk d u :=
          ⟨(hFewer.ok hOk).speed, (hFewer.ok hOk).inside⟩
        have hUpU : AliensUp d u := hFewer.up hUp
        have hTick : spaceInvadersTick d s = siEnd u := by
          unfold spaceInvadersTick
          dsimp only
          rw [hFields.2, if_neg hDue]
        rw [hTick, siEnd_up_iff]
        exact ⟨(siEnd_fewer u).ok hOkU,
          iff_of_true hUpU fun _ hTest => absurd hTest hDue⟩

theorem screen_least
    (d : Display) :
    320 ≤ screenWidth d ∧ 200 ≤ screenHeight d := by
  cases d with
  | pc => decide
  | ps2 => decide

theorem spaceInvadersInit_ok
    (d : Display)
    (s : Invaders) :
    InvadersOk d (spaceInvadersInit d s) := by
  refine ⟨.inl rfl, fun c _ _ => ?_⟩
  have hColumn := c.isLt
  have hWidth := (screen_least d).1
  have hPlace :
      alienX (spaceInvadersInit d s) c =
        20 + 0 + c.val * (14 + 2) :=
    rfl
  rw [hPlace]
  exact ⟨by omega, by omega⟩

/-
  In a run from `space_invaders_init` no alien passes the line
  or a side of the screen while the game goes on, exactly if
  every landing is one of the first column.
-/
theorem invaders_landing_iff
    (d : Display)
    (s : Invaders)
    (events : List InvadersEvent) :
    StepRuns.EveryState
        (fun s event => some (spaceInvadersStep d s event))
        (AliensUp d) (spaceInvadersInit d s) events ↔
      StepRuns.EveryStep
        (fun s event => some (spaceInvadersStep d s event))
        (LandingSeen d) (spaceInvadersInit d s) events := by
  have hOk := spaceInvadersInit_ok d s
  have hUp : AliensUp d (spaceInvadersInit d s) := by
    rw [aliensUp_iff hOk]
    intro _ c r _
    rw [atLine_iff, not_not]
    have hRow := r.isLt
    have hHeight := (screen_least d).2
    change 20 + (0 : Int) + r.val * (10 + 2) + 10 < _
    omega
  refine StepRuns.everyState_iff_everyStep ?_ hOk hUp events
  rintro s event t hOk hUp hStep
  cases hStep
  exact spaceInvadersStep_up_iff hOk hUp event

------------------------------------------------------------
-- Landings That Are Not Seen
------------------------------------------------------------

/- So many ticks, with no keys. -/
def siTicks
    (d : Display)
    (n : Nat)
    (s : Invaders) : Invaders :=
  (List.replicate n .tick).foldl (spaceInvadersStep d) s

section Waiting

variable {d : Display} {s : Invaders}

theorem foldl_ticks
    (n : Nat)
    (s : Invaders) :
    (List.replicate n .tick).foldl (spaceInvadersStep d) s =
      siTicks d n s :=
  rfl

theorem siTicks_add
    (m n : Nat)
    (s : Invaders) :
    siTicks d (m + n) s = siTicks d n (siTicks d m s) := by
  unfold siTicks
  rw [List.replicate_add, List.foldl_append]

theorem siBullet_idle
    (hIdle : s.bulletActive = false) :
    siBullet s = { s with bulletY := s.bulletY - 4 } := by
  have hFlight :
      siFlight s = { s with bulletY := s.bulletY - 4 } := by
    unfold siFlight
    dsimp only
    split_ifs
    · rw [hIdle]
    · rfl
  unfold siBullet siHit
  rw [hFlight, if_neg]
  rw [hIdle]
  exact Bool.false_ne_true

theorem siEnd_live
    {c : Fin 8}
    {r : Fin 3}
    (hLive : s.aliens c r = true) :
    siEnd s = s :=
  if_pos (List.any_eq_true.mpr
    ⟨(c, r), mem_alienCells (c, r), hLive⟩)

theorem tick_wait
    (hIdle : s.bulletActive = false)
    {c : Fin 8}
    {r : Fin 3}
    (hLive : s.aliens c r = true)
    (hWait : s.alienTick + 1 < 25) :
    spaceInvadersTick d s =
      { s with
        alienTick := s.alienTick + 1
        bulletY := s.bulletY - 4 } := by
  unfold spaceInvadersTick
  rw [siBullet_idle hIdle]
  dsimp only
  rw [if_neg (by omega)]
  exact siEnd_live hLive

theorem tick_march
    (hIdle : s.bulletActive = false)
    (hDue : s.alienTick + 1 ≥ 25) :
    spaceInvadersTick d s =
      siEnd
        (siMarch d
          { s with
            alienTick := 0
            bulletY := s.bulletY - 4 }) := by
  unfold spaceInvadersTick
  rw [siBullet_idle hIdle]
  dsimp only
  rw [if_pos hDue]

/- Without a bullet nothing happens between two moves. -/
theorem siTicks_wait
    (hIdle : s.bulletActive = false)
    {c : Fin 8}
    {r : Fin 3}
    (hLive : s.aliens c r = true)
    (n : Nat)
    (hWait : s.alienTick + n < 25) :
    siTicks d n s =
      { s with
        alienTick := s.alienTick + n
        bulletY := s.bulletY - 4 * n } := by
  induction n with
  | zero =>
      have hPlace : s.bulletY - 4 * (0 : Nat) = s.bulletY := by
        omega
      rw [hPlace]
      rfl
  | succ n ih =>
      have hPlace :
          s.bulletY - 4 * (n : Nat) - 4 =
            s.bulletY - 4 * (n + 1 : Nat) := by
        omega
      rw [siTicks_add, ih (by omega), ← hPlace]
      exact tick_wait
        (s :=
          { s with
            alienTick := s.alienTick + n
            bulletY := s.bulletY - 4 * n })
        hIdle hLive hWait

/- The aliens move once in 25 ticks. -/
theorem siTicks_march
    (hIdle : s.bulletActive = false)
    {c : Fin 8}
    {r : Fin 3}
    (hLive : s.aliens c r = true)
    (hStart : s.alienTick = 0) :
    siTicks d 25 s =
      siEnd
        (siMarch d { s with bulletY := s.bulletY - 100 }) := by
  have hSplit : siTicks d 25 s = siTicks d 1 (siTicks d 24 s) :=
    siTicks_add 24 1 s
  have hPlace :
      s.bulletY - 4 * (24 : Nat) - 4 = s.bulletY - 100 := by
    omega
  rw [hSplit, siTicks_wait hIdle hLive 24 (by omega), ← hPlace]
  refine
    (tick_march
      (s :=
        { s with
          alienTick := s.alienTick + 24
          bulletY := s.bulletY - 4 * (24 : Nat) })
      hIdle ?_).trans ?_
  · dsimp only
    omega
  · rw [← hStart]

end Waiting

/- All but the lower two aliens of the first column. -/
def raggedAliens : Fin 8 → Fin 3 → Bool :=
  fun c r => !(c = 0 && r ≠ 0)

theorem ragged_first :
    ∀ r, raggedAliens 0 r = true → r = 0 := by
  decide

/- The ragged aliens on the PC's screen, right after a move. -/
structure Marching
    (dx ox oy : Int)
    (s : Invaders) : Prop where
  idle : s.bulletActive = false
  tick : s.alienTick = 0
  going : s.quit = false
  speed : s.alienDx = dx
  left : s.alienOx = ox
  top : s.alienOy = oy
  aliens : ∀ c r, s.aliens c r = raggedAliens c r

section Ragged

variable {dx ox oy : Int} {s : Invaders}

theorem Marching.march
    (hMarching : Marching dx ox oy s) :
    siTicks .pc 25 s =
      siMarch .pc { s with bulletY := s.bulletY - 100 } := by
  have hLive : s.aliens 0 0 = true := hMarching.aliens 0 0
  rw [siTicks_march hMarching.idle hLive hMarching.tick]
  refine siEnd_live (c := 0) (r := 0) ?_
  unfold siMarch
  split_ifs
  · exact hLive
  · exact hLive

/- The first and the last column are where the screen ends. -/
theorem Marching.edge_iff
    (hMarching : Marching dx ox oy s)
    (y : Int) :
    siAtEdge .pc { s with bulletY := y } = true ↔
      dx < 0 ∧ ox + dx ≤ -20 ∨ 0 < dx ∧ 174 ≤ ox + dx := by
  have hWidth : screenWidth .pc = 320 := rfl
  have hSpeed := hMarching.speed
  have hLeft := hMarching.left
  rw [siAtEdge_iff, hWidth]
  constructor
  · rintro ⟨c, r, _, hOut⟩
    have hColumn := c.isLt
    unfold alienX at hOut
    dsimp only at hOut
    omega
  · have hColumn : (7 : Fin 8).val = 7 := rfl
    rintro (⟨hDx, hOut⟩ | ⟨hDx, hOut⟩)
    · refine ⟨0, 0, hMarching.aliens 0 0, .inl ?_⟩
      unfold alienX
      dsimp only
      exact ⟨by omega, by omega⟩
    · refine ⟨7, 0, hMarching.aliens 7 0, .inr ?_⟩
      unfold alienX
      dsimp only
      exact ⟨by omega, by omega⟩

theorem Marching.side
    (hMarching : Marching dx ox oy s)
    (hFree :
      ¬ (dx < 0 ∧ ox + dx ≤ -20 ∨ 0 < dx ∧ 174 ≤ ox + dx)) :
    Marching dx (ox + dx) oy (siTicks .pc 25 s) := by
  have hEdge :
      ¬ siAtEdge .pc { s with bulletY := s.bulletY - 100 } =
        true :=
    fun hTest => hFree ((hMarching.edge_iff _).mp hTest)
  rw [hMarching.march]
  unfold siMarch
  rw [if_neg hEdge]
  refine ⟨hMarching.idle, hMarching.tick, hMarching.going,
    hMarching.speed, ?_, hMarching.top, hMarching.aliens⟩
  dsimp only
  rw [hMarching.left, hMarching.speed]

/- The only alien of the first column is in the upper row. -/
theorem Marching.down
    (hMarching : Marching dx ox oy s)
    (hEdge :
      dx < 0 ∧ ox + dx ≤ -20 ∨ 0 < dx ∧ 174 ≤ ox + dx)
    (hAbove : oy + 42 < 183) :
    Marching (-dx) ox (oy + 12) (siTicks .pc 25 s) := by
  have hUnseen :
      ∀ u : Invaders, u.aliens = s.aliens →
        u.alienOy = oy + 12 → siLanded .pc u = false := by
    intro u hAliens hTop
    rw [← Bool.not_eq_true, siLanded_iff]
    rintro ⟨c, r, hLive, hLine, hNone⟩
    have hHeight : screenHeight .pc = 200 := rfl
    rw [atLine_iff, hHeight] at hLine
    unfold alienY at hLine
    rw [hAliens, hMarching.aliens] at hLive
    by_cases hFirst : c = 0
    · have hRow : r = 0 := ragged_first r (hFirst ▸ hLive)
      have hZero : (0 : Fin 3).val = 0 := rfl
      rw [hRow, hZero] at hLine
      omega
    · have hDead := hNone 0 (Fin.pos_iff_ne_zero.mpr hFirst) 0
      rw [hAliens, hMarching.aliens] at hDead
      exact absurd hDead (by decide)
  rw [hMarching.march]
  unfold siMarch
  rw [if_pos ((hMarching.edge_iff _).mpr hEdge)]
  dsimp only
  refine ⟨hMarching.idle, hMarching.tick, ?_, ?_,
    hMarching.left, ?_, hMarching.aliens⟩
  · dsimp only
    rw [hMarching.going, Bool.false_or]
    exact hUnseen _ rfl (congrArg (· + 12) hMarching.top)
  · exact congrArg Neg.neg hMarching.speed
  · exact congrArg (· + 12) hMarching.top

/- `n` moves to the side, none of which is at the edge. -/
theorem Marching.sides
    (hMarching : Marching dx ox oy s)
    (hSpeed : dx = 2 ∨ dx = -2)
    (hFirst : -18 ≤ ox ∧ ox ≤ 172)
    (n : Nat)
    (hLast : -18 ≤ ox + dx * n ∧ ox + dx * n ≤ 172) :
    Marching dx (ox + dx * n) oy (siTicks .pc (25 * n) s) := by
  induction n with
  | zero =>
      have hPlace : ox + dx * (0 : Nat) = ox := by
        omega
      rw [hPlace]
      exact hMarching
  | succ n ih =>
      have hPlace :
          ox + dx * (n + 1 : Nat) = ox + dx * n + dx := by
        rw [Int.natCast_succ, Int.mul_add, Int.mul_one,
          Int.add_assoc]
      rw [hPlace] at hLast ⊢
      have hBefore : -18 ≤ ox + dx * n ∧ ox + dx * n ≤ 172 := by
        rcases hSpeed with rfl | rfl
        · exact ⟨by omega, by omega⟩
        · exact ⟨by omega, by omega⟩
      rw [Nat.mul_succ, siTicks_add]
      exact (ih hBefore).side (by omega)

/- From the right to the left, back, and two rows down. -/
theorem Marching.lap
    (hMarching : Marching (-2) 172 oy s)
    (hAbove : oy + 54 < 183) :
    Marching (-2) 172 (oy + 24) (siTicks .pc (25 * 192) s) := by
  have hLeft :
      Marching (-2) (-18) oy (siTicks .pc (25 * 95) s) :=
    hMarching.sides (.inr rfl) (by decide) 95 (by decide)
  have hDown := hLeft.down (by decide) (by omega)
  have hRight :
      Marching 2 172 (oy + 12)
        (siTicks .pc (25 * 95)
          (siTicks .pc 25 (siTicks .pc (25 * 95) s))) :=
    hDown.sides (.inl rfl) (by decide) 95 (by decide)
  have hLast := hRight.down (by decide) (by omega)
  have hTicks : 25 * 192 = 25 * 95 + 25 + 25 * 95 + 25 := rfl
  have hRow : oy + 24 = oy + 12 + 12 := by
    omega
  rw [hTicks, siTicks_add, siTicks_add, siTicks_add, hRow]
  exact hLast

theorem Marching.laps
    (hMarching : Marching (-2) 172 oy s)
    (n : Nat)
    (hAbove : oy + 24 * n + 30 < 183) :
    Marching (-2) 172 (oy + 24 * n)
      (siTicks .pc (25 * 192 * n) s) := by
  induction n with
  | zero =>
      have hRow : oy + 24 * (0 : Nat) = oy := by
        omega
      rw [hRow]
      exact hMarching
  | succ n ih =>
      have hRow :
          oy + 24 * (n + 1 : Nat) = oy + 24 * n + 24 := by
        omega
      rw [hRow] at hAbove ⊢
      rw [Nat.mul_succ, siTicks_add]
      exact (ih (by omega)).lap (by omega)

end Ragged

/- The game before it is first started. -/
def invadersStatics : Invaders :=
  { px := 0
    alienDx := 0
    alienOx := 0
    alienOy := 0
    alienTick := 0
    aliens := fun _ _ => false
    bulletX := 0
    bulletY := 0
    bulletActive := false
    score := 0
    quit := false
    win := false }

/- To the first column, where two aliens are shot. -/
def shootKeys : List InvadersEvent :=
  List.replicate 16 (.key 0x4B) ++ [.key 0x39] ++
    List.replicate 35 .tick ++ [.key 0x39] ++
    List.replicate 40 .tick

/- Then the aliens come down, with no more keys. -/
def landKeys : List InvadersEvent :=
  shootKeys ++ List.replicate (25 * 1044) .tick

theorem shootKeys_run :
    Marching 2 6 0
      (shootKeys.foldl (spaceInvadersStep .pc)
        (spaceInvadersInit .pc invadersStatics)) := by
  generalize hEnd :
    shootKeys.foldl (spaceInvadersStep .pc)
      (spaceInvadersInit .pc invadersStatics) = s
  have hFields :
      (s.bulletActive, s.alienTick, s.quit, s.alienDx,
          s.alienOx, s.alienOy) =
        (false, 0, false, 2, 6, 0) := by
    rw [← hEnd]
    decide +kernel
  have hAliens :
      ∀ c r, s.aliens c r = raggedAliens c r := by
    rw [← hEnd]
    decide +kernel
  rw [Prod.mk.injEq, Prod.mk.injEq, Prod.mk.injEq,
    Prod.mk.injEq, Prod.mk.injEq] at hFields
  rcases hFields with
    ⟨hIdle, hTick, hGoing, hSpeed, hLeft, hTop⟩
  exact ⟨hIdle, hTick, hGoing, hSpeed, hLeft, hTop, hAliens⟩

/-
  An alien of the second column comes down to the line while
  the first column is still above it, and the game goes on.
-/
theorem invaders_land_unseen :
    ¬ StepRuns.EveryState
      (fun s event => some (spaceInvadersStep .pc s event))
      (AliensUp .pc) (spaceInvadersInit .pc invadersStatics)
      landKeys := by
  intro hAll
  have hRight := shootKeys_run.sides (.inl rfl) (by decide) 83
    (by decide)
  have hDown := hRight.down (by decide) (by decide)
  have hLanded := hDown.laps 5 (by decide)
  have hTicks : 25 * 1044 = 25 * 83 + 25 + 25 * 192 * 5 := rfl
  have hEnd :
      Marching (-2) 172 132
        (landKeys.foldl (spaceInvadersStep .pc)
          (spaceInvadersInit .pc invadersStatics)) := by
    unfold landKeys
    rw [List.foldl_append, foldl_ticks, hTicks, siTicks_add,
      siTicks_add]
    exact hLanded
  have hPlace :=
    (hAll.last_run hEnd.going 1 2 (hEnd.aliens 1 2)).1
  have hHeight : screenHeight .pc = 200 := rfl
  have hRow : (2 : Fin 3).val = 2 := rfl
  unfold alienY at hPlace
  rw [hEnd.top, hHeight, hRow] at hPlace
  exact absurd hPlace (by decide)

end Games

end AsmOS
