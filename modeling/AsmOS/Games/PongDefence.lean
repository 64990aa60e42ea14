import AsmOS.Games.Pong

/-
  The opponent of the Pong game.

  On the screen of the PC the right paddle is always at the
  ball when the ball comes: it moves two lines a tick, the
  ball one, and after a serve towards it the ball needs 70
  ticks.

  Main declarations:
    * `PongGuarded`, `pongTick_guarded`
    * `pongRun_unbeaten`
-/

------------------------------------------------------------
-- The Guard
------------------------------------------------------------

namespace AsmOS

namespace Games

open Graphics

/- How far the ball's middle is below the follower's. -/
def pongLead
    (s : Pong) : Int :=
  s.pongBy + 3 - (s.pongRy + 14)

/-
  The follower is at the ball, or the ball was served to it
  and is far enough away.
-/
structure PongGuarded
    (s : Pong) : Prop extends PongOk .pc s where
  even : s.pongRy % 2 = 0
  kept : s.pongBx ≤ 296
  lead :
    (-12 ≤ pongLead s ∧ pongLead s ≤ 12) ∨
      s.pongVx = 2 ∧ 157 ≤ s.pongBx ∧
        s.pongBx - 157 ≤ 160 - 2 * pongLead s ∧
        s.pongBx - 157 ≤ 160 + 2 * pongLead s

section Guard

variable {s t : Pong}

theorem pongInit_guarded :
    PongGuarded (pongInit .pc) :=
  { pongInit_ok .pc with
    even := by decide
    kept := by decide
    lead := by decide }

/- The ball after the paddles, before the follower moves. -/
structure Returned
    (s t : Pong) : Prop where
  kept : t.pongBx ≤ 296
  lead :
    (-13 ≤ pongLead t ∧ pongLead t ≤ 13) ∨
      t.pongVx = 2 ∧ 157 ≤ t.pongBx ∧
        t.pongBx - 157 ≤ 164 - 2 * pongLead t ∧
        t.pongBx - 157 ≤ 164 + 2 * pongLead t
  scoreL : t.pongScoreL = s.pongScoreL

/- The ball never passes the follower. -/
theorem pongHits_returned
    (hGuarded : PongGuarded s) :
    Returned s (pongHitR .pc (pongHitL (pongMoveBall .pc s))) := by
  have hMoved := pongMoveBall_moved hGuarded.toPongOk
  rcases pongHitL_hit (pongMoveBall .pc s) with ⟨hLeft, hCaseL⟩
  rcases pongHitR_hit .pc (pongHitL (pongMoveBall .pc s)) with
    ⟨hRight, hCaseR⟩
  have hSpeed := hGuarded.speed
  have hKept := hGuarded.kept
  have hLead := hGuarded.lead
  have hPad : pongPadXR .pc = 302 := rfl
  have hBx := hMoved.bx
  have hVx := hMoved.vx
  have hNear := hMoved.near
  have hByL := hLeft.by_eq
  have hByR := hRight.by_eq
  have hRyM := hMoved.follower
  have hRyL := hLeft.follower
  have hRyR := hRight.follower
  unfold pongLead at hLead
  refine ⟨?_, ?_, ?_⟩
  · omega
  · unfold pongLead
    omega
  · rw [hRight.scoreL, hLeft.scoreL, hMoved.scoreL]

/- The follower comes two lines nearer, or it is at the edge. -/
theorem pongFollow_guarded
    (hOk : PongOk .pc t)
    (hEven : t.pongRy % 2 = 0)
    (hReturned : Returned s t) :
    PongGuarded (pongFollow .pc t) := by
  have hFollowed := pongFollow_followed .pc t
  have hOk' := pongFollow_ok hOk
  have hRy := hFollowed.ry
  have hChase := hFollowed.chase
  have hLead := hReturned.lead
  have hTop := hOk.top
  have hBottom := hOk.bottom
  have hFollowerTop := hOk.followerTop
  have hFollowerBottom := hOk.followerBottom
  have hBot : pongBot .pc = 195 := rfl
  have hBx : (pongFollow .pc t).pongBx = t.pongBx := by
    rw [hFollowed.others]
  have hBy : (pongFollow .pc t).pongBy = t.pongBy := by
    rw [hFollowed.others]
  have hVx : (pongFollow .pc t).pongVx = t.pongVx := by
    rw [hFollowed.others]
  unfold pongLead at hLead
  refine { hOk' with even := ?_, kept := ?_, lead := ?_ }
  · omega
  · rw [hBx]
    exact hReturned.kept
  · unfold pongLead
    rw [hBx, hBy, hVx]
    omega

/- The player's point may be lost, the opponent's never is. -/
theorem pongOuts_returned
    (hOk : PongOk .pc s)
    (hVolley : Volley .pc s t)
    (hReturned : Returned s t) :
    Returned s (pongOutR .pc (pongOutL .pc t)) := by
  have hTop := hOk.followerTop
  have hBottom := hOk.followerBottom
  have hFollower := hVolley.follower
  have hBot : pongBot .pc = 195 := rfl
  have hWidth : screenWidth .pc = 320 := rfl
  have hKept := hReturned.kept
  have hIn : Returned s (pongOutL .pc t) := by
    rcases pongOutL_cases .pc t with ⟨_, hSame⟩ | ⟨_, hServe⟩
    · rw [hSame]
      exact hReturned
    · rw [hServe]
      refine ⟨show (157 : Int) ≤ 296 by decide,
        .inr ⟨rfl, show (157 : Int) ≤ 157 by decide, ?_, ?_⟩,
        hReturned.scoreL⟩
      · change 157 - 157 ≤ 164 - 2 * ((97 : Int) + 3 - (t.pongRy + 14))
        omega
      · change 157 - 157 ≤ 164 + 2 * ((97 : Int) + 3 - (t.pongRy + 14))
        omega
  have hKept' := hIn.kept
  rcases pongOutR_cases .pc (pongOutL .pc t) with
    ⟨_, hSame⟩ | ⟨hOut, _⟩
  · rw [hSame]
    exact hIn
  · omega

theorem pongOuts_ry
    (d : Display)
    (t : Pong) :
    (pongOutR d (pongOutL d t)).pongRy = t.pongRy := by
  have hLeft : (pongOutL d t).pongRy = t.pongRy := by
    rcases pongOutL_cases d t with ⟨_, hSame⟩ | ⟨_, hServe⟩
    · rw [hSame]
    · rw [hServe]
      rfl
  rcases pongOutR_cases d (pongOutL d t) with
    ⟨_, hSame⟩ | ⟨_, hServe⟩
  · rw [hSame]
    exact hLeft
  · rw [hServe]
    exact hLeft

theorem pongTick_guarded
    (hGuarded : PongGuarded s) :
    PongGuarded (pongTick .pc s) ∧
      (pongTick .pc s).pongScoreL = s.pongScoreL := by
  have hVolley := pongHits_volley hGuarded.toPongOk
  have hReturned :=
    pongOuts_returned hGuarded.toPongOk hVolley
      (pongHits_returned hGuarded)
  have hOk := pongOuts_ok hGuarded.toPongOk hVolley
  refine ⟨pongFollow_guarded hOk ?_ hReturned, ?_⟩
  · rw [pongOuts_ry, hVolley.follower]
    exact hGuarded.even
  · have hOthers := (pongFollow_followed .pc
      (pongOutR .pc (pongOutL .pc
        (pongHitR .pc (pongHitL (pongMoveBall .pc s)))))).others
    unfold pongTick
    rw [hOthers]
    exact hReturned.scoreL

/- The keys do not matter to the follower. -/
structure SameRally
    (s t : Pong) : Prop where
  bx : t.pongBx = s.pongBx
  by_eq : t.pongBy = s.pongBy
  vx : t.pongVx = s.pongVx
  ry : t.pongRy = s.pongRy
  scoreL : t.pongScoreL = s.pongScoreL

theorem pongMove_sameRally
    (d : Display)
    (sc : UInt8)
    (s : Pong) :
    SameRally s (pongMove d sc s) := by
  have hSelf : SameRally s s := ⟨rfl, rfl, rfl, rfl, rfl⟩
  rcases pongMove_cases d sc s with hSame | hUp | hDown
  · rw [hSame]
    exact hSelf
  · rw [hUp]
    unfold pongUp
    split_ifs
    · exact ⟨rfl, rfl, rfl, rfl, rfl⟩
    · exact hSelf
  · rw [hDown]
    unfold pongDown
    split_ifs
    · exact ⟨rfl, rfl, rfl, rfl, rfl⟩
    · exact hSelf

theorem PongGuarded.same
    (hGuarded : PongGuarded s)
    (hOk : PongOk .pc t)
    (hSame : SameRally s t) :
    PongGuarded t := by
  have hLead := hGuarded.lead
  unfold pongLead at hLead
  refine { hOk with even := ?_, kept := ?_, lead := ?_ }
  · rw [hSame.ry]
    exact hGuarded.even
  · rw [hSame.bx]
    exact hGuarded.kept
  · unfold pongLead
    rw [hSame.bx, hSame.by_eq, hSame.vx, hSame.ry]
    exact hLead

theorem pongKeys_guarded
    (keys : List UInt8)
    (hGuarded : PongGuarded s) :
    PongGuarded (pongKeys .pc keys s) ∧
      (pongKeys .pc keys s).pongScoreL = s.pongScoreL := by
  induction keys generalizing s with
  | nil => exact ⟨hGuarded, rfl⟩
  | cons sc keys ih =>
      unfold pongKeys
      split_ifs
      · exact ih hGuarded
      · exact ⟨hGuarded.same { hGuarded.toPongOk with }
          ⟨rfl, rfl, rfl, rfl, rfl⟩, rfl⟩
      · have hSame := pongMove_sameRally .pc sc s
        rcases ih (hGuarded.same
          (pongMove_ok sc hGuarded.toPongOk) hSame) with
          ⟨hKept, hScore⟩
        exact ⟨hKept, hScore.trans hSame.scoreL⟩

theorem pongRun_guarded
    (frames : List (List UInt8))
    (hGuarded : PongGuarded s) :
    (pongRun .pc frames s).pongScoreL = s.pongScoreL := by
  induction frames generalizing s with
  | nil => rfl
  | cons keys frames ih =>
      unfold pongRun
      split_ifs
      · rfl
      · rcases pongKeys_guarded keys hGuarded with
          ⟨hKeys, hKeysScore⟩
        rcases pongTick_guarded hKeys with ⟨hTick, hTickScore⟩
        exact (ih hTick).trans (hTickScore.trans hKeysScore)

end Guard

/-
  On the PC the player never gets a point, whatever keys are
  pressed and however long the game is.
-/
theorem pongRun_unbeaten
    (frames : List (List UInt8)) :
    (pongRun .pc frames (pongInit .pc)).pongScoreL = 0 :=
  pongRun_guarded frames pongInit_guarded

end Games

end AsmOS
