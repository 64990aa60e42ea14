import AsmOS.Games.Invaders
import AsmOS.Graphics.Picture

/-
  The Pong game (`src/game.c`): the left paddle follows the
  keys, the right one follows the ball.

  A run is a list of frames, each with the scancodes that the
  keyboard has then.  The points are counted without a bound.

  Main declarations:
    * `Pong`, `pongInit`, `pongTick`, `pongDraw`
    * `pongFrame`, `pongRun`
    * `PongOk`, `pongRun_ok`
    * `pongRun_drawn`
-/

------------------------------------------------------------
-- State
------------------------------------------------------------

namespace AsmOS

namespace Games

open ByteMem Graphics

/- The static variables of the game. -/
structure Pong where
  pongLy : Int
  pongRy : Int
  pongBx : Int
  pongBy : Int
  pongVx : Int
  pongVy : Int
  pongScoreL : Nat
  pongScoreR : Nat
  pongQuit : Bool
deriving DecidableEq

/- `PONG_PAD_X_R` and `PONG_BOT`. -/
def pongPadXR
    (d : Display) : Int :=
  screenWidth d - 12 - 6

def pongBot
    (d : Display) : Int :=
  screenHeight d - 5

/- `pong_init`. -/
def pongInit
    (d : Display) : Pong :=
  { pongLy := screenHeight d / 2 - 28 / 2
    pongRy := screenHeight d / 2 - 28 / 2
    pongBx := screenWidth d / 2 - 6 / 2
    pongBy := screenHeight d / 2 - 6 / 2
    pongVx := 2
    pongVy := 1
    pongScoreL := 0
    pongScoreR := 0
    pongQuit := false }

------------------------------------------------------------
-- A Tick
------------------------------------------------------------

/- The ball moves, and bounces off the top and the bottom. -/
def pongMoveBall
    (d : Display)
    (s : Pong) : Pong :=
  let s :=
    { s with
      pongBx := s.pongBx + s.pongVx
      pongBy := s.pongBy + s.pongVy }
  let s :=
    if s.pongBy ≤ 25 then
      { s with pongBy := 25, pongVy := -s.pongVy }
    else s
  if s.pongBy + 6 ≥ pongBot d then
    { s with pongBy := pongBot d - 6, pongVy := -s.pongVy }
  else s

/- The ball at the left paddle, then at the right one. -/
def pongHitL
    (s : Pong) : Pong :=
  if s.pongBx ≤ 12 + 6 ∧ s.pongBy + 6 ≥ s.pongLy ∧
      s.pongBy ≤ s.pongLy + 28 then
    { s with pongBx := 12 + 6, pongVx := -s.pongVx }
  else s

def pongHitR
    (d : Display)
    (s : Pong) : Pong :=
  if s.pongBx + 6 ≥ pongPadXR d ∧ s.pongBy + 6 ≥ s.pongRy ∧
      s.pongBy ≤ s.pongRy + 28 then
    { s with pongBx := pongPadXR d - 6, pongVx := -s.pongVx }
  else s

/- The ball in the middle of the screen. -/
def pongServe
    (d : Display)
    (vx : Int)
    (s : Pong) : Pong :=
  { s with
    pongBx := screenWidth d / 2 - 6 / 2
    pongBy := screenHeight d / 2 - 6 / 2
    pongVx := vx
    pongVy := 1 }

/- The ball behind the left edge, then behind the right one. -/
def pongOutL
    (d : Display)
    (s : Pong) : Pong :=
  if s.pongBx < 0 then
    pongServe d 2 { s with pongScoreR := s.pongScoreR + 1 }
  else s

def pongOutR
    (d : Display)
    (s : Pong) : Pong :=
  if s.pongBx + 6 > screenWidth d then
    pongServe d (-2) { s with pongScoreL := s.pongScoreL + 1 }
  else s

/- The right paddle follows the ball. -/
def pongFollow
    (d : Display)
    (s : Pong) : Pong :=
  let s :=
    if s.pongRy + 28 / 2 < s.pongBy + 6 / 2 ∧
        s.pongRy + 28 < pongBot d - 2 then
      { s with pongRy := s.pongRy + 2 }
    else s
  if s.pongRy + 28 / 2 > s.pongBy + 6 / 2 ∧ s.pongRy > 25 + 2 then
    { s with pongRy := s.pongRy - 2 }
  else s

/- `pong_tick`. -/
def pongTick
    (d : Display)
    (s : Pong) : Pong :=
  pongFollow d
    (pongOutR d (pongOutL d
      (pongHitR d (pongHitL (pongMoveBall d s)))))

------------------------------------------------------------
-- Frames
------------------------------------------------------------

def pongUp
    (s : Pong) : Pong :=
  if s.pongLy > 25 + 2 then { s with pongLy := s.pongLy - 8 }
  else s

def pongDown
    (d : Display)
    (s : Pong) : Pong :=
  if s.pongLy + 28 < pongBot d - 2 then
    { s with pongLy := s.pongLy + 8 }
  else s

/- The scancode tests of `pong_run`, but for Esc. -/
def pongMove
    (d : Display)
    (sc : UInt8)
    (s : Pong) : Pong :=
  let s := if sc = 0x11 then pongUp s else s
  let s := if sc = 0x1F then pongDown d s else s
  let s := if sc = 0x48 then pongUp s else s
  if sc = 0x50 then pongDown d s else s

/- The scancodes of a frame; those after Esc are not read. -/
def pongKeys
    (d : Display) : List UInt8 → Pong → Pong
| [], s => s
| sc :: keys, s =>
    if sc &&& 0x80 ≠ 0 then pongKeys d keys s
    else if sc = 0x01 then { s with pongQuit := true }
    else pongKeys d keys (pongMove d sc s)

/- One turn of the loop of `pong_run`. -/
def pongFrame
    (d : Display)
    (keys : List UInt8)
    (s : Pong) : Pong :=
  pongTick d (pongKeys d keys s)

/- The loop of `pong_run`. -/
def pongRun
    (d : Display) : List (List UInt8) → Pong → Pong
| [], s => s
| keys :: frames, s =>
    if s.pongQuit then s
    else pongRun d frames (pongFrame d keys s)

/- The calls of `pong_draw` that draw the field, and the rest. -/
def pongField
    (d : Display)
    (s : Pong) : List DrawCall :=
  [.rectangle (signedArg 12) (signedArg s.pongLy) 6 28 0xFFFFFF,
    .rectangle (signedArg (pongPadXR d)) (signedArg s.pongRy) 6 28
      0xFFFFFF,
    .rectangle (signedArg s.pongBx) (signedArg s.pongBy) 6 6
      0x00FF00]

def pongTexts
    (s : Pong) : List DrawCall :=
  [.text 5 5 (ascii "Pong") 0xFFFFFF,
    .text 80 5 (ascii "L:") 0xAAAAAA,
    .number 95 5 (UInt32.ofNat s.pongScoreL) 0xFFFFFF,
    .text 140 5 (ascii "R:") 0xAAAAAA,
    .number 155 5 (UInt32.ofNat s.pongScoreR) 0xFFFFFF,
    .text 100 190 (ascii "W/S paddle  Esc quit") 0x666666]

/- `pong_draw`. -/
def pongDraw
    (d : Display)
    (s : Pong) : List DrawCall :=
  .clear :: (pongField d s ++ pongTexts s)

------------------------------------------------------------
-- Places
------------------------------------------------------------

/- The ball and the paddles are on the screen. -/
structure PongOk
    (d : Display)
    (s : Pong) : Prop where
  left : 0 ≤ s.pongBx
  right : s.pongBx + 6 ≤ screenWidth d
  top : 25 ≤ s.pongBy
  bottom : s.pongBy + 6 ≤ pongBot d
  speed : s.pongVx = 2 ∨ s.pongVx = -2
  slope : s.pongVy = 1 ∨ s.pongVy = -1
  playerTop : 20 ≤ s.pongLy
  playerBottom : s.pongLy + 28 ≤ screenHeight d
  followerTop : 26 ≤ s.pongRy
  followerBottom : s.pongRy + 28 < pongBot d

theorem screen_size
    (d : Display) :
    screenWidth d = 320 ∧ screenHeight d = 200 ∨
      screenWidth d = 640 ∧ screenHeight d = 480 := by
  cases d
  · exact .inl ⟨rfl, rfl⟩
  · exact .inr ⟨rfl, rfl⟩

section Places

variable {d : Display} {s : Pong}

theorem pongInit_ok
    (d : Display) :
    PongOk d (pongInit d) := by
  cases d <;> constructor <;> decide

/- All but the ball is the same. -/
structure BallOnly
    (s t : Pong) : Prop where
  player : t.pongLy = s.pongLy
  follower : t.pongRy = s.pongRy
  quit : t.pongQuit = s.pongQuit

/- What the ball does in its move. -/
structure Moved
    (d : Display)
    (s t : Pong) : Prop extends BallOnly s t where
  bx : t.pongBx = s.pongBx + s.pongVx
  vx : t.pongVx = s.pongVx
  top : 25 ≤ t.pongBy
  bottom : t.pongBy + 6 ≤ pongBot d
  slope : t.pongVy = 1 ∨ t.pongVy = -1
  near : s.pongBy - 1 ≤ t.pongBy ∧ t.pongBy ≤ s.pongBy + 1
  scoreL : t.pongScoreL = s.pongScoreL

theorem pongMoveBall_moved
    (hOk : PongOk d s) :
    Moved d s (pongMoveBall d s) := by
  have hTop := hOk.top
  have hBottom := hOk.bottom
  have hSlope := hOk.slope
  have hBot : 100 ≤ pongBot d := by
    cases d <;> decide
  unfold pongMoveBall
  dsimp only
  split_ifs with hHigh hLow hLow <;> dsimp only at hHigh hLow
  · omega
  all_goals
    refine ⟨⟨rfl, rfl, rfl⟩, rfl, rfl, ?_, ?_, ?_, ?_, rfl⟩ <;>
      dsimp only <;> omega

/- A paddle turns the ball round, or leaves it. -/
structure Hit
    (s t : Pong) : Prop extends BallOnly s t where
  by_eq : t.pongBy = s.pongBy
  vy_eq : t.pongVy = s.pongVy
  scoreL : t.pongScoreL = s.pongScoreL

theorem pongHitL_hit
    (s : Pong) :
    Hit s (pongHitL s) ∧
      ((pongHitL s).pongBx = s.pongBx ∧
          (pongHitL s).pongVx = s.pongVx ∨
        s.pongBx ≤ 18 ∧ (pongHitL s).pongBx = 18 ∧
          (pongHitL s).pongVx = -s.pongVx) := by
  unfold pongHitL
  split_ifs with hContact
  · exact ⟨⟨⟨rfl, rfl, rfl⟩, rfl, rfl, rfl⟩,
      .inr ⟨hContact.1, rfl, rfl⟩⟩
  · exact ⟨⟨⟨rfl, rfl, rfl⟩, rfl, rfl, rfl⟩, .inl ⟨rfl, rfl⟩⟩

theorem pongHitR_hit
    (d : Display)
    (s : Pong) :
    Hit s (pongHitR d s) ∧
      ((s.pongBx + 6 < pongPadXR d ∨ s.pongBy + 6 < s.pongRy ∨
            s.pongRy + 28 < s.pongBy) ∧
          (pongHitR d s).pongBx = s.pongBx ∧
          (pongHitR d s).pongVx = s.pongVx ∨
        pongPadXR d ≤ s.pongBx + 6 ∧
          (pongHitR d s).pongBx = pongPadXR d - 6 ∧
          (pongHitR d s).pongVx = -s.pongVx) := by
  unfold pongHitR
  split_ifs with hContact
  · exact ⟨⟨⟨rfl, rfl, rfl⟩, rfl, rfl, rfl⟩,
      .inr ⟨hContact.1, rfl, rfl⟩⟩
  · refine ⟨⟨⟨rfl, rfl, rfl⟩, rfl, rfl, rfl⟩, .inl ⟨?_, rfl, rfl⟩⟩
    omega

/- The ball stays in play, or it is served. -/
theorem pongOutL_cases
    (d : Display)
    (s : Pong) :
    (0 ≤ s.pongBx ∧ pongOutL d s = s) ∨
      (s.pongBx < 0 ∧
        pongOutL d s =
          pongServe d 2
            { s with pongScoreR := s.pongScoreR + 1 }) := by
  unfold pongOutL
  split_ifs with hOut
  · exact .inr ⟨hOut, rfl⟩
  · exact .inl ⟨Int.not_lt.mp hOut, rfl⟩

theorem pongOutR_cases
    (d : Display)
    (s : Pong) :
    (s.pongBx + 6 ≤ screenWidth d ∧ pongOutR d s = s) ∨
      (screenWidth d < s.pongBx + 6 ∧
        pongOutR d s =
          pongServe d (-2)
            { s with pongScoreL := s.pongScoreL + 1 }) := by
  unfold pongOutR
  split_ifs with hOut
  · exact .inr ⟨hOut, rfl⟩
  · exact .inl ⟨Int.not_lt.mp hOut, rfl⟩

/- What the follower does; the rest is the same. -/
structure Followed
    (d : Display)
    (s t : Pong) : Prop where
  others : t = { s with pongRy := t.pongRy }
  ry :
    t.pongRy = s.pongRy ∨
      t.pongRy = s.pongRy + 2 ∧ s.pongRy + 14 < s.pongBy + 3 ∧
        s.pongRy + 28 < pongBot d - 2 ∨
      t.pongRy = s.pongRy - 2 ∧ s.pongBy + 3 < s.pongRy + 14 ∧
        27 < s.pongRy
  chase :
    (s.pongRy + 16 ≤ s.pongBy + 3 →
        s.pongRy + 28 < pongBot d - 2 →
          t.pongRy = s.pongRy + 2) ∧
      (s.pongBy + 3 < s.pongRy + 14 → 27 < s.pongRy →
        t.pongRy = s.pongRy - 2)

theorem pongFollow_followed
    (d : Display)
    (s : Pong) :
    Followed d s (pongFollow d s) := by
  unfold pongFollow
  dsimp only
  split_ifs with hDown hUp hUp
  · dsimp only at hUp
    refine ⟨rfl, ?_, ?_⟩ <;> dsimp only <;> omega
  · dsimp only at hUp
    refine ⟨rfl, ?_, ?_⟩ <;> dsimp only <;> omega
  · refine ⟨rfl, ?_, ?_⟩ <;> dsimp only <;> omega
  · refine ⟨rfl, ?_, ?_⟩ <;> omega

/- The ball after its move and the paddles. -/
structure Volley
    (d : Display)
    (s t : Pong) : Prop extends BallOnly s t where
  top : 25 ≤ t.pongBy
  bottom : t.pongBy + 6 ≤ pongBot d
  speed : t.pongVx = 2 ∨ t.pongVx = -2
  slope : t.pongVy = 1 ∨ t.pongVy = -1

theorem pongHits_volley
    (hOk : PongOk d s) :
    Volley d s (pongHitR d (pongHitL (pongMoveBall d s))) := by
  have hSpeed := hOk.speed
  have hMoved := pongMoveBall_moved hOk
  rcases pongHitL_hit (pongMoveBall d s) with ⟨hLeft, hCaseL⟩
  rcases pongHitR_hit d (pongHitL (pongMoveBall d s)) with
    ⟨hRight, hCaseR⟩
  have hVx := hMoved.vx
  exact
    { player := by rw [hRight.player, hLeft.player, hMoved.player]
      follower := by
        rw [hRight.follower, hLeft.follower, hMoved.follower]
      quit := by rw [hRight.quit, hLeft.quit, hMoved.quit]
      top := by
        rw [hRight.by_eq, hLeft.by_eq]
        exact hMoved.top
      bottom := by
        rw [hRight.by_eq, hLeft.by_eq]
        exact hMoved.bottom
      speed := by omega
      slope := by
        rw [hRight.vy_eq, hLeft.vy_eq]
        exact hMoved.slope }

/- The ball in play again. -/
theorem pongOuts_ok
    {t : Pong}
    (hOk : PongOk d s)
    (hVolley : Volley d s t) :
    PongOk d (pongOutR d (pongOutL d t)) := by
  have hPlayer := hVolley.player
  have hFollower := hVolley.follower
  have hPlaces :=
    And.intro (hPlayer ▸ hOk.playerTop)
      (hPlayer ▸ hOk.playerBottom)
  have hFollows :=
    And.intro (hFollower ▸ hOk.followerTop)
      (hFollower ▸ hOk.followerBottom)
  have hServe := pongInit_ok d
  have hServed :
      ∀ (vx : Int) (u : Pong), (vx = 2 ∨ vx = -2) →
        u.pongLy = t.pongLy → u.pongRy = t.pongRy →
          PongOk d (pongServe d vx u) := by
    intro vx u hVx hLy hRy
    exact ⟨hServe.left, hServe.right, hServe.top, hServe.bottom,
      hVx, .inl rfl, hLy ▸ hPlaces.1, hLy ▸ hPlaces.2,
      hRy ▸ hFollows.1, hRy ▸ hFollows.2⟩
  have hIn :
      0 ≤ (pongOutL d t).pongBx →
        (pongOutL d t).pongBx + 6 ≤ screenWidth d →
          PongOk d (pongOutL d t) := by
    intro hLow hHigh
    rcases pongOutL_cases d t with ⟨_, hSame⟩ | ⟨_, hServe⟩
    · rw [hSame] at hLow hHigh ⊢
      exact ⟨hLow, hHigh, hVolley.top, hVolley.bottom,
        hVolley.speed, hVolley.slope, hPlaces.1, hPlaces.2,
        hFollows.1, hFollows.2⟩
    · rw [hServe]
      exact hServed 2 _ (.inl rfl) rfl rfl
  have hLow : 0 ≤ (pongOutL d t).pongBx := by
    rcases pongOutL_cases d t with ⟨hLow, hSame⟩ | ⟨_, hServe'⟩
    · rw [hSame]
      exact hLow
    · rw [hServe']
      exact hServe.left
  rcases pongOutR_cases d (pongOutL d t) with
    ⟨hHigh, hSame⟩ | ⟨_, hServe'⟩
  · rw [hSame]
    exact hIn hLow hHigh
  · rw [hServe']
    refine hServed (-2) _ (.inr rfl) ?_ ?_
    · rcases pongOutL_cases d t with ⟨_, hSame⟩ | ⟨_, hOut⟩
      · rw [hSame]
      · rw [hOut]
        rfl
    · rcases pongOutL_cases d t with ⟨_, hSame⟩ | ⟨_, hOut⟩
      · rw [hSame]
      · rw [hOut]
        rfl

theorem pongFollow_ok
    (hOk : PongOk d s) :
    PongOk d (pongFollow d s) := by
  have hFollowed := pongFollow_followed d s
  have hRy := hFollowed.ry
  have hTop := hOk.followerTop
  have hBottom := hOk.followerBottom
  rw [hFollowed.others]
  exact ⟨hOk.left, hOk.right, hOk.top, hOk.bottom, hOk.speed,
    hOk.slope, hOk.playerTop, hOk.playerBottom, by dsimp only; omega,
    by dsimp only; omega⟩

theorem pongTick_ok
    (hOk : PongOk d s) :
    PongOk d (pongTick d s) :=
  pongFollow_ok (pongOuts_ok hOk (pongHits_volley hOk))

/- A scancode is of one key at most. -/
theorem pongMove_cases
    (d : Display)
    (sc : UInt8)
    (s : Pong) :
    pongMove d sc s = s ∨ pongMove d sc s = pongUp s ∨
      pongMove d sc s = pongDown d s := by
  unfold pongMove
  by_cases hW : sc = 0x11
  · subst hW
    exact .inr (.inl rfl)
  by_cases hS : sc = 0x1F
  · subst hS
    exact .inr (.inr rfl)
  by_cases hUp : sc = 0x48
  · subst hUp
    exact .inr (.inl rfl)
  by_cases hDown : sc = 0x50
  · subst hDown
    exact .inr (.inr rfl)
  dsimp only
  rw [if_neg hW, if_neg hS, if_neg hUp, if_neg hDown]
  exact .inl rfl

/- The keys move the player's paddle, on the screen. -/
theorem pongMove_ok
    (sc : UInt8)
    (hOk : PongOk d s) :
    PongOk d (pongMove d sc s) := by
  have hTop := hOk.playerTop
  have hBottom := hOk.playerBottom
  rcases pongMove_cases d sc s with hSame | hUp | hDown
  · rw [hSame]
    exact hOk
  · rw [hUp]
    unfold pongUp
    split_ifs with hRoom
    · exact { hOk with
        playerTop := by dsimp only; omega
        playerBottom := by dsimp only; omega }
    · exact hOk
  · rw [hDown]
    unfold pongDown
    split_ifs with hRoom
    · unfold pongBot at hRoom
      exact { hOk with
        playerTop := by dsimp only; omega
        playerBottom := by dsimp only; omega }
    · exact hOk

theorem pongKeys_ok
    (keys : List UInt8)
    (hOk : PongOk d s) :
    PongOk d (pongKeys d keys s) := by
  induction keys generalizing s with
  | nil => exact hOk
  | cons sc keys ih =>
      unfold pongKeys
      split_ifs
      · exact ih hOk
      · exact { hOk with }
      · exact ih (pongMove_ok sc hOk)

/- Every frame finds the ball and the paddles on the screen. -/
theorem pongRun_ok
    (frames : List (List UInt8))
    (hOk : PongOk d s) :
    PongOk d (pongRun d frames s) := by
  induction frames generalizing s with
  | nil => exact hOk
  | cons keys frames ih =>
      unfold pongRun
      split_ifs
      · exact hOk
      · exact ih (pongTick_ok (pongKeys_ok keys hOk))

end Places

------------------------------------------------------------
-- What Is Seen
------------------------------------------------------------

/- The rows without text. -/
def FieldRow
    (py : Nat) : Prop :=
  (py < 5 ∨ 13 ≤ py) ∧ (py < 190 ∨ 198 ≤ py)

/- The ball is in front of the paddles. -/
def pongColor
    (d : Display)
    (s : Pong)
    (px py : Nat) : UInt32 :=
  if InBox s.pongBx s.pongBy 6 6 px py then 0x00FF00
  else if InBox (pongPadXR d) s.pongRy 6 28 px py then 0xFFFFFF
  else if InBox 12 s.pongLy 6 28 px py then 0xFFFFFF
  else 0x000000

theorem pongTexts_elsewhere
    {s : Pong}
    {py : Nat}
    (hRow : FieldRow py) :
    ∀ c ∈ pongTexts s, WritesElsewhere py c := by
  have hTop :
      (5 : UInt32).toNat + 8 ≤ 2 ^ 32 ∧
        (py < (5 : UInt32).toNat ∨ (5 : UInt32).toNat + 8 ≤ py) :=
    ⟨by decide, hRow.1⟩
  have hBottom :
      (190 : UInt32).toNat + 8 ≤ 2 ^ 32 ∧
        (py < (190 : UInt32).toNat ∨
          (190 : UInt32).toNat + 8 ≤ py) :=
    ⟨by decide, hRow.2⟩
  unfold pongTexts
  simp only [List.forall_mem_cons]
  exact ⟨hTop, hTop, hTop, hTop, hTop, hBottom, fun c hNone =>
    absurd hNone List.not_mem_nil⟩

theorem lastColor_pongField
    {d : Display}
    {s : Pong}
    (hOk : PongOk d s)
    {px py : Nat}
    (hOn : OnScreen d px py) :
    lastColor d (pongField d s) 0x000000 px py =
      pongColor d s px py := by
  have hSize := screen_size d
  have hRight := hOk.right
  have hBottom := hOk.bottom
  have hPlayer := hOk.playerBottom
  have hFollower := hOk.followerBottom
  have hLeft := hOk.left
  have hTop := hOk.top
  have hPlayerTop := hOk.playerTop
  have hFollowerTop := hOk.followerTop
  have hPadXR : pongPadXR d = screenWidth d - 12 - 6 := rfl
  have hBot : pongBot d = screenHeight d - 5 := rfl
  have hBall :=
    covers_box (x := s.pongBx) (y := s.pongBy) (d := d) 0x00FF00
      ⟨hLeft, by omega⟩ ⟨by omega, by omega⟩
      (show (6 : UInt32).toNat ≤ 640 by decide)
      (show (6 : UInt32).toNat ≤ 480 by decide) hOn
  have hPadR :=
    covers_box (x := pongPadXR d) (y := s.pongRy) (d := d) 0xFFFFFF
      ⟨by omega, by omega⟩ ⟨by omega, by omega⟩
      (show (6 : UInt32).toNat ≤ 640 by decide)
      (show (28 : UInt32).toNat ≤ 480 by decide) hOn
  have hPadL :=
    covers_box (x := 12) (y := s.pongLy) (d := d) 0xFFFFFF
      ⟨by omega, by omega⟩ ⟨by omega, by omega⟩
      (show (6 : UInt32).toNat ≤ 640 by decide)
      (show (28 : UInt32).toNat ≤ 480 by decide) hOn
  unfold lastColor pongField pongColor
  simp only [List.foldl_cons, List.foldl_nil, hBall, hPadR, hPadL]
  rfl

/-
  Every frame of a game, whatever the keys, has the whole
  ball and both paddles on the screen, and shows them and
  nothing else between the lines of text.
-/
theorem pongRun_drawn
    (d : Display)
    (frames : List (List UInt8))
    (fb : FrameBuffer) :
    let s := pongRun d frames (pongInit d)
    PongOk d s ∧
      ∃ fb',
        (∀ tests, 2 ^ 32 ≤ tests →
          draw d tests (pongDraw d s) fb = some fb') ∧
        ∀ px py, OnScreen d px py → FieldRow py →
          fb' (cellOf d px py) =
            cellValue d (pongColor d s px py) := by
  intro s
  have hOk : PongOk d s := pongRun_ok frames (pongInit_ok d)
  rcases draw_shows d (pongField d s ++ pongTexts s) fb with
    ⟨fb', hDraws, hShows, _⟩
  refine ⟨hOk, fb', hDraws, fun px py hOn hRow => ?_⟩
  rw [hShows px py hOn,
    lastColor_append_elsewhere _ (pongTexts_elsewhere hRow),
    lastColor_pongField hOk hOn]

end Games

end AsmOS
