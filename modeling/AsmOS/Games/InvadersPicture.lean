import AsmOS.Games.InvadersLanding
import AsmOS.Graphics.Picture

/-
  The frames of the Space Invaders game.

  Every frame shows the aliens that are left, the bullet and
  the ship where the variables have them.  The ship moves in
  steps of 8 and its leftmost place is two pixels outside of
  the screen, where nothing of it is drawn.

  Main declarations:
    * `invadersFrame`, `invadersRun`, `spaceInvadersDraw`
    * `InvadersField`, `invadersRun_field`
    * `invadersColor`, `invadersRun_drawn`
-/

------------------------------------------------------------
-- Frames
------------------------------------------------------------

namespace AsmOS

namespace Games

open ByteMem Graphics

/- The scancodes of a frame; those after Esc are not read. -/
def invadersKeys
    (d : Display) : List UInt8 → Invaders → Invaders
| [], s => s
| sc :: keys, s =>
    if sc = 0x01 then siKey d sc s
    else invadersKeys d keys (siKey d sc s)

/- One turn of the loop of `space_invaders_run`. -/
def invadersFrame
    (d : Display)
    (keys : List UInt8)
    (s : Invaders) : Invaders :=
  spaceInvadersTick d (invadersKeys d keys s)

/- The loop of `space_invaders_run`. -/
def invadersRun
    (d : Display) : List (List UInt8) → Invaders → Invaders
| [], s => s
| keys :: frames, s =>
    if s.quit then s
    else invadersRun d frames (invadersFrame d keys s)

------------------------------------------------------------
-- Drawing
------------------------------------------------------------

def siAlienCall
    (s : Invaders)
    (cell : Fin 8 × Fin 3) : DrawCall :=
  .rectangle (signedArg (alienX s cell.1))
    (signedArg (alienY s cell.2)) 14 10 0x00FF00

def siAlienCalls
    (s : Invaders) : List DrawCall :=
  (alienCells.filter fun cell => s.aliens cell.1 cell.2).map
    (siAlienCall s)

def siShipCall
    (d : Display)
    (s : Invaders) : DrawCall :=
  .rectangle (signedArg s.px) (signedArg (screenHeight d - 12)) 20
    12 0xFFFFFF

def siBulletCalls
    (s : Invaders) : List DrawCall :=
  if s.bulletActive then
    [.rectangle (signedArg s.bulletX) (signedArg s.bulletY) 4 8
      0xFFFF00]
  else []

def siTexts
    (s : Invaders) : List DrawCall :=
  [.text 5 5 (ascii "Space Invaders") 0xFFFFFF,
    .text 5 15 (ascii "Score:") 0xAAAAAA,
    .number 45 15 (UInt32.ofNat s.score) 0xFFFFFF,
    .text 180 5 (ascii "L/R Space Esc") 0x666666]

/- `space_invaders_draw`. -/
def spaceInvadersDraw
    (d : Display)
    (s : Invaders) : List DrawCall :=
  .clear ::
    (siAlienCalls s ++ [siShipCall d s] ++ siBulletCalls s ++
      siTexts s)

------------------------------------------------------------
-- Where Things Are
------------------------------------------------------------

/- The ship and the bullet, by the steps that they move in. -/
structure ShipOk
    (d : Display)
    (s : Invaders) : Prop where
  step : s.px % 8 = 6
  left : -2 ≤ s.px
  right : s.px + 18 ≤ screenWidth d
  bullet :
    s.bulletActive = true →
      (0 ≤ s.bulletX ∧ s.bulletX ≤ screenWidth d) ∧
        0 ≤ s.bulletY ∧ s.bulletY + 20 ≤ screenHeight d

/- What holds after every frame. -/
structure InvadersField
    (d : Display)
    (s : Invaders) : Prop where
  ok : InvadersOk d s
  ship : ShipOk d s
  above : 0 ≤ s.alienOy
  below : s.alienOy + 35 < screenHeight d
  going : s.quit = false → s.alienOy + 47 < screenHeight d

section Moves

variable {d : Display} {s : Invaders}

theorem spaceInvadersInit_field
    (d : Display)
    (s : Invaders) :
    InvadersField d (spaceInvadersInit d s) := by
  have hLeast := screen_least d
  have hMiddle :
      (screenWidth d / 2 - 20 / 2) % 8 = 6 ∧
        screenWidth d / 2 - 20 / 2 + 18 ≤ screenWidth d := by
    cases d with
    | pc => decide
    | ps2 => decide
  have hDown : (0 : Int) + 47 < screenHeight d := by omega
  refine ⟨spaceInvadersInit_ok d s, ⟨hMiddle.1, ?_, hMiddle.2, ?_⟩,
    Int.le_refl 0, ?_, fun _ => hDown⟩
  · change -2 ≤ screenWidth d / 2 - 20 / 2
    omega
  · exact fun hActive => absurd hActive Bool.false_ne_true
  · change (0 : Int) + 35 < screenHeight d
    omega

theorem ShipOk.moveLeft
    (hShip : ShipOk d s)
    (hRoom : s.px > 5) :
    ShipOk d { s with px := s.px - 8 } := by
  have hStep := hShip.step
  have hRight := hShip.right
  refine ⟨?_, ?_, ?_, hShip.bullet⟩
  · dsimp only
    omega
  · dsimp only
    omega
  · dsimp only
    omega

theorem ShipOk.moveRight
    (hShip : ShipOk d s)
    (hRoom : s.px + 20 < screenWidth d - 5) :
    ShipOk d { s with px := s.px + 8 } := by
  have hStep := hShip.step
  have hLeft := hShip.left
  refine ⟨?_, ?_, ?_, hShip.bullet⟩
  · dsimp only
    omega
  · dsimp only
    omega
  · dsimp only
    omega

/- A bullet starts above the middle of the ship. -/
theorem siFire_ship
    (hShip : ShipOk d s) :
    ShipOk d (siFire d s) := by
  have hHeight := (screen_least d).2
  have hStep := hShip.step
  have hLeft := hShip.left
  have hRight := hShip.right
  unfold siFire
  split_ifs
  · exact hShip
  · refine ⟨hStep, hLeft, hRight, fun _ => ⟨⟨?_, ?_⟩, ?_, ?_⟩⟩
    · dsimp only
      omega
    · dsimp only
      omega
    · dsimp only
      omega
    · dsimp only
      omega

theorem siKey_ship
    (sc : UInt8)
    (hShip : ShipOk d s) :
    ShipOk d (siKey d sc s) := by
  have hLeft :
      ShipOk d
        (if sc = 0x4B ∧ s.px > 5 then { s with px := s.px - 8 }
        else s) := by
    split_ifs with hMoves
    · exact hShip.moveLeft hMoves.2
    · exact hShip
  have hRight :
      ∀ u, ShipOk d u →
        ShipOk d
          (if sc = 0x4D ∧ u.px + 20 < screenWidth d - 5 then
            { u with px := u.px + 8 }
          else u) := by
    intro u hOk
    split_ifs with hMoves
    · exact hOk.moveRight hMoves.2
    · exact hOk
  unfold siKey
  dsimp only
  split
  · exact hShip
  · split
    · exact ⟨hShip.step, hShip.left, hShip.right, hShip.bullet⟩
    · split
      · exact siFire_ship (hRight _ hLeft)
      · exact hRight _ hLeft

theorem siBullet_ship
    (hShip : ShipOk d s) :
    ShipOk d (siBullet s) := by
  have hFlight : ShipOk d (siFlight s) := by
    unfold siFlight
    dsimp only
    split_ifs with hOut
    · exact ⟨hShip.step, hShip.left, hShip.right, fun hActive =>
        absurd hActive Bool.false_ne_true⟩
    · refine ⟨hShip.step, hShip.left, hShip.right,
        fun hActive => ?_⟩
      have hPlace := hShip.bullet hActive
      exact ⟨hPlace.1, by dsimp only; omega, by dsimp only; omega⟩
  unfold siBullet siHit
  split
  · split
    · exact ⟨hFlight.step, hFlight.left, hFlight.right,
        fun hActive => absurd hActive Bool.false_ne_true⟩
    · exact hFlight
  · exact hFlight

theorem siMarch_ship
    (hShip : ShipOk d s) :
    ShipOk d (siMarch d s) := by
  unfold siMarch
  split_ifs
  · exact ⟨hShip.step, hShip.left, hShip.right, hShip.bullet⟩
  · exact ⟨hShip.step, hShip.left, hShip.right, hShip.bullet⟩

theorem siEnd_ship
    (hShip : ShipOk d s) :
    ShipOk d (siEnd s) := by
  unfold siEnd
  split_ifs
  · exact hShip
  · exact ⟨hShip.step, hShip.left, hShip.right, hShip.bullet⟩

------------------------------------------------------------
-- How Far The Aliens Come
------------------------------------------------------------

/- Without a landing the first alien is above the line. -/
theorem high_of_not_landed
    (hNot : siLanded d s = false)
    {c : Fin 8}
    {r : Fin 3}
    (hLive : s.aliens c r = true) :
    s.alienOy + 47 < screenHeight d := by
  unfold siLanded at hNot
  split at hNot
  next cell _ =>
    have hLine : ¬ atLine d s cell.2 = true :=
      Bool.eq_false_iff.mp hNot
    rw [atLine_iff, not_not] at hLine
    unfold alienY at hLine
    omega
  next hNone =>
    exact absurd hLive
      (List.find?_eq_none.mp hNone (c, r)
        (mem_landingCells (c, r)))

/- A move takes them down by 12 lines at most. -/
theorem siMarch_down
    (hAbove : 0 ≤ s.alienOy)
    (hHigh : s.alienOy + 47 < screenHeight d) :
    0 ≤ (siMarch d s).alienOy ∧
      (siMarch d s).alienOy + 35 < screenHeight d ∧
      ((siMarch d s).quit = false →
        (siMarch d s).alienOy + 47 < screenHeight d) := by
  by_cases hEdge : siAtEdge d s = true
  · have hMarch :
        siMarch d s =
          { lowered s with
            alienDx := -s.alienDx
            quit := s.quit || siLanded d (lowered s) } :=
      if_pos hEdge
    rcases siAtEdge_iff.mp hEdge with ⟨c, r, hLive, _⟩
    rw [hMarch]
    dsimp only
    refine ⟨?_, ?_, fun hGoes => ?_⟩
    · change 0 ≤ s.alienOy + 12
      omega
    · change s.alienOy + 12 + 35 < screenHeight d
      omega
    · exact high_of_not_landed (s := lowered s)
        (Bool.or_eq_false_iff.mp hGoes).2 hLive
  · have hMarch :
        siMarch d s =
          { s with alienOx := s.alienOx + s.alienDx } :=
      if_neg hEdge
    rw [hMarch]
    dsimp only
    exact ⟨hAbove, by omega, fun _ => hHigh⟩

theorem spaceInvadersTick_field
    (hOk : InvadersOk d s)
    (hShip : ShipOk d s)
    (hAbove : 0 ≤ s.alienOy)
    (hHigh : s.alienOy + 47 < screenHeight d) :
    InvadersField d (spaceInvadersTick d s) := by
  have hFewer := siBullet_fewer s
  have hOkB := hFewer.ok hOk
  have hShipB := siBullet_ship hShip
  have hOy := hFewer.oy
  have hEnd :
      ∀ u : Invaders, InvadersOk d u → ShipOk d u →
        0 ≤ u.alienOy → u.alienOy + 35 < screenHeight d →
        (u.quit = false → u.alienOy + 47 < screenHeight d) →
        InvadersField d (siEnd u) := by
    intro u hOkU hShipU hAboveU hBelowU hGoing
    have hLess := siEnd_fewer u
    refine ⟨hLess.ok hOkU, siEnd_ship hShipU, ?_, ?_, ?_⟩
    · rw [hLess.oy]
      exact hAboveU
    · rw [hLess.oy]
      exact hBelowU
    · intro hGoes
      rw [hLess.oy]
      exact hGoing (hLess.quit hGoes)
  unfold spaceInvadersTick
  dsimp only
  split_ifs
  · let u := { siBullet s with alienTick := 0 }
    have hOkU : InvadersOk d u := ⟨hOkB.speed, hOkB.inside⟩
    have hShipU : ShipOk d u :=
      ⟨hShipB.step, hShipB.left, hShipB.right, hShipB.bullet⟩
    have hAboveU : 0 ≤ u.alienOy := by
      change 0 ≤ (siBullet s).alienOy
      omega
    have hHighU : u.alienOy + 47 < screenHeight d := by
      change (siBullet s).alienOy + 47 < screenHeight d
      omega
    rcases siMarch_down hAboveU hHighU with ⟨hUp, hLow, hGoing⟩
    exact hEnd (siMarch d u) (siMarch_ok hOkU) (siMarch_ship hShipU)
      hUp hLow hGoing
  · refine hEnd _ ⟨hOkB.speed, hOkB.inside⟩
      ⟨hShipB.step, hShipB.left, hShipB.right, hShipB.bullet⟩
      ?_ ?_ fun _ => ?_
    · dsimp only
      omega
    · dsimp only
      omega
    · dsimp only
      omega

/- The keys of a frame move the ship, and may end the game. -/
theorem invadersKeys_keeps
    (keys : List UInt8)
    (hShip : ShipOk d s) :
    ShipOk d (invadersKeys d keys s) ∧
      Fewer s (invadersKeys d keys s) := by
  induction keys generalizing s with
  | nil => exact ⟨hShip, Fewer.refl s⟩
  | cons sc keys ih =>
      have hKey := siKey_ship sc hShip
      have hFewer := siKey_fewer d sc s
      unfold invadersKeys
      split_ifs
      · exact ⟨hKey, hFewer⟩
      · rcases ih hKey with ⟨hShip', hFewer'⟩
        exact ⟨hShip', hFewer.trans hFewer'⟩

theorem invadersFrame_field
    (keys : List UInt8)
    (hField : InvadersField d s)
    (hGoes : s.quit = false) :
    InvadersField d (invadersFrame d keys s) := by
  rcases invadersKeys_keeps keys hField.ship with
    ⟨hShip, hFewer⟩
  have hAbove := hField.above
  have hHigh := hField.going hGoes
  rw [← hFewer.oy] at hAbove hHigh
  exact spaceInvadersTick_field (hFewer.ok hField.ok) hShip hAbove
    hHigh

theorem invadersRun_field
    (frames : List (List UInt8))
    (hField : InvadersField d s) :
    InvadersField d (invadersRun d frames s) := by
  induction frames generalizing s with
  | nil => exact hField
  | cons keys frames ih =>
      unfold invadersRun
      split_ifs with hQuit
      · exact hField
      · exact ih (invadersFrame_field keys hField
          (Bool.eq_false_iff.mpr hQuit))

/- A game that goes on has one more frame. -/
theorem invadersRun_snoc
    (frames : List (List UInt8))
    (keys : List UInt8)
    (hOn : (invadersRun d frames s).quit = false) :
    invadersRun d (frames ++ [keys]) s =
      invadersFrame d keys (invadersRun d frames s) := by
  induction frames generalizing s with
  | nil =>
      have hQuit : ¬ s.quit = true := Bool.eq_false_iff.mp hOn
      exact if_neg hQuit
  | cons first frames ih =>
      rw [List.cons_append]
      unfold invadersRun at hOn ⊢
      split_ifs at hOn ⊢ with hQuit
      · rw [hQuit] at hOn
        cases hOn
      · exact ih hOn

end Moves

------------------------------------------------------------
-- What Is Seen
------------------------------------------------------------

/-
  The bullet is in front of the ship, and the ship of the
  aliens; the ship is not drawn at its leftmost place.
-/
def invadersColor
    (d : Display)
    (s : Invaders)
    (px py : Nat) : UInt32 :=
  if s.bulletActive = true ∧
      InBox s.bulletX s.bulletY 4 8 px py then
    0xFFFF00
  else if 0 ≤ s.px ∧
      InBox s.px (screenHeight d - 12) 20 12 px py then
    0xFFFFFF
  else if
      ∃ c r, s.aliens c r = true ∧
        InBox (alienX s c) (alienY s r) 14 10 px py then
    0x00FF00
  else 0x000000

section Seen

variable {d : Display} {s : Invaders} {px py : Nat}

theorem screen_most
    (d : Display) :
    screenWidth d ≤ 640 ∧ screenHeight d ≤ 480 := by
  cases d with
  | pc => decide
  | ps2 => decide

theorem covers_aliens
    (hField : InvadersField d s)
    (hOn : OnScreen d px py) :
    (∃ call ∈ siAlienCalls s, Covers d call px py) ↔
      ∃ c r, s.aliens c r = true ∧
        InBox (alienX s c) (alienY s r) 14 10 px py := by
  have hSize := video_size d
  have hMost := screen_most d
  have hpx := hOn.width
  have hpy := hOn.height
  have hBox :
      ∀ c r, s.aliens c r = true →
        (Covers d (siAlienCall s (c, r)) px py ↔
          InBox (alienX s c) (alienY s r) 14 10 px py) := by
    intro c r hLive
    have hInside := hField.ok.inside c r hLive
    have hAbove := hField.above
    have hBelow := hField.below
    have hRow := r.isLt
    have hy : alienY s r = 20 + s.alienOy + r.val * (10 + 2) := rfl
    refine (covers_rectangle (x := alienX s c) (y := alienY s r)
      (by omega) (by omega) (by decide) (by decide) (by omega)
      (by omega)).trans ?_
    exact and_iff_right ⟨by omega, by omega⟩
  unfold siAlienCalls
  simp only [List.mem_map, List.mem_filter]
  constructor
  · rintro ⟨_, ⟨cell, ⟨_, hLive⟩, rfl⟩, hCovers⟩
    exact ⟨cell.1, cell.2, hLive,
      (hBox cell.1 cell.2 hLive).mp hCovers⟩
  · rintro ⟨c, r, hLive, hIn⟩
    exact ⟨_, ⟨(c, r), ⟨mem_alienCells (c, r), hLive⟩, rfl⟩,
      (hBox c r hLive).mpr hIn⟩

theorem covers_ship
    (hShip : ShipOk d s)
    (hOn : OnScreen d px py) :
    Covers d (siShipCall d s) px py ↔
      0 ≤ s.px ∧
        InBox s.px (screenHeight d - 12) 20 12 px py := by
  have hSize := video_size d
  have hLeast := screen_least d
  have hMost := screen_most d
  have hpx := hOn.width
  have hpy := hOn.height
  have hLeft := hShip.left
  have hRight := hShip.right
  refine (covers_rectangle (by omega) (by omega) (by decide)
    (by decide) (by omega) (by omega)).trans ?_
  exact and_congr_left' (and_iff_left (by omega))

theorem covers_bullet
    (hShip : ShipOk d s)
    (hOn : OnScreen d px py) :
    (∃ call ∈ siBulletCalls s, Covers d call px py) ↔
      s.bulletActive = true ∧
        InBox s.bulletX s.bulletY 4 8 px py := by
  have hMost := screen_most d
  unfold siBulletCalls
  split_ifs with hActive
  · have hPlace := hShip.bullet hActive
    simp only [List.mem_singleton, exists_eq_left]
    rw [and_iff_right hActive]
    exact covers_box 0xFFFF00 ⟨hPlace.1.1, by omega⟩
      ⟨hPlace.2.1, by omega⟩ (by decide) (by decide) hOn
  · refine iff_of_false ?_ fun hBoth => hActive hBoth.1
    rintro ⟨_, hNone, _⟩
    exact List.not_mem_nil hNone

theorem siTexts_elsewhere
    (hRow : 23 ≤ py) :
    ∀ c ∈ siTexts s, WritesElsewhere py c := by
  have hFirst :
      (5 : UInt32).toNat + 8 ≤ 2 ^ 32 ∧
        (py < (5 : UInt32).toNat ∨ (5 : UInt32).toNat + 8 ≤ py) := by
    have hFive : (5 : UInt32).toNat = 5 := rfl
    omega
  have hSecond :
      (15 : UInt32).toNat + 8 ≤ 2 ^ 32 ∧
        (py < (15 : UInt32).toNat ∨
          (15 : UInt32).toNat + 8 ≤ py) := by
    have hFifteen : (15 : UInt32).toNat = 15 := rfl
    omega
  unfold siTexts
  simp only [List.forall_mem_cons]
  exact ⟨hFirst, hSecond, hSecond, hFirst, fun c hNone =>
    absurd hNone List.not_mem_nil⟩

theorem lastColor_invaders
    (hField : InvadersField d s)
    (hOn : OnScreen d px py) :
    lastColor d
        (siAlienCalls s ++ [siShipCall d s] ++ siBulletCalls s)
        0x000000 px py =
      invadersColor d s px py := by
  have hAliens : ∀ c ∈ siAlienCalls s, c.color = 0x00FF00 := by
    intro c hMem
    rcases List.mem_map.mp hMem with ⟨cell, _, rfl⟩
    rfl
  have hShip : ∀ c ∈ [siShipCall d s], c.color = 0xFFFFFF := by
    intro c hMem
    rw [List.mem_singleton.mp hMem]
    rfl
  have hBullet : ∀ c ∈ siBulletCalls s, c.color = 0xFFFF00 := by
    intro c hMem
    unfold siBulletCalls at hMem
    split_ifs at hMem
    · rw [List.mem_singleton.mp hMem]
      rfl
    · exact absurd hMem List.not_mem_nil
  rw [lastColor_append, lastColor_append, lastColor_uniform hBullet,
    lastColor_uniform hShip, lastColor_uniform hAliens]
  unfold invadersColor
  refine if_congr (covers_bullet hField.ship hOn) rfl
    (if_congr ?_ rfl (if_congr (covers_aliens hField hOn) rfl rfl))
  simp only [List.mem_singleton, exists_eq_left]
  exact covers_ship hField.ship hOn

/- The ship is on the screen but for its leftmost place. -/
theorem ship_seen_iff
    (hField : InvadersField d s) :
    (∃ px py, OnScreen d px py ∧ 23 ≤ py ∧
        invadersColor d s px py = 0xFFFFFF) ↔
      s.px ≠ -2 := by
  have hLeft := hField.ship.left
  have hRight := hField.ship.right
  have hStep := hField.ship.step
  have hLeast := screen_least d
  constructor
  · rintro ⟨px, py, _, _, hWhite⟩ hHidden
    unfold invadersColor at hWhite
    have hNotDrawn :
        ¬ (0 ≤ s.px ∧
          InBox s.px (screenHeight d - 12) 20 12 px py) := by
      rw [hHidden]
      exact fun hBoth => absurd hBoth.1 (by decide)
    rw [if_neg hNotDrawn] at hWhite
    split_ifs at hWhite <;> exact absurd hWhite (by decide)
  · intro hShown
    have hWidth : screenWidth d = (videoWidth d).toNat := rfl
    have hHeight : screenHeight d = (videoHeight d).toNat := rfl
    refine ⟨s.px.toNat, (videoHeight d).toNat - 1,
      ⟨by omega, by omega⟩, by omega, ?_⟩
    unfold invadersColor
    have hNoBullet :
        ¬ (s.bulletActive = true ∧
          InBox s.bulletX s.bulletY 4 8 s.px.toNat
            ((videoHeight d).toNat - 1)) := by
      rintro ⟨hActive, hIn⟩
      have hPlace := (hField.ship.bullet hActive).2.2
      have hBelow := hIn.below
      omega
    rw [if_neg hNoBullet]
    exact if_pos ⟨by omega, ⟨by omega, by omega, by omega, by omega⟩⟩

end Seen

------------------------------------------------------------
-- The Leftmost Place
------------------------------------------------------------

section Leftmost

variable {d : Display} {s : Invaders}

theorem siBullet_px
    (s : Invaders) :
    (siBullet s).px = s.px := by
  have hFlight : (siFlight s).px = s.px := by
    unfold siFlight
    dsimp only
    split_ifs
    · rfl
    · rfl
  unfold siBullet siHit
  split
  · split
    · exact hFlight
    · exact hFlight
  · exact hFlight

/- A tick does not move the ship. -/
theorem spaceInvadersTick_px
    (d : Display)
    (s : Invaders) :
    (spaceInvadersTick d s).px = s.px := by
  have hMarch : ∀ u : Invaders, (siMarch d u).px = u.px := by
    intro u
    unfold siMarch
    split_ifs
    · rfl
    · rfl
  have hEnd : ∀ u : Invaders, (siEnd u).px = u.px := by
    intro u
    unfold siEnd
    split_ifs
    · rfl
    · rfl
  unfold spaceInvadersTick
  dsimp only
  rw [hEnd]
  split_ifs
  · exact (hMarch _).trans (siBullet_px s)
  · exact siBullet_px s

theorem siKey_left
    (hRoom : s.px > 5) :
    siKey d 0x4B s = { s with px := s.px - 8 } := by
  unfold siKey
  dsimp only
  rw [if_neg (by decide), if_neg (by decide), if_neg (by decide),
    if_neg (fun hBoth => absurd hBoth.1 (by decide)),
    if_pos ⟨rfl, hRoom⟩]

theorem invadersKeys_left
    (n : Nat)
    (hPlace : s.px = 8 * n - 2) :
    (invadersKeys d (List.replicate n 0x4B) s).px = -2 := by
  induction n generalizing s with
  | zero => exact hPlace
  | succ n ih =>
      rw [List.replicate_succ, invadersKeys, if_neg (by decide),
        siKey_left (by omega)]
      refine ih ?_
      dsimp only
      omega

/- The left key takes the ship out of sight. -/
theorem exists_keys_hide
    (hShip : ShipOk d s) :
    ∃ keys, (invadersFrame d keys s).px = -2 := by
  have hStep := hShip.step
  have hLeft := hShip.left
  refine ⟨List.replicate ((s.px + 2) / 8).toNat 0x4B, ?_⟩
  unfold invadersFrame
  rw [spaceInvadersTick_px]
  refine invadersKeys_left _ ?_
  omega

end Leftmost

/-
  Every frame of a game, whatever the keys, shows the bullet,
  the ship and the aliens that are left where the variables
  have them, and nothing else, below the text.  The ship is
  to be seen in all of them but those in which it is at its
  leftmost place, and as long as the game goes on the keys of
  one more frame can take it there.
-/
theorem invadersRun_drawn
    (d : Display)
    (s₀ : Invaders)
    (frames : List (List UInt8))
    (fb : FrameBuffer) :
    let s := invadersRun d frames (spaceInvadersInit d s₀)
    InvadersField d s ∧
      (∃ fb',
        (∀ tests, 2 ^ 32 ≤ tests →
          draw d tests (spaceInvadersDraw d s) fb = some fb') ∧
        (∀ px py, OnScreen d px py → 23 ≤ py →
          fb' (cellOf d px py) =
            cellValue d (invadersColor d s px py)) ∧
        ((∃ px py, OnScreen d px py ∧ 23 ≤ py ∧
            invadersColor d s px py = 0xFFFFFF) ↔
          s.px ≠ -2)) ∧
      (s.quit = false →
        ∃ keys,
          (invadersRun d (frames ++ [keys])
            (spaceInvadersInit d s₀)).px = -2) := by
  intro s
  have hField : InvadersField d s :=
    invadersRun_field frames (spaceInvadersInit_field d s₀)
  rcases draw_shows d
    (siAlienCalls s ++ [siShipCall d s] ++ siBulletCalls s ++
      siTexts s) fb with
    ⟨fb', hDraws, hShows, _⟩
  refine ⟨hField,
    ⟨fb', hDraws, fun px py hOn hRow => ?_,
      ship_seen_iff hField⟩,
    fun hGoes => ?_⟩
  · rw [hShows px py hOn,
      lastColor_append_elsewhere _ (siTexts_elsewhere hRow),
      lastColor_invaders hField hOn]
  · rcases exists_keys_hide hField.ship with ⟨keys, hHidden⟩
    exact ⟨keys, by rw [invadersRun_snoc frames keys hGoes, hHidden]⟩

/- The first frame can take the ship out of sight. -/
theorem invadersRun_drawn_first :
    ∃ keys,
      (invadersRun .pc [keys]
        (spaceInvadersInit .pc invadersStatics)).px = -2 :=
  (invadersRun_drawn .pc invadersStatics [] fun _ => 0).2.2 rfl

end Games

end AsmOS
