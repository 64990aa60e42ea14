import AsmOS.Games.Invaders

/-
  Moves of the aliens, and what they keep.

  A step to the side is tested for every alien, so that none
  leaves the screen.  The test of a landing looks at the
  first column with aliens only.

  Main declarations:
    * `AliensUp`, `InvadersOk`, `FirstColumnLands`
    * `siLanded_iff`, `siAtEdge_iff`
    * `Fewer`, `siMarch_ok`, `siMarch_up_iff`
-/

------------------------------------------------------------
-- What Must Hold
------------------------------------------------------------

namespace AsmOS

namespace Games

open Graphics

/- Every live alien is above the line and on the screen. -/
def AliensUp
    (d : Display)
    (s : Invaders) : Prop :=
  s.quit = false →
    ∀ c r, s.aliens c r = true →
      alienY s r + 10 < screenHeight d - 17 ∧
        0 ≤ alienX s c ∧ alienX s c + 14 ≤ screenWidth d

/- The aliens, 12 lines further down. -/
def lowered
    (s : Invaders) : Invaders :=
  { s with alienOy := s.alienOy + 12 }

/- An alien of the first column with live ones is at the line. -/
def FirstColumnLands
    (d : Display)
    (s : Invaders) : Prop :=
  ∃ c r, s.aliens c r = true ∧ atLine d s r = true ∧
    ∀ c', c' < c → ∀ r', s.aliens c' r' = false

/- What holds of the aliens in every state. -/
structure InvadersOk
    (d : Display)
    (s : Invaders) : Prop where
  speed : s.alienDx = 2 ∨ s.alienDx = -2
  inside :
    ∀ c r, s.aliens c r = true →
      0 < alienX s c ∧ alienX s c + 14 < screenWidth d

------------------------------------------------------------
-- The First Alien
------------------------------------------------------------

/- What a search finds in an ordered list is the first. -/
theorem found_first
    {α : Type}
    {R : α → α → Prop}
    {p : α → Bool}
    {xs : List α}
    {x y : α}
    (hOrdered : xs.Pairwise R)
    (hFound : xs.find? p = some x)
    (hMem : y ∈ xs)
    (hTest : p y = true) :
    x = y ∨ R x y := by
  rcases List.find?_eq_some_iff_append.mp hFound with
    ⟨_, before, after, rfl, hBefore⟩
  rcases List.mem_append.mp hMem with hEarly | hLate
  · have hFails := hBefore y hEarly
    rw [hTest] at hFails
    exact absurd hFails (by decide)
  · rcases List.mem_cons.mp hLate with hSame | hAfter
    · exact .inl hSame.symm
    · have hTail := (List.pairwise_append.mp hOrdered).2.1
      exact .inr ((List.pairwise_cons.mp hTail).1 y hAfter)

/- Columns from the left, and each of them from its end. -/
def LandsBefore
    (a b : Fin 8 × Fin 3) : Prop :=
  a.1 < b.1 ∨ a.1 = b.1 ∧ b.2 ≤ a.2

instance : DecidableRel LandsBefore :=
  fun _ _ => inferInstanceAs (Decidable (_ ∨ _))

theorem landingCells_ordered :
    landingCells.Pairwise LandsBefore := by
  decide

theorem mem_alienCells
    (cell : Fin 8 × Fin 3) :
    cell ∈ alienCells :=
  List.mem_flatMap.mpr ⟨cell.1, List.mem_finRange _,
    List.mem_map_of_mem (List.mem_finRange _)⟩

theorem mem_landingCells
    (cell : Fin 8 × Fin 3) :
    cell ∈ landingCells :=
  List.mem_flatMap.mpr ⟨cell.1, List.mem_finRange _,
    List.mem_map_of_mem
      (List.mem_reverse.mpr (List.mem_finRange _))⟩

section Landings

variable {d : Display} {s t : Invaders}

theorem atLine_iff
    {r : Fin 3} :
    atLine d s r = true ↔
      ¬ alienY s r + 10 < screenHeight d - 17 := by
  unfold atLine
  rw [decide_eq_true_iff]
  omega

/- The loops see a landing in the first column only. -/
theorem siLanded_iff :
    siLanded d s = true ↔ FirstColumnLands d s := by
  unfold siLanded
  split
  next cell hFound =>
    have hTest := List.find?_some hFound
    have hLive : s.aliens cell.1 cell.2 = true := hTest
    have hFirst :
        ∀ c r, s.aliens c r = true →
          cell = (c, r) ∨ LandsBefore cell (c, r) :=
      fun c r hAlive =>
        found_first landingCells_ordered hFound
          (mem_landingCells (c, r)) hAlive
    constructor
    · intro hLine
      refine ⟨cell.1, cell.2, hLive, hLine, fun c hc r => ?_⟩
      rw [← Bool.not_eq_true]
      intro hAlive
      rcases hFirst c r hAlive with rfl | hBefore | hBelow
      · exact absurd hc (Nat.lt_irrefl _)
      · exact absurd hc (Nat.lt_asymm hBefore)
      · exact absurd (congrArg Fin.val hBelow.1)
          (Nat.ne_of_gt hc)
    · rintro ⟨c, r, hAlive, hLine, hNone⟩
      have hColumn : ¬ cell.1 < c := by
        intro hc
        rw [hNone cell.1 hc cell.2] at hLive
        exact Bool.false_ne_true hLive
      rcases hFirst c r hAlive with rfl | hBefore | hBelow
      · exact hLine
      · exact absurd hBefore hColumn
      · have hRow : r.val ≤ cell.2.val := hBelow.2
        rw [atLine_iff] at hLine ⊢
        unfold alienY at hLine ⊢
        omega
  next hNone =>
    refine iff_of_false Bool.false_ne_true ?_
    rintro ⟨c, r, hAlive, _⟩
    exact List.find?_eq_none.mp hNone (c, r)
      (mem_landingCells (c, r)) hAlive

end Landings

------------------------------------------------------------
-- Steps
------------------------------------------------------------

/- At most aliens are gone, and the game may have ended. -/
structure Fewer
    (s t : Invaders) : Prop where
  live :
    ∀ c r, t.aliens c r = true → s.aliens c r = true
  dx : t.alienDx = s.alienDx
  ox : t.alienOx = s.alienOx
  oy : t.alienOy = s.alienOy
  quit : t.quit = false → s.quit = false

section Steps

variable {d : Display} {s t u : Invaders}

theorem Fewer.refl
    (s : Invaders) :
    Fewer s s :=
  ⟨fun _ _ hLive => hLive, rfl, rfl, rfl, fun hQuit => hQuit⟩

theorem Fewer.trans
    (hFirst : Fewer s t)
    (hSecond : Fewer t u) :
    Fewer s u :=
  ⟨fun c r hLive => hFirst.live c r (hSecond.live c r hLive),
    hSecond.dx.trans hFirst.dx, hSecond.ox.trans hFirst.ox,
    hSecond.oy.trans hFirst.oy,
    fun hQuit => hFirst.quit (hSecond.quit hQuit)⟩

theorem Fewer.ok
    (hFewer : Fewer s t)
    (hOk : InvadersOk d s) :
    InvadersOk d t := by
  refine ⟨hFewer.dx ▸ hOk.speed, fun c r hLive => ?_⟩
  have hInside := hOk.inside c r (hFewer.live c r hLive)
  unfold alienX at hInside ⊢
  rw [hFewer.ox]
  exact hInside

theorem Fewer.up
    (hFewer : Fewer s t)
    (hUp : AliensUp d s) :
    AliensUp d t := by
  intro hQuit c r hLive
  have hPlace :=
    hUp (hFewer.quit hQuit) c r (hFewer.live c r hLive)
  unfold alienX alienY at hPlace ⊢
  rw [hFewer.ox, hFewer.oy]
  exact hPlace

/- A branch that changes less than a step may. -/
theorem Fewer.ite
    (hThen : Fewer s t)
    (test : Prop)
    [Decidable test] :
    Fewer s (if test then t else s) := by
  split_ifs
  · exact hThen
  · exact Fewer.refl s

theorem siFire_fewer
    (d : Display)
    (s : Invaders) :
    Fewer s (siFire d s) := by
  unfold siFire
  split_ifs
  · exact Fewer.refl s
  · exact ⟨fun _ _ hLive => hLive, rfl, rfl, rfl,
      fun hQuit => hQuit⟩

theorem siKey_fewer
    (d : Display)
    (sc : UInt8)
    (s : Invaders) :
    Fewer s (siKey d sc s) := by
  have hMoved :
      ∀ (u : Invaders) (px : Int),
        Fewer u { u with px := px } :=
    fun _ _ =>
      ⟨fun _ _ hLive => hLive, rfl, rfl, rfl,
        fun hQuit => hQuit⟩
  have hLeft := (hMoved s (s.px - 8)).ite (sc = 0x4B ∧ s.px > 5)
  have hRight := fun u : Invaders =>
    (hMoved u (u.px + 8)).ite
      (sc = 0x4D ∧ u.px + 20 < screenWidth d - 5)
  have hFire := fun u : Invaders =>
    (siFire_fewer d u).ite (sc = 0x39)
  unfold siKey
  split
  · exact Fewer.refl s
  · split
    · exact ⟨fun _ _ hLive => hLive, rfl, rfl, rfl,
        fun hQuit => absurd hQuit.symm Bool.false_ne_true⟩
    · exact (hLeft.trans (hRight _)).trans (hFire _)

theorem siKill_fewer
    (cell : Fin 8 × Fin 3)
    (s : Invaders) :
    Fewer s (siKill cell s) := by
  refine ⟨fun c r hLive => ?_, rfl, rfl, rfl,
    fun hQuit => hQuit⟩
  unfold siKill at hLive
  dsimp only at hLive
  split_ifs at hLive
  exact hLive

theorem siBullet_fewer
    (s : Invaders) :
    Fewer s (siBullet s) := by
  have hFlight : Fewer s (siFlight s) := by
    unfold siFlight
    dsimp only
    split
    · exact ⟨fun _ _ hLive => hLive, rfl, rfl, rfl,
        fun hQuit => hQuit⟩
    · exact ⟨fun _ _ hLive => hLive, rfl, rfl, rfl,
        fun hQuit => hQuit⟩
  have hHit : ∀ u : Invaders, Fewer u (siHit u) := by
    intro u
    unfold siHit
    split
    · split
      next cell _ => exact siKill_fewer cell u
      next => exact Fewer.refl u
    · exact Fewer.refl u
  exact hFlight.trans (hHit _)

theorem siBullet_fields
    (s : Invaders) :
    (siBullet s).quit = s.quit ∧
      (siBullet s).alienTick = s.alienTick := by
  have hFlight :
      (siFlight s).quit = s.quit ∧
        (siFlight s).alienTick = s.alienTick := by
    unfold siFlight
    dsimp only
    split
    · exact ⟨rfl, rfl⟩
    · exact ⟨rfl, rfl⟩
  unfold siBullet siHit
  split
  · split
    · exact hFlight
    · exact hFlight
  · exact hFlight

theorem siEnd_fewer
    (s : Invaders) :
    Fewer s (siEnd s) := by
  unfold siEnd
  split_ifs
  · exact Fewer.refl s
  · exact ⟨fun _ _ hLive => hLive, rfl, rfl, rfl,
      fun hQuit => absurd hQuit.symm Bool.false_ne_true⟩

/- A game without aliens ends, and nothing else does. -/
theorem siEnd_up_iff :
    AliensUp d (siEnd s) ↔ AliensUp d s := by
  unfold siEnd
  split_ifs with hAny
  · exact Iff.rfl
  · have hNone : ∀ c r, ¬ s.aliens c r = true :=
      fun c r hLive =>
        hAny (List.any_eq_true.mpr
          ⟨(c, r), mem_alienCells (c, r), hLive⟩)
    exact iff_of_true
      (fun _ c r hLive => absurd hLive (hNone c r))
      fun _ c r hLive => absurd hLive (hNone c r)

/- The loops over all aliens find one at the side. -/
theorem siAtEdge_iff :
    siAtEdge d s = true ↔
      ∃ c r, s.aliens c r = true ∧
        (s.alienDx < 0 ∧ alienX s c + s.alienDx ≤ 0 ∨
          0 < s.alienDx ∧
            screenWidth d ≤ alienX s c + 14 + s.alienDx) := by
  have hAny :
      ∀ test : Fin 8 × Fin 3 → Bool,
        (alienCells.filter fun cell =>
            s.aliens cell.1 cell.2).any test = true ↔
          ∃ c r, s.aliens c r = true ∧ test (c, r) = true := by
    intro test
    rw [List.any_eq_true]
    constructor
    · rintro ⟨cell, hCell, hTest⟩
      exact ⟨cell.1, cell.2, (List.mem_filter.mp hCell).2, hTest⟩
    · rintro ⟨c, r, hLive, hTest⟩
      exact ⟨(c, r), List.mem_filter.mpr
        ⟨mem_alienCells (c, r), hLive⟩, hTest⟩
  unfold siAtEdge
  dsimp only
  rw [Bool.not_not, Bool.not_not, Bool.or_eq_true,
    Bool.and_eq_true, Bool.and_eq_true, hAny, hAny,
    decide_eq_true_iff, decide_eq_true_iff]
  simp only [decide_eq_true_iff]
  constructor
  · rintro (⟨hDx, c, r, hLive, hOut⟩ | ⟨hDx, c, r, hLive, hOut⟩)
    · exact ⟨c, r, hLive, .inl ⟨hDx, hOut⟩⟩
    · exact ⟨c, r, hLive, .inr ⟨hDx, hOut⟩⟩
  · rintro ⟨c, r, hLive, ⟨hDx, hOut⟩ | ⟨hDx, hOut⟩⟩
    · exact .inl ⟨hDx, c, r, hLive, hOut⟩
    · exact .inr ⟨hDx, c, r, hLive, hOut⟩

theorem siMarch_ok
    (hOk : InvadersOk d s) :
    InvadersOk d (siMarch d s) := by
  have hSpeed := hOk.speed
  unfold siMarch
  split_ifs with hEdge
  · refine ⟨?_, hOk.inside⟩
    change -s.alienDx = 2 ∨ -s.alienDx = -2
    omega
  · refine ⟨hSpeed, fun c r hLive => ?_⟩
    have hInside := hOk.inside c r hLive
    have hStep :
        ¬ (s.alienDx < 0 ∧ alienX s c + s.alienDx ≤ 0 ∨
          0 < s.alienDx ∧
            screenWidth d ≤ alienX s c + 14 + s.alienDx) :=
      fun hOut => hEdge (siAtEdge_iff.mpr ⟨c, r, hLive, hOut⟩)
    unfold alienX at hInside hStep ⊢
    dsimp only
    omega

/- With no alien at a side of the screen, the line is left. -/
theorem aliensUp_iff
    (hOk : InvadersOk d s) :
    AliensUp d s ↔
      (s.quit = false →
        ∀ c r, s.aliens c r = true → ¬ atLine d s r = true) := by
  refine forall_congr' fun _ => forall_congr' fun c =>
    forall_congr' fun r => forall_congr' fun hLive => ?_
  have hInside := hOk.inside c r hLive
  rw [atLine_iff, not_not]
  constructor
  · exact fun hPlace => hPlace.1
  · exact fun hAbove => ⟨hAbove, by omega, by omega⟩

/- The aliens stay above the line, or their landing is seen. -/
theorem siMarch_up_iff
    (hOk : InvadersOk d s)
    (hUp : AliensUp d s) :
    AliensUp d (siMarch d s) ↔
      (s.quit = false → siAtEdge d s = true →
        (∃ c r, s.aliens c r = true ∧
          atLine d (lowered s) r = true) →
          FirstColumnLands d (lowered s)) := by
  rw [aliensUp_iff (siMarch_ok hOk)]
  by_cases hEdge : siAtEdge d s = true
  · have hMarch :
        siMarch d s =
          { lowered s with
            alienDx := -s.alienDx
            quit := s.quit || siLanded d (lowered s) } :=
      if_pos hEdge
    rw [hMarch]
    change
      ((s.quit || siLanded d (lowered s)) = false →
          ∀ c r, s.aliens c r = true →
            ¬ atLine d (lowered s) r = true) ↔ _
    cases s.quit with
    | true =>
        exact iff_of_true
          (fun hQuit => absurd hQuit.symm Bool.false_ne_true)
          fun hQuit => absurd hQuit.symm Bool.false_ne_true
    | false =>
        rw [Bool.false_or]
        constructor
        · rintro hAbove _ _ ⟨c, r, hLive, hLine⟩
          rw [← siLanded_iff]
          by_contra hUnseen
          exact hAbove (Bool.eq_false_iff.mpr hUnseen) c r hLive
            hLine
        · intro hSeen hQuit c r hLive hLine
          have hLanded :=
            siLanded_iff.mpr
              (hSeen rfl hEdge ⟨c, r, hLive, hLine⟩)
          rw [hQuit] at hLanded
          exact Bool.false_ne_true hLanded
  · have hMarch :
        siMarch d s =
          { s with alienOx := s.alienOx + s.alienDx } :=
      if_neg hEdge
    rw [hMarch]
    exact iff_of_true ((aliensUp_iff hOk).mp hUp)
      fun _ hTest => absurd hTest hEdge

end Steps

end Games

end AsmOS
