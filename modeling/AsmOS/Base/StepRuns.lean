/-
  Runs of a step function that may have no result.

  Main declarations:
    * `StepRuns.EveryState`, `StepRuns.EveryStep`
    * `StepRuns.everyState_iff_everyStep`
    * `StepRuns.everyState_of`, `StepRuns.EveryState.map`
    * `StepRuns.EveryStep.of_map`, `StepRuns.everyStep_of_tested`
    * `StepRuns.everyStep_congr`
    * `StepRuns.everyStep_of`, `StepRuns.everyStep_append`
    * `StepRuns.everyState_and_everyStep`
    * `StepRuns.everyStep_iff_of_rel`
    * `StepRuns.Hits`, `StepRuns.hits_of_measure`
-/

------------------------------------------------------------
-- Runs
------------------------------------------------------------

namespace StepRuns

variable {σ ι : Type}

/- A property of the states of a run, while steps return. -/
def EveryState
    (step : σ → ι → Option σ)
    (property : σ → Prop) : σ → List ι → Prop
| s, [] => property s
| s, i :: is =>
    property s ∧
      ∀ t, step s i = some t → EveryState step property t is

/- A property of the steps of a run that return. -/
def EveryStep
    (step : σ → ι → Option σ)
    (property : σ → ι → Prop) : σ → List ι → Prop
| _, [] => True
| s, i :: is =>
    ∀ t, step s i = some t →
      property s i ∧ EveryStep step property t is

variable {step : σ → ι → Option σ}
variable {Inv P : σ → Prop} {Q : σ → ι → Prop}

/-
  When a step keeps the property exactly if it meets a
  condition, a run has the property in every state exactly
  if every step meets the condition.
-/
theorem everyState_iff_everyStep
    (hStep :
      ∀ s i t, Inv s → P s → step s i = some t →
        Inv t ∧ (P t ↔ Q s i))
    {s : σ}
    (hInv : Inv s)
    (hFirst : P s)
    (is : List ι) :
    EveryState step P s is ↔ EveryStep step Q s is := by
  induction is generalizing s with
  | nil => exact iff_of_true hFirst trivial
  | cons i is ih =>
      constructor
      · rintro ⟨_, hRest⟩ t hNext
        have hTail := hRest t hNext
        have hSame := hStep s i t hInv hFirst hNext
        have hProperty : P t := by
          cases is with
          | nil => exact hTail
          | cons j js => exact hTail.1
        exact ⟨hSame.2.mp hProperty,
          (ih hSame.1 hProperty).mp hTail⟩
      · intro hSteps
        refine ⟨hFirst, fun t hNext => ?_⟩
        rcases hSteps t hNext with ⟨hMeets, hTail⟩
        have hSame := hStep s i t hInv hFirst hNext
        exact (ih hSame.1 (hSame.2.mpr hMeets)).mpr hTail

/- Steps that meet a condition keep an invariant. -/
theorem everyState_of
    (hStep :
      ∀ s i t, Inv s → Q s i → step s i = some t → Inv t)
    {s : σ}
    (hInv : Inv s)
    {is : List ι}
    (hMeets : EveryStep step Q s is) :
    EveryState step Inv s is := by
  induction is generalizing s with
  | nil => exact hInv
  | cons i is ih =>
      refine ⟨hInv, fun t hNext => ?_⟩
      rcases hMeets t hNext with ⟨hMeet, hRest⟩
      exact ih (hStep s i t hInv hMeet hNext) hRest

theorem EveryState.mono
    {P' : σ → Prop}
    (hWeaker : ∀ s, P s → P' s)
    {s : σ}
    {is : List ι}
    (hAll : EveryState step P s is) :
    EveryState step P' s is := by
  induction is generalizing s with
  | nil => exact hWeaker s hAll
  | cons i is ih =>
      exact ⟨hWeaker s hAll.1,
        fun t hNext => ih (hAll.2 t hNext)⟩

/- The state that a run ends in has it. -/
theorem EveryState.last
    {s t : σ}
    {is : List ι}
    (hAll : EveryState step P s is)
    (hRun : is.foldlM step s = some t) :
    P t := by
  induction is generalizing s with
  | nil =>
      cases hRun
      exact hAll
  | cons i is ih =>
      rw [List.foldlM_cons] at hRun
      rcases Option.bind_eq_some_iff.mp hRun with
        ⟨u, hNext, hRest⟩
      exact ih (hAll.2 u hNext) hRest

theorem EveryState.last_run
    {run : σ → ι → σ}
    {s : σ}
    {is : List ι}
    (hAll : EveryState (fun s i => some (run s i)) P s is) :
    P (is.foldl run s) := by
  induction is generalizing s with
  | nil => exact hAll
  | cons i is ih => exact ih (hAll.2 _ rfl)

/- A run after a run. -/
theorem foldlM_append_of
    {s t u : σ}
    {is js : List ι}
    (hFirst : is.foldlM step s = some t)
    (hSecond : js.foldlM step t = some u) :
    (is ++ js).foldlM step s = some u := by
  rw [List.foldlM_append, hFirst]
  exact hSecond

/- The same of a system whose steps are seen through a map. -/
theorem EveryState.map
    {τ : Type}
    {f : σ → τ}
    {step' : τ → ι → Option τ}
    {R : τ → Prop}
    (hStep :
      ∀ s i u, step' (f s) i = some u →
        ∃ t, step s i = some t ∧ f t = u)
    {s : σ}
    {is : List ι}
    (hAll : EveryState step (fun s => R (f s)) s is) :
    EveryState step' R (f s) is := by
  induction is generalizing s with
  | nil => exact hAll
  | cons i is ih =>
      refine ⟨hAll.1, fun u hNext => ?_⟩
      rcases hStep s i u hNext with ⟨t, hFirst, rfl⟩
      exact ih (hAll.2 t hFirst)

/- A condition that a map carries back to the steps. -/
theorem EveryStep.of_map
    {τ : Type}
    {f : σ → τ}
    {step' : τ → ι → Option τ}
    {R : τ → ι → Prop}
    (hStep :
      ∀ s i t, step s i = some t →
        step' (f s) i = some (f t))
    (hMeets : ∀ s i, R (f s) i → Q s i)
    {s : σ}
    {is : List ι}
    (hSteps : EveryStep step' R (f s) is) :
    EveryStep step Q s is := by
  induction is generalizing s with
  | nil => trivial
  | cons i is ih =>
      intro t hNext
      have hFirst := hSteps (f t) (hStep s i t hNext)
      exact ⟨hMeets s i hFirst.1, ih hFirst.2⟩

/- A run that tests the condition before each step. -/
theorem everyStep_of_tested
    [∀ s i, Decidable (Q s i)]
    {s : σ}
    {is : List ι}
    (hRun :
      (is.foldlM
        (fun s i => if Q s i then step s i else none)
        s).isSome) :
    EveryStep step Q s is := by
  rcases Option.isSome_iff_exists.mp hRun with ⟨t, hEnd⟩
  clear hRun
  induction is generalizing s with
  | nil => trivial
  | cons i is ih =>
      rw [List.foldlM_cons] at hEnd
      rcases Option.bind_eq_some_iff.mp hEnd with
        ⟨u, hTested, hRest⟩
      by_cases hMeets : Q s i
      · rw [if_pos hMeets] at hTested
        intro v hNext
        rw [hTested] at hNext
        cases hNext
        exact ⟨hMeets, ih hRest⟩
      · rw [if_neg hMeets] at hTested
        cases hTested

/- Under what every step keeps, two conditions are one. -/
theorem everyStep_congr
    {R : σ → ι → Prop}
    (hStep :
      ∀ s i t, Inv s → step s i = some t →
        Inv t ∧ (Q s i ↔ R s i))
    {s : σ}
    (hInv : Inv s)
    (is : List ι) :
    EveryStep step Q s is ↔ EveryStep step R s is := by
  induction is generalizing s with
  | nil => exact Iff.rfl
  | cons i is ih =>
      refine forall_congr' fun t => forall_congr' fun hNext => ?_
      have hSame := hStep s i t hInv hNext
      exact and_congr hSame.2 (ih hSame.1)

/- Steps that meet a condition keep what it needs. -/
theorem everyStep_of
    {R : σ → ι → Prop}
    (hStep :
      ∀ s i t, Inv s → R s i → step s i = some t →
        Inv t ∧ Q s i)
    {s : σ}
    (hInv : Inv s)
    {is : List ι}
    (hMeets : EveryStep step R s is) :
    EveryStep step Q s is := by
  induction is generalizing s with
  | nil => trivial
  | cons i is ih =>
      intro t hNext
      rcases hMeets t hNext with ⟨hMeet, hRest⟩
      rcases hStep s i t hInv hMeet hNext with ⟨hKept, hHolds⟩
      exact ⟨hHolds, ih hKept hRest⟩

/- A step behind steps that meet a condition. -/
theorem everyStep_append
    {R : σ → ι → Prop}
    (hStep :
      ∀ s i t, Inv s → step s i = some t →
        (R s i → Inv t) ∧ Q s i)
    {s : σ}
    (hInv : Inv s)
    {is : List ι}
    (hMeets : EveryStep step R s is)
    (i : ι) :
    EveryStep step Q s (is ++ [i]) := by
  induction is generalizing s with
  | nil =>
      intro t hNext
      exact ⟨(hStep s i t hInv hNext).2, trivial⟩
  | cons j is ih =>
      intro t hNext
      rcases hMeets t hNext with ⟨hMeet, hRest⟩
      rcases hStep s j t hInv hNext with ⟨hKept, hHolds⟩
      exact ⟨hHolds, ih (hKept hMeet) hRest⟩

/- What holds of every step holds of the last one. -/
theorem EveryStep.last
    {run : σ → ι → σ}
    {s : σ}
    {is : List ι}
    {i : ι}
    (hSteps :
      EveryStep (fun s i => some (run s i)) Q s (is ++ [i])) :
    Q (is.foldl run s) i := by
  induction is generalizing s with
  | nil => exact (hSteps _ rfl).1
  | cons j is ih => exact ih (hSteps _ rfl).2

/- The states behind the first one belong to the steps. -/
theorem everyState_and_everyStep
    (run : σ → ι → σ)
    (s : σ)
    (is : List ι) :
    EveryState (fun s i => some (run s i)) P s is ∧
        EveryStep (fun s i => some (run s i)) Q s is ↔
      P s ∧
        EveryStep (fun s i => some (run s i))
          (fun s i => P (run s i) ∧ Q s i) s is := by
  induction is generalizing s with
  | nil => exact Iff.rfl
  | cons i is ih =>
      constructor
      · rintro ⟨⟨hFirst, hStates⟩, hSteps⟩
        have hStep := hSteps _ rfl
        have hRest := (ih (run s i)).mp ⟨hStates _ rfl, hStep.2⟩
        refine ⟨hFirst, fun t hNext => ?_⟩
        cases hNext
        exact ⟨⟨hRest.1, hStep.1⟩, hRest.2⟩
      · rintro ⟨hFirst, hSteps⟩
        have hStep := hSteps _ rfl
        have hRest :=
          (ih (run s i)).mpr ⟨hStep.1.1, hStep.2⟩
        refine ⟨⟨hFirst, fun t hNext => ?_⟩,
          fun t hNext => ?_⟩
        · cases hNext
          exact hRest.1
        · cases hNext
          exact ⟨hStep.1.2, hRest.2⟩

/-
  When a step has a property exactly if the step of another
  system meets a condition, and the systems stay related as
  long as it does, the same is true of their runs.
-/
theorem everyStep_iff_of_rel
    {τ : Type}
    {run : σ → ι → σ}
    {run' : τ → ι → τ}
    {Rel : σ → τ → Prop}
    {R : τ → ι → Prop}
    (hStep :
      ∀ s u i, Rel s u →
        (Q s i ↔ R u i) ∧ (Q s i → Rel (run s i) (run' u i)))
    {s : σ}
    {u : τ}
    (hRel : Rel s u)
    (is : List ι) :
    EveryStep (fun s i => some (run s i)) Q s is ↔
      EveryStep (fun u i => some (run' u i)) R u is := by
  induction is generalizing s u with
  | nil => exact Iff.rfl
  | cons i is ih =>
      have hSame := hStep s u i hRel
      constructor
      · intro hSteps t hNext
        have hFirst := hSteps _ rfl
        cases hNext
        exact ⟨hSame.1.mp hFirst.1,
          (ih (hSame.2 hFirst.1)).mp hFirst.2⟩
      · intro hSteps t hNext
        have hFirst := hSteps _ rfl
        have hHolds := hSame.1.mpr hFirst.1
        cases hNext
        exact ⟨hHolds, (ih (hSame.2 hHolds)).mpr hFirst.2⟩

------------------------------------------------------------
-- Waiting
------------------------------------------------------------

section Waiting

variable {run : σ → ι → σ}
variable {hit : σ → ι → Prop}

/- One of the steps of the run is a hit. -/
def Hits
    (run : σ → ι → σ)
    (hit : σ → ι → Prop) : σ → List ι → Prop
| _, [] => False
| s, i :: is => hit s i ∨ Hits run hit (run s i) is

/-
  If every step that counts is a hit or takes one off a
  measure, and no other step adds to it, a hit comes before
  more steps count than the measure has.
-/
theorem hits_of_measure
    {counts : ι → Bool}
    {measure : σ → Nat}
    (hKeeps : ∀ s i, Inv s → Inv (run s i))
    (hStep :
      ∀ s i, Inv s → ¬ hit s i →
        measure (run s i) + (if counts i then 1 else 0) ≤
          measure s)
    {s : σ}
    (hInv : Inv s)
    {is : List ι}
    (hEnough : measure s < is.countP counts) :
    Hits run hit s is := by
  induction is generalizing s with
  | nil => exact absurd hEnough (Nat.not_lt_zero _)
  | cons i is ih =>
      by_cases hHere : hit s i
      · exact .inl hHere
      · have hLess := hStep s i hInv hHere
        rw [List.countP_cons] at hEnough
        exact .inr (ih (hKeeps s i hInv) (by omega))

end Waiting

end StepRuns
