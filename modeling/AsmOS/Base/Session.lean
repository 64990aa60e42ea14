import Mathlib.Data.Option.Basic

/-
  Sessions of calls on a state.

  A call replies and leaves a state, or has no defined
  result, which ends the session.

  Main declarations:
    * `Session.replies`
    * `Session.replies_invariant`
    * `Session.Bisimulation`
    * `Session.Bisimulation.replies`
    * `Session.replies_map_fst`
    * `Session.answers`, `Session.replies_simulation`
-/

------------------------------------------------------------
-- Sessions
------------------------------------------------------------

namespace Session

variable {σ κ ρ : Type}

/- The replies of a sequence of calls and the last state. -/
def replies
    (step : σ → κ → Option (ρ × σ))
    (s : σ) : List κ → Option (List ρ × σ)
| [] => some ([], s)
| call :: calls =>
    (step s call).bind fun out =>
      (replies step out.2 calls).map fun rest =>
        (out.1 :: rest.1, rest.2)

variable {step : σ → κ → Option (ρ × σ)}

theorem replies_cons_eq_some_iff
    {s s' : σ}
    {call : κ}
    {calls : List κ}
    {rs : List ρ} :
    replies step s (call :: calls) = some (rs, s') ↔
      ∃ r t rest, step s call = some (r, t) ∧
        replies step t calls = some (rest, s') ∧
        rs = r :: rest := by
  rw [replies, Option.bind_eq_some_iff]
  constructor
  · rintro ⟨⟨r, t⟩, hStep, hRest⟩
    rcases Option.map_eq_some_iff.mp hRest with
      ⟨⟨rest, t'⟩, hReplies, hEq⟩
    cases hEq
    exact ⟨r, t, rest, hStep, hReplies, rfl⟩
  · rintro ⟨r, t, rest, hStep, hReplies, rfl⟩
    exact ⟨(r, t), hStep, by rw [hReplies]; rfl⟩

/- What each call keeps, a session keeps. -/
theorem replies_invariant
    {Inv : σ → Prop}
    (hStep :
      ∀ s call r t, Inv s → step s call = some (r, t) →
        Inv t)
    {s s' : σ}
    {calls : List κ}
    {rs : List ρ}
    (hInv : Inv s)
    (hRun : replies step s calls = some (rs, s')) :
    Inv s' := by
  induction calls generalizing s rs with
  | nil =>
      cases hRun
      exact hInv
  | cons call calls ih =>
      rcases replies_cons_eq_some_iff.mp hRun with
        ⟨r, t, rest, hFirst, hRest, _⟩
      exact ih (hStep s call r t hInv hFirst) hRest

------------------------------------------------------------
-- Bisimulations
------------------------------------------------------------

/- Both have no result, or equal replies and related states. -/
def Alike
    {β : Type}
    (R : σ → σ → Prop) :
    Option (β × σ) → Option (β × σ) → Prop :=
  Option.Rel fun a b => a.1 = b.1 ∧ R a.2 b.2

/- Related states answer every call alike. -/
def Bisimulation
    (step : σ → κ → Option (ρ × σ))
    (R : σ → σ → Prop) : Prop :=
  ∀ s t, R s t → ∀ call, Alike R (step s call) (step t call)

variable {R : σ → σ → Prop} {s t : σ}

theorem Alike.map_fst
    {β : Type}
    {x y : Option (β × σ)}
    (hAlike : Alike R x y) :
    x.map Prod.fst = y.map Prod.fst := by
  cases hAlike with
  | none => rfl
  | some hSame => exact congrArg some hSame.1

/- Sessions from related states have equal replies. -/
theorem Bisimulation.replies
    (hBisim : Bisimulation step R)
    (hRelated : R s t)
    (calls : List κ) :
    Alike R (replies step s calls) (replies step t calls) := by
  induction calls generalizing s t with
  | nil => exact Option.Rel.some ⟨rfl, hRelated⟩
  | cons call calls ih =>
      have hFirst := hBisim s t hRelated call
      unfold Session.replies
      generalize step s call = x at hFirst ⊢
      generalize step t call = y at hFirst ⊢
      cases hFirst with
      | none => exact Option.Rel.none
      | @some a b hSame =>
          have hRest := ih hSame.2
          simp only [Option.bind_some]
          generalize Session.replies step a.2 calls = x
            at hRest ⊢
          generalize Session.replies step b.2 calls = y
            at hRest ⊢
          cases hRest with
          | none => exact Option.Rel.none
          | some hSame' =>
              refine Option.Rel.some ⟨?_, hSame'.2⟩
              rw [hSame.1]
              exact congrArg (b.1 :: ·) hSame'.1

/-
  States that answer every first call alike have sessions of
  equal replies, even when they are not related themselves.
-/
theorem replies_map_fst
    (hBisim : Bisimulation step R)
    (hFirst : ∀ call, Alike R (step s call) (step t call))
    (calls : List κ) :
    (replies step s calls).map Prod.fst =
      (replies step t calls).map Prod.fst := by
  cases calls with
  | nil => rfl
  | cons call calls =>
      have hCall := hFirst call
      unfold replies
      generalize step s call = x at hCall ⊢
      generalize step t call = y at hCall ⊢
      cases hCall with
      | none => rfl
      | @some a b hSame =>
          have hRest :=
            (hBisim.replies hSame.2 calls).map_fst
          simp only [Option.bind_some, Option.map_map]
          have hCons :
              ∀ (r : ρ) (u : Option (List ρ × σ)),
                u.map
                    (Prod.fst ∘
                      fun rest => (r :: rest.1, rest.2)) =
                  (u.map Prod.fst).map (r :: ·) := by
            intro r u
            rw [Option.map_map]
            rfl
          rw [hCons, hCons, hRest, hSame.1]

------------------------------------------------------------
-- Simulations
------------------------------------------------------------

section Simulations

variable {τ ι : Type}

/- The answers of a system that always has one. -/
def answers
    (step : τ → ι → ρ × τ)
    (t : τ) : List ι → List ρ × τ
| [] => ([], t)
| call :: calls =>
    let rest := answers step (step t call).2 calls
    ((step t call).1 :: rest.1, rest.2)

/-
  If each call has the reply of the abstract system and keeps
  the states related, then sessions have its replies too.
-/
theorem replies_simulation
    {abstract : τ → ι → ρ × τ}
    {concrete : ι → κ}
    {Rel : σ → τ → Prop}
    (hStep :
      ∀ s t call, Rel s t →
        ∃ s', step s (concrete call) =
            some ((abstract t call).1, s') ∧
          Rel s' (abstract t call).2)
    {s : σ}
    {t : τ}
    (hRelated : Rel s t)
    (calls : List ι) :
    ∃ s', replies step s (calls.map concrete) =
        some ((answers abstract t calls).1, s') ∧
      Rel s' (answers abstract t calls).2 := by
  induction calls generalizing s t with
  | nil => exact ⟨s, rfl, hRelated⟩
  | cons call calls ih =>
      rcases hStep s t call hRelated with ⟨u, hFirst, hNext⟩
      rcases ih hNext with ⟨s', hRest, hLast⟩
      exact ⟨s', replies_cons_eq_some_iff.mpr
        ⟨_, u, _, hFirst, hRest, rfl⟩, hLast⟩

end Simulations

end Session
