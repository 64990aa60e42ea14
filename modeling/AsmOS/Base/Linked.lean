import Mathlib.Data.List.Nodup

/-
  Singly linked chains given by a successor function.

  A chain starts at a node, follows `next`, and ends at the
  first node that satisfies `stop`; the stopping node is not
  part of the chain.

  Main declarations:
    * `Linked.Walks`
    * `Linked.path`, `Linked.path_congr`
    * `Linked.Walks.unique`
    * `Linked.Walks.nodup`
    * `Linked.Walks.isChain`, `Linked.Walks.of_isChain`
    * `Linked.Walks.congr_iff`
    * `Linked.Walks.path_eq_take`
-/

------------------------------------------------------------
-- Chains And Bounded Paths
------------------------------------------------------------

namespace Linked

variable {α : Type}

/- Following `next` from `c` visits `cs` and then stops. -/
def Walks
    (next : α → α)
    (stop : α → Prop) :
    α → List α → Prop
| c, [] => stop c
| c, d :: ds =>
    ¬ stop c ∧ d = c ∧ Walks next stop (next c) ds

/- The first `n` nodes visited from `c`, fewer on a stop. -/
def path
    (next : α → α)
    (stop : α → Prop)
    [DecidablePred stop] :
    Nat → α → List α
| 0, _ => []
| n + 1, c =>
    if stop c then [] else c :: path next stop n (next c)

variable {next next' : α → α} {stop : α → Prop}
variable {c d : α} {cs ds : List α}

/- A node determines its chain. -/
theorem Walks.unique
    (hLeft : Walks next stop c cs)
    (hRight : Walks next stop c ds) :
    cs = ds := by
  induction cs generalizing c ds with
  | nil =>
      cases ds with
      | nil => rfl
      | cons d ds => exact absurd hLeft hRight.1
  | cons b bs ih =>
      cases ds with
      | nil => exact absurd hRight hLeft.1
      | cons d ds =>
          rcases hLeft with ⟨_, rfl, hLeft⟩
          rcases hRight with ⟨_, rfl, hRight⟩
          rw [ih hLeft hRight]

/- Every node of a chain starts the rest of the chain. -/
theorem Walks.suffix
    (hWalk : Walks next stop c (cs ++ d :: ds)) :
    Walks next stop d (d :: ds) := by
  induction cs generalizing c with
  | nil =>
      have hHead : d = c := hWalk.2.1
      subst hHead
      exact hWalk
  | cons b bs ih => exact ih hWalk.2.2

/- A chain never meets a node twice. -/
theorem Walks.nodup
    (hWalk : Walks next stop c cs) :
    cs.Nodup := by
  induction cs generalizing c with
  | nil => exact List.nodup_nil
  | cons b bs ih =>
      refine List.nodup_cons.mpr ⟨?_, ih hWalk.2.2⟩
      intro hMember
      rcases List.append_of_mem hMember with
        ⟨before, after, rfl⟩
      have hSuffix :
          Walks next stop b (b :: after) := by
        rw [← List.cons_append] at hWalk
        exact hWalk.suffix
      have hWhole :
          Walks next stop b (b :: (before ++ b :: after)) := by
        have hHead : b = c := hWalk.2.1
        subst hHead
        exact hWalk
      have hLength :=
        congrArg List.length (hSuffix.unique hWhole)
      simp only [List.length_cons, List.length_append]
        at hLength
      omega

/- Two nodes, each on the chain of the other, are one. -/
theorem Walks.eq_of_mem
    (hLeft : Walks next stop c cs)
    (hRight : Walks next stop d ds)
    (hMember : c ∈ ds)
    (hBack : d ∈ cs) :
    c = d := by
  rcases List.append_of_mem hMember with
    ⟨before, after, hSplit⟩
  rw [hSplit] at hRight
  have hSuffix : cs = c :: after :=
    hLeft.unique hRight.suffix
  cases before with
  | nil => exact hRight.2.1
  | cons b before =>
      have hStart : b = d := hRight.2.1
      have hNodup := hRight.nodup
      rw [hStart] at hNodup
      rw [hSuffix] at hBack
      exact absurd (List.mem_append_right before hBack)
        (List.nodup_cons.mp hNodup).1

/- No node of a chain satisfies the stopping condition. -/
theorem Walks.not_stop
    (hWalk : Walks next stop c cs)
    (hMember : d ∈ cs) :
    ¬ stop d := by
  rcases List.append_of_mem hMember with
    ⟨before, after, rfl⟩
  exact hWalk.suffix.1

/- Chains depend on the links of their own nodes only. -/
theorem Walks.congr
    (hWalk : Walks next stop c cs)
    (hLinks : ∀ b ∈ cs, next b = next' b) :
    Walks next' stop c cs := by
  induction cs generalizing c with
  | nil => exact hWalk
  | cons b bs ih =>
      rcases hWalk with ⟨hStop, rfl, hRest⟩
      have hNext : next b = next' b :=
        hLinks b List.mem_cons_self
      refine ⟨hStop, rfl, ?_⟩
      rw [← hNext]
      exact ih hRest fun e hMember =>
        hLinks e (List.mem_cons_of_mem _ hMember)

/- Each node of a chain is linked to the one after it. -/
theorem Walks.isChain
    (hWalk : Walks next stop c cs) :
    cs.IsChain fun a b => next a = b := by
  induction cs generalizing c with
  | nil => exact List.IsChain.nil
  | cons d ds ih =>
      rcases hWalk with ⟨_, rfl, hRest⟩
      cases ds with
      | nil => exact List.IsChain.singleton d
      | cons e es =>
          exact List.isChain_cons_cons.mpr
            ⟨hRest.2.1.symm, ih hRest⟩

/- Distinct linked nodes whose last one gets a stop behind it. -/
theorem Walks.of_isChain
    {last : α}
    (hLinks : (c :: cs).IsChain fun a b => next a = b)
    (hNodup : (c :: cs).Nodup)
    (hGo : ∀ a ∈ c :: cs, ¬ stop a)
    (hLast : (c :: cs).getLast? = some last)
    (hKeep : ∀ a, a ≠ last → next' a = next a)
    (hEnd : stop (next' last)) :
    Walks next' stop c (c :: cs) := by
  induction cs generalizing c with
  | nil =>
      cases hLast
      exact ⟨hGo c List.mem_cons_self, rfl, hEnd⟩
  | cons d ds ih =>
      rcases List.isChain_cons_cons.mp hLinks with
        ⟨hNext, hRest⟩
      rcases List.nodup_cons.mp hNodup with ⟨hOut, hNodup'⟩
      rw [List.getLast?_cons_cons] at hLast
      have hNe : c ≠ last := by
        rintro rfl
        exact hOut (List.mem_of_getLast? hLast)
      refine ⟨hGo c List.mem_cons_self, rfl, ?_⟩
      rw [hKeep c hNe, hNext]
      exact ih hRest hNodup'
        (fun a hMember =>
          hGo a (List.mem_cons_of_mem _ hMember))
        hLast

/-
  A chain is also one of other links exactly when its nodes
  keep their links; the last may stop at another node.
-/
theorem Walks.congr_iff
    (hWalk : Walks next stop c cs) :
    Walks next' stop c cs ↔
      ∀ b ∈ cs, next b = next' b ∨
        (stop (next b) ∧ stop (next' b)) := by
  induction cs generalizing c with
  | nil =>
      constructor
      · intro _ b hMember
        cases hMember
      · intro _
        exact hWalk
  | cons d ds ih =>
      rcases hWalk with ⟨hStop, rfl, hRest⟩
      constructor
      · rintro ⟨_, _, hRest'⟩
        cases ds with
        | nil =>
            intro b hMember
            rw [List.mem_singleton.mp hMember]
            exact Or.inr ⟨hRest, hRest'⟩
        | cons e es =>
            have hNext : next d = next' d :=
              hRest.2.1.symm.trans hRest'.2.1
            rw [← hNext] at hRest'
            intro b hMember
            rcases List.mem_cons.mp hMember with rfl | hTail
            · exact Or.inl hNext
            · exact (ih hRest).mp hRest' b hTail
      · intro hKept
        refine ⟨hStop, rfl, ?_⟩
        rcases hKept d List.mem_cons_self with
          hNext | ⟨hEnd, hEnd'⟩
        · rw [← hNext]
          exact (ih hRest).mpr fun b hTail =>
            hKept b (List.mem_cons_of_mem _ hTail)
        · cases ds with
          | nil => exact hEnd'
          | cons e es => exact absurd hEnd hRest.1

------------------------------------------------------------
-- Paths
------------------------------------------------------------

section Paths

variable [DecidablePred stop]

theorem path_length_le
    (n : Nat)
    (c : α) :
    (path next stop n c).length ≤ n := by
  induction n generalizing c with
  | zero => simp [path]
  | succ n ih =>
      unfold path
      split
      · simp
      · simpa using ih (next c)

/- A path depends on the links of its own nodes only. -/
theorem path_congr
    (n : Nat)
    (c : α)
    (hLinks : ∀ b ∈ path next stop n c, next' b = next b) :
    path next' stop n c = path next stop n c := by
  induction n generalizing c with
  | zero => rfl
  | succ n ih =>
      unfold path at hLinks ⊢
      split
      · rfl
      · rename_i hGo
        rw [if_neg hGo] at hLinks
        have hFirst : next' c = next c :=
          hLinks c List.mem_cons_self
        rw [hFirst, ih (next c) fun b hMember =>
          hLinks b (List.mem_cons_of_mem _ hMember)]

/- A path is the start of the chain it follows. -/
theorem Walks.path_eq_take
    (hWalk : Walks next stop c cs)
    (n : Nat) :
    path next stop n c = cs.take n := by
  induction cs generalizing c n with
  | nil =>
      cases n with
      | zero => rfl
      | succ n =>
          have hStop : stop c := hWalk
          simp [path, hStop]
  | cons b bs ih =>
      cases n with
      | zero => rfl
      | succ n =>
          rcases hWalk with ⟨hStop, rfl, hRest⟩
          simp [path, hStop, ih hRest n]

end Paths

end Linked
