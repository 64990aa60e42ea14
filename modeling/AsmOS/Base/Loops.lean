import Mathlib.Algebra.GroupWithZero.Nat
import Mathlib.Order.Basic

/-
  While loops, with a bound on how often the test is made,
  loops over a counter, and loops that poll until a poll
  succeeds.

  Main declarations:
    * `Loops.whileLoop`
    * `Loops.whileLoop_never`
    * `Loops.whileLoop_add`, `Loops.whileLoop_unique`
    * `Loops.whileLoop_kept`
    * `Loops.forLoop`, `Loops.Counts`
    * `Loops.forLoop_of_counts`, `Loops.forLoop_returns`
    * `Loops.upFrom`, `Loops.counts_lt`, `Loops.counts_le`
    * `Loops.pollLoop`, `Loops.FirstSuccess`
    * `Loops.pollLoop_cases`
-/

------------------------------------------------------------
-- While Loops
------------------------------------------------------------

namespace Loops

variable {σ : Type}

/-
  The state when the loop is left.  There is none if the
  test still holds when it is made for the last time.
-/
def whileLoop
    (test : σ → Bool)
    (body : σ → σ) : Nat → σ → Option σ
| 0, _ => none
| tests + 1, s =>
    if test s then whileLoop test body tests (body s)
    else some s

variable {test : σ → Bool} {body : σ → σ} {s t : σ}

/- A loop whose test fails is left at once. -/
theorem whileLoop_of_not
    (hTest : test s = false)
    (tests : Nat) :
    whileLoop test body (tests + 1) s = some s := by
  rw [whileLoop, if_neg (Bool.eq_false_iff.mp hTest)]

theorem whileLoop_of_test
    (hTest : test s = true)
    (tests : Nat) :
    whileLoop test body (tests + 1) s =
      whileLoop test body tests (body s) := by
  rw [whileLoop, if_pos hTest]

/- Under what keeps the test true a loop is never left. -/
theorem whileLoop_never
    (Inv : σ → Prop)
    (hTest : ∀ s, Inv s → test s = true)
    (hBody : ∀ s, Inv s → Inv (body s))
    (hInv : Inv s)
    (tests : Nat) :
    whileLoop test body tests s = none := by
  induction tests generalizing s with
  | zero => rfl
  | succ tests ih =>
      rw [whileLoop_of_test (hTest s hInv)]
      exact ih (hBody s hInv)

/- More tests do not change where a loop is left. -/
theorem whileLoop_add
    {tests : Nat}
    (hLeft : whileLoop test body tests s = some t)
    (more : Nat) :
    whileLoop test body (tests + more) s = some t := by
  induction tests generalizing s with
  | zero => cases hLeft
  | succ tests ih =>
      rw [Nat.add_right_comm]
      cases hTest : test s with
      | false =>
          rw [whileLoop_of_not hTest] at hLeft ⊢
          exact hLeft
      | true =>
          rw [whileLoop_of_test hTest] at hLeft ⊢
          exact ih hLeft

/- A loop whose test holds is left behind its body. -/
theorem whileLoop_behind
    (hTest : test s = true)
    {tests : Nat}
    (hLeft : whileLoop test body tests s = some t) :
    ∃ tests', whileLoop test body tests' (body s) = some t := by
  cases tests with
  | zero => cases hLeft
  | succ tests =>
      rw [whileLoop_of_test hTest] at hLeft
      exact ⟨tests, hLeft⟩

/- A loop is left in one state only. -/
theorem whileLoop_unique
    {tests tests' : Nat}
    {u : σ}
    (hLeft : whileLoop test body tests s = some t)
    (hLeft' : whileLoop test body tests' s = some u) :
    t = u := by
  have hBoth := whileLoop_add hLeft tests'
  rw [Nat.add_comm, whileLoop_add hLeft' tests] at hBoth
  exact (Option.some.inj hBoth).symm

/- What the body keeps holds when the loop is left. -/
theorem whileLoop_kept
    {Inv : σ → Prop}
    (hBody : ∀ s, Inv s → Inv (body s))
    (hInv : Inv s)
    {tests : Nat}
    (hLeft : whileLoop test body tests s = some t) :
    Inv t := by
  induction tests generalizing s with
  | zero => cases hLeft
  | succ tests ih =>
      cases hTest : test s with
      | false =>
          rw [whileLoop_of_not hTest] at hLeft
          cases hLeft
          exact hInv
      | true =>
          rw [whileLoop_of_test hTest] at hLeft
          exact ih (hBody s hInv) hLeft

------------------------------------------------------------
-- Counters
------------------------------------------------------------

section Counters

variable {ι : Type} {more : ι → Bool} {next : ι → ι}
variable {act : ι → σ → Option σ} {i : ι} {vs : List ι}

/-
  A loop over a counter, which its body does not change.
  There is no result if the body has none, or if the test
  still holds when it is made for the last time.
-/
def forLoop
    (more : ι → Bool)
    (next : ι → ι)
    (act : ι → σ → Option σ) : Nat → ι → σ → Option σ
| 0, _, _ => none
| tests + 1, i, s =>
    if more i then
      (act i s).bind fun t =>
        forLoop more next act tests (next i) t
    else some s

/- The values that a counter takes while the test holds. -/
def Counts
    (more : ι → Bool)
    (next : ι → ι) : ι → List ι → Prop
| i, [] => more i = false
| i, v :: vs => v = i ∧ more i = true ∧ Counts more next (next i) vs

/- A loop that is left does its body for these in order. -/
theorem forLoop_of_counts
    (hCounts : Counts more next i vs)
    {tests : Nat}
    (hTests : vs.length < tests)
    (s : σ) :
    forLoop more next act tests i s =
      vs.foldlM (fun t v => act v t) s := by
  induction vs generalizing i s tests with
  | nil =>
      have hNot : more i = false := hCounts
      cases tests with
      | zero => exact absurd hTests (Nat.not_lt_zero _)
      | succ tests =>
          rw [forLoop, if_neg (Bool.eq_false_iff.mp hNot)]
          rfl
  | cons v vs ih =>
      rcases hCounts with ⟨rfl, hMore, hRest⟩
      cases tests with
      | zero => exact absurd hTests (Nat.not_lt_zero _)
      | succ tests =>
          have hLess : vs.length < tests :=
            Nat.lt_of_succ_lt_succ hTests
          rw [forLoop, if_pos hMore, List.foldlM_cons]
          exact Option.bind_congr fun t _ => ih hRest hLess t

/- Then a body that always returns makes a loop that does. -/
theorem forLoop_returns
    {run : σ → ι → σ}
    (hCounts : Counts more next i vs)
    (hAct : ∀ v s, act v s = some (run s v))
    {tests : Nat}
    (hTests : vs.length < tests)
    (s : σ) :
    forLoop more next act tests i s = some (vs.foldl run s) := by
  have hSame :
      (fun t v => act v t) = fun t v => some (run t v) :=
    funext fun t => funext fun v => hAct v t
  rw [forLoop_of_counts hCounts hTests, hSame]
  exact List.foldlM_pure

/- A counter of another type that goes along with it. -/
theorem Counts.map
    {κ : Type}
    {more' : κ → Bool}
    {next' : κ → κ}
    {f : ι → κ}
    (hMore : ∀ j, more' (f j) = more j)
    (hNext : ∀ j, next' (f j) = f (next j))
    (hCounts : Counts more next i vs) :
    Counts more' next' (f i) (vs.map f) := by
  induction vs generalizing i with
  | nil => exact (hMore i).trans hCounts
  | cons v vs ih =>
      rcases hCounts with ⟨rfl, hHere, hRest⟩
      refine ⟨rfl, (hMore v).trans hHere, ?_⟩
      rw [hNext]
      exact ih hRest

/- The values from `a` on, `n` of them. -/
def upFrom : Nat → UInt32 → List UInt32
| 0, _ => []
| n + 1, a => a :: upFrom n (a + 1)

theorem upFrom_length
    (n : Nat)
    (a : UInt32) :
    (upFrom n a).length = n := by
  induction n generalizing a with
  | zero => rfl
  | succ n ih => exact congrArg Nat.succ (ih (a + 1))

/- Adding one does not wrap in front of another value. -/
theorem toNat_next
    {a : UInt32}
    (hBelow : a.toNat + 1 < 2 ^ 32) :
    (a + 1).toNat = a.toNat + 1 := by
  have hOne : (1 : UInt32).toNat = 1 := rfl
  rw [UInt32.toNat_add, hOne]
  exact Nat.mod_eq_of_lt hBelow

theorem mem_upFrom
    {n : Nat}
    {a v : UInt32}
    (hFits : a.toNat + n ≤ 2 ^ 32) :
    v ∈ upFrom n a ↔
      a.toNat ≤ v.toNat ∧ v.toNat < a.toNat + n := by
  induction n generalizing a with
  | zero =>
      refine iff_of_false List.not_mem_nil fun hBoth => ?_
      omega
  | succ n ih =>
      rw [upFrom, List.mem_cons]
      cases n with
      | zero =>
          rw [upFrom, or_iff_left List.not_mem_nil,
            ← UInt32.toNat_inj]
          omega
      | succ n =>
          have hNext := toNat_next (a := a) (by omega)
          rw [ih (by omega), hNext, ← UInt32.toNat_inj]
          omega

/- A counter below an unsigned bound. -/
theorem counts_lt
    (a b : UInt32) :
    Counts (fun i => decide (i < b)) (fun i => i + 1) a
      (upFrom (b.toNat - a.toNat) a) := by
  have hb := b.toNat_lt
  induction hCount : b.toNat - a.toNat generalizing a with
  | zero =>
      refine decide_eq_false fun hLess => ?_
      have hNat := UInt32.lt_iff_toNat_lt.mp hLess
      omega
  | succ n ih =>
      have hNext := toNat_next (a := a) (by omega)
      refine ⟨rfl, decide_eq_true ?_, ih (a + 1) (by omega)⟩
      exact UInt32.lt_iff_toNat_lt.mpr (by omega)

/- A counter up to an unsigned bound that can be passed. -/
theorem counts_le
    (a : UInt32)
    {b : UInt32}
    (hBound : b.toNat + 1 < 2 ^ 32) :
    Counts (fun i => decide (i ≤ b)) (fun i => i + 1) a
      (upFrom (b.toNat + 1 - a.toNat) a) := by
  induction hCount : b.toNat + 1 - a.toNat generalizing a with
  | zero =>
      refine decide_eq_false fun hLess => ?_
      have hNat := UInt32.le_iff_toNat_le.mp hLess
      omega
  | succ n ih =>
      have hNext := toNat_next (a := a) (by omega)
      refine ⟨rfl, decide_eq_true ?_, ih (a + 1) (by omega)⟩
      exact UInt32.le_iff_toNat_le.mpr (by omega)

end Counters

------------------------------------------------------------
-- Polling
------------------------------------------------------------

/-
  Polls from number `k` on, at most `tries` of them: whether
  one succeeded, the number of the next poll, and the state.
-/
def pollLoop
    (poll : Nat → σ → Bool × σ) :
    Nat → Nat → σ → Bool × Nat × σ
| 0, k, s => (false, k, s)
| tries + 1, k, s =>
    if (poll k s).1 then (true, k + 1, (poll k s).2)
    else pollLoop poll tries (k + 1) (poll k s).2

/- The state before poll `k`, if all polls are made. -/
def stateAt
    (poll : Nat → σ → Bool × σ)
    (s : σ) : Nat → σ
| 0 => s
| k + 1 => (poll k (stateAt poll s k)).2

/- Poll `k` succeeds in the state that it is made in. -/
def Succeeds
    (poll : Nat → σ → Bool × σ)
    (s : σ)
    (k : Nat) : Prop :=
  (poll k (stateAt poll s k)).1 = true

/- No poll before `k` does. -/
structure FirstSuccess
    (poll : Nat → σ → Bool × σ)
    (s : σ)
    (k : Nat) : Prop where
  succeeds : Succeeds poll s k
  first : ∀ j < k, ¬ Succeeds poll s j

variable {poll : Nat → σ → Bool × σ}

theorem pollLoop_from
    (poll : Nat → σ → Bool × σ)
    (s : σ)
    (tries k : Nat) :
    let out := pollLoop poll tries k (stateAt poll s k)
    (out.1 = true ∧
      ∃ n < tries, Succeeds poll s (k + n) ∧
        (∀ j < n, ¬ Succeeds poll s (k + j)) ∧
        out.2.1 = k + n + 1) ∨
    (out.1 = false ∧
      ∀ n < tries, ¬ Succeeds poll s (k + n)) := by
  induction tries generalizing k with
  | zero =>
      exact .inr ⟨rfl, fun n hn => absurd hn (Nat.not_lt_zero n)⟩
  | succ tries ih =>
      dsimp only
      by_cases hNow : Succeeds poll s k
      · have hHere :
            pollLoop poll (tries + 1) k (stateAt poll s k) =
              (true, k + 1, stateAt poll s (k + 1)) :=
          if_pos hNow
        rw [hHere]
        exact .inl ⟨rfl, 0, Nat.succ_pos tries, hNow,
          fun j hj => absurd hj (Nat.not_lt_zero j), rfl⟩
      · have hNext :
            pollLoop poll (tries + 1) k (stateAt poll s k) =
              pollLoop poll tries (k + 1)
                (stateAt poll s (k + 1)) :=
          if_neg hNow
        rw [hNext]
        rcases ih (k + 1) with
          ⟨hOut, n, hn, hLater, hBefore, hPolls⟩ |
            ⟨hOut, hNone⟩
        · refine .inl ⟨hOut, n + 1, Nat.succ_lt_succ hn, ?_, ?_,
            ?_⟩
          · rw [Nat.add_assoc, Nat.add_comm 1] at hLater
            exact hLater
          · intro j hj
            cases j with
            | zero => exact hNow
            | succ j =>
                have hOther := hBefore j (Nat.lt_of_succ_lt_succ hj)
                rw [Nat.add_assoc, Nat.add_comm 1] at hOther
                exact hOther
          · rw [← Nat.add_assoc, Nat.add_right_comm k n 1]
            exact hPolls
        · refine .inr ⟨hOut, fun n hn => ?_⟩
          cases n with
          | zero => exact hNow
          | succ n =>
              have hOther := hNone n (Nat.lt_of_succ_lt_succ hn)
              rw [Nat.add_assoc, Nat.add_comm 1] at hOther
              exact hOther

/- A loop ends at the first poll that succeeds, or at none. -/
theorem pollLoop_cases
    (poll : Nat → σ → Bool × σ)
    (s : σ)
    (tries : Nat) :
    ((pollLoop poll tries 0 s).1 = true ∧
      ∃ k < tries, FirstSuccess poll s k ∧
        (pollLoop poll tries 0 s).2.1 = k + 1) ∨
    ((pollLoop poll tries 0 s).1 = false ∧
      ∀ k < tries, ¬ Succeeds poll s k) := by
  have hFrom := pollLoop_from poll s tries 0
  simp only [Nat.zero_add] at hFrom
  rcases hFrom with
    ⟨hOut, k, hk, hSuccess, hBefore, hPolls⟩ | ⟨hOut, hNone⟩
  · exact .inl ⟨hOut, k, hk, ⟨hSuccess, hBefore⟩, hPolls⟩
  · exact .inr ⟨hOut, hNone⟩

theorem FirstSuccess.unique
    {k k' : Nat}
    (hFirst : FirstSuccess poll s k)
    (hFirst' : FirstSuccess poll s k') :
    k = k' := by
  rcases Nat.lt_trichotomy k k' with hLess | hSame | hMore
  · exact absurd hFirst.succeeds (hFirst'.first k hLess)
  · exact hSame
  · exact absurd hFirst'.succeeds (hFirst.first k' hMore)

/- The first success by what makes a poll succeed. -/
theorem firstSuccess_iff
    {P : Nat → Prop}
    (hSucceeds : ∀ j, Succeeds poll s j ↔ P j)
    (k : Nat) :
    FirstSuccess poll s k ↔ P k ∧ ∀ j < k, ¬ P j := by
  constructor
  · rintro ⟨hNow, hFirst⟩
    exact ⟨(hSucceeds k).mp hNow,
      fun j hj hP => hFirst j hj ((hSucceeds j).mpr hP)⟩
  · rintro ⟨hNow, hFirst⟩
    exact ⟨(hSucceeds k).mpr hNow,
      fun j hj hSuccess => hFirst j hj ((hSucceeds j).mp hSuccess)⟩

/-
  What must hold of the first success holds of the loop that
  ends there: a law about every success of the loop.
-/
theorem pollLoop_success_iff
    (poll : Nat → σ → Bool × σ)
    (s : σ)
    (tries : Nat)
    (law : Nat → Prop) :
    ((pollLoop poll tries 0 s).1 = true →
        law (pollLoop poll tries 0 s).2.1) ↔
      ∀ k < tries, FirstSuccess poll s k → law (k + 1) := by
  rcases pollLoop_cases poll s tries with
    ⟨hOut, k, hk, hFirst, hPolls⟩ | ⟨hOut, hNone⟩
  · rw [hOut, hPolls]
    constructor
    · intro hLaw k' _ hFirst'
      rw [← hFirst.unique hFirst']
      exact hLaw rfl
    · intro hLaw _
      exact hLaw k hk hFirst
  · rw [hOut]
    exact iff_of_true (fun hTrue => absurd hTrue (by decide))
      fun k hk hFirst => absurd hFirst.succeeds (hNone k hk)

end Loops
