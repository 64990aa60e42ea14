import Mathlib.Data.List.DropRight
import Mathlib.Data.List.Infix

/-
  The words of a text, which blanks separate.

  The words are the pieces between blanks that are not
  empty.  A reader that takes them one by one finds the
  first word and what is behind it, and the words of what is
  behind it are the other words.

  Main declarations:
    * `Words.words`
    * `Words.firstWord`, `Words.afterWord`
    * `Words.getD_words`
    * `Words.words_drop`
    * `Words.trim`, `Words.dropWhile_trim`
    * `Words.firstWord_rejoin`, `Words.afterWord_rejoin`
-/

------------------------------------------------------------
-- First Words
------------------------------------------------------------

namespace Words

variable {α : Type} {blank : α → Bool} {l w rest : List α}

/- The pieces between blanks that are not empty. -/
def words
    (blank : α → Bool)
    (l : List α) : List (List α) :=
  (l.splitOnP blank).filter fun w => !w.isEmpty

/- The characters up to the next blank, behind all blanks. -/
def firstWord
    (blank : α → Bool)
    (l : List α) : List α :=
  (l.dropWhile blank).takeWhile fun c => !blank c

/- The text from the end of the first word on. -/
def afterWord
    (blank : α → Bool)
    (l : List α) : List α :=
  (l.dropWhile blank).dropWhile fun c => !blank c

/- A text that is empty or starts with a blank. -/
def Ended
    (blank : α → Bool)
    (l : List α) : Prop :=
  ∀ c ∈ l.head?, blank c = true

theorem firstWord_append_afterWord
    (blank : α → Bool)
    (l : List α) :
    firstWord blank l ++ afterWord blank l = l.dropWhile blank :=
  List.takeWhile_append_dropWhile

theorem mem_of_mem_firstWord
    {c : α}
    (hMem : c ∈ firstWord blank l) :
    c ∈ l :=
  (List.dropWhile_suffix blank).mem
    ((List.takeWhile_prefix _).mem hMem)

theorem mem_of_mem_afterWord
    {c : α}
    (hMem : c ∈ afterWord blank l) :
    c ∈ l :=
  (List.dropWhile_suffix blank).mem
    ((List.dropWhile_suffix _).mem hMem)

theorem not_blank_of_mem_firstWord
    {c : α}
    (hMem : c ∈ firstWord blank l) :
    blank c = false := by
  have hNot := List.mem_takeWhile_imp hMem
  simpa using hNot

/- Dropping stops in front of another character. -/
theorem head?_dropWhile
    {p : α → Bool}
    {c : α}
    (hHead : c ∈ (l.dropWhile p).head?) :
    p c = false := by
  have hStop := List.head?_dropWhile_not p l
  rw [Option.mem_def.mp hHead] at hStop
  exact hStop

theorem afterWord_ended
    (blank : α → Bool)
    (l : List α) :
    Ended blank (afterWord blank l) := by
  intro c hHead
  have hStop := head?_dropWhile hHead
  simpa using hStop

/- Without a first word there is nothing but blanks. -/
theorem firstWord_eq_nil_iff :
    firstWord blank l = [] ↔ l.dropWhile blank = [] := by
  constructor
  · intro hNone
    cases hDrop : l.dropWhile blank with
    | nil => rfl
    | cons c s =>
        have hHead : blank c = false :=
          head?_dropWhile (l := l) (by
            rw [hDrop]
            exact rfl)
        unfold firstWord at hNone
        rw [hDrop, List.takeWhile_cons_of_pos (by
          rw [hHead]
          rfl)] at hNone
        exact absurd hNone (List.cons_ne_nil c _)
  · intro hDrop
    unfold firstWord
    rw [hDrop]
    rfl

theorem afterWord_eq_nil
    (hNone : firstWord blank l = []) :
    afterWord blank l = [] := by
  have hDrop := firstWord_eq_nil_iff.mp hNone
  unfold afterWord
  rw [hDrop]
  rfl

/- A word that is put in front is the first one. -/
theorem dropWhile_append
    (hWord : ∀ c ∈ w, blank c = false)
    (hSome : w ≠ []) :
    (w ++ rest).dropWhile blank = w ++ rest := by
  cases w with
  | nil => exact absurd rfl hSome
  | cons c w =>
      have hHead := hWord c List.mem_cons_self
      rw [List.cons_append,
        List.dropWhile_cons_of_neg (by simp [hHead])]

theorem firstWord_append
    (hWord : ∀ c ∈ w, blank c = false)
    (hSome : w ≠ [])
    (hEnded : Ended blank rest) :
    firstWord blank (w ++ rest) = w := by
  unfold firstWord
  rw [dropWhile_append hWord hSome,
    List.takeWhile_append_of_pos fun c hMem => by
      rw [hWord c hMem]
      rfl]
  cases rest with
  | nil => exact List.append_nil w
  | cons c s =>
      have hBlank : blank c = true := hEnded c rfl
      rw [List.takeWhile_cons_of_neg (by simp [hBlank]),
        List.append_nil]

theorem afterWord_append
    (hWord : ∀ c ∈ w, blank c = false)
    (hSome : w ≠ [])
    (hEnded : Ended blank rest) :
    afterWord blank (w ++ rest) = rest := by
  have hWhole := firstWord_append_afterWord blank (w ++ rest)
  rw [firstWord_append hWord hSome hEnded,
    dropWhile_append hWord hSome] at hWhole
  exact List.append_cancel_left hWhole

------------------------------------------------------------
-- Words One By One
------------------------------------------------------------

@[simp] theorem words_nil
    (blank : α → Bool) :
    words blank [] = [] :=
  rfl

/- A blank in front belongs to no word. -/
theorem words_cons_blank
    {c : α}
    (hBlank : blank c = true) :
    words blank (c :: l) = words blank l := by
  have hNone : ∀ a ∈ ([] : List α), blank a = false := by
    intro a hMem
    exact absurd hMem List.not_mem_nil
  have hSplit :=
    List.splitOnP_append_cons_of_forall_mem hNone c hBlank l
  rw [List.nil_append] at hSplit
  unfold words
  rw [hSplit]
  rfl

theorem words_dropWhile
    (blank : α → Bool)
    (l : List α) :
    words blank (l.dropWhile blank) = words blank l := by
  induction l with
  | nil => rfl
  | cons c l ih =>
      cases hBlank : blank c with
      | true =>
          rw [List.dropWhile_cons_of_pos hBlank, ih,
            words_cons_blank hBlank]
      | false =>
          rw [List.dropWhile_cons_of_neg (by simp [hBlank])]

theorem words_append
    (hWord : ∀ c ∈ w, blank c = false)
    (hSome : w ≠ [])
    (hEnded : Ended blank rest) :
    words blank (w ++ rest) = w :: words blank rest := by
  have hKept :
      ∀ ws : List (List α),
        (w :: ws).filter (fun w => !w.isEmpty) =
          w :: ws.filter fun w => !w.isEmpty := by
    intro ws
    exact List.filter_cons_of_pos (by simpa using hSome)
  cases rest with
  | nil =>
      unfold words
      rw [List.append_nil, List.splitOnP_eq_singleton hWord,
        hKept]
      rfl
  | cons c s =>
      have hBlank : blank c = true := hEnded c rfl
      rw [words_cons_blank hBlank]
      unfold words
      rw [List.splitOnP_append_cons_of_forall_mem hWord c hBlank,
        hKept]

theorem words_eq_nil
    (hNone : firstWord blank l = []) :
    words blank l = [] := by
  rw [← words_dropWhile, firstWord_eq_nil_iff.mp hNone,
    words_nil]

theorem words_eq_cons
    (hSome : firstWord blank l ≠ []) :
    words blank l =
      firstWord blank l :: words blank (afterWord blank l) := by
  rw [← words_dropWhile, ← firstWord_append_afterWord]
  exact words_append (fun c => not_blank_of_mem_firstWord) hSome
    (afterWord_ended blank l)

/- The words, taken one after the other. -/
theorem getD_words
    (blank : α → Bool)
    (l : List α)
    (k : Nat) :
    (words blank l).getD k [] =
      firstWord blank ((afterWord blank)^[k] l) := by
  induction k generalizing l with
  | zero =>
      by_cases hSome : firstWord blank l = []
      · rw [words_eq_nil hSome]
        exact hSome.symm
      · rw [words_eq_cons hSome]
        rfl
  | succ k ih =>
      rw [Function.iterate_succ_apply, ← ih]
      by_cases hSome : firstWord blank l = []
      · rw [words_eq_nil hSome, afterWord_eq_nil hSome]
        rfl
      · rw [words_eq_cons hSome]
        rfl

theorem words_afterWord
    (blank : α → Bool)
    (l : List α) :
    words blank (afterWord blank l) = (words blank l).tail := by
  by_cases hSome : firstWord blank l = []
  · rw [words_eq_nil hSome, afterWord_eq_nil hSome]
    rfl
  · rw [words_eq_cons hSome, List.tail_cons]

theorem words_iterate
    (blank : α → Bool)
    (l : List α)
    (k : Nat) :
    words blank ((afterWord blank)^[k] l) =
      (words blank l).drop k := by
  induction k with
  | zero => rfl
  | succ k ih =>
      rw [Function.iterate_succ_apply', words_afterWord, ih,
        List.tail_drop]

/- What is left of a word that is cut is one more word. -/
theorem words_drop
    {n : Nat}
    (hCut : n < (firstWord blank l).length) :
    words blank ((l.dropWhile blank).drop n) =
      (firstWord blank l).drop n ::
        words blank (afterWord blank l) := by
  rw [← firstWord_append_afterWord,
    List.drop_append_of_le_length (Nat.le_of_lt hCut)]
  refine words_append (fun c hMem => ?_) ?_
    (afterWord_ended blank l)
  · exact not_blank_of_mem_firstWord (List.mem_of_mem_drop hMem)
  · exact mt List.drop_eq_nil_iff.mp (Nat.not_le.mpr hCut)

/- Behind the whole word the other words are left. -/
theorem drop_firstWord
    (blank : α → Bool)
    (l : List α) :
    (l.dropWhile blank).drop (firstWord blank l).length =
      afterWord blank l := by
  rw [← firstWord_append_afterWord, List.drop_left]

------------------------------------------------------------
-- Texts Without Blanks At Their Ends
------------------------------------------------------------

/- A text without the blanks at both of its ends. -/
def trim
    (blank : α → Bool)
    (l : List α) : List α :=
  (l.dropWhile blank).rdropWhile blank

theorem mem_of_mem_trim
    {c : α}
    (hMem : c ∈ trim blank l) :
    c ∈ l :=
  (List.dropWhile_suffix blank).mem
    ((List.rdropWhile_prefix blank _).mem hMem)

/- A trimmed text starts with the character it started with. -/
theorem dropWhile_trim
    (blank : α → Bool)
    (l : List α) :
    (trim blank l).dropWhile blank = trim blank l := by
  cases hTrim : trim blank l with
  | nil => rfl
  | cons c s =>
      have hPrefix : c :: s <+: l.dropWhile blank :=
        hTrim ▸ List.rdropWhile_prefix blank (l.dropWhile blank)
      rcases hPrefix with ⟨t, hWhole⟩
      have hHead : blank c = false :=
        head?_dropWhile (l := l) (by
          rw [← hWhole]
          exact rfl)
      rw [List.dropWhile_cons_of_neg (by simp [hHead])]

/- The first word and a trimmed rest, joined by a blank. -/
def rejoin
    (blank : α → Bool)
    (c : α)
    (l : List α) : List α :=
  firstWord blank l ++ c :: trim blank (afterWord blank l)

section Rejoin

variable {c : α}

theorem mem_rejoin
    {b : α}
    (hMem : b ∈ rejoin blank c l) :
    b = c ∨ b ∈ l := by
  rcases List.mem_append.mp hMem with hWord | hRest
  · exact .inr (mem_of_mem_firstWord hWord)
  · rcases List.mem_cons.mp hRest with hBlank | hTrim
    · exact .inl hBlank
    · exact .inr
        (mem_of_mem_afterWord (mem_of_mem_trim hTrim))

theorem rejoin_eq_nil
    (hNone : firstWord blank l = []) :
    rejoin blank c l = [c] := by
  unfold rejoin
  rw [hNone, afterWord_eq_nil hNone]
  rfl

theorem firstWord_rejoin
    (hBlank : blank c = true)
    (l : List α) :
    firstWord blank (rejoin blank c l) = firstWord blank l := by
  by_cases hSome : firstWord blank l = []
  · have hDrop : [c].dropWhile blank = [] :=
      List.dropWhile_cons_of_pos hBlank
    rw [rejoin_eq_nil hSome, hSome]
    exact firstWord_eq_nil_iff.mpr hDrop
  · exact firstWord_append (fun c => not_blank_of_mem_firstWord)
      hSome fun b hHead => Option.some.inj hHead ▸ hBlank

/- What is behind the first word is trimmed already. -/
theorem afterWord_rejoin
    (hBlank : blank c = true)
    (l : List α) :
    (afterWord blank (rejoin blank c l)).dropWhile blank =
      trim blank (afterWord blank l) := by
  by_cases hSome : firstWord blank l = []
  · have hNone : firstWord blank (rejoin blank c l) = [] := by
      rw [firstWord_rejoin hBlank, hSome]
    rw [afterWord_eq_nil hNone, afterWord_eq_nil hSome]
    rfl
  · have hEnded :
        Ended blank (c :: trim blank (afterWord blank l)) :=
      fun b hHead => Option.some.inj hHead ▸ hBlank
    rw [rejoin,
      afterWord_append (fun c => not_blank_of_mem_firstWord)
        hSome hEnded,
      List.dropWhile_cons_of_pos hBlank, dropWhile_trim]

theorem trim_afterWord_rejoin
    (hBlank : blank c = true)
    (l : List α) :
    trim blank (afterWord blank (rejoin blank c l)) =
      trim blank (afterWord blank l) := by
  have hAfter := afterWord_rejoin hBlank l
  unfold trim at hAfter ⊢
  rw [hAfter, List.rdropWhile_idempotent]

end Rejoin

end Words
