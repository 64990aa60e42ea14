import Mathlib.Data.List.Basic
import Mathlib.Data.List.Infix
import Mathlib.Logic.Function.Basic

/-
  Lines that are typed and edited within a limited room, and
  stores that begin with a text.

  Main declarations:
    * `LineEdit.Edit`, `LineEdit.editLine`
    * `LineEdit.NeverFull`
    * `LineEdit.Key`, `LineEdit.editsOf`
    * `LineEdit.Begins`
-/

------------------------------------------------------------
-- Edits
------------------------------------------------------------

namespace LineEdit

variable {α ι σ : Type}

/- A character is typed, or the last one is taken back. -/
inductive Edit
    (α : Type) where
| char
    (c : α)
| backspace
deriving DecidableEq

/- A character for which there is no room is ignored. -/
def Edit.apply
    (room : Nat)
    (line : List α) : Edit α → List α
| .char c => if line.length < room then line ++ [c] else line
| .backspace => line.dropLast

/- The line after all edits, one after the other. -/
def editLine
    (room : Nat)
    (line : List α)
    (es : List (Edit α)) : List α :=
  es.foldl (Edit.apply room) line

/- There is room before, between and after the edits. -/
def NeverFull
    (room : Nat)
    (line : List α)
    (es : List (Edit α)) : Prop :=
  ∀ before ∈ es.inits,
    (editLine room line before).length < room

instance
    (room : Nat)
    (line : List α)
    (es : List (Edit α)) :
    Decidable (NeverFull room line es) :=
  inferInstanceAs (Decidable (∀ before ∈ es.inits, _))

section Editing

variable {room : Nat} {line : List α}

theorem Edit.apply_length_le
    (hFits : line.length ≤ room)
    (e : Edit α) :
    (e.apply room line).length ≤ room := by
  cases e with
  | char c =>
      unfold Edit.apply
      dsimp only
      split
      · next hRoom =>
          rw [List.length_append]
          exact hRoom
      · exact hFits
  | backspace =>
      have hLength : line.dropLast.length = line.length - 1 :=
        List.length_dropLast
      exact hLength ▸ (Nat.sub_le _ _).trans hFits

/- A line never has more characters than there is room for. -/
theorem editLine_length_le
    (hFits : line.length ≤ room)
    (es : List (Edit α)) :
    (editLine room line es).length ≤ room := by
  induction es generalizing line with
  | nil => exact hFits
  | cons e es ih => exact ih (Edit.apply_length_le hFits e)

theorem Edit.mem_apply
    {c : α}
    {e : Edit α}
    (hMem : c ∈ e.apply room line) :
    c ∈ line ∨ e = .char c := by
  cases e with
  | char b =>
      unfold Edit.apply at hMem
      dsimp only at hMem
      split at hMem
      · rcases List.mem_append.mp hMem with hOld | hNew
        · exact .inl hOld
        · rw [List.mem_singleton.mp hNew]
          exact .inr rfl
      · exact .inl hMem
  | backspace => exact .inl (List.mem_of_mem_dropLast hMem)

/- The characters of a line were typed. -/
theorem mem_editLine
    {c : α}
    {es : List (Edit α)}
    (hMem : c ∈ editLine room line es) :
    c ∈ line ∨ .char c ∈ es := by
  induction es generalizing line with
  | nil => exact .inl hMem
  | cons e es ih =>
      rcases ih hMem with hOld | hNew
      · rcases Edit.mem_apply hOld with hLine | rfl
        · exact .inl hLine
        · exact .inr List.mem_cons_self
      · exact .inr (List.mem_cons_of_mem e hNew)

theorem neverFull_nil :
    NeverFull room line [] ↔ line.length < room := by
  have hInits : ([] : List (Edit α)).inits = [[]] := rfl
  unfold NeverFull
  rw [hInits]
  exact List.forall_mem_singleton

theorem neverFull_cons
    (e : Edit α)
    (es : List (Edit α)) :
    NeverFull room line (e :: es) ↔
      line.length < room ∧
        NeverFull room (e.apply room line) es := by
  unfold NeverFull
  rw [List.inits_cons, List.forall_mem_cons,
    List.forall_mem_map]
  rfl

/- There is room at the start. -/
theorem NeverFull.start
    {es : List (Edit α)}
    (hNever : NeverFull room line es) :
    line.length < room :=
  hNever [] (List.mem_inits _ _ |>.mpr List.nil_prefix)

end Editing

------------------------------------------------------------
-- Keys
------------------------------------------------------------

/-
  What an item of the input stands for: an edit, the end of
  the line, or nothing but the next state of the keyboard.
-/
inductive Key
    (σ α : Type) where
| idle
    (next : σ)
| edit
    (e : Edit α)
| enter
deriving DecidableEq

/- The edits of an input in which no line ends. -/
def editsOf
    (key : σ → ι → Key σ α) :
    σ → List ι → Option (List (Edit α))
| _, [] => some []
| s, i :: input =>
    match key s i with
    | .idle next => editsOf key next input
    | .edit e => (editsOf key s input).map fun es => e :: es
    | .enter => none

/- The first item is idle or the first edit. -/
theorem editsOf_cons
    {key : σ → ι → Key σ α}
    {s : σ}
    {i : ι}
    {input : List ι}
    {es : List (Edit α)}
    (hEdits : editsOf key s (i :: input) = some es) :
    (∃ next, key s i = .idle next ∧
        editsOf key next input = some es) ∨
      ∃ e es', key s i = .edit e ∧ es = e :: es' ∧
        editsOf key s input = some es' := by
  rw [editsOf] at hEdits
  cases hKey : key s i with
  | idle next =>
      rw [hKey] at hEdits
      exact .inl ⟨next, rfl, hEdits⟩
  | edit e =>
      rw [hKey] at hEdits
      rcases Option.map_eq_some_iff.mp hEdits with
        ⟨es', hRest, hSame⟩
      exact .inr ⟨e, es', rfl, hSame.symm, hRest⟩
  | enter =>
      rw [hKey] at hEdits
      cases hEdits

/- An input of one edit after the other. -/
theorem editsOf_map
    {key : σ → ι → Key σ α}
    {s : σ}
    {item : Edit α → ι}
    {es : List (Edit α)}
    (hKey : ∀ e ∈ es, key s (item e) = .edit e) :
    editsOf key s (es.map item) = some es := by
  induction es with
  | nil => rfl
  | cons e es ih =>
      rcases List.forall_mem_cons.mp hKey with ⟨hFirst, hRest⟩
      rw [List.map_cons, editsOf, hFirst]
      dsimp only
      rw [ih hRest]
      rfl

/- What holds of every edit of a key holds of a whole input. -/
theorem editsOf_forall
    {key : σ → ι → Key σ α}
    {p : Edit α → Prop}
    (hKey : ∀ s i e, key s i = .edit e → p e)
    {s : σ}
    {input : List ι}
    {es : List (Edit α)}
    (hEdits : editsOf key s input = some es) :
    ∀ e ∈ es, p e := by
  induction input generalizing s es with
  | nil =>
      cases hEdits
      exact List.forall_mem_nil p
  | cons i input ih =>
      rcases editsOf_cons hEdits with
        ⟨next, _, hRest⟩ | ⟨e, es', hFirst, rfl, hRest⟩
      · exact ih hRest
      · exact List.forall_mem_cons.mpr
          ⟨hKey s i e hFirst, ih hRest⟩

------------------------------------------------------------
-- Stores
------------------------------------------------------------

/- The text stands at the beginning of the store. -/
def Begins
    (store : Nat → α)
    (text : List α) : Prop :=
  (List.range text.length).map store = text

section Stores

variable {store : Nat → α} {text : List α}

theorem begins_nil
    (store : Nat → α) :
    Begins store [] :=
  rfl

/- What is stored from a text's end on leaves it there. -/
theorem Begins.update
    (hBegins : Begins store text)
    (c : α) :
    Begins (Function.update store text.length c) text := by
  have hSame :
      (List.range text.length).map
          (Function.update store text.length c) =
        (List.range text.length).map store := by
    refine List.map_congr_left fun k hMem => ?_
    exact Function.update_of_ne
      (Nat.ne_of_lt (List.mem_range.mp hMem)) c store
  exact hSame.trans hBegins

theorem Begins.append
    (hBegins : Begins store text)
    (c : α) :
    Begins (Function.update store text.length c)
      (text ++ [c]) := by
  have hFront := hBegins.update c
  unfold Begins at hFront ⊢
  rw [List.length_append, List.length_singleton,
    List.range_succ, List.map_append, hFront,
    List.map_singleton, Function.update_self]

theorem Begins.dropLast
    (hBegins : Begins store text) :
    Begins store text.dropLast := by
  unfold Begins at hBegins ⊢
  rw [List.length_dropLast]
  conv_rhs => rw [← hBegins]
  rw [← List.map_dropLast, List.dropLast_eq_take,
    List.length_range, List.take_range,
    Nat.min_eq_left (Nat.sub_le _ _)]

end Stores

end LineEdit
