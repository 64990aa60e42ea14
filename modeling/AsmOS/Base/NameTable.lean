import Mathlib.Data.List.Basic

/-
  Tables of entries with names, of a fixed size.

  A name is cut when an entry is appended, and an entry is
  looked up by the whole of a name: the first one counts.

  Main declarations:
    * `CString`, `CString.cut`, `CString.same`
    * `NameTable`, `NameTable.push`, `NameTable.first?`
    * `NameTable.drop`
-/

------------------------------------------------------------
-- Strings
------------------------------------------------------------

/- The characters in front of the zero that ends a string. -/
@[ext] structure CString where
  chars : List UInt8
  ended : 0 ∉ chars

instance : DecidableEq CString := fun s t =>
  decidable_of_iff (s.chars = t.chars) CString.ext_iff.symm

namespace CString

/- A copy into an array with room for `n` characters. -/
def cut
    (n : Nat)
    (s : CString) : CString :=
  ⟨s.chars.take n,
    fun hMem => s.ended (List.mem_of_mem_take hMem)⟩

/- The loop that goes on while both characters are equal. -/
def sameChars : List UInt8 → List UInt8 → Bool
| [], [] => true
| a :: as, b :: bs => if a = b then sameChars as bs else false
| _, _ => false

def same
    (s t : CString) : Bool :=
  sameChars s.chars t.chars

theorem sameChars_iff
    (as bs : List UInt8) :
    sameChars as bs = true ↔ as = bs := by
  induction as generalizing bs with
  | nil =>
      cases bs with
      | nil => exact iff_of_true rfl rfl
      | cons b bs =>
          exact iff_of_false Bool.false_ne_true
            (List.cons_ne_nil b bs).symm
  | cons a as ih =>
      cases bs with
      | nil =>
          exact iff_of_false Bool.false_ne_true
            (List.cons_ne_nil a as)
      | cons b bs =>
          rw [sameChars, List.cons.injEq]
          by_cases hHead : a = b
          · rw [if_pos hHead, ih]
            exact (and_iff_right hHead).symm
          · rw [if_neg hHead]
            exact iff_of_false Bool.false_ne_true
              fun hBoth => hHead hBoth.1

theorem same_iff
    (s t : CString) :
    same s t = true ↔ s = t := by
  rw [CString.ext_iff]
  exact sameChars_iff s.chars t.chars

theorem cut_length_le
    (n : Nat)
    (s : CString) :
    (s.cut n).chars.length ≤ n := by
  unfold cut
  rw [List.length_take]
  exact Nat.min_le_left _ _

/- A string that fits is not cut, and no other is kept. -/
theorem cut_eq_self_iff
    {n : Nat}
    {s : CString} :
    s.cut n = s ↔ s.chars.length ≤ n := by
  constructor
  · intro hSame
    rw [← hSame]
    exact cut_length_le n s
  · intro hFits
    rw [CString.ext_iff]
    exact List.take_of_length_le hFits

/- Cut strings are the given ones if none of them is long. -/
theorem mem_map_cut_iff
    {n : Nat}
    {l : List CString} :
    (∀ s, s ∈ l.map (cut n) ↔ s ∈ l) ↔
      ∀ s ∈ l, s.chars.length ≤ n := by
  constructor
  · intro hSame s hMem
    rcases List.mem_map.mp ((hSame s).mpr hMem) with
      ⟨t, _, hCut⟩
    rw [← hCut]
    exact cut_length_le n t
  · intro hFits s
    have hMap : l.map (cut n) = l.map id :=
      List.map_congr_left fun t hMem =>
        cut_eq_self_iff.mpr (hFits t hMem)
    rw [hMap, List.map_id]

end CString

------------------------------------------------------------
-- Tables
------------------------------------------------------------

/- The entries in use, of an array of `max`. -/
structure NameTable
    (ε : Type)
    (max : Nat) where
  entries : List ε
  fits : entries.length ≤ max

namespace NameTable

variable {ε : Type} {max : Nat}

def empty : NameTable ε max :=
  ⟨[], Nat.zero_le max⟩

/- One more entry, while there is room. -/
def push
    (t : NameTable ε max)
    (e : ε) : Option (NameTable ε max) :=
  if hRoom : t.entries.length < max then
    some ⟨t.entries ++ [e], by
      rw [List.length_append, List.length_singleton]
      exact hRoom⟩
  else none

/- The first entry with a name. -/
def first?
    (name : ε → CString)
    (t : NameTable ε max)
    (n : CString) : Option ε :=
  t.entries.find? fun e => CString.same (name e) n

/- The entries without the first one with a name. -/
def dropFirst
    (name : ε → CString)
    (n : CString) : List ε → List ε
| [] => []
| e :: es =>
    if CString.same (name e) n then es
    else e :: dropFirst name n es

theorem dropFirst_length_le
    (name : ε → CString)
    (n : CString)
    (es : List ε) :
    (dropFirst name n es).length ≤ es.length := by
  induction es with
  | nil => exact Nat.le_refl 0
  | cons e es ih =>
      rw [dropFirst]
      split
      · exact Nat.le_succ _
      · exact Nat.succ_le_succ ih

/- The table without it, if there is one. -/
def drop?
    (name : ε → CString)
    (t : NameTable ε max)
    (n : CString) : Option (NameTable ε max) :=
  if (t.first? name n).isSome then
    some ⟨dropFirst name n t.entries,
      Nat.le_trans (dropFirst_length_le name n t.entries)
        t.fits⟩
  else none

/- The names lose the first one that is equal. -/
theorem map_dropFirst
    (name : ε → CString)
    (n : CString)
    (es : List ε) :
    (dropFirst name n es).map name = (es.map name).erase n := by
  induction es with
  | nil => rfl
  | cons e es ih =>
      rw [dropFirst, List.map_cons, List.erase_cons]
      by_cases hHere : name e = n
      · rw [if_pos ((CString.same_iff _ _).mpr hHere),
          if_pos (beq_iff_eq.mpr hHere)]
      · rw [if_neg (mt (CString.same_iff _ _).mp hHere),
          if_neg (mt beq_iff_eq.mp hHere), List.map_cons, ih]

/- The entries with other names stay, in their order. -/
theorem filter_dropFirst
    (name : ε → CString)
    (n : CString)
    (es : List ε) :
    (dropFirst name n es).filter (fun e => name e ≠ n) =
      es.filter fun e => name e ≠ n := by
  induction es with
  | nil => rfl
  | cons e es ih =>
      rw [dropFirst]
      by_cases hHere : name e = n
      · rw [if_pos ((CString.same_iff _ _).mpr hHere),
          List.filter_cons_of_neg (by simpa using hHere)]
      · rw [if_neg (mt (CString.same_iff _ _).mp hHere),
          List.filter_cons, List.filter_cons, ih]

section Lookup

variable {name : ε → CString} {t t' : NameTable ε max}
variable {e : ε} {n : CString}

theorem push_eq_some_iff :
    t.push e = some t' ↔
      t.entries.length < max ∧ t'.entries = t.entries ++ [e] := by
  unfold push
  split_ifs with hRoom
  · rw [Option.some.injEq, and_iff_right hRoom]
    constructor
    · rintro rfl
      rfl
    · intro hEntries
      cases t'
      cases hEntries
      rfl
  · exact iff_of_false nofun fun hBoth => hRoom hBoth.1

theorem push_eq_none_iff :
    t.push e = none ↔ ¬ t.entries.length < max := by
  unfold push
  split_ifs with hRoom
  · exact iff_of_false nofun fun hNot => hNot hRoom
  · exact iff_of_true rfl hRoom

/-
  A procedure that stores an entry for a string, if it gets
  one and there is room, and fails otherwise.
-/
theorem stored_cases
    {σ : Type}
    {s : σ}
    {entry : CString → ε}
    {put : NameTable ε max → σ}
    {f : Option CString → Int × σ}
    (hNone : f none = (-1, s))
    (hSome :
      ∀ g,
        f (some g) =
          (t.push (entry g)).elim (-1, s) fun t' => (0, put t'))
    (string : Option CString) :
    (f string = (-1, s) ∧
        ∀ g, string = some g → ¬ t.entries.length < max) ∨
      ∃ g t', string = some g ∧ t.entries.length < max ∧
        t'.entries = t.entries ++ [entry g] ∧
        f string = (0, put t') := by
  cases string with
  | none => exact .inl ⟨hNone, nofun⟩
  | some g =>
      cases hPush : t.push (entry g) with
      | none =>
          refine .inl ⟨?_, fun _ _ =>
            push_eq_none_iff.mp hPush⟩
          rw [hSome, hPush, Option.elim_none]
      | some t' =>
          have hBoth := push_eq_some_iff.mp hPush
          refine .inr ⟨g, t', rfl, hBoth.1, hBoth.2, ?_⟩
          rw [hSome, hPush, Option.elim_some]

theorem first?_isSome_iff :
    (t.first? name n).isSome ↔ n ∈ t.entries.map name := by
  unfold first?
  rw [List.find?_isSome, List.mem_map]
  simp only [CString.same_iff]

theorem first?_eq :
    t.first? name n = t.entries.find? fun e => name e = n := by
  unfold first?
  refine congrArg (fun p => t.entries.find? p) (funext fun e => ?_)
  rw [Bool.eq_iff_iff, CString.same_iff, decide_eq_true_iff]

theorem drop?_eq_some_iff :
    t.drop? name n = some t' ↔
      n ∈ t.entries.map name ∧
        t'.entries = dropFirst name n t.entries := by
  unfold drop?
  rw [← first?_isSome_iff]
  split_ifs with hFound
  · rw [Option.some.injEq, and_iff_right hFound]
    constructor
    · rintro rfl
      rfl
    · intro hEntries
      cases t'
      cases hEntries
      rfl
  · exact iff_of_false nofun fun hBoth => hFound hBoth.1

theorem drop?_eq_none_iff :
    t.drop? name n = none ↔ n ∉ t.entries.map name := by
  unfold drop?
  rw [← first?_isSome_iff]
  split_ifs with hFound
  · exact iff_of_false nofun fun hNot => hNot hFound
  · exact iff_of_true rfl hFound

end Lookup

end NameTable
