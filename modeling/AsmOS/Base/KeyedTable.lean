import Mathlib.Data.List.Nodup

/-
  Tables of entries with keys, in which the first entry under
  a key is changed.

  Main declarations:
    * `KeyedTable.changeFirst`
    * `KeyedTable.changeFirst_eq_none_iff`
    * `KeyedTable.changeFirst_eq_map`
    * `KeyedTable.find?_eq_some`
    * `KeyedTable.keepGreatest`, `keepGreatest_spec`
-/

------------------------------------------------------------
-- Changes
------------------------------------------------------------

namespace KeyedTable

variable {ε κ : Type} [DecidableEq κ]
variable {key : ε → κ} {k : κ} {f : ε → ε} {es : List ε}

/- The entries after the change, if there is one to change. -/
def changeFirst
    (key : ε → κ)
    (k : κ)
    (f : ε → ε) : List ε → Option (List ε)
| [] => none
| e :: es =>
    if key e = k then some (f e :: es)
    else (changeFirst key k f es).map fun rest => e :: rest

theorem changeFirst_eq_none_iff :
    changeFirst key k f es = none ↔ k ∉ es.map key := by
  induction es with
  | nil => exact iff_of_true rfl List.not_mem_nil
  | cons e es ih =>
      rw [changeFirst, List.map_cons, List.mem_cons, not_or]
      by_cases hHere : key e = k
      · rw [if_pos hHere]
        exact iff_of_false nofun
          fun hNot => hNot.1 hHere.symm
      · rw [if_neg hHere, Option.map_eq_none_iff, ih]
        exact (and_iff_right (Ne.symm hHere)).symm

/- The entries with other keys, in a table without twins. -/
theorem map_other
    (hNew : k ∉ es.map key) :
    (es.map fun e => if key e = k then f e else e) = es := by
  refine (List.map_congr_left fun e hMem => if_neg ?_).trans
    (List.map_id es)
  intro hSame
  exact hNew (List.mem_map.mpr ⟨e, hMem, hSame⟩)

theorem changeFirst_eq_map
    (hNodup : (es.map key).Nodup)
    (hMem : k ∈ es.map key) :
    changeFirst key k f es =
      some (es.map fun e => if key e = k then f e else e) := by
  induction es with
  | nil => exact absurd hMem List.not_mem_nil
  | cons e es ih =>
      rw [List.map_cons, List.nodup_cons] at hNodup
      rw [changeFirst, List.map_cons]
      by_cases hHere : key e = k
      · rw [if_pos hHere, if_pos hHere,
          map_other (hHere ▸ hNodup.1)]
      · have hRest :=
          (List.mem_cons.mp hMem).resolve_left (Ne.symm hHere)
        rw [if_neg hHere, if_neg hHere, ih hNodup.2 hRest]
        rfl

/- The change keeps the keys. -/
theorem map_key_change
    (hKey : ∀ e, key (f e) = key e)
    (es : List ε) :
    (es.map fun e => if key e = k then f e else e).map key =
      es.map key := by
  rw [List.map_map]
  refine List.map_congr_left fun e _ => ?_
  dsimp only [Function.comp_apply]
  split_ifs
  · exact hKey e
  · rfl

/- The entry under a key is the one that is found. -/
theorem find?_eq_some
    (hNodup : (es.map key).Nodup)
    {e : ε}
    (hMem : e ∈ es) :
    (es.find? fun e' => key e' = key e) = some e := by
  induction es with
  | nil => cases hMem
  | cons d es ih =>
      rw [List.map_cons, List.nodup_cons] at hNodup
      rcases List.mem_cons.mp hMem with rfl | hRest
      · exact List.find?_cons_of_pos (decide_eq_true rfl)
      · have hOther : key d ≠ key e := by
          intro hSame
          exact hNodup.1
            (List.mem_map.mpr ⟨e, hRest, hSame.symm⟩)
        rw [List.find?_cons_of_neg (by simpa using hOther)]
        exact ih hNodup.2 hRest

------------------------------------------------------------
-- The Greatest Entry
------------------------------------------------------------

/-
  A search that starts at an entry and changes to each later
  one that is greater.
-/
def keepGreatest
    (greater : ε → ε → Bool)
    (e : ε)
    (es : List ε) : ε :=
  es.foldl (fun best e => if greater e best then e else best) e

/- It finds an entry that none of them exceeds. -/
theorem keepGreatest_spec
    {rank : ε → Nat}
    {greater : ε → ε → Bool}
    (hGreater : ∀ a b, greater a b = true ↔ rank b < rank a)
    (e : ε)
    (es : List ε) :
    keepGreatest greater e es ∈ e :: es ∧
      ∀ e' ∈ e :: es,
        rank e' ≤ rank (keepGreatest greater e es) := by
  induction es generalizing e with
  | nil =>
      refine ⟨List.mem_singleton_self e, fun e' hMem => ?_⟩
      rw [List.mem_singleton.mp hMem]
      exact Nat.le_refl _
  | cons d es ih =>
      rcases ih (if greater d e then d else e) with
        ⟨hFound, hMost⟩
      have hStep :
          keepGreatest greater e (d :: es) =
            keepGreatest greater
              (if greater d e then d else e) es :=
        rfl
      have hFirst := hMost _ List.mem_cons_self
      rw [hStep]
      constructor
      · rcases List.mem_cons.mp hFound with hHere | hLater
        · rw [hHere]
          split
          · exact List.mem_cons_of_mem _ List.mem_cons_self
          · exact List.mem_cons_self
        · exact List.mem_cons_of_mem _
            (List.mem_cons_of_mem _ hLater)
      · have hBoth :
            rank e ≤ rank (if greater d e then d else e) ∧
              rank d ≤ rank (if greater d e then d else e) := by
          split
          · next hTest =>
              exact ⟨Nat.le_of_lt ((hGreater d e).mp hTest),
                Nat.le_refl _⟩
          · next hTest =>
              exact ⟨Nat.le_refl _,
                Nat.not_lt.mp (mt (hGreater d e).mpr hTest)⟩
        intro e' hMem
        rcases List.mem_cons.mp hMem with rfl | hRest
        · exact Nat.le_trans hBoth.1 hFirst
        · rcases List.mem_cons.mp hRest with rfl | hLater
          · exact Nat.le_trans hBoth.2 hFirst
          · exact hMost e' (List.mem_cons_of_mem _ hLater)

end KeyedTable
