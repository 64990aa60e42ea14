import Mathlib.Data.List.Basic

/-
  Reversing a list in place.

  Main declarations:
    * `Reversal.swap`, `Reversal.swapEnds`
    * `Reversal.swapEnds_eq_reverse`
-/

------------------------------------------------------------
-- Swaps
------------------------------------------------------------

namespace Reversal

variable {α : Type}

/- Exchange the items `j` and `k`. -/
def swap
    (j k : Nat)
    (xs : List α) : List α :=
  match xs[j]?, xs[k]? with
  | some a, some b => (xs.set j b).set k a
  | _, _ => xs

/- Exchange the ends, and so on up to the middle. -/
def swapEnds
    (xs : List α) : List α :=
  (List.range (xs.length / 2)).foldl
    (fun t j => swap j (xs.length - 1 - j) t) xs

theorem length_swap
    (j k : Nat)
    (xs : List α) :
    (swap j k xs).length = xs.length := by
  unfold swap
  split
  · rw [List.length_set, List.length_set]
  · rfl

theorem getElem?_swap
    {j k : Nat}
    {xs : List α}
    (hj : j < xs.length)
    (hk : k < xs.length)
    (i : Nat) :
    (swap j k xs)[i]? =
      if i = k then xs[j]? else if i = j then xs[k]? else xs[i]? := by
  unfold swap
  rw [List.getElem?_eq_getElem hj, List.getElem?_eq_getElem hk]
  dsimp only
  have hLength : k < (xs.set j (xs[k])).length := by
    rw [List.length_set]
    exact hk
  by_cases hik : i = k
  · subst hik
    rw [if_pos rfl, List.getElem?_set_self hLength]
  · rw [if_neg hik, List.getElem?_set_ne (Ne.symm hik)]
    by_cases hij : i = j
    · subst hij
      rw [if_pos rfl, List.getElem?_set_self hj]
    · rw [if_neg hij, List.getElem?_set_ne (Ne.symm hij)]

/- After `n` exchanges the outer items are in place. -/
theorem getElem?_swaps
    (xs : List α)
    {n : Nat}
    (hn : n ≤ xs.length / 2) :
    let t :=
      (List.range n).foldl
        (fun t j => swap j (xs.length - 1 - j) t) xs
    t.length = xs.length ∧
      ∀ i < xs.length,
        t[i]? =
          if i < n ∨ xs.length - 1 - i < n then
            xs[xs.length - 1 - i]?
          else xs[i]? := by
  induction n with
  | zero =>
      refine ⟨rfl, fun i hi => ?_⟩
      rw [if_neg (by omega)]
      rfl
  | succ n ih =>
      rcases ih (by omega) with ⟨hLength, hItems⟩
      dsimp only
      rw [List.range_succ, List.foldl_append]
      dsimp only [List.foldl_cons, List.foldl_nil]
      refine ⟨(length_swap _ _ _).trans hLength, fun i hi => ?_⟩
      have hLow := (hItems n (by omega)).trans (if_neg (by omega))
      have hHigh :=
        (hItems (xs.length - 1 - n) (by omega)).trans
          (if_neg (by omega))
      rw [getElem?_swap (by rw [hLength]; omega)
        (by rw [hLength]; omega), hLow, hHigh, hItems i hi]
      by_cases hRight : i = xs.length - 1 - n
      · rw [if_pos hRight, if_pos (by omega)]
        congr 1
        omega
      · rw [if_neg hRight]
        by_cases hLeft : i = n
        · rw [if_pos hLeft, if_pos (by omega), hLeft]
        · rw [if_neg hLeft]
          by_cases hDone : i < n ∨ xs.length - 1 - i < n
          · rw [if_pos hDone, if_pos (by omega)]
          · rw [if_neg hDone, if_neg (by omega)]

theorem swapEnds_eq_reverse
    (xs : List α) :
    swapEnds xs = xs.reverse := by
  rcases getElem?_swaps xs (Nat.le_refl _) with
    ⟨hLength, hItems⟩
  refine List.ext_getElem? fun i => ?_
  by_cases hi : i < xs.length
  · refine (hItems i hi).trans ?_
    rw [List.getElem?_reverse hi]
    by_cases hMiddle :
        i < xs.length / 2 ∨ xs.length - 1 - i < xs.length / 2
    · exact if_pos hMiddle
    · rw [if_neg hMiddle]
      congr 1
      omega
  · have hOut : xs.length ≤ i := Nat.not_lt.mp hi
    have hReversed : xs.reverse.length ≤ i := by
      rw [List.length_reverse]
      exact hOut
    rw [List.getElem?_eq_none hReversed]
    exact List.getElem?_eq_none (hLength ▸ hOut)

end Reversal
