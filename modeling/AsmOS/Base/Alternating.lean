import Mathlib.Data.List.Chain
import Mathlib.Data.List.Nodup
import Mathlib.Data.List.Perm.Subperm
import Mathlib.Data.List.Range
import Mathlib.Tactic.Common

/-
  Lists whose neighbours differ in a colour.

  At most half of such a list, rounded up, has one colour, so
  a longer run of distinct values of that colour leaves the
  list.

  Main declarations:
    * `Alternating`
    * `Alternating.countP_le`
    * `Alternating.exists_not_mem`
-/

------------------------------------------------------------
-- Alternating Lists
------------------------------------------------------------

variable {α : Type}

/- Neighbours differ in the colour `p`. -/
def Alternating
    (p : α → Bool)
    (l : List α) : Prop :=
  l.IsChain fun a b => p a ≠ p b

namespace Alternating

variable {p : α → Bool} {l : List α}

/- One of two neighbours has the colour. -/
theorem countP_le :
    ∀ {l : List α}, Alternating p l →
      l.countP p ≤ (l.length + 1) / 2
  | [], _ => by simp
  | [a], _ => by
      rw [List.countP_singleton]
      split
      · simp
      · simp
  | a :: b :: l, hColours => by
      have hPair := List.isChain_cons_cons.mp hColours
      have hRest : l.countP p ≤ (l.length + 1) / 2 :=
        countP_le hPair.2.of_cons
      have hFirst : p a ≠ p b := hPair.1
      simp only [List.countP_cons, List.length_cons]
      cases ha : p a with
      | false =>
          cases hb : p b with
          | false => exact absurd (ha.trans hb.symm) hFirst
          | true =>
              simp only [Bool.false_eq_true, if_false, if_true]
              omega
      | true =>
          cases hb : p b with
          | false =>
              simp only [Bool.false_eq_true, if_false, if_true]
              omega
          | true => exact absurd (ha.trans hb.symm) hFirst

/-
  Of distinct values with the colour, more than half as many
  as the list is long, one is not in the list.
-/
theorem exists_not_mem
    (hColours : Alternating p l)
    {f : Nat → α}
    {m : Nat}
    (hColour : ∀ n < m, p (f n) = true)
    (hDistinct :
      ∀ n < m, ∀ k < m, f n = f k → n = k)
    (hMany : (l.length + 1) / 2 < m) :
    ∃ n < m, f n ∉ l := by
  by_contra hAll
  push Not at hAll
  have hNodup : ((List.range m).map f).Nodup := by
    refine List.Nodup.map_on ?_ List.nodup_range
    intro n hn k hk hEq
    exact hDistinct n (List.mem_range.mp hn) k
      (List.mem_range.mp hk) hEq
  have hSubset : (List.range m).map f ⊆ l.filter p := by
    intro a hMember
    rcases List.mem_map.mp hMember with ⟨n, hn, rfl⟩
    rw [List.mem_range] at hn
    exact List.mem_filter.mpr ⟨hAll n hn, hColour n hn⟩
  have hLength := (hNodup.subperm hSubset).length_le
  rw [List.length_map, List.length_range,
    ← List.countP_eq_length_filter] at hLength
  have hHalf := hColours.countP_le
  omega

end Alternating
