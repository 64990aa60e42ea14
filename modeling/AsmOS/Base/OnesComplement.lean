import Mathlib.Data.Nat.ModEq

/-
  Sums in one's complement: what a sum carries out of its
  digit in base `b` is added to the digit again.

  Main declarations:
    * `OnesComplement.addCarry`
    * `OnesComplement.Folds`
    * `OnesComplement.Folds.complement`
-/

------------------------------------------------------------
-- End-Around Carries
------------------------------------------------------------

namespace OnesComplement

variable {b n r r' : Nat}

/- The digit of a sum and what it carried. -/
def addCarry
    (b n : Nat) : Nat :=
  n % b + n / b

theorem eq_addCarry_add
    (hBase : 0 < b)
    (n : Nat) :
    n = addCarry b n + (b - 1) * (n / b) := by
  have hSplit : (b - 1) * (n / b) + n / b = b * (n / b) := by
    rw [← Nat.succ_mul, Nat.succ_eq_add_one,
      Nat.sub_add_cancel hBase]
  calc
    n = n % b + b * (n / b) := (Nat.mod_add_div n b).symm
    _ = n % b + ((b - 1) * (n / b) + n / b) := by rw [hSplit]
    _ = addCarry b n + (b - 1) * (n / b) := by
      unfold addCarry
      omega

theorem addCarry_modEq
    (hBase : 0 < b)
    (n : Nat) :
    addCarry b n ≡ n [MOD b - 1] := by
  have hStep :
      addCarry b n + (b - 1) * (n / b) ≡
        addCarry b n [MOD b - 1] := by
    unfold Nat.ModEq
    exact Nat.add_mul_mod_self_left _ _ _
  rw [← eq_addCarry_add hBase n] at hStep
  exact hStep.symm

theorem addCarry_eq_zero_iff :
    addCarry b n = 0 ↔ n = 0 := by
  constructor
  · intro hZero
    unfold addCarry at hZero
    have hHigh : n / b = 0 := (Nat.add_eq_zero_iff.mp hZero).2
    have hLow : n % b = 0 := (Nat.add_eq_zero_iff.mp hZero).1
    rw [← Nat.mod_add_div n b, hHigh, hLow, Nat.mul_zero]
  · rintro rfl
    rw [addCarry, Nat.zero_mod, Nat.zero_div]

/- A sum of two digits loses its carry in one step. -/
theorem addCarry_lt
    (hSmall : n ≤ 2 * (b - 1))
    (hBase : 0 < b) :
    addCarry b n < b := by
  unfold addCarry
  by_cases hDigit : n < b
  · rw [Nat.mod_eq_of_lt hDigit, Nat.div_eq_of_lt hDigit]
    exact hDigit
  · have hOne : n / b = 1 :=
      Nat.div_eq_of_lt_le (by omega) (by omega)
    rw [hOne, Nat.mod_eq_sub_mod (Nat.le_of_not_lt hDigit),
      Nat.mod_eq_of_lt (by omega)]
    omega

/- A number of two digits becomes a sum of two digits. -/
theorem addCarry_le
    (hBase : 0 < b)
    (hDigits : n < b * b) :
    addCarry b n ≤ 2 * (b - 1) := by
  have hLow := Nat.mod_lt n hBase
  have hHigh := Nat.div_lt_of_lt_mul hDigits
  unfold addCarry
  omega

------------------------------------------------------------
-- Folded Sums
------------------------------------------------------------

/- `r` is the digit that is left when all carries are in. -/
structure Folds
    (b n r : Nat) : Prop where
  digit : r < b
  same : r ≡ n [MOD b - 1]
  zero_iff : r = 0 ↔ n = 0

theorem Folds.self
    (hDigit : n < b) :
    Folds b n n :=
  ⟨hDigit, rfl, Iff.rfl⟩

theorem Folds.of_addCarry
    (hBase : 0 < b)
    (hFolds : Folds b (addCarry b n) r) :
    Folds b n r :=
  ⟨hFolds.digit, hFolds.same.trans (addCarry_modEq hBase n),
    hFolds.zero_iff.trans addCarry_eq_zero_iff⟩

/-
  With the complement of its folded sum added, a sum folds to
  the largest digit.  A sum of zero stands for itself only
  when nothing was added at all.
-/
theorem Folds.complement
    (hFolds : Folds b n r)
    (hBase : 1 < b)
    (hWhole : Folds b (n + (b - 1 - r)) r') :
    r' = b - 1 := by
  have hDigit := hFolds.digit
  have hTotal : r + (b - 1 - r) = b - 1 := by omega
  have hModulus : n + (b - 1 - r) ≡ 0 [MOD b - 1] := by
    calc
      n + (b - 1 - r) ≡ r + (b - 1 - r) [MOD b - 1] :=
        hFolds.same.symm.add_right _
      _ = b - 1 := hTotal
      _ ≡ 0 [MOD b - 1] := Nat.modEq_zero_iff_dvd.mpr dvd_rfl
  have hDvd : b - 1 ∣ r' :=
    Nat.modEq_zero_iff_dvd.mp (hWhole.same.trans hModulus)
  have hPos : r' ≠ 0 := by
    intro hZero
    have hNothing := hWhole.zero_iff.mp hZero
    have hFirst : r = 0 := hFolds.zero_iff.mpr (by omega)
    omega
  have hLe := Nat.le_of_dvd (Nat.pos_of_ne_zero hPos) hDvd
  have hLt := hWhole.digit
  omega

end OnesComplement
