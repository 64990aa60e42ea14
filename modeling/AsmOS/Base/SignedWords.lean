import Mathlib.Algebra.Order.Ring.Abs
import Mathlib.Algebra.Order.Ring.Int

/-
  Signed words as integers, and the conversions between
  signed and unsigned words of 32 bits.

  Main declarations:
    * `SignedWords.Fits`
    * `SignedWords.toInt_add`, `SignedWords.toInt_sub`,
      `SignedWords.toInt_mul`, `SignedWords.toInt_neg`
    * `SignedWords.ofInt_inj`, `SignedWords.ofInt_lt`
    * `SignedWords.toInt_toInt32`
    * `SignedWords.toNat_toUInt32`
    * `SignedWords.squares_le_iff`
-/

------------------------------------------------------------
-- Arithmetic
------------------------------------------------------------

namespace SignedWords

/- An integer that is the value of a signed word. -/
def Fits
    (z : Int) : Prop :=
  -2 ^ 31 ≤ z ∧ z < 2 ^ 31

variable {a b : Int32}

theorem bmod_of_fits
    {z : Int}
    (hFits : Fits z) :
    z.bmod (2 ^ 32) = z := by
  have hLow := hFits.1
  have hHigh := hFits.2
  exact Int.bmod_eq_of_le (by omega) (by omega)

theorem toInt_add
    (hFits : Fits (a.toInt + b.toInt)) :
    (a + b).toInt = a.toInt + b.toInt := by
  rw [Int32.toInt_add, bmod_of_fits hFits]

theorem toInt_sub
    (hFits : Fits (a.toInt - b.toInt)) :
    (a - b).toInt = a.toInt - b.toInt := by
  rw [Int32.toInt_sub, bmod_of_fits hFits]

theorem toInt_mul
    (hFits : Fits (a.toInt * b.toInt)) :
    (a * b).toInt = a.toInt * b.toInt := by
  rw [Int32.toInt_mul, bmod_of_fits hFits]

/- The square of a value of at most 15 bits. -/
theorem toInt_square
    {n : Nat}
    (hSmall : a.toInt.natAbs ≤ n)
    (hRange : n < 2 ^ 15) :
    (a * a).toInt = a.toInt ^ 2 ∧ a.toInt ^ 2 ≤ (n : Int) ^ 2 := by
  have hSquare : a.toInt ^ 2 ≤ (n : Int) ^ 2 :=
    sq_le_sq' (by omega) (by omega)
  have hBound : (n : Int) ^ 2 < (2 ^ 15) ^ 2 :=
    sq_lt_sq' (by omega) (by omega)
  have hPositive := sq_nonneg a.toInt
  have hFits : Fits (a.toInt * a.toInt) := by
    rw [← sq]
    exact ⟨by omega, by omega⟩
  rw [toInt_mul hFits, ← sq]
  exact ⟨rfl, hSquare⟩

theorem toInt_neg
    (hFits : Fits (-a.toInt)) :
    (-a).toInt = -a.toInt := by
  rw [Int32.toInt_neg, bmod_of_fits hFits]

theorem add_right_comm
    (a b c : Int32) :
    a + b + c = a + c + b := by
  rw [Int32.add_assoc, Int32.add_comm b, ← Int32.add_assoc]

------------------------------------------------------------
-- Words Of Integers
------------------------------------------------------------

section OfInt

variable {z w : Int}

theorem toInt_ofInt
    (hFits : Fits z) :
    (Int32.ofInt z).toInt = z :=
  Int32.toInt_ofInt_of_le hFits.1 hFits.2

theorem ofInt_inj
    (hz : Fits z)
    (hw : Fits w) :
    Int32.ofInt z = Int32.ofInt w ↔ z = w := by
  rw [← Int32.toInt_inj, toInt_ofInt hz, toInt_ofInt hw]

theorem ofInt_lt
    (hz : Fits z)
    (hw : Fits w) :
    Int32.ofInt z < Int32.ofInt w ↔ z < w := by
  rw [Int32.lt_iff_toInt_lt, toInt_ofInt hz, toInt_ofInt hw]

end OfInt

------------------------------------------------------------
-- Conversions
------------------------------------------------------------

/- The value of an unsigned word that is read as signed. -/
theorem toInt_toInt32
    {a : UInt32}
    (hSmall : a.toNat < 2 ^ 31) :
    a.toInt32.toInt = a.toNat := by
  have hValue :
      a.toInt32.toInt = (a.toNat : Int).bmod (2 ^ 32) :=
    BitVec.toInt_eq_toNat_bmod a.toBitVec
  rw [hValue]
  exact bmod_of_fits ⟨by omega, by omega⟩

/- The value of a signed word that is read as unsigned. -/
theorem toNat_toUInt32
    (a : Int32) :
    (a.toUInt32.toNat : Int) =
      if 0 ≤ a.toInt then a.toInt else a.toInt + 2 ^ 32 := by
  have hValue :
      a.toInt =
        (if 2 * a.toUInt32.toNat < 2 ^ 32 then
          (a.toUInt32.toNat : Int)
        else (a.toUInt32.toNat : Int) - (2 ^ 32 : Nat)) :=
    BitVec.toInt_eq_toNat_cond a.toBitVec
  have hRange := a.toUInt32.toNat_lt
  split_ifs at hValue ⊢ <;> omega

theorem toInt32_eq_ofInt
    {a : UInt32}
    (hSmall : a.toNat < 2 ^ 31) :
    a.toInt32 = Int32.ofInt a.toNat := by
  rw [← Int32.toInt_inj, toInt_toInt32 hSmall,
    toInt_ofInt ⟨by omega, by omega⟩]

/- A word of a natural number, read as unsigned. -/
theorem toNat_ofInt
    {z : Int}
    (hLow : 0 ≤ z)
    (hHigh : z < 2 ^ 31) :
    ((Int32.ofInt z).toUInt32.toNat : Int) = z := by
  have hValue := toNat_toUInt32 (Int32.ofInt z)
  rw [toInt_ofInt ⟨by omega, hHigh⟩, if_pos hLow] at hValue
  exact hValue

/- The difference of two unsigned words, read as signed. -/
theorem toInt_sub_toInt32
    {a b : UInt32}
    (ha : a.toNat < 2 ^ 31)
    (hb : b.toNat < 2 ^ 31) :
    (a - b).toInt32.toInt = (a.toNat : Int) - b.toNat := by
  have hSplit : (a - b).toInt32 = a.toInt32 - b.toInt32 := rfl
  have hFits : Fits (a.toInt32.toInt - b.toInt32.toInt) := by
    rw [toInt_toInt32 ha, toInt_toInt32 hb]
    exact ⟨by omega, by omega⟩
  rw [hSplit, toInt_sub hFits, toInt_toInt32 ha,
    toInt_toInt32 hb]

/- Two squares against a third that bounds both of them. -/
theorem squares_le_iff
    {r : UInt32}
    (ha : a.toInt.natAbs ≤ r.toNat)
    (hb : b.toInt.natAbs ≤ r.toNat)
    (hr : r.toNat < 2 ^ 15) :
    (a * a + b * b).toUInt32 ≤ r * r ↔
      a.toInt ^ 2 + b.toInt ^ 2 ≤ (r.toNat : Int) ^ 2 := by
  have hA := toInt_square ha hr
  have hB := toInt_square hb hr
  have hPositiveA := sq_nonneg a.toInt
  have hPositiveB := sq_nonneg b.toInt
  have hBound : (r.toNat : Int) ^ 2 ≤ (2 ^ 15 - 1) ^ 2 :=
    sq_le_sq' (by omega) (by omega)
  have hSum :
      (a * a + b * b).toInt = a.toInt ^ 2 + b.toInt ^ 2 := by
    rw [← hA.1, ← hB.1]
    apply toInt_add
    rw [hA.1, hB.1]
    exact ⟨by omega, by omega⟩
  have hLeft := toNat_toUInt32 (a * a + b * b)
  rw [hSum, if_pos (by omega)] at hLeft
  have hRight : (r * r).toNat = r.toNat ^ 2 := by
    have hWord : r.toNat ^ 2 < 2 ^ 32 := by
      have hNat : ((r.toNat ^ 2 : Nat) : Int) < 2 ^ 32 := by
        rw [Nat.cast_pow]
        omega
      exact_mod_cast hNat
    rw [UInt32.toNat_mul, ← sq, Nat.mod_eq_of_lt hWord]
  rw [UInt32.le_iff_toNat_le, hRight, ← Int.ofNat_le, hLeft,
    Nat.cast_pow]

end SignedWords
