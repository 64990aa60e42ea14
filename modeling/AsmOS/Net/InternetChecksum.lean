import Mathlib.Algebra.BigOperators.Group.Finset.Basic
import Mathlib.Algebra.Order.BigOperators.Group.Finset
import AsmOS.Base.ByteMem
import AsmOS.Base.Loops
import AsmOS.Base.OnesComplement

/-
  The Internet checksum (`src/net/icmp.c`): the complement of
  the one's complement sum of the 16-bit words of a buffer.

  Main declarations:
    * `checksum`
    * `foldLoop_returns`
    * `checksum_verifies`
-/

------------------------------------------------------------
-- The Checksum
------------------------------------------------------------

namespace AsmOS

namespace Net

open ByteMem Loops OnesComplement

/-
  The loop over the words from `p` on, and the last byte of
  an odd length.
-/
def sumWords
    (p : ByteMem) : Nat → UInt32 → UInt32
| 0, sum => sum
| 1, sum => sum + (p 0).toUInt32
| len + 2, sum =>
    sumWords (p.view 2) len (sum + UInt32.ofNat (load16 p 0))

/- The test and the body of the loop that adds the carries. -/
def foldMore
    (sum : UInt32) : Bool :=
  decide (sum >>> 16 ≠ 0)

def foldStep
    (sum : UInt32) : UInt32 :=
  (sum &&& (0xFFFF : UInt32)) + sum >>> (16 : UInt32)

/- There is no result when the loop needs more tests. -/
def checksum
    (tests : Nat)
    (data : ByteMem)
    (len : Nat) : Option UInt16 :=
  (whileLoop foldMore foldStep tests (sumWords data len 0)).map
    fun sum => (~~~sum).toUInt16

------------------------------------------------------------
-- Adding The Carries
------------------------------------------------------------

section Fold

variable (sum : UInt32)

theorem shiftRight_toNat :
    (sum >>> 16).toNat = sum.toNat / 65536 := by
  have hSixteen : (16 : UInt32).toNat % 32 = 16 := rfl
  rw [UInt32.toNat_shiftRight, hSixteen,
    Nat.shiftRight_eq_div_pow]

theorem foldMore_iff :
    foldMore sum = true ↔ 65536 ≤ sum.toNat := by
  unfold foldMore
  rw [decide_eq_true_eq, Ne, ← UInt32.toNat_inj,
    shiftRight_toNat, UInt32.toNat_zero]
  omega

/- The sum of the halves does not wrap. -/
theorem foldStep_toNat :
    (foldStep sum).toNat = addCarry 65536 sum.toNat := by
  have hBound := sum.toNat_lt
  have hMask : (0xFFFF : UInt32).toNat = 2 ^ 16 - 1 := rfl
  unfold foldStep addCarry
  rw [UInt32.toNat_add, UInt32.toNat_and, hMask,
    Nat.and_two_pow_sub_one_eq_mod, shiftRight_toNat]
  omega

/- A 16-bit sum leaves the loop. -/
theorem foldLoop_of_lt
    {sum : UInt32}
    (hSmall : sum.toNat < 65536)
    (tests : Nat) :
    whileLoop foldMore foldStep (tests + 1) sum = some sum := by
  apply whileLoop_of_not
  rw [Bool.eq_false_iff, Ne, foldMore_iff]
  exact Nat.not_le.mpr hSmall

/- Two turns are enough for any 32-bit sum. -/
theorem foldLoop_returns :
    ∃ r : UInt32,
      Folds 65536 sum.toNat r.toNat ∧
        ∀ tests, 3 ≤ tests →
          whileLoop foldMore foldStep tests sum = some r := by
  have hBound := sum.toNat_lt
  have hThree :
      ∃ r : UInt32,
        Folds 65536 sum.toNat r.toNat ∧
          whileLoop foldMore foldStep 3 sum = some r := by
    by_cases hOnce : sum.toNat < 65536
    · exact ⟨sum, Folds.self hOnce, foldLoop_of_lt hOnce 2⟩
    have hFirst := foldStep_toNat sum
    have hMore : foldMore sum = true :=
      (foldMore_iff sum).mpr (Nat.le_of_not_lt hOnce)
    rw [whileLoop_of_test hMore]
    by_cases hTwice : (foldStep sum).toNat < 65536
    · refine ⟨foldStep sum, ?_, foldLoop_of_lt hTwice 1⟩
      apply Folds.of_addCarry (by omega)
      rw [← hFirst]
      exact Folds.self hTwice
    have hSecond := foldStep_toNat (foldStep sum)
    have hMore' : foldMore (foldStep sum) = true :=
      (foldMore_iff _).mpr (Nat.le_of_not_lt hTwice)
    have hHalves : addCarry 65536 sum.toNat ≤ 2 * (65536 - 1) :=
      addCarry_le (by omega) (by omega)
    have hSmall : (foldStep (foldStep sum)).toNat < 65536 := by
      rw [hSecond, hFirst]
      exact addCarry_lt hHalves (by omega)
    rw [whileLoop_of_test hMore']
    refine ⟨foldStep (foldStep sum), ?_,
      foldLoop_of_lt hSmall 0⟩
    apply Folds.of_addCarry (by omega)
    apply Folds.of_addCarry (by omega)
    rw [← hFirst, ← hSecond]
    exact Folds.self hSmall
  rcases hThree with ⟨r, hFolds, hLeft⟩
  refine ⟨r, hFolds, fun tests hTests => ?_⟩
  have hAll := whileLoop_add hLeft (tests - 3)
  rwa [Nat.add_sub_cancel' hTests] at hAll

/- The complement of a 16-bit sum. -/
theorem complement_toNat
    {sum : UInt32}
    (hSmall : sum.toNat < 65536) :
    ((~~~sum).toUInt16).toNat = 65535 - sum.toNat := by
  have hSize : UInt32.size = 2 ^ 32 := rfl
  rw [UInt32.toNat_toUInt16, UInt32.toNat_not]
  omega

end Fold

------------------------------------------------------------
-- The Sum Of The Words
------------------------------------------------------------

/- The first `n` words, without a bound on their sum. -/
def wordSum
    (data : ByteMem)
    (n : Nat) : Nat :=
  ∑ i ∈ Finset.range n, load16 data (2 * i)

/- The words behind the first one. -/
theorem wordSum_succ
    (data : ByteMem)
    (n : Nat) :
    wordSum data (n + 1) =
      load16 data 0 + wordSum (data.view 2) n := by
  unfold wordSum
  rw [Finset.sum_range_succ', Nat.add_comm]
  congr 1
  apply Finset.sum_congr rfl
  intro i _
  rw [load16_view, Nat.mul_succ, Nat.add_comm 2]

/- As long as it does not wrap, the loop adds the words. -/
theorem sumWords_toNat
    (data : ByteMem)
    (n : Nat)
    (sum : UInt32)
    (hBound : sum.toNat + 65535 * n < 2 ^ 32) :
    (sumWords data (2 * n) sum).toNat =
      sum.toNat + wordSum data n := by
  induction n generalizing data sum with
  | zero => rfl
  | succ n ih =>
      have hWord := load16_lt data 0
      have hStored :
          (UInt32.ofNat (load16 data 0)).toNat =
            load16 data 0 :=
        UInt32.toNat_ofNat_of_lt' (by
          have hSize : UInt32.size = 2 ^ 32 := rfl
          omega)
      have hAdded :
          (sum + UInt32.ofNat (load16 data 0)).toNat =
            sum.toNat + load16 data 0 := by
        rw [UInt32.toNat_add, hStored]
        exact Nat.mod_eq_of_lt (by omega)
      rw [Nat.mul_succ, sumWords, ih _ _ (by omega), hAdded,
        wordSum_succ]
      omega

/- A word that was zero adds what is stored in it. -/
theorem wordSum_store16
    (data : ByteMem)
    {n k : Nat}
    (hk : k < n)
    (hZero : load16 data (2 * k) = 0)
    (v : UInt16) :
    wordSum (store16 data (2 * k) v.toNat) n =
      wordSum data n + v.toNat := by
  have hMember : k ∈ Finset.range n := Finset.mem_range.mpr hk
  have hOther :
      ∀ i ∈ (Finset.range n).erase k,
        load16 (store16 data (2 * k) v.toNat) (2 * i) =
          load16 data (2 * i) := by
    intro i hi
    have hNe := (Finset.mem_erase.mp hi).1
    exact load16_store16_of_disjoint _ _ (by omega)
  have hStored :
      load16 (store16 data (2 * k) v.toNat) (2 * k) =
        v.toNat := by
    rw [load16_store16]
    exact Nat.mod_eq_of_lt v.toNat_lt
  unfold wordSum
  rw [← Finset.add_sum_erase _ _ hMember, hStored,
    Finset.sum_congr rfl hOther,
    ← Finset.add_sum_erase _ (fun i => load16 data (2 * i))
      hMember, hZero]
  omega

------------------------------------------------------------
-- Verification
------------------------------------------------------------

/- The checksum of up to 65535 words. -/
theorem checksum_eq
    (data : ByteMem)
    {n : Nat}
    (hLen : n ≤ 65535) :
    ∃ r,
      Folds 65536 (wordSum data n) r ∧
        ∀ tests, 3 ≤ tests →
          checksum tests data (2 * n) =
            some (UInt16.ofNat (65535 - r)) := by
  have hSum := sumWords_toNat data n 0 (by
    rw [UInt32.toNat_zero]
    omega)
  rw [UInt32.toNat_zero, Nat.zero_add] at hSum
  rcases foldLoop_returns (sumWords data (2 * n) 0) with
    ⟨r, hFolds, hLeft⟩
  rw [hSum] at hFolds
  refine ⟨r.toNat, hFolds, fun tests hTests => ?_⟩
  unfold checksum
  rw [hLeft tests hTests, Option.map_some,
    ← complement_toNat hFolds.digit, UInt16.ofNat_toNat]

/- The checksum in a word that was zero makes up for all. -/
theorem checksum_stored
    (data : ByteMem)
    {n k : Nat}
    (hCount : n ≤ 65535)
    (hk : k < n)
    (hZero : load16 data (2 * k) = 0) :
    ∃ c, ∀ tests, 3 ≤ tests →
      checksum tests data (2 * n) = some c ∧
        checksum tests (store16 data (2 * k) c.toNat) (2 * n) =
          some 0 := by
  rcases checksum_eq data hCount with ⟨r, hFolds, hFirst⟩
  have hDigit := hFolds.digit
  have hStored :
      (UInt16.ofNat (65535 - r)).toNat = 65535 - r :=
    UInt16.toNat_ofNat_of_lt' (by
      have hSize : UInt16.size = 65536 := rfl
      omega)
  rcases checksum_eq
      (store16 data (2 * k)
        (UInt16.ofNat (65535 - r)).toNat) hCount with
    ⟨r', hWhole, hSecond⟩
  rw [wordSum_store16 data hk hZero, hStored] at hWhole
  have hFull : r' = 65535 :=
    hFolds.complement (by omega) hWhole
  refine ⟨_, fun tests hTests => ⟨hFirst tests hTests, ?_⟩⟩
  rw [hSecond tests hTests, hFull]
  rfl

/-
  The loop that adds the carries is left with a 16-bit sum.
  A checksum that is stored where a word of its buffer was
  zero makes the checksum of the buffer zero.
-/
theorem checksum_verifies
    (data : ByteMem)
    {len k : Nat}
    (hEven : len % 2 = 0)
    (hLen : len ≤ 131070)
    (hk : 2 * k + 2 ≤ len)
    (hZero : load16 data (2 * k) = 0) :
    (∀ sum : UInt32, ∃ r : UInt32, r.toNat < 65536 ∧
        ∀ tests, 3 ≤ tests →
          whileLoop foldMore foldStep tests sum = some r) ∧
      ∃ c, ∀ tests, 3 ≤ tests →
        checksum tests data len = some c ∧
          checksum tests (store16 data (2 * k) c.toNat) len =
            some 0 := by
  constructor
  · intro sum
    rcases foldLoop_returns sum with ⟨r, hFolds, hLeft⟩
    exact ⟨r, hFolds.digit, hLeft⟩
  · have hWords : len = 2 * (len / 2) := by omega
    rw [hWords]
    exact checksum_stored data (by omega) (by omega) hZero

/- Two bytes of data behind their checksum. -/
theorem checksum_verifies_four_bytes :
    ∃ c, ∀ tests, 3 ≤ tests →
      checksum tests (ofList [0, 0, 0xFF, 0xFE]) 4 = some c ∧
        checksum tests
            (store16 (ofList [0, 0, 0xFF, 0xFE]) 0 c.toNat) 4 =
          some 0 :=
  (checksum_verifies (ofList [0, 0, 0xFF, 0xFE])
    (show 4 % 2 = 0 by decide) (by decide)
    (show 2 * 0 + 2 ≤ 4 by decide) (by decide)).2

end Net

end AsmOS
