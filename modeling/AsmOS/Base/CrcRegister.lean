import Mathlib.Data.FinEnum
import Mathlib.Tactic.Ring
import AsmOS.Base.ByteMem

/-
  A reflected checksum register that is fed bytes.

  A step shifts the register to the right and adds the
  polynomial when the bit shifted out is one; a byte is added
  to the low end and shifted through by eight steps.  A
  polynomial with its top bit set makes every step
  invertible, and then as many bytes as the register holds
  drive it from any value to any other.

  Main declarations:
    * `CrcRegister.step`, `CrcRegister.feed`
    * `CrcRegister.step_iterate_surjective`
    * `CrcRegister.exists_bytes`
-/

------------------------------------------------------------
-- The Register
------------------------------------------------------------

namespace AsmOS

namespace CrcRegister

open ByteMem

variable {w : Nat} (poly : BitVec w)

def step
    (reg : BitVec w) : BitVec w :=
  if reg.getLsbD 0 then (reg >>> 1) ^^^ poly else reg >>> 1

def feed
    (reg : BitVec w)
    (b : UInt8) : BitVec w :=
  (step poly)^[8] (reg ^^^ BitVec.ofNat w b.toNat)

------------------------------------------------------------
-- Linearity
------------------------------------------------------------

theorem step_xor
    (a b : BitVec w) :
    step poly (a ^^^ b) = step poly a ^^^ step poly b := by
  unfold step
  simp only [BitVec.getLsbD_xor,
    BitVec.ushiftRight_xor_distrib]
  cases a.getLsbD 0 with
  | false =>
      cases b.getLsbD 0 with
      | false => simp
      | true => simp [BitVec.xor_assoc]
  | true =>
      cases b.getLsbD 0 with
      | false =>
          simp only [Bool.xor_false, if_true,
            Bool.false_eq_true, if_false]
          ac_rfl
      | true =>
          have hCancel :
              (a >>> 1) ^^^ poly ^^^ ((b >>> 1) ^^^ poly) =
                (a >>> 1) ^^^ (b >>> 1) ^^^ (poly ^^^ poly) := by
            ac_rfl
          simp [hCancel]

theorem step_iterate_xor
    (n : Nat)
    (a b : BitVec w) :
    (step poly)^[n] (a ^^^ b) =
      (step poly)^[n] a ^^^ (step poly)^[n] b := by
  induction n with
  | zero => rfl
  | succ n ih =>
      simp only [Function.iterate_succ_apply', ih, step_xor]

/- A sum of registers is fed as one, with the rest of zeros. -/
theorem foldl_feed_xor
    (bytes : List UInt8)
    (a b : BitVec w) :
    bytes.foldl (feed poly) (a ^^^ b) =
      bytes.foldl (feed poly) a ^^^
        (step poly)^[8 * bytes.length] b := by
  induction bytes generalizing a b with
  | nil => simp
  | cons c bytes ih =>
      have hFeed :
          feed poly (a ^^^ b) c =
            feed poly a c ^^^ (step poly)^[8] b := by
        unfold feed
        rw [← step_iterate_xor]
        congr 1
        ac_rfl
      have hCount :
          8 * (c :: bytes).length = 8 * bytes.length + 8 := by
        rw [List.length_cons]
        ring
      rw [List.foldl_cons, List.foldl_cons, hFeed, ih, hCount,
        Function.iterate_add_apply]

------------------------------------------------------------
-- Invertible Steps
------------------------------------------------------------

variable {poly}

/- Only the zero register is shifted to zero. -/
theorem eq_zero_of_step
    (hTop : poly.msb = true)
    {reg : BitVec w}
    (hZero : step poly reg = 0#w) :
    reg = 0#w := by
  unfold step at hZero
  split at hZero
  · have hSame : reg >>> 1 = poly := by
      rwa [BitVec.xor_eq_zero_iff] at hZero
    have hClear : (reg >>> 1).msb = false := by
      rw [BitVec.msb_ushiftRight]
      simp
    rw [hSame, hTop] at hClear
    cases hClear
  next hBit =>
    apply BitVec.eq_of_getLsbD_eq
    intro i _
    rw [BitVec.getLsbD_zero]
    cases i with
    | zero => exact Bool.eq_false_iff.mpr hBit
    | succ i =>
        have hGet :=
          congrArg (fun x => BitVec.getLsbD x i) hZero
        simpa [BitVec.getLsbD_ushiftRight, Nat.add_comm]
          using hGet

theorem step_injective
    (hTop : poly.msb = true) :
    Function.Injective (step poly) := by
  intro a b hSame
  have hZero : step poly (a ^^^ b) = 0#w := by
    rw [step_xor, hSame, BitVec.xor_self]
  exact BitVec.xor_eq_zero_iff.mp (eq_zero_of_step hTop hZero)

theorem step_iterate_surjective
    (hTop : poly.msb = true)
    (n : Nat) :
    Function.Surjective (step poly)^[n] := by
  have hFinite : Finite (BitVec w) := inferInstance
  exact (Finite.injective_iff_surjective.mp
    (step_injective hTop)).iterate n

------------------------------------------------------------
-- Bytes Of A Register
------------------------------------------------------------

/- The number that bytes spell, the first one lowest. -/
def value : List UInt8 → Nat
| [] => 0
| b :: bytes => b.toNat + 256 * value bytes

theorem two_pow_mul_eight
    (k : Nat) :
    2 ^ (8 * k) = 256 ^ k := by
  rw [pow_mul]
  norm_num

theorem value_lt
    (bytes : List UInt8) :
    value bytes < 256 ^ bytes.length := by
  induction bytes with
  | nil => simp [value]
  | cons b bytes ih =>
      have hByte := b.toNat_lt
      rw [value, List.length_cons, pow_succ]
      omega

/- Every number below `256 ^ k` is spelled by `k` bytes. -/
theorem exists_value
    (k n : Nat)
    (hBound : n < 256 ^ k) :
    ∃ bytes : List UInt8,
      bytes.length = k ∧ value bytes = n := by
  induction k generalizing n with
  | zero =>
      refine ⟨[], rfl, ?_⟩
      simp only [pow_zero] at hBound
      simp only [value]
      omega
  | succ k ih =>
      rw [pow_succ] at hBound
      rcases ih (n / 256) (by omega) with
        ⟨bytes, hLength, hValue⟩
      refine ⟨UInt8.ofNat n :: bytes, ?_, ?_⟩
      · rw [List.length_cons, hLength]
      · rw [value, hValue, UInt8.toNat_ofNat']
        omega

/- Zero bits are shifted out. -/
theorem step_double
    {m : Nat}
    (hFits : 2 * m < 2 ^ w) :
    step poly (BitVec.ofNat w (2 * m)) = BitVec.ofNat w m := by
  have hEven :
      (BitVec.ofNat w (2 * m)).getLsbD 0 = false := by
    rw [BitVec.getLsbD_ofNat]
    simp
  unfold step
  rw [hEven, if_neg Bool.false_ne_true]
  apply BitVec.eq_of_toNat_eq
  rw [BitVec.toNat_ushiftRight, BitVec.toNat_ofNat,
    BitVec.toNat_ofNat, Nat.mod_eq_of_lt hFits,
    Nat.mod_eq_of_lt (by omega), Nat.shiftRight_eq_div_pow]
  omega

theorem step_iterate_shift
    (k : Nat)
    {m : Nat}
    (hFits : 2 ^ k * m < 2 ^ w) :
    (step poly)^[k] (BitVec.ofNat w (2 ^ k * m)) =
      BitVec.ofNat w m := by
  induction k with
  | zero => simp
  | succ k ih =>
      have hDouble : 2 ^ (k + 1) * m = 2 * (2 ^ k * m) := by
        ring
      rw [hDouble] at hFits
      rw [hDouble, Function.iterate_succ_apply,
        step_double hFits]
      exact ih (by omega)

/- A byte cancels the low end of a register. -/
theorem ofNat_xor_byte
    (b : UInt8)
    (m : Nat) :
    BitVec.ofNat w (b.toNat + 256 * m) ^^^
        BitVec.ofNat w b.toNat =
      BitVec.ofNat w (2 ^ 8 * m) := by
  have hLow : b.toNat < 2 ^ 8 := b.toNat_lt
  rw [← BitVec.ofNat_xor]
  congr 1
  apply Nat.eq_of_testBit_eq
  intro i
  have hSum : b.toNat + 256 * m = 2 ^ 8 * m + b.toNat := by
    ring
  rw [hSum, Nat.testBit_xor,
    Nat.testBit_two_pow_mul_add _ hLow,
    Nat.testBit_two_pow_mul]
  by_cases hi : i < 8
  · simp [hi, Nat.not_le.mpr hi]
  · have hClear : b.toNat.testBit i = false :=
      Nat.testBit_lt_two_pow
        (hLow.trans_le (Nat.pow_le_pow_right (by omega)
          (by omega)))
    simp [hi, hClear, Nat.le_of_not_lt hi]

/- A register is emptied by the bytes that it holds. -/
theorem foldl_feed_value
    (bytes : List UInt8)
    (hFits : 8 * bytes.length ≤ w) :
    bytes.foldl (feed poly) (BitVec.ofNat w (value bytes)) =
      0#w := by
  induction bytes with
  | nil => rfl
  | cons b bytes ih =>
      rw [List.length_cons] at hFits
      have hBound : 2 ^ 8 * value bytes < 2 ^ w := by
        calc
          2 ^ 8 * value bytes < 2 ^ 8 * 256 ^ bytes.length :=
            Nat.mul_lt_mul_of_pos_left (value_lt bytes)
              (by omega)
          _ = 2 ^ (8 + 8 * bytes.length) := by
            rw [pow_add, two_pow_mul_eight]
          _ ≤ 2 ^ w :=
            Nat.pow_le_pow_right (by omega) (by omega)
      rw [List.foldl_cons, value, feed, ofNat_xor_byte,
        step_iterate_shift 8 hBound]
      exact ih (by omega)

------------------------------------------------------------
-- Reaching A Checksum
------------------------------------------------------------

/- Bytes that fill the register lead to every checksum. -/
theorem exists_bytes
    (hTop : poly.msb = true)
    {k : Nat}
    (hWidth : w = 8 * k)
    (start target : BitVec w) :
    ∃ bytes : List UInt8,
      bytes.length = k ∧
        bytes.foldl (feed poly) start = target := by
  rcases step_iterate_surjective hTop (8 * k) target with
    ⟨source, hSource⟩
  have hBound : (start ^^^ source).toNat < 256 ^ k := by
    have hPower : 2 ^ w = 256 ^ k := by
      rw [hWidth, two_pow_mul_eight]
    rw [← hPower]
    exact BitVec.isLt _
  rcases exists_value k _ hBound with
    ⟨bytes, hLength, hValue⟩
  refine ⟨bytes, hLength, ?_⟩
  have hEmpty :
      bytes.foldl (feed poly) (BitVec.ofNat w (value bytes)) =
        0#w :=
    foldl_feed_value bytes (by omega)
  rw [hValue, BitVec.ofNat_toNat, BitVec.setWidth_eq,
    foldl_feed_xor, hLength, hSource] at hEmpty
  exact BitVec.xor_eq_zero_iff.mp hEmpty

end CrcRegister

end AsmOS
