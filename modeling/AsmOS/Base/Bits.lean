import Mathlib.Data.Int.Bitwise
import Mathlib.Data.Nat.Bitwise
import Mathlib.Tactic.Ring

/-
  Masks and bit fields as arithmetic.

  Main declarations:
    * `Bits.and_mask_shiftLeft`
    * `Bits.or_shiftLeft`
    * `Bits.or_two_bytes`, `Bits.or_four_bytes`
    * `Bits.land_ones`
-/

------------------------------------------------------------
-- Masks And Fields
------------------------------------------------------------

namespace Bits

/- A mask of `k` ones above `n` zeros selects a field. -/
theorem and_mask_shiftLeft
    (x k n : Nat) :
    x &&& ((2 ^ k - 1) <<< n) = x / 2 ^ n % 2 ^ k * 2 ^ n := by
  rw [← Nat.shiftRight_eq_div_pow,
    ← Nat.and_two_pow_sub_one_eq_mod, ← Nat.shiftLeft_eq]
  apply Nat.eq_of_testBit_eq
  intro i
  rw [Nat.testBit_and, Nat.testBit_shiftLeft,
    Nat.testBit_shiftLeft, Nat.testBit_and,
    Nat.testBit_shiftRight]
  by_cases hi : n ≤ i
  · rw [show n + (i - n) = i by omega]
    simp [hi]
  · simp [hi]

/- Bit fields that do not overlap are added. -/
theorem or_shiftLeft
    {a b n : Nat}
    (ha : a < 2 ^ n) :
    a ||| (b <<< n) = a + 2 ^ n * b := by
  rw [Nat.or_comm, ← Nat.shiftLeft_add_eq_or_of_lt ha,
    Nat.shiftLeft_eq]
  ring

/- A word is put together from its bytes by shifts. -/
theorem or_two_bytes
    (a : Nat)
    {b : Nat}
    (hb : b < 256) :
    b ||| (a <<< 8) = b + 256 * a :=
  or_shiftLeft (n := 8) hb

theorem or_four_bytes
    (a : Nat)
    {b c d : Nat}
    (hb : b < 256)
    (hc : c < 256)
    (hd : d < 256) :
    a <<< 24 ||| b <<< 16 ||| c <<< 8 ||| d =
      d + 256 * (c + 256 * (b + 256 * a)) := by
  have hHigh : a <<< 24 = ((a <<< 8) <<< 8) <<< 8 := by
    rw [← Nat.shiftLeft_add, ← Nat.shiftLeft_add]
  have hMiddle : b <<< 16 = (b <<< 8) <<< 8 := by
    rw [← Nat.shiftLeft_add]
  calc
    a <<< 24 ||| b <<< 16 ||| c <<< 8 ||| d =
        ((a <<< 8 ||| b) <<< 8 ||| c) <<< 8 ||| d := by
      rw [hHigh, hMiddle, ← Nat.shiftLeft_or_distrib,
        ← Nat.shiftLeft_or_distrib, ← Nat.shiftLeft_or_distrib]
    _ = d ||| (c ||| (b ||| a <<< 8) <<< 8) <<< 8 := by
      rw [Nat.or_comm (a <<< 8), Nat.or_comm _ c,
        Nat.or_comm _ d]
    _ = d + 256 * (c + 256 * (b + 256 * a)) := by
      rw [or_two_bytes a hb, or_two_bytes _ hc,
        or_two_bytes _ hd]

------------------------------------------------------------
-- Masked Integers
------------------------------------------------------------

/- The bits of a mask that a number leaves. -/
theorem ldiff_ones
    (m n : Nat) :
    Nat.ldiff (2 ^ n - 1) m = 2 ^ n - (m % 2 ^ n + 1) := by
  apply Nat.eq_of_testBit_eq
  intro i
  have hSmall : m % 2 ^ n < 2 ^ n :=
    Nat.mod_lt m (Nat.two_pow_pos n)
  rw [Nat.testBit_ldiff, Nat.testBit_two_pow_sub_one,
    Nat.testBit_two_pow_sub_succ hSmall, Nat.testBit_mod_two_pow]
  by_cases hi : i < n
  · simp [hi]
  · simp [hi]

/- A mask of `n` ones leaves an integer modulo `2 ^ n`. -/
theorem land_ones
    (v : Int)
    (n : Nat) :
    Int.land v ((2 ^ n - 1 : Nat) : Int) =
      v % ((2 ^ n : Nat) : Int) := by
  have hPos := Nat.two_pow_pos n
  cases v with
  | ofNat m =>
      have hMask := Nat.and_two_pow_sub_one_eq_mod m n
      exact congrArg Int.ofNat hMask
  | negSucc m =>
      have hSmall : m % 2 ^ n < 2 ^ n := Nat.mod_lt m hPos
      have hMask :
          Int.land (Int.negSucc m) ((2 ^ n - 1 : Nat) : Int) =
            ((2 ^ n - (m % 2 ^ n + 1) : Nat) : Int) :=
        congrArg Int.ofNat (ldiff_ones m n)
      rw [hMask, Int.negSucc_emod m (by omega)]
      omega

end Bits
