import Mathlib.Data.Nat.Digits.Defs
import Mathlib.Data.Nat.Digits.Lemmas
import Mathlib.Data.List.TakeWhile

/-
  Numerals in ASCII.

  Main declarations:
    * `Numerals.digitByte`, `Numerals.IsDigit`
    * `Numerals.numeral`, `Numerals.decimal`
    * `Numerals.digitValue`, `Numerals.valueOf`
    * `Numerals.IsRun`
-/

------------------------------------------------------------
-- Digits
------------------------------------------------------------

namespace Numerals

/- `0` to `9`, then from `ten` on. -/
def digitByte
    (ten : UInt8)
    (d : Nat) : UInt8 :=
  if d < 10 then UInt8.ofNat (0x30 + d)
  else ten + UInt8.ofNat (d - 10)

def IsDigit
    (b : UInt8) : Prop :=
  0x30 ≤ b ∧ b ≤ 0x39

instance
    (b : UInt8) :
    Decidable (IsDigit b) :=
  inferInstanceAs (Decidable (_ ∧ _))

/- A digit of a hexadecimal numeral, of either case. -/
def IsHexDigit
    (b : UInt8) : Prop :=
  IsDigit b ∨ 0x61 ≤ b ∧ b ≤ 0x66 ∨ 0x41 ≤ b ∧ b ≤ 0x46

instance
    (b : UInt8) :
    Decidable (IsHexDigit b) :=
  inferInstanceAs (Decidable (_ ∨ _ ∨ _))

def digitValue
    (b : UInt8) : Nat :=
  if IsDigit b then (b - 0x30).toNat
  else if 0x61 ≤ b ∧ b ≤ 0x66 then (b - 0x61).toNat + 10
  else (b - 0x41).toNat + 10

/- The number that digits denote. -/
def valueOf
    (base : Nat)
    (digits : List UInt8) : Nat :=
  digits.foldl (fun v b => v * base + digitValue b) 0

/- The digits of a positive number, the last one first. -/
def digitsBackward
    (base : Nat)
    (ten : UInt8)
    (n : Nat) : List UInt8 :=
  (Nat.digits base n).map (digitByte ten)

/- The numeral of a number in a base. -/
def numeral
    (base : Nat)
    (ten : UInt8)
    (n : Nat) : List UInt8 :=
  if n = 0 then [0x30]
  else (digitsBackward base ten n).reverse

def decimal
    (n : Nat) : List UInt8 :=
  numeral 10 0x41 n

theorem digitByte_isDigit
    {ten : UInt8}
    {d : Nat}
    (hDigit : d < 10) :
    IsDigit (digitByte ten d) := by
  unfold digitByte
  rw [if_pos hDigit]
  unfold IsDigit
  interval_cases d <;> decide

theorem decimal_isDigit
    {n : Nat}
    {b : UInt8}
    (hMem : b ∈ decimal n) :
    IsDigit b := by
  unfold decimal numeral at hMem
  split at hMem
  · rw [List.mem_singleton.mp hMem]
    decide
  · rw [List.mem_reverse] at hMem
    rcases List.mem_map.mp hMem with ⟨d, hDigit, rfl⟩
    exact digitByte_isDigit
      (Nat.digits_lt_base (by decide) hDigit)

theorem numeral_ne_nil
    {base : Nat}
    (ten : UInt8)
    (n : Nat) :
    numeral base ten n ≠ [] := by
  unfold numeral digitsBackward
  split
  · exact List.cons_ne_nil _ _
  · next hSome =>
      intro hNil
      rw [List.reverse_eq_nil_iff, List.map_eq_nil_iff,
        Nat.digits_eq_nil_iff_eq_zero] at hNil
      exact hSome hNil

theorem digitValue_digitByte
    {ten : UInt8}
    {d : Nat}
    (hDigit : d < 10) :
    digitValue (digitByte ten d) = d := by
  unfold digitByte
  rw [if_pos hDigit]
  interval_cases d <;> decide

/- Digits read in their order give their number back. -/
theorem valueOf_reverse
    (base : Nat)
    {ten : UInt8}
    {digits : List Nat}
    (hDigits : ∀ d ∈ digits, d < 10) :
    valueOf base (digits.map (digitByte ten)).reverse =
      Nat.ofDigits base digits := by
  unfold valueOf
  rw [List.foldl_reverse]
  induction digits with
  | nil => rfl
  | cons d digits ih =>
      rcases List.forall_mem_cons.mp hDigits with ⟨hFirst, hRest⟩
      rw [List.map_cons, List.foldr_cons, ih hRest,
        digitValue_digitByte hFirst, Nat.ofDigits_cons,
        Nat.mul_comm, Nat.add_comm]

theorem valueOf_decimal
    (n : Nat) :
    valueOf 10 (decimal n) = n := by
  unfold decimal numeral digitsBackward
  split
  · next hZero =>
      rw [hZero]
      rfl
  · rw [valueOf_reverse 10 fun d hMem =>
      Nat.digits_lt_base (by decide) hMem]
    exact Nat.ofDigits_digits 10 n

/- A number below `base ^ k` has at most `k` digits. -/
theorem numeral_length_le
    {base : Nat}
    (hBase : 1 < base)
    (ten : UInt8)
    {n k : Nat}
    (hPos : 0 < k)
    (hSmall : n < base ^ k) :
    (numeral base ten n).length ≤ k := by
  unfold numeral digitsBackward
  split
  · exact hPos
  · rw [List.length_reverse, List.length_map]
    exact (Nat.digits_length_le_iff hBase n).mpr hSmall

------------------------------------------------------------
-- Runs Of Digits
------------------------------------------------------------

/- Digits that do not go on in `rest`. -/
structure IsRun
    (digits rest : List UInt8) : Prop where
  digits : ∀ b ∈ digits, IsDigit b
  stops : ∀ b, rest.head? = some b → ¬ IsDigit b

section Runs

variable {digits digits' rest rest' : List UInt8}

/- The digits a string begins with, and what follows. -/
theorem isRun_span
    (str : List UInt8) :
    IsRun (str.takeWhile fun b => IsDigit b)
      (str.dropWhile fun b => IsDigit b) := by
  constructor
  · intro b hMem
    have hDigit := List.mem_takeWhile_imp hMem
    exact of_decide_eq_true hDigit
  · intro b hHead hDigit
    have hNot := List.head?_dropWhile_not
      (fun b => decide (IsDigit b)) str
    rw [hHead] at hNot
    exact absurd hDigit (of_decide_eq_false (by simpa using hNot))

theorem IsRun.takeWhile
    (hRun : IsRun digits rest) :
    ((digits ++ rest).takeWhile fun b => IsDigit b) =
      digits := by
  rw [List.takeWhile_append_of_pos fun b hMem =>
    decide_eq_true (hRun.digits b hMem)]
  cases rest with
  | nil => exact List.append_nil _
  | cons b rest =>
      rw [List.takeWhile_cons_of_neg, List.append_nil]
      simpa using hRun.stops b rfl

theorem IsRun.dropWhile
    (hRun : IsRun digits rest) :
    ((digits ++ rest).dropWhile fun b => IsDigit b) =
      rest := by
  rw [List.dropWhile_append_of_pos fun b hMem =>
    decide_eq_true (hRun.digits b hMem)]
  cases rest with
  | nil => rfl
  | cons b rest =>
      rw [List.dropWhile_cons_of_neg]
      simpa using hRun.stops b rfl

/- A string begins with one run of digits. -/
theorem IsRun.inj
    (hRun : IsRun digits rest)
    (hRun' : IsRun digits' rest')
    (hSame : digits ++ rest = digits' ++ rest') :
    digits = digits' ∧ rest = rest' := by
  constructor
  · rw [← hRun.takeWhile, hSame, hRun'.takeWhile]
  · rw [← hRun.dropWhile, hSame, hRun'.dropWhile]

end Runs

end Numerals
