import AsmOS.Console.Kprintf
import AsmOS.Console.ScanFields

/-
  Whether `ksscanf` reads back what `print_decimal` prints.

  Reading is right for the numeral of every 32-bit number.
  Printing is right for every number but the least, of which
  only the sign is printed.

  Main declarations:
    * `scanDecimal_signedText`, `ksscanf_signedText`
    * `ReadsBack`
    * `readsBack_iff`
-/

------------------------------------------------------------
-- Reading A Numeral
------------------------------------------------------------

namespace AsmOS

namespace Console

open Numerals

section Reading

variable {rest : List UInt8}

/- A numeral with no digit behind it is a run of digits. -/
theorem decimal_isRun
    (n : Nat)
    (hStops : ∀ b, rest.head? = some b → ¬ IsDigit b) :
    IsRun (decimal n) rest :=
  ⟨fun _ hMem => decimal_isDigit hMem, hStops⟩

theorem signedText_ne_nil
    (i : Int) :
    signedText i ≠ [] := by
  unfold signedText
  split
  · exact List.cons_ne_nil _ _
  · exact numeral_ne_nil 0x41 _

/- A numeral does not begin with a sign. -/
theorem decimal_head_ne
    (n : Nat)
    (rest : List UInt8) :
    (decimal n ++ rest).head? ≠ some minusSign := by
  intro hHead
  have hSome : decimal n ≠ [] := numeral_ne_nil 0x41 n
  rw [List.head?_append_of_ne_nil _ hSome] at hHead
  have hDigit := decimal_isDigit (List.mem_of_mem_head? hHead)
  exact absurd hDigit (by decide)

/-
  The digits are accumulated modulo 2 to the 32 and the sign
  is applied last, so the least number is read as well.
-/
theorem scanDecimal_signedText
    (value : Int32)
    (hStops : ∀ b, rest.head? = some b → ¬ IsDigit b) :
    scanDecimal (signedText value.toInt ++ rest) =
      (value, rest) := by
  have hRun := decimal_isRun value.toInt.natAbs hStops
  rw [scanDecimal_eq]
  dsimp only
  unfold signedText
  by_cases hNegative : value.toInt < 0
  · have hNumber :
        Int32.ofNat value.toInt.natAbs * -1 = value := by
      rw [Int32.mul_neg, Int32.mul_one, Int32.neg_ofNat,
        Int.ofNat_natAbs_of_nonpos (Int.le_of_lt hNegative),
        Int.neg_neg, Int32.ofInt_toInt]
    rw [if_pos hNegative, List.cons_append, List.head?_cons,
      if_pos rfl, if_pos rfl, List.tail_cons, hRun.takeWhile,
      hRun.dropWhile, valueOf_decimal, hNumber]
  · have hNumber :
        Int32.ofNat value.toInt.natAbs * 1 = value := by
      rw [Int32.mul_one, ← Int32.ofInt_eq_ofNat,
        Int.natAbs_of_nonneg (Int.not_lt.mp hNegative),
        Int32.ofInt_toInt]
    have hHead := decimal_head_ne value.toInt.natAbs rest
    rw [if_neg hNegative, if_neg hHead, if_neg hHead,
      hRun.takeWhile, hRun.dropWhile, valueOf_decimal, hNumber]

/- A conversion of `ksscanf` reads the numeral before it. -/
theorem ksscanf_signedText
    (value : Int32)
    (format : List UInt8)
    (hStops : ∀ b, rest.head? = some b → ¬ IsDigit b) :
    ksscanf (Conv.d.bytes ++ format)
        (signedText value.toInt ++ rest) =
      (ksscanf format rest).map fun assigned =>
        ⟨.number value, format, rest⟩ :: assigned := by
  have hScan := scanDecimal_signedText value hStops
  cases hText : signedText value.toInt ++ rest with
  | nil =>
      have hNil := (List.append_eq_nil_iff.mp hText).1
      exact absurd hNil (signedText_ne_nil value.toInt)
  | cons c str =>
      rw [hText] at hScan
      change (ksscanf format (scanDecimal (c :: str)).2).map
          (fun assigned => ⟨.number (scanDecimal (c :: str)).1,
            format, (scanDecimal (c :: str)).2⟩ :: assigned) = _
      rw [hScan]

end Reading

------------------------------------------------------------
-- Printing And Reading
------------------------------------------------------------

/-
  The number is printed as its numeral, and the conversion
  `d` stores it from there.  There is one assignment, which
  is the value returned.
-/
structure ReadsBack
    (value : Int32) : Prop where
  numeral : printDecimal value = signedText value.toInt
  stored :
    ksscanf Conv.d.bytes (printDecimal value) =
      some [⟨.number value, [], []⟩]

/- Every number but the least is read back. -/
theorem readsBack_of_ne
    {value : Int32}
    (hNotLeast : value ≠ Int32.minValue) :
    ReadsBack value := by
  have hPrinted := printDecimal_eq hNotLeast
  have hStops :
      ∀ b, ([] : List UInt8).head? = some b → ¬ IsDigit b := by
    intro b hHead
    cases hHead
  have hRead := ksscanf_signedText value [] hStops
  rw [List.append_nil, List.append_nil, ← hPrinted] at hRead
  exact ⟨hPrinted, hRead⟩

/- Of the least number the sign is read, which stands for 0. -/
theorem ksscanf_printDecimal_least :
    ksscanf Conv.d.bytes (printDecimal Int32.minValue) =
      some [⟨.number 0, [], []⟩] := by
  rw [printDecimal_least]
  rfl

/- The numbers that are printed and read back. -/
theorem readsBack_iff
    (value : Int32) :
    ReadsBack value ↔ value ≠ Int32.minValue := by
  constructor
  · intro hBack hLeast
    subst hLeast
    have hStored := hBack.stored
    rw [ksscanf_printDecimal_least] at hStored
    exact absurd hStored (by decide)
  · exact readsBack_of_ne

/- The least number is printed as a sign alone. -/
theorem not_readsBack_least :
    ¬ ReadsBack Int32.minValue := by
  intro hBack
  have hNumeral := hBack.numeral
  rw [printDecimal_least] at hNumeral
  exact absurd hNumeral (by decide)

end Console

end AsmOS
