import Mathlib.Data.List.TakeWhile
import AsmOS.Console.Ksscanf

/-
  On which inputs the kernel's scanner follows the library's.

  Main declarations:
    * `Conv.pass`, `fieldScan`, `ksscanf_formatOf`
    * `Conv.Plain`, `Alike`
    * `ksscanf_agrees`
-/

------------------------------------------------------------
-- Conversion By Conversion
------------------------------------------------------------

namespace AsmOS

namespace Console

open Numerals

/- What is left to match of a width that was passed over. -/
def widthLiterals
    (width : Nat) : List UInt8 :=
  (decimal width).tail ++ [0x73]

/-
  What `ksscanf` does at a conversion, with input left: the
  value it stores, if any, and the rest of the input.  It
  goes no further when a literal does not match.
-/
def Conv.pass : Conv → List UInt8 → Option (Option Value × List UInt8)
| .d, str => some (some (.number (scanDecimal str).1), (scanDecimal str).2)
| .x, str => some (some (.number (scanHex str).1), (scanHex str).2)
| .u, str => some (none, str)
| .s, str => some (some (.text (scanWord str).1), (scanWord str).2)
| .field width _, str =>
    if widthLiterals width <+: str then
      some (none, str.drop (widthLiterals width).length)
    else none

/- The next conversion is met behind exactly one space. -/
def separated
    (next : List UInt8 → List Assigned) :
    List Conv → List UInt8 → List Assigned
| [], _ => []
| _ :: _, [] => []
| _ :: _, c :: str => if c = 0x20 then next str else []

/- The assignments of `ksscanf`, conversion by conversion. -/
def fieldScan : List Conv → List UInt8 → List Assigned
| [], _ => []
| c :: cs, str =>
    if str = [] then []
    else
      match c.pass str with
      | none => []
      | some (value, rest) =>
          (value.map fun v => ⟨v, behind cs, rest⟩).toList ++
            separated (fieldScan cs) cs rest

section Passing

variable {c : Conv} {cs : List Conv} {str : List UInt8}

theorem ksscanf_nil
    (format : List UInt8) :
    ksscanf format [] = some [] := by
  cases format <;> rfl

theorem ksscanf_literal
    {f : UInt8}
    (hLiteral : f ≠ 0x25)
    (format : List UInt8)
    (c : UInt8)
    (str : List UInt8) :
    ksscanf (f :: format) (c :: str) =
      if f = c then ksscanf format str else some [] := by
  rw [ksscanf.eq_def]
  dsimp only
  rw [if_neg hLiteral, ite_not]

/- Literals are matched byte by byte. -/
theorem ksscanf_literals
    {bytes : List UInt8}
    (hLiteral : ∀ b ∈ bytes, b ≠ 0x25)
    (format : List UInt8)
    (str : List UInt8) :
    ksscanf (bytes ++ format) str =
      if bytes <+: str then
        ksscanf format (str.drop bytes.length)
      else some [] := by
  induction bytes generalizing str with
  | nil => simp
  | cons b bytes ih =>
      have hRest := ih fun c hc =>
        hLiteral c (List.mem_cons_of_mem b hc)
      cases str with
      | nil =>
          rw [ksscanf_nil, if_neg (by simp)]
      | cons c str =>
          rw [List.cons_append,
            ksscanf_literal (hLiteral b List.mem_cons_self),
            hRest, List.length_cons, List.drop_succ_cons]
          by_cases hSame : b = c
          · rw [if_pos hSame, hSame]
            simp only [List.cons_prefix_cons, true_and]
          · rw [if_neg hSame, if_neg]
            intro hPrefix
            exact hSame (List.cons_prefix_cons.mp hPrefix).1

/- A letter of its own is passed over. -/
theorem ksscanf_no_case
    {letter : UInt8}
    (hOther : letter ∉ [0x64, 0x78, 0x63, 0x73])
    (format : List UInt8)
    (c : UInt8)
    (str : List UInt8) :
    ksscanf (0x25 :: letter :: format) (c :: str) =
      ksscanf format (c :: str) := by
  simp only [List.mem_cons, List.not_mem_nil, or_false,
    not_or] at hOther
  rcases hOther with ⟨hD, hX, hC, hS⟩
  rw [ksscanf.eq_def]
  dsimp only
  rw [if_pos rfl, if_neg hD, if_neg hX, if_neg hC, if_neg hS]

/- The literals behind the first digit of a width. -/
theorem ksscanf_field
    {width : Nat}
    (format : List UInt8)
    (c : UInt8)
    (str : List UInt8) :
    ksscanf (0x25 :: (decimal width ++ [0x73]) ++ format)
        (c :: str) =
      if widthLiterals width <+: c :: str then
        ksscanf format
          ((c :: str).drop (widthLiterals width).length)
      else some [] := by
  cases hDigits : decimal width with
  | nil => exact absurd hDigits (numeral_ne_nil 0x41 width)
  | cons first digits =>
      have hFirst : IsDigit first :=
        decimal_isDigit (hDigits ▸ List.mem_cons_self)
      have hOther : first ∉ [0x64, 0x78, 0x63, 0x73] := by
        intro hMem
        have hNine := hFirst.2
        simp only [List.mem_cons, List.not_mem_nil, or_false]
          at hMem
        rcases hMem with rfl | rfl | rfl | rfl <;>
          exact absurd hNine (by decide)
      have hWidth :
          widthLiterals width = digits ++ [0x73] := by
        unfold widthLiterals
        rw [hDigits]
        rfl
      have hLiteral : ∀ b ∈ digits ++ [0x73], b ≠ 0x25 := by
        intro b hMem hPercent
        subst hPercent
        rcases List.mem_append.mp hMem with hIn | hIn
        · exact absurd
            (decimal_isDigit
              (hDigits ▸ List.mem_cons_of_mem first hIn))
            (by decide)
        · exact absurd (List.mem_singleton.mp hIn) (by decide)
      rw [hWidth]
      change ksscanf
        (0x25 :: first :: (digits ++ [0x73] ++ format))
          (c :: str) = _
      rw [ksscanf_no_case hOther, ksscanf_literals hLiteral]

/- One space of the format is one space of the input. -/
theorem ksscanf_behind
    (hNext :
      ∀ str, ksscanf (formatOf cs) str =
        some (fieldScan cs str))
    (str : List UInt8) :
    ksscanf (behind cs) str =
      some (separated (fieldScan cs) cs str) := by
  cases cs with
  | nil => rfl
  | cons c cs =>
      cases str with
      | nil => exact ksscanf_nil _
      | cons b str =>
          have hBehind :
              behind (c :: cs) = 0x20 :: formatOf (c :: cs) :=
            rfl
          rw [hBehind, ksscanf_literal (by decide), hNext]
          unfold separated
          dsimp only
          by_cases hSpace : b = 0x20
          · rw [if_pos hSpace, if_pos hSpace.symm]
          · rw [if_neg hSpace, if_neg fun hSame =>
              hSpace hSame.symm]

/- The scanner of the source works conversion by conversion. -/
theorem ksscanf_formatOf
    (cs : List Conv)
    (str : List UInt8) :
    ksscanf (formatOf cs) str = some (fieldScan cs str) := by
  induction cs generalizing str with
  | nil => rfl
  | cons c cs ih =>
      have hBehind := ksscanf_behind ih
      cases str with
      | nil => exact ksscanf_nil _
      | cons b str =>
          rw [fieldScan, if_neg (List.cons_ne_nil b str)]
          cases c with
          | d =>
              change (ksscanf (behind cs)
                (scanDecimal (b :: str)).2).map _ = _
              rw [hBehind]
              rfl
          | x =>
              change (ksscanf (behind cs)
                (scanHex (b :: str)).2).map _ = _
              rw [hBehind]
              rfl
          | u =>
              change ksscanf (behind cs) (b :: str) = _
              rw [hBehind]
              rfl
          | s =>
              change (ksscanf (behind cs)
                (scanWord (b :: str)).2).map _ = _
              rw [hBehind]
              rfl
          | field width hPos =>
              change ksscanf
                (0x25 :: (decimal width ++ [0x73]) ++ behind cs)
                  (b :: str) = _
              rw [ksscanf_field, Conv.pass]
              split
              · rw [hBehind]
                rfl
              · rfl

end Passing

------------------------------------------------------------
-- Fields That Are Read Alike
------------------------------------------------------------

section Fields

variable {isDigit : UInt8 → Bool} {str : List UInt8}

theorem digitLoop_eq
    (isDigit : UInt8 → Bool)
    (base : Nat)
    (v : Nat)
    (str : List UInt8) :
    digitLoop isDigit (Int32.ofNat base) (Int32.ofNat v) str =
      (Int32.ofNat
          ((str.takeWhile isDigit).foldl
            (fun v b => v * base + digitValue b) v),
        str.dropWhile isDigit) := by
  induction str generalizing v with
  | nil => rfl
  | cons c str ih =>
      rw [digitLoop]
      cases hDigit : isDigit c with
      | true =>
          rw [if_pos rfl, ← Int32.ofNat_mul, ← Int32.ofNat_add,
            ih, List.takeWhile_cons_of_pos hDigit,
            List.dropWhile_cons_of_pos hDigit]
          rfl
      | false =>
          rw [if_neg Bool.false_ne_true,
            List.takeWhile_cons_of_neg (by simp [hDigit]),
            List.dropWhile_cons_of_neg (by simp [hDigit])]
          rfl

/- What digits are left where none is read. -/
theorem readDigits_some
    {base : Nat}
    {negative : Bool}
    {value : Value}
    {rest : List UInt8}
    (hRead :
      readDigits isDigit base negative str =
        some (value, rest)) :
    rest.length < str.length := by
  unfold readDigits at hRead
  dsimp only at hRead
  split at hRead
  · cases hRead
  · next hSome =>
      cases hRead
      have hLength := congrArg List.length
        (List.takeWhile_append_dropWhile (p := isDigit) (l := str))
      rw [List.length_append] at hLength
      have hPos := List.length_pos_of_ne_nil hSome
      omega

theorem skipSpace_length_le
    (str : List UInt8) :
    (skipSpace str).length ≤ str.length :=
  (List.dropWhile_sublist _).length_le

theorem readSign_length_le
    (str : List UInt8) :
    (readSign str).2.length ≤ str.length := by
  cases str with
  | nil => exact le_rfl
  | cons c str =>
      rw [readSign]
      split
      · exact Nat.le_succ _
      · split
        · exact Nat.le_succ _
        · exact le_rfl

theorem readBase_length_le
    (str : List UInt8) :
    (readBase str).length ≤ str.length := by
  unfold readBase
  split
  · exact (Nat.le_succ _).trans (Nat.le_succ _)
  · exact (Nat.le_succ _).trans (Nat.le_succ _)
  · exact le_rfl

end Fields

/- The string has a first byte of that kind. -/
def StartsWith
    (p : UInt8 → Prop) : List UInt8 → Prop
| [] => False
| c :: _ => p c

instance
    (p : UInt8 → Prop)
    [DecidablePred p] :
    DecidablePred (StartsWith p)
| [] => isFalse id
| c :: _ => inferInstanceAs (Decidable (p c))

/- The characters before a space or a new line. -/
def IsWordChar
    (b : UInt8) : Prop :=
  b ≠ 0x20 ∧ b ≠ newline

instance
    (b : UInt8) :
    Decidable (IsWordChar b) :=
  inferInstanceAs (Decidable (_ ∧ _))

/-
  The field at the cursor is written as `ksscanf` expects it:
  a number begins with a digit or a minus sign before one, a
  hexadecimal number has no prefix, and a word is not empty
  and ends at no other white space.
-/
def Conv.Plain : Conv → List UInt8 → Prop
| .d, str =>
    StartsWith IsDigit str ∨
      str.head? = some 0x2D ∧ StartsWith IsDigit str.tail
| .x, str => StartsWith IsHexDigit str ∧ readBase str = str
| .s, str =>
    str.takeWhile (fun b => IsWordChar b) ≠ [] ∧
      ∀ b ∈ str.takeWhile (fun b => IsWordChar b), ¬ IsSpace b
| .u, _ => False
| .field _ _, _ => False

/- The input behind such a field. -/
def Conv.after : Conv → List UInt8 → List UInt8
| .d, str =>
    (if str.head? = some 0x2D then str.tail
      else str).dropWhile fun b => IsDigit b
| .x, str => str.dropWhile fun b => IsHexDigit b
| .s, str => str.dropWhile fun b => IsWordChar b
| .u, str => str
| .field _ _, str => str

section Numbers

variable {str : List UInt8}

/- A digit is no white space and no sign. -/
theorem hexDigit_ne
    {b : UInt8}
    (hDigit : IsHexDigit b) :
    ¬ IsSpace b ∧ b ≠ 0x2D ∧ b ≠ 0x2B := by
  unfold IsHexDigit IsDigit at hDigit
  unfold IsSpace
  simp only [UInt8.le_iff_toNat_le, ← UInt8.toNat_inj,
    UInt8.reduceToNat, ne_eq] at hDigit ⊢
  omega

theorem skipSpace_eq
    (hStarts : StartsWith (fun b => ¬ IsSpace b) str) :
    skipSpace str = str := by
  cases str with
  | nil => rfl
  | cons c str =>
      have hNot : ¬ IsSpace c := hStarts
      exact List.dropWhile_cons_of_neg (by simpa using hNot)

theorem readSign_eq
    (hStarts :
      StartsWith (fun b => b ≠ 0x2D ∧ b ≠ 0x2B) str) :
    readSign str = (false, str) := by
  cases str with
  | nil => rfl
  | cons c str =>
      have hNot : c ≠ 0x2D ∧ c ≠ 0x2B := hStarts
      rw [readSign, if_neg hNot.1, if_neg hNot.2]

theorem StartsWith.mono
    {p q : UInt8 → Prop}
    (hStarts : StartsWith p str)
    (hImplies : ∀ b, p b → q b) :
    StartsWith q str := by
  cases str with
  | nil => exact hStarts
  | cons c str => exact hImplies c hStarts

/- Digits that are there are read. -/
theorem readDigits_eq
    {isDigit : UInt8 → Bool}
    (hStarts : StartsWith (fun b => isDigit b = true) str)
    (base : Nat)
    (negative : Bool) :
    readDigits isDigit base negative str =
      some
        (.number
          (if negative then
            -Int32.ofNat (valueOf base (str.takeWhile isDigit))
          else
            Int32.ofNat
              (valueOf base (str.takeWhile isDigit))),
          str.dropWhile isDigit) := by
  cases str with
  | nil => exact hStarts.elim
  | cons c str =>
      have hDigit : isDigit c = true := hStarts
      unfold readDigits
      dsimp only
      rw [if_neg]
      rw [List.takeWhile_cons_of_pos hDigit]
      exact List.cons_ne_nil _ _

theorem readDigits_eq_none
    {isDigit : UInt8 → Bool}
    (hNot : ¬ StartsWith (fun b => isDigit b = true) str)
    (base : Nat)
    (negative : Bool) :
    readDigits isDigit base negative str = none := by
  cases str with
  | nil => rfl
  | cons c str =>
      unfold readDigits
      dsimp only
      rw [List.takeWhile_cons_of_neg hNot]
      rfl

theorem scanDecimal_eq
    (str : List UInt8) :
    scanDecimal str =
      let negative := str.head? = some 0x2D
      let digits := if negative then str.tail else str
      (Int32.ofNat
          (valueOf 10 (digits.takeWhile fun b => IsDigit b)) *
            (if negative then -1 else 1),
        digits.dropWhile fun b => IsDigit b) := by
  unfold scanDecimal
  dsimp only
  rw [show (10 : Int32) = Int32.ofNat 10 from rfl,
    show (0 : Int32) = Int32.ofNat 0 from rfl, digitLoop_eq]
  rfl

theorem scanHex_eq
    (str : List UInt8) :
    scanHex str =
      (Int32.ofNat
          (valueOf 16 (str.takeWhile fun b => IsHexDigit b)),
        str.dropWhile fun b => IsHexDigit b) :=
  digitLoop_eq _ 16 0 str

theorem readDecimal_shorter
    {value : Value}
    {rest : List UInt8}
    (hRead : readDecimal str = some (value, rest)) :
    rest.length < str.length := by
  have hRest := readDigits_some hRead
  have hSign := readSign_length_le (skipSpace str)
  have hSpace := skipSpace_length_le str
  omega

theorem readHex_shorter
    {value : Value}
    {rest : List UInt8}
    (hRead : readHex str = some (value, rest)) :
    rest.length < str.length := by
  have hRest := readDigits_some hRead
  have hBase := readBase_length_le (readSign (skipSpace str)).2
  have hSign := readSign_length_le (skipSpace str)
  have hSpace := skipSpace_length_le str
  omega

/- Decimal fields on which both scanners agree. -/
theorem readDecimal_iff
    (hSome : str ≠ []) :
    readDecimal str =
        some (.number (scanDecimal str).1, (scanDecimal str).2) ↔
      Conv.d.Plain str := by
  rw [scanDecimal_eq]
  dsimp only
  by_cases hMinus : str.head? = some 0x2D
  · rcases List.head?_eq_some_iff.mp hMinus with ⟨t, rfl⟩
    have hSkip : skipSpace (0x2D :: t) = 0x2D :: t := rfl
    have hSign : readSign (0x2D :: t) = (true, t) := rfl
    have hPlain :
        Conv.d.Plain (0x2D :: t) ↔ StartsWith IsDigit t := by
      constructor
      · rintro (hDigit | hTail)
        · exact absurd hDigit (by decide : ¬ IsDigit 0x2D)
        · exact hTail.2
      · exact fun hTail => Or.inr ⟨rfl, hTail⟩
    unfold readDecimal
    dsimp only
    rw [hSkip, hSign, hPlain, if_pos hMinus, if_pos hMinus]
    by_cases hDigit : StartsWith IsDigit t
    · refine iff_of_true ?_ hDigit
      rw [readDigits_eq (hDigit.mono fun b hb => by simpa using hb)]
      simp [Int32.mul_neg]
    · refine iff_of_false (fun hRead => ?_) hDigit
      rw [readDigits_eq_none fun hStarts =>
        hDigit (hStarts.mono fun b hb => by simpa using hb)]
        at hRead
      cases hRead
  · rw [if_neg hMinus, if_neg hMinus]
    have hPlain :
        Conv.d.Plain str ↔ StartsWith IsDigit str :=
      ⟨fun hEither => hEither.resolve_right
        fun hBoth => hMinus hBoth.1, Or.inl⟩
    rw [hPlain]
    by_cases hDigit : StartsWith IsDigit str
    · refine iff_of_true ?_ hDigit
      have hNe := hDigit.mono fun b hb =>
        hexDigit_ne (Or.inl hb)
      unfold readDecimal
      dsimp only
      rw [skipSpace_eq (hNe.mono fun b hb => hb.1),
        readSign_eq (hNe.mono fun b hb => hb.2),
        readDigits_eq (hDigit.mono fun b hb => by simpa using hb)]
      simp
    · refine iff_of_false (fun hRead => ?_) hDigit
      have hShorter := readDecimal_shorter hRead
      cases str with
      | nil => exact hSome rfl
      | cons c str =>
          have hNot : ¬ IsDigit c := hDigit
          rw [List.dropWhile_cons_of_neg (by simpa using hNot)]
            at hShorter
          exact absurd hShorter (Nat.lt_irrefl _)

/- A written base is a zero and a letter. -/
theorem readBase_cases
    (str : List UInt8) :
    readBase str = str ∨
      ∃ letter rest,
        str = 0x30 :: letter :: rest ∧
          (letter = 0x78 ∨ letter = 0x58) ∧
          readBase str = rest := by
  unfold readBase
  split
  · next rest => exact Or.inr ⟨_, rest, rfl, Or.inl rfl, rfl⟩
  · next rest => exact Or.inr ⟨_, rest, rfl, Or.inr rfl, rfl⟩
  · exact Or.inl rfl

/- Hexadecimal fields on which both scanners agree. -/
theorem readHex_iff
    (hSome : str ≠ []) :
    readHex str =
        some (.number (scanHex str).1, (scanHex str).2) ↔
      Conv.x.Plain str := by
  rw [scanHex_eq]
  dsimp only
  by_cases hDigit : StartsWith IsHexDigit str
  · have hNe := hDigit.mono fun b hb => hexDigit_ne hb
    have hRead :
        readHex str =
          readDigits (fun c => IsHexDigit c) 16 false
            (readBase str) := by
      unfold readHex
      dsimp only
      rw [skipSpace_eq (hNe.mono fun b hb => hb.1),
        readSign_eq (hNe.mono fun b hb => hb.2)]
    rw [hRead]
    rcases readBase_cases str with
      hBase | ⟨letter, rest, rfl, hLetter, hBase⟩
    · refine iff_of_true ?_ ⟨hDigit, hBase⟩
      rw [hBase, readDigits_eq
        (hDigit.mono fun b hb => by simpa using hb)]
      rfl
    · -- The prefix is read by the library only.
      refine iff_of_false (fun hSame => ?_) fun hPlain => ?_
      · rw [hBase] at hSame
        have hShorter := readDigits_some hSame
        have hNot : ¬ IsHexDigit letter := by
          rcases hLetter with rfl | rfl <;> decide
        rw [List.dropWhile_cons_of_pos (by decide),
          List.dropWhile_cons_of_neg (by simpa using hNot)]
          at hShorter
        exact absurd hShorter (Nat.not_lt.mpr (Nat.le_succ _))
      · have hLength := congrArg List.length
          (hBase.symm.trans hPlain.2)
        rw [List.length_cons, List.length_cons] at hLength
        omega
  · refine iff_of_false (fun hRead => ?_)
      fun hPlain => hDigit hPlain.1
    have hShorter := readHex_shorter hRead
    cases str with
    | nil => exact hSome rfl
    | cons c str =>
        have hNot : ¬ IsHexDigit c := hDigit
        rw [List.dropWhile_cons_of_neg (by simpa using hNot)]
          at hShorter
        exact absurd hShorter (Nat.lt_irrefl _)

end Numbers

section Words

variable {str : List UInt8}

theorem scanWord_eq
    (str : List UInt8) :
    scanWord str =
      (str.takeWhile fun b => IsWordChar b,
        str.dropWhile fun b => IsWordChar b) := by
  induction str with
  | nil => rfl
  | cons c str ih =>
      rw [scanWord]
      by_cases hChar : IsWordChar c
      · have hBoth : c ≠ 0x20 ∧ c ≠ newline := hChar
        rw [List.takeWhile_cons_of_pos (by simpa using hChar),
          List.dropWhile_cons_of_pos (by simpa using hChar),
          if_pos hBoth, ih]
      · have hNotBoth : ¬ (c ≠ 0x20 ∧ c ≠ newline) := hChar
        rw [List.takeWhile_cons_of_neg (by simpa using hChar),
          List.dropWhile_cons_of_neg (by simpa using hChar),
          if_neg hNotBoth]

/- A space or a new line is white space. -/
theorem isWordChar_of_not_space
    {b : UInt8}
    (hNot : ¬ IsSpace b) :
    IsWordChar b := by
  refine ⟨fun hSpace => hNot (Or.inl hSpace), fun hLine => ?_⟩
  subst hLine
  exact hNot (by decide)

/- A word without white space is the whole word. -/
theorem takeWhile_word
    (hWord :
      ∀ b ∈ str.takeWhile (fun b => IsWordChar b),
        ¬ IsSpace b) :
    str.takeWhile (fun b => ¬ IsSpace b) =
      str.takeWhile fun b => IsWordChar b := by
  induction str with
  | nil => rfl
  | cons c str ih =>
      by_cases hChar : IsWordChar c
      · have hHead :
            (c :: str).takeWhile (fun b => IsWordChar b) =
              c :: str.takeWhile fun b => IsWordChar b :=
          List.takeWhile_cons_of_pos (by simpa using hChar)
        rw [hHead] at hWord ⊢
        have hFirst := hWord c List.mem_cons_self
        rw [List.takeWhile_cons_of_pos (by simpa using hFirst),
          ih fun b hMem => hWord b (List.mem_cons_of_mem c hMem)]
      · have hSpace : IsSpace c :=
          not_not.mp fun hNot =>
            hChar (isWordChar_of_not_space hNot)
        have hHead :
            (c :: str).takeWhile (fun b => IsWordChar b) = [] :=
          List.takeWhile_cons_of_neg (by simpa using hChar)
        rw [hHead]
        exact List.takeWhile_cons_of_neg (by simpa using hSpace)

/- Words on which both scanners agree. -/
theorem readWord_iff
    (str : List UInt8) :
    readWord none str =
        some (.text (scanWord str).1, (scanWord str).2) ↔
      Conv.s.Plain str := by
  rw [scanWord_eq]
  constructor
  · intro hRead
    unfold readWord at hRead
    dsimp only at hRead
    split at hRead
    · cases hRead
    · next hNonempty =>
        have hText := (Prod.mk.inj (Option.some.inj hRead)).1
        have hSame := Value.text.inj hText
        change (skipSpace str).takeWhile _ = _ at hSame
        refine ⟨fun hNone => hNonempty ?_, fun b hMem => ?_⟩
        · exact hSame.trans hNone
        · rw [← hSame] at hMem
          simpa using List.mem_takeWhile_imp hMem
  · rintro ⟨hSome, hWord⟩
    have hWhole := takeWhile_word hWord
    have hSkip : skipSpace str = str := by
      apply skipSpace_eq
      cases str with
      | nil => exact absurd rfl hSome
      | cons c str =>
          by_contra hNot
          have hSpace : IsSpace c := not_not.mp hNot
          have hNotChar :
              (c :: str).takeWhile (fun b => ¬ IsSpace b) = [] :=
            List.takeWhile_cons_of_neg (by simpa using hSpace)
          exact hSome (hWhole.symm.trans hNotChar)
    have hDrop :=
      @List.drop_left _ (str.takeWhile fun b => IsWordChar b)
        (str.dropWhile fun b => IsWordChar b)
    rw [List.takeWhile_append_dropWhile] at hDrop
    unfold readWord
    dsimp only
    rw [hSkip, hWhole, Option.map_none, Option.getD_none,
      if_neg hSome, hDrop]

end Words

------------------------------------------------------------
-- Inputs That Are Read Alike
------------------------------------------------------------

/- The conversions that `ksscanf` has a case for. -/
def Conv.Stores : Conv → Prop
| .d => True
| .x => True
| .s => True
| .u => False
| .field _ _ => False

/- Nothing is stored behind conversions without a case. -/
def Silent : List Conv → List UInt8 → Prop
| [], _ => True
| c :: cs, str =>
    str = [] ∨
      ¬ c.Stores ∧
        ∀ value rest, c.pass str = some (value, rest) →
          cs = [] ∨ ∀ more, rest = 0x20 :: more → Silent cs more

/-
  The input behind a field: it ends, or one space leads to
  the next conversion, or that conversion reads nothing.
-/
def Separates
    (next : List UInt8 → Prop) :
    List Conv → List UInt8 → Prop
| [], _ => True
| _ :: _, [] => True
| c :: _, b :: str =>
    if b = 0x20 then next str else c.read (b :: str) = none

/-
  The input does not show the difference: each conversion
  meets the end, a plain field, or, where it has no case,
  nothing that the library reads or the kernel stores later.
-/
def Alike : List Conv → List UInt8 → Prop
| [], _ => True
| c :: cs, str =>
    str = [] ∨
      c.Plain str ∧ Separates (Alike cs) cs (c.after str) ∨
      ¬ c.Stores ∧ c.read str = none ∧ Silent (c :: cs) str

section Agreement

variable {c : Conv} {cs : List Conv} {str : List UInt8}

theorem read_nil
    (c : Conv) :
    c.read [] = none := by
  cases c with
  | field width hPos => simp [Conv.read, readWord, skipSpace]
  | d => rfl
  | x => rfl
  | u => rfl
  | s => rfl

theorem sscanf_nil
    (cs : List Conv) :
    sscanf cs [] = [] := by
  cases cs with
  | nil => rfl
  | cons c cs =>
      rw [sscanf, read_nil]

/- White space before a field is skipped. -/
theorem read_space
    (c : Conv)
    (str : List UInt8) :
    c.read (0x20 :: str) = c.read str := by
  cases c <;> rfl

theorem sscanf_space
    (cs : List Conv)
    (str : List UInt8) :
    sscanf cs (0x20 :: str) = sscanf cs str := by
  cases cs with
  | nil => rfl
  | cons c cs => rw [sscanf, sscanf, read_space]

/- What a conversion with a case stores. -/
theorem stores_pass
    (hStores : c.Stores)
    (hSome : str ≠ []) :
    ∃ value,
      c.pass str = some (some value, c.after str) ∧
        (c.read str = some (value, c.after str) ↔
          c.Plain str) := by
  cases c with
  | d =>
      have hAfter : (scanDecimal str).2 = Conv.d.after str := by
        rw [scanDecimal_eq]
        rfl
      have hRead := readDecimal_iff hSome
      rw [hAfter] at hRead
      refine ⟨_, ?_, hRead⟩
      rw [Conv.pass, hAfter]
  | x =>
      have hAfter : (scanHex str).2 = Conv.x.after str := by
        rw [scanHex_eq]
        rfl
      have hRead := readHex_iff hSome
      rw [hAfter] at hRead
      refine ⟨_, ?_, hRead⟩
      rw [Conv.pass, hAfter]
  | s =>
      have hAfter : (scanWord str).2 = Conv.s.after str := by
        rw [scanWord_eq]
        rfl
      have hRead := readWord_iff str
      rw [hAfter] at hRead
      refine ⟨_, ?_, hRead⟩
      rw [Conv.pass, hAfter]
  | u => exact hStores.elim
  | field width hPos => exact hStores.elim

/- What a conversion without a case passes over. -/
theorem no_store_pass
    (hNot : ¬ c.Stores)
    {value : Option Value}
    {rest : List UInt8}
    (hPass : c.pass str = some (value, rest)) :
    value = none := by
  cases c with
  | d => exact absurd trivial hNot
  | x => exact absurd trivial hNot
  | s => exact absurd trivial hNot
  | u =>
      cases hPass
      rfl
  | field width hPos =>
      change (if widthLiterals width <+: str then
        some (none, str.drop (widthLiterals width).length)
        else none) = _ at hPass
      by_cases hPrefix : widthLiterals width <+: str
      · rw [if_pos hPrefix] at hPass
        cases hPass
        rfl
      · rw [if_neg hPrefix] at hPass
        cases hPass

theorem separated_eq_nil_iff
    {next : List UInt8 → List Assigned} :
    separated next cs str = [] ↔
      cs = [] ∨ ∀ more, str = 0x20 :: more → next more = [] := by
  cases cs with
  | nil => exact iff_of_true rfl (Or.inl rfl)
  | cons c cs =>
      cases str with
      | nil => exact iff_of_true rfl (Or.inr (by simp))
      | cons b str =>
          unfold separated
          dsimp only
          by_cases hSpace : b = 0x20
          · rw [if_pos hSpace, hSpace]
            simp
          · rw [if_neg hSpace]
            refine iff_of_true rfl (Or.inr fun more hSame => ?_)
            exact absurd (List.cons.inj hSame).1 hSpace

/- Nothing is stored exactly if no case is reached. -/
theorem fieldScan_eq_nil_iff
    (cs : List Conv)
    (str : List UInt8) :
    fieldScan cs str = [] ↔ Silent cs str := by
  induction cs generalizing str with
  | nil => exact iff_of_true rfl trivial
  | cons c cs ih =>
      rw [fieldScan, Silent]
      by_cases hEnd : str = []
      · rw [if_pos hEnd]
        exact iff_of_true rfl (Or.inl hEnd)
      rw [if_neg hEnd, or_iff_right hEnd]
      by_cases hStores : c.Stores
      · rcases stores_pass hStores hEnd with ⟨value, hPass, _⟩
        rw [hPass]
        exact iff_of_false (by simp) fun hBoth =>
          hBoth.1 hStores
      rw [and_iff_right hStores]
      cases hPass : c.pass str with
      | none => exact iff_of_true rfl (by simp)
      | some passed =>
          rcases passed with ⟨value, rest⟩
          have hNone := no_store_pass hStores hPass
          subst hNone
          dsimp only [Option.map_none, Option.toList_none]
          rw [List.nil_append, separated_eq_nil_iff]
          simp only [ih]
          constructor
          · rintro hRest value' rest' hSame
            cases hSame
            exact hRest
          · intro hAll
            exact hAll none rest rfl

theorem bytes_length_pos
    (c : Conv) :
    0 < c.bytes.length := by
  cases c <;> exact Nat.succ_pos _

theorem formatOf_length_le
    (cs : List Conv) :
    (formatOf cs).length ≤ (behind cs).length := by
  cases cs with
  | nil => exact Nat.le_refl 0
  | cons c cs => exact Nat.le_succ _

theorem behind_length_lt
    (c : Conv)
    (cs : List Conv) :
    (behind cs).length < (formatOf (c :: cs)).length := by
  have hPos := bytes_length_pos c
  rw [formatOf, List.length_append]
  omega

theorem mem_separated
    {next : List UInt8 → List Assigned}
    {a : Assigned}
    (hMem : a ∈ separated next cs str) :
    ∃ more, a ∈ next more := by
  cases cs with
  | nil => cases hMem
  | cons c cs =>
      cases str with
      | nil => cases hMem
      | cons b str =>
          unfold separated at hMem
          dsimp only at hMem
          by_cases hSpace : b = 0x20
          · rw [if_pos hSpace] at hMem
            exact ⟨str, hMem⟩
          · rw [if_neg hSpace] at hMem
            cases hMem

/- An assignment is made at the first conversion or later. -/
theorem mem_fieldScan
    {a : Assigned}
    (hMem : a ∈ fieldScan (c :: cs) str) :
    (∃ value rest,
      c.pass str = some (some value, rest) ∧
        a = ⟨value, behind cs, rest⟩) ∨
      ∃ more, a ∈ fieldScan cs more := by
  rw [fieldScan] at hMem
  by_cases hEnd : str = []
  · rw [if_pos hEnd] at hMem
    cases hMem
  rw [if_neg hEnd] at hMem
  cases hPass : c.pass str with
  | none =>
      rw [hPass] at hMem
      cases hMem
  | some passed =>
      rcases passed with ⟨stored, rest⟩
      rw [hPass] at hMem
      rcases List.mem_append.mp hMem with hHere | hLater
      · rw [Option.mem_toList, Option.map_eq_some_iff] at hHere
        rcases hHere with ⟨value, rfl, rfl⟩
        exact Or.inl ⟨value, rest, rfl, rfl⟩
      · exact Or.inr (mem_separated hLater)

/- Every assignment leaves less of the format. -/
theorem fieldScan_format
    {a : Assigned}
    (hMem : a ∈ fieldScan cs str) :
    a.format.length < (formatOf cs).length := by
  induction cs generalizing str with
  | nil => cases hMem
  | cons c cs ih =>
      have hBehind := behind_length_lt c cs
      rcases mem_fieldScan hMem with
        ⟨value, rest, _, rfl⟩ | ⟨more, hMore⟩
      · exact hBehind
      · have hLess := ih hMore
        have hNext := formatOf_length_le cs
        omega

/- Both scanners agree behind a field. -/
theorem separated_eq_sscanf_iff
    (hNext :
      ∀ str, fieldScan cs str = sscanf cs str ↔ Alike cs str)
    (str : List UInt8) :
    separated (fieldScan cs) cs str = sscanf cs str ↔
      Separates (Alike cs) cs str := by
  cases cs with
  | nil => exact iff_of_true rfl trivial
  | cons c cs =>
      cases str with
      | nil => exact iff_of_true (sscanf_nil _).symm trivial
      | cons b str =>
          unfold separated Separates
          dsimp only
          by_cases hSpace : b = 0x20
          · rw [if_pos hSpace, if_pos hSpace, hSpace,
              sscanf_space]
            exact hNext str
          · rw [if_neg hSpace, if_neg hSpace, sscanf]
            cases hRead : c.read (b :: str) with
            | none => exact iff_of_true rfl rfl
            | some got =>
                exact iff_of_false (fun hSame => by cases hSame)
                  fun hSame => by cases hSame

/- A field that the kernel stores. -/
theorem fieldScan_stores_iff
    (hStores : c.Stores)
    (hSome : str ≠ [])
    (hNext :
      ∀ str, fieldScan cs str = sscanf cs str ↔ Alike cs str) :
    fieldScan (c :: cs) str = sscanf (c :: cs) str ↔
      c.Plain str ∧ Separates (Alike cs) cs (c.after str) := by
  rcases stores_pass hStores hSome with ⟨value, hPass, hPlain⟩
  have hScan :
      fieldScan (c :: cs) str =
        ⟨value, behind cs, c.after str⟩ ::
          separated (fieldScan cs) cs (c.after str) := by
    rw [fieldScan, if_neg hSome, hPass]
    rfl
  rw [hScan, sscanf]
  by_cases hRead : c.read str = some (value, c.after str)
  · rw [hRead, and_iff_right (hPlain.mp hRead),
      ← separated_eq_sscanf_iff hNext]
    dsimp only
    rw [List.cons.injEq, and_iff_right rfl]
  · refine iff_of_false (fun hSame => ?_) fun hBoth =>
      hRead (hPlain.mpr hBoth.1)
    cases hGot : c.read str with
    | none =>
        rw [hGot] at hSame
        cases hSame
    | some got =>
        rw [hGot] at hSame
        have hHead := Assigned.mk.inj (List.cons.inj hSame).1
        apply hRead
        rw [hGot, hHead.1, hHead.2.2]

/- A conversion that the kernel passes over. -/
theorem fieldScan_passed_iff
    (hStores : ¬ c.Stores) :
    fieldScan (c :: cs) str = sscanf (c :: cs) str ↔
      c.read str = none ∧ Silent (c :: cs) str := by
  cases hRead : c.read str with
  | none =>
      rw [sscanf, hRead, fieldScan_eq_nil_iff,
        and_iff_right rfl]
  | some got =>
      refine iff_of_false (fun hSame => ?_) fun hBoth => by
        cases hBoth.1
      -- The library's first entry leaves more of the format.
      have hMem :
          (⟨got.1, behind cs, got.2⟩ : Assigned) ∈
            fieldScan (c :: cs) str := by
        rw [hSame, sscanf, hRead]
        exact List.mem_cons_self
      rcases mem_fieldScan hMem with
        ⟨value, rest, hPass, _⟩ | ⟨more, hMore⟩
      · cases no_store_pass hStores hPass
      · have hLess := fieldScan_format hMore
        exact absurd (formatOf_length_le cs)
          (Nat.not_le.mpr hLess)

/- Both scanners assign the same fields. -/
theorem fieldScan_eq_sscanf_iff
    (cs : List Conv)
    (str : List UInt8) :
    fieldScan cs str = sscanf cs str ↔ Alike cs str := by
  induction cs generalizing str with
  | nil => exact iff_of_true rfl trivial
  | cons c cs ih =>
      rw [Alike]
      by_cases hEnd : str = []
      · subst hEnd
        exact iff_of_true (sscanf_nil _).symm (Or.inl rfl)
      rw [or_iff_right hEnd]
      by_cases hStores : c.Stores
      · rw [fieldScan_stores_iff hStores hEnd ih,
          or_iff_left fun hBoth => hBoth.1 hStores]
      · have hNotPlain : ¬ c.Plain str := by
          cases c with
          | u => exact id
          | field width hPos => exact id
          | d => exact absurd trivial hStores
          | x => exact absurd trivial hStores
          | s => exact absurd trivial hStores
        rw [fieldScan_passed_iff hStores,
          or_iff_right fun hBoth => hNotPlain hBoth.1,
          and_iff_right hStores]

end Agreement

------------------------------------------------------------
-- The Two Scanners
------------------------------------------------------------

/- The calls assign the same values to the same conversions. -/
def SameResult
    (cs : List Conv)
    (str : List UInt8) : Prop :=
  ∃ got,
    ksscanf (formatOf cs) str = some got ∧
      got.map Assigned.value =
        (sscanf cs str).map Assigned.value ∧
      got.map Assigned.format =
        (sscanf cs str).map Assigned.format ∧
      (got.length : Int) = sscanfReturn cs str

/- They also take each value from the same field. -/
def SameScan
    (cs : List Conv)
    (str : List UInt8) : Prop :=
  ∃ got,
    ksscanf (formatOf cs) str = some got ∧
      got = sscanf cs str ∧
      (got.length : Int) = sscanfReturn cs str

theorem sscanfReturn_eq_iff
    (cs : List Conv)
    (str : List UInt8) :
    ((sscanf cs str).length : Int) = sscanfReturn cs str ↔
      cs = [] ∨ skipSpace str ≠ [] := by
  unfold sscanfReturn
  by_cases hEof : cs ≠ [] ∧ skipSpace str = []
  · rw [if_pos hEof]
    refine iff_of_false (by omega) fun hEither => ?_
    exact hEither.elim hEof.1 fun hSome => hSome hEof.2
  · rw [if_neg hEof]
    refine iff_of_true rfl ?_
    by_cases hNone : cs = []
    · exact Or.inl hNone
    · exact Or.inr fun hBlank => hEof ⟨hNone, hBlank⟩

/- The kernel's scanner on formats of separated conversions. -/
theorem ksscanf_agrees
    (cs : List Conv)
    (str : List UInt8) :
    (SameScan cs str ↔
      (cs = [] ∨ skipSpace str ≠ []) ∧ Alike cs str) ∧
    ((cs = [] ∨ skipSpace str ≠ []) ∧ Alike cs str →
      SameResult cs str) := by
  have hScan :
      SameScan cs str ↔
        (cs = [] ∨ skipSpace str ≠ []) ∧ Alike cs str := by
    rw [← sscanfReturn_eq_iff, ← fieldScan_eq_sscanf_iff]
    constructor
    · rintro ⟨got, hGot, hSame, hReturn⟩
      rw [ksscanf_formatOf] at hGot
      subst hSame
      exact ⟨hReturn, Option.some.inj hGot⟩
    · rintro ⟨hReturn, hSame⟩
      exact ⟨sscanf cs str, hSame ▸ ksscanf_formatOf cs str, rfl,
        hReturn⟩
  refine ⟨hScan, fun hAlike => ?_⟩
  rcases hScan.mpr hAlike with ⟨got, hGot, rfl, hReturn⟩
  exact ⟨_, hGot, rfl, rfl, hReturn⟩

/- Two numbers under `%d %d`. -/
theorem ksscanf_agrees_numbers :
    SameResult [.d, .d] [0x31, 0x20, 0x32] := by
  have hLast : Alike [.d] [0x32] :=
    Or.inr (Or.inl ⟨Or.inl (by decide), trivial⟩)
  have hFirst : Alike [.d, .d] [0x31, 0x20, 0x32] :=
    Or.inr (Or.inl ⟨Or.inl (by decide), hLast⟩)
  exact (ksscanf_agrees [.d, .d] [0x31, 0x20, 0x32]).2
    ⟨Or.inr (by decide), hFirst⟩

/- Three words under `%31s %31s %31s`. -/
theorem not_sameResult_words :
    ¬ SameResult
      [.field 31 (by decide), .field 31 (by decide),
        .field 31 (by decide)]
      [0x61, 0x20, 0x62, 0x20, 0x63] := by
  rintro ⟨got, hGot, _, _, hReturn⟩
  rw [ksscanf_formatOf] at hGot
  cases hGot
  revert hReturn
  decide

end Console

end AsmOS
