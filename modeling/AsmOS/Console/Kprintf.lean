import AsmOS.Base.Numerals

/-
  The formatted output of the PC console (`kprintf` and its
  routines in `src/kernel.c`).

  A string is the list of its bytes before the terminator.
  The output is the list of the bytes that reach the screen.

  Main declarations:
    * `printDecimal`, `printHex`, `kprintf`
    * `Piece`, `formatBytes`
    * `Follows`, `kprintf_follows_iff`
-/

------------------------------------------------------------
-- The Console's Routines
------------------------------------------------------------

namespace AsmOS

namespace Console

open Numerals

abbrev percentSign : UInt8 := 0x25

abbrev questionMark : UInt8 := 0x3F

abbrev minusSign : UInt8 := 0x2D

abbrev space : UInt8 := 0x20

/- The loop that fills `buffer`, then the one that empties it. -/
def printDigits
    (value : Int32) : List UInt8 :=
  if 0 < value then
    (digitsBackward 10 0x41 value.toInt.toNat).reverse
  else []

/- `print_decimal`: the negation of the least number wraps. -/
def printDecimal
    (value : Int32) : List UInt8 :=
  if value = 0 then [0x30]
  else if value < 0 then minusSign :: printDigits (-value)
  else printDigits value

/- `print_hex`: eight digits behind `0x`. -/
def printHex
    (value : UInt32) : List UInt8 :=
  0x30 :: 0x78 ::
    ([28, 24, 20, 16, 12, 8, 4, 0] : List UInt32).map fun i =>
      digitByte 0x41 ((value >>> i) &&& 0xF).toNat

/- An argument of a variadic call: a string or a word. -/
inductive Arg where
| text
    (bytes : List UInt8)
| word
    (value : UInt32)

/-
  The `switch` of `kprintf`: what is printed for the letter,
  and the arguments that are left.  There is no result when
  an argument is missing or of the other kind.
-/
def printLetter
    (letter : UInt8)
    (args : List Arg) : Option (List UInt8 × List Arg) :=
  if letter = 0x73 then
    match args with
    | .text bytes :: args => some (bytes, args)
    | _ => none
  else if letter = 0x63 then
    match args with
    | .word value :: args => some ([value.toUInt8], args)
    | _ => none
  else if letter = 0x64 then
    match args with
    | .word value :: args =>
        some (printDecimal value.toInt32, args)
    | _ => none
  else if letter = 0x78 then
    match args with
    | .word value :: args => some (printHex value, args)
    | _ => none
  else if letter = percentSign then some ([percentSign], args)
  else some ([questionMark], args)

/-
  What is printed for a format, and the arguments that are
  left.  Behind a percent sign at its end the loop runs past
  the terminator.
-/
def kprintf :
    List UInt8 → List Arg → Option (List UInt8 × List Arg)
| [], args => some ([], args)
| c :: format, args =>
    if c = percentSign then
      match format with
      | [] => none
      | letter :: format => do
          let (shown, args) ← printLetter letter args
          let (out, args) ← kprintf format args
          return (shown ++ out, args)
    else do
      let (out, args) ← kprintf format args
      return (c :: out, args)

------------------------------------------------------------
-- Formats
------------------------------------------------------------

inductive Letter where
| s
| c
| d
| u
| x
| X
deriving DecidableEq

def Letter.byte : Letter → UInt8
| .s => 0x73
| .c => 0x63
| .d => 0x64
| .u => 0x75
| .x => 0x78
| .X => 0x58

/- A conversion; width zero is no width. -/
structure Spec where
  left : Bool
  width : Nat
  letter : Letter

/- What stands behind the percent sign of a conversion. -/
def Spec.tail
    (spec : Spec) : List UInt8 :=
  (if spec.left then [minusSign] else []) ++
    ((if spec.width = 0 then [] else decimal spec.width) ++
      [spec.letter.byte])

inductive Piece where
| literal
    (b : UInt8)
    (hLiteral : b ≠ percentSign ∧ b ≠ 0)
| percent
| conv
    (spec : Spec)

def Piece.bytes : Piece → List UInt8
| .literal b _ => [b]
| .percent => [percentSign, percentSign]
| .conv spec => percentSign :: spec.tail

def formatBytes
    (pieces : List Piece) : List UInt8 :=
  pieces.flatMap Piece.bytes

def Piece.spec? : Piece → Option Spec
| .conv spec => some spec
| _ => none

/- The conversions of a format. -/
def specs
    (pieces : List Piece) : List Spec :=
  pieces.filterMap Piece.spec?

/- The conversion is for arguments of that type. -/
def Letter.Takes : Letter → Arg → Prop
| .s, .text _ => True
| .s, .word _ => False
| _, .text _ => False
| _, .word _ => True

def Matches
    (pieces : List Piece)
    (args : List Arg) : Prop :=
  List.Forall₂ (fun spec arg => spec.letter.Takes arg)
    (specs pieces) args

/- Blanks fill a field on its right or on its left. -/
def Spec.pad
    (spec : Spec)
    (shown : List UInt8) : List UInt8 :=
  let blanks :=
    List.replicate (spec.width - shown.length) space
  if spec.left then shown ++ blanks else blanks ++ shown

/-
  The output that a format asks for: each conversion is the
  padded text of the next argument.
-/
def weave
    (text : Letter → Arg → List UInt8) :
    List Piece → List Arg → List UInt8
| [], _ => []
| .literal b _ :: pieces, args => b :: weave text pieces args
| .percent :: pieces, args =>
    percentSign :: weave text pieces args
| .conv spec :: pieces, arg :: args =>
    spec.pad (text spec.letter arg) ++ weave text pieces args
| .conv _ :: pieces, [] => weave text pieces []

/- The sign and the numeral of an integer. -/
def signedText
    (i : Int) : List UInt8 :=
  if i < 0 then minusSign :: decimal i.natAbs
  else decimal i.natAbs

/- The text that `printf` gives an argument. -/
def printfText : Letter → Arg → List UInt8
| .c, .word value => [value.toUInt8]
| .d, .word value => signedText value.toInt32.toInt
| .x, .word value => numeral 16 0x61 value.toNat
| .X, .word value => numeral 16 0x41 value.toNat
| _, .word value => decimal value.toNat
| _, .text bytes => bytes

/- The text of the console's own routines, where it has one. -/
def consoleText : Letter → Arg → List UInt8
| .d, .word value => printDecimal value.toInt32
| .x, .word value => printHex value
| letter, arg => printfText letter arg

/-
  Every conversion prints its own argument, and none is left
  or taken by another.
-/
def Follows
    (text : Letter → Arg → List UInt8)
    (pieces : List Piece)
    (args : List Arg) : Prop :=
  kprintf (formatBytes pieces) args =
    some (weave text pieces args, [])

/- The conversions that `kprintf` has a case for. -/
def Spec.Supported
    (spec : Spec) : Prop :=
  spec.left = false ∧ spec.width = 0 ∧ spec.letter ≠ .u ∧
    spec.letter ≠ .X

instance
    (spec : Spec) :
    Decidable spec.Supported :=
  inferInstanceAs (Decidable (_ ∧ _))

------------------------------------------------------------
-- What A Conversion Takes
------------------------------------------------------------

section Conversions

variable {spec : Spec} {pieces : List Piece}
variable {args rest : List Arg} {out : List UInt8}

/- A plain letter prints its argument with its own routine. -/
theorem printLetter_supported
    (hSupported : spec.Supported)
    {arg : Arg}
    (hTakes : spec.letter.Takes arg)
    (args : List Arg) :
    printLetter spec.letter.byte (arg :: args) =
      some (consoleText spec.letter arg, args) := by
  rcases hSupported with ⟨_, _, hNotU, hNotX⟩
  cases hLetter : spec.letter with
  | u => exact absurd hLetter hNotU
  | X => exact absurd hLetter hNotX
  | s =>
      rw [hLetter] at hTakes
      cases arg with
      | text bytes => rfl
      | word value => exact hTakes.elim
  | c =>
      rw [hLetter] at hTakes
      cases arg with
      | text bytes => exact hTakes.elim
      | word value => rfl
  | d =>
      rw [hLetter] at hTakes
      cases arg with
      | text bytes => exact hTakes.elim
      | word value => rfl
  | x =>
      rw [hLetter] at hTakes
      cases arg with
      | text bytes => exact hTakes.elim
      | word value => rfl

theorem pad_supported
    (hSupported : spec.Supported)
    (shown : List UInt8) :
    spec.pad shown = shown := by
  unfold Spec.pad
  rw [hSupported.1, hSupported.2.1, Nat.zero_sub]
  rfl

theorem tail_supported
    (hSupported : spec.Supported) :
    spec.tail = [spec.letter.byte] := by
  unfold Spec.tail
  rw [hSupported.1, hSupported.2.1]
  rfl

theorem kprintf_literal
    {c : UInt8}
    (hLiteral : c ≠ percentSign)
    (format : List UInt8)
    (args : List Arg) :
    kprintf (c :: format) args =
      (kprintf format args).map fun result =>
        (c :: result.1, result.2) := by
  rw [kprintf.eq_def]
  dsimp only
  rw [if_neg hLiteral]
  cases kprintf format args <;> rfl

theorem kprintf_conversion
    (letter : UInt8)
    (format : List UInt8)
    {shown : List UInt8}
    {args left : List Arg}
    (hLetter : printLetter letter args = some (shown, left)) :
    kprintf (percentSign :: letter :: format) args =
      (kprintf format left).map fun result =>
        (shown ++ result.1, result.2) := by
  rw [kprintf.eq_def]
  dsimp only
  rw [if_pos rfl, hLetter]
  dsimp only [Option.bind_eq_bind, Option.bind_some]
  cases kprintf format left <;> rfl

/- Bytes that are no percent sign are printed as they are. -/
theorem kprintf_literals
    {bytes : List UInt8}
    (hLiteral : ∀ b ∈ bytes, b ≠ percentSign)
    (format : List UInt8)
    (args : List Arg) :
    kprintf (bytes ++ format) args =
      (kprintf format args).map fun result =>
        (bytes ++ result.1, result.2) := by
  induction bytes with
  | nil => simp
  | cons b bytes ih =>
      have hTail := ih fun c hc =>
        hLiteral c (List.mem_cons_of_mem b hc)
      rw [List.cons_append,
        kprintf_literal (hLiteral b List.mem_cons_self), hTail,
        Option.map_map]
      rfl

/- No other letter has a case. -/
theorem printLetter_other
    {letter : UInt8}
    (hOther :
      letter ∉ [0x73, 0x63, 0x64, 0x78, percentSign])
    (args : List Arg) :
    printLetter letter args = some ([questionMark], args) := by
  simp only [List.mem_cons, List.not_mem_nil, or_false,
    not_or] at hOther
  rcases hOther with ⟨hS, hC, hD, hX, hPercent⟩
  unfold printLetter
  rw [if_neg hS, if_neg hC, if_neg hD, if_neg hX,
    if_neg hPercent]

theorem digit_other
    {b : UInt8}
    (hDigit : IsDigit b) :
    b ∉ [0x73, 0x63, 0x64, 0x78, percentSign] := by
  intro hMem
  have hNine := hDigit.2
  have hZero := hDigit.1
  simp only [List.mem_cons, List.not_mem_nil, or_false]
    at hMem
  rcases hMem with rfl | rfl | rfl | rfl | rfl
  · exact absurd hNine (by decide)
  · exact absurd hNine (by decide)
  · exact absurd hNine (by decide)
  · exact absurd hNine (by decide)
  · exact absurd hZero (by decide)

theorem letter_ne_percent
    (letter : Letter) :
    letter.byte ≠ percentSign := by
  cases letter <;> decide

theorem width_ne_percent
    (width : Nat) :
    ∀ b ∈ (if width = 0 then [] else decimal width),
      b ≠ percentSign := by
  intro b hMem hPercent
  split at hMem
  · exact absurd hMem List.not_mem_nil
  · subst hPercent
    exact absurd (decimal_isDigit hMem) (by decide)

/-
  Behind the percent sign of a bad conversion stands a byte
  without a case, then bytes that are printed as they are.
-/
theorem tail_unsupported
    (hNot : ¬ spec.Supported) :
    ∃ letter bytes,
      spec.tail = letter :: bytes ∧
        (∀ b ∈ bytes, b ≠ percentSign) ∧
        letter ∉ [0x73, 0x63, 0x64, 0x78, percentSign] := by
  have hLetter := letter_ne_percent spec.letter
  have hWidth := width_ne_percent spec.width
  unfold Spec.tail
  cases hLeft : spec.left with
  | true =>
      refine ⟨minusSign,
        (if spec.width = 0 then [] else decimal spec.width) ++
          [spec.letter.byte],
        rfl, fun b hMem => ?_, by decide⟩
      rcases List.mem_append.mp hMem with hIn | hIn
      · exact hWidth b hIn
      · rw [List.mem_singleton.mp hIn]
        exact hLetter
  | false =>
      by_cases hZero : spec.width = 0
      · refine ⟨spec.letter.byte, [], by simp [hZero],
          fun b hMem => absurd hMem List.not_mem_nil, ?_⟩
        have hBad : spec.letter = .u ∨ spec.letter = .X := by
          by_contra hGood
          push Not at hGood
          exact hNot ⟨hLeft, hZero, hGood⟩
        rcases hBad with hU | hX
        · rw [hU]
          decide
        · rw [hX]
          decide
      · rw [if_neg hZero] at hWidth ⊢
        cases hDigits : decimal spec.width with
        | nil => exact absurd hDigits (numeral_ne_nil 0x41 _)
        | cons first digits =>
            have hFirst : IsDigit first :=
              decimal_isDigit (hDigits ▸ List.mem_cons_self)
            refine ⟨first, digits ++ [spec.letter.byte], rfl,
              fun b hMem => ?_, digit_other hFirst⟩
            rcases List.mem_append.mp hMem with hIn | hIn
            · exact hWidth b
                (hDigits ▸ List.mem_cons_of_mem first hIn)
            · rw [List.mem_singleton.mp hIn]
              exact hLetter

theorem formatBytes_cons
    (piece : Piece)
    (pieces : List Piece) :
    formatBytes (piece :: pieces) =
      piece.bytes ++ formatBytes pieces :=
  List.flatMap_cons

/- One piece of a format, if it has no bad conversion. -/
theorem kprintf_literal_piece
    (b : UInt8)
    (hLiteral : b ≠ percentSign ∧ b ≠ 0)
    (pieces : List Piece)
    (args : List Arg) :
    kprintf (formatBytes (.literal b hLiteral :: pieces)) args =
      (kprintf (formatBytes pieces) args).map fun result =>
        (b :: result.1, result.2) := by
  rw [formatBytes_cons]
  exact kprintf_literal hLiteral.1 _ args

theorem kprintf_percent_piece
    (pieces : List Piece)
    (args : List Arg) :
    kprintf (formatBytes (.percent :: pieces)) args =
      (kprintf (formatBytes pieces) args).map fun result =>
        (percentSign :: result.1, result.2) := by
  rw [formatBytes_cons]
  exact kprintf_conversion percentSign _ rfl

theorem kprintf_supported
    (hSupported : spec.Supported)
    {arg : Arg}
    (hTakes : spec.letter.Takes arg)
    (pieces : List Piece)
    (args : List Arg) :
    kprintf (formatBytes (.conv spec :: pieces)) (arg :: args) =
      (kprintf (formatBytes pieces) args).map fun result =>
        (consoleText spec.letter arg ++ result.1,
          result.2) := by
  rw [formatBytes_cons, Piece.bytes, tail_supported hSupported]
  exact kprintf_conversion spec.letter.byte _
    (printLetter_supported hSupported hTakes args)

/- A bad conversion takes no argument. -/
theorem kprintf_unsupported
    (hNot : ¬ spec.Supported)
    (pieces : List Piece)
    (args : List Arg) :
    ∃ bytes,
      kprintf (formatBytes (.conv spec :: pieces)) args =
        (kprintf (formatBytes pieces) args).map fun result =>
          (questionMark :: bytes ++ result.1, result.2) := by
  rcases tail_unsupported hNot with
    ⟨letter, bytes, hTail, hLiteral, hOther⟩
  refine ⟨bytes, ?_⟩
  rw [formatBytes_cons, Piece.bytes, hTail, List.cons_append,
    List.cons_append, kprintf_conversion letter _
      (printLetter_other hOther args),
    kprintf_literals hLiteral, Option.map_map]
  rfl

------------------------------------------------------------
-- Whole Formats
------------------------------------------------------------

/- A format without bad conversions is followed. -/
theorem follows_of_supported
    (hMatches : Matches pieces args)
    (hSupported : ∀ spec ∈ specs pieces, spec.Supported) :
    Follows consoleText pieces args := by
  unfold Follows
  induction pieces generalizing args with
  | nil =>
      cases hMatches
      rfl
  | cons piece pieces ih =>
      cases piece with
      | literal b hLiteral =>
          rw [kprintf_literal_piece, ih hMatches hSupported]
          rfl
      | percent =>
          rw [kprintf_percent_piece, ih hMatches hSupported]
          rfl
      | conv spec =>
          cases hMatches with
          | cons hTakes hRest =>
              have hFirst :=
                hSupported spec List.mem_cons_self
              have hOthers :=
                ih hRest fun other hMem =>
                  hSupported other (List.mem_cons_of_mem spec hMem)
              rw [kprintf_supported hFirst hTakes, hOthers,
                weave, pad_supported hFirst]
              rfl

/- A good conversion takes one argument, if it prints. -/
theorem printLetter_takes
    (hSupported : spec.Supported)
    {shown : List UInt8}
    {left : List Arg}
    (hLetter :
      printLetter spec.letter.byte args = some (shown, left)) :
    args.length = left.length + 1 := by
  rcases hSupported with ⟨_, _, hNotU, hNotX⟩
  cases hSpec : spec.letter with
  | u => exact absurd hSpec hNotU
  | X => exact absurd hSpec hNotX
  | s =>
      rw [hSpec] at hLetter
      rcases args with _ | ⟨_ | _, args⟩ <;> cases hLetter
      rfl
  | c =>
      rw [hSpec] at hLetter
      rcases args with _ | ⟨_ | _, args⟩ <;> cases hLetter
      rfl
  | d =>
      rw [hSpec] at hLetter
      rcases args with _ | ⟨_ | _, args⟩ <;> cases hLetter
      rfl
  | x =>
      rw [hSpec] at hLetter
      rcases args with _ | ⟨_ | _, args⟩ <;> cases hLetter
      rfl

theorem kprintf_conversion_inv
    {letter : UInt8}
    {format : List UInt8}
    (hResult :
      kprintf (percentSign :: letter :: format) args =
        some (out, rest)) :
    ∃ shown left out',
      printLetter letter args = some (shown, left) ∧
        kprintf format left = some (out', rest) := by
  cases hLetter : printLetter letter args with
  | none =>
      rw [kprintf.eq_def] at hResult
      dsimp only at hResult
      rw [if_pos rfl, hLetter] at hResult
      cases hResult
  | some printed =>
      rcases printed with ⟨shown, left⟩
      rw [kprintf_conversion letter format hLetter] at hResult
      rcases Option.map_eq_some_iff.mp hResult with
        ⟨⟨out', rest'⟩, hRest, hEq⟩
      cases hEq
      exact ⟨shown, left, out', rfl, hRest⟩

/- As many arguments are taken as there are good conversions. -/
theorem kprintf_takes
    (hResult :
      kprintf (formatBytes pieces) args = some (out, rest)) :
    args.length =
      rest.length +
        (specs pieces).countP fun spec => spec.Supported := by
  induction pieces generalizing args out with
  | nil =>
      cases hResult
      rfl
  | cons piece pieces ih =>
      cases piece with
      | literal b hLiteral =>
          rw [kprintf_literal_piece] at hResult
          rcases Option.map_eq_some_iff.mp hResult with
            ⟨⟨out', rest'⟩, hRest, hEq⟩
          cases hEq
          exact ih hRest
      | percent =>
          rw [kprintf_percent_piece] at hResult
          rcases Option.map_eq_some_iff.mp hResult with
            ⟨⟨out', rest'⟩, hRest, hEq⟩
          cases hEq
          exact ih hRest
      | conv spec =>
          have hSpecs :
              specs (.conv spec :: pieces) =
                spec :: specs pieces :=
            rfl
          rw [hSpecs]
          by_cases hSupported : spec.Supported
          · rw [formatBytes_cons, Piece.bytes,
              tail_supported hSupported] at hResult
            rcases kprintf_conversion_inv hResult with
              ⟨shown, left, out', hLetter, hRest⟩
            have hTaken := printLetter_takes hSupported hLetter
            have hLeft := ih hRest
            rw [List.countP_cons_of_pos (by simpa using hSupported)]
            omega
          · rcases kprintf_unsupported hSupported pieces args with
              ⟨bytes, hSame⟩
            rw [hSame] at hResult
            rcases Option.map_eq_some_iff.mp hResult with
              ⟨⟨out', rest'⟩, hRest, hEq⟩
            cases hEq
            rw [List.countP_cons_of_neg (by simpa using hSupported)]
            exact ih hRest

/- A format is followed exactly if it has no bad conversion. -/
theorem follows_iff_supported
    (hMatches : Matches pieces args) :
    Follows consoleText pieces args ↔
      ∀ spec ∈ specs pieces, spec.Supported := by
  constructor
  · intro hFollows
    have hTaken := kprintf_takes hFollows
    have hCount := hMatches.length_eq
    rw [List.length_nil, Nat.zero_add, ← hCount] at hTaken
    have hAll := List.countP_eq_length.mp hTaken.symm
    exact fun spec hMem => by simpa using hAll spec hMem
  · exact follows_of_supported hMatches

end Conversions

------------------------------------------------------------
-- Printed Texts
------------------------------------------------------------

theorem printDigits_eq
    {value : Int32}
    (hPos : 0 < value.toInt) :
    printDigits value = decimal value.toInt.natAbs := by
  have hAbs : value.toInt.toNat = value.toInt.natAbs := by
    omega
  have hSome : ¬ value.toInt.natAbs = 0 := by omega
  have hGreater : 0 < value := Int32.lt_iff_toInt_lt.mpr hPos
  unfold printDigits decimal numeral
  rw [if_pos hGreater, if_neg hSome, hAbs]

/- Every number but the least is printed as its numeral. -/
theorem printDecimal_eq
    {value : Int32}
    (hNotLeast : value ≠ Int32.minValue) :
    printDecimal value = signedText value.toInt := by
  have hZeroInt : (0 : Int32).toInt = 0 := rfl
  unfold printDecimal signedText
  by_cases hZero : value = 0
  · subst hZero
    rfl
  have hSome : value.toInt ≠ 0 := by
    intro hNone
    exact hZero (Int32.toInt_inj.mp (hNone.trans hZeroInt.symm))
  have hLeast : value.toInt ≠ -2 ^ 31 := by
    intro hSame
    exact hNotLeast (Int32.toInt_inj.mp
      (hSame.trans Int32.toInt_minValue.symm))
  have hAbove := Int32.le_toInt value
  have hBelow := Int32.toInt_lt value
  rw [if_neg hZero]
  by_cases hNegative : value.toInt < 0
  · have hLess : value < 0 := Int32.lt_iff_toInt_lt.mpr hNegative
    have hNeg : (-value).toInt = -value.toInt := by
      rw [Int32.toInt_neg]
      exact Int.bmod_eq_of_le (by omega) (by omega)
    rw [if_pos hLess, if_pos hNegative,
      printDigits_eq (by omega), hNeg, Int.natAbs_neg]
  · have hNotLess : ¬ value < 0 := fun hLess =>
      hNegative (Int32.lt_iff_toInt_lt.mp hLess)
    rw [if_neg hNotLess, if_neg hNegative,
      printDigits_eq (by omega)]

/- Its negation is itself, so only the sign is printed. -/
theorem printDecimal_least :
    printDecimal Int32.minValue = [minusSign] := by
  decide

theorem printHex_length
    (value : UInt32) :
    (printHex value).length = 10 :=
  rfl

section Texts

variable {spec : Spec} {arg : Arg}

/-
  The text of a good conversion is that of `printf`, but for
  hexadecimals and for the least number.
-/
theorem consoleText_eq_iff
    (hSupported : spec.Supported)
    (hTakes : spec.letter.Takes arg) :
    consoleText spec.letter arg = printfText spec.letter arg ↔
      spec.letter ≠ .x ∧
        ¬ (spec.letter = .d ∧ arg = .word 0x80000000) := by
  rcases hSupported with ⟨_, _, hNotU, hNotX⟩
  cases hSpec : spec.letter with
  | u => exact absurd hSpec hNotU
  | X => exact absurd hSpec hNotX
  | s => exact iff_of_true rfl ⟨by decide, by simp⟩
  | c => exact iff_of_true rfl ⟨by decide, by simp⟩
  | x =>
      rw [hSpec] at hTakes
      cases arg with
      | text bytes => exact hTakes.elim
      | word value =>
          refine iff_of_false (fun hSame => ?_)
            fun hOther => hOther.1 rfl
          have hBase : 1 < 16 := by decide
          have hShort :
              (numeral 16 0x61 value.toNat).length ≤ 8 :=
            numeral_length_le hBase 0x61 (by decide)
              value.toNat_lt
          have hLong := printHex_length value
          rw [show printHex value = numeral 16 0x61 value.toNat
            from hSame] at hLong
          omega
  | d =>
      rw [hSpec] at hTakes
      cases arg with
      | text bytes => exact hTakes.elim
      | word value =>
          rw [and_iff_right (by decide)]
          change printDecimal value.toInt32 =
            signedText value.toInt32.toInt ↔ _
          by_cases hLeast : value = 0x80000000
          · subst hLeast
            exact iff_of_false (by decide)
              fun hOther => hOther ⟨rfl, rfl⟩
          · refine iff_of_true (printDecimal_eq fun hSame => ?_) ?_
            · exact hLeast (congrArg Int32.toUInt32 hSame)
            · rintro ⟨_, hWord⟩
              exact hLeast (Arg.word.inj hWord)

/-
  A format is followed exactly if it has no flag, no width
  and no letter but `s`, `c`, `d` and `x`.  Of the texts that
  are printed then, those of `x` and the least number are not
  what `printf` prints.
-/
theorem kprintf_follows_iff
    {pieces : List Piece}
    {args : List Arg}
    (hMatches : Matches pieces args) :
    (Follows consoleText pieces args ↔
      ∀ spec ∈ specs pieces, spec.Supported) ∧
      ∀ (spec : Spec) (arg : Arg),
        spec.Supported → spec.letter.Takes arg →
        (consoleText spec.letter arg =
            printfText spec.letter arg ↔
          spec.letter ≠ .x ∧
            ¬ (spec.letter = .d ∧ arg = .word 0x80000000)) :=
  ⟨follows_iff_supported hMatches,
    fun _ _ hSupported hTakes =>
      consoleText_eq_iff hSupported hTakes⟩

/- `%s %d`. -/
def plainFormat : List Piece :=
  [.conv ⟨false, 0, .s⟩, .literal space (by decide),
    .conv ⟨false, 0, .d⟩]

theorem kprintf_follows_plain :
    Follows consoleText plainFormat
      [.text [0x41], .word 7] := by
  have hMatches : Matches plainFormat [.text [0x41], .word 7] :=
    .cons trivial (.cons trivial .nil)
  exact (kprintf_follows_iff hMatches).1.mpr (by decide)

/- `%2d. %s`, as the playlist is printed. -/
def playlistFormat : List Piece :=
  [.conv ⟨false, 2, .d⟩, .literal 0x2E (by decide),
    .literal space (by decide), .conv ⟨false, 0, .s⟩]

/- The string conversion of the playlist takes the number. -/
theorem not_follows_playlist :
    ¬ ∀ pieces args, Matches pieces args →
      Follows consoleText pieces args := by
  intro hAlways
  have hFollows :=
    hAlways playlistFormat [.word 1, .text [0x41]]
      (.cons trivial (.cons trivial .nil))
  have hStuck :
      kprintf (formatBytes playlistFormat)
        [.word 1, .text [0x41]] = none := by
    rfl
  unfold Follows at hFollows
  rw [hStuck] at hFollows
  cases hFollows

end Texts

end Console

end AsmOS
