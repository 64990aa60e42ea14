import AsmOS.Base.Numerals

/-
  The formatted input of the PC build (`ksscanf` in
  `src/kernel.c`), and the `sscanf` of the C library that the
  PS2 build calls in its place.

  A string is the list of its bytes before the terminator.

  Main declarations:
    * `ksscanf`
    * `Conv`, `formatOf`
    * `sscanf`, `sscanfReturn`
-/

------------------------------------------------------------
-- The Kernel's Scanner
------------------------------------------------------------

namespace AsmOS

namespace Console

open Numerals

abbrev newline : UInt8 := 0x0A

/- What is stored through an argument pointer. -/
inductive Value where
| number
    (value : Int32)
| char
    (b : UInt8)
| text
    (bytes : List UInt8)
deriving DecidableEq

/- An assignment, and what is left of both strings then. -/
structure Assigned where
  value : Value
  format : List UInt8
  str : List UInt8
deriving DecidableEq

/- A loop over digits: the number and the rest. -/
def digitLoop
    (isDigit : UInt8 → Bool)
    (base : Int32) :
    Int32 → List UInt8 → Int32 × List UInt8
| val, [] => (val, [])
| val, c :: str =>
    if isDigit c then
      digitLoop isDigit base
        (val * base + Int32.ofNat (digitValue c)) str
    else (val, c :: str)

/- The case of `d`. -/
def scanDecimal
    (str : List UInt8) : Int32 × List UInt8 :=
  let negative := str.head? = some 0x2D
  let got :=
    digitLoop (fun c => IsDigit c) 10 0
      (if negative then str.tail else str)
  (got.1 * (if negative then -1 else 1), got.2)

/- The case of `x`. -/
def scanHex
    (str : List UInt8) : Int32 × List UInt8 :=
  digitLoop (fun c => IsHexDigit c) 16 0 str

/- The case of `s`. -/
def scanWord :
    List UInt8 → List UInt8 × List UInt8
| [] => ([], [])
| c :: str =>
    if c ≠ 0x20 ∧ c ≠ newline then
      let got := scanWord str
      (c :: got.1, got.2)
    else ([], c :: str)

/-
  The assignments of a call, in order.  A letter without a
  case, such as a digit of a width, is passed over.  Behind a
  percent sign at its end the loop runs past the terminator.
-/
def ksscanf :
    List UInt8 → List UInt8 → Option (List Assigned)
| [], _ => some []
| _ :: _, [] => some []
| f :: format, c :: str =>
    if f = 0x25 then
      match format with
      | [] => none
      | letter :: format =>
          if letter = 0x64 then
            let got := scanDecimal (c :: str)
            (ksscanf format got.2).map fun rest =>
              ⟨.number got.1, format, got.2⟩ :: rest
          else if letter = 0x78 then
            let got := scanHex (c :: str)
            (ksscanf format got.2).map fun rest =>
              ⟨.number got.1, format, got.2⟩ :: rest
          else if letter = 0x63 then
            (ksscanf format str).map fun rest =>
              ⟨.char c, format, str⟩ :: rest
          else if letter = 0x73 then
            let got := scanWord (c :: str)
            (ksscanf format got.2).map fun rest =>
              ⟨.text got.1, format, got.2⟩ :: rest
          else ksscanf format (c :: str)
    else if f ≠ c then some []
    else ksscanf format str

------------------------------------------------------------
-- Formats
------------------------------------------------------------

/- A conversion; `field` is `s` with a width. -/
inductive Conv where
| d
| x
| u
| s
| field
    (width : Nat)
    (hPos : 0 < width)

def Conv.bytes : Conv → List UInt8
| .d => [0x25, 0x64]
| .x => [0x25, 0x78]
| .u => [0x25, 0x75]
| .s => [0x25, 0x73]
| .field width _ => 0x25 :: (decimal width ++ [0x73])

/- The format behind a conversion that others follow. -/
def behind : List Conv → List UInt8
| [] => []
| c :: cs => 0x20 :: (c.bytes ++ behind cs)

/- Conversions with single spaces between them. -/
def formatOf : List Conv → List UInt8
| [] => []
| c :: cs => c.bytes ++ behind cs

------------------------------------------------------------
-- The Library's Scanner
------------------------------------------------------------

/- The white space of C. -/
def IsSpace
    (b : UInt8) : Prop :=
  b = 0x20 ∨ 0x09 ≤ b ∧ b ≤ 0x0D

instance
    (b : UInt8) :
    Decidable (IsSpace b) :=
  inferInstanceAs (Decidable (_ ∨ _))

def skipSpace
    (str : List UInt8) : List UInt8 :=
  str.dropWhile fun b => IsSpace b

/- A number has an optional sign. -/
def readSign : List UInt8 → Bool × List UInt8
| [] => (false, [])
| c :: str =>
    if c = 0x2D then (true, str)
    else if c = 0x2B then (false, str)
    else (false, c :: str)

/- The base of a hexadecimal number may be written. -/
def readBase : List UInt8 → List UInt8
| 0x30 :: 0x78 :: str => str
| 0x30 :: 0x58 :: str => str
| str => str

/-
  At least one digit.  A number too large for its variable,
  which the standard leaves open, is cut to 32 bits.
-/
def readDigits
    (isDigit : UInt8 → Bool)
    (base : Nat)
    (negative : Bool)
    (str : List UInt8) : Option (Value × List UInt8) :=
  let digits := str.takeWhile isDigit
  let value := Int32.ofNat (valueOf base digits)
  if digits = [] then none
  else
    some (.number (if negative then -value else value),
      str.dropWhile isDigit)

def readDecimal
    (str : List UInt8) : Option (Value × List UInt8) :=
  let signed := readSign (skipSpace str)
  readDigits (fun c => IsDigit c) 10 signed.1 signed.2

def readHex
    (str : List UInt8) : Option (Value × List UInt8) :=
  let signed := readSign (skipSpace str)
  readDigits (fun c => IsHexDigit c) 16 signed.1
    (readBase signed.2)

/- At least one character, and no more than the width. -/
def readWord
    (width : Option Nat)
    (str : List UInt8) : Option (Value × List UInt8) :=
  let str := skipSpace str
  let all := str.takeWhile fun b => ¬ IsSpace b
  let word := (width.map all.take).getD all
  if word = [] then none
  else some (.text word, str.drop word.length)

def Conv.read : Conv → List UInt8 → Option (Value × List UInt8)
| .d => readDecimal
| .u => readDecimal
| .x => readHex
| .s => readWord none
| .field width _ => readWord (some width)

/- It stops at the first conversion that reads nothing. -/
def sscanf : List Conv → List UInt8 → List Assigned
| [], _ => []
| c :: cs, str =>
    match c.read str with
    | none => []
    | some (value, rest) =>
        ⟨value, behind cs, rest⟩ :: sscanf cs rest

/- `EOF` when the input ends before the first conversion. -/
def sscanfReturn
    (cs : List Conv)
    (str : List UInt8) : Int :=
  if cs ≠ [] ∧ skipSpace str = [] then -1
  else (sscanf cs str).length

end Console

end AsmOS
