import AsmOS.Base.Bits
import AsmOS.Base.CStrings
import AsmOS.Base.Numerals

/-
  Addresses as text (`src/net/udp.c`).

  A string is the list of its characters before the NUL.  A
  pointer into it is the rest of the list.

  Main declarations:
    * `netParseIp`, `netIpToStr`
    * `SpellsQuad`, `EndsAsQuad`
    * `netParseIp_exact_iff`
    * `netIpToStr_round_trip`
-/

------------------------------------------------------------
-- Parsing
------------------------------------------------------------

namespace AsmOS

namespace Net

open ByteMem Numerals

/- `parse_octet`: the number, and where the pointer is left. -/
def parseOctet : UInt32 → List UInt8 → UInt32 × List UInt8
| v, [] => (v, [])
| v, c :: p =>
    if IsDigit c then
      parseOctet (v * 10 + (c - 0x30).toUInt32) p
    else (v, c :: p)

/- The pointer behind a dot. -/
def behindDot : List UInt8 → Option (List UInt8)
| [] => none
| c :: p => if c = 0x2E then some p else none

def packQuad
    (a b c d : UInt32) : UInt32 :=
  (a <<< 24) ||| (b <<< 16) ||| (c <<< 8) ||| d

/- The address that `net_parse_ip` finds in a string. -/
def parseQuad
    (str : List UInt8) : Option UInt32 :=
  let a := parseOctet 0 str
  (behindDot a.2).bind fun p =>
    let b := parseOctet 0 p
    (behindDot b.2).bind fun p =>
      let c := parseOctet 0 p
      (behindDot c.2).bind fun p =>
        let d := parseOctet 0 p
        some (packQuad a.1 b.1 c.1 d.1)

/- `net_parse_ip`, and what it leaves in `out`. -/
def netParseIp
    (str : Option (List UInt8))
    (out : Option UInt32) : Int × Option UInt32 :=
  match str, out with
  | some str, some _ =>
      match parseQuad str with
      | none => (-1, out)
      | some ip => (0, some ip)
  | _, _ => (-1, out)

------------------------------------------------------------
-- Formatting
------------------------------------------------------------

/- The digits of an octet, without leading zeros. -/
def octetText
    (oct : UInt32) : List UInt8 :=
  (if 100 ≤ oct then [0x30 + (oct / 100).toUInt8] else []) ++
    ((if 10 ≤ oct then [0x30 + (oct / 10 % 10).toUInt8]
        else []) ++
      [0x30 + (oct % 10).toUInt8])

/- What the loop writes to `tmp` from segment `s` down. -/
def segmentsText
    (ip : UInt32) : Nat → List UInt8
| 0 => octetText ((ip >>> 0) &&& 0xFF)
| s + 1 =>
    octetText
        ((ip >>> UInt32.ofNat ((s + 1) * 8)) &&& 0xFF) ++
      0x2E :: segmentsText ip s

/-
  `net_ip_to_str`.  None of the characters in `tmp` is zero,
  so the copy stops at their end or at the bound.
-/
def netIpToStr
    (ip : UInt32)
    (buf : Option ByteMem)
    (max : Int) : Option ByteMem :=
  match buf with
  | none => none
  | some buf =>
      if max < 8 then some buf
      else
        let tmp := segmentsText ip 3
        let i := min tmp.length (max - 1).toNat
        some (storeByte (storeBlock buf 0 i (ofList tmp)) i 0)

------------------------------------------------------------
-- Dotted Quads
------------------------------------------------------------

/- Four runs of characters with dots between them. -/
def dotted
    (a b c d : List UInt8) : List UInt8 :=
  a ++ 0x2E :: (b ++ 0x2E :: (c ++ 0x2E :: d))

/- At least one digit, and a value of at most 255. -/
structure IsOctet
    (run : List UInt8) : Prop where
  ne_nil : run ≠ []
  digits : ∀ b ∈ run, IsDigit b
  value_le : valueOf 10 run ≤ 255

/- The string is a dotted quad, and this is its address. -/
def SpellsQuad
    (str : List UInt8)
    (ip : UInt32) : Prop :=
  ∃ a b c d,
    (IsOctet a ∧ IsOctet b ∧ IsOctet c ∧ IsOctet d) ∧
      str = dotted a b c d ∧
      ip.toNat =
        2 ^ 24 * valueOf 10 a + 2 ^ 16 * valueOf 10 b +
          2 ^ 8 * valueOf 10 c + valueOf 10 d

/-
  If the string begins with four runs of digits and the dots
  between them, be the runs empty or not, then they are all
  octets and the string ends behind them.
-/
def EndsAsQuad
    (str : List UInt8) : Prop :=
  ∀ a b c d rest,
    (∀ x ∈ a ++ b ++ c, IsDigit x) → IsRun d rest →
      str = dotted a b c d ++ rest →
      (IsOctet a ∧ IsOctet b ∧ IsOctet c ∧ IsOctet d) ∧
        rest = []

section Octets

variable {digits rest : List UInt8}

theorem digit_toUInt32
    {c : UInt8}
    (hDigit : IsDigit c) :
    (c - 0x30).toUInt32 = UInt32.ofNat (digitValue c) := by
  have hSize : UInt32.size = 2 ^ 32 := rfl
  have hByte := (c - 0x30).toNat_lt
  unfold digitValue
  rw [if_pos hDigit, ← UInt32.toNat_inj, UInt8.toNat_toUInt32,
    UInt32.toNat_ofNat_of_lt' (by omega)]

/- The scanner takes a run of digits, whatever its value. -/
theorem parseOctet_run
    (hRun : IsRun digits rest)
    (v : Nat) :
    parseOctet (UInt32.ofNat v) (digits ++ rest) =
      (UInt32.ofNat
          (digits.foldl (fun v b => v * 10 + digitValue b) v),
        rest) := by
  rcases hRun with ⟨hDigits, hStops⟩
  induction digits generalizing v with
  | nil =>
      cases rest with
      | nil => rfl
      | cons b rest =>
          rw [List.nil_append, parseOctet,
            if_neg (hStops b rfl)]
          rfl
  | cons c digits ih =>
      have hFirst := hDigits c List.mem_cons_self
      have hRest := fun v => ih v fun b hMem =>
        hDigits b (List.mem_cons_of_mem c hMem)
      rw [List.cons_append, parseOctet, if_pos hFirst,
        digit_toUInt32 hFirst,
        show (10 : UInt32) = UInt32.ofNat 10 from rfl,
        ← UInt32.ofNat_mul, ← UInt32.ofNat_add, hRest]
      rfl

theorem parseOctet_zero
    (hRun : IsRun digits rest) :
    parseOctet 0 (digits ++ rest) =
      (UInt32.ofNat (valueOf 10 digits), rest) :=
  parseOctet_run hRun 0

/- A dot ends a run of digits. -/
theorem isRun_dot
    (hDigits : ∀ b ∈ digits, IsDigit b)
    (rest : List UInt8) :
    IsRun digits (0x2E :: rest) := by
  refine ⟨hDigits, fun b hHead => ?_⟩
  cases hHead
  decide

theorem behindDot_eq_some_iff
    {p : List UInt8} :
    behindDot p = some rest ↔ p = 0x2E :: rest := by
  unfold behindDot
  cases p with
  | nil => simp
  | cons c p =>
      split
      · next hDot => simp [hDot]
      · next hOther => simp [hOther]

end Octets

section Quads

variable {a b c d rest str : List UInt8}

theorem digits_append
    (hA : ∀ x ∈ a, IsDigit x)
    (hB : ∀ x ∈ b, IsDigit x)
    (hC : ∀ x ∈ c, IsDigit x) :
    ∀ x ∈ a ++ b ++ c, IsDigit x := by
  intro x hMem
  rcases List.mem_append.mp hMem with hMem | hMem
  · rcases List.mem_append.mp hMem with hMem | hMem
    · exact hA x hMem
    · exact hB x hMem
  · exact hC x hMem

/- What is found where four runs begin a string. -/
theorem parseQuad_dotted
    (hDigits : ∀ x ∈ a ++ b ++ c, IsDigit x)
    (hLast : IsRun d rest) :
    parseQuad (dotted a b c d ++ rest) =
      some
        (packQuad (UInt32.ofNat (valueOf 10 a))
          (UInt32.ofNat (valueOf 10 b))
          (UInt32.ofNat (valueOf 10 c))
          (UInt32.ofNat (valueOf 10 d))) := by
  have hA : ∀ x ∈ a, IsDigit x := fun x hMem =>
    hDigits x (by simp [hMem])
  have hB : ∀ x ∈ b, IsDigit x := fun x hMem =>
    hDigits x (by simp [hMem])
  have hC : ∀ x ∈ c, IsDigit x := fun x hMem =>
    hDigits x (by simp [hMem])
  unfold parseQuad dotted
  simp only [List.append_assoc, List.cons_append]
  rw [parseOctet_zero (isRun_dot hA _)]
  dsimp only
  rw [behindDot_eq_some_iff.mpr rfl, Option.bind_some,
    parseOctet_zero (isRun_dot hB _)]
  dsimp only
  rw [behindDot_eq_some_iff.mpr rfl, Option.bind_some,
    parseOctet_zero (isRun_dot hC _)]
  dsimp only
  rw [behindDot_eq_some_iff.mpr rfl, Option.bind_some,
    parseOctet_zero hLast]

/- Nothing else is accepted. -/
theorem exists_dotted_of_parseQuad
    {ip : UInt32}
    (hParsed : parseQuad str = some ip) :
    ∃ a b c d rest,
      (∀ x ∈ a ++ b ++ c, IsDigit x) ∧ IsRun d rest ∧
        str = dotted a b c d ++ rest := by
  -- Where the scanner stops, and what it took.
  have hSpan :
      ∀ p, ∃ digits rest,
        IsRun digits rest ∧ p = digits ++ rest := fun p =>
    ⟨_, _, isRun_span p, List.takeWhile_append_dropWhile.symm⟩
  rcases hSpan str with ⟨a, p, hA, rfl⟩
  unfold parseQuad at hParsed
  rw [parseOctet_zero hA] at hParsed
  rcases Option.bind_eq_some_iff.mp hParsed with
    ⟨p', hDot, hParsed⟩
  rcases hSpan p' with ⟨b, q, hB, rfl⟩
  rw [parseOctet_zero hB] at hParsed
  rcases Option.bind_eq_some_iff.mp hParsed with
    ⟨q', hDot', hParsed⟩
  rcases hSpan q' with ⟨c, r, hC, rfl⟩
  rw [parseOctet_zero hC] at hParsed
  rcases Option.bind_eq_some_iff.mp hParsed with
    ⟨r', hDot'', _⟩
  rcases hSpan r' with ⟨d, rest, hD, rfl⟩
  refine ⟨a, b, c, d, rest, ?_, hD, ?_⟩
  · exact digits_append hA.digits hB.digits hC.digits
  · have hP : p = 0x2E :: (b ++ q) :=
      behindDot_eq_some_iff.mp hDot
    have hQ : q = 0x2E :: (c ++ r) :=
      behindDot_eq_some_iff.mp hDot'
    have hR : r = 0x2E :: (d ++ rest) :=
      behindDot_eq_some_iff.mp hDot''
    unfold dotted
    rw [hP, hQ, hR]
    simp only [List.append_assoc, List.cons_append]

/- The runs of a string are determined by it. -/
theorem dotted_inj
    {a' b' c' d' rest' : List UInt8}
    (hDigits : ∀ x ∈ a ++ b ++ c, IsDigit x)
    (hLast : IsRun d rest)
    (hDigits' : ∀ x ∈ a' ++ b' ++ c', IsDigit x)
    (hLast' : IsRun d' rest')
    (hSame :
      dotted a b c d ++ rest = dotted a' b' c' d' ++ rest') :
    a = a' ∧ b = b' ∧ c = c' ∧ d = d' ∧ rest = rest' := by
  unfold dotted at hSame
  simp only [List.append_assoc, List.cons_append] at hSame
  rcases (isRun_dot (fun x hMem => hDigits x (by simp [hMem]))
      _).inj
      (isRun_dot (fun x hMem => hDigits' x (by simp [hMem])) _)
      hSame with ⟨hA, hSame⟩
  rcases (isRun_dot (fun x hMem => hDigits x (by simp [hMem]))
      _).inj
      (isRun_dot (fun x hMem => hDigits' x (by simp [hMem])) _)
      (List.cons.inj hSame).2 with ⟨hB, hSame⟩
  rcases (isRun_dot (fun x hMem => hDigits x (by simp [hMem]))
      _).inj
      (isRun_dot (fun x hMem => hDigits' x (by simp [hMem])) _)
      (List.cons.inj hSame).2 with ⟨hC, hSame⟩
  rcases hLast.inj hLast' (List.cons.inj hSame).2 with
    ⟨hD, hRest⟩
  exact ⟨hA, hB, hC, hD, hRest⟩

theorem packQuad_toNat
    {a b c d : Nat}
    (hA : a ≤ 255)
    (hB : b ≤ 255)
    (hC : c ≤ 255)
    (hD : d ≤ 255) :
    (packQuad (UInt32.ofNat a) (UInt32.ofNat b)
        (UInt32.ofNat c) (UInt32.ofNat d)).toNat =
      2 ^ 24 * a + 2 ^ 16 * b + 2 ^ 8 * c + d := by
  have hSize : UInt32.size = 2 ^ 32 := rfl
  have hEight : (8 : UInt32).toNat % 32 = 8 := rfl
  have hSixteen : (16 : UInt32).toNat % 32 = 16 := rfl
  have hTwentyFour : (24 : UInt32).toNat % 32 = 24 := rfl
  -- No byte is shifted out of the 32 bits.
  have hShift :
      ∀ x k : Nat, x ≤ 255 → k ≤ 24 →
        x <<< k % 2 ^ 32 = x <<< k := by
    intro x k hx hk
    rw [Nat.shiftLeft_eq]
    apply Nat.mod_eq_of_lt
    calc
      x * 2 ^ k ≤ 255 * 2 ^ 24 :=
        Nat.mul_le_mul hx (Nat.pow_le_pow_right (by omega) hk)
      _ < 2 ^ 32 := by decide
  unfold packQuad
  simp only [UInt32.toNat_or, UInt32.toNat_shiftLeft, hEight,
    hSixteen, hTwentyFour]
  rw [UInt32.toNat_ofNat_of_lt' (by omega),
    UInt32.toNat_ofNat_of_lt' (by omega),
    UInt32.toNat_ofNat_of_lt' (by omega),
    UInt32.toNat_ofNat_of_lt' (by omega),
    hShift a 24 hA (by omega), hShift b 16 hB (by omega),
    hShift c 8 hC (by omega),
    Bits.or_four_bytes a (by omega) (by omega) (by omega)]
  omega

/- A dotted quad is accepted with its address. -/
theorem SpellsQuad.parsed
    {ip : UInt32}
    (hSpells : SpellsQuad str ip) :
    parseQuad str = some ip := by
  rcases hSpells with
    ⟨a, b, c, d, ⟨hA, hB, hC, hD⟩, rfl, hIp⟩
  have hDigits := digits_append hA.digits hB.digits hC.digits
  have hLast : IsRun d [] :=
    ⟨hD.digits, fun b hHead => by cases hHead⟩
  have hParsed := parseQuad_dotted hDigits hLast
  rw [List.append_nil] at hParsed
  have hPacked := packQuad_toNat hA.value_le hB.value_le
    hC.value_le hD.value_le
  rw [hParsed, UInt32.toNat_inj.mp (hPacked.trans hIp.symm)]

/- Accepted text that ends as a quad is one. -/
theorem EndsAsQuad.spells
    (hEnds : EndsAsQuad str)
    {ip : UInt32}
    (hParsed : parseQuad str = some ip) :
    ∃ ip, SpellsQuad str ip := by
  rcases exists_dotted_of_parseQuad hParsed with
    ⟨a, b, c, d, rest, hDigits, hLast, hStr⟩
  rcases hEnds a b c d rest hDigits hLast hStr with
    ⟨hOctets, hNil⟩
  rw [hNil, List.append_nil] at hStr
  exact ⟨_, a, b, c, d, hOctets, hStr,
    packQuad_toNat hOctets.1.value_le hOctets.2.1.value_le
      hOctets.2.2.1.value_le hOctets.2.2.2.value_le⟩

theorem SpellsQuad.ends
    {ip : UInt32}
    (hSpells : SpellsQuad str ip) :
    EndsAsQuad str := by
  rcases hSpells with
    ⟨a, b, c, d, hOctets, rfl, _⟩
  rcases hOctets with ⟨hA, hB, hC, hD⟩
  intro a' b' c' d' rest hDigits hLast hSame
  have hDigits' := digits_append hA.digits hB.digits hC.digits
  have hLast' : IsRun d [] :=
    ⟨hD.digits, fun b hHead => by cases hHead⟩
  have hSame' :
      dotted a b c d ++ [] = dotted a' b' c' d' ++ rest := by
    rw [List.append_nil, hSame]
  rcases dotted_inj hDigits' hLast' hDigits hLast hSame' with
    ⟨rfl, rfl, rfl, rfl, rfl⟩
  exact ⟨⟨hA, hB, hC, hD⟩, rfl⟩

theorem netParseIp_eq
    (str : List UInt8)
    (old : UInt32) :
    netParseIp (some str) (some old) =
      match parseQuad str with
      | none => (-1, some old)
      | some ip => (0, some ip) :=
  rfl

end Quads

/-
  A string is accepted exactly if it is a dotted quad, with
  the address of the quad, when no text that begins with the
  shape of one goes wrong after it.
-/
theorem netParseIp_exact_iff
    (str : List UInt8)
    (old : UInt32) :
    (((netParseIp (some str) (some old)).1 = 0 ↔
          ∃ ip, SpellsQuad str ip) ∧
        ∀ ip, SpellsQuad str ip →
          (netParseIp (some str) (some old)).2 = some ip) ↔
      EndsAsQuad str := by
  rw [netParseIp_eq]
  constructor
  · rintro ⟨hAccepts, _⟩
    intro a b c d rest hDigits hLast hStr
    have hParsed := parseQuad_dotted hDigits hLast
    rw [← hStr] at hParsed
    rw [hParsed] at hAccepts
    rcases hAccepts.mp rfl with ⟨ip, hSpells⟩
    exact hSpells.ends a b c d rest hDigits hLast hStr
  · intro hEnds
    refine ⟨⟨fun hAccepted => ?_, ?_⟩, fun ip hSpells => ?_⟩
    · cases hParsed : parseQuad str with
      | none =>
          rw [hParsed] at hAccepted
          exact absurd hAccepted (show (-1 : Int) ≠ 0 by decide)
      | some ip => exact hEnds.spells hParsed
    · rintro ⟨ip, hSpells⟩
      rw [hSpells.parsed]
    · rw [hSpells.parsed]

/- Three dots are accepted, without any digit. -/
theorem not_netParseIp_exact :
    ¬ ∀ (str : List UInt8) (old : UInt32),
      0 ∉ str →
        ((netParseIp (some str) (some old)).1 = 0 ↔
          ∃ ip, SpellsQuad str ip) := by
  intro hExact
  have hThree := hExact [0x2E, 0x2E, 0x2E] 0 (by decide)
  rcases hThree.mp (by decide) with
    ⟨_, a, b, c, d, ⟨hA, _⟩, hStr, _⟩
  have hLength := congrArg List.length hStr
  have hPos := List.length_pos_iff.mpr hA.ne_nil
  simp only [dotted, List.length_append, List.length_cons,
    List.length_nil] at hLength
  omega

------------------------------------------------------------
-- Formatted Addresses
------------------------------------------------------------

section Formatted

/- The character of a digit. -/
theorem digit_char
    {x : UInt32}
    (hDigit : x.toNat < 10) :
    IsDigit (0x30 + x.toUInt8) ∧
      digitValue (0x30 + x.toUInt8) = x.toNat := by
  rw [← UInt32.ofNat_toNat (x := x)]
  generalize x.toNat = d at hDigit ⊢
  interval_cases d <;> decide

theorem div_hundred_toNat
    (oct : UInt32) :
    (oct / 100).toNat = oct.toNat / 100 := by
  have hHundred : (100 : UInt32).toNat = 100 := rfl
  rw [UInt32.toNat_div, hHundred]

theorem div_ten_toNat
    (oct : UInt32) :
    (oct / 10 % 10).toNat = oct.toNat / 10 % 10 := by
  have hTen : (10 : UInt32).toNat = 10 := rfl
  rw [UInt32.toNat_mod, UInt32.toNat_div, hTen]

theorem mod_ten_toNat
    (oct : UInt32) :
    (oct % 10).toNat = oct.toNat % 10 := by
  have hTen : (10 : UInt32).toNat = 10 := rfl
  rw [UInt32.toNat_mod, hTen]

theorem octetText_length
    (oct : UInt32) :
    (octetText oct).length ≤ 3 := by
  unfold octetText
  simp only [List.length_append, List.length_singleton]
  split
  · split
    · exact le_refl 3
    · exact Nat.le_succ 2
  · split
    · exact Nat.le_succ 2
    · exact Nat.le_add_left 1 2

section Octets

variable {oct : UInt32}

theorem octetText_digits
    (hByte : oct.toNat ≤ 255) :
    ∀ b ∈ octetText oct, IsDigit b := by
  have hHundreds := div_hundred_toNat oct
  have hTens := div_ten_toNat oct
  have hOnes := mod_ten_toNat oct
  intro b hMem
  unfold octetText at hMem
  rcases List.mem_append.mp hMem with hMem | hMem
  · split at hMem
    · rw [List.mem_singleton.mp hMem]
      exact (digit_char (by omega)).1
    · cases hMem
  rcases List.mem_append.mp hMem with hMem | hMem
  · split at hMem
    · rw [List.mem_singleton.mp hMem]
      exact (digit_char (by omega)).1
    · cases hMem
  · rw [List.mem_singleton.mp hMem]
    exact (digit_char (by omega)).1

/- Without its leading zeros an octet has the same value. -/
theorem octetText_value
    (hByte : oct.toNat ≤ 255) :
    valueOf 10 (octetText oct) = oct.toNat := by
  have hHundreds := div_hundred_toNat oct
  have hTens := div_ten_toNat oct
  have hOnes := mod_ten_toNat oct
  have hHundred : (100 : UInt32).toNat = 100 := rfl
  have hTen : (10 : UInt32).toNat = 10 := rfl
  have hValue := (digit_char (x := oct / 100) (by omega)).2
  have hValue' := (digit_char (x := oct / 10 % 10) (by omega)).2
  have hValue'' := (digit_char (x := oct % 10) (by omega)).2
  have hLong : 100 ≤ oct ↔ 100 ≤ oct.toNat := by
    rw [UInt32.le_iff_toNat_le, hHundred]
  have hMiddle : 10 ≤ oct ↔ 10 ≤ oct.toNat := by
    rw [UInt32.le_iff_toNat_le, hTen]
  unfold octetText
  simp only [hLong, hMiddle]
  split
  · rw [if_pos (by omega)]
    simp only [valueOf, List.cons_append, List.nil_append,
      List.foldl_cons, List.foldl_nil, hValue, hValue',
      hValue'', hHundreds, hTens, hOnes]
    omega
  split
  · simp only [valueOf, List.cons_append, List.nil_append,
      List.foldl_cons, List.foldl_nil, hValue', hValue'',
      hTens, hOnes]
    omega
  · simp only [valueOf, List.nil_append, List.foldl_cons,
      List.foldl_nil, hValue'', hOnes]
    omega

/- The digits of a byte spell it. -/
theorem octetText_isOctet
    (hByte : oct.toNat ≤ 255) :
    IsOctet (octetText oct) ∧
      valueOf 10 (octetText oct) = oct.toNat ∧
      (octetText oct).length ≤ 3 := by
  have hValue := octetText_value hByte
  refine ⟨⟨?_, octetText_digits hByte, ?_⟩, hValue,
    octetText_length oct⟩
  · unfold octetText
    simp
  · rw [hValue]
    exact hByte

end Octets

/- Byte `s` of an address. -/
theorem segment_toNat
    (ip : UInt32)
    {k : Nat}
    (hk : k < 32) :
    ((ip >>> UInt32.ofNat k) &&& 0xFF).toNat =
      ip.toNat / 2 ^ k % 256 := by
  have hMask : (0xFF : UInt32).toNat = 2 ^ 8 - 1 := rfl
  have hSize : UInt32.size = 2 ^ 32 := rfl
  rw [UInt32.toNat_and, hMask, Nat.and_two_pow_sub_one_eq_mod,
    UInt32.toNat_shiftRight,
    UInt32.toNat_ofNat_of_lt' (by omega),
    Nat.mod_eq_of_lt hk, Nat.shiftRight_eq_div_pow]

/- The text of an address is the dotted quad of it. -/
theorem segmentsText_spells
    (ip : UInt32) :
    SpellsQuad (segmentsText ip 3) ip ∧
      (segmentsText ip 3).length ≤ 15 := by
  have hBound := ip.toNat_lt
  have hOctet :
      ∀ k, k < 32 →
        IsOctet
            (octetText ((ip >>> UInt32.ofNat k) &&& 0xFF)) ∧
          valueOf 10
              (octetText ((ip >>> UInt32.ofNat k) &&& 0xFF)) =
            ip.toNat / 2 ^ k % 256 ∧
          (octetText
            ((ip >>> UInt32.ofNat k) &&& 0xFF)).length ≤ 3 := by
    intro k hk
    have hByte := segment_toNat ip hk
    have hSmall :
        ((ip >>> UInt32.ofNat k) &&& 0xFF).toNat ≤ 255 := by
      omega
    have hSpelled := octetText_isOctet hSmall
    rwa [hByte] at hSpelled
  have hText :
      segmentsText ip 3 =
        dotted
          (octetText ((ip >>> UInt32.ofNat 24) &&& 0xFF))
          (octetText ((ip >>> UInt32.ofNat 16) &&& 0xFF))
          (octetText ((ip >>> UInt32.ofNat 8) &&& 0xFF))
          (octetText ((ip >>> UInt32.ofNat 0) &&& 0xFF)) :=
    rfl
  rcases hOctet 24 (by omega) with ⟨hA, hValueA, hLenA⟩
  rcases hOctet 16 (by omega) with ⟨hB, hValueB, hLenB⟩
  rcases hOctet 8 (by omega) with ⟨hC, hValueC, hLenC⟩
  rcases hOctet 0 (by omega) with ⟨hD, hValueD, hLenD⟩
  constructor
  · refine ⟨_, _, _, _, ⟨hA, hB, hC, hD⟩, hText, ?_⟩
    rw [hValueA, hValueB, hValueC, hValueD]
    omega
  · rw [hText]
    unfold dotted
    simp only [List.length_append, List.length_cons]
    omega

/- No character of a dotted quad ends a string. -/
theorem SpellsQuad.zero_not_mem
    {str : List UInt8}
    {ip : UInt32}
    (hSpells : SpellsQuad str ip) :
    0 ∉ str := by
  rcases hSpells with
    ⟨a, b, c, d, ⟨hA, hB, hC, hD⟩, rfl, _⟩
  have hDigit : ¬ IsDigit 0 := by decide
  intro hMem
  unfold dotted at hMem
  simp only [List.mem_append, List.mem_cons] at hMem
  rcases hMem with hMem | hDot | hMem | hDot | hMem | hDot | hMem
  · exact hDigit (hA.digits 0 hMem)
  · exact absurd hDot (by decide)
  · exact hDigit (hB.digits 0 hMem)
  · exact absurd hDot (by decide)
  · exact hDigit (hC.digits 0 hMem)
  · exact absurd hDot (by decide)
  · exact hDigit (hD.digits 0 hMem)

end Formatted

/-
  The formatter stays inside of sixteen bytes, of its own
  array and of the caller's, and what it stored is parsed as
  the address.
-/
theorem netIpToStr_round_trip
    (ip : UInt32)
    (buf : ByteMem)
    {max : Int}
    (hMax : 16 ≤ max)
    (old : UInt32) :
    (segmentsText ip 3).length < 16 ∧
      ∃ buf',
        netIpToStr ip (some buf) max = some buf' ∧
          (∃ n < 16, buf' n = 0) ∧
          (∀ x, 16 ≤ x → buf' x = buf x) ∧
          netParseIp (some (stringIn buf' 16)) (some old) =
            (0, some ip) := by
  rcases segmentsText_spells ip with ⟨hSpells, hLength⟩
  have hWhole :
      min (segmentsText ip 3).length (max - 1).toNat =
        (segmentsText ip 3).length :=
    Nat.min_eq_left (by omega)
  refine ⟨by omega, _, ?_, ⟨_, ?_, storeByte_self
    (storeBlock buf 0 (segmentsText ip 3).length
      (ofList (segmentsText ip 3)))
    (segmentsText ip 3).length 0⟩, ?_, ?_⟩
  · unfold netIpToStr
    dsimp only
    rw [if_neg (by omega), hWhole]
  · omega
  · intro x hx
    rw [storeByte_of_ne _ _ (by omega),
      storeBlock_outside (by omega)]
  · rw [stringIn_stored buf hSpells.zero_not_mem (by omega),
      netParseIp_eq, hSpells.parsed]

/- 255.255.255.255 fills sixteen bytes. -/
theorem netIpToStr_round_trip_longest :
    (segmentsText 0xFFFFFFFF 3).length < 16 ∧
      ∃ buf',
        netIpToStr 0xFFFFFFFF (some zeros) 16 = some buf' ∧
          (∃ n < 16, buf' n = 0) ∧
          (∀ x, 16 ≤ x → buf' x = zeros x) ∧
          netParseIp (some (stringIn buf' 16)) (some 0) =
            (0, some 0xFFFFFFFF) :=
  netIpToStr_round_trip 0xFFFFFFFF zeros (by decide) 0

end Net

end AsmOS
