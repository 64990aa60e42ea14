import Mathlib.Data.List.GetD
import AsmOS.Base.CrcRegister

/-
  Burst errors and a reflected checksum register.

  The bytes of a message are fed bit by bit, the lowest bit
  of each byte first.  Two messages of one length lead to one
  register exactly when their difference leads the zero
  register back to zero.  A difference inside a window of at
  most as many bits as the register has puts a nonzero number
  into the register, which no later step clears.

  Main declarations:
    * `CrcRegister.feedBit`, `CrcRegister.messageBits`
    * `CrcRegister.foldl_feedBit_value`
    * `CrcRegister.Burst`
    * `CrcRegister.foldl_feed_ne_of_burst`
-/

------------------------------------------------------------
-- Bits Of A Message
------------------------------------------------------------

namespace AsmOS

namespace CrcRegister

/- The bits of a byte, the lowest one first. -/
def byteBits
    (b : UInt8) : List Bool :=
  (List.range 8).map fun i => b.toNat.testBit i

/- The bits of a message in the order they are fed. -/
def messageBits
    (bytes : List UInt8) : List Bool :=
  bytes.flatMap byteBits

/- The bit at position `k` of a message. -/
def bitAt
    (bytes : List UInt8)
    (k : Nat) : Bool :=
  (bytes.getD (k / 8) 0).toNat.testBit (k % 8)

/-
  Two messages of one length differ, and all their
  differences lie within `n` consecutive bits.
-/
structure Burst
    (n : Nat)
    (a b : List UInt8) : Prop where
  length : b.length = a.length
  ne : b ≠ a
  window :
    ∃ p, ∀ k, bitAt b k ≠ bitAt a k → p ≤ k ∧ k < p + n

/- The number that bits spell, the first one lowest. -/
def bitsValue : List Bool → Nat
| [] => 0
| b :: bits => b.toNat + 2 * bitsValue bits

section Bits

variable {bits : List Bool}
variable {bytes : List UInt8}

@[simp] theorem byteBits_length
    (b : UInt8) :
    (byteBits b).length = 8 := by
  simp [byteBits]

theorem messageBits_cons
    (b : UInt8)
    (bytes : List UInt8) :
    messageBits (b :: bytes) = byteBits b ++ messageBits bytes :=
  List.flatMap_cons

@[simp] theorem messageBits_length :
    (messageBits bytes).length = 8 * bytes.length := by
  induction bytes with
  | nil => rfl
  | cons b bytes ih =>
      rw [messageBits_cons, List.length_append, byteBits_length,
        ih, List.length_cons]
      ring

/- The bits of a message by their positions. -/
theorem messageBits_getD
    (k : Nat) :
    (messageBits bytes).getD k false = bitAt bytes k := by
  induction bytes generalizing k with
  | nil => simp [messageBits, bitAt]
  | cons b bytes ih =>
      rw [messageBits_cons]
      by_cases hFirst : k < 8
      · rw [List.getD_append _ _ _ _ (by
          rw [byteBits_length]
          exact hFirst)]
        simp [byteBits, bitAt, List.getD, hFirst,
          Nat.div_eq_of_lt hFirst, Nat.mod_eq_of_lt hFirst]
      · rw [List.getD_append_right _ _ _ _ (by
            rw [byteBits_length]
            omega), byteBits_length, ih]
        have hIndex : k / 8 = (k - 8) / 8 + 1 := by omega
        have hBit : k % 8 = (k - 8) % 8 := by omega
        rw [bitAt, bitAt, hIndex, hBit, List.getD_cons_succ]

theorem bitsValue_lt :
    bitsValue bits < 2 ^ bits.length := by
  induction bits with
  | nil => simp [bitsValue]
  | cons b bits ih =>
      have hBit := b.toNat_le
      rw [bitsValue, List.length_cons, pow_succ]
      omega

/- Only bits that are all zero spell zero. -/
theorem bitsValue_ne_zero
    (hSome : true ∈ bits) :
    bitsValue bits ≠ 0 := by
  induction bits with
  | nil => cases hSome
  | cons b bits ih =>
      rw [bitsValue]
      rcases List.mem_cons.mp hSome with hHere | hLater
      · subst hHere
        rw [Bool.toNat_true]
        omega
      · have hRest := ih hLater
        omega

theorem bitsValue_byteBits
    (b : UInt8) :
    bitsValue (byteBits b) = b.toNat := by
  have hBound := b.toNat_lt
  simp only [byteBits, List.range, List.range.loop,
    List.map_cons, List.map_nil, bitsValue, Nat.toNat_testBit]
  omega

end Bits

------------------------------------------------------------
-- Feeding Bits
------------------------------------------------------------

variable {w : Nat} (poly : BitVec w)

/- A bit is added to the low end and shifted through. -/
def feedBit
    (reg : BitVec w)
    (b : Bool) : BitVec w :=
  step poly (reg ^^^ BitVec.ofNat w b.toNat)

section Feeding

variable {bits bits' : List Bool}
variable {bytes : List UInt8}

/- An odd number is its low bit and an even number. -/
theorem ofNat_xor_bit
    (b : Bool)
    (m : Nat) :
    BitVec.ofNat w (b.toNat + 2 * m) =
      BitVec.ofNat w b.toNat ^^^ BitVec.ofNat w (2 * m) := by
  rw [← BitVec.ofNat_xor]
  congr 1
  cases b with
  | false => simp
  | true =>
      apply Nat.eq_of_testBit_eq
      intro i
      rw [Nat.testBit_xor]
      cases i with
      | zero => simp [Nat.testBit_zero]
      | succ i =>
          have hHalf : (1 + 2 * m) / 2 = m := by omega
          simp [Nat.testBit_succ, hHalf]

/-
  At most as many bits as the register has are the same as
  their number, added at once.
-/
theorem foldl_feedBit_value
    (bits : List Bool)
    (hFits : bits.length ≤ w)
    (reg : BitVec w) :
    bits.foldl (feedBit poly) reg =
      (step poly)^[bits.length]
        (reg ^^^ BitVec.ofNat w (bitsValue bits)) := by
  induction bits generalizing reg with
  | nil => simp [bitsValue]
  | cons b bits ih =>
      rw [List.length_cons] at hFits ⊢
      have hBound : 2 * bitsValue bits < 2 ^ w := by
        have hValue : bitsValue bits < 2 ^ bits.length :=
          bitsValue_lt
        calc
          2 * bitsValue bits < 2 * 2 ^ bits.length := by omega
          _ = 2 ^ (bits.length + 1) := by ring
          _ ≤ 2 ^ w := Nat.pow_le_pow_right (by omega) hFits
      rw [List.foldl_cons, ih (by omega),
        Function.iterate_succ_apply, feedBit, bitsValue,
        ofNat_xor_bit, ← BitVec.xor_assoc,
        step_xor poly (reg ^^^ _), step_double hBound]

/- A byte is its eight bits. -/
theorem foldl_feedBit_byteBits
    (hWidth : 8 ≤ w)
    (reg : BitVec w)
    (b : UInt8) :
    (byteBits b).foldl (feedBit poly) reg = feed poly reg b := by
  rw [foldl_feedBit_value poly _ (by
      rw [byteBits_length]
      exact hWidth), byteBits_length, bitsValue_byteBits]
  rfl

theorem foldl_feedBit_messageBits
    (hWidth : 8 ≤ w)
    (bytes : List UInt8)
    (reg : BitVec w) :
    (messageBits bytes).foldl (feedBit poly) reg =
      bytes.foldl (feed poly) reg := by
  induction bytes generalizing reg with
  | nil => rfl
  | cons b bytes ih =>
      rw [messageBits_cons, List.foldl_append,
        foldl_feedBit_byteBits poly hWidth, ih, List.foldl_cons]

/- The difference of two messages is fed as one message. -/
theorem foldl_feedBit_xor
    (hLength : bits.length = bits'.length)
    (reg reg' : BitVec w) :
    bits.foldl (feedBit poly) reg ^^^
        bits'.foldl (feedBit poly) reg' =
      (List.zipWith Bool.xor bits bits').foldl (feedBit poly)
        (reg ^^^ reg') := by
  induction bits generalizing bits' reg reg' with
  | nil =>
      cases bits' with
      | nil => rfl
      | cons b' bits' => cases hLength
  | cons b bits ih =>
      cases bits' with
      | nil => cases hLength
      | cons b' bits' =>
          have hBit :
              BitVec.ofNat w (Bool.xor b b').toNat =
                BitVec.ofNat w b.toNat ^^^
                  BitVec.ofNat w b'.toNat := by
            cases b <;> cases b' <;> simp
          have hFirst :
              feedBit poly (reg ^^^ reg') (Bool.xor b b') =
                feedBit poly reg b ^^^ feedBit poly reg' b' := by
            rw [feedBit, feedBit, feedBit, ← step_xor, hBit]
            congr 1
            ac_rfl
          rw [List.zipWith_cons_cons, List.foldl_cons,
            List.foldl_cons, List.foldl_cons, hFirst]
          exact ih (Nat.succ.inj hLength) _ _

/- Zero bits only step the register. -/
theorem foldl_feedBit_zeros
    (hZero : true ∉ bits)
    (reg : BitVec w) :
    bits.foldl (feedBit poly) reg =
      (step poly)^[bits.length] reg := by
  induction bits generalizing reg with
  | nil => rfl
  | cons b bits ih =>
      rw [List.mem_cons, not_or] at hZero
      have hFalse : b = false := by
        cases b with
        | false => rfl
        | true => exact absurd rfl hZero.1
      rw [List.foldl_cons, ih hZero.2, List.length_cons,
        Function.iterate_succ_apply, hFalse, feedBit,
        Bool.toNat_false, BitVec.xor_zero]

theorem step_iterate_zero
    (n : Nat) :
    (step poly)^[n] 0#w = 0#w := by
  have hDouble := step_iterate_xor poly n 0#w 0#w
  rwa [BitVec.xor_self, BitVec.xor_self] at hDouble

end Feeding

------------------------------------------------------------
-- Bursts
------------------------------------------------------------

section Bursts

variable {poly}
variable {bits : List Bool}

/-
  Some ones within `w` consecutive bits leave the zero
  register nonzero.
-/
theorem foldl_feedBit_ne_zero
    (hTop : poly.msb = true)
    (hSome : true ∈ bits)
    {p : Nat}
    (hWindow :
      ∀ k, bits.getD k false = true → p ≤ k ∧ k < p + w) :
    bits.foldl (feedBit poly) 0#w ≠ 0#w := by
  -- The bits before, within and after the window.
  have hSplit :
      bits = bits.take p ++
        ((bits.drop p).take w ++ bits.drop (p + w)) := by
    rw [← List.drop_drop, List.take_append_drop,
      List.take_append_drop]
  have hBefore : true ∉ bits.take p := by
    intro hOne
    obtain ⟨i, hi, hGet⟩ := List.mem_take_iff_getElem.mp hOne
    have hLo := (hWindow i (by
      rw [List.getD_eq_getElem _ _ (by omega), hGet])).1
    omega
  have hAfter : true ∉ bits.drop (p + w) := by
    intro hOne
    obtain ⟨i, hi, hGet⟩ := List.mem_drop_iff_getElem.mp hOne
    have hHi := (hWindow (p + w + i) (by
      rw [List.getD_eq_getElem _ _ (by omega), hGet])).2
    omega
  have hWithin : true ∈ (bits.drop p).take w := by
    rw [hSplit, List.mem_append, List.mem_append] at hSome
    rcases hSome with hOne | hOne | hOne
    · exact absurd hOne hBefore
    · exact hOne
    · exact absurd hOne hAfter
  have hFits : ((bits.drop p).take w).length ≤ w :=
    List.length_take_le _ _
  rw [hSplit, List.foldl_append, List.foldl_append,
    foldl_feedBit_zeros poly hBefore, step_iterate_zero,
    foldl_feedBit_value poly _ hFits, BitVec.zero_xor,
    foldl_feedBit_zeros poly hAfter, ← Function.iterate_add_apply]
  generalize (bits.drop p).take w = within at hFits hWithin ⊢
  -- Steps take no number but zero to zero.
  intro hZero
  have hNumber :
      BitVec.ofNat w (bitsValue within) = 0#w := by
    refine (step_injective hTop).iterate _ (hZero.trans ?_)
    rw [step_iterate_zero]
  have hBound :
      bitsValue within < 2 ^ w :=
    bitsValue_lt.trans_le (Nat.pow_le_pow_right (by omega) hFits)
  have hValue := congrArg BitVec.toNat hNumber
  rw [BitVec.toNat_ofNat, Nat.mod_eq_of_lt hBound,
    BitVec.toNat_zero] at hValue
  exact bitsValue_ne_zero hWithin hValue

/- Two messages with the same bits are the same. -/
theorem eq_of_bitAt
    {a b : List UInt8}
    (hLength : b.length = a.length)
    (hBits : ∀ k, bitAt b k = bitAt a k) :
    b = a := by
  apply List.ext_getElem hLength
  intro i hi hi'
  rw [← UInt8.toNat_inj]
  apply Nat.eq_of_testBit_eq
  intro j
  by_cases hj : j < 8
  · have hBit := hBits (8 * i + j)
    have hIndex : (8 * i + j) / 8 = i := by omega
    have hPlace : (8 * i + j) % 8 = j := by omega
    rwa [bitAt, bitAt, hIndex, hPlace,
      List.getD_eq_getElem _ _ hi,
      List.getD_eq_getElem _ _ hi'] at hBit
  · have hLow (c : UInt8) : c.toNat < 2 ^ j :=
      c.toNat_lt.trans_le
        (Nat.pow_le_pow_right (by omega) (Nat.le_of_not_lt hj))
    rw [Nat.testBit_lt_two_pow (hLow _),
      Nat.testBit_lt_two_pow (hLow _)]

/- The difference of two lists of bits by positions. -/
theorem zipWith_xor_getD
    {bits bits' : List Bool}
    (hLength : bits.length = bits'.length)
    (k : Nat) :
    (List.zipWith Bool.xor bits bits').getD k false =
      Bool.xor (bits.getD k false) (bits'.getD k false) := by
  by_cases hk : k < bits.length
  · rw [List.getD_eq_getElem _ _ (by
        rw [List.length_zipWith]
        omega),
      List.getD_eq_getElem _ _ hk,
      List.getD_eq_getElem _ _ (by omega),
      List.getElem_zipWith]
  · rw [List.getD_eq_default _ _ (by
        rw [List.length_zipWith]
        omega),
      List.getD_eq_default _ _ (by omega),
      List.getD_eq_default _ _ (by omega), Bool.xor_self]

theorem true_mem_of_getD
    {bits : List Bool}
    {k : Nat}
    (hOne : bits.getD k false = true) :
    true ∈ bits := by
  by_cases hk : k < bits.length
  · rw [List.getD_eq_getElem _ _ hk] at hOne
    rw [← hOne]
    exact List.getElem_mem hk
  · rw [List.getD_eq_default _ _ (Nat.le_of_not_lt hk)] at hOne
    cases hOne

/- A burst as long as the register changes the checksum. -/
theorem foldl_feed_ne_of_burst
    (hTop : poly.msb = true)
    (hWidth : 8 ≤ w)
    {a b : List UInt8}
    (hBurst : Burst w a b)
    (reg : BitVec w) :
    b.foldl (feed poly) reg ≠ a.foldl (feed poly) reg := by
  have hLength :
      (messageBits b).length = (messageBits a).length := by
    rw [messageBits_length, messageBits_length, hBurst.length]
  have hDiffer (k : Nat) :
      (List.zipWith Bool.xor (messageBits b)
          (messageBits a)).getD k false =
        Bool.xor (bitAt b k) (bitAt a k) := by
    rw [zipWith_xor_getD hLength, messageBits_getD,
      messageBits_getD]
  have hSome :
      true ∈ List.zipWith Bool.xor (messageBits b)
        (messageBits a) := by
    by_contra hNone
    refine hBurst.ne (eq_of_bitAt hBurst.length fun k => ?_)
    by_contra hBit
    refine hNone (true_mem_of_getD (k := k) ?_)
    rw [hDiffer]
    exact Bool.xor_iff_ne.mpr hBit
  obtain ⟨p, hWindow⟩ := hBurst.window
  intro hSame
  refine foldl_feedBit_ne_zero hTop hSome (p := p)
    (fun k hOne => ?_) ?_
  · rw [hDiffer] at hOne
    refine hWindow k fun hEqual => ?_
    rw [hEqual, Bool.xor_self] at hOne
    cases hOne
  · rw [← BitVec.xor_self (x := reg),
      ← foldl_feedBit_xor poly hLength,
      foldl_feedBit_messageBits poly hWidth,
      foldl_feedBit_messageBits poly hWidth, hSame,
      BitVec.xor_self, BitVec.xor_self]

end Bursts

end CrcRegister

end AsmOS
