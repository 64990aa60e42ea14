import AsmOS.Base.ByteMem

/-
  Tables of packed 12-bit entries.

  Two entries share three bytes: entry `c` occupies twelve
  bits of the word at byte `c + c / 2`, the low twelve for
  an even index and the high twelve for an odd one.

  Main declarations:
    * `Packed12.offset`
    * `Packed12.get`, `Packed12.set`
    * `Packed12.get_congr`
    * `Packed12.get_set`, `Packed12.get_set_of_ne`
    * `Packed12.pack`, `Packed12.get_pack`
-/

------------------------------------------------------------
-- Entries
------------------------------------------------------------

namespace Packed12

open ByteMem

/- The byte at which the word of entry `c` starts. -/
def offset
    (c : Nat) : Nat :=
  c + c / 2

/- The value of entry `c`. -/
def get
    (m : ByteMem)
    (c : Nat) : Nat :=
  if c % 2 = 1 then
    load16 m (offset c) / 16
  else
    load16 m (offset c) % 4096

theorem get_lt
    (m : ByteMem)
    (c : Nat) :
    get m c < 4096 := by
  have hWord := load16_lt m (offset c)
  unfold get
  split <;> omega

/- An entry depends on the two bytes of its word only. -/
theorem get_congr
    {m m' : ByteMem}
    {c lo hi : Nat}
    (hAgree : AgreeOn m m' lo hi)
    (hLo : lo ≤ offset c)
    (hHi : offset c + 2 ≤ hi) :
    get m c = get m' c := by
  unfold get
  rw [hAgree.load16_eq hLo hHi]

@[simp] theorem get_zeros
    (c : Nat) :
    get zeros c = 0 := by
  simp [get, load16]

------------------------------------------------------------
-- Storing An Entry
------------------------------------------------------------

/-
  Store the low twelve bits of `v` as entry `c`; the half
  byte of the entry that shares a byte with it is kept.
-/
def set
    (m : ByteMem)
    (c v : Nat) : ByteMem :=
  if c % 2 = 1 then
    (m.storeByte (offset c)
      (UInt8.ofNat
        ((m (offset c)).toNat % 16 + 16 * (v % 16)))).storeByte
      (offset c + 1) (UInt8.ofNat (v / 16))
  else
    (m.storeByte (offset c) (UInt8.ofNat v)).storeByte
      (offset c + 1)
      (UInt8.ofNat
        ((m (offset c + 1)).toNat / 16 * 16 + v / 256 % 16))

section Set

variable {m : ByteMem} {c d v x : Nat}

theorem set_outside
    (hOut : x < offset c ∨ offset c + 2 ≤ x) :
    set m c v x = m x := by
  unfold set
  split <;>
    rw [storeByte_of_ne _ _ (by omega),
      storeByte_of_ne _ _ (by omega)]

theorem set_first :
    set m c v (offset c) =
      if c % 2 = 1 then
        UInt8.ofNat
          ((m (offset c)).toNat % 16 + 16 * (v % 16))
      else UInt8.ofNat v := by
  unfold set
  split <;>
    rw [storeByte_of_ne _ _ (by omega), storeByte_self]

theorem set_second :
    set m c v (offset c + 1) =
      if c % 2 = 1 then UInt8.ofNat (v / 16)
      else
        UInt8.ofNat
          ((m (offset c + 1)).toNat / 16 * 16 +
            v / 256 % 16) := by
  unfold set
  split <;> rw [storeByte_self]

@[simp] theorem get_set
    (m : ByteMem)
    (c v : Nat) :
    get (set m c v) c = v % 4096 := by
  have hFirst := (m (offset c)).toNat_lt
  have hSecond := (m (offset c + 1)).toNat_lt
  unfold get load16
  rw [set_first, set_second]
  by_cases hOdd : c % 2 = 1
  · rw [if_pos hOdd, if_pos hOdd, if_pos hOdd]
    simp only [UInt8.toNat_ofNat']
    omega
  · rw [if_neg hOdd, if_neg hOdd, if_neg hOdd]
    simp only [UInt8.toNat_ofNat']
    omega

/- Storing an entry keeps every other entry. -/
theorem get_set_of_ne
    (m : ByteMem)
    (v : Nat)
    (hNe : d ≠ c) :
    get (set m c v) d = get m d := by
  have hFirst := (m (offset c)).toNat_lt
  have hSecond := (m (offset c + 1)).toNat_lt
  by_cases hApart :
      offset d + 1 < offset c ∨ offset c + 1 < offset d
  · apply get_congr (fun x hLo hHi =>
      set_outside (by omega)) (Nat.le_refl _) (Nat.le_refl _)
  · -- The two entries of one three-byte group.
    unfold offset at hApart
    by_cases hOdd : c % 2 = 1
    · have hEven : d % 2 = 0 := by omega
      have hOffset : offset d + 1 = offset c := by
        unfold offset
        omega
      have hBefore : set m c v (offset d) = m (offset d) :=
        set_outside (by omega)
      unfold get load16
      rw [if_neg (by omega), if_neg (by omega), hOffset,
        hBefore, set_first, if_pos hOdd]
      simp only [UInt8.toNat_ofNat']
      omega
    · have hOdd' : d % 2 = 1 := by omega
      have hOffset : offset d = offset c + 1 := by
        unfold offset
        omega
      have hAfter :
          set m c v (offset c + 1 + 1) =
            m (offset c + 1 + 1) :=
        set_outside (by omega)
      unfold get load16
      rw [if_pos hOdd', if_pos hOdd', hOffset, hAfter,
        set_second, if_neg hOdd]
      simp only [UInt8.toNat_ofNat']
      omega

end Set

------------------------------------------------------------
-- A Whole Table
------------------------------------------------------------

/- The table whose entries are the low bits of `f`. -/
def pack
    (f : Nat → Nat) : ByteMem :=
  fun x =>
    let low := f (2 * (x / 3)) % 4096
    let high := f (2 * (x / 3) + 1) % 4096
    if x % 3 = 0 then UInt8.ofNat low
    else if x % 3 = 1 then
      UInt8.ofNat (low / 256 + 16 * high)
    else UInt8.ofNat (high / 16)

@[simp] theorem get_pack
    (f : Nat → Nat)
    (c : Nat) :
    get (pack f) c = f c % 4096 := by
  rcases Nat.even_or_odd' c with ⟨q, rfl | rfl⟩
  · have hOffset : offset (2 * q) = 3 * q := by
      unfold offset
      omega
    have hRow : (3 * q + 1) / 3 = q := by omega
    have hPlace : (3 * q + 1) % 3 = 1 := by omega
    simp [get, hOffset, load16, pack, hRow, hPlace]
    omega
  · have hOffset : offset (2 * q + 1) = 3 * q + 1 := by
      unfold offset
      omega
    have hRow : (3 * q + 1) / 3 = q := by omega
    have hPlace : (3 * q + 1) % 3 = 1 := by omega
    have hRow' : (3 * q + 1 + 1) / 3 = q := by omega
    have hPlace' : (3 * q + 1 + 1) % 3 = 2 := by omega
    simp [get, hOffset, load16, pack, hRow, hPlace, hRow',
      hPlace']
    omega

end Packed12
