import AsmOS.Base.Bits
import AsmOS.Base.Packed12
import AsmOS.Storage.FatPut
import AsmOS.Storage.Directory

/-
  What `fat_put.py` leaves in its byte arrays.

  The table, root directory and image are read as memories:
  what setting a table entry, filling a slot and storing the
  data of a file in its clusters make of them.

  Main declarations:
    * `getFatEntry_eq`, `setFatEntry_spec`
    * `chainEntry`
    * `findRootSlot_eq`
    * `writeClusters_spec`
    * `storeEntry_spec`
-/

------------------------------------------------------------
-- Table Entries
------------------------------------------------------------

namespace AsmOS

namespace FatPut

open ByteMem Bytearray

theorem off_eq
    (cluster : Nat) :
    cluster + (cluster >>> 1) = Packed12.offset cluster := by
  rw [Packed12.offset, Nat.shiftRight_eq_div_pow, pow_one]

theorem and_byte
    (v : Nat) :
    v &&& 0xFF = v % 256 :=
  Nat.and_two_pow_sub_one_eq_mod v 8

theorem and_nibble
    (v : Nat) :
    v &&& 0x0F = v % 16 :=
  Nat.and_two_pow_sub_one_eq_mod v 4

theorem and_entry
    (v : Nat) :
    v &&& 0xFFF = v % 4096 :=
  Nat.and_two_pow_sub_one_eq_mod v 12

theorem and_high
    (v : Nat) :
    v &&& 0xF0 = v / 16 % 16 * 16 :=
  Bits.and_mask_shiftLeft v 4 4

theorem getFatEntry_eq
    {fat : List UInt8}
    {cluster : Nat}
    (hBound : Packed12.offset cluster + 1 < fat.length) :
    getFatEntry fat cluster =
      .ok (Packed12.get (ofList fat) cluster) := by
  have hLo := (ofList fat (Packed12.offset cluster)).toNat_lt
  unfold getFatEntry
  rw [off_eq]
  simp only
  rw [item_of_lt (by omega), item_of_lt hBound]
  simp only
  unfold Packed12.get load16
  rw [Nat.and_one_is_mod]
  by_cases hOdd : cluster % 2 = 1
  · rw [if_pos (by omega), if_pos hOdd,
      Nat.shiftRight_eq_div_pow, Bits.or_shiftLeft (by omega)]
    congr 1
    omega
  · rw [if_neg (by omega), if_neg hOdd, and_nibble,
      Bits.or_shiftLeft (by omega)]
    congr 1
    omega

theorem ofNat_congr
    {v w : Nat}
    (hEq : v % 256 = w % 256) :
    UInt8.ofNat v = UInt8.ofNat w := by
  apply UInt8.toNat_inj.mp
  simpa using hEq

/- Two items assigned one after the other. -/
theorem ofList_set_set
    {l : List UInt8}
    {i : Nat}
    (hBound : i + 1 < l.length)
    (b c : UInt8) :
    ofList ((l.set i b).set (i + 1) c) =
      ((ofList l).storeByte i b).storeByte (i + 1) c := by
  rw [ofList_set (by simpa using hBound),
    ofList_set (by omega)]

/- Setting an entry stores it in the packed table. -/
theorem setFatEntry_spec
    {fat : List UInt8}
    {cluster : Nat}
    (hBound : Packed12.offset cluster + 1 < fat.length)
    (v : Nat) :
    ∃ fat', setFatEntry fat cluster v = .ok fat' ∧
      fat'.length = fat.length ∧
      ofList fat' = Packed12.set (ofList fat) cluster v := by
  have hLo := (ofList fat (Packed12.offset cluster)).toNat_lt
  have hHi :=
    (ofList fat (Packed12.offset cluster + 1)).toNat_lt
  unfold setFatEntry Packed12.set
  rw [off_eq]
  simp only [Nat.and_one_is_mod, and_entry, and_nibble,
    and_byte, and_high, Nat.shiftRight_eq_div_pow]
  generalize Packed12.offset cluster = off at hBound hLo hHi
  by_cases hOdd : cluster % 2 = 1
  · rw [if_pos (by omega), if_pos hOdd,
      item_of_lt (by omega)]
    simp only [bind, Except.bind]
    rw [Bits.or_shiftLeft (by omega),
      setItem_of_lt (by omega) (by omega)]
    simp only
    rw [setItem_of_lt (by simpa using hBound) (by omega)]
    refine ⟨_, rfl, by simp, ?_⟩
    rw [ofList_set_set hBound]
    congr 1
    · congr 1
      exact ofNat_congr (by omega)
    · exact ofNat_congr (by omega)
  · rw [if_neg (by omega), if_neg hOdd,
      setItem_of_lt (by omega) (by omega)]
    simp only [bind, Except.bind]
    have hKeep :
        ofList (fat.set off (UInt8.ofNat (v % 4096 % 256)))
            (off + 1) =
          ofList fat (off + 1) := by
      rw [ofList_set (by omega),
        storeByte_of_ne _ _ (by omega)]
    rw [item_of_lt (by simpa using hBound), hKeep]
    simp only
    rw [Nat.or_comm,
      show (ofList fat (off + 1)).toNat / 16 % 16 * 16 =
          ((ofList fat (off + 1)).toNat / 16 % 16) <<< 4 by
        rw [Nat.shiftLeft_eq],
      Bits.or_shiftLeft (by omega),
      setItem_of_lt (by simpa using hBound) (by omega)]
    refine ⟨_, rfl, by simp, ?_⟩
    rw [ofList_set_set hBound]
    congr 1
    · congr 1
      exact ofNat_congr (by omega)
    · exact ofNat_congr (by omega)

------------------------------------------------------------
-- Tables And Chains
------------------------------------------------------------

/- The tables that are large enough for every data cluster. -/
def tableBytes : Nat := 9 * 512

theorem offset_lt
    {c : Nat}
    (hc : c ≤ 2816) :
    Packed12.offset c + 1 < tableBytes := by
  unfold Packed12.offset tableBytes
  omega

/- The entries of a chain of `n` clusters from `c` on. -/
def chainEntry
    (c n old d : Nat) : Nat :=
  if c ≤ d ∧ d + 1 < c + n then d + 1
  else if d + 1 = c + n then 0xFF8
  else old

------------------------------------------------------------
-- Slots And Data
------------------------------------------------------------

/- `byte in (0x00, 0xE5)`: the test of a free slot. -/
def freeByte
    (b : UInt8) : Prop :=
  b = 0x00 ∨ b = 0xE5

theorem freeByte_iff
    (b : UInt8) :
    freeByte b ↔ b.toNat = 0x00 ∨ b.toNat = 0xE5 := by
  unfold freeByte
  rw [← UInt8.toNat_inj, ← UInt8.toNat_inj]
  rfl

theorem findRootSlotFrom_eq
    {root : List UInt8}
    {k : Nat}
    (count i : Nat)
    (hBytes : 32 * k < root.length)
    (hi : i ≤ k)
    (hCount : k < i + count)
    (hLive :
      ∀ j < k, ¬ freeByte (ofList root (32 * j)))
    (hFree : freeByte (ofList root (32 * k))) :
    findRootSlotFrom root count i = .ok k := by
  induction count generalizing i with
  | zero => omega
  | succ count ih =>
      have hItem :
          item root (i * 32) =
            .ok (ofList root (32 * i)).toNat := by
        rw [item_of_lt (by omega), Nat.mul_comm]
      rw [findRootSlotFrom, hItem]
      simp only
      by_cases hOwn : i = k
      · rw [if_pos (by
          rw [hOwn]
          exact (freeByte_iff _).mp hFree), hOwn]
      · rw [if_neg (fun hTest =>
          hLive i (by omega) ((freeByte_iff _).mpr hTest))]
        exact ih (i + 1) (by omega) (by omega)

/- The first free slot is found. -/
theorem findRootSlot_eq
    {root : List UInt8}
    {k : Nat}
    (hBytes : 32 * k < root.length)
    (hSlot : k < rootEntries)
    (hLive :
      ∀ j < k, ¬ freeByte (ofList root (32 * j)))
    (hFree : freeByte (ofList root (32 * k))) :
    findRootSlot root = .ok k :=
  findRootSlotFrom_eq rootEntries 0 hBytes (Nat.zero_le k)
    (by omega) hLive hFree

/- The bytes of the image that the builder works on. -/
def imageBytes : Nat := 2880 * 512

/- One sector of data, padded with zeros. -/
theorem ofList_chunk
    (data : List UInt8)
    (i x : Nat)
    (hx : x < 512) :
    ofList
        (ljust (Bytearray.slice data (i * sector) ((i + 1) * sector))
          sector 0) x =
      ofList data (512 * i + x) := by
  rw [ofList_ljust, ofList_slice_of_lt (by
    simp only [sector]
    omega), Nat.mul_comm]

theorem chunk_length
    (data : List UInt8)
    (i : Nat) :
    (ljust (Bytearray.slice data (i * sector) ((i + 1) * sector))
      sector 0).length = 512 := by
  apply ljust_length
  simp only [Bytearray.slice, sector, List.length_drop,
    List.length_take]
  omega

/- A cluster inside the image receives one sector of data. -/
theorem setSlice_chunk
    {c : Nat}
    {img : List UInt8}
    (data : List UInt8)
    (i : Nat)
    (hLo : 2 ≤ c)
    (hHi : 512 * (64 + c) ≤ img.length) :
    (setSlice img (dataStart * sector + (c - 2) * sector)
          (dataStart * sector + (c - 2) * sector + sector)
          (ljust
            (Bytearray.slice data (i * sector)
              ((i + 1) * sector)) sector 0)).length =
        img.length ∧
      ofList
          (setSlice img
            (dataStart * sector + (c - 2) * sector)
            (dataStart * sector + (c - 2) * sector + sector)
            (ljust
              (Bytearray.slice data (i * sector)
                ((i + 1) * sector)) sector 0)) =
        (ofList img).storeBlock (512 * (63 + c)) 512
          ((ofList data).view (512 * i)) := by
  have hOff :
      dataStart * sector + (c - 2) * sector =
        512 * (63 + c) := by
    simp only [dataStart, sector]
    omega
  have hChunk := chunk_length data i
  have hBytes :
      ∀ x < 512,
        ofList
            (ljust
              (Bytearray.slice data (i * sector)
                ((i + 1) * sector)) sector 0) x =
          ofList data (512 * i + x) :=
    fun x hx => ofList_chunk data i x hx
  rw [hOff]
  generalize
    ljust (Bytearray.slice data (i * sector)
      ((i + 1) * sector)) sector 0 = chunk at hChunk hBytes ⊢
  have hFits :
      512 * (63 + c) + chunk.length ≤ img.length := by
    omega
  have hStored := ofList_setSlice hFits
  have hStoredLength := setSlice_length hFits
  rw [hChunk] at hStored hStoredLength
  refine ⟨hStoredLength, hStored.trans ?_⟩
  exact storeBlock_congr fun x _ hx => by
    rw [hBytes x hx, view]

/- Consecutive clusters receive the data in order. -/
theorem writeClusters_spec
    (data : List UInt8)
    (n c i : Nat)
    (img : List UInt8)
    (hLength : img.length = imageBytes)
    (hLo : 2 ≤ c)
    (hHi : c + n ≤ 2817) :
    (writeClusters data (List.range' c n) i img).length =
        imageBytes ∧
      ofList (writeClusters data (List.range' c n) i img) =
        (ofList img).storeBlock (512 * (63 + c)) (512 * n)
          ((ofList data).view (512 * i)) := by
  induction n generalizing c i img with
  | zero => simp [writeClusters, hLength]
  | succ n ih =>
      have hFits : 512 * (64 + c) ≤ img.length := by
        unfold imageBytes at hLength
        omega
      rcases setSlice_chunk data i hLo hFits with
        ⟨hStoredLength, hStored⟩
      rcases ih (c + 1) (i + 1) _
          (hStoredLength.trans hLength) (by omega)
          (by omega) with
        ⟨hRestLength, hRest⟩
      rw [List.range'_succ, writeClusters]
      refine ⟨hRestLength, ?_⟩
      have hView :
          (ofList data).view (512 * (i + 1)) =
            ((ofList data).view (512 * i)).view 512 := by
        rw [view_view, Nat.mul_succ]
      rw [hRest, hStored, hView,
        show 512 * (63 + (c + 1)) = 512 * (63 + c) + 512 by
          omega,
        storeBlock_append,
        show 512 + 512 * n = 512 * (n + 1) by omega]

------------------------------------------------------------
-- Directory Entries
------------------------------------------------------------

open Storage

/- The root directory with one more entry. -/
def entryRoot
    (root : ByteMem)
    (slot : Nat)
    (name83 : List UInt8)
    (start size : Nat) : ByteMem :=
  ((nameSlot root slot name83).store16 (32 * slot + 26)
    start).store32 (32 * slot + 28) size

section Entry

variable {root : ByteMem} {slot start size : Nat}
variable {name83 : List UInt8}

theorem entryRoot_outside
    {x : Nat}
    (hOut : x < 32 * slot ∨ 32 * slot + 32 ≤ x) :
    entryRoot root slot name83 start size x = root x := by
  unfold entryRoot
  rw [store32_outside _ _ (by omega),
    store16_outside _ _ (by omega),
    nameSlot_outside _ _ (by omega)]

/- The entry's first bytes are those of the named slot. -/
theorem entryRoot_head
    {x : Nat}
    (hx : x < 32 * slot + 26) :
    entryRoot root slot name83 start size x =
      nameSlot root slot name83 x := by
  unfold entryRoot
  rw [store32_outside _ _ (by omega),
    store16_outside _ _ (by omega)]

theorem slotName_entryRoot
    (hLength : name83.length = 11) :
    slotName (entryRoot root slot name83 start size) slot =
      name83 := by
  have hNamed :
      slotName (nameSlot root slot name83) slot = name83 :=
    slotName_nameSlot root slot hLength
  refine Eq.trans ?_ hNamed
  exact slice_congr fun i hi =>
    entryRoot_head (show 32 * slot + i < 32 * slot + 26 by
      omega)

theorem slotDirectory_entryRoot :
    slotDirectory (entryRoot root slot name83 start size)
      slot = false := by
  have hNamed :
      slotDirectory (nameSlot root slot name83) slot = false :=
    slotDirectory_nameSlot root slot
  unfold slotDirectory at hNamed ⊢
  rw [entryRoot_head (by omega), hNamed]

theorem slotFree_entryRoot :
    slotFree (entryRoot root slot name83 start size) slot =
      (name83.getD 0 0 = 0 || name83.getD 0 0 = 0xE5) := by
  rw [← slotFree_nameSlot root slot]
  unfold slotFree
  rw [entryRoot_head (by omega)]

theorem slotCluster_entryRoot
    (hStart : start < 65536) :
    slotCluster (entryRoot root slot name83 start size)
      slot = start := by
  unfold slotCluster entryRoot
  rw [store32, load16_storeBlock_of_disjoint (by omega),
    load16_store16, Nat.mod_eq_of_lt hStart]

theorem slotSize_entryRoot
    (hSize : size < 2 ^ 32) :
    slotSize (entryRoot root slot name83 start size) slot =
      size := by
  unfold slotSize entryRoot
  rw [load32_store32, Nat.mod_eq_of_lt hSize]

end Entry

/- Packed fields are little-endian stores. -/
theorem ofList_packed
    (v n : Nat)
    (m : ByteMem)
    (a : Nat) :
    m.storeBlock a n (ofList ((littleEndian v).slice 0 n)) =
      m.storeBlock a n (littleEndian v) :=
  storeBlock_congr fun i _ hi => by
    rw [ofList_slice _ _ _ _ hi, Nat.zero_add]

/- The directory after the stores of `put_file`. -/
def storeEntry
    (root name83 : List UInt8)
    (slot start size : Nat) : List UInt8 :=
  setSlice
    (setSlice
      ((setSlice root (slot * 32) (slot * 32 + 11)
        name83).set (slot * 32 + 11) 0x20)
      (slot * 32 + 26) (slot * 32 + 28)
      ((littleEndian start).slice 0 2))
    (slot * 32 + 28) (slot * 32 + 32)
    ((littleEndian size).slice 0 4)

theorem storeEntry_spec
    {root name83 : List UInt8}
    {slot : Nat}
    (start size : Nat)
    (hSlot : 32 * slot + 32 ≤ root.length)
    (hName : name83.length = 11) :
    (storeEntry root name83 slot start size).length =
        root.length ∧
      ofList (storeEntry root name83 slot start size) =
        entryRoot (ofList root) slot name83 start size := by
  have hFits₁ : slot * 32 + name83.length ≤ root.length := by
    omega
  have hLength₁ := setSlice_length hFits₁
  have hBytes₁ := ofList_setSlice hFits₁
  rw [hName] at hLength₁ hBytes₁
  unfold storeEntry
  generalize setSlice root (slot * 32) (slot * 32 + 11) name83 =
    root₁ at hLength₁ hBytes₁ ⊢
  have hBytes₂ :
      ofList (root₁.set (slot * 32 + 11) 0x20) =
        nameSlot (ofList root) slot name83 := by
    rw [ofList_set (by omega), hBytes₁, nameSlot,
      Nat.mul_comm]
  have hLength₂ :
      (root₁.set (slot * 32 + 11) 0x20).length =
        root₁.length := by
    simp
  generalize root₁.set (slot * 32 + 11) 0x20 = root₂
    at hLength₂ hBytes₂ ⊢
  have hFits₃ :
      slot * 32 + 26 +
          ((littleEndian start).slice 0 2).length ≤
        root₂.length := by
    rw [ByteMem.slice_length]
    omega
  have hLength₃ := setSlice_length hFits₃
  have hBytes₃ := ofList_setSlice hFits₃
  rw [ByteMem.slice_length] at hLength₃ hBytes₃
  generalize
    setSlice root₂ (slot * 32 + 26) (slot * 32 + 26 + 2)
      ((littleEndian start).slice 0 2) = root₃
    at hLength₃ hBytes₃ ⊢
  have hFits₄ :
      slot * 32 + 28 +
          ((littleEndian size).slice 0 4).length ≤
        root₃.length := by
    rw [ByteMem.slice_length]
    omega
  have hLength₄ := setSlice_length hFits₄
  have hBytes₄ := ofList_setSlice hFits₄
  rw [ByteMem.slice_length] at hLength₄ hBytes₄
  refine ⟨hLength₄.trans (by omega), ?_⟩
  rw [hBytes₄, ofList_packed, hBytes₃, ofList_packed, hBytes₂,
    Nat.mul_comm slot 32]
  rfl

end FatPut

end AsmOS
