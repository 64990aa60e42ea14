import AsmOS.Base.CrcBurst

/-
  The boot metadata (`boot_meta.h`) and the host tool that
  makes it from a kernel file (`gen_boot_meta.c`).

  The structure is packed, 508 bytes, and its words are
  little-endian.

  Main declarations:
    * `BootMeta`, `BootMeta.bytes`, `BootMeta.load`
    * `crc32`, `genBootMeta`
    * `BootMeta.load_bytes`
    * `crc32_ne_of_burst`
-/

------------------------------------------------------------
-- The Structure
------------------------------------------------------------

namespace AsmOS

namespace Boot

open ByteMem

/- `ASMOS_BOOT_MAGIC`, `ASMOSBT1`. -/
def asmosBootMagic : List UInt8 :=
  [0x41, 0x53, 0x4D, 0x4F, 0x53, 0x42, 0x54, 0x31]

abbrev asmosBootVersion : UInt16 := 1
abbrev asmosKernelMagic : UInt32 := 0x41534D4B
abbrev asmosKernelLoad : UInt32 := 0x00100000

/- `ASMOS_META_FILENAME`, `ASMOS   MET`. -/
def asmosMetaFilename : List UInt8 :=
  [0x41, 0x53, 0x4D, 0x4F, 0x53, 0x20, 0x20, 0x20, 0x4D,
    0x45, 0x54]

/- `ASMOS_KERNEL_FILENAME`, `KERNEL  BIN`. -/
def asmosKernelFilename : List UInt8 :=
  [0x4B, 0x45, 0x52, 0x4E, 0x45, 0x4C, 0x20, 0x20, 0x42,
    0x49, 0x4E]

/- `asmos_boot_meta_t`. -/
@[ext]
structure BootMeta where
  magic : List UInt8
  kernelMagic : UInt32
  kernelLoadAddr : UInt32
  kernelEntry : UInt32
  kernelSize : UInt32
  kernelCluster : UInt16
  metaVersion : UInt16
  kernelCrc32 : UInt32
  platform : List UInt8
  reserved : List UInt8
  magic_length : magic.length = 8
  platform_length : platform.length = 16
  reserved_length : reserved.length = 460

/- `sizeof(asmos_boot_meta_t)`. -/
abbrev bootMetaSize : Nat := 508

/- The bytes of a word in memory. -/
def halfBytes
    (v : UInt16) : List UInt8 :=
  (littleEndian v.toNat).slice 0 2

def wordBytes
    (v : UInt32) : List UInt8 :=
  (littleEndian v.toNat).slice 0 4

/- The fields of the structure in their order. -/
def BootMeta.fields
    (m : BootMeta) : List (List UInt8) :=
  [m.magic, wordBytes m.kernelMagic,
    wordBytes m.kernelLoadAddr, wordBytes m.kernelEntry,
    wordBytes m.kernelSize, halfBytes m.kernelCluster,
    halfBytes m.metaVersion, wordBytes m.kernelCrc32,
    m.platform, m.reserved]

/- The packed bytes of the structure. -/
def BootMeta.bytes
    (m : BootMeta) : List UInt8 :=
  m.fields.flatten

/- The structure that the bytes of a memory are. -/
def BootMeta.load
    (mem : ByteMem) : BootMeta where
  magic := mem.slice 0 8
  kernelMagic := UInt32.ofNat (load32 mem 8)
  kernelLoadAddr := UInt32.ofNat (load32 mem 12)
  kernelEntry := UInt32.ofNat (load32 mem 16)
  kernelSize := UInt32.ofNat (load32 mem 20)
  kernelCluster := UInt16.ofNat (load16 mem 24)
  metaVersion := UInt16.ofNat (load16 mem 26)
  kernelCrc32 := UInt32.ofNat (load32 mem 28)
  platform := mem.slice 32 16
  reserved := mem.slice 48 460
  magic_length := slice_length _ _ _
  platform_length := slice_length _ _ _
  reserved_length := slice_length _ _ _

------------------------------------------------------------
-- The Generator
------------------------------------------------------------

/- One bit of `crc32` and of `crc32_byte`. -/
def crc32Bit
    (crc : UInt32) : UInt32 :=
  (crc >>> 1) ^^^ (0xEDB88320 &&& -(crc &&& 1))

/- The body of the outer loop of `crc32`; `crc32_byte`. -/
def crc32Byte
    (crc : UInt32)
    (b : UInt8) : UInt32 :=
  crc32Bit^[8] (crc ^^^ b.toUInt32)

/- `crc32`. -/
def crc32
    (data : List UInt8) : UInt32 :=
  ~~~ (data.foldl crc32Byte 0xFFFFFFFF)

/-
  `strncpy(dst, src, n)` to a field of zeros: the text up to
  its first zero byte, cut to `n` bytes.
-/
def strncpyField
    (src : List UInt8)
    (n size : Nat) : List UInt8 :=
  let text := (src.takeWhile (· != 0)).take n
  text ++ List.replicate (size - text.length) 0

/-
  `main` of the generator, for a kernel file and a platform
  name: what it writes to `ASMOS.META`.
-/
def genBootMeta
    (buf platform : List UInt8) : BootMeta where
  magic := asmosBootMagic
  kernelMagic := asmosKernelMagic
  kernelLoadAddr := asmosKernelLoad
  kernelEntry := asmosKernelLoad
  kernelSize := UInt32.ofNat buf.length
  kernelCluster := 2
  metaVersion := asmosBootVersion
  kernelCrc32 := crc32 buf
  platform := strncpyField platform 15 16
  reserved := List.replicate 460 0
  magic_length := rfl
  platform_length := by
    simp only [strncpyField, List.length_append,
      List.length_replicate, List.length_take]
    omega
  reserved_length := List.length_replicate

------------------------------------------------------------
-- Stored And Loaded Structures
------------------------------------------------------------

section RoundTrip

variable {mem : ByteMem}
variable {a v : Nat}

/- One of several lists that are joined. -/
theorem slice_ofList_flatten
    (parts : List (List UInt8))
    {k : Nat}
    {part : List UInt8}
    (hPart : parts[k]? = some part) :
    (ofList parts.flatten).slice (parts.take k).flatten.length
        part.length = part := by
  obtain ⟨hk, hGet⟩ := List.getElem?_eq_some_iff.mp hPart
  have hSplit :
      parts.flatten =
        (parts.take k).flatten ++
          (part ++ (parts.drop (k + 1)).flatten) := by
    rw [← hGet, ← List.flatten_cons, ← List.drop_eq_getElem_cons,
      ← List.flatten_append, List.take_append_drop]
  have hView :
      (ofList parts.flatten).view (parts.take k).flatten.length =
        ofList (part ++ (parts.drop (k + 1)).flatten) := by
    rw [view_ofList, hSplit, List.drop_left]
  have hSlice := slice_view (ofList parts.flatten)
    (parts.take k).flatten.length 0 part.length
  rw [Nat.add_zero, hView] at hSlice
  rw [← hSlice]
  calc
    (ofList (part ++ (parts.drop (k + 1)).flatten)).slice 0
          part.length =
        (ofList part).slice 0 part.length := by
      apply slice_congr
      intro i hi
      simp [ofList, List.getD, List.getElem?_append_left, hi]
    _ = part := slice_ofList part

theorem load32_of_slice
    (hSlice : mem.slice a 4 = (littleEndian v).slice 0 4) :
    load32 mem a = v % 2 ^ 32 := by
  have hAgree : AgreeOn (mem.view a) (littleEndian v) 0 4 := by
    intro i _ hi
    have hByte := slice_eq_iff.mp hSlice i hi
    rwa [Nat.zero_add] at hByte
  have hLoad := hAgree.load32_eq (Nat.le_refl 0) (Nat.le_refl 4)
  rwa [load32_view, load32_littleEndian] at hLoad

theorem load16_of_slice
    (hSlice : mem.slice a 2 = (littleEndian v).slice 0 2) :
    load16 mem a = v % 65536 := by
  have hAgree : AgreeOn (mem.view a) (littleEndian v) 0 2 := by
    intro i _ hi
    have hByte := slice_eq_iff.mp hSlice i hi
    rwa [Nat.zero_add] at hByte
  have hLoad := hAgree.load16_eq (Nat.le_refl 0) (Nat.le_refl 2)
  rwa [load16_view, load16_littleEndian] at hLoad

@[simp] theorem wordBytes_length
    (v : UInt32) :
    (wordBytes v).length = 4 :=
  ByteMem.slice_length _ _ _

@[simp] theorem halfBytes_length
    (v : UInt16) :
    (halfBytes v).length = 2 :=
  ByteMem.slice_length _ _ _

/- Where each field begins. -/
theorem BootMeta.fields_offset
    (m : BootMeta)
    (k : Nat) :
    (m.fields.take k).flatten.length =
      [0, 8, 12, 16, 20, 24, 26, 28, 32, 48].getD k
        bootMetaSize := by
  have hMagic := m.magic_length
  have hPlatform := m.platform_length
  have hReserved := m.reserved_length
  rcases k with _ | _ | _ | _ | _ | _ | _ | _ | _ | _ | k <;>
    simp [fields, hMagic, hPlatform, hReserved]

theorem BootMeta.bytes_length
    (m : BootMeta) :
    m.bytes.length = bootMetaSize :=
  m.fields_offset 10

section Fields

variable {m : BootMeta}
variable {k : Nat}

/- A field at the place where it begins. -/
theorem BootMeta.slice_bytes
    {part : List UInt8}
    (hField : m.fields[k]? = some part)
    {n : Nat}
    (hLength : part.length = n) :
    (ofList m.bytes).slice
        ([0, 8, 12, 16, 20, 24, 26, 28, 32, 48].getD k
          bootMetaSize) n = part := by
  rw [← m.fields_offset k, ← hLength]
  exact slice_ofList_flatten m.fields hField

theorem BootMeta.load_word
    {v : UInt32}
    (hField : m.fields[k]? = some (wordBytes v)) :
    UInt32.ofNat (load32 (ofList m.bytes)
      ([0, 8, 12, 16, 20, 24, 26, 28, 32, 48].getD k
        bootMetaSize)) = v := by
  have hSlice := slice_bytes hField (wordBytes_length v)
  rw [load32_of_slice hSlice, Nat.mod_eq_of_lt v.toNat_lt,
    UInt32.ofNat_toNat]

theorem BootMeta.load_half
    {v : UInt16}
    (hField : m.fields[k]? = some (halfBytes v)) :
    UInt16.ofNat (load16 (ofList m.bytes)
      ([0, 8, 12, 16, 20, 24, 26, 28, 32, 48].getD k
        bootMetaSize)) = v := by
  have hSlice := slice_bytes hField (halfBytes_length v)
  rw [load16_of_slice hSlice, Nat.mod_eq_of_lt v.toNat_lt,
    UInt16.ofNat_toNat]

end Fields

/- Every structure is read back from its bytes. -/
theorem BootMeta.load_bytes
    (m : BootMeta) :
    BootMeta.load (ofList m.bytes) = m := by
  apply BootMeta.ext
  · exact slice_bytes (k := 0) rfl m.magic_length
  · exact load_word (k := 1) rfl
  · exact load_word (k := 2) rfl
  · exact load_word (k := 3) rfl
  · exact load_word (k := 4) rfl
  · exact load_half (k := 5) rfl
  · exact load_half (k := 6) rfl
  · exact load_word (k := 7) rfl
  · exact slice_bytes (k := 8) rfl m.platform_length
  · exact slice_bytes (k := 9) rfl m.reserved_length

/- Only the bytes of the structure are loaded. -/
theorem BootMeta.load_congr
    {mem' : ByteMem}
    (hAgree : AgreeOn mem mem' 0 bootMetaSize) :
    BootMeta.load mem = BootMeta.load mem' := by
  have hWord (a : Nat) (hFits : a + 4 ≤ bootMetaSize) :
      UInt32.ofNat (load32 mem a) =
        UInt32.ofNat (load32 mem' a) :=
    congrArg UInt32.ofNat (hAgree.load32_eq (Nat.zero_le a) hFits)
  have hHalf (a : Nat) (hFits : a + 2 ≤ bootMetaSize) :
      UInt16.ofNat (load16 mem a) =
        UInt16.ofNat (load16 mem' a) :=
    congrArg UInt16.ofNat (hAgree.load16_eq (Nat.zero_le a) hFits)
  have hText (a n : Nat) (hFits : a + n ≤ bootMetaSize) :
      mem.slice a n = mem'.slice a n :=
    slice_congr fun i hi =>
      hAgree (a + i) (Nat.zero_le _) (by omega)
  apply BootMeta.ext
  · exact hText 0 8 (by decide)
  · exact hWord 8 (by decide)
  · exact hWord 12 (by decide)
  · exact hWord 16 (by decide)
  · exact hWord 20 (by decide)
  · exact hHalf 24 (by decide)
  · exact hHalf 26 (by decide)
  · exact hWord 28 (by decide)
  · exact hText 32 16 (by decide)
  · exact hText 48 460 (by decide)

theorem BootMeta.load_of_slice
    {m : BootMeta}
    (hSlice : mem.slice 0 bootMetaSize = m.bytes) :
    BootMeta.load mem = m := by
  have hAgree : AgreeOn mem (ofList m.bytes) 0 bootMetaSize := by
    rw [← hSlice]
    exact agreeOn_ofList_slice mem bootMetaSize
  rw [BootMeta.load_congr hAgree, m.load_bytes]

end RoundTrip

------------------------------------------------------------
-- Checksums
------------------------------------------------------------

abbrev crc32Poly : BitVec 32 := 0xEDB88320#32

theorem crc32Bit_toBitVec
    (crc : UInt32) :
    (crc32Bit crc).toBitVec =
      CrcRegister.step crc32Poly crc.toBitVec := by
  have hLow :
      (crc &&& 1).toBitVec =
        (BitVec.ofBool (crc.toBitVec.getLsbD 0)).setWidth 32 := by
    rw [UInt32.toBitVec_and]
    exact BitVec.and_one_eq_setWidth_ofBool_getLsbD
  have hShift : (crc >>> 1).toBitVec = crc.toBitVec >>> 1 := rfl
  unfold crc32Bit CrcRegister.step
  rw [UInt32.toBitVec_xor, UInt32.toBitVec_and,
    UInt32.toBitVec_neg, hLow, hShift]
  cases crc.toBitVec.getLsbD 0 with
  | false => simp
  | true =>
      rw [if_pos rfl]
      rfl

theorem crc32Byte_toBitVec
    (crc : UInt32)
    (b : UInt8) :
    (crc32Byte crc b).toBitVec =
      CrcRegister.feed crc32Poly crc.toBitVec b := by
  have hBits :
      Function.Semiconj UInt32.toBitVec crc32Bit
        (CrcRegister.step crc32Poly) :=
    crc32Bit_toBitVec
  have hByte :
      b.toUInt32.toBitVec = BitVec.ofNat 32 b.toNat := by
    apply BitVec.eq_of_toNat_eq
    have hBound := b.toNat_lt
    rw [UInt32.toNat_toBitVec, UInt8.toNat_toUInt32,
      BitVec.toNat_ofNat]
    omega
  rw [crc32Byte, (hBits.iterate_right 8).eq, CrcRegister.feed,
    UInt32.toBitVec_xor, hByte]

theorem foldl_crc32Byte_toBitVec
    (data : List UInt8)
    (crc : UInt32) :
    (data.foldl crc32Byte crc).toBitVec =
      data.foldl (CrcRegister.feed crc32Poly) crc.toBitVec :=
  (List.foldl_hom UInt32.toBitVec fun crc b =>
    (crc32Byte_toBitVec crc b).symm).symm

/- A burst of at most 32 bits changes the checksum. -/
theorem crc32_ne_of_burst
    {data altered : List UInt8}
    (hBurst : CrcRegister.Burst 32 data altered) :
    crc32 altered ≠ crc32 data := by
  intro hSame
  have hRegister := congrArg UInt32.toBitVec
    (UInt32.not_inj.mp hSame)
  rw [foldl_crc32Byte_toBitVec,
    foldl_crc32Byte_toBitVec] at hRegister
  exact CrcRegister.foldl_feed_ne_of_burst (by decide) (by decide)
    hBurst _ hRegister

end Boot

end AsmOS
