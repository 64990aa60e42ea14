import AsmOS.Storage.HalSpec

/-
  The sectors that `plat_fs_write` stores to.

  The volume has 2880 sectors, and its data area begins at
  sector 65.  The write loop stops at cluster 0xFF8 only, so
  a file longer than the data area goes on past the volume,
  and one longer than 4086 sectors is cut without an error.

  Main declarations:
    * `WritesInVolume`
    * `platFsWrite_log`
    * `writesInVolume_of_fits`
    * `writesInVolume_iff`
-/

------------------------------------------------------------
-- The Volume
------------------------------------------------------------

namespace AsmOS

namespace Storage

open ByteMem

/- The bytes of the data area, sectors 65 to 2879. -/
abbrev dataCapacity : Nat := 512 * (2880 - fatDataStart)

/- A sector of the root directory or of the data area. -/
def RootOrData
    (lba : Nat) : Prop :=
  (51 ≤ lba ∧ lba ≤ 64) ∨ (65 ≤ lba ∧ lba ≤ 2879)

/-
  The write stores to root and data sectors only, returns 0
  only when the disk holds all bytes of the file, and fails
  when they are more than the data area holds.
-/
structure WritesInVolume
    (fs : Fs)
    (name : List UInt8)
    (data : ByteMem)
    (size : Nat) : Prop where
  sectors :
    ∃ ops,
      (platFsWrite fs name data size).2.dev.log =
          ops ++ fs.dev.log ∧
        ∀ lba, .write lba ∈ ops → RootOrData lba
  complete :
    (platFsWrite fs name data size).1 = 0 →
      (platFsWrite fs name data size).2.dev.image.slice
        (512 * fatDataStart) size = data.slice 0 size
  refused :
    dataCapacity < size → (platFsWrite fs name data size).1 = -1

------------------------------------------------------------
-- Operations Of A Write
------------------------------------------------------------

section Operations

variable {fs : Fs} {lba n : Nat}

theorem mem_writeOps_iff :
    SectorOp.write lba ∈ writeOps 65 n ++ writeOps 51 14 ↔
      (65 ≤ lba ∧ lba < 65 + n) ∨ (51 ≤ lba ∧ lba ≤ 64) := by
  simp only [writeOps, List.mem_append, List.mem_map,
    List.mem_range, SectorOp.write.injEq]
  constructor
  · rintro (⟨s, hs, rfl⟩ | ⟨s, hs, rfl⟩)
    · exact Or.inl ⟨by omega, by omega⟩
    · exact Or.inr ⟨by omega, by omega⟩
  · rintro (⟨hLo, hHi⟩ | ⟨hLo, hHi⟩)
    · exact Or.inl ⟨lba - 65, by omega, by omega⟩
    · exact Or.inr ⟨lba - 51, by omega, by omega⟩

/- Loading the tables writes no sector. -/
theorem ensureReady_log
    (hDev : fs.dev.Reliable) :
    ∃ ops,
      (ensureReady fs).2.dev.log = ops ++ fs.dev.log ∧
        ∀ lba, SectorOp.write lba ∉ ops := by
  unfold ensureReady
  by_cases hReady : fs.fsReady = true
  · rw [if_pos hReady]
    exact ⟨[], rfl, fun lba hOp => by cases hOp⟩
  · rw [if_neg hReady, platFsInit_reliable hDev]
    refine ⟨(readOps 33 9 ++ readOps 51 14).reverse, rfl, ?_⟩
    intro lba hOp
    simp [readOps] at hOp

/- The operations of a write that has a slot. -/
theorem platFsWrite_log
    (hDev : fs.dev.Reliable)
    (name : List UInt8)
    (data : ByteMem)
    (size : Nat)
    (hSlot :
      writeSlot (ensureReady fs).2.rootCache
        (fatNormalize name) ≠ none) :
    ∃ ops,
      (platFsWrite fs name data size).2.dev.log =
          ops ++ fs.dev.log ∧
        ∀ lba, .write lba ∈ ops ↔
          (65 ≤ lba ∧ lba < 65 + writtenSectors size) ∨
            (51 ≤ lba ∧ lba ≤ 64) := by
  rcases ensureReady_log hDev with ⟨loads, hLoads, hReads⟩
  obtain ⟨⟨slot, root⟩, hFound⟩ :=
    Option.ne_none_iff_exists'.mp hSlot
  rw [platFsWrite_ensureReady hDev,
    platFsWrite_reliable (ensureReady_snd_mounted hDev), hFound]
  refine
    ⟨(writeOps 65 (writtenSectors size) ++
        writeOps 51 14).reverse ++ loads, ?_, ?_⟩
  · dsimp only [written, Device.issued, Device.withImage]
    rw [hLoads, List.append_assoc]
  · intro lba
    rw [List.mem_append, List.mem_reverse, mem_writeOps_iff]
    exact or_iff_left (hReads lba)

end Operations

------------------------------------------------------------
-- Writes That Fit
------------------------------------------------------------

section Fits

variable {fs : Fs}
variable {name : List UInt8}
variable {size : Nat}

/- Without a slot the call fails before it writes. -/
theorem writesInVolume_of_full
    (hDev : fs.dev.Reliable)
    (data : ByteMem)
    (hFull :
      writeSlot (ensureReady fs).2.rootCache
        (fatNormalize name) = none) :
    WritesInVolume fs name data size := by
  rcases ensureReady_log hDev with ⟨loads, hLoads, hReads⟩
  have hWrite :
      platFsWrite fs name data size =
        (-1, (ensureReady fs).2) := by
    rw [platFsWrite_ensureReady hDev,
      platFsWrite_reliable (ensureReady_snd_mounted hDev), hFull]
  constructor
  · rw [hWrite]
    exact ⟨loads, hLoads, fun lba hOp => absurd hOp (hReads lba)⟩
  · rw [hWrite]
    intro hRc
    cases hRc
  · rw [hWrite]
    exact fun _ => rfl

/- A file within the data area is written whole. -/
theorem writesInVolume_of_fits
    (hDev : fs.dev.Reliable)
    (data : ByteMem)
    (hFits : size ≤ dataCapacity) :
    WritesInVolume fs name data size := by
  by_cases hFull :
      writeSlot (ensureReady fs).2.rootCache
        (fatNormalize name) = none
  · exact writesInVolume_of_full hDev data hFull
  have hCapacity : dataCapacity = 512 * 2815 := rfl
  have hSectors : writtenSectors size ≤ 2815 := by
    unfold writtenSectors sectorCount
    omega
  constructor
  · rcases platFsWrite_log hDev name data size hFull with
      ⟨ops, hLog, hOps⟩
    refine ⟨ops, hLog, fun lba hOp => ?_⟩
    rcases (hOps lba).mp hOp with hData | hRoot
    · exact Or.inr ⟨hData.1, by omega⟩
    · exact Or.inl hRoot
  · intro _
    obtain ⟨⟨slot, root⟩, hFound⟩ :=
      Option.ne_none_iff_exists'.mp hFull
    rw [platFsWrite_ensureReady hDev,
      platFsWrite_reliable (ensureReady_snd_mounted hDev),
      hFound]
    refine slice_congr fun i hi => ?_
    have hInside : i < 512 * writtenSectors size := by
      unfold writtenSectors sectorCount
      omega
    simp only [written, Device.issued_image,
      Device.withImage_image, writtenImage, fatDataStart]
    rw [storeBlock_outside (by omega),
      storeBlock_inside (by omega) (by omega),
      Nat.add_sub_cancel_left, padded, if_pos hi]
  · intro hLarge
    omega

/- A longer file reaches past the volume and returns 0. -/
theorem not_writesInVolume_of_large
    (hDev : fs.dev.Reliable)
    (data : ByteMem)
    (hSlot :
      writeSlot (ensureReady fs).2.rootCache
        (fatNormalize name) ≠ none)
    (hLarge : dataCapacity < size) :
    ¬ WritesInVolume fs name data size := by
  intro hWrites
  have hRc := hWrites.refused hLarge
  obtain ⟨⟨slot, root⟩, hFound⟩ :=
    Option.ne_none_iff_exists'.mp hSlot
  rw [platFsWrite_ensureReady hDev,
    platFsWrite_reliable (ensureReady_snd_mounted hDev),
    hFound] at hRc
  cases hRc

end Fits

/-
  Without I/O failures a write keeps to the volume exactly
  when its file fits the data area or finds no slot.
-/
theorem writesInVolume_iff
    (fs : Fs)
    (name : List UInt8)
    (data : ByteMem)
    (size : Nat)
    (hDev : fs.dev.Reliable) :
    WritesInVolume fs name data size ↔
      size ≤ dataCapacity ∨
        writeSlot (ensureReady fs).2.rootCache
          (fatNormalize name) = none := by
  by_cases hFits : size ≤ dataCapacity
  · exact iff_of_true (writesInVolume_of_fits hDev data hFits)
      (Or.inl hFits)
  by_cases hFull :
      writeSlot (ensureReady fs).2.rootCache
        (fatNormalize name) = none
  · exact iff_of_true (writesInVolume_of_full hDev data hFull)
      (Or.inr hFull)
  · refine iff_of_false
      (not_writesInVolume_of_large hDev data hFull
        (Nat.lt_of_not_le hFits)) ?_
    rintro (hSmall | hNone)
    · exact hFits hSmall
    · exact hFull hNone

/- The whole data area of a blank volume. -/
theorem writesInVolume_whole :
    WritesInVolume (mountImage zeros) [0x41] zeros 1441280 ↔
      1441280 ≤ dataCapacity ∨
        writeSlot
          (ensureReady (mountImage zeros)).2.rootCache
          (fatNormalize [0x41]) = none :=
  writesInVolume_iff (mountImage zeros) [0x41] zeros 1441280
    (mountImage_mounted zeros).reliable

/-
  One byte more on a blank volume: the last sector is 2880,
  past its end, and the write returns 0.
-/
theorem not_writesInVolume_past_end :
    ¬ WritesInVolume (mountImage zeros) [0x41] zeros
        1441281 := by
  have hMounted := mountImage_mounted zeros
  refine not_writesInVolume_of_large hMounted.reliable zeros ?_
    (by decide)
  rw [ensureReady_mounted hMounted]
  dsimp only
  rw [mountImage_zeros_rootCache, writeSlot_zeros]
  exact Option.some_ne_none _

end Storage

end AsmOS
