import AsmOS.Boot.Stage2
import AsmOS.Storage.ChainRead
import AsmOS.Storage.FatPutRead

/-
  The boot image build and the second stage.

  `fat_put.py` stores a file in consecutive clusters, and the
  stage's check takes the kernel and the metadata that
  `gen_boot_meta.c` made for it, and no kernel that a burst of
  at most 32 bits has altered.  But the stage never gets the
  kernel to its load address: every sector goes below 1 MB.

  Main declarations:
    * `stage2Check_guards`
    * `Stored`, `stored_of_installed`
    * `BootsFrom`, `Stage2Boots`
    * `stage2_never_boots`
-/

------------------------------------------------------------
-- Checking The Kernel
------------------------------------------------------------

namespace AsmOS

namespace Boot

open ByteMem Storage FatPut

section Check

variable {m : BootMeta}
variable {mem : ByteMem}
variable {load : UInt32}
variable {data : List UInt8}

/- Both programs compute one checksum. -/
theorem crc32Buf_eq
    {a : Nat}
    (hBytes : mem.slice a data.length = data) :
    crc32Buf mem a data.length = crc32 data := by
  rw [crc32Buf, hBytes, crc32]

/- The metadata that lies at `meta`. -/
theorem metaAt_of_slice
    {metaAddr : UInt32}
    (hMeta :
      mem.slice metaAddr.toNat bootMetaSize = m.bytes) :
    metaAt mem metaAddr = m := by
  refine BootMeta.load_of_slice ?_
  rw [slice_view, Nat.add_zero]
  exact hMeta

/- The recorded checksum and the magic let the stage jump. -/
theorem stage2Check_same
    (hBytes : mem.slice load.toNat data.length = data)
    (hCrc : m.kernelCrc32 = crc32 data)
    (hSize : 4 ≤ data.length)
    (hMagic :
      load32 (ofList data) 0 = asmosKernelMagic.toNat) :
    stage2Check m load data.length mem =
      .jump m.kernelEntry data.length mem := by
  have hAgree :
      AgreeOn (mem.view load.toNat) (ofList data) 0 4 := by
    intro i _ hi
    rw [← hBytes, ofList_slice _ _ _ _ (by omega), view_apply]
  have hWord := hAgree.load32_eq (Nat.le_refl 0) (Nat.le_refl 4)
  rw [load32_view, Nat.add_zero, hMagic] at hWord
  rw [stage2Check]
  rw [crc32Buf_eq hBytes, hCrc, hWord, UInt32.ofNat_toNat,
    if_neg (fun hBad => hBad.2 rfl), if_neg (fun hBad => hBad rfl)]

/- Another checksum stops it. -/
theorem stage2Check_differs
    (hBytes : mem.slice load.toNat data.length = data)
    (hSome : m.kernelCrc32 ≠ 0)
    (hCrc : crc32 data ≠ m.kernelCrc32) :
    stage2Check m load data.length mem = .halt := by
  rw [stage2Check]
  rw [crc32Buf_eq hBytes, if_pos ⟨hSome, hCrc⟩]

end Check

/-
  Whatever brought them there: with the metadata of a kernel
  at `meta`, and as many bytes as it has at its load address,
  the stage jumps to the recorded entry if they are the
  kernel, and halts if they are the kernel with a burst of at
  most 32 bits altered.
-/
theorem stage2Check_guards
    {kernel platform : List UInt8}
    (hSize : 4 ≤ kernel.length)
    (hMagic :
      load32 (ofList kernel) 0 = asmosKernelMagic.toNat)
    (hCrc : (genBootMeta kernel platform).kernelCrc32 ≠ 0)
    {mem : ByteMem}
    {metaAddr : UInt32}
    (hMeta :
      mem.slice metaAddr.toNat bootMetaSize =
        (genBootMeta kernel platform).bytes) :
    let m := metaAt mem metaAddr
    (mem.slice m.kernelLoadAddr.toNat kernel.length = kernel →
      stage2Check m m.kernelLoadAddr kernel.length mem =
        .jump (genBootMeta kernel platform).kernelEntry
          kernel.length mem) ∧
    ∀ altered, CrcRegister.Burst 32 kernel altered →
      mem.slice m.kernelLoadAddr.toNat kernel.length = altered →
        stage2Check m m.kernelLoadAddr kernel.length mem =
          .halt := by
  dsimp only
  rw [metaAt_of_slice hMeta]
  constructor
  · exact fun hBytes => stage2Check_same hBytes rfl hSize hMagic
  · intro altered hBurst hBytes
    have hLength : altered.length = kernel.length := hBurst.length
    rw [← hLength] at hBytes ⊢
    exact stage2Check_differs hBytes hCrc
      (crc32_ne_of_burst hBurst)

/- A kernel that is nothing but its magic. -/
def magicKernel : List UInt8 :=
  [0x4B, 0x4D, 0x53, 0x41]

/- A memory with that kernel and its metadata in place. -/
def magicMemory : ByteMem :=
  (zeros.storeBlock 0x70000 bootMetaSize
    (ofList (genBootMeta magicKernel [0x70, 0x63]).bytes)
    ).storeBlock 0x100000 4 (ofList magicKernel)

theorem stage2Check_guards_magicKernel :
    stage2Check (metaAt magicMemory 0x70000)
        (metaAt magicMemory 0x70000).kernelLoadAddr
        magicKernel.length magicMemory =
      .jump (genBootMeta magicKernel [0x70, 0x63]).kernelEntry
        magicKernel.length magicMemory := by
  have hMeta :
      magicMemory.slice (0x70000 : UInt32).toNat bootMetaSize =
        (genBootMeta magicKernel [0x70, 0x63]).bytes := by
    have hMagicLow :
        magicMemory.slice (0x70000 : UInt32).toNat bootMetaSize =
          (zeros.storeBlock 0x70000 bootMetaSize
            (ofList (genBootMeta magicKernel
              [0x70, 0x63]).bytes)).slice 0x70000
                bootMetaSize := by
      refine slice_congr fun i hi => storeBlock_outside ?_
      have hSmall : i < 508 := hi
      have hAddr : (0x70000 : UInt32).toNat = 0x70000 := rfl
      omega
    rw [hMagicLow, slice_storeBlock, ← BootMeta.bytes_length,
      slice_ofList]
  refine (stage2Check_guards (by decide) (by decide)
    (by decide +kernel) hMeta).1 ?_
  rw [metaAt_of_slice hMeta]
  exact (slice_storeBlock _ 0x100000 4 _).trans (by decide)

------------------------------------------------------------
-- Installed Files
------------------------------------------------------------

/- The kernel under its name, as the image build installs it. -/
def kernelFile
    (kernel : List UInt8) : InstallFile where
  data := kernel
  name := asmosKernelFilename
  name_length := rfl
  name_ascii := by decide +kernel

/- `ASMOS.META` under its name. -/
def metaFile
    (m : BootMeta) : InstallFile where
  data := m.bytes
  name := asmosMetaFilename
  name_length := rfl
  name_ascii := by decide +kernel

/- A file in consecutive clusters from `start` on. -/
structure Stored
    (image : ByteMem)
    (slot : Nat)
    (data : List UInt8)
    (start : Nat) : Prop where
  size :
    slotSize (mountImage image).rootCache slot = data.length
  clusters :
    visited (mountImage image).fatCache
        (sectorCount data.length)
        (slotCluster (mountImage image).rootCache slot) =
      List.range' start (sectorCount data.length)
  lo : 2 ≤ start
  hi : start + sectorCount data.length ≤ 2817
  bytes :
    image.slice (512 * (63 + start)) data.length = data

/- An installed file is stored. -/
theorem stored_of_installed
    {image : ByteMem}
    {s : Installer}
    {slot start : Nat}
    {file : InstallFile}
    (hMounts : Mounts image s)
    (hFile : Installed s slot file start)
    (hSlot : slot < 224)
    (hLo : 2 ≤ start)
    (hRoom : start + file.clusterCount ≤ 2817) :
    Stored image slot file.data start := by
  have hCount :
      sectorCount file.data.length ≤ file.clusterCount := by
    unfold sectorCount InstallFile.clusterCount
    omega
  have hData := file.data_length_le
  obtain ⟨hLimit, hClusters⟩ :=
    readClusters_installed hMounts hFile hSlot hRoom
      (Nat.le_refl file.data.length)
  rw [readClusters, hLimit] at hClusters
  refine ⟨?_, hClusters, hLo, by omega, ?_⟩
  · rw [(hMounts.slotAgree hSlot).size_eq, hFile.size]
  · refine (slice_congr fun i hi => ?_).trans
      (slice_ofList file.data)
    rw [hMounts.data _ (by omega), hFile.bytes i (by omega),
      Nat.zero_add]

------------------------------------------------------------
-- The Boot Image
------------------------------------------------------------

/-
  With the structures at these addresses and this memory, the
  stage loads the kernel to its address, finds the recorded
  checksum and jumps.
-/
def BootsFrom
    (disk : ByteMem)
    (kernel : List UInt8)
    (m : BootMeta)
    (bootDriveStorage : UInt8)
    (fsAddr metaAddr : UInt32)
    (mem : ByteMem) : Prop :=
  ∃ mem',
    stage2Start (Device.ofImage disk) bootDriveStorage fsAddr
        metaAddr mem =
      some (.jump m.kernelEntry kernel.length mem') ∧
    mem'.slice m.kernelLoadAddr.toNat kernel.length =
      kernel ∧
    crc32Buf mem' m.kernelLoadAddr.toNat kernel.length =
      m.kernelCrc32

/-
  What is asked of the stage on a disk with a kernel and its
  metadata: it boots wherever its structures are and whatever
  is in memory, and it does not jump after a burst of at most
  32 bits in the stored kernel.
-/
structure Stage2Boots
    (disk : ByteMem)
    (kernel : List UInt8)
    (start : Nat)
    (m : BootMeta)
    (bootDriveStorage : UInt8) : Prop where
  boots :
    ∀ fsAddr metaAddr mem,
      BootsFrom disk kernel m bootDriveStorage fsAddr metaAddr
        mem
  guards :
    ∀ altered, CrcRegister.Burst 32 kernel altered →
      ∀ fsAddr metaAddr mem entry n mem',
        stage2Start
            (Device.ofImage
              (disk.storeBlock (512 * (63 + start))
                kernel.length (ofList altered)))
            bootDriveStorage fsAddr metaAddr mem ≠
          some (.jump entry n mem')

/- It boots at most where the kernel is in place beforehand. -/
theorem BootsFrom.resident
    {disk mem : ByteMem}
    {kernel platform : List UInt8}
    {bootDriveStorage : UInt8}
    {fsAddr metaAddr : UInt32}
    (hBoots :
      BootsFrom disk kernel (genBootMeta kernel platform)
        bootDriveStorage fsAddr metaAddr mem) :
    mem.slice asmosKernelLoad.toNat kernel.length = kernel := by
  rcases hBoots with ⟨mem', hStart, hBytes, _⟩
  have hHigh := stage2Start_high hStart
  calc mem.slice asmosKernelLoad.toNat kernel.length
    _ = mem'.slice asmosKernelLoad.toNat kernel.length :=
        slice_congr fun i _ =>
          (hHigh _ (Nat.le_add_right 0x100000 i)).symm
    _ = kernel := hBytes

/- A memory of zeros has no kernel in place. -/
theorem not_stage2Boots
    {kernel : List UInt8}
    (hSize : 4 ≤ kernel.length)
    (hMagic :
      load32 (ofList kernel) 0 = asmosKernelMagic.toNat)
    (disk : ByteMem)
    (start : Nat)
    (platform : List UInt8)
    (bootDriveStorage : UInt8) :
    ¬ Stage2Boots disk kernel start (genBootMeta kernel platform)
      bootDriveStorage := by
  intro hBoots
  have hResident :=
    (hBoots.boots 0x80000 0x90000 zeros).resident
  have hAgree : AgreeOn (ofList kernel) zeros 0 4 := by
    intro i _ hi
    rw [← hResident, ofList_slice _ _ _ _ (by omega)]
    rfl
  have hWord := hAgree.load32_eq (Nat.le_refl 0) (Nat.le_refl 4)
  rw [hMagic] at hWord
  exact absurd hWord (by decide)

/-
  `fat_put.py` installs every such kernel and its metadata on
  a blank image, in consecutive clusters; but from no memory
  does the stage boot that has not the kernel at its load
  address already.
-/
theorem stage2_never_boots
    {img : List UInt8}
    (hImg : img.length = imageBytes)
    (hBlank :
      ∀ x, 512 * 33 ≤ x → x < imageBytes →
        ofList img x = 0)
    {kernel platform : List UInt8}
    (hSize : 4 ≤ kernel.length)
    (hMagic :
      load32 (ofList kernel) 0 = asmosKernelMagic.toNat)
    {files : List InstallFile}
    (hKernel : kernelFile kernel ∈ files)
    (hMeta : metaFile (genBootMeta kernel platform) ∈ files)
    (hNames : (files.map InstallFile.name).Nodup)
    (hSlots : files.length ≤ 224)
    (hRoom : totalClusters files ≤ 2815)
    (bootDriveStorage : UInt8) :
    ∃ img' slot start metaSlot metaStart,
      main img (files.map InstallFile.args) = .ok img' ∧
      fatFindEntry (mountImage (ofList img')).rootCache
        asmosKernelFilename = some slot ∧
      Stored (ofList img') slot kernel start ∧
      fatFindEntry (mountImage (ofList img')).rootCache
        asmosMetaFilename = some metaSlot ∧
      Stored (ofList img') metaSlot
        (genBootMeta kernel platform).bytes metaStart ∧
      (∀ fsAddr metaAddr mem,
        BootsFrom (ofList img') kernel
            (genBootMeta kernel platform) bootDriveStorage
            fsAddr metaAddr mem →
          mem.slice asmosKernelLoad.toNat kernel.length =
            kernel) ∧
      ¬ Stage2Boots (ofList img') kernel start
        (genBootMeta kernel platform) bootDriveStorage := by
  have hSome : files ≠ [] := List.ne_nil_of_mem hKernel
  obtain ⟨img', s, hMain, _, _, hMounts, hInstalled⟩ :=
    main_spec hImg hBlank hSome hSlots hRoom
  obtain ⟨k, hGetKernel⟩ := List.getElem?_of_mem hKernel
  obtain ⟨m, hGetMeta⟩ := List.getElem?_of_mem hMeta
  have hStored (j : Nat) (file : InstallFile)
      (hGet : files[j]? = some file) :
      Stored (ofList img') j file.data
        (2 + totalClusters (files.take j)) := by
    have hj := (List.getElem?_eq_some_iff.mp hGet).1
    have hTotal := totalClusters_take_le files hGet
    exact stored_of_installed hMounts (hInstalled j file hGet)
      (by omega) (by omega) (by omega)
  have hFound (j : Nat) (file : InstallFile)
      (hGet : files[j]? = some file) :
      fatFindEntry (mountImage (ofList img')).rootCache
        file.name = some j :=
    findEntry_installed hMounts hInstalled hNames hSlots hGet
  exact ⟨img', k, 2 + totalClusters (files.take k), m,
    2 + totalClusters (files.take m), hMain,
    hFound k (kernelFile kernel) hGetKernel,
    hStored k (kernelFile kernel) hGetKernel,
    hFound m _ hGetMeta, hStored m _ hGetMeta,
    fun _ _ _ hBoots => hBoots.resident,
    not_stage2Boots hSize hMagic (ofList img') _ platform
      bootDriveStorage⟩

/- The files of the small kernel. -/
def magicFiles : List InstallFile :=
  [kernelFile magicKernel,
    metaFile (genBootMeta magicKernel [0x70, 0x63])]

theorem magicFiles_room :
    totalClusters magicFiles ≤ 2815 := by
  have hMetaCount :
      (metaFile
        (genBootMeta magicKernel [0x70, 0x63])).clusterCount =
        1 := by
    have hLength :
        (metaFile
          (genBootMeta magicKernel [0x70, 0x63])).data.length =
          508 :=
      BootMeta.bytes_length _
    rw [InstallFile.clusterCount, hLength]
    rfl
  unfold magicFiles
  rw [totalClusters_cons, totalClusters_cons, hMetaCount]
  decide

theorem blank_zeros :
    ∀ x, 512 * 33 ≤ x → x < imageBytes →
      ofList (List.replicate imageBytes 0) x = 0 := by
  intro x _ _
  rw [ofList_replicate_zero]
  rfl

/- It is installed, but not booted, as from zeros. -/
theorem stage2_never_boots_magicKernel :
    ∃ img' start,
      main (List.replicate imageBytes 0)
          (magicFiles.map InstallFile.args) = .ok img' ∧
      ¬ BootsFrom (ofList img') magicKernel
        (genBootMeta magicKernel [0x70, 0x63]) 0 0x80000 0x90000
        zeros ∧
      ¬ Stage2Boots (ofList img') magicKernel start
        (genBootMeta magicKernel [0x70, 0x63]) 0 := by
  rcases stage2_never_boots List.length_replicate blank_zeros
      (by decide) (by decide)
      (show kernelFile magicKernel ∈ magicFiles from
        List.mem_cons_self)
      (List.mem_cons_of_mem _ List.mem_cons_self) (by decide)
      (by decide) magicFiles_room 0 with
    ⟨img', _, start, _, _, hMain, _, _, _, _, hResident,
      hNever⟩
  refine ⟨img', start, hMain, fun hBoots => ?_, hNever⟩
  have hZeros := hResident _ _ _ hBoots
  exact absurd hZeros (by decide)

/-
  From a memory of zeros the stage does not jump with the
  kernel at its load address, on the disk that `fat_put.py`
  makes for it.
-/
theorem not_stage2_boots_magicKernel :
    ∃ img',
      main (List.replicate imageBytes 0)
          (magicFiles.map InstallFile.args) = .ok img' ∧
      ¬ ∃ mem' entry,
        stage2Start (Device.ofImage (ofList img')) 0 0x80000
            0x90000 zeros =
          some (.jump entry magicKernel.length mem') ∧
        mem'.slice asmosKernelLoad.toNat magicKernel.length =
          magicKernel := by
  obtain ⟨img', s, hMain, _⟩ :=
    main_spec List.length_replicate blank_zeros
      (List.cons_ne_nil _ _ : magicFiles ≠ [])
      (by decide) magicFiles_room
  refine ⟨img', hMain, ?_⟩
  rintro ⟨mem', entry, hStart, hBytes⟩
  have hFirst : (mem'.slice _ magicKernel.length)[0]? = some 0x4B :=
    congrArg (fun l => l[0]?) hBytes
  rw [slice_getElem? _ _ _ _ (by decide)] at hFirst
  have hByte :=
    stage2Start_high hStart (asmosKernelLoad.toNat + 0) (by decide)
  rw [hByte] at hFirst
  exact absurd hFirst (by decide)

end Boot

end AsmOS
