import AsmOS.Base.LinkedFiles
import AsmOS.Storage.ChainRead
import AsmOS.Storage.RoundTrip

/-
  Consistency of a volume over runs of writes and deletes.

  A volume is consistent when the files of its directory are
  disjoint chains of the table and the table marks exactly
  the clusters of these chains.  The HAL never writes the
  table, so a call keeps a consistent volume consistent
  exactly when it changes no file's start and sector count.

  Main declarations:
    * `VolumeConsistent`
    * `FsCall`, `FsCall.run`, `Fs.states`
    * `FsCall.Fits`
    * `consistent_run_iff`
    * `consistent_states_iff`
-/

------------------------------------------------------------
-- Consistent Volumes
------------------------------------------------------------

namespace AsmOS

namespace Storage

open ByteMem

/- The allocation table of an image. -/
def fatOf
    (image : ByteMem) : ByteMem :=
  image.view (512 * 33)

/- The root directory of an image. -/
def rootOf
    (image : ByteMem) : ByteMem :=
  image.view (512 * 51)

/-
  The file of slot `i`: start cluster and sector count of a
  live entry of nonzero size.
-/
def fileOf
    (root : ByteMem)
    (i : Nat) : Option (Nat × Nat) :=
  if i < 224 ∧ slotFree root i = false ∧
      slotSize root i ≠ 0 then
    some (slotCluster root i, sectorCount (slotSize root i))
  else
    none

/- The clusters of the data area. -/
def dataCluster
    (c : Nat) : Prop :=
  2 ≤ c ∧ c ≤ 2816

/- No live entry is a directory. -/
def NoDirectories
    (root : ByteMem) : Prop :=
  ∀ i < 224, slotFree root i = false →
    slotDirectory root i = false

/-
  The volume of an image: no subdirectories, and the files
  are disjoint chains over exactly the allocated clusters.
-/
structure VolumeConsistent
    (image : ByteMem) : Prop where
  noDirectories : NoDirectories (rootOf image)
  files :
    LinkedFiles.Consistent (Packed12.get (fatOf image))
      chainStop dataCluster
      (fun c => Packed12.get (fatOf image) c ≠ 0)
      (fileOf (rootOf image))

/- The clusters of one chain are distinct. -/
theorem VolumeConsistent.chain_nodup
    {image : ByteMem}
    (hVolume : VolumeConsistent image)
    {i s n : Nat}
    (hFile : fileOf (rootOf image) i = some (s, n)) :
    ∃ cs,
      Linked.Walks (Packed12.get (fatOf image)) chainStop s
        cs ∧ cs.length = n ∧ cs.Nodup := by
  rcases hVolume.files.chains i s n hFile with
    ⟨cs, hWalk, hLength, _⟩
  exact ⟨cs, hWalk, hLength, hWalk.nodup⟩

------------------------------------------------------------
-- Runs Of Calls
------------------------------------------------------------

/- The calls that modify a volume. -/
inductive FsCall where
| write (name : List UInt8) (data : ByteMem) (size : UInt32)
| delete (name : List UInt8)

/- The state after a call. -/
def FsCall.run
    (fs : Fs) : FsCall → Fs
| .write name data size =>
    (platFsWrite fs name data size.toNat).2
| .delete name => (platFsDelete fs name).2

/- The states after each of a sequence of calls. -/
def Fs.states
    (fs : Fs) : List FsCall → List Fs
| [] => []
| call :: calls =>
    call.run fs :: (call.run fs).states calls

/-
  When a write keeps every file's chain: an empty entry is
  written with no data, an entry of a chain from cluster 2
  with data of the same number of sectors, and a name that
  is not found gets no data or no slot.
-/
def WriteFits
    (root : ByteMem)
    (name : List UInt8)
    (size : Nat) : Prop :=
  match fatFindEntry root (fatNormalize name) with
  | some slot =>
      (size = 0 ∧ slotSize root slot = 0) ∨
        (size ≠ 0 ∧ slotSize root slot ≠ 0 ∧
          slotCluster root slot = 2 ∧
          sectorCount (slotSize root slot) =
            sectorCount size)
  | none =>
      size = 0 ∨ fatFindFreeEntry root = none

/- When a delete keeps every file's chain. -/
def DeleteFits
    (root : ByteMem)
    (name : List UInt8) : Prop :=
  ∀ slot, fatFindEntry root (fatNormalize name) = some slot →
    slotSize root slot = 0

/- The calls that leave a consistent volume consistent. -/
def FsCall.Fits
    (fs : Fs) : FsCall → Prop
| .write name _ size =>
    WriteFits fs.rootCache name size.toNat
| .delete name => DeleteFits fs.rootCache name

/- Every call of a run fits the state it is made in. -/
def CallsFit
    (fs : Fs) : List FsCall → Prop
| [] => True
| call :: calls => call.Fits fs ∧ CallsFit (call.run fs) calls

------------------------------------------------------------
-- Files Of A Directory
------------------------------------------------------------

section Files

variable {root root' : ByteMem}
variable {i k s n : Nat}

theorem fileOf_congr
    (hAgree : SlotAgree root root' i) :
    fileOf root i = fileOf root' i := by
  unfold fileOf
  rw [hAgree.free_eq, hAgree.size_eq, hAgree.cluster_eq]

/- A file has at least one sector. -/
theorem fileOf_pos
    (hFile : fileOf root i = some (s, n)) :
    0 < n := by
  unfold fileOf at hFile
  split at hFile
  · rename_i hLive
    have hSize := hLive.2.2
    simp only [Option.some.injEq, Prod.mk.injEq] at hFile
    rw [← hFile.2]
    unfold sectorCount
    omega
  · simp at hFile

theorem fileOf_of_free
    (hFree : slotFree root i = true) :
    fileOf root i = none := by
  simp [fileOf, hFree]

theorem fileOf_of_live
    (hSlot : i < 224)
    (hLive : slotFree root i = false) :
    fileOf root i =
      if slotSize root i = 0 then none
      else
        some (slotCluster root i,
          sectorCount (slotSize root i)) := by
  by_cases hSize : slotSize root i = 0
  · simp [fileOf, hSize]
  · simp [fileOf, hSlot, hLive, hSize]

/- Changing one slot changes at most the file of that slot. -/
theorem fileOf_eq_update
    (hAgree : ∀ i, i ≠ k → SlotAgree root' root i) :
    fileOf root' =
      Function.update (fileOf root) k (fileOf root' k) := by
  funext i
  by_cases hSlot : i = k
  · subst hSlot
    rw [Function.update_self]
  · rw [Function.update_of_ne hSlot]
    exact fileOf_congr (hAgree i hSlot)

end Files

------------------------------------------------------------
-- One Changed Slot
------------------------------------------------------------

section OneSlot

variable {image image' root root' : ByteMem}
variable {k : Nat}

/- The files of a volume depend on 224 slots. -/
theorem fileOf_rootOf
    (hRoot : AgreeOn (rootOf image) root 0 7168) :
    fileOf (rootOf image) = fileOf root := by
  funext i
  by_cases hSlot : i < 224
  · exact fileOf_congr (hRoot.mono (by omega) (by omega))
  · simp [fileOf, hSlot]

theorem noDirectories_rootOf
    (hRoot : AgreeOn (rootOf image) root 0 7168) :
    NoDirectories (rootOf image) ↔ NoDirectories root := by
  have hSlot :
      ∀ i < 224, SlotAgree (rootOf image) root i :=
    fun i hi => hRoot.mono (by omega) (by omega)
  constructor
  · intro hNone i hi
    rw [← (hSlot i hi).free_eq, ← (hSlot i hi).directory_eq]
    exact hNone i hi
  · intro hNone i hi
    rw [(hSlot i hi).free_eq, (hSlot i hi).directory_eq]
    exact hNone i hi

/- The links of the data area lie in the first 4226 bytes. -/
theorem get_fatOf
    (hFat : AgreeOn (fatOf image') (fatOf image) 0 4608)
    (c : Nat)
    (hCell : dataCluster c) :
    Packed12.get (fatOf image) c =
      Packed12.get (fatOf image') c := by
  have hc := hCell.2
  apply Packed12.get_congr hFat.symm (Nat.zero_le _)
  unfold Packed12.offset
  omega

/-
  A call that leaves the table alone and changes one slot to
  a file keeps the volume consistent exactly when it does
  not change that slot's chain.
-/
theorem volumeConsistent_update_iff
    (hVolume : VolumeConsistent image)
    (hRoot : AgreeOn (rootOf image) root 0 7168)
    (hRoot' : AgreeOn (rootOf image') root' 0 7168)
    (hFat : AgreeOn (fatOf image') (fatOf image) 0 4608)
    (hSlots : ∀ i, i ≠ k → SlotAgree root' root i)
    (hPlain :
      slotFree root' k = false →
        slotDirectory root' k = false) :
    VolumeConsistent image' ↔
      fileOf root' k = fileOf root k := by
  rcases hVolume with ⟨hNone, hFiles⟩
  rw [fileOf_rootOf hRoot] at hFiles
  rw [noDirectories_rootOf hRoot] at hNone
  have hUpdate :=
    hFiles.update_iff (fun _ _ _ => fileOf_pos) k
      (fileOf root' k) (fun _ _ => fileOf_pos)
  rw [← fileOf_eq_update hSlots] at hUpdate
  rw [← hUpdate]
  have hGet := get_fatOf hFat
  constructor
  · rintro ⟨_, hFiles'⟩
    rw [fileOf_rootOf hRoot'] at hFiles'
    exact hFiles'.congr (fun c hc => (hGet c hc).symm)
      fun c hc => by rw [hGet c hc]
  · intro hFiles'
    refine ⟨?_, ?_⟩
    · rw [noDirectories_rootOf hRoot']
      intro i hi
      by_cases hSlot : i = k
      · subst hSlot
        exact hPlain
      · rw [(hSlots i hSlot).free_eq,
          (hSlots i hSlot).directory_eq]
        exact hNone i hi
    · rw [fileOf_rootOf hRoot']
      exact hFiles'.congr hGet fun c hc => by rw [hGet c hc]

end OneSlot

------------------------------------------------------------
-- Coherent States
------------------------------------------------------------

/- The root cache of a mounted state is the disk's root. -/
structure Fs.Coherent
    (fs : Fs) : Prop extends Fs.Mounted fs where
  root : AgreeOn (rootOf fs.dev.image) fs.rootCache 0 7168

theorem mountImage_coherent
    (image : ByteMem) :
    (mountImage image).Coherent where
  toMounted := mountImage_mounted image
  root := by
    intro x _ hx
    rw [mountImage_rootCache image hx, mountImage_image]
    rfl

section Images

variable (image root data : ByteMem) (size : Nat)

/- The disk after a write has the directory it flushed. -/
theorem rootOf_writtenImage :
    AgreeOn (rootOf (writtenImage image root data size)) root
      0 7168 := by
  intro x _ hx
  simp only [rootOf, view, writtenImage]
  rw [storeBlock_inside (by omega) (by omega),
    Nat.add_sub_cancel_left]

/- A write leaves the table on the disk alone. -/
theorem fatOf_writtenImage :
    AgreeOn (fatOf (writtenImage image root data size))
      (fatOf image) 0 4608 := by
  intro x _ hx
  simp only [fatOf, view, writtenImage]
  rw [storeBlock_outside (by omega),
    storeBlock_outside (by omega)]

/- A flush alone is a write of no data. -/
theorem writtenImage_empty :
    writtenImage image root data 0 =
      image.storeBlock (512 * 51) (512 * 14) root := by
  simp [writtenImage, writtenSectors, sectorCount]

end Images

------------------------------------------------------------
-- One Call
------------------------------------------------------------

section OneCall

variable {fs : Fs} {name : List UInt8}

/- A write of an entry gives it a chain from cluster 2. -/
theorem fileOf_written
    {root : ByteMem}
    {slot size : Nat}
    (hSlot : slot < 224)
    (hLive : slotFree root slot = false)
    (hSize : size < 2 ^ 32) :
    fileOf (sizeSlot root slot size) slot =
      if size = 0 then none
      else some (2, sectorCount size) := by
  rw [fileOf_of_live hSlot (by rw [slotFree_sizeSlot, hLive]),
    slotSize_sizeSlot, slotCluster_sizeSlot,
    Nat.mod_eq_of_lt hSize]

/- A write keeps its slot's chain exactly when it fits. -/
theorem fileOf_writeSlot_iff
    {root root' : ByteMem}
    {slot size : Nat}
    (hSize : size < 2 ^ 32)
    (hWrite :
      writeSlot root (fatNormalize name) =
        some (slot, root')) :
    fileOf (sizeSlot root' slot size) slot =
        fileOf root slot ↔
      WriteFits root name size := by
  unfold WriteFits
  rcases writeSlot_cases hWrite with
    ⟨hFind, rfl⟩ | ⟨hAbsent, hSlot, hFree, rfl⟩
  · rcases fatFindEntry_eq_some_iff.mp hFind with
      ⟨hSlot, hMatch, _⟩
    have hLive := (live_of_matches hMatch).1
    rw [fileOf_written hSlot hLive hSize,
      fileOf_of_live hSlot hLive, hFind]
    by_cases hOld : slotSize root' slot = 0
    · by_cases hNew : size = 0
      · simp [hOld, hNew]
      · simp [hOld, hNew]
    · by_cases hNew : size = 0
      · simp [hOld, hNew]
      · simp [hOld, hNew, eq_comm]
  · have hSome : fatFindFreeEntry root ≠ none := by
      intro hNone
      simp [writeSlot, hAbsent, hNone] at hWrite
    rw [fileOf_of_free hFree, hAbsent]
    simp only [hSome, or_false]
    have hLive :
        slotFree (nameSlot root slot (fatNormalize name))
            slot = false := by
      rw [slotFree_nameSlot, fatNormalize_head]
      rfl
    rw [fileOf_written hSlot hLive hSize]
    simp

/- Deleting a live entry removes its file. -/
theorem fileOf_deleted_iff
    {root : ByteMem}
    {slot : Nat}
    (hFind :
      fatFindEntry root (fatNormalize name) = some slot) :
    fileOf (root.storeByte (32 * slot) 0xE5) slot =
        fileOf root slot ↔
      DeleteFits root name := by
  rcases fatFindEntry_eq_some_iff.mp hFind with
    ⟨hSlot, hMatch, _⟩
  have hLive := (live_of_matches hMatch).1
  rw [fileOf_of_free (slotFree_deleted root slot),
    fileOf_of_live hSlot hLive]
  simp [DeleteFits, hFind, eq_comm]

/- A slot written to is no directory when it is live. -/
theorem slotDirectory_writeSlot
    {root root' : ByteMem}
    {slot : Nat}
    (hWrite :
      writeSlot root (fatNormalize name) =
        some (slot, root')) :
    slotDirectory root' slot = false := by
  rcases writeSlot_cases hWrite with
    ⟨hFind, rfl⟩ | ⟨_, _, _, rfl⟩
  · exact (live_of_matches
      (fatFindEntry_eq_some_iff.mp hFind).2.1).2
  · exact slotDirectory_nameSlot root slot

/- Without a slot for the name nothing is written. -/
theorem writeFits_of_writeSlot_none
    {root : ByteMem}
    {size : Nat}
    (hWrite : writeSlot root (fatNormalize name) = none) :
    WriteFits root name size := by
  unfold WriteFits
  unfold writeSlot at hWrite
  cases hFind : fatFindEntry root (fatNormalize name) with
  | some slot => simp [hFind] at hWrite
  | none =>
      cases hFree : fatFindFreeEntry root with
      | none => simp
      | some slot => simp [hFind, hFree] at hWrite

/- The cache and the disk agree after a flush. -/
theorem written_coherent
    (hFs : fs.Coherent)
    (root data : ByteMem)
    (size : Nat) :
    (written fs root data size).Coherent where
  toMounted := written_mounted hFs.toMounted root data size
  root := rootOf_writtenImage fs.dev.image root data size

/- One write keeps consistency exactly when it fits. -/
theorem consistent_write_iff
    (hFs : fs.Coherent)
    (hVolume : VolumeConsistent fs.dev.image)
    (data : ByteMem)
    {size : Nat}
    (hSize : size < 2 ^ 32) :
    VolumeConsistent
        (platFsWrite fs name data size).2.dev.image ↔
      WriteFits fs.rootCache name size := by
  rw [platFsWrite_reliable hFs.toMounted]
  cases hWrite :
      writeSlot fs.rootCache (fatNormalize name) with
  | none =>
      simp [hVolume, writeFits_of_writeSlot_none hWrite]
  | some target =>
      rcases target with ⟨slot, root⟩
      rw [← fileOf_writeSlot_iff hSize hWrite]
      apply volumeConsistent_update_iff hVolume hFs.root
        (rootOf_writtenImage _ _ _ _)
        (fatOf_writtenImage _ _ _ _)
      · intro i hi
        exact slotAgree_written hi hWrite
      · intro _
        rw [slotDirectory_sizeSlot]
        exact slotDirectory_writeSlot hWrite

/- One delete keeps consistency exactly when it fits. -/
theorem consistent_delete_iff
    (hFs : fs.Coherent)
    (hVolume : VolumeConsistent fs.dev.image) :
    VolumeConsistent (platFsDelete fs name).2.dev.image ↔
      DeleteFits fs.rootCache name := by
  rw [platFsDelete_reliable hFs.toMounted]
  cases hFind : readSlot fs name with
  | none =>
      have hAbsent :
          fatFindEntry fs.rootCache (fatNormalize name) =
            none := hFind
      simp [hVolume, DeleteFits, hAbsent]
  | some slot =>
      have hFound :
          fatFindEntry fs.rootCache (fatNormalize name) =
            some slot := hFind
      rw [← fileOf_deleted_iff hFound]
      simp only [← writtenImage_empty _ _ zeros]
      apply volumeConsistent_update_iff hVolume hFs.root
        (rootOf_writtenImage _ _ _ _)
        (fatOf_writtenImage _ _ _ _)
      · intro i hi
        exact slotAgree_deleted fs.rootCache slot hi
      · intro hLive
        simp at hLive

/- Every call leaves cache and disk coherent. -/
theorem run_coherent
    (hFs : fs.Coherent)
    (call : FsCall) :
    (call.run fs).Coherent := by
  cases call with
  | write name data size =>
      simp only [FsCall.run]
      rw [platFsWrite_reliable hFs.toMounted]
      cases writeSlot fs.rootCache (fatNormalize name) with
      | none => exact hFs
      | some target => exact written_coherent hFs _ _ _
  | delete name =>
      simp only [FsCall.run]
      rw [platFsDelete_reliable hFs.toMounted]
      cases readSlot fs name with
      | none => exact hFs
      | some slot =>
          simp only [← writtenImage_empty _ _ zeros]
          exact written_coherent hFs _ zeros 0

/- One call keeps consistency exactly when it fits. -/
theorem consistent_run_iff
    (hFs : fs.Coherent)
    (hVolume : VolumeConsistent fs.dev.image)
    (call : FsCall) :
    VolumeConsistent (call.run fs).dev.image ↔
      call.Fits fs := by
  cases call with
  | write name data size =>
      exact consistent_write_iff hFs hVolume data
        size.toNat_lt
  | delete name => exact consistent_delete_iff hFs hVolume

end OneCall

------------------------------------------------------------
-- Whole Runs
------------------------------------------------------------

/- A run from a coherent state with a consistent volume. -/
theorem consistent_states_of_coherent_iff
    {fs : Fs}
    (hFs : fs.Coherent)
    (hVolume : VolumeConsistent fs.dev.image)
    (calls : List FsCall) :
    (∀ fs' ∈ fs.states calls,
        VolumeConsistent fs'.dev.image) ↔
      CallsFit fs calls := by
  induction calls generalizing fs with
  | nil => simp [Fs.states, CallsFit]
  | cons call calls ih =>
      have hStep := consistent_run_iff hFs hVolume call
      simp only [Fs.states, CallsFit, List.forall_mem_cons]
      constructor
      · rintro ⟨hFirst, hRest⟩
        exact ⟨hStep.mp hFirst,
          (ih (run_coherent hFs call) hFirst).mp hRest⟩
      · rintro ⟨hFits, hRest⟩
        have hFirst := hStep.mpr hFits
        exact ⟨hFirst,
          (ih (run_coherent hFs call) hFirst).mpr hRest⟩

/-
  A run of writes and deletes on a mounted consistent volume
  keeps it consistent in every state exactly when every call
  fits the state it is made in.
-/
theorem consistent_states_iff
    {image : ByteMem}
    (hVolume : VolumeConsistent image)
    (calls : List FsCall) :
    (∀ fs ∈ (mountImage image).states calls,
        VolumeConsistent fs.dev.image) ↔
      CallsFit (mountImage image) calls :=
  consistent_states_of_coherent_iff
    (mountImage_coherent image)
    (by rwa [mountImage_image]) calls

------------------------------------------------------------
-- The Blank Volume
------------------------------------------------------------

/- The blank volume holds no file and no allocated cluster. -/
theorem volumeConsistent_zeros :
    VolumeConsistent zeros where
  noDirectories := by
    intro i _ hLive
    simp [slotFree, rootOf, view] at hLive
  files := by
    have hFile : ∀ i, fileOf (rootOf zeros) i = none :=
      fun i => fileOf_of_free (by simp [slotFree, rootOf, view])
    have hGet :
        ∀ c, Packed12.get (fatOf zeros) c = 0 :=
      Packed12.get_zeros
    refine ⟨?_, ?_, ?_⟩
    · simp [hFile]
    · simp [hFile]
    · simp [hFile, hGet]

/- A new one-byte file has no chain in the table. -/
theorem not_consistent_states_zeros :
    VolumeConsistent zeros ∧
      ¬ ∀ fs ∈ (mountImage zeros).states
          [.write [0x41] zeros 1],
        VolumeConsistent fs.dev.image := by
  refine ⟨volumeConsistent_zeros, ?_⟩
  rw [consistent_states_of_coherent_iff
    (mountImage_coherent zeros)
    (by rw [mountImage_image]; exact volumeConsistent_zeros)]
  have hAbsent :
      fatFindEntry zeros (fatNormalize [0x41]) = none :=
    fatFindEntry_eq_none_iff.mpr fun i _ =>
      slotMatches_of_free (by simp [slotFree]) _
  have hFree : fatFindFreeEntry zeros = some 0 :=
    fatFindFreeEntry_eq_some_iff.mpr
      ⟨by omega, by simp [slotFree], by omega⟩
  simp only [CallsFit, FsCall.Fits, WriteFits,
    mountImage_zeros_rootCache, hAbsent, hFree, and_true]
  decide

------------------------------------------------------------
-- A Volume With One File
------------------------------------------------------------

/- A table whose only allocated cluster is 2, a last one. -/
def loneTable : ByteMem :=
  Packed12.set zeros 2 0xFFF

/- The file `A` of `size` bytes over that table. -/
def loneVolume
    (size : Nat) : ByteMem :=
  fileVolume (fatNormalize [0x41]) loneTable 2 size

section Lone

variable (size : Nat)

theorem loneVolume_get
    {c : Nat}
    (hLink : linkInCache c) :
    Packed12.get (fatOf (loneVolume size)) c =
      if c = 2 then 0xFFF else 0 := by
  have hCached :
      AgreeOn (fatOf (loneVolume size))
        (mountImage (loneVolume size)).fatCache 0 4608 :=
    fun x _ hx => (mountImage_fatCache _ hx).symm
  rw [Packed12.get_congr hCached (Nat.zero_le _) (by
      unfold linkInCache at hLink
      unfold Packed12.offset
      omega),
    loneVolume, fileVolume_get _ _ _ _ hLink, loneTable]
  split
  · rename_i hTwo
    rw [hTwo, Packed12.get_set]
  · rename_i hTwo
    rw [Packed12.get_set_of_ne _ _ hTwo, Packed12.get_zeros]

theorem loneVolume_coherent :
    AgreeOn (rootOf (loneVolume size))
      (mountImage (loneVolume size)).rootCache 0 7168 := by
  have hRoot := (mountImage_coherent (loneVolume size)).root
  rwa [mountImage_image] at hRoot

theorem loneVolume_live :
    slotFree (mountImage (loneVolume size)).rootCache 0 =
        false ∧
      slotDirectory (mountImage (loneVolume size)).rootCache
          0 = false :=
  live_of_matches
    (fileVolume_matches _ _ _ _ (by decide) (by decide))

/- The file is in slot 0 and starts at cluster 2. -/
theorem fileOf_loneVolume
    (hSize : 0 < size ∧ size ≤ 512)
    (i : Nat) :
    fileOf (rootOf (loneVolume size)) i =
      if i = 0 then some (2, 1) else none := by
  rw [fileOf_rootOf (loneVolume_coherent size)]
  by_cases hSlot : i = 0
  · have hBytes :
        slotSize (mountImage (loneVolume size)).rootCache 0 =
          size := by
      rw [loneVolume, fileVolume_slotSize]
      omega
    have hOne : sectorCount size = 1 := by
      unfold sectorCount
      omega
    rw [hSlot, fileOf_of_live (by omega)
        (loneVolume_live size).1,
      hBytes, if_neg (by omega), hOne, loneVolume,
      fileVolume_slotCluster]
    rfl
  · rw [if_neg hSlot]
    by_cases hRange : i < 224
    · exact fileOf_of_free
        (fileVolume_free _ _ _ _ (by omega) hRange)
    · simp [fileOf, hRange]

theorem loneVolume_walks :
    Linked.Walks (Packed12.get (fatOf (loneVolume size)))
      chainStop 2 [2] := by
  refine ⟨by decide, rfl, ?_⟩
  rw [loneVolume_get size (by decide)]
  exact Nat.le_of_ble_eq_true rfl

/- The file's sector is the one allocated cluster. -/
theorem volumeConsistent_loneVolume
    (hSize : 0 < size ∧ size ≤ 512) :
    VolumeConsistent (loneVolume size) where
  noDirectories := by
    rw [noDirectories_rootOf (loneVolume_coherent size)]
    intro i hRange hLive
    rcases Nat.eq_zero_or_pos i with rfl | hPos
    · exact (loneVolume_live size).2
    · rw [loneVolume, fileVolume_free _ _ _ _ hPos hRange]
        at hLive
      cases hLive
  files := by
    have hWalk := loneVolume_walks size
    have hFile := fileOf_loneVolume size hSize
    -- Slot 0 holds the only file.
    have hOnly :
        ∀ i s n,
          fileOf (rootOf (loneVolume size)) i =
            some (s, n) →
          i = 0 ∧ s = 2 ∧ n = 1 := by
      intro i s n hSome
      rw [hFile] at hSome
      split at hSome
      · rename_i hSlot
        cases hSome
        exact ⟨hSlot, rfl, rfl⟩
      · cases hSome
    refine ⟨?_, ?_, ?_⟩
    · intro i s n hSome
      rcases hOnly i s n hSome with ⟨-, rfl, rfl⟩
      refine ⟨[2], hWalk, rfl, fun c hMember => ?_⟩
      rw [List.mem_singleton.mp hMember]
      exact ⟨by omega, by omega⟩
    · intro i j s n t m _ _ hNe hSome hSome' _ _
      exact absurd
        ((hOnly i s n hSome).1.trans
          (hOnly j t m hSome').1.symm) hNe
    · intro c hCell
      rw [loneVolume_get size
        (Nat.le_trans hCell.2 (by decide))]
      constructor
      · intro hUsed
        have hTwo : c = 2 := by
          by_contra hOther
          exact hUsed (if_neg hOther)
        exact ⟨0, 2, 1, [2], hFile 0, hWalk, by simp [hTwo]⟩
      · rintro ⟨i, s, n, cs, hSome, hOther, hMember⟩
        rcases hOnly i s n hSome with ⟨-, rfl, -⟩
        rw [hOther.unique hWalk, List.mem_singleton]
          at hMember
        simp [hMember]

end Lone

/- `A` is found in slot 0, one sector from cluster 2. -/
structure LoneEntry
    (root : ByteMem) : Prop where
  found : fatFindEntry root (fatNormalize [0x41]) = some 0
  cluster : slotCluster root 0 = 2
  size : 0 < slotSize root 0 ∧ slotSize root 0 ≤ 512

theorem loneEntry_loneVolume
    (size : Nat)
    (hSize : 0 < size ∧ size ≤ 512) :
    LoneEntry (mountImage (loneVolume size)).rootCache where
  found := fileVolume_find _ _ _ _ (by decide) (by decide)
  cluster := fileVolume_slotCluster _ _ _ _
  size := by
    rw [loneVolume, fileVolume_slotSize]
    omega

/- Rewriting `A` with one sector fits and keeps its entry. -/
theorem rewrite_fits
    {fs : Fs}
    (hMounted : fs.Mounted)
    (hEntry : LoneEntry fs.rootCache)
    (data : ByteMem)
    (size : UInt32)
    (hSize : 0 < size.toNat ∧ size.toNat ≤ 512) :
    (FsCall.write [0x41] data size).Fits fs ∧
      ((FsCall.write [0x41] data size).run fs).Mounted ∧
      LoneEntry
        ((FsCall.write [0x41] data size).run fs).rootCache := by
  have hOld := hEntry.size
  have hSlot :
      writeSlot fs.rootCache (fatNormalize [0x41]) =
        some (0, fs.rootCache) := by
    rw [writeSlot, hEntry.found]
  have hRun :
      (FsCall.write [0x41] data size).run fs =
        written fs (sizeSlot fs.rootCache 0 size.toNat) data
          size.toNat := by
    rw [FsCall.run, platFsWrite_reliable hMounted, hSlot]
  refine ⟨?_, ?_, ?_⟩
  · simp only [FsCall.Fits, WriteFits, hEntry.found]
    refine Or.inr ⟨by omega, by omega, hEntry.cluster, ?_⟩
    unfold sectorCount
    omega
  · rw [hRun]
    exact written_mounted hMounted _ _ _
  · rw [hRun]
    refine ⟨?_, slotCluster_sizeSlot _ _ _, ?_⟩
    · exact (fatFindEntry_sizeSlot _ _ _ _).trans
        hEntry.found
    · have hNew :=
        slotSize_sizeSlot fs.rootCache 0 size.toNat
      rw [written, hNew]
      omega

/-
  An absent file is deleted, then the file is rewritten with
  512 bytes and with 7.
-/
def rewriteCalls : List FsCall :=
  [.delete [0x42], .write [0x41] zeros 512,
    .write [0x41] zeros 7]

theorem rewriteCalls_fit :
    CallsFit (mountImage (loneVolume 1)) rewriteCalls := by
  have hMounted := mountImage_mounted (loneVolume 1)
  have hAbsent :
      readSlot (mountImage (loneVolume 1)) [0x42] = none :=
    fileVolume_absent _ _ _ _ (by decide) (by decide)
  have hDelete :
      (FsCall.delete [0x42]).run (mountImage (loneVolume 1)) =
        mountImage (loneVolume 1) := by
    rw [FsCall.run, platFsDelete_reliable hMounted, hAbsent]
  have hEntry := loneEntry_loneVolume 1 (by omega)
  rcases rewrite_fits hMounted hEntry zeros 512 (by decide)
    with ⟨hFirst, hMounted', hEntry'⟩
  have hSecond :=
    (rewrite_fits hMounted' hEntry' zeros 7 (by decide)).1
  refine ⟨?_, ?_⟩
  · intro slot hFind
    rw [show fatFindEntry _ _ = none from hAbsent] at hFind
    cases hFind
  · rw [hDelete]
    exact ⟨hFirst, hSecond, trivial⟩

theorem consistent_states_rewrites :
    VolumeConsistent (loneVolume 1) ∧
      ∀ fs ∈ (mountImage (loneVolume 1)).states rewriteCalls,
        VolumeConsistent fs.dev.image := by
  have hVolume := volumeConsistent_loneVolume 1 (by omega)
  exact ⟨hVolume,
    (consistent_states_iff hVolume rewriteCalls).mpr
      rewriteCalls_fit⟩

end Storage

end AsmOS
