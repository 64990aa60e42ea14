import AsmOS.Storage.ChainRead
import AsmOS.Storage.HalSpec
import AsmOS.Storage.Listing

/-
  What a failed write or delete leaves behind.

  Both calls edit the cached directory before they write any
  sector, and keep the edit when a sector fails.

  Main declarations:
    * `Fs.repaired`, `SameResults`
    * `WriteFailsSafe`, `DeleteFailsSafe`
    * `platFsWrite_ready`, `platFsDelete_ready`
    * `sameResults_caches_iff`
    * `WriteHarmless`, `DeleteHarmless`
    * `failsSafe_iff`
-/

------------------------------------------------------------
-- Statements
------------------------------------------------------------

namespace AsmOS

namespace Storage

open ByteMem

/- The state with sector operations that work again. -/
def Fs.repaired
    (fs : Fs) : Fs :=
  { fs with
    dev :=
      { fs.dev with
        readFails := fun _ => false
        writeEnds := fun _ => .done } }

/- Listing and reading give the same results, once I/O works. -/
structure SameResults
    (fs fs' : Fs) : Prop where
  list :
    ∀ max : UInt32,
      (platFsList fs'.repaired max.toNat).1 =
        (platFsList fs.repaired max.toNat).1
  read :
    ∀ (name : List UInt8) (buf : ByteMem) (bufSize : UInt32),
      (platFsRead fs'.repaired name buf bufSize.toNat).map
          Prod.fst =
        (platFsRead fs.repaired name buf bufSize.toNat).map
          Prod.fst

/- A write that returns -1 changes no result. -/
def WriteFailsSafe
    (fs : Fs)
    (name : List UInt8)
    (data : ByteMem)
    (size : UInt32) : Prop :=
  (platFsWrite fs name data size.toNat).1 = -1 →
    SameResults fs (platFsWrite fs name data size.toNat).2

/- A delete that returns -1 changes no result. -/
def DeleteFailsSafe
    (fs : Fs)
    (name : List UInt8) : Prop :=
  (platFsDelete fs name).1 = -1 →
    SameResults fs (platFsDelete fs name).2

/-
  What a cluster holds when the first `n` sectors of a write
  reach the disk: the data lies from cluster 2 on, and the
  root sectors after it; clusters 0 and 1 alias the last two
  root sectors.
-/
def partByte
    (image root data : ByteMem)
    (size n cluster j : Nat) : UInt8 :=
  if cluster < 2 then
    if writtenSectors size + 12 + cluster < n then
      root (512 * (12 + cluster) + j)
    else imageByte image cluster j
  else if cluster < min n (writtenSectors size) + 2 then
    padded data 0 size (512 * (cluster - 2) + j)
  else imageByte image cluster j

/-
  Every byte that a read copies from a sector which reaches
  the disk already has the value that is stored there.
-/
def KeepsReads
    (fs : Fs)
    (data : ByteMem)
    (size n : Nat) : Prop :=
  ∀ (name : List UInt8) (slot : Nat) (bufSize : UInt32),
    readSlot fs name = some slot →
      ReadDefined fs slot bufSize.toNat →
        ∀ k c : Nat,
          (readClusters fs slot bufSize.toNat)[k]? = some c →
            ∀ j < 512,
              512 * k + j < readLimit fs slot bufSize.toNat →
                partByte fs.dev.image fs.rootCache data size
                    n c j =
                  imageByte fs.dev.image c j

/-
  All sector writes of the call are done, or the name gets no
  slot, or its entry already has the size and start cluster
  of the write, and the sectors that reach the disk keep all
  reads.
-/
def WriteHarmless
    (fs : Fs)
    (name : List UInt8)
    (data : ByteMem)
    (size : Nat) : Prop :=
  AllDone fs.dev.writeEnds fs.dev.log.length
      (writtenSectors size + 14) ∨
    writeSlot fs.rootCache (fatNormalize name) = none ∨
    ∃ slot, readSlot fs name = some slot ∧
      slotSize fs.rootCache slot = size ∧
      slotCluster fs.rootCache slot = 2 ∧
      KeepsReads fs data size
        (reached fs.dev.writeEnds fs.dev.log.length
          (writtenSectors size + 14))

/- All root sectors are written, or the name is not found. -/
def DeleteHarmless
    (fs : Fs)
    (name : List UInt8) : Prop :=
  AllDone fs.dev.writeEnds fs.dev.log.length 14 ∨
    readSlot fs name = none

------------------------------------------------------------
-- The Sectors Of A Call
------------------------------------------------------------

/- The sectors that a write lays out, in their order. -/
def writeSequence
    (root data : ByteMem)
    (size : Nat) : List (Nat × ByteMem) :=
  sectorsFrom 65 (padded data 0 size) (writtenSectors size) ++
    sectorsFrom 51 root 14

/- The state after a sequence of writes with a new directory. -/
def Fs.wrote
    (fs : Fs)
    (root : ByteMem)
    (ws : List (Nat × ByteMem)) : Fs :=
  { fs with
    rootCache := root
    dev := (writeAll fs.dev ws).2 }

/- The return code of a call that ends with a flush. -/
def flushCode
    (ok : Bool) : Int :=
  if ok then 0 else -1

section Calls

variable {fs : Fs} {name : List UInt8}
variable {slot : Nat} {root : ByteMem}

theorem flushCode_eq_iff
    (ok : Bool) :
    flushCode ok = -1 ↔ ok = false := by
  cases ok <;> decide

theorem ensureReady_ready
    (hReady : fs.fsReady = true) :
    ensureReady fs = (true, fs) := by
  unfold ensureReady
  rw [if_pos hReady]

/- A flush writes the root sectors from the cache. -/
theorem fatFlushRoot_eq
    (fs : Fs) :
    fatFlushRoot fs =
      (flushCode
          (writeAll fs.dev
            (sectorsFrom 51 fs.rootCache 14)).1,
        fs.wrote fs.rootCache
          (sectorsFrom 51 fs.rootCache 14)) := by
  unfold fatFlushRoot
  rw [writeSectors_eq]
  rfl

/- A write with a slot is one sequence of sector writes. -/
theorem platFsWrite_ready
    (hReady : fs.fsReady = true)
    (hWrite :
      writeSlot fs.rootCache (fatNormalize name) =
        some (slot, root))
    (data : ByteMem)
    (size : Nat) :
    platFsWrite fs name data size =
      (flushCode
          (writeAll fs.dev
            (writeSequence (sizeSlot root slot size) data
              size)).1,
        fs.wrote (sizeSlot root slot size)
          (writeSequence (sizeSlot root slot size) data
            size)) := by
  unfold platFsWrite
  rw [ensureReady_ready hReady]
  dsimp only
  rw [hWrite]
  dsimp only
  rw [fatWriteLoop_eq fs.dev data 0 2 size (Nat.le_refl 2)
    (by omega)]
  unfold writeSequence
  rcases hData :
    writeAll fs.dev
      (sectorsFrom 65 (padded data 0 size)
        (writtenSectors size)) with ⟨ok, dev⟩
  have hLoop :
      writeAll fs.dev
          (sectorsFrom (63 + 2) (padded data 0 size)
            (min (sectorCount size) (4088 - 2))) =
        (ok, dev) :=
    hData
  rw [hLoop]
  cases ok with
  | false =>
      dsimp only
      unfold Fs.wrote
      rw [writeAll_append_failed (by rw [hData]), hData]
      rfl
  | true =>
      dsimp only
      rw [fatFlushRoot_eq]
      unfold Fs.wrote
      rw [writeAll_append_ok (by rw [hData]), hData]

theorem platFsWrite_ready_none
    (hReady : fs.fsReady = true)
    (hWrite :
      writeSlot fs.rootCache (fatNormalize name) = none)
    (data : ByteMem)
    (size : Nat) :
    platFsWrite fs name data size = (-1, fs) := by
  unfold platFsWrite
  rw [ensureReady_ready hReady]
  dsimp only
  rw [hWrite]

/- A delete of a found name is one flush. -/
theorem platFsDelete_ready
    (hReady : fs.fsReady = true)
    (hFind : readSlot fs name = some slot) :
    platFsDelete fs name =
      (flushCode
          (writeAll fs.dev
            (sectorsFrom 51
              (fs.rootCache.storeByte (32 * slot) 0xE5)
              14)).1,
        fs.wrote (fs.rootCache.storeByte (32 * slot) 0xE5)
          (sectorsFrom 51
            (fs.rootCache.storeByte (32 * slot) 0xE5)
            14)) := by
  unfold readSlot at hFind
  unfold platFsDelete
  rw [ensureReady_ready hReady]
  dsimp only
  rw [hFind]
  dsimp only
  rw [fatFlushRoot_eq]
  rfl

theorem platFsDelete_ready_none
    (hReady : fs.fsReady = true)
    (hFind : readSlot fs name = none) :
    platFsDelete fs name = (-1, fs) := by
  unfold readSlot at hFind
  unfold platFsDelete
  rw [ensureReady_ready hReady]
  dsimp only
  rw [hFind]

end Calls

------------------------------------------------------------
-- The Disk After A Failure
------------------------------------------------------------

@[simp] theorem writeSequence_length
    (root data : ByteMem)
    (size : Nat) :
    (writeSequence root data size).length =
      writtenSectors size + 14 := by
  simp [writeSequence]

/- The first sectors of a write, as two blocks. -/
theorem storeAll_writeSequence
    (image root data : ByteMem)
    (size n : Nat) :
    storeAll image ((writeSequence root data size).take n) =
      (image.storeBlock (512 * 65)
          (512 * min n (writtenSectors size))
          (padded data 0 size)).storeBlock (512 * 51)
        (512 * min (n - writtenSectors size) 14) root := by
  unfold writeSequence
  rw [List.take_append, sectorsFrom_take, sectorsFrom_take,
    sectorsFrom_length, storeAll_append, storeAll_sectorsFrom,
    storeAll_sectorsFrom]

theorem imageByte_writeSequence
    (image root data : ByteMem)
    (size n cluster j : Nat)
    (hj : j < 512) :
    imageByte
        (storeAll image ((writeSequence root data size).take n))
        cluster j =
      partByte image root data size n cluster j := by
  rw [storeAll_writeSequence]
  unfold imageByte partByte
  by_cases hRoot : cluster < 2
  · have hRest :
        512 * (63 + cluster) + j - 512 * 51 =
          512 * (12 + cluster) + j := by
      omega
    rw [if_pos hRoot]
    by_cases hFlushed : writtenSectors size + 12 + cluster < n
    · rw [if_pos hFlushed,
        storeBlock_inside (by omega) (by omega), hRest]
    · rw [if_neg hFlushed, storeBlock_outside (by omega),
        storeBlock_outside (by omega)]
      rfl
  · rw [if_neg hRoot, storeBlock_outside (by omega)]
    by_cases hData : cluster < min n (writtenSectors size) + 2
    · have hRest :
          512 * (63 + cluster) + j - 512 * 65 =
            512 * (cluster - 2) + j := by
        omega
      rw [if_pos hData,
        storeBlock_inside (by omega) (by omega), hRest]
    · rw [if_neg hData, storeBlock_outside (by omega)]
      rfl

------------------------------------------------------------
-- Results From The Same Caches
------------------------------------------------------------

section Caches

variable {fs fs' : Fs}

theorem repaired_mounted
    (hReady : fs.fsReady = true) :
    fs.repaired.Mounted :=
  ⟨hReady, fun _ => rfl, fun _ => rfl⟩

theorem sameResults_refl
    (fs : Fs) :
    SameResults fs fs :=
  ⟨fun _ => rfl, fun _ _ _ => rfl⟩

/- The results of a list show all files. -/
theorem SameResults.listedFiles_eq
    (hReady : fs.fsReady = true)
    (hReady' : fs'.fsReady = true)
    (hSame : SameResults fs fs') :
    listedFiles fs'.rootCache = listedFiles fs.rootCache := by
  have hList := hSame.list 224
  have hMax : (224 : UInt32).toNat = 224 := rfl
  rw [platFsList_ready (repaired_mounted hReady).ready,
    platFsList_ready (repaired_mounted hReady').ready, hMax]
    at hList
  have hFiles := (Prod.mk.inj hList).2
  have hAll :
      ∀ root, (listedFiles root).take 224 =
        listedFiles root :=
    fun root =>
      List.take_of_length_le (listedFiles_length_le root)
  rw [hAll, hAll] at hFiles
  exact hFiles

theorem SameResults.listedFiles_wrote
    (hReady : fs.fsReady = true)
    {root : ByteMem}
    {ws : List (Nat × ByteMem)}
    (hSame : SameResults fs (fs.wrote root ws)) :
    listedFiles root = listedFiles fs.rootCache := by
  have hReady' : (fs.wrote root ws).fsReady = true := hReady
  exact hSame.listedFiles_eq hReady hReady'

/- One read from equal caches and two images. -/
theorem read_caches_iff
    (hReady : fs.fsReady = true)
    (hReady' : fs'.fsReady = true)
    (hRoot : fs'.rootCache = fs.rootCache)
    (hFat : fs'.fatCache = fs.fatCache)
    (name : List UInt8)
    (buf : ByteMem)
    (bufSize : Nat) :
    (platFsRead fs'.repaired name buf bufSize).map Prod.fst =
        (platFsRead fs.repaired name buf bufSize).map
          Prod.fst ↔
      ∀ slot, readSlot fs name = some slot →
        ReadDefined fs slot bufSize →
          ∀ k c : Nat,
            (readClusters fs slot bufSize)[k]? = some c →
              ∀ j < 512,
                512 * k + j < readLimit fs slot bufSize →
                  imageByte fs'.dev.image c j =
                    imageByte fs.dev.image c j := by
  have hRoot' :
      fs'.repaired.rootCache = fs.repaired.rootCache :=
    hRoot
  have hFat' : fs'.repaired.fatCache = fs.repaired.fatCache :=
    hFat
  have hSlot : readSlot fs.repaired name = readSlot fs name :=
    rfl
  have hBytes :
      ∀ slot,
        readOutcome fs'.repaired slot buf bufSize =
            readOutcome fs.repaired slot buf bufSize ↔
          ∀ k c : Nat,
            (readClusters fs slot bufSize)[k]? = some c →
              ∀ j < 512,
                512 * k + j < readLimit fs slot bufSize →
                  imageByte fs'.dev.image c j =
                    imageByte fs.dev.image c j :=
    fun _ => readOutcome_eq_iff hRoot' hFat' buf
  rw [platFsRead_reliable (repaired_mounted hReady),
    platFsRead_reliable (repaired_mounted hReady'),
    readSlot_congr hRoot', hSlot]
  cases readSlot fs name with
  | none => simp
  | some slot =>
      have hDefined :
          ReadDefined fs.repaired slot bufSize ↔
            ReadDefined fs slot bufSize :=
        Iff.rfl
      have hDefined' :=
        (readDefined_congr hRoot' hFat').trans hDefined
      dsimp only
      by_cases hRead : ReadDefined fs slot bufSize
      · rw [if_pos (hDefined'.mpr hRead),
          if_pos (hDefined.mpr hRead), Option.map_some,
          Option.map_some, Option.some.injEq, hBytes]
        constructor
        · intro hSame slot' hEq _
          cases hEq
          exact hSame
        · intro hSame
          exact hSame slot rfl hRead
      · rw [if_neg fun hNew => hRead (hDefined'.mp hNew),
          if_neg fun hOld => hRead (hDefined.mp hOld)]
        simp only [Option.map_none, true_iff]
        intro slot' hEq hContra
        cases hEq
        exact absurd hContra hRead

/-
  From equal caches the results are the same exactly when the
  bytes that the reads copy are.
-/
theorem sameResults_caches_iff
    (hReady : fs.fsReady = true)
    (hReady' : fs'.fsReady = true)
    (hRoot : fs'.rootCache = fs.rootCache)
    (hFat : fs'.fatCache = fs.fatCache) :
    SameResults fs fs' ↔
      ∀ (name : List UInt8) (slot : Nat) (bufSize : UInt32),
        readSlot fs name = some slot →
          ReadDefined fs slot bufSize.toNat →
            ∀ k c : Nat,
              (readClusters fs slot bufSize.toNat)[k]? =
                  some c →
                ∀ j < 512,
                  512 * k + j <
                      readLimit fs slot bufSize.toNat →
                    imageByte fs'.dev.image c j =
                      imageByte fs.dev.image c j := by
  constructor
  · intro hSame name slot bufSize
    exact (read_caches_iff hReady hReady' hRoot hFat name
      zeros bufSize.toNat).mp
      (hSame.read name zeros bufSize) slot
  · intro hBytes
    refine ⟨fun max => ?_, fun name buf bufSize => ?_⟩
    · rw [platFsList_ready (repaired_mounted hReady).ready,
        platFsList_ready (repaired_mounted hReady').ready]
      have hSameRoot :
          fs'.repaired.rootCache = fs.repaired.rootCache :=
        hRoot
      rw [hSameRoot]
    · exact (read_caches_iff hReady hReady' hRoot hFat name
        buf bufSize.toNat).mpr fun slot =>
          hBytes name slot bufSize

end Caches

------------------------------------------------------------
-- Changed Entries
------------------------------------------------------------

section Entries

variable {root : ByteMem} {name : List UInt8}
variable {slot size : Nat}

/- Storing the size and the cluster that are there. -/
theorem sizeSlot_same
    (hSize : slotSize root slot = size)
    (hCluster : slotCluster root slot = 2) :
    sizeSlot root slot size = root := by
  unfold sizeSlot
  unfold slotSize at hSize
  unfold slotCluster at hCluster
  rw [← hSize, store32_load32, ← hCluster, store16_load16]

/- The listed file of a found name shows its new entry. -/
theorem slotFiles_found_iff
    (hFind : fatFindEntry root (fatNormalize name) = some slot)
    (hSize : size < 2 ^ 32) :
    slotFiles (sizeSlot root slot size) slot =
        slotFiles root slot ↔
      slotSize root slot = size ∧
        slotCluster root slot = 2 := by
  constructor
  · intro hSame
    have hLive :=
      live_of_matches (fatFindEntry_eq_some_iff.mp hFind).2.1
    have hLive' :
        slotFree (sizeSlot root slot size) slot = false ∧
          slotDirectory (sizeSlot root slot size) slot =
            false := by
      rw [slotFree_sizeSlot, slotDirectory_sizeSlot]
      exact hLive
    rw [slotFiles_of_live hLive, slotFiles_of_live hLive',
      List.cons.injEq] at hSame
    have hInfo := hSame.1
    simp only [fileInfo, slotSize_sizeSlot,
      slotCluster_sizeSlot, FileInfo.mk.injEq,
      Nat.mod_eq_of_lt hSize] at hInfo
    exact ⟨hInfo.2.1.symm, hInfo.2.2.symm⟩
  · rintro ⟨hOldSize, hOldCluster⟩
    rw [sizeSlot_same hOldSize hOldCluster]

/- A new name is listed. -/
theorem listedFiles_new_ne
    {root' : ByteMem}
    (hWrite :
      writeSlot root (fatNormalize name) = some (slot, root'))
    (hAbsent : fatFindEntry root (fatNormalize name) = none) :
    listedFiles (sizeSlot root' slot size) ≠
      listedFiles root := by
  have hFree : slotFree root slot = true := by
    rcases writeSlot_cases hWrite with
      ⟨hFind, _⟩ | ⟨_, _, hFree, _⟩
    · rw [hAbsent] at hFind
      cases hFind
    · exact hFree
  have hFind :
      fatFindEntry (sizeSlot root' slot size)
          (fatNormalize name) =
        some slot :=
    findEntry_written name hWrite
  have hLive :=
    live_of_matches (fatFindEntry_eq_some_iff.mp hFind).2.1
  intro hSame
  rw [listedFiles_eq_iff (writeSlot_lt hWrite)
      (fun i hi => slotAgree_written hi hWrite),
    slotFiles_of_live hLive, slotFiles_of_free hFree] at hSame
  cases hSame

/- A deleted name is not listed. -/
theorem listedFiles_deleted_ne
    (hFind :
      fatFindEntry root (fatNormalize name) = some slot) :
    listedFiles (root.storeByte (32 * slot) 0xE5) ≠
      listedFiles root := by
  rcases fatFindEntry_eq_some_iff.mp hFind with
    ⟨hSlot, hMatch, _⟩
  intro hSame
  rw [listedFiles_eq_iff hSlot
      (fun i hi => slotAgree_deleted root slot hi),
    slotFiles_of_free (slotFree_deleted root slot),
    slotFiles_of_live (live_of_matches hMatch)] at hSame
  cases hSame

end Entries

------------------------------------------------------------
-- The Exact Conditions
------------------------------------------------------------

section Exact

variable {fs : Fs} {name : List UInt8}

/- A failed rewrite of an entry as it is. -/
theorem sameResults_rewrite_iff
    (hReady : fs.fsReady = true)
    (data : ByteMem)
    (size : Nat) :
    SameResults fs
        (fs.wrote fs.rootCache
          (writeSequence fs.rootCache data size)) ↔
      KeepsReads fs data size
        (reached fs.dev.writeEnds fs.dev.log.length
          (writtenSectors size + 14)) := by
  have hImage :
      ∀ c, ∀ j < 512,
        imageByte
            (fs.wrote fs.rootCache
              (writeSequence fs.rootCache data
                size)).dev.image c j =
          partByte fs.dev.image fs.rootCache data size
            (reached fs.dev.writeEnds fs.dev.log.length
              (writtenSectors size + 14)) c j := by
    intro c j hj
    unfold Fs.wrote
    dsimp only
    rw [writeAll_image, writeSequence_length,
      imageByte_writeSequence _ _ _ _ _ _ _ hj]
  have hReady' :
      (fs.wrote fs.rootCache
        (writeSequence fs.rootCache data size)).fsReady =
          true :=
    hReady
  rw [sameResults_caches_iff hReady hReady' rfl rfl]
  unfold KeepsReads
  constructor
  · intro hBytes name slot bufSize hSlot hRead k c hGet j hj
      hIn
    rw [← hImage c j hj]
    exact hBytes name slot bufSize hSlot hRead k c hGet j hj
      hIn
  · intro hBytes name slot bufSize hSlot hRead k c hGet j hj
      hIn
    rw [hImage c j hj]
    exact hBytes name slot bufSize hSlot hRead k c hGet j hj
      hIn

/- A write that fails after it has taken a slot. -/
theorem sameResults_wrote_iff
    (hReady : fs.fsReady = true)
    {slot : Nat}
    {root : ByteMem}
    (hWrite :
      writeSlot fs.rootCache (fatNormalize name) =
        some (slot, root))
    (data : ByteMem)
    {size : Nat}
    (hSize : size < 2 ^ 32) :
    SameResults fs
        (fs.wrote (sizeSlot root slot size)
          (writeSequence (sizeSlot root slot size) data
            size)) ↔
      ∃ slot, readSlot fs name = some slot ∧
        slotSize fs.rootCache slot = size ∧
        slotCluster fs.rootCache slot = 2 ∧
        KeepsReads fs data size
          (reached fs.dev.writeEnds fs.dev.log.length
            (writtenSectors size + 14)) := by
  rcases writeSlot_cases hWrite with
    ⟨hFind, rfl⟩ | ⟨hAbsent, _, _, _⟩
  · by_cases hEntry :
        slotSize fs.rootCache slot = size ∧
          slotCluster fs.rootCache slot = 2
    · rw [sizeSlot_same hEntry.1 hEntry.2,
        sameResults_rewrite_iff hReady]
      constructor
      · intro hKeeps
        exact ⟨slot, hFind, hEntry.1, hEntry.2, hKeeps⟩
      · rintro ⟨_, _, _, _, hKeeps⟩
        exact hKeeps
    · constructor
      · intro hSame
        have hList := hSame.listedFiles_wrote hReady
        exact absurd
          ((slotFiles_found_iff hFind hSize).mp
            ((listedFiles_eq_iff (writeSlot_lt hWrite)
              fun i hi => slotAgree_written hi hWrite).mp
              hList)) hEntry
      · rintro ⟨slot', hFind', hOldSize, hOldCluster, _⟩
        have hSlot : slot' = slot :=
          Option.some.inj (hFind'.symm.trans hFind)
        rw [hSlot] at hOldSize hOldCluster
        exact absurd ⟨hOldSize, hOldCluster⟩ hEntry
  · constructor
    · intro hSame
      have hList := hSame.listedFiles_wrote hReady
      exact absurd hList (listedFiles_new_ne hWrite hAbsent)
    · rintro ⟨_, hFind, _⟩
      have hContra := hFind.symm.trans hAbsent
      cases hContra

theorem writeFailsSafe_iff
    (hReady : fs.fsReady = true)
    (name : List UInt8)
    (data : ByteMem)
    (size : UInt32) :
    WriteFailsSafe fs name data size ↔
      WriteHarmless fs name data size.toNat := by
  unfold WriteFailsSafe WriteHarmless
  cases hWrite :
      writeSlot fs.rootCache (fatNormalize name) with
  | none =>
      rw [platFsWrite_ready_none hReady hWrite]
      exact iff_of_true (fun _ => sameResults_refl fs)
        (Or.inr (Or.inl rfl))
  | some target =>
      rcases target with ⟨slot, root⟩
      rw [platFsWrite_ready hReady hWrite, flushCode_eq_iff,
        sameResults_wrote_iff hReady hWrite data
          size.toNat_lt,
        ← writeSequence_length
          (sizeSlot root slot size.toNat) data size.toNat,
        ← writeAll_ok_iff]
      cases (writeAll fs.dev
        (writeSequence (sizeSlot root slot size.toNat) data
          size.toNat)).1 with
      | false => simp
      | true => simp

theorem deleteFailsSafe_iff
    (hReady : fs.fsReady = true)
    (name : List UInt8) :
    DeleteFailsSafe fs name ↔ DeleteHarmless fs name := by
  unfold DeleteFailsSafe DeleteHarmless
  cases hFind : readSlot fs name with
  | none =>
      rw [platFsDelete_ready_none hReady hFind]
      exact iff_of_true (fun _ => sameResults_refl fs)
        (Or.inr rfl)
  | some slot =>
      have hLost :
          ¬ SameResults fs
            (fs.wrote
              (fs.rootCache.storeByte (32 * slot) 0xE5)
              (sectorsFrom 51
                (fs.rootCache.storeByte (32 * slot) 0xE5)
                14)) := by
        intro hSame
        have hList := hSame.listedFiles_wrote hReady
        exact listedFiles_deleted_ne hFind hList
      have hOk :
          (writeAll fs.dev
              (sectorsFrom 51
                (fs.rootCache.storeByte (32 * slot) 0xE5)
                14)).1 =
              true ↔
            AllDone fs.dev.writeEnds fs.dev.log.length 14 := by
        rw [writeAll_ok_iff, sectorsFrom_length]
      rw [platFsDelete_ready hReady hFind, flushCode_eq_iff,
        ← hOk]
      cases (writeAll fs.dev
        (sectorsFrom 51
          (fs.rootCache.storeByte (32 * slot) 0xE5) 14)).1 with
      | false => simp [hLost]
      | true => simp

end Exact

/-
  A failed write keeps all results exactly when the name gets
  no slot or its entry is rewritten as it is, over bytes that
  no read sees change; a failed delete does exactly when the
  name is not found.
-/
theorem failsSafe_iff
    {fs : Fs}
    (hReady : fs.fsReady = true) :
    (∀ (name : List UInt8) (data : ByteMem) (size : UInt32),
      WriteFailsSafe fs name data size ↔
        WriteHarmless fs name data size.toNat) ∧
    ∀ name : List UInt8,
      DeleteFailsSafe fs name ↔ DeleteHarmless fs name :=
  ⟨writeFailsSafe_iff hReady, deleteFailsSafe_iff hReady⟩

/- A state whose writes are refused from here on. -/
def Fs.refusing
    (fs : Fs) : Fs :=
  { fs with
    dev := { fs.dev with writeEnds := fun _ => .refused } }

theorem reached_refused
    (k n : Nat) :
    reached (fun _ => .refused) k n = 0 := by
  cases n with
  | zero => rfl
  | succ n => rfl

/- Sectors that never reach the disk keep all reads. -/
theorem keepsReads_zero
    (fs : Fs)
    (data : ByteMem)
    (size : Nat) :
    KeepsReads fs data size 0 := by
  intro _ _ _ _ _ _ c _ j _ _
  unfold partByte
  rw [Nat.zero_min, Nat.zero_add, if_neg (Nat.not_lt_zero _)]
  split <;> rfl

/- A one-byte file in the cluster that writes start at. -/
def oneByteVolume : ByteMem :=
  fileVolume (fatNormalize [0x41]) zeros 2 1

/-
  Refused writes: rewriting the file changes nothing, and
  deleting it takes it off the list.
-/
theorem failsSafe_refusing :
    WriteFailsSafe (mountImage oneByteVolume).refusing [0x41]
        zeros 1 ∧
      ¬ DeleteFailsSafe (mountImage oneByteVolume).refusing
        [0x41] := by
  have hReady :
      (mountImage oneByteVolume).refusing.fsReady = true :=
    (mountImage_mounted oneByteVolume).ready
  have hFind :
      readSlot (mountImage oneByteVolume).refusing [0x41] =
        some 0 :=
    fileVolume_find (fatNormalize [0x41]) zeros 2 1
      (by decide) (by decide)
  have hSize :
      slotSize (mountImage oneByteVolume).refusing.rootCache 0 =
        1 :=
    fileVolume_slotSize (fatNormalize [0x41]) zeros 2 1
  have hCluster :
      slotCluster (mountImage oneByteVolume).refusing.rootCache
          0 = 2 :=
    fileVolume_slotCluster (fatNormalize [0x41]) zeros 2 1
  refine ⟨?_, ?_⟩
  · rw [(failsSafe_iff hReady).1,
      show (1 : UInt32).toNat = 1 from rfl]
    refine Or.inr (Or.inr ⟨0, hFind, hSize, hCluster, ?_⟩)
    have hNone :
        reached (mountImage oneByteVolume).refusing.dev.writeEnds
            (mountImage oneByteVolume).refusing.dev.log.length
            (writtenSectors 1 + 14) =
          0 :=
      reached_refused _ _
    rw [hNone]
    exact keepsReads_zero _ _ _
  · rw [(failsSafe_iff hReady).2]
    rintro (hDone | hAbsent)
    · have hFirst := hDone 0 (by omega)
      cases hFirst
    · rw [hFind] at hAbsent
      cases hAbsent

/- The blank disk once its writes are refused. -/
def refusingDisk : Fs :=
  (mountImage zeros).refusing

/- A new file is listed after its write has failed. -/
theorem not_writeFailsSafe_refusing :
    refusingDisk.fsReady = true ∧
      (platFsWrite refusingDisk [0x41] zeros 1).1 = -1 ∧
      ¬ SameResults refusingDisk
        (platFsWrite refusingDisk [0x41] zeros 1).2 := by
  have hReady : refusingDisk.fsReady = true :=
    (mountImage_mounted zeros).ready
  have hRoot : refusingDisk.rootCache = zeros :=
    mountImage_zeros_rootCache
  have hWrite :
      writeSlot refusingDisk.rootCache (fatNormalize [0x41]) =
        some (0, nameSlot zeros 0 (fatNormalize [0x41])) := by
    rw [hRoot]
    exact writeSlot_zeros _
  have hAbsent :
      fatFindEntry refusingDisk.rootCache
          (fatNormalize [0x41]) =
        none := by
    rw [hRoot]
    exact fatFindEntry_eq_none_iff.mpr fun i _ =>
      slotMatches_of_free (by simp [slotFree]) _
  rw [platFsWrite_ready hReady hWrite, flushCode_eq_iff,
    Bool.eq_false_iff]
  refine ⟨hReady, ?_, ?_⟩
  · rw [ne_eq, writeAll_ok_iff]
    intro hDone
    have hFirst := hDone 0 (by simp)
    cases hFirst
  · intro hSame
    exact listedFiles_new_ne hWrite hAbsent
      (hSame.listedFiles_wrote hReady)

end Storage

end AsmOS
