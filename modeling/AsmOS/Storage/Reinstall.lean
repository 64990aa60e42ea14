import AsmOS.Boot.KernelSearch
import AsmOS.Storage.FatPutAlloc
import AsmOS.Storage.FatPutRead
import AsmOS.Storage.Fsck

/-
  Which file a name shows after files were installed over
  others.

  `put_file` gives each file a new entry in the first free
  slot, without a search for its name, and every reader takes
  the first entry of a name.  Installing keeps the entries
  and chains of all files already there.

  Main declarations:
    * `fileData`, `Reader`
    * `TakesEffect`, `shownData`
    * `Keeps`, `Shows`, `PutsRun.shows`
    * `find_shown`
    * `takesEffect_iff`
-/

------------------------------------------------------------
-- Files Of An Image
------------------------------------------------------------

namespace AsmOS

namespace FatPut

open ByteMem Bytearray Storage

/- The clusters that hold the file of slot `i`. -/
def fileClusters
    (image : ByteMem)
    (i : Nat) : List Nat :=
  visited (fatOf image)
    (sectorCount (slotSize (rootOf image) i))
    (slotCluster (rootOf image) i)

/- The file of slot `i`, read along its chain. -/
def fileData
    (image : ByteMem)
    (i : Nat) : List UInt8 :=
  (chainBytes image (fileClusters image i)).take
    (slotSize (rootOf image) i)

/-
  The searches for a name: `fat_find_entry` of the HAL skips
  directories, the boot loader and the test script compare
  the eleven bytes of every slot.
-/
inductive Reader where
| hal
| scan

def Reader.named :
    Reader → ByteMem → List UInt8 → Nat → Bool
| .hal, root, name, i => slotMatches root name i
| .scan, root, name, i => slotName root i = name

/- The first slot in which a reader finds the name. -/
def Reader.find
    (reader : Reader)
    (root : ByteMem)
    (name : List UInt8) : Option Nat :=
  (List.range 224).find? (reader.named root name)

/- Live entries have chains of allocated clusters. -/
def ChainsAllocated
    (image : ByteMem) : Prop :=
  ∀ i < 224, slotFree (rootOf image) i = false →
    ∀ c ∈ fileClusters image i,
      2 ≤ c ∧ c ≤ 3071 ∧ Packed12.get (fatOf image) c ≠ 0

/- There are clusters and slots for the files. -/
structure FilesFit
    (img : List UInt8)
    (files : List SourceFile) : Prop where
  clusters :
    clustersNeeded files ≤
      (freeClusters (loadFat img) 2).length
  inside :
    InsideImage img
      ((freeClusters (loadFat img) 2).take
        (clustersNeeded files))
  slots : files.length ≤ (openSlots (loadRoot img)).length

/- The last of the files with this name. -/
def lastPut
    (files : List SourceFile)
    (name : List UInt8) : Option SourceFile :=
  files.reverse.find? fun file => file.field = name

/-
  After the files are put, a lookup of each name finds the
  data of the last file of that name.
-/
def TakesEffect
    (img : List UInt8)
    (reader : Reader)
    (files : List SourceFile) : Prop :=
  ∃ s,
    putFiles (startInstaller img)
        (files.map SourceFile.args) = .ok s ∧
      ∀ name file, lastPut files name = some file →
        ∃ slot,
          reader.find (rootOf (ofList (savedImage s))) name =
              some slot ∧
            fileData (ofList (savedImage s)) slot = file.data

/-
  The data in front: that of an entry the image already has
  before the slot of the name's first file, or else of this
  first file.
-/
def shownData
    (img : List UInt8)
    (reader : Reader)
    (files : List SourceFile)
    (name : List UInt8) : List UInt8 :=
  let first := files.findIdx fun file => file.field = name
  let put := (files.map SourceFile.data).getD first []
  match reader.find (rootOf (ofList img)) name with
  | some old =>
      if old < (openSlots (loadRoot img)).getD first 224 then
        fileData (ofList img) old
      else put
  | none => put

/- The chains of a consistent volume are allocated. -/
theorem chainsAllocated_of_consistent
    {image : ByteMem}
    (hVolume : VolumeConsistent image) :
    ChainsAllocated image := by
  intro i hi hLive c hMember
  unfold fileClusters visited at hMember
  by_cases hSize : slotSize (rootOf image) i = 0
  · rw [hSize] at hMember
    cases hMember
  · have hFile :
        fileOf (rootOf image) i =
          some (slotCluster (rootOf image) i,
            sectorCount (slotSize (rootOf image) i)) := by
      rw [fileOf_of_live hi hLive, if_neg hSize]
    rcases hVolume.files.chains i _ _ hFile with
      ⟨cs, hWalk, _, hCells⟩
    rw [hWalk.path_eq_take] at hMember
    have hOwn := List.mem_of_mem_take hMember
    have hCell := hCells c hOwn
    have hUsed :=
      (hVolume.files.allocated c hCell).mpr
        ⟨i, _, _, cs, hFile, hWalk, hOwn⟩
    unfold dataCluster at hCell
    exact ⟨hCell.1, by omega, hUsed⟩

------------------------------------------------------------
-- Readers
------------------------------------------------------------

section Readers

variable {root root' : ByteMem}
variable {name : List UInt8} {i : Nat}

theorem Reader.find_eq_some_iff
    (reader : Reader) :
    reader.find root name = some i ↔
      i < 224 ∧ reader.named root name i = true ∧
        ∀ j < i, reader.named root name j = false := by
  unfold Reader.find
  rw [List.find?_range_eq_some]
  simp only [List.mem_range, Bool.not_eq_true']
  tauto

theorem Reader.find_eq_none_iff
    (reader : Reader) :
    reader.find root name = none ↔
      ∀ j < 224, reader.named root name j = false := by
  unfold Reader.find
  rw [List.find?_range_eq_none]
  simp only [Bool.not_eq_true']

/- The search of the HAL is `fat_find_entry`. -/
theorem Reader.find_hal
    (root : ByteMem)
    (name : List UInt8) :
    Reader.hal.find root name = fatFindEntry root name :=
  rfl

/- The other search compares as the boot loader does. -/
theorem Reader.named_scan
    (disk : ByteMem)
    (name : List UInt8)
    (i : Nat) :
    Reader.scan.named (rootOf disk) name i = true ↔
      Boot.SlotNamed disk name i := by
  simp only [Reader.named, decide_eq_true_eq, slotName, rootOf,
    slice_view]
  rfl

theorem Reader.named_congr
    (reader : Reader)
    (hAgree : SlotAgree root root' i)
    (name : List UInt8) :
    reader.named root name i = reader.named root' name i := by
  cases reader with
  | hal => exact hAgree.matches_eq name
  | scan =>
      simp only [Reader.named]
      rw [hAgree.name_eq]

/-
  A new match in slot `slot` is found unless there was one
  before it.
-/
theorem Reader.find_front
    {slot : Nat}
    (reader : Reader)
    (hBound : slot < 224)
    (hOwn : reader.named root' name slot = true)
    (hSame :
      ∀ i < slot,
        reader.named root' name i = reader.named root name i) :
    reader.find root' name =
      some
        (match reader.find root name with
        | some old => if old < slot then old else slot
        | none => slot) := by
  cases hFound : reader.find root name with
  | none =>
      have hNone := reader.find_eq_none_iff.mp hFound
      simp only
      refine reader.find_eq_some_iff.mpr
        ⟨hBound, hOwn, fun i hi => ?_⟩
      rw [hSame i hi]
      exact hNone i (by omega)
  | some old =>
      rcases reader.find_eq_some_iff.mp hFound with
        ⟨hOldBound, hNamed, hMin⟩
      simp only
      by_cases hBefore : old < slot
      · rw [if_pos hBefore]
        refine reader.find_eq_some_iff.mpr
          ⟨hOldBound, ?_, fun i hi => ?_⟩
        · rw [hSame old hBefore]
          exact hNamed
        · rw [hSame i (by omega)]
          exact hMin i hi
      · rw [if_neg hBefore]
        refine reader.find_eq_some_iff.mpr
          ⟨hBound, hOwn, fun i hi => ?_⟩
        rw [hSame i hi]
        exact hMin i (by omega)

/- A file is found in a live slot only. -/
theorem Reader.live_of_named
    (reader : Reader)
    (file : SourceFile)
    (hNamed : reader.named root file.field i = true) :
    slotFree root i = false := by
  cases reader with
  | hal => exact (live_of_matches hNamed).1
  | scan =>
      simp only [Reader.named, decide_eq_true_eq] at hNamed
      have hHead : root (32 * i) = file.field.getD 0 0 := by
        rw [← hNamed]
        rfl
      have hLive := file.field_live
      unfold freeByte at hLive
      rw [← hHead] at hLive
      simpa [slotFree] using hLive

end Readers

------------------------------------------------------------
-- What Installing Keeps
------------------------------------------------------------

/-
  Outside the clusters `cs` and the slots `slots` two images
  hold the same files.
-/
structure Keeps
    (image image' : ByteMem)
    (cs slots : List Nat) : Prop where
  entry :
    ∀ c, 2 ≤ c → c ≤ 3071 → c ∉ cs →
      Packed12.get (fatOf image') c =
        Packed12.get (fatOf image) c
  bytes :
    ∀ c, 2 ≤ c → c ∉ cs →
      clusterBytes image' c = clusterBytes image c
  slot :
    ∀ i < 224, i ∉ slots →
      SlotAgree (rootOf image') (rootOf image) i

section Keeping

variable {image image' image'' : ByteMem}
variable {cs cs' slots slots' : List Nat}
variable {i : Nat}

theorem Keeps.trans
    (hFirst : Keeps image image' cs slots)
    (hSecond : Keeps image' image'' cs' slots') :
    Keeps image image'' (cs ++ cs') (slots ++ slots') where
  entry := by
    intro c hLo hHi hOut
    rw [List.mem_append, not_or] at hOut
    rw [hSecond.entry c hLo hHi hOut.2,
      hFirst.entry c hLo hHi hOut.1]
  bytes := by
    intro c hLo hOut
    rw [List.mem_append, not_or] at hOut
    rw [hSecond.bytes c hLo hOut.2, hFirst.bytes c hLo hOut.1]
  slot := by
    intro i hi hOut
    rw [List.mem_append, not_or] at hOut
    exact AgreeOn.trans (hSecond.slot i hi hOut.2)
      (hFirst.slot i hi hOut.1)

theorem chainBytes_congr
    (hBytes :
      ∀ c ∈ cs, clusterBytes image' c = clusterBytes image c) :
    chainBytes image' cs = chainBytes image cs := by
  unfold chainBytes
  exact List.flatMap_congr hBytes

/- A file outside these clusters and slots is unchanged. -/
theorem Keeps.file
    (hKeeps : Keeps image image' cs slots)
    (hi : i < 224)
    (hSlot : i ∉ slots)
    (hClusters :
      ∀ c ∈ fileClusters image i,
        2 ≤ c ∧ c ≤ 3071 ∧ c ∉ cs) :
    fileClusters image' i = fileClusters image i ∧
      fileData image' i = fileData image i := by
  have hAgree := hKeeps.slot i hi hSlot
  have hSame : fileClusters image' i = fileClusters image i := by
    unfold fileClusters visited at hClusters ⊢
    rw [hAgree.size_eq, hAgree.cluster_eq]
    refine Linked.path_congr _ _ fun c hMember => ?_
    rcases hClusters c hMember with ⟨hLo, hHi, hOut⟩
    exact hKeeps.entry c hLo hHi hOut
  refine ⟨hSame, ?_⟩
  unfold fileData
  rw [hSame, hAgree.size_eq, chainBytes_congr fun c hMember =>
    hKeeps.bytes c (hClusters c hMember).1
      (hClusters c hMember).2.2]

end Keeping

------------------------------------------------------------
-- One Installed File
------------------------------------------------------------

/-
  The file is found under its name in slot `slot`, and its
  data lies in the clusters `cs`.
-/
structure Shows
    (image : ByteMem)
    (slot : Nat)
    (file : SourceFile)
    (cs : List Nat) : Prop where
  name : slotName (rootOf image) slot = file.field
  live : slotFree (rootOf image) slot = false
  plain : slotDirectory (rootOf image) slot = false
  clusters : ∀ c ∈ fileClusters image slot, c ∈ cs
  data : fileData image slot = file.data

section OneFile

variable {image image' : ByteMem}
variable {s s' : Installer}
variable {file : SourceFile}
variable {cs cs' slots : List Nat} {slot : Nat}

theorem Shows.named_eq
    (hShows : Shows image slot file cs)
    (reader : Reader)
    (name : List UInt8) :
    reader.named (rootOf image) name slot =
      decide (file.field = name) := by
  cases reader with
  | hal =>
      simp [Reader.named, slotMatches, hShows.live,
        hShows.plain, hShows.name]
  | scan => simp only [Reader.named, hShows.name]

theorem Shows.keep
    (hShows : Shows image slot file cs)
    (hKeeps : Keeps image image' cs' slots)
    (hBound : slot < 224)
    (hSlot : slot ∉ slots)
    (hTable : ∀ c ∈ cs, 2 ≤ c ∧ c ≤ 3071)
    (hApart : ∀ c ∈ cs, c ∉ cs') :
    Shows image' slot file cs := by
  have hAgree := hKeeps.slot slot hBound hSlot
  rcases hKeeps.file hBound hSlot (fun c hMember =>
      ⟨(hTable c (hShows.clusters c hMember)).1,
        (hTable c (hShows.clusters c hMember)).2,
        hApart c (hShows.clusters c hMember)⟩) with
    ⟨hClusters, hData⟩
  refine ⟨?_, ?_, ?_, ?_, hData.trans hShows.data⟩
  · rw [hAgree.name_eq, hShows.name]
  · rw [hAgree.free_eq, hShows.live]
  · rw [hAgree.directory_eq, hShows.plain]
  · rw [hClusters]
    exact hShows.clusters

theorem Mounts.entry_eq
    {c : Nat}
    (hMounts : Mounts image s)
    (hHi : c ≤ 3071) :
    Packed12.get (fatOf image) c =
      Packed12.get (ofList s.fat) c := by
  have hAgree : AgreeOn (fatOf image) (ofList s.fat) 0 4608 :=
    fun x _ hx => hMounts.fat x hx
  refine Packed12.get_congr hAgree (Nat.zero_le _) ?_
  unfold Packed12.offset
  omega

theorem Mounts.rootAgree
    {i : Nat}
    (hMounts : Mounts image s)
    (hi : i < 224) :
    SlotAgree (rootOf image) (ofList s.root) i :=
  fun x _ hHi => hMounts.root x (by omega)

theorem Mounts.clusterBytes_eq
    {c : Nat}
    (hMounts : Mounts image s)
    (hLo : 2 ≤ c) :
    clusterBytes image c = clusterBytes (ofList s.img) c :=
  slice_congr fun x _ => hMounts.data _ (by omega)

/- The root directory of an installed file has its entry. -/
theorem PutsAt.root_spec
    (hPuts : PutsAt s s' file cs slot)
    (hRoot : s.root.length = 32 * rootEntries)
    (hSlot : slot < 224) :
    s'.root.length = s.root.length ∧
      ofList s'.root =
        entryRoot (ofList s.root) slot file.field (cs.headD 0)
          file.data.length := by
  have hWhole : 32 * slot + 32 ≤ s.root.length := by
    rw [hRoot]
    simp only [rootEntries]
    omega
  rw [hPuts.root]
  exact storeEntry_spec _ _ hWhole file.field_length

/- Installing a file keeps everything outside its own. -/
theorem PutsAt.keeps
    (hPuts : PutsAt s s' file cs slot)
    (hBefore : Mounts image s)
    (hAfter : Mounts image' s')
    (hRoot : s.root.length = 32 * rootEntries)
    (hSlot : slot < 224)
    (hInside : InsideImage s.img cs) :
    Keeps image image' cs [slot] where
  entry := by
    intro c _ hHi hOut
    rw [hAfter.entry_eq hHi, hBefore.entry_eq hHi]
    exact hPuts.table.frame c hOut
  bytes := by
    intro c hLo hOut
    rw [hAfter.clusterBytes_eq hLo,
      hBefore.clusterBytes_eq hLo, hPuts.img]
    refine slice_congr fun x hx => ?_
    refine writeClusters_outside _ _ hInside
      fun d hMember => ?_
    have hNe : d ≠ c := by
      rintro rfl
      exact hOut hMember
    omega
  slot := by
    intro i hi hOut
    rw [List.mem_singleton] at hOut
    have hEntry := (hPuts.root_spec hRoot hSlot).2
    intro x hLo hHi
    rw [hAfter.rootAgree hi x hLo hHi,
      hBefore.rootAgree hi x hLo hHi, hEntry,
      entryRoot_outside (by omega)]

/- Installing a file inside the image keeps it whole. -/
theorem PutsAt.whole
    (hPuts : PutsAt s s' file cs slot)
    (hWhole : Whole s)
    (hSlot : slot < 224)
    (hInside : InsideImage s.img cs) :
    Whole s' ∧ s'.img.length = s.img.length := by
  have hLength : s'.img.length = s.img.length := by
    rw [hPuts.img]
    exact writeClusters_length _ _ hInside
  refine ⟨⟨?_, hPuts.table.length, ?_⟩, hLength⟩
  · rw [hLength]
    exact hWhole.img
  · rw [(hPuts.root_spec hWhole.root hSlot).1, hWhole.root]

/- The image's entry is the one that was stored. -/
theorem PutsAt.entry_agree
    (hPuts : PutsAt s s' file cs slot)
    (hAfter : Mounts image' s')
    (hRoot : s.root.length = 32 * rootEntries)
    (hSlot : slot < 224) :
    SlotAgree (rootOf image')
      (entryRoot (ofList s.root) slot file.field (cs.headD 0)
        file.data.length) slot := by
  have hAgree := hAfter.rootAgree hSlot
  rwa [(hPuts.root_spec hRoot hSlot).2] at hAgree

theorem length_le_of_table
    (hNodup : cs.Nodup)
    (hTable : ∀ c ∈ cs, c ≤ 3071) :
    cs.length ≤ 3072 := by
  have hSubset : cs ⊆ List.range 3072 := by
    intro c hMember
    have hBound := hTable c hMember
    rw [List.mem_range]
    omega
  have hLength :=
    (List.subperm_of_subset hNodup hSubset).length_le
  rwa [List.length_range] at hLength

/- Its chain is read as far as the size goes. -/
theorem PutsAt.fileClusters_eq
    (hPuts : PutsAt s s' file cs slot)
    (hAfter : Mounts image' s')
    (hRoot : s.root.length = 32 * rootEntries)
    (hSlot : slot < 224)
    (hSome : cs ≠ [])
    (hTable : ∀ c ∈ cs, c ≤ 3071)
    (hSize :
      slotSize (rootOf image') slot = file.data.length) :
    fileClusters image' slot =
      cs.take (sectorCount file.data.length) := by
  have hAgree := hPuts.entry_agree hAfter hRoot hSlot
  cases cs with
  | nil => exact absurd rfl hSome
  | cons start rest =>
      have hStart := hTable start List.mem_cons_self
      have hWalk :=
        (hPuts.table.chain start rfl).congr
          fun c hMember =>
            (hAfter.entry_eq (hTable c hMember)).symm
      unfold fileClusters visited
      rw [hSize, hAgree.cluster_eq,
        slotCluster_entryRoot (by
          rw [List.headD_cons]
          omega)]
      exact hWalk.path_eq_take _

/- The new entry shows the file. -/
theorem PutsAt.shows
    (hPuts : PutsAt s s' file cs slot)
    (hAfter : Mounts image' s')
    (hRoot : s.root.length = 32 * rootEntries)
    (hSlot : slot < 224)
    (hInside : InsideImage s.img cs)
    (hCount : cs.length = file.clusterCount)
    (hNodup : cs.Nodup)
    (hTable : ∀ c ∈ cs, c ≤ 3071) :
    Shows image' slot file cs := by
  have hAgree := hPuts.entry_agree hAfter hRoot hSlot
  have hData := file.data_length_le
  have hPos := file.clusterCount_pos
  have hFew := length_le_of_table hNodup hTable
  have hSome : cs ≠ [] := by
    rintro rfl
    rw [List.length_nil] at hCount
    omega
  have hSize :
      slotSize (rootOf image') slot = file.data.length := by
    rw [hAgree.size_eq, slotSize_entryRoot (by omega)]
  have hClusters :=
    hPuts.fileClusters_eq hAfter hRoot hSlot hSome hTable hSize
  refine ⟨?_, ?_, ?_, ?_, ?_⟩
  · rw [hAgree.name_eq, slotName_entryRoot file.field_length]
  · rw [hAgree.free_eq, slotFree_entryRoot]
    have hLive := file.field_live
    unfold freeByte at hLive
    simpa using hLive
  · rw [hAgree.directory_eq, slotDirectory_entryRoot]
  · intro c hMember
    rw [hClusters] at hMember
    exact List.mem_of_mem_take hMember
  · have hBytes :
        chainBytes image' cs =
          (ofList file.data).slice 0 (512 * cs.length) := by
      rw [chainBytes_congr fun c hMember =>
          hAfter.clusterBytes_eq (hInside c hMember).1,
        hPuts.img]
      exact chainBytes_writeClusters file.data 0 hInside hNodup
    have hLimit :
        min (min file.data.length
            (512 * sectorCount file.data.length))
          (512 * cs.length) = file.data.length := by
      unfold sectorCount
      omega
    unfold fileData
    rw [hClusters, hSize, chainBytes_take, List.take_take,
      hBytes, take_slice, hLimit, slice_ofList]

end OneFile

------------------------------------------------------------
-- Every Installed File
------------------------------------------------------------

section Runs

variable {image : ByteMem} {img : List UInt8}
variable {s s' : Installer}
variable {files : List SourceFile}
variable {fs os : List Nat}

/- Two images of the same arrays hold the same files. -/
theorem Mounts.keeps
    {image' : ByteMem}
    (hBefore : Mounts image s)
    (hAfter : Mounts image' s) :
    Keeps image image' [] [] where
  entry := by
    intro c _ hHi _
    rw [hAfter.entry_eq hHi, hBefore.entry_eq hHi]
  bytes := by
    intro c hLo _
    rw [hAfter.clusterBytes_eq hLo,
      hBefore.clusterBytes_eq hLo]
  slot := by
    intro i hi _
    exact AgreeOn.trans (hAfter.rootAgree hi)
      (AgreeOn.symm (hBefore.rootAgree hi))

/-
  After a run the image shows each file in its own slot, and
  the files that were there before are kept.
-/
theorem PutsRun.shows
    (hRun : PutsRun s files fs os s')
    (hWhole : Whole s)
    (hMounts : Mounts image s)
    (hNodup : fs.Nodup)
    (hTable : ∀ c ∈ fs, c ≤ 3071)
    (hInside :
      InsideImage s.img (fs.take (clustersNeeded files)))
    (hCount : clustersNeeded files ≤ fs.length)
    (hSorted : os.Pairwise (· < ·))
    (hSlots : ∀ slot ∈ os, slot < 224) :
    Keeps image (ofList (savedImage s'))
        (fs.take (clustersNeeded files))
        (os.take files.length) ∧
      ∀ (k : Nat) (file : SourceFile),
        files[k]? = some file →
          ∃ (slot : Nat) (cs : List Nat), os[k]? = some slot ∧
            Shows (ofList (savedImage s')) slot file cs := by
  induction hRun generalizing image with
  | nil s fs os =>
      refine ⟨?_, by simp⟩
      simpa [clustersNeeded] using
        hMounts.keeps (savedImage_spec hWhole).2.1
  | @cons s s₁ s' file files fs os slot hPuts hRest ih =>
      rw [clustersNeeded_cons] at hCount hInside ⊢
      rw [List.take_add] at hInside ⊢
      rw [List.pairwise_cons] at hSorted
      have hOwnCount :
          (fs.take file.clusterCount).length =
            file.clusterCount := by
        rw [List.length_take]
        omega
      have hOwnInside :
          InsideImage s.img (fs.take file.clusterCount) :=
        fun c hMember =>
          hInside c (List.mem_append_left _ hMember)
      have hOwnTable :
          ∀ c ∈ fs.take file.clusterCount, c ≤ 3071 :=
        fun c hMember => hTable c (List.mem_of_mem_take hMember)
      have hSlot := hSlots slot List.mem_cons_self
      rcases hPuts.whole hWhole hSlot hOwnInside with
        ⟨hWhole₁, hLength⟩
      have hMounts₁ := (savedImage_spec hWhole₁).2.1
      have hFirst :=
        hPuts.keeps hMounts hMounts₁ hWhole.root hSlot
          hOwnInside
      have hShows :=
        hPuts.shows hMounts₁ hWhole.root hSlot hOwnInside
          hOwnCount (hNodup.sublist (List.take_sublist _ _))
          hOwnTable
      rcases ih hWhole₁ hMounts₁
          (hNodup.sublist (List.drop_sublist _ _))
          (fun c hMember =>
            hTable c (List.mem_of_mem_drop hMember))
          (fun c hMember => by
            rw [hLength]
            exact hInside c (List.mem_append_right _ hMember))
          (by
            rw [List.length_drop]
            omega)
          hSorted.2
          (fun j hMember =>
            hSlots j (List.mem_cons_of_mem _ hMember)) with
        ⟨hKeeps, hOthers⟩
      -- The clusters and slots of later files are others.
      have hApart :
          ∀ c ∈ fs.take file.clusterCount,
            c ∉ (fs.drop file.clusterCount).take
              (clustersNeeded files) := by
        intro c hMember hLater
        have hDisjoint :=
          List.disjoint_take_drop hNodup
            (Nat.le_refl file.clusterCount)
        exact hDisjoint hMember (List.mem_of_mem_take hLater)
      have hOther : slot ∉ os.take files.length := by
        intro hMember
        have hLater :=
          hSorted.1 slot (List.mem_of_mem_take hMember)
        omega
      refine ⟨?_, ?_⟩
      · rw [List.length_cons, List.take_succ_cons]
        exact hFirst.trans hKeeps
      · intro k other hGet
        cases k with
        | zero =>
            simp only [List.getElem?_cons_zero,
              Option.some.injEq] at hGet
            subst hGet
            exact ⟨slot, _, rfl,
              hShows.keep hKeeps hSlot hOther
                (fun c hMember =>
                  ⟨(hOwnInside c hMember).1,
                    hOwnTable c hMember⟩) hApart⟩
        | succ k => exact hOthers k other hGet

/- The arrays of a loaded image. -/
theorem startInstaller_mounts
    (img : List UInt8) :
    Mounts (ofList img) (startInstaller img) where
  fat := fun _ hx => (ofList_loadFat hx).symm
  root := fun _ hx => (ofList_loadRoot hx).symm
  data := fun _ _ => rfl

theorem entry_loadFat
    {c : Nat}
    (hHi : c ≤ 3071) :
    Packed12.get (ofList (loadFat img)) c =
      Packed12.get (fatOf (ofList img)) c :=
  ((startInstaller_mounts img).entry_eq hHi).symm

theorem startInstaller_whole
    (hImg : 512 * 65 ≤ img.length) :
    Whole (startInstaller img) :=
  ⟨hImg, loadFat_length (by omega), loadRoot_length hImg⟩

/- Files that fit are installed and keep the others. -/
theorem putFiles_shows
    (hImg : 512 * 65 ≤ img.length)
    (hFits : FilesFit img files) :
    ∃ s,
      putFiles (startInstaller img)
          (files.map SourceFile.args) = .ok s ∧
        Keeps (ofList img) (ofList (savedImage s))
          ((freeClusters (loadFat img) 2).take
            (clustersNeeded files))
          ((openSlots (loadRoot img)).take files.length) ∧
        ∀ (k : Nat) (file : SourceFile),
          files[k]? = some file →
            ∃ (slot : Nat) (cs : List Nat),
              (openSlots (loadRoot img))[k]? = some slot ∧
                Shows (ofList (savedImage s)) slot file cs := by
  have hWhole := startInstaller_whole hImg
  rcases putFiles_free files hWhole.fat rfl rfl
      hFits.clusters hFits.slots with ⟨s, hPut, hRun⟩
  have hTable :
      ∀ c ∈ freeClusters (loadFat img) 2, c ≤ 3071 :=
    fun c hMember => (mem_freeClusters.mp hMember).2.1
  have hSlots : ∀ slot ∈ openSlots (loadRoot img), slot < 224 :=
    fun slot hMember => (mem_openSlots.mp hMember).1
  exact ⟨s, hPut,
    hRun.shows hWhole (startInstaller_mounts img)
      freeClusters_nodup hTable hFits.inside hFits.clusters
      openSlots_sorted hSlots⟩

end Runs

------------------------------------------------------------
-- The First Match
------------------------------------------------------------

section Lookup

variable {img : List UInt8} {image' : ByteMem}
variable {files : List SourceFile}
variable {reader : Reader}

/- Open slots are free on the image. -/
theorem slotFree_of_open
    {i : Nat}
    (hMember : i ∈ openSlots (loadRoot img)) :
    slotFree (rootOf (ofList img)) i = true := by
  rcases mem_openSlots.mp hMember with ⟨hBound, _, hFree⟩
  have hAgree :
      SlotAgree (rootOf (ofList img)) (ofList (loadRoot img))
        i :=
    (startInstaller_mounts img).rootAgree hBound
  rw [hAgree.free_eq]
  unfold freeByte at hFree
  simpa [slotFree] using hFree

/-
  Before the slot of the name's first file a reader finds the
  name where it found it on the image before.
-/
theorem named_before
    {cs : List Nat}
    {k slot i : Nat}
    {first : SourceFile}
    (hKeeps :
      Keeps (ofList img) image' cs
        ((openSlots (loadRoot img)).take files.length))
    (hShows :
      ∀ (j : Nat) (file : SourceFile),
        files[j]? = some file →
          ∃ (slot : Nat) (cs : List Nat),
            (openSlots (loadRoot img))[j]? = some slot ∧
              Shows image' slot file cs)
    (hSlot : (openSlots (loadRoot img))[k]? = some slot)
    (hEarlier :
      ∀ (j : Nat) (file : SourceFile), j < k →
        files[j]? = some file → file.field ≠ first.field)
    (hi : i < slot) :
    reader.named (rootOf image') first.field i =
      reader.named (rootOf (ofList img)) first.field i := by
  have hSorted : (openSlots (loadRoot img)).Pairwise (· < ·) :=
    openSlots_sorted
  have hBound : slot < 224 :=
    (mem_openSlots.mp (List.mem_of_getElem? hSlot)).1
  by_cases hNew :
      i ∈ (openSlots (loadRoot img)).take files.length
  · -- An earlier new slot has another name and was free.
    rcases List.mem_take_iff_getElem.mp hNew with
      ⟨j, hj, hGet⟩
    rcases List.getElem?_eq_some_iff.mp hSlot with
      ⟨hk, hSlotGet⟩
    have hBefore : j < k := by
      by_contra hAfter
      rcases Nat.eq_or_lt_of_not_lt hAfter with hEq | hLt
      · subst hEq
        omega
      · have hOrder :=
          List.pairwise_iff_getElem.mp hSorted k j hk
            (by omega) hLt
        omega
    rcases hShows j files[j]
        (List.getElem?_eq_getElem (by omega)) with
      ⟨own, own_cs, hOwn, hFile⟩
    have hSame : own = i := by
      rw [List.getElem?_eq_getElem (by omega),
        Option.some.injEq] at hOwn
      omega
    rw [hSame] at hFile
    have hFree :=
      slotFree_of_open (List.mem_of_mem_take hNew)
    rw [hFile.named_eq,
      decide_eq_false
        (hEarlier j files[j] hBefore
          (List.getElem?_eq_getElem (by omega)))]
    symm
    rw [Bool.eq_false_iff]
    intro hNamed
    have hLive := reader.live_of_named first hNamed
    rw [hFree] at hLive
    cases hLive
  · exact reader.named_congr
      (hKeeps.slot i (by omega) hNew) _

/- The entry in front gives the name its data. -/
theorem find_shown
    {k : Nat}
    {first : SourceFile}
    (hChains : ChainsAllocated (ofList img))
    (hKeeps :
      Keeps (ofList img) image'
        ((freeClusters (loadFat img) 2).take
          (clustersNeeded files))
        ((openSlots (loadRoot img)).take files.length))
    (hShows :
      ∀ (j : Nat) (file : SourceFile),
        files[j]? = some file →
          ∃ (slot : Nat) (cs : List Nat),
            (openSlots (loadRoot img))[j]? = some slot ∧
              Shows image' slot file cs)
    (hGet : files[k]? = some first)
    (hIndex :
      (files.findIdx fun file => file.field = first.field) = k)
    (hEarlier :
      ∀ (j : Nat) (file : SourceFile), j < k →
        files[j]? = some file → file.field ≠ first.field) :
    ∃ slot,
      reader.find (rootOf image') first.field = some slot ∧
        fileData image' slot =
          shownData img reader files first.field := by
  rcases hShows k first hGet with ⟨slot, cs, hSlot, hFile⟩
  have hBound : slot < 224 :=
    (mem_openSlots.mp (List.mem_of_getElem? hSlot)).1
  have hOwn :
      reader.named (rootOf image') first.field slot = true := by
    rw [hFile.named_eq, decide_eq_true rfl]
  have hFind :=
    reader.find_front hBound hOwn fun i hi =>
      named_before hKeeps hShows hSlot hEarlier hi
  have hPlace :
      (openSlots (loadRoot img)).getD k 224 = slot := by
    rw [List.getD_eq_getElem?_getD, hSlot, Option.getD_some]
  have hPut :
      (files.map SourceFile.data).getD k [] = first.data := by
    rw [List.getD_eq_getElem?_getD, List.getElem?_map, hGet]
    rfl
  refine ⟨_, hFind, ?_⟩
  unfold shownData
  simp only
  rw [hIndex, hPut, hPlace]
  cases hFound :
      reader.find (rootOf (ofList img)) first.field with
  | none => exact hFile.data
  | some old =>
      rcases reader.find_eq_some_iff.mp hFound with
        ⟨hOldBound, hNamed, _⟩
      simp only
      by_cases hBefore : old < slot
      · rw [if_pos hBefore, if_pos hBefore]
        have hLive := reader.live_of_named first hNamed
        have hKept :
            old ∉
              (openSlots (loadRoot img)).take files.length := by
          intro hMember
          rw [slotFree_of_open (List.mem_of_mem_take hMember)]
            at hLive
          cases hLive
        refine (hKeeps.file hOldBound hKept ?_).2
        intro c hMember
        rcases hChains old hOldBound hLive c hMember with
          ⟨hLo, hHi, hUsed⟩
        refine ⟨hLo, hHi, fun hTaken => hUsed ?_⟩
        rw [← entry_loadFat hHi]
        exact (mem_freeClusters.mp
          (List.mem_of_mem_take hTaken)).2.2
      · rw [if_neg hBefore, if_neg hBefore]
        exact hFile.data

/- The last file of a name is one of the files. -/
theorem lastPut_mem
    {name : List UInt8}
    {file : SourceFile}
    (hLast : lastPut files name = some file) :
    file ∈ files ∧ file.field = name := by
  unfold lastPut at hLast
  have hNamed := List.find?_some hLast
  have hMember := List.mem_of_find?_eq_some hLast
  rw [decide_eq_true_eq] at hNamed
  exact ⟨List.mem_reverse.mp hMember, hNamed⟩

/- What a lookup of any installed name finds. -/
theorem find_installed
    {name : List UInt8}
    {file : SourceFile}
    (reader : Reader)
    (hChains : ChainsAllocated (ofList img))
    (hKeeps :
      Keeps (ofList img) image'
        ((freeClusters (loadFat img) 2).take
          (clustersNeeded files))
        ((openSlots (loadRoot img)).take files.length))
    (hShows :
      ∀ (j : Nat) (file : SourceFile),
        files[j]? = some file →
          ∃ (slot : Nat) (cs : List Nat),
            (openSlots (loadRoot img))[j]? = some slot ∧
              Shows image' slot file cs)
    (hLast : lastPut files name = some file) :
    ∃ slot,
      reader.find (rootOf image') name = some slot ∧
        fileData image' slot =
          shownData img reader files name := by
  rcases lastPut_mem hLast with ⟨hMember, hName⟩
  have hIn :
      (files.findIdx fun other => other.field = name) <
        files.length :=
    List.findIdx_lt_length_of_exists
      ⟨file, hMember, by simpa using hName⟩
  have hNamed := List.findIdx_getElem (w := hIn)
  rw [decide_eq_true_eq] at hNamed
  rw [← hNamed]
  refine find_shown hChains hKeeps hShows
    (List.getElem?_eq_getElem hIn) (by rw [hNamed])
    fun j other hj hGet => ?_
  have hOther := List.not_of_lt_findIdx hj
  rcases List.getElem?_eq_some_iff.mp hGet with ⟨_, hGet'⟩
  rw [hGet', hNamed.symm] at hOther
  simpa using hOther

/-
  Over a consistent image the files that fit take effect for
  a reader exactly when for each name the data in front is
  that of the last file of the name.
-/
theorem takesEffect_iff
    {img : List UInt8}
    {files : List SourceFile}
    (hImg : 512 * 65 ≤ img.length)
    (hChains : ChainsAllocated (ofList img))
    (hFits : FilesFit img files)
    (reader : Reader) :
    TakesEffect img reader files ↔
      ∀ name file, lastPut files name = some file →
        shownData img reader files name = file.data := by
  rcases putFiles_shows hImg hFits with
    ⟨s, hPut, hKeeps, hShows⟩
  constructor
  · rintro ⟨s', hPut', hEffect⟩ name file hLast
    rw [hPut] at hPut'
    cases hPut'
    rcases hEffect name file hLast with ⟨slot, hFind, hData⟩
    rcases find_installed reader hChains hKeeps hShows hLast
      with ⟨slot', hFind', hShown⟩
    rw [hFind] at hFind'
    cases hFind'
    exact hShown.symm.trans hData
  · intro hFront
    refine ⟨s, hPut, fun name file hLast => ?_⟩
    rcases find_installed reader hChains hKeeps hShows hLast
      with ⟨slot, hFind, hShown⟩
    exact ⟨slot, hFind, hShown.trans (hFront name file hLast)⟩

end Lookup

------------------------------------------------------------
-- Blank Images
------------------------------------------------------------

section Blank

variable {img : List UInt8}

/- What fits on a blank floppy image. -/
theorem filesFit_blank
    {files : List SourceFile}
    (hImg : img.length = imageBytes)
    (hZero : ofList img = zeros)
    (hClusters : clustersNeeded files ≤ 2815)
    (hSlots : files.length ≤ 224) :
    FilesFit img files := by
  have hLarge : 512 * 65 ≤ img.length := by
    rw [hImg]
    decide
  have hFree :
      freeClusters (loadFat img) 2 = List.range' 2 3070 := by
    refine List.filter_eq_self.mpr fun d hMember => ?_
    rw [List.mem_range'_1] at hMember
    rw [decide_eq_true_eq, entry_loadFat (by omega), hZero]
    exact Packed12.get_zeros d
  have hOpen : openSlots (loadRoot img) = List.range 224 := by
    refine List.filter_eq_self.mpr fun i hMember => ?_
    rw [List.mem_range] at hMember
    simp only [rootEntries] at hMember
    rw [decide_eq_true_eq, loadRoot_length hLarge,
      ofList_loadRoot (by omega), hZero]
    simp only [rootEntries]
    exact ⟨by omega, Or.inl rfl⟩
  refine ⟨?_, ?_, ?_⟩
  · rw [hFree, List.length_range']
    omega
  · intro c hMember
    rw [hFree, List.take_range'_of_length_ge (by omega), List.mem_range'_1]
      at hMember
    refine ⟨hMember.1, ?_⟩
    rw [hImg]
    unfold imageBytes
    omega
  · rw [hOpen, List.length_range]
    exact hSlots

/- On a blank image the first file of a name is in front. -/
theorem shownData_blank
    (hZero : ofList img = zeros)
    (reader : Reader)
    (file : SourceFile)
    (files : List SourceFile) :
    shownData img reader (file :: files) file.field =
      file.data := by
  have hNone :
      reader.find (rootOf (ofList img)) file.field = none := by
    refine reader.find_eq_none_iff.mpr fun i _ => ?_
    rw [Bool.eq_false_iff]
    intro hNamed
    have hLive := reader.live_of_named file hNamed
    rw [hZero] at hLive
    cases hLive
  unfold shownData
  simp [hNone, List.findIdx_cons]

/- A blank image as a consistent volume. -/
theorem volumeConsistent_blank
    (hZero : ofList img = zeros) :
    VolumeConsistent (ofList img) := by
  rw [hZero]
  exact volumeConsistent_zeros

/- A version of the file `A`. -/
def versionFile
    (b : UInt8) : SourceFile where
  data := [b]
  name := [0x41]
  name_ascii := letterName_ascii

/- The second version stays behind the first one. -/
theorem not_takesEffect_second :
    VolumeConsistent (ofList (List.replicate imageBytes 0)) ∧
      FilesFit (List.replicate imageBytes 0)
        [versionFile 1, versionFile 2] ∧
      ¬ TakesEffect (List.replicate imageBytes 0) Reader.hal
        [versionFile 1, versionFile 2] := by
  have hZero := ofList_replicate_zero imageBytes
  have hVolume := volumeConsistent_blank hZero
  have hImg :
      (List.replicate imageBytes (0 : UInt8)).length =
        imageBytes := List.length_replicate
  have hFits :
      FilesFit (List.replicate imageBytes 0)
        [versionFile 1, versionFile 2] :=
    filesFit_blank hImg hZero (by decide) (by decide)
  have hLarge :
      512 * 65 ≤
        (List.replicate imageBytes (0 : UInt8)).length := by
    rw [hImg]
    decide
  refine ⟨hVolume, hFits, ?_⟩
  rintro ⟨s, hPut, hEffect⟩
  rcases putFiles_shows hLarge hFits with
    ⟨s', hPut', hKeeps, hShows⟩
  rw [hPut] at hPut'
  cases hPut'
  have hLast :
      lastPut [versionFile 1, versionFile 2]
          (versionFile 1).field =
        some (versionFile 2) :=
    rfl
  rcases hEffect _ _ hLast with ⟨slot, hFind, hData⟩
  rcases find_installed Reader.hal
      (chainsAllocated_of_consistent hVolume) hKeeps hShows
      hLast with ⟨slot', hFind', hShown⟩
  rw [hFind] at hFind'
  cases hFind'
  rw [shownData_blank hZero, hData] at hShown
  exact absurd hShown (by decide)

end Blank

------------------------------------------------------------
-- A Directory With A File
------------------------------------------------------------

section Lone

/- The image of the volume with the one-byte file `A`. -/
def loneImage : List UInt8 :=
  (loneVolume 1).slice 0 imageBytes

theorem loneImage_length :
    loneImage.length = imageBytes :=
  slice_length _ _ _

theorem ofList_loneImage :
    ofList loneImage = loneVolume 1 := by
  funext x
  by_cases hx : x < imageBytes
  · rw [loneImage, ofList_slice _ _ _ _ hx, Nat.zero_add]
  · unfold imageBytes at hx
    rw [Bytearray.ofList_of_length_le (by
        rw [loneImage_length]
        unfold imageBytes
        omega),
      loneVolume, fileVolume, storeBlock_outside (by omega),
      storeBlock_outside (by omega)]
    rfl

/- Only cluster 2 is taken. -/
theorem freeClusters_loneImage :
    freeClusters (loadFat loneImage) 2 =
      List.range' 3 3069 := by
  have hEntry :
      ∀ c ≤ 3071,
        Packed12.get (ofList (loadFat loneImage)) c =
          if c = 2 then 0xFFF else 0 := by
    intro c hHi
    rw [entry_loadFat hHi, ofList_loneImage,
      loneVolume_get 1 hHi]
  rw [freeClusters, show 3072 - 2 = 3069 + 1 from rfl,
    List.range'_succ, List.filter_cons_of_neg (by
      rw [hEntry 2 (by omega)]
      decide)]
  refine List.filter_eq_self.mpr fun d hMember => ?_
  rw [List.mem_range'_1] at hMember
  rw [decide_eq_true_eq, hEntry d (by omega),
    if_neg (by omega)]

theorem slotAgree_loneImage
    {i : Nat}
    (hi : i < 224) :
    SlotAgree (rootOf (ofList loneImage))
      (mountImage (loneVolume 1)).rootCache i := by
  rw [ofList_loneImage]
  exact (loneVolume_coherent 1).mono (by omega) (by omega)

/- A slot behind the first one is free. -/
theorem slotFree_loneImage
    {i : Nat}
    (hPos : 0 < i)
    (hi : i < 224) :
    slotFree (rootOf (ofList loneImage)) i = true := by
  rw [(slotAgree_loneImage hi).free_eq]
  exact fileVolume_free _ _ _ _ hPos hi

theorem open_loneImage :
    1 ∈ openSlots (loadRoot loneImage) := by
  have hLarge : 512 * 65 ≤ loneImage.length := by
    rw [loneImage_length]
    decide
  have hFree := slotFree_loneImage (i := 1) (by omega) (by omega)
  refine mem_openSlots.mpr ⟨by omega, ?_, ?_⟩
  · rw [loadRoot_length hLarge]
    decide
  · rw [ofList_loadRoot (by omega)]
    simpa [slotFree, rootOf, view, freeByte] using hFree

/- The file `B`. -/
def otherFile : SourceFile where
  data := [7]
  name := [0x42]
  name_ascii := by
    intro b hMember
    rw [List.mem_singleton.mp hMember]
    decide

/- No entry has its name. -/
theorem find_otherFile
    (reader : Reader) :
    reader.find (rootOf (ofList loneImage)) otherFile.field =
      none := by
  refine reader.find_eq_none_iff.mpr fun i hi => ?_
  rw [Bool.eq_false_iff]
  intro hNamed
  have hLive := reader.live_of_named otherFile hNamed
  rcases Nat.eq_zero_or_pos i with rfl | hPos
  · have hOwn :
        slotName (rootOf (ofList loneImage)) 0 =
          fatNormalize [0x41] := by
      rw [(slotAgree_loneImage (by omega)).name_eq]
      exact fileVolume_slotName _ _ _ _ (by decide)
    have hName :
        slotName (rootOf (ofList loneImage)) 0 =
          otherFile.field := by
      cases reader with
      | hal => exact slotName_of_matches hNamed
      | scan =>
          simpa only [Reader.named, decide_eq_true_eq]
            using hNamed
    rw [hOwn] at hName
    exact absurd hName (by decide +kernel)
  · rw [slotFree_loneImage hPos hi] at hLive
    cases hLive

theorem filesFit_loneImage :
    FilesFit loneImage [otherFile] := by
  have hOne : clustersNeeded [otherFile] = 1 := rfl
  refine ⟨?_, ?_, ?_⟩
  · rw [freeClusters_loneImage, hOne, List.length_range']
    omega
  · rw [freeClusters_loneImage, hOne,
      List.take_range'_of_length_ge (by omega)]
    intro c hMember
    rw [List.mem_range'_1] at hMember
    rw [loneImage_length]
    unfold imageBytes
    omega
  · exact List.length_pos_of_mem open_loneImage

/- `B` takes effect beside `A`, for both readers. -/
theorem takesEffect_beside :
    TakesEffect loneImage .hal [otherFile] ∧
      TakesEffect loneImage .scan [otherFile] := by
  have hLarge : 512 * 65 ≤ loneImage.length := by
    rw [loneImage_length]
    decide
  have hChains : ChainsAllocated (ofList loneImage) := by
    rw [ofList_loneImage]
    exact chainsAllocated_of_consistent
      (volumeConsistent_loneVolume 1 (by omega))
  have hEither :
      ∀ reader, TakesEffect loneImage reader [otherFile] := by
    intro reader
    refine
      (takesEffect_iff hLarge hChains filesFit_loneImage
        reader).mpr ?_
    intro name file hLast
    rcases lastPut_mem hLast with ⟨hMember, rfl⟩
    rw [List.mem_singleton] at hMember
    subst hMember
    unfold shownData
    simp [find_otherFile reader, List.findIdx_cons]
  exact ⟨hEither .hal, hEither .scan⟩

end Lone

end FatPut

end AsmOS
