import AsmOS.Storage.FatPutRead
import AsmOS.Storage.TapeStore

/-
  The operating system on a disk of the build tool.

  `fat_put.py` lays the files of the build one after another
  from cluster 2 on.  So the HAL finds them on one tape, and
  all that it does from then on is known from the files that
  were given to the tool.

  Main declarations:
    * `builtLinks`, `BuiltTape`
    * `tapeDisk_built`
    * `builtDisk_runs`
-/

------------------------------------------------------------
-- The Files Of The Build
------------------------------------------------------------

namespace AsmOS

namespace FatPut

open ByteMem Bytearray Storage Session

/- The clusters of the file that starts at `start`. -/
def builtLinks
    (start : Nat) : List InstallFile → Nat → Nat
| [], _ => 0
| file :: files, c =>
    if start = c then file.clusterCount
    else builtLinks start files (c + file.clusterCount)

/-
  The tape that the tool leaves: each file has its name, its
  length and its bytes, and takes one slot.
-/
structure BuiltTape
    (files : List InstallFile)
    (t : TapeStore) : Prop where
  file :
    ∀ j file, files[j]? = some file →
      t.files file.name =
          some (file.data.length,
            2 + totalClusters (files.take j)) ∧
        ∀ x < 512 * file.clusterCount,
          t.bytes (512 * totalClusters (files.take j) + x) =
            ofList file.data x
  absent :
    ∀ name83, (∀ file ∈ files, file.name ≠ name83) →
      t.files name83 = none
  spare : t.spare = 224 - files.length

theorem builtLinks_start
    (files : List InstallFile)
    (c : Nat)
    {j : Nat}
    {file : InstallFile}
    (hGet : files[j]? = some file) :
    builtLinks (c + totalClusters (files.take j)) files c =
      file.clusterCount := by
  induction files generalizing c j with
  | nil => simp at hGet
  | cons first files ih =>
      unfold builtLinks
      cases j with
      | zero =>
          rw [List.getElem?_cons_zero] at hGet
          cases hGet
          rw [List.take_zero]
          exact if_pos rfl
      | succ j =>
          rw [List.getElem?_cons_succ] at hGet
          have hPos := first.clusterCount_pos
          rw [List.take_succ_cons, totalClusters_cons,
            if_neg (by omega), ← Nat.add_assoc]
          exact ih _ hGet

------------------------------------------------------------
-- The Directory Of The Build
------------------------------------------------------------

section Built

variable {image : ByteMem} {s : Installer}
variable {files : List InstallFile}

/- The image of the tool after the files. -/
structure Built
    (image : ByteMem)
    (s : Installer)
    (files : List InstallFile) : Prop where
  mounts : Mounts image s
  ready : Ready s files.length
  installed :
    ∀ j file, files[j]? = some file →
      Installed s j file (2 + totalClusters (files.take j))
  names : (files.map InstallFile.name).Nodup
  slots : files.length ≤ 224
  room : totalClusters files ≤ 2815

theorem Built.slotAgree
    (hBuilt : Built image s files)
    {i : Nat}
    (hi : i < 224) :
    SlotAgree (rootOf image) (ofList s.root) i :=
  fun x _ hx => hBuilt.mounts.root x (by omega)

/- The live slots are those of the files. -/
theorem Built.slotMatches_iff
    (hBuilt : Built image s files)
    {i : Nat}
    (hi : i < 224)
    (name83 : List UInt8) :
    slotMatches (rootOf image) name83 i = true ↔
      ∃ file, files[i]? = some file ∧ file.name = name83 := by
  rw [(hBuilt.slotAgree hi).matches_eq]
  cases hGet : files[i]? with
  | none =>
      have hBeyond := List.getElem?_eq_none_iff.mp hGet
      have hFree : slotFree (ofList s.root) i = true := by
        unfold slotFree
        rw [hBuilt.ready.blank _ (by omega)]
        rfl
      rw [slotMatches_of_free hFree]
      simp
  | some file =>
      have hOwn := hBuilt.installed i file hGet
      simp [slotMatches, hOwn.live, hOwn.plain, hOwn.name]

/- A name is the name of one file only. -/
theorem Built.unique
    (hBuilt : Built image s files) :
    UniqueNames (rootOf image) := by
  intro name83 i j hi hj hFirst hSecond
  rcases (hBuilt.slotMatches_iff hi name83).mp hFirst with
    ⟨file, hGet, hName⟩
  rcases (hBuilt.slotMatches_iff hj name83).mp hSecond with
    ⟨other, hOther, hSame⟩
  rcases List.getElem?_eq_some_iff.mp hGet with ⟨hLt, hFile⟩
  rcases List.getElem?_eq_some_iff.mp hOther with ⟨hLt', hFile'⟩
  have hMap : i < (files.map InstallFile.name).length := by
    rwa [List.length_map]
  have hMap' : j < (files.map InstallFile.name).length := by
    rwa [List.length_map]
  have hEqual :
      (files.map InstallFile.name)[i] =
        (files.map InstallFile.name)[j] := by
    rw [List.getElem_map, List.getElem_map, hFile, hFile', hName,
      hSame]
  exact hBuilt.names.getElem_inj_iff.mp hEqual

theorem Built.fileAt
    (hBuilt : Built image s files)
    {j : Nat}
    {file : InstallFile}
    (hGet : files[j]? = some file) :
    FileAt (rootOf image) j file.name file.data.length
      (2 + totalClusters (files.take j)) := by
  have hLt := (List.getElem?_eq_some_iff.mp hGet).1
  have hSlots := hBuilt.slots
  have hSlot : j < 224 := by omega
  have hOwn := hBuilt.installed j file hGet
  have hAgree := hBuilt.slotAgree hSlot
  exact
    { slot_lt := hSlot
      matching :=
        (hBuilt.slotMatches_iff hSlot _).mpr ⟨file, hGet, rfl⟩
      size_eq := hAgree.size_eq.trans hOwn.size
      cluster_eq := hAgree.cluster_eq.trans hOwn.cluster }

theorem Built.nameMap_eq
    (hBuilt : Built image s files)
    {j : Nat}
    {file : InstallFile}
    (hGet : files[j]? = some file) :
    nameMap (rootOf image) file.name =
      some (file.data.length,
        2 + totalClusters (files.take j)) :=
  (nameMap_eq_some_iff hBuilt.unique).mpr
    ⟨j, hBuilt.fileAt hGet⟩

/- Every file of the directory is one of the build. -/
theorem Built.file_of_nameMap
    (hBuilt : Built image s files)
    {name83 : List UInt8}
    {size start : Nat}
    (hFile : nameMap (rootOf image) name83 = some (size, start)) :
    ∃ j file, files[j]? = some file ∧ file.name = name83 ∧
      start = 2 + totalClusters (files.take j) := by
  rcases (nameMap_eq_some_iff hBuilt.unique).mp hFile with
    ⟨j, hAt⟩
  rcases (hBuilt.slotMatches_iff hAt.slot_lt name83).mp
      hAt.matching with ⟨file, hGet, hName⟩
  refine ⟨j, file, hGet, hName, ?_⟩
  rw [← hAt.cluster_eq]
  exact (hBuilt.fileAt hGet).cluster_eq

theorem Built.freeSlots_card
    (hBuilt : Built image s files) :
    (freeSlots (rootOf image)).card = 224 - files.length := by
  have hSlots := hBuilt.slots
  have hFree :
      freeSlots (rootOf image) =
        Finset.range 224 \ Finset.range files.length := by
    ext i
    rw [mem_freeSlots, Finset.mem_sdiff, Finset.mem_range,
      Finset.mem_range]
    refine and_congr_right fun hi => ?_
    rw [(hBuilt.slotAgree hi).free_eq]
    by_cases hLt : i < files.length
    · have hOwn :=
        hBuilt.installed i files[i] (List.getElem?_eq_getElem hLt)
      simp [hOwn.live, hLt]
    · unfold slotFree
      rw [hBuilt.ready.blank _ (by omega)]
      simp [hLt]
  rw [hFree, Finset.card_sdiff_of_subset
    (Finset.range_subset_range.mpr hSlots), Finset.card_range,
    Finset.card_range]

------------------------------------------------------------
-- The Tape Of The Build
------------------------------------------------------------

/- The clusters of a file are one piece. -/
theorem Built.onePiece
    (hBuilt : Built image s files)
    {j : Nat}
    {file : InstallFile}
    (hGet : files[j]? = some file) :
    OnePiece (fatOf image)
      (fun start => builtLinks start files 2)
      (2 + totalClusters (files.take j)) := by
  have hLinks := builtLinks_start files 2 hGet
  have hTotal := totalClusters_take_le files hGet
  have hRoom := hBuilt.room
  have hOwn := hBuilt.installed j file hGet
  have hFat : AgreeOn (fatOf image) (ofList s.fat) 0 4608 :=
    fun x _ hx => hBuilt.mounts.fat x hx
  refine ⟨?_, Nat.le_add_right _ _, ?_⟩
  · rw [hLinks]
    refine walks_chain _ _ file.clusterCount_pos (by omega) ?_
    intro d hLo hHi
    have hOffset := offset_lt (show d ≤ 2816 by omega)
    unfold tableBytes at hOffset
    rw [Packed12.get_congr hFat (Nat.zero_le _) (by omega)]
    exact hOwn.chain d hLo hHi
  · rw [hLinks]
    omega

theorem tapeDisk_built
    (hBuilt : Built image s files)
    (hSome : files ≠ []) :
    TapeDisk (fun start => builtLinks start files 2) image where
  unique := hBuilt.unique
  first := by
    have hFirst : files[0]? = some (files.head hSome) := by
      cases files with
      | nil => exact absurd rfl hSome
      | cons file files => rfl
    exact hBuilt.onePiece hFirst
  pieces := by
    intro name83 size start hFile
    rcases hBuilt.file_of_nameMap hFile with
      ⟨j, file, hGet, _, rfl⟩
    exact hBuilt.onePiece hGet

theorem builtTape_tapeOf
    (hBuilt : Built image s files) :
    BuiltTape files (tapeOf image) where
  file := by
    intro j file hGet
    refine ⟨hBuilt.nameMap_eq hGet, fun x hx => ?_⟩
    have hByte := (hBuilt.installed j file hGet).bytes x hx
    rw [← hByte, ← hBuilt.mounts.data _ (by omega)]
    change image _ = image _
    congr 1
    omega
  absent := by
    intro name83 hNone
    change nameMap (rootOf image) name83 = none
    cases hFile : nameMap (rootOf image) name83 with
    | none => rfl
    | some found =>
        rcases hBuilt.file_of_nameMap hFile with
          ⟨j, file, hGet, hName, _⟩
        exact absurd hName
          (hNone file (List.mem_of_getElem? hGet))
  spare := hBuilt.freeSlots_card

end Built

end FatPut

end AsmOS
