import AsmOS.Storage.Fsck

/-
  The root directory as a map from 8.3 names to files.

  A live file of the root table has a slot, a name, a size
  and a start cluster.  While no two live files share a name
  the table is a finite map; a write updates the map at one
  name, and a delete removes one name.

  Main declarations:
    * `FileAt`, `UniqueNames`
    * `FsCall.Acts`
    * `UniqueNames.written`, `UniqueNames.deleted`
    * `nameMap`, `nameMap_write`, `nameMap_delete`
    * `acts_after_run`
-/

------------------------------------------------------------
-- Statements
------------------------------------------------------------

namespace AsmOS

namespace Storage

open ByteMem

/- The root table that the next call works on. -/
def Fs.table
    (fs : Fs) : ByteMem :=
  (ensureReady fs).2.rootCache

/-
  Slot `i` is a live entry that is no directory, with this
  name, size and start cluster.
-/
structure FileAt
    (root : ByteMem)
    (i : Nat)
    (name83 : List UInt8)
    (size cluster : Nat) : Prop where
  slot_lt : i < 224
  matching : slotMatches root name83 i = true
  size_eq : slotSize root i = size
  cluster_eq : slotCluster root i = cluster

/- No two live entries that are no directory share a name. -/
def UniqueNames
    (root : ByteMem) : Prop :=
  ∀ name83 i j, i < 224 → j < 224 →
    slotMatches root name83 i = true →
      slotMatches root name83 j = true → i = j

/- No live file has the name, and all slots are occupied. -/
structure TableFull
    (root : ByteMem)
    (name83 : List UInt8) : Prop where
  absent : ∀ i < 224, slotMatches root name83 i = false
  occupied : ∀ i < 224, slotFree root i = false

/- The files of all other names are the same. -/
def KeepsOthers
    (root root' : ByteMem)
    (name83 : List UInt8) : Prop :=
  ∀ other, other ≠ name83 → ∀ i size cluster,
    FileAt root' i other size cluster ↔
      FileAt root i other size cluster

/-
  Slot `i` is a live directory, with this name, size and
  start cluster.
-/
structure DirectoryAt
    (root : ByteMem)
    (i : Nat)
    (name83 : List UInt8)
    (size cluster : Nat) : Prop where
  live : slotFree root i = false
  directory : slotDirectory root i = true
  name_eq : slotName root i = name83
  size_eq : slotSize root i = size
  cluster_eq : slotCluster root i = cluster

/- All directories are the same. -/
def KeepsDirectories
    (root root' : ByteMem) : Prop :=
  ∀ i name83 size cluster,
    DirectoryAt root' i name83 size cluster ↔
      DirectoryAt root i name83 size cluster

/-
  What a write that returns `rc` does to the table: on
  success one live file has the name, and it has the written
  size; other names keep their files, and directories stay;
  and it fails exactly on a full table, which it leaves as it
  is.
-/
structure WriteActs
    (root root' : ByteMem)
    (name83 : List UInt8)
    (size : Nat)
    (rc : Int) : Prop where
  code : rc = 0 ∨ rc = -1
  stored :
    rc = 0 → ∃ i, FileAt root' i name83 size 2 ∧
      ∀ j < 224, slotMatches root' name83 j = true → j = i
  others : KeepsOthers root root' name83
  directories : KeepsDirectories root root'
  failed_iff : rc = -1 ↔ TableFull root name83
  unchanged : rc = -1 → root' = root

/-
  What a delete that returns `rc` does to the table: on
  success no live file has the name, and other names keep
  their files, and directories stay.
-/
structure DeleteActs
    (root root' : ByteMem)
    (name83 : List UInt8)
    (rc : Int) : Prop where
  gone :
    rc = 0 → ∀ i < 224, slotMatches root' name83 i = false
  others : KeepsOthers root root' name83
  directories : KeepsDirectories root root'

/- The return code of a call. -/
def FsCall.code
    (fs : Fs) : FsCall → Int
| .write name data size =>
    (platFsWrite fs name data size.toNat).1
| .delete name => (platFsDelete fs name).1

/- A call acts on the table as on a map. -/
def FsCall.Acts
    (fs : Fs)
    (call : FsCall) : Prop :=
  match call with
  | .write name _ size =>
      WriteActs fs.table (call.run fs).table
        (fatNormalize name) size.toNat (call.code fs)
  | .delete name =>
      DeleteActs fs.table (call.run fs).table
        (fatNormalize name) (call.code fs)

/- The state after a sequence of calls. -/
def Fs.after
    (fs : Fs) : List FsCall → Fs
| [] => fs
| call :: calls => (call.run fs).after calls

------------------------------------------------------------
-- Tables After A Call
------------------------------------------------------------

section Tables

variable {root root' : ByteMem}
variable {name83 other : List UInt8}
variable {slot size i : Nat}

/- The name in a slot is one name. -/
theorem name_unique_of_matches
    (hMatch : slotMatches root name83 i = true)
    (hOther : slotMatches root other i = true) :
    name83 = other :=
  (slotName_of_matches hMatch).symm.trans
    (slotName_of_matches hOther)

theorem slotMatches_ne
    (hMatch : slotMatches root name83 i = true)
    (hNe : other ≠ name83) :
    slotMatches root other i = false := by
  rw [Bool.eq_false_iff]
  intro hOther
  exact hNe (name_unique_of_matches hOther hMatch)

theorem SlotAgree.fileAt_iff
    (hAgree : SlotAgree root' root i)
    {cluster : Nat} :
    FileAt root' i name83 size cluster ↔
      FileAt root i name83 size cluster := by
  constructor
  · rintro ⟨hSlot, hMatch, hSize, hCluster⟩
    refine ⟨hSlot, ?_, ?_, ?_⟩
    · rw [← hAgree.matches_eq, hMatch]
    · rw [← hAgree.size_eq, hSize]
    · rw [← hAgree.cluster_eq, hCluster]
  · rintro ⟨hSlot, hMatch, hSize, hCluster⟩
    refine ⟨hSlot, ?_, ?_, ?_⟩
    · rw [hAgree.matches_eq, hMatch]
    · rw [hAgree.size_eq, hSize]
    · rw [hAgree.cluster_eq, hCluster]

/-
  A change of one slot keeps the other names when that slot
  has none of them before or after.
-/
theorem keepsOthers_of_slot
    (hSlots : ∀ i, i ≠ slot → SlotAgree root' root i)
    (hBefore :
      ∀ other, other ≠ name83 →
        slotMatches root other slot = false)
    (hAfter :
      ∀ other, other ≠ name83 →
        slotMatches root' other slot = false) :
    KeepsOthers root root' name83 := by
  intro other hNe i size cluster
  by_cases hSlot : i = slot
  · subst hSlot
    constructor
    · intro hFile
      have hMatch := hFile.matching
      rw [hAfter other hNe] at hMatch
      cases hMatch
    · intro hFile
      have hMatch := hFile.matching
      rw [hBefore other hNe] at hMatch
      cases hMatch
  · exact (hSlots i hSlot).fileAt_iff

theorem SlotAgree.directoryAt_iff
    (hAgree : SlotAgree root' root i)
    {cluster : Nat} :
    DirectoryAt root' i name83 size cluster ↔
      DirectoryAt root i name83 size cluster := by
  constructor
  · rintro ⟨hLive, hDirectory, hName, hSize, hCluster⟩
    refine ⟨?_, ?_, ?_, ?_, ?_⟩
    · rw [← hAgree.free_eq, hLive]
    · rw [← hAgree.directory_eq, hDirectory]
    · rw [← hAgree.name_eq, hName]
    · rw [← hAgree.size_eq, hSize]
    · rw [← hAgree.cluster_eq, hCluster]
  · rintro ⟨hLive, hDirectory, hName, hSize, hCluster⟩
    refine ⟨?_, ?_, ?_, ?_, ?_⟩
    · rw [hAgree.free_eq, hLive]
    · rw [hAgree.directory_eq, hDirectory]
    · rw [hAgree.name_eq, hName]
    · rw [hAgree.size_eq, hSize]
    · rw [hAgree.cluster_eq, hCluster]

/- A slot that is free or a file is no directory. -/
theorem not_directoryAt
    (hPlain :
      slotFree root i = true ∨ slotDirectory root i = false)
    {cluster : Nat} :
    ¬ DirectoryAt root i name83 size cluster := by
  rintro ⟨hLive, hDirectory, _, _, _⟩
  rcases hPlain with hFree | hFile
  · rw [hLive] at hFree
    cases hFree
  · rw [hDirectory] at hFile
    cases hFile

/- A change of one slot that is no directory keeps them. -/
theorem keepsDirectories_of_slot
    (hSlots : ∀ i, i ≠ slot → SlotAgree root' root i)
    (hBefore :
      slotFree root slot = true ∨
        slotDirectory root slot = false)
    (hAfter :
      slotFree root' slot = true ∨
        slotDirectory root' slot = false) :
    KeepsDirectories root root' := by
  intro i name83 size cluster
  by_cases hSlot : i = slot
  · subst hSlot
    exact iff_of_false (not_directoryAt hAfter)
      (not_directoryAt hBefore)
  · exact (hSlots i hSlot).directoryAt_iff

/-
  Other names stay unique, so a table has unique names when
  its changed name has one slot at most.
-/
theorem UniqueNames.of_others
    (hUnique : UniqueNames root)
    (hOthers : KeepsOthers root root' name83)
    (hName :
      ∀ i j, i < 224 → j < 224 →
        slotMatches root' name83 i = true →
          slotMatches root' name83 j = true → i = j) :
    UniqueNames root' := by
  intro other i j hi hj hFirst hSecond
  by_cases hNe : other = name83
  · subst hNe
    exact hName i j hi hj hFirst hSecond
  · have hOld :=
      (hOthers other hNe i _ _).mp ⟨hi, hFirst, rfl, rfl⟩
    have hOld' :=
      (hOthers other hNe j _ _).mp ⟨hj, hSecond, rfl, rfl⟩
    exact hUnique other i j hi hj hOld.matching
      hOld'.matching

theorem writeSlot_eq_none_iff :
    writeSlot root name83 = none ↔ TableFull root name83 := by
  unfold writeSlot
  cases hFind : fatFindEntry root name83 with
  | some found =>
      simp only [reduceCtorEq, false_iff]
      intro hFull
      rw [fatFindEntry_eq_none_iff.mpr hFull.absent] at hFind
      cases hFind
  | none =>
      have hAbsent := fatFindEntry_eq_none_iff.mp hFind
      have hFree :
          fatFindFreeEntry root = none ↔
            ∀ i < 224, slotFree root i = false := by
        unfold fatFindFreeEntry
        rw [List.find?_range_eq_none]
        simp only [Bool.not_eq_true', fatRootEntries]
      cases hFirst : fatFindFreeEntry root with
      | some free =>
          simp only [reduceCtorEq, false_iff]
          intro hFull
          rw [hFree.mpr hFull.occupied] at hFirst
          cases hFirst
      | none =>
          exact iff_of_true rfl
            ⟨hAbsent, hFree.mp hFirst⟩

end Tables

------------------------------------------------------------
-- A Written Table
------------------------------------------------------------

section Written

variable {root root' : ByteMem}
variable {name : List UInt8} {slot : Nat}

/- The slot of a write has the written name. -/
theorem slotMatches_written
    (hWrite :
      writeSlot root (fatNormalize name) = some (slot, root'))
    (size : Nat) :
    slotMatches (sizeSlot root' slot size) (fatNormalize name)
      slot = true :=
  (fatFindEntry_eq_some_iff.mp
    (findEntry_written name hWrite)).2.1

theorem keepsOthers_written
    (hWrite :
      writeSlot root (fatNormalize name) = some (slot, root'))
    (size : Nat) :
    KeepsOthers root (sizeSlot root' slot size)
      (fatNormalize name) := by
  apply keepsOthers_of_slot
    (fun i hi => slotAgree_written hi hWrite)
  · intro other hNe
    rcases writeSlot_cases hWrite with
      ⟨hFind, _⟩ | ⟨_, _, hFree, _⟩
    · exact slotMatches_ne
        (fatFindEntry_eq_some_iff.mp hFind).2.1 hNe
    · exact slotMatches_of_free hFree other
  · intro other hNe
    exact slotMatches_ne (slotMatches_written hWrite size) hNe

theorem keepsDirectories_written
    (hWrite :
      writeSlot root (fatNormalize name) = some (slot, root'))
    (size : Nat) :
    KeepsDirectories root (sizeSlot root' slot size) := by
  apply keepsDirectories_of_slot
    (fun i hi => slotAgree_written hi hWrite)
  · rcases writeSlot_cases hWrite with
      ⟨hFind, _⟩ | ⟨_, _, hFree, _⟩
    · exact Or.inr (live_of_matches
        (fatFindEntry_eq_some_iff.mp hFind).2.1).2
    · exact Or.inl hFree
  · exact Or.inr
      (live_of_matches (slotMatches_written hWrite size)).2

/- After a write only its slot has the name. -/
theorem slot_unique_written
    (hUnique : UniqueNames root)
    (hWrite :
      writeSlot root (fatNormalize name) = some (slot, root'))
    (size : Nat) :
    ∀ j < 224,
      slotMatches (sizeSlot root' slot size)
          (fatNormalize name) j = true →
        j = slot := by
  intro j hj hMatch
  by_contra hNe
  rw [(slotAgree_written hNe hWrite).matches_eq] at hMatch
  rcases writeSlot_cases hWrite with
    ⟨hFind, _⟩ | ⟨hAbsent, _, _, _⟩
  · rcases fatFindEntry_eq_some_iff.mp hFind with
      ⟨hSlot, hOwn, _⟩
    exact hNe (hUnique _ j slot hj hSlot hMatch hOwn)
  · rw [fatFindEntry_eq_none_iff.mp hAbsent j hj] at hMatch
    cases hMatch

theorem UniqueNames.written
    (hUnique : UniqueNames root)
    (hWrite :
      writeSlot root (fatNormalize name) = some (slot, root'))
    (size : Nat) :
    UniqueNames (sizeSlot root' slot size) := by
  have hOnly := slot_unique_written hUnique hWrite size
  apply hUnique.of_others (keepsOthers_written hWrite size)
  intro i j hi hj hFirst hSecond
  rw [hOnly i hi hFirst, hOnly j hj hSecond]

/- The file that a write leaves under its name. -/
theorem fileAt_written
    (hWrite :
      writeSlot root (fatNormalize name) = some (slot, root'))
    {size : Nat}
    (hSize : size < 2 ^ 32) :
    FileAt (sizeSlot root' slot size) slot (fatNormalize name)
      size 2 where
  slot_lt := writeSlot_lt hWrite
  matching := slotMatches_written hWrite size
  size_eq := by
    rw [slotSize_sizeSlot, Nat.mod_eq_of_lt hSize]
  cluster_eq := slotCluster_sizeSlot root' slot size

theorem writeActs_written
    (hUnique : UniqueNames root)
    (hWrite :
      writeSlot root (fatNormalize name) = some (slot, root'))
    {size : Nat}
    (hSize : size < 2 ^ 32) :
    WriteActs root (sizeSlot root' slot size)
      (fatNormalize name) size 0 where
  code := Or.inl rfl
  stored := fun _ =>
    ⟨slot, fileAt_written hWrite hSize,
      slot_unique_written hUnique hWrite size⟩
  others := keepsOthers_written hWrite size
  directories := keepsDirectories_written hWrite size
  failed_iff := by
    rw [← writeSlot_eq_none_iff, hWrite]
    simp
  unchanged := fun hContra => absurd hContra (by decide)

theorem writeActs_full
    (hFull : TableFull root (fatNormalize name))
    (size : Nat) :
    WriteActs root root (fatNormalize name) size (-1) where
  code := Or.inr rfl
  stored := fun hContra => absurd hContra (by decide)
  others := fun _ _ _ _ _ => Iff.rfl
  directories := fun _ _ _ _ => Iff.rfl
  failed_iff := iff_of_true rfl hFull
  unchanged := fun _ => rfl

end Written

------------------------------------------------------------
-- A Table After A Delete
------------------------------------------------------------

section Deleted

variable {root : ByteMem}
variable {name83 : List UInt8} {slot : Nat}

/- A deleted slot matches no name. -/
theorem slotMatches_deleted
    (other : List UInt8) :
    slotMatches (root.storeByte (32 * slot) 0xE5) other
      slot = false :=
  slotMatches_of_free (slotFree_deleted root slot) other

theorem keepsOthers_deleted
    (hFind : fatFindEntry root name83 = some slot) :
    KeepsOthers root (root.storeByte (32 * slot) 0xE5)
      name83 := by
  apply keepsOthers_of_slot
    fun i hi => slotAgree_deleted root slot hi
  · intro other hNe
    exact slotMatches_ne
      (fatFindEntry_eq_some_iff.mp hFind).2.1 hNe
  · intro other _
    exact slotMatches_deleted other

theorem keepsDirectories_deleted
    (hFind : fatFindEntry root name83 = some slot) :
    KeepsDirectories root
      (root.storeByte (32 * slot) 0xE5) :=
  keepsDirectories_of_slot
    (fun _ hi => slotAgree_deleted root slot hi)
    (Or.inr (live_of_matches
      (fatFindEntry_eq_some_iff.mp hFind).2.1).2)
    (Or.inl (slotFree_deleted root slot))

theorem not_matches_deleted
    (hUnique : UniqueNames root)
    (hFind : fatFindEntry root name83 = some slot) :
    ∀ i < 224,
      slotMatches (root.storeByte (32 * slot) 0xE5) name83
        i = false := by
  intro i hi
  by_cases hSlot : i = slot
  · subst hSlot
    exact slotMatches_deleted name83
  · rw [(slotAgree_deleted root slot hSlot).matches_eq,
      Bool.eq_false_iff]
    intro hMatch
    rcases fatFindEntry_eq_some_iff.mp hFind with
      ⟨hLt, hOwn, _⟩
    exact hSlot (hUnique _ i slot hi hLt hMatch hOwn)

theorem UniqueNames.deleted
    (hUnique : UniqueNames root)
    (hFind : fatFindEntry root name83 = some slot) :
    UniqueNames (root.storeByte (32 * slot) 0xE5) := by
  apply hUnique.of_others (keepsOthers_deleted hFind)
  intro i j hi _ hFirst _
  rw [not_matches_deleted hUnique hFind i hi] at hFirst
  cases hFirst

theorem deleteActs_deleted
    (hUnique : UniqueNames root)
    (hFind : fatFindEntry root name83 = some slot) :
    DeleteActs root (root.storeByte (32 * slot) 0xE5) name83
      0 where
  gone := fun _ => not_matches_deleted hUnique hFind
  others := keepsOthers_deleted hFind
  directories := keepsDirectories_deleted hFind

end Deleted

------------------------------------------------------------
-- The Finite Map
------------------------------------------------------------

section Map

variable {root root' : ByteMem}
variable {name : List UInt8} {name83 : List UInt8}
variable {slot size cluster : Nat}

/- The size and start cluster of a name. -/
def nameMap
    (root : ByteMem)
    (name83 : List UInt8) : Option (Nat × Nat) :=
  (fatFindEntry root name83).map fun i =>
    (slotSize root i, slotCluster root i)

theorem nameMap_eq_some_iff
    (hUnique : UniqueNames root) :
    nameMap root name83 = some (size, cluster) ↔
      ∃ i, FileAt root i name83 size cluster := by
  unfold nameMap
  rw [Option.map_eq_some_iff]
  constructor
  · rintro ⟨i, hFind, hFile⟩
    cases hFile
    rcases fatFindEntry_eq_some_iff.mp hFind with
      ⟨hSlot, hMatch, _⟩
    exact ⟨i, hSlot, hMatch, rfl, rfl⟩
  · rintro ⟨i, hSlot, hMatch, rfl, rfl⟩
    refine ⟨i, fatFindEntry_eq_some_iff.mpr
      ⟨hSlot, hMatch, ?_⟩, rfl⟩
    intro j hj
    rw [Bool.eq_false_iff]
    intro hOther
    have hSame :=
      hUnique _ j i (by omega) hSlot hOther hMatch
    omega

/- Names with the same files have the same value. -/
theorem nameMap_congr
    (hUnique : UniqueNames root)
    (hUnique' : UniqueNames root')
    (hFiles :
      ∀ i size cluster,
        FileAt root' i name83 size cluster ↔
          FileAt root i name83 size cluster) :
    nameMap root' name83 = nameMap root name83 := by
  apply Option.ext
  rintro ⟨size, cluster⟩
  rw [nameMap_eq_some_iff hUnique',
    nameMap_eq_some_iff hUnique]
  exact exists_congr fun i => hFiles i size cluster

/- A write updates the map at its name. -/
theorem nameMap_write
    (hUnique : UniqueNames root)
    (hWrite :
      writeSlot root (fatNormalize name) = some (slot, root'))
    (hSize : size < 2 ^ 32) :
    nameMap (sizeSlot root' slot size) =
      Function.update (nameMap root) (fatNormalize name)
        (some (size, 2)) := by
  have hUnique' := hUnique.written hWrite size
  funext other
  by_cases hName : other = fatNormalize name
  · subst hName
    rw [Function.update_self, nameMap_eq_some_iff hUnique']
    exact ⟨slot, fileAt_written hWrite hSize⟩
  · rw [Function.update_of_ne hName]
    exact nameMap_congr hUnique hUnique' fun i _ _ =>
      keepsOthers_written hWrite size other hName i _ _

/- A delete removes its name from the map. -/
theorem nameMap_delete
    (hUnique : UniqueNames root)
    (hFind : fatFindEntry root name83 = some slot) :
    nameMap (root.storeByte (32 * slot) 0xE5) =
      Function.update (nameMap root) name83 none := by
  have hUnique' := hUnique.deleted hFind
  funext other
  by_cases hName : other = name83
  · subst hName
    rw [Function.update_self, nameMap,
      fatFindEntry_eq_none_iff.mpr
        (not_matches_deleted hUnique hFind)]
    rfl
  · rw [Function.update_of_ne hName]
    exact nameMap_congr hUnique hUnique' fun i _ _ =>
      keepsOthers_deleted hFind other hName i _ _

end Map

------------------------------------------------------------
-- One Call
------------------------------------------------------------

section OneCall

variable {fs : Fs}

theorem table_mounted
    (hMounted : fs.Mounted) :
    fs.table = fs.rootCache := by
  rw [Fs.table, ensureReady_mounted hMounted]

/- On a mounted state a call acts and keeps names unique. -/
theorem run_acts_mounted
    (hMounted : fs.Mounted)
    (hUnique : UniqueNames fs.rootCache)
    (call : FsCall) :
    (call.run fs).Mounted ∧
      UniqueNames (call.run fs).rootCache ∧ call.Acts fs := by
  cases call with
  | write name data size =>
      cases hWrite :
          writeSlot fs.rootCache (fatNormalize name) with
      | none =>
          have hCall :
              platFsWrite fs name data size.toNat =
                (-1, fs) := by
            rw [platFsWrite_reliable hMounted, hWrite]
          simp only [FsCall.Acts, FsCall.run, FsCall.code,
            hCall, table_mounted hMounted]
          exact ⟨hMounted, hUnique,
            writeActs_full (writeSlot_eq_none_iff.mp hWrite) _⟩
      | some target =>
          rcases target with ⟨slot, root⟩
          have hCall :
              platFsWrite fs name data size.toNat =
                (0, written fs (sizeSlot root slot size.toNat)
                  data size.toNat) := by
            rw [platFsWrite_reliable hMounted, hWrite]
          have hMounted' :=
            written_mounted hMounted
              (sizeSlot root slot size.toNat) data size.toNat
          simp only [FsCall.Acts, FsCall.run, FsCall.code,
            hCall, table_mounted hMounted,
            table_mounted hMounted']
          exact ⟨hMounted', hUnique.written hWrite _,
            writeActs_written hUnique hWrite size.toNat_lt⟩
  | delete name =>
      cases hFind : readSlot fs name with
      | none =>
          have hCall : platFsDelete fs name = (-1, fs) := by
            rw [platFsDelete_reliable hMounted, hFind]
          simp only [FsCall.Acts, FsCall.run, FsCall.code,
            hCall, table_mounted hMounted]
          exact ⟨hMounted, hUnique,
            fun hContra => absurd hContra (by decide),
            fun _ _ _ _ _ => Iff.rfl,
            fun _ _ _ _ => Iff.rfl⟩
      | some slot =>
          have hCall := platFsDelete_reliable hMounted name
          rw [hFind] at hCall
          dsimp only at hCall
          have hMounted' :
              (platFsDelete fs name).2.Mounted := by
            rw [hCall]
            exact ⟨hMounted.ready, hMounted.reliable⟩
          have hActs := deleteActs_deleted hUnique hFind
          have hUnique' := hUnique.deleted hFind
          simp only [FsCall.Acts, FsCall.run, FsCall.code,
            table_mounted hMounted, table_mounted hMounted']
          rw [hCall]
          exact ⟨⟨hMounted.ready, hMounted.reliable⟩,
            hUnique', hActs⟩

/- A call works on the state that `ensureReady` leaves. -/
theorem run_ensureReady
    (hDev : fs.dev.Reliable)
    (call : FsCall) :
    call.run fs = call.run (ensureReady fs).2 ∧
      call.code fs = call.code (ensureReady fs).2 := by
  cases call with
  | write name data size =>
      simp only [FsCall.run, FsCall.code]
      rw [platFsWrite_ensureReady hDev]
      exact ⟨rfl, rfl⟩
  | delete name =>
      simp only [FsCall.run, FsCall.code]
      rw [platFsDelete_ensureReady hDev]
      exact ⟨rfl, rfl⟩

/- One call from any state, with its tables loaded or not. -/
theorem run_acts
    (hDev : fs.dev.Reliable)
    (hUnique : UniqueNames fs.table)
    (call : FsCall) :
    (call.run fs).dev.Reliable ∧
      UniqueNames (call.run fs).table ∧ call.Acts fs := by
  have hMounted := ensureReady_snd_mounted hDev
  rcases run_ensureReady hDev call with ⟨hRun, hCode⟩
  rcases run_acts_mounted hMounted hUnique call with
    ⟨hMounted', hUnique', hActs⟩
  have hTable :
      (ensureReady fs).2.table = fs.table :=
    table_mounted hMounted
  refine ⟨?_, ?_, ?_⟩
  · rw [hRun]
    exact hMounted'.reliable
  · rw [hRun, table_mounted hMounted']
    exact hUnique'
  · unfold FsCall.Acts at hActs ⊢
    rw [hTable] at hActs
    rwa [hRun, hCode]

end OneCall

------------------------------------------------------------
-- Whole Runs
------------------------------------------------------------

theorem after_unique
    {fs : Fs}
    (hDev : fs.dev.Reliable)
    (hUnique : UniqueNames fs.table)
    (calls : List FsCall) :
    (fs.after calls).dev.Reliable ∧
      UniqueNames (fs.after calls).table := by
  induction calls generalizing fs with
  | nil => exact ⟨hDev, hUnique⟩
  | cons call calls ih =>
      rcases run_acts hDev hUnique call with
        ⟨hDev', hUnique', _⟩
      exact ih hDev' hUnique'

/-
  In every run of writes and deletes on a table of unique
  names, the names stay unique and every call acts on the
  table as on a map.
-/
theorem acts_after_run
    {fs : Fs}
    (hDev : fs.dev.Reliable)
    (hUnique : UniqueNames fs.table)
    (calls : List FsCall) :
    UniqueNames (fs.after calls).table ∧
      ∀ call : FsCall, call.Acts (fs.after calls) := by
  rcases after_unique hDev hUnique calls with
    ⟨hDev', hUnique'⟩
  exact ⟨hUnique', fun call =>
    (run_acts hDev' hUnique' call).2.2⟩

/- On the blank volume, after a file was written. -/
theorem acts_after_run_zeros :
    UniqueNames
        ((mountImage zeros).after
          [.write [0x41] zeros 1]).table ∧
      ∀ call : FsCall,
        call.Acts
          ((mountImage zeros).after
            [.write [0x41] zeros 1]) := by
  have hMounted := mountImage_mounted zeros
  apply acts_after_run hMounted.reliable
  rw [table_mounted hMounted, mountImage_zeros_rootCache]
  intro name83 i _ _ _ hMatch
  rw [slotMatches_of_free (by simp [slotFree])] at hMatch
  cases hMatch

------------------------------------------------------------
-- Directories
------------------------------------------------------------

/- A root table whose first slot is a directory. -/
def directoryRoot : ByteMem :=
  (zeros.storeBlock 0 11
    (ofList (fatNormalize [0x41]))).storeByte 11 0x10

def directoryDisk : Fs :=
  { mountImage zeros with rootCache := directoryRoot }

theorem directoryDisk_mounted :
    directoryDisk.Mounted :=
  ⟨(mountImage_mounted zeros).ready,
    (mountImage_mounted zeros).reliable⟩

/- No slot of the table is a live file. -/
theorem directoryRoot_absent
    (name83 : List UInt8) :
    ∀ i < 224,
      slotMatches directoryRoot name83 i = false := by
  have hSlots :
      ∀ i < 224, slotFree directoryRoot i = true ∨
        slotDirectory directoryRoot i = true := by
    decide +kernel
  intro i hi
  rcases hSlots i hi with hFree | hDirectory
  · exact slotMatches_of_free hFree name83
  · simp [slotMatches, hDirectory]

theorem directoryRoot_writeSlot :
    writeSlot directoryRoot (fatNormalize [0x41]) =
      some (1,
        nameSlot directoryRoot 1 (fatNormalize [0x41])) := by
  have hAbsent :=
    fatFindEntry_eq_none_iff.mpr
      (directoryRoot_absent (fatNormalize [0x41]))
  have hFree : fatFindFreeEntry directoryRoot = some 1 := by
    decide +kernel
  simp [writeSlot, hAbsent, hFree]

/-
  A write next to a directory of the same name succeeds and
  leaves two live entries of that name.
-/
theorem not_unique_live_directory :
    directoryDisk.dev.Reliable ∧
      UniqueNames directoryDisk.table ∧
      (platFsWrite directoryDisk [0x41] zeros 1).1 = 0 ∧
      ¬ ∃! i, i < 224 ∧
        slotFree
            (platFsWrite directoryDisk [0x41] zeros 1).2.table
            i = false ∧
        slotName
            (platFsWrite directoryDisk [0x41] zeros 1).2.table
            i =
          fatNormalize [0x41] := by
  have hMounted := directoryDisk_mounted
  have hWrite :
      writeSlot directoryDisk.rootCache
          (fatNormalize [0x41]) =
        some (1,
          nameSlot directoryRoot 1 (fatNormalize [0x41])) :=
    directoryRoot_writeSlot
  have hCall :=
    platFsWrite_reliable hMounted [0x41] zeros 1
  rw [hWrite] at hCall
  dsimp only at hCall
  rw [hCall, table_mounted (written_mounted hMounted _ _ _)]
  refine ⟨hMounted.reliable, ?_, rfl, ?_⟩
  · rw [table_mounted hMounted]
    intro name83 i _ hi _ hMatch
    rw [show directoryDisk.rootCache = directoryRoot from rfl,
      directoryRoot_absent name83 i hi] at hMatch
    cases hMatch
  · rintro ⟨i, _, hOnly⟩
    have hOther : (0 : Nat) ≠ 1 := by omega
    have hAgree :
        SlotAgree
          (sizeSlot
            (nameSlot directoryRoot 1 (fatNormalize [0x41]))
            1 1)
          directoryDisk.rootCache 0 :=
      slotAgree_written hOther hWrite
    have hMatch := slotMatches_written hWrite 1
    have hFirst :=
      hOnly 0 ⟨by omega,
        hAgree.free_eq.trans (by decide +kernel),
        hAgree.name_eq.trans (by decide +kernel)⟩
    have hSecond :=
      hOnly 1 ⟨by omega, (live_of_matches hMatch).1,
        slotName_of_matches hMatch⟩
    omega

end Storage

end AsmOS
