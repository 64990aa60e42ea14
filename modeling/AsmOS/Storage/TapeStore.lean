import Mathlib.Data.Finset.Card
import AsmOS.Storage.NameMap
import AsmOS.Storage.Remount

/-
  The file store of the HAL as a whole: one tape.

  Every write lays its data from cluster 2 on and leaves the
  file allocation table as it is.  On a disk whose files lie
  in one piece each, as the build tool leaves them, a file is
  a place and a length on the tape, and every file that is
  written moves to the start of it.

  Main declarations:
    * `TapeStore`, `FileCall`
    * `OnTape`, `onTape_step`
    * `tapeOf`, `TapeDisk`
    * `onTape_run`, `halRun_refines_tape`
-/

------------------------------------------------------------
-- The Tape
------------------------------------------------------------

namespace AsmOS

namespace Storage

open ByteMem Session

/-
  The bytes from cluster 2 on, the size and the start cluster
  of each file, and the number of slots that are left.
-/
structure TapeStore where
  bytes : ByteMem
  files : List UInt8 → Option (Nat × Nat)
  spare : Nat

/- The calls of the HAL on one file, and the mounts. -/
inductive FileCall where
| mount
| repair
| read (name : List UInt8) (buf : ByteMem) (bufSize : UInt32)
| write (name : List UInt8) (data : ByteMem) (size : UInt32)
| delete (name : List UInt8)

def FileCall.hal : FileCall → HalCall
| .mount => .init
| .repair => .repair
| .read name buf bufSize => .read name buf bufSize
| .write name data size => .write name data size
| .delete name => .delete name

namespace TapeStore

/-
  The tape from the start of the file on, as far as the piece
  of `links` clusters goes that the table has there.
-/
def read
    (links : Nat → Nat)
    (t : TapeStore)
    (name83 : List UInt8)
    (buf : ByteMem)
    (bufSize : Nat) : ReadResult :=
  match t.files name83 with
  | none => ⟨-1, buf, none⟩
  | some (size, start) =>
      let n := min (min size bufSize) (512 * links start)
      ⟨0, buf.storeBlock 0 n (t.bytes.view (512 * (start - 2))),
        some n⟩

/- Whole sectors from the start of the tape on. -/
def write
    (t : TapeStore)
    (name83 : List UInt8)
    (data : ByteMem)
    (size : Nat) : Int × TapeStore :=
  if t.files name83 = none ∧ t.spare = 0 then (-1, t)
  else
    (0,
      { bytes :=
          t.bytes.storeBlock 0 (512 * writtenSectors size)
            (padded data 0 size)
        files := Function.update t.files name83 (some (size, 2))
        spare :=
          if t.files name83 = none then t.spare - 1
          else t.spare })

def delete
    (t : TapeStore)
    (name83 : List UInt8) : Int × TapeStore :=
  if t.files name83 = none then (-1, t)
  else
    (0,
      { t with
        files := Function.update t.files name83 none
        spare := t.spare + 1 })

def call
    (links : Nat → Nat)
    (t : TapeStore) : FileCall → Reply × TapeStore
| .mount => (.code 0, t)
| .repair => (.code 0, t)
| .read name buf bufSize =>
    (.contents
        (t.read links (fatNormalize name) buf bufSize.toNat), t)
| .write name data size =>
    let out := t.write (fatNormalize name) data size.toNat
    (.code out.1, out.2)
| .delete name =>
    let out := t.delete (fatNormalize name)
    (.code out.1, out.2)

end TapeStore

------------------------------------------------------------
-- Free Slots
------------------------------------------------------------

/- The slots that a new name can take. -/
def freeSlots
    (root : ByteMem) : Finset Nat :=
  (Finset.range 224).filter fun i => slotFree root i = true

section Slots

variable {root root' : ByteMem} {slot : Nat}

theorem mem_freeSlots
    {i : Nat} :
    i ∈ freeSlots root ↔ i < 224 ∧ slotFree root i = true := by
  rw [freeSlots, Finset.mem_filter, Finset.mem_range]

/- One slot is taken. -/
theorem freeSlots_erase
    (hTaken : slotFree root' slot = false)
    (hSlots : ∀ i, i ≠ slot → SlotAgree root' root i) :
    freeSlots root' = (freeSlots root).erase slot := by
  ext i
  rw [Finset.mem_erase, mem_freeSlots, mem_freeSlots]
  by_cases hSlot : i = slot
  · subst hSlot
    simp [hTaken]
  · rw [(hSlots i hSlot).free_eq]
    simp [hSlot]

/- The slots that a write of a name leaves. -/
theorem card_freeSlots_written
    {name : List UInt8}
    (hWrite :
      writeSlot root (fatNormalize name) = some (slot, root'))
    (size : Nat) :
    (freeSlots (sizeSlot root' slot size)).card =
      if fatFindEntry root (fatNormalize name) = none then
        (freeSlots root).card - 1
      else (freeSlots root).card := by
  have hLive :=
    (live_of_matches (slotMatches_written hWrite size)).1
  rw [freeSlots_erase hLive fun i hi =>
    slotAgree_written hi hWrite]
  rcases writeSlot_cases hWrite with
    ⟨hFind, _⟩ | ⟨hAbsent, hSlot, hFree, _⟩
  · rw [if_neg (by rw [hFind]; exact Option.some_ne_none slot)]
    refine congrArg Finset.card (Finset.erase_eq_of_notMem ?_)
    intro hMem
    have hOwn := (fatFindEntry_eq_some_iff.mp hFind).2.1
    have hFree := (mem_freeSlots.mp hMem).2
    rw [(live_of_matches hOwn).1] at hFree
    cases hFree
  · rw [if_pos hAbsent]
    exact Finset.card_erase_of_mem
      (mem_freeSlots.mpr ⟨hSlot, hFree⟩)

/- A deleted file gives its slot back. -/
theorem card_freeSlots_deleted
    {name83 : List UInt8}
    (hFind : fatFindEntry root name83 = some slot) :
    (freeSlots (root.storeByte (32 * slot) 0xE5)).card =
      (freeSlots root).card + 1 := by
  rcases fatFindEntry_eq_some_iff.mp hFind with
    ⟨hSlot, hMatch, _⟩
  have hBack :=
    freeSlots_erase (live_of_matches hMatch).1
      (fun i hi => (slotAgree_deleted root slot hi).symm)
  rw [hBack]
  refine (Finset.card_erase_add_one ?_).symm
  exact mem_freeSlots.mpr ⟨hSlot, slotFree_deleted root slot⟩

end Slots

------------------------------------------------------------
-- The Files On The Tape
------------------------------------------------------------

/- The chain from a cluster is one piece of the data area. -/
structure OnePiece
    (fat : ByteMem)
    (links : Nat → Nat)
    (c : Nat) : Prop where
  chain :
    Linked.Walks (Packed12.get fat) chainStop c
      (List.range' c (links c))
  start_ge : 2 ≤ c
  end_le : c + links c ≤ 3072

/-
  The state is the tape: every file lies in one piece, and
  so do the clusters from cluster 2 on, where files move to.
-/
structure OnTape
    (links : Nat → Nat)
    (fs : Fs)
    (t : TapeStore) : Prop where
  synced : fs.Synced
  unique : UniqueNames fs.rootCache
  first : OnePiece fs.fatCache links 2
  pieces :
    ∀ name83 size start, t.files name83 = some (size, start) →
      OnePiece fs.fatCache links start
  bytes : t.bytes = fs.dev.image.view (512 * 65)
  files : t.files = nameMap fs.rootCache
  spare : t.spare = (freeSlots fs.rootCache).card

section Steps

variable {links : Nat → Nat} {fs : Fs} {t : TapeStore}

theorem OnTape.absent_iff
    (hTape : OnTape links fs t)
    (name83 : List UInt8) :
    t.files name83 = none ↔
      fatFindEntry fs.rootCache name83 = none := by
  rw [hTape.files, nameMap, Option.map_eq_none_iff]

theorem OnTape.file
    (hTape : OnTape links fs t)
    {name83 : List UInt8}
    {slot : Nat}
    (hFind : fatFindEntry fs.rootCache name83 = some slot) :
    t.files name83 =
      some (slotSize fs.rootCache slot,
        slotCluster fs.rootCache slot) := by
  rw [hTape.files, nameMap, hFind, Option.map_some]

/- Sectors one after another are one piece of the image. -/
theorem readInto_range
    (image buf : ByteMem)
    (limit n : Nat)
    {c : Nat}
    (hStart : 2 ≤ c) :
    readInto image limit (List.range' c n) 0 buf =
      buf.storeBlock 0 (min limit (512 * n))
        ((image.view (512 * 65)).view (512 * (c - 2))) := by
  funext x
  by_cases hIn : x < min limit (512 * n)
  · have hIndex : x / 512 < (List.range' c n).length := by
      rw [List.length_range']
      omega
    have hByte :
        readInto image limit (List.range' c n) 0 buf
            (0 + 512 * (x / 512) + x % 512) =
          imageByte image (List.range' c n)[x / 512] (x % 512) :=
      readInto_inside _ _ hIndex (Nat.mod_lt x (by omega))
        (by omega)
    have hPlace :
        512 * (63 + (c + 1 * (x / 512))) + x % 512 =
          512 * 65 + (512 * (c - 2) + (x - 0)) := by
      omega
    rw [show 0 + 512 * (x / 512) + x % 512 = x by omega,
      List.getElem_range'] at hByte
    rw [hByte, storeBlock_inside (Nat.zero_le x) (by omega),
      imageByte, view_apply, view_apply, hPlace]
  · rw [storeBlock_outside (by omega), readInto_outside]
    rw [List.length_range']
    omega

/- The clusters that a read visits lie in the piece. -/
theorem OnePiece.visited
    {fat : ByteMem}
    {c : Nat}
    (hPiece : OnePiece fat links c)
    (n : Nat) :
    Storage.visited fat n c =
      List.range' c (min n (links c)) := by
  unfold Storage.visited
  rw [hPiece.chain.path_eq_take]
  rcases Nat.le_total (links c) n with hLong | hShort
  · rw [List.take_range'_of_length_le hLong, min_eq_right hLong]
  · rw [List.take_range'_of_length_ge hShort, min_eq_left hShort]

/- The read of a file gives its piece of the tape. -/
theorem OnTape.platFsRead
    (hTape : OnTape links fs t)
    (name : List UInt8)
    (buf : ByteMem)
    (bufSize : Nat) :
    ∃ ops,
      Storage.platFsRead fs name buf bufSize =
        some (t.read links (fatNormalize name) buf bufSize,
          { fs with dev := fs.dev.issued ops }) := by
  rw [platFsRead_reliable hTape.synced.toMounted]
  cases hFind : readSlot fs name with
  | none =>
      refine ⟨[], ?_⟩
      unfold TapeStore.read
      rw [(hTape.absent_iff _).mpr hFind]
      rfl
  | some slot =>
      have hFile := hTape.file hFind
      have hPiece := hTape.pieces _ _ _ hFile
      have hStart := hPiece.start_ge
      have hEnd := hPiece.end_le
      have hClusters := hPiece.visited
        (sectorCount (readLimit fs slot bufSize))
      have hDefined : ReadDefined fs slot bufSize := by
        unfold ReadDefined readClusters
        rw [hClusters]
        refine ⟨?_, fun c hc => ?_⟩
        · rw [List.length_range', readFuel]
          omega
        · rw [List.mem_range'_1] at hc
          unfold linkInCache
          omega
      have hCount :
          ∀ limit n : Nat,
            min limit (512 * min (sectorCount limit) n) =
              min limit (512 * n) := by
        intro limit n
        unfold sectorCount
        omega
      refine ⟨clusterReads (readClusters fs slot bufSize), ?_⟩
      dsimp only
      rw [if_pos hDefined]
      unfold readOutcome TapeStore.read readClusters
      rw [hClusters, hFile]
      dsimp only
      rw [readInto_range _ _ _ _ hStart, List.length_range',
        hCount, hTape.bytes]
      rfl

/- A mount of the state finds it as it is. -/
theorem OnTape.issued
    (hTape : OnTape links fs t)
    (ops : List SectorOp) :
    OnTape links { fs with dev := fs.dev.issued ops } t where
  synced := hTape.synced.issued ops
  unique := hTape.unique
  first := hTape.first
  pieces := hTape.pieces
  bytes := hTape.bytes
  files := hTape.files
  spare := hTape.spare

/- The tape after a write, with the table next to it. -/
theorem view_writtenImage
    (image root data : ByteMem)
    (size : Nat) :
    (writtenImage image root data size).view (512 * 65) =
      (image.view (512 * 65)).storeBlock 0
        (512 * writtenSectors size) (padded data 0 size) := by
  funext x
  unfold writtenImage
  rw [view_apply, storeBlock_outside (by omega)]
  by_cases hIn : x < 512 * writtenSectors size
  · rw [storeBlock_inside (by omega) (by omega),
      storeBlock_inside (Nat.zero_le x) (by omega),
      Nat.add_sub_cancel_left, Nat.sub_zero]
  · rw [storeBlock_outside (by omega),
      storeBlock_outside (by omega), view_apply]

/- A write goes to the start of the tape. -/
theorem OnTape.platFsWrite
    (hTape : OnTape links fs t)
    (name : List UInt8)
    (data : ByteMem)
    (size : Nat)
    (hSize : size < 2 ^ 32) :
    (Storage.platFsWrite fs name data size).1 =
        (t.write (fatNormalize name) data size).1 ∧
      OnTape links (Storage.platFsWrite fs name data size).2
        (t.write (fatNormalize name) data size).2 := by
  have hMounted := hTape.synced.toMounted
  have hAbsent := hTape.absent_iff (fatNormalize name)
  cases hWrite : writeSlot fs.rootCache (fatNormalize name) with
  | none =>
      have hFull := writeSlot_eq_none_iff.mp hWrite
      have hNoName :=
        hAbsent.mpr (fatFindEntry_eq_none_iff.mpr hFull.absent)
      have hNoSlot : t.spare = 0 := by
        rw [hTape.spare, Finset.card_eq_zero,
          Finset.eq_empty_iff_forall_notMem]
        intro i hi
        rcases mem_freeSlots.mp hi with ⟨hLt, hFree⟩
        rw [hFull.occupied i hLt] at hFree
        cases hFree
      rw [platFsWrite_none hMounted hWrite]
      unfold TapeStore.write
      rw [if_pos ⟨hNoName, hNoSlot⟩]
      exact ⟨rfl, hTape⟩
  | some target =>
      rcases target with ⟨slot, root⟩
      have hRoom :
          ¬ (t.files (fatNormalize name) = none ∧
            t.spare = 0) := by
        rintro ⟨hNoName, hNoSlot⟩
        rcases writeSlot_cases hWrite with
          ⟨hFind, _⟩ | ⟨_, hSlot, hFree, _⟩
        · rw [hAbsent.mp hNoName] at hFind
          cases hFind
        · rw [hTape.spare, Finset.card_eq_zero] at hNoSlot
          have hMem := mem_freeSlots.mpr ⟨hSlot, hFree⟩
          rw [hNoSlot] at hMem
          cases hMem
      rw [platFsWrite_some hMounted hWrite]
      unfold TapeStore.write
      rw [if_neg hRoom]
      refine ⟨rfl, written_synced hTape.synced _ _ _,
        hTape.unique.written hWrite size, hTape.first, ?_, ?_, ?_,
        ?_⟩
      · intro other size' start hFile
        dsimp only at hFile
        by_cases hName : other = fatNormalize name
        · subst hName
          rw [Function.update_self] at hFile
          cases hFile
          exact hTape.first
        · rw [Function.update_of_ne hName] at hFile
          exact hTape.pieces other size' start hFile
      · dsimp only
        rw [hTape.bytes]
        exact (view_writtenImage _ _ _ _).symm
      · dsimp only
        rw [hTape.files]
        exact (nameMap_write hTape.unique hWrite hSize).symm
      · change _ = (freeSlots (sizeSlot root slot size)).card
        rw [card_freeSlots_written hWrite, ← hTape.spare]
        exact if_congr hAbsent rfl rfl

/- A delete leaves the tape as it is. -/
theorem OnTape.platFsDelete
    (hTape : OnTape links fs t)
    (name : List UInt8) :
    (Storage.platFsDelete fs name).1 =
        (t.delete (fatNormalize name)).1 ∧
      OnTape links (Storage.platFsDelete fs name).2
        (t.delete (fatNormalize name)).2 := by
  have hMounted := hTape.synced.toMounted
  have hAbsent := hTape.absent_iff (fatNormalize name)
  unfold TapeStore.delete
  cases hFind : readSlot fs name with
  | none =>
      rw [platFsDelete_none hMounted hFind,
        if_pos (hAbsent.mpr hFind)]
      exact ⟨rfl, hTape⟩
  | some slot =>
      have hSome : ¬ t.files (fatNormalize name) = none := by
        rw [hTape.file hFind]
        exact Option.some_ne_none _
      rw [platFsDelete_eq_written hMounted hFind, if_neg hSome]
      refine ⟨rfl, written_synced hTape.synced _ _ _,
        hTape.unique.deleted hFind, hTape.first, ?_, ?_, ?_, ?_⟩
      · intro other size start hFile
        dsimp only at hFile
        by_cases hName : other = fatNormalize name
        · subst hName
          rw [Function.update_self] at hFile
          cases hFile
        · rw [Function.update_of_ne hName] at hFile
          exact hTape.pieces other size start hFile
      · dsimp only
        rw [hTape.bytes]
        refine Eq.trans ?_ (view_writtenImage _ _ zeros 0).symm
        rw [show writtenSectors 0 = 0 from rfl, Nat.mul_zero,
          storeBlock_zero]
      · dsimp only
        rw [hTape.files]
        exact (nameMap_delete hTape.unique hFind).symm
      · change t.spare + 1 =
          (freeSlots (fs.rootCache.storeByte _ _)).card
        rw [card_freeSlots_deleted hFind, hTape.spare]

/- Every call answers as the tape does, and stays on it. -/
theorem onTape_step
    (hTape : OnTape links fs t)
    (call : FileCall) :
    ∃ fs', call.hal.run fs = some ((t.call links call).1, fs') ∧
      OnTape links fs' (t.call links call).2 := by
  cases call with
  | mount =>
      refine ⟨_, ?_, hTape.issued (readOps 33 9 ++ readOps 51 14)⟩
      change some (Reply.code (platFsInit fs).1, _) = _
      rw [platFsInit_of_synced hTape.synced]
      rfl
  | repair =>
      refine ⟨_, ?_, hTape.issued (readOps 33 9 ++ readOps 51 14)⟩
      change some (Reply.code (platFsRepair fs).1, _) = _
      rw [platFsRepair_reliable hTape.synced.reliable,
        platFsInit_of_synced hTape.synced]
      rfl
  | read name buf bufSize =>
      rcases hTape.platFsRead name buf bufSize.toNat with
        ⟨ops, hRead⟩
      refine ⟨_, ?_, hTape.issued ops⟩
      change Option.map _ (Storage.platFsRead _ _ _ _) = _
      rw [hRead]
      rfl
  | write name data size =>
      rcases hTape.platFsWrite name data size.toNat size.toNat_lt
        with ⟨hCode, hNext⟩
      refine ⟨_, ?_, hNext⟩
      change some (Reply.code _, _) = some (Reply.code _, _)
      rw [hCode]
  | delete name =>
      rcases hTape.platFsDelete name with ⟨hCode, hNext⟩
      refine ⟨_, ?_, hNext⟩
      change some (Reply.code _, _) = some (Reply.code _, _)
      rw [hCode]

end Steps

------------------------------------------------------------
-- Disks
------------------------------------------------------------

/- What a disk is on the tape. -/
def tapeOf
    (image : ByteMem) : TapeStore where
  bytes := image.view (512 * 65)
  files := nameMap (rootOf image)
  spare := (freeSlots (rootOf image)).card

/- The files of the disk lie in one piece each. -/
structure TapeDisk
    (links : Nat → Nat)
    (image : ByteMem) : Prop where
  unique : UniqueNames (rootOf image)
  first : OnePiece (fatOf image) links 2
  pieces :
    ∀ name83 size start,
      nameMap (rootOf image) name83 = some (size, start) →
        OnePiece (fatOf image) links start

section Mounting

variable {root root' : ByteMem}

theorem nameMap_agree
    (hRoot : AgreeOn root root' 0 7168) :
    nameMap root = nameMap root' := by
  funext name83
  unfold nameMap
  rw [fatFindEntry_agree hRoot]
  cases hFind : fatFindEntry root' name83 with
  | none => rfl
  | some i =>
      have hSlot := (fatFindEntry_eq_some_iff.mp hFind).1
      have hAgree : SlotAgree root root' i :=
        hRoot.mono (by omega) (by omega)
      rw [Option.map_some, Option.map_some, hAgree.size_eq,
        hAgree.cluster_eq]

theorem freeSlots_agree
    (hRoot : AgreeOn root root' 0 7168) :
    freeSlots root = freeSlots root' := by
  refine Finset.filter_congr fun i hi => ?_
  have hSlot : i < 224 := Finset.mem_range.mp hi
  have hAgree : SlotAgree root root' i :=
    hRoot.mono (by omega) (by omega)
  rw [hAgree.free_eq]

theorem UniqueNames.agree
    (hUnique : UniqueNames root)
    (hRoot : AgreeOn root root' 0 7168) :
    UniqueNames root' := by
  intro name83 i j hi hj hFirst hSecond
  have hAgree : ∀ k < 224, SlotAgree root root' k :=
    fun k hk => hRoot.mono (by omega) (by omega)
  rw [← (hAgree i hi).matches_eq] at hFirst
  rw [← (hAgree j hj).matches_eq] at hSecond
  exact hUnique name83 i j hi hj hFirst hSecond

/- The table is what its 4608 bytes are. -/
theorem OnePiece.agree
    {fat fat' : ByteMem}
    {links : Nat → Nat}
    {c : Nat}
    (hPiece : OnePiece fat links c)
    (hFat : AgreeOn fat fat' 0 4608) :
    OnePiece fat' links c where
  chain := by
    refine hPiece.chain.congr fun d hd => ?_
    rw [List.mem_range'_1] at hd
    have hEnd := hPiece.end_le
    refine Packed12.get_congr hFat (Nat.zero_le _) ?_
    unfold Packed12.offset
    omega
  start_ge := hPiece.start_ge
  end_le := hPiece.end_le

/- A disk is on the tape as soon as it is mounted. -/
theorem TapeDisk.mounted
    {links : Nat → Nat}
    {dev : Device}
    (hDisk : TapeDisk links dev.image)
    (hDev : dev.Reliable) :
    OnTape links (platFsInit (Fs.start dev)).2
      (tapeOf dev.image) := by
  have hSynced : (platFsInit (Fs.start dev)).2.Synced :=
    platFsInit_synced hDev
  have hImage :
      (platFsInit (Fs.start dev)).2.dev.image = dev.image := by
    rw [platFsInit_reliable hDev]
    rfl
  have hRoot := hSynced.root
  have hFat := hSynced.fat
  rw [hImage] at hRoot hFat
  exact
    { synced := hSynced
      unique := hDisk.unique.agree hRoot
      first := hDisk.first.agree hFat
      pieces := fun name83 size start hFile =>
        (hDisk.pieces name83 size start hFile).agree hFat
      bytes := by rw [hImage]; rfl
      files := nameMap_agree hRoot
      spare := by rw [← freeSlots_agree hRoot]; rfl }

/- A run has the replies of the tape and stays on it. -/
theorem onTape_run
    {links : Nat → Nat}
    {fs : Fs}
    {t : TapeStore}
    (hTape : OnTape links fs t)
    (calls : List FileCall) :
    ∃ fs', fs.replies (calls.map FileCall.hal) =
        some ((answers (TapeStore.call links) t calls).1, fs') ∧
      OnTape links fs'
        (answers (TapeStore.call links) t calls).2 := by
  have hStep :
      ∀ fs t (call : FileCall), OnTape links fs t →
        ∃ fs', call.hal.run fs =
            some ((t.call links call).1, fs') ∧
          OnTape links fs' (t.call links call).2 :=
    fun fs t call hTape => onTape_step hTape call
  exact replies_simulation hStep hTape calls

/-
  From power-on, every run of calls has the replies of the
  tape: each read gives the bytes that the last writes left
  from the start of the file on, and no call is undefined.
-/
theorem halRun_refines_tape
    {links : Nat → Nat}
    {dev : Device}
    (hDev : dev.Reliable)
    (hDisk : TapeDisk links dev.image)
    (calls : List FileCall) :
    ((Fs.start dev).replies (calls.map FileCall.hal)).map
        Prod.fst =
      some (answers (TapeStore.call links) (tapeOf dev.image)
        calls).1 := by
  rw [← (start_steady hDev).replies_init]
  rcases onTape_run (hDisk.mounted hDev) calls with ⟨fs, hRun, _⟩
  rw [hRun]
  rfl

/- The disk that a run leaves is on the tape again. -/
theorem OnTape.disk
    {links : Nat → Nat}
    {fs : Fs}
    {t : TapeStore}
    (hTape : OnTape links fs t) :
    TapeDisk links fs.dev.image ∧ tapeOf fs.dev.image = t := by
  have hRoot := hTape.synced.root
  have hFat := hTape.synced.fat
  have hFiles : nameMap (rootOf fs.dev.image) = t.files :=
    (nameMap_agree hRoot).trans hTape.files.symm
  refine ⟨⟨hTape.unique.agree hRoot.symm,
    hTape.first.agree hFat.symm, ?_⟩, ?_⟩
  · intro name83 size start hFile
    rw [hFiles] at hFile
    exact (hTape.pieces name83 size start hFile).agree hFat.symm
  · unfold tapeOf
    rw [hFiles, freeSlots_agree hRoot, ← hTape.bytes,
      ← hTape.spare]

end Mounting

------------------------------------------------------------
-- What A Write Leaves
------------------------------------------------------------

/- A write that succeeds puts its sectors on the tape. -/
theorem TapeStore.write_done
    {t : TapeStore}
    {name83 : List UInt8}
    {data : ByteMem}
    {size : Nat}
    (hDone : (t.write name83 data size).1 = 0) :
    (t.write name83 data size).2.bytes =
      t.bytes.storeBlock 0 (512 * writtenSectors size)
        (padded data 0 size) := by
  unfold TapeStore.write at hDone ⊢
  by_cases hFull : t.files name83 = none ∧ t.spare = 0
  · rw [if_pos hFull] at hDone
    have hFailed : ¬ (-1 : Int) = 0 := by decide
    exact absurd hDone hFailed
  · rw [if_neg hFull]

end Storage

end AsmOS
