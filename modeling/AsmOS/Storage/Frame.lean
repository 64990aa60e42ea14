import AsmOS.Storage.RoundTrip

/-
  What a write does to the other files.

  A write stores its data from cluster 2 on whatever the
  table says, so it keeps another file exactly when the
  clusters that the other file's read visits already hold
  the bytes it stores there.

  Main declarations:
    * `KeepsFile`
    * `Untouched`, `OutsideWrite`
    * `keepsFile_data_iff`
    * `forall_untouched_iff`
    * `keepsFile_iff`
    * `untouched_of_disjoint`
-/

------------------------------------------------------------
-- Statements
------------------------------------------------------------

namespace AsmOS

namespace Storage

open ByteMem

/-
  Contents that a read of `b` returns before the write of
  `a` are returned by the same read after it.
-/
def KeepsFile
    (fs : Fs)
    (a : List UInt8)
    (data : ByteMem)
    (size : Nat)
    (b : List UInt8)
    (buf : ByteMem)
    (bufSize : Nat) : Prop :=
  ∀ result fs',
    platFsRead fs b buf bufSize = some (result, fs') →
      result.rc = 0 →
        ∃ fs'',
          platFsRead (platFsWrite fs a data size).2 b buf
              bufSize = some (result, fs'')

/-
  The bytes that a read of slot `i` copies are those that a
  write of `data` with directory `root` leaves there.
-/
def Untouched
    (fs : Fs)
    (i bufSize : Nat)
    (root data : ByteMem)
    (size : Nat) : Prop :=
  ∀ (k : Nat) (c : Nat),
    (readClusters fs i bufSize)[k]? = some c →
      ∀ j < 512, 512 * k + j < readLimit fs i bufSize →
        writtenByte fs.dev.image root data size c j =
          imageByte fs.dev.image c j

/-
  No cluster that a read of slot `i` visits is written by a
  write of `size` bytes; where the read follows the table
  into clusters 0 and 1, which alias root sectors, the new
  directory `root` has the old bytes.
-/
structure OutsideWrite
    (fs : Fs)
    (i bufSize : Nat)
    (root : ByteMem)
    (size : Nat) : Prop where
  data :
    ∀ c ∈ readClusters fs i bufSize,
      c < 2 ∨ writtenSectors size + 2 ≤ c
  directory :
    ∀ (k : Nat) (c : Nat),
      (readClusters fs i bufSize)[k]? = some c → c < 2 →
        ∀ j < 512, 512 * k + j < readLimit fs i bufSize →
          root (512 * (12 + c) + j) =
            imageByte fs.dev.image c j

------------------------------------------------------------
-- The Other File's Slot
------------------------------------------------------------

section OtherSlot

variable {fs : Fs} {a b : List UInt8} {root data : ByteMem}
variable {slot i size bufSize : Nat}

theorem readSlot_written_of_ne
    (hNe : fatNormalize a ≠ fatNormalize b)
    (hWrite :
      writeSlot fs.rootCache (fatNormalize a) =
        some (slot, root))
    (data : ByteMem)
    (size : Nat) :
    readSlot (written fs (sizeSlot root slot size) data size)
        b =
      readSlot fs b :=
  findEntry_written_of_ne (fatNormalize_length a) hNe.symm
    hWrite

/- The write of `a` does not use the slot of `b`. -/
theorem readSlot_ne_writeSlot
    (hNe : fatNormalize a ≠ fatNormalize b)
    (hWrite :
      writeSlot fs.rootCache (fatNormalize a) =
        some (slot, root))
    (hRead : readSlot fs b = some i) :
    i ≠ slot := by
  rintro rfl
  have hMatch := (fatFindEntry_eq_some_iff.mp hRead).2.1
  rcases writeSlot_cases hWrite with
    ⟨hFind, _⟩ | ⟨_, _, hFree, _⟩
  · have hOwn := (fatFindEntry_eq_some_iff.mp hFind).2.1
    exact hNe ((slotName_of_matches hOwn).symm.trans
      (slotName_of_matches hMatch))
  · rw [slotMatches_of_free hFree] at hMatch
    simp at hMatch

theorem readLimit_written_of_ne
    (hSlot : i ≠ slot)
    (hWrite :
      writeSlot fs.rootCache (fatNormalize a) =
        some (slot, root)) :
    readLimit (written fs (sizeSlot root slot size) data size)
        i bufSize =
      readLimit fs i bufSize := by
  unfold readLimit
  congr 1
  exact (slotAgree_written hSlot hWrite).size_eq

theorem readClusters_written_of_ne
    (hSlot : i ≠ slot)
    (hWrite :
      writeSlot fs.rootCache (fatNormalize a) =
        some (slot, root)) :
    readClusters
        (written fs (sizeSlot root slot size) data size)
        i bufSize =
      readClusters fs i bufSize := by
  unfold readClusters
  rw [readLimit_written_of_ne hSlot hWrite]
  congr 1
  exact (slotAgree_written hSlot hWrite).cluster_eq

/- The two reads of a slot agree exactly on `Untouched`. -/
theorem readOutcome_written_of_ne_iff
    (hSlot : i ≠ slot)
    (hWrite :
      writeSlot fs.rootCache (fatNormalize a) =
        some (slot, root))
    (buf : ByteMem) :
    readOutcome
          (written fs (sizeSlot root slot size) data size)
          i buf bufSize =
        readOutcome fs i buf bufSize ↔
      Untouched fs i bufSize (sizeSlot root slot size) data
        size := by
  simp only [readOutcome,
    readClusters_written_of_ne hSlot hWrite,
    readLimit_written_of_ne hSlot hWrite,
    ReadResult.mk.injEq, true_and, and_true,
    readInto_eq_iff, Nat.zero_add]
  unfold Untouched
  constructor
  · intro hBytes k c hGet j hj hLimit
    rcases List.getElem?_eq_some_iff.mp hGet with
      ⟨hk, rfl⟩
    rw [← imageByte_writtenImage _ _ _ _ _ _ hj]
    exact hBytes k hk j hj hLimit
  · intro hBytes k hk j hj hLimit
    rw [← hBytes k _ (List.getElem?_eq_getElem hk) j hj
      hLimit]
    exact imageByte_writtenImage _ _ _ _ _ _ hj

end OtherSlot

------------------------------------------------------------
-- The Exact Condition
------------------------------------------------------------

/-
  With a slot for each name, the write keeps the other file
  exactly when its read is undefined or untouched.
-/
theorem keepsFile_slot_iff
    {fs : Fs}
    (hMounted : fs.Mounted)
    {a b : List UInt8}
    (hNe : fatNormalize a ≠ fatNormalize b)
    (data : ByteMem)
    (size : Nat)
    (buf : ByteMem)
    (bufSize : Nat)
    {slot i : Nat}
    {root : ByteMem}
    (hWrite :
      writeSlot fs.rootCache (fatNormalize a) =
        some (slot, root))
    (hRead : readSlot fs b = some i) :
    KeepsFile fs a data size b buf bufSize ↔
      (ReadDefined fs i bufSize →
        Untouched fs i bufSize (sizeSlot root slot size) data
          size) := by
  have hSlot := readSlot_ne_writeSlot hNe hWrite hRead
  unfold KeepsFile
  rw [platFsWrite_reliable hMounted, hWrite]
  simp only
  rw [platFsRead_reliable hMounted,
    platFsRead_reliable (written_mounted hMounted _ _ _),
    readSlot_written_of_ne hNe hWrite, hRead]
  simp only
  have hDefinedIff :
      ReadDefined
          (written fs (sizeSlot root slot size) data size)
          i bufSize ↔
        ReadDefined fs i bufSize := by
    unfold ReadDefined
    rw [readClusters_written_of_ne hSlot hWrite]
  by_cases hDefined : ReadDefined fs i bufSize
  · rw [if_pos hDefined, if_pos (hDefinedIff.mpr hDefined),
      ← readOutcome_written_of_ne_iff hSlot hWrite buf]
    constructor
    · intro hKeeps _
      rcases hKeeps _ _ rfl rfl with ⟨_, hSame⟩
      exact (Prod.mk.inj (Option.some.inj hSame)).1
    · intro hSame result fs' hBefore _
      cases hBefore
      exact ⟨_, by rw [hSame hDefined]⟩
  · rw [if_neg hDefined]
    constructor
    · intro _ hContra
      exact absurd hContra hDefined
    · intro _ result fs' hBefore
      simp at hBefore

/-
  A write keeps another file exactly when there is no slot
  for it, or the other file's read is undefined, or the
  bytes which that read copies are the ones the write leaves
  in the visited clusters.
-/
theorem keepsFile_data_iff
    {fs : Fs}
    (hMounted : fs.Mounted)
    {a b : List UInt8}
    (hNe : fatNormalize a ≠ fatNormalize b)
    (data : ByteMem)
    (size : Nat)
    (buf : ByteMem)
    (bufSize : Nat) :
    KeepsFile fs a data size b buf bufSize ↔
      ∀ slot root i,
        writeSlot fs.rootCache (fatNormalize a) =
            some (slot, root) →
          readSlot fs b = some i →
            ReadDefined fs i bufSize →
              Untouched fs i bufSize (sizeSlot root slot size)
                data size := by
  cases hWrite :
    writeSlot fs.rootCache (fatNormalize a) with
  | none =>
      simp only [KeepsFile, platFsWrite_reliable hMounted,
        hWrite, reduceCtorEq, false_implies, implies_true,
        iff_true]
      intro result fs' hBefore _
      exact ⟨fs', hBefore⟩
  | some target =>
      rcases target with ⟨slot, root⟩
      cases hRead : readSlot fs b with
      | none =>
          simp only [KeepsFile,
            platFsRead_reliable hMounted, hRead,
            reduceCtorEq, false_implies, implies_true,
            iff_true]
          intro result fs' hBefore hRc
          cases hBefore
          simp at hRc
      | some i =>
          rw [keepsFile_slot_iff hMounted hNe data size buf
            bufSize hWrite hRead]
          constructor
          · rintro hKeeps _ _ _ hEq hEq'
            cases hEq
            cases hEq'
            exact hKeeps
          · intro hKeeps
            exact hKeeps slot root i rfl rfl

/- Every visited cluster holds a byte that the read copies. -/
theorem readClusters_limit
    {fs : Fs}
    {i bufSize k c : Nat}
    (hGet : (readClusters fs i bufSize)[k]? = some c) :
    512 * k < readLimit fs i bufSize := by
  rcases List.getElem?_eq_some_iff.mp hGet with ⟨hk, _⟩
  have hLength :
      (readClusters fs i bufSize).length ≤
        sectorCount (readLimit fs i bufSize) :=
    Linked.path_length_le _ _
  unfold sectorCount at hLength
  omega

/- A file is untouched by all data when it lies outside. -/
theorem forall_untouched_iff
    (fs : Fs)
    (i bufSize : Nat)
    (root : ByteMem)
    (size : Nat) :
    (∀ data, Untouched fs i bufSize root data size) ↔
      OutsideWrite fs i bufSize root size := by
  constructor
  · intro hUntouched
    refine ⟨?_, ?_⟩
    · intro c hMember
      by_contra hInside
      rcases List.getElem?_of_mem hMember with ⟨k, hGet⟩
      have hLimit := readClusters_limit hGet
      -- Two buffers leave different first bytes.
      have hZero :=
        hUntouched (fun _ => 0) k c hGet 0 (by omega)
          (by omega)
      have hOne :=
        hUntouched (fun _ => 1) k c hGet 0 (by omega)
          (by omega)
      have hData : 512 * (c - 2) + 0 < size := by
        unfold writtenSectors sectorCount at hInside
        omega
      have hByte :
          ∀ v : UInt8,
            writtenByte fs.dev.image root (fun _ => v) size c
              0 = v := by
        intro v
        rw [writtenByte, if_neg (by omega), if_pos (by omega),
          padded, if_pos hData]
      rw [hByte] at hZero hOne
      rw [← hZero] at hOne
      simp at hOne
    · intro k c hGet hRoot j hj hLimit
      have hByte := hUntouched zeros k c hGet j hj hLimit
      rw [writtenByte, if_pos hRoot] at hByte
      exact hByte
  · rintro ⟨hData, hDirectory⟩ data k c hGet j hj hLimit
    unfold writtenByte
    by_cases hRoot : c < 2
    · rw [if_pos hRoot]
      exact hDirectory k c hGet hRoot j hj hLimit
    · have hPast := hData c (List.mem_of_getElem? hGet)
      rw [if_neg hRoot, if_neg (by omega)]

/-
  A write of `data` keeps another file exactly when there is
  no slot for it, or the other file's read is undefined, or
  the bytes which that read copies are the ones the write
  leaves in the visited clusters; and writes of a size keep
  it whatever the data exactly when that read stays outside
  the written clusters.
-/
theorem keepsFile_iff
    {fs : Fs}
    (hMounted : fs.Mounted)
    {a b : List UInt8}
    (hNe : fatNormalize a ≠ fatNormalize b)
    (size : Nat)
    (buf : ByteMem)
    (bufSize : Nat) :
    (∀ data,
      KeepsFile fs a data size b buf bufSize ↔
        ∀ slot root i,
          writeSlot fs.rootCache (fatNormalize a) =
              some (slot, root) →
            readSlot fs b = some i →
              ReadDefined fs i bufSize →
                Untouched fs i bufSize
                  (sizeSlot root slot size) data size) ∧
    ((∀ data, KeepsFile fs a data size b buf bufSize) ↔
      ∀ slot root i,
        writeSlot fs.rootCache (fatNormalize a) =
            some (slot, root) →
          readSlot fs b = some i →
            ReadDefined fs i bufSize →
              OutsideWrite fs i bufSize
                (sizeSlot root slot size) size) := by
  have hEach :
      ∀ data,
        KeepsFile fs a data size b buf bufSize ↔
          ∀ slot root i,
            writeSlot fs.rootCache (fatNormalize a) =
                some (slot, root) →
              readSlot fs b = some i →
                ReadDefined fs i bufSize →
                  Untouched fs i bufSize
                    (sizeSlot root slot size) data size :=
    fun data =>
      keepsFile_data_iff hMounted hNe data size buf bufSize
  refine ⟨hEach, ?_⟩
  simp only [hEach, ← forall_untouched_iff]
  constructor
  · intro hKeeps slot root i hWrite hRead hDefined data
    exact hKeeps data slot root i hWrite hRead hDefined
  · intro hKeeps data slot root i hWrite hRead hDefined
    exact hKeeps slot root i hWrite hRead hDefined data

/-
  A file whose visited clusters all lie past the written
  ones is untouched, whatever the data.
-/
theorem untouched_of_disjoint
    {fs : Fs}
    {i bufSize size : Nat}
    (hDisjoint :
      ∀ c ∈ readClusters fs i bufSize,
        writtenSectors size + 2 ≤ c)
    (root data : ByteMem) :
    Untouched fs i bufSize root data size := by
  intro k c hGet j _ _
  have hPast :=
    hDisjoint c (List.mem_of_getElem? hGet)
  rw [writtenByte, if_neg (by omega), if_neg (by omega)]

------------------------------------------------------------
-- Two One-Sector Files
------------------------------------------------------------

/- The disk of a blank image after "B" was written. -/
def oneFile : Fs :=
  (platFsWrite (mountImage zeros) [0x42] zeros 1).2

theorem oneFile_eq :
    oneFile =
      written (mountImage zeros)
        (sizeSlot (nameSlot zeros 0 (fatNormalize [0x42])) 0
          1) zeros 1 := by
  rw [oneFile, platFsWrite_reliable (mountImage_mounted _),
    mountImage_zeros_rootCache, writeSlot_zeros]

theorem oneFile_mounted :
    oneFile.Mounted := by
  rw [oneFile_eq]
  exact written_mounted (mountImage_mounted _) _ _ _

theorem oneFile_readSlot :
    readSlot oneFile [0x42] = some 0 := by
  rw [oneFile_eq, readSlot_written (by
    rw [mountImage_zeros_rootCache]
    exact writeSlot_zeros _)]

theorem oneFile_readClusters :
    readClusters oneFile 0 1 = [2] := by
  rw [oneFile_eq, readClusters_written
    (by norm_num [dataAreaBytes]) (Nat.le_refl 1),
    mountImage_zeros_fatCache]
  decide

theorem oneFile_readLimit :
    readLimit oneFile 0 1 = 1 := by
  rw [oneFile_eq]
  exact readLimit_written (by norm_num [dataAreaBytes])
    (Nat.le_refl 1)

theorem oneFile_imageByte :
    imageByte oneFile.dev.image 2 0 = 0 := by
  rw [oneFile_eq]
  refine (imageByte_writtenImage _ _ _ _ _ _
    (by omega)).trans ?_
  decide

/- The next new name goes to the second slot. -/
theorem oneFile_writeSlot :
    writeSlot oneFile.rootCache (fatNormalize [0x41]) =
      some (1, nameSlot oneFile.rootCache 1
        (fatNormalize [0x41])) := by
  have hRoot :
      oneFile.rootCache =
        sizeSlot (nameSlot zeros 0 (fatNormalize [0x42])) 0
          1 := by
    rw [oneFile_eq]
    rfl
  have hFree : slotFree zeros 0 = true := by
    simp [slotFree]
  have hAbsent :
      fatFindEntry oneFile.rootCache (fatNormalize [0x41]) =
        none := by
    rw [hRoot, fatFindEntry_sizeSlot,
      fatFindEntry_nameSlot_of_ne hFree (by simp) (by decide),
      fatFindEntry_eq_none_iff]
    exact fun i _ =>
      slotMatches_of_free (by simp [slotFree]) _
  have hFirst :
      fatFindFreeEntry oneFile.rootCache = some 1 := by
    rw [hRoot, fatFindFreeEntry_eq_some_iff]
    refine ⟨by omega, ?_, ?_⟩
    · rw [slotFree_sizeSlot,
        (nameSlot_agree zeros 0 (by omega)).free_eq]
      simp [slotFree]
    · intro i hi
      have hZero : i = 0 := by omega
      subst hZero
      rw [slotFree_sizeSlot, slotFree_nameSlot]
      decide
  simp [writeSlot, hAbsent, hFirst]

/- Writing "A" replaces the contents of "B". -/
theorem not_keepsFile_oneFile :
    ¬ KeepsFile oneFile [0x41] (fun _ => 1) 1 [0x42] zeros
      1 := by
  rw [keepsFile_slot_iff oneFile_mounted (by decide) _ _ _ _
    oneFile_writeSlot oneFile_readSlot]
  intro hKeeps
  have hDefined : ReadDefined oneFile 0 1 := by
    unfold ReadDefined
    rw [oneFile_readClusters]
    decide
  have hByte :=
    hKeeps hDefined 0 2 (by rw [oneFile_readClusters]; rfl) 0
      (by omega) (by rw [oneFile_readLimit]; omega)
  rw [oneFile_imageByte] at hByte
  simp [writtenByte, writtenSectors, sectorCount, padded]
    at hByte

/- Writing "A" with no data keeps "B". -/
theorem keepsFile_oneFile_empty :
    KeepsFile oneFile [0x41] zeros 0 [0x42] zeros 1 := by
  refine ((keepsFile_iff oneFile_mounted (by decide) 0
    zeros 1).1 zeros).mpr ?_
  intro slot root i _ hRead _
  rw [oneFile_readSlot] at hRead
  cases hRead
  apply untouched_of_disjoint
  rw [oneFile_readClusters]
  decide

end Storage

end AsmOS
