import Mathlib.Tactic.Common
import AsmOS.Storage.PlatFiles

/-
  The file copies of the storage, save and memory-card
  commands.

  Each reads its source into a buffer of its own size and
  writes what it got.  A source longer than the buffer is
  cut, and the copy still reports success.

  Main declarations:
    * `copyVia`
    * `storageCopy`, `saveManagerClone`
    * `mcExport`, `mcClone`
    * `CompleteOrFails`, `copies_complete_iff`
-/

------------------------------------------------------------
-- The Copies
------------------------------------------------------------

namespace AsmOS

namespace Storage

variable {σ : Type}

/- Read into a buffer, then write what was read. -/
def copyVia
    (fs : PlatFs σ)
    (bufSize : Nat)
    (s : σ)
    (src dst : List UInt8) : Int × σ :=
  match fs.read s src bufSize with
  | none => (-1, s)
  | some buf => fs.write s dst buf

/- `storage_copy`; a missing name is a null pointer. -/
def storageCopy
    (fs : PlatFs σ)
    (s : σ)
    (src dst : Option (List UInt8)) : Int × σ :=
  match src, dst with
  | some src, some dst =>
      match copyVia fs 8192 s src dst with
      | (rc, s) => (if rc ≠ 0 then -1 else 0, s)
  | _, _ => (-1, s)

/- `storage_snapshot_backup`. -/
def storageSnapshotBackup
    (fs : PlatFs σ)
    (s : σ)
    (sourcePath backupPath : Option (List UInt8)) : Int × σ :=
  storageCopy fs s sourcePath backupPath

/-
  `SLOT`, the slot's digit and `.SAV`, as a C string: the
  digit is a `char`, and a zero one ends the string.
-/
def slotFile
    (slot : Int32) : List UInt8 :=
  [0x53, 0x4C, 0x4F, 0x54,
    UInt8.ofNat ((48 + slot.toInt) % 256).toNat, 0x2E, 0x53,
    0x41, 0x56].takeWhile fun c => c ≠ 0

/- `save_manager_clone`. -/
def saveManagerClone
    (fs : PlatFs σ)
    (s : σ)
    (slotDest slotSrc : Int32) : Int × σ :=
  copyVia fs 4096 s (slotFile slotSrc) (slotFile slotDest)

/- `mc_export`. -/
def mcExport
    (fs : PlatFs σ)
    (s : σ)
    (filename saveName : Option (List UInt8)) : Int × σ :=
  match filename, saveName with
  | some filename, some saveName =>
      copyVia fs 4096 s saveName filename
  | _, _ => (-1, s)

/- `"SLOT0.SAV"` -/
def slot0File : List UInt8 :=
  [0x53, 0x4C, 0x4F, 0x54, 0x30, 0x2E, 0x53, 0x41, 0x56]

/- `"SLOT1.SAV"` -/
def slot1File : List UInt8 :=
  [0x53, 0x4C, 0x4F, 0x54, 0x31, 0x2E, 0x53, 0x41, 0x56]

/- `mc_clone`, which does not look at its slots. -/
def mcClone
    (fs : PlatFs σ)
    (s : σ)
    (_slotSrc _slotDst : Int32) : Int × σ :=
  copyVia fs 512 s slot0File slot1File

theorem slotFile_zero :
    slotFile 0 = slot0File := by
  decide

theorem slotFile_one :
    slotFile 1 = slot1File := by
  decide

------------------------------------------------------------
-- Complete Copies
------------------------------------------------------------

/-
  When the call `out` from state `s` succeeds, the file `dst`
  has the contents that the file `src` had.
-/
def CompleteOrFails
    (fs : PlatFs σ)
    (s : σ)
    (src dst : List UInt8)
    (out : Int × σ) : Prop :=
  ∀ data, fs.files s src = some data → out.1 = 0 →
    fs.files out.2 dst = some data

/- The write of a cut source to `dst` is refused. -/
def Refused
    (fs : PlatFs σ)
    (s : σ)
    (dst buf : List UInt8) : Prop :=
  (fs.write s dst buf).1 ≠ 0

/-
  The source, if there is one, fits the buffer, or the disk
  refuses the cut copy of it.
-/
def Fits
    (fs : PlatFs σ)
    (bufSize : Nat)
    (s : σ)
    (src dst : List UInt8) : Prop :=
  ∀ data, fs.files s src = some data →
    data.length ≤ bufSize ∨
      Refused fs s dst (data.take bufSize)

section Copies

variable {fs : PlatFs σ}
variable {s : σ}
variable {src dst data : List UInt8}
variable {bufSize : Nat}

theorem copyVia_file
    (hFile : fs.files s src = some data) :
    copyVia fs bufSize s src dst =
      fs.write s dst (data.take bufSize) := by
  simp only [copyVia, fs.read_file s src data bufSize hFile]

theorem copyVia_missing
    (hFile : fs.files s src = none) :
    copyVia fs bufSize s src dst = (-1, s) := by
  simp only [copyVia, fs.read_missing s src bufSize hFile]

/- A copy is complete or fails exactly when it fits. -/
theorem copyVia_complete_iff :
    CompleteOrFails fs s src dst
        (copyVia fs bufSize s src dst) ↔
      Fits fs bufSize s src dst := by
  constructor
  · intro hComplete data hFile
    by_cases hDone :
        (fs.write s dst (data.take bufSize)).1 = 0
    · refine Or.inl ?_
      have hWhole := hComplete data hFile
      rw [copyVia_file hFile] at hWhole
      have hSame := hWhole hDone
      rw [PlatFs.files_write_self hDone] at hSame
      have hTake := congrArg List.length (Option.some.inj hSame)
      rw [List.length_take] at hTake
      omega
    · exact Or.inr hDone
  · intro hFits data hFile hDone
    rw [copyVia_file hFile] at hDone ⊢
    rcases hFits data hFile with hShort | hRefused
    · rw [PlatFs.files_write_self hDone,
        List.take_of_length_le hShort]
    · exact absurd hDone hRefused

theorem storageCopy_complete_iff :
    CompleteOrFails fs s src dst
        (storageCopy fs s (some src) (some dst)) ↔
      Fits fs 8192 s src dst := by
  rw [← copyVia_complete_iff]
  -- Only the failure code differs from the plain copy.
  have hCode :
      (storageCopy fs s (some src) (some dst)).1 = 0 ↔
        (copyVia fs 8192 s src dst).1 = 0 := by
    simp only [storageCopy]
    split
    · omega
    · omega
  unfold CompleteOrFails
  simp only [hCode]
  rfl

/- What the call writes, whatever slots it is given. -/
theorem mcClone_complete_iff
    (slotSrc slotDst : Int32) :
    CompleteOrFails fs s (slotFile slotSrc)
        (slotFile slotDst) (mcClone fs s slotSrc slotDst) ↔
      ∀ data first,
        fs.files s (slotFile slotSrc) = some data →
          fs.files s slot0File = some first →
            Refused fs s slot1File (first.take 512) ∨
              (if slotFile slotDst = slot1File then
                  some (first.take 512)
                else fs.files s (slotFile slotDst)) =
                some data := by
  unfold mcClone
  constructor
  · intro hComplete data first hFile hFirst
    by_cases hDone :
        (fs.write s slot1File (first.take 512)).1 = 0
    · refine Or.inr ?_
      have hWhole := hComplete data hFile
      rw [copyVia_file hFirst] at hWhole
      rw [← hWhole hDone, PlatFs.files_write hDone]
    · exact Or.inl hDone
  · intro hFits data hFile hDone
    cases hFirst : fs.files s slot0File with
    | none =>
        rw [copyVia_missing hFirst] at hDone
        exact absurd hDone (by simp)
    | some first =>
        rw [copyVia_file hFirst] at hDone ⊢
        rcases hFits data first hFile hFirst with
          hRefused | hKept
        · exact absurd hDone hRefused
        · rw [← hKept, PlatFs.files_write hDone]

end Copies

/-
  The copies of files by name and of save slots are complete
  or fail exactly when the source fits their buffer; the copy
  of memory-card slots exactly when what it always does
  happens to be what its slots ask for.
-/
theorem copies_complete_iff
    (fs : PlatFs σ)
    (s : σ)
    (src dst : List UInt8)
    (slotSrc slotDst : Int32) :
    (CompleteOrFails fs s src dst
        (storageCopy fs s (some src) (some dst)) ↔
      Fits fs 8192 s src dst) ∧
      (CompleteOrFails fs s src dst
          (storageSnapshotBackup fs s (some src) (some dst)) ↔
        Fits fs 8192 s src dst) ∧
      (CompleteOrFails fs s (slotFile slotSrc)
          (slotFile slotDst)
          (saveManagerClone fs s slotDst slotSrc) ↔
        Fits fs 4096 s (slotFile slotSrc)
          (slotFile slotDst)) ∧
      (CompleteOrFails fs s src dst
          (mcExport fs s (some dst) (some src)) ↔
        Fits fs 4096 s src dst) ∧
      (CompleteOrFails fs s (slotFile slotSrc)
          (slotFile slotDst) (mcClone fs s slotSrc slotDst) ↔
        ∀ data first,
          fs.files s (slotFile slotSrc) = some data →
            fs.files s slot0File = some first →
              Refused fs s slot1File (first.take 512) ∨
                (if slotFile slotDst = slot1File then
                    some (first.take 512)
                  else fs.files s (slotFile slotDst)) =
                  some data) :=
  ⟨storageCopy_complete_iff, storageCopy_complete_iff,
    copyVia_complete_iff, copyVia_complete_iff,
    mcClone_complete_iff slotSrc slotDst⟩

/- Two files of 8193 bytes on a disk that takes every write. -/
def longFiles :
    List UInt8 → Option (List UInt8) :=
  fun name =>
    if name = [0x41] ∨ name = slot0File then
      some (List.replicate 8193 0x41)
    else
      none

theorem not_fits_longFiles
    {bufSize : Nat}
    (hBuf : bufSize ≤ 8192)
    {src dst : List UInt8}
    (hSrc : src = [0x41] ∨ src = slot0File) :
    ¬ Fits mapFs bufSize longFiles src dst := by
  intro hFits
  rcases hFits _ (if_pos hSrc) with hShort | hRefused
  · rw [List.length_replicate] at hShort
    omega
  · exact hRefused (mapFs_total _ _ _)

/- Every one of the copies reports success on a cut file. -/
theorem not_complete_longFiles :
    ¬ CompleteOrFails mapFs longFiles [0x41] [0x42]
        (storageCopy mapFs longFiles (some [0x41])
          (some [0x42])) ∧
      ¬ CompleteOrFails mapFs longFiles [0x41] [0x42]
        (storageSnapshotBackup mapFs longFiles (some [0x41])
          (some [0x42])) ∧
      ¬ CompleteOrFails mapFs longFiles (slotFile 0)
        (slotFile 1) (saveManagerClone mapFs longFiles 1 0) ∧
      ¬ CompleteOrFails mapFs longFiles [0x41] [0x42]
        (mcExport mapFs longFiles (some [0x42])
          (some [0x41])) ∧
      ¬ CompleteOrFails mapFs longFiles (slotFile 0)
        (slotFile 1) (mcClone mapFs longFiles 0 1) := by
  refine ⟨?_, ?_, ?_, ?_, ?_⟩
  · rw [storageCopy_complete_iff]
    exact not_fits_longFiles (by omega) (Or.inl rfl)
  · unfold storageSnapshotBackup
    rw [storageCopy_complete_iff]
    exact not_fits_longFiles (by omega) (Or.inl rfl)
  · unfold saveManagerClone
    rw [copyVia_complete_iff, slotFile_zero]
    exact not_fits_longFiles (by omega) (Or.inr rfl)
  · unfold mcExport
    rw [copyVia_complete_iff]
    exact not_fits_longFiles (by omega) (Or.inl rfl)
  · unfold mcClone
    rw [slotFile_zero, slotFile_one, copyVia_complete_iff]
    exact not_fits_longFiles (by omega) (Or.inr rfl)

end Storage

end AsmOS
