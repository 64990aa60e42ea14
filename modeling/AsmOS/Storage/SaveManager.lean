import AsmOS.Storage.BuiltDisk
import AsmOS.Storage.CopyTools
import AsmOS.Storage.NameSplit

/-
  The save manager (`src/save_manager.c`) on the files of the
  HAL.

  A backup writes a block of 4096 bytes, and a restore reads
  one back.  The HAL lays every file that it writes at the
  start of the tape and finds it there as far as the first
  piece goes.

  Main declarations:
    * `SaveManager`, `SaveCall`, `saveCall`
    * `saveManagerBackup`, `saveManagerRestore`
    * `fatNormalize_copyStr`
    * `Saved`, `saveCall_keeps`
    * `saveSession_restores`, `builtDisk_saves`
-/

------------------------------------------------------------
-- State
------------------------------------------------------------

namespace AsmOS

namespace Storage

open ByteMem Session

/- The static variables, but for the slots nothing reads. -/
structure SaveManager where
  backupBuf : ByteMem
  backupName : List UInt8
  backupSize : Nat
  backupVersion : UInt32

/- `SAVE_BACKUP_SIZE`. -/
abbrev saveBackupSize : Nat := 4096

/- `save_manager_init`; the buffer is as it was. -/
def saveManagerInit
    (buf : ByteMem) : SaveManager where
  backupBuf := buf
  backupName := []
  backupSize := 0
  backupVersion := 0

/- `copy_str`: the text as far as it fits. -/
def copyStr
    (src : List UInt8)
    (maxLen : Nat) : List UInt8 :=
  (src.take (maxLen - 1)).takeWhile fun c => c ≠ 0

/- `!name[0]`. -/
def noName
    (name : List UInt8) : Bool :=
  name.headD 0 = 0

/- The bytes that a backup fills its block with. -/
def savePattern : ByteMem :=
  fun i => UInt8.ofNat i

------------------------------------------------------------
-- Calls
------------------------------------------------------------

/- `save_manager_backup`; a missing name is a null pointer. -/
def saveManagerBackup
    (m : SaveManager)
    (fs : Fs)
    (destName : Option (List UInt8)) : Int × SaveManager × Fs :=
  match destName with
  | none => (-1, m, fs)
  | some destName =>
      if noName destName then
        (-1, m, fs)
      else
        let m : SaveManager :=
          { backupName := copyStr destName 32
            backupVersion := m.backupVersion + 1
            backupSize := saveBackupSize
            backupBuf :=
              m.backupBuf.storeBlock 0 saveBackupSize
                savePattern }
        match platFsWrite fs m.backupName m.backupBuf
            m.backupSize with
        | (rc, fs) => (if rc ≠ 0 then -1 else 0, m, fs)

/-
  `save_manager_restore`; nothing, when the read does not end
  or leaves the table.
-/
def saveManagerRestore
    (m : SaveManager)
    (fs : Fs)
    (fromName : Option (List UInt8)) :
    Option (Int × SaveManager × Fs) :=
  let src :=
    match fromName with
    | none => m.backupName
    | some fromName =>
        if noName fromName then m.backupName else fromName
  if noName src then
    some (-1, m, fs)
  else
    (platFsRead fs src m.backupBuf saveBackupSize).map fun out =>
      if out.1.rc ≠ 0 then
        (-1, { m with backupBuf := out.1.buf }, out.2)
      else
        (0,
          { m with
            backupBuf := out.1.buf
            backupSize := out.1.outSize.getD 0
            backupName := copyStr src 32 },
          out.2)

/- `save_manager_clone`, over the buffer of the manager. -/
def saveManagerCloneFiles
    (m : SaveManager)
    (fs : Fs)
    (slotDest slotSrc : Int32) :
    Option (Int × SaveManager × Fs) :=
  (platFsRead fs (slotFile slotSrc) m.backupBuf
      saveBackupSize).map fun out =>
    let m := { m with backupBuf := out.1.buf }
    if out.1.rc ≠ 0 then
      (-1, m, out.2)
    else
      let result :=
        platFsWrite out.2 (slotFile slotDest) m.backupBuf
          (out.1.outSize.getD 0)
      (result.1, m, result.2)

/- `save_manager_rollback`. -/
def saveManagerRollback
    (m : SaveManager)
    (fs : Fs)
    (versionIndex : Int32) :
    Option (Int × SaveManager × Fs) :=
  if versionIndex ≠ 1 ∨ noName m.backupName then
    some (-1, m, fs)
  else
    saveManagerRestore m fs (some m.backupName)

/- The commands; only a clone looks at its slots. -/
inductive SaveCall where
| backup (destName : Option (List UInt8))
| restore (fromName : Option (List UInt8))
| clone (slotDest slotSrc : Int32)
| rollback (versionIndex : Int32)

def saveCall
    (s : SaveManager × Fs) :
    SaveCall → Option (Int × SaveManager × Fs)
| .backup destName => some (saveManagerBackup s.1 s.2 destName)
| .restore fromName => saveManagerRestore s.1 s.2 fromName
| .clone slotDest slotSrc =>
    saveManagerCloneFiles s.1 s.2 slotDest slotSrc
| .rollback versionIndex =>
    saveManagerRollback s.1 s.2 versionIndex

/- The system after power-on, with its volume mounted. -/
def saveStart
    (dev : Device)
    (buf : ByteMem) : SaveManager × Fs :=
  (saveManagerInit buf, (platFsInit (Fs.start dev)).2)

------------------------------------------------------------
-- Names
------------------------------------------------------------

/- The cut of a name does not reach what is looked up. -/
theorem fatNormalize_copyStr
    (name : List UInt8) :
    fatNormalize (copyStr name 32) = fatNormalize name := by
  have hText :
      nameText (copyStr name 32) = (nameText name).take 31 := by
    unfold nameText copyStr
    rw [List.takeWhile_takeWhile, List.take_takeWhile]
    simp
  have hField :
      ∀ text : List UInt8,
        upperField 3 (skipDot (text.take 31)) =
          upperField 3 (skipDot text) := by
    intro text
    have hTake :
        (skipDot (text.take 31)).take 3 =
          (skipDot text).take 3 := by
      cases text with
      | nil => rfl
      | cons c text =>
          rw [List.take_succ_cons, skipDot, skipDot]
          split
          · rw [List.take_take, Nat.min_eq_left (by decide)]
          · rw [List.take_succ_cons, List.take_succ_cons,
              List.take_take, Nat.min_eq_left (by decide)]
    unfold upperField
    rw [hTake]
  rw [fatNormalize_text, fatNormalize_text, hText, hField]

------------------------------------------------------------
-- Calls On The Tape
------------------------------------------------------------

section Tape

variable {links : Nat → Nat} {fs : Fs} {t : TapeStore}

variable {m : SaveManager}

/- A backup that returns 0 is a write of the tape. -/
theorem saveManagerBackup_onTape
    (hTape : OnTape links fs t)
    (m : SaveManager)
    {name : List UInt8}
    (hName : noName name = false) :
    let out := saveManagerBackup m fs (some name)
    let block :=
      m.backupBuf.storeBlock 0 saveBackupSize savePattern
    let write :=
      t.write (fatNormalize name) block saveBackupSize
    OnTape links out.2.2 write.2 ∧ (out.1 = 0 ↔ write.1 = 0) := by
  have hWrite :=
    hTape.platFsWrite (copyStr name 32)
      (m.backupBuf.storeBlock 0 saveBackupSize savePattern)
      saveBackupSize (by decide)
  rw [fatNormalize_copyStr] at hWrite
  unfold saveManagerBackup
  simp only [hName, Bool.false_eq_true, if_false]
  refine ⟨hWrite.2, ?_⟩
  rw [← hWrite.1]
  split_ifs with hFailed
  · exact ⟨fun hMinus => absurd hMinus (by decide),
      fun hZero => absurd hZero hFailed⟩
  · exact ⟨fun _ => not_not.mp hFailed, fun _ => rfl⟩

/- A write that is refused leaves the tape. -/
theorem TapeStore.write_refused
    {key : List UInt8}
    {data : ByteMem}
    {size : Nat}
    (hRefused : (t.write key data size).1 ≠ 0) :
    (t.write key data size).2 = t := by
  unfold TapeStore.write at hRefused ⊢
  by_cases hFull : t.files key = none ∧ t.spare = 0
  · rw [if_pos hFull]
  · rw [if_neg hFull] at hRefused
    exact absurd rfl hRefused

theorem TapeStore.write_files
    {key : List UInt8}
    {data : ByteMem}
    {size : Nat}
    (hDone : (t.write key data size).1 = 0) :
    (t.write key data size).2.files =
      Function.update t.files key (some (size, 2)) := by
  unfold TapeStore.write at hDone ⊢
  by_cases hFull : t.files key = none ∧ t.spare = 0
  · rw [if_pos hFull] at hDone
    have hFailed : ¬ (-1 : Int) = 0 := by decide
    exact absurd hDone hFailed
  · rw [if_neg hFull]

/- The block of a backup is on the tape as it is. -/
theorem TapeStore.write_block
    {key : List UInt8}
    {block : ByteMem}
    (hDone : (t.write key block saveBackupSize).1 = 0)
    {x : Nat}
    (hx : x < saveBackupSize) :
    (t.write key block saveBackupSize).2.bytes x = block x := by
  have hSectors : writtenSectors saveBackupSize = 8 := by decide
  rw [write_done hDone, hSectors,
    storeBlock_inside (Nat.zero_le x) (by omega), Nat.sub_zero,
    padded, if_pos hx, Nat.zero_add]

/- A restore leaves the tape. -/
theorem saveManagerRestore_onTape
    (hTape : OnTape links fs t)
    (m : SaveManager)
    (fromName : Option (List UInt8)) :
    ∃ rc m' fs', saveManagerRestore m fs fromName =
        some (rc, m', fs') ∧
      OnTape links fs' t := by
  unfold saveManagerRestore
  generalize
    (match fromName with
      | none => m.backupName
      | some fromName =>
          if noName fromName then m.backupName
          else fromName) = src
  dsimp only
  by_cases hName : noName src = true
  · rw [if_pos hName]
    exact ⟨-1, m, fs, rfl, hTape⟩
  · rcases hTape.platFsRead src m.backupBuf saveBackupSize with
      ⟨ops, hRead⟩
    rw [if_neg hName, hRead, Option.map_some]
    split_ifs
    · exact ⟨_, _, _, rfl, hTape.issued ops⟩
    · exact ⟨_, _, _, rfl, hTape.issued ops⟩

theorem saveManagerRollback_onTape
    (hTape : OnTape links fs t)
    (m : SaveManager)
    (versionIndex : Int32) :
    ∃ rc m' fs', saveManagerRollback m fs versionIndex =
        some (rc, m', fs') ∧
      OnTape links fs' t := by
  unfold saveManagerRollback
  split_ifs
  · exact ⟨-1, m, fs, rfl, hTape⟩
  · exact saveManagerRestore_onTape hTape m _

/- What a read of the tape counts. -/
theorem TapeStore.read_size
    (links : Nat → Nat)
    (t : TapeStore)
    (key : List UInt8)
    (buf : ByteMem)
    (bufSize : Nat) :
    ((t.read links key buf bufSize).outSize.getD 0) ≤
      bufSize := by
  unfold TapeStore.read
  cases t.files key with
  | none => exact Nat.zero_le _
  | some file => exact le_trans (min_le_left _ _) (min_le_right _ _)

theorem saveManagerClone_onTape
    (hTape : OnTape links fs t)
    (m : SaveManager)
    (slotDest slotSrc : Int32) :
    ∃ rc m' fs' t', saveManagerCloneFiles m fs slotDest slotSrc =
        some (rc, m', fs') ∧
      OnTape links fs' t' := by
  rcases hTape.platFsRead (slotFile slotSrc) m.backupBuf
      saveBackupSize with
    ⟨ops, hRead⟩
  have hSize :=
    TapeStore.read_size links t (fatNormalize (slotFile slotSrc))
      m.backupBuf saveBackupSize
  unfold saveManagerCloneFiles
  rw [hRead, Option.map_some]
  dsimp only
  generalize
    t.read links (fatNormalize (slotFile slotSrc)) m.backupBuf
      saveBackupSize = out at hSize ⊢
  split_ifs
  · exact ⟨_, _, _, t, rfl, hTape.issued ops⟩
  · have hWrite :=
      (hTape.issued ops).platFsWrite (slotFile slotDest) out.buf
        (out.outSize.getD 0) (by
          have hBlock : saveBackupSize < 2 ^ 32 := by decide
          omega)
    exact ⟨_, _, _, _, rfl, hWrite.2⟩

/- Every call ends, and the files stay on a tape. -/
theorem saveCall_onTape
    (hTape : OnTape links fs t)
    (m : SaveManager)
    (call : SaveCall) :
    ∃ rc m' fs' t', saveCall (m, fs) call =
        some (rc, m', fs') ∧
      OnTape links fs' t' := by
  cases call with
  | backup destName =>
      cases destName with
      | none => exact ⟨-1, m, fs, t, rfl, hTape⟩
      | some name =>
          by_cases hName : noName name = true
          · refine ⟨-1, m, fs, t, ?_, hTape⟩
            change some (saveManagerBackup m fs (some name)) = _
            unfold saveManagerBackup
            simp only [hName, if_true]
          · have hWrite :=
              saveManagerBackup_onTape hTape m
                (Bool.eq_false_iff.mpr hName)
            exact ⟨_, _, _, _, rfl, hWrite.1⟩
  | restore fromName =>
      rcases saveManagerRestore_onTape hTape m fromName with
        ⟨rc, m', fs', hCall, hNext⟩
      exact ⟨rc, m', fs', t, hCall, hNext⟩
  | clone slotDest slotSrc =>
      exact saveManagerClone_onTape hTape m slotDest slotSrc
  | rollback versionIndex =>
      rcases saveManagerRollback_onTape hTape m versionIndex with
        ⟨rc, m', fs', hCall, hNext⟩
      exact ⟨rc, m', fs', t, hCall, hNext⟩

theorem saveSession_onTape
    (hTape : OnTape links fs t)
    (m : SaveManager)
    (calls : List SaveCall) :
    ∃ rcs m' fs' t', replies saveCall (m, fs) calls =
        some (rcs, m', fs') ∧
      OnTape links fs' t' := by
  induction calls generalizing m fs t with
  | nil => exact ⟨[], m, fs, t, rfl, hTape⟩
  | cons call calls ih =>
      rcases saveCall_onTape hTape m call with
        ⟨rc, m', fs', t', hCall, hNext⟩
      rcases ih hNext m' with ⟨rcs, m'', fs'', t'', hRest, hLast⟩
      exact ⟨rc :: rcs, m'', fs'', t'',
        replies_cons_eq_some_iff.mpr
          ⟨rc, (m', fs'), rcs, hCall, hRest, rfl⟩, hLast⟩

end Tape

------------------------------------------------------------
-- What A Backup Leaves
------------------------------------------------------------

/- The block of a backup is at the start of the tape, and the
   file of the name is the one that lies there. -/
def Saved
    (links : Nat → Nat)
    (key : List UInt8)
    (fs : Fs) : Prop :=
  ∃ t, OnTape links fs t ∧
    t.files key = some (saveBackupSize, 2) ∧
    ∀ x < saveBackupSize, t.bytes x = savePattern x

def SaveCall.isClone : SaveCall → Bool
| .clone _ _ => true
| _ => false

section Kept

variable {links : Nat → Nat} {fs : Fs} {key : List UInt8}

variable {m : SaveManager}

/- The block on the tape after a backup is that of all. -/
theorem backup_block
    {t : TapeStore}
    {name : List UInt8}
    (hDone :
      (t.write name
        (m.backupBuf.storeBlock 0 saveBackupSize savePattern)
        saveBackupSize).1 = 0)
    {x : Nat}
    (hx : x < saveBackupSize) :
    (t.write name
        (m.backupBuf.storeBlock 0 saveBackupSize savePattern)
        saveBackupSize).2.bytes x = savePattern x := by
  rw [TapeStore.write_block hDone hx,
    storeBlock_inside (Nat.zero_le x) (by omega), Nat.sub_zero]

theorem saveManagerBackup_saved
    {t : TapeStore}
    (hTape : OnTape links fs t)
    {name : List UInt8}
    (hName : noName name = false)
    (hDone : (saveManagerBackup m fs (some name)).1 = 0) :
    Saved links (fatNormalize name)
      (saveManagerBackup m fs (some name)).2.2 := by
  have hBackup := saveManagerBackup_onTape hTape m hName
  have hWrite := hBackup.2.mp hDone
  refine ⟨_, hBackup.1, ?_, fun x hx => backup_block hWrite hx⟩
  rw [TapeStore.write_files hWrite, Function.update_self]

/- Another backup puts the same block there. -/
theorem Saved.backup
    (hSaved : Saved links key fs)
    (m : SaveManager)
    (destName : Option (List UInt8)) :
    Saved links key (saveManagerBackup m fs destName).2.2 := by
  cases destName with
  | none => exact hSaved
  | some name =>
      by_cases hName : noName name = true
      · unfold saveManagerBackup
        simp only [hName, if_true]
        exact hSaved
      · rw [Bool.not_eq_true] at hName
        rcases hSaved with ⟨t, hTape, hFile, hBytes⟩
        have hBackup := saveManagerBackup_onTape hTape m hName
        refine ⟨_, hBackup.1, ?_⟩
        by_cases hDone :
            (t.write (fatNormalize name)
              (m.backupBuf.storeBlock 0 saveBackupSize
                savePattern)
              saveBackupSize).1 = 0
        · refine ⟨?_, fun x hx => backup_block hDone hx⟩
          rw [TapeStore.write_files hDone,
            Function.update_apply]
          split_ifs
          · rfl
          · exact hFile
        · rw [TapeStore.write_refused hDone]
          exact ⟨hFile, hBytes⟩

/- Calls that are no clones keep what a backup left. -/
theorem saveCall_keeps
    (hSaved : Saved links key fs)
    (m : SaveManager)
    {call : SaveCall}
    (hCall : call.isClone = false) :
    ∃ rc m' fs', saveCall (m, fs) call = some (rc, m', fs') ∧
      Saved links key fs' := by
  cases call with
  | backup destName =>
      exact ⟨_, _, _, rfl, hSaved.backup m destName⟩
  | restore fromName =>
      rcases hSaved with ⟨t, hTape, hKept⟩
      rcases saveManagerRestore_onTape hTape m fromName with
        ⟨rc, m', fs', hRun, hNext⟩
      exact ⟨rc, m', fs', hRun, t, hNext, hKept⟩
  | clone slotDest slotSrc => cases hCall
  | rollback versionIndex =>
      rcases hSaved with ⟨t, hTape, hKept⟩
      rcases saveManagerRollback_onTape hTape m versionIndex with
        ⟨rc, m', fs', hRun, hNext⟩
      exact ⟨rc, m', fs', hRun, t, hNext, hKept⟩

theorem saveSession_keeps
    (hSaved : Saved links key fs)
    (m : SaveManager)
    {calls : List SaveCall}
    (hCalls : ∀ call ∈ calls, call.isClone = false) :
    ∃ rcs m' fs', replies saveCall (m, fs) calls =
        some (rcs, m', fs') ∧
      Saved links key fs' := by
  induction calls generalizing m fs with
  | nil => exact ⟨[], m, fs, rfl, hSaved⟩
  | cons call calls ih =>
      rw [List.forall_mem_cons] at hCalls
      rcases saveCall_keeps hSaved m hCalls.1 with
        ⟨rc, m', fs', hCall, hNext⟩
      rcases ih hNext m' hCalls.2 with
        ⟨rcs, m'', fs'', hRest, hLast⟩
      exact ⟨rc :: rcs, m'', fs'',
        replies_cons_eq_some_iff.mpr
          ⟨rc, (m', fs'), rcs, hCall, hRest, rfl⟩, hLast⟩

/- A restore of the name reads the block from the tape. -/
theorem Saved.restore
    {name : List UInt8}
    (hSaved : Saved links (fatNormalize name) fs)
    (hName : noName name = false)
    (m : SaveManager) :
    ∃ m' fs', saveManagerRestore m fs (some name) =
        some (0, m', fs') ∧
      m'.backupSize = min saveBackupSize (512 * links 2) ∧
      ∀ x < m'.backupSize, m'.backupBuf x = savePattern x := by
  rcases hSaved with ⟨t, hTape, hFile, hBytes⟩
  rcases hTape.platFsRead name m.backupBuf saveBackupSize with
    ⟨ops, hRead⟩
  have hContents :
      t.read links (fatNormalize name) m.backupBuf
          saveBackupSize =
        ⟨0,
          m.backupBuf.storeBlock 0
            (min saveBackupSize (512 * links 2))
            (t.bytes.view (512 * (2 - 2))),
          some (min saveBackupSize (512 * links 2))⟩ := by
    unfold TapeStore.read
    rw [hFile]
    dsimp only
    rw [Nat.min_self]
  unfold saveManagerRestore
  simp only [hName, Bool.false_eq_true, if_false]
  rw [hRead, hContents, Option.map_some]
  refine ⟨_, _, rfl, rfl, fun x hx => ?_⟩
  change x < min saveBackupSize (512 * links 2) at hx
  change storeBlock _ _ _ _ x = _
  rw [storeBlock_inside (Nat.zero_le x) (by omega), view_apply,
    Nat.sub_self, Nat.mul_zero, Nat.zero_add, Nat.sub_zero,
    hBytes x (by omega)]

end Kept

/-
  A backup with this name that succeeds after some commands
  can be restored behind others, up to a number of bytes, and
  all of these calls return.
-/
def Restorable
    (start : SaveManager × Fs)
    (before between : List SaveCall)
    (name : List UInt8)
    (size : Nat) : Prop :=
  ∃ rcs u rc v,
    replies saveCall start before = some (rcs, u) ∧
      saveCall u (.backup (some name)) = some (rc, v) ∧
      (rc = 0 →
        ∃ rcs' w m fs,
          replies saveCall v between = some (rcs', w) ∧
            saveCall w (.restore (some name)) =
              some (0, m, fs) ∧
            m.backupSize = size ∧
            ∀ x < size, m.backupBuf x = savePattern x)

/- Nothing but a clone comes between. -/
theorem saveSession_restores
    {links : Nat → Nat}
    {dev : Device}
    (hDev : dev.Reliable)
    (hDisk : TapeDisk links dev.image)
    (buf : ByteMem)
    (before : List SaveCall)
    {between : List SaveCall}
    (hBetween : ∀ call ∈ between, call.isClone = false)
    {name : List UInt8}
    (hName : noName name = false) :
    Restorable (saveStart dev buf) before between name
      (min saveBackupSize (512 * links 2)) := by
  rcases saveSession_onTape (hDisk.mounted hDev)
      (saveManagerInit buf) before with
    ⟨rcs, m, fs, t, hBefore, hTape⟩
  refine ⟨rcs, (m, fs), _, _, hBefore, rfl, fun hDone => ?_⟩
  have hSaved := saveManagerBackup_saved hTape hName hDone
  rcases saveSession_keeps hSaved _ hBetween with
    ⟨rcs', m', fs', hRest, hKept⟩
  rcases hKept.restore hName m' with
    ⟨m'', fs'', hRestore, hSize, hBlock⟩
  rw [hSize] at hBlock
  exact ⟨rcs', (m', fs'), m'', fs'', hRest, hRestore, hSize,
    hBlock⟩

end Storage

namespace FatPut

open ByteMem Bytearray Storage

/-
  On the disk that the tool builds from some files, a backup
  that succeeds can be restored behind any backups, restores
  and rollbacks, up to the end of the clusters of the first
  file.
-/
theorem builtDisk_saves
    {img : List UInt8}
    (hImg : img.length = imageBytes)
    (hBlank :
      ∀ x, 512 * 33 ≤ x → x < imageBytes →
        ofList img x = 0)
    {first : InstallFile}
    {files : List InstallFile}
    (hNames : ((first :: files).map InstallFile.name).Nodup)
    (hSlots : (first :: files).length ≤ 224)
    (hRoom : totalClusters (first :: files) ≤ 2815) :
    ∃ img',
      main img ((first :: files).map InstallFile.args) =
          .ok img' ∧
        ∀ buf before between name,
          (∀ call ∈ between, SaveCall.isClone call = false) →
            noName name = false →
              Restorable
                (saveStart (Device.ofImage (ofList img')) buf)
                before between name
                (min 4096 (512 * first.clusterCount)) := by
  have hSome : first :: files ≠ [] := List.cons_ne_nil _ _
  rcases main_ready hImg hBlank hSome hSlots hRoom with
    ⟨img', s, hMain, _, _, hMounts, hReady, hInstalled⟩
  have hBuilt : Built (ofList img') s (first :: files) :=
    ⟨hMounts, hReady, hInstalled, hNames, hSlots, hRoom⟩
  have hDisk := tapeDisk_built hBuilt hSome
  refine ⟨img', hMain, fun buf before between name hCalls hName =>
    ?_⟩
  have hLinks : builtLinks 2 (first :: files) 2 =
      first.clusterCount :=
    if_pos rfl
  have hRestores :=
    saveSession_restores (Device.ofImage_reliable _) hDisk buf
      before hCalls hName
  rw [hLinks] at hRestores
  exact hRestores

/- A backup, another one and a rollback, then a restore. -/
theorem builtDisk_saves_sample :
    ∃ img',
      main (List.replicate imageBytes 0) [sampleFile.args] =
          .ok img' ∧
        Restorable
          (saveStart (Device.ofImage (ofList img')) zeros)
          [.clone 0 1]
          [.backup (some [0x42]), .rollback 1] [0x41]
          (min 4096 (512 * sampleFile.clusterCount)) := by
  have hBlank :
      ∀ x, 512 * 33 ≤ x → x < imageBytes →
        ofList (List.replicate imageBytes 0) x = 0 := by
    intro x _ _
    rw [ofList_replicate_zero]
    rfl
  have hNames : ([sampleFile].map InstallFile.name).Nodup := by
    simp
  have hSlots : [sampleFile].length ≤ 224 := by simp
  have hRoom : totalClusters [sampleFile] ≤ 2815 := by decide
  rcases builtDisk_saves List.length_replicate hBlank hNames
      hSlots hRoom with
    ⟨img', hMain, hSaves⟩
  exact ⟨img', hMain,
    hSaves zeros [.clone 0 1]
      [.backup (some [0x42]), .rollback 1] [0x41]
      (by decide) (by decide)⟩

end FatPut

end AsmOS
