import AsmOS.Base.Session
import AsmOS.Storage.FatMirror

/-
  The retries of the block device hide its faults.

  On a drive that serves one of every five tries, all calls
  of the FAT12 module reply as on a drive without faults, and
  leave the same memory and the same disk.

  Main declarations:
    * `Device.Serves`, `BlockDev.Steady`
    * `sectorRead_steady`, `blockDevWrite_steady`
    * `Fat12Call`, `fat12Call`, `SameDisk`
    * `fat12Call_bisimulation`, `fat12Session_masks`
-/

------------------------------------------------------------
-- Five Tries
------------------------------------------------------------

namespace AsmOS

namespace Storage

open ByteMem Session

/- Of any five operations in a row one is served. -/
def Device.Serves
    (disk : Device) : Prop :=
  ∀ k, (∃ i < 5, disk.readFails (k + i) = false) ∧
    ∃ i < 5, disk.writeEnds (k + i) = .done

theorem Device.Reliable.serves
    {disk : Device}
    (hDisk : disk.Reliable) :
    disk.Serves :=
  fun k => ⟨⟨0, by omega, hDisk.1 _⟩, ⟨0, by omega, hDisk.2 _⟩⟩

/- An initialised device on which five tries are enough. -/
structure BlockDev.Steady
    (dev : BlockDev) : Prop where
  floppy : dev.Floppy
  ready : dev.ready = true
  serves : dev.disk.Serves

/- The device with another disk image, after operations. -/
def BlockDev.after
    (dev : BlockDev)
    (image : ByteMem)
    (ops : List SectorOp) : BlockDev :=
  { dev with disk := (dev.disk.withImage image).issued ops }

section Tries

variable {dev : BlockDev} {lba : Nat}

theorem BlockDev.Steady.after
    (hDev : dev.Steady)
    (image : ByteMem)
    (ops : List SectorOp) :
    (dev.after image ops).Steady :=
  ⟨⟨hDev.floppy.spt, hDev.floppy.heads⟩, hDev.ready,
    hDev.serves⟩

theorem BlockDev.Steady.issued
    (hDev : dev.Steady)
    (ops : List SectorOp) :
    (dev.issued ops).Steady :=
  hDev.after dev.disk.image ops

theorem BlockDev.after_after
    (dev : BlockDev)
    (image image' : ByteMem)
    (ops ops' : List SectorOp) :
    (dev.after image ops).after image' ops' =
      dev.after image' (ops ++ ops') := by
  simp [BlockDev.after]

/- A try that is not served leaves it to the later ones. -/
theorem exists_later
    {ε : Type}
    {ends : Nat → ε}
    {served : ε}
    {k n : Nat}
    (hServed : ∃ i < n + 1, ends (k + i) = served)
    (hFirst : ends k ≠ served) :
    ∃ i < n, ends (k + 1 + i) = served := by
  rcases hServed with ⟨i, hi, hServe⟩
  cases i with
  | zero => exact absurd hServe hFirst
  | succ i =>
      refine ⟨i, by omega, ?_⟩
      rwa [Nat.add_comm i, ← Nat.add_assoc] at hServe

theorem retryRead_served
    (hDev : dev.Floppy)
    (hLba : lba < 9216)
    {n : Nat}
    (hServed :
      ∃ i < n,
        dev.disk.readFails (dev.disk.log.length + i) = false) :
    ∃ ops, retryRead dev lba n =
      (some (dev.disk.image.view (512 * lba)),
        dev.issued ops) := by
  induction n generalizing dev with
  | zero =>
      rcases hServed with ⟨i, hi, _⟩
      exact absurd hi (Nat.not_lt_zero i)
  | succ n ih =>
      rcases lbaToChs_sector hDev.spt hDev.heads hLba with
        ⟨chs, hChs, hSector⟩
      rw [retryRead, hChs]
      dsimp only
      rw [hSector, fat12ReadSector]
      cases hFirst : dev.disk.readFails dev.disk.log.length with
      | false => exact ⟨[.read lba], rfl⟩
      | true =>
          have hNext : (dev.issued [.read lba]).Floppy :=
            ⟨hDev.spt, hDev.heads⟩
          have hLater :=
            exists_later hServed (by rw [hFirst]; decide)
          rcases ih hNext hLater with ⟨ops, hRest⟩
          rw [BlockDev.issued_issued] at hRest
          exact ⟨_, hRest⟩

theorem retryWrite_served
    (hDev : dev.Floppy)
    (hLba : lba < 9216)
    (buf : ByteMem)
    {n : Nat}
    (hServed :
      ∃ i < n,
        dev.disk.writeEnds (dev.disk.log.length + i) = .done) :
    ∃ ops, retryWrite dev lba buf n =
      (true,
        dev.after
          (dev.disk.image.storeBlock (512 * lba) 512 buf)
          ops) := by
  induction n generalizing dev with
  | zero =>
      rcases hServed with ⟨i, hi, _⟩
      exact absurd hi (Nat.not_lt_zero i)
  | succ n ih =>
      have hNext :
          ∀ image, (dev.after image [.write lba]).Floppy :=
        fun image => ⟨hDev.spt, hDev.heads⟩
      rw [retryWrite_succ hDev hLba]
      cases hFirst : dev.disk.writeEnds dev.disk.log.length with
      | done => exact ⟨[.write lba], rfl⟩
      | refused =>
          have hLater :=
            exists_later hServed (by rw [hFirst]; decide)
          rcases ih (hNext dev.disk.image) hLater with
            ⟨ops, hRest⟩
          rw [BlockDev.after_after] at hRest
          exact ⟨_, hRest⟩
      | unconfirmed =>
          -- Later tries store the same sector again.
          have hLater :=
            exists_later hServed (by rw [hFirst]; decide)
          have hTwice :=
            storeBlock_storeBlock dev.disk.image (512 * lba) 512
              buf
          rcases ih (hNext (storeBlock _ (512 * lba) 512 buf))
              hLater with
            ⟨ops, hRest⟩
          rw [BlockDev.after_after] at hRest
          refine ⟨[.write lba] ++ ops, hRest.trans ?_⟩
          exact congrArg
            (fun image =>
              (true, dev.after image ([.write lba] ++ ops)))
            hTwice

/- A drive gives the sector, if it has a place. -/
theorem sectorRead_steady
    (hDev : dev.Steady)
    (lba : Nat) :
    ∃ ops, sectorRead dev lba =
      (if lba < 9216 then
          some (dev.disk.image.view (512 * lba))
        else none,
        dev.issued ops) := by
  rw [sectorRead, if_pos hDev.ready]
  by_cases hLba : lba < 9216
  · rw [if_pos hLba]
    exact retryRead_served hDev.floppy hLba (hDev.serves _).1
  · rw [if_neg hLba, retryRead,
      lbaToChs_beyond hDev.floppy (Nat.le_of_not_lt hLba)]
    exact ⟨[], rfl⟩

/- A write stores the sector, if it has a place. -/
theorem blockDevWrite_steady
    (hDev : dev.Steady)
    (lba : Nat)
    {p : UInt32}
    (hp : p ≠ 0)
    (mem : ByteMem) :
    ∃ ops, blockDevWrite dev lba p mem =
      (decide (lba < 9216),
        dev.after
          (if lba < 9216 then
            dev.disk.image.storeBlock (512 * lba) 512
              (mem.view (transferAddr p))
          else dev.disk.image)
          ops) := by
  rw [blockDevWrite_ready hDev.ready lba hp]
  by_cases hLba : lba < 9216
  · rw [if_pos hLba, decide_eq_true hLba]
    exact retryWrite_served hDev.floppy hLba _ (hDev.serves _).2
  · rw [if_neg hLba, decide_eq_false hLba, retryWrite,
      lbaToChs_beyond hDev.floppy (Nat.le_of_not_lt hLba)]
    exact ⟨[], rfl⟩

end Tries

------------------------------------------------------------
-- Calls
------------------------------------------------------------

/-
  The calls of the FAT12 module on a file system, and what
  its callers store to the memory in between.
-/
inductive Fat12Call where
| store (a : Nat) (bytes : List UInt8)
| mount
| readSector (lba buf : UInt32)
| writeSector (lba buf : UInt32)
| readFile (name83 : List UInt8) (buf max : UInt32)

/- What a caller sees of a call. -/
structure Fat12Reply where
  result : FileRead
  mem : ByteMem

/- `fat12_read_sector`: true when it returns 0. -/
def fat12FsReadSector
    (fs : Fat12Fs)
    (lba : Nat)
    (buf : UInt32)
    (mem : ByteMem) : Bool × ByteMem × Fat12Fs :=
  let result := blockDevRead fs.dev lba buf mem
  (result.1, result.2.1, { fs with dev := result.2.2 })

/- A file system and the memory. -/
structure Fat12State where
  fs : Fat12Fs
  mem : ByteMem

/- The reply to a call that returns a code only. -/
def codeReply
    (rc : Int)
    (mem : ByteMem)
    (fs : Fat12Fs) : Fat12Reply × Fat12State :=
  (⟨⟨rc, none⟩, mem⟩, ⟨fs, mem⟩)

/- A call; nothing, when it does not end or leaves the table. -/
def fat12Call
    (s : Fat12State) :
    Fat12Call → Option (Fat12Reply × Fat12State)
| .store a bytes =>
    let mem := s.mem.storeBlock a bytes.length (ofList bytes)
    some (codeReply 0 mem s.fs)
| .mount =>
    let result := fat12Mount s.fs s.mem
    some (codeReply result.1 result.2.1 result.2.2)
| .readSector lba buf =>
    let result := fat12FsReadSector s.fs lba.toNat buf s.mem
    some (codeReply (if result.1 then 0 else -1) result.2.1
      result.2.2)
| .writeSector lba buf =>
    let result := fat12FsWriteSector s.fs lba.toNat buf s.mem
    some (codeReply result.1 s.mem result.2)
| .readFile name83 buf max =>
    (fat12ReadFile s.fs name83 buf max.toNat s.mem).map
      fun result =>
        (⟨result.1, result.2.1⟩, ⟨result.2.2, result.2.1⟩)

/- Two drives on which five tries are enough, with one disk. -/
structure SameDisk
    (dev dev' : BlockDev) : Prop where
  left : dev.Steady
  right : dev'.Steady
  image : dev.disk.image = dev'.disk.image

/- The file systems are alike, but for the faults. -/
structure SameVolume
    (fs fs' : Fat12Fs) : Prop where
  addr : fs.addr = fs'.addr
  dev : SameDisk fs.dev fs'.dev
  ready : fs.ready = fs'.ready

structure SameState
    (s s' : Fat12State) : Prop where
  fs : SameVolume s.fs s'.fs
  mem : s.mem = s'.mem

section Masking

variable {dev dev' : BlockDev} {fs fs' : Fat12Fs}

theorem SameDisk.after
    (hSame : SameDisk dev dev')
    (image : ByteMem)
    (ops ops' : List SectorOp) :
    SameDisk (dev.after image ops) (dev'.after image ops') :=
  ⟨hSame.left.after image ops, hSame.right.after image ops', rfl⟩

theorem SameDisk.issued
    (hSame : SameDisk dev dev')
    (ops ops' : List SectorOp) :
    SameDisk (dev.issued ops) (dev'.issued ops') :=
  ⟨hSame.left.issued ops, hSame.right.issued ops', hSame.image⟩

/- Equal results, equal memories, and one disk. -/
def SameRead
    (x y : Bool × ByteMem × BlockDev) : Prop :=
  x.1 = y.1 ∧ x.2.1 = y.2.1 ∧ SameDisk x.2.2 y.2.2

theorem blockDevRead_same
    (hSame : SameDisk dev dev')
    (lba : Nat)
    (p : UInt32)
    (mem : ByteMem) :
    SameRead (blockDevRead dev lba p mem)
      (blockDevRead dev' lba p mem) := by
  by_cases hp : p = 0
  · rw [hp, blockDevRead_null, blockDevRead_null]
    exact ⟨rfl, rfl, hSame⟩
  · rcases sectorRead_steady hSame.left lba with ⟨ops, hLeft⟩
    rcases sectorRead_steady hSame.right lba with
      ⟨ops', hRight⟩
    rw [blockDevRead_eq hp, blockDevRead_eq hp, hLeft, hRight,
      hSame.image]
    by_cases hLba : lba < 9216
    · rw [if_pos hLba]
      exact ⟨rfl, rfl, hSame.issued ops ops'⟩
    · rw [if_neg hLba]
      exact ⟨rfl, rfl, hSame.issued ops ops'⟩

theorem blockDevWrite_same
    (hSame : SameDisk dev dev')
    (lba : Nat)
    (p : UInt32)
    (mem : ByteMem) :
    (blockDevWrite dev lba p mem).1 =
        (blockDevWrite dev' lba p mem).1 ∧
      SameDisk (blockDevWrite dev lba p mem).2
        (blockDevWrite dev' lba p mem).2 := by
  by_cases hp : p = 0
  · have hNone (u : BlockDev) : ¬ (u.ready = true ∧ p ≠ 0) :=
      fun hBoth => hBoth.2 hp
    rw [blockDevWrite, blockDevWrite, if_neg (hNone dev),
      if_neg (hNone dev')]
    exact ⟨rfl, hSame⟩
  · rcases blockDevWrite_steady hSame.left lba hp mem with
      ⟨ops, hLeft⟩
    rcases blockDevWrite_steady hSame.right lba hp mem with
      ⟨ops', hRight⟩
    rw [hLeft, hRight, hSame.image]
    exact ⟨rfl, hSame.after _ ops ops'⟩

theorem loadTable_same
    (hSame : SameDisk dev dev')
    (lba : Nat)
    (table : UInt32)
    (mem : ByteMem)
    (n : Nat) :
    SameRead (loadTable dev lba table mem n)
      (loadTable dev' lba table mem n) := by
  induction n with
  | zero => exact ⟨rfl, rfl, hSame⟩
  | succ n ih =>
      unfold loadTable
      generalize loadTable dev lba table mem n = x at ih ⊢
      generalize loadTable dev' lba table mem n = y at ih ⊢
      rcases x with ⟨ok, mem', u⟩
      rcases y with ⟨ok', mem'', v⟩
      rcases ih with ⟨hOk, hMem, hDisk⟩
      dsimp only at hOk hMem hDisk
      subst hOk hMem
      cases ok with
      | false => exact ⟨rfl, rfl, hDisk⟩
      | true => exact blockDevRead_same hDisk _ _ _

theorem fat12Mount_same
    (hSame : SameVolume fs fs')
    (mem : ByteMem) :
    (fat12Mount fs mem).1 = (fat12Mount fs' mem).1 ∧
      (fat12Mount fs mem).2.1 = (fat12Mount fs' mem).2.1 ∧
      SameVolume (fat12Mount fs mem).2.2
        (fat12Mount fs' mem).2.2 := by
  have hFat := loadTable_same hSame.dev 33 fs.fatAddr mem 9
  unfold fat12Mount
  rw [show fs'.fatAddr = fs.fatAddr by
      rw [Fat12Fs.fatAddr, Fat12Fs.fatAddr, hSame.addr],
    show fs'.rootAddr = fs.rootAddr by
      rw [Fat12Fs.rootAddr, Fat12Fs.rootAddr, hSame.addr]]
  generalize loadTable fs.dev 33 fs.fatAddr mem 9 = x at hFat ⊢
  generalize loadTable fs'.dev 33 fs.fatAddr mem 9 = y at hFat ⊢
  rcases x with ⟨ok, mem₁, dev⟩
  rcases y with ⟨ok', mem₁', dev'⟩
  rcases hFat with ⟨hOk, hMem, hDisk⟩
  dsimp only at hOk hMem hDisk
  subst hOk hMem
  cases ok with
  | false => exact ⟨rfl, rfl, ⟨hSame.addr, hDisk, hSame.ready⟩⟩
  | true =>
      have hRoot := loadTable_same hDisk 51 fs.rootAddr mem₁ 14
      dsimp only
      generalize loadTable dev 51 fs.rootAddr mem₁ 14 = x
        at hRoot ⊢
      generalize loadTable dev' 51 fs.rootAddr mem₁ 14 = y
        at hRoot ⊢
      rcases x with ⟨ok, mem₂, dev⟩
      rcases y with ⟨ok', mem₂', dev'⟩
      rcases hRoot with ⟨hOk, hMem, hDisk⟩
      dsimp only at hOk hMem hDisk
      subst hOk hMem
      cases ok with
      | false =>
          exact ⟨rfl, rfl, ⟨hSame.addr, hDisk, hSame.ready⟩⟩
      | true => exact ⟨rfl, rfl, ⟨hSame.addr, hDisk, rfl⟩⟩

theorem fat12FsWriteSector_same
    (hSame : SameVolume fs fs')
    (lba : Nat)
    (buf : UInt32)
    (mem : ByteMem) :
    (fat12FsWriteSector fs lba buf mem).1 =
        (fat12FsWriteSector fs' lba buf mem).1 ∧
      SameVolume (fat12FsWriteSector fs lba buf mem).2
        (fat12FsWriteSector fs' lba buf mem).2 := by
  have hWrite := blockDevWrite_same hSame.dev lba buf mem
  unfold fat12FsWriteSector
  generalize blockDevWrite fs.dev lba buf mem = x at hWrite ⊢
  generalize blockDevWrite fs'.dev lba buf mem = y at hWrite ⊢
  rcases x with ⟨ok, dev⟩
  rcases y with ⟨ok', dev'⟩
  rcases hWrite with ⟨hOk, hDisk⟩
  dsimp only at hOk hDisk
  subst hOk
  cases ok with
  | false => exact ⟨rfl, ⟨hSame.addr, hDisk, hSame.ready⟩⟩
  | true =>
      have hMirror :=
        blockDevWrite_same hDisk (lba + fatSectors) buf mem
      dsimp only
      split
      · exact ⟨rfl, ⟨hSame.addr, hMirror.2, hSame.ready⟩⟩
      · exact ⟨rfl, ⟨hSame.addr, hDisk, hSame.ready⟩⟩

theorem fat12ReadCluster_same
    (hSame : SameDisk dev dev')
    (cluster : Nat)
    (p : UInt32)
    (mem : ByteMem) :
    SameRead (fat12ReadCluster dev cluster p mem)
      (fat12ReadCluster dev' cluster p mem) := by
  unfold fat12ReadCluster
  split
  · exact ⟨rfl, rfl, hSame⟩
  · exact blockDevRead_same hSame _ _ _

/- What the loop leaves is alike. -/
def SameLoop
    (x y : Bool × Nat × ByteMem × BlockDev) : Prop :=
  x.1 = y.1 ∧ x.2.1 = y.2.1 ∧ x.2.2.1 = y.2.2.1 ∧
    SameDisk x.2.2.2 y.2.2.2

theorem fat12ReadLoop_same
    (hVolume : SameVolume fs fs')
    (hSame : SameDisk dev dev')
    (dst : UInt32)
    (max fuel cluster written : Nat)
    (mem : ByteMem) :
    Option.Rel SameLoop
      (fat12ReadLoop fs dst max fuel cluster written mem dev)
      (fat12ReadLoop fs' dst max fuel cluster written mem
        dev') := by
  induction fuel generalizing cluster written mem dev dev' with
  | zero => exact .none
  | succ fuel ih =>
      unfold fat12ReadLoop
      split
      · have hRead :=
          fat12ReadCluster_same hSame cluster
            (dst + UInt32.ofNat written) mem
        generalize
          fat12ReadCluster dev cluster
            (dst + UInt32.ofNat written) mem = x at hRead ⊢
        generalize
          fat12ReadCluster dev' cluster
            (dst + UInt32.ofNat written) mem = y at hRead ⊢
        rcases x with ⟨ok, mem', u⟩
        rcases y with ⟨ok', mem'', v⟩
        rcases hRead with ⟨hOk, hMem, hDisk⟩
        dsimp only at hOk hMem hDisk
        subst hOk hMem
        cases ok with
        | false => exact .some ⟨rfl, rfl, rfl, hDisk⟩
        | true =>
            have hFat : fs'.fat mem' = fs.fat mem' := by
              rw [Fat12Fs.fat, Fat12Fs.fat, Fat12Fs.fatAddr,
                Fat12Fs.fatAddr, hVolume.addr]
            dsimp only
            rw [hFat]
            cases fat12NextCluster (fs.fat mem') cluster with
            | none => exact .none
            | some next => exact ih hDisk next _ _
      · exact .some ⟨rfl, rfl, rfl, hSame⟩

/- Both have no result, or equal results and memories. -/
def SameFile
    (x y : FileRead × ByteMem × Fat12Fs) : Prop :=
  x.1 = y.1 ∧ x.2.1 = y.2.1 ∧ SameVolume x.2.2 y.2.2

theorem fat12ReadFile_same
    (hSame : SameVolume fs fs')
    (name83 : List UInt8)
    (buf : UInt32)
    (max : Nat)
    (mem : ByteMem) :
    Option.Rel SameFile (fat12ReadFile fs name83 buf max mem)
      (fat12ReadFile fs' name83 buf max mem) := by
  have hRoot : fs'.root mem = fs.root mem := by
    rw [Fat12Fs.root, Fat12Fs.root, Fat12Fs.rootAddr,
      Fat12Fs.rootAddr, hSame.addr]
  unfold fat12ReadFile
  rw [← hSame.ready, hRoot]
  split
  · cases fat12FindEntry (fs.root mem) name83 with
    | none => exact .some ⟨rfl, rfl, hSame⟩
    | some slot =>
        have hLoop :=
          fat12ReadLoop_same hSame hSame.dev buf max readFuel
            (slotCluster (fs.root mem) slot) 0 mem
        dsimp only
        generalize
          fat12ReadLoop fs buf max readFuel
            (slotCluster (fs.root mem) slot) 0 mem fs.dev = x
          at hLoop ⊢
        generalize
          fat12ReadLoop fs' buf max readFuel
            (slotCluster (fs.root mem) slot) 0 mem fs'.dev = y
          at hLoop ⊢
        cases hLoop with
        | none => exact .none
        | @some x y hEnds =>
            rcases x with ⟨ok, written, mem', u⟩
            rcases y with ⟨ok', written', mem'', v⟩
            rcases hEnds with ⟨hOk, hWritten, hMem, hDisk⟩
            dsimp only at hOk hWritten hMem hDisk
            subst hOk hWritten hMem
            cases ok with
            | false =>
                exact .some
                  ⟨rfl, rfl, ⟨hSame.addr, hDisk, rfl⟩⟩
            | true =>
                exact .some
                  ⟨rfl, rfl, ⟨hSame.addr, hDisk, rfl⟩⟩
  · exact .some ⟨rfl, rfl, hSame⟩

/- Every call replies alike and keeps the states alike. -/
theorem fat12Call_bisimulation :
    Bisimulation fat12Call SameState := by
  rintro ⟨fs, mem⟩ ⟨fs', mem'⟩ ⟨hSame, hMem⟩ call
  dsimp only at hSame hMem
  subst hMem
  cases call with
  | store a bytes => exact .some ⟨rfl, ⟨hSame, rfl⟩⟩
  | mount =>
      rcases fat12Mount_same hSame mem with
        ⟨hCode, hMem, hVolume⟩
      refine .some ⟨?_, ⟨hVolume, hMem⟩⟩
      unfold codeReply
      rw [hCode, hMem]
  | readSector lba buf =>
      rcases blockDevRead_same hSame.dev lba.toNat buf mem with
        ⟨hCode, hMem, hDisk⟩
      refine .some ⟨?_, ⟨⟨hSame.addr, hDisk, hSame.ready⟩, hMem⟩⟩
      unfold codeReply fat12FsReadSector
      dsimp only
      rw [hCode, hMem]
  | writeSector lba buf =>
      rcases fat12FsWriteSector_same hSame lba.toNat buf mem with
        ⟨hCode, hVolume⟩
      refine .some ⟨?_, ⟨hVolume, rfl⟩⟩
      unfold codeReply
      rw [hCode]
  | readFile name83 buf max =>
      have hRead :=
        fat12ReadFile_same hSame name83 buf max.toNat mem
      change
        Alike SameState
          ((fat12ReadFile fs name83 buf max.toNat mem).map _)
          ((fat12ReadFile fs' name83 buf max.toNat mem).map _)
      generalize fat12ReadFile fs name83 buf max.toNat mem = x
        at hRead ⊢
      generalize fat12ReadFile fs' name83 buf max.toNat mem = y
        at hRead ⊢
      cases hRead with
      | none => exact .none
      | some hEnds =>
          rcases hEnds with ⟨hResult, hMem, hVolume⟩
          refine .some ⟨?_, ⟨hVolume, hMem⟩⟩
          dsimp only
          rw [hResult, hMem]

end Masking

------------------------------------------------------------
-- Sessions
------------------------------------------------------------

/-
  The replies of a session, which show the memory after each
  call, and the disk that it leaves.
-/
def fat12Session
    (disk : Device)
    (drive : UInt8)
    (addr : UInt32)
    (mem : ByteMem)
    (calls : List Fat12Call) :
    Option (List Fat12Reply × ByteMem) :=
  (replies fat12Call
    ⟨fat12Init addr (blockDevInit disk drive), mem⟩ calls).map
      fun out => (out.1, out.2.fs.dev.disk.image)

/- Every second read fails, and so does every second write,
   some of them behind the transfer. -/
def flakyDisk : Device where
  image := zeros
  readFails := fun k => k % 2 = 0
  writeEnds := fun k =>
    if k % 2 = 1 then .done
    else if k % 4 = 0 then .refused
    else .unconfirmed
  log := []

theorem flakyDisk_serves :
    flakyDisk.Serves := by
  intro k
  by_cases hOdd : k % 2 = 1
  · refine ⟨⟨0, by omega, ?_⟩, ⟨0, by omega, if_pos hOdd⟩⟩
    exact decide_eq_false (by omega)
  · refine ⟨⟨1, by omega, ?_⟩, ⟨1, by omega, if_pos (by omega)⟩⟩
    exact decide_eq_false (by omega)

end Storage

end AsmOS
