import AsmOS.Boot.BootMeta
import AsmOS.Storage.Fat12

/-
  The second boot stage (`boot/stage2.c`), over the FAT12
  reader and the BIOS block device.

  The stage either stops in an endless loop or jumps to the
  kernel.  The file system structure and the metadata are on
  its stack, at addresses in the one memory to which the
  sectors are transferred; its other locals are values.  No
  transfer reaches 1 MB, where the kernel should go.

  Main declarations:
    * `crc32Buf`
    * `stage2Load`, `stage2Check`, `stage2Start`
    * `HighKept`, `stage2Start_high`
-/

------------------------------------------------------------
-- The Stage
------------------------------------------------------------

namespace AsmOS

namespace Boot

open ByteMem Storage

/- `crc32_buf`, over `crc32_byte`. -/
def crc32Buf
    (mem : ByteMem)
    (data len : Nat) : UInt32 :=
  ~~~ ((mem.slice data len).foldl crc32Byte 0xFFFFFFFF)

/- Where the stage ends: `for (;;)`, or in the kernel. -/
inductive Stage2Outcome where
| halt
| jump (entry : UInt32) (loaded : Nat) (mem : ByteMem)

/-
  The loop that loads the kernel.  What a read returns is
  dropped.  The loop has no result when a link lies outside
  the table or the iterations run out, in which case it never
  ends.
-/
def stage2Load
    (fs : Fat12Fs)
    (size : Nat)
    (load : UInt32) :
    Nat → Nat → Nat → ByteMem → BlockDev →
      Option (Nat × ByteMem × BlockDev)
| 0, _, _, _, _ => none
| fuel + 1, cluster, loaded, mem, dev =>
    if cluster < fatEnd ∧ loaded < size then
      match fat12ReadCluster dev cluster
          (load + UInt32.ofNat loaded) mem with
      | (_, mem, dev) =>
          match fat12NextCluster (fs.fat mem) cluster with
          | none => none
          | some next =>
              stage2Load fs size load fuel next
                ((loaded + 512) % 2 ^ 32) mem dev
    else
      some (loaded, mem, dev)

/- `_stage2_start` after the kernel is loaded. -/
def stage2Check
    (m : BootMeta)
    (load : UInt32)
    (loaded : Nat)
    (mem : ByteMem) : Stage2Outcome :=
  let crc := crc32Buf mem load.toNat loaded
  if m.kernelCrc32 ≠ 0 ∧ crc ≠ m.kernelCrc32 then
    .halt
  else if
      UInt32.ofNat (load32 mem load.toNat) ≠ asmosKernelMagic
    then
    .halt
  else
    .jump m.kernelEntry loaded mem

/- `meta`, as it is in memory. -/
def metaAt
    (mem : ByteMem)
    (metaAddr : UInt32) : BootMeta :=
  BootMeta.load (mem.view metaAddr.toNat)

/-
  `_stage2_start`, with the addresses of `fs` and `meta`.
  The load address is taken from `meta` before the kernel is
  loaded, the checksum and the entry after it.
-/
def stage2Start
    (disk : Device)
    (bootDriveStorage : UInt8)
    (fsAddr metaAddr : UInt32)
    (mem : ByteMem) : Option Stage2Outcome :=
  let fs := fat12Init fsAddr (blockDevInit disk bootDriveStorage)
  match fat12Mount fs mem with
  | (rc, mem, fs) =>
      if rc ≠ 0 then
        some .halt
      else
        match fat12ReadFile fs asmosMetaFilename metaAddr
          bootMetaSize mem with
        | none => none
        | some (result, mem, fs) =>
            let m := metaAt mem metaAddr
            if result.rc ≠ 0 then
              some .halt
            else if m.magic.getD 0 0 ≠ 0x41 then
              some .halt
            else
              match fat12FindEntry (fs.root mem)
                asmosKernelFilename with
              | none => some .halt
              | some slot =>
                  let load := m.kernelLoadAddr
                  let size := slotSize (fs.root mem) slot
                  match stage2Load fs size load readFuel
                    (slotCluster (fs.root mem) slot) 0 mem
                    fs.dev with
                  | none => none
                  | some (loaded, mem, _) =>
                      let loaded :=
                        if loaded > size then size else loaded
                      some (stage2Check (metaAt mem metaAddr)
                        load loaded mem)

------------------------------------------------------------
-- The Memory From 1 MB On
------------------------------------------------------------

/- No byte from 1 MB on is changed. -/
def HighKept
    (mem mem' : ByteMem) : Prop :=
  ∀ x, 0x100000 ≤ x → mem' x = mem x

section High

variable {fs fs' : Fat12Fs}
variable {dev dev' : BlockDev}
variable {mem mem' mem'' : ByteMem}
variable {cluster written size fuel : Nat}

theorem HighKept.trans
    (hFirst : HighKept mem mem')
    (hSecond : HighKept mem' mem'') :
    HighKept mem mem'' :=
  fun x hx => (hSecond x hx).trans (hFirst x hx)

theorem fat12ReadCluster_high
    (dev : BlockDev)
    (cluster : Nat)
    (p : UInt32)
    (mem : ByteMem) :
    HighKept mem (fat12ReadCluster dev cluster p mem).2.1 := by
  intro x hx
  have hLow := transferAddr_le p
  exact fat12ReadCluster_outside (by omega)

theorem loadTable_high
    (dev : BlockDev)
    (lba : Nat)
    (table : UInt32)
    (mem : ByteMem)
    (n : Nat) :
    HighKept mem (loadTable dev lba table mem n).2.1 := by
  intro x hx
  refine loadTable_outside dev lba table mem fun s _ => ?_
  have hLow := transferAddr_le (table + UInt32.ofNat (512 * s))
  omega

theorem fat12Mount_high
    (fs : Fat12Fs)
    (mem : ByteMem) :
    HighKept mem (fat12Mount fs mem).2.1 := by
  have hFat := loadTable_high fs.dev 33 fs.fatAddr mem 9
  unfold fat12Mount
  generalize loadTable fs.dev 33 fs.fatAddr mem 9 = x at hFat ⊢
  rcases x with ⟨_ | _, mem₁, dev₁⟩
  · exact hFat
  · have hRoot := loadTable_high dev₁ 51 fs.rootAddr mem₁ 14
    dsimp only
    generalize loadTable dev₁ 51 fs.rootAddr mem₁ 14 = x
      at hRoot ⊢
    rcases x with ⟨_ | _, mem₂, dev₂⟩
    · exact hFat.trans hRoot
    · exact hFat.trans hRoot

theorem fat12ReadLoop_high
    {dst : UInt32}
    {max written' : Nat}
    {ok : Bool}
    (hLoop :
      fat12ReadLoop fs dst max fuel cluster written mem dev =
        some (ok, written', mem', dev')) :
    HighKept mem mem' := by
  induction fuel generalizing cluster written mem dev with
  | zero => cases hLoop
  | succ fuel ih =>
      rw [fat12ReadLoop] at hLoop
      split at hLoop
      · have hRead :=
          fat12ReadCluster_high dev cluster
            (dst + UInt32.ofNat written) mem
        rcases hPart :
            fat12ReadCluster dev cluster
              (dst + UInt32.ofNat written) mem with
          ⟨_ | _, mem₁, dev₁⟩
        · rw [hPart] at hLoop hRead
          cases hLoop
          exact hRead
        · rw [hPart] at hLoop hRead
          dsimp only at hLoop hRead
          split at hLoop
          · cases hLoop
          · exact hRead.trans (ih hLoop)
      · cases hLoop
        exact fun x _ => rfl

theorem fat12ReadFile_high
    {name83 : List UInt8}
    {buf : UInt32}
    {max : Nat}
    {r : FileRead}
    (hRun :
      fat12ReadFile fs name83 buf max mem =
        some (r, mem', fs')) :
    HighKept mem mem' := by
  unfold fat12ReadFile at hRun
  split at hRun
  · split at hRun
    · cases hRun
      exact fun x _ => rfl
    · dsimp only at hRun
      split at hRun
      · cases hRun
      · rename_i hLoop
        cases hRun
        exact fat12ReadLoop_high hLoop
      · rename_i hLoop
        cases hRun
        exact fat12ReadLoop_high hLoop
  · cases hRun
    exact fun x _ => rfl

theorem stage2Load_high
    {load : UInt32}
    {loaded loaded' : Nat}
    (hLoop :
      stage2Load fs size load fuel cluster loaded mem dev =
        some (loaded', mem', dev')) :
    HighKept mem mem' := by
  induction fuel generalizing cluster loaded mem dev with
  | zero => cases hLoop
  | succ fuel ih =>
      rw [stage2Load] at hLoop
      split at hLoop
      · have hRead :=
          fat12ReadCluster_high dev cluster
            (load + UInt32.ofNat loaded) mem
        dsimp only at hLoop
        split at hLoop
        · cases hLoop
        · exact hRead.trans (ih hLoop)
      · cases hLoop
        exact fun x _ => rfl

/- A check that lets the stage jump changes nothing. -/
theorem stage2Check_jump
    {m : BootMeta}
    {load entry : UInt32}
    {loaded n : Nat}
    (hJump :
      stage2Check m load loaded mem = .jump entry n mem') :
    mem' = mem := by
  unfold stage2Check at hJump
  dsimp only at hJump
  split at hJump
  · cases hJump
  · split at hJump
    · cases hJump
    · cases hJump
      rfl

/-
  A stage that jumps, on any disk and with any failures, has
  left the memory from 1 MB on as it was.
-/
theorem stage2Start_high
    {disk : Device}
    {bootDriveStorage : UInt8}
    {fsAddr metaAddr entry : UInt32}
    {n : Nat}
    (hStart :
      stage2Start disk bootDriveStorage fsAddr metaAddr mem =
        some (.jump entry n mem')) :
    HighKept mem mem' := by
  have hMount :=
    fat12Mount_high
      (fat12Init fsAddr (blockDevInit disk bootDriveStorage)) mem
  unfold stage2Start at hStart
  dsimp only at hStart
  split at hStart
  · cases hStart
  · split at hStart
    · cases hStart
    · rename_i hRead
      have hFile := hMount.trans (fat12ReadFile_high hRead)
      split at hStart
      · cases hStart
      · split at hStart
        · cases hStart
        · split at hStart
          · cases hStart
          · split at hStart
            · cases hStart
            · rename_i hLoad
              have hJump := Option.some.inj hStart
              rw [stage2Check_jump hJump]
              exact hFile.trans (stage2Load_high hLoad)

end High

end Boot

end AsmOS
