import AsmOS.Base.Bits
import AsmOS.Storage.FatPutSpec
import AsmOS.Storage.HalSpec

/-
  The FAT12 reader shared by the second boot stage and the
  kernel, over the BIOS block device.

  A block device reads one sector by its cylinder, head and
  sector numbers; the transfer itself is the hardware's, and
  either delivers the sector or fails.  A read is tried five
  times.  The sector goes to ES:BX, which keeps five of the
  eight hex digits of a pointer at most, and so to another
  address than the pointer's for most pointers.

  The tables of `fat12_fs_t` and every buffer are bytes of
  one memory; the device structure, the flags and the locals
  are values, which no transfer changes.

  Main declarations:
    * `transferAddr`, `transferAddr_eq`
    * `lbaToChs`, `blockDevRead`
    * `Fat12Fs`, `fat12Mount`
    * `fat12ReadCluster`, `fat12ReadFile`
    * `blockDevRead_outside`, `blockDevRead_ready`
    * `loadTable_outside`, `loadTable_ready`
    * `entryMemory`
-/

------------------------------------------------------------
-- Block Devices
------------------------------------------------------------

namespace AsmOS

namespace Storage

open ByteMem

/- `block_dev_t` and the disk behind it. -/
structure BlockDev where
  drive : UInt8
  sectorsPerTrack : Nat
  heads : Nat
  ready : Bool
  disk : Device

/- `block_dev_init`. -/
def blockDevInit
    (disk : Device)
    (drive : UInt8) : BlockDev where
  drive := drive
  sectorsPerTrack := 18
  heads := 2
  ready := true
  disk := disk

/- A position on the disk. -/
structure Chs where
  head : UInt8
  sec : UInt8
  cyl : UInt8

/- `lba_to_chs`. -/
def lbaToChs
    (dev : BlockDev)
    (lba : Nat) : Option Chs :=
  if dev.sectorsPerTrack = 0 ∨ dev.heads = 0 then
    none
  else
    let s := lba % dev.sectorsPerTrack + 1
    let c := lba / (dev.sectorsPerTrack * dev.heads)
    let h := lba / dev.sectorsPerTrack % dev.heads
    if c > 255 then
      none
    else
      some ⟨UInt8.ofNat h, UInt8.ofNat s, UInt8.ofNat c⟩

/- The sector at a position of a disk of 18 sectors and 2 heads. -/
def Chs.sector
    (chs : Chs) : Nat :=
  (chs.cyl.toNat * 2 + chs.head.toNat) * 18 +
    (chs.sec.toNat - 1)

/- `seg` of a pointer, which is loaded to ES. -/
def transferSeg
    (p : UInt32) : UInt16 :=
  ((p >>> 4) &&& 0xF000).toUInt16

/- `off` of a pointer, which is loaded to BX. -/
def transferOff
    (p : UInt32) : UInt16 :=
  (p &&& 0x0F).toUInt16

/- The address ES:BX, to or from which the BIOS transfers. -/
def transferAddr
    (p : UInt32) : Nat :=
  16 * (transferSeg p).toNat + (transferOff p).toNat

/- The retry loop around the BIOS read. -/
def retryRead
    (dev : BlockDev)
    (lba : Nat) :
    Nat → Option ByteMem × BlockDev
| 0 => (none, dev)
| retries + 1 =>
    match lbaToChs dev lba with
    | none => (none, dev)
    | some chs =>
        match fat12ReadSector dev.disk chs.sector with
        | (some sector, disk) =>
            (some sector, { dev with disk })
        | (none, disk) =>
            retryRead { dev with disk } lba retries

/- `block_dev_read`: true when it returns 0. -/
def blockDevRead
    (dev : BlockDev)
    (lba : Nat)
    (p : UInt32)
    (mem : ByteMem) : Bool × ByteMem × BlockDev :=
  if dev.ready ∧ p ≠ 0 then
    match retryRead dev lba 5 with
    | (none, dev) => (false, mem, dev)
    | (some sector, dev) =>
        (true, mem.storeBlock (transferAddr p) 512 sector, dev)
  else
    (false, mem, dev)

------------------------------------------------------------
-- Mounting
------------------------------------------------------------

/- `fat12_fs_t` at an address, with its device. -/
structure Fat12Fs where
  addr : UInt32
  dev : BlockDev
  ready : Bool

/- `fs->fat`, behind the device pointer. -/
def Fat12Fs.fatAddr
    (fs : Fat12Fs) : UInt32 :=
  fs.addr + 4

/- `fs->root`, behind the table. -/
def Fat12Fs.rootAddr
    (fs : Fat12Fs) : UInt32 :=
  fs.addr + 4612

/- The table in memory. -/
def Fat12Fs.fat
    (fs : Fat12Fs)
    (mem : ByteMem) : ByteMem :=
  mem.view fs.fatAddr.toNat

/- The root directory in memory. -/
def Fat12Fs.root
    (fs : Fat12Fs)
    (mem : ByteMem) : ByteMem :=
  mem.view fs.rootAddr.toNat

/- `fat12_init`; the tables keep what the memory holds. -/
def fat12Init
    (addr : UInt32)
    (dev : BlockDev) : Fat12Fs where
  addr := addr
  dev := dev
  ready := false

/-
  The loops of `fat12_mount`: sectors `lba .. lba + n - 1` to
  a table, giving up at the first failure.
-/
def loadTable
    (dev : BlockDev)
    (lba : Nat)
    (table : UInt32)
    (mem : ByteMem) :
    Nat → Bool × ByteMem × BlockDev
| 0 => (true, mem, dev)
| s + 1 =>
    match loadTable dev lba table mem s with
    | (false, mem, dev) => (false, mem, dev)
    | (true, mem, dev) =>
        blockDevRead dev (lba + s)
          (table + UInt32.ofNat (512 * s)) mem

/- `fat12_mount`. -/
def fat12Mount
    (fs : Fat12Fs)
    (mem : ByteMem) : Int × ByteMem × Fat12Fs :=
  match loadTable fs.dev 33 fs.fatAddr mem 9 with
  | (false, mem, dev) => (-1, mem, { fs with dev })
  | (true, mem, dev) =>
      match loadTable dev 51 fs.rootAddr mem 14 with
      | (false, mem, dev) => (-1, mem, { fs with dev })
      | (true, mem, dev) =>
          (0, mem, { fs with dev, ready := true })

------------------------------------------------------------
-- Reading
------------------------------------------------------------

/- `fat12_normalize_name`, the text of `fat_normalize`. -/
def fat12NormalizeName
    (src : List UInt8) : List UInt8 :=
  fatNormalize src

/- `fat12_next_cluster`, the text of `fat_next_cluster`. -/
def fat12NextCluster
    (fat : ByteMem)
    (cluster : Nat) : Option Nat :=
  fatNextCluster fat cluster

/- `fat12_find_entry`, with the slot it stores. -/
def fat12FindEntry
    (root : ByteMem)
    (name83 : List UInt8) : Option Nat :=
  fatFindEntry root name83

/- `fat12_read_cluster`: true when it returns 0. -/
def fat12ReadCluster
    (dev : BlockDev)
    (cluster : Nat)
    (p : UInt32)
    (mem : ByteMem) : Bool × ByteMem × BlockDev :=
  if cluster < 2 then
    (false, mem, dev)
  else
    blockDevRead dev (fatDataStart + (cluster - 2)) p mem

/-
  The loop of `fat12_read_file`, which copies whole sectors
  and follows the table in memory.  It returns nothing when a
  link lies outside the table or the iterations run out, in
  which case it never ends.
-/
def fat12ReadLoop
    (fs : Fat12Fs)
    (dst : UInt32)
    (max : Nat) :
    Nat → Nat → Nat → ByteMem → BlockDev →
      Option (Bool × Nat × ByteMem × BlockDev)
| 0, _, _, _, _ => none
| fuel + 1, cluster, written, mem, dev =>
    if cluster < fatEnd ∧ written < max then
      match fat12ReadCluster dev cluster
          (dst + UInt32.ofNat written) mem with
      | (false, mem, dev) => some (false, written, mem, dev)
      | (true, mem, dev) =>
          match fat12NextCluster (fs.fat mem) cluster with
          | none => none
          | some next =>
              fat12ReadLoop fs dst max fuel next
                ((written + 512) % 2 ^ 32) mem dev
    else
      some (true, written, mem, dev)

/- What a read returns, and what it stores to `out_size`. -/
structure FileRead where
  rc : Int
  outSize : Option Nat
deriving DecidableEq

/- `fat12_read_file`. -/
def fat12ReadFile
    (fs : Fat12Fs)
    (name83 : List UInt8)
    (buf : UInt32)
    (max : Nat)
    (mem : ByteMem) : Option (FileRead × ByteMem × Fat12Fs) :=
  if fs.ready then
    match fat12FindEntry (fs.root mem) name83 with
    | none => some (⟨-1, none⟩, mem, fs)
    | some slot =>
        let size := slotSize (fs.root mem) slot
        match fat12ReadLoop fs buf max readFuel
            (slotCluster (fs.root mem) slot) 0 mem fs.dev with
        | none => none
        | some (false, _, mem, dev) =>
            some (⟨-1, none⟩, mem, { fs with dev })
        | some (true, written, mem, dev) =>
            let written := if written > size then size else written
            some (⟨0, some written⟩, mem, { fs with dev })
  else
    some (⟨-1, none⟩, mem, fs)

------------------------------------------------------------
-- Addresses
------------------------------------------------------------

/- ES:BX has the fifth hex digit of a pointer and its last. -/
theorem transferAddr_eq
    (p : UInt32) :
    transferAddr p =
      p.toNat / 65536 % 16 * 65536 + p.toNat % 16 := by
  have hSeg :
      (transferSeg p).toNat = p.toNat / 65536 % 16 * 4096 := by
    have hMask :=
      Bits.and_mask_shiftLeft (p.toNat / 16) 4 12
    unfold transferSeg
    rw [UInt32.toNat_toUInt16, UInt32.toNat_and,
      UInt32.toNat_shiftRight]
    change (p.toNat >>> 4 &&& (2 ^ 4 - 1) <<< 12) % 2 ^ 16 = _
    rw [Nat.shiftRight_eq_div_pow]
    change (p.toNat / 16 &&& (2 ^ 4 - 1) <<< 12) % 2 ^ 16 = _
    rw [hMask]
    omega
  have hOff : (transferOff p).toNat = p.toNat % 16 := by
    unfold transferOff
    rw [UInt32.toNat_toUInt16, UInt32.toNat_and]
    change (p.toNat &&& (2 ^ 4 - 1)) % 2 ^ 16 = _
    rw [Nat.and_two_pow_sub_one_eq_mod]
    omega
  rw [transferAddr, hSeg, hOff]
  omega

/- Every transfer lies below 1 MB. -/
theorem transferAddr_le
    (p : UInt32) :
    transferAddr p + 512 ≤ 0x100000 := by
  rw [transferAddr_eq]
  omega

/- What a device delivers, wherever it is stored. -/
def sectorRead
    (dev : BlockDev)
    (lba : Nat) : Option ByteMem × BlockDev :=
  if dev.ready then retryRead dev lba 5 else (none, dev)

section Reads

variable {dev : BlockDev}
variable {lba : Nat}
variable {p : UInt32}
variable {mem : ByteMem}

/- A read stores what the device delivers. -/
theorem blockDevRead_eq
    (hp : p ≠ 0) :
    blockDevRead dev lba p mem =
      match sectorRead dev lba with
      | (none, dev) => (false, mem, dev)
      | (some sector, dev) =>
          (true, mem.storeBlock (transferAddr p) 512 sector,
            dev) := by
  unfold blockDevRead sectorRead
  by_cases hReady : dev.ready = true
  · rw [if_pos ⟨hReady, hp⟩, if_pos hReady]
  · rw [if_neg (fun hBoth => hReady hBoth.1), if_neg hReady]

/- Nothing is read to the null pointer. -/
theorem blockDevRead_null :
    blockDevRead dev lba 0 mem = (false, mem, dev) := by
  unfold blockDevRead
  rw [if_neg (fun hBoth => hBoth.2 rfl)]

/- A read changes at most the 512 bytes at ES:BX. -/
theorem blockDevRead_outside
    {x : Nat}
    (hOut : x < transferAddr p ∨ transferAddr p + 512 ≤ x) :
    (blockDevRead dev lba p mem).2.1 x = mem x := by
  by_cases hp : p = 0
  · rw [hp, blockDevRead_null]
  · rw [blockDevRead_eq hp]
    rcases sectorRead dev lba with ⟨_ | sector, dev'⟩
    · rfl
    · exact storeBlock_outside hOut

theorem fat12ReadCluster_outside
    {cluster x : Nat}
    (hOut : x < transferAddr p ∨ transferAddr p + 512 ≤ x) :
    (fat12ReadCluster dev cluster p mem).2.1 x = mem x := by
  unfold fat12ReadCluster
  split
  · rfl
  · exact blockDevRead_outside hOut

/- A table load changes at most the windows of its sectors. -/
theorem loadTable_outside
    (dev : BlockDev)
    (lba : Nat)
    (table : UInt32)
    (mem : ByteMem)
    {n x : Nat}
    (hOut :
      ∀ s < n,
        x < transferAddr (table + UInt32.ofNat (512 * s)) ∨
          transferAddr (table + UInt32.ofNat (512 * s)) + 512 ≤
            x) :
    (loadTable dev lba table mem n).2.1 x = mem x := by
  induction n with
  | zero => rfl
  | succ s ih =>
      have hRest := ih fun s' hs => hOut s' (by omega)
      unfold loadTable
      rcases hLoad : loadTable dev lba table mem s with
        ⟨ok, mem', dev'⟩
      rw [hLoad] at hRest
      cases ok with
      | false => exact hRest
      | true =>
          exact (blockDevRead_outside (hOut s (by omega))).trans
            hRest

end Reads

------------------------------------------------------------
-- Ready Devices
------------------------------------------------------------

/- An initialised device on which no transfer fails. -/
structure BlockDev.Ready
    (dev : BlockDev) : Prop where
  spt : dev.sectorsPerTrack = 18
  heads : dev.heads = 2
  ready : dev.ready = true
  reliable : dev.disk.Reliable

/- The device after some operations. -/
def BlockDev.issued
    (dev : BlockDev)
    (ops : List SectorOp) : BlockDev :=
  { dev with disk := dev.disk.issued ops }

section ReadyDevice

variable {dev : BlockDev}

theorem blockDevInit_ready
    {disk : Device}
    (hDisk : disk.Reliable)
    (drive : UInt8) :
    (blockDevInit disk drive).Ready :=
  ⟨rfl, rfl, rfl, hDisk⟩

theorem BlockDev.Ready.issued
    (hDev : dev.Ready)
    (ops : List SectorOp) :
    (dev.issued ops).Ready :=
  ⟨hDev.spt, hDev.heads, hDev.ready,
    hDev.reliable.issued ops⟩

@[simp] theorem BlockDev.issued_image
    (ops : List SectorOp) :
    (dev.issued ops).disk.image = dev.disk.image :=
  rfl

@[simp] theorem BlockDev.issued_issued
    (ops ops' : List SectorOp) :
    (dev.issued ops).issued ops' =
      dev.issued (ops ++ ops') := by
  simp [BlockDev.issued]

/- A sector number and its position are one place. -/
theorem lbaToChs_sector
    (hSpt : dev.sectorsPerTrack = 18)
    (hHeads : dev.heads = 2)
    {lba : Nat}
    (hLba : lba < 9216) :
    ∃ chs, lbaToChs dev lba = some chs ∧ chs.sector = lba := by
  refine
    ⟨⟨UInt8.ofNat (lba / 18 % 2), UInt8.ofNat (lba % 18 + 1),
      UInt8.ofNat (lba / 36)⟩, ?_, ?_⟩
  · simp only [lbaToChs, hSpt, hHeads]
    rw [if_neg (by omega), if_neg (by omega)]
  · simp only [Chs.sector, UInt8.toNat_ofNat']
    omega

/- The first try of a read succeeds. -/
theorem sectorRead_ready
    (hDev : dev.Ready)
    {lba : Nat}
    (hLba : lba < 9216) :
    sectorRead dev lba =
      (some (dev.disk.image.view (512 * lba)),
        dev.issued [.read lba]) := by
  rcases lbaToChs_sector hDev.spt hDev.heads hLba with
    ⟨chs, hChs, hSector⟩
  rw [sectorRead, if_pos hDev.ready]
  simp only [retryRead, hChs, hSector,
    fat12ReadSector_reliable hDev.reliable]
  rfl

theorem blockDevRead_ready
    (hDev : dev.Ready)
    {lba : Nat}
    (hLba : lba < 9216)
    {p : UInt32}
    (hp : p ≠ 0)
    (mem : ByteMem) :
    blockDevRead dev lba p mem =
      (true,
        mem.storeBlock (transferAddr p) 512
          (dev.disk.image.view (512 * lba)),
        dev.issued [.read lba]) := by
  rw [blockDevRead_eq hp, sectorRead_ready hDev hLba]

/- A table load reads all its sectors. -/
theorem loadTable_ready
    (hDev : dev.Ready)
    (lba : Nat)
    (table : UInt32)
    (mem : ByteMem)
    (n : Nat)
    (hLba : lba + n ≤ 9216)
    (hTable : ∀ s < n, table + UInt32.ofNat (512 * s) ≠ 0) :
    ∃ mem', loadTable dev lba table mem n =
      (true, mem', dev.issued (readOps lba n)) := by
  induction n with
  | zero => exact ⟨mem, rfl⟩
  | succ s ih =>
      rcases ih (by omega) fun s' hs => hTable s' (by omega) with
        ⟨mem', hLoad⟩
      unfold loadTable
      rw [hLoad]
      dsimp only
      rw [blockDevRead_ready (hDev.issued _) (by omega)
        (hTable s (by omega)), BlockDev.issued_issued]
      have hOps :
          readOps lba s ++ [.read (lba + s)] =
            readOps lba (s + 1) := by
        rw [readOps, readOps, List.range_succ, List.map_append]
        rfl
      rw [hOps]
      exact ⟨_, rfl⟩

end ReadyDevice

------------------------------------------------------------
-- A Directory In Memory
------------------------------------------------------------

section Entry

open FatPut

variable {name83 : List UInt8}

/- A memory whose root directory has one file, and no links. -/
def entryMemory
    (fs : Fat12Fs)
    (name83 : List UInt8)
    (start size : Nat) : ByteMem :=
  fun x =>
    if x < fs.rootAddr.toNat then 0
    else
      entryRoot zeros 0 name83 start size
        (x - fs.rootAddr.toNat)

theorem root_entryMemory
    (fs : Fat12Fs)
    (name83 : List UInt8)
    (start size : Nat) :
    fs.root (entryMemory fs name83 start size) =
      entryRoot zeros 0 name83 start size := by
  funext x
  unfold Fat12Fs.root
  rw [view_apply, entryMemory, if_neg (by omega),
    Nat.add_sub_cancel_left]

/- The file is found, if its name is not that of a free slot. -/
theorem fatFindEntry_entryRoot
    (hLength : name83.length = 11)
    (hUsed : name83.getD 0 0 ≠ 0)
    (hKept : name83.getD 0 0 ≠ 0xE5)
    (start size : Nat) :
    fatFindEntry (entryRoot zeros 0 name83 start size) name83 =
      some 0 := by
  rw [fatFindEntry_eq_some_iff]
  refine ⟨by omega, ?_, fun i hi => absurd hi (Nat.not_lt_zero i)⟩
  simp only [slotMatches, slotFree_entryRoot,
    slotDirectory_entryRoot, slotName_entryRoot hLength,
    decide_eq_false hUsed, decide_eq_false hKept, Bool.or_self,
    Bool.not_false, Bool.and_self, decide_true]

end Entry

end Storage

end AsmOS
