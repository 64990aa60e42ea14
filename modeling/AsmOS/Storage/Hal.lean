import AsmOS.Base.Packed12
import AsmOS.Storage.Device

/-
  The x86 storage HAL: FAT12 files over the sector device.

  Names are the bytes of a C string before its NUL.  A
  directory slot is the 32-byte record `i` of the root cache:
  name bytes at 0, attributes at 11, start cluster at 26 and
  size at 28.

  A call returns nothing where the C code has no defined
  result: an access outside `fat_cache`, or a read loop that
  never ends.

  Main declarations:
    * `fatNormalize`, `fatNextCluster`
    * `fatFindEntry`, `fatFindFreeEntry`
    * `Fs`, `platFsInit`, `platFsRepair`
    * `platFsList`, `platFsRead`
    * `platFsWrite`, `platFsDelete`
-/

------------------------------------------------------------
-- Layout
------------------------------------------------------------

namespace AsmOS

namespace Storage

open ByteMem

@[simp] abbrev fatLba : Nat := 33
@[simp] abbrev fatRootLba : Nat := 51
@[simp] abbrev fatRootSectors : Nat := 14
@[simp] abbrev fatRootEntries : Nat := 224
@[simp] abbrev fatDataStart : Nat := 65
@[simp] abbrev fatSectors : Nat := 9
@[simp] abbrev fatEnd : Nat := 0xFF8

------------------------------------------------------------
-- Names
------------------------------------------------------------

/- ASCII upper case; signed bytes above 0x7F are kept. -/
def upper
    (c : UInt8) : UInt8 :=
  if 0x61 ≤ c ∧ c ≤ 0x7A then c - 32 else c

/-
  The base-name loop: copies upper-cased characters while
  `j < 8`, and returns them with the unread input.
-/
def normalizeBase :
    List UInt8 → Nat → List UInt8 × List UInt8
| [], _ => ([], [])
| c :: src, j =>
    if c ≠ 0 ∧ c ≠ 0x2E ∧ j < 8 then
      let rest := normalizeBase src (j + 1)
      (upper c :: rest.1, rest.2)
    else
      ([], c :: src)

/- The extension loop: stops at the NUL or at column 11. -/
def normalizeExtension :
    List UInt8 → Nat → List UInt8
| [], _ => []
| c :: src, j =>
    if c ≠ 0 ∧ j < 11 then
      upper c :: normalizeExtension src (j + 1)
    else
      []

/- Skip one dot. -/
def skipDot : List UInt8 → List UInt8
| [] => []
| c :: src => if c = 0x2E then src else c :: src

/- Overwrite the start of a field of `n` spaces. -/
def padSpaces
    (n : Nat)
    (field : List UInt8) : List UInt8 :=
  field ++ List.replicate (n - field.length) 0x20

/-
  `fat_normalize`: a record of eleven spaces, then the base
  and, from column 8, the extension.  The loop that stores
  the spaces leaves `j` at 8, so the base-name loop is over
  before it copies a character.
-/
def fatNormalize
    (src : List UInt8) : List UInt8 :=
  let base := normalizeBase src 8
  padSpaces 8 base.1 ++
    padSpaces 3 (normalizeExtension (skipDot base.2) 8)

------------------------------------------------------------
-- Directory Slots
------------------------------------------------------------

/- `e[0] == 0x00 || e[0] == 0xE5`. -/
def slotFree
    (root : ByteMem)
    (i : Nat) : Bool :=
  root (32 * i) = 0x00 || root (32 * i) = 0xE5

/- `e[11] & 0x10`. -/
def slotDirectory
    (root : ByteMem)
    (i : Nat) : Bool :=
  root (32 * i + 11) &&& 0x10 ≠ 0

/- The eleven name bytes of a slot. -/
def slotName
    (root : ByteMem)
    (i : Nat) : List UInt8 :=
  root.slice (32 * i) 11

/- `*(uint16_t *)(e + 26)`. -/
def slotCluster
    (root : ByteMem)
    (i : Nat) : Nat :=
  root.load16 (32 * i + 26)

/- `*(uint32_t *)(e + 28)`. -/
def slotSize
    (root : ByteMem)
    (i : Nat) : Nat :=
  root.load32 (32 * i + 28)

/- The tests a slot passes in the loop of `fat_find_entry`. -/
def slotMatches
    (root : ByteMem)
    (name83 : List UInt8)
    (i : Nat) : Bool :=
  !slotFree root i && !slotDirectory root i &&
    slotName root i = name83

/- `fat_find_entry`: the first live file of that name. -/
def fatFindEntry
    (root : ByteMem)
    (name83 : List UInt8) : Option Nat :=
  (List.range fatRootEntries).find? (slotMatches root name83)

/- `fat_find_free_entry`. -/
def fatFindFreeEntry
    (root : ByteMem) : Option Nat :=
  (List.range fatRootEntries).find? (slotFree root)

------------------------------------------------------------
-- File Allocation Table
------------------------------------------------------------

/-
  `fat_next_cluster`, with the 16-bit load checked against
  the 4608 bytes of `fat_cache`.
-/
def fatNextCluster
    (fatCache : ByteMem)
    (cluster : Nat) : Option Nat :=
  let off := cluster + (cluster >>> 1)
  if off + 2 ≤ fatSectors * 512 then
    let val := fatCache.load16 off
    if cluster &&& 1 ≠ 0 then
      some (val >>> 4)
    else
      some (val &&& 0x0FFF)
  else
    none

------------------------------------------------------------
-- File-System State
------------------------------------------------------------

/- The static variables of the HAL and its device. -/
structure Fs where
  fatCache : ByteMem
  rootCache : ByteMem
  fsReady : Bool
  dev : Device

/- The state at power-on, before any call. -/
def Fs.start
    (dev : Device) : Fs where
  fatCache := zeros
  rootCache := zeros
  fsReady := false
  dev := dev

/- `fat_load_tables`: true when it returns 0. -/
def fatLoadTables
    (fs : Fs) : Bool × Fs :=
  let fat := readSectors fs.dev fatLba fs.fatCache fatSectors
  let fs := { fs with fatCache := fat.2.1, dev := fat.2.2 }
  if fat.1 then
    let root :=
      readSectors fs.dev fatRootLba fs.rootCache
        fatRootSectors
    (root.1,
      { fs with rootCache := root.2.1, dev := root.2.2 })
  else
    (false, fs)

/- `fat_flush_root`: 0, or -1 at the first failed sector. -/
def fatFlushRoot
    (fs : Fs) : Int × Fs :=
  let flush :=
    writeSectors fs.dev fatRootLba fs.rootCache
      fatRootSectors
  (if flush.1 then 0 else -1, { fs with dev := flush.2 })

/- `plat_fs_init`. -/
def platFsInit
    (fs : Fs) : Int × Fs :=
  match fatLoadTables fs with
  | (ok, fs) =>
      (if ok then 0 else -1, { fs with fsReady := ok })

/- `if (!fs_ready && plat_fs_init() != 0) return -1`. -/
def ensureReady
    (fs : Fs) : Bool × Fs :=
  if fs.fsReady then
    (true, fs)
  else
    match platFsInit fs with
    | (rc, fs) => (rc = 0, fs)

/- `plat_fs_repair`. -/
def platFsRepair
    (fs : Fs) : Int × Fs :=
  match platFsInit fs with
  | (rc, fs) => (if rc ≠ 0 then -1 else 0, fs)

------------------------------------------------------------
-- Listing
------------------------------------------------------------

/-
  What `plat_fs_list` stores for one file: the characters of
  the name before its NUL, the size and the start cluster.
  The NUL of a name of twelve characters falls on the first
  byte of the size, which is stored after it.
-/
structure FileInfo where
  name : List UInt8
  size : Nat
  cluster : Nat
deriving DecidableEq, Repr

/- The base and, after a dot, the extension of a slot. -/
def listName
    (root : ByteMem)
    (i : Nat) : List UInt8 :=
  let base :=
    (root.slice (32 * i) 8).takeWhile fun c => c ≠ 0x20
  if root (32 * i + 8) ≠ 0x20 then
    base ++ 0x2E ::
      (root.slice (32 * i + 8) 3).takeWhile fun c => c ≠ 0x20
  else
    base

def fileInfo
    (root : ByteMem)
    (i : Nat) : FileInfo where
  name := listName root i
  size := slotSize root i
  cluster := slotCluster root i

/-
  The loop of `plat_fs_list` over `k` slots from `i` on, with
  `n` files stored before.
-/
def fatListLoop
    (root : ByteMem)
    (max : Nat) :
    Nat → Nat → Nat → List FileInfo
| 0, _, _ => []
| k + 1, i, n =>
    if n < max then
      if slotFree root i then
        fatListLoop root max k (i + 1) n
      else if slotDirectory root i then
        fatListLoop root max k (i + 1) n
      else
        fileInfo root i ::
          fatListLoop root max k (i + 1) (n + 1)
    else
      []

/- `plat_fs_list`: its return code and the stored files. -/
def platFsList
    (fs : Fs)
    (max : Nat) : (Int × List FileInfo) × Fs :=
  match ensureReady fs with
  | (false, fs) => ((-1, []), fs)
  | (true, fs) =>
      let files :=
        fatListLoop fs.rootCache max fatRootEntries 0 0
      ((files.length, files), fs)

------------------------------------------------------------
-- Reading
------------------------------------------------------------

/-
  The results of `plat_fs_read`: return code, caller's
  buffer, and `*out_size` when it is written.
-/
structure ReadResult where
  rc : Int
  buf : ByteMem
  outSize : Option Nat

/-
  One bound on the iterations of the read loop: every
  iteration but the last copies a whole sector, and `copied`
  is a 32-bit count.
-/
def readFuel : Nat := 2 ^ 23

/-
  The loop of `plat_fs_read`.  It returns nothing when
  `fat_next_cluster` reads outside the cache, or when the
  iterations run out, in which case the loop never ends.
-/
def fatReadLoop
    (fatCache : ByteMem)
    (fsize bufSize : Nat) :
    Nat → Nat → Nat → ByteMem → Device →
      Option (Bool × Nat × ByteMem × Device)
| 0, _, _, _, _ => none
| fuel + 1, cluster, copied, buf, dev =>
    if cluster < fatEnd ∧ copied < fsize ∧
        copied < bufSize then
      match fat12ReadSector dev
          (fatDataStart + cluster - 2) with
      | (none, dev) => some (false, copied, buf, dev)
      | (some sector, dev) =>
          -- 32-bit sums; both differences are guarded above.
          let n :=
            if (copied + 512) % 2 ^ 32 > fsize then
              fsize - copied
            else 512
          let n :=
            if (copied + n) % 2 ^ 32 > bufSize then
              bufSize - copied
            else n
          match fatNextCluster fatCache cluster with
          | none => none
          | some next =>
              fatReadLoop fatCache fsize bufSize fuel next
                ((copied + n) % 2 ^ 32)
                (buf.storeBlock copied n sector) dev
    else
      some (true, copied, buf, dev)

/- `plat_fs_read`. -/
def platFsRead
    (fs : Fs)
    (name : List UInt8)
    (buf : ByteMem)
    (bufSize : Nat) :
    Option (ReadResult × Fs) :=
  match ensureReady fs with
  | (false, fs) => some (⟨-1, buf, none⟩, fs)
  | (true, fs) =>
      match fatFindEntry fs.rootCache
          (fatNormalize name) with
      | none => some (⟨-1, buf, none⟩, fs)
      | some slot =>
          match fatReadLoop fs.fatCache
              (slotSize fs.rootCache slot) bufSize readFuel
              (slotCluster fs.rootCache slot) 0 buf
              fs.dev with
          | none => none
          | some (false, _, buf, dev) =>
              some (⟨-1, buf, none⟩, { fs with dev })
          | some (true, copied, buf, dev) =>
              some (⟨0, buf, some copied⟩, { fs with dev })

------------------------------------------------------------
-- Writing
------------------------------------------------------------

/-
  The loop of `plat_fs_write`: data sectors are laid out one
  after another, the last one padded with zeros.
-/
def fatWriteLoop
    (dev : Device)
    (data : ByteMem)
    (src cluster remaining : Nat) : Bool × Device :=
  if _hLoop : 0 < remaining ∧ cluster < fatEnd then
    let n := if remaining > 512 then 512 else remaining
    match fat12WriteSector dev (fatDataStart + cluster - 2)
        fun j => if j < n then data (src + j) else 0 with
    | (false, dev) => (false, dev)
    | (true, dev) =>
        fatWriteLoop dev data (src + n) (cluster + 1)
          (remaining - n)
  else
    (true, dev)
termination_by fatEnd - cluster
decreasing_by
  simp only [fatEnd] at _hLoop ⊢
  omega

/- The name and attribute stores of a new entry. -/
def nameSlot
    (root : ByteMem)
    (slot : Nat)
    (name83 : List UInt8) : ByteMem :=
  (root.storeBlock (32 * slot) 11
    (ofList name83)).storeByte (32 * slot + 11) 0x20

/- The size and start-cluster stores of every write. -/
def sizeSlot
    (root : ByteMem)
    (slot size : Nat) : ByteMem :=
  (root.store32 (32 * slot + 28) size).store16
    (32 * slot + 26) 2

/-
  The slot `plat_fs_write` uses for a name, and the root
  cache with the name in that slot.
-/
def writeSlot
    (root : ByteMem)
    (name83 : List UInt8) : Option (Nat × ByteMem) :=
  match fatFindEntry root name83 with
  | some slot => some (slot, root)
  | none =>
      match fatFindFreeEntry root with
      | none => none
      | some slot => some (slot, nameSlot root slot name83)

/- `plat_fs_write`. -/
def platFsWrite
    (fs : Fs)
    (name : List UInt8)
    (data : ByteMem)
    (size : Nat) : Int × Fs :=
  match ensureReady fs with
  | (false, fs) => (-1, fs)
  | (true, fs) =>
      match writeSlot fs.rootCache (fatNormalize name) with
      | none => (-1, fs)
      | some (slot, root) =>
          let fs := { fs with rootCache := sizeSlot root slot size }
          match fatWriteLoop fs.dev data 0 2 size with
          | (false, dev) => (-1, { fs with dev })
          | (true, dev) => fatFlushRoot { fs with dev }

------------------------------------------------------------
-- Deleting
------------------------------------------------------------

/- `plat_fs_delete`. -/
def platFsDelete
    (fs : Fs)
    (name : List UInt8) : Int × Fs :=
  match ensureReady fs with
  | (false, fs) => (-1, fs)
  | (true, fs) =>
      match fatFindEntry fs.rootCache
          (fatNormalize name) with
      | none => (-1, fs)
      | some slot =>
          fatFlushRoot
            { fs with
              rootCache :=
                fs.rootCache.storeByte (32 * slot) 0xE5 }

end Storage

end AsmOS
