import AsmOS.Base.Packed12

/-
  The kernel loader of the live boot image
  (`boot/loader.asm`, `fatload_kernel`).

  The loader runs in real mode: an address is a 16-bit
  segment and a 16-bit offset, and with A20 on it means the
  byte at `16 * segment + offset`.  Registers are numbers
  below `2 ^ 16`.  The loader's labels are parameters; the
  stack lies below the loader and is left out.

  Main declarations:
    * `LoaderImage`
    * `readLba`, `readSector`
    * `find`
    * `fatloadEntry`
    * `cloopStep`, `cloop`
-/

------------------------------------------------------------
-- Segments And Labels
------------------------------------------------------------

namespace AsmOS

namespace Boot

open ByteMem

abbrev fatData : Nat := 65

abbrev fatRoot : Nat := 51

abbrev fatStart : Nat := 33

abbrev fatSeg : Nat := 0x1000

abbrev rootSeg : Nat := 0x1100

/-
  Where the assembler put the two variables.  The loader's
  code and data occupy sectors 1 to 32 of the disk at most
  and are at `0x7E00` in segment 0.
-/
structure LoaderImage where
  kernelName : Nat
  cluster : Nat
  kernelName_lo : 0x7E00 ≤ kernelName
  kernelName_hi : kernelName + 11 ≤ 0xBE00
  cluster_lo : 0x7E00 ≤ cluster
  cluster_hi : cluster + 2 ≤ 0xBE00

/- `KERNEL  BIN`. -/
def kernelName : List UInt8 :=
  [0x4B, 0x45, 0x52, 0x4E, 0x45, 0x4C, 0x20, 0x20, 0x42,
    0x49, 0x4E]

/- The byte that a segment and an offset address. -/
def linear
    (seg off : Nat) : Nat :=
  16 * seg + off

------------------------------------------------------------
-- Reading Sectors
------------------------------------------------------------

/- The registers that address a sector for INT 13h. -/
structure Chs where
  ch : Nat
  cl : Nat
  dh : Nat

/- `lba_chs`, from the low half of EAX. -/
def lbaChs
    (eax : Nat) : Chs :=
  let ax := eax % 65536
  let cl := ax % 18 + 1
  let ax := ax / 18
  let dh := ax % 2
  let ax := ax / 2
  ⟨ax % 256, cl, dh⟩

/-
  The sector that INT 13h reads from a disk of 18 sectors a
  track and two heads, whatever drive DL names.
-/
def int13Sector
    (disk : ByteMem)
    (chs : Chs) : ByteMem :=
  disk.view
    (512 * ((chs.ch * 2 + chs.dh) * 18 + (chs.cl - 1)))

/- `read_es`: the sector EAX goes to ES:BX. -/
def readSector
    (disk mem : ByteMem)
    (eax es bx : Nat) : ByteMem :=
  storeBlock mem (linear es bx) 512
    (int13Sector disk (lbaChs eax))

/- `read_lba`: ECX sectors from EAX on go to ES:BX. -/
def readLba
    (disk : ByteMem)
    (es : Nat) :
    Nat → Nat → Nat → ByteMem → ByteMem
| 0, _, _, mem => mem
| ecx + 1, eax, bx, mem =>
    readLba disk es ecx (eax + 1) ((bx + 512) % 65536)
      (readSector disk mem eax es bx)

/- The memory after the FAT and the root were loaded. -/
def loadTables
    (disk mem : ByteMem) : ByteMem :=
  let mem := readLba disk fatSeg 9 fatStart 0 mem
  readLba disk rootSeg 14 fatRoot 0 mem

------------------------------------------------------------
-- Finding The Kernel
------------------------------------------------------------

/- `repe cmpsb` of DS:SI with ES:DI: do all bytes agree? -/
def repeCmpsb
    (mem : ByteMem)
    (ds es : Nat) :
    Nat → Nat → Nat → Bool
| 0, _, _ => true
| cx + 1, si, di =>
    if mem (linear ds si) = mem (linear es di) then
      repeCmpsb mem ds es cx ((si + 1) % 65536)
        ((di + 1) % 65536)
    else false

/-
  `.find` with CX entries to go: DI at `.got`, or `none` for
  the jump to `disk_err`.  DS and ES are both `ROOT_SEG`.
-/
def find
    (image : LoaderImage)
    (mem : ByteMem) :
    Nat → Nat → Option Nat
| 0, _ => none
| cx + 1, di =>
    if repeCmpsb mem rootSeg rootSeg 11 image.kernelName di then
      some di
    else find image mem cx ((di + 32) % 65536)

/- The registers and the memory at `.cloop`; DS is `FAT_SEG`. -/
structure LoopState where
  es : Nat
  bx : Nat
  mem : ByteMem

/- The word `[cluster]` as `.cloop` reads it. -/
def LoopState.cluster
    (image : LoaderImage)
    (s : LoopState) : Nat :=
  load16 s.mem (linear fatSeg image.cluster)

/- `.got`: DS is still `ROOT_SEG` for both moves. -/
def got
    (image : LoaderImage)
    (mem : ByteMem)
    (di : Nat) : LoopState :=
  let ax := load16 mem (linear rootSeg ((di + 26) % 65536))
  { es := 0xFFFF
    bx := 0x0010
    mem := store16 mem (linear rootSeg image.cluster) ax }

/- `fatload_kernel` up to `.cloop`: DI at `.got`, the state. -/
def fatloadEntry
    (image : LoaderImage)
    (disk mem : ByteMem) : Option (Nat × LoopState) :=
  let mem := loadTables disk mem
  (find image mem 224 0).map fun di => (di, got image mem di)

------------------------------------------------------------
-- Loading The Kernel
------------------------------------------------------------

/- A sector read of `.cloop` and the state after its turn. -/
structure Transfer where
  lba : Nat
  dest : Nat
  next : LoopState

/- The next cluster of `ax`, from the FAT copy at DS:0. -/
def nextCluster
    (mem : ByteMem)
    (ax : Nat) : Nat :=
  let si := (ax / 2 + ax) % 65536
  let word := load16 mem (linear fatSeg si)
  if ax % 2 = 1 then word / 16 else word % 4096

/- One turn of `.cloop`, or `none` at `.done`. -/
def cloopStep
    (image : LoaderImage)
    (disk : ByteMem)
    (s : LoopState) : Option Transfer :=
  let ax := s.cluster image
  if 0xFF8 ≤ ax then none
  else
    -- Two decrements of a 16-bit register.
    let cx := (ax + 65534) % 65536
    let lba := (fatData + cx) % 65536
    let mem := readSector disk s.mem lba s.es s.bx
    let es :=
      if 65536 ≤ s.bx + 512 then (s.es + 0x1000) % 65536
      else s.es
    let bx := (s.bx + 512) % 65536
    let ax := load16 mem (linear fatSeg image.cluster)
    let mem' :=
      store16 mem (linear fatSeg image.cluster)
        (nextCluster mem ax)
    some ⟨lba, linear s.es s.bx, ⟨es, bx, mem'⟩⟩

/-
  `.cloop` for at most `fuel` turns: its transfers and the
  state at `.done`, or `none` when it is still running.
-/
def cloop
    (image : LoaderImage)
    (disk : ByteMem) :
    Nat → LoopState → Option (List Transfer × LoopState)
| 0, _ => none
| fuel + 1, s =>
    match cloopStep image disk s with
    | none => some ([], s)
    | some t =>
        (cloop image disk fuel t.next).map fun r =>
          (t :: r.1, r.2)

------------------------------------------------------------
-- What The Reads Store
------------------------------------------------------------

variable {disk mem : ByteMem} {eax es bx n x : Nat}

/- INT 13h finds the sector that `lba_chs` was asked for. -/
theorem int13Sector_lbaChs
    (hDisk : eax < 9216) :
    int13Sector disk (lbaChs eax) = disk.view (512 * eax) := by
  have hWhole :
      (eax % 65536 / 18 / 2 % 256 * 2 + eax % 65536 / 18 % 2) *
          18 + (eax % 65536 % 18 + 1 - 1) = eax := by
    omega
  simp only [int13Sector, lbaChs, hWhole]

theorem readSector_eq
    (hDisk : eax < 9216) :
    readSector disk mem eax es bx =
      storeBlock mem (linear es bx) 512
        (disk.view (512 * eax)) := by
  rw [readSector, int13Sector_lbaChs hDisk]

/- Consecutive sectors inside a segment are one block. -/
theorem readLba_eq
    (n : Nat)
    (hDisk : eax + n ≤ 9216)
    (hSegment : bx + 512 * n ≤ 65536) :
    readLba disk es n eax bx mem =
      storeBlock mem (linear es bx) (512 * n)
        (disk.view (512 * eax)) := by
  induction n generalizing eax bx mem with
  | zero => simp [readLba]
  | succ n ih =>
      rw [readLba, readSector_eq (by omega)]
      rcases Nat.eq_zero_or_pos n with rfl | hPos
      · simp [readLba]
      · have hOffset : (bx + 512) % 65536 = bx + 512 := by omega
        have hNext :
            linear es (bx + 512) = linear es bx + 512 := by
          simp only [linear]
          omega
        have hView :
            disk.view (512 * (eax + 1)) =
              (disk.view (512 * eax)).view 512 := by
          rw [view_view]
          rfl
        rw [hOffset, ih (by omega) (by omega), hNext, hView,
          storeBlock_append]
        rw [show 512 + 512 * n = 512 * (n + 1) by omega]

/- Where the two tables are; they overlap in one sector. -/
theorem loadTables_eq :
    loadTables disk mem =
      storeBlock
        (storeBlock mem 0x10000 4608 (disk.view (512 * 33)))
        0x11000 7168 (disk.view (512 * 51)) := by
  simp only [loadTables]
  rw [readLba_eq 9 (by decide) (by decide),
    readLba_eq 14 (by decide) (by decide)]
  rfl

/- The root directory is in memory as it is on the disk. -/
theorem loadTables_root
    (hx : x < 7168) :
    loadTables disk mem (0x11000 + x) = disk (512 * 51 + x) := by
  rw [loadTables_eq, storeBlock_inside (by omega) (by omega),
    Nat.add_sub_cancel_left]
  rfl

/- Outside of the tables the memory is as it was. -/
theorem loadTables_outside
    (hOut : x < 0x10000 ∨ 0x12C00 ≤ x) :
    loadTables disk mem x = mem x := by
  rw [loadTables_eq, storeBlock_outside (by omega),
    storeBlock_outside (by omega)]

end Boot

end AsmOS
