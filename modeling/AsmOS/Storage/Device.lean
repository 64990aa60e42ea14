import AsmOS.Base.ByteMem

/-
  The sector device under the x86 storage HAL.

  `fat12_read_sector` and `fat12_write_sector` are jumps to
  the ATA routines `disk_read_sector` and
  `disk_write_sector`.  A read fails before any data moves;
  a write fails either before the transfer or at the final
  ready poll, when the data has already been sent.

  Main declarations:
    * `Device`
    * `fat12ReadSector`, `fat12WriteSector`
    * `readSectors`, `writeSectors`
    * `Device.Reliable`
    * `readSectors_reliable`
-/

------------------------------------------------------------
-- Device State
------------------------------------------------------------

namespace AsmOS

namespace Storage

/- One operation issued to the device. -/
inductive SectorOp where
  | read (lba : Nat)
  | write (lba : Nat)
deriving DecidableEq, Repr

/- How one sector write ends. -/
inductive WriteEnd where
  | done
  | refused
  | unconfirmed
deriving DecidableEq, Repr

/-
  The disk with its failure pattern.  Byte `b` of sector
  `lba` is `image (512 * lba + b)`.  The patterns are indexed
  by the number of operations issued before, which is the
  length of `log` (latest operation first).
-/
structure Device where
  image : ByteMem
  readFails : Nat → Bool
  writeEnds : Nat → WriteEnd
  log : List SectorOp

namespace Device

/- No sector operation ever fails. -/
def Reliable
    (dev : Device) : Prop :=
  (∀ k, dev.readFails k = false) ∧
    ∀ k, dev.writeEnds k = .done

/- A device holding `image` on which nothing fails. -/
def ofImage
    (image : ByteMem) : Device where
  image := image
  readFails := fun _ => false
  writeEnds := fun _ => .done
  log := []

theorem ofImage_reliable
    (image : ByteMem) :
    (ofImage image).Reliable :=
  ⟨fun _ => rfl, fun _ => rfl⟩

/- Append operations, given in issue order, to the log. -/
def issued
    (dev : Device)
    (ops : List SectorOp) : Device :=
  { dev with log := ops.reverse ++ dev.log }

/- Replace the image. -/
def withImage
    (dev : Device)
    (image : ByteMem) : Device :=
  { dev with image := image }

variable {dev : Device} {ops ops' : List SectorOp}
variable {image : ByteMem}

@[simp] theorem issued_image :
    (dev.issued ops).image = dev.image :=
  rfl

@[simp] theorem withImage_image :
    (dev.withImage image).image = image :=
  rfl

@[simp] theorem issued_nil :
    dev.issued [] = dev :=
  rfl

@[simp] theorem withImage_self :
    dev.withImage dev.image = dev :=
  rfl

@[simp] theorem issued_issued :
    (dev.issued ops).issued ops' =
      dev.issued (ops ++ ops') := by
  simp [issued]

@[simp] theorem withImage_withImage
    {image' : ByteMem} :
    (dev.withImage image).withImage image' =
      dev.withImage image' :=
  rfl

@[simp] theorem issued_withImage :
    (dev.issued ops).withImage image =
      (dev.withImage image).issued ops :=
  rfl

theorem Reliable.issued
    (hDev : dev.Reliable)
    (ops : List SectorOp) :
    (dev.issued ops).Reliable :=
  hDev

theorem Reliable.withImage
    (hDev : dev.Reliable)
    (image : ByteMem) :
    (dev.withImage image).Reliable :=
  hDev

end Device

------------------------------------------------------------
-- Sector Operations
------------------------------------------------------------

/-
  `fat12_read_sector`: the 512 bytes of sector `lba`, or
  nothing when the routine returns -1.
-/
def fat12ReadSector
    (dev : Device)
    (lba : Nat) :
    Option ByteMem × Device :=
  if dev.readFails dev.log.length then
    (none, dev.issued [.read lba])
  else
    (some (dev.image.view (512 * lba)),
      dev.issued [.read lba])

/- `fat12_write_sector`: true when the routine returns 0. -/
def fat12WriteSector
    (dev : Device)
    (lba : Nat)
    (buf : ByteMem) :
    Bool × Device :=
  let stored := dev.image.storeBlock (512 * lba) 512 buf
  match dev.writeEnds dev.log.length with
  | .done =>
      (true, (dev.withImage stored).issued [.write lba])
  | .refused => (false, dev.issued [.write lba])
  | .unconfirmed =>
      (false, (dev.withImage stored).issued [.write lba])

/-
  The loops that fill a cache from consecutive sectors:
  read sectors `lba .. lba + n - 1` to `cache + 512 * s`,
  giving up at the first failure.
-/
def readSectors
    (dev : Device)
    (lba : Nat)
    (cache : ByteMem) :
    Nat → Bool × ByteMem × Device
| 0 => (true, cache, dev)
| s + 1 =>
    match readSectors dev lba cache s with
    | (false, cache, dev) => (false, cache, dev)
    | (true, cache, dev) =>
        match fat12ReadSector dev (lba + s) with
        | (none, dev) => (false, cache, dev)
        | (some sector, dev) =>
            (true, cache.storeBlock (512 * s) 512 sector,
              dev)

/-
  The loop that flushes a cache to consecutive sectors:
  write sectors `lba .. lba + n - 1` from `cache + 512 * s`.
-/
def writeSectors
    (dev : Device)
    (lba : Nat)
    (cache : ByteMem) :
    Nat → Bool × Device
| 0 => (true, dev)
| s + 1 =>
    match writeSectors dev lba cache s with
    | (false, dev) => (false, dev)
    | (true, dev) =>
        fat12WriteSector dev (lba + s)
          (cache.view (512 * s))

------------------------------------------------------------
-- Reliable Devices
------------------------------------------------------------

variable {dev : Device}

theorem fat12ReadSector_reliable
    (hDev : dev.Reliable)
    (lba : Nat) :
    fat12ReadSector dev lba =
      (some (dev.image.view (512 * lba)),
        dev.issued [.read lba]) := by
  simp [fat12ReadSector, hDev.1]

theorem fat12WriteSector_reliable
    (hDev : dev.Reliable)
    (lba : Nat)
    (buf : ByteMem) :
    fat12WriteSector dev lba buf =
      (true,
        (dev.withImage
          (dev.image.storeBlock (512 * lba) 512
            buf)).issued [.write lba]) := by
  simp [fat12WriteSector, hDev.2]

/- The sector operations of a run of `n` sectors. -/
def readOps
    (lba n : Nat) : List SectorOp :=
  (List.range n).map fun s => .read (lba + s)

def writeOps
    (lba n : Nat) : List SectorOp :=
  (List.range n).map fun s => .write (lba + s)

/- On a reliable device a cache load copies the region. -/
theorem readSectors_reliable
    (hDev : dev.Reliable)
    (lba : Nat)
    (cache : ByteMem)
    (n : Nat) :
    readSectors dev lba cache n =
      (true,
        cache.storeBlock 0 (512 * n)
          (dev.image.view (512 * lba)),
        dev.issued (readOps lba n)) := by
  induction n with
  | zero => simp [readSectors, readOps]
  | succ s ih =>
      simp only [readSectors, ih]
      rw [fat12ReadSector_reliable (hDev.issued _)]
      have hBlock :=
        ByteMem.storeBlock_append cache 0 (512 * s) 512
          (dev.image.view (512 * lba))
      rw [Nat.zero_add, ByteMem.view_view,
        show 512 * lba + 512 * s = 512 * (lba + s) by ring,
        show 512 * s + 512 = 512 * (s + 1) by ring]
        at hBlock
      simp [hBlock, readOps, List.range_succ]

end Storage

end AsmOS
