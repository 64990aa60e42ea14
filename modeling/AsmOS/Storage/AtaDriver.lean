import AsmOS.Storage.Device

/-
  The ATA driver (`boot/arch_x86/disk_io.asm`) over the ports
  of the disk controller.

  The controller is not part of the source.  It is given by
  what its ports do: the status bits, the registers, and a
  transfer of 256 words after a read or a write command that
  it accepts.  It refuses a command, or fails to store what
  it was sent, with an error bit that the driver never tests.

  Main declarations:
    * `AtaReg`, `AtaPhase`, `AtaController`
    * `ataWaitReady`, `ataWaitDrq`
    * `diskReadSector`, `diskWriteSector`
-/

------------------------------------------------------------
-- The Controller
------------------------------------------------------------

namespace AsmOS

namespace Storage

open ByteMem

/- The registers at the ports `0x1F2` to `0x1F6`. -/
inductive AtaReg where
| seccnt
| lba0
| lba1
| lba2
| drive
deriving DecidableEq

/- A transfer goes on from word `pos` of a sector. -/
inductive AtaPhase where
| idle
| reading (lba pos : Nat)
| writing (lba pos : Nat)
deriving DecidableEq

/- The sector that the registers name, with 28 bits. -/
def ataAddress
    (regs : AtaReg → UInt8) : Nat :=
  (regs .lba0).toNat + 2 ^ 8 * (regs .lba1).toNat +
    2 ^ 16 * (regs .lba2).toNat +
    2 ^ 24 * (regs .drive &&& 0x0F).toNat

/- The phase after word `pos` of 256. -/
def afterWord
    (phase : Nat → AtaPhase)
    (pos : Nat) : AtaPhase :=
  if pos + 1 = 256 then .idle else phase (pos + 1)

/-
  A controller with one disk.  `busy` is the number of
  status reads for which it stays busy, `failed` tells that
  the last command ends with the bit ERR or DF set, and
  `image` is what the sectors hold, with the words that the
  controller has taken so far.
-/
structure AtaController (σ : Type) where
  inStatus : σ → UInt8 × σ
  outReg : AtaReg → UInt8 → σ → σ
  outCmd : UInt8 → σ → σ
  inData : σ → UInt16 × σ
  outData : UInt16 → σ → σ
  image : σ → ByteMem
  regs : σ → AtaReg → UInt8
  phase : σ → AtaPhase
  busy : σ → Nat
  failed : σ → Bool
  status_bsy :
    ∀ s, (inStatus s).1 &&& 0x80 = 0 ↔ busy s = 0
  status_drq :
    ∀ s, (inStatus s).1 &&& 0x08 ≠ 0 ↔
      busy s = 0 ∧ phase s ≠ .idle
  status_err :
    ∀ s, busy s = 0 →
      ((inStatus s).1 &&& 0x21 ≠ 0 ↔ failed s = true)
  status_next :
    ∀ s, image (inStatus s).2 = image s ∧
      phase (inStatus s).2 = phase s ∧
      failed (inStatus s).2 = failed s ∧
      busy (inStatus s).2 = busy s - 1
  reg_next :
    ∀ r v s, busy s = 0 → phase s = .idle →
      image (outReg r v s) = image s ∧
        regs (outReg r v s) = Function.update (regs s) r v ∧
        phase (outReg r v s) = .idle ∧ busy (outReg r v s) = 0
  cmd_read :
    ∀ s, busy s = 0 → phase s = .idle → regs s .seccnt = 1 →
      regs s .drive &&& 0xF0 = 0xE0 →
        image (outCmd 0x20 s) = image s ∧
          phase (outCmd 0x20 s) =
            if failed (outCmd 0x20 s) then .idle
            else .reading (ataAddress (regs s)) 0
  cmd_write :
    ∀ s, busy s = 0 → phase s = .idle → regs s .seccnt = 1 →
      regs s .drive &&& 0xF0 = 0xE0 →
        image (outCmd 0x30 s) = image s ∧
          phase (outCmd 0x30 s) =
            if failed (outCmd 0x30 s) then .idle
            else .writing (ataAddress (regs s)) 0
  data_read :
    ∀ s lba pos, busy s = 0 → phase s = .reading lba pos →
      pos < 256 →
        (inData s).1.toNat =
            load16 (image s) (512 * lba + 2 * pos) ∧
          image (inData s).2 = image s ∧
          phase (inData s).2 = afterWord (.reading lba) pos ∧
          failed (inData s).2 = failed s ∧
          (pos + 1 < 256 → busy (inData s).2 = 0)
  data_write :
    ∀ w s lba pos, busy s = 0 → phase s = .writing lba pos →
      pos < 256 →
        phase (outData w s) = afterWord (.writing lba) pos ∧
          (failed (outData w s) = false →
            image (outData w s) =
              store16 (image s) (512 * lba + 2 * pos)
                w.toNat) ∧
          (pos + 1 < 256 →
            busy (outData w s) = 0 ∧
              failed (outData w s) = false)

------------------------------------------------------------
-- The Driver
------------------------------------------------------------

section Driver

variable {σ : Type}

/- At most `tries` reads of the status, until one is good. -/
def ataPoll
    (ata : AtaController σ)
    (good : UInt8 → Bool) : Nat → σ → Bool × σ
| 0, s => (false, s)
| tries + 1, s =>
    let read := ata.inStatus s
    if good read.1 then (true, read.2)
    else ataPoll ata good tries read.2

/- `ata_wait_ready` and `ata_wait_drq`. -/
def ataWaitReady
    (ata : AtaController σ)
    (s : σ) : Bool × σ :=
  ataPoll ata (fun status => status &&& 0x80 = 0) 100000 s

def ataWaitDrq
    (ata : AtaController σ)
    (s : σ) : Bool × σ :=
  ataPoll ata (fun status => status &&& 0x08 ≠ 0) 100000 s

/- The registers and the command, as both routines write them. -/
def ataCommand
    (ata : AtaController σ)
    (lba : UInt32)
    (cmd : UInt8)
    (s : σ) : σ :=
  let s := ata.outReg .seccnt 1 s
  let s := ata.outReg .lba0 lba.toUInt8 s
  let s := ata.outReg .lba1 (lba >>> 8).toUInt8 s
  let s := ata.outReg .lba2 (lba >>> 16).toUInt8 s
  let s :=
    ata.outReg .drive ((lba >>> 24).toUInt8 &&& 0x0F ||| 0xE0) s
  ata.outCmd cmd s

/- The loop `.rd`, with `n` words to go. -/
def ataReadWords
    (ata : AtaController σ) :
    Nat → Nat → ByteMem → σ → ByteMem × σ
| 0, _, mem, s => (mem, s)
| n + 1, edi, mem, s =>
    let read := ata.inData s
    ataReadWords ata n (edi + 2)
      (mem.store16 edi read.1.toNat) read.2

/- The loop `.wr`. -/
def ataWriteWords
    (ata : AtaController σ)
    (mem : ByteMem) : Nat → Nat → σ → σ
| 0, _, s => s
| n + 1, esi, s =>
    ataWriteWords ata mem n (esi + 2)
      (ata.outData (UInt16.ofNat (mem.load16 esi)) s)

/- `disk_read_sector`, with the result, to the buffer. -/
def diskReadSector
    (ata : AtaController σ)
    (lba : UInt32)
    (buf : Nat)
    (mem : ByteMem)
    (s : σ) : Int × ByteMem × σ :=
  match ataWaitReady ata s with
  | (false, s) => (-1, mem, s)
  | (true, s) =>
      match ataWaitDrq ata (ataCommand ata lba 0x20 s) with
      | (false, s) => (-1, mem, s)
      | (true, s) => (0, ataReadWords ata 256 buf mem s)

/- `disk_write_sector`, from the buffer. -/
def diskWriteSector
    (ata : AtaController σ)
    (lba : UInt32)
    (buf : Nat)
    (mem : ByteMem)
    (s : σ) : Int × σ :=
  match ataWaitReady ata s with
  | (false, s) => (-1, s)
  | (true, s) =>
      match ataWaitDrq ata (ataCommand ata lba 0x30 s) with
      | (false, s) => (-1, s)
      | (true, s) =>
          match ataWaitReady ata
              (ataWriteWords ata mem 256 buf s) with
          | (false, s) => (-1, s)
          | (true, s) => (0, s)

end Driver

end Storage

end AsmOS
