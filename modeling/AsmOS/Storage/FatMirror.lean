import AsmOS.Base.StepRuns
import AsmOS.Storage.Fat12

/-
  Writes of the shared FAT12 module and the second copy of
  the table.

  A sector write is tried five times.  A write to the first
  copy of the table is followed by one to the second, whose
  result is dropped; a write to the second copy is not
  followed by any.

  Main declarations:
    * `retryWrite`, `blockDevWrite`, `fat12FsWriteSector`
    * `blockDevWrite_image`
    * `CopiesEqual`, `KeepsCopies`
    * `writeStep_copies_iff`
    * `everyState_copies_iff`
-/

------------------------------------------------------------
-- Writing Sectors
------------------------------------------------------------

namespace AsmOS

namespace Storage

open ByteMem

/- The retry loop around the BIOS write: true for 0. -/
def retryWrite
    (dev : BlockDev)
    (lba : Nat)
    (buf : ByteMem) :
    Nat → Bool × BlockDev
| 0 => (false, dev)
| retries + 1 =>
    match lbaToChs dev lba with
    | none => (false, dev)
    | some chs =>
        match fat12WriteSector dev.disk chs.sector buf with
        | (true, disk) => (true, { dev with disk })
        | (false, disk) =>
            retryWrite { dev with disk } lba buf retries

/- `block_dev_write`: true when it returns 0. -/
def blockDevWrite
    (dev : BlockDev)
    (lba : Nat)
    (p : UInt32)
    (mem : ByteMem) : Bool × BlockDev :=
  if dev.ready ∧ p ≠ 0 then
    retryWrite dev lba (mem.view (transferAddr p)) 5
  else
    (false, dev)

/- `fat12_write_sector` of the shared module. -/
def fat12FsWriteSector
    (fs : Fat12Fs)
    (lba : Nat)
    (buf : UInt32)
    (mem : ByteMem) : Int × Fat12Fs :=
  match blockDevWrite fs.dev lba buf mem with
  | (false, dev) => (-1, { fs with dev })
  | (true, dev) =>
      if fatLba ≤ lba ∧ lba < fatLba + fatSectors then
        (0,
          { fs with
            dev :=
              (blockDevWrite dev (lba + fatSectors) buf mem).2 })
      else
        (0, { fs with dev })

/- A call: the sector number, the buffer and the memory. -/
structure WriteCall where
  lba : Nat
  buf : UInt32
  mem : ByteMem

/- The bytes that the BIOS transfers for the buffer. -/
def WriteCall.sent
    (call : WriteCall) : ByteMem :=
  call.mem.view (transferAddr call.buf)

/- The state after a call that returns 0. -/
def writeStep
    (fs : Fat12Fs)
    (call : WriteCall) : Option Fat12Fs :=
  let result :=
    fat12FsWriteSector fs call.lba call.buf call.mem
  if result.1 = 0 then some result.2 else none

/- Sectors 33 to 41 hold the same bytes as sectors 42 to 50. -/
def CopiesOf
    (image : ByteMem) : Prop :=
  AgreeOn (image.view (512 * 33)) (image.view (512 * 42)) 0 4608

def CopiesEqual
    (fs : Fat12Fs) : Prop :=
  CopiesOf fs.dev.disk.image

/- One of the next five tries stores its sector. -/
def TriesStore
    (dev : BlockDev) : Prop :=
  ∃ i < 5,
    dev.disk.writeEnds (dev.disk.log.length + i) ≠ .refused

/-
  A write to the first copy also reaches the second or stores
  what both hold, and a write to the second stores what the
  first holds.
-/
structure KeepsCopies
    (fs : Fat12Fs)
    (call : WriteCall) : Prop where
  first :
    33 ≤ call.lba → call.lba < 42 →
      TriesStore
          (blockDevWrite fs.dev call.lba call.buf call.mem).2 ∨
        AgreeOn call.sent
          (fs.dev.disk.image.view (512 * (call.lba + 9))) 0 512
  second :
    42 ≤ call.lba → call.lba < 51 →
      AgreeOn call.sent
        (fs.dev.disk.image.view (512 * (call.lba - 9))) 0 512

------------------------------------------------------------
-- The Disk After A Write
------------------------------------------------------------

/- The geometry that `block_dev_init` sets. -/
structure BlockDev.Floppy
    (dev : BlockDev) : Prop where
  spt : dev.sectorsPerTrack = 18
  heads : dev.heads = 2

section Writes

variable {dev : BlockDev}
variable {lba : Nat}
variable {buf : ByteMem}

/- Sectors from 9216 on have no place. -/
theorem lbaToChs_beyond
    (hDev : dev.Floppy)
    (hHigh : 9216 ≤ lba) :
    lbaToChs dev lba = none := by
  simp only [lbaToChs, hDev.spt, hDev.heads]
  rw [if_neg (by omega), if_pos (by omega)]

/- A try keeps the geometry, the flag and the pattern. -/
structure BlockDev.Alike
    (dev dev' : BlockDev) : Prop where
  spt : dev'.sectorsPerTrack = dev.sectorsPerTrack
  heads : dev'.heads = dev.heads
  ready : dev'.ready = dev.ready

theorem BlockDev.Alike.floppy
    {dev' : BlockDev}
    (hAlike : dev.Alike dev')
    (hDev : dev.Floppy) :
    dev'.Floppy :=
  ⟨hAlike.spt.trans hDev.spt, hAlike.heads.trans hDev.heads⟩

theorem retryWrite_alike
    (dev : BlockDev)
    (lba : Nat)
    (buf : ByteMem)
    (n : Nat) :
    dev.Alike (retryWrite dev lba buf n).2 := by
  induction n generalizing dev with
  | zero => exact ⟨rfl, rfl, rfl⟩
  | succ n ih =>
      rw [retryWrite]
      cases lbaToChs dev lba with
      | none => exact ⟨rfl, rfl, rfl⟩
      | some chs =>
          dsimp only
          rcases fat12WriteSector dev.disk chs.sector buf with
            ⟨ok, disk⟩
          cases ok with
          | true => exact ⟨rfl, rfl, rfl⟩
          | false =>
              have hRest := ih { dev with disk }
              exact ⟨hRest.spt, hRest.heads, hRest.ready⟩

/- One more try, by how it ends. -/
theorem retryWrite_succ
    (hDev : dev.Floppy)
    (hLba : lba < 9216)
    (buf : ByteMem)
    (n : Nat) :
    retryWrite dev lba buf (n + 1) =
      let stored :=
        dev.disk.withImage
          (dev.disk.image.storeBlock (512 * lba) 512 buf)
      match dev.disk.writeEnds dev.disk.log.length with
      | .done =>
          (true, { dev with disk := stored.issued [.write lba] })
      | .refused =>
          retryWrite
            { dev with disk := dev.disk.issued [.write lba] } lba
            buf n
      | .unconfirmed =>
          retryWrite
            { dev with disk := stored.issued [.write lba] } lba
            buf n := by
  rcases lbaToChs_sector hDev.spt hDev.heads hLba with
    ⟨chs, hChs, hSector⟩
  rw [retryWrite, hChs]
  dsimp only
  rw [hSector, fat12WriteSector]
  cases dev.disk.writeEnds dev.disk.log.length with
  | done => rfl
  | refused => rfl
  | unconfirmed => rfl

/- When the device refuses all tries nothing changes. -/
theorem retryWrite_refused
    (hDev : dev.Floppy)
    (hLba : lba < 9216)
    (buf : ByteMem)
    {n : Nat}
    (hRefused :
      ∀ i < n,
        dev.disk.writeEnds (dev.disk.log.length + i) =
          .refused) :
    (retryWrite dev lba buf n).1 = false ∧
      (retryWrite dev lba buf n).2.disk.image =
        dev.disk.image := by
  induction n generalizing dev with
  | zero => exact ⟨rfl, rfl⟩
  | succ n ih =>
      have hFirst := hRefused 0 (Nat.succ_pos n)
      rw [Nat.add_zero] at hFirst
      rw [retryWrite_succ hDev hLba, hFirst]
      refine ih ⟨hDev.spt, hDev.heads⟩ fun i hi => ?_
      have hLater := hRefused (i + 1) (by omega)
      rwa [Nat.add_comm i, ← Nat.add_assoc] at hLater

/- When one of the tries stores, the sector is stored. -/
theorem retryWrite_stores
    (hDev : dev.Floppy)
    (hLba : lba < 9216)
    (buf : ByteMem)
    {n : Nat}
    (hStores :
      ∃ i < n,
        dev.disk.writeEnds (dev.disk.log.length + i) ≠
          .refused) :
    (retryWrite dev lba buf n).2.disk.image =
      dev.disk.image.storeBlock (512 * lba) 512 buf := by
  induction n generalizing dev with
  | zero =>
      rcases hStores with ⟨i, hi, _⟩
      exact absurd hi (Nat.not_lt_zero i)
  | succ n ih =>
      rcases hStores with ⟨i, hi, hStore⟩
      rw [retryWrite_succ hDev hLba]
      cases hFirst : dev.disk.writeEnds dev.disk.log.length with
      | done => rfl
      | refused =>
          obtain ⟨i, rfl⟩ : ∃ i', i = i' + 1 := by
            cases i with
            | zero => exact absurd hFirst hStore
            | succ i => exact ⟨i, rfl⟩
          refine ih ⟨hDev.spt, hDev.heads⟩ ⟨i, by omega, ?_⟩
          rwa [Nat.add_comm i, ← Nat.add_assoc] at hStore
      | unconfirmed =>
          -- Later tries store the same sector or nothing.
          dsimp only
          generalize hNext :
            ({ dev with
                disk :=
                  (dev.disk.withImage
                    (dev.disk.image.storeBlock (512 * lba) 512
                      buf)).issued [.write lba] } : BlockDev) =
              next
          have hFloppy : next.Floppy := by
            rw [← hNext]
            exact ⟨hDev.spt, hDev.heads⟩
          have hImage :
              next.disk.image =
                dev.disk.image.storeBlock (512 * lba) 512 buf := by
            rw [← hNext]
            rfl
          by_cases hLater :
              ∃ j < n,
                next.disk.writeEnds (next.disk.log.length + j) ≠
                  .refused
          · rw [ih hFloppy hLater, hImage]
            exact storeBlock_storeBlock _ _ _ _
          · push Not at hLater
            rw [(retryWrite_refused hFloppy hLba buf hLater).2,
              hImage]

theorem blockDevWrite_alike
    (dev : BlockDev)
    (lba : Nat)
    (p : UInt32)
    (mem : ByteMem) :
    dev.Alike (blockDevWrite dev lba p mem).2 := by
  unfold blockDevWrite
  split
  · exact retryWrite_alike _ _ _ _
  · exact ⟨rfl, rfl, rfl⟩

/- A write with a device that is ready and a buffer. -/
theorem blockDevWrite_ready
    (hReady : dev.ready = true)
    (lba : Nat)
    {p : UInt32}
    (hp : p ≠ 0)
    (mem : ByteMem) :
    blockDevWrite dev lba p mem =
      retryWrite dev lba (mem.view (transferAddr p)) 5 := by
  unfold blockDevWrite
  rw [if_pos ⟨hReady, hp⟩]

/- Five tries store the sector, or the disk stays as it is. -/
theorem blockDevWrite_image
    (hDev : dev.Floppy)
    (hReady : dev.ready = true)
    (hLba : lba < 9216)
    {p : UInt32}
    (hp : p ≠ 0)
    (mem : ByteMem) :
    (TriesStore dev →
      (blockDevWrite dev lba p mem).2.disk.image =
        dev.disk.image.storeBlock (512 * lba) 512
          (mem.view (transferAddr p))) ∧
    (¬ TriesStore dev →
      (blockDevWrite dev lba p mem).1 = false ∧
        (blockDevWrite dev lba p mem).2.disk.image =
          dev.disk.image) := by
  rw [blockDevWrite_ready hReady lba hp]
  refine ⟨retryWrite_stores hDev hLba _, fun hNone => ?_⟩
  refine retryWrite_refused hDev hLba _ fun i hi => ?_
  by_contra hStores
  exact hNone ⟨i, hi, hStores⟩

/- A write that returns 0 has stored its sector. -/
theorem blockDevWrite_done
    (hDev : dev.Floppy)
    {p : UInt32}
    {mem : ByteMem}
    (hDone : (blockDevWrite dev lba p mem).1 = true) :
    lba < 9216 ∧ dev.ready = true ∧ p ≠ 0 ∧
      (blockDevWrite dev lba p mem).2.disk.image =
        dev.disk.image.storeBlock (512 * lba) 512
          (mem.view (transferAddr p)) := by
  by_cases hGoes : dev.ready = true ∧ p ≠ 0
  · rcases hGoes with ⟨hReady, hp⟩
    have hLba : lba < 9216 := by
      by_contra hHigh
      have hNone := lbaToChs_beyond hDev (Nat.le_of_not_lt hHigh)
      rw [blockDevWrite_ready hReady lba hp, retryWrite, hNone]
        at hDone
      cases hDone
    refine ⟨hLba, hReady, hp, ?_⟩
    have hImage := blockDevWrite_image hDev hReady hLba hp mem
    refine hImage.1 ?_
    by_contra hNone
    rw [(hImage.2 hNone).1] at hDone
    cases hDone
  · rw [blockDevWrite, if_neg hGoes] at hDone
    cases hDone

end Writes

------------------------------------------------------------
-- Two Copies
------------------------------------------------------------

section Copies

variable {m : ByteMem}
variable {lba s : Nat}
variable {buf : ByteMem}

/- Sectors outside both copies do not count. -/
theorem copiesOf_store_outside
    (hOut : lba < 33 ∨ 51 ≤ lba) :
    CopiesOf (m.storeBlock (512 * lba) 512 buf) ↔ CopiesOf m := by
  refine forall_congr' fun x => ?_
  refine forall₂_congr fun _ hx => ?_
  rw [view_apply, view_apply, storeBlock_outside (by omega),
    storeBlock_outside (by omega), view_apply, view_apply]

/- One copy of a sector is stored, and the other has it. -/
theorem copiesOf_store_iff
    (hCopies : CopiesOf m)
    {other : Nat}
    (hPlace :
      (33 ≤ lba ∧ lba < 42 ∧ other = lba + 9) ∨
        (42 ≤ lba ∧ lba < 51 ∧ other = lba - 9)) :
    CopiesOf (m.storeBlock (512 * lba) 512 buf) ↔
      AgreeOn buf (m.view (512 * other)) 0 512 := by
  have hInside (j : Nat) (hj : j < 512) :
      m.storeBlock (512 * lba) 512 buf (512 * lba + j) =
        buf j := by
    rw [storeBlock_inside (by omega) (by omega),
      Nat.add_sub_cancel_left]
  constructor
  · intro hStored j _ hj
    have hByte := hInside j hj
    rcases hPlace with ⟨hLo, hHi, rfl⟩ | ⟨hLo, hHi, rfl⟩
    · have hPair :=
        hStored (512 * (lba - 33) + j) (Nat.zero_le _) (by omega)
      have hFirst :
          512 * 33 + (512 * (lba - 33) + j) = 512 * lba + j := by
        omega
      have hSecond :
          512 * 42 + (512 * (lba - 33) + j) =
            512 * (lba + 9) + j := by omega
      rw [view_apply, view_apply, hFirst, hSecond, hByte,
        storeBlock_outside (by omega)] at hPair
      rw [hPair, view_apply]
    · have hPair :=
        hStored (512 * (lba - 42) + j) (Nat.zero_le _) (by omega)
      have hFirst :
          512 * 33 + (512 * (lba - 42) + j) =
            512 * (lba - 9) + j := by omega
      have hSecond :
          512 * 42 + (512 * (lba - 42) + j) = 512 * lba + j := by
        omega
      rw [view_apply, view_apply, hFirst, hSecond, hByte,
        storeBlock_outside (by omega)] at hPair
      rw [← hPair, view_apply]
  · intro hSame x _ hx
    have hOld := hCopies x (Nat.zero_le _) hx
    rw [view_apply, view_apply] at hOld ⊢
    rcases hPlace with ⟨hLo, hHi, rfl⟩ | ⟨hLo, hHi, rfl⟩
    · by_cases hHere :
          512 * lba ≤ 512 * 33 + x ∧
            512 * 33 + x < 512 * lba + 512
      · have hByte := hSame (512 * 33 + x - 512 * lba)
          (Nat.zero_le _) (by omega)
        rw [storeBlock_inside hHere.1 hHere.2, hByte,
          storeBlock_outside (by omega), view_apply]
        congr 1
        omega
      · rw [storeBlock_outside (by omega),
          storeBlock_outside (by omega), hOld]
    · by_cases hHere :
          512 * lba ≤ 512 * 42 + x ∧
            512 * 42 + x < 512 * lba + 512
      · have hByte := hSame (512 * 42 + x - 512 * lba)
          (Nat.zero_le _) (by omega)
        rw [storeBlock_outside (by omega),
          storeBlock_inside hHere.1 hHere.2, hByte, view_apply]
        congr 1
        omega
      · rw [storeBlock_outside (by omega),
          storeBlock_outside (by omega), hOld]

/- A sector stored in both copies keeps them equal. -/
theorem copiesOf_store_both
    (hCopies : CopiesOf m)
    (hLo : 33 ≤ lba)
    (hHi : lba < 42)
    (buf : ByteMem) :
    CopiesOf
      ((m.storeBlock (512 * lba) 512 buf).storeBlock
        (512 * (lba + 9)) 512 buf) := by
  have hMirror : 512 * (lba + 9) = 512 * lba + 4608 :=
    Nat.mul_add 512 lba 9
  rw [hMirror]
  intro x _ hx
  have hOld := hCopies x (Nat.zero_le _) hx
  rw [view_apply, view_apply] at hOld ⊢
  by_cases hHere :
      512 * lba ≤ 512 * 33 + x ∧
        512 * 33 + x < 512 * lba + 512
  · obtain ⟨j, hj⟩ := Nat.exists_eq_add_of_le hHere.1
    have hPair : 512 * 42 + x = 512 * lba + 4608 + j := by omega
    rw [hj, storeBlock_outside (by omega),
      storeBlock_inside (by omega) (by omega),
      Nat.add_sub_cancel_left, hPair,
      storeBlock_inside (by omega) (by omega),
      Nat.add_sub_cancel_left]
  · rw [storeBlock_outside (by omega),
      storeBlock_outside (by omega),
      storeBlock_outside (by omega),
      storeBlock_outside (by omega), hOld]

end Copies

------------------------------------------------------------
-- Runs
------------------------------------------------------------

section Runs

variable {fs fs' : Fat12Fs}
variable {call : WriteCall}

/- A call that returns 0 wrote its own sector, and perhaps two. -/
theorem writeStep_some
    (hDev : fs.dev.Floppy)
    (hStep : writeStep fs call = some fs') :
    call.buf ≠ 0 ∧ call.lba < 9216 ∧ fs.dev.ready = true ∧
      (blockDevWrite fs.dev call.lba call.buf
          call.mem).2.disk.image =
        fs.dev.disk.image.storeBlock (512 * call.lba) 512
          call.sent ∧
      fs'.dev =
        if 33 ≤ call.lba ∧ call.lba < 42 then
          (blockDevWrite
            (blockDevWrite fs.dev call.lba call.buf call.mem).2
            (call.lba + 9) call.buf call.mem).2
        else
          (blockDevWrite fs.dev call.lba call.buf call.mem).2 := by
  have hDone (hTrue :
      (blockDevWrite fs.dev call.lba call.buf call.mem).1 =
        true) :=
    blockDevWrite_done hDev hTrue
  unfold writeStep fat12FsWriteSector at hStep
  rcases hPrimary :
      blockDevWrite fs.dev call.lba call.buf call.mem with
    ⟨ok, dev⟩
  rw [hPrimary] at hStep hDone
  cases ok with
  | false => cases hStep
  | true =>
      rcases hDone rfl with ⟨hLba, hReady, hBuf, hImage⟩
      refine ⟨hBuf, hLba, hReady, hImage, ?_⟩
      dsimp only at hStep ⊢
      split at hStep
      · rename_i hFirst
        cases hStep
        exact (if_pos hFirst).symm
      · rename_i hOther
        cases hStep
        exact (if_neg hOther).symm

/-
  A call that returns 0 on equal copies leaves them equal
  exactly when it keeps them.
-/
theorem writeStep_copies_iff
    (hDev : fs.dev.Floppy)
    (hCopies : CopiesEqual fs)
    (hStep : writeStep fs call = some fs') :
    fs'.dev.Floppy ∧
      (CopiesEqual fs' ↔ KeepsCopies fs call) := by
  rcases writeStep_some hDev hStep with
    ⟨hBuf, hLba, hReady, hImage, hNext⟩
  have hAlike :=
    blockDevWrite_alike fs.dev call.lba call.buf call.mem
  have hFloppy := hAlike.floppy hDev
  have hReady' := hAlike.ready.trans hReady
  unfold CopiesEqual at hCopies ⊢
  rw [hNext]
  by_cases hFirst : 33 ≤ call.lba ∧ call.lba < 42
  · rw [if_pos hFirst]
    refine ⟨(blockDevWrite_alike _ _ _ _).floppy hFloppy, ?_⟩
    have hLow : call.lba + 9 < 9216 := by omega
    have hMirror :=
      blockDevWrite_image hFloppy hReady' hLow hBuf call.mem
    by_cases hTries :
        TriesStore
          (blockDevWrite fs.dev call.lba call.buf call.mem).2
    · rw [hMirror.1 hTries, hImage]
      exact iff_of_true
        (copiesOf_store_both hCopies hFirst.1 hFirst.2 call.sent)
        ⟨fun _ _ => Or.inl hTries, fun hLo _ => by omega⟩
    · rw [(hMirror.2 hTries).2, hImage,
        copiesOf_store_iff hCopies
          (Or.inl ⟨hFirst.1, hFirst.2, rfl⟩)]
      constructor
      · exact fun hSame =>
          ⟨fun _ _ => Or.inr hSame, fun hLo _ => by omega⟩
      · exact fun hKeeps =>
          (hKeeps.first hFirst.1 hFirst.2).resolve_left hTries
  · rw [if_neg hFirst]
    refine ⟨hFloppy, ?_⟩
    rw [hImage]
    by_cases hSecond : 42 ≤ call.lba ∧ call.lba < 51
    · rw [copiesOf_store_iff hCopies
        (Or.inr ⟨hSecond.1, hSecond.2, rfl⟩)]
      constructor
      · exact fun hSame =>
          ⟨fun hLo hHi => absurd ⟨hLo, hHi⟩ hFirst,
            fun _ _ => hSame⟩
      · exact fun hKeeps => hKeeps.second hSecond.1 hSecond.2
    · rw [copiesOf_store_outside (by omega)]
      exact iff_of_true hCopies
        ⟨fun hLo hHi => absurd ⟨hLo, hHi⟩ hFirst,
          fun hLo hHi => absurd ⟨hLo, hHi⟩ hSecond⟩

end Runs

/-
  In every run of sector writes on a disk with equal copies,
  with any failures, the copies are equal after each call up
  to the first error exactly when each of these calls keeps
  them.
-/
theorem everyState_copies_iff
    (fs : Fat12Fs)
    (hDev : fs.dev.Floppy)
    (hCopies : CopiesEqual fs)
    (calls : List WriteCall) :
    StepRuns.EveryState writeStep CopiesEqual fs calls ↔
      StepRuns.EveryStep writeStep KeepsCopies fs calls :=
  StepRuns.everyState_iff_everyStep
    (fun _ _ _ hInv hSame hStep =>
      writeStep_copies_iff hInv hSame hStep)
    hDev hCopies calls

/- A disk of zeros whose first try is not confirmed. -/
def unconfirmedFs : Fat12Fs :=
  fat12Init 0x80000
    (blockDevInit
      { Device.ofImage zeros with
        writeEnds := fun k =>
          if k = 0 then .unconfirmed else .done }
      0)

/- A sector of ones in the first copy, after a failed try. -/
theorem everyState_copies_ones :
    StepRuns.EveryState writeStep CopiesEqual unconfirmedFs
        [⟨33, 0x20000, fun _ => 1⟩] ↔
      StepRuns.EveryStep writeStep KeepsCopies unconfirmedFs
        [⟨33, 0x20000, fun _ => 1⟩] :=
  everyState_copies_iff unconfirmedFs ⟨rfl, rfl⟩
    (fun _ _ _ => rfl) [⟨33, 0x20000, fun _ => 1⟩]

/- A disk of zeros that takes one write and then refuses. -/
def refusingMirror : Fat12Fs :=
  fat12Init 0x80000
    (blockDevInit
      { Device.ofImage zeros with
        writeEnds := fun k => if k = 0 then .done else .refused }
      0)

/- The write returns 0, and only the first copy has it. -/
theorem not_everyState_copies_refusing :
    ¬ StepRuns.EveryState writeStep CopiesEqual refusingMirror
      [⟨33, 0x20000, fun _ => 1⟩] := by
  rintro ⟨_, hNext⟩
  have hAfter := hNext _ rfl
  have hByte := hAfter 0 (Nat.le_refl 0) (by omega)
  exact absurd hByte (by decide)

end Storage

end AsmOS
