import AsmOS.Base.Bits
import AsmOS.Storage.AtaDriver

/-
  The ATA driver is the sector device of the storage layer.

  From an idle controller every call does what a device with
  some failure pattern does: it transfers one whole sector,
  or it fails before the transfer, or, for a write, at the
  last poll.  Of a sector number the low 28 bits count.

  Two things get past the driver: an error behind the last
  word of a write, and a transfer that begins when the driver
  no longer waits for it.  `Undisturbed` runs have neither.

  Main declarations:
    * `Dependable`, `Storing`
    * `diskReadSector_cases`, `diskWriteSector_cases`
    * `DiskCall`, `callRun`, `diskCall`, `deviceCall`
    * `Undisturbed`, `undisturbed_of_prompt`
    * `diskRun_refines`
-/

------------------------------------------------------------
-- Polling
------------------------------------------------------------

namespace AsmOS

namespace Storage

open ByteMem

/- The controller is never busy for as long as is polled. -/
def Prompt
    {σ : Type}
    (ata : AtaController σ) : Prop :=
  ∀ s, ata.busy s < 100000

/- It accepts every command as well. -/
structure Dependable
    {σ : Type}
    (ata : AtaController σ) : Prop where
  prompt : Prompt ata
  accepts : ∀ cmd s, ata.failed (ata.outCmd cmd s) = false

/- It stores the words that it is sent. -/
def Storing
    {σ : Type}
    (ata : AtaController σ) : Prop :=
  ∀ w s, ata.failed (ata.outData w s) = false

/- What reading the status leaves as it was. -/
structure Polled
    {σ : Type}
    (ata : AtaController σ)
    (s t : σ) : Prop where
  image : ata.image t = ata.image s
  phase : ata.phase t = ata.phase s
  failed : ata.failed t = ata.failed s

section Calls

variable {σ : Type} {ata : AtaController σ} {s : σ}

theorem Polled.trans
    {t u : σ}
    (hFirst : Polled ata s t)
    (hThen : Polled ata t u) :
    Polled ata s u :=
  ⟨hThen.image.trans hFirst.image, hThen.phase.trans hFirst.phase,
    hThen.failed.trans hFirst.failed⟩

theorem inStatus_polled
    (ata : AtaController σ)
    (s : σ) :
    Polled ata s (ata.inStatus s).2 := by
  rcases ata.status_next s with ⟨hImage, hPhase, hFailed, _⟩
  exact ⟨hImage, hPhase, hFailed⟩

/- Polling succeeds when the controller is no longer busy. -/
theorem ataPoll_cases
    {good : UInt8 → Bool}
    (hGood :
      ∀ u, ata.phase u = ata.phase s →
        (good (ata.inStatus u).1 = true ↔ ata.busy u = 0))
    (tries : Nat) :
    ∃ t,
      ataPoll ata good tries s = (decide (ata.busy s < tries), t) ∧
        Polled ata s t ∧
        (ata.busy s < tries → ata.busy t = 0) := by
  induction tries generalizing s with
  | zero =>
      exact ⟨s, rfl, ⟨rfl, rfl, rfl⟩, fun h => absurd h (by omega)⟩
  | succ tries ih =>
      have hRead := inStatus_polled ata s
      have hBusy := (ata.status_next s).2.2.2
      have hHere := hGood s rfl
      unfold ataPoll
      dsimp only
      by_cases hReady : ata.busy s = 0
      · rw [if_pos (hHere.mpr hReady)]
        refine ⟨_, ?_, hRead, fun _ => by omega⟩
        rw [decide_eq_true (by omega)]
      · rw [if_neg (mt hHere.mp hReady)]
        rcases ih (s := (ata.inStatus s).2)
          (fun u hu => hGood u (hu.trans hRead.phase)) with
          ⟨t, hPoll, hSame, hBusy'⟩
        refine ⟨t, ?_, hRead.trans hSame,
          fun hTries => hBusy' (by omega)⟩
        rw [hPoll, hBusy]
        congr 1
        exact decide_eq_decide.mpr (by omega)

theorem ataWaitReady_cases
    (ata : AtaController σ)
    (s : σ) :
    ∃ t,
      ataWaitReady ata s = (decide (ata.busy s < 100000), t) ∧
        Polled ata s t ∧
        (ata.busy s < 100000 → ata.busy t = 0) :=
  ataPoll_cases
    (fun u _ => decide_eq_true_iff.trans (ata.status_bsy u)) 100000

theorem ataWaitDrq_cases
    (ata : AtaController σ)
    (s : σ)
    (hTransfer : ata.phase s ≠ .idle) :
    ∃ t,
      ataWaitDrq ata s = (decide (ata.busy s < 100000), t) ∧
        Polled ata s t ∧
        (ata.busy s < 100000 → ata.busy t = 0) := by
  refine ataPoll_cases (fun u hu => ?_) 100000
  refine decide_eq_true_iff.trans ((ata.status_drq u).trans ?_)
  exact and_iff_left (hu ▸ hTransfer)

/- The data request of a refused command never comes. -/
theorem ataPoll_refused
    {good : UInt8 → Bool}
    (hBad :
      ∀ u, ata.phase u = ata.phase s →
        good (ata.inStatus u).1 = false)
    (tries : Nat) :
    ∃ t, ataPoll ata good tries s = (false, t) ∧
      Polled ata s t := by
  induction tries generalizing s with
  | zero => exact ⟨s, rfl, rfl, rfl, rfl⟩
  | succ tries ih =>
      have hRead := inStatus_polled ata s
      have hHere : ¬ good (ata.inStatus s).1 = true := by
        rw [hBad s rfl]
        decide
      unfold ataPoll
      dsimp only
      rw [if_neg hHere]
      rcases ih (s := (ata.inStatus s).2)
        (fun u hu => hBad u (hu.trans hRead.phase)) with
        ⟨t, hPoll, hSame⟩
      exact ⟨t, hPoll, hRead.trans hSame⟩

theorem ataWaitDrq_refused
    (ata : AtaController σ)
    (s : σ)
    (hIdle : ata.phase s = .idle) :
    ∃ t, ataWaitDrq ata s = (false, t) ∧ Polled ata s t := by
  refine ataPoll_refused (fun u hu => decide_eq_false ?_) 100000
  intro hDrq
  exact ((ata.status_drq u).mp hDrq).2 (hu.trans hIdle)

------------------------------------------------------------
-- Commands
------------------------------------------------------------

/- The drive register names the drive and four more bits. -/
theorem drive_bits
    (v : UInt8) :
    (v &&& 0x0F ||| 0xE0) &&& 0xF0 = 0xE0 ∧
      ((v &&& 0x0F ||| 0xE0) &&& 0x0F).toNat = v.toNat % 16 := by
  have hAll :
      ∀ n < 256,
        (UInt8.ofNat n &&& 0x0F ||| 0xE0) &&& 0xF0 = 0xE0 ∧
          ((UInt8.ofNat n &&& 0x0F ||| 0xE0) &&& 0x0F).toNat =
            n % 16 := by
    decide +kernel
  have hv := hAll v.toNat v.toNat_lt
  rw [UInt8.ofNat_toNat] at hv
  exact hv

theorem shifted_toNat
    (lba : UInt32) :
    lba.toUInt8.toNat = lba.toNat % 256 ∧
      (lba >>> 8).toUInt8.toNat = lba.toNat / 2 ^ 8 % 256 ∧
      (lba >>> 16).toUInt8.toNat = lba.toNat / 2 ^ 16 % 256 ∧
      (lba >>> 24).toUInt8.toNat = lba.toNat / 2 ^ 24 % 256 := by
  refine ⟨UInt32.toNat_toUInt8 lba, ?_, ?_, ?_⟩ <;>
    rw [UInt32.toNat_toUInt8, UInt32.toNat_shiftRight,
      Nat.shiftRight_eq_div_pow] <;> rfl

/- The registers that a command finds. -/
structure Commanded
    (ata : AtaController σ)
    (lba : UInt32)
    (s t : σ) : Prop where
  image : ata.image t = ata.image s
  phase : ata.phase t = .idle
  busy : ata.busy t = 0
  seccnt : ata.regs t .seccnt = 1
  drive : ata.regs t .drive &&& 0xF0 = 0xE0
  address : ataAddress (ata.regs t) = lba.toNat % 2 ^ 28

/- The writes to the registers, before the command. -/
def ataSetUp
    (ata : AtaController σ)
    (lba : UInt32)
    (s : σ) : σ :=
  ata.outReg .drive ((lba >>> 24).toUInt8 &&& 0x0F ||| 0xE0)
    (ata.outReg .lba2 (lba >>> 16).toUInt8
      (ata.outReg .lba1 (lba >>> 8).toUInt8
        (ata.outReg .lba0 lba.toUInt8 (ata.outReg .seccnt 1 s))))

theorem ataSetUp_commanded
    (lba : UInt32)
    (hBusy : ata.busy s = 0)
    (hIdle : ata.phase s = .idle) :
    Commanded ata lba s (ataSetUp ata lba s) := by
  rcases ata.reg_next .seccnt 1 s hBusy hIdle with
    ⟨hImage0, hRegs0, hPhase0, hBusy0⟩
  rcases ata.reg_next .lba0 lba.toUInt8 _ hBusy0 hPhase0 with
    ⟨hImage1, hRegs1, hPhase1, hBusy1⟩
  rcases ata.reg_next .lba1 (lba >>> 8).toUInt8 _ hBusy1 hPhase1
    with ⟨hImage2, hRegs2, hPhase2, hBusy2⟩
  rcases ata.reg_next .lba2 (lba >>> 16).toUInt8 _ hBusy2 hPhase2
    with ⟨hImage3, hRegs3, hPhase3, hBusy3⟩
  rcases ata.reg_next .drive
    ((lba >>> 24).toUInt8 &&& 0x0F ||| 0xE0) _ hBusy3 hPhase3 with
    ⟨hImage4, hRegs4, hPhase4, hBusy4⟩
  rcases drive_bits (lba >>> 24).toUInt8 with ⟨hDrive, hHigh⟩
  rcases shifted_toNat lba with ⟨h0, h1, h2, h3⟩
  have hRegs :
      ata.regs (ataSetUp ata lba s) =
        Function.update (Function.update (Function.update
          (Function.update (Function.update (ata.regs s) .seccnt 1)
            .lba0 lba.toUInt8) .lba1 (lba >>> 8).toUInt8) .lba2
              (lba >>> 16).toUInt8) .drive
                ((lba >>> 24).toUInt8 &&& 0x0F ||| 0xE0) := by
    unfold ataSetUp
    rw [hRegs4, hRegs3, hRegs2, hRegs1, hRegs0]
  refine ⟨?_, hPhase4, hBusy4, ?_, ?_, ?_⟩
  · unfold ataSetUp
    rw [hImage4, hImage3, hImage2, hImage1, hImage0]
  · rw [hRegs]
    rfl
  · rw [hRegs]
    exact hDrive
  · have hAddress :
        ataAddress (ata.regs (ataSetUp ata lba s)) =
          lba.toUInt8.toNat + 2 ^ 8 * (lba >>> 8).toUInt8.toNat +
            2 ^ 16 * (lba >>> 16).toUInt8.toNat +
            2 ^ 24 * (((lba >>> 24).toUInt8 &&& 0x0F ||| 0xE0) &&&
              0x0F).toNat := by
      rw [hRegs]
      rfl
    rw [hAddress, hHigh, h0, h1, h2, h3]
    omega

------------------------------------------------------------
-- Transfers
------------------------------------------------------------

/- A word that is loaded and stored is copied. -/
theorem store16_of_load16
    (m m' : ByteMem)
    (a b : Nat) :
    store16 m a (load16 m' b) = storeBlock m a 2 (m'.view b) := by
  refine storeBlock_congr fun i _ hi => ?_
  have h0 := (m' b).toNat_lt
  have h1 := (m' (b + 1)).toNat_lt
  have hPlace : i = 0 ∨ i = 1 := by omega
  unfold littleEndian load16
  rcases hPlace with rfl | rfl
  · rw [← UInt8.toNat_inj, UInt8.toNat_ofNat']
    change _ = (m' b).toNat
    omega
  · rw [← UInt8.toNat_inj, UInt8.toNat_ofNat', view_apply]
    omega

/- A word, and then the words behind it. -/
theorem storeBlock_word
    (m src : ByteMem)
    (a b n : Nat) :
    storeBlock (storeBlock m a 2 (src.view b)) (a + 2) (2 * n)
        (src.view (b + 2)) =
      storeBlock m a (2 * (n + 1)) (src.view b) := by
  rw [← view_view, storeBlock_append]
  congr 1
  omega

/- The loop `.rd` copies the rest of the sector. -/
theorem ataReadWords_eq
    {lba : Nat}
    (pos n edi : Nat)
    (mem : ByteMem)
    (hRest : pos + n = 256)
    (hPhase :
      ata.phase s =
        if pos = 256 then .idle else .reading lba pos)
    (hBusy : pos < 256 → ata.busy s = 0) :
    ∃ t,
      ataReadWords ata n edi mem s =
          (mem.storeBlock edi (2 * n)
            ((ata.image s).view (512 * lba + 2 * pos)), t) ∧
        ata.image t = ata.image s ∧ ata.phase t = .idle ∧
        ata.failed t = ata.failed s := by
  induction n generalizing pos edi mem s with
  | zero =>
      have hEnd : pos = 256 := hRest
      rw [if_pos hEnd] at hPhase
      refine ⟨s, ?_, rfl, hPhase, rfl⟩
      rw [Nat.mul_zero, storeBlock_zero]
      rfl
  | succ n ih =>
      rw [if_neg (by omega)] at hPhase
      rcases ata.data_read s lba pos (hBusy (by omega)) hPhase
        (by omega) with ⟨hWord, hImage, hPhase', hFailed, hBusy'⟩
      rcases ih (pos + 1) (edi + 2)
        (mem.store16 edi (ata.inData s).1.toNat)
        (by omega) hPhase' hBusy' with
        ⟨t, hLoop, hImage', hIdle, hFailed'⟩
      refine ⟨t, ?_, hImage'.trans hImage, hIdle,
        hFailed'.trans hFailed⟩
      rw [ataReadWords, hLoop, hImage, hWord, store16_of_load16,
        show 512 * lba + 2 * (pos + 1) = 512 * lba + 2 * pos + 2 by
          omega, storeBlock_word]

/-
  The loop `.wr` fills the rest of the sector, if there is no
  error behind its last word.
-/
theorem ataWriteWords_image
    {lba : Nat}
    (pos n esi : Nat)
    (mem : ByteMem)
    (hRest : pos + n = 256)
    (hPhase :
      ata.phase s =
        if pos = 256 then .idle else .writing lba pos)
    (hBusy : pos < 256 → ata.busy s = 0) :
    ata.phase (ataWriteWords ata mem n esi s) = .idle ∧
      (ata.failed (ataWriteWords ata mem n esi s) = false →
        ata.image (ataWriteWords ata mem n esi s) =
          (ata.image s).storeBlock (512 * lba + 2 * pos) (2 * n)
            (mem.view esi)) ∧
      (ata.failed s = false → Storing ata →
        ata.failed (ataWriteWords ata mem n esi s) = false) := by
  induction n generalizing pos esi s with
  | zero =>
      have hEnd : pos = 256 := hRest
      rw [if_pos hEnd] at hPhase
      rw [Nat.mul_zero, storeBlock_zero]
      exact ⟨hPhase, fun _ => rfl, fun hFailed _ => hFailed⟩
  | succ n ih =>
      rw [if_neg (by omega)] at hPhase
      have hWord :
          (UInt16.ofNat (mem.load16 esi)).toNat = mem.load16 esi :=
        UInt16.toNat_ofNat_of_lt' (load16_lt mem esi)
      rcases ata.data_write (UInt16.ofNat (mem.load16 esi)) s lba pos
        (hBusy (by omega)) hPhase (by omega) with
        ⟨hPhase', hImage, hMore⟩
      rcases ih (pos + 1) (esi + 2) (by omega) hPhase'
        (fun hLast => (hMore hLast).1) with
        ⟨hIdle, hImage', hFailed'⟩
      refine ⟨hIdle, fun hStored => ?_, fun _ hStoring =>
        hFailed' (hStoring _ _) hStoring⟩
      -- An error can only come with the last word.
      have hHere :
          ata.failed
              (ata.outData (UInt16.ofNat (mem.load16 esi)) s) =
            false := by
        by_cases hLast : pos + 1 < 256
        · exact (hMore hLast).2
        · have hEnd : n = 0 := by omega
          subst hEnd
          exact hStored
      rw [ataWriteWords, hImage' hStored, hImage hHere, hWord,
        store16_of_load16,
        show 512 * lba + 2 * (pos + 1) = 512 * lba + 2 * pos + 2 by
          omega, storeBlock_word]

------------------------------------------------------------
-- Calls Of The Driver
------------------------------------------------------------

/- The sector that a number of 32 bits names. -/
def sectorOf
    (lba : UInt32) : Nat :=
  lba.toNat % 2 ^ 28

/- The driver gives up, and the disk is as it was. -/
structure GivesUp
    (ata : AtaController σ)
    (s t : σ) : Prop where
  image : ata.image t = ata.image s
  phase : Prompt ata → ata.phase t = .idle
  limited : ¬ Dependable ata

/- The controller has accepted and waits for the first word. -/
structure Opened
    (ata : AtaController σ)
    (phase : AtaPhase)
    (s t : σ) : Prop where
  image : ata.image t = ata.image s
  phase : ata.phase t = phase
  busy : ata.busy t = 0
  failed : ata.failed t = false

/- Such a command starts such a transfer, if it is accepted. -/
def Starts
    (ata : AtaController σ)
    (cmd : UInt8)
    (transfer : Nat → Nat → AtaPhase) : Prop :=
  ∀ u, ata.busy u = 0 → ata.phase u = .idle →
    ata.regs u .seccnt = 1 →
      ata.regs u .drive &&& 0xF0 = 0xE0 →
        ata.image (ata.outCmd cmd u) = ata.image u ∧
          ata.phase (ata.outCmd cmd u) =
            if ata.failed (ata.outCmd cmd u) then .idle
            else transfer (ataAddress (ata.regs u)) 0

section Opening

variable {cmd : UInt8}
variable {transfer : Nat → Nat → AtaPhase}

/-
  Behind a command the data request comes, or the command was
  refused or is late.
-/
theorem ataCommand_cases
    (hCmd : Starts ata cmd transfer)
    (hTransfer : ∀ lba pos, transfer lba pos ≠ .idle)
    (lba : UInt32)
    (hBusy : ata.busy s = 0)
    (hIdle : ata.phase s = .idle) :
    ∃ t,
      ataWaitDrq ata (ataCommand ata lba cmd s) = (false, t) ∧
          GivesUp ata s t ∨
        ataWaitDrq ata (ataCommand ata lba cmd s) = (true, t) ∧
          Opened ata (transfer (sectorOf lba) 0) s t := by
  have hSetUp := ataSetUp_commanded lba hBusy hIdle
  rcases hCmd _ hSetUp.busy hSetUp.phase hSetUp.seccnt
    hSetUp.drive with ⟨hImageC, hPhaseC⟩
  rw [hSetUp.image] at hImageC
  rw [hSetUp.address] at hPhaseC
  change ata.image (ataCommand ata lba cmd s) = _ at hImageC
  change ata.phase (ataCommand ata lba cmd s) =
    if ata.failed (ataCommand ata lba cmd s) = true then _
    else _ at hPhaseC
  have hAccepts :
      Dependable ata →
        ata.failed (ataCommand ata lba cmd s) = false :=
    fun hGood => hGood.accepts cmd (ataSetUp ata lba s)
  generalize ataCommand ata lba cmd s = c
    at hImageC hPhaseC hAccepts ⊢
  by_cases hFailed : ata.failed c = true
  · rw [if_pos hFailed] at hPhaseC
    rcases ataWaitDrq_refused ata c hPhaseC with
      ⟨t, hDrq, hSame⟩
    exact ⟨t, .inl ⟨hDrq, hSame.image.trans hImageC,
      fun _ => hSame.phase.trans hPhaseC, fun hGood =>
        absurd hFailed (Bool.eq_false_iff.mp (hAccepts hGood))⟩⟩
  · rw [if_neg hFailed] at hPhaseC
    rcases ataWaitDrq_cases ata c
        (hPhaseC.trans_ne (hTransfer _ _)) with
      ⟨t, hDrq, hSame, hReady⟩
    have hImage := hSame.image.trans hImageC
    by_cases hTime : ata.busy c < 100000
    · rw [decide_eq_true hTime] at hDrq
      exact ⟨t, .inr ⟨hDrq, hImage, hSame.phase.trans hPhaseC,
        hReady hTime,
        hSame.failed.trans (Bool.eq_false_iff.mpr hFailed)⟩⟩
    · rw [decide_eq_false hTime] at hDrq
      exact ⟨t, .inl ⟨hDrq, hImage,
        fun hPrompt => absurd (hPrompt c) hTime,
        fun hGood => hTime (hGood.prompt c)⟩⟩

/- What both routines do before they transfer a word. -/
theorem ataOpen_cases
    (hCmd : Starts ata cmd transfer)
    (hTransfer : ∀ lba pos, transfer lba pos ≠ .idle)
    (lba : UInt32)
    (hIdle : ata.phase s = .idle) :
    ∃ u t,
      GivesUp ata s t ∧
          (ataWaitReady ata s = (false, t) ∨
            ataWaitReady ata s = (true, u) ∧
              ataWaitDrq ata (ataCommand ata lba cmd u) =
                (false, t)) ∨
        Opened ata (transfer (sectorOf lba) 0) s t ∧
          ataWaitReady ata s = (true, u) ∧
            ataWaitDrq ata (ataCommand ata lba cmd u) =
              (true, t) := by
  rcases ataWaitReady_cases ata s with
    ⟨u, hReady, hSame, hBusy⟩
  by_cases hTime : ata.busy s < 100000
  · rw [decide_eq_true hTime] at hReady
    rcases ataCommand_cases hCmd hTransfer lba (hBusy hTime)
        (hSame.phase.trans hIdle) with
      ⟨t, ⟨hDrq, hUp⟩ | ⟨hDrq, hOpen⟩⟩
    · exact ⟨u, t, .inl ⟨⟨hUp.image.trans hSame.image, hUp.phase,
        hUp.limited⟩, .inr ⟨hReady, hDrq⟩⟩⟩
    · exact ⟨u, t, .inr ⟨⟨hOpen.image.trans hSame.image,
        hOpen.phase, hOpen.busy, hOpen.failed⟩, hReady, hDrq⟩⟩
  · rw [decide_eq_false hTime] at hReady
    exact ⟨u, u, .inl ⟨⟨hSame.image,
      fun hPrompt => absurd (hPrompt s) hTime,
      fun hGood => hTime (hGood.prompt s)⟩, .inl hReady⟩⟩

end Opening

/-
  A read copies the sector, or the driver gives up: at once,
  at a refused command, or at a transfer that is late.
-/
theorem diskReadSector_cases
    (lba : UInt32)
    (buf : Nat)
    (mem : ByteMem)
    (hIdle : ata.phase s = .idle) :
    ∃ t, ata.image t = ata.image s ∧
      (Prompt ata → ata.phase t = .idle) ∧
      (ata.failed t = false ∧
          diskReadSector ata lba buf mem s =
            (0, mem.storeBlock buf 512
              ((ata.image s).view (512 * sectorOf lba)), t) ∨
        ¬ Dependable ata ∧
          diskReadSector ata lba buf mem s = (-1, mem, t)) := by
  unfold diskReadSector
  rcases ataOpen_cases ata.cmd_read (fun _ _ => nofun) lba hIdle
    with
    ⟨u, v, ⟨hUp, hLate | ⟨hReady, hDrq⟩⟩ | ⟨hOpen, hReady, hDrq⟩⟩
  · rw [hLate]
    exact ⟨v, hUp.image, hUp.phase, .inr ⟨hUp.limited, rfl⟩⟩
  · rw [hReady]
    dsimp only
    rw [hDrq]
    exact ⟨v, hUp.image, hUp.phase, .inr ⟨hUp.limited, rfl⟩⟩
  · rw [hReady]
    dsimp only
    rw [hDrq]
    rcases ataReadWords_eq 0 256 buf mem rfl hOpen.phase
      (fun _ => hOpen.busy) with
      ⟨t, hLoop, hImage, hEnd, hFailed⟩
    refine ⟨t, hImage.trans hOpen.image, fun _ => hEnd,
      .inl ⟨hFailed.trans hOpen.failed, ?_⟩⟩
    dsimp only
    rw [hLoop, hOpen.image]
    rfl

/-
  A write sends the sector, or the driver gives up before.
  The last poll does not tell whether the sector is stored.
-/
theorem diskWriteSector_cases
    (lba : UInt32)
    (buf : Nat)
    (mem : ByteMem)
    (hIdle : ata.phase s = .idle) :
    ∃ t, (Prompt ata → ata.phase t = .idle) ∧
      (¬ Dependable ata ∧ ata.image t = ata.image s ∧
          diskWriteSector ata lba buf mem s = (-1, t) ∨
        (Storing ata → ata.failed t = false) ∧
          (ata.failed t = false →
            ata.image t =
              (ata.image s).storeBlock (512 * sectorOf lba) 512
                (mem.view buf)) ∧
          (diskWriteSector ata lba buf mem s = (0, t) ∨
            ¬ Dependable ata ∧
              diskWriteSector ata lba buf mem s = (-1, t))) := by
  unfold diskWriteSector
  rcases ataOpen_cases ata.cmd_write (fun _ _ => nofun) lba hIdle
    with
    ⟨u, v, ⟨hUp, hLate | ⟨hReady, hDrq⟩⟩ | ⟨hOpen, hReady, hDrq⟩⟩
  · rw [hLate]
    exact ⟨v, hUp.phase, .inl ⟨hUp.limited, hUp.image, rfl⟩⟩
  · rw [hReady]
    dsimp only
    rw [hDrq]
    exact ⟨v, hUp.phase, .inl ⟨hUp.limited, hUp.image, rfl⟩⟩
  · rw [hReady]
    dsimp only
    rw [hDrq]
    dsimp only
    rcases ataWriteWords_image 0 256 buf mem rfl hOpen.phase
      (fun _ => hOpen.busy) with ⟨hEnd, hImage, hFailed⟩
    rcases ataWaitReady_cases ata
        (ataWriteWords ata mem 256 buf v) with
      ⟨t, hLast, hSame, _⟩
    rw [hLast]
    refine ⟨t, fun _ => hSame.phase.trans hEnd,
      .inr ⟨fun hStoring =>
        hSame.failed.trans (hFailed hOpen.failed hStoring),
        fun hStored => ?_, ?_⟩⟩
    · rw [hSame.image, hImage (hSame.failed.symm.trans hStored),
        hOpen.image]
      rfl
    · by_cases hTime :
          ata.busy (ataWriteWords ata mem 256 buf v) < 100000
      · rw [decide_eq_true hTime]
        exact .inl rfl
      · rw [decide_eq_false hTime]
        exact .inr ⟨fun hGood => hTime (hGood.prompt _), rfl⟩

end Calls

------------------------------------------------------------
-- Runs
------------------------------------------------------------

/- A sector is read to a buffer, or written from one. -/
inductive DiskCall where
| read (lba : UInt32) (buf : Nat)
| write (lba : UInt32) (buf : Nat)

/- All calls, whether they fail or not, and their results. -/
def callRun
    {τ : Type}
    (call : DiskCall → ByteMem × τ → Int × ByteMem × τ) :
    List DiskCall → ByteMem × τ → List Int × ByteMem × τ
| [], x => ([], x)
| c :: calls, x =>
    let out := call c x
    let rest := callRun call calls out.2
    (out.1 :: rest.1, rest.2)

/- A call of the driver. -/
def diskCall
    {σ : Type}
    (ata : AtaController σ) :
    DiskCall → ByteMem × σ → Int × ByteMem × σ
| .read lba buf, (mem, s) => diskReadSector ata lba buf mem s
| .write lba buf, (mem, s) =>
    let out := diskWriteSector ata lba buf mem s
    (out.1, mem, out.2)

/- The same call of the device of the storage layer. -/
def deviceCall :
    DiskCall → ByteMem × Device → Int × ByteMem × Device
| .read lba buf, (mem, dev) =>
    match fat12ReadSector dev (sectorOf lba) with
    | (none, dev) => (-1, mem, dev)
    | (some sector, dev) =>
        (0, mem.storeBlock buf 512 sector, dev)
| .write lba buf, (mem, dev) =>
    match fat12WriteSector dev (sectorOf lba) (mem.view buf) with
    | (true, dev) => (0, mem, dev)
    | (false, dev) => (-1, mem, dev)

/-
  No call finds a transfer under way that an earlier one gave
  up, and no call ends with an error unless it returns -1 and
  leaves the sectors as they were.
-/
def Undisturbed
    {σ : Type}
    (ata : AtaController σ) :
    List DiskCall → ByteMem × σ → Prop
| [], _ => True
| c :: calls, x =>
    let out := diskCall ata c x
    ata.phase x.2 = .idle ∧
      (ata.failed out.2.2 = true →
        out.1 = -1 ∧ ata.image out.2.2 = ata.image x.2) ∧
      Undisturbed ata calls out.2

/- The same results, memory and sectors. -/
structure SameOutcome
    {τ υ ρ : Type}
    (image : τ → ByteMem)
    (image' : υ → ByteMem)
    (x : ρ × ByteMem × τ)
    (y : ρ × ByteMem × υ) : Prop where
  results : x.1 = y.1
  mem : x.2.1 = y.2.1
  image : image x.2.2 = image' y.2.2

section Outcomes

variable {τ υ : Type}
variable {image : τ → ByteMem} {image' : υ → ByteMem}

theorem SameOutcome.trans
    {ψ ρ : Type}
    {image'' : ψ → ByteMem}
    {x : ρ × ByteMem × τ}
    {y : ρ × ByteMem × υ}
    {z : ρ × ByteMem × ψ}
    (hLeft : SameOutcome image image' x y)
    (hRight : SameOutcome image' image'' y z) :
    SameOutcome image image'' x z :=
  ⟨hLeft.results.trans hRight.results, hLeft.mem.trans hRight.mem,
    hLeft.image.trans hRight.image⟩

/- A call and the calls behind it. -/
theorem SameOutcome.cons
    {call : DiskCall → ByteMem × τ → Int × ByteMem × τ}
    {call' : DiskCall → ByteMem × υ → Int × ByteMem × υ}
    {c : DiskCall}
    {calls : List DiskCall}
    {x : ByteMem × τ}
    {y : ByteMem × υ}
    (hCall : SameOutcome image image' (call c x) (call' c y))
    (hRest :
      SameOutcome image image' (callRun call calls (call c x).2)
        (callRun call' calls (call' c y).2)) :
    SameOutcome image image' (callRun call (c :: calls) x)
      (callRun call' (c :: calls) y) := by
  refine ⟨?_, hRest.mem, hRest.image⟩
  simp only [callRun]
  rw [hCall.results, hRest.results]

end Outcomes

/- A device in the middle of a run. -/
def deviceAt
    (image : ByteMem)
    (readFails : Nat → Bool)
    (writeEnds : Nat → WriteEnd)
    (log : List SectorOp) : Device :=
  { image := image
    readFails := readFails
    writeEnds := writeEnds
    log := log }

/- How the call that is made next ends. -/
def opOf : DiskCall → SectorOp
| .read lba _ => .read (sectorOf lba)
| .write lba _ => .write (sectorOf lba)

section Device

variable {mem image : ByteMem} {log : List SectorOp}
variable {readFails readFails' : Nat → Bool}
variable {writeEnds writeEnds' : Nat → WriteEnd}

theorem deviceCall_read
    (lba : UInt32)
    (buf : Nat) :
    deviceCall (.read lba buf)
        (mem, deviceAt image readFails writeEnds log) =
      (if readFails log.length then -1 else 0,
        if readFails log.length then mem
        else
          mem.storeBlock buf 512 (image.view (512 * sectorOf lba)),
        deviceAt image readFails writeEnds
          (.read (sectorOf lba) :: log)) := by
  unfold deviceCall fat12ReadSector deviceAt
  dsimp only
  split_ifs <;> rfl

/- What the sectors hold after a write. -/
def imageAfter
    (image data : ByteMem)
    (lba : UInt32) : WriteEnd → ByteMem
| .refused => image
| _ => image.storeBlock (512 * sectorOf lba) 512 data

theorem deviceCall_write
    (lba : UInt32)
    (buf : Nat) :
    deviceCall (.write lba buf)
        (mem, deviceAt image readFails writeEnds log) =
      (if writeEnds log.length = .done then 0 else -1, mem,
        deviceAt
          (imageAfter image (mem.view buf) lba
            (writeEnds log.length))
          readFails writeEnds (.write (sectorOf lba) :: log)) := by
  unfold deviceCall fat12WriteSector deviceAt
  dsimp only
  cases writeEnds log.length <;> rfl

/- What a call leaves the device with. -/
theorem deviceCall_eq
    (c : DiskCall)
    (mem image : ByteMem)
    (readFails : Nat → Bool)
    (writeEnds : Nat → WriteEnd)
    (log : List SectorOp) :
    ∃ rc mem' image',
      deviceCall c (mem, deviceAt image readFails writeEnds log) =
        (rc, mem',
          deviceAt image' readFails writeEnds (opOf c :: log)) := by
  cases c with
  | read lba buf => exact ⟨_, _, _, deviceCall_read lba buf⟩
  | write lba buf => exact ⟨_, _, _, deviceCall_write lba buf⟩

/- A call depends on the pattern at its own number only. -/
theorem deviceCall_congr
    (c : DiskCall)
    (mem image : ByteMem)
    (hRead : readFails log.length = readFails' log.length)
    (hWrite : writeEnds log.length = writeEnds' log.length) :
    SameOutcome Device.image Device.image
      (deviceCall c (mem, deviceAt image readFails writeEnds log))
      (deviceCall c
        (mem, deviceAt image readFails' writeEnds' log)) := by
  cases c with
  | read lba buf =>
      rw [deviceCall_read, deviceCall_read, hRead]
      exact ⟨rfl, rfl, rfl⟩
  | write lba buf =>
      rw [deviceCall_write, deviceCall_write, hWrite]
      exact ⟨rfl, rfl, rfl⟩

theorem deviceRun_congr
    (calls : List DiskCall)
    (mem image : ByteMem)
    (hRead : ∀ k ≥ log.length, readFails k = readFails' k)
    (hWrite : ∀ k ≥ log.length, writeEnds k = writeEnds' k) :
    SameOutcome Device.image Device.image
      (callRun deviceCall calls
        (mem, deviceAt image readFails writeEnds log))
      (callRun deviceCall calls
        (mem, deviceAt image readFails' writeEnds' log)) := by
  induction calls generalizing mem image log with
  | nil => exact ⟨rfl, rfl, rfl⟩
  | cons c calls ih =>
      have hCall :=
        deviceCall_congr c mem image (hRead _ (Nat.le_refl _))
          (hWrite _ (Nat.le_refl _))
      refine hCall.cons ?_
      rcases deviceCall_eq c mem image readFails writeEnds log with
        ⟨rc, mem', image', hNext⟩
      rcases deviceCall_eq c mem image readFails' writeEnds' log with
        ⟨rc', mem'', image'', hNext'⟩
      rw [hNext, hNext'] at hCall ⊢
      have hMem : mem' = mem'' := hCall.mem
      have hImage : image' = image'' := hCall.image
      subst hMem hImage
      exact ih mem' image'
        (fun k hk => hRead k (Nat.le_of_succ_le hk))
        (fun k hk => hWrite k (Nat.le_of_succ_le hk))

end Device

section Refinement

variable {σ : Type} {ata : AtaController σ} {s : σ}

/-
  A call of the driver is a call of the device with a pattern
  for it, unless it hides an error.
-/
theorem diskCall_refines
    (c : DiskCall)
    (mem : ByteMem)
    (log : List SectorOp)
    (hIdle : ata.phase s = .idle)
    (hError :
      ata.failed (diskCall ata c (mem, s)).2.2 = true →
        (diskCall ata c (mem, s)).1 = -1 ∧
          ata.image (diskCall ata c (mem, s)).2.2 =
            ata.image s) :
    ∃ (fails : Bool) (ends : WriteEnd),
      (Dependable ata → fails = false ∧ ends = .done) ∧
        SameOutcome ata.image Device.image
          (diskCall ata c (mem, s))
          (deviceCall c
            (mem, deviceAt (ata.image s) (fun _ => fails)
              (fun _ => ends) log)) := by
  cases c with
  | read lba buf =>
      rcases diskReadSector_cases lba buf mem hIdle with
        ⟨t, hImage, _, ⟨_, hRun⟩ | ⟨hLimited, hRun⟩⟩
      · have hHere : diskCall ata (.read lba buf) (mem, s) = _ :=
          hRun
        refine ⟨false, .done, fun _ => ⟨rfl, rfl⟩, ?_⟩
        rw [hHere, deviceCall_read]
        exact ⟨rfl, rfl, hImage⟩
      · have hHere : diskCall ata (.read lba buf) (mem, s) = _ :=
          hRun
        refine ⟨true, .done, fun hGood => absurd hGood hLimited,
          ?_⟩
        rw [hHere, deviceCall_read]
        exact ⟨rfl, rfl, hImage⟩
  | write lba buf =>
      rcases diskWriteSector_cases lba buf mem hIdle with
        ⟨t, _, ⟨hLimited, hImage, hRun⟩ |
          ⟨_, hStored, hRun | ⟨hLimited, hRun⟩⟩⟩
      · have hHere :
            diskCall ata (.write lba buf) (mem, s) = (-1, mem, t) :=
          congrArg (fun out => (out.1, mem, out.2)) hRun
        refine ⟨false, .refused,
          fun hGood => absurd hGood hLimited, ?_⟩
        rw [hHere, deviceCall_write]
        exact ⟨rfl, rfl, hImage⟩
      · have hHere :
            diskCall ata (.write lba buf) (mem, s) = (0, mem, t) :=
          congrArg (fun out => (out.1, mem, out.2)) hRun
        rw [hHere] at hError
        have hClean : ata.failed t = false := by
          refine Bool.eq_false_iff.mpr fun hFailed => ?_
          exact absurd (hError hFailed).1
            (show ¬ (0 : Int) = -1 by decide)
        refine ⟨false, .done, fun _ => ⟨rfl, rfl⟩, ?_⟩
        rw [hHere, deviceCall_write]
        exact ⟨rfl, rfl, hStored hClean⟩
      · have hHere :
            diskCall ata (.write lba buf) (mem, s) = (-1, mem, t) :=
          congrArg (fun out => (out.1, mem, out.2)) hRun
        rw [hHere] at hError ⊢
        by_cases hFailed : ata.failed t = true
        · refine ⟨false, .refused,
            fun hGood => absurd hGood hLimited, ?_⟩
          rw [deviceCall_write]
          exact ⟨rfl, rfl, (hError hFailed).2⟩
        · refine ⟨false, .unconfirmed,
            fun hGood => absurd hGood hLimited, ?_⟩
          rw [deviceCall_write]
          exact ⟨rfl, rfl,
            hStored (Bool.eq_false_iff.mpr hFailed)⟩

/- The pattern of a run, from its first call and the rest. -/
theorem diskRun_refines_from
    (calls : List DiskCall)
    (mem : ByteMem)
    (log : List SectorOp)
    (hRun : Undisturbed ata calls (mem, s)) :
    ∃ readFails writeEnds,
      (Dependable ata →
        (∀ k, readFails k = false) ∧ ∀ k, writeEnds k = .done) ∧
        SameOutcome ata.image Device.image
          (callRun (diskCall ata) calls (mem, s))
          (callRun deviceCall calls
            (mem, deviceAt (ata.image s) readFails writeEnds
              log)) := by
  induction calls generalizing mem s log with
  | nil =>
      exact ⟨fun _ => false, fun _ => .done,
        fun _ => ⟨fun _ => rfl, fun _ => rfl⟩, rfl, rfl, rfl⟩
  | cons c calls ih =>
      rcases hRun with ⟨hIdle, hError, hLater⟩
      rcases diskCall_refines c mem log hIdle hError with
        ⟨fails, ends, hGood, hCall⟩
      rcases ih (s := (diskCall ata c (mem, s)).2.2)
        (diskCall ata c (mem, s)).2.1 (opOf c :: log) hLater with
        ⟨readFails, writeEnds, hGoods, hRest⟩
      refine ⟨Function.update readFails log.length fails,
        Function.update writeEnds log.length ends, ?_, ?_⟩
      · intro hAll
        rcases hGood hAll with ⟨rfl, rfl⟩
        rcases hGoods hAll with ⟨hReads, hWrites⟩
        constructor
        · intro k
          rw [Function.update_apply, hReads k, ite_self]
        · intro k
          rw [Function.update_apply, hWrites k, ite_self]
      · have hHere :=
          hCall.trans (deviceCall_congr c mem (ata.image s)
            (Function.update_self log.length fails readFails).symm
            (Function.update_self log.length ends writeEnds).symm)
        refine hHere.cons (hRest.trans ?_)
        rcases deviceCall_eq c mem (ata.image s)
          (Function.update readFails log.length fails)
          (Function.update writeEnds log.length ends) log with
          ⟨rc, mem', image', hAfter⟩
        rw [hAfter] at hHere ⊢
        have hMem : (diskCall ata c (mem, s)).2.1 = mem' := hHere.mem
        have hImage :
            ata.image (diskCall ata c (mem, s)).2.2 = image' :=
          hHere.image
        rw [hMem, hImage]
        refine deviceRun_congr calls mem' image' ?_ ?_
        · intro k hk
          exact (Function.update_of_ne (Nat.ne_of_gt hk) _ _).symm
        · intro k hk
          exact (Function.update_of_ne (Nat.ne_of_gt hk) _ _).symm

theorem diskCall_read
    (lba : UInt32)
    (buf : Nat)
    (mem : ByteMem)
    (s : σ) :
    diskCall ata (.read lba buf) (mem, s) =
      diskReadSector ata lba buf mem s :=
  rfl

theorem diskCall_write
    (lba : UInt32)
    (buf : Nat)
    (mem : ByteMem)
    (s : σ) :
    diskCall ata (.write lba buf) (mem, s) =
      ((diskWriteSector ata lba buf mem s).1, mem,
        (diskWriteSector ata lba buf mem s).2) :=
  rfl

/- How a call of a prompt controller that stores ends. -/
theorem diskCall_ends
    (hPrompt : Prompt ata)
    (hStoring : Storing ata)
    (c : DiskCall)
    (mem : ByteMem)
    (hIdle : ata.phase s = .idle) :
    ata.phase (diskCall ata c (mem, s)).2.2 = .idle ∧
      (ata.failed (diskCall ata c (mem, s)).2.2 = true →
        (diskCall ata c (mem, s)).1 = -1 ∧
          ata.image (diskCall ata c (mem, s)).2.2 =
            ata.image s) := by
  cases c with
  | read lba buf =>
      rw [diskCall_read]
      rcases diskReadSector_cases lba buf mem hIdle with
        ⟨t, hImage, hIdleT, ⟨hClean, hRun⟩ | ⟨_, hRun⟩⟩
      · rw [hRun]
        refine ⟨hIdleT hPrompt, fun hFailed => ?_⟩
        exact absurd (hClean.symm.trans hFailed) (by decide)
      · rw [hRun]
        exact ⟨hIdleT hPrompt, fun _ => ⟨rfl, hImage⟩⟩
  | write lba buf =>
      rw [diskCall_write]
      rcases diskWriteSector_cases lba buf mem hIdle with
        ⟨t, hIdleT, ⟨_, hImage, hRun⟩ | ⟨hClean, _, hRun⟩⟩
      · rw [hRun]
        exact ⟨hIdleT hPrompt, fun _ => ⟨rfl, hImage⟩⟩
      · have hState :
            (diskWriteSector ata lba buf mem s).2 = t := by
          rcases hRun with hRun | ⟨_, hRun⟩ <;> rw [hRun]
        rw [hState]
        refine ⟨hIdleT hPrompt, fun hFailed => ?_⟩
        exact absurd ((hClean hStoring).symm.trans hFailed)
          (by decide)

/-
  The driver gives up no transfer of a prompt controller, so
  the calls are undisturbed if it stores what it is sent.
-/
theorem undisturbed_of_prompt
    (hPrompt : Prompt ata)
    (hStoring : Storing ata)
    (calls : List DiskCall)
    (mem : ByteMem)
    (hIdle : ata.phase s = .idle) :
    Undisturbed ata calls (mem, s) := by
  induction calls generalizing mem s with
  | nil => trivial
  | cons c calls ih =>
      rcases diskCall_ends hPrompt hStoring c mem hIdle with
        ⟨hIdle', hError⟩
      exact ⟨hIdle, hError, ih _ hIdle'⟩

end Refinement

------------------------------------------------------------
-- A Controller
------------------------------------------------------------

/-
  A disk of 2880 sectors that takes one read of the status to
  get ready.
-/
structure AtaState where
  image : ByteMem
  regs : AtaReg → UInt8
  phase : AtaPhase
  slow : Bool
  failed : Bool

/- Busy, ready, or ready with a word to transfer. -/
def plainStatus : Bool → AtaPhase → Bool → UInt8
| true, _, _ => 0x80
| false, .idle, false => 0x40
| false, .idle, true => 0x41
| false, .reading _ _, false => 0x48
| false, .reading _ _, true => 0x49
| false, .writing _ _, false => 0x48
| false, .writing _ _, true => 0x49

theorem plainStatus_bits
    (slow : Bool)
    (phase : AtaPhase)
    (failed : Bool) :
    (plainStatus slow phase failed &&& 0x80 = 0 ↔
        slow.toNat = 0) ∧
      (plainStatus slow phase failed &&& 0x08 ≠ 0 ↔
        slow.toNat = 0 ∧ phase ≠ .idle) ∧
      (slow.toNat = 0 →
        (plainStatus slow phase failed &&& 0x21 ≠ 0 ↔
          failed = true)) := by
  cases slow <;> cases phase <;> cases failed <;>
    simp [plainStatus] <;> decide

/- The sector numbers that it has. -/
def plainSectors
    (regs : AtaReg → UInt8) : Bool :=
  decide (ataAddress regs < 2880)

/-
  It is slow after a command and after the last word, and
  refuses commands for sectors that it does not have.
-/
def plainAta : AtaController AtaState where
  inStatus s :=
    (plainStatus s.slow s.phase s.failed,
      { s with slow := false })
  outReg r v s :=
    { s with regs := Function.update s.regs r v }
  outCmd cmd s :=
    { s with
      phase :=
        if plainSectors s.regs then
          if cmd = 0x20 then .reading (ataAddress s.regs) 0
          else .writing (ataAddress s.regs) 0
        else .idle
      slow := true
      failed := !plainSectors s.regs }
  inData s :=
    match s.phase with
    | .reading lba pos =>
        (UInt16.ofNat (s.image.load16 (512 * lba + 2 * pos)),
          { s with phase := afterWord (.reading lba) pos })
    | _ => (0, s)
  outData w s :=
    match s.phase with
    | .writing lba pos =>
        { s with
          image := s.image.store16 (512 * lba + 2 * pos) w.toNat
          phase := afterWord (.writing lba) pos
          slow := decide (pos + 1 = 256)
          failed := false }
    | _ => { s with failed := false }
  image := AtaState.image
  regs := AtaState.regs
  phase := AtaState.phase
  busy s := s.slow.toNat
  failed := AtaState.failed
  status_bsy s := (plainStatus_bits s.slow s.phase s.failed).1
  status_drq s := (plainStatus_bits s.slow s.phase s.failed).2.1
  status_err s := (plainStatus_bits s.slow s.phase s.failed).2.2
  status_next s := ⟨rfl, rfl, rfl, by cases s.slow <;> rfl⟩
  reg_next _ _ _ hBusy hIdle := ⟨rfl, rfl, hIdle, hBusy⟩
  cmd_read s _ _ _ _ := by
    refine ⟨rfl, ?_⟩
    cases hSector : plainSectors s.regs <;> rfl
  cmd_write s _ _ _ _ := by
    refine ⟨rfl, ?_⟩
    cases hSector : plainSectors s.regs <;> rfl
  data_read s lba pos hBusy hPhase _ := by
    rw [hPhase]
    refine ⟨?_, rfl, rfl, rfl, fun _ => hBusy⟩
    exact UInt16.toNat_ofNat_of_lt' (load16_lt s.image _)
  data_write w s lba pos _ hPhase _ := by
    rw [hPhase]
    refine ⟨rfl, fun _ => rfl, fun hMore => ⟨?_, rfl⟩⟩
    have hLast : ¬ pos + 1 = 256 := by omega
    change (decide (pos + 1 = 256)).toNat = 0
    rw [decide_eq_false hLast]
    rfl

theorem plainAta_prompt :
    Prompt plainAta := by
  intro s
  change s.slow.toNat < 100000
  cases s.slow <;> decide

theorem plainAta_storing :
    Storing plainAta := by
  intro w s
  change (match s.phase with
    | .writing lba pos => _
    | _ => _ : AtaState).failed = false
  split <;> rfl

/-
  A sector that is written from `0x1000`, a sector that the
  disk does not have, and the first one read back to
  `0x2000` by its number and `2^28`.
-/
def plainCalls : List DiskCall :=
  [.write 5 0x1000, .read 2880 0x2000,
    .read (5 + 0x10000000) 0x2000]

end Storage

end AsmOS
