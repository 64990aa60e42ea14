import AsmOS.Storage.ChainRead
import AsmOS.Storage.Fat12

/-
  The FAT12 reader of the HAL against the shared one.

  The HAL reads its tables from the disk.  The mount of the
  shared reader reads the same sectors, but has them all
  transferred to the start of a segment, one over the other,
  so that its directory is what the memory held before.

  Main declarations:
    * `ReadersAgreeAt`, `ReadersAgree`
    * `fat12Mount_kept`
    * `readersAgreeAt_iff_missing`
    * `not_readersAgree`
-/

------------------------------------------------------------
-- Agreement
------------------------------------------------------------

namespace AsmOS

namespace Storage

open ByteMem FatPut

/- The address range that `fat12_fs_t` needs. -/
def FsFits
    (addr : UInt32) : Prop :=
  addr ≠ 0 ∧ addr.toNat + 11784 ≤ 2 ^ 32

/-
  With the structure of the shared reader and the buffers at
  these addresses and this memory: it is mounted on the image,
  both reads of a name return, with the same code, and when
  it is 0 with the same count and as many equal bytes.
-/
def ReadersAgreeAt
    (image : ByteMem)
    (drive : UInt8)
    (name : List UInt8)
    (max : UInt32)
    (addr : UInt32)
    (halBuf : ByteMem)
    (buf : UInt32)
    (mem : ByteMem) : Prop :=
  ∃ hal fs' mem₁ fs₁ shared mem₂ fs₂,
    platFsRead (mountImage image) name halBuf max.toNat =
        some (hal, fs') ∧
      fat12Mount
          (fat12Init addr
            (blockDevInit (Device.ofImage image) drive)) mem =
        (0, mem₁, fs₁) ∧
      fat12ReadFile fs₁ (fat12NormalizeName name) buf
          max.toNat mem₁ = some (shared, mem₂, fs₂) ∧
      hal.rc = shared.rc ∧
      (hal.rc = 0 →
        hal.outSize = shared.outSize ∧
          ∀ n, hal.outSize = some n →
            hal.buf.slice 0 n = mem₂.slice buf.toNat n)

/- They agree wherever things are and whatever is in memory. -/
def ReadersAgree
    (image : ByteMem)
    (drive : UInt8)
    (name : List UInt8)
    (max : UInt32) : Prop :=
  ∀ addr halBuf buf mem, FsFits addr → buf ≠ 0 →
    ReadersAgreeAt image drive name max addr halBuf buf mem

/-
  The mount succeeds and leaves no entry of the name in its
  directory, as when the memory held none.
-/
def MountsWithout
    (image : ByteMem)
    (drive : UInt8)
    (name : List UInt8)
    (addr : UInt32)
    (mem : ByteMem) : Prop :=
  ∃ mem₁ fs₁,
    fat12Mount
        (fat12Init addr
          (blockDevInit (Device.ofImage image) drive)) mem =
      (0, mem₁, fs₁) ∧
    fat12FindEntry (fs₁.root mem₁) (fat12NormalizeName name) =
      none

------------------------------------------------------------
-- The Mount
------------------------------------------------------------

section Mount

variable {dev : BlockDev}

/- A structure whose table starts a segment but for 4 bytes. -/
abbrev fsPlace : UInt32 := 0x80000

theorem fsPlace_fits :
    FsFits fsPlace :=
  ⟨by decide, by decide⟩

/- All sectors of both tables go to one place. -/
theorem fsPlace_transfers
    {s : Nat}
    (hs : s < 14) :
    transferAddr (fsPlace + 4 + UInt32.ofNat (512 * s)) =
        0x80004 ∧
      transferAddr (fsPlace + 4612 + UInt32.ofNat (512 * s)) =
        0x80004 := by
  rw [transferAddr_eq, transferAddr_eq, UInt32.toNat_add,
    UInt32.toNat_add, UInt32.toNat_ofNat']
  change
    (0x80004 + 512 * s % 2 ^ 32) % 2 ^ 32 / 65536 % 16 * 65536 +
          (0x80004 + 512 * s % 2 ^ 32) % 2 ^ 32 % 16 =
        0x80004 ∧
      (0x81204 + 512 * s % 2 ^ 32) % 2 ^ 32 / 65536 % 16 * 65536 +
          (0x81204 + 512 * s % 2 ^ 32) % 2 ^ 32 % 16 =
        0x80004
  omega

theorem fsPlace_ne
    {s : Nat}
    (hs : s < 14) :
    fsPlace + 4 + UInt32.ofNat (512 * s) ≠ 0 ∧
      fsPlace + 4612 + UInt32.ofNat (512 * s) ≠ 0 := by
  rcases fsPlace_transfers hs with ⟨hFat, hRoot⟩
  constructor
  · intro hZero
    rw [hZero] at hFat
    exact absurd hFat (by decide)
  · intro hZero
    rw [hZero] at hRoot
    exact absurd hRoot (by decide)

/- The mount returns 0 and leaves the directory as it was. -/
theorem fat12Mount_kept
    (hDev : dev.Ready)
    (mem : ByteMem) :
    ∃ mem' dev',
      fat12Mount (fat12Init fsPlace dev) mem =
          (0, mem',
            { addr := fsPlace, dev := dev', ready := true }) ∧
        ∀ x, 0x80204 ≤ x → mem' x = mem x := by
  rcases loadTable_ready hDev 33 (fsPlace + 4) mem 9 (by omega)
      (fun s hs => (fsPlace_ne (s := s) (by omega)).1) with
    ⟨mem₁, hFat⟩
  rcases loadTable_ready (hDev.issued (readOps 33 9)) 51
      (fsPlace + 4612) mem₁ 14 (by omega)
      (fun s hs => (fsPlace_ne hs).2) with ⟨mem₂, hRoot⟩
  refine ⟨mem₂, (dev.issued (readOps 33 9)).issued
    (readOps 51 14), ?_, fun x hx => ?_⟩
  · have hFat' :
        loadTable (fat12Init fsPlace dev).dev 33
            (fat12Init fsPlace dev).fatAddr mem 9 =
          (true, mem₁, dev.issued (readOps 33 9)) :=
      hFat
    have hRoot' :
        loadTable (dev.issued (readOps 33 9)) 51
            (fat12Init fsPlace dev).rootAddr mem₁ 14 =
          (true, mem₂,
            (dev.issued (readOps 33 9)).issued
              (readOps 51 14)) :=
      hRoot
    rw [fat12Mount, hFat']
    dsimp only
    rw [hRoot']
    rfl
  · have hFirst :=
      loadTable_outside dev 33 (fsPlace + 4) mem (n := 9)
        (x := x) fun s hs => by
          rw [(fsPlace_transfers (s := s) (by omega)).1]
          omega
    have hSecond :=
      loadTable_outside (dev.issued (readOps 33 9)) 51
        (fsPlace + 4612) mem₁ (n := 14) (x := x) fun s hs => by
          rw [(fsPlace_transfers hs).2]
          omega
    rw [hFat] at hFirst
    rw [hRoot] at hSecond
    exact hSecond.trans hFirst

/- The directory that a mount leaves. -/
theorem fat12Mount_root
    (hDev : dev.Ready)
    (mem : ByteMem) :
    ∃ mem' fs,
      fat12Mount (fat12Init fsPlace dev) mem = (0, mem', fs) ∧
        fs.ready = true ∧
        AgreeOn (fs.root mem') ((fat12Init fsPlace dev).root mem)
          0 7168 := by
  rcases fat12Mount_kept hDev mem with
    ⟨mem', dev', hMount, hKept⟩
  refine ⟨mem', _, hMount, rfl, fun x _ _ => ?_⟩
  have hAddr : (fsPlace + 4612).toNat = 0x81204 := by decide
  have hPlace : 0x80204 ≤ (fsPlace + 4612).toNat + x := by
    rw [hAddr]
    omega
  exact hKept _ hPlace

end Mount

------------------------------------------------------------
-- Disagreement
------------------------------------------------------------

section Disagreement

variable {fs : Fat12Fs}
variable {name83 : List UInt8}
variable {mem : ByteMem}

/- With no entry in its directory a read fails. -/
theorem fat12ReadFile_absent
    (hAbsent : fat12FindEntry (fs.root mem) name83 = none)
    (buf : UInt32)
    (max : Nat) :
    fat12ReadFile fs name83 buf max mem =
      some (⟨-1, none⟩, mem, fs) := by
  rw [fat12ReadFile, hAbsent]
  exact ite_self _

/- A file whose chain is at its end is read at once. -/
theorem fat12ReadFile_ended
    (hReady : fs.ready = true)
    {slot : Nat}
    (hFound : fat12FindEntry (fs.root mem) name83 = some slot)
    (hEnd : fatEnd ≤ slotCluster (fs.root mem) slot)
    (buf : UInt32)
    (max : Nat) :
    fat12ReadFile fs name83 buf max mem =
      some (⟨0, some 0⟩, mem, fs) := by
  have hFuel : readFuel = 2 ^ 23 - 1 + 1 := rfl
  rw [fat12ReadFile, if_pos hReady, hFound]
  dsimp only
  rw [hFuel, fat12ReadLoop, if_neg (fun hGoes =>
    absurd hGoes.1 (Nat.not_lt.mpr hEnd))]
  dsimp only
  rw [if_neg (Nat.not_lt_zero _)]

/- The blank directory has no file that could be asked for. -/
theorem fatFindEntry_zeros
    (name83 : List UInt8) :
    fatFindEntry zeros name83 = none := by
  rw [fatFindEntry_eq_none_iff]
  intro i _
  rfl

/- After such a mount they agree on missing files only. -/
theorem readersAgreeAt_iff_missing
    {image : ByteMem}
    {drive : UInt8}
    {name : List UInt8}
    {addr : UInt32}
    (hWithout : MountsWithout image drive name addr mem)
    (max : UInt32)
    (halBuf : ByteMem)
    (buf : UInt32) :
    ReadersAgreeAt image drive name max addr halBuf buf mem ↔
      readSlot (mountImage image) name = none := by
  rcases hWithout with ⟨mem₁, fs₁, hMount, hAbsent⟩
  have hShared := fat12ReadFile_absent hAbsent buf max.toNat
  have hHal :=
    platFsRead_reliable (mountImage_mounted image) name halBuf
      max.toNat
  constructor
  · rintro ⟨hal, fs', mem₁', fs₁', shared, mem₂, fs₂, hRead,
      hMount', hShared', hCode, _⟩
    cases hMount.symm.trans hMount'
    cases hShared.symm.trans hShared'
    rw [hHal] at hRead
    split at hRead
    · assumption
    · exfalso
      split at hRead
      · cases hRead
        have hEqual : (0 : Int) = -1 := hCode
        exact absurd hEqual (by decide)
      · cases hRead
  · intro hMissing
    rw [hMissing] at hHal
    refine ⟨_, _, mem₁, fs₁, _, _, _, hHal, hMount, hShared, rfl,
      fun hZero => ?_⟩
    have hEqual : (-1 : Int) = 0 := hZero
    exact absurd hEqual (by decide)

/- A memory of zeros holds no entry. -/
theorem mountsWithout_zeros
    (image : ByteMem)
    (drive : UInt8)
    (name : List UInt8) :
    MountsWithout image drive name fsPlace zeros := by
  have hDev : (blockDevInit (Device.ofImage image) drive).Ready :=
    blockDevInit_ready (Device.ofImage_reliable image) drive
  rcases fat12Mount_root hDev zeros with
    ⟨mem', fs, hMount, _, hRoot⟩
  refine ⟨mem', fs, hMount, ?_⟩
  rw [fat12FindEntry, fatFindEntry_agree hRoot]
  exact fatFindEntry_zeros _

/- A file that the HAL finds is not in a memory of zeros. -/
theorem not_readersAgree_found
    {image : ByteMem}
    {name : List UInt8}
    {slot : Nat}
    (hFound : readSlot (mountImage image) name = some slot)
    (drive : UInt8)
    (max : UInt32) :
    ¬ ReadersAgree image drive name max := by
  intro hAgree
  have hMissing :=
    (readersAgreeAt_iff_missing
      (mountsWithout_zeros image drive name) max zeros 1).mp
      (hAgree fsPlace zeros 1 zeros fsPlace_fits (by decide))
  rw [hFound] at hMissing
  cases hMissing

/- A file that it does not find may be left in the memory. -/
theorem not_readersAgree_absent
    {image : ByteMem}
    {name : List UInt8}
    (hAbsent : readSlot (mountImage image) name = none)
    (drive : UInt8)
    (max : UInt32) :
    ¬ ReadersAgree image drive name max := by
  intro hAgree
  have hDev : (blockDevInit (Device.ofImage image) drive).Ready :=
    blockDevInit_ready (Device.ofImage_reliable image) drive
  have hHal :=
    platFsRead_reliable (mountImage_mounted image) name zeros
      max.toNat
  rw [hAbsent] at hHal
  dsimp only at hHal
  have hHead := fatNormalize_head name
  have hMemory :=
    root_entryMemory
      (fat12Init fsPlace
        (blockDevInit (Device.ofImage image) drive))
      (fatNormalize name) 0xFFF 0
  generalize
    entryMemory
      (fat12Init fsPlace
        (blockDevInit (Device.ofImage image) drive))
      (fatNormalize name) 0xFFF 0 = mem at hMemory
  rcases hAgree fsPlace zeros 1 mem fsPlace_fits (by decide) with
    ⟨hal, fs', mem₁, fs₁, shared, mem₂, fs₂, hRead, hMount,
      hShared, hCode, _⟩
  rcases fat12Mount_root hDev mem with
    ⟨mem', fs, hMount', hReady, hRoot⟩
  rw [hMount', Prod.mk.injEq, Prod.mk.injEq] at hMount
  rcases hMount with ⟨_, rfl, rfl⟩
  rw [hMemory] at hRoot
  have hFound :
      fat12FindEntry (fs.root mem') (fat12NormalizeName name) =
        some 0 := by
    rw [fat12FindEntry, fatFindEntry_agree hRoot]
    exact fatFindEntry_entryRoot (fatNormalize_length name)
      (by rw [hHead]; decide) (by rw [hHead]; decide) _ _
  have hEnd : fatEnd ≤ slotCluster (fs.root mem') 0 := by
    have hSlot : SlotAgree (fs.root mem') _ 0 :=
      hRoot.mono (by omega) (by omega)
    rw [hSlot.cluster_eq, slotCluster_entryRoot (by omega)]
    decide
  rw [fat12ReadFile_ended hReady hFound hEnd] at hShared
  rw [hHal] at hRead
  cases hRead
  cases hShared
  exact absurd hCode (by decide)

end Disagreement

/-
  On no image, name and limit do the readers agree whatever
  is in memory; where the mount leaves no entry of the name
  they agree exactly when the HAL finds none.
-/
theorem not_readersAgree
    (image : ByteMem)
    (drive : UInt8)
    (name : List UInt8)
    (max : UInt32) :
    ¬ ReadersAgree image drive name max ∧
      ∀ addr halBuf buf mem,
        MountsWithout image drive name addr mem →
          (ReadersAgreeAt image drive name max addr halBuf buf
              mem ↔
            readSlot (mountImage image) name = none) := by
  refine ⟨?_, fun _ halBuf buf _ hWithout =>
    readersAgreeAt_iff_missing hWithout max halBuf buf⟩
  cases hFound : readSlot (mountImage image) name with
  | none => exact not_readersAgree_absent hFound drive max
  | some slot => exact not_readersAgree_found hFound drive max

/- On zeros the file of 600 bytes is not found. -/
theorem not_readersAgree_pair_zeros :
    ¬ ReadersAgreeAt pairVolume 0 pairName 1024 fsPlace zeros 1
      zeros := by
  rw [(not_readersAgree pairVolume 0 pairName 1024).2 fsPlace
    zeros 1 zeros (mountsWithout_zeros pairVolume 0 pairName),
    pairVolume_found]
  exact Option.some_ne_none _

/- The HAL reads it. -/
theorem not_readersAgree_pair :
    ¬ ReadersAgree pairVolume 0 pairName 1024 :=
  not_readersAgree_found pairVolume_found 0 1024

end Storage

end AsmOS
