import AsmOS.Boot.Loader

/-
  Which kernel entry the boot loader finds and uses.

  With DS at `ROOT_SEG` the label of the searched name
  addresses other bytes than the loader's own, and the
  variable that `.got` writes is not the one that `.cloop`
  reads.

  Main declarations:
    * `FirstKernelEntry`
    * `find_eq_some_iff`
    * `FindsKernel`
    * `findsKernel_iff`
-/

------------------------------------------------------------
-- Comparing Names
------------------------------------------------------------

namespace AsmOS

namespace Boot

open ByteMem

variable {disk mem : ByteMem} {image : LoaderImage}
variable {cx d j k : Nat}

/- Without a wrap the compared strings are two slices. -/
theorem repeCmpsb_iff
    {ds es : Nat}
    (n si di : Nat)
    (hSi : si + n < 65536)
    (hDi : di + n < 65536) :
    repeCmpsb mem ds es n si di = true ↔
      mem.slice (linear ds si) n = mem.slice (linear es di) n := by
  rw [slice_eq_iff]
  induction n generalizing si di with
  | zero => simp [repeCmpsb]
  | succ n ih =>
      unfold repeCmpsb
      rw [Nat.mod_eq_of_lt (show si + 1 < 65536 by omega),
        Nat.mod_eq_of_lt (show di + 1 < 65536 by omega)]
      have hSiNext : linear ds (si + 1) = linear ds si + 1 := by
        simp only [linear]
        omega
      have hDiNext : linear es (di + 1) = linear es di + 1 := by
        simp only [linear]
        omega
      constructor
      · intro hAll i hi
        split at hAll
        · next hHead =>
            have hTail :=
              (ih (si + 1) (di + 1) (by omega) (by omega)).mp hAll
            cases i with
            | zero => exact hHead
            | succ i =>
                have hByte := hTail i (by omega)
                rw [hSiNext, hDiNext] at hByte
                simpa [Nat.add_assoc, Nat.add_comm 1] using hByte
        · cases hAll
      · intro hAll
        rw [if_pos (by simpa using hAll 0 (by omega))]
        refine (ih (si + 1) (di + 1) (by omega) (by omega)).mpr ?_
        intro i hi
        have hByte := hAll (i + 1) (by omega)
        rw [hSiNext, hDiNext]
        simpa [Nat.add_assoc, Nat.add_comm 1] using hByte

/- Slot `j` of the root bears the searched name. -/
def SlotNamed
    (disk : ByteMem)
    (name : List UInt8)
    (j : Nat) : Prop :=
  disk.slice (512 * 51 + 32 * j) 11 = name

instance
    (disk : ByteMem)
    (name : List UInt8)
    (j : Nat) :
    Decidable (SlotNamed disk name j) :=
  inferInstanceAs (Decidable (_ = _))

/- The name that `.find` searches for. -/
def searchedName
    (image : LoaderImage)
    (mem : ByteMem) : List UInt8 :=
  mem.slice (linear rootSeg image.kernelName) 11

/- The bytes at the label lie behind the loaded tables. -/
theorem searchedName_loadTables
    (image : LoaderImage)
    (disk mem : ByteMem) :
    searchedName image (loadTables disk mem) =
      searchedName image mem := by
  have hLo := image.kernelName_lo
  refine slice_congr fun i _ => loadTables_outside (Or.inr ?_)
  simp only [linear, rootSeg]
  omega

theorem repeCmpsb_slot
    (hSlot : j < 224) :
    repeCmpsb (loadTables disk mem) rootSeg rootSeg 11
        image.kernelName (32 * j) = true ↔
      SlotNamed disk (searchedName image mem) j := by
  have hHi := image.kernelName_hi
  rw [repeCmpsb_iff 11 _ _ (by omega) (by omega),
    ← searchedName_loadTables image disk, SlotNamed, eq_comm]
  have hDisk :
      (loadTables disk mem).slice (linear rootSeg (32 * j)) 11 =
        disk.slice (512 * 51 + 32 * j) 11 := by
    refine slice_congr fun i hi => ?_
    have hPlace :
        linear rootSeg (32 * j) + i = 0x11000 + (32 * j + i) := by
      simp only [linear, rootSeg]
      omega
    rw [hPlace, loadTables_root (by omega), Nat.add_assoc]
  rw [hDisk]
  rfl

/- `.find` stops at the first slot that bears the name. -/
theorem find_eq_some_iff
    (hSlots : j + cx = 224) :
    find image (loadTables disk mem) cx (32 * j) = some d ↔
      ∃ k, d = 32 * k ∧ j ≤ k ∧ k < 224 ∧
        SlotNamed disk (searchedName image mem) k ∧
        ∀ i, j ≤ i → i < k →
          ¬ SlotNamed disk (searchedName image mem) i := by
  induction cx generalizing j with
  | zero =>
      simp only [find]
      constructor
      · intro hNone
        cases hNone
      · rintro ⟨k, _, hLo, hHi, _⟩
        omega
  | succ cx ih =>
      have hNext : (32 * j + 32) % 65536 = 32 * (j + 1) := by
        omega
      unfold find
      rw [hNext]
      split
      · next hHere =>
          rw [repeCmpsb_slot (by omega)] at hHere
          constructor
          · intro hSome
            cases hSome
            exact ⟨j, rfl, Nat.le_refl j, by omega, hHere,
              fun i hLo hHi => by omega⟩
          · rintro ⟨k, rfl, hLo, _, _, hFirst⟩
            rcases Nat.eq_or_lt_of_le hLo with rfl | hLess
            · rfl
            · exact absurd hHere
                (hFirst j (Nat.le_refl j) hLess)
      · next hHere =>
          rw [repeCmpsb_slot (by omega)] at hHere
          rw [ih (by omega)]
          constructor
          · rintro ⟨k, hd, hLo, hHi, hNamed, hFirst⟩
            refine ⟨k, hd, by omega, hHi, hNamed, ?_⟩
            intro i hi hik
            rcases Nat.eq_or_lt_of_le hi with rfl | hLess
            · exact hHere
            · exact hFirst i hLess hik
          · rintro ⟨k, hd, hLo, hHi, hNamed, hFirst⟩
            rcases Nat.eq_or_lt_of_le hLo with rfl | hLess
            · exact absurd hNamed hHere
            · exact ⟨k, hd, hLess, hHi, hNamed,
                fun i hi hik => hFirst i (by omega) hik⟩

------------------------------------------------------------
-- The Cluster That Is Read
------------------------------------------------------------

/- The start cluster field of slot `k`. -/
def startCluster
    (disk : ByteMem)
    (k : Nat) : Nat :=
  load16 disk (512 * 51 + 32 * k + 26)

/- Slot `k` is the first one with the kernel's name. -/
structure FirstKernelEntry
    (disk : ByteMem)
    (k : Nat) : Prop where
  slot : k < 224
  named : SlotNamed disk kernelName k
  first : ∀ i < k, ¬ SlotNamed disk kernelName i

/- The loader's own name string is at its label. -/
def HoldsImage
    (image : LoaderImage)
    (mem : ByteMem) : Prop :=
  mem.slice image.kernelName 11 = kernelName

/-
  `.find` ends at the entry, and `.cloop` begins with the
  entry's start cluster.
-/
def FindsKernel
    (image : LoaderImage)
    (disk mem : ByteMem)
    (k : Nat) : Prop :=
  ∃ s, fatloadEntry image disk mem = some (32 * k, s) ∧
    s.cluster image = startCluster disk k

/-
  What the segment values make of the two labels: the name is
  at `ROOT_SEG:kernel_name` and the start cluster already is
  at `FAT_SEG:cluster`.
-/
def SegmentsHold
    (image : LoaderImage)
    (disk mem : ByteMem)
    (k : Nat) : Prop :=
  mem.slice (linear rootSeg image.kernelName) 11 = kernelName ∧
    load16 mem (linear fatSeg image.cluster) =
      startCluster disk k

/- The word `.cloop` reads is not the word `.got` writes. -/
theorem cluster_got
    (di : Nat) :
    (got image (loadTables disk mem) di).cluster image =
      load16 mem (linear fatSeg image.cluster) := by
  have hLo := image.cluster_lo
  have hHi := image.cluster_hi
  simp only [got, LoopState.cluster, linear, rootSeg, fatSeg]
  rw [load16_store16_of_disjoint _ _ (by omega)]
  have hAgree :
      AgreeOn (loadTables disk mem) mem 0x12C00 0x20000 :=
    fun x hx _ => loadTables_outside (Or.inr hx)
  exact hAgree.load16_eq (by omega) (by omega)

/- The segments hold the right words only by accident. -/
theorem findsKernel_segments_iff
    (hEntry : FirstKernelEntry disk k) :
    FindsKernel image disk mem k ↔
      SegmentsHold image disk mem k := by
  have hName :
      searchedName image mem =
        mem.slice (linear rootSeg image.kernelName) 11 := rfl
  unfold FindsKernel fatloadEntry SegmentsHold
  dsimp only
  constructor
  · rintro ⟨s, hFound, hCluster⟩
    rcases Option.map_eq_some_iff.mp hFound with
      ⟨d, hFind, hPair⟩
    cases hPair
    rcases (find_eq_some_iff (j := 0) rfl).mp hFind with
      ⟨i, hi, _, _, hNamed, _⟩
    have hSame : i = k := by omega
    subst hSame
    rw [cluster_got] at hCluster
    have hSearch : searchedName image mem = kernelName :=
      hNamed.symm.trans hEntry.named
    exact ⟨hName.symm.trans hSearch, hCluster⟩
  · rintro ⟨hSearch, hCluster⟩
    have hFind :
        find image (loadTables disk mem) 224 (32 * 0) =
          some (32 * k) := by
      refine (find_eq_some_iff rfl).mpr
        ⟨k, rfl, Nat.zero_le k, hEntry.slot, ?_, ?_⟩
      · rw [hName, hSearch]
        exact hEntry.named
      · intro i _ hi
        rw [hName, hSearch]
        exact hEntry.first i hi
    rw [show 32 * 0 = 0 from rfl] at hFind
    rw [hFind]
    exact ⟨_, rfl, by rw [cluster_got, hCluster]⟩

/- Memory that is zero except for the name in the loader. -/
def loaderOnly
    (image : LoaderImage) : ByteMem :=
  storeBlock zeros image.kernelName 11 (ofList kernelName)

theorem loaderOnly_holds :
    HoldsImage image (loaderOnly image) := by
  unfold HoldsImage loaderOnly
  calc
    _ = (ofList kernelName).slice 0 11 := by
      refine slice_congr fun i hi => ?_
      rw [storeBlock_inside (by omega) (by omega)]
      congr 1
      omega
    _ = kernelName := by decide

/- There the name at `ROOT_SEG:kernel_name` is zero bytes. -/
theorem not_segmentsHold_loaderOnly :
    ¬ SegmentsHold image disk (loaderOnly image) k := by
  rintro ⟨hName, _⟩
  have hHi := image.kernelName_hi
  have hFirst := congrArg (fun l => l[0]?) hName
  simp only [linear, rootSeg] at hFirst
  rw [slice_getElem? _ _ _ _ (by omega), loaderOnly,
    storeBlock_outside (by omega), zeros_apply] at hFirst
  exact absurd hFirst (by decide)

/-
  The loader finds the kernel and its start cluster in a
  memory exactly when the two segment-relative words are
  right there; no disk makes that true of every memory.
-/
theorem findsKernel_iff
    (image : LoaderImage)
    (disk : ByteMem)
    (k : Nat)
    (hEntry : FirstKernelEntry disk k) :
    (∀ mem, FindsKernel image disk mem k ↔
      SegmentsHold image disk mem k) ∧
      ¬ ∀ mem, HoldsImage image mem →
        FindsKernel image disk mem k := by
  refine ⟨fun mem => findsKernel_segments_iff hEntry, ?_⟩
  intro hAll
  have hFinds := hAll (loaderOnly image) loaderOnly_holds
  exact not_segmentsHold_loaderOnly
    ((findsKernel_segments_iff hEntry).mp hFinds)

/- A disk whose first root entry is the kernel at cluster 2. -/
def kernelDisk : ByteMem :=
  store16
    (storeBlock zeros (512 * 51) 11 (ofList kernelName))
    (512 * 51 + 26) 2

def sampleImage : LoaderImage where
  kernelName := 0x7E40
  cluster := 0x8000
  kernelName_lo := by decide
  kernelName_hi := by decide
  cluster_lo := by decide
  cluster_hi := by decide

theorem kernelDisk_entry :
    FirstKernelEntry kernelDisk 0 where
  slot := by decide
  named := by decide
  first := fun i hi => absurd hi (Nat.not_lt_zero i)

theorem findsKernel_iff_sample :
    (∀ mem, FindsKernel sampleImage kernelDisk mem 0 ↔
      SegmentsHold sampleImage kernelDisk mem 0) ∧
      ¬ ∀ mem, HoldsImage sampleImage mem →
        FindsKernel sampleImage kernelDisk mem 0 :=
  findsKernel_iff sampleImage kernelDisk 0 kernelDisk_entry

/- In otherwise empty memory the kernel is not found. -/
theorem not_findsKernel_loaderOnly :
    FirstKernelEntry kernelDisk 0 ∧
      HoldsImage sampleImage (loaderOnly sampleImage) ∧
      ¬ FindsKernel sampleImage kernelDisk
        (loaderOnly sampleImage) 0 := by
  refine ⟨kernelDisk_entry, loaderOnly_holds, ?_⟩
  intro hFinds
  exact not_segmentsHold_loaderOnly
    ((findsKernel_segments_iff kernelDisk_entry).mp hFinds)

end Boot

end AsmOS
