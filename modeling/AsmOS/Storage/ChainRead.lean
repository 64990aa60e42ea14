import Mathlib.Data.List.Perm.Subperm
import AsmOS.Storage.HalSpec
import AsmOS.Storage.NameSplit

/-
  `plat_fs_read` along a cluster chain.

  A file whose chain is well formed is read exactly, up to
  the size of the buffer, when the name leads to it.  A name
  leads only to files without a base: the normalised name
  always starts with eight spaces.  On any other contents
  the read follows whatever links the table holds, and stays
  inside the table and the data area exactly when every
  cluster it asks for has a sector.

  Main declarations:
    * `WellFormed`, `ReadsFile`, `readsFile_iff`
    * `asked`, `fatReadLoop_issued`
    * `ReadSafe`, `readSafe_iff`
-/

------------------------------------------------------------
-- The Bytes Of A Chain
------------------------------------------------------------

namespace AsmOS

namespace Storage

open ByteMem

/- The sector of a cluster. -/
def clusterBytes
    (image : ByteMem)
    (c : Nat) : List UInt8 :=
  image.slice (512 * (63 + c)) 512

/- The clusters of a list, one after another. -/
def chainBytes
    (image : ByteMem)
    (cs : List Nat) : List UInt8 :=
  cs.flatMap (clusterBytes image)

@[simp] theorem clusterBytes_length
    (image : ByteMem)
    (c : Nat) :
    (clusterBytes image c).length = 512 :=
  slice_length _ _ _

@[simp] theorem chainBytes_nil
    (image : ByteMem) :
    chainBytes image [] = [] :=
  rfl

theorem chainBytes_cons
    (image : ByteMem)
    (c : Nat)
    (cs : List Nat) :
    chainBytes image (c :: cs) =
      clusterBytes image c ++ chainBytes image cs :=
  List.flatMap_cons

theorem chainBytes_length
    (image : ByteMem)
    (cs : List Nat) :
    (chainBytes image cs).length = 512 * cs.length := by
  induction cs with
  | nil => rfl
  | cons c cs ih =>
      rw [chainBytes_cons, List.length_append, ih,
        clusterBytes_length, List.length_cons]
      omega

theorem chainBytes_take
    (image : ByteMem)
    (cs : List Nat)
    (k : Nat) :
    chainBytes image (cs.take k) =
      (chainBytes image cs).take (512 * k) := by
  induction cs generalizing k with
  | nil => simp
  | cons c cs ih =>
      cases k with
      | zero => simp
      | succ k =>
          have hFirst :
              (clusterBytes image c).take (512 * (k + 1)) =
                clusterBytes image c := by
            apply List.take_of_length_le
            rw [clusterBytes_length]
            omega
          rw [List.take_succ_cons, chainBytes_cons,
            chainBytes_cons, ih, List.take_append, hFirst,
            clusterBytes_length, Nat.mul_succ,
            Nat.add_sub_cancel]

/- What a copy leaves between its start and its end. -/
theorem readInto_slice
    (image buf : ByteMem)
    (limit copied : Nat)
    (cs : List Nat) :
    (readInto image limit cs copied buf).slice copied
        (min (limit - copied) (512 * cs.length)) =
      (chainBytes image cs).take (limit - copied) := by
  induction cs generalizing copied buf with
  | nil => simp [slice]
  | cons c cs ih =>
      -- The first sector is not touched by the later ones.
      have hFirst :
          (readInto image limit (c :: cs) copied buf).slice
              copied (min 512 (limit - copied)) =
            (clusterBytes image c).take (limit - copied) := by
        rw [clusterBytes, take_slice, min_comm]
        apply slice_congr
        intro i hi
        rw [readInto, readInto_outside (by omega),
          storeBlock_inside (by omega) (by omega), view_apply]
        congr 1
        omega
      have hSplit :
          min (limit - copied) (512 * (c :: cs).length) =
            min 512 (limit - copied) +
              min (limit - (copied + 512))
                (512 * cs.length) := by
        rw [List.length_cons]
        omega
      have hLater :
          (readInto image limit (c :: cs) copied buf).slice
              (copied + min 512 (limit - copied))
              (min (limit - (copied + 512))
                (512 * cs.length)) =
            (chainBytes image cs).take
              (limit - copied - 512) := by
        by_cases hFull : 512 ≤ limit - copied
        · rw [min_eq_left hFull, Nat.sub_sub]
          exact ih _ (copied + 512)
        · have hLast :
              min (limit - (copied + 512))
                (512 * cs.length) = 0 := by
            omega
          have hRest : limit - copied - 512 = 0 := by omega
          rw [hLast, hRest]
          rfl
      rw [hSplit, ← slice_append, hFirst, hLater,
        chainBytes_cons, List.take_append,
        clusterBytes_length]

------------------------------------------------------------
-- Volumes Of One File
------------------------------------------------------------

/- A root directory whose only file is in slot 0. -/
def fileRoot
    (name83 : List UInt8)
    (start size : Nat) : ByteMem :=
  ((nameSlot zeros 0 name83).store32 28 size).store16 26 start

/- An image with that directory and the table `fat`. -/
def fileVolume
    (name83 : List UInt8)
    (fat : ByteMem)
    (start size : Nat) : ByteMem :=
  (zeros.storeBlock (512 * 33) 4608 fat).storeBlock (512 * 51)
    7168 (fileRoot name83 start size)

section Volume

variable (name83 : List UInt8)
variable (fat : ByteMem)
variable (start size : Nat)

theorem fileVolume_get
    {c : Nat}
    (hLink : linkInCache c) :
    Packed12.get
        (mountImage (fileVolume name83 fat start size)).fatCache
        c =
      Packed12.get fat c := by
  have hAgree :
      AgreeOn
        (mountImage (fileVolume name83 fat start size)).fatCache
        fat 0 4608 := by
    intro x _ hx
    rw [mountImage_fatCache _ hx, fileVolume,
      storeBlock_outside (by omega),
      storeBlock_inside (by omega) (by omega),
      Nat.add_sub_cancel_left]
  unfold linkInCache at hLink
  refine Packed12.get_congr hAgree (Nat.zero_le _) ?_
  unfold Packed12.offset
  omega

theorem fileVolume_root :
    AgreeOn
      (mountImage
        (fileVolume name83 fat start size)).rootCache
      (fileRoot name83 start size) 0 7168 := by
  intro x _ hx
  rw [mountImage_rootCache _ hx, fileVolume,
    storeBlock_inside (by omega) (by omega),
    Nat.add_sub_cancel_left]

theorem fileVolume_slotCluster :
    slotCluster
        (mountImage
          (fileVolume name83 fat start size)).rootCache 0 =
      start % 65536 := by
  rw [SlotAgree.cluster_eq (fun x _ hx =>
    fileVolume_root name83 fat start size x (Nat.zero_le x)
      (by omega))]
  exact load16_store16 _ 26 start

theorem fileVolume_slotSize :
    slotSize
        (mountImage
          (fileVolume name83 fat start size)).rootCache 0 =
      size % 2 ^ 32 := by
  rw [SlotAgree.size_eq (fun x _ hx =>
    fileVolume_root name83 fat start size x (Nat.zero_le x)
      (by omega))]
  unfold slotSize fileRoot
  rw [store16, load32_storeBlock_of_disjoint (by omega)]
  exact load32_store32 _ 28 size

/- The name and the attributes of the file. -/
theorem fileVolume_named
    {j : Nat}
    (hj : j < 12) :
    (mountImage
        (fileVolume name83 fat start size)).rootCache j =
      nameSlot zeros 0 name83 j := by
  rw [fileVolume_root name83 fat start size _ (by omega)
      (by omega),
    fileRoot, store16_outside _ _ (by omega),
    store32_outside _ _ (by omega)]

theorem fileVolume_slotName
    (hLength : name83.length = 11) :
    slotName
        (mountImage
          (fileVolume name83 fat start size)).rootCache 0 =
      name83 := by
  have hSame :
      slotName
          (mountImage
            (fileVolume name83 fat start size)).rootCache 0 =
        slotName (nameSlot zeros 0 name83) 0 :=
    slice_congr fun j hj => by
      rw [Nat.mul_zero, Nat.zero_add]
      exact fileVolume_named name83 fat start size (by omega)
  rw [hSame, slotName_nameSlot zeros 0 hLength]

/- No other slot is in use. -/
theorem fileVolume_free
    {i : Nat}
    (hPos : 0 < i)
    (hi : i < 224) :
    slotFree
        (mountImage
          (fileVolume name83 fat start size)).rootCache i =
      true := by
  unfold slotFree
  rw [fileVolume_root name83 fat start size _ (by omega)
      (by omega),
    fileRoot, store16_outside _ _ (by omega),
    store32_outside _ _ (by omega), nameSlot,
    storeByte_of_ne _ _ (by omega), storeBlock_outside (by omega)]
  rfl

/- The file is live under its name. -/
theorem fileVolume_matches
    (hLength : name83.length = 11)
    (hLive : name83.getD 0 0 ≠ 0 ∧ name83.getD 0 0 ≠ 0xE5) :
    slotMatches
        (mountImage
          (fileVolume name83 fat start size)).rootCache
        name83 0 =
      true := by
  have hFree :
      slotFree
          (mountImage
            (fileVolume name83 fat start size)).rootCache 0 =
        false := by
    have hName :
        slotFree (nameSlot zeros 0 name83) 0 = false := by
      rw [slotFree_nameSlot]
      simpa using hLive
    unfold slotFree at hName ⊢
    rw [Nat.mul_zero] at hName ⊢
    rw [fileVolume_named name83 fat start size (by omega)]
    exact hName
  have hPlain :
      slotDirectory
          (mountImage
            (fileVolume name83 fat start size)).rootCache 0 =
        false := by
    unfold slotDirectory
    rw [Nat.mul_zero, Nat.zero_add,
      fileVolume_named name83 fat start size (by omega)]
    exact slotDirectory_nameSlot zeros 0
  simp [slotMatches, hFree, hPlain,
    fileVolume_slotName name83 fat start size hLength]

/- It is found under that name. -/
theorem fileVolume_find
    (hLength : name83.length = 11)
    (hLive : name83.getD 0 0 ≠ 0 ∧ name83.getD 0 0 ≠ 0xE5) :
    fatFindEntry
        (mountImage
          (fileVolume name83 fat start size)).rootCache
        name83 =
      some 0 := by
  rw [fatFindEntry_eq_some_iff]
  exact ⟨by omega,
    fileVolume_matches name83 fat start size hLength hLive,
    fun i hi => absurd hi (by omega)⟩

/- No other name finds it. -/
theorem fileVolume_absent
    (hLength : name83.length = 11)
    {other : List UInt8}
    (hOther : other ≠ name83) :
    fatFindEntry
        (mountImage
          (fileVolume name83 fat start size)).rootCache
        other =
      none := by
  rw [fatFindEntry_eq_none_iff]
  intro i hi
  rcases Nat.eq_zero_or_pos i with rfl | hPos
  · simp [slotMatches, hOther.symm,
      fileVolume_slotName name83 fat start size hLength]
  · exact slotMatches_of_free
      (fileVolume_free name83 fat start size hPos hi) _

end Volume

------------------------------------------------------------
-- Well-Formed Files
------------------------------------------------------------

/-
  The chain from the start cluster of a slot is `cs`: as
  many clusters as the size needs, all in the data area.
  Its clusters are distinct because the chain ends.
-/
structure WellFormed
    (fs : Fs)
    (slot : Nat)
    (cs : List Nat) : Prop where
  count : cs.length = sectorCount (slotSize fs.rootCache slot)
  range : ∀ c ∈ cs, 2 ≤ c ∧ c ≤ 2816
  chain : cs ≠ [] →
    Linked.Walks (Packed12.get fs.fatCache) chainStop
      (slotCluster fs.rootCache slot) cs

namespace WellFormed

variable {fs : Fs} {slot : Nat} {cs : List Nat}

theorem nodup
    (hFile : WellFormed fs slot cs) :
    cs.Nodup := by
  by_cases hEmpty : cs = []
  · rw [hEmpty]
    exact List.nodup_nil
  · exact (hFile.chain hEmpty).nodup

/- A read visits the first clusters of the chain. -/
theorem readClusters_eq
    (hFile : WellFormed fs slot cs)
    (bufSize : Nat) :
    readClusters fs slot bufSize =
      cs.take (sectorCount (readLimit fs slot bufSize)) := by
  by_cases hEmpty : cs = []
  · have hCount := hFile.count
    have hZero :
        sectorCount (readLimit fs slot bufSize) = 0 := by
      rw [hEmpty, List.length_nil] at hCount
      unfold sectorCount readLimit at *
      omega
    rw [hEmpty, List.take_nil, readClusters, hZero]
    rfl
  · exact (hFile.chain hEmpty).path_eq_take _

theorem readClusters_length
    (hFile : WellFormed fs slot cs)
    (bufSize : Nat) :
    (readClusters fs slot bufSize).length =
      sectorCount (readLimit fs slot bufSize) := by
  have hCount := hFile.count
  rw [hFile.readClusters_eq, List.length_take]
  unfold sectorCount readLimit at *
  omega

theorem readDefined
    (hFile : WellFormed fs slot cs)
    (bufSize : Nat) :
    ReadDefined fs slot bufSize := by
  have hShort : cs.length ≤ 2817 := by
    have hSubset : cs ⊆ List.range 2817 := by
      intro c hMember
      have hRange := hFile.range c hMember
      rw [List.mem_range]
      omega
    have hLength :=
      (hFile.nodup.subperm hSubset).length_le
    rw [List.length_range] at hLength
    exact hLength
  unfold ReadDefined
  rw [hFile.readClusters_eq]
  refine ⟨?_, ?_⟩
  · rw [List.length_take]
    unfold readFuel
    omega
  · intro c hMember
    have hRange := hFile.range c (List.mem_of_mem_take hMember)
    unfold linkInCache
    omega

end WellFormed

/- The bytes a read of a slot copies. -/
def slotBytes
    (fs : Fs)
    (slot bufSize : Nat) : List UInt8 :=
  (chainBytes fs.dev.image
      (readClusters fs slot bufSize)).take
    (readLimit fs slot bufSize)

theorem slotBytes_length
    (fs : Fs)
    (slot bufSize : Nat) :
    (slotBytes fs slot bufSize).length =
      min (readLimit fs slot bufSize)
        (512 * (readClusters fs slot bufSize).length) := by
  rw [slotBytes, List.length_take, chainBytes_length]

/- They are what the buffer holds afterwards. -/
theorem readOutcome_slice
    (fs : Fs)
    (slot : Nat)
    (buf : ByteMem)
    (bufSize : Nat) :
    (readOutcome fs slot buf bufSize).buf.slice 0
        (slotBytes fs slot bufSize).length =
      slotBytes fs slot bufSize := by
  rw [slotBytes_length]
  exact readInto_slice fs.dev.image buf
    (readLimit fs slot bufSize) 0
    (readClusters fs slot bufSize)

/- Nothing behind them is stored. -/
theorem readOutcome_outside
    (fs : Fs)
    (slot : Nat)
    (buf : ByteMem)
    (bufSize : Nat)
    {x : Nat}
    (hx : (slotBytes fs slot bufSize).length ≤ x) :
    (readOutcome fs slot buf bufSize).buf x = buf x := by
  rw [slotBytes_length] at hx
  exact readInto_outside (by omega)

/- The clusters left out lie past the limit. -/
theorem WellFormed.slotBytes_eq
    {fs : Fs}
    {slot : Nat}
    {cs : List Nat}
    (hFile : WellFormed fs slot cs)
    (bufSize : Nat) :
    slotBytes fs slot bufSize =
      (chainBytes fs.dev.image cs).take
        (readLimit fs slot bufSize) := by
  rw [slotBytes, hFile.readClusters_eq, chainBytes_take,
    List.take_take, min_eq_left (by
      unfold sectorCount
      omega)]

theorem WellFormed.slotBytes_length
    {fs : Fs}
    {slot : Nat}
    {cs : List Nat}
    (hFile : WellFormed fs slot cs)
    (bufSize : Nat) :
    (slotBytes fs slot bufSize).length =
      readLimit fs slot bufSize := by
  rw [AsmOS.Storage.slotBytes_length,
    hFile.readClusters_length]
  unfold sectorCount
  omega

------------------------------------------------------------
-- Reading A File By Name
------------------------------------------------------------

/-
  A read of `name` is the read of the file in a slot whose
  chain is `cs`: it succeeds, reports the size of the file
  or of the buffer, whichever is smaller, copies that many
  bytes of the chain and stores nothing past them.
-/
def ReadsFile
    (fs : Fs)
    (slot : Nat)
    (cs : List Nat)
    (name : List UInt8)
    (buf : ByteMem)
    (bufSize : Nat) : Prop :=
  ∃ result fs',
    platFsRead fs name buf bufSize = some (result, fs') ∧
      result.rc = 0 ∧
      result.outSize =
        some (min (slotSize fs.rootCache slot) bufSize) ∧
      result.buf.slice 0
          (min (slotSize fs.rootCache slot) bufSize) =
        (chainBytes fs.dev.image cs).take
          (min (slotSize fs.rootCache slot) bufSize) ∧
      ∀ x, min (slotSize fs.rootCache slot) bufSize ≤ x →
        result.buf x = buf x

section ByName

variable {fs : Fs}
variable {slot : Nat}
variable {cs : List Nat}

/- What the read of a found slot comes to. -/
theorem readsFile_found_iff
    (hMounted : fs.Mounted)
    (hFile : WellFormed fs slot cs)
    {name : List UInt8}
    {found : Nat}
    (hFound : readSlot fs name = some found)
    (buf : ByteMem)
    {bufSize : Nat}
    (hDefined : ReadDefined fs found bufSize) :
    ReadsFile fs slot cs name buf bufSize ↔
      slotBytes fs found bufSize =
        slotBytes fs slot bufSize := by
  have hCall := platFsRead_reliable hMounted name buf bufSize
  rw [hFound] at hCall
  simp only [if_pos hDefined] at hCall
  have hSlice := readOutcome_slice fs found buf bufSize
  have hLength := hFile.slotBytes_length bufSize
  constructor
  · rintro ⟨result, fs', hRead, _, hSize, hBytes, _⟩
    rw [hCall] at hRead
    cases hRead
    have hFoundLength :
        (slotBytes fs found bufSize).length =
          readLimit fs slot bufSize := by
      rw [slotBytes_length]
      exact Option.some.inj hSize
    rw [hFoundLength] at hSlice
    rw [hFile.slotBytes_eq]
    exact hSlice.symm.trans hBytes
  · intro hSame
    have hFoundLength :
        (slotBytes fs found bufSize).length =
          readLimit fs slot bufSize := by
      rw [hSame, hLength]
    rw [hFoundLength, hSame, hFile.slotBytes_eq] at hSlice
    refine ⟨_, _, hCall, rfl, ?_, hSlice, fun x hx => ?_⟩
    · rw [slotBytes_length] at hFoundLength
      exact congrArg some hFoundLength
    · refine readOutcome_outside fs found buf bufSize ?_
      rw [hFoundLength]
      exact hx

/-
  A read by name is the read of a well-formed file exactly
  when the name leads to a slot whose read is defined and
  copies what a read of the file's own slot copies.
-/
theorem readsFile_iff
    (hMounted : fs.Mounted)
    (hFile : WellFormed fs slot cs)
    (name : List UInt8)
    (buf : ByteMem)
    (bufSize : Nat) :
    ReadsFile fs slot cs name buf bufSize ↔
      ∃ found, readSlot fs name = some found ∧
        ReadDefined fs found bufSize ∧
        slotBytes fs found bufSize =
          slotBytes fs slot bufSize := by
  have hCall := platFsRead_reliable hMounted name buf bufSize
  cases hFound : readSlot fs name with
  | none =>
      refine iff_of_false ?_ (by simp)
      rintro ⟨result, fs', hRead, hCode, _⟩
      rw [hCall, hFound] at hRead
      cases hRead
      simp at hCode
  | some found =>
      by_cases hDefined : ReadDefined fs found bufSize
      · rw [readsFile_found_iff hMounted hFile hFound buf
          hDefined]
        simp [hDefined]
      · refine iff_of_false ?_ (by simp [hDefined])
        rintro ⟨result, fs', hRead, _⟩
        rw [hCall, hFound] at hRead
        simp [hDefined] at hRead

end ByName

/- A table in which cluster 3 leads to cluster 2, the last. -/
def pairTable : ByteMem :=
  Packed12.set (Packed12.set zeros 3 2) 2 0xFFF

/- `A.B` -/
def pairName : List UInt8 :=
  [0x41, 0x2E, 0x42]

/- 600 bytes in clusters 3 and 2. -/
def pairVolume : ByteMem :=
  fileVolume (fatNormalize pairName) pairTable 3 600

/- A file over that table, under any name. -/
theorem pairTable_wellFormed
    (name83 : List UInt8) :
    WellFormed (mountImage (fileVolume name83 pairTable 3 600))
      0 [3, 2] := by
  have hThree :
      Packed12.get
          (mountImage
            (fileVolume name83 pairTable 3 600)).fatCache 3 =
        2 := by
    rw [fileVolume_get _ _ _ _ (by decide)]
    decide
  have hTwo :
      Packed12.get
          (mountImage
            (fileVolume name83 pairTable 3 600)).fatCache 2 =
        0xFFF := by
    rw [fileVolume_get _ _ _ _ (by decide)]
    decide
  refine ⟨?_, by decide, fun _ => ?_⟩
  · rw [fileVolume_slotSize]
    rfl
  · rw [show slotCluster
        (mountImage
          (fileVolume name83 pairTable 3 600)).rootCache 0 =
      3 from fileVolume_slotCluster _ _ _ _]
    refine ⟨by decide, rfl, ?_⟩
    rw [hThree]
    refine ⟨by decide, rfl, ?_⟩
    rw [hTwo]
    exact Nat.le_of_ble_eq_true rfl

theorem pairVolume_wellFormed :
    WellFormed (mountImage pairVolume) 0 [3, 2] :=
  pairTable_wellFormed _

theorem pairVolume_found :
    readSlot (mountImage pairVolume) pairName = some 0 :=
  fileVolume_find _ _ _ _ (by decide) (by decide)

/- The pair is read into 550 bytes. -/
theorem readsFile_iff_pair :
    ReadsFile (mountImage pairVolume) 0 [3, 2] pairName zeros
      550 :=
  (readsFile_iff (mountImage_mounted _)
    pairVolume_wellFormed pairName zeros 550).mpr
    ⟨0, pairVolume_found,
      pairVolume_wellFormed.readDefined 550, rfl⟩

/- `KERNEL.BIN` -/
def kernelFile : List UInt8 :=
  [0x4B, 0x45, 0x52, 0x4E, 0x45, 0x4C, 0x2E,
    0x42, 0x49, 0x4E]

/- The same clusters under a name with a base. -/
def kernelVolume : ByteMem :=
  fileVolume (splitName kernelFile) pairTable 3 600

/- That name finds nothing. -/
theorem kernelVolume_found :
    readSlot (mountImage kernelVolume) kernelFile = none :=
  fileVolume_absent _ _ _ _ (by decide) (by decide)

/- The file is live and well formed, and is not read. -/
theorem not_readsFile_kernel :
    WellFormed (mountImage kernelVolume) 0 [3, 2] ∧
      slotMatches (mountImage kernelVolume).rootCache
        (splitName kernelFile) 0 = true ∧
      ¬ ReadsFile (mountImage kernelVolume) 0 [3, 2]
        kernelFile zeros 600 := by
  refine ⟨pairTable_wellFormed _,
    fileVolume_matches _ _ _ _ (by decide) (by decide), ?_⟩
  rintro ⟨result, fs', hRead, hCode, _⟩
  rw [platFsRead_reliable (mountImage_mounted _),
    kernelVolume_found] at hRead
  cases hRead
  cases hCode

------------------------------------------------------------
-- Any Contents
------------------------------------------------------------

/-
  The clusters asked for until a read fails, that one
  included; `k` operations were issued before.
-/
def readsUntil
    (fails : Nat → Bool) :
    Nat → List Nat → List Nat
| _, [] => []
| k, c :: cs =>
    c :: if fails k then [] else readsUntil fails (k + 1) cs

/- The clusters a read of a slot asks the device for. -/
def asked
    (fs : Fs)
    (slot bufSize : Nat) : List Nat :=
  readsUntil fs.dev.readFails fs.dev.log.length
    (readClusters fs slot bufSize)

theorem mem_of_mem_readsUntil
    {fails : Nat → Bool}
    {k : Nat}
    {cs : List Nat}
    {c : Nat}
    (hMember : c ∈ readsUntil fails k cs) :
    c ∈ cs := by
  induction cs generalizing k with
  | nil => cases hMember
  | cons d ds ih =>
      rcases List.mem_cons.mp hMember with rfl | hLater
      · exact List.mem_cons_self
      · split at hLater
        · cases hLater
        · exact List.mem_cons_of_mem _ (ih hLater)

/- The operations of the loop, on any device. -/
theorem fatReadLoop_issued
    {fatCache : ByteMem}
    {fsize bufSize fuel cluster copied : Nat}
    {buf : ByteMem}
    {dev : Device}
    (hCopied : copied ≤ min fsize bufSize)
    (hFuel : copied + 512 * fuel ≤ 2 ^ 32)
    {ok : Bool}
    {copied' : Nat}
    {buf' : ByteMem}
    {dev' : Device}
    (hLoop :
      fatReadLoop fatCache fsize bufSize fuel cluster copied
        buf dev = some (ok, copied', buf', dev')) :
    dev' = dev.issued
      (clusterReads
        (readsUntil dev.readFails dev.log.length
          (visited fatCache
            (sectorCount (min fsize bufSize - copied))
            cluster))) := by
  generalize hLimit : min fsize bufSize = limit at hCopied ⊢
  induction fuel generalizing cluster copied buf dev with
  | zero => cases hLoop
  | succ fuel ih =>
      by_cases hGoes : cluster < 4088 ∧ copied < limit
      · have hSector : 65 + cluster - 2 = 63 + cluster := by
          omega
        rw [fatReadLoop, if_pos (by
          simp only [fatEnd]
          omega)] at hLoop
        simp only [fatDataStart] at hLoop
        rw [hSector, fat12ReadSector] at hLoop
        rw [visited_next hGoes, readsUntil]
        by_cases hFails : dev.readFails dev.log.length = true
        · rw [if_pos hFails] at hLoop
          rw [if_pos hFails]
          simp only [Option.some.injEq, Prod.mk.injEq] at hLoop
          exact hLoop.2.2.2.symm
        · rw [if_neg hFails, fatNextCluster_eq] at hLoop
          rw [if_neg hFails]
          by_cases hLink : linkInCache cluster
          · simp only [if_pos hLink] at hLoop
            cases fuel with
            | zero => cases hLoop
            | succ fuel =>
                have hRoom : copied + 512 < 2 ^ 32 := by omega
                have hFuel' := fuel_next limit hFuel
                simp only [fileSize_eq hRoom,
                  copySize_eq hLimit hRoom,
                  nextCopied_eq hCopied hRoom] at hLoop
                rw [ih hFuel' hLoop (by omega),
                  Device.issued_issued]
                rfl
          · simp only [if_neg hLink] at hLoop
            cases hLoop
      · rw [fatReadLoop, if_neg (by
          simp only [fatEnd]
          omega)] at hLoop
        simp only [Option.some.injEq, Prod.mk.injEq] at hLoop
        rw [visited_done hGoes, readsUntil]
        exact hLoop.2.2.2.symm

/-
  A walk of fewer sectors than iterations ends when every
  cluster asked for has a link in the cached table.
-/
theorem fatReadLoop_ends
    {fatCache : ByteMem}
    {fsize bufSize fuel cluster copied : Nat}
    {buf : ByteMem}
    {dev : Device}
    (hCopied : copied ≤ min fsize bufSize)
    (hFuel : copied + 512 * fuel ≤ 2 ^ 32)
    (hShort :
      sectorCount (min fsize bufSize - copied) < fuel)
    (hLinks :
      ∀ c ∈ readsUntil dev.readFails dev.log.length
          (visited fatCache
            (sectorCount (min fsize bufSize - copied))
            cluster),
        linkInCache c) :
    ∃ out,
      fatReadLoop fatCache fsize bufSize fuel cluster copied
        buf dev = some out := by
  generalize hLimit : min fsize bufSize = limit
    at hCopied hShort hLinks
  induction fuel generalizing cluster copied buf dev with
  | zero => exact absurd hShort (Nat.not_lt_zero _)
  | succ fuel ih =>
      by_cases hGoes : cluster < 4088 ∧ copied < limit
      · have hSector : 65 + cluster - 2 = 63 + cluster := by
          omega
        rw [visited_next hGoes, readsUntil] at hLinks
        rw [fatReadLoop, if_pos (by
          simp only [fatEnd]
          omega)]
        simp only [fatDataStart]
        rw [hSector, fat12ReadSector]
        by_cases hFails : dev.readFails dev.log.length = true
        · rw [if_pos hFails]
          exact ⟨_, rfl⟩
        · rw [if_neg hFails] at hLinks
          have hLink := hLinks cluster List.mem_cons_self
          rw [if_neg hFails, fatNextCluster_eq, if_pos hLink]
          have hCount :
              sectorCount (limit - min limit (copied + 512)) <
                fuel := by
            unfold sectorCount at hShort ⊢
            omega
          have hRoom : copied + 512 < 2 ^ 32 := by omega
          have hFuel' := fuel_next limit hFuel
          simp only [fileSize_eq hRoom,
            copySize_eq hLimit hRoom,
            nextCopied_eq hCopied hRoom]
          refine ih hFuel' (by omega) hCount ?_
          intro c hMember
          exact hLinks c (List.mem_cons_of_mem _ hMember)
      · rw [fatReadLoop, if_neg (by
          simp only [fatEnd]
          omega)]
        exact ⟨_, rfl⟩

------------------------------------------------------------
-- Safe Reads
------------------------------------------------------------

/-
  The call returns, and every sector it asks for is a data
  sector of the image.
-/
def ReadSafe
    (fs : Fs)
    (name : List UInt8)
    (buf : ByteMem)
    (bufSize : Nat) : Prop :=
  ∃ result fs' ops,
    platFsRead fs name buf bufSize = some (result, fs') ∧
      fs'.dev = fs.dev.issued ops ∧
      ∀ op ∈ ops, ∃ lba, op = .read lba ∧
        65 ≤ lba ∧ lba ≤ 2879

/- A cluster whose sector lies in the data area. -/
def inDataArea
    (cluster : Nat) : Prop :=
  2 ≤ cluster ∧ cluster ≤ 2816

theorem clusterReads_safe_iff
    (cs : List Nat) :
    (∀ op ∈ clusterReads cs, ∃ lba, op = .read lba ∧
        65 ≤ lba ∧ lba ≤ 2879) ↔
      ∀ c ∈ cs, inDataArea c := by
  unfold clusterReads inDataArea
  rw [List.forall_mem_map]
  constructor
  · intro hReads c hMember
    rcases hReads c hMember with ⟨lba, hOp, hLo, hHi⟩
    cases hOp
    omega
  · intro hArea c hMember
    have hRange := hArea c hMember
    exact ⟨63 + c, rfl, by omega, by omega⟩

theorem Device.issued_injective
    {dev : Device}
    {ops ops' : List SectorOp}
    (hEq : dev.issued ops = dev.issued ops') :
    ops = ops' := by
  have hLog := congrArg Device.log hEq
  exact List.reverse_injective
    (List.append_cancel_right hLog)

/- The read of a found slot. -/
theorem readSafe_slot_iff
    {fs : Fs}
    (hReady : fs.fsReady = true)
    {name : List UInt8}
    {slot : Nat}
    (hFound : readSlot fs name = some slot)
    (buf : ByteMem)
    {bufSize : Nat}
    (hSize : bufSize ≤ 65536) :
    ReadSafe fs name buf bufSize ↔
      ∀ c ∈ asked fs slot bufSize, inDataArea c := by
  have hEnsure : ensureReady fs = (true, fs) := by
    simp [ensureReady, hReady]
  unfold readSlot at hFound
  constructor
  · rintro ⟨result, fs', ops, hRead, hDev, hOps⟩
    rw [platFsRead, hEnsure] at hRead
    simp only [hFound] at hRead
    rcases hLoop : fatReadLoop fs.fatCache
        (slotSize fs.rootCache slot) bufSize readFuel
        (slotCluster fs.rootCache slot) 0 buf fs.dev with
      _ | ⟨ok, copied, buf', dev'⟩
    · rw [hLoop] at hRead
      cases hRead
    · have hIssued :=
        fatReadLoop_issued (Nat.zero_le _)
          (by simp [readFuel]) hLoop
      have hSame : fs'.dev = dev' := by
        rw [hLoop] at hRead
        cases ok <;> cases hRead <;> rfl
      rw [hSame, hIssued] at hDev
      rw [← Device.issued_injective hDev] at hOps
      exact (clusterReads_safe_iff _).mp hOps
  · intro hArea
    have hLinks :
        ∀ c ∈ asked fs slot bufSize, linkInCache c := by
      intro c hMember
      have hRange := hArea c hMember
      unfold inDataArea at hRange
      unfold linkInCache
      omega
    have hShort :
        sectorCount
            (min (slotSize fs.rootCache slot) bufSize - 0) <
          readFuel := by
      unfold sectorCount readFuel
      omega
    have hEnds :
        ∃ out,
          fatReadLoop fs.fatCache (slotSize fs.rootCache slot)
            bufSize readFuel (slotCluster fs.rootCache slot) 0
            buf fs.dev = some out :=
      fatReadLoop_ends (Nat.zero_le _) (by simp [readFuel])
        hShort hLinks
    rcases hEnds with ⟨⟨ok, copied, buf', dev'⟩, hLoop⟩
    have hIssued :=
      fatReadLoop_issued (Nat.zero_le _)
        (by simp [readFuel]) hLoop
    have hOps :=
      (clusterReads_safe_iff (asked fs slot bufSize)).mpr hArea
    rw [ReadSafe, platFsRead, hEnsure]
    simp only [hFound, hLoop]
    cases ok with
    | false => exact ⟨_, _, _, rfl, hIssued, hOps⟩
    | true => exact ⟨_, _, _, rfl, hIssued, hOps⟩

/-
  A read of a mounted volume is safe exactly when the name
  has no file or every cluster it asks for, up to the first
  failed read, lies in the data area.
-/
theorem readSafe_iff
    {fs : Fs}
    (hReady : fs.fsReady = true)
    (name : List UInt8)
    (buf : ByteMem)
    {bufSize : Nat}
    (hSize : bufSize ≤ 65536) :
    ReadSafe fs name buf bufSize ↔
      ∀ slot, readSlot fs name = some slot →
        ∀ c ∈ asked fs slot bufSize, inDataArea c := by
  cases hFound : readSlot fs name with
  | none =>
      constructor
      · intro _ slot hSlot
        cases hSlot
      · intro _
        unfold readSlot at hFound
        refine ⟨⟨-1, buf, none⟩, fs, [], ?_, rfl, by simp⟩
        simp only [platFsRead, ensureReady, hReady, if_true,
          hFound]
  | some slot =>
      rw [readSafe_slot_iff hReady hFound buf hSize]
      constructor
      · rintro hArea _ ⟨⟩
        exact hArea
      · intro hArea
        exact hArea slot rfl

/- Both clusters of the pair are in the data area. -/
theorem readSafe_pair :
    ReadSafe (mountImage pairVolume) pairName zeros 550 := by
  refine (readSafe_iff (mountImage_mounted _).ready _ _
    (by omega)).mpr ?_
  intro slot hFound c hMember
  rw [pairVolume_found] at hFound
  cases hFound
  have hVisited := mem_of_mem_readsUntil hMember
  rw [pairVolume_wellFormed.readClusters_eq] at hVisited
  exact pairVolume_wellFormed.range c
    (List.mem_of_mem_take hVisited)

/-
  A one-byte file that starts at a free cluster is read from
  the root directory; one that starts past the cached table
  makes the call look outside it.
-/
theorem not_readSafe_start :
    ¬ ReadSafe
        (mountImage (fileVolume (fatNormalize [0x41]) zeros 0 1))
        [0x41] zeros 512 ∧
      ¬ ReadSafe
        (mountImage
          (fileVolume (fatNormalize [0x41]) zeros 4000 1))
        [0x41] zeros 512 := by
  have hFirst :
      ∀ start < 4088,
        start ∈ asked
          (mountImage
            (fileVolume (fatNormalize [0x41]) zeros start 1))
          0 512 := by
    intro start hStart
    have hGoes : start < 4088 ∧ 0 < 1 := ⟨hStart, by omega⟩
    have hCluster :
        slotCluster
            (mountImage
              (fileVolume (fatNormalize [0x41]) zeros start
                1)).rootCache 0 = start := by
      rw [fileVolume_slotCluster]
      omega
    rw [asked, readClusters, readLimit, fileVolume_slotSize,
      hCluster,
      show min (1 % 2 ^ 32) 512 = 1 - 0 from rfl,
      visited_next hGoes, readsUntil]
    exact List.mem_cons_self
  refine ⟨?_, ?_⟩
  · rw [readSafe_slot_iff (mountImage_mounted _).ready
      (fileVolume_find _ _ _ _ (by decide) (by decide)) _
      (by omega)]
    intro hArea
    have hRange := hArea 0 (hFirst 0 (by omega))
    unfold inDataArea at hRange
    omega
  · rw [readSafe_slot_iff (mountImage_mounted _).ready
      (fileVolume_find _ _ _ _ (by decide) (by decide)) _
      (by omega)]
    intro hArea
    have hRange := hArea 4000 (hFirst 4000 (by omega))
    unfold inDataArea at hRange
    omega

end Storage

end AsmOS
