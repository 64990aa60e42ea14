import AsmOS.Storage.HalSpec

/-
  Reading a file back after it was written.

  `plat_fs_write` lays the data out from cluster 2 on, while
  `plat_fs_read` follows the cached table from cluster 2.
  The two agree exactly when the visited clusters hold the
  data, which for every data buffer means that the cached
  chain from cluster 2 is consecutive.

  Main declarations:
    * `RoundTrips`
    * `HoldsFile`
    * `roundTrips_slot_iff`
    * `forall_roundTrips_slot_iff`
    * `roundTrips_iff`
-/

------------------------------------------------------------
-- Statements
------------------------------------------------------------

namespace AsmOS

namespace Storage

open ByteMem

/- The largest file that fits in the data area. -/
def dataAreaBytes : Nat := 2815 * 512

/-
  If the write succeeds, a read of the same name returns 0,
  reports `size` and fills the buffer with the data.
-/
def RoundTrips
    (fs : Fs)
    (name : List UInt8)
    (data : ByteMem)
    (size : Nat)
    (buf : ByteMem)
    (bufSize : Nat) : Prop :=
  (platFsWrite fs name data size).1 = 0 →
    ∃ result fs',
      platFsRead (platFsWrite fs name data size).2 name buf
          bufSize = some (result, fs') ∧
        result.rc = 0 ∧
        result.outSize = some size ∧
        result.buf.slice 0 size = data.slice 0 size

/-
  The cached chain from cluster 2 has a cluster for each
  sector of the file, every link lies inside the cache, and
  the clusters hold the data, given the directory `root` and
  the consecutive layout of the writer.
-/
structure HoldsFile
    (fs : Fs)
    (root data : ByteMem)
    (size : Nat) : Prop where
  length :
    (visited fs.fatCache (sectorCount size) 2).length =
      sectorCount size
  inCache :
    ∀ c ∈ visited fs.fatCache (sectorCount size) 2,
      linkInCache c
  bytes :
    ∀ (i : Nat) (c : Nat),
      (visited fs.fatCache (sectorCount size) 2)[i]? =
          some c →
        ∀ j < 512, 512 * i + j < size →
          writtenByte fs.dev.image root data size c j =
            data (512 * i + j)

------------------------------------------------------------
-- The Read After The Write
------------------------------------------------------------

section AfterWrite

variable {fs : Fs} {root data : ByteMem}
variable {slot size bufSize : Nat}

theorem readLimit_written
    (hSize : size ≤ dataAreaBytes)
    (hBuf : size ≤ bufSize) :
    readLimit (written fs (sizeSlot root slot size) data size)
        slot bufSize =
      size := by
  unfold dataAreaBytes at hSize
  simp only [readLimit, written, slotSize_sizeSlot]
  rw [Nat.mod_eq_of_lt (by omega)]
  omega

theorem readClusters_written
    (hSize : size ≤ dataAreaBytes)
    (hBuf : size ≤ bufSize) :
    readClusters
        (written fs (sizeSlot root slot size) data size)
        slot bufSize =
      visited fs.fatCache (sectorCount size) 2 := by
  rw [readClusters, readLimit_written hSize hBuf]
  simp [written]

theorem visited_length_le
    (fatCache : ByteMem)
    (n start : Nat) :
    (visited fatCache n start).length ≤ n :=
  Linked.path_length_le n start

theorem readDefined_written_iff
    (hSize : size ≤ dataAreaBytes)
    (hBuf : size ≤ bufSize) :
    ReadDefined
        (written fs (sizeSlot root slot size) data size)
        slot bufSize ↔
      ∀ c ∈ visited fs.fatCache (sectorCount size) 2,
        linkInCache c := by
  rw [ReadDefined, readClusters_written hSize hBuf]
  have hLength :=
    visited_length_le fs.fatCache (sectorCount size) 2
  have hFuel :
      (visited fs.fatCache (sectorCount size) 2).length <
        readFuel := by
    unfold sectorCount dataAreaBytes at *
    simp only [readFuel]
    omega
  simp [hFuel]

/- The read outcome is the data exactly on `HoldsFile`. -/
theorem readOutcome_written_iff
    (hSize : size ≤ dataAreaBytes)
    (hBuf : size ≤ bufSize)
    (buf : ByteMem)
    (hLinks :
      ∀ c ∈ visited fs.fatCache (sectorCount size) 2,
        linkInCache c) :
    (readOutcome
          (written fs (sizeSlot root slot size) data size)
          slot buf bufSize).outSize = some size ∧
        (readOutcome
          (written fs (sizeSlot root slot size) data size)
          slot buf bufSize).buf.slice 0 size =
          data.slice 0 size ↔
      HoldsFile fs (sizeSlot root slot size) data size := by
  simp only [readOutcome, readClusters_written hSize hBuf,
    readLimit_written hSize hBuf, Option.some.injEq,
    slice_eq_iff, Nat.zero_add]
  have hBound :=
    visited_length_le fs.fatCache (sectorCount size) 2
  generalize hVisited :
    visited fs.fatCache (sectorCount size) 2 = cs
    at hBound hLinks ⊢
  -- Byte `512 * i + j` of the buffer comes from cluster `i`.
  have hByte :
      ∀ (i j : Nat) (hi : i < cs.length), j < 512 →
        512 * i + j < size →
          readInto
              (written fs (sizeSlot root slot size) data
                size).dev.image size cs 0 buf
              (512 * i + j) =
            writtenByte fs.dev.image (sizeSlot root slot size)
              data size cs[i] j := by
    intro i j hi hj hLimit
    rw [← Nat.zero_add (512 * i + j), ← Nat.add_assoc,
      readInto_inside i j hi hj (by omega)]
    exact imageByte_writtenImage _ _ _ _ _ _ hj
  constructor
  · rintro ⟨hTotal, hBytes⟩
    refine ⟨?_, ?_, ?_⟩
    · rw [hVisited]
      unfold sectorCount at *
      omega
    · rwa [hVisited]
    · intro i c hGet j hj hLimit
      rw [hVisited] at hGet
      rcases List.getElem?_eq_some_iff.mp hGet with
        ⟨hi, rfl⟩
      rw [← hByte i j hi hj hLimit]
      exact hBytes _ hLimit
  · intro hHolds
    have hLength := hHolds.length
    have hData := hHolds.bytes
    rw [hVisited] at hLength hData
    constructor
    · rw [hLength]
      unfold sectorCount
      omega
    · intro x hx
      have hi : x / 512 < cs.length := by
        rw [hLength]
        unfold sectorCount
        omega
      have hSplit : x = 512 * (x / 512) + x % 512 := by
        omega
      rw [hSplit, hByte _ _ hi (by omega) (by omega)]
      exact hData _ _ (List.getElem?_eq_getElem hi) _
        (by omega) (by omega)

end AfterWrite

------------------------------------------------------------
-- The Exact Condition
------------------------------------------------------------

/- A written name is looked up in the slot of the write. -/
theorem readSlot_written
    {fs : Fs}
    {name : List UInt8}
    {slot : Nat}
    {root : ByteMem}
    (hWrite :
      writeSlot fs.rootCache (fatNormalize name) =
        some (slot, root))
    (data : ByteMem)
    (size : Nat) :
    readSlot (written fs (sizeSlot root slot size) data size)
        name = some slot :=
  findEntry_written name hWrite

/-
  With a slot for the name, a write can be read back exactly
  when the cached chain from cluster 2 leads to the data.
-/
theorem roundTrips_slot_iff
    {fs : Fs}
    (hMounted : fs.Mounted)
    {name : List UInt8}
    (data : ByteMem)
    {size : Nat}
    (hSize : size ≤ dataAreaBytes)
    (buf : ByteMem)
    {bufSize : Nat}
    (hBuf : size ≤ bufSize)
    {slot : Nat}
    {root : ByteMem}
    (hWrite :
      writeSlot fs.rootCache (fatNormalize name) =
        some (slot, root)) :
    RoundTrips fs name data size buf bufSize ↔
      HoldsFile fs (sizeSlot root slot size) data size := by
  unfold RoundTrips
  rw [platFsWrite_reliable hMounted, hWrite]
  simp only [forall_const]
  rw [platFsRead_reliable (written_mounted hMounted _ _ _),
    readSlot_written hWrite]
  dsimp only
  by_cases hLinks :
      ∀ c ∈ visited fs.fatCache (sectorCount size) 2,
        linkInCache c
  · rw [if_pos
      ((readDefined_written_iff hSize hBuf).mpr hLinks),
      ← readOutcome_written_iff hSize hBuf buf hLinks]
    simp [readOutcome]
  · rw [if_neg fun hDefined => hLinks
      ((readDefined_written_iff hSize hBuf).mp hDefined)]
    constructor
    · rintro ⟨_, _, hRead, _⟩
      simp at hRead
    · intro hHolds
      exact absurd hHolds.inCache hLinks

------------------------------------------------------------
-- Every Data Buffer
------------------------------------------------------------

/-
  All files of a size can be read back exactly when the
  cached chain from cluster 2 is consecutive that far.
-/
theorem forall_roundTrips_slot_iff
    {fs : Fs}
    (hMounted : fs.Mounted)
    {name : List UInt8}
    {size : Nat}
    (hSize : size ≤ dataAreaBytes)
    (buf : ByteMem)
    {bufSize : Nat}
    (hBuf : size ≤ bufSize)
    {slot : Nat}
    {root : ByteMem}
    (hWrite :
      writeSlot fs.rootCache (fatNormalize name) =
        some (slot, root)) :
    (∀ data, RoundTrips fs name data size buf bufSize) ↔
      visited fs.fatCache (sectorCount size) 2 =
        List.range' 2 (sectorCount size) := by
  simp only [roundTrips_slot_iff hMounted _ hSize buf hBuf
    hWrite]
  have hSectors :
      writtenSectors size = sectorCount size := by
    unfold writtenSectors sectorCount dataAreaBytes at *
    omega
  constructor
  · intro hHolds
    apply List.ext_getElem
    · simpa using (hHolds zeros).length
    · intro i hi _
      rw [List.getElem_range', one_mul]
      by_contra hNe
      -- Each buffer would need its own byte at this cluster.
      have hFirst :
          ∀ data : ByteMem,
            writtenByte fs.dev.image
                (sizeSlot root slot size) data size
                (visited fs.fatCache (sectorCount size) 2)[i]
                0 =
              data (512 * i) := by
        intro data
        have hLength := (hHolds data).length
        exact (hHolds data).bytes i _
          (List.getElem?_eq_getElem hi) 0 (by omega) (by
            rw [hLength] at hi
            unfold sectorCount at hi
            omega)
      generalize (visited fs.fatCache (sectorCount size) 2)[i]
        = c at hFirst hNe
      have hZero := hFirst fun _ => 0
      have hOne := hFirst fun _ => 1
      have hSpike := hFirst fun x => if x = 512 * i then 1
        else 0
      unfold writtenByte at hZero hOne hSpike
      by_cases hRoot : c < 2
      · rw [if_pos hRoot] at hZero hOne
        rw [hZero] at hOne
        simp at hOne
      · by_cases hData : c < writtenSectors size + 2
        · rw [if_neg hRoot, if_pos hData] at hSpike
          have hOther : ¬ 512 * (c - 2) = 512 * i := by
            omega
          simp [padded, hOther] at hSpike
        · rw [if_neg hRoot, if_neg hData] at hZero hOne
          rw [hZero] at hOne
          simp at hOne
  · intro hRange data
    refine ⟨by rw [hRange, List.length_range'], ?_, ?_⟩
    · intro c hMember
      rw [hRange, List.mem_range'_1] at hMember
      unfold linkInCache sectorCount dataAreaBytes at *
      omega
    · intro i c hGet j hj hLimit
      rw [hRange] at hGet
      rcases List.getElem?_eq_some_iff.mp hGet with
        ⟨hi, hValue⟩
      rw [List.getElem_range', one_mul] at hValue
      rw [List.length_range'] at hi
      subst hValue
      rw [writtenByte, if_neg (by omega), if_pos (by omega),
        Nat.add_sub_cancel_left, padded, if_pos hLimit,
        Nat.zero_add]

------------------------------------------------------------
-- The Exact Condition
------------------------------------------------------------

/-
  A write of `data` can be read back exactly when there is no
  slot for the name, or the cached chain from cluster 2 leads
  to the data; and every data buffer of a size can be read
  back exactly when that chain is consecutive.
-/
theorem roundTrips_iff
    {fs : Fs}
    (hMounted : fs.Mounted)
    (name : List UInt8)
    {size : Nat}
    (hSize : size ≤ dataAreaBytes)
    (buf : ByteMem)
    {bufSize : Nat}
    (hBuf : size ≤ bufSize) :
    (∀ data,
      RoundTrips fs name data size buf bufSize ↔
        ∀ slot root,
          writeSlot fs.rootCache (fatNormalize name) =
              some (slot, root) →
            HoldsFile fs (sizeSlot root slot size) data
              size) ∧
    ((∀ data, RoundTrips fs name data size buf bufSize) ↔
      ∀ slot root,
        writeSlot fs.rootCache (fatNormalize name) =
            some (slot, root) →
          visited fs.fatCache (sectorCount size) 2 =
            List.range' 2 (sectorCount size)) := by
  cases hWrite :
    writeSlot fs.rootCache (fatNormalize name) with
  | none =>
      have hTrips :
          ∀ data,
            RoundTrips fs name data size buf bufSize := by
        intro data
        unfold RoundTrips
        rw [platFsWrite_reliable hMounted, hWrite]
        simp
      simp [hTrips]
  | some target =>
      rcases target with ⟨slot, root⟩
      constructor
      · intro data
        rw [roundTrips_slot_iff hMounted data hSize buf hBuf
          hWrite]
        constructor
        · rintro hHolds _ _ hEq
          cases hEq
          exact hHolds
        · intro hHolds
          exact hHolds slot root rfl
      · rw [forall_roundTrips_slot_iff hMounted hSize buf hBuf
          hWrite]
        constructor
        · rintro hRange _ _ _
          exact hRange
        · intro hRange
          exact hRange slot root rfl

/- A one-sector file on the blank image is read back. -/
theorem roundTrips_blank_one_sector :
    RoundTrips (mountImage zeros) [0x41] (fun _ => 1) 512
      zeros 512 := by
  refine ((roundTrips_iff (mountImage_mounted zeros) [0x41]
    (by norm_num [dataAreaBytes]) zeros
    (Nat.le_refl 512)).1 (fun _ => 1)).mpr ?_
  intro slot root _
  have hVisited :
      visited (mountImage zeros).fatCache (sectorCount 512)
        2 = [2] := by
    rw [mountImage_zeros_fatCache]
    decide
  refine ⟨?_, ?_, ?_⟩
  · rw [hVisited]
    rfl
  · rw [hVisited]
    decide
  · intro i c hGet j hj hLimit
    rw [hVisited] at hGet
    have hi : i = 0 := by omega
    subst hi
    cases hGet
    have hShort : j < 512 := hj
    simp [writtenByte, writtenSectors, sectorCount, padded,
      hShort]

/-
  On the blank image the second sector of a file is read
  from the root directory: the link of cluster 2 is 0.
-/
theorem not_roundTrips_blank_two_sectors :
    ¬ RoundTrips (mountImage zeros) [0x41] (fun _ => 1) 1024
      zeros 1024 := by
  have hWrite :
      writeSlot (mountImage zeros).rootCache
          (fatNormalize [0x41]) =
        some (0, nameSlot zeros 0 (fatNormalize [0x41])) := by
    rw [mountImage_zeros_rootCache]
    exact writeSlot_zeros _
  rw [roundTrips_slot_iff (mountImage_mounted zeros) _
    (by norm_num [dataAreaBytes]) _ (Nat.le_refl 1024) hWrite]
  intro hHolds
  have hVisited :
      visited (mountImage zeros).fatCache (sectorCount 1024)
        2 = [2, 0] := by
    rw [mountImage_zeros_fatCache]
    decide
  have hByte :=
    hHolds.bytes 1 0 (by rw [hVisited]; rfl) 0 (by omega)
      (by omega)
  rw [writtenByte, if_pos (by omega),
    sizeSlot_outside _ _ _ (by omega),
    nameSlot_outside _ _ (by omega)] at hByte
  simp at hByte

end Storage

end AsmOS
