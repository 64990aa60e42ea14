import AsmOS.Base.Linked
import AsmOS.Storage.Directory
import AsmOS.Storage.SectorWrites

/-
  What the HAL calls do when no sector operation fails.

  Main declarations:
    * `fatNextCluster_eq`
    * `fatWriteLoop_eq`, `fatWriteLoop_reliable`
    * `readInto`, `visited`
    * `fatReadLoop_reliable`
    * `ensureReady_reliable`
    * `platFsRead_reliable`
    * `written`, `platFsWrite_reliable`
    * `platFsDelete_reliable`
-/

------------------------------------------------------------
-- Table Links
------------------------------------------------------------

namespace AsmOS

namespace Storage

open ByteMem

/- Clusters whose link lies inside the cached table. -/
def linkInCache
    (cluster : Nat) : Prop :=
  cluster ≤ 3071

instance
    (cluster : Nat) :
    Decidable (linkInCache cluster) := by
  unfold linkInCache
  infer_instance

/- The C link function reads the packed table entry. -/
theorem fatNextCluster_eq
    (fatCache : ByteMem)
    (cluster : Nat) :
    fatNextCluster fatCache cluster =
      if linkInCache cluster then
        some (Packed12.get fatCache cluster)
      else
        none := by
  have hOffset :
      cluster + (cluster >>> 1) =
        Packed12.offset cluster := by
    rw [Packed12.offset, Nat.shiftRight_eq_div_pow, pow_one]
  simp only [fatNextCluster, hOffset, fatSectors]
  by_cases hIn : linkInCache cluster
  · rw [if_pos hIn, if_pos (by
      unfold linkInCache at hIn
      unfold Packed12.offset
      omega)]
    unfold Packed12.get
    rw [Nat.and_one_is_mod, Nat.shiftRight_eq_div_pow,
      show (0x0FFF : Nat) = 2 ^ 12 - 1 by norm_num,
      Nat.and_two_pow_sub_one_eq_mod]
    by_cases hOdd : cluster % 2 = 1
    · simp [hOdd]
    · have hEven : cluster % 2 = 0 := by omega
      simp [hEven]
  · rw [if_neg hIn, if_neg (by
      unfold linkInCache at hIn
      unfold Packed12.offset
      omega)]

------------------------------------------------------------
-- The Write Loop
------------------------------------------------------------

/- Sectors needed for a number of bytes. -/
def sectorCount
    (size : Nat) : Nat :=
  (size + 511) / 512

/- `n` bytes of `data` from `src` on, then zeros. -/
def padded
    (data : ByteMem)
    (src n : Nat) : ByteMem :=
  fun i => if i < n then data (src + i) else 0

/- The padded data past its first sector. -/
theorem padded_view
    (data : ByteMem)
    (src n k : Nat) :
    (padded data src n).view k =
      padded data (src + k) (n - k) := by
  funext i
  by_cases hi : k + i < n
  · have hShift : i < n - k := by omega
    simp [padded, hi, hShift, Nat.add_assoc]
  · have hShift : ¬ i < n - k := by omega
    simp [padded, hi, hShift]

/- The first sector of the loop, and the sectors of the rest. -/
theorem dataSectors_cons
    (data : ByteMem)
    (src lba remaining rest n : Nat)
    (hn : n = min remaining 512)
    (hRest : 0 < rest → 512 < remaining) :
    sectorsFrom lba (padded data src remaining) (rest + 1) =
      (lba, padded data src remaining) ::
        sectorsFrom (lba + 1)
          (padded data (src + n) (remaining - n)) rest := by
  rw [sectorsFrom_cons]
  congr 1
  cases rest with
  | zero => rfl
  | succ rest =>
      have hLong := hRest (Nat.succ_pos rest)
      have hFull : n = 512 := by omega
      rw [padded_view, hFull]

/-
  The loop writes the padded data to the sectors from that of
  `cluster` on, as far as the cluster count allows.
-/
theorem fatWriteLoop_eq
    (dev : Device)
    (data : ByteMem)
    (src cluster remaining : Nat)
    (hLo : 2 ≤ cluster)
    (hHi : cluster ≤ 4088) :
    fatWriteLoop dev data src cluster remaining =
      writeAll dev
        (sectorsFrom (63 + cluster)
          (padded data src remaining)
          (min (sectorCount remaining) (4088 - cluster))) := by
  generalize hGap : 4088 - cluster = gap
  induction gap generalizing dev src cluster remaining with
  | zero =>
      rw [fatWriteLoop, dif_neg (by
        simp only [fatEnd]
        omega), Nat.min_zero]
      rfl
  | succ gap ih =>
      by_cases hData : 0 < remaining
      · rw [fatWriteLoop, dif_pos (by
          simp only [fatEnd]
          omega)]
        dsimp only
        have hLba : 65 + cluster - 2 = 63 + cluster := by omega
        have hn :
            (if remaining > 512 then 512 else remaining) =
              min remaining 512 := by
          split
          · omega
          · omega
        rw [hLba, hn]
        -- Past the sector the two buffers may differ.
        have hBuf :
            AgreeOn
              (fun j =>
                if j < min remaining 512 then data (src + j)
                else 0)
              (padded data src remaining) 0 512 := by
          intro j _ hj
          unfold padded
          dsimp only
          by_cases hIn : j < remaining
          · rw [if_pos hIn, if_pos (by omega)]
          · rw [if_neg hIn, if_neg (by omega)]
        have hCount :
            min (sectorCount remaining) (gap + 1) =
              min (sectorCount (remaining - min remaining 512))
                gap + 1 := by
          unfold sectorCount
          omega
        rw [fat12WriteSector_congr dev (63 + cluster) hBuf,
          hCount,
          dataSectors_cons data src (63 + cluster) remaining _
            _ rfl (by
              unfold sectorCount
              omega)]
        rcases hFirst : fat12WriteSector dev (63 + cluster)
          (padded data src remaining) with ⟨ok, dev'⟩
        cases ok with
        | false => rw [writeAll_cons_failed hFirst]
        | true =>
            rw [writeAll_cons_ok hFirst]
            exact ih dev' _ (cluster + 1) _ (by omega)
              (by omega) (by omega)
      · rw [fatWriteLoop, dif_neg (by omega)]
        have hZero : sectorCount remaining = 0 := by
          unfold sectorCount
          omega
        rw [hZero, Nat.zero_min]
        rfl

/-
  On a reliable device the loop stores the padded data from
  the sector of `cluster` on, as far as the cluster count
  allows.
-/
theorem fatWriteLoop_reliable
    {dev : Device}
    (hDev : dev.Reliable)
    (data : ByteMem)
    (src cluster remaining : Nat)
    (hLo : 2 ≤ cluster)
    (hHi : cluster ≤ 4088) :
    fatWriteLoop dev data src cluster remaining =
      (true,
        (dev.withImage
          (dev.image.storeBlock (512 * (63 + cluster))
            (512 * min (sectorCount remaining)
              (4088 - cluster))
            (padded data src remaining))).issued
          (writeOps (63 + cluster)
            (min (sectorCount remaining)
              (4088 - cluster)))) := by
  rw [fatWriteLoop_eq dev data src cluster remaining hLo hHi,
    writeAll_reliable hDev, storeAll_sectorsFrom,
    sectorsFrom_ops]

------------------------------------------------------------
-- The Read Loop
------------------------------------------------------------

/- The stopping condition of the chain walk. -/
def chainStop
    (cluster : Nat) : Prop :=
  fatEnd ≤ cluster

instance : DecidablePred chainStop := fun cluster => by
  unfold chainStop
  infer_instance

/- The first `n` clusters of the cached chain from `start`. -/
def visited
    (fatCache : ByteMem)
    (n start : Nat) : List Nat :=
  Linked.path (Packed12.get fatCache) chainStop n start

/- The image byte at offset `j` of a cluster. -/
def imageByte
    (image : ByteMem)
    (cluster j : Nat) : UInt8 :=
  image (512 * (63 + cluster) + j)

/-
  Copy the sectors of the clusters in order to the buffer
  from `copied` on, never past `limit`.
-/
def readInto
    (image : ByteMem)
    (limit : Nat) :
    List Nat → Nat → ByteMem → ByteMem
| [], _, buf => buf
| c :: cs, copied, buf =>
    readInto image limit cs (copied + 512)
      (buf.storeBlock copied (min 512 (limit - copied))
        (image.view (512 * (63 + c))))

/- The sectors of a list of clusters, as read operations. -/
def clusterReads
    (cs : List Nat) : List SectorOp :=
  cs.map fun c => .read (63 + c)

section Iteration

variable {fatCache image buf : ByteMem}
variable {fsize bufSize limit cluster copied : Nat}

/- Past the file or the chain nothing is visited. -/
theorem visited_done
    (hDone : ¬ (cluster < 4088 ∧ copied < limit)) :
    visited fatCache (sectorCount (limit - copied)) cluster =
      [] := by
  by_cases hEnd : cluster < 4088
  · have hZero : sectorCount (limit - copied) = 0 := by
      unfold sectorCount
      omega
    simp [visited, hZero, Linked.path]
  · cases sectorCount (limit - copied) with
    | zero => rfl
    | succ sectors =>
        have hStop : chainStop cluster :=
          Nat.le_of_not_lt hEnd
        simp only [visited, Linked.path, hStop, if_true]

/- One more sector has `cluster` first. -/
theorem visited_next
    (hLoop : cluster < 4088 ∧ copied < limit) :
    visited fatCache (sectorCount (limit - copied)) cluster =
      cluster ::
        visited fatCache
          (sectorCount (limit - min limit (copied + 512)))
          (Packed12.get fatCache cluster) := by
  have hCount :
      sectorCount (limit - copied) =
        sectorCount (limit - min limit (copied + 512)) +
          1 := by
    unfold sectorCount
    omega
  have hGoes : ¬ chainStop cluster := by
    simp only [chainStop, fatEnd]
    omega
  rw [hCount]
  simp only [visited, Linked.path]
  rw [if_neg hGoes]

/- The bytes of a sector that lie in the file. -/
theorem fileSize_eq
    (hRoom : copied + 512 < 2 ^ 32) :
    (if (copied + 512) % 2 ^ 32 > fsize then fsize - copied
      else 512) =
      min 512 (fsize - copied) := by
  rw [Nat.mod_eq_of_lt hRoom]
  split
  · omega
  · omega

/- The bytes of a sector that lie in the file and the buffer. -/
theorem copySize_eq
    (hLimit : min fsize bufSize = limit)
    (hRoom : copied + 512 < 2 ^ 32) :
    (if (copied + min 512 (fsize - copied)) % 2 ^ 32 >
        bufSize then bufSize - copied
      else min 512 (fsize - copied)) =
      min 512 (limit - copied) := by
  rw [Nat.mod_eq_of_lt (by omega)]
  split
  · omega
  · omega

/- The bytes copied after one more sector. -/
theorem nextCopied_eq
    (hCopied : copied ≤ limit)
    (hRoom : copied + 512 < 2 ^ 32) :
    (copied + min 512 (limit - copied)) % 2 ^ 32 =
      min limit (copied + 512) := by
  rw [Nat.mod_eq_of_lt (by omega)]
  omega

/- The bytes that the iterations that are left can copy. -/
theorem fuel_next
    {fuel : Nat}
    (limit : Nat)
    (hFuel : copied + 512 * (fuel + 1) ≤ 2 ^ 32) :
    min limit (copied + 512) + 512 * fuel ≤ 2 ^ 32 := by
  rw [Nat.mul_succ] at hFuel
  omega

/- Past the limit the rest of the list is empty. -/
theorem readInto_min
    (image buf : ByteMem) :
    readInto image limit
        (visited fatCache
          (sectorCount (limit - min limit (copied + 512)))
          cluster)
        (min limit (copied + 512)) buf =
      readInto image limit
        (visited fatCache
          (sectorCount (limit - min limit (copied + 512)))
          cluster)
        (copied + 512) buf := by
  by_cases hFits : copied + 512 ≤ limit
  · rw [min_eq_right hFits]
  · rw [visited_done (by omega)]
    rfl

end Iteration

/-
  On a reliable device the loop copies the sectors of the
  visited clusters, unless a link lies outside the cache or
  the iterations run out.
-/
theorem fatReadLoop_reliable
    {dev : Device}
    (hDev : dev.Reliable)
    (fatCache : ByteMem)
    (fsize bufSize fuel cluster copied : Nat)
    (buf : ByteMem)
    (hCopied : copied ≤ min fsize bufSize)
    (hFuel : copied + 512 * fuel ≤ 2 ^ 32) :
    fatReadLoop fatCache fsize bufSize fuel cluster copied
        buf dev =
      let limit := min fsize bufSize
      let cs := visited fatCache
        (sectorCount (limit - copied)) cluster
      if cs.length < fuel ∧ ∀ c ∈ cs, linkInCache c then
        some (true, min limit (copied + 512 * cs.length),
          readInto dev.image limit cs copied buf,
          dev.issued (clusterReads cs))
      else
        none := by
  generalize hLimit : min fsize bufSize = limit at hCopied ⊢
  induction fuel generalizing cluster copied buf dev with
  | zero => simp [fatReadLoop]
  | succ fuel ih =>
      by_cases hLoop : cluster < 4088 ∧ copied < limit
      · have hSector : 65 + cluster - 2 = 63 + cluster := by
          omega
        rw [fatReadLoop, if_pos (by
          simp only [fatEnd]
          omega)]
        simp only [fatDataStart]
        rw [hSector, fat12ReadSector_reliable hDev,
          fatNextCluster_eq, visited_next hLoop]
        by_cases hLink : linkInCache cluster
        · simp only [if_pos hLink]
          cases fuel with
          | zero => simp [fatReadLoop]
          | succ fuel =>
              have hRoom : copied + 512 < 2 ^ 32 := by omega
              have hFuel' := fuel_next limit hFuel
              simp only [fileSize_eq hRoom,
                copySize_eq hLimit hRoom,
                nextCopied_eq hCopied hRoom]
              rw [ih (hDev.issued _) _ _ _ hFuel' (by omega)]
              dsimp only
              rw [readInto_min]
              generalize visited fatCache
                (sectorCount (limit -
                  min limit (copied + 512)))
                (Packed12.get fatCache cluster) = rest
              have hTotal :
                  min limit (min limit (copied + 512) +
                      512 * rest.length) =
                    min limit (copied +
                      512 * (cluster :: rest).length) := by
                simp only [List.length_cons]
                omega
              simp only [hTotal, List.length_cons,
                List.forall_mem_cons, hLink, true_and,
                Nat.add_lt_add_iff_right, readInto,
                clusterReads, List.map_cons,
                Device.issued_image, Device.issued_issued,
                List.singleton_append]
        · simp [hLink]
      · rw [fatReadLoop, if_neg (by
          simp only [fatEnd]
          omega)]
        have hCount : min limit (copied + 512 * 0) = copied := by
          omega
        simp only [visited_done hLoop, List.length_nil,
          readInto, clusterReads, List.map_nil,
          Device.issued_nil, Nat.succ_pos, List.not_mem_nil,
          false_implies, implies_true, and_self, if_true,
          hCount]

------------------------------------------------------------
-- Bytes Of A Read
------------------------------------------------------------

section ReadBytes

variable {image image' buf : ByteMem}
variable {limit copied : Nat} {cs : List Nat}

theorem readInto_outside
    {x : Nat}
    (hOut : x < copied ∨ limit ≤ x ∨
      copied + 512 * cs.length ≤ x) :
    readInto image limit cs copied buf x = buf x := by
  induction cs generalizing copied buf with
  | nil => rfl
  | cons c cs ih =>
      simp only [List.length_cons] at hOut
      rw [readInto, ih (by omega),
        storeBlock_outside (by omega)]

/- The buffer receives the sectors of the list in order. -/
theorem readInto_inside
    (i j : Nat)
    (hi : i < cs.length)
    (hj : j < 512)
    (hLimit : copied + 512 * i + j < limit) :
    readInto image limit cs copied buf
        (copied + 512 * i + j) =
      imageByte image cs[i] j := by
  induction cs generalizing copied buf i with
  | nil => simp at hi
  | cons c cs ih =>
      cases i with
      | zero =>
          rw [readInto, readInto_outside (by omega),
            storeBlock_inside (by omega) (by omega)]
          simp only [view, imageByte, List.getElem_cons_zero]
          congr 1
          omega
      | succ i =>
          rw [readInto,
            show copied + 512 * (i + 1) + j =
              copied + 512 + 512 * i + j by ring]
          exact ih i (by simpa using hi) (by omega)

/-
  Two images read the same through a list exactly when they
  agree on the bytes that are copied.
-/
theorem readInto_eq_iff :
    readInto image limit cs copied buf =
        readInto image' limit cs copied buf ↔
      ∀ (i : Nat) (hi : i < cs.length) (j : Nat), j < 512 →
        copied + 512 * i + j < limit →
          imageByte image cs[i] j =
            imageByte image' cs[i] j := by
  constructor
  · intro hEq i hi j hj hLimit
    rw [← readInto_inside i j hi hj hLimit, hEq,
      readInto_inside i j hi hj hLimit]
  · intro hBytes
    funext x
    by_cases hIn : copied ≤ x ∧ x < limit ∧
        x < copied + 512 * cs.length
    · have hSplit :
          x = copied + 512 * ((x - copied) / 512) +
            (x - copied) % 512 := by
        omega
      rw [hSplit,
        readInto_inside _ _ (by omega) (by omega) (by omega),
        readInto_inside _ _ (by omega) (by omega) (by omega)]
      exact hBytes _ _ _ (by omega) (by omega)
    · rw [readInto_outside (by omega),
        readInto_outside (by omega)]

end ReadBytes

------------------------------------------------------------
-- Calls On A Reliable Device
------------------------------------------------------------

/- The tables are loaded and no sector operation fails. -/
structure Fs.Mounted
    (fs : Fs) : Prop where
  ready : fs.fsReady = true
  reliable : fs.dev.Reliable

/- The slot a read of `name` uses. -/
def readSlot
    (fs : Fs)
    (name : List UInt8) : Option Nat :=
  fatFindEntry fs.rootCache (fatNormalize name)

/- Bytes a read of a slot may copy. -/
def readLimit
    (fs : Fs)
    (slot bufSize : Nat) : Nat :=
  min (slotSize fs.rootCache slot) bufSize

/- Clusters a read of a slot visits. -/
def readClusters
    (fs : Fs)
    (slot bufSize : Nat) : List Nat :=
  visited fs.fatCache
    (sectorCount (readLimit fs slot bufSize))
    (slotCluster fs.rootCache slot)

/- The read of a slot stays inside the cache and ends. -/
def ReadDefined
    (fs : Fs)
    (slot bufSize : Nat) : Prop :=
  (readClusters fs slot bufSize).length < readFuel ∧
    ∀ c ∈ readClusters fs slot bufSize, linkInCache c

instance
    (fs : Fs)
    (slot bufSize : Nat) :
    Decidable (ReadDefined fs slot bufSize) := by
  unfold ReadDefined
  infer_instance

/- The results of the read of a slot. -/
def readOutcome
    (fs : Fs)
    (slot : Nat)
    (buf : ByteMem)
    (bufSize : Nat) : ReadResult :=
  let cs := readClusters fs slot bufSize
  let limit := readLimit fs slot bufSize
  ⟨0, readInto fs.dev.image limit cs 0 buf,
    some (min limit (512 * cs.length))⟩

section SameCaches

variable {fs fs' : Fs} {slot bufSize : Nat}

/- What a read visits depends on the two caches only. -/
theorem readSlot_congr
    (hRoot : fs'.rootCache = fs.rootCache)
    (name : List UInt8) :
    readSlot fs' name = readSlot fs name := by
  unfold readSlot
  rw [hRoot]

theorem readLimit_congr
    (hRoot : fs'.rootCache = fs.rootCache) :
    readLimit fs' slot bufSize = readLimit fs slot bufSize := by
  unfold readLimit
  rw [hRoot]

theorem readClusters_congr
    (hRoot : fs'.rootCache = fs.rootCache)
    (hFat : fs'.fatCache = fs.fatCache) :
    readClusters fs' slot bufSize =
      readClusters fs slot bufSize := by
  unfold readClusters
  rw [readLimit_congr hRoot, hRoot, hFat]

theorem readDefined_congr
    (hRoot : fs'.rootCache = fs.rootCache)
    (hFat : fs'.fatCache = fs.fatCache) :
    ReadDefined fs' slot bufSize ↔
      ReadDefined fs slot bufSize := by
  unfold ReadDefined
  rw [readClusters_congr hRoot hFat]

/- Outcomes are equal exactly when the copied bytes are. -/
theorem readOutcome_eq_iff
    (hRoot : fs'.rootCache = fs.rootCache)
    (hFat : fs'.fatCache = fs.fatCache)
    (buf : ByteMem) :
    readOutcome fs' slot buf bufSize =
        readOutcome fs slot buf bufSize ↔
      ∀ k c : Nat,
        (readClusters fs slot bufSize)[k]? = some c →
          ∀ j < 512,
            512 * k + j < readLimit fs slot bufSize →
              imageByte fs'.dev.image c j =
                imageByte fs.dev.image c j := by
  simp only [readOutcome, readClusters_congr hRoot hFat,
    readLimit_congr hRoot, ReadResult.mk.injEq, true_and,
    and_true, readInto_eq_iff, Nat.zero_add]
  constructor
  · intro hBytes k c hGet j hj hIn
    rcases List.getElem?_eq_some_iff.mp hGet with ⟨hk, rfl⟩
    exact hBytes k hk j hj hIn
  · intro hBytes k hk j hj hIn
    exact hBytes k _ (List.getElem?_eq_getElem hk) j hj hIn

end SameCaches

/- `plat_fs_init` when no sector operation fails. -/
theorem platFsInit_reliable
    {fs : Fs}
    (hDev : fs.dev.Reliable) :
    platFsInit fs =
      (0,
        { fatCache :=
            fs.fatCache.storeBlock 0 (512 * 9)
              (fs.dev.image.view (512 * 33))
          rootCache :=
            fs.rootCache.storeBlock 0 (512 * 14)
              (fs.dev.image.view (512 * 51))
          fsReady := true
          dev :=
            fs.dev.issued (readOps 33 9 ++ readOps 51 14) }) := by
  simp only [platFsInit, fatLoadTables]
  rw [readSectors_reliable hDev]
  simp only [if_true]
  rw [readSectors_reliable (hDev.issued _)]
  simp only [if_true, Device.issued_image,
    Device.issued_issued]

/- The state after mounting an image that never fails. -/
def mountImage
    (image : ByteMem) : Fs :=
  (platFsInit (Fs.start (Device.ofImage image))).2

theorem mountImage_eq
    (image : ByteMem) :
    mountImage image =
      { fatCache :=
          zeros.storeBlock 0 (512 * 9) (image.view (512 * 33))
        rootCache :=
          zeros.storeBlock 0 (512 * 14)
            (image.view (512 * 51))
        fsReady := true
        dev :=
          (Device.ofImage image).issued
            (readOps 33 9 ++ readOps 51 14) } := by
  rw [mountImage,
    platFsInit_reliable (Device.ofImage_reliable image)]
  rfl

theorem mountImage_mounted
    (image : ByteMem) :
    (mountImage image).Mounted := by
  rw [mountImage_eq]
  exact ⟨rfl, (Device.ofImage_reliable image).issued _⟩

@[simp] theorem mountImage_image
    (image : ByteMem) :
    (mountImage image).dev.image = image := by
  rw [mountImage_eq]
  rfl

theorem mountImage_fatCache
    (image : ByteMem)
    {x : Nat}
    (hx : x < 4608) :
    (mountImage image).fatCache x = image (512 * 33 + x) := by
  rw [mountImage_eq]
  exact storeBlock_inside (Nat.zero_le x) (by omega)

theorem mountImage_rootCache
    (image : ByteMem)
    {x : Nat}
    (hx : x < 7168) :
    (mountImage image).rootCache x =
      image (512 * 51 + x) := by
  rw [mountImage_eq]
  exact storeBlock_inside (Nat.zero_le x) (by omega)

@[simp] theorem mountImage_zeros_fatCache :
    (mountImage zeros).fatCache = zeros := by
  rw [mountImage_eq]
  funext x
  simp [storeBlock]

@[simp] theorem mountImage_zeros_rootCache :
    (mountImage zeros).rootCache = zeros := by
  rw [mountImage_eq]
  funext x
  simp [storeBlock]

theorem ensureReady_mounted
    {fs : Fs}
    (hMounted : fs.Mounted) :
    ensureReady fs = (true, fs) := by
  simp [ensureReady, hMounted.ready]

section EnsureReady

variable {fs : Fs}

/- Without failures every call finds or loads the tables. -/
theorem ensureReady_reliable
    (hDev : fs.dev.Reliable) :
    ensureReady fs = (true, (ensureReady fs).2) := by
  unfold ensureReady
  split
  · rfl
  · rw [platFsInit_reliable hDev]
    rfl

theorem ensureReady_snd_mounted
    (hDev : fs.dev.Reliable) :
    (ensureReady fs).2.Mounted := by
  unfold ensureReady
  by_cases hReady : fs.fsReady = true
  · rw [if_pos hReady]
    exact ⟨hReady, hDev⟩
  · rw [if_neg hReady, platFsInit_reliable hDev]
    exact ⟨rfl, hDev⟩

/- A call works on the state that `ensureReady` leaves. -/
theorem ensureReady_ensureReady
    (hDev : fs.dev.Reliable) :
    ensureReady (ensureReady fs).2 = ensureReady fs := by
  rw [ensureReady_mounted (ensureReady_snd_mounted hDev),
    ← ensureReady_reliable hDev]

theorem platFsList_ensureReady
    (hDev : fs.dev.Reliable)
    (max : Nat) :
    platFsList fs max = platFsList (ensureReady fs).2 max := by
  unfold platFsList
  rw [ensureReady_ensureReady hDev]

theorem platFsRead_ensureReady
    (hDev : fs.dev.Reliable)
    (name : List UInt8)
    (buf : ByteMem)
    (bufSize : Nat) :
    platFsRead fs name buf bufSize =
      platFsRead (ensureReady fs).2 name buf bufSize := by
  unfold platFsRead
  rw [ensureReady_ensureReady hDev]

theorem platFsWrite_ensureReady
    (hDev : fs.dev.Reliable)
    (name : List UInt8)
    (data : ByteMem)
    (size : Nat) :
    platFsWrite fs name data size =
      platFsWrite (ensureReady fs).2 name data size := by
  unfold platFsWrite
  rw [ensureReady_ensureReady hDev]

theorem platFsDelete_ensureReady
    (hDev : fs.dev.Reliable)
    (name : List UInt8) :
    platFsDelete fs name =
      platFsDelete (ensureReady fs).2 name := by
  unfold platFsDelete
  rw [ensureReady_ensureReady hDev]

end EnsureReady

/- `plat_fs_read` when no sector operation fails. -/
theorem platFsRead_reliable
    {fs : Fs}
    (hMounted : fs.Mounted)
    (name : List UInt8)
    (buf : ByteMem)
    (bufSize : Nat) :
    platFsRead fs name buf bufSize =
      match readSlot fs name with
      | none => some (⟨-1, buf, none⟩, fs)
      | some slot =>
          if ReadDefined fs slot bufSize then
            some (readOutcome fs slot buf bufSize,
              { fs with
                dev := fs.dev.issued
                  (clusterReads
                    (readClusters fs slot bufSize)) })
          else
            none := by
  rw [platFsRead, ensureReady_mounted hMounted]
  simp only [readSlot]
  cases fatFindEntry fs.rootCache (fatNormalize name) with
  | none => rfl
  | some slot =>
      simp only
      rw [fatReadLoop_reliable hMounted.reliable _ _ _ _ _ _ _
        (Nat.zero_le _) (by simp [readFuel])]
      simp only [Nat.sub_zero, Nat.zero_add]
      by_cases hDefined : ReadDefined fs slot bufSize
      · rw [if_pos hDefined]
        unfold ReadDefined readClusters readLimit at hDefined
        rw [if_pos hDefined]
        rfl
      · rw [if_neg hDefined]
        unfold ReadDefined readClusters readLimit at hDefined
        rw [if_neg hDefined]

/- Data sectors a write of `size` bytes lays out. -/
def writtenSectors
    (size : Nat) : Nat :=
  min (sectorCount size) 4086

/- The loop of a whole write starts at cluster 2. -/
theorem fatWriteLoop_start
    {dev : Device}
    (hDev : dev.Reliable)
    (data : ByteMem)
    (size : Nat) :
    fatWriteLoop dev data 0 2 size =
      (true,
        (dev.withImage
          (dev.image.storeBlock (512 * 65)
            (512 * writtenSectors size)
            (padded data 0 size))).issued
          (writeOps 65 (writtenSectors size))) :=
  fatWriteLoop_reliable hDev data 0 2 size (Nat.le_refl 2)
    (by omega)

/- The disk after the data and the directory are written. -/
def writtenImage
    (image root data : ByteMem)
    (size : Nat) : ByteMem :=
  (image.storeBlock (512 * 65) (512 * writtenSectors size)
    (padded data 0 size)).storeBlock (512 * 51) (512 * 14)
      root

/- The state after a successful write. -/
def written
    (fs : Fs)
    (root data : ByteMem)
    (size : Nat) : Fs :=
  { fs with
    rootCache := root
    dev :=
      (fs.dev.withImage
        (writtenImage fs.dev.image root data size)).issued
        (writeOps 65 (writtenSectors size) ++
          writeOps 51 14) }

theorem written_mounted
    {fs : Fs}
    (hMounted : fs.Mounted)
    (root data : ByteMem)
    (size : Nat) :
    (written fs root data size).Mounted :=
  ⟨hMounted.ready, hMounted.reliable⟩

/- `plat_fs_write` when no sector operation fails. -/
theorem platFsWrite_reliable
    {fs : Fs}
    (hMounted : fs.Mounted)
    (name : List UInt8)
    (data : ByteMem)
    (size : Nat) :
    platFsWrite fs name data size =
      match writeSlot fs.rootCache (fatNormalize name) with
      | none => (-1, fs)
      | some (slot, root) =>
          (0, written fs (sizeSlot root slot size) data
            size) := by
  rw [platFsWrite, ensureReady_mounted hMounted]
  simp only
  cases writeSlot fs.rootCache (fatNormalize name) with
  | none => rfl
  | some target =>
      rcases target with ⟨slot, root⟩
      simp only
      rw [fatWriteLoop_start hMounted.reliable]
      simp only [fatFlushRoot]
      rw [writeSectors_reliable
        ((hMounted.reliable.withImage _).issued _)]
      simp only [Device.issued_image, Device.withImage_image,
        Device.issued_withImage, Device.withImage_withImage,
        Device.issued_issued, if_true]
      rfl

/- `plat_fs_delete` when no sector operation fails. -/
theorem platFsDelete_reliable
    {fs : Fs}
    (hMounted : fs.Mounted)
    (name : List UInt8) :
    platFsDelete fs name =
      match readSlot fs name with
      | none => (-1, fs)
      | some slot =>
          let root :=
            fs.rootCache.storeByte (32 * slot) 0xE5
          (0, { fs with
            rootCache := root
            dev :=
              (fs.dev.withImage
                (fs.dev.image.storeBlock (512 * 51)
                  (512 * 14) root)).issued
                (writeOps 51 14) }) := by
  rw [platFsDelete, ensureReady_mounted hMounted]
  simp only [readSlot]
  cases fatFindEntry fs.rootCache (fatNormalize name) with
  | none => rfl
  | some slot =>
      simp only [fatFlushRoot]
      rw [writeSectors_reliable hMounted.reliable]
      rfl

------------------------------------------------------------
-- The Disk After A Write
------------------------------------------------------------

/-
  What a cluster holds once `data` and the directory `root`
  are on the disk: clusters 0 and 1 alias the last two root
  sectors, the data lies from cluster 2 on.
-/
def writtenByte
    (image root data : ByteMem)
    (size cluster j : Nat) : UInt8 :=
  if cluster < 2 then
    root (512 * (12 + cluster) + j)
  else if cluster < writtenSectors size + 2 then
    padded data 0 size (512 * (cluster - 2) + j)
  else
    imageByte image cluster j

theorem imageByte_writtenImage
    (image root data : ByteMem)
    (size cluster j : Nat)
    (hj : j < 512) :
    imageByte (writtenImage image root data size) cluster
        j =
      writtenByte image root data size cluster j := by
  unfold imageByte writtenImage writtenByte
  by_cases hRoot : cluster < 2
  · rw [if_pos hRoot,
      storeBlock_inside (by omega) (by omega),
      show 512 * (63 + cluster) + j - 512 * 51 =
        512 * (12 + cluster) + j by omega]
  · rw [if_neg hRoot, storeBlock_outside (by omega)]
    by_cases hData : cluster < writtenSectors size + 2
    · rw [if_pos hData,
        storeBlock_inside (by omega) (by omega),
        show 512 * (63 + cluster) + j - 512 * 65 =
          512 * (cluster - 2) + j by omega]
    · rw [if_neg hData, storeBlock_outside (by omega)]
      rfl

end Storage

end AsmOS
