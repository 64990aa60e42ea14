import AsmOS.Base.Linked
import AsmOS.Storage.FatPutSpec
import AsmOS.Storage.ChainRead

/-
  Allocation by `fat_put.py` among existing files.

  The search for a free cluster returns the head of the list
  of free clusters, and an allocation takes the first ones
  of that list as a chain.  Likewise each file takes the
  first open slot of the directory.

  Main declarations:
    * `freeClusters`, `allocateClusters_free`
    * `openSlots`, `openSlots_storeEntry`
    * `chainBytes_writeClusters`
    * `SourceFile`
    * `putFile_free`, `putFile_full`
    * `PutsRun`, `putFiles_free`, `putFiles_full`
-/

------------------------------------------------------------
-- Free Clusters
------------------------------------------------------------

namespace AsmOS

namespace FatPut

open ByteMem Bytearray Storage

/- The free entries of a table from cluster `c` on. -/
def freeClusters
    (fat : List UInt8)
    (c : Nat) : List Nat :=
  (List.range' c (3072 - c)).filter
    fun d => Packed12.get (ofList fat) d = 0

section Clusters

variable {fat fat' : List UInt8}
variable {c d : Nat}

theorem mem_freeClusters :
    d ∈ freeClusters fat c ↔
      c ≤ d ∧ d ≤ 3071 ∧
        Packed12.get (ofList fat) d = 0 := by
  unfold freeClusters
  rw [List.mem_filter, List.mem_range'_1, decide_eq_true_eq]
  omega

theorem freeClusters_nodup :
    (freeClusters fat c).Nodup :=
  List.Nodup.filter _ List.nodup_range'

theorem freeClusters_of_le
    (hc : 3072 ≤ c) :
    freeClusters fat c = [] := by
  simp [freeClusters, Nat.sub_eq_zero_of_le hc]

theorem freeClusters_of_lt
    (hc : c < 3072) :
    freeClusters fat c =
      if Packed12.get (ofList fat) c = 0 then
        c :: freeClusters fat (c + 1)
      else freeClusters fat (c + 1) := by
  have hCount : 3072 - c = 3072 - (c + 1) + 1 := by omega
  unfold freeClusters
  rw [hCount, List.range'_succ, List.filter_cons]
  simp only [decide_eq_true_eq]

theorem freeClusters_congr
    (hAgree :
      ∀ d, c ≤ d →
        Packed12.get (ofList fat') d =
          Packed12.get (ofList fat) d) :
    freeClusters fat' c = freeClusters fat c := by
  refine List.filter_congr fun d hMember => ?_
  rw [List.mem_range'_1] at hMember
  rw [hAgree d hMember.1]

/- The entries that a table of nine sectors has. -/
theorem offset_lt_iff :
    Packed12.offset c + 1 < tableBytes ↔ c < 3072 := by
  unfold Packed12.offset tableBytes
  omega

/- The search behind the table ends in an exception. -/
theorem findFreeCluster_beyond
    (hLength : fat.length = tableBytes)
    (hc : 3072 ≤ c) :
    ∃ e, findFreeCluster fat c = .error e := by
  rw [findFreeCluster]
  by_cases hBound : c < 4096
  · have hPast : fat.length ≤ Packed12.offset c + 1 := by
      have hEntry : ¬ Packed12.offset c + 1 < tableBytes :=
        offset_lt_iff.not.mpr (by omega)
      omega
    have hRead : ∃ e, getFatEntry fat c = .error e := by
      unfold getFatEntry
      rw [off_eq]
      simp only
      rw [item_of_length_le hPast]
      rcases item fat (Packed12.offset c) with e | lo
      · exact ⟨e, rfl⟩
      · exact ⟨_, rfl⟩
    rcases hRead with ⟨e, hRead⟩
    rw [dif_pos hBound, hRead]
    exact ⟨e, rfl⟩
  · rw [dif_neg hBound]
    exact ⟨_, rfl⟩

theorem findFreeCluster_step
    (hLength : fat.length = tableBytes)
    (hc : c < 3072) :
    findFreeCluster fat c =
      if Packed12.get (ofList fat) c = 0 then .ok c
      else findFreeCluster fat (c + 1) := by
  have hEntry : Packed12.offset c + 1 < fat.length := by
    rw [hLength]
    exact offset_lt_iff.mpr hc
  rw [findFreeCluster, dif_pos (by omega),
    getFatEntry_eq hEntry]

/- The search returns the first free cluster. -/
theorem findFreeCluster_cons
    {first : Nat}
    {rest : List Nat}
    (hLength : fat.length = tableBytes)
    (hFree : freeClusters fat c = first :: rest) :
    findFreeCluster fat c = .ok first ∧
      freeClusters fat (first + 1) = rest := by
  induction hSteps : 3072 - c generalizing c with
  | zero =>
      rw [freeClusters_of_le (by omega)] at hFree
      cases hFree
  | succ n ih =>
      have hc : c < 3072 := by omega
      rw [freeClusters_of_lt hc] at hFree
      rw [findFreeCluster_step hLength hc]
      by_cases hEntry : Packed12.get (ofList fat) c = 0
      · rw [if_pos hEntry] at hFree ⊢
        cases hFree
        exact ⟨rfl, rfl⟩
      · rw [if_neg hEntry] at hFree ⊢
        exact ih hFree (by omega)

theorem findFreeCluster_nil
    (hLength : fat.length = tableBytes)
    (hFree : freeClusters fat c = []) :
    ∃ e, findFreeCluster fat c = .error e := by
  induction hSteps : 3072 - c generalizing c with
  | zero => exact findFreeCluster_beyond hLength (by omega)
  | succ n ih =>
      have hc : c < 3072 := by omega
      rw [freeClusters_of_lt hc] at hFree
      rw [findFreeCluster_step hLength hc]
      by_cases hEntry : Packed12.get (ofList fat) c = 0
      · rw [if_pos hEntry] at hFree
        cases hFree
      · rw [if_neg hEntry] at hFree ⊢
        exact ih hFree (by omega)

end Clusters

------------------------------------------------------------
-- Allocated Chains
------------------------------------------------------------

/-
  The table `fat'` links the clusters `cs` of `fat` one to
  the next, and `next` follows the last of them.
-/
structure LinksClusters
    (fat fat' : List UInt8)
    (cs : List Nat)
    (next : Nat) : Prop where
  length : fat'.length = tableBytes
  links :
    cs.IsChain fun a b => Packed12.get (ofList fat') a = b
  frame :
    ∀ d, d ∉ cs →
      Packed12.get (ofList fat') d =
        Packed12.get (ofList fat) d
  next_eq : ∀ last, cs.getLast? = some last → next = last + 1

section Chains

variable {fat : List UInt8}
variable {c : Nat}

/- Setting an entry of the table to a cluster number. -/
theorem setFatEntry_get
    {p v : Nat}
    (hLength : fat.length = tableBytes)
    (hTable : p < 3072)
    (hValue : v < 4096) :
    ∃ fat', setFatEntry fat p v = .ok fat' ∧
      fat'.length = tableBytes ∧
      Packed12.get (ofList fat') p = v ∧
      ∀ d, d ≠ p →
        Packed12.get (ofList fat') d =
          Packed12.get (ofList fat) d := by
  have hBound : Packed12.offset p + 1 < fat.length := by
    rw [hLength]
    exact offset_lt_iff.mpr hTable
  rcases setFatEntry_spec hBound v with
    ⟨fat', hSet, hLength', hBytes⟩
  refine ⟨fat', hSet, hLength'.trans hLength, ?_, ?_⟩
  · rw [hBytes, Packed12.get_set, Nat.mod_eq_of_lt hValue]
  · intro d hNe
    rw [hBytes, Packed12.get_set_of_ne _ _ hNe]

/-
  After its first cluster `prev` the loop takes the first
  free ones and links each from the one before it.
-/
theorem allocateLoop_free
    (count prev : Nat)
    (clusters fs : List Nat)
    (hLength : fat.length = tableBytes)
    (hTable : prev < 3072)
    (hFree : freeClusters fat (prev + 1) = fs)
    (hCount : count ≤ fs.length) :
    ∃ fat' next,
      allocateLoop count fat clusters (some prev) (prev + 1) =
          .ok (fat', clusters ++ fs.take count, next) ∧
        LinksClusters fat fat' (prev :: fs.take count) next ∧
        freeClusters fat' next = fs.drop count := by
  induction count generalizing fat prev clusters fs with
  | zero =>
      refine ⟨fat, prev + 1, by simp [allocateLoop],
        ⟨hLength, ?_, fun _ _ => rfl, ?_⟩, ?_⟩
      · exact List.IsChain.singleton prev
      · intro last hLast
        cases hLast
        rfl
      · simpa using hFree
  | succ count ih =>
      cases fs with
      | nil => simp at hCount
      | cons first rest =>
          have hFirst :
              prev + 1 ≤ first ∧ first ≤ 3071 ∧
                Packed12.get (ofList fat) first = 0 := by
            apply mem_freeClusters.mp
            rw [hFree]
            exact List.mem_cons_self
          rcases findFreeCluster_cons hLength hFree with
            ⟨hFound, hRest⟩
          rcases setFatEntry_get hLength hTable
              (show first < 4096 by omega) with
            ⟨fat₁, hSet, hLength₁, hOwn₁, hFrame₁⟩
          have hRest₁ :
              freeClusters fat₁ (first + 1) = rest := by
            rw [← hRest]
            exact freeClusters_congr fun d hd =>
              hFrame₁ d (by omega)
          rcases ih first (clusters ++ [first]) rest hLength₁
              (by omega) hRest₁ (by simpa using hCount) with
            ⟨fat', next, hLoop, hLinks, hFree'⟩
          -- The predecessor lies before every later cluster.
          have hOut : prev ∉ first :: rest.take count := by
            intro hMember
            rcases List.mem_cons.mp hMember with hEq | hTail
            · omega
            · have hLater := List.mem_of_mem_take hTail
              rw [← hRest₁, mem_freeClusters] at hLater
              omega
          refine ⟨fat', next, ?_, ⟨hLinks.length, ?_, ?_, ?_⟩,
            ?_⟩
          · rw [allocateLoop, hFound]
            simp only [bind, Except.bind]
            rw [hSet]
            simp only
            rw [hLoop, List.take_succ_cons, List.append_assoc,
              List.singleton_append]
          · rw [List.take_succ_cons]
            refine List.isChain_cons_cons.mpr
              ⟨?_, hLinks.links⟩
            rw [hLinks.frame prev hOut, hOwn₁]
          · intro d hd
            rw [List.take_succ_cons] at hd
            rw [hLinks.frame d
                (List.not_mem_of_not_mem_cons hd),
              hFrame₁ d (List.ne_of_not_mem_cons hd)]
          · intro last hLast
            rw [List.take_succ_cons, List.getLast?_cons_cons]
              at hLast
            exact hLinks.next_eq last hLast
          · rw [hFree', List.drop_succ_cons]

/- Without enough free clusters the loop raises. -/
theorem allocateLoop_full
    (count : Nat)
    (prev : Option Nat)
    (clusters fs : List Nat)
    (hLength : fat.length = tableBytes)
    (hPrev : ∀ p, prev = some p → p < 3072 ∧ p < c)
    (hFree : freeClusters fat c = fs)
    (hCount : fs.length < count) :
    ∃ e, allocateLoop count fat clusters prev c = .error e := by
  induction count generalizing fat prev clusters fs c with
  | zero => simp at hCount
  | succ count ih =>
      rw [allocateLoop]
      cases fs with
      | nil =>
          rcases findFreeCluster_nil hLength hFree with
            ⟨e, hError⟩
          rw [hError]
          exact ⟨e, rfl⟩
      | cons first rest =>
          have hFirst :
              c ≤ first ∧ first ≤ 3071 ∧
                Packed12.get (ofList fat) first = 0 := by
            apply mem_freeClusters.mp
            rw [hFree]
            exact List.mem_cons_self
          rcases findFreeCluster_cons hLength hFree with
            ⟨hFound, hRest⟩
          have hLater :
              ∀ p, some first = some p →
                p < 3072 ∧ p < first + 1 := by
            intro p hEq
            cases hEq
            omega
          have hCount' : rest.length < count := by
            simpa using hCount
          rw [hFound]
          cases prev with
          | none =>
              exact ih (some first) (clusters ++ [first]) rest
                hLength hLater hRest hCount'
          | some p =>
              rcases hPrev p rfl with ⟨hTable, hBefore⟩
              rcases setFatEntry_get hLength hTable
                  (show first < 4096 by omega) with
                ⟨fat₁, hSet, hLength₁, _, hFrame₁⟩
              have hRest₁ :
                  freeClusters fat₁ (first + 1) = rest := by
                rw [← hRest]
                exact freeClusters_congr fun d hd =>
                  hFrame₁ d (by omega)
              simp only [bind, Except.bind]
              rw [hSet]
              exact ih (some first) (clusters ++ [first]) rest
                hLength₁ hLater hRest₁ hCount'

/- What an allocation of the clusters `cs` leaves. -/
structure Allocates
    (fat fat' : List UInt8)
    (cs : List Nat) : Prop where
  length : fat'.length = tableBytes
  chain :
    ∀ start, cs.head? = some start →
      Linked.Walks (Packed12.get (ofList fat')) chainStop
        start cs
  last :
    ∀ last, cs.getLast? = some last →
      Packed12.get (ofList fat') last = 0xFF8
  frame :
    ∀ d, d ∉ cs →
      Packed12.get (ofList fat') d =
        Packed12.get (ofList fat) d

/- An allocation takes the first free clusters as a chain. -/
theorem allocateClusters_free
    {n : Nat}
    {fs : List Nat}
    (hLength : fat.length = tableBytes)
    (hPos : 0 < n)
    (hFree : freeClusters fat c = fs)
    (hCount : n ≤ fs.length) :
    ∃ fat' next,
      allocateClusters fat n c =
          .ok (fat', fs.take n, next) ∧
        Allocates fat fat' (fs.take n) ∧
        freeClusters fat' next = fs.drop n ∧
        ∀ last, (fs.take n).getLast? = some last →
          next = last + 1 := by
  rcases Nat.exists_eq_succ_of_ne_zero
    (show n ≠ 0 by omega) with ⟨m, rfl⟩
  cases fs with
  | nil => simp at hCount
  | cons first rest =>
      have hTable :
          ∀ d ∈ first :: rest.take m, d < 3072 := by
        intro d hMember
        have hListed : d ∈ freeClusters fat c := by
          rw [hFree]
          exact List.mem_of_mem_take
            (i := m + 1) hMember
        have hBound := mem_freeClusters.mp hListed
        omega
      rcases findFreeCluster_cons hLength hFree with
        ⟨hFound, hRest⟩
      rcases allocateLoop_free m first [first] rest hLength
          (hTable first List.mem_cons_self) hRest
          (by simpa using hCount) with
        ⟨fat₁, next, hLoop, hLinks, hFree₁⟩
      have hSome :
          (first :: rest.take m).getLast? =
            some ((first :: rest.take m).getLast
              (List.cons_ne_nil _ _)) :=
        List.getLast?_eq_some_getLast _
      have hLastMem :=
        List.getLast_mem
          (List.cons_ne_nil first (rest.take m))
      generalize
        (first :: rest.take m).getLast
          (List.cons_ne_nil _ _) = last at hSome hLastMem
      rcases setFatEntry_get hLinks.length
          (hTable last hLastMem)
          (show clusterEof < 4096 by decide) with
        ⟨fat', hSet, hLength', hOwn, hFrame⟩
      refine ⟨fat', next, ?_, ⟨hLength', ?_, ?_, ?_⟩, ?_,
        hLinks.next_eq⟩
      · rw [allocateClusters, allocateLoop, hFound]
        simp only [bind, Except.bind, pure, Except.pure,
          List.nil_append]
        rw [hLoop]
        simp only [List.singleton_append]
        rw [hSome]
        simp only
        rw [hSet, List.take_succ_cons]
      · intro start hStart
        rw [List.take_succ_cons] at hStart ⊢
        cases hStart
        have hNodup : (first :: rest.take m).Nodup := by
          have hAll : (freeClusters fat c).Nodup :=
            freeClusters_nodup
          rw [hFree] at hAll
          exact hAll.sublist
            (List.take_sublist (m + 1) (first :: rest))
        refine Linked.Walks.of_isChain hLinks.links hNodup
          ?_ hSome hFrame ?_
        · intro d hMember
          have hBound := hTable d hMember
          unfold chainStop fatEnd
          omega
        · rw [hOwn]
          exact Nat.le_refl _
      · intro last' hLast'
        rw [List.take_succ_cons, hSome] at hLast'
        cases hLast'
        exact hOwn
      · intro d hd
        rw [List.take_succ_cons] at hd
        rw [hFrame d (fun hEq => hd (by rwa [hEq])),
          hLinks.frame d hd]
      · rw [List.drop_succ_cons, ← hFree₁]
        refine freeClusters_congr fun d hd => hFrame d ?_
        have hBefore := hLinks.next_eq last hSome
        omega

/- Consecutive free clusters are the first ones. -/
theorem freeClusters_take
    (n : Nat)
    (hRoom : c + n ≤ 3072)
    (hFree :
      ∀ d, c ≤ d → d < c + n →
        Packed12.get (ofList fat) d = 0) :
    (freeClusters fat c).take n = List.range' c n := by
  induction n generalizing c with
  | zero => simp
  | succ n ih =>
      rw [freeClusters_of_lt (by omega),
        if_pos (hFree c (Nat.le_refl c) (by omega)),
        List.take_succ_cons, List.range'_succ,
        ih (by omega) fun d hLo hHi =>
          hFree d (by omega) (by omega)]

/- The entries of a chain of consecutive clusters. -/
theorem Allocates.entry_eq
    {fat' : List UInt8}
    {n : Nat}
    (hTable : Allocates fat fat' (List.range' c n))
    (hPos : 0 < n)
    (d : Nat) :
    Packed12.get (ofList fat') d =
      chainEntry c n (Packed12.get (ofList fat) d) d := by
  unfold chainEntry
  by_cases hInner : c ≤ d ∧ d + 1 < c + n
  · rw [if_pos hInner]
    have hStart : (List.range' c n).head? = some c := by
      rw [List.head?_range', if_neg (by omega)]
    have hLinks := (hTable.chain c hStart).isChain
    have hNext :=
      List.isChain_iff_getElem.mp hLinks (d - c) (by
        rw [List.length_range']
        omega)
    rw [List.getElem_range', List.getElem_range'] at hNext
    have hPlace : c + 1 * (d - c) = d := by omega
    rw [hPlace] at hNext
    omega
  · rw [if_neg hInner]
    by_cases hLast : d + 1 = c + n
    · rw [if_pos hLast]
      apply hTable.last
      rw [List.getLast?_range', if_neg (by omega)]
      congr 1
      omega
    · rw [if_neg hLast]
      apply hTable.frame
      rw [List.mem_range'_1]
      omega

end Chains

------------------------------------------------------------
-- Open Slots
------------------------------------------------------------

instance : DecidablePred freeByte := fun b =>
  inferInstanceAs (Decidable (b = 0x00 ∨ b = 0xE5))

/-
  The free slots that receive an entry.  In a directory that
  is cut off inside a slot, `put_file` needs the slot's first
  twelve bytes.
-/
def openSlots
    (root : List UInt8) : List Nat :=
  (List.range rootEntries).filter fun i =>
    32 * i + 12 ≤ root.length ∧
      freeByte (ofList root (32 * i))

section Slots

variable {root name83 : List UInt8}
variable {i slot : Nat} {rest : List Nat}

theorem mem_openSlots :
    i ∈ openSlots root ↔
      i < 224 ∧ 32 * i + 12 ≤ root.length ∧
        freeByte (ofList root (32 * i)) := by
  unfold openSlots
  rw [List.mem_filter, List.mem_range, decide_eq_true_eq]

theorem openSlots_sorted :
    (openSlots root).Pairwise (· < ·) :=
  List.pairwise_lt_range.filter _

/- The first free slot of a whole directory is open. -/
theorem openSlots_first
    (hSlot : slot < 224)
    (hBytes : 32 * slot + 12 ≤ root.length)
    (hLive :
      ∀ j < slot, ¬ freeByte (ofList root (32 * j)))
    (hFree : freeByte (ofList root (32 * slot))) :
    ∃ rest, openSlots root = slot :: rest := by
  have hMember : slot ∈ openSlots root :=
    mem_openSlots.mpr ⟨hSlot, hBytes, hFree⟩
  have hSorted : (openSlots root).Pairwise (· < ·) :=
    openSlots_sorted
  cases hOpen : openSlots root with
  | nil =>
      rw [hOpen] at hMember
      cases hMember
  | cons first rest =>
      have hFirst : first ∈ openSlots root := by
        rw [hOpen]
        exact List.mem_cons_self
      rw [hOpen] at hMember hSorted
      rw [List.pairwise_cons] at hSorted
      have hOrder : first ≤ slot := by
        rcases List.mem_cons.mp hMember with hEq | hTail
        · omega
        · have hLater := hSorted.1 slot hTail
          omega
      rcases Nat.eq_or_lt_of_le hOrder with hEq | hLt
      · exact ⟨rest, by rw [hEq]⟩
      · exact absurd (mem_openSlots.mp hFirst).2.2
          (hLive first hLt)

/- The first open slot is found. -/
theorem findRootSlot_open
    (hOpen : openSlots root = slot :: rest) :
    findRootSlot root = .ok slot := by
  have hSlot : slot ∈ openSlots root := by
    rw [hOpen]
    exact List.mem_cons_self
  have hSorted : (openSlots root).Pairwise (· < ·) :=
    openSlots_sorted
  rw [hOpen, List.pairwise_cons] at hSorted
  rcases mem_openSlots.mp hSlot with ⟨hBound, hBytes, hFree⟩
  refine findRootSlot_eq (by omega) hBound ?_ hFree
  intro j hj hOther
  have hEarlier : j ∈ openSlots root :=
    mem_openSlots.mpr ⟨by omega, by omega, hOther⟩
  rw [hOpen] at hEarlier
  rcases List.mem_cons.mp hEarlier with hEq | hTail
  · omega
  · have hLater := hSorted.1 j hTail
    omega

theorem findRootSlotFrom_ok
    (count j : Nat)
    (hBound : j + count ≤ rootEntries)
    (hFound : findRootSlotFrom root count j = .ok i) :
    i < rootEntries ∧ 32 * i < root.length ∧
      freeByte (ofList root (32 * i)) := by
  induction count generalizing j with
  | zero => cases hFound
  | succ count ih =>
      rw [findRootSlotFrom] at hFound
      by_cases hRead : j * 32 < root.length
      · rw [item_of_lt hRead] at hFound
        simp only at hFound
        split at hFound
        · rename_i hFree
          cases hFound
          rw [Nat.mul_comm] at hRead hFree
          exact ⟨by omega, hRead, (freeByte_iff _).mpr hFree⟩
        · exact ih (j + 1) (by omega) hFound
      · rw [item_of_length_le (by omega)] at hFound
        cases hFound

/- An entry leaves the bytes before its own and its name. -/
theorem storeEntry_head
    {x : Nat}
    (start size : Nat)
    (hName : name83.length = 11)
    (hSlot : 32 * slot + 12 ≤ root.length)
    (hx : x < 32 * slot + 12) :
    ofList (storeEntry root name83 slot start size) x =
      nameSlot (ofList root) slot name83 x := by
  have hFits : slot * 32 + name83.length ≤ root.length := by
    omega
  have hLength := setSlice_length hFits
  have hBytes := ofList_setSlice hFits
  rw [hName] at hLength hBytes
  have hNamed :
      ofList
          ((setSlice root (slot * 32) (slot * 32 + 11)
            name83).set (slot * 32 + 11) 0x20) =
        nameSlot (ofList root) slot name83 := by
    rw [ofList_set (by omega), hBytes, nameSlot, Nat.mul_comm]
  unfold storeEntry
  rw [ofList_setSlice_before _ (by omega) (by
      rw [setSlice_length_eq, List.length_set, hLength]
      omega),
    ofList_setSlice_before _ (by omega) (by
      rw [List.length_set, hLength]
      omega), hNamed]

theorem storeEntry_length
    (start size : Nat)
    (hName : name83.length = 11)
    (hSlot : 32 * slot + 12 ≤ root.length)
    (hCut : root.length < 32 * slot + 32) :
    root.length ≤
        (storeEntry root name83 slot start size).length ∧
      (storeEntry root name83 slot start size).length ≤
        32 * slot + 32 := by
  unfold storeEntry
  simp only [setSlice_length_eq, List.length_set,
    ByteMem.slice_length, hName]
  omega

/- An entry leaves the same slots open apart from its own. -/
theorem open_storeEntry_iff
    (start size : Nat)
    (hName : name83.length = 11)
    (hLive : ¬ freeByte (name83.getD 0 0))
    (hBytes : 32 * slot + 12 ≤ root.length)
    (j : Nat) :
    (32 * j + 12 ≤
          (storeEntry root name83 slot start size).length ∧
        freeByte
          (ofList (storeEntry root name83 slot start size)
            (32 * j))) ↔
      (32 * j + 12 ≤ root.length ∧
        freeByte (ofList root (32 * j))) ∧ j ≠ slot := by
  rcases Nat.lt_trichotomy j slot with hBefore | hOwn | hAfter
  · -- An earlier slot is whole and keeps its bytes.
    have hGrown :
        32 * j + 12 ≤
          (storeEntry root name83 slot start size).length := by
      by_cases hCut : root.length < 32 * slot + 32
      · have hRange :=
          storeEntry_length start size hName hBytes hCut
        omega
      · rw [(storeEntry_spec start size (by omega) hName).1]
        omega
    rw [storeEntry_head start size hName hBytes (by omega),
      nameSlot_outside _ _ (by omega)]
    constructor
    · rintro ⟨_, hFree⟩
      exact ⟨⟨by omega, hFree⟩, by omega⟩
    · rintro ⟨⟨_, hFree⟩, _⟩
      exact ⟨hGrown, hFree⟩
  · subst hOwn
    have hByte :
        nameSlot (ofList root) j name83 (32 * j) =
          name83.getD 0 0 :=
      nameSlot_byte _ _ 0 (by omega)
    rw [storeEntry_head start size hName hBytes (by omega),
      hByte]
    constructor
    · rintro ⟨_, hFree⟩
      exact absurd hFree hLive
    · rintro ⟨_, hNe⟩
      exact absurd rfl hNe
  · by_cases hCut : root.length < 32 * slot + 32
    · -- Behind a cut slot there is no other.
      have hRange :=
        storeEntry_length start size hName hBytes hCut
      constructor
      · rintro ⟨hFits, _⟩
        omega
      · rintro ⟨⟨hFits, _⟩, _⟩
        omega
    · rcases storeEntry_spec start size
          (show 32 * slot + 32 ≤ root.length by omega)
          hName with ⟨hLength, hEntry⟩
      rw [hLength, hEntry, entryRoot_outside (by omega)]
      constructor
      · intro hUsable
        exact ⟨hUsable, by omega⟩
      · exact And.left

/- The slot of an entry is no longer open. -/
theorem openSlots_storeEntry
    (start size : Nat)
    (hName : name83.length = 11)
    (hLive : ¬ freeByte (name83.getD 0 0))
    (hOpen : openSlots root = slot :: rest) :
    openSlots (storeEntry root name83 slot start size) =
      rest := by
  have hSlot : slot ∈ openSlots root := by
    rw [hOpen]
    exact List.mem_cons_self
  rcases mem_openSlots.mp hSlot with ⟨_, hBytes, _⟩
  have hSorted : (openSlots root).Pairwise (· < ·) :=
    openSlots_sorted
  rw [hOpen, List.pairwise_cons] at hSorted
  have hWithout :
      openSlots (storeEntry root name83 slot start size) =
        (openSlots root).filter fun j => j ≠ slot := by
    unfold openSlots
    rw [List.filter_filter]
    refine List.filter_congr fun j _ => ?_
    rw [Bool.eq_iff_iff, Bool.and_eq_true,
      decide_eq_true_eq, decide_eq_true_eq,
      decide_eq_true_eq,
      open_storeEntry_iff start size hName hLive hBytes,
      and_comm]
  rw [hWithout, hOpen, List.filter_cons_of_neg (by simp)]
  refine List.filter_eq_self.mpr fun j hMember => ?_
  have hLater := hSorted.1 j hMember
  rw [decide_eq_true_eq]
  omega

end Slots

------------------------------------------------------------
-- Data Of A Chain
------------------------------------------------------------

/- The sectors of these clusters lie inside the image. -/
def InsideImage
    (img : List UInt8)
    (cs : List Nat) : Prop :=
  ∀ c ∈ cs, 2 ≤ c ∧ 512 * (64 + c) ≤ img.length

section Data

variable {img : List UInt8} {cs : List Nat}

theorem writeClusters_length
    (data : List UInt8)
    (i : Nat)
    (hInside : InsideImage img cs) :
    (writeClusters data cs i img).length = img.length := by
  induction cs generalizing i img with
  | nil => rfl
  | cons c cs ih =>
      rcases hInside c List.mem_cons_self with ⟨hLo, hHi⟩
      have hStored := (setSlice_chunk data i hLo hHi).1
      rw [writeClusters]
      refine (ih (i + 1) ?_).trans hStored
      intro d hMember
      rw [hStored]
      exact hInside d (List.mem_cons_of_mem _ hMember)

/- Writing a chain keeps the bytes outside its sectors. -/
theorem writeClusters_outside
    {x : Nat}
    (data : List UInt8)
    (i : Nat)
    (hInside : InsideImage img cs)
    (hOut :
      ∀ c ∈ cs,
        x < 512 * (63 + c) ∨ 512 * (63 + c) + 512 ≤ x) :
    ofList (writeClusters data cs i img) x =
      ofList img x := by
  induction cs generalizing i img with
  | nil => rfl
  | cons c cs ih =>
      rcases hInside c List.mem_cons_self with ⟨hLo, hHi⟩
      rcases setSlice_chunk data i hLo hHi with
        ⟨hLength, hStored⟩
      rw [writeClusters, ih (i + 1) (by
            intro d hMember
            rw [hLength]
            exact hInside d (List.mem_cons_of_mem _ hMember))
          (fun d hMember =>
            hOut d (List.mem_cons_of_mem _ hMember)),
        hStored,
        storeBlock_outside (hOut c List.mem_cons_self)]

/- The sectors of a chain hold the data in order. -/
theorem chainBytes_writeClusters
    (data : List UInt8)
    (i : Nat)
    (hInside : InsideImage img cs)
    (hNodup : cs.Nodup) :
    chainBytes (ofList (writeClusters data cs i img)) cs =
      (ofList data).slice (512 * i) (512 * cs.length) := by
  induction cs generalizing i img with
  | nil => rfl
  | cons c cs ih =>
      rcases hInside c List.mem_cons_self with ⟨hLo, hHi⟩
      rcases setSlice_chunk data i hLo hHi with
        ⟨hLength, hStored⟩
      rcases List.nodup_cons.mp hNodup with ⟨hOut, hNodup'⟩
      rw [writeClusters]
      generalize setSlice img _ _ _ = img₁ at hLength hStored ⊢
      have hInside₁ : InsideImage img₁ cs := by
        intro d hMember
        rw [hLength]
        exact hInside d (List.mem_cons_of_mem _ hMember)
      -- The later sectors leave the first one alone.
      have hFirst :
          clusterBytes
              (ofList (writeClusters data cs (i + 1) img₁)) c =
            (ofList data).slice (512 * i) 512 := by
        refine slice_congr fun x hx => ?_
        rw [writeClusters_outside data (i + 1) hInside₁, hStored,
          storeBlock_inside (by omega) (by omega),
          Nat.add_sub_cancel_left, view]
        intro d hMember
        have hNe : d ≠ c := by
          rintro rfl
          exact hOut hMember
        omega
      rw [chainBytes_cons, hFirst, ih (i + 1) hInside₁ hNodup',
        List.length_cons, Nat.mul_succ 512 i, slice_append,
        Nat.mul_succ, Nat.add_comm 512]

end Data

------------------------------------------------------------
-- Source Files
------------------------------------------------------------

/- A file and its name, an ASCII argument of any length. -/
structure SourceFile where
  data : List UInt8
  name : List UInt8
  name_ascii :
    ∀ b ∈ name, 0 < b.toNat ∧ b.toNat < 128

/- The name `A`. -/
theorem letterName_ascii :
    ∀ b ∈ ([0x41] : List UInt8),
      0 < b.toNat ∧ b.toNat < 128 := by
  intro b hMember
  rw [List.mem_singleton.mp hMember]
  decide

/- The command-line arguments of a file. -/
def SourceFile.args
    (file : SourceFile) : List UInt8 × List UInt8 :=
  (file.data, file.name)

/- The name bytes of its entry. -/
def SourceFile.field
    (file : SourceFile) : List UInt8 :=
  fieldName file.name

/- An empty file takes one cluster. -/
def SourceFile.clusterCount
    (file : SourceFile) : Nat :=
  max 1 ((file.data.length + 511) / 512)

/- The count as `put_file` computes it. -/
theorem SourceFile.clusterCount_eq
    (file : SourceFile) :
    max 1 ((file.data.length + sector - 1) / sector) =
      file.clusterCount := by
  unfold SourceFile.clusterCount
  simp only [sector]
  omega

theorem SourceFile.clusterCount_pos
    (file : SourceFile) :
    0 < file.clusterCount := by
  unfold SourceFile.clusterCount
  omega

theorem SourceFile.data_length_le
    (file : SourceFile) :
    file.data.length ≤ 512 * file.clusterCount := by
  unfold SourceFile.clusterCount
  omega

theorem SourceFile.field_length
    (file : SourceFile) :
    file.field.length = 11 := by
  simp only [SourceFile.field, fieldName, Bytearray.slice,
    ljust, List.length_drop, List.length_take,
    List.length_append, List.length_map,
    List.length_replicate]
  omega

/- The entry of a file is live. -/
theorem SourceFile.field_live
    (file : SourceFile) :
    ¬ freeByte (file.field.getD 0 0) := by
  have hAscii := file.name_ascii
  rw [freeByte_iff]
  unfold SourceFile.field fieldName
  cases hName : file.name with
  | nil => decide
  | cons b name =>
      rw [hName] at hAscii
      have hByte := hAscii b List.mem_cons_self
      have hHead :
          (Bytearray.slice
            (ljust ((b :: name).map upper) 11 0x20) 0
            11).getD 0 0 = upper b := by
        simp [Bytearray.slice, ljust]
      rw [hHead]
      unfold upper
      split
      · rename_i hLower
        have hLo : 0x61 ≤ b.toNat :=
          UInt8.le_iff_toNat_le.mp hLower.1
        have hHi : b.toNat ≤ 0x7A :=
          UInt8.le_iff_toNat_le.mp hLower.2
        have hUpper : (b - 32).toNat = b.toNat - 32 :=
          UInt8.toNat_sub_of_le b 32
            (UInt8.le_iff_toNat_le.mpr
              (show 32 ≤ b.toNat by omega))
        omega
      · omega

------------------------------------------------------------
-- One File
------------------------------------------------------------

/-
  The arrays after `put_file` has given the clusters `cs` and
  the slot `slot` to a file.
-/
structure PutsAt
    (s s' : Installer)
    (file : SourceFile)
    (cs : List Nat)
    (slot : Nat) : Prop where
  table : Allocates s.fat s'.fat cs
  root :
    s'.root =
      storeEntry s.root file.field slot (cs.headD 0)
        file.data.length
  img : s'.img = writeClusters file.data cs 0 s.img
  next :
    ∀ last, cs.getLast? = some last →
      s'.nextCluster = last + 1

section OneFile

variable {s : Installer}
variable {fs rest : List Nat} {slot : Nat}

/- `put_file` takes the first free clusters and open slot. -/
theorem putFile_free
    (file : SourceFile)
    (hLength : s.fat.length = tableBytes)
    (hFree : freeClusters s.fat s.nextCluster = fs)
    (hCount : file.clusterCount ≤ fs.length)
    (hOpen : openSlots s.root = slot :: rest) :
    ∃ s', putFile s file.data file.name = .ok s' ∧
      PutsAt s s' file (fs.take file.clusterCount) slot ∧
      freeClusters s'.fat s'.nextCluster =
        fs.drop file.clusterCount ∧
      openSlots s'.root = rest := by
  have hPos := file.clusterCount_pos
  have hData := file.data_length_le
  have hName := file.field_length
  rcases allocateClusters_free hLength hPos hFree hCount with
    ⟨fat', next, hAllocate, hTable, hFree', hNext⟩
  have hSlot : slot ∈ openSlots s.root := by
    rw [hOpen]
    exact List.mem_cons_self
  rcases mem_openSlots.mp hSlot with ⟨_, hBytes, _⟩
  have hFew : fs.length ≤ 3072 := by
    rw [← hFree]
    refine (List.length_filter_le _ _).trans ?_
    rw [List.length_range']
    omega
  cases hTake : fs.take file.clusterCount with
  | nil =>
      rw [List.take_eq_nil_iff] at hTake
      rcases hTake with hZero | hNil
      · omega
      · rw [hNil, List.length_nil] at hCount
        omega
  | cons first others =>
      rw [hTake] at hAllocate hTable hNext
      have hFirst : first ≤ 3071 := by
        have hMember : first ∈ freeClusters s.fat
            s.nextCluster := by
          rw [hFree]
          apply List.mem_of_mem_take (i := file.clusterCount)
          rw [hTake]
          exact List.mem_cons_self
        exact (mem_freeClusters.mp hMember).2.1
      refine ⟨
        { img :=
            writeClusters file.data (first :: others) 0 s.img
          fat := fat'
          root :=
            storeEntry s.root file.field slot first
              file.data.length
          nextCluster := next },
        ?_, ⟨hTable, rfl, rfl, hNext⟩, hFree',
        openSlots_storeEntry first file.data.length hName
          file.field_live hOpen⟩
      have hFits :
          slot * 32 + file.field.length ≤ s.root.length := by
        omega
      have hNamed := setSlice_length hFits
      rw [hName] at hNamed
      unfold putFile
      simp only [bind, Except.bind, pure, Except.pure]
      rw [file.clusterCount_eq, hAllocate]
      simp only
      rw [findRootSlot_open hOpen]
      simp only
      rw [show fieldName file.name = file.field from rfl,
        setItem_of_lt (by omega) (by omega)]
      simp only [List.head?_cons]
      rw [packH, if_pos (by omega), packI, if_pos (by omega)]
      rfl

/- Without room in the table or the directory it raises. -/
theorem putFile_full
    (file : SourceFile)
    (hLength : s.fat.length = tableBytes)
    (hFull :
      (freeClusters s.fat s.nextCluster).length <
          file.clusterCount ∨
        openSlots s.root = []) :
    ∃ e, putFile s file.data file.name = .error e := by
  have hPos := file.clusterCount_pos
  have hName := file.field_length
  unfold putFile
  simp only [bind, Except.bind]
  rw [file.clusterCount_eq]
  by_cases hCount :
      (freeClusters s.fat s.nextCluster).length <
        file.clusterCount
  · rcases allocateLoop_full file.clusterCount none []
        (freeClusters s.fat s.nextCluster) hLength
        (fun _ hNone => nomatch hNone) rfl hCount with
      ⟨e, hError⟩
    have hAllocate :
        allocateClusters s.fat file.clusterCount
            s.nextCluster = .error e := by
      rw [allocateClusters, hError]
      rfl
    rw [hAllocate]
    exact ⟨e, rfl⟩
  · have hOpen := hFull.resolve_left hCount
    rcases allocateClusters_free hLength hPos rfl
        (show file.clusterCount ≤
            (freeClusters s.fat s.nextCluster).length by
          omega) with
      ⟨fat', next, hAllocate, _, _, _⟩
    rw [hAllocate]
    simp only
    cases hFound : findRootSlot s.root with
    | error e => exact ⟨e, rfl⟩
    | ok i =>
        rcases findRootSlotFrom_ok rootEntries 0
            (Nat.le_refl _) hFound with
          ⟨hSlot, hBytes, hFree⟩
        -- The slot is cut off before its attribute byte.
        have hCut : ¬ 32 * i + 12 ≤ s.root.length := by
          intro hFits
          have hMember : i ∈ openSlots s.root :=
            mem_openSlots.mpr ⟨hSlot, hFits, hFree⟩
          rw [hOpen] at hMember
          cases hMember
        refine ⟨.indexError, ?_⟩
        simp only
        rw [show fieldName file.name = file.field from rfl,
          setItem_of_length_le (by
            rw [setSlice_length_eq, hName]
            omega)]

end OneFile

------------------------------------------------------------
-- All Files
------------------------------------------------------------

/- The clusters that a list of files takes. -/
def clustersNeeded
    (files : List SourceFile) : Nat :=
  (files.map SourceFile.clusterCount).sum

theorem clustersNeeded_cons
    (file : SourceFile)
    (files : List SourceFile) :
    clustersNeeded (file :: files) =
      file.clusterCount + clustersNeeded files := by
  simp [clustersNeeded]

/-
  Runs of `put_file` that share out the free clusters `fs`
  and the open slots `os` in order.
-/
inductive PutsRun :
    Installer → List SourceFile → List Nat → List Nat →
      Installer → Prop where
| nil
    (s : Installer)
    (fs os : List Nat) :
    PutsRun s [] fs os s
| cons
    {s s₁ s' : Installer}
    {file : SourceFile}
    {files : List SourceFile}
    {fs os : List Nat}
    {slot : Nat}
    (head : PutsAt s s₁ file (fs.take file.clusterCount) slot)
    (tail : PutsRun s₁ files (fs.drop file.clusterCount) os s') :
    PutsRun s (file :: files) fs (slot :: os) s'

section AllFiles

variable {s s' : Installer}
variable {fs os : List Nat}

/- With enough clusters and slots every file is installed. -/
theorem putFiles_free
    (files : List SourceFile)
    (hLength : s.fat.length = tableBytes)
    (hFree : freeClusters s.fat s.nextCluster = fs)
    (hOpen : openSlots s.root = os)
    (hClusters : clustersNeeded files ≤ fs.length)
    (hSlots : files.length ≤ os.length) :
    ∃ s', putFiles s (files.map SourceFile.args) = .ok s' ∧
      PutsRun s files fs os s' := by
  induction files generalizing s fs os with
  | nil => exact ⟨s, rfl, PutsRun.nil s fs os⟩
  | cons file files ih =>
      rw [clustersNeeded_cons] at hClusters
      cases os with
      | nil => simp at hSlots
      | cons slot os =>
          rcases putFile_free file hLength hFree (by omega)
              hOpen with ⟨s₁, hPut, hPuts, hFree₁, hOpen₁⟩
          rcases ih hPuts.table.length hFree₁ hOpen₁ (by
                rw [List.length_drop]
                omega)
              (by simpa using hSlots) with
            ⟨s', hRest, hRun⟩
          refine ⟨s', ?_, PutsRun.cons hPuts hRun⟩
          simp only [List.map_cons, SourceFile.args, putFiles,
            bind, Except.bind]
          rw [hPut]
          exact hRest

/- Otherwise some file raises an exception. -/
theorem putFiles_full
    (files : List SourceFile)
    (hLength : s.fat.length = tableBytes)
    (hFree : freeClusters s.fat s.nextCluster = fs)
    (hOpen : openSlots s.root = os)
    (hFull :
      fs.length < clustersNeeded files ∨
        os.length < files.length) :
    ∃ e, putFiles s (files.map SourceFile.args) =
      .error e := by
  induction files generalizing s fs os with
  | nil =>
      rcases hFull with hClusters | hSlots
      · simp [clustersNeeded] at hClusters
      · simp at hSlots
  | cons file files ih =>
      rw [clustersNeeded_cons, List.length_cons] at hFull
      simp only [List.map_cons, SourceFile.args, putFiles,
        bind, Except.bind]
      by_cases hRoom :
          fs.length < file.clusterCount ∨ os = []
      · rw [← hFree, ← hOpen] at hRoom
        rcases putFile_full file hLength hRoom with
          ⟨e, hError⟩
        rw [hError]
        exact ⟨e, rfl⟩
      · cases os with
        | nil => exact absurd (Or.inr rfl) hRoom
        | cons slot os =>
            have hCount : file.clusterCount ≤ fs.length := by
              by_contra hFew
              exact hRoom (Or.inl (by omega))
            rcases putFile_free file hLength hFree hCount
                hOpen with ⟨s₁, hPut, hPuts, hFree₁, hOpen₁⟩
            rw [hPut]
            refine ih hPuts.table.length hFree₁ hOpen₁ ?_
            rw [List.length_drop]
            rw [List.length_cons] at hFull
            omega

/- Clusters inside the image never grow it. -/
theorem PutsRun.img_length
    {files : List SourceFile}
    (hRun : PutsRun s files fs os s')
    (hInside :
      InsideImage s.img (fs.take (clustersNeeded files))) :
    s'.img.length = s.img.length := by
  induction hRun with
  | nil => rfl
  | @cons s s₁ s' file files fs os slot hPuts _ ih =>
      rw [clustersNeeded_cons, List.take_add] at hInside
      have hLength : s₁.img.length = s.img.length := by
        rw [hPuts.img]
        exact writeClusters_length _ _ fun c hMember =>
          hInside c (List.mem_append_left _ hMember)
      refine (ih ?_).trans hLength
      intro c hMember
      rw [hLength]
      exact hInside c (List.mem_append_right _ hMember)

theorem PutsRun.fat_length
    {files : List SourceFile}
    (hRun : PutsRun s files fs os s')
    (hLength : s.fat.length = tableBytes) :
    s'.fat.length = tableBytes := by
  induction hRun with
  | nil => exact hLength
  | cons hPuts _ ih => exact ih hPuts.table.length

/- A whole root directory keeps its length. -/
theorem PutsRun.root_length
    {files : List SourceFile}
    (hRun : PutsRun s files fs os s')
    (hSlots : ∀ slot ∈ os, slot < 224)
    (hLength : s.root.length = 32 * rootEntries) :
    s'.root.length = 32 * rootEntries := by
  induction hRun with
  | nil => exact hLength
  | @cons s s₁ s' file files fs os slot hPuts _ ih =>
      have hSlot := hSlots slot List.mem_cons_self
      refine ih
        (fun j hMember =>
          hSlots j (List.mem_cons_of_mem _ hMember)) ?_
      rw [hPuts.root,
        (storeEntry_spec _ _ (by
          rw [hLength]
          simp only [rootEntries]
          omega) file.field_length).1, hLength]

end AllFiles

end FatPut

end AsmOS
