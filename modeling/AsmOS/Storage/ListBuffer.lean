import Mathlib.Data.List.TakeWhile
import AsmOS.Storage.HalSpec
import AsmOS.Storage.Listing

/-
  The bytes that `plat_fs_list` stores for its caller.

  A `plat_file_info_t` has twelve bytes for the name, the
  size at offset 12 and the cluster at offset 16, and takes
  20 bytes.  The dotted name of a file with eleven characters
  and its dot fill the name array, and the NUL after them is
  overwritten by the size.

  Main declarations:
    * `listStore`, `platFsListInto`
    * `ListsFaithfully`
    * `listIntoLoop_eq`, `platFsListInto_rc`
    * `listName_length_lt_iff`
    * `listsFaithfully_iff`
-/

------------------------------------------------------------
-- Stores Of The List Loop
------------------------------------------------------------

namespace AsmOS

namespace Storage

open ByteMem

/- `PLAT_FILENAME_MAX`. -/
abbrev platFilenameMax : Nat := 12

/-
  The stores to `out[n]` for slot `i`, in their order: the
  name, its NUL, the size and the cluster.  A record takes 20
  bytes.
-/
def listStore
    (root out : ByteMem)
    (i n : Nat) : ByteMem :=
  let p := 20 * n
  let name := listName root i
  let out := out.storeBlock p name.length (ofList name)
  let out := out.storeByte (p + name.length) 0
  let out := out.store32 (p + 12) (slotSize root i)
  out.store16 (p + 16) (slotCluster root i)

/-
  The loop of `plat_fs_list` over `k` slots from `i` on: the
  number of files and the caller's array.
-/
def listIntoLoop
    (root : ByteMem)
    (max : Nat) :
    Nat → Nat → Nat → ByteMem → Nat × ByteMem
| 0, _, n, out => (n, out)
| k + 1, i, n, out =>
    if n < max then
      if slotFree root i then
        listIntoLoop root max k (i + 1) n out
      else if slotDirectory root i then
        listIntoLoop root max k (i + 1) n out
      else
        listIntoLoop root max k (i + 1) (n + 1)
          (listStore root out i n)
    else
      (n, out)

/- `plat_fs_list` with the array that it is given. -/
def platFsListInto
    (fs : Fs)
    (out : ByteMem)
    (max : Nat) : (Int × ByteMem) × Fs :=
  match ensureReady fs with
  | (false, fs) => ((-1, out), fs)
  | (true, fs) =>
      let listed :=
        listIntoLoop fs.rootCache max fatRootEntries 0 0 out
      ((listed.1, listed.2), fs)

------------------------------------------------------------
-- What Is Listed
------------------------------------------------------------

/- `e[0]` and `e[11]` let the loop list the slot. -/
def slotListed
    (root : ByteMem)
    (i : Nat) : Bool :=
  !slotFree root i && !slotDirectory root i

/- The first `max` live slots that are no directory. -/
def listedSlots
    (root : ByteMem)
    (max : Nat) : List Nat :=
  ((List.range 224).filter (slotListed root)).take max

/-
  `out[n]` holds a file: its dotted name with a NUL inside
  the name array, its size and its cluster.
-/
structure HoldsFileInfo
    (out : ByteMem)
    (n : Nat)
    (file : FileInfo) : Prop where
  name_eq :
    ∃ k < platFilenameMax,
      out.slice (20 * n) k = file.name ∧
        out (20 * n + k) = 0
  size_eq : load32 out (20 * n + 12) = file.size
  cluster_eq :
    load16 out (20 * n + 16) = file.cluster

/-
  A listing counts the listed slots, stores their files in
  slot order, and stores nothing else.  Without its tables
  the call fails and stores nothing.
-/
structure ListsFaithfully
    (fs : Fs)
    (out : ByteMem)
    (max : Nat) : Prop where
  failed :
    (ensureReady fs).1 = false →
      (platFsListInto fs out max).1 = (-1, out)
  count :
    (ensureReady fs).1 = true →
      (platFsListInto fs out max).1.1 =
        (listedSlots (ensureReady fs).2.rootCache max).length
  holds :
    (ensureReady fs).1 = true →
      ∀ n i,
        (listedSlots (ensureReady fs).2.rootCache max)[n]? =
            some i →
          HoldsFileInfo (platFsListInto fs out max).1.2 n
            (fileInfo (ensureReady fs).2.rootCache i)
  outside :
    ∀ x, 20 * max ≤ x →
      (platFsListInto fs out max).1.2 x = out x

------------------------------------------------------------
-- Names
------------------------------------------------------------

section Names

variable {root : ByteMem} {i : Nat}

/- A field of which no character is a space is taken whole. -/
theorem takeWhile_length_eq_iff
    (l : List UInt8) :
    (l.takeWhile fun c => c ≠ 0x20).length = l.length ↔
      ∀ c ∈ l, c ≠ 0x20 := by
  have hSelf :
      (l.takeWhile fun c => c ≠ 0x20) = l ↔
        ∀ c ∈ l, c ≠ 0x20 := by
    simp [List.takeWhile_eq_self_iff]
  rw [← hSelf]
  exact ⟨(List.takeWhile_prefix _).eq_of_length,
    congrArg List.length⟩

theorem takeWhile_length_le
    (l : List UInt8) :
    (l.takeWhile fun c => c ≠ 0x20).length ≤ l.length :=
  (List.takeWhile_sublist _).length_le

theorem slice_forall_iff
    {a n : Nat} :
    (∀ c ∈ root.slice a n, c ≠ 0x20) ↔
      ∀ j < n, root (a + j) ≠ 0x20 := by
  simp [slice]

/- A dotted name has at most twelve characters. -/
theorem listName_length_le
    (root : ByteMem)
    (i : Nat) :
    (listName root i).length ≤ 12 := by
  have hBase := takeWhile_length_le (root.slice (32 * i) 8)
  have hExt := takeWhile_length_le (root.slice (32 * i + 8) 3)
  rw [slice_length] at hBase hExt
  unfold listName
  dsimp only
  split
  · rw [List.length_append, List.length_cons]
    omega
  · omega

/- It has twelve exactly when no name byte is a space. -/
theorem listName_length_eq_iff :
    (listName root i).length = 12 ↔
      ∀ j < 11, root (32 * i + j) ≠ 0x20 := by
  have hBase := takeWhile_length_le (root.slice (32 * i) 8)
  have hExt := takeWhile_length_le (root.slice (32 * i + 8) 3)
  have hBaseIff :=
    takeWhile_length_eq_iff (root.slice (32 * i) 8)
  have hExtIff :=
    takeWhile_length_eq_iff (root.slice (32 * i + 8) 3)
  rw [slice_length] at hBase hExt
  rw [slice_length, slice_forall_iff] at hBaseIff hExtIff
  have hParts :
      (∀ j < 11, root (32 * i + j) ≠ 0x20) ↔
        (∀ j < 8, root (32 * i + j) ≠ 0x20) ∧
          ∀ j < 3, root (32 * i + 8 + j) ≠ 0x20 := by
    constructor
    · intro hAll
      refine ⟨fun j hj => hAll j (by omega), fun j hj => ?_⟩
      rw [Nat.add_assoc]
      exact hAll (8 + j) (by omega)
    · rintro ⟨hFirst, hLast⟩ j hj
      by_cases hLow : j < 8
      · exact hFirst j hLow
      · have hByte := hLast (j - 8) (by omega)
        rwa [Nat.add_assoc,
          Nat.add_sub_cancel' (Nat.le_of_not_lt hLow)] at hByte
  rw [hParts, ← hBaseIff, ← hExtIff]
  unfold listName
  dsimp only
  by_cases hDot : root (32 * i + 8) ≠ 0x20
  · rw [if_pos hDot, List.length_append, List.length_cons]
    omega
  · rw [if_neg hDot]
    have hNone :
        ¬ ((root.slice (32 * i + 8) 3).takeWhile fun c =>
          c ≠ 0x20).length = 3 := by
      rw [hExtIff]
      intro hAll
      exact hDot (hAll 0 (by omega))
    omega

theorem listName_length_lt_iff :
    (listName root i).length < platFilenameMax ↔
      ∃ j < 11, root (32 * i + j) = 0x20 := by
  have hLe := listName_length_le root i
  have hIff :
      (listName root i).length = 12 ↔
        ∀ j < 11, root (32 * i + j) ≠ 0x20 :=
    listName_length_eq_iff
  have hTwelve : platFilenameMax = 12 := rfl
  constructor
  · intro hShort
    by_contra hNone
    push Not at hNone
    have hFull := hIff.mpr hNone
    omega
  · rintro ⟨j, hj, hSpace⟩
    by_contra hLong
    exact hIff.mp (by omega) j hj hSpace

end Names

------------------------------------------------------------
-- One Stored File
------------------------------------------------------------

section Stored

variable {root out : ByteMem}
variable {i n x : Nat}

/- The stores for one file stay in its record. -/
theorem listStore_outside
    (hOut :
      x < 20 * n ∨ 20 * (n + 1) ≤ x) :
    listStore root out i n x = out x := by
  have hName := listName_length_le root i
  unfold listStore
  rw [store16_outside _ _ (by omega),
    store32_outside _ _ (by omega),
    storeByte_of_ne _ _ (by omega),
    storeBlock_outside (by omega)]

theorem listStore_size
    (root out : ByteMem)
    (i n : Nat) :
    load32 (listStore root out i n) (20 * n + 12) =
      slotSize root i := by
  unfold listStore
  dsimp only
  rw [store16, load32_storeBlock_of_disjoint (by omega),
    load32_store32]
  exact Nat.mod_eq_of_lt (load32_lt _ _)

theorem listStore_cluster
    (root out : ByteMem)
    (i n : Nat) :
    load16 (listStore root out i n) (20 * n + 16) =
      slotCluster root i := by
  unfold listStore
  dsimp only
  rw [load16_store16]
  exact Nat.mod_eq_of_lt (load16_lt _ _)

theorem listStore_name
    (root out : ByteMem)
    (i n : Nat) :
    (listStore root out i n).slice (20 * n)
        (listName root i).length = listName root i := by
  have hName := listName_length_le root i
  calc
    (listStore root out i n).slice (20 * n)
          (listName root i).length =
        (ofList (listName root i)).slice 0
          (listName root i).length := by
      refine slice_congr fun j hj => ?_
      unfold listStore
      rw [store16_outside _ _ (by omega),
        store32_outside _ _ (by omega),
        storeByte_of_ne _ _ (by omega),
        storeBlock_inside (by omega) (by omega),
        Nat.zero_add, Nat.add_sub_cancel_left]
    _ = listName root i := slice_ofList _

/- A NUL below the size field stays. -/
theorem listStore_nul
    (hShort : (listName root i).length < platFilenameMax) :
    listStore root out i n
        (20 * n + (listName root i).length) = 0 := by
  have hTwelve : platFilenameMax = 12 := rfl
  unfold listStore
  rw [store16_outside _ _ (by omega),
    store32_outside _ _ (by omega), storeByte_self]

/- A record holds its file exactly when the NUL has room. -/
theorem holdsFileInfo_listStore_iff
    (root out : ByteMem)
    (i n : Nat) :
    HoldsFileInfo (listStore root out i n) n (fileInfo root i) ↔
      ∃ j < 11, root (32 * i + j) = 0x20 := by
  rw [← listName_length_lt_iff]
  constructor
  · rintro ⟨⟨k, hk, hSlice, _⟩, _, _⟩
    have hLength := congrArg List.length hSlice
    rw [slice_length] at hLength
    have hName :
        (fileInfo root i).name.length =
          (listName root i).length := rfl
    omega
  · intro hShort
    exact ⟨⟨_, hShort, listStore_name root out i n,
      listStore_nul hShort⟩, listStore_size root out i n,
      listStore_cluster root out i n⟩

/- What a record holds is in its 20 bytes. -/
theorem HoldsFileInfo.congr
    {out' : ByteMem}
    {file : FileInfo}
    (hHolds : HoldsFileInfo out n file)
    (hAgree :
      AgreeOn out' out (20 * n)
        (20 * (n + 1))) :
    HoldsFileInfo out' n file := by
  rcases hHolds with ⟨⟨k, hk, hSlice, hNul⟩, hSize, hCluster⟩
  have hTwelve : platFilenameMax = 12 := rfl
  refine ⟨⟨k, hk, ?_, ?_⟩, ?_, ?_⟩
  · rw [← hSlice]
    exact slice_congr fun j hj =>
      hAgree _ (by omega) (by omega)
  · rw [hAgree _ (by omega) (by omega), hNul]
  · rw [hAgree.load32_eq (by omega) (by omega), hSize]
  · rw [hAgree.load16_eq (by omega) (by omega), hCluster]

end Stored

------------------------------------------------------------
-- The List Loop
------------------------------------------------------------

/- The stores for several slots, from record `n` on. -/
def storeFiles
    (root : ByteMem) :
    Nat → ByteMem → List Nat → ByteMem
| _, out, [] => out
| n, out, i :: slots =>
    storeFiles root (n + 1) (listStore root out i n) slots

section Loop

variable {root out : ByteMem}
variable {slots : List Nat}
variable {n x : Nat}

/- The loop stores the files of the slots that it lists. -/
theorem listIntoLoop_eq
    (root : ByteMem)
    (max k i n : Nat)
    (out : ByteMem)
    (slots : List Nat)
    (hSlots :
      slots =
        ((List.range' i k).filter (slotListed root)).take
          (max - n)) :
    listIntoLoop root max k i n out =
      (n + slots.length, storeFiles root n out slots) := by
  induction k generalizing i n out slots with
  | zero =>
      subst hSlots
      simp [listIntoLoop, storeFiles]
  | succ k ih =>
      rw [listIntoLoop]
      rw [List.range'_succ, List.filter_cons] at hSlots
      by_cases hRoom : n < max
      · rw [if_pos hRoom]
        have hLess : max - n = (max - (n + 1)) + 1 := by omega
        by_cases hListed : slotListed root i = true
        · have hLive :
              slotFree root i = false ∧
                slotDirectory root i = false := by
            simpa [slotListed] using hListed
          rw [if_pos hListed, hLess, List.take_succ_cons] at hSlots
          rw [hLive.1, hLive.2, ih (i + 1) (n + 1) _ _ rfl, hSlots,
            List.length_cons, storeFiles, Nat.add_assoc,
            Nat.add_comm 1]
          rfl
        · rw [if_neg hListed] at hSlots
          have hSkip := ih (i + 1) n out _ hSlots
          cases hFree : slotFree root i with
          | true => exact hSkip
          | false =>
              have hDirectory : slotDirectory root i = true := by
                simpa [slotListed, hFree] using hListed
              rw [hDirectory]
              exact hSkip
      · have hNone : max - n = 0 := by omega
        rw [hNone, List.take_zero] at hSlots
        rw [if_neg hRoom, hSlots]
        rfl

/- Records before and after the stored ones keep their bytes. -/
theorem storeFiles_outside
    (hOut :
      x < 20 * n ∨
        20 * (n + slots.length) ≤ x) :
    storeFiles root n out slots x = out x := by
  induction slots generalizing n out with
  | nil => rfl
  | cons i slots ih =>
      rw [List.length_cons] at hOut
      rw [storeFiles, ih (by omega), listStore_outside (by omega)]

/- Each record is what its own stores made it. -/
theorem storeFiles_record
    {m i : Nat}
    (hSlot : slots[m]? = some i) :
    ∃ before,
      AgreeOn (storeFiles root n out slots)
        (listStore root before i (n + m))
        (20 * (n + m))
        (20 * (n + m + 1)) := by
  induction slots generalizing n m out with
  | nil => cases hSlot
  | cons first slots ih =>
      cases m with
      | zero =>
          have hFirst : first = i := by simpa using hSlot
          subst hFirst
          refine ⟨out, fun x hLo hHi => ?_⟩
          rw [storeFiles, storeFiles_outside (by omega)]
          rfl
      | succ m =>
          rw [List.getElem?_cons_succ] at hSlot
          have hIndex : n + 1 + m = n + (m + 1) := by omega
          rw [storeFiles, ← hIndex]
          exact ih hSlot

/- A record holds its file exactly when its NUL has room. -/
theorem holdsFileInfo_storeFiles_iff
    (root out : ByteMem)
    (n : Nat)
    {m i : Nat}
    (hSlot : slots[m]? = some i) :
    HoldsFileInfo (storeFiles root n out slots) (n + m)
        (fileInfo root i) ↔
      ∃ j < 11, root (32 * i + j) = 0x20 := by
  obtain ⟨before, hAgree⟩ :
      ∃ before,
        AgreeOn (storeFiles root n out slots)
          (listStore root before i (n + m)) (20 * (n + m))
          (20 * (n + m + 1)) :=
    storeFiles_record hSlot
  rw [← holdsFileInfo_listStore_iff root before i (n + m)]
  exact ⟨fun hHolds => hHolds.congr hAgree.symm,
    fun hHolds => hHolds.congr hAgree⟩

end Loop

------------------------------------------------------------
-- Faithful Listings
------------------------------------------------------------

section Calls

variable {fs : Fs}

theorem listedSlots_length_le
    (root : ByteMem)
    (max : Nat) :
    (listedSlots root max).length ≤ max :=
  List.length_take_le _ _

/- The call with its tables loaded. -/
theorem platFsListInto_ready
    (hReady : (ensureReady fs).1 = true)
    (out : ByteMem)
    (max : Nat) :
    (platFsListInto fs out max).1 =
      (((listedSlots (ensureReady fs).2.rootCache max).length :
          Int),
        storeFiles (ensureReady fs).2.rootCache 0 out
          (listedSlots (ensureReady fs).2.rootCache max)) := by
  unfold platFsListInto
  rcases hCall : ensureReady fs with ⟨ok, fs'⟩
  rw [hCall] at hReady
  cases hReady
  dsimp only
  rw [listIntoLoop_eq fs'.rootCache max fatRootEntries 0 0 out
      (listedSlots fs'.rootCache max) (by
        rw [listedSlots, List.range_eq_range', Nat.sub_zero]),
    Nat.zero_add]

theorem platFsListInto_failed
    (hReady : (ensureReady fs).1 = false)
    (out : ByteMem)
    (max : Nat) :
    (platFsListInto fs out max).1 = (-1, out) := by
  unfold platFsListInto
  rcases hCall : ensureReady fs with ⟨ok, fs'⟩
  rw [hCall] at hReady
  cases hReady
  rfl

/- The listed files are those of the listed slots. -/
theorem listedFiles_eq_map
    (root : ByteMem)
    (max : Nat) :
    (listedFiles root).take max =
      (listedSlots root max).map (fileInfo root) := by
  have hFiles (l : List Nat) :
      l.flatMap (slotFiles root) =
        (l.filter (slotListed root)).map (fileInfo root) := by
    induction l with
    | nil => rfl
    | cons i l ih =>
        rw [List.flatMap_cons, ih, List.filter_cons]
        by_cases hListed : slotListed root i = true
        · have hLive :
              slotFree root i = false ∧
                slotDirectory root i = false := by
            simpa [slotListed] using hListed
          rw [if_pos hListed, slotFiles_of_live hLive]
          rfl
        · have hNone : slotFiles root i = [] := by
            rw [slotFiles, if_neg]
            rintro ⟨hFree, hDirectory⟩
            exact hListed (by simp [slotListed, hFree, hDirectory])
          rw [if_neg hListed, hNone]
          rfl
  rw [listedFiles, hFiles, ← List.map_take, listedSlots]

/- The array listing returns what the list of files does. -/
theorem platFsListInto_rc
    (fs : Fs)
    (out : ByteMem)
    (max : Nat) :
    (platFsListInto fs out max).1.1 = (platFsList fs max).1.1 := by
  cases hReady : (ensureReady fs).1 with
  | false =>
      rw [platFsListInto_failed hReady]
      unfold platFsList
      rcases hCall : ensureReady fs with ⟨ok, fs'⟩
      rw [hCall] at hReady
      cases hReady
      rfl
  | true =>
      rw [platFsListInto_ready hReady]
      unfold platFsList
      rcases hCall : ensureReady fs with ⟨ok, fs'⟩
      rw [hCall] at hReady
      cases hReady
      dsimp only
      rw [fatListLoop_eq, ← List.range_eq_range', ← listedFiles,
        Nat.sub_zero, listedFiles_eq_map, List.length_map]

/- Everything but the NUL of a full name is always right. -/
theorem listsFaithfully_iff_holds
    (out : ByteMem)
    (max : Nat) :
    ListsFaithfully fs out max ↔
      ((ensureReady fs).1 = true →
        ∀ n i,
          (listedSlots (ensureReady fs).2.rootCache max)[n]? =
              some i →
            HoldsFileInfo (platFsListInto fs out max).1.2 n
              (fileInfo (ensureReady fs).2.rootCache i)) := by
  constructor
  · exact fun hLists => hLists.holds
  · intro hHolds
    refine ⟨fun hFailed => platFsListInto_failed hFailed out max,
      fun hReady => ?_, hHolds, fun x hx => ?_⟩
    · rw [platFsListInto_ready hReady]
    · cases hReady : (ensureReady fs).1 with
      | false => rw [platFsListInto_failed hReady]
      | true =>
          have hLength :=
            listedSlots_length_le (ensureReady fs).2.rootCache max
          rw [platFsListInto_ready hReady]
          exact storeFiles_outside (Or.inr (by omega))

end Calls

/-
  A listing is faithful exactly when each of the first `max`
  live files has a space among its eleven name bytes.
-/
theorem listsFaithfully_iff
    (fs : Fs)
    (out : ByteMem)
    (max : Nat) :
    ListsFaithfully fs out max ↔
      (ensureReady fs).1 = false ∨
        ∀ i ∈ listedSlots (ensureReady fs).2.rootCache max,
          ∃ j < 11,
            (ensureReady fs).2.rootCache (32 * i + j) = 0x20 := by
  rw [listsFaithfully_iff_holds]
  cases hReady : (ensureReady fs).1 with
  | false => simp
  | true =>
      simp only [true_imp_iff, Bool.true_eq_false, false_or]
      rw [platFsListInto_ready hReady]
      constructor
      · intro hHolds i hi
        rcases List.getElem?_of_mem hi with ⟨n, hn⟩
        have hHere := hHolds n i hn
        rw [← Nat.zero_add n] at hHere
        exact (holdsFileInfo_storeFiles_iff _ _ _ hn).mp hHere
      · intro hSpace n i hn
        have hHere :=
          (holdsFileInfo_storeFiles_iff
            (ensureReady fs).2.rootCache out 0 hn).mpr
            (hSpace i (List.mem_of_getElem? hn))
        rwa [Nat.zero_add] at hHere

/- A volume with one file, `KERNELXY.BIN`. -/
def fullNameImage : ByteMem :=
  zeros.storeBlock (512 * 51) 11
    (ofList
      [0x4B, 0x45, 0x52, 0x4E, 0x45, 0x4C, 0x58, 0x59, 0x42,
        0x49, 0x4E])

/- Its name is stored without a NUL. -/
theorem not_listsFaithfully_fullName :
    ¬ ListsFaithfully (mountImage fullNameImage) zeros 1 := by
  have hMounted := mountImage_mounted fullNameImage
  intro hLists
  have hReady := ensureReady_mounted hMounted
  have hByte (j : Nat) (hj : j < 12) :
      (mountImage fullNameImage).rootCache (32 * 0 + j) =
        fullNameImage (512 * 51 + j) := by
    rw [mountImage_rootCache _ (by omega)]
    congr 1
    omega
  have hListed :
      slotListed (mountImage fullNameImage).rootCache 0 =
        true := by
    have hFirst := hByte 0 (by omega)
    have hAttr := hByte 11 (by omega)
    simp only [slotListed, slotFree, slotDirectory]
    rw [Nat.add_zero] at hFirst
    rw [hFirst, hAttr]
    decide
  have hSlot :
      (listedSlots (mountImage fullNameImage).rootCache 1)[0]? =
        some 0 := by
    rw [listedSlots, List.range_succ_eq_map, List.filter_cons,
      if_pos hListed, List.take_succ_cons,
      List.getElem?_cons_zero]
  have hHolds := hLists.holds (by rw [hReady]) 0 0 (by
    rw [hReady]
    exact hSlot)
  rw [platFsListInto_ready (by rw [hReady]), hReady] at hHolds
  dsimp only at hHolds
  rw [← Nat.zero_add 0] at hHolds
  obtain ⟨j, hj, hSpace⟩ :=
    (holdsFileInfo_storeFiles_iff _ _ _ hSlot).mp hHolds
  rw [hByte j (by omega)] at hSpace
  have hNone :
      ∀ j < 11, fullNameImage (512 * 51 + j) ≠ 0x20 := by
    decide
  exact hNone j hj hSpace

end Storage

end AsmOS
