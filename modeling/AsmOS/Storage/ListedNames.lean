import AsmOS.Storage.FailedWrite
import AsmOS.Storage.ListBuffer
import AsmOS.Storage.NameMap
import AsmOS.Storage.NameSplit

/-
  Opening files by their listed names.

  Every entry that the HAL makes has eight spaces and three
  characters for a name, and is listed as a dot and those
  characters up to the first space.  A space before another
  character is lost, and so is the file.

  Main declarations:
    * `Fs.directory`, `NamedBy`
    * `run_namedBy`, `after_namedBy`
    * `PlainEntry`, `PlainName`
    * `findEntry_listName_iff`
    * `listedReopens_iff`
-/

------------------------------------------------------------
-- Statements
------------------------------------------------------------

namespace AsmOS

namespace Storage

open ByteMem

/-
  The root directory that the next call works on: the cached
  one, or the one on the disk before the tables are loaded.
-/
def Fs.directory
    (fs : Fs) : ByteMem :=
  if fs.fsReady then fs.rootCache
  else fs.dev.image.view (512 * 51)

/- A directory without a live entry. -/
def EmptyDirectory
    (root : ByteMem) : Prop :=
  ∀ i < 224, slotFree root i = true

/-
  Every returned entry is the file of a slot, and its name is
  normalised to that of the same slot.
-/
def ListedReopen
    (fs : Fs) : Prop :=
  ∀ (max n : Nat) (file : FileInfo),
    (platFsList fs max).1.2[n]? = some file →
      ∃ i,
        (listedSlots (ensureReady fs).2.rootCache max)[n]? =
            some i ∧
          file = fileInfo (ensureReady fs).2.rootCache i ∧
          fatFindEntry (ensureReady fs).2.rootCache
            (fatNormalize file.name) = some i

/- In a plain field nothing but spaces follows a space. -/
def PlainField
    (field : List UInt8) : Prop :=
  ∀ (j k : Nat) (b : UInt8), j < k →
    field[j]? = some 0x20 → field[k]? = some b → b = 0x20

/- The extension of a slot is plain. -/
def PlainEntry
    (root : ByteMem)
    (i : Nat) : Prop :=
  PlainField (root.slice (32 * i + 8) 3)

/- The first three characters after a leading dot are plain. -/
def PlainName
    (name : List UInt8) : Prop :=
  PlainField ((skipDot (nameText name)).take 3)

/- The name that a call writes satisfies a condition. -/
def FsCall.Names
    (Q : List UInt8 → Prop) : FsCall → Prop
| .write name _ _ => Q name
| .delete _ => True

/- Live names are unique, and each is that of some file. -/
structure NamedBy
    (Q : List UInt8 → Prop)
    (root : ByteMem) : Prop where
  unique : UniqueNames root
  named :
    ∀ i < 224, slotListed root i = true →
      ∃ src, Q src ∧ slotName root i = fatNormalize src

------------------------------------------------------------
-- Directories Of A State
------------------------------------------------------------

section Directories

variable {fs : Fs}

/- Reads leave the disk as it is. -/
theorem readSectors_image
    (dev : Device)
    (lba : Nat)
    (cache : ByteMem)
    (n : Nat) :
    (readSectors dev lba cache n).2.2.image = dev.image := by
  induction n with
  | zero => rfl
  | succ n ih =>
      rw [readSectors]
      rcases hFirst : readSectors dev lba cache n with
        ⟨ok, cache', dev'⟩
      rw [hFirst] at ih
      cases ok with
      | false => exact ih
      | true =>
          dsimp only
          unfold fat12ReadSector
          by_cases hFails : dev'.readFails dev'.log.length = true
          · rw [if_pos hFails]
            exact ih
          · rw [if_neg hFails]
            exact ih

/- Reads that all succeed copy their sectors. -/
theorem readSectors_ok
    {dev : Device}
    {lba : Nat}
    {cache : ByteMem}
    {n : Nat}
    (hDone : (readSectors dev lba cache n).1 = true) :
    (readSectors dev lba cache n).2.1 =
      cache.storeBlock 0 (512 * n)
        (dev.image.view (512 * lba)) := by
  induction n with
  | zero => exact (storeBlock_zero _ _ _).symm
  | succ n ih =>
      have hImage := readSectors_image dev lba cache n
      rw [readSectors] at hDone ⊢
      rcases hFirst : readSectors dev lba cache n with
        ⟨ok, cache', dev'⟩
      rw [hFirst] at ih hImage hDone
      cases ok with
      | false => cases hDone
      | true =>
          dsimp only at ih hImage hDone ⊢
          unfold fat12ReadSector at hDone ⊢
          by_cases hFails : dev'.readFails dev'.log.length = true
          · rw [if_pos hFails] at hDone
            cases hDone
          · have hBlock :=
              storeBlock_append cache 0 (512 * n) 512
                (dev.image.view (512 * lba))
            rw [Nat.zero_add, view_view, ← Nat.mul_add,
              ← Nat.mul_succ] at hBlock
            rw [if_neg hFails]
            dsimp only
            rw [ih rfl, hImage, hBlock]

/-
  Whether the tables load or not, the directory of a state
  stays the same.
-/
theorem ensureReady_directory
    (fs : Fs) :
    (ensureReady fs).2.fsReady = (ensureReady fs).1 ∧
      AgreeOn (ensureReady fs).2.directory fs.directory 0
        7168 := by
  unfold ensureReady
  by_cases hReady : fs.fsReady = true
  · rw [if_pos hReady]
    exact ⟨hReady, AgreeOn.refl _ _ _⟩
  · rw [if_neg hReady]
    have hDisk : fs.directory = fs.dev.image.view (512 * 51) :=
      if_neg hReady
    have hFatImage :=
      readSectors_image fs.dev fatLba fs.fatCache fatSectors
    unfold platFsInit fatLoadTables
    rcases hFat :
      readSectors fs.dev fatLba fs.fatCache fatSectors with
      ⟨fatOk, fatCache, dev⟩
    rw [hFat] at hFatImage
    dsimp only at hFatImage ⊢
    cases fatOk with
    | false =>
        refine ⟨rfl, ?_⟩
        rw [hDisk, ← hFatImage]
        exact AgreeOn.refl _ _ _
    | true =>
        rw [if_pos rfl]
        have hRootImage :=
          readSectors_image dev fatRootLba fs.rootCache
            fatRootSectors
        have hLoad (hDone :
            (readSectors dev fatRootLba fs.rootCache
              fatRootSectors).1 = true) :=
          readSectors_ok hDone
        rcases hRoot :
          readSectors dev fatRootLba fs.rootCache
            fatRootSectors with ⟨rootOk, rootCache, dev'⟩
        rw [hRoot] at hRootImage hLoad
        dsimp only at hRootImage hLoad ⊢
        cases rootOk with
        | false =>
            refine ⟨rfl, ?_⟩
            rw [hDisk, ← hFatImage, ← hRootImage]
            exact AgreeOn.refl _ _ _
        | true =>
            refine ⟨rfl, fun x _ hx => ?_⟩
            rw [hDisk, ← hFatImage]
            unfold Fs.directory
            rw [if_pos rfl]
            dsimp only
            rw [hLoad rfl, storeBlock_inside (by omega) (by omega),
              Nat.sub_zero]

/- The tables that were loaded are the directory. -/
theorem directory_of_ready
    (hReady : (ensureReady fs).1 = true) :
    (ensureReady fs).2.directory =
      (ensureReady fs).2.rootCache := by
  have hFlag := (ensureReady_directory fs).1
  rw [hReady] at hFlag
  exact if_pos hFlag

end Directories

------------------------------------------------------------
-- Named Directories
------------------------------------------------------------

section Named

variable {Q : List UInt8 → Prop}
variable {root root' : ByteMem}
variable {name name83 : List UInt8}
variable {slot i : Nat}

theorem slotAgree_of_agreeOn
    (hAgree : AgreeOn root root' 0 7168)
    (hi : i < 224) :
    SlotAgree root root' i :=
  hAgree.mono (Nat.zero_le _) (by omega)

theorem SlotAgree.listed_eq
    (hAgree : SlotAgree root root' i) :
    slotListed root i = slotListed root' i := by
  unfold slotListed
  rw [hAgree.free_eq, hAgree.directory_eq]

/- A listed slot is found under its own name. -/
theorem slotMatches_own
    (hListed : slotListed root i = true) :
    slotMatches root (slotName root i) i = true := by
  unfold slotListed at hListed
  simp [slotMatches, hListed]

theorem NamedBy.congr
    (hNamed : NamedBy Q root')
    (hAgree : AgreeOn root root' 0 7168) :
    NamedBy Q root := by
  refine ⟨fun name83 i j hi hj hFirst hSecond => ?_,
    fun i hi hListed => ?_⟩
  · have hSlot := slotAgree_of_agreeOn hAgree hi
    have hSlot' := slotAgree_of_agreeOn hAgree hj
    rw [hSlot.matches_eq] at hFirst
    rw [hSlot'.matches_eq] at hSecond
    exact hNamed.unique name83 i j hi hj hFirst hSecond
  · have hSlot := slotAgree_of_agreeOn hAgree hi
    rw [hSlot.listed_eq] at hListed
    rw [hSlot.name_eq]
    exact hNamed.named i hi hListed

theorem namedBy_of_empty
    (hEmpty : EmptyDirectory root) :
    NamedBy Q root := by
  refine ⟨fun name83 i j hi hj hFirst hSecond => ?_,
    fun i hi hListed => ?_⟩
  · rw [slotMatches_of_free (hEmpty i hi)] at hFirst
    cases hFirst
  · simp [slotListed, hEmpty i hi] at hListed

/- A written name is that of its slot. -/
theorem NamedBy.written
    (hNamed : NamedBy Q root)
    (hName : Q name)
    (hWrite :
      writeSlot root (fatNormalize name) = some (slot, root'))
    (size : Nat) :
    NamedBy Q (sizeSlot root' slot size) := by
  refine ⟨hNamed.unique.written hWrite size,
    fun i hi hListed => ?_⟩
  by_cases hSlot : i = slot
  · subst hSlot
    exact ⟨name, hName,
      slotName_of_matches (slotMatches_written hWrite size)⟩
  · have hAgree : SlotAgree (sizeSlot root' slot size) root i :=
      slotAgree_written hSlot hWrite
    rw [hAgree.listed_eq] at hListed
    rw [hAgree.name_eq]
    exact hNamed.named i hi hListed

theorem NamedBy.deleted
    (hNamed : NamedBy Q root)
    (hFind : fatFindEntry root name83 = some slot) :
    NamedBy Q (root.storeByte (32 * slot) 0xE5) := by
  refine ⟨hNamed.unique.deleted hFind, fun i hi hListed => ?_⟩
  by_cases hSlot : i = slot
  · subst hSlot
    simp [slotListed] at hListed
  · have hAgree := slotAgree_deleted root slot hSlot
    rw [hAgree.listed_eq] at hListed
    rw [hAgree.name_eq]
    exact hNamed.named i hi hListed

end Named

------------------------------------------------------------
-- Runs
------------------------------------------------------------

section Runs

variable {Q : List UInt8 → Prop}
variable {fs : Fs}

/- One call on loaded tables. -/
theorem run_namedBy_ready
    (hReady : fs.fsReady = true)
    (hNamed : NamedBy Q fs.rootCache)
    (call : FsCall)
    (hCall : call.Names Q) :
    NamedBy Q (call.run fs).directory := by
  have hSame : NamedBy Q fs.directory := by
    rw [Fs.directory, if_pos hReady]
    exact hNamed
  have hWrote (root : ByteMem) (ws : List (Nat × ByteMem)) :
      (fs.wrote root ws).directory = root :=
    if_pos hReady
  cases call with
  | write name data size =>
      rw [FsCall.run]
      cases hSlot : writeSlot fs.rootCache (fatNormalize name) with
      | none =>
          rw [platFsWrite_ready_none hReady hSlot]
          exact hSame
      | some target =>
          rcases target with ⟨slot, root⟩
          rw [platFsWrite_ready hReady hSlot, hWrote]
          exact hNamed.written hCall hSlot size.toNat
  | delete name =>
      rw [FsCall.run]
      cases hFind : readSlot fs name with
      | none =>
          rw [platFsDelete_ready_none hReady hFind]
          exact hSame
      | some slot =>
          rw [platFsDelete_ready hReady hFind, hWrote]
          exact hNamed.deleted hFind

/- A call works on what `ensureReady` leaves, or fails on it. -/
theorem run_of_ensureReady
    (call : FsCall) :
    call.run fs =
      if (ensureReady fs).1 = true then
        call.run (ensureReady fs).2
      else (ensureReady fs).2 := by
  have hFlag := (ensureReady_directory fs).1
  rcases hLoad : ensureReady fs with ⟨ok, fs'⟩
  rw [hLoad] at hFlag
  cases ok with
  | false =>
      cases call with
      | write name data size =>
          simp [FsCall.run, platFsWrite, hLoad]
      | delete name =>
          simp [FsCall.run, platFsDelete, hLoad]
  | true =>
      have hAgain := ensureReady_ready hFlag
      cases call with
      | write name data size =>
          simp [FsCall.run, platFsWrite, hLoad, hAgain]
      | delete name =>
          simp [FsCall.run, platFsDelete, hLoad, hAgain]

/- A call keeps a named directory, whatever I/O fails. -/
theorem run_namedBy
    (hNamed : NamedBy Q fs.directory)
    (call : FsCall)
    (hCall : call.Names Q) :
    NamedBy Q (call.run fs).directory := by
  rcases ensureReady_directory fs with ⟨hFlag, hAgree⟩
  have hLoaded := hNamed.congr hAgree
  rw [run_of_ensureReady]
  by_cases hReady : (ensureReady fs).1 = true
  · rw [if_pos hReady]
    rw [directory_of_ready hReady] at hLoaded
    exact run_namedBy_ready (hFlag.trans hReady) hLoaded call
      hCall
  · rw [if_neg hReady]
    exact hLoaded

theorem after_namedBy
    (hNamed : NamedBy Q fs.directory)
    (calls : List FsCall)
    (hCalls : ∀ call ∈ calls, call.Names Q) :
    NamedBy Q (fs.after calls).directory := by
  induction calls generalizing fs with
  | nil => exact hNamed
  | cons call calls ih =>
      rw [List.forall_mem_cons] at hCalls
      exact ih (run_namedBy hNamed call hCalls.1) hCalls.2

end Runs

------------------------------------------------------------
-- Extensions
------------------------------------------------------------

section Extensions

/- Upper-casing twice is upper-casing once. -/
theorem upper_upper
    (c : UInt8) :
    upper (upper c) = upper c := by
  unfold upper
  by_cases hLower : 0x61 ≤ c ∧ c ≤ 0x7A
  · rw [if_pos hLower, if_neg]
    rintro ⟨hLo, hHi⟩
    rcases hLower with ⟨hLo', hHi'⟩
    rw [UInt8.le_iff_toNat_le] at hLo hHi hLo' hHi'
    have hSub : (c - 32).toNat = c.toNat - 32 :=
      UInt8.toNat_sub_of_le c 32 (by
        rw [UInt8.le_iff_toNat_le]
        exact le_trans (by decide) hLo')
    have hFirst : (0x61 : UInt8).toNat = 97 := rfl
    have hLast : (0x7A : UInt8).toNat = 122 := rfl
    rw [hSub] at hLo
    omega
  · rw [if_neg hLower, if_neg hLower]

/- Cutting a field at its first space and padding it again. -/
theorem padSpaces_takeWhile_iff
    (field : List UInt8)
    {n : Nat}
    (hLength : field.length = n) :
    padSpaces n (field.takeWhile fun c => c ≠ 0x20) = field ↔
      PlainField field := by
  induction field generalizing n with
  | nil =>
      subst hLength
      simp [padSpaces, PlainField]
  | cons c field ih =>
      subst hLength
      by_cases hSpace : c = 0x20
      · subst hSpace
        rw [List.takeWhile_cons_of_neg (by decide)]
        have hPad :
            padSpaces (0x20 :: field).length [] =
              0x20 :: List.replicate field.length 0x20 := rfl
        rw [hPad, List.cons_inj_right, eq_comm,
          List.eq_replicate_iff]
        constructor
        · rintro ⟨_, hAll⟩ j k b hjk _ hk
          obtain ⟨k, rfl⟩ : ∃ k', k = k' + 1 := ⟨k - 1, by omega⟩
          rw [List.getElem?_cons_succ] at hk
          exact hAll b (List.mem_of_getElem? hk)
        · intro hPlain
          refine ⟨rfl, fun b hb => ?_⟩
          rcases List.getElem?_of_mem hb with ⟨k, hk⟩
          exact hPlain 0 (k + 1) b (by omega) rfl hk
      · have hPad :
            padSpaces (c :: field).length
                (c :: field.takeWhile fun c => c ≠ 0x20) =
              c :: padSpaces field.length
                (field.takeWhile fun c => c ≠ 0x20) := by
          simp [padSpaces]
        rw [List.takeWhile_cons_of_pos (by simpa using hSpace),
          hPad, List.cons_inj_right, ih rfl]
        constructor
        · intro hPlain j k b hjk hj hk
          cases j with
          | zero => exact absurd (Option.some.inj hj) hSpace
          | succ j =>
              obtain ⟨k, rfl⟩ : ∃ k', k = k' + 1 :=
                ⟨k - 1, by omega⟩
              exact hPlain j k b (by omega) hj hk
        · intro hPlain j k b hjk hj hk
          exact hPlain (j + 1) (k + 1) b (by omega) hj hk

/- A field made from a plain text is plain. -/
theorem plainField_upperField
    {text : List UInt8}
    (hPlain : PlainField (text.take 3)) :
    PlainField (upperField 3 text) := by
  intro j k b hjk hj hk
  unfold upperField padSpaces at hj hk
  by_cases hText : k < (text.take 3).length
  · rw [List.getElem?_append_left (by
      rw [List.length_map]
      omega), List.getElem?_map, Option.map_eq_some_iff] at hj hk
    rcases hj with ⟨c, hc, hUpper⟩
    rcases hk with ⟨d, hd, rfl⟩
    rw [upper_eq_space_iff] at hUpper ⊢
    subst hUpper
    exact hPlain j k d hjk hc hd
  · rw [List.getElem?_append_right (by
      rw [List.length_map]
      omega)] at hk
    exact List.eq_of_mem_replicate (List.mem_of_getElem? hk)

/- The characters of a field are upper-cased already. -/
theorem upperField_upper
    {text : List UInt8}
    {n : Nat}
    {b : UInt8}
    (hb : b ∈ upperField n text) :
    upper b = b := by
  rcases List.mem_append.mp hb with hText | hPad
  · rcases List.mem_map.mp hText with ⟨c, _, rfl⟩
    exact upper_upper c
  · rw [List.eq_of_mem_replicate hPad]
    rfl

theorem mem_nameText_ne_zero
    {src : List UInt8}
    {c : UInt8}
    (hc : c ∈ nameText src) :
    c ≠ 0 := by
  simpa using List.mem_takeWhile_imp hc

theorem mem_skipDot
    {src : List UInt8}
    {c : UInt8}
    (hc : c ∈ skipDot src) :
    c ∈ src := by
  cases src with
  | nil => exact hc
  | cons d src =>
      rw [skipDot] at hc
      split at hc
      · exact List.mem_cons_of_mem d hc
      · exact hc

theorem upperField_ne_zero
    {src : List UInt8}
    {n : Nat}
    {b : UInt8}
    (hb : b ∈ upperField n (skipDot (nameText src))) :
    b ≠ 0 := by
  rcases List.mem_append.mp hb with hText | hPad
  · rcases List.mem_map.mp hText with ⟨c, hc, rfl⟩
    rw [Ne, upper_eq_iff c (by decide) (by decide)]
    exact mem_nameText_ne_zero (mem_skipDot (List.mem_of_mem_take hc))
  · rw [List.eq_of_mem_replicate hPad]
    decide

end Extensions

------------------------------------------------------------
-- Listed Names
------------------------------------------------------------

section Listed

variable {root : ByteMem}
variable {i : Nat}
variable {src : List UInt8}

/- The bytes of a slot that a file's name was stored in. -/
theorem slot_fields
    (hName : slotName root i = fatNormalize src) :
    root.slice (32 * i) 8 = List.replicate 8 0x20 ∧
      root.slice (32 * i + 8) 3 =
        upperField 3 (skipDot (nameText src)) := by
  rw [fatNormalize_text, slotName, ← slice_append _ _ 8 3] at hName
  exact List.append_inj hName (by
    rw [slice_length, List.length_replicate])

/- Such a slot is listed by a dot and its extension. -/
theorem skipDot_listName
    (hName : slotName root i = fatNormalize src) :
    skipDot (nameText (listName root i)) =
      (root.slice (32 * i + 8) 3).takeWhile fun c =>
        c ≠ 0x20 := by
  rcases slot_fields hName with ⟨hBase, hExt⟩
  have hNoBase :
      ((root.slice (32 * i) 8).takeWhile fun c => c ≠ 0x20) =
        [] := by
    rw [hBase]
    rfl
  unfold listName
  rw [hNoBase]
  dsimp only
  by_cases hDot : root (32 * i + 8) ≠ 0x20
  · rw [if_pos hDot, List.nil_append]
    have hText :
        nameText
            (0x2E ::
              (root.slice (32 * i + 8) 3).takeWhile fun c =>
                c ≠ 0x20) =
          0x2E ::
            (root.slice (32 * i + 8) 3).takeWhile fun c =>
              c ≠ 0x20 := by
      refine List.takeWhile_eq_self_iff.mpr fun c hc => ?_
      rcases List.mem_cons.mp hc with rfl | hField
      · decide
      · have hMember :=
          (List.takeWhile_prefix _).subset hField
        rw [hExt] at hMember
        simpa using upperField_ne_zero hMember
    rw [hText, skipDot, if_pos rfl]
  · rw [if_neg hDot]
    rw [not_not] at hDot
    rw [slice_succ, hDot, List.takeWhile_cons_of_neg (by decide)]
    rfl

/- The listed name gives the slot's name for a plain entry. -/
theorem fatNormalize_listName_iff
    (hName : slotName root i = fatNormalize src) :
    fatNormalize (listName root i) = slotName root i ↔
      PlainEntry root i := by
  rcases slot_fields hName with ⟨hBase, hExt⟩
  have hSplit :
      slotName root i =
        List.replicate 8 0x20 ++ root.slice (32 * i + 8) 3 := by
    rw [← hBase, slice_append]
    rfl
  have hField :
      upperField 3
          ((root.slice (32 * i + 8) 3).takeWhile fun c =>
            c ≠ 0x20) =
        padSpaces 3
          ((root.slice (32 * i + 8) 3).takeWhile fun c =>
            c ≠ 0x20) := by
    have hLength :=
      takeWhile_length_le (root.slice (32 * i + 8) 3)
    rw [slice_length] at hLength
    rw [upperField, List.take_of_length_le hLength]
    congr 1
    refine (List.map_congr_left fun c hc => ?_).trans
      (List.map_id _)
    have hMember := (List.takeWhile_prefix _).subset hc
    rw [hExt] at hMember
    exact upperField_upper hMember
  rw [fatNormalize_text, skipDot_listName hName, hField, hSplit,
    List.append_cancel_left_eq,
    padSpaces_takeWhile_iff _ (slice_length _ _ _)]
  rfl

/- With unique names a listed slot is found by its own name. -/
theorem findEntry_slotName
    (hUnique : UniqueNames root)
    (hi : i < 224)
    (hListed : slotListed root i = true) :
    fatFindEntry root (slotName root i) = some i := by
  have hOwn := slotMatches_own hListed
  refine fatFindEntry_eq_some_iff.mpr ⟨hi, hOwn, fun j hj => ?_⟩
  rw [Bool.eq_false_iff]
  intro hMatch
  have hSame :=
    hUnique _ j i (by omega) hi hMatch hOwn
  omega

/- A listed name finds its slot exactly for a plain entry. -/
theorem findEntry_listName_iff
    (hUnique : UniqueNames root)
    (hi : i < 224)
    (hListed : slotListed root i = true)
    (hName : slotName root i = fatNormalize src) :
    fatFindEntry root (fatNormalize (listName root i)) = some i ↔
      PlainEntry root i := by
  rw [← fatNormalize_listName_iff hName]
  constructor
  · intro hFind
    exact (slotName_of_matches
      (fatFindEntry_eq_some_iff.mp hFind).2.1).symm
  · intro hSame
    rw [hSame]
    exact findEntry_slotName hUnique hi hListed

theorem mem_listedSlots
    {max : Nat}
    (hMember : i ∈ listedSlots root max) :
    i < 224 ∧ slotListed root i = true := by
  have hFilter := List.mem_of_mem_take hMember
  rw [List.mem_filter, List.mem_range] at hFilter
  exact hFilter

/- All listed slots are within the first 224. -/
theorem listedSlots_all
    (hi : i < 224)
    (hListed : slotListed root i = true) :
    i ∈ listedSlots root 224 := by
  rw [listedSlots, List.take_of_length_le]
  · exact List.mem_filter.mpr ⟨List.mem_range.mpr hi, hListed⟩
  · have hLength :=
      List.length_filter_le (slotListed root) (List.range 224)
    rwa [List.length_range] at hLength

end Listed

------------------------------------------------------------
-- Reopening
------------------------------------------------------------

section Reopening

variable {fs : Fs}
variable {Q : List UInt8 → Prop}

/- What a listing returns, with its tables loaded or not. -/
theorem platFsList_files
    (fs : Fs)
    (max : Nat) :
    (platFsList fs max).1.2 =
      if (ensureReady fs).1 = true then
        (listedSlots (ensureReady fs).2.rootCache max).map
          (fileInfo (ensureReady fs).2.rootCache)
      else [] := by
  unfold platFsList
  rcases ensureReady fs with ⟨ok, fs'⟩
  cases ok with
  | false => rfl
  | true =>
      dsimp only
      rw [if_pos rfl, fatListLoop_eq, ← List.range_eq_range',
        ← listedFiles, Nat.sub_zero, listedFiles_eq_map]

/- Reopening in one state of named entries. -/
theorem listedReopen_named_iff
    (hNamed : NamedBy Q fs.directory) :
    ListedReopen fs ↔
      (ensureReady fs).1 = false ∨
        ∀ i < 224, slotListed fs.directory i = true →
          PlainEntry fs.directory i := by
  have hAgree := (ensureReady_directory fs).2
  have hLoaded := hNamed.congr hAgree
  cases hReady : (ensureReady fs).1 with
  | false =>
      refine iff_of_true (fun max n file hFile => ?_)
        (Or.inl rfl)
      rw [platFsList_files, hReady,
        if_neg Bool.false_ne_true] at hFile
      cases hFile
  | true =>
      rw [directory_of_ready hReady] at hLoaded hAgree
      have hPlain (i : Nat) (hi : i < 224) :
          (slotListed fs.directory i = true →
              PlainEntry fs.directory i) ↔
            (slotListed (ensureReady fs).2.rootCache i = true →
              PlainEntry (ensureReady fs).2.rootCache i) := by
        have hSlot := slotAgree_of_agreeOn hAgree hi
        have hField :
            (ensureReady fs).2.rootCache.slice (32 * i + 8) 3 =
              fs.directory.slice (32 * i + 8) 3 :=
          slice_congr fun j hj => hSlot _ (by omega) (by omega)
        rw [hSlot.listed_eq, PlainEntry, PlainEntry, hField]
      simp only [Bool.true_eq_false, false_or]
      rw [forall₂_congr hPlain]
      unfold ListedReopen
      simp only [platFsList_files, hReady, if_true]
      generalize (ensureReady fs).2.rootCache = root at hLoaded ⊢
      constructor
      · intro hReopen i hi hListed
        rcases List.getElem?_of_mem (listedSlots_all hi hListed) with
          ⟨n, hn⟩
        rcases hReopen 224 n (fileInfo root i) (by
          rw [List.getElem?_map, hn]
          rfl) with ⟨i', hi', _, hFind⟩
        have hSame : i' = i := by
          rw [hn] at hi'
          exact (Option.some.inj hi').symm
        subst hSame
        rcases hLoaded.named i' hi hListed with ⟨src, _, hName⟩
        exact (findEntry_listName_iff hLoaded.unique hi hListed
          hName).mp hFind
      · intro hAll max n file hFile
        rw [List.getElem?_map, Option.map_eq_some_iff] at hFile
        rcases hFile with ⟨i, hn, rfl⟩
        rcases mem_listedSlots (List.mem_of_getElem? hn) with
          ⟨hi, hListed⟩
        rcases hLoaded.named i hi hListed with ⟨src, _, hName⟩
        exact ⟨i, hn, rfl,
          (findEntry_listName_iff hLoaded.unique hi hListed
            hName).mpr (hAll i hi hListed)⟩

/- An entry made from a plain name is plain. -/
theorem NamedBy.plain
    {root : ByteMem}
    (hNamed : NamedBy PlainName root)
    {i : Nat}
    (hi : i < 224)
    (hListed : slotListed root i = true) :
    PlainEntry root i := by
  rcases hNamed.named i hi hListed with ⟨src, hPlain, hName⟩
  rw [PlainEntry, (slot_fields hName).2]
  exact plainField_upperField hPlain

end Reopening

/-
  From an empty directory, after any writes and deletes with
  any I/O failures, the listed files can be opened exactly
  when all entries are plain; and they always can when every
  name that was written is plain.
-/
theorem listedReopen_iff
    (fs : Fs)
    (hEmpty : EmptyDirectory fs.directory)
    (calls : List FsCall) :
    (ListedReopen (fs.after calls) ↔
      (ensureReady (fs.after calls)).1 = false ∨
        ∀ i < 224,
          slotListed (fs.after calls).directory i = true →
            PlainEntry (fs.after calls).directory i) ∧
    ((∀ call ∈ calls, call.Names PlainName) →
      ListedReopen (fs.after calls)) := by
  have hAny (call : FsCall) : call.Names fun _ => True := by
    cases call <;> trivial
  have hNamed : NamedBy (fun _ => True) fs.directory :=
    namedBy_of_empty hEmpty
  have hIff :=
    listedReopen_named_iff
      (after_namedBy hNamed calls fun call _ => hAny call)
  refine ⟨hIff, fun hCalls => hIff.mpr (Or.inr ?_)⟩
  intro i hi hListed
  have hPlain : NamedBy PlainName fs.directory :=
    namedBy_of_empty hEmpty
  exact (after_namedBy hPlain calls hCalls).plain hi hListed

theorem mountImage_zeros_empty :
    EmptyDirectory (mountImage zeros).directory := by
  intro i _
  rw [Fs.directory, if_pos (mountImage_mounted zeros).ready,
    mountImage_zeros_rootCache]
  simp [slotFree]

/- A file `A.TXT` on a blank volume. -/
theorem listedReopen_one :
    (ListedReopen
        ((mountImage zeros).after
          [.write [0x41, 0x2E, 0x54, 0x58, 0x54] zeros 1]) ↔
      (ensureReady
          ((mountImage zeros).after
            [.write [0x41, 0x2E, 0x54, 0x58, 0x54] zeros
              1])).1 = false ∨
        ∀ i < 224,
          slotListed
              ((mountImage zeros).after
                [.write [0x41, 0x2E, 0x54, 0x58, 0x54] zeros
                  1]).directory i = true →
            PlainEntry
              ((mountImage zeros).after
                [.write [0x41, 0x2E, 0x54, 0x58, 0x54] zeros
                  1]).directory i) ∧
    ((∀ call ∈
        [FsCall.write [0x41, 0x2E, 0x54, 0x58, 0x54] zeros 1],
        call.Names PlainName) →
      ListedReopen
        ((mountImage zeros).after
          [.write [0x41, 0x2E, 0x54, 0x58, 0x54] zeros 1])) :=
  listedReopen_iff (mountImage zeros) mountImage_zeros_empty
    [.write [0x41, 0x2E, 0x54, 0x58, 0x54] zeros 1]

/- The file `A B` is listed as `.A`, and is not found so. -/
theorem not_listedReopen_space :
    ¬ ListedReopen
      ((mountImage zeros).after
        [.write [0x41, 0x20, 0x42] zeros 0]) := by
  have hMounted := mountImage_mounted zeros
  have hState :
      (mountImage zeros).after
          [.write [0x41, 0x20, 0x42] zeros 0] =
        written (mountImage zeros)
          (sizeSlot
            (nameSlot zeros 0 (fatNormalize [0x41, 0x20, 0x42]))
            0 0) zeros 0 := by
    simp only [Fs.after, FsCall.run]
    rw [platFsWrite_reliable hMounted, mountImage_zeros_rootCache,
      writeSlot_zeros]
    rfl
  have hAny (call : FsCall) : call.Names fun _ => True := by
    cases call <;> trivial
  have hNamed : NamedBy (fun _ => True) (mountImage zeros).directory :=
    namedBy_of_empty mountImage_zeros_empty
  rw [listedReopen_named_iff
    (after_namedBy hNamed _ fun call _ => hAny call), hState]
  have hMounted' := written_mounted hMounted
    (sizeSlot
      (nameSlot zeros 0 (fatNormalize [0x41, 0x20, 0x42])) 0 0)
    zeros 0
  rw [ensureReady_mounted hMounted', Fs.directory,
    if_pos hMounted'.ready]
  rintro (hFailed | hPlain)
  · cases hFailed
  · have hEntry := hPlain 0 (by omega) (by decide)
    exact absurd (hEntry 1 2 0x42 (by omega) (by decide) (by decide))
      (by decide)

end Storage

end AsmOS
