import AsmOS.Storage.Hal
import Mathlib.Data.List.Find

/-
  Directory slots under the updates of the HAL.

  Main declarations:
    * `fatNormalize_eq`, `fatNormalize_length`
    * `SlotAgree`
    * `slotMatches_sizeSlot`
    * `fatFindEntry_nameSlot_self`
    * `fatFindEntry_nameSlot_of_ne`
    * `writeSlot_cases`
    * `findEntry_written`
    * `findEntry_written_of_ne`
-/

------------------------------------------------------------
-- Normalized Names
------------------------------------------------------------

namespace AsmOS

namespace Storage

open ByteMem

theorem normalizeExtension_length
    (src : List UInt8)
    (j : Nat)
    (hj : j ≤ 11) :
    (normalizeExtension src j).length ≤ 11 - j := by
  induction src generalizing j with
  | nil => simp [normalizeExtension]
  | cons c src ih =>
      by_cases hLoop : c ≠ 0 ∧ j < 11
      · have hRest := ih (j + 1) (by omega)
        rw [normalizeExtension, if_pos hLoop]
        simp only [List.length_cons]
        omega
      · rw [normalizeExtension, if_neg hLoop]
        simp

/- From column 8 on no base name is read. -/
theorem normalizeBase_full
    (src : List UInt8) :
    normalizeBase src 8 = ([], src) := by
  cases src with
  | nil => rfl
  | cons c src => simp [normalizeBase]

/- An 8.3 name is eight spaces and up to three characters. -/
theorem fatNormalize_eq
    (src : List UInt8) :
    fatNormalize src =
      List.replicate 8 0x20 ++
        padSpaces 3 (normalizeExtension (skipDot src) 8) := by
  simp [fatNormalize, normalizeBase_full, padSpaces]

/- Every 8.3 name has eleven bytes. -/
@[simp] theorem fatNormalize_length
    (src : List UInt8) :
    (fatNormalize src).length = 11 := by
  have hExt :=
    normalizeExtension_length (skipDot src) 8 (by omega)
  simp only [fatNormalize_eq, padSpaces, List.length_append,
    List.length_replicate]
  omega

/- An 8.3 name neither is empty nor looks deleted. -/
@[simp] theorem fatNormalize_head
    (src : List UInt8) :
    (fatNormalize src).getD 0 0 = 0x20 := by
  rw [fatNormalize_eq]
  rfl

------------------------------------------------------------
-- Slots That Agree
------------------------------------------------------------

/- Two root caches hold the same record in slot `i`. -/
def SlotAgree
    (root root' : ByteMem)
    (i : Nat) : Prop :=
  AgreeOn root root' (32 * i) (32 * i + 32)

section Agree

variable {root root' : ByteMem} {i : Nat}

theorem SlotAgree.free_eq
    (hAgree : SlotAgree root root' i) :
    slotFree root i = slotFree root' i := by
  unfold slotFree
  rw [hAgree (32 * i) (by omega) (by omega)]

theorem SlotAgree.directory_eq
    (hAgree : SlotAgree root root' i) :
    slotDirectory root i = slotDirectory root' i := by
  unfold slotDirectory
  rw [hAgree (32 * i + 11) (by omega) (by omega)]

theorem SlotAgree.name_eq
    (hAgree : SlotAgree root root' i) :
    slotName root i = slotName root' i :=
  slice_congr fun j hj =>
    hAgree (32 * i + j) (by omega) (by omega)

theorem SlotAgree.cluster_eq
    (hAgree : SlotAgree root root' i) :
    slotCluster root i = slotCluster root' i :=
  AgreeOn.load16_eq hAgree (by omega) (by omega)

theorem SlotAgree.size_eq
    (hAgree : SlotAgree root root' i) :
    slotSize root i = slotSize root' i :=
  AgreeOn.load32_eq hAgree (by omega) (by omega)

theorem SlotAgree.matches_eq
    (hAgree : SlotAgree root root' i)
    (name83 : List UInt8) :
    slotMatches root name83 i =
      slotMatches root' name83 i := by
  unfold slotMatches
  rw [hAgree.free_eq, hAgree.directory_eq, hAgree.name_eq]

end Agree

------------------------------------------------------------
-- Size And Cluster Stores
------------------------------------------------------------

section Stores

variable (root : ByteMem)
variable (slot size : Nat)

/- A write's size stores touch bytes 26 to 31 of its slot. -/
theorem sizeSlot_outside
    {x : Nat}
    (hOut : x < 32 * slot + 26 ∨ 32 * slot + 32 ≤ x) :
    sizeSlot root slot size x = root x := by
  unfold sizeSlot
  rw [store16_outside _ _ (by omega),
    store32_outside _ _ (by omega)]

theorem sizeSlot_agree
    {i : Nat}
    (hNe : i ≠ slot) :
    SlotAgree (sizeSlot root slot size) root i := by
  intro x hLo hHi
  exact sizeSlot_outside root slot size (by omega)

@[simp] theorem slotCluster_sizeSlot :
    slotCluster (sizeSlot root slot size) slot = 2 := by
  simp [slotCluster, sizeSlot]

@[simp] theorem slotSize_sizeSlot :
    slotSize (sizeSlot root slot size) slot =
      size % 2 ^ 32 := by
  unfold slotSize sizeSlot
  rw [store16, load32_storeBlock_of_disjoint (by omega)]
  exact load32_store32 _ _ _

@[simp] theorem slotFree_sizeSlot
    (i : Nat) :
    slotFree (sizeSlot root slot size) i =
      slotFree root i := by
  unfold slotFree
  rw [sizeSlot_outside _ _ _ (by omega)]

@[simp] theorem slotDirectory_sizeSlot
    (i : Nat) :
    slotDirectory (sizeSlot root slot size) i =
      slotDirectory root i := by
  unfold slotDirectory
  rw [sizeSlot_outside _ _ _ (by omega)]

@[simp] theorem slotName_sizeSlot
    (i : Nat) :
    slotName (sizeSlot root slot size) i =
      slotName root i :=
  slice_congr fun j hj =>
    sizeSlot_outside _ _ _ (by omega)

/- The size stores change no lookup. -/
@[simp] theorem slotMatches_sizeSlot
    (name83 : List UInt8)
    (i : Nat) :
    slotMatches (sizeSlot root slot size) name83 i =
      slotMatches root name83 i := by
  simp [slotMatches]

@[simp] theorem fatFindEntry_sizeSlot
    (name83 : List UInt8) :
    fatFindEntry (sizeSlot root slot size) name83 =
      fatFindEntry root name83 :=
  List.find?_congr fun i _ =>
    slotMatches_sizeSlot root slot size name83 i

end Stores

------------------------------------------------------------
-- Name Stores
------------------------------------------------------------

section Names

variable (root : ByteMem) (slot : Nat)
variable {name83 : List UInt8}

/- Naming a slot touches its first twelve bytes. -/
theorem nameSlot_outside
    {x : Nat}
    (hOut : x < 32 * slot ∨ 32 * slot + 12 ≤ x) :
    nameSlot root slot name83 x = root x := by
  unfold nameSlot
  rw [storeByte_of_ne _ _ (by omega),
    storeBlock_outside (by omega)]

theorem nameSlot_agree
    {i : Nat}
    (hNe : i ≠ slot) :
    SlotAgree (nameSlot root slot name83) root i := by
  intro x hLo hHi
  exact nameSlot_outside root slot (by omega)

theorem nameSlot_byte
    (j : Nat)
    (hj : j < 11) :
    nameSlot root slot name83 (32 * slot + j) =
      name83.getD j 0 := by
  unfold nameSlot
  rw [storeByte_of_ne _ _ (by omega),
    storeBlock_inside (by omega) (by omega)]
  simp [ofList]

theorem slotName_nameSlot
    (hLength : name83.length = 11) :
    slotName (nameSlot root slot name83) slot = name83 := by
  apply List.ext_getElem (by simp [slotName, hLength])
  intro j hj hj'
  have hEleven : j < 11 := by omega
  simp only [slotName, slice, List.getElem_map,
    List.getElem_range]
  rw [nameSlot_byte root slot j hEleven]
  simp [List.getD, hj']

theorem slotDirectory_nameSlot :
    slotDirectory (nameSlot root slot name83) slot =
      false := by
  simp only [slotDirectory, nameSlot, storeByte_self]
  decide

theorem slotFree_nameSlot :
    slotFree (nameSlot root slot name83) slot =
      (name83.getD 0 0 = 0 || name83.getD 0 0 = 0xE5) := by
  have hByte :
      nameSlot root slot name83 (32 * slot) =
        name83.getD 0 0 :=
    nameSlot_byte root slot 0 (by omega)
  simp only [slotFree, hByte]

end Names

------------------------------------------------------------
-- Lookups After A Store
------------------------------------------------------------

section Lookups

variable {root : ByteMem} {slot : Nat}
variable {name83 other : List UInt8}

theorem fatFindEntry_eq_some_iff :
    fatFindEntry root name83 = some slot ↔
      slot < 224 ∧ slotMatches root name83 slot = true ∧
        ∀ i < slot, slotMatches root name83 i = false := by
  unfold fatFindEntry
  rw [List.find?_range_eq_some]
  simp only [List.mem_range, Bool.not_eq_true', fatRootEntries]
  tauto

theorem fatFindEntry_eq_none_iff :
    fatFindEntry root name83 = none ↔
      ∀ i < 224, slotMatches root name83 i = false := by
  unfold fatFindEntry
  rw [List.find?_range_eq_none]
  simp only [Bool.not_eq_true', fatRootEntries]

theorem fatFindFreeEntry_eq_some_iff :
    fatFindFreeEntry root = some slot ↔
      slot < 224 ∧ slotFree root slot = true ∧
        ∀ i < slot, slotFree root i = false := by
  unfold fatFindFreeEntry
  rw [List.find?_range_eq_some]
  simp only [List.mem_range, Bool.not_eq_true', fatRootEntries]
  tauto

/- The directory is what its 224 slots are. -/
theorem fatFindEntry_agree
    {root' : ByteMem}
    (hRoot : AgreeOn root root' 0 7168) :
    fatFindEntry root = fatFindEntry root' := by
  funext name83
  unfold fatFindEntry
  refine List.find?_congr fun i hi => ?_
  have hSlot : i < 224 := List.mem_range.mp hi
  exact SlotAgree.matches_eq
    (hRoot.mono (by omega) (by omega)) name83

theorem slotMatches_of_free
    (hFree : slotFree root slot = true)
    (name83 : List UInt8) :
    slotMatches root name83 slot = false := by
  simp [slotMatches, hFree]

/- A slot that is found is a live file. -/
theorem live_of_matches
    (hMatch : slotMatches root name83 slot = true) :
    slotFree root slot = false ∧
      slotDirectory root slot = false := by
  simp only [slotMatches, Bool.and_eq_true,
    Bool.not_eq_true'] at hMatch
  exact hMatch.1

theorem slotName_of_matches
    (hMatch : slotMatches root name83 slot = true) :
    slotName root slot = name83 := by
  simp only [slotMatches, Bool.and_eq_true,
    decide_eq_true_eq] at hMatch
  exact hMatch.2

/- A live name is found in the slot that received it. -/
theorem fatFindEntry_nameSlot_self
    (hSlot : slot < 224)
    (hAbsent : fatFindEntry root name83 = none)
    (hLength : name83.length = 11)
    (hLive : slotFree (nameSlot root slot name83) slot =
      false) :
    fatFindEntry (nameSlot root slot name83) name83 =
      some slot := by
  rw [fatFindEntry_eq_none_iff] at hAbsent
  rw [fatFindEntry_eq_some_iff]
  refine ⟨hSlot, ?_, ?_⟩
  · simp [slotMatches, hLive, slotDirectory_nameSlot,
      slotName_nameSlot root slot hLength]
  · intro i hi
    rw [(nameSlot_agree root slot (by omega)).matches_eq]
    exact hAbsent i (by omega)

/- Lookups of other names ignore a newly named slot. -/
theorem fatFindEntry_nameSlot_of_ne
    (hFree : slotFree root slot = true)
    (hLength : name83.length = 11)
    (hNe : other ≠ name83) :
    fatFindEntry (nameSlot root slot name83) other =
      fatFindEntry root other := by
  apply List.find?_congr
  intro i _
  by_cases hSlot : i = slot
  · subst hSlot
    rw [slotMatches_of_free hFree]
    simp [slotMatches, slotName_nameSlot root i hLength,
      hNe.symm]
  · exact (nameSlot_agree root slot hSlot).matches_eq other

/-
  The slot of a write: the one that already has the name, or
  the first free one with the name stored into it.
-/
theorem writeSlot_cases
    {root' : ByteMem}
    (hWrite : writeSlot root name83 = some (slot, root')) :
    (fatFindEntry root name83 = some slot ∧ root' = root) ∨
      (fatFindEntry root name83 = none ∧ slot < 224 ∧
        slotFree root slot = true ∧
        root' = nameSlot root slot name83) := by
  unfold writeSlot at hWrite
  cases hFind : fatFindEntry root name83 with
  | some found =>
      simp only [hFind, Option.some.injEq, Prod.mk.injEq]
        at hWrite
      exact Or.inl ⟨by rw [hWrite.1], hWrite.2.symm⟩
  | none =>
      cases hFree : fatFindFreeEntry root with
      | none => simp [hFind, hFree] at hWrite
      | some free =>
          simp only [hFind, hFree, Option.some.injEq,
            Prod.mk.injEq] at hWrite
          rcases hWrite with ⟨rfl, rfl⟩
          rw [fatFindFreeEntry_eq_some_iff] at hFree
          exact Or.inr ⟨rfl, hFree.1, hFree.2.1, rfl⟩

section Deleted

variable (root : ByteMem) (slot : Nat)

/- Deleting a slot touches its first byte. -/
theorem slotAgree_deleted
    {i : Nat}
    (hNe : i ≠ slot) :
    SlotAgree (root.storeByte (32 * slot) 0xE5) root i :=
  storeBlock_agreeOn (by omega)

@[simp] theorem slotFree_deleted :
    slotFree (root.storeByte (32 * slot) 0xE5) slot =
      true := by
  simp [slotFree]

end Deleted

/- On an empty directory a name goes to the first slot. -/
theorem writeSlot_zeros
    (name83 : List UInt8) :
    writeSlot zeros name83 =
      some (0, nameSlot zeros 0 name83) := by
  have hAbsent : fatFindEntry zeros name83 = none :=
    fatFindEntry_eq_none_iff.mpr fun i _ =>
      slotMatches_of_free (by simp [slotFree]) name83
  have hFree : fatFindFreeEntry zeros = some 0 :=
    fatFindFreeEntry_eq_some_iff.mpr
      ⟨by omega, by simp [slotFree], by omega⟩
  simp [writeSlot, hAbsent, hFree]

theorem writeSlot_lt
    {root' : ByteMem}
    (hWrite : writeSlot root name83 = some (slot, root')) :
    slot < 224 := by
  rcases writeSlot_cases hWrite with
    ⟨hFind, _⟩ | ⟨_, hSlot, _⟩
  · exact (fatFindEntry_eq_some_iff.mp hFind).1
  · exact hSlot

/- After the stores of a write its name is in its slot. -/
theorem findEntry_written
    {root' : ByteMem}
    {size : Nat}
    (name : List UInt8)
    (hWrite :
      writeSlot root (fatNormalize name) =
        some (slot, root')) :
    fatFindEntry (sizeSlot root' slot size)
        (fatNormalize name) = some slot := by
  rw [fatFindEntry_sizeSlot]
  rcases writeSlot_cases hWrite with
    ⟨hFind, rfl⟩ | ⟨hAbsent, hSlot, hFree, rfl⟩
  · exact hFind
  · apply fatFindEntry_nameSlot_self hSlot hAbsent (by simp)
    rw [slotFree_nameSlot, fatNormalize_head]
    rfl

/- A write changes no lookup of another name. -/
theorem findEntry_written_of_ne
    {root' : ByteMem}
    {size : Nat}
    (hLength : name83.length = 11)
    (hNe : other ≠ name83)
    (hWrite : writeSlot root name83 = some (slot, root')) :
    fatFindEntry (sizeSlot root' slot size) other =
      fatFindEntry root other := by
  rw [fatFindEntry_sizeSlot]
  rcases writeSlot_cases hWrite with
    ⟨_, rfl⟩ | ⟨_, _, hFree, rfl⟩
  · rfl
  · exact fatFindEntry_nameSlot_of_ne hFree hLength hNe

/- A write leaves the records of all other slots alone. -/
theorem slotAgree_written
    {root' : ByteMem}
    {size i : Nat}
    (hNe : i ≠ slot)
    (hWrite : writeSlot root name83 = some (slot, root')) :
    SlotAgree (sizeSlot root' slot size) root i := by
  rcases writeSlot_cases hWrite with
    ⟨_, rfl⟩ | ⟨_, _, _, rfl⟩
  · exact sizeSlot_agree _ _ _ hNe
  · exact (sizeSlot_agree _ _ _ hNe).trans
      (nameSlot_agree _ _ hNe)

end Lookups

end Storage

end AsmOS
