import AsmOS.Storage.Directory
import Mathlib.Data.List.Basic

/-
  The files that the HAL lists.

  Main declarations:
    * `slotFiles`, `listedFiles`
    * `platFsList_ready`
    * `listedFiles_eq_iff`
-/

------------------------------------------------------------
-- Listed Files
------------------------------------------------------------

namespace AsmOS

namespace Storage

open ByteMem

/- The file of a slot, if it is live and no directory. -/
def slotFiles
    (root : ByteMem)
    (i : Nat) : List FileInfo :=
  if slotFree root i = false ∧ slotDirectory root i = false
  then [fileInfo root i]
  else []

/- The files of a root table, in the order of their slots. -/
def listedFiles
    (root : ByteMem) : List FileInfo :=
  (List.range 224).flatMap (slotFiles root)

variable {root root' : ByteMem} {i slot : Nat}

theorem slotFiles_of_free
    (hFree : slotFree root i = true) :
    slotFiles root i = [] := by
  simp [slotFiles, hFree]

theorem slotFiles_of_directory
    (hDirectory : slotDirectory root i = true) :
    slotFiles root i = [] := by
  simp [slotFiles, hDirectory]

theorem slotFiles_of_live
    (hLive :
      slotFree root i = false ∧
        slotDirectory root i = false) :
    slotFiles root i = [fileInfo root i] :=
  if_pos hLive

/- The loop collects the files of its slots up to `max`. -/
theorem fatListLoop_eq
    (root : ByteMem)
    (max k i n : Nat) :
    fatListLoop root max k i n =
      ((List.range' i k).flatMap (slotFiles root)).take
        (max - n) := by
  induction k generalizing i n with
  | zero => simp [fatListLoop]
  | succ k ih =>
      rw [fatListLoop, List.range'_succ, List.flatMap_cons]
      by_cases hRoom : n < max
      · rw [if_pos hRoom]
        have hLess : max - n = (max - (n + 1)) + 1 := by omega
        cases hFree : slotFree root i with
        | true => simp [ih, slotFiles_of_free hFree]
        | false =>
            cases hDirectory : slotDirectory root i with
            | true =>
                simp [ih, slotFiles_of_directory hDirectory]
            | false =>
                simp [ih, hLess,
                  slotFiles_of_live ⟨hFree, hDirectory⟩]
      · have hNone : max - n = 0 := by omega
        rw [if_neg hRoom, hNone, List.take_zero]

/- With its tables loaded the HAL lists the cached files. -/
theorem platFsList_ready
    {fs : Fs}
    (hReady : fs.fsReady = true)
    (max : Nat) :
    platFsList fs max =
      (((((listedFiles fs.rootCache).take max).length : Int),
        (listedFiles fs.rootCache).take max), fs) := by
  unfold platFsList ensureReady
  rw [if_pos hReady]
  dsimp only
  rw [fatListLoop_eq, listedFiles, List.range_eq_range',
    Nat.sub_zero]

theorem listedFiles_length_le
    (root : ByteMem) :
    (listedFiles root).length ≤ 224 := by
  have hSlots :
      ∀ l : List Nat,
        (l.flatMap (slotFiles root)).length ≤ l.length := by
    intro l
    induction l with
    | nil => exact Nat.le_refl 0
    | cons i l ih =>
        have hFirst : (slotFiles root i).length ≤ 1 := by
          unfold slotFiles
          split
          · exact Nat.le_refl 1
          · exact Nat.zero_le 1
        rw [List.flatMap_cons, List.length_append,
          List.length_cons]
        omega
  have hAll := hSlots (List.range 224)
  rwa [List.length_range] at hAll

------------------------------------------------------------
-- One Changed Slot
------------------------------------------------------------

theorem SlotAgree.listName_eq
    (hAgree : SlotAgree root root' i) :
    listName root i = listName root' i := by
  have hBase :
      root.slice (32 * i) 8 = root'.slice (32 * i) 8 :=
    slice_congr fun j hj =>
      hAgree (32 * i + j) (by omega) (by omega)
  have hExt :
      root.slice (32 * i + 8) 3 =
        root'.slice (32 * i + 8) 3 :=
    slice_congr fun j hj =>
      hAgree (32 * i + 8 + j) (by omega) (by omega)
  unfold listName
  rw [hBase, hExt, hAgree (32 * i + 8) (by omega) (by omega)]

theorem SlotAgree.slotFiles_eq
    (hAgree : SlotAgree root root' i) :
    slotFiles root i = slotFiles root' i := by
  unfold slotFiles fileInfo
  rw [hAgree.free_eq, hAgree.directory_eq, hAgree.listName_eq,
    hAgree.size_eq, hAgree.cluster_eq]

/- A change of one slot shows only in the file of that slot. -/
theorem listedFiles_eq_iff
    (hSlot : slot < 224)
    (hSlots : ∀ i, i ≠ slot → SlotAgree root' root i) :
    listedFiles root' = listedFiles root ↔
      slotFiles root' slot = slotFiles root slot := by
  rcases List.append_of_mem (List.mem_range.mpr hSlot) with
    ⟨before, after, hSplit⟩
  have hNodup := List.nodup_range (n := 224)
  rw [hSplit] at hNodup
  have hOthers :
      ∀ l : List Nat, slot ∉ l →
        l.flatMap (slotFiles root') =
          l.flatMap (slotFiles root) := by
    intro l hOut
    apply List.flatMap_congr
    intro i hMember
    exact (hSlots i (by
      rintro rfl
      exact hOut hMember)).slotFiles_eq
  have hParts := List.nodup_append.mp hNodup
  have hBefore : slot ∉ before := fun hMember =>
    hParts.2.2 slot hMember slot List.mem_cons_self rfl
  have hAfter : slot ∉ after :=
    (List.nodup_cons.mp hParts.2.1).1
  unfold listedFiles
  rw [hSplit, List.flatMap_append, List.flatMap_append,
    List.flatMap_cons, List.flatMap_cons, hOthers _ hBefore,
    hOthers _ hAfter, List.append_cancel_left_eq,
    List.append_cancel_right_eq]

end Storage

end AsmOS
