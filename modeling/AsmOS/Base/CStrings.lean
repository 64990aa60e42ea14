import Mathlib.Data.List.TakeWhile
import AsmOS.Base.ByteMem

/-
  Strings in memory, which a zero byte ends.

  Main declarations:
    * `ByteMem.ascii`
    * `ByteMem.stringIn`, `ByteMem.headD_stringIn`
    * `ByteMem.stringIn_stored`
-/

------------------------------------------------------------
-- Strings In Arrays
------------------------------------------------------------

namespace ByteMem

variable {m : ByteMem} {text : List UInt8} {n : Nat}

/- The bytes of a text. -/
def ascii
    (str : String) : List UInt8 :=
  str.toList.map fun c => UInt8.ofNat c.toNat

/- The characters of the string in an array of `n` bytes. -/
def stringIn
    (m : ByteMem)
    (n : Nat) : List UInt8 :=
  (m.slice 0 n).takeWhile fun b => b ≠ 0

theorem zero_not_mem_stringIn
    (m : ByteMem)
    (n : Nat) :
    0 ∉ stringIn m n := by
  intro hMem
  have hNot := List.mem_takeWhile_imp hMem
  exact absurd hNot (by decide)

/- The first character, or the zero that ends the string. -/
theorem headD_stringIn
    (m : ByteMem)
    (hSome : 0 < n) :
    (stringIn m n).headD 0 = m 0 := by
  obtain ⟨k, rfl⟩ := Nat.exists_eq_succ_of_ne_zero
    (Nat.ne_of_gt hSome)
  unfold stringIn
  rw [slice_succ]
  by_cases hZero : m 0 = 0
  · rw [List.takeWhile_cons_of_neg (by simp [hZero]), hZero]
    rfl
  · rw [List.takeWhile_cons_of_pos (by simp [hZero])]
    rfl

/- Characters and then a zero, inside of the array. -/
theorem stringIn_eq
    (hSlice : m.slice 0 text.length = text)
    (hEnd : m text.length = 0)
    (hText : 0 ∉ text)
    (hFits : text.length < n) :
    stringIn m n = text := by
  have hSplit :
      m.slice 0 n =
        text ++
          0 :: m.slice (text.length + 1)
            (n - text.length - 1) := by
    have hLength : n = text.length + (n - text.length - 1 + 1) := by
      omega
    calc
      m.slice 0 n =
          m.slice 0 (text.length + (n - text.length - 1 + 1)) := by
        rw [← hLength]
      _ = text ++
            m.slice text.length (n - text.length - 1 + 1) := by
        rw [← slice_append, hSlice, Nat.zero_add]
      _ = text ++
            0 :: m.slice (text.length + 1)
              (n - text.length - 1) := by
        rw [slice_succ, hEnd]
  have hPos : ∀ b ∈ text, decide (b ≠ 0) = true := by
    intro b hMem
    exact decide_eq_true fun hZero => hText (hZero ▸ hMem)
  unfold stringIn
  rw [hSplit, List.takeWhile_append_of_pos hPos,
    List.takeWhile_cons_of_neg (by decide), List.append_nil]

/- A string that is stored is in the array then. -/
theorem stringIn_stored
    (m : ByteMem)
    (hText : 0 ∉ text)
    (hFits : text.length < n) :
    stringIn
        (storeByte (storeBlock m 0 text.length (ofList text))
          text.length 0) n =
      text := by
  refine stringIn_eq ?_ (storeByte_self _ _ 0) hText hFits
  have hBefore :
      (storeByte (storeBlock m 0 text.length (ofList text))
          text.length 0).slice 0 text.length =
        (ofList text).slice 0 text.length := by
    apply slice_congr
    intro i hi
    rw [storeByte_of_ne _ _ (by omega),
      storeBlock_inside (by omega) (by omega), Nat.sub_zero]
  rw [hBefore, slice_ofList]

end ByteMem
