import Mathlib.Data.List.TakeWhile
import AsmOS.Storage.Directory
import AsmOS.Storage.Fat12

/-
  Where a file name is split into base and extension.

  A name that is split at its first dot has an upper-cased
  base of at most eight characters and an extension of at
  most three.  The loop that stores the spaces leaves no room
  for the base, so the first three characters of the whole
  name become the extension instead.

  Main declarations:
    * `nameText`, `nameBase`, `nameExtension`
    * `splitName`
    * `fatNormalize_text`
    * `splitsAtDot_iff`
-/

------------------------------------------------------------
-- Names Split At A Dot
------------------------------------------------------------

namespace AsmOS

namespace Storage

open ByteMem

/- The characters of a C string before its NUL. -/
def nameText
    (src : List UInt8) : List UInt8 :=
  src.takeWhile fun c => c ≠ 0

/- The part of a name before its first dot. -/
def nameBase
    (src : List UInt8) : List UInt8 :=
  (nameText src).takeWhile fun c => c ≠ 0x2E

/- The part of a name after its first dot. -/
def nameExtension
    (src : List UInt8) : List UInt8 :=
  ((nameText src).dropWhile fun c => c ≠ 0x2E).drop 1

/- A field of the first `n` characters, upper-cased. -/
def upperField
    (n : Nat)
    (text : List UInt8) : List UInt8 :=
  padSpaces n ((text.take n).map upper)

/- The 8.3 name that is split at the first dot. -/
def splitName
    (src : List UInt8) : List UInt8 :=
  upperField 8 (nameBase src) ++ upperField 3 (nameExtension src)

/- Both copies of the normalisation split at the first dot. -/
def SplitsAtDot
    (src : List UInt8) : Prop :=
  fatNormalize src = splitName src ∧
    fat12NormalizeName src = splitName src

------------------------------------------------------------
-- Fields
------------------------------------------------------------

section Fields

variable {n : Nat}
variable {text : List UInt8}

/- Upper-casing neither makes nor removes other characters. -/
theorem upper_eq_iff
    (c : UInt8)
    {b : UInt8}
    (hLower : ¬ (0x61 ≤ b ∧ b ≤ 0x7A))
    (hUpper : ¬ (0x61 ≤ b + 32 ∧ b + 32 ≤ 0x7A)) :
    upper c = b ↔ c = b := by
  unfold upper
  split
  · rename_i hLetter
    refine iff_of_false (fun hSame => hUpper ?_)
      (fun hSame => hLower ?_)
    · have hSum : c = b + 32 := by
        calc
          c = c - 32 + 32 := (UInt8.sub_add_cancel c 32).symm
          _ = b + 32 := by rw [hSame]
      rwa [hSum] at hLetter
    · rwa [hSame] at hLetter
  · exact Iff.rfl

theorem upper_eq_space_iff
    (c : UInt8) :
    upper c = 0x20 ↔ c = 0x20 :=
  upper_eq_iff c (by decide) (by decide)

@[simp] theorem upperField_nil
    (n : Nat) :
    upperField n [] = List.replicate n 0x20 := by
  simp [upperField, padSpaces]

theorem upperField_length
    (n : Nat)
    (text : List UInt8) :
    (upperField n text).length = n := by
  simp only [upperField, padSpaces, List.length_append,
    List.length_replicate, List.length_map, List.length_take]
  omega

/- A field is blank when it is made from spaces only. -/
theorem upperField_eq_spaces_iff :
    upperField n text = List.replicate n 0x20 ↔
      ∀ c ∈ text.take n, c = 0x20 := by
  rw [List.eq_replicate_iff]
  constructor
  · rintro ⟨_, hAll⟩ c hc
    have hUpper : upper c ∈ upperField n text :=
      List.mem_append_left _ (List.mem_map_of_mem hc)
    exact (upper_eq_space_iff c).mp (hAll _ hUpper)
  · intro hAll
    refine ⟨upperField_length n text, fun b hb => ?_⟩
    rcases List.mem_append.mp hb with hText | hPad
    · rcases List.mem_map.mp hText with ⟨c, hc, rfl⟩
      exact (upper_eq_space_iff c).mpr (hAll c hc)
    · exact (List.mem_replicate.mp hPad).2

end Fields

------------------------------------------------------------
-- What Is Normalised
------------------------------------------------------------

section Normalise

variable {src : List UInt8}

/- The extension loop takes what fits, up to the NUL. -/
theorem normalizeExtension_eq
    (src : List UInt8)
    (j : Nat) :
    normalizeExtension src j =
      ((nameText src).take (11 - j)).map upper := by
  induction src generalizing j with
  | nil => simp [normalizeExtension, nameText]
  | cons c src ih =>
      rw [normalizeExtension]
      by_cases hEnd : c = 0
      · rw [if_neg fun hLoop => hLoop.1 hEnd, nameText,
          List.takeWhile_cons_of_neg (by simpa using hEnd),
          List.take_nil]
        rfl
      have hText : nameText (c :: src) = c :: nameText src :=
        List.takeWhile_cons_of_pos (by simpa using hEnd)
      by_cases hRoom : j < 11
      · have hLeft : 11 - j = 11 - (j + 1) + 1 := by omega
        rw [if_pos ⟨hEnd, hRoom⟩, ih, hText, hLeft,
          List.take_succ_cons, List.map_cons]
      · have hNone : 11 - j = 0 := by omega
        rw [if_neg fun hLoop => hRoom hLoop.2, hNone,
          List.take_zero]
        rfl

theorem nameText_skipDot
    (src : List UInt8) :
    nameText (skipDot src) = skipDot (nameText src) := by
  cases src with
  | nil => rfl
  | cons c src =>
      by_cases hDot : c = 0x2E
      · subst hDot
        rfl
      · by_cases hEnd : c = 0
        · subst hEnd
          rfl
        · have hText : nameText (c :: src) = c :: nameText src :=
            List.takeWhile_cons_of_pos (by simpa using hEnd)
          rw [skipDot, if_neg hDot, hText, skipDot, if_neg hDot]

/-
  Every name is normalised to eight spaces and the first
  three characters after a leading dot.
-/
theorem fatNormalize_text
    (src : List UInt8) :
    fatNormalize src =
      List.replicate 8 0x20 ++
        upperField 3 (skipDot (nameText src)) := by
  rw [fatNormalize_eq, normalizeExtension_eq, nameText_skipDot]
  rfl

/- A name without a base is split at its leading dot. -/
theorem nameBase_eq_nil_iff :
    nameBase src = [] ↔
      nameText src = [] ∨ (nameText src).head? = some 0x2E := by
  unfold nameBase
  cases nameText src with
  | nil => simp
  | cons c text =>
      by_cases hDot : c = 0x2E
      · simp [hDot]
      · simp [hDot]

theorem skipDot_of_base_nil
    (hBase : nameBase src = []) :
    skipDot (nameText src) = nameExtension src := by
  rw [nameBase_eq_nil_iff] at hBase
  unfold nameExtension
  rcases hBase with hNil | hDot
  · rw [hNil]
    rfl
  · obtain ⟨text, hText⟩ := List.head?_eq_some_iff.mp hDot
    rw [hText, skipDot, if_pos rfl,
      List.dropWhile_cons_of_neg (by decide), List.drop_one,
      List.tail_cons]

theorem skipDot_of_base_cons
    (hBase : nameBase src ≠ []) :
    skipDot (nameText src) = nameText src := by
  rw [Ne, nameBase_eq_nil_iff, not_or] at hBase
  cases hText : nameText src with
  | nil => exact absurd hText hBase.1
  | cons c text =>
      rw [hText] at hBase
      rw [skipDot, if_neg fun hDot => hBase.2 (by
        rw [hDot]
        rfl)]

end Normalise

------------------------------------------------------------
-- Names That Are Split
------------------------------------------------------------

/-
  A name is split at its first dot exactly when it is empty,
  it begins with the dot, or its base begins with spaces only
  and its first three characters are those of its extension.
-/
theorem splitsAtDot_iff
    (src : List UInt8) :
    SplitsAtDot src ↔
      nameText src = [] ∨ (nameText src).head? = some 0x2E ∨
        ((∀ c ∈ (nameBase src).take 8, c = 0x20) ∧
          upperField 3 (nameText src) =
            upperField 3 (nameExtension src)) := by
  have hOne :
      SplitsAtDot src ↔ fatNormalize src = splitName src :=
    and_iff_left_of_imp id
  rw [hOne, ← or_assoc, ← nameBase_eq_nil_iff, fatNormalize_text,
    splitName]
  by_cases hBase : nameBase src = []
  · refine iff_of_true ?_ (Or.inl hBase)
    rw [skipDot_of_base_nil hBase, hBase, upperField_nil]
  · rw [skipDot_of_base_cons hBase, or_iff_right hBase,
      ← upperField_eq_spaces_iff]
    constructor
    · intro hSame
      rcases List.append_inj hSame (by
        rw [upperField_length, List.length_replicate]) with
        ⟨hFirst, hLast⟩
      exact ⟨hFirst.symm, hLast⟩
    · rintro ⟨hFirst, hLast⟩
      rw [hFirst, hLast]

/-
  `KERNEL.BIN` gives eight spaces and `KER`, not `KERNEL` and
  `BIN`.
-/
theorem not_splitsAtDot_kernel :
    ¬ SplitsAtDot
      [0x4B, 0x45, 0x52, 0x4E, 0x45, 0x4C, 0x2E, 0x42, 0x49,
        0x4E] := by
  intro hSplits
  exact absurd hSplits.1 (by decide)

end Storage

end AsmOS
