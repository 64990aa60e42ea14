import Mathlib.Data.List.GetD
import AsmOS.Base.NameTable
import AsmOS.Base.StepRuns
import AsmOS.Base.TokenCopy

/-
  The profiles of the quantum observer
  (`src/quantum/observer.c`).

  A profile is named by the first name that it is made of
  and a plus sign behind it.  A collapse looks for a profile
  by the first character of a name only.

  Main declarations:
    * `QuantumProfile`, `QuantumState`
    * `quantumInit`, `quantumSuperpose`, `quantumCollapse`
    * `NamesEnd`, `CollapseExact`
    * `NameClear`
    * `quantumProfiles_exact_iff`
-/

------------------------------------------------------------
-- Profiles
------------------------------------------------------------

namespace AsmOS

namespace Devices

open ByteMem TokenCopy

abbrev quantumProfileMax : Nat := 4
abbrev quantumNameMax : Nat := 16

/- A `quantum_profile_t`; `name` has `quantumNameMax` bytes. -/
structure QuantumProfile where
  name : ByteMem
  weight : UInt8
  collapsed : UInt8
  ramCostKb : UInt32

/-
  A `quantum_state_t`.  Its array of profiles is kept as the
  first `profile_count` ones and the others.
-/
structure QuantumState where
  used : List QuantumProfile
  free : List QuantumProfile
  size : used.length + free.length = quantumProfileMax
  active : ByteMem
  coherence : UInt8

/- The variables before any call. -/
def quantumZero : QuantumState :=
  { used := []
    free := List.replicate quantumProfileMax ⟨zeros, 0, 0, 0⟩
    size := rfl
    active := zeros
    coherence := 0 }

/- What `quantum_init` does to a profile. -/
def QuantumProfile.reset
    (p : QuantumProfile) : QuantumProfile :=
  { name := p.name.storeByte 0 0
    weight := 0
    collapsed := 0
    ramCostKb := 0 }

/- `quantum_init`. -/
def quantumInit
    (s : QuantumState) : QuantumState :=
  { used := []
    free := (s.used ++ s.free).map QuantumProfile.reset
    size := by
      rw [List.length_nil, Nat.zero_add, List.length_map,
        List.length_append]
      exact s.size
    active := s.active.storeByte 0 0
    coherence := 200 }

/- The loop that copies a name, and where it stops. -/
def copyName
    (name : CString)
    (buf : ByteMem) : Nat × ByteMem :=
  let (_, i, buf) :=
    copyUntil (fun _ => false) (quantumNameMax - 1) name.chars 0
      buf
  (i, buf)

/- The plus sign behind a name. -/
abbrev plusSign : UInt8 := 0x2B

/- The name that `quantum_superpose` writes. -/
def superposedName
    (a : CString)
    (name : ByteMem) : ByteMem :=
  let (i, name) := copyName a name
  let name := name.storeByte i plusSign
  if i < quantumNameMax - 1 then name.storeByte (i + 1) 0
  else name

/- `quantum_superpose`; a null pointer is no string. -/
def quantumSuperpose
    (a b : Option CString)
    (weight : UInt8)
    (s : QuantumState) : Int × QuantumState :=
  match a, b, hFree : s.free with
  | some a, some _, p :: free =>
      (0, { s with
        used := s.used ++
          [{ p with
            name := superposedName a p.name
            weight := weight
            collapsed := 0 }]
        free := free
        size := by
          rw [List.length_append, List.length_singleton,
            Nat.add_assoc, Nat.add_comm 1,
            ← List.length_cons (a := p), ← hFree]
          exact s.size })
  | _, _, _ => (-1, s)

/- The profile at which the loop of `quantum_collapse` stops. -/
def collapseIndex
    (profile : CString)
    (s : QuantumState) : Option Nat :=
  s.used.findIdx? fun p => p.name 0 == profile.chars.headD 0

/- `profiles[i].collapsed = 1`. -/
def QuantumProfile.mark
    (p : QuantumProfile) : QuantumProfile :=
  { p with collapsed := 1 }

/- `quantum_collapse`. -/
def quantumCollapse
    (profile : Option CString)
    (s : QuantumState) : Int × QuantumState :=
  match profile with
  | none => (-1, s)
  | some profile =>
      match collapseIndex profile s with
      | none => (-1, s)
      | some i =>
          let (j, active) := copyName profile s.active
          (0, { s with
            used := s.used.modify i QuantumProfile.mark
            size := by
              rw [List.length_modify]
              exact s.size
            active := active.storeByte j 0 })

------------------------------------------------------------
-- Runs
------------------------------------------------------------

inductive QuantumCall where
| init
| superpose (a b : Option CString) (weight : UInt8)
| collapse (profile : Option CString)

/- The state after a call. -/
def QuantumState.run
    (s : QuantumState) : QuantumCall → QuantumState
| .init => quantumInit s
| .superpose a b weight => (quantumSuperpose a b weight s).2
| .collapse profile => (quantumCollapse profile s).2

/- A zero among the bytes of a name. -/
def NameEnds
    (name : ByteMem) : Prop :=
  ∃ i < quantumNameMax, name i = 0

/- The names of all profiles and the active one. -/
def NamesEnd
    (s : QuantumState) : Prop :=
  (∀ p ∈ s.used ++ s.free, NameEnds p.name) ∧ NameEnds s.active

/- The text in front of the last plus sign of a name. -/
def QuantumProfile.baseName
    (p : QuantumProfile) : List UInt8 :=
  ((stringIn p.name quantumNameMax).rdropWhile
    fun c => c != plusSign).dropLast

/-
  A collapse that returns 0 has marked a profile with the
  given name, cut to 15 characters.
-/
def CollapseExact
    (s : QuantumState) : QuantumCall → Prop
| .collapse profile =>
    (quantumCollapse profile s).1 = 0 →
      ∃ name i p, profile = some name ∧
        collapseIndex name s = some i ∧ s.used[i]? = some p ∧
        (quantumCollapse profile s).2.used =
          s.used.set i p.mark ∧
        p.baseName = (name.cut (quantumNameMax - 1)).chars
| _ => True

/- The names that profiles are made of after a call. -/
def superposedNames
    (names : List CString) : QuantumCall → List CString
| .init => []
| .superpose (some a) (some _) _ =>
    if names.length < quantumProfileMax then names ++ [a]
    else names
| _ => names

/- Two names with the same first character, or its plus sign. -/
def startsAlike
    (profile a : CString) : Bool :=
  (a.chars ++ [plusSign]).headD 0 == profile.chars.headD 0

/-
  A name that is stored leaves room for a plus sign and a
  zero; the first stored name that starts like the one that
  is looked up is the same name.
-/
def NameClear
    (names : List CString) : QuantumCall → Prop
| .superpose (some a) (some _) _ =>
    names.length < quantumProfileMax →
      a.chars.length ≤ quantumNameMax - 2
| .collapse (some profile) =>
    ∀ a, names.find? (startsAlike profile) = some a →
      a = profile
| _ => True

------------------------------------------------------------
-- Written Names
------------------------------------------------------------

theorem copyName_eq
    (name : CString)
    (buf : ByteMem) :
    copyName name buf =
      ((name.cut (quantumNameMax - 1)).chars.length,
        buf.storeBlock 0
          (name.cut (quantumNameMax - 1)).chars.length
          (ofList (name.cut (quantumNameMax - 1)).chars)) := by
  have hAll : (name.chars.takeWhile fun _ => !false) = name.chars :=
    List.takeWhile_eq_self_iff.mpr fun _ _ => rfl
  unfold copyName
  simp only
  rw [copyUntil_eq, token, hAll, Nat.sub_zero, Nat.zero_add]
  rfl

theorem zero_not_mem_plus
    (a : CString) :
    0 ∉ a.chars ++ [plusSign] := by
  intro hMem
  rcases List.mem_append.mp hMem with hName | hPlus
  · exact a.ended hName
  · exact absurd (List.mem_singleton.mp hPlus) (by decide)

theorem plus_length_lt
    {a : CString}
    (hShort : a.chars.length ≤ quantumNameMax - 2) :
    (a.chars ++ [plusSign]).length < quantumNameMax := by
  have hMax : quantumNameMax = 16 := rfl
  rw [List.length_append, List.length_singleton]
  omega

/- A name with room for a plus sign and a zero behind it. -/
theorem superposedName_of_le
    {a : CString}
    (hShort : a.chars.length ≤ quantumNameMax - 2)
    (name : ByteMem) :
    superposedName a name = stored (a.chars ++ [plusSign]) name := by
  have hMax : quantumNameMax = 16 := rfl
  have hRoom : a.chars.length < quantumNameMax - 1 := by omega
  have hCut : a.cut (quantumNameMax - 1) = a :=
    CString.cut_eq_self_iff.mpr (Nat.le_of_lt hRoom)
  unfold superposedName
  rw [copyName_eq, hCut]
  simp only
  rw [if_pos hRoom, storeBlock_snoc]
  unfold stored
  rw [List.length_append, List.length_singleton]

/- A longer one fills the array. -/
theorem superposedName_ne_zero
    {a : CString}
    (hLong : quantumNameMax - 2 < a.chars.length)
    (name : ByteMem)
    {x : Nat}
    (hx : x < quantumNameMax) :
    superposedName a name x ≠ 0 := by
  have hLength :
      (a.cut (quantumNameMax - 1)).chars.length =
        quantumNameMax - 1 :=
    List.length_take_of_le (by omega)
  have hInside :
      x < ((a.cut (quantumNameMax - 1)).chars ++
        [plusSign]).length := by
    rw [List.length_append, List.length_singleton, hLength]
    exact hx
  have hFull :
      ¬ (a.cut (quantumNameMax - 1)).chars.length <
        quantumNameMax - 1 :=
    Nat.not_lt_of_le (Nat.le_of_eq hLength.symm)
  unfold superposedName
  rw [copyName_eq]
  simp only
  rw [if_neg hFull, storeBlock_snoc,
    storeBlock_inside (Nat.zero_le x)
      (Nat.lt_of_lt_of_eq hInside (Nat.zero_add _).symm),
    Nat.sub_zero]
  have hByte :
      ofList ((a.cut (quantumNameMax - 1)).chars ++ [plusSign])
          x ∈
        (a.cut (quantumNameMax - 1)).chars ++ [plusSign] := by
    unfold ofList
    rw [List.getD_eq_getElem _ _ hInside]
    exact List.getElem_mem hInside
  intro hZero
  rw [hZero] at hByte
  exact zero_not_mem_plus (a.cut (quantumNameMax - 1)) hByte

/- The plus sign behind a name is the last one. -/
theorem baseName_eq
    {p : QuantumProfile}
    {a : List UInt8}
    (hName : stringIn p.name quantumNameMax = a ++ [plusSign]) :
    p.baseName = a := by
  unfold QuantumProfile.baseName
  rw [hName, List.rdropWhile_concat_neg _ _ _ (by decide),
    List.dropLast_concat]

theorem nameEnds_of_stored
    {t : List UInt8}
    (hFits : t.length < quantumNameMax)
    (buf : ByteMem) :
    NameEnds (stored t buf) :=
  (endsIn_storeByte _ _ (Nat.le_of_lt hFits) hFits).1

------------------------------------------------------------
-- Exactness
------------------------------------------------------------

/- The profiles made of some short names. -/
structure Superposed
    (s : QuantumState)
    (names : List CString) : Prop where
  texts :
    (s.used.map fun p => stringIn p.name quantumNameMax) =
      names.map fun a => a.chars ++ [plusSign]
  short : ∀ a ∈ names, a.chars.length ≤ quantumNameMax - 2
  ends : NamesEnd s

section Superposed

variable {s : QuantumState} {names : List CString}

theorem Superposed.length_eq
    (hNames : Superposed s names) :
    s.used.length = names.length := by
  have hLength := congrArg List.length hNames.texts
  rw [List.length_map, List.length_map] at hLength
  exact hLength

/- The loop finds the first name that starts alike. -/
theorem Superposed.collapseIndex_eq
    (hNames : Superposed s names)
    (profile : CString) :
    collapseIndex profile s =
      names.findIdx? (startsAlike profile) := by
  have hUsed :
      collapseIndex profile s =
        (s.used.map fun p =>
          stringIn p.name quantumNameMax).findIdx?
          fun t => t.headD 0 == profile.chars.headD 0 := by
    rw [List.findIdx?_map]
    unfold collapseIndex
    congr 1
    funext p
    rw [Function.comp_apply, headD_stringIn _ (by decide)]
  rw [hUsed, hNames.texts, List.findIdx?_map]
  rfl

theorem Superposed.baseName_eq
    (hNames : Superposed s names)
    {i : Nat}
    {p : QuantumProfile}
    {a : CString}
    (hProfile : s.used[i]? = some p)
    (hName : names[i]? = some a) :
    p.baseName = a.chars := by
  have hText := congrArg (fun l => l[i]?) hNames.texts
  simp only [List.getElem?_map, hProfile, hName,
    Option.map_some, Option.some.injEq] at hText
  exact Devices.baseName_eq hText

/- A short name and a cut one are equal if the names are. -/
theorem eq_cut_iff
    {a p : CString}
    (hShort : a.chars.length ≤ quantumNameMax - 2) :
    a.chars = (p.cut (quantumNameMax - 1)).chars ↔ a = p := by
  rw [← CString.ext_iff]
  constructor
  · intro hCut
    have hLength := congrArg (fun n => n.chars.length) hCut
    unfold CString.cut at hLength
    simp only [List.length_take] at hLength
    have hMax : quantumNameMax = 16 := rfl
    have hFits : p.chars.length ≤ quantumNameMax - 1 := by omega
    rw [hCut]
    exact CString.cut_eq_self_iff.mpr hFits
  · rintro rfl
    have hFits : a.chars.length ≤ quantumNameMax - 1 :=
      Nat.le_trans hShort (by decide)
    exact (CString.cut_eq_self_iff.mpr hFits).symm

/- A change that keeps what is read of the items keeps it. -/
theorem map_modify
    {α β : Type}
    {f : α → α}
    {g : α → β}
    (hKeep : ∀ x, g (f x) = g x)
    (l : List α)
    (i : Nat) :
    (l.modify i f).map g = l.map g := by
  induction l generalizing i with
  | nil => rw [List.modify_nil]
  | cons x l ih =>
      cases i with
      | zero =>
          rw [List.modify_zero_cons, List.map_cons, hKeep,
            List.map_cons]
      | succ i =>
          rw [List.modify_succ_cons, List.map_cons, ih,
            List.map_cons]

theorem namesEnd_iff_map :
    NamesEnd s ↔
      (∀ name ∈ (s.used ++ s.free).map QuantumProfile.name,
          NameEnds name) ∧ NameEnds s.active := by
  unfold NamesEnd
  rw [List.forall_mem_map]

------------------------------------------------------------
-- Calls
------------------------------------------------------------

theorem quantumInit_superposed
    (s : QuantumState) :
    Superposed (quantumInit s) [] := by
  have hReset : ∀ name : ByteMem, NameEnds (name.storeByte 0 0) :=
    fun name => ⟨0, by decide, storeByte_self name 0 0⟩
  refine ⟨rfl, fun a hMem => absurd hMem List.not_mem_nil,
    fun p hMem => ?_, hReset s.active⟩
  rcases List.mem_map.mp hMem with ⟨q, _, rfl⟩
  exact hReset q.name

theorem quantumSuperpose_cases
    (a b : Option CString)
    (weight : UInt8)
    (s : QuantumState) :
    (quantumSuperpose a b weight s = (-1, s) ∧
        ∀ x y, a = some x → b = some y → s.free = []) ∨
      ∃ x y p, a = some x ∧ b = some y ∧ p ∈ s.free ∧
        (quantumSuperpose a b weight s).2.used =
          s.used ++
            [{ p with
              name := superposedName x p.name
              weight := weight
              collapsed := 0 }] ∧
        (∀ q ∈ (quantumSuperpose a b weight s).2.free,
          q ∈ s.free) ∧
        (quantumSuperpose a b weight s).2.active = s.active := by
  unfold quantumSuperpose
  split
  · rename_i x y p free hFree
    refine .inr ⟨x, y, p, rfl, rfl, ?_, rfl, fun q hMem => ?_,
      rfl⟩
    · rw [hFree]
      exact List.mem_cons_self
    · rw [hFree]
      exact List.mem_cons_of_mem p hMem
  · rename_i hNot
    refine .inl ⟨rfl, fun x y hx hy => ?_⟩
    cases hFree : s.free with
    | nil => rfl
    | cons p free => exact (hNot x y p free hx hy hFree).elim

/- Profiles in use and others make up the array. -/
theorem Superposed.room_iff
    (hNames : Superposed s names) :
    names.length < quantumProfileMax ↔ s.free ≠ [] := by
  have hSize := s.size
  rw [hNames.length_eq] at hSize
  rw [← List.length_pos_iff]
  omega

/- A name that is written ends exactly if it is short. -/
theorem nameEnds_superposed_iff
    (a : CString)
    (name : ByteMem) :
    NameEnds (superposedName a name) ↔
      a.chars.length ≤ quantumNameMax - 2 := by
  constructor
  · rintro ⟨i, hi, hZero⟩
    by_contra hLong
    exact superposedName_ne_zero (Nat.lt_of_not_le hLong) name hi
      hZero
  · intro hShort
    rw [superposedName_of_le hShort]
    exact nameEnds_of_stored (plus_length_lt hShort) name

theorem stringIn_superposed
    {a : CString}
    (hShort : a.chars.length ≤ quantumNameMax - 2)
    (name : ByteMem) :
    stringIn (superposedName a name) quantumNameMax =
      a.chars ++ [plusSign] := by
  rw [superposedName_of_le hShort]
  exact stringIn_stored name (zero_not_mem_plus a)
    (plus_length_lt hShort)

/- With one more profile in use, only its name is new. -/
theorem namesEnd_snoc_iff
    {t : QuantumState}
    {p : QuantumProfile}
    (hEnds : NamesEnd s)
    (hUsed : t.used = s.used ++ [p])
    (hFree : ∀ q ∈ t.free, q ∈ s.free)
    (hActive : t.active = s.active) :
    NamesEnd t ↔ NameEnds p.name := by
  constructor
  · rintro ⟨hAll, _⟩
    refine hAll p (List.mem_append_left _ ?_)
    rw [hUsed]
    exact List.mem_concat_self
  · intro hName
    refine ⟨fun q hMem => ?_, ?_⟩
    · rcases List.mem_append.mp hMem with hIn | hIn
      · rw [hUsed] at hIn
        rcases List.mem_append.mp hIn with hOld | hNew
        · exact hEnds.1 q (List.mem_append_left _ hOld)
        · rw [List.mem_singleton.mp hNew]
          exact hName
      · exact hEnds.1 q (List.mem_append_right _ (hFree q hIn))
    · rw [hActive]
      exact hEnds.2

theorem superpose_step
    (hNames : Superposed s names)
    (a b : Option CString)
    (weight : UInt8) :
    (NamesEnd (quantumSuperpose a b weight s).2 ↔
        NameClear names (.superpose a b weight)) ∧
      (NamesEnd (quantumSuperpose a b weight s).2 →
        Superposed (quantumSuperpose a b weight s).2
          (superposedNames names (.superpose a b weight))) := by
  rcases quantumSuperpose_cases a b weight s with
    ⟨hSame, hFull⟩ |
      ⟨x, y, p, rfl, rfl, hMem, hUsed, hFree, hActive⟩
  · rw [hSame]
    cases a with
    | none =>
        exact ⟨iff_of_true hNames.ends trivial, fun _ => hNames⟩
    | some x =>
        cases b with
        | none =>
            exact ⟨iff_of_true hNames.ends trivial,
              fun _ => hNames⟩
        | some y =>
            have hNone : ¬ names.length < quantumProfileMax :=
              fun hRoom =>
                hNames.room_iff.mp hRoom (hFull x y rfl rfl)
            rw [superposedNames, if_neg hNone]
            exact ⟨iff_of_true hNames.ends fun hRoom =>
              absurd hRoom hNone, fun _ => hNames⟩
  · have hRoom : names.length < quantumProfileMax :=
      hNames.room_iff.mpr (List.ne_nil_of_mem hMem)
    have hEnds :
        NamesEnd (quantumSuperpose (some x) (some y) weight s).2 ↔
          x.chars.length ≤ quantumNameMax - 2 := by
      rw [← nameEnds_superposed_iff x p.name]
      exact namesEnd_snoc_iff hNames.ends hUsed hFree hActive
    refine ⟨hEnds.trans ⟨fun hShort _ => hShort,
      fun hShort => hShort hRoom⟩, fun hAfter => ?_⟩
    have hShort := hEnds.mp hAfter
    rw [superposedNames, if_pos hRoom]
    refine ⟨?_, ?_, hAfter⟩
    · rw [hUsed, List.map_append, List.map_append, hNames.texts,
        List.map_singleton, List.map_singleton,
        stringIn_superposed hShort]
    · rw [List.forall_mem_append, List.forall_mem_singleton]
      exact ⟨hNames.short, hShort⟩

/- What a collapse that stops at a profile does. -/
theorem quantumCollapse_found
    {profile : CString}
    {i : Nat}
    (hFound : collapseIndex profile s = some i) :
    (quantumCollapse (some profile) s).1 = 0 ∧
      (quantumCollapse (some profile) s).2.used =
        s.used.modify i QuantumProfile.mark ∧
      (quantumCollapse (some profile) s).2.free = s.free ∧
      (quantumCollapse (some profile) s).2.active =
        stored (profile.cut (quantumNameMax - 1)).chars
          s.active := by
  simp only [quantumCollapse, hFound, true_and]
  rw [copyName_eq]
  rfl

theorem quantumCollapse_none
    {profile : CString}
    (hNone : collapseIndex profile s = none) :
    quantumCollapse (some profile) s = (-1, s) := by
  simp only [quantumCollapse, hNone]

theorem collapse_superposed
    (hNames : Superposed s names)
    (profile : Option CString) :
    Superposed (quantumCollapse profile s).2 names := by
  cases profile with
  | none => exact hNames
  | some profile =>
      cases hFound : collapseIndex profile s with
      | none =>
          rw [quantumCollapse_none hFound]
          exact hNames
      | some i =>
          rcases quantumCollapse_found hFound with
            ⟨_, hUsed, hFree, hActive⟩
          have hKept :
              ∀ p : QuantumProfile, p.mark.name = p.name :=
            fun _ => rfl
          have hTexts :
              ∀ p : QuantumProfile,
                stringIn p.mark.name quantumNameMax =
                  stringIn p.name quantumNameMax :=
            fun _ => rfl
          have hCut :
              (profile.cut (quantumNameMax - 1)).chars.length <
                quantumNameMax :=
            Nat.lt_of_le_of_lt (CString.cut_length_le _ profile)
              (by decide)
          refine ⟨?_, hNames.short,
            namesEnd_iff_map.mpr ⟨?_, ?_⟩⟩
          · rw [hUsed, map_modify hTexts]
            exact hNames.texts
          · rw [hUsed, hFree, List.map_append,
              map_modify hKept, ← List.map_append]
            exact (namesEnd_iff_map.mp hNames.ends).1
          · rw [hActive]
            exact nameEnds_of_stored hCut s.active

theorem not_zero_of_failed
    {x : Int × QuantumState}
    (hFailed : x = (-1, s)) :
    x.1 ≠ 0 := by
  rw [hFailed]
  exact (by decide : (-1 : Int) ≠ 0)

/- The profile that is marked has the name that was stored. -/
theorem collapse_exact_iff
    (hNames : Superposed s names)
    (profile : Option CString) :
    CollapseExact s (.collapse profile) ↔
      NameClear names (.collapse profile) := by
  cases profile with
  | none =>
      have hFailed : (quantumCollapse none s).1 ≠ 0 :=
        not_zero_of_failed rfl
      exact iff_of_true (fun hZero => absurd hZero hFailed) trivial
  | some profile =>
      have hIndex := hNames.collapseIndex_eq profile
      simp only [CollapseExact, NameClear]
      rw [List.find?_eq_bind_findIdx?_getElem?, ← hIndex]
      cases hFound : collapseIndex profile s with
      | none =>
          have hFailed :=
            not_zero_of_failed (quantumCollapse_none hFound)
          exact iff_of_true (fun hZero => absurd hZero hFailed)
            nofun
      | some i =>
          rcases quantumCollapse_found hFound with
            ⟨hReply, hUsed, _, _⟩
          rw [hIndex] at hFound
          rcases List.findIdx?_eq_some_iff_getElem.mp hFound with
            ⟨hInside, _, _⟩
          have hName : names[i]? = some names[i] :=
            List.getElem?_eq_getElem hInside
          have hBound : i < s.used.length :=
            hNames.length_eq ▸ hInside
          have hProfile : s.used[i]? = some s.used[i] :=
            List.getElem?_eq_getElem hBound
          have hBase := hNames.baseName_eq hProfile hName
          have hShort := hNames.short _ (List.getElem_mem hInside)
          have hSet :
              s.used.modify i QuantumProfile.mark =
                s.used.set i s.used[i].mark := by
            rw [List.modify_eq_set_getElem?, hProfile]
            rfl
          rw [Option.bind_some, hName]
          constructor
          · intro hExact a hSome
            rcases hExact hReply with
              ⟨name, j, p, hSame, hAt, hThere, _, hMarked⟩
            cases hSame
            cases hSome
            rw [hIndex, hFound] at hAt
            cases hAt
            rw [hProfile] at hThere
            cases hThere
            rw [hBase] at hMarked
            exact (eq_cut_iff hShort).mp hMarked
          · intro hClear _
            have hCut :=
              (eq_cut_iff hShort).mpr (hClear names[i] rfl)
            exact ⟨profile, i, s.used[i], rfl, hFound ▸ hIndex,
              hProfile, hUsed.trans hSet, hBase.trans hCut⟩

/- A call has the property exactly if its names are clear. -/
theorem quantumCall_exact_iff
    (call : QuantumCall)
    (hNames : Superposed s names) :
    (NamesEnd (s.run call) ∧ CollapseExact s call ↔
        NameClear names call) ∧
      (NamesEnd (s.run call) ∧ CollapseExact s call →
        Superposed (s.run call) (superposedNames names call)) := by
  cases call with
  | init =>
      have hInit := quantumInit_superposed s
      exact ⟨iff_of_true ⟨hInit.ends, trivial⟩ trivial,
        fun _ => hInit⟩
  | superpose a b weight =>
      have hStep := superpose_step hNames a b weight
      exact ⟨(and_iff_left trivial).trans hStep.1,
        fun hBoth => hStep.2 hBoth.1⟩
  | collapse profile =>
      have hAfter := collapse_superposed hNames profile
      exact ⟨(and_iff_right hAfter.ends).trans
        (collapse_exact_iff hNames profile), fun _ => hAfter⟩

end Superposed

theorem quantumZero_superposed :
    Superposed quantumZero [] := by
  have hZero : NameEnds zeros := ⟨0, by decide, rfl⟩
  refine ⟨rfl, fun a hMem => absurd hMem List.not_mem_nil,
    fun p hMem => ?_, hZero⟩
  rw [List.eq_of_mem_replicate hMem]
  exact hZero

/-
  Every name ends in every state of a run, and every collapse
  marks a profile with its name, exactly if the names of the
  calls are clear.
-/
theorem quantumProfiles_exact_iff
    (calls : List QuantumCall) :
    StepRuns.EveryState (fun s call => some (s.run call))
          NamesEnd quantumZero calls ∧
        StepRuns.EveryStep (fun s call => some (s.run call))
          CollapseExact quantumZero calls ↔
      StepRuns.EveryStep
        (fun names call => some (superposedNames names call))
        NameClear [] calls := by
  rw [StepRuns.everyState_and_everyStep,
    and_iff_right quantumZero_superposed.ends]
  exact StepRuns.everyStep_iff_of_rel
    (fun s names call => quantumCall_exact_iff call)
    quantumZero_superposed calls

/- Fifteen letters, and names that share their first letter. -/
def longName : CString :=
  ⟨List.replicate 15 0x61, by decide⟩

def firstName : CString :=
  ⟨[0x61, 0x62], by decide⟩

def otherName : CString :=
  ⟨[0x61, 0x63], by decide⟩

/-
  The long name is stored without a zero, and a profile made
  of the first name is found under the other one.
-/
theorem quantumProfiles_inexact :
    ¬ StepRuns.EveryState (fun s call => some (s.run call))
        NamesEnd quantumZero
        [.superpose (some longName) (some otherName) 128] ∧
      ¬ StepRuns.EveryStep (fun s call => some (s.run call))
        CollapseExact quantumZero
        [.superpose (some firstName) (some longName) 128,
          .collapse (some otherName)] := by
  constructor
  · rintro ⟨_, hRest⟩
    have hAfter := hRest _ rfl
    rcases hAfter.1 _ List.mem_cons_self with ⟨i, hi, hZero⟩
    have hLong : quantumNameMax - 2 < longName.chars.length := by
      decide
    exact superposedName_ne_zero hLong zeros hi hZero
  · intro hSteps
    have hCollapse := ((hSteps _ rfl).2 _ rfl).1
    have hStored :=
      superpose_step quantumZero_superposed (some firstName)
        (some longName) 128
    have hShort :
        firstName.chars.length ≤ quantumNameMax - 2 := by
      decide
    have hNames := hStored.2 (hStored.1.mpr fun _ => hShort)
    have hClear :=
      (collapse_exact_iff hNames (some otherName)).mp hCollapse
    exact absurd (hClear firstName (by decide)) (by decide)

end Devices

end AsmOS
