import AsmOS.Base.NameTable
import AsmOS.Base.StepRuns

/-
  Controller profiles (`src/controller_remap.c`).

  A name is cut to 23 characters when a profile is saved,
  and is compared in full when one is loaded.  Saving under
  a name again appends a profile; loading takes the first.

  Main declarations:
    * `ControllerSettings`, `ControllerRemap`
    * `controllerProfileSave`, `controllerProfileLoad`
    * `RestoresLast`, `FirstIsLast`
    * `controllerProfiles_restore_iff`
-/

------------------------------------------------------------
-- Profiles
------------------------------------------------------------

namespace AsmOS

namespace Devices

abbrev ctrlMaxProfiles : Nat := 8
abbrev ctrlMacroLen : Nat := 32

/- The characters of a name that are stored. -/
abbrev ctrlNameMax : Nat := 23

/- A `controller_profile_t`, but for its name. -/
structure ControllerSettings where
  buttonRemap : Vector Int32 16
  sensitivity : Int32
  deadzone : Int32
  turboMask : Int32
  macroLen : UInt8
  macroKeys : Vector UInt8 ctrlMacroLen
deriving DecidableEq

structure ControllerProfile where
  name : CString
  settings : ControllerSettings

structure ControllerRemap where
  profiles : NameTable ControllerProfile ctrlMaxProfiles
  current : ControllerProfile

/- The variables before any call. -/
def controllerZero : ControllerRemap :=
  { profiles := NameTable.empty
    current :=
      { name := ⟨[], List.not_mem_nil⟩
        settings :=
          { buttonRemap := Vector.replicate 16 0
            sensitivity := 0
            deadzone := 0
            turboMask := 0
            macroLen := 0
            macroKeys := Vector.replicate ctrlMacroLen 0 } } }

/- `controller_remap_init`; the macro keys are left. -/
def controllerRemapInit
    (s : ControllerRemap) : ControllerRemap :=
  { profiles := NameTable.empty
    current :=
      { name := ⟨[], List.not_mem_nil⟩
        settings :=
          { s.current.settings with
            buttonRemap := Vector.ofFn fun i => Int32.ofNat i
            sensitivity := 128
            deadzone := 32
            turboMask := 0
            macroLen := 0 } } }

/- `controller_profile_save`; a null pointer is no string. -/
def controllerProfileSave
    (name : Option CString)
    (s : ControllerRemap) : Int × ControllerRemap :=
  match name with
  | none => (-1, s)
  | some n =>
      if n.chars = [] then (-1, s)
      else
        match s.profiles.push
          ⟨n.cut ctrlNameMax, s.current.settings⟩ with
        | none => (-2, s)
        | some t => (0, { s with profiles := t })

/- `controller_profile_load`. -/
def controllerProfileLoad
    (name : Option CString)
    (s : ControllerRemap) : Int × ControllerRemap :=
  match name with
  | none => (-1, s)
  | some n =>
      if n.chars = [] then (-1, s)
      else
        match s.profiles.first? ControllerProfile.name n with
        | none => (-2, s)
        | some p =>
            (0, { s with
              current := ⟨p.name.cut ctrlNameMax, p.settings⟩ })

/- A value that is moved into a byte's range. -/
def clampByte
    (value : Int32) : Int32 :=
  let value := if value < 0 then 0 else value
  if value > 255 then 255 else value

def ControllerRemap.update
    (s : ControllerRemap)
    (settings : ControllerSettings) : ControllerRemap :=
  { s with current := { s.current with settings := settings } }

/- `controller_set_sensitivity`. -/
def controllerSetSensitivity
    (value : Int32)
    (s : ControllerRemap) : ControllerRemap :=
  s.update
    { s.current.settings with sensitivity := clampByte value }

/- `controller_set_deadzone`. -/
def controllerSetDeadzone
    (value : Int32)
    (s : ControllerRemap) : ControllerRemap :=
  s.update
    { s.current.settings with deadzone := clampByte value }

/- `controller_set_turbo`. -/
def controllerSetTurbo
    (mask : Int32)
    (s : ControllerRemap) : ControllerRemap :=
  s.update
    { s.current.settings with turboMask := mask &&& 0xFFFF }

------------------------------------------------------------
-- Runs
------------------------------------------------------------

inductive ControllerCall where
| setSensitivity (value : Int32)
| setDeadzone (value : Int32)
| setTurbo (mask : Int32)
| save (name : Option CString)
| load (name : Option CString)

/- What a save that succeeded was given. -/
structure ControllerSave where
  name : CString
  settings : ControllerSettings

/- The profiles, and the saves that succeeded, in order. -/
structure ControllerHistory where
  remap : ControllerRemap
  saves : List ControllerSave

/- No profile is saved, with some current settings. -/
def controllerStart
    (current : ControllerProfile) : ControllerHistory :=
  ⟨⟨NameTable.empty, current⟩, []⟩

/- The saves after a call of `controller_profile_save`. -/
def noteSave
    (reply : Int)
    (name : Option CString)
    (settings : ControllerSettings)
    (saves : List ControllerSave) : List ControllerSave :=
  if reply = 0 then
    saves ++ (name.map fun n => ⟨n, settings⟩).toList
  else saves

def controllerStep
    (h : ControllerHistory) :
    ControllerCall → Option ControllerHistory
| .setSensitivity value =>
    some { h with remap := controllerSetSensitivity value h.remap }
| .setDeadzone value =>
    some { h with remap := controllerSetDeadzone value h.remap }
| .setTurbo mask =>
    some { h with remap := controllerSetTurbo mask h.remap }
| .save name =>
    let out := controllerProfileSave name h.remap
    some ⟨out.2,
      noteSave out.1 name h.remap.current.settings h.saves⟩
| .load name =>
    some { h with remap := (controllerProfileLoad name h.remap).2 }

/- The settings at the last save under a name. -/
def lastSaved
    (saves : List ControllerSave)
    (n : CString) : Option ControllerSettings :=
  (saves.reverse.find? fun e => e.name = n).map
    ControllerSave.settings

/- The settings at the first save that stored this name. -/
def firstStored
    (saves : List ControllerSave)
    (n : CString) : Option ControllerSettings :=
  (saves.find? fun e => e.name.cut ctrlNameMax = n).map
    ControllerSave.settings

/-
  A load under a name that was saved restores the settings
  at the last save, and one that fails changes nothing.
-/
def RestoresLast
    (h : ControllerHistory) : ControllerCall → Prop
| .load name =>
    let out := controllerProfileLoad name h.remap
    (∀ n v, name = some n → lastSaved h.saves n = some v →
        out.1 = 0 ∧ out.2.current.settings = v) ∧
      (out.1 ≠ 0 → out.2 = h.remap)
| _ => True

/-
  If there was a save under the name to load, the name is
  short, and the first save that stored it saved the same as
  the last save under it.
-/
def FirstIsLast
    (h : ControllerHistory) : ControllerCall → Prop
| .load (some n) =>
    lastSaved h.saves n ≠ none →
      n.chars.length ≤ ctrlNameMax ∧
        firstStored h.saves n = lastSaved h.saves n
| _ => True

------------------------------------------------------------
-- Restoring
------------------------------------------------------------

/- The profiles are the saves, with their names cut. -/
structure ControllerStored
    (h : ControllerHistory) : Prop where
  profiles :
    h.remap.profiles.entries =
      h.saves.map fun e =>
        ⟨e.name.cut ctrlNameMax, e.settings⟩
  nonempty : ∀ e ∈ h.saves, e.name.chars ≠ []

section Calls

variable {h h' : ControllerHistory} {n : CString}

/- The profile that is found is that of the first save. -/
theorem ControllerStored.first?_eq
    (hStored : ControllerStored h)
    (n : CString) :
    (h.remap.profiles.first? ControllerProfile.name n).map
        ControllerProfile.settings =
      firstStored h.saves n := by
  unfold firstStored
  rw [NameTable.first?_eq, hStored.profiles, List.find?_map,
    Option.map_map]
  rfl

theorem firstStored_short
    {saves : List ControllerSave}
    {v : ControllerSettings}
    (hFirst : firstStored saves n = some v) :
    n.chars.length ≤ ctrlNameMax := by
  rcases Option.map_eq_some_iff.mp hFirst with ⟨e, hFound, _⟩
  have hTest := List.find?_some hFound
  have hName : e.name.cut ctrlNameMax = n := of_decide_eq_true hTest
  rw [← hName]
  exact CString.cut_length_le _ e.name

theorem lastSaved_nonempty
    (hStored : ControllerStored h)
    {v : ControllerSettings}
    (hLast : lastSaved h.saves n = some v) :
    n.chars ≠ [] := by
  rcases Option.map_eq_some_iff.mp hLast with ⟨e, hFound, _⟩
  have hTest := List.find?_some hFound
  have hName : e.name = n := of_decide_eq_true hTest
  have hMem :=
    List.mem_reverse.mp (List.mem_of_find?_eq_some hFound)
  rw [← hName]
  exact hStored.nonempty e hMem

/- A load that fails changes nothing. -/
theorem controllerProfileLoad_failed
    (name : Option CString)
    (s : ControllerRemap)
    (hFailed : (controllerProfileLoad name s).1 ≠ 0) :
    (controllerProfileLoad name s).2 = s := by
  unfold controllerProfileLoad at hFailed ⊢
  cases name with
  | none => rfl
  | some n =>
      dsimp only at hFailed ⊢
      split_ifs at hFailed ⊢ with hEmpty
      · rfl
      · cases hFound :
          s.profiles.first? ControllerProfile.name n with
        | none => rfl
        | some p =>
            rw [hFound] at hFailed
            exact absurd rfl hFailed

/- A load gives what the first save that stored it had. -/
theorem controllerProfileLoad_iff
    (hStored : ControllerStored h)
    (hName : n.chars ≠ [])
    (v : ControllerSettings) :
    ((controllerProfileLoad (some n) h.remap).1 = 0 ∧
        (controllerProfileLoad (some n)
          h.remap).2.current.settings = v) ↔
      firstStored h.saves n = some v := by
  rw [← hStored.first?_eq]
  unfold controllerProfileLoad
  dsimp only
  rw [if_neg hName]
  cases h.remap.profiles.first? ControllerProfile.name n with
  | none =>
      have hFailed : ¬ (-2 : Int) = 0 := by decide
      exact iff_of_false (fun hBoth => hFailed hBoth.1) nofun
  | some p =>
      dsimp only
      rw [Option.map_some, Option.some.injEq, and_iff_right rfl]

/- A call restores the last save exactly if the first did. -/
theorem restoresLast_iff
    (hStored : ControllerStored h)
    (call : ControllerCall) :
    RestoresLast h call ↔ FirstIsLast h call := by
  cases call with
  | load name =>
      have hFailed := controllerProfileLoad_failed name h.remap
      unfold RestoresLast
      dsimp only
      rw [and_iff_left hFailed]
      cases name with
      | none => exact iff_of_true nofun trivial
      | some n =>
          unfold FirstIsLast
          dsimp only
          cases hLast : lastSaved h.saves n with
          | none =>
              refine iff_of_true ?_ fun hNot => absurd rfl hNot
              rintro _ v ⟨⟩ hSome
              rw [hLast] at hSome
              cases hSome
          | some v =>
              have hLoad :=
                controllerProfileLoad_iff hStored
                  (lastSaved_nonempty hStored hLast) v
              constructor
              · intro hRestores _
                have hFirst := hLoad.mp (hRestores n v rfl hLast)
                exact ⟨firstStored_short hFirst, hFirst⟩
              · rintro hFirst _ w ⟨⟩ hSome
                rw [hLast] at hSome
                cases hSome
                exact hLoad.mpr (hFirst nofun).2
  | setSensitivity value => exact Iff.rfl
  | setDeadzone value => exact Iff.rfl
  | setTurbo mask => exact Iff.rfl
  | save name => exact Iff.rfl

/- What a save does. -/
theorem controllerProfileSave_cases
    (name : Option CString)
    (s : ControllerRemap) :
    ((controllerProfileSave name s).1 ≠ 0 ∧
        (controllerProfileSave name s).2 = s) ∨
      ∃ n t, name = some n ∧ n.chars ≠ [] ∧
        t.entries =
          s.profiles.entries ++
            [⟨n.cut ctrlNameMax, s.current.settings⟩] ∧
        controllerProfileSave name s =
          (0, { s with profiles := t }) := by
  have hNull : (-1 : Int) ≠ 0 := by decide
  have hFull : (-2 : Int) ≠ 0 := by decide
  unfold controllerProfileSave
  cases name with
  | none => exact .inl ⟨hNull, rfl⟩
  | some n =>
      dsimp only
      split_ifs with hEmpty
      · exact .inl ⟨hNull, rfl⟩
      · cases hPush : s.profiles.push
          ⟨n.cut ctrlNameMax, s.current.settings⟩ with
        | none => exact .inl ⟨hFull, rfl⟩
        | some t =>
            have hBoth := NameTable.push_eq_some_iff.mp hPush
            exact .inr ⟨n, t, rfl, hEmpty, hBoth.2, rfl⟩

/- Each call keeps the profiles in step with the saves. -/
theorem controllerStep_stored
    (hStored : ControllerStored h)
    {call : ControllerCall}
    (hStep : controllerStep h call = some h') :
    ControllerStored h' := by
  cases call with
  | setSensitivity value =>
      cases hStep
      exact ⟨hStored.profiles, hStored.nonempty⟩
  | setDeadzone value =>
      cases hStep
      exact ⟨hStored.profiles, hStored.nonempty⟩
  | setTurbo mask =>
      cases hStep
      exact ⟨hStored.profiles, hStored.nonempty⟩
  | save name =>
      cases hStep
      rcases controllerProfileSave_cases name h.remap with
        ⟨hReply, hSame⟩ | ⟨n, t, rfl, hName, hEntries, hSave⟩
      · unfold noteSave
        rw [if_neg hReply, hSame]
        exact hStored
      · have hSaves :
            noteSave 0 (some n) h.remap.current.settings
                h.saves =
              h.saves ++ [⟨n, h.remap.current.settings⟩] :=
          rfl
        rw [hSave]
        dsimp only
        rw [hSaves]
        refine ⟨?_, ?_⟩
        · rw [List.map_append, ← hStored.profiles]
          exact hEntries
        · refine List.forall_mem_append.mpr
            ⟨hStored.nonempty, ?_⟩
          exact List.forall_mem_singleton.mpr hName
  | load name =>
      cases hStep
      refine ⟨?_, hStored.nonempty⟩
      rw [← hStored.profiles]
      unfold controllerProfileLoad
      dsimp only
      split
      · rfl
      · split_ifs
        · rfl
        · split
          · rfl
          · rfl

end Calls

theorem controllerStart_stored
    (current : ControllerProfile) :
    ControllerStored (controllerStart current) :=
  ⟨rfl, List.forall_mem_nil _⟩

/-
  In a run without profiles at its start, loads restore what
  was saved last exactly if it is what was saved first.
-/
theorem controllerProfiles_restore_iff
    (current : ControllerProfile)
    (calls : List ControllerCall) :
    StepRuns.EveryStep controllerStep RestoresLast
        (controllerStart current) calls ↔
      StepRuns.EveryStep controllerStep FirstIsLast
        (controllerStart current) calls :=
  StepRuns.everyStep_congr
    (fun _ call _ hStored hStep =>
      ⟨controllerStep_stored hStored hStep,
        restoresLast_iff hStored call⟩)
    (controllerStart_stored current) calls

/- A second save under a name is not what is loaded. -/
theorem controllerProfiles_load_first :
    ¬ StepRuns.EveryStep controllerStep RestoresLast
      (controllerStart (controllerRemapInit controllerZero).current)
      [.setSensitivity 128, .save (some ⟨[97], by decide⟩),
        .setSensitivity 10, .save (some ⟨[97], by decide⟩),
        .load (some ⟨[97], by decide⟩)] := by
  intro hSteps
  have hFirst := (hSteps _ rfl).2
  have hSecond := (hFirst _ rfl).2
  have hThird := (hSecond _ rfl).2
  have hFourth := (hThird _ rfl).2
  have hLoad := (hFourth _ rfl).1
  have hLast := (hLoad.1 ⟨[97], by decide⟩ _ rfl rfl).2
  have hSensitivity :=
    congrArg ControllerSettings.sensitivity hLast
  exact absurd hSensitivity (by decide)

end Devices

end AsmOS
