import AsmOS.Base.NameTable
import AsmOS.Base.StepRuns

/-
  The whitelist and the compatibility table of the pause
  engine (`src/pause_engine.c`).

  An id is cut to 15 characters when it is stored, and is
  compared in full.

  Main declarations:
    * `PauseEngine`
    * `pauseWhitelistAdd`, `pauseIsWhitelisted`
    * `pauseCompatAdd`, `pauseCompatGet`
    * `pauseTables_exact_iff`
-/

------------------------------------------------------------
-- Tables
------------------------------------------------------------

namespace AsmOS

namespace Devices

abbrev pauseWhitelistMax : Nat := 64
abbrev pauseCompatMax : Nat := 32

/- The characters of an id that are stored. -/
abbrev pauseIdMax : Nat := 15

/- `pause_type_t`. -/
inductive PauseType where
| none
| triggerAddr
| checkpoint
deriving DecidableEq

structure PauseCompatEntry where
  gameId : CString
  type : PauseType
  triggerAddr : UInt32
  triggerValue : UInt32

structure PauseEngine where
  whitelist : NameTable CString pauseWhitelistMax
  compatDb : NameTable PauseCompatEntry pauseCompatMax

/- `pause_engine_init`. -/
def pauseEngineInit : PauseEngine :=
  ⟨NameTable.empty, NameTable.empty⟩

/- `pause_is_whitelisted`; a null pointer is no string. -/
def pauseIsWhitelisted
    (s : PauseEngine)
    (gameId : Option CString) : Int :=
  match gameId with
  | none => 0
  | some g =>
      if (s.whitelist.first? id g).isSome then 1 else 0

/- `pause_whitelist_add`. -/
def pauseWhitelistAdd
    (gameId : Option CString)
    (s : PauseEngine) : Int × PauseEngine :=
  match gameId with
  | none => (-1, s)
  | some g =>
      match s.whitelist.push (g.cut pauseIdMax) with
      | none => (-1, s)
      | some t => (0, { s with whitelist := t })

/- `pause_compat_add`. -/
def pauseCompatAdd
    (gameId : Option CString)
    (type : PauseType)
    (triggerAddr triggerValue : UInt32)
    (s : PauseEngine) : Int × PauseEngine :=
  match gameId with
  | none => (-1, s)
  | some g =>
      match s.compatDb.push
        ⟨g.cut pauseIdMax, type, triggerAddr, triggerValue⟩ with
      | none => (-1, s)
      | some t => (0, { s with compatDb := t })

/- `pause_compat_get`, with what `out` points to. -/
def pauseCompatGet
    (s : PauseEngine)
    (gameId : Option CString)
    (out : Option PauseCompatEntry) :
    Int × Option PauseCompatEntry :=
  match gameId, out with
  | some g, some out =>
      match s.compatDb.first? PauseCompatEntry.gameId g with
      | some e => (0, some e)
      | none => (-1, some out)
  | _, _ => (-1, out)

------------------------------------------------------------
-- Runs
------------------------------------------------------------

inductive PauseCall where
| whitelistAdd (gameId : Option CString)
| compatAdd
    (gameId : Option CString)
    (type : PauseType)
    (triggerAddr triggerValue : UInt32)

/- The tables, with the ids of the calls that succeeded. -/
structure PauseHistory where
  engine : PauseEngine
  listed : List CString
  registered : List CString

def pauseStart : PauseHistory :=
  ⟨pauseEngineInit, [], []⟩

/- The ids after a call with some reply. -/
def noteId
    (reply : Int)
    (gameId : Option CString)
    (ids : List CString) : List CString :=
  if reply = 0 then ids ++ gameId.toList else ids

def pauseStep
    (h : PauseHistory)
    (call : PauseCall) : Option PauseHistory :=
  match call with
  | .whitelistAdd gameId =>
      let out := pauseWhitelistAdd gameId h.engine
      some { h with
        engine := out.2
        listed := noteId out.1 gameId h.listed }
  | .compatAdd gameId type addr value =>
      let out := pauseCompatAdd gameId type addr value h.engine
      some { h with
        engine := out.2
        registered := noteId out.1 gameId h.registered }

/- The tables hold just the ids that were added. -/
structure PauseExact
    (h : PauseHistory) : Prop where
  whitelist :
    ∀ g, pauseIsWhitelisted h.engine (some g) = 1 ↔ g ∈ h.listed
  compat :
    ∀ g out,
      (pauseCompatGet h.engine (some g) (some out)).1 = 0 ↔
        g ∈ h.registered

/- An id that is added while there is room can be stored. -/
def PauseIdFits
    (h : PauseHistory) : PauseCall → Prop
| .whitelistAdd (some g) =>
    h.engine.whitelist.entries.length < pauseWhitelistMax →
      g.chars.length ≤ pauseIdMax
| .compatAdd (some g) _ _ _ =>
    h.engine.compatDb.entries.length < pauseCompatMax →
      g.chars.length ≤ pauseIdMax
| _ => True

------------------------------------------------------------
-- Exactness
------------------------------------------------------------

/- The names in the tables. -/
structure PauseStored
    (h : PauseHistory) : Prop where
  whitelist :
    h.engine.whitelist.entries =
      h.listed.map (CString.cut pauseIdMax)
  compat :
    h.engine.compatDb.entries.map PauseCompatEntry.gameId =
      h.registered.map (CString.cut pauseIdMax)

theorem pauseIsWhitelisted_iff
    (s : PauseEngine)
    (g : CString) :
    pauseIsWhitelisted s (some g) = 1 ↔
      g ∈ s.whitelist.entries := by
  have hFound :
      (s.whitelist.first? id g).isSome ↔
        g ∈ s.whitelist.entries.map id :=
    NameTable.first?_isSome_iff
  rw [List.map_id] at hFound
  rw [← hFound]
  unfold pauseIsWhitelisted
  dsimp only
  split_ifs with hSome
  · exact iff_of_true rfl hSome
  · exact iff_of_false (by decide) hSome

theorem pauseCompatGet_iff
    (s : PauseEngine)
    (g : CString)
    (out : PauseCompatEntry) :
    (pauseCompatGet s (some g) (some out)).1 = 0 ↔
      g ∈ s.compatDb.entries.map PauseCompatEntry.gameId := by
  rw [← NameTable.first?_isSome_iff]
  unfold pauseCompatGet
  dsimp only
  cases s.compatDb.first? PauseCompatEntry.gameId g with
  | none =>
      have hFailed : ¬ (-1 : Int) = 0 := by decide
      exact iff_of_false hFailed Bool.false_ne_true
  | some e => exact iff_of_true rfl rfl

/- Then they are exact if no id that was added is long. -/
theorem PauseStored.tables_iff
    {h : PauseHistory}
    (hStored : PauseStored h) :
    PauseExact h ↔
      (∀ g ∈ h.listed, g.chars.length ≤ pauseIdMax) ∧
        ∀ g ∈ h.registered, g.chars.length ≤ pauseIdMax := by
  rw [← CString.mem_map_cut_iff, ← CString.mem_map_cut_iff,
    ← hStored.whitelist, ← hStored.compat]
  constructor
  · rintro ⟨hWhitelist, hCompat⟩
    refine ⟨fun g => ?_, fun g => ?_⟩
    · rw [← pauseIsWhitelisted_iff]
      exact hWhitelist g
    · rw [← pauseCompatGet_iff h.engine g ⟨g, .none, 0, 0⟩]
      exact hCompat g _
  · rintro ⟨hWhitelist, hCompat⟩
    refine ⟨fun g => ?_, fun g out => ?_⟩
    · rw [pauseIsWhitelisted_iff]
      exact hWhitelist g
    · rw [pauseCompatGet_iff]
      exact hCompat g

/- What an addition to the whitelist does. -/
theorem pauseWhitelistAdd_cases
    (gameId : Option CString)
    (s : PauseEngine) :
    (pauseWhitelistAdd gameId s = (-1, s) ∧
        ∀ g, gameId = some g →
          ¬ s.whitelist.entries.length < pauseWhitelistMax) ∨
      ∃ g t, gameId = some g ∧
        s.whitelist.entries.length < pauseWhitelistMax ∧
        t.entries =
          s.whitelist.entries ++ [g.cut pauseIdMax] ∧
        pauseWhitelistAdd gameId s =
          (0, { s with whitelist := t }) := by
  refine NameTable.stored_cases (f := (pauseWhitelistAdd · s)) rfl
    (fun g => ?_) gameId
  unfold pauseWhitelistAdd
  dsimp only
  cases s.whitelist.push (g.cut pauseIdMax) with
  | none => rfl
  | some t => rfl

/- What an addition to the compatibility table does. -/
theorem pauseCompatAdd_cases
    (gameId : Option CString)
    (type : PauseType)
    (addr value : UInt32)
    (s : PauseEngine) :
    (pauseCompatAdd gameId type addr value s = (-1, s) ∧
        ∀ g, gameId = some g →
          ¬ s.compatDb.entries.length < pauseCompatMax) ∨
      ∃ g t, gameId = some g ∧
        s.compatDb.entries.length < pauseCompatMax ∧
        t.entries =
          s.compatDb.entries ++
            [⟨g.cut pauseIdMax, type, addr, value⟩] ∧
        pauseCompatAdd gameId type addr value s =
          (0, { s with compatDb := t }) := by
  refine NameTable.stored_cases
    (f := (pauseCompatAdd · type addr value s)) rfl
    (fun g => ?_) gameId
  unfold pauseCompatAdd
  dsimp only
  cases s.compatDb.push
    ⟨g.cut pauseIdMax, type, addr, value⟩ with
  | none => rfl
  | some t => rfl

/- One more id fits exactly if it does itself. -/
theorem forall_mem_snoc_iff
    {ids : List CString}
    {n : Nat}
    (hIds : ∀ g ∈ ids, g.chars.length ≤ n)
    (g : CString) :
    (∀ g' ∈ ids ++ [g], g'.chars.length ≤ n) ↔
      g.chars.length ≤ n := by
  rw [List.forall_mem_append, and_iff_right hIds,
    List.forall_mem_singleton]

/- A call keeps the tables exact if its id can be stored. -/
theorem pauseStep_exact_iff
    (h : PauseHistory)
    (call : PauseCall)
    (h' : PauseHistory)
    (hStored : PauseStored h)
    (hExact : PauseExact h)
    (hStep : pauseStep h call = some h') :
    PauseStored h' ∧ (PauseExact h' ↔ PauseIdFits h call) := by
  have hFits := hStored.tables_iff.mp hExact
  cases call with
  | whitelistAdd gameId =>
      cases hStep
      rcases pauseWhitelistAdd_cases gameId h.engine with
        ⟨hAdd, hFull⟩ | ⟨g, t, rfl, hRoom, hEntries, hAdd⟩
      · rw [hAdd]
        refine ⟨hStored, iff_of_true hExact ?_⟩
        cases gameId with
        | none => trivial
        | some g => exact fun hRoom => absurd hRoom (hFull g rfl)
      · rw [hAdd]
        have hNext :
            PauseStored
              { h with
                engine := { h.engine with whitelist := t }
                listed := h.listed ++ [g] } := by
          refine ⟨?_, hStored.compat⟩
          rw [List.map_append, ← hStored.whitelist]
          exact hEntries
        refine ⟨hNext, hNext.tables_iff.trans ?_⟩
        dsimp only
        rw [forall_mem_snoc_iff hFits.1, and_iff_left hFits.2]
        exact ⟨fun hShort _ => hShort, fun hShort => hShort hRoom⟩
  | compatAdd gameId type addr value =>
      cases hStep
      rcases pauseCompatAdd_cases gameId type addr value
          h.engine with
        ⟨hAdd, hFull⟩ | ⟨g, t, rfl, hRoom, hEntries, hAdd⟩
      · rw [hAdd]
        refine ⟨hStored, iff_of_true hExact ?_⟩
        cases gameId with
        | none => trivial
        | some g => exact fun hRoom => absurd hRoom (hFull g rfl)
      · rw [hAdd]
        have hNext :
            PauseStored
              { h with
                engine := { h.engine with compatDb := t }
                registered := h.registered ++ [g] } := by
          refine ⟨hStored.whitelist, ?_⟩
          rw [List.map_append, ← hStored.compat]
          dsimp only
          rw [hEntries, List.map_append]
          rfl
        refine ⟨hNext, hNext.tables_iff.trans ?_⟩
        dsimp only
        rw [forall_mem_snoc_iff hFits.2, and_iff_right hFits.1]
        exact ⟨fun hShort _ => hShort, fun hShort => hShort hRoom⟩

theorem pauseStart_stored :
    PauseStored pauseStart :=
  ⟨rfl, rfl⟩

theorem pauseStart_exact :
    PauseExact pauseStart :=
  pauseStart_stored.tables_iff.mpr
    ⟨List.forall_mem_nil _, List.forall_mem_nil _⟩

/-
  The tables are exact in every state of a run exactly if
  every id that is added while there is room is short.
-/
theorem pauseTables_exact_iff
    (calls : List PauseCall) :
    StepRuns.EveryState pauseStep PauseExact pauseStart calls ↔
      StepRuns.EveryStep pauseStep PauseIdFits pauseStart
        calls :=
  StepRuns.everyState_iff_everyStep pauseStep_exact_iff
    pauseStart_stored pauseStart_exact calls

/- A name of 16 characters is not found after it was added. -/
theorem pauseWhitelist_cuts_id :
    ¬ StepRuns.EveryState pauseStep PauseExact pauseStart
      [.whitelistAdd (some ⟨List.replicate 16 65, by decide⟩)] := by
  rintro ⟨_, hRest⟩
  have hExact := hRest _ rfl
  have hFound :=
    (hExact.whitelist ⟨List.replicate 16 65, by decide⟩).mpr
      (List.mem_singleton_self _)
  exact absurd hFound (by decide)

end Devices

end AsmOS
