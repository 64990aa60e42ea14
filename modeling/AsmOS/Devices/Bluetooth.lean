import AsmOS.Base.NameTable
import AsmOS.Base.StepRuns

/-
  The paired devices of the Bluetooth stack
  (`src/bluetooth.c`).

  An address is cut to 17 characters when it is stored, no
  address is looked up before it is stored again, and the
  count that a listing returns is not the one it copied.

  Main declarations:
    * `Bluetooth`, `btInit`, `btPair`, `btUnpair`, `btList`
    * `BtSet`, `BtFits`
    * `bluetooth_set_iff`
-/

------------------------------------------------------------
-- Devices
------------------------------------------------------------

namespace AsmOS

namespace Devices

abbrev btDeviceMax : Nat := 6

/- The characters of an address that are stored. -/
abbrev btAddrMax : Nat := 17

structure BtDevice where
  addr : CString
  paired : UInt8
  connected : UInt8

structure Bluetooth where
  initialized : Bool
  pairedDevices : NameTable BtDevice btDeviceMax

/- `bt_init`. -/
def btInit
    (s : Bluetooth) : Int × Bluetooth :=
  if s.initialized then (0, s)
  else (0, ⟨true, NameTable.empty⟩)

/- `bt_pair`; a null pointer is no string. -/
def btPair
    (addr : Option CString)
    (s : Bluetooth) : Int × Bluetooth :=
  match s.initialized, addr with
  | true, some a =>
      match s.pairedDevices.push ⟨a.cut btAddrMax, 1, 1⟩ with
      | none => (-1, s)
      | some t => (0, { s with pairedDevices := t })
  | _, _ => (-1, s)

/- `bt_unpair`. -/
def btUnpair
    (addr : Option CString)
    (s : Bluetooth) : Int × Bluetooth :=
  match s.initialized, addr with
  | true, some a =>
      match s.pairedDevices.drop? BtDevice.addr a with
      | none => (-1, s)
      | some t => (0, { s with pairedDevices := t })
  | _, _ => (-1, s)

/- `bt_list`, with the entries that it stores in `out`. -/
def btList
    (out : Bool)
    (maxCount : Int)
    (s : Bluetooth) : Int × List BtDevice :=
  if s.initialized = false ∨ out = false ∨ maxCount ≤ 0 then
    (-1, [])
  else
    let devices := s.pairedDevices.entries
    let n : Int := devices.length
    let n := if n > maxCount then maxCount else n
    (devices.length, devices.take n.toNat)

------------------------------------------------------------
-- Runs
------------------------------------------------------------

inductive BtCall where
| pair (addr : Option CString)
| unpair (addr : Option CString)
| list (out : Bool) (maxCount : Int)

/- The stack, and the addresses that are paired. -/
structure BtHistory where
  stack : Bluetooth
  held : List CString

/- The stack behind the first `bt_init`. -/
def btStart : BtHistory :=
  ⟨(btInit ⟨false, NameTable.empty⟩).2, []⟩

def btStep
    (h : BtHistory)
    (call : BtCall) : Option BtHistory :=
  match call with
  | .pair addr =>
      let out := btPair addr h.stack
      some ⟨out.2,
        if out.1 = 0 then h.held ++ addr.toList else h.held⟩
  | .unpair addr =>
      let out := btUnpair addr h.stack
      some ⟨out.2,
        if out.1 = 0 then h.held.filter fun a => some a ≠ addr
        else h.held⟩
  | .list _ _ => some h

/- Every address that is paired can be unpaired. -/
def BtHeld
    (h : BtHistory) : Prop :=
  ∀ a ∈ h.held, (btUnpair (some a) h.stack).1 = 0

def Bluetooth.addrs
    (s : Bluetooth) : List CString :=
  s.pairedDevices.entries.map BtDevice.addr

/- The list without an address, and with all others. -/
structure Unpaired
    (a : CString)
    (s s' : Bluetooth) : Prop where
  gone : a ∉ s'.addrs
  others :
    s'.pairedDevices.entries.filter (fun e => e.addr ≠ a) =
      s.pairedDevices.entries.filter fun e => e.addr ≠ a

/- The stored entries are counted, and there is room. -/
structure Listed
    (maxCount : Int)
    (out : Int × List BtDevice) : Prop where
  count : out.1 = out.2.length
  fits : out.1 ≤ maxCount

/- What a call does if pairing is a set. -/
def BtSet
    (h : BtHistory)
    (call : BtCall) : Prop :=
  (∀ h', btStep h call = some h' → BtHeld h') ∧
    match call with
    | .pair _ => True
    | .unpair none => True
    | .unpair (some a) =>
        (btUnpair (some a) h.stack).1 = 0 →
          Unpaired a h.stack (btUnpair (some a) h.stack).2
    | .list out maxCount =>
        (btList out maxCount h.stack).1 ≠ -1 →
          Listed maxCount (btList out maxCount h.stack)

/-
  An address that is paired while there is room is short,
  one that is unpaired is stored once at most, and a listing
  has room for all devices.
-/
def BtFits
    (h : BtHistory) : BtCall → Prop
| .pair (some a) =>
    h.stack.pairedDevices.entries.length < btDeviceMax →
      a.chars.length ≤ btAddrMax
| .pair none => True
| .unpair (some a) => h.stack.addrs.count a ≤ 1
| .unpair none => True
| .list out maxCount =>
    out = true → 0 < maxCount →
      (h.stack.pairedDevices.entries.length : Int) ≤ maxCount

------------------------------------------------------------
-- Calls
------------------------------------------------------------

/- The addresses in the list are short, and held ones in it. -/
structure BtKept
    (h : BtHistory) : Prop where
  initialized : h.stack.initialized = true
  short : ∀ a ∈ h.stack.addrs, a.chars.length ≤ btAddrMax
  held : ∀ a ∈ h.held, a ∈ h.stack.addrs

section Calls

variable {s : Bluetooth} {a : CString}

theorem btPair_cases
    (hInit : s.initialized = true)
    (addr : Option CString) :
    (btPair addr s = (-1, s) ∧
        ∀ a, addr = some a →
          ¬ s.pairedDevices.entries.length < btDeviceMax) ∨
      ∃ a t, addr = some a ∧
        s.pairedDevices.entries.length < btDeviceMax ∧
        Bluetooth.addrs { s with pairedDevices := t } =
          s.addrs ++ [a.cut btAddrMax] ∧
        btPair addr s = (0, { s with pairedDevices := t }) := by
  have hNone : btPair none s = (-1, s) := by
    unfold btPair
    rw [hInit]
  have hSome :
      ∀ a,
        btPair (some a) s =
          (s.pairedDevices.push ⟨a.cut btAddrMax, 1, 1⟩).elim
            (-1, s) fun t => (0, { s with pairedDevices := t }) := by
    intro a
    unfold btPair
    rw [hInit]
    dsimp only
    cases s.pairedDevices.push ⟨a.cut btAddrMax, 1, 1⟩ with
    | none => rfl
    | some t => rfl
  rcases NameTable.stored_cases (f := (btPair · s)) hNone hSome
      addr with
    hFailed | ⟨a, t, rfl, hRoom, hEntries, hPair⟩
  · exact .inl hFailed
  · refine .inr ⟨a, t, rfl, hRoom, ?_, hPair⟩
    unfold Bluetooth.addrs
    dsimp only
    rw [hEntries, List.map_append, List.map_singleton]

theorem btUnpair_cases
    (hInit : s.initialized = true)
    (a : CString) :
    (a ∉ s.addrs ∧ btUnpair (some a) s = (-1, s)) ∨
      ∃ t, a ∈ s.addrs ∧
        t.entries =
          NameTable.dropFirst BtDevice.addr a
            s.pairedDevices.entries ∧
        Bluetooth.addrs { s with pairedDevices := t } =
          s.addrs.erase a ∧
        btUnpair (some a) s =
          (0, { s with pairedDevices := t }) := by
  unfold btUnpair
  rw [hInit]
  dsimp only
  cases hDrop : s.pairedDevices.drop? BtDevice.addr a with
  | none =>
      exact .inl ⟨NameTable.drop?_eq_none_iff.mp hDrop, rfl⟩
  | some t =>
      have hBoth := NameTable.drop?_eq_some_iff.mp hDrop
      refine .inr ⟨t, hBoth.1, hBoth.2, ?_, rfl⟩
      unfold Bluetooth.addrs
      dsimp only
      rw [hBoth.2, NameTable.map_dropFirst]

theorem btUnpair_succeeds_iff
    (hInit : s.initialized = true) :
    (btUnpair (some a) s).1 = 0 ↔ a ∈ s.addrs := by
  rcases btUnpair_cases hInit a with
    ⟨hNot, hUnpair⟩ | ⟨t, hMem, _, _, hUnpair⟩
  · have hFailed : ¬ (-1 : Int) = 0 := by decide
    rw [hUnpair]
    exact iff_of_false hFailed hNot
  · rw [hUnpair]
    exact iff_of_true rfl hMem

/- What is left is right if the address was there once. -/
theorem btUnpair_unpaired_iff
    (hInit : s.initialized = true)
    (hMem : a ∈ s.addrs) :
    Unpaired a s (btUnpair (some a) s).2 ↔
      s.addrs.count a ≤ 1 := by
  rcases btUnpair_cases hInit a with
    ⟨hNot, _⟩ | ⟨t, _, hEntries, hAddrs, hUnpair⟩
  · exact absurd hMem hNot
  · rw [hUnpair]
    have hGone :
        a ∉ s.addrs.erase a ↔ s.addrs.count a ≤ 1 := by
      rw [← List.count_eq_zero, List.count_erase_self]
      omega
    rw [← hGone, ← hAddrs]
    constructor
    · intro hUnpaired
      exact hUnpaired.gone
    · intro hNone
      refine ⟨hNone, ?_⟩
      dsimp only
      rw [hEntries]
      exact NameTable.filter_dropFirst _ _ _

/- A listing is right if there is room for all devices. -/
theorem btList_listed_iff
    (hInit : s.initialized = true)
    (out : Bool)
    (maxCount : Int) :
    ((btList out maxCount s).1 ≠ -1 →
        Listed maxCount (btList out maxCount s)) ↔
      (out = true → 0 < maxCount →
        (s.pairedDevices.entries.length : Int) ≤ maxCount) := by
  unfold btList
  by_cases hValid : out = true ∧ 0 < maxCount
  · have hTest :
        ¬ (s.initialized = false ∨ out = false ∨
          maxCount ≤ 0) := by
      rw [hInit, hValid.1]
      simp only [Bool.true_eq_false, false_or]
      exact Int.not_le.mpr hValid.2
    rw [if_neg hTest, forall_prop_of_true hValid.1,
      forall_prop_of_true hValid.2]
    dsimp only
    constructor
    · intro hListed
      exact (hListed (by omega)).fits
    · intro hRoom _
      refine ⟨?_, hRoom⟩
      rw [if_neg (by omega), Int.toNat_natCast,
        List.take_length]
  · have hTest :
        s.initialized = false ∨ out = false ∨
          maxCount ≤ 0 := by
      rw [not_and_or, Bool.not_eq_true, Int.not_lt] at hValid
      exact .inr hValid
    rw [if_pos hTest]
    exact iff_of_true (fun hNot => absurd rfl hNot)
      fun hOut hPositive => absurd ⟨hOut, hPositive⟩ hValid

end Calls

------------------------------------------------------------
-- Sets
------------------------------------------------------------

section Steps

variable {h h' : BtHistory} {call : BtCall}

/- A held address can be unpaired since it is in the list. -/
theorem btHeld_iff
    (hInit : h.stack.initialized = true) :
    BtHeld h ↔ ∀ a ∈ h.held, a ∈ h.stack.addrs :=
  forall₂_congr fun _ _ => btUnpair_succeeds_iff hInit

/- What a call keeps, apart from the held addresses. -/
theorem btStep_short
    (hKept : BtKept h)
    (hStep : btStep h call = some h') :
    h'.stack.initialized = true ∧
      ∀ a ∈ h'.stack.addrs, a.chars.length ≤ btAddrMax := by
  have hInit := hKept.initialized
  have hShort := hKept.short
  cases call with
  | pair addr =>
      cases hStep
      rcases btPair_cases hInit addr with
        ⟨hPair, _⟩ | ⟨a, t, _, _, hAddrs, hPair⟩
      · rw [hPair]
        exact ⟨hInit, hShort⟩
      · rw [hPair]
        refine ⟨hInit, ?_⟩
        dsimp only
        rw [hAddrs, List.forall_mem_append,
          List.forall_mem_singleton]
        exact ⟨hShort, CString.cut_length_le _ a⟩
  | unpair addr =>
      cases hStep
      cases addr with
      | none =>
          unfold btUnpair
          rw [hInit]
          exact ⟨hInit, hShort⟩
      | some a =>
          rcases btUnpair_cases hInit a with
            ⟨_, hUnpair⟩ | ⟨t, _, _, hAddrs, hUnpair⟩
          · rw [hUnpair]
            exact ⟨hInit, hShort⟩
          · rw [hUnpair]
            refine ⟨hInit, fun b hMem => hShort b ?_⟩
            dsimp only at hMem
            rw [hAddrs] at hMem
            exact List.mem_of_mem_erase hMem
  | list out maxCount =>
      cases hStep
      exact ⟨hInit, hShort⟩

/- Pairing keeps the held addresses if it does not cut one. -/
theorem btPair_held_iff
    (hKept : BtKept h)
    {addr : Option CString}
    (hStep : btStep h (.pair addr) = some h') :
    (∀ a ∈ h'.held, a ∈ h'.stack.addrs) ↔
      BtFits h (.pair addr) := by
  cases hStep
  rcases btPair_cases hKept.initialized addr with
    ⟨hPair, hFull⟩ | ⟨a, t, rfl, hRoom, hAddrs, hPair⟩
  · rw [hPair]
    refine iff_of_true hKept.held ?_
    cases addr with
    | none => trivial
    | some a => exact fun hRoom => absurd hRoom (hFull a rfl)
  · rw [hPair]
    dsimp only
    rw [if_pos rfl, hAddrs, Option.toList_some,
      List.forall_mem_append, List.forall_mem_singleton]
    constructor
    · rintro ⟨_, hMem⟩ _
      rcases List.mem_append.mp hMem with hOld | hNew
      · exact hKept.short a hOld
      · exact CString.cut_eq_self_iff.mp
          (List.mem_singleton.mp hNew).symm
    · intro hFits
      have hCut := CString.cut_eq_self_iff.mpr (hFits hRoom)
      refine ⟨fun b hHeld =>
        List.mem_append_left _ (hKept.held b hHeld), ?_⟩
      rw [hCut]
      exact List.mem_append_right _ (List.mem_singleton_self a)

/- Unpairing always keeps the ones that are held behind it. -/
theorem btUnpair_held
    (hKept : BtKept h)
    {addr : Option CString}
    (hStep : btStep h (.unpair addr) = some h') :
    ∀ a ∈ h'.held, a ∈ h'.stack.addrs := by
  have hInit := hKept.initialized
  cases hStep
  cases addr with
  | none =>
      unfold btUnpair
      rw [hInit]
      exact hKept.held
  | some a =>
      rcases btUnpair_cases hInit a with
        ⟨_, hUnpair⟩ | ⟨t, _, _, hAddrs, hUnpair⟩
      · rw [hUnpair]
        exact hKept.held
      · rw [hUnpair]
        intro b hMem
        dsimp only at hMem ⊢
        rw [if_pos rfl, List.mem_filter, decide_eq_true_iff]
          at hMem
        have hNe : b ≠ a := fun hSame => hMem.2 (congrArg some hSame)
        rw [hAddrs, List.mem_erase_of_ne hNe]
        exact hKept.held b hMem.1

/- A call is that of a set exactly if it fits. -/
theorem btSet_iff
    (hKept : BtKept h)
    (hStep : btStep h call = some h') :
    (BtSet h call ↔ BtFits h call) ∧
      (BtFits h call → BtKept h') := by
  have hInit := hKept.initialized
  have hShort := btStep_short hKept hStep
  have hAfter :
      (∀ h'', btStep h call = some h'' → BtHeld h'') ↔
        ∀ a ∈ h'.held, a ∈ h'.stack.addrs := by
    rw [← btHeld_iff hShort.1, hStep]
    constructor
    · intro hAll
      exact hAll h' rfl
    · rintro hHeld h'' hSame
      cases hSame
      exact hHeld
  unfold BtSet
  rw [hAfter]
  cases call with
  | pair addr =>
      have hHeld := btPair_held_iff hKept hStep
      rw [hHeld]
      exact ⟨and_iff_left trivial,
        fun hFits => ⟨hShort.1, hShort.2, hHeld.mpr hFits⟩⟩
  | unpair addr =>
      have hHeld := btUnpair_held hKept hStep
      refine ⟨?_, fun _ => ⟨hShort.1, hShort.2, hHeld⟩⟩
      rw [and_iff_right hHeld]
      cases addr with
      | none => exact iff_of_true trivial trivial
      | some a =>
          dsimp only
          rw [btUnpair_succeeds_iff hInit]
          by_cases hMem : a ∈ h.stack.addrs
          · rw [forall_prop_of_true hMem,
              btUnpair_unpaired_iff hInit hMem]
            exact Iff.rfl
          · refine iff_of_true (fun hIn => absurd hIn hMem) ?_
            have hNone := List.count_eq_zero_of_not_mem hMem
            exact Nat.le_trans (Nat.le_of_eq hNone) (Nat.zero_le 1)
  | list out maxCount =>
      cases hStep
      rw [and_iff_right hKept.held]
      exact ⟨btList_listed_iff hInit out maxCount,
        fun _ => hKept⟩

end Steps

theorem btStart_kept :
    BtKept btStart :=
  ⟨rfl, List.forall_mem_nil _, List.forall_mem_nil _⟩

/-
  In a run from `bt_init`, pairing is a set exactly if no
  long address is paired, none that is stored twice is
  unpaired, and every listing has room.
-/
theorem bluetooth_set_iff
    (calls : List BtCall) :
    StepRuns.EveryStep btStep BtSet btStart calls ↔
      StepRuns.EveryStep btStep BtFits btStart calls := by
  constructor
  · intro hSet
    refine StepRuns.everyStep_of
      (fun h call h' hKept hMeets hStep => ?_) btStart_kept hSet
    have hBoth := btSet_iff hKept hStep
    have hFits := hBoth.1.mp hMeets
    exact ⟨hBoth.2 hFits, hFits⟩
  · intro hFits
    refine StepRuns.everyStep_of
      (fun h call h' hKept hMeets hStep => ?_) btStart_kept hFits
    have hBoth := btSet_iff hKept hStep
    exact ⟨hBoth.2 hMeets, hBoth.1.mpr hMeets⟩

/- An address that is paired twice is there behind `unpair`. -/
theorem bluetooth_keeps_twin :
    ¬ StepRuns.EveryStep btStep BtSet btStart
      [.pair (some ⟨[65], by decide⟩),
        .pair (some ⟨[65], by decide⟩),
        .unpair (some ⟨[65], by decide⟩)] := by
  intro hSteps
  have hSecond := (hSteps _ rfl).2
  have hThird := (hSecond _ rfl).2
  have hUnpair := (hThird _ rfl).1
  have hGone := (hUnpair.2 rfl).gone
  exact absurd hGone (by decide)

end Devices

end AsmOS
