import Mathlib.Data.List.GetD
import AsmOS.Base.LineEdit

/-
  The line input of both platforms (`sys_read_line` in
  `boot/arch_x86/syscalls_x86.asm`, with the tables of
  `boot/arch_x86/keyboard.asm`, and in
  `platform/ps2/io_syscalls.c`).

  On the PC the input is the values polled from the keyboard
  controller, 0 if there is none; on the PS2 it is the values
  of `getchar`, none for `EOF`.  A call that still waits has
  no result.

  Main declarations:
    * `X86.sysReadLine`, `Ps2.sysReadLine`
    * `scanKey`, `charKey`
    * `X86.loop_edits`, `Ps2.loop_edits`
    * `LineAgrees`, `lineAgrees_iff`
-/

------------------------------------------------------------
-- Key Translation
------------------------------------------------------------

namespace AsmOS

namespace Console

open LineEdit

/- `asc_unshift`, row by row. -/
def ascUnshift : List UInt8 :=
  [0, 0, 0x31, 0x32, 0x33, 0x34, 0x35, 0x36, 0x37, 0x38,
    0x39, 0x30, 0x2D, 0x3D, 0, 0,
  0x71, 0x77, 0x65, 0x72, 0x74, 0x79, 0x75, 0x69, 0x6F,
    0x70, 0x5B, 0x5D, 0, 0,
  0x61, 0x73, 0x64, 0x66, 0x67, 0x68, 0x6A, 0x6B, 0x6C,
    0x3B, 0x27, 0x60, 0, 0x5C,
  0x5C, 0x7A, 0x78, 0x63, 0x76, 0x62, 0x6E, 0x6D, 0x2C,
    0x2E, 0x2F, 0, 0,
  0, 0, 0, 0x20]

/- `asc_shift`, row by row. -/
def ascShift : List UInt8 :=
  [0, 0, 0x21, 0x40, 0x23, 0x24, 0x25, 0x5E, 0x26, 0x2A,
    0x28, 0x29, 0, 0,
  0x51, 0x57, 0x45, 0x52, 0x54, 0x59, 0x55, 0x49, 0x4F,
    0x50, 0x7B, 0x7D, 0, 0,
  0x41, 0x53, 0x44, 0x46, 0x47, 0x48, 0x4A, 0x4B, 0x4C,
    0x3A, 0x22, 0, 0,
  0x7C, 0x5A, 0x58, 0x43, 0x56, 0x42, 0x4E, 0x4D, 0x3C,
    0x3E, 0x3F, 0, 0,
  0, 0, 0, 0x20]

/- `scancode_to_ascii`: 0 for a key without a character. -/
def scancodeToAscii
    (sc : UInt8)
    (shift : UInt32) : UInt8 :=
  if 0x39 < sc then 0
  else if shift = 0 then ascUnshift.getD sc.toNat 0
  else ascShift.getD sc.toNat 0

------------------------------------------------------------
-- The Line Being Read
------------------------------------------------------------

/-
  The memory from the caller's buffer on, the offset in `esi`
  or `i`, and the characters given to the screen.
-/
structure LineState where
  buf : Nat → UInt8
  count : Nat
  echo : List UInt8

namespace LineState

def start
    (buf : Nat → UInt8) : LineState :=
  ⟨buf, 0, []⟩

/- A character is stored and shown. -/
def put
    (s : LineState)
    (c : UInt8) : LineState :=
  ⟨Function.update s.buf s.count c, s.count + 1,
    s.echo ++ [c]⟩

/- The last character is blanked out on the screen. -/
def erase
    (s : LineState) : LineState :=
  ⟨s.buf, s.count - 1, s.echo ++ [8, 0x20, 8]⟩

def terminate
    (s : LineState) : LineState :=
  ⟨Function.update s.buf s.count 0, s.count, s.echo⟩

/- The line is terminated and the screen's line is ended. -/
def finish
    (s : LineState) : LineState :=
  ⟨Function.update s.buf s.count 0, s.count,
    s.echo ++ [0x0A]⟩

end LineState

/-
  From `.rl_loop` on, with the limit in `ebx`.  The shift
  state, which outlives the call, is left with the result and
  what has not been polled.
-/
def X86.sysReadLineLoop
    (limit : UInt32) :
    UInt32 → LineState → List UInt8 →
      Option (LineState × UInt32 × List UInt8)
| _, _, [] => none
| shiftDown, s, code :: codes =>
    if code = 0 then
      X86.sysReadLineLoop limit shiftDown s codes
    else if code = 0x2A ∨ code = 0x36 then
      X86.sysReadLineLoop limit 1 s codes
    else if code = 0xAA ∨ code = 0xB6 then
      X86.sysReadLineLoop limit 0 s codes
    else if code = 0x1C then
      some (s.finish, shiftDown, codes)
    else if code = 0x0E then
      if s.count = 0 then
        X86.sysReadLineLoop limit shiftDown s codes
      else
        X86.sysReadLineLoop limit shiftDown s.erase codes
    else
      let al := scancodeToAscii code shiftDown
      if al = 0 then
        X86.sysReadLineLoop limit shiftDown s codes
      else if limit.toNat ≤ s.count then
        X86.sysReadLineLoop limit shiftDown s codes
      else
        X86.sysReadLineLoop limit shiftDown (s.put al) codes

def X86.sysReadLine
    (maxLen shiftDown : UInt32)
    (buf : Nat → UInt8)
    (codes : List UInt8) :
    Option (LineState × UInt32 × List UInt8) :=
  X86.sysReadLineLoop (maxLen - 1) shiftDown (.start buf) codes

/-
  The loop tests for room before it reads, so it is also left
  when the line is full.
-/
def Ps2.sysReadLineLoop
    (maxLen : Int32)
    (s : LineState)
    (input : List (Option UInt8)) :
    Option (LineState × List (Option UInt8)) :=
  if (s.count : Int) < (maxLen - 1).toInt then
    match input with
    | [] => none
    | none :: input => Ps2.sysReadLineLoop maxLen s input
    | some c :: input =>
        if c = 0x0D ∨ c = 0x0A then
          some (s.finish, input)
        else if c = 8 ∨ c = 127 then
          if 0 < s.count then
            Ps2.sysReadLineLoop maxLen s.erase input
          else
            Ps2.sysReadLineLoop maxLen s input
        else
          Ps2.sysReadLineLoop maxLen (s.put c) input
  else
    some (s.terminate, input)

/- The buffer is not the null pointer. -/
def Ps2.sysReadLine
    (maxLen : Int32)
    (buf : Nat → UInt8)
    (input : List (Option UInt8)) :
    Option (LineState × List (Option UInt8)) :=
  if maxLen ≤ 0 then some (.start buf, input)
  else Ps2.sysReadLineLoop maxLen (.start buf) input

------------------------------------------------------------
-- Key Events
------------------------------------------------------------

/- The key that a polled value stands for. -/
def scanKey
    (shiftDown : UInt32)
    (code : UInt8) : Key UInt32 UInt8 :=
  if code = 0 then .idle shiftDown
  else if code = 0x2A ∨ code = 0x36 then .idle 1
  else if code = 0xAA ∨ code = 0xB6 then .idle 0
  else if code = 0x1C then .enter
  else if code = 0x0E then .edit .backspace
  else if scancodeToAscii code shiftDown = 0 then
    .idle shiftDown
  else .edit (.char (scancodeToAscii code shiftDown))

/- The key that a value of `getchar` stands for. -/
def charKey
    (_ : Unit) :
    Option UInt8 → Key Unit UInt8
| none => .idle ()
| some c =>
    if c = 0x0D ∨ c = 0x0A then .enter
    else if c = 8 ∨ c = 127 then .edit .backspace
    else .edit (.char c)

/- What an edit does to the line being read. -/
def LineState.edit
    (room : Nat)
    (s : LineState) : Edit UInt8 → LineState
| .char c => if s.count < room then s.put c else s
| .backspace => if s.count = 0 then s else s.erase

section Steps

variable {s : LineState}

/- What the loop of the PC does with one polled value. -/
theorem X86.loop_cons
    (limit shiftDown : UInt32)
    (s : LineState)
    (code : UInt8)
    (codes : List UInt8) :
    X86.sysReadLineLoop limit shiftDown s (code :: codes) =
      match scanKey shiftDown code with
      | .idle next => X86.sysReadLineLoop limit next s codes
      | .edit e =>
          X86.sysReadLineLoop limit shiftDown
            (s.edit limit.toNat e) codes
      | .enter => some (s.finish, shiftDown, codes) := by
  rw [X86.sysReadLineLoop]
  unfold scanKey
  by_cases hIdle : code = 0
  · rw [if_pos hIdle, if_pos hIdle]
  rw [if_neg hIdle, if_neg hIdle]
  by_cases hOn : code = 0x2A ∨ code = 0x36
  · rw [if_pos hOn, if_pos hOn]
  rw [if_neg hOn, if_neg hOn]
  by_cases hOff : code = 0xAA ∨ code = 0xB6
  · rw [if_pos hOff, if_pos hOff]
  rw [if_neg hOff, if_neg hOff]
  by_cases hEnter : code = 0x1C
  · rw [if_pos hEnter, if_pos hEnter]
  rw [if_neg hEnter, if_neg hEnter]
  by_cases hBack : code = 0x0E
  · rw [if_pos hBack, if_pos hBack]
    dsimp only [LineState.edit]
    split <;> rfl
  rw [if_neg hBack, if_neg hBack]
  by_cases hNone : scancodeToAscii code shiftDown = 0
  · rw [if_pos hNone, if_pos hNone]
  rw [if_neg hNone, if_neg hNone]
  dsimp only [LineState.edit]
  by_cases hRoom : s.count < limit.toNat
  · rw [if_pos hRoom, if_neg (Nat.not_le.mpr hRoom)]
  · rw [if_neg hRoom, if_pos (Nat.not_lt.mp hRoom)]

/- A full line ends the loop of the PS2 at once. -/
theorem Ps2.loop_full
    {maxLen : Int32}
    {room : Nat}
    (hRoom : (maxLen - 1).toInt = room)
    (hFull : ¬ s.count < room)
    (input : List (Option UInt8)) :
    Ps2.sysReadLineLoop maxLen s input =
      some (s.terminate, input) := by
  have hTest : ¬ (s.count : Int) < (maxLen - 1).toInt := by
    rw [hRoom]
    exact mt Int.ofNat_lt.mp hFull
  rw [Ps2.sysReadLineLoop.eq_def, if_neg hTest]

/- What it does with a value while there is room. -/
theorem Ps2.loop_cons
    {maxLen : Int32}
    {room : Nat}
    (hRoom : (maxLen - 1).toInt = room)
    (hLess : s.count < room)
    (item : Option UInt8)
    (input : List (Option UInt8)) :
    Ps2.sysReadLineLoop maxLen s (item :: input) =
      match charKey () item with
      | .idle _ => Ps2.sysReadLineLoop maxLen s input
      | .edit e =>
          Ps2.sysReadLineLoop maxLen (s.edit room e) input
      | .enter => some (s.finish, input) := by
  have hTest : (s.count : Int) < (maxLen - 1).toInt :=
    hRoom ▸ Int.ofNat_lt.mpr hLess
  rw [Ps2.sysReadLineLoop.eq_def, if_pos hTest]
  cases item with
  | none => rfl
  | some c =>
      unfold charKey
      dsimp only
      by_cases hEnter : c = 0x0D ∨ c = 0x0A
      · rw [if_pos hEnter, if_pos hEnter]
      rw [if_neg hEnter, if_neg hEnter]
      by_cases hBack : c = 8 ∨ c = 127
      · rw [if_pos hBack, if_pos hBack]
        dsimp only [LineState.edit]
        by_cases hNone : s.count = 0
        · rw [if_neg (Nat.not_lt.mpr (Nat.le_of_eq hNone)),
            if_pos hNone]
        · rw [if_pos (Nat.pos_of_ne_zero hNone), if_neg hNone]
      · rw [if_neg hBack, if_neg hBack]
        dsimp only [LineState.edit]
        rw [if_pos hLess]

end Steps

------------------------------------------------------------
-- Editing
------------------------------------------------------------

/- What the screen is given for an edit of a line. -/
def editEcho
    (room : Nat)
    (line : List UInt8) : Edit UInt8 → List UInt8
| .char c => if line.length < room then [c] else []
| .backspace => if line = [] then [] else [8, 0x20, 8]

def echoOf
    (room : Nat) :
    List UInt8 → List (Edit UInt8) → List UInt8
| _, [] => []
| line, e :: es =>
    editEcho room line e ++ echoOf room (e.apply room line) es

/- The line so far is at the beginning of the buffer. -/
structure Holds
    (buf : Nat → UInt8)
    (room : Nat)
    (s : LineState)
    (line : List UInt8) : Prop where
  count : s.count = line.length
  text : Begins s.buf line
  fits : line.length ≤ room
  outside : ∀ k, room < k → s.buf k = buf k

section Editing

variable {buf : Nat → UInt8} {room : Nat}
variable {s : LineState} {line : List UInt8}

theorem holds_start
    (buf : Nat → UInt8)
    (room : Nat) :
    Holds buf room (.start buf) [] :=
  ⟨rfl, begins_nil buf, Nat.zero_le room, fun _ _ => rfl⟩

/- One byte within the room is stored. -/
theorem Holds.stored_outside
    (hHolds : Holds buf room s line)
    (b : UInt8)
    {k : Nat}
    (hBeyond : room < k) :
    Function.update s.buf s.count b k = buf k := by
  have hNe : k ≠ s.count := by
    have hFits := hHolds.fits
    rw [← hHolds.count] at hFits
    omega
  rw [Function.update_of_ne hNe]
  exact hHolds.outside k hBeyond

/- An edit of the buffer is an edit of the line. -/
theorem Holds.edit
    (hHolds : Holds buf room s line)
    (e : Edit UInt8) :
    Holds buf room (s.edit room e) (e.apply room line) ∧
      (s.edit room e).echo = s.echo ++ editEcho room line e := by
  have hFits := e.apply_length_le hHolds.fits
  cases e with
  | char c =>
      unfold LineState.edit Edit.apply editEcho
      unfold Edit.apply at hFits
      dsimp only at hFits ⊢
      rw [hHolds.count]
      by_cases hRoom : line.length < room
      · rw [if_pos hRoom] at hFits ⊢
        rw [if_pos hRoom, if_pos hRoom]
        refine ⟨⟨?_, ?_, hFits, ?_⟩, rfl⟩
        · rw [List.length_append, List.length_singleton]
          exact congrArg Nat.succ hHolds.count
        · have hText := hHolds.text.append c
          rw [← hHolds.count] at hText
          exact hText
        · exact fun k hBeyond =>
            hHolds.stored_outside c hBeyond
      · rw [if_neg hRoom, if_neg hRoom, if_neg hRoom,
          List.append_nil]
        exact ⟨hHolds, rfl⟩
  | backspace =>
      unfold LineState.edit editEcho
      unfold Edit.apply at hFits ⊢
      dsimp only at hFits ⊢
      by_cases hNone : line = []
      · have hCount : s.count = 0 := by
          rw [hHolds.count, hNone]
          rfl
        subst hNone
        rw [if_pos hCount, if_pos rfl, List.append_nil]
        exact ⟨hHolds, rfl⟩
      · have hCount : s.count ≠ 0 := by
          rw [hHolds.count]
          exact mt List.length_eq_zero_iff.mp hNone
        rw [if_neg hCount, if_neg hNone]
        refine ⟨⟨?_, hHolds.text.dropLast, hFits,
          hHolds.outside⟩, rfl⟩
        rw [List.length_dropLast, ← hHolds.count]
        rfl

/-
  The line at the end of a call.  Nothing is written outside
  of the buffer's `maxLen` bytes.
-/
structure Stored
    (maxLen : Int32)
    (buf : Nat → UInt8)
    (line : List UInt8)
    (s : LineState) : Prop where
  text : Begins s.buf line
  ending : s.buf line.length = 0
  outside : ∀ k : Nat, maxLen.toInt ≤ k → s.buf k = buf k

theorem Holds.finish
    {maxLen : Int32}
    (hHolds : Holds buf room s line)
    (hRoom : (room : Int) < maxLen.toInt) :
    Stored maxLen buf line s.finish := by
  refine ⟨?_, ?_, fun k hBeyond =>
    hHolds.stored_outside 0 (by omega)⟩
  · have hText := hHolds.text.update 0
    rw [← hHolds.count] at hText
    exact hText
  · rw [← hHolds.count]
    exact Function.update_self s.count 0 s.buf

end Editing

------------------------------------------------------------
-- Runs Of The Loops
------------------------------------------------------------

section Runs

variable {buf : Nat → UInt8} {room : Nat}
variable {s : LineState} {line : List UInt8}
variable {es : List (Edit UInt8)}

/-
  The state a loop is in when the edits have been made, and
  what it has shown meanwhile.
-/
structure Edited
    (buf : Nat → UInt8)
    (room : Nat)
    (s : LineState)
    (line : List UInt8)
    (es : List (Edit UInt8))
    (t : LineState) : Prop where
  holds : Holds buf room t (editLine room line es)
  echo : t.echo = s.echo ++ echoOf room line es

theorem edited_nil
    (hHolds : Holds buf room s line) :
    Edited buf room s line [] s :=
  ⟨hHolds, (List.append_nil _).symm⟩

theorem edited_cons
    {e : Edit UInt8}
    {t : LineState}
    (hHolds : Holds buf room s line)
    (hRest :
      Edited buf room (s.edit room e) (e.apply room line)
        es t) :
    Edited buf room s line (e :: es) t := by
  refine ⟨hRest.holds, ?_⟩
  rw [hRest.echo, (hHolds.edit e).2, List.append_assoc]
  rfl

/- The PC makes all edits, whatever the line's length. -/
theorem X86.loop_edits
    {limit shiftDown : UInt32}
    {codes : List UInt8}
    (hLimit : limit.toNat = room)
    (hHolds : Holds buf room s line)
    (hEdits : editsOf scanKey shiftDown codes = some es) :
    ∃ shiftDown' t, Edited buf room s line es t ∧
      ∀ rest,
        X86.sysReadLineLoop limit shiftDown s
            (codes ++ rest) =
          X86.sysReadLineLoop limit shiftDown' t rest := by
  induction codes generalizing shiftDown s line es with
  | nil =>
      cases hEdits
      exact ⟨shiftDown, s, edited_nil hHolds, fun _ => rfl⟩
  | cons code codes ih =>
      rcases editsOf_cons hEdits with
        ⟨next, hKey, hRest⟩ | ⟨e, es', hKey, rfl, hRest⟩
      · rcases ih hHolds hRest with ⟨shift', t, hEdited, hRun⟩
        refine ⟨shift', t, hEdited, fun rest => ?_⟩
        rw [List.cons_append, X86.loop_cons, hKey]
        exact hRun rest
      · rcases ih (hHolds.edit e).1 hRest with
          ⟨shift', t, hEdited, hRun⟩
        refine ⟨shift', t, edited_cons hHolds hEdited,
          fun rest => ?_⟩
        rw [List.cons_append, X86.loop_cons, hKey, hLimit]
        exact hRun rest

/- The PS2 makes all edits if there is always room. -/
theorem Ps2.loop_edits
    {maxLen : Int32}
    {input : List (Option UInt8)}
    (hRoom : (maxLen - 1).toInt = room)
    (hHolds : Holds buf room s line)
    (hNever : NeverFull room line es)
    (hEdits : editsOf charKey () input = some es) :
    ∃ t, Edited buf room s line es t ∧
      ∀ rest,
        Ps2.sysReadLineLoop maxLen s (input ++ rest) =
          Ps2.sysReadLineLoop maxLen t rest := by
  induction input generalizing s line es with
  | nil =>
      cases hEdits
      exact ⟨s, edited_nil hHolds, fun _ => rfl⟩
  | cons item input ih =>
      have hLess : s.count < room := hHolds.count ▸ hNever.start
      rcases editsOf_cons hEdits with
        ⟨next, hKey, hRest⟩ | ⟨e, es', hKey, rfl, hRest⟩
      · rcases ih hHolds hNever hRest with ⟨t, hEdited, hRun⟩
        refine ⟨t, hEdited, fun rest => ?_⟩
        rw [List.cons_append, Ps2.loop_cons hRoom hLess, hKey]
        exact hRun rest
      · have hAfter := ((neverFull_cons e es').mp hNever).2
        rcases ih (hHolds.edit e).1 hAfter hRest with
          ⟨t, hEdited, hRun⟩
        refine ⟨t, edited_cons hHolds hEdited, fun rest => ?_⟩
        rw [List.cons_append, Ps2.loop_cons hRoom hLess, hKey]
        exact hRun rest

/-
  Once the line is full the PS2 leaves the rest of the input
  unread, the end of the line with it.
-/
theorem Ps2.loop_fills
    {maxLen : Int32}
    {input : List (Option UInt8)}
    (hRoom : (maxLen - 1).toInt = room)
    (hHolds : Holds buf room s line)
    (hFills : ¬ NeverFull room line es)
    (hEdits : editsOf charKey () input = some es) :
    ∃ t left, ∀ rest,
      Ps2.sysReadLineLoop maxLen s (input ++ rest) =
        some (t, left ++ rest) := by
  induction input generalizing s line es with
  | nil =>
      cases hEdits
      rw [neverFull_nil, ← hHolds.count] at hFills
      exact ⟨s.terminate, [], fun rest =>
        Ps2.loop_full hRoom hFills rest⟩
  | cons item input ih =>
      by_cases hLess : s.count < room
      · rcases editsOf_cons hEdits with
          ⟨next, hKey, hRest⟩ | ⟨e, es', hKey, rfl, hRest⟩
        · rcases ih hHolds hFills hRest with ⟨t, left, hRun⟩
          refine ⟨t, left, fun rest => ?_⟩
          rw [List.cons_append, Ps2.loop_cons hRoom hLess, hKey]
          exact hRun rest
        · have hLater :
              ¬ NeverFull room (e.apply room line) es' :=
            fun hNever => hFills ((neverFull_cons e es').mpr
              ⟨hHolds.count ▸ hLess, hNever⟩)
          rcases ih (hHolds.edit e).1 hLater hRest with
            ⟨t, left, hRun⟩
          refine ⟨t, left, fun rest => ?_⟩
          rw [List.cons_append, Ps2.loop_cons hRoom hLess, hKey]
          exact hRun rest
      · exact ⟨s.terminate, item :: input, fun rest =>
          Ps2.loop_full hRoom hLess _⟩

end Runs

------------------------------------------------------------
-- Both Platforms
------------------------------------------------------------

/- The characters that are kept in front of the terminator. -/
def lineRoom
    (maxLen : Int32) : Nat :=
  (maxLen.toInt - 1).toNat

def Printable : Edit UInt8 → Prop
| .char c => 0x20 ≤ c ∧ c < 0x7F
| .backspace => True

instance : DecidablePred Printable
| .char _ => inferInstanceAs (Decidable (_ ∧ _))
| .backspace => isTrue trivial

/-
  Both calls read the edited line when its edits are followed
  by Enter, whatever else is typed later, and take from their
  input what is in front of that.
-/
structure LineAgrees
    (maxLen : Int32)
    (es : List (Edit UInt8)) : Prop where
  x86 :
    ∀ shiftDown buf codes later,
      editsOf scanKey shiftDown codes = some es →
        ∃ s shiftDown',
          X86.sysReadLine maxLen.toUInt32 shiftDown buf
              (codes ++ 0x1C :: later) =
            some (s, shiftDown', later) ∧
          Stored maxLen buf
            (editLine (lineRoom maxLen) [] es) s
  ps2 :
    ∀ buf input enter later,
      editsOf charKey () input = some es →
      charKey () enter = .enter →
        ∃ s,
          Ps2.sysReadLine maxLen buf
              (input ++ enter :: later) = some (s, later) ∧
          Stored maxLen buf
            (editLine (lineRoom maxLen) [] es) s

theorem mem_of_getD_ne
    {table : List UInt8}
    {n : Nat}
    (hSome : table.getD n 0 ≠ 0) :
    table.getD n 0 ∈ table := by
  by_cases hInside : n < table.length
  · rw [List.getD_eq_getElem table 0 hInside]
    exact List.getElem_mem hInside
  · exact absurd (List.getD_eq_default table 0
      (Nat.not_lt.mp hInside)) hSome

/- A translated key is printable or has no character. -/
theorem scancodeToAscii_printable
    {sc : UInt8}
    {shift : UInt32}
    (hSome : scancodeToAscii sc shift ≠ 0) :
    Printable (.char (scancodeToAscii sc shift)) := by
  have hRows :
      (ascUnshift ++ ascShift).all (fun c =>
        c = 0 ∨ Printable (.char c)) = true := by
    decide
  have hMem :
      scancodeToAscii sc shift ∈ ascUnshift ++ ascShift := by
    unfold scancodeToAscii at hSome ⊢
    split at hSome
    · exact absurd rfl hSome
    · next hTable =>
        rw [if_neg hTable]
        split at hSome
        · next hUp =>
            rw [if_pos hUp]
            exact List.mem_append_left _
              (mem_of_getD_ne hSome)
        · next hDown =>
            rw [if_neg hDown]
            exact List.mem_append_right _
              (mem_of_getD_ne hSome)
  have hEither := of_decide_eq_true
    (List.all_eq_true.mp hRows _ hMem)
  exact hEither.resolve_left hSome

/- On the PC only printable characters are typed. -/
theorem scanEdits_printable
    {shiftDown : UInt32}
    {codes : List UInt8}
    {es : List (Edit UInt8)}
    (hEdits : editsOf scanKey shiftDown codes = some es) :
    ∀ e ∈ es, Printable e := by
  refine editsOf_forall (fun shift code e hKey => ?_) hEdits
  unfold scanKey at hKey
  split_ifs at hKey with _ _ _ _ _ hNone
  · cases hKey
    exact trivial
  · cases hKey
    exact scancodeToAscii_printable hNone

section Platforms

variable {maxLen : Int32} {es : List (Edit UInt8)}

theorem ps2_lineRoom
    (hPos : 0 < maxLen) :
    (maxLen - 1).toInt = lineRoom maxLen := by
  have hInt : 0 < maxLen.toInt := Int32.lt_iff_toInt_lt.mp hPos
  have hOne : (1 : Int32).toInt = 1 := rfl
  have hBelow := Int32.toInt_lt maxLen
  have hSub : (maxLen - 1).toInt = maxLen.toInt - 1 := by
    rw [Int32.toInt_sub, hOne]
    exact Int.bmod_eq_of_le (by omega) (by omega)
  unfold lineRoom
  omega

/- The limit of the PC is the same number, unsigned. -/
theorem x86_lineRoom
    (hPos : 0 < maxLen) :
    (maxLen.toUInt32 - 1).toNat = lineRoom maxLen := by
  have hRoom := ps2_lineRoom hPos
  have hZero : (0 : Int32).toInt = 0 := rfl
  have hNonneg : 0 ≤ maxLen - 1 := by
    rw [Int32.le_iff_toInt_le, hRoom, hZero]
    exact Int.natCast_nonneg _
  have hUnsigned := Int32.toNat_toUInt32_of_le hNonneg
  rw [← Int32.toNat_toInt, hRoom, Int.toNat_natCast]
    at hUnsigned
  exact hUnsigned

theorem lineRoom_lt
    (hPos : 0 < maxLen) :
    (lineRoom maxLen : Int) < maxLen.toInt := by
  have hInt : 0 < maxLen.toInt := Int32.lt_iff_toInt_lt.mp hPos
  unfold lineRoom
  omega

/- On the PC a line of any edits is read as it should be. -/
theorem x86_reads
    (hPos : 0 < maxLen)
    (shiftDown : UInt32)
    (buf : Nat → UInt8)
    {codes : List UInt8}
    (later : List UInt8)
    (hEdits : editsOf scanKey shiftDown codes = some es) :
    ∃ s shiftDown',
      X86.sysReadLine maxLen.toUInt32 shiftDown buf
          (codes ++ 0x1C :: later) =
        some (s, shiftDown', later) ∧
      Stored maxLen buf
        (editLine (lineRoom maxLen) [] es) s ∧
      s.echo = echoOf (lineRoom maxLen) [] es ++ [0x0A] := by
  rcases X86.loop_edits (x86_lineRoom hPos)
    (holds_start buf (lineRoom maxLen)) hEdits with
    ⟨shiftDown', t, hEdited, hRun⟩
  refine ⟨t.finish, shiftDown', ?_,
    hEdited.holds.finish (lineRoom_lt hPos),
    congrArg (fun echo => echo ++ [0x0A]) hEdited.echo⟩
  have hEnter : scanKey shiftDown' 0x1C = .enter := rfl
  unfold X86.sysReadLine
  rw [hRun, X86.loop_cons, hEnter]

theorem Ps2.sysReadLine_eq
    (hPos : 0 < maxLen)
    (buf : Nat → UInt8)
    (input : List (Option UInt8)) :
    Ps2.sysReadLine maxLen buf input =
      Ps2.sysReadLineLoop maxLen (.start buf) input := by
  unfold Ps2.sysReadLine
  exact if_neg (Int32.not_le.mpr hPos)

/- On the PS2 so is a line that is never full. -/
theorem ps2_reads
    (hPos : 0 < maxLen)
    (hNever : NeverFull (lineRoom maxLen) [] es)
    (buf : Nat → UInt8)
    {input : List (Option UInt8)}
    {enter : Option UInt8}
    (later : List (Option UInt8))
    (hEdits : editsOf charKey () input = some es)
    (hEnter : charKey () enter = .enter) :
    ∃ s,
      Ps2.sysReadLine maxLen buf (input ++ enter :: later) =
        some (s, later) ∧
      Stored maxLen buf
        (editLine (lineRoom maxLen) [] es) s ∧
      s.echo = echoOf (lineRoom maxLen) [] es ++ [0x0A] := by
  have hRoom := ps2_lineRoom hPos
  rcases Ps2.loop_edits hRoom
    (holds_start buf (lineRoom maxLen)) hNever hEdits with
    ⟨t, hEdited, hRun⟩
  refine ⟨t.finish, ?_,
    hEdited.holds.finish (lineRoom_lt hPos),
    congrArg (fun echo => echo ++ [0x0A]) hEdited.echo⟩
  have hLess : t.count < lineRoom maxLen := by
    rw [hEdited.holds.count]
    exact hNever es ((List.mem_inits es es).mpr List.prefix_rfl)
  rw [Ps2.sysReadLine_eq hPos, hRun,
    Ps2.loop_cons hRoom hLess, hEnter]

/- Then both have shown the same characters. -/
theorem echo_agrees
    (hPos : 0 < maxLen)
    (hNever : NeverFull (lineRoom maxLen) [] es)
    (shiftDown : UInt32)
    (buf : Nat → UInt8)
    {codes : List UInt8}
    (hCodes : editsOf scanKey shiftDown codes = some es)
    {input : List (Option UInt8)}
    (hInput : editsOf charKey () input = some es) :
    (X86.sysReadLine maxLen.toUInt32 shiftDown buf
        (codes ++ [0x1C])).map (fun got => got.1.echo) =
      (Ps2.sysReadLine maxLen buf
        (input ++ [some 0x0A])).map fun got => got.1.echo := by
  rcases x86_reads hPos shiftDown buf [] hCodes with
    ⟨s, shiftDown', hGot, _, hEcho⟩
  have hEnter : charKey () (some 0x0A) = .enter := rfl
  rcases ps2_reads hPos hNever buf [] hInput hEnter with
    ⟨t, hGot', _, hEcho'⟩
  rw [hGot, hGot', Option.map_some, Option.map_some, hEcho,
    hEcho']

/- A key of the PS2 for every edit. -/
def charOf : Edit UInt8 → Option UInt8
| .char c => some c
| .backspace => some 8

theorem charKey_charOf
    {e : Edit UInt8}
    (hPrintable : Printable e) :
    charKey () (charOf e) = .edit e := by
  cases e with
  | backspace => rfl
  | char c =>
      have hLow : 0x20 ≤ c := hPrintable.1
      have hHigh : c < 0x7F := hPrintable.2
      have hEnter : ¬ (c = 0x0D ∨ c = 0x0A) := by
        rintro (rfl | rfl) <;> exact absurd hLow (by decide)
      have hBack : ¬ (c = 8 ∨ c = 127) := by
        rintro (rfl | rfl)
        · exact absurd hLow (by decide)
        · exact absurd hHigh (by decide)
      unfold charKey charOf
      dsimp only
      rw [if_neg hEnter, if_neg hBack]

/- A line that is full at some time ends without Enter. -/
theorem ps2_leaves_enter
    (hPos : 0 < maxLen)
    (hFills : ¬ NeverFull (lineRoom maxLen) [] es)
    (buf : Nat → UInt8)
    {input : List (Option UInt8)}
    (hEdits : editsOf charKey () input = some es)
    (enter : Option UInt8)
    (later : List (Option UInt8)) :
    ∃ s left,
      Ps2.sysReadLine maxLen buf (input ++ enter :: later) =
        some (s, left ++ enter :: later) := by
  rcases Ps2.loop_fills (ps2_lineRoom hPos)
    (holds_start buf (lineRoom maxLen)) hFills hEdits with
    ⟨t, left, hRun⟩
  refine ⟨t, left, ?_⟩
  rw [Ps2.sysReadLine_eq hPos, hRun]

end Platforms

/-
  A line of printable characters and backspaces is read alike
  and as it should be, on both platforms, exactly if no edit
  leaves it with as many characters as are kept.
-/
theorem lineAgrees_iff
    {maxLen : Int32}
    (hPos : 0 < maxLen)
    {es : List (Edit UInt8)}
    (hPrintable : ∀ e ∈ es, Printable e) :
    LineAgrees maxLen es ↔
      NeverFull (lineRoom maxLen) [] es := by
  constructor
  · intro hAgrees
    by_contra hFills
    have hEdits :
        editsOf charKey () (es.map charOf) = some es :=
      editsOf_map fun e hMem => charKey_charOf (hPrintable e hMem)
    rcases ps2_leaves_enter hPos hFills (fun _ => 0) hEdits
      (some 0x0A) [] with ⟨s, left, hLeft⟩
    rcases hAgrees.ps2 (fun _ => 0) _ (some 0x0A) [] hEdits
      rfl with ⟨t, hGot, _⟩
    rw [hLeft] at hGot
    have hNil := congrArg Prod.snd (Option.some.inj hGot)
    have hEnter := (List.append_eq_nil_iff.mp hNil).2
    exact absurd hEnter (List.cons_ne_nil _ _)
  · intro hNever
    constructor
    · intro shiftDown buf codes later hEdits
      rcases x86_reads hPos shiftDown buf later hEdits with
        ⟨s, shiftDown', hGot, hStored, _⟩
      exact ⟨s, shiftDown', hGot, hStored⟩
    · intro buf input enter later hEdits hEnter
      rcases ps2_reads hPos hNever buf later hEdits hEnter with
        ⟨s, hGot, hStored, _⟩
      exact ⟨s, hGot, hStored⟩

/- A character replaced by another, with room for two. -/
theorem lineAgrees_corrected :
    LineAgrees 3 [.char 0x61, .backspace, .char 0x62] :=
  (lineAgrees_iff (by decide) (by decide)).mpr (by decide)

/-
  With room for two characters, `ab`, a backspace and `c` are
  the line `ac`; the PS2 returns `ab` before the backspace.
-/
theorem not_lineAgrees :
    ¬ LineAgrees 3
      [.char 0x61, .char 0x62, .backspace, .char 0x63] := by
  intro hAgrees
  rcases hAgrees.ps2 (fun _ => 0)
    [some 0x61, some 0x62, some 8, some 0x63] (some 0x0A) []
    rfl rfl with ⟨s, hGot, _⟩
  -- The backspace, the `c` and the Enter are still unread.
  have hUnread :
      (Ps2.sysReadLine 3 (fun _ => 0)
          [some 0x61, some 0x62, some 8, some 0x63,
            some 0x0A]).map (fun got => got.2.length) =
        some 0 :=
    congrArg (Option.map fun got => got.2.length) hGot
  exact absurd hUnread (by decide)

end Console

end AsmOS
