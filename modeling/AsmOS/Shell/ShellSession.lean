import AsmOS.Shell.TypedCommand

/-
  A session of the shell: `start_shell` on the keys of a PC.

  The loop reads a line, splits it and calls the command of
  the first word.  Which commands are called, and with which
  arguments, is told by the lines that are typed, whatever
  keys they are typed with.  A command may read keys itself,
  as the games do, and `exit` and `reboot` do not return.

  Main declarations:
    * `ksstrcmp`, `commands`, `findCommand`
    * `KeyUse`, `ShellState`, `shellLoop`
    * `typedLine`, `lineCall`, `sessionCalls`
    * `findCommand_eq`, `readLine_typed`
    * `shellLoop_session`, `sessionCalls_lines`
    * `pcShell_calls`
-/

------------------------------------------------------------
-- The Command Table
------------------------------------------------------------

namespace AsmOS

namespace Shell

open ByteMem Words Console LineEdit

/- `ksstrcmp`; the end of a list stands for the NUL. -/
def ksstrcmp : List UInt8 → List UInt8 → Int
| [], [] => 0
| [], d :: _ => 0 - (d.toNat : Int)
| c :: _, [] => c.toNat
| c :: s₁, d :: s₂ =>
    if c ≠ 0 ∧ c = d then ksstrcmp s₁ s₂
    else (c.toNat : Int) - d.toNat

/- The functions of the command table. -/
inductive ShellCommand where
| help | ls | cd | cat | meminfo | ps2info | clear | date
| echo | reboot | network | sound | graphics | timer
| controller | ping | observe | collapse | superpose
| entangle | coherence | ftp | telnet | irc | game | games
| music | demo | benchmark | system | sysinfo | memstat
| ports | iopstat | temp | mc | led | party | stream | bt
| ctrlmap | ctrlprofile | saves | dashboard | exit
deriving DecidableEq, Repr

/- `commands`: the name and the function of each entry. -/
def commands : List (List UInt8 × ShellCommand) :=
  [(ascii "help", .help), (ascii "ls", .ls),
    (ascii "cd", .cd), (ascii "cat", .cat),
    (ascii "meminfo", .meminfo), (ascii "ps2info", .ps2info),
    (ascii "clear", .clear), (ascii "date", .date),
    (ascii "echo", .echo), (ascii "reboot", .reboot),
    (ascii "network", .network), (ascii "sound", .sound),
    (ascii "graphics", .graphics), (ascii "timer", .timer),
    (ascii "controller", .controller), (ascii "ping", .ping),
    (ascii "observe", .observe),
    (ascii "collapse", .collapse),
    (ascii "superpose", .superpose),
    (ascii "entangle", .entangle),
    (ascii "coherence", .coherence), (ascii "ftp", .ftp),
    (ascii "telnet", .telnet), (ascii "irc", .irc),
    (ascii "game", .game), (ascii "games", .games),
    (ascii "music", .music), (ascii "demo", .demo),
    (ascii "benchmark", .benchmark),
    (ascii "system", .system), (ascii "sysinfo", .sysinfo),
    (ascii "memstat", .memstat), (ascii "ports", .ports),
    (ascii "iopstat", .iopstat), (ascii "temp", .temp),
    (ascii "mc", .mc), (ascii "led", .led),
    (ascii "party", .party), (ascii "stream", .stream),
    (ascii "bt", .bt), (ascii "ctrlmap", .ctrlmap),
    (ascii "ctrlprofile", .ctrlprofile),
    (ascii "saves", .saves), (ascii "dashboard", .dashboard),
    (ascii "exit", .exit)]

/- The loop over the table in `start_shell`. -/
def findCommand
    (cmd : List UInt8) :
    List (List UInt8 × ShellCommand) → Option ShellCommand
| [] => none
| (name, func) :: rest =>
    if ksstrcmp cmd name = 0 then some func
    else findCommand cmd rest

/- What the shell does with a line that is not empty. -/
inductive ShellCall where
| run (func : ShellCommand) (args : List UInt8)
| unknown (cmd : List UInt8)
deriving DecidableEq

def dispatch
    (cmd args : List UInt8) : ShellCall :=
  match findCommand cmd commands with
  | some func => .run func args
  | none => .unknown cmd

------------------------------------------------------------
-- The Loop
------------------------------------------------------------

/-
  What the functions leave of the keys that are typed, or
  nothing when they do not return.  `sys_exit` and
  `system_reboot` end in a halt.  No two calls of a session
  find as many keys, so whatever else a function goes by (what
  was called before, say) may be read off the keys.
-/
structure KeyUse where
  left : ShellCommand → List UInt8 → List UInt8 →
    Option (List UInt8)
  suffix :
    ∀ func args codes later, left func args codes = some later →
      later <:+ codes
  exit : ∀ args codes, left .exit args codes = none
  reboot : ∀ args codes, left .reboot args codes = none

/- The message for an unknown command reads no key. -/
def ShellCall.left
    (use : KeyUse) :
    ShellCall → List UInt8 → Option (List UInt8)
| .run func args, codes => use.left func args codes
| .unknown _, codes => some codes

/- The arrays of `start_shell` and the state of the keys. -/
structure ShellState where
  input : ByteMem
  cmd : ByteMem
  args : ByteMem
  shiftDown : UInt32

/-
  `start_shell`, for so many rounds: the calls it makes until
  it waits for a key, or until a command does not return.
  Of what a command does only its use of the keys is kept.
-/
def shellLoop
    (use : KeyUse) :
    Nat → ShellState → List UInt8 → List ShellCall
| 0, _, _ => []
| rounds + 1, s, codes =>
    match X86.sysReadLine inputMax.toUInt32 s.shiftDown s.input
        codes with
    | none => []
    | some (l, shiftDown, codes) =>
        let split :=
          parseCmdArgs (stringIn l.buf 512) s.cmd 64 s.args 448
        let s : ShellState :=
          ⟨l.buf, split.1, split.2, shiftDown⟩
        if split.1 0 = 0 then
          shellLoop use rounds s codes
        else
          let call :=
            dispatch (stringIn split.1 64) (stringIn split.2 448)
          call ::
            (call.left use codes).elim [] (shellLoop use rounds s)

------------------------------------------------------------
-- What Is Typed
------------------------------------------------------------

/-
  The first line that is ended, with room for `room`
  characters, the shift keys then and the keys behind it.
-/
def typedLine
    (room : Nat) :
    UInt32 → List UInt8 → List UInt8 →
      Option (List UInt8 × UInt32 × List UInt8)
| _, _, [] => none
| shiftDown, text, code :: codes =>
    match scanKey shiftDown code with
    | .idle next => typedLine room next text codes
    | .edit e => typedLine room shiftDown (e.apply room text) codes
    | .enter => some (text, shiftDown, codes)

/- All lines, when nothing else reads the keys. -/
def typedLines
    (room : Nat) :
    UInt32 → List UInt8 → List UInt8 → List (List UInt8)
| _, _, [] => []
| shiftDown, text, code :: codes =>
    match scanKey shiftDown code with
    | .idle next => typedLines room next text codes
    | .edit e => typedLines room shiftDown (e.apply room text) codes
    | .enter => text :: typedLines room shiftDown [] codes

/- The command with a name. -/
def commandNamed
    (name : List UInt8) : Option ShellCommand :=
  (commands.find? fun entry => entry.1 = name).map Prod.snd

/-
  The call that a line asks for: the command of its first
  word gets what is behind the word, up to 447 characters and
  without the blanks at its ends.
-/
def lineCall
    (text : List UInt8) : Option ShellCall :=
  if firstWord isBlank text = [] then none
  else
    match commandNamed (firstWord isBlank text) with
    | some func =>
        some
          (.run func
            ((((afterWord isBlank text).dropWhile
              isBlank).take 447).rdropWhile isBlank))
    | none => some (.unknown ((firstWord isBlank text).take 63))

/-
  The calls of a session, line by line: a line is typed with
  the keys that the call before has left.
-/
def sessionCalls
    (use : KeyUse) :
    Nat → UInt32 → List UInt8 → List ShellCall
| 0, _, _ => []
| rounds + 1, shiftDown, codes =>
    match typedLine 511 shiftDown [] codes with
    | none => []
    | some (text, shiftDown, codes) =>
        match lineCall text with
        | none => sessionCalls use rounds shiftDown codes
        | some call =>
            call ::
              (call.left use codes).elim []
                (sessionCalls use rounds shiftDown)

------------------------------------------------------------
-- Looking Up
------------------------------------------------------------

/- Strings compare as zero when they are the same. -/
theorem ksstrcmp_eq_zero_iff
    {s₁ s₂ : List UInt8}
    (hFirst : 0 ∉ s₁)
    (hSecond : 0 ∉ s₂) :
    ksstrcmp s₁ s₂ = 0 ↔ s₁ = s₂ := by
  have hByte : ∀ {c : UInt8}, c ≠ 0 → c.toNat ≠ 0 :=
    fun hNe hZero => hNe (UInt8.toNat_inj.mp hZero)
  induction s₁ generalizing s₂ with
  | nil =>
      cases s₂ with
      | nil => exact iff_of_true rfl rfl
      | cons d s₂ =>
          have hEnd := hByte (List.ne_of_not_mem_cons hSecond).symm
          refine iff_of_false (fun hZero => ?_)
            (List.cons_ne_nil _ _).symm
          unfold ksstrcmp at hZero
          omega
  | cons c s₁ ih =>
      have hNe := (List.ne_of_not_mem_cons hFirst).symm
      have hChar := hByte hNe
      cases s₂ with
      | nil =>
          refine iff_of_false (fun hZero => ?_) (List.cons_ne_nil _ _)
          unfold ksstrcmp at hZero
          omega
      | cons d s₂ =>
          unfold ksstrcmp
          by_cases hSame : c = d
          · have hRest : ksstrcmp s₁ s₂ = 0 ↔ s₁ = s₂ :=
              ih (List.not_mem_of_not_mem_cons hFirst)
                (List.not_mem_of_not_mem_cons hSecond)
            rw [if_pos ⟨hNe, hSame⟩, hRest, List.cons.injEq]
            exact (and_iff_right hSame).symm
          · rw [if_neg fun hBoth => hSame hBoth.2,
              List.cons.injEq]
            refine iff_of_false (fun hZero => hSame ?_)
              fun hBoth => hSame hBoth.1
            exact UInt8.toNat_inj.mp (by omega)

theorem commands_names :
    ∀ entry ∈ commands, 0 ∉ entry.1 ∧ entry.1.length < 63 := by
  decide

/- The loop finds the command with the name. -/
theorem findCommand_eq
    {cmd : List UInt8}
    (hCmd : 0 ∉ cmd) :
    findCommand cmd commands = commandNamed cmd := by
  have hTable :
      ∀ table : List (List UInt8 × ShellCommand),
        (∀ entry ∈ table, 0 ∉ entry.1) →
          findCommand cmd table =
            (table.find? fun entry => entry.1 = cmd).map
              Prod.snd := by
    intro table hNames
    induction table with
    | nil => rfl
    | cons entry table ih =>
        rw [List.forall_mem_cons] at hNames
        have hSame := ksstrcmp_eq_zero_iff hCmd hNames.1
        unfold findCommand
        rw [List.find?_cons]
        by_cases hHere : entry.1 = cmd
        · rw [if_pos (hSame.mpr hHere.symm),
            decide_eq_true hHere]
          rfl
        · rw [if_neg fun hZero => hHere (hSame.mp hZero).symm,
            decide_eq_false hHere, ih hNames.2]
  exact hTable commands fun entry hEntry =>
    (commands_names entry hEntry).1

/- No command has a name that does not fit. -/
theorem commandNamed_long
    {name : List UInt8}
    (hLong : 63 ≤ name.length) :
    commandNamed name = none := by
  unfold commandNamed
  rw [Option.map_eq_none_iff, List.find?_eq_none]
  intro entry hEntry hSame
  have hShort := (commands_names entry hEntry).2
  rw [of_decide_eq_true hSame] at hShort
  omega

/- What the shell makes of the split line. -/
theorem lineCall_eq
    {text : List UInt8}
    (hText : 0 ∉ text) :
    lineCall text =
      if cutWord text 64 = [] then none
      else
        some (dispatch (cutWord text 64) (argsText text 64 448)) := by
  have hCut : cutWord text 64 = (firstWord isBlank text).take 63 :=
    rfl
  have hEnds : 0 ∉ cutWord text 64 := fun hMem =>
    hText (mem_of_mem_cutWord hMem)
  unfold lineCall
  by_cases hNone : firstWord isBlank text = []
  · rw [if_pos hNone, hCut, hNone, List.take_nil, if_pos rfl]
  · have hSome : cutWord text 64 ≠ [] := by
      rw [hCut]
      simp [hNone]
    rw [if_neg hNone, if_neg hSome]
    unfold dispatch
    rw [findCommand_eq hEnds]
    by_cases hShort : (firstWord isBlank text).length ≤ 63
    · have hWord : cutWord text 64 = firstWord isBlank text := by
        rw [hCut, List.take_of_length_le hShort]
      have hArgs :
          argsText text 64 448 =
            (((afterWord isBlank text).dropWhile isBlank).take
              447).rdropWhile isBlank := by
        unfold argsText argsCopy
        rw [hWord, drop_firstWord]
      rw [hWord, List.take_of_length_le hShort, hArgs]
      cases commandNamed (firstWord isBlank text) with
      | none => rfl
      | some func => rfl
    · have hLong : 63 ≤ (cutWord text 64).length := by
        rw [hCut, List.length_take]
        omega
      have hWord : commandNamed (firstWord isBlank text) = none :=
        commandNamed_long (Nat.le_of_not_le hShort)
      rw [commandNamed_long hLong, hWord, hCut]

------------------------------------------------------------
-- Rounds Of The Loop
------------------------------------------------------------

section Rounds

variable {buf : Nat → UInt8} {room : Nat}

variable {text : List UInt8}

def PrintableText
    (text : List UInt8) : Prop :=
  ∀ c ∈ text, 0x20 ≤ c ∧ c < 0x7F

theorem PrintableText.apply
    (hText : PrintableText text)
    {e : Edit UInt8}
    (hEdit : Printable e)
    (room : Nat) :
    PrintableText (e.apply room text) := by
  intro c hMem
  rcases Edit.mem_apply hMem with hOld | rfl
  · exact hText c hOld
  · exact hEdit

theorem scanKey_printable
    {shiftDown : UInt32}
    {code : UInt8}
    {e : Edit UInt8}
    (hKey : scanKey shiftDown code = .edit e) :
    Printable e := by
  unfold scanKey at hKey
  split_ifs at hKey with _ _ _ _ _ hNone
  · cases hKey
    exact trivial
  · cases hKey
    exact scancodeToAscii_printable hNone

/- A line that is read is in the buffer. -/
structure LineRead
    (buf : Nat → UInt8)
    (typed : List UInt8)
    (l : LineState) : Prop where
  stored : Stored inputMax buf typed l
  printable : PrintableText typed
  fits : typed.length ≤ 511

/- A call reads the first line that is typed, or waits. -/
theorem readLine_typed
    {shiftDown : UInt32}
    {s : LineState}
    (hHolds : Holds buf 511 s text)
    (hText : PrintableText text)
    (codes : List UInt8) :
    X86.sysReadLineLoop (inputMax.toUInt32 - 1) shiftDown s
          codes = none ∧
        typedLine 511 shiftDown text codes = none ∨
      ∃ typed l shiftDown' later,
        X86.sysReadLineLoop (inputMax.toUInt32 - 1) shiftDown s
            codes = some (l, shiftDown', later) ∧
          typedLine 511 shiftDown text codes =
            some (typed, shiftDown', later) ∧
          LineRead buf typed l := by
  induction codes generalizing shiftDown s text with
  | nil => exact .inl ⟨rfl, rfl⟩
  | cons code codes ih =>
      rw [X86.loop_cons, typedLine]
      cases hKey : scanKey shiftDown code with
      | idle next => exact ih hHolds hText
      | edit e =>
          exact ih (hHolds.edit e).1
            (hText.apply (scanKey_printable hKey) 511)
      | enter =>
          have hRoom : ((511 : Nat) : Int) < inputMax.toInt := by
            decide
          exact .inr ⟨text, s.finish, shiftDown, codes, rfl, rfl,
            hHolds.finish hRoom, hText, hHolds.fits⟩

/- The string in the buffer is the line. -/
theorem stored_input
    {typed : List UInt8}
    {l : LineState}
    (hStored : Stored inputMax buf typed l)
    (hTyped : PrintableText typed)
    (hFits : typed.length ≤ 511) :
    stringIn l.buf 512 = typed ∧ 0 ∉ typed := by
  have hString : 0 ∉ typed := fun hMem =>
    absurd (hTyped 0 hMem).1 (by decide)
  have hSlice : ByteMem.slice l.buf 0 typed.length = typed := by
    unfold ByteMem.slice
    simp only [Nat.zero_add]
    exact hStored.text
  exact ⟨stringIn_eq hSlice hStored.ending hString (by omega),
    hString⟩

/- A round makes the call of its line. -/
theorem round_call
    {typed : List UInt8}
    (hTyped : PrintableText typed)
    (hString : 0 ∉ typed)
    (cmd args : ByteMem) :
    let split := parseCmdArgs typed cmd 64 args 448
    lineCall typed =
      if split.1 0 = 0 then none
      else
        some
          (dispatch (stringIn split.1 64)
            (stringIn split.2 448)) := by
  have hCmd : (1 : UInt32) ≤ 64 := by decide
  have hArgs : (1 : UInt32) ≤ 448 := by decide
  have hLine : line typed = typed := line_printable hTyped
  have hTexts :
      stringIn (parseCmdArgs typed cmd 64 args 448).1 64 =
          cutWord typed 64 ∧
        stringIn (parseCmdArgs typed cmd 64 args 448).2 448 =
          argsText typed 64 448 := by
    have hStrings :=
      stringIn_parseCmdArgs hCmd hArgs hString cmd args
    rw [hLine] at hStrings
    exact hStrings
  have hFirst :=
    headD_stringIn (n := 64)
      (parseCmdArgs typed cmd 64 args 448).1 (by decide)
  rw [hTexts.1] at hFirst
  dsimp only
  rw [lineCall_eq hString, hTexts.1, hTexts.2, ← hFirst]
  refine if_congr ?_ rfl rfl
  cases hWord : cutWord typed 64 with
  | nil => exact iff_of_true rfl rfl
  | cons c word =>
      have hMem : c ∈ cutWord typed 64 := by
        rw [hWord]
        exact List.mem_cons_self
      have hNe : c ≠ 0 := fun hZero =>
        hString (mem_of_mem_cutWord (hZero ▸ hMem))
      exact iff_of_false (List.cons_ne_nil c word) hNe

end Rounds

/- The loop makes the calls of the session. -/
theorem shellLoop_session
    (use : KeyUse)
    (rounds : Nat)
    (s : ShellState)
    (codes : List UInt8) :
    shellLoop use rounds s codes =
      sessionCalls use rounds s.shiftDown codes := by
  induction rounds generalizing s codes with
  | zero => rw [shellLoop, sessionCalls]
  | succ rounds ih =>
      have hStart := holds_start s.input 511
      have hNothing : PrintableText [] :=
        fun _ hMem => absurd hMem List.not_mem_nil
      unfold shellLoop sessionCalls X86.sysReadLine
      rcases readLine_typed hStart hNothing codes with
        ⟨hWaits, hLine⟩ |
          ⟨typed, l, shiftDown, later, hRun, hLine, hRead⟩
      · rw [hWaits, hLine]
      · have hInput :=
          stored_input hRead.stored hRead.printable hRead.fits
        have hCall :=
          round_call hRead.printable hInput.2 s.cmd s.args
        rw [hRun, hLine]
        dsimp only
        rw [hInput.1, hCall]
        by_cases hEmpty :
            (parseCmdArgs typed s.cmd 64 s.args 448).1 0 = 0
        · rw [if_pos hEmpty, if_pos hEmpty]
          exact ih _ later
        · rw [if_neg hEmpty, if_neg hEmpty]
          refine congrArg _ ?_
          cases ShellCall.left use _ later with
          | none => rfl
          | some codes => exact ih _ codes

/- The first line, and then the others. -/
theorem typedLines_eq
    (room : Nat)
    (shiftDown : UInt32)
    (text codes : List UInt8) :
    typedLines room shiftDown text codes =
      match typedLine room shiftDown text codes with
      | none => []
      | some (typed, shiftDown, later) =>
          typed :: typedLines room shiftDown [] later := by
  induction codes generalizing shiftDown text with
  | nil => rfl
  | cons code codes ih =>
      rw [typedLines, typedLine]
      cases scanKey shiftDown code with
      | idle next => exact ih next text
      | edit e => exact ih shiftDown _
      | enter => rfl

/-
  When every call returns and leaves the keys alone, each
  round makes the call that one line asks for.
-/
theorem sessionCalls_lines
    {use : KeyUse}
    (rounds : Nat)
    (shiftDown : UInt32)
    (codes : List UInt8)
    (hKeep :
      ∀ call ∈ ((typedLines 511 shiftDown [] codes).take
          rounds).filterMap lineCall,
        ∀ later, call.left use later = some later) :
    sessionCalls use rounds shiftDown codes =
      ((typedLines 511 shiftDown [] codes).take
        rounds).filterMap lineCall := by
  induction rounds generalizing shiftDown codes with
  | zero => rw [List.take_zero, List.filterMap_nil, sessionCalls]
  | succ rounds ih =>
      rw [typedLines_eq] at hKeep ⊢
      unfold sessionCalls
      cases hLine : typedLine 511 shiftDown [] codes with
      | none => rfl
      | some line =>
          rcases line with ⟨typed, shiftDown', later⟩
          rw [hLine] at hKeep
          dsimp only at hKeep ⊢
          rw [List.take_succ_cons, List.filterMap_cons]
            at hKeep ⊢
          cases hCall : lineCall typed with
          | none =>
              rw [hCall] at hKeep
              exact ih shiftDown' later hKeep
          | some call =>
              rw [hCall] at hKeep
              rw [List.forall_mem_cons] at hKeep
              dsimp only
              rw [hKeep.1 later]
              exact congrArg _ (ih shiftDown' later hKeep.2)

------------------------------------------------------------
-- The Keys Of A PC
------------------------------------------------------------

/- A shift key is pressed. -/
def isShift
    (code : UInt8) : Prop :=
  code = 0x2A ∨ code = 0x36

/- Without shift no key has a blank: in its table the entry of
   the space bar is 0. -/
theorem scancodeToAscii_not_blank
    (code : UInt8) :
    isBlank (scancodeToAscii code 0) = false := by
  have hTable : ∀ n < 58, isBlank (ascUnshift.getD n 0) = false := by
    decide
  unfold scancodeToAscii
  rw [if_pos (rfl : (0 : UInt32) = 0)]
  split_ifs with hBeyond
  · rfl
  · have hCode : code.toNat ≤ 57 :=
      UInt8.le_iff_toNat_le.mp (UInt8.not_lt.mp hBeyond)
    exact hTable code.toNat (by omega)

theorem scanKey_unshifted
    {code : UInt8}
    (hCode : ¬ isShift code) :
    (∀ next, scanKey 0 code = .idle next → next = 0) ∧
      ∀ c, scanKey 0 code = .edit (.char c) →
        isBlank c = false := by
  have hNot : ¬ (code = 0x2A ∨ code = 0x36) := hCode
  refine ⟨fun next hKey => ?_, fun c hKey => ?_⟩
  · unfold scanKey at hKey
    rw [if_neg hNot] at hKey
    split_ifs at hKey
    · cases hKey
      rfl
    · cases hKey
      rfl
    · cases hKey
      rfl
  · unfold scanKey at hKey
    rw [if_neg hNot] at hKey
    split_ifs at hKey
    · cases hKey
    · cases hKey
      exact scancodeToAscii_not_blank code

/- A line without shift has no blank, and comes from keys. -/
theorem typedLine_unshifted
    {room : Nat}
    {text codes : List UInt8}
    (hText : ∀ c ∈ text, isBlank c = false)
    (hCodes : ∀ code ∈ codes, ¬ isShift code)
    {typed later : List UInt8}
    {shiftDown : UInt32}
    (hLine :
      typedLine room 0 text codes =
        some (typed, shiftDown, later)) :
    (∀ c ∈ typed, isBlank c = false) ∧ shiftDown = 0 ∧
      later <:+ codes := by
  induction codes generalizing text with
  | nil => cases hLine
  | cons code codes ih =>
      rw [List.forall_mem_cons] at hCodes
      have hKeys := scanKey_unshifted hCodes.1
      rw [typedLine] at hLine
      cases hKey : scanKey 0 code with
      | idle next =>
          rw [hKey] at hLine
          dsimp only at hLine
          rw [hKeys.1 next hKey] at hLine
          rcases ih hText hCodes.2 hLine with
            ⟨hTyped, hUp, hLater⟩
          exact ⟨hTyped, hUp,
            hLater.trans (List.suffix_cons _ _)⟩
      | edit e =>
          rw [hKey] at hLine
          have hEdited :
              ∀ c ∈ e.apply room text, isBlank c = false := by
            intro c hMem
            rcases Edit.mem_apply hMem with hOld | rfl
            · exact hText c hOld
            · exact hKeys.2 c hKey
          rcases ih hEdited hCodes.2 hLine with
            ⟨hTyped, hUp, hLater⟩
          exact ⟨hTyped, hUp,
            hLater.trans (List.suffix_cons code codes)⟩
      | enter =>
          rw [hKey] at hLine
          cases hLine
          exact ⟨hText, rfl, List.suffix_cons _ _⟩

/- A line without blanks has nothing behind its word. -/
theorem lineCall_word
    {word : List UInt8}
    (hWord : ∀ c ∈ word, isBlank c = false)
    {func : ShellCommand}
    {args : List UInt8}
    (hCall : lineCall word = some (.run func args)) :
    args = [] := by
  have hStart : word.dropWhile isBlank = word := by
    cases word with
    | nil => rfl
    | cons c word =>
        rw [List.dropWhile_cons_of_neg]
        rw [hWord c List.mem_cons_self]
        exact Bool.false_ne_true
  have hNot : ∀ c ∈ word, (!isBlank c) = true := by
    intro c hMem
    rw [hWord c hMem]
    rfl
  have hAfter : afterWord isBlank word = [] := by
    unfold afterWord
    rw [hStart]
    exact List.dropWhile_eq_nil_iff.mpr hNot
  unfold lineCall at hCall
  rw [hAfter] at hCall
  split_ifs at hCall
  cases hNamed : commandNamed (firstWord isBlank word) with
  | none =>
      rw [hNamed] at hCall
      cases hCall
  | some named =>
      rw [hNamed] at hCall
      cases hCall
      rfl

/- What a call leaves is an end of the keys. -/
theorem ShellCall.left_suffix
    {use : KeyUse}
    {call : ShellCall}
    {codes later : List UInt8}
    (hLeft : call.left use codes = some later) :
    later <:+ codes := by
  cases call with
  | run func args => exact use.suffix func args codes later hLeft
  | unknown cmd =>
      cases hLeft
      exact List.suffix_refl codes

/- Without shift no call of a session has an argument. -/
theorem sessionCalls_unshifted
    {use : KeyUse}
    (rounds : Nat)
    {codes : List UInt8}
    (hCodes : ∀ code ∈ codes, ¬ isShift code)
    {func : ShellCommand}
    {args : List UInt8}
    (hMem : .run func args ∈ sessionCalls use rounds 0 codes) :
    args = [] := by
  induction rounds generalizing codes with
  | zero => cases hMem
  | succ rounds ih =>
      have hNothing : ∀ c ∈ ([] : List UInt8), isBlank c = false :=
        fun c hMem => absurd hMem List.not_mem_nil
      unfold sessionCalls at hMem
      cases hLine : typedLine 511 0 [] codes with
      | none =>
          rw [hLine] at hMem
          cases hMem
      | some line =>
          rcases line with ⟨typed, shiftDown, later⟩
          rcases typedLine_unshifted hNothing hCodes hLine with
            ⟨hTyped, rfl, hLater⟩
          have hLaterCodes : ∀ code ∈ later, ¬ isShift code :=
            fun code hCode => hCodes code (hLater.mem hCode)
          rw [hLine] at hMem
          dsimp only at hMem
          cases hCall : lineCall typed with
          | none =>
              rw [hCall] at hMem
              exact ih hLaterCodes hMem
          | some call =>
              rw [hCall] at hMem
              rcases List.mem_cons.mp hMem with rfl | hRest
              · exact lineCall_word hTyped hCall
              · cases hLeft : call.left use later with
                | none =>
                    rw [hLeft] at hRest
                    cases hRest
                | some codes' =>
                    rw [hLeft] at hRest
                    have hEnd := ShellCall.left_suffix hLeft
                    exact ih
                      (fun code hCode =>
                        hLaterCodes code (hEnd.mem hCode))
                      hRest

/-
  For every stream of key codes, and whatever the commands do
  with the keys, the shell makes the calls that the typed
  lines ask for, in their order.  They are one a line when
  every command returns without reading keys.  As long as no
  shift key is pressed no blank can be typed on the PC, and
  no command is called with an argument.
-/
theorem pcShell_calls
    (use : KeyUse)
    (rounds : Nat)
    (s : ShellState)
    (codes : List UInt8) :
    shellLoop use rounds s codes =
        sessionCalls use rounds s.shiftDown codes ∧
      ((∀ call ∈ ((typedLines 511 s.shiftDown [] codes).take
            rounds).filterMap lineCall,
          ∀ later, call.left use later = some later) →
        shellLoop use rounds s codes =
          ((typedLines 511 s.shiftDown [] codes).take
            rounds).filterMap lineCall) ∧
      (s.shiftDown = 0 → (∀ code ∈ codes, ¬ isShift code) →
        ∀ func args,
          .run func args ∈ shellLoop use rounds s codes →
            args = []) := by
  have hSession := shellLoop_session use rounds s codes
  refine ⟨hSession, fun hKeep => ?_,
    fun hUp hCodes func args hMem => ?_⟩
  · exact hSession.trans
      (sessionCalls_lines rounds s.shiftDown codes hKeep)
  · rw [hSession, hUp] at hMem
    exact sessionCalls_unshifted rounds hCodes hMem

/- A game takes all keys that are typed before it ends. -/
def gameKeys : KeyUse where
  left func _ codes :=
    if func = .exit ∨ func = .reboot then none
    else if func = .game then some []
    else some codes
  suffix func args codes later hLeft := by
    split_ifs at hLeft
    · cases hLeft
      exact List.nil_suffix
    · cases hLeft
      exact List.suffix_refl codes
  exit _ _ := rfl
  reboot _ _ := rfl

/- `la`, a key that takes back, `s`, then `ls`, the space bar
   and a further key: the second line has no blank. -/
def lsCodes : List UInt8 :=
  [0x26, 0x1E, 0x0E, 0x1F, 0x1C, 0x26, 0x1F, 0x39, 0x2E, 0x1C]

/- `ls`, then `exit`, and an `ls` that is not read any more. -/
def exitCodes : List UInt8 :=
  [0x26, 0x1F, 0x1C, 0x12, 0x2E, 0x17, 0x14, 0x1C, 0x26, 0x1F,
    0x1C]

theorem pcShell_calls_ls :
    shellLoop gameKeys 5 ⟨zeros, zeros, zeros, 0⟩ lsCodes =
        [.run .ls [], .unknown (ascii "lsx")] ∧
      (∀ func args,
        .run func args ∈
            shellLoop gameKeys 5 ⟨zeros, zeros, zeros, 0⟩
              lsCodes →
          args = []) ∧
      shellLoop gameKeys 5 ⟨zeros, zeros, zeros, 0⟩ exitCodes =
        [.run .ls [], .run .exit []] := by
  have hLines :
      ((typedLines 511 0 [] lsCodes).take 5).filterMap lineCall =
        [.run .ls [], .unknown (ascii "lsx")] := by
    decide
  have hKeep :
      ∀ call ∈
          ((typedLines 511 0 [] lsCodes).take 5).filterMap
            lineCall,
        ∀ later, call.left gameKeys later = some later := by
    rw [hLines]
    simp [ShellCall.left, gameKeys]
  have hCodes : ∀ code ∈ lsCodes, ¬ isShift code := by
    simp [lsCodes, isShift]
  rcases pcShell_calls gameKeys 5 ⟨zeros, zeros, zeros, 0⟩ lsCodes
    with ⟨_, hCalls, hArgs⟩
  rcases pcShell_calls gameKeys 5 ⟨zeros, zeros, zeros, 0⟩
    exitCodes with ⟨hExits, _, _⟩
  exact ⟨(hCalls hKeep).trans hLines, hArgs rfl hCodes,
    hExits.trans (by decide)⟩

end Shell

end AsmOS
