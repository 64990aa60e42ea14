import AsmOS.Console.ScanFields
import AsmOS.Shell.ShellSession

/-
  The commands of the shell that scan their words with fields
  such as `%31s` (`src/shell.c`).

  On a PC the scanner passes such a field over, so a command
  finds no word and only prints.  The library's scanner of
  the PS2 build reads the words.

  Main declarations:
    * `Scanner`, `pcScanner`, `ps2Scanner`
    * `SubsystemCall`, `wordCalls`
    * `pcScanner_fields`, `ps2Scanner_words`
    * `ReadsWords`, `pcShell_prints`
-/

------------------------------------------------------------
-- Scanners
------------------------------------------------------------

namespace AsmOS

namespace Shell

open ByteMem Console

/- The values that a scanner stores, in order. -/
abbrev Scanner : Type :=
  List Conv → List UInt8 → List Value

/- `ksscanf` of the PC build; no format ends in a percent. -/
def pcScanner : Scanner :=
  fun cs str =>
    ((ksscanf (formatOf cs) str).getD []).map Assigned.value

/- `vsscanf`, which the PS2 build calls. -/
def ps2Scanner : Scanner :=
  fun cs str => (sscanf cs str).map Assigned.value

def Value.text? : Value → List UInt8
| .text bytes => bytes
| _ => []

/-
  The array behind the `i`th field after a scan.  It starts
  as the empty string.
-/
def wordAt
    (values : List Value)
    (i : Nat) : List UInt8 :=
  (values[i]?.map Value.text?).getD []

/- A variable behind `%d` or `%x` after a scan. -/
def numberOr
    (val : Int32)
    (values : List Value) : Int32 :=
  match values with
  | .number n :: _ => n
  | _ => val

abbrev field31 : Conv := .field 31 (by decide)

abbrev field23 : Conv := .field 23 (by decide)

abbrev field63 : Conv := .field 63 (by decide)

------------------------------------------------------------
-- Commands
------------------------------------------------------------

/- The calls that the commands make. -/
inductive SubsystemCall where
| controllerProfileList
| controllerProfileSave (name : List UInt8)
| controllerProfileLoad (name : List UInt8)
| controllerProfileApply (name : List UInt8)
| controllerSetSensitivity (val : Int32)
| controllerSetDeadzone (val : Int32)
| controllerSetTurbo (mask : Int32)
| controllerRemapPrintCurrent
| quantumSuperpose (a b : List UInt8) (weight : UInt8)
| ftpClient (host args : List UInt8)
| telnetClient (host args : List UInt8)
| ircClient (host channel nick : List UInt8)
| gameHistoryPrintHistory
| gameHistoryPrintStats
| gameHistoryPrintLast
| musicPlay (path : Option (List UInt8))
| musicList (path : Option (List UInt8))
| musicBackground (on : Bool)
| musicPrintStatus
| musicAddToPlaylist (path : List UInt8)
| musicPlaylistList
| musicPlaylistClear
| saveManagerList
| saveManagerBackup (slot : Int32) (name : List UInt8)
| saveManagerRestore (slot : Int32) (name : List UInt8)
| saveManagerClone (dest src : Int32)
| saveManagerListVersions (slot : Int32)
| saveManagerRollback (slot version : Int32)
-- The text that a command prints when it does nothing else.
| usage
deriving DecidableEq

/- `ksstrcmp(a, b) == 0`. -/
def sameText
    (a : List UInt8)
    (b : String) : Bool :=
  ksstrcmp a (ascii b) = 0

/- The scan of a command, which skips an empty line. -/
def scanArgs
    (scan : Scanner)
    (cs : List Conv)
    (args : List UInt8) : List Value :=
  if args ≠ [] then scan cs args else []

/- `cmd_controller` behind its first scan. -/
def controllerWords
    (scan : Scanner)
    (sub name name2 : List UInt8) : List SubsystemCall :=
  if sameText sub "profile" ∧ sameText name "list" then
    [.controllerProfileList]
  else if sameText sub "profile" ∧ sameText name "save" ∧
      name2 ≠ [] then
    [.controllerProfileSave name2]
  else if sameText sub "profile" ∧ sameText name "load" ∧
      name2 ≠ [] then
    [.controllerProfileLoad name2]
  else if sameText sub "profile" ∧ sameText name "apply" ∧
      name2 ≠ [] then
    [.controllerProfileApply name2]
  else if sameText sub "sensitivity" ∧ name ≠ [] then
    [.controllerSetSensitivity (numberOr 128 (scan [.d] name))]
  else if sameText sub "deadzone" ∧ name ≠ [] then
    [.controllerSetDeadzone (numberOr 32 (scan [.d] name))]
  else if sameText sub "turbo" then
    (if sameText name "on" then [.controllerSetTurbo 0xFFFF]
      else if sameText name "off" then [.controllerSetTurbo 0]
      else if name ≠ [] then
        [.controllerSetTurbo (numberOr 0 (scan [.x] name))]
      else []) ++
      [.controllerRemapPrintCurrent]
  else if sameText sub "current" then
    [.controllerRemapPrintCurrent]
  else
    [.controllerRemapPrintCurrent, .usage]

/- `cmd_controller`. -/
def cmdController
    (scan : Scanner)
    (args : List UInt8) : List SubsystemCall :=
  let got := scanArgs scan [field31, field23, field23] args
  controllerWords scan (wordAt got 0) (wordAt got 1)
    (wordAt got 2)

/- `cmd_superpose`. -/
def cmdSuperpose
    (scan : Scanner)
    (args : List UInt8) : List SubsystemCall :=
  let got := scan [field23, field23] args
  if wordAt got 0 = [] ∨ wordAt got 1 = [] then [.usage]
  else [.quantumSuperpose (wordAt got 0) (wordAt got 1) 128]

/- `cmd_ftp`. -/
def cmdFtp
    (scan : Scanner)
    (args : List UInt8) : List SubsystemCall :=
  let host := wordAt (scanArgs scan [field63] args) 0
  if host = [] then [.usage] else [.ftpClient host args]

/- `cmd_telnet`. -/
def cmdTelnet
    (scan : Scanner)
    (args : List UInt8) : List SubsystemCall :=
  let host := wordAt (scanArgs scan [field63] args) 0
  if host = [] then [.usage] else [.telnetClient host args]

/- `cmd_irc`. -/
def cmdIrc
    (scan : Scanner)
    (args : List UInt8) : List SubsystemCall :=
  let got := scanArgs scan [field63, field31] args
  let host := wordAt got 0
  let chan := wordAt got 1
  if host = [] then [.usage]
  else
    [.ircClient host
      (if chan ≠ [] then chan else ascii "#asmos")
      (ascii "asmos")]

/- `cmd_games` behind its scan. -/
def gamesWords
    (sub : List UInt8) : List SubsystemCall :=
  if sameText sub "history" then [.gameHistoryPrintHistory]
  else if sameText sub "stats" then [.gameHistoryPrintStats]
  else if sameText sub "last" then [.gameHistoryPrintLast]
  else [.usage]

/- `cmd_games`. -/
def cmdGames
    (scan : Scanner)
    (args : List UInt8) : List SubsystemCall :=
  gamesWords (wordAt (scanArgs scan [field31] args) 0)

/- `cmd_music` behind its scan. -/
def musicWords
    (sub arg2 arg3 : List UInt8) : List SubsystemCall :=
  if sameText sub "play" then
    [.musicPlay (if arg2 ≠ [] then some arg2 else none)]
  else if sameText sub "list" then
    [.musicList (if arg2 ≠ [] then some arg2 else none)]
  else if sameText sub "background" then
    if sameText arg2 "on" then [.musicBackground true]
    else if sameText arg2 "off" then [.musicBackground false]
    else [.musicPrintStatus]
  else if sameText sub "status" then [.musicPrintStatus]
  else if sameText sub "playlist" ∧ sameText arg2 "add" then
    if arg3 ≠ [] then [.musicAddToPlaylist arg3] else [.usage]
  else if sameText sub "playlist" ∧ sameText arg2 "list" then
    [.musicPlaylistList]
  else if sameText sub "playlist" ∧ sameText arg2 "clear" then
    [.musicPlaylistClear]
  else [.usage]

/- `cmd_music`. -/
def cmdMusic
    (scan : Scanner)
    (args : List UInt8) : List SubsystemCall :=
  let got := scanArgs scan [field31, field63, field63] args
  musicWords (wordAt got 0) (wordAt got 1) (wordAt got 2)

/- `cmd_saves` behind its first scan. -/
def savesWords
    (scan : Scanner)
    (sub a1 a2 : List UInt8) : List SubsystemCall :=
  let number := fun text => numberOr 0 (scan [.d] text)
  let slot := if a1 ≠ [] then number a1 else 0
  if sameText sub "list" then [.saveManagerList]
  else if sameText sub "backup" then
    [.saveManagerBackup slot
      (if a2 ≠ [] then a2
        else if a1 ≠ [] then a1 else ascii "backup")]
  else if sameText sub "restore" then
    [.saveManagerRestore slot
      (if a2 ≠ [] then a2 else ascii "backup")]
  else if sameText sub "clone" ∧ a1 ≠ [] ∧ a2 ≠ [] then
    [.saveManagerClone (number a1) (number a2)]
  else if sameText sub "versions" then
    [.saveManagerListVersions slot]
  else if sameText sub "rollback" ∧ a1 ≠ [] ∧ a2 ≠ [] then
    [.saveManagerRollback (number a1) (number a2)]
  else [.usage]

/- `cmd_saves`. -/
def cmdSaves
    (scan : Scanner)
    (args : List UInt8) : List SubsystemCall :=
  let got := scanArgs scan [field31, field31, field31] args
  savesWords scan (wordAt got 0) (wordAt got 1) (wordAt got 2)

/- What these commands call; the other commands are left out. -/
def wordCalls
    (scan : Scanner) : ShellCall → List SubsystemCall
| .run .controller args => cmdController scan args
| .run .superpose args => cmdSuperpose scan args
| .run .ftp args => cmdFtp scan args
| .run .telnet args => cmdTelnet scan args
| .run .irc args => cmdIrc scan args
| .run .games args => cmdGames scan args
| .run .music args => cmdMusic scan args
| .run .saves args => cmdSaves scan args
| _ => []

------------------------------------------------------------
-- The Scanner Of The PC
------------------------------------------------------------

/- The conversion is a word with a width. -/
def IsField : Conv → Prop
| .field _ _ => True
| _ => False

theorem fieldScan_fields
    {cs : List Conv}
    (hFields : ∀ c ∈ cs, IsField c)
    (str : List UInt8) :
    fieldScan cs str = [] := by
  induction cs generalizing str with
  | nil => rfl
  | cons c cs ih =>
      rcases List.forall_mem_cons.mp hFields with ⟨hHere, hRest⟩
      have hBehind :
          ∀ rest, separated (fieldScan cs) cs rest = [] := by
        intro rest
        unfold separated
        split
        · rfl
        · rfl
        · split
          · exact ih hRest _
          · rfl
      unfold fieldScan
      split
      · rfl
      · cases c with
        | field width hPos =>
            by_cases hPrefix : widthLiterals width <+: str
            · simp only [Conv.pass, if_pos hPrefix, hBehind,
                Option.map_none, Option.toList_none,
                List.append_nil]
            · simp only [Conv.pass, if_neg hPrefix]
        | _ => exact hHere.elim

/- Fields store nothing. -/
theorem pcScanner_fields
    {cs : List Conv}
    (hFields : ∀ c ∈ cs, IsField c)
    (str : List UInt8) :
    pcScanner cs str = [] := by
  unfold pcScanner
  rw [ksscanf_formatOf, fieldScan_fields hFields]
  rfl

theorem scanArgs_fields
    {cs : List Conv}
    (hFields : ∀ c ∈ cs, IsField c)
    (args : List UInt8) :
    scanArgs pcScanner cs args = [] := by
  unfold scanArgs
  split
  · exact pcScanner_fields hFields args
  · rfl

------------------------------------------------------------
-- The Scanner Of The PS2
------------------------------------------------------------

/- A word that a line can hold. -/
structure IsWord
    (word : List UInt8) : Prop where
  some_char : word ≠ []
  no_space : ∀ b ∈ word, ¬ IsSpace b

/- Words behind one space each. -/
def spaced : List (List UInt8) → List UInt8
| [] => []
| w :: ws => 0x20 :: (w ++ spaced ws)

/- A line of words. -/
def wordLine : List (List UInt8) → List UInt8
| [] => []
| w :: ws => w ++ spaced ws

/- A word is short enough for a field. -/
def FitsField
    (c : Conv)
    (word : List UInt8) : Prop :=
  match c with
  | .field width _ => IsWord word ∧ word.length ≤ width
  | _ => False

/-
  Each word is short enough for its field.  There may be more
  fields than words, or more words than fields.
-/
def FitFields : List Conv → List (List UInt8) → Prop
| c :: cs, w :: ws => FitsField c w ∧ FitFields cs ws
| _, _ => True

section Words

variable {w : List UInt8} {ws : List (List UInt8)}
variable {width : Nat}

theorem takeWhile_word
    (hWord : IsWord w)
    (ws : List (List UInt8)) :
    (w ++ spaced ws).takeWhile (fun b => ¬ IsSpace b) = w := by
  have hBehind :
      (spaced ws).takeWhile (fun b => ¬ IsSpace b) = [] := by
    cases ws with
    | nil => rfl
    | cons v ws => rfl
  rw [List.takeWhile_append_of_pos fun b hMem => by
      simpa using hWord.no_space b hMem,
    hBehind, List.append_nil]

theorem readWord_word
    (hWord : IsWord w)
    (hFits : w.length ≤ width)
    (ws : List (List UInt8)) :
    readWord (some width) (w ++ spaced ws) =
      some (.text w, spaced ws) := by
  have hStarts :
      StartsWith (fun b => ¬ IsSpace b) (w ++ spaced ws) := by
    cases w with
    | nil => exact absurd rfl hWord.some_char
    | cons b w => exact hWord.no_space b List.mem_cons_self
  unfold readWord
  dsimp only
  rw [skipSpace_eq hStarts, takeWhile_word hWord,
    Option.map_some, Option.getD_some,
    List.take_of_length_le hFits, if_neg hWord.some_char,
    List.drop_left]

/- A word is read by its field, behind a space as well. -/
theorem read_field
    {c : Conv}
    (hFits : FitsField c w)
    (ws : List (List UInt8)) :
    c.read (w ++ spaced ws) = some (.text w, spaced ws) ∧
      c.read (spaced (w :: ws)) =
        some (.text w, spaced ws) := by
  cases c with
  | field width hPos =>
      have hRead := readWord_word hFits.1 hFits.2 ws
      exact ⟨hRead, hRead⟩
  | _ => exact hFits.elim

/- Without a word there is nothing to read. -/
theorem sscanf_end
    {cs : List Conv}
    (hFields : ∀ c ∈ cs, IsField c) :
    sscanf cs [] = [] := by
  cases cs with
  | nil => rfl
  | cons c cs =>
      cases c with
      | field width hPos =>
          have hNothing :
              (Conv.field width hPos).read [] = none := by
            unfold Conv.read readWord skipSpace
            simp
          rw [sscanf, hNothing]
      | _ => exact (hFields _ List.mem_cons_self).elim

theorem sscanf_spaced
    {cs : List Conv}
    (hFields : ∀ c ∈ cs, IsField c)
    (hFits : FitFields cs ws) :
    (sscanf cs (spaced ws)).map Assigned.value =
      (ws.map Value.text).take cs.length := by
  induction cs generalizing ws with
  | nil => rfl
  | cons c cs ih =>
      rcases List.forall_mem_cons.mp hFields with ⟨_, hRest⟩
      cases ws with
      | nil =>
          rw [spaced, sscanf_end hFields]
          rfl
      | cons w ws =>
          rw [sscanf, (read_field hFits.1 ws).2]
          simp only [List.map_cons, List.length_cons,
            List.take_succ_cons, ih hRest hFits.2]

/- Fields store the words of the line, as many as they are. -/
theorem ps2Scanner_words
    {cs : List Conv}
    (hFields : ∀ c ∈ cs, IsField c)
    (hFits : FitFields cs ws) :
    ps2Scanner cs (wordLine ws) =
      (ws.map Value.text).take cs.length := by
  unfold ps2Scanner
  cases cs with
  | nil => rfl
  | cons c cs =>
      cases ws with
      | nil =>
          rw [wordLine, sscanf_end hFields]
          rfl
      | cons w ws =>
          have hRest := (List.forall_mem_cons.mp hFields).2
          rw [wordLine, sscanf, (read_field hFits.1 ws).1]
          simp only [List.map_cons, List.length_cons,
            List.take_succ_cons, sscanf_spaced hRest hFits.2]

/- The arrays hold the words, and are empty behind the last. -/
theorem wordAt_words
    {cs : List Conv}
    (hFields : ∀ c ∈ cs, IsField c)
    (hFits : FitFields cs ws)
    {i : Nat}
    (hField : i < cs.length) :
    wordAt (ps2Scanner cs (wordLine ws)) i = ws.getD i [] := by
  rw [ps2Scanner_words hFields hFits, wordAt,
    List.getElem?_take_of_lt hField, List.getElem?_map,
    List.getD_eq_getElem?_getD]
  cases ws[i]? with
  | none => rfl
  | some w => rfl

theorem scanArgs_words
    {cs : List Conv}
    (hFields : ∀ c ∈ cs, IsField c)
    (hFits : FitFields cs ws)
    {i : Nat}
    (hField : i < cs.length) :
    wordAt (scanArgs ps2Scanner cs (wordLine ws)) i =
      ws.getD i [] := by
  unfold scanArgs
  split
  · exact wordAt_words hFields hFits hField
  · -- An empty line has no words.
    rename_i hEmpty
    cases ws with
    | nil => rfl
    | cons w ws =>
        cases cs with
        | nil => exact absurd hField (Nat.not_lt_zero i)
        | cons c cs =>
            have hWord : IsWord w := by
              have hHere := hFits.1
              cases c with
              | field width hPos => exact hHere.1
              | _ => exact hHere.elim
            rw [not_not, wordLine] at hEmpty
            exact absurd (List.append_eq_nil_iff.mp hEmpty).1
              hWord.some_char

end Words

------------------------------------------------------------
-- What The Commands Do
------------------------------------------------------------

/- The call prints and changes nothing. -/
def SubsystemCall.Prints
    (call : SubsystemCall) : Prop :=
  call = .usage ∨ call = .controllerRemapPrintCurrent

/- Without words every command prints its usage. -/
theorem wordCalls_pc
    (call : ShellCall) :
    ∀ made ∈ wordCalls pcScanner call, made.Prints := by
  have hUsage :
      ∀ made ∈ [SubsystemCall.usage], made.Prints := by
    intro made hMade
    exact Or.inl (List.mem_singleton.mp hMade)
  unfold wordCalls
  split
  · rw [cmdController, scanArgs_fields (by simp [IsField])]
    intro made hMade
    rcases List.mem_pair.mp hMade with rfl | rfl
    · exact Or.inr rfl
    · exact Or.inl rfl
  · rw [cmdSuperpose, pcScanner_fields (by simp [IsField])]
    exact hUsage
  · rw [cmdFtp, scanArgs_fields (by simp [IsField])]
    exact hUsage
  · rw [cmdTelnet, scanArgs_fields (by simp [IsField])]
    exact hUsage
  · rw [cmdIrc, scanArgs_fields (by simp [IsField])]
    exact hUsage
  · rw [cmdGames, scanArgs_fields (by simp [IsField])]
    exact hUsage
  · rw [cmdMusic, scanArgs_fields (by simp [IsField])]
    exact hUsage
  · rw [cmdSaves, scanArgs_fields (by simp [IsField])]
    exact hUsage
  · exact fun _ hNone => absurd hNone List.not_mem_nil

section Ps2

theorem fields_three
    (a b c : Nat)
    (ha : 0 < a)
    (hb : 0 < b)
    (hc : 0 < c) :
    ∀ conv ∈ [Conv.field a ha, .field b hb, .field c hc],
      IsField conv := by
  simp [IsField]

/-
  The PS2 build hands every word of a line to the command, as
  long as it fits the array for it.  A word that is not typed
  is empty.
-/
structure ReadsWords : Prop where
  controller :
    ∀ ws, FitFields [field31, field23, field23] ws →
      wordCalls ps2Scanner (.run .controller (wordLine ws)) =
        controllerWords ps2Scanner (ws.getD 0 []) (ws.getD 1 [])
          (ws.getD 2 [])
  superpose :
    ∀ a b ws, FitFields [field23, field23] (a :: b :: ws) →
      wordCalls ps2Scanner
          (.run .superpose (wordLine (a :: b :: ws))) =
        [.quantumSuperpose a b 128]
  ftp :
    ∀ host ws, FitsField field63 host →
      wordCalls ps2Scanner (.run .ftp (wordLine (host :: ws))) =
        [.ftpClient host (wordLine (host :: ws))]
  telnet :
    ∀ host ws, FitsField field63 host →
      wordCalls ps2Scanner
          (.run .telnet (wordLine (host :: ws))) =
        [.telnetClient host (wordLine (host :: ws))]
  irc :
    ∀ host chan ws, FitFields [field63, field31] [host, chan] →
      wordCalls ps2Scanner
          (.run .irc (wordLine (host :: chan :: ws))) =
        [.ircClient host chan (ascii "asmos")]
  games :
    ∀ ws, FitFields [field31] ws →
      wordCalls ps2Scanner (.run .games (wordLine ws)) =
        gamesWords (ws.getD 0 [])
  music :
    ∀ ws, FitFields [field31, field63, field63] ws →
      wordCalls ps2Scanner (.run .music (wordLine ws)) =
        musicWords (ws.getD 0 []) (ws.getD 1 []) (ws.getD 2 [])
  saves :
    ∀ ws, FitFields [field31, field31, field31] ws →
      wordCalls ps2Scanner (.run .saves (wordLine ws)) =
        savesWords ps2Scanner (ws.getD 0 []) (ws.getD 1 [])
          (ws.getD 2 [])

theorem FitsField.ne_nil
    {width : Nat}
    {hPos : 0 < width}
    {word : List UInt8}
    (hFits : FitsField (.field width hPos) word) :
    word ≠ [] :=
  hFits.1.some_char

/- The word of a command with one field. -/
theorem scanArgs_host
    {host : List UInt8}
    (hFits : FitsField field63 host)
    (ws : List (List UInt8)) :
    wordAt (scanArgs ps2Scanner [field63] (wordLine (host :: ws)))
        0 =
      host := by
  have hFields : ∀ c ∈ [field63], IsField c := by
    simp [IsField]
  have hLine : FitFields [field63] (host :: ws) := ⟨hFits, trivial⟩
  exact scanArgs_words hFields hLine (by decide)

theorem readsWords : ReadsWords where
  controller := by
    intro ws hFits
    have hFields := fields_three 31 23 23 (by decide) (by decide)
      (by decide)
    unfold wordCalls
    dsimp only
    rw [cmdController, scanArgs_words hFields hFits (by decide),
      scanArgs_words hFields hFits (by decide),
      scanArgs_words hFields hFits (by decide)]
  superpose := by
    intro a b ws hFits
    have hFields : ∀ c ∈ [field23, field23], IsField c := by
      simp [IsField]
    have hSome : ¬ (a = [] ∨ b = []) := by
      rintro (rfl | rfl)
      · exact hFits.1.ne_nil rfl
      · exact hFits.2.1.ne_nil rfl
    unfold wordCalls
    dsimp only
    rw [cmdSuperpose, wordAt_words hFields hFits (by decide),
      wordAt_words hFields hFits (by decide)]
    exact if_neg hSome
  ftp := by
    intro host ws hFits
    unfold wordCalls
    dsimp only
    rw [cmdFtp, scanArgs_host hFits]
    exact if_neg hFits.ne_nil
  telnet := by
    intro host ws hFits
    unfold wordCalls
    dsimp only
    rw [cmdTelnet, scanArgs_host hFits]
    exact if_neg hFits.ne_nil
  irc := by
    intro host chan ws hFits
    have hFields : ∀ c ∈ [field63, field31], IsField c := by
      simp [IsField]
    have hLine : FitFields [field63, field31] (host :: chan :: ws) :=
      ⟨hFits.1, hFits.2.1, trivial⟩
    unfold wordCalls
    dsimp only
    rw [cmdIrc, scanArgs_words hFields hLine (by decide),
      scanArgs_words hFields hLine (by decide)]
    change (if host = [] then _ else
      [SubsystemCall.ircClient host (if chan ≠ [] then _ else _) _]) =
        _
    rw [if_neg hFits.1.ne_nil, if_pos hFits.2.1.ne_nil]
    rfl
  games := by
    intro ws hFits
    have hFields : ∀ c ∈ [field31], IsField c := by
      simp [IsField]
    unfold wordCalls
    dsimp only
    rw [cmdGames, scanArgs_words hFields hFits (by decide)]
  music := by
    intro ws hFits
    have hFields := fields_three 31 63 63 (by decide) (by decide)
      (by decide)
    unfold wordCalls
    dsimp only
    rw [cmdMusic, scanArgs_words hFields hFits (by decide),
      scanArgs_words hFields hFits (by decide),
      scanArgs_words hFields hFits (by decide)]
  saves := by
    intro ws hFits
    have hFields := fields_three 31 31 31 (by decide) (by decide)
      (by decide)
    unfold wordCalls
    dsimp only
    rw [cmdSaves, scanArgs_words hFields hFits (by decide),
      scanArgs_words hFields hFits (by decide),
      scanArgs_words hFields hFits (by decide)]

end Ps2

/-
  On a PC no session of the shell reaches what eight of its
  commands are for: whatever is typed, they only print.  The
  PS2 build reads their words.
-/
theorem pcShell_prints :
    (∀ use rounds s codes,
      ∀ call ∈ shellLoop use rounds s codes,
        ∀ made ∈ wordCalls pcScanner call, made.Prints) ∧
      ReadsWords :=
  ⟨fun _ _ _ _ call _ => wordCalls_pc call, readsWords⟩

end Shell

end AsmOS
