import Mathlib.Algebra.Order.BigOperators.Group.List
import AsmOS.Base.CStrings
import AsmOS.Console.Kprintf
import AsmOS.Games.GameHistory

/-
  The launcher of `src/game.c` and the reports of
  `src/game_history.c`.

  A launch plays a game for some ticks and enters it in the
  history.  The reports print the entries, their sums, the
  game that was played most and the one that was played last.

  `Reports` is about what they hand to `kprintf`, which the
  PS2 build formats with `vsnprintf`.  `PcReports` is about
  the console of the PC: its `kprintf` has no widths and no
  `%u`, and shows question marks for them.

  Main declarations:
    * `Launcher`, `launchGame`, `stopGame`, `runLauncher`
    * `printHistory`, `printStats`, `printLast`
    * `Reports`, `PcReports`
    * `Told`, `playSession_told`
    * `launcher_reports`
-/

------------------------------------------------------------
-- The Launcher
------------------------------------------------------------

namespace AsmOS

namespace Games

open ByteMem KeyedTable Console

/- The names in the table `games`. -/
def gameNames : List CString :=
  [⟨ascii "Snake", by decide⟩, ⟨ascii "Pong", by decide⟩,
    ⟨ascii "Tetris", by decide⟩,
    ⟨ascii "Space Invaders", by decide⟩,
    ⟨ascii "Racing", by decide⟩]

abbrev gameCount : Int32 := 5

theorem nil_ended :
    (0 : UInt8) ∉ ([] : List UInt8) :=
  List.not_mem_nil

/- `games[game_index].name`. -/
def gameName
    (gameIndex : Int32) : CString :=
  gameNames.getD gameIndex.toInt.toNat ⟨[], nil_ended⟩

/- The static variables of the launcher and the history. -/
structure Launcher where
  currentGame : Int32
  gameRunning : Bool
  history : GameHistory

/- What a call prints: a text, or a format and arguments. -/
inductive Printed where
| text (str : List UInt8)
| format (fmt : List UInt8) (args : List Arg)

/-
  `launch_game`; `ticks` is how often the loop of the game
  calls `game_history_tick`.
-/
def launchGame
    (gameIndex : Int32)
    (ticks : Nat)
    (s : Launcher) : Launcher × List Printed :=
  if gameIndex < 0 ∨ gameCount ≤ gameIndex then
    (s, [.text (ascii "Invalid game index!\n")])
  else
    let name := gameName gameIndex
    let s :=
      { s with
        currentGame := gameIndex
        history := gameHistorySessionStart gameIndex s.history }
    let s :=
      { s with
        gameRunning := true
        history := gameTicks ticks s.history }
    let s :=
      { s with
        gameRunning := false
        history :=
          gameHistorySessionEnd gameIndex name s.history }
    ({ s with currentGame := -1 },
      [.format (ascii "Launching %s...\n") [.text name.chars],
        .format (ascii "%s completed!\n") [.text name.chars]])

/- `stop_game`. -/
def stopGame
    (s : Launcher) : Launcher × List Printed :=
  if s.gameRunning ∧ 0 ≤ s.currentGame then
    ({ s with gameRunning := false, currentGame := -1 },
      [.text (ascii "Game stopped\n")])
  else
    (s, [])

inductive LauncherCall where
| launch (gameIndex : Int32) (ticks : Nat)
| stop

def LauncherCall.run
    (s : Launcher) : LauncherCall → Launcher
| .launch gameIndex ticks => (launchGame gameIndex ticks s).1
| .stop => (stopGame s).1

/- The calls from the start of the system on. -/
def runLauncher
    (calls : List LauncherCall) : Launcher :=
  calls.foldl LauncherCall.run
    { currentGame := -1
      gameRunning := false
      history := gameHistoryInit }

------------------------------------------------------------
-- The Reports
------------------------------------------------------------

def reportRule : Printed :=
  .text (ascii "  ----------------------------------------\n\n")

/- The line of `game_history_print_history` for an entry. -/
def historyLine
    (name lastPlayed : List UInt8)
    (playtime launches : UInt32) : Printed :=
  .format
    (ascii
      "  %-12s  last: %-8s  playtime: %u ticks  launches: %u\n")
    [.text name, .text lastPlayed, .word playtime,
      .word launches]

def historyHeader : List Printed :=
  [.text (ascii "\n  "), .text (ascii " games history "),
    .text (ascii " --------------------------------\n")]

/- `game_history_print_history`. -/
def printHistory
    (s : GameHistory) : List Printed :=
  historyHeader ++
    (if s.entries.length = 0 then
      [.text (ascii "  No games played yet. Use "),
        .text (ascii "game <n>"), .text (ascii " to play.\n"),
        reportRule]
    else
      s.entries.map (fun e =>
        historyLine e.name.chars e.lastPlayed e.playtimeSec
          e.launchCount) ++
        [reportRule])

/- What `game_history_print_stats` prints of its numbers. -/
def statsLines
    (playtime launches : UInt32)
    (name : List UInt8)
    (most : UInt32) : List Printed :=
  [.format (ascii "  Total playtime:  %u ticks\n")
      [.word playtime],
    .format (ascii "  Total launches: %u\n") [.word launches],
    .format (ascii "  Most played:    %s (%u ticks)\n")
      [.text name, .word most],
    reportRule]

/- A sum over the entries, as the loop adds it up. -/
def entryTotal
    (v : GameHistoryEntry → UInt32)
    (es : List GameHistoryEntry) : UInt32 :=
  es.foldl (fun total e => total + v e) 0

/- `entries[i].playtime_sec > entries[most].playtime_sec`. -/
def playedMore
    (a b : GameHistoryEntry) : Bool :=
  b.playtimeSec < a.playtimeSec

/- `entries[i].last_session_id > entries[last].last_session_id`. -/
def playedLater
    (a b : GameHistoryEntry) : Bool :=
  b.lastSessionId < a.lastSessionId

def statsHeader : List Printed :=
  [.text (ascii "\n  "), .text (ascii " games stats "),
    .text (ascii " ----------------------------------\n")]

/- `game_history_print_stats`. -/
def printStats
    (s : GameHistory) : List Printed :=
  statsHeader ++
    (match s.entries with
    | [] => [.text (ascii "  No games played yet.\n"), reportRule]
    | e :: es =>
        let most := keepGreatest playedMore e (e :: es)
        statsLines
          (entryTotal GameHistoryEntry.playtimeSec (e :: es))
          (entryTotal GameHistoryEntry.launchCount (e :: es))
          most.name.chars most.playtimeSec)

/- What `game_history_print_last` prints of an entry. -/
def lastLines
    (name lastPlayed : List UInt8)
    (playtime launches : UInt32) : List Printed :=
  [.format (ascii "  Last played: %s\n") [.text name],
    .format
      (ascii
        "  Session:     %s  |  playtime: %u ticks  |  launches: %u\n")
      [.text lastPlayed, .word playtime, .word launches],
    reportRule]

def lastHeader : List Printed :=
  [.text (ascii "\n  "), .text (ascii " games last "),
    .text (ascii " -------------------------------------\n")]

/- `game_history_print_last`. -/
def printLast
    (s : GameHistory) : List Printed :=
  lastHeader ++
    (match s.entries with
    | [] => [.text (ascii "  No games played yet.\n"), reportRule]
    | e :: es =>
        let last := keepGreatest playedLater e es
        lastLines last.name.chars last.lastPlayed
          last.playtimeSec last.launchCount)

------------------------------------------------------------
-- What The Reports Must Say
------------------------------------------------------------

/- The games that the calls play. -/
def launched
    (calls : List LauncherCall) : List GameSession :=
  calls.filterMap fun
  | .launch g ticks =>
      if g < 0 ∨ gameCount ≤ g then none
      else some ⟨g, ticks, gameName g⟩
  | .stop => none

/- The ticks of all sessions. -/
def totalTicks
    (xs : List GameSession) : Nat :=
  (xs.map fun x => max 1 x.ticks).sum

/-
  What the reports hand to `kprintf` after some sessions, as
  long as the ticks of all of them are fewer than 2^32.
-/
structure Reports
    (xs : List GameSession)
    (s : GameHistory) : Prop where
  history :
    xs ≠ [] → ∃ played : List Int32,
      played.Nodup ∧ (∀ g, g ∈ played ↔ g ∈ gamesOf xs) ∧
      printHistory s =
        historyHeader ++
          (played.map (fun g =>
            historyLine (gameName g).chars
              (formatDate (UInt32.ofNat (lastSession xs g)))
              (UInt32.ofNat (playTime xs g))
              (UInt32.ofNat (sessionsOf xs g).length)) ++
            [reportRule])
  stats :
    xs ≠ [] → ∃ most ∈ gamesOf xs,
      (∀ g ∈ gamesOf xs, playTime xs g ≤ playTime xs most) ∧
      printStats s =
        statsHeader ++
          statsLines (UInt32.ofNat (totalTicks xs))
            (UInt32.ofNat xs.length) (gameName most).chars
            (UInt32.ofNat (playTime xs most))
  last :
    ∀ x ∈ xs.getLast?,
      printLast s =
        lastHeader ++
          lastLines (gameName x.game).chars
            (formatDate (UInt32.ofNat xs.length))
            (UInt32.ofNat (playTime xs x.game))
            (UInt32.ofNat (sessionsOf xs x.game).length)
  none : xs = [] → s.entries = []

/- What `kprint` and the `kprintf` of the PC show of it. -/
def Printed.onPc : Printed → Option (List UInt8)
| .text str => some str
| .format fmt args => (kprintf fmt args).map Prod.fst

def pcText : List Printed → Option (List UInt8)
| [] => some []
| printed :: rest => do
    let here ← printed.onPc
    let behind ← pcText rest
    return here ++ behind

/- The line of every game in the history. -/
def pcHistoryLine : List UInt8 :=
  ascii "  ?12s  last: ?8s  playtime: ? ticks  launches: ?\n"

def pcRule : List UInt8 :=
  ascii "  ----------------------------------------\n\n"

/-
  The reports on the console of the PC: the history tells
  only how many games were played, and no number is shown.
-/
structure PcReports
    (xs : List GameSession)
    (s : GameHistory) : Prop where
  history :
    xs ≠ [] →
      pcText (printHistory s) =
        some (ascii "\n   games history " ++
          (ascii " --------------------------------\n" ++
            ((List.replicate (gamesOf xs).dedup.length
                pcHistoryLine).flatten ++
              pcRule)))
  stats :
    xs ≠ [] → ∃ most ∈ gamesOf xs,
      (∀ g ∈ gamesOf xs, playTime xs g ≤ playTime xs most) ∧
      pcText (printStats s) =
        some (ascii "\n   games stats " ++
          (ascii " ----------------------------------\n" ++
            (ascii "  Total playtime:  ? ticks\n" ++
              (ascii "  Total launches: ?\n" ++
                (ascii "  Most played:    " ++
                  ((gameName most).chars ++
                    (ascii " (? ticks)\n" ++ pcRule)))))))
  last :
    ∀ x ∈ xs.getLast?,
      pcText (printLast s) =
        some (ascii "\n   games last " ++
          (ascii " -------------------------------------\n" ++
            (ascii "  Last played: " ++
              ((gameName x.game).chars ++
                (ascii "\n  Session:     " ++
                  (formatDate (UInt32.ofNat xs.length) ++
                    (ascii
                        "  |  playtime: ? ticks  |  launches: ?\n" ++
                      pcRule)))))))

------------------------------------------------------------
-- Sums Over The Entries
------------------------------------------------------------

section Totals

variable {v : GameHistoryEntry → UInt32}
variable {es es' : List GameHistoryEntry}

theorem entryTotal_append
    (v : GameHistoryEntry → UInt32)
    (es : List GameHistoryEntry)
    (e : GameHistoryEntry) :
    entryTotal v (es ++ [e]) = entryTotal v es + v e := by
  unfold entryTotal
  rw [List.foldl_append]
  rfl

/- A sum that starts at a number is larger by it. -/
theorem foldl_total
    (v : GameHistoryEntry → UInt32)
    (es : List GameHistoryEntry)
    (t d : UInt32) :
    es.foldl (fun total e => total + v e) (t + d) =
      es.foldl (fun total e => total + v e) t + d := by
  induction es generalizing t with
  | nil => rfl
  | cons e es ih =>
      have hSwap : t + d + v e = t + v e + d := by
        rw [UInt32.add_assoc, UInt32.add_comm d,
          ← UInt32.add_assoc]
      rw [List.foldl_cons, List.foldl_cons, hSwap, ih]

/- The change of one entry changes the sum by as much. -/
theorem entryTotal_changeFirst
    {g : Int32}
    {f : GameHistoryEntry → GameHistoryEntry}
    {d : UInt32}
    (hAdds : ∀ e, v (f e) = v e + d)
    (hChange :
      changeFirst GameHistoryEntry.gameIndex g f es = some es') :
    entryTotal v es' = entryTotal v es + d := by
  unfold entryTotal
  generalize (0 : UInt32) = t
  induction es generalizing es' t with
  | nil => cases hChange
  | cons e es ih =>
      unfold changeFirst at hChange
      split at hChange
      · cases hChange
        rw [List.foldl_cons, List.foldl_cons, hAdds,
          ← UInt32.add_assoc, foldl_total]
      · rcases Option.map_eq_some_iff.mp hChange with
          ⟨rest, hRest, rfl⟩
        rw [List.foldl_cons, List.foldl_cons]
        exact ih hRest _

end Totals

------------------------------------------------------------
-- What The Entries Tell
------------------------------------------------------------

/-
  The entries carry the names of their games and the dates of
  their last sessions, and add up to all sessions.
-/
structure Told
    (xs : List GameSession)
    (s : GameHistory) : Prop where
  named : ∀ e ∈ s.entries, e.name = gameName e.gameIndex
  dated : ∀ e ∈ s.entries, e.lastPlayed = formatDate e.lastSessionId
  playtime :
    entryTotal GameHistoryEntry.playtimeSec s.entries =
      UInt32.ofNat (totalTicks xs)
  launches :
    entryTotal GameHistoryEntry.launchCount s.entries =
      UInt32.ofNat xs.length

theorem gameHistoryInit_told : Told [] gameHistoryInit where
  named := List.forall_mem_nil _
  dated := List.forall_mem_nil _
  playtime := rfl
  launches := rfl

/- A changed entry is an old one or the change of an old one. -/
theorem mem_changeFirst
    {g : Int32}
    {f : GameHistoryEntry → GameHistoryEntry}
    {es es' : List GameHistoryEntry}
    (hChange :
      changeFirst GameHistoryEntry.gameIndex g f es = some es')
    {e' : GameHistoryEntry}
    (hMem : e' ∈ es') :
    e' ∈ es ∨ ∃ e ∈ es, e' = f e := by
  induction es generalizing es' with
  | nil => cases hChange
  | cons e es ih =>
      unfold changeFirst at hChange
      split at hChange
      · cases hChange
        rcases List.mem_cons.mp hMem with rfl | hRest
        · exact Or.inr ⟨e, List.mem_cons_self, rfl⟩
        · exact Or.inl (List.mem_cons_of_mem _ hRest)
      · rcases Option.map_eq_some_iff.mp hChange with
          ⟨rest, hRest, rfl⟩
        rcases List.mem_cons.mp hMem with rfl | hIn
        · exact Or.inl List.mem_cons_self
        · rcases ih hRest hIn with hOld | ⟨d, hOld, rfl⟩
          · exact Or.inl (List.mem_cons_of_mem _ hOld)
          · exact Or.inr
              ⟨d, List.mem_cons_of_mem _ hOld, rfl⟩

theorem totalTicks_snoc
    (xs : List GameSession)
    (x : GameSession) :
    totalTicks (xs ++ [x]) = totalTicks xs + max 1 x.ticks := by
  unfold totalTicks
  rw [List.map_append, List.sum_append, List.map_singleton,
    List.sum_singleton]

/- The stored names are not cut. -/
theorem gameName_cut
    (g : Int32) :
    (gameName g).cut gameNameMax = gameName g := by
  have hAll :
      ∀ name ∈ gameNames,
        name.chars.length ≤ gameNameMax := by
    decide
  refine CString.cut_eq_self_iff.mpr ?_
  unfold gameName
  rw [List.getD_eq_getElem?_getD]
  cases hGet : gameNames[g.toInt.toNat]? with
  | none => exact Nat.zero_le _
  | some name => exact hAll name (List.mem_of_getElem? hGet)

/- A session keeps what the entries tell. -/
theorem playSession_told
    {xs : List GameSession}
    {s : GameHistory}
    (hLedger : Ledger xs s)
    (hTold : Told xs s)
    {x : GameSession}
    (hName : x.name = gameName x.game)
    (hTicks : x.ticks < 2 ^ 32)
    (hFits :
      (gamesOf (xs ++ [x])).dedup.length ≤
        gameHistoryMaxEntries) :
    Told (xs ++ [x]) (playSession s x) := by
  rw [playSession_eq]
  unfold gameHistorySessionEnd
  dsimp only
  rw [elapsed_eq s.systemTick hTicks]
  have hPlaytime :
      UInt32.ofNat (totalTicks (xs ++ [x])) =
        UInt32.ofNat (totalTicks xs) +
          UInt32.ofNat (max 1 x.ticks) := by
    rw [totalTicks_snoc, UInt32.ofNat_add]
  have hLaunches :
      UInt32.ofNat (xs ++ [x]).length =
        UInt32.ofNat xs.length + 1 := by
    rw [List.length_append, List.length_singleton,
      UInt32.ofNat_add]
    rfl
  cases hChange :
      changeFirst GameHistoryEntry.gameIndex x.game
        (GameHistoryEntry.add (UInt32.ofNat (max 1 x.ticks))
          (s.lastSessionId + 1)) s.entries with
  | some es =>
      constructor
      · intro e hMem
        rcases mem_changeFirst hChange hMem with
          hOld | ⟨d, hOld, rfl⟩
        · exact hTold.named e hOld
        · exact hTold.named d hOld
      · intro e hMem
        rcases mem_changeFirst hChange hMem with
          hOld | ⟨d, _, rfl⟩
        · exact hTold.dated e hOld
        · rfl
      · rw [hPlaytime, ← hTold.playtime]
        exact entryTotal_changeFirst (fun _ => rfl) hChange
      · rw [hLaunches, ← hTold.launches]
        exact entryTotal_changeFirst (fun _ => rfl) hChange
  | none =>
      have hNew : x.game ∉ gamesOf xs := fun hOld =>
        changeFirst_eq_none_iff.mp hChange
          ((hLedger.played x.game).mpr hOld)
      have hRoom :=
        hLedger.room hNew
          (fun g hGame => mem_gamesOf_snoc.mpr
            ((List.mem_cons.mp hGame).symm)) hFits
      dsimp only
      rw [if_neg (Nat.not_le_of_lt hRoom)]
      constructor
      · intro e hMem
        rcases List.mem_append.mp hMem with hOld | hLast
        · exact hTold.named e hOld
        · rw [List.mem_singleton.mp hLast]
          dsimp only
          rw [hName, gameName_cut]
      · intro e hMem
        rcases List.mem_append.mp hMem with hOld | hLast
        · exact hTold.dated e hOld
        · rw [List.mem_singleton.mp hLast]
      · dsimp only
        rw [entryTotal_append, hPlaytime, hTold.playtime]
      · dsimp only
        rw [entryTotal_append, hLaunches, hTold.launches]

/- Sessions of games of the launcher from the start. -/
theorem playSessions_told
    (xs : List GameSession)
    (hNames : ∀ x ∈ xs, x.name = gameName x.game)
    (hTicks : ∀ x ∈ xs, x.ticks < 2 ^ 32)
    (hFits :
      (gamesOf xs).dedup.length ≤ gameHistoryMaxEntries) :
    Told xs (playSessions xs) := by
  induction xs using List.reverseRecOn with
  | nil => exact gameHistoryInit_told
  | append_singleton xs x ih =>
      have hFewer :=
        Nat.le_trans (gamesOf_dedup_length_le xs [x]) hFits
      have hTicksBefore :=
        fun y hMem => hTicks y (List.mem_append_left _ hMem)
      have hBefore :=
        ih (fun y hMem => hNames y (List.mem_append_left _ hMem))
          hTicksBefore hFewer
      have hLast : x ∈ xs ++ [x] :=
        List.mem_append_right _ (List.mem_singleton_self x)
      have hTold :=
        playSession_told
          (playSessions_ledger xs hTicksBefore hFewer) hBefore
          (hNames x hLast) (hTicks x hLast) hFits
      unfold playSessions at hTold ⊢
      rw [List.foldl_append]
      exact hTold

------------------------------------------------------------
-- The Reports Are True
------------------------------------------------------------

section True

variable {xs : List GameSession} {s : GameHistory}

/- Each session counts at least one tick. -/
theorem length_le_totalTicks
    (xs : List GameSession) :
    xs.length ≤ totalTicks xs := by
  induction xs with
  | nil => exact Nat.le_refl _
  | cons x xs ih =>
      have hOne : 1 ≤ max 1 x.ticks := Nat.le_max_left _ _
      unfold totalTicks at ih ⊢
      rw [List.length_cons, List.map_cons, List.sum_cons]
      omega

theorem ticks_le_totalTicks
    {x : GameSession}
    (hMem : x ∈ xs) :
    x.ticks ≤ totalTicks xs := by
  have hHere : max 1 x.ticks ≤ totalTicks xs :=
    List.single_le_sum (fun _ _ => Nat.zero_le _) _
      (List.mem_map_of_mem hMem)
  exact Nat.le_trans (Nat.le_max_right _ _) hHere

theorem playTime_le_totalTicks
    (xs : List GameSession)
    (g : Int32) :
    playTime xs g ≤ totalTicks xs :=
  (List.filter_sublist.map _).sum_le_sum
    fun _ _ => Nat.zero_le _

/- A number of ticks is shown as it is. -/
theorem Ledger.playtime_toNat
    (hLedger : Ledger xs s)
    (hTotal : totalTicks xs < 2 ^ 32)
    {e : GameHistoryEntry}
    (hMem : e ∈ s.entries) :
    e.playtimeSec.toNat = playTime xs e.gameIndex := by
  rw [(hLedger.counted e hMem).playtime]
  exact UInt32.toNat_ofNat_of_lt'
    (Nat.lt_of_le_of_lt (playTime_le_totalTicks xs _) hTotal)

/- A played game has an entry. -/
theorem Ledger.entries_ne_nil
    (hLedger : Ledger xs s)
    (hSome : xs ≠ []) :
    s.entries ≠ [] := by
  intro hNone
  cases xs with
  | nil => exact hSome rfl
  | cons x xs =>
      have hPlayed :=
        (hLedger.played x.game).mpr List.mem_cons_self
      rw [hNone] at hPlayed
      cases hPlayed

theorem Told.historyLine_eq
    (hLedger : Ledger xs s)
    (hTold : Told xs s)
    {e : GameHistoryEntry}
    (hMem : e ∈ s.entries) :
    historyLine e.name.chars e.lastPlayed e.playtimeSec
        e.launchCount =
      historyLine (gameName e.gameIndex).chars
        (formatDate
          (UInt32.ofNat (lastSession xs e.gameIndex)))
        (UInt32.ofNat (playTime xs e.gameIndex))
        (UInt32.ofNat (sessionsOf xs e.gameIndex).length) := by
  have hCounted := hLedger.counted e hMem
  rw [hTold.named e hMem, hTold.dated e hMem, hCounted.recent,
    hCounted.playtime, hCounted.launches]

theorem Told.printHistory_eq
    (hLedger : Ledger xs s)
    (hTold : Told xs s)
    (hSome : xs ≠ []) :
    printHistory s =
      historyHeader ++
        ((s.entries.map GameHistoryEntry.gameIndex).map
            (fun g =>
              historyLine (gameName g).chars
                (formatDate (UInt32.ofNat (lastSession xs g)))
                (UInt32.ofNat (playTime xs g))
                (UInt32.ofNat (sessionsOf xs g).length)) ++
          [reportRule]) := by
  have hEntries := hLedger.entries_ne_nil hSome
  rw [printHistory,
    if_neg fun hNone =>
      hEntries (List.eq_nil_of_length_eq_zero hNone),
    List.map_map]
  congr 2
  exact List.map_congr_left fun e hMem =>
    hTold.historyLine_eq hLedger hMem

/- The comparison of the search for the most played game. -/
theorem playedMore_iff
    (a b : GameHistoryEntry) :
    playedMore a b = true ↔
      b.playtimeSec.toNat < a.playtimeSec.toNat := by
  rw [playedMore, decide_eq_true_iff, UInt32.lt_iff_toNat_lt]

theorem playedLater_iff
    (a b : GameHistoryEntry) :
    playedLater a b = true ↔
      b.lastSessionId.toNat < a.lastSessionId.toNat := by
  rw [playedLater, decide_eq_true_iff, UInt32.lt_iff_toNat_lt]

theorem Told.printStats_eq
    (hLedger : Ledger xs s)
    (hTold : Told xs s)
    (hTotal : totalTicks xs < 2 ^ 32)
    (hSome : xs ≠ []) :
    ∃ most ∈ gamesOf xs,
      (∀ g ∈ gamesOf xs, playTime xs g ≤ playTime xs most) ∧
      printStats s =
        statsHeader ++
          statsLines (UInt32.ofNat (totalTicks xs))
            (UInt32.ofNat xs.length) (gameName most).chars
            (UInt32.ofNat (playTime xs most)) := by
  cases hEntries : s.entries with
  | nil => exact absurd hEntries (hLedger.entries_ne_nil hSome)
  | cons e es =>
      rcases keepGreatest_spec playedMore_iff e (e :: es) with
        ⟨hFound, hMost⟩
      generalize hBest :
        keepGreatest playedMore e (e :: es) = best at hFound hMost
      have hMem : best ∈ s.entries := by
        rw [hEntries]
        rcases List.mem_cons.mp hFound with hHead | hRest
        · exact hHead ▸ List.mem_cons_self
        · exact hRest
      refine ⟨best.gameIndex,
        (hLedger.played _).mp (List.mem_map_of_mem hMem), ?_,
        ?_⟩
      · intro g hGame
        rcases List.mem_map.mp ((hLedger.played g).mpr hGame) with
          ⟨d, hIn, rfl⟩
        have hLe := hMost d (by
          rw [← hEntries]
          exact List.mem_cons_of_mem _ hIn)
        rw [hLedger.playtime_toNat hTotal hIn,
          hLedger.playtime_toNat hTotal hMem] at hLe
        exact hLe
      · have hPlaytime := hTold.playtime
        have hLaunches := hTold.launches
        rw [hEntries] at hPlaytime hLaunches
        simp only [printStats, hEntries, hBest]
        rw [hPlaytime, hLaunches, hTold.named best hMem,
          (hLedger.counted best hMem).playtime]

theorem Told.printLast_eq
    {x : GameSession}
    (hLedger : Ledger (xs ++ [x]) s)
    (hTold : Told (xs ++ [x]) s)
    (hTotal : totalTicks (xs ++ [x]) < 2 ^ 32) :
    printLast s =
      lastHeader ++
        lastLines (gameName x.game).chars
          (formatDate (UInt32.ofNat (xs ++ [x]).length))
          (UInt32.ofNat (playTime (xs ++ [x]) x.game))
          (UInt32.ofNat
            (sessionsOf (xs ++ [x]) x.game).length) := by
  have hCount :=
    Nat.lt_of_le_of_lt (length_le_totalTicks (xs ++ [x])) hTotal
  rcases hLedger.latest hCount with
    ⟨newest, hMem, hGame, hNewest⟩
  cases hEntries : s.entries with
  | nil =>
      rw [hEntries] at hMem
      cases hMem
  | cons e es =>
      rcases keepGreatest_spec playedLater_iff e es with
        ⟨hFound, hMost⟩
      -- The search ends at the entry with the greatest number.
      have hSame : keepGreatest playedLater e es = newest := by
        by_contra hOther
        have hLess := hNewest _ (hEntries ▸ hFound) hOther
        have hLe := hMost newest (hEntries ▸ hMem)
        rw [UInt32.lt_iff_toNat_lt] at hLess
        omega
      have hCounted := hLedger.counted newest hMem
      have hRecent := hCounted.recent
      rw [hGame, lastSession_snoc_self] at hRecent
      simp only [printLast, hEntries, hSame]
      rw [hTold.named newest hMem, hTold.dated newest hMem,
        hRecent, hCounted.playtime, hCounted.launches, hGame,
        List.length_append, List.length_singleton]

theorem Told.reports
    (hLedger : Ledger xs s)
    (hTold : Told xs s)
    (hTotal : totalTicks xs < 2 ^ 32) :
    Reports xs s where
  history := fun hSome =>
    ⟨_, hLedger.nodup, hLedger.played,
      hTold.printHistory_eq hLedger hSome⟩
  stats := hTold.printStats_eq hLedger hTotal
  last := by
    intro x hLast
    rcases List.getLast?_eq_some_iff.mp hLast with ⟨ys, rfl⟩
    exact hTold.printLast_eq hLedger hTotal
  none := by
    rintro rfl
    refine List.eq_nil_iff_forall_not_mem.mpr fun e hMem => ?_
    exact List.not_mem_nil
      ((hLedger.played _).mp (List.mem_map_of_mem hMem))

end True

------------------------------------------------------------
-- The Console Of The PC
------------------------------------------------------------

section Shown

variable {bytes rest : List UInt8} {args : List Arg}

theorem ne_percentSign
    (hLiteral : percentSign ∉ bytes) :
    ∀ b ∈ bytes, b ≠ percentSign := by
  rintro b hMem rfl
  exact hLiteral hMem

/- What is shown of a format. -/
def shown
    (fmt : List UInt8)
    (args : List Arg) : Option (List UInt8) :=
  (kprintf fmt args).map Prod.fst

/- A letter without a case takes no argument. -/
theorem shown_other
    {letter : UInt8}
    (hLiteral : percentSign ∉ bytes)
    (hOther :
      letter ∉ [0x73, 0x63, 0x64, 0x78, percentSign]) :
    shown (bytes ++ percentSign :: letter :: rest) args =
      (shown rest args).map fun out =>
        bytes ++ questionMark :: out := by
  unfold shown
  rw [kprintf_literals (ne_percentSign hLiteral),
    kprintf_conversion letter rest
      (printLetter_other hOther args),
    Option.map_map, Option.map_map, Option.map_map]
  rfl

theorem shown_string
    (str : List UInt8)
    (hLiteral : percentSign ∉ bytes) :
    shown (bytes ++ percentSign :: 0x73 :: rest)
        (.text str :: args) =
      (shown rest args).map fun out => bytes ++ (str ++ out) := by
  have hLetter :
      printLetter 0x73 (.text str :: args) = some (str, args) :=
    rfl
  unfold shown
  rw [kprintf_literals (ne_percentSign hLiteral),
    kprintf_conversion 0x73 rest hLetter, Option.map_map,
    Option.map_map, Option.map_map]
  rfl

theorem shown_literals
    (hLiteral : percentSign ∉ bytes) :
    shown bytes args = some bytes := by
  have hAll :=
    kprintf_literals (ne_percentSign hLiteral) [] args
  rw [List.append_nil] at hAll
  unfold shown
  rw [hAll]
  simp [kprintf]

end Shown

theorem historyLine_onPc
    (name lastPlayed : List UInt8)
    (playtime launches : UInt32) :
    (historyLine name lastPlayed playtime launches).onPc =
      some pcHistoryLine := by
  have hFormat :
      ascii
          "  %-12s  last: %-8s  playtime: %u ticks  launches: %u\n" =
        ascii "  " ++ percentSign :: 0x2D ::
          (ascii "12s  last: " ++ percentSign :: 0x2D ::
            (ascii "8s  playtime: " ++ percentSign :: 0x75 ::
              (ascii " ticks  launches: " ++
                percentSign :: 0x75 :: ascii "\n"))) := by
    decide
  unfold historyLine
  change shown _ _ = _
  rw [hFormat, shown_other (by decide) (by decide),
    shown_other (by decide) (by decide),
    shown_other (by decide) (by decide),
    shown_other (by decide) (by decide),
    shown_literals (by decide)]
  decide

theorem pcText_text
    (str : List UInt8)
    (rest : List Printed) :
    pcText (.text str :: rest) =
      (pcText rest).map (str ++ ·) := by
  rw [pcText]
  cases pcText rest <;> rfl

/- A format that shows a text. -/
theorem pcText_shown
    {fmt out : List UInt8}
    {args : List Arg}
    (hShown : shown fmt args = some out)
    (rest : List Printed) :
    pcText (.format fmt args :: rest) =
      (pcText rest).map (out ++ ·) := by
  rw [pcText, Printed.onPc,
    show (kprintf fmt args).map Prod.fst = some out from hShown]
  cases pcText rest <;> rfl

/- Every game has the same line. -/
theorem pcText_lines
    (es : List GameHistoryEntry)
    (rest : List Printed) :
    pcText
        (es.map (fun e =>
          historyLine e.name.chars e.lastPlayed e.playtimeSec
            e.launchCount) ++ rest) =
      (pcText rest).map
        ((List.replicate es.length pcHistoryLine).flatten ++ ·) := by
  induction es with
  | nil => simp
  | cons e es ih =>
      rw [List.map_cons, List.cons_append, pcText,
        historyLine_onPc, ih, List.length_cons,
        List.replicate_succ, List.flatten_cons]
      cases pcText rest with
      | none => rfl
      | some out =>
          simp [List.append_assoc]

theorem pcText_rule :
    pcText [reportRule] = some pcRule := by
  rw [reportRule, pcText_text, pcText]
  simp [pcRule]

/- The numbers of the statistics are not shown. -/
theorem pcText_stats
    (playtime launches : UInt32)
    (name : List UInt8)
    (most : UInt32) :
    pcText (statsLines playtime launches name most) =
      some (ascii "  Total playtime:  ? ticks\n" ++
        (ascii "  Total launches: ?\n" ++
          (ascii "  Most played:    " ++
            (name ++ (ascii " (? ticks)\n" ++ pcRule))))) := by
  have hTotal :
      shown (ascii "  Total playtime:  %u ticks\n")
          [.word playtime] =
        some (ascii "  Total playtime:  ? ticks\n") := by
    rw [show ascii "  Total playtime:  %u ticks\n" =
        ascii "  Total playtime:  " ++ percentSign :: 0x75 ::
          ascii " ticks\n" by decide,
      shown_other (by decide) (by decide),
      shown_literals (by decide)]
    decide
  have hLaunches :
      shown (ascii "  Total launches: %u\n") [.word launches] =
        some (ascii "  Total launches: ?\n") := by
    rw [show ascii "  Total launches: %u\n" =
        ascii "  Total launches: " ++ percentSign :: 0x75 ::
          ascii "\n" by decide,
      shown_other (by decide) (by decide),
      shown_literals (by decide)]
    decide
  have hMost :
      shown (ascii "  Most played:    %s (%u ticks)\n")
          [.text name, .word most] =
        some (ascii "  Most played:    " ++
          (name ++ ascii " (? ticks)\n")) := by
    rw [show ascii "  Most played:    %s (%u ticks)\n" =
        ascii "  Most played:    " ++ percentSign :: 0x73 ::
          (ascii " (" ++ percentSign :: 0x75 ::
            ascii " ticks)\n") by decide,
      shown_string name (by decide),
      shown_other (by decide) (by decide),
      shown_literals (by decide),
      show ascii " (? ticks)\n" =
        ascii " (" ++ questionMark :: ascii " ticks)\n" by decide]
    rfl
  rw [statsLines, pcText_shown hTotal, pcText_shown hLaunches,
    pcText_shown hMost, pcText_rule]
  simp [List.append_assoc]

theorem pcText_last
    (name lastPlayed : List UInt8)
    (playtime launches : UInt32) :
    pcText (lastLines name lastPlayed playtime launches) =
      some (ascii "  Last played: " ++
        (name ++
          (ascii "\n  Session:     " ++
            (lastPlayed ++
              (ascii "  |  playtime: ? ticks  |  launches: ?\n" ++
                pcRule))))) := by
  have hName :
      shown (ascii "  Last played: %s\n") [.text name] =
        some (ascii "  Last played: " ++
          (name ++ ascii "\n")) := by
    rw [show ascii "  Last played: %s\n" =
        ascii "  Last played: " ++ percentSign :: 0x73 ::
          ascii "\n" by decide,
      shown_string name (by decide), shown_literals (by decide)]
    rfl
  have hSession :
      shown
          (ascii
            "  Session:     %s  |  playtime: %u ticks  |  launches: %u\n")
          [.text lastPlayed, .word playtime, .word launches] =
        some (ascii "  Session:     " ++
          (lastPlayed ++
            ascii "  |  playtime: ? ticks  |  launches: ?\n")) := by
    rw [show
        ascii
            "  Session:     %s  |  playtime: %u ticks  |  launches: %u\n" =
          ascii "  Session:     " ++ percentSign :: 0x73 ::
            (ascii "  |  playtime: " ++ percentSign :: 0x75 ::
              (ascii " ticks  |  launches: " ++
                percentSign :: 0x75 :: ascii "\n")) by decide,
      shown_string lastPlayed (by decide),
      shown_other (by decide) (by decide),
      shown_other (by decide) (by decide),
      shown_literals (by decide),
      show ascii "  |  playtime: ? ticks  |  launches: ?\n" =
        ascii "  |  playtime: " ++ questionMark ::
          (ascii " ticks  |  launches: " ++
            questionMark :: ascii "\n") by decide]
    rfl
  have hLine :
      ascii "\n  Session:     " =
        ascii "\n" ++ ascii "  Session:     " := by
    decide
  rw [lastLines, pcText_shown hName, pcText_shown hSession,
    pcText_rule, hLine]
  simp [List.append_assoc]

/- The texts in front of a report. -/
theorem pcText_header
    (first title line : List UInt8)
    (rest : List Printed) :
    pcText
        ([.text first, .text title, .text line] ++ rest) =
      (pcText rest).map fun out =>
        (first ++ title) ++ (line ++ out) := by
  simp only [List.cons_append, List.nil_append, pcText_text,
    Option.map_map]
  congr 1
  funext out
  simp [List.append_assoc]

theorem Told.pcReports
    {xs : List GameSession}
    {s : GameHistory}
    (hLedger : Ledger xs s)
    (hTold : Told xs s)
    (hTotal : totalTicks xs < 2 ^ 32) :
    PcReports xs s where
  history := by
    intro hSome
    have hEntries := hLedger.entries_ne_nil hSome
    have hCount :
        s.entries.length = (gamesOf xs).dedup.length := by
      have hSame :=
        (List.perm_ext_iff_of_nodup hLedger.nodup
          (List.nodup_dedup (gamesOf xs))).mpr fun g =>
            (hLedger.played g).trans List.mem_dedup.symm
      have hLength := hSame.length_eq
      rwa [List.length_map] at hLength
    rw [printHistory,
      if_neg fun hNone =>
        hEntries (List.eq_nil_of_length_eq_zero hNone),
      historyHeader, pcText_header, pcText_lines, pcText_rule,
      hCount,
      show ascii "\n   games history " =
        ascii "\n  " ++ ascii " games history " by decide]
    rfl
  stats := by
    intro hSome
    rcases hTold.printStats_eq hLedger hTotal hSome with
      ⟨most, hMem, hMost, hStats⟩
    refine ⟨most, hMem, hMost, ?_⟩
    rw [hStats, statsHeader, pcText_header, pcText_stats,
      show ascii "\n   games stats " =
        ascii "\n  " ++ ascii " games stats " by decide]
    rfl
  last := by
    intro x hLast
    rcases List.getLast?_eq_some_iff.mp hLast with ⟨ys, rfl⟩
    rw [hTold.printLast_eq hLedger hTotal, lastHeader,
      pcText_header, pcText_last,
      show ascii "\n   games last " =
        ascii "\n  " ++ ascii " games last " by decide]
    rfl

------------------------------------------------------------
-- Runs Of The Launcher
------------------------------------------------------------

/- A launch plays one session, a stop between them none. -/
theorem runLauncher_eq
    (calls : List LauncherCall) :
    runLauncher calls =
      { currentGame := -1
        gameRunning := false
        history := playSessions (launched calls) } := by
  induction calls using List.reverseRecOn with
  | nil => rfl
  | append_singleton calls call ih =>
      have hRun :
          runLauncher (calls ++ [call]) =
            call.run (runLauncher calls) := by
        unfold runLauncher
        rw [List.foldl_append]
        rfl
      have hLaunched :
          launched (calls ++ [call]) =
            launched calls ++ launched [call] :=
        List.filterMap_append
      rw [hRun, ih, hLaunched]
      cases call with
      | stop =>
          rw [show launched [LauncherCall.stop] = [] from rfl,
            List.append_nil]
          rfl
      | launch g ticks =>
          dsimp only [LauncherCall.run, launchGame]
          by_cases hBad : g < 0 ∨ gameCount ≤ g
          · have hNone :
                launched [LauncherCall.launch g ticks] = [] := by
              simp only [launched, List.filterMap_cons,
                if_pos hBad, List.filterMap_nil]
            rw [if_pos hBad, hNone, List.append_nil]
          · have hOne :
                launched [LauncherCall.launch g ticks] =
                  [⟨g, ticks, gameName g⟩] := by
              simp only [launched, List.filterMap_cons,
                if_neg hBad, List.filterMap_nil]
            rw [if_neg hBad, hOne, playSessions, playSessions,
              List.foldl_append]
            rfl

theorem launched_game
    {calls : List LauncherCall}
    {x : GameSession}
    (hMem : x ∈ launched calls) :
    x.name = gameName x.game ∧ x.game ∈ [0, 1, 2, 3, 4] := by
  rcases List.mem_filterMap.mp hMem with ⟨call, _, hCall⟩
  cases call with
  | stop => cases hCall
  | launch g ticks =>
      dsimp only at hCall
      split at hCall
      · cases hCall
      · next hGood =>
          cases hCall
          refine ⟨rfl, ?_⟩
          rw [not_or, Int32.not_lt, Int32.not_le,
            Int32.le_iff_toInt_le, Int32.lt_iff_toInt_lt]
            at hGood
          have hZero : (0 : Int32).toInt = 0 := rfl
          have hFive : gameCount.toInt = 5 := rfl
          rw [hZero, hFive] at hGood
          have hCases :
              g.toInt = (0 : Int32).toInt ∨
                g.toInt = (1 : Int32).toInt ∨
                g.toInt = (2 : Int32).toInt ∨
                g.toInt = (3 : Int32).toInt ∨
                g.toInt = (4 : Int32).toInt := by
            simp only [Int32.reduceToInt]
            omega
          simp only [Int32.toInt_inj] at hCases
          simpa using hCases

/- The table of the history has room for every game. -/
theorem launched_fits
    (calls : List LauncherCall) :
    (gamesOf (launched calls)).dedup.length ≤
      gameHistoryMaxEntries := by
  have hSub :
      (gamesOf (launched calls)).dedup ⊆ [0, 1, 2, 3, 4] := by
    intro g hMem
    rcases List.mem_map.mp (List.mem_dedup.mp hMem) with
      ⟨x, hIn, rfl⟩
    exact (launched_game hIn).2
  have hLength :=
    (List.subperm_of_subset (List.nodup_dedup _) hSub).length_le
  exact Nat.le_trans hLength (by decide)

/-
  After any calls the launcher is idle, and the reports hand
  to `kprintf` what is true of the games that were played.
  On the PC the names of two of them and one date are seen.
-/
theorem launcher_reports
    (calls : List LauncherCall)
    (hTotal : totalTicks (launched calls) < 2 ^ 32) :
    (runLauncher calls).currentGame = -1 ∧
      (runLauncher calls).gameRunning = false ∧
      Reports (launched calls) (runLauncher calls).history ∧
      PcReports (launched calls) (runLauncher calls).history := by
  have hTicks : ∀ x ∈ launched calls, x.ticks < 2 ^ 32 :=
    fun x hMem =>
      Nat.lt_of_le_of_lt (ticks_le_totalTicks hMem) hTotal
  have hFits := launched_fits calls
  have hTold :=
    playSessions_told (launched calls)
      (fun x hMem => (launched_game hMem).1) hTicks hFits
  have hLedger := playSessions_ledger _ hTicks hFits
  rw [runLauncher_eq]
  exact ⟨rfl, rfl, hTold.reports hLedger hTotal,
    hTold.pcReports hLedger hTotal⟩

/- Two games of Pong, one of Racing and one that is none. -/
def sampleCalls : List LauncherCall :=
  [.launch 1 40, .stop, .launch 9 3, .launch 4 0, .launch 1 2]

theorem launcher_reports_sample :
    totalTicks (launched sampleCalls) = 43 ∧
      (runLauncher sampleCalls).gameRunning = false ∧
      Reports (launched sampleCalls)
        (runLauncher sampleCalls).history ∧
      PcReports (launched sampleCalls)
        (runLauncher sampleCalls).history :=
  ⟨by decide,
    (launcher_reports sampleCalls (by decide)).2⟩

end Games

end AsmOS
