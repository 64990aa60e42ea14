import Mathlib.Algebra.GroupWithZero.Nat
import Mathlib.Data.List.Dedup
import Mathlib.Data.List.Perm.Subperm
import Mathlib.Data.List.Induction
import AsmOS.Base.KeyedTable
import AsmOS.Base.NameTable

/-
  The history of the games that were played
  (`src/game_history.c`).

  A session adds its ticks to the entry of its game, which
  is made by the first session of that game.

  Main declarations:
    * `GameHistory`, `gameHistoryInit`, `gameHistoryTick`
    * `gameHistorySessionStart`, `gameHistorySessionEnd`
    * `Ledger`, `playSession_ledger`
    * `gameHistory_accounts`
-/

------------------------------------------------------------
-- Entries
------------------------------------------------------------

namespace AsmOS

namespace Games

open KeyedTable

abbrev gameHistoryMaxEntries : Nat := 64

/- The characters of a name that are stored. -/
abbrev gameNameMax : Nat := 31

structure GameHistoryEntry where
  gameIndex : Int32
  name : CString
  playtimeSec : UInt32
  lastPlayed : List UInt8
  launchCount : UInt32
  lastSessionId : UInt32

/- The entries in use, and the other variables. -/
structure GameHistory where
  entries : List GameHistoryEntry
  currentSessionGame : Int32
  sessionStartTick : UInt32
  systemTick : UInt32
  lastSessionId : UInt32

/- `game_history_init`. -/
def gameHistoryInit : GameHistory :=
  { entries := []
    currentSessionGame := -1
    sessionStartTick := 0
    systemTick := 0
    lastSessionId := 0 }

/- `game_history_tick`. -/
def gameHistoryTick
    (s : GameHistory) : GameHistory :=
  { s with systemTick := s.systemTick + 1 }

/- `format_date`. -/
def formatDate
    (lastSessionId : UInt32) : List UInt8 :=
  [83, 101, 115, 32,
    (48 + (lastSessionId / 10) % 10).toUInt8,
    (48 + lastSessionId % 10).toUInt8]

/- `game_history_session_start`; the name is not used. -/
def gameHistorySessionStart
    (gameIndex : Int32)
    (s : GameHistory) : GameHistory :=
  { s with
    currentSessionGame := gameIndex
    sessionStartTick := s.systemTick }

/- A session of the game of an entry. -/
def GameHistoryEntry.add
    (elapsed id : UInt32)
    (e : GameHistoryEntry) : GameHistoryEntry :=
  { e with
    playtimeSec := e.playtimeSec + elapsed
    launchCount := e.launchCount + 1
    lastSessionId := id
    lastPlayed := formatDate id }

/- `game_history_session_end`. -/
def gameHistorySessionEnd
    (gameIndex : Int32)
    (name : CString)
    (s : GameHistory) : GameHistory :=
  let id := s.lastSessionId + 1
  let elapsed := s.systemTick - s.sessionStartTick
  let elapsed := if elapsed < 1 then 1 else elapsed
  let s :=
    { s with lastSessionId := id, currentSessionGame := -1 }
  match changeFirst GameHistoryEntry.gameIndex gameIndex
      (GameHistoryEntry.add elapsed id) s.entries with
  | some entries => { s with entries := entries }
  | none =>
      if s.entries.length ≥ gameHistoryMaxEntries then s
      else
        { s with
          entries :=
            s.entries ++
              [{ gameIndex := gameIndex
                 name := name.cut gameNameMax
                 playtimeSec := elapsed
                 lastPlayed := formatDate id
                 launchCount := 1
                 lastSessionId := id }] }

/- `game_history_get_entry`. -/
def gameHistoryGetEntry
    (s : GameHistory)
    (gameIndex : Int32) : Option GameHistoryEntry :=
  s.entries.find? fun e => e.gameIndex = gameIndex

------------------------------------------------------------
-- Sessions
------------------------------------------------------------

/- A game, the ticks that it is played, and its name. -/
structure GameSession where
  game : Int32
  ticks : Nat
  name : CString

def gameTicks : Nat → GameHistory → GameHistory
| 0, s => s
| n + 1, s => gameTicks n (gameHistoryTick s)

def playSession
    (s : GameHistory)
    (x : GameSession) : GameHistory :=
  gameHistorySessionEnd x.game x.name
    (gameTicks x.ticks (gameHistorySessionStart x.game s))

/- The state after some sessions. -/
def playSessions
    (xs : List GameSession) : GameHistory :=
  xs.foldl playSession gameHistoryInit

/- The sessions of a game. -/
def sessionsOf
    (xs : List GameSession)
    (g : Int32) : List GameSession :=
  xs.filter fun x => x.game = g

/- The ticks that they count. -/
def playTime
    (xs : List GameSession)
    (g : Int32) : Nat :=
  ((sessionsOf xs g).map fun x => max 1 x.ticks).sum

/- The number of the last session of a game. -/
def lastSession
    (xs : List GameSession)
    (g : Int32) : Nat :=
  (xs.reverse.dropWhile fun x => x.game ≠ g).length

/- The games that were played. -/
def gamesOf
    (xs : List GameSession) : List Int32 :=
  xs.map GameSession.game

------------------------------------------------------------
-- The Ledger
------------------------------------------------------------

/- What the entry of a game holds after some sessions. -/
structure Counted
    (xs : List GameSession)
    (e : GameHistoryEntry) : Prop where
  launches :
    e.launchCount =
      UInt32.ofNat (sessionsOf xs e.gameIndex).length
  playtime :
    e.playtimeSec = UInt32.ofNat (playTime xs e.gameIndex)
  recent :
    e.lastSessionId = UInt32.ofNat (lastSession xs e.gameIndex)

/- One entry for each game that was played. -/
structure Ledger
    (xs : List GameSession)
    (s : GameHistory) : Prop where
  nodup : (s.entries.map GameHistoryEntry.gameIndex).Nodup
  played :
    ∀ g, g ∈ s.entries.map GameHistoryEntry.gameIndex ↔
      g ∈ gamesOf xs
  counted : ∀ e ∈ s.entries, Counted xs e
  count : s.lastSessionId = UInt32.ofNat xs.length

theorem gameHistoryInit_ledger :
    Ledger [] gameHistoryInit :=
  { nodup := List.nodup_nil
    played := fun _ => Iff.rfl
    counted := List.forall_mem_nil _
    count := rfl }

/- The tick counter wraps, and nothing else changes. -/
theorem gameTicks_eq
    (n : Nat)
    (s : GameHistory) :
    gameTicks n s =
      { s with systemTick := s.systemTick + UInt32.ofNat n } := by
  induction n generalizing s with
  | zero =>
      have hZero : s.systemTick + UInt32.ofNat 0 = s.systemTick :=
        UInt32.add_zero _
      rw [hZero]
      rfl
  | succ n ih =>
      have hSum :
          s.systemTick + 1 + UInt32.ofNat n =
            s.systemTick + UInt32.ofNat (n + 1) := by
        rw [UInt32.ofNat_add, UInt32.add_assoc,
          UInt32.add_comm 1]
        rfl
      rw [gameTicks, ih, gameHistoryTick, hSum]

/- What a session counts, at least one tick. -/
theorem elapsed_eq
    (start : UInt32)
    {n : Nat}
    (hTicks : n < 2 ^ 32) :
    (if start + UInt32.ofNat n - start < 1 then 1
        else start + UInt32.ofNat n - start) =
      UInt32.ofNat (max 1 n) := by
  have hDifference :
      start + UInt32.ofNat n - start = UInt32.ofNat n := by
    rw [UInt32.add_comm, UInt32.add_sub_cancel]
  have hValue : (UInt32.ofNat n).toNat = n :=
    UInt32.toNat_ofNat_of_lt' hTicks
  have hOne : (1 : UInt32).toNat = 1 := rfl
  rw [hDifference]
  by_cases hNone : n = 0
  · rw [hNone]
    rfl
  · have hTest : ¬ UInt32.ofNat n < 1 := by
      rw [UInt32.lt_iff_toNat_lt, hValue, hOne]
      omega
    rw [if_neg hTest, Nat.max_eq_right (by omega)]

section Sessions

variable {xs : List GameSession} {x : GameSession} {g : Int32}

theorem sessionsOf_snoc_self :
    sessionsOf (xs ++ [x]) x.game =
      sessionsOf xs x.game ++ [x] := by
  unfold sessionsOf
  rw [List.filter_append,
    List.filter_cons_of_pos (by simp)]
  rfl

theorem sessionsOf_snoc_ne
    (hOther : x.game ≠ g) :
    sessionsOf (xs ++ [x]) g = sessionsOf xs g := by
  unfold sessionsOf
  rw [List.filter_append,
    List.filter_cons_of_neg (by simpa using hOther)]
  exact List.append_nil _

theorem playTime_snoc_self :
    playTime (xs ++ [x]) x.game =
      playTime xs x.game + max 1 x.ticks := by
  unfold playTime
  rw [sessionsOf_snoc_self, List.map_append, List.sum_append,
    List.map_singleton, List.sum_singleton]

theorem playTime_snoc_ne
    (hOther : x.game ≠ g) :
    playTime (xs ++ [x]) g = playTime xs g := by
  unfold playTime
  rw [sessionsOf_snoc_ne hOther]

theorem lastSession_snoc_self :
    lastSession (xs ++ [x]) x.game = xs.length + 1 := by
  unfold lastSession
  rw [List.reverse_append, List.reverse_singleton,
    List.singleton_append,
    List.dropWhile_cons_of_neg (by simp), List.length_cons,
    List.length_reverse]

theorem lastSession_snoc_ne
    (hOther : x.game ≠ g) :
    lastSession (xs ++ [x]) g = lastSession xs g := by
  unfold lastSession
  rw [List.reverse_append, List.reverse_singleton,
    List.singleton_append,
    List.dropWhile_cons_of_pos (by simpa using hOther)]

theorem lastSession_le
    (xs : List GameSession)
    (g : Int32) :
    lastSession xs g ≤ xs.length := by
  unfold lastSession
  have hLe :=
    (List.dropWhile_sublist
      (fun x : GameSession => decide (x.game ≠ g))
      (l := xs.reverse)).length_le
  rw [List.length_reverse] at hLe
  exact hLe

/- A game without a session has counted nothing. -/
theorem sessionsOf_eq_nil
    (hNew : g ∉ gamesOf xs) :
    sessionsOf xs g = [] := by
  refine List.filter_eq_nil_iff.mpr fun y hMem hGame => hNew ?_
  exact List.mem_map.mpr ⟨y, hMem, of_decide_eq_true hGame⟩

theorem mem_gamesOf_snoc :
    g ∈ gamesOf (xs ++ [x]) ↔ g ∈ gamesOf xs ∨ g = x.game := by
  unfold gamesOf
  rw [List.map_append, List.mem_append, List.map_singleton,
    List.mem_singleton]

end Sessions

section Counting

variable {xs : List GameSession} {x : GameSession}
variable {e : GameHistoryEntry}

/- The session of another game does not count. -/
theorem Counted.other
    (hCounted : Counted xs e)
    (hOther : x.game ≠ e.gameIndex) :
    Counted (xs ++ [x]) e := by
  constructor
  · rw [sessionsOf_snoc_ne hOther]
    exact hCounted.launches
  · rw [playTime_snoc_ne hOther]
    exact hCounted.playtime
  · rw [lastSession_snoc_ne hOther]
    exact hCounted.recent

theorem Counted.add
    (hCounted : Counted xs e)
    (hSame : e.gameIndex = x.game) :
    Counted (xs ++ [x])
      (e.add (UInt32.ofNat (max 1 x.ticks))
        (UInt32.ofNat (xs.length + 1))) := by
  have hLaunches := hCounted.launches
  have hPlaytime := hCounted.playtime
  rw [hSame] at hLaunches hPlaytime
  constructor
  · change
      e.launchCount + 1 =
        UInt32.ofNat (sessionsOf _ e.gameIndex).length
    rw [hSame, sessionsOf_snoc_self, List.length_append,
      List.length_singleton, UInt32.ofNat_add, ← hLaunches]
    rfl
  · change
      e.playtimeSec + UInt32.ofNat (max 1 x.ticks) =
        UInt32.ofNat (playTime _ e.gameIndex)
    rw [hSame, playTime_snoc_self, UInt32.ofNat_add,
      ← hPlaytime]
  · change
      UInt32.ofNat (xs.length + 1) =
        UInt32.ofNat (lastSession _ e.gameIndex)
    rw [hSame, lastSession_snoc_self]

/- The entry that the first session of a game makes. -/
theorem counted_first
    (hNew : x.game ∉ gamesOf xs)
    (hGame : e.gameIndex = x.game)
    (hLaunches : e.launchCount = 1)
    (hPlaytime : e.playtimeSec = UInt32.ofNat (max 1 x.ticks))
    (hRecent : e.lastSessionId = UInt32.ofNat (xs.length + 1)) :
    Counted (xs ++ [x]) e := by
  have hNone := sessionsOf_eq_nil hNew
  constructor
  · rw [hGame, sessionsOf_snoc_self, hNone, hLaunches]
    rfl
  · rw [hGame, playTime_snoc_self, hPlaytime]
    unfold playTime
    rw [hNone, List.map_nil, List.sum_nil, Nat.zero_add]
  · rw [hGame, lastSession_snoc_self]
    exact hRecent

end Counting

/- A session behind others, in the state that they leave. -/
theorem playSession_eq
    (s : GameHistory)
    (x : GameSession) :
    playSession s x =
      gameHistorySessionEnd x.game x.name
        { s with
          currentSessionGame := x.game
          sessionStartTick := s.systemTick
          systemTick := s.systemTick + UInt32.ofNat x.ticks } := by
  unfold playSession
  rw [gameTicks_eq]
  rfl

/- The room that is left for a new game. -/
theorem Ledger.room
    {xs : List GameSession}
    {s : GameHistory}
    (hLedger : Ledger xs s)
    {g : Int32}
    (hNew : g ∉ gamesOf xs)
    {games : List Int32}
    (hGames : ∀ g' ∈ g :: gamesOf xs, g' ∈ games)
    (hFits : games.dedup.length ≤ gameHistoryMaxEntries) :
    s.entries.length < gameHistoryMaxEntries := by
  have hNodup :
      (g :: s.entries.map GameHistoryEntry.gameIndex).Nodup :=
    List.nodup_cons.mpr
      ⟨mt (hLedger.played g).mp hNew, hLedger.nodup⟩
  have hSub :
      g :: s.entries.map GameHistoryEntry.gameIndex ⊆
        games.dedup := by
    intro g' hMem
    refine List.mem_dedup.mpr (hGames g' ?_)
    rcases List.mem_cons.mp hMem with rfl | hOld
    · exact List.mem_cons_self
    · exact List.mem_cons_of_mem _ ((hLedger.played g').mp hOld)
  have hLength := (List.subperm_of_subset hNodup hSub).length_le
  rw [List.length_cons, List.length_map] at hLength
  exact Nat.le_trans hLength hFits

/- A session of a game that was played before. -/
theorem Ledger.change
    {xs : List GameSession}
    {s t : GameHistory}
    (hLedger : Ledger xs s)
    {x : GameSession}
    (hOld : x.game ∈ gamesOf xs)
    (hEntries :
      t.entries =
        s.entries.map fun e =>
          if e.gameIndex = x.game then
            e.add (UInt32.ofNat (max 1 x.ticks))
              (UInt32.ofNat (xs.length + 1))
          else e)
    (hCount : t.lastSessionId = UInt32.ofNat (xs ++ [x]).length) :
    Ledger (xs ++ [x]) t := by
  have hKeys :
      t.entries.map GameHistoryEntry.gameIndex =
        s.entries.map GameHistoryEntry.gameIndex := by
    rw [hEntries]
    exact map_key_change (f := GameHistoryEntry.add _ _)
      (fun _ => rfl) s.entries
  constructor
  · rw [hKeys]
    exact hLedger.nodup
  · intro g
    rw [hKeys, hLedger.played, mem_gamesOf_snoc]
    refine (or_iff_left_of_imp ?_).symm
    rintro rfl
    exact hOld
  · intro e' hMem'
    rw [hEntries] at hMem'
    rcases List.mem_map.mp hMem' with ⟨e, hEntry, rfl⟩
    have hCounted := hLedger.counted e hEntry
    split_ifs with hSame
    · exact hCounted.add hSame
    · exact hCounted.other (Ne.symm hSame)
  · exact hCount

/- The first session of a game. -/
theorem Ledger.append
    {xs : List GameSession}
    {s t : GameHistory}
    (hLedger : Ledger xs s)
    {x : GameSession}
    (hNew : x.game ∉ gamesOf xs)
    {e : GameHistoryEntry}
    (hGame : e.gameIndex = x.game)
    (hFirst : Counted (xs ++ [x]) e)
    (hEntries : t.entries = s.entries ++ [e])
    (hCount : t.lastSessionId = UInt32.ofNat (xs ++ [x]).length) :
    Ledger (xs ++ [x]) t := by
  have hMem := mt (hLedger.played x.game).mp hNew
  have hKeys :
      t.entries.map GameHistoryEntry.gameIndex =
        s.entries.map GameHistoryEntry.gameIndex ++ [x.game] := by
    rw [hEntries, List.map_append, List.map_singleton, hGame]
  constructor
  · rw [hKeys]
    exact List.nodup_append_comm.mp
      (List.nodup_cons.mpr ⟨hMem, hLedger.nodup⟩)
  · intro g
    rw [hKeys, List.mem_append, hLedger.played,
      mem_gamesOf_snoc, List.mem_singleton]
  · rw [hEntries]
    refine List.forall_mem_append.mpr ⟨?_, ?_⟩
    · intro e' hEntry
      refine (hLedger.counted e' hEntry).other fun hSame => ?_
      exact hMem (List.mem_map.mpr ⟨e', hEntry, hSame.symm⟩)
    · exact List.forall_mem_singleton.mpr hFirst
  · exact hCount

/- A session keeps the ledger. -/
theorem playSession_ledger
    {xs : List GameSession}
    {s : GameHistory}
    (hLedger : Ledger xs s)
    {x : GameSession}
    (hTicks : x.ticks < 2 ^ 32)
    (hFits :
      (gamesOf (xs ++ [x])).dedup.length ≤
        gameHistoryMaxEntries) :
    Ledger (xs ++ [x]) (playSession s x) := by
  have hCount :
      s.lastSessionId + 1 = UInt32.ofNat (xs.length + 1) := by
    rw [hLedger.count, UInt32.ofNat_add]
    rfl
  have hLength :
      UInt32.ofNat (xs.length + 1) =
        UInt32.ofNat (xs ++ [x]).length := by
    rw [List.length_append, List.length_singleton]
  rw [playSession_eq]
  unfold gameHistorySessionEnd
  dsimp only
  rw [elapsed_eq s.systemTick hTicks, hCount]
  by_cases hOld : x.game ∈ gamesOf xs
  · have hMem := (hLedger.played x.game).mpr hOld
    rw [changeFirst_eq_map hLedger.nodup hMem]
    exact hLedger.change hOld rfl hLength
  · have hMem := mt (hLedger.played x.game).mp hOld
    have hRoom :=
      hLedger.room hOld
        (fun g hGame => mem_gamesOf_snoc.mpr
          ((List.mem_cons.mp hGame).symm)) hFits
    rw [changeFirst_eq_none_iff.mpr hMem]
    dsimp only
    rw [if_neg (Nat.not_le_of_lt hRoom)]
    exact
      hLedger.append hOld rfl
        (counted_first hOld rfl rfl rfl rfl) rfl hLength

/- Fewer sessions have no more games. -/
theorem gamesOf_dedup_length_le
    (xs ys : List GameSession) :
    (gamesOf xs).dedup.length ≤
      (gamesOf (xs ++ ys)).dedup.length := by
  have hSub : (gamesOf xs).dedup ⊆ (gamesOf (xs ++ ys)).dedup := by
    intro g hMem
    have hPlayed := List.mem_dedup.mp hMem
    unfold gamesOf at hPlayed ⊢
    rw [List.mem_dedup, List.map_append]
    exact List.mem_append_left _ hPlayed
  exact (List.subperm_of_subset (List.nodup_dedup _) hSub).length_le

/- Sessions from the start keep it. -/
theorem playSessions_ledger
    (xs : List GameSession)
    (hTicks : ∀ x ∈ xs, x.ticks < 2 ^ 32)
    (hFits :
      (gamesOf xs).dedup.length ≤ gameHistoryMaxEntries) :
    Ledger xs (playSessions xs) := by
  induction xs using List.reverseRecOn with
  | nil => exact gameHistoryInit_ledger
  | append_singleton xs x ih =>
      have hBefore :=
        ih (fun y hMem => hTicks y (List.mem_append_left _ hMem))
          (Nat.le_trans (gamesOf_dedup_length_le xs [x]) hFits)
      have hHere :=
        hTicks x
          (List.mem_append_right _ (List.mem_singleton_self x))
      have hLedger := playSession_ledger hBefore hHere hFits
      unfold playSessions at hLedger ⊢
      rw [List.foldl_append]
      exact hLedger

/- What the history must say about some sessions. -/
structure Accounts
    (xs : List GameSession)
    (s : GameHistory) : Prop where
  nodup : (s.entries.map GameHistoryEntry.gameIndex).Nodup
  played :
    ∀ g, g ∈ s.entries.map GameHistoryEntry.gameIndex ↔
      g ∈ gamesOf xs
  found :
    ∀ e ∈ s.entries, gameHistoryGetEntry s e.gameIndex = some e
  launches :
    ∀ e ∈ s.entries,
      e.launchCount.toNat = (sessionsOf xs e.gameIndex).length
  playtime :
    ∀ e ∈ s.entries,
      e.playtimeSec.toNat = playTime xs e.gameIndex % 2 ^ 32
  latest :
    ∀ x ∈ xs.getLast?, ∃ e ∈ s.entries, e.gameIndex = x.game ∧
      ∀ e' ∈ s.entries, e' ≠ e →
        e'.lastSessionId < e.lastSessionId

/- The last session of a game is not the last of all. -/
theorem lastSession_lt
    {xs : List GameSession}
    {x : GameSession}
    {g : Int32}
    (hOther : x.game ≠ g) :
    lastSession (xs ++ [x]) g < lastSession (xs ++ [x]) x.game := by
  rw [lastSession_snoc_ne hOther, lastSession_snoc_self]
  exact Nat.lt_succ_of_le (lastSession_le xs g)

/-
  The entry of the game that ended last has the greatest
  number, as long as the numbers do not wrap.
-/
theorem Ledger.latest
    {xs : List GameSession}
    {x : GameSession}
    {s : GameHistory}
    (hLedger : Ledger (xs ++ [x]) s)
    (hCount : (xs ++ [x]).length < 2 ^ 32) :
    ∃ e ∈ s.entries, e.gameIndex = x.game ∧
      ∀ e' ∈ s.entries, e' ≠ e →
        e'.lastSessionId < e.lastSessionId := by
  have hGame :=
    (hLedger.played x.game).mpr (mem_gamesOf_snoc.mpr (.inr rfl))
  rcases List.mem_map.mp hGame with ⟨e, hMem, hIndex⟩
  refine ⟨e, hMem, hIndex, fun e' hMem' hNe => ?_⟩
  have hOther : x.game ≠ e'.gameIndex := by
    intro hSame
    exact hNe (List.inj_on_of_nodup_map hLedger.nodup hMem' hMem
      (hSame.symm.trans hIndex.symm))
  have hNumber :
      ∀ g, (UInt32.ofNat (lastSession (xs ++ [x]) g)).toNat =
        lastSession (xs ++ [x]) g := by
    intro g
    exact UInt32.toNat_ofNat_of_lt'
      (Nat.lt_of_le_of_lt (lastSession_le _ g) hCount)
  rw [UInt32.lt_iff_toNat_lt, (hLedger.counted e' hMem').recent,
    (hLedger.counted e hMem).recent, hNumber, hNumber, hIndex]
  exact lastSession_lt hOther

/-
  The history of fewer than 2^32 sessions, each of fewer
  ticks, of at most 64 games.
-/
theorem gameHistory_accounts
    (xs : List GameSession)
    (hCount : xs.length < 2 ^ 32)
    (hTicks : ∀ x ∈ xs, x.ticks < 2 ^ 32)
    (hFits :
      (gamesOf xs).dedup.length ≤ gameHistoryMaxEntries) :
    Accounts xs (playSessions xs) := by
  have hLedger := playSessions_ledger xs hTicks hFits
  constructor
  · exact hLedger.nodup
  · exact hLedger.played
  · intro e hMem
    exact find?_eq_some hLedger.nodup hMem
  · intro e hMem
    have hLe : (sessionsOf xs e.gameIndex).length ≤ xs.length :=
      List.length_filter_le _ _
    rw [(hLedger.counted e hMem).launches]
    exact UInt32.toNat_ofNat_of_lt' (Nat.lt_of_le_of_lt hLe hCount)
  · intro e hMem
    rw [(hLedger.counted e hMem).playtime]
    exact UInt32.toNat_ofNat'
  · intro x hLast
    rcases List.getLast?_eq_some_iff.mp hLast with ⟨ys, rfl⟩
    exact hLedger.latest hCount

/- A game that is played twice, and another in between. -/
def threeSessions : List GameSession :=
  [⟨1, 5, ⟨[97], by decide⟩⟩, ⟨2, 0, ⟨[98], by decide⟩⟩,
    ⟨1, 3, ⟨[97], by decide⟩⟩]

theorem gameHistory_accounts_three :
    Accounts threeSessions (playSessions threeSessions) :=
  gameHistory_accounts threeSessions (by decide)
    (by simp [threeSessions]) (by decide)

end Games

end AsmOS
