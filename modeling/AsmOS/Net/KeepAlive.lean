import AsmOS.Net.LinkSilence
import AsmOS.Net.Party

/-
  Two stations on one line that carries heartbeats only.

  `subsys_tick_all` counts two ticks of the transport, one
  before and one behind its poll.  A heartbeat is not
  answered, and the station that hears it begins to count
  again, so it sends none itself: whichever station comes to
  its heartbeats first, the connection ends.

  Main declarations:
    * `subsysTickAll`, `Station.turn`, `StationPair.rounds`
    * `Peer.turn`, `peerRounds`
    * `Station.Shows.turn`, `round_refines`
    * `linkDrops`
-/

------------------------------------------------------------
-- Stations
------------------------------------------------------------

namespace AsmOS

namespace Net

open ByteMem

/- The frames handed to the driver, in order, and the node. -/
structure TickedAll where
  frames : List (List UInt8)
  node : Node

/-
  `subsys_tick_all`: `net_tick`, then `party_tick` while
  `packet` waits in the driver, then `quantum_tick`, which
  ends with a tick of the transport.  The coherence and the
  phases of the quantum layer are left out.
-/
def subsysTickAll
    (packet : List UInt8)
    (node : Node) : TickedAll :=
  let ticked := transportTick (fun _ => 0) node.transport
  let polled :=
    partyPoll packet { node with transport := ticked.state }
  let synced := transportTick (fun _ => 0) polled.node.transport
  ⟨ticked.frame.toList ++ polled.ack.toList ++
      synced.frame.toList,
    { polled.node with transport := synced.state }⟩

/- A node and the packets that wait in its driver. -/
structure Station where
  node : Node
  waiting : List (List UInt8)

/- `party_poll` asks the driver for a packet. -/
def Station.polls
    (own : Station) : Bool :=
  own.node.partyInitialized && own.node.transport.initialized

/-
  A turn of the shell's loop at one station.  The frames
  arrive at the other station, with the bytes `pad` that the
  wire puts behind a short frame.
-/
def Station.turn
    (pad : List UInt8)
    (own other : Station) : Station × Station :=
  let ticked := subsysTickAll (own.waiting.headD []) own.node
  (⟨ticked.node,
      if own.polls then own.waiting.tail else own.waiting⟩,
    ⟨other.node,
      other.waiting ++ ticked.frames.map (· ++ pad)⟩)

structure StationPair where
  first : Station
  second : Station

/- A turn of the first station, then one of the second. -/
def StationPair.round
    (pad : List UInt8)
    (l : StationPair) : StationPair :=
  let a := l.first.turn pad l.second
  let b := a.2.turn pad a.1
  ⟨b.2, b.1⟩

def StationPair.rounds
    (pad : List UInt8)
    (n : Nat)
    (l : StationPair) : StationPair :=
  (StationPair.round pad)^[n] l

/- The node after the first tick of its turn. -/
def Station.ticked
    (own : Station) : Node :=
  { own.node with
    transport :=
      (transportTick (fun _ => 0) own.node.transport).state }

/- The node after the poll of its turn. -/
def Station.polled
    (own : Station) : Node :=
  (partyPoll (own.waiting.headD []) own.ticked).node

/- A tick of the station's turn ends its connection. -/
def Station.Drops
    (own : Station) : Prop :=
  (SessionCall.tick fun _ => 0).Drops own.node.transport ∨
    (SessionCall.tick fun _ => 0).Drops own.polled.transport

def StationPair.Drops
    (pad : List UInt8)
    (l : StationPair) : Prop :=
  l.first.Drops ∨ (l.first.turn pad l.second).2.Drops

/- The ticks since the station heard or began. -/
def Station.silence
    (own : Station) : Nat :=
  own.node.transport.clock.idle.toNat

/- A connected station that no heartbeat is due at, with
   nothing to hear. -/
structure Station.Quiet
    (own : Station) : Prop where
  party : own.node.partyInitialized = true
  initialized : own.node.transport.initialized = true
  up : own.node.transport.session.connected = true
  missed : own.node.transport.session.heartbeatMissed = 0
  silence : own.silence < 200
  waiting : own.waiting = []

------------------------------------------------------------
-- Silences
------------------------------------------------------------

/- What decides: a station's silence and what waits for it. -/
structure Peer where
  silence : Nat
  waiting : Nat
deriving DecidableEq

/- A tick, unless the third heartbeat is missed in it, and the
   number of heartbeats that are sent. -/
def Peer.tick
    (own : Peer) : Option (Peer × Nat) :=
  let silence := own.silence + 1
  if 202 ≤ silence then none
  else
    some (⟨silence, own.waiting⟩, if silence < 200 then 0 else 1)

def Peer.poll
    (own : Peer) : Peer :=
  if own.waiting = 0 then own else ⟨0, own.waiting - 1⟩

def Peer.turn
    (own other : Peer) : Option (Peer × Peer) :=
  own.tick.bind fun a =>
    a.1.poll.tick.map fun b =>
      (b.1, ⟨other.silence, other.waiting + (a.2 + b.2)⟩)

def peerRound
    (p : Peer × Peer) : Option (Peer × Peer) :=
  (p.1.turn p.2).bind fun a =>
    (a.2.turn a.1).map fun b => (b.2, b.1)

def peerRounds :
    Nat → Peer × Peer → Option (Peer × Peer)
| 0, p => some p
| n + 1, p => (peerRound p).bind (peerRounds n)

/- A packet that is heard and changes nothing else. -/
def Heartbeat
    (packet : List UInt8) : Prop :=
  ∀ (r : State) (out : ByteMem), r.initialized = true →
    (transportReceive packet r (some out) maxPayload
        (some 0)).rc = 0 ∧
      (transportReceive packet r (some out) maxPayload
        (some 0)).ack = none

/- The clock of a connected session, `n` ticks into a
   silence. -/
structure Clock.Counts
    (c : Clock)
    (n : Nat) : Prop where
  initialized : c.initialized = true
  up : c.connected = true
  short : n < 202
  idle : c.idle.toNat = n
  missed : c.missed.toNat = n - 199

structure Station.Shows
    (own : Station)
    (p : Peer) : Prop where
  party : own.node.partyInitialized = true
  clock : own.node.transport.clock.Counts p.silence
  waiting : own.waiting.length = p.waiting
  heartbeats : ∀ packet ∈ own.waiting, Heartbeat packet

def StationPair.Shows
    (l : StationPair)
    (p : Peer × Peer) : Prop :=
  l.first.Shows p.1 ∧ l.second.Shows p.2

theorem Station.Quiet.shows
    {own : Station}
    (hQuiet : own.Quiet) :
    own.Shows ⟨own.silence, 0⟩ := by
  have hFew : own.silence < 200 := hQuiet.silence
  have hClock :
      own.node.transport.clock.Counts own.silence := by
    refine ⟨hQuiet.initialized, hQuiet.up, by omega, rfl, ?_⟩
    have hNone : own.node.transport.clock.missed = 0 :=
      hQuiet.missed
    rw [hNone, Nat.sub_eq_zero_of_le (Nat.le_of_lt_succ hFew)]
    rfl
  refine ⟨hQuiet.party, hClock, ?_, ?_⟩
  · rw [hQuiet.waiting]
    rfl
  · rw [hQuiet.waiting]
    exact fun packet hMem => absurd hMem List.not_mem_nil

namespace Clock.Counts

variable {c : Clock} {n : Nat}

theorem tick
    (hCounts : c.Counts n)
    (hShort : n + 1 < 202) :
    c.tick.Counts (n + 1) := by
  rcases tick_counts hCounts.initialized hCounts.up
      hCounts.short hCounts.idle hCounts.missed with
    ⟨hInit, ⟨hLast, _⟩ | ⟨_, hUp, hIdle, hMissed⟩⟩
  · omega
  · exact ⟨hInit, hUp, hShort, hIdle, hMissed⟩

theorem tick_last
    (hCounts : c.Counts n)
    (hLast : 202 ≤ n + 1) :
    c.tick.connected = false := by
  rcases tick_counts hCounts.initialized hCounts.up
      hCounts.short hCounts.idle hCounts.missed with
    ⟨_, ⟨_, hDown⟩ | ⟨hBefore, _⟩⟩
  · exact hDown
  · omega

theorem hear
    (hCounts : c.Counts n) :
    c.hear.Counts 0 where
  initialized := hCounts.initialized
  up := hCounts.up
  short := by decide
  idle := congrArg UInt32.toNat (UInt32.sub_self (a := c.ticks))
  missed := rfl

end Clock.Counts

------------------------------------------------------------
-- Heartbeats
------------------------------------------------------------

/- A heartbeat that was sent is heard and not answered. -/
theorem heartbeat_of_send
    (driver : List UInt8 → Int)
    {s : State}
    (hInit : s.initialized = true)
    (pad : List UInt8) :
    ∃ frame,
      (transportSend driver s typeHeartbeat none 0).frame =
          some frame ∧
        Heartbeat (frame ++ pad) := by
  have hPoints : PointsTo none [] := rfl
  have hFits : ([] : List UInt8).length ≤ maxPayload :=
    Nat.zero_le _
  have hEmpty : (0 : UInt16).toNat ≤ maxPayload := Nat.zero_le _
  have hFrame :=
    transportSend_frame driver s typeHeartbeat none hInit hEmpty
  refine ⟨_, hFrame, fun r out hReceiver => ?_⟩
  have hHolds :=
    sendBuffer_holds s.txBuf typeHeartbeat s.session.localSeq
      hPoints hFits
  rcases deliver_holds r pad hHolds hFits with
    ⟨got, hGot, hWhole, hDelivered⟩
  have hAccept :=
    transportReceive_accepts out 0 hReceiver hGot hWhole
      hDelivered hFits hFits
  have hType : (r.deliver got).rxBuf 0 ≠ typeData := by
    rw [hDelivered.type_eq]
    decide
  have hAck :
      (acceptPacket (r.deliver got) out 0).ack = none := by
    unfold acceptPacket
    dsimp only
    rw [if_neg hType]
  exact
    ⟨(congrArg Received.rc hAccept).trans
        (acceptPacket_rc _ _ _),
      (congrArg Received.ack hAccept).trans hAck⟩

/- What a tick of a connected session hands the driver. -/
theorem transportTick_frame
    {s : State}
    {n : Nat}
    (hCounts : s.clock.Counts n)
    (hShort : n + 1 < 202)
    (pad : List UInt8) :
    ∃ frames,
      (transportTick (fun _ => 0) s).frame.toList = frames ∧
        frames.length = (if n + 1 < 200 then 0 else 1) ∧
        ∀ frame ∈ frames, Heartbeat (frame ++ pad) := by
  have hCount : s.clock.count.idle.toNat = n + 1 := by
    rw [Clock.count_idle, UInt32.toNat_add, hCounts.idle]
    exact Nat.mod_eq_of_lt (by change n + 1 < _; omega)
  have hNext : (s.session.heartbeatMissed + 1).toNat < 3 := by
    have hMissed :
        s.session.heartbeatMissed.toNat = n - 199 :=
      hCounts.missed
    rw [UInt8.toNat_add, hMissed]
    change (n - 199 + 1) % 256 < 3
    omega
  have hBeat : heartbeatTicks.toNat = 200 := rfl
  have hStarted : s.initialized = true := hCounts.initialized
  have hLinked : s.session.connected = true := hCounts.up
  unfold transportTick
  rw [if_neg (not_not.mpr hStarted)]
  dsimp only
  rw [if_neg (not_not.mpr hLinked)]
  by_cases hFresh :
      s.ticks + 1 - s.session.lastHeartbeatTicks <
        heartbeatTicks
  · rw [if_pos hFresh]
    have hSoon : n + 1 < 200 := by
      have hLess := UInt32.lt_iff_toNat_lt.mp hFresh
      change s.clock.count.idle.toNat < _ at hLess
      omega
    rw [if_pos hSoon]
    exact ⟨[], rfl, rfl,
      fun _ hMem => absurd hMem List.not_mem_nil⟩
  · rw [if_neg hFresh]
    have hLate : ¬ n + 1 < 200 := by
      have hMore := UInt32.not_lt.mp hFresh
      have hLess := UInt32.le_iff_toNat_le.mp hMore
      change _ ≤ s.clock.count.idle.toNat at hLess
      omega
    have hAlive :
        ¬ maxMissedHeartbeat ≤ s.session.heartbeatMissed + 1 :=
      fun hDead =>
        absurd (UInt8.le_iff_toNat_le.mp hDead)
          (Nat.not_le_of_lt hNext)
    rw [if_neg hAlive, if_neg hLate]
    rcases heartbeat_of_send (fun _ => 0)
        (s := { s with
          ticks := s.ticks + 1
          session :=
            { s.session with
              heartbeatMissed :=
                s.session.heartbeatMissed + 1 } })
        hStarted pad with
      ⟨frame, hFrame, hHeard⟩
    refine ⟨[frame], ?_, rfl, fun _ hMem => ?_⟩
    · exact congrArg Option.toList hFrame
    · rw [List.mem_singleton.mp hMem]
      exact hHeard

------------------------------------------------------------
-- Polls
------------------------------------------------------------

theorem handlePolled_fields
    (node : Node)
    (got : Received) :
    (handlePolled node got).transport = got.state ∧
      (handlePolled node got).partyInitialized =
        node.partyInitialized := by
  unfold handlePolled
  dsimp only
  split <;> exact ⟨rfl, rfl⟩

/- Without a packet the driver returns 0 bytes. -/
theorem transportReceive_nothing
    {s : State}
    (hInit : s.initialized = true)
    (out : ByteMem) :
    (transportReceive [] s (some out) maxPayload (some 0)).rc =
        -1 ∧
      (transportReceive [] s (some out) maxPayload
        (some 0)).ack = none := by
  have hReject :
      ¬ Accepts (s.deliver (platNetRecv [] packetMax)).rxBuf
        (platNetRecv [] packetMax).length maxPayload :=
    fun hAccepts => absurd hAccepts.1 (by decide)
  rw [transportReceive_eq [] hInit]
  dsimp only
  rw [if_neg hReject]
  exact ⟨rfl, rfl⟩

variable {node : Node}

/- What a poll does that the driver has no data packet for. -/
theorem partyPoll_quiet
    (hParty : node.partyInitialized = true)
    {packet : List UInt8}
    {rc : Int}
    (hGot :
      (transportReceive packet node.transport
          (some node.partyRxBuf) maxPayload (some 0)).rc = rc ∧
        (transportReceive packet node.transport
          (some node.partyRxBuf) maxPayload
            (some 0)).ack = none) :
    (partyPoll packet node).ack = none ∧
      (partyPoll packet node).node.partyInitialized = true ∧
      (partyPoll packet node).node.transport.clock =
        if rc ≠ -1 then node.transport.clock.hear
        else node.transport.clock := by
  have hFields :=
    handlePolled_fields node
      (transportReceive packet node.transport
        (some node.partyRxBuf) maxPayload (some 0))
  unfold partyPoll
  rw [if_neg (not_not.mpr hParty)]
  dsimp only
  refine ⟨hGot.2, hFields.2.trans hParty, ?_⟩
  rw [hFields.1, transportReceive_clock, hGot.1]

/- A poll hears the heartbeat that waits, if one does. -/
theorem partyPoll_waiting
    {waiting : List (List UInt8)}
    (hBeats : ∀ packet ∈ waiting, Heartbeat packet)
    (hParty : node.partyInitialized = true)
    (hInit : node.transport.initialized = true) :
    (partyPoll (waiting.headD []) node).ack = none ∧
      (partyPoll (waiting.headD []) node).node.partyInitialized =
        true ∧
      (partyPoll (waiting.headD []) node).node.transport.clock =
        if waiting = [] then node.transport.clock
        else node.transport.clock.hear := by
  cases waiting with
  | nil =>
      exact partyPoll_quiet hParty
        (transportReceive_nothing hInit node.partyRxBuf)
  | cons packet rest =>
      have hBeat := hBeats packet List.mem_cons_self
      exact partyPoll_quiet hParty
        (hBeat node.transport node.partyRxBuf hInit)

------------------------------------------------------------
-- Turns
------------------------------------------------------------

section Turns

variable {own other : Station} {p q : Peer}

variable {r : Peer × Peer}

/- The clock ticks on, with the heartbeat that is due. -/
theorem Clock.Counts.tick_peer
    {s : State}
    {a : Peer × Nat}
    (hCounts : s.clock.Counts p.silence)
    (hTick : p.tick = some a)
    (pad : List UInt8) :
    (transportTick (fun _ => 0) s).state.clock.Counts
        a.1.silence ∧
      a.1.waiting = p.waiting ∧
      ∃ frames,
        (transportTick (fun _ => 0) s).frame.toList = frames ∧
          frames.length = a.2 ∧
          ∀ frame ∈ frames, Heartbeat (frame ++ pad) := by
  unfold Peer.tick at hTick
  dsimp only at hTick
  by_cases hDead : 202 ≤ p.silence + 1
  · rw [if_pos hDead] at hTick
    cases hTick
  rw [if_neg hDead] at hTick
  cases hTick
  have hShort := Nat.lt_of_not_le hDead
  refine ⟨?_, rfl, transportTick_frame hCounts hShort pad⟩
  rw [transportTick_clock]
  exact hCounts.tick hShort

/- The tick that misses the third heartbeat ends the
   connection. -/
theorem Clock.Counts.tick_drops
    {s : State}
    (hCounts : s.clock.Counts p.silence)
    (hTick : p.tick = none) :
    (SessionCall.tick fun _ => 0).Drops s := by
  unfold Peer.tick at hTick
  dsimp only at hTick
  by_cases hDead : 202 ≤ p.silence + 1
  · have hDown : (transportTick (fun _ => 0) s).state.clock =
        s.clock.tick :=
      transportTick_clock _ _
    exact ⟨hCounts.up, Nat.one_pos,
      (congrArg Clock.connected hDown).trans
        (hCounts.tick_last hDead)⟩
  · rw [if_neg hDead] at hTick
    cases hTick

/- What the poll of a turn does. -/
theorem Station.Shows.poll
    (hOwn : own.Shows p)
    {a : Peer × Nat}
    (hTick : p.tick = some a) :
    own.polls = true ∧
      (partyPoll (own.waiting.headD []) own.ticked).ack = none ∧
      own.polled.partyInitialized = true ∧
      own.polled.transport.clock.Counts a.1.poll.silence ∧
      own.waiting.tail.length = a.1.poll.waiting := by
  have hStarted : own.node.transport.initialized = true :=
    hOwn.clock.initialized
  have hParty : own.ticked.partyInitialized = true := hOwn.party
  have hPolls : own.polls = true := by
    unfold Station.polls
    rw [hOwn.party, hStarted]
    rfl
  rcases hOwn.clock.tick_peer hTick [] with ⟨hClock, hSame, _⟩
  rcases partyPoll_waiting hOwn.heartbeats hParty
      hClock.initialized with
    ⟨hAck, hAfter, hHeard⟩
  refine ⟨hPolls, hAck, hAfter, ?_⟩
  have hCount := hOwn.waiting
  change own.polled.transport.clock = _ at hHeard
  rw [hHeard, List.length_tail, hCount]
  unfold Peer.poll
  by_cases hNone : own.waiting = []
  · have hZero : a.1.waiting = 0 := by
      rw [hSame, ← hCount, hNone]
      rfl
    rw [if_pos hNone, if_pos hZero, ← hSame, hZero]
    exact ⟨hClock, rfl⟩
  · have hSome : a.1.waiting ≠ 0 := by
      rw [hSame, ← hCount]
      exact fun hZero => hNone (List.length_eq_zero_iff.mp hZero)
    rw [if_neg hNone, if_neg hSome, hSame]
    exact ⟨hClock.hear, rfl⟩

/- A turn does to the stations what it does to their counts. -/
theorem Station.Shows.turn
    (hOwn : own.Shows p)
    (hOther : other.Shows q)
    (hTurn : p.turn q = some r)
    (pad : List UInt8) :
    (own.turn pad other).1.Shows r.1 ∧
      (own.turn pad other).2.Shows r.2 := by
  unfold Peer.turn at hTurn
  rcases Option.bind_eq_some_iff.mp hTurn with
    ⟨a, hTick, hRest⟩
  rcases Option.map_eq_some_iff.mp hRest with
    ⟨b, hSync, rfl⟩
  rcases hOwn.poll hTick with
    ⟨hPolls, hAck, hParty, hHeard, hWaiting⟩
  rcases hOwn.clock.tick_peer hTick pad with
    ⟨_, _, ticked, hTicked, hFirst, hBeats⟩
  rcases hHeard.tick_peer hSync pad with
    ⟨hClock, hSame, synced, hSynced, hSecond, hMore⟩
  have hSent :
      (subsysTickAll (own.waiting.headD []) own.node).frames =
        ticked ++ synced := by
    change _ ++ (partyPoll _ own.ticked).ack.toList ++
      (transportTick _ own.polled.transport).frame.toList = _
    rw [hAck, hTicked, hSynced, Option.toList_none,
      List.append_nil]
  have hArrived :
      (own.turn pad other).2.waiting =
        other.waiting ++ (ticked ++ synced).map (· ++ pad) := by
    rw [← hSent]
    rfl
  have hLeft :
      (own.turn pad other).1.waiting = own.waiting.tail :=
    if_pos hPolls
  constructor
  · refine ⟨hParty, hClock, ?_, ?_⟩
    · rw [hLeft, hWaiting, hSame]
    · rw [hLeft]
      exact fun packet hMem =>
        hOwn.heartbeats packet (List.mem_of_mem_tail hMem)
  · refine ⟨hOther.party, hOther.clock, ?_, ?_⟩
    · rw [hArrived, List.length_append, List.length_map,
        List.length_append, hOther.waiting, hFirst, hSecond]
    · rw [hArrived]
      intro packet hMem
      rcases List.mem_append.mp hMem with hOld | hNew
      · exact hOther.heartbeats packet hOld
      · rcases List.mem_map.mp hNew with ⟨frame, hFrame, rfl⟩
        rcases List.mem_append.mp hFrame with hEarly | hLate
        · exact hBeats frame hEarly
        · exact hMore frame hLate

theorem Station.Shows.drops
    (hOwn : own.Shows p)
    (hTurn : p.turn q = none) :
    own.Drops := by
  unfold Peer.turn at hTurn
  cases hTick : p.tick with
  | none => exact .inl (hOwn.clock.tick_drops hTick)
  | some a =>
      rw [hTick, Option.bind_some, Option.map_eq_none_iff]
        at hTurn
      rcases hOwn.poll hTick with ⟨_, _, _, hHeard, _⟩
      exact .inr (hHeard.tick_drops hTurn)

end Turns

------------------------------------------------------------
-- Rounds
------------------------------------------------------------

section Rounds

variable {l : StationPair} {p : Peer × Peer}

/- A round of the stations is one of their counts. -/
theorem round_refines
    (hShows : l.Shows p)
    (pad : List UInt8) :
    match peerRound p with
    | some q => (l.round pad).Shows q
    | none => l.Drops pad := by
  unfold peerRound
  cases hFirst : p.1.turn p.2 with
  | none => exact .inl (hShows.1.drops hFirst)
  | some a =>
      have hTurn := hShows.1.turn hShows.2 hFirst pad
      rw [Option.bind_some]
      cases hSecond : a.2.turn a.1 with
      | none => exact .inr (hTurn.2.drops hSecond)
      | some b =>
          have hLast := hTurn.2.turn hTurn.1 hSecond pad
          exact ⟨hLast.2, hLast.1⟩

/- The first round that the counts do not survive. -/
theorem rounds_drop
    (n : Nat)
    (hShows : l.Shows p)
    (hRounds : peerRounds n p = none)
    (pad : List UInt8) :
    ∃ k < n, (l.rounds pad k).Drops pad := by
  induction n generalizing l p with
  | zero => cases hRounds
  | succ n ih =>
      unfold peerRounds at hRounds
      have hRound := round_refines hShows pad
      cases hNext : peerRound p with
      | none =>
          rw [hNext] at hRound
          exact ⟨0, Nat.succ_pos n, hRound⟩
      | some r =>
          rw [hNext] at hRound hRounds
          rcases ih hRound hRounds with ⟨k, hk, hDrops⟩
          exact ⟨k + 1, Nat.succ_lt_succ hk, hDrops⟩

end Rounds

------------------------------------------------------------
-- Counts
------------------------------------------------------------

theorem peerRounds_add
    (m n : Nat)
    (p : Peer × Peer) :
    peerRounds (m + n) p =
      (peerRounds m p).bind (peerRounds n) := by
  induction m generalizing p with
  | zero => rw [Nat.zero_add, peerRounds, Option.bind_some]
  | succ m ih =>
      rw [Nat.succ_add, peerRounds, peerRounds, Option.bind_assoc]
      exact congrArg _ (funext ih)

section Counts

variable {a b n : Nat} {other : Peer}

theorem Peer.tick_soon
    (hSoon : a + 1 < 200)
    (waiting : Nat) :
    Peer.tick ⟨a, waiting⟩ = some (⟨a + 1, waiting⟩, 0) := by
  have hAlive : ¬ 202 ≤ a + 1 := by omega
  unfold Peer.tick
  dsimp only
  rw [if_neg hAlive, if_pos hSoon]

/- A turn in which no heartbeat is due and none waits. -/
theorem Peer.turn_quiet
    (hSoon : a + 2 < 200) :
    Peer.turn ⟨a, 0⟩ other = some (⟨a + 2, 0⟩, other) := by
  have hPoll : Peer.poll ⟨a + 1, 0⟩ = ⟨a + 1, 0⟩ := rfl
  unfold Peer.turn
  rw [Peer.tick_soon (by omega), Option.bind_some, hPoll,
    Peer.tick_soon hSoon]
  rfl

/- A turn that hears a heartbeat before an own one is due. -/
theorem Peer.turn_heard
    (hSoon : a + 1 < 200)
    (waiting : Nat) :
    Peer.turn ⟨a, waiting + 1⟩ other =
      some (⟨1, waiting⟩, other) := by
  have hPoll : Peer.poll ⟨a + 1, waiting + 1⟩ = ⟨0, waiting⟩ := rfl
  unfold Peer.turn
  rw [Peer.tick_soon hSoon, Option.bind_some, hPoll]
  rfl

theorem peerRounds_quiet
    (hFirst : a + 2 * n < 200)
    (hSecond : b + 2 * n < 200) :
    peerRounds n (⟨a, 0⟩, ⟨b, 0⟩) =
      some (⟨a + 2 * n, 0⟩, ⟨b + 2 * n, 0⟩) := by
  induction n generalizing a b with
  | zero => rfl
  | succ n ih =>
      have hRound :
          peerRound (⟨a, 0⟩, ⟨b, 0⟩) =
            some (⟨a + 2, 0⟩, ⟨b + 2, 0⟩) := by
        unfold peerRound
        rw [Peer.turn_quiet (by omega), Option.bind_some,
          Peer.turn_quiet (by omega)]
        rfl
      have hEnd : ∀ c, c + 2 + 2 * n = c + 2 * (n + 1) := by
        intro c
        omega
      rw [peerRounds, hRound, Option.bind_some,
        ih (by omega) (by omega), hEnd, hEnd]

/- The first station comes to its heartbeats first: the second
   hears it and stays silent. -/
theorem peerRounds_first
    (hFirst : a = 198 ∨ a = 199)
    (hBehind : b < 199) :
    peerRounds 2 (⟨a, 0⟩, ⟨b, 0⟩) = none := by
  have hSoon : b + 1 < 200 := Nat.succ_lt_succ hBehind
  rcases hFirst with rfl | rfl
  · have hRound :
        peerRound (⟨198, 0⟩, ⟨b, 0⟩) =
          some (⟨200, 0⟩, ⟨1, 0⟩) := by
      change ((⟨b, 1⟩ : Peer).turn ⟨200, 0⟩).map _ = _
      rw [Peer.turn_heard hSoon]
      rfl
    rw [peerRounds, hRound]
    rfl
  · have hRound :
        peerRound (⟨199, 0⟩, ⟨b, 0⟩) =
          some (⟨201, 0⟩, ⟨1, 1⟩) := by
      change ((⟨b, 2⟩ : Peer).turn ⟨201, 0⟩).map _ = _
      rw [Peer.turn_heard hSoon]
      rfl
    rw [peerRounds, hRound]
    rfl

/- The second station comes to its heartbeats first. -/
theorem peerRounds_second
    (hSecond : b = 198 ∨ b = 199)
    (hBehind : a < 197) :
    peerRounds 2 (⟨a, 0⟩, ⟨b, 0⟩) = none := by
  have hQuiet : a + 2 < 200 := by omega
  have hHeard : a + 2 + 1 < 200 := by omega
  rcases hSecond with rfl | rfl
  · have hRound :
        peerRound (⟨a, 0⟩, ⟨198, 0⟩) =
          some (⟨a + 2, 1⟩, ⟨200, 0⟩) := by
      unfold peerRound
      rw [Peer.turn_quiet hQuiet]
      rfl
    rw [peerRounds, hRound, Option.bind_some, peerRounds,
      peerRound, Peer.turn_heard hHeard]
    rfl
  · have hRound :
        peerRound (⟨a, 0⟩, ⟨199, 0⟩) =
          some (⟨a + 2, 2⟩, ⟨201, 0⟩) := by
      unfold peerRound
      rw [Peer.turn_quiet hQuiet]
      rfl
    rw [peerRounds, hRound, Option.bind_some, peerRounds,
      peerRound, Peer.turn_heard hHeard]
    rfl

/- Only a second station that is one tick ahead gets over its
   heartbeats. -/
theorem peerRounds_over
    (hFirst : a < 200)
    (hSecond : b < 200)
    (hNear : 198 ≤ a ∨ 198 ≤ b)
    (hAhead : b ≠ a + 1) :
    peerRounds 2 (⟨a, 0⟩, ⟨b, 0⟩) = none := by
  by_cases hBoth : a = 199 ∧ b = 199
  · rw [hBoth.1, hBoth.2]
    rfl
  by_cases hOne : a = 197 ∧ b = 199
  · rw [hOne.1, hOne.2]
    rfl
  by_cases hLead : 198 ≤ a
  · exact peerRounds_first (by omega) (by omega)
  · exact peerRounds_second (by omega) (by omega)

theorem peerRounds_apart
    (hFirst : a < 200)
    (hSecond : b < 200)
    (hAhead : b ≠ a + 1) :
    ∃ n ≤ (199 - max a b) / 2 + 2,
      peerRounds n (⟨a, 0⟩, ⟨b, 0⟩) = none := by
  have hMax := max_lt hFirst hSecond
  have hLeft := le_max_left a b
  have hRight := le_max_right a b
  have hOne := max_choice a b
  generalize max a b = m at *
  refine ⟨(199 - m) / 2 + 2, le_rfl, ?_⟩
  rw [peerRounds_add, peerRounds_quiet (by omega) (by omega),
    Option.bind_some]
  exact peerRounds_over (by omega) (by omega) (by omega) (by omega)

/- The station that is one tick ahead is as far as the other
   one, or two ticks ahead, the next time. -/
theorem peerRounds_ahead
    (hAhead : a + 1 < 200) :
    ∃ n ≤ 202, peerRounds n (⟨a, 0⟩, ⟨a + 1, 0⟩) = none := by
  have hParity := Nat.mod_two_eq_zero_or_one a
  rcases hParity with hEven | hOdd
  · have hNext : peerRounds 2 (⟨198, 0⟩, ⟨199, 0⟩) =
        some (⟨1, 0⟩, ⟨1, 0⟩) := rfl
    have hEnd : a + 2 * ((198 - a) / 2) = 198 := by omega
    have hOther : a + 1 + 2 * ((198 - a) / 2) = 199 := by omega
    have hLast : ∃ n ≤ 101,
        peerRounds n (⟨1, 0⟩, ⟨1, 0⟩) = none :=
      peerRounds_apart (a := 1) (b := 1) (by decide) (by decide)
        (by decide)
    rcases hLast with ⟨n, hn, hDrop⟩
    refine ⟨(198 - a) / 2 + (2 + n), by omega, ?_⟩
    rw [peerRounds_add, peerRounds_quiet (by omega) (by omega),
      hEnd, hOther, Option.bind_some, peerRounds_add, hNext,
      Option.bind_some, hDrop]
  · have hNext : peerRounds 3 (⟨197, 0⟩, ⟨198, 0⟩) =
        some (⟨1, 0⟩, ⟨3, 0⟩) := rfl
    have hEnd : a + 2 * ((197 - a) / 2) = 197 := by omega
    have hOther : a + 1 + 2 * ((197 - a) / 2) = 198 := by omega
    have hLast : ∃ n ≤ 100,
        peerRounds n (⟨1, 0⟩, ⟨3, 0⟩) = none :=
      peerRounds_apart (a := 1) (b := 3) (by decide) (by decide)
        (by decide)
    rcases hLast with ⟨n, hn, hDrop⟩
    refine ⟨(197 - a) / 2 + (3 + n), by omega, ?_⟩
    rw [peerRounds_add, peerRounds_quiet (by omega) (by omega),
      hEnd, hOther, Option.bind_some, peerRounds_add, hNext,
      Option.bind_some, hDrop]

end Counts

------------------------------------------------------------
-- The Line
------------------------------------------------------------

/-
  Two stations take turns on a line that loses nothing, each
  with less than 200 ticks of silence behind it.  Within 202
  rounds a tick ends the connection of one of them: the
  heartbeats never keep a line up.
-/
theorem linkDrops
    {l : StationPair}
    (hFirst : l.first.Quiet)
    (hSecond : l.second.Quiet)
    (pad : List UInt8) :
    ∃ n < 202, (l.rounds pad n).Drops pad := by
  have hShows :
      l.Shows (⟨l.first.silence, 0⟩, ⟨l.second.silence, 0⟩) :=
    ⟨hFirst.shows, hSecond.shows⟩
  have hFirstShort := hFirst.silence
  have hSecondShort := hSecond.silence
  have hDrop :
      ∃ n ≤ 202,
        peerRounds n
          (⟨l.first.silence, 0⟩, ⟨l.second.silence, 0⟩) = none := by
    by_cases hAhead : l.second.silence = l.first.silence + 1
    · rw [hAhead]
      exact peerRounds_ahead (by omega)
    · rcases peerRounds_apart hFirstShort hSecondShort hAhead with
        ⟨n, hn, hNone⟩
      exact ⟨n, by omega, hNone⟩
  rcases hDrop with ⟨n, hn, hNone⟩
  rcases rounds_drop n hShows hNone pad with ⟨k, hk, hDrops⟩
  exact ⟨k, Nat.lt_of_lt_of_le hk hn, hDrops⟩

/- A station after `party_init`. -/
def newStation : Station :=
  ⟨partyInit Node.boot, []⟩

/- Two new stations, on a wire that pads frames. -/
theorem linkDrops_new :
    ∃ n < 202,
      (StationPair.rounds [0, 0] n
        ⟨newStation, newStation⟩).Drops [0, 0] := by
  have hQuiet : newStation.Quiet :=
    ⟨rfl, rfl, rfl, rfl, by decide, rfl⟩
  exact linkDrops (l := ⟨newStation, newStation⟩) hQuiet hQuiet
    [0, 0]

end Net

end AsmOS
