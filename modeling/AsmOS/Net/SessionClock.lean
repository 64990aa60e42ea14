import AsmOS.Net.FrameHistory

/-
  The clock of a session: what sends, receives and ticks do to
  the counters that decide when a link is dropped and when it
  is made again.

  Main declarations:
    * `Clock`, `State.clock`
    * `SessionCall`, `sessionRun`
    * `run_clock`
    * `ticks_reconnect_iff`
-/

------------------------------------------------------------
-- Clocks
------------------------------------------------------------

namespace AsmOS

namespace Net

open ByteMem

/- The static variables that time a session. -/
structure Clock where
  initialized : Bool
  connected : Bool
  missed : UInt8
  last : UInt32
  ticks : UInt32
  next : UInt32
  attempts : Nat
deriving DecidableEq, Repr

def State.clock
    (s : State) : Clock where
  initialized := s.initialized
  connected := s.session.connected
  missed := s.session.heartbeatMissed
  last := s.session.lastHeartbeatTicks
  ticks := s.ticks
  next := s.nextReconnectTick
  attempts := s.reconnectAttempts

namespace Clock

def init
    (c : Clock) : Clock :=
  if c.initialized then c
  else
    { c with
      initialized := true
      connected := true
      missed := 0
      last := 0
      ticks := 0 }

def requestReconnect
    (c : Clock) : Clock :=
  { c with connected := false, missed := maxMissedHeartbeat }

/- A packet was accepted. -/
def hear
    (c : Clock) : Clock :=
  { c with last := c.ticks, missed := 0 }

/- Ticks since the packet or reconnection heard last. -/
def idle
    (c : Clock) : UInt32 :=
  c.ticks - c.last

/- A tick of a connected session, after the count. -/
def listen
    (c : Clock) : Clock :=
  if c.idle < heartbeatTicks then c
  else
    let c := { c with missed := c.missed + 1 }
    if maxMissedHeartbeat ≤ c.missed then
      { c with connected := false }
    else c

/- The deadline that a tick tests. -/
def deadline
    (c : Clock) : UInt32 :=
  if c.attempts = 0 then c.ticks + reconnectTicks else c.next

/- A tick of a session that is not connected, after the count. -/
def retry
    (c : Clock) : Clock :=
  if c.deadline ≤ c.ticks ∧ c.attempts < maxReconnectAttempts
  then
    { c with
      attempts := c.attempts + 1
      connected := true
      missed := 0
      last := c.ticks
      next :=
        c.ticks +
          reconnectTicks * (if 4 < c.attempts + 1 then 2 else 1) }
  else { c with next := c.deadline }

def count
    (c : Clock) : Clock :=
  { c with ticks := c.ticks + 1 }

def tick
    (c : Clock) : Clock :=
  if ¬ c.initialized then c
  else if c.connected then c.count.listen
  else c.count.retry

end Clock

------------------------------------------------------------
-- Calls On A Session
------------------------------------------------------------

/- A call, with the driver's answers to what it sends. -/
inductive SessionCall where
| init
| send
    (driver : List UInt8 → Int)
    (type : UInt8)
    (payload : Option ByteMem)
    (len : UInt16)
| receive
    (packet : List UInt8)
    (buffer : Option ByteMem)
    (maxLen : Nat)
    (outType : Option UInt8)
| tick (driver : List UInt8 → Int)
| requestReconnect

def SessionCall.run
    (s : State) : SessionCall → State
| .init => transportInit s
| .send driver type payload len =>
    (transportSend driver s type payload len).state
| .receive packet buffer maxLen outType =>
    (transportReceive packet s buffer maxLen outType).state
| .tick driver => (transportTick driver s).state
| .requestReconnect => transportRequestReconnect s

def sessionRun
    (s : State)
    (calls : List SessionCall) : State :=
  calls.foldl SessionCall.run s

/- The call returns a packet. -/
def SessionCall.Hears
    (s : State) : SessionCall → Prop
| .receive packet buffer maxLen outType =>
    (transportReceive packet s buffer maxLen outType).rc ≠ -1
| _ => False

instance
    (s : State) :
    (call : SessionCall) → Decidable (call.Hears s)
| .receive packet buffer maxLen outType =>
    inferInstanceAs
      (Decidable
        ((transportReceive packet s buffer maxLen
          outType).rc ≠ -1))
| .init => isFalse id
| .send _ _ _ _ => isFalse id
| .tick _ => isFalse id
| .requestReconnect => isFalse id

section Clocks

@[simp] theorem transportInit_clock
    (s : State) :
    (transportInit s).clock = s.clock.init := by
  unfold transportInit
  by_cases hInit : s.initialized = true
  · rw [if_pos hInit]
    exact (if_pos hInit).symm
  · rw [if_neg hInit]
    exact (if_neg hInit).symm

@[simp] theorem transportRequestReconnect_clock
    (s : State) :
    (transportRequestReconnect s).clock =
      s.clock.requestReconnect :=
  rfl

/- A send leaves the clock alone. -/
@[simp] theorem transportSend_clock
    (driver : List UInt8 → Int)
    (s : State)
    (type : UInt8)
    (payload : Option ByteMem)
    (len : UInt16) :
    (transportSend driver s type payload len).state.clock =
      s.clock := by
  unfold transportSend
  split
  · rfl
  · dsimp only
    split <;> rfl

theorem acceptPacket_clock
    (s : State)
    (out : ByteMem)
    (len : Nat) :
    (acceptPacket s out len).state.clock = s.clock.hear := by
  unfold acceptPacket
  dsimp only
  split <;> rfl

/- Without a session or without a pointer nothing is received. -/
theorem transportReceive_refused
    (packet : List UInt8)
    {s : State}
    {buffer : Option ByteMem}
    (maxLen : Nat)
    {outType : Option UInt8}
    (hRefused :
      s.initialized = false ∨ buffer = none ∨
        outType = none) :
    transportReceive packet s buffer maxLen outType =
      ⟨-1, outType, buffer, none, s⟩ := by
  unfold transportReceive
  split
  · next hInit =>
      simp [hInit] at hRefused
  · rfl

/- A packet that is passed on is heard, any other is not. -/
theorem transportReceive_clock
    (packet : List UInt8)
    (s : State)
    (buffer : Option ByteMem)
    (maxLen : Nat)
    (outType : Option UInt8) :
    (transportReceive packet s buffer maxLen
        outType).state.clock =
      if (transportReceive packet s buffer maxLen
          outType).rc ≠ -1 then s.clock.hear
      else s.clock := by
  by_cases hRefused :
      s.initialized = false ∨ buffer = none ∨ outType = none
  · rw [transportReceive_refused packet maxLen hRefused]
    rfl
  push Not at hRefused
  rcases hRefused with ⟨hInit, hBuffer, hType⟩
  rcases Option.ne_none_iff_exists'.mp hBuffer with
    ⟨out, rfl⟩
  rcases Option.ne_none_iff_exists'.mp hType with
    ⟨type, rfl⟩
  rw [transportReceive_eq packet (by simpa using hInit)]
  dsimp only
  split
  · rw [acceptPacket_clock, acceptPacket_rc, if_pos (by omega)]
    rfl
  · rfl

theorem reconnectStep_clock
    (s : State) :
    (reconnectStep s).clock = s.clock.retry :=
  apply_ite State.clock _ _ _

/- What a tick does to the clock. -/
@[simp] theorem transportTick_clock
    (driver : List UInt8 → Int)
    (s : State) :
    (transportTick driver s).state.clock = s.clock.tick := by
  have hClock :
      s.clock.initialized = s.initialized ∧
        s.clock.connected = s.session.connected :=
    ⟨rfl, rfl⟩
  unfold transportTick Clock.tick
  rw [hClock.1, hClock.2]
  by_cases hInit : s.initialized = true
  · rw [if_neg (not_not.mpr hInit), if_neg (not_not.mpr hInit)]
    dsimp only
    by_cases hUp : s.session.connected = true
    · rw [if_neg (not_not.mpr hUp), if_pos hUp]
      unfold Clock.listen
      dsimp only
      split
      · next hFresh => exact (if_pos hFresh).symm
      · next hStale =>
          refine Eq.trans ?_ (if_neg hStale).symm
          split
          · next hDead => exact (if_pos hDead).symm
          · next hAlive =>
              refine Eq.trans ?_ (if_neg hAlive).symm
              exact transportSend_clock driver _ _ _ _
    · rw [if_pos hUp, if_neg hUp]
      exact reconnectStep_clock _
  · rw [if_pos hInit, if_pos hInit]

/- What a call does to the clock. -/
def SessionCall.onClock
    (s : State) : SessionCall → Clock
| .init => s.clock.init
| .send _ _ _ _ => s.clock
| .receive packet buffer maxLen outType =>
    if (SessionCall.receive packet buffer maxLen
        outType).Hears s then s.clock.hear
    else s.clock
| .tick _ => s.clock.tick
| .requestReconnect => s.clock.requestReconnect

theorem run_clock
    (s : State)
    (call : SessionCall) :
    (call.run s).clock = call.onClock s := by
  cases call with
  | init => exact transportInit_clock s
  | send driver type payload len =>
      exact transportSend_clock driver s type payload len
  | receive packet buffer maxLen outType =>
      exact transportReceive_clock packet s buffer maxLen outType
  | tick driver => exact transportTick_clock driver s
  | requestReconnect => exact transportRequestReconnect_clock s

end Clocks

------------------------------------------------------------
-- Waiting For A Reconnection
------------------------------------------------------------

namespace Clock

variable {c d : Clock} {k : Nat}

@[simp] theorem count_ticks
    (hFar : c.ticks.toNat + 1 < 2 ^ 32) :
    c.count.ticks.toNat = c.ticks.toNat + 1 := by
  change (c.ticks + 1).toNat = _
  rw [UInt32.toNat_add]
  exact Nat.mod_eq_of_lt hFar

theorem tick_of_down
    (hInit : c.initialized = true)
    (hDown : c.connected = false) :
    c.tick = c.count.retry := by
  unfold tick
  rw [if_neg (not_not.mpr hInit), if_neg (by simp [hDown])]

theorem tick_of_up
    (hInit : c.initialized = true)
    (hUp : c.connected = true) :
    c.tick = c.count.listen := by
  unfold tick
  rw [if_neg (not_not.mpr hInit), if_pos hUp]

/- The clock `d` is `c` after `k` ticks, still not connected. -/
structure WaitedFor
    (c d : Clock)
    (k : Nat) : Prop where
  initialized : d.initialized = true
  connected : d.connected = false
  attempts : d.attempts = c.attempts
  next : c.attempts ≠ 0 → d.next = c.next
  ticks : d.ticks.toNat = c.ticks.toNat + k

/- An earlier attempt set a deadline, and `k` ticks reach it. -/
def Due
    (c : Clock)
    (k : Nat) : Prop :=
  c.attempts ≠ 0 ∧ c.next.toNat ≤ c.ticks.toNat + k

theorem deadline_reached_iff
    (hWaited : WaitedFor c d k)
    (hFar : c.ticks.toNat + k + 1 + 500 < 2 ^ 32) :
    d.count.deadline ≤ d.count.ticks ↔ c.Due (k + 1) := by
  have hTicks : d.count.ticks.toNat = c.ticks.toNat + (k + 1) := by
    have hCount := count_ticks (c := d)
      (by rw [hWaited.ticks]; omega)
    rw [hCount, hWaited.ticks]
    omega
  have hSame : d.count.attempts = c.attempts := hWaited.attempts
  unfold deadline Due
  rw [hSame, UInt32.le_iff_toNat_le]
  by_cases hFirst : c.attempts = 0
  · -- The deadline is set again, 500 ticks away.
    rw [if_pos hFirst, UInt32.toNat_add, hTicks]
    have hTicksAhead : reconnectTicks.toNat = 500 := rfl
    constructor
    · intro hReached
      rw [hTicksAhead, Nat.mod_eq_of_lt (by omega)] at hReached
      omega
    · exact fun hDue => absurd hFirst hDue.1
  · rw [if_neg hFirst, hTicks]
    change d.next.toNat ≤ _ ↔ _
    rw [hWaited.next hFirst]
    exact ⟨fun hReached => ⟨hFirst, hReached⟩, fun hDue => hDue.2⟩

/- A further tick reconnects or waits on. -/
theorem WaitedFor.tick
    (hWaited : WaitedFor c d k)
    (hFew : c.attempts < maxReconnectAttempts)
    (hFar : c.ticks.toNat + k + 1 + 500 < 2 ^ 32) :
    c.Due (k + 1) ∧ d.tick.connected = true ∨
      ¬ c.Due (k + 1) ∧ WaitedFor c d.tick (k + 1) := by
  have hReached := deadline_reached_iff hWaited hFar
  have hLeft : d.count.attempts < maxReconnectAttempts := by
    change d.attempts < _
    rw [hWaited.attempts]
    exact hFew
  rw [tick_of_down hWaited.initialized hWaited.connected]
  unfold retry
  by_cases hDue : c.Due (k + 1)
  · left
    rw [if_pos ⟨hReached.mpr hDue, hLeft⟩]
    exact ⟨hDue, rfl⟩
  · right
    rw [if_neg fun hBoth => hDue (hReached.mp hBoth.1)]
    refine ⟨hDue, hWaited.initialized, hWaited.connected,
      hWaited.attempts, fun hArmed => ?_, ?_⟩
    · have hOld : d.count.deadline = d.next :=
        if_neg (by rw [← hWaited.attempts] at hArmed; exact hArmed)
      exact hOld.trans (hWaited.next hArmed)
    · have hCount := count_ticks (c := d)
        (by rw [hWaited.ticks]; omega)
      change d.count.ticks.toNat = _
      rw [hCount, hWaited.ticks]
      omega

theorem Due.mono
    {j : Nat}
    (hDue : c.Due j)
    (hLe : j ≤ k) :
    c.Due k :=
  ⟨hDue.1, hDue.2.trans (Nat.add_le_add_left hLe _)⟩

/- Without a reconnection the session waits for `n` ticks. -/
theorem waitedFor_iterate
    (hInit : c.initialized = true)
    (hDown : c.connected = false)
    (hFew : c.attempts < maxReconnectAttempts)
    {n : Nat}
    (hFar : c.ticks.toNat + n + 500 < 2 ^ 32)
    (hNever :
      ∀ k < n, ¬ (c.Due (k + 1) ∧
        (Clock.tick^[k + 1] c).connected = true)) :
    WaitedFor c (Clock.tick^[n] c) n := by
  induction n with
  | zero => exact ⟨hInit, hDown, rfl, fun _ => rfl, rfl⟩
  | succ n ih =>
      have hWaited :=
        ih (by omega) fun k hk => hNever k (by omega)
      have hNow := hNever n (Nat.lt_succ_self n)
      rw [Function.iterate_succ_apply'] at hNow ⊢
      rcases hWaited.tick hFew (by omega) with
        hConnects | hWaits
      · exact absurd hConnects hNow
      · exact hWaits.2

/- Some tick of the next `n` reconnects if one is due. -/
theorem reconnects_iff_due
    (hInit : c.initialized = true)
    (hDown : c.connected = false)
    (hFew : c.attempts < maxReconnectAttempts)
    {n : Nat}
    (hFar : c.ticks.toNat + (n + 1) + 500 < 2 ^ 32) :
    (∃ k ≤ n + 1, (Clock.tick^[k] c).connected = true) ↔
      c.Due (n + 1) := by
  constructor
  · rintro ⟨k, hk, hUp⟩
    by_contra hNot
    have hWaited : WaitedFor c (Clock.tick^[k] c) k :=
      waitedFor_iterate hInit hDown hFew (by omega)
        fun j hj hNow => hNot (hNow.1.mono (by omega))
    rw [hWaited.connected] at hUp
    exact absurd hUp Bool.false_ne_true
  · intro hDue
    by_contra hNever
    push Not at hNever
    have hWaited : WaitedFor c (Clock.tick^[n] c) n :=
      waitedFor_iterate hInit hDown hFew (by omega)
        fun j hj hNow => hNever (j + 1) (by omega) hNow.2
    have hLast := hNever (n + 1) le_rfl
    rw [Function.iterate_succ_apply'] at hLast
    rcases hWaited.tick hFew (by omega) with hNow | hWaits
    · exact hLast hNow.2
    · exact hWaits.1 hDue

end Clock

------------------------------------------------------------
-- Reconnecting
------------------------------------------------------------

section Reconnecting

/- A session after `k` ticks with nothing received. -/
def ticked
    (driver : List UInt8 → Int)
    (k : Nat)
    (s : State) : State :=
  (fun s => (transportTick driver s).state)^[k] s

theorem ticked_clock
    (driver : List UInt8 → Int)
    (k : Nat)
    (s : State) :
    (ticked driver k s).clock = Clock.tick^[k] s.clock := by
  have hCommutes :
      Function.Semiconj State.clock
        (fun s => (transportTick driver s).state) Clock.tick :=
    transportTick_clock driver
  exact hCommutes.iterate_right k s

/- One of the next `2 * TRANSPORT_RECONNECT_TICKS` ticks connects. -/
def Reconnects
    (driver : List UInt8 → Int)
    (s : State) : Prop :=
  ∃ k ≤ 2 * reconnectTicks.toNat,
    (ticked driver k s).session.connected = true

/-
  A session that is not connected reconnects exactly if an
  attempt was made before and its deadline is near.
-/
theorem reconnects_iff_clock
    (driver : List UInt8 → Int)
    {s : State}
    (hDown : s.session.connected = false)
    (hFew : s.reconnectAttempts < maxReconnectAttempts)
    (hFar :
      s.ticks.toNat + 3 * reconnectTicks.toNat < 2 ^ 32) :
    Reconnects driver s ↔
      s.initialized = true ∧ 0 < s.reconnectAttempts ∧
        s.nextReconnectTick.toNat ≤
          s.ticks.toNat + 2 * reconnectTicks.toNat := by
  have hTicks : reconnectTicks.toNat = 500 := rfl
  have hConnected :
      ∀ k, (ticked driver k s).session.connected =
        (Clock.tick^[k] s.clock).connected := by
    intro k
    rw [← ticked_clock]
    rfl
  unfold Reconnects
  simp only [hConnected]
  by_cases hInit : s.initialized = true
  · have hDue :=
      Clock.reconnects_iff_due (c := s.clock) hInit hDown hFew
        (n := 999) (by change s.ticks.toNat + _ + _ < _; omega)
    rw [hTicks, hDue, and_iff_right hInit, Nat.pos_iff_ne_zero]
    rfl
  · -- Before `transport_init` a tick does nothing.
    have hIdle : s.clock.tick = s.clock := if_pos hInit
    refine iff_of_false ?_ fun hBoth => hInit hBoth.1
    rintro ⟨k, _, hUp⟩
    rw [Function.iterate_fixed hIdle] at hUp
    rw [show s.clock.connected = false from hDown] at hUp
    exact absurd hUp Bool.false_ne_true

/- How many ticks a call is. -/
def SessionCall.ticks : SessionCall → Nat
| .tick _ => 1
| _ => 0

/- How often a run ticks. -/
def tickCount
    (calls : List SessionCall) : Nat :=
  (calls.map SessionCall.ticks).sum

/- No attempt was made, and the count has not wrapped. -/
structure Untried
    (c : Clock)
    (n : Nat) : Prop where
  attempts : c.attempts = 0
  ticks : c.ticks.toNat ≤ n

/-
  Before the first attempt every tick sets the deadline 500
  ticks ahead, so only a wrap of the sum makes it due.
-/
theorem Untried.tick
    {c : Clock}
    {n : Nat}
    (hUntried : Untried c n)
    (hFar : n + 1 + reconnectTicks.toNat < 2 ^ 32) :
    Untried c.tick (n + 1) := by
  have hTicksAhead : reconnectTicks.toNat = 500 := rfl
  have hTicks := hUntried.ticks
  have hCount := Clock.count_ticks (c := c) (by omega)
  have hCounted : Untried c.count (n + 1) :=
    ⟨hUntried.attempts, by omega⟩
  unfold Clock.tick
  split
  · exact ⟨hUntried.attempts, by omega⟩
  · split
    · unfold Clock.listen
      dsimp only
      split
      · exact hCounted
      · split
        · exact ⟨hCounted.attempts, hCounted.ticks⟩
        · exact ⟨hCounted.attempts, hCounted.ticks⟩
    · have hNotDue :
          ¬ c.count.deadline ≤ c.count.ticks := by
        have hFirst :
            c.count.deadline = c.count.ticks + reconnectTicks :=
          if_pos hUntried.attempts
        rw [hFirst, UInt32.le_iff_toNat_le, UInt32.toNat_add,
          Nat.mod_eq_of_lt (by omega)]
        omega
      unfold Clock.retry
      rw [if_neg fun hBoth => hNotDue hBoth.1]
      exact ⟨hCounted.attempts, hCounted.ticks⟩

theorem Untried.run
    {s : State}
    {n : Nat}
    (hUntried : Untried s.clock n)
    (call : SessionCall)
    (hFar :
      n + call.ticks + reconnectTicks.toNat < 2 ^ 32) :
    Untried (call.run s).clock (n + call.ticks) := by
  rw [run_clock]
  cases call with
  | init =>
      change Untried s.clock.init n
      unfold Clock.init
      split
      · exact hUntried
      · exact ⟨hUntried.attempts, Nat.zero_le n⟩
  | send driver type payload len => exact hUntried
  | receive packet buffer maxLen outType =>
      change Untried (if _ then _ else _) n
      split
      · exact ⟨hUntried.attempts, hUntried.ticks⟩
      · exact hUntried
  | tick driver => exact hUntried.tick hFar
  | requestReconnect =>
      exact ⟨hUntried.attempts, hUntried.ticks⟩

/- The first attempt waits for the tick count to wrap. -/
theorem sessionRun_untried
    (calls : List SessionCall)
    (hFar :
      tickCount calls + reconnectTicks.toNat < 2 ^ 32) :
    Untried (sessionRun State.boot calls).clock
      (tickCount calls) := by
  induction calls using List.reverseRecOn with
  | nil => exact ⟨rfl, le_rfl⟩
  | append_singleton calls call ih =>
      have hCount :
          tickCount (calls ++ [call]) =
            tickCount calls + call.ticks := by
        simp [tickCount]
      rw [hCount] at hFar ⊢
      rw [sessionRun, List.foldl_append]
      exact (ih (by omega)).run call hFar

/-
  Over every run: a lost session is connected again within
  1000 ticks exactly if an attempt was made before whose
  deadline is that near.  No run short of the wrap makes one.
-/
theorem reconnects_iff
    (driver : List UInt8 → Int)
    (calls : List SessionCall)
    (hDown :
      (sessionRun State.boot calls).session.connected = false)
    (hFew :
      (sessionRun State.boot calls).reconnectAttempts <
        maxReconnectAttempts)
    (hFar :
      (sessionRun State.boot calls).ticks.toNat +
        3 * reconnectTicks.toNat < 2 ^ 32) :
    (Reconnects driver (sessionRun State.boot calls) ↔
      (sessionRun State.boot calls).initialized = true ∧
        0 < (sessionRun State.boot calls).reconnectAttempts ∧
        (sessionRun State.boot calls).nextReconnectTick.toNat ≤
          (sessionRun State.boot calls).ticks.toNat +
            2 * reconnectTicks.toNat) ∧
      (tickCount calls + reconnectTicks.toNat < 2 ^ 32 →
        ¬ Reconnects driver (sessionRun State.boot calls)) := by
  have hExact := reconnects_iff_clock driver hDown hFew hFar
  refine ⟨hExact, fun hShort hReconnects => ?_⟩
  have hUntried := (sessionRun_untried calls hShort).attempts
  have hTried := (hExact.mp hReconnects).2.1
  rw [show (sessionRun State.boot calls).reconnectAttempts = 0
    from hUntried] at hTried
  exact absurd hTried (Nat.lt_irrefl 0)

/- A session that is given up right after it was opened. -/
def givenUp : List SessionCall := [.init, .requestReconnect]

theorem reconnects_iff_givenUp :
    ¬ Reconnects (fun _ => 0) (sessionRun State.boot givenUp) :=
  (reconnects_iff (fun _ => 0) givenUp rfl (by decide)
    (by decide)).2 (by decide)

/- Not every lost session is connected again. -/
theorem not_reconnects_givenUp :
    ¬ ∀ calls : List SessionCall,
      (sessionRun State.boot calls).session.connected = false →
      (sessionRun State.boot calls).reconnectAttempts <
        maxReconnectAttempts →
      (sessionRun State.boot calls).ticks.toNat +
        3 * reconnectTicks.toNat < 2 ^ 32 →
      Reconnects (fun _ => 0) (sessionRun State.boot calls) := by
  intro hAlways
  have hNever :=
    (reconnects_iff_clock (fun _ => 0)
      (s := sessionRun State.boot givenUp) rfl (by decide)
      (by decide)).mp
      (hAlways givenUp rfl (by decide) (by decide))
  exact absurd hNever.2.1 (by decide)

end Reconnecting

end Net

end AsmOS
