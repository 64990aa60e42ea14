import AsmOS.Base.StepRuns
import AsmOS.Net.SessionClock

/-
  When a tick declares a link dead.

  From the 200th silent tick on, every tick counts a missed
  heartbeat, so the third is counted with tick 202.

  Main declarations:
    * `Watch`, `Watch.step`
    * `Watch.Counted`
    * `dropsLate_iff`
-/

------------------------------------------------------------
-- Watched Runs
------------------------------------------------------------

namespace AsmOS

namespace Net

open StepRuns

/-
  A session with the history of its link: the ticks since the
  last packet that was passed on, or since the start, and how
  many of them came before the last reconnection.
-/
structure Watch where
  state : State
  silence : Nat
  reset : Nat

def Watch.start : Watch :=
  ⟨transportInit State.boot, 0, 0⟩

/- The call is a tick that connects. -/
def SessionCall.Connects
    (s : State)
    (call : SessionCall) : Prop :=
  s.session.connected = false ∧ 0 < call.ticks ∧
    (call.run s).session.connected = true

/- The call is a tick that ends the connection. -/
def SessionCall.Drops
    (s : State)
    (call : SessionCall) : Prop :=
  s.session.connected = true ∧ 0 < call.ticks ∧
    (call.run s).session.connected = false

instance
    (s : State)
    (call : SessionCall) :
    Decidable (call.Connects s) :=
  inferInstanceAs (Decidable (_ ∧ _ ∧ _))

def Watch.step
    (w : Watch)
    (call : SessionCall) : Watch :=
  let silence := w.silence + call.ticks
  if call.Hears w.state then ⟨call.run w.state, 0, 0⟩
  else if call.Connects w.state then
    ⟨call.run w.state, silence, silence⟩
  else ⟨call.run w.state, silence, w.reset⟩

/- Three heartbeat intervals. -/
def advertisedSilence : Nat :=
  maxMissedHeartbeat.toNat * heartbeatTicks.toNat

/- If the call drops the link, it was silent long enough. -/
def Watch.DropsLate
    (w : Watch)
    (call : SessionCall) : Prop :=
  call.Drops w.state →
    advertisedSilence ≤ (w.step call).silence

/-
  A tick of a connected link, 202 ticks after the last packet
  or reconnection, finds that a reconnection came last, and
  at most 202 ticks before the advertised silence was over.
-/
def Watch.ReconnectedLate
    (w : Watch)
    (call : SessionCall) : Prop :=
  w.state.session.connected = true → 0 < call.ticks →
    w.silence = w.reset + 201 →
      advertisedSilence ≤ w.reset + 202

------------------------------------------------------------
-- Counting Heartbeats
------------------------------------------------------------

/- A connected link counts every tick from the 200th on. -/
structure Watch.Counted
    (w : Watch) : Prop where
  initialized : w.state.initialized = true
  reset : w.reset ≤ w.silence
  connected :
    w.state.clock.connected = true →
      w.silence - w.reset < 202 ∧
        w.state.clock.idle.toNat = w.silence - w.reset ∧
        w.state.clock.missed.toNat =
          w.silence - w.reset - 199

namespace Clock

variable {c : Clock}

theorem count_idle
    (c : Clock) :
    c.count.idle = c.idle + 1 := by
  change c.ticks + 1 - c.last = c.ticks - c.last + 1
  grind

/- What the tick of a connected session counts. -/
theorem tick_counts
    (hInit : c.initialized = true)
    (hUp : c.connected = true)
    {n : Nat}
    (hShort : n < 202)
    (hIdle : c.idle.toNat = n)
    (hMissed : c.missed.toNat = n - 199) :
    c.tick.initialized = true ∧
      (n = 201 ∧ c.tick.connected = false ∨
        n < 201 ∧ c.tick.connected = true ∧
          c.tick.idle.toNat = n + 1 ∧
          c.tick.missed.toNat = n + 1 - 199) := by
  have hCount : c.count.idle.toNat = n + 1 := by
    rw [count_idle, UInt32.toNat_add, hIdle]
    exact Nat.mod_eq_of_lt (by change n + 1 < _; omega)
  have hNext : (c.missed + 1).toNat = n - 199 + 1 := by
    rw [UInt8.toNat_add, hMissed]
    exact Nat.mod_eq_of_lt (by change n - 199 + 1 < _; omega)
  have hBeat : heartbeatTicks.toNat = 200 := rfl
  have hMax : maxMissedHeartbeat.toNat = 3 := rfl
  rw [tick_of_up hInit hUp]
  unfold listen
  dsimp only
  by_cases hFresh : c.count.idle < heartbeatTicks
  · rw [if_pos hFresh]
    rw [UInt32.lt_iff_toNat_lt] at hFresh
    refine ⟨hInit, Or.inr ⟨by omega, hUp, hCount, ?_⟩⟩
    change c.missed.toNat = _
    omega
  · rw [if_neg hFresh]
    rw [UInt32.lt_iff_toNat_lt] at hFresh
    by_cases hDead : maxMissedHeartbeat ≤ c.count.missed + 1
    · rw [if_pos hDead]
      rw [UInt8.le_iff_toNat_le] at hDead
      change _ ≤ (c.missed + 1).toNat at hDead
      exact ⟨hInit, Or.inl ⟨by omega, rfl⟩⟩
    · rw [if_neg hDead]
      rw [UInt8.le_iff_toNat_le] at hDead
      change ¬ _ ≤ (c.missed + 1).toNat at hDead
      refine ⟨hInit, Or.inr ⟨by omega, hUp, hCount, ?_⟩⟩
      change (c.missed + 1).toNat = _
      omega

/- A tick that reconnects starts the silence again. -/
theorem tick_connects
    (hInit : c.initialized = true)
    (hDown : c.connected = false)
    (hUp : c.tick.connected = true) :
    c.tick.idle = 0 ∧ c.tick.missed = 0 := by
  rw [tick_of_down hInit hDown] at hUp ⊢
  unfold retry at hUp ⊢
  split at hUp
  · next hDue =>
      rw [if_pos hDue]
      exact ⟨UInt32.sub_self _, rfl⟩
  · rw [show c.count.connected = false from hDown] at hUp
    exact absurd hUp Bool.false_ne_true

theorem tick_initialized
    (c : Clock) :
    c.tick.initialized = c.initialized := by
  unfold tick listen retry
  dsimp only
  repeat' split
  all_goals rfl

end Clock

section Runs

variable {w : Watch} {call : SessionCall}

theorem Watch.start_counted :
    Watch.start.Counted :=
  ⟨rfl, le_rfl, fun _ => ⟨by decide, rfl, rfl⟩⟩

/- A call leaves the session open. -/
theorem run_initialized
    {s : State}
    (hInit : s.initialized = true)
    (call : SessionCall) :
    (call.run s).initialized = true := by
  change (call.run s).clock.initialized = true
  rw [run_clock]
  cases call with
  | init =>
      exact
        (congrArg Clock.initialized (if_pos hInit)).trans hInit
  | send driver type payload len => exact hInit
  | receive packet buffer maxLen outType =>
      change (if _ then _ else _ : Clock).initialized = true
      split
      · exact hInit
      · exact hInit
  | tick driver =>
      exact (Clock.tick_initialized s.clock).trans hInit
  | requestReconnect => exact hInit

/- What a call that is no packet does to the history. -/
theorem Watch.step_of_connects
    (hDeaf : ¬ call.Hears w.state)
    (hConnects : call.Connects w.state) :
    w.step call =
      ⟨call.run w.state, w.silence + call.ticks,
        w.silence + call.ticks⟩ := by
  unfold Watch.step
  rw [if_neg hDeaf, if_pos hConnects]

theorem Watch.step_of_not_connects
    (hDeaf : ¬ call.Hears w.state)
    (hNot : ¬ call.Connects w.state) :
    w.step call =
      ⟨call.run w.state, w.silence + call.ticks, w.reset⟩ := by
  unfold Watch.step
  rw [if_neg hDeaf, if_neg hNot]

theorem Watch.step_tick_silence
    (w : Watch)
    (driver : List UInt8 → Int) :
    (w.step (.tick driver)).silence = w.silence + 1 := by
  by_cases hConnects :
      (SessionCall.tick driver).Connects w.state
  · rw [Watch.step_of_connects id hConnects]
    rfl
  · rw [Watch.step_of_not_connects id hConnects]
    rfl

/- A connected link is dropped by its 202nd silent tick. -/
theorem Watch.Counted.tick_up
    (hCounted : w.Counted)
    (hUp : w.state.clock.connected = true)
    (driver : List UInt8 → Int) :
    (w.step (.tick driver)).Counted ∧
      ((SessionCall.tick driver).Drops w.state ↔
        w.silence = w.reset + 201) := by
  have hRun := run_clock w.state (.tick driver)
  change _ = w.state.clock.tick at hRun
  have hReset := hCounted.reset
  rcases hCounted.connected hUp with ⟨hShort, hIdle, hMissed⟩
  have hNot : ¬ (SessionCall.tick driver).Connects w.state :=
    fun hConnects =>
      absurd (hUp.symm.trans hConnects.1) (by decide)
  rw [Watch.step_of_not_connects id hNot]
  rcases Clock.tick_counts hCounted.initialized hUp hShort hIdle
      hMissed with
    ⟨hInit, hLast | ⟨hMore, hStill, hIdle, hMissed⟩⟩
  · refine ⟨⟨?_, ?_, ?_⟩, iff_of_true ?_ (by omega)⟩
    · exact (congrArg Clock.initialized hRun).trans hInit
    · exact hReset.trans (Nat.le_add_right _ _)
    · intro hAgain
      rw [hRun, hLast.2] at hAgain
      exact absurd hAgain Bool.false_ne_true
    · exact ⟨hUp, Nat.one_pos,
        (congrArg Clock.connected hRun).trans hLast.2⟩
  · refine ⟨⟨?_, ?_, fun _ => ?_⟩,
      iff_of_false (fun hDrops => ?_) (by omega)⟩
    · exact (congrArg Clock.initialized hRun).trans hInit
    · exact hReset.trans (Nat.le_add_right _ _)
    · change w.silence + 1 - w.reset < 202 ∧
        (SessionCall.run w.state (.tick driver)).clock.idle.toNat =
          w.silence + 1 - w.reset ∧
        (SessionCall.run w.state (.tick driver)).clock.missed.toNat =
          w.silence + 1 - w.reset - 199
      rw [hRun, hIdle, hMissed]
      omega
    · have hGone : w.state.clock.tick.connected = false :=
        (congrArg Clock.connected hRun).symm.trans hDrops.2.2
      exact absurd (hStill.symm.trans hGone) (by decide)

/- A link that is not connected may be reconnected. -/
theorem Watch.Counted.tick_down
    (hCounted : w.Counted)
    (hDown : w.state.clock.connected = false)
    (driver : List UInt8 → Int) :
    (w.step (.tick driver)).Counted := by
  have hRun := run_clock w.state (.tick driver)
  change _ = w.state.clock.tick at hRun
  have hInit := run_initialized hCounted.initialized
    (.tick driver)
  by_cases hUp : w.state.clock.tick.connected = true
  · have hConnects :
        (SessionCall.tick driver).Connects w.state :=
      ⟨hDown, Nat.one_pos,
        (congrArg Clock.connected hRun).trans hUp⟩
    rw [Watch.step_of_connects id hConnects]
    refine ⟨hInit, le_rfl, fun _ => ?_⟩
    rcases Clock.tick_connects hCounted.initialized hDown hUp
      with ⟨hIdle, hMissed⟩
    dsimp only
    rw [hRun, hIdle, hMissed, Nat.sub_self]
    exact ⟨by decide, rfl, rfl⟩
  · have hNot :
        ¬ (SessionCall.tick driver).Connects w.state :=
      fun hConnects => hUp
        ((congrArg Clock.connected hRun).symm.trans
          hConnects.2.2)
    rw [Watch.step_of_not_connects id hNot]
    refine ⟨hInit,
      hCounted.reset.trans (Nat.le_add_right _ _), ?_⟩
    intro hAgain
    rw [hRun] at hAgain
    exact absurd hAgain hUp

/- A packet that is passed on starts the history again. -/
theorem Watch.Counted.hear
    (hCounted : w.Counted)
    (hHears : call.Hears w.state) :
    (w.step call).Counted := by
  have hInit := run_initialized hCounted.initialized call
  have hStep : w.step call = ⟨call.run w.state, 0, 0⟩ :=
    if_pos hHears
  rw [hStep]
  refine ⟨hInit, le_rfl, fun _ => ?_⟩
  cases call with
  | receive packet buffer maxLen outType =>
      have hRun := run_clock w.state
        (.receive packet buffer maxLen outType)
      have hHeard := hRun.trans (if_pos hHears)
      dsimp only
      rw [hHeard]
      refine ⟨by decide, ?_, rfl⟩
      exact congrArg UInt32.toNat (UInt32.sub_self _)
  | init => exact hHears.elim
  | send driver type payload len => exact hHears.elim
  | tick driver => exact hHears.elim
  | requestReconnect => exact hHears.elim

/- A call without a tick or a packet leaves the silence. -/
theorem Watch.Counted.quiet
    (hCounted : w.Counted)
    (hDeaf : ¬ call.Hears w.state)
    (hTicks : call.ticks = 0) :
    (w.step call).Counted := by
  have hInit := run_initialized hCounted.initialized call
  have hNot : ¬ call.Connects w.state := by
    intro hConnects
    have hSome := hConnects.2.1
    omega
  rw [Watch.step_of_not_connects hDeaf hNot, hTicks]
  refine ⟨hInit, hCounted.reset, ?_⟩
  have hRun := run_clock w.state call
  dsimp only
  rw [hRun]
  cases call with
  | init =>
      have hSame : w.state.clock.init = w.state.clock :=
        if_pos hCounted.initialized
      change w.state.clock.init.connected = true → _
      rw [show SessionCall.onClock w.state .init = _ from hSame,
        hSame]
      exact hCounted.connected
  | send driver type payload len => exact hCounted.connected
  | receive packet buffer maxLen outType =>
      have hSame :
          SessionCall.onClock w.state
            (.receive packet buffer maxLen outType) =
              w.state.clock :=
        if_neg hDeaf
      rw [hSame]
      exact hCounted.connected
  | tick driver => exact absurd hTicks Nat.one_ne_zero
  | requestReconnect =>
      exact fun hUp => absurd hUp Bool.false_ne_true

/- One call of a watched run. -/
theorem Watch.Counted.step
    (hCounted : w.Counted)
    (call : SessionCall) :
    (w.step call).Counted ∧
      (w.DropsLate call ↔ w.ReconnectedLate call) := by
  by_cases hTicks : call.ticks = 0
  · have hLate : w.DropsLate call := fun hDrops =>
      absurd hTicks (Nat.pos_iff_ne_zero.mp hDrops.2.1)
    have hReconnected : w.ReconnectedLate call :=
      fun _ hSome =>
        absurd hTicks (Nat.pos_iff_ne_zero.mp hSome)
    refine ⟨?_, iff_of_true hLate hReconnected⟩
    by_cases hHears : call.Hears w.state
    · exact hCounted.hear hHears
    · exact hCounted.quiet hHears hTicks
  cases call with
  | tick driver =>
      cases hUp : w.state.clock.connected with
      | true =>
          rcases hCounted.tick_up hUp driver with
            ⟨hNext, hDrops⟩
          refine ⟨hNext, ?_⟩
          unfold Watch.DropsLate Watch.ReconnectedLate
          rw [hDrops, Watch.step_tick_silence]
          constructor
          · intro hLate _ _ hSilence
            have hEnough := hLate hSilence
            omega
          · intro hLate hSilence
            have hEnough := hLate hUp Nat.one_pos hSilence
            omega
      | false =>
          have hLate : w.DropsLate (.tick driver) :=
            fun hDrops =>
              absurd (hUp.symm.trans hDrops.1) (by decide)
          have hReconnected : w.ReconnectedLate (.tick driver) :=
            fun hConnected =>
              absurd (hUp.symm.trans hConnected) (by decide)
          exact ⟨hCounted.tick_down hUp driver,
            iff_of_true hLate hReconnected⟩
  | init => exact absurd rfl hTicks
  | send driver type payload len => exact absurd rfl hTicks
  | receive packet buffer maxLen outType =>
      exact absurd rfl hTicks
  | requestReconnect => exact absurd rfl hTicks

/-
  In every run every drop is late enough exactly if each link
  that stays silent for 202 ticks was reconnected late.
-/
theorem dropsLate_iff
    (calls : List SessionCall) :
    EveryStep (fun w call => some (Watch.step w call))
        Watch.DropsLate Watch.start calls ↔
      EveryStep (fun w call => some (Watch.step w call))
        Watch.ReconnectedLate Watch.start calls := by
  have hStep :
      ∀ w call t, Watch.Counted w →
        some (Watch.step w call) = some t →
          t.Counted ∧
            (w.DropsLate call ↔ w.ReconnectedLate call) := by
    intro w call t hCounted hNext
    cases hNext
    exact hCounted.step call
  exact everyStep_congr hStep Watch.start_counted calls

/- Ticks with nothing received between them. -/
def silentTicks
    (n : Nat) : List SessionCall :=
  List.replicate n (.tick fun _ => 0)

/- A run of silent ticks without an early drop is short. -/
theorem silentTicks_short
    (n : Nat)
    (hCounted : w.Counted)
    (hUp : w.state.session.connected = true)
    (hReset : w.reset = 0)
    (hLate :
      EveryStep (fun w call => some (Watch.step w call))
        Watch.DropsLate w (silentTicks n)) :
    w.silence + n < 202 := by
  induction n generalizing w with
  | zero =>
      have hShort := (hCounted.connected hUp).1
      omega
  | succ n ih =>
      rcases hLate _ rfl with ⟨hFirst, hRest⟩
      rcases hCounted.tick_up hUp fun _ => 0 with
        ⟨hNext, hDrop⟩
      have hNot :
          ¬ (SessionCall.tick fun _ => 0).Connects w.state :=
        fun hConnects =>
          absurd (hUp.symm.trans hConnects.1) (by decide)
      have hStep := Watch.step_of_not_connects id hNot
      cases hStill :
          (w.step (.tick fun _ => 0)).state.session.connected with
      | true =>
          have hShort := ih hNext hStill
            ((congrArg Watch.reset hStep).trans hReset) hRest
          rw [hStep] at hShort
          change w.silence + 1 + n < 202 at hShort
          omega
      | false =>
          have hDrops :
              (SessionCall.tick fun _ => 0).Drops w.state :=
            ⟨hUp, Nat.one_pos, by rw [hStep] at hStill; exact hStill⟩
          have hEarly := hFirst hDrops
          rw [Watch.step_tick_silence, hDrop.mp hDrops,
            hReset] at hEarly
          exact absurd hEarly (by decide)

/- 202 silent ticks end a new session. -/
theorem not_dropsLate_silentTicks :
    ¬ EveryStep (fun w call => some (Watch.step w call))
      Watch.DropsLate Watch.start (silentTicks 202) := by
  intro hLate
  exact absurd
    (silentTicks_short 202 Watch.start_counted rfl rfl hLate)
    (by decide)

end Runs

end Net

end AsmOS
