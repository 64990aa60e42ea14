import AsmOS.Net.Addresses
import AsmOS.Net.DatagramFifo
import AsmOS.Net.Icmp

/-
  The datagram ping of `src/net/udp.c`, and the ping of the
  PC platform, which tries both.

  Main declarations:
    * `netPing`, `platNetPing`
    * `UdpAnswered`, `HostAnswers`
    * `netPing_answer_iff`, `platNetPing_zero`
    * `pings_answered_iff`
-/

------------------------------------------------------------
-- Waiting For A Datagram
------------------------------------------------------------

namespace AsmOS

namespace Net

open ByteMem Loops

abbrev netPortPing : UInt16 := 0

abbrev pingTries : Nat := 1000

/- The characters `PING`. -/
def pingText : List UInt8 := [0x50, 0x49, 0x4E, 0x47]

/- A receive of at most 16 bytes, as poll `k`. -/
def pingReceive
    (arrivals : Nat → List UInt8)
    (k : Nat)
    (s : Udp × ByteMem) : UdpReceived :=
  netUdpRecv (arrivals k) s.1 s.2 16

/- One turn of the waiting loop, on the ring and `buf`. -/
def pingPoll
    (arrivals : Nat → List UInt8)
    (k : Nat)
    (s : Udp × ByteMem) : Bool × (Udp × ByteMem) :=
  let got := pingReceive arrivals k s
  (decide (4 ≤ got.rc ∧ got.buf 0 = 0x50), (got.udp, got.buf))

/- The request; the result of the send is not looked at. -/
def pingSend
    (ownIp : UInt32)
    (u : Udp)
    (ip : UInt32) : UdpSent :=
  netUdpSend ownIp u ip netPortPing (ofList pingText) 4

structure UdpPinged extends Pinged where
  udp : Udp

/- `buf` is what the buffer of the loop held before. -/
def netPing
    (ownIp : UInt32)
    (u : Udp)
    (buf : ByteMem)
    (clock : Nat → UInt32)
    (arrivals : Nat → List UInt8)
    (host : Option (List UInt8)) : UdpPinged :=
  match netParseIp host (some 0) with
  | (rc, ip) =>
      if rc ≠ 0 then ⟨⟨-1, none, none, 0⟩, u⟩
      else
        let sent := pingSend ownIp u (ip.getD 0)
        let out :=
          pollLoop (pingPoll arrivals) pingTries 0
            (sent.udp, buf)
        if out.1 then
          ⟨⟨0, some (clock out.2.1 - clock 0), sent.frame,
            out.2.1⟩, out.2.2.1⟩
        else ⟨⟨-1, none, sent.frame, out.2.1⟩, out.2.2.1⟩

/- `plat_net_ping` of the PC: an echo request goes first. -/
def platNetPing
    (ownIp : UInt32)
    (u : Udp)
    (stack rx buf : ByteMem)
    (clock : Nat → UInt32)
    (arrivals : Nat → List UInt8)
    (host : Option (List UInt8)) : Int :=
  match netParseIp host (some 0) with
  | (rc, ip) =>
      if rc ≠ 0 then (netPing ownIp u buf clock arrivals host).rc
      else
        let echo :=
          netIcmpPing ownIp stack rx clock arrivals (ip.getD 0)
        if echo.rc = 0 then 0
        else
          (netPing ownIp u buf (fun n => clock (echo.polls + n))
            (fun n => arrivals (echo.polls + n)) host).rc

------------------------------------------------------------
-- Answers
------------------------------------------------------------

/- The datagrams in the ring before poll `k`. -/
def queueAt
    (q : List Datagram)
    (arrivals : Nat → List UInt8) : Nat → List Datagram
| 0 => q
| k + 1 => (fillQueue (queueAt q arrivals k) (arrivals k)).tail

/- The one that poll `k` takes. -/
def takenAt
    (q : List Datagram)
    (arrivals : Nat → List UInt8)
    (k : Nat) : Option Datagram :=
  (fillQueue (queueAt q arrivals k) (arrivals k)).head?

/-
  The queue behind the request, which is in it when it went
  to the own address or to 127.0.0.1.
-/
def requestQueue
    (ownIp : UInt32)
    (q : List Datagram)
    (ip : UInt32) : List Datagram :=
  if (ip = ownIp ∨ ip = 0x7F000001) ∧ q.length ≠ 7 then
    q ++ [pushedDatagram ownIp netPortPing (ofList pingText) 4]
  else q

/- All that the loop looks at: four bytes, the first a `P`. -/
def IsPong
    (d : Datagram) : Prop :=
  4 ≤ d.len.toNat ∧ d.data.head? = some 0x50

/- The ring when the polls begin, and their buffer. -/
def pingStart
    (ownIp : UInt32)
    (u : Udp)
    (buf : ByteMem)
    (ip : UInt32) : Udp × ByteMem :=
  ((pingSend ownIp u ip).udp, buf)

/-
  When a ping succeeds, one of its polls has received a
  datagram from the host.  The polls before that are as many
  as datagrams waited in the ring before the request.
-/
def UdpAnswered
    (ownIp : UInt32)
    (u : Udp)
    (buf : ByteMem)
    (arrivals : Nat → List UInt8)
    (host : Option (List UInt8))
    (p : UdpPinged) : Prop :=
  p.rc = 0 →
    ∃ ip, netParseIp host (some 0) = (0, some ip) ∧
      ∃ j < p.polls, u.pending.length ≤ j ∧
        ∃ port,
          (pingReceive arrivals j
            (stateAt (pingPoll arrivals)
              (pingStart ownIp u buf ip) j)).source =
            some (ip, port)

/-
  The first datagram that is taken for an answer is from the
  host, or comes behind one from it, and is not among those
  that waited before the request.
-/
def HostFirst
    (q : List Datagram)
    (waiting : Nat)
    (ip : UInt32)
    (arrivals : Nat → List UInt8) : Prop :=
  ∀ k < pingTries,
    (∃ d, takenAt q arrivals k = some d ∧ IsPong d) →
    (∀ j < k,
      ¬ ∃ d, takenAt q arrivals j = some d ∧ IsPong d) →
      ∃ j < k + 1, waiting ≤ j ∧
        ∃ d, takenAt q arrivals j = some d ∧ d.ip = ip

/- It is so when the network is up and the host is one. -/
def HostAnswers
    (ownIp : UInt32)
    (u : Udp)
    (arrivals : Nat → List UInt8)
    (host : Option (List UInt8)) : Prop :=
  u.up = true →
    ∀ ip, netParseIp host (some 0) = (0, some ip) →
      HostFirst (requestQueue ownIp u.pending ip)
        u.pending.length ip arrivals

section Answers

variable {u : Udp} {arrivals : Nat → List UInt8}

theorem pending_pingSend
    (ownIp : UInt32)
    (hUp : u.up = true)
    (ip : UInt32) :
    (pingSend ownIp u ip).udp.up = true ∧
      (pingSend ownIp u ip).udp.pending =
        requestQueue ownIp u.pending ip := by
  unfold pingSend netUdpSend requestQueue
  rw [if_neg (not_not.mpr hUp)]
  dsimp only
  by_cases hOwn : ip = ownIp ∨ ip = 0x7F000001
  · rw [if_pos hOwn]
    by_cases hFull : u.pending.length = 7
    · have hNext := (full_iff_pending u).mpr hFull
      rw [if_neg fun hBoth => hBoth.2 hFull]
      unfold ringPush
      rw [if_pos hNext]
      exact ⟨hUp, rfl⟩
    · have hNext : RingBuffer.next rxSlots u.tail ≠ u.head :=
        fun hSame => hFull ((full_iff_pending u).mp hSame)
      rw [if_pos ⟨hOwn, hFull⟩, pending_ringPush hFull]
      unfold ringPush
      rw [if_neg hNext]
      exact ⟨hUp, rfl⟩
  · rw [if_neg hOwn, if_neg fun hBoth => hOwn hBoth.1]
    exact ⟨hUp, rfl⟩

/- What a poll receives, from the queue it finds. -/
theorem pingReceive_eq
    (arrivals : Nat → List UInt8)
    (k : Nat)
    {s : Udp × ByteMem}
    (hUp : s.1.up = true) :
    pingReceive arrivals k s =
      popSlot (takeFrame (arrivals k) s.1) s.2 16 := by
  unfold pingReceive netUdpRecv
  rw [if_neg (not_not.mpr hUp)]

/- One poll takes the head of the queue, once it is filled. -/
theorem pingPoll_pending
    (arrivals : Nat → List UInt8)
    (k : Nat)
    {s : Udp × ByteMem}
    (hUp : s.1.up = true) :
    (pingPoll arrivals k s).2.1.up = true ∧
      (pingPoll arrivals k s).2.1.pending =
        (fillQueue s.1.pending (arrivals k)).tail := by
  have hReceive := pingReceive_eq arrivals k hUp
  unfold pingPoll
  dsimp only
  rw [hReceive, popSlot_up, takeFrame_up,
    (popSlot_source _ _ _).2, takeFrame_pending_eq]
  exact ⟨hUp, rfl⟩

theorem stateAt_pending
    (arrivals : Nat → List UInt8)
    {start : Udp × ByteMem}
    (hUp : start.1.up = true)
    (k : Nat) :
    (stateAt (pingPoll arrivals) start k).1.up = true ∧
      (stateAt (pingPoll arrivals) start k).1.pending =
        queueAt start.1.pending arrivals k := by
  induction k with
  | zero => exact ⟨hUp, rfl⟩
  | succ k ih =>
      rcases ih with ⟨hNow, hPending⟩
      have hPoll := pingPoll_pending arrivals k hNow
      rw [hPending] at hPoll
      exact hPoll

theorem source_at
    (arrivals : Nat → List UInt8)
    {start : Udp × ByteMem}
    (hUp : start.1.up = true)
    (k : Nat) :
    (pingReceive arrivals k
        (stateAt (pingPoll arrivals) start k)).source =
      (takenAt start.1.pending arrivals k).map
        Datagram.source := by
  rcases stateAt_pending arrivals hUp k with ⟨hNow, hPending⟩
  rw [pingReceive_eq arrivals k hNow,
    (popSlot_source _ _ _).1, takeFrame_pending_eq, hPending]
  rfl

/- The test of a poll is made on the datagram it takes. -/
theorem popSlot_reads_iff
    (v : Udp)
    (buf : ByteMem) :
    (4 ≤ (popSlot v buf 16).rc ∧
        (popSlot v buf 16).buf 0 = 0x50) ↔
      ∃ d, v.pending.head? = some d ∧ IsPong d := by
  cases hQueue : v.pending with
  | nil =>
      rw [popSlot_empty hQueue]
      refine iff_of_false (fun hBoth => ?_) ?_
      · exact absurd hBoth.1 (show ¬ (4 : Int) ≤ 0 by decide)
      · rintro ⟨d, hHead, _⟩
        cases hHead
  | cons d rest =>
      have hSixteen : (16 : UInt16).toNat = 16 := rfl
      have hFits :
          d.len.toNat ≤ netMaxPayload ∨
            (16 : UInt16).toNat ≤ netMaxPayload :=
        .inr (by decide)
      have hDelivers := popSlot_delivers hQueue buf hFits
      have hRc := hDelivers.rc_eq
      have hBytes := hDelivers.bytes_eq
      generalize popSlot v buf 16 = got at hRc hBytes ⊢
      rw [hRc, Int.toNat_natCast, hSixteen] at hBytes
      rw [hSixteen] at hRc
      have hOnly :
          (∃ e, (d :: rest).head? = some e ∧ IsPong e) ↔
            IsPong d := by
        simp
      rw [hOnly, IsPong, hRc]
      by_cases hLong : 4 ≤ d.len.toNat
      · have hCount :
            min d.len.toNat 16 = min d.len.toNat 16 - 1 + 1 := by
          omega
        have hHead : d.data.head? = some (got.buf 0) := by
          have hFirst := congrArg List.head? hBytes
          rw [hCount, slice_succ, List.head?_cons,
            List.head?_take] at hFirst
          exact hFirst.symm
        rw [hHead, Option.some.injEq]
        exact and_congr_left fun _ => by omega
      · exact iff_of_false (fun hBoth => by omega)
          fun hBoth => hLong hBoth.1

/- A poll succeeds when the datagram it takes is a pong. -/
theorem pingPoll_iff
    (arrivals : Nat → List UInt8)
    {start : Udp × ByteMem}
    (hUp : start.1.up = true)
    (k : Nat) :
    Succeeds (pingPoll arrivals) start k ↔
      ∃ d, takenAt start.1.pending arrivals k = some d ∧
        IsPong d := by
  rcases stateAt_pending arrivals hUp k with ⟨hNow, hPending⟩
  unfold Succeeds takenAt
  rw [← hPending, ← takeFrame_pending_eq]
  generalize stateAt (pingPoll arrivals) start k = s at *
  rw [← popSlot_reads_iff _ s.2, ← pingReceive_eq arrivals k hNow]
  exact decide_eq_true_iff

/- No poll succeeds while the network is down. -/
theorem pingPoll_down
    (arrivals : Nat → List UInt8)
    {start : Udp × ByteMem}
    (hDown : start.1.up = false)
    (k : Nat) :
    ¬ Succeeds (pingPoll arrivals) start k ∧
      (stateAt (pingPoll arrivals) start k).1.up = false := by
  have hPoll :
      ∀ (k : Nat) (s : Udp × ByteMem), s.1.up = false →
        (pingPoll arrivals k s).1 = false ∧
          (pingPoll arrivals k s).2.1.up = false := by
    intro k s hDown
    have hReceive :
        pingReceive arrivals k s = ⟨-1, none, s.2, s.1⟩ := by
      unfold pingReceive netUdpRecv
      rw [if_pos (by rw [hDown]; exact Bool.false_ne_true)]
    unfold pingPoll
    dsimp only
    rw [hReceive]
    refine ⟨decide_eq_false fun hBoth => ?_, hDown⟩
    exact absurd hBoth.1 (show ¬ (4 : Int) ≤ -1 by decide)
  have hState :
      (stateAt (pingPoll arrivals) start k).1.up = false := by
    induction k with
    | zero => exact hDown
    | succ k ih => exact (hPoll k _ ih).2
  refine ⟨?_, hState⟩
  unfold Succeeds
  rw [(hPoll k _ hState).1]
  exact Bool.false_ne_true

/- The source of a taken datagram, as the receive gives it. -/
theorem host_source_iff
    (q : List Datagram)
    (arrivals : Nat → List UInt8)
    (ip : UInt32)
    (j : Nat) :
    (∃ port,
        (takenAt q arrivals j).map Datagram.source =
          some (ip, port)) ↔
      ∃ d, takenAt q arrivals j = some d ∧ d.ip = ip := by
  cases takenAt q arrivals j with
  | none =>
      refine iff_of_false ?_ ?_
      · rintro ⟨port, hSource⟩
        cases hSource
      · rintro ⟨d, hTaken, _⟩
        cases hTaken
  | some d =>
      constructor
      · rintro ⟨port, hSource⟩
        exact ⟨d, rfl,
          congrArg Prod.fst (Option.some.inj hSource)⟩
      · rintro ⟨e, hSame, hIp⟩
        cases hSame
        exact ⟨d.port, by rw [← hIp]; rfl⟩

/-
  When the polls of a host succeed, one of them has received
  a datagram from it, if and only if it answers first.
-/
theorem pollLoop_host_iff
    (ownIp : UInt32)
    (buf : ByteMem)
    (arrivals : Nat → List UInt8)
    (ip : UInt32) :
    ((pollLoop (pingPoll arrivals) pingTries 0
          (pingStart ownIp u buf ip)).1 = true →
        ∃ j < (pollLoop (pingPoll arrivals) pingTries 0
            (pingStart ownIp u buf ip)).2.1,
          u.pending.length ≤ j ∧
            ∃ port,
              (pingReceive arrivals j
                (stateAt (pingPoll arrivals)
                  (pingStart ownIp u buf ip) j)).source =
                some (ip, port)) ↔
      (u.up = true →
        HostFirst (requestQueue ownIp u.pending ip)
          u.pending.length ip arrivals) := by
  rw [pollLoop_success_iff (pingPoll arrivals)
    (pingStart ownIp u buf ip) pingTries fun polls =>
      ∃ j < polls, u.pending.length ≤ j ∧
        ∃ port,
          (pingReceive arrivals j
            (stateAt (pingPoll arrivals)
              (pingStart ownIp u buf ip) j)).source =
            some (ip, port)]
  cases hUp : u.up with
  | false =>
      have hDown : (pingStart ownIp u buf ip).1.up = false := by
        unfold pingStart pingSend netUdpSend
        rw [if_pos (by rw [hUp]; exact Bool.false_ne_true)]
        exact hUp
      exact iff_of_true
        (fun k _ hFirst =>
          absurd hFirst.succeeds
            (pingPoll_down arrivals hDown k).1)
        fun hTrue => absurd hTrue Bool.false_ne_true
  | true =>
      rcases pending_pingSend ownIp hUp ip with ⟨hNow, hQueue⟩
      have hStartUp : (pingStart ownIp u buf ip).1.up = true :=
        hNow
      have hStart :
          (pingStart ownIp u buf ip).1.pending =
            requestQueue ownIp u.pending ip :=
        hQueue
      have hFirst :=
        firstSuccess_iff (pingPoll_iff arrivals hStartUp)
      have hSource := source_at arrivals hStartUp
      rw [hStart] at hFirst hSource
      simp only [hFirst, hSource, host_source_iff, and_imp,
        forall_const, HostFirst]

/- A host is an address, or the parse fails. -/
theorem netParseIp_cases
    (host : Option (List UInt8)) :
    (∃ ip, netParseIp host (some 0) = (0, some ip)) ∨
      netParseIp host (some 0) = (-1, some 0) := by
  cases host with
  | none => exact .inr rfl
  | some str =>
      rw [netParseIp_eq]
      cases parseQuad str with
      | none => exact .inr rfl
      | some ip => exact .inl ⟨ip, rfl⟩

/- The result for a host is that of the polls. -/
theorem netPing_run
    (ownIp : UInt32)
    (u : Udp)
    (buf : ByteMem)
    (clock : Nat → UInt32)
    (arrivals : Nat → List UInt8)
    {host : Option (List UInt8)}
    {ip : UInt32}
    (hHost : netParseIp host (some 0) = (0, some ip)) :
    let out :=
      pollLoop (pingPoll arrivals) pingTries 0
        (pingStart ownIp u buf ip)
    ((netPing ownIp u buf clock arrivals host).rc = 0 ↔
        out.1 = true) ∧
      (netPing ownIp u buf clock arrivals host).polls =
        out.2.1 := by
  unfold netPing pingStart
  rw [hHost]
  dsimp only [Option.getD_some]
  rw [if_neg (not_not.mpr rfl)]
  split
  · next hOut => exact ⟨iff_of_true rfl hOut, rfl⟩
  · next hOut =>
      exact ⟨iff_of_false (show (-1 : Int) ≠ 0 by decide) hOut,
        rfl⟩

theorem netPing_answer_iff
    (ownIp : UInt32)
    (u : Udp)
    (buf : ByteMem)
    (clock : Nat → UInt32)
    (arrivals : Nat → List UInt8)
    (host : Option (List UInt8)) :
    UdpAnswered ownIp u buf arrivals host
        (netPing ownIp u buf clock arrivals host) ↔
      HostAnswers ownIp u arrivals host := by
  unfold UdpAnswered HostAnswers
  rcases netParseIp_cases host with ⟨ip, hHost⟩ | hHost
  · rcases netPing_run ownIp u buf clock arrivals hHost with
      ⟨hRc, hPolls⟩
    have hPollLaw := pollLoop_host_iff (u := u) ownIp buf arrivals ip
    rw [← hRc, ← hPolls] at hPollLaw
    constructor
    · intro hAnswered hUp ip' hSame
      rw [hHost] at hSame
      cases hSame
      refine hPollLaw.mp (fun hZero => ?_) hUp
      rcases hAnswered hZero with ⟨ip', hSame, hReceived⟩
      rw [hHost] at hSame
      cases hSame
      exact hReceived
    · intro hAnswers hZero
      exact ⟨ip, hHost,
        hPollLaw.mpr (fun hUp => hAnswers hUp ip hHost) hZero⟩
  · have hRc :
        (netPing ownIp u buf clock arrivals host).rc = -1 := by
      unfold netPing
      rw [hHost]
      rfl
    rw [hRc, hHost]
    refine iff_of_true
      (fun hZero => absurd hZero (show (-1 : Int) ≠ 0 by decide))
      ?_
    intro _ ip hSame
    cases hSame

end Answers

------------------------------------------------------------
-- Successful Pings
------------------------------------------------------------

section Pings

variable
  (ownIp : UInt32)
  (u : Udp)
  (stack rx buf : ByteMem)
  (clock : Nat → UInt32)
  (arrivals : Nat → List UInt8)

/-
  The platform's ping succeeds by one of the two pings, with
  what the other one left in the driver.
-/
theorem platNetPing_zero
    (host : Option (List UInt8))
    (hZero :
      platNetPing ownIp u stack rx buf clock arrivals host = 0) :
    (∃ ip, netParseIp host (some 0) = (0, some ip) ∧
      (netIcmpPing ownIp stack rx clock arrivals ip).rc = 0) ∨
    ∃ polls,
      (netPing ownIp u buf (fun n => clock (polls + n))
        (fun n => arrivals (polls + n)) host).rc = 0 := by
  unfold platNetPing at hZero
  rcases netParseIp_cases host with ⟨ip, hHost⟩ | hHost
  · rw [hHost] at hZero
    dsimp only [Option.getD_some] at hZero
    rw [if_neg (not_not.mpr rfl)] at hZero
    split at hZero
    · next hEcho => exact .inl ⟨ip, hHost, hEcho⟩
    · exact .inr ⟨_, hZero⟩
  · rw [hHost] at hZero
    refine .inr ⟨0, ?_⟩
    simp only [Nat.zero_add]
    exact hZero

/-
  A successful ping was answered exactly if nothing else that
  a loop takes for an answer arrives before the answer.
-/
theorem pings_answered_iff
    (dst : UInt32)
    (host : Option (List UInt8)) :
    (IcmpAnswered dst arrivals
        (netIcmpPing ownIp stack rx clock arrivals dst) ↔
      RepliesFirst dst
        ((icmpRequest stack ownIp dst).slice 0 28) arrivals) ∧
    (UdpAnswered ownIp u buf arrivals host
        (netPing ownIp u buf clock arrivals host) ↔
      HostAnswers ownIp u arrivals host) :=
  ⟨icmpPing_answer_iff ownIp stack rx clock arrivals dst,
    netPing_answer_iff ownIp u buf clock arrivals host⟩

end Pings

/-
  Zeros from anywhere are an answer to an echo request, and
  10.0.0.9 answers for 1.1.1.1.
-/
theorem not_pings_answered :
    (¬ ∀ (ownIp : UInt32) (stack rx : ByteMem)
        (clock : Nat → UInt32) (arrivals : Nat → List UInt8)
        (dst : UInt32),
      IcmpAnswered dst arrivals
        (netIcmpPing ownIp stack rx clock arrivals dst)) ∧
    ¬ ∀ (ownIp : UInt32) (u : Udp) (buf : ByteMem)
        (clock : Nat → UInt32) (arrivals : Nat → List UInt8)
        (host : Option (List UInt8)),
      UdpAnswered ownIp u buf arrivals host
        (netPing ownIp u buf clock arrivals host) := by
  constructor
  · intro hAll
    have hFirst :=
      (icmpPing_answer_iff 0x0A000002 zeros zeros (fun _ => 0)
        (fun _ => List.replicate 28 0) 0x01010101).mp
        (hAll _ _ _ _ _ _)
    have hReads : ReadsAsReply (List.replicate 28 0) :=
      ⟨by decide, by decide⟩
    rcases hFirst 0 (by decide) hReads
        (fun j hj => absurd hj (Nat.not_lt_zero j)) with
      ⟨j, _, hReply⟩
    have hVersion :
        (ofList (List.replicate 28 0) 0).toNat / 16 ≠ 4 := by
      decide
    exact hVersion hReply.version
  · intro hAll
    have hFirst :=
      (netPing_answer_iff 0x0A000002 (netInit Udp.boot) zeros
        (fun _ => 0)
        (fun _ =>
          udpFrame 0x0A000009 netPortPing (ofList pingText) 4)
        (some [0x31, 0x2E, 0x31, 0x2E, 0x31, 0x2E, 0x31])).mp
        (hAll _ _ _ _ _ _) rfl 0x01010101 (by decide)
    have hTaken :
        takenAt (requestQueue 0x0A000002
            (netInit Udp.boot).pending 0x01010101)
          (fun _ =>
            udpFrame 0x0A000009 netPortPing (ofList pingText) 4)
          0 =
        some (pushedDatagram 0x0A000009 netPortPing
          (ofList pingText) 4) := by
      have hFits : (4 : UInt16).toNat ≤ netMaxPayload := by
        decide
      have hFrame :=
        frameDatagram_udpFrame 0x0A000009 netPortPing
          (ofList pingText) hFits
      unfold takenAt fillQueue
      rw [hFrame]
      rfl
    have hPong :
        IsPong (pushedDatagram 0x0A000009 netPortPing
          (ofList pingText) 4) :=
      ⟨by decide, by decide⟩
    rcases hFirst 0 (by decide) ⟨_, hTaken, hPong⟩
        (fun j hj => absurd hj (Nat.not_lt_zero j)) with
      ⟨j, hj, _, d, hSame, hIp⟩
    have hZero : j = 0 := by omega
    rw [hZero, hTaken] at hSame
    cases hSame
    exact absurd hIp (by decide)

end Net

end AsmOS
