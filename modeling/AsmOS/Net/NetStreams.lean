import AsmOS.Base.StepRuns
import AsmOS.Net.Addresses
import AsmOS.Net.DatagramFifo

/-
  The streams of `src/net/udp.c`, over one ring of datagrams.

  A stream keeps the host and the port it was opened for, and
  sends to them.  A receive on it takes the oldest datagram,
  whoever sent it.

  Main declarations:
    * `NetStream`, `netConnect`
    * `netStreamSend`, `netStreamRecv`, `netStreamClose`
    * `Isolates`, `MeetsPeer`
    * `isolates_iff`
-/

------------------------------------------------------------
-- Streams
------------------------------------------------------------

namespace AsmOS

namespace Net

open ByteMem StepRuns

/- `struct net_stream`. -/
structure NetStream where
  host : UInt32
  port : UInt16
  isOpen : Bool
deriving DecidableEq

/- The static pool of `net_connect`. -/
abbrev StreamPool : Type := Fin 2 → NetStream

def StreamPool.boot : StreamPool := fun _ => ⟨0, 0, false⟩

/-
  The first stream that is not open.  It keeps its host when
  the string is not an address.
-/
def netConnect
    (host : Option (List UInt8))
    (port : UInt16)
    (pool : StreamPool) : Option (Fin 2) × StreamPool :=
  match (List.finRange 2).find? fun i => !(pool i).isOpen with
  | none => (none, pool)
  | some i =>
      match netParseIp host (some (pool i).host) with
      | (rc, out) =>
          if rc ≠ 0 then (none, pool)
          else
            (some i,
              Function.update pool i
                ⟨out.getD (pool i).host, port, true⟩)

/- A stream is a place in the pool, or null. -/
def netStreamSend
    (ownIp : UInt32)
    (u : Udp)
    (pool : StreamPool)
    (s : Option (Fin 2))
    (data : ByteMem)
    (len : Nat) : UdpSent :=
  match s with
  | none => ⟨-1, none, u⟩
  | some i =>
      if ¬ (pool i).isOpen then ⟨-1, none, u⟩
      else
        netUdpSend ownIp u (pool i).host (pool i).port data
          (UInt16.ofNat len)

/- The address and the port that come back are dropped. -/
def netStreamRecv
    (packet : List UInt8)
    (u : Udp)
    (pool : StreamPool)
    (s : Option (Fin 2))
    (buf : ByteMem)
    (maxLen : Nat) : UdpReceived :=
  match s with
  | none => ⟨-1, none, buf, u⟩
  | some i =>
      if ¬ (pool i).isOpen then ⟨-1, none, buf, u⟩
      else netUdpRecv packet u buf (UInt16.ofNat maxLen)

def netStreamClose
    (pool : StreamPool)
    (s : Option (Fin 2)) : StreamPool :=
  match s with
  | none => pool
  | some i =>
      Function.update pool i { pool i with isOpen := false }

------------------------------------------------------------
-- Runs
------------------------------------------------------------

/- The ring, the pool and the frames in the driver. -/
structure Streams where
  udp : Udp
  pool : StreamPool
  nic : List (List UInt8)

inductive StreamCall where
| init
| arrive
    (frame : List UInt8)
| connect
    (host : Option (List UInt8))
    (port : UInt16)
| send
    (s : Option (Fin 2))
    (data : ByteMem)
    (len : Nat)
| recv
    (s : Option (Fin 2))
    (buf : ByteMem)
    (maxLen : Nat)
| close
    (s : Option (Fin 2))

/- Static storage, and no frame yet. -/
def Streams.boot : Streams := ⟨Udp.boot, StreamPool.boot, []⟩

/- A receive on an open stream asks the driver for a frame. -/
def Streams.Polls
    (w : Streams) : Option (Fin 2) → Prop
| none => False
| some i => (w.pool i).isOpen = true ∧ w.udp.up = true

instance
    (w : Streams)
    (s : Option (Fin 2)) :
    Decidable (w.Polls s) := by
  cases s with
  | none => exact inferInstanceAs (Decidable False)
  | some i => exact inferInstanceAs (Decidable (_ ∧ _))

/- The frame that the driver has for the next receive. -/
def Streams.frame
    (w : Streams) : List UInt8 :=
  w.nic.headD []

def streamCall
    (ownIp : UInt32)
    (w : Streams) : StreamCall → Streams
| .init => { w with udp := netInit w.udp }
| .arrive frame => { w with nic := w.nic ++ [frame] }
| .connect host port =>
    { w with pool := (netConnect host port w.pool).2 }
| .send s data len =>
    { w with
      udp := (netStreamSend ownIp w.udp w.pool s data len).udp }
| .recv s buf maxLen =>
    { w with
      udp :=
        (netStreamRecv w.frame w.udp w.pool s buf maxLen).udp
      nic := if w.Polls s then w.nic.tail else w.nic }
| .close s => { w with pool := netStreamClose w.pool s }

def streamStep
    (ownIp : UInt32)
    (w : Streams)
    (call : StreamCall) : Option Streams :=
  some (streamCall ownIp w call)

------------------------------------------------------------
-- Peers
------------------------------------------------------------

def Streams.peer
    (w : Streams)
    (i : Fin 2) : UInt32 × UInt16 :=
  ((w.pool i).host, (w.pool i).port)

/- Two open streams, to different hosts or ports. -/
def Streams.Apart
    (w : Streams)
    (i j : Fin 2) : Prop :=
  (w.pool i).isOpen = true ∧ (w.pool j).isOpen = true ∧
    w.peer i ≠ w.peer j

/- The datagrams in the ring and in the driver. -/
def Streams.available
    (w : Streams) : List Datagram :=
  w.udp.pending ++ w.nic.filterMap frameDatagram

/- Those of them that the peer of stream `j` sent. -/
def Streams.availableTo
    (w : Streams)
    (j : Fin 2) : List Datagram :=
  w.available.filter fun d => d.source = w.peer j

/-
  Of two streams, one receives only from its own peer, and
  leaves the other what that one's peer sent.
-/
def Isolates
    (ownIp : UInt32)
    (w : Streams) : StreamCall → Prop
| .recv (some i) buf maxLen =>
    ∀ j, w.Apart i j →
      (∀ source,
        (netStreamRecv w.frame w.udp w.pool (some i) buf
          maxLen).source = some source →
          source = w.peer i) ∧
      (streamCall ownIp w
        (.recv (some i) buf maxLen)).availableTo j =
          w.availableTo j
| _ => True

/-
  The datagram that is next is from the stream's own peer.
  With a full ring, the frame that is taken and dropped does
  not come from the other one's.
-/
def MeetsPeer
    (w : Streams) : StreamCall → Prop
| .recv (some i) _ _ =>
    w.udp.up = true →
      ∀ j, w.Apart i j →
        (∀ d,
          (w.udp.pending ++
            (frameDatagram w.frame).toList).head? = some d →
            d.source = w.peer i) ∧
        (w.udp.pending.length = 7 →
          ∀ d, frameDatagram w.frame = some d →
            d.source ≠ w.peer j)
| _ => True

section Peers

variable {w : Streams} {i j : Fin 2}

/- Full or not, the oldest datagram is the same. -/
theorem takeFrame_head
    (packet : List UInt8)
    (u : Udp) :
    (takeFrame packet u).pending.head? =
      (u.pending ++ (frameDatagram packet).toList).head? := by
  rw [takeFrame_pending_eq, fillQueue]
  by_cases hFull : u.pending.length = 7
  · rw [if_pos hFull]
    cases hPending : u.pending with
    | nil =>
        rw [hPending] at hFull
        cases hFull
    | cons d rest => rfl
  · rw [if_neg hFull]

/- The datagrams in the driver, the next frame's first. -/
theorem nic_datagrams
    (w : Streams) :
    w.nic.filterMap frameDatagram =
      (frameDatagram w.frame).toList ++
        w.nic.tail.filterMap frameDatagram := by
  unfold Streams.frame
  cases w.nic with
  | nil =>
      have hNone : frameDatagram [] = none := by decide
      rw [List.headD_nil, hNone]
      rfl
  | cons frame nic =>
      rw [List.headD_cons, List.filterMap_cons, List.tail_cons]
      cases frameDatagram frame with
      | none => rfl
      | some d => rfl

/- A receive on an open stream of a network that is up. -/
theorem recv_open
    (ownIp : UInt32)
    (hOpen : (w.pool i).isOpen = true)
    (hUp : w.udp.up = true)
    (buf : ByteMem)
    (maxLen : Nat) :
    (netStreamRecv w.frame w.udp w.pool (some i) buf
          maxLen).source =
        (w.udp.pending ++
          (frameDatagram w.frame).toList).head?.map
            Datagram.source ∧
      (streamCall ownIp w
        (.recv (some i) buf maxLen)).available =
        (takeFrame w.frame w.udp).pending.tail ++
          w.nic.tail.filterMap frameDatagram := by
  have hRecv :
      netStreamRecv w.frame w.udp w.pool (some i) buf maxLen =
        popSlot (takeFrame w.frame w.udp) buf
          (UInt16.ofNat maxLen) := by
    unfold netStreamRecv netUdpRecv
    dsimp only
    rw [if_neg (not_not.mpr hOpen), if_neg (not_not.mpr hUp)]
  have hPop :=
    popSlot_source (takeFrame w.frame w.udp) buf
      (UInt16.ofNat maxLen)
  constructor
  · rw [hRecv, hPop.1, takeFrame_head]
  · have hPolls : w.Polls (some i) := ⟨hOpen, hUp⟩
    unfold streamCall Streams.available
    dsimp only
    rw [hRecv, hPop.2, if_pos hPolls]

/- A receive on a network that is down changes nothing. -/
theorem recv_down
    (ownIp : UInt32)
    (hDown : ¬ w.udp.up = true)
    (buf : ByteMem)
    (maxLen : Nat) :
    (netStreamRecv w.frame w.udp w.pool (some i) buf
          maxLen).source = none ∧
      streamCall ownIp w (.recv (some i) buf maxLen) = w := by
  have hRecv :
      netStreamRecv w.frame w.udp w.pool (some i) buf maxLen =
        ⟨-1, none, buf, w.udp⟩ := by
    unfold netStreamRecv netUdpRecv
    dsimp only
    rw [if_pos hDown, ite_self]
  have hPolls : ¬ w.Polls (some i) := fun hBoth =>
    hDown hBoth.2
  constructor
  · rw [hRecv]
  · unfold streamCall
    dsimp only
    rw [hRecv, if_neg hPolls]

/- Taking a datagram of another peer leaves a peer's own. -/
theorem filter_tail
    {a b : UInt32 × UInt16}
    (hOther : a ≠ b)
    {l : List Datagram}
    (hHead : ∀ d, l.head? = some d → d.source = a) :
    (l.tail.filter fun d => d.source = b) =
      l.filter fun d => d.source = b := by
  cases l with
  | nil => rfl
  | cons d rest =>
      have hSource := hHead d rfl
      rw [List.tail_cons, List.filter_cons_of_neg]
      simpa [hSource] using hOther

/- What the receive leaves to the other stream. -/
theorem availableTo_recv_iff
    (ownIp : UInt32)
    (hApart : w.Apart i j)
    (hUp : w.udp.up = true)
    (buf : ByteMem)
    (maxLen : Nat)
    (hHead :
      ∀ d,
        (w.udp.pending ++
          (frameDatagram w.frame).toList).head? = some d →
          d.source = w.peer i) :
    (streamCall ownIp w
        (.recv (some i) buf maxLen)).availableTo j =
        w.availableTo j ↔
      (w.udp.pending.length = 7 →
        ∀ d, frameDatagram w.frame = some d →
          d.source ≠ w.peer j) := by
  rcases hApart with ⟨hOpen, _, hOther⟩
  have hLeft := (recv_open ownIp hOpen hUp buf maxLen).2
  have hPeer :
      (streamCall ownIp w
        (.recv (some i) buf maxLen)).peer j = w.peer j :=
    rfl
  have hTaken :
      ((takeFrame w.frame w.udp).pending.tail.filter fun d =>
          d.source = w.peer j) =
        (takeFrame w.frame w.udp).pending.filter fun d =>
          d.source = w.peer j := by
    apply filter_tail hOther
    intro d hFirst
    rw [takeFrame_head] at hFirst
    exact hHead d hFirst
  have hBefore :
      w.available =
        w.udp.pending ++ ((frameDatagram w.frame).toList ++
          w.nic.tail.filterMap frameDatagram) := by
    unfold Streams.available
    rw [nic_datagrams]
  unfold Streams.availableTo
  rw [hPeer, hLeft, List.filter_append, hTaken, hBefore,
    takeFrame_pending_eq, fillQueue]
  by_cases hFull : w.udp.pending.length = 7
  · rw [if_pos hFull, List.filter_append, List.filter_append,
      List.append_cancel_left_eq, List.self_eq_append_left,
      forall_prop_of_true hFull]
    cases frameDatagram w.frame with
    | none => simp
    | some d => simp
  · rw [if_neg hFull, ← List.filter_append, List.append_assoc]
    exact iff_of_true rfl fun hSeven => absurd hSeven hFull

/- One call isolates the streams under its condition. -/
theorem isolates_call_iff
    (ownIp : UInt32)
    (w : Streams)
    (call : StreamCall) :
    Isolates ownIp w call ↔ MeetsPeer w call := by
  cases call with
  | init => exact Iff.rfl
  | arrive frame => exact Iff.rfl
  | connect host port => exact Iff.rfl
  | send s data len => exact Iff.rfl
  | close s => exact Iff.rfl
  | recv s buf maxLen =>
      cases s with
      | none => exact Iff.rfl
      | some i =>
          unfold Isolates MeetsPeer
          dsimp only
          by_cases hUp : w.udp.up = true
          swap
          · rcases recv_down (i := i) ownIp hUp buf maxLen with
              ⟨hSource, hSame⟩
            refine iff_of_true (fun j _ => ⟨?_, ?_⟩)
              fun hOn => absurd hOn hUp
            · intro source hGot
              rw [hSource] at hGot
              cases hGot
            · rw [hSame]
          rw [forall_prop_of_true hUp]
          refine forall_congr' fun j =>
            forall_congr' fun hApart => ?_
          have hSource :=
            (recv_open ownIp hApart.1 hUp buf maxLen).1
          have hOwn :
              (∀ source,
                (netStreamRecv w.frame w.udp w.pool (some i)
                  buf maxLen).source = some source →
                  source = w.peer i) ↔
                ∀ d,
                  (w.udp.pending ++
                    (frameDatagram w.frame).toList).head? =
                      some d →
                    d.source = w.peer i := by
            rw [hSource]
            constructor
            · intro hAll d hHead
              apply hAll
              rw [hHead, Option.map_some]
            · intro hAll source hGot
              rcases Option.map_eq_some_iff.mp hGot with
                ⟨d, hHead, rfl⟩
              exact hAll d hHead
          rw [hOwn]
          exact and_congr_right fun hHead =>
            availableTo_recv_iff ownIp hApart hUp buf maxLen
              hHead

end Peers

/-
  In a run the streams are isolated exactly if every receive
  on one of two streams finds its own peer's datagram next,
  and no full ring makes it drop the other one's.
-/
theorem isolates_iff
    (ownIp : UInt32)
    (calls : List StreamCall) :
    StepRuns.EveryStep (streamStep ownIp) (Isolates ownIp)
        Streams.boot calls ↔
      StepRuns.EveryStep (streamStep ownIp) MeetsPeer
        Streams.boot calls := by
  have hStep :
      ∀ w call w', True → streamStep ownIp w call = some w' →
        True ∧ (Isolates ownIp w call ↔ MeetsPeer w call) :=
    fun w call _ _ _ => ⟨trivial, isolates_call_iff ownIp w call⟩
  exact everyStep_congr hStep trivial calls

/- The addresses 10.0.0.3 and 10.0.0.4. -/
def hostThree : List UInt8 :=
  [0x31, 0x30, 0x2E, 0x30, 0x2E, 0x30, 0x2E, 0x33]

def hostFour : List UInt8 :=
  [0x31, 0x30, 0x2E, 0x30, 0x2E, 0x30, 0x2E, 0x34]

/- Two streams, and a datagram from the second one's peer. -/
def twoPeers : List StreamCall :=
  [.init, .connect (some hostThree) 21,
    .connect (some hostFour) 21,
    .arrive (udpFrame 0x0A000004 21 zeros 1)]

/- It is received on the first stream. -/
theorem not_isolates :
    ¬ ∀ ownIp calls,
      StepRuns.EveryStep (streamStep ownIp) (Isolates ownIp)
        Streams.boot calls := by
  intro hAlways
  have hRun :=
    hAlways 0x0A000002
      (twoPeers ++ [.recv (some 0) zeros 100])
  let w := twoPeers.foldl (streamCall 0x0A000002) Streams.boot
  have hLast :
      Isolates 0x0A000002 w (.recv (some 0) zeros 100) :=
    (((((hRun _ rfl).2 _ rfl).2 _ rfl).2 _ rfl).2 _ rfl).1
  have hFrame :
      frameDatagram w.frame =
        some (pushedDatagram 0x0A000004 21 zeros 1) :=
    frameDatagram_udpFrame 0x0A000004 21 zeros (by decide)
  have hMeets := (isolates_call_iff 0x0A000002 w _).mp hLast
    rfl 1 ⟨rfl, rfl, by decide⟩
  have hEmpty : w.udp.pending = [] :=
    (RingBuffer.contents_eq_nil_iff (slotDatagram w.udp.ring)
      w.udp.head_lt w.udp.tail_lt).mpr rfl
  have hSource :=
    hMeets.1 (pushedDatagram 0x0A000004 21 zeros 1) (by
      rw [hFrame, hEmpty]
      rfl)
  exact absurd hSource (by decide)

end Net

end AsmOS
