import AsmOS.Net.DatagramFifo
import AsmOS.Net.FrameHistory
import AsmOS.Net.PartyMessages

/-
  Two consumers of one driver: `party_poll`, through
  `transport_receive`, and `net_udp_recv` both take the frame
  that waits there.

  Main declarations:
    * `Stack`, `driverStep`
    * `KeepsFrame`, `MeetsOwn`, `keepsFrame_iff`
    * `everyStep_keepsFrame_iff`
-/

------------------------------------------------------------
-- One Driver
------------------------------------------------------------

namespace AsmOS

namespace Net

open ByteMem

/- The frames in the driver and the state of both consumers. -/
structure Stack where
  nic : List (List UInt8)
  node : Node
  udp : Udp

inductive DriverOp where
| arrive
    (frame : List UInt8)
| poll
| recv
    (buf : ByteMem)
    (maxLen : UInt16)

/- The frame that a call takes from the driver. -/
def Stack.taken
    (s : Stack) : DriverOp → Option (List UInt8)
| .arrive _ => none
| .poll =>
    if s.node.partyInitialized ∧
        s.node.transport.initialized then s.nic.head?
    else none
| .recv _ _ => if s.udp.up then s.nic.head? else none

/- The frames that the call leaves in the driver. -/
def Stack.rest
    (s : Stack)
    (op : DriverOp) : List (List UInt8) :=
  if (s.taken op).isSome then s.nic.tail else s.nic

def driverStep
    (s : Stack) : DriverOp → Stack
| .arrive frame => { s with nic := s.nic ++ [frame] }
| .poll =>
    { s with
      nic := s.rest .poll
      node := (partyPoll (s.nic.headD []) s.node).node }
| .recv buf maxLen =>
    { s with
      nic := s.rest (.recv buf maxLen)
      udp :=
        (netUdpRecv (s.nic.headD []) s.udp buf maxLen).udp }

------------------------------------------------------------
-- Frames That Are Kept
------------------------------------------------------------

/- A frame with a whole payload and its right checksum. -/
def ValidPacket
    (frame : List UInt8) : Prop :=
  let got := platNetRecv frame packetMax
  HoldsWhole frame maxPayload ∧
    (crc16Simple
      ((ofList got).slice headerSize
        (load32 (ofList got) 4))).toNat = frameCrc got

/-
  The ring when a call has dealt with its frame and not yet
  handed out a datagram.
-/
def Stack.filledRing
    (s : Stack) : DriverOp → Udp
| .arrive _ => s.udp
| .poll => s.udp
| .recv _ _ => takeFrame (s.nic.headD []) s.udp

/- `transport_receive` takes a frame and accepts it. -/
def Stack.Processes
    (s : Stack)
    (frame : List UInt8) : DriverOp → Prop
| .arrive _ => False
| .poll =>
    (transportReceive frame s.node.transport
      (some s.node.partyRxBuf) maxPayload (some 0)).rc ≠ -1
| .recv _ _ => False

/-
  A datagram that a call takes is appended to the ring, if
  there is room, and a packet that it takes is processed.
-/
def KeepsFrame
    (s : Stack)
    (op : DriverOp) : Prop :=
  ∀ frame, s.taken op = some frame →
    (∀ d, frameDatagram frame = some d →
      s.udp.pending.length ≠ 7 →
        (s.filledRing op).pending = s.udp.pending ++ [d]) ∧
    (ValidPacket frame → s.Processes frame op)

/- No call meets a frame for the other consumer. -/
def MeetsOwn
    (s : Stack)
    (op : DriverOp) : Prop :=
  match op with
  | .arrive _ => True
  | .poll =>
      ∀ frame, s.taken .poll = some frame →
        frameDatagram frame = none ∨ s.udp.pending.length = 7
  | .recv buf maxLen =>
      ∀ frame, s.taken (.recv buf maxLen) = some frame →
        ¬ ValidPacket frame

/- Every session accepts a valid packet. -/
theorem ValidPacket.accepted
    {frame : List UInt8}
    (hValid : ValidPacket frame)
    {s : State}
    (hInit : s.initialized = true)
    (out : ByteMem)
    (outType : UInt8) :
    (transportReceive frame s (some out) maxPayload
      (some outType)).rc ≠ -1 := by
  rcases hValid with ⟨hWhole, hCrc⟩
  dsimp only [HoldsWhole] at hWhole
  rw [transportReceive_eq frame hInit]
  dsimp only
  generalize platNetRecv frame packetMax = got at *
  rcases hWhole with ⟨hEnd, hMax, _⟩
  have hLimit : maxPayload = 1400 := rfl
  have hLen :
      packetLen (ofList got) = load32 (ofList got) 4 :=
    Nat.mod_eq_of_lt (by omega)
  have hAccepts :
      Accepts (s.deliver got).rxBuf got.length maxPayload := by
    rw [accepts_deliver_iff s (by omega), hLen,
      deliver_slice s hEnd]
    exact ⟨hMax, hMax, hCrc⟩
  rw [if_pos hAccepts, acceptPacket_rc]
  omega

theorem taken_poll
    {s : Stack}
    {frame : List UInt8}
    (hTaken : s.taken .poll = some frame) :
    s.node.partyInitialized = true ∧
      s.node.transport.initialized = true ∧
      s.nic.headD [] = frame := by
  unfold Stack.taken at hTaken
  dsimp only at hTaken
  split at hTaken
  next hPolls =>
    refine ⟨hPolls.1, hPolls.2, ?_⟩
    rw [List.headD_eq_head?_getD, hTaken, Option.getD_some]
  · cases hTaken

theorem taken_recv
    {s : Stack}
    {buf : ByteMem}
    {maxLen : UInt16}
    {frame : List UInt8}
    (hTaken : s.taken (.recv buf maxLen) = some frame) :
    s.nic.headD [] = frame := by
  unfold Stack.taken at hTaken
  dsimp only at hTaken
  split at hTaken
  · rw [List.headD_eq_head?_getD, hTaken, Option.getD_some]
  · cases hTaken

/- One call keeps its frame when the frame was meant for it. -/
theorem keepsFrame_iff
    (s : Stack)
    (op : DriverOp) :
    KeepsFrame s op ↔ MeetsOwn s op := by
  cases op with
  | arrive frame =>
      constructor
      · exact fun _ => trivial
      · intro _ _ hTaken
        cases hTaken
  | poll =>
      constructor
      · intro hKeeps frame hTaken
        by_cases hFull : s.udp.pending.length = 7
        · exact Or.inr hFull
        · left
          rw [Option.eq_none_iff_forall_ne_some]
          intro d hData
          have hRing := (hKeeps frame hTaken).1 d hData hFull
          have hLength := congrArg List.length hRing
          rw [List.length_append] at hLength
          simp [Stack.filledRing] at hLength
      · intro hOwn frame hTaken
        refine ⟨fun d hData hFree => ?_, fun hValid => ?_⟩
        · rcases hOwn frame hTaken with hNone | hFull
          · rw [hNone] at hData
            cases hData
          · exact absurd hFull hFree
        · exact hValid.accepted (taken_poll hTaken).2.1 _ _
  | recv buf maxLen =>
      constructor
      · intro hKeeps frame hTaken hValid
        exact (hKeeps frame hTaken).2 hValid
      · intro hOwn frame hTaken
        refine ⟨fun d hData hFree => ?_, fun hValid => ?_⟩
        · unfold Stack.filledRing
          dsimp only
          rw [taken_recv hTaken, takeFrame_pending frame hFree,
            hData, Option.toList_some]
        · exact hOwn frame hTaken hValid

------------------------------------------------------------
-- Whole Runs
------------------------------------------------------------

/- A property of all the calls of a run, in their states. -/
def EveryStep
    (property : Stack → DriverOp → Prop) :
    Stack → List DriverOp → Prop
| _, [] => True
| s, op :: ops =>
    property s op ∧ EveryStep property (driverStep s op) ops

/-
  Over any interleaving of arrivals and calls, no frame is
  lost exactly when no call meets a frame for the other
  consumer.
-/
theorem everyStep_keepsFrame_iff
    (s : Stack)
    (ops : List DriverOp) :
    EveryStep KeepsFrame s ops ↔ EveryStep MeetsOwn s ops := by
  induction ops generalizing s with
  | nil => exact Iff.rfl
  | cons op ops ih =>
      exact and_congr (keepsFrame_iff s op)
        (ih (driverStep s op))

/- A new stack, with all parts initialised. -/
def newStack : Stack where
  nic := []
  node := partyInit Node.boot
  udp := netInit Udp.boot

/- A poll that comes first drops the datagram that arrived. -/
theorem not_everyStep_keepsFrame_poll :
    ¬ EveryStep KeepsFrame newStack
      [.arrive (udpFrame 0x0A000002 9000 (ofList [0x41]) 1),
        .poll] := by
  rintro ⟨_, hKeeps, _⟩
  have hLen : (1 : UInt16).toNat ≤ netMaxPayload := by
    decide
  have hData :=
    frameDatagram_udpFrame 0x0A000002 9000 (ofList [0x41])
      hLen
  have hTaken :
      (driverStep newStack
        (.arrive
          (udpFrame 0x0A000002 9000 (ofList [0x41]) 1))).taken
          .poll =
        some (udpFrame 0x0A000002 9000 (ofList [0x41]) 1) :=
    rfl
  have hRing :=
    (hKeeps _ hTaken).1 _ hData (by decide +kernel)
  have hLength := congrArg List.length hRing
  revert hLength
  decide +kernel

end Net

end AsmOS
