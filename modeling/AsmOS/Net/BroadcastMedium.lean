import AsmOS.Net.DatagramFifo

/-
  Datagrams on a medium that carries every frame to all the
  nodes on it.

  A frame names the address it is sent to.  A receiver takes
  that address for the sender's, and it takes the frames of
  other nodes.

  Main declarations:
    * `NetNode`, `RecvCall`
    * `Udp.returned`
    * `FromSender`, `OnlyDestination`
    * `datagram_misdelivered`
-/

------------------------------------------------------------
-- Receive Calls
------------------------------------------------------------

namespace AsmOS

namespace Net

open ByteMem

/- A node and the address of its driver. -/
structure NetNode where
  ip : UInt32
  udp : Udp

/- The frame that waits in the driver, and the arguments. -/
structure RecvCall where
  packet : List UInt8
  buf : ByteMem
  maxLen : UInt16

def RecvCall.run
    (u : Udp)
    (call : RecvCall) : UdpReceived :=
  netUdpRecv call.packet u call.buf call.maxLen

/- The result of the last of the calls `0`, ..., `k`. -/
def recvAt
    (u : Udp)
    (calls : Nat → RecvCall) : Nat → UdpReceived
| 0 => (calls 0).run u
| k + 1 =>
    recvAt ((calls 0).run u).udp (fun j => calls (j + 1)) k

/-
  What is returned of the datagram in the frame that waits at
  the first call: the result of the call that takes its slot.
  There is none when the frame is given no slot.
-/
def Udp.returned
    (u : Udp)
    (calls : Nat → RecvCall) : Option UdpReceived :=
  if ¬ u.up ∨ (takeFrame (calls 0).packet u).tail = u.tail then
    none
  else some (recvAt u calls u.pending.length)

/- The medium hands the frame to a node before its calls. -/
def hearing
    (frame : List UInt8)
    (calls : Nat → RecvCall) : Nat → RecvCall
| 0 => { calls 0 with packet := frame }
| k + 1 => calls (k + 1)

/- The receiver returns the datagram as the sender's. -/
def FromSender
    (sender receiver : NetNode)
    (frame : List UInt8)
    (calls : Nat → RecvCall) : Prop :=
  ∃ got,
    receiver.udp.returned (hearing frame calls) = some got ∧
      got.source.map Prod.fst = some sender.ip

/- No call of another node returns the datagram. -/
def NeverReturned
    (other : NetNode)
    (frame : List UInt8)
    (calls : Nat → RecvCall) : Prop :=
  other.udp.returned (hearing frame calls) = none

/-
  What a datagram from `a` to `b` does on a medium with a
  third node `c`: `b` gets it from `a`, and `c` does not.
-/
def CarriesDatagram
    (a b c : NetNode)
    (dstPort : UInt16)
    (data : ByteMem)
    (len : UInt16)
    (callsB callsC : Nat → RecvCall) : Prop :=
  ∀ frame,
    (netUdpSend a.ip a.udp b.ip dstPort data len).frame =
        some frame →
      FromSender a b frame callsB ∧
        NeverReturned c frame callsC

section Receiving

variable {u : Udp} {calls : Nat → RecvCall}

theorem recvCall_up
    (hUp : u.up = true)
    (call : RecvCall) :
    (call.run u).udp.up = true := by
  unfold RecvCall.run netUdpRecv
  rw [if_neg (not_not.mpr hUp), popSlot_up, takeFrame_up]
  exact hUp

/- The oldest pending datagram is what a call returns. -/
theorem recvCall_head
    (hUp : u.up = true)
    (call : RecvCall)
    {d : Datagram}
    {rest : List Datagram}
    (hPending : (takeFrame call.packet u).pending = d :: rest) :
    (call.run u).source = some (d.ip, d.port) ∧
      (call.run u).udp.pending = rest := by
  unfold RecvCall.run netUdpRecv
  rw [if_neg (not_not.mpr hUp)]
  rcases popSlot_head hPending call.buf call.maxLen with
    ⟨hSome, hHead, hRest⟩
  refine ⟨?_, hRest⟩
  unfold popSlot
  rw [if_neg hSome, ← hHead]
  rfl

/- The datagram behind `k` others is what call `k` returns. -/
theorem recvAt_source
    (hUp : u.up = true)
    {k : Nat}
    {d : Datagram}
    (hPending :
      (takeFrame (calls 0).packet u).pending[k]? = some d) :
    (recvAt u calls k).source = some (d.ip, d.port) := by
  induction k generalizing u calls with
  | zero =>
      cases hAll : (takeFrame (calls 0).packet u).pending with
      | nil =>
          rw [hAll] at hPending
          cases hPending
      | cons first rest =>
          rw [hAll] at hPending
          cases hPending
          exact (recvCall_head hUp (calls 0) hAll).1
  | succ k ih =>
      cases hAll : (takeFrame (calls 0).packet u).pending with
      | nil =>
          rw [hAll] at hPending
          cases hPending
      | cons first rest =>
          rw [hAll, List.getElem?_cons_succ] at hPending
          have hRest := (recvCall_head hUp (calls 0) hAll).2
          rcases takeFrame_prefix (calls 1).packet
              ((calls 0).run u).udp with ⟨extra, hExtra⟩
          refine ih (recvCall_up hUp (calls 0)) ?_
          change (takeFrame (calls 1).packet
            ((calls 0).run u).udp).pending[k]? = some d
          have hIn := (List.getElem?_eq_some_iff.mp hPending).1
          rw [← hExtra, hRest, List.getElem?_append_left hIn]
          exact hPending

/- A frame with a datagram is given a slot while one is free. -/
theorem takeFrame_tail_ne
    {packet : List UInt8}
    {d : Datagram}
    (hFrame : frameDatagram packet = some d)
    (hFree : u.pending.length ≠ 7) :
    (takeFrame packet u).tail ≠ u.tail := by
  intro hSame
  have hHead : (takeFrame packet u).head = u.head := by
    unfold takeFrame ringPush
    dsimp only
    split
    · split <;> rfl
    · rfl
  have hPending := congrArg List.length
    (takeFrame_pending packet hFree)
  rw [hFrame, List.length_append] at hPending
  unfold Udp.pending at hPending
  rw [RingBuffer.contents_length, RingBuffer.contents_length,
    hSame, hHead] at hPending
  exact absurd hPending (by simp)

/- What becomes of a datagram at a node, in any state of it. -/
theorem returned_cases
    {packet : List UInt8}
    {d : Datagram}
    (hFrame : frameDatagram packet = some d)
    (u : Udp)
    (calls : Nat → RecvCall) :
    (¬ u.up = true ∨ u.pending.length = 7) ∧
        u.returned (hearing packet calls) = none ∨
      (u.up = true ∧ u.pending.length ≠ 7) ∧
        ∃ got,
          u.returned (hearing packet calls) = some got ∧
            got.source = some (d.ip, d.port) := by
  by_cases hUp : u.up = true
  · by_cases hFull : u.pending.length = 7
    · left
      refine ⟨Or.inr hFull, ?_⟩
      exact if_pos (Or.inr
        (congrArg Udp.tail (takeFrame_full packet hFull)))
    · right
      refine ⟨⟨hUp, hFull⟩, _, if_neg ?_, recvAt_source hUp ?_⟩
      · rintro (hDown | hSame)
        · exact hDown hUp
        · exact takeFrame_tail_ne hFrame hFull hSame
      · change (takeFrame packet u).pending[_]? = _
        rw [takeFrame_pending packet hFull, hFrame]
        exact List.getElem?_concat_length
  · left
    exact ⟨Or.inl hUp, if_pos (Or.inl hUp)⟩

end Receiving

------------------------------------------------------------
-- Addresses
------------------------------------------------------------

section Addresses

variable {a b c : NetNode} {dstPort : UInt16}
variable {data : ByteMem} {len : UInt16}
variable {frame : List UInt8}

theorem sent_frameDatagram
    (hLen : len.toNat ≤ netMaxPayload)
    (hFrame :
      (netUdpSend a.ip a.udp b.ip dstPort data len).frame =
        some frame) :
    frameDatagram frame =
      some (pushedDatagram b.ip dstPort data len) := by
  unfold netUdpSend at hFrame
  split at hFrame
  · cases hFrame
  · rw [← Option.some.inj hFrame]
    exact frameDatagram_udpFrame b.ip dstPort data hLen

/- The receiver returns its own address, if it returns any. -/
theorem not_fromSender
    (hApart : a.ip ≠ b.ip)
    (hLen : len.toNat ≤ netMaxPayload)
    (hFrame :
      (netUdpSend a.ip a.udp b.ip dstPort data len).frame =
        some frame)
    (calls : Nat → RecvCall) :
    ¬ FromSender a b frame calls := by
  rintro ⟨got, hGot, hSource⟩
  rcases returned_cases (sent_frameDatagram hLen hFrame) b.udp
      calls with
    ⟨_, hNone⟩ | ⟨_, got', hGot', hSource'⟩
  · rw [hNone] at hGot
    cases hGot
  · rw [hGot'] at hGot
    cases hGot
    rw [hSource'] at hSource
    exact hApart (Option.some.inj hSource).symm

/- A third node misses the datagram only if it is full. -/
theorem neverReturned_iff
    (hLen : len.toNat ≤ netMaxPayload)
    (hFrame :
      (netUdpSend a.ip a.udp b.ip dstPort data len).frame =
        some frame)
    (calls : Nat → RecvCall) :
    NeverReturned c frame calls ↔
      ¬ c.udp.up = true ∨ c.udp.pending.length = 7 := by
  unfold NeverReturned
  rcases returned_cases (sent_frameDatagram hLen hFrame) c.udp
      calls with
    ⟨hCannot, hNone⟩ | ⟨hCan, got, hGot, _⟩
  · exact iff_of_true hNone hCannot
  · rw [hGot]
    refine iff_of_false (by simp) ?_
    rintro (hDown | hFull)
    · exact hDown hCan.1
    · exact hCan.2 hFull

/-
  No datagram from `a` to `b` is carried as it should be: `b`
  takes it for its own, and `c` returns it too, unless it is
  down or full.
-/
theorem datagram_misdelivered
    (hUp : a.udp.up = true)
    (hApart : a.ip ≠ b.ip)
    (hLen : len.toNat ≤ netMaxPayload)
    (callsB callsC : Nat → RecvCall) :
    ¬ CarriesDatagram a b c dstPort data len callsB callsC ∧
      ∀ frame,
        (netUdpSend a.ip a.udp b.ip dstPort data len).frame =
            some frame →
          ¬ FromSender a b frame callsB ∧
            (NeverReturned c frame callsC ↔
              ¬ c.udp.up = true ∨
                c.udp.pending.length = 7) := by
  have hSent :
      (netUdpSend a.ip a.udp b.ip dstPort data len).frame =
        some (udpFrame b.ip dstPort data len) := by
    unfold netUdpSend
    rw [if_neg (not_not.mpr hUp)]
  refine ⟨fun hCarries => ?_, fun frame hFrame =>
    ⟨not_fromSender hApart hLen hFrame callsB,
      neverReturned_iff hLen hFrame callsC⟩⟩
  exact not_fromSender hApart hLen hSent callsB
    (hCarries _ hSent).1

/- A node at that address, ready to send and receive. -/
def newNetNode
    (ip : UInt32) : NetNode :=
  ⟨ip, netInit Udp.boot⟩

/- Two bytes to port 7 of the node 10.0.0.2, from 10.0.0.1. -/
theorem datagram_misdelivered_sample :
    ¬ CarriesDatagram (newNetNode 0x0A000001)
      (newNetNode 0x0A000002) (newNetNode 0x0A000003) 7
      (ofList [0x68, 0x69]) 2 (fun _ => ⟨[], zeros, 1400⟩)
      (fun _ => ⟨[], zeros, 1400⟩) :=
  (datagram_misdelivered rfl (by decide) (by decide) _ _).1

/- The claimed delivery fails at the same nodes. -/
theorem not_carriesDatagram_sample :
    ¬ ∀ (a b c : NetNode) (dstPort : UInt16) (data : ByteMem)
        (len : UInt16) (callsB callsC : Nat → RecvCall),
      a.udp.up = true → b.udp.up = true → c.udp.up = true →
      a.ip ≠ b.ip → a.ip ≠ c.ip → b.ip ≠ c.ip →
      a.ip ≠ 0x7F000001 → b.ip ≠ 0x7F000001 →
      c.ip ≠ 0x7F000001 → len.toNat ≤ netMaxPayload →
        CarriesDatagram a b c dstPort data len callsB
          callsC := by
  intro hAlways
  have hCarries :=
    hAlways (newNetNode 0x0A000001) (newNetNode 0x0A000002)
      (newNetNode 0x0A000003) 7 (ofList [0x68, 0x69]) 2
      (fun _ => ⟨[], zeros, 1400⟩) (fun _ => ⟨[], zeros, 1400⟩)
      rfl rfl rfl (by decide) (by decide) (by decide)
      (by decide) (by decide) (by decide) (by decide)
  exact not_fromSender (by decide) (by decide) rfl _
    (hCarries _ rfl).1

end Addresses

end Net

end AsmOS
