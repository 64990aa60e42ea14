import Mathlib.Data.Fintype.Card
import Mathlib.Data.Fintype.Basic
import AsmOS.Net.PartyMessages

/-
  One party host and its peers over a reliable network.

  A frame that a node hands its driver reaches every other
  node once.  The frames on the way may be delivered in any
  order, each to a poll of the node it is addressed to.

  Main declarations:
    * `PartyNet`, `partyStep`, `partyRun`
    * `HostAlone`, `partyRun_hostAlone`
    * `membership_agrees_iff`
-/

------------------------------------------------------------
-- Nodes And Frames
------------------------------------------------------------

namespace AsmOS

namespace Net

open ByteMem

variable {n : Nat}

/- The host is `none`. -/
abbrev PartyId (n : Nat) := Option (Fin n)

/-
  The nodes, the frames on their way, and which peers have
  joined and not left again.
-/
structure PartyNet (n : Nat) where
  nodes : PartyId n → Node
  inFlight : List (PartyId n × List UInt8)
  joined : Fin n → Bool

/- Every node but the sender gets a copy. -/
def broadcast
    (sender : PartyId n)
    (frame : Option (List UInt8)) :
    List (PartyId n × List UInt8) :=
  match frame with
  | none => []
  | some bytes =>
      ((none :: (List.finRange n).map some).filter
        fun p => p ≠ sender).map fun p => (p, bytes)

def PartyNet.setNode
    (s : PartyNet n)
    (p : PartyId n)
    (node : Node)
    (frame : Option (List UInt8)) : PartyNet n :=
  { s with
    nodes := fun q => if q = p then node else s.nodes q
    inFlight := s.inFlight ++ broadcast p frame }

theorem setNode_self
    (s : PartyNet n)
    (p : PartyId n)
    (node : Node)
    (frame : Option (List UInt8)) :
    (s.setNode p node frame).nodes p = node := by
  unfold PartyNet.setNode
  exact if_pos rfl

theorem setNode_of_ne
    (s : PartyNet n)
    {p q : PartyId n}
    (hNe : q ≠ p)
    (node : Node)
    (frame : Option (List UInt8)) :
    (s.setNode p node frame).nodes q = s.nodes q := by
  unfold PartyNet.setNode
  exact if_neg hNe

/- The driver takes every frame. -/
def reliable
    (_frame : List UInt8) : Int :=
  0

inductive PartyEvent (n : Nat) where
| join
    (i : Fin n)
| leave
    (i : Fin n)
| poll
    (k : Nat)

/- One call of a peer, or the delivery of frame `k`. -/
def partyStep
    (s : PartyNet n) : PartyEvent n → PartyNet n
| .join i =>
    let called := partyJoin reliable (s.nodes (some i))
    { s.setNode (some i) called.node called.frame with
      joined := fun j => if j = i then true else s.joined j }
| .leave i =>
    let called := partyLeave reliable (s.nodes (some i))
    { s.setNode (some i) called.node called.frame with
      joined := fun j => if j = i then false else s.joined j }
| .poll k =>
    match s.inFlight[k]? with
    | none => s
    | some (p, frame) =>
        let polled := partyPoll frame (s.nodes p)
        { s with inFlight := s.inFlight.eraseIdx k }.setNode p
          polled.node polled.ack

def partyRun
    (s : PartyNet n)
    (events : List (PartyEvent n)) : PartyNet n :=
  events.foldl partyStep s

/- New nodes, of which the host has created a room. -/
def partyStart
    (n : Nat)
    (name : Option ByteMem) : PartyNet n :=
  let created :=
    partyCreate reliable name (partyInit Node.boot)
  PartyNet.setNode ⟨fun _ => partyInit Node.boot, [],
    fun _ => false⟩ none created.node created.frame

/- How many peers are joined. -/
def PartyNet.joinedCount
    (s : PartyNet n) : Nat :=
  (Finset.univ.filter fun i => s.joined i = true).card

def PartyNet.hostCount
    (s : PartyNet n) : Nat :=
  (s.nodes none).room.memberCount

def PartyNet.Quiet
    (s : PartyNet n) : Prop :=
  s.inFlight = []

------------------------------------------------------------
-- Frames That Do Nothing
------------------------------------------------------------

/- No room changes when the frame is polled. -/
def Inert
    (frame : List UInt8) : Prop :=
  ∀ node, (partyPoll frame node).node.room = node.room

theorem transportReceive_uninitialized
    {packet : List UInt8}
    {s : State}
    (hOff : ¬ s.initialized = true)
    (out : ByteMem)
    (maxLen : Nat)
    (outType : UInt8) :
    transportReceive packet s (some out) maxLen
        (some outType) =
      ⟨-1, some outType, some out, none, s⟩ := by
  have hFalse : s.initialized = false :=
    Bool.eq_false_iff.mpr hOff
  unfold transportReceive
  rw [hFalse]

/- Acknowledgements are inert. -/
theorem inert_ack
    {packet : List UInt8}
    {node : Node}
    {frame : List UInt8}
    (hAck : (partyPoll packet node).ack = some frame) :
    Inert frame := by
  unfold partyPoll at hAck
  by_cases hParty : node.partyInitialized = true
  swap
  · rw [if_pos hParty] at hAck
    cases hAck
  rw [if_neg (not_not.mpr hParty)] at hAck
  dsimp only at hAck
  by_cases hInit : node.transport.initialized = true
  swap
  · rw [transportReceive_uninitialized hInit] at hAck
    cases hAck
  rw [transportReceive_eq packet hInit] at hAck
  dsimp only at hAck
  split at hAck
  swap
  · cases hAck
  generalize
    node.transport.deliver (platNetRecv packet packetMax) = s
    at hAck
  by_cases hData : s.rxBuf 0 = typeData
  · rw [acceptPacket_ack _ _ _ hData] at hAck
    intro receiver
    apply partyPoll_rejected
    intro _
    by_cases hPeer : receiver.transport.initialized = true
    · have hRejected :=
        ack_frame_rejected s.txBuf
          (UInt16.ofNat (load16 s.rxBuf 2)) [] hPeer
          receiver.partyRxBuf maxPayload 0
      rw [List.append_nil, Option.some.inj hAck]
        at hRejected
      exact hRejected
    · rw [transportReceive_uninitialized hPeer]
  · unfold acceptPacket at hAck
    dsimp only at hAck
    rw [if_neg hData] at hAck
    cases hAck

/- Short messages of a peer are inert. -/
theorem inert_sendPartyMsg
    {node : Node}
    {msgType : UInt8}
    {payload frame : List UInt8}
    (hShort : payload.length < ipStrMax)
    (hList : msgType ≠ msgMemberList)
    (hInfo : msgType ≠ msgRoomInfo)
    (hFrame :
      (sendPartyMsg reliable node msgType payload).1 =
        some frame) :
    Inert frame := by
  have hSixteen : ipStrMax = 16 := rfl
  have hMax : maxPayload = 1400 := rfl
  have hSize : UInt16.size = 65536 := rfl
  unfold sendPartyMsg at hFrame
  rw [if_neg (by omega)] at hFrame
  have hCount :
      (UInt16.ofNat (payload.length + 1)).toNat =
        (msgType :: payload).length :=
    UInt16.toNat_ofNat_of_lt' (by omega)
  have hPoints :
      PointsTo (some (ofList (msgType :: payload)))
        (msgType :: payload) :=
    slice_ofList _
  rcases transportSend_holds hFrame hPoints hCount with
    ⟨hLen, m, hSlice, hHolds⟩
  intro receiver
  by_cases hParty : receiver.partyInitialized = true
  swap
  · exact partyPoll_rejected fun hOn => absurd hOn hParty
  by_cases hInit : receiver.transport.initialized = true
  swap
  · apply partyPoll_rejected
    intro _
    rw [transportReceive_uninitialized hInit]
  have hPoll :=
    partyPoll_holds hHolds hLen [] hParty hInit
  have hSome : 0 < (msgType :: payload).length :=
    Nat.succ_pos _
  rw [List.append_nil, ← hSlice, if_pos rfl] at hPoll
  rw [hPoll, dataRoom_eq_self_iff _ hSome]
  refine ⟨?_, fun hKind => absurd hKind hList,
    fun hKind => absurd hKind hInfo⟩
  rintro _ ⟨_, hLong, _⟩
  rw [List.length_cons] at hLong
  omega

theorem inert_join
    {node : Node}
    {frame : List UInt8}
    (hFrame : (partyJoin reliable node).frame = some frame) :
    Inert frame := by
  unfold partyJoin at hFrame
  split at hFrame
  · cases hFrame
  · exact inert_sendPartyMsg (by decide) (by decide)
      (by decide) hFrame

theorem inert_leave
    {node : Node}
    {frame : List UInt8}
    (hFrame : (partyLeave reliable node).frame = some frame) :
    Inert frame :=
  inert_sendPartyMsg (by decide) (by decide) (by decide) hFrame

------------------------------------------------------------
-- The Host
------------------------------------------------------------

/- The host is alone, and nothing on its way changes that. -/
structure HostAlone
    (s : PartyNet n) : Prop where
  count_eq : s.hostCount = 1
  inert :
    ∀ frame, (none, frame) ∈ s.inFlight → Inert frame

theorem mem_broadcast
    {sender p : PartyId n}
    {frame : Option (List UInt8)}
    {bytes : List UInt8}
    (hMember : (p, bytes) ∈ broadcast sender frame) :
    p ≠ sender ∧ frame = some bytes := by
  unfold broadcast at hMember
  cases frame with
  | none => cases hMember
  | some sent =>
      rcases List.mem_map.mp hMember with ⟨q, hq, hEq⟩
      rcases Prod.mk.inj hEq with ⟨rfl, rfl⟩
      refine ⟨?_, rfl⟩
      simpa using (List.mem_filter.mp hq).2

/- A peer's call that sends an inert frame, or none. -/
theorem HostAlone.setPeer
    {s : PartyNet n}
    (hAlone : HostAlone s)
    (i : Fin n)
    (node : Node)
    (frame : Option (List UInt8))
    (hFrame : ∀ bytes, frame = some bytes → Inert bytes) :
    HostAlone (s.setNode (some i) node frame) := by
  constructor
  · unfold PartyNet.hostCount
    rw [setNode_of_ne s (Option.some_ne_none i).symm]
    exact hAlone.count_eq
  · intro bytes hMember
    rcases List.mem_append.mp hMember with hOld | hNew
    · exact hAlone.inert bytes hOld
    · exact hFrame bytes (mem_broadcast hNew).2

theorem HostAlone.poll
    {s : PartyNet n}
    (hAlone : HostAlone s)
    (k : Nat) :
    HostAlone (partyStep s (.poll k)) := by
  unfold partyStep
  dsimp only
  cases hGet : s.inFlight[k]? with
  | none => exact hAlone
  | some delivery =>
      rcases delivery with ⟨p, frame⟩
      have hMember : (p, frame) ∈ s.inFlight :=
        List.mem_of_getElem? hGet
      have hErased :
          HostAlone
            { s with inFlight := s.inFlight.eraseIdx k } :=
        ⟨hAlone.count_eq, fun bytes hIn =>
          hAlone.inert bytes (List.mem_of_mem_eraseIdx hIn)⟩
      cases p with
      | some i =>
          exact hErased.setPeer i _ _ fun bytes hAck =>
            inert_ack hAck
      | none =>
          constructor
          · have hRoom := hAlone.inert frame hMember
              (s.nodes none)
            unfold PartyNet.hostCount
            dsimp only
            rw [setNode_self, hRoom]
            exact hAlone.count_eq
          · intro bytes hIn
            rcases List.mem_append.mp hIn with hOld | hNew
            · exact hErased.inert bytes hOld
            · exact absurd rfl (mem_broadcast hNew).1

theorem HostAlone.step
    {s : PartyNet n}
    (hAlone : HostAlone s)
    (event : PartyEvent n) :
    HostAlone (partyStep s event) := by
  cases event with
  | join i =>
      have hSet :=
        hAlone.setPeer i
          (partyJoin reliable (s.nodes (some i))).node
          (partyJoin reliable (s.nodes (some i))).frame
          fun _ hFrame => inert_join hFrame
      exact ⟨hSet.count_eq, hSet.inert⟩
  | leave i =>
      have hSet :=
        hAlone.setPeer i
          (partyLeave reliable (s.nodes (some i))).node
          (partyLeave reliable (s.nodes (some i))).frame
          fun _ hFrame => inert_leave hFrame
      exact ⟨hSet.count_eq, hSet.inert⟩
  | poll k => exact hAlone.poll k

theorem partyStart_hostAlone
    (n : Nat)
    (name : Option ByteMem) :
    HostAlone (partyStart n name) := by
  constructor
  · have hHost :
        (partyStart n name).nodes none =
          (partyCreate reliable name
            (partyInit Node.boot)).node :=
      setNode_self _ _ _ _
    have hCreate :
        (partyCreate reliable name
            (partyInit Node.boot)).node.room =
          ownRoom (roomName name) true := by
      have hOn :
          ¬ ¬ (partyInit Node.boot).partyInitialized = true :=
        not_not.mpr rfl
      unfold partyCreate
      rw [if_neg hOn]
      dsimp only
      unfold sendPartyMsg
      split
      · rfl
      · rfl
    unfold PartyNet.hostCount
    rw [hHost, hCreate]
    rfl
  · intro frame hMember
    exact absurd rfl (mem_broadcast hMember).1

theorem partyRun_hostAlone
    {s : PartyNet n}
    (hAlone : HostAlone s)
    (events : List (PartyEvent n)) :
    HostAlone (partyRun s events) := by
  induction events generalizing s with
  | nil => exact hAlone
  | cons event events ih => exact ih (hAlone.step event)

/-
  In every state that a run reaches, the host's count is that
  of the host and the joined peers exactly when no peer is
  joined.
-/
theorem membership_agrees_iff
    (n : Nat)
    (name : Option ByteMem)
    (events : List (PartyEvent n)) :
    let s := partyRun (partyStart n name) events
    (s.Quiet → s.hostCount = 1 + s.joinedCount) ↔
      (s.Quiet → s.joinedCount = 0) := by
  have hAlone :=
    partyRun_hostAlone (partyStart_hostAlone n name) events
  dsimp only
  rw [hAlone.count_eq]
  refine forall_congr' fun _ => ?_
  omega

/-
  The peer gets the room message, joins, and all frames are
  delivered: the host still counts itself only.
-/
theorem not_membership_agrees_join :
    let s :=
      partyRun (partyStart 1 none)
        [.poll 0, .poll 0, .join 0, .poll 0, .poll 0]
    s.Quiet ∧ ¬ s.hostCount = 1 + s.joinedCount := by
  dsimp only
  refine ⟨?_, ?_⟩
  · unfold PartyNet.Quiet
    decide +kernel
  · decide +kernel

end Net

end AsmOS
