import AsmOS.Net.DatagramFifo

/-
  The controller over the network
  (`src/network_controller.c`).

  Each poll takes the oldest datagram of the ring, whoever it
  is for.  A packet is shown by the poll that takes it, so
  with one packet a poll the controller stays behind by as
  many packets as waited at the start.

  Main declarations:
    * `ControllerNode`, `networkControllerPoll`
    * `Datagram.input?`, `networkControllerPoll_polled`
    * `networkController_shows`, `networkController_lags`
-/

------------------------------------------------------------
-- Polls
------------------------------------------------------------

namespace AsmOS

namespace Net

open ByteMem

abbrev netctrlMagic : UInt32 := 0x43543250

/- `sizeof(network_controller_packet_t)`. -/
abbrev controllerPacketSize : Nat := 12

/- `last_buttons` and the two sticks. -/
structure ControllerInput where
  buttons : UInt16
  lx : Int8
  ly : Int8
  rx : Int8
  ry : Int8
deriving DecidableEq

/- The static variables of the file. -/
structure NetworkController where
  running : Bool
  last : ControllerInput
deriving DecidableEq

def NetworkController.boot : NetworkController where
  running := false
  last := ⟨0, 0, 0, 0, 0⟩

def networkControllerStart
    (c : NetworkController) : Int × NetworkController :=
  (0, { c with running := true })

def networkControllerGetState
    (c : NetworkController) : ControllerInput :=
  c.last

/- The fields of the packet in `buf`. -/
def packetMagic
    (buf : ByteMem) : UInt32 :=
  UInt32.ofNat (load32 buf 0)

def packetInput
    (buf : ByteMem) : ControllerInput where
  buttons := UInt16.ofNat (load16 buf 4)
  lx := (buf 6).toInt8
  ly := (buf 7).toInt8
  rx := (buf 8).toInt8
  ry := (buf 9).toInt8

structure ControllerNode where
  controller : NetworkController
  udp : Udp

/- What a poll finds in the driver and on its stack. -/
structure ControllerPoll where
  packet : List UInt8
  buf : ByteMem

/- `network_controller_poll`. -/
def networkControllerPoll
    (p : ControllerPoll)
    (s : ControllerNode) : Int × ControllerNode :=
  if ¬ s.controller.running then (0, s)
  else
    let r := netUdpRecv p.packet s.udp p.buf 64
    if r.rc < controllerPacketSize then
      (0, { s with udp := r.udp })
    else if packetMagic r.buf ≠ netctrlMagic then
      (0, { s with udp := r.udp })
    else
      (1,
        { controller :=
            { s.controller with last := packetInput r.buf }
          udp := r.udp })

def ControllerNode.run
    (s : ControllerNode)
    (polls : List ControllerPoll) : ControllerNode :=
  polls.foldl (fun s p => (networkControllerPoll p s).2) s

------------------------------------------------------------
-- What A Poll Does
------------------------------------------------------------

/- The input of a datagram that is a controller packet. -/
def Datagram.input?
    (d : Datagram) : Option ControllerInput :=
  if controllerPacketSize ≤ d.len.toNat ∧
      packetMagic (ofList d.data) = netctrlMagic then
    some (packetInput (ofList d.data))
  else none

/- The oldest of the queue is taken, and shown if it can be. -/
structure ControllerPolled
    (q : List Datagram)
    (s : ControllerNode)
    (r : Int × ControllerNode) : Prop where
  running : r.2.controller.running = true
  up : r.2.udp.up = true
  pending : r.2.udp.pending = q.tail
  shown :
    r.2.controller.last =
      (q.head?.bind Datagram.input?).getD s.controller.last
  rc : r.1 = if (q.head?.bind Datagram.input?).isSome then 1 else 0

section Polls

variable {s : ControllerNode} {d : Datagram}

variable {x : ControllerInput}

/- The buffer has the first bytes of the datagram. -/
theorem Delivers.agreeOn
    {got : UdpReceived}
    (hDelivers : Delivers d 64 got)
    (hLen : controllerPacketSize ≤ d.len.toNat) :
    AgreeOn got.buf (ofList d.data) 0 controllerPacketSize := by
  intro i _ hi
  have hMax : (64 : UInt16).toNat = 64 := rfl
  have hSize : controllerPacketSize = 12 := rfl
  have hRc := hDelivers.rc_eq
  have hBytes :
      (got.buf.slice 0 got.rc.toNat)[i]? =
        (d.data.take (64 : UInt16).toNat)[i]? :=
    congrArg (fun bytes => bytes[i]?) hDelivers.bytes_eq
  rw [slice_getElem? _ _ _ _ (by omega),
    List.getElem?_take_of_lt (by omega), Nat.zero_add] at hBytes
  unfold ofList
  rw [List.getD_eq_getElem?_getD, ← hBytes]
  rfl

/- Only the first bytes of a packet are read. -/
theorem packet_congr
    {m m' : ByteMem}
    (hAgree : AgreeOn m m' 0 controllerPacketSize) :
    packetMagic m = packetMagic m' ∧
      packetInput m = packetInput m' := by
  unfold packetMagic packetInput
  rw [hAgree.load32_eq (Nat.zero_le 0) (by decide),
    hAgree.load16_eq (Nat.zero_le 4) (by decide),
    hAgree 6 (Nat.zero_le 6) (by decide),
    hAgree 7 (Nat.zero_le 7) (by decide),
    hAgree 8 (Nat.zero_le 8) (by decide),
    hAgree 9 (Nat.zero_le 9) (by decide)]
  exact ⟨rfl, rfl⟩

theorem networkControllerPoll_polled
    (hRunning : s.controller.running = true)
    (hUp : s.udp.up = true)
    (p : ControllerPoll) :
    ControllerPolled (fillQueue s.udp.pending p.packet) s
      (networkControllerPoll p s) := by
  have hFilled := takeFrame_pending_eq p.packet s.udp
  have hUpFilled := (takeFrame_up p.packet s.udp).trans hUp
  have hSize : controllerPacketSize = 12 := rfl
  have hMax : (64 : UInt16).toNat = 64 := rfl
  have hPopUp :=
    (popSlot_up (takeFrame p.packet s.udp) p.buf 64).trans hUpFilled
  have hPop :=
    (popSlot_source (takeFrame p.packet s.udp) p.buf 64).2
  unfold networkControllerPoll netUdpRecv
  rw [if_neg (not_not.mpr hRunning), if_neg (not_not.mpr hUp)]
  rw [← hFilled]
  dsimp only
  cases hPending : (takeFrame p.packet s.udp).pending with
  | nil =>
      rw [hPending] at hPop
      have hNone :
          (popSlot (takeFrame p.packet s.udp) p.buf 64).rc = 0 := by
        rw [popSlot_empty hPending]
      rw [hNone, if_pos (by decide)]
      exact ⟨hRunning, hPopUp, hPop, rfl, rfl⟩
  | cons d rest =>
      rw [hPending] at hPop
      have hDelivers :
          Delivers d 64
            (popSlot (takeFrame p.packet s.udp) p.buf 64) :=
        popSlot_delivers hPending p.buf (.inr (by decide))
      have hRc := hDelivers.rc_eq
      by_cases hLen : controllerPacketSize ≤ d.len.toNat
      · have hSame := packet_congr (hDelivers.agreeOn hLen)
        rw [if_neg (by omega), hSame.1, hSame.2]
        by_cases hMagic :
            packetMagic (ofList d.data) = netctrlMagic
        · have hInput :
              d.input? = some (packetInput (ofList d.data)) :=
            if_pos ⟨hLen, hMagic⟩
          rw [if_neg (not_not.mpr hMagic)]
          refine ⟨hRunning, hPopUp, hPop, ?_, ?_⟩
          · rw [List.head?_cons, Option.bind_some, hInput]
            rfl
          · rw [List.head?_cons, Option.bind_some, hInput]
            rfl
        · have hInput : d.input? = none :=
            if_neg fun hBoth => hMagic hBoth.2
          rw [if_pos hMagic]
          refine ⟨hRunning, hPopUp, hPop, ?_, ?_⟩
          · rw [List.head?_cons, Option.bind_some, hInput]
            rfl
          · rw [List.head?_cons, Option.bind_some, hInput]
            rfl
      · have hInput : d.input? = none :=
          if_neg fun hBoth => hLen hBoth.1
        rw [if_pos (by omega)]
        refine ⟨hRunning, hPopUp, hPop, ?_, ?_⟩
        · rw [List.head?_cons, Option.bind_some, hInput]
          rfl
        · rw [List.head?_cons, Option.bind_some, hInput]
          rfl

------------------------------------------------------------
-- When A Packet Is Shown
------------------------------------------------------------

theorem ControllerNode.run_cons
    (s : ControllerNode)
    (p : ControllerPoll)
    (polls : List ControllerPoll) :
    s.run (p :: polls) = (networkControllerPoll p s).2.run polls :=
  rfl

theorem ControllerNode.run_append
    (s : ControllerNode)
    (polls polls' : List ControllerPoll) :
    s.run (polls ++ polls') = (s.run polls).run polls' :=
  List.foldl_append

/- A packet that waits is shown when those before it are taken. -/
theorem run_shows_pending
    (hRunning : s.controller.running = true)
    (hUp : s.udp.up = true)
    {before after : List Datagram}
    (hPending : s.udp.pending = before ++ d :: after)
    (hInput : d.input? = some x)
    {polls : List ControllerPoll}
    (hLength : polls.length = before.length + 1) :
    (s.run polls).controller.last = x := by
  induction before generalizing s after polls with
  | nil =>
      rcases List.length_eq_one_iff.mp hLength with ⟨p, rfl⟩
      have hPolled := networkControllerPoll_polled hRunning hUp p
      rcases takeFrame_prefix p.packet s.udp with ⟨more, hMore⟩
      have hShown := hPolled.shown
      rw [← takeFrame_pending_eq, ← hMore, hPending,
        List.nil_append, List.cons_append, List.head?_cons,
        Option.bind_some, hInput] at hShown
      exact hShown
  | cons d' before ih =>
      cases polls with
      | nil => cases hLength
      | cons p polls =>
          have hPolled :=
            networkControllerPoll_polled hRunning hUp p
          rcases takeFrame_prefix p.packet s.udp with ⟨more, hMore⟩
          have hRest := hPolled.pending
          rw [← takeFrame_pending_eq, ← hMore, hPending,
            List.cons_append, List.cons_append, List.tail_cons,
            List.append_assoc, List.cons_append] at hRest
          rw [ControllerNode.run_cons]
          exact ih hPolled.running hPolled.up hRest
            (Nat.succ.inj hLength)

/- A packet that finds room is shown when it is taken. -/
theorem run_shows
    (hRunning : s.controller.running = true)
    (hUp : s.udp.up = true)
    (hRoom : s.udp.pending.length ≠ 7)
    {p : ControllerPoll}
    (hFrame : frameDatagram p.packet = some d)
    (hInput : d.input? = some x)
    {polls : List ControllerPoll}
    (hLength : polls.length = s.udp.pending.length) :
    (s.run (p :: polls)).controller.last = x := by
  have hPolled := networkControllerPoll_polled hRunning hUp p
  have hQueue :
      fillQueue s.udp.pending p.packet = s.udp.pending ++ [d] := by
    unfold fillQueue
    rw [if_neg hRoom, hFrame]
    rfl
  rw [ControllerNode.run_cons]
  cases hPending : s.udp.pending with
  | nil =>
      have hShown := hPolled.shown
      rw [hQueue, hPending, List.nil_append, List.head?_cons,
        Option.bind_some, hInput] at hShown
      rw [hPending, List.length_nil] at hLength
      rw [List.eq_nil_of_length_eq_zero hLength]
      exact hShown
  | cons d' rest =>
      have hRest := hPolled.pending
      rw [hQueue, hPending, List.cons_append, List.tail_cons]
        at hRest
      rw [hPending, List.length_cons] at hLength
      exact run_shows_pending hPolled.running hPolled.up hRest
        hInput hLength

/- With one datagram a poll, as many wait as before. -/
theorem run_waiting
    (hRunning : s.controller.running = true)
    (hUp : s.udp.up = true)
    (hRoom : s.udp.pending.length ≠ 7)
    {polls : List ControllerPoll}
    (hFrames :
      ∀ p ∈ polls, (frameDatagram p.packet).isSome = true) :
    (s.run polls).controller.running = true ∧
      (s.run polls).udp.up = true ∧
      (s.run polls).udp.pending.length = s.udp.pending.length := by
  induction polls generalizing s with
  | nil => exact ⟨hRunning, hUp, rfl⟩
  | cons p polls ih =>
      rw [List.forall_mem_cons] at hFrames
      have hPolled := networkControllerPoll_polled hRunning hUp p
      rcases Option.isSome_iff_exists.mp hFrames.1 with ⟨d, hFrame⟩
      have hSame :
          (networkControllerPoll p s).2.udp.pending.length =
            s.udp.pending.length := by
        rw [hPolled.pending, List.length_tail]
        unfold fillQueue
        rw [if_neg hRoom, hFrame, List.length_append]
        rfl
      rw [ControllerNode.run_cons, ← hSame]
      exact ih hPolled.running hPolled.up (hSame ▸ hRoom) hFrames.2

end Polls

/-
  In every state, a packet that comes while fewer than seven
  datagrams wait is shown after as many further polls as there
  are of them, whatever else comes; with seven it is lost.
-/
theorem networkController_shows
    {s : ControllerNode}
    (hRunning : s.controller.running = true)
    (hUp : s.udp.up = true)
    {p : ControllerPoll}
    {d : Datagram}
    {x : ControllerInput}
    (hFrame : frameDatagram p.packet = some d)
    (hInput : d.input? = some x) :
    (s.udp.pending.length ≠ 7 →
      ∀ polls, polls.length = s.udp.pending.length →
        networkControllerGetState
            (s.run (p :: polls)).controller = x) ∧
      (s.udp.pending.length = 7 →
        networkControllerPoll p s =
          networkControllerPoll { p with packet := [] } s) := by
  constructor
  · intro hRoom polls hLength
    exact run_shows hRunning hUp hRoom hFrame hInput hLength
  · intro hFull
    unfold networkControllerPoll netUdpRecv
    rw [takeFrame_full _ hFull, takeFrame_full _ hFull]

/- A phone's packet on a node that has just been started. -/
def padNode : ControllerNode where
  controller := (networkControllerStart .boot).2
  udp := netInit .boot

def padPacket : ByteMem :=
  ofList [0x50, 0x32, 0x54, 0x43, 1, 0, 2, 3, 4, 5, 0, 0]

def padPoll : ControllerPoll where
  packet := udpFrame 0x0A000002 31337 padPacket 12
  buf := zeros

theorem networkController_shows_pad :
    networkControllerGetState
        (padNode.run [padPoll]).controller = ⟨1, 2, 3, 4, 5⟩ :=
  (networkController_shows (s := padNode) (p := padPoll) rfl rfl
    (frameDatagram_udpFrame 0x0A000002 31337 padPacket
      (by decide)) (by decide)).1 (by decide) [] rfl

/-
  With one controller packet a poll, the controller stays
  behind by the datagrams that waited at the start, however
  long it is polled.
-/
theorem networkController_lags
    {s : ControllerNode}
    (hRunning : s.controller.running = true)
    (hUp : s.udp.up = true)
    (hRoom : s.udp.pending.length ≠ 7)
    {polls : List ControllerPoll}
    {inputs : List ControllerInput}
    (hPackets :
      polls.map
          (fun p => (frameDatagram p.packet).bind Datagram.input?) =
        inputs.map some)
    {i : Nat}
    (hLength : polls.length = i + 1 + s.udp.pending.length) :
    inputs[i]? =
      some
        (networkControllerGetState (s.run polls).controller) := by
  have hFrames :
      ∀ p ∈ polls.take i,
        (frameDatagram p.packet).isSome = true := by
    intro p hMem
    have hInput := List.mem_map_of_mem
      (f := fun p : ControllerPoll =>
        (frameDatagram p.packet).bind Datagram.input?)
      (List.mem_of_mem_take hMem)
    rw [hPackets] at hInput
    rcases List.mem_map.mp hInput with ⟨x, _, hSome⟩
    rcases Option.bind_eq_some_iff.mp hSome.symm with
      ⟨d, hFrame, _⟩
    rw [hFrame]
    rfl
  rcases run_waiting hRunning hUp hRoom hFrames with
    ⟨hRunning', hUp', hWaiting⟩
  have hi : i < polls.length := by omega
  have hAt :
      (polls.map (fun p =>
          (frameDatagram p.packet).bind Datagram.input?))[i]? =
        some ((frameDatagram polls[i].packet).bind
          Datagram.input?) := by
    rw [List.getElem?_map, List.getElem?_eq_getElem hi]
    rfl
  rw [hPackets, List.getElem?_map] at hAt
  rcases Option.map_eq_some_iff.mp hAt with ⟨x, hx, hSome⟩
  rcases Option.bind_eq_some_iff.mp hSome.symm with
    ⟨d, hFrame, hInput⟩
  have hSplit :
      polls = polls.take i ++ polls[i] :: polls.drop (i + 1) := by
    rw [← List.drop_eq_getElem_cons hi, List.take_append_drop]
  have hShown :
      ((s.run (polls.take i)).run
          (polls[i] :: polls.drop (i + 1))).controller.last = x := by
    refine run_shows hRunning' hUp' (hWaiting ▸ hRoom) hFrame hInput
      ?_
    rw [hWaiting, List.length_drop]
    omega
  rw [← ControllerNode.run_append, ← hSplit] at hShown
  rw [hx, networkControllerGetState, hShown]

/- The node with a datagram that is no packet in its ring. -/
def lateNode : ControllerNode where
  controller := padNode.controller
  udp := ringPush padNode.udp 0 0 zeros 4

theorem padPoll_input :
    (frameDatagram padPoll.packet).bind Datagram.input? =
      some ⟨1, 2, 3, 4, 5⟩ := by
  have hFrame :
      frameDatagram padPoll.packet =
        some (pushedDatagram 0x0A000002 31337 padPacket 12) :=
    frameDatagram_udpFrame 0x0A000002 31337 padPacket (by decide)
  rw [hFrame]
  decide

theorem networkController_lags_late :
    ([⟨1, 2, 3, 4, 5⟩, ⟨1, 2, 3, 4, 5⟩] :
        List ControllerInput)[0]? =
      some
        (networkControllerGetState
          (lateNode.run [padPoll, padPoll]).controller) := by
  have hPackets :
      [padPoll, padPoll].map
          (fun p => (frameDatagram p.packet).bind Datagram.input?) =
        ([⟨1, 2, 3, 4, 5⟩, ⟨1, 2, 3, 4, 5⟩] :
          List ControllerInput).map some := by
    simp only [List.map_cons, List.map_nil, padPoll_input]
  exact networkController_lags (s := lateNode) rfl rfl (by decide)
    hPackets rfl

end Net

end AsmOS
