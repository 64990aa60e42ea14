import AsmOS.Net.Transport

/-
  The party rooms (`src/party.c`) over the transport layer.

  A member's address and a room's name are character arrays
  that a zero byte ends.  Pointer arguments to strings are
  byte memories read from the pointer on.

  Main declarations:
    * `Room`, `Node`
    * `partyHandleReceived`, `partyPoll`
    * `partyCreate`, `partyInvite`, `partyJoin`, `partyLeave`
-/

------------------------------------------------------------
-- Rooms
------------------------------------------------------------

namespace AsmOS

namespace Net

open ByteMem

abbrev roomNameMax : Nat := 32

abbrev memberMax : Nat := 8

abbrev ipStrMax : Nat := 16

abbrev chatMsgMax : Nat := 128

abbrev msgCreate : UInt8 := 0x01

abbrev msgInvite : UInt8 := 0x02

abbrev msgJoin : UInt8 := 0x03

abbrev msgLeave : UInt8 := 0x04

abbrev msgChat : UInt8 := 0x05

abbrev msgMemberList : UInt8 := 0x06

abbrev msgRoomInfo : UInt8 := 0x07

/- `party_member_t`. -/
structure Member where
  ip : ByteMem
  active : UInt8

/- `party_room_t`. -/
structure Room where
  name : ByteMem
  members : Nat → Member
  memberCount : Nat
  isHost : Bool
  inRoom : Bool

/- `clear_room`. -/
def clearRoom : Room where
  name := zeros
  members := fun _ => ⟨zeros, 0⟩
  memberCount := 0
  isHost := false
  inRoom := false

/- The static variables of `transport.c` and `party.c`. -/
structure Node where
  transport : State
  room : Room
  partyInitialized : Bool
  partyRxBuf : ByteMem

/- Static storage before the first call. -/
def Node.boot : Node where
  transport := State.boot
  room := clearRoom
  partyInitialized := false
  partyRxBuf := zeros

/- The characters of a string before its end, at most `n`. -/
def strnlen
    (p : ByteMem) : Nat → Nat
| 0 => 0
| n + 1 => if p 0 = 0 then 0 else strnlen (p.view 1) n + 1

/- Write one entry of the member array. -/
def Room.setMember
    (room : Room)
    (i : Nat)
    (member : Member) : Room :=
  { room with
    members := fun k =>
      if k = i then member else room.members k }

/- The copy loops for a member's address. -/
def copyIp
    (ip src : ByteMem) : ByteMem :=
  let n := strnlen src (ipStrMax - 1)
  storeByte (storeBlock ip 0 n src) n 0

/- Put an active member behind the last one. -/
def appendMember
    (room : Room)
    (ip : ByteMem) : Room :=
  let i := room.memberCount
  { room.setMember i ⟨copyIp (room.members i).ip ip, 1⟩ with
    memberCount := i + 1 }

/- `add_member_by_ip`. -/
def addMemberByIp
    (room : Room)
    (ip : ByteMem) : Int × Room :=
  if memberMax ≤ room.memberCount then (-1, room)
  else (0, appendMember room ip)

------------------------------------------------------------
-- Received Messages
------------------------------------------------------------

/- The name's length in a room message, cut to fit. -/
def infoNameLen
    (p : ByteMem) : Nat :=
  min (p 0).toNat (roomNameMax - 1)

def handleRoomInfo
    (room : Room)
    (p : ByteMem)
    (len : Nat) : Room :=
  if len < 1 then room
  else
    let nameLen := infoNameLen p
    if len < 1 + nameLen + 1 then room
    else
      { room with
        name :=
          storeByte (storeBlock room.name 0 nameLen (p.view 1))
            nameLen 0
        memberCount := min (p (1 + nameLen)).toNat memberMax
        isHost := false
        inRoom := true }

/- Fifteen characters and an end. -/
def listedIp
    (ip p : ByteMem)
    (off : Nat) : ByteMem :=
  storeByte (storeBlock ip 0 (ipStrMax - 1) (p.view off))
    (ipStrMax - 1) 0

/- The loop over `n` more listed members, from index `i`. -/
def memberListLoop
    (p : ByteMem)
    (len : Nat) :
    Nat → Nat → Nat → Room → Room
| 0, _, _, room => room
| n + 1, i, off, room =>
    if off + ipStrMax ≤ len then
      memberListLoop p len n (i + 1) (off + ipStrMax)
        (room.setMember i
          ⟨listedIp (room.members i).ip p off, 1⟩)
    else room

def handleMemberList
    (room : Room)
    (p : ByteMem)
    (len : Nat) : Room :=
  if len < 1 then room
  else
    let count := min (p 0).toNat memberMax
    memberListLoop p len count 0 1
      { room with memberCount := count }

/- Chat lines are dropped. -/
def handleChat
    (room : Room)
    (_p : ByteMem)
    (_len : Nat) : Room :=
  room

def partyHandleReceived
    (room : Room)
    (buf : ByteMem)
    (payloadLen : Nat) : Room :=
  if payloadLen < 1 then room
  else
    let msgType := buf 0
    let p := buf.view 1
    let plen := payloadLen - 1
    if msgType = msgRoomInfo then handleRoomInfo room p plen
    else if msgType = msgMemberList then
      handleMemberList room p plen
    else if msgType = msgChat then handleChat room p plen
    else if msgType = msgJoin then
      if room.isHost ∧ ipStrMax ≤ plen then
        (addMemberByIp room p).2
      else room
    else room

/- A node after a poll, and the acknowledgement it sent. -/
structure Polled where
  ack : Option (List UInt8)
  node : Node

/-
  The message that a transport call left in `party_rx_buf`:
  data whose first byte is a message type is handled.
-/
def handlePolled
    (node : Node)
    (got : Received) : Node :=
  let buf := got.buffer.getD node.partyRxBuf
  let node :=
    { node with transport := got.state, partyRxBuf := buf }
  if 0 < got.rc ∧ got.outType = some typeData ∧
      msgCreate ≤ buf 0 ∧ buf 0 ≤ msgRoomInfo then
    { node with
      room := partyHandleReceived node.room buf got.rc.toNat }
  else node

/-
  `party_poll` while `packet` waits in the driver.  The type
  variable has some value before the call.
-/
def partyPoll
    (packet : List UInt8)
    (node : Node) : Polled :=
  if ¬ node.partyInitialized then ⟨none, node⟩
  else
    let got :=
      transportReceive packet node.transport
        (some node.partyRxBuf) maxPayload (some 0)
    ⟨got.ack, handlePolled node got⟩

------------------------------------------------------------
-- Local Calls
------------------------------------------------------------

/- A result, the frame the driver was given, and the node. -/
structure Called where
  rc : Int
  frame : Option (List UInt8)
  node : Node

/- `send_party_msg`, with the payload's bytes. -/
def sendPartyMsg
    (driver : List UInt8 → Int)
    (node : Node)
    (msgType : UInt8)
    (payload : List UInt8) : Option (List UInt8) × Node :=
  if maxPayload - 1 < payload.length then (none, node)
  else
    let sent :=
      transportSend driver node.transport typeData
        (some (ofList (msgType :: payload)))
        (UInt16.ofNat (payload.length + 1))
    (sent.frame, { node with transport := sent.state })

def partyInit
    (node : Node) : Node :=
  if node.partyInitialized then node
  else
    { node with
      transport := transportInit node.transport
      room := clearRoom
      partyInitialized := true }

/- The first member is the node itself, without address. -/
def ownRoom
    (name : ByteMem)
    (isHost : Bool) : Room :=
  { clearRoom.setMember 0 ⟨storeByte zeros 0 0, 1⟩ with
    name := name
    memberCount := 1
    isHost := isHost
    inRoom := true }

/- A new room's name; a null pointer gives an empty one. -/
def roomName
    (name : Option ByteMem) : ByteMem :=
  match name with
  | none => zeros
  | some p =>
      let n := strnlen p (roomNameMax - 1)
      storeByte (storeBlock zeros 0 n p) n 0

/- The room message of `party_create`. -/
def roomInfoPayload
    (room : Room) : List UInt8 :=
  let nameLen := strnlen room.name roomNameMax
  UInt8.ofNat nameLen ::
    (room.name.slice 0 nameLen ++
      [UInt8.ofNat room.memberCount])

def partyCreate
    (driver : List UInt8 → Int)
    (name : Option ByteMem)
    (node : Node) : Called :=
  if ¬ node.partyInitialized then ⟨-1, none, node⟩
  else
    let room := ownRoom (roomName name) true
    let sent :=
      sendPartyMsg driver { node with room } msgRoomInfo
        (roomInfoPayload room)
    ⟨0, sent.1, sent.2⟩

def partyInvite
    (driver : List UInt8 → Int)
    (ip : Option ByteMem)
    (node : Node) : Called :=
  if ¬ node.partyInitialized ∨ ¬ node.room.inRoom ∨
      ¬ node.room.isHost ∨
      memberMax ≤ node.room.memberCount then
    ⟨-1, none, node⟩
  else
    match ip with
    | none => ⟨-1, none, node⟩
    | some p =>
        let n := strnlen p (ipStrMax - 1)
        let sent :=
          sendPartyMsg driver
            { node with room := appendMember node.room p }
            msgInvite (p.slice 0 (n + 1))
        ⟨0, sent.1, sent.2⟩

/- The characters `0.0.0.0`, without the end of the string. -/
def joinPayload : List UInt8 :=
  [0x30, 0x2E, 0x30, 0x2E, 0x30, 0x2E, 0x30]

/- The address argument of `party_join` is not used. -/
def partyJoin
    (driver : List UInt8 → Int)
    (node : Node) : Called :=
  if ¬ node.partyInitialized then ⟨-1, none, node⟩
  else
    let sent :=
      sendPartyMsg driver
        { node with room := ownRoom zeros false } msgJoin
        joinPayload
    ⟨0, sent.1, sent.2⟩

def partyLeave
    (driver : List UInt8 → Int)
    (node : Node) : Called :=
  let sent := sendPartyMsg driver node msgLeave []
  ⟨0, sent.1, { sent.2 with room := clearRoom }⟩

def partyChat
    (driver : List UInt8 → Int)
    (msg : Option ByteMem)
    (node : Node) : Called :=
  if ¬ node.partyInitialized ∨ ¬ node.room.inRoom then
    ⟨-1, none, node⟩
  else
    match msg with
    | none => ⟨-1, none, node⟩
    | some p =>
        let n := strnlen p (chatMsgMax - 1)
        let sent :=
          sendPartyMsg driver node msgChat (p.slice 0 (n + 1))
        ⟨0, sent.1, sent.2⟩

end Net

end AsmOS
