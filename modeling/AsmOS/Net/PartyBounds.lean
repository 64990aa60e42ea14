import AsmOS.Net.PartyMessages

/-
  What every party node keeps, whatever it is sent: the room
  stays well formed, and the handlers stay inside the bytes
  that were received.

  Main declarations:
    * `Room.WellFormed`
    * `PartyCall`, `nodeRun`, `nodeRun_wellFormed`
    * `readReceived`, `readPoll`
    * `party_wellFormed`
-/

------------------------------------------------------------
-- Well-Formed Rooms
------------------------------------------------------------

namespace AsmOS

namespace Net

open ByteMem

/- The string in an array of `n` bytes ends inside it. -/
def EndsWithin
    (m : ByteMem)
    (n : Nat) : Prop :=
  ∃ i < n, m i = 0

structure Room.WellFormed
    (room : Room) : Prop where
  count : room.memberCount ≤ memberMax
  name : EndsWithin room.name roomNameMax
  ips :
    ∀ k < memberMax, EndsWithin (room.members k).ip ipStrMax
  host : room.isHost = true → room.inRoom = true

section Rooms

variable {room : Room} {p : ByteMem}

theorem endsWithin_zeros
    {n : Nat}
    (hSome : 0 < n) :
    EndsWithin zeros n :=
  ⟨0, hSome, rfl⟩

theorem endsWithin_storeByte
    (m : ByteMem)
    {i n : Nat}
    (hi : i < n) :
    EndsWithin (storeByte m i 0) n :=
  ⟨i, hi, storeByte_self m i 0⟩

theorem clearRoom_wellFormed :
    clearRoom.WellFormed :=
  ⟨Nat.zero_le _, endsWithin_zeros (by decide),
    fun _ _ => endsWithin_zeros (by decide),
    fun hHost => absurd hHost Bool.false_ne_true⟩

/- An entry with an ended address leaves the room well formed. -/
theorem setMember_wellFormed
    (hRoom : room.WellFormed)
    (i : Nat)
    {m : Member}
    (hMember : EndsWithin m.ip ipStrMax) :
    (room.setMember i m).WellFormed := by
  refine ⟨hRoom.count, hRoom.name, fun k hk => ?_, hRoom.host⟩
  unfold Room.setMember
  dsimp only
  split
  · exact hMember
  · exact hRoom.ips k hk

theorem copyIp_ends
    (ip src : ByteMem) :
    EndsWithin (copyIp ip src) ipStrMax := by
  have hLen := strnlen_le src (ipStrMax - 1)
  have hSixteen : ipStrMax = 16 := rfl
  exact endsWithin_storeByte _ (by omega)

theorem appendMember_wellFormed
    (hRoom : room.WellFormed)
    (hSpace : room.memberCount < memberMax)
    (ip : ByteMem) :
    (appendMember room ip).WellFormed := by
  have hSet :=
    setMember_wellFormed hRoom room.memberCount
      (m := ⟨copyIp (room.members room.memberCount).ip ip, 1⟩)
      (copyIp_ends _ ip)
  exact ⟨hSpace, hSet.name, hSet.ips, hSet.host⟩

theorem addMemberByIp_wellFormed
    (hRoom : room.WellFormed)
    (ip : ByteMem) :
    (addMemberByIp room ip).2.WellFormed := by
  unfold addMemberByIp
  split
  · exact hRoom
  · next hSpace =>
      exact appendMember_wellFormed hRoom
        (Nat.lt_of_not_le hSpace) ip

theorem infoNameLen_lt
    (p : ByteMem) :
    infoNameLen p < roomNameMax := by
  have hLen := Nat.min_le_right (p 0).toNat (roomNameMax - 1)
  exact Nat.lt_of_le_of_lt hLen (by decide)

theorem handleRoomInfo_wellFormed
    (hRoom : room.WellFormed)
    (p : ByteMem)
    (len : Nat) :
    (handleRoomInfo room p len).WellFormed := by
  unfold handleRoomInfo
  split
  · exact hRoom
  · dsimp only
    split
    · exact hRoom
    · exact ⟨Nat.min_le_right _ _,
        endsWithin_storeByte _ (infoNameLen_lt p), hRoom.ips,
        fun _ => rfl⟩

theorem memberListLoop_wellFormed
    (hRoom : room.WellFormed)
    (p : ByteMem)
    (len n i off : Nat) :
    (memberListLoop p len n i off room).WellFormed := by
  induction n generalizing i off room with
  | zero => exact hRoom
  | succ n ih =>
      rw [memberListLoop]
      split
      · have hIp :
            EndsWithin (listedIp (room.members i).ip p off)
              ipStrMax :=
          endsWithin_storeByte _ (by decide)
        exact ih (setMember_wellFormed hRoom i hIp) _ _
      · exact hRoom

theorem handleMemberList_wellFormed
    (hRoom : room.WellFormed)
    (p : ByteMem)
    (len : Nat) :
    (handleMemberList room p len).WellFormed := by
  unfold handleMemberList
  split
  · exact hRoom
  · have hCount :
        ({ room with
            memberCount := min (p 0).toNat memberMax } :
          Room).WellFormed :=
      ⟨Nat.min_le_right _ _, hRoom.name, hRoom.ips,
        hRoom.host⟩
    exact memberListLoop_wellFormed hCount p len _ _ _

/- Whatever is received, the room stays well formed. -/
theorem partyHandleReceived_wellFormed
    (hRoom : room.WellFormed)
    (buf : ByteMem)
    (n : Nat) :
    (partyHandleReceived room buf n).WellFormed := by
  unfold partyHandleReceived
  split
  · exact hRoom
  dsimp only
  split
  · exact handleRoomInfo_wellFormed hRoom _ _
  split
  · exact handleMemberList_wellFormed hRoom _ _
  split
  · exact hRoom
  split
  · split
    · exact addMemberByIp_wellFormed hRoom _
    · exact hRoom
  · exact hRoom

theorem roomName_ends
    (name : Option ByteMem) :
    EndsWithin (roomName name) roomNameMax := by
  cases name with
  | none => exact endsWithin_zeros (by decide)
  | some p =>
      have hLen := strnlen_le p (roomNameMax - 1)
      exact endsWithin_storeByte _
        (Nat.lt_of_le_of_lt hLen (by decide))

theorem ownRoom_wellFormed
    {name : ByteMem}
    (hName : EndsWithin name roomNameMax)
    (isHost : Bool) :
    (ownRoom name isHost).WellFormed := by
  have hSet :=
    setMember_wellFormed clearRoom_wellFormed 0
      (m := ⟨storeByte zeros 0 0, 1⟩)
      (endsWithin_storeByte _ (by decide))
  exact ⟨show 1 ≤ memberMax by decide, hName, hSet.ips,
    fun _ => rfl⟩

end Rooms

------------------------------------------------------------
-- Runs Of A Node
------------------------------------------------------------

/- A call, with the driver's answers and its string. -/
inductive PartyCall where
| init
| create
    (driver : List UInt8 → Int)
    (name : Option ByteMem)
| invite
    (driver : List UInt8 → Int)
    (ip : Option ByteMem)
| join
    (driver : List UInt8 → Int)
| leave
    (driver : List UInt8 → Int)
| chat
    (driver : List UInt8 → Int)
    (msg : Option ByteMem)
| poll
    (packet : List UInt8)

def PartyCall.run
    (node : Node) : PartyCall → Node
| .init => partyInit node
| .create driver name => (partyCreate driver name node).node
| .invite driver ip => (partyInvite driver ip node).node
| .join driver => (partyJoin driver node).node
| .leave driver => (partyLeave driver node).node
| .chat driver msg => (partyChat driver msg node).node
| .poll packet => (partyPoll packet node).node

def nodeRun
    (node : Node)
    (calls : List PartyCall) : Node :=
  calls.foldl PartyCall.run node

section Runs

variable {node : Node}

/- A message is sent without a change to the room. -/
@[simp] theorem sendPartyMsg_room
    (driver : List UInt8 → Int)
    (node : Node)
    (msgType : UInt8)
    (payload : List UInt8) :
    (sendPartyMsg driver node msgType payload).2.room =
      node.room := by
  unfold sendPartyMsg
  split <;> rfl

theorem handlePolled_wellFormed
    (hRoom : node.room.WellFormed)
    (got : Received) :
    (handlePolled node got).room.WellFormed := by
  unfold handlePolled
  dsimp only
  split
  · exact partyHandleReceived_wellFormed hRoom _ _
  · exact hRoom

theorem partyInit_wellFormed
    (hRoom : node.room.WellFormed) :
    (partyInit node).room.WellFormed := by
  unfold partyInit
  split
  · exact hRoom
  · exact clearRoom_wellFormed

/- The host is the only member of its new room. -/
theorem partyCreate_wellFormed
    (hRoom : node.room.WellFormed)
    (driver : List UInt8 → Int)
    (name : Option ByteMem) :
    (partyCreate driver name node).node.room.WellFormed := by
  unfold partyCreate
  split
  · exact hRoom
  · dsimp only
    rw [sendPartyMsg_room]
    exact ownRoom_wellFormed (roomName_ends name) true

/- A member is only added where there is space for it. -/
theorem partyInvite_wellFormed
    (hRoom : node.room.WellFormed)
    (driver : List UInt8 → Int)
    (ip : Option ByteMem) :
    (partyInvite driver ip node).node.room.WellFormed := by
  unfold partyInvite
  split
  · exact hRoom
  · next hAllowed =>
      cases ip with
      | none => exact hRoom
      | some p =>
          have hSpace :
              node.room.memberCount < memberMax := by
            by_contra hFull
            exact hAllowed
              (.inr (.inr (.inr (Nat.le_of_not_lt hFull))))
          dsimp only
          rw [sendPartyMsg_room]
          exact appendMember_wellFormed hRoom hSpace p

theorem partyJoin_wellFormed
    (hRoom : node.room.WellFormed)
    (driver : List UInt8 → Int) :
    (partyJoin driver node).node.room.WellFormed := by
  unfold partyJoin
  split
  · exact hRoom
  · dsimp only
    rw [sendPartyMsg_room]
    exact ownRoom_wellFormed (endsWithin_zeros (by decide)) false

/- A line of chat changes no room. -/
theorem partyChat_room
    (driver : List UInt8 → Int)
    (msg : Option ByteMem) :
    (partyChat driver msg node).node.room = node.room := by
  unfold partyChat
  split
  · rfl
  · cases msg with
    | none => rfl
    | some p =>
        dsimp only
        rw [sendPartyMsg_room]

theorem partyPoll_wellFormed
    (hRoom : node.room.WellFormed)
    (packet : List UInt8) :
    (partyPoll packet node).node.room.WellFormed := by
  unfold partyPoll
  split
  · exact hRoom
  · exact handlePolled_wellFormed hRoom _

theorem run_wellFormed
    (hRoom : node.room.WellFormed)
    (call : PartyCall) :
    (call.run node).room.WellFormed := by
  cases call with
  | init => exact partyInit_wellFormed hRoom
  | create driver name =>
      exact partyCreate_wellFormed hRoom driver name
  | invite driver ip =>
      exact partyInvite_wellFormed hRoom driver ip
  | join driver => exact partyJoin_wellFormed hRoom driver
  | leave driver => exact clearRoom_wellFormed
  | chat driver msg =>
      exact (partyChat_room driver msg).symm ▸ hRoom
  | poll packet => exact partyPoll_wellFormed hRoom packet

theorem nodeRun_wellFormed
    (hRoom : node.room.WellFormed)
    (calls : List PartyCall) :
    (nodeRun node calls).room.WellFormed := by
  induction calls generalizing node with
  | nil => exact hRoom
  | cons call calls ih => exact ih (run_wellFormed hRoom call)

end Runs

------------------------------------------------------------
-- Reads Inside The Payload
------------------------------------------------------------

/-
  The handlers again, with a payload that is only as long as
  what was received: a read past its end has no result.
-/

/- Read `n` bytes from `off` on. -/
def readBlock
    (p : List UInt8)
    (off : Nat) : Nat → Option (List UInt8)
| 0 => some []
| n + 1 => do
    let b ← p[off]?
    let rest ← readBlock p (off + 1) n
    return b :: rest

def readRoomInfo
    (room : Room)
    (p : List UInt8)
    (len : Nat) : Option Room :=
  if len < 1 then some room
  else do
    let first ← p[0]?
    let nameLen := min first.toNat (roomNameMax - 1)
    if len < 1 + nameLen + 1 then return room
    else
      let chars ← readBlock p 1 nameLen
      let count ← p[1 + nameLen]?
      return { room with
        name :=
          storeByte (storeBlock room.name 0 nameLen (ofList chars))
            nameLen 0
        memberCount := min count.toNat memberMax
        isHost := false
        inRoom := true }

def readMemberLoop
    (p : List UInt8)
    (len : Nat) :
    Nat → Nat → Nat → Room → Option Room
| 0, _, _, room => some room
| n + 1, i, off, room =>
    if off + ipStrMax ≤ len then do
      let chars ← readBlock p off (ipStrMax - 1)
      readMemberLoop p len n (i + 1) (off + ipStrMax)
        (room.setMember i
          ⟨listedIp (room.members i).ip (ofList chars) 0, 1⟩)
    else some room

def readMemberList
    (room : Room)
    (p : List UInt8)
    (len : Nat) : Option Room :=
  if len < 1 then some room
  else do
    let first ← p[0]?
    let count := min first.toNat memberMax
    readMemberLoop p len count 0 1
      { room with memberCount := count }

/-
  The characters of an address from `off` on, at most `n`.
  The loop reads `ip[i]` before it compares `i`, so one byte
  is read after the last character that fits.
-/
def readIp
    (p : List UInt8)
    (off : Nat) : Nat → Option (List UInt8)
| 0 => do
    let _ ← p[off]?
    return []
| n + 1 => do
    let c ← p[off]?
    if c = 0 then return []
    else
      let rest ← readIp p (off + 1) n
      return c :: rest

def readMemberByIp
    (room : Room)
    (p : List UInt8) : Option Room :=
  if memberMax ≤ room.memberCount then some room
  else do
    let chars ← readIp p 0 (ipStrMax - 1)
    let i := room.memberCount
    let ip := storeBlock (room.members i).ip 0 chars.length
      (ofList chars)
    return { room.setMember i
        ⟨storeByte ip chars.length 0, 1⟩ with
      memberCount := i + 1 }

def readReceived
    (room : Room)
    (data : List UInt8) : Option Room :=
  if data.length < 1 then some room
  else do
    let msgType ← data[0]?
    let p := data.drop 1
    let plen := data.length - 1
    if msgType = msgRoomInfo then readRoomInfo room p plen
    else if msgType = msgMemberList then
      readMemberList room p plen
    else if msgType = msgChat then return room
    else if msgType = msgJoin then
      if room.isHost ∧ ipStrMax ≤ plen then
        readMemberByIp room p
      else return room
    else return room

/- What a transport call handed over, as `party_poll` reads it. -/
def readPolled
    (node : Node)
    (got : Received) : Option Room :=
  let buf := got.buffer.getD node.partyRxBuf
  let data := buf.slice 0 got.rc.toNat
  if 0 < got.rc ∧ got.outType = some typeData then do
    let first ← data[0]?
    if msgCreate ≤ first ∧ first ≤ msgRoomInfo then
      readReceived node.room data
    else return node.room
  else some node.room

def readPoll
    (packet : List UInt8)
    (node : Node) : Option Room :=
  if ¬ node.partyInitialized then some node.room
  else
    readPolled node
      (transportReceive packet node.transport
        (some node.partyRxBuf) maxPayload (some 0))

section Reads

variable {room : Room} {p data : List UInt8} {off n : Nat}

theorem getElem?_ofList
    (hIn : off < p.length) :
    p[off]? = some (ofList p off) := by
  simp [ofList, List.getD, hIn]

theorem readBlock_eq
    (hIn : off + n ≤ p.length) :
    readBlock p off n = some ((ofList p).slice off n) := by
  induction n generalizing off with
  | zero => rfl
  | succ n ih =>
      rw [readBlock, getElem?_ofList (by omega),
        ih (by omega), slice_succ]
      rfl

/- What was read is stored as it stands in the payload. -/
theorem storeBlock_read
    (m : ByteMem) :
    storeBlock m 0 n (ofList ((ofList p).slice off n)) =
      storeBlock m 0 n ((ofList p).view off) :=
  storeBlock_congr fun x _ hx => ofList_slice _ off n x hx

theorem readRoomInfo_eq
    (room : Room)
    (p : List UInt8) :
    readRoomInfo room p p.length =
      some (handleRoomInfo room (ofList p) p.length) := by
  unfold readRoomInfo handleRoomInfo
  by_cases hEmpty : p.length < 1
  · rw [if_pos hEmpty, if_pos hEmpty]
  rw [if_neg hEmpty, if_neg hEmpty,
    getElem?_ofList (by omega)]
  dsimp only [Option.bind_eq_bind, Option.bind_some]
  rw [← infoNameLen]
  by_cases hShort : p.length < 1 + infoNameLen (ofList p) + 1
  · rw [if_pos hShort, if_pos hShort]
    rfl
  · rw [if_neg hShort, if_neg hShort, readBlock_eq (by omega),
      getElem?_ofList (by omega)]
    dsimp only [Option.bind_some]
    rw [storeBlock_read]
    rfl

theorem readMemberLoop_eq
    (room : Room)
    (p : List UInt8)
    (n i off : Nat) :
    readMemberLoop p p.length n i off room =
      some (memberListLoop (ofList p) p.length n i off room) := by
  have hSixteen : ipStrMax = 16 := rfl
  induction n generalizing i off room with
  | zero => rfl
  | succ n ih =>
      rw [readMemberLoop, memberListLoop]
      by_cases hMore : off + ipStrMax ≤ p.length
      · rw [if_pos hMore, if_pos hMore,
          readBlock_eq (by omega)]
        dsimp only [Option.bind_eq_bind, Option.bind_some]
        have hIp :
            listedIp (room.members i).ip
                (ofList ((ofList p).slice off (ipStrMax - 1)))
                0 =
              listedIp (room.members i).ip (ofList p) off := by
          unfold listedIp
          rw [view_zero, storeBlock_read]
        rw [ih, hIp]
      · rw [if_neg hMore, if_neg hMore]

theorem readMemberList_eq
    (room : Room)
    (p : List UInt8) :
    readMemberList room p p.length =
      some (handleMemberList room (ofList p) p.length) := by
  unfold readMemberList handleMemberList
  by_cases hEmpty : p.length < 1
  · rw [if_pos hEmpty, if_pos hEmpty]
  · rw [if_neg hEmpty, if_neg hEmpty,
      getElem?_ofList (by omega)]
    exact readMemberLoop_eq _ p _ 0 1

/- The loop over an address stays within `n + 1` bytes. -/
theorem readIp_eq
    (hIn : off + n < p.length) :
    readIp p off n =
      some ((ofList p).slice off
        (strnlen ((ofList p).view off) n)) := by
  induction n generalizing off with
  | zero =>
      have hByte := getElem?_ofList (p := p) hIn
      rw [Nat.add_zero] at hByte
      rw [readIp, hByte]
      rfl
  | succ n ih =>
      have hFirst : (ofList p).view off 0 = ofList p off := rfl
      rw [readIp, getElem?_ofList (by omega), strnlen,
        view_view, hFirst]
      dsimp only [Option.bind_eq_bind, Option.bind_some]
      by_cases hEnd : ofList p off = 0
      · rw [if_pos hEnd, if_pos hEnd]
        rfl
      · rw [if_neg hEnd, if_neg hEnd, ih (by omega), slice_succ]
        rfl

theorem readMemberByIp_eq
    (room : Room)
    (hIn : ipStrMax ≤ p.length) :
    readMemberByIp room p =
      some (addMemberByIp room (ofList p)).2 := by
  have hSixteen : ipStrMax = 16 := rfl
  unfold readMemberByIp addMemberByIp
  by_cases hFull : memberMax ≤ room.memberCount
  · rw [if_pos hFull, if_pos hFull]
  · rw [if_neg hFull, if_neg hFull, readIp_eq (by omega)]
    dsimp only [Option.bind_eq_bind, Option.bind_some]
    rw [slice_length, storeBlock_read, view_zero]
    rfl

/- Every handler stays inside the payload. -/
theorem readReceived_eq
    (room : Room)
    (data : List UInt8) :
    readReceived room data =
      some (partyHandleReceived room (ofList data)
        data.length) := by
  unfold readReceived partyHandleReceived handleChat
  by_cases hEmpty : data.length < 1
  · rw [if_pos hEmpty, if_pos hEmpty]
  rw [if_neg hEmpty, if_neg hEmpty,
    getElem?_ofList (by omega)]
  have hLen : data.length - 1 = (data.drop 1).length :=
    (List.length_drop ..).symm
  dsimp only [Option.bind_eq_bind, Option.bind_some]
  rw [hLen, readRoomInfo_eq, readMemberList_eq, view_ofList]
  simp only [apply_ite some]
  by_cases hJoin :
      room.isHost ∧ ipStrMax ≤ (data.drop 1).length
  · rw [if_pos hJoin, if_pos hJoin,
      readMemberByIp_eq room hJoin.2]
    rfl
  · rw [if_neg hJoin, if_neg hJoin]
    rfl

theorem readPolled_eq
    (node : Node)
    (got : Received) :
    readPolled node got = some (handlePolled node got).room := by
  unfold readPolled handlePolled
  dsimp only
  generalize got.buffer.getD node.partyRxBuf = buf
  by_cases hData : 0 < got.rc ∧ got.outType = some typeData
  · have hSome : 0 < got.rc.toNat := by omega
    have hByte :
        (buf.slice 0 got.rc.toNat)[0]? = some (buf 0) :=
      slice_getElem? buf 0 _ 0 hSome
    have hAgree := agreeOn_ofList_slice buf got.rc.toNat
    rw [if_pos hData, hByte]
    dsimp only [Option.bind_eq_bind, Option.bind_some]
    rw [readReceived_eq, slice_length,
      ← partyHandleReceived_congr node.room hAgree]
    by_cases hKind : msgCreate ≤ buf 0 ∧ buf 0 ≤ msgRoomInfo
    · rw [if_pos hKind, if_pos ⟨hData.1, hData.2, hKind⟩]
    · rw [if_neg hKind, if_neg fun hAll => hKind hAll.2.2]
      rfl
  · rw [if_neg hData,
      if_neg fun hAll => hData ⟨hAll.1, hAll.2.1⟩]

/- A poll reads the bytes that were handed over, no others. -/
theorem readPoll_eq
    (packet : List UInt8)
    (node : Node) :
    readPoll packet node =
      some (partyPoll packet node).node.room := by
  unfold readPoll partyPoll
  by_cases hParty : node.partyInitialized = true
  · rw [if_neg (not_not.mpr hParty),
      if_neg (not_not.mpr hParty)]
    generalize transportReceive packet node.transport
      (some node.partyRxBuf) maxPayload (some 0) = got
    exact readPolled_eq node got
  · rw [if_pos hParty, if_pos hParty]

/-
  In every run the room stays well formed, and the next poll
  handles what is received from the received bytes alone.
-/
theorem party_wellFormed
    (calls : List PartyCall) :
    (nodeRun Node.boot calls).room.WellFormed ∧
      ∀ packet,
        readPoll packet (nodeRun Node.boot calls) =
          some (partyPoll packet
            (nodeRun Node.boot calls)).node.room :=
  ⟨nodeRun_wellFormed clearRoom_wellFormed calls,
    fun packet => readPoll_eq packet _⟩

end Reads

end Net

end AsmOS
