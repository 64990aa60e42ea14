import AsmOS.Base.StepRuns
import AsmOS.Net.PartyBounds

/-
  Which messages change a node's role.

  A whole room message makes any node a member that is not
  the host.  A list of members gives any node their count.
  Only the handler of joins looks at the role.

  Main declarations:
    * `EntersRoom`, `ListsSome`
    * `Node.polledData`, `partyPoll_room`
    * `keepsRole_iff`
-/

------------------------------------------------------------
-- Messages And Roles
------------------------------------------------------------

namespace AsmOS

namespace Net

open ByteMem StepRuns

/- The data is a whole room message. -/
def EntersRoom
    (data : List UInt8) : Prop :=
  ofList data 0 = msgRoomInfo ∧
    infoNameLen ((ofList data).view 1) + 3 ≤ data.length

/- The data is a list of at least one member. -/
def ListsSome
    (data : List UInt8) : Prop :=
  ofList data 0 = msgMemberList ∧ 2 ≤ data.length ∧
    ofList data 1 ≠ 0

section Messages

variable {room : Room} {data : List UInt8}

theorem dataRoom_nil
    (room : Room) :
    dataRoom room [] = room :=
  if_neg fun hAll => absurd hAll.1 (Nat.lt_irrefl 0)

theorem dataRoom_enters
    (room : Room)
    (hEnters : EntersRoom data) :
    (dataRoom room data).inRoom = true ∧
      (dataRoom room data).isHost = false := by
  rcases hEnters with ⟨hFirst, hWhole⟩
  rw [dataRoom_eq room (by omega) hFirst, if_pos rfl]
  unfold handleRoomInfo
  rw [if_neg (by omega)]
  dsimp only
  rw [if_neg (by omega)]
  exact ⟨rfl, rfl⟩

/- A member list changes neither the role nor the name. -/
theorem memberListLoop_role
    (p : ByteMem)
    (len n i off : Nat)
    (room : Room) :
    (memberListLoop p len n i off room).inRoom = room.inRoom ∧
      (memberListLoop p len n i off room).isHost =
        room.isHost ∧
      (memberListLoop p len n i off room).name = room.name ∧
      (memberListLoop p len n i off room).memberCount =
        room.memberCount := by
  induction n generalizing i off room with
  | zero => exact ⟨rfl, rfl, rfl, rfl⟩
  | succ n ih =>
      rw [memberListLoop]
      split
      · exact ih _ _ _
      · exact ⟨rfl, rfl, rfl, rfl⟩

/- Without a whole room message the role and the name stay. -/
theorem dataRoom_role
    (room : Room)
    (hNot : ¬ EntersRoom data) :
    (dataRoom room data).inRoom = room.inRoom ∧
      (dataRoom room data).isHost = room.isHost ∧
      (dataRoom room data).name = room.name := by
  by_cases hSome : 0 < data.length
  · generalize hFirst : ofList data 0 = first
    rw [dataRoom_eq room hSome hFirst]
    split
    · next hInfo =>
        have hShort :
            ¬ infoNameLen ((ofList data).view 1) + 3 ≤
              data.length :=
          fun hWhole => hNot ⟨hFirst.trans hInfo, hWhole⟩
        unfold handleRoomInfo
        split
        · exact ⟨rfl, rfl, rfl⟩
        · dsimp only
          rw [if_pos (by omega)]
          exact ⟨rfl, rfl, rfl⟩
    split
    · unfold handleMemberList
      split
      · exact ⟨rfl, rfl, rfl⟩
      · dsimp only
        have hLoop := memberListLoop_role
          ((ofList data).view 1) (data.length - 1)
          (min ((ofList data).view 1 0).toNat memberMax) 0 1
          { room with
            memberCount :=
              min ((ofList data).view 1 0).toNat memberMax }
        exact ⟨hLoop.1, hLoop.2.1, hLoop.2.2.1⟩
    split
    · unfold addMemberByIp
      split
      · exact ⟨rfl, rfl, rfl⟩
      · exact ⟨rfl, rfl, rfl⟩
    · exact ⟨rfl, rfl, rfl⟩
  · rw [List.eq_nil_of_length_eq_zero
      (Nat.eq_zero_of_not_pos hSome), dataRoom_nil]
    exact ⟨rfl, rfl, rfl⟩

theorem handleMemberList_count
    (room : Room)
    (p : ByteMem)
    (len : Nat) :
    (handleMemberList room p len).memberCount =
      if len < 1 then room.memberCount
      else min (p 0).toNat memberMax := by
  unfold handleMemberList
  split
  · rfl
  · exact (memberListLoop_role p len _ 0 1 _).2.2.2

/- No count comes from anything but a list with members. -/
theorem dataRoom_count_iff
    (hHost : room.isHost = false)
    (hCount : room.memberCount = 0)
    (hNot : ¬ EntersRoom data) :
    (dataRoom room data).memberCount = 0 ↔
      ¬ ListsSome data := by
  by_cases hSome : 0 < data.length
  · generalize hFirst : ofList data 0 = first
    have hNoJoin :
        ¬ (first = msgJoin ∧ room.isHost = true ∧
          ipStrMax ≤ data.length - 1) := by
      rintro ⟨_, hIsHost, _⟩
      rw [hHost] at hIsHost
      exact Bool.false_ne_true hIsHost
    rw [dataRoom_eq room hSome hFirst, if_neg hNoJoin]
    unfold ListsSome
    rw [hFirst]
    by_cases hInfo : first = msgRoomInfo
    · have hShort :
          ¬ infoNameLen ((ofList data).view 1) + 3 ≤
            data.length :=
        fun hWhole => hNot ⟨hFirst.trans hInfo, hWhole⟩
      have hSame :
          handleRoomInfo room ((ofList data).view 1)
            (data.length - 1) = room :=
        (handleRoomInfo_eq_self_iff _ _ _).mpr fun hLong =>
          absurd hLong (by omega)
      rw [if_pos hInfo, hSame, hInfo]
      exact iff_of_true hCount fun hLists =>
        absurd hLists.1 (by decide)
    rw [if_neg hInfo]
    by_cases hList : first = msgMemberList
    · have hByte : (ofList data).view 1 0 = ofList data 1 := rfl
      have hZero :
          ofList data 1 = 0 ↔ (ofList data 1).toNat = 0 := by
        rw [← UInt8.toNat_inj]
        rfl
      have hEight : memberMax = 8 := rfl
      rw [if_pos hList, handleMemberList_count, hCount, hByte,
        and_iff_right hList, Ne, hZero]
      split <;> omega
    · rw [if_neg hList]
      exact iff_of_true hCount fun hLists => hList hLists.1
  · rw [List.eq_nil_of_length_eq_zero
      (Nat.eq_zero_of_not_pos hSome), dataRoom_nil]
    exact iff_of_true hCount fun hLists =>
      absurd hLists.2.1 (by decide)

end Messages

------------------------------------------------------------
-- Data That Is Polled
------------------------------------------------------------

/- The data that a poll hands to the party. -/
def Node.polledData
    (node : Node)
    (packet : List UInt8) : Option (List UInt8) :=
  let got :=
    transportReceive packet node.transport
      (some node.partyRxBuf) maxPayload (some 0)
  if node.partyInitialized ∧ 0 < got.rc ∧
      got.outType = some typeData then
    some ((got.buffer.getD node.partyRxBuf).slice 0
      got.rc.toNat)
  else none

/- A poll changes the room by the data it hands over. -/
theorem partyPoll_room
    (packet : List UInt8)
    (node : Node) :
    (partyPoll packet node).node.room =
      match node.polledData packet with
      | none => node.room
      | some data => dataRoom node.room data := by
  unfold partyPoll Node.polledData
  by_cases hParty : node.partyInitialized = true
  · rw [if_neg (not_not.mpr hParty)]
    dsimp only
    generalize transportReceive packet node.transport
      (some node.partyRxBuf) maxPayload (some 0) = got
    unfold handlePolled
    dsimp only
    generalize got.buffer.getD node.partyRxBuf = buf
    by_cases hData : 0 < got.rc ∧ got.outType = some typeData
    · have hSome : 0 < got.rc.toNat := by omega
      have hAgree := agreeOn_ofList_slice buf got.rc.toNat
      have hHanded :
          (if node.partyInitialized ∧ 0 < got.rc ∧
              got.outType = some typeData then
            some (buf.slice 0 got.rc.toNat)
          else none) = some (buf.slice 0 got.rc.toNat) :=
        if_pos ⟨hParty, hData⟩
      rw [hHanded]
      unfold dataRoom
      dsimp only
      rw [slice_length, ← hAgree 0 le_rfl hSome,
        ← partyHandleReceived_congr node.room hAgree]
      by_cases hKind : msgCreate ≤ buf 0 ∧ buf 0 ≤ msgRoomInfo
      · rw [if_pos ⟨hData.1, hData.2, hKind⟩,
          if_pos ⟨hSome, hKind⟩]
      · rw [if_neg fun hAll => hKind hAll.2.2,
          if_neg fun hAll => hKind hAll.2]
    · rw [if_neg fun hAll => hData ⟨hAll.1, hAll.2.1⟩]
      have hNothing :
          (if node.partyInitialized ∧ 0 < got.rc ∧
              got.outType = some typeData then
            some (buf.slice 0 got.rc.toNat)
          else none) = none :=
        if_neg fun hAll => hData hAll.2
      rw [hNothing]
  · rw [if_pos hParty]
    dsimp only
    rw [if_neg fun hAll => hParty hAll.1]

------------------------------------------------------------
-- Roles
------------------------------------------------------------

/-
  A node outside a room has stayed there without members; a
  host has stayed the host of its room.
-/
structure KeepsRole
    (start node : Node) : Prop where
  outside :
    start.room.inRoom = false →
      node.room.inRoom = false ∧ node.room.memberCount = 0
  host :
    start.room.isHost = true →
      node.room.isHost = true ∧
        node.room.name = start.room.name

/- The packet carries no data that is meant for another role. -/
structure FitsRole
    (start node : Node)
    (packet : List UInt8) : Prop where
  outside :
    start.room.inRoom = false →
      ∀ data, node.polledData packet = some data →
        ¬ EntersRoom data ∧ ¬ ListsSome data
  host :
    start.room.isHost = true →
      ∀ data, node.polledData packet = some data →
        ¬ EntersRoom data

def pollStep
    (node : Node)
    (packet : List UInt8) : Option Node :=
  some (partyPoll packet node).node

section Roles

variable {start node : Node}

theorem keepsRole_data_iff
    (hRoom : node.room.WellFormed)
    (hKeeps : KeepsRole start node)
    {after : Node}
    {data : List UInt8}
    (hAfter : after.room = dataRoom node.room data) :
    KeepsRole start after ↔
      (start.room.inRoom = false →
        ¬ EntersRoom data ∧ ¬ ListsSome data) ∧
        (start.room.isHost = true → ¬ EntersRoom data) := by
  -- Outside of a room nobody is a host, so no join counts.
  have hNoHost :
      node.room.inRoom = false → node.room.isHost = false := by
    intro hOutside
    by_contra hHost
    rw [Bool.not_eq_false] at hHost
    exact Bool.false_ne_true
      (hOutside.symm.trans (hRoom.host hHost))
  constructor
  · rintro ⟨hOut, hHost⟩
    rw [hAfter] at hOut hHost
    refine ⟨fun hOutside => ?_, fun hIsHost hEnters => ?_⟩
    · have hBefore := hKeeps.outside hOutside
      have hNow := hOut hOutside
      have hNot : ¬ EntersRoom data := fun hEnters =>
        Bool.false_ne_true
          (hNow.1.symm.trans (dataRoom_enters _ hEnters).1)
      exact ⟨hNot,
        (dataRoom_count_iff (hNoHost hBefore.1) hBefore.2
          hNot).mp hNow.2⟩
    · exact Bool.false_ne_true
        ((dataRoom_enters _ hEnters).2.symm.trans
          (hHost hIsHost).1)
  · rintro ⟨hOut, hHost⟩
    refine ⟨fun hOutside => ?_, fun hIsHost => ?_⟩
    · have hBefore := hKeeps.outside hOutside
      rcases hOut hOutside with ⟨hNot, hNone⟩
      rw [hAfter]
      exact ⟨(dataRoom_role _ hNot).1.trans hBefore.1,
        (dataRoom_count_iff (hNoHost hBefore.1) hBefore.2
          hNot).mpr hNone⟩
    · have hBefore := hKeeps.host hIsHost
      have hSame := dataRoom_role node.room (hHost hIsHost)
      rw [hAfter]
      exact ⟨hSame.2.1.trans hBefore.1,
        hSame.2.2.trans hBefore.2⟩

/- One poll keeps the role exactly if the packet fits it. -/
theorem keepsRole_poll_iff
    (hRoom : node.room.WellFormed)
    (hKeeps : KeepsRole start node)
    (packet : List UInt8) :
    KeepsRole start (partyPoll packet node).node ↔
      FitsRole start node packet := by
  have hPoll := partyPoll_room packet node
  cases hData : node.polledData packet with
  | none =>
      rw [hData] at hPoll
      dsimp only at hPoll
      have hNone :
          ∀ data, ¬ node.polledData packet = some data := by
        simp [hData]
      refine iff_of_true ⟨?_, ?_⟩
        ⟨fun _ data hSome => absurd hSome (hNone data),
          fun _ data hSome => absurd hSome (hNone data)⟩
      · rw [hPoll]
        exact hKeeps.outside
      · rw [hPoll]
        exact hKeeps.host
  | some data =>
      rw [hData] at hPoll
      rw [keepsRole_data_iff hRoom hKeeps hPoll]
      have hOnly :
          ∀ other, node.polledData packet = some other →
            other = data := by
        simp [hData]
      constructor
      · rintro ⟨hOut, hHost⟩
        exact ⟨fun hOutside other hOther => by
            rw [hOnly other hOther]
            exact hOut hOutside,
          fun hIsHost other hOther => by
            rw [hOnly other hOther]
            exact hHost hIsHost⟩
      · intro hFits
        exact ⟨fun hOutside => hFits.outside hOutside data hData,
          fun hIsHost => hFits.host hIsHost data hData⟩

/-
  From every state a node can reach: its role stays through
  a sequence of polls exactly if every packet fits it, and
  it starts without members if it starts outside a room.
-/
theorem keepsRole_iff
    (calls : List PartyCall)
    (packets : List (List UInt8)) :
    EveryState pollStep
        (KeepsRole (nodeRun Node.boot calls))
        (nodeRun Node.boot calls) packets ↔
      ((nodeRun Node.boot calls).room.inRoom = false →
        (nodeRun Node.boot calls).room.memberCount = 0) ∧
      EveryStep pollStep
        (FitsRole (nodeRun Node.boot calls))
        (nodeRun Node.boot calls) packets := by
  have hRoom : (nodeRun Node.boot calls).room.WellFormed :=
    nodeRun_wellFormed clearRoom_wellFormed calls
  generalize nodeRun Node.boot calls = start at hRoom ⊢
  have hStep :
      ∀ node packet after, node.room.WellFormed →
        KeepsRole start node →
        pollStep node packet = some after →
          after.room.WellFormed ∧
            (KeepsRole start after ↔
              FitsRole start node packet) := by
    intro node packet after hNode hKeeps hNext
    cases hNext
    exact ⟨run_wellFormed hNode (.poll packet),
      keepsRole_poll_iff hNode hKeeps packet⟩
  have hFirst :
      KeepsRole start start ↔
        (start.room.inRoom = false →
          start.room.memberCount = 0) :=
    ⟨fun hKeeps hOutside => (hKeeps.outside hOutside).2,
      fun hNone =>
        ⟨fun hOutside => ⟨hOutside, hNone hOutside⟩,
          fun hIsHost => ⟨hIsHost, rfl⟩⟩⟩
  rw [← hFirst]
  constructor
  · intro hAll
    have hKeeps : KeepsRole start start := by
      cases packets with
      | nil => exact hAll
      | cons packet packets => exact hAll.1
    exact ⟨hKeeps,
      (everyState_iff_everyStep hStep hRoom hKeeps packets).mp
        hAll⟩
  · rintro ⟨hKeeps, hFits⟩
    exact (everyState_iff_everyStep hStep hRoom hKeeps
      packets).mpr hFits

/- A room message: no name, one member. -/
def namelessInfo : List UInt8 :=
  [0x01, 0, 0, 0, 3, 0, 0, 0, 0x01, 0xC1, 0, 0, 7, 0, 1]

/- It takes a node into a room that it never joined. -/
theorem not_keepsRole_namelessInfo :
    ¬ ∀ calls packets,
      EveryState pollStep
        (KeepsRole (nodeRun Node.boot calls))
        (nodeRun Node.boot calls) packets := by
  intro hAlways
  have hRun := hAlways [.init] [namelessInfo]
  have hKeeps := hRun.2 _ rfl
  have hOutside := (hKeeps.outside rfl).1
  have hInside :
      (partyPoll namelessInfo
        (nodeRun Node.boot [.init])).node.room.inRoom = true := by
    decide +kernel
  exact Bool.false_ne_true (hOutside.symm.trans hInside)

end Roles

end Net

end AsmOS
