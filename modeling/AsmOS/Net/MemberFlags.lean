import AsmOS.Net.PartyRoles

/-
  When the member count of a room counts its members.

  The local calls and joins add a member and its flag
  together.  A room message brings a count without flags, and
  a list of members may name fewer than it announces or leave
  flags of an earlier one behind.

  Main declarations:
    * `Room.CountsMembers`
    * `KeepsCount`, `dataRoom_countsMembers_iff`
    * `membersCounted_iff`
-/

------------------------------------------------------------
-- Counted Members
------------------------------------------------------------

namespace AsmOS

namespace Net

open ByteMem StepRuns

/- The members below the count are active, and no others. -/
def Room.CountsMembers
    (room : Room) : Prop :=
  ∀ i < memberMax,
    (room.members i).active =
      if i < room.memberCount then 1 else 0

/-
  A room message has the count of the room.  A list is not of
  fewer members, and carries all that it announces when it is
  of more.
-/
structure KeepsCount
    (room : Room)
    (data : List UInt8) : Prop where
  info :
    EntersRoom data →
      min (ofList data
          (2 + infoNameLen ((ofList data).view 1))).toNat
        memberMax = room.memberCount
  list :
    ofList data 0 = msgMemberList → 2 ≤ data.length →
      room.memberCount ≤ min (ofList data 1).toNat memberMax ∧
        (room.memberCount <
            min (ofList data 1).toNat memberMax →
          2 + ipStrMax * min (ofList data 1).toNat memberMax ≤
            data.length)

section Rooms

variable {room : Room}

theorem clearRoom_countsMembers :
    clearRoom.CountsMembers := by
  intro i _
  exact (if_neg (Nat.not_lt_zero i)).symm

/- The member behind the last one becomes active. -/
theorem appendMember_countsMembers
    (hCounts : room.CountsMembers)
    (ip : ByteMem) :
    (appendMember room ip).CountsMembers := by
  intro i hi
  have hOld := hCounts i hi
  unfold appendMember Room.setMember
  dsimp only
  by_cases hNew : i = room.memberCount
  · rw [if_pos hNew, if_pos (by omega)]
  · rw [if_neg hNew, hOld]
    by_cases hBelow : i < room.memberCount
    · rw [if_pos hBelow, if_pos (by omega)]
    · rw [if_neg hBelow, if_neg (by omega)]

theorem addMemberByIp_countsMembers
    (hCounts : room.CountsMembers)
    (ip : ByteMem) :
    (addMemberByIp room ip).2.CountsMembers := by
  unfold addMemberByIp
  split
  · exact hCounts
  · exact appendMember_countsMembers hCounts ip

theorem ownRoom_countsMembers
    (name : ByteMem)
    (isHost : Bool) :
    (ownRoom name isHost).CountsMembers := by
  intro i _
  unfold ownRoom Room.setMember
  dsimp only
  by_cases hFirst : i = 0
  · rw [if_pos hFirst, if_pos (by omega)]
  · rw [if_neg hFirst, if_neg (by omega)]
    rfl

/-
  Flags set for the members that a message carries: the count
  of the message is theirs exactly if it is not below the old
  one and the new members are all carried.
-/
theorem countsMembers_carried_iff
    (hCounts : room.CountsMembers)
    (hCount : room.memberCount ≤ memberMax)
    {room' : Room}
    (hCount' : room'.memberCount ≤ memberMax)
    (carried : Nat)
    (hFlags :
      ∀ i < memberMax,
        (room'.members i).active =
          if i < room'.memberCount ∧ i < carried then 1
          else (room.members i).active) :
    room'.CountsMembers ↔
      room.memberCount ≤ room'.memberCount ∧
        (room.memberCount < room'.memberCount →
          room'.memberCount ≤ carried) := by
  have hNe : (1 : UInt8) ≠ 0 := by decide
  constructor
  · intro hCounts'
    constructor
    · by_contra hFewer
      have hOld := hCounts room'.memberCount (by omega)
      have hNew := hCounts' room'.memberCount (by omega)
      rw [if_pos (by omega)] at hOld
      rw [hFlags _ (by omega), if_neg (by omega), hOld,
        if_neg (by omega)] at hNew
      exact hNe hNew
    · intro hMore
      by_contra hMissing
      have hOld :=
        hCounts (room'.memberCount - 1) (by omega)
      have hNew :=
        hCounts' (room'.memberCount - 1) (by omega)
      rw [if_neg (by omega)] at hOld
      rw [hFlags _ (by omega), if_neg (by omega), hOld,
        if_pos (by omega)] at hNew
      exact hNe hNew.symm
  · rintro ⟨hNotFewer, hCarried⟩ i hi
    rw [hFlags i hi, hCounts i hi]
    by_cases hBelow : i < room'.memberCount
    · rw [if_pos hBelow]
      by_cases hSet : i < carried
      · rw [if_pos ⟨hBelow, hSet⟩]
      · rw [if_neg fun hBoth => hSet hBoth.2,
          if_pos (by omega)]
    · rw [if_neg hBelow, if_neg fun hBoth => hBelow hBoth.1,
        if_neg (by omega)]

end Rooms

------------------------------------------------------------
-- Received Data
------------------------------------------------------------

section Data

variable {room : Room} {data : List UInt8}

/- A room message replaces the count and no flag. -/
theorem handleRoomInfo_countsMembers_iff
    (hRoom : room.WellFormed)
    (hCounts : room.CountsMembers)
    (hEnters : EntersRoom data) :
    (handleRoomInfo room ((ofList data).view 1)
        (data.length - 1)).CountsMembers ↔
      min (ofList data
          (2 + infoNameLen ((ofList data).view 1))).toNat
        memberMax = room.memberCount := by
  rcases hEnters with ⟨_, hWhole⟩
  have hByte :
      (ofList data).view 1
          (1 + infoNameLen ((ofList data).view 1)) =
        ofList data
          (2 + infoNameLen ((ofList data).view 1)) := by
    rw [view_apply, ← Nat.add_assoc]
  unfold handleRoomInfo
  rw [if_neg (by omega)]
  dsimp only
  rw [if_neg (by omega), hByte]
  refine (countsMembers_carried_iff hCounts hRoom.count
    (Nat.min_le_right _ _) 0 ?_).trans ?_
  · intro i _
    exact (if_neg fun hNone => Nat.not_lt_zero i hNone.2).symm
  · dsimp only
    omega

/- A list replaces the count and the flags it carries. -/
theorem handleMemberList_countsMembers_iff
    (hRoom : room.WellFormed)
    (hCounts : room.CountsMembers)
    (hSome : 2 ≤ data.length) :
    (handleMemberList room ((ofList data).view 1)
        (data.length - 1)).CountsMembers ↔
      room.memberCount ≤ min (ofList data 1).toNat memberMax ∧
        (room.memberCount <
            min (ofList data 1).toNat memberMax →
          2 + ipStrMax * min (ofList data 1).toNat memberMax ≤
            data.length) := by
  have hByte : (ofList data).view 1 0 = ofList data 1 := rfl
  have hSixteen : ipStrMax = 16 := rfl
  unfold handleMemberList
  rw [if_neg (by omega)]
  dsimp only
  rw [memberListLoop_eq, hByte]
  simp only [Nat.zero_le, Nat.zero_add, true_and, Nat.sub_zero]
  refine (countsMembers_carried_iff hCounts hRoom.count
    (Nat.min_le_right _ _) ((data.length - 2) / ipStrMax)
    ?_).trans ?_
  · intro i _
    dsimp only
    have hIff :
        1 + ipStrMax * (i + 1) ≤ data.length - 1 ↔
          i < (data.length - 2) / ipStrMax := by
      rw [hSixteen]
      omega
    by_cases hSet :
        i < min (ofList data 1).toNat memberMax ∧
          i < (data.length - 2) / ipStrMax
    · rw [if_pos ⟨hSet.1, hIff.mpr hSet.2⟩, if_pos hSet]
    · rw [if_neg fun hBoth =>
          hSet ⟨hBoth.1, hIff.mp hBoth.2⟩,
        if_neg hSet]
  · dsimp only
    rw [hSixteen]
    omega

/- The room message keeps the count by its count byte. -/
theorem roomInfo_countsMembers_iff
    (hRoom : room.WellFormed)
    (hCounts : room.CountsMembers)
    {data : List UInt8}
    (hFirst : ofList data 0 = msgRoomInfo) :
    (handleRoomInfo room ((ofList data).view 1)
        (data.length - 1)).CountsMembers ↔
      KeepsCount room data := by
  have hNotList : ofList data 0 ≠ msgMemberList := by
    rw [hFirst]
    decide
  by_cases hEnters : EntersRoom data
  · rw [handleRoomInfo_countsMembers_iff hRoom hCounts hEnters]
    exact ⟨fun hSame =>
        ⟨fun _ => hSame, fun hList => absurd hList hNotList⟩,
      fun hKeeps => hKeeps.info hEnters⟩
  · have hSame :
        handleRoomInfo room ((ofList data).view 1)
          (data.length - 1) = room :=
      (handleRoomInfo_eq_self_iff _ _ _).mpr fun hLong =>
        absurd ⟨hFirst, by omega⟩ hEnters
    rw [hSame]
    exact iff_of_true hCounts
      ⟨fun hIs => absurd hIs hEnters,
        fun hList => absurd hList hNotList⟩

/- The member list keeps it by what it carries. -/
theorem memberList_countsMembers_iff
    (hRoom : room.WellFormed)
    (hCounts : room.CountsMembers)
    {data : List UInt8}
    (hFirst : ofList data 0 = msgMemberList) :
    (handleMemberList room ((ofList data).view 1)
        (data.length - 1)).CountsMembers ↔
      KeepsCount room data := by
  have hNotEnters : ¬ EntersRoom data := by
    intro hEnters
    have hSame := hFirst.symm.trans hEnters.1
    exact absurd hSame (by decide)
  by_cases hLong : 2 ≤ data.length
  · rw [handleMemberList_countsMembers_iff hRoom hCounts hLong]
    exact ⟨fun hCarries =>
        ⟨fun hEnters => absurd hEnters hNotEnters,
          fun _ _ => hCarries⟩,
      fun hKeeps => hKeeps.list hFirst hLong⟩
  · have hSame :
        handleMemberList room ((ofList data).view 1)
          (data.length - 1) = room :=
      (handleMemberList_eq_self_iff _ _ _).mpr fun hOne =>
        absurd hOne (by omega)
    rw [hSame]
    exact iff_of_true hCounts
      ⟨fun hEnters => absurd hEnters hNotEnters,
        fun _ hTwo => absurd hTwo hLong⟩

/-
  Received data leaves the members counted exactly if it
  keeps the count.
-/
theorem dataRoom_countsMembers_iff
    (hRoom : room.WellFormed)
    (hCounts : room.CountsMembers)
    (data : List UInt8) :
    (dataRoom room data).CountsMembers ↔
      KeepsCount room data := by
  by_cases hSome : 0 < data.length
  swap
  · have hNil :=
      List.eq_nil_of_length_eq_zero (Nat.eq_zero_of_not_pos hSome)
    subst hNil
    rw [dataRoom_nil]
    exact iff_of_true hCounts
      ⟨fun hEnters => absurd hEnters.1 (by decide),
        fun _ hLong => absurd hLong (by decide)⟩
  rw [dataRoom_eq room hSome rfl]
  by_cases hInfo : ofList data 0 = msgRoomInfo
  · rw [if_pos hInfo]
    exact roomInfo_countsMembers_iff hRoom hCounts hInfo
  rw [if_neg hInfo]
  by_cases hList : ofList data 0 = msgMemberList
  · rw [if_pos hList]
    exact memberList_countsMembers_iff hRoom hCounts hList
  rw [if_neg hList]
  refine iff_of_true ?_
    ⟨fun hEnters => absurd hEnters.1 hInfo,
      fun hIs => absurd hIs hList⟩
  split
  · exact addMemberByIp_countsMembers hCounts _
  · exact hCounts

end Data

------------------------------------------------------------
-- Runs
------------------------------------------------------------

def callStep
    (node : Node)
    (call : PartyCall) : Option Node :=
  some (call.run node)

/- What is polled keeps the count; local calls always do. -/
def CallKeepsCount
    (node : Node) : PartyCall → Prop
| .poll packet =>
    ∀ data, node.polledData packet = some data →
      KeepsCount node.room data
| _ => True

section Runs

variable {node : Node}

theorem partyPoll_countsMembers_iff
    (hRoom : node.room.WellFormed)
    (hCounts : node.room.CountsMembers)
    (packet : List UInt8) :
    (partyPoll packet node).node.room.CountsMembers ↔
      CallKeepsCount node (.poll packet) := by
  have hPoll := partyPoll_room packet node
  unfold CallKeepsCount
  cases hData : node.polledData packet with
  | none =>
      have hNone :
          ∀ data, ¬ node.polledData packet = some data := by
        simp [hData]
      rw [hData] at hPoll
      rw [hPoll]
      exact iff_of_true hCounts fun data hSome =>
        absurd hSome (hNone data)
  | some data =>
      have hOnly :
          ∀ other, node.polledData packet = some other →
            other = data := by
        simp [hData]
      rw [hData] at hPoll
      rw [hPoll, dataRoom_countsMembers_iff hRoom hCounts]
      constructor
      · intro hKeeps other hOther
        rw [hOnly other hOther]
        exact hKeeps
      · intro hKeeps
        exact hKeeps data hData

theorem partyInvite_countsMembers
    (hCounts : node.room.CountsMembers)
    (driver : List UInt8 → Int)
    (ip : Option ByteMem) :
    (partyInvite driver ip node).node.room.CountsMembers := by
  unfold partyInvite
  split
  · exact hCounts
  · cases ip with
    | none => exact hCounts
    | some p =>
        dsimp only
        rw [sendPartyMsg_room]
        exact appendMember_countsMembers hCounts p

/- One call keeps the members counted under its condition. -/
theorem run_countsMembers_iff
    (hRoom : node.room.WellFormed)
    (hCounts : node.room.CountsMembers)
    (call : PartyCall) :
    (call.run node).room.CountsMembers ↔
      CallKeepsCount node call := by
  cases call with
  | init =>
      refine iff_of_true ?_ trivial
      unfold PartyCall.run partyInit
      dsimp only
      split
      · exact hCounts
      · exact clearRoom_countsMembers
  | create driver name =>
      refine iff_of_true ?_ trivial
      unfold PartyCall.run partyCreate
      dsimp only
      split
      · exact hCounts
      · dsimp only
        rw [sendPartyMsg_room]
        exact ownRoom_countsMembers _ true
  | invite driver ip =>
      exact iff_of_true
        (partyInvite_countsMembers hCounts driver ip) trivial
  | join driver =>
      refine iff_of_true ?_ trivial
      unfold PartyCall.run partyJoin
      dsimp only
      split
      · exact hCounts
      · dsimp only
        rw [sendPartyMsg_room]
        exact ownRoom_countsMembers _ false
  | leave driver =>
      exact iff_of_true clearRoom_countsMembers trivial
  | chat driver msg =>
      refine iff_of_true ?_ trivial
      unfold PartyCall.run
      dsimp only
      rw [partyChat_room]
      exact hCounts
  | poll packet =>
      exact partyPoll_countsMembers_iff hRoom hCounts packet

/-
  The count counts the members in every state of a run
  exactly if every message that is received keeps the count.
-/
theorem membersCounted_iff
    (calls : List PartyCall) :
    EveryState callStep (fun node => node.room.CountsMembers)
        Node.boot calls ↔
      StepRuns.EveryStep callStep CallKeepsCount Node.boot calls := by
  have hStep :
      ∀ node call after, node.room.WellFormed →
        node.room.CountsMembers →
        callStep node call = some after →
          after.room.WellFormed ∧
            (after.room.CountsMembers ↔
              CallKeepsCount node call) := by
    intro node call after hRoom hCounts hNext
    cases hNext
    exact ⟨run_wellFormed hRoom call,
      run_countsMembers_iff hRoom hCounts call⟩
  have hBoot : Node.boot.room.WellFormed :=
    clearRoom_wellFormed
  exact everyState_iff_everyStep hStep hBoot
    clearRoom_countsMembers calls

end Runs

/- A room message gives a new node a member without a flag. -/
theorem not_membersCounted :
    ¬ ∀ calls,
      EveryState callStep (fun node => node.room.CountsMembers)
        Node.boot calls := by
  intro hAlways
  have hRun := hAlways [.init, .poll namelessInfo]
  have hLast :=
    (hRun.2 _ rfl).2 (partyPoll namelessInfo
      (partyInit Node.boot)).node rfl
  have hFlag :
      ((partyPoll namelessInfo
        (partyInit Node.boot)).node.room.members 0).active = 0 := by
    decide +kernel
  have hCount :
      (partyPoll namelessInfo
        (partyInit Node.boot)).node.room.memberCount = 1 := by
    decide +kernel
  have hFirst := hLast 0 (by decide)
  rw [hFlag, hCount] at hFirst
  exact absurd hFirst (by decide)

end Net

end AsmOS
