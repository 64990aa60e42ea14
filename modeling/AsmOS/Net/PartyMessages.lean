import AsmOS.Net.Acceptance
import AsmOS.Net.Party

/-
  What a delivered message does to a room.

  Main declarations:
    * `dataRoom`, `partyPoll_holds`
    * `Harmless`, `dataRoom_eq_self_iff`
-/

------------------------------------------------------------
-- Bytes A Handler Reads
------------------------------------------------------------

namespace AsmOS

namespace Net

open ByteMem

variable {room : Room} {buf buf' p p' : ByteMem} {n len : Nat}

theorem strnlen_congr
    (hAgree : AgreeOn p p' 0 n) :
    strnlen p n = strnlen p' n := by
  induction n generalizing p p' with
  | zero => rfl
  | succ n ih =>
      have hHead : p 0 = p' 0 :=
        hAgree 0 (Nat.le_refl 0) (Nat.succ_pos n)
      have hTail :
          strnlen (p.view 1) n = strnlen (p'.view 1) n :=
        ih (hAgree.view 1 (by omega) (by omega))
      rw [strnlen, strnlen, hHead, hTail]

theorem strnlen_le
    (p : ByteMem)
    (n : Nat) :
    strnlen p n ≤ n := by
  induction n generalizing p with
  | zero => exact Nat.le_refl 0
  | succ n ih =>
      have hTail := ih (p.view 1)
      rw [strnlen]
      split
      · exact Nat.zero_le _
      · omega

theorem copyIp_congr
    (ip : ByteMem)
    (hAgree : AgreeOn p p' 0 ipStrMax) :
    copyIp ip p = copyIp ip p' := by
  have hChars : AgreeOn p p' 0 (ipStrMax - 1) :=
    hAgree.mono (Nat.le_refl 0) (Nat.sub_le _ _)
  have hLen := strnlen_congr hChars
  have hBound := strnlen_le p' (ipStrMax - 1)
  unfold copyIp
  dsimp only
  rw [hLen,
    storeBlock_congr (hChars.mono (Nat.le_refl 0) hBound)]

theorem addMemberByIp_congr
    (room : Room)
    (hAgree : AgreeOn p p' 0 ipStrMax) :
    addMemberByIp room p = addMemberByIp room p' := by
  unfold addMemberByIp appendMember
  dsimp only
  rw [copyIp_congr _ hAgree]

theorem handleRoomInfo_congr
    (room : Room)
    (hAgree : AgreeOn p p' 0 len) :
    handleRoomInfo room p len = handleRoomInfo room p' len := by
  unfold handleRoomInfo
  by_cases hEmpty : len < 1
  · rw [if_pos hEmpty, if_pos hEmpty]
  rw [if_neg hEmpty, if_neg hEmpty]
  have hLen : infoNameLen p = infoNameLen p' := by
    unfold infoNameLen
    rw [hAgree 0 (by omega) (by omega)]
  dsimp only
  rw [hLen]
  by_cases hShort : len < 1 + infoNameLen p' + 1
  · rw [if_pos hShort, if_pos hShort]
  · have hName :
        AgreeOn (p.view 1) (p'.view 1) 0 (infoNameLen p') :=
      hAgree.view 1 (by omega) (by omega)
    rw [if_neg hShort, if_neg hShort, storeBlock_congr hName,
      hAgree (1 + infoNameLen p') (by omega) (by omega)]

theorem memberListLoop_congr
    (hAgree : AgreeOn p p' 0 len)
    (n i off : Nat)
    (room : Room) :
    memberListLoop p len n i off room =
      memberListLoop p' len n i off room := by
  induction n generalizing i off room with
  | zero => rfl
  | succ n ih =>
      rw [memberListLoop, memberListLoop]
      by_cases hRoom : off + ipStrMax ≤ len
      · have hIp :
            listedIp (room.members i).ip p off =
              listedIp (room.members i).ip p' off := by
          have hSixteen : ipStrMax = 16 := rfl
          unfold listedIp
          rw [storeBlock_congr
            (hAgree.view off (by omega) (by omega))]
        rw [if_pos hRoom, if_pos hRoom, hIp, ih]
      · rw [if_neg hRoom, if_neg hRoom]

theorem handleMemberList_congr
    (room : Room)
    (hAgree : AgreeOn p p' 0 len) :
    handleMemberList room p len =
      handleMemberList room p' len := by
  unfold handleMemberList
  by_cases hEmpty : len < 1
  · rw [if_pos hEmpty, if_pos hEmpty]
  · rw [if_neg hEmpty, if_neg hEmpty,
      hAgree 0 (by omega) (by omega),
      memberListLoop_congr hAgree]

/- A message is handled by its own bytes. -/
theorem partyHandleReceived_congr
    (room : Room)
    (hAgree : AgreeOn buf buf' 0 n) :
    partyHandleReceived room buf n =
      partyHandleReceived room buf' n := by
  unfold partyHandleReceived
  by_cases hEmpty : n < 1
  · rw [if_pos hEmpty, if_pos hEmpty]
  rw [if_neg hEmpty, if_neg hEmpty]
  have hType : buf 0 = buf' 0 :=
    hAgree 0 (Nat.le_refl 0) (by omega)
  have hRest :
      AgreeOn (buf.view 1) (buf'.view 1) 0 (n - 1) :=
    hAgree.view 1 (by omega) (by omega)
  dsimp only
  rw [hType, handleRoomInfo_congr room hRest,
    handleMemberList_congr room hRest]
  by_cases hJoin : room.isHost ∧ ipStrMax ≤ n - 1
  · have hIp :
        AgreeOn (buf.view 1) (buf'.view 1) 0 ipStrMax :=
      hRest.mono (Nat.le_refl 0) hJoin.2
    rw [addMemberByIp_congr room hIp]
    rfl
  · rw [if_neg hJoin, if_neg hJoin]
    rfl

------------------------------------------------------------
-- Polls
------------------------------------------------------------

/- The room of a node that polled a packet with `data`. -/
def dataRoom
    (room : Room)
    (data : List UInt8) : Room :=
  if 0 < data.length ∧ msgCreate ≤ ofList data 0 ∧
      ofList data 0 ≤ msgRoomInfo then
    partyHandleReceived room (ofList data) data.length
  else room

theorem ofList_of_slice
    {m : ByteMem}
    {data : List UInt8}
    (hSlice : m.slice 0 data.length = data) :
    AgreeOn m (ofList data) 0 data.length := by
  intro x _ hx
  rw [← hSlice]
  rw [ofList_slice m 0 _ x (by simpa using hx), Nat.zero_add]

/- A call that took a packet leaves its data to the party. -/
theorem handlePolled_room
    {node : Node}
    {got : Received}
    {type : UInt8}
    {data : List UInt8}
    (hRc : got.rc = data.length)
    (hType : got.outType = some type)
    {out : ByteMem}
    (hBuffer : got.buffer = some out)
    (hData : out.slice 0 data.length = data) :
    (handlePolled node got).room =
      if type = typeData then dataRoom node.room data
      else node.room := by
  have hAgree := ofList_of_slice hData
  unfold handlePolled
  dsimp only
  rw [hRc, hType, hBuffer, Option.getD_some, Int.toNat_natCast]
  by_cases hKind : type = typeData
  · rw [if_pos hKind]
    unfold dataRoom
    by_cases hSome : 0 < data.length
    · rw [hAgree 0 (Nat.le_refl 0) hSome]
      by_cases hFirst :
          msgCreate ≤ ofList data 0 ∧
            ofList data 0 ≤ msgRoomInfo
      · rw [if_pos ⟨by omega, by rw [hKind], hFirst⟩,
          if_pos ⟨hSome, hFirst⟩,
          ← partyHandleReceived_congr _ hAgree]
      · rw [if_neg fun hAll => hFirst hAll.2.2,
          if_neg fun hAll => hFirst hAll.2]
    · rw [if_neg fun hAll => hSome (by omega),
        if_neg fun hAll => hSome hAll.1]
  · rw [if_neg hKind,
      if_neg fun hAll => hKind (Option.some.inj hAll.2.1)]

/- A call that took nothing leaves the party alone. -/
theorem handlePolled_rejected
    {node : Node}
    {got : Received}
    (hRc : got.rc = -1) :
    (handlePolled node got).room = node.room := by
  unfold handlePolled
  dsimp only
  rw [hRc, if_neg fun hAll => absurd hAll.1 (by decide)]

/- A packet of any type that is delivered whole. -/
theorem partyPoll_holds
    {frame : ByteMem}
    {type : UInt8}
    {seq : UInt16}
    {data : List UInt8}
    (hHolds : HoldsPacket frame type seq data)
    (hLen : data.length ≤ maxPayload)
    (pad : List UInt8)
    {node : Node}
    (hParty : node.partyInitialized = true)
    (hInit : node.transport.initialized = true) :
    (partyPoll
        (frame.slice 0 (headerSize + data.length) ++ pad)
        node).node.room =
      if type = typeData then dataRoom node.room data
      else node.room := by
  rcases deliver_holds node.transport pad hHolds hLen with
    ⟨got, hGot, hWhole, hDelivered⟩
  have hReceive :=
    transportReceive_accepts node.partyRxBuf 0 hInit hGot hWhole
      hDelivered hLen hLen
  rcases acceptPacket_holds node.partyRxBuf hDelivered with
    ⟨hRc, hType, _, out, hBuffer, hData⟩
  rw [← hReceive] at hRc hType hBuffer
  unfold partyPoll
  rw [if_neg (not_not.mpr hParty)]
  exact handlePolled_room hRc hType hBuffer hData

/- A rejected frame leaves the room alone. -/
theorem partyPoll_rejected
    {packet : List UInt8}
    {node : Node}
    (hRejected :
      node.partyInitialized = true →
        (transportReceive packet node.transport
          (some node.partyRxBuf) maxPayload (some 0)).rc = -1) :
    (partyPoll packet node).node.room = node.room := by
  unfold partyPoll
  by_cases hParty : node.partyInitialized = true
  · rw [if_neg (not_not.mpr hParty)]
    exact handlePolled_rejected (hRejected hParty)
  · rw [if_pos hParty]

------------------------------------------------------------
-- Messages That Change Nothing
------------------------------------------------------------

/- The room is already as the room message says. -/
structure HasInfo
    (room : Room)
    (p : ByteMem) : Prop where
  name_eq : AgreeOn room.name (p.view 1) 0 (infoNameLen p)
  name_end : room.name (infoNameLen p) = 0
  count_eq :
    room.memberCount =
      min (p (1 + infoNameLen p)).toNat memberMax
  not_host : room.isHost = false
  in_room : room.inRoom = true

/- The members are already as the list says. -/
structure ListsMembers
    (room : Room)
    (p : ByteMem)
    (len : Nat) : Prop where
  count_eq : room.memberCount = min (p 0).toNat memberMax
  members_eq :
    ∀ i < min (p 0).toNat memberMax,
      1 + ipStrMax * (i + 1) ≤ len →
        AgreeOn (room.members i).ip
            (p.view (1 + ipStrMax * i)) 0 (ipStrMax - 1) ∧
          (room.members i).ip (ipStrMax - 1) = 0 ∧
          (room.members i).active = 1

/-
  Data that a room takes no change from: it is too short for
  the message its first byte names, or a join to a full room
  or by a node that is not the host, or it tells the room
  nothing new.
-/
structure Harmless
    (room : Room)
    (data : List UInt8) : Prop where
  join :
    ofList data 0 = msgJoin →
      ¬ (room.isHost = true ∧ ipStrMax + 1 ≤ data.length ∧
        room.memberCount < memberMax)
  list :
    ofList data 0 = msgMemberList →
      2 ≤ data.length →
        ListsMembers room ((ofList data).view 1)
          (data.length - 1)
  info :
    ofList data 0 = msgRoomInfo →
      infoNameLen ((ofList data).view 1) + 3 ≤ data.length →
        HasInfo room ((ofList data).view 1)

/- Storing what is there already changes nothing. -/
theorem storeString_eq_self_iff
    (m src : ByteMem)
    (n : Nat) :
    storeByte (storeBlock m 0 n src) n 0 = m ↔
      AgreeOn m src 0 n ∧ m n = 0 := by
  constructor
  · intro hSame
    constructor
    · intro x hx hx'
      rw [← hSame, storeByte_of_ne _ _ (by omega),
        storeBlock_inside hx (by omega), Nat.sub_zero]
    · rw [← hSame, storeByte_self]
  · rintro ⟨hAgree, hEnd⟩
    funext x
    by_cases hLast : x = n
    · rw [hLast, storeByte_self, hEnd]
    rw [storeByte_of_ne _ _ hLast]
    by_cases hIn : x < n
    · rw [storeBlock_inside (Nat.zero_le x) (by omega),
        Nat.sub_zero, hAgree x (Nat.zero_le x) hIn]
    · exact storeBlock_outside (by omega)

theorem handleRoomInfo_eq_self_iff
    (room : Room)
    (p : ByteMem)
    (len : Nat) :
    handleRoomInfo room p len = room ↔
      (infoNameLen p + 2 ≤ len → HasInfo room p) := by
  have hLong :
      (¬ len < 1 ∧ ¬ len < 1 + infoNameLen p + 1) ↔
        infoNameLen p + 2 ≤ len := by
    omega
  unfold handleRoomInfo
  dsimp only
  rw [ite_eq_left_iff, ite_eq_left_iff, ← and_imp, hLong]
  refine imp_congr_right fun _ => ⟨fun hSame => ?_, ?_⟩
  · have hName := congrArg Room.name hSame
    rcases (storeString_eq_self_iff _ _ _).mp hName with
      ⟨hAgree, hEnd⟩
    exact ⟨hAgree, hEnd, (congrArg Room.memberCount hSame).symm,
      (congrArg Room.isHost hSame).symm,
      (congrArg Room.inRoom hSame).symm⟩
  · rintro ⟨hAgree, hEnd, hCount, hHost, hIn⟩
    rw [(storeString_eq_self_iff _ _ _).mpr ⟨hAgree, hEnd⟩,
      ← hCount, ← hHost, ← hIn]

/- The entries that a list of `n` more members sets. -/
theorem memberListLoop_eq
    (p : ByteMem)
    (len n i off : Nat)
    (room : Room) :
    memberListLoop p len n i off room =
      { room with
        members := fun k =>
          if i ≤ k ∧ k < i + n ∧
              off + ipStrMax * (k - i + 1) ≤ len then
            ⟨listedIp (room.members k).ip p
              (off + ipStrMax * (k - i)), 1⟩
          else room.members k } := by
  simp only [ipStrMax]
  induction n generalizing i off room with
  | zero =>
      have hNone :
          (fun k =>
            if i ≤ k ∧ k < i + 0 ∧
                off + 16 * (k - i + 1) ≤ len then
              (⟨listedIp (room.members k).ip p
                (off + 16 * (k - i)), 1⟩ : Member)
            else room.members k) = room.members := by
        funext k
        rw [if_neg (by omega)]
      rw [hNone]
      rfl
  | succ n ih =>
      rw [memberListLoop]
      simp only [ipStrMax]
      by_cases hRoom : off + 16 ≤ len
      · rw [if_pos hRoom, ih]
        unfold Room.setMember
        simp only [Room.mk.injEq, true_and, and_true]
        funext k
        by_cases hFirst : k = i
        · subst hFirst
          have hOff : off + 16 * (k - k) = off := by
            omega
          rw [if_neg (by omega), if_pos rfl, if_pos (by omega),
            hOff]
        · have hOff :
              i < k →
                off + 16 + 16 * (k - (i + 1)) =
                  off + 16 * (k - i) := by
            omega
          have hIff :
              (i + 1 ≤ k ∧ k < i + 1 + n ∧
                off + 16 + 16 * (k - (i + 1) + 1) ≤ len) ↔
                (i ≤ k ∧ k < i + (n + 1) ∧
                  off + 16 * (k - i + 1) ≤ len) := by
            omega
          rw [if_neg hFirst]
          by_cases hSet :
              i ≤ k ∧ k < i + (n + 1) ∧
                off + 16 * (k - i + 1) ≤ len
          · rw [if_pos (hIff.mpr hSet), if_pos hSet,
              hOff (by omega)]
          · rw [if_neg fun hAll => hSet (hIff.mp hAll),
              if_neg hSet]
      · have hNone :
            (fun k =>
              if i ≤ k ∧ k < i + (n + 1) ∧
                  off + 16 * (k - i + 1) ≤ len then
                (⟨listedIp (room.members k).ip p
                  (off + 16 * (k - i)), 1⟩ : Member)
              else room.members k) = room.members := by
          funext k
          rw [if_neg (by omega)]
        rw [if_neg hRoom, hNone]

theorem handleMemberList_eq_self_iff
    (room : Room)
    (p : ByteMem)
    (len : Nat) :
    handleMemberList room p len = room ↔
      (1 ≤ len → ListsMembers room p len) := by
  unfold handleMemberList
  dsimp only
  rw [ite_eq_left_iff, Nat.not_lt, memberListLoop_eq]
  simp only [Nat.zero_le, Nat.zero_add, true_and, Nat.sub_zero]
  refine imp_congr_right fun _ => ⟨fun hSame => ?_, ?_⟩
  · refine ⟨(congrArg Room.memberCount hSame).symm, ?_⟩
    intro i hi hFits
    have hMember :=
      congrFun (congrArg Room.members hSame) i
    dsimp only at hMember
    rw [if_pos ⟨hi, hFits⟩] at hMember
    rcases (storeString_eq_self_iff _ _ _).mp
        (congrArg Member.ip hMember) with
      ⟨hAgree, hEnd⟩
    exact ⟨hAgree, hEnd,
      (congrArg Member.active hMember).symm⟩
  · rintro ⟨hCount, hMembers⟩
    have hSame :
        (fun k =>
          if k < min (p 0).toNat memberMax ∧
              1 + ipStrMax * (k + 1) ≤ len then
            (⟨listedIp (room.members k).ip p
              (1 + ipStrMax * k), 1⟩ : Member)
          else room.members k) = room.members := by
      funext k
      by_cases hSet :
          k < min (p 0).toNat memberMax ∧
            1 + ipStrMax * (k + 1) ≤ len
      · rcases hMembers k hSet.1 hSet.2 with
          ⟨hAgree, hEnd, hActive⟩
        rw [if_pos hSet, listedIp,
          (storeString_eq_self_iff _ _ _).mpr ⟨hAgree, hEnd⟩,
          ← hActive]
      · rw [if_neg hSet]
    rw [hSame, ← hCount]

/- Adding a member always changes the count. -/
theorem addMemberByIp_eq_self_iff
    (room : Room)
    (ip : ByteMem) :
    (addMemberByIp room ip).2 = room ↔
      ¬ room.memberCount < memberMax := by
  unfold addMemberByIp
  by_cases hFull : memberMax ≤ room.memberCount
  · rw [if_pos hFull]
    simp only [true_iff]
    exact Nat.not_lt.mpr hFull
  · rw [if_neg hFull]
    constructor
    · intro hSame
      have hCount := congrArg Room.memberCount hSame
      simp only [appendMember] at hCount
      omega
    · intro hNot
      exact absurd (Nat.lt_of_not_le hFull) hNot

/- The message kinds that can change a room. -/
theorem dataRoom_eq
    (room : Room)
    {data : List UInt8}
    {first : UInt8}
    (hSome : 0 < data.length)
    (hFirst : ofList data 0 = first) :
    dataRoom room data =
      if first = msgRoomInfo then
        handleRoomInfo room ((ofList data).view 1)
          (data.length - 1)
      else if first = msgMemberList then
        handleMemberList room ((ofList data).view 1)
          (data.length - 1)
      else if first = msgJoin ∧ room.isHost = true ∧
          ipStrMax ≤ data.length - 1 then
        (addMemberByIp room ((ofList data).view 1)).2
      else room := by
  have hNotEmpty : ¬ data.length < 1 := by omega
  unfold dataRoom partyHandleReceived handleChat
  rw [if_neg hNotEmpty]
  dsimp only
  rw [hFirst]
  by_cases hInfo : first = msgRoomInfo
  · subst hInfo
    rw [if_pos ⟨hSome, by decide, by decide⟩, if_pos rfl,
      if_pos rfl]
  rw [if_neg hInfo, if_neg hInfo]
  by_cases hList : first = msgMemberList
  · subst hList
    rw [if_pos ⟨hSome, by decide, by decide⟩, if_pos rfl,
      if_pos rfl]
  rw [if_neg hList, if_neg hList]
  by_cases hJoin : first = msgJoin
  · subst hJoin
    rw [if_pos ⟨hSome, by decide, by decide⟩,
      if_neg (by decide), if_pos rfl]
    simp only [true_and]
  · have hNotJoin :
        ¬ (first = msgJoin ∧ room.isHost = true ∧
          ipStrMax ≤ data.length - 1) :=
      fun hAll => hJoin hAll.1
    rw [if_neg hJoin, if_neg hNotJoin]
    simp only [ite_self]

/- Data leaves a room alone exactly when it is harmless. -/
theorem dataRoom_eq_self_iff
    (room : Room)
    {data : List UInt8}
    (hSome : 0 < data.length) :
    dataRoom room data = room ↔ Harmless room data := by
  generalize hFirst : ofList data 0 = first
  have hSixteen : ipStrMax = 16 := rfl
  rw [dataRoom_eq room hSome hFirst]
  by_cases hInfo : first = msgRoomInfo
  · rw [if_pos hInfo, handleRoomInfo_eq_self_iff]
    have hNotJoin : first ≠ msgJoin := by
      rw [hInfo]
      decide
    have hNotList : first ≠ msgMemberList := by
      rw [hInfo]
      decide
    constructor
    · intro hSame
      exact ⟨fun hEq => absurd (hFirst ▸ hEq) hNotJoin,
        fun hEq => absurd (hFirst ▸ hEq) hNotList,
        fun _ hLong => hSame (by omega)⟩
    · intro hHarmless hLong
      exact hHarmless.info (hFirst.trans hInfo) (by omega)
  rw [if_neg hInfo]
  by_cases hList : first = msgMemberList
  · rw [if_pos hList, handleMemberList_eq_self_iff]
    have hNotJoin : first ≠ msgJoin := by
      rw [hList]
      decide
    constructor
    · intro hSame
      exact ⟨fun hEq => absurd (hFirst ▸ hEq) hNotJoin,
        fun _ hLong => hSame (by omega),
        fun hEq => absurd (hFirst ▸ hEq) hInfo⟩
    · intro hHarmless hLong
      exact hHarmless.list (hFirst.trans hList) (by omega)
  rw [if_neg hList]
  constructor
  · intro hSame
    refine ⟨?_, fun hEq => absurd (hFirst ▸ hEq) hList,
      fun hEq => absurd (hFirst ▸ hEq) hInfo⟩
    rintro hJoin ⟨hHost, hLong, hCount⟩
    rw [if_pos ⟨hFirst ▸ hJoin, hHost, by omega⟩] at hSame
    exact (addMemberByIp_eq_self_iff _ _).mp hSame hCount
  · intro hHarmless
    by_cases hJoin :
        first = msgJoin ∧ room.isHost = true ∧
          ipStrMax ≤ data.length - 1
    · rw [if_pos hJoin, addMemberByIp_eq_self_iff]
      intro hCount
      exact hHarmless.join (hFirst.trans hJoin.1)
        ⟨hJoin.2.1, by omega, hCount⟩
    · rw [if_neg hJoin]

end Net

end AsmOS
