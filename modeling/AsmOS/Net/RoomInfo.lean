import AsmOS.Base.CStrings
import AsmOS.Net.PartyMessages

/-
  The room message that `party_create` sends, received by
  another node: the name's length, the name and the number of
  members.

  Main declarations:
    * `givenName`, `roomInfoPayload_eq`
    * `handleRoomInfo_encoded`
    * `roomInfo_round_trip`
-/

------------------------------------------------------------
-- Names
------------------------------------------------------------

namespace AsmOS

namespace Net

open ByteMem

/- The first 31 characters of a name; none for a null pointer. -/
def givenName
    (name : Option ByteMem) : List UInt8 :=
  match name with
  | none => []
  | some p => stringIn p (roomNameMax - 1)

/- The bytes before the end that `strnlen` finds. -/
theorem slice_strnlen
    (m : ByteMem)
    (n : Nat) :
    m.slice 0 (strnlen m n) = stringIn m n := by
  induction n generalizing m with
  | zero => rfl
  | succ n ih =>
      have hTail := ih (m.view 1)
      unfold stringIn at hTail ⊢
      rw [slice_view, slice_view] at hTail
      rw [strnlen, slice_succ]
      by_cases hEnd : m 0 = 0
      · rw [if_pos hEnd,
          List.takeWhile_cons_of_neg (by simpa using hEnd)]
        rfl
      · rw [if_neg hEnd, slice_succ,
          List.takeWhile_cons_of_pos (by simpa using hEnd),
          ← hTail]

theorem strnlen_eq_length
    (m : ByteMem)
    (n : Nat) :
    strnlen m n = (stringIn m n).length := by
  rw [← slice_strnlen, slice_length]

theorem givenName_length_lt
    (name : Option ByteMem) :
    (givenName name).length < roomNameMax := by
  cases name with
  | none => exact Nat.succ_pos 31
  | some p =>
      have hLe := strnlen_le p (roomNameMax - 1)
      rw [strnlen_eq_length] at hLe
      exact Nat.lt_of_le_of_lt hLe (by decide)

theorem zero_not_mem_givenName
    (name : Option ByteMem) :
    0 ∉ givenName name := by
  cases name with
  | none => exact List.not_mem_nil
  | some p => exact zero_not_mem_stringIn p _

/- A new room is named as it was asked for. -/
theorem roomName_string
    (name : Option ByteMem) :
    stringIn (roomName name) roomNameMax = givenName name := by
  cases name with
  | none => decide
  | some p =>
      have hText := zero_not_mem_stringIn p (roomNameMax - 1)
      have hFits := givenName_length_lt (some p)
      unfold givenName at hFits ⊢
      dsimp only at hFits ⊢
      have hCopied :
          storeBlock zeros 0 (strnlen p (roomNameMax - 1)) p =
            storeBlock zeros 0
              (stringIn p (roomNameMax - 1)).length
              (ofList (stringIn p (roomNameMax - 1))) := by
        rw [← strnlen_eq_length, ← slice_strnlen]
        apply storeBlock_congr
        exact agreeOn_ofList_slice p _
      unfold roomName
      dsimp only
      rw [hCopied, strnlen_eq_length]
      exact stringIn_stored zeros hText hFits

------------------------------------------------------------
-- The Message
------------------------------------------------------------

/- The bytes of a room message behind its type. -/
def roomInfoBytes
    (text : List UInt8)
    (count : UInt8) : List UInt8 :=
  UInt8.ofNat text.length :: (text ++ [count])

theorem roomInfoPayload_eq
    (room : Room) :
    roomInfoPayload room =
      roomInfoBytes (stringIn room.name roomNameMax)
        (UInt8.ofNat room.memberCount) := by
  unfold roomInfoPayload roomInfoBytes
  dsimp only
  rw [slice_strnlen, strnlen_eq_length]

section Message

variable (text : List UInt8) (count : UInt8)

theorem roomInfoBytes_length :
    (roomInfoBytes text count).length = text.length + 2 := by
  unfold roomInfoBytes
  rw [List.length_cons, List.length_append,
    List.length_singleton]

/- The handler finds the fields where they were put. -/
theorem handleRoomInfo_encoded
    (room : Room)
    {text : List UInt8}
    (hText : 0 ∉ text)
    (hFits : text.length < roomNameMax) :
    let p := ofList (roomInfoBytes text count)
    let info := handleRoomInfo room p (text.length + 2)
    stringIn info.name roomNameMax = text ∧
      info.memberCount = min count.toNat memberMax ∧
      info.inRoom = true ∧ info.isHost = false := by
  have hMax : roomNameMax = 32 := rfl
  have hFirst :
      (ofList (roomInfoBytes text count) 0).toNat =
        text.length :=
    UInt8.toNat_ofNat_of_lt' (by
      have hSize : UInt8.size = 256 := rfl
      omega)
  have hLen :
      infoNameLen (ofList (roomInfoBytes text count)) =
        text.length := by
    unfold infoNameLen
    rw [hFirst]
    exact Nat.min_eq_left (by omega)
  have hRest :
      (ofList (roomInfoBytes text count)).view 1 =
        ofList (text ++ [count]) :=
    view_ofList _ 1
  have hName :
      AgreeOn (ofList (text ++ [count])) (ofList text) 0
        text.length := by
    intro x _ hx
    unfold ofList
    rw [List.getD, List.getElem?_append_left hx]
    rfl
  have hLast :
      ofList (roomInfoBytes text count) (1 + text.length) =
        count := by
    have hView :=
      congrFun hRest text.length
    rw [view_apply] at hView
    rw [hView]
    unfold ofList
    rw [List.getD, List.getElem?_append_right (Nat.le_refl _),
      Nat.sub_self]
    rfl
  dsimp only
  unfold handleRoomInfo
  rw [if_neg (by omega)]
  dsimp only
  rw [hLen, if_neg (by omega), hLast, hRest,
    storeBlock_congr hName]
  exact ⟨stringIn_stored room.name hText hFits, rfl, rfl, rfl⟩

end Message

------------------------------------------------------------
-- The Round Trip
------------------------------------------------------------

/- The room and the frame of a call that sends. -/
theorem partyCreate_frame
    {driver : List UInt8 → Int}
    {name : Option ByteMem}
    {creator : Node}
    {frame : List UInt8}
    (hFrame :
      (partyCreate driver name creator).frame = some frame) :
    (partyCreate driver name creator).node.room =
        ownRoom (roomName name) true ∧
      (transportSend driver creator.transport typeData
        (some
          (ofList
            (msgRoomInfo ::
              roomInfoPayload (ownRoom (roomName name) true))))
        (UInt16.ofNat
          ((roomInfoPayload
            (ownRoom (roomName name) true)).length + 1))).frame =
        some frame := by
  unfold partyCreate at hFrame ⊢
  by_cases hParty : creator.partyInitialized = true
  · rw [if_neg (not_not.mpr hParty)] at hFrame ⊢
    unfold sendPartyMsg at hFrame ⊢
    dsimp only at hFrame ⊢
    split at hFrame
    · cases hFrame
    next hFits =>
      rw [if_neg hFits]
      exact ⟨rfl, hFrame⟩
  · rw [if_pos hParty] at hFrame
    cases hFrame

/-
  The room message of a new room, polled by a running node in
  any room or in none, names the same room there.
-/
theorem roomInfo_round_trip
    {driver : List UInt8 → Int}
    {name : Option ByteMem}
    {creator : Node}
    {frame : List UInt8}
    (hFrame :
      (partyCreate driver name creator).frame = some frame)
    {node : Node}
    (hParty : node.partyInitialized = true)
    (hInit : node.transport.initialized = true) :
    let own := (partyCreate driver name creator).node.room
    let room := (partyPoll frame node).node.room
    stringIn own.name roomNameMax = givenName name ∧
      stringIn room.name roomNameMax =
        stringIn own.name roomNameMax ∧
      room.memberCount = own.memberCount ∧
      room.inRoom = true ∧ room.isHost = false := by
  rcases partyCreate_frame hFrame with ⟨hOwn, hSent⟩
  have hName := roomName_string name
  have hFits := givenName_length_lt name
  have hMax : roomNameMax = 32 := rfl
  have hSize : UInt16.size = 65536 := rfl
  -- The payload is the encoded name and a count of one.
  have hPayload :
      roomInfoPayload (ownRoom (roomName name) true) =
        roomInfoBytes (givenName name) 1 := by
    rw [roomInfoPayload_eq]
    exact congrArg (fun text => roomInfoBytes text 1) hName
  rw [hPayload] at hSent
  have hLength :
      (roomInfoBytes (givenName name) 1).length =
        (givenName name).length + 2 :=
    roomInfoBytes_length _ _
  have hCount :
      (UInt16.ofNat
          ((roomInfoBytes (givenName name) 1).length + 1)).toNat =
        (msgRoomInfo ::
          roomInfoBytes (givenName name) 1).length :=
    UInt16.toNat_ofNat_of_lt' (by omega)
  rcases transportSend_holds hSent (slice_ofList _) hCount with
    ⟨hLen, m, hSlice, hHolds⟩
  have hPoll := partyPoll_holds hHolds hLen [] hParty hInit
  have hSome :
      0 <
        (msgRoomInfo ::
          roomInfoBytes (givenName name) 1).length :=
    Nat.succ_pos _
  have hFirst :
      ofList (msgRoomInfo :: roomInfoBytes (givenName name) 1)
          0 = msgRoomInfo :=
    rfl
  rw [List.append_nil, ← hSlice, if_pos rfl,
    dataRoom_eq node.room hSome hFirst, if_pos rfl,
    view_ofList, List.length_cons, Nat.add_sub_cancel,
    hLength] at hPoll
  have hInfo :=
    handleRoomInfo_encoded 1 node.room
      (zero_not_mem_givenName name) hFits
  dsimp only
  rw [hOwn, hPoll]
  exact ⟨hName, hInfo.1.trans hName.symm, hInfo.2⟩

/- The room `A`, announced to a new node. -/
theorem roomInfo_round_trip_letter :
    ∃ frame,
      (partyCreate (fun _ => 0) (some (ofList [0x41]))
          (partyInit Node.boot)).frame = some frame ∧
        stringIn
            (partyPoll frame (partyInit Node.boot)).node.room.name
            roomNameMax =
          givenName (some (ofList [0x41])) := by
  have hSome :
      (partyCreate (fun _ => 0) (some (ofList [0x41]))
        (partyInit Node.boot)).frame.isSome = true := by
    rfl
  rcases Option.isSome_iff_exists.mp hSome with ⟨frame, hFrame⟩
  have hParty : (partyInit Node.boot).partyInitialized = true :=
    rfl
  have hTrip := roomInfo_round_trip hFrame hParty rfl
  exact ⟨frame, hFrame, hTrip.2.1.trans hTrip.1⟩

end Net

end AsmOS
