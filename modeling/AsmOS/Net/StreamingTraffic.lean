import AsmOS.Net.PartyMessages
import AsmOS.Net.Streaming

/-
  What streamed chunks and batches do to a party room.

  Main declarations:
    * `captureLoop_carries`
    * `KeepsRoom`, `keepsRoom_data_iff`
    * `Plain`, `forall_harmless_iff`
    * `SentAs`, `traffic_keepsRoom_iff`
    * `streaming_keepsRoom_iff`
-/

------------------------------------------------------------
-- Chunks That Are Sent
------------------------------------------------------------

namespace AsmOS

namespace Net

open ByteMem

theorem frameChunkPayload_eq :
    frameChunkPayload = 1392 :=
  rfl

theorem toCopy_le
    (mode : VideoMode)
    (quality srcOffset : Nat) :
    toCopy mode quality srcOffset ≤ frameChunkPayload := by
  unfold toCopy
  split
  · omega
  · exact Nat.le_refl _

theorem toCopy_full
    {mode : VideoMode}
    {quality srcOffset : Nat}
    (hFull :
      srcOffset + frameChunkPayload ≤
        totalBytes mode quality) :
    toCopy mode quality srcOffset = frameChunkPayload := by
  unfold toCopy
  rw [if_neg (Nat.not_lt.mpr hFull)]

theorem chunkData_length
    (mode : VideoMode)
    (st : Streaming)
    (fb : ByteMem)
    (chunkIdx srcOffset : Nat) :
    (chunkData mode st fb chunkIdx srcOffset).length =
      frameChunkHeader + toCopy mode st.quality srcOffset := by
  unfold chunkData chunkHeader
  rw [List.length_append, List.length_map, List.length_range]
  rfl

theorem chunkData_length_le
    (mode : VideoMode)
    (st : Streaming)
    (fb : ByteMem)
    (chunkIdx srcOffset : Nat) :
    (chunkData mode st fb chunkIdx srcOffset).length ≤
      maxPayload := by
  have hCopy := toCopy_le mode st.quality srcOffset
  have hPayload := frameChunkPayload_eq
  have hMax : maxPayload = 1400 := rfl
  have hHeader : frameChunkHeader = 8 := rfl
  rw [chunkData_length]
  omega

/- The first byte of a chunk is the low byte of its frame. -/
theorem chunkData_head
    (mode : VideoMode)
    (st : Streaming)
    (fb : ByteMem)
    (chunkIdx srcOffset : Nat) :
    ofList (chunkData mode st fb chunkIdx srcOffset) 0 =
      (st.frameId &&& 0xFF).toUInt8 :=
  rfl

/- Without a frame for the driver, a send has failed. -/
theorem transportSend_rc_of_none
    {driver : List UInt8 → Int}
    {s : State}
    {type : UInt8}
    {payload : Option ByteMem}
    {len : UInt16}
    (hNone :
      (transportSend driver s type payload len).frame = none) :
    (transportSend driver s type payload len).rc = -1 := by
  unfold transportSend at hNone ⊢
  by_cases hPass :
      ¬ s.initialized = true ∨ maxPayload < len.toNat
  · rw [if_pos hPass]
  · rw [if_neg hPass] at hNone
    dsimp only at hNone
    split at hNone
    · cases hNone
    · cases hNone

/- A frame holds a data packet with these bytes. -/
def CarriesData
    (frame data : List UInt8) : Prop :=
  data.length ≤ maxPayload ∧
    ∃ m seq,
      frame = slice m 0 (headerSize + data.length) ∧
        HoldsPacket m typeData seq data

theorem transportSend_carries
    {driver : List UInt8 → Int}
    {s : State}
    {data frame : List UInt8}
    {len : UInt16}
    (hCount : len.toNat = data.length)
    (hFrame :
      (transportSend driver s typeData (some (ofList data))
        len).frame = some frame) :
    CarriesData frame data := by
  have hPoints : PointsTo (some (ofList data)) data :=
    slice_ofList data
  rcases transportSend_holds hFrame hPoints hCount with
    ⟨hLen, m, hSlice, hHolds⟩
  exact ⟨hLen, m, _, hSlice, hHolds⟩

/- The 16-bit length passed for a chunk is its byte count. -/
theorem chunkData_count
    (mode : VideoMode)
    (st : Streaming)
    (fb : ByteMem)
    (chunkIdx srcOffset : Nat) :
    (UInt16.ofNat (frameChunkHeader +
      toCopy mode st.quality srcOffset)).toNat =
      (chunkData mode st fb chunkIdx srcOffset).length := by
  have hBound :=
    chunkData_length_le mode st fb chunkIdx srcOffset
  have hMax : maxPayload = 1400 := rfl
  have hSize : UInt16.size = 65536 := rfl
  rw [chunkData_length] at hBound ⊢
  exact UInt16.toNat_ofNat_of_lt' (by omega)

/-
  A frame of the loop is its own chunk's, or one of the rest
  of the loop, which starts after that chunk.
-/
theorem captureLoop_succ_frames
    {mode : VideoMode}
    {driver : List UInt8 → Int}
    {st : Streaming}
    {fb : ByteMem}
    {n chunkIdx srcOffset : Nat}
    {s : State}
    {k : Nat}
    {frame : List UInt8}
    (hFrame :
      (captureLoop mode driver st fb (n + 1) chunkIdx srcOffset
        s).frames[k]? = some frame) :
    (k = 0 ∧
      CarriesData frame
        (chunkData mode st fb chunkIdx srcOffset)) ∨
    (∃ j s', k = j + 1 ∧
      (captureLoop mode driver st fb n (chunkIdx + 1)
        (srcOffset + toCopy mode st.quality srcOffset)
        s').frames[j]? = some frame) := by
  rw [captureLoop] at hFrame
  dsimp only at hFrame
  cases hSent :
      (transportSend driver s typeData
        (some
          (ofList (chunkData mode st fb chunkIdx srcOffset)))
        (UInt16.ofNat (frameChunkHeader +
          toCopy mode st.quality srcOffset))).frame with
  | none =>
      have hRc := transportSend_rc_of_none hSent
      rw [if_pos (by rw [hRc]; decide), hSent] at hFrame
      simp at hFrame
  | some first =>
      rw [hSent] at hFrame
      cases k with
      | zero =>
          have hSame : first = frame := by
            split at hFrame
            · exact Option.some.inj hFrame
            · exact Option.some.inj hFrame
          rw [← hSame]
          exact .inl ⟨rfl,
            transportSend_carries
              (chunkData_count mode st fb chunkIdx srcOffset)
              hSent⟩
      | succ k =>
          split at hFrame
          · simp at hFrame
          · exact .inr ⟨k, _, rfl, hFrame⟩

/- The frames of the loop carry the chunks in their order. -/
theorem captureLoop_carries
    {mode : VideoMode}
    {driver : List UInt8 → Int}
    {st : Streaming}
    {fb : ByteMem}
    {n chunkIdx srcOffset : Nat}
    {s : State}
    (hRoom :
      srcOffset + frameChunkPayload * (n - 1) ≤
        totalBytes mode st.quality)
    {k : Nat}
    {frame : List UInt8}
    (hFrame :
      (captureLoop mode driver st fb n chunkIdx srcOffset
        s).frames[k]? = some frame) :
    CarriesData frame
      (chunkData mode st fb (chunkIdx + k)
        (srcOffset + frameChunkPayload * k)) := by
  have hPayload := frameChunkPayload_eq
  induction n generalizing chunkIdx srcOffset s k with
  | zero =>
      rw [captureLoop] at hFrame
      simp at hFrame
  | succ n ih =>
      rcases captureLoop_succ_frames hFrame with
        ⟨rfl, hFirst⟩ | ⟨j, s', rfl, hRest⟩
      · exact hFirst
      · have hNext : n ≠ 0 := by
          rintro rfl
          rw [captureLoop] at hRest
          simp at hRest
        -- A chunk that another one follows is full.
        have hFull :
            toCopy mode st.quality srcOffset =
              frameChunkPayload := by
          apply toCopy_full
          simp only [hPayload] at hRoom ⊢
          omega
        rw [hFull] at hRest
        have hCarries :=
          ih (by
            simp only [hPayload] at hRoom ⊢
            omega) hRest
        have hIdx : chunkIdx + 1 + j = chunkIdx + (j + 1) := by
          omega
        have hOffset :
            srcOffset + frameChunkPayload +
                frameChunkPayload * j =
              srcOffset + frameChunkPayload * (j + 1) := by
          simp only [hPayload]
          omega
        rw [hIdx, hOffset] at hCarries
        exact hCarries

theorem streamingCaptureAndSend_carries
    {mode : VideoMode}
    {driver : List UInt8 → Int}
    {fb : ByteMem}
    {packet : List UInt8}
    {st : Streaming}
    {s : State}
    {i : Nat}
    {frame : List UInt8}
    (hFrame :
      (streamingCaptureAndSend mode driver fb packet st
        s).frames[i]? = some frame) :
    CarriesData frame
      (chunkData mode st fb i (frameChunkPayload * i)) := by
  have hRoom :
      0 + frameChunkPayload * (nChunks mode st.quality - 1) ≤
        totalBytes mode st.quality := by
    simp only [nChunks, frameChunkPayload_eq]
    omega
  have hLoop :
      (captureLoop mode driver st fb (nChunks mode st.quality)
        0 0 s).frames[i]? = some frame := by
    unfold streamingCaptureAndSend at hFrame
    by_cases hOff :
        ¬ st.initialized = true ∨ ¬ st.running = true
    · rw [if_pos hOff] at hFrame
      simp at hFrame
    · rw [if_neg hOff] at hFrame
      dsimp only at hFrame
      split at hFrame
      · split at hFrame
        · exact hFrame
        · exact hFrame
      · exact hFrame
  have hCarries := captureLoop_carries hRoom hLoop
  rwa [Nat.zero_add, Nat.zero_add] at hCarries

------------------------------------------------------------
-- Batches That Are Sent
------------------------------------------------------------

/- The sum of `lens`, in exact integers. -/
def batchLength : List BatchItem → Nat
| [] => 0
| item :: batch => item.len.toNat + batchLength batch

theorem batchItem_bytes_length
    (item : BatchItem)
    (stack : ByteMem)
    (p : Nat) :
    (item.bytes stack p).length = item.len.toNat := by
  unfold BatchItem.bytes
  split
  · exact slice_length _ _ _
  · exact slice_length _ _ _

theorem batchCopy_length
    {stack : ByteMem}
    {p : Nat}
    {batch : List BatchItem}
    {rest : List UInt8}
    (hFits : p ≤ maxPayload)
    (hCopy : batchCopy stack p batch = some rest) :
    rest.length = 2 * batch.length + batchLength batch ∧
      p + rest.length ≤ maxPayload := by
  induction batch generalizing p rest with
  | nil =>
      rw [batchCopy] at hCopy
      rw [← Option.some.inj hCopy]
      exact ⟨rfl, hFits⟩
  | cons item batch ih =>
      rw [batchCopy] at hCopy
      split at hCopy
      · cases hCopy
      · rcases Option.map_eq_some_iff.mp hCopy with
          ⟨tail, hTail, rfl⟩
        rcases ih (by omega) hTail with ⟨hLength, hEnd⟩
        simp only [List.length_cons, List.length_append,
          batchItem_bytes_length, batchLength]
        omega

/- A batch that fits is two bytes, then its items. -/
theorem batchPayload_length
    {stack : ByteMem}
    {batch : List BatchItem}
    {data : List UInt8}
    (hData : batchPayload stack batch = some data) :
    data.length = 2 + 2 * batch.length + batchLength batch ∧
      data.length ≤ maxPayload := by
  have hMax : maxPayload = 1400 := rfl
  rcases Option.map_eq_some_iff.mp hData with
    ⟨rest, hCopy, rfl⟩
  rcases batchCopy_length (by omega) hCopy with
    ⟨hLength, hEnd⟩
  simp only [List.length_cons]
  omega

/- An accepted batch is one packet with its payload. -/
theorem transportSendBatch_carries
    {driver : List UInt8 → Int}
    {stack : ByteMem}
    {s : State}
    {batch : List BatchItem}
    {sent : Sent}
    {frame : List UInt8}
    (hSent :
      transportSendBatch driver stack s batch = some sent)
    (hFrame : sent.frame = some frame) :
    0 < batch.length ∧ batch.length ≤ batchMax ∧
      ∃ data, batchPayload stack batch = some data ∧
        CarriesData frame data := by
  unfold transportSendBatch at hSent
  by_cases hCount :
      ¬ s.initialized = true ∨ batch.length = 0 ∨
        batchMax < batch.length
  · rw [if_pos hCount] at hSent
    rw [← Option.some.inj hSent] at hFrame
    cases hFrame
  rw [if_neg hCount] at hSent
  by_cases hTotal :
      maxPayload - 2 < (batchTotal batch).toNat
  · rw [if_pos hTotal] at hSent
    rw [← Option.some.inj hSent] at hFrame
    cases hFrame
  rw [if_neg hTotal] at hSent
  rcases Option.map_eq_some_iff.mp hSent with
    ⟨data, hData, rfl⟩
  have hBound := (batchPayload_length hData).2
  have hMax : maxPayload = 1400 := rfl
  have hSize : UInt16.size = 65536 := rfl
  refine ⟨by omega, by omega, data, hData, ?_⟩
  exact transportSend_carries
    (UInt16.toNat_ofNat_of_lt' (by omega)) hFrame

------------------------------------------------------------
-- Rooms And Traffic
------------------------------------------------------------

/- A node whose polls take frames from the driver. -/
def Node.Polls
    (node : Node) : Prop :=
  node.partyInitialized = true ∧
    node.transport.initialized = true

/- Polling the frame, padded or not, keeps the room. -/
def KeepsRoom
    (frame : List UInt8)
    (node : Node) : Prop :=
  ∀ pad,
    (partyPoll (frame ++ pad) node).node.room = node.room

theorem keepsRoom_data_iff
    {frame data : List UInt8}
    (hCarries : CarriesData frame data)
    (hSome : 0 < data.length)
    {node : Node}
    (hPolls : node.Polls) :
    KeepsRoom frame node ↔ Harmless node.room data := by
  rcases hCarries with ⟨hLen, m, seq, rfl, hHolds⟩
  unfold KeepsRoom
  rw [← dataRoom_eq_self_iff node.room hSome]
  constructor
  · intro hKeeps
    have hPoll := hKeeps []
    rwa [partyPoll_holds hHolds hLen [] hPolls.1 hPolls.2,
      if_pos rfl] at hPoll
  · intro hSame pad
    rw [partyPoll_holds hHolds hLen pad hPolls.1 hPolls.2,
      if_pos rfl, hSame]

/- The nodes of a new party and of a new host. -/
def newNode : Node := partyInit Node.boot

def newHost : Node := (partyCreate (fun _ => 0) none newNode).node

theorem newNode_polls :
    newNode.Polls :=
  ⟨rfl, rfl⟩

theorem newHost_polls :
    newHost.Polls :=
  ⟨rfl, rfl⟩

/-
  Data that no room takes a change from: it is too short for
  the message that its first byte names.
-/
structure Plain
    (data : List UInt8) : Prop where
  join : ofList data 0 = msgJoin → data.length ≤ ipStrMax
  list : ofList data 0 = msgMemberList → data.length ≤ 1
  info :
    ofList data 0 = msgRoomInfo →
      data.length < infoNameLen ((ofList data).view 1) + 3

/-
  A new host takes a join, a new node a room message, and one
  of the two any member list.
-/
theorem forall_harmless_iff
    (data : List UInt8) :
    (∀ node : Node, node.Polls → Harmless node.room data) ↔
      Plain data := by
  constructor
  · intro hAll
    have hHost := hAll newHost newHost_polls
    have hNode := hAll newNode newNode_polls
    refine ⟨?_, ?_, ?_⟩
    · intro hKind
      by_contra hLong
      exact hHost.join hKind ⟨rfl, by omega, by decide⟩
    · intro hKind
      by_contra hLong
      have hHostCount :=
        (hHost.list hKind (by omega)).count_eq
      have hNodeCount :=
        (hNode.list hKind (by omega)).count_eq
      rw [← hNodeCount] at hHostCount
      exact absurd hHostCount (by decide)
    · intro hKind
      by_contra hLong
      exact absurd (hNode.info hKind (by omega)).in_room
        (by decide)
  · intro hPlain node _
    refine ⟨?_, ?_, ?_⟩
    · rintro hKind ⟨_, hLong, _⟩
      have hShort := hPlain.join hKind
      omega
    · intro hKind hLong
      have hShort := hPlain.list hKind
      omega
    · intro hKind hLong
      have hShort := hPlain.info hKind
      omega

------------------------------------------------------------
-- Streams And Batches
------------------------------------------------------------

/-
  The frames that streaming and batches hand the driver, with
  the payloads that they carry.
-/
inductive SentAs :
    List UInt8 → List UInt8 → Prop where
| chunk
    {mode : VideoMode}
    {driver : List UInt8 → Int}
    {fb : ByteMem}
    {packet : List UInt8}
    {st : Streaming}
    {s : State}
    {i : Nat}
    {frame : List UInt8}
    (hFrame :
      (streamingCaptureAndSend mode driver fb packet st
        s).frames[i]? = some frame) :
    SentAs frame
      (chunkData mode st fb i (frameChunkPayload * i))
| batch
    {driver : List UInt8 → Int}
    {stack : ByteMem}
    {s : State}
    {batch : List BatchItem}
    {sent : Sent}
    {frame data : List UInt8}
    (hSent :
      transportSendBatch driver stack s batch = some sent)
    (hFrame : sent.frame = some frame)
    (hData : batchPayload stack batch = some data) :
    SentAs frame data

variable {frame data : List UInt8}

theorem SentAs.carries
    (hSentAs : SentAs frame data) :
    CarriesData frame data ∧ 0 < data.length := by
  cases hSentAs with
  | chunk hFrame =>
      refine ⟨streamingCaptureAndSend_carries hFrame, ?_⟩
      have hHeader : frameChunkHeader = 8 := rfl
      rw [chunkData_length]
      omega
  | batch hSent hFrame hData =>
      rcases transportSendBatch_carries hSent hFrame with
        ⟨_, _, data', hData', hCarries⟩
      rw [hData'] at hData
      rw [Option.some.inj hData] at hData' hCarries
      have hLength := (batchPayload_length hData').1
      exact ⟨hCarries, by omega⟩

/-
  A chunk or a batch keeps a room exactly when its payload is
  harmless to that room, and keeps every room exactly when
  its payload is plain.
-/
theorem traffic_keepsRoom_iff
    (hSentAs : SentAs frame data) :
    (∀ node : Node, node.Polls →
      (KeepsRoom frame node ↔ Harmless node.room data)) ∧
    ((∀ node : Node, node.Polls → KeepsRoom frame node) ↔
      Plain data) := by
  rcases hSentAs.carries with ⟨hCarries, hSome⟩
  have hKeeps :
      ∀ node : Node, node.Polls →
        (KeepsRoom frame node ↔ Harmless node.room data) :=
    fun _ hPolls => keepsRoom_data_iff hCarries hSome hPolls
  refine ⟨hKeeps, ?_⟩
  rw [← forall_harmless_iff]
  exact forall_congr' fun node =>
    imp_congr_right fun hPolls => hKeeps node hPolls

/- A batch of one byte, and its frame from a new session. -/
def sampleBatch : List BatchItem := [⟨some (ofList [0x41]), 1⟩]

def sampleBatchFrame : List UInt8 :=
  [0x01, 0, 0, 0, 5, 0, 0, 0, 0x88, 0x30, 0, 0,
    1, 0, 1, 0, 0x41]

def sampleBatchSent : Option Sent :=
  transportSendBatch (fun _ => 0) zeros
    (transportInit State.boot) sampleBatch

theorem sampleBatchSent_frame :
    sampleBatchSent.bind Sent.frame = some sampleBatchFrame := by
  decide +kernel

theorem sampleBatch_sentAs :
    SentAs sampleBatchFrame [1, 0, 1, 0, 0x41] := by
  rcases Option.bind_eq_some_iff.mp sampleBatchSent_frame with
    ⟨sent, hSent, hFrame⟩
  exact SentAs.batch hSent hFrame (by decide +kernel)

theorem traffic_keepsRoom_sample :
    (∀ node : Node, node.Polls →
      (KeepsRoom sampleBatchFrame node ↔
        Harmless node.room [1, 0, 1, 0, 0x41])) ∧
    ((∀ node : Node, node.Polls →
      KeepsRoom sampleBatchFrame node) ↔
        Plain [1, 0, 1, 0, 0x41]) :=
  traffic_keepsRoom_iff sampleBatch_sentAs

------------------------------------------------------------
-- Frame Numbers
------------------------------------------------------------

/- The first chunk of a VGA frame of that number. -/
theorem exists_first_chunk
    (id : UInt32) :
    ∃ frame,
      (streamingCaptureAndSend vgaMode (fun _ => 0) zeros []
          ⟨true, true, qualityMed, false, id⟩
          (transportInit State.boot)).frames[0]? =
        some frame := by
  have hSend :
      ∃ frame,
        (transportSend (fun _ => 0) (transportInit State.boot)
          typeData
          (some
            (ofList
              (chunkData vgaMode
                ⟨true, true, qualityMed, false, id⟩ zeros 0 0)))
          (UInt16.ofNat 1400)).frame = some frame :=
    ⟨_, transportSend_frame _ _ _ _ rfl (by decide)⟩
  rcases hSend with ⟨frame, hFrame⟩
  refine ⟨frame, ?_⟩
  have hChunks : nChunks vgaMode qualityMed = 45 + 1 := by
    decide
  have hCopy :
      frameChunkHeader + toCopy vgaMode qualityMed 0 = 1400 := by
    decide
  unfold streamingCaptureAndSend
  rw [if_neg (by simp)]
  dsimp only
  rw [hChunks, captureLoop, hCopy]
  dsimp only
  rw [hFrame]
  split
  · split
    · rfl
    · rfl
  · split
    · rfl
    · rfl

theorem low_byte_eq_iff
    (id : UInt32)
    (b : UInt8) :
    (id &&& 0xFF).toUInt8 = b ↔ id.toNat % 256 = b.toNat := by
  rw [← UInt8.toNat_inj, UInt32.toNat_toUInt8,
    UInt32.toNat_and]
  have hMask : (0xFF : UInt32).toNat = 2 ^ 8 - 1 := rfl
  rw [hMask, Nat.and_two_pow_sub_one_eq_mod]
  omega

/- The first chunk of a frame has all its 1400 bytes. -/
theorem first_chunk_length
    (id : UInt32) :
    (chunkData vgaMode ⟨true, true, qualityMed, false, id⟩
      zeros 0 (frameChunkPayload * 0)).length = 1400 := by
  have hCopy :
      frameChunkHeader +
          toCopy vgaMode qualityMed (frameChunkPayload * 0) =
        1400 := by
    decide
  rw [chunkData_length]
  exact hCopy

/-
  All chunks of a frame number keep all rooms exactly when
  its low byte is not that of a join, a member list or a room
  message.
-/
theorem streaming_keepsRoom_iff
    (id : UInt32) :
    (∀ mode driver fb packet st s frame,
      st.frameId = id →
        frame ∈
          (streamingCaptureAndSend mode driver fb packet st
            s).frames →
          ∀ node : Node, node.Polls → KeepsRoom frame node) ↔
      id.toNat % 256 ≠ 3 ∧ id.toNat % 256 ≠ 6 ∧
        id.toNat % 256 ≠ 7 := by
  constructor
  · intro hKeeps
    rcases exists_first_chunk id with ⟨frame, hFrame⟩
    have hCarries := streamingCaptureAndSend_carries hFrame
    have hLength := first_chunk_length id
    have hPlain :
        Plain
          (chunkData vgaMode
            ⟨true, true, qualityMed, false, id⟩ zeros 0
            (frameChunkPayload * 0)) := by
      rw [← forall_harmless_iff]
      intro node hPolls
      rw [← keepsRoom_data_iff hCarries (by omega) hPolls]
      exact hKeeps _ _ _ _ _ _ frame rfl
        (List.mem_of_getElem? hFrame) node hPolls
    have hSixteen : ipStrMax = 16 := rfl
    refine ⟨?_, ?_, ?_⟩
    · intro hId
      have hShort :=
        hPlain.join ((low_byte_eq_iff id msgJoin).mpr hId)
      omega
    · intro hId
      have hShort :=
        hPlain.list
          ((low_byte_eq_iff id msgMemberList).mpr hId)
      omega
    · intro hId
      have hShort :=
        hPlain.info
          ((low_byte_eq_iff id msgRoomInfo).mpr hId)
      have hName :
          infoNameLen
            ((ofList
              (chunkData vgaMode
                ⟨true, true, qualityMed, false, id⟩ zeros 0
                (frameChunkPayload * 0))).view 1) ≤ 31 :=
        Nat.min_le_right _ _
      omega
  · rintro ⟨hJoin, hList, hInfo⟩ mode driver fb packet st s
      frame hId hMember node hPolls
    rcases List.getElem?_of_mem hMember with ⟨i, hFrame⟩
    rcases (SentAs.chunk hFrame).carries with
      ⟨hCarries, hSome⟩
    rw [keepsRoom_data_iff hCarries hSome hPolls]
    refine (forall_harmless_iff _).mpr ⟨?_, ?_, ?_⟩ node hPolls
    · intro hKind
      rw [chunkData_head, hId, low_byte_eq_iff] at hKind
      exact absurd hKind hJoin
    · intro hKind
      rw [chunkData_head, hId, low_byte_eq_iff] at hKind
      exact absurd hKind hList
    · intro hKind
      rw [chunkData_head, hId, low_byte_eq_iff] at hKind
      exact absurd hKind hInfo

/- The first chunk of frame 3 joins a host's room. -/
theorem not_keepsRoom_frame_three :
    ∃ frame,
      (streamingCaptureAndSend vgaMode (fun _ => 0) zeros []
          ⟨true, true, qualityMed, false, 3⟩
          (transportInit State.boot)).frames[0]? =
        some frame ∧
        newHost.Polls ∧ ¬ KeepsRoom frame newHost := by
  rcases exists_first_chunk 3 with ⟨frame, hFrame⟩
  refine ⟨frame, hFrame, newHost_polls, ?_⟩
  have hCarries := streamingCaptureAndSend_carries hFrame
  have hLength := first_chunk_length 3
  rw [keepsRoom_data_iff hCarries (by omega) newHost_polls]
  intro hHarmless
  have hSixteen : ipStrMax = 16 := rfl
  exact hHarmless.join rfl ⟨rfl, by omega, by decide⟩

end Net

end AsmOS
