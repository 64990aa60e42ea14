import AsmOS.Base.CrcBurst
import AsmOS.Net.FrameHistory

/-
  Payload errors that the checksum of a frame detects.

  The polynomial of `crc16_simple` has its top bit set, so a
  difference within 16 consecutive bits of a payload always
  changes the checksum, and the frame is rejected.

  Main declarations:
    * `crc16Simple_ne_of_burst`
    * `HoldsPacket.rejects`
    * `burst_rejected`
-/

------------------------------------------------------------
-- Checksums Of Altered Payloads
------------------------------------------------------------

namespace AsmOS

namespace Net

open ByteMem

/- A burst of at most 16 bits changes the checksum. -/
theorem crc16Simple_ne_of_burst
    {data altered : List UInt8}
    (hBurst : CrcRegister.Burst 16 data altered) :
    crc16Simple altered ≠ crc16Simple data := by
  intro hSame
  have hRegister := congrArg UInt16.toBitVec hSame
  rw [crc16Simple, crc16Simple, foldl_crcByte_toBitVec,
    foldl_crcByte_toBitVec] at hRegister
  exact CrcRegister.foldl_feed_ne_of_burst (by decide) (by decide)
    hBurst _ hRegister

------------------------------------------------------------
-- Frames With Another Payload
------------------------------------------------------------

/- A call that only replaced the start of `rx_buf`. -/
def LeavesAll
    (got : Received)
    (r : State)
    (buffer : Option ByteMem)
    (outType : Option UInt8) : Prop :=
  got.rc = -1 ∧ got.outType = outType ∧ got.buffer = buffer ∧
    got.ack = none ∧
    got.state = { r with rxBuf := got.state.rxBuf }

/- A missing argument is refused before the driver is asked. -/
theorem transportReceive_missing
    (packet : List UInt8)
    {r : State}
    {buffer : Option ByteMem}
    (maxLen : Nat)
    {outType : Option UInt8}
    (hMissing :
      r.initialized = false ∨ buffer = none ∨ outType = none) :
    transportReceive packet r buffer maxLen outType =
      ⟨-1, outType, buffer, none, r⟩ := by
  unfold transportReceive
  split
  · simp_all
  · rfl

/-
  A frame fails when its header names a payload of this
  length with another checksum.
-/
theorem rejects_of_crc_ne
    {packet altered : List UInt8}
    {r : State}
    {m : ByteMem}
    (hGot :
      AgreeOn (r.deliver (platNetRecv packet packetMax)).rxBuf m
        0 (headerSize + altered.length))
    (hLen : load32 m 4 = altered.length)
    (hFits : altered.length ≤ maxPayload)
    (hPayload : m.slice headerSize altered.length = altered)
    (hCrc : (crc16Simple altered).toNat ≠ load16 m 8)
    (buffer : Option ByteMem)
    (maxLen : Nat)
    (outType : Option UInt8) :
    LeavesAll (transportReceive packet r buffer maxLen outType)
      r buffer outType := by
  have hTwelve := headerSize_eq
  have hMax : maxPayload = 1400 := rfl
  by_cases hMissing :
      r.initialized = false ∨ buffer = none ∨ outType = none
  · rw [transportReceive_missing packet maxLen hMissing]
    exact ⟨rfl, rfl, rfl, rfl, rfl⟩
  · rw [not_or, not_or, Bool.not_eq_false] at hMissing
    rcases hMissing with ⟨hInit, hBuffer, hType⟩
    obtain ⟨out, rfl⟩ := Option.ne_none_iff_exists'.mp hBuffer
    obtain ⟨value, rfl⟩ := Option.ne_none_iff_exists'.mp hType
    rw [transportReceive_eq packet hInit]
    generalize platNetRecv packet packetMax = got at hGot ⊢
    have hCount :
        packetLen (r.deliver got).rxBuf = altered.length := by
      rw [packetLen, hGot.load32_eq (by omega) (by omega), hLen]
      omega
    have hData :
        (r.deliver got).rxBuf.slice headerSize altered.length =
          altered := by
      rw [slice_congr fun i hi =>
        hGot (headerSize + i) (by omega) (by omega), hPayload]
    have hRejected :
        ¬ Accepts (r.deliver got).rxBuf got.length maxLen := by
      rintro ⟨_, _, _, hSame⟩
      rw [hCount, hData,
        hGot.load16_eq (by omega) (by omega)] at hSame
      exact hCrc hSame
    dsimp only
    rw [if_neg hRejected]
    exact ⟨rfl, rfl, rfl, rfl, rfl⟩

/- A packet whose payload was replaced by one as long. -/
theorem HoldsPacket.rejects
    {m : ByteMem}
    {type : UInt8}
    {seq : UInt16}
    {data altered : List UInt8}
    (hHolds : HoldsPacket m type seq data)
    (hFits : data.length ≤ maxPayload)
    (hLength : altered.length = data.length)
    (hCrc : crc16Simple altered ≠ crc16Simple data)
    (pad : List UInt8)
    (r : State)
    (buffer : Option ByteMem)
    (maxLen : Nat)
    (outType : Option UInt8) :
    LeavesAll
      (transportReceive
        (m.slice 0 headerSize ++ altered ++ pad) r buffer maxLen
        outType)
      r buffer outType := by
  have hTwelve := headerSize_eq
  have hMax : packetMax = headerSize + maxPayload := rfl
  -- The whole frame in a memory with the other payload.
  generalize hOther :
      storeBlock m headerSize altered.length (ofList altered) =
        m'
  have hHeader : AgreeOn m' m 0 headerSize := by
    rw [← hOther]
    exact storeBlock_agreeOn (Or.inl (Nat.le_refl _))
  have hPayload :
      m'.slice headerSize altered.length = altered := by
    rw [← hOther, slice_storeBlock, slice_ofList]
  have hFrame :
      m.slice 0 headerSize ++ altered =
        m'.slice 0 (headerSize + altered.length) := by
    rw [← slice_append, Nat.zero_add, hPayload]
    congr 1
    exact slice_congr fun i hi =>
      (hHeader _ (Nat.zero_le _) (by omega)).symm
  rw [hFrame]
  refine rejects_of_crc_ne
    (deliver_frame m' (by omega) pad r).2 ?_ (by omega) hPayload
    ?_ buffer maxLen outType
  · rw [hHeader.load32_eq (by omega) (by omega), hHolds.len_eq,
      hLength]
  · rw [hHeader.load16_eq (by omega) (by omega), hHolds.crc_eq]
    intro hSame
    exact hCrc (UInt16.toNat_inj.mp hSame)

------------------------------------------------------------
-- Bursts In A Sent Frame
------------------------------------------------------------

/-
  A burst of at most 16 bits in the payload changes its
  checksum, and the frame that was sent is refused with that
  payload in place of its own: no session, buffer or type
  changes, and nothing is acknowledged.
-/
theorem burst_rejected
    (driver : List UInt8 → Int)
    (s : State)
    (type : UInt8)
    (payload : Option ByteMem)
    (data altered : List UInt8)
    (hSender : s.initialized = true)
    (hPayload : PointsTo payload data)
    (hLen : data.length ≤ maxPayload)
    (hBurst : CrcRegister.Burst 16 data altered) :
    crc16Simple altered ≠ crc16Simple data ∧
      ∃ header,
        (transportSend driver s type payload
            (UInt16.ofNat data.length)).frame =
          some (header ++ data) ∧
        header.length = headerSize ∧
        ∀ pad r buffer maxLen outType,
          LeavesAll
            (transportReceive (header ++ altered ++ pad) r buffer
              maxLen outType)
            r buffer outType := by
  have hCrc := crc16Simple_ne_of_burst hBurst
  refine ⟨hCrc, ?_⟩
  have hMax : maxPayload = 1400 := rfl
  have hCount :
      (UInt16.ofNat data.length).toNat = data.length :=
    UInt16.toNat_ofNat_of_lt' (by
      have hSize : UInt16.size = 65536 := rfl
      omega)
  have hFrame :=
    transportSend_frame driver s type payload hSender
      (by rw [hCount]; exact hLen)
  rw [hCount] at hFrame
  have hHolds :=
    sendBuffer_holds s.txBuf type s.session.localSeq hPayload hLen
  refine ⟨_, ?_, slice_length _ _ _, hHolds.rejects hLen
    hBurst.length hCrc⟩
  rw [hFrame, ← slice_append, Nat.zero_add, hHolds.payload_eq]

/- The two bits next to a byte boundary of a new session's frame. -/
theorem burst_rejected_boundary :
    crc16Simple [0x41 ^^^ 0x80, 0x42 ^^^ 0x01] ≠
        crc16Simple [0x41, 0x42] ∧
      ∃ header,
        (transportSend (fun _ => 0) (transportInit State.boot)
            typeData (some (ofList [0x41, 0x42]))
            (UInt16.ofNat 2)).frame =
          some (header ++ [0x41, 0x42]) ∧
        header.length = headerSize ∧
        ∀ pad r buffer maxLen outType,
          LeavesAll
            (transportReceive
              (header ++ [0x41 ^^^ 0x80, 0x42 ^^^ 0x01] ++ pad)
              r buffer maxLen outType)
            r buffer outType := by
  refine burst_rejected (fun _ => 0) (transportInit State.boot)
    typeData (some (ofList [0x41, 0x42])) [0x41, 0x42]
    [0x41 ^^^ 0x80, 0x42 ^^^ 0x01] rfl rfl (by decide)
    ⟨rfl, by decide, 0, ?_⟩
  intro k hBit
  refine ⟨Nat.zero_le k, ?_⟩
  -- From the third byte on both messages read zero.
  by_contra hLate
  obtain ⟨j, hj⟩ : ∃ j, k / 8 = j + 2 := ⟨k / 8 - 2, by omega⟩
  exact hBit (by simp [CrcRegister.bitAt, hj])

end Net

end AsmOS
