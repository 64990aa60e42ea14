import AsmOS.Net.TransportRoundTrip

/-
  The checks of `transport_receive`, and the frame it sends
  in answer to a data packet.

  Main declarations:
    * `Accepts`, `transportReceive_eq`
    * `AckUnderstood`, `ack_rejected`
-/

------------------------------------------------------------
-- The Checks
------------------------------------------------------------

namespace AsmOS

namespace Net

open ByteMem

/- `uint16_t len = h->len`. -/
def packetLen
    (buf : ByteMem) : Nat :=
  load32 buf 4 % 65536

/- The checks of a packet of which `n` bytes were delivered. -/
def Accepts
    (buf : ByteMem)
    (n maxLen : Nat) : Prop :=
  headerSize ≤ n ∧ packetLen buf ≤ maxPayload ∧
    packetLen buf ≤ maxLen ∧
    (crc16Simple
      (buf.slice headerSize (packetLen buf))).toNat =
        load16 buf 8

instance
    (buf : ByteMem)
    (n maxLen : Nat) :
    Decidable (Accepts buf n maxLen) :=
  inferInstanceAs (Decidable (_ ∧ _))

/- A frame is passed on exactly when it passes the checks. -/
theorem transportReceive_eq
    (packet : List UInt8)
    {s : State}
    (hInit : s.initialized = true)
    (out : ByteMem)
    (maxLen : Nat)
    (outType : UInt8) :
    transportReceive packet s (some out) maxLen
        (some outType) =
      let got := platNetRecv packet packetMax
      let s' := s.deliver got
      if Accepts s'.rxBuf got.length maxLen then
        acceptPacket s' out (packetLen s'.rxBuf)
      else ⟨-1, some outType, some out, none, s'⟩ := by
  unfold transportReceive
  rw [hInit]
  dsimp only
  generalize platNetRecv packet packetMax = got
  generalize s.deliver got = s'
  rw [← packetLen]
  by_cases hHeader : got.length < headerSize
  · rw [if_pos hHeader, if_neg]
    intro hAccepts
    exact absurd hAccepts.1 (Nat.not_le.mpr hHeader)
  rw [if_neg hHeader]
  by_cases hRoom :
      maxPayload < packetLen s'.rxBuf ∨
        maxLen < packetLen s'.rxBuf
  · rw [if_pos hRoom, if_neg]
    rintro ⟨_, hMax, hLen, _⟩
    omega
  rw [if_neg hRoom]
  by_cases hCrc :
      (crc16Simple
        (s'.rxBuf.slice headerSize
          (packetLen s'.rxBuf))).toNat =
        load16 s'.rxBuf 8
  · rw [if_neg (not_not.mpr hCrc), if_pos]
    exact ⟨Nat.le_of_not_lt hHeader, by omega, by omega, hCrc⟩
  · rw [if_pos hCrc, if_neg]
    rintro ⟨_, _, _, hSame⟩
    exact hCrc hSame

theorem acceptPacket_rc
    (s : State)
    (out : ByteMem)
    (len : Nat) :
    (acceptPacket s out len).rc = len := by
  unfold acceptPacket
  dsimp only
  split <;> rfl

theorem acceptPacket_outType
    (s : State)
    (out : ByteMem)
    (len : Nat) :
    (acceptPacket s out len).outType = some (s.rxBuf 0) := by
  unfold acceptPacket
  dsimp only
  split <;> rfl

theorem acceptPacket_buffer
    (s : State)
    (out : ByteMem)
    (len : Nat) :
    (acceptPacket s out len).buffer =
      some (storeBlock out 0 len (s.rxBuf.view headerSize)) := by
  unfold acceptPacket
  dsimp only
  split <;> rfl

theorem acceptPacket_ack
    (s : State)
    (out : ByteMem)
    (len : Nat)
    (hData : s.rxBuf 0 = typeData) :
    (acceptPacket s out len).ack =
      some ((putHeader s.txBuf typeAck
        (UInt16.ofNat (load16 s.rxBuf 2)) 0).slice 0
          headerSize) := by
  unfold acceptPacket
  dsimp only
  rw [if_pos hData]

/- A call with a positive or zero result passed the checks. -/
theorem accepts_of_rc
    {packet : List UInt8}
    {s : State}
    (hInit : s.initialized = true)
    {out : ByteMem}
    {maxLen : Nat}
    {outType : UInt8}
    (hRc :
      (transportReceive packet s (some out) maxLen
        (some outType)).rc ≠ -1) :
    Accepts (s.deliver (platNetRecv packet packetMax)).rxBuf
      (platNetRecv packet packetMax).length maxLen := by
  by_contra hNot
  apply hRc
  rw [transportReceive_eq packet hInit]
  dsimp only
  rw [if_neg hNot]

------------------------------------------------------------
-- Acknowledgements
------------------------------------------------------------

/-
  The frame a receiver sends in answer to `packet` is taken
  by its peer as an acknowledgement of the packet's number.
-/
def AckUnderstood
    (packet : List UInt8)
    (s : State)
    (out : ByteMem)
    (maxLen : Nat)
    (outType : UInt8)
    (pad : List UInt8)
    (r : State)
    (out' : ByteMem)
    (maxLen' : Nat)
    (outType' : UInt8) : Prop :=
  ∃ frame,
    (transportReceive packet s (some out) maxLen
        (some outType)).ack = some frame ∧
      let got :=
        transportReceive (frame ++ pad) r (some out') maxLen'
          (some outType')
      got.rc = 0 ∧ got.outType = some typeAck ∧
        got.state.session.remoteSeq =
          UInt16.ofNat (load16 (ofList packet) 2)

theorem crc16Simple_nil :
    crc16Simple [] = 0xFFFF :=
  rfl

theorem putHeader_crc
    (buf : ByteMem)
    (type : UInt8)
    (seq : UInt16)
    (len : Nat) :
    load16 (putHeader buf type seq len) 8 = 0 := by
  simp only [putHeader, storeByte]
  rw [load16_storeBlock_of_disjoint (by omega),
    load16_storeBlock_of_disjoint (by omega), load16_store16]

/- The checksum of nothing is not the zero of an empty header. -/
theorem not_accepts_empty
    {buf : ByteMem}
    (hLen : load32 buf 4 = 0)
    (hCrc : load16 buf 8 = 0)
    (n maxLen : Nat) :
    ¬ Accepts buf n maxLen := by
  rintro ⟨_, _, _, hSame⟩
  have hEmpty : packetLen buf = 0 := by
    rw [packetLen, hLen]
  rw [hEmpty, hCrc] at hSame
  have hNil : buf.slice headerSize 0 = [] := rfl
  rw [hNil, crc16Simple_nil] at hSame
  exact absurd hSame (by decide)

/- An acknowledgement is rejected wherever it arrives. -/
theorem ack_frame_rejected
    (tx : ByteMem)
    (seq : UInt16)
    (pad : List UInt8)
    {r : State}
    (hInit : r.initialized = true)
    (out : ByteMem)
    (maxLen : Nat)
    (outType : UInt8) :
    (transportReceive
      ((putHeader tx typeAck seq 0).slice 0 headerSize ++ pad)
      r (some out) maxLen (some outType)).rc = -1 := by
  have hHeader := headerSize_eq
  have hFits : headerSize ≤ packetMax := Nat.le_add_right _ _
  have hAgree :=
    (deliver_frame (putHeader tx typeAck seq 0) hFits pad r).2
  rw [transportReceive_eq _ hInit]
  dsimp only
  rw [if_neg]
  apply not_accepts_empty
  · rw [hAgree.load32_eq (by omega) (by omega),
      putHeader_len (by omega)]
  · rw [hAgree.load16_eq (by omega) (by omega),
      putHeader_crc]

/-
  Every accepted data packet is answered by a frame, and no
  initialised peer accepts that frame.
-/
theorem ack_rejected
    (packet : List UInt8)
    (s : State)
    (out : ByteMem)
    (maxLen : Nat)
    (outType : UInt8)
    (hInit : s.initialized = true)
    (hAccepted :
      (transportReceive packet s (some out) maxLen
        (some outType)).rc ≠ -1)
    (hData :
      (transportReceive packet s (some out) maxLen
        (some outType)).outType = some typeData)
    (pad : List UInt8)
    (r : State)
    (hPeer : r.initialized = true)
    (out' : ByteMem)
    (maxLen' : Nat)
    (outType' : UInt8) :
    (∃ frame,
      (transportReceive packet s (some out) maxLen
          (some outType)).ack = some frame ∧
        (transportReceive (frame ++ pad) r (some out') maxLen'
          (some outType')).rc = -1) ∧
      ¬ AckUnderstood packet s out maxLen outType pad r out'
        maxLen' outType' := by
  have hAccepts := accepts_of_rc hInit hAccepted
  have hReceive :
      transportReceive packet s (some out) maxLen
          (some outType) =
        acceptPacket
          (s.deliver (platNetRecv packet packetMax)) out
          (packetLen
            (s.deliver
              (platNetRecv packet packetMax)).rxBuf) := by
    rw [transportReceive_eq packet hInit]
    exact if_pos hAccepts
  rw [hReceive, acceptPacket_outType] at hData
  have hAck :=
    acceptPacket_ack _ out
      (packetLen
        (s.deliver (platNetRecv packet packetMax)).rxBuf)
      (Option.some.inj hData)
  have hRejected :=
    ack_frame_rejected
      (s.deliver (platNetRecv packet packetMax)).txBuf
      (UInt16.ofNat
        (load16
          (s.deliver (platNetRecv packet packetMax)).rxBuf 2))
      pad hPeer out' maxLen' outType'
  rw [← hReceive] at hAck
  refine ⟨⟨_, hAck, hRejected⟩, ?_⟩
  rintro ⟨frame, hFrame, hRc, _⟩
  rw [hAck] at hFrame
  rw [← Option.some.inj hFrame, hRejected] at hRc
  exact absurd hRc (by decide)

/- A data packet with the payload `A`. -/
def sampleData : List UInt8 :=
  [0x01, 0, 0, 0, 1, 0, 0, 0, 0x7F, 0x70, 0, 0, 0x41]

/- Two new sessions: the answer to the sample is rejected. -/
theorem ack_rejected_sample :
    (∃ frame,
      (transportReceive sampleData (transportInit State.boot)
          (some zeros) 1400 (some 0)).ack = some frame ∧
        (transportReceive (frame ++ [])
          (transportInit State.boot) (some zeros) 1400
          (some 0)).rc = -1) ∧
      ¬ AckUnderstood sampleData (transportInit State.boot)
        zeros 1400 0 [] (transportInit State.boot) zeros 1400
        0 :=
  ack_rejected sampleData (transportInit State.boot) zeros 1400
    0 rfl (by decide +kernel) (by decide +kernel) []
    (transportInit State.boot) rfl zeros 1400 0

/- The sample is accepted, and its answer is not understood. -/
theorem not_ackUnderstood_sample :
    (transportReceive sampleData (transportInit State.boot)
        (some zeros) 1400 (some 0)).rc = 1 ∧
      (transportReceive sampleData (transportInit State.boot)
        (some zeros) 1400 (some 0)).outType =
          some typeData ∧
      ¬ AckUnderstood sampleData (transportInit State.boot)
        zeros 1400 0 [] (transportInit State.boot) zeros 1400
        0 := by
  have hAck :
      (transportReceive sampleData (transportInit State.boot)
          (some zeros) 1400 (some 0)).ack =
        some [0x02, 0, 0, 0, 0, 0, 0, 0, 0, 0, 0, 0] := by
    decide +kernel
  refine ⟨by decide +kernel, by decide +kernel, ?_⟩
  rintro ⟨frame, hFrame, hRc, _⟩
  rw [hAck] at hFrame
  rw [← Option.some.inj hFrame] at hRc
  revert hRc
  decide +kernel

end Net

end AsmOS
