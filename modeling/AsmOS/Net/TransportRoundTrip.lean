import AsmOS.Net.Transport

/-
  A sent packet is received as it was sent.

  Main declarations:
    * `HoldsPacket`
    * `sendBuffer_holds`
    * `transportReceive_accepts`
    * `receive_of_send`
-/

------------------------------------------------------------
-- Buffers That Hold A Packet
------------------------------------------------------------

namespace AsmOS

namespace Net

open ByteMem

/- A buffer begins with a packet and its right checksum. -/
structure HoldsPacket
    (buf : ByteMem)
    (type : UInt8)
    (seq : UInt16)
    (data : List UInt8) : Prop where
  type_eq : buf 0 = type
  seq_eq : load16 buf 2 = seq.toNat
  len_eq : load32 buf 4 = data.length
  crc_eq : load16 buf 8 = (crc16Simple data).toNat
  payload_eq : buf.slice headerSize data.length = data

/-
  A payload pointer for `data`; the null pointer stands for
  the empty payload.
-/
def PointsTo
    (payload : Option ByteMem)
    (data : List UInt8) : Prop :=
  match payload with
  | none => data = []
  | some p => p.slice 0 data.length = data

variable {buf buf' : ByteMem} {type : UInt8} {seq : UInt16}
variable {data : List UInt8} {payload : Option ByteMem}
variable {len : Nat}

theorem headerSize_eq :
    headerSize = 12 :=
  rfl

/- A packet depends on its own bytes only. -/
theorem HoldsPacket.congr
    (hHolds : HoldsPacket buf type seq data)
    (hAgree :
      AgreeOn buf' buf 0 (headerSize + data.length)) :
    HoldsPacket buf' type seq data := by
  have hHeader := headerSize_eq
  refine ⟨?_, ?_, ?_, ?_, ?_⟩
  · rw [hAgree 0 (by omega) (by omega), hHolds.type_eq]
  · rw [hAgree.load16_eq (by omega) (by omega), hHolds.seq_eq]
  · rw [hAgree.load32_eq (by omega) (by omega), hHolds.len_eq]
  · rw [hAgree.load16_eq (by omega) (by omega), hHolds.crc_eq]
  · calc
      buf'.slice headerSize data.length =
          buf.slice headerSize data.length :=
        slice_congr fun i hi => hAgree _ (by omega) (by omega)
      _ = data := hHolds.payload_eq

------------------------------------------------------------
-- Sending
------------------------------------------------------------

theorem putHeader_type :
    putHeader buf type seq len 0 = type := by
  simp only [putHeader, storeByte, store16, store32]
  rw [storeBlock_outside (by omega),
    storeBlock_outside (by omega), storeBlock_outside (by omega),
    storeBlock_outside (by omega), storeBlock_outside (by omega),
    storeBlock_outside (by omega),
    storeBlock_inside (by omega) (by omega)]

theorem putHeader_seq :
    load16 (putHeader buf type seq len) 2 = seq.toNat := by
  simp only [putHeader, storeByte, store32]
  rw [load16_storeBlock_of_disjoint (by omega),
    load16_storeBlock_of_disjoint (by omega),
    load16_store16_of_disjoint _ _ (by omega),
    load16_storeBlock_of_disjoint (by omega), load16_store16]
  exact Nat.mod_eq_of_lt seq.toNat_lt

theorem putHeader_len
    (hLen : len < 2 ^ 32) :
    load32 (putHeader buf type seq len) 4 = len := by
  simp only [putHeader, storeByte, store16]
  rw [load32_storeBlock_of_disjoint (by omega),
    load32_storeBlock_of_disjoint (by omega),
    load32_storeBlock_of_disjoint (by omega), load32_store32]
  exact Nat.mod_eq_of_lt hLen

/- The payload area holds the payload. -/
theorem putPayload_payload
    (buf : ByteMem)
    (hPayload : PointsTo payload data) :
    (putPayload buf payload data.length).slice headerSize
        data.length = data := by
  cases payload with
  | none =>
      have hNil : data = [] := hPayload
      subst hNil
      rfl
  | some p =>
      have hBytes : p.slice 0 data.length = data := hPayload
      calc
        (storeBlock buf headerSize data.length p).slice
              headerSize data.length =
            p.slice 0 data.length := by
          refine slice_congr fun i hi => ?_
          rw [storeBlock_inside (by omega) (by omega)]
          congr 1
          omega
        _ = data := hBytes

/- Storing the payload leaves the header alone. -/
theorem putPayload_header
    (buf : ByteMem)
    (payload : Option ByteMem)
    (len : Nat) :
    AgreeOn (putPayload buf payload len) buf 0 headerSize := by
  cases payload with
  | none => exact AgreeOn.refl _ _ _
  | some p => exact storeBlock_agreeOn (Or.inl (by omega))

/- The finished frame holds the packet it was made from. -/
theorem sendBuffer_holds
    (buf : ByteMem)
    (type : UInt8)
    (seq : UInt16)
    (hPayload : PointsTo payload data)
    (hLen : data.length ≤ maxPayload) :
    HoldsPacket (sendBuffer buf type seq payload data.length)
      type seq data := by
  have hHeader := headerSize_eq
  have hMax : maxPayload = 1400 := rfl
  have hHead :=
    putPayload_header (putHeader buf type seq data.length)
      payload data.length
  have hBytes :=
    putPayload_payload (putHeader buf type seq data.length)
      hPayload
  unfold sendBuffer
  refine ⟨?_, ?_, ?_, ?_, ?_⟩
  · rw [store16_outside _ _ (by omega),
      hHead 0 (by omega) (by omega), putHeader_type]
  · rw [load16_store16_of_disjoint _ _ (by omega),
      hHead.load16_eq (by omega) (by omega), putHeader_seq]
  · rw [store16, load32_storeBlock_of_disjoint (by omega),
      hHead.load32_eq (by omega) (by omega),
      putHeader_len (by omega)]
  · rw [load16_store16, hBytes]
    exact Nat.mod_eq_of_lt (crc16Simple data).toNat_lt
  · calc
      _ = (putPayload (putHeader buf type seq data.length)
            payload data.length).slice headerSize
              data.length :=
        slice_congr fun i hi =>
          store16_outside _ _ (by omega)
      _ = data := hBytes

/- What the driver is given for a payload that fits. -/
theorem transportSend_frame
    (driver : List UInt8 → Int)
    (s : State)
    (type : UInt8)
    (payload : Option ByteMem)
    {len : UInt16}
    (hInit : s.initialized = true)
    (hLen : len.toNat ≤ maxPayload) :
    (transportSend driver s type payload len).frame =
      some ((sendBuffer s.txBuf type s.session.localSeq payload
        len.toNat).slice 0 (headerSize + len.toNat)) := by
  have hPass :
      ¬ (¬ s.initialized = true ∨ maxPayload < len.toNat) := by
    simp [hInit]
    omega
  unfold transportSend
  rw [if_neg hPass]
  dsimp only
  split <;> rfl

/- A frame that the driver was given holds the packet sent. -/
theorem transportSend_holds
    {driver : List UInt8 → Int}
    {s : State}
    {len : UInt16}
    {frame : List UInt8}
    (hFrame :
      (transportSend driver s type payload len).frame =
        some frame)
    (hPayload : PointsTo payload data)
    (hCount : len.toNat = data.length) :
    data.length ≤ maxPayload ∧
      ∃ m : ByteMem,
        frame = m.slice 0 (headerSize + data.length) ∧
          HoldsPacket m type s.session.localSeq data := by
  by_cases hPass :
      ¬ s.initialized = true ∨ maxPayload < len.toNat
  · unfold transportSend at hFrame
    rw [if_pos hPass] at hFrame
    cases hFrame
  · have hInit : s.initialized = true :=
      Classical.not_not.mp fun hNot => hPass (Or.inl hNot)
    have hLen : len.toNat ≤ maxPayload :=
      Nat.le_of_not_lt fun hLong => hPass (Or.inr hLong)
    rw [transportSend_frame driver s type payload hInit hLen,
      hCount] at hFrame
    rw [hCount] at hLen
    exact ⟨hLen, _, (Option.some.inj hFrame).symm,
      sendBuffer_holds s.txBuf type s.session.localSeq hPayload
        hLen⟩

------------------------------------------------------------
-- Receiving
------------------------------------------------------------

theorem deliver_inside
    (s : State)
    (got : List UInt8)
    {x : Nat}
    (hx : x < got.length) :
    (s.deliver got).rxBuf x = ofList got x := by
  unfold State.deliver
  dsimp only
  rw [storeBlock_inside (Nat.zero_le x) (by omega), Nat.sub_zero]

theorem deliver_outside
    (s : State)
    (got : List UInt8)
    {x : Nat}
    (hx : got.length ≤ x) :
    (s.deliver got).rxBuf x = s.rxBuf x := by
  unfold State.deliver
  exact storeBlock_outside (by omega)

theorem deliver_agreeOn
    (s : State)
    (got : List UInt8) :
    AgreeOn (s.deliver got).rxBuf (ofList got) 0
      got.length :=
  fun _ _ hx => deliver_inside s got hx

/- A frame that fits the receive buffer arrives in it. -/
theorem deliver_frame
    (frame : ByteMem)
    {n : Nat}
    (hFits : n ≤ packetMax)
    (pad : List UInt8)
    (r : State) :
    n ≤ (platNetRecv (frame.slice 0 n ++ pad)
        packetMax).length ∧
      AgreeOn
        (r.deliver
          (platNetRecv (frame.slice 0 n ++ pad)
            packetMax)).rxBuf frame 0 n := by
  have hWhole :
      n ≤ (platNetRecv (frame.slice 0 n ++ pad)
        packetMax).length := by
    simp only [platNetRecv, List.length_take,
      List.length_append, slice_length]
    omega
  refine ⟨hWhole, ?_⟩
  intro x _ hx
  rw [deliver_inside _ _ (lt_of_lt_of_le hx hWhole)]
  simp only [platNetRecv, ofList, List.getD,
    List.getElem?_take_of_lt (lt_of_lt_of_le hx hFits)]
  rw [List.getElem?_append_left (by simpa using hx),
    slice_getElem? _ _ _ _ hx]
  simp

/- A whole frame fits the receive buffer, with its packet. -/
theorem deliver_holds
    {frame : ByteMem}
    (r : State)
    (pad : List UInt8)
    (hHolds : HoldsPacket frame type seq data)
    (hLen : data.length ≤ maxPayload) :
    ∃ got,
      platNetRecv
          (frame.slice 0 (headerSize + data.length) ++ pad)
          packetMax = got ∧
        headerSize + data.length ≤ got.length ∧
        HoldsPacket (r.deliver got).rxBuf type seq data := by
  have hFits : headerSize + data.length ≤ packetMax :=
    Nat.add_le_add_left hLen headerSize
  rcases deliver_frame frame hFits pad r with
    ⟨hWhole, hAgree⟩
  exact ⟨_, rfl, hWhole, hHolds.congr hAgree⟩

/- An accepted packet is passed on as it is. -/
theorem acceptPacket_holds
    {s : State}
    (out : ByteMem)
    (hHolds : HoldsPacket s.rxBuf type seq data) :
    let got := acceptPacket s out data.length
    got.rc = data.length ∧ got.outType = some type ∧
      got.state.session.remoteSeq = seq ∧
      ∃ out', got.buffer = some out' ∧
        out'.slice 0 data.length = data := by
  have hBytes :
      (storeBlock out 0 data.length
          (s.rxBuf.view headerSize)).slice 0 data.length =
        data := by
    rw [slice_storeBlock, slice_view, Nat.add_zero]
    exact hHolds.payload_eq
  have hSeq : UInt16.ofNat (load16 s.rxBuf 2) = seq := by
    rw [hHolds.seq_eq, UInt16.ofNat_toNat]
  unfold acceptPacket
  dsimp only
  split
  · exact ⟨rfl, by rw [hHolds.type_eq], hSeq, _, rfl, hBytes⟩
  · exact ⟨rfl, by rw [hHolds.type_eq], hSeq, _, rfl, hBytes⟩

/- A packet in the receive buffer passes the checks. -/
theorem transportReceive_accepts
    {packet got : List UInt8}
    {r : State}
    {maxLen : Nat}
    (out : ByteMem)
    (outType : UInt8)
    (hInit : r.initialized = true)
    (hGot : platNetRecv packet packetMax = got)
    (hWhole : headerSize + data.length ≤ got.length)
    (hHolds : HoldsPacket (r.deliver got).rxBuf type seq data)
    (hLen : data.length ≤ maxPayload)
    (hRoom : data.length ≤ maxLen) :
    transportReceive packet r (some out) maxLen
        (some outType) =
      acceptPacket (r.deliver got) out data.length := by
  have hMax : maxPayload = 1400 := rfl
  have hCount :
      load32 (r.deliver got).rxBuf 4 % 65536 = data.length := by
    rw [hHolds.len_eq]
    omega
  unfold transportReceive
  rw [hInit]
  dsimp only
  rw [hGot, hCount, if_neg (by omega), if_neg (by omega),
    hHolds.payload_eq, hHolds.crc_eq,
    if_neg (not_not.mpr rfl)]

------------------------------------------------------------
-- The Round Trip
------------------------------------------------------------

/-
  The frame that an initialised sender hands its driver,
  followed by any padding, is accepted by an initialised
  receiver with room for the payload.
-/
theorem receive_of_send
    (driver : List UInt8 → Int)
    (s r : State)
    (type : UInt8)
    (payload : Option ByteMem)
    (data pad : List UInt8)
    (out : ByteMem)
    (maxLen : Nat)
    (outType : UInt8)
    (hSender : s.initialized = true)
    (hReceiver : r.initialized = true)
    (hPayload : PointsTo payload data)
    (hLen : data.length ≤ maxPayload)
    (hRoom : data.length ≤ maxLen) :
    ∃ frame,
      (transportSend driver s type payload
          (UInt16.ofNat data.length)).frame = some frame ∧
        let got :=
          transportReceive (frame ++ pad) r (some out) maxLen
            (some outType)
        got.rc = data.length ∧ got.outType = some type ∧
          got.state.session.remoteSeq = s.session.localSeq ∧
          ∃ out', got.buffer = some out' ∧
            out'.slice 0 data.length = data := by
  have hMax : maxPayload = 1400 := rfl
  have hCount :
      (UInt16.ofNat data.length).toNat = data.length :=
    UInt16.toNat_ofNat_of_lt' (by
      have hSize : UInt16.size = 65536 := rfl
      omega)
  have hFrame :=
    transportSend_frame driver s type payload hSender
      (by rw [hCount]; exact hLen)
  rw [hCount] at hFrame
  refine ⟨_, hFrame, ?_⟩
  have hHolds :=
    sendBuffer_holds s.txBuf type s.session.localSeq hPayload
      hLen
  rcases deliver_holds r pad hHolds hLen with
    ⟨got, hGot, hWhole, hDelivered⟩
  dsimp only
  rw [transportReceive_accepts out outType hReceiver hGot hWhole
    hDelivered hLen hRoom]
  exact acceptPacket_holds out hDelivered

/- Two data bytes between new sessions, and some padding. -/
theorem receive_of_send_data :
    ∃ frame,
      (transportSend (fun _ => 0) (transportInit State.boot)
          typeData (some (ofList [0x41, 0x42]))
          (UInt16.ofNat 2)).frame = some frame ∧
        let got :=
          transportReceive (frame ++ [0, 0])
            (transportInit State.boot) (some zeros) 2 (some 0)
        got.rc = (2 : Nat) ∧ got.outType = some typeData ∧
          got.state.session.remoteSeq = 0 ∧
          ∃ out', got.buffer = some out' ∧
            out'.slice 0 2 = [0x41, 0x42] :=
  receive_of_send (fun _ => 0) (transportInit State.boot)
    (transportInit State.boot) typeData
    (some (ofList [0x41, 0x42])) [0x41, 0x42] [0, 0] zeros 2 0
    rfl rfl rfl (by decide) (by decide)

end Net

end AsmOS
