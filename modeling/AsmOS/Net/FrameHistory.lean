import AsmOS.Base.CrcRegister
import AsmOS.Net.Acceptance

/-
  What earlier frames have to do with the next one.

  A frame is judged on the bytes it leaves in `rx_buf`.  When
  its payload reaches past its end, the rest is what earlier
  frames left there, and two such bytes can be chosen for
  every checksum.

  Main declarations:
    * `afterFrames`
    * `OwnBytes`, `JudgedAlone`
    * `exists_completion`
    * `ownBytes_iff`
-/

namespace AsmOS

namespace Net

open ByteMem

------------------------------------------------------------
-- Histories Of Frames
------------------------------------------------------------

/-
  A new session after it received frames, each with the
  largest length its caller has room for.
-/
def afterFrames
    (history : List (List UInt8 × Nat)) : State :=
  history.foldl
    (fun s call =>
      (transportReceive call.1 s (some zeros) call.2
        (some 0)).state)
    (transportInit State.boot)

/- The frame holds all the payload that its header names. -/
def HoldsWhole
    (packet : List UInt8)
    (maxLen : Nat) : Prop :=
  let frame := platNetRecv packet packetMax
  headerSize + load32 (ofList frame) 4 ≤ frame.length ∧
    load32 (ofList frame) 4 ≤ maxPayload ∧
    load32 (ofList frame) 4 ≤ maxLen

/-
  A frame gives the same result, type and payload after any
  two histories, and is accepted only if it is whole.
-/
def OwnBytes
    (packet : List UInt8)
    (maxLen : Nat) : Prop :=
  ∀ first second out outType,
    let got :=
      transportReceive packet (afterFrames first) (some out)
        maxLen (some outType)
    let got' :=
      transportReceive packet (afterFrames second) (some out)
        maxLen (some outType)
    got.rc = got'.rc ∧ got.outType = got'.outType ∧
      got.buffer = got'.buffer ∧
      (got.rc ≠ -1 → HoldsWhole packet maxLen)

/- The checksum field of a frame. -/
def frameCrc
    (frame : List UInt8) : Nat :=
  load16 (ofList frame) 8

/-
  The frames for which nothing else counts: those without a
  header or with a length out of bounds, those that reach as
  far as their 16-bit length and are not accepted under a
  longer 32-bit one, and those that lack one byte which no
  value can supply.
-/
def JudgedAlone
    (packet : List UInt8)
    (maxLen : Nat) : Prop :=
  let frame := platNetRecv packet packetMax
  let len := packetLen (ofList frame)
  frame.length < headerSize ∨ maxPayload < len ∨
    maxLen < len ∨
    (headerSize + len ≤ frame.length ∧
      (load32 (ofList frame) 4 < 65536 ∨
        (crc16Simple
          ((ofList frame).slice headerSize len)).toNat ≠
            frameCrc frame)) ∨
    (frame.length + 1 = headerSize + len ∧
      ∀ b,
        (crc16Simple
          ((ofList frame).slice headerSize (len - 1) ++
            [b])).toNat ≠ frameCrc frame)

------------------------------------------------------------
-- Sessions After Frames
------------------------------------------------------------

theorem acceptPacket_initialized
    (s : State)
    (out : ByteMem)
    (len : Nat) :
    (acceptPacket s out len).state.initialized =
      s.initialized := by
  unfold acceptPacket
  dsimp only
  split <;> rfl

theorem acceptPacket_rxBuf
    (s : State)
    (out : ByteMem)
    (len : Nat) :
    (acceptPacket s out len).state.rxBuf = s.rxBuf := by
  unfold acceptPacket
  dsimp only
  split <;> rfl

theorem transportReceive_initialized
    (packet : List UInt8)
    {s : State}
    (hInit : s.initialized = true)
    (out : ByteMem)
    (maxLen : Nat)
    (outType : UInt8) :
    (transportReceive packet s (some out) maxLen
      (some outType)).state.initialized = true := by
  rw [transportReceive_eq packet hInit]
  dsimp only
  split
  · rw [acceptPacket_initialized]
    exact hInit
  · exact hInit

/- Every frame replaces the start of the receive buffer. -/
theorem transportReceive_rxBuf
    (packet : List UInt8)
    {s : State}
    (hInit : s.initialized = true)
    (out : ByteMem)
    (maxLen : Nat)
    (outType : UInt8) :
    (transportReceive packet s (some out) maxLen
        (some outType)).state.rxBuf =
      (s.deliver (platNetRecv packet packetMax)).rxBuf := by
  rw [transportReceive_eq packet hInit]
  dsimp only
  split
  · rw [acceptPacket_rxBuf]
  · rfl

theorem foldl_initialized
    (history : List (List UInt8 × Nat))
    {s : State}
    (hInit : s.initialized = true) :
    (history.foldl
      (fun s call =>
        (transportReceive call.1 s (some zeros) call.2
          (some 0)).state) s).initialized = true := by
  induction history generalizing s with
  | nil => exact hInit
  | cons call history ih =>
      rw [List.foldl_cons]
      exact ih
        (transportReceive_initialized _ hInit _ _ _)

theorem afterFrames_initialized
    (history : List (List UInt8 × Nat)) :
    (afterFrames history).initialized = true :=
  foldl_initialized history rfl

theorem afterFrames_one
    (frame : List UInt8)
    (maxLen : Nat) :
    (afterFrames [(frame, maxLen)]).rxBuf =
      ((transportInit State.boot).deliver
        (platNetRecv frame packetMax)).rxBuf := by
  rw [afterFrames, List.foldl_cons, List.foldl_nil]
  exact transportReceive_rxBuf frame rfl zeros maxLen 0

/- One frame of full length leaves any bytes behind. -/
theorem exists_leftover
    (m : ByteMem) :
    ∃ history,
      AgreeOn (afterFrames history).rxBuf m 0 packetMax := by
  refine ⟨[(m.slice 0 packetMax, 0)], ?_⟩
  have hAgree :=
    (deliver_frame m (Nat.le_refl packetMax) []
      (transportInit State.boot)).2
  rw [List.append_nil] at hAgree
  rw [afterFrames_one]
  exact hAgree

------------------------------------------------------------
-- Completing A Checksum
------------------------------------------------------------

abbrev crcPoly : BitVec 16 := 0xA001#16

/- The low bit of a word, as `crc16_simple` tests it. -/
theorem and_one_ne_zero_iff
    (crc : UInt16) :
    crc &&& 1 ≠ 0 ↔ crc.toBitVec.getLsbD 0 = true := by
  rw [ne_eq, ← UInt16.toBitVec_inj, UInt16.toBitVec_and]
  have hOne : (1 : UInt16).toBitVec = 1#16 := rfl
  have hZero : (0 : UInt16).toBitVec = 0#16 := rfl
  rw [hOne, hZero, BitVec.and_one_eq_setWidth_ofBool_getLsbD]
  cases crc.toBitVec.getLsbD 0 with
  | false => simp
  | true => decide

theorem crcBit_toBitVec
    (crc : UInt16) :
    (crcBit crc).toBitVec =
      CrcRegister.step crcPoly crc.toBitVec := by
  unfold crcBit CrcRegister.step
  by_cases hBit : crc &&& 1 ≠ 0
  · rw [if_pos hBit, if_pos ((and_one_ne_zero_iff crc).mp hBit)]
    rfl
  · rw [if_neg hBit,
      if_neg fun hLow =>
        hBit ((and_one_ne_zero_iff crc).mpr hLow)]
    rfl

theorem crcByte_toBitVec
    (crc : UInt16)
    (b : UInt8) :
    (crcByte crc b).toBitVec =
      CrcRegister.feed crcPoly crc.toBitVec b := by
  have hBits :
      Function.Semiconj UInt16.toBitVec crcBit
        (CrcRegister.step crcPoly) :=
    crcBit_toBitVec
  rw [crcByte, (hBits.iterate_right 8).eq, CrcRegister.feed,
    UInt16.toBitVec_xor]
  congr 2
  apply BitVec.eq_of_toNat_eq
  have hByte := b.toNat_lt
  rw [UInt16.toNat_toBitVec, UInt8.toNat_toUInt16,
    BitVec.toNat_ofNat]
  omega

theorem foldl_crcByte_toBitVec
    (data : List UInt8)
    (crc : UInt16) :
    (data.foldl crcByte crc).toBitVec =
      data.foldl (CrcRegister.feed crcPoly) crc.toBitVec :=
  (List.foldl_hom UInt16.toBitVec fun crc b =>
    (crcByte_toBitVec crc b).symm).symm

/-
  With two or more bytes free, every checksum can be reached
  from every beginning.
-/
theorem exists_completion
    (data : List UInt8)
    {k : Nat}
    (hTwo : 2 ≤ k)
    {crc : Nat}
    (hCrc : crc < 65536) :
    ∃ rest : List UInt8,
      rest.length = k ∧
        (crc16Simple (data ++ rest)).toNat = crc := by
  have hTop : crcPoly.msb = true := rfl
  have hWidth : 16 = 8 * 2 := rfl
  rcases CrcRegister.exists_bytes hTop hWidth
      (crc16Simple
        (data ++ List.replicate (k - 2) 0)).toBitVec
      (BitVec.ofNat 16 crc) with
    ⟨last, hLast, hReach⟩
  refine ⟨List.replicate (k - 2) 0 ++ last, ?_, ?_⟩
  · rw [List.length_append, List.length_replicate, hLast]
    omega
  · have hSum :
        (crc16Simple
          (data ++
            (List.replicate (k - 2) 0 ++ last))).toBitVec =
          BitVec.ofNat 16 crc := by
      rw [← List.append_assoc, crc16Simple, List.foldl_append,
        foldl_crcByte_toBitVec, ← crc16Simple, hReach]
    rw [← UInt16.toNat_toBitVec, hSum, BitVec.toNat_ofNat]
    exact Nat.mod_eq_of_lt hCrc

------------------------------------------------------------
-- The Payload Of A Frame
------------------------------------------------------------

section Delivered

variable {s : State} {got : List UInt8} {maxLen : Nat}

/- A header that was delivered is read from its own bytes. -/
theorem deliver_packetLen
    (s : State)
    (hHeader : headerSize ≤ got.length) :
    packetLen (s.deliver got).rxBuf =
      packetLen (ofList got) := by
  have hTwelve := headerSize_eq
  unfold packetLen
  rw [(deliver_agreeOn s got).load32_eq (by omega)
    (by omega)]

theorem accepts_deliver_iff
    (s : State)
    (hHeader : headerSize ≤ got.length) :
    Accepts (s.deliver got).rxBuf got.length maxLen ↔
      packetLen (ofList got) ≤ maxPayload ∧
        packetLen (ofList got) ≤ maxLen ∧
        (crc16Simple
          ((s.deliver got).rxBuf.slice headerSize
            (packetLen (ofList got)))).toNat =
          frameCrc got := by
  have hTwelve := headerSize_eq
  unfold Accepts frameCrc
  rw [deliver_packetLen s hHeader,
    (deliver_agreeOn s got).load16_eq (by omega) (by omega)]
  exact and_iff_right hHeader

/- A payload within the frame is the frame's. -/
theorem deliver_slice
    (s : State)
    {len : Nat}
    (hWhole : headerSize + len ≤ got.length) :
    (s.deliver got).rxBuf.slice headerSize len =
      (ofList got).slice headerSize len :=
  slice_congr fun _ _ => deliver_inside s got (by omega)

/- A longer payload goes on with the bytes left behind. -/
theorem deliver_slice_append
    (s : State)
    {n k : Nat}
    (hLength : got.length = headerSize + n) :
    (s.deliver got).rxBuf.slice headerSize (n + k) =
      (ofList got).slice headerSize n ++
        s.rxBuf.slice got.length k := by
  rw [← slice_append, deliver_slice s (Nat.le_of_eq hLength.symm),
    ← hLength]
  congr 1
  exact slice_congr fun _ _ =>
    deliver_outside s got (Nat.le_add_right _ _)

end Delivered

------------------------------------------------------------
-- Frames Judged Alone
------------------------------------------------------------

variable {packet : List UInt8} {maxLen : Nat}

/- A frame that is never accepted gives nothing away. -/
theorem ownBytes_of_rejected
    (hRejected :
      ∀ s : State,
        ¬ Accepts
          (s.deliver (platNetRecv packet packetMax)).rxBuf
          (platNetRecv packet packetMax).length maxLen) :
    OwnBytes packet maxLen := by
  intro first second out outType
  have hFirst := hRejected (afterFrames first)
  have hSecond := hRejected (afterFrames second)
  rw [transportReceive_eq packet (afterFrames_initialized _),
    transportReceive_eq packet (afterFrames_initialized _)]
  dsimp only
  rw [if_neg hFirst, if_neg hSecond]
  exact ⟨rfl, rfl, rfl, fun hRc => absurd rfl hRc⟩

/- A whole frame is passed on from its own bytes. -/
theorem ownBytes_of_whole
    (hWhole : HoldsWhole packet maxLen) :
    OwnBytes packet maxLen := by
  intro first second out outType
  dsimp only [HoldsWhole] at hWhole
  rw [transportReceive_eq packet (afterFrames_initialized _),
    transportReceive_eq packet (afterFrames_initialized _)]
  dsimp only
  generalize hGot : platNetRecv packet packetMax = got
  rw [hGot] at hWhole
  rcases hWhole with ⟨hEnd, hMax, hRoom⟩
  have hTwelve := headerSize_eq
  have hLimit : maxPayload = 1400 := rfl
  have hHeader : headerSize ≤ got.length := by omega
  have hLen :
      packetLen (ofList got) = load32 (ofList got) 4 := by
    rw [packetLen]
    exact Nat.mod_eq_of_lt (by omega)
  have hSlice :
      ∀ s : State,
        (s.deliver got).rxBuf.slice headerSize
            (packetLen (ofList got)) =
          (ofList got).slice headerSize
            (packetLen (ofList got)) :=
    fun s => deliver_slice s (by omega)
  have hSame :
      Accepts ((afterFrames first).deliver got).rxBuf
          got.length maxLen ↔
        Accepts ((afterFrames second).deliver got).rxBuf
          got.length maxLen := by
    rw [accepts_deliver_iff _ hHeader,
      accepts_deliver_iff _ hHeader, hSlice, hSlice]
  have hHolds : HoldsWhole packet maxLen := by
    dsimp only [HoldsWhole]
    rw [hGot]
    exact ⟨hEnd, hMax, hRoom⟩
  by_cases hAccepts :
      Accepts ((afterFrames first).deliver got).rxBuf
        got.length maxLen
  · rw [if_pos hAccepts, if_pos (hSame.mp hAccepts),
      acceptPacket_rc, acceptPacket_rc, acceptPacket_outType,
      acceptPacket_outType, acceptPacket_buffer,
      acceptPacket_buffer, deliver_packetLen _ hHeader,
      deliver_packetLen _ hHeader,
      deliver_inside _ got (by omega),
      deliver_inside _ got (by omega)]
    refine ⟨rfl, rfl, ?_, fun _ => hHolds⟩
    rw [Option.some.injEq]
    refine storeBlock_congr fun x _ hx => ?_
    rw [view_apply, view_apply,
      deliver_inside _ got (by omega),
      deliver_inside _ got (by omega)]
  · rw [if_neg hAccepts,
      if_neg fun hSecond => hAccepts (hSame.mpr hSecond)]
    exact ⟨rfl, rfl, rfl, fun _ => hHolds⟩

/- A frame accepted without being whole leaks. -/
theorem not_ownBytes_of_accepts
    (hPart : ¬ HoldsWhole packet maxLen)
    (history : List (List UInt8 × Nat))
    (hAccepts :
      Accepts
        ((afterFrames history).deliver
          (platNetRecv packet packetMax)).rxBuf
        (platNetRecv packet packetMax).length maxLen) :
    ¬ OwnBytes packet maxLen := by
  intro hOwn
  rcases hOwn history history zeros 0 with
    ⟨_, _, _, hWhole⟩
  apply hPart
  apply hWhole
  rw [transportReceive_eq packet (afterFrames_initialized _)]
  dsimp only
  rw [if_pos hAccepts, acceptPacket_rc]
  omega

/-
  A frame that lacks payload bytes is judged alone unless
  some bytes left behind make its checksum right.
-/
theorem ownBytes_partial_iff
    {n k : Nat}
    (hLength :
      (platNetRecv packet packetMax).length = headerSize + n)
    (hLen :
      packetLen (ofList (platNetRecv packet packetMax)) =
        n + (k + 1))
    (hMax : n + (k + 1) ≤ maxPayload)
    (hRoom : n + (k + 1) ≤ maxLen) :
    OwnBytes packet maxLen ↔
      ∀ rest : List UInt8,
        rest.length = k + 1 →
          (crc16Simple
            ((ofList (platNetRecv packet packetMax)).slice
              headerSize n ++ rest)).toNat ≠
            frameCrc (platNetRecv packet packetMax) := by
  generalize hGot : platNetRecv packet packetMax = got at *
  have hHeader : headerSize ≤ got.length := by omega
  constructor
  · intro hOwn rest hRest hCrc
    rcases exists_leftover
        (fun x => ofList rest (x - got.length)) with
      ⟨history, hLeft⟩
    have hBytes :
        (afterFrames history).rxBuf.slice got.length (k + 1) =
          rest := by
      apply List.ext_getElem?
      intro i
      by_cases hi : i < k + 1
      · have hPacket : packetMax = headerSize + maxPayload :=
          rfl
        rw [slice_getElem? _ _ _ _ hi,
          hLeft _ (Nat.zero_le _) (by omega)]
        have hGet : i < rest.length := by omega
        simp [ofList, hGet]
      · rw [List.getElem?_eq_none (by
            rw [slice_length]
            omega),
          List.getElem?_eq_none (by omega)]
    refine not_ownBytes_of_accepts ?_ history ?_ hOwn
    · dsimp only [HoldsWhole]
      rw [hGot]
      rintro ⟨hEnd, _⟩
      have hMod :=
        Nat.mod_le (load32 (ofList got) 4) 65536
      rw [packetLen] at hLen
      omega
    · rw [hGot, accepts_deliver_iff _ hHeader, hLen,
        deliver_slice_append _ hLength, hBytes]
      exact ⟨hMax, hRoom, hCrc⟩
  · intro hNever
    refine ownBytes_of_rejected fun s => ?_
    rw [hGot, accepts_deliver_iff _ hHeader, hLen,
      deliver_slice_append _ hLength]
    rintro ⟨_, _, hCrc⟩
    exact hNever _ (slice_length _ _ _) hCrc

/-
  A frame that reaches its 16-bit length is judged alone
  unless its 32-bit length is longer and it is accepted.
-/
theorem ownBytes_covered_iff
    {got : List UInt8}
    (hGot : platNetRecv packet packetMax = got)
    (hEnd :
      headerSize + packetLen (ofList got) ≤ got.length)
    (hMax : packetLen (ofList got) ≤ maxPayload)
    (hRoom : packetLen (ofList got) ≤ maxLen) :
    OwnBytes packet maxLen ↔
      load32 (ofList got) 4 < 65536 ∨
        (crc16Simple
          ((ofList got).slice headerSize
            (packetLen (ofList got)))).toNat ≠
          frameCrc got := by
  have hHeader : headerSize ≤ got.length := by omega
  by_cases hShort : load32 (ofList got) 4 < 65536
  · have hLen :
        packetLen (ofList got) = load32 (ofList got) 4 :=
      Nat.mod_eq_of_lt hShort
    have hWhole : HoldsWhole packet maxLen := by
      dsimp only [HoldsWhole]
      rw [hGot, ← hLen]
      exact ⟨hEnd, hMax, hRoom⟩
    simp only [hShort, true_or, iff_true]
    exact ownBytes_of_whole hWhole
  · simp only [hShort, false_or]
    constructor
    · intro hOwn hCrc
      refine not_ownBytes_of_accepts ?_ [] ?_ hOwn
      · dsimp only [HoldsWhole]
        rw [hGot]
        rintro ⟨_, hBound, _⟩
        have hLimit : maxPayload = 1400 := rfl
        omega
      · rw [hGot, accepts_deliver_iff _ hHeader,
          deliver_slice _ hEnd]
        exact ⟨hMax, hRoom, hCrc⟩
    · intro hCrc
      refine ownBytes_of_rejected fun s => ?_
      rw [hGot, accepts_deliver_iff _ hHeader,
        deliver_slice _ hEnd]
      rintro ⟨_, _, hSame⟩
      exact hCrc hSame

/-
  Bytes left behind complete a checksum, unless one byte is
  missing and no value of it fits.
-/
theorem forall_completion_iff
    (data : List UInt8)
    (k : Nat)
    {crc : Nat}
    (hCrc : crc < 65536) :
    (∀ rest : List UInt8,
        rest.length = k + 1 →
          (crc16Simple (data ++ rest)).toNat ≠ crc) ↔
      k = 0 ∧
        ∀ b, (crc16Simple (data ++ [b])).toNat ≠ crc := by
  constructor
  · intro hNever
    have hOne : k = 0 := by
      by_contra hMore
      rcases exists_completion data
          (k := k + 1) (by omega) hCrc with
        ⟨rest, hRest, hReach⟩
      exact hNever rest hRest hReach
    refine ⟨hOne, fun b => hNever [b] ?_⟩
    rw [hOne]
    rfl
  · rintro ⟨rfl, hNever⟩ rest hRest
    rcases List.length_eq_one_iff.mp hRest with ⟨b, rfl⟩
    exact hNever b

/-
  A frame gives the same result after any two histories, and
  is accepted only whole, exactly when it is judged alone.
-/
theorem ownBytes_iff
    (packet : List UInt8)
    (maxLen : Nat) :
    OwnBytes packet maxLen ↔ JudgedAlone packet maxLen := by
  unfold JudgedAlone
  dsimp only
  generalize hGot : platNetRecv packet packetMax = got
  by_cases hShort : got.length < headerSize
  · simp only [hShort, true_or, iff_true]
    refine ownBytes_of_rejected fun s => ?_
    rw [hGot]
    rintro ⟨hHeader, _⟩
    omega
  have hHeader : headerSize ≤ got.length :=
    Nat.le_of_not_lt hShort
  by_cases hBounds :
      maxPayload < packetLen (ofList got) ∨
        maxLen < packetLen (ofList got)
  · have hRejected : OwnBytes packet maxLen := by
      refine ownBytes_of_rejected fun s => ?_
      rw [hGot, accepts_deliver_iff _ hHeader]
      rintro ⟨hMax, hRoom, _⟩
      omega
    rcases hBounds with hMax | hRoom
    · simp only [hRejected, hMax, true_or, or_true]
    · simp only [hRejected, hRoom, true_or, or_true]
  have hMax : packetLen (ofList got) ≤ maxPayload := by omega
  have hRoom : packetLen (ofList got) ≤ maxLen := by omega
  by_cases hEnd :
      headerSize + packetLen (ofList got) ≤ got.length
  · have hNotPart :
        ¬ got.length + 1 =
          headerSize + packetLen (ofList got) := by
      omega
    rw [ownBytes_covered_iff hGot hEnd hMax hRoom]
    simp only [hShort, Nat.not_lt.mpr hMax,
      Nat.not_lt.mpr hRoom, hEnd, hNotPart, false_or,
      true_and, false_and, or_false]
  · obtain ⟨n, hLength⟩ := Nat.exists_eq_add_of_le hHeader
    obtain ⟨k, hLen⟩ :
        ∃ k, packetLen (ofList got) = n + (k + 1) :=
      ⟨packetLen (ofList got) - n - 1, by omega⟩
    have hOneByte :
        got.length + 1 =
            headerSize + packetLen (ofList got) ↔ k = 0 := by
      omega
    have hCrc : frameCrc got < 65536 := load16_lt _ _
    rw [ownBytes_partial_iff (hGot ▸ hLength) (hGot ▸ hLen)
      (by omega) (by omega), hGot,
      forall_completion_iff _ _ hCrc]
    simp only [hShort, Nat.not_lt.mpr hMax,
      Nat.not_lt.mpr hRoom, hEnd, hOneByte, false_or,
      false_and]
    refine and_congr_right fun hOne => ?_
    have hBefore : packetLen (ofList got) - 1 = n := by omega
    rw [hBefore]

/- The header of a packet with the payload `AB`. -/
def replayedHeader : List UInt8 :=
  [0x01, 0, 0, 0, 2, 0, 0, 0, 0xB1, 0xD1, 0, 0]

/-
  The header alone is accepted after the whole packet, with
  the payload that the whole packet left behind.
-/
theorem not_ownBytes_replayed :
    ¬ OwnBytes replayedHeader 1400 := by
  refine not_ownBytes_of_accepts ?_
    [(replayedHeader ++ [0x41, 0x42], 1400)] ?_
  · dsimp only [HoldsWhole]
    decide +kernel
  · decide +kernel

end Net

end AsmOS
