import AsmOS.Net.StreamingTraffic

/-
  The send calls of the network drivers
  (`platform/x86/hal_net.c`, `platform/ps2/hal_net.c`) and
  what `transport_send` makes of their results.

  The NE2000 returns 0 for a frame it was given.  Without a
  card the PC driver returns the number of bytes, and so does
  the PS2 driver.  The transport layer takes any result but 0
  for an error.

  Main declarations:
    * `NetDriver`, `platNetSend`
    * `SendMeansDriver`
    * `sendResults_iff`
-/

------------------------------------------------------------
-- The Drivers
------------------------------------------------------------

namespace AsmOS

namespace Net

open ByteMem

/- The driver of a platform, with its `net_ready`. -/
inductive NetDriver where
| x86 (netReady : Bool)
| ps2 (netReady : Bool)
deriving DecidableEq, Repr

/- A result, and the bytes that the controller was given. -/
structure Handed where
  rc : Int
  wire : Option (List UInt8)
deriving DecidableEq, Repr

abbrev etherMax : Nat := 1514

abbrev etherHeader : Nat := 14

def ourMac : List UInt8 :=
  [0x52, 0x54, 0x00, 0x12, 0x34, 0x56]

/- `ne_send`. -/
def neSend
    (frame : List UInt8) : Handed :=
  ⟨0, some (frame.take etherMax)⟩

/- A broadcast from our address, of the type of IPv4. -/
def etherFrame
    (data : List UInt8) : List UInt8 :=
  List.replicate 6 0xFF ++ ourMac ++ [0x08, 0x00] ++
    data.take (etherMax - etherHeader)

/- `plat_net_send` of both platforms. -/
def platNetSend
    (data : List UInt8) : NetDriver → Handed
| .x86 netReady =>
    if netReady then neSend (etherFrame data)
    else ⟨data.length, none⟩
| .ps2 _ =>
    if data.length = 0 then ⟨-1, none⟩ else ⟨data.length, none⟩

/- The result that the transport layer sees. -/
def NetDriver.result
    (d : NetDriver)
    (frame : List UInt8) : Int :=
  (platNetSend frame d).rc

/- The display that is streamed on the platform. -/
def NetDriver.videoMode : NetDriver → VideoMode
| .x86 _ => vgaMode
| .ps2 _ => ps2Mode

/- The packet was accepted, by the drivers' conventions. -/
def Accepted
    (rc : Int)
    (frame : List UInt8) : Prop :=
  rc = 0 ∨ rc = frame.length

/-
  The result of a send is the payload's length if the driver
  accepted the packet, and -1 only if it reported an error.
-/
def SendMeansDriver
    (driver : List UInt8 → Int)
    (s : State)
    (type : UInt8)
    (payload : Option ByteMem)
    (len : UInt16) : Prop :=
  let sent := transportSend driver s type payload len
  ∃ frame, sent.frame = some frame ∧
    (Accepted (driver frame) frame → sent.rc = len.toNat) ∧
    (sent.rc = -1 → driver frame < 0)

------------------------------------------------------------
-- Results Of A Send
------------------------------------------------------------

section Sends

variable {d : NetDriver}

/- A card puts a whole packet on the wire, behind 14 bytes. -/
theorem platNetSend_wire
    {data : List UInt8}
    (hLen : data.length ≤ packetMax) :
    platNetSend data (.x86 true) =
      ⟨0,
        some
          (List.replicate 6 0xFF ++ ourMac ++ [0x08, 0x00] ++
            data)⟩ := by
  have hPacket : packetMax = 1412 := rfl
  have hEther : etherMax - etherHeader = 1500 := rfl
  have hMac : ourMac.length = 6 := rfl
  have hReady :
      platNetSend data (.x86 true) = neSend (etherFrame data) :=
    rfl
  have hWhole : data.take (etherMax - etherHeader) = data :=
    List.take_of_length_le (by omega)
  rw [hReady, neSend, etherFrame, hWhole,
    List.take_of_length_le]
  simp only [List.length_append, List.length_replicate,
    List.length_cons, List.length_nil]
  omega

/- A packet is accepted by every driver, in its own way. -/
theorem result_of_packet
    (d : NetDriver)
    (frame : List UInt8)
    (hFrame : 0 < frame.length) :
    d.result frame =
      if d = .x86 true then 0 else (frame.length : Int) := by
  unfold NetDriver.result platNetSend
  cases d with
  | x86 netReady =>
      cases netReady with
      | true => rfl
      | false => rfl
  | ps2 netReady =>
      dsimp only
      rw [if_neg (by omega), if_neg fun hEq => by cases hEq]

/- A payload that fits gives a frame with a whole header. -/
theorem transportSend_result
    (driver : List UInt8 → Int)
    {s : State}
    (hInit : s.initialized = true)
    (type : UInt8)
    (payload : Option ByteMem)
    {len : UInt16}
    (hLen : len.toNat ≤ maxPayload) :
    ∃ frame,
      (transportSend driver s type payload len).frame =
          some frame ∧
        frame.length = headerSize + len.toNat ∧
        (transportSend driver s type payload len).rc =
          (if driver frame ≠ 0 then -1 else (len.toNat : Int)) ∧
        (transportSend driver s type payload
          len).state.initialized = true := by
  have hPass :
      ¬ (¬ s.initialized = true ∨ maxPayload < len.toNat) := by
    simp [hInit]
    omega
  have hFrame :=
    transportSend_frame driver s type payload hInit hLen
  refine ⟨_, hFrame, slice_length _ _ _, ?_, ?_⟩
  · unfold transportSend
    rw [if_neg hPass]
    dsimp only
    split <;> rfl
  · unfold transportSend
    rw [if_neg hPass]
    dsimp only
    split
    · exact hInit
    · exact hInit

theorem sendMeansDriver_iff
    (d : NetDriver)
    {s : State}
    (hInit : s.initialized = true)
    (type : UInt8)
    (payload : Option ByteMem)
    {len : UInt16}
    (hLen : len.toNat ≤ maxPayload) :
    SendMeansDriver d.result s type payload len ↔
      d = .x86 true := by
  rcases transportSend_result d.result hInit type payload hLen
    with ⟨frame, hFrame, hLength, hRc, _⟩
  have hHeader : headerSize = 12 := rfl
  have hResult := result_of_packet d frame (by omega)
  unfold SendMeansDriver
  dsimp only
  rw [hFrame]
  constructor
  · rintro ⟨_, hSame, hAccepted, _⟩
    cases hSame
    by_contra hOther
    rw [if_neg hOther] at hResult
    have hDone := hAccepted (.inr hResult)
    rw [hRc, hResult, if_pos (by omega)] at hDone
    omega
  · intro hReady
    rw [if_pos hReady] at hResult
    refine ⟨frame, rfl, fun _ => ?_, fun hFailed => ?_⟩
    · rw [hRc, hResult, if_neg (not_not.mpr rfl)]
    · rw [hRc, hResult, if_neg (not_not.mpr rfl)] at hFailed
      omega

------------------------------------------------------------
-- Streamed Frames
------------------------------------------------------------

/- A card is given every chunk of the loop. -/
theorem captureLoop_ready
    (mode : VideoMode)
    (st : Streaming)
    (fb : ByteMem)
    (n chunkIdx srcOffset : Nat)
    {s : State}
    (hInit : s.initialized = true) :
    (captureLoop mode (NetDriver.x86 true).result st fb n
        chunkIdx srcOffset s).sent = true ∧
      (captureLoop mode (NetDriver.x86 true).result st fb n
        chunkIdx srcOffset s).frames.length = n := by
  induction n generalizing chunkIdx srcOffset s with
  | zero => exact ⟨rfl, rfl⟩
  | succ n ih =>
      have hCount :=
        chunkData_count mode st fb chunkIdx srcOffset
      have hFits :=
        chunkData_length_le mode st fb chunkIdx srcOffset
      rcases transportSend_result (NetDriver.x86 true).result
          hInit typeData
          (some
            (ofList (chunkData mode st fb chunkIdx srcOffset)))
          (hCount.trans_le hFits) with
        ⟨frame, hFrame, hLength, hRc, hState⟩
      have hHeader : headerSize = 12 := rfl
      have hResult :=
        result_of_packet (.x86 true) frame (by omega)
      rw [if_pos rfl] at hResult
      rw [hResult, if_neg (not_not.mpr rfl)] at hRc
      rcases ih (chunkIdx + 1)
          (srcOffset + toCopy mode st.quality srcOffset)
          hState with ⟨hSent, hFrames⟩
      rw [captureLoop]
      dsimp only
      rw [hRc, if_neg (by omega), hFrame]
      refine ⟨hSent, ?_⟩
      rw [List.length_append, hFrames, Option.toList_some,
        List.length_singleton, Nat.add_comm]

/- Any other driver's first result ends the loop. -/
theorem captureLoop_not_ready
    (hOther : d ≠ .x86 true)
    (mode : VideoMode)
    (st : Streaming)
    (fb : ByteMem)
    (n chunkIdx srcOffset : Nat)
    {s : State}
    (hInit : s.initialized = true) :
    (captureLoop mode d.result st fb (n + 1) chunkIdx
      srcOffset s).frames.length = 1 ∧
      (captureLoop mode d.result st fb (n + 1) chunkIdx
        srcOffset s).sent = false := by
  have hCount := chunkData_count mode st fb chunkIdx srcOffset
  have hFits :=
    chunkData_length_le mode st fb chunkIdx srcOffset
  rcases transportSend_result d.result hInit typeData
      (some (ofList (chunkData mode st fb chunkIdx srcOffset)))
      (hCount.trans_le hFits) with
    ⟨frame, hFrame, hLength, hRc, _⟩
  have hHeader : headerSize = 12 := rfl
  have hResult := result_of_packet d frame (by omega)
  rw [if_neg hOther] at hResult
  rw [hResult, if_pos (by omega)] at hRc
  rw [captureLoop]
  dsimp only
  rw [hRc, if_pos (by decide), hFrame]
  exact ⟨rfl, rfl⟩

/- The displays take more than one chunk at any quality. -/
theorem one_lt_nChunks
    (d : NetDriver)
    (quality : Nat) :
    1 < nChunks d.videoMode quality := by
  have hMode :
      d.videoMode = vgaMode ∨ d.videoMode = ps2Mode := by
    cases d with
    | x86 _ => exact .inl rfl
    | ps2 _ => exact .inr rfl
  by_cases hLow : quality = qualityLow
  · subst hLow
    rcases hMode with hMode | hMode
    · rw [hMode]
      decide
    · rw [hMode]
      decide
  · unfold nChunks totalBytes effectiveWidth effectiveHeight
    rw [if_neg hLow, if_neg hLow]
    rcases hMode with hMode | hMode
    · rw [hMode]
      decide
    · rw [hMode]
      decide

/- The frames of a call are those of its loop. -/
theorem streamingCaptureAndSend_frames
    (mode : VideoMode)
    (driver : List UInt8 → Int)
    (fb : ByteMem)
    (packet : List UInt8)
    {st : Streaming}
    (hRunning : st.initialized = true ∧ st.running = true)
    (s : State) :
    (streamingCaptureAndSend mode driver fb packet st s).frames =
      (captureLoop mode driver st fb (nChunks mode st.quality) 0
        0 s).frames := by
  unfold streamingCaptureAndSend
  rw [if_neg (by simp [hRunning])]
  dsimp only
  split
  · split <;> rfl
  · rfl

theorem allChunks_iff
    (d : NetDriver)
    {s : State}
    (hInit : s.initialized = true)
    {st : Streaming}
    (hRunning : st.initialized = true ∧ st.running = true)
    (fb : ByteMem)
    (packet : List UInt8) :
    (streamingCaptureAndSend d.videoMode d.result fb packet st
        s).frames.length = nChunks d.videoMode st.quality ↔
      d = .x86 true := by
  have hChunks := one_lt_nChunks d st.quality
  rw [streamingCaptureAndSend_frames _ _ _ _ hRunning]
  constructor
  · intro hAll
    by_contra hOther
    rcases Nat.exists_eq_add_of_lt hChunks with ⟨n, hn⟩
    have hFirst :=
      (captureLoop_not_ready hOther d.videoMode st fb (1 + n) 0
        0 hInit).1
    rw [hn] at hAll
    omega
  · rintro rfl
    exact (captureLoop_ready _ st fb _ 0 0 hInit).2

end Sends

/-
  On an initialised layer the results mean what the driver
  did, and a frame of the display is sent whole, exactly with
  the NE2000 found: the other drivers accept with a number of
  bytes, which is taken for an error.
-/
theorem sendResults_iff
    (d : NetDriver)
    {s : State}
    (hInit : s.initialized = true)
    (type : UInt8)
    (payload : Option ByteMem)
    {len : UInt16}
    (hLen : len.toNat ≤ maxPayload)
    {st : Streaming}
    (hRunning : st.initialized = true ∧ st.running = true)
    (fb : ByteMem)
    (packet : List UInt8) :
    (SendMeansDriver d.result s type payload len ↔
        d = .x86 true) ∧
      ((streamingCaptureAndSend d.videoMode d.result fb packet
          st s).frames.length =
          nChunks d.videoMode st.quality ↔
        d = .x86 true) :=
  ⟨sendMeansDriver_iff d hInit type payload hLen,
    allChunks_iff d hInit hRunning fb packet⟩

/- An empty payload and a frame, sent by a card. -/
theorem sendResults_iff_card :
    (SendMeansDriver (NetDriver.x86 true).result
          (transportInit State.boot) typeData none 0 ↔
        NetDriver.x86 true = .x86 true) ∧
      ((streamingCaptureAndSend vgaMode
          (NetDriver.x86 true).result zeros []
          ⟨true, true, 1, false, 0⟩
          (transportInit State.boot)).frames.length =
          nChunks vgaMode 1 ↔
        NetDriver.x86 true = .x86 true) :=
  sendResults_iff (.x86 true) rfl typeData none (by decide)
    ⟨rfl, rfl⟩ zeros []

/- The PS2 driver accepts a packet that counts as failed. -/
theorem not_sendMeansDriver :
    ¬ ∀ (d : NetDriver) (s : State) (type : UInt8)
        (payload : Option ByteMem) (len : UInt16),
      s.initialized = true → len.toNat ≤ maxPayload →
        SendMeansDriver d.result s type payload len := by
  intro hAlways
  have hMeans :=
    hAlways (.ps2 true) (transportInit State.boot) typeData none
      0 rfl (by decide)
  have hReady :=
    (sendMeansDriver_iff (.ps2 true) rfl typeData none
      (by decide)).mp hMeans
  cases hReady

end Net

end AsmOS
