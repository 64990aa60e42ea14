import AsmOS.Net.Transport

/-
  Gameplay streaming (`src/streaming.c`): the framebuffer is
  cut into chunks, each behind an eight-byte header, and sent
  as transport data.

  Main declarations:
    * `VideoMode`, `Streaming`
    * `chunkData`
    * `streamingCaptureAndSend`
-/

------------------------------------------------------------
-- Settings
------------------------------------------------------------

namespace AsmOS

namespace Net

open ByteMem

/- `VIDEO_WIDTH`, `VIDEO_HEIGHT` and `VIDEO_BPP`. -/
structure VideoMode where
  width : Nat
  height : Nat
  bpp : Nat

/- Mode 13h of the PC build. -/
def vgaMode : VideoMode := ⟨320, 200, 1⟩

/- The framebuffer of the PS2 build. -/
def ps2Mode : VideoMode := ⟨640, 480, 4⟩

abbrev frameChunkHeader : Nat := 8

abbrev frameChunkPayload : Nat := maxPayload - frameChunkHeader

abbrev qualityLow : Nat := 0

abbrev qualityMed : Nat := 1

/- The static variables of gameplay streaming. -/
structure Streaming where
  initialized : Bool
  running : Bool
  quality : Nat
  passthrough : Bool
  frameId : UInt32

def Streaming.boot : Streaming := ⟨false, false, 0, false, 0⟩

------------------------------------------------------------
-- Chunks
------------------------------------------------------------

def effectiveWidth
    (mode : VideoMode)
    (quality : Nat) : Nat :=
  if quality = qualityLow then mode.width / 2 else mode.width

def effectiveHeight
    (mode : VideoMode)
    (quality : Nat) : Nat :=
  if quality = qualityLow then mode.height / 2
  else mode.height

def totalBytes
    (mode : VideoMode)
    (quality : Nat) : Nat :=
  effectiveWidth mode quality * mode.bpp *
    effectiveHeight mode quality

def nChunks
    (mode : VideoMode)
    (quality : Nat) : Nat :=
  (totalBytes mode quality + frameChunkPayload - 1) /
    frameChunkPayload

/- The framebuffer offset that is read for byte `pix`. -/
def sourceOffset
    (mode : VideoMode)
    (quality pix : Nat) : Nat :=
  if quality = qualityLow then
    let w := effectiveWidth mode quality
    let row := pix / mode.bpp / w
    let col := pix / mode.bpp % w
    (row * 2 * mode.width + col * 2) * mode.bpp +
      pix % mode.bpp
  else pix

/- Four bytes of the frame's number, and the chunk's place. -/
def chunkHeader
    (frameId : UInt32)
    (chunkIdx count : Nat) : List UInt8 :=
  [(frameId &&& 0xFF).toUInt8,
    ((frameId >>> 8) &&& 0xFF).toUInt8,
    ((frameId >>> 16) &&& 0xFF).toUInt8,
    ((frameId >>> 24) &&& 0xFF).toUInt8,
    UInt8.ofNat (chunkIdx &&& 0xFF),
    UInt8.ofNat ((chunkIdx >>> 8) &&& 0xFF),
    UInt8.ofNat (count &&& 0xFF),
    UInt8.ofNat ((count >>> 8) &&& 0xFF)]

/- How many bytes the chunk at `srcOffset` copies. -/
def toCopy
    (mode : VideoMode)
    (quality srcOffset : Nat) : Nat :=
  if totalBytes mode quality <
      srcOffset + frameChunkPayload then
    totalBytes mode quality - srcOffset
  else frameChunkPayload

/- The bytes of `frame_chunk_buf` that are sent. -/
def chunkData
    (mode : VideoMode)
    (st : Streaming)
    (fb : ByteMem)
    (chunkIdx srcOffset : Nat) : List UInt8 :=
  chunkHeader st.frameId chunkIdx (nChunks mode st.quality) ++
    (List.range (toCopy mode st.quality srcOffset)).map fun i =>
      fb (sourceOffset mode st.quality (srcOffset + i))

------------------------------------------------------------
-- Capture
------------------------------------------------------------

/- The loop's exit, the frames sent and the transport. -/
structure Captured where
  sent : Bool
  frames : List (List UInt8)
  transport : State

/- The loop over `n` more chunks. -/
def captureLoop
    (mode : VideoMode)
    (driver : List UInt8 → Int)
    (st : Streaming)
    (fb : ByteMem) :
    Nat → Nat → Nat → State → Captured
| 0, _, _, s => ⟨true, [], s⟩
| n + 1, chunkIdx, srcOffset, s =>
    let copied := toCopy mode st.quality srcOffset
    let sent :=
      transportSend driver s typeData
        (some (ofList (chunkData mode st fb chunkIdx srcOffset)))
        (UInt16.ofNat (frameChunkHeader + copied))
    if sent.rc < 0 then
      ⟨false, sent.frame.toList, sent.state⟩
    else
      let rest :=
        captureLoop mode driver st fb n (chunkIdx + 1)
          (srcOffset + copied) sent.state
      { rest with frames := sent.frame.toList ++ rest.frames }

/- The result, the chunks sent and the statics after a call. -/
structure CaptureResult where
  rc : Int
  frames : List (List UInt8)
  ack : Option (List UInt8)
  streaming : Streaming
  transport : State

/-
  `streaming_capture_and_send`.  With passthrough on, a frame
  that waits in the driver is received and dropped.
-/
def streamingCaptureAndSend
    (mode : VideoMode)
    (driver : List UInt8 → Int)
    (fb : ByteMem)
    (packet : List UInt8)
    (st : Streaming)
    (s : State) : CaptureResult :=
  if ¬ st.initialized ∨ ¬ st.running then
    ⟨-1, [], none, st, s⟩
  else
    let done :=
      captureLoop mode driver st fb (nChunks mode st.quality)
        0 0 s
    if done.sent then
      let st' := { st with frameId := st.frameId + 1 }
      if st.passthrough then
        let got :=
          transportReceive packet done.transport (some zeros) 64
            (some 0)
        ⟨0, done.frames, got.ack, st', got.state⟩
      else ⟨0, done.frames, none, st', done.transport⟩
    else ⟨-1, done.frames, none, st, done.transport⟩

end Net

end AsmOS
