import AsmOS.Base.ByteMem

/-
  The transport layer (`src/transport.c`).

  A packet is a 12-byte header and at most 1400 payload
  bytes.  The header holds the type, flags, a 16-bit sequence
  number, a 32-bit length, a checksum of the payload and two
  reserved bytes.

  The network driver is outside of this file: sending hands
  it a frame, and its result is a parameter; receiving takes
  the frame that waits in it.

  Main declarations:
    * `State`
    * `crc16Simple`
    * `transportSend`, `transportSendBatch`
    * `transportReceive`
    * `transportTick`
-/

------------------------------------------------------------
-- Packets And Sessions
------------------------------------------------------------

namespace AsmOS

namespace Net

open ByteMem

abbrev headerSize : Nat := 12

abbrev maxPayload : Nat := 1400

abbrev packetMax : Nat := headerSize + maxPayload

abbrev typeData : UInt8 := 0x01

abbrev typeAck : UInt8 := 0x02

abbrev typeHeartbeat : UInt8 := 0x03

/- Ticks of 10 ms: 2000 ms and 5000 ms. -/
abbrev heartbeatTicks : UInt32 := 200

abbrev reconnectTicks : UInt32 := 500

abbrev maxMissedHeartbeat : UInt8 := 3

abbrev maxReconnectAttempts : Nat := 10

/- `transport_session_t`. -/
structure Session where
  localSeq : UInt16
  remoteSeq : UInt16
  connected : Bool
  heartbeatMissed : UInt8
  lastHeartbeatTicks : UInt32
deriving DecidableEq, Repr

/-
  The static variables of the file, with the two that are
  local to `transport_tick`.
-/
structure State where
  session : Session
  txBuf : ByteMem
  rxBuf : ByteMem
  initialized : Bool
  ticks : UInt32
  nextReconnectTick : UInt32
  reconnectAttempts : Nat

/- Static storage before the first call. -/
def State.boot : State where
  session := ⟨0, 0, false, 0, 0⟩
  txBuf := zeros
  rxBuf := zeros
  initialized := false
  ticks := 0
  nextReconnectTick := 0
  reconnectAttempts := 0

/- Called again on a running session, it does nothing. -/
def transportInit
    (s : State) : State :=
  if s.initialized then s
  else
    { s with
      session := ⟨0, 0, true, 0, 0⟩
      ticks := 0
      initialized := true }

def transportRequestReconnect
    (s : State) : State :=
  { s with
    session :=
      { s.session with
        connected := false
        heartbeatMissed := maxMissedHeartbeat } }

------------------------------------------------------------
-- The Checksum
------------------------------------------------------------

/- One turn of the inner loop of `crc16_simple`. -/
def crcBit
    (crc : UInt16) : UInt16 :=
  if crc &&& 1 ≠ 0 then (crc >>> 1) ^^^ 0xA001 else crc >>> 1

/- One turn of the outer loop: a byte, then eight bits. -/
def crcByte
    (crc : UInt16)
    (b : UInt8) : UInt16 :=
  crcBit^[8] (crc ^^^ b.toUInt16)

def crc16Simple
    (data : List UInt8) : UInt16 :=
  data.foldl crcByte 0xFFFF

------------------------------------------------------------
-- Sending
------------------------------------------------------------

/- The stores into a `transport_header_t`, with crc zero. -/
def putHeader
    (buf : ByteMem)
    (type : UInt8)
    (seq : UInt16)
    (len : Nat) : ByteMem :=
  let buf := storeByte buf 0 type
  let buf := storeByte buf 1 0
  let buf := store16 buf 2 seq.toNat
  let buf := store32 buf 4 len
  let buf := store16 buf 8 0
  let buf := storeByte buf 11 0
  storeByte buf 10 0

/- A null payload leaves the old payload bytes in place. -/
def putPayload
    (buf : ByteMem)
    (payload : Option ByteMem)
    (len : Nat) : ByteMem :=
  match payload with
  | none => buf
  | some p => storeBlock buf headerSize len p

/- `tx_buf` when the frame is complete. -/
def sendBuffer
    (buf : ByteMem)
    (type : UInt8)
    (seq : UInt16)
    (payload : Option ByteMem)
    (len : Nat) : ByteMem :=
  let buf := putPayload (putHeader buf type seq len) payload len
  store16 buf 8
    (crc16Simple (buf.slice headerSize len)).toNat

/- The result of a send and the frame the driver was given. -/
structure Sent where
  rc : Int
  frame : Option (List UInt8)
  state : State

/- `driver frame` is what `plat_net_send` returns. -/
def transportSend
    (driver : List UInt8 → Int)
    (s : State)
    (type : UInt8)
    (payload : Option ByteMem)
    (len : UInt16) : Sent :=
  if ¬ s.initialized ∨ maxPayload < len.toNat then
    ⟨-1, none, s⟩
  else
    let seq := s.session.localSeq
    let buf := sendBuffer s.txBuf type seq payload len.toNat
    let frame := buf.slice 0 (headerSize + len.toNat)
    let s' :=
      { s with
        txBuf := buf
        session := { s.session with localSeq := seq + 1 } }
    if driver frame ≠ 0 then ⟨-1, some frame, s'⟩
    else ⟨len.toNat, some frame, s'⟩

------------------------------------------------------------
-- Batches
------------------------------------------------------------

abbrev batchMax : Nat := 4

/- `payloads[i]`, null or not, and `lens[i]`. -/
structure BatchItem where
  payload : Option ByteMem
  len : UInt16

/- `total_len`, a 16-bit sum. -/
def batchTotal
    (batch : List BatchItem) : UInt16 :=
  batch.foldl (fun total item => total + (2 + item.len)) 0

/- A null payload leaves what was on the stack. -/
def BatchItem.bytes
    (item : BatchItem)
    (stack : ByteMem)
    (p : Nat) : List UInt8 :=
  match item.payload with
  | none => stack.slice p item.len.toNat
  | some src => src.slice 0 item.len.toNat

/-
  What the copy loop writes from `batch_buf + p` on; nothing
  when it leaves the 1400 bytes of `batch_buf`.
-/
def batchCopy
    (stack : ByteMem) :
    Nat → List BatchItem → Option (List UInt8)
| _, [] => some []
| p, item :: batch =>
    let next := p + 2 + item.len.toNat
    if maxPayload < next then none
    else
      (batchCopy stack next batch).map fun rest =>
        (item.len &&& 0xFF).toUInt8 ::
          (item.len >>> 8).toUInt8 ::
            (item.bytes stack (p + 2) ++ rest)

/- The payload of a batch: the count, a zero, the items. -/
def batchPayload
    (stack : ByteMem)
    (batch : List BatchItem) : Option (List UInt8) :=
  (batchCopy stack 2 batch).map fun rest =>
    UInt8.ofNat batch.length :: 0 :: rest

/-
  `stack` is what `batch_buf` held before the call.  There is
  no result when the copy leaves the buffer.
-/
def transportSendBatch
    (driver : List UInt8 → Int)
    (stack : ByteMem)
    (s : State)
    (batch : List BatchItem) : Option Sent :=
  if ¬ s.initialized ∨ batch.length = 0 ∨
      batchMax < batch.length then
    some ⟨-1, none, s⟩
  else if maxPayload - 2 < (batchTotal batch).toNat then
    some ⟨-1, none, s⟩
  else
    (batchPayload stack batch).map fun bytes =>
      transportSend driver s typeData (some (ofList bytes))
        (UInt16.ofNat bytes.length)

------------------------------------------------------------
-- Receiving
------------------------------------------------------------

/-
  The bytes `plat_net_recv` stores when `packet` waits in the
  driver: what fits.  It returns how many they are.
-/
def platNetRecv
    (packet : List UInt8)
    (maxLen : Nat) : List UInt8 :=
  packet.take maxLen

/-
  The result of a receive: the caller's type variable and
  buffer, and the acknowledgement the driver was given.
-/
structure Received where
  rc : Int
  outType : Option UInt8
  buffer : Option ByteMem
  ack : Option (List UInt8)
  state : State

/-
  The packet in `rx_buf` passed all checks.  A data packet is
  acknowledged with its own sequence number.
-/
def acceptPacket
    (s : State)
    (out : ByteMem)
    (len : Nat) : Received :=
  let type := s.rxBuf 0
  let seq := UInt16.ofNat (load16 s.rxBuf 2)
  let session :=
    { s.session with
      remoteSeq := seq
      lastHeartbeatTicks := s.ticks
      heartbeatMissed := 0 }
  let out := storeBlock out 0 len (s.rxBuf.view headerSize)
  if type = typeData then
    let tx := putHeader s.txBuf typeAck seq 0
    ⟨len, some type, some out, some (tx.slice 0 headerSize),
      { s with session := session, txBuf := tx }⟩
  else
    ⟨len, some type, some out, none,
      { s with session := session }⟩

/- `rx_buf` after `plat_net_recv` stored `got` in it. -/
def State.deliver
    (s : State)
    (got : List UInt8) : State :=
  { s with rxBuf := storeBlock s.rxBuf 0 got.length (ofList got) }

/- `none` for a pointer argument is the null pointer. -/
def transportReceive
    (packet : List UInt8)
    (s : State)
    (buffer : Option ByteMem)
    (maxLen : Nat)
    (outType : Option UInt8) : Received :=
  match s.initialized, buffer, outType with
  | true, some out, some _ =>
      let got := platNetRecv packet packetMax
      let s := s.deliver got
      let failed : Received := ⟨-1, outType, buffer, none, s⟩
      if got.length < headerSize then failed
      else
        -- The 32-bit length is read into a `uint16_t`.
        let len := load32 s.rxBuf 4 % 65536
        if maxPayload < len ∨ maxLen < len then failed
        else if
          (crc16Simple (s.rxBuf.slice headerSize len)).toNat ≠
            load16 s.rxBuf 8 then failed
        else acceptPacket s out len
  | _, _, _ => ⟨-1, outType, buffer, none, s⟩

------------------------------------------------------------
-- Ticks
------------------------------------------------------------

/- The heartbeat that `transport_tick` may hand the driver. -/
structure Ticked where
  frame : Option (List UInt8)
  state : State

/- The reconnection attempt of a tick that is not connected. -/
def reconnectStep
    (s : State) : State :=
  let next :=
    if s.reconnectAttempts = 0 then s.ticks + reconnectTicks
    else s.nextReconnectTick
  if next ≤ s.ticks ∧
      s.reconnectAttempts < maxReconnectAttempts then
    let attempts := s.reconnectAttempts + 1
    { s with
      reconnectAttempts := attempts
      session :=
        { s.session with
          connected := true
          heartbeatMissed := 0
          lastHeartbeatTicks := s.ticks }
      nextReconnectTick :=
        s.ticks + reconnectTicks * (if 4 < attempts then 2 else 1) }
  else { s with nextReconnectTick := next }

def transportTick
    (driver : List UInt8 → Int)
    (s : State) : Ticked :=
  if ¬ s.initialized then ⟨none, s⟩
  else
    let s := { s with ticks := s.ticks + 1 }
    if ¬ s.session.connected then ⟨none, reconnectStep s⟩
    else if
      s.ticks - s.session.lastHeartbeatTicks <
        heartbeatTicks then ⟨none, s⟩
    else
      let missed := s.session.heartbeatMissed + 1
      let session := { s.session with heartbeatMissed := missed }
      if maxMissedHeartbeat ≤ missed then
        ⟨none,
          { s with session := { session with connected := false } }⟩
      else
        let sent :=
          transportSend driver { s with session := session }
            typeHeartbeat none 0
        ⟨sent.frame, sent.state⟩

end Net

end AsmOS
