import AsmOS.Base.RingBuffer
import AsmOS.Net.Transport

/-
  Datagrams (`src/net/udp.c`) over the network driver.

  `rx_ring` is one array of eight slots of 1408 bytes: source
  address, port, length and 1400 bytes of data.  A length
  above 1400 makes a copy from a slot read on behind it.

  Main declarations:
    * `Udp`, `ringPush`
    * `netUdpSend`, `netUdpRecv`
-/

------------------------------------------------------------
-- The Receive Ring
------------------------------------------------------------

namespace AsmOS

namespace Net

open ByteMem

abbrev rxSlots : Nat := 8

abbrev netMaxPayload : Nat := 1400

/- `sizeof(rx_slot_t)`. -/
abbrev slotBytes : Nat := 8 + netMaxPayload

/- The buffer of `net_udp_recv`. -/
abbrev rawBytes : Nat := 1536

/- `pkt` of `net_udp_send`. -/
abbrev pktBytes : Nat := 32 + netMaxPayload

abbrev udpHeader : Nat := 11

/-
  The static variables of the file.  The ring is read from
  its first byte on.
-/
structure Udp where
  ring : ByteMem
  head : Nat
  tail : Nat
  up : Bool
  head_lt : head < rxSlots
  tail_lt : tail < rxSlots

/- Static storage before the first call. -/
def Udp.boot : Udp where
  ring := zeros
  head := 0
  tail := 0
  up := false
  head_lt := Nat.zero_lt_succ 7
  tail_lt := Nat.zero_lt_succ 7

def netInit
    (u : Udp) : Udp :=
  { u with
    head := 0
    tail := 0
    up := true
    head_lt := Nat.zero_lt_succ 7
    tail_lt := Nat.zero_lt_succ 7 }

def netShutdown
    (u : Udp) : Udp :=
  { u with up := false }

/- The stores into the slot at `base`. -/
def putSlot
    (ring : ByteMem)
    (base : Nat)
    (sip : UInt32)
    (sport : UInt16)
    (data : ByteMem)
    (len : UInt16) : ByteMem :=
  let ring := store32 ring base sip.toNat
  let ring := store16 ring (base + 4) sport.toNat
  let ring := store16 ring (base + 6) len.toNat
  storeBlock ring (base + 8) (min len.toNat netMaxPayload) data

/- `ring_push`: a full ring drops the datagram. -/
def ringPush
    (u : Udp)
    (sip : UInt32)
    (sport : UInt16)
    (data : ByteMem)
    (len : UInt16) : Udp :=
  if RingBuffer.next rxSlots u.tail = u.head then u
  else
    { u with
      ring :=
        putSlot u.ring (slotBytes * u.tail) sip sport data len
      tail := RingBuffer.next rxSlots u.tail
      tail_lt :=
        RingBuffer.next_lt u.tail (Nat.zero_lt_succ 7) }

------------------------------------------------------------
-- Sending
------------------------------------------------------------

/- `ASM`, the address, the port and the length. -/
def udpFrameHeader
    (dstIp : UInt32)
    (dstPort len : UInt16) : List UInt8 :=
  [0x41, 0x53, 0x4D,
    ((dstIp >>> 24) &&& 0xFF).toUInt8,
    ((dstIp >>> 16) &&& 0xFF).toUInt8,
    ((dstIp >>> 8) &&& 0xFF).toUInt8,
    (dstIp &&& 0xFF).toUInt8,
    (dstPort &&& 0xFF).toUInt8, (dstPort >>> 8).toUInt8,
    (len &&& 0xFF).toUInt8, (len >>> 8).toUInt8]

/- The bytes of `pkt` that the driver is given. -/
def udpFrame
    (dstIp : UInt32)
    (dstPort : UInt16)
    (data : ByteMem)
    (len : UInt16) : List UInt8 :=
  udpFrameHeader dstIp dstPort len ++
    data.slice 0 (min len.toNat (pktBytes - udpHeader))

/- The result of a send and the frame the driver was given. -/
structure UdpSent where
  rc : Int
  frame : Option (List UInt8)
  udp : Udp

/-
  `ownIp` is the address of the driver.  A datagram to it or
  to 127.0.0.1 is also put into the own ring.
-/
def netUdpSend
    (ownIp : UInt32)
    (u : Udp)
    (dstIp : UInt32)
    (dstPort : UInt16)
    (data : ByteMem)
    (len : UInt16) : UdpSent :=
  if ¬ u.up then ⟨-1, none, u⟩
  else
    let u' :=
      if dstIp = ownIp ∨ dstIp = 0x7F000001 then
        ringPush u ownIp dstPort data len
      else u
    ⟨len.toNat, some (udpFrame dstIp dstPort data len), u'⟩

------------------------------------------------------------
-- Receiving
------------------------------------------------------------

/- `plen`, the length field of a frame. -/
def udpLen
    (raw : ByteMem) : UInt16 :=
  UInt16.ofNat (load16 raw 9)

/- The tests that a frame of `n` bytes passes. -/
def IsDatagram
    (raw : ByteMem)
    (n : Nat) : Prop :=
  udpHeader ≤ n ∧ raw 0 = 0x41 ∧ raw 1 = 0x53 ∧
    raw 2 = 0x4D ∧ udpHeader + (udpLen raw).toNat ≤ n

instance
    (raw : ByteMem)
    (n : Nat) :
    Decidable (IsDatagram raw n) :=
  inferInstanceAs (Decidable (_ ∧ _))

/- `sip`, from the most significant byte on. -/
def udpIp
    (raw : ByteMem) : UInt32 :=
  ((raw 3).toUInt32 <<< 24) ||| ((raw 4).toUInt32 <<< 16) |||
    ((raw 5).toUInt32 <<< 8) ||| (raw 6).toUInt32

/- `sport`. -/
def udpPort
    (raw : ByteMem) : UInt16 :=
  (raw 7).toUInt16 ||| ((raw 8).toUInt16 <<< 8)

/- The first half of `net_udp_recv`: a datagram is pushed. -/
def takeFrame
    (packet : List UInt8)
    (u : Udp) : Udp :=
  let got := platNetRecv packet rawBytes
  let raw := ofList got
  if IsDatagram raw got.length then
    ringPush u (udpIp raw) (udpPort raw) (raw.view udpHeader)
      (udpLen raw)
  else u

/-
  The result of a receive: the caller's buffer, and the
  address and port when a datagram was taken from the ring.
-/
structure UdpReceived where
  rc : Int
  source : Option (UInt32 × UInt16)
  buf : ByteMem
  udp : Udp

/- The second half: the oldest datagram is copied out. -/
def popSlot
    (u : Udp)
    (buf : ByteMem)
    (maxLen : UInt16) : UdpReceived :=
  if u.head = u.tail then ⟨0, none, buf, u⟩
  else
    let base := slotBytes * u.head
    let cpy := min (load16 u.ring (base + 6)) maxLen.toNat
    ⟨cpy,
      some (UInt32.ofNat (load32 u.ring base),
        UInt16.ofNat (load16 u.ring (base + 4))),
      storeBlock buf 0 cpy (u.ring.view (base + 8)),
      { u with
        head := RingBuffer.next rxSlots u.head
        head_lt :=
          RingBuffer.next_lt u.head (Nat.zero_lt_succ 7) }⟩

/- `net_udp_recv` while `packet` waits in the driver. -/
def netUdpRecv
    (packet : List UInt8)
    (u : Udp)
    (buf : ByteMem)
    (maxLen : UInt16) : UdpReceived :=
  if ¬ u.up then ⟨-1, none, buf, u⟩
  else popSlot (takeFrame packet u) buf maxLen

end Net

end AsmOS
