import Mathlib.Data.List.Forall2
import AsmOS.Base.Bits
import AsmOS.Net.TransportRoundTrip
import AsmOS.Net.Datagrams

/-
  Datagrams are delivered once and in order.

  Main declarations:
    * `Datagram`, `Udp.pending`
    * `pending_ringPush`, `popSlot_pending`
    * `frameDatagram_udpFrame`
    * `Link`, `linkStep`, `link_fifo`
-/

------------------------------------------------------------
-- The Ring As A Queue
------------------------------------------------------------

namespace AsmOS

namespace Net

open ByteMem

/- The fields of a slot, with the data bytes stored in it. -/
structure Datagram where
  ip : UInt32
  port : UInt16
  len : UInt16
  data : List UInt8
deriving DecidableEq

def slotDatagram
    (ring : ByteMem)
    (i : Nat) : Datagram where
  ip := UInt32.ofNat (load32 ring (slotBytes * i))
  port := UInt16.ofNat (load16 ring (slotBytes * i + 4))
  len := UInt16.ofNat (load16 ring (slotBytes * i + 6))
  data :=
    ring.slice (slotBytes * i + 8)
      (min (load16 ring (slotBytes * i + 6)) netMaxPayload)

/- The datagrams in the ring, the oldest first. -/
def Udp.pending
    (u : Udp) : List Datagram :=
  RingBuffer.contents rxSlots (slotDatagram u.ring) u.head
    u.tail

/- What `ring_push` stores of its arguments. -/
def pushedDatagram
    (sip : UInt32)
    (sport : UInt16)
    (data : ByteMem)
    (len : UInt16) : Datagram where
  ip := sip
  port := sport
  len := len
  data := data.slice 0 (min len.toNat netMaxPayload)

theorem slotBytes_eq :
    slotBytes = 1408 :=
  rfl

/- A slot is read from its own bytes. -/
theorem slotDatagram_congr
    {ring ring' : ByteMem}
    {i : Nat}
    (hAgree :
      AgreeOn ring ring' (slotBytes * i)
        (slotBytes * (i + 1))) :
    slotDatagram ring i = slotDatagram ring' i := by
  have hSlot := slotBytes_eq
  have hEnd : slotBytes * (i + 1) = slotBytes * i + 1408 := by
    rw [Nat.mul_add, Nat.mul_one, hSlot]
  have hMax : netMaxPayload = 1400 := rfl
  unfold slotDatagram
  rw [hAgree.load32_eq (by omega) (by omega),
    hAgree.load16_eq (by omega) (by omega),
    hAgree.load16_eq (by omega) (by omega)]
  congr 1
  exact slice_congr fun j hj => hAgree _ (by omega) (by omega)

theorem slotDatagram_putSlot
    (ring : ByteMem)
    (i : Nat)
    (sip : UInt32)
    (sport : UInt16)
    (data : ByteMem)
    (len : UInt16) :
    slotDatagram
        (putSlot ring (slotBytes * i) sip sport data len) i =
      pushedDatagram sip sport data len := by
  have hIp := sip.toNat_lt
  have hPort := sport.toNat_lt
  have hLen := len.toNat_lt
  have hStoredIp :
      load32 (putSlot ring (slotBytes * i) sip sport data len)
        (slotBytes * i) = sip.toNat := by
    unfold putSlot
    rw [load32_storeBlock_of_disjoint (by omega), store16,
      load32_storeBlock_of_disjoint (by omega), store16,
      load32_storeBlock_of_disjoint (by omega), load32_store32]
    exact Nat.mod_eq_of_lt hIp
  have hStoredPort :
      load16 (putSlot ring (slotBytes * i) sip sport data len)
        (slotBytes * i + 4) = sport.toNat := by
    unfold putSlot
    rw [load16_storeBlock_of_disjoint (by omega),
      load16_store16_of_disjoint _ _ (by omega),
      load16_store16]
    exact Nat.mod_eq_of_lt hPort
  have hStoredLen :
      load16 (putSlot ring (slotBytes * i) sip sport data len)
        (slotBytes * i + 6) = len.toNat := by
    unfold putSlot
    rw [load16_storeBlock_of_disjoint (by omega),
      load16_store16]
    exact Nat.mod_eq_of_lt hLen
  unfold slotDatagram pushedDatagram
  rw [hStoredIp, hStoredPort, hStoredLen, UInt32.ofNat_toNat,
    UInt16.ofNat_toNat, UInt16.ofNat_toNat]
  congr 1
  refine slice_congr fun j hj => ?_
  unfold putSlot
  rw [storeBlock_inside (by omega) (by omega)]
  congr 1
  omega

/- The other slots are left alone. -/
theorem slotDatagram_putSlot_of_ne
    (ring : ByteMem)
    {i k : Nat}
    (hNe : k ≠ i)
    (sip : UInt32)
    (sport : UInt16)
    (data : ByteMem)
    (len : UInt16) :
    slotDatagram
        (putSlot ring (slotBytes * i) sip sport data len) k =
      slotDatagram ring k := by
  have hSlot := slotBytes_eq
  have hMax : netMaxPayload = 1400 := rfl
  have hApart :
      slotBytes * (k + 1) ≤ slotBytes * i ∨
        slotBytes * (i + 1) ≤ slotBytes * k := by
    rcases Nat.lt_or_gt_of_ne hNe with hLt | hGt
    · exact Or.inl (Nat.mul_le_mul_left _ hLt)
    · exact Or.inr (Nat.mul_le_mul_left _ hGt)
  have hEnd : slotBytes * (i + 1) = slotBytes * i + 1408 := by
    rw [Nat.mul_add, Nat.mul_one, hSlot]
  have hBlock : min len.toNat netMaxPayload ≤ 1400 :=
    Nat.min_le_right _ _
  apply slotDatagram_congr
  intro x hx hx'
  unfold putSlot
  rw [storeBlock_outside (by omega),
    store16_outside _ _ (by omega),
    store16_outside _ _ (by omega),
    store32_outside _ _ (by omega)]

theorem full_iff_pending
    (u : Udp) :
    RingBuffer.next rxSlots u.tail = u.head ↔
      u.pending.length = 7 :=
  RingBuffer.full_iff _ u.head_lt u.tail_lt

/- A push appends its datagram while a slot is free. -/
theorem pending_ringPush
    {u : Udp}
    (hFree : u.pending.length ≠ 7)
    (sip : UInt32)
    (sport : UInt16)
    (data : ByteMem)
    (len : UInt16) :
    (ringPush u sip sport data len).pending =
      u.pending ++ [pushedDatagram sip sport data len] := by
  have hNext : RingBuffer.next rxSlots u.tail ≠ u.head :=
    fun hFull => hFree ((full_iff_pending u).mp hFull)
  unfold ringPush
  rw [if_neg hNext]
  unfold Udp.pending
  dsimp only
  rw [RingBuffer.contents_push u.head_lt u.tail_lt hNext
    fun i _ hNe =>
      slotDatagram_putSlot_of_ne u.ring hNe sip sport data len,
    slotDatagram_putSlot]

theorem popSlot_empty
    {u : Udp}
    (hEmpty : u.pending = [])
    (buf : ByteMem)
    (maxLen : UInt16) :
    popSlot u buf maxLen = ⟨0, none, buf, u⟩ := by
  have hSame :=
    (RingBuffer.contents_eq_nil_iff _ u.head_lt u.tail_lt).mp
      hEmpty
  unfold popSlot
  rw [if_pos hSame]

/- The address and the port a datagram came from. -/
def Datagram.source
    (d : Datagram) : UInt32 × UInt16 :=
  (d.ip, d.port)

/- A datagram as the receiver gets it. -/
structure Delivers
    (d : Datagram)
    (maxLen : UInt16)
    (got : UdpReceived) : Prop where
  rc_eq : got.rc = (min d.len.toNat maxLen.toNat : Nat)
  source_eq : got.source = some (d.ip, d.port)
  bytes_eq :
    got.buf.slice 0 got.rc.toNat = d.data.take maxLen.toNat

/- The oldest slot is taken. -/
theorem popSlot_head
    {u : Udp}
    {d : Datagram}
    {rest : List Datagram}
    (hPending : u.pending = d :: rest)
    (buf : ByteMem)
    (maxLen : UInt16) :
    u.head ≠ u.tail ∧ slotDatagram u.ring u.head = d ∧
      (popSlot u buf maxLen).udp.pending = rest := by
  have hSome : u.head ≠ u.tail := by
    intro hSame
    have hEmpty :=
      (RingBuffer.contents_eq_nil_iff (slotDatagram u.ring)
        u.head_lt u.tail_lt).mpr hSame
    unfold Udp.pending at hPending
    rw [hEmpty] at hPending
    cases hPending
  unfold Udp.pending at hPending
  rw [RingBuffer.contents_pop _ u.head_lt u.tail_lt hSome]
    at hPending
  rcases List.cons.inj hPending with ⟨hHead, hRest⟩
  refine ⟨hSome, hHead, ?_⟩
  unfold popSlot
  rw [if_neg hSome]
  exact hRest

/- A pop hands out the source of the oldest datagram. -/
theorem popSlot_source
    (u : Udp)
    (buf : ByteMem)
    (maxLen : UInt16) :
    (popSlot u buf maxLen).source =
        u.pending.head?.map Datagram.source ∧
      (popSlot u buf maxLen).udp.pending = u.pending.tail := by
  cases hPending : u.pending with
  | nil =>
      rw [popSlot_empty hPending]
      exact ⟨rfl, hPending⟩
  | cons d rest =>
      rcases popSlot_head hPending buf maxLen with
        ⟨hSome, hHead, hRest⟩
      refine ⟨?_, hRest⟩
      rw [← hHead]
      unfold popSlot
      rw [if_neg hSome]
      rfl

/-
  The oldest datagram is delivered, if it or what is asked
  for fits the data of a slot.
-/
theorem popSlot_delivers
    {u : Udp}
    {d : Datagram}
    {rest : List Datagram}
    (hPending : u.pending = d :: rest)
    (buf : ByteMem)
    {maxLen : UInt16}
    (hFits :
      d.len.toNat ≤ netMaxPayload ∨
        maxLen.toNat ≤ netMaxPayload) :
    Delivers d maxLen (popSlot u buf maxLen) := by
  rcases popSlot_head hPending buf maxLen with
    ⟨hSome, hHead, _⟩
  have hLen :
      load16 u.ring (slotBytes * u.head + 6) =
        d.len.toNat := by
    rw [← hHead]
    exact (UInt16.toNat_ofNat_of_lt' (load16_lt _ _)).symm
  have hData :
      d.data =
        u.ring.slice (slotBytes * u.head + 8)
          (min d.len.toNat netMaxPayload) := by
    have hStored := congrArg Datagram.data hHead
    simp only [slotDatagram, hLen] at hStored
    exact hStored.symm
  have hCopy :
      min maxLen.toNat (min d.len.toNat netMaxPayload) =
        min d.len.toNat maxLen.toNat := by
    omega
  unfold popSlot
  rw [if_neg hSome]
  refine ⟨?_, ?_, ?_⟩
  · dsimp only
    rw [hLen]
  · rw [← hHead]
    rfl
  · dsimp only
    rw [Int.toNat_natCast, hLen, hData, slice_storeBlock,
      slice_view, take_slice, hCopy, Nat.add_zero]

theorem popSlot_pending
    {u : Udp}
    {d : Datagram}
    {rest : List Datagram}
    (hPending : u.pending = d :: rest)
    (hFits : d.len.toNat ≤ netMaxPayload)
    (buf : ByteMem)
    (maxLen : UInt16) :
    Delivers d maxLen (popSlot u buf maxLen) ∧
      (popSlot u buf maxLen).udp.pending = rest :=
  ⟨popSlot_delivers hPending buf (.inl hFits),
    (popSlot_head hPending buf maxLen).2.2⟩

------------------------------------------------------------
-- Frames
------------------------------------------------------------

/- The datagram that `net_udp_recv` finds in a frame. -/
def frameDatagram
    (packet : List UInt8) : Option Datagram :=
  let got := platNetRecv packet rawBytes
  let raw := ofList got
  if IsDatagram raw got.length then
    some (pushedDatagram (udpIp raw) (udpPort raw)
      (raw.view udpHeader) (udpLen raw))
  else none

/- A frame's datagram is appended while a slot is free. -/
theorem takeFrame_pending
    (packet : List UInt8)
    {u : Udp}
    (hFree : u.pending.length ≠ 7) :
    (takeFrame packet u).pending =
      u.pending ++ (frameDatagram packet).toList := by
  unfold takeFrame frameDatagram
  dsimp only
  split
  · rw [pending_ringPush hFree]
    rfl
  · exact (List.append_nil _).symm

/- The queue with a frame's datagram; a full one drops it. -/
def fillQueue
    (q : List Datagram)
    (packet : List UInt8) : List Datagram :=
  if q.length = 7 then q
  else q ++ (frameDatagram packet).toList

theorem takeFrame_pending_eq
    (packet : List UInt8)
    (u : Udp) :
    (takeFrame packet u).pending =
      fillQueue u.pending packet := by
  unfold fillQueue
  by_cases hFull : u.pending.length = 7
  · have hNext := (full_iff_pending u).mpr hFull
    rw [if_pos hFull]
    unfold takeFrame ringPush
    dsimp only
    rw [if_pos hNext]
    split
    · rfl
    · rfl
  · rw [if_neg hFull, takeFrame_pending packet hFull]

/- A full ring takes no frame. -/
theorem takeFrame_full
    {u : Udp}
    (packet : List UInt8)
    (hFull : u.pending.length = 7) :
    takeFrame packet u = u := by
  have hNext := (full_iff_pending u).mpr hFull
  unfold takeFrame ringPush
  dsimp only
  rw [if_pos hNext, ite_self]

/- A frame leaves the datagrams that are already pending. -/
theorem takeFrame_prefix
    (packet : List UInt8)
    (u : Udp) :
    u.pending <+: (takeFrame packet u).pending := by
  by_cases hFull : u.pending.length = 7
  · have hSame := takeFrame_full packet hFull
    exact ⟨[], by rw [hSame, List.append_nil]⟩
  · rw [takeFrame_pending packet hFull]
    exact List.prefix_append _ _

theorem takeFrame_of_none
    {packet : List UInt8}
    (hNone : frameDatagram packet = none)
    (u : Udp) :
    takeFrame packet u = u := by
  unfold frameDatagram at hNone
  unfold takeFrame
  dsimp only at hNone ⊢
  split at hNone
  · cases hNone
  next hNot => rw [if_neg hNot]

------------------------------------------------------------
-- The Header Of A Frame
------------------------------------------------------------

theorem toUInt32_byte
    (x : UInt32) :
    (x &&& 0xFF).toUInt8.toUInt32.toNat = x.toNat % 256 := by
  have hMask : (0xFF : UInt32).toNat = 2 ^ 8 - 1 := rfl
  rw [UInt8.toNat_toUInt32, UInt32.toNat_toUInt8,
    UInt32.toNat_and, hMask, Nat.and_two_pow_sub_one_eq_mod]
  omega

/- The address is put together from its four bytes. -/
theorem ip_of_bytes
    (ip : UInt32) :
    (((ip >>> 24) &&& 0xFF).toUInt8.toUInt32 <<< 24) |||
        (((ip >>> 16) &&& 0xFF).toUInt8.toUInt32 <<< 16) |||
        (((ip >>> 8) &&& 0xFF).toUInt8.toUInt32 <<< 8) |||
        (ip &&& 0xFF).toUInt8.toUInt32 = ip := by
  have hBound := ip.toNat_lt
  have hEight : (8 : UInt32).toNat % 32 = 8 := rfl
  have hSixteen : (16 : UInt32).toNat % 32 = 16 := rfl
  have hTwentyFour : (24 : UInt32).toNat % 32 = 24 := rfl
  have hByte : ∀ n, n % 256 < 256 :=
    fun n => Nat.mod_lt n (by omega)
  -- No byte is shifted out of the 32 bits.
  have hShift :
      ∀ b k : Nat, b < 256 → k ≤ 24 →
        b <<< k % 2 ^ 32 = b <<< k := by
    intro b k hb hk
    rw [Nat.shiftLeft_eq]
    apply Nat.mod_eq_of_lt
    calc
      b * 2 ^ k < 2 ^ 8 * 2 ^ k :=
        Nat.mul_lt_mul_of_pos_right hb (by positivity)
      _ = 2 ^ (8 + k) := (pow_add 2 8 k).symm
      _ ≤ 2 ^ 32 := Nat.pow_le_pow_right (by omega) (by omega)
  rw [← UInt32.toNat_inj]
  simp only [UInt32.toNat_or, UInt32.toNat_shiftLeft,
    toUInt32_byte, UInt32.toNat_shiftRight, hEight, hSixteen,
    hTwentyFour]
  rw [hShift _ 24 (hByte _) (by omega),
    hShift _ 16 (hByte _) (by omega),
    hShift _ 8 (hByte _) (by omega),
    Bits.or_four_bytes _ (hByte _) (hByte _) (hByte _)]
  simp only [Nat.shiftRight_eq_div_pow]
  omega

theorem toUInt16_low
    (x : UInt16) :
    (x &&& 0xFF).toUInt8.toNat = x.toNat % 256 := by
  have hMask : (0xFF : UInt16).toNat = 2 ^ 8 - 1 := rfl
  rw [UInt16.toNat_toUInt8, UInt16.toNat_and, hMask,
    Nat.and_two_pow_sub_one_eq_mod]
  omega

theorem toUInt16_high
    (x : UInt16) :
    (x >>> 8).toUInt8.toNat = x.toNat / 256 := by
  have hBound := x.toNat_lt
  have hEight : (8 : UInt16).toNat % 16 = 8 := rfl
  rw [UInt16.toNat_toUInt8, UInt16.toNat_shiftRight, hEight,
    Nat.shiftRight_eq_div_pow]
  omega

theorem port_of_bytes
    (port : UInt16) :
    (port &&& 0xFF).toUInt8.toUInt16 |||
        ((port >>> 8).toUInt8.toUInt16 <<< 8) = port := by
  have hBound := port.toNat_lt
  have hEight : (8 : UInt16).toNat % 16 = 8 := rfl
  rw [← UInt16.toNat_inj, UInt16.toNat_or,
    UInt16.toNat_shiftLeft, UInt8.toNat_toUInt16,
    UInt8.toNat_toUInt16, toUInt16_low, toUInt16_high, hEight]
  have hFits :
      (port.toNat / 256) <<< 8 % 2 ^ 16 =
        (port.toNat / 256) <<< 8 := by
    rw [Nat.shiftLeft_eq]
    omega
  rw [hFits, Bits.or_two_bytes _ (Nat.mod_lt _ (by omega))]
  omega

section SentFrame

variable (dstIp : UInt32) (dstPort : UInt16)
variable (data : ByteMem) {len : UInt16}

theorem udpFrameHeader_length
    (len : UInt16) :
    (udpFrameHeader dstIp dstPort len).length = 11 :=
  rfl

/- All the bytes of a payload fit the packet. -/
theorem udpFrame_copied
    (hLen : len.toNat ≤ netMaxPayload) :
    min len.toNat (pktBytes - udpHeader) = len.toNat := by
  have hMax : netMaxPayload = 1400 := rfl
  have hPkt : pktBytes - udpHeader = 1421 := rfl
  exact Nat.min_eq_left (by omega)

theorem udpFrame_length
    (hLen : len.toNat ≤ netMaxPayload) :
    (udpFrame dstIp dstPort data len).length =
      11 + len.toNat := by
  rw [udpFrame, List.length_append, udpFrameHeader_length,
    slice_length, udpFrame_copied hLen]

/- The length field of a frame. -/
theorem udpLen_udpFrame
    (len : UInt16) :
    udpLen (ofList (udpFrame dstIp dstPort data len)) =
      len := by
  have hBound := len.toNat_lt
  have hLow :
      ofList (udpFrame dstIp dstPort data len) 9 =
        (len &&& 0xFF).toUInt8 :=
    rfl
  have hHigh :
      ofList (udpFrame dstIp dstPort data len) 10 =
        (len >>> 8).toUInt8 :=
    rfl
  rw [← UInt16.toNat_inj, udpLen,
    UInt16.toNat_ofNat_of_lt' (load16_lt _ _), load16, hLow,
    hHigh, toUInt16_low, toUInt16_high]
  omega

/- The payload of a frame lies behind its header. -/
theorem slice_udpFrame
    (hLen : len.toNat ≤ netMaxPayload) :
    (ofList (udpFrame dstIp dstPort data len)).slice 11
        len.toNat =
      data.slice 0 len.toNat := by
  have hHeader := udpFrameHeader_length dstIp dstPort len
  apply slice_congr
  intro i hi
  unfold udpFrame ofList
  rw [udpFrame_copied hLen, List.getD,
    List.getElem?_append_right (by omega),
    slice_getElem? _ _ _ _ (by omega), Option.getD_some,
    hHeader]
  congr 1
  omega

/- The frame of a send passes the checks of a receiver. -/
theorem udpFrame_isDatagram
    (hLen : len.toNat ≤ netMaxPayload) :
    IsDatagram (ofList (udpFrame dstIp dstPort data len))
      (udpFrame dstIp dstPort data len).length := by
  have hUdp : udpHeader = 11 := rfl
  refine ⟨?_, rfl, rfl, rfl, ?_⟩
  · rw [udpFrame_length dstIp dstPort data hLen]
    exact Nat.le_add_right _ _
  · rw [udpFrame_length dstIp dstPort data hLen,
      udpLen_udpFrame]

/- The frame of a send holds its datagram. -/
theorem frameDatagram_udpFrame
    (hLen : len.toNat ≤ netMaxPayload) :
    frameDatagram (udpFrame dstIp dstPort data len) =
      some (pushedDatagram dstIp dstPort data len) := by
  have hMax : netMaxPayload = 1400 := rfl
  have hRaw : rawBytes = 1536 := rfl
  have hUdp : udpHeader = 11 := rfl
  have hLength := udpFrame_length dstIp dstPort data hLen
  have hWhole :
      platNetRecv (udpFrame dstIp dstPort data len) rawBytes =
        udpFrame dstIp dstPort data len :=
    List.take_of_length_le (by omega)
  have hStoredIp :
      udpIp (ofList (udpFrame dstIp dstPort data len)) =
        dstIp :=
    ip_of_bytes dstIp
  have hStoredPort :
      udpPort (ofList (udpFrame dstIp dstPort data len)) =
        dstPort :=
    port_of_bytes dstPort
  have hPayload := slice_udpFrame dstIp dstPort data hLen
  unfold frameDatagram
  rw [hWhole,
    if_pos (udpFrame_isDatagram dstIp dstPort data hLen),
    hStoredIp, hStoredPort, udpLen_udpFrame]
  unfold pushedDatagram
  rw [Nat.min_eq_left hLen, slice_view, hUdp, Nat.add_zero,
    hPayload]

end SentFrame

------------------------------------------------------------
-- Two Nodes
------------------------------------------------------------

/- What one receive call that got a datagram returned. -/
structure Delivery where
  maxLen : UInt16
  got : UdpReceived

/-
  A sender and a receiver.  Frames are on the wire, then in
  the receiver's driver.  `sent` and `got` are the histories
  of both sides.
-/
structure Link where
  sender : Udp
  wire : List (List UInt8)
  nic : List (List UInt8)
  receiver : Udp
  sent : List Datagram
  got : List Delivery

/- Before the first send. -/
def Link.start
    (sender receiver : Udp) : Link where
  sender := sender
  wire := []
  nic := []
  receiver := receiver
  sent := []
  got := []

inductive LinkEvent where
| send
    (dstIp : UInt32)
    (dstPort : UInt16)
    (data : ByteMem)
    (len : UInt16)
| arrive
| recv
    (buf : ByteMem)
    (maxLen : UInt16)

/- Payloads of one to 1400 bytes. -/
def LinkEvent.Fits : LinkEvent → Prop
| .send _ _ _ len => 1 ≤ len.toNat ∧ len.toNat ≤ netMaxPayload
| .arrive => True
| .recv _ _ => True

/- `net_udp_send` on the sender; `ownIp` is its address. -/
def Link.send
    (ownIp : UInt32)
    (l : Link)
    (dstIp : UInt32)
    (dstPort : UInt16)
    (data : ByteMem)
    (len : UInt16) : Link :=
  let r := netUdpSend ownIp l.sender dstIp dstPort data len
  { l with
    sender := r.udp
    wire := l.wire ++ r.frame.toList
    sent :=
      l.sent ++
        (r.frame.map fun _ =>
          pushedDatagram dstIp dstPort data len).toList }

/- The oldest frame on the wire reaches the driver. -/
def Link.arrive
    (l : Link) : Link :=
  { l with
    wire := l.wire.tail
    nic := l.nic ++ l.wire.head?.toList }

/- `net_udp_recv` on the receiver. -/
def Link.recv
    (l : Link)
    (buf : ByteMem)
    (maxLen : UInt16) : Link :=
  let r := netUdpRecv (l.nic.headD []) l.receiver buf maxLen
  { l with
    nic := if l.receiver.up then l.nic.tail else l.nic
    receiver := r.udp
    got :=
      l.got ++ (r.source.map fun _ => ⟨maxLen, r⟩).toList }

def linkStep
    (ownIp : UInt32)
    (l : Link) : LinkEvent → Link
| .send dstIp dstPort data len =>
    l.send ownIp dstIp dstPort data len
| .arrive => l.arrive
| .recv buf maxLen => l.recv buf maxLen

def linkRun
    (ownIp : UInt32)
    (l : Link)
    (events : List LinkEvent) : Link :=
  events.foldl (linkStep ownIp) l

/- The datagram that a send of a running node puts on the wire. -/
def LinkEvent.datagram? : LinkEvent → Option Datagram
| .send dstIp dstPort data len =>
    some (pushedDatagram dstIp dstPort data len)
| .arrive => none
| .recv _ _ => none

/-
  What the next receive call finds: the datagrams in the ring
  and that of the driver's oldest frame.
-/
def Link.waiting
    (l : Link) : List Datagram :=
  l.receiver.pending ++
    (l.nic.head?.bind frameDatagram).toList

/- At most seven datagrams wait at the receiver. -/
def Link.SevenPending
    (l : Link) : Prop :=
  l.receiver.pending.length + l.nic.length ≤ 7

/- No state of the run has more of them. -/
def AtMostSeven
    (ownIp : UInt32) :
    Link → List LinkEvent → Prop
| l, [] => l.SevenPending
| l, event :: events =>
    l.SevenPending ∧
      AtMostSeven ownIp (linkStep ownIp l event) events

------------------------------------------------------------
-- The Order Of Deliveries
------------------------------------------------------------

/-
  All datagrams so far, `old` ones of the ring first: taken
  ones as they were delivered, then those in the ring, then
  those in the frames.
-/
structure InOrder
    (old : List Datagram)
    (l : Link) : Prop where
  up : l.receiver.up = true
  fits : ∀ d ∈ old ++ l.sent, d.len.toNat ≤ netMaxPayload
  order :
    ∃ taken coming,
      old ++ l.sent = taken ++ l.receiver.pending ++ coming ∧
        List.Forall₂
          (fun d delivery =>
            Delivers d delivery.maxLen delivery.got)
          taken l.got ∧
        (l.nic ++ l.wire).map frameDatagram =
          coming.map some

variable {old : List Datagram} {l : Link}

theorem InOrder.start
    (sender : Udp)
    {receiver : Udp}
    (hUp : receiver.up = true)
    (hFits :
      ∀ d ∈ receiver.pending, d.len.toNat ≤ netMaxPayload) :
    InOrder receiver.pending (Link.start sender receiver) := by
  refine ⟨hUp, ?_, [], [], ?_, List.Forall₂.nil, rfl⟩
  · intro d hd
    rw [Link.start, List.append_nil] at hd
    exact hFits d hd
  · rw [Link.start, List.append_nil, List.append_nil,
      List.nil_append]

theorem InOrder.send
    (hOrder : InOrder old l)
    (ownIp dstIp : UInt32)
    (dstPort : UInt16)
    (data : ByteMem)
    {len : UInt16}
    (hLen : len.toNat ≤ netMaxPayload) :
    InOrder old (l.send ownIp dstIp dstPort data len) := by
  by_cases hUp : l.sender.up = true
  · have hFrame :
        (netUdpSend ownIp l.sender dstIp dstPort data
          len).frame =
          some (udpFrame dstIp dstPort data len) := by
      unfold netUdpSend
      rw [if_neg (not_not.mpr hUp)]
    rcases hOrder with
      ⟨hReceiver, hFits, taken, coming, hAll, hTaken, hComing⟩
    unfold Link.send
    dsimp only
    rw [hFrame]
    simp only [Option.map_some, Option.toList_some]
    refine ⟨hReceiver, ?_, taken,
      coming ++ [pushedDatagram dstIp dstPort data len], ?_,
      hTaken, ?_⟩
    · intro d hd
      rw [← List.append_assoc] at hd
      rcases List.mem_append.mp hd with hOld | hNew
      · exact hFits d hOld
      · rw [List.mem_singleton.mp hNew]
        exact hLen
    · rw [← List.append_assoc, hAll, List.append_assoc]
    · rw [← List.append_assoc, List.map_append, hComing,
        List.map_append, List.map_singleton,
        frameDatagram_udpFrame _ _ _ hLen]
      rfl
  · have hNone :
        netUdpSend ownIp l.sender dstIp dstPort data len =
          ⟨-1, none, l.sender⟩ := by
      unfold netUdpSend
      rw [if_pos hUp]
    unfold Link.send
    rw [hNone]
    simpa using hOrder

theorem InOrder.arrive
    (hOrder : InOrder old l) :
    InOrder old l.arrive := by
  have hFrames :
      l.arrive.nic ++ l.arrive.wire = l.nic ++ l.wire := by
    unfold Link.arrive
    cases l.wire with
    | nil => simp
    | cons frame wire => simp
  rcases hOrder with
    ⟨hReceiver, hFits, taken, coming, hAll, hTaken, hComing⟩
  refine ⟨hReceiver, hFits, taken, coming, hAll, hTaken, ?_⟩
  rw [hFrames]
  exact hComing

theorem takeFrame_up
    (packet : List UInt8)
    (u : Udp) :
    (takeFrame packet u).up = u.up := by
  unfold takeFrame ringPush
  dsimp only
  split
  · split
    · rfl
    · rfl
  · rfl

theorem popSlot_up
    (u : Udp)
    (buf : ByteMem)
    (maxLen : UInt16) :
    (popSlot u buf maxLen).udp.up = u.up := by
  unfold popSlot
  split
  · rfl
  · rfl

/- The first half of a receive moves a frame to the ring. -/
theorem InOrder.takeFrame
    (hOrder : InOrder old l)
    (hSeven : l.SevenPending) :
    ∃ taken coming,
      old ++ l.sent =
          taken ++
            (takeFrame (l.nic.headD []) l.receiver).pending ++
              coming ∧
        List.Forall₂
          (fun d delivery =>
            Delivers d delivery.maxLen delivery.got)
          taken l.got ∧
        (l.nic.tail ++ l.wire).map frameDatagram =
          coming.map some := by
  rcases hOrder.order with
    ⟨taken, coming, hAll, hTaken, hComing⟩
  unfold Link.SevenPending at hSeven
  cases hNic : l.nic with
  | nil =>
      have hNone : frameDatagram [] = none := by decide
      rw [hNic] at hComing
      refine ⟨taken, coming, ?_, hTaken, hComing⟩
      rw [List.headD_nil, takeFrame_of_none hNone]
      exact hAll
  | cons frame nic =>
      rw [hNic, List.cons_append, List.map_cons] at hComing
      rcases List.map_eq_cons_iff.mp hComing.symm with
        ⟨d, coming', rfl, hFrame, hRest⟩
      have hFree : l.receiver.pending.length ≠ 7 := by
        rw [hNic, List.length_cons] at hSeven
        omega
      refine ⟨taken, coming', ?_, hTaken, hRest.symm⟩
      rw [List.headD_cons, takeFrame_pending frame hFree,
        ← hFrame, Option.toList_some, hAll]
      simp only [List.append_assoc, List.singleton_append]

/- A receive call takes a frame and then the oldest slot. -/
theorem recv_eq
    (hUp : l.receiver.up = true)
    (buf : ByteMem)
    (maxLen : UInt16) :
    let r :=
      popSlot (takeFrame (l.nic.headD []) l.receiver) buf maxLen
    l.recv buf maxLen =
      { l with
        nic := l.nic.tail
        receiver := r.udp
        got :=
          l.got ++
            (r.source.map fun _ => (⟨maxLen, r⟩ : Delivery)
              ).toList } := by
  have hCall :
      netUdpRecv (l.nic.headD []) l.receiver buf maxLen =
        popSlot (takeFrame (l.nic.headD []) l.receiver) buf
          maxLen := by
    unfold netUdpRecv
    rw [if_neg (not_not.mpr hUp)]
  unfold Link.recv
  dsimp only
  rw [hCall, if_pos hUp]

/- The ring that a receive call takes its datagram from. -/
theorem takeFrame_waiting
    (hSeven : l.SevenPending) :
    (takeFrame (l.nic.headD []) l.receiver).pending =
      l.waiting := by
  unfold Link.SevenPending at hSeven
  unfold Link.waiting
  cases hNic : l.nic with
  | nil =>
      have hNone : frameDatagram [] = none := by decide
      rw [List.headD_nil, takeFrame_of_none hNone,
        List.head?_nil, Option.bind_none, Option.toList_none,
        List.append_nil]
  | cons frame nic =>
      have hFree : l.receiver.pending.length ≠ 7 := by
        rw [hNic, List.length_cons] at hSeven
        omega
      rw [List.headD_cons, takeFrame_pending frame hFree,
        List.head?_cons, Option.bind_some]

/- A call that finds nothing delivers nothing. -/
theorem InOrder.recv_nothing
    (hOrder : InOrder old l)
    (hSeven : l.SevenPending)
    (hWaiting : l.waiting = [])
    (buf : ByteMem)
    (maxLen : UInt16) :
    (l.recv buf maxLen).got = l.got := by
  rw [recv_eq hOrder.up, popSlot_empty
    ((takeFrame_waiting hSeven).trans hWaiting)]
  exact List.append_nil _

/- A call that finds datagrams delivers the oldest of them. -/
theorem InOrder.recv_oldest
    (hOrder : InOrder old l)
    (hSeven : l.SevenPending)
    {d : Datagram}
    {rest : List Datagram}
    (hWaiting : l.waiting = d :: rest)
    (buf : ByteMem)
    (maxLen : UInt16) :
    ∃ r,
      (l.recv buf maxLen).got = l.got ++ [⟨maxLen, r⟩] ∧
        Delivers d maxLen r ∧
          (l.recv buf maxLen).receiver.pending = rest := by
  have hPending := (takeFrame_waiting hSeven).trans hWaiting
  rcases hOrder.takeFrame hSeven with ⟨taken, coming, hAll, _⟩
  have hMember : d ∈ old ++ l.sent := by
    rw [hAll, hPending]
    simp
  rcases popSlot_pending hPending (hOrder.fits d hMember) buf
      maxLen with ⟨hDelivers, hRest⟩
  refine ⟨_, ?_, hDelivers, ?_⟩
  · rw [recv_eq hOrder.up]
    dsimp only
    rw [hDelivers.source_eq]
    rfl
  · rw [recv_eq hOrder.up]
    exact hRest

theorem InOrder.recv
    (hOrder : InOrder old l)
    (hSeven : l.SevenPending)
    (buf : ByteMem)
    (maxLen : UInt16) :
    InOrder old (l.recv buf maxLen) := by
  rcases hOrder.takeFrame hSeven with
    ⟨taken, coming, hAll, hTaken, hComing⟩
  have hUp := takeFrame_up (l.nic.headD []) l.receiver
  rw [hOrder.up] at hUp
  rw [takeFrame_waiting hSeven] at hAll
  have hKept : (l.recv buf maxLen).receiver.up = true := by
    rw [recv_eq hOrder.up]
    exact (popSlot_up _ buf maxLen).trans hUp
  have hFrames :
      (l.recv buf maxLen).nic ++ (l.recv buf maxLen).wire =
        l.nic.tail ++ l.wire := by
    rw [recv_eq hOrder.up]
  have hSent : (l.recv buf maxLen).sent = l.sent := rfl
  rw [← hFrames] at hComing
  cases hWaiting : l.waiting with
  | nil =>
      have hRing : (l.recv buf maxLen).receiver.pending = [] := by
        have hEmpty := (takeFrame_waiting hSeven).trans hWaiting
        rw [recv_eq hOrder.up, popSlot_empty hEmpty]
        exact hEmpty
      refine ⟨hKept, hOrder.fits, taken, coming, ?_, ?_, hComing⟩
      · rw [hSent, hRing, hAll, hWaiting]
      · rw [hOrder.recv_nothing hSeven hWaiting]
        exact hTaken
  | cons d rest =>
      rcases hOrder.recv_oldest hSeven hWaiting buf maxLen with
        ⟨r, hGot, hDelivers, hRest⟩
      refine ⟨hKept, hOrder.fits, taken ++ [d], coming, ?_, ?_,
        hComing⟩
      · rw [hSent, hRest, hAll, hWaiting]
        simp only [List.append_assoc, List.singleton_append]
      · rw [hGot]
        exact List.rel_append hTaken
          (List.Forall₂.cons hDelivers List.Forall₂.nil)

theorem InOrder.step
    (hOrder : InOrder old l)
    (hSeven : l.SevenPending)
    (ownIp : UInt32)
    {event : LinkEvent}
    (hFits : event.Fits) :
    InOrder old (linkStep ownIp l event) := by
  cases event with
  | send dstIp dstPort data len =>
      exact hOrder.send ownIp dstIp dstPort data hFits.2
  | arrive => exact hOrder.arrive
  | recv buf maxLen => exact hOrder.recv hSeven buf maxLen

theorem InOrder.run
    (ownIp : UInt32)
    {events : List LinkEvent}
    (hOrder : InOrder old l)
    (hFits : ∀ event ∈ events, event.Fits)
    (hSeven : AtMostSeven ownIp l events) :
    InOrder old (linkRun ownIp l events) := by
  induction events generalizing l with
  | nil => exact hOrder
  | cons event events ih =>
      rcases hSeven with ⟨hNow, hLater⟩
      have hStep :=
        hOrder.step hNow ownIp
          (hFits event List.mem_cons_self)
      exact ih hStep
        (fun next hNext =>
          hFits next (List.mem_cons_of_mem _ hNext))
        hLater

/- A run that keeps to seven ends with at most seven. -/
theorem AtMostSeven.last
    {ownIp : UInt32}
    {events : List LinkEvent}
    (hSeven : AtMostSeven ownIp l events) :
    (linkRun ownIp l events).SevenPending := by
  induction events generalizing l with
  | nil => exact hSeven
  | cons event events ih => exact ih hSeven.2

/- A send of a running node is a frame, and it keeps running. -/
theorem netUdpSend_running
    {u : Udp}
    (hUp : u.up = true)
    (ownIp dstIp : UInt32)
    (dstPort : UInt16)
    (data : ByteMem)
    (len : UInt16) :
    (netUdpSend ownIp u dstIp dstPort data len).frame =
        some (udpFrame dstIp dstPort data len) ∧
      (netUdpSend ownIp u dstIp dstPort data len).udp.up =
        true := by
  unfold netUdpSend
  rw [if_neg (not_not.mpr hUp)]
  refine ⟨rfl, ?_⟩
  dsimp only
  split
  · unfold ringPush
    split
    · exact hUp
    · exact hUp
  · exact hUp

/- A running sender puts every datagram on the wire. -/
theorem linkRun_sent
    (ownIp : UInt32)
    (hUp : l.sender.up = true)
    (events : List LinkEvent) :
    (linkRun ownIp l events).sent =
      l.sent ++ events.filterMap LinkEvent.datagram? := by
  induction events generalizing l with
  | nil => exact (List.append_nil _).symm
  | cons event events ih =>
      change (linkRun ownIp (linkStep ownIp l event) events).sent =
        _
      cases event with
      | send dstIp dstPort data len =>
          have hSend :=
            netUdpSend_running hUp ownIp dstIp dstPort data len
          have hSent :
              (linkStep ownIp l
                (.send dstIp dstPort data len)).sent =
                l.sent ++
                  [pushedDatagram dstIp dstPort data len] := by
            change
              l.sent ++
                ((netUdpSend ownIp l.sender dstIp dstPort data
                  len).frame.map fun _ =>
                    pushedDatagram dstIp dstPort data
                      len).toList = _
            rw [hSend.1]
            rfl
          rw [ih hSend.2, hSent, List.append_assoc]
          rfl
      | arrive => exact ih hUp
      | recv buf maxLen => exact ih hUp

/-
  The receiver gets the datagrams of its ring and then those
  that were sent, each once and in their order: those not yet
  delivered are the ones in the ring, and after them those in
  the frames of the driver and the wire.  After every run the
  next call delivers the oldest datagram that waits, and
  nothing only when none does.
-/
theorem link_fifo
    (ownIp : UInt32)
    (sender : Udp)
    {receiver : Udp}
    (hUp : receiver.up = true)
    (hOld :
      ∀ d ∈ receiver.pending, d.len.toNat ≤ netMaxPayload)
    {events : List LinkEvent}
    (hFits : ∀ event ∈ events, event.Fits)
    (hSeven :
      AtMostSeven ownIp (Link.start sender receiver) events) :
    let l := linkRun ownIp (Link.start sender receiver) events
    (sender.up = true →
      l.sent = events.filterMap LinkEvent.datagram?) ∧
    (∃ taken coming,
      receiver.pending ++ l.sent =
          taken ++ l.receiver.pending ++ coming ∧
        List.Forall₂
          (fun d delivery =>
            Delivers d delivery.maxLen delivery.got)
          taken l.got ∧
        (l.nic ++ l.wire).map frameDatagram =
          coming.map some) ∧
    ∀ buf maxLen,
      (l.waiting = [] → (l.recv buf maxLen).got = l.got) ∧
      ∀ d rest, l.waiting = d :: rest →
        ∃ r,
          (l.recv buf maxLen).got = l.got ++ [⟨maxLen, r⟩] ∧
            Delivers d maxLen r ∧
              (l.recv buf maxLen).receiver.pending = rest := by
  have hOrder :=
    (InOrder.start sender hUp hOld).run ownIp hFits hSeven
  have hLast := hSeven.last
  refine ⟨fun hSender => ?_, hOrder.order, fun buf maxLen => ?_⟩
  · exact linkRun_sent ownIp (l := Link.start sender receiver)
      hSender events
  · exact ⟨fun hNone => hOrder.recv_nothing hLast hNone buf maxLen,
      fun d rest hSome =>
        hOrder.recv_oldest hLast hSome buf maxLen⟩

/- Two bytes to port 9000 and three to port 9001 behind them,
   sent and delivered, and the first datagram received. -/
def sampleEvents : List LinkEvent :=
  [.send 0x0A000003 9000 (ofList [0x41, 0x42]) 2,
    .send 0x0A000003 9001 (ofList [0x43, 0x44, 0x45]) 3,
    .arrive, .arrive, .recv zeros 1]

/- The next call gets the second datagram. -/
theorem link_fifo_sample :
    ∃ r,
      (linkRun 0x0A000002
        (Link.start (netInit Udp.boot) (netInit Udp.boot))
        (sampleEvents ++ [.recv zeros 1400])).got =
        (linkRun 0x0A000002
          (Link.start (netInit Udp.boot) (netInit Udp.boot))
          sampleEvents).got ++ [⟨1400, r⟩] ∧
      Delivers
        (pushedDatagram 0x0A000003 9001
          (ofList [0x43, 0x44, 0x45]) 3) 1400 r := by
  have hNone : (netInit Udp.boot).pending = [] := rfl
  have hOld :
      ∀ d ∈ (netInit Udp.boot).pending,
        d.len.toNat ≤ netMaxPayload := by
    rw [hNone]
    simp
  have hFits : ∀ event ∈ sampleEvents, event.Fits := by
    unfold sampleEvents
    simp only [List.mem_cons, List.not_mem_nil, or_false,
      forall_eq_or_imp, forall_eq]
    exact ⟨⟨by decide, by decide⟩, ⟨by decide, by decide⟩,
      trivial, trivial, trivial⟩
  have hSeven :
      AtMostSeven 0x0A000002
        (Link.start (netInit Udp.boot) (netInit Udp.boot))
        sampleEvents := by
    unfold sampleEvents
    simp only [AtMostSeven, Link.SevenPending]
    decide +kernel
  have hFifo :=
    link_fifo 0x0A000002 (netInit Udp.boot) rfl hOld hFits hSeven
  rcases (hFifo.2.2 zeros 1400).2
      (pushedDatagram 0x0A000003 9001
        (ofList [0x43, 0x44, 0x45]) 3) [] (by decide +kernel) with
    ⟨r, hGot, hDelivers, _⟩
  refine ⟨r, ?_, hDelivers⟩
  rw [← hGot]
  unfold linkRun
  rw [List.foldl_append]
  rfl

end Net

end AsmOS
