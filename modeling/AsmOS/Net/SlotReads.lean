import AsmOS.Base.StepRuns
import AsmOS.Net.DatagramFifo

/-
  What `net_udp_recv` reads of the slot it takes.

  A slot records the length that was announced, and the copy
  into it stops after 1400 bytes.  Every datagram that was
  put into the ring is followed here with its whole payload.

  Main declarations:
    * `Message`, `Followed`, `Followed.Follows`
    * `slotReads`, `ReadsOwnSlot`
    * `readsOwnSlot_iff`
-/

------------------------------------------------------------
-- Datagrams With Their Payloads
------------------------------------------------------------

namespace AsmOS

namespace Net

open ByteMem StepRuns

/- A datagram as it was given to `ring_push`. -/
structure Message where
  ip : UInt32
  port : UInt16
  payload : List UInt8
  small : payload.length < UInt16.size

def Message.of
    (ip : UInt32)
    (port : UInt16)
    (data : ByteMem)
    (len : UInt16) : Message where
  ip := ip
  port := port
  payload := data.slice 0 len.toNat
  small := (slice_length _ _ _).trans_lt len.toNat_lt

/- What a slot holds of it. -/
def Message.stored
    (m : Message) : Datagram where
  ip := m.ip
  port := m.port
  len := UInt16.ofNat m.payload.length
  data := m.payload.take netMaxPayload

theorem Message.stored_of
    (ip : UInt32)
    (port : UInt16)
    (data : ByteMem)
    (len : UInt16) :
    (Message.of ip port data len).stored =
      pushedDatagram ip port data len := by
  unfold Message.stored Message.of pushedDatagram
  dsimp only
  rw [slice_length, UInt16.ofNat_toNat, take_slice,
    Nat.min_comm]

theorem Message.length_of
    (ip : UInt32)
    (port : UInt16)
    (data : ByteMem)
    (len : UInt16) :
    (Message.of ip port data len).payload.length = len.toNat :=
  slice_length data 0 len.toNat

theorem Message.stored_len
    (m : Message) :
    m.stored.len.toNat = m.payload.length :=
  UInt16.toNat_ofNat_of_lt' m.small

/- The ring, and the datagrams in it, the oldest first. -/
structure Followed where
  udp : Udp
  queue : List Message

/- A datagram is dropped when there are seven already. -/
def enqueueMessage
    (queue : List Message)
    (m : Message) : List Message :=
  if queue.length = 7 then queue else queue ++ [m]

/- The datagram that a frame brings. -/
def frameMessage
    (packet : List UInt8) : Option Message :=
  let got := platNetRecv packet rawBytes
  let raw := ofList got
  if IsDatagram raw got.length then
    some (Message.of (udpIp raw) (udpPort raw)
      (raw.view udpHeader) (udpLen raw))
  else none

/- The queue when a receive has taken the frame. -/
def Followed.filled
    (s : Followed)
    (packet : List UInt8) : List Message :=
  match frameMessage packet with
  | none => s.queue
  | some m => enqueueMessage s.queue m

/- The queue and the ring hold the same. -/
def Followed.Follows
    (s : Followed) : Prop :=
  s.udp.pending = s.queue.map Message.stored

------------------------------------------------------------
-- Runs
------------------------------------------------------------

inductive UdpCall where
| init
| shutdown
| send
    (dstIp : UInt32)
    (dstPort : UInt16)
    (data : ByteMem)
    (len : UInt16)
| recv
    (packet : List UInt8)
    (buf : ByteMem)
    (maxLen : UInt16)

/- The statics before the first call. -/
def Followed.boot : Followed := ⟨Udp.boot, []⟩

/- A call on the ring, and what becomes of the queue. -/
def followCall
    (ownIp : UInt32)
    (s : Followed) : UdpCall → Followed
| .init => ⟨netInit s.udp, []⟩
| .shutdown => ⟨netShutdown s.udp, s.queue⟩
| .send dstIp dstPort data len =>
    ⟨(netUdpSend ownIp s.udp dstIp dstPort data len).udp,
      if s.udp.up ∧ (dstIp = ownIp ∨ dstIp = 0x7F000001) then
        enqueueMessage s.queue
          (Message.of ownIp dstPort data len)
      else s.queue⟩
| .recv packet buf maxLen =>
    ⟨(netUdpRecv packet s.udp buf maxLen).udp,
      if s.udp.up then (s.filled packet).tail else s.queue⟩

def followStep
    (ownIp : UInt32)
    (s : Followed)
    (call : UdpCall) : Option Followed :=
  some (followCall ownIp s call)

/- The indices of `data` that the copy out of a slot reads. -/
def slotReads
    (u : Udp)
    (maxLen : UInt16) : List Nat :=
  List.range
    (min (load16 u.ring (slotBytes * u.head + 6))
      maxLen.toNat)

/-
  A receive that takes a datagram reads the data array of its
  slot only, and returns bytes of the datagram.
-/
def ReadsOwnSlot
    (s : Followed) : UdpCall → Prop
| .recv packet buf maxLen =>
    ∀ m, s.udp.up = true →
      (s.filled packet).head? = some m →
        (∀ i ∈ slotReads (takeFrame packet s.udp) maxLen,
          i < netMaxPayload) ∧
        let got := netUdpRecv packet s.udp buf maxLen
        got.buf.slice 0 got.rc.toNat =
          m.payload.take maxLen.toNat
| _ => True

/- The datagram that is taken fits, or what is asked for. -/
def FitsSlot
    (s : Followed) : UdpCall → Prop
| .recv packet _ maxLen =>
    ∀ m, s.udp.up = true →
      (s.filled packet).head? = some m →
        m.payload.length ≤ netMaxPayload ∨
          maxLen.toNat ≤ netMaxPayload
| _ => True

------------------------------------------------------------
-- The Queue Follows The Ring
------------------------------------------------------------

section Following

variable {s : Followed}

theorem Followed.Follows.length_eq
    (hFollows : s.Follows) :
    s.udp.pending.length = s.queue.length := by
  unfold Followed.Follows at hFollows
  rw [hFollows, List.length_map]

/- A push to both. -/
theorem Followed.Follows.push
    (hFollows : s.Follows)
    (ip : UInt32)
    (port : UInt16)
    (data : ByteMem)
    (len : UInt16) :
    (⟨ringPush s.udp ip port data len,
      enqueueMessage s.queue (Message.of ip port data len)⟩ :
        Followed).Follows := by
  have hLength := hFollows.length_eq
  unfold Followed.Follows enqueueMessage at *
  dsimp only
  by_cases hFull : s.queue.length = 7
  · have hNext :=
      (full_iff_pending s.udp).mpr (hLength.trans hFull)
    unfold ringPush
    rw [if_pos hFull, if_pos hNext]
    exact hFollows
  · rw [if_neg hFull,
      pending_ringPush (hLength.trans_ne hFull), List.map_append,
      hFollows, List.map_singleton, Message.stored_of]

theorem Followed.Follows.takeFrame
    (hFollows : s.Follows)
    (packet : List UInt8) :
    (⟨Net.takeFrame packet s.udp, s.filled packet⟩ :
      Followed).Follows := by
  unfold Net.takeFrame Followed.filled frameMessage
  dsimp only
  split
  · exact hFollows.push _ _ _ _
  · exact hFollows

/- The rest of the queue follows what is left in the ring. -/
theorem Followed.Follows.pop
    (hFollows : s.Follows)
    (buf : ByteMem)
    (maxLen : UInt16) :
    (⟨(popSlot s.udp buf maxLen).udp, s.queue.tail⟩ :
      Followed).Follows := by
  unfold Followed.Follows at *
  dsimp only
  cases hQueue : s.queue with
  | nil =>
      rw [hQueue] at hFollows
      rw [popSlot_empty hFollows]
      exact hFollows
  | cons m rest =>
      rw [hQueue, List.map_cons] at hFollows
      exact (popSlot_head hFollows buf maxLen).2.2

theorem Followed.Follows.call
    (hFollows : s.Follows)
    (ownIp : UInt32)
    (call : UdpCall) :
    (followCall ownIp s call).Follows := by
  cases call with
  | init =>
      exact (RingBuffer.contents_eq_nil_iff
        (slotDatagram s.udp.ring) (Nat.zero_lt_succ 7)
        (Nat.zero_lt_succ 7)).mpr rfl
  | shutdown => exact hFollows
  | send dstIp dstPort data len =>
      unfold followCall netUdpSend
      dsimp only
      by_cases hUp : s.udp.up = true
      · rw [if_neg (not_not.mpr hUp)]
        dsimp only
        by_cases hOwn : dstIp = ownIp ∨ dstIp = 0x7F000001
        · rw [if_pos hOwn, if_pos ⟨hUp, hOwn⟩]
          exact hFollows.push _ _ _ _
        · rw [if_neg hOwn, if_neg fun hBoth => hOwn hBoth.2]
          exact hFollows
      · rw [if_pos hUp, if_neg fun hBoth => hUp hBoth.1]
        exact hFollows
  | recv packet buf maxLen =>
      unfold followCall netUdpRecv
      dsimp only
      by_cases hUp : s.udp.up = true
      · rw [if_neg (not_not.mpr hUp), if_pos hUp]
        exact (hFollows.takeFrame packet).pop buf maxLen
      · rw [if_pos hUp, if_neg hUp]
        exact hFollows

theorem Followed.boot_follows :
    Followed.boot.Follows :=
  (RingBuffer.contents_eq_nil_iff
    (slotDatagram Udp.boot.ring) (Nat.zero_lt_succ 7)
    (Nat.zero_lt_succ 7)).mpr rfl

------------------------------------------------------------
-- Reads Of The Oldest Slot
------------------------------------------------------------

/- What the copy reads when `m` is the oldest datagram. -/
theorem slotReads_eq
    {u : Udp}
    {m : Message}
    {rest : List Datagram}
    (hPending : u.pending = m.stored :: rest)
    (maxLen : UInt16) :
    slotReads u maxLen =
      List.range (min m.payload.length maxLen.toNat) := by
  have hHead := (popSlot_head hPending zeros maxLen).2.1
  have hLen :
      load16 u.ring (slotBytes * u.head + 6) =
        m.payload.length := by
    rw [← m.stored_len, ← hHead]
    exact (UInt16.toNat_ofNat_of_lt' (load16_lt _ _)).symm
  unfold slotReads
  rw [hLen]

/- A copy that stays in the array delivers the payload. -/
theorem popSlot_payload
    {u : Udp}
    {m : Message}
    {rest : List Datagram}
    (hPending : u.pending = m.stored :: rest)
    (buf : ByteMem)
    {maxLen : UInt16}
    (hFits :
      m.payload.length ≤ netMaxPayload ∨
        maxLen.toNat ≤ netMaxPayload) :
    (popSlot u buf maxLen).buf.slice 0
        (popSlot u buf maxLen).rc.toNat =
      m.payload.take maxLen.toNat := by
  have hDelivers :=
    popSlot_delivers hPending buf (m.stored_len.symm ▸ hFits)
  -- The stored bytes and the payload begin alike.
  have hTaken :
      m.stored.data.take maxLen.toNat =
        m.payload.take maxLen.toNat := by
    unfold Message.stored
    rw [List.take_take, List.take_eq_take_iff]
    omega
  rw [hDelivers.bytes_eq, hTaken]

/- One call, in a state whose queue follows the ring. -/
theorem readsOwnSlot_call_iff
    (hFollows : s.Follows)
    (call : UdpCall) :
    ReadsOwnSlot s call ↔ FitsSlot s call := by
  cases call with
  | init => exact Iff.rfl
  | shutdown => exact Iff.rfl
  | send dstIp dstPort data len => exact Iff.rfl
  | recv packet buf maxLen =>
      refine forall_congr' fun m => forall_congr' fun hUp =>
        forall_congr' fun hHead => ?_
      have hFilled := hFollows.takeFrame packet
      rcases List.head?_eq_some_iff.mp hHead with
        ⟨rest, hQueue⟩
      unfold Followed.Follows at hFilled
      dsimp only at hFilled
      rw [hQueue, List.map_cons] at hFilled
      have hCall :
          netUdpRecv packet s.udp buf maxLen =
            popSlot (takeFrame packet s.udp) buf maxLen := by
        unfold netUdpRecv
        rw [if_neg (not_not.mpr hUp)]
      have hReads := slotReads_eq hFilled maxLen
      have hInside :
          (∀ i ∈ slotReads (takeFrame packet s.udp) maxLen,
              i < netMaxPayload) ↔
            m.payload.length ≤ netMaxPayload ∨
              maxLen.toNat ≤ netMaxPayload := by
        rw [hReads]
        simp only [List.mem_range]
        constructor
        · intro hAll
          by_contra hLong
          have hLast := hAll netMaxPayload (by omega)
          omega
        · intro hFits i hi
          omega
      dsimp only
      rw [hCall, hInside]
      exact ⟨fun hBoth => hBoth.1, fun hFits =>
        ⟨hFits, popSlot_payload hFilled buf hFits⟩⟩

end Following

/-
  In a run of the calls, every receive stays inside its slot
  and returns bytes of its datagram exactly if no receive of
  more than 1400 bytes takes a datagram of more than 1400.
-/
theorem readsOwnSlot_iff
    (ownIp : UInt32)
    (calls : List UdpCall) :
    StepRuns.EveryStep (followStep ownIp) ReadsOwnSlot
        Followed.boot calls ↔
      StepRuns.EveryStep (followStep ownIp) FitsSlot
        Followed.boot calls := by
  have hStep :
      ∀ s call t, s.Follows →
        followStep ownIp s call = some t →
          t.Follows ∧ (ReadsOwnSlot s call ↔ FitsSlot s call) := by
    intro s call t hFollows hNext
    cases hNext
    exact ⟨hFollows.call ownIp call,
      readsOwnSlot_call_iff hFollows call⟩
  exact everyStep_congr hStep Followed.boot_follows calls

/- A datagram of 1401 bytes to the own address. -/
def longDatagram : UdpCall :=
  .send 0x0A000002 9000 zeros 1401

/- The last of its bytes is read behind the slot's array. -/
theorem not_readsOwnSlot :
    ¬ ∀ ownIp calls,
      StepRuns.EveryStep (followStep ownIp) ReadsOwnSlot
        Followed.boot calls := by
  intro hAlways
  have hRun :=
    hAlways 0x0A000002 [.init, longDatagram, .recv [] zeros 1401]
  let s := followCall 0x0A000002
    (followCall 0x0A000002 Followed.boot .init) longDatagram
  have hFollows : s.Follows :=
    (Followed.boot_follows.call 0x0A000002 .init).call
      0x0A000002 longDatagram
  have hLast : ReadsOwnSlot s (.recv [] zeros 1401) :=
    ((hRun _ rfl).2 _ rfl).2 _ rfl |>.1
  have hNone : frameMessage [] = none := rfl
  have hQueue :
      s.queue = [Message.of 0x0A000002 9000 zeros 1401] := by
    simp only [s, longDatagram, followCall]
    rw [if_pos ⟨rfl, .inl trivial⟩]
    rfl
  have hHead :
      (s.filled []).head? =
        some (Message.of 0x0A000002 9000 zeros 1401) := by
    unfold Followed.filled
    rw [hNone, hQueue]
    rfl
  have hFits := (readsOwnSlot_call_iff hFollows _).mp hLast
    (Message.of 0x0A000002 9000 zeros 1401) rfl hHead
  rw [Message.length_of] at hFits
  exact absurd hFits (by decide)

end Net

end AsmOS
