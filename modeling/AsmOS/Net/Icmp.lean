import AsmOS.Base.Loops
import AsmOS.Net.InternetChecksum
import AsmOS.Net.Transport

/-
  The echo request of `net_icmp_ping` (`src/net/icmp.c`) and
  the loop that waits for its reply.

  Main declarations:
    * `icmpRequest`, `icmpRequest_verifies`
    * `netIcmpPing`
    * `IsEchoReply`, `icmpPing_answer_iff`
-/

------------------------------------------------------------
-- The Request
------------------------------------------------------------

namespace AsmOS

namespace Net

open ByteMem Loops

abbrev icmpEcho : UInt8 := 8

abbrev icmpEchoReply : UInt8 := 0

/- The buffer of the waiting loop. -/
abbrev rxBytes : Nat := 128

abbrev icmpTries : Nat := 2000

/- Three tests of its loop are enough: `foldLoop_returns`. -/
def headerSum
    (data : ByteMem)
    (len : Nat) : UInt16 :=
  (checksum 3 data len).getD 0

/-
  The stores into the IP header.  The other fields keep what
  was on the stack, and words are stored in the order of the
  machine.
-/
def putIpHeader
    (pkt : ByteMem)
    (src dst : UInt32) : ByteMem :=
  let pkt := storeByte pkt 0 0x45
  let pkt := storeByte pkt 8 64
  let pkt := storeByte pkt 9 1
  let pkt := store32 pkt 12 src.toNat
  let pkt := store32 pkt 16 dst.toNat
  let pkt := store16 pkt 2 28
  let pkt := store16 pkt 10 0
  store16 pkt 10 (headerSum pkt 20).toNat

/- The stores into the ICMP header behind it. -/
def putIcmpHeader
    (pkt : ByteMem) : ByteMem :=
  let pkt := storeByte pkt 20 icmpEcho
  let pkt := storeByte pkt 21 0
  let pkt := store16 pkt 24 0x4D4F
  let pkt := store16 pkt 26 1
  let pkt := store16 pkt 22 0
  store16 pkt 22 (headerSum (pkt.view 20) 8).toNat

/- `pkt` when it is sent; `stack` is what it held before. -/
def icmpRequest
    (stack : ByteMem)
    (src dst : UInt32) : ByteMem :=
  putIcmpHeader (putIpHeader stack src dst)

section Request

/- The sum of the words is one of their bytes. -/
theorem sumWords_congr
    {p p' : ByteMem}
    {n : Nat}
    (hAgree : AgreeOn p p' 0 (2 * n))
    (sum : UInt32) :
    sumWords p (2 * n) sum = sumWords p' (2 * n) sum := by
  induction n generalizing p p' sum with
  | zero => rfl
  | succ n ih =>
      have hWord : load16 p 0 = load16 p' 0 :=
        hAgree.load16_eq (by omega) (by omega)
      have hRest : AgreeOn (p.view 2) (p'.view 2) 0 (2 * n) :=
        hAgree.view 2 (by omega) (by omega)
      rw [Nat.mul_succ, sumWords, sumWords, hWord, ih hRest]

theorem checksum_congr
    {p p' : ByteMem}
    {n : Nat}
    (hAgree : AgreeOn p p' 0 (2 * n))
    (tests : Nat) :
    checksum tests p (2 * n) = checksum tests p' (2 * n) := by
  unfold checksum
  rw [sumWords_congr hAgree]

/- A header whose sum is stored where a word was cleared. -/
theorem headerSum_stored
    (pkt : ByteMem)
    {n k : Nat}
    (hCount : n ≤ 65535)
    (hk : k < n) :
    checksum 3
        (store16 (store16 pkt (2 * k) 0) (2 * k)
          (headerSum (store16 pkt (2 * k) 0) (2 * n)).toNat)
        (2 * n) =
      some 0 := by
  have hZero : load16 (store16 pkt (2 * k) 0) (2 * k) = 0 := by
    rw [load16_store16]
  rcases checksum_stored (store16 pkt (2 * k) 0) hCount hk hZero
    with ⟨c, hSums⟩
  rcases hSums 3 (Nat.le_refl 3) with ⟨hFirst, hWhole⟩
  unfold headerSum
  rw [hFirst, Option.getD_some]
  exact hWhole

/- A store behind a view is a store at its offset. -/
theorem view_store16
    (m : ByteMem)
    (a x v : Nat) :
    (store16 m (a + x) v).view a = store16 (m.view a) x v := by
  funext i
  unfold store16 storeBlock
  rw [view_apply, view_apply]
  by_cases hIn : x ≤ i ∧ i < x + 2
  · rw [if_pos hIn, if_pos (by omega)]
    congr 1
    omega
  · rw [if_neg hIn, if_neg (by omega)]

/-
  Both headers of a request verify, whatever was on the stack:
  the receiver's sums over them are zero.
-/
theorem icmpRequest_verifies
    (stack : ByteMem)
    (src dst : UInt32) :
    checksum 3 (icmpRequest stack src dst) 20 = some 0 ∧
      checksum 3 ((icmpRequest stack src dst).view 20) 8 =
        some 0 := by
  constructor
  · have hAgree :
        AgreeOn (icmpRequest stack src dst)
          (putIpHeader stack src dst) 0 (2 * 10) := by
      intro x _ hx
      unfold icmpRequest putIcmpHeader
      rw [store16_outside _ _ (by omega),
        store16_outside _ _ (by omega),
        store16_outside _ _ (by omega),
        store16_outside _ _ (by omega),
        storeByte_of_ne _ _ (by omega),
        storeByte_of_ne _ _ (by omega)]
    have hSame := checksum_congr hAgree 3
    exact hSame.trans
      (headerSum_stored (n := 10) (k := 5) _ (by decide)
        (by decide))
  · unfold icmpRequest putIcmpHeader
    dsimp only
    rw [view_store16 _ 20 2, view_store16 _ 20 2]
    exact headerSum_stored (n := 4) (k := 1) _ (by decide)
      (by decide)

end Request

------------------------------------------------------------
-- Waiting For The Reply
------------------------------------------------------------

/-
  One turn of the waiting loop.  `arrivals k` is the frame
  that waits in the driver at poll `k`, empty if there is
  none, and `rx` is the buffer.
-/
def icmpPoll
    (arrivals : Nat → List UInt8)
    (k : Nat)
    (rx : ByteMem) : Bool × ByteMem :=
  let got := platNetRecv (arrivals k) rxBytes
  let rx := storeBlock rx 0 got.length (ofList got)
  (decide (28 ≤ got.length ∧ rx 20 = icmpEchoReply), rx)

/-
  The result of a ping, the time that it stores if it is asked
  to, the request that it sent and how many polls it made.
-/
structure Pinged where
  rc : Int
  rtt : Option UInt32
  request : Option (List UInt8)
  polls : Nat

/-
  `clock n` is what `plat_ticks_ms` returns after `n` polls.
  `stack` and `rx` are the old contents of the two buffers.
-/
def netIcmpPing
    (ownIp : UInt32)
    (stack rx : ByteMem)
    (clock : Nat → UInt32)
    (arrivals : Nat → List UInt8)
    (dst : UInt32) : Pinged :=
  let request := (icmpRequest stack ownIp dst).slice 0 28
  let out := pollLoop (icmpPoll arrivals) icmpTries 0 rx
  if out.1 then
    ⟨0, some (clock out.2.1 - clock 0), some request, out.2.1⟩
  else ⟨-1, none, some request, out.2.1⟩

------------------------------------------------------------
-- Replies
------------------------------------------------------------

/- The bytes of the header of an IPv4 packet. -/
def ipHeaderBytes
    (frame : List UInt8) : Nat :=
  4 * ((ofList frame 0).toNat % 16)

/-
  An IPv4 packet from `dst`, whose address is in network
  order, with an echo reply to the request: its identifier
  and its sequence number are those of the request.
-/
structure IsEchoReply
    (dst : UInt32)
    (request frame : List UInt8) : Prop where
  version : (ofList frame 0).toNat / 16 = 4
  header : 20 ≤ ipHeaderBytes frame
  whole : ipHeaderBytes frame + 8 ≤ frame.length
  protocol : ofList frame 9 = 1
  source :
    2 ^ 24 * (ofList frame 12).toNat +
        2 ^ 16 * (ofList frame 13).toNat +
        2 ^ 8 * (ofList frame 14).toNat +
        (ofList frame 15).toNat = dst.toNat
  type : ofList frame (ipHeaderBytes frame) = icmpEchoReply
  same :
    ∀ i < 4,
      ofList frame (ipHeaderBytes frame + 4 + i) =
        ofList request (24 + i)

/- All that the loop looks at: 28 bytes, and a zero in one. -/
def ReadsAsReply
    (frame : List UInt8) : Prop :=
  28 ≤ frame.length ∧ ofList frame 20 = icmpEchoReply

/- When a ping succeeds, a reply to it has been received. -/
def IcmpAnswered
    (dst : UInt32)
    (arrivals : Nat → List UInt8)
    (p : Pinged) : Prop :=
  p.rc = 0 →
    ∃ request, p.request = some request ∧
      ∃ j < p.polls, IsEchoReply dst request (arrivals j)

/-
  The first frame that reads as a reply, of the frames that
  are polled, is one, or comes behind one.
-/
def RepliesFirst
    (dst : UInt32)
    (request : List UInt8)
    (arrivals : Nat → List UInt8) : Prop :=
  ∀ k < icmpTries, ReadsAsReply (arrivals k) →
    (∀ j < k, ¬ ReadsAsReply (arrivals j)) →
      ∃ j < k + 1, IsEchoReply dst request (arrivals j)

section Replies

variable {arrivals : Nat → List UInt8}

theorem icmpPoll_iff
    (arrivals : Nat → List UInt8)
    (k : Nat)
    (rx : ByteMem) :
    (icmpPoll arrivals k rx).1 = true ↔
      ReadsAsReply (arrivals k) := by
  have hLength :
      (platNetRecv (arrivals k) rxBytes).length =
        min rxBytes (arrivals k).length :=
    List.length_take
  have hRx : rxBytes = 128 := rfl
  unfold icmpPoll ReadsAsReply
  dsimp only
  rw [decide_eq_true_eq]
  by_cases hLong : 28 ≤ (arrivals k).length
  · have hByte :
        storeBlock rx 0 (platNetRecv (arrivals k) rxBytes).length
            (ofList (platNetRecv (arrivals k) rxBytes)) 20 =
          ofList (arrivals k) 20 := by
      rw [storeBlock_inside (by omega) (by omega)]
      unfold ofList platNetRecv
      rw [List.getD, List.getElem?_take_of_lt (by omega)]
      rfl
    rw [hByte]
    exact and_congr_left fun _ => by omega
  · exact iff_of_false (fun hBoth => by omega)
      fun hBoth => hLong hBoth.1

theorem icmpPing_answer_iff
    (ownIp : UInt32)
    (stack rx : ByteMem)
    (clock : Nat → UInt32)
    (arrivals : Nat → List UInt8)
    (dst : UInt32) :
    IcmpAnswered dst arrivals
        (netIcmpPing ownIp stack rx clock arrivals dst) ↔
      RepliesFirst dst
        ((icmpRequest stack ownIp dst).slice 0 28) arrivals := by
  have hLaw :=
    pollLoop_success_iff (icmpPoll arrivals) rx icmpTries
      fun polls =>
        ∃ j < polls,
          IsEchoReply dst
            ((icmpRequest stack ownIp dst).slice 0 28)
            (arrivals j)
  have hFirst :
      RepliesFirst dst
          ((icmpRequest stack ownIp dst).slice 0 28) arrivals ↔
        ∀ k < icmpTries,
          FirstSuccess (icmpPoll arrivals) rx k →
            ∃ j < k + 1,
              IsEchoReply dst
                ((icmpRequest stack ownIp dst).slice 0 28)
                (arrivals j) := by
    have hSuccess :
        ∀ k, FirstSuccess (icmpPoll arrivals) rx k ↔
          ReadsAsReply (arrivals k) ∧
            ∀ j < k, ¬ ReadsAsReply (arrivals j) :=
      firstSuccess_iff fun j => icmpPoll_iff arrivals j _
    unfold RepliesFirst
    simp only [hSuccess, and_imp]
  rw [hFirst, ← hLaw]
  unfold IcmpAnswered netIcmpPing
  dsimp only
  cases (pollLoop (icmpPoll arrivals) icmpTries 0 rx).1 with
  | false =>
      rw [if_neg Bool.false_ne_true]
      exact iff_of_true
        (fun hZero => absurd hZero (show (-1 : Int) ≠ 0 by decide))
        fun hTrue => absurd hTrue Bool.false_ne_true
  | true =>
      rw [if_pos rfl]
      constructor
      · intro hAnswered _
        rcases hAnswered rfl with ⟨request, hSame, hReply⟩
        cases hSame
        exact hReply
      · intro hReply _
        exact ⟨_, rfl, hReply rfl⟩

end Replies

end Net

end AsmOS
