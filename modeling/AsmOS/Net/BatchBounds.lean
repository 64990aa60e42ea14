import AsmOS.Net.StreamingTraffic

/-
  The guard of `transport_send_batch` and its copies.

  The guard adds the lengths in 16 bits, the copies move a
  pointer by each of them.  The two agree on a batch whose
  exact sum is below 65536; past it the guard sees only the
  remainder.

  Main declarations:
    * `sendBatchArrays`
    * `batchTotal_toNat`
    * `BatchInside`
    * `batchInside_iff`
-/

------------------------------------------------------------
-- Calls With Arrays
------------------------------------------------------------

namespace AsmOS

namespace Net

open ByteMem

/- The items that the two arrays hold below `count`. -/
def arrayItems
    (items : Nat → BatchItem)
    (count : Int) : List BatchItem :=
  (List.range count.toNat).map items

/- `transport_send_batch` with its arrays and signed count. -/
def sendBatchArrays
    (driver : List UInt8 → Int)
    (stack : ByteMem)
    (s : State)
    (items : Nat → BatchItem)
    (count : Int) : Option Sent :=
  if ¬ s.initialized ∨ count ≤ 0 ∨ (batchMax : Int) < count then
    some ⟨-1, none, s⟩
  else transportSendBatch driver stack s (arrayItems items count)

/- The bytes of a batch after its first two, in integers. -/
def batchSum
    (batch : List BatchItem) : Nat :=
  2 * batch.length + batchLength batch

/-
  The offsets in `batch_buf` that the copy loop stores to
  from `p` on.  Nothing is copied from a null pointer.
-/
def batchStores :
    Nat → List BatchItem → List Nat
| _, [] => []
| p, item :: batch =>
    p :: (p + 1) ::
      ((if item.payload.isSome then
          List.range' (p + 2) item.len.toNat else []) ++
        batchStores (p + 2 + item.len.toNat) batch)

/-
  Bytes that hold the length and the payload of each item, in
  order.  A null pointer says nothing about its bytes.
-/
def HoldsItems :
    List BatchItem → List UInt8 → Prop
| [], bytes => bytes = []
| item :: batch, bytes =>
    ∃ lo hi data rest,
      bytes = lo :: hi :: (data ++ rest) ∧
        lo.toNat + 256 * hi.toNat = item.len.toNat ∧
        data.length = item.len.toNat ∧
        (∀ src, item.payload = some src →
          data = src.slice 0 item.len.toNat) ∧
        HoldsItems batch rest

/-
  A call is refused before it copies, or the batch is at most
  1400 bytes, every store is inside `batch_buf`, and the
  packet holds the count, a zero and the items.
-/
def BatchInside
    (driver : List UInt8 → Int)
    (stack : ByteMem)
    (s : State)
    (items : Nat → BatchItem)
    (count : Int) : Prop :=
  let batch := arrayItems items count
  let result := sendBatchArrays driver stack s items count
  result = some ⟨-1, none, s⟩ ∨
    (2 + batchSum batch ≤ maxPayload ∧
      (∀ x ∈ 0 :: 1 :: batchStores 2 batch, x < maxPayload) ∧
      ∃ sent frame data,
        result = some sent ∧ sent.frame = some frame ∧
          CarriesData frame
            (UInt8.ofNat batch.length :: 0 :: data) ∧
          HoldsItems batch data)

------------------------------------------------------------
-- The Guard
------------------------------------------------------------

section Guard

variable {batch : List BatchItem}

theorem batchSum_cons
    (item : BatchItem)
    (batch : List BatchItem) :
    batchSum (item :: batch) =
      2 + item.len.toNat + batchSum batch := by
  simp only [batchSum, List.length_cons, batchLength]
  omega

/- The guard's sum is the exact one up to multiples of 65536. -/
theorem batchTotal_toNat
    (batch : List BatchItem) :
    (batchTotal batch).toNat = batchSum batch % 65536 := by
  have hFold (total : UInt16) :
      (batch.foldl
        (fun total item => total + (2 + item.len))
        total).toNat =
        (total.toNat + batchSum batch) % 65536 := by
    induction batch generalizing total with
    | nil =>
        have hTotal := total.toNat_lt
        simp only [List.foldl_nil, batchSum, List.length_nil,
          batchLength]
        omega
    | cons item batch ih =>
        have hTwo : (2 : UInt16).toNat = 2 := rfl
        rw [List.foldl_cons, ih, batchSum_cons, UInt16.toNat_add,
          UInt16.toNat_add, hTwo]
        omega
  have hAll := hFold 0
  rwa [UInt16.toNat_zero, Nat.zero_add] at hAll

/- A batch that passes the guard wrapped or fits. -/
theorem batchSum_le_of_guard
    (hExact : batchSum batch < 65536)
    (hGuard :
      ¬ maxPayload - 2 < (batchTotal batch).toNat) :
    2 + batchSum batch ≤ maxPayload := by
  have hMax : maxPayload = 1400 := rfl
  rw [batchTotal_toNat, Nat.mod_eq_of_lt hExact] at hGuard
  omega

end Guard

------------------------------------------------------------
-- The Copies
------------------------------------------------------------

section Copies

variable {batch : List BatchItem}
variable {p : Nat}

/- The length bytes of an item. -/
theorem length_bytes
    (len : UInt16) :
    ((len &&& 0xFF).toUInt8).toNat +
        256 * ((len >>> 8).toUInt8).toNat = len.toNat := by
  have hLen := len.toNat_lt
  have hMask : (0xFF : UInt16).toNat = 2 ^ 8 - 1 := rfl
  have hShift : (8 : UInt16).toNat % 16 = 8 := rfl
  rw [UInt16.toNat_toUInt8, UInt16.toNat_toUInt8,
    UInt16.toNat_and, UInt16.toNat_shiftRight, hMask,
    Nat.and_two_pow_sub_one_eq_mod, hShift,
    Nat.shiftRight_eq_div_pow]
  omega

/- A batch that ends within the buffer is copied whole. -/
theorem batchCopy_of_fits
    (stack : ByteMem)
    (hFits : p + batchSum batch ≤ maxPayload) :
    ∃ rest, batchCopy stack p batch = some rest ∧
      HoldsItems batch rest := by
  induction batch generalizing p with
  | nil => exact ⟨[], rfl, rfl⟩
  | cons item batch ih =>
      rw [batchSum_cons] at hFits
      rcases ih (p := p + 2 + item.len.toNat) (by omega) with
        ⟨rest, hCopy, hHolds⟩
      rw [batchCopy, if_neg (by omega), hCopy]
      refine ⟨_, rfl, _, _, item.bytes stack (p + 2), rest, rfl,
        length_bytes item.len, batchItem_bytes_length _ _ _, ?_,
        hHolds⟩
      intro src hSrc
      rw [BatchItem.bytes, hSrc]

/- Its stores end where it ends. -/
theorem batchStores_lt
    {x : Nat}
    (hStore : x ∈ batchStores p batch) :
    x < p + batchSum batch := by
  induction batch generalizing p with
  | nil => cases hStore
  | cons item batch ih =>
      rw [batchSum_cons]
      rw [batchStores, List.mem_cons, List.mem_cons,
        List.mem_append] at hStore
      rcases hStore with rfl | rfl | hData | hRest
      · omega
      · omega
      · split at hData
        · have hRange := List.mem_range'_1.mp hData
          omega
        · cases hData
      · have hTail := ih hRest
        omega

end Copies

------------------------------------------------------------
-- Batches Inside The Buffer
------------------------------------------------------------

section Calls

variable {driver : List UInt8 → Int}
variable {stack : ByteMem}
variable {s : State}
variable {items : Nat → BatchItem}
variable {count : Int}

theorem arrayItems_length :
    (arrayItems items count).length = count.toNat := by
  rw [arrayItems, List.length_map, List.length_range]

/- The call copies once both guards let it pass. -/
theorem sendBatchArrays_copies
    (hCount :
      ¬ (¬ s.initialized = true ∨ count ≤ 0 ∨
        (batchMax : Int) < count))
    (hGuard :
      ¬ maxPayload - 2 <
        (batchTotal (arrayItems items count)).toNat) :
    sendBatchArrays driver stack s items count =
      (batchPayload stack (arrayItems items count)).map
        fun bytes =>
          transportSend driver s typeData (some (ofList bytes))
            (UInt16.ofNat bytes.length) := by
  have hInner :
      ¬ (¬ s.initialized = true ∨
        (arrayItems items count).length = 0 ∨
          batchMax < (arrayItems items count).length) := by
    rw [arrayItems_length]
    rintro (hOff | hNone | hMany)
    · exact hCount (Or.inl hOff)
    · exact hCount (Or.inr (Or.inl (by omega)))
    · exact hCount (Or.inr (Or.inr (by omega)))
  rw [sendBatchArrays, if_neg hCount, transportSendBatch,
    if_neg hInner, if_neg hGuard]

/- A call that is refused, by its count or by its sum. -/
theorem sendBatchArrays_refused
    (hRefused :
      s.initialized = false ∨ count ≤ 0 ∨
        (batchMax : Int) < count ∨
        maxPayload - 2 <
          (batchTotal (arrayItems items count)).toNat) :
    sendBatchArrays driver stack s items count =
      some ⟨-1, none, s⟩ := by
  by_cases hCount :
      ¬ s.initialized = true ∨ count ≤ 0 ∨
        (batchMax : Int) < count
  · rw [sendBatchArrays, if_pos hCount]
  · have hGuard :
        maxPayload - 2 <
          (batchTotal (arrayItems items count)).toNat := by
      rw [Bool.not_eq_true] at hCount
      tauto
    rw [sendBatchArrays, if_neg hCount, transportSendBatch,
      if_pos hGuard, ite_self]

/- A batch of at most 1400 bytes is sent as it is. -/
theorem batchInside_of_fits
    (hCount :
      ¬ (¬ s.initialized = true ∨ count ≤ 0 ∨
        (batchMax : Int) < count))
    (hFits : 2 + batchSum (arrayItems items count) ≤ maxPayload) :
    BatchInside driver stack s items count := by
  have hMax : maxPayload = 1400 := rfl
  have hSize : UInt16.size = 65536 := rfl
  have hGuard :
      ¬ maxPayload - 2 <
        (batchTotal (arrayItems items count)).toNat := by
    rw [batchTotal_toNat]
    omega
  have hInit : s.initialized = true :=
    Classical.not_not.mp fun hOff => hCount (Or.inl hOff)
  rcases batchCopy_of_fits stack hFits with
    ⟨data, hCopy, hHolds⟩
  have hPayload :
      batchPayload stack (arrayItems items count) =
        some (UInt8.ofNat (arrayItems items count).length :: 0 ::
          data) := by
    rw [batchPayload, hCopy]
    rfl
  generalize hBytes :
      UInt8.ofNat (arrayItems items count).length :: 0 :: data =
        bytes at hPayload
  have hLength := (batchPayload_length hPayload).2
  have hCountLen :
      (UInt16.ofNat bytes.length).toNat = bytes.length :=
    UInt16.toNat_ofNat_of_lt' (by omega)
  have hRoom :
      (UInt16.ofNat bytes.length).toNat ≤ maxPayload := by
    rw [hCountLen]
    exact hLength
  have hFrame :=
    transportSend_frame driver s typeData (some (ofList bytes))
      hInit hRoom
  refine Or.inr ⟨hFits, ?_, _, _, data, ?_, hFrame, ?_, hHolds⟩
  · intro x hStore
    rcases List.mem_cons.mp hStore with rfl | hStore
    · omega
    rcases List.mem_cons.mp hStore with rfl | hStore
    · omega
    have hEnd := batchStores_lt hStore
    omega
  · rw [sendBatchArrays_copies hCount hGuard, hPayload]
    rfl
  · rw [hBytes]
    exact transportSend_carries hCountLen hFrame

/- A sum that wraps past the guard is not refused. -/
theorem not_batchInside_of_wraps
    (hCount :
      ¬ (¬ s.initialized = true ∨ count ≤ 0 ∨
        (batchMax : Int) < count))
    (hWraps : 65536 ≤ batchSum (arrayItems items count))
    (hGuard :
      batchSum (arrayItems items count) % 65536 ≤
        maxPayload - 2) :
    ¬ BatchInside driver stack s items count := by
  have hMax : maxPayload = 1400 := rfl
  rintro (hRefused | ⟨hFits, _⟩)
  · rw [sendBatchArrays_copies hCount (by
      rw [batchTotal_toNat]
      omega)] at hRefused
    rcases Option.map_eq_some_iff.mp hRefused with
      ⟨data, hData, _⟩
    rcases batchPayload_length hData with ⟨hLength, hLe⟩
    rw [batchSum] at hWraps
    omega
  · omega

end Calls

/-
  A call keeps to its buffer exactly when it is refused for
  its count, its exact sum is below 65536, or the remainder
  is still above 1398.
-/
theorem batchInside_iff
    (driver : List UInt8 → Int)
    (stack : ByteMem)
    (s : State)
    (items : Nat → BatchItem)
    (count : Int) :
    BatchInside driver stack s items count ↔
      s.initialized = false ∨ count ≤ 0 ∨
        (batchMax : Int) < count ∨
        batchSum (arrayItems items count) < 65536 ∨
        maxPayload - 2 <
          batchSum (arrayItems items count) % 65536 := by
  by_cases hCount :
      ¬ s.initialized = true ∨ count ≤ 0 ∨
        (batchMax : Int) < count
  · rw [Bool.not_eq_true] at hCount
    have hRefused :
        sendBatchArrays driver stack s items count =
          some ⟨-1, none, s⟩ :=
      sendBatchArrays_refused (by tauto)
    exact iff_of_true (Or.inl hRefused) (by tauto)
  by_cases hGuard :
      maxPayload - 2 <
        batchSum (arrayItems items count) % 65536
  · have hRefused :
        sendBatchArrays driver stack s items count =
          some ⟨-1, none, s⟩ :=
      sendBatchArrays_refused (by
        rw [batchTotal_toNat]
        tauto)
    exact iff_of_true (Or.inl hRefused) (by tauto)
  by_cases hExact : batchSum (arrayItems items count) < 65536
  · have hFits :=
      batchSum_le_of_guard hExact (by
        rw [batchTotal_toNat]
        exact hGuard)
    exact iff_of_true (batchInside_of_fits hCount hFits)
      (by tauto)
  · refine iff_of_false
      (not_batchInside_of_wraps hCount (by omega) (by omega)) ?_
    rw [not_or, not_or] at hCount
    rcases hCount with ⟨hInit, hPos, hMany⟩
    simp only [not_not] at hInit
    rintro (hOff | hNone | hOver | hBelow | hAbove)
    · rw [hInit] at hOff
      cases hOff
    · exact hPos hNone
    · exact hMany hOver
    · exact hExact hBelow
    · exact hGuard hAbove

/- Two items that are 65536 bytes long with their lengths. -/
def wrappingItems
    (i : Nat) : BatchItem :=
  ⟨some zeros, if i = 0 then 0xFF00 else 0xFC⟩

/-
  The guard takes them for nothing, and the copies run past
  the 1400 bytes of `batch_buf`.
-/
theorem wrapping_batch_overruns :
    ¬ BatchInside (fun _ => 0) zeros (transportInit State.boot)
      wrappingItems 2 :=
  not_batchInside_of_wraps (by decide) (by decide) (by decide)

end Net

end AsmOS
