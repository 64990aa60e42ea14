import AsmOS.Base.ByteMem
import AsmOS.Base.Loops
import AsmOS.Swap.SwapCodec

/-
  The accesses of the swap codec to its buffers
  (`src/memory_budget.c`).

  The encoder stays within the length of its input.  The
  decoder takes the byte behind a run mark without a test, so
  a mark at the end makes it read one byte too far.

  Main declarations:
    * `Decoding`, `decodeStep`, `swapDecompressTrace`
    * `DecodesInside`
    * `endsInMark`, `expandedLength`
    * `codec_inside_iff`
-/

------------------------------------------------------------
-- The Decoder On Memory
------------------------------------------------------------

namespace AsmOS

namespace Swap

open ByteMem Loops

/- Stores of bytes one behind the other; offsets wrap. -/
def storeBytes :
    List UInt8 → Nat → List (Nat × UInt8)
| [], _ => []
| d :: ds, o => (o, d) :: storeBytes ds ((o + 1) % 2 ^ 32)

/-
  The counters of the decoder's loop, with the offsets that
  were read and the bytes that were stored, in their order.
-/
structure Decoding where
  i : Nat
  o : Nat
  reads : List Nat
  writes : List (Nat × UInt8)

def Decoding.start : Decoding := ⟨0, 0, [], []⟩

/- The test of the loop. -/
def decodeMore
    (len : Nat)
    (x : Decoding) : Bool :=
  decide (x.i < len)

/- The body of the loop. -/
def decodeStep
    (src : ByteMem)
    (x : Decoding) : Decoding :=
  let b := src x.i
  if b &&& 0x80 ≠ 0 then
    let count := (b &&& 0x7F).toNat
    let next := (x.i + 1) % 2 ^ 32
    { i := (x.i + 2) % 2 ^ 32
      o := (x.o + count) % 2 ^ 32
      reads := x.reads ++ [x.i, next]
      writes :=
        x.writes ++
          storeBytes (List.replicate count (src next)) x.o }
  else
    { i := (x.i + 1) % 2 ^ 32
      o := (x.o + 1) % 2 ^ 32
      reads := x.reads ++ [x.i]
      writes := x.writes ++ storeBytes [b] x.o }

/-
  `swap_decompress` with its accesses; `o` is what it reports
  in `out_len`.
-/
def swapDecompressTrace
    (src : ByteMem)
    (len : UInt32)
    (tests : Nat) : Option Decoding :=
  whileLoop (decodeMore len.toNat) (decodeStep src) tests
    Decoding.start

------------------------------------------------------------
-- Statements
------------------------------------------------------------

/- Reads lie in the input; stores are the output. -/
structure Decoding.Inside
    (x : Decoding)
    (len : Nat) : Prop where
  reads : ∀ a ∈ x.reads, a < len
  writes : ∀ a, a ∈ x.writes.map Prod.fst ↔ a < x.o

def DecodesInside
    (src : ByteMem)
    (len : UInt32) : Prop :=
  ∃ tests x, swapDecompressTrace src len tests = some x ∧
    x.Inside len.toNat

/- The last byte is a run mark without its byte. -/
def endsInMark :
    List UInt8 → Bool
| [] => false
| b :: rest =>
    if b &&& 0x80 ≠ 0 then
      match rest with
      | [] => true
      | _ :: rest => endsInMark rest
    else endsInMark rest

/- The bytes that the tokens stand for, in exact integers. -/
def expandedLength :
    List UInt8 → Nat
| [] => 0
| b :: rest =>
    if b &&& 0x80 ≠ 0 then
      match rest with
      | [] => 0
      | _ :: rest => (b &&& 0x7F).toNat + expandedLength rest
    else expandedLength rest + 1

------------------------------------------------------------
-- Tokens
------------------------------------------------------------

section Tokens

variable {b v : UInt8} {rest : List UInt8}

theorem endsInMark_plain
    (hPlain : ¬ b &&& 0x80 ≠ 0) :
    endsInMark (b :: rest) = endsInMark rest := by
  rw [endsInMark.eq_def]
  exact if_neg hPlain

theorem endsInMark_marked
    (hMarked : b &&& 0x80 ≠ 0) :
    endsInMark (b :: v :: rest) = endsInMark rest := by
  rw [endsInMark, if_pos hMarked]

theorem expandedLength_plain
    (hPlain : ¬ b &&& 0x80 ≠ 0) :
    expandedLength (b :: rest) = expandedLength rest + 1 := by
  rw [expandedLength.eq_def]
  exact if_neg hPlain

theorem expandedLength_marked
    (hMarked : b &&& 0x80 ≠ 0) :
    expandedLength (b :: v :: rest) =
      (b &&& 0x7F).toNat + expandedLength rest := by
  rw [expandedLength, if_pos hMarked]

/- Whole tokens are decoded to what they stand for. -/
theorem swapDecompress_whole
    {src : List UInt8}
    (hWhole : endsInMark src = false) :
    ∃ ds, swapDecompress src = some ds ∧
      ds.length = expandedLength src := by
  induction src using swapDecompress.induct with
  | case1 => exact ⟨[], rfl, rfl⟩
  | case2 b hMarked =>
      rw [endsInMark, if_pos hMarked] at hWhole
      cases hWhole
  | case3 b hMarked v rest ih =>
      rw [endsInMark_marked hMarked] at hWhole
      rcases ih hWhole with ⟨ds, hDecoded, hLength⟩
      refine ⟨List.replicate (b &&& 0x7F).toNat v ++ ds, ?_, ?_⟩
      · rw [swapDecompress_marked hMarked, hDecoded]
        rfl
      · rw [expandedLength_marked hMarked, List.length_append,
          List.length_replicate, hLength]
  | case4 b rest hPlain ih =>
      rw [endsInMark_plain hPlain] at hWhole
      rcases ih hWhole with ⟨ds, hDecoded, hLength⟩
      refine ⟨b :: ds, ?_, ?_⟩
      · rw [swapDecompress_plain (not_not.mp hPlain), hDecoded]
        rfl
      · rw [expandedLength_plain hPlain, List.length_cons,
          hLength]

end Tokens

------------------------------------------------------------
-- Stores
------------------------------------------------------------

theorem storeBytes_append
    {o : Nat}
    (hOffset : o < 2 ^ 32)
    (ds es : List UInt8) :
    storeBytes (ds ++ es) o =
      storeBytes ds o ++
        storeBytes es ((o + ds.length) % 2 ^ 32) := by
  induction ds generalizing o with
  | nil =>
      rw [List.length_nil, Nat.add_zero,
        Nat.mod_eq_of_lt hOffset]
      rfl
  | cons d ds ih =>
      have hSum :
          ((o + 1) % 2 ^ 32 + ds.length) % 2 ^ 32 =
            (o + (ds.length + 1)) % 2 ^ 32 := by
        omega
      rw [List.cons_append, storeBytes,
        ih (Nat.mod_lt _ (by decide)), hSum]
      rfl

/- The offsets of stores from the start of a buffer on. -/
theorem storeBytes_offsets
    (ds : List UInt8)
    (o : Nat)
    (hOffset : o < 2 ^ 32) :
    (storeBytes ds o).map Prod.fst =
      (List.range ds.length).map fun j => (o + j) % 2 ^ 32 := by
  induction ds generalizing o with
  | nil => rfl
  | cons d ds ih =>
      rw [storeBytes, List.map_cons,
        ih _ (Nat.mod_lt _ (by decide)), List.length_cons,
        List.range_succ_eq_map, List.map_cons, List.map_map]
      refine congrArg₂ List.cons
        (Nat.mod_eq_of_lt hOffset).symm
        (List.map_congr_left fun j _ => ?_)
      simp only [Function.comp_apply]
      omega

/- Stores fill just what is reported if the count fits. -/
theorem stores_fill_iff
    (ds : List UInt8) :
    (∀ a, a ∈ (storeBytes ds 0).map Prod.fst ↔
        a < ds.length % 2 ^ 32) ↔
      ds.length < 2 ^ 32 := by
  rw [storeBytes_offsets ds 0 (by decide)]
  constructor
  · intro hFill
    by_contra hLong
    have hLast :
        2 ^ 32 - 1 ∈
          (List.range ds.length).map fun j =>
            (0 + j) % 2 ^ 32 :=
      List.mem_map.mpr
        ⟨2 ^ 32 - 1, List.mem_range.mpr (by omega), by
          decide⟩
    have hBelow := (hFill _).mp hLast
    omega
  · intro hFits a
    rw [Nat.mod_eq_of_lt hFits, List.mem_map]
    constructor
    · rintro ⟨j, hj, rfl⟩
      have hInside := List.mem_range.mp hj
      omega
    · intro hInside
      exact ⟨a, List.mem_range.mpr hInside, by omega⟩

------------------------------------------------------------
-- The Encoder
------------------------------------------------------------

/- The encoder's output fits in front of its last token. -/
theorem swapCompressFrom_length_le
    {len o : Nat}
    (hRoom : o ≤ len)
    (x : List UInt8) :
    o + (swapCompressFrom len o x).length ≤ len := by
  induction hSize : x.length using Nat.strongRecOn
    generalizing o x with
  | ind size ih =>
    by_cases hMore : o + 2 < len
    · cases x with
      | nil =>
          rw [swapCompressFrom]
          exact hRoom
      | cons b rest =>
          rw [List.length_cons] at hSize
          rcases leadRun_cases b rest with
            ⟨n, u, hLead, hLong, _, _, hDrop, _⟩ |
            ⟨hLead, _⟩
          · have hLess : u.length < size := by
              rw [← hDrop, List.length_drop]
              omega
            have hRest :=
              ih _ hLess (show o + 2 ≤ len by omega) u rfl
            rw [swapCompressFrom_run hMore hLead hLong, hDrop,
              List.length_cons, List.length_cons]
            omega
          · have hRest :=
              ih rest.length (by omega)
                (show o + 1 ≤ len by omega) rest rfl
            rw [swapCompressFrom_literal hMore hLead,
              List.length_cons]
            omega
    · rw [swapCompressFrom_full hMore]
      exact hRoom

theorem swapCompress_length_le
    (src : List UInt8) :
    (swapCompress src).length ≤ src.length := by
  have hBound :=
    swapCompressFrom_length_le (Nat.zero_le src.length) src
  rw [Nat.zero_add] at hBound
  exact hBound

------------------------------------------------------------
-- Runs Of The Decoder
------------------------------------------------------------

section Runs

variable {src : ByteMem} {len : Nat} {x y : Decoding}
variable {b v : UInt8} {rest : List UInt8}

theorem slice_eq_cons
    {a n : Nat}
    (hSlice : src.slice a n = b :: rest) :
    ∃ m, n = m + 1 ∧ src a = b ∧
      src.slice (a + 1) m = rest := by
  cases n with
  | zero => cases hSlice
  | succ m =>
      rw [slice_succ] at hSlice
      cases hSlice
      exact ⟨m, rfl, rfl, rfl⟩

theorem decodeStep_marked
    (hMarked : src x.i &&& 0x80 ≠ 0) :
    decodeStep src x =
      { i := (x.i + 2) % 2 ^ 32
        o := (x.o + (src x.i &&& 0x7F).toNat) % 2 ^ 32
        reads := x.reads ++ [x.i, (x.i + 1) % 2 ^ 32]
        writes :=
          x.writes ++
            storeBytes
              (List.replicate (src x.i &&& 0x7F).toNat
                (src ((x.i + 1) % 2 ^ 32))) x.o } :=
  if_pos hMarked

theorem decodeStep_plain
    (hPlain : ¬ src x.i &&& 0x80 ≠ 0) :
    decodeStep src x =
      { i := (x.i + 1) % 2 ^ 32
        o := (x.o + 1) % 2 ^ 32
        reads := x.reads ++ [x.i]
        writes := x.writes ++ storeBytes [src x.i] x.o } :=
  if_neg hPlain

/- A step only adds to what was read. -/
theorem reads_decodeStep
    {a : Nat}
    (hRead : a ∈ x.reads) :
    a ∈ (decodeStep src x).reads := by
  unfold decodeStep
  dsimp only
  split
  · exact List.mem_append_left _ hRead
  · exact List.mem_append_left _ hRead

/-
  The loop is left in `y`, and has stored the bytes `ds` and
  read nothing that does not lie in front of `len`.
-/
structure Decodes
    (src : ByteMem)
    (len : Nat)
    (x y : Decoding)
    (ds : List UInt8) : Prop where
  left :
    ∃ tests,
      whileLoop (decodeMore len) (decodeStep src) tests x =
        some y
  o : y.o = (x.o + ds.length) % 2 ^ 32
  writes : y.writes = x.writes ++ storeBytes ds x.o
  reads : ∃ rs, y.reads = x.reads ++ rs ∧ ∀ a ∈ rs, a < len

theorem decodes_end
    (hEnd : len ≤ x.i)
    (ho : x.o < 2 ^ 32) :
    Decodes src len x x [] := by
  have hTest : decodeMore len x = false :=
    decide_eq_false (Nat.not_lt.mpr hEnd)
  refine ⟨⟨1, whileLoop_of_not hTest 0⟩, ?_, ?_, [], ?_,
    List.forall_mem_nil _⟩
  · exact (Nat.mod_eq_of_lt ho).symm
  · exact (List.append_nil _).symm
  · exact (List.append_nil _).symm

/- One token more in front of a loop. -/
theorem Decodes.token
    {i : Nat}
    {ts ds : List UInt8}
    {new : List Nat}
    (hMore : x.i < len)
    (ho : x.o < 2 ^ 32)
    (hStep :
      decodeStep src x =
        ⟨i, (x.o + ts.length) % 2 ^ 32, x.reads ++ new,
          x.writes ++ storeBytes ts x.o⟩)
    (hNew : ∀ a ∈ new, a < len)
    (hRest : Decodes src len (decodeStep src x) y ds) :
    Decodes src len x y (ts ++ ds) := by
  have hTest : decodeMore len x = true := decide_eq_true hMore
  rcases hRest with
    ⟨⟨tests, hLeft⟩, hOut, hWrites, rs, hReads, hInside⟩
  rw [hStep] at hOut hWrites hReads
  dsimp only at hOut hWrites hReads
  refine
    ⟨⟨tests + 1, (whileLoop_of_test hTest tests).trans hLeft⟩,
      ?_, ?_, new ++ rs, ?_, ?_⟩
  · rw [hOut, List.length_append]
    omega
  · rw [hWrites, storeBytes_append ho, List.append_assoc]
  · rw [hReads, List.append_assoc]
  · exact List.forall_mem_append.mpr ⟨hNew, hInside⟩

/- A loop over whole tokens, from any of them on. -/
theorem decode_whole
    (hLen : len < 2 ^ 32)
    (hi : x.i ≤ len)
    (ho : x.o < 2 ^ 32)
    (hRest : src.slice x.i (len - x.i) = rest)
    (hWhole : endsInMark rest = false) :
    ∃ y ds, Decodes src len x y ds ∧
      swapDecompress rest = some ds := by
  induction rest using swapDecompress.induct generalizing x with
  | case1 =>
      have hEnd := congrArg List.length hRest
      rw [slice_length, List.length_nil] at hEnd
      exact ⟨x, [],
        decodes_end (Nat.sub_eq_zero_iff_le.mp hEnd) ho, rfl⟩
  | case2 b hMarked =>
      rw [endsInMark, if_pos hMarked] at hWhole
      cases hWhole
  | case3 b hMarked v rest ih =>
      rcases slice_eq_cons hRest with ⟨m, hm, rfl, hTail⟩
      rcases slice_eq_cons hTail with ⟨k, hk, rfl, hNext⟩
      rw [endsInMark_marked hMarked] at hWhole
      have hStep := decodeStep_marked hMarked
      rw [Nat.mod_eq_of_lt (show x.i + 1 < 2 ^ 32 by omega),
        Nat.mod_eq_of_lt (show x.i + 2 < 2 ^ 32 by omega)]
        at hStep
      have hAt :
          src.slice (x.i + 2) (len - (x.i + 2)) = rest := by
        rw [← hNext]
        congr 1
        omega
      rcases ih (x := decodeStep src x)
          (by rw [hStep]; dsimp only; omega)
          (by rw [hStep]; exact Nat.mod_lt _ (by decide))
          (by rw [hStep]; exact hAt) hWhole with
        ⟨y, ds, hDecodes, hDecoded⟩
      refine ⟨y,
        List.replicate (src x.i &&& 0x7F).toNat
          (src (x.i + 1)) ++ ds,
        hDecodes.token (by omega) ho
          (by rw [List.length_replicate]; exact hStep) ?_, ?_⟩
      · intro a hNew
        simp only [List.mem_cons, List.not_mem_nil, or_false]
          at hNew
        omega
      · rw [swapDecompress_marked hMarked, hDecoded]
        rfl
  | case4 b rest hPlain ih =>
      rcases slice_eq_cons hRest with ⟨m, hm, rfl, hNext⟩
      rw [endsInMark_plain hPlain] at hWhole
      have hStep := decodeStep_plain hPlain
      rw [Nat.mod_eq_of_lt (show x.i + 1 < 2 ^ 32 by omega)]
        at hStep
      have hAt :
          src.slice (x.i + 1) (len - (x.i + 1)) = rest := by
        rw [← hNext]
        congr 1
        omega
      rcases ih (x := decodeStep src x)
          (by rw [hStep]; dsimp only; omega)
          (by rw [hStep]; exact Nat.mod_lt _ (by decide))
          (by rw [hStep]; exact hAt) hWhole with
        ⟨y, ds, hDecodes, hDecoded⟩
      refine ⟨y, [src x.i] ++ ds,
        hDecodes.token (by omega) ho hStep ?_, ?_⟩
      · intro a hNew
        rw [List.mem_singleton] at hNew
        omega
      · rw [swapDecompress_plain (not_not.mp hPlain), hDecoded]
        rfl

/- A mark at the end makes the loop read behind the input. -/
theorem decode_mark
    (hLen : len < 2 ^ 32)
    (hi : x.i ≤ len)
    (hRest : src.slice x.i (len - x.i) = rest)
    (hMark : endsInMark rest = true)
    {tests : Nat}
    (hLeft :
      whileLoop (decodeMore len) (decodeStep src) tests x =
        some y) :
    len ∈ y.reads := by
  induction rest using swapDecompress.induct
    generalizing x tests with
  | case1 => cases hMark
  | case2 b hMarked =>
      rcases slice_eq_cons hRest with ⟨m, hm, rfl, hEnd⟩
      have hNone := congrArg List.length hEnd
      rw [slice_length, List.length_nil] at hNone
      have hBehind : len ∈ (decodeStep src x).reads := by
        have hNext : (x.i + 1) % 2 ^ 32 = len := by
          omega
        rw [decodeStep_marked hMarked, hNext]
        simp
      have hTest : decodeMore len x = true :=
        decide_eq_true (by omega)
      have hKept :
          ∀ z : Decoding, len ∈ z.reads →
            len ∈ (decodeStep src z).reads :=
        fun _ hRead => reads_decodeStep hRead
      rcases whileLoop_behind hTest hLeft with ⟨_, hLater⟩
      have hDone := whileLoop_kept hKept hBehind hLater
      exact hDone
  | case3 b hMarked v rest ih =>
      rcases slice_eq_cons hRest with ⟨m, hm, rfl, hTail⟩
      rcases slice_eq_cons hTail with ⟨k, hk, rfl, hNext⟩
      rw [endsInMark_marked hMarked] at hMark
      have hTest : decodeMore len x = true :=
        decide_eq_true (by omega)
      have hTo : (decodeStep src x).i = x.i + 2 := by
        rw [decodeStep_marked hMarked]
        exact Nat.mod_eq_of_lt (by omega)
      rcases whileLoop_behind hTest hLeft with ⟨_, hLater⟩
      refine ih (by omega) ?_ hMark hLater
      rw [hTo, ← hNext]
      congr 1
      omega
  | case4 b rest hPlain ih =>
      rcases slice_eq_cons hRest with ⟨m, hm, rfl, hNext⟩
      rw [endsInMark_plain hPlain] at hMark
      have hTest : decodeMore len x = true :=
        decide_eq_true (by omega)
      have hTo : (decodeStep src x).i = x.i + 1 := by
        rw [decodeStep_plain hPlain]
        exact Nat.mod_eq_of_lt (by omega)
      rcases whileLoop_behind hTest hLeft with ⟨_, hLater⟩
      refine ih (by omega) ?_ hMark hLater
      rw [hTo, ← hNext]
      congr 1
      omega

end Runs

/- The decoder's stores are the bytes that it decodes. -/
theorem swapDecompressTrace_whole
    (src : ByteMem)
    (len : UInt32)
    (hWhole : endsInMark (src.slice 0 len.toNat) = false) :
    ∃ tests x ds,
      swapDecompressTrace src len tests = some x ∧
        swapDecompress (src.slice 0 len.toNat) = some ds ∧
        x.o = ds.length % 2 ^ 32 ∧
        x.writes = storeBytes ds 0 ∧
        ∀ a ∈ x.reads, a < len.toNat := by
  rcases decode_whole (x := Decoding.start) len.toNat_lt
      (Nat.zero_le _) (by decide) rfl hWhole with
    ⟨x, ds, hDecodes, hDecoded⟩
  rcases hDecodes with
    ⟨⟨tests, hLeft⟩, hOut, hWrites, rs, hReads, hInside⟩
  refine ⟨tests, x, ds, hLeft, hDecoded, ?_, hWrites, ?_⟩
  · rw [hOut]
    exact congrArg (· % 2 ^ 32) (Nat.zero_add ds.length)
  · rw [hReads]
    exact hInside

theorem decodesInside_iff
    (src : ByteMem)
    (len : UInt32) :
    DecodesInside src len ↔
      endsInMark (src.slice 0 len.toNat) = false ∧
        expandedLength (src.slice 0 len.toNat) < 2 ^ 32 := by
  cases hEnd : endsInMark (src.slice 0 len.toNat) with
  | true =>
      refine iff_of_false ?_ fun hBoth => nomatch hBoth.1
      rintro ⟨tests, x, hLeft, hInside⟩
      have hBehind :=
        decode_mark (x := Decoding.start) len.toNat_lt
          (Nat.zero_le _) rfl hEnd hLeft
      exact absurd (hInside.reads _ hBehind)
        (Nat.lt_irrefl _)
  | false =>
      rcases swapDecompressTrace_whole src len hEnd with
        ⟨tests, x, ds, hLeft, hDecoded, hOut, hWrites, hReads⟩
      rcases swapDecompress_whole hEnd with
        ⟨es, hSame, hLength⟩
      rw [hDecoded] at hSame
      cases hSame
      rw [← hLength, ← stores_fill_iff, ← hOut, ← hWrites]
      constructor
      · rintro ⟨tests', y, hLeft', hInside⟩
        cases whileLoop_unique hLeft hLeft'
        exact ⟨rfl, hInside.writes⟩
      · rintro ⟨_, hFill⟩
        exact ⟨tests, x, hLeft, hReads, hFill⟩

/-
  The encoder never writes more than its input's length.  The
  decoder stays inside its buffers exactly if its input does
  not end in a run mark and its output is counted in 32 bits.
-/
theorem codec_inside_iff
    (src : ByteMem)
    (len : UInt32) :
    (swapCompress (src.slice 0 len.toNat)).length ≤
        len.toNat ∧
      (DecodesInside src len ↔
        endsInMark (src.slice 0 len.toNat) = false ∧
          expandedLength (src.slice 0 len.toNat) < 2 ^ 32) := by
  refine ⟨?_, decodesInside_iff src len⟩
  have hBound := swapCompress_length_le (src.slice 0 len.toNat)
  rw [slice_length] at hBound
  exact hBound

/- The byte behind a mark of one byte is read. -/
theorem not_decodesInside :
    ¬ DecodesInside (ofList [0x80]) 1 := by
  rw [decodesInside_iff]
  decide

end Swap

end AsmOS
