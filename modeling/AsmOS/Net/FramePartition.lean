import AsmOS.Base.Blocks
import AsmOS.Net.NetDrivers

/-
  The chunks of a streamed frame (`src/streaming.c`) are a
  partition of it.

  Main declarations:
    * `frameBytes`, `chunkReads`
    * `HoldsChunk`, `Partition`
    * `streamingCaptureAndSend_partitions`
-/

------------------------------------------------------------
-- Frames
------------------------------------------------------------

namespace AsmOS

namespace Net

open ByteMem Blocks

def frameSize
    (mode : VideoMode) : Nat :=
  mode.width * mode.height * mode.bpp

def pixelBytes
    (mode : VideoMode)
    (fb : ByteMem)
    (row col : Nat) : List UInt8 :=
  fb.slice ((row * mode.width + col) * mode.bpp) mode.bpp

/- The pixels at even rows and columns, row by row. -/
def evenPixels
    (mode : VideoMode)
    (fb : ByteMem) : List UInt8 :=
  (evens mode.height).flatMap fun row =>
    (evens mode.width).flatMap fun col =>
      pixelBytes mode fb row col

/- What a frame of some quality consists of. -/
def frameBytes
    (mode : VideoMode)
    (quality : Nat)
    (fb : ByteMem) : List UInt8 :=
  if quality = qualityLow then evenPixels mode fb
  else fb.slice 0 (frameSize mode)

/- The framebuffer offsets that the chunk at `srcOffset` reads. -/
def chunkReads
    (mode : VideoMode)
    (quality srcOffset : Nat) : List Nat :=
  (List.range (toCopy mode quality srcOffset)).map fun i =>
    sourceOffset mode quality (srcOffset + i)

------------------------------------------------------------
-- Statements
------------------------------------------------------------

/- A frame on the wire is the `k`-th chunk of `count`. -/
def HoldsChunk
    (frameId : UInt32)
    (count k : Nat)
    (data frame : List UInt8) : Prop :=
  ∃ payload,
    CarriesData frame payload ∧
      load32 (ofList payload) 0 = frameId.toNat ∧
      load16 (ofList payload) 4 = k ∧
      load16 (ofList payload) 6 = count ∧
      payload.drop frameChunkHeader = data

/- The chunks are numbered, and make up the whole frame. -/
structure Partition
    (mode : VideoMode)
    (quality : Nat)
    (fb : ByteMem)
    (frameId : UInt32)
    (frames datas : List (List UInt8)) : Prop where
  frames_length : frames.length = nChunks mode quality
  datas_length : datas.length = nChunks mode quality
  chunks :
    ∀ (k : Nat) (data frame : List UInt8),
      datas[k]? = some data → frames[k]? = some frame →
        HoldsChunk frameId (nChunks mode quality) k data frame
  sizes :
    ∀ data ∈ datas, 1 ≤ data.length ∧ data.length ≤ 1392
  whole : datas.flatten = frameBytes mode quality fb

------------------------------------------------------------
-- Chunks Of A Frame
------------------------------------------------------------

section Chunks

variable {mode : VideoMode} {quality : Nat}

theorem toCopy_eq_min
    (mode : VideoMode)
    (quality srcOffset : Nat) :
    toCopy mode quality srcOffset =
      min frameChunkPayload
        (totalBytes mode quality - srcOffset) := by
  unfold toCopy
  split
  · omega
  · omega

/- The data of a chunk is what it reads. -/
theorem chunkData_eq_reads
    (mode : VideoMode)
    (st : Streaming)
    (fb : ByteMem)
    (chunkIdx srcOffset : Nat) :
    chunkData mode st fb chunkIdx srcOffset =
      chunkHeader st.frameId chunkIdx
          (nChunks mode st.quality) ++
        (chunkReads mode st.quality srcOffset).map fb := by
  unfold chunkData chunkReads
  rw [List.map_map]
  rfl

/- The chunks read blocks of the frame's offsets. -/
theorem chunkReads_eq_block
    (mode : VideoMode)
    (quality k : Nat) :
    chunkReads mode quality (frameChunkPayload * k) =
      block frameChunkPayload (totalBytes mode quality)
        (sourceOffset mode quality) k := by
  rw [chunkReads, toCopy_eq_min]
  rfl

/- A byte of a word, cut out by a shift and a mask. -/
theorem header_byte
    (n i : Nat) :
    (UInt8.ofNat ((n >>> i) &&& 0xFF)).toNat =
      n / 2 ^ i % 256 := by
  have hMask : 0xFF = 2 ^ 8 - 1 := rfl
  rw [UInt8.toNat_ofNat', Nat.shiftRight_eq_div_pow, hMask,
    Nat.and_two_pow_sub_one_eq_mod]
  exact Nat.mod_mod _ _

theorem header_id_byte
    (id i : UInt32) :
    ((id >>> i) &&& 0xFF).toUInt8.toNat =
      id.toNat / 2 ^ (i.toNat % 32) % 256 := by
  have hMask : (0xFF : UInt32).toNat = 2 ^ 8 - 1 := rfl
  rw [UInt32.toNat_toUInt8, UInt32.toNat_and,
    UInt32.toNat_shiftRight, hMask,
    Nat.and_two_pow_sub_one_eq_mod,
    Nat.shiftRight_eq_div_pow]
  exact Nat.mod_mod _ _

theorem header_id_low
    (id : UInt32) :
    (id &&& 0xFF).toUInt8.toNat = id.toNat % 256 := by
  have hShift : id >>> 0 = id := by
    apply UInt32.toNat_inj.mp
    rw [UInt32.toNat_shiftRight]
    rfl
  have hByte := header_id_byte id 0
  rw [hShift] at hByte
  exact hByte.trans (by
    rw [show (0 : UInt32).toNat % 32 = 0 from rfl, pow_zero,
      Nat.div_one])

theorem header_low
    (n : Nat) :
    (UInt8.ofNat (n &&& 0xFF)).toNat = n % 256 := by
  have hByte := header_byte n 0
  rw [Nat.shiftRight_zero, pow_zero, Nat.div_one] at hByte
  exact hByte

/- The header tells the frame, the chunk and their number. -/
theorem header_fields
    (id : UInt32)
    {k count : Nat}
    (hk : k < 2 ^ 16)
    (hCount : count < 2 ^ 16)
    (data : List UInt8) :
    load32 (ofList (chunkHeader id k count ++ data)) 0 =
        id.toNat ∧
      load16 (ofList (chunkHeader id k count ++ data)) 4 = k ∧
      load16 (ofList (chunkHeader id k count ++ data)) 6 =
        count := by
  have hId := id.toNat_lt
  have h0 := header_id_low id
  have h8 := header_id_byte id 8
  have h16 := header_id_byte id 16
  have h24 := header_id_byte id 24
  have hShifts :
      (8 : UInt32).toNat % 32 = 8 ∧
        (16 : UInt32).toNat % 32 = 16 ∧
        (24 : UInt32).toNat % 32 = 24 := by
    decide
  rw [hShifts.1] at h8
  rw [hShifts.2.1] at h16
  rw [hShifts.2.2] at h24
  refine ⟨?_, ?_, ?_⟩
  · change
      (id &&& 0xFF).toUInt8.toNat +
          256 * ((id >>> 8) &&& 0xFF).toUInt8.toNat +
          65536 *
            (((id >>> 16) &&& 0xFF).toUInt8.toNat +
              256 * ((id >>> 24) &&& 0xFF).toUInt8.toNat) =
        id.toNat
    rw [h0, h8, h16, h24]
    omega
  · change
      (UInt8.ofNat (k &&& 0xFF)).toNat +
          256 * (UInt8.ofNat ((k >>> 8) &&& 0xFF)).toNat =
        k
    rw [header_low, header_byte]
    omega
  · change
      (UInt8.ofNat (count &&& 0xFF)).toNat +
          256 * (UInt8.ofNat ((count >>> 8) &&& 0xFF)).toNat =
        count
    rw [header_low, header_byte]
    omega

end Chunks

------------------------------------------------------------
-- Displays
------------------------------------------------------------

/- A display whose low-quality frames have whole pixels. -/
structure VideoMode.Halves
    (mode : VideoMode) : Prop where
  width : mode.width = 2 * (mode.width / 2)
  height : mode.height = 2 * (mode.height / 2)
  width_pos : 0 < mode.width / 2
  bpp_pos : 0 < mode.bpp
  total_pos : ∀ quality, 0 < totalBytes mode quality
  count_lt : ∀ quality, nChunks mode quality < 2 ^ 16

section Displays

variable {mode : VideoMode} {quality : Nat}

theorem halves_of_mode
    (hMode : mode = vgaMode ∨ mode = ps2Mode) :
    mode.Halves := by
  have hTotals :
      ∀ q, 0 < totalBytes mode q ∧
        nChunks mode q < 2 ^ 16 := by
    intro q
    unfold nChunks totalBytes effectiveWidth effectiveHeight
    rcases hMode with rfl | rfl
    · split <;> decide
    · split <;> decide
  rcases hMode with rfl | rfl
  · exact ⟨rfl, rfl, by decide, by decide,
      fun q => (hTotals q).1, fun q => (hTotals q).2⟩
  · exact ⟨rfl, rfl, by decide, by decide,
      fun q => (hTotals q).1, fun q => (hTotals q).2⟩

/- The offset for a byte of a pixel of a low-quality frame. -/
theorem sourceOffset_low
    (hHalves : mode.Halves)
    (row : Nat)
    {col b : Nat}
    (hCol : col < mode.width / 2)
    (hb : b < mode.bpp) :
    sourceOffset mode qualityLow
        (mode.width / 2 * mode.bpp * row +
          (mode.bpp * col + b)) =
      (2 * row * mode.width + 2 * col) * mode.bpp + b := by
  have hWidth :
      effectiveWidth mode qualityLow = mode.width / 2 :=
    if_pos rfl
  have hPix :
      mode.width / 2 * mode.bpp * row + (mode.bpp * col + b) =
        mode.bpp * (mode.width / 2 * row + col) + b := by
    ring
  have hDiv :
      (mode.bpp * (mode.width / 2 * row + col) + b) /
          mode.bpp =
        mode.width / 2 * row + col := by
    rw [Nat.mul_add_div hHalves.bpp_pos, Nat.div_eq_of_lt hb,
      Nat.add_zero]
  have hMod :
      (mode.bpp * (mode.width / 2 * row + col) + b) %
          mode.bpp =
        b := by
    rw [Nat.mul_add_mod, Nat.mod_eq_of_lt hb]
  unfold sourceOffset
  rw [if_pos rfl, hWidth, hPix]
  dsimp only
  rw [hDiv, hMod, Nat.mul_add_div hHalves.width_pos,
    Nat.div_eq_of_lt hCol, Nat.mul_add_mod,
    Nat.mod_eq_of_lt hCol, Nat.add_zero, Nat.mul_comm row 2,
    Nat.mul_comm col 2]

/- The offsets of a frame, in the order of their bytes. -/
theorem map_sourceOffset
    (hHalves : mode.Halves)
    (quality : Nat)
    (fb : ByteMem) :
    (List.range (totalBytes mode quality)).map
        (fun pix => fb (sourceOffset mode quality pix)) =
      frameBytes mode quality fb := by
  unfold frameBytes
  by_cases hLow : quality = qualityLow
  · subst hLow
    have hTotal :
        totalBytes mode qualityLow =
          mode.width / 2 * mode.bpp * (mode.height / 2) := by
      unfold totalBytes effectiveWidth effectiveHeight
      rw [if_pos rfl, if_pos rfl]
    rw [if_pos rfl, hTotal, map_range_mul, evenPixels,
      hHalves.height, evens_double, ← hHalves.height,
      List.flatMap_map]
    refine List.flatMap_congr fun row _ => ?_
    rw [Nat.mul_comm (mode.width / 2) mode.bpp, map_range_mul,
      hHalves.width, evens_double, ← hHalves.width,
      List.flatMap_map]
    refine List.flatMap_congr fun col hCol => ?_
    refine List.map_congr_left fun b hb => ?_
    rw [Nat.mul_comm mode.bpp (mode.width / 2),
      sourceOffset_low hHalves row (List.mem_range.mp hCol)
        (List.mem_range.mp hb)]
  · have hTotal : totalBytes mode quality = frameSize mode := by
      unfold totalBytes effectiveWidth effectiveHeight frameSize
      rw [if_neg hLow, if_neg hLow]
      ring
    rw [if_neg hLow, hTotal]
    refine List.map_congr_left fun pix _ => ?_
    rw [sourceOffset, if_neg hLow, Nat.zero_add]

/- Every byte of a frame is read inside the framebuffer. -/
theorem sourceOffset_lt
    (hMode : mode = vgaMode ∨ mode = ps2Mode)
    {pix : Nat}
    (hPix : pix < totalBytes mode quality) :
    sourceOffset mode quality pix < frameSize mode := by
  unfold totalBytes effectiveWidth effectiveHeight at hPix
  unfold sourceOffset effectiveWidth frameSize
  by_cases hLow : quality = qualityLow
  · rw [if_pos hLow, if_pos hLow] at hPix
    rw [if_pos hLow, if_pos hLow]
    rcases hMode with rfl | rfl
    · simp only [vgaMode] at hPix ⊢
      omega
    · simp only [ps2Mode] at hPix ⊢
      omega
  · rw [if_neg hLow, if_neg hLow] at hPix
    rw [if_neg hLow]
    rcases hMode with rfl | rfl
    · simp only [vgaMode] at hPix ⊢
      omega
    · simp only [ps2Mode] at hPix ⊢
      omega

theorem chunkReads_lt
    (hMode : mode = vgaMode ∨ mode = ps2Mode)
    (quality srcOffset : Nat) :
    ∀ a ∈ chunkReads mode quality srcOffset,
      a < frameSize mode := by
  intro a hRead
  rcases List.mem_map.mp hRead with ⟨i, hi, rfl⟩
  have hInside := List.mem_range.mp hi
  rw [toCopy_eq_min] at hInside
  exact sourceOffset_lt hMode (by omega)

end Displays

------------------------------------------------------------
-- Sends Of A Frame
------------------------------------------------------------

section Loop

variable {mode : VideoMode} {driver : List UInt8 → Int}
variable {st : Streaming} {fb : ByteMem} {s : State}

/- A loop sends everything exactly if the driver takes it. -/
theorem captureLoop_sent_iff
    (mode : VideoMode)
    (driver : List UInt8 → Int)
    (st : Streaming)
    (fb : ByteMem)
    (n chunkIdx srcOffset : Nat)
    (hInit : s.initialized = true) :
    let done :=
      captureLoop mode driver st fb n chunkIdx srcOffset s
    (done.sent = true ↔
        ∀ frame ∈ done.frames, driver frame = 0) ∧
      (done.sent = true → done.frames.length = n) := by
  induction n generalizing chunkIdx srcOffset s with
  | zero =>
      rw [captureLoop]
      exact ⟨iff_of_true rfl (List.forall_mem_nil _),
        fun _ => rfl⟩
  | succ n ih =>
      have hCount := chunkData_count mode st fb chunkIdx srcOffset
      have hFits :=
        chunkData_length_le mode st fb chunkIdx srcOffset
      rcases transportSend_result driver hInit typeData
          (some
            (ofList (chunkData mode st fb chunkIdx srcOffset)))
          (hCount.trans_le hFits) with
        ⟨frame, hFrame, _, hRc, hState⟩
      have hRest :=
        ih (chunkIdx + 1)
          (srcOffset + toCopy mode st.quality srcOffset) hState
      rw [captureLoop]
      dsimp only at hRest ⊢
      rw [hRc, hFrame]
      by_cases hTaken : driver frame = 0
      · rw [if_neg (not_not.mpr hTaken), if_neg (by omega)]
        dsimp only
        rw [Option.toList_some, List.singleton_append,
          List.forall_mem_cons, List.length_cons]
        exact ⟨hRest.1.trans (and_iff_right hTaken).symm,
          fun hSent => congrArg (· + 1) (hRest.2 hSent)⟩
      · rw [if_pos hTaken, if_pos (by decide)]
        refine ⟨iff_of_false Bool.false_ne_true ?_,
          fun hSent => absurd hSent Bool.false_ne_true⟩
        intro hAll
        exact hTaken (hAll frame (.head _))

/- Nothing is sent through a layer that is not set up. -/
theorem captureLoop_uninitialised
    (hOff : ¬ s.initialized = true)
    (n chunkIdx srcOffset : Nat) :
    (captureLoop mode driver st fb (n + 1) chunkIdx srcOffset
      s).sent = false := by
  have hRc :
      (transportSend driver s typeData
        (some (ofList (chunkData mode st fb chunkIdx srcOffset)))
        (UInt16.ofNat
          (frameChunkHeader +
            toCopy mode st.quality srcOffset))).rc = -1 := by
    unfold transportSend
    rw [if_pos (.inl hOff)]
  rw [captureLoop]
  dsimp only
  rw [hRc, if_pos (by decide)]

/- Two framebuffers that agree are sent alike. -/
theorem captureLoop_congr
    (hMode : mode = vgaMode ∨ mode = ps2Mode)
    (driver : List UInt8 → Int)
    (st : Streaming)
    {fb fb' : ByteMem}
    (hSame : ∀ a < frameSize mode, fb' a = fb a)
    (n chunkIdx srcOffset : Nat)
    (s : State) :
    captureLoop mode driver st fb' n chunkIdx srcOffset s =
      captureLoop mode driver st fb n chunkIdx srcOffset s := by
  induction n generalizing chunkIdx srcOffset s with
  | zero => rfl
  | succ n ih =>
      have hData :
          chunkData mode st fb' chunkIdx srcOffset =
            chunkData mode st fb chunkIdx srcOffset := by
        rw [chunkData_eq_reads, chunkData_eq_reads]
        congr 1
        refine List.map_congr_left fun a hRead => ?_
        exact hSame a
          (chunkReads_lt hMode st.quality srcOffset a hRead)
      simp only [captureLoop, hData, ih]

end Loop

section Calls

variable {mode : VideoMode}

/- The result of a call, and what it does to the statics. -/
theorem streamingCaptureAndSend_result
    (mode : VideoMode)
    (driver : List UInt8 → Int)
    (fb : ByteMem)
    (packet : List UInt8)
    (st : Streaming)
    (s : State) :
    let r :=
      streamingCaptureAndSend mode driver fb packet st s
    let done :=
      captureLoop mode driver st fb (nChunks mode st.quality) 0
        0 s
    (r.rc = 0 ↔
        (st.initialized = true ∧ st.running = true) ∧
          done.sent = true) ∧
      (r.rc = 0 →
        r.streaming =
          { st with frameId := st.frameId + 1 }) ∧
      (r.rc ≠ 0 → r.rc = -1 ∧ r.streaming = st) := by
  intro r done
  have hMinus : (-1 : Int) ≠ 0 := by decide
  by_cases hOff : ¬ st.initialized = true ∨ ¬ st.running = true
  · have hResult : r = ⟨-1, [], none, st, s⟩ := if_pos hOff
    rw [hResult]
    refine ⟨iff_of_false hMinus ?_,
      fun hZero => absurd hZero hMinus, fun _ => ⟨rfl, rfl⟩⟩
    rintro ⟨⟨hInit, hRunning⟩, _⟩
    rcases hOff with hOff | hOff
    · exact hOff hInit
    · exact hOff hRunning
  · have hOn : st.initialized = true ∧ st.running = true := by
      rw [not_or, not_not, not_not] at hOff
      exact hOff
    cases hSent : done.sent with
    | false =>
        have hResult :
            r = ⟨-1, done.frames, none, st, done.transport⟩ := by
          refine (if_neg hOff).trans (if_neg ?_)
          exact Bool.eq_false_iff.mp hSent
        rw [hResult]
        exact ⟨iff_of_false hMinus fun h =>
            absurd h.2 Bool.false_ne_true,
          fun hZero => absurd hZero hMinus,
          fun _ => ⟨rfl, rfl⟩⟩
    | true =>
        have hBoth :
            r.rc = 0 ∧
              r.streaming =
                { st with frameId := st.frameId + 1 } := by
          have hAll :
              (captureLoop mode driver st fb
                (nChunks mode st.quality) 0 0 s).sent = true :=
            hSent
          change
            (streamingCaptureAndSend mode driver fb packet st
                s).rc = 0 ∧
              (streamingCaptureAndSend mode driver fb packet st
                s).streaming = _
          unfold streamingCaptureAndSend
          rw [if_neg hOff]
          dsimp only
          rw [if_pos hAll]
          split
          · exact ⟨rfl, rfl⟩
          · exact ⟨rfl, rfl⟩
        exact ⟨iff_of_true hBoth.1 ⟨hOn, rfl⟩,
          fun _ => hBoth.2, fun hFailed =>
            absurd hBoth.1 hFailed⟩

/- All chunks read what is sent of a frame, in its order. -/
theorem chunkReads_flatten
    (mode : VideoMode)
    (quality : Nat) :
    ((List.range (nChunks mode quality)).map fun k =>
        chunkReads mode quality
          (frameChunkPayload * k)).flatten =
      (List.range (totalBytes mode quality)).map
        (sourceOffset mode quality) := by
  have hReach :
      totalBytes mode quality ≤
        frameChunkPayload * nChunks mode quality := by
    unfold nChunks
    simp only [frameChunkPayload_eq]
    omega
  rw [← flatten_blocks_all hReach]
  congr 2
  exact funext fun k => chunkReads_eq_block mode quality k

/- The chunks of a frame that is sent whole. -/
theorem partition_of_sent
    (hMode : mode = vgaMode ∨ mode = ps2Mode)
    {driver : List UInt8 → Int}
    {fb : ByteMem}
    {packet : List UInt8}
    {st : Streaming}
    {s : State}
    (hLength :
      (streamingCaptureAndSend mode driver fb packet st
        s).frames.length = nChunks mode st.quality) :
    ∃ datas,
      Partition mode st.quality fb st.frameId
        (streamingCaptureAndSend mode driver fb packet st
          s).frames datas := by
  have hHalves := halves_of_mode hMode
  have hCountLt := hHalves.count_lt st.quality
  have hPayload := frameChunkPayload_eq
  let reads :=
    fun k => chunkReads mode st.quality (frameChunkPayload * k)
  refine
    ⟨(List.range (nChunks mode st.quality)).map fun k =>
        (reads k).map fb,
      hLength, by rw [List.length_map, List.length_range],
      ?_, ?_, ?_⟩
  · intro k data frame hData hFrame
    have hk : k < nChunks mode st.quality := by
      rw [← hLength]
      exact (List.getElem?_eq_some_iff.mp hFrame).1
    have hCarries := streamingCaptureAndSend_carries hFrame
    rw [chunkData_eq_reads] at hCarries
    rw [List.getElem?_map, List.getElem?_range hk] at hData
    have hFields :=
      header_fields st.frameId (hk.trans hCountLt) hCountLt
        ((reads k).map fb)
    refine ⟨_, hCarries, hFields.1, hFields.2.1, hFields.2.2, ?_⟩
    exact Option.some.inj hData
  · intro data hMember
    rcases List.mem_map.mp hMember with ⟨k, hk, rfl⟩
    have hBelow := List.mem_range.mp hk
    have hTotal := hHalves.total_pos st.quality
    unfold nChunks at hBelow
    rw [List.length_map]
    change 1 ≤ (chunkReads _ _ _).length ∧
      (chunkReads _ _ _).length ≤ 1392
    rw [chunkReads_eq_block, block_length]
    simp only [hPayload] at hBelow ⊢
    omega
  · have hReads := chunkReads_flatten mode st.quality
    have hMap :
        ((List.range (nChunks mode st.quality)).map fun k =>
            (reads k).map fb) =
          ((List.range (nChunks mode st.quality)).map
            reads).map (List.map fb) := by
      rw [List.map_map]
      rfl
    rw [hMap, ← List.map_flatten, hReads, List.map_map]
    exact map_sourceOffset hHalves st.quality fb

/- Nothing is taken from a layer that is not set up. -/
theorem captureLoop_taken_iff
    (hMode : mode = vgaMode ∨ mode = ps2Mode)
    (driver : List UInt8 → Int)
    (fb : ByteMem)
    (packet : List UInt8)
    {st : Streaming}
    (hOn : st.initialized = true ∧ st.running = true)
    (s : State) :
    (captureLoop mode driver st fb (nChunks mode st.quality) 0 0
        s).sent = true ↔
      s.initialized = true ∧
        ∀ frame ∈
          (streamingCaptureAndSend mode driver fb packet st
            s).frames,
          driver frame = 0 := by
  have hCount :=
    (halves_of_mode hMode).total_pos st.quality
  have hMore : 0 < nChunks mode st.quality := by
    unfold nChunks
    simp only [frameChunkPayload_eq]
    omega
  rw [streamingCaptureAndSend_frames mode driver fb packet hOn s]
  by_cases hInit : s.initialized = true
  · rw [(captureLoop_sent_iff mode driver st fb _ 0 0 hInit).1]
    exact (and_iff_right hInit).symm
  · rcases Nat.exists_eq_succ_of_ne_zero hMore.ne' with ⟨n, hn⟩
    rw [hn]
    refine iff_of_false ?_ fun hBoth => hInit hBoth.1
    rw [captureLoop_uninitialised hInit]
    exact Bool.false_ne_true

end Calls

/-
  A capture succeeds exactly if streaming runs and every send
  of it succeeds.  Then the chunks are the frame, cut in its
  order, and the frame's number goes up by one; else it stays.
  Only bytes of the framebuffer are read.
-/
theorem streamingCaptureAndSend_partitions
    {mode : VideoMode}
    (hMode : mode = vgaMode ∨ mode = ps2Mode)
    (driver : List UInt8 → Int)
    (fb : ByteMem)
    (packet : List UInt8)
    (st : Streaming)
    (s : State) :
    let r := streamingCaptureAndSend mode driver fb packet st s
    (r.rc = 0 ↔
        (st.initialized = true ∧ st.running = true) ∧
          s.initialized = true ∧
          ∀ frame ∈ r.frames, driver frame = 0) ∧
      (r.rc = 0 →
        (∃ datas,
          Partition mode st.quality fb st.frameId r.frames
            datas) ∧
          r.streaming =
            { st with frameId := st.frameId + 1 }) ∧
      (r.rc ≠ 0 → r.rc = -1 ∧ r.streaming = st) ∧
      (∀ k, ∀ a ∈
          chunkReads mode st.quality (frameChunkPayload * k),
        a < frameSize mode) ∧
      ∀ fb' : ByteMem, (∀ a < frameSize mode, fb' a = fb a) →
        streamingCaptureAndSend mode driver fb' packet st s =
          r := by
  intro r
  have hResult :=
    streamingCaptureAndSend_result mode driver fb packet st s
  have hTaken :
      ∀ hOn : st.initialized = true ∧ st.running = true,
        (captureLoop mode driver st fb
            (nChunks mode st.quality) 0 0 s).sent = true ↔
          s.initialized = true ∧
            ∀ frame ∈ r.frames, driver frame = 0 :=
    fun hOn =>
      captureLoop_taken_iff hMode driver fb packet hOn s
  refine ⟨hResult.1.trans ?_, fun hZero => ⟨?_,
      hResult.2.1 hZero⟩, hResult.2.2,
    fun k => chunkReads_lt hMode st.quality _,
    fun fb' hSame => ?_⟩
  · exact and_congr_right hTaken
  · rcases hResult.1.mp hZero with ⟨hOn, hSent⟩
    have hInit := ((hTaken hOn).mp hSent).1
    refine partition_of_sent hMode ?_
    rw [streamingCaptureAndSend_frames mode driver fb packet hOn
      s]
    exact (captureLoop_sent_iff mode driver st fb _ 0 0
      hInit).2 hSent
  · have hLoop :=
      captureLoop_congr hMode driver st hSame
        (nChunks mode st.quality) 0 0 s
    change _ = streamingCaptureAndSend mode driver fb packet st s
    unfold streamingCaptureAndSend
    rw [hLoop]

/- A low-quality frame of the PC build on a new session. -/
theorem streamingCaptureAndSend_partitions_low :
    let r :=
      streamingCaptureAndSend vgaMode (fun _ => 0) zeros []
        ⟨true, true, qualityLow, false, 7⟩
        (transportInit State.boot)
    r.rc = 0 ∧
      ∃ datas,
        Partition vgaMode qualityLow zeros 7 r.frames datas := by
  intro r
  have hParts :=
    streamingCaptureAndSend_partitions (.inl rfl)
      (fun _ => 0) zeros []
      ⟨true, true, qualityLow, false, 7⟩
      (transportInit State.boot)
  have hZero : r.rc = 0 :=
    hParts.1.mpr ⟨⟨rfl, rfl⟩, rfl, fun _ _ => rfl⟩
  exact ⟨hZero, (hParts.2.1 hZero).1⟩

end Net

end AsmOS
