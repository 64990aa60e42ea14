import AsmOS.Base.RunPieces

/-
  The run-length codec of the swap layer
  (`src/memory_budget.c`).

  A byte with bit 7 set announces a run of the next byte; any
  other byte stands for itself.  The encoder stops as soon as
  the output comes within two bytes of the input's length.

  Main declarations:
    * `swapCompress`
    * `swapDecompress`
    * `encode`
    * `Coded`
    * `swapCompressFrom_coded`
    * `swapCompressFrom_eq_encode_iff`
-/

------------------------------------------------------------
-- The Codec
------------------------------------------------------------

namespace AsmOS

namespace Swap

open RunPieces

/- The first byte of a coded run of `count` bytes. -/
def header
    (count : Nat) : UInt8 :=
  UInt8.ofNat (0x80 ||| count)

/-
  The encoder's loop from the unread bytes `s[i..]` on, with
  `o` bytes written and `len` bytes of input in all.
-/
def swapCompressFrom
    (len : Nat) :
    Nat → List UInt8 → List UInt8
| _, [] => []
| o, run :: rest =>
    if o + 2 < len then
      let count := leadRun 127 run 1 rest
      if 3 ≤ count then
        header count :: run ::
          swapCompressFrom len (o + 2) (rest.drop (count - 1))
      else run :: swapCompressFrom len (o + 1) rest
    else []
termination_by _ s => s.length
decreasing_by
  · simp only [List.length_drop, List.length_cons]
    omega
  · simp only [List.length_cons]
    omega

/- The bytes `swap_compress` writes; `out_len` counts them. -/
def swapCompress
    (src : List UInt8) : List UInt8 :=
  swapCompressFrom src.length 0 src

/-
  The bytes `swap_decompress` writes.  A run that is
  announced by the last byte makes the source read past the
  end of its input; the result is then `none`.
-/
def swapDecompress :
    List UInt8 → Option (List UInt8)
| [] => some []
| b :: rest =>
    if b &&& 0x80 ≠ 0 then
      match rest with
      | [] => none
      | v :: rest =>
          (swapDecompress rest).map fun d =>
            List.replicate (b &&& 0x7F).toNat v ++ d
    else (swapDecompress rest).map fun d => b :: d

/- Compressing and decompressing gives the bytes back. -/
def RoundTrips
    (x : List UInt8) : Prop :=
  swapDecompress (swapCompress x) = some x

instance
    (x : List UInt8) :
    Decidable (RoundTrips x) :=
  inferInstanceAs (Decidable (_ = _))

------------------------------------------------------------
-- Headers And Decoder Steps
------------------------------------------------------------

variable {b v : UInt8} {x u y rest : List UInt8} {n o len : Nat}

theorem header_marked
    (hCap : n ≤ 127) :
    header n &&& 0x80 ≠ 0 := by
  have hAll : ∀ n < 128, header n &&& 0x80 ≠ 0 := by decide
  exact hAll n (by omega)

theorem header_count
    (hCap : n ≤ 127) :
    (header n &&& 0x7F).toNat = n := by
  have hAll :
      ∀ n < 128, (header n &&& 0x7F).toNat = n := by decide
  exact hAll n (by omega)

theorem count_le
    (b : UInt8) :
    (b &&& 0x7F).toNat ≤ 127 := by
  rw [UInt8.toNat_and]
  exact Nat.and_le_right

/- A byte is plain when its bit 7 is clear. -/
theorem plain_iff :
    b &&& 0x80 = 0 ↔ b < 0x80 := by
  have hAll :
      ∀ n < 256, UInt8.ofNat n &&& 0x80 = 0 ↔
        UInt8.ofNat n < 0x80 := by decide +kernel
  simpa using hAll b.toNat b.toNat_lt

@[simp] theorem swapDecompress_nil :
    swapDecompress [] = some [] :=
  rfl

theorem swapDecompress_plain
    (hPlain : b &&& 0x80 = 0) :
    swapDecompress (b :: rest) =
      (swapDecompress rest).map fun d => b :: d := by
  rw [swapDecompress.eq_def]
  exact if_neg (not_not.mpr hPlain)

theorem swapDecompress_marked
    (hMarked : b &&& 0x80 ≠ 0) :
    swapDecompress (b :: v :: rest) =
      (swapDecompress rest).map fun d =>
        List.replicate (b &&& 0x7F).toNat v ++ d := by
  rw [swapDecompress, if_pos hMarked]

theorem swapDecompress_marked_last
    (hMarked : b &&& 0x80 ≠ 0) :
    swapDecompress [b] = none := by
  rw [swapDecompress, if_pos hMarked]

------------------------------------------------------------
-- The Code Of A List
------------------------------------------------------------

/- A run of three or more is coded, a shorter one copied. -/
def encodePiece
    (p : Piece UInt8) : List UInt8 :=
  if 3 ≤ p.count then [header p.count, p.value]
  else List.replicate p.count p.value

/- The complete code of a sequence of pieces. -/
def encode
    (ps : List (Piece UInt8)) : List UInt8 :=
  ps.flatMap encodePiece

@[simp] theorem encode_nil :
    encode [] = [] :=
  rfl

@[simp] theorem encode_cons
    (p : Piece UInt8)
    (ps : List (Piece UInt8)) :
    encode (p :: ps) = encodePiece p ++ encode ps :=
  rfl

/- The output of the encoder's last step. -/
def lastCost
    (ps : List (Piece UInt8)) : Nat :=
  match ps.getLast? with
  | none => 0
  | some p => if 3 ≤ p.count then 2 else 1

/- How much shorter than the list its code is. -/
def saved :
    List (Piece UInt8) → Nat
| [] => 0
| p :: ps => p.count - 2 + saved ps

/-
  `Coded u y`: the encoder may write `y` for the input `u`.
  It may stop before any token.
-/
inductive Coded : List UInt8 → List UInt8 → Prop
| stop (u : List UInt8) :
    Coded u []
| run {n : Nat} {b : UInt8} {u y : List UInt8}
    (hLong : 3 ≤ n)
    (hCap : n ≤ 127)
    (hEnd : n = 127 ∨ u.head? ≠ some b)
    (hRest : Coded u y) :
    Coded (List.replicate n b ++ u) (header n :: b :: y)
| literal {b : UInt8} {u y : List UInt8}
    (hShort : ¬ [b, b] <+: u)
    (hRest : Coded u y) :
    Coded (b :: u) (b :: y)

/- The two ways in which input goes on from a byte. -/
theorem leadRun_cases
    (b : UInt8)
    (rest : List UInt8) :
    (∃ n u, leadRun 127 b 1 rest = n ∧ 3 ≤ n ∧ n ≤ 127 ∧
        b :: rest = List.replicate n b ++ u ∧
        rest.drop (n - 1) = u ∧
        (n = 127 ∨ u.head? ≠ some b)) ∨
      (leadRun 127 b 1 rest < 3 ∧ ¬ [b, b] <+: rest) := by
  have hBounds :=
    leadRun_bounds b 1 rest (show 1 ≤ 127 by omega)
  rcases leadRun_split b 1 rest (show 1 ≤ 127 by omega) with
    ⟨hSplit, hEnd⟩
  by_cases hLong : 3 ≤ leadRun 127 b 1 rest
  · exact Or.inl ⟨_, _, rfl, hLong, hBounds.2.1, hSplit, rfl,
      hEnd⟩
  · refine Or.inr ⟨by omega, ?_⟩
    rintro ⟨tail, rfl⟩
    have hTwo :=
      leadRun_bounds b 3 tail (show 3 ≤ 127 by omega)
    simp [leadRun] at hLong
    omega

/- Three or more bytes in a row and room: a run is coded. -/
theorem swapCompressFrom_run
    (hRoom : o + 2 < len)
    (hLead : leadRun 127 b 1 rest = n)
    (hLong : 3 ≤ n) :
    swapCompressFrom len o (b :: rest) =
      header n :: b ::
        swapCompressFrom len (o + 2) (rest.drop (n - 1)) := by
  rw [swapCompressFrom, if_pos hRoom]
  simp [hLead, hLong]

/- Fewer than three in a row and room: a byte is copied. -/
theorem swapCompressFrom_literal
    (hRoom : o + 2 < len)
    (hLead : leadRun 127 b 1 rest < 3) :
    swapCompressFrom len o (b :: rest) =
      b :: swapCompressFrom len (o + 1) rest := by
  have hShort : ¬ 3 ≤ leadRun 127 b 1 rest := by omega
  rw [swapCompressFrom, if_pos hRoom]
  simp [hShort]

/- Without room the encoder writes nothing more. -/
theorem swapCompressFrom_full
    (hFull : ¬ o + 2 < len) :
    swapCompressFrom len o x = [] := by
  cases x with
  | nil => rw [swapCompressFrom]
  | cons b rest => rw [swapCompressFrom, if_neg hFull]

/- What the encoder writes is a code of what it reads. -/
theorem swapCompressFrom_coded
    (len o : Nat)
    (x : List UInt8) :
    Coded x (swapCompressFrom len o x) := by
  induction hSize : x.length using Nat.strongRecOn
    generalizing o x with
  | ind size ih =>
    by_cases hRoom : o + 2 < len
    · cases x with
      | nil =>
          rw [swapCompressFrom]
          exact .stop []
      | cons b rest =>
          simp only [List.length_cons] at hSize
          rcases leadRun_cases b rest with
            ⟨n, u, hLead, hLong, hCap, hSplit, hDrop, hEnd⟩ |
            ⟨hLead, hShort⟩
          · rw [swapCompressFrom_run hRoom hLead hLong, hDrop,
              hSplit]
            have hLess : u.length < size := by
              rw [← hDrop, List.length_drop]
              omega
            exact .run hLong hCap hEnd (ih _ hLess _ _ rfl)
          · rw [swapCompressFrom_literal hRoom hLead]
            exact .literal hShort
              (ih _ (by omega) _ _ rfl)
    · rw [swapCompressFrom_full hRoom]
      exact .stop x

------------------------------------------------------------
-- Pieces And Literals
------------------------------------------------------------

/- A literal begins a piece of one byte or of two. -/
theorem pieces_literal
    (hShort : ¬ [b, b] <+: u) :
    pieces 127 (b :: u) = ⟨1, b⟩ :: pieces 127 u ∨
      ∃ w, u = b :: w ∧
        pieces 127 u = ⟨1, b⟩ :: pieces 127 w ∧
        pieces 127 (b :: u) = ⟨2, b⟩ :: pieces 127 w := by
  by_cases hHead : u.head? = some b
  · right
    rcases List.head?_eq_some_iff.mp hHead with ⟨w, rfl⟩
    have hNext : w.head? ≠ some b := by
      intro hSame
      rcases List.head?_eq_some_iff.mp hSame with ⟨tail, rfl⟩
      exact hShort ⟨tail, rfl⟩
    refine ⟨w, rfl, pieces_cons_of_ne (by omega) hNext, ?_⟩
    simpa using pieces_run (n := 2) (b := b) (l := w)
      (by omega) (show 2 ≤ 127 by omega) (Or.inr hNext)
  · exact Or.inl (pieces_cons_of_ne (by omega) hHead)

/- A literal is copied into the complete code. -/
theorem encode_pieces_literal
    (hShort : ¬ [b, b] <+: u) :
    encode (pieces 127 (b :: u)) =
      b :: encode (pieces 127 u) := by
  rcases pieces_literal hShort with hOne | ⟨w, _, hOne, hTwo⟩
  · simp [hOne, encodePiece]
  · simp [hOne, hTwo, encodePiece, List.replicate]

/- A run is coded by its header and its byte. -/
theorem encode_pieces_run
    (hLong : 3 ≤ n)
    (hCap : n ≤ 127)
    (hEnd : n = 127 ∨ u.head? ≠ some b) :
    encode (pieces 127 (List.replicate n b ++ u)) =
      header n :: b :: encode (pieces 127 u) := by
  rw [pieces_run (by omega) hCap hEnd]
  simp [encodePiece, hLong]

------------------------------------------------------------
-- Where The Encoder Stops
------------------------------------------------------------

theorem pieces_ne_nil
    (hSome : x ≠ []) :
    pieces 127 x ≠ [] := by
  intro hNil
  have hExpand := expand_pieces 127 x
  rw [hNil] at hExpand
  exact hSome hExpand.symm

theorem lastCost_cons
    (p : Piece UInt8)
    {ps : List (Piece UInt8)}
    (hSome : ps ≠ []) :
    lastCost (p :: ps) = lastCost ps := by
  obtain ⟨q, qs, rfl⟩ := List.exists_cons_of_ne_nil hSome
  simp [lastCost, List.getLast?_cons_cons]

theorem lastCost_pos
    {ps : List (Piece UInt8)}
    (hSome : ps ≠ []) :
    0 < lastCost ps := by
  rcases List.getLast?_isSome.mpr hSome |>
    Option.isSome_iff_exists.mp with ⟨p, hLast⟩
  simp only [lastCost, hLast]
  split <;> omega

/- The last step is part of the code. -/
theorem lastCost_le_length
    {ps : List (Piece UInt8)}
    (hCounts : ∀ p ∈ ps, 0 < p.count) :
    lastCost ps ≤ (encode ps).length := by
  induction ps with
  | nil => simp [lastCost]
  | cons p ps ih =>
      have hRest := ih fun q hq =>
        hCounts q (List.mem_cons_of_mem _ hq)
      have hHere := hCounts p List.mem_cons_self
      rw [encode_cons, List.length_append]
      cases ps with
      | nil =>
          simp only [lastCost, List.getLast?_singleton,
            encodePiece]
          split
          · simp
          · simp
            omega
      | cons q qs =>
          rw [lastCost_cons p (List.cons_ne_nil q qs)]
          omega

/- The code is shorter by what its runs save. -/
theorem length_expand
    (ps : List (Piece UInt8)) :
    (expand ps).length = (encode ps).length + saved ps := by
  induction ps with
  | nil => rfl
  | cons p ps ih =>
      simp only [expand_cons, encode_cons, saved, encodePiece,
        List.length_append, List.length_replicate, ih]
      split <;> simp <;> omega

@[simp] theorem saved_append
    (ps qs : List (Piece UInt8)) :
    saved (ps ++ qs) = saved ps + saved qs := by
  induction ps with
  | nil => simp [saved]
  | cons p ps ih => simp [saved, ih, Nat.add_assoc]

theorem lastCost_literal
    (hShort : ¬ [b, b] <+: u)
    (hSome : u ≠ []) :
    lastCost (pieces 127 (b :: u)) =
      lastCost (pieces 127 u) := by
  rcases pieces_literal hShort with hOne | ⟨w, _, hOne, hTwo⟩
  · rw [hOne, lastCost_cons _ (pieces_ne_nil hSome)]
  · rw [hOne, hTwo]
    cases hRest : pieces 127 w with
    | nil => rfl
    | cons p ps =>
        rw [lastCost_cons _ (List.cons_ne_nil p ps),
          lastCost_cons _ (List.cons_ne_nil p ps)]

/-
  The encoder writes the complete code exactly when it has
  room at its last step.
-/
theorem swapCompressFrom_eq_encode_iff
    (len o : Nat)
    (hSome : x ≠ []) :
    swapCompressFrom len o x = encode (pieces 127 x) ↔
      o + (encode (pieces 127 x)).length + 3 ≤
        len + lastCost (pieces 127 x) := by
  induction hSize : x.length using Nat.strongRecOn
    generalizing o x with
  | ind size ih =>
    have hPos := lastCost_pos (pieces_ne_nil hSome)
    have hLast :
        lastCost (pieces 127 x) ≤
          (encode (pieces 127 x)).length :=
      lastCost_le_length fun p hp => pieces_count_pos hp
    by_cases hRoom : o + 2 < len
    · obtain ⟨b, rest, rfl⟩ := List.exists_cons_of_ne_nil hSome
      simp only [List.length_cons] at hSize
      rcases leadRun_cases b rest with
        ⟨n, u, hLead, hLong, hCap, hSplit, hDrop, hEnd⟩ |
        ⟨hLead, hShort⟩
      · have hCode := encode_pieces_run hLong hCap hEnd
        have hPieces := pieces_run (by omega) hCap hEnd
        have hLess : u.length < size := by
          rw [← hDrop, List.length_drop]
          omega
        rw [swapCompressFrom_run hRoom hLead hLong, hDrop,
          hSplit, hCode, hPieces]
        simp only [List.cons.injEq, true_and,
          List.length_cons]
        cases u with
        | nil =>
            have hNil : swapCompressFrom len (o + 2) [] = [] := by
              rw [swapCompressFrom]
            simp [hNil, lastCost, hLong]
            omega
        | cons c u =>
            rw [ih _ hLess (o + 2) (List.cons_ne_nil c u) rfl,
              lastCost_cons _
                (pieces_ne_nil (List.cons_ne_nil c u))]
            omega
      · rw [swapCompressFrom_literal hRoom hLead,
          encode_pieces_literal hShort]
        simp only [List.cons.injEq, true_and,
          List.length_cons]
        cases rest with
        | nil =>
            have hNil : swapCompressFrom len (o + 1) [] = [] := by
              rw [swapCompressFrom]
            simp [hNil, lastCost, pieces, piecesFrom]
            omega
        | cons c rest =>
            rw [ih _ (by omega) (o + 1)
                (List.cons_ne_nil c rest) rfl,
              lastCost_literal hShort (List.cons_ne_nil c rest)]
            omega
    · rw [swapCompressFrom_full hRoom]
      constructor
      · intro hNil
        rw [← hNil] at hLast
        simp only [List.length_nil] at hLast
        omega
      · intro hFit
        omega

end Swap

end AsmOS
