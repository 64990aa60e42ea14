import AsmOS.Swap.SwapCodec

/-
  When the swap codec gives the compressed bytes back.

  A literal byte with bit 7 set is taken for a header by the
  decoder, which from then on reads tokens that do not begin
  where the encoder's tokens begin.  It never catches up: the
  bytes it still owes stay ahead of the bytes it still has.

  Main declarations:
    * `Behind`
    * `Ahead`
    * `swapDecompress_ne_of_ahead`
    * `Legible`
    * `swapDecompress_swapCompress_iff`
-/

------------------------------------------------------------
-- A Decoder That Is Behind
------------------------------------------------------------

namespace AsmOS

namespace Swap

open RunPieces

variable {b v : UInt8} {q t u x y : List UInt8} {k m n : Nat}

/-
  `Behind t y`: the decoder may meet the bytes `y` when the
  input `t` is still to be covered.  Either it stands at the
  beginning of a token, or at a byte that covers `m` copies
  of itself (a literal, or the second byte of a run).
-/
inductive Behind : List UInt8 → List UInt8 → Prop
| token {t y : List UInt8}
    (hCode : Coded t y) :
    Behind t y
| byte {m : Nat} {b : UInt8} {u y : List UInt8}
    (hPos : 0 < m)
    (hEnd : 127 ≤ m ∨ ¬ [b, b] <+: u)
    (hRest : Coded u y) :
    Behind (List.replicate m b ++ u) (b :: y)

/-
  The owed bytes `q` cannot be paid by one run: if all of
  them equal the next byte of `t`, they are 127 or more.
-/
def Ahead
    (q t : List UInt8) : Prop :=
  ∀ z, t.head? = some z → (∀ c ∈ q, c = z) → 127 ≤ q.length

/- A run written over owed bytes stays inside or covers them. -/
theorem replicate_append_eq
    {d : List UInt8}
    (hEqual : List.replicate k v ++ d = q ++ t) :
    (∃ q', q = List.replicate k v ++ q' ∧ d = q' ++ t) ∨
      (q.length < k ∧ (∀ c ∈ q, c = v) ∧
        List.replicate (k - q.length) v ++ d = t) := by
  rcases List.append_eq_append_iff.mp hEqual with
    ⟨q', hOwed, hRest⟩ | ⟨r, hRun, hRest⟩
  · exact Or.inl ⟨q', hOwed, hRest⟩
  · rcases List.replicate_eq_append_iff.mp hRun with
      ⟨hLength, hOwed, hLeft⟩
    cases r with
    | nil =>
        left
        refine ⟨[], ?_, by simpa using hRest.symm⟩
        simpa using hRun.symm
    | cons c r =>
        right
        refine ⟨?_, ?_, ?_⟩
        · rw [← hLength]
          simp
        · intro e he
          rw [hOwed] at he
          exact List.eq_of_mem_replicate he
        · rw [hRest, hLeft]
          congr 2
          omega

/- The code after a byte, when the byte eats one code byte. -/
theorem Coded.behind_tail
    (hCode : Coded u (v :: y)) :
    ∃ w t, u = w ++ t ∧ Behind t y ∧
      ((w = [v] ∧ ¬ [v, v] <+: t) ∨
        (w = [] ∧ ∃ n c u', 3 ≤ n ∧ n ≤ 127 ∧
          v = header n ∧
          t = List.replicate n c ++ u')) := by
  cases hCode with
  | run hLong hCap hEnd hRest =>
      rename_i n b u y
      refine ⟨[], _, rfl, .byte (by omega) ?_ hRest,
        Or.inr ⟨rfl, n, b, u, hLong, hCap, rfl, rfl⟩⟩
      rcases hEnd with hFull | hHead
      · exact Or.inl (by omega)
      · right
        rintro ⟨tail, rfl⟩
        exact hHead rfl
  | literal hShort hRest =>
      exact ⟨[v], _, rfl, .token hRest,
        Or.inl ⟨rfl, hShort⟩⟩

/-
  After a byte `b` that covers `m` of itself and a code byte
  that is eaten with it, the bytes owed are still ahead.
-/
theorem ahead_after_pair
    (hPos : 0 < m)
    (hEnd : 127 ≤ m ∨ ¬ [b, b] <+: u)
    (hCode : Coded u (v :: y)) :
    ∃ w t, u = w ++ t ∧ Behind t y ∧
      ∀ q, Ahead (q ++ List.replicate m b ++ w) t := by
  rcases hCode.behind_tail with ⟨w, t, rfl, hBehind, hWhich⟩
  refine ⟨w, t, rfl, hBehind, ?_⟩
  intro q z hHead hAll
  have hSame : b = z := by
    refine hAll b (List.mem_append_left _
      (List.mem_append_right _ ?_))
    exact List.mem_replicate.mpr ⟨by omega, rfl⟩
  subst hSame
  -- The next two bytes of the input are `b` as well.
  have hTwo : [b, b] <+: w ++ t := by
    rcases hWhich with ⟨rfl, _⟩ | ⟨rfl, n, c, u', hLong, _, _, rfl⟩
    · have hv : v = b := hAll v (by simp)
      rcases List.head?_eq_some_iff.mp hHead with ⟨tail, rfl⟩
      exact ⟨tail, by simp [hv]⟩
    · obtain ⟨n, rfl⟩ : ∃ i, n = i + 2 := ⟨n - 2, by omega⟩
      have hc : c = b := by
        simpa [List.replicate_succ] using hHead
      exact ⟨List.replicate n c ++ u', by
        simp [List.replicate_succ, hc]⟩
  rcases hEnd with hFull | hShort
  · simp
    omega
  · exact absurd hTwo hShort

------------------------------------------------------------
-- It Never Catches Up
------------------------------------------------------------

/- A marked byte that covers itself: the owed bytes grow. -/
theorem ahead_step_marked
    (hAhead : Ahead q (List.replicate m b ++ u))
    (hPos : 0 < m)
    (hEnd : 127 ≤ m ∨ ¬ [b, b] <+: u)
    (hCode : Coded u (v :: y))
    (hCap : k ≤ 127)
    {d : List UInt8}
    (hEqual :
      List.replicate k v ++ d =
        q ++ (List.replicate m b ++ u)) :
    ∃ q' t, q' ≠ [] ∧ Behind t y ∧ Ahead q' t ∧
      d = q' ++ t := by
  obtain ⟨m, rfl⟩ : ∃ i, m = i + 1 := ⟨m - 1, by omega⟩
  rcases replicate_append_eq hEqual with
    ⟨q', rfl, rfl⟩ | ⟨hLess, hAll, hRest⟩
  · rcases ahead_after_pair hPos hEnd hCode with
      ⟨w, t, rfl, hBehind, hNext⟩
    refine ⟨q' ++ List.replicate (m + 1) b ++ w, t, ?_,
      hBehind, hNext q', by simp⟩
    simp [List.replicate_succ]
  · -- The run would cover all of the owed bytes and `b` too.
    exfalso
    obtain ⟨i, hi⟩ : ∃ i, k - q.length = i + 1 :=
      ⟨k - q.length - 1, by omega⟩
    have hvb : v = b := by
      rw [hi, List.replicate_succ, List.replicate_succ,
        List.cons_append, List.cons_append] at hRest
      exact (List.cons.inj hRest).1
    have hMany := hAhead b (by simp [List.replicate_succ])
      (by simpa [hvb] using hAll)
    omega

/- A header at a token: the run it announces is owed next. -/
theorem ahead_step_run
    (hAhead : Ahead q (List.replicate n b ++ u))
    (hPos : 0 < n)
    (hCap : n ≤ 127)
    {d : List UInt8}
    (hEqual :
      List.replicate n b ++ d =
        q ++ (List.replicate n b ++ u)) :
    ∃ q', q' ≠ [] ∧ Ahead q' u ∧ d = q' ++ u := by
  obtain ⟨n, rfl⟩ : ∃ i, n = i + 1 := ⟨n - 1, by omega⟩
  rcases replicate_append_eq hEqual with
    ⟨q', rfl, rfl⟩ | ⟨hLess, hAll, _⟩
  · refine ⟨q' ++ List.replicate (n + 1) b, by simp, ?_,
      by simp⟩
    intro z _ hAll
    have hbz : b = z := hAll b (by simp [List.replicate_succ])
    have hMany := hAhead b (by simp [List.replicate_succ])
      fun c hc => by
        rw [hbz]
        refine hAll c ?_
        rwa [List.mem_append, or_comm, ← List.mem_append]
    simpa [Nat.add_comm] using hMany
  · have hMany := hAhead b (by simp [List.replicate_succ]) hAll
    omega

/- A plain byte pays one owed byte and adds what it covers. -/
theorem ahead_step_plain
    (hOwed : q ≠ [])
    (hAhead : Ahead q (List.replicate m b ++ u))
    (hPos : 0 < m)
    {d : List UInt8}
    (hEqual :
      b :: d = q ++ (List.replicate m b ++ u)) :
    ∃ q', q' ≠ [] ∧ Ahead q' u ∧ d = q' ++ u := by
  obtain ⟨m, rfl⟩ : ∃ i, m = i + 1 := ⟨m - 1, by omega⟩
  obtain ⟨c, q, rfl⟩ := List.exists_cons_of_ne_nil hOwed
  rw [List.cons_append] at hEqual
  rcases List.cons.inj hEqual with ⟨rfl, rfl⟩
  refine ⟨q ++ List.replicate (m + 1) b, by simp, ?_,
    by simp⟩
  intro z _ hAll
  have hbz : b = z := hAll b (by simp [List.replicate_succ])
  have hMany := hAhead b (by simp [List.replicate_succ])
    fun c hc => by
      rcases List.mem_cons.mp hc with rfl | hRest
      · rfl
      · rw [hbz]
        exact hAll c (List.mem_append_left _ hRest)
  simp only [List.length_cons] at hMany
  simp
  omega

/- What stands before a decoder that is behind. -/
theorem Behind.cases
    (hBehind : Behind t y) :
    y = [] ∨
      (∃ n b u y', 3 ≤ n ∧ n ≤ 127 ∧
        t = List.replicate n b ++ u ∧
        y = header n :: b :: y' ∧ Coded u y') ∨
      ∃ m b u y', 0 < m ∧ (127 ≤ m ∨ ¬ [b, b] <+: u) ∧
        t = List.replicate m b ++ u ∧ y = b :: y' ∧
        Coded u y' := by
  cases hBehind with
  | token hCode =>
      cases hCode with
      | stop t => exact Or.inl rfl
      | run hLong hCap hEnd hRest =>
          exact Or.inr (Or.inl
            ⟨_, _, _, _, hLong, hCap, rfl, rfl, hRest⟩)
      | literal hShort hRest =>
          exact Or.inr (Or.inr
            ⟨1, _, _, _, Nat.one_pos, Or.inr hShort, rfl, rfl,
              hRest⟩)
  | byte hPos hEnd hRest =>
      exact Or.inr (Or.inr
        ⟨_, _, _, _, hPos, hEnd, rfl, rfl, hRest⟩)

/- One decoder step keeps the owed bytes ahead. -/
theorem ahead_step
    (hBehind : Behind t y)
    (hOwed : q ≠ [])
    (hAhead : Ahead q t)
    (hDecode : swapDecompress y = some (q ++ t)) :
    ∃ q' t' y', y'.length < y.length ∧ Behind t' y' ∧
      q' ≠ [] ∧ Ahead q' t' ∧
      swapDecompress y' = some (q' ++ t') := by
  rcases hBehind.cases with
    rfl | ⟨n, b, u, y, hLong, hCap, rfl, rfl, hRest⟩ |
    ⟨m, b, u, y, hPos, hEnd, rfl, rfl, hRest⟩
  · simp [hOwed] at hDecode
  · rw [swapDecompress_marked (header_marked hCap),
      header_count hCap] at hDecode
    rcases Option.map_eq_some_iff.mp hDecode with
      ⟨d, hTail, hEqual⟩
    rcases ahead_step_run hAhead (by omega) hCap hEqual
      with ⟨q', hOwed', hAhead', rfl⟩
    have hLess : y.length < (header n :: b :: y).length := by
      simp only [List.length_cons]
      omega
    exact ⟨q', u, y, hLess, .token hRest, hOwed', hAhead',
      hTail⟩
  · by_cases hPlain : b &&& 0x80 = 0
    · rw [swapDecompress_plain hPlain] at hDecode
      rcases Option.map_eq_some_iff.mp hDecode with
        ⟨d, hTail, hEqual⟩
      rcases ahead_step_plain hOwed hAhead hPos hEqual with
        ⟨q', hOwed', hAhead', rfl⟩
      exact ⟨q', u, y, by simp, .token hRest, hOwed', hAhead',
        hTail⟩
    · cases y with
      | nil =>
          rw [swapDecompress_marked_last hPlain] at hDecode
          cases hDecode
      | cons v y =>
          rw [swapDecompress_marked hPlain] at hDecode
          rcases Option.map_eq_some_iff.mp hDecode with
            ⟨d, hTail, hEqual⟩
          rcases ahead_step_marked hAhead hPos hEnd hRest
              (count_le b) hEqual with
            ⟨q', t', hOwed', hBehind', hAhead', rfl⟩
          have hLess : y.length < (b :: v :: y).length := by
            simp only [List.length_cons]
            omega
          exact ⟨q', t', y, hLess, hBehind', hOwed', hAhead',
            hTail⟩

/- A decoder with owed bytes ahead of it never pays them. -/
theorem swapDecompress_ne_of_ahead
    (hBehind : Behind t y)
    (hOwed : q ≠ [])
    (hAhead : Ahead q t) :
    swapDecompress y ≠ some (q ++ t) := by
  induction hSize : y.length using Nat.strongRecOn
    generalizing q t y with
  | ind size ih =>
      intro hDecode
      rcases ahead_step hBehind hOwed hAhead hDecode with
        ⟨q', t', y', hLess, hBehind', hOwed', hAhead', hTail⟩
      exact ih y'.length (by omega) hBehind' hOwed' hAhead' rfl
        hTail

------------------------------------------------------------
-- Legible Pieces
------------------------------------------------------------

/- A piece that the decoder reads as the encoder wrote it. -/
def Legible
    (p : Piece UInt8) : Prop :=
  3 ≤ p.count ∨ p.value < 0x80 ∨
    (p.count = 2 ∧ p.value = 0x82)

instance
    (p : Piece UInt8) :
    Decidable (Legible p) :=
  inferInstanceAs (Decidable (_ ∨ _ ∨ _))

/- `0x82` twice announces itself two times. -/
theorem eq_pair_mark
    (hMarked : b &&& 0x80 ≠ 0)
    (hTwo : (b &&& 0x7F).toNat = 2) :
    b = 0x82 := by
  have hAll :
      ∀ n < 256, UInt8.ofNat n &&& 0x80 ≠ 0 →
        (UInt8.ofNat n &&& 0x7F).toNat = 2 →
          UInt8.ofNat n = 0x82 := by decide +kernel
  simpa using hAll b.toNat b.toNat_lt (by simpa using hMarked)
    (by simpa using hTwo)

theorem swapDecompress_plain_run
    (hPlain : b &&& 0x80 = 0)
    (n : Nat)
    (y : List UInt8) :
    swapDecompress (List.replicate n b ++ y) =
      (swapDecompress y).map fun d =>
        List.replicate n b ++ d := by
  induction n with
  | zero => simp
  | succ n ih =>
      rw [List.replicate_succ, List.cons_append,
        swapDecompress_plain hPlain, ih, Option.map_map]
      rfl

/- The code of a legible piece is decoded to the piece. -/
theorem swapDecompress_encodePiece
    {p : Piece UInt8}
    (hLegible : Legible p)
    (hCap : p.count ≤ 127)
    (y : List UInt8) :
    swapDecompress (encodePiece p ++ y) =
      (swapDecompress y).map fun d =>
        List.replicate p.count p.value ++ d := by
  unfold encodePiece
  split
  · rw [List.cons_append, List.cons_append, List.nil_append,
      swapDecompress_marked (header_marked hCap),
      header_count hCap]
  · next hShort =>
      rcases hLegible with hLong | hLow | ⟨hTwo, hPair⟩
      · exact absurd hLong hShort
      · exact swapDecompress_plain_run (plain_iff.mpr hLow) _ _
      · rw [hTwo, hPair]
        exact swapDecompress_marked (by decide)

theorem swapDecompress_encode
    {ps : List (Piece UInt8)}
    (hLegible : ∀ p ∈ ps, Legible p)
    (hCap : ∀ p ∈ ps, p.count ≤ 127) :
    swapDecompress (encode ps) = some (expand ps) := by
  induction ps with
  | nil => rfl
  | cons p ps ih =>
      rw [encode_cons,
        swapDecompress_encodePiece
          (hLegible p List.mem_cons_self)
          (hCap p List.mem_cons_self),
        ih (fun q hq =>
            hLegible q (List.mem_cons_of_mem _ hq))
          (fun q hq => hCap q (List.mem_cons_of_mem _ hq))]
      rfl

------------------------------------------------------------
-- The First Byte That Is Not Legible
------------------------------------------------------------

/-
  A marked literal is decoded right only as the pair `0x82`.
-/
theorem marked_literal_pair
    (hMarked : b &&& 0x80 ≠ 0)
    (hShort : ¬ [b, b] <+: u)
    (hCode : Coded u y)
    (hDecode : swapDecompress (b :: y) = some (b :: u)) :
    ∃ t y', b = 0x82 ∧ u = b :: t ∧ y = b :: y' ∧
      Coded t y' ∧ swapDecompress y' = some t := by
  cases y with
  | nil =>
      rw [swapDecompress_marked_last hMarked] at hDecode
      cases hDecode
  | cons v y =>
      rw [swapDecompress_marked hMarked] at hDecode
      rcases Option.map_eq_some_iff.mp hDecode with
        ⟨d, hTail, hEqual⟩
      rcases hCount : (b &&& 0x7F).toNat with _ | k
      · -- Nothing is written, and the next byte is lost.
        exfalso
        rcases ahead_after_pair Nat.one_pos (Or.inr hShort)
          hCode with ⟨w, t, rfl, hBehind, hAhead⟩
        rw [hCount] at hEqual
        have hOwed : d = (b :: w) ++ t := by
          simpa using hEqual
        rw [hOwed] at hTail
        exact swapDecompress_ne_of_ahead hBehind
          (List.cons_ne_nil b w) (hAhead []) hTail
      · rw [hCount, List.replicate_succ, List.cons_append]
          at hEqual
        rcases List.cons.inj hEqual with ⟨rfl, hRest⟩
        have hFew : k < 2 := by
          by_contra hMany
          obtain ⟨i, rfl⟩ : ∃ i, k = i + 2 := ⟨k - 2, by omega⟩
          exact hShort ⟨List.replicate i v ++ d, by
            simpa [List.replicate_succ] using hRest⟩
        cases hCode with
        | run hLong hCap _ _ =>
            rw [header_count hCap] at hCount
            omega
        | literal hNext hCode =>
            rename_i t
            have hk : k = 0 ∨ k = 1 := by omega
            rcases hk with rfl | rfl
            · -- One copy is written, the second one is owed.
              exfalso
              have hOwed : d = [v] ++ t := by simpa using hRest
              rw [hOwed] at hTail
              refine swapDecompress_ne_of_ahead (.token hCode)
                (List.cons_ne_nil v []) ?_ hTail
              intro z hHead hAll
              have hvz : v = z := hAll v List.mem_cons_self
              subst hvz
              rcases List.head?_eq_some_iff.mp hHead with
                ⟨tail, rfl⟩
              exact absurd ⟨tail, rfl⟩ hShort
            · have hPaid : d = t := by simpa using hRest
              subst hPaid
              exact ⟨d, y, eq_pair_mark hMarked hCount, rfl,
                rfl, hCode, hTail⟩

/- A code that decodes to its input is complete and legible. -/
theorem legible_of_decoded
    (hCode : Coded x y)
    (hDecode : swapDecompress y = some x) :
    (∀ p ∈ pieces 127 x, Legible p) ∧
      y = encode (pieces 127 x) := by
  induction hSize : x.length using Nat.strongRecOn
    generalizing x y with
  | ind size ih =>
    cases hCode with
    | stop x =>
        have hNil : x = [] := by simpa using hDecode.symm
        subst hNil
        simp
    | run hLong hCap hEnd hRest =>
        rw [swapDecompress_marked (header_marked hCap),
          header_count hCap] at hDecode
        rcases Option.map_eq_some_iff.mp hDecode with
          ⟨d, hTail, hEqual⟩
        have hPaid := List.append_cancel_left hEqual
        subst hPaid
        rcases ih d.length (by simp at hSize; omega) hRest hTail
          rfl with ⟨hLegible, hWhole⟩
        rw [encode_pieces_run hLong hCap hEnd, ← hWhole,
          pieces_run (by omega) hCap hEnd]
        refine ⟨?_, rfl⟩
        intro p hp
        rcases List.mem_cons.mp hp with rfl | hp
        · exact Or.inl hLong
        · exact hLegible p hp
    | literal hShort hRest =>
        rename_i b u y
        by_cases hPlain : b &&& 0x80 = 0
        · rw [swapDecompress_plain hPlain] at hDecode
          rcases Option.map_eq_some_iff.mp hDecode with
            ⟨d, hTail, hEqual⟩
          rcases List.cons.inj hEqual with ⟨_, rfl⟩
          rcases ih d.length (by simp at hSize; omega) hRest
            hTail rfl with ⟨hLegible, hWhole⟩
          refine ⟨?_, by
            rw [encode_pieces_literal hShort, ← hWhole]⟩
          have hLow : b < 0x80 := plain_iff.mp hPlain
          intro p hp
          rcases pieces_literal hShort with
            hOne | ⟨w, _, hOne, hTwo⟩
          · rw [hOne] at hp
            rcases List.mem_cons.mp hp with rfl | hp
            · exact Or.inr (Or.inl hLow)
            · exact hLegible p hp
          · rw [hTwo] at hp
            rcases List.mem_cons.mp hp with rfl | hp
            · exact Or.inr (Or.inl hLow)
            · refine hLegible p ?_
              rw [hOne]
              exact List.mem_cons_of_mem _ hp
        · rcases marked_literal_pair hPlain hShort hRest hDecode
            with ⟨t, y, rfl, rfl, rfl, hCode, hTail⟩
          rcases ih t.length (by simp at hSize; omega) hCode
            hTail rfl with ⟨hLegible, hWhole⟩
          have hNext : t.head? ≠ some 0x82 := by
            intro hSame
            rcases List.head?_eq_some_iff.mp hSame with
              ⟨tail, rfl⟩
            exact hShort ⟨tail, rfl⟩
          have hPair :
              pieces 127 (0x82 :: 0x82 :: t) =
                ⟨2, 0x82⟩ :: pieces 127 t :=
            pieces_run (n := 2) (by omega)
              (show 2 ≤ 127 by omega) (Or.inr hNext)
          rw [hPair, encode_cons, ← hWhole]
          refine ⟨?_, rfl⟩
          intro p hp
          rcases List.mem_cons.mp hp with rfl | hp
          · exact Or.inr (Or.inr ⟨rfl, rfl⟩)
          · exact hLegible p hp

------------------------------------------------------------
-- The Round Trip
------------------------------------------------------------

/- The runs make room for the encoder's last step. -/
def MakesRoom
    (ps : List (Piece UInt8)) : Prop :=
  (∃ p, ps.getLast? = some p ∧ 3 ≤ p.count) ∨ 2 ≤ saved ps

/- The encoder of a whole buffer ends if its runs make room. -/
theorem swapCompress_eq_encode_iff
    (hSome : x ≠ []) :
    swapCompress x = encode (pieces 127 x) ↔
      MakesRoom (pieces 127 x) := by
  have hLength := length_expand (pieces 127 x)
  rw [expand_pieces] at hLength
  have hPieces := pieces_ne_nil hSome
  rw [swapCompress, swapCompressFrom_eq_encode_iff _ _ hSome,
    hLength]
  obtain ⟨ps, p, hSplit⟩ :
      ∃ ps p, pieces 127 x = ps ++ [p] :=
    ⟨_, _, (List.dropLast_append_getLast hPieces).symm⟩
  rw [hSplit]
  simp only [MakesRoom, lastCost, saved, saved_append,
    List.getLast?_append, List.getLast?_singleton,
    Option.some_or, Option.some.injEq, exists_eq_left']
  split <;> omega

/-
  Decompressing what was compressed gives `x` exactly when
  `x` is empty, or all of its runs are legible and they make
  room for the encoder to reach the end.
-/
theorem swapDecompress_swapCompress_iff
    (x : List UInt8) :
    RoundTrips x ↔
      x = [] ∨
        ((∀ p ∈ pieces 127 x, Legible p) ∧
          MakesRoom (pieces 127 x)) := by
  by_cases hSome : x = []
  · subst hSome
    simp [RoundTrips, swapCompress, swapCompressFrom]
  simp only [hSome, false_or]
  rw [← swapCompress_eq_encode_iff hSome]
  constructor
  · intro hTrip
    exact legible_of_decoded
      (swapCompressFrom_coded x.length 0 x) hTrip
  · rintro ⟨hLegible, hWhole⟩
    unfold RoundTrips
    rw [hWhole, swapDecompress_encode hLegible
        (fun p hp => pieces_count_le (by omega) hp),
      expand_pieces]

/- Four different bytes: the encoder stops after two. -/
theorem not_roundTrips_distinct :
    ¬ RoundTrips [0x41, 0x42, 0x43, 0x44] := by
  decide +kernel

/- A literal `0x81` in front of a run is taken for a header. -/
example :
    ¬ RoundTrips [0x81, 0x41, 0x41, 0x41, 0x41] := by
  decide +kernel

end Swap

end AsmOS
