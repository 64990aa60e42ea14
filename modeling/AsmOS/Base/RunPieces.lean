import Mathlib.Data.List.Basic

/-
  Cutting a list into runs of equal elements.

  A run longer than the cap is cut into pieces of the cap and
  one shorter rest.

  Main declarations:
    * `RunPieces.pieces`
    * `RunPieces.expand_pieces`
    * `RunPieces.pieces_run`
    * `RunPieces.leadRun`
    * `RunPieces.leadRun_split`
-/

------------------------------------------------------------
-- Pieces
------------------------------------------------------------

namespace RunPieces

/- `count` copies of one value. -/
structure Piece
    (α : Type) where
  count : Nat
  value : α
deriving DecidableEq, Repr

variable {α : Type}

/- The list that a sequence of pieces stands for. -/
def expand
    (ps : List (Piece α)) : List α :=
  ps.flatMap fun p => List.replicate p.count p.value

variable [DecidableEq α]

/- The pieces after `count` copies of `b` were just read. -/
def piecesFrom
    (cap : Nat)
    (b : α) :
    Nat → List α → List (Piece α)
| count, [] => [⟨count, b⟩]
| count, c :: l =>
    if c = b ∧ count < cap then piecesFrom cap b (count + 1) l
    else ⟨count, b⟩ :: piecesFrom cap c 1 l

/- The runs of a list, cut at `cap`. -/
def pieces
    (cap : Nat) :
    List α → List (Piece α)
| [] => []
| b :: l => piecesFrom cap b 1 l

variable {cap count n : Nat} {b : α} {l : List α}

omit [DecidableEq α] in
@[simp] theorem expand_nil :
    expand ([] : List (Piece α)) = [] :=
  rfl

omit [DecidableEq α] in
@[simp] theorem expand_cons
    (p : Piece α)
    (ps : List (Piece α)) :
    expand (p :: ps) =
      List.replicate p.count p.value ++ expand ps :=
  rfl

@[simp] theorem pieces_nil :
    pieces cap ([] : List α) = [] :=
  rfl

theorem expand_piecesFrom
    (b : α)
    (count : Nat)
    (l : List α) :
    expand (piecesFrom cap b count l) =
      List.replicate count b ++ l := by
  induction l generalizing b count with
  | nil => simp [piecesFrom]
  | cons c l ih =>
      unfold piecesFrom
      split
      · next hSame =>
          rw [ih, hSame.1, List.replicate_succ']
          simp
      · rw [expand_cons, ih]
        simp

/- The pieces of a list put together are the list. -/
theorem expand_pieces
    (cap : Nat)
    (l : List α) :
    expand (pieces cap l) = l := by
  cases l with
  | nil => rfl
  | cons b l => exact expand_piecesFrom b 1 l

/- A piece ends at the cap or where the value changes. -/
theorem piecesFrom_end
    (hEnd : count = cap ∨ l.head? ≠ some b) :
    piecesFrom cap b count l = ⟨count, b⟩ :: pieces cap l := by
  cases l with
  | nil => rfl
  | cons c l =>
      have hStop : ¬ (c = b ∧ count < cap) := by
        rintro ⟨rfl, hRoom⟩
        rcases hEnd with rfl | hHead
        · omega
        · exact hHead rfl
      simp [piecesFrom, pieces, hStop]

theorem piecesFrom_run
    (n : Nat)
    (hCap : count + n ≤ cap)
    (hEnd : count + n = cap ∨ l.head? ≠ some b) :
    piecesFrom cap b count (List.replicate n b ++ l) =
      ⟨count + n, b⟩ :: pieces cap l := by
  induction n generalizing count with
  | zero => exact piecesFrom_end hEnd
  | succ n ih =>
      have hGoOn : b = b ∧ count < cap := ⟨rfl, by omega⟩
      rw [List.replicate_succ, List.cons_append, piecesFrom,
        if_pos hGoOn, ih (by omega) (by
          rcases hEnd with hFull | hHead
          · exact Or.inl (by omega)
          · exact Or.inr hHead)]
      rw [show count + 1 + n = count + (n + 1) by omega]

/- A whole leading run is the first piece. -/
theorem pieces_run
    (hPos : 0 < n)
    (hCap : n ≤ cap)
    (hEnd : n = cap ∨ l.head? ≠ some b) :
    pieces cap (List.replicate n b ++ l) =
      ⟨n, b⟩ :: pieces cap l := by
  obtain ⟨n, rfl⟩ : ∃ m, n = m + 1 := ⟨n - 1, by omega⟩
  rw [List.replicate_succ, List.cons_append, pieces,
    piecesFrom_run n (by omega) (by
      rcases hEnd with hFull | hHead
      · exact Or.inl (by omega)
      · exact Or.inr hHead)]
  rw [show 1 + n = n + 1 by omega]

/- A list that starts with another value than `b`. -/
theorem pieces_cons_of_ne
    (hCap : 1 ≤ cap)
    (hHead : l.head? ≠ some b) :
    pieces cap (b :: l) = ⟨1, b⟩ :: pieces cap l := by
  simpa using
    pieces_run (n := 1) Nat.one_pos hCap (Or.inr hHead)

theorem piecesFrom_count_pos
    {p : Piece α}
    (hPos : 0 < count)
    (hMember : p ∈ piecesFrom cap b count l) :
    0 < p.count := by
  induction l generalizing b count with
  | nil =>
      rw [List.mem_singleton.mp hMember]
      exact hPos
  | cons c l ih =>
      unfold piecesFrom at hMember
      split at hMember
      · exact ih (by omega) hMember
      · rcases List.mem_cons.mp hMember with rfl | hRest
        · exact hPos
        · exact ih Nat.one_pos hRest

/- No piece is empty. -/
theorem pieces_count_pos
    {p : Piece α}
    (hMember : p ∈ pieces cap l) :
    0 < p.count := by
  cases l with
  | nil => simp at hMember
  | cons b l => exact piecesFrom_count_pos Nat.one_pos hMember

theorem piecesFrom_count_le
    {p : Piece α}
    (hCap : count ≤ cap)
    (hOne : 1 ≤ cap)
    (hMember : p ∈ piecesFrom cap b count l) :
    p.count ≤ cap := by
  induction l generalizing b count with
  | nil =>
      rw [List.mem_singleton.mp hMember]
      exact hCap
  | cons c l ih =>
      unfold piecesFrom at hMember
      split at hMember
      · exact ih (by omega) hMember
      · rcases List.mem_cons.mp hMember with rfl | hRest
        · exact hCap
        · exact ih hOne hRest

/- No piece is longer than the cap. -/
theorem pieces_count_le
    {p : Piece α}
    (hOne : 1 ≤ cap)
    (hMember : p ∈ pieces cap l) :
    p.count ≤ cap := by
  cases l with
  | nil => simp at hMember
  | cons b l => exact piecesFrom_count_le hOne hOne hMember

------------------------------------------------------------
-- The Leading Run
------------------------------------------------------------

/-
  How many copies of `b` lead, when `count` copies are behind
  and the count stops at `cap`.
-/
def leadRun
    (cap : Nat)
    (b : α) :
    Nat → List α → Nat
| count, [] => count
| count, c :: l =>
    if c = b ∧ count < cap then leadRun cap b (count + 1) l
    else count

theorem leadRun_bounds
    (b : α)
    (count : Nat)
    (l : List α)
    (hCap : count ≤ cap) :
    count ≤ leadRun cap b count l ∧
      leadRun cap b count l ≤ cap ∧
      leadRun cap b count l ≤ count + l.length := by
  induction l generalizing count with
  | nil => simp [leadRun, hCap]
  | cons c l ih =>
      unfold leadRun
      split
      · have hRest := ih (count + 1) (by omega)
        simp only [List.length_cons]
        omega
      · simp only [List.length_cons]
        omega

/- The rest of the list begins behind the leading run. -/
theorem leadRun_split
    (b : α)
    (count : Nat)
    (l : List α)
    (hCap : count ≤ cap) :
    List.replicate count b ++ l =
        List.replicate (leadRun cap b count l) b ++
          l.drop (leadRun cap b count l - count) ∧
      (leadRun cap b count l = cap ∨
        (l.drop (leadRun cap b count l - count)).head? ≠
          some b) := by
  induction l generalizing count with
  | nil => simp [leadRun]
  | cons c l ih =>
      unfold leadRun
      split
      · next hSame =>
          rcases hSame with ⟨rfl, hRoom⟩
          have hBounds :=
            leadRun_bounds c (count + 1) l hRoom
          rcases ih (count + 1) (by omega) with
            ⟨hSplit, hEnd⟩
          have hDrop :
              (c :: l).drop
                  (leadRun cap c (count + 1) l - count) =
                l.drop
                  (leadRun cap c (count + 1) l -
                    (count + 1)) := by
            rw [show leadRun cap c (count + 1) l - count =
                leadRun cap c (count + 1) l - (count + 1) + 1
              by omega]
            rfl
          rw [hDrop, ← hSplit, List.replicate_succ']
          exact ⟨by simp, hEnd⟩
      · next hStop =>
          refine ⟨by simp, ?_⟩
          by_cases hSame : c = b
          · left
            by_contra hShort
            exact hStop ⟨hSame, by omega⟩
          · right
            simpa using hSame

end RunPieces
