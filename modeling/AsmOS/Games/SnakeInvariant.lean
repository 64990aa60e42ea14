import Mathlib.Data.List.Infix
import Mathlib.Tactic.Ring
import AsmOS.Base.Alternating
import AsmOS.Games.Snake

/-
  The invariant of the snake game.

  The cells that the search for food tries have one colour
  of the checkerboard, 56 of them before any repeats.  The
  segments of the snake alternate in colour, so at most 32
  of them have that one, and the search always ends.

  Main declarations:
    * `Snake.body`, `InField`, `Neighbours`
    * `SnakeOk`
    * `foodSearch_found`, `snakePlaceFood_ok`
    * `snakeTick_ok`, `snakeRun_ok`
-/

------------------------------------------------------------
-- Cells
------------------------------------------------------------

namespace AsmOS

namespace Games

/- The cells inside the walls. -/
def InField
    (c : Int × Int) : Prop :=
  1 ≤ c.1 ∧ c.1 ≤ 14 ∧ 1 ≤ c.2 ∧ c.2 ≤ 8

instance
    (c : Int × Int) :
    Decidable (InField c) := by
  unfold InField
  infer_instance

/- Orthogonal neighbours. -/
def Neighbours
    (a b : Int × Int) : Prop :=
  (a.1 = b.1 ∧ (a.2 = b.2 + 1 ∨ b.2 = a.2 + 1)) ∨
    (a.2 = b.2 ∧ (a.1 = b.1 + 1 ∨ b.1 = a.1 + 1))

instance
    (a b : Int × Int) :
    Decidable (Neighbours a b) := by
  unfold Neighbours
  infer_instance

/- The colour of a cell on the checkerboard. -/
def evenCell
    (c : Int × Int) : Bool :=
  (c.1 + c.2) % 2 = 0

theorem Neighbours.colour_ne
    {a b : Int × Int}
    (hNear : Neighbours a b) :
    evenCell a ≠ evenCell b := by
  have hParity :
      (a.1 + a.2) % 2 ≠ (b.1 + b.2) % 2 := by
    unfold Neighbours at hNear
    omega
  intro hSame
  unfold evenCell at hSame
  rw [decide_eq_decide] at hSame
  omega

/- The segments of the snake, head first. -/
def Snake.body
    (s : Snake) : List (Int × Int) :=
  (List.range s.snakeLen).map fun i =>
    (s.snakeSegX i, s.snakeSegY i)

@[simp] theorem Snake.body_length
    (s : Snake) :
    s.body.length = s.snakeLen := by
  simp [Snake.body]

theorem onSnake_iff
    (s : Snake)
    (x y : Int) :
    onSnake s x y = true ↔ (x, y) ∈ s.body := by
  simp [onSnake, Snake.body]

/- A snake of the right size inside the walls. -/
structure BodyOk
    (body : List (Int × Int)) : Prop where
  lo : 3 ≤ body.length
  hi : body.length ≤ 63
  field : ∀ c ∈ body, InField c
  nodup : body.Nodup
  linked : body.IsChain Neighbours

/- The invariant. -/
structure SnakeOk
    (s : Snake) : Prop where
  body : BodyOk s.body
  food : InField (s.snakeFoodX, s.snakeFoodY)
  free : (s.snakeFoodX, s.snakeFoodY) ∉ s.body

------------------------------------------------------------
-- Food
------------------------------------------------------------

/- No product of the search overflows. -/
def ScoreFits
    (score : Int32) : Prop :=
  0 ≤ score.toInt ∧ 11 * score.toInt + 597 < 2 ^ 31

instance
    (score : Int32) :
    Decidable (ScoreFits score) := by
  unfold ScoreFits
  infer_instance

section Fits

variable {a b : Int32}
variable {x y : Int}

/- A product that fits is not wrapped. -/
theorem toInt_mul_of_fits
    (hLeft : a.toInt = x)
    (hRight : b.toInt = y)
    (hLo : 0 ≤ x * y)
    (hHi : x * y < 2 ^ 31) :
    (a * b).toInt = x * y := by
  rw [Int32.toInt_mul, hLeft, hRight]
  exact Int.bmod_eq_of_le (by omega) (by omega)

theorem toInt_add_of_fits
    (hLeft : a.toInt = x)
    (hRight : b.toInt = y)
    (hLo : 0 ≤ x + y)
    (hHi : x + y < 2 ^ 31) :
    (a + b).toInt = x + y := by
  rw [Int32.toInt_add, hLeft, hRight]
  exact Int.bmod_eq_of_le (by omega) (by omega)

end Fits

/- The cell of a try when nothing overflows. -/
theorem foodCell_eq
    {score : Int32}
    (hScore : ScoreFits score)
    {n : Nat}
    (hn : n < 200) :
    foodCell score (Int32.ofNat n) =
      (1 + (score.toInt * 7 + n) % 14,
        1 + (score.toInt * 11 + n * 3) % 8) := by
  have hTry : (Int32.ofNat n).toInt = n :=
    Int32.toInt_ofNat_of_lt (by omega)
  have hSeven : (7 : Int32).toInt = 7 := by decide
  have hEleven : (11 : Int32).toInt = 11 := by decide
  have hThree : (3 : Int32).toInt = 3 := by decide
  rcases hScore with ⟨hLo, hHi⟩
  have hColumn : (score * 7).toInt = score.toInt * 7 :=
    toInt_mul_of_fits rfl hSeven (by omega) (by omega)
  have hRow : (score * 11).toInt = score.toInt * 11 :=
    toInt_mul_of_fits rfl hEleven (by omega) (by omega)
  have hStep : (Int32.ofNat n * 3).toInt = n * 3 :=
    toInt_mul_of_fits hTry hThree (by omega) (by omega)
  have hX :
      (score * 7 + Int32.ofNat n).toInt =
        score.toInt * 7 + n :=
    toInt_add_of_fits hColumn hTry (by omega) (by omega)
  have hY :
      (score * 11 + Int32.ofNat n * 3).toInt =
        score.toInt * 11 + n * 3 :=
    toInt_add_of_fits hRow hStep (by omega) (by omega)
  rw [foodCell, Int32.toInt_mod, Int32.toInt_mod, hX, hY,
    show (14 : Int32).toInt = 14 by decide,
    show (8 : Int32).toInt = 8 by decide,
    Int.tmod_eq_emod_of_nonneg (by omega),
    Int.tmod_eq_emod_of_nonneg (by omega)]

/- Every try is a cell of the field of one colour. -/
theorem foodCell_field
    {score : Int32}
    (hScore : ScoreFits score)
    {n : Nat}
    (hn : n < 200) :
    InField (foodCell score (Int32.ofNat n)) ∧
      evenCell (foodCell score (Int32.ofNat n)) = true := by
  rw [foodCell_eq hScore hn]
  simp only [InField, evenCell, decide_eq_true_eq]
  omega

/- The first 56 tries are different cells. -/
theorem foodCell_injective
    {score : Int32}
    (hScore : ScoreFits score)
    {n k : Nat}
    (hn : n < 56)
    (hk : k < 56)
    (hSame :
      foodCell score (Int32.ofNat n) =
        foodCell score (Int32.ofNat k)) :
    n = k := by
  rw [foodCell_eq hScore (by omega),
    foodCell_eq hScore (by omega), Prod.mk.injEq] at hSame
  omega

section Search

variable {s : Snake}

/- One of the first 56 tries is off the snake. -/
theorem exists_free_try
    (hScore : ScoreFits s.snakeScore)
    (hBody : BodyOk s.body) :
    ∃ n < 56,
      foodCell s.snakeScore (Int32.ofNat n) ∉ s.body := by
  have hColours : Alternating evenCell s.body :=
    hBody.linked.imp fun _ _ hNear => hNear.colour_ne
  refine hColours.exists_not_mem ?_ ?_ ?_
  · intro n hn
    exact (foodCell_field hScore (by omega)).2
  · intro n hn k hk hSame
    exact foodCell_injective hScore hn hk hSame
  · have hLength := hBody.hi
    omega

/- A try off the snake, and one on it. -/
theorem foodTry_free
    {n : Nat}
    (hFree : foodCell s.snakeScore (Int32.ofNat n) ∉ s.body) :
    foodTry s n = foodCell s.snakeScore (Int32.ofNat n) := by
  have hOff :
      ¬ onSnake s (foodCell s.snakeScore (Int32.ofNat n)).1
        (foodCell s.snakeScore (Int32.ofNat n)).2 = true := by
    rw [onSnake_iff]
    exact hFree
  simp only [foodTry]
  rw [if_neg hOff]

theorem foodTry_taken
    {n : Nat}
    (hTaken : foodCell s.snakeScore (Int32.ofNat n) ∈ s.body) :
    (foodTry s n).1 = -1 := by
  have hOn :
      onSnake s (foodCell s.snakeScore (Int32.ofNat n)).1
        (foodCell s.snakeScore (Int32.ofNat n)).2 = true := by
    rw [onSnake_iff]
    exact hTaken
  simp only [foodTry]
  rw [if_pos hOn]

/- The search ends at a free cell when there is one. -/
theorem foodSearch_found
    (hScore : ScoreFits s.snakeScore)
    {left n k : Nat}
    (hFree : foodCell s.snakeScore (Int32.ofNat k) ∉ s.body)
    (hLo : n ≤ k)
    (hHi : k ≤ n + left)
    (hTries : n + left < 200) :
    InField (foodSearch s left n) ∧
      foodSearch s left n ∉ s.body := by
  induction left generalizing n with
  | zero =>
      have hSame : n = k := by omega
      subst hSame
      rw [foodSearch, foodTry_free hFree]
      exact ⟨(foodCell_field hScore (by omega)).1, hFree⟩
  | succ left ih =>
      by_cases hTaken :
          foodCell s.snakeScore (Int32.ofNat n) ∈ s.body
      · have hMinus := foodTry_taken hTaken
        have hNe : n ≠ k := by
          rintro rfl
          exact hFree hTaken
        rw [foodSearch, if_pos (by omega)]
        exact ih (by omega) (by omega) (by omega)
      · have hField :=
          (foodCell_field hScore (show n < 200 by omega)).1
        have hTry := foodTry_free hTaken
        rw [foodSearch, hTry, if_neg (by
          have hColumn := hField.1
          omega)]
        exact ⟨hField, hTaken⟩

/- Food is always placed off the snake. -/
theorem snakePlaceFood_ok
    (hScore : ScoreFits s.snakeScore)
    (hBody : BodyOk s.body) :
    SnakeOk (snakePlaceFood s) := by
  rcases exists_free_try hScore hBody with ⟨k, hk, hFree⟩
  have hFound : InField (foodSearch s 199 0) ∧
      foodSearch s 199 0 ∉ s.body :=
    foodSearch_found hScore hFree (Nat.zero_le k) (by omega)
      (by omega)
  have hCell :
      (if (foodSearch s 199 0).1 ≤ 0 then (1, 1)
        else foodSearch s 199 0) = foodSearch s 199 0 := by
    rw [if_neg (by
      have hColumn := hFound.1.1
      omega)]
  refine ⟨hBody, ?_, ?_⟩
  · simp only [snakePlaceFood, hCell]
    exact hFound.1
  · simp only [snakePlaceFood, hCell]
    exact hFound.2

end Search

------------------------------------------------------------
-- Moves
------------------------------------------------------------

/- The loop moves every segment up by one. -/
theorem shiftSegments_eq
    (seg : Nat → Int)
    (len j : Nat) :
    shiftSegments seg len j =
      if 1 ≤ j ∧ j ≤ len then seg (j - 1) else seg j := by
  induction len generalizing seg with
  | zero => rw [shiftSegments, if_neg (by omega)]
  | succ len ih =>
      rw [shiftSegments, ih]
      by_cases hLast : j = len + 1
      · rw [if_neg (by omega), if_pos hLast, if_pos (by omega),
          show j - 1 = len by omega]
      · by_cases hIn : 1 ≤ j ∧ j ≤ len
        · rw [if_pos hIn, if_neg (by omega), if_pos (by omega)]
        · rw [if_neg hIn, if_neg hLast, if_neg (by omega)]

section Moves

variable {s : Snake}

/- The first segments after a move: the head, then the old. -/
theorem snakeMove_segments
    (hx hy : Int)
    {k : Nat}
    (hk : k ≤ s.snakeLen) :
    ((List.range (k + 1)).map fun i =>
        ((snakeMove s hx hy).snakeSegX i,
          (snakeMove s hx hy).snakeSegY i)) =
      (hx, hy) :: s.body.take k := by
  have hTake :
      s.body.take k =
        (List.range k).map fun i =>
          (s.snakeSegX i, s.snakeSegY i) := by
    rw [Snake.body, ← List.map_take, List.take_range,
      min_eq_left hk]
  rw [hTake, List.range_succ_eq_map, List.map_cons,
    List.map_map]
  refine congrArg₂ List.cons rfl ?_
  apply List.map_congr_left
  intro i hi
  rw [List.mem_range] at hi
  have hIn : 1 ≤ i.succ ∧ i.succ ≤ s.snakeLen := by omega
  have hTail : ¬ i.succ = 0 := Nat.succ_ne_zero i
  simp only [Function.comp_apply, snakeMove,
    shiftSegments_eq, if_neg hTail, if_pos hIn,
    Nat.succ_sub_one]

/- The body after a move: the tail is left behind. -/
theorem snakeMove_body
    (hx hy : Int)
    (hSome : 1 ≤ s.snakeLen) :
    (snakeMove s hx hy).body =
      (hx, hy) :: s.body.take (s.snakeLen - 1) := by
  have hLen :
      (snakeMove s hx hy).snakeLen = (s.snakeLen - 1) + 1 := by
    show s.snakeLen = _
    omega
  rw [← snakeMove_segments hx hy (by omega), Snake.body, hLen]

/- A snake that grows keeps it, unless the arrays are full. -/
theorem snakeGrow_body
    (hx hy : Int)
    (hSome : 1 ≤ s.snakeLen)
    (hFull : s.snakeLen ≤ 63) :
    (snakeGrow (snakeMove s hx hy)).body =
      (hx, hy) :: s.body.take (min s.snakeLen 62) := by
  have hLen :
      (snakeGrow (snakeMove s hx hy)).snakeLen =
        min s.snakeLen 62 + 1 := by
    have hEqual :
        (snakeGrow (snakeMove s hx hy)).snakeLen =
          if s.snakeLen < 63 then s.snakeLen + 1
          else s.snakeLen :=
      rfl
    rw [hEqual]
    split
    · omega
    · omega
  rw [← snakeMove_segments hx hy (by omega), Snake.body, hLen]
  rfl

/- A snake with a new head next to it, cut to a length. -/
theorem BodyOk.move
    {body : List (Int × Int)}
    (hBody : BodyOk body)
    {head : Int × Int}
    (hField : InField head)
    (hFree : head ∉ body)
    (hNear : ∀ c ∈ body.head?, Neighbours head c)
    {k : Nat}
    (hLo : 2 ≤ k)
    (hHi : k ≤ 62)
    (hk : k ≤ body.length) :
    BodyOk (head :: body.take k) where
  lo := by
    rw [List.length_cons, List.length_take]
    omega
  hi := by
    rw [List.length_cons, List.length_take]
    omega
  field := by
    intro c hMember
    rcases List.mem_cons.mp hMember with rfl | hOld
    · exact hField
    · exact hBody.field c (List.mem_of_mem_take hOld)
  nodup := by
    refine List.nodup_cons.mpr ⟨?_, ?_⟩
    · intro hOld
      exact hFree (List.mem_of_mem_take hOld)
    · exact hBody.nodup.sublist (List.take_sublist k body)
  linked := by
    refine List.isChain_cons.mpr
      ⟨?_, hBody.linked.take k⟩
    intro c hFirst
    apply hNear
    cases hCases : body with
    | nil =>
        rw [hCases] at hFirst
        simp at hFirst
    | cons b bs =>
        rw [hCases] at hFirst
        cases k with
        | zero => omega
        | succ k => exact hFirst

/- The direction is not part of the invariant. -/
theorem SnakeOk.turn
    (hOk : SnakeOk s) :
    SnakeOk (snakeTurn s) := by
  unfold snakeTurn
  dsimp only
  split
  · exact ⟨hOk.body, hOk.food, hOk.free⟩
  · exact hOk

/- Every direction leads to a neighbour. -/
theorem neighbours_ahead
    (x y : Int)
    (dir : Fin 4) :
    Neighbours (x + snakeDx dir, y + snakeDy dir) (x, y) := by
  have hCases :
      (snakeDx dir = 0 ∧ (snakeDy dir = 1 ∨ snakeDy dir = -1)) ∨
        (snakeDy dir = 0 ∧
          (snakeDx dir = 1 ∨ snakeDx dir = -1)) := by
    revert dir
    decide
  unfold Neighbours
  dsimp only
  omega

/- The head after a tick that goes on. -/
theorem SnakeOk.moved
    (hOk : SnakeOk s)
    {k : Nat}
    (hLo : 2 ≤ k)
    (hHi : k ≤ 62)
    (hk : k ≤ s.snakeLen)
    {hx hy : Int}
    (hHx : hx = s.snakeSegX 0 + snakeDx s.snakeDir)
    (hHy : hy = s.snakeSegY 0 + snakeDy s.snakeDir)
    (hField : InField (hx, hy))
    (hFree : (hx, hy) ∉ s.body) :
    BodyOk ((hx, hy) :: s.body.take k) := by
  refine hOk.body.move hField hFree ?_ hLo hHi
    (by rw [Snake.body_length]; exact hk)
  intro c hFirst
  have hHead :
      s.body.head? = some (s.snakeSegX 0, s.snakeSegY 0) := by
    unfold Snake.body
    rw [List.head?_map, List.head?_range, if_neg (by omega)]
    rfl
  rw [hHead] at hFirst
  cases hFirst
  rw [hHx, hHy]
  exact neighbours_ahead _ _ _

/- A tick keeps the invariant while the game goes on. -/
theorem snakeTick_ok
    (hOk : SnakeOk s)
    (hScore : ScoreFits (snakeTick s).snakeScore)
    (hGoes : (snakeTick s).snakeGameOver = false) :
    SnakeOk (snakeTick s) := by
  have hTurn := hOk.turn
  unfold snakeTick at hScore hGoes ⊢
  generalize snakeTurn s = t at hTurn hScore hGoes ⊢
  dsimp only at hScore hGoes ⊢
  generalize hHx : t.snakeSegX 0 + snakeDx t.snakeDir = hx
    at hScore hGoes ⊢
  generalize hHy : t.snakeSegY 0 + snakeDy t.snakeDir = hy
    at hScore hGoes ⊢
  by_cases hWall :
      hx ≤ 0 ∨ hx ≥ snakeGridW - 1 ∨ hy ≤ 0 ∨
        hy ≥ snakeGridH - 1
  · rw [if_pos hWall] at hGoes
    cases hGoes
  · by_cases hOn : onSnake t hx hy = true
    · rw [if_neg hWall, if_pos hOn] at hGoes
      cases hGoes
    · rw [if_neg hWall, if_neg hOn] at hScore ⊢
      have hFree : (hx, hy) ∉ t.body := by
        rw [← onSnake_iff]
        exact hOn
      have hField : InField (hx, hy) := by
        unfold InField
        simp only [snakeGridW, snakeGridH] at hWall
        dsimp only
        omega
      have hLength := hTurn.body.lo
      have hBound := hTurn.body.hi
      rw [Snake.body_length] at hLength hBound
      have hMoved :
          ∀ k, 2 ≤ k → k ≤ 62 → k ≤ t.snakeLen →
            BodyOk ((hx, hy) :: t.body.take k) :=
        fun k hLo hHi hk =>
          hTurn.moved hLo hHi hk hHx.symm hHy.symm hField hFree
      by_cases hEats :
          hx = (snakeMove t hx hy).snakeFoodX ∧
            hy = (snakeMove t hx hy).snakeFoodY
      · rw [if_pos hEats] at hScore ⊢
        refine snakePlaceFood_ok hScore ?_
        rw [snakeGrow_body hx hy (by omega) hBound]
        exact hMoved _ (by omega) (by omega) (by omega)
      · rw [if_neg hEats]
        have hBody := snakeMove_body (s := t) hx hy (by omega)
        refine ⟨?_, hTurn.food, ?_⟩
        · rw [hBody]
          exact hMoved _ (by omega) (by omega) (by omega)
        · rw [hBody]
          intro hMember
          rcases List.mem_cons.mp hMember with hHead | hOld
          · exact hEats
              ⟨(congrArg Prod.fst hHead).symm,
                (congrArg Prod.snd hHead).symm⟩
          · exact hTurn.free (List.mem_of_mem_take hOld)

/- Keys only choose the next direction. -/
theorem snakeKey_eq
    (sc : UInt8) :
    ∃ dir, snakeKey s sc = { s with snakeNextDir := dir } := by
  unfold snakeKey
  split_ifs
  · exact ⟨s.snakeNextDir, rfl⟩
  · exact ⟨_, rfl⟩
  · exact ⟨_, rfl⟩
  · exact ⟨_, rfl⟩
  · exact ⟨_, rfl⟩
  · exact ⟨s.snakeNextDir, rfl⟩

/- A game that is over stays over. -/
theorem snakeTick_over
    (hOver : s.snakeGameOver = true) :
    (snakeTick s).snakeGameOver = true := by
  have hTurn : (snakeTurn s).snakeGameOver = true := by
    unfold snakeTurn
    dsimp only
    split
    · exact hOver
    · exact hOver
  unfold snakeTick
  dsimp only
  split_ifs
  · rfl
  · rfl
  · exact hTurn
  · exact hTurn

/- One event. -/
theorem snakeStep_ok
    (hOk : s.snakeGameOver = false → SnakeOk s)
    (event : SnakeEvent)
    (hScore : ScoreFits (snakeStep s event).snakeScore)
    (hGoes : (snakeStep s event).snakeGameOver = false) :
    SnakeOk (snakeStep s event) := by
  cases event with
  | key sc =>
      rcases snakeKey_eq (s := s) sc with ⟨dir, hKey⟩
      simp only [snakeStep, hKey] at hGoes ⊢
      have hOld := hOk hGoes
      exact ⟨hOld.body, hOld.food, hOld.free⟩
  | tick =>
      refine snakeTick_ok (hOk ?_) hScore hGoes
      cases hOver : s.snakeGameOver with
      | false => rfl
      | true =>
          rw [snakeStep, snakeTick_over hOver] at hGoes
          cases hGoes

end Moves

------------------------------------------------------------
-- Whole Games
------------------------------------------------------------

/- The snake of a new game, before its food. -/
theorem bodyOk_start :
    BodyOk [((8 : Int), (5 : Int)), (7, 5), (6, 5)] where
  lo := by decide
  hi := by decide
  field := by decide
  nodup := by decide
  linked := by decide

theorem snakeInit_ok
    (s : Snake) :
    SnakeOk (snakeInit s) := by
  have hScore : ScoreFits 0 := by decide
  exact snakePlaceFood_ok hScore bodyOk_start

/-
  Every state of a game whose scores fit is over or keeps
  the invariant.
-/
theorem snakeRun_ok
    (s : Snake)
    (events : List SnakeEvent)
    (hScores :
      ∀ before, before <+: events →
        ScoreFits (snakeRun s before).snakeScore)
    (hGoes : (snakeRun s events).snakeGameOver = false) :
    SnakeOk (snakeRun s events) := by
  revert hGoes
  induction events using List.reverseRecOn with
  | nil =>
      intro _
      exact snakeInit_ok s
  | append_singleton events event ih =>
      have hOk :=
        ih fun before hBefore =>
          hScores before
            (hBefore.trans (List.prefix_append _ _))
      have hScore := hScores _ List.prefix_rfl
      rw [snakeRun, List.foldl_append] at hScore ⊢
      exact snakeStep_ok hOk event hScore

/- The statics of the game before its first round. -/
def zeroSnake : Snake where
  snakeSegX := fun _ => 0
  snakeSegY := fun _ => 0
  snakeLen := 0
  snakeDir := snakeUp
  snakeNextDir := snakeUp
  snakeFoodX := 0
  snakeFoodY := 0
  snakeGameOver := false
  snakeScore := 0

/- A move right, then a turn up. -/
theorem snakeRun_ok_turn :
    SnakeOk (snakeRun zeroSnake [.tick, .key 0x48, .tick]) := by
  refine snakeRun_ok zeroSnake _ ?_ (by decide +kernel)
  intro before hBefore
  have hAll :
      ∀ events ∈
          ([.tick, .key 0x48, .tick] : List SnakeEvent).inits,
        ScoreFits (snakeRun zeroSnake events).snakeScore := by
    decide +kernel
  exact hAll before ((List.mem_inits _ _).mpr hBefore)

end Games

end AsmOS
