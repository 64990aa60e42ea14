import Mathlib.Algebra.GroupWithZero.Nat
import Mathlib.Data.List.Chain
import Mathlib.Data.List.Pairwise

/-
  Regions tiled by blocks behind headers.

  A block is a header followed by a payload whose size is a
  positive multiple of a unit.  Blocks follow each other
  without gaps, so a list of them and the address of the
  first fix the place of every payload.

  Main declarations:
    * `BlockTiling.Geometry`, `BlockTiling.Block`
    * `BlockTiling.extent`, `starts`, `busy`
    * `BlockTiling.busy_pairwise`
    * `BlockTiling.busy_apart_start`
    * `BlockTiling.taken`, `sum_busy`
    * `BlockTiling.Block.cut`, `splitRest`
    * `BlockTiling.coalesceFrom`, `busy_coalesceFrom`
    * `BlockTiling.Coalesced`, `coalesceFrom_coalesced`
    * `BlockTiling.coalesced_cut_iff`
-/

------------------------------------------------------------
-- Blocks
------------------------------------------------------------

namespace BlockTiling

/- The unit of payload sizes and the size of a header. -/
structure Geometry where
  unit : Nat
  header : Nat
  unit_pos : 0 < unit
  divides : unit ∣ header

/- A block: its payload size and whether it is free. -/
structure Block
    (g : Geometry) where
  size : Nat
  free : Bool
  size_pos : 0 < size
  aligned : g.unit ∣ size

variable {g : Geometry}

/- The block with another free mark. -/
def Block.mark
    (b : Block g)
    (free : Bool) : Block g :=
  { b with free }

/- Two adjacent blocks as one; the second header is payload. -/
def Block.merge
    (b c : Block g) : Block g where
  size := b.size + (g.header + c.size)
  free := b.free
  size_pos := Nat.add_pos_left b.size_pos _
  aligned :=
    Nat.dvd_add b.aligned (Nat.dvd_add g.divides c.aligned)

/- Bytes covered by a list of blocks. -/
def extent : List (Block g) → Nat
| [] => 0
| b :: bs => g.header + b.size + extent bs

/- The header addresses of the blocks from `a` on. -/
def starts : Nat → List (Block g) → List Nat
| _, [] => []
| a, b :: bs => a :: starts (a + g.header + b.size) bs

/- Address and size of the payloads that are not free. -/
def busy : Nat → List (Block g) → List (Nat × Nat)
| _, [] => []
| a, b :: bs =>
    if b.free then
      busy (a + g.header + b.size) bs
    else
      (a + g.header, b.size) ::
        busy (a + g.header + b.size) bs

section Lists

variable {a p s x : Nat} {b : Block g}
variable {bs pre post : List (Block g)}

theorem extent_append
    (pre post : List (Block g)) :
    extent (pre ++ post) = extent pre + extent post := by
  induction pre with
  | nil => simp [extent]
  | cons b pre ih =>
      simp only [List.cons_append, extent, ih]
      omega

/- A list covers more bytes than it has blocks. -/
theorem length_le_extent
    (bs : List (Block g)) :
    bs.length ≤ extent bs := by
  induction bs with
  | nil => simp
  | cons b bs ih =>
      have hPos := b.size_pos
      simp only [List.length_cons, extent]
      omega

/- A tiling ends where the tiling behind its first block does. -/
theorem extent_cons
    (a : Nat)
    (b : Block g)
    (bs : List (Block g)) :
    a + g.header + b.size + extent bs =
      a + extent (b :: bs) := by
  simp only [extent]
  omega

theorem busy_append
    (a : Nat)
    (pre post : List (Block g)) :
    busy a (pre ++ post) =
      busy a pre ++ busy (a + extent pre) post := by
  induction pre generalizing a with
  | nil => rfl
  | cons b pre ih =>
      simp only [List.cons_append, busy, ih, extent_cons]
      split <;> rfl

theorem busy_cons_free
    (a : Nat)
    (bs : List (Block g))
    (hFree : b.free = true) :
    busy a (b :: bs) = busy (a + g.header + b.size) bs := by
  simp [busy, hFree]

theorem busy_cons_busy
    (a : Nat)
    (bs : List (Block g))
    (hFree : b.free = false) :
    busy a (b :: bs) =
      (a + g.header, b.size) ::
        busy (a + g.header + b.size) bs := by
  simp [busy, hFree]

theorem starts_append
    (a : Nat)
    (pre post : List (Block g)) :
    starts a (pre ++ post) =
      starts a pre ++ starts (a + extent pre) post := by
  induction pre generalizing a with
  | nil => rfl
  | cons b pre ih =>
      simp only [List.cons_append, starts, ih, extent_cons]

/- A busy payload is the payload of a block of the list. -/
theorem mem_busy_iff :
    (p, s) ∈ busy a bs ↔
      ∃ pre b post, bs = pre ++ b :: post ∧
        b.free = false ∧ p = a + extent pre + g.header ∧
        s = b.size := by
  constructor
  · intro hBusy
    induction bs generalizing a with
    | nil => simp [busy] at hBusy
    | cons c bs ih =>
        -- The payload is further down the list.
        have hLater :
            (p, s) ∈ busy (a + g.header + c.size) bs →
              ∃ pre b post, c :: bs = pre ++ b :: post ∧
                b.free = false ∧
                p = a + extent pre + g.header ∧
                s = b.size := by
          intro hMember
          rcases ih hMember with
            ⟨pre, b, post, rfl, hFree, rfl, rfl⟩
          refine ⟨c :: pre, b, post, rfl, hFree, ?_, rfl⟩
          simp only [extent]
          omega
        unfold busy at hBusy
        split at hBusy
        · exact hLater hBusy
        · rename_i hFree
          rcases List.mem_cons.mp hBusy with hEq | hMember
          · cases hEq
            exact ⟨[], c, bs, rfl, by simpa using hFree,
              by simp [extent], rfl⟩
          · exact hLater hMember
  · rintro ⟨pre, b, post, rfl, hFree, rfl, rfl⟩
    rw [busy_append]
    apply List.mem_append_right
    simp [busy, hFree]

/- A busy payload lies behind a header inside the region. -/
theorem busy_bounds
    (hBusy : (p, s) ∈ busy a bs) :
    a + g.header ≤ p ∧ 0 < s ∧ p + s ≤ a + extent bs := by
  rcases mem_busy_iff.mp hBusy with
    ⟨pre, b, post, rfl, _, rfl, rfl⟩
  have hPos := b.size_pos
  rw [extent_append]
  simp only [extent]
  omega

/- Busy payloads follow each other with headers between. -/
theorem busy_pairwise
    (a : Nat)
    (bs : List (Block g)) :
    (busy a bs).Pairwise
      fun u v => u.1 + u.2 + g.header ≤ v.1 := by
  induction bs generalizing a with
  | nil => exact List.Pairwise.nil
  | cons b bs ih =>
      unfold busy
      split
      · exact ih _
      · refine List.Pairwise.cons ?_ (ih _)
        rintro ⟨q, t⟩ hMember
        have hBounds := (busy_bounds hMember).1
        simp only
        omega

/- Two busy payloads are the same or do not overlap. -/
theorem busy_apart
    {q t : Nat}
    (hLeft : (p, s) ∈ busy a bs)
    (hRight : (q, t) ∈ busy a bs) :
    (p = q ∧ s = t) ∨ p + s + g.header ≤ q ∨
      q + t + g.header ≤ p := by
  have hPairwise := busy_pairwise a bs
  rcases List.append_of_mem hLeft with
    ⟨before, after, hSplit⟩
  rw [hSplit] at hPairwise hRight
  rw [List.pairwise_append, List.pairwise_cons] at hPairwise
  rcases hPairwise with ⟨_, ⟨hAfter, _⟩, hBefore⟩
  rcases List.mem_append.mp hRight with hMember | hMember
  · exact Or.inr (Or.inr
      (hBefore _ hMember _ List.mem_cons_self))
  · rcases List.mem_cons.mp hMember with hEq | hLater
    · cases hEq
      exact Or.inl ⟨rfl, rfl⟩
    · exact Or.inr (Or.inl (hAfter _ hLater))

/- No header overlaps a busy payload. -/
theorem busy_apart_start
    (hBusy : (p, s) ∈ busy a bs)
    (hStart : x ∈ starts a bs) :
    x + g.header ≤ p ∨ p + s ≤ x := by
  induction bs generalizing a with
  | nil => simp [starts] at hStart
  | cons b bs ih =>
      -- Later headers and payloads start after this block.
      have hAfter :
          ∀ y ∈ starts (a + g.header + b.size) bs,
            a + g.header + b.size ≤ y := by
        clear ih hStart hBusy
        generalize a + g.header + b.size = c
        induction bs generalizing c with
        | nil => simp [starts]
        | cons d ds ih =>
            intro y hMember
            rcases List.mem_cons.mp hMember with rfl | hRest
            · exact Nat.le_refl _
            · have hLe := ih _ y hRest
              omega
      rcases List.mem_cons.mp hStart with rfl | hRest
      · exact Or.inl (busy_bounds hBusy).1
      · unfold busy at hBusy
        split at hBusy
        · exact ih hBusy hRest
        · rcases List.mem_cons.mp hBusy with hEq | hMember
          · cases hEq
            exact Or.inr (hAfter x hRest)
          · exact ih hMember hRest

end Lists

------------------------------------------------------------
-- Bytes In Use
------------------------------------------------------------

section Taken

variable {a : Nat} {b : Block g} {bs : List (Block g)}

/- Bytes covered by the blocks that are not free. -/
def taken : List (Block g) → Nat
| [] => 0
| b :: bs =>
    if b.free then taken bs
    else g.header + b.size + taken bs

theorem taken_le_extent
    (bs : List (Block g)) :
    taken bs ≤ extent bs := by
  induction bs with
  | nil => exact Nat.le_refl _
  | cons b bs ih =>
      unfold taken extent
      split <;> omega

/- A free block is room that is not in use. -/
theorem taken_add_free
    (hMember : b ∈ bs)
    (hFree : b.free = true) :
    taken bs + (g.header + b.size) ≤ extent bs := by
  induction bs with
  | nil => cases hMember
  | cons c bs ih =>
      unfold taken extent
      rcases List.mem_cons.mp hMember with rfl | hRest
      · have hLe := taken_le_extent bs
        rw [if_pos hFree]
        omega
      · have hLe := ih hRest
        split <;> omega

/- The payloads in use and their headers are those bytes. -/
theorem sum_busy
    (a : Nat)
    (bs : List (Block g)) :
    ((busy a bs).map fun u => g.header + u.2).sum =
      taken bs := by
  induction bs generalizing a with
  | nil => rfl
  | cons b bs ih =>
      unfold busy taken
      split
      · exact ih _
      · rw [List.map_cons, List.sum_cons, ih]

/- No two payloads in use start at the same address. -/
theorem busy_starts_nodup
    (a : Nat)
    (bs : List (Block g)) :
    ((busy a bs).map Prod.fst).Nodup := by
  rw [List.nodup_iff_pairwise_ne, List.pairwise_map]
  refine (busy_pairwise a bs).imp_of_mem ?_
  intro u v hLeft hRight hApart hEq
  have hBounds := (busy_bounds (p := u.1) (s := u.2) hLeft).2.1
  omega

end Taken

------------------------------------------------------------
-- Splitting A Block
------------------------------------------------------------

section Split

/-
  The payload that a block keeps when `n` bytes are asked of
  it: all of it, when the rest is no room for a block.
-/
def splitSize
    (b : Block g)
    (n : Nat) : Nat :=
  if n + g.header + g.unit ≤ b.size then n else b.size

/- The front of a block that is split at `n` bytes. -/
def Block.cut
    (b : Block g)
    (n : Nat)
    (hPos : 0 < n)
    (hAligned : g.unit ∣ n) : Block g where
  size := splitSize b n
  free := b.free
  size_pos := by
    unfold splitSize
    split
    · exact hPos
    · exact b.size_pos
  aligned := by
    unfold splitSize
    split
    · exact hAligned
    · exact b.aligned

/- The free block behind the front, when there is room. -/
def splitRest
    (b : Block g)
    (n : Nat)
    (hAligned : g.unit ∣ n) : List (Block g) :=
  if hRoom : n + g.header + g.unit ≤ b.size then
    [{ size := b.size - n - g.header
       free := true
       size_pos := by
        have hUnit := g.unit_pos
        omega
       aligned :=
        Nat.dvd_sub (Nat.dvd_sub b.aligned hAligned)
          g.divides }]
  else
    []

variable {b : Block g} {n : Nat}

theorem splitSize_of_room
    (hRoom : n + g.header + g.unit ≤ b.size) :
    splitSize b n = n :=
  if_pos hRoom

theorem splitSize_of_no_room
    (hRoom : ¬ n + g.header + g.unit ≤ b.size) :
    splitSize b n = b.size :=
  if_neg hRoom

/- With room the rest is one free block. -/
theorem splitRest_of_room
    (hAligned : g.unit ∣ n)
    (hRoom : n + g.header + g.unit ≤ b.size) :
    ∃ r : Block g, splitRest b n hAligned = [r] ∧
      r.size = b.size - n - g.header ∧ r.free = true :=
  ⟨_, dif_pos hRoom, rfl, rfl⟩

theorem splitRest_of_no_room
    (hAligned : g.unit ∣ n)
    (hRoom : ¬ n + g.header + g.unit ≤ b.size) :
    splitRest b n hAligned = [] :=
  dif_neg hRoom

theorem le_splitSize
    (hFits : n ≤ b.size) :
    n ≤ splitSize b n := by
  unfold splitSize
  split <;> omega

theorem splitSize_le :
    splitSize b n ≤ b.size := by
  have hUnit := g.unit_pos
  unfold splitSize
  split <;> omega

/- Front and rest cover the bytes of the block. -/
theorem extent_cut
    (hPos : 0 < n)
    (hAligned : g.unit ∣ n)
    (free : Bool) :
    extent ((b.cut n hPos hAligned).mark free ::
        splitRest b n hAligned) =
      g.header + b.size := by
  have hUnit := g.unit_pos
  simp only [extent, Block.mark, Block.cut, splitSize,
    splitRest]
  split
  · simp only [extent]
    omega
  · simp only [extent]
    omega

/- The rest of a split is free. -/
theorem busy_splitRest
    (a : Nat)
    (hAligned : g.unit ∣ n) :
    busy a (splitRest b n hAligned) = [] := by
  unfold splitRest
  split <;> simp [busy]

/- The busy payloads with a block in use split in two. -/
theorem busy_cut
    (a : Nat)
    (hPos : 0 < n)
    (hAligned : g.unit ∣ n)
    (post : List (Block g)) :
    busy a
        (((b.cut n hPos hAligned).mark false ::
          splitRest b n hAligned) ++ post) =
      (a + g.header, splitSize b n) ::
        busy (a + g.header + b.size) post := by
  have hEnd :
      a + g.header + splitSize b n +
          extent (splitRest b n hAligned) =
        a + g.header + b.size := by
    have hExtent := extent_cut (b := b) hPos hAligned false
    simp only [extent, Block.mark, Block.cut] at hExtent
    omega
  rw [List.cons_append, busy_cons_busy a _ rfl, busy_append,
    busy_splitRest]
  simp only [Block.mark, Block.cut, List.nil_append, hEnd]

end Split

------------------------------------------------------------
-- Coalescing Free Blocks
------------------------------------------------------------

section Coalesce

/-
  The blocks `b :: bs` with every run of adjacent free blocks
  merged; the sweep is at `b`.
-/
def coalesceFrom
    (b : Block g) : List (Block g) → List (Block g)
| [] => [b]
| c :: cs =>
    if b.free ∧ c.free then
      coalesceFrom (b.merge c) cs
    else
      b :: coalesceFrom c cs

variable {b c : Block g}

theorem extent_merge
    (b c : Block g)
    (cs : List (Block g)) :
    extent (b.merge c :: cs) = extent (b :: c :: cs) := by
  simp only [extent, Block.merge]
  omega

/- Merging two free blocks keeps every busy payload. -/
theorem busy_merge
    (a : Nat)
    (cs : List (Block g))
    (hFree : b.free = true ∧ c.free = true) :
    busy a (b.merge c :: cs) = busy a (b :: c :: cs) := by
  have hEnd :
      a + g.header + (b.size + (g.header + c.size)) =
        a + g.header + b.size + g.header + c.size := by
    omega
  simp only [busy, Block.merge, hFree.1, hFree.2, if_true,
    hEnd]

theorem coalesceFrom_ne_nil
    (b : Block g)
    (bs : List (Block g)) :
    coalesceFrom b bs ≠ [] := by
  induction bs generalizing b with
  | nil => simp [coalesceFrom]
  | cons c cs ih =>
      unfold coalesceFrom
      split
      · exact ih _
      · simp

theorem extent_coalesceFrom
    (b : Block g)
    (bs : List (Block g)) :
    extent (coalesceFrom b bs) = extent (b :: bs) := by
  induction bs generalizing b with
  | nil => rfl
  | cons c cs ih =>
      unfold coalesceFrom
      split
      · rw [ih, extent_merge]
      · simp only [extent, ih]

/- Merging free blocks keeps every busy payload. -/
theorem busy_coalesceFrom
    (a : Nat)
    (b : Block g)
    (bs : List (Block g)) :
    busy a (coalesceFrom b bs) = busy a (b :: bs) := by
  induction bs generalizing a b with
  | nil => rfl
  | cons c cs ih =>
      unfold coalesceFrom
      split
      · rename_i hFree
        rw [ih, busy_merge a cs hFree]
      · simp only [busy, ih]

end Coalesce

------------------------------------------------------------
-- Coalesced Lists
------------------------------------------------------------

section Coalesced

/- No two adjacent blocks are both free. -/
def Coalesced
    (bs : List (Block g)) : Prop :=
  bs.IsChain fun b c => ¬ (b.free = true ∧ c.free = true)

variable {b : Block g} {bs pre mid post : List (Block g)}

/- The first block of a sweep is as free as the one at `b`. -/
theorem coalesceFrom_head
    (b : Block g)
    (bs : List (Block g)) :
    ∃ d ds, coalesceFrom b bs = d :: ds ∧ d.free = b.free := by
  induction bs generalizing b with
  | nil => exact ⟨b, [], rfl, rfl⟩
  | cons c cs ih =>
      unfold coalesceFrom
      split
      · exact ih (b.merge c)
      · exact ⟨b, _, rfl, rfl⟩

theorem coalesceFrom_coalesced
    (b : Block g)
    (bs : List (Block g)) :
    Coalesced (coalesceFrom b bs) := by
  induction bs generalizing b with
  | nil => exact List.isChain_singleton b
  | cons c cs ih =>
      unfold coalesceFrom
      split
      · exact ih (b.merge c)
      · rename_i hNot
        rcases coalesceFrom_head c cs with ⟨d, ds, hHead, hFree⟩
        have hRest := ih c
        rw [hHead] at hRest ⊢
        refine List.isChain_cons_cons.mpr ⟨?_, hRest⟩
        rw [hFree]
        exact hNot

/- A block in use splits a coalesced list in two. -/
theorem coalesced_middle_iff
    (hBusy : b.free = false) :
    Coalesced (pre ++ b :: post) ↔
      Coalesced pre ∧ Coalesced post := by
  unfold Coalesced
  rw [List.isChain_append, List.isChain_cons]
  constructor
  · rintro ⟨hPre, ⟨_, hPost⟩, _⟩
    exact ⟨hPre, hPost⟩
  · rintro ⟨hPre, hPost⟩
    refine ⟨hPre, ⟨?_, hPost⟩, ?_⟩
    · simp [hBusy]
    · simp [hBusy]

/- The parts of a coalesced list are coalesced. -/
theorem Coalesced.of_append
    (hAll : Coalesced (pre ++ post)) :
    Coalesced pre ∧ Coalesced post := by
  rcases List.isChain_append.mp hAll with ⟨hPre, hPost, _⟩
  exact ⟨hPre, hPost⟩

theorem Coalesced.tail
    (hAll : Coalesced (b :: post)) :
    Coalesced post ∧
      (b.free = true → ∀ c ∈ post.head?, c.free = false) := by
  rcases List.isChain_cons.mp hAll with ⟨hHead, hPost⟩
  refine ⟨hPost, fun hFree c hMember => ?_⟩
  have hNot := hHead c hMember
  rw [hFree] at hNot
  simpa using hNot

/- The rest of a split in front of a list. -/
theorem coalesced_splitRest_iff
    {n : Nat}
    (hAligned : g.unit ∣ n)
    (hPost : Coalesced post) :
    Coalesced (splitRest b n hAligned ++ post) ↔
      (n + g.header + g.unit ≤ b.size →
        ∀ c ∈ post.head?, c.free = false) := by
  by_cases hRoom : n + g.header + g.unit ≤ b.size
  · rcases splitRest_of_room hAligned hRoom with
      ⟨r, hRest, _, hFree⟩
    rw [hRest, List.singleton_append]
    constructor
    · intro hAll _
      exact hAll.tail.2 hFree
    · intro hHead
      refine List.isChain_cons.mpr ⟨?_, hPost⟩
      intro c hMember
      simp [hHead hRoom c hMember]
  · rw [splitRest_of_no_room hAligned hRoom, List.nil_append]
    exact iff_of_true hPost fun hContra =>
      absurd hContra hRoom

/-
  Splitting a block in use keeps a list coalesced unless the
  rest comes to lie in front of a free block.
-/
theorem coalesced_cut_iff
    {n : Nat}
    (hPos : 0 < n)
    (hAligned : g.unit ∣ n)
    (hPre : Coalesced pre)
    (hPost : Coalesced post) :
    Coalesced
        (pre ++ (((b.cut n hPos hAligned).mark false ::
          splitRest b n hAligned) ++ post)) ↔
      (n + g.header + g.unit ≤ b.size →
        ∀ c ∈ post.head?, c.free = false) := by
  rw [List.cons_append, coalesced_middle_iff rfl,
    coalesced_splitRest_iff hAligned hPost]
  exact and_iff_right hPre

/- Handing out a free block keeps a list coalesced. -/
theorem Coalesced.cut
    {n : Nat}
    (hAll : Coalesced (pre ++ b :: post))
    (hFree : b.free = true)
    (hPos : 0 < n)
    (hAligned : g.unit ∣ n) :
    Coalesced
      (pre ++ (((b.cut n hPos hAligned).mark false ::
        splitRest b n hAligned) ++ post)) := by
  rcases hAll.of_append with ⟨hPre, hRest⟩
  rcases hRest.tail with ⟨hPost, hHead⟩
  exact (coalesced_cut_iff hPos hAligned hPre hPost).mpr
    fun _ => hHead hFree

/- Adjacent free blocks of a coalesced list are one block. -/
theorem Coalesced.eq_singleton
    (hAll : Coalesced bs)
    (hNe : bs ≠ [])
    (hFree : ∀ b ∈ bs, b.free = true) :
    ∃ b, bs = [b] := by
  rcases List.exists_cons_of_ne_nil hNe with ⟨b, cs, rfl⟩
  cases cs with
  | nil => exact ⟨b, rfl⟩
  | cons c cs =>
      have hBusy := hAll.tail.2 (hFree b (by simp)) c rfl
      rw [hFree c (by simp)] at hBusy
      cases hBusy

/- Without a busy payload every block is free. -/
theorem free_of_busy_nil
    {a : Nat}
    (hNone : busy a bs = []) :
    ∀ b ∈ bs, b.free = true := by
  intro b hMember
  rcases List.append_of_mem hMember with ⟨pre, post, rfl⟩
  by_contra hNot
  have hBusy :
      (a + extent pre + g.header, b.size) ∈
        busy a (pre ++ b :: post) :=
    mem_busy_iff.mpr
      ⟨pre, b, post, rfl, by simpa using hNot, rfl, rfl⟩
  rw [hNone] at hBusy
  simp at hBusy

end Coalesced

end BlockTiling
