import AsmOS.Heap.Calls

/-
  The effect of each heap call on the payloads in use.

  Main declarations:
    * `memcpy_eq`, `memset_eq`
    * `Represents.write`
    * `Keeps`, `OnlyAdds`
    * `realloc_trims`, `realloc_moves`
    * `malloc_effect`, `calloc_effect`
    * `free_effect`, `realloc_effect`
-/

------------------------------------------------------------
-- Copies
------------------------------------------------------------

namespace AsmOS

namespace Heap

open ByteMem BlockTiling

/- Copying between regions that do not overlap. -/
theorem memcpy_eq
    (mem : ByteMem)
    {dest src n : Nat}
    (hApart : dest + n ≤ src ∨ src + n ≤ dest) :
    memcpy mem dest src n =
      mem.storeBlock dest n (mem.view src) := by
  induction n generalizing mem dest src with
  | zero => simp [memcpy]
  | succ n ih =>
      have hFirst :
          mem.storeByte dest (mem src) =
            mem.storeBlock dest 1 (mem.view src) :=
        storeBlock_congr fun i _ hi => by
          rw [show i = 0 by omega]
          rfl
      have hRest :
          AgreeOn
            ((mem.storeByte dest (mem src)).view (src + 1))
            ((mem.view src).view 1) 0 n := by
        intro i _ hi
        simp only [view]
        rw [storeByte_of_ne _ _ (by omega), Nat.add_assoc]
      rw [memcpy, ih _ (by omega), storeBlock_congr hRest,
        hFirst, storeBlock_append, Nat.add_comm 1]

theorem memset_eq
    (mem : ByteMem)
    (s : Nat)
    (c : UInt8)
    (n : Nat) :
    memset mem s c n = mem.storeBlock s n fun _ => c := by
  induction n generalizing mem s with
  | zero => simp [memset]
  | succ n ih =>
      rw [memset, ih, Nat.add_comm n 1]
      exact storeBlock_append mem s 1 n fun _ => c

------------------------------------------------------------
-- Payloads In Use
------------------------------------------------------------

section Payloads

variable {pool : Pool} {heap heap' : State}
variable {bs bs' : List HeapBlock} {p s n : Nat}

/- The header in front of a payload in use. -/
theorem Represents.payload_header
    (hHeap : Represents pool heap bs)
    (hBusy : (p, s) ∈ payloads pool bs) :
    blockSize heap.mem (p - 12) = s ∧
      blockFree heap.mem (p - 12) = 0 := by
  rcases mem_busy_iff.mp hBusy with
    ⟨pre, b, post, rfl, hFree, hp, rfl⟩
  rw [heapGeometry_header] at hp
  subst hp
  rcases hHeap.header with ⟨hSize, _, hMark, _⟩
  rw [Nat.add_sub_cancel]
  refine ⟨hSize, ?_⟩
  rw [hMark, hFree]
  rfl

theorem payload_bounds
    (hBusy : (p, s) ∈ payloads pool bs) :
    pool.base + 12 ≤ p ∧ 0 < s ∧
      p + s ≤ pool.base + extent bs :=
  busy_bounds hBusy

/- Writes inside a payload in use keep the block list. -/
theorem Represents.write
    {mem' : ByteMem}
    (hHeap : Represents pool heap bs)
    (hBusy : (p, s) ∈ payloads pool bs)
    (hOutside :
      ∀ x, x < p ∨ p + s ≤ x → mem' x = heap.mem x) :
    Represents pool { heap with mem := mem' } bs := by
  rcases mem_busy_iff.mp hBusy with
    ⟨pre, b, post, rfl, _, hp, rfl⟩
  rw [heapGeometry_header] at hp
  subst hp
  rcases hHeap.header with ⟨hSize, hNext, hFree, _⟩
  have hHeader :=
    header_congr
      (show AgreeOn heap.mem mem' (pool.base + extent pre)
          (pool.base + extent pre + 12)
        from fun x _ hHi =>
          (hOutside x (Or.inl hHi)).symm)
  rw [show pre ++ b :: post = pre ++ ([b] ++ post) from rfl]
  refine hHeap.replace (by simp) rfl ?_ ?_
  · exact ⟨hHeader.1.trans hSize,
      hHeader.2.1.trans hNext,
      hHeader.2.2.trans hFree, trivial⟩
  · intro x hOut
    exact hOutside x (by omega)

/-
  Payloads other than the one at `p` are still in use, at the
  same place, with the same size and the same bytes.
-/
def Keeps
    (pool : Pool)
    (heap heap' : State)
    (bs bs' : List HeapBlock)
    (p : Nat) : Prop :=
  ∀ q t, (q, t) ∈ payloads pool bs → q ≠ p →
    (q, t) ∈ payloads pool bs' ∧
      AgreeOn heap'.mem heap.mem q (q + t)

theorem Keeps.refl
    (pool : Pool)
    (heap : State)
    (bs : List HeapBlock)
    (p : Nat) :
    Keeps pool heap heap bs bs p :=
  fun _ _ hMember _ => ⟨hMember, AgreeOn.refl _ _ _⟩

/- A list with one more entry in its middle. -/
theorem mem_middle_iff
    {x y : Nat × Nat}
    {before after : List (Nat × Nat)} :
    x ∈ before ++ y :: after ↔ x = y ∨ x ∈ before ++ after :=
  List.perm_middle.mem_iff.trans List.mem_cons

/- The other payloads start elsewhere. -/
theorem ne_of_middle
    {q s t : Nat}
    {before after : List (Nat × Nat)}
    (hAll : payloads pool bs = before ++ (p, s) :: after)
    (hMember : (q, t) ∈ before ++ after) :
    q ≠ p := by
  have hHere : (p, s) ∈ payloads pool bs := by
    rw [hAll]
    exact mem_middle_iff.mpr (Or.inl rfl)
  have hOther : (q, t) ∈ payloads pool bs := by
    rw [hAll]
    exact mem_middle_iff.mpr (Or.inr hMember)
  have hSize := (payload_bounds hHere).2.1
  have hSize' := (payload_bounds hOther).2.1
  have hPairwise := busy_pairwise pool.base bs
  rw [show busy pool.base bs = before ++ (p, s) :: after
    from hAll, List.pairwise_append, List.pairwise_cons]
    at hPairwise
  rcases hPairwise with ⟨_, ⟨hAfter, _⟩, hBefore⟩
  rcases List.mem_append.mp hMember with hLeft | hRight
  · have hLe := hBefore _ hLeft _ List.mem_cons_self
    simp only at hLe
    omega
  · have hLe := hAfter _ hRight
    simp only at hLe
    omega

theorem Grants.member
    (hGrants : Grants pool heap heap' bs bs' p n) :
    ∃ s, n ≤ s ∧ (p, s) ∈ payloads pool bs' := by
  rcases hGrants.payload with
    ⟨before, after, s, hSize, _, hNew⟩
  exact ⟨s, hSize, by rw [hNew]; simp⟩

theorem Grants.old_member
    {q t : Nat}
    (hGrants : Grants pool heap heap' bs bs' p n)
    (hMember : (q, t) ∈ payloads pool bs) :
    (q, t) ∈ payloads pool bs' := by
  rcases hGrants.payload with ⟨before, after, s, _, hOld, hNew⟩
  rw [hOld] at hMember
  rw [hNew]
  exact mem_middle_iff.mpr (Or.inr hMember)

/- A granted payload was not in use. -/
theorem Grants.fresh
    {q t : Nat}
    (hGrants : Grants pool heap heap' bs bs' p n)
    (hMember : (q, t) ∈ payloads pool bs) :
    q ≠ p := by
  rcases hGrants.payload with ⟨before, after, s, _, hOld, hNew⟩
  rw [hOld] at hMember
  exact ne_of_middle hNew hMember

theorem Grants.keepsAll
    (hGrants : Grants pool heap heap' bs bs' p n)
    (q : Nat) :
    Keeps pool heap heap' bs bs' q :=
  fun r t hMember _ =>
    ⟨hGrants.old_member hMember, hGrants.keeps r t hMember⟩

theorem Releases.keepsOthers
    (hReleases : Releases pool heap heap' bs bs' p) :
    Keeps pool heap heap' bs bs' p := by
  intro q t hMember hNe
  have hKept : (q, t) ∈ payloads pool bs' := by
    rcases hReleases.payload with ⟨before, after, s, hOld, hNew⟩
    rw [hOld] at hMember
    rw [hNew]
    rcases mem_middle_iff.mp hMember with hEq | hKept
    · cases hEq
      exact absurd rfl hNe
    · exact hKept
  exact ⟨hKept, hReleases.keeps q t hKept⟩

theorem Resizes.member
    (hResizes : Resizes pool heap heap' bs bs' p n) :
    ∃ s, n ≤ s ∧ (p, s) ∈ payloads pool bs' := by
  rcases hResizes.payload with
    ⟨before, after, _, s', hSize, _, _, hNew⟩
  exact ⟨s', hSize, by rw [hNew]; simp⟩

theorem Resizes.keepsOthers
    (hResizes : Resizes pool heap heap' bs bs' p n) :
    Keeps pool heap heap' bs bs' p := by
  intro q t hMember hNe
  have hKept : (q, t) ∈ payloads pool bs' := by
    rcases hResizes.payload with
      ⟨before, after, s, s', _, _, hOld, hNew⟩
    rw [hOld] at hMember
    rw [hNew]
    rcases mem_middle_iff.mp hMember with hEq | hKept
    · cases hEq
      exact absurd rfl hNe
    · exact mem_middle_iff.mpr (Or.inr hKept)
  exact ⟨hKept, hResizes.keeps q t hKept⟩

/-
  Every payload after a call is the result `r`, or it was in
  use before and is not the one passed as `p`.
-/
def OnlyAdds
    (pool : Pool)
    (bs bs' : List HeapBlock)
    (p r : Nat) : Prop :=
  ∀ q t, (q, t) ∈ payloads pool bs' →
    q = r ∨ q ≠ p ∧ (q, t) ∈ payloads pool bs

theorem Grants.onlyAdds
    (hGrants : Grants pool heap heap' bs bs' p n) :
    OnlyAdds pool bs bs' 0 p := by
  intro q t hMember
  have hPos := (payload_bounds hMember).1
  rcases hGrants.payload with ⟨before, after, s, _, hOld, hNew⟩
  rw [hNew] at hMember
  rw [hOld]
  rcases mem_middle_iff.mp hMember with hEq | hKept
  · cases hEq
    exact Or.inl rfl
  · exact Or.inr ⟨by omega, hKept⟩

/- A released payload is in use no more. -/
theorem Releases.onlyAdds
    (hReleases : Releases pool heap heap' bs bs' p)
    (r : Nat) :
    OnlyAdds pool bs bs' p r := by
  intro q t hMember
  rcases hReleases.payload with ⟨before, after, s, hOld, hNew⟩
  rw [hNew] at hMember
  have hNe := ne_of_middle hOld hMember
  rw [hOld]
  exact Or.inr ⟨hNe, mem_middle_iff.mpr (Or.inr hMember)⟩

theorem Resizes.onlyAdds
    (hResizes : Resizes pool heap heap' bs bs' p n) :
    OnlyAdds pool bs bs' p p := by
  intro q t hMember
  rcases hResizes.payload with
    ⟨before, after, s, s', _, _, hOld, hNew⟩
  rw [hNew] at hMember
  rw [hOld]
  by_cases hSame : q = p
  · exact Or.inl hSame
  rcases mem_middle_iff.mp hMember with hEq | hKept
  · cases hEq
    exact absurd rfl hSame
  · exact Or.inr ⟨hSame, mem_middle_iff.mpr (Or.inr hKept)⟩

/- A granted payload, then a call that releases another. -/
theorem OnlyAdds.trans
    {bs₁ : List HeapBlock}
    {q r : Nat}
    (hFirst : OnlyAdds pool bs bs₁ q r)
    (hNext : OnlyAdds pool bs₁ bs' p r) :
    OnlyAdds pool bs bs' p r := by
  intro x t hMember
  rcases hNext x t hMember with hResult | ⟨hNe, hMember₁⟩
  · exact Or.inl hResult
  · rcases hFirst x t hMember₁ with hResult | ⟨_, hMember₀⟩
    · exact Or.inl hResult
    · exact Or.inr ⟨hNe, hMember₀⟩

/- A copy into a granted payload is no other change. -/
theorem Grants.copied
    {s : Nat}
    (hGrants : Grants pool heap heap' bs bs' p n)
    (hLe : s ≤ n)
    (src : ByteMem) :
    Grants pool heap
      { heap' with mem := heap'.mem.storeBlock p s src }
      bs bs' p n := by
  rcases hGrants.member with ⟨s', hSize, hNew⟩
  refine ⟨hGrants.represents.write hNew
    fun x hOut => storeBlock_outside (by omega),
    hGrants.payload, fun q t hMember => ?_⟩
  have hFresh := hGrants.fresh hMember
  have hApart := busy_apart (hGrants.old_member hMember) hNew
  rw [heapGeometry_header] at hApart
  have hCopy :
      AgreeOn (heap'.mem.storeBlock p s src) heap'.mem q
        (q + t) :=
    storeBlock_agreeOn (by omega)
  exact hCopy.trans (hGrants.keeps q t hMember)

end Payloads

------------------------------------------------------------
-- Effects Of The Calls
------------------------------------------------------------

/-
  The effect of a call for `n` bytes that returns `r`: the
  payloads other than the one passed as `p` are kept, and a
  result that is not NULL is a payload of at least `n` bytes
  that was not in use, unless it is `p`.
-/
structure Effect
    (pool : Pool)
    (heap heap' : State)
    (bs bs' : List HeapBlock)
    (p n r : Nat) : Prop where
  represents : Represents pool heap' bs'
  keeps : Keeps pool heap heap' bs bs' p
  result :
    r ≠ 0 → ∃ s, n ≤ s ∧ (r, s) ∈ payloads pool bs'
  fresh :
    r ≠ 0 → ∀ t, (r, t) ∈ payloads pool bs → r = p

section Effects

variable {pool : Pool} {heap : State}
variable {bs : List HeapBlock} {p s n : Nat}

/- A call that returns NULL and leaves the heap alone. -/
theorem Effect.none
    (hHeap : Represents pool heap bs)
    (p n : Nat) :
    Effect pool heap heap bs bs p n 0 :=
  ⟨hHeap, Keeps.refl _ _ _ _, fun hNull => absurd rfl hNull,
    fun hNull => absurd rfl hNull⟩

theorem malloc_effect
    (hHeap : Represents pool heap bs)
    (hn : n + 3 < 2 ^ 32) :
    ∃ r heap' bs', malloc heap n = some (r, heap') ∧
      Effect pool heap heap' bs bs' 0 n r := by
  rcases malloc_spec hHeap hn with
    ⟨hCall, _⟩ | ⟨r, heap', bs', _, _, hCall, hGrants⟩
  · exact ⟨0, heap, bs, hCall, Effect.none hHeap 0 n⟩
  · exact ⟨r, heap', bs', hCall, hGrants.represents,
      hGrants.keepsAll 0, fun _ => hGrants.member,
      fun _ t hMember => absurd rfl (hGrants.fresh hMember)⟩

/- A granted `calloc` payload holds zeros. -/
theorem calloc_effect
    {nmemb size : Nat}
    (hHeap : Represents pool heap bs)
    (hn : nmemb * size % 2 ^ 32 + 3 < 2 ^ 32) :
    ∃ r heap' bs', calloc heap nmemb size = some (r, heap') ∧
      Effect pool heap heap' bs bs' 0
        (nmemb * size % 2 ^ 32) r ∧
      (r ≠ 0 → ∀ i < nmemb * size % 2 ^ 32,
        heap'.mem (r + i) = 0) := by
  have hCalloc :
      ∀ {r heap'},
        malloc heap (nmemb * size % 2 ^ 32) =
          some (r, heap') →
        calloc heap nmemb size =
          if r ≠ 0 then
            some (r,
              { heap' with
                mem :=
                  memset heap'.mem r 0
                    (nmemb * size % 2 ^ 32) })
          else some (r, heap') :=
    fun hMalloc => calloc_of_malloc hMalloc
  generalize nmemb * size % 2 ^ 32 = total at hn hCalloc ⊢
  rcases malloc_spec hHeap hn with
    ⟨hCall, _⟩ | ⟨r, heap', bs', _, hNull, hCall, hGrants⟩
  · refine ⟨0, heap, bs, by simp [hCalloc hCall],
      Effect.none hHeap 0 total,
      fun hNull => absurd rfl hNull⟩
  · rcases hGrants.member with ⟨s, hSize, hMember⟩
    refine ⟨r, { heap' with mem := memset heap'.mem r 0 total },
      bs', by simp [hCalloc hCall, hNull],
      ⟨?_, ?_, fun _ => ⟨s, hSize, hMember⟩,
        fun _ t hOld => absurd rfl (hGrants.fresh hOld)⟩,
      ?_⟩
    · rw [memset_eq]
      exact hGrants.represents.write hMember
        fun x hOut => storeBlock_outside (by omega)
    · intro q t hOld _
      refine ⟨hGrants.old_member hOld, ?_⟩
      have hApart :=
        busy_apart (hGrants.old_member hOld) hMember
      have hFresh := hGrants.fresh hOld
      rw [heapGeometry_header] at hApart
      refine AgreeOn.trans ?_ (hGrants.keeps q t hOld)
      rw [memset_eq]
      simp only
      exact storeBlock_agreeOn (by omega)
    · intro _ i hi
      rw [memset_eq]
      simp only
      rw [storeBlock_inside (by omega) (by omega)]

theorem free_effect
    (hHeap : Represents pool heap bs)
    (hBusy : p = 0 ∨ (p, s) ∈ payloads pool bs) :
    ∃ heap' bs', free pool heap p = some heap' ∧
      Represents pool heap' bs' ∧
      Keeps pool heap heap' bs bs' p := by
  rcases hBusy with rfl | hBusy
  · exact ⟨heap, bs, rfl, hHeap, Keeps.refl _ _ _ _⟩
  · rcases free_spec hHeap hBusy with
      ⟨heap', bs', hCall, hReleases⟩
    exact ⟨heap', bs', hCall, hReleases.represents,
      hReleases.keepsOthers⟩

/- The block of a payload in use, split in place. -/
structure Trims
    (pool : Pool)
    (bs bs' : List HeapBlock)
    (p m : Nat)
    (pre : List HeapBlock)
    (b : HeapBlock)
    (post : List HeapBlock) : Prop where
  blocks : bs = pre ++ b :: post
  busy : b.free = false
  place : p = pool.base + extent pre + 12
  trimmed :
    ∃ (hPos : 0 < m) (hAligned : heapGeometry.unit ∣ m),
      bs' =
        pre ++ (((b.cut m hPos hAligned).mark false ::
          splitRest b m hAligned) ++ post)

/- A payload that is large enough is kept and split. -/
theorem realloc_trims
    (hHeap : Represents pool heap bs)
    (hBusy : (p, s) ∈ payloads pool bs)
    (hPos : 0 < n)
    (hn : n + 3 < 2 ^ 32)
    (hFits : n ≤ s) :
    ∃ heap' bs' pre b post,
      realloc pool heap p n = some (p, heap') ∧
      Resizes pool heap heap' bs bs' p n ∧
      Trims pool bs bs' p (align n) pre b post := by
  have hBounds := payload_bounds hBusy
  have hSize := (hHeap.payload_header hBusy).1
  rcases mem_busy_iff.mp hBusy with
    ⟨pre, b, post, rfl, hOwn, hp, rfl⟩
  rw [heapGeometry_header] at hp
  have hUnit : 4 ∣ b.size := b.aligned
  rcases align_spec hn with ⟨hAligned, hAlign, hNear⟩
  have hRounded : 0 < align n := by omega
  refine ⟨_, _, pre, b, post, ?_, by
    rw [hp]
    exact resizes_of_split hHeap hOwn hRounded hAligned
      (show align n ≤ b.size by omega) hAlign,
    rfl, hOwn, hp, hRounded, hAligned, rfl⟩
  unfold realloc
  rw [if_neg (by omega), if_neg (by omega)]
  simp only [sizeofMemBlock]
  rw [if_pos (by omega), hp, Nat.add_sub_cancel]

theorem realloc_inPlace
    (hHeap : Represents pool heap bs)
    (hBusy : (p, s) ∈ payloads pool bs)
    (hPos : 0 < n)
    (hn : n + 3 < 2 ^ 32)
    (hFits : n ≤ s) :
    ∃ heap' bs', realloc pool heap p n = some (p, heap') ∧
      Resizes pool heap heap' bs bs' p n := by
  rcases realloc_trims hHeap hBusy hPos hn hFits with
    ⟨heap', bs', _, _, _, hCall, hResizes, _⟩
  exact ⟨heap', bs', hCall, hResizes⟩

/-
  A payload that is too small is copied to a granted one and
  freed, which sweeps the list.
-/
theorem realloc_moves
    (hHeap : Represents pool heap bs)
    (hBusy : (p, s) ∈ payloads pool bs)
    (hPos : 0 < n)
    (hn : n + 3 < 2 ^ 32)
    (hShort : s < n) :
    realloc pool heap p n = some (0, heap) ∨
      ∃ r heap' bs', realloc pool heap p n = some (r, heap') ∧
        r ≠ 0 ∧ Effect pool heap heap' bs bs' p n r ∧
        AgreeOn (heap'.mem.view r) (heap.mem.view p) 0 s ∧
        Coalesced bs' ∧ OnlyAdds pool bs bs' p r := by
  have hBounds := payload_bounds hBusy
  have hBase := pool.base_pos
  have hSize := (hHeap.payload_header hBusy).1
  have hGrow :
      ¬ n ≤ blockSize heap.mem (p - sizeofMemBlock) := by
    simp only [sizeofMemBlock]
    omega
  rcases malloc_spec hHeap hn with
    ⟨hMalloc, _⟩ |
    ⟨r, heap₁, bs₁, _, hNull, hMalloc, hGrants⟩
  · left
    rw [realloc_of_malloc (by omega) (by omega) hGrow hMalloc,
      if_pos rfl]
  · right
    rcases hGrants.member with ⟨s₁, hSize₁, hNew⟩
    have hOld := hGrants.old_member hBusy
    have hFresh := hGrants.fresh hBusy
    have hOwn :=
      (hGrants.represents.payload_header hOld).1
    have hApart := busy_apart hOld hNew
    rw [heapGeometry_header] at hApart
    have hCopy :
        memcpy heap₁.mem r p s =
          heap₁.mem.storeBlock r s (heap₁.mem.view p) :=
      memcpy_eq heap₁.mem (by omega)
    have hCopied :=
      hGrants.copied hShort.le (heap₁.mem.view p)
    rcases free_sweeps hCopied.represents hOld with
      ⟨heap', bs', hFree, hReleases, hSwept⟩
    have hKeeps := hReleases.keepsOthers
    have hResult := hKeeps r s₁ hNew (Ne.symm hFresh)
    refine ⟨r, heap', bs', ?_, hNull,
      ⟨hReleases.represents, ?_,
        fun _ => ⟨s₁, hSize₁, hResult.1⟩,
        fun _ t hUsed => absurd rfl (hGrants.fresh hUsed)⟩,
      ?_, hSwept, hGrants.onlyAdds.trans (hReleases.onlyAdds r)⟩
    · rw [realloc_of_malloc (by omega) (by omega) hGrow
        hMalloc]
      simp only [sizeofMemBlock, hNull, if_false, hOwn, hShort,
        if_true, hCopy, hFree, Option.map_some]
    · intro q t hMember hNe
      rcases hKeeps q t (hGrants.old_member hMember) hNe with
        ⟨hKept, hAgree⟩
      exact ⟨hKept, hAgree.trans (hCopied.keeps q t hMember)⟩
    · intro i _ hi
      simp only [view]
      rw [hResult.2 (r + i) (by omega) (by omega)]
      simp only
      rw [storeBlock_inside (by omega) (by omega), view,
        Nat.add_sub_cancel_left,
        hGrants.keeps p s hBusy (p + i) (by omega) (by omega)]

theorem realloc_move
    (hHeap : Represents pool heap bs)
    (hBusy : (p, s) ∈ payloads pool bs)
    (hPos : 0 < n)
    (hn : n + 3 < 2 ^ 32)
    (hShort : s < n) :
    realloc pool heap p n = some (0, heap) ∨
      ∃ r heap' bs', realloc pool heap p n = some (r, heap') ∧
        r ≠ 0 ∧ Effect pool heap heap' bs bs' p n r ∧
        AgreeOn (heap'.mem.view r) (heap.mem.view p) 0 s := by
  rcases realloc_moves hHeap hBusy hPos hn hShort with
    hNone | ⟨r, heap', bs', hCall, hNull, hEffect, hBytes, _⟩
  · exact Or.inl hNone
  · exact Or.inr ⟨r, heap', bs', hCall, hNull, hEffect, hBytes⟩

/-
  `realloc` of a payload to `n` bytes: a failure changes
  nothing, and otherwise the result starts with the bytes of
  the old payload.
-/
theorem realloc_effect
    (hHeap : Represents pool heap bs)
    (hBusy : (p, s) ∈ payloads pool bs)
    (hPos : 0 < n)
    (hn : n + 3 < 2 ^ 32) :
    ∃ r heap' bs', realloc pool heap p n = some (r, heap') ∧
      Effect pool heap heap' bs bs' p n r ∧
      (r = 0 → heap' = heap ∧ bs' = bs) ∧
      (r ≠ 0 → ∀ i < min s n,
        heap'.mem (r + i) = heap.mem (p + i)) := by
  have hBounds := payload_bounds hBusy
  by_cases hFits : n ≤ s
  · rcases realloc_inPlace hHeap hBusy hPos hn hFits with
      ⟨heap', bs', hCall, hResizes⟩
    rcases hResizes.member with ⟨s', hSize', hMember⟩
    refine ⟨p, heap', bs', hCall,
      ⟨hResizes.represents, hResizes.keepsOthers,
        fun _ => ⟨s', hSize', hMember⟩, fun _ _ _ => rfl⟩,
      fun hNull => by omega, fun _ i hi => ?_⟩
    exact hResizes.keeps p s' hMember (p + i) (by omega)
      (by omega)
  · rcases realloc_move hHeap hBusy hPos hn (by omega) with
      hCall | ⟨r, heap', bs', hCall, hNull, hEffect, hBytes⟩
    · exact ⟨0, heap, bs, hCall, Effect.none hHeap p n,
        fun _ => ⟨rfl, rfl⟩, fun hNull => absurd rfl hNull⟩
    · exact ⟨r, heap', bs', hCall, hEffect,
        fun hZero => absurd hZero hNull,
        fun _ i hi => hBytes i (Nat.zero_le i) (by omega)⟩

end Effects

end Heap

end AsmOS
