import Mathlib.Logic.Function.Basic
import Mathlib.Tactic.Ring
import Mathlib.Tactic.NormNum

/-
  Byte-addressed memory with little-endian words.

  A memory is a total function from addresses to bytes.
  Regions of a program (a disk image, a cache, a pool) are
  memories of their own; `ByteMem.view` reads one region of
  a larger memory from address zero.

  Main declarations:
    * `ByteMem.load16`, `ByteMem.load32`
    * `ByteMem.store16`, `ByteMem.store32`
    * `ByteMem.storeBlock`
    * `ByteMem.AgreeOn`
    * `ByteMem.load32_store32`
    * `ByteMem.load32_storeBlock_of_disjoint`
-/

------------------------------------------------------------
-- Memories And Words
------------------------------------------------------------

/- A memory maps each address to a byte. -/
abbrev ByteMem := Nat → UInt8

namespace ByteMem

/- The memory whose bytes are all zero. -/
def zeros : ByteMem := fun _ => 0

/- The memory that starts with a list and is zero after it. -/
def ofList
    (bytes : List UInt8) : ByteMem :=
  fun i => bytes.getD i 0

/- The memory `m` read from address `a` on. -/
def view
    (m : ByteMem)
    (a : Nat) : ByteMem :=
  fun i => m (a + i)

/- The bytes of `m` from `a` on, as a list of length `n`. -/
def slice
    (m : ByteMem)
    (a n : Nat) : List UInt8 :=
  (List.range n).map fun i => m (a + i)

/- Little-endian 16-bit load. -/
def load16
    (m : ByteMem)
    (a : Nat) : Nat :=
  (m a).toNat + 256 * (m (a + 1)).toNat

/- Little-endian 32-bit load. -/
def load32
    (m : ByteMem)
    (a : Nat) : Nat :=
  load16 m a + 65536 * load16 m (a + 2)

/- The little-endian bytes of a number. -/
def littleEndian
    (v : Nat) : ByteMem :=
  fun i => UInt8.ofNat (v / 256 ^ i)

/- Copy the first `n` bytes of `src` to address `a`. -/
def storeBlock
    (m : ByteMem)
    (a n : Nat)
    (src : ByteMem) : ByteMem :=
  fun x =>
    if a ≤ x ∧ x < a + n then src (x - a) else m x

/- Store one byte. -/
def storeByte
    (m : ByteMem)
    (a : Nat)
    (b : UInt8) : ByteMem :=
  storeBlock m a 1 fun _ => b

/- Little-endian 16-bit store of `v` modulo `2 ^ 16`. -/
def store16
    (m : ByteMem)
    (a v : Nat) : ByteMem :=
  storeBlock m a 2 (littleEndian v)

/- Little-endian 32-bit store of `v` modulo `2 ^ 32`. -/
def store32
    (m : ByteMem)
    (a v : Nat) : ByteMem :=
  storeBlock m a 4 (littleEndian v)

/- Two memories hold the same bytes in `[lo, hi)`. -/
def AgreeOn
    (m m' : ByteMem)
    (lo hi : Nat) : Prop :=
  ∀ x, lo ≤ x → x < hi → m x = m' x

variable {m m' m'' src : ByteMem}
variable {a b n v x lo hi : Nat}

@[simp] theorem zeros_apply
    (x : Nat) :
    zeros x = 0 :=
  rfl

@[simp] theorem view_apply
    (m : ByteMem)
    (a i : Nat) :
    m.view a i = m (a + i) :=
  rfl

theorem view_view
    (m : ByteMem)
    (a b : Nat) :
    (m.view a).view b = m.view (a + b) := by
  funext i
  simp [view, Nat.add_assoc]

theorem view_zero
    (m : ByteMem) :
    m.view 0 = m := by
  funext i
  simp [view]

/- What is left of a list of bytes. -/
theorem view_ofList
    (bytes : List UInt8)
    (a : Nat) :
    (ofList bytes).view a = ofList (bytes.drop a) := by
  funext i
  simp [view, ofList, List.getD]

@[simp] theorem slice_length
    (m : ByteMem)
    (a n : Nat) :
    (m.slice a n).length = n := by
  simp [slice]

theorem slice_getElem?
    (m : ByteMem)
    (a n i : Nat)
    (hi : i < n) :
    (m.slice a n)[i]? = some (m (a + i)) := by
  simp [slice, hi]

theorem slice_congr
    (hAgree : ∀ i, i < n → m (a + i) = m' (b + i)) :
    m.slice a n = m'.slice b n := by
  apply List.map_congr_left
  intro i hi
  exact hAgree i (List.mem_range.mp hi)

theorem slice_eq_iff :
    m.slice a n = m'.slice b n ↔
      ∀ i, i < n → m (a + i) = m' (b + i) := by
  constructor
  · intro hEq i hi
    have hGet := congrArg (fun l => l[i]?) hEq
    simpa [slice, hi] using hGet
  · exact slice_congr

theorem slice_ofList
    (bytes : List UInt8) :
    (ofList bytes).slice 0 bytes.length = bytes := by
  apply List.ext_getElem
  · exact slice_length _ _ _
  · intro i _ hi
    simp [slice, ofList, hi]

theorem slice_view
    (m : ByteMem)
    (a b n : Nat) :
    (m.view a).slice b n = m.slice (a + b) n :=
  slice_congr fun i _ => by
    rw [view_apply, Nat.add_assoc]

theorem take_slice
    (m : ByteMem)
    (a n k : Nat) :
    (m.slice a n).take k = m.slice a (min k n) := by
  rw [slice, slice, ← List.map_take, List.take_range]

/- Adjacent slices are one slice. -/
theorem slice_append
    (m : ByteMem)
    (a n k : Nat) :
    m.slice a n ++ m.slice (a + n) k = m.slice a (n + k) := by
  simp [slice, List.range_add, Nat.add_assoc]

theorem slice_succ
    (m : ByteMem)
    (a n : Nat) :
    m.slice a (n + 1) = m a :: m.slice (a + 1) n := by
  rw [Nat.add_comm n 1, ← slice_append]
  rfl

theorem ofList_slice
    (m : ByteMem)
    (a n i : Nat)
    (hi : i < n) :
    ofList (m.slice a n) i = m (a + i) := by
  simp [ofList, slice, List.getD, hi]

------------------------------------------------------------
-- Agreement
------------------------------------------------------------

theorem AgreeOn.refl
    (m : ByteMem)
    (lo hi : Nat) :
    AgreeOn m m lo hi :=
  fun _ _ _ => rfl

theorem AgreeOn.symm
    (hAgree : AgreeOn m m' lo hi) :
    AgreeOn m' m lo hi :=
  fun x hLo hHi => (hAgree x hLo hHi).symm

theorem AgreeOn.trans
    (hLeft : AgreeOn m m' lo hi)
    (hRight : AgreeOn m' m'' lo hi) :
    AgreeOn m m'' lo hi :=
  fun x hLo hHi =>
    (hLeft x hLo hHi).trans (hRight x hLo hHi)

theorem AgreeOn.mono
    {lo' hi' : Nat}
    (hAgree : AgreeOn m m' lo hi)
    (hLo : lo ≤ lo')
    (hHi : hi' ≤ hi) :
    AgreeOn m m' lo' hi' :=
  fun x hx hx' =>
    hAgree x (hLo.trans hx) (lt_of_lt_of_le hx' hHi)

theorem agreeOn_ofList_slice
    (m : ByteMem)
    (n : Nat) :
    AgreeOn m (ofList (m.slice 0 n)) 0 n := by
  intro x _ hx
  rw [ofList_slice m 0 n x hx, Nat.zero_add]

theorem AgreeOn.view
    (hAgree : AgreeOn m m' lo hi)
    (a : Nat)
    {lo' hi' : Nat}
    (hLo : lo ≤ a + lo')
    (hHi : a + hi' ≤ hi) :
    AgreeOn (m.view a) (m'.view a) lo' hi' :=
  fun x hx hx' => hAgree (a + x) (by omega) (by omega)

/- A word load reads only its two bytes. -/
theorem AgreeOn.load16_eq
    (hAgree : AgreeOn m m' lo hi)
    (hLo : lo ≤ a)
    (hHi : a + 2 ≤ hi) :
    load16 m a = load16 m' a := by
  unfold load16
  rw [hAgree a hLo (by omega),
    hAgree (a + 1) (by omega) (by omega)]

/- A double-word load reads only its four bytes. -/
theorem AgreeOn.load32_eq
    (hAgree : AgreeOn m m' lo hi)
    (hLo : lo ≤ a)
    (hHi : a + 4 ≤ hi) :
    load32 m a = load32 m' a := by
  unfold load32
  rw [hAgree.load16_eq hLo (by omega),
    hAgree.load16_eq (a := a + 2) (by omega) (by omega)]

------------------------------------------------------------
-- Loads
------------------------------------------------------------

theorem load16_lt
    (m : ByteMem)
    (a : Nat) :
    load16 m a < 65536 := by
  have h0 := (m a).toNat_lt
  have h1 := (m (a + 1)).toNat_lt
  unfold load16
  omega

theorem load32_lt
    (m : ByteMem)
    (a : Nat) :
    load32 m a < 2 ^ 32 := by
  have h0 := load16_lt m a
  have h1 := load16_lt m (a + 2)
  unfold load32
  omega

@[simp] theorem load16_view
    (m : ByteMem)
    (a i : Nat) :
    load16 (m.view a) i = load16 m (a + i) := by
  simp [load16, Nat.add_assoc]

@[simp] theorem load32_view
    (m : ByteMem)
    (a i : Nat) :
    load32 (m.view a) i = load32 m (a + i) := by
  simp [load32, Nat.add_assoc]

/- The two bytes of a word determine the loaded value. -/
theorem load16_littleEndian
    (v : Nat) :
    load16 (littleEndian v) 0 = v % 65536 := by
  simp only [load16, littleEndian, pow_zero, Nat.div_one,
    zero_add, pow_one, UInt8.toNat_ofNat']
  omega

theorem load32_littleEndian
    (v : Nat) :
    load32 (littleEndian v) 0 = v % 2 ^ 32 := by
  simp only [load32, load16, littleEndian, pow_zero,
    Nat.div_one, zero_add, pow_one, UInt8.toNat_ofNat']
  norm_num
  omega

------------------------------------------------------------
-- Stores
------------------------------------------------------------

theorem storeBlock_inside
    (hLo : a ≤ x)
    (hHi : x < a + n) :
    storeBlock m a n src x = src (x - a) := by
  simp [storeBlock, hLo, hHi]

theorem storeBlock_outside
    (hOut : x < a ∨ a + n ≤ x) :
    storeBlock m a n src x = m x := by
  unfold storeBlock
  rw [if_neg]
  omega

@[simp] theorem storeBlock_zero
    (m : ByteMem)
    (a : Nat)
    (src : ByteMem) :
    storeBlock m a 0 src = m := by
  funext x
  exact storeBlock_outside (by omega)

theorem storeBlock_agreeOn
    (hOut : hi ≤ a ∨ a + n ≤ lo) :
    AgreeOn (storeBlock m a n src) m lo hi := by
  intro x hLo hHi
  exact storeBlock_outside (by omega)

/- Storing a block twice is storing it once. -/
theorem storeBlock_storeBlock
    (m : ByteMem)
    (a n : Nat)
    (src : ByteMem) :
    storeBlock (storeBlock m a n src) a n src =
      storeBlock m a n src := by
  funext x
  unfold storeBlock
  split <;> rfl

/- A stored block is read back. -/
theorem slice_storeBlock
    (m : ByteMem)
    (a n : Nat)
    (src : ByteMem) :
    (storeBlock m a n src).slice a n = src.slice 0 n := by
  refine slice_congr fun i hi => ?_
  rw [storeBlock_inside (by omega) (by omega),
    Nat.add_sub_cancel_left, Nat.zero_add]

/- Adjacent blocks merge into one store. -/
theorem storeBlock_append
    (m : ByteMem)
    (a n k : Nat)
    (src : ByteMem) :
    storeBlock (storeBlock m a n src) (a + n) k
        (src.view n) =
      storeBlock m a (n + k) src := by
  funext x
  simp only [storeBlock, view]
  by_cases hHigh : a + n ≤ x ∧ x < a + n + k
  · rw [if_pos hHigh, if_pos (by omega)]
    congr 1
    omega
  · rw [if_neg hHigh]
    by_cases hLow : a ≤ x ∧ x < a + n
    · rw [if_pos hLow, if_pos (by omega)]
    · rw [if_neg hLow, if_neg (by omega)]

/- Only the first `n` bytes of the source are stored. -/
theorem storeBlock_congr
    {src' : ByteMem}
    (hAgree : AgreeOn src src' 0 n) :
    storeBlock m a n src = storeBlock m a n src' := by
  funext x
  unfold storeBlock
  split
  · exact hAgree _ (Nat.zero_le _) (by omega)
  · rfl

/- Storing the bytes that are there changes nothing. -/
theorem storeBlock_same
    (hSame : AgreeOn src (m.view a) 0 n) :
    storeBlock m a n src = m := by
  funext x
  unfold storeBlock
  split
  · rename_i hIn
    rw [hSame _ (Nat.zero_le _) (by omega), view_apply]
    congr 1
    omega
  · rfl

@[simp] theorem storeByte_self
    (m : ByteMem)
    (a : Nat)
    (b : UInt8) :
    storeByte m a b a = b := by
  simp [storeByte, storeBlock]

theorem storeByte_of_ne
    (m : ByteMem)
    (b : UInt8)
    (hNe : x ≠ a) :
    storeByte m a b x = m x :=
  storeBlock_outside (by omega)

theorem store16_outside
    (m : ByteMem)
    (v : Nat)
    (hOut : x < a ∨ a + 2 ≤ x) :
    store16 m a v x = m x :=
  storeBlock_outside hOut

theorem store32_outside
    (m : ByteMem)
    (v : Nat)
    (hOut : x < a ∨ a + 4 ≤ x) :
    store32 m a v x = m x :=
  storeBlock_outside hOut

@[simp] theorem load16_store16
    (m : ByteMem)
    (a v : Nat) :
    load16 (store16 m a v) a = v % 65536 := by
  rw [← load16_littleEndian v]
  unfold load16 store16
  rw [storeBlock_inside (by omega) (by omega),
    storeBlock_inside (by omega) (by omega)]
  congr <;> omega

@[simp] theorem load32_store32
    (m : ByteMem)
    (a v : Nat) :
    load32 (store32 m a v) a = v % 2 ^ 32 := by
  rw [← load32_littleEndian v]
  unfold load32 load16 store32
  rw [storeBlock_inside (by omega) (by omega),
    storeBlock_inside (by omega) (by omega),
    storeBlock_inside (by omega) (by omega),
    storeBlock_inside (by omega) (by omega)]
  congr <;> omega

/- A loaded word has the bytes it was loaded from. -/
theorem littleEndian_load32
    (m : ByteMem)
    (a i : Nat)
    (hi : i < 4) :
    littleEndian (load32 m a) i = m (a + i) := by
  have h0 := (m a).toNat_lt
  have h1 := (m (a + 1)).toNat_lt
  have h2 := (m (a + 2)).toNat_lt
  have h3 := (m (a + 3)).toNat_lt
  have hThird : a + 2 + 1 = a + 3 := by omega
  rw [← UInt8.toNat_inj]
  simp only [littleEndian, load32, load16, hThird,
    UInt8.toNat_ofNat']
  have hCases : i = 0 ∨ i = 1 ∨ i = 2 ∨ i = 3 := by omega
  rcases hCases with rfl | rfl | rfl | rfl
  · norm_num
    omega
  · norm_num
    omega
  · norm_num
    omega
  · norm_num
    omega

theorem littleEndian_load16
    (m : ByteMem)
    (a i : Nat)
    (hi : i < 2) :
    littleEndian (load16 m a) i = m (a + i) := by
  have h0 := (m a).toNat_lt
  have h1 := (m (a + 1)).toNat_lt
  rw [← UInt8.toNat_inj]
  simp only [littleEndian, load16, UInt8.toNat_ofNat']
  have hCases : i = 0 ∨ i = 1 := by omega
  rcases hCases with rfl | rfl
  · norm_num
  · norm_num
    omega

/- Storing a word that is there changes nothing. -/
theorem store32_load32
    (m : ByteMem)
    (a : Nat) :
    store32 m a (load32 m a) = m :=
  storeBlock_same fun x _ hx => littleEndian_load32 m a x hx

theorem store16_load16
    (m : ByteMem)
    (a : Nat) :
    store16 m a (load16 m a) = m :=
  storeBlock_same fun x _ hx => littleEndian_load16 m a x hx

theorem load16_storeBlock_of_disjoint
    (hOut : b + 2 ≤ a ∨ a + n ≤ b) :
    load16 (storeBlock m a n src) b = load16 m b := by
  have hAgree :
      AgreeOn (storeBlock m a n src) m b (b + 2) :=
    storeBlock_agreeOn (by omega)
  exact hAgree.load16_eq (Nat.le_refl b) (Nat.le_refl _)

theorem load32_storeBlock_of_disjoint
    (hOut : b + 4 ≤ a ∨ a + n ≤ b) :
    load32 (storeBlock m a n src) b = load32 m b := by
  have hAgree :
      AgreeOn (storeBlock m a n src) m b (b + 4) :=
    storeBlock_agreeOn (by omega)
  exact hAgree.load32_eq (Nat.le_refl b) (Nat.le_refl _)

theorem load16_store16_of_disjoint
    (m : ByteMem)
    (v : Nat)
    (hOut : b + 2 ≤ a ∨ a + 2 ≤ b) :
    load16 (store16 m a v) b = load16 m b :=
  load16_storeBlock_of_disjoint hOut

end ByteMem
