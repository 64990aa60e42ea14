import Mathlib.Data.List.GetD
import Mathlib.Logic.Function.Iterate
import AsmOS.Base.NameTable
import AsmOS.Base.TokenCopy
import AsmOS.Base.Words

/-
  The words of the arguments of a shell command.

  A call of `next_word` copies one word into its buffer and
  returns where it stopped, and the next call goes on from
  there.  The calls find the words of the arguments as long
  as each of them fits; what is left of a longer one becomes
  a word of its own.

  Main declarations:
    * `isBlank`, `nextWord`, `nextWord_eq`
    * `pointer`, `storedWord`
    * `pointer_eq`
    * `nextWord_exact`
-/

------------------------------------------------------------
-- One Call
------------------------------------------------------------

namespace AsmOS

namespace Shell

open ByteMem TokenCopy Words

/- `c == ' ' || c == '\t'`. -/
def isBlank
    (c : UInt8) : Bool :=
  c == 0x20 || c == 0x09

/-
  `next_word` on the characters from `s` to the end of the
  string: the returned pointer and the buffer.
-/
def nextWord
    (s : List UInt8)
    (buf : ByteMem)
    (bufMax : UInt32) : List UInt8 × ByteMem :=
  let s := s.dropWhile isBlank
  let (s, i, buf) :=
    copyUntil isBlank (bufMax - 1).toNat s 0 buf
  (s, buf.storeByte i 0)

/- The first word, cut to a buffer of `max` bytes. -/
def cutWord
    (s : List UInt8)
    (max : Nat) : List UInt8 :=
  (firstWord isBlank s).take (max - 1)

theorem cutWord_length_lt
    (s : List UInt8)
    {max : Nat}
    (hMax : 0 < max) :
    (cutWord s max).length < max := by
  have hTake := List.length_take_le (max - 1) (firstWord isBlank s)
  unfold cutWord
  omega

theorem toNat_pos
    {bufMax : UInt32}
    (hSize : 1 ≤ bufMax) :
    0 < bufMax.toNat :=
  UInt32.le_iff_toNat_le.mp hSize

theorem nextWord_eq
    {bufMax : UInt32}
    (hSize : 1 ≤ bufMax)
    (s : List UInt8)
    (buf : ByteMem) :
    nextWord s buf bufMax =
      ((s.dropWhile isBlank).drop (cutWord s bufMax.toNat).length,
        stored (cutWord s bufMax.toNat) buf) := by
  have hRoom : (bufMax - 1).toNat = bufMax.toNat - 1 :=
    UInt32.toNat_sub_of_le bufMax 1 hSize
  unfold nextWord
  simp only
  rw [copyUntil_eq, hRoom, Nat.sub_zero, Nat.zero_add]
  rfl

/- The word and its end stay inside of the buffer. -/
theorem nextWord_endsIn
    {bufMax : UInt32}
    (hSize : 1 ≤ bufMax)
    (s : List UInt8)
    (buf : ByteMem) :
    EndsIn bufMax.toNat buf (nextWord s buf bufMax).2 := by
  have hShort := cutWord_length_lt s (toNat_pos hSize)
  rw [nextWord_eq hSize]
  exact endsIn_storeByte _ _ (Nat.le_of_lt hShort) hShort

/- A word that fits is copied, and the call stops behind it. -/
theorem nextWord_fits
    {s : List UInt8}
    {bufMax : UInt32}
    (hSize : 1 ≤ bufMax)
    (hFits : (firstWord isBlank s).length ≤ bufMax.toNat - 1)
    (buf : ByteMem) :
    (nextWord s buf bufMax).1 = afterWord isBlank s := by
  have hWhole : cutWord s bufMax.toNat = firstWord isBlank s :=
    List.take_of_length_le hFits
  rw [nextWord_eq hSize, hWhole]
  exact drop_firstWord isBlank s

/- A word that does not fit leaves the call inside of it. -/
theorem words_nextWord_cut
    {s : List UInt8}
    {bufMax : UInt32}
    (hSize : 1 ≤ bufMax)
    (hLong : bufMax.toNat - 1 < (firstWord isBlank s).length)
    (buf : ByteMem) :
    words isBlank (nextWord s buf bufMax).1 =
      (firstWord isBlank s).drop (bufMax.toNat - 1) ::
        words isBlank (afterWord isBlank s) := by
  have hLength :
      (cutWord s bufMax.toNat).length = bufMax.toNat - 1 :=
    List.length_take_of_le (Nat.le_of_lt hLong)
  rw [nextWord_eq hSize, hLength]
  exact words_drop hLong

/- No call takes more than one word. -/
theorem words_nextWord_length
    {bufMax : UInt32}
    (hSize : 1 ≤ bufMax)
    (s : List UInt8)
    (buf : ByteMem) :
    (words isBlank s).length ≤
      (words isBlank (nextWord s buf bufMax).1).length + 1 := by
  by_cases hFits :
      (firstWord isBlank s).length ≤ bufMax.toNat - 1
  · rw [nextWord_fits hSize hFits, words_afterWord,
      List.length_tail]
    omega
  · have hLong := Nat.lt_of_not_le hFits
    rw [words_nextWord_cut hSize hLong, List.length_cons,
      words_afterWord, List.length_tail]
    omega

theorem nextWord_suffix
    {bufMax : UInt32}
    (hSize : 1 ≤ bufMax)
    (s : List UInt8)
    (buf : ByteMem) :
    (nextWord s buf bufMax).1 <:+ s := by
  rw [nextWord_eq hSize]
  exact (List.drop_suffix _ _).trans (List.dropWhile_suffix _)

/- The string that a call stores. -/
theorem stringIn_nextWord
    {s : List UInt8}
    {bufMax : UInt32}
    (hSize : 1 ≤ bufMax)
    (hString : 0 ∉ s)
    (buf : ByteMem) :
    stringIn (nextWord s buf bufMax).2 bufMax.toNat =
      cutWord s bufMax.toNat := by
  have hPos := toNat_pos hSize
  have hRest : 0 ∉ s.dropWhile isBlank := fun hMem =>
    hString ((List.dropWhile_suffix isBlank).mem hMem)
  rw [nextWord_eq hSize]
  exact stringIn_copied buf hRest (by omega)

------------------------------------------------------------
-- Successive Calls
------------------------------------------------------------

variable (args : List UInt8)
variable (bufs : Nat → ByteMem) (sizes : Nat → UInt32)

/- What `k` calls return, each on from the one before it. -/
def pointer : Nat → List UInt8
| 0 => args
| k + 1 => (nextWord (pointer k) (bufs k) (sizes k)).1

/- The string in the buffer of call `k`. -/
def storedWord
    (k : Nat) : List UInt8 :=
  stringIn
    (nextWord (pointer args bufs sizes k) (bufs k) (sizes k)).2
    (sizes k).toNat

/- Word `k` of the arguments, empty if there are fewer. -/
def argWord
    (k : Nat) : List UInt8 :=
  (words isBlank args).getD k []

/- Call `k` stores word `k`, cut to its buffer. -/
def StoresWord
    (k : Nat) : Prop :=
  storedWord args bufs sizes k =
    (argWord args k).take ((sizes k).toNat - 1)

/- Word `k` and its end fit into buffer `k`. -/
def WordFits
    (k : Nat) : Prop :=
  (argWord args k).length ≤ (sizes k).toNat - 1

variable {args bufs sizes}

theorem argWord_eq_nil
    {k : Nat}
    (hNone : (words isBlank args).length ≤ k) :
    argWord args k = [] :=
  List.getD_eq_default _ _ hNone

theorem pointer_suffix
    (hSizes : ∀ k, 1 ≤ sizes k)
    (k : Nat) :
    pointer args bufs sizes k <:+ args := by
  induction k with
  | zero => exact List.suffix_refl args
  | succ k ih => exact (nextWord_suffix (hSizes k) _ _).trans ih

theorem storedWord_eq
    (hSizes : ∀ k, 1 ≤ sizes k)
    (hString : 0 ∉ args)
    (k : Nat) :
    storedWord args bufs sizes k =
      cutWord (pointer args bufs sizes k) (sizes k).toNat :=
  stringIn_nextWord (hSizes k)
    (fun hMem => hString ((pointer_suffix hSizes k).mem hMem))
    (bufs k)

/- As long as words fit, calls stop at the ends of words. -/
theorem pointer_eq
    {k : Nat}
    (hSizes : ∀ k, 1 ≤ sizes k)
    (hFits : ∀ j < k, WordFits args sizes j) :
    pointer args bufs sizes k = (afterWord isBlank)^[k] args := by
  induction k with
  | zero => rfl
  | succ k ih =>
      have hBefore := ih fun j hj =>
        hFits j (Nat.lt_succ_of_lt hj)
      have hOwn : WordFits args sizes k :=
        hFits k (Nat.lt_succ_self k)
      unfold WordFits argWord at hOwn
      rw [getD_words, ← hBefore] at hOwn
      rw [pointer, nextWord_fits (hSizes k) hOwn, hBefore,
        Function.iterate_succ_apply']

theorem storesWord_of_fits
    {k : Nat}
    (hSizes : ∀ k, 1 ≤ sizes k)
    (hString : 0 ∉ args)
    (hFits : ∀ j < k, WordFits args sizes j) :
    StoresWord args bufs sizes k := by
  unfold StoresWord argWord
  rw [storedWord_eq hSizes hString, pointer_eq hSizes hFits,
    getD_words]
  rfl

/-
  Behind a word that does not fit, every call is at least one
  word late.
-/
theorem words_pointer_length
    {k : Nat}
    (hSizes : ∀ k, 1 ≤ sizes k)
    (hBefore : ∀ j < k, WordFits args sizes j)
    (hLong : ¬ WordFits args sizes k)
    (d : Nat) :
    (words isBlank args).length <
      (words isBlank
          (pointer args bufs sizes (k + 1 + d))).length +
        (k + 1 + d) := by
  induction d with
  | zero =>
      have hHere :
          pointer args bufs sizes k =
            (afterWord isBlank)^[k] args :=
        pointer_eq hSizes hBefore
      have hWord :
          (sizes k).toNat - 1 <
            (firstWord isBlank
              (pointer args bufs sizes k)).length := by
        unfold WordFits argWord at hLong
        rw [getD_words, ← hHere] at hLong
        exact Nat.lt_of_not_le hLong
      rw [Nat.add_zero, pointer,
        words_nextWord_cut (hSizes k) hWord, List.length_cons,
        words_afterWord, List.length_tail, hHere, words_iterate,
        List.length_drop]
      omega
  | succ d ih =>
      have hStep :=
        words_nextWord_length (hSizes (k + 1 + d))
          (pointer args bufs sizes (k + 1 + d))
          (bufs (k + 1 + d))
      have hNext :
          pointer args bufs sizes (k + 1 + (d + 1)) =
            (nextWord (pointer args bufs sizes (k + 1 + d))
              (bufs (k + 1 + d)) (sizes (k + 1 + d))).1 :=
        rfl
      rw [hNext]
      omega

theorem one_le_of_two_le
    {bufMax : UInt32}
    (hSize : 2 ≤ bufMax) :
    1 ≤ bufMax :=
  UInt32.le_iff_toNat_le.mpr
    (Nat.le_of_succ_le (UInt32.le_iff_toNat_le.mp hSize))

/- Then the call behind the last word stores another one. -/
theorem fits_of_storesWord
    {n : Nat}
    (hSizes : ∀ k, 2 ≤ sizes k)
    (hString : 0 ∉ args)
    (hEnough : (words isBlank args).length < n)
    (hStores : ∀ k < n, StoresWord args bufs sizes k)
    (k : Nat) :
    WordFits args sizes k := by
  have hPos : ∀ k, 1 ≤ sizes k := fun k =>
    one_le_of_two_le (hSizes k)
  induction k using Nat.strong_induction_on with
  | _ k ih =>
      by_contra hLong
      have hInside : k < (words isBlank args).length := by
        by_contra hOut
        have hNone : argWord args k = [] :=
          argWord_eq_nil (Nat.le_of_not_lt hOut)
        unfold WordFits at hLong
        rw [hNone] at hLong
        exact hLong (Nat.zero_le _)
      obtain ⟨d, hTotal⟩ := Nat.exists_eq_add_of_le hInside
      have hLate :
          (words isBlank args).length <
            (words isBlank
                (pointer args bufs sizes (k + 1 + d))).length +
              (k + 1 + d) :=
        words_pointer_length hPos ih hLong d
      rw [Nat.succ_eq_add_one] at hTotal
      rw [← hTotal] at hLate
      have hSome :
          firstWord isBlank
              (pointer args bufs sizes
                (words isBlank args).length) ≠ [] := by
        intro hNone
        rw [words_eq_nil hNone, List.length_nil] at hLate
        omega
      have hStored := hStores _ hEnough
      have hNone :
          argWord args (words isBlank args).length = [] :=
        argWord_eq_nil (Nat.le_refl _)
      have hRoom :=
        UInt32.le_iff_toNat_le.mp
          (hSizes (words isBlank args).length)
      rw [show (2 : UInt32).toNat = 2 from rfl] at hRoom
      unfold StoresWord at hStored
      rw [storedWord_eq hPos hString, hNone, List.take_nil,
        cutWord, List.take_eq_nil_iff] at hStored
      rcases hStored with hZero | hEmpty
      · omega
      · exact hSome hEmpty

/-
  The calls store the words of the arguments exactly if every
  word fits its buffer.  For a number of calls it is enough
  that the words before the last call fit, and it takes one
  call more than there are words to notice any other case.
-/
theorem nextWord_exact
    (args : CString)
    (bufs : Nat → ByteMem)
    (sizes : Nat → UInt32)
    (hSizes : ∀ k, 2 ≤ sizes k) :
    ((∀ k, StoresWord args.chars bufs sizes k) ↔
        ∀ k, WordFits args.chars sizes k) ∧
      (∀ n, (words isBlank args.chars).length < n →
        ((∀ k < n, StoresWord args.chars bufs sizes k) ↔
          ∀ k, WordFits args.chars sizes k)) ∧
      ∀ n, (∀ k, k + 1 < n → WordFits args.chars sizes k) →
        ∀ k < n, StoresWord args.chars bufs sizes k := by
  have hPos : ∀ k, 1 ≤ sizes k := fun k =>
    one_le_of_two_le (hSizes k)
  have hEnough :
      ∀ n, (∀ k, k + 1 < n → WordFits args.chars sizes k) →
        ∀ k < n, StoresWord args.chars bufs sizes k := by
    intro n hFits k hk
    exact storesWord_of_fits hPos args.ended fun j hj =>
      hFits j (by omega)
  refine ⟨⟨fun hStores k => ?_, fun hFits k => ?_⟩,
    fun n hCalls => ⟨fun hStores k => ?_, fun hFits => ?_⟩,
    hEnough⟩
  · exact fits_of_storesWord hSizes args.ended
      (Nat.lt_succ_self _) (fun k _ => hStores k) k
  · exact storesWord_of_fits hPos args.ended fun j _ => hFits j
  · exact fits_of_storesWord hSizes args.ended hCalls hStores k
  · exact hEnough n fun k _ => hFits k

/- `rgb 12345678 5 6`. -/
def ledArgs : CString :=
  ⟨[0x72, 0x67, 0x62, 0x20, 0x31, 0x32, 0x33, 0x34, 0x35, 0x36,
    0x37, 0x38, 0x20, 0x35, 0x20, 0x36], by decide⟩

/- `sub` and then the three numbers of `cmd_led`. -/
def ledSizes
    (k : Nat) : UInt32 :=
  if k = 0 then 32 else 8

theorem two_le_ledSizes
    (k : Nat) :
    2 ≤ ledSizes k := by
  unfold ledSizes
  split <;> decide

/- The call for the second number stores an end of the first. -/
theorem nextWord_led :
    (∀ k, 2 ≤ ledSizes k) ∧
      storedWord ledArgs.chars (fun _ => zeros) ledSizes 2 =
        [0x38] ∧
      argWord ledArgs.chars 2 = [0x35] ∧
      ¬ ∀ k,
        StoresWord ledArgs.chars (fun _ => zeros) ledSizes k := by
  have hStored :
      storedWord ledArgs.chars (fun _ => zeros) ledSizes 2 =
        [0x38] := by
    decide
  have hWord : argWord ledArgs.chars 2 = [0x35] := by
    decide
  refine ⟨two_le_ledSizes, hStored, hWord, fun hAll => ?_⟩
  have hSame := hAll 2
  unfold StoresWord at hSame
  rw [hStored, hWord] at hSame
  exact absurd hSame (by decide)

theorem nextWord_exact_led :
    ((∀ k,
        StoresWord ledArgs.chars (fun _ => zeros) ledSizes k) ↔
        ∀ k, WordFits ledArgs.chars ledSizes k) ∧
      (∀ n, (words isBlank ledArgs.chars).length < n →
        ((∀ k < n,
            StoresWord ledArgs.chars (fun _ => zeros)
              ledSizes k) ↔
          ∀ k, WordFits ledArgs.chars ledSizes k)) ∧
      ∀ n, (∀ k, k + 1 < n → WordFits ledArgs.chars ledSizes k) →
        ∀ k < n,
          StoresWord ledArgs.chars (fun _ => zeros) ledSizes k :=
  nextWord_exact ledArgs (fun _ => zeros) ledSizes
    two_le_ledSizes

end Shell

end AsmOS
