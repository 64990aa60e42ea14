import Mathlib.Data.List.DropRight
import AsmOS.Base.CStrings

/-
  Tokens copied from a string into an array.

  A loop copies characters until one that stops it, the end
  of the string or the last place that it may fill, and
  another one takes characters off the end of the copy.

  Main declarations:
    * `TokenCopy.copyUntil`, `TokenCopy.copyUntil_eq`
    * `TokenCopy.stringIn_copied`
    * `TokenCopy.trimmedLength`, `TokenCopy.slice_trimmed`
    * `TokenCopy.stringIn_trimmed`
-/

------------------------------------------------------------
-- Copying
------------------------------------------------------------

namespace TokenCopy

open ByteMem

/-
  `while (*s && !stop(*s) && i < limit) buf[i++] = *s++`: the
  string that is left, the index and the array.
-/
def copyUntil
    (stop : UInt8 → Bool)
    (limit : Nat) :
    List UInt8 → Nat → ByteMem → List UInt8 × Nat × ByteMem
| [], i, buf => ([], i, buf)
| c :: s, i, buf =>
    if !stop c ∧ i < limit then
      copyUntil stop limit s (i + 1) (buf.storeByte i c)
    else (c :: s, i, buf)

/- The characters that `n` places leave room for. -/
def token
    (stop : UInt8 → Bool)
    (n : Nat)
    (s : List UInt8) : List UInt8 :=
  (s.takeWhile fun c => !stop c).take n

theorem token_length_le
    (stop : UInt8 → Bool)
    (n : Nat)
    (s : List UInt8) :
    (token stop n s).length ≤ n :=
  List.length_take_le n _

theorem token_cons
    {stop : UInt8 → Bool}
    {n : Nat}
    {c : UInt8}
    (s : List UInt8)
    (hGo : (!stop c) = true) :
    token stop (n + 1) (c :: s) = c :: token stop n s := by
  unfold token
  rw [List.takeWhile_cons_of_pos (p := fun c => !stop c) hGo,
    List.take_succ_cons]

theorem token_cons_stop
    {stop : UInt8 → Bool}
    {c : UInt8}
    (n : Nat)
    (s : List UInt8)
    (hStop : ¬ (!stop c) = true) :
    token stop n (c :: s) = [] := by
  unfold token
  rw [List.takeWhile_cons_of_neg (p := fun c => !stop c) hStop,
    List.take_nil]

/- A byte and the block behind it are one block. -/
theorem storeBlock_cons
    (m : ByteMem)
    (i : Nat)
    (c : UInt8)
    (t : List UInt8) :
    storeBlock (m.storeByte i c) (i + 1) t.length (ofList t) =
      storeBlock m i (c :: t).length (ofList (c :: t)) := by
  have hView : ofList t = (ofList (c :: t)).view 1 :=
    (view_ofList (c :: t) 1).symm
  have hByte :
      m.storeByte i c = storeBlock m i 1 (ofList (c :: t)) :=
    storeBlock_congr fun x _ hx => by
      have hZero : x = 0 := by omega
      rw [hZero]
      rfl
  rw [hView, hByte, storeBlock_append, List.length_cons,
    Nat.add_comm 1]

theorem copyUntil_eq
    (stop : UInt8 → Bool)
    (limit : Nat)
    (s : List UInt8)
    (i : Nat)
    (buf : ByteMem) :
    copyUntil stop limit s i buf =
      (s.drop (token stop (limit - i) s).length,
        i + (token stop (limit - i) s).length,
        buf.storeBlock i (token stop (limit - i) s).length
          (ofList (token stop (limit - i) s))) := by
  induction s generalizing i buf with
  | nil =>
      rw [copyUntil, token, List.takeWhile_nil, List.take_nil,
        List.length_nil, storeBlock_zero]
      rfl
  | cons c s ih =>
      rw [copyUntil]
      by_cases hCopy : (!stop c) = true ∧ i < limit
      · have hRoom : limit - i = limit - (i + 1) + 1 := by
          omega
        rw [if_pos hCopy, ih, hRoom, token_cons s hCopy.1,
          storeBlock_cons, List.length_cons, List.drop_succ_cons,
          Nat.add_assoc, Nat.add_comm 1]
      · have hToken : token stop (limit - i) (c :: s) = [] := by
          by_cases hStop : (!stop c) = true
          · have hFull : ¬ i < limit := fun hRoom =>
              hCopy ⟨hStop, hRoom⟩
            rw [Nat.sub_eq_zero_of_le (Nat.le_of_not_lt hFull)]
            exact List.take_zero
          · exact token_cons_stop _ s hStop
        rw [if_neg hCopy, hToken, List.length_nil,
          storeBlock_zero]
        rfl

/- One more byte behind a block. -/
theorem storeBlock_snoc
    (m : ByteMem)
    (t : List UInt8)
    (c : UInt8) :
    (storeBlock m 0 t.length (ofList t)).storeByte t.length c =
      storeBlock m 0 (t ++ [c]).length (ofList (t ++ [c])) := by
  funext x
  rw [List.length_append, List.length_singleton]
  by_cases hLast : x = t.length
  · rw [hLast, storeByte_self,
      storeBlock_inside (Nat.zero_le _) (by omega)]
    simp [ofList, List.getD]
  · rw [storeByte_of_ne _ _ hLast]
    by_cases hInside : x < t.length
    · rw [storeBlock_inside (by omega) (by omega),
        storeBlock_inside (by omega) (by omega), Nat.sub_zero]
      simp [ofList, List.getD, hInside,
        List.getElem?_append_left hInside]
    · rw [storeBlock_outside (by omega),
        storeBlock_outside (by omega)]

/- The array once a copy of `t` has been ended. -/
def stored
    (t : List UInt8)
    (buf : ByteMem) : ByteMem :=
  (buf.storeBlock 0 t.length (ofList t)).storeByte t.length 0

theorem stringIn_copied
    {stop : UInt8 → Bool}
    {limit n : Nat}
    {s : List UInt8}
    (buf : ByteMem)
    (hString : 0 ∉ s)
    (hRoom : limit < n) :
    stringIn (stored (token stop limit s) buf) n =
      token stop limit s := by
  have hShort := token_length_le stop limit s
  refine stringIn_stored buf (fun hMem => hString ?_) (by omega)
  exact (List.takeWhile_prefix _).mem (List.mem_of_mem_take hMem)

/- A zero in the first `n` bytes, and no change behind them. -/
def EndsIn
    (n : Nat)
    (before m : ByteMem) : Prop :=
  (∃ i < n, m i = 0) ∧ ∀ x, n ≤ x → m x = before x

theorem endsIn_storeByte
    {i k n : Nat}
    (buf src : ByteMem)
    (hCopy : k ≤ n)
    (hEnd : i < n) :
    EndsIn n buf ((buf.storeBlock 0 k src).storeByte i 0) := by
  refine ⟨⟨i, hEnd, storeByte_self _ _ 0⟩, fun x hx => ?_⟩
  rw [storeByte_of_ne _ _ (by omega),
    storeBlock_outside (by omega)]

------------------------------------------------------------
-- Characters At The End
------------------------------------------------------------

/- `while (n > 0 && blank(buf[n - 1])) n--`. -/
def trimmedLength
    (blank : UInt8 → Bool)
    (buf : ByteMem) : Nat → Nat
| 0 => 0
| n + 1 =>
    if blank (buf n) then trimmedLength blank buf n
    else n + 1

/- What is left in the array is the trimmed text. -/
theorem slice_trimmed
    (blank : UInt8 → Bool)
    (buf : ByteMem)
    (n : Nat) :
    buf.slice 0 (trimmedLength blank buf n) =
      (buf.slice 0 n).rdropWhile blank := by
  induction n with
  | zero => rfl
  | succ n ih =>
      have hLast :
          buf.slice 0 (n + 1) = buf.slice 0 n ++ [buf n] := by
        rw [← slice_append, Nat.zero_add]
        rfl
      rw [trimmedLength, hLast, List.rdropWhile_concat]
      split
      · exact ih
      · exact hLast

section Stored

variable {t : List UInt8}

theorem slice_stored
    (t : List UInt8)
    (buf : ByteMem) :
    (buf.storeBlock 0 t.length (ofList t)).slice 0 t.length =
      t := by
  rw [slice_storeBlock, slice_ofList]

theorem trimmedLength_stored
    (blank : UInt8 → Bool)
    (t : List UInt8)
    (buf : ByteMem) :
    trimmedLength blank
        (buf.storeBlock 0 t.length (ofList t)) t.length =
      (t.rdropWhile blank).length := by
  have hSlice := slice_trimmed blank
    (buf.storeBlock 0 t.length (ofList t)) t.length
  rw [slice_stored] at hSlice
  rw [← hSlice, slice_length]

/- The zero that ends the trimmed text goes into the copy. -/
theorem stringIn_trimmed
    {n : Nat}
    (blank : UInt8 → Bool)
    (buf : ByteMem)
    (hString : 0 ∉ t)
    (hFits : t.length < n) :
    stringIn
        ((buf.storeBlock 0 t.length (ofList t)).storeByte
          (t.rdropWhile blank).length 0) n =
      t.rdropWhile blank := by
  have hPrefix := List.rdropWhile_prefix blank t
  have hBefore :
      ((buf.storeBlock 0 t.length (ofList t)).storeByte
          (t.rdropWhile blank).length 0).slice 0
          (t.rdropWhile blank).length =
        t.rdropWhile blank := by
    calc
      _ = (buf.storeBlock 0 t.length (ofList t)).slice 0
            (t.rdropWhile blank).length := by
        refine slice_congr fun i hi => ?_
        exact storeByte_of_ne _ _ (by omega)
      _ = t.rdropWhile blank := by
        rw [← trimmedLength_stored blank t buf, slice_trimmed,
          slice_stored]
  exact stringIn_eq hBefore (storeByte_self _ _ 0)
    (fun hMem => hString (hPrefix.mem hMem))
    (Nat.lt_of_le_of_lt hPrefix.length_le hFits)

end Stored

end TokenCopy
