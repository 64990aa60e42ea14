import AsmOS.Shell.NextWord

/-
  The shell's command line.

  `parse_cmd_args` copies the first word of a line to one
  array and the rest of the line to another, without the
  blanks at its ends.

  Main declarations:
    * `isLineEnd`, `line`
    * `parseCmdArgs`, `parseCmdArgs_eq`
    * `argsCopy`, `argsText`
    * `parseCmdArgs_exact`
-/

------------------------------------------------------------
-- Lines
------------------------------------------------------------

namespace AsmOS

namespace Shell

open ByteMem TokenCopy Words

/- `c == '\n' || c == '\r'`. -/
def isLineEnd
    (c : UInt8) : Bool :=
  c == 0x0A || c == 0x0D

/- The characters in front of the first line end. -/
def line
    (s : List UInt8) : List UInt8 :=
  s.takeWhile fun c => !isLineEnd c

theorem not_isLineEnd_of_isBlank
    {c : UInt8}
    (hBlank : isBlank c = true) :
    (!isLineEnd c) = true := by
  unfold isBlank at hBlank
  rw [Bool.or_eq_true, beq_iff_eq, beq_iff_eq] at hBlank
  rcases hBlank with rfl | rfl
  · rfl
  · rfl

theorem line_cons
    {c : UInt8}
    (s : List UInt8)
    (hInside : (!isLineEnd c) = true) :
    line (c :: s) = c :: line s :=
  List.takeWhile_cons_of_pos (p := fun c => !isLineEnd c) hInside

theorem line_cons_end
    {c : UInt8}
    (s : List UInt8)
    (hEnd : ¬ (!isLineEnd c) = true) :
    line (c :: s) = [] :=
  List.takeWhile_cons_of_neg (p := fun c => !isLineEnd c) hEnd

/- Blanks in front of a line are in the line. -/
theorem line_dropWhile
    (s : List UInt8) :
    line (s.dropWhile isBlank) = (line s).dropWhile isBlank := by
  induction s with
  | nil => rfl
  | cons c s ih =>
      by_cases hBlank : isBlank c = true
      · rw [List.dropWhile_cons_of_pos hBlank, ih,
          line_cons s (not_isLineEnd_of_isBlank hBlank),
          List.dropWhile_cons_of_pos hBlank]
      · rw [List.dropWhile_cons_of_neg hBlank]
        by_cases hInside : (!isLineEnd c) = true
        · rw [line_cons s hInside,
            List.dropWhile_cons_of_neg hBlank]
        · rw [line_cons_end s hInside]
          rfl

theorem line_drop
    {n : Nat}
    {s : List UInt8}
    (hn : n ≤ (line s).length) :
    line (s.drop n) = (line s).drop n := by
  induction n generalizing s with
  | zero => rfl
  | succ n ih =>
      cases s with
      | nil => rfl
      | cons c s =>
          by_cases hInside : (!isLineEnd c) = true
          · rw [line_cons s hInside] at hn ⊢
            rw [List.drop_succ_cons, List.drop_succ_cons]
            exact ih (Nat.le_of_succ_le_succ hn)
          · rw [line_cons_end s hInside] at hn
            exact absurd hn (Nat.not_succ_le_zero n)

/- Copying a word stops at its end or at the end of the line. -/
theorem token_word
    (n : Nat)
    (s : List UInt8) :
    token (fun c => isLineEnd c || isBlank c) n s =
      ((line s).takeWhile fun c => !isBlank c).take n := by
  unfold token line
  rw [List.takeWhile_takeWhile]
  congr 2
  funext c
  rw [Bool.not_or, Bool.and_comm, Bool.decide_and,
    Bool.decide_eq_true, Bool.decide_eq_true]

/- Copying the rest stops at the end of the line. -/
theorem token_rest
    (n : Nat)
    (s : List UInt8) :
    token isLineEnd n s = (line s).take n :=
  rfl

------------------------------------------------------------
-- Splitting
------------------------------------------------------------

/- `parse_cmd_args`: what it leaves in the two arrays. -/
def parseCmdArgs
    (input : List UInt8)
    (cmd : ByteMem)
    (cmdMax : UInt32)
    (args : ByteMem)
    (argsMax : UInt32) : ByteMem × ByteMem :=
  let s := input.dropWhile isBlank
  let (s, cmdLen, cmd) :=
    copyUntil (fun c => isLineEnd c || isBlank c)
      (cmdMax - 1).toNat s 0 cmd
  let cmd := cmd.storeByte cmdLen 0
  let s := s.dropWhile isBlank
  let (_, argsLen, args) :=
    copyUntil isLineEnd (argsMax - 1).toNat s 0 args
  let argsLen := trimmedLength isBlank args argsLen
  (cmd, args.storeByte argsLen 0)

/- The characters behind a word, cut to the second array. -/
def argsCopy
    (l : List UInt8)
    (cmdMax argsMax : Nat) : List UInt8 :=
  (((l.dropWhile isBlank).drop (cutWord l cmdMax).length).dropWhile
    isBlank).take (argsMax - 1)

/- The text of the arguments. -/
def argsText
    (l : List UInt8)
    (cmdMax argsMax : Nat) : List UInt8 :=
  (argsCopy l cmdMax argsMax).rdropWhile isBlank

theorem argsCopy_length_lt
    (l : List UInt8)
    (cmdMax : Nat)
    {argsMax : Nat}
    (hMax : 0 < argsMax) :
    (argsCopy l cmdMax argsMax).length < argsMax := by
  have hTake : (argsCopy l cmdMax argsMax).length ≤ argsMax - 1 :=
    List.length_take_le _ _
  omega

theorem argsText_length_lt
    (l : List UInt8)
    (cmdMax : Nat)
    {argsMax : Nat}
    (hMax : 0 < argsMax) :
    (argsText l cmdMax argsMax).length < argsMax :=
  Nat.lt_of_le_of_lt (List.rdropWhile_prefix isBlank _).length_le
    (argsCopy_length_lt l cmdMax hMax)

/- Both texts depend on the line only. -/
theorem parseCmdArgs_eq
    {cmdMax argsMax : UInt32}
    (hCmd : 1 ≤ cmdMax)
    (hArgs : 1 ≤ argsMax)
    (input : List UInt8)
    (cmd args : ByteMem) :
    parseCmdArgs input cmd cmdMax args argsMax =
      (stored (cutWord (line input) cmdMax.toNat) cmd,
        (args.storeBlock 0
          (argsCopy (line input) cmdMax.toNat
            argsMax.toNat).length
          (ofList (argsCopy (line input) cmdMax.toNat
            argsMax.toNat))).storeByte
          (argsText (line input) cmdMax.toNat
            argsMax.toNat).length 0) := by
  have hCmdRoom : (cmdMax - 1).toNat = cmdMax.toNat - 1 :=
    UInt32.toNat_sub_of_le cmdMax 1 hCmd
  have hArgsRoom : (argsMax - 1).toNat = argsMax.toNat - 1 :=
    UInt32.toNat_sub_of_le argsMax 1 hArgs
  have hWord :
      token (fun c => isLineEnd c || isBlank c)
          (cmdMax.toNat - 1) (input.dropWhile isBlank) =
        cutWord (line input) cmdMax.toNat := by
    rw [token_word, line_dropWhile]
    rfl
  have hInside :
      (cutWord (line input) cmdMax.toNat).length ≤
        (line (input.dropWhile isBlank)).length := by
    rw [line_dropWhile, cutWord, firstWord]
    exact ((List.take_prefix _ _).trans
      (List.takeWhile_prefix _)).length_le
  have hRest :
      token isLineEnd (argsMax.toNat - 1)
          (((input.dropWhile isBlank).drop
            (cutWord (line input)
              cmdMax.toNat).length).dropWhile isBlank) =
        argsCopy (line input) cmdMax.toNat argsMax.toNat := by
    rw [token_rest, line_dropWhile, line_drop hInside,
      line_dropWhile]
    rfl
  unfold parseCmdArgs
  simp only
  rw [copyUntil_eq, hCmdRoom, Nat.sub_zero, hWord]
  simp only
  rw [copyUntil_eq, hArgsRoom, Nat.sub_zero, hRest]
  simp only [Nat.zero_add]
  rw [trimmedLength_stored]
  rfl

/- Whatever the line, both arrays hold strings then. -/
theorem parseCmdArgs_endsIn
    {cmdMax argsMax : UInt32}
    (hCmd : 1 ≤ cmdMax)
    (hArgs : 1 ≤ argsMax)
    (input : List UInt8)
    (cmd args : ByteMem) :
    EndsIn cmdMax.toNat cmd
        (parseCmdArgs input cmd cmdMax args argsMax).1 ∧
      EndsIn argsMax.toNat args
        (parseCmdArgs input cmd cmdMax args argsMax).2 := by
  have hWord := cutWord_length_lt (line input) (toNat_pos hCmd)
  have hCopy :=
    argsCopy_length_lt (line input) cmdMax.toNat
      (toNat_pos hArgs)
  have hText :=
    argsText_length_lt (line input) cmdMax.toNat
      (toNat_pos hArgs)
  rw [parseCmdArgs_eq hCmd hArgs]
  exact ⟨endsIn_storeByte _ _ (Nat.le_of_lt hWord) hWord,
    endsIn_storeByte _ _ (Nat.le_of_lt hCopy) hText⟩

theorem mem_of_mem_cutWord
    {c : UInt8}
    {l : List UInt8}
    {max : Nat}
    (hMem : c ∈ cutWord l max) :
    c ∈ l :=
  mem_of_mem_firstWord (List.mem_of_mem_take hMem)

theorem mem_of_mem_argsCopy
    {c : UInt8}
    {l : List UInt8}
    {cmdMax argsMax : Nat}
    (hMem : c ∈ argsCopy l cmdMax argsMax) :
    c ∈ l :=
  (List.dropWhile_suffix isBlank).mem
    (List.mem_of_mem_drop
      ((List.dropWhile_suffix isBlank).mem
        (List.mem_of_mem_take hMem)))

theorem stringIn_parseCmdArgs
    {cmdMax argsMax : UInt32}
    {input : List UInt8}
    (hCmd : 1 ≤ cmdMax)
    (hArgs : 1 ≤ argsMax)
    (hString : 0 ∉ input)
    (cmd args : ByteMem) :
    stringIn (parseCmdArgs input cmd cmdMax args argsMax).1
          cmdMax.toNat =
        cutWord (line input) cmdMax.toNat ∧
      stringIn (parseCmdArgs input cmd cmdMax args argsMax).2
          argsMax.toNat =
        argsText (line input) cmdMax.toNat argsMax.toNat := by
  have hLine : 0 ∉ line input := fun hMem =>
    hString ((List.takeWhile_prefix _).mem hMem)
  have hCopy :=
    argsCopy_length_lt (line input) cmdMax.toNat
      (toNat_pos hArgs)
  rw [parseCmdArgs_eq hCmd hArgs]
  constructor
  · exact stringIn_stored cmd
      (fun hMem => hLine (mem_of_mem_cutWord hMem))
      (cutWord_length_lt _ (toNat_pos hCmd))
  · exact stringIn_trimmed isBlank args
      (fun hMem => hLine (mem_of_mem_argsCopy hMem)) hCopy

------------------------------------------------------------
-- Lines That Fit
------------------------------------------------------------

/- A first word and a rest that have room in the arrays. -/
def LineFits
    (l : List UInt8)
    (cmdMax argsMax : Nat) : Prop :=
  (firstWord isBlank l).length ≤ cmdMax - 1 ∧
    ((afterWord isBlank l).dropWhile isBlank).length ≤
      argsMax - 1

section LineFits

variable {l : List UInt8} {cmdMax argsMax : Nat}

theorem cutWord_eq
    (hFits : LineFits l cmdMax argsMax) :
    cutWord l cmdMax = firstWord isBlank l :=
  List.take_of_length_le hFits.1

theorem argsText_eq
    (hFits : LineFits l cmdMax argsMax) :
    argsText l cmdMax argsMax =
      trim isBlank (afterWord isBlank l) := by
  unfold argsText argsCopy
  rw [cutWord_eq hFits, drop_firstWord,
    List.take_of_length_le hFits.2]
  rfl

/- The joined texts are a line that fits as well. -/
theorem rejoin_fits
    (hFits : LineFits l cmdMax argsMax) :
    LineFits (rejoin isBlank 0x20 l) cmdMax argsMax := by
  have hTrim :=
    (List.rdropWhile_prefix isBlank
      ((afterWord isBlank l).dropWhile isBlank)).length_le
  constructor
  · rw [firstWord_rejoin rfl]
    exact hFits.1
  · rw [afterWord_rejoin rfl]
    exact Nat.le_trans hTrim hFits.2

theorem line_rejoin
    (s : List UInt8) :
    line (rejoin isBlank 0x20 (line s)) =
      rejoin isBlank 0x20 (line s) := by
  refine List.takeWhile_eq_self_iff.mpr fun c hMem => ?_
  rcases mem_rejoin hMem with rfl | hLine
  · rfl
  · exact List.mem_takeWhile_imp
      (p := fun c => !isLineEnd c) hLine

end LineFits

section Fitting

variable {input : List UInt8} {cmdMax argsMax : UInt32}

theorem stringIn_of_fits
    (hCmd : 1 ≤ cmdMax)
    (hArgs : 1 ≤ argsMax)
    (hString : 0 ∉ input)
    (hFits : LineFits (line input) cmdMax.toNat argsMax.toNat)
    (cmd args : ByteMem) :
    stringIn (parseCmdArgs input cmd cmdMax args argsMax).1
          cmdMax.toNat =
        firstWord isBlank (line input) ∧
      stringIn (parseCmdArgs input cmd cmdMax args argsMax).2
          argsMax.toNat =
        trim isBlank (afterWord isBlank (line input)) := by
  rw [← cutWord_eq hFits, ← argsText_eq hFits]
  exact stringIn_parseCmdArgs hCmd hArgs hString cmd args

/- Splitting the joined texts gives the two texts. -/
theorem stringIn_rejoin
    (hCmd : 1 ≤ cmdMax)
    (hArgs : 1 ≤ argsMax)
    (hString : 0 ∉ input)
    (hFits : LineFits (line input) cmdMax.toNat argsMax.toNat)
    (cmd args : ByteMem) :
    stringIn
          (parseCmdArgs (rejoin isBlank 0x20 (line input)) cmd
            cmdMax args argsMax).1
          cmdMax.toNat =
        firstWord isBlank (line input) ∧
      stringIn
          (parseCmdArgs (rejoin isBlank 0x20 (line input)) cmd
            cmdMax args argsMax).2
          argsMax.toNat =
        trim isBlank (afterWord isBlank (line input)) := by
  have hJoined : 0 ∉ rejoin isBlank 0x20 (line input) := by
    intro hMem
    rcases mem_rejoin hMem with hBlank | hLine
    · exact absurd hBlank (by decide)
    · exact hString ((List.takeWhile_prefix _).mem hLine)
  have hFits' := rejoin_fits hFits
  rw [← line_rejoin input] at hFits'
  have hTexts :=
    stringIn_of_fits hCmd hArgs hJoined hFits' cmd args
  rw [line_rejoin, firstWord_rejoin rfl,
    trim_afterWord_rejoin rfl] at hTexts
  exact hTexts

end Fitting

/-
  Both arrays end with a zero inside of them.  If the line
  fits, they hold its first word and what is behind it
  without the blanks at both ends, and the two texts joined
  by a blank are split into themselves.
-/
theorem parseCmdArgs_exact
    (input : CString)
    (cmd args cmd' args' : ByteMem) :
    let split := parseCmdArgs input.chars cmd 64 args 448
    let first := stringIn split.1 64
    let rest := stringIn split.2 448
    let again := parseCmdArgs (first ++ 0x20 :: rest) cmd' 64
      args' 448
    EndsIn 64 cmd split.1 ∧ EndsIn 448 args split.2 ∧
      ((firstWord isBlank (line input.chars)).length ≤ 63 →
        ((afterWord isBlank (line input.chars)).dropWhile
          isBlank).length ≤ 447 →
        first = firstWord isBlank (line input.chars) ∧
          rest =
            trim isBlank (afterWord isBlank (line input.chars)) ∧
          stringIn again.1 64 = first ∧
          stringIn again.2 448 = rest) := by
  intro split first rest again
  have hCmd : (1 : UInt32) ≤ 64 := by decide
  have hArgs : (1 : UInt32) ≤ 448 := by decide
  have hEnds : EndsIn 64 cmd split.1 ∧ EndsIn 448 args split.2 :=
    parseCmdArgs_endsIn hCmd hArgs input.chars cmd args
  refine ⟨hEnds.1, hEnds.2, fun hFirst hRest => ?_⟩
  have hFits :
      LineFits (line input.chars) (64 : UInt32).toNat
        (448 : UInt32).toNat :=
    ⟨hFirst, hRest⟩
  have hTexts :
      first = firstWord isBlank (line input.chars) ∧
        rest =
          trim isBlank (afterWord isBlank (line input.chars)) :=
    stringIn_of_fits hCmd hArgs input.ended hFits cmd args
  have hJoined :
      first ++ 0x20 :: rest =
        rejoin isBlank 0x20 (line input.chars) := by
    rw [hTexts.1, hTexts.2]
    rfl
  have hAgain :
      stringIn again.1 64 =
          firstWord isBlank (line input.chars) ∧
        stringIn again.2 448 =
          trim isBlank (afterWord isBlank (line input.chars)) := by
    unfold again
    rw [hJoined]
    exact stringIn_rejoin hCmd hArgs input.ended hFits cmd' args'
  exact ⟨hTexts.1, hTexts.2, hAgain.1.trans hTexts.1.symm,
    hAgain.2.trans hTexts.2.symm⟩

/- The command `ls` with two words, blanks and a line end. -/
def listLine : CString :=
  ⟨[0x20, 0x6C, 0x73, 0x20, 0x20, 0x61, 0x20, 0x62, 0x09, 0x0D],
    by decide⟩

theorem parseCmdArgs_exact_list :
    let split := parseCmdArgs listLine.chars zeros 64 zeros 448
    let again :=
      parseCmdArgs
        (stringIn split.1 64 ++ 0x20 :: stringIn split.2 448)
        zeros 64 zeros 448
    stringIn split.1 64 = [0x6C, 0x73] ∧
      stringIn split.2 448 = [0x61, 0x20, 0x62] ∧
      stringIn again.1 64 = [0x6C, 0x73] ∧
      stringIn again.2 448 = [0x61, 0x20, 0x62] := by
  intro split again
  have hTexts :=
    (parseCmdArgs_exact listLine zeros zeros zeros zeros).2.2
      (by decide) (by decide)
  have hWord :
      firstWord isBlank (line listLine.chars) = [0x6C, 0x73] := by
    decide
  have hRest :
      trim isBlank (afterWord isBlank (line listLine.chars)) =
        [0x61, 0x20, 0x62] := by
    decide
  rw [hWord, hRest] at hTexts
  exact ⟨hTexts.1, hTexts.2.1, hTexts.2.2.1.trans hTexts.1,
    hTexts.2.2.2.trans hTexts.2.1⟩

end Shell

end AsmOS
