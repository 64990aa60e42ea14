import AsmOS.Console.ScreenTail

/-
  The assembly output of the text console
  (`boot/arch_x86/vga_text.asm`) against the C routines
  (`src/kernel.c`).

  All of them move the cursor and scroll alike.  The C
  routines widen a signed `char`, so the bytes from 0x80 on
  overwrite the attribute of their cell.

  Main declarations:
    * `vgaPutchar`, `printString`
    * `expectedChar`
    * `vgaPutchar_eq`, `emitChar_eq`
    * `textOutput_agrees_iff`
-/

------------------------------------------------------------
-- The Assembly Routines
------------------------------------------------------------

namespace AsmOS

namespace Console

/- `rep movsw` with `ecx`, `edi` and `esi`, in cells. -/
def repMovsw :
    Nat → Nat → Nat → Screen → Option Screen
| 0, _, _, s => some s
| ecx + 1, edi, esi, s =>
    (copyCell s edi esi).bind fun s =>
      repMovsw ecx (edi + 1) (esi + 1) s

/- `rep stosw` with `ecx` and `edi`, in cells. -/
def repStosw
    (ax : UInt16) :
    Nat → Nat → Screen → Option Screen
| 0, _, s => some s
| ecx + 1, edi, s =>
    (storeCell s edi ax).bind fun s =>
      repStosw ax ecx (edi + 1) s

abbrev vgaAttr : UInt8 := 0x07

/- The register `ax` of its two halves. -/
def axWord
    (ah al : UInt8) : UInt16 :=
  (ah.toUInt16 <<< 8) ||| al.toUInt16

/- From the label `.scroll` on. -/
def vgaScroll
    (s : Screen) : Option Screen :=
  if s.cursorRow < vgaHeight then
    some s
  else
    (repMovsw (vgaWidth * (vgaHeight - 1)) 0 vgaWidth s).bind
      fun s =>
        (repStosw 0x0720 vgaWidth ((vgaHeight - 1) * vgaWidth)
            s).map fun s =>
          { s with cursorRow := vgaHeight - 1 }

/- `vga_putchar`. -/
def vgaPutchar
    (s : Screen)
    (al : UInt8) : Option Screen :=
  if al = 10 then
    vgaScroll { s with
      cursorRow := s.cursorRow + 1
      cursorCol := 0 }
  else if al = 8 then
    if s.cursorCol = 0 then
      some s
    else
      let col := s.cursorCol - 1
      storeCell { s with cursorCol := col }
        (s.cursorRow * vgaWidth + col) 0x0720
  else
    (storeCell s (s.cursorRow * vgaWidth + s.cursorCol)
        (axWord vgaAttr al)).bind fun s =>
      if s.cursorCol + 1 < vgaWidth then
        vgaScroll { s with cursorCol := s.cursorCol + 1 }
      else
        vgaScroll { s with
          cursorRow := s.cursorRow + 1
          cursorCol := 0 }

/- `print_string`, up to the first zero byte. -/
def printString
    (s : Screen) :
    List UInt8 → Option Screen
| [] => some s
| al :: str =>
    if al = 0 then
      some s
    else
      (vgaPutchar s al).bind fun s => printString s str

------------------------------------------------------------
-- Statements
------------------------------------------------------------

/- Where the cursor is behind a character, before scrolling. -/
def nextCursor
    (s : Screen)
    (c : UInt8) : Nat × Nat :=
  if c = 0x0A ∨ 80 ≤ s.cursorCol + 1 then (s.cursorRow + 1, 0)
  else (s.cursorRow, s.cursorCol + 1)

/- The cells behind a character, before scrolling. -/
def nextCells
    (s : Screen)
    (c : UInt8)
    (value : UInt16) : Nat → UInt16 :=
  if c = 0x0A then s.vgaBuffer
  else
    Function.update s.vgaBuffer
      (s.cursorRow * 80 + s.cursorCol) value

/-
  A screen behind a character whose cell gets some value: a
  cursor below the last row stays there, and all rows move up
  by one.  A cell outside of the buffer has no result.
-/
def changed
    (s : Screen)
    (c : UInt8)
    (value : UInt16) : Option Screen :=
  if c ≠ 0x0A ∧ 2000 ≤ s.cursorRow * 80 + s.cursorCol then
    none
  else if (nextCursor s c).1 < 25 then
    some
      ⟨nextCells s c value, (nextCursor s c).1,
        (nextCursor s c).2⟩
  else
    some
      ⟨fun i =>
          if i < 1920 then nextCells s c value (i + 80)
          else if i < 2000 then 0x0720
          else nextCells s c value i,
        24, (nextCursor s c).2⟩

/- The character's cell gets its byte under attribute 7. -/
def expectedChar
    (s : Screen)
    (c : UInt8) : Option Screen :=
  changed s c (0x0700 ||| c.toUInt16)

/- All output routines make the change of a character. -/
structure OutputAgrees
    (s : Screen)
    (c : UInt8) : Prop where
  putchar : putchar s c = expectedChar s c
  kprintChar : kprintChar s c = expectedChar s c
  kprintCharColor :
    kprintCharColor s c 0x07 = expectedChar s c
  vgaPutchar : vgaPutchar s c = expectedChar s c

------------------------------------------------------------
-- String Instructions
------------------------------------------------------------

section Strings

variable {s : Screen}

/- Cells are moved up by a row, from the first one on. -/
theorem repMovsw_eq
    (n edi : Nat)
    (hBound : edi + n ≤ 1920) :
    repMovsw n edi (edi + 80) s =
      some (s.withCells fun i =>
        if edi ≤ i ∧ i < edi + n then s.vgaBuffer (i + 80)
        else s.vgaBuffer i) := by
  induction n generalizing edi s with
  | zero =>
      refine congrArg some (withCells_of_same fun i => ?_).symm
      rw [if_neg (by omega)]
  | succ n ih =>
      have hCopy :
          copyCell s edi (edi + 80) =
            some (s.withCells
              (Function.update s.vgaBuffer edi
                (s.vgaBuffer (edi + 80)))) :=
        copyCell_withCells (s := s) (by omega) (by omega)
      have hNext := ih (edi + 1) (by omega)
        (s := s.withCells
          (Function.update s.vgaBuffer edi
            (s.vgaBuffer (edi + 80))))
      rw [Nat.add_right_comm] at hNext
      rw [repMovsw, hCopy, Option.bind_some, hNext]
      refine congrArg some (withCells_congr fun i => ?_)
      simp only [Screen.withCells, Function.update_apply]
      by_cases hHere : i = edi
      · rw [if_neg (by omega), if_pos hHere,
          if_pos (by omega), hHere]
      · rw [if_neg hHere]
        by_cases hLater : edi + 1 ≤ i ∧ i < edi + 1 + n
        · -- Only cells in front of the source were stored.
          rw [if_pos hLater, if_neg (by omega),
            if_pos (by omega)]
        · rw [if_neg hLater, if_neg (by omega)]

theorem repStosw_eq
    (ax : UInt16)
    (n edi : Nat)
    (hBound : edi + n ≤ 2000) :
    repStosw ax n edi s =
      some (s.withCells fun i =>
        if edi ≤ i ∧ i < edi + n then ax
        else s.vgaBuffer i) := by
  induction n generalizing edi s with
  | zero =>
      refine congrArg some (withCells_of_same fun i => ?_).symm
      rw [if_neg (by omega)]
  | succ n ih =>
      have hStore :
          storeCell s edi ax =
            some (s.withCells
              (Function.update s.vgaBuffer edi ax)) :=
        storeCell_withCells (s := s) (by omega)
      rw [repStosw, hStore, Option.bind_some,
        ih (edi + 1) (by omega)]
      refine congrArg some (withCells_congr fun i => ?_)
      simp only [Screen.withCells, Function.update_apply]
      by_cases hHere : i = edi
      · rw [if_neg (by omega), if_pos hHere, if_pos (by omega)]
      · rw [if_neg hHere]
        by_cases hLater : edi + 1 ≤ i ∧ i < edi + 1 + n
        · rw [if_pos hLater, if_pos (by omega)]
        · rw [if_neg hLater, if_neg (by omega)]

/- Both languages scroll alike. -/
theorem vgaScroll_eq
    (s : Screen) :
    vgaScroll s = scroll s := by
  unfold vgaScroll
  by_cases hShort : s.cursorRow < 25
  · rw [if_pos hShort, scroll_short hShort]
  · have hFull : 25 ≤ s.cursorRow := Nat.le_of_not_lt hShort
    rw [if_neg hShort, scroll_full hFull]
    have hMove :
        repMovsw (vgaWidth * (vgaHeight - 1)) 0 vgaWidth s =
          some (s.withCells fun i =>
            if 0 ≤ i ∧ i < 0 + 1920 then s.vgaBuffer (i + 80)
            else s.vgaBuffer i) :=
      repMovsw_eq 1920 0 (by omega)
    have hStore :
        ∀ t : Screen,
          repStosw 0x0720 vgaWidth ((vgaHeight - 1) * vgaWidth)
              t =
            some (t.withCells fun i =>
              if 1920 ≤ i ∧ i < 1920 + 80 then 0x0720
              else t.vgaBuffer i) :=
      fun t => repStosw_eq 0x0720 80 1920 (by omega)
    rw [hMove, Option.bind_some, hStore, Option.map_some]
    refine congrArg some ?_
    simp only [Screen.withCells, Screen.mk.injEq, and_true]
    refine ⟨?_, rfl⟩
    funext i
    have hBlank : blankCell = 0x0720 := by
      decide
    have hUp : 0 ≤ i ∧ i < 0 + 1920 ↔ i < 1920 := by
      omega
    rw [hBlank]
    exact scrolled_cell hUp _ _ _

end Strings

------------------------------------------------------------
-- Characters
------------------------------------------------------------

section Characters

variable {s : Screen} {c : UInt8}

/- Scrolling a screen with new cells and a new cursor. -/
theorem scroll_eq
    (cells : Nat → UInt16)
    (row col : Nat) :
    scroll ⟨cells, row, col⟩ =
      if row < 25 then some ⟨cells, row, col⟩
      else
        some
          ⟨fun i =>
              if i < 1920 then cells (i + 80)
              else if i < 2000 then 0x0720
              else cells i,
            24, col⟩ := by
  by_cases hShort : row < 25
  · rw [if_pos hShort]
    exact scroll_short hShort
  · rw [if_neg hShort, scroll_full (Nat.le_of_not_lt hShort)]
    rfl

/- A newline moves the cursor. -/
theorem changed_newline
    (s : Screen)
    (value : UInt16) :
    changed s 0x0A value =
      scroll { s with
        cursorRow := s.cursorRow + 1
        cursorCol := 0 } := by
  have hCursor : nextCursor s 0x0A = (s.cursorRow + 1, 0) :=
    if_pos (.inl rfl)
  have hCells : nextCells s 0x0A value = s.vgaBuffer :=
    if_pos rfl
  unfold changed
  rw [if_neg (fun hBoth => hBoth.1 rfl), hCursor, hCells]
  exact (scroll_eq _ _ _).symm

theorem changed_outside
    (hBreak : c ≠ 0x0A)
    (hOutside : 2000 ≤ s.cursorRow * 80 + s.cursorCol)
    (value : UInt16) :
    changed s c value = none :=
  if_pos ⟨hBreak, hOutside⟩

/- Any other character is stored, and moves the cursor. -/
theorem changed_of_ne
    (s : Screen)
    (hBreak : c ≠ 0x0A)
    (value : UInt16) :
    changed s c value =
      (storeCell s (s.cursorRow * vgaWidth + s.cursorCol)
          value).bind fun s =>
        if s.cursorCol + 1 ≥ vgaWidth then
          scroll { s with
            cursorRow := s.cursorRow + 1
            cursorCol := 0 }
        else
          scroll { s with cursorCol := s.cursorCol + 1 } := by
  by_cases hOutside : 2000 ≤ s.cursorRow * 80 + s.cursorCol
  · have hNone :
        storeCell s (s.cursorRow * vgaWidth + s.cursorCol)
            value =
          none :=
      if_neg (Nat.not_lt.mpr hOutside)
    rw [changed_outside hBreak hOutside, hNone]
    rfl
  · have hSome :
        storeCell s (s.cursorRow * vgaWidth + s.cursorCol)
            value =
          some (s.withCells
            (Function.update s.vgaBuffer
              (s.cursorRow * 80 + s.cursorCol) value)) :=
      if_pos (Nat.lt_of_not_le hOutside)
    have hCells :
        nextCells s c value =
          Function.update s.vgaBuffer
            (s.cursorRow * 80 + s.cursorCol) value :=
      if_neg hBreak
    unfold changed
    rw [hSome, Option.bind_some,
      if_neg (fun hBoth => hOutside hBoth.2), hCells]
    by_cases hWrap : 80 ≤ s.cursorCol + 1
    · have hCursor : nextCursor s c = (s.cursorRow + 1, 0) :=
        if_pos (.inr hWrap)
      rw [hCursor]
      exact ((if_pos hWrap).trans (scroll_eq _ _ _)).symm
    · have hCursor :
          nextCursor s c = (s.cursorRow, s.cursorCol + 1) :=
        if_neg (not_or.mpr ⟨hBreak, hWrap⟩)
      rw [hCursor]
      exact ((if_neg hWrap).trans (scroll_eq _ _ _)).symm

/- The C routines make a change with their own value. -/
theorem emitChar_eq
    (s : Screen)
    (c color : UInt8) :
    emitChar s c color = changed s c (cell color c) := by
  unfold emitChar
  by_cases hBreak : c = 0x0A
  · rw [if_pos hBreak, hBreak, changed_newline]
  · rw [if_neg hBreak, changed_of_ne s hBreak]

/- The assembly makes the expected change. -/
theorem vgaPutchar_eq
    (s : Screen)
    (hKey : c ≠ 8) :
    vgaPutchar s c = expectedChar s c := by
  have hWord : axWord vgaAttr c = 0x0700 ||| c.toUInt16 := rfl
  unfold vgaPutchar expectedChar
  by_cases hBreak : c = 0x0A
  · rw [if_pos hBreak, hBreak, changed_newline, vgaScroll_eq]
  · rw [if_neg hBreak, if_neg hKey, changed_of_ne s hBreak,
      hWord]
    congr 1
    funext t
    rw [vgaScroll_eq, vgaScroll_eq]
    by_cases hWrap : 80 ≤ t.cursorCol + 1
    · rw [if_neg (Nat.not_lt.mpr hWrap)]
      exact (if_pos hWrap).symm
    · rw [if_pos (Nat.lt_of_not_le hWrap)]
      exact (if_neg hWrap).symm

/- A change shows the value that it stores. -/
theorem changed_inj
    (hBreak : c ≠ 0x0A)
    (hInside : s.cursorRow * 80 + s.cursorCol < 2000)
    {v w : UInt16}
    (hSame : changed s c v = changed s c w) :
    v = w := by
  have hAt :
      ∀ u, nextCells s c u (s.cursorRow * 80 + s.cursorCol) =
        u := by
    intro u
    unfold nextCells
    rw [if_neg hBreak, Function.update_self]
  have hCell :
      ¬ (c ≠ 0x0A ∧
        2000 ≤ s.cursorRow * 80 + s.cursorCol) :=
    fun hBoth => Nat.not_le.mpr hInside hBoth.2
  unfold changed at hSame
  rw [if_neg hCell, if_neg hCell] at hSame
  by_cases hShort : (nextCursor s c).1 < 25
  · rw [if_pos hShort, if_pos hShort] at hSame
    have hCells :=
      congrArg
        (fun t => t.vgaBuffer
          (s.cursorRow * 80 + s.cursorCol))
        (Option.some.inj hSame)
    dsimp only at hCells
    rw [hAt, hAt] at hCells
    exact hCells
  · rw [if_neg hShort, if_neg hShort] at hSame
    have hLast : 24 ≤ s.cursorRow := by
      unfold nextCursor at hShort
      split at hShort
      · dsimp only at hShort
        omega
      · dsimp only at hShort
        omega
    have hCells :=
      congrArg
        (fun t => t.vgaBuffer
          (s.cursorRow * 80 + s.cursorCol - 80))
        (Option.some.inj hSame)
    dsimp only at hCells
    rw [if_pos (by omega), if_pos (by omega),
      Nat.sub_add_cancel (by omega), hAt, hAt] at hCells
    exact hCells

/- The C value is the expected one for a plain `char`. -/
theorem cell_seven_iff
    (c : UInt8) :
    cell 0x07 c = 0x0700 ||| c.toUInt16 ↔ c < 0x80 := by
  have hAll :
      ∀ n < 256,
        cell 0x07 (UInt8.ofNat n) =
            0x0700 ||| (UInt8.ofNat n).toUInt16 ↔
          UInt8.ofNat n < 0x80 := by
    decide +kernel
  have hByte := hAll c.toNat c.toNat_lt
  rw [UInt8.ofNat_toNat] at hByte
  exact hByte

theorem emitChar_expected_iff
    (s : Screen)
    (c : UInt8) :
    emitChar s c 0x07 = expectedChar s c ↔
      c < 0x80 ∨ 2000 ≤ s.cursorRow * 80 + s.cursorCol := by
  rw [emitChar_eq, expectedChar]
  constructor
  · intro hSame
    by_cases hBreak : c = 0x0A
    · rw [hBreak]
      exact .inl (by decide)
    · by_cases hOutside :
          2000 ≤ s.cursorRow * 80 + s.cursorCol
      · exact .inr hOutside
      · exact .inl ((cell_seven_iff c).mp
          (changed_inj hBreak (Nat.lt_of_not_le hOutside)
            hSame))
  · rintro (hPlain | hOutside)
    · rw [(cell_seven_iff c).mpr hPlain]
    · by_cases hBreak : c = 0x0A
      · rw [hBreak, changed_newline, changed_newline]
      · rw [changed_outside hBreak hOutside,
          changed_outside hBreak hOutside]

/- Strings of plain characters are printed alike. -/
theorem printString_eq
    (s : Screen)
    {str : List UInt8}
    (hPlain : ∀ c ∈ str, c < 0x80 ∧ c ≠ 8) :
    printString s str = kprint s str := by
  induction str generalizing s with
  | nil => rfl
  | cons c str ih =>
      rcases List.forall_mem_cons.mp hPlain with ⟨hFirst, hRest⟩
      have hSame : vgaPutchar s c = kprintChar s c := by
        rw [vgaPutchar_eq s hFirst.2]
        exact ((emitChar_expected_iff s c).mpr
          (.inl hFirst.1)).symm
      unfold printString kprint
      by_cases hEnd : c = 0
      · rw [if_pos hEnd, if_neg (not_not.mpr hEnd)]
      · rw [if_neg hEnd, if_pos hEnd, hSame]
        simp only [ih _ hRest]

end Characters

/-
  For a byte that is no backspace all output routines make
  the expected change exactly if the byte is plain, or its
  cell is outside of the buffer, where none has a result.
-/
theorem textOutput_agrees_iff
    (s : Screen)
    {c : UInt8}
    (hKey : c ≠ 8) :
    OutputAgrees s c ↔
      c < 0x80 ∨ 2000 ≤ s.cursorRow * 80 + s.cursorCol := by
  have hEmit := emitChar_expected_iff s c
  constructor
  · intro hAgrees
    exact hEmit.mp hAgrees.putchar
  · intro hPlain
    have hSame := hEmit.mpr hPlain
    exact ⟨hSame, hSame, hSame, vgaPutchar_eq s hKey⟩

/- The letter A on a screen with its cursor at the start. -/
theorem textOutput_agrees_letter :
    OutputAgrees ⟨fun _ => blankCell, 0, 0⟩ 0x41 :=
  (textOutput_agrees_iff ⟨fun _ => blankCell, 0, 0⟩
    (by decide)).mpr (.inl (by decide))

/- The byte 0x80 gets the attribute 0xFF in C. -/
theorem not_textOutput_agrees :
    ¬ OutputAgrees ⟨fun _ => blankCell, 0, 0⟩ 0x80 := by
  intro hAgrees
  have hSame := hAgrees.putchar
  have hPlain :=
    (emitChar_expected_iff ⟨fun _ => blankCell, 0, 0⟩
      0x80).mp hSame
  exact absurd hPlain (by decide)

end Console

end AsmOS
