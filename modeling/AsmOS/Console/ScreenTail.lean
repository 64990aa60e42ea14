import Mathlib.Logic.Function.Basic
import AsmOS.Console.Screen

/-
  The text console shows the tail of an unbounded page.

  A screen shows a page from a row on when its cells are
  those of the page below that row and its cursor is at the
  page's end.  Writing keeps the row; a full screen moves it
  down by one and copies the buffer up.

  Main declarations:
    * `scroll_full`
    * `ShowsFrom`, `ShowsFrom.store`, `ShowsFrom.scroll`
    * `Shows`, `Shows.emitChar`
    * `PrintCall.text`, `printed_shows`
-/

------------------------------------------------------------
-- Loops Over Cells
------------------------------------------------------------

namespace AsmOS

namespace Console

/- A screen with other cells. -/
def Screen.withCells
    (s : Screen)
    (cells : Nat → UInt16) : Screen :=
  { s with vgaBuffer := cells }

section Loops

variable {s : Screen}
variable {cells cells' : Nat → UInt16}
variable {value : UInt16}
variable {index src : Nat}

theorem withCells_congr
    (hCells : ∀ i, cells i = cells' i) :
    s.withCells cells = s.withCells cells' := by
  rw [funext hCells]

theorem withCells_of_same
    (hCells : ∀ i, cells i = s.vgaBuffer i) :
    s.withCells cells = s := by
  rw [funext hCells]
  rfl

theorem storeCell_withCells
    (hIndex : index < 2000) :
    storeCell (s.withCells cells) index value =
      some (s.withCells (Function.update cells index value)) :=
  if_pos hIndex

theorem copyCell_withCells
    (hIndex : index < 2000)
    (hSrc : src < 2000) :
    copyCell (s.withCells cells) index src =
      some (s.withCells
        (Function.update cells index (cells src))) :=
  (if_pos hSrc).trans (storeCell_withCells hIndex)

theorem foldlM_range_succ
    {σ : Type}
    (f : σ → Nat → Option σ)
    (s : σ)
    (n : Nat) :
    (List.range (n + 1)).foldlM f s =
      ((List.range n).foldlM f s).bind fun s => f s n := by
  rw [List.range_succ, List.foldlM_append]
  cases (List.range n).foldlM f s with
  | none => rfl
  | some s' => simp

/-
  A loop over consecutive cells, from `start` on.  No turn
  changes a cell that a later one reads or sets.
-/
theorem fillRange_eq
    (start : Nat)
    {fill : Nat → UInt16}
    {step : Screen → Nat → Option Screen}
    (n : Nat)
    (hStep :
      ∀ k, k < n → ∀ cells : Nat → UInt16,
        (∀ j, start + k ≤ j → cells j = s.vgaBuffer j) →
          step (s.withCells cells) k =
            some (s.withCells
              (Function.update cells (start + k)
                (fill (start + k))))) :
    (List.range n).foldlM step s =
      some (s.withCells fun i =>
        if start ≤ i ∧ i < start + n then fill i
        else s.vgaBuffer i) := by
  induction n with
  | zero =>
      refine congrArg some (withCells_of_same fun i => ?_).symm
      rw [if_neg (by omega)]
  | succ n ih =>
      have hLater :
          ∀ j, start + n ≤ j →
            (if start ≤ j ∧ j < start + n then fill j
              else s.vgaBuffer j) = s.vgaBuffer j :=
        fun j hj => if_neg (by omega)
      rw [foldlM_range_succ,
        ih fun k hk => hStep k (Nat.lt_succ_of_lt hk),
        Option.bind_some, hStep n (Nat.lt_succ_self n) _ hLater]
      refine congrArg some (withCells_congr fun i => ?_)
      rw [Function.update_apply]
      by_cases hHere : i = start + n
      · rw [if_pos hHere, if_pos (by omega), hHere]
      · rw [if_neg hHere]
        by_cases hOld : start ≤ i ∧ i < start + n
        · rw [if_pos hOld, if_pos (by omega)]
        · rw [if_neg hOld, if_neg (by omega)]

/- A loop that stores one value to consecutive cells. -/
theorem storeRange_eq
    (start n : Nat)
    (hBound : start + n ≤ 2000) :
    (List.range n).foldlM (fun s i =>
        storeCell s (start + i) value) s =
      some (s.withCells fun i =>
        if start ≤ i ∧ i < start + n then value
        else s.vgaBuffer i) :=
  fillRange_eq start n fun _ _ _ _ =>
    storeCell_withCells (by omega)

/- The first `n` cells of a row are copied up. -/
theorem copyRange_eq
    (row n : Nat)
    (hLo : 1 ≤ row)
    (hHi : row ≤ 24)
    (hn : n ≤ 80) :
    (List.range n).foldlM (fun s col =>
        copyCell s ((row - 1) * vgaWidth + col)
          (row * vgaWidth + col)) s =
      some (s.withCells fun i =>
        if (row - 1) * 80 ≤ i ∧ i < (row - 1) * 80 + n then
          s.vgaBuffer (i + 80)
        else s.vgaBuffer i) := by
  refine fillRange_eq ((row - 1) * 80) n
    fun k hk cells hLater => ?_
  -- The source lies in the row below.
  have hSource : row * 80 + k = (row - 1) * 80 + k + 80 := by
    omega
  have hIndex : (row - 1) * 80 + k < 2000 := by omega
  have hBelow : row * 80 + k < 2000 := by omega
  dsimp only [vgaWidth]
  rw [copyCell_withCells hIndex hBelow, hSource,
    hLater _ (Nat.le_add_right _ 80)]

/- The first `k` rows are replaced by those below them. -/
theorem scrollRows_eq
    (k : Nat)
    (hk : k ≤ 24) :
    (List.range' 1 k).foldlM scrollRow s =
      some (s.withCells fun i =>
        if i < k * 80 then s.vgaBuffer (i + 80)
        else s.vgaBuffer i) := by
  induction k with
  | zero =>
      refine congrArg some (withCells_of_same fun i => ?_).symm
      rw [if_neg (by omega)]
  | succ k ih =>
      rw [List.range'_concat, List.foldlM_append, ih (by omega)]
      simp only [List.foldlM_cons, List.foldlM_nil, Nat.one_mul,
        Option.bind_eq_bind, Option.bind_some]
      rw [scrollRow,
        copyRange_eq (1 + k) 80 (by omega) (by omega)
          (Nat.le_refl 80)]
      refine congrArg some (withCells_congr fun i => ?_)
      simp only [Screen.withCells]
      rw [Nat.add_sub_cancel_left]
      by_cases hBelow : i < k * 80
      · rw [if_neg (by omega), if_pos hBelow,
          if_pos (by omega)]
      · by_cases hRow : k * 80 ≤ i ∧ i < k * 80 + 80
        · rw [if_pos hRow, if_neg (by omega),
            if_pos (by omega)]
        · rw [if_neg hRow, if_neg hBelow, if_neg (by omega)]

/- A cell once the rows are moved up and the last one blanked. -/
theorem scrolled_cell
    {i : Nat}
    {up : Prop}
    [Decidable up]
    (hUp : up ↔ i < 1920)
    (blank next cell : UInt16) :
    (if 1920 ≤ i ∧ i < 1920 + 80 then blank
      else if up then next else cell) =
      if i < 1920 then next else if i < 2000 then blank
        else cell := by
  by_cases hMoved : i < 1920
  · rw [if_neg (by omega), if_pos (hUp.mpr hMoved),
      if_pos hMoved]
  · rw [if_neg hMoved]
    by_cases hLast : i < 2000
    · rw [if_pos (by omega), if_pos hLast]
    · rw [if_neg (by omega), if_neg (mt hUp.mp hMoved),
        if_neg hLast]

/- What scrolling a full screen leaves. -/
theorem scroll_full
    (hFull : 25 ≤ s.cursorRow) :
    scroll s =
      some
        { vgaBuffer := fun i =>
            if i < 1920 then s.vgaBuffer (i + 80)
            else if i < 2000 then blankCell
            else s.vgaBuffer i
          cursorRow := 24
          cursorCol := s.cursorCol } := by
  have hBlank :
      ∀ s : Screen, blankLastRow s =
        some (s.withCells fun i =>
          if 1920 ≤ i ∧ i < 1920 + 80 then blankCell
          else s.vgaBuffer i) :=
    fun s => storeRange_eq 1920 80 (by omega)
  rw [scroll, if_pos hFull,
    scrollRows_eq (vgaHeight - 1) (by decide),
    Option.bind_some, hBlank, Option.map_some]
  refine congrArg some ?_
  simp only [Screen.withCells, Screen.mk.injEq, and_true]
  refine ⟨?_, rfl⟩
  funext i
  have hUp : i < (vgaHeight - 1) * 80 ↔ i < 1920 := Iff.rfl
  exact scrolled_cell hUp _ _ _

/- A screen that is not full is left as it is. -/
theorem scroll_short
    (hShort : s.cursorRow < 25) :
    scroll s = some s := by
  rw [scroll, if_neg (Nat.not_le.mpr hShort)]

end Loops

------------------------------------------------------------
-- Screens And Pages
------------------------------------------------------------

/- A place of the page; unwritten places are blank. -/
def pageCell
    (t : TextPage UInt16)
    (r c : Nat) : UInt16 :=
  t.cellAt blankCell r c

/- The screen shows the page from the row `top` on. -/
structure ShowsFrom
    (t : TextPage UInt16)
    (top : Nat)
    (s : Screen) : Prop where
  row : s.cursorRow + top = t.above.length
  col : s.cursorCol = t.line.length
  width : t.line.length < 80
  cells :
    ∀ r < 25, ∀ c < 80,
      s.vgaBuffer (r * 80 + c) = pageCell t (top + r) c

/-
  The screen shows the last 25 rows of the page, its cursor
  at the end of the page.
-/
def Shows
    (t : TextPage UInt16)
    (s : Screen) : Prop :=
  ShowsFrom t (t.rows.length - 25) s

section Simulation

variable {t : TextPage UInt16}
variable {s : Screen}
variable {top : Nat}

theorem Shows.cursorRow_lt
    (hShows : Shows t s) :
    s.cursorRow < 25 := by
  have hRow := hShows.row
  rw [TextPage.rows_length] at hRow
  omega

theorem Shows.cursorCol_lt
    (hShows : Shows t s) :
    s.cursorCol < 80 := by
  rw [hShows.col]
  exact hShows.width

/- Beginning a row moves the cursor only. -/
theorem ShowsFrom.newline
    (hRow : s.cursorRow + top = t.above.length)
    (hCells :
      ∀ r < 25, ∀ c < 80,
        s.vgaBuffer (r * 80 + c) = pageCell t (top + r) c) :
    ShowsFrom t.newline top
      { s with
        cursorRow := s.cursorRow + 1
        cursorCol := 0 } where
  row := by
    simp only [TextPage.newline, List.length_append,
      List.length_singleton]
    omega
  col := rfl
  width := Nat.succ_pos 79
  cells := by
    intro r hr c hc
    rw [pageCell, TextPage.cellAt_newline]
    exact hCells r hr c hc

/- A store at the cursor extends the last row. -/
theorem ShowsFrom.store
    (hShows : ShowsFrom t top s)
    (value : UInt16) :
    ∀ r < 25, ∀ c < 80,
      Function.update s.vgaBuffer
          (s.cursorRow * 80 + s.cursorCol) value (r * 80 + c) =
        pageCell { t with line := t.line ++ [value] } (top + r)
          c := by
  intro r hr c hc
  have hEnd := hShows.row
  have hCol := hShows.col
  have hWidth := hShows.width
  rw [Function.update_apply, pageCell, TextPage.cellAt_extend]
  by_cases hHere : r = s.cursorRow ∧ c = s.cursorCol
  · rw [if_pos (by omega), if_pos (by omega)]
  · rw [if_neg (by omega), if_neg (by omega)]
    exact hShows.cells r hr c hc

/-
  Scrolling makes room when the page has begun a row below
  the screen.
-/
theorem ShowsFrom.scroll
    (hShows : ShowsFrom t top s)
    (hTop : top = t.above.length - 25 ∨
      top = t.above.length - 24)
    (hFresh : s.cursorRow = 25 → t.line = []) :
    ∃ s', Console.scroll s = some s' ∧ Shows t s' := by
  have hEnd := hShows.row
  by_cases hFull : 25 ≤ s.cursorRow
  · have hRow : s.cursorRow = 25 := by omega
    refine ⟨_, scroll_full hFull, ?_⟩
    unfold Shows
    rw [TextPage.rows_length]
    refine ⟨by dsimp only; omega, hShows.col, hShows.width, ?_⟩
    intro r hr c hc
    dsimp only
    by_cases hLast : r = 24
    · -- The row that was begun is empty.
      have hBottom :
          t.above.length + 1 - 25 + r = t.above.length := by
        omega
      rw [if_neg (by omega), if_pos (by omega), pageCell,
        hBottom, TextPage.cellAt_line, hFresh hRow]
      rfl
    · rw [if_pos (by omega),
        show r * 80 + c + 80 = (r + 1) * 80 + c by omega,
        hShows.cells (r + 1) (by omega) c hc]
      congr 1
      omega
  · refine ⟨s, scroll_short (by omega), ?_⟩
    unfold Shows
    rw [TextPage.rows_length]
    have hSame : t.above.length + 1 - 25 = top := by omega
    rw [hSame]
    exact hShows

end Simulation

------------------------------------------------------------
-- Printing
------------------------------------------------------------

/- A character on the page: its code under its color. -/
def TextPage.type
    (t : TextPage UInt16)
    (color c : UInt8) : TextPage UInt16 :=
  if c = 0x0A then
    t.newline
  else
    t.put 80 ((color.toUInt16 <<< 8) ||| c.toUInt16)

section Printing

variable {t : TextPage UInt16}
variable {s : Screen}

/- What a character other than a newline does. -/
theorem emitChar_of_ne
    {c : UInt8}
    (hBreak : c ≠ 0x0A)
    (color : UInt8)
    (hRow : s.cursorRow < 25)
    (hCol : s.cursorCol < 80) :
    Console.emitChar s c color =
      if 80 ≤ s.cursorCol + 1 then
        scroll
          { vgaBuffer := Function.update s.vgaBuffer
              (s.cursorRow * 80 + s.cursorCol) (cell color c)
            cursorRow := s.cursorRow + 1
            cursorCol := 0 }
      else
        scroll
          { vgaBuffer := Function.update s.vgaBuffer
              (s.cursorRow * 80 + s.cursorCol) (cell color c)
            cursorRow := s.cursorRow
            cursorCol := s.cursorCol + 1 } := by
  have hStore :
      storeCell s (s.cursorRow * vgaWidth + s.cursorCol)
          (cell color c) =
        some (s.withCells
          (Function.update s.vgaBuffer
            (s.cursorRow * 80 + s.cursorCol)
            (cell color c))) := by
    refine storeCell_withCells (s := s) ?_
    simp only [vgaWidth]
    omega
  rw [Console.emitChar, if_neg hBreak, hStore]
  rfl

/- One character on the screen and on the page. -/
theorem Shows.emitChar
    (hShows : Shows t s)
    {c : UInt8}
    (hAscii : c < 0x80)
    (color : UInt8) :
    ∃ s', Console.emitChar s c color = some s' ∧
      Shows (TextPage.type t color c) s' := by
  have hRow := hShows.cursorRow_lt
  have hCol := hShows.cursorCol_lt
  have hLength : t.rows.length = t.above.length + 1 :=
    TextPage.rows_length
  have hEnd := ShowsFrom.row hShows
  have hLine := ShowsFrom.col hShows
  unfold TextPage.type
  by_cases hBreak : c = 0x0A
  · rw [Console.emitChar, if_pos hBreak, if_pos hBreak]
    refine (ShowsFrom.newline hEnd
      (ShowsFrom.cells hShows)).scroll ?_ fun _ => rfl
    refine Or.inl ?_
    simp only [TextPage.newline, List.length_append,
      List.length_singleton, hLength]
  · have hCell :
        cell color c =
          (color.toUInt16 <<< 8) ||| c.toUInt16 := by
      rw [cell, charCell, if_pos hAscii]
    have hCells := ShowsFrom.store hShows (cell color c)
    rw [if_neg hBreak, emitChar_of_ne hBreak color hRow hCol,
      ← hCell]
    by_cases hWrap : 80 ≤ s.cursorCol + 1
    · -- The row is full: the page begins the next one too.
      rw [if_pos hWrap, TextPage.put_of_le (by omega)]
      have hBegun :=
        ShowsFrom.newline
          (s := s.withCells (Function.update s.vgaBuffer
            (s.cursorRow * 80 + s.cursorCol) (cell color c)))
          (t := { t with line := t.line ++ [cell color c] })
          hEnd hCells
      refine hBegun.scroll (Or.inl ?_) fun _ => rfl
      simp only [TextPage.newline, List.length_append,
        List.length_singleton, hLength]
    · rw [if_neg hWrap, TextPage.put_of_lt (by omega)]
      have hMoved :
          ShowsFrom { t with line := t.line ++ [cell color c] }
            (t.rows.length - 25)
            { vgaBuffer := Function.update s.vgaBuffer
                (s.cursorRow * 80 + s.cursorCol) (cell color c)
              cursorRow := s.cursorRow
              cursorCol := s.cursorCol + 1 } := by
        refine ⟨hEnd, ?_, ?_, hCells⟩
        · simp only [List.length_append, List.length_singleton,
            hLine]
        · simp only [List.length_append, List.length_singleton]
          omega
      refine hMoved.scroll (Or.inr ?_) ?_
      · simp only [hLength]
        omega
      · intro hFull
        have hBelow : s.cursorRow = 25 := hFull
        omega

/- `clear_screen` shows the empty page. -/
theorem clearScreen_shows
    (s0 : Screen) :
    ∃ s, clearScreen s0 = some s ∧ Shows TextPage.empty s := by
  have hCleared :
      (List.range 2000).foldlM (fun s i =>
          storeCell s (0 + i) blankCell) s0 =
        some (s0.withCells fun i =>
          if 0 ≤ i ∧ i < 0 + 2000 then blankCell
          else s0.vgaBuffer i) :=
    storeRange_eq 0 2000 (Nat.le_refl 2000)
  simp only [Nat.zero_add] at hCleared
  refine ⟨_, by
    rw [clearScreen, show vgaWidth * vgaHeight = 2000 from rfl,
      hCleared, Option.map_some], rfl, rfl, Nat.succ_pos 79, ?_⟩
  intro r hr c hc
  dsimp only [Screen.withCells]
  rw [if_pos (by omega), pageCell]
  by_cases hTop : r = 0
  · subst hTop
    rfl
  · symm
    refine TextPage.cellAt_of_le ?_
    simp only [TextPage.empty, TextPage.rows_length,
      List.length_nil]
    omega

------------------------------------------------------------
-- Calls
------------------------------------------------------------

/- The bytes of a string before the zero that ends it. -/
def cString
    (str : List UInt8) : List UInt8 :=
  str.takeWhile (· != 0)

/- What a call prints: colors and characters. -/
def PrintCall.text :
    PrintCall → List (UInt8 × UInt8)
| .kprint str => (cString str).map fun c => (defaultColor, c)
| .kprintColor str color => (cString str).map fun c => (color, c)
| .putchar c => [(defaultColor, c)]

/- Every byte of a call is below `0x80`. -/
def PrintCall.Ascii :
    PrintCall → Prop
| .kprint str => ∀ c ∈ str, c < 0x80
| .kprintColor str _ => ∀ c ∈ str, c < 0x80
| .putchar c => c < 0x80

/- The page after some characters. -/
def typed
    (t : TextPage UInt16)
    (text : List (UInt8 × UInt8)) : TextPage UInt16 :=
  text.foldl (fun t p => TextPage.type t p.1 p.2) t

/- `kprint` is `kprint_color` in the default color. -/
theorem kprint_eq
    (str : List UInt8) :
    kprint s str = kprintColor defaultColor s str := by
  induction str generalizing s with
  | nil => rfl
  | cons c str ih =>
      simp only [kprint, kprintColor, ih]
      rfl

/- A string on the screen and on the page. -/
theorem Shows.kprintColor
    (hShows : Shows t s)
    (color : UInt8)
    (str : List UInt8)
    (hAscii : ∀ c ∈ str, c < 0x80) :
    ∃ s', Console.kprintColor color s str = some s' ∧
      Shows (typed t ((cString str).map fun c => (color, c)))
        s' := by
  induction str generalizing t s with
  | nil => exact ⟨s, rfl, hShows⟩
  | cons c str ih =>
      by_cases hStop : c = 0
      · subst hStop
        exact ⟨s, rfl, hShows⟩
      · obtain ⟨s1, hEmit, hShows1⟩ :=
          hShows.emitChar (hAscii c List.mem_cons_self) color
        obtain ⟨s2, hRest, hShows2⟩ :=
          ih hShows1 fun d hd =>
            hAscii d (List.mem_cons_of_mem c hd)
        refine ⟨s2, ?_, ?_⟩
        · rw [Console.kprintColor, if_pos hStop,
            kprintCharColor, hEmit, Option.bind_some, hRest]
        · have hText : cString (c :: str) = c :: cString str :=
            List.takeWhile_cons_of_pos (by simpa using hStop)
          rw [hText]
          exact hShows2

/- A call on the screen and on the page. -/
theorem Shows.run
    (hShows : Shows t s)
    (call : PrintCall)
    (hAscii : call.Ascii) :
    ∃ s', PrintCall.run s call = some s' ∧
      Shows (typed t call.text) s' := by
  cases call with
  | kprint str =>
      obtain ⟨s', hRun, hShows'⟩ :=
        hShows.kprintColor defaultColor str hAscii
      exact ⟨s', (kprint_eq str).trans hRun, hShows'⟩
  | kprintColor str color =>
      exact hShows.kprintColor color str hAscii
  | putchar c => exact hShows.emitChar hAscii defaultColor

/- Any calls, one after the other. -/
theorem Shows.runs
    (hShows : Shows t s)
    (calls : List PrintCall)
    (hAscii : ∀ call ∈ calls, call.Ascii) :
    ∃ s', calls.foldlM PrintCall.run s = some s' ∧
      Shows (typed t (calls.flatMap PrintCall.text)) s' := by
  induction calls generalizing t s with
  | nil => exact ⟨s, rfl, hShows⟩
  | cons call calls ih =>
      obtain ⟨s1, hRun, hShows1⟩ :=
        hShows.run call (hAscii call List.mem_cons_self)
      obtain ⟨s2, hRest, hShows2⟩ :=
        ih hShows1 fun other hOther =>
          hAscii other (List.mem_cons_of_mem call hOther)
      refine ⟨s2, ?_, ?_⟩
      · rw [List.foldlM_cons, hRun]
        exact hRest
      · rw [List.flatMap_cons, typed, List.foldl_append]
        exact hShows2

/-
  After `clear_screen` and any calls on bytes below `0x80`
  no store was outside the buffer, the cursor is on the
  screen, and the screen shows the last 25 rows of all that
  was printed.
-/
theorem printed_shows
    (s0 : Screen)
    (calls : List PrintCall)
    (hAscii : ∀ call ∈ calls, call.Ascii) :
    ∃ s, printed s0 calls = some s ∧
      s.cursorRow < 25 ∧ s.cursorCol < 80 ∧
      Shows
        (typed TextPage.empty
          (calls.flatMap PrintCall.text)) s := by
  obtain ⟨s1, hClear, hShows1⟩ := clearScreen_shows s0
  obtain ⟨s, hCalls, hShows⟩ := hShows1.runs calls hAscii
  refine ⟨s, ?_, hShows.cursorRow_lt, hShows.cursorCol_lt,
    hShows⟩
  rw [printed, hClear, Option.bind_some, hCalls]

/- Thirty newlines and a colored word. -/
theorem printed_shows_newlines :
    ∃ s, printed ⟨fun _ => 0, 3, 4⟩
        [.kprint (List.replicate 30 0x0A),
          .kprintColor [0x4F, 0x4B, 0x00] 0x0A,
          .putchar 0x21] = some s ∧
      s.cursorRow < 25 ∧ s.cursorCol < 80 ∧
      Shows
        (typed TextPage.empty
          ([.kprint (List.replicate 30 0x0A),
            .kprintColor [0x4F, 0x4B, 0x00] 0x0A,
            .putchar 0x21].flatMap PrintCall.text)) s := by
  refine printed_shows ⟨fun _ => 0, 3, 4⟩
    [.kprint (List.replicate 30 0x0A),
      .kprintColor [0x4F, 0x4B, 0x00] 0x0A,
      .putchar 0x21] ?_
  intro call hCall
  simp only [List.mem_cons, List.not_mem_nil, or_false] at hCall
  rcases hCall with rfl | rfl | rfl
  · intro c hc
    rw [List.eq_of_mem_replicate hc]
    decide
  · intro c hc
    simp only [List.mem_cons, List.not_mem_nil, or_false] at hc
    rcases hc with rfl | rfl | rfl
    · decide
    · decide
    · decide
  · simp only [PrintCall.Ascii]
    decide

end Printing

end Console

end AsmOS
