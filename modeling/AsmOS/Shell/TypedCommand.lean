import AsmOS.Console.LineInput
import AsmOS.Shell.CommandLine

/-
  A command that is typed at the prompt.

  The shell reads a line of up to 511 characters and splits
  it.  What it finds are the words of the edited line, on the
  PC for all that is typed, and on the PS2 as long as the
  line is never full.

  Main declarations:
    * `SplitsInto`
    * `stored_splits`
    * `x86_typed_splits`, `ps2_typed_splits`
-/

------------------------------------------------------------
-- Lines In The Shell's Buffer
------------------------------------------------------------

namespace AsmOS

namespace Shell

open ByteMem Words Console LineEdit

/- `sizeof(input)`. -/
abbrev inputMax : Int32 := 512

/-
  The input in the buffer is split into the first word of a
  text and what is behind it, without the blanks at its ends.
-/
def SplitsInto
    (input : ByteMem)
    (text : List UInt8) : Prop :=
  ∀ cmd args,
    let split := parseCmdArgs (stringIn input 512) cmd 64 args 448
    stringIn split.1 64 = firstWord isBlank text ∧
      stringIn split.2 448 = trim isBlank (afterWord isBlank text)

theorem inputMax_pos :
    0 < inputMax := by
  decide

section Stored

variable {es : List (Edit UInt8)}

theorem printable_editLine
    {room : Nat}
    (hPrintable : ∀ e ∈ es, Printable e) :
    ∀ c ∈ editLine room [] es, 0x20 ≤ c ∧ c < 0x7F := by
  intro c hMem
  rcases mem_editLine hMem with hNone | hTyped
  · exact absurd hNone List.not_mem_nil
  · exact hPrintable _ hTyped

/- A line of printable characters has no end inside of it. -/
theorem line_printable
    {text : List UInt8}
    (hPrintable : ∀ c ∈ text, 0x20 ≤ c ∧ c < 0x7F) :
    line text = text := by
  refine List.takeWhile_eq_self_iff.mpr fun c hMem => ?_
  have hLow := (hPrintable c hMem).1
  unfold isLineEnd
  rw [Bool.not_eq_true', Bool.or_eq_false_iff]
  constructor
  · refine beq_eq_false_iff_ne.mpr ?_
    rintro rfl
    exact absurd hLow (by decide)
  · refine beq_eq_false_iff_ne.mpr ?_
    rintro rfl
    exact absurd hLow (by decide)

/- An edited line that was stored is the string that is split. -/
theorem stored_splits
    {buf : Nat → UInt8}
    {s : LineState}
    (hStored :
      Stored inputMax buf (editLine (lineRoom inputMax) [] es) s)
    (hPrintable : ∀ e ∈ es, Printable e)
    (hFits :
      LineFits (editLine (lineRoom inputMax) [] es) 64 448) :
    SplitsInto s.buf (editLine (lineRoom inputMax) [] es) := by
  intro cmd args
  have hChars :
      ∀ c ∈ editLine (lineRoom inputMax) [] es,
        0x20 ≤ c ∧ c < 0x7F :=
    printable_editLine hPrintable
  generalize hText : editLine (lineRoom inputMax) [] es = text
    at hStored hFits hChars ⊢
  have hString : 0 ∉ text := fun hMem =>
    absurd (hChars 0 hMem).1 (by decide)
  have hShort : text.length < 512 := by
    have hRoom : lineRoom inputMax = 511 := rfl
    have hNone : ([] : List UInt8).length ≤ lineRoom inputMax :=
      Nat.zero_le _
    have hLength := editLine_length_le hNone es
    rw [hText, hRoom] at hLength
    omega
  have hSlice : ByteMem.slice s.buf 0 text.length = text := by
    unfold ByteMem.slice
    simp only [Nat.zero_add]
    exact hStored.text
  have hInput : stringIn s.buf 512 = text :=
    stringIn_eq hSlice hStored.ending hString hShort
  have hCmd : (1 : UInt32) ≤ 64 := by decide
  have hArgs : (1 : UInt32) ≤ 448 := by decide
  have hLine : line text = text := line_printable hChars
  have hFits' :
      LineFits (line text) (64 : UInt32).toNat
        (448 : UInt32).toNat :=
    hLine.symm ▸ hFits
  have hTexts :=
    stringIn_of_fits hCmd hArgs hString hFits' cmd args
  rw [hLine] at hTexts
  intro split
  unfold split
  rw [hInput]
  exact hTexts

/- On the PC every line that fits is split so. -/
theorem x86_typed_splits
    {shiftDown : UInt32}
    {codes : List UInt8}
    (hEdits : editsOf scanKey shiftDown codes = some es)
    (hFits :
      LineFits (editLine (lineRoom inputMax) [] es) 64 448)
    (buf : Nat → UInt8)
    (later : List UInt8) :
    ∃ s shiftDown',
      X86.sysReadLine inputMax.toUInt32 shiftDown buf
          (codes ++ 0x1C :: later) =
        some (s, shiftDown', later) ∧
      SplitsInto s.buf (editLine (lineRoom inputMax) [] es) := by
  rcases x86_reads inputMax_pos shiftDown buf later hEdits with
    ⟨s, shiftDown', hGot, hStored, _⟩
  exact ⟨s, shiftDown', hGot,
    stored_splits hStored (scanEdits_printable hEdits) hFits⟩

/- On the PS2 so is a printable line that is never full. -/
theorem ps2_typed_splits
    {input : List (Option UInt8)}
    {enter : Option UInt8}
    (hEdits : editsOf charKey () input = some es)
    (hEnter : charKey () enter = .enter)
    (hPrintable : ∀ e ∈ es, Printable e)
    (hNever : NeverFull (lineRoom inputMax) [] es)
    (hFits :
      LineFits (editLine (lineRoom inputMax) [] es) 64 448)
    (buf : Nat → UInt8)
    (later : List (Option UInt8)) :
    ∃ s,
      Ps2.sysReadLine inputMax buf (input ++ enter :: later) =
        some (s, later) ∧
      SplitsInto s.buf (editLine (lineRoom inputMax) [] es) := by
  rcases ps2_reads inputMax_pos hNever buf later hEdits hEnter with
    ⟨s, hGot, hStored, _⟩
  exact ⟨s, hGot, stored_splits hStored hPrintable hFits⟩

end Stored

end Shell

end AsmOS
