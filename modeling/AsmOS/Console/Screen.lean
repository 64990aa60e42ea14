import AsmOS.Base.TextPage

/-
  The text console of the PC build (`src/kernel.c`): a
  buffer of 25 rows of 80 cells and a cursor.

  Every access to the buffer is checked; a call returns
  nothing when one falls outside its 2000 cells.

  Main declarations:
    * `Screen`, `storeCell`, `copyCell`
    * `scroll`, `emitChar`
    * `kprintChar`, `kprintCharColor`, `putchar`
    * `kprint`, `kprintColor`, `clearScreen`
-/

------------------------------------------------------------
-- The Buffer
------------------------------------------------------------

namespace AsmOS

namespace Console

abbrev vgaWidth : Nat := 80
abbrev vgaHeight : Nat := 25
abbrev defaultColor : UInt8 := 0x07

/- `vga_buffer`, `cursor_row` and `cursor_col`. -/
structure Screen where
  vgaBuffer : Nat → UInt16
  cursorRow : Nat
  cursorCol : Nat

/- A `char` as an `int`, cut to a cell. -/
def charCell
    (c : UInt8) : UInt16 :=
  if c < 0x80 then c.toUInt16 else 0xFF00 ||| c.toUInt16

/- `((uint16_t)color << 8) | c`. -/
def cell
    (color c : UInt8) : UInt16 :=
  (color.toUInt16 <<< 8) ||| charCell c

/- `((uint16_t)DEFAULT_COLOR << 8) | ' '`. -/
def blankCell : UInt16 :=
  cell defaultColor 0x20

/- `vga_buffer[index] = value`. -/
def storeCell
    (s : Screen)
    (index : Nat)
    (value : UInt16) : Option Screen :=
  if index < vgaWidth * vgaHeight then
    some { s with
      vgaBuffer := Function.update s.vgaBuffer index value }
  else
    none

/- `vga_buffer[dst] = vga_buffer[src]`. -/
def copyCell
    (s : Screen)
    (dst src : Nat) : Option Screen :=
  if src < vgaWidth * vgaHeight then
    storeCell s dst (s.vgaBuffer src)
  else
    none

------------------------------------------------------------
-- Scrolling
------------------------------------------------------------

/- One turn of the loop over the rows. -/
def scrollRow
    (s : Screen)
    (row : Nat) : Option Screen :=
  (List.range vgaWidth).foldlM (fun s col =>
    copyCell s ((row - 1) * vgaWidth + col)
      (row * vgaWidth + col)) s

/- The loop that blanks the last row. -/
def blankLastRow
    (s : Screen) : Option Screen :=
  (List.range vgaWidth).foldlM (fun s col =>
    storeCell s ((vgaHeight - 1) * vgaWidth + col) blankCell) s

/- The scrolling every output routine ends with. -/
def scroll
    (s : Screen) : Option Screen :=
  if s.cursorRow ≥ vgaHeight then
    ((List.range' 1 (vgaHeight - 1)).foldlM scrollRow s).bind
      fun s =>
        (blankLastRow s).map fun s =>
          { s with cursorRow := vgaHeight - 1 }
  else
    some s

------------------------------------------------------------
-- Output
------------------------------------------------------------

/-
  One character in a color: the body that `kprint_char`,
  `kprint_char_color` and `putchar` share.
-/
def emitChar
    (s : Screen)
    (c color : UInt8) : Option Screen :=
  if c = 0x0A then
    scroll { s with
      cursorRow := s.cursorRow + 1
      cursorCol := 0 }
  else
    (storeCell s (s.cursorRow * vgaWidth + s.cursorCol)
        (cell color c)).bind fun s =>
      if s.cursorCol + 1 ≥ vgaWidth then
        scroll { s with
          cursorRow := s.cursorRow + 1
          cursorCol := 0 }
      else
        scroll { s with cursorCol := s.cursorCol + 1 }

/- `kprint_char`. -/
def kprintChar
    (s : Screen)
    (c : UInt8) : Option Screen :=
  emitChar s c defaultColor

/- `kprint_char_color`. -/
def kprintCharColor
    (s : Screen)
    (c color : UInt8) : Option Screen :=
  emitChar s c color

/- `putchar`. -/
def putchar
    (s : Screen)
    (c : UInt8) : Option Screen :=
  emitChar s c defaultColor

/- `kprint`, which stops at the first zero byte. -/
def kprint
    (s : Screen) :
    List UInt8 → Option Screen
| [] => some s
| c :: str =>
    if c ≠ 0 then
      (kprintChar s c).bind fun s => kprint s str
    else
      some s

/- `kprint_color`. -/
def kprintColor
    (color : UInt8)
    (s : Screen) :
    List UInt8 → Option Screen
| [] => some s
| c :: str =>
    if c ≠ 0 then
      (kprintCharColor s c color).bind fun s =>
        kprintColor color s str
    else
      some s

/- `clear_screen`. -/
def clearScreen
    (s : Screen) : Option Screen :=
  ((List.range (vgaWidth * vgaHeight)).foldlM (fun s i =>
    storeCell s i blankCell) s).map fun s =>
      { s with
        cursorRow := 0
        cursorCol := 0 }

/- A call of one of the output routines. -/
inductive PrintCall where
| kprint (str : List UInt8)
| kprintColor (str : List UInt8) (color : UInt8)
| putchar (c : UInt8)
deriving DecidableEq, Repr

def PrintCall.run
    (s : Screen) :
    PrintCall → Option Screen
| .kprint str => Console.kprint s str
| .kprintColor str color => Console.kprintColor color s str
| .putchar c => Console.putchar s c

/- `clear_screen` and then some calls. -/
def printed
    (s : Screen)
    (calls : List PrintCall) : Option Screen :=
  (clearScreen s).bind fun s => calls.foldlM PrintCall.run s

end Console

end AsmOS
