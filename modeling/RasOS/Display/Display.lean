import RasOS.Config

set_option autoImplicit false

/-! # The text screen (`display/display.c`)

The cursor is a pair of 16-bit counters; nothing scrolls. `video_mem i` is the cell at index `i`
from `VIDEO_MEM_ADDR` on, whether or not the screen is that large. -/

namespace RasOS

abbrev VGA_WIDTH : Nat := 80
abbrev VGA_HEIGHT : Nat := 20

/-- The static variables of `display.c`. `written` are the indexes of `video_mem` stored to so far,
the last one first. -/
structure Terminal where
  video_mem : Nat → UInt16
  terminal_current_row : UInt16 := 0
  terminal_current_col : UInt16 := 0
  written : List Nat := []

/-- `terminal_make_char`. A `char` is signed: one above `0x7F` is extended over the colour. -/
def terminalMakeChar (c colour : UInt8) : UInt16 :=
  (colour.toInt8.toInt16 <<< 8 ||| c.toInt8.toInt16).toUInt16

def terminalPutchar (t : Terminal) (x y : Nat) (c colour : UInt8) : Terminal :=
  let i := y * VGA_WIDTH + x
  { t with
    video_mem := Function.update t.video_mem i (terminalMakeChar c colour)
    written := i :: t.written }

/-- The end of `terminal_default_putchar`, for a character other than newline and backspace. -/
def terminalAdvance (t : Terminal) (c colour : UInt8) : Terminal :=
  let t := terminalPutchar t t.terminal_current_col.toNat t.terminal_current_row.toNat c colour
  let col := t.terminal_current_col + 1
  if col.toNat ≥ VGA_WIDTH then
    { t with terminal_current_col := 0, terminal_current_row := t.terminal_current_row + 1 }
  else
    { t with terminal_current_col := col }

/-- `terminal_backspace`. Its call `terminal_default_putchar(' ', 15)` is for a character that is
neither a newline nor a backspace. -/
def terminalBackspace (t : Terminal) : Terminal :=
  if t.terminal_current_row = 0 ∧ t.terminal_current_col = 0 then
    t
  else
    let t :=
      if t.terminal_current_col = 0 then
        { t with
          terminal_current_row := t.terminal_current_row - 1
          terminal_current_col := UInt16.ofNat VGA_WIDTH }
      else t
    let t := { t with terminal_current_col := t.terminal_current_col - 1 }
    let t := terminalAdvance t 0x20 15
    { t with terminal_current_col := t.terminal_current_col - 1 }

def terminalDefaultPutchar (t : Terminal) (c colour : UInt8) : Terminal :=
  if c = 0x0A then
    { t with terminal_current_row := t.terminal_current_row + 1, terminal_current_col := 0 }
  else if c = 0x08 then
    terminalBackspace t
  else
    terminalAdvance t c colour

def terminalPrint (t : Terminal) (str : List UInt8) : Terminal :=
  str.foldl (fun t c => terminalDefaultPutchar t c 15) t

/-- `terminal_initialize`. The cursor is left where it is. -/
def terminalInitialize (t : Terminal) : Terminal :=
  (List.range VGA_HEIGHT).foldl (fun t y =>
    (List.range VGA_WIDTH).foldl (fun t x => terminalPutchar t x y 0x20 0) t) t

end RasOS
