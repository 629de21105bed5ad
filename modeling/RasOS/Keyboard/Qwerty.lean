import RasOS.Kernel.System

set_option autoImplicit false

/-! # The keyboard driver (`keyboard/qwerty.c`, `keyboard/keyboard.c`, `idt/idt.c`)

The handler of the keyboard's interrupt turns a scan code into a character and pushes it for the foreground
process. It reads the port twice. The check of the scan code lets one pass that is just behind the table. -/

namespace RasOS

open Machine

/-! ## The code -/

abbrev PS2_PORT : UInt16 := 0x64
abbrev PS2_COMMAND_ENABLE_FIRST_PORT : UInt8 := 0xAE
abbrev QWERTY_KEYBOARD_KEY_RELEASED : UInt8 := 0x80
abbrev ISR_KEYBOARD_INTERRUPT : Int := 0x21

def keyboard_scan_set_one : List UInt8 := [
  0x00, 0x1B, 0x31, 0x32, 0x33, 0x34, 0x35, -- 1 to 5
  0x36, 0x37, 0x38, 0x39, 0x30, 0x2D, 0x3D, -- 6 to 0, - =
  0x08, 0x09, 0x51, 0x57, 0x45, 0x52, 0x54, -- Q W E R T
  0x59, 0x55, 0x49, 0x4F, 0x50, 0x5B, 0x5D, -- Y U I O P [ ]
  0x0d, 0x00, 0x41, 0x53, 0x44, 0x46, 0x47, -- A S D F G
  0x48, 0x4A, 0x4B, 0x4C, 0x3B, 0x27, 0x60, -- H J K L ; quote backquote
  0x00, 0x5C, 0x5A, 0x58, 0x43, 0x56, 0x42, -- backslash, Z X C V B
  0x4E, 0x4D, 0x2C, 0x2E, 0x2F, 0x00, 0x2A, -- N M , . / and *
  0x00, 0x20, 0x00, 0x00, 0x00, 0x00,
  0x00, 0x00, 0x00, 0x00, 0x00, 0x00,
  0x00, 0x37, 0x38, 0x39, 0x2D, 0x34, 0x35, -- 7 8 9 - 4 5
  0x36, 0x2B, 0x31, 0x32, 0x33, 0x30, 0x2E] -- 6 + 1 2 3 0 .

/-- `qwerty_keyboard_scancode_to_char`; `behind` is the byte behind the table. -/
def qwertyKeyboardScancodeToChar (behind scancode : UInt8) : UInt8 :=
  if scancode.toNat > keyboard_scan_set_one.length then 0
  else (keyboard_scan_set_one[scancode.toNat]?).getD behind

/-- The character of a key, if it has one, is pushed. -/
def pushTyped (c : UInt8) : SystemM Unit := if c ≠ 0 then onKernel (keyboardPush c) else return ()

/-- `qwerty_keyboard_handle_interrupt`. -/
def qwertyKeyboardHandleInterrupt : SystemM Unit := do
  System.kernelPage
  let scancode ← insbKeyboard
  let _ ← insbKeyboard
  if scancode &&& QWERTY_KEYBOARD_KEY_RELEASED ≠ 0 then
    return ()
  else do
    let behind ← fun s => some (s.behind_scan_set, s)
    pushTyped (qwertyKeyboardScancodeToChar behind scancode)
    let _ ← taskPage
    return ()

/-- The function behind an entry of `interrupt_callbacks`. -/
def InterruptCallback.run : InterruptCallback → SystemM Unit
  | qwertyKeyboardHandleInterrupt => RasOS.qwertyKeyboardHandleInterrupt

/-- `idt_register_interrupt_callback`. -/
def idtRegisterInterruptCallback (interrupt : Int) (interrupt_callback : InterruptCallback) : SystemM Int :=
  if interrupt < 0 ∨ interrupt ≥ RASOS_TOTAL_INTERRUPTS then
    return - EINVARG
  else fun s => some (OK, { s with
    interrupt_callbacks := Function.update s.interrupt_callbacks interrupt.toNat (some interrupt_callback) })

/-- `qwerty_keyboard_init`. -/
def qwertyKeyboardInit : SystemM Int := do
  let _ ← idtRegisterInterruptCallback ISR_KEYBOARD_INTERRUPT .qwertyKeyboardHandleInterrupt
  System.outb PS2_PORT PS2_COMMAND_ENABLE_FIRST_PORT
  return 0

end RasOS
