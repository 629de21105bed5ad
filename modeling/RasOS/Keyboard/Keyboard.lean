import RasOS.Task.Task

set_option autoImplicit false

/-! # The keyboard buffer (`keyboard/keyboard.c`)

Each process has a ring of `RASOS_KEYBOARD_BUFFER_SIZE` characters; a zero cell is an empty one.
A key press goes to the foreground process, a read to the process of the current task. -/

namespace RasOS

open Machine

/-- The update `keyboard_push` makes for a character other than NUL. -/
def KeyboardBuffer.push (kb : KeyboardBuffer) (c : UInt8) : KeyboardBuffer :=
  let tail := kb.tail + 1
  { kb with
    buffer := Function.update kb.buffer kb.tail c
    tail := if tail ≥ RASOS_KEYBOARD_BUFFER_SIZE then 0 else tail }

/-- The update `keyboard_pop` makes: the head moves on, whether or not its cell holds anything. -/
def KeyboardBuffer.pop (kb : KeyboardBuffer) : UInt8 × KeyboardBuffer :=
  let head := kb.head + 1
  (kb.buffer kb.head, { kb with
    buffer := Function.update kb.buffer kb.head 0
    head := if head ≥ RASOS_KEYBOARD_BUFFER_SIZE then 0 else head })

/-- The update `keyboard_backspace` makes; the tail is where the next character should go. -/
def KeyboardBuffer.backspace (kb : KeyboardBuffer) : KeyboardBuffer :=
  let tail := if kb.tail - 1 < 0 then 0 else kb.tail - 1
  { kb with
    buffer := Function.update kb.buffer tail 0
    tail := tail }

def keyboardBackspace (process : UInt32) : KernelM Unit := do
  let p ← load processK process
  store processK process { p with keyboard := p.keyboard.backspace }

def keyboardPush (c : UInt8) : KernelM Unit := do
  let process ← fetch fun s => s.current_process
  if process = 0 then
    return ()
  else if c = 0 then
    return ()
  else do
    let p ← load processK process
    store processK process { p with keyboard := p.keyboard.push c }

def keyboardPop : KernelM UInt8 := do
  let task ← taskCurrent
  if task = 0 then
    return 0
  else do
    let t ← load taskK task
    let p ← load processK t.process
    let (ch, keyboard) := p.keyboard.pop
    store processK t.process { p with keyboard := keyboard }
    return ch

end RasOS
