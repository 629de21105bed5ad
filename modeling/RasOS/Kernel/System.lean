import RasOS.Display.Display
import RasOS.Isr80h.Print
import RasOS.Keyboard.Keyboard
import RasOS.Task.Return

set_option autoImplicit false

/-! # The kernel with its devices

The state of the kernel together with what is outside of its heap: the screen, the data segment registers, the
tables of handlers, and the ports. Of the ports the model has the byte that the keyboard controller shows at
`0x60`, with those that follow it, and the bytes written anywhere. -/

namespace RasOS

open Machine

/-- The functions that are registered as `INTERRUPT_CALLBACK_FUNCTION`. -/
inductive InterruptCallback
  | qwertyKeyboardHandleInterrupt
  deriving DecidableEq

/-- The functions that are registered as `ISR80H_COMMAND`. -/
inductive Isr80hCommand
  | sum
  | print
  | getkey
  | putchar
  deriving DecidableEq

/-- The output buffer of the keyboard controller: a byte that is read is replaced by the one behind it, the last
one stays. -/
structure Ps2 where
  data : UInt8
  pending : List UInt8
  deriving DecidableEq

def Ps2.read (d : Ps2) : UInt8 × Ps2 :=
  match d.pending with
  | [] => (d.data, d)
  | b :: pending => (b, ⟨b, pending⟩)

/-- `selectors` is what `ds`, `es`, `fs` and `gs` hold, `written` are the writes to ports, the last one first.
`chunk_variable` is the address of `kernel_chunk`; `image_end` is the page behind the image of the kernel and
`stack_begin` the first of the pages its stack may use. `print_buf` is the place of the buffer of
`isr80h_command1_print` on that stack, and `behind_scan_set` is the byte that follows `keyboard_scan_set_one`. -/
structure System where
  kernel : Kernel
  terminal : Terminal
  kernel_chunk : UInt32
  chunk_variable : UInt32
  image_end : Nat
  stack_begin : Nat
  selectors : UInt16
  interrupt_callbacks : Nat → Option InterruptCallback
  isr80h_commands : Nat → Option Isr80hCommand
  ps2 : Ps2
  written : List (UInt16 × UInt8)
  print_buf : UInt32
  behind_scan_set : UInt8

abbrev SystemM := Prog System

/-! ## Primitives -/

section Primitives

variable {α : Type}

/-- Code that has nothing to do with the devices. -/
def onKernel (x : KernelM α) : SystemM α := fun s => (x s.kernel).map fun r => (r.1, { s with kernel := r.2 })

theorem onKernel_of_some {x : KernelM α} {s : System} {a : α} {k : Kernel} (h : x s.kernel = some (a, k)) :
    onKernel x s = some (a, { s with kernel := k }) := by
  rw [onKernel, h]
  rfl

/-- `panic` prints its message and does not return. -/
def panic (_msg : String) : SystemM α := stop

end Primitives

/-- `outb` (`io/io.asm`). -/
def System.outb (port : UInt16) (data : UInt8) : SystemM Unit := fun s =>
  some ((), { s with written := (port, data) :: s.written })

/-- `insb` from the keyboard's port. -/
def insbKeyboard : SystemM UInt8 := fun s => some (s.ps2.read.1, { s with ps2 := s.ps2.read.2 })

/-- `kernel_registers` (`kernel.asm`). -/
def kernelRegisters : SystemM Unit := fun s => some ((), { s with selectors := 0x10 })

/-- `user_registers` (`task/task.asm`). -/
def userRegisters : SystemM Unit := fun s => some ((), { s with selectors := 0x23 })

/-! ## Changing sides (`kernel.c`, `task/task.c`) -/

/-- What `kernel_page` does to the kernel: the variable is read in the address space that is active. -/
def System.toKernelPage (s : System) : KernelM Unit := kernelPageAt s.chunk_variable s.kernel_chunk

/-- `kernel_page`. -/
def System.kernelPage : SystemM Unit := do
  kernelRegisters
  let s ← fun s => some (s, s)
  onKernel s.toKernelPage

/-- `task_page`. -/
def taskPage : SystemM Int := do
  userRegisters
  let current_task ← onKernel taskCurrent
  let _ ← onKernel (taskSwitch current_task)
  return 0

/-- `task_current_save_state`. -/
def taskCurrentSaveState (frame : InterruptFrame) : SystemM Unit := do
  let task ← onKernel taskCurrent
  if task = 0 then
    panic "No current task to save\n"
  else
    onKernel (taskSaveState task frame)

/-- `task_get_stack_item` of the current task. It reads as the task and comes back with `kernel_page`. -/
def System.taskGetStackItem (index : Int) : SystemM UInt32 := do
  let s ← fun s => some (s, s)
  let task ← onKernel taskCurrent
  let result ← onKernel (RasOS.taskGetStackItem s.toKernelPage task index)
  kernelRegisters
  return result

end RasOS
