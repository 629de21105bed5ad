import RasOS.Kernel.System

set_option autoImplicit false

/-! # System calls (`isr80h/isr80h.c`, `isr80h/syscalls.c`, `idt/idt.c`)

The handlers are kept in a table of `RASOS_MAX_ISR80H_COMMANDS` entries. A number without an entry is answered
with 0, whatever the program has asked for. -/

namespace RasOS

open Machine

/-! ## The commands -/

/-- `isr80h_command0_sum`. The compiler adds as the processor does. -/
def isr80hCommand0Sum : SystemM UInt32 := do
  let v2 ← System.taskGetStackItem 1
  let v1 ← System.taskGetStackItem 0
  return v1 + v2

/-- `isr80h_command1_print`. -/
def System.isr80hCommand1Print : SystemM UInt32 := do
  let s ← fun s => some (s, s)
  let str ← onKernel (RasOS.isr80hCommand1PrintBy s.toKernelPage s.print_buf)
  kernelRegisters -- in `task_get_stack_item` and `copy_string_from_task`
  fun s => some ((), { s with terminal := terminalPrint s.terminal str })
  return 0

/-- `isr80h_command2_getkey`. A `char` is signed. -/
def isr80hCommand2Getkey : SystemM UInt32 := do
  let c ← onKernel keyboardPop
  return UInt32.ofInt c.toInt8.toInt

/-- `isr80h_command3_putchar`. -/
def isr80hCommand3Putchar : SystemM UInt32 := do
  let c ← System.taskGetStackItem 0
  fun s => some ((), { s with terminal := terminalDefaultPutchar s.terminal c.toUInt8 15 })
  return 0

/-- The function behind an entry. -/
def Isr80hCommand.run : Isr80hCommand → SystemM UInt32
  | sum => isr80hCommand0Sum
  | print => System.isr80hCommand1Print
  | getkey => isr80hCommand2Getkey
  | putchar => isr80hCommand3Putchar

/-! ## The table -/

abbrev SYSTEM_COMMAND0_SUM : Int := 0
abbrev SYSTEM_COMMAND1_PRINT : Int := 1
abbrev SYSTEM_COMMAND2_GETKEY : Int := 2
abbrev SYSTEM_COMMAND3_PUTCHAR : Int := 3

def isr80hRegisterCommand (command_id : Int) (command : Isr80hCommand) : SystemM Unit := do
  if command_id < 0 ∨ command_id ≥ RASOS_MAX_ISR80H_COMMANDS then
    panic "Invalid command_id in registeration\n"
  else do
    let isr80h_commands ← fun s => some (s.isr80h_commands, s)
    if isr80h_commands command_id.toNat ≠ none then
      panic "Command already taking in registeration\n"
    else
      fun s => some ((), { s with
        isr80h_commands := Function.update s.isr80h_commands command_id.toNat (some command) })

def isr80hRegisterCommands : SystemM Unit := do
  isr80hRegisterCommand SYSTEM_COMMAND0_SUM .sum
  isr80hRegisterCommand SYSTEM_COMMAND1_PRINT .print
  isr80hRegisterCommand SYSTEM_COMMAND2_GETKEY .getkey
  isr80hRegisterCommand SYSTEM_COMMAND3_PUTCHAR .putchar

/-- `isr80h_handle_command`. -/
def isr80hHandleCommand (command : Int) : SystemM UInt32 := do
  if command < 0 ∨ command ≥ RASOS_MAX_ISR80H_COMMANDS then
    return 0
  else do
    let isr80h_commands ← fun s => some (s.isr80h_commands, s)
    match isr80h_commands command.toNat with
    | none => return 0
    | some command_func => command_func.run

/-- `isr80h_handler`. -/
def isr80hHandler (command : Int) (frame : InterruptFrame) : SystemM UInt32 := do
  System.kernelPage
  taskCurrentSaveState frame
  let res ← isr80hHandleCommand command
  let _ ← taskPage
  return res

end RasOS
