import RasOS.Memory.Paging
import RasOS.Loader.Elf

set_option autoImplicit false

/-! # Tasks (`task/task.c`)

The tasks form a doubly linked list from `task_head` to `task_tail`; `current_task` is one of
them. -/

namespace RasOS

open Machine

def taskCurrent : KernelM UInt32 := fetch fun s => s.current_task

/-- The flags of the pages of a new task. -/
def taskFlags : UInt32 := PAGING_IS_PRESENT ||| PAGING_ACCESS_BY_ALL

/-- The instruction pointer `task_init` sets. -/
def taskEntry (process : Process) : KernelM UInt32 :=
  if process.filetype = PROCESS_FILETYPE_ELF then do
    let header ← elfHeader process.ptr
    return header.e_entry
  else
    return RASOS_PROGRAM_VIRTUAL_ADDRESS

/-- `task_init` from the point where the task has its directory. -/
def taskInitRegisters (task process : UInt32) : KernelM Int := do
  let p ← load processK process
  let ip ← taskEntry p
  let t ← load taskK task
  store taskK task { t with
    registers := { t.registers with
      ip := ip
      ss := USER_DATA_SEGMENT
      cs := USER_CODE_SEGMENT
      esp := RASOS_PROGRAM_VIRTUAL_STACK_ADDRESS_BOTTOM }
    process := process }
  return OK

def taskInit (task process : UInt32) : KernelM Int := do
  store taskK task {}
  let page_directory ← pagingNew4gb taskFlags
  let t ← load taskK task
  store taskK task { t with page_directory := page_directory }
  if page_directory = 0 then
    return - EIO
  else
    taskInitRegisters task process

def taskGetNext : KernelM UInt32 := do
  let current ← taskCurrent
  let t ← load taskK current
  if t.next = 0 then fetch fun s => s.task_head else return t.next

/-- The first statement of `task_list_remove`. -/
def taskUnlink (task : UInt32) : KernelM Unit := do
  let t ← load taskK task
  let head ← fetch fun s => s.task_head
  if t.prev ≠ 0 then do
    let p ← load taskK t.prev
    store taskK t.prev { p with next := t.next }
  else if task = head then
    assign fun s => { s with task_head := t.next }
  else
    return ()

def taskListRemove (task : UInt32) : KernelM Unit := do
  taskUnlink task
  let current ← taskCurrent
  if task = current then do
    let next ← taskGetNext
    assign fun s => { s with current_task := next }
  else
    return ()

def taskFree (task : UInt32) : KernelM Int := do
  let t ← load taskK task
  pagingFree4gb t.page_directory
  taskListRemove task
  kfree taskK task
  return OK

/-- `task_new` from the point where the task is initialised: it becomes the last one. -/
def taskAppend (task : UInt32) : KernelM UInt32 := do
  let head ← fetch fun s => s.task_head
  if head = 0 then do
    assign fun s => { s with task_head := task, task_tail := task, current_task := task }
    return task
  else do
    let tail ← fetch fun s => s.task_tail
    let last ← load taskK tail
    store taskK tail { last with next := task }
    let t ← load taskK task
    store taskK task { t with prev := tail }
    assign fun s => { s with task_tail := task }
    return task

/-- `task_new`: a task, or an error code as a pointer. -/
def taskNew (process : UInt32) : KernelM UInt32 := do
  let task ← kzalloc taskK SIZEOF_TASK {}
  let res ← if task = 0 then pure (- ENOMEM) else taskInit task process
  if res ≠ OK then do
    let _ ← taskFree task
    return ERROR res
  else
    taskAppend task

def taskSwitch (task : UInt32) : KernelM Int := do
  assign fun s => { s with current_task := task }
  let t ← load taskK task
  pagingSwitch t.page_directory
  return OK

end RasOS
