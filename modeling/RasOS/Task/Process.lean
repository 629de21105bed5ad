import RasOS.Task.Task

set_option autoImplicit false

/-! # Processes (`task/process.c`) -/

namespace RasOS

open Machine

/-- `process_get`; `0` when the slot is free or does not exist. -/
def processGet (process_id : Int) : KernelM UInt32 :=
  if process_id < 0 ∨ process_id ≥ RASOS_MAX_PROCESSES then return 0
  else fetch fun s => s.processes process_id.toNat

/-- `process_load_binary` from the point where the file is open. -/
def processLoadBinaryOpened (process : UInt32) (fd : Int) : KernelM Int := do
  let (res, stat) ← fstat fd
  if res ≠ OK then
    return res
  else do
    let program_data_ptr ← kzallocBytes stat.filesize
    if program_data_ptr = 0 then
      return - ENOMEM
    else do
      let res ← fread program_data_ptr stat.filesize 1 fd
      if res ≠ 1 then
        return - EIO
      else do
        let p ← load processK process
        store processK process { p with
          filetype := PROCESS_FILETYPE_BINARY
          ptr := program_data_ptr
          size := stat.filesize }
        fclose fd

def processLoadBinary (filename : List UInt8) (process : UInt32) : KernelM Int := do
  let fd ← fopen filename [0x72]
  if fd = 0 then
    return - EIO
  else
    processLoadBinaryOpened process fd

def processLoadElf (filename : List UInt8) (process : UInt32) : KernelM Int := do
  let (res, file_out) ← elfLoad filename
  if res < 0 then
    return res
  else do
    let p ← load processK process
    store processK process { p with
      filetype := PROCESS_FILETYPE_ELF
      ptr := file_out.getD 0 }
    return res

def processLoadData (filename : List UInt8) (process : UInt32) : KernelM Int := do
  let res ← processLoadElf filename process
  if res = - EINFORMAT then
    processLoadBinary filename process
  else
    return res

/-- `process_map_binary`; the result of the mapping is dropped. -/
def processMapBinary (process : UInt32) : KernelM Int := do
  let p ← load processK process
  let t ← load taskK p.task
  let _ ← pagingMapTo t.page_directory RASOS_PROGRAM_VIRTUAL_ADDRESS p.ptr
    (pagingAlignAddress (p.ptr + p.size))
    (PAGING_IS_PRESENT ||| PAGING_ACCESS_BY_ALL ||| PAGING_IS_WRITABLE)
  return OK

/-- The flags of the pages of a program header. -/
def phdrFlags (phdr : Elf32Phdr) : UInt32 :=
  let flags := PAGING_IS_PRESENT ||| PAGING_ACCESS_BY_ALL
  if phdr.p_flags &&& PF_W ≠ 0 then flags ||| PAGING_IS_WRITABLE else flags

/-- The loop of `process_map_elf` over the headers `i`, …, `i + remaining - 1`. -/
def processMapElfLoop (page_directory elf_memory : UInt32) (header : ElfHeader) :
    (remaining i : Nat) → (res : Int) → KernelM Int
  | 0, _, res => return res
  | remaining + 1, i, _ => do
      let phdr ← fetch fun s => phdrAt s.mem (elfProgramHeader elf_memory header i)
      let phdr_phys_address := elfPhdrPhysAddress elf_memory phdr
      let res ← pagingMapTo page_directory
        (pagingAlignToLowerPage phdr.p_vaddr)
        (pagingAlignToLowerPage phdr_phys_address)
        (pagingAlignAddress (phdr_phys_address + phdr.p_filesz))
        (phdrFlags phdr)
      if res < 0 then
        return res
      else
        processMapElfLoop page_directory elf_memory header remaining (i + 1) res

def processMapElf (process : UInt32) : KernelM Int := do
  let p ← load processK process
  let header ← elfHeader p.ptr
  let file ← load elfFileK p.ptr
  if header.e_phnum = 0 then
    return OK
  else do
    let t ← load taskK p.task
    processMapElfLoop t.page_directory file.elf_memory header header.e_phnum.toNat 0 0

/-- `process_map_memory`. `panic` does not return. -/
def processMapMemory (process : UInt32) : KernelM Int := do
  let p ← load processK process
  if p.filetype = PROCESS_FILETYPE_ELF then
    processMapElf process
  else if p.filetype = PROCESS_FILETYPE_BINARY then
    processMapBinary process
  else
    stop

/-- `process_load_for_slot` up to its label `out`, once the process structure is allocated and
zeroed: the result and what it stores in `*process`. -/
def processLoadInto (filename : List UInt8) (process_slot : Int) (process : UInt32) :
    KernelM (Int × Option UInt32) := do
  let res ← processLoadData filename process
  if res < 0 then
    return (res, none)
  else do
    let program_stack_ptr ← kzallocBytes RASOS_USER_PROGRAM_STACK_SIZE
    if program_stack_ptr = 0 then
      return (- ENOMEM, none)
    else do
      let task ← taskNew process
      if task = 0 then
        return (signed task, none)
      else do
        let p ← load processK process
        store processK process { p with
          filename := strncpy filename RASOS_PATH_MAX_LEN
          stack := program_stack_ptr
          id := UInt16.ofInt process_slot
          task := task }
        let res ← processMapMemory process
        if res < 0 then
          return (res, none)
        else if process_slot < 0 ∨ process_slot ≥ RASOS_MAX_PROCESSES then
          stop -- writes outside `processes`
        else do
          assign fun s => { s with
            processes := Function.update s.processes process_slot.toNat process }
          return (res, some process)

/-- The label `out` of `process_load_for_slot`. -/
def processLoadCleanup (res : Int) (process : UInt32) : KernelM Unit := do
  if res < 0 ∧ process ≠ 0 then do
    let p ← load processK process
    if p.task ≠ 0 then do
      let _ ← taskFree p.task
      return ()
    else
      return ()
  else
    return ()

/-- `process_load_for_slot`: the result and what it stores in `*process`. The local variable
`_process` is not initialised; `garbage` is what it holds when the slot is taken. -/
def processLoadForSlot (garbage : UInt32) (filename : List UInt8) (process_slot : Int) :
    KernelM (Int × Option UInt32) := do
  let taken ← processGet process_slot
  if taken ≠ 0 then do
    processLoadCleanup (- EISTKN) garbage
    return (- EISTKN, none)
  else do
    let process ← kzalloc processK SIZEOF_PROCESS {}
    if process = 0 then
      return (- ENOMEM, none)
    else do
      store processK process {}
      let (res, out) ← processLoadInto filename process_slot process
      processLoadCleanup res process
      return (res, out)

/-- The loop of `process_get_free_slot` from slot `i` on. -/
def processGetFreeSlotLoop (processes : Nat → UInt32) : (remaining i : Nat) → Int
  | 0, _ => - EISTKN
  | remaining + 1, i =>
      if processes i = 0 then i else processGetFreeSlotLoop processes remaining (i + 1)

def processGetFreeSlot : KernelM Int :=
  fetch fun s => processGetFreeSlotLoop s.processes RASOS_MAX_PROCESSES 0

/-- `process_load`: the result and what it stores in `*process`. -/
def processLoad (garbage : UInt32) (filename : List UInt8) : KernelM (Int × Option UInt32) := do
  let process_slot ← processGetFreeSlot
  if process_slot < 0 then
    return (- EISTKN, none)
  else do
    let (res, out) ← processLoadForSlot garbage filename process_slot
    if res < 0 then
      return (res, out)
    else do
      let p ← load processK (out.getD 0)
      let t ← load taskK p.task
      let _ ← pagingMapTo t.page_directory RASOS_PROGRAM_VIRTUAL_STACK_ADDRESS_TOP p.stack
        (pagingAlignAddress (p.stack + RASOS_USER_PROGRAM_STACK_SIZE))
        (PAGING_IS_PRESENT ||| PAGING_ACCESS_BY_ALL ||| PAGING_IS_WRITABLE)
      return (res, out)

end RasOS
