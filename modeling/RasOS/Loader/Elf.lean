import RasOS.Fs.File

set_option autoImplicit false

/-! # The ELF loader (`loader/formats/elf.h`, `loader/formats/elfloader.c`)

Headers are read from `mem`, at whatever address the file's own offsets lead to. -/

namespace RasOS

open Machine

/-- The fields of `struct elf_header` that the code reads. -/
structure ElfHeader where
  ident : List UInt8
  e_type : UInt16
  e_entry : UInt32
  e_phoff : UInt32
  e_phnum : UInt16
  deriving DecidableEq

/-- The fields of `struct elf32_phdr` that the code reads. -/
structure Elf32Phdr where
  p_type : UInt32
  p_offset : UInt32
  p_vaddr : UInt32
  p_filesz : UInt32
  p_flags : UInt32
  deriving DecidableEq

abbrev EI_CLASS : Nat := 4
abbrev EI_DATA : Nat := 5
abbrev ET_EXEC : UInt16 := 2
abbrev PF_W : UInt32 := 0x02
abbrev PT_LOAD : UInt32 := 1

/-- The header at address `a`. -/
def headerAt (mem : UInt32 → UInt8) (a : UInt32) : ElfHeader where
  ident := (List.range 16).map fun i => mem (a + UInt32.ofNat i)
  e_type := read16 mem (a + 16)
  e_entry := read32 mem (a + 24)
  e_phoff := read32 mem (a + 28)
  e_phnum := read16 mem (a + 44)

/-- The program header at address `a`. -/
def phdrAt (mem : UInt32 → UInt8) (a : UInt32) : Elf32Phdr where
  p_type := read32 mem a
  p_offset := read32 mem (a + 4)
  p_vaddr := read32 mem (a + 8)
  p_filesz := read32 mem (a + 16)
  p_flags := read32 mem (a + 24)

def elfValidSignature (header : ElfHeader) : Bool := header.ident.take 4 == [0x7f, 0x45, 0x4C, 0x46]

def elfValidClass (header : ElfHeader) : Bool :=
  header.ident.getD EI_CLASS 0 == 0 || header.ident.getD EI_CLASS 0 == 1

def elfValidEncoding (header : ElfHeader) : Bool :=
  header.ident.getD EI_DATA 0 == 0 || header.ident.getD EI_DATA 0 == 1

/-- `elf_is_executable`; no function calls it. -/
def elfIsExecutable (header : ElfHeader) : Bool :=
  header.e_type == ET_EXEC && header.e_entry ≥ RASOS_PROGRAM_VIRTUAL_ADDRESS

def elfHasProgramHeader (header : ElfHeader) : Bool := header.e_phoff != 0

def elfValidateLoaded (header : ElfHeader) : Int :=
  if elfValidSignature header && elfValidClass header && elfValidEncoding header &&
    elfHasProgramHeader header then OK else - EINFORMAT

/-- `elf_header`: the header of the image of a file; the pointer is dereferenced at once. -/
def elfHeader (elf_file : UInt32) : KernelM ElfHeader := do
  let file ← load elfFileK elf_file
  if file.elf_memory = 0 then
    stop
  else
    fetch fun s => headerAt s.mem file.elf_memory

def elfVirtualBase (file : ElfFile) : UInt32 := file.virtual_base_address

def elfVirtualEnd (file : ElfFile) : UInt32 := file.virtual_end_address

def elfPhysBase (file : ElfFile) : UInt32 := file.physical_base_address

def elfPhysEnd (file : ElfFile) : UInt32 := file.physical_end_address

/-- The address of program header `index` (`elf_program_header`). -/
def elfProgramHeader (elf_memory : UInt32) (header : ElfHeader) (index : Nat) : UInt32 :=
  (if header.e_phoff = 0 then 0 else elf_memory + header.e_phoff) + UInt32.ofNat (32 * index)

def elfProcessPhdrPtLoad (elf_file : ElfFile) (phdr : Elf32Phdr) : ElfFile :=
  let elf_file :=
    if elf_file.virtual_base_address ≥ phdr.p_vaddr ∨ elf_file.virtual_base_address = 0 then
      { elf_file with
        virtual_base_address := phdr.p_vaddr
        physical_base_address := elf_file.elf_memory + phdr.p_offset }
    else elf_file
  let end_virtual_address := phdr.p_vaddr + phdr.p_filesz
  if elf_file.virtual_end_address ≤ end_virtual_address ∨ elf_file.virtual_end_address = 0 then
    { elf_file with
      virtual_end_address := end_virtual_address
      physical_end_address := elf_file.elf_memory + phdr.p_offset + phdr.p_filesz }
  else elf_file

def elfProcessPheader (elf_file : ElfFile) (phdr : Elf32Phdr) : ElfFile :=
  if phdr.p_type = PT_LOAD then elfProcessPhdrPtLoad elf_file phdr else elf_file

/-- The loop of `elf_process_pheaders` over the headers `i`, …, `i + remaining - 1`. -/
def elfProcessPheadersLoop (mem : UInt32 → UInt8) (header : ElfHeader) :
    (remaining i : Nat) → ElfFile → ElfFile
  | 0, _, elf_file => elf_file
  | remaining + 1, i, elf_file =>
      elfProcessPheadersLoop mem header remaining (i + 1)
        (elfProcessPheader elf_file (phdrAt mem (elfProgramHeader elf_file.elf_memory header i)))

def elfProcessPheaders (elf_file : UInt32) : KernelM Int := do
  let header ← elfHeader elf_file
  let file ← load elfFileK elf_file
  let mem ← fetch fun s => s.mem
  store elfFileK elf_file (elfProcessPheadersLoop mem header header.e_phnum.toNat 0 file)
  return OK

def elfProcessLoaded (elf_file : UInt32) : KernelM Int := do
  let header ← elfHeader elf_file
  let res := elfValidateLoaded header
  if res < 0 then
    return res
  else
    elfProcessPheaders elf_file

/-- `elf_load` from the point where the file is open. -/
def elfLoadOpened (elf_file : UInt32) (fd : Int) : KernelM Int := do
  let (res, stat) ← fstat fd
  if res < 0 then
    return res
  else do
    let elf_memory ← kzallocBytes stat.filesize
    let file ← load elfFileK elf_file
    store elfFileK elf_file { file with elf_memory := elf_memory }
    let res ← fread elf_memory stat.filesize 1 fd
    if res < 0 then
      return res
    else
      elfProcessLoaded elf_file

/-- `elf_load`: the result and what it stores in `*file_out`, if it does. -/
def elfLoad (filename : List UInt8) : KernelM (Int × Option UInt32) := do
  let elf_file ← kzalloc elfFileK SIZEOF_ELF_FILE {}
  let res ← fopen filename [0x72]
  if res ≤ 0 then do
    let _ ← fclose 0
    return (res, none)
  else do
    let fd := res
    let res ← elfLoadOpened elf_file fd
    let _ ← fclose fd
    if res < 0 then
      return (res, none)
    else
      return (res, some elf_file)

/-- `elf_phdr_phys_address`. -/
def elfPhdrPhysAddress (elf_memory : UInt32) (phdr : Elf32Phdr) : UInt32 :=
  elf_memory + phdr.p_offset

end RasOS
