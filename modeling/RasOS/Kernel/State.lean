import RasOS.Memory.Heap
import RasOS.Lib.Prog
import RasOS.Lib.Store

set_option autoImplicit false

/-! # The state of the kernel

The C structures the kernel allocates are objects of the store `live`, one for each live heap
allocation, keyed by its address. File images, stacks and buffers are bytes of `mem`; their
allocations are `raw` objects. `mem` is what a read through a computed address sees, wherever the
address points: its bytes are arbitrary to begin with, and those under an object of `live` other
than `raw` stay arbitrary, the model never looks at or changes them.

A program stops when it dereferences a null or dangling pointer, or one to an object of another
type, and when it frees a pointer that is not the address of a live allocation. -/

namespace RasOS

open Machine

/-! ## Structures -/

/-- `struct registers` (`task/task.h`). -/
structure Registers where
  edi : UInt32 := 0
  esi : UInt32 := 0
  ebp : UInt32 := 0
  ebx : UInt32 := 0
  edx : UInt32 := 0
  ecx : UInt32 := 0
  eax : UInt32 := 0
  ip : UInt32 := 0
  cs : UInt32 := 0
  flags : UInt32 := 0
  esp : UInt32 := 0
  ss : UInt32 := 0
  deriving DecidableEq

/-- `struct task` (`task/task.h`); the pointers are `0` when null. -/
structure Task where
  page_directory : UInt32 := 0
  registers : Registers := {}
  next : UInt32 := 0
  prev : UInt32 := 0
  process : UInt32 := 0
  deriving DecidableEq

/-- `struct keyboard_buffer` (`task/process.h`). -/
structure KeyboardBuffer where
  buffer : Int → UInt8 := fun _ => 0
  tail : Int := 0
  head : Int := 0

abbrev PROCESS_FILETYPE_ELF : UInt8 := 0
abbrev PROCESS_FILETYPE_BINARY : UInt8 := 1

/-- `struct process` (`task/process.h`). `ptr` is the union of `ptr` and `elf_file`. -/
structure Process where
  id : UInt16 := 0
  task : UInt32 := 0
  filename : List UInt8 := []
  filetype : UInt8 := 0
  ptr : UInt32 := 0
  size : UInt32 := 0
  stack : UInt32 := 0
  keyboard : KeyboardBuffer := {}

/-- `struct elf_file` (`loader/formats/elfloader.h`). -/
structure ElfFile where
  elf_memory : UInt32 := 0
  virtual_base_address : UInt32 := 0
  virtual_end_address : UInt32 := 0
  physical_base_address : UInt32 := 0
  physical_end_address : UInt32 := 0
  deriving DecidableEq

/-- The file systems `fs_static_load` registers. -/
inductive FileSystem
  | fat16
  deriving DecidableEq

/-- `struct file_descriptor` (`fs/file.h`); `disk` is left out, there is one disk. -/
structure FileDescriptor where
  index : Int := 0
  filesystem : Option FileSystem := none
  private_data : UInt32 := 0
  deriving DecidableEq

/-- `struct path_root` (`fs/pparser.h`). -/
structure PathRoot where
  drive_number : Int := 0
  first : UInt32 := 0
  deriving DecidableEq

/-- `struct path_part` (`fs/pparser.h`). -/
structure PathPart where
  part : UInt32 := 0
  next : UInt32 := 0
  deriving DecidableEq

/-- The fields of `struct fat_header` and of its extension (`fs/fat/fat16.c`) that the code reads. -/
structure FatHeader where
  sectors_per_cluster : UInt8 := 0
  reserved_sectors : UInt16 := 0
  fat_copies : UInt8 := 0
  root_dir_entries : UInt16 := 0
  sectors_per_fat : UInt16 := 0
  signature : UInt8 := 0
  deriving DecidableEq

/-- `struct fat_directory` (`fs/fat/fat16.c`). -/
structure FatDirectory where
  item : UInt32 := 0
  total : Int := 0
  sector_pos : Int := 0
  ending_sector_pos : Int := 0
  deriving DecidableEq

abbrev FAT_ITEM_TYPE_DIRECTORY : Nat := 0
abbrev FAT_ITEM_TYPE_FILE : Nat := 1

/-- `struct fat_item` (`fs/fat/fat16.c`); `item` is the union of `item` and `directory`. -/
structure FatItem where
  item : UInt32 := 0
  type : Nat := FAT_ITEM_TYPE_DIRECTORY
  deriving DecidableEq

/-- `struct fat_file_descriptor` (`fs/fat/fat16.c`). -/
structure FatFileDescriptor where
  item : UInt32 := 0
  pos : UInt32 := 0
  deriving DecidableEq

/-- `struct fat_private` (`fs/fat/fat16.c`). -/
structure FatPrivate where
  header : FatHeader := {}
  root_directory : FatDirectory := {}
  cluster_read_stream : UInt32 := 0
  fat_read_stream : UInt32 := 0
  directory_stream : UInt32 := 0
  deriving DecidableEq

/-- `struct disk_stream` (`disk/streamer.h`); `disk` is left out, there is one disk. -/
structure DiskStream where
  pos : Int := 0
  deriving DecidableEq

/-- The objects of the heap. `dirItems` is an array of directory entries as bytes, `table` the
1024 words of a page directory or page table, `pathName` a NUL-terminated name. -/
inductive Obj
  | raw
  | table (entries : Nat → UInt32)
  | chunk (directory_entry : UInt32)
  | task (t : Task)
  | process (p : Process)
  | elfFile (f : ElfFile)
  | fileDescriptor (d : FileDescriptor)
  | pathRoot (r : PathRoot)
  | pathPart (p : PathPart)
  | pathName (name : List UInt8)
  | fatPrivate (p : FatPrivate)
  | fatDirectory (d : FatDirectory)
  | dirItems (bytes : List UInt8)
  | fatItem (i : FatItem)
  | fatFileDescriptor (d : FatFileDescriptor)
  | diskStream (s : DiskStream)

def rawK : Kind Obj Unit where
  inj _ := .raw
  get | .raw => some () | _ => none
  get_inj _ := rfl
  inj_of_get {o a} h := by cases o <;> simp_all

def tableK : Kind Obj (Nat → UInt32) where
  inj := .table
  get | .table t => some t | _ => none
  get_inj _ := rfl
  inj_of_get {o a} h := by cases o <;> simp_all

def chunkK : Kind Obj UInt32 where
  inj := .chunk
  get | .chunk d => some d | _ => none
  get_inj _ := rfl
  inj_of_get {o a} h := by cases o <;> simp_all

def taskK : Kind Obj Task where
  inj := .task
  get | .task t => some t | _ => none
  get_inj _ := rfl
  inj_of_get {o a} h := by cases o <;> simp_all

def processK : Kind Obj Process where
  inj := .process
  get | .process p => some p | _ => none
  get_inj _ := rfl
  inj_of_get {o a} h := by cases o <;> simp_all

def elfFileK : Kind Obj ElfFile where
  inj := .elfFile
  get | .elfFile f => some f | _ => none
  get_inj _ := rfl
  inj_of_get {o a} h := by cases o <;> simp_all

def fileDescriptorK : Kind Obj FileDescriptor where
  inj := .fileDescriptor
  get | .fileDescriptor d => some d | _ => none
  get_inj _ := rfl
  inj_of_get {o a} h := by cases o <;> simp_all

def pathRootK : Kind Obj PathRoot where
  inj := .pathRoot
  get | .pathRoot r => some r | _ => none
  get_inj _ := rfl
  inj_of_get {o a} h := by cases o <;> simp_all

def pathPartK : Kind Obj PathPart where
  inj := .pathPart
  get | .pathPart p => some p | _ => none
  get_inj _ := rfl
  inj_of_get {o a} h := by cases o <;> simp_all

def pathNameK : Kind Obj (List UInt8) where
  inj := .pathName
  get | .pathName n => some n | _ => none
  get_inj _ := rfl
  inj_of_get {o a} h := by cases o <;> simp_all

def fatPrivateK : Kind Obj FatPrivate where
  inj := .fatPrivate
  get | .fatPrivate p => some p | _ => none
  get_inj _ := rfl
  inj_of_get {o a} h := by cases o <;> simp_all

def fatDirectoryK : Kind Obj FatDirectory where
  inj := .fatDirectory
  get | .fatDirectory d => some d | _ => none
  get_inj _ := rfl
  inj_of_get {o a} h := by cases o <;> simp_all

def dirItemsK : Kind Obj (List UInt8) where
  inj := .dirItems
  get | .dirItems b => some b | _ => none
  get_inj _ := rfl
  inj_of_get {o a} h := by cases o <;> simp_all

def fatItemK : Kind Obj FatItem where
  inj := .fatItem
  get | .fatItem i => some i | _ => none
  get_inj _ := rfl
  inj_of_get {o a} h := by cases o <;> simp_all

def fatFileDescriptorK : Kind Obj FatFileDescriptor where
  inj := .fatFileDescriptor
  get | .fatFileDescriptor d => some d | _ => none
  get_inj _ := rfl
  inj_of_get {o a} h := by cases o <;> simp_all

def diskStreamK : Kind Obj DiskStream where
  inj := .diskStream
  get | .diskStream s => some s | _ => none
  get_inj _ := rfl
  inj_of_get {o a} h := by cases o <;> simp_all

/-- `struct disk` (`disk/disk.h`), the one disk: `type` and `id` are `0`, `sector_size` is
`RASOS_SECTOR_SIZE`. -/
structure Disk where
  filesystem : Option FileSystem := none
  fs_private : UInt32 := 0

/-- The bytes of a sector, `512` of them. -/
abbrev Sector := Nat → UInt8

/-- The state of the kernel. `drive` is the hardware behind `disk_read_block`: what a request for a
sector gets after the requests made before it, `none` when it fails. `requests` are the sectors
asked for so far, the last one first. -/
structure Kernel where
  heap : Heap
  mem : UInt32 → UInt8
  live : UInt32 → Option Obj
  drive : List Nat → Nat → Option Sector
  requests : List Nat
  disk : Disk
  file_descriptors : Nat → UInt32
  processes : Nat → UInt32
  current_process : UInt32
  current_task : UInt32
  task_head : UInt32
  task_tail : UInt32
  current_directory : UInt32

abbrev KernelM := Prog Kernel

variable {α : Type}

/-! ## Objects in the store -/

/-- Read the object `ptr` points to. -/
def load (k : Kind Obj α) (ptr : UInt32) : KernelM α :=
  fun s => (k.read s.live ptr).map fun a => (a, s)

/-- Overwrite the object `ptr` points to. -/
def store (k : Kind Obj α) (ptr : UInt32) (a : α) : KernelM Unit :=
  fun s => (k.read s.live ptr).map fun _ => ((), { s with live := k.write s.live ptr a })

/-- `kzalloc` for an object whose zero bytes are `zero`; `0` when the heap has no room. -/
def kzalloc (k : Kind Obj α) (size : UInt32) (zero : α) : KernelM UInt32 := fun s =>
  let r := heapMalloc s.heap size
  some (r.1, { s with
    heap := r.2
    live := if r.1 = 0 then s.live else k.write s.live r.1 zero })

/-- `kfree` of a pointer to an object of kind `k`. -/
def kfree (k : Kind Obj α) (ptr : UInt32) : KernelM Unit := fun s =>
  (k.read s.live ptr).map fun _ => ((), { s with
    heap := heapFree s.heap ptr
    live := Function.update s.live ptr none })

/-- A write through a pointer that may be null. `paging_new_4gb` maps page 0 writable and no object of the
store lies there, so that a write through null is lost. -/
def storeUnchecked (k : Kind Obj α) (ptr : UInt32) (a : α) : KernelM Unit :=
  if ptr = 0 then pure () else store k ptr a

/-- `kfree` of a pointer that may be null. The table entry of null lies in front of the table: the code does
not check the index. -/
def kfreeUnchecked (k : Kind Obj α) (ptr : UInt32) : KernelM Unit :=
  if ptr = 0 then fun s => some ((), { s with heap := heapFree s.heap 0 }) else kfree k ptr

/-- A part of the state, such as a static variable of the C code. -/
def fetch (f : Kernel → α) : KernelM α := fun s => some (f s, s)

/-- Change static variables. -/
def assign (f : Kernel → Kernel) : KernelM Unit := fun s => some ((), f s)

/-! ## Bytes -/

/-- `mem` with `bytes` written from `out` on. -/
def writeBytes (mem : UInt32 → UInt8) (out : UInt32) (bytes : List UInt8) : UInt32 → UInt8 :=
  fun a => (bytes[(a - out).toNat]?).getD (mem a)

/-- Store bytes through the pointer `out`. -/
def memWrite (out : UInt32) (bytes : List UInt8) : KernelM Unit :=
  if out = 0 ∧ bytes ≠ [] then stop
  else assign fun s => { s with mem := writeBytes s.mem out bytes }

/-- `kzalloc` of `size` bytes, zeroed. -/
def kzallocBytes (size : UInt32) : KernelM UInt32 := do
  let ptr ← kzalloc rawK size ()
  if ptr = 0 then
    return 0
  else
    memWrite ptr (List.replicate size.toNat 0)
    return ptr

/-- The 16-bit little-endian value at `a`. -/
def read16 (mem : UInt32 → UInt8) (a : UInt32) : UInt16 :=
  (mem a).toUInt16 ||| (mem (a + 1)).toUInt16 <<< 8

/-- The 32-bit little-endian value at `a`. -/
def read32 (mem : UInt32 → UInt8) (a : UInt32) : UInt32 :=
  (mem a).toUInt32 ||| (mem (a + 1)).toUInt32 <<< 8 ||| (mem (a + 2)).toUInt32 <<< 16 |||
    (mem (a + 3)).toUInt32 <<< 24

end RasOS
