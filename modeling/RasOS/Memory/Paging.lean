import RasOS.Kernel.State

set_option autoImplicit false

/-! # Paging (`memory/paging/paging.c`)

A page directory and a page table are `table` objects of 1024 words; the upper 20 bits of an
entry are an address and the lower 12 are flags. -/

namespace RasOS

open Machine

def PAGING_ACCESS_BY_ALL : UInt32 := 0b00000100
def PAGING_IS_WRITABLE : UInt32 := 0b00000010
def PAGING_IS_PRESENT : UInt32 := 0b00000001

abbrev PAGE_TABLE_TOTAL_ENTRIES : Nat := 1024
abbrev PAGE_SIZE : Nat := 4096

/-- The loop that fills a new page table: the first `n` entries are written. -/
def fillTable (offset : Int) (flags : UInt32) : (n : Nat) → Nat → UInt32
  | 0 => fun _ => 0
  | j + 1 => Function.update (fillTable offset flags j) j
      (UInt32.ofInt (offset + j * PAGE_SIZE) ||| flags)

/-- `directory[i] = entry`, through a pointer that may be null. -/
def setEntryUnchecked (directory : UInt32) (i : Nat) (entry : UInt32) : KernelM Unit :=
  if directory = 0 then pure ()
  else do
    let entries ← load tableK directory
    store tableK directory (Function.update entries i entry)

/-- The outer loop of `paging_new_4gb` from directory entry `i` on. -/
def pagingNew4gbLoop (directory flags : UInt32) : (remaining i : Nat) → (offset : Int) →
    KernelM Unit
  | 0, _, _ => return ()
  | remaining + 1, i, offset => do
      let table ← kzalloc tableK 4096 fun _ => 0
      storeUnchecked tableK table (fillTable offset flags PAGE_TABLE_TOTAL_ENTRIES)
      setEntryUnchecked directory i (table ||| flags ||| PAGING_IS_WRITABLE)
      pagingNew4gbLoop directory flags remaining (i + 1)
        (wrap (offset + PAGE_SIZE * PAGE_TABLE_TOTAL_ENTRIES))

/-- `paging_new_4gb`. No allocation is checked; a null one is written to. -/
def pagingNew4gb (flags : UInt32) : KernelM UInt32 := do
  let directory ← kzalloc tableK 4096 fun _ => 0
  pagingNew4gbLoop directory flags 1024 0 0
  let chunk_4gb ← kzalloc chunkK SIZEOF_PAGING_4GB_CHUNK 0
  storeUnchecked chunkK chunk_4gb directory
  return chunk_4gb

def pagingSwitch (directory : UInt32) : KernelM Unit := do
  let directory_entry ← load chunkK directory
  assign fun s => { s with current_directory := directory_entry }

def pagingIsAligned (address : UInt32) : Bool := address.toNat % PAGE_SIZE == 0

/-- The two indexes `paging_get_indexes` computes for an aligned address. -/
def directoryIndex (virtual_address : UInt32) : Nat := virtual_address.toNat / 4096 / 1024

def tableIndex (virtual_address : UInt32) : Nat :=
  virtual_address.toNat / 4096 - directoryIndex virtual_address * 1024

def pagingSet (directory virtual_address val : UInt32) : KernelM Int := do
  if !pagingIsAligned virtual_address then
    return - EINVARG
  else do
    let entries ← load tableK directory
    let page_directory_entry := entries (directoryIndex virtual_address)
    let page_table_address := page_directory_entry &&& 0xfffff000
    let table ← load tableK page_table_address
    store tableK page_table_address (Function.update table (tableIndex virtual_address) val)
    return OK

/-- `paging_get_table_entry`. For an address that is not aligned both indexes stay zero. -/
def pagingGetTableEntry (directory virtual_address : UInt32) : KernelM UInt32 := do
  let directory_index := if pagingIsAligned virtual_address then directoryIndex virtual_address else 0
  let table_index := if pagingIsAligned virtual_address then tableIndex virtual_address else 0
  let entries ← load tableK directory
  let entry := entries directory_index
  let table ← load tableK (entry &&& 0xfffff000)
  return table table_index

/-- The loop of `paging_free_4gb` from entry `i` on. -/
def pagingFree4gbLoop (chunk : UInt32) : (remaining i : Nat) → KernelM Unit
  | 0, _ => return ()
  | remaining + 1, i => do
      let directory_entry ← load chunkK chunk
      let entries ← load tableK directory_entry
      kfree tableK (entries i &&& 0xFFFFF000)
      pagingFree4gbLoop chunk remaining (i + 1)

def pagingFree4gb (chunk : UInt32) : KernelM Unit := do
  pagingFree4gbLoop chunk 1024 0
  let directory_entry ← load chunkK chunk
  kfree tableK directory_entry
  kfree chunkK chunk

def pagingAlignAddress (ptr : UInt32) : UInt32 :=
  if ptr % 4096 = 0 then ptr else ptr + 4096 - ptr % 4096

def pagingAlignToLowerPage (addr : UInt32) : UInt32 := addr - addr % 4096

def pagingMap (directory virt phys flags : UInt32) : KernelM Int := do
  if virt.toNat % PAGE_SIZE ≠ 0 ∨ phys.toNat % PAGE_SIZE ≠ 0 then
    return - EINVARG
  else do
    let directory_entry ← load chunkK directory
    pagingSet directory_entry virt (phys ||| flags)

/-- `paging_map_range` with `count` pages left; `res` is the result so far. -/
def pagingMapRange (directory : UInt32) : (count : Nat) → (virt phys flags : UInt32) → (res : Int) →
    KernelM Int
  | 0, _, _, _, res => return res
  | count + 1, virt, phys, flags, _ => do
      let res ← pagingMap directory virt phys flags
      if res < 0 then
        return res
      else
        pagingMapRange directory count (virt + 4096) (phys + 4096) flags res

def pagingMapTo (directory virt phys phys_end flags : UInt32) : KernelM Int :=
  if virt.toNat % PAGE_SIZE ≠ 0 then return - EINVARG
  else if phys.toNat % PAGE_SIZE ≠ 0 then return - EINVARG
  else if phys_end.toNat % PAGE_SIZE ≠ 0 then return - EINVARG
  else if phys_end < phys then return - EINVARG
  else
    let total_bytes := phys_end - phys
    let total_pages := total_bytes.toNat / PAGE_SIZE
    pagingMapRange directory total_pages virt phys flags 0

/-! ## The processor -/

/-- The two entries the processor finds for an address: in the page directory and in the page table. -/
def pageWalk (s : Kernel) (directory virtual_address : UInt32) : Option (UInt32 × UInt32) := do
  let entries ← tableK.read s.live directory
  let entry := entries (virtual_address.toNat / 2 ^ 22)
  let table ← tableK.read s.live (entry &&& 0xfffff000)
  return (entry, table (virtual_address.toNat / 2 ^ 12 % 2 ^ 10))

/-- Where a table entry sends an address. -/
def pageAddress (entry virtual_address : UInt32) : UInt32 :=
  (entry &&& 0xfffff000) ||| (virtual_address &&& 0xfff)

/-- The physical address of a virtual one in the address space that is switched on. The kernel's
accesses need both entries to be present, whatever their other flags. -/
def translate (s : Kernel) (virtual_address : UInt32) : Option UInt32 :=
  (pageWalk s s.current_directory virtual_address).bind fun entries =>
    if entries.1 &&& PAGING_IS_PRESENT = 0 ∨ entries.2 &&& PAGING_IS_PRESENT = 0 then none
    else some (pageAddress entries.2 virtual_address)

/-- Read a byte through the page tables; a fault stops. -/
def readByte (virtual_address : UInt32) : KernelM UInt8 := fun s =>
  (translate s virtual_address).map fun address => (s.mem address, s)

/-- Write a byte through the page tables. -/
def writeByte (virtual_address : UInt32) (c : UInt8) : KernelM Unit := fun s =>
  (translate s virtual_address).map fun address =>
    ((), { s with mem := Function.update s.mem address c })

end RasOS
