import RasOS.Config
import RasOS.Lib.Word

set_option autoImplicit false

/-! # The block heap (`memory/heap/heap.c`)

The heap hands out runs of 4096-byte blocks. Its table has one byte for each block; the extent
of an allocation is encoded by the `HAS_NEXT` bits of its entries. -/

namespace RasOS

open Machine

def HEAP_BLOCK_ENTRY_FREE : UInt8 := 0b00000000
def HEAP_BLOCK_ENTRY_TAKEN : UInt8 := 0b00000001
def HEAP_BLOCK_HAS_NEXT : UInt8 := 0b10000000
def HEAP_BLOCK_IS_FIRST : UInt8 := 0b01000000

/-- `struct heap` together with its `struct heap_table`. `entries i` is the byte at
`table->entries + i`; the code does not check an index from below, so `i` may be negative and
then lies in front of the table. `total_lt` is what `heap_create` guarantees: a 32-bit size
holds fewer than `2 ^ 20` blocks. -/
structure Heap where
  entries : Int → UInt8
  total : Nat
  start_address : UInt32
  total_lt : total < 2 ^ 20

/-- The number of blocks of `RASOS_HEAP_SIZE_BYTES`. -/
theorem kheapTotal_lt : 25600 < 2 ^ 20 := by decide

/-- A heap without blocks. -/
theorem noBlocks_lt : 0 < 2 ^ 20 := Nat.two_pow_pos 20

def isBlockTaken (entry : UInt8) : Bool := entry &&& 0b00000001 != 0

def isBlockNextExists (entry : UInt8) : Bool := entry &&& 0b10000000 != 0

def heapAddressToBlock (heap : Heap) (address : UInt32) : Int :=
  (signed (address - heap.start_address)).tdiv RASOS_HEAP_BLOCK_SIZE

def heapBlockToAddress (heap : Heap) (block : Int) : UInt32 :=
  heap.start_address + UInt32.ofInt (block * RASOS_HEAP_BLOCK_SIZE)

/-- `memset` of the first `n` table entries. -/
def memsetEntries (entries : Int → UInt8) (c : UInt8) (n : Nat) : Int → UInt8 :=
  fun i => if 0 ≤ i ∧ i < n then c else entries i

/-- `heap_create`. The table memory holds `table` before the call. -/
def heapCreate (table : Int → UInt8) (heap_start_addr heap_size : UInt32) : Except Int Heap :=
  if heap_start_addr.toNat % RASOS_HEAP_BLOCK_SIZE ≠ 0 then
    .error (-EINVARG)
  else if heap_size.toNat % RASOS_HEAP_BLOCK_SIZE ≠ 0 then
    .error (-EINVARG)
  else
    let n_blocks := heap_size.toNat / RASOS_HEAP_BLOCK_SIZE
    .ok {
      entries := memsetEntries table HEAP_BLOCK_ENTRY_FREE n_blocks
      total := n_blocks
      start_address := heap_start_addr
      total_lt := by
        have := heap_size.toNat_lt
        simp only [n_blocks, RASOS_HEAP_BLOCK_SIZE]
        omega }

/-! ## Allocation -/

def heapSizeCeiling (heap_size : UInt32) : UInt32 :=
  if heap_size % 4096 = 0 then heap_size
  else (heap_size - heap_size % 4096) + 4096

/-- The search loop of `heap_get_start_block`: `remaining` iterations are left, the next entry
to look at is `i`, and `block_count` free blocks in a row have been seen since
`block_start_index` (`-1` when the last block was taken). -/
def getStartBlockLoop (entries : Int → UInt8) (total_blocks : Nat) :
    (remaining i block_count : Nat) → (block_start_index : Int) → Int
  | 0, _, _, _ => -ENOMEM
  | remaining + 1, i, block_count, block_start_index =>
      if isBlockTaken (entries i) then
        getStartBlockLoop entries total_blocks remaining (i + 1) 0 (-1)
      else
        let start : Int := if block_start_index = -1 then i else block_start_index
        if block_count + 1 = total_blocks then start
        else getStartBlockLoop entries total_blocks remaining (i + 1) (block_count + 1) start

def heapGetStartBlock (heap : Heap) (total_blocks : UInt32) : Int :=
  getStartBlockLoop heap.entries total_blocks.toNat heap.total 0 0 (-1)

/-- The marking loop of `heap_mark_blocks_taken`; `entry` is the flag byte for block `i`. -/
def markBlocksTakenLoop (end_block : Int) :
    (remaining : Nat) → (i : Int) → (entry : UInt8) → (Int → UInt8) → Int → UInt8
  | 0, _, _, entries => entries
  | remaining + 1, i, entry, entries =>
      markBlocksTakenLoop end_block remaining (i + 1)
        (if i ≠ end_block - 1 then HEAP_BLOCK_ENTRY_TAKEN ||| HEAP_BLOCK_HAS_NEXT
          else HEAP_BLOCK_ENTRY_TAKEN)
        (Function.update entries i entry)

def heapMarkBlocksTaken (heap : Heap) (start_block : Int) (total_blocks : Nat) : Heap :=
  let end_block := start_block + total_blocks - 1
  let entry := HEAP_BLOCK_ENTRY_TAKEN ||| HEAP_BLOCK_IS_FIRST
  let entry := if total_blocks > 1 then entry ||| HEAP_BLOCK_HAS_NEXT else entry
  { heap with entries := markBlocksTakenLoop end_block total_blocks start_block entry heap.entries }

/-- `heap_malloc_blocks`; the address `0` is the null pointer. -/
def heapMallocBlocks (heap : Heap) (total_blocks : UInt32) : UInt32 × Heap :=
  let start_block := heapGetStartBlock heap total_blocks
  if start_block < 0 then (0, heap)
  else (heapBlockToAddress heap start_block,
    heapMarkBlocksTaken heap start_block total_blocks.toNat)

def heapMalloc (heap : Heap) (size : UInt32) : UInt32 × Heap :=
  let aligned_size := heapSizeCeiling size
  let total_blocks := aligned_size / 4096
  heapMallocBlocks heap total_blocks

/-! ## Freeing -/

/-- The loop of `heap_mark_blocks_free`. As in the code, the `HAS_NEXT` bit is tested after the
entry has been cleared. -/
def markBlocksFreeLoop : (remaining : Nat) → (i : Int) → (Int → UInt8) → Int → UInt8
  | 0, _, entries => entries
  | remaining + 1, i, entries =>
      let entries := Function.update entries i HEAP_BLOCK_ENTRY_FREE
      if isBlockNextExists (entries i) then markBlocksFreeLoop remaining (i + 1) entries
      else entries

def heapMarkBlocksFree (heap : Heap) (starting_block : Int) : Heap :=
  { heap with
    entries := markBlocksFreeLoop (heap.total - starting_block).toNat starting_block heap.entries }

def heapFree (heap : Heap) (ptr : UInt32) : Heap :=
  heapMarkBlocksFree heap (heapAddressToBlock heap ptr)

end RasOS
