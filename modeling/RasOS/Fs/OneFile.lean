import RasOS.Fs.Volume

set_option autoImplicit false

/-! # A volume with one file

The smallest volume there is: a boot sector, one allocation table and a root directory of one sector
each, clusters of one sector, and the file `A` that begins at cluster 2. `oneFileKernel` has it
mounted, with the first `used` descriptors open. -/

namespace RasOS

open Machine

/-- The boot sector: clusters of one sector, one reserved sector, one table of one sector, 16
entries in the root directory. -/
def oneFileBoot : Sector := fun i =>
  if i = 13 ∨ i = 14 ∨ i = 16 ∨ i = 22 then 1
  else if i = 17 then 16
  else if i = 38 then RASOS_FAT16_SIGNATURE
  else 0

/-- The path `0:/A`. -/
def pathA : List UInt8 := [0x30, COLON, SLASH, 0x41]

/-- The directory entry of `A`, of `size` bytes, beginning at cluster 2. -/
def oneFileEntry (size : UInt16) : List UInt8 :=
  0x41 :: (List.replicate 10 (0x20 : UInt8) ++ (List.replicate 15 (0 : UInt8) ++
    [2, 0, size.toUInt8, (size >>> 8).toUInt8, 0, 0]))

/-- Cluster `c` is sector `c + 1`; its bytes are `data c`. -/
def oneFileImage (size : UInt16) (fat : Sector) (data : Nat → Sector) : Nat → Sector
  | 0 => oneFileBoot
  | 1 => fat
  | 2 => fun i => (oneFileEntry size).getD i 0
  | sector + 3 => data (sector + 2)

/-- The address of a block of the kernel heap. -/
def blockAddress (block : Nat) : UInt32 := RASOS_HEAP_ADDRESS + UInt32.ofNat (4096 * block)

def oneFilePrivate : FatPrivate where
  header := FatHeader.ofBytes (slice oneFileBoot 0 SIZEOF_FAT_H)
  root_directory := { item := blockAddress 4, total := 1, sector_pos := 2, ending_sector_pos := 3 }
  cluster_read_stream := blockAddress 1
  fat_read_stream := blockAddress 2
  directory_stream := blockAddress 3

/-- The object at a block: the volume in the first five, and from block 1000 on four objects for each
open descriptor. -/
def oneFileObject (size : UInt16) (used block : Nat) : Option Obj :=
  if block = 0 then some (.fatPrivate oneFilePrivate)
  else if block = 1 ∨ block = 2 ∨ block = 3 then some (.diskStream {})
  else if block = 4 then
    some (.dirItems (oneFileEntry size ++ List.replicate 480 0))
  else if block < 1000 ∨ 1000 + 4 * used ≤ block then none
  else if block % 4 = 0 then
    some (.fileDescriptor {
      index := ((block - 996) / 4 : Nat)
      filesystem := some .fat16
      private_data := blockAddress (block + 1) })
  else if block % 4 = 1 then some (.fatFileDescriptor { item := blockAddress (block + 1) })
  else if block % 4 = 2 then
    some (.fatItem { item := blockAddress (block + 1), type := FAT_ITEM_TYPE_FILE })
  else some (.dirItems (oneFileEntry size))

def oneFileKernel (size : UInt16) (fat : Sector) (data : Nat → Sector) (used : Nat) : Kernel where
  heap := {
    entries := fun i =>
      if i < 5 ∨ 1000 ≤ i ∧ i < 1000 + 4 * used then HEAP_BLOCK_ENTRY_TAKEN ||| HEAP_BLOCK_IS_FIRST
      else HEAP_BLOCK_ENTRY_FREE
    total := 25600
    start_address := RASOS_HEAP_ADDRESS
    total_lt := kheapTotal_lt }
  mem := fun _ => 0
  live := fun ptr =>
    if 0x01000000 ≤ ptr.toNat ∧ ptr.toNat % 4096 = 0 then
      oneFileObject size used ((ptr.toNat - 0x01000000) / 4096)
    else none
  drive := fun _ sector => some (oneFileImage size fat data sector)
  requests := []
  disk := { filesystem := some .fat16, fs_private := blockAddress 0 }
  file_descriptors := fun i => if i < used then blockAddress (1000 + 4 * i) else 0
  processes := fun _ => 0
  current_process := 0
  current_task := 0
  task_head := 0
  task_tail := 0
  current_directory := 0

theorem oneFile_header (size : UInt16) (fat : Sector) (data : Nat → Sector) :
    bootHeader (oneFileImage size fat data) = oneFilePrivate.header := by
  have hslice : slice (diskByte (oneFileImage size fat data)) 0 SIZEOF_FAT_H
      = slice oneFileBoot 0 SIZEOF_FAT_H := by
    apply slice_congr
    intro i hi
    rw [SIZEOF_FAT_H] at hi
    have hdiv : (0 + i) / 512 = 0 := by omega
    have hmod : (0 + i) % 512 = 0 + i := by omega
    rw [diskByte, hdiv, hmod, oneFileImage]
  rw [bootHeader, hslice, oneFilePrivate]

theorem blockAddress_toNat {block : Nat} (h : block < 25600) :
    (blockAddress block).toNat = 0x01000000 + 4096 * block := by
  rw [blockAddress, UInt32.toNat_add, toNat_ofNat_of_lt (by omega),
    show RASOS_HEAP_ADDRESS.toNat = 0x01000000 from rfl]
  omega

theorem oneFileKernel_live {size : UInt16} {fat : Sector} {data : Nat → Sector} {used block : Nat}
    (h : block < 25600) :
    (oneFileKernel size fat data used).live (blockAddress block) = oneFileObject size used block := by
  show (if _ then _ else _) = _
  have hindex : (0x01000000 + 4096 * block - 0x01000000) / 4096 = block := by omega
  rw [blockAddress_toNat h, if_pos (by omega), hindex]

/-- Without open files the blocks behind the volume are free. -/
theorem oneFileKernel_free (size : UInt16) (fat : Sector) (data : Nat → Sector) {i : Nat} (h : 5 ≤ i) :
    isBlockTaken ((oneFileKernel size fat data 0).heap.entries i) = false := by
  unfold oneFileKernel
  dsimp only
  rw [if_neg (by omega)]
  rfl

/-- The blocks in use. -/
theorem oneFileObject_block {size : UInt16} {used block : Nat} {o : Obj}
    (h : oneFileObject size used block = some o) :
    block < 5 ∨ 1000 ≤ block ∧ block < 1000 + 4 * used := by
  by_contra hnot
  have hnone : oneFileObject size used block = none := by
    unfold oneFileObject
    rw [if_neg (by omega), if_neg (by omega), if_neg (by omega), if_pos (by omega)]
  rw [hnone] at h
  cases h

theorem oneFileKernel_wf {size : UInt16} {fat : Sector} {data : Nat → Sector} {used : Nat}
    (hused : used ≤ 512) : (oneFileKernel size fat data used).WF where
  start := rfl
  total := rfl
  block := by
    intro ptr o ho
    change (if 0x01000000 ≤ ptr.toNat ∧ ptr.toNat % 4096 = 0 then
      oneFileObject size used ((ptr.toNat - 0x01000000) / 4096) else none) = some o at ho
    split at ho
    · rename_i hptr
      obtain ⟨block, hblock⟩ : ∃ block, ptr.toNat = 0x01000000 + 4096 * block :=
        ⟨(ptr.toNat - 0x01000000) / 4096, by omega⟩
      have hindex : (ptr.toNat - 0x01000000) / 4096 = block := by omega
      rw [hindex] at ho
      have hused' := oneFileObject_block ho
      refine ⟨block, 1, ⟨Nat.one_pos, ?_, fun i h1 h2 => ?_⟩, ?_⟩
      · show block + 1 ≤ 25600
        omega
      · obtain rfl : i = block := by omega
        show (if _ then _ else _) = _
        rw [if_pos (by omega), takenEntry, if_pos rfl, if_pos (by omega)]
        rfl
      · rw [← UInt32.toNat_inj, heapBlockToAddress_toNat _ (by omega)]
        show ptr.toNat = (0x01000000 + 4096 * block) % 2 ^ 32
        omega
    · cases ho

theorem oneFileKernel_mounted {size : UInt16} {fat : Sector} {data : Nat → Sector} {used : Nat}
    (hused : used ≤ 512) :
    Mounted (oneFileKernel size fat data used) (oneFileImage size fat data) oneFilePrivate where
  wf := oneFileKernel_wf hused
  drive := fun _ _ => rfl
  private_data := oneFileKernel_live (by decide)
  cluster_stream := ⟨{}, oneFileKernel_live (by decide)⟩
  fat_stream := ⟨{}, oneFileKernel_live (by decide)⟩
  header := (oneFile_header size fat data).symm
  data_sector := by
    rw [oneFile_header]
    rfl

end RasOS
