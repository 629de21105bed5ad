import RasOS.Disk.Streamer
import RasOS.Fs.Pparser

set_option autoImplicit false

/-! # The FAT16 file system (`fs/fat/fat16.c`)

A directory entry is its 32 bytes; an array of entries is the concatenation of their bytes. -/

namespace RasOS

open Machine

def RASOS_FAT16_SIGNATURE : UInt8 := 0x29
def RASOS_FAT16_FAT_ENTRY_SIZE : Int := 0x02
def RASOS_FAT16_BAD_SECTOR : Int := 0xFF7

def FAT_FILE_READ_ONLY : UInt8 := 0x01
def FAT_FILE_SUBDIRECTORY : UInt8 := 0x10

abbrev FILE_MODE_READ : Nat := 0

/-! ## Fields of packed structures -/

def byteAt (bytes : List UInt8) (i : Nat) : UInt8 := bytes.getD i 0

def wordAt (bytes : List UInt8) (i : Nat) : UInt16 :=
  (byteAt bytes i).toUInt16 ||| (byteAt bytes (i + 1)).toUInt16 <<< 8

def dwordAt (bytes : List UInt8) (i : Nat) : UInt32 :=
  (wordAt bytes i).toUInt32 ||| (wordAt bytes (i + 2)).toUInt32 <<< 16

/-- `struct fat_h` from the bytes of the boot sector. -/
def FatHeader.ofBytes (bytes : List UInt8) : FatHeader where
  sectors_per_cluster := byteAt bytes 13
  reserved_sectors := wordAt bytes 14
  fat_copies := byteAt bytes 16
  root_dir_entries := wordAt bytes 17
  sectors_per_fat := wordAt bytes 22
  signature := byteAt bytes 38

/-- The fields of `struct fat_directory_item` by their offsets. -/
def itemAttribute (item : List UInt8) : UInt8 := byteAt item 11
def itemHigh16 (item : List UInt8) : UInt16 := wordAt item 20
def itemLow16 (item : List UInt8) : UInt16 := wordAt item 26
def itemFilesize (item : List UInt8) : UInt32 := dwordAt item 28

def itemIsSubdirectory (item : List UInt8) : Bool :=
  itemAttribute item &&& FAT_FILE_SUBDIRECTORY != 0

/-! ## Directories -/

/-- `disk->fs_private`. -/
def fsPrivate : KernelM FatPrivate := do
  let ptr ← fetch fun s => s.disk.fs_private
  load fatPrivateK ptr

/-- The scan of `fat16_get_total_items_for_directory`: `i` entries have been counted. The position
of the stream repeats after `2 ^ 32 / 32` entries; a scan that long does not end. -/
def getTotalItemsLoop (stream : UInt32) : (fuel : Nat) → (i : Int) → KernelM Int
  | 0, _ => stop
  | fuel + 1, i => do
      let (res, item) ← diskstreamerRead stream SIZEOF_FAT_DIRECTORY_ITEM
      if res ≠ OK then
        return - EIO
      else if byteAt item 0 = 0x00 then
        return i
      else if byteAt item 0 = 0xE5 then
        getTotalItemsLoop stream fuel i
      else
        getTotalItemsLoop stream fuel (i + 1)

def fat16GetTotalItemsForDirectory (directory_start_sector : UInt32) : KernelM Int := do
  let fat_private ← fsPrivate
  let directory_start_pos := signed (directory_start_sector * 512)
  let stream := fat_private.directory_stream
  let res ← diskstreamerSeek stream directory_start_pos
  if res ≠ OK then
    return - EIO
  else
    getTotalItemsLoop stream (2 ^ 27) 0

def fat16FreeDirectory (directory : UInt32) : KernelM Unit := do
  if directory = 0 then
    return ()
  else do
    let d ← load fatDirectoryK directory
    if d.item = 0 then
      kfree fatDirectoryK directory
    else do
      kfree dirItemsK d.item
      kfree fatDirectoryK directory

def fat16FatItemFree (item : UInt32) : KernelM Unit := do
  let it ← load fatItemK item
  if it.type = FAT_ITEM_TYPE_DIRECTORY then do
    fat16FreeDirectory it.item
    kfree fatItemK item
  else if it.type = FAT_ITEM_TYPE_FILE then do
    kfree dirItemsK it.item
    kfree fatItemK item
  else
    kfree fatItemK item

/-- `remove_padded_spaces`: copies `inp` behind `out` up to a space or NUL; `none` when it reads
past the end of the array or writes past `max_len` bytes. -/
def removePaddedSpaces (max_len : Nat) : (out inp : List UInt8) → Option (List UInt8)
  | _, [] => none
  | out, c :: rest =>
      if c ≠ 0x00 ∧ c ≠ 0x20 then
        if out.length < max_len then removePaddedSpaces max_len (out ++ [c]) rest else none
      else if c = 0x20 ∧ ¬ out.length < max_len then none
      else some out

/-- `combine_filename_and_ext`; `item` is what lies in memory from the entry on. -/
def combineFilenameAndExt (item : List UInt8) (max_len : Nat) : Option (List UInt8) := do
  let out ← removePaddedSpaces max_len [] item
  if byteAt item 8 ≠ 0x00 ∧ byteAt item 8 ≠ 0x20 then
    if out.length < max_len then removePaddedSpaces max_len (out ++ [0x2E]) (item.drop 8)
    else none
  else
    some out

/-- `fat16_clone_directory_item` of one entry. -/
def fat16CloneDirectoryItem (item : List UInt8) : KernelM UInt32 := do
  let item_copy ← kzalloc dirItemsK 32 []
  if item_copy = 0 then
    return 0
  else do
    store dirItemsK item_copy item
    return item_copy

/-! ## Clusters -/

def fat16ClusterToSector (priv : FatPrivate) (cluster : Int) : Int :=
  wrap (priv.root_directory.ending_sector_pos +
    (cluster - 2) * priv.header.sectors_per_cluster.toNat)

def fat16GetFirstCluster (item : List UInt8) : UInt32 :=
  (itemHigh16 item).toUInt32 <<< 16 ||| (itemLow16 item).toUInt32

def fat16GetFirstFatSector (priv : FatPrivate) : UInt32 := priv.header.reserved_sectors.toUInt32

/-- `fat16_get_fat_entry`; the `int` result is returned as a `uint16_t`. -/
def fat16GetFatEntry (cluster : Int) : KernelM UInt16 := do
  let priv ← fsPrivate
  let stream := priv.fat_read_stream
  if stream = 0 then
    return 0xFFFF
  else do
    let fat_table_start := fat16GetFirstFatSector priv * 512
    let _ ← diskstreamerSeek stream
      (signed (fat_table_start + UInt32.ofInt (cluster * RASOS_FAT16_FAT_ENTRY_SIZE)))
    let (res, bytes) ← diskstreamerRead stream 2
    if res < 0 then
      return UInt16.ofInt res
    else
      return wordAt bytes 0

/-- The loop of `fat16_get_cluster_for_offset` with `remaining` links to follow. -/
def getClusterLoop : (remaining : Nat) → (current_cluster : Int) → KernelM Int
  | 0, current_cluster => return current_cluster
  | remaining + 1, current_cluster => do
      let entry16 ← fat16GetFatEntry current_cluster
      let entry : Int := entry16.toNat
      if entry = 0xFF8 ∨ entry = 0xFFF then
        return - EIO -- the last cluster of the file
      else if entry = RASOS_FAT16_BAD_SECTOR then
        return - EIO
      else if entry = 0xFF0 ∨ entry = 0xFF6 then
        return - EIO -- reserved
      else if entry = 0x00 then
        return - EIO
      else
        getClusterLoop remaining entry

def sizeOfClusterBytes (priv : FatPrivate) : Int :=
  priv.header.sectors_per_cluster.toNat * RASOS_SECTOR_SIZE

def fat16GetClusterForOffset (starting_cluster offset : Int) : KernelM Int := do
  let priv ← fsPrivate
  let size_of_cluster_bytes := sizeOfClusterBytes priv
  if size_of_cluster_bytes = 0 then
    stop -- division by zero
  else
    getClusterLoop (offset.tdiv size_of_cluster_bytes).toNat starting_cluster

/-- The recursion of `fat16_read_internal_from_stream`; `total` shrinks with each call. -/
def fat16ReadInternalFromStream (stream : UInt32) (cluster : Int) :
    (fuel : Nat) → (offset total : Int) → KernelM (Int × List UInt8)
  | 0, _, _ => stop
  | fuel + 1, offset, total => do
      let priv ← fsPrivate
      let size_of_cluster_bytes := sizeOfClusterBytes priv
      let cluster_to_use ← fat16GetClusterForOffset cluster offset
      if cluster_to_use < 0 then
        return (cluster_to_use, [])
      else do
        let offset_within_cluster := offset.tmod size_of_cluster_bytes
        let starting_sector := fat16ClusterToSector priv cluster_to_use
        let starting_pos := wrap (starting_sector * RASOS_SECTOR_SIZE + offset_within_cluster)
        let total_to_read := if total > size_of_cluster_bytes then size_of_cluster_bytes else total
        let res ← diskstreamerSeek stream starting_pos
        if res ≠ OK then
          return (res, [])
        else do
          let (res, out) ← diskstreamerRead stream total_to_read
          if res ≠ OK then
            return (res, out)
          else if total - total_to_read > 0 then do
            let (res, rest) ← fat16ReadInternalFromStream stream cluster fuel
              (wrap (offset + total_to_read)) (total - total_to_read)
            return (res, out ++ rest)
          else
            return (res, out)

def fat16ReadInternal (starting_cluster offset total : Int) : KernelM (Int × List UInt8) := do
  let fs_private ← fsPrivate
  fat16ReadInternalFromStream fs_private.cluster_read_stream starting_cluster (total.toNat + 1)
    offset total

/-- `fat16_load_fat_directory`. On an error the directory is freed, but the pointer to it is
returned all the same. -/
def fat16LoadFatDirectory (item : List UInt8) : KernelM UInt32 := do
  if !itemIsSubdirectory item then
    return 0
  else do
    let directory ← kzalloc fatDirectoryK SIZEOF_FAT_DIRECTORY {}
    if directory = 0 then
      return 0
    else do
      let fat_private ← fsPrivate
      let cluster := signed (fat16GetFirstCluster item)
      let cluster_sector := fat16ClusterToSector fat_private cluster
      let total_items ← fat16GetTotalItemsForDirectory (UInt32.ofInt cluster_sector)
      let directory_size := wrap (total_items * SIZEOF_FAT_DIRECTORY_ITEM)
      let items ← kzalloc dirItemsK (UInt32.ofInt directory_size)
        (List.replicate (UInt32.ofInt directory_size).toNat 0)
      store fatDirectoryK directory { total := total_items, item := items }
      if items = 0 then do
        fat16FreeDirectory directory
        return directory
      else do
        let (res, bytes) ← fat16ReadInternal cluster 0x00 directory_size
        store dirItemsK items
          (bytes ++ List.replicate ((UInt32.ofInt directory_size).toNat - bytes.length) 0)
        if res ≠ OK then do
          fat16FreeDirectory directory
          return directory
        else
          return directory

def fat16NewFatItemForDirectoryItem (item : List UInt8) : KernelM UInt32 := do
  let f_item ← kzalloc fatItemK SIZEOF_FAT_ITEM {}
  if f_item = 0 then
    return 0
  else if itemIsSubdirectory item then do
    let directory ← fat16LoadFatDirectory item
    store fatItemK f_item { item := directory, type := FAT_ITEM_TYPE_DIRECTORY }
    return f_item
  else do
    let copy ← fat16CloneDirectoryItem item
    store fatItemK f_item { item := copy, type := FAT_ITEM_TYPE_FILE }
    return f_item

/-- The loop of `fat16_find_item_in_directory` from entry `i` on. It does not end at the first
match: a later one replaces the item found before. -/
def findItemLoop (directory : FatDirectory) (name : List UInt8) :
    (remaining i : Nat) → (f_item : UInt32) → KernelM UInt32
  | 0, _, f_item => return f_item
  | remaining + 1, i, f_item => do
      let items ← load dirItemsK directory.item
      let item := items.drop (i * SIZEOF_FAT_DIRECTORY_ITEM)
      match combineFilenameAndExt item RASOS_PATH_MAX_LEN with
      | none => stop
      | some tmp_filename =>
          if istrncmp tmp_filename name RASOS_PATH_MAX_LEN = 0 then do
            let f_item ← fat16NewFatItemForDirectoryItem (item.take SIZEOF_FAT_DIRECTORY_ITEM)
            findItemLoop directory name remaining (i + 1) f_item
          else
            findItemLoop directory name remaining (i + 1) f_item

def fat16FindItemInDirectory (directory : FatDirectory) (name : List UInt8) : KernelM UInt32 :=
  findItemLoop directory name directory.total.toNat 0 0

/-- The loop of `fat16_get_directory_entry` over the parts behind the first. A path has fewer than
`RASOS_PATH_MAX_LEN` parts. -/
def getDirectoryEntryLoop : (fuel : Nat) → (next_part current_item : UInt32) → KernelM UInt32
  | 0, _, _ => stop
  | fuel + 1, next_part, current_item => do
      if next_part = 0 then
        return current_item
      else do
        let it ← load fatItemK current_item
        if it.type ≠ FAT_ITEM_TYPE_DIRECTORY then
          return 0
        else do
          let part ← load pathPartK next_part
          let directory ← load fatDirectoryK it.item
          let name ← load pathNameK part.part
          let tmp_item ← fat16FindItemInDirectory directory name
          fat16FatItemFree current_item
          let part ← load pathPartK next_part
          getDirectoryEntryLoop fuel part.next tmp_item

def fat16GetDirectoryEntry (path : UInt32) : KernelM UInt32 := do
  let fat_private ← fsPrivate
  let part ← load pathPartK path
  let name ← load pathNameK part.part
  let root_item ← fat16FindItemInDirectory fat_private.root_directory name
  if root_item = 0 then
    return 0
  else do
    let part ← load pathPartK path
    getDirectoryEntryLoop RASOS_PATH_MAX_LEN part.next root_item

/-! ## Resolve -/

/-- `fat16_get_root_directory` for the record at `fat_private`. -/
def fat16GetRootDirectory (fat_private : UInt32) : KernelM Int := do
  let priv ← load fatPrivateK fat_private
  let primary_header := priv.header
  let root_dir_sector_pos : Int :=
    primary_header.fat_copies.toNat * primary_header.sectors_per_fat.toNat +
      primary_header.reserved_sectors.toNat
  let root_dir_entries : Int := primary_header.root_dir_entries.toNat
  let root_dir_size := root_dir_entries * SIZEOF_FAT_DIRECTORY_ITEM
  let total_items ← fat16GetTotalItemsForDirectory (UInt32.ofInt root_dir_sector_pos)
  let dir ← kzalloc dirItemsK (UInt32.ofInt root_dir_size) (List.replicate root_dir_size.toNat 0)
  if dir = 0 then
    return - ENOMEM
  else do
    let stream := priv.directory_stream
    let res ← diskstreamerSeek stream (wrap (root_dir_sector_pos * RASOS_SECTOR_SIZE))
    if res ≠ OK then
      return - EIO
    else do
      let (res, bytes) ← diskstreamerRead stream root_dir_size
      store dirItemsK dir (bytes ++ List.replicate (root_dir_size.toNat - bytes.length) 0)
      if res ≠ OK then
        return - EIO
      else do
        let priv ← load fatPrivateK fat_private
        store fatPrivateK fat_private { priv with
          root_directory := {
            item := dir
            total := total_items
            sector_pos := root_dir_sector_pos
            ending_sector_pos := root_dir_sector_pos + root_dir_size / RASOS_SECTOR_SIZE } }
        return OK

/-- `fat16_resolve`. The private data are not checked, and the streams in them neither. -/
def fat16Resolve : KernelM Int := do
  let fat_private ← kzalloc fatPrivateK SIZEOF_FAT_PRIVATE {}
  -- fat16_init_private
  storeUnchecked fatPrivateK fat_private {}
  let cluster_read_stream ← diskstreamerNew
  let fat_read_stream ← diskstreamerNew
  let directory_stream ← diskstreamerNew
  storeUnchecked fatPrivateK fat_private {
    cluster_read_stream := cluster_read_stream
    fat_read_stream := fat_read_stream
    directory_stream := directory_stream }
  assign fun s => { s with disk := { filesystem := some .fat16, fs_private := fat_private } }
  let stream ← diskstreamerNew
  let res ← if stream = 0 then
    pure (- ENOMEM)
  else do
    let (res, bytes) ← diskstreamerRead stream SIZEOF_FAT_H
    let priv ← load fatPrivateK fat_private
    store fatPrivateK fat_private { priv with header := FatHeader.ofBytes bytes }
    if res ≠ OK then
      pure (- EIO)
    else if byteAt bytes 38 ≠ RASOS_FAT16_SIGNATURE then
      pure (- EFSNOTUS)
    else do
      let res ← fat16GetRootDirectory fat_private
      if res ≠ OK then pure (- EIO) else pure OK
  if stream ≠ 0 then
    diskstreamerClose stream
  if res < 0 then do
    kfreeUnchecked fatPrivateK fat_private
    assign fun s => { s with disk := { filesystem := none, fs_private := 0 } }
    return res
  else
    return res

/-! ## Open, read, stat and close -/

/-- `ERROR(value)`: an error code as a pointer. -/
def ERROR (value : Int) : UInt32 := UInt32.ofInt value

/-- `ISERR(value)` of a pointer. -/
def ISERR (value : UInt32) : Bool := signed value < 0

def fat16Open (path : UInt32) (mode : Nat) : KernelM UInt32 := do
  if mode ≠ FILE_MODE_READ then
    return ERROR (- ERDONLY)
  else do
    let descriptor ← kzalloc fatFileDescriptorK SIZEOF_FAT_FILE_DESCRIPTOR {}
    if descriptor = 0 then
      return ERROR (- ENOMEM)
    else do
      let item ← fat16GetDirectoryEntry path
      store fatFileDescriptorK descriptor { item := item }
      if item = 0 then
        return ERROR (- EIO)
      else do
        store fatFileDescriptorK descriptor { item := item, pos := 0 }
        return descriptor

/-- The loop of `fat16_read` with `remaining` records left to read at `offset`. -/
def fat16ReadLoop (first_cluster size : UInt32) :
    (remaining : Nat) → (offset : Int) → (out : UInt32) → KernelM Int
  | 0, _, _ => return 0
  | remaining + 1, offset, out => do
      let (res, bytes) ← fat16ReadInternal (signed first_cluster) offset (signed size)
      memWrite out bytes
      if res < 0 then
        return res
      else
        fat16ReadLoop first_cluster size remaining (wrap (offset + size.toNat)) (out + size)

/-- `fat16_read`. The union is read as a directory entry whatever the type of the item. -/
def fat16Read (descriptor size nmemb out : UInt32) : KernelM Int := do
  let fat_descriptor ← load fatFileDescriptorK descriptor
  let fat_item ← load fatItemK fat_descriptor.item
  let item ← load dirItemsK fat_item.item
  let res ← fat16ReadLoop (fat16GetFirstCluster item) size nmemb.toNat
    (signed fat_descriptor.pos) out
  if res < 0 then
    return res
  else
    return signed nmemb

abbrev SEEK_SET : Nat := 0
abbrev SEEK_CUR : Nat := 1
abbrev SEEK_END : Nat := 2

def fat16Seek (private_data offset : UInt32) (seek_mode : Nat) : KernelM Int := do
  let desc ← load fatFileDescriptorK private_data
  let desc_item ← load fatItemK desc.item
  if desc_item.type ≠ FAT_ITEM_TYPE_FILE then
    return - EINVARG
  else do
    let ritem ← load dirItemsK desc_item.item
    if offset ≥ itemFilesize ritem then
      return - EIO
    else if seek_mode = SEEK_SET then do
      store fatFileDescriptorK private_data { desc with pos := offset }
      return OK
    else if seek_mode = SEEK_END then
      return - EUNIMP
    else if seek_mode = SEEK_CUR then do
      store fatFileDescriptorK private_data { desc with pos := desc.pos + offset }
      return OK
    else
      return - EINVARG

/-- `struct file_stat`. -/
structure FileStat where
  flags : UInt32 := 0
  filesize : UInt32 := 0
  deriving DecidableEq

def fat16Stat (private_data : UInt32) : KernelM (Int × FileStat) := do
  let descriptor ← load fatFileDescriptorK private_data
  let desc_item ← load fatItemK descriptor.item
  if desc_item.type ≠ FAT_ITEM_TYPE_FILE then
    return (- EINVARG, {})
  else do
    let ritem ← load dirItemsK desc_item.item
    return (OK, {
      filesize := itemFilesize ritem
      flags := if itemAttribute ritem &&& FAT_FILE_READ_ONLY ≠ 0 then 1 else 0 })

def fat16Close (private_data : UInt32) : KernelM Int := do
  let desc ← load fatFileDescriptorK private_data
  fat16FatItemFree desc.item
  kfree fatFileDescriptorK private_data
  return OK

end RasOS
