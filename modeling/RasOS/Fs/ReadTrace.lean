import RasOS.Fs.Resolve
import RasOS.Lib.Traced

set_option autoImplicit false

/-! # What `fread` and `fat16_resolve` do with the disk

Copies of the functions behind `fread` and `fat16_resolve` that report each request for a sector, what
becomes of its result, and how the recursion of a read goes on. Without their events they are the
functions themselves. -/

namespace RasOS

open Machine Traced

/-- What a sector is read for. -/
inductive ReadPurpose
  | boot | count | root | table | data
  deriving DecidableEq

/-- `res` is the status of the read that a value comes from. -/
inductive ReadEvent
  /-- A sector is asked for. -/
  | sector (purpose : ReadPurpose) (answered : Bool)
  /-- Bytes of a sector are stored. -/
  | copied (res : Int)
  /-- An entry of the allocation table is taken for the next cluster. -/
  | link (res : Int)
  /-- `directory->total` is set; `failed` when a sector could not be read for the count. -/
  | counted (failed : Bool) (total : Int)
  /-- A division by `size_of_cluster_bytes`. -/
  | divide (size : Int)
  /-- `fat16_read_internal_from_stream` calls itself for the `rest` of `total` bytes. -/
  | again (total rest : Int)
  /-- A recursion has not ended. -/
  | exhausted
  deriving DecidableEq

/-- A request for a sector has failed. -/
def ReadEvent.isFailure : ReadEvent → Bool
  | .sector _ false => true
  | _ => false

abbrev ReadM := Traced ReadEvent Kernel

namespace ReadTrace

variable {α : Type}

/-! ## Streams -/

def diskReadBlock (purpose : ReadPurpose) (lba : Int) : ReadM (Int × Sector) := do
  emit fun s => .sector purpose (s.drive s.requests (lba % 2 ^ 28).toNat).isSome
  RasOS.diskReadBlock lba

def diskstreamerReadLoop (purpose : ReadPurpose) (stream : UInt32) : (fuel : Nat) → (total : Int) →
    ReadM (Int × List UInt8)
  | 0, _ => do
      emit fun _ => .exhausted
      liftM (stop : KernelM (Int × List UInt8))
  | fuel + 1, total => do
      let st ← load diskStreamK stream
      let sector := st.pos.tdiv RASOS_SECTOR_SIZE
      let offset := st.pos.tmod RASOS_SECTOR_SIZE
      let is_overflow := wrap (offset + total) ≥ RASOS_SECTOR_SIZE
      let bytes_in_current_sector :=
        if is_overflow then (RASOS_SECTOR_SIZE : Int) - offset else total
      let (res, buf) ← diskReadBlock purpose sector
      if res < 0 then
        return (res, [])
      else if 0 < bytes_in_current_sector ∧
          (offset < 0 ∨ offset + bytes_in_current_sector > RASOS_SECTOR_SIZE) then
        liftM (stop : KernelM (Int × List UInt8))
      else do
        emit fun _ => .copied res
        let bytes := (List.range bytes_in_current_sector.toNat).map fun i => buf (offset.toNat + i)
        store diskStreamK stream { pos := wrap (st.pos + bytes_in_current_sector) }
        if is_overflow then do
          let (res, rest) ← diskstreamerReadLoop purpose stream fuel (total - bytes_in_current_sector)
          return (res, bytes ++ rest)
        else
          return (res, bytes)

def diskstreamerRead (purpose : ReadPurpose) (stream : UInt32) (total : Int) :
    ReadM (Int × List UInt8) :=
  diskstreamerReadLoop purpose stream (total.toNat / RASOS_SECTOR_SIZE + 2) total

/-! ## Clusters -/

/-- `fat16_get_fat_entry` with the status of its read. -/
def fatEntryRes (cluster : Int) : ReadM (Int × UInt16) := do
  let priv ← fsPrivate
  let stream := priv.fat_read_stream
  if stream = 0 then
    return (OK, 0xFFFF) -- nothing is read
  else do
    let fat_table_start := fat16GetFirstFatSector priv * 512
    let _ ← diskstreamerSeek stream
      (signed (fat_table_start + UInt32.ofInt (cluster * RASOS_FAT16_FAT_ENTRY_SIZE)))
    let (res, bytes) ← diskstreamerRead .table stream 2
    if res < 0 then
      return (res, UInt16.ofInt res)
    else
      return (res, wordAt bytes 0)

def getClusterLoop : (remaining : Nat) → (current_cluster : Int) → ReadM Int
  | 0, current_cluster => return current_cluster
  | remaining + 1, current_cluster => do
      let (res, entry16) ← fatEntryRes current_cluster
      let entry : Int := entry16.toNat
      if entry = 0xFF8 ∨ entry = 0xFFF then
        return - EIO
      else if entry = RASOS_FAT16_BAD_SECTOR then
        return - EIO
      else if entry = 0xFF0 ∨ entry = 0xFF6 then
        return - EIO
      else if entry = 0x00 then
        return - EIO
      else do
        emit fun _ => .link res
        getClusterLoop remaining entry

def fat16GetClusterForOffset (starting_cluster offset : Int) : ReadM Int := do
  let priv ← fsPrivate
  let size_of_cluster_bytes := sizeOfClusterBytes priv
  emit fun _ => .divide size_of_cluster_bytes
  if size_of_cluster_bytes = 0 then
    liftM (stop : KernelM Int)
  else
    getClusterLoop (offset.tdiv size_of_cluster_bytes).toNat starting_cluster

def fat16ReadInternalFromStream (stream : UInt32) (cluster : Int) :
    (fuel : Nat) → (offset total : Int) → ReadM (Int × List UInt8)
  | 0, _, _ => do
      emit fun _ => .exhausted
      liftM (stop : KernelM (Int × List UInt8))
  | fuel + 1, offset, total => do
      let priv ← fsPrivate
      let size_of_cluster_bytes := sizeOfClusterBytes priv
      let cluster_to_use ← fat16GetClusterForOffset cluster offset
      if cluster_to_use < 0 then
        return (cluster_to_use, [])
      else do
        emit fun _ => .divide size_of_cluster_bytes
        let offset_within_cluster := offset.tmod size_of_cluster_bytes
        let starting_sector := fat16ClusterToSector priv cluster_to_use
        let starting_pos := wrap (starting_sector * RASOS_SECTOR_SIZE + offset_within_cluster)
        let total_to_read := if total > size_of_cluster_bytes then size_of_cluster_bytes else total
        let res ← diskstreamerSeek stream starting_pos
        if res ≠ OK then
          return (res, [])
        else do
          let (res, out) ← diskstreamerRead .data stream total_to_read
          if res ≠ OK then
            return (res, out)
          else if total - total_to_read > 0 then do
            emit fun _ => .again total (total - total_to_read)
            let (res, rest) ← fat16ReadInternalFromStream stream cluster fuel
              (wrap (offset + total_to_read)) (total - total_to_read)
            return (res, out ++ rest)
          else
            return (res, out)

def fat16ReadInternal (starting_cluster offset total : Int) : ReadM (Int × List UInt8) := do
  let fs_private ← fsPrivate
  fat16ReadInternalFromStream fs_private.cluster_read_stream starting_cluster (total.toNat + 1)
    offset total

/-! ## Files -/

def fat16ReadLoop (first_cluster size : UInt32) :
    (remaining : Nat) → (offset : Int) → (out : UInt32) → ReadM Int
  | 0, _, _ => return 0
  | remaining + 1, offset, out => do
      let (res, bytes) ← fat16ReadInternal (signed first_cluster) offset (signed size)
      memWrite out bytes
      if res < 0 then
        return res
      else
        fat16ReadLoop first_cluster size remaining (wrap (offset + size.toNat)) (out + size)

def fat16Read (descriptor size nmemb out : UInt32) : ReadM Int := do
  let fat_descriptor ← load fatFileDescriptorK descriptor
  let fat_item ← load fatItemK fat_descriptor.item
  let item ← load dirItemsK fat_item.item
  let res ← fat16ReadLoop (fat16GetFirstCluster item) size nmemb.toNat
    (signed fat_descriptor.pos) out
  if res < 0 then
    return res
  else
    return signed nmemb

def withFilesystem (desc : FileDescriptor) (f : ReadM α) : ReadM α :=
  match desc.filesystem with
  | none => liftM (stop : KernelM α)
  | some .fat16 => f

def fread (out size nmemb : UInt32) (fd : Int) : ReadM Int := do
  if size = 0 ∨ nmemb = 0 ∨ fd < 1 then
    return - EINVARG
  else do
    let descriptor ← fileGetDescriptor fd
    if descriptor = 0 then
      return - EINVARG
    else do
      let desc ← load fileDescriptorK descriptor
      withFilesystem desc (fat16Read desc.private_data size nmemb out)

/-! ## Resolve -/

def getTotalItemsLoop (stream : UInt32) : (fuel : Nat) → (i : Int) → ReadM Int
  | 0, _ => liftM (stop : KernelM Int)
  | fuel + 1, i => do
      let (res, item) ← diskstreamerRead .count stream SIZEOF_FAT_DIRECTORY_ITEM
      if res ≠ OK then
        return - EIO
      else if byteAt item 0 = 0x00 then
        return i
      else if byteAt item 0 = 0xE5 then
        getTotalItemsLoop stream fuel i
      else
        getTotalItemsLoop stream fuel (i + 1)

def fat16GetTotalItemsForDirectory (directory_start_sector : UInt32) : ReadM Int := do
  let fat_private ← fsPrivate
  let directory_start_pos := signed (directory_start_sector * 512)
  let stream := fat_private.directory_stream
  let res ← diskstreamerSeek stream directory_start_pos
  if res ≠ OK then
    return - EIO
  else
    getTotalItemsLoop stream (2 ^ 27) 0

/-- `fat16_get_root_directory` behind the count. -/
def loadRoot (fat_private stream : UInt32) (root_dir_sector_pos root_dir_size total_items : Int)
    (failed : Bool) : ReadM Int := do
  let dir ← kzalloc dirItemsK (UInt32.ofInt root_dir_size) (List.replicate root_dir_size.toNat 0)
  if dir = 0 then
    return - ENOMEM
  else do
    let res ← diskstreamerSeek stream (wrap (root_dir_sector_pos * RASOS_SECTOR_SIZE))
    if res ≠ OK then
      return - EIO
    else do
      let (res, bytes) ← diskstreamerRead .root stream root_dir_size
      store dirItemsK dir (bytes ++ List.replicate (root_dir_size.toNat - bytes.length) 0)
      if res ≠ OK then
        return - EIO
      else do
        let priv ← load fatPrivateK fat_private
        emit fun _ => .counted failed total_items
        store fatPrivateK fat_private { priv with
          root_directory := {
            item := dir
            total := total_items
            sector_pos := root_dir_sector_pos
            ending_sector_pos := root_dir_sector_pos + root_dir_size / RASOS_SECTOR_SIZE } }
        return OK

def fat16GetRootDirectory (fat_private : UInt32) : ReadM Int := do
  let priv ← load fatPrivateK fat_private
  let primary_header := priv.header
  let root_dir_sector_pos : Int :=
    primary_header.fat_copies.toNat * primary_header.sectors_per_fat.toNat +
      primary_header.reserved_sectors.toNat
  let root_dir_entries : Int := primary_header.root_dir_entries.toNat
  let root_dir_size := root_dir_entries * SIZEOF_FAT_DIRECTORY_ITEM
  let (total_items, reads) ← listen (fat16GetTotalItemsForDirectory (UInt32.ofInt root_dir_sector_pos))
  loadRoot fat_private priv.directory_stream root_dir_sector_pos root_dir_size total_items
    (reads.any ReadEvent.isFailure)

def resolveBoot (fat_private stream : UInt32) : ReadM Int :=
  if stream = 0 then
    return - ENOMEM
  else do
    let (res, bytes) ← diskstreamerRead .boot stream SIZEOF_FAT_H
    let priv ← load fatPrivateK fat_private
    store fatPrivateK fat_private { priv with header := FatHeader.ofBytes bytes }
    if res ≠ OK then
      return - EIO
    else if byteAt bytes 38 ≠ RASOS_FAT16_SIGNATURE then
      return - EFSNOTUS
    else
      return OK

def resolveRoot (fat_private : UInt32) (status : Int) : ReadM Int :=
  if status ≠ OK then
    return status
  else do
    let res ← fat16GetRootDirectory fat_private
    if res ≠ OK then return - EIO else return OK

def fat16Resolve : ReadM Int := do
  let (fat_private, stream) ← resolvePrivate
  let status ← resolveBoot fat_private stream
  let res ← resolveRoot fat_private status
  resolveOut fat_private stream res

/-! ## Without the events -/

theorem erase_diskReadBlock (purpose : ReadPurpose) (lba : Int) :
    (diskReadBlock purpose lba).erase = RasOS.diskReadBlock lba :=
  erase_emit_bind _ (erase_lift _)

theorem erase_diskstreamerReadLoop (purpose : ReadPurpose) (stream : UInt32) :
    ∀ (fuel : Nat) (total : Int), (diskstreamerReadLoop purpose stream fuel total).erase =
      RasOS.diskstreamerReadLoop stream fuel total := by
  intro fuel
  induction fuel with
  | zero => exact fun _ => erase_emit_bind _ (erase_lift _)
  | succ fuel ih =>
      intro total
      refine erase_bind (erase_lift _) fun st => erase_bind (erase_diskReadBlock _ _) ?_
      rintro ⟨res, buf⟩
      refine erase_ite (erase_pure _) (erase_ite (erase_lift _) (erase_emit_bind _ ?_))
      refine erase_bind (erase_lift _) fun _ => erase_ite ?_ (erase_pure _)
      exact erase_bind (ih _) fun _ => erase_pure _

theorem erase_diskstreamerRead (purpose : ReadPurpose) (stream : UInt32) (total : Int) :
    (diskstreamerRead purpose stream total).erase = RasOS.diskstreamerRead stream total :=
  erase_diskstreamerReadLoop _ _ _ _

theorem erase_fatEntryRes (cluster : Int) :
    (fatEntryRes cluster).erase >>= (fun r => pure r.2) = fat16GetFatEntry cluster := by
  refine erase_bind_bind (erase_lift _) fun priv => erase_ite_bind rfl ?_
  refine erase_bind_bind (erase_lift _) fun _ => erase_bind_bind (erase_diskstreamerRead _ _ _) ?_
  rintro ⟨res, bytes⟩
  exact erase_ite_bind rfl rfl

theorem erase_getClusterLoop : ∀ (remaining : Nat) (cluster : Int),
    (getClusterLoop remaining cluster).erase = RasOS.getClusterLoop remaining cluster := by
  intro remaining
  induction remaining with
  | zero => exact fun _ => erase_pure _
  | succ remaining ih =>
      intro cluster
      rw [RasOS.getClusterLoop, ← erase_fatEntryRes, bind_assoc]
      refine erase_bind rfl ?_
      rintro ⟨res, entry16⟩
      refine erase_ite (erase_pure _) (erase_ite (erase_pure _) (erase_ite (erase_pure _) ?_))
      exact erase_ite (erase_pure _) (erase_emit_bind _ (ih _))

theorem erase_fat16GetClusterForOffset (starting_cluster offset : Int) :
    (fat16GetClusterForOffset starting_cluster offset).erase =
      RasOS.fat16GetClusterForOffset starting_cluster offset := by
  refine erase_bind (erase_lift _) fun priv => erase_emit_bind _ ?_
  exact erase_ite (erase_lift _) (erase_getClusterLoop _ _)

theorem erase_fat16ReadInternalFromStream (stream : UInt32) (cluster : Int) :
    ∀ (fuel : Nat) (offset total : Int),
      (fat16ReadInternalFromStream stream cluster fuel offset total).erase =
        RasOS.fat16ReadInternalFromStream stream cluster fuel offset total := by
  intro fuel
  induction fuel with
  | zero => exact fun _ _ => erase_emit_bind _ (erase_lift _)
  | succ fuel ih =>
      intro offset total
      refine erase_bind (erase_lift _) fun priv => ?_
      refine erase_bind (erase_fat16GetClusterForOffset _ _) fun cluster_to_use => ?_
      refine erase_ite (erase_pure _) (erase_emit_bind _ (erase_bind (erase_lift _) fun res => ?_))
      refine erase_ite (erase_pure _) (erase_bind (erase_diskstreamerRead _ _ _) ?_)
      rintro ⟨res, out⟩
      refine erase_ite (erase_pure _) (erase_ite (erase_emit_bind _ ?_) (erase_pure _))
      exact erase_bind (ih _ _) fun _ => erase_pure _

theorem erase_fat16ReadInternal (starting_cluster offset total : Int) :
    (fat16ReadInternal starting_cluster offset total).erase =
      RasOS.fat16ReadInternal starting_cluster offset total :=
  erase_bind (erase_lift _) fun _ => erase_fat16ReadInternalFromStream _ _ _ _ _

theorem erase_fat16ReadLoop (first_cluster size : UInt32) :
    ∀ (remaining : Nat) (offset : Int) (out : UInt32),
      (fat16ReadLoop first_cluster size remaining offset out).erase =
        RasOS.fat16ReadLoop first_cluster size remaining offset out := by
  intro remaining
  induction remaining with
  | zero => exact fun _ _ => erase_pure _
  | succ remaining ih =>
      intro offset out
      refine erase_bind (erase_fat16ReadInternal _ _ _) ?_
      rintro ⟨res, bytes⟩
      exact erase_bind (erase_lift _) fun _ => erase_ite (erase_pure _) (ih _ _)

theorem erase_fat16Read (descriptor size nmemb out : UInt32) :
    (fat16Read descriptor size nmemb out).erase = RasOS.fat16Read descriptor size nmemb out := by
  refine erase_bind (erase_lift _) fun _ => erase_bind (erase_lift _) fun _ => ?_
  refine erase_bind (erase_lift _) fun _ => erase_bind (erase_fat16ReadLoop _ _ _ _ _) fun res => ?_
  exact erase_ite (erase_pure _) (erase_pure _)

theorem erase_withFilesystem (desc : FileDescriptor) {f : ReadM α} {y : KernelM α}
    (h : f.erase = y) : (withFilesystem desc f).erase = RasOS.withFilesystem desc y := by
  unfold withFilesystem RasOS.withFilesystem
  cases desc.filesystem with
  | none => exact erase_lift _
  | some filesystem =>
      cases filesystem
      exact h

/-- **`fread`** is the function. -/
theorem erase_fread (out size nmemb : UInt32) (fd : Int) :
    (fread out size nmemb fd).erase = RasOS.fread out size nmemb fd := by
  refine erase_ite (erase_pure _) (erase_bind (erase_lift _) fun descriptor => ?_)
  refine erase_ite (erase_pure _) (erase_bind (erase_lift _) fun desc => ?_)
  exact erase_withFilesystem desc (erase_fat16Read _ _ _ _)

theorem erase_getTotalItemsLoop (stream : UInt32) : ∀ (fuel : Nat) (i : Int),
    (getTotalItemsLoop stream fuel i).erase = RasOS.getTotalItemsLoop stream fuel i := by
  intro fuel
  induction fuel with
  | zero => exact fun _ => erase_lift _
  | succ fuel ih =>
      intro i
      refine erase_bind (erase_diskstreamerRead _ _ _) ?_
      rintro ⟨res, item⟩
      refine erase_ite (erase_pure _) (erase_ite (erase_pure _) ?_)
      exact erase_ite (ih _) (ih _)

theorem erase_fat16GetTotalItemsForDirectory (directory_start_sector : UInt32) :
    (fat16GetTotalItemsForDirectory directory_start_sector).erase =
      RasOS.fat16GetTotalItemsForDirectory directory_start_sector := by
  refine erase_bind (erase_lift _) fun _ => erase_bind (erase_lift _) fun res => ?_
  exact erase_ite (erase_pure _) (erase_getTotalItemsLoop _ _ _)

theorem erase_fat16GetRootDirectory (fat_private : UInt32) :
    (fat16GetRootDirectory fat_private).erase = RasOS.fat16GetRootDirectory fat_private := by
  refine erase_bind (erase_lift _) fun priv => ?_
  refine erase_listen_bind (erase_fat16GetTotalItemsForDirectory _) ?_
  rintro ⟨total_items, reads⟩
  refine erase_bind (erase_lift _) fun dir => erase_ite (erase_pure _) ?_
  refine erase_bind (erase_lift _) fun res => erase_ite (erase_pure _) ?_
  refine erase_bind (erase_diskstreamerRead _ _ _) ?_
  rintro ⟨res, bytes⟩
  refine erase_bind (erase_lift _) fun _ => erase_ite (erase_pure _) ?_
  refine erase_bind (erase_lift _) fun priv => erase_emit_bind _ ?_
  exact erase_bind (erase_lift _) fun _ => erase_pure _

theorem erase_resolveBoot (fat_private stream : UInt32) :
    (resolveBoot fat_private stream).erase = RasOS.resolveBoot fat_private stream := by
  refine erase_ite (erase_pure _) (erase_bind (erase_diskstreamerRead _ _ _) ?_)
  rintro ⟨res, bytes⟩
  refine erase_bind (erase_lift _) fun priv => erase_bind (erase_lift _) fun _ => ?_
  exact erase_ite (erase_pure _) (erase_ite (erase_pure _) (erase_pure _))

theorem erase_resolveRoot (fat_private : UInt32) (status : Int) :
    (resolveRoot fat_private status).erase = RasOS.resolveRoot fat_private status := by
  refine erase_ite (erase_pure _) (erase_bind (erase_fat16GetRootDirectory _) fun res => ?_)
  exact erase_ite (erase_pure _) (erase_pure _)

/-- **`fat16_resolve`** is the function. -/
theorem erase_fat16Resolve : fat16Resolve.erase = RasOS.fat16Resolve := by
  rw [fat16Resolve_parts]
  refine erase_bind (erase_lift _) ?_
  rintro ⟨fat_private, stream⟩
  refine erase_bind (erase_resolveBoot _ _) fun status => ?_
  exact erase_bind (erase_resolveRoot _ _) fun res => erase_lift _

end ReadTrace

end RasOS
