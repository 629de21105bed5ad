import RasOS.Fs.File
import RasOS.Lib.Traced

set_option autoImplicit false

/-! # What `fopen` and `fclose` do with the heap

Copies of the functions behind `fopen` and `fclose` that report each `kfree`, each read of a
directory, an item or an array of entries, and each return of `fat16_load_fat_directory`. Without
their events they are the functions themselves. -/

namespace RasOS

open Machine Traced

/-- `live` says whether the pointer is that of a live object of its type. -/
inductive HeapEvent
  /-- `kfree(ptr)`. -/
  | free (ptr : UInt32) (live : Bool)
  /-- The object `ptr` points to is read. -/
  | read (ptr : UInt32) (live : Bool)
  /-- `fat16_load_fat_directory` returns `directory`, with `res` at its label `out`. -/
  | loaded (res : Int) (directory : UInt32) (live : Bool)
  /-- A component of a path is empty; `name` is the buffer that was asked for it. -/
  | emptyPart (name : UInt32)
  deriving DecidableEq

abbrev TraceM := Traced HeapEvent Kernel

namespace Trace

variable {α : Type}

def isLive (k : Kind Obj α) (ptr : UInt32) (s : Kernel) : Bool := (k.read s.live ptr).isSome

def kfree (k : Kind Obj α) (ptr : UInt32) : TraceM Unit := do
  emit fun s => .free ptr (isLive k ptr s)
  RasOS.kfree k ptr

/-- The pointer may be null. -/
def kfreeUnchecked (k : Kind Obj α) (ptr : UInt32) : TraceM Unit := do
  emit fun s => .free ptr (isLive k ptr s)
  RasOS.kfreeUnchecked k ptr

def read (k : Kind Obj α) (ptr : UInt32) : TraceM α := do
  emit fun s => .read ptr (isLive k ptr s)
  load k ptr

/-! ## Directories and items -/

def fat16FreeDirectory (directory : UInt32) : TraceM Unit := do
  if directory = 0 then
    return ()
  else do
    let d ← read fatDirectoryK directory
    if d.item = 0 then
      kfree fatDirectoryK directory
    else do
      kfree dirItemsK d.item
      kfree fatDirectoryK directory

def fat16FatItemFree (item : UInt32) : TraceM Unit := do
  let it ← read fatItemK item
  if it.type = FAT_ITEM_TYPE_DIRECTORY then do
    fat16FreeDirectory it.item
    kfree fatItemK item
  else if it.type = FAT_ITEM_TYPE_FILE then do
    kfree dirItemsK it.item
    kfree fatItemK item
  else
    kfree fatItemK item

/-- `fat16_load_fat_directory` with `res`. -/
def loadFatDirectoryRes (item : List UInt8) : TraceM (Int × UInt32) := do
  if !itemIsSubdirectory item then
    return (- EINVARG, 0)
  else do
    let directory ← kzalloc fatDirectoryK SIZEOF_FAT_DIRECTORY {}
    if directory = 0 then
      return (- ENOMEM, 0)
    else do
      let fat_private ← fsPrivate
      let cluster := signed (fat16GetFirstCluster item)
      let cluster_sector := fat16ClusterToSector fat_private cluster
      let total_items ← fat16GetTotalItemsForDirectory (UInt32.ofInt cluster_sector)
      let directory_size := wrap (total_items * SIZEOF_FAT_DIRECTORY_ITEM)
      let items ← kzalloc dirItemsK (UInt32.ofInt directory_size)
        (List.replicate (UInt32.ofInt directory_size).toNat 0)
      store fatDirectoryK directory { total := total_items, item := items }
      if items = 0 then do
        fat16FreeDirectory directory
        return (- ENOMEM, directory)
      else do
        let (res, bytes) ← fat16ReadInternal cluster 0x00 directory_size
        store dirItemsK items
          (bytes ++ List.replicate ((UInt32.ofInt directory_size).toNat - bytes.length) 0)
        if res ≠ OK then do
          fat16FreeDirectory directory
          return (res, directory)
        else
          return (res, directory)

def fat16LoadFatDirectory (item : List UInt8) : TraceM UInt32 := do
  let (res, directory) ← loadFatDirectoryRes item
  emit fun s => .loaded res directory (isLive fatDirectoryK directory s)
  return directory

def fat16NewFatItemForDirectoryItem (item : List UInt8) : TraceM UInt32 := do
  let f_item ← kzalloc fatItemK SIZEOF_FAT_ITEM {}
  if f_item = 0 then
    return 0
  else if itemIsSubdirectory item then do
    let directory ← fat16LoadFatDirectory item
    store fatItemK f_item { item := directory, type := FAT_ITEM_TYPE_DIRECTORY }
    return f_item
  else do
    let copy ← fat16CloneDirectoryItem item
    store fatItemK f_item { item := copy, type := FAT_ITEM_TYPE_FILE }
    return f_item

def findItemLoop (directory : FatDirectory) (name : List UInt8) :
    (remaining i : Nat) → (f_item : UInt32) → TraceM UInt32
  | 0, _, f_item => return f_item
  | remaining + 1, i, f_item => do
      let items ← read dirItemsK directory.item
      let item := items.drop (i * SIZEOF_FAT_DIRECTORY_ITEM)
      match combineFilenameAndExt item RASOS_PATH_MAX_LEN with
      | none => liftM (stop : KernelM UInt32)
      | some tmp_filename =>
          if istrncmp tmp_filename name RASOS_PATH_MAX_LEN = 0 then do
            let f_item ← fat16NewFatItemForDirectoryItem (item.take SIZEOF_FAT_DIRECTORY_ITEM)
            findItemLoop directory name remaining (i + 1) f_item
          else
            findItemLoop directory name remaining (i + 1) f_item

def fat16FindItemInDirectory (directory : FatDirectory) (name : List UInt8) : TraceM UInt32 :=
  findItemLoop directory name directory.total.toNat 0 0

def getDirectoryEntryLoop : (fuel : Nat) → (next_part current_item : UInt32) → TraceM UInt32
  | 0, _, _ => liftM (stop : KernelM UInt32)
  | fuel + 1, next_part, current_item => do
      if next_part = 0 then
        return current_item
      else do
        let it ← read fatItemK current_item
        if it.type ≠ FAT_ITEM_TYPE_DIRECTORY then
          return 0
        else do
          let part ← load pathPartK next_part
          let directory ← read fatDirectoryK it.item
          let name ← load pathNameK part.part
          let tmp_item ← fat16FindItemInDirectory directory name
          fat16FatItemFree current_item
          let part ← load pathPartK next_part
          getDirectoryEntryLoop fuel part.next tmp_item

def fat16GetDirectoryEntry (path : UInt32) : TraceM UInt32 := do
  let fat_private ← fsPrivate
  let part ← load pathPartK path
  let name ← load pathNameK part.part
  let root_item ← fat16FindItemInDirectory fat_private.root_directory name
  if root_item = 0 then
    return 0
  else do
    let part ← load pathPartK path
    getDirectoryEntryLoop RASOS_PATH_MAX_LEN part.next root_item

def fat16Open (path : UInt32) (mode : Nat) : TraceM UInt32 := do
  if mode ≠ FILE_MODE_READ then
    return ERROR (- ERDONLY)
  else do
    let descriptor ← kzalloc fatFileDescriptorK SIZEOF_FAT_FILE_DESCRIPTOR {}
    if descriptor = 0 then
      return ERROR (- ENOMEM)
    else do
      let item ← fat16GetDirectoryEntry path
      store fatFileDescriptorK descriptor { item := item }
      if item = 0 then
        return ERROR (- EIO)
      else do
        store fatFileDescriptorK descriptor { item := item, pos := 0 }
        return descriptor

def fat16Close (private_data : UInt32) : TraceM Int := do
  let desc ← load fatFileDescriptorK private_data
  fat16FatItemFree desc.item
  kfree fatFileDescriptorK private_data
  return OK

/-! ## Paths -/

def getNextPathPart (path : List UInt8) : TraceM (UInt32 × List UInt8) := do
  let result_path_part ← kzalloc pathNameK 128 []
  let part := path.takeWhile (· ≠ SLASH)
  let rest := (path.dropWhile (· ≠ SLASH)).drop 1
  if part = [] then do
    emit fun _ => .emptyPart result_path_part
    kfreeUnchecked pathNameK result_path_part
    return (0, rest)
  else if part.length ≥ RASOS_PATH_MAX_LEN then
    liftM (stop : KernelM (UInt32 × List UInt8))
  else do
    storeUnchecked pathNameK result_path_part part
    return (result_path_part, rest)

def parsePathPart (last_part : UInt32) (path : List UInt8) : TraceM (UInt32 × List UInt8) := do
  let (path_part_name, path) ← getNextPathPart path
  if path_part_name = 0 then
    return (0, path)
  else do
    let part ← kzalloc pathPartK SIZEOF_PATH_PART {}
    storeUnchecked pathPartK part { part := path_part_name, next := 0 }
    if last_part = 0 then
      return (part, path)
    else do
      let last ← load pathPartK last_part
      store pathPartK last_part { last with next := part }
      return (part, path)

def pathparserLoop : (fuel : Nat) → (part : UInt32) → (path : List UInt8) → TraceM Unit
  | 0, _, _ => liftM (stop : KernelM Unit)
  | fuel + 1, part, path => do
      if part = 0 then
        return ()
      else do
        let (part, path) ← parsePathPart part path
        pathparserLoop fuel part path

def pathparserParse (path : List UInt8) : TraceM UInt32 := do
  if path.length > RASOS_PATH_MAX_LEN then
    return 0
  else
    let (drive_number, tmp_path) := getDriveFromPath path
    if drive_number < 0 then
      return 0
    else do
      let path_root ← createRoot drive_number
      if path_root = 0 then
        return 0
      else do
        let (first_part, tmp_path) ← parsePathPart 0 tmp_path
        if first_part = 0 then
          return 0
        else do
          let root ← load pathRootK path_root
          store pathRootK path_root { root with first := first_part }
          let (part, tmp_path) ← parsePathPart first_part tmp_path
          pathparserLoop (RASOS_PATH_MAX_LEN + 1) part tmp_path
          return path_root

/-! ## Files -/

def fileFreeDescriptor (desc : UInt32) : TraceM Unit := do
  let d ← load fileDescriptorK desc
  assign fun s => { s with
    file_descriptors := Function.update s.file_descriptors (d.index - 1).toNat 0 }
  kfree fileDescriptorK desc

def fopenRes (filename mode_str : List UInt8) : TraceM Int := do
  let root_path ← pathparserParse filename
  if root_path = 0 then
    return - EINVARG
  else do
    let root ← load pathRootK root_path
    if root.first = 0 then
      return - EINVARG
    else if !diskGet root.drive_number then
      return - EIO
    else do
      let filesystem ← fetch fun s => s.disk.filesystem
      if filesystem = none then
        return - EIO
      else
        let mode := fileGetModeByString mode_str
        if mode = FILE_MODE_INVALID then
          return - EINVARG
        else do
          let descriptor_private_data ← fat16Open root.first mode
          if ISERR descriptor_private_data then
            return signed descriptor_private_data
          else do
            let (res, descriptor) ← fileNewDescriptor
            if res < 0 then
              return res
            else do
              let d ← load fileDescriptorK descriptor
              store fileDescriptorK descriptor { d with
                filesystem := filesystem
                private_data := descriptor_private_data }
              return d.index

def fopen (filename mode_str : List UInt8) : TraceM Int := do
  let res ← fopenRes filename mode_str
  return if res < 0 then 0 else res

def withFilesystem (desc : FileDescriptor) (f : TraceM α) : TraceM α :=
  match desc.filesystem with
  | none => liftM (stop : KernelM α)
  | some .fat16 => f

def fclose (fd : Int) : TraceM Int := do
  let descriptor ← fileGetDescriptor fd
  if descriptor = 0 then
    return - EINVARG
  else do
    let desc ← load fileDescriptorK descriptor
    let res ← withFilesystem desc (fat16Close desc.private_data)
    if res = OK then do
      fileFreeDescriptor descriptor
      return res
    else
      return res

/-! ## Without the events -/

theorem erase_kfree (k : Kind Obj α) (ptr : UInt32) : (kfree k ptr).erase = RasOS.kfree k ptr :=
  erase_emit_bind _ (erase_lift _)

theorem erase_kfreeUnchecked (k : Kind Obj α) (ptr : UInt32) :
    (kfreeUnchecked k ptr).erase = RasOS.kfreeUnchecked k ptr := erase_emit_bind _ (erase_lift _)

theorem erase_read (k : Kind Obj α) (ptr : UInt32) : (read k ptr).erase = load k ptr :=
  erase_emit_bind _ (erase_lift _)

theorem erase_fat16FreeDirectory (directory : UInt32) :
    (fat16FreeDirectory directory).erase = RasOS.fat16FreeDirectory directory := by
  refine erase_ite (erase_pure _) (erase_bind (erase_read _ _) fun d => ?_)
  refine erase_ite (erase_kfree _ _) (erase_bind (erase_kfree _ _) fun _ => ?_)
  exact erase_kfree _ _

theorem erase_fat16FatItemFree (item : UInt32) :
    (fat16FatItemFree item).erase = RasOS.fat16FatItemFree item := by
  refine erase_bind (erase_read _ _) fun it => erase_ite ?_ (erase_ite ?_ ?_)
  · exact erase_bind (erase_fat16FreeDirectory _) fun _ => erase_kfree _ _
  · exact erase_bind (erase_kfree _ _) fun _ => erase_kfree _ _
  · exact erase_kfree _ _

theorem erase_fat16LoadFatDirectory (item : List UInt8) :
    (fat16LoadFatDirectory item).erase = RasOS.fat16LoadFatDirectory item := by
  have hres : (fat16LoadFatDirectory item).erase =
      (loadFatDirectoryRes item).erase >>= fun r => pure r.2 := by
    refine erase_bind rfl ?_
    rintro ⟨res, directory⟩
    exact erase_emit_bind _ (erase_pure _)
  rw [hres]
  refine erase_ite_bind rfl (erase_bind_bind (erase_lift _) fun directory => erase_ite_bind rfl ?_)
  refine erase_bind_bind (erase_lift _) fun priv => erase_bind_bind (erase_lift _) fun total_items => ?_
  refine erase_bind_bind (erase_lift _) fun items => erase_bind_bind (erase_lift _) fun _ => ?_
  refine erase_ite_bind (erase_bind_bind (erase_fat16FreeDirectory _) fun _ => rfl) ?_
  refine erase_bind_bind (erase_lift _) ?_
  rintro ⟨res, bytes⟩
  refine erase_bind_bind (erase_lift _) fun _ => erase_ite_bind ?_ rfl
  exact erase_bind_bind (erase_fat16FreeDirectory _) fun _ => rfl

theorem erase_fat16NewFatItemForDirectoryItem (item : List UInt8) :
    (fat16NewFatItemForDirectoryItem item).erase = RasOS.fat16NewFatItemForDirectoryItem item := by
  refine erase_bind (erase_lift _) fun f_item => erase_ite (erase_pure _) (erase_ite ?_ ?_)
  · refine erase_bind (erase_fat16LoadFatDirectory _) fun directory => ?_
    exact erase_bind (erase_lift _) fun _ => erase_pure _
  · refine erase_bind (erase_lift _) fun copy => ?_
    exact erase_bind (erase_lift _) fun _ => erase_pure _

theorem erase_findItemLoop (directory : FatDirectory) (name : List UInt8) :
    ∀ (remaining i : Nat) (f_item : UInt32), (findItemLoop directory name remaining i f_item).erase =
      RasOS.findItemLoop directory name remaining i f_item := by
  intro remaining
  induction remaining with
  | zero => exact fun _ _ => erase_pure _
  | succ remaining ih =>
      intro i f_item
      refine erase_bind (erase_read _ _) fun items => ?_
      dsimp only
      cases combineFilenameAndExt (items.drop (i * SIZEOF_FAT_DIRECTORY_ITEM)) RASOS_PATH_MAX_LEN with
      | none => exact erase_lift _
      | some tmp_filename =>
          refine erase_ite (erase_bind (erase_fat16NewFatItemForDirectoryItem _) fun _ => ?_) (ih _ _)
          exact ih _ _

theorem erase_fat16FindItemInDirectory (directory : FatDirectory) (name : List UInt8) :
    (fat16FindItemInDirectory directory name).erase = RasOS.fat16FindItemInDirectory directory name :=
  erase_findItemLoop _ _ _ _ _

theorem erase_getDirectoryEntryLoop : ∀ (fuel : Nat) (next_part current_item : UInt32),
    (getDirectoryEntryLoop fuel next_part current_item).erase =
      RasOS.getDirectoryEntryLoop fuel next_part current_item := by
  intro fuel
  induction fuel with
  | zero => exact fun _ _ => erase_lift _
  | succ fuel ih =>
      intro next_part current_item
      refine erase_ite (erase_pure _) (erase_bind (erase_read _ _) fun it => ?_)
      refine erase_ite (erase_pure _) (erase_bind (erase_lift _) fun part => ?_)
      refine erase_bind (erase_read _ _) fun directory => erase_bind (erase_lift _) fun name => ?_
      refine erase_bind (erase_fat16FindItemInDirectory _ _) fun tmp_item => ?_
      refine erase_bind (erase_fat16FatItemFree _) fun _ => ?_
      exact erase_bind (erase_lift _) fun _ => ih _ _

theorem erase_fat16GetDirectoryEntry (path : UInt32) :
    (fat16GetDirectoryEntry path).erase = RasOS.fat16GetDirectoryEntry path := by
  refine erase_bind (erase_lift _) fun priv => erase_bind (erase_lift _) fun part => ?_
  refine erase_bind (erase_lift _) fun name => ?_
  refine erase_bind (erase_fat16FindItemInDirectory _ _) fun root_item => ?_
  refine erase_ite (erase_pure _) (erase_bind (erase_lift _) fun _ => ?_)
  exact erase_getDirectoryEntryLoop _ _ _

theorem erase_fat16Open (path : UInt32) (mode : Nat) :
    (fat16Open path mode).erase = RasOS.fat16Open path mode := by
  refine erase_ite (erase_pure _) (erase_bind (erase_lift _) fun descriptor => ?_)
  refine erase_ite (erase_pure _) (erase_bind (erase_fat16GetDirectoryEntry _) fun item => ?_)
  refine erase_bind (erase_lift _) fun _ => erase_ite (erase_pure _) ?_
  exact erase_bind (erase_lift _) fun _ => erase_pure _

theorem erase_fat16Close (private_data : UInt32) :
    (fat16Close private_data).erase = RasOS.fat16Close private_data := by
  refine erase_bind (erase_lift _) fun desc => erase_bind (erase_fat16FatItemFree _) fun _ => ?_
  exact erase_bind (erase_kfree _ _) fun _ => erase_pure _

theorem erase_getNextPathPart (path : List UInt8) :
    (getNextPathPart path).erase = RasOS.getNextPathPart path := by
  refine erase_bind (erase_lift _) fun name => erase_ite ?_ (erase_ite (erase_lift _) ?_)
  · exact erase_emit_bind _ (erase_bind (erase_kfreeUnchecked _ _) fun _ => erase_pure _)
  · exact erase_bind (erase_lift _) fun _ => erase_pure _

theorem erase_parsePathPart (last_part : UInt32) (path : List UInt8) :
    (parsePathPart last_part path).erase = RasOS.parsePathPart last_part path := by
  refine erase_bind (erase_getNextPathPart _) ?_
  rintro ⟨name, rest⟩
  refine erase_ite (erase_pure _) (erase_bind (erase_lift _) fun part => ?_)
  refine erase_bind (erase_lift _) fun _ => erase_ite (erase_pure _) ?_
  refine erase_bind (erase_lift _) fun last => ?_
  exact erase_bind (erase_lift _) fun _ => erase_pure _

theorem erase_pathparserLoop : ∀ (fuel : Nat) (part : UInt32) (path : List UInt8),
    (pathparserLoop fuel part path).erase = RasOS.pathparserLoop fuel part path := by
  intro fuel
  induction fuel with
  | zero => exact fun _ _ => erase_lift _
  | succ fuel ih =>
      intro part path
      refine erase_ite (erase_pure _) (erase_bind (erase_parsePathPart _ _) ?_)
      rintro ⟨part, path⟩
      exact ih _ _

theorem erase_pathparserParse (path : List UInt8) :
    (pathparserParse path).erase = RasOS.pathparserParse path := by
  refine erase_ite (erase_pure _) (erase_ite (erase_pure _) ?_)
  refine erase_bind (erase_lift _) fun path_root => erase_ite (erase_pure _) ?_
  refine erase_bind (erase_parsePathPart _ _) ?_
  rintro ⟨first_part, tmp_path⟩
  refine erase_ite (erase_pure _) (erase_bind (erase_lift _) fun root => ?_)
  refine erase_bind (erase_lift _) fun _ => erase_bind (erase_parsePathPart _ _) ?_
  rintro ⟨part, tmp_path⟩
  exact erase_bind (erase_pathparserLoop _ _ _) fun _ => erase_pure _

theorem erase_fopen (filename mode_str : List UInt8) :
    (fopen filename mode_str).erase = RasOS.fopen filename mode_str := by
  refine erase_bind ?_ fun res => erase_pure _
  refine erase_bind (erase_pathparserParse _) fun root_path => erase_ite (erase_pure _) ?_
  refine erase_bind (erase_lift _) fun root => erase_ite (erase_pure _) (erase_ite (erase_pure _) ?_)
  refine erase_bind (erase_lift _) fun filesystem => erase_ite (erase_pure _) ?_
  refine erase_ite (erase_pure _) (erase_bind (erase_fat16Open _ _) fun priv => ?_)
  refine erase_ite (erase_pure _) (erase_bind (erase_lift _) ?_)
  rintro ⟨res, descriptor⟩
  refine erase_ite (erase_pure _) (erase_bind (erase_lift _) fun d => ?_)
  exact erase_bind (erase_lift _) fun _ => erase_pure _

theorem erase_fclose (fd : Int) : (fclose fd).erase = RasOS.fclose fd := by
  refine erase_bind (erase_lift _) fun descriptor => erase_ite (erase_pure _) ?_
  refine erase_bind (erase_lift _) fun desc => erase_bind ?_ fun res => erase_ite ?_ (erase_pure _)
  · unfold withFilesystem RasOS.withFilesystem
    cases desc.filesystem with
    | none => exact erase_lift _
    | some fs => exact erase_fat16Close _
  · refine erase_bind ?_ fun _ => erase_pure _
    refine erase_bind (erase_lift _) fun d => erase_bind (erase_lift _) fun _ => ?_
    exact erase_kfree _ _

end Trace

end RasOS
