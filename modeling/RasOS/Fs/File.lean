import RasOS.Fs.Fat16

set_option autoImplicit false

/-! # Files (`fs/file.c`)

FAT16 is the only file system registered, so the function pointers of `struct filesystem` are its
functions. -/

namespace RasOS

open Machine

abbrev FILE_MODE_WRITE : Nat := 1
abbrev FILE_MODE_APPEND : Nat := 2
abbrev FILE_MODE_INVALID : Nat := 3

/-- The loop of `file_new_descriptor` from slot `i` on: status and descriptor. -/
def fileNewDescriptorLoop : (remaining i : Nat) → KernelM (Int × UInt32)
  | 0, _ => return (- ENOMEM, 0)
  | remaining + 1, i => do
      let slot ← fetch fun s => s.file_descriptors i
      if slot = 0 then do
        let desc ← kzalloc fileDescriptorK SIZEOF_FILE_DESCRIPTOR {}
        store fileDescriptorK desc { index := i + 1 } -- descriptors start at 1
        assign fun s => { s with file_descriptors := Function.update s.file_descriptors i desc }
        return (OK, desc)
      else
        fileNewDescriptorLoop remaining (i + 1)

def fileNewDescriptor : KernelM (Int × UInt32) :=
  fileNewDescriptorLoop RASOS_MAX_FILEDESCRIPTORS 0

def fileFreeDescriptor (desc : UInt32) : KernelM Unit := do
  let d ← load fileDescriptorK desc
  assign fun s => { s with
    file_descriptors := Function.update s.file_descriptors (d.index - 1).toNat 0 }
  kfree fileDescriptorK desc

/-- `file_get_descriptor`; `0` when there is none. -/
def fileGetDescriptor (fd : Int) : KernelM UInt32 :=
  if fd ≤ 0 ∨ fd ≥ RASOS_MAX_FILEDESCRIPTORS then return 0
  else fetch fun s => s.file_descriptors (fd - 1).toNat

def fileGetModeByString (str : List UInt8) : Nat :=
  if strncmp str [0x72] 1 = 0 then FILE_MODE_READ
  else if strncmp str [0x77] 1 = 0 then FILE_MODE_WRITE
  else if strncmp str [0x61] 1 = 0 then FILE_MODE_APPEND
  else FILE_MODE_INVALID

/-- The body of `fopen` up to its label `out`. -/
def fopenRes (filename mode_str : List UInt8) : KernelM Int := do
  let root_path ← pathparserParse filename
  if root_path = 0 then
    return - EINVARG
  else do
    let root ← load pathRootK root_path
    if root.first = 0 then
      return - EINVARG
    else if !diskGet root.drive_number then
      return - EIO
    else do
      let filesystem ← fetch fun s => s.disk.filesystem
      if filesystem = none then
        return - EIO
      else
        let mode := fileGetModeByString mode_str
        if mode = FILE_MODE_INVALID then
          return - EINVARG
        else do
          let descriptor_private_data ← fat16Open root.first mode
          if ISERR descriptor_private_data then
            return signed descriptor_private_data
          else do
            let (res, descriptor) ← fileNewDescriptor
            if res < 0 then
              return res
            else do
              let d ← load fileDescriptorK descriptor
              store fileDescriptorK descriptor { d with
                filesystem := filesystem
                private_data := descriptor_private_data }
              return d.index

/-- `fopen`: a descriptor, or `0`. -/
def fopen (filename mode_str : List UInt8) : KernelM Int := do
  let res ← fopenRes filename mode_str
  return if res < 0 then 0 else res

/-- `desc->filesystem->f`: stops when the pointer is null. -/
def withFilesystem {α : Type} (desc : FileDescriptor) (f : KernelM α) : KernelM α :=
  match desc.filesystem with
  | none => stop
  | some .fat16 => f

def fread (out size nmemb : UInt32) (fd : Int) : KernelM Int := do
  if size = 0 ∨ nmemb = 0 ∨ fd < 1 then
    return - EINVARG
  else do
    let descriptor ← fileGetDescriptor fd
    if descriptor = 0 then
      return - EINVARG
    else do
      let desc ← load fileDescriptorK descriptor
      withFilesystem desc (fat16Read desc.private_data size nmemb out)

/-- `fseek`. It tests `fd`, not the descriptor it has looked up. -/
def fseek (fd offset : Int) (whence : Nat) : KernelM Int := do
  let desc ← fileGetDescriptor fd
  if fd = 0 then
    return EINVARG
  else do
    let desc ← load fileDescriptorK desc
    withFilesystem desc (fat16Seek desc.private_data (UInt32.ofInt offset) whence)

def fstat (fd : Int) : KernelM (Int × FileStat) := do
  let desc ← fileGetDescriptor fd
  if desc = 0 then
    return (- EINVARG, {})
  else do
    let desc ← load fileDescriptorK desc
    withFilesystem desc (fat16Stat desc.private_data)

def fclose (fd : Int) : KernelM Int := do
  let descriptor ← fileGetDescriptor fd
  if descriptor = 0 then
    return - EINVARG
  else do
    let desc ← load fileDescriptorK descriptor
    let res ← withFilesystem desc (fat16Close desc.private_data)
    if res = OK then do
      fileFreeDescriptor descriptor
      return res
    else
      return res

end RasOS
