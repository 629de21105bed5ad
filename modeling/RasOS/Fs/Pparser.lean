import RasOS.Kernel.State
import RasOS.CString

set_option autoImplicit false

/-! # The path parser (`fs/pparser.c`)

The cursor `const char** path` of the C code is the rest of the path; a function that moves it
returns what is left. None of the allocations is checked before it is written to. -/

namespace RasOS

open Machine

def SLASH : UInt8 := 0x2F
def COLON : UInt8 := 0x3A

/-- `is_valid_path`: a path like `0:/dir_name/file_name`. -/
def isValidPath (path : List UInt8) : Bool :=
  if path.length > RASOS_PATH_MAX_LEN ∨ path.length < 3 then false
  else if !isDigit (path.headD 0) then false
  else (path.drop 1).take 2 == [COLON, SLASH]

/-- `get_drive_from_path`: the drive number and the path behind the drive. -/
def getDriveFromPath (path : List UInt8) : Int × List UInt8 :=
  if !isValidPath path then (- EBADPATH, path)
  else ((path.headD 0).toNat - 48, path.drop 3)

def createRoot (drive_number : Int) : KernelM UInt32 := do
  let path_r ← kzalloc pathRootK SIZEOF_PATH_ROOT {}
  storeUnchecked pathRootK path_r { drive_number := drive_number, first := 0 }
  return path_r

/-- `get_next_path_part`. The component is copied into a zeroed buffer of `RASOS_PATH_MAX_LEN`
bytes; one without room for its terminator runs past the end. Without a block for the buffer the component
is lost: the result is null, as for an empty one. -/
def getNextPathPart (path : List UInt8) : KernelM (UInt32 × List UInt8) := do
  let result_path_part ← kzalloc pathNameK 128 []
  let part := path.takeWhile (· ≠ SLASH)
  let rest := (path.dropWhile (· ≠ SLASH)).drop 1
  if part = [] then do
    kfreeUnchecked pathNameK result_path_part
    return (0, rest)
  else if part.length ≥ RASOS_PATH_MAX_LEN then
    stop
  else do
    storeUnchecked pathNameK result_path_part part
    return (result_path_part, rest)

def parsePathPart (last_part : UInt32) (path : List UInt8) : KernelM (UInt32 × List UInt8) := do
  let (path_part_name, path) ← getNextPathPart path
  if path_part_name = 0 then
    return (0, path)
  else do
    let part ← kzalloc pathPartK SIZEOF_PATH_PART {}
    storeUnchecked pathPartK part { part := path_part_name, next := 0 }
    if last_part = 0 then
      return (part, path)
    else do
      let last ← load pathPartK last_part
      store pathPartK last_part { last with next := part }
      return (part, path)

/-- The `while` loop of `pathparser_parse`. Every turn but the last one consumes a byte. -/
def pathparserLoop : (fuel : Nat) → (part : UInt32) → (path : List UInt8) → KernelM Unit
  | 0, _, _ => stop
  | fuel + 1, part, path => do
      if part = 0 then
        return ()
      else do
        let (part, path) ← parsePathPart part path
        pathparserLoop fuel part path

/-- `pathparser_parse`; the second argument of the C function is not used. -/
def pathparserParse (path : List UInt8) : KernelM UInt32 := do
  if path.length > RASOS_PATH_MAX_LEN then
    return 0
  else
    let (drive_number, tmp_path) := getDriveFromPath path
    if drive_number < 0 then
      return 0
    else do
      let path_root ← createRoot drive_number
      if path_root = 0 then
        return 0
      else do
        let (first_part, tmp_path) ← parsePathPart 0 tmp_path
        if first_part = 0 then
          return 0
        else do
          let root ← load pathRootK path_root
          store pathRootK path_root { root with first := first_part }
          let (part, tmp_path) ← parsePathPart first_part tmp_path
          pathparserLoop (RASOS_PATH_MAX_LEN + 1) part tmp_path
          return path_root

/-- The `while` loop of `pathparser_free`. Every turn frees a block, and there are 25600. -/
def pathparserFreeLoop : (fuel : Nat) → (part : UInt32) → KernelM Unit
  | 0, _ => stop
  | fuel + 1, part => do
      if part = 0 then
        return ()
      else do
        let p ← load pathPartK part
        let next_part := p.next
        kfree pathNameK p.part
        kfree pathPartK part
        pathparserFreeLoop fuel next_part

def pathparserFree (root : UInt32) : KernelM Unit := do
  let r ← load pathRootK root
  pathparserFreeLoop 25601 r.first
  kfree pathRootK root

end RasOS
