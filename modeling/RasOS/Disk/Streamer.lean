import RasOS.Kernel.State

set_option autoImplicit false

/-! # The disk and its streams (`disk/disk.c`, `disk/streamer.c`)

A stream is a byte position on the disk. `diskstreamer_read` stores bytes through `out` in order;
here it returns them, and its callers say where they go. -/

namespace RasOS

open Machine

/-- `disk_read_block` for one sector of the disk. The drive sees the low 28 bits of the block
number (`disk_read_sector` sends them through four ports). A negative block number also selects the other drive,
which does not answer; here it is taken for the block of the first drive with the same low bits. -/
def diskReadBlock (lba : Int) : KernelM (Int × Sector) := fun s =>
  let sector := (lba % 2 ^ 28).toNat
  let s' := { s with requests := sector :: s.requests }
  match s.drive s.requests sector with
  | none => some ((- EIO, fun _ => 0), s')
  | some buf => some ((OK, buf), s')

/-- `disk_get` succeeds: there is one disk, number `0`. -/
def diskGet (index : Int) : Bool := index == 0

/-- `diskstreamer_new` for the one disk. The new stream is not checked. -/
def diskstreamerNew : KernelM UInt32 := do
  let streamer ← kzalloc diskStreamK SIZEOF_DISK_STREAM {}
  storeUnchecked diskStreamK streamer { pos := 0 }
  return streamer

def diskstreamerSeek (stream : UInt32) (pos : Int) : KernelM Int := do
  store diskStreamK stream { pos := pos }
  return OK

/-- The recursion of `diskstreamer_read`, at most `fuel` calls deep. -/
def diskstreamerReadLoop (stream : UInt32) : (fuel : Nat) → (total : Int) →
    KernelM (Int × List UInt8)
  | 0, _ => stop
  | fuel + 1, total => do
      let st ← load diskStreamK stream
      let sector := st.pos.tdiv RASOS_SECTOR_SIZE
      let offset := st.pos.tmod RASOS_SECTOR_SIZE
      let is_overflow := wrap (offset + total) ≥ RASOS_SECTOR_SIZE
      let bytes_in_current_sector :=
        if is_overflow then (RASOS_SECTOR_SIZE : Int) - offset else total
      let (res, buf) ← diskReadBlock sector
      if res < 0 then
        return (res, [])
      else if 0 < bytes_in_current_sector ∧
          (offset < 0 ∨ offset + bytes_in_current_sector > RASOS_SECTOR_SIZE) then
        stop -- reads outside `buf`
      else do
        let bytes := (List.range bytes_in_current_sector.toNat).map fun i => buf (offset.toNat + i)
        store diskStreamK stream { pos := wrap (st.pos + bytes_in_current_sector) }
        if is_overflow then do
          let (res, rest) ← diskstreamerReadLoop stream fuel (total - bytes_in_current_sector)
          return (res, bytes ++ rest)
        else
          return (res, bytes)

/-- `diskstreamer_read`: the status and the bytes stored through `out`. Every call but the first
starts at the beginning of a sector, so `total / 512 + 2` calls are enough. -/
def diskstreamerRead (stream : UInt32) (total : Int) : KernelM (Int × List UInt8) :=
  diskstreamerReadLoop stream (total.toNat / RASOS_SECTOR_SIZE + 2) total

def diskstreamerClose (stream : UInt32) : KernelM Unit := kfree diskStreamK stream

end RasOS
