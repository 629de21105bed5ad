import RasOS.Disk.StreamSpec
import RasOS.Lib.Ata

set_option autoImplicit false

/-! # Reading sectors from the drive (`disk/disk.c`, `io/io.asm`)

`disk_read_sector` writes the address and the number of the sectors to the drive and takes their words one by
one. It waits for each sector until the drive sets DRQ, and looks at no other bit of the status: where the
drive gives up it waits for ever. -/

namespace RasOS

open Machine

/-! ## The code -/

/-- The drive and the memory. -/
structure AtaHost where
  drive : AtaDrive
  mem : UInt32 → UInt8

abbrev AtaM := Prog AtaHost

def outb (port : UInt16) (data : UInt8) : AtaM Unit := fun s =>
  some ((), { s with drive := s.drive.outPort port data })

/-- `insb` of the status. -/
def insb (port : UInt16) : AtaM UInt8 := fun s =>
  if port = 0x1F7 then some (s.drive.status, { s with drive := s.drive.polled }) else some (0xFF, s)

/-- `insw` of the data. -/
def insw (port : UInt16) : AtaM UInt16 := fun s =>
  if port = 0x1F0 then some (s.drive.word.1, { s with drive := s.drive.word.2 }) else some (0xFFFF, s)

/-- `*ptr = w`. -/
def storeWord (ptr : UInt32) (w : UInt16) : AtaM Unit := fun s => some ((), { s with mem := setWord s.mem ptr w })

/-- The first read of the status and the loop behind it, for a number of reads. -/
def waitLoop : (polls : Nat) → AtaM Unit
  | 0 => stop
  | polls + 1 => do
      let c ← insb 0x1F7
      if c &&& 0x08 = 0 then waitLoop polls else return ()

/-- The inner loop of `disk_read_sector`. -/
def readWordsLoop : (remaining : Nat) → (ptr : UInt32) → AtaM Unit
  | 0, _ => return ()
  | remaining + 1, ptr => do
      let w ← insw 0x1F0
      storeWord ptr w
      readWordsLoop remaining (ptr + 2)

/-- The outer loop. -/
def readSectorsLoop (polls : Nat) : (remaining : Nat) → (ptr : UInt32) → AtaM Unit
  | 0, _ => return ()
  | remaining + 1, ptr => do
      waitLoop polls
      readWordsLoop 256 ptr
      readSectorsLoop polls remaining (ptr + 512)

/-- `disk_read_sector`; `lba` is given as the word that holds the `int`. It reads the status at most `polls`
times for each sector. -/
def diskReadSector (polls : Nat) (lba : UInt32) (total : Int) (buffer : UInt32) : AtaM Int := do
  outb 0x1F6 ((lba >>> 24).toUInt8 ||| 0xE0)
  outb 0x1F2 (UInt32.ofInt total).toUInt8
  outb 0x1F3 (lba &&& 0xFF).toUInt8
  outb 0x1F4 (lba >>> 8).toUInt8
  outb 0x1F5 (lba >>> 16).toUInt8
  outb 0x1F7 0x20
  readSectorsLoop polls total.toNat buffer
  return 0

/-! ## Waiting -/

section Wait

variable {s : AtaHost} {polls : Nat}

theorem waitLoop_step : waitLoop (polls + 1) s =
    if s.drive.status &&& 0x08 = 0 then waitLoop polls { s with drive := s.drive.polled }
    else some ((), { s with drive := s.drive.polled }) := by
  have hread : insb 0x1F7 s = some (s.drive.status, { s with drive := s.drive.polled }) := if_pos rfl
  rw [waitLoop, bind_of_some hread]
  split <;> rfl

/-- Without a command no sector comes. -/
theorem waitLoop_none (h : s.drive.transfer = none) : waitLoop polls s = none := by
  induction polls with
  | zero => rfl
  | succ polls ih =>
      have hstatus : s.drive.status &&& 0x08 = 0 := by
        unfold AtaDrive.status
        rw [h]
        by_cases hslave : s.drive.device &&& 0x10 ≠ 0
        · rw [if_pos hslave]
          rfl
        · rw [if_neg hslave]
          cases s.drive.failed <;> rfl
      have hpolled : { s with drive := s.drive.polled } = s := by
        unfold AtaDrive.polled
        rw [h, Option.map_none, ← h]
      rw [waitLoop_step, if_pos hstatus, hpolled]
      exact ih

/-- The master's sector comes when it has been busy long enough. -/
theorem waitLoop_ready {t : Transfer} (h : s.drive.transfer = some t) (hmaster : s.drive.device &&& 0x10 = 0) :
    waitLoop polls s = if t.busy < polls then
      some ((), { s with drive := { s.drive with transfer := some { t with busy := 0 } } }) else none := by
  induction polls generalizing s t with
  | zero => rw [if_neg (Nat.not_lt_zero _), waitLoop, stop_apply]
  | succ polls ih =>
      have hpolled : s.drive.polled = { s.drive with transfer := some { t with busy := t.busy - 1 } } := by
        unfold AtaDrive.polled
        rw [h]
        rfl
      have hstatus : s.drive.status = if t.busy = 0 then 0x58 else 0x80 := by
        unfold AtaDrive.status
        rw [if_neg (not_not.mpr hmaster), h]
      rw [waitLoop_step, hpolled, hstatus]
      by_cases hbusy : t.busy = 0
      · have hdrq : ¬ (0x58 : UInt8) &&& 0x08 = 0 := by decide
        have hsub : t.busy - 1 = 0 := by omega
        rw [if_pos hbusy, if_neg hdrq, if_pos (by omega), hsub]
      · have hdrq : (0x80 : UInt8) &&& 0x08 = 0 := by decide
        rw [if_neg hbusy, if_pos hdrq,
          ih (s := { s with drive := { s.drive with transfer := some { t with busy := t.busy - 1 } } }) rfl hmaster]
        exact if_congr (by dsimp only; omega) rfl rfl

end Wait

/-! ## Taking the words -/

theorem readWordsLoop_eq (remaining : Nat) (ptr : UInt32) (s : AtaHost) : readWordsLoop remaining ptr s =
    some ((), ⟨(copyWords remaining ptr (s.drive, s.mem)).1, (copyWords remaining ptr (s.drive, s.mem)).2⟩) := by
  induction remaining generalizing ptr s with
  | zero => rfl
  | succ remaining ih =>
      have hread : insw 0x1F0 s = some (s.drive.word.1, { s with drive := s.drive.word.2 }) := if_pos rfl
      have hstore : storeWord ptr s.drive.word.1 { s with drive := s.drive.word.2 } =
          some ((), ⟨s.drive.word.2, setWord s.mem ptr s.drive.word.1⟩) := rfl
      rw [readWordsLoop, bind_of_some hread, bind_of_some hstore]
      exact ih (ptr + 2) _

/-- The bytes of consecutive sectors. -/
def sectorBytes (image : Nat → Nat → UInt8) (sector i : Nat) : UInt8 := image (sector + i / 512) (i % 512)

theorem filled_sectors (mem : UInt32 → UInt8) (ptr : UInt32) (image : Nat → Nat → UInt8) (sector n : Nat)
    (h : 512 * (n + 1) ≤ 2 ^ 32) :
    filled (filled mem ptr (image sector) 512) (ptr + 512) (sectorBytes image (sector + 1)) (512 * n) =
      filled mem ptr (sectorBytes image sector) (512 * (n + 1)) := by
  have hadd : 512 + 512 * n = 512 * (n + 1) := by omega
  have hfilled := filled_filled mem ptr (image sector) (sectorBytes image (sector + 1)) (m := 512) (n := 512 * n)
    (by omega)
  rw [hadd] at hfilled
  refine hfilled.trans (filled_congr fun i _ => ?_)
  unfold sectorBytes
  by_cases hi : i < 512
  · rw [if_pos hi, Nat.div_eq_of_lt hi, Nat.mod_eq_of_lt hi, Nat.add_zero]
  · have hdiv : i / 512 = (i - 512) / 512 + 1 := by omega
    have hmod : i % 512 = (i - 512) % 512 := by omega
    rw [if_neg hi, hdiv, hmod, Nat.add_assoc, Nat.add_comm 1]

/-! ## The sectors of a command -/

section Sectors

variable {d : AtaDrive} {polls : Nat}

/-- The drive serves `n` sectors: they can be read, and none keeps the host waiting longer than it waits. -/
def HandsOut (d : AtaDrive) (polls sector n : Nat) : Prop :=
  ∀ b < n, d.readable (sector + b) = true ∧ d.delay (d.served + b) < polls

/-- One turn of the outer loop, with a sector that can be read. -/
theorem readSectorsLoop_turn {sector left : Nat} (hmaster : d.device &&& 0x10 = 0) (hleft : left ≠ 0)
    (hreadable : d.readable sector = true) (remaining : Nat) (ptr : UInt32) (mem : UInt32 → UInt8) :
    readSectorsLoop polls (remaining + 1) ptr ⟨d.handOut sector left, mem⟩ =
      if d.delay d.served < polls then
        readSectorsLoop polls remaining (ptr + 512)
          ⟨{ d with served := d.served + 1 }.handOut (sector + 1) (left - 1), filled mem ptr (d.image sector) 512⟩
      else none := by
  have hout : d.handOut sector left =
      { d with transfer := some ⟨sector, left, d.delay d.served, 0⟩, served := d.served + 1 } := by
    rw [AtaDrive.handOut, if_neg hleft, if_pos hreadable]
  rw [readSectorsLoop, hout]
  have hwait : waitLoop polls
      ⟨{ d with transfer := some ⟨sector, left, d.delay d.served, 0⟩, served := d.served + 1 }, mem⟩ = _ :=
    waitLoop_ready (t := ⟨sector, left, d.delay d.served, 0⟩) rfl hmaster
  by_cases hdelay : d.delay d.served < polls
  · rw [if_pos hdelay] at hwait
    rw [if_pos hdelay, bind_of_some hwait, bind_of_some (readWordsLoop_eq _ _ _), copyWords_sector rfl]
    rfl
  · rw [if_neg hdelay] at hwait
    rw [if_neg hdelay, bind_of_none hwait]

/-- **The sectors that are served are stored one behind the other.** By induction on the sectors. -/
theorem readSectorsLoop_served {n : Nat} :
    ∀ {d : AtaDrive} {sector left : Nat} (ptr : UInt32) (mem : UInt32 → UInt8), d.device &&& 0x10 = 0 → n ≤ left →
      512 * n ≤ 2 ^ 32 → HandsOut d polls sector n →
      readSectorsLoop polls n ptr ⟨d.handOut sector left, mem⟩ =
        some ((), ⟨{ d with served := d.served + n }.handOut (sector + n) (left - n),
          filled mem ptr (sectorBytes d.image sector) (512 * n)⟩) := by
  induction n with
  | zero =>
      intro d sector left ptr mem _ _ _ _
      rw [Nat.mul_zero, filled_zero]
      rfl
  | succ n ih =>
      intro d sector left ptr mem hmaster hleft hsize hhands
      obtain ⟨hreadable, hdelay⟩ := hhands 0 (Nat.succ_pos n)
      rw [Nat.add_zero] at hreadable hdelay
      -- how long the drive is busy is counted in the sectors it has served
      have hrest : HandsOut { d with served := d.served + 1 } polls (sector + 1) n := by
        intro b hb
        have hnext := hhands (b + 1) (by omega)
        rw [show sector + 1 + b = sector + (b + 1) by omega, show d.served + 1 + b = d.served + (b + 1) by omega]
        exact hnext
      rw [readSectorsLoop_turn hmaster (by omega) hreadable, if_pos hdelay,
        ih (d := { d with served := d.served + 1 }) (ptr + 512) _ hmaster (by omega) (by omega) hrest]
      dsimp only
      rw [filled_sectors mem ptr d.image sector n hsize]
      have hserved : d.served + 1 + n = d.served + (n + 1) := by omega
      have hsector : sector + 1 + n = sector + (n + 1) := by omega
      have hless : left - 1 - n = left - (n + 1) := by omega
      rw [hserved, hsector, hless]

/-- **A sector that does not come in time is waited for**: one behind those of the command, one that cannot be
read, or one for which the drive is busy longer than the host waits. -/
theorem readSectorsLoop_hangs {n : Nat} :
    ∀ {d : AtaDrive} {sector left b : Nat} (ptr : UInt32) (mem : UInt32 → UInt8), d.device &&& 0x10 = 0 → b < n →
      (left ≤ b ∨ ¬ (d.readable (sector + b) = true ∧ d.delay (d.served + b) < polls)) →
      readSectorsLoop polls n ptr ⟨d.handOut sector left, mem⟩ = none := by
  induction n with
  | zero =>
      intro d sector left b ptr mem _ hb
      omega
  | succ n ih =>
      intro d sector left b ptr mem hmaster hb hmissing
      by_cases hcomes : left ≠ 0 ∧ d.readable sector = true
      · obtain ⟨hleft, hreadable⟩ := hcomes
        rw [readSectorsLoop_turn hmaster hleft hreadable]
        by_cases hdelay : d.delay d.served < polls
        · rw [if_pos hdelay]
          cases b with
          | zero =>
              rw [Nat.add_zero, Nat.add_zero] at hmissing
              rcases hmissing with h | h
              · omega
              · exact absurd ⟨hreadable, hdelay⟩ h
          | succ b =>
              apply ih (d := { d with served := d.served + 1 }) (b := b) _ _ hmaster (by omega)
              rw [show sector + 1 + b = sector + (b + 1) by omega, show d.served + 1 + b = d.served + (b + 1) by omega]
              exact hmissing.imp (by omega) id
        · rw [if_neg hdelay]
      · -- the drive hands nothing out
        have hnone : (d.handOut sector left).transfer = none := by
          unfold AtaDrive.handOut
          by_cases hleft : left = 0
          · rw [if_pos hleft]
          · rw [if_neg hleft, if_neg fun hreadable => hcomes ⟨hleft, hreadable⟩]
        rw [readSectorsLoop, bind_of_none (waitLoop_none hnone)]

end Sectors

/-! ## The command -/

/-- The drive after the address, the number and the command have been written. -/
def readRequest (d : AtaDrive) (lba : UInt32) (count : UInt8) : AtaDrive :=
  (((((d.outPort 0x1F6 ((lba >>> 24).toUInt8 ||| 0xE0)).outPort 0x1F2 count).outPort 0x1F3
    (lba &&& 0xFF).toUInt8).outPort 0x1F4 (lba >>> 8).toUInt8).outPort 0x1F5 (lba >>> 16).toUInt8).outPort 0x1F7 0x20

/-- Bit 28 of the address, which is no bit of the sector, selects the slave. -/
def SelectsMaster (lba : UInt32) : Prop := lba.toNat / 2 ^ 28 % 2 = 0

instance (lba : UInt32) : Decidable (SelectsMaster lba) := inferInstanceAs (Decidable (_ = _))

theorem toNat_shiftRight_byte (x : UInt32) {k : Nat} (hk : k < 32) :
    (x >>> UInt32.ofNat k).toUInt8.toNat = x.toNat / 2 ^ k % 2 ^ 8 := by
  rw [UInt32.toNat_toUInt8, UInt32.toNat_shiftRight, Nat.shiftRight_eq_div_pow, UInt32.toNat_ofNat',
    Nat.mod_eq_of_lt (show k < 2 ^ 32 by omega), Nat.mod_eq_of_lt hk]

/-- The sector that the drive finds in its ports. -/
theorem ports_lba (lba : UInt32) :
    (lba &&& 0xFF).toUInt8.toNat + 2 ^ 8 * (lba >>> 8).toUInt8.toNat + 2 ^ 16 * (lba >>> 16).toUInt8.toNat +
      2 ^ 24 * (((lba >>> 24).toUInt8 ||| 0xE0).toNat % 2 ^ 4) = lba.toNat % 2 ^ 28 := by
  have hor : ((lba >>> 24).toUInt8 ||| 0xE0).toNat % 2 ^ 4 = (lba >>> 24).toUInt8.toNat % 2 ^ 4 := by
    rw [UInt8.toNat_or, Nat.or_mod_two_pow]
    exact Nat.or_zero _
  have hlow : (lba &&& 0xFF).toUInt8.toNat = lba.toNat % 2 ^ 8 := by
    have hand : (lba &&& 0xFF).toNat = lba.toNat % 2 ^ 8 := by
      rw [UInt32.toNat_and]
      exact Nat.and_two_pow_sub_one_eq_mod _ 8
    rw [UInt32.toNat_toUInt8, hand, Nat.mod_mod]
  have h8 : (lba >>> 8).toUInt8.toNat = lba.toNat / 2 ^ 8 % 2 ^ 8 := toNat_shiftRight_byte lba (by decide)
  have h16 : (lba >>> 16).toUInt8.toNat = lba.toNat / 2 ^ 16 % 2 ^ 8 := toNat_shiftRight_byte lba (by decide)
  have h24 : (lba >>> 24).toUInt8.toNat = lba.toNat / 2 ^ 24 % 2 ^ 8 := toNat_shiftRight_byte lba (by decide)
  rw [hor, hlow, h8, h16, h24]
  omega

/-- The byte for the drive: LBA mode, and the master unless bit 28 is set. -/
theorem device_master_iff (lba : UInt32) :
    (((lba >>> 24).toUInt8 ||| 0xE0) &&& 0x50 = 0x40 ↔ SelectsMaster lba) ∧
      (((lba >>> 24).toUInt8 ||| 0xE0) &&& 0x10 = 0 ↔ SelectsMaster lba) := by
  have hall : ∀ n < 256, ((UInt8.ofNat n ||| 0xE0) &&& 0x50 = 0x40 ↔ n / 16 % 2 = 0) ∧
      ((UInt8.ofNat n ||| 0xE0) &&& 0x10 = 0 ↔ n / 16 % 2 = 0) := by decide +kernel
  have hbyte := hall _ (lba >>> 24).toUInt8.toNat_lt
  have h24 : (lba >>> 24).toUInt8.toNat = lba.toNat / 2 ^ 24 % 2 ^ 8 := toNat_shiftRight_byte lba (by decide)
  have hbit : (lba >>> 24).toUInt8.toNat / 16 % 2 = lba.toNat / 2 ^ 28 % 2 := by
    rw [h24]
    omega
  rw [UInt8.ofNat_toNat, hbit] at hbyte
  exact hbyte

/-- The number of sectors a count byte asks for. -/
def sectorCount (count : UInt8) : Nat := if count = 0 then 256 else count.toNat

theorem readRequest_master {lba : UInt32} (h : SelectsMaster lba) (d : AtaDrive) (count : UInt8) :
    ∃ d' : AtaDrive, readRequest d lba count = d'.handOut (lba.toNat % 2 ^ 28) (sectorCount count) ∧
      d'.device &&& 0x10 = 0 ∧ d'.image = d.image ∧ d'.readable = d.readable ∧ d'.delay = d.delay ∧
      d'.served = d.served := by
  obtain ⟨hcommand, hmaster⟩ := device_master_iff lba
  refine ⟨{ d with
    count := count
    low := (lba &&& 0xFF).toUInt8
    mid := (lba >>> 8).toUInt8
    high := (lba >>> 16).toUInt8
    device := (lba >>> 24).toUInt8 ||| 0xE0
    failed := false }, ?_, hmaster.mpr h, rfl, rfl, rfl, rfl⟩
  rw [← ports_lba]
  exact if_pos ⟨rfl, hcommand.mpr h⟩

theorem readRequest_slave {lba : UInt32} (h : ¬ SelectsMaster lba) (d : AtaDrive) (count : UInt8) :
    (readRequest d lba count).transfer = none := by
  have hcommand := (device_master_iff lba).1
  have hrequest : readRequest d lba count = AtaDrive.command { d with
      count := count
      low := (lba &&& 0xFF).toUInt8
      mid := (lba >>> 8).toUInt8
      high := (lba >>> 16).toUInt8
      device := (lba >>> 24).toUInt8 ||| 0xE0 } 0x20 := rfl
  rw [hrequest, AtaDrive.command, if_neg fun hand => h (hcommand.mp hand.2)]

/-! ## `disk_read_sector` -/

theorem diskReadSector_eq (polls : Nat) (lba : UInt32) (total : Int) (buffer : UInt32) (s : AtaHost) :
    diskReadSector polls lba total buffer s =
      (readSectorsLoop polls total.toNat buffer
        ⟨readRequest s.drive lba (UInt32.ofInt total).toUInt8, s.mem⟩).map fun r => (0, r.2) := by
  have hports : diskReadSector polls lba total buffer s = (readSectorsLoop polls total.toNat buffer >>= fun _ =>
      pure 0) ⟨readRequest s.drive lba (UInt32.ofInt total).toUInt8, s.mem⟩ := rfl
  rw [hports, bind_apply]
  cases readSectorsLoop polls total.toNat buffer ⟨readRequest s.drive lba (UInt32.ofInt total).toUInt8, s.mem⟩ <;> rfl

/-- The count byte of up to 256 sectors is right; of more it is not. -/
theorem sectorCount_ofInt {total : Int} (h0 : 0 < total) (h1 : total < 2 ^ 31) :
    (total ≤ 256 → sectorCount (UInt32.ofInt total).toUInt8 = total.toNat) ∧
      (256 < total → sectorCount (UInt32.ofInt total).toUInt8 < total.toNat) := by
  have hbyte : (UInt32.ofInt total).toUInt8.toNat = total.toNat % 2 ^ 8 := by
    rw [UInt32.toNat_toUInt8, toNat_ofInt]
    omega
  have hzero : (UInt32.ofInt total).toUInt8 = 0 ↔ total.toNat % 2 ^ 8 = 0 := by
    rw [← UInt8.toNat_inj, hbyte]
    rfl
  unfold sectorCount
  constructor
  · intro hle
    by_cases h : (UInt32.ofInt total).toUInt8 = 0
    · have hmod := hzero.mp h
      rw [if_pos h]
      omega
    · have hmod := hzero.not.mp h
      rw [if_neg h, hbyte]
      omega
  · intro hlt
    by_cases h : (UInt32.ofInt total).toUInt8 = 0
    · rw [if_pos h]
      omega
    · rw [if_neg h, hbyte]
      omega

/-- What `disk_read_sector` needs to return: at most 256 sectors, the drive that is there, and sectors it can
read in time. -/
def ReadsFrom (d : AtaDrive) (polls : Nat) (lba : UInt32) (total : Int) : Prop :=
  total ≤ 256 ∧ SelectsMaster lba ∧ HandsOut d polls (lba.toNat % 2 ^ 28) total.toNat

/-- The drive after it has served `n` sectors: it is done, and it is the drive it was. -/
structure Done (d : AtaDrive) (n : Nat) (d' : AtaDrive) : Prop where
  transfer : d'.transfer = none
  image : d'.image = d.image
  readable : d'.readable = d.readable
  delay : d'.delay = d.delay
  served : d'.served = d.served + n

/-- The sectors come: they are stored one behind the other. -/
theorem diskReadSector_served {polls : Nat} {lba : UInt32} {total : Int} (h0 : 0 < total) (h1 : total < 2 ^ 31)
    (buffer : UInt32) (s : AtaHost) (h : ReadsFrom s.drive polls lba total) :
    Total (diskReadSector polls lba total buffer) s fun r s' => r = OK ∧
      s'.mem = filled s.mem buffer (sectorBytes s.drive.image (lba.toNat % 2 ^ 28)) (512 * total.toNat) ∧
      Done s.drive total.toNat s'.drive := by
  obtain ⟨hle, hmaster, hhands⟩ := h
  obtain ⟨d, hrequest, hdevice, himage, hreadable, hdelay, hserved⟩ :=
    readRequest_master hmaster s.drive (UInt32.ofInt total).toUInt8
  rw [(sectorCount_ofInt h0 h1).1 hle] at hrequest
  have hhands' : HandsOut d polls (lba.toNat % 2 ^ 28) total.toNat := by
    intro b hb
    rw [hreadable, hdelay, hserved]
    exact hhands b hb
  have hloop := readSectorsLoop_served buffer s.mem hdevice (Nat.le_refl total.toNat) (by omega) hhands'
  rw [himage] at hloop
  unfold Machine.Total
  rw [diskReadSector_eq, hrequest, hloop]
  refine ⟨0, _, rfl, rfl, rfl, ?_⟩
  dsimp only
  rw [Nat.sub_self, AtaDrive.handOut, if_pos rfl]
  exact ⟨rfl, rfl, hreadable, hdelay, congrArg (· + total.toNat) hserved⟩

/-- One of them does not: the driver waits for it. -/
theorem diskReadSector_hangs {polls : Nat} {lba : UInt32} {total : Int} (h0 : 0 < total) (h1 : total < 2 ^ 31)
    (buffer : UInt32) (s : AtaHost) (h : ¬ ReadsFrom s.drive polls lba total) :
    diskReadSector polls lba total buffer s = none := by
  have hnone : readSectorsLoop polls total.toNat buffer
      ⟨readRequest s.drive lba (UInt32.ofInt total).toUInt8, s.mem⟩ = none := by
    by_cases hmaster : SelectsMaster lba
    · obtain ⟨d, hrequest, hdevice, himage, hreadable, hdelay, hserved⟩ :=
        readRequest_master hmaster s.drive (UInt32.ofInt total).toUInt8
      rw [hrequest]
      by_cases hle : total ≤ 256
      · -- one of the sectors does not come
        have hmissing : ¬ HandsOut s.drive polls (lba.toNat % 2 ^ 28) total.toNat :=
          fun hhands => h ⟨hle, hmaster, hhands⟩
        unfold HandsOut at hmissing
        push Not at hmissing
        obtain ⟨b, hb, hbad⟩ := hmissing
        apply readSectorsLoop_hangs (b := b) buffer s.mem hdevice hb (Or.inr ?_)
        rw [hreadable, hdelay, hserved]
        exact fun hgood => absurd hgood.2 (Nat.not_lt.mpr (hbad hgood.1))
      · -- the drive has handed out what it was asked for
        exact readSectorsLoop_hangs (b := sectorCount (UInt32.ofInt total).toUInt8) buffer s.mem hdevice
          ((sectorCount_ofInt h0 h1).2 (by omega)) (Or.inl (Nat.le_refl _))
    · have hnone := readRequest_slave hmaster s.drive (UInt32.ofInt total).toUInt8
      obtain ⟨n, hn⟩ : ∃ n, total.toNat = n + 1 := ⟨total.toNat - 1, by omega⟩
      rw [hn, readSectorsLoop, bind_of_none (waitLoop_none hnone)]
  rw [diskReadSector_eq, hnone]
  rfl

/-- **`disk_read_sector` delivers the sectors or does not return.** With the low 28 bits of the address for
the first sector, the sectors are stored one behind the other, nothing else is, and the drive is done. It never
reports an error: where a sector does not come it keeps polling. -/
theorem diskReadSector_delivers (polls : Nat) (lba : UInt32) {total : Int} (h0 : 0 < total) (h1 : total < 2 ^ 31)
    (buffer : UInt32) (s : AtaHost) :
    (ReadsFrom s.drive polls lba total → Total (diskReadSector polls lba total buffer) s fun r s' => r = OK ∧
      s'.mem = filled s.mem buffer (sectorBytes s.drive.image (lba.toNat % 2 ^ 28)) (512 * total.toNat) ∧
      Done s.drive total.toNat s'.drive) ∧
    (¬ ReadsFrom s.drive polls lba total → diskReadSector polls lba total buffer s = none) := by
  constructor
  · exact fun h => diskReadSector_served h0 h1 buffer s h
  · exact fun h => diskReadSector_hangs h0 h1 buffer s h

/-- A drive whose sector `n` has the byte `n` in it everywhere, but for sector 7, which it cannot read; it is
busy for three reads of its status. -/
def smallDrive : AtaDrive where
  image n _ := UInt8.ofNat n
  readable n := n != 7
  delay _ := 3
  count := 0
  low := 0
  mid := 0
  high := 0
  device := 0
  transfer := none
  failed := false
  served := 0

theorem smallDrive_handsOut {polls sector n : Nat} (hpolls : 3 < polls) (h : ∀ b < n, sector + b ≠ 7) :
    HandsOut smallDrive polls sector n := by
  intro b hb
  exact ⟨bne_iff_ne.mpr (h b hb), hpolls⟩

/-- Sectors 5 and 6 are delivered, 6 and 7 are not. -/
theorem diskReadSector_delivers_two :
    Total (diskReadSector 4 5 2 0x2000000) ⟨smallDrive, fun _ => 0⟩ (fun r s' => r = OK ∧
      s'.mem = filled (fun _ => 0) 0x2000000 (sectorBytes smallDrive.image 5) 1024 ∧ Done smallDrive 2 s'.drive) ∧
    diskReadSector 4 6 2 0x2000000 ⟨smallDrive, fun _ => 0⟩ = none := by
  constructor
  · apply (diskReadSector_delivers 4 5 (by decide : (0 : Int) < 2) (by decide) 0x2000000 ⟨smallDrive, fun _ => 0⟩).1
    exact ⟨by decide, by decide, smallDrive_handsOut (by decide) (by decide)⟩
  · apply (diskReadSector_delivers 4 6 (by decide : (0 : Int) < 2) (by decide) 0x2000000 ⟨smallDrive, fun _ => 0⟩).2
    rintro ⟨-, -, hhands⟩
    exact absurd (hhands 1 (by decide)).1 (by decide)

/-! ## The block device of the kernel -/

/-- What the kernel knows of a drive: the sectors it can read. -/
def driveSectors (d : AtaDrive) : List Nat → Nat → Option Sector :=
  fun _ n => if d.readable n = true then some (d.image n) else none

/-- What `disk_read_block` returns for a block of the drive. -/
def blockOf (d : AtaDrive) (lba : UInt32) : Int × Sector :=
  if d.readable lba.toNat = true then (OK, d.image lba.toNat) else (- EIO, fun _ => 0)

/-- Blocks read one after the other into the same buffer, and what is found in it behind each. -/
def diskReadBlocks (polls : Nat) (buffer : UInt32) : List UInt32 → AtaM (List (Int × (Nat → UInt8)))
  | [] => return []
  | lba :: lbas => do
      let res ← diskReadSector polls lba 1 buffer
      let buf ← fun s => some (fun i => s.mem (buffer + UInt32.ofNat i), s)
      let rest ← diskReadBlocks polls buffer lbas
      return (res, buf) :: rest

/-- The same result, with the same bytes. -/
def SameBlock (r r' : Int × (Nat → UInt8)) : Prop := r.1 = r'.1 ∧ ∀ i < 512, r.2 i = r'.2 i

section Blocks

variable {d : AtaDrive} {polls : Nat} {buffer : UInt32}

theorem handsOut_one {sector : Nat} (hdelay : ∀ k, d.delay k < polls) :
    HandsOut d polls sector 1 ↔ d.readable sector = true := by
  constructor
  · intro h
    exact (h 0 (by decide)).1
  · intro h b hb
    obtain rfl : b = 0 := by omega
    exact ⟨h, hdelay _⟩

/-- The blocks by the kernel's account of the drive. -/
theorem mapM_diskReadBlock (lbas : List UInt32) (hlbas : ∀ lba ∈ lbas, lba.toNat < 2 ^ 28) {s : Kernel}
    (hdrive : s.drive = driveSectors d) :
    ∃ s', lbas.mapM (fun lba => diskReadBlock lba.toNat) s = some (lbas.map (blockOf d), s') := by
  induction lbas generalizing s with
  | nil => exact ⟨s, rfl⟩
  | cons lba lbas ih =>
      have hlba : lba.toNat < 2 ^ 28 := hlbas lba (List.mem_cons_self ..)
      have hsector : ((lba.toNat : Int) % 2 ^ 28).toNat = lba.toNat := by omega
      have hblock : diskReadBlock lba.toNat s = some (blockOf d lba, { s with requests := lba.toNat :: s.requests }) := by
        unfold diskReadBlock blockOf
        dsimp only
        rw [hsector, hdrive]
        unfold driveSectors
        by_cases hreadable : d.readable lba.toNat = true
        · rw [if_pos hreadable, if_pos hreadable]
        · rw [if_neg hreadable, if_neg hreadable]
      obtain ⟨s', hrest⟩ := ih (fun l hl => hlbas l (List.mem_cons_of_mem _ hl))
        (s := { s with requests := lba.toNat :: s.requests }) hdrive
      refine ⟨s', ?_⟩
      rw [List.mapM_cons, bind_of_some hblock, bind_of_some hrest]
      rfl

/-- One block by the drive itself. -/
theorem diskReadSector_block (hdelay : ∀ k, d.delay k < polls) {lba : UInt32} (hlba : lba.toNat < 2 ^ 28)
    (mem : UInt32 → UInt8) :
    (d.readable lba.toNat = true → Total (diskReadSector polls lba 1 buffer) ⟨d, mem⟩ fun res h' =>
      SameBlock (res, fun i => h'.mem (buffer + UInt32.ofNat i)) (blockOf d lba) ∧ Done d 1 h'.drive) ∧
    (d.readable lba.toNat ≠ true → diskReadSector polls lba 1 buffer ⟨d, mem⟩ = none) := by
  have hmod : lba.toNat % 2 ^ 28 = lba.toNat := Nat.mod_eq_of_lt hlba
  have hmaster : SelectsMaster lba := by
    unfold SelectsMaster
    omega
  have hiff : ReadsFrom d polls lba 1 ↔ d.readable lba.toNat = true := by
    unfold ReadsFrom
    rw [hmod, show (1 : Int).toNat = 1 from rfl, handsOut_one hdelay, and_iff_right (by decide), and_iff_right hmaster]
  constructor
  · intro hreadable
    refine (diskReadSector_served (by decide) (by decide) buffer ⟨d, mem⟩ (hiff.mpr hreadable)).mono ?_
    rintro res h' ⟨rfl, hmem, hdone⟩
    refine ⟨?_, hdone⟩
    unfold blockOf
    rw [if_pos hreadable]
    refine ⟨rfl, fun i hi => ?_⟩
    have hoffset : (buffer + UInt32.ofNat i - buffer).toNat = i := toNat_offset buffer (by omega)
    dsimp only
    rw [hmem, hmod]
    unfold filled sectorBytes
    rw [hoffset, if_pos (by omega), Nat.div_eq_of_lt hi, Nat.mod_eq_of_lt hi, Nat.add_zero]
  · intro hreadable
    exact diskReadSector_hangs (by decide) (by decide) buffer ⟨d, mem⟩ (hiff.not.mpr hreadable)

theorem Done.blockOf {d' : AtaDrive} {n : Nat} (h : Done d n d') : blockOf d' = blockOf d := by
  funext lba
  unfold RasOS.blockOf
  rw [h.readable, h.image]

/-- The blocks by the drive itself: all of them, or none returns. -/
theorem diskReadBlocks_run (lbas : List UInt32) :
    ∀ {d : AtaDrive} (mem : UInt32 → UInt8), (∀ k, d.delay k < polls) → (∀ lba ∈ lbas, lba.toNat < 2 ^ 28) →
      ((∀ lba ∈ lbas, d.readable lba.toNat = true) → Total (diskReadBlocks polls buffer lbas) ⟨d, mem⟩ fun rs _ =>
        List.Forall₂ SameBlock rs (lbas.map (blockOf d))) ∧
      ((∃ lba ∈ lbas, d.readable lba.toNat ≠ true) → diskReadBlocks polls buffer lbas ⟨d, mem⟩ = none) := by
  induction lbas with
  | nil =>
      intro d mem _ _
      constructor
      · intro _
        exact total_pure.mpr List.Forall₂.nil
      · rintro ⟨lba, hlba, -⟩
        cases hlba
  | cons lba lbas ih =>
      intro d mem hdelay hlbas
      obtain ⟨hread, hhang⟩ := @diskReadSector_block d polls buffer hdelay lba (hlbas lba (List.mem_cons_self ..)) mem
      have hrest : ∀ l ∈ lbas, l.toNat < 2 ^ 28 := fun l hl => hlbas l (List.mem_cons_of_mem _ hl)
      by_cases hreadable : d.readable lba.toNat = true
      -- after a block the drive is idle again, with the same disk
      · obtain ⟨res, h', hrun, hsame, hdone⟩ := hread hreadable
        obtain ⟨hall, hnone⟩ := ih (d := h'.drive) h'.mem (fun k => by rw [hdone.delay]; exact hdelay k) hrest
        rw [hdone.readable] at hall hnone
        unfold diskReadBlocks
        rw [total_bind_of_some hrun, total_bind_of_some rfl, bind_of_some hrun, bind_of_some rfl]
        constructor
        · intro hreads
          refine (hall fun l hl => hreads l (List.mem_cons_of_mem _ hl)).bind fun rs h'' hrs => ?_
          rw [hdone.blockOf] at hrs
          exact total_pure.mpr (List.Forall₂.cons hsame hrs)
        · rintro ⟨l, hl, hbad⟩
          rcases List.mem_cons.mp hl with rfl | hl
          · exact absurd hreadable hbad
          · exact bind_of_none (hnone ⟨l, hl, hbad⟩)
      · constructor
        · intro hreads
          exact absurd (hreads lba (List.mem_cons_self ..)) hreadable
        · intro _
          exact bind_of_none (hhang hreadable)

/-- **The kernel's disk is the drive.** Where the drive answers in time, the blocks the file system asks for,
however many, come as the kernel's account of the drive has them, as long as all can be read. The error it
allows for a block that cannot be read is never reported: the driver hangs there. -/
theorem diskReadBlocks_refines (hdelay : ∀ k, d.delay k < polls) (lbas : List UInt32)
    (hlbas : ∀ lba ∈ lbas, lba.toNat < 2 ^ 28) {s : Kernel} (hdrive : s.drive = driveSectors d)
    (mem : UInt32 → UInt8) :
    ∃ rs s', lbas.mapM (fun lba => diskReadBlock lba.toNat) s = some (rs, s') ∧
      ((∀ r ∈ rs, r.1 = OK) → Total (diskReadBlocks polls buffer lbas) ⟨d, mem⟩ fun rs' _ =>
        List.Forall₂ SameBlock rs' rs) ∧
      ((∃ r ∈ rs, r.1 ≠ OK) → diskReadBlocks polls buffer lbas ⟨d, mem⟩ = none) := by
  obtain ⟨s', hkernel⟩ := mapM_diskReadBlock lbas hlbas hdrive
  obtain ⟨hall, hnone⟩ := @diskReadBlocks_run polls buffer lbas d mem hdelay hlbas
  have hok : ∀ lba, (blockOf d lba).1 = OK ↔ d.readable lba.toNat = true := by
    intro lba
    unfold blockOf
    by_cases hreadable : d.readable lba.toNat = true
    · rw [if_pos hreadable]
      exact iff_of_true rfl hreadable
    · rw [if_neg hreadable]
      exact iff_of_false (by decide) hreadable
  refine ⟨_, s', hkernel, ?_, ?_⟩
  · intro h
    exact hall fun lba hlba => (hok lba).mp (h _ (List.mem_map_of_mem hlba))
  · rintro ⟨r, hr, hbad⟩
    obtain ⟨lba, hlba, rfl⟩ := List.mem_map.mp hr
    exact hnone ⟨lba, hlba, (hok lba).not.mp hbad⟩

end Blocks

/-- Blocks 9, 5 and 9 again, and with block 7 among them. -/
theorem diskReadBlocks_refines_small :
    (∃ rs s', [9, 5, 9].mapM (fun lba : UInt32 => diskReadBlock lba.toNat)
        { streamKernel 0 with drive := driveSectors smallDrive } = some (rs, s') ∧
      ((∀ r ∈ rs, r.1 = OK) → Total (diskReadBlocks 4 0x2000000 [9, 5, 9]) ⟨smallDrive, fun _ => 0⟩ fun rs' _ =>
        List.Forall₂ SameBlock rs' rs)) ∧
    ∃ rs s', [9, 7].mapM (fun lba : UInt32 => diskReadBlock lba.toNat)
        { streamKernel 0 with drive := driveSectors smallDrive } = some (rs, s') ∧
      ((∃ r ∈ rs, r.1 ≠ OK) → diskReadBlocks 4 0x2000000 [9, 7] ⟨smallDrive, fun _ => 0⟩ = none) := by
  have hdelay : ∀ k, smallDrive.delay k < 4 := fun _ => (by decide : 3 < 4)
  have hlow : ∀ lba ∈ ([9, 5, 9] : List UInt32), lba.toNat < 2 ^ 28 := by simp
  have hlow1 : ∀ lba ∈ ([9, 7] : List UInt32), lba.toNat < 2 ^ 28 := by simp
  obtain ⟨rs, s', hrun, hall, -⟩ := @diskReadBlocks_refines smallDrive 4 0x2000000 hdelay [9, 5, 9]
    hlow { streamKernel 0 with drive := driveSectors smallDrive } rfl fun _ => 0
  obtain ⟨rs1, s1, hrun1, -, hnone⟩ := @diskReadBlocks_refines smallDrive 4 0x2000000 hdelay [9, 7]
    hlow1 { streamKernel 0 with drive := driveSectors smallDrive } rfl fun _ => 0
  exact ⟨⟨rs, s', hrun, hall⟩, rs1, s1, hrun1, hnone⟩

end RasOS
