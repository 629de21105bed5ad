import RasOS.Lib.Prog
import RasOS.Lib.Word

set_option autoImplicit false

/-! # A drive on the ATA bus

The primary bus with a master and no slave, as far as reading sectors by programmed input goes. The host
writes the number of sectors and the 28 bits of the first sector's address to ports `0x1F2` to `0x1F6`, and
the command to `0x1F7`. For each sector the drive is busy for a while, as many reads of its status as `delay`
says, and then sets the bit DRQ and hands the sector out, 256 words through `0x1F0`. A sector it cannot read
ends the command; DRQ stays clear then. Other commands are not modelled: they hand nothing out. -/

namespace Machine

/-- A command that is being served: the sector at hand, how many are left with it, how often the drive still
says that it is busy, and how many words of the sector have been read. -/
structure Transfer where
  sector : Nat
  left : Nat
  busy : Nat
  word : Nat
  deriving DecidableEq

/-- The content of the disk, what the host has written to the ports, and the command being served. -/
structure AtaDrive where
  image : Nat → Nat → UInt8
  readable : Nat → Bool
  delay : Nat → Nat
  count : UInt8
  low : UInt8
  mid : UInt8
  high : UInt8
  device : UInt8
  transfer : Option Transfer
  failed : Bool
  served : Nat

namespace AtaDrive

variable (d : AtaDrive)

/-- The address in the ports. -/
def lba : Nat := d.low.toNat + 2 ^ 8 * d.mid.toNat + 2 ^ 16 * d.high.toNat + 2 ^ 24 * (d.device.toNat % 2 ^ 4)

/-- The next sector, if any are left. -/
def handOut (sector left : Nat) : AtaDrive :=
  if left = 0 then { d with transfer := none }
  else if d.readable sector then
    { d with transfer := some ⟨sector, left, d.delay d.served, 0⟩, served := d.served + 1 }
  else { d with transfer := none, failed := true }

/-- READ SECTORS, to the master and with an LBA. A count of 0 stands for 256. -/
def command (v : UInt8) : AtaDrive :=
  if v = 0x20 ∧ d.device &&& 0x50 = 0x40 then
    { d with failed := false }.handOut d.lba (if d.count = 0 then 256 else d.count.toNat)
  else { d with transfer := none }

def outPort (port : UInt16) (v : UInt8) : AtaDrive :=
  if port = 0x1F2 then { d with count := v }
  else if port = 0x1F3 then { d with low := v }
  else if port = 0x1F4 then { d with mid := v }
  else if port = 0x1F5 then { d with high := v }
  else if port = 0x1F6 then { d with device := v }
  else if port = 0x1F7 then d.command v
  else d

/-- Bit 3 is DRQ. The slave is not there. -/
def status : UInt8 :=
  if d.device &&& 0x10 ≠ 0 then 0x00
  else match d.transfer with
    | some t => if t.busy = 0 then 0x58 else 0x80
    | none => if d.failed then 0x51 else 0x50

/-- The drive after its status has been read. -/
def polled : AtaDrive :=
  { d with transfer := d.transfer.map fun t => { t with busy := t.busy - 1 } }

/-- The word at the data port and the drive after it has been read. -/
def word : UInt16 × AtaDrive :=
  match d.transfer with
  | some t =>
      if t.busy = 0 then
        (UInt16.ofNat ((d.image t.sector (2 * t.word)).toNat + 2 ^ 8 * (d.image t.sector (2 * t.word + 1)).toNat),
          if t.word + 1 < 256 then { d with transfer := some { t with word := t.word + 1 } }
          else d.handOut (t.sector + 1) (t.left - 1))
      else (0xFFFF, d)
  | none => (0xFFFF, d)

end AtaDrive

/-! ## Memory -/

/-- `mem` with the little-endian value `w` stored at `a`. -/
def setWord (mem : UInt32 → UInt8) (a : UInt32) (w : UInt16) : UInt32 → UInt8 := fun x =>
  if x = a then w.toUInt8 else if x = a + 1 then (w >>> 8).toUInt8 else mem x

/-- `mem` with `n` bytes stored from `a` on. -/
def filled (mem : UInt32 → UInt8) (a : UInt32) (f : Nat → UInt8) (n : Nat) : UInt32 → UInt8 := fun x =>
  if (x - a).toNat < n then f (x - a).toNat else mem x

theorem filled_zero (mem : UInt32 → UInt8) (a : UInt32) (f : Nat → UInt8) : filled mem a f 0 = mem := by
  funext x
  exact if_neg (Nat.not_lt_zero _)

/-- Two stretches of memory, one behind the other. -/
theorem filled_filled (mem : UInt32 → UInt8) (a : UInt32) (f g : Nat → UInt8) {m n : Nat} (h : m + n ≤ 2 ^ 32) :
    filled (filled mem a f m) (a + UInt32.ofNat m) g n =
      filled mem a (fun i => if i < m then f i else g (i - m)) (m + n) := by
  funext x
  have hdist := toNat_sub_offset x a m
  have hx := (x - a).toNat_lt
  unfold filled
  by_cases hn : n = 0
  · subst hn
    rw [if_neg (Nat.not_lt_zero _), Nat.add_zero]
    by_cases hlt : (x - a).toNat < m
    · rw [if_pos hlt, if_pos hlt]
      exact (if_pos hlt).symm
    · rw [if_neg hlt, if_neg hlt]
  · by_cases hlt : (x - a).toNat < m
    · rw [if_neg (by omega), if_pos hlt, if_pos (by omega)]
      exact (if_pos hlt).symm
    · have hoffset : (x - (a + UInt32.ofNat m)).toNat = (x - a).toNat - m := by omega
      rw [hoffset, if_neg hlt]
      by_cases hend : (x - a).toNat < m + n
      · rw [if_pos (by omega), if_pos hend]
        exact (if_neg hlt).symm
      · rw [if_neg (by omega), if_neg hend]

theorem filled_congr {mem : UInt32 → UInt8} {a : UInt32} {f g : Nat → UInt8} {n : Nat}
    (h : ∀ i < n, f i = g i) : filled mem a f n = filled mem a g n := by
  funext x
  unfold filled
  by_cases hlt : (x - a).toNat < n
  · rw [if_pos hlt, if_pos hlt, h _ hlt]
  · rw [if_neg hlt, if_neg hlt]

/-- A word of two bytes, stored behind what is filled already. -/
theorem setWord_filled (mem : UInt32 → UInt8) (a : UInt32) (f : Nat → UInt8) {n : Nat} (h : n + 2 ≤ 2 ^ 32) :
    setWord (filled mem a f n) (a + UInt32.ofNat n) (UInt16.ofNat ((f n).toNat + 2 ^ 8 * (f (n + 1)).toNat)) =
      filled mem a f (n + 2) := by
  have hn := (f n).toNat_lt
  have hn1 := (f (n + 1)).toNat_lt
  have hlow : (UInt16.ofNat ((f n).toNat + 2 ^ 8 * (f (n + 1)).toNat)).toUInt8 = f n := by
    apply UInt8.toNat_inj.mp
    rw [UInt16.toNat_toUInt8, UInt16.toNat_ofNat']
    omega
  have hhigh : (UInt16.ofNat ((f n).toNat + 2 ^ 8 * (f (n + 1)).toNat) >>> 8).toUInt8 = f (n + 1) := by
    apply UInt8.toNat_inj.mp
    rw [UInt16.toNat_toUInt8, UInt16.toNat_shiftRight, UInt16.toNat_ofNat', Nat.shiftRight_eq_div_pow]
    have height : (8 : UInt16).toNat % 16 = 8 := rfl
    rw [height]
    omega
  have hplace : ∀ (x : UInt32) (k : Nat), k < 2 ^ 32 → (x = a + UInt32.ofNat k ↔ (x - a).toNat = k) := by
    intro x k hk
    constructor
    · rintro rfl
      exact toNat_offset a hk
    · intro heq
      rw [← heq, UInt32.ofNat_toNat, UInt32.add_comm, UInt32.sub_add_cancel]
  have hnext : a + UInt32.ofNat n + 1 = a + UInt32.ofNat (n + 1) := by
    rw [UInt32.ofNat_add, UInt32.add_assoc]
    rfl
  funext x
  unfold setWord filled
  rw [hlow, hhigh, hnext]
  by_cases h0 : x = a + UInt32.ofNat n
  · have hdist := (hplace x n (by omega)).mp h0
    rw [if_pos h0, hdist, if_pos (by omega)]
  · have hdist := (hplace x n (by omega)).not.mp h0
    rw [if_neg h0]
    by_cases h1 : x = a + UInt32.ofNat (n + 1)
    · have hdist1 := (hplace x (n + 1) (by omega)).mp h1
      rw [if_pos h1, hdist1, if_pos (by omega)]
    · have hdist1 := (hplace x (n + 1) (by omega)).not.mp h1
      rw [if_neg h1]
      by_cases hlt : (x - a).toNat < n
      · rw [if_pos hlt, if_pos (by omega)]
      · rw [if_neg hlt, if_neg (by omega)]

/-! ## Reading -/

/-- `n` words from the data port, stored from `a` on. -/
def copyWords : (n : Nat) → (a : UInt32) → AtaDrive × (UInt32 → UInt8) → AtaDrive × (UInt32 → UInt8)
  | 0, _, s => s
  | n + 1, a, s => copyWords n (a + 2) (s.1.word.2, setWord s.2 a s.1.word.1)

section Read

variable {d : AtaDrive} {sector left : Nat}

theorem copyWords_from {n k : Nat} (hn : k + n = 256) (hpos : 0 < n)
    (ht : d.transfer = some ⟨sector, left, 0, k⟩) (mem : UInt32 → UInt8) (a : UInt32) :
    copyWords n (a + UInt32.ofNat (2 * k)) (d, filled mem a (d.image sector) (2 * k)) =
      (d.handOut (sector + 1) (left - 1), filled mem a (d.image sector) 512) := by
  induction n generalizing d k with
  | zero => omega
  | succ n ih =>
      have hword : d.word.1 = UInt16.ofNat ((d.image sector (2 * k)).toNat +
          2 ^ 8 * (d.image sector (2 * k + 1)).toNat) := by
        unfold AtaDrive.word
        rw [ht]
        rfl
      have hnext : d.word.2 = if k + 1 < 256 then { d with transfer := some ⟨sector, left, 0, k + 1⟩ }
          else d.handOut (sector + 1) (left - 1) := by
        unfold AtaDrive.word
        rw [ht]
        rfl
      have haddr : a + UInt32.ofNat (2 * k) + 2 = a + UInt32.ofNat (2 * (k + 1)) := by
        rw [Nat.mul_add, UInt32.ofNat_add, UInt32.add_assoc]
        rfl
      rw [copyWords, hword, hnext, setWord_filled mem a _ (by omega), haddr]
      by_cases hlast : k + 1 < 256
      · rw [if_pos hlast]
        exact ih (d := { d with transfer := some ⟨sector, left, 0, k + 1⟩ }) (by omega) (by omega) rfl
      · obtain rfl : n = 0 := by omega
        obtain rfl : k = 255 := by omega
        rw [if_neg hlast]
        rfl

/-- **256 words are the sector at hand**, and the drive turns to the next one. -/
theorem copyWords_sector (ht : d.transfer = some ⟨sector, left, 0, 0⟩) (mem : UInt32 → UInt8) (a : UInt32) :
    copyWords 256 a (d, mem) = (d.handOut (sector + 1) (left - 1), filled mem a (d.image sector) 512) := by
  have h := copyWords_from (k := 0) (n := 256) rfl (by decide) ht mem a
  rw [Nat.mul_zero, filled_zero, show UInt32.ofNat 0 = 0 from rfl, UInt32.add_zero] at h
  exact h

/-- What the drive is busy with does not depend on the transfer. -/
@[simp] theorem AtaDrive.handOut_image (d : AtaDrive) (sector left : Nat) : (d.handOut sector left).image = d.image := by
  unfold AtaDrive.handOut
  split
  · rfl
  · split <;> rfl

@[simp] theorem AtaDrive.handOut_delay (d : AtaDrive) (sector left : Nat) : (d.handOut sector left).delay = d.delay := by
  unfold AtaDrive.handOut
  split
  · rfl
  · split <;> rfl

@[simp] theorem AtaDrive.handOut_device (d : AtaDrive) (sector left : Nat) :
    (d.handOut sector left).device = d.device := by
  unfold AtaDrive.handOut
  split
  · rfl
  · split <;> rfl

end Read

end Machine
