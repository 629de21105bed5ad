import RasOS.Lib.Slice
import RasOS.Lib.Word

set_option autoImplicit false

/-! # Segment descriptors of the x86

A descriptor is eight bytes. Its base address is in bytes 2, 3, 4 and 7, its limit in bytes 0 and 1 and the lower
half of byte 6, and byte 5 says what the segment is for. The limit has 20 bits; when the granularity bit, the
highest one of byte 6, is set, it counts pages of 4 KiB. -/

namespace Machine

/-- What a descriptor says of its segment. -/
structure Segment where
  base : UInt32
  limit : UInt32
  access : UInt8
  deriving DecidableEq

section Decode

variable (mem : Nat → UInt8) (p : Nat)

def descriptorBase : UInt32 :=
  UInt32.ofNat ((mem (p + 2)).toNat + 2 ^ 8 * (mem (p + 3)).toNat + 2 ^ 16 * (mem (p + 4)).toNat +
    2 ^ 24 * (mem (p + 7)).toNat)

/-- The 20 bits of the limit. -/
def descriptorField : UInt32 :=
  UInt32.ofNat ((mem p).toNat + 2 ^ 8 * (mem (p + 1)).toNat + 2 ^ 16 * (mem (p + 6) &&& 0x0F).toNat)

/-- The limit counts pages. -/
def Granular : Prop := mem (p + 6) &&& 0x80 ≠ 0

instance : Decidable (Granular mem p) := inferInstanceAs (Decidable (_ ≠ _))

def descriptorLimit : UInt32 :=
  if Granular mem p then descriptorField mem p <<< 12 ||| 0xFFF else descriptorField mem p

/-- The segment of the descriptor at `p`. -/
def segmentAt : Segment where
  base := descriptorBase mem p
  limit := descriptorLimit mem p
  access := mem (p + 5)

end Decode

/-! ## The bytes of a word -/

@[simp] theorem uint8_and_255 (x : UInt8) : x &&& 255 = x := UInt8.and_neg_one

theorem toNat_shiftRight_toUInt8 (x : UInt32) {k : UInt32} (hk : k.toNat < 32) :
    (x >>> k).toUInt8.toNat = x.toNat / 2 ^ k.toNat % 2 ^ 8 := by
  rw [UInt32.toNat_toUInt8, UInt32.toNat_shiftRight, Nat.mod_eq_of_lt hk, Nat.shiftRight_eq_div_pow]

/-- Four bytes make a word. -/
theorem ofNat_bytes (x : UInt32) : UInt32.ofNat (x.toUInt8.toNat + 2 ^ 8 * (x >>> 8).toUInt8.toNat +
    2 ^ 16 * (x >>> 16).toUInt8.toNat + 2 ^ 24 * (x >>> 24).toUInt8.toNat) = x := by
  have hx := x.toNat_lt
  apply UInt32.toNat_inj.mp
  rw [toNat_shiftRight_toUInt8 x (by decide), toNat_shiftRight_toUInt8 x (by decide),
    toNat_shiftRight_toUInt8 x (by decide), UInt32.toNat_toUInt8, UInt32.toNat_ofNat']
  simp only [UInt32.reduceToNat]
  omega

/-- Two bytes and a half make 20 bits. -/
theorem ofNat_field {x : UInt32} (hx : x.toNat < 2 ^ 20) : UInt32.ofNat (x.toUInt8.toNat +
    2 ^ 8 * (x >>> 8).toUInt8.toNat + 2 ^ 16 * (x >>> 16).toUInt8.toNat) = x := by
  apply UInt32.toNat_inj.mp
  rw [toNat_shiftRight_toUInt8 x (by decide), toNat_shiftRight_toUInt8 x (by decide), UInt32.toNat_toUInt8,
    UInt32.toNat_ofNat']
  simp only [UInt32.reduceToNat]
  omega

/-- A number of pages counts the bytes up to the end of a page. -/
theorem pages_shiftLeft {x : UInt32} (hx : x &&& 0xFFF = 0xFFF) : (x >>> 12) <<< 12 ||| 0xFFF = x := by
  have hlow : x.toNat % 4096 = 4095 := by
    rw [← toNat_and_low, hx]
    rfl
  have hlt := x.toNat_lt
  have hpages : ((x >>> 12) <<< 12).toNat = 2 ^ 12 * (x.toNat / 2 ^ 12) := by
    rw [UInt32.toNat_shiftLeft, UInt32.toNat_shiftRight, Nat.shiftLeft_eq, Nat.shiftRight_eq_div_pow]
    simp only [UInt32.reduceToNat, Nat.reduceMod]
    omega
  apply UInt32.toNat_inj.mp
  rw [UInt32.toNat_or, hpages, show (0xFFF : UInt32).toNat = 4095 from rfl,
    ← Nat.two_pow_add_eq_or_of_lt (by decide)]
  omega

/-! ## The byte of the flags -/

section Flags

variable {flags high : UInt8}

/-- The lower half of the byte is that of the limit. -/
theorem or_and_low (hflags : flags &&& 0x0F = 0) (hhigh : high.toNat < 16) : (flags ||| high) &&& 0x0F = high := by
  have hzero : flags.toNat &&& 15 = 0 := congrArg UInt8.toNat hflags
  have hmask : high.toNat &&& 15 = high.toNat % 2 ^ 4 := Nat.and_two_pow_sub_one_eq_mod _ 4
  apply UInt8.toNat_inj.mp
  rw [UInt8.toNat_and, UInt8.toNat_or, Nat.and_or_distrib_right, show (0x0F : UInt8).toNat = 15 from rfl, hzero,
    hmask, Nat.zero_or, Nat.mod_eq_of_lt (show high.toNat < 2 ^ 4 from hhigh)]

/-- The granularity is that of the flags. -/
theorem or_and_granularity (hhigh : high.toNat < 16) : (flags ||| high) &&& 0x80 = flags &&& 0x80 := by
  have hzero : ∀ n < 16, n &&& 128 = 0 := by decide
  apply UInt8.toNat_inj.mp
  rw [UInt8.toNat_and, UInt8.toNat_or, Nat.and_or_distrib_right, show (0x80 : UInt8).toNat = 128 from rfl,
    hzero _ hhigh, Nat.or_zero, UInt8.toNat_and]
  rfl

end Flags

/-! ## Writing a descriptor -/

/-- The bytes of the descriptor of a segment with the limit field `field` and with `flags` above it. -/
def descriptorBytes (base field : UInt32) (access flags : UInt8) : List UInt8 :=
  [field.toUInt8, (field >>> 8).toUInt8, base.toUInt8, (base >>> 8).toUInt8, (base >>> 16).toUInt8, access,
    flags ||| (field >>> 16).toUInt8, (base >>> 24).toUInt8]

/-- **Decoding** gives back what was written. -/
theorem segmentAt_descriptorBytes {mem : Nat → UInt8} {p : Nat} {base field : UInt32} {access flags : UInt8}
    (hbytes : slice mem p 8 = descriptorBytes base field access flags) (hfield : field.toNat < 2 ^ 20)
    (hflags : flags &&& 0x0F = 0) :
    segmentAt mem p = ⟨base, if flags &&& 0x80 ≠ 0 then field <<< 12 ||| 0xFFF else field, access⟩ := by
  have hhigh : (field >>> 16).toUInt8.toNat < 16 := by
    rw [toNat_shiftRight_toUInt8 field (by decide)]
    simp only [UInt32.reduceToNat]
    omega
  simp only [slice, List.range_succ, List.range_zero, List.nil_append, List.map_cons, List.map_nil,
    List.cons_append, descriptorBytes, List.cons.injEq, and_true, Nat.add_zero] at hbytes
  obtain ⟨h0, h1, h2, h3, h4, h5, h6, h7⟩ := hbytes
  have hbase : descriptorBase mem p = base := by
    rw [descriptorBase, h2, h3, h4, h7, ofNat_bytes]
  have hlimit : descriptorField mem p = field := by
    rw [descriptorField, h0, h1, h6, or_and_low hflags hhigh, ofNat_field hfield]
  have hgranular : Granular mem p ↔ flags &&& 0x80 ≠ 0 := by
    rw [Granular, h6, or_and_granularity hhigh]
  unfold segmentAt descriptorLimit
  simp only [hbase, hlimit, h5, hgranular]

end Machine
