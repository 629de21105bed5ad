import RasOS.Lib.Descriptor
import RasOS.Lib.X86

set_option autoImplicit false

/-! # Interrupt gates of the x86

A gate is eight bytes: the lower half of the offset of the handler, the selector of its code segment, a byte
that is not used, a byte of attributes, and the upper half of the offset. The attributes are the type, with
the system bit above it, the privilege level from which `int` may use the gate, and the present bit. -/

namespace Machine

/-- What a gate says. -/
structure Gate where
  offset : UInt32
  selector : UInt16
  attributes : UInt8
  deriving DecidableEq

namespace Gate

/-- The type of a 32-bit interrupt gate, with the system bit clear. -/
def INTERRUPT_GATE : UInt8 := 0x0E

variable (g : Gate)

def type : UInt8 := g.attributes &&& 0x1F

def privilege : Nat := (g.attributes.toNat / 2 ^ 5) % 4

def Present : Prop := g.attributes &&& 0x80 ≠ 0

instance : Decidable g.Present := inferInstanceAs (Decidable (_ ≠ _))

end Gate

/-- The gate at `p`. -/
def gateAt (mem : Nat → UInt8) (p : Nat) : Gate where
  offset := UInt32.ofNat ((mem p).toNat + 2 ^ 8 * (mem (p + 1)).toNat + 2 ^ 16 * (mem (p + 6)).toNat +
    2 ^ 24 * (mem (p + 7)).toNat)
  selector := UInt16.ofNat ((mem (p + 2)).toNat + 2 ^ 8 * (mem (p + 3)).toNat)
  attributes := mem (p + 5)

/-- The bytes of a gate with the given halves of the offset. -/
def gateBytes (low selector : UInt16) (zero attributes : UInt8) (high : UInt16) : List UInt8 :=
  [low.toUInt8, (low >>> 8).toUInt8, selector.toUInt8, (selector >>> 8).toUInt8, zero, attributes, high.toUInt8,
    (high >>> 8).toUInt8]

/-! ## Reading what was written -/

/-- Two bytes make a half word. -/
theorem toNat_bytes16 (x : UInt16) : x.toUInt8.toNat + 2 ^ 8 * (x >>> 8).toUInt8.toNat = x.toNat := by
  have hx := x.toNat_lt
  have hshift : (x >>> 8).toNat = x.toNat / 2 ^ 8 := by
    rw [UInt16.toNat_shiftRight, Nat.shiftRight_eq_div_pow]
    rfl
  rw [UInt16.toNat_toUInt8, UInt16.toNat_toUInt8, hshift]
  omega

/-- **The bytes of a gate decode to it.** -/
theorem gateAt_gateBytes {mem : Nat → UInt8} {p : Nat} {low selector high : UInt16} {zero attributes : UInt8}
    (h : slice mem p 8 = gateBytes low selector zero attributes high) : gateAt mem p =
      ⟨UInt32.ofNat (low.toNat + 2 ^ 16 * high.toNat), selector, attributes⟩ := by
  have hbyte : ∀ i b, i < 8 → (gateBytes low selector zero attributes high)[i]? = some b → mem (p + i) = b := by
    intro i b hi hb
    rw [← h, slice_getElem?, if_pos hi] at hb
    exact Option.some.inj hb
  have h0 : mem p = _ := hbyte 0 _ (by decide) rfl
  have h1 := hbyte 1 _ (by decide) rfl
  have h2 := hbyte 2 _ (by decide) rfl
  have h3 := hbyte 3 _ (by decide) rfl
  have h5 := hbyte 5 _ (by decide) rfl
  have h6 := hbyte 6 _ (by decide) rfl
  have h7 := hbyte 7 _ (by decide) rfl
  have hoffset : low.toUInt8.toNat + 2 ^ 8 * (low >>> 8).toUInt8.toNat + 2 ^ 16 * high.toUInt8.toNat +
      2 ^ 24 * (high >>> 8).toUInt8.toNat = low.toNat + 2 ^ 16 * high.toNat := by
    rw [← toNat_bytes16 low, ← toNat_bytes16 high]
    omega
  have hselector : UInt16.ofNat (selector.toUInt8.toNat + 2 ^ 8 * (selector >>> 8).toUInt8.toNat) = selector := by
    rw [toNat_bytes16, UInt16.ofNat_toNat]
  unfold gateAt
  rw [h0, h1, h2, h3, h5, h6, h7, hoffset, hselector]

/-- A word from its halves. -/
theorem ofNat_halves (x : UInt32) :
    UInt32.ofNat ((x &&& 0x0000FFFF).toUInt16.toNat + 2 ^ 16 * (x >>> 16).toUInt16.toNat) = x := by
  have hx := x.toNat_lt
  have hlow : (x &&& 0x0000FFFF).toNat = x.toNat % 2 ^ 16 := by
    rw [UInt32.toNat_and]
    exact Nat.and_two_pow_sub_one_eq_mod _ 16
  have hhigh : (x >>> 16).toNat = x.toNat / 2 ^ 16 := by
    rw [UInt32.toNat_shiftRight, Nat.shiftRight_eq_div_pow]
    rfl
  apply UInt32.toNat_inj.mp
  rw [UInt32.toNat_ofNat', UInt32.toNat_toUInt16, UInt32.toNat_toUInt16, hlow, hhigh]
  omega

/-! ## The instruction `int` -/

/-- The two tables the processor looks at. The limit of a table is the offset of its last byte. -/
structure Tables where
  idt : Nat → UInt8
  idt_limit : Nat
  gdt : Nat → UInt8
  gdt_limit : Nat

/-- `int n` in ring `ring` may use the gate: it lies in the table, it is an interrupt gate and present, and
its privilege level admits the ring. -/
def Tables.Admits (t : Tables) (ring n : Nat) : Prop :=
  8 * n + 7 ≤ t.idt_limit ∧ (gateAt t.idt (8 * n)).type = Gate.INTERRUPT_GATE ∧
    (gateAt t.idt (8 * n)).Present ∧ ring ≤ (gateAt t.idt (8 * n)).privilege

instance (t : Tables) (ring n : Nat) : Decidable (t.Admits ring n) := inferInstanceAs (Decidable (_ ∧ _))

/-- The selector names a code segment of ring 0 that is present: bits 7, 4 and 3 of its access byte are set,
and the privilege level and the conforming bit are clear. -/
def Tables.EntersRing0 (t : Tables) (selector : UInt16) : Prop :=
  8 ≤ selector.toNat ∧ selector.toNat / 8 * 8 + 7 ≤ t.gdt_limit ∧
    (segmentAt t.gdt (selector.toNat / 8 * 8)).access &&& 0xFC = 0x98

instance (t : Tables) (selector : UInt16) : Decidable (t.EntersRing0 selector) :=
  inferInstanceAs (Decidable (_ ∧ _))

/-- `int n` of a program in an outer ring, through an interrupt gate into ring 0; with a gate or a segment
the processor refuses there is an exception instead, which is left out. The instruction pushes no error
code, whatever the vector. -/
def int (t : Tables) (esp0 : UInt32) (ss0 : UInt16) (n : Nat) (c : Cpu) : Option Cpu :=
  let g := gateAt t.idt (8 * n)
  if t.Admits (c.cs.toNat % 4) n ∧ t.EntersRing0 g.selector then
    some { interruptEnter esp0 ss0 g.selector none c with eip := g.offset }
  else none

end Machine
