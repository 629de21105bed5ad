import Mathlib.Tactic

set_option autoImplicit false

/-! # Machine words and C integers

A 32-bit word is a `UInt32`, its arithmetic wraps. A C `int` is an `Int`; where its arithmetic
can leave the range, `wrap` brings the result back the way a 32-bit register does. `signed`
reads a word as an `int` and `UInt32.ofInt` stores an `int` in a word.
-/

namespace Machine

/-- The `int` held in a word. -/
def signed (x : UInt32) : Int := if x.toNat < 2 ^ 31 then x.toNat else x.toNat - 2 ^ 32

/-- The value a 32-bit signed register holds after a computation with result `i`. -/
def wrap (i : Int) : Int := Int.bmod i (2 ^ 32)

theorem signed_of_lt {x : UInt32} (h : x.toNat < 2 ^ 31) : signed x = x.toNat := by
  rw [signed, if_pos h]

theorem signed_of_ge {x : UInt32} (h : 2 ^ 31 ≤ x.toNat) : signed x = x.toNat - 2 ^ 32 := by
  rw [signed, if_neg (by omega)]

theorem signed_ge (x : UInt32) : -2 ^ 31 ≤ signed x := by
  rw [signed]
  split <;> omega

theorem wrap_of_range {i : Int} (h1 : -2 ^ 31 ≤ i) (h2 : i < 2 ^ 31) : wrap i = i := by
  rw [wrap, Int.bmod_def]
  omega

@[simp] theorem wrap_zero : wrap 0 = 0 := rfl

/-- A word of `Nat` size is its own value. -/
theorem toNat_ofNat_of_lt {n : Nat} (h : n < 2 ^ 32) : (UInt32.ofNat n).toNat = n := by
  rw [UInt32.toNat_ofNat', Nat.mod_eq_of_lt h]

theorem toNat_ofInt (i : Int) : (UInt32.ofInt i).toNat = (i % 2 ^ 32).toNat := by
  rw [UInt32.ofInt, UInt32.toNat_ofNat']
  omega

theorem toNat_ofInt_of_range {i : Int} (h1 : 0 ≤ i) (h2 : i < 2 ^ 32) :
    (UInt32.ofInt i).toNat = i.toNat := by
  rw [toNat_ofInt]
  omega

/-- Storing an `int` in a word and reading it back. -/
theorem signed_ofInt {i : Int} (h1 : -2 ^ 31 ≤ i) (h2 : i < 2 ^ 31) :
    signed (UInt32.ofInt i) = i := by
  rw [signed, toNat_ofInt]
  split <;> omega

/-! ## Offsets from a pointer -/

theorem toNat_offset (a : UInt32) {n : Nat} (h : n < 2 ^ 32) : (a + UInt32.ofNat n - a).toNat = n := by
  have hlt := a.toNat_lt
  rw [UInt32.toNat_sub, UInt32.toNat_add, UInt32.toNat_ofNat']
  omega

theorem toNat_sub_offset (a b : UInt32) (n : Nat) :
    (a - (b + UInt32.ofNat n)).toNat = ((a - b).toNat + 2 ^ 32 - n % 2 ^ 32) % 2 ^ 32 := by
  have ha := a.toNat_lt
  have hb := b.toNat_lt
  rw [UInt32.toNat_sub, UInt32.toNat_sub, UInt32.toNat_add, UInt32.toNat_ofNat']
  omega

/-! ## Pages

The upper 20 bits of a word are a page, the lower 12 an offset or flags. -/

theorem nat_and_page {n : Nat} (h : n < 2 ^ 32) : n &&& 0xfffff000 = n / 4096 * 4096 := by
  apply Nat.eq_of_testBit_eq
  intro i
  have hmask : (0xfffff000 : Nat) = (2 ^ 20 - 1) <<< 12 := rfl
  have hdiv : n / 4096 * 4096 = (n >>> 12) <<< 12 := by
    rw [Nat.shiftLeft_eq, Nat.shiftRight_eq_div_pow]
  rw [hmask, hdiv, Nat.testBit_and, Nat.testBit_shiftLeft, Nat.testBit_shiftLeft,
    Nat.testBit_shiftRight, Nat.testBit_two_pow_sub_one]
  by_cases hi : 12 ≤ i
  · have hsum : 12 + (i - 12) = i := by omega
    by_cases hlt : i < 32
    · simp [hi, hsum]
      intro; omega
    · have hpow : 2 ^ 32 ≤ 2 ^ i := Nat.pow_le_pow_right (by decide) (by omega)
      have hzero : n.testBit i = false := Nat.testBit_lt_two_pow (h.trans_le hpow)
      simp [hsum, hzero]
  · simp [hi]

/-- The page of an address. -/
theorem toNat_and_page (x : UInt32) : (x &&& 0xfffff000).toNat = x.toNat / 4096 * 4096 := by
  rw [UInt32.toNat_and]
  exact nat_and_page x.toNat_lt

theorem nat_and_low {n f : Nat} (hn : n % 4096 = 0) (hf : f < 4096) : n &&& f = 0 := by
  apply Nat.eq_of_testBit_eq
  intro i
  rw [Nat.testBit_and, Nat.zero_testBit]
  by_cases hi : i < 12
  · have hbit : n.testBit i = (n % 2 ^ 12).testBit i := by
      rw [Nat.testBit_mod_two_pow]
      simp [hi]
    rw [hbit, show n % 2 ^ 12 = 0 from hn, Nat.zero_testBit, Bool.false_and]
  · have hpow : 2 ^ 12 ≤ 2 ^ i := Nat.pow_le_pow_right (by decide) (by omega)
    have hzero : f.testBit i = false := Nat.testBit_lt_two_pow (hf.trans_le hpow)
    rw [hzero, Bool.and_false]

/-- Flags do not touch the page of an entry. -/
theorem page_or_flags {x f : UInt32} (hx : x.toNat % 4096 = 0) (hf : f.toNat < 4096) :
    (x ||| f) &&& 0xfffff000 = x := by
  apply UInt32.toNat_inj.mp
  rw [UInt32.toNat_and, UInt32.toNat_or, Nat.and_or_distrib_right]
  have h1 : x.toNat &&& (0xfffff000 : UInt32).toNat = x.toNat := by
    rw [show (0xfffff000 : UInt32).toNat = 0xfffff000 from rfl, nat_and_page x.toNat_lt]
    omega
  have h2 : f.toNat &&& (0xfffff000 : UInt32).toNat = 0 := by
    rw [Nat.and_comm]
    exact nat_and_low rfl hf
  rw [h1, h2, Nat.or_zero]

/-- The page of an entry does not touch its flags. -/
theorem flags_or_page {x f g : UInt32} (hx : x.toNat % 4096 = 0) (hg : g.toNat < 4096) :
    (x ||| f) &&& g = f &&& g := by
  apply UInt32.toNat_inj.mp
  rw [UInt32.toNat_and, UInt32.toNat_or, Nat.and_or_distrib_right, nat_and_low hx hg, Nat.zero_or,
    UInt32.toNat_and]

/-- The offset of an address in its page. -/
theorem toNat_and_low (x : UInt32) : (x &&& 0xfff).toNat = x.toNat % 4096 := by
  rw [UInt32.toNat_and, show (0xfff : UInt32).toNat = 2 ^ 12 - 1 from rfl, Nat.and_two_pow_sub_one_eq_mod]

/-- Flags alone. -/
theorem and_low_flags {f : UInt32} (hf : f.toNat < 4096) : f &&& 0xfff = f := by
  apply UInt32.toNat_inj.mp
  rw [toNat_and_low, Nat.mod_eq_of_lt hf]

/-- The page of one word and the offset of another. -/
theorem toNat_page_or_low (x y : UInt32) :
    ((x &&& 0xfffff000) ||| (y &&& 0xfff)).toNat = x.toNat / 4096 * 4096 + y.toNat % 4096 := by
  have haligned : (x &&& 0xfffff000).toNat % 4096 = 0 := by
    rw [toNat_and_page]
    omega
  have hlow : (y &&& 0xfff).toNat < 4096 := by
    rw [toNat_and_low]
    omega
  have hpage := toNat_and_page ((x &&& 0xfffff000) ||| (y &&& 0xfff))
  have hoffset := toNat_and_low ((x &&& 0xfffff000) ||| (y &&& 0xfff))
  rw [page_or_flags haligned hlow, toNat_and_page] at hpage
  rw [flags_or_page haligned (by decide), and_low_flags hlow, toNat_and_low] at hoffset
  omega

/-! ## Words of four bytes -/

/-- The bytes of a word do not overlap. -/
theorem toNat_word (b0 b1 b2 b3 : UInt8) :
    (b0.toUInt32 ||| b1.toUInt32 <<< 8 ||| b2.toUInt32 <<< 16 ||| b3.toUInt32 <<< 24).toNat =
      b0.toNat + 2 ^ 8 * b1.toNat + 2 ^ 16 * b2.toNat + 2 ^ 24 * b3.toNat := by
  have h0 := b0.toNat_lt
  have h1 := b1.toNat_lt
  have h2 := b2.toNat_lt
  have h3 := b3.toNat_lt
  have hor : ∀ low high i : Nat, low < 2 ^ i → low ||| high <<< i = low + 2 ^ i * high := by
    intro low high i hlow
    rw [Nat.or_comm, ← Nat.shiftLeft_add_eq_or_of_lt hlow, Nat.shiftLeft_eq, Nat.mul_comm, Nat.add_comm]
  have hshift : ∀ (b : UInt8) (i : UInt32), i.toNat ≤ 24 → (b.toUInt32 <<< i).toNat = b.toNat <<< i.toNat := by
    intro b i hi
    have hb := b.toNat_lt
    have hpow : 2 ^ i.toNat ≤ 2 ^ 24 := Nat.pow_le_pow_right (by decide) hi
    rw [UInt32.toNat_shiftLeft, UInt8.toNat_toUInt32, Nat.mod_eq_of_lt (by omega : i.toNat < 32), Nat.shiftLeft_eq,
      Nat.mod_eq_of_lt (by nlinarith)]
  rw [UInt32.toNat_or, UInt32.toNat_or, UInt32.toNat_or, hshift b1 8 (by decide), hshift b2 16 (by decide),
    hshift b3 24 (by decide), UInt8.toNat_toUInt32]
  show ((b0.toNat ||| b1.toNat <<< 8) ||| b2.toNat <<< 16) ||| b3.toNat <<< 24 = _
  rw [hor _ _ 8 (by omega), hor _ _ 16 (by omega), hor _ _ 24 (by omega)]

/-- Byte `i` of a word. -/
def wordByte (v : UInt32) (i : Nat) : UInt8 := (v >>> UInt32.ofNat (8 * i)).toUInt8

/-- **A word from its bytes.** -/
theorem word_wordByte (v : UInt32) :
    (wordByte v 0).toUInt32 ||| (wordByte v 1).toUInt32 <<< 8 ||| (wordByte v 2).toUInt32 <<< 16 |||
      (wordByte v 3).toUInt32 <<< 24 = v := by
  have hv := v.toNat_lt
  have hbyte : ∀ i < 4, (wordByte v i).toNat = v.toNat / 2 ^ (8 * i) % 256 := by
    intro i hi
    have hshift : (UInt32.ofNat (8 * i)).toNat % 32 = 8 * i := by
      rw [UInt32.toNat_ofNat']
      omega
    rw [wordByte, UInt32.toNat_toUInt8, UInt32.toNat_shiftRight, hshift, Nat.shiftRight_eq_div_pow]
  apply UInt32.toNat_inj.mp
  rw [toNat_word, hbyte 0 (by decide), hbyte 1 (by decide), hbyte 2 (by decide), hbyte 3 (by decide)]
  omega

end Machine
