import RasOS.Config

set_option autoImplicit false

/-! # Strings (`string/string.c`)

A C string is the list of its bytes before the terminating NUL. -/

namespace RasOS

def isDigit (ch : UInt8) : Bool := 48 ≤ ch && ch ≤ 57

def tolower (ch : UInt8) : UInt8 := if 65 ≤ ch ∧ ch ≤ 90 then ch + 32 else ch

/-- `strncmp`; a byte past the end of a list is the terminator. -/
def strncmp : List UInt8 → List UInt8 → Nat → Int
  | _, _, 0 => 0
  | str1, str2, n + 1 =>
      let u1 := str1.headD 0
      let u2 := str2.headD 0
      if u1 ≠ u2 then u1.toNat - u2.toNat
      else if u1 = 0 then 0
      else strncmp str1.tail str2.tail n

/-- `istrncmp`, which ignores the case of ASCII letters. -/
def istrncmp : List UInt8 → List UInt8 → Nat → Int
  | _, _, 0 => 0
  | s1, s2, n + 1 =>
      let u1 := s1.headD 0
      let u2 := s2.headD 0
      if u1 ≠ u2 ∧ tolower u1 ≠ tolower u2 then u1.toNat - u2.toNat
      else if u1 = 0 then 0
      else istrncmp s1.tail s2.tail n

/-- The string `strncpy(dest, src, count)` leaves in `dest`. -/
def strncpy (src : List UInt8) (count : Nat) : List UInt8 := src.take (count - 1)

/-! ## Comparing without regard to case -/

/-- Two names that differ in the case of ASCII letters at most. -/
def SameName (name name' : List UInt8) : Prop := name.map tolower = name'.map tolower

instance (name name' : List UInt8) : Decidable (SameName name name') :=
  inferInstanceAs (Decidable (_ = _))

end RasOS
