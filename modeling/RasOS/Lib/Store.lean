import Mathlib.Tactic

set_option autoImplicit false

/-! # A store of typed objects

A store maps pointers to objects of several types. A `Kind` singles out the objects of one type:
`read` at a kind gives `none` when the pointer is dangling or points to an object of another
type. -/

namespace Machine

/-- The objects that are an `α`. -/
structure Kind (Obj α : Type) where
  inj : α → Obj
  get : Obj → Option α
  get_inj : ∀ a, get (inj a) = some a
  inj_of_get : ∀ {o a}, get o = some a → inj a = o

namespace Kind

variable {Ptr Obj α β : Type}

def read (k : Kind Obj α) (m : Ptr → Option Obj) (p : Ptr) : Option α := (m p).bind k.get

theorem read_eq_some {k : Kind Obj α} {m : Ptr → Option Obj} {p : Ptr} {a : α} :
    k.read m p = some a ↔ m p = some (k.inj a) := by
  rw [read, Option.bind_eq_some_iff]
  constructor
  · rintro ⟨o, ho, ha⟩
    rw [ho, k.inj_of_get ha]
  · intro h
    exact ⟨k.inj a, h, k.get_inj a⟩

theorem inj_injective (k : Kind Obj α) {a b : α} (h : k.inj a = k.inj b) : a = b :=
  Option.some.inj (by rw [← k.get_inj a, ← k.get_inj b, h])

variable [DecidableEq Ptr]

def write (k : Kind Obj α) (m : Ptr → Option Obj) (p : Ptr) (a : α) : Ptr → Option Obj :=
  Function.update m p (some (k.inj a))

@[simp] theorem write_self (k : Kind Obj α) (m : Ptr → Option Obj) (p : Ptr) (a : α) :
    k.write m p a p = some (k.inj a) := Function.update_self ..

theorem write_of_ne (k : Kind Obj α) (m : Ptr → Option Obj) {p q : Ptr} (a : α) (h : q ≠ p) :
    k.write m p a q = m q := Function.update_of_ne h ..

@[simp] theorem read_write_self (k : Kind Obj α) (m : Ptr → Option Obj) (p : Ptr) (a : α) :
    k.read (k.write m p a) p = some a := by
  rw [read_eq_some, write_self]

/-- No object is of both kinds. -/
def Apart (k : Kind Obj α) (k' : Kind Obj β) : Prop := ∀ a b, k.inj a ≠ k'.inj b

/-- Overwriting an object of one kind leaves those of another kind alone. -/
theorem write_apart {k : Kind Obj α} {k' : Kind Obj β} (h : k.Apart k') {m : Ptr → Option Obj}
    {p q : Ptr} {a b : α} {c : β} (hp : m p = some (k.inj a)) :
    k.write m p b q = some (k'.inj c) ↔ m q = some (k'.inj c) := by
  by_cases hq : q = p
  · rw [hq, write_self, hp]
    constructor
    · intro heq
      exact absurd (Option.some.inj heq) (h b c)
    · intro heq
      exact absurd (Option.some.inj heq) (h a c)
  · rw [write_of_ne k m b hq]

end Kind

end Machine
