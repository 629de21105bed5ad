import Mathlib.Tactic

set_option autoImplicit false

/-! # Slices of a function

`slice f p n` lists the values of `f` at `p`, …, `p + n - 1`. A device that is read in pieces
delivers a slice when the pieces are adjacent slices of it. -/

namespace Machine

variable {α : Type}

def slice (f : Nat → α) (p n : Nat) : List α := (List.range n).map fun i => f (p + i)

@[simp] theorem slice_length (f : Nat → α) (p n : Nat) : (slice f p n).length = n := by
  simp [slice]

@[simp] theorem slice_zero (f : Nat → α) (p : Nat) : slice f p 0 = [] := rfl

theorem slice_getElem? (f : Nat → α) (p n i : Nat) :
    (slice f p n)[i]? = if i < n then some (f (p + i)) else none := by
  rw [slice, List.getElem?_map]
  by_cases h : i < n
  · rw [List.getElem?_range h, if_pos h, Option.map_some]
  · rw [if_neg h, List.getElem?_eq_none (by rw [List.length_range]; omega), Option.map_none]

/-- Adjacent slices make a slice. -/
theorem slice_append (f : Nat → α) (p m n : Nat) :
    slice f p m ++ slice f (p + m) n = slice f p (m + n) := by
  apply List.ext_getElem?
  intro i
  rw [List.getElem?_append, slice_length]
  by_cases h : i < m
  · rw [if_pos h, slice_getElem?, slice_getElem?, if_pos h, if_pos (by omega)]
  · have hadd : p + m + (i - m) = p + i := by omega
    have hlt : i - m < n ↔ i < m + n := by omega
    rw [if_neg h, slice_getElem?, slice_getElem?, hadd]
    simp only [hlt]

/-- The beginning of a slice is a slice. -/
theorem slice_take (f : Nat → α) (p : Nat) {m n : Nat} (h : m ≤ n) :
    (slice f p n).take m = slice f p m := by
  have hsplit := slice_append f p m (n - m)
  rw [Nat.add_sub_cancel' h] at hsplit
  rw [← hsplit]
  exact List.take_left' (slice_length f p m)

/-- The end of a slice is a slice. -/
theorem slice_drop (f : Nat → α) (p : Nat) {m n : Nat} (h : m ≤ n) :
    (slice f p n).drop m = slice f (p + m) (n - m) := by
  have hsplit := slice_append f p m (n - m)
  rw [Nat.add_sub_cancel' h] at hsplit
  rw [← hsplit]
  exact List.drop_left' (slice_length f p m)

theorem slice_congr {f g : Nat → α} {p q n : Nat} (h : ∀ i, i < n → f (p + i) = g (q + i)) :
    slice f p n = slice g q n := by
  apply List.map_congr_left
  intro i hi
  exact h i (List.mem_range.mp hi)

/-- Two slices of one length are equal exactly when they agree place by place. -/
theorem slice_eq_iff {f g : Nat → α} {p q n : Nat} :
    slice f p n = slice g q n ↔ ∀ i, i < n → f (p + i) = g (q + i) := by
  constructor
  · intro h i hi
    have hi' := congrArg (fun l : List α => l[i]?) h
    simp only [slice_getElem?, if_pos hi] at hi'
    exact Option.some.inj hi'
  · exact slice_congr

end Machine
