import RasOS.Lib.Prog

set_option autoImplicit false

/-! # What a program uses up at most

A relation `R n` between the states before and after a program says that it has used up no more than `n` of
something. What two programs use up one after the other adds up. -/

namespace Machine

variable {σ α β : Type}

/-- A relation fit for an account. -/
structure Graded (R : Nat → σ → σ → Prop) : Prop where
  refl : ∀ s, R 0 s s
  trans : ∀ {n m s s' s''}, R n s s' → R m s' s'' → R (n + m) s s''
  mono : ∀ {n m s s'}, n ≤ m → R n s s' → R m s s'

section Rules

variable {R : Nat → σ → σ → Prop} {n m : Nat}

/-- What uses up nothing can be repeated. -/
theorem Graded.frame (hR : Graded R) : Frame (R 0) := ⟨hR.refl, fun h h' => hR.trans h h'⟩

theorem Graded.mono_keeps (hR : Graded R) (h : n ≤ m) {x : Prog σ α} (hx : Keeps (R n) x) : Keeps (R m) x :=
  fun s a s' hrun => hR.mono h (hx s a s' hrun)

theorem Graded.bind (hR : Graded R) {x : Prog σ α} {f : α → Prog σ β} (hx : Keeps (R n) x)
    (hf : ∀ a, Keeps (R m) (f a)) : Keeps (R (n + m)) (x >>= f) := by
  intro s b s'' h
  obtain ⟨a, s', h1, h2⟩ := bind_eq_some.mp h
  exact hR.trans (hx s a s' h1) (hf a s' b s'' h2)

/-- First something that is free. -/
theorem Graded.bind_free (hR : Graded R) {x : Prog σ α} {f : α → Prog σ β} (hx : Keeps (R 0) x)
    (hf : ∀ a, Keeps (R m) (f a)) : Keeps (R m) (x >>= f) := by
  have h := hR.bind hx hf
  rwa [Nat.zero_add] at h

/-- And then something that is free. -/
theorem Graded.bind_last (hR : Graded R) {x : Prog σ α} {f : α → Prog σ β} (hx : Keeps (R n) x)
    (hf : ∀ a, Keeps (R 0) (f a)) : Keeps (R n) (x >>= f) := hR.bind hx hf

theorem Graded.pure (hR : Graded R) (n : Nat) (a : α) : Keeps (R n) (Pure.pure a : Prog σ α) :=
  hR.mono_keeps (Nat.zero_le n) (Keeps.pure hR.frame a)

end Rules

end Machine
