import Mathlib.Tactic

set_option autoImplicit false

/-! # Programs over a state that may stop

`Prog σ α` is a C function seen from outside: started in a state `σ` it returns a value and the
state it leaves, or it stops (`none`): it dereferences a null or dangling pointer, runs past the
end of an object, or never returns. Three kinds of statement are made about a program:

* `Total x s Q`: from `s` it returns, with value and state satisfying `Q`. The rules of this form
  are equivalences, so the exact condition under which a program returns what it should can be
  computed by rewriting.
* `Ensures x s Q`: if it returns from `s`, then with `Q`.
* `Keeps R x`: whenever it returns, the state before and the state after are related by `R`. Used
  for frames and invariants (`R s s' := I s → I s'`).
-/

namespace Machine

/-- A program over the state `σ` returning `α`; `none` when it stops. -/
abbrev Prog (σ α : Type) := StateT σ Option α

variable {σ α β : Type}

/-- The program that stops. -/
def stop : Prog σ α := fun _ => none

@[simp] theorem stop_apply (s : σ) : (stop : Prog σ α) s = none := rfl

theorem pure_apply (a : α) (s : σ) : (pure a : Prog σ α) s = some (a, s) := rfl

theorem bind_apply (x : Prog σ α) (f : α → Prog σ β) (s : σ) :
    (x >>= f) s = (x s).bind fun r => f r.1 r.2 := rfl

/-- A sequence returns exactly when both parts do, one after the other. -/
theorem bind_eq_some {x : Prog σ α} {f : α → Prog σ β} {s s'' : σ} {b : β} :
    (x >>= f) s = some (b, s'') ↔ ∃ a s', x s = some (a, s') ∧ f a s' = some (b, s'') := by
  rw [bind_apply, Option.bind_eq_some_iff]
  constructor
  · rintro ⟨⟨a, s'⟩, hx, hf⟩
    exact ⟨a, s', hx, hf⟩
  · rintro ⟨a, s', hx, hf⟩
    exact ⟨(a, s'), hx, hf⟩

theorem bind_of_some {x : Prog σ α} {f : α → Prog σ β} {s s' : σ} {a : α}
    (h : x s = some (a, s')) : (x >>= f) s = f a s' := by
  rw [bind_apply, h]
  rfl

theorem bind_of_none {x : Prog σ α} {f : α → Prog σ β} {s : σ} (h : x s = none) :
    (x >>= f) s = none := by
  rw [bind_apply, h]
  rfl

theorem ite_bind {c : Prop} [Decidable c] (x y : Prog σ α) (f : α → Prog σ β) :
    (if c then x else y) >>= f = if c then x >>= f else y >>= f := by
  split <;> rfl

theorem pure_eq_some {a b : α} {s s' : σ} :
    (pure a : Prog σ α) s = some (b, s') ↔ a = b ∧ s = s' := by
  rw [pure_apply, Option.some.injEq, Prod.mk.injEq]

/-! ## Returning with a postcondition -/

/-- From `s` the program returns, and its value and final state satisfy `Q`. -/
def Total (x : Prog σ α) (s : σ) (Q : α → σ → Prop) : Prop :=
  ∃ a s', x s = some (a, s') ∧ Q a s'

theorem total_pure {a : α} {s : σ} {Q : α → σ → Prop} :
    Total (pure a) s Q ↔ Q a s := by
  constructor
  · rintro ⟨_, _, h, hQ⟩
    obtain ⟨rfl, rfl⟩ := pure_eq_some.mp h
    exact hQ
  · intro hQ
    exact ⟨a, s, rfl, hQ⟩

theorem total_bind {x : Prog σ α} {f : α → Prog σ β} {s : σ} {Q : β → σ → Prop} :
    Total (x >>= f) s Q ↔ Total x s fun a s' => Total (f a) s' Q := by
  constructor
  · rintro ⟨b, s'', h, hQ⟩
    obtain ⟨a, s', hx, hf⟩ := bind_eq_some.mp h
    exact ⟨a, s', hx, b, s'', hf, hQ⟩
  · rintro ⟨a, s', hx, b, s'', hf, hQ⟩
    exact ⟨b, s'', bind_eq_some.mpr ⟨a, s', hx, hf⟩, hQ⟩

theorem not_total_stop {s : σ} {Q : α → σ → Prop} : ¬ Total stop s Q := by
  rintro ⟨_, _, h, _⟩
  cases h

/-- Two postconditions that agree on what the program returns are the same. -/
theorem total_congr {x : Prog σ α} {s : σ} {Q Q' : α → σ → Prop}
    (h : ∀ a s', x s = some (a, s') → (Q a s' ↔ Q' a s')) : Total x s Q ↔ Total x s Q' := by
  constructor
  · rintro ⟨a, s', hx, hQ⟩
    exact ⟨a, s', hx, (h a s' hx).mp hQ⟩
  · rintro ⟨a, s', hx, hQ⟩
    exact ⟨a, s', hx, (h a s' hx).mpr hQ⟩

theorem total_of_some {x : Prog σ α} {s s' : σ} {a : α} {Q : α → σ → Prop}
    (h : x s = some (a, s')) : Total x s Q ↔ Q a s' := by
  constructor
  · rintro ⟨_, _, h', hQ⟩
    obtain ⟨rfl, rfl⟩ := Prod.mk.inj (Option.some.inj (h.symm.trans h'))
    exact hQ
  · intro hQ
    exact ⟨a, s', h, hQ⟩

/-- A run is the same as another run, from another state. -/
theorem total_of_eq {x y : Prog σ α} {s t : σ} {Q : α → σ → Prop} (h : x s = y t) :
    Total x s Q ↔ Total y t Q := by
  unfold Total
  rw [h]

/-- A run on a concrete state can be checked by evaluating it. -/
instance {x : Prog σ α} {s : σ} {Q : α → σ → Prop} [∀ a s', Decidable (Q a s')] :
    Decidable (Total x s Q) :=
  decidable_of_iff ((x s).any (fun r => decide (Q r.1 r.2)) = true) <| by
    cases h : x s with
    | none =>
        constructor
        · intro hany
          cases hany
        · rintro ⟨a, s', h', -⟩
          rw [h] at h'
          cases h'
    | some r =>
        rw [total_of_some h]
        exact decide_eq_true_iff

/-- The first part of a sequence is known. -/
theorem total_bind_of_some {x : Prog σ α} {f : α → Prog σ β} {s s' : σ} {a : α}
    {Q : β → σ → Prop} (h : x s = some (a, s')) : Total (x >>= f) s Q ↔ Total (f a) s' Q := by
  rw [total_bind, total_of_some h]

theorem Total.mono {x : Prog σ α} {s : σ} {Q Q' : α → σ → Prop} (h : Total x s Q)
    (hQ : ∀ a s', Q a s' → Q' a s') : Total x s Q' := by
  obtain ⟨a, s', hx, ha⟩ := h
  exact ⟨a, s', hx, hQ a s' ha⟩

/-- The rule for a sequence, with an assertion in the middle. -/
theorem Total.bind {x : Prog σ α} {f : α → Prog σ β} {s : σ} {Q : α → σ → Prop}
    {Q' : β → σ → Prop} (hx : Total x s Q) (hf : ∀ a s', Q a s' → Total (f a) s' Q') :
    Total (x >>= f) s Q' :=
  total_bind.mpr (hx.mono hf)

/-! ## Partial correctness -/

/-- If the program returns from `s`, its value and final state satisfy `Q`. -/
def Ensures (x : Prog σ α) (s : σ) (Q : α → σ → Prop) : Prop :=
  ∀ a s', x s = some (a, s') → Q a s'

theorem Total.ensures {x : Prog σ α} {s : σ} {Q : α → σ → Prop} (h : Total x s Q) :
    Ensures x s Q := by
  intro a s' hx
  exact (total_of_some hx).mp h

theorem ensures_of_some {x : Prog σ α} {s s' : σ} {a : α} {Q : α → σ → Prop}
    (h : x s = some (a, s')) : Ensures x s Q ↔ Q a s' := by
  constructor
  · exact fun hall => hall a s' h
  · intro hQ b t hb
    obtain ⟨rfl, rfl⟩ := Prod.mk.inj (Option.some.inj (h.symm.trans hb))
    exact hQ

theorem Ensures.pure {a : α} {s : σ} {Q : α → σ → Prop} (h : Q a s) :
    Ensures (Pure.pure a) s Q := by
  intro b s' hb
  obtain ⟨rfl, rfl⟩ := pure_eq_some.mp hb
  exact h

theorem Ensures.stop {s : σ} {Q : α → σ → Prop} : Ensures Machine.stop s Q :=
  fun _ _ h => by cases h

theorem Ensures.bind {x : Prog σ α} {f : α → Prog σ β} {s : σ} {Q : α → σ → Prop}
    {Q' : β → σ → Prop} (hx : Ensures x s Q) (hf : ∀ a s', Q a s' → Ensures (f a) s' Q') :
    Ensures (x >>= f) s Q' := by
  intro b s'' h
  obtain ⟨a, s', h1, h2⟩ := bind_eq_some.mp h
  exact hf a s' (hx a s' h1) b s'' h2

theorem ensures_bind_of_some {x : Prog σ α} {f : α → Prog σ β} {s s' : σ} {a : α}
    {Q : β → σ → Prop} (h : x s = some (a, s')) : Ensures (x >>= f) s Q ↔ Ensures (f a) s' Q := by
  rw [Ensures, bind_of_some h, Ensures]

theorem Ensures.mono {x : Prog σ α} {s : σ} {Q Q' : α → σ → Prop} (h : Ensures x s Q)
    (hQ : ∀ a s', Q a s' → Q' a s') : Ensures x s Q' :=
  fun a s' hx => hQ a s' (h a s' hx)

theorem Ensures.ite {c : Prop} [Decidable c] {x y : Prog σ α} {s : σ} {Q : α → σ → Prop}
    (hx : c → Ensures x s Q) (hy : ¬ c → Ensures y s Q) : Ensures (if c then x else y) s Q := by
  split
  · exact hx ‹c›
  · exact hy ‹¬ c›

/-! ## Returning under a condition -/

/-- Whenever the program returns from `s` its value and final state satisfy `Q`, and under the
condition `g` it does return. One proof gives both readings of a program that only lacks a
resource. -/
def Guarded (g : Prop) (x : Prog σ α) (s : σ) (Q : α → σ → Prop) : Prop :=
  Ensures x s Q ∧ (g → ∃ a s', x s = some (a, s'))

namespace Guarded

variable {g : Prop} {x : Prog σ α} {s : σ} {Q Q' : α → σ → Prop}

theorem total (h : Guarded g x s Q) (hg : g) : Total x s Q := by
  obtain ⟨a, s', hx⟩ := h.2 hg
  exact ⟨a, s', hx, h.1 a s' hx⟩

theorem of_total (h : Total x s Q) : Guarded g x s Q := by
  obtain ⟨a, s', hx, -⟩ := id h
  exact ⟨h.ensures, fun _ => ⟨a, s', hx⟩⟩

theorem pure {a : α} (h : Q a s) : Guarded g (Pure.pure a) s Q := of_total (total_pure.mpr h)

theorem stop (h : ¬ g) : Guarded g (Machine.stop : Prog σ α) s Q :=
  ⟨Ensures.stop, fun hg => absurd hg h⟩

/-- The first part of a sequence is known. -/
theorem bind_of_some {f : α → Prog σ β} {a : α} {s' : σ} {Q' : β → σ → Prop} (hx : x s = some (a, s'))
    (hf : Guarded g (f a) s' Q') : Guarded g (x >>= f) s Q' := by
  refine ⟨fun b s'' h => ?_, fun hg => ?_⟩
  · rw [Machine.bind_of_some hx] at h
    exact hf.1 b s'' h
  · rw [Machine.bind_of_some hx]
    exact hf.2 hg

/-- The first part of a sequence stops. -/
theorem bind_of_none {f : α → Prog σ β} {Q' : β → σ → Prop} (hx : x s = none) (hg : ¬ g) :
    Guarded g (x >>= f) s Q' := by
  refine ⟨fun b s'' h => ?_, fun hg' => absurd hg' hg⟩
  rw [Machine.bind_of_none hx] at h
  cases h

theorem mono (h : Guarded g x s Q) (hQ : ∀ a s', Q a s' → Q' a s') : Guarded g x s Q' :=
  ⟨h.1.mono hQ, h.2⟩

theorem ite {c : Prop} [Decidable c] {y : Prog σ α} (hx : c → Guarded g x s Q)
    (hy : ¬ c → Guarded g y s Q) : Guarded g (if c then x else y) s Q := by
  split
  · exact hx ‹c›
  · exact hy ‹¬ c›

end Guarded

/-! ## Relations kept by every run -/

/-- Every run of `x` that returns takes a state to an `R`-related one. -/
def Keeps (R : σ → σ → Prop) (x : Prog σ α) : Prop :=
  ∀ s a s', x s = some (a, s') → R s s'

/-- A relation fit for `Keeps`: it holds of a program that does nothing and composes along a
sequence. -/
structure Frame (R : σ → σ → Prop) : Prop where
  refl : ∀ s, R s s
  trans : ∀ {s s' s''}, R s s' → R s' s'' → R s s''

section Rules

variable {R : σ → σ → Prop}

theorem Keeps.pure (hR : Frame R) (a : α) : Keeps R (Pure.pure a : Prog σ α) := by
  intro s b s' h
  obtain ⟨-, rfl⟩ := pure_eq_some.mp h
  exact hR.refl s

theorem Keeps.stop : Keeps R (Machine.stop : Prog σ α) := by
  intro s b s' h
  cases h

theorem Keeps.bind (hR : Frame R) {x : Prog σ α} {f : α → Prog σ β}
    (hx : Keeps R x) (hf : ∀ a, Keeps R (f a)) : Keeps R (x >>= f) := by
  intro s b s'' h
  obtain ⟨a, s', h1, h2⟩ := bind_eq_some.mp h
  exact hR.trans (hx s a s' h1) (hf a s' b s'' h2)

/-- A relation kept is an assertion about what follows. -/
theorem Keeps.ensures {x : Prog σ α} (hx : Keeps R x) (s : σ) : Ensures x s fun _ s' => R s s' :=
  fun a s' h => hx s a s' h

/-- A program that returns also keeps what it keeps. -/
theorem Total.keeps {x : Prog σ α} {s : σ} {Q : α → σ → Prop} (h : Total x s Q) (hx : Keeps R x) :
    Total x s fun a s' => Q a s' ∧ R s s' := by
  obtain ⟨a, s', hs', ha⟩ := h
  exact ⟨a, s', hs', ha, hx s a s' hs'⟩

theorem Keeps.ite {c : Prop} [Decidable c] {x y : Prog σ α} (hx : Keeps R x) (hy : Keeps R y) :
    Keeps R (if c then x else y) := by
  split
  · exact hx
  · exact hy

end Rules

end Machine
