import RasOS.Lib.Prog

set_option autoImplicit false

/-! # Two programs in step

`InStep x s y t Q`: started in `s` and in `t`, the programs both stop, or both return and leave values and
states that `Q` relates. The states may be of different kinds: one may be a finer view of the same machine. -/

namespace Machine

variable {σ τ α β α' β' : Type}

def InStep (x : Prog σ α) (s : σ) (y : Prog τ β) (t : τ) (Q : α → σ → β → τ → Prop) : Prop :=
  (x s = none ∧ y t = none) ∨ ∃ a s' b t', x s = some (a, s') ∧ y t = some (b, t') ∧ Q a s' b t'

namespace InStep

variable {x : Prog σ α} {s : σ} {y : Prog τ β} {t : τ} {Q : α → σ → β → τ → Prop}

theorem of_none (hx : x s = none) (hy : y t = none) : InStep x s y t Q := Or.inl ⟨hx, hy⟩

theorem of_some {a : α} {s' : σ} {b : β} {t' : τ} (hx : x s = some (a, s')) (hy : y t = some (b, t'))
    (hQ : Q a s' b t') : InStep x s y t Q :=
  Or.inr ⟨a, s', b, t', hx, hy, hQ⟩

/-- Parts that keep step make sequences that do. -/
theorem bind {f : α → Prog σ α'} {g : β → Prog τ β'} {Q' : α' → σ → β' → τ → Prop} (h : InStep x s y t Q)
    (hf : ∀ a s' b t', Q a s' b t' → InStep (f a) s' (g b) t' Q') : InStep (x >>= f) s (y >>= g) t Q' := by
  rcases h with ⟨hx, hy⟩ | ⟨a, s', b, t', hx, hy, hQ⟩
  · exact of_none (bind_of_none hx) (bind_of_none hy)
  · rcases hf a s' b t' hQ with ⟨hx', hy'⟩ | ⟨a', s'', b', t'', hx', hy', hQ'⟩
    · exact of_none ((bind_of_some hx).trans hx') ((bind_of_some hy).trans hy')
    · exact of_some ((bind_of_some hx).trans hx') ((bind_of_some hy).trans hy') hQ'

/-- The first program makes a step of its own. -/
theorem left {f : α → Prog σ α'} {a : α} {s' : σ} {Q' : α' → σ → β → τ → Prop} (hx : x s = some (a, s'))
    (h : InStep (f a) s' y t Q') : InStep (x >>= f) s y t Q' := by
  unfold InStep at h ⊢
  rw [bind_of_some hx]
  exact h

/-- The second one does. -/
theorem right {g : β → Prog τ β'} {b : β} {t' : τ} {Q' : α → σ → β' → τ → Prop} (hy : y t = some (b, t'))
    (h : InStep x s (g b) t' Q') : InStep x s (y >>= g) t Q' := by
  unfold InStep at h ⊢
  rw [bind_of_some hy]
  exact h

/-- The second program goes on alone. -/
theorem bind_right {g : β → Prog τ β'} {Q' : α → σ → β' → τ → Prop} (h : InStep x s y t Q)
    (hg : ∀ a s' b t', Q a s' b t' → ∃ b' t'', g b t' = some (b', t'') ∧ Q' a s' b' t'') :
    InStep x s (y >>= g) t Q' := by
  rcases h with ⟨hx, hy⟩ | ⟨a, s', b, t', hx, hy, hQ⟩
  · exact of_none hx (bind_of_none hy)
  · obtain ⟨b', t'', hgo, hQ'⟩ := hg a s' b t' hQ
    exact of_some hx ((bind_of_some hy).trans hgo) hQ'

theorem mono {Q' : α → σ → β → τ → Prop} (h : InStep x s y t Q) (hQ : ∀ a s' b t', Q a s' b t' → Q' a s' b t') :
    InStep x s y t Q' := by
  rcases h with hnone | ⟨a, s', b, t', hx, hy, ha⟩
  · exact Or.inl hnone
  · exact of_some hx hy (hQ a s' b t' ha)

/-- What is known of a run of the first program is known of the second. -/
theorem total (h : InStep x s y t Q) {P : α → σ → Prop} (hx : Total x s P) :
    Total y t fun b t' => ∃ a s', P a s' ∧ Q a s' b t' := by
  obtain ⟨a, s', hrun, hP⟩ := hx
  rcases h with ⟨hnone, -⟩ | ⟨a', s'', b, t', hrun', hy, hQ⟩
  · rw [hrun] at hnone
    cases hnone
  · obtain ⟨rfl, rfl⟩ := Prod.mk.inj (Option.some.inj (hrun.symm.trans hrun'))
    exact ⟨b, t', hy, a, s', hP, hQ⟩

theorem stops (h : InStep x s y t Q) (hx : x s = none) : y t = none := by
  rcases h with ⟨-, hnone⟩ | ⟨a, s', b, t', hrun, -, -⟩
  · exact hnone
  · rw [hx] at hrun
    cases hrun

end InStep

end Machine
