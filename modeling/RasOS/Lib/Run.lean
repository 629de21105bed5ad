import Mathlib.Tactic

set_option autoImplicit false

/-! # Runs of a step function

A system is a step function `step : σ → ι → Option σ`: operation `i` takes state `s` to
`step s i`, or is not possible there. `runFrom step s is` performs a list of operations. The
rules below reduce a statement about every state of a run to a statement about one step; the
steps may be asked to meet a condition that looks at the state before the step. -/

namespace Machine

variable {σ ι : Type} {step : σ → ι → Option σ}

/-- The state after the operations `is`, all of which must be possible. -/
def runFrom (step : σ → ι → Option σ) : σ → List ι → Option σ
  | s, [] => some s
  | s, i :: is => (step s i).bind fun s' => runFrom step s' is

/-- Every step of the run, as far as it is possible, meets the condition `C` in the state it starts
from. -/
def AllSteps (step : σ → ι → Option σ) (C : σ → ι → Prop) : σ → List ι → Prop
  | _, [] => True
  | s, i :: is => ∀ s', step s i = some s' → C s i ∧ AllSteps step C s' is

/-- `P` holds in every state of the run, the first and the last included. -/
def AllStates (step : σ → ι → Option σ) (P : σ → Prop) : σ → List ι → Prop
  | s, [] => P s
  | s, i :: is => P s ∧ ∀ s', step s i = some s' → AllStates step P s' is

theorem allStates_cons_of_some {P : σ → Prop} {s s' : σ} {i : ι} {is : List ι}
    (h : step s i = some s') :
    AllStates step P s (i :: is) ↔ P s ∧ AllStates step P s' is := by
  constructor
  · rintro ⟨hP, hrest⟩
    exact ⟨hP, hrest s' h⟩
  · rintro ⟨hP, hrest⟩
    refine ⟨hP, fun t ht => ?_⟩
    rw [h] at ht
    obtain rfl := Option.some.inj ht
    exact hrest

theorem AllStates.first {P : σ → Prop} {s : σ} {is : List ι} (h : AllStates step P s is) : P s := by
  cases is with
  | nil => exact h
  | cons i is => exact h.1

theorem runFrom_cons {s s'' : σ} {i : ι} {is : List ι} :
    runFrom step s (i :: is) = some s'' ↔
      ∃ s', step s i = some s' ∧ runFrom step s' is = some s'' := by
  rw [runFrom, Option.bind_eq_some_iff]

theorem allSteps_cons_of_some {C : σ → ι → Prop} {s s' : σ} {i : ι} {is : List ι}
    (h : step s i = some s') :
    AllSteps step C s (i :: is) ↔ C s i ∧ AllSteps step C s' is := by
  constructor
  · intro hall
    exact hall s' h
  · intro hC t ht
    rw [h] at ht
    obtain rfl := Option.some.inj ht
    exact hC

/-- **Run rule.** What every step that meets `C` preserves holds at the end of a run all of
whose steps meet `C`. -/
theorem runFrom_of_allSteps {C : σ → ι → Prop} {I : σ → Prop}
    (hstep : ∀ s i s', I s → C s i → step s i = some s' → I s') :
    ∀ {is : List ι} {s s' : σ}, I s → AllSteps step C s is → runFrom step s is = some s' → I s' := by
  intro is
  induction is with
  | nil =>
      intro s s' hI _ h
      obtain rfl := Option.some.inj h
      exact hI
  | cons i is ih =>
      intro s s' hI hC h
      obtain ⟨t, ht, hrest⟩ := runFrom_cons.mp h
      exact ih (hstep s i t hI (hC t ht).1 ht) (hC t ht).2 hrest

theorem allSteps_true (s : σ) (is : List ι) : AllSteps step (fun _ _ => True) s is := by
  induction is generalizing s with
  | nil => trivial
  | cons i is ih => exact fun s' _ => ⟨trivial, ih s'⟩

/-- **Invariant rule.** What every step preserves holds at the end of every run. -/
theorem runFrom_invariant {I : σ → Prop} (hstep : ∀ s i s', I s → step s i = some s' → I s')
    {is : List ι} {s s' : σ} (hI : I s) (h : runFrom step s is = some s') : I s' :=
  runFrom_of_allSteps (C := fun _ _ => True) (fun s i s' hs _ => hstep s i s' hs) hI
    (allSteps_true s is) h

theorem runFrom_append {is js : List ι} : ∀ {s s' : σ}, runFrom step s is = some s' →
    runFrom step s (is ++ js) = runFrom step s' js := by
  induction is with
  | nil =>
      intro s s' h
      obtain rfl := Option.some.inj h
      rfl
  | cons i is ih =>
      intro s s' h
      obtain ⟨t, ht, hrest⟩ := runFrom_cons.mp h
      rw [List.cons_append, runFrom, ht, Option.bind_some, ih hrest]

theorem AllSteps.mono {C D : σ → ι → Prop} (hCD : ∀ s i, C s i → D s i) {is : List ι} :
    ∀ {s : σ}, AllSteps step C s is → AllSteps step D s is := by
  induction is with
  | nil => exact fun h => h
  | cons i is ih => exact fun h s' hstep => ⟨hCD _ _ (h s' hstep).1, ih (h s' hstep).2⟩

/-- **Exactness rule.** Where every step that meets `C` preserves `P` and every other one breaks it,
`P` holds all along a run exactly when its steps meet `C`. -/
theorem allStates_iff_allSteps {I P : σ → Prop} {C : σ → ι → Prop}
    (hgood : ∀ s i s', I s → P s → C s i → step s i = some s' → I s' ∧ P s')
    (hbad : ∀ s i s', I s → P s → ¬ C s i → step s i = some s' → ¬ P s') (is : List ι) :
    ∀ s : σ, I s → P s → (AllStates step P s is ↔ AllSteps step C s is) := by
  induction is with
  | nil => exact fun s _ hP => iff_of_true hP trivial
  | cons i is ih =>
      intro s hI hP
      cases hstep : step s i with
      | none =>
          refine iff_of_true ⟨hP, fun s' h => ?_⟩ fun s' h => ?_
          · rw [hstep] at h
            cases h
          · rw [hstep] at h
            cases h
      | some s' =>
          rw [allStates_cons_of_some hstep, allSteps_cons_of_some hstep]
          by_cases hC : C s i
          · obtain ⟨hI', hP'⟩ := hgood s i s' hI hP hC hstep
            have hrest := ih s' hI' hP'
            tauto
          · have hbroken := hbad s i s' hI hP hC hstep
            refine iff_of_false (fun hall => hbroken hall.2.first) fun hall => hC hall.1

/-! ## Calls

A condition on calls is asked of every call of a run, the last one included even when it does not
return. -/

/-- Every call of the run meets `B` in the state it is made in. -/
def AllCalls (step : σ → ι → Option σ) (B : σ → ι → Prop) : σ → List ι → Prop
  | _, [] => True
  | s, i :: is => B s i ∧ ∀ s', step s i = some s' → AllCalls step B s' is

theorem AllStates.mono {P Q : σ → Prop} (hPQ : ∀ s, P s → Q s) {is : List ι} :
    ∀ {s : σ}, AllStates step P s is → AllStates step Q s is := by
  induction is with
  | nil => exact fun h => hPQ _ h
  | cons i is ih => exact fun h => ⟨hPQ _ h.1, fun s' hstep => ih (h.2 s' hstep)⟩

/-- **Progress rule.** Where every call that meets `C` returns and keeps the invariant, a run whose calls
all meet `C` gets to its end, and the invariant holds all along. -/
theorem allStates_of_allCalls {I : σ → Prop} {C : σ → ι → Prop}
    (hstep : ∀ s i, I s → C s i → ∃ s', step s i = some s' ∧ I s') (is : List ι) :
    ∀ s : σ, I s → AllCalls step C s is →
      (∃ s', runFrom step s is = some s') ∧ AllStates step I s is := by
  induction is with
  | nil => exact fun s hI _ => ⟨⟨s, rfl⟩, hI⟩
  | cons i is ih =>
      rintro s hI ⟨hC, hrest⟩
      obtain ⟨s', hs', hI'⟩ := hstep s i hI hC
      obtain ⟨⟨s'', hrun⟩, hstates⟩ := ih s' hI' (hrest s' hs')
      exact ⟨⟨s'', runFrom_cons.mpr ⟨s', hs', hrun⟩⟩, (allStates_cons_of_some hs').mpr ⟨hI, hstates⟩⟩

theorem AllCalls.and {B C : σ → ι → Prop} {is : List ι} : ∀ {s : σ}, AllCalls step B s is →
    AllCalls step C s is → AllCalls step (fun s i => B s i ∧ C s i) s is := by
  induction is with
  | nil => exact fun _ _ => trivial
  | cons i is ih =>
      rintro s ⟨hB, hrestB⟩ ⟨hC, hrestC⟩
      exact ⟨⟨hB, hC⟩, fun s' h => ih (hrestB s' h) (hrestC s' h)⟩

/-- What every call that meets `C` meets where the invariant holds. -/
theorem AllCalls.of_invariant {I : σ → Prop} {B C : σ → ι → Prop} (hB : ∀ s i, I s → C s i → B s i)
    (hstep : ∀ s i s', I s → C s i → step s i = some s' → I s') (is : List ι) :
    ∀ s : σ, I s → AllCalls step C s is → AllCalls step B s is := by
  induction is with
  | nil => exact fun _ _ h => h
  | cons i is ih =>
      rintro s hI ⟨hC, hrest⟩
      exact ⟨hB s i hI hC, fun s' h => ih s' (hstep s i s' hI hC h) (hrest s' h)⟩

/-- **Exactness rule for calls.** Where a call meets `B` exactly when it meets `C`, and the
invariant survives the calls that do, every call of a run meets `B` exactly when every call
meets `C`. -/
theorem allCalls_iff {I : σ → Prop} {B C : σ → ι → Prop} (hiff : ∀ s i, I s → (B s i ↔ C s i))
    (hstep : ∀ s i s', I s → B s i → step s i = some s' → I s') (is : List ι) :
    ∀ s : σ, I s → (AllCalls step B s is ↔ AllCalls step C s is) := by
  induction is with
  | nil => exact fun _ _ => Iff.rfl
  | cons i is ih =>
      intro s hI
      unfold AllCalls
      rw [← hiff s i hI]
      constructor
      · rintro ⟨hB, hrest⟩
        exact ⟨hB, fun s' h => (ih s' (hstep s i s' hI hB h)).mp (hrest s' h)⟩
      · rintro ⟨hB, hrest⟩
        exact ⟨hB, fun s' h => (ih s' (hstep s i s' hI hB h)).mpr (hrest s' h)⟩

/-- Where a call that meets `D` returns, and meets `C` when `P` holds after it, a run of such calls all
along which `P` holds meets `C`. -/
theorem allCalls_of_allStates {I P : σ → Prop} {C D : σ → ι → Prop}
    (hstep : ∀ s i, I s → C s i → ∃ s', step s i = some s' ∧ I s')
    (hreturns : ∀ s i, I s → D s i → ∃ s', step s i = some s')
    (hmeets : ∀ s i s', I s → D s i → step s i = some s' → P s' → C s i) (is : List ι) :
    ∀ s : σ, I s → AllCalls step D s is → AllStates step P s is → AllCalls step C s is := by
  induction is with
  | nil => exact fun _ _ h _ => h
  | cons i is ih =>
      rintro s hI ⟨hD, hrest⟩ hP
      obtain ⟨s', hs'⟩ := hreturns s i hI hD
      have hP' := ((allStates_cons_of_some hs').mp hP).2
      have hC := hmeets s i s' hI hD hs' hP'.first
      obtain ⟨s'', hs'', hI'⟩ := hstep s i hI hC
      refine ⟨hC, fun t ht => ?_⟩
      obtain rfl := Option.some.inj (hs'.symm.trans ht)
      obtain rfl := Option.some.inj (hs'.symm.trans hs'')
      exact ih s' hI' (hrest s' hs') hP'

end Machine
