import Mathlib.Tactic

set_option autoImplicit false

/-! # A table after a list of writes

`overlay m ws` is the table `m` after the point writes `ws`, in order. What is found at an index is
the last value written there (`lastWrite`), so a property of all entries of the final table is a
property of the entries nothing was written to and of the last writes. -/

namespace Machine

variable {ι α : Type} [DecidableEq ι]

/-- The table after the writes, the first one first. -/
def overlay : (ι → α) → List (ι × α) → ι → α
  | m, [] => m
  | m, (i, a) :: ws => overlay (Function.update m i a) ws

/-- The last value written at an index. -/
def lastWrite (i : ι) : List (ι × α) → Option α
  | [] => none
  | (j, a) :: ws => (lastWrite i ws).or (if j = i then some a else none)

theorem overlay_append (m : ι → α) (xs ys : List (ι × α)) :
    overlay m (xs ++ ys) = overlay (overlay m xs) ys := by
  induction xs generalizing m with
  | nil => rfl
  | cons x xs ih =>
      rw [List.cons_append, overlay, overlay, ih]

theorem lastWrite_append (i : ι) (xs ys : List (ι × α)) :
    lastWrite i (xs ++ ys) = (lastWrite i ys).or (lastWrite i xs) := by
  induction xs with
  | nil =>
      rw [List.nil_append, lastWrite, Option.or_none]
  | cons x xs ih =>
      rw [List.cons_append, lastWrite, lastWrite, ih, Option.or_assoc]

theorem overlay_apply (m : ι → α) (ws : List (ι × α)) (i : ι) :
    overlay m ws i = (lastWrite i ws).getD (m i) := by
  induction ws generalizing m with
  | nil => rfl
  | cons w ws ih =>
      obtain ⟨j, a⟩ := w
      rw [overlay, ih, lastWrite]
      cases hlast : lastWrite i ws with
      | some b => simp
      | none =>
          by_cases hij : i = j
          · subst hij
            simp
          · simp [Function.update_of_ne hij, Ne.symm hij]

/-- Nothing is written at an index that is not among those of the writes. -/
theorem lastWrite_eq_none {i : ι} {ws : List (ι × α)} :
    lastWrite i ws = none ↔ ∀ w ∈ ws, w.1 ≠ i := by
  induction ws with
  | nil => simp [lastWrite]
  | cons w ws ih =>
      rw [lastWrite, Option.or_eq_none_iff, ih, List.forall_mem_cons, and_comm]
      simp

theorem mem_of_lastWrite {i : ι} {a : α} {ws : List (ι × α)} (h : lastWrite i ws = some a) :
    (i, a) ∈ ws := by
  induction ws with
  | nil => cases h
  | cons w ws ih =>
      obtain ⟨j, b⟩ := w
      rw [lastWrite] at h
      cases hlast : lastWrite i ws with
      | some c =>
          rw [hlast, Option.some_or] at h
          exact List.mem_cons_of_mem _ (ih (hlast.trans h))
      | none =>
          rw [hlast, Option.none_or] at h
          split at h
          · rename_i hji
            obtain rfl := Option.some.inj h
            rw [hji]
            exact List.mem_cons_self
          · cases h

/-- Where the values are a function of the index, order does not matter. -/
theorem lastWrite_of_mem {i : ι} {a : α} {ws : List (ι × α)} (h : (i, a) ∈ ws)
    (huniq : ∀ w ∈ ws, w.1 = i → w.2 = a) : lastWrite i ws = some a := by
  cases hlast : lastWrite i ws with
  | none => exact absurd rfl (lastWrite_eq_none.mp hlast _ h)
  | some b =>
      have hb : b = a := huniq _ (mem_of_lastWrite hlast) rfl
      rw [hb]

/-- In a sequence of lists of writes the last list that has one at the index decides. -/
theorem lastWrite_flatMap_range {i : ι} {a : α} (ws : Nat → List (ι × α)) : ∀ n : Nat,
    lastWrite i ((List.range n).flatMap ws) = some a ↔
      ∃ j < n, lastWrite i (ws j) = some a ∧ ∀ k, j < k → k < n → lastWrite i (ws k) = none := by
  intro n
  induction n with
  | zero =>
      refine iff_of_false (fun h => by cases h) ?_
      rintro ⟨j, hj, -⟩
      omega
  | succ n ih =>
      rw [List.range_succ, List.flatMap_append, List.flatMap_singleton, lastWrite_append]
      cases hlast : lastWrite i (ws n) with
      | some b =>
          rw [Option.some_or]
          constructor
          · intro h
            exact ⟨n, by omega, hlast.trans h, fun k h1 h2 => by omega⟩
          · rintro ⟨j, hj, hwrite, hafter⟩
            by_cases hjn : j = n
            · rw [← hwrite, hjn, hlast]
            · have hnone := hafter n (by omega) (by omega)
              rw [hlast] at hnone
              cases hnone
      | none =>
          rw [Option.none_or, ih]
          constructor
          · rintro ⟨j, hj, hwrite, hafter⟩
            refine ⟨j, by omega, hwrite, fun k h1 h2 => ?_⟩
            by_cases hkn : k = n
            · rw [hkn]
              exact hlast
            · exact hafter k h1 (by omega)
          · rintro ⟨j, hj, hwrite, hafter⟩
            have hjn : j ≠ n := by
              rintro rfl
              rw [hlast] at hwrite
              cases hwrite
            exact ⟨j, by omega, hwrite, fun k h1 h2 => hafter k h1 (by omega)⟩

end Machine
