import Mathlib.Tactic

set_option autoImplicit false

/-! # The lowest and the highest item of a list

A loop that looks for the item with the lowest or the highest key keeps the best item seen so far. Before the
first item it holds one whose key is `⊥`, and it takes that key for "no item yet". For the highest item this is
harmless. A lowest item with key `⊥` is given up again for whatever follows it. -/

namespace Machine

variable {α κ : Type} [LinearOrder κ] [OrderBot κ]

/-- One step of the search for the lowest item. -/
def keepLow (key : α → κ) (cur new : α) : α :=
  if key new ≤ key cur ∨ key cur = ⊥ then new else cur

/-- One step of the search for the highest item. -/
def keepHigh (key : α → κ) (cur new : α) : α :=
  if key cur ≤ key new ∨ key cur = ⊥ then new else cur

variable (key : α → κ) {start : α} {l : List α}

/-! ## What is found is an item -/

/-- A loop that takes the first item and after that keeps what it has or takes the next one. -/
theorem foldl_mem_of_choice {f : α → α → α} (hfirst : ∀ a, f start a = a)
    (hchoice : ∀ cur a, f cur a = a ∨ f cur a = cur) (hl : l ≠ []) : l.foldl f start ∈ l := by
  have hrest : ∀ (l : List α) (cur : α), l.foldl f cur ∈ cur :: l := by
    intro l
    induction l with
    | nil => simp
    | cons a l ih =>
        intro cur
        rw [List.foldl_cons]
        rcases hchoice cur a with h | h
        · rw [h]
          exact List.mem_cons_of_mem _ (ih a)
        · rw [h]
          rcases List.mem_cons.mp (ih cur) with hcur | hmem
          · simp [hcur]
          · simp [hmem]
  cases l with
  | nil => exact absurd rfl hl
  | cons a l =>
      rw [List.foldl_cons, hfirst]
      exact hrest l a

theorem foldl_keepLow_mem (hstart : key start = ⊥) (hl : l ≠ []) : l.foldl (keepLow key) start ∈ l := by
  apply foldl_mem_of_choice _ _ hl
  · intro a
    rw [keepLow, if_pos (Or.inr hstart)]
  · intro cur a
    exact ite_eq_or_eq _ _ _

theorem foldl_keepHigh_mem (hstart : key start = ⊥) (hl : l ≠ []) : l.foldl (keepHigh key) start ∈ l := by
  apply foldl_mem_of_choice _ _ hl
  · intro a
    rw [keepHigh, if_pos (Or.inr hstart)]
  · intro cur a
    exact ite_eq_or_eq _ _ _

/-! ## The highest item -/

theorem key_keepHigh (cur new : α) : key (keepHigh key cur new) = max (key cur) (key new) := by
  unfold keepHigh
  split
  · rename_i h
    have hle : key cur ≤ key new := by
      rcases h with h | h
      · exact h
      · simp [h]
    exact (max_eq_right hle).symm
  · rename_i h
    exact (max_eq_left (le_of_not_ge fun hle => h (Or.inl hle))).symm

/-- **The highest item is found.** -/
theorem le_key_foldl_keepHigh : ∀ a ∈ l, key a ≤ key (l.foldl (keepHigh key) start) := by
  induction l using List.reverseRecOn with
  | nil => simp
  | append_singleton l b ih =>
      intro a ha
      rw [List.foldl_concat, key_keepHigh key]
      rcases List.mem_append.mp ha with ha | ha
      · exact (ih a ha).trans (le_max_left _ _)
      · rw [List.mem_singleton.mp ha]
        exact le_max_right _ _

/-! ## The lowest item -/

/-- What is kept has key `⊥` exactly when the last item has. -/
theorem key_keepLow_eq_bot (cur new : α) : key (keepLow key cur new) = ⊥ ↔ key new = ⊥ := by
  unfold keepLow
  split
  · rfl
  · rename_i h
    refine iff_of_false (fun hcur => h (Or.inr hcur)) fun hnew => h (Or.inl ?_)
    simp [hnew]

/-- Without `⊥` the lowest item is found. -/
theorem key_foldl_keepLow_le (hpos : ∀ a ∈ l, key a ≠ ⊥) (hstart : key start = ⊥) :
    ∀ a ∈ l, key (l.foldl (keepLow key) start) ≤ key a := by
  induction l using List.reverseRecOn with
  | nil => simp
  | append_singleton l b ih =>
      have hl : ∀ a ∈ l, key a ≠ ⊥ := fun a ha => hpos a (List.mem_append_left _ ha)
      have hlow := ih hl
      intro a ha
      rw [List.foldl_concat]
      unfold keepLow
      split
      · rename_i h
        rcases List.mem_append.mp ha with ha | ha
        · -- the item kept so far is one of `l`, so its key is not `⊥`
          have hmem := foldl_keepLow_mem key hstart (List.ne_nil_of_mem ha)
          calc key b
              ≤ key (l.foldl (keepLow key) start) := h.resolve_right (hl _ hmem)
            _ ≤ key a := hlow a ha
        · simp [List.mem_singleton.mp ha]
      · rename_i h
        rcases List.mem_append.mp ha with ha | ha
        · exact hlow a ha
        · rw [List.mem_singleton.mp ha]
          exact le_of_not_ge fun hle => h (Or.inl hle)

/-- **When the lowest item is found**: the last item has key `⊥` if any has. -/
theorem key_foldl_keepLow_le_iff (hstart : key start = ⊥) :
    (∀ a ∈ l, key (l.foldl (keepLow key) start) ≤ key a) ↔
      ((∃ a ∈ l, key a = ⊥) → ∃ a, l.getLast? = some a ∧ key a = ⊥) := by
  constructor
  · rintro hlow ⟨a, ha, hbot⟩
    induction l using List.reverseRecOn with
    | nil => simp at ha
    | append_singleton l b _ =>
        have hle := hlow a ha
        rw [hbot, le_bot_iff, List.foldl_concat, key_keepLow_eq_bot key] at hle
        exact ⟨b, by simp, hle⟩
  · intro hlast
    by_cases hbot : ∃ a ∈ l, key a = ⊥
    · obtain ⟨b, hb, hkey⟩ := hlast hbot
      obtain ⟨l', rfl⟩ := List.getLast?_eq_some_iff.mp hb
      intro a ha
      rw [List.foldl_concat, (key_keepLow_eq_bot key _ b).mpr hkey]
      exact bot_le
    · exact key_foldl_keepLow_le key (fun a ha hkey => hbot ⟨a, ha, hkey⟩) hstart

end Machine
