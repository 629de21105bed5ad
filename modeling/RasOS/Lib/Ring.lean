import Mathlib.Tactic

set_option autoImplicit false

/-! # Ring buffers without a count

A ring of `n` cells holds a queue from its head on; every other cell holds the value `z`, which
stands for "nothing here". How many cells are in use is not stored anywhere. -/

namespace Machine

variable {α : Type} {n : Nat} {z : α}

/-- The cells from `head` on, cyclically, are the queue `q` and then `z`. -/
structure Holds (n : Nat) (z : α) (cell : Nat → α) (head : Nat) (q : List α) : Prop where
  head_lt : head < n
  fits : q.length ≤ n
  read : ∀ i, i < n → cell ((head + i) % n) = (q[i]?).getD z

/-- Offsets below `n` name different cells. -/
theorem ring_offset_inj {head i j : Nat} (hi : i < n) (hj : j < n)
    (h : (head + i) % n = (head + j) % n) : i = j := by
  have hmod : i ≡ j [MOD n] := Nat.ModEq.add_left_cancel' head h
  rw [Nat.ModEq, Nat.mod_eq_of_lt hi, Nat.mod_eq_of_lt hj] at hmod
  exact hmod

/-- Every cell lies at some offset from the head. -/
theorem ring_offset_surj {head j : Nat} (hhead : head < n) (hj : j < n) :
    ∃ i, i < n ∧ (head + i) % n = j := by
  by_cases h : head ≤ j
  · exact ⟨j - head, by omega, by rw [show head + (j - head) = j by omega, Nat.mod_eq_of_lt hj]⟩
  · refine ⟨n - head + j, by omega, ?_⟩
    rw [show head + (n - head + j) = j + n by omega, Nat.add_mod_right, Nat.mod_eq_of_lt hj]

/-- Less than a whole round from the head is not the head. -/
theorem ring_offset_ne {head i : Nat} (hhead : head < n) (hi : i + 1 < n) :
    (head + (i + 1)) % n ≠ head := by
  intro heq
  have hback : (head + (i + 1)) % n = (head + 0) % n := by
    rw [heq, Nat.add_zero, Nat.mod_eq_of_lt hhead]
  have hzero : i + 1 = 0 := ring_offset_inj hi (by omega) hback
  omega

theorem ring_succ {i : Nat} (hi : i < n) : (if i + 1 ≥ n then 0 else i + 1) = (i + 1) % n := by
  split
  · rw [show i + 1 = n by omega, Nat.mod_self]
  · rw [Nat.mod_eq_of_lt (by omega)]

theorem Holds.cell_head {cell : Nat → α} {head : Nat} {q : List α} (h : Holds n z cell head q) :
    cell head = q.headD z := by
  have h0 := h.read 0 (Nat.lt_of_le_of_lt (Nat.zero_le _) h.head_lt)
  rw [Nat.add_zero, Nat.mod_eq_of_lt h.head_lt] at h0
  rw [h0]
  cases q <;> rfl

/-- Appending writes the first cell behind the queue. -/
theorem Holds.push {cell : Nat → α} {head : Nat} {q : List α} (h : Holds n z cell head q) (c : α)
    (hq : q.length < n) :
    Holds n z (Function.update cell ((head + q.length) % n) c) head (q ++ [c]) := by
  refine ⟨h.head_lt, by simpa using hq, fun i hi => ?_⟩
  by_cases hiq : i = q.length
  · subst hiq
    rw [Function.update_self, List.getElem?_concat_length, Option.getD_some]
  · rw [Function.update_of_ne (fun heq => hiq (ring_offset_inj hi hq heq)), h.read i hi]
    rcases Nat.lt_or_gt_of_ne hiq with hlt | hgt
    · rw [List.getElem?_append_left hlt]
    · rw [List.getElem?_eq_none (by omega), List.getElem?_eq_none (by simp; omega)]

/-- Removing the first element clears the head cell and moves the head on. -/
theorem Holds.pop {cell : Nat → α} {head : Nat} {x : α} {q : List α}
    (h : Holds n z cell head (x :: q)) :
    Holds n z (Function.update cell head z) ((head + 1) % n) q := by
  have hpos := h.head_lt
  have hfits := h.fits
  rw [List.length_cons] at hfits
  refine ⟨Nat.mod_lt _ (by omega), by omega, fun i hi => ?_⟩
  rw [Nat.mod_add_mod, show head + 1 + i = head + (i + 1) by omega]
  by_cases hlast : i + 1 = n
  · -- the offset `n - 1` behind the new head is the cell just cleared
    rw [hlast, Nat.add_mod_right, Nat.mod_eq_of_lt h.head_lt, Function.update_self,
      List.getElem?_eq_none (by omega), Option.getD_none]
  · have hne : (head + (i + 1)) % n ≠ head := ring_offset_ne h.head_lt (by omega)
    rw [Function.update_of_ne hne, h.read (i + 1) (by omega), List.getElem?_cons_succ]

/-- An empty ring has no cell in use, so its head may stand anywhere. -/
theorem Holds.empty_move {cell : Nat → α} {head head' : Nat} (h : Holds n z cell head [])
    (hhead : head' < n) : Holds n z cell head' [] := by
  refine ⟨hhead, Nat.zero_le _, fun i hi => ?_⟩
  obtain ⟨j, hj, hji⟩ := ring_offset_surj h.head_lt (Nat.mod_lt (head' + i) (by omega : n > 0))
  rw [← hji, h.read j hj]
  rfl

/-! ## Going round -/

/-- `count` cells from `head` on, cyclically. -/
def around (n : Nat) (cell : Nat → α) (head count : Nat) : List α :=
  (List.range count).map fun i => cell ((head + i) % n)

theorem around_getElem? (cell : Nat → α) (head : Nat) {count i : Nat} (hi : i < count) :
    (around n cell head count)[i]? = some (cell ((head + i) % n)) := by
  rw [around, List.getElem?_map, List.getElem?_range hi]
  rfl

theorem around_succ (cell : Nat → α) (head count : Nat) :
    around n cell head (count + 1) = cell (head % n) :: around n cell ((head + 1) % n) count := by
  rw [around, List.range_succ_eq_map, List.map_cons, List.map_map, Nat.add_zero, around]
  refine congrArg (cell (head % n) :: ·) (List.map_congr_left fun i _ => ?_)
  show cell ((head + (i + 1)) % n) = _
  rw [Nat.mod_add_mod, Nat.add_right_comm, Nat.add_assoc]

/-- The cell behind the head is not met again before the whole ring has been gone round. -/
theorem around_update {cell : Nat → α} {head count : Nat} (hhead : head < n) (hcount : count < n)
    (x : α) : around n (Function.update cell head x) ((head + 1) % n) count =
      around n cell ((head + 1) % n) count := by
  refine List.map_congr_left fun i hi => Function.update_of_ne ?_ ..
  rw [List.mem_range] at hi
  rw [Nat.mod_add_mod, show head + 1 + i = head + (i + 1) by omega]
  exact ring_offset_ne hhead (by omega)

/-- Going round the whole ring meets every cell once. -/
theorem around_perm {cell : Nat → α} {head : Nat} (hhead : head < n) :
    (around n cell head n).Perm ((List.range n).map cell) := by
  have hround : ((List.range n).map fun i => (head + i) % n).Perm (List.range n) := by
    rw [List.perm_ext_iff_of_nodup ?_ List.nodup_range]
    · intro j
      rw [List.mem_map, List.mem_range]
      constructor
      · rintro ⟨i, -, rfl⟩
        exact Nat.mod_lt _ (by omega)
      · intro hj
        obtain ⟨i, hi, hij⟩ := ring_offset_surj hhead hj
        exact ⟨i, List.mem_range.mpr hi, hij⟩
    · refine List.Nodup.map_on (fun i hi j hj heq => ?_) List.nodup_range
      exact ring_offset_inj (List.mem_range.mp hi) (List.mem_range.mp hj) heq
  have hmap := hround.map cell
  rw [List.map_map] at hmap
  exact hmap

end Machine
