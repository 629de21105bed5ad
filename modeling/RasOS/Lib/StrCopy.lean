import Mathlib.Tactic

set_option autoImplicit false

/-! # Copying a string byte by byte

Byte `i` goes from `src i` to `dest i`. The two may overlap: a byte is read when those before it have
been written. The copy ends behind the first zero, or when `n` bytes have been copied. -/

namespace Machine

/-! ## The end of a string -/

/-- The string with the bytes `r`, cut at `n` of them, has `k` bytes. -/
structure EndsAt (r : Nat → UInt8) (n k : Nat) : Prop where
  le : k ≤ n
  nonzero : ∀ i < k, r i ≠ 0
  zero : k < n → r k = 0

theorem EndsAt.unique {r : Nat → UInt8} {n k l : Nat} (h : EndsAt r n k) (h' : EndsAt r n l) : k = l := by
  rcases Nat.lt_trichotomy k l with hlt | heq | hlt
  · exact absurd (h.zero (hlt.trans_le h'.le)) (h'.nonzero k hlt)
  · exact heq
  · exact absurd (h'.zero (hlt.trans_le h.le)) (h.nonzero l hlt)

/-- The search for the end, from byte `i` on. -/
def strEnd (r : Nat → UInt8) : (remaining i : Nat) → Nat
  | 0, i => i
  | remaining + 1, i => if r i = 0 then i else strEnd r remaining (i + 1)

theorem strEnd_endsAt {r : Nat → UInt8} :
    ∀ (remaining i : Nat), (∀ j < i, r j ≠ 0) → EndsAt r (i + remaining) (strEnd r remaining i) := by
  intro remaining
  induction remaining with
  | zero => exact fun i h => ⟨Nat.le_refl i, h, fun hlt => absurd hlt (Nat.lt_irrefl i)⟩
  | succ remaining ih =>
      intro i h
      rw [strEnd]
      by_cases hzero : r i = 0
      · rw [if_pos hzero]
        exact ⟨Nat.le_add_right i _, h, fun _ => hzero⟩
      · rw [if_neg hzero, show i + (remaining + 1) = i + 1 + remaining by omega]
        refine ih (i + 1) fun j hj => ?_
        rcases Nat.lt_succ_iff_lt_or_eq.mp hj with hlt | rfl
        · exact h j hlt
        · exact hzero

theorem strEnd_spec (r : Nat → UInt8) (n : Nat) : EndsAt r n (strEnd r n 0) := by
  have h := @strEnd_endsAt r n 0 fun j hj => absurd hj (Nat.not_lt_zero j)
  rwa [Nat.zero_add] at h

/-- The string with the bytes `r`, cut at `n` of them. -/
def cString (r : Nat → UInt8) (n : Nat) : List UInt8 := (List.range (strEnd r n 0)).map r

theorem EndsAt.cString {r : Nat → UInt8} {n k : Nat} (h : EndsAt r n k) : cString r n = (List.range k).map r := by
  rw [Machine.cString, (strEnd_spec r n).unique h]

/-- Bytes that agree up to the end of one string make the same string. -/
theorem cString_congr {r r' : Nat → UInt8} {n : Nat} (h : ∀ i < n, (∀ j < i, r j ≠ 0) → r' i = r i) :
    cString r' n = cString r n := by
  have hend := strEnd_spec r n
  have hagree : ∀ i < strEnd r n 0, r' i = r i :=
    fun i hi => h i (hi.trans_le hend.le) fun j hj => hend.nonzero j (hj.trans hi)
  have hend' : EndsAt r' n (strEnd r n 0) := by
    refine ⟨hend.le, fun i hi => ?_, fun hlt => ?_⟩
    · rw [hagree i hi]
      exact hend.nonzero i hi
    · rw [h _ hlt hend.nonzero]
      exact hend.zero hlt
  rw [hend'.cString, hend.cString]
  exact List.map_congr_left fun i hi => hagree i (List.mem_range.mp hi)

/-- A string that ends at `i` is not one that goes on. -/
theorem cString_ne {r r' : Nat → UInt8} {n i : Nat} (hi : i < n) (h : ∀ j < i, r j ≠ 0) (hzero : r i = 0)
    (h' : ∀ j ≤ i, r' j ≠ 0) : cString r n ≠ cString r' n := by
  intro heq
  have hend : EndsAt r n i := ⟨hi.le, h, fun _ => hzero⟩
  have hend' := strEnd_spec r' n
  have hlen : i = strEnd r' n 0 := by
    have hlength := congrArg List.length heq
    rw [hend.cString, hend'.cString, List.length_map, List.length_map, List.length_range, List.length_range] at hlength
    exact hlength
  rw [← hlen] at hend'
  exact h' i (Nat.le_refl i) (hend'.zero hi)

/-! ## Strings in memory -/

variable {A : Type}

/-- The string with the bytes `u`, cut at `n` of them, is at `dest`, with its terminator. -/
def HoldsString (mem : A → UInt8) (dest : Nat → A) (u : Nat → UInt8) (n : Nat) : Prop :=
  ∃ k, EndsAt u n k ∧ (∀ i < k, mem (dest i) = u i) ∧ mem (dest k) = 0

/-- The same memory holds two strings when they agree as far as the second one goes. -/
theorem HoldsString.iff {mem : A → UInt8} {dest : Nat → A} {r u : Nat → UInt8} {n : Nat}
    (h : HoldsString mem dest r n) :
    HoldsString mem dest u n ↔ ∀ i < n, (∀ j < i, u j ≠ 0) → r i = u i := by
  obtain ⟨k, hend, hbytes, hzero⟩ := h
  constructor
  · rintro ⟨l, hend', hbytes', hzero'⟩ i hi hnonzero
    obtain rfl : k = l := by
      rcases Nat.lt_trichotomy k l with hlt | heq | hlt
      · exact absurd ((hbytes' k hlt).symm.trans hzero) (hend'.nonzero k hlt)
      · exact heq
      · exact absurd ((hbytes l hlt).symm.trans hzero') (hend.nonzero l hlt)
    rcases Nat.lt_trichotomy i k with hlt | rfl | hlt
    · exact (hbytes i hlt).symm.trans (hbytes' i hlt)
    · rw [hend.zero hi, hend'.zero hi]
    · exact absurd (hend'.zero (hlt.trans hi)) (hnonzero k hlt)
  · intro hagree
    -- as long as the bytes of `u` are not zero, they are those of `r`
    have hsame : ∀ i < k, ∀ j ≤ i, u j = r j ∧ u j ≠ 0 := by
      intro i hi
      induction i with
      | zero =>
          intro j hj
          obtain rfl : j = 0 := Nat.le_zero.mp hj
          have heq := hagree 0 (hi.trans_le hend.le) fun j hj => absurd hj (Nat.not_lt_zero j)
          exact ⟨heq.symm, heq ▸ hend.nonzero 0 hi⟩
      | succ i ih =>
          intro j hj
          have hbefore := ih (by omega)
          rcases Nat.le_succ_iff.mp hj with hle | rfl
          · exact hbefore j hle
          · have heq := hagree (i + 1) (hi.trans_le hend.le) fun j hj => (hbefore j (by omega)).2
            exact ⟨heq.symm, heq ▸ hend.nonzero (i + 1) hi⟩
    refine ⟨k, ⟨hend.le, fun i hi => (hsame i hi i (Nat.le_refl i)).2, fun hlt => ?_⟩, fun i hi => ?_, hzero⟩
    · rw [← hagree k hlt fun j hj => (hsame j hj j (Nat.le_refl j)).2]
      exact hend.zero hlt
    · rw [(hsame i hi i (Nat.le_refl i)).1]
      exact hbytes i hi

/-- The bytes that are there are such a string. -/
theorem HoldsString.bytes {mem : A → UInt8} {dest : Nat → A} {r : Nat → UInt8} {n : Nat}
    (h : HoldsString mem dest r n) : HoldsString mem dest (fun i => mem (dest i)) n := by
  obtain ⟨k, hend, hbytes, hzero⟩ := h
  refine ⟨k, ⟨hend.le, fun i hi => ?_, fun _ => hzero⟩, fun _ _ => rfl, hzero⟩
  rw [hbytes i hi]
  exact hend.nonzero i hi

/-! ## The copy -/

variable [DecidableEq A]

/-- The memory after `n` bytes have been copied. -/
def copied (mem : A → UInt8) (dest src : Nat → A) : (n : Nat) → A → UInt8
  | 0 => mem
  | n + 1 => Function.update (copied mem dest src n) (dest n) (copied mem dest src n (src n))

/-- The byte that step `i` copies. -/
def copiedByte (mem : A → UInt8) (dest src : Nat → A) (i : Nat) : UInt8 := copied mem dest src i (src i)

theorem copied_other {mem : A → UInt8} {dest src : Nat → A} {a : A} :
    ∀ {n : Nat}, (∀ i < n, a ≠ dest i) → copied mem dest src n a = mem a := by
  intro n
  induction n with
  | zero => exact fun _ => rfl
  | succ n ih =>
      intro h
      rw [copied, Function.update_of_ne (h n (Nat.lt_succ_self n))]
      exact ih fun i hi => h i (Nat.lt_succ_of_lt hi)

theorem copied_dest {mem : A → UInt8} {dest src : Nat → A} {i : Nat} :
    ∀ {n : Nat}, (∀ j < n, i ≠ j → dest i ≠ dest j) → i < n →
      copied mem dest src n (dest i) = copiedByte mem dest src i := by
  intro n
  induction n with
  | zero => exact fun _ hi => absurd hi (Nat.not_lt_zero i)
  | succ n ih =>
      intro hinj hi
      rw [copied]
      by_cases hin : i = n
      · rw [hin, Function.update_self, copiedByte]
      · rw [Function.update_of_ne (hinj n (Nat.lt_succ_self n) hin)]
        exact ih (fun j hj => hinj j (Nat.lt_succ_of_lt hj)) (by omega)

/-- The memory after a string of at most `n` bytes has been copied. -/
def strCopied (mem : A → UInt8) (dest src : Nat → A) (n : Nat) : A → UInt8 :=
  let k := strEnd (copiedByte mem dest src) n 0
  Function.update (copied mem dest src k) (dest k) 0

theorem strCopied_other {mem : A → UInt8} {dest src : Nat → A} {n : Nat} {a : A}
    (h : ∀ i ≤ n, a ≠ dest i) : strCopied mem dest src n a = mem a := by
  have hend := strEnd_spec (copiedByte mem dest src) n
  rw [strCopied, Function.update_of_ne (h _ hend.le)]
  exact copied_other fun i hi => h i (hi.le.trans hend.le)

/-- The destination holds the bytes as they were read. -/
theorem strCopied_holds {mem : A → UInt8} {dest src : Nat → A} {n : Nat}
    (hinj : ∀ i j, i ≤ n → j ≤ n → i ≠ j → dest i ≠ dest j) :
    HoldsString (strCopied mem dest src n) dest (copiedByte mem dest src) n := by
  have hend := strEnd_spec (copiedByte mem dest src) n
  refine ⟨_, hend, fun i hi => ?_, Function.update_self ..⟩
  have hin : i ≤ n := hi.le.trans hend.le
  rw [strCopied, Function.update_of_ne (hinj i _ hin hend.le (Nat.ne_of_lt hi))]
  exact copied_dest (fun j hj hij => hinj i j hin (hj.le.trans hend.le) hij) hi

/-- A string that is not where it is copied to arrives as it is. -/
theorem strCopied_apart {mem : A → UInt8} {dest src : Nat → A} {r u : Nat → UInt8} {n : Nat}
    (h : HoldsString mem src r n) (hinj : ∀ i j, i ≤ n → j ≤ n → i ≠ j → dest i ≠ dest j)
    (hapart : ∀ i j, i ≤ n → j ≤ n → src i ≠ dest j) :
    HoldsString (strCopied mem dest src n) dest u n ↔ HoldsString mem src u n := by
  rw [(strCopied_holds hinj).iff, h.bytes.iff]
  refine forall_congr' fun i => forall_congr' fun hi => ?_
  have hbyte : copiedByte mem dest src i = mem (src i) :=
    copied_other fun j hj => hapart i j (by omega) (by omega)
  rw [hbyte]

end Machine
