import Mathlib.Data.List.TakeWhile
import RasOS.Fs.Fat16

set_option autoImplicit false

/-! # The name of a directory entry

An entry has eight bytes for a name and three for an extension, padded with spaces. The copying loop
stops at a space or NUL only, so a field without padding runs on into what lies behind it. -/

namespace RasOS

/-- The bytes of a padded field. -/
def unpadded (field : List UInt8) : List UInt8 := field.takeWhile fun c => c ≠ 0x00 ∧ c ≠ 0x20

/-- The 8.3 name of a slot. -/
def shortName (slot : List UInt8) : List UInt8 :=
  let ext := unpadded ((slot.drop 8).take 3)
  if ext = [] then unpadded (slot.take 8) else unpadded (slot.take 8) ++ 0x2E :: ext

/-! ## Fields and their padding -/

/-- The field has padding: a space or a NUL. -/
def Padded (field : List UInt8) : Prop := ∃ c ∈ field, c = 0x00 ∨ c = 0x20

instance (field : List UInt8) : Decidable (Padded field) := inferInstanceAs (Decidable (∃ _ ∈ _, _))

/-- What lies behind a padded field does not matter. -/
theorem unpadded_append_of_padded {field : List UInt8} (h : Padded field) (rest : List UInt8) :
    unpadded (field ++ rest) = unpadded field := by
  obtain ⟨c, hc, hpad⟩ := h
  induction field with
  | nil => exact absurd hc List.not_mem_nil
  | cons d field ih =>
      rw [unpadded, unpadded, List.cons_append, List.takeWhile_cons, List.takeWhile_cons]
      split
      · rename_i hd
        have hne : c ≠ d := by
          rintro rfl
          simp at hd
          tauto
        rw [← unpadded, ih ((List.mem_cons.mp hc).resolve_left hne), unpadded]
      · rfl

/-- A field without padding runs on. -/
theorem unpadded_append_of_full {field : List UInt8} (h : ¬ Padded field) (rest : List UInt8) :
    unpadded (field ++ rest) = field ++ unpadded rest := by
  refine List.takeWhile_append_of_pos fun c hc => decide_eq_true ?_
  exact not_or.mp fun hpad => h ⟨c, hc, hpad⟩

theorem unpadded_of_full {field : List UInt8} (h : ¬ Padded field) : unpadded field = field := by
  have happend := unpadded_append_of_full h []
  rwa [List.append_nil, show unpadded [] = [] from rfl, List.append_nil] at happend

theorem unpadded_length_le (field : List UInt8) : (unpadded field).length ≤ field.length :=
  (List.takeWhile_sublist _).length_le

theorem unpadded_cons_eq_nil {c : UInt8} {field : List UInt8} :
    unpadded (c :: field) = [] ↔ c = 0x00 ∨ c = 0x20 := by
  rw [unpadded, List.takeWhile_cons]
  by_cases hc : c = 0x00 ∨ c = 0x20
  · rw [if_neg (by simpa [← not_or] using hc)]
    exact iff_of_true rfl hc
  · rw [if_pos (by simpa [← not_or] using hc)]
    exact iff_of_false (List.cons_ne_nil _ _) hc

/-! ## The copying loop -/

/-- What the loop copies when it comes to an end. -/
theorem removePaddedSpaces_eq_some {max_len : Nat} {inp : List UInt8} :
    ∀ {out r : List UInt8}, removePaddedSpaces max_len out inp = some r → r = out ++ unpadded inp := by
  induction inp with
  | nil => exact fun h => by cases h
  | cons c rest ih =>
      intro out r h
      rw [removePaddedSpaces] at h
      rw [unpadded, List.takeWhile_cons]
      split at h
      · rename_i hc
        rw [if_pos (decide_eq_true hc)]
        split at h
        · have hrest := ih h
          rw [hrest, List.append_assoc]
          rfl
        · cases h
      · rename_i hc
        rw [if_neg (by simpa using hc), List.append_nil]
        split at h
        · cases h
        · exact (Option.some.inj h).symm

/-- It comes to an end at the padding, when the buffer is long enough. -/
theorem removePaddedSpaces_of_padded {max_len : Nat} {inp : List UInt8} :
    ∀ out : List UInt8, Padded inp → out.length + (unpadded inp).length < max_len →
      removePaddedSpaces max_len out inp = some (out ++ unpadded inp) := by
  induction inp with
  | nil => exact fun _ ⟨_, hc, _⟩ => absurd hc List.not_mem_nil
  | cons c rest ih =>
      intro out hpad hlen
      rw [removePaddedSpaces]
      rw [unpadded, List.takeWhile_cons] at hlen ⊢
      by_cases hc : c ≠ 0x00 ∧ c ≠ 0x20
      · rw [if_pos (decide_eq_true hc), ← unpadded, List.length_cons] at hlen
        have hrest : Padded rest := by
          obtain ⟨d, hd, hd'⟩ := hpad
          rcases List.mem_cons.mp hd with rfl | hd
          · exact absurd hd' (not_or.mpr hc)
          · exact ⟨d, hd, hd'⟩
        rw [if_pos hc, if_pos (decide_eq_true hc), if_pos (by omega),
          ih _ hrest (by rw [List.length_append, List.length_singleton]; omega), List.append_assoc]
        rfl
      · rw [if_neg (by simpa using hc), List.length_nil] at hlen
        have hroom : ¬ (c = 0x20 ∧ ¬ out.length < max_len) := fun h => h.2 (by omega)
        have hc' : ¬ decide (c ≠ 0x00 ∧ c ≠ 0x20) = true := by simpa using hc
        rw [if_neg hc, if_neg hroom, if_neg hc', List.append_nil]

theorem Padded.append_right {l : List UInt8} (h : Padded l) (l' : List UInt8) : Padded (l ++ l') := by
  obtain ⟨c, hc, hpad⟩ := h
  exact ⟨c, List.mem_append_left _ hc, hpad⟩

/-- What follows a field does not shorten it. -/
theorem unpadded_length_le_append (l l' : List UInt8) :
    (unpadded l).length ≤ (unpadded (l ++ l')).length := by
  by_cases hpad : Padded l
  · rw [unpadded_append_of_padded hpad]
  · rw [unpadded_append_of_full hpad, unpadded_of_full hpad, List.length_append]
    omega

/-- What follows a field is left out when the field or the byte behind it ends the loop. -/
theorem unpadded_append_eq_iff (l : List UInt8) (c : UInt8) (rest : List UInt8) :
    unpadded (l ++ c :: rest) = unpadded l ↔ Padded l ∨ c = 0x00 ∨ c = 0x20 := by
  by_cases hpad : Padded l
  · exact iff_of_true (unpadded_append_of_padded hpad _) (Or.inl hpad)
  · rw [unpadded_append_of_full hpad, unpadded_of_full hpad, List.append_right_eq_self,
      unpadded_cons_eq_nil]
    exact (or_iff_right hpad).symm

/-! ## The name put together -/

/-- The loops stop inside the fields: there is no extension, or the name has padding, and so has the
extension or else the attribute behind it ends the loop. -/
def FieldsEnd (filename ext : List UInt8) (attr : UInt8) : Prop :=
  byteAt ext 0 = 0x00 ∨ byteAt ext 0 = 0x20 ∨
    Padded filename ∧ (Padded ext ∨ attr = 0x00 ∨ attr = 0x20)

instance (filename ext : List UInt8) (attr : UInt8) : Decidable (FieldsEnd filename ext attr) :=
  inferInstanceAs (Decidable (_ ∨ _ ∨ _))

/-- **When the name is the 8.3 name.** For every name, extension, attribute and everything that lies
behind the attribute in memory. -/
theorem combineFilenameAndExt_iff {filename ext : List UInt8} (hname : filename.length = 8)
    (hext : ext.length = 3) (attr : UInt8) (rest : List UInt8) :
    combineFilenameAndExt (filename ++ ext ++ attr :: rest) RASOS_PATH_MAX_LEN
        = some (shortName (filename ++ ext ++ attr :: rest)) ↔
      FieldsEnd filename ext attr := by
  obtain ⟨c, ext', rfl⟩ := List.exists_cons_of_length_pos (l := ext) (by omega)
  have hdrop : (filename ++ c :: ext' ++ attr :: rest).drop 8 = c :: ext' ++ attr :: rest := by
    rw [List.append_assoc, List.drop_left' hname]
  have hfirst : byteAt (filename ++ c :: ext' ++ attr :: rest) 8 = c := by
    have hget : ((filename ++ c :: ext' ++ attr :: rest).drop 8)[0]?
        = (filename ++ c :: ext' ++ attr :: rest)[8 + 0]? := List.getElem?_drop
    rw [hdrop] at hget
    rw [byteAt, List.getD_eq_getElem?_getD, ← hget]
    rfl
  have hshort : shortName (filename ++ c :: ext' ++ attr :: rest)
      = if unpadded (c :: ext') = [] then unpadded filename
        else unpadded filename ++ 0x2E :: unpadded (c :: ext') := by
    rw [shortName, hdrop, List.take_left' hext, List.append_assoc, List.take_left' hname]
  have hlen := unpadded_length_le filename
  have hlen' := unpadded_length_le (c :: ext')
  rw [hshort]
  unfold combineFilenameAndExt FieldsEnd
  rw [hfirst, show byteAt (c :: ext') 0 = c from rfl, hdrop]
  by_cases hc : c = 0x00 ∨ c = 0x20
  · -- no extension: the name stops at its first byte at the latest
    have hpad : Padded (filename ++ c :: ext') := ⟨c, by simp, hc⟩
    have hstop : unpadded (filename ++ c :: ext' ++ attr :: rest) = unpadded filename := by
      rw [unpadded_append_of_padded hpad]
      by_cases hfull : Padded filename
      · exact unpadded_append_of_padded hfull _
      · rw [unpadded_append_of_full hfull, unpadded_cons_eq_nil.mpr hc, List.append_nil,
          unpadded_of_full hfull]
    have hpad' : Padded (filename ++ c :: ext' ++ attr :: rest) := hpad.append_right _
    have hroom : ([] : List UInt8).length + (unpadded filename).length < RASOS_PATH_MAX_LEN := by
      rw [List.length_nil, RASOS_PATH_MAX_LEN]
      omega
    have hcopy := removePaddedSpaces_of_padded [] hpad' (hstop ▸ hroom)
    refine iff_of_true ?_ (or_assoc.mp (Or.inl hc))
    rw [hcopy, hstop, if_pos (unpadded_cons_eq_nil.mpr hc)]
    exact if_neg (not_and_or.mpr (hc.imp not_not.mpr not_not.mpr))
  · have hne : c ≠ 0x00 ∧ c ≠ 0x20 := not_or.mp hc
    have hrun : unpadded (c :: ext') ≠ [] := fun h => hc (unpadded_cons_eq_nil.mp h)
    rw [if_neg hrun, ← or_assoc, or_iff_right hc]
    constructor
    · intro h
      obtain ⟨out, hout, h⟩ := Option.bind_eq_some_iff.mp h
      rw [if_pos hne] at h
      split at h
      · have hres := removePaddedSpaces_eq_some h
        rw [removePaddedSpaces_eq_some hout, List.nil_append, List.append_assoc _ [_],
          List.singleton_append] at hres
        by_cases hfull : Padded filename
        · rw [List.append_assoc, unpadded_append_of_padded hfull,
            List.append_cancel_left_eq] at hres
          exact ⟨hfull, (unpadded_append_eq_iff _ _ _).mp (List.cons_injective hres).symm⟩
        · -- the name has run on into the extension, so the result is too long
          have hlonger := unpadded_length_le_append (c :: ext') (attr :: rest)
          have hpos := List.length_pos_of_ne_nil hrun
          have hlengths := congrArg List.length hres
          rw [List.append_assoc filename, unpadded_append_of_full hfull, unpadded_of_full hfull] at hlengths
          simp only [List.length_append, List.length_cons] at hlengths hlonger
          omega
      · cases h
    · rintro ⟨hfull, hends⟩
      have hsame := (unpadded_append_eq_iff (c :: ext') _ rest).mpr hends
      have hstop : unpadded (filename ++ c :: ext' ++ attr :: rest) = unpadded filename := by
        rw [List.append_assoc, unpadded_append_of_padded hfull]
      have hpad : Padded (filename ++ c :: ext' ++ attr :: rest) :=
        (hfull.append_right _).append_right _
      have hpad' : Padded (c :: ext' ++ attr :: rest) := by
        rcases hends with hfield | hattr
        · exact hfield.append_right _
        · exact ⟨attr, List.mem_append_right _ List.mem_cons_self, hattr⟩
      have hroom : ([] : List UInt8).length + (unpadded filename).length < RASOS_PATH_MAX_LEN := by
        rw [List.length_nil, RASOS_PATH_MAX_LEN]
        omega
      have hroom' : (unpadded filename ++ [0x2E]).length + (unpadded (c :: ext')).length
          < RASOS_PATH_MAX_LEN := by
        rw [List.length_append, List.length_singleton, RASOS_PATH_MAX_LEN]
        omega
      have hcopy := removePaddedSpaces_of_padded [] hpad (hstop ▸ hroom)
      have hcopy' := removePaddedSpaces_of_padded (unpadded filename ++ [0x2E]) hpad' (hsame ▸ hroom')
      rw [hstop] at hcopy
      rw [hsame, List.append_assoc] at hcopy'
      rw [hcopy]
      refine (if_pos hne).trans ((if_pos ?_).trans hcopy')
      rw [List.nil_append, RASOS_PATH_MAX_LEN]
      omega

/-- A short name: `READ    ME `. -/
theorem combineFilenameAndExt_short :
    combineFilenameAndExt ([0x52, 0x45, 0x41, 0x44, 0x20, 0x20, 0x20, 0x20] ++ [0x4D, 0x45, 0x20] ++
        0x01 :: List.replicate 20 0) RASOS_PATH_MAX_LEN
      = some (shortName ([0x52, 0x45, 0x41, 0x44, 0x20, 0x20, 0x20, 0x20] ++ [0x4D, 0x45, 0x20] ++
        0x01 :: List.replicate 20 0)) ↔
    FieldsEnd [0x52, 0x45, 0x41, 0x44, 0x20, 0x20, 0x20, 0x20] [0x4D, 0x45, 0x20] 0x01 :=
  combineFilenameAndExt_iff rfl rfl 0x01 (List.replicate 20 0)

/-- `README01TXT` becomes `README01TXT.TXT`, and `README  TXT` with attribute 1 gets a fourth letter. -/
theorem combineFilenameAndExt_full :
    combineFilenameAndExt ([0x52, 0x45, 0x41, 0x44, 0x4D, 0x45, 0x30, 0x31] ++ [0x54, 0x58, 0x54] ++
        0x20 :: List.replicate 20 0) RASOS_PATH_MAX_LEN
      = some ([0x52, 0x45, 0x41, 0x44, 0x4D, 0x45, 0x30, 0x31, 0x54, 0x58, 0x54] ++
        [0x2E, 0x54, 0x58, 0x54]) ∧
    shortName ([0x52, 0x45, 0x41, 0x44, 0x4D, 0x45, 0x30, 0x31] ++ [0x54, 0x58, 0x54] ++
        0x20 :: List.replicate 20 0)
      = [0x52, 0x45, 0x41, 0x44, 0x4D, 0x45, 0x30, 0x31] ++ [0x2E, 0x54, 0x58, 0x54] ∧
    combineFilenameAndExt ([0x52, 0x45, 0x41, 0x44, 0x4D, 0x45, 0x20, 0x20] ++ [0x54, 0x58, 0x54] ++
        0x01 :: List.replicate 20 0) RASOS_PATH_MAX_LEN
      = some ([0x52, 0x45, 0x41, 0x44, 0x4D, 0x45] ++ [0x2E, 0x54, 0x58, 0x54, 0x01]) := by
  decide +kernel

end RasOS
