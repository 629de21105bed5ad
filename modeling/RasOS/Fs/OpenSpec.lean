import RasOS.Fs.Footprint

set_option autoImplicit false

/-! # What `fopen` leaves behind

A descriptor that `fopen` returns is one more than the first free slot of the descriptor table, and
the slot then holds a descriptor at position 0. -/

namespace RasOS

open Machine

/-- The slot holds a descriptor that stands at the beginning of `item`. -/
def Fresh (s : Kernel) (slot : Nat) (item : UInt32) : Prop :=
  ∃ desc priv index, s.file_descriptors slot = desc ∧ desc ≠ 0 ∧
    s.live desc = some (fileDescriptorK.inj
      { index := index, filesystem := some .fat16, private_data := priv }) ∧
    s.live priv = some (fatFileDescriptorK.inj { item := item, pos := 0 })

/-- `item` is a file whose directory entry has the bytes `entry`. -/
def IsFile (s : Kernel) (item : UInt32) (entry : List UInt8) : Prop :=
  ∃ ptr, s.live item = some (fatItemK.inj { item := ptr, type := FAT_ITEM_TYPE_FILE }) ∧
    s.live ptr = some (dirItemsK.inj entry)

/-- The first free slot of the descriptor table. -/
def FirstFree (s : Kernel) (slot : Nat) : Prop :=
  s.file_descriptors slot = 0 ∧ ∀ j, j < slot → s.file_descriptors j ≠ 0

theorem ISERR_ERROR {res : Int} (h1 : -2 ^ 31 ≤ res) (h2 : res < 0) : ISERR (ERROR res) = true := by
  rw [ISERR, ERROR, signed_ofInt h1 (by omega)]
  exact decide_eq_true h2

/-- A pointer to a live object is no error code. -/
theorem Kernel.WF.not_iserr {s : Kernel} (h : s.WF) {ptr : UInt32} {o : Obj}
    (hlive : s.live ptr = some o) : ISERR ptr = false := by
  obtain ⟨b, hb, haddr⟩ := h.range hlive
  rw [ISERR, signed_of_lt (by omega)]
  exact decide_eq_false (by omega)

/-- The state has changed only as reading the volume may change it. -/
def Unslotted (s s' : Kernel) : Prop := KeepsRest s s' ∧ s'.file_descriptors = s.file_descriptors

theorem unslotted_rules : VolumeRules Unslotted where
  frame := ⟨fun s => ⟨keepsRest_frame.refl s, rfl⟩,
    fun h h' => ⟨keepsRest_frame.trans h.1 h'.1, h'.2.trans h.2⟩⟩
  alloc k hk size zero s a s' h :=
    ⟨keepsRest_rules.alloc k hk size zero s a s' h, sameSlots_rules.alloc k hk size zero s a s' h⟩
  put k hk ptr a s u s' h :=
    ⟨keepsRest_rules.put k hk ptr a s u s' h, sameSlots_rules.put k hk ptr a s u s' h⟩
  free k hk ptr s u s' h :=
    ⟨keepsRest_rules.free k hk ptr s u s' h, sameSlots_rules.free k hk ptr s u s' h⟩
  freeNull s u s' h := ⟨keepsRest_rules.freeNull s u s' h, sameSlots_rules.freeNull s u s' h⟩
  seek stream st s u s' h :=
    ⟨keepsRest_rules.seek stream st s u s' h, sameSlots_rules.seek stream st s u s' h⟩
  sector lba s r s' h :=
    ⟨keepsRest_rules.sector lba s r s' h, sameSlots_rules.sector lba s r s' h⟩

/-- `fat16_open`: an error, or a descriptor at position 0. -/
theorem fat16Open_spec (path : UInt32) (mode : Nat) (s : Kernel) :
    Ensures (fat16Open path mode) s fun priv s' => Unslotted s s' ∧
      (ISERR priv = false → ∃ item, s'.live priv = some (fatFileDescriptorK.inj ⟨item, 0⟩)) := by
  have hkeep := (unslotted_rules.fat16Open path mode).ensures s
  have hlive : Ensures (fat16Open path mode) s fun priv s' =>
      ISERR priv = false → ∃ item, s'.live priv = some (fatFileDescriptorK.inj ⟨item, 0⟩) := by
    have herr : ∀ (res : Int) (t : Kernel), -2 ^ 31 ≤ res → res < 0 →
        Ensures (Pure.pure (ERROR res) : KernelM UInt32) t fun priv s' =>
          ISERR priv = false → ∃ item, s'.live priv = some (fatFileDescriptorK.inj ⟨item, 0⟩) := by
      intro res t h1 h2
      refine Ensures.pure fun h => ?_
      rw [ISERR_ERROR h1 h2] at h
      cases h
    unfold fat16Open
    refine Ensures.ite (fun _ => herr _ _ (by decide) (by decide)) fun _ => ?_
    refine Ensures.bind (Q := fun _ _ => True) (fun _ _ _ => trivial) fun desc s1 _ => ?_
    refine Ensures.ite (fun _ => herr _ _ (by decide) (by decide)) fun _ => ?_
    refine Ensures.bind (Q := fun _ _ => True) (fun _ _ _ => trivial) fun item s2 _ => ?_
    refine ensures_store fun _ _ => Ensures.ite (fun _ => herr _ _ (by decide) (by decide)) fun _ => ?_
    exact ensures_store fun _ _ => Ensures.pure fun _ => ⟨item, Kind.write_self ..⟩
  exact fun a s' h => ⟨hkeep a s' h, hlive a s' h⟩

/-- What `file_new_descriptor` does when it succeeds. -/
structure NewDescriptor (s : Kernel) (slot : Nat) (desc : UInt32) (s' : Kernel) : Prop where
  wf : s'.WF
  statics : s'.statics = s.statics
  slots : s'.file_descriptors = Function.update s.file_descriptors slot desc
  ne_zero : desc ≠ 0
  live : s'.live desc = some (fileDescriptorK.inj { index := slot + 1 })
  fresh : s.live desc = none
  others : ∀ ptr, ptr ≠ desc → s'.live ptr = s.live ptr

theorem fileNewDescriptorLoop_spec :
    ∀ (remaining i : Nat) (s : Kernel), s.WF → (∀ j, j < i → s.file_descriptors j ≠ 0) →
      Ensures (fileNewDescriptorLoop remaining i) s fun r s' =>
        (r.1 < 0 ∧ s' = s ∧ ∀ j, j < i + remaining → s.file_descriptors j ≠ 0) ∨
        r.1 = OK ∧ ∃ slot, slot < i + remaining ∧ FirstFree s slot ∧ NewDescriptor s slot r.2 s' := by
  intro remaining
  induction remaining with
  | zero => exact fun i s _ hbefore => Ensures.pure (Or.inl ⟨by decide, rfl, hbefore⟩)
  | succ remaining ih =>
      intro i s hwf hbefore
      rw [fileNewDescriptorLoop]
      refine ensures_fetch (Ensures.ite (fun hfree => ?_) fun htaken => ?_)
      · refine Ensures.bind (Q := fun desc s1 => Kzalloc fileDescriptorK SIZEOF_FILE_DESCRIPTOR {}
          s desc s1) (fun _ _ h => kzalloc_cases hwf h) ?_
        intro desc s1 hcases
        refine ensures_store fun a ha => ensures_assign ?_
        refine Ensures.pure (Or.inr ⟨rfl, i, by omega, ⟨hfree, hbefore⟩, ?_⟩)
        have hwf1 := (hcases.since hwf).wf.write (k := fileDescriptorK) ha { index := i + 1 }
        cases hcases with
        | null hnone =>
            rw [hwf.live_zero] at ha
            cases ha
        | fresh b ptr hpos hend hrun hptr hne hnew =>
            refine ⟨hwf1.of_live rfl fun _ o ho => ⟨o, ho⟩, rfl, rfl, hne, Kind.write_self .., hnew,
              fun q hq => ?_⟩
            exact (Kind.write_of_ne _ _ _ hq).trans (Kind.write_of_ne _ _ _ hq)
      · refine (ih (i + 1) s hwf fun j hj => ?_).mono ?_
        · by_cases hji : j = i
          · rw [hji]
            exact htaken
          · exact hbefore j (by omega)
        · rintro r s' (⟨herr, hs', hfull⟩ | ⟨hok, slot, hlt, hrest⟩)
          · exact Or.inl ⟨herr, hs', fun j hj => hfull j (by omega)⟩
          · exact Or.inr ⟨hok, slot, by omega, hrest⟩

/-- `fd` names the first slot that was free in `s`, and in `s'` the slot holds a descriptor at the
beginning of `item`. -/
def Opened (s : Kernel) (fd : Int) (s' : Kernel) (item : UInt32) : Prop :=
  ∃ slot : Nat, slot < 512 ∧ fd = slot + 1 ∧ FirstFree s slot ∧ Fresh s' slot item

/-- **What `fopen` returns.** -/
theorem fopen_spec (filename mode_str : List UInt8) (s : Kernel) (hwf : s.WF) :
    Ensures (fopen filename mode_str) s fun fd s' => 0 < fd → ∃ item, Opened s fd s' item := by
  unfold fopen
  refine Ensures.bind (Q := fun res s' => 0 < res → ∃ item, Opened s res s' item) ?_ ?_
  · have herr : ∀ (res : Int) (t : Kernel), res < 0 → Ensures (Pure.pure res : KernelM Int) t
        fun res s' => 0 < res → ∃ item, Opened s res s' item :=
      fun res t hres => Ensures.pure fun hpos => absurd hpos (by omega)
    unfold fopenRes
    refine Ensures.bind ((unslotted_rules.pathparserParse filename).ensures s) ?_
    rintro root_path s1 ⟨hrest1, hslots1⟩
    have hwf1 := (hrest1 hwf).wf
    refine Ensures.ite (fun _ => herr _ _ (by decide)) fun _ => ?_
    refine ensures_load fun root _ => Ensures.ite (fun _ => herr _ _ (by decide)) fun _ => ?_
    refine Ensures.ite (fun _ => herr _ _ (by decide)) fun _ => ensures_fetch ?_
    refine Ensures.ite (fun _ => herr _ _ (by decide)) fun hfs => ?_
    have hfat := filesystem_of_ne_none hfs
    refine Ensures.ite (fun _ => herr _ _ (by decide)) fun _ => ?_
    refine Ensures.bind (fat16Open_spec root.first _ s1) ?_
    rintro priv s2 ⟨⟨hrest2, hslots2⟩, hpriv⟩
    have hwf2 := (hrest2 hwf1).wf
    refine Ensures.ite (fun hiserr => ?_) fun hiserr => ?_
    · refine herr _ _ ?_
      rw [ISERR] at hiserr
      exact of_decide_eq_true hiserr
    · obtain ⟨item, hitem⟩ := hpriv (Bool.eq_false_iff.mpr hiserr)
      refine Ensures.bind (fileNewDescriptorLoop_spec 512 0 s2 hwf2 fun j hj => absurd hj (by omega)) ?_
      rintro ⟨res, desc⟩ s3 hnew
      refine Ensures.ite (fun hneg => herr _ _ hneg) fun hpos => ?_
      rcases hnew with ⟨hneg, -⟩ | ⟨-, slot, hlt, hfirst, hnew⟩
      · exact absurd hneg hpos
      refine ensures_load fun d hd => ensures_store fun _ _ => ?_
      rw [hnew.live] at hd
      obtain rfl := fileDescriptorK.inj_injective (Option.some.inj hd)
      refine Ensures.pure fun _ => ⟨item, slot, by omega, rfl, ?_, ?_⟩
      · refine ⟨?_, fun j hj => ?_⟩
        · rw [← hslots1, ← hslots2]
          exact hfirst.1
        · rw [← hslots1, ← hslots2]
          exact hfirst.2 j hj
      · have hne : priv ≠ desc := by
          rintro rfl
          rw [hnew.fresh] at hitem
          cases hitem
        rw [hfat]
        refine ⟨desc, priv, slot + 1, ?_, hnew.ne_zero, Kind.write_self .., ?_⟩
        · show s3.file_descriptors slot = desc
          rw [hnew.slots, Function.update_self]
        · refine (Kind.write_of_ne _ _ _ hne).trans ?_
          rw [hnew.others priv hne]
          exact hitem
  · rintro res s' hres
    refine Ensures.pure fun hpos => ?_
    split at hpos
    · exact absurd hpos (by decide)
    · rw [if_neg ‹_›]
      exact hres hpos

end RasOS
