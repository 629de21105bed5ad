import RasOS.Fs.Footprint

set_option autoImplicit false

/-! # What a lookup adds

Making an item for a directory entry allocates the item and what it holds: a copy of the entry, or
the directory loaded from the disk. Nothing that was there before changes, apart from the streams of
the volume; what the functions free again they have allocated themselves. -/

namespace RasOS

open Machine

variable {α β : Type}

/-- Objects may have been added since, and streams moved. -/
structure Grown (s s' : Kernel) : Prop where
  wf : s'.WF
  statics : s'.statics = s.statics
  slots : s'.file_descriptors = s.file_descriptors
  object : ∀ ptr o, s.live ptr = some o → (∀ st, o ≠ .diskStream st) → s'.live ptr = some o
  stream : ∀ ptr st, s.live ptr = some (.diskStream st) → ∃ st', s'.live ptr = some (.diskStream st')

namespace Grown

variable {s s' s'' : Kernel}

theorem refl (h : s.WF) : Grown s s :=
  ⟨h, rfl, rfl, fun _ _ ho _ => ho, fun _ st hst => ⟨st, hst⟩⟩

theorem trans (h : Grown s s') (h' : Grown s' s'') : Grown s s'' where
  wf := h'.wf
  statics := h'.statics.trans h.statics
  slots := h'.slots.trans h.slots
  object := fun ptr o ho hst => h'.object ptr o (h.object ptr o ho hst) hst
  stream := by
    intro ptr st hst
    obtain ⟨st', hst'⟩ := h.stream ptr st hst
    exact h'.stream ptr st' hst'

/-- Something is still live where something was. -/
theorem isSome (h : Grown s s') {ptr : UInt32} {o : Obj} (ho : s.live ptr = some o) :
    ∃ o', s'.live ptr = some o' := by
  by_cases hst : ∃ st, o = .diskStream st
  · obtain ⟨st, rfl⟩ := hst
    obtain ⟨st', hst'⟩ := h.stream ptr st ho
    exact ⟨_, hst'⟩
  · exact ⟨o, h.object ptr o ho fun st heq => hst ⟨st, heq⟩⟩

/-- What is not live now was not live before. -/
theorem fresh (h : Grown s s') {ptr : UInt32} (hfree : s'.live ptr = none) : s.live ptr = none := by
  cases hlive : s.live ptr with
  | none => rfl
  | some o =>
      obtain ⟨o', ho'⟩ := h.isSome hlive
      rw [hfree] at ho'
      cases ho'

/-- The two change different objects. -/
theorem ne_of_fresh {p q : UInt32} {o : Obj} (hfree : s.live p = none) (ho : s.live q = some o) :
    q ≠ p := by
  rintro rfl
  rw [hfree] at ho
  cases ho

/-- An added object may be changed. -/
theorem write (h : Grown s s') {k : Kind Obj α} {ptr : UInt32} {o : Obj} (hfree : s.live ptr = none)
    (hlive : s'.live ptr = some o) (a : α) :
    Grown s { s' with live := k.write s'.live ptr a } := by
  refine ⟨h.wf.write hlive a, h.statics, h.slots, fun q o' hq hst => ?_, fun q st hq => ?_⟩
  · exact (Kind.write_of_ne _ _ _ (ne_of_fresh hfree hq)).trans (h.object q o' hq hst)
  · obtain ⟨st', hst'⟩ := h.stream q st hq
    exact ⟨st', (Kind.write_of_ne _ _ _ (ne_of_fresh hfree hq)).trans hst'⟩

/-- An added object may be freed. -/
theorem free (h : Grown s s') {ptr : UInt32} {o : Obj} (hfree : s.live ptr = none)
    (hlive : s'.live ptr = some o) :
    Grown s { s' with
      heap := heapFree s'.heap ptr
      live := Function.update s'.live ptr none } := by
  refine ⟨h.wf.free hlive, h.statics, h.slots, fun q o' hq hst => ?_, fun q st hq => ?_⟩
  · exact (Function.update_of_ne (ne_of_fresh hfree hq) ..).trans (h.object q o' hq hst)
  · obtain ⟨st', hst'⟩ := h.stream q st hq
    exact ⟨st', (Function.update_of_ne (ne_of_fresh hfree hq) ..).trans hst'⟩

end Grown

theorem Moved.grown {s s' : Kernel} (h : Moved s s') (hwf : s.WF) : Grown s s' :=
  ⟨h.wf hwf, h.statics, h.slots, fun ptr o ho hst => (h.object ptr o hst).mpr ho,
    fun ptr st hst => (h.stream ptr).mpr ⟨st, hst⟩⟩

theorem Since.grown {s s' : Kernel} (h : Since s s') : Grown s s' :=
  ⟨h.wf, h.statics, h.slots, fun ptr o ho _ => h.object ptr o ho,
    fun ptr st hst => ⟨st, h.object ptr _ hst⟩⟩

/-! ## Steps -/

section Steps

variable {s s1 : Kernel} {Q : β → Kernel → Prop}

/-- Allocate. -/
theorem Grown.ensures_kzalloc (h : Grown s s1) {k : Kind Obj α} {size : UInt32} {zero : α}
    {f : UInt32 → KernelM β}
    (hf : ∀ ptr s2, Grown s s2 → Since s1 s2 →
      (ptr ≠ 0 → s1.live ptr = none ∧ s2.live ptr = some (k.inj zero)) → Ensures (f ptr) s2 Q) :
    Ensures (kzalloc k size zero >>= f) s1 Q := by
  refine Ensures.bind (Q := fun ptr s2 => Kzalloc k size zero s1 ptr s2)
    (fun _ _ hrun => kzalloc_cases h.wf hrun) ?_
  intro ptr s2 hcases
  exact hf ptr s2 (h.trans (hcases.since h.wf).grown) (hcases.since h.wf) fun hne => hcases.live hne

/-- Write through a pointer that may be null, to an added object. -/
theorem Grown.ensures_storeUnchecked (h : Grown s s1) {k : Kind Obj α} {ptr : UInt32} {a : α}
    (hfree : ∀ o, s1.live ptr = some o → s.live ptr = none) {f : Unit → KernelM β}
    (hf : ∀ s2, Grown s s2 → (ptr ≠ 0 → s2.live ptr = some (k.inj a)) → Ensures (f ()) s2 Q) :
    Ensures (storeUnchecked k ptr a >>= f) s1 Q := by
  by_cases h0 : ptr = 0
  · rw [h0, storeUnchecked_null, pure_bind]
    exact hf s1 h fun hne => absurd h0 hne
  · rw [storeUnchecked_of_ne h0]
    exact ensures_store fun b hb => hf _ (h.write (hfree _ hb) hb a) fun _ => Kind.write_self ..

/-- The root of a path is a new object, unless it is null. -/
theorem createRoot_new (hwf : s.WF) (drive_number : Int) :
    Ensures (createRoot drive_number) s fun root s' => Grown s s' ∧ s.live root = none ∧
      (root ≠ 0 → s'.live root = some (pathRootK.inj { drive_number := drive_number, first := 0 })) := by
  unfold createRoot
  refine (Grown.refl hwf).ensures_kzalloc fun root s1 h1 _ hroot => ?_
  have hfree : ∀ o, s1.live root = some o → s.live root = none := fun o ho => (hroot (h1.wf.ne_zero ho)).1
  refine h1.ensures_storeUnchecked hfree fun s2 h2 hlive => Ensures.pure ⟨h2, ?_, hlive⟩
  by_cases h0 : root = 0
  · rw [h0]
    exact hwf.live_zero
  · exact (hroot h0).1

/-- Read from the volume. -/
theorem Grown.ensures_moved (h : Grown s s1) {x : KernelM α} (hx : Keeps Moved x)
    {f : α → KernelM β} (hf : ∀ a s2, Grown s s2 → Moved s1 s2 → Ensures (f a) s2 Q) :
    Ensures (x >>= f) s1 Q := by
  refine Ensures.bind (hx.ensures s1) ?_
  intro a s2 hmoved
  exact hf a s2 (h.trans (hmoved.grown h.wf)) hmoved

theorem ensures_kfree {k : Kind Obj α} {ptr : UInt32} {f : Unit → KernelM β}
    (hf : ∀ a, s1.live ptr = some (k.inj a) → Ensures (f ()) { s1 with
      heap := heapFree s1.heap ptr
      live := Function.update s1.live ptr none } Q) :
    Ensures (kfree k ptr >>= f) s1 Q := by
  refine Ensures.bind (Q := fun _ s2 => (∃ a, s1.live ptr = some (k.inj a)) ∧ s2 = { s1 with
    heap := heapFree s1.heap ptr
    live := Function.update s1.live ptr none }) (fun _ _ hrun => kfree_eq_some.mp hrun) ?_
  rintro _ s2 ⟨⟨a, ha⟩, rfl⟩
  exact hf a ha

/-- Free an added object, through a pointer that may be null. -/
theorem Grown.ensures_kfreeUnchecked (h : Grown s s1) {k : Kind Obj α} {ptr : UInt32}
    (hfree : ∀ o, s1.live ptr = some o → s.live ptr = none) {f : Unit → KernelM β}
    (hf : ∀ s2, Grown s s2 → Ensures (f ()) s2 Q) : Ensures (kfreeUnchecked k ptr >>= f) s1 Q := by
  by_cases h0 : ptr = 0
  · have hrun : kfreeUnchecked k ptr s1 = some ((), { s1 with heap := heapFree s1.heap 0 }) := by
      rw [kfreeUnchecked, if_pos h0]
    rw [ensures_bind_of_some hrun]
    exact hf _ ⟨h.wf.freeNull, h.statics, h.slots, h.object, h.stream⟩
  · rw [kfreeUnchecked_of_ne h0]
    exact ensures_kfree fun a ha => hf _ (h.free (hfree _ ha) ha)

end Steps

/-! ## Directories -/

/-- Freeing a directory that was not there before, and its entries. -/
theorem fat16FreeDirectory_fresh {s s1 : Kernel} (h : Grown s s1) {directory : UInt32}
    {d : FatDirectory} (hfree : s.live directory = none)
    (hlive : s1.live directory = some (fatDirectoryK.inj d)) (hitem : s.live d.item = none) :
    Ensures (fat16FreeDirectory directory) s1 fun _ s2 => Grown s s2 ∧ s2.live directory = none := by
  have hne : directory ≠ 0 := h.wf.ne_zero hlive
  unfold fat16FreeDirectory
  refine Ensures.ite (fun h0 => absurd h0 hne) fun _ => ensures_load fun d' hd' => ?_
  rw [hlive] at hd'
  obtain rfl := fatDirectoryK.inj_injective (Option.some.inj hd')
  have hend : ∀ t : Kernel, Grown s t → t.live directory = some (fatDirectoryK.inj d) →
      Ensures (kfree fatDirectoryK directory) t fun _ s2 => Grown s s2 ∧ s2.live directory = none := by
    intro t ht hd _ s2 hrun
    obtain ⟨-, rfl⟩ := kfree_eq_some.mp hrun
    exact ⟨ht.free hfree hd, Function.update_self ..⟩
  refine Ensures.ite (fun _ => hend s1 h hlive) fun _ => ensures_kfree fun bytes hbytes => ?_
  refine hend _ (h.free hitem hbytes) ?_
  have hother : directory ≠ d.item := by
    intro heq
    rw [← heq, hlive] at hbytes
    cases hbytes
  exact (Function.update_of_ne hother ..).trans hlive

/-- What `fat16_load_fat_directory` returns: null, a new directory, or the address of one it has
freed. -/
def LoadedDirectory (s : Kernel) (directory : UInt32) (s' : Kernel) : Prop :=
  directory = 0 ∨ s.live directory = none ∧ (s'.live directory = none ∨
    ∃ d bytes, s'.live directory = some (fatDirectoryK.inj d) ∧ s.live d.item = none ∧
      s'.live d.item = some (dirItemsK.inj bytes))

theorem fat16LoadFatDirectory_spec (item : List UInt8) {s : Kernel} (hwf : s.WF) :
    Ensures (fat16LoadFatDirectory item) s fun directory s' =>
      Grown s s' ∧ LoadedDirectory s directory s' := by
  unfold fat16LoadFatDirectory
  refine Ensures.ite (fun _ => Ensures.pure ⟨Grown.refl hwf, Or.inl rfl⟩) fun _ => ?_
  refine (Grown.refl hwf).ensures_kzalloc fun directory s1 h1 _ hdir => ?_
  refine Ensures.ite (fun h0 => Ensures.pure ⟨h1, Or.inl rfl⟩) fun hne => ?_
  obtain ⟨hfree, hlive1⟩ := hdir hne
  refine h1.ensures_moved moved_rules.fsPrivate fun priv s2 h2 hm2 => ?_
  refine h2.ensures_moved (moved_rules.fat16GetTotalItemsForDirectory _) fun total s3 h3 hm3 => ?_
  refine h3.ensures_kzalloc fun items s4 h4 hsince4 hitems => ?_
  refine ensures_store fun d0 hd0 => ?_
  have hlive4 : s4.live directory = some (fatDirectoryK.inj d0) := hd0
  generalize hd : ({ total := total, item := items } : FatDirectory) = d
  have h5 : Grown s { s4 with live := fatDirectoryK.write s4.live directory d } :=
    h4.write hfree hlive4 d
  have hlive5 : fatDirectoryK.write s4.live directory d directory = some (fatDirectoryK.inj d) :=
    Kind.write_self ..
  have hd_item : d.item = items := by rw [← hd]
  have hfailed : ∀ t : Kernel, Grown s t → t.live directory = some (fatDirectoryK.inj d) →
      s.live d.item = none →
      Ensures (fat16FreeDirectory directory >>= fun _ => Pure.pure directory) t
        fun directory s' => Grown s s' ∧ LoadedDirectory s directory s' := by
    intro t ht hd' hitem
    refine Ensures.bind (fat16FreeDirectory_fresh ht hfree hd' hitem) ?_
    rintro _ s6 ⟨h6, hgone⟩
    exact Ensures.pure ⟨h6, Or.inr ⟨hfree, Or.inl hgone⟩⟩
  refine Ensures.ite (fun h0 => hfailed _ h5 hlive5 ?_) fun hitems_ne => ?_
  · rw [hd_item, h0]
    exact hwf.live_zero
  obtain ⟨hfree3, hlive_items⟩ := hitems hitems_ne
  have hfree_items : s.live d.item = none := by
    rw [hd_item]
    exact h3.fresh hfree3
  refine h5.ensures_moved (moved_rules.fat16ReadInternal _ _ _) ?_
  rintro ⟨res, bytes⟩ s6 h6 hm6
  dsimp only
  refine ensures_store fun old hold => ?_
  have hlive6 : s6.live directory = some (fatDirectoryK.inj d) :=
    (hm6.object _ _ fun _ heq => Obj.noConfusion heq).mpr hlive5
  generalize bytes ++ List.replicate ((UInt32.ofInt (wrap (total * SIZEOF_FAT_DIRECTORY_ITEM))).toNat -
    bytes.length) 0 = contents
  have hfree_items' : s.live items = none := hd_item ▸ hfree_items
  have h7 : Grown s { s6 with live := dirItemsK.write s6.live items contents } :=
    h6.write hfree_items' hold contents
  have hapart : dirItemsK.Apart fatDirectoryK := fun _ _ h => Obj.noConfusion h
  have hlive7 : dirItemsK.write s6.live items contents directory = some (fatDirectoryK.inj d) :=
    (Kind.write_apart hapart hold).mpr hlive6
  refine Ensures.ite (fun _ => hfailed _ h7 hlive7 hfree_items) fun _ => Ensures.pure ⟨h7, ?_⟩
  refine Or.inr ⟨hfree, Or.inr ⟨d, contents, hlive7, hfree_items, ?_⟩⟩
  rw [hd_item]
  exact Kind.write_self ..

/-! ## Items -/

/-- What the union of a new item holds: for a subdirectory what has been loaded, else null or a copy
of the entry. -/
def NewPayload (s : Kernel) (entry : List UInt8) (it : FatItem) (s' : Kernel) : Prop :=
  if itemIsSubdirectory entry then
    it.type = FAT_ITEM_TYPE_DIRECTORY ∧ LoadedDirectory s it.item s'
  else
    it.type = FAT_ITEM_TYPE_FILE ∧
      (it.item = 0 ∨ s.live it.item = none ∧ s'.live it.item = some (dirItemsK.inj entry))

/-- What `fat16_new_fat_item_for_directory_item` returns. -/
def NewItem (s : Kernel) (entry : List UInt8) (item : UInt32) (s' : Kernel) : Prop :=
  item = 0 ∨ s.live item = none ∧
    ∃ it, s'.live item = some (fatItemK.inj it) ∧ NewPayload s entry it s'

theorem fat16CloneDirectoryItem_spec (item : List UInt8) {s : Kernel} (hwf : s.WF) :
    Ensures (fat16CloneDirectoryItem item) s fun copy s' => Grown s s' ∧
      (copy = 0 ∨ s.live copy = none ∧ s'.live copy = some (dirItemsK.inj item)) := by
  unfold fat16CloneDirectoryItem
  refine (Grown.refl hwf).ensures_kzalloc fun copy s1 h1 _ hcopy => ?_
  refine Ensures.ite (fun _ => Ensures.pure ⟨h1, Or.inl rfl⟩) fun hne => ?_
  obtain ⟨hfree, hlive⟩ := hcopy hne
  refine ensures_store fun _ _ => Ensures.pure ⟨h1.write hfree hlive item, Or.inr ⟨hfree, ?_⟩⟩
  exact Kind.write_self ..

theorem fat16NewFatItemForDirectoryItem_spec (entry : List UInt8) {s : Kernel} (hwf : s.WF) :
    Ensures (fat16NewFatItemForDirectoryItem entry) s fun item s' =>
      Grown s s' ∧ NewItem s entry item s' := by
  unfold fat16NewFatItemForDirectoryItem
  refine (Grown.refl hwf).ensures_kzalloc fun f_item s1 h1 _ hitem => ?_
  refine Ensures.ite (fun _ => Ensures.pure ⟨h1, Or.inl rfl⟩) fun hne => ?_
  obtain ⟨hfree, hlive⟩ := hitem hne
  -- the item is there already, so what is added now lies elsewhere
  have hother : ∀ (t : Kernel) (it : FatItem) (q : UInt32), s1.live q = none →
      fatItemK.write t.live f_item it q = t.live q :=
    fun t it q hq => Kind.write_of_ne _ _ _ (Grown.ne_of_fresh hq hlive).symm
  have hitem_live : ∀ {t : Kernel}, Grown s1 t → t.live f_item = some (fatItemK.inj {}) :=
    fun ht => ht.object _ _ hlive fun _ heq => Obj.noConfusion heq
  refine Ensures.ite (fun hsub => ?_) fun hsub => ?_
  · refine Ensures.bind (fat16LoadFatDirectory_spec entry h1.wf) ?_
    rintro directory s2 ⟨h2, hdir⟩
    refine ensures_store fun _ _ => Ensures.pure ⟨(h1.trans h2).write hfree (hitem_live h2) _, ?_⟩
    refine Or.inr ⟨hfree, _, Kind.write_self .., ?_⟩
    rw [NewPayload, if_pos hsub]
    refine ⟨rfl, ?_⟩
    rcases hdir with h0 | ⟨hfree1, hgone | ⟨d, bytes, hd, hfree_items, hitems⟩⟩
    · exact Or.inl h0
    · exact Or.inr ⟨h1.fresh hfree1, Or.inl ((hother s2 _ _ hfree1).trans hgone)⟩
    · exact Or.inr ⟨h1.fresh hfree1, Or.inr ⟨d, bytes, (hother s2 _ _ hfree1).trans hd,
        h1.fresh hfree_items, (hother s2 _ _ hfree_items).trans hitems⟩⟩
  · refine Ensures.bind (fat16CloneDirectoryItem_spec entry h1.wf) ?_
    rintro copy s2 ⟨h2, hcopy⟩
    refine ensures_store fun _ _ => Ensures.pure ⟨(h1.trans h2).write hfree (hitem_live h2) _, ?_⟩
    refine Or.inr ⟨hfree, _, Kind.write_self .., ?_⟩
    rw [NewPayload, if_neg hsub]
    refine ⟨rfl, ?_⟩
    rcases hcopy with h0 | ⟨hfree1, hcopied⟩
    · exact Or.inl h0
    · exact Or.inr ⟨h1.fresh hfree1, (hother s2 _ _ hfree1).trans hcopied⟩

/-- An item made later is also new as seen from an earlier state. -/
theorem NewItem.earlier {s s1 s2 : Kernel} {entry : List UInt8} {item : UInt32}
    (h : NewItem s1 entry item s2) (hgrown : Grown s s1) : NewItem s entry item s2 := by
  rcases h with h0 | ⟨hfree, it, hlive, hpayload⟩
  · exact Or.inl h0
  refine Or.inr ⟨hgrown.fresh hfree, it, hlive, ?_⟩
  unfold NewPayload at hpayload ⊢
  split
  · rw [if_pos ‹_›] at hpayload
    obtain ⟨htype, hdir⟩ := hpayload
    refine ⟨htype, ?_⟩
    rcases hdir with h0 | ⟨hfree', hgone | ⟨d, bytes, hd, hitems, hbytes⟩⟩
    · exact Or.inl h0
    · exact Or.inr ⟨hgrown.fresh hfree', Or.inl hgone⟩
    · exact Or.inr ⟨hgrown.fresh hfree', Or.inr ⟨d, bytes, hd, hgrown.fresh hitems, hbytes⟩⟩
  · rw [if_neg ‹_›] at hpayload
    obtain ⟨htype, hcopy⟩ := hpayload
    refine ⟨htype, ?_⟩
    rcases hcopy with h0 | ⟨hfree', hcopied⟩
    · exact Or.inl h0
    · exact Or.inr ⟨hgrown.fresh hfree', hcopied⟩

/-- It stays new when only older objects change. -/
theorem NewItem.congr {s s1 s2 : Kernel} {entry : List UInt8} {item : UInt32} (h : NewItem s entry item s1)
    (hlive : ∀ q, s.live q = none → s2.live q = s1.live q) : NewItem s entry item s2 := by
  rcases h with h0 | ⟨hfree, it, hit, hpayload⟩
  · exact Or.inl h0
  refine Or.inr ⟨hfree, it, (hlive _ hfree).trans hit, ?_⟩
  unfold NewPayload at hpayload ⊢
  split
  · rw [if_pos ‹_›] at hpayload
    obtain ⟨htype, hdir⟩ := hpayload
    refine ⟨htype, ?_⟩
    rcases hdir with h0 | ⟨hfree', hgone | ⟨d, bytes, hd, hitems, hbytes⟩⟩
    · exact Or.inl h0
    · exact Or.inr ⟨hfree', Or.inl ((hlive _ hfree').trans hgone)⟩
    · exact Or.inr ⟨hfree', Or.inr ⟨d, bytes, (hlive _ hfree').trans hd, hitems,
        (hlive _ hitems).trans hbytes⟩⟩
  · rw [if_neg ‹_›] at hpayload
    obtain ⟨htype, hcopy⟩ := hpayload
    refine ⟨htype, ?_⟩
    rcases hcopy with h0 | ⟨hfree', hcopied⟩
    · exact Or.inl h0
    · exact Or.inr ⟨hfree', (hlive _ hfree').trans hcopied⟩

end RasOS
