import RasOS.Fs.Descriptors
import RasOS.Fs.EntryWalk
import RasOS.Fs.Freeing

set_option autoImplicit false

/-! # The pointers that `fopen` frees and reads

An item passes from the search of a directory to the walk and from there to an open file; whoever
holds it frees it. The pointers freed and read on the way are live exactly as long as no directory
is freed by the function that returns it and a buffer can be had for an empty path component. -/

namespace RasOS

open Machine Traced HeapEvent

variable {α : Type}

/-! ## Items -/

/-- What an item holds; the copy of a file's entry may be missing. -/
inductive ItemHolds (s : Kernel) (item : UInt32) : List UInt32 → Prop
  | owns (ptrs : List UInt32) (h : ItemOwns s item ptrs) : ItemHolds s item ptrs
  | uncopied (it : FatItem) (hlive : s.live item = some (fatItemK.inj it))
      (htype : it.type = FAT_ITEM_TYPE_FILE) (h0 : it.item = 0) : ItemHolds s item [item]

namespace ItemHolds

variable {s s' : Kernel} {item : UInt32} {ptrs ptrs' : List UInt32}

theorem congr (h : ItemHolds s item ptrs) (hlive : ∀ q ∈ ptrs, s'.live q = s.live q) :
    ItemHolds s' item ptrs := by
  cases h with
  | owns _ h => exact .owns _ (h.congr hlive)
  | uncopied it hit htype h0 => exact .uncopied it ((hlive _ (by simp)).trans hit) htype h0

theorem isItem (h : ItemHolds s item ptrs) : ∀ q ∈ ptrs, ∃ o, s.live q = some o ∧ o.isItem = true := by
  cases h with
  | owns _ h => exact h.isItem
  | uncopied it hit htype h0 => exact fun q hq => ⟨_, (List.mem_singleton.mp hq) ▸ hit, rfl⟩

theorem live (h : ItemHolds s item ptrs) : ∃ it, s.live item = some (fatItemK.inj it) := by
  cases h with
  | owns _ h => cases h <;> exact ⟨_, by assumption⟩
  | uncopied it hit htype h0 => exact ⟨it, hit⟩

/-- A file with a copy is not one without. -/
theorem not_uncopied (h : ItemOwns s item ptrs) (hwf : s.WF) {it : FatItem}
    (hit : s.live item = some (fatItemK.inj it)) (htype : it.type = FAT_ITEM_TYPE_FILE) :
    it.item ≠ 0 := by
  cases h with
  | directory it' _ hit' htype' _ =>
      obtain rfl := fatItemK.inj_injective (Option.some.inj (hit.symm.trans hit'))
      rw [htype] at htype'
      cases htype'
  | file it' bytes hit' _ hbytes =>
      obtain rfl := fatItemK.inj_injective (Option.some.inj (hit.symm.trans hit'))
      exact hwf.ne_zero hbytes
  | other it' hit' _ htype' =>
      obtain rfl := fatItemK.inj_injective (Option.some.inj (hit.symm.trans hit'))
      exact absurd htype htype'

theorem unique (h : ItemHolds s item ptrs) (h' : ItemHolds s item ptrs') (hwf : s.WF) : ptrs = ptrs' := by
  cases h with
  | owns _ h =>
      cases h' with
      | owns _ h' => exact Option.some.inj (h.objects.symm.trans h'.objects)
      | uncopied it hit htype h0 => exact absurd h0 (not_uncopied h hwf hit htype)
  | uncopied it hit htype h0 =>
      cases h' with
      | owns _ h' => exact absurd h0 (not_uncopied h' hwf hit htype)
      | uncopied => rfl

end ItemHolds

/-- Null, or an item that holds what was not there in `s`. -/
def HeldItem (s s' : Kernel) (item : UInt32) : Prop :=
  item = 0 ∨ ∃ ptrs, ItemHolds s' item ptrs ∧ ∀ q ∈ ptrs, s.live q = none

theorem HeldItem.earlier {s s1 s' : Kernel} {item : UInt32} (h : HeldItem s1 s' item)
    (hgrown : Grown s s1) : HeldItem s s' item := by
  rcases h with h0 | ⟨ptrs, hptrs, hfresh⟩
  · exact Or.inl h0
  · exact Or.inr ⟨ptrs, hptrs, fun q hq => hgrown.fresh (hfresh q hq)⟩

/-- The directory of an item is null or live. -/
def DirectoryLive (s : Kernel) (item : UInt32) : Prop :=
  ∀ it, s.live item = some (fatItemK.inj it) → it.type = FAT_ITEM_TYPE_DIRECTORY →
    it.item = 0 ∨ ∃ d, s.live it.item = some (fatDirectoryK.inj d)

theorem NewItem.held {s s' : Kernel} {entry : List UInt8} {item : UInt32} (h : NewItem s entry item s')
    (hwf : s'.WF) (hlive : DirectoryLive s' item) : HeldItem s s' item := by
  rcases id h with h0 | ⟨hfree, it, hit, hpayload⟩
  · exact Or.inl h0
  have howns : ∀ {ptrs}, ItemOwns s' item ptrs → HeldItem s s' item := fun hptrs =>
    Or.inr ⟨_, .owns _ hptrs, h.owns_fresh hwf hptrs⟩
  unfold NewPayload at hpayload
  split at hpayload
  · obtain ⟨htype, hdir⟩ := hpayload
    rcases hlive it hit htype with h0 | ⟨d, hd⟩
    · exact howns (.directory it _ hit htype (.null h0))
    · rcases hdir with h0 | ⟨-, hgone | ⟨d', bytes, hd', -, hbytes⟩⟩
      · exact absurd h0 (hwf.ne_zero hd)
      · rw [hgone] at hd
        cases hd
      · exact howns (.directory it _ hit htype
          (.full d' bytes (hwf.ne_zero hd') hd' (hwf.ne_zero hbytes) hbytes))
  · obtain ⟨htype, h0 | ⟨-, hcopy⟩⟩ := hpayload
    · refine Or.inr ⟨_, .uncopied it hit htype h0, fun q hq => ?_⟩
      rw [List.mem_singleton.mp hq]
      exact hfree
    · exact howns (.file it entry hit htype hcopy)

theorem exact_newFatItem (entry : List UInt8) {s : Kernel} (hwf : s.WF) :
    Exact Ok Met (Trace.fat16NewFatItemForDirectoryItem entry) s fun item s' =>
      Grown s s' ∧ HeldItem s s' item := by
  have hspec : Ensures (Trace.fat16NewFatItemForDirectoryItem entry).erase s fun item s' =>
      Grown s s' ∧ NewItem s entry item s' := by
    rw [Trace.erase_fat16NewFatItemForDirectoryItem]
    exact fat16NewFatItemForDirectoryItem_spec entry hwf
  refine (Exact.and_ensures (Q := fun item s' => DirectoryLive s' item) ?_ hspec).mono
    fun _ _ h => ⟨h.2.1, h.2.2.held h.2.1.wf h.1⟩
  unfold Trace.fat16NewFatItemForDirectoryItem
  refine Exact.bind_lift (fun _ _ hrun => kzalloc_cases hwf hrun) fun f_item s1 halloc => ?_
  have hwf1 := hwf.kzalloc halloc
  refine Exact.ite (fun _ => Exact.pure fun it hit => ?_) fun hne => ?_
  · exact absurd rfl (hwf1.ne_zero hit)
  have hlive1 := (halloc.live hne).2
  have hlive2 : ∀ {t : Kernel}, Grown s1 t → t.live f_item = some (fatItemK.inj {}) := fun ht =>
    ht.object _ _ hlive1 fun _ heq => Obj.noConfusion heq
  refine Exact.ite (fun _ => ?_) fun _ => ?_
  · refine (exact_loadFatDirectory entry hwf1).bind ?_
    rintro directory s2 ⟨h2, -, hdir⟩
    refine Exact.bind_of_some (store_of_live (hlive2 h2) _) (Exact.pure fun it hit _ => ?_)
    obtain rfl := fatItemK.inj_injective (Option.some.inj (hit.symm.trans (Kind.write_self ..)))
    refine hdir.imp_right ?_
    rintro ⟨d, hd⟩
    have hapart : fatItemK.Apart fatDirectoryK := fun _ _ h => Obj.noConfusion h
    exact ⟨d, (Kind.write_apart hapart (hlive2 h2)).mpr hd⟩
  · refine Exact.bind_lift (fat16CloneDirectoryItem_spec entry hwf1) fun copy s2 h2 => ?_
    refine Exact.bind_of_some (store_of_live (hlive2 h2.1) _) (Exact.pure fun it hit htype => ?_)
    obtain rfl := fatItemK.inj_injective (Option.some.inj (hit.symm.trans (Kind.write_self ..)))
    cases htype

/-! ## The walk -/

theorem exact_findItemLoop {s : Kernel} {directory : FatDirectory} (name : List UInt8) :
    ∀ (remaining i : Nat) (f_item : UInt32) (s1 : Kernel), Grown s s1 → HeldItem s s1 f_item →
      (directory.item = 0 ∨ ∃ bytes, s1.live directory.item = some (dirItemsK.inj bytes)) →
      Exact Ok Met (Trace.findItemLoop directory name remaining i f_item) s1 fun item s' =>
        Grown s s' ∧ HeldItem s s' item := by
  intro remaining
  induction remaining with
  | zero => exact fun _ _ _ h1 hitem _ => Exact.pure ⟨h1, hitem⟩
  | succ remaining ih =>
      intro i f_item s1 h1 hitem hitems
      refine (exact_read quiet_met hitems).bind ?_
      rintro items _ ⟨hlive, rfl⟩
      dsimp only
      cases combineFilenameAndExt (items.drop (i * SIZEOF_FAT_DIRECTORY_ITEM)) RASOS_PATH_MAX_LEN with
      | none => exact Exact.lift Ensures.stop
      | some tmp_filename =>
          refine Exact.ite (fun _ => ?_) fun _ => ih (i + 1) f_item _ h1 hitem hitems
          refine (exact_newFatItem _ h1.wf).bind ?_
          rintro item s2 ⟨h2, hnew⟩
          refine ih (i + 1) item s2 (h1.trans h2) (hnew.earlier h1) (Or.inr ⟨items, ?_⟩)
          exact h2.object _ _ hlive fun _ heq => Obj.noConfusion heq

theorem exact_findItem {s : Kernel} (hwf : s.WF) {directory : FatDirectory} (name : List UInt8)
    (hitems : directory.item = 0 ∨ ∃ bytes, s.live directory.item = some (dirItemsK.inj bytes)) :
    Exact Ok Met (Trace.fat16FindItemInDirectory directory name) s fun item s' =>
      Grown s s' ∧ HeldItem s s' item :=
  exact_findItemLoop name _ _ _ _ (Grown.refl hwf) (Or.inl rfl) hitems

/-- An item that holds a directory. -/
theorem HeldItem.directory {s s1 : Kernel} {item : UInt32} {it : FatItem} (h : HeldItem s s1 item)
    (hwf : s1.WF) (hit : s1.live item = some (fatItemK.inj it))
    (htype : it.type = FAT_ITEM_TYPE_DIRECTORY) : ∃ objects, DirectoryOwns s1 it.item objects ∧
      ∀ q ∈ objects ++ [item], s.live q = none := by
  rcases h with h0 | ⟨ptrs, hptrs, hfresh⟩
  · exact absurd h0 (hwf.ne_zero hit)
  cases hptrs with
  | uncopied it' hit' htype' _ =>
      obtain rfl := fatItemK.inj_injective (Option.some.inj (hit.symm.trans hit'))
      rw [htype] at htype'
      cases htype'
  | owns _ howns =>
      cases howns with
      | directory it' objects hit' _ hdir =>
          obtain rfl := fatItemK.inj_injective (Option.some.inj (hit.symm.trans hit'))
          exact ⟨objects, hdir, hfresh⟩
      | file it' bytes hit' htype' _ =>
          obtain rfl := fatItemK.inj_injective (Option.some.inj (hit.symm.trans hit'))
          rw [htype] at htype'
          cases htype'
      | other it' hit' htype' _ =>
          obtain rfl := fatItemK.inj_injective (Option.some.inj (hit.symm.trans hit'))
          exact absurd htype htype'

theorem DirectoryOwns.live {s : Kernel} {directory : UInt32} {ptrs : List UInt32}
    (h : DirectoryOwns s directory ptrs) :
    directory = 0 ∨ ∃ d, s.live directory = some (fatDirectoryK.inj d) := by
  cases h with
  | null h0 => exact Or.inl h0
  | empty d hne hlive hitem => exact Or.inr ⟨d, hlive⟩
  | full d bytes hne hlive hitem hbytes => exact Or.inr ⟨d, hlive⟩

theorem DirectoryOwns.items {s : Kernel} {directory : UInt32} {ptrs : List UInt32} {d : FatDirectory}
    (h : DirectoryOwns s directory ptrs) (hwf : s.WF)
    (hd : s.live directory = some (fatDirectoryK.inj d)) :
    d.item = 0 ∨ ∃ bytes, s.live d.item = some (dirItemsK.inj bytes) := by
  cases h with
  | null h0 => exact absurd h0 (hwf.ne_zero hd)
  | empty d' hne hlive hitem =>
      obtain rfl := fatDirectoryK.inj_injective (Option.some.inj (hd.symm.trans hlive))
      exact Or.inl hitem
  | full d' bytes hne hlive hitem hbytes =>
      obtain rfl := fatDirectoryK.inj_injective (Option.some.inj (hd.symm.trans hlive))
      exact Or.inr ⟨bytes, hbytes⟩

theorem exact_getDirectoryEntryLoop {s : Kernel} : ∀ (fuel : Nat) (next_part current_item : UInt32)
    (s1 : Kernel), Grown s s1 → HeldItem s s1 current_item →
      Exact Ok Met (Trace.getDirectoryEntryLoop fuel next_part current_item) s1 fun item s' =>
        Grown s s' ∧ HeldItem s s' item := by
  intro fuel
  induction fuel with
  | zero => exact fun _ _ _ _ _ => Exact.lift Ensures.stop
  | succ fuel ih =>
      intro next_part current_item s1 h1 hitem
      refine Exact.ite (fun _ => Exact.pure ⟨h1, hitem⟩) fun _ => ?_
      have hread : current_item = 0 ∨ ∃ it, s1.live current_item = some (fatItemK.inj it) := by
        refine hitem.imp_right ?_
        rintro ⟨ptrs, hptrs, -⟩
        exact hptrs.live
      refine (exact_read quiet_met hread).bind ?_
      rintro it _ ⟨hit, rfl⟩
      refine Exact.ite (fun _ => Exact.pure ⟨h1, Or.inl rfl⟩) fun htype => ?_
      have htype := not_not.mp htype
      obtain ⟨objects, hdir, hfresh⟩ := hitem.directory h1.wf hit htype
      refine Exact.bind_lift (fun _ _ hrun => load_eq_some.mp hrun) ?_
      rintro part _ ⟨-, rfl⟩
      refine (exact_read quiet_met hdir.live).bind ?_
      rintro directory _ ⟨hd, rfl⟩
      refine Exact.bind_lift (fun _ _ hrun => load_eq_some.mp hrun) ?_
      rintro name s1 ⟨-, rfl⟩
      refine (exact_findItem h1.wf name (hdir.items h1.wf hd)).bind ?_
      rintro tmp_item s2 ⟨h2, htmp⟩
      -- the current item is as it was before the search, so all of it can be freed
      have howns := ItemOwns.directory it objects hit htype hdir
      have howns2 := howns.congr (howns.kept h2)
      refine (exact_fatItemFree quiet_met howns2).bind ?_
      rintro _ _ rfl
      refine Exact.bind_lift (fun _ _ hrun => load_eq_some.mp hrun) ?_
      rintro part' _ ⟨-, rfl⟩
      refine ih _ _ _ ((h1.trans h2).freedAll howns2.allLive hfresh) (HeldItem.earlier ?_ h1)
      refine htmp.imp_right ?_
      rintro ⟨ptrs, hptrs, hnew⟩
      refine ⟨ptrs, hptrs.congr fun q hq => ?_, hnew⟩
      rw [freedAll_live, if_neg]
      intro hmem
      obtain ⟨o, ho⟩ := howns.allLive.live q hmem
      rw [hnew q hq] at ho
      cases ho

/-- The volume is mounted, its root directory loaded. -/
def RootLive (s : Kernel) : Prop :=
  ∃ priv bytes, s.live s.disk.fs_private = some (fatPrivateK.inj priv) ∧
    s.live priv.root_directory.item = some (dirItemsK.inj bytes)

theorem exact_getDirectoryEntry (path : UInt32) {s : Kernel} (hwf : s.WF) (hroot : RootLive s) :
    Exact Ok Met (Trace.fat16GetDirectoryEntry path) s fun item s' =>
      Grown s s' ∧ HeldItem s s' item := by
  obtain ⟨priv, bytes, hpriv, hbytes⟩ := hroot
  have hrun : fsPrivate s = some (priv, s) := load_of_live hpriv
  unfold Trace.fat16GetDirectoryEntry
  refine Exact.bind_of_some hrun (Exact.bind_lift (fun _ _ hrun => load_eq_some.mp hrun) ?_)
  rintro part _ ⟨-, rfl⟩
  refine Exact.bind_lift (fun _ _ hrun => load_eq_some.mp hrun) ?_
  rintro name s ⟨-, rfl⟩
  refine (exact_findItem hwf name (Or.inr ⟨bytes, hbytes⟩)).bind ?_
  rintro root_item s1 ⟨h1, hitem⟩
  refine Exact.ite (fun _ => Exact.pure ⟨h1, Or.inl rfl⟩) fun _ => ?_
  refine Exact.bind_lift (fun _ _ hrun => load_eq_some.mp hrun) ?_
  rintro part' s1 ⟨-, rfl⟩
  exact exact_getDirectoryEntryLoop _ _ _ _ h1 hitem

/-- Private data that were not there before, of an item that holds what was not there before. -/
structure HeldPrivate (s : Kernel) (priv : UInt32) (s' : Kernel) (item : UInt32) (ptrs : List UInt32) :
    Prop where
  fresh : s.live priv = none
  live : s'.live priv = some (fatFileDescriptorK.inj { item := item, pos := 0 })
  holds : ItemHolds s' item ptrs
  new : ∀ q ∈ ptrs, s.live q = none

theorem exact_open (path : UInt32) (mode : Nat) {s : Kernel} (hwf : s.WF) (hroot : RootLive s) :
    Exact Ok Met (Trace.fat16Open path mode) s fun priv s' => Grown s s' ∧
      (ISERR priv = false → ∃ item ptrs, HeldPrivate s priv s' item ptrs) := by
  have hspec : Ensures (Trace.fat16Open path mode).erase s fun _ s' => Grown s s' := by
    rw [Trace.erase_fat16Open]
    exact (fat16Open_new path mode hwf).mono fun _ _ h => h.1
  refine (Exact.and_ensures ?_ hspec).mono fun _ _ h => ⟨h.2, h.1⟩
  have herr : ∀ (res : Int) (t : Kernel), -2 ^ 31 ≤ res → res < 0 →
      Exact Ok Met (Pure.pure (ERROR res) : TraceM UInt32) t fun priv s' =>
        ISERR priv = false → ∃ item ptrs, HeldPrivate s priv s' item ptrs := by
    intro res t h1 h2
    refine Exact.pure fun h => ?_
    rw [ISERR_ERROR h1 h2] at h
    cases h
  unfold Trace.fat16Open
  refine Exact.ite (fun _ => herr _ _ (by decide) (by decide)) fun _ => ?_
  refine Exact.bind_lift (fun _ _ hrun => kzalloc_cases hwf hrun) fun priv s1 halloc => ?_
  refine Exact.ite (fun _ => herr _ _ (by decide) (by decide)) fun hne => ?_
  obtain ⟨hfree, hlive⟩ := halloc.live hne
  have h1 := halloc.since hwf
  have hroot1 : RootLive s1 := by
    obtain ⟨volume, bytes, hvolume, hbytes⟩ := hroot
    refine ⟨volume, bytes, ?_, h1.object _ _ hbytes⟩
    rw [h1.disk]
    exact h1.object _ _ hvolume
  refine (exact_getDirectoryEntry path h1.wf hroot1).bind ?_
  rintro item s2 ⟨h2, hitem⟩
  have hlive2 : s2.live priv = some (fatFileDescriptorK.inj {}) :=
    h2.object _ _ hlive fun _ heq => Obj.noConfusion heq
  refine Exact.bind_of_some (store_of_live hlive2 _) ?_
  refine Exact.ite (fun _ => herr _ _ (by decide) (by decide)) fun hitem_ne => ?_
  refine Exact.bind_of_some (store_of_live (Kind.write_self ..) _) (Exact.pure fun _ => ?_)
  rcases hitem with h0 | ⟨ptrs, hptrs, hnew⟩
  · exact absurd h0 hitem_ne
  refine ⟨item, ptrs, hfree, Kind.write_self .., hptrs.congr fun q hq => ?_, fun q hq => ?_⟩
  · have hqp : q ≠ priv := (Grown.ne_of_fresh (hnew q hq) hlive).symm
    exact (Kind.write_of_ne _ _ _ hqp).trans (Kind.write_of_ne _ _ _ hqp)
  · exact h1.grown.fresh (hnew q hq)

/-! ## Paths -/

/-- A silent program ends a sequence. -/
theorem exact_silent {P M : HeapEvent → Prop} (x : KernelM α) (s : Kernel) :
    Exact P M (liftM x : TraceM α) s fun _ _ => True :=
  Exact.lift fun _ _ _ => trivial

/-- The buffer of an empty component is freed, also when there is none. -/
theorem exact_getNextPathPart {s s1 : Kernel} (h : Grown s s1) (path : List UInt8) :
    Exact Ok Met (Trace.getNextPathPart path) s1 fun _ s2 => Grown s s2 := by
  have hspec : Ensures (Trace.getNextPathPart path).erase s1 fun _ s2 => Grown s s2 := by
    rw [Trace.erase_getNextPathPart]
    exact getNextPathPart_grown h path
  refine (Exact.and_ensures (Q := fun _ _ => True) ?_ hspec).mono fun _ _ h => h.2
  unfold Trace.getNextPathPart
  refine Exact.bind_lift (fun _ _ hrun => kzalloc_cases h.wf hrun) fun part s2 halloc => ?_
  refine Exact.ite (fun _ => ?_) fun _ => Exact.ite (fun _ => exact_silent _ _) fun _ => ?_
  · by_cases h0 : part = 0
    · -- a null pointer is freed
      subst h0
      have hdead : Trace.isLive pathNameK 0 s2 = false := by
        rw [← Bool.not_eq_true, Trace.isLive_iff]
        rintro ⟨name, hname⟩
        exact (h.wf.kzalloc halloc).ne_zero hname rfl
      refine Exact.of_wrong ?_ ?_
      · refine exists_event_of_some rfl (exists_event_bind (exists_event_bind ?_))
        exact ⟨_, List.mem_singleton_self _, by simp [Ok, hdead]⟩
      · exact exists_event_bind ⟨_, List.mem_singleton_self _, fun hne => hne rfl⟩
    · refine (Exact.emit (Q := fun _ s' => s2 = s') (iff_of_true trivial h0) fun _ => rfl).bind ?_
      rintro _ _ rfl
      rw [Trace.kfreeUnchecked_of_ne h0]
      exact (exact_kfree quiet_met (halloc.live h0).2).bind fun _ _ _ => Exact.pure trivial
  · exact Exact.bind_lift (fun _ _ _ => trivial) fun _ _ (_ : True) => Exact.pure trivial

theorem exact_parsePathPart {s s1 : Kernel} (h : Grown s s1) {last_part : UInt32}
    (hlast : s.live last_part = none) (path : List UInt8) :
    Exact Ok Met (Trace.parsePathPart last_part path) s1 fun r s2 => Grown s s2 ∧ s.live r.1 = none := by
  have hspec : Ensures (Trace.parsePathPart last_part path).erase s1 fun r s2 =>
      Grown s s2 ∧ s.live r.1 = none := by
    rw [Trace.erase_parsePathPart]
    exact parsePathPart_grown h hlast path
  refine (Exact.and_ensures (Q := fun _ _ => True) ?_ hspec).mono fun _ _ h => h.2
  refine (exact_getNextPathPart h path).bind ?_
  rintro ⟨name, rest⟩ s2 -
  refine Exact.ite (fun _ => Exact.pure trivial) fun _ => ?_
  refine (exact_silent _ _).bind fun part s3 _ => (exact_silent _ _).bind fun _ s4 _ => ?_
  refine Exact.ite (fun _ => Exact.pure trivial) fun _ => ?_
  refine (exact_silent _ _).bind fun last s5 _ => (exact_silent _ _).bind fun _ s6 _ => ?_
  exact Exact.pure trivial

theorem exact_pathparserLoop {s : Kernel} : ∀ (fuel : Nat) (part : UInt32) (path : List UInt8)
    (s1 : Kernel), Grown s s1 → s.live part = none →
      Exact Ok Met (Trace.pathparserLoop fuel part path) s1 fun _ s2 => Grown s s2 := by
  intro fuel
  induction fuel with
  | zero => exact fun _ _ _ _ _ => Exact.lift Ensures.stop
  | succ fuel ih =>
      intro part path s1 h hpart
      refine Exact.ite (fun _ => Exact.pure h) fun _ => ?_
      refine (exact_parsePathPart h hpart path).bind ?_
      rintro ⟨next, rest⟩ s2 ⟨h2, hnext⟩
      exact ih next rest s2 h2 hnext

theorem exact_pathparserParse {s : Kernel} (hwf : s.WF) (path : List UInt8) :
    Exact Ok Met (Trace.pathparserParse path) s fun _ s' => Grown s s' := by
  have hrefl := Grown.refl hwf
  unfold Trace.pathparserParse
  refine Exact.ite (fun _ => Exact.pure hrefl) fun _ => Exact.ite (fun _ => Exact.pure hrefl) fun _ => ?_
  refine Exact.bind_lift (createRoot_new hwf _) ?_
  rintro root s1 ⟨h1, hroot, -⟩
  refine Exact.ite (fun _ => Exact.pure h1) fun _ => ?_
  refine (exact_parsePathPart h1 hwf.live_zero _).bind ?_
  rintro ⟨first, rest⟩ s2 ⟨h2, hfirst⟩
  refine Exact.ite (fun _ => Exact.pure h2) fun _ => ?_
  refine Exact.bind_lift (fun _ _ hrun => load_eq_some.mp hrun) ?_
  rintro r s2 ⟨hr, rfl⟩
  refine Exact.bind_of_some (store_of_live hr _) ?_
  refine (exact_parsePathPart (h2.write hroot hr _) hfirst _).bind ?_
  rintro ⟨part, rest⟩ s3 ⟨h3, hpart⟩
  exact (exact_pathparserLoop _ _ _ _ h3 hpart).bind fun _ s4 h4 => Exact.pure h4

end RasOS
