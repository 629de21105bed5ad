import RasOS.Fs.HeapUse

set_option autoImplicit false

/-! # Who owns what on the heap

What `fopen` allocates and does not free again belongs to the volume or to the file in a slot of the
descriptor table, and `fclose` frees what the file owns. So every pointer freed is live, as long as
opening comes to an end and no file that is closed lacks the copy of its entry. -/

namespace RasOS

open Machine Traced HeapEvent

variable {α : Type}

/-! ## The owners

The volume owns its private data and its root directory; a slot of the descriptor table owns the file
in it. The file of the last slot is never looked up, so nothing is asked of it. -/

/-- The volume is `none`, slot `i` of the table is `some i`. -/
def anchor (s : Kernel) : Option Nat → UInt32
  | none => s.disk.fs_private
  | some i => s.file_descriptors i

def Owner (s : Kernel) : Option Nat → Prop
  | none => s.disk.filesystem ≠ none
  | some i => i + 1 < RASOS_MAX_FILEDESCRIPTORS ∧ s.file_descriptors i ≠ 0

inductive OwnerHolds (s : Kernel) : Option Nat → List UInt32 → Prop
  | volume (priv : FatPrivate) (bytes : List UInt8)
      (hpriv : s.live (anchor s none) = some (fatPrivateK.inj priv))
      (hbytes : s.live priv.root_directory.item = some (dirItemsK.inj bytes)) :
      OwnerHolds s none [anchor s none, priv.root_directory.item]
  | file (i : Nat) (desc : FileDescriptor) (d : FatFileDescriptor) (objects : List UInt32)
      (hdesc : s.live (anchor s (some i)) = some (fileDescriptorK.inj desc))
      (hindex : desc.index = i + 1) (hfilesystem : desc.filesystem = some .fat16)
      (hpriv : s.live desc.private_data = some (fatFileDescriptorK.inj d))
      (hitem : ItemHolds s d.item objects) :
      OwnerHolds s (some i) (objects ++ [desc.private_data, anchor s (some i)])

namespace OwnerHolds

variable {s s' : Kernel} {o : Option Nat} {ptrs ptrs' : List UInt32}

theorem congr (h : OwnerHolds s o ptrs) (hanchor : anchor s' o = anchor s o)
    (hlive : ∀ q ∈ ptrs, s'.live q = s.live q) : OwnerHolds s' o ptrs := by
  cases h with
  | volume priv bytes hpriv hbytes =>
      rw [← hanchor]
      refine .volume priv bytes ?_ ((hlive _ (by simp)).trans hbytes)
      rw [hanchor]
      exact (hlive _ (by simp)).trans hpriv
  | file i desc d objects hdesc hindex hfilesystem hpriv hitem =>
      rw [← hanchor]
      refine .file i desc d objects ?_ hindex hfilesystem ((hlive _ (by simp)).trans hpriv)
        (hitem.congr fun q hq => hlive q (by simp [hq]))
      rw [hanchor]
      exact (hlive _ (by simp)).trans hdesc

/-- No owner owns a stream. -/
theorem object (h : OwnerHolds s o ptrs) :
    ∀ q ∈ ptrs, ∃ ob, s.live q = some ob ∧ ∀ st, ob ≠ .diskStream st := by
  intro q hq
  cases h with
  | volume priv bytes hpriv hbytes =>
      simp only [List.mem_cons, List.not_mem_nil, or_false] at hq
      rcases hq with rfl | rfl
      · exact ⟨_, hpriv, fun _ heq => Obj.noConfusion heq⟩
      · exact ⟨_, hbytes, fun _ heq => Obj.noConfusion heq⟩
  | file i desc d objects hdesc hindex hfilesystem hpriv hitem =>
      rcases List.mem_append.mp hq with hq | hq
      · obtain ⟨ob, hob, hkind⟩ := hitem.isItem q hq
        refine ⟨ob, hob, fun st heq => ?_⟩
        rw [heq] at hkind
        cases hkind
      · simp only [List.mem_cons, List.not_mem_nil, or_false] at hq
        rcases hq with rfl | rfl
        · exact ⟨_, hpriv, fun _ heq => Obj.noConfusion heq⟩
        · exact ⟨_, hdesc, fun _ heq => Obj.noConfusion heq⟩

theorem unique (h : OwnerHolds s o ptrs) (h' : OwnerHolds s o ptrs') (hwf : s.WF) : ptrs = ptrs' := by
  cases h with
  | volume priv bytes hpriv hbytes =>
      cases h' with
      | volume priv' bytes' hpriv' hbytes' =>
          rw [hpriv] at hpriv'
          rw [fatPrivateK.inj_injective (Option.some.inj hpriv')]
  | file i desc d objects hdesc _ _ hpriv hitem =>
      cases h' with
      | file _ desc' d' objects' hdesc' _ _ hpriv' hitem' =>
          rw [hdesc] at hdesc'
          obtain rfl := fileDescriptorK.inj_injective (Option.some.inj hdesc')
          rw [hpriv] at hpriv'
          obtain rfl := fatFileDescriptorK.inj_injective (Option.some.inj hpriv')
          rw [hitem.unique hitem' hwf]

end OwnerHolds

/-- Every owner holds what it should, and no two share an object. -/
structure Held (s : Kernel) : Prop where
  wf : s.WF
  holds : ∀ o, Owner s o → ∃ ptrs, OwnerHolds s o ptrs
  apart : ∀ o o' ptrs ptrs', o ≠ o' → Owner s o → Owner s o' → OwnerHolds s o ptrs → OwnerHolds s o' ptrs' →
    ∀ q ∈ ptrs, q ∉ ptrs'

namespace Held

variable {s s' : Kernel}

/-- Owners may go, those that stay keep what they hold. -/
theorem congr (h : Held s) (hwf : s'.WF) (howner : ∀ o, Owner s' o → Owner s o)
    (hanchor : ∀ o, Owner s' o → anchor s' o = anchor s o)
    (hkept : ∀ o ptrs, Owner s' o → OwnerHolds s o ptrs → ∀ q ∈ ptrs, s'.live q = s.live q) : Held s' := by
  have hholds : ∀ o, Owner s' o → ∃ ptrs, OwnerHolds s o ptrs ∧ OwnerHolds s' o ptrs := by
    intro o ho
    obtain ⟨ptrs, hptrs⟩ := h.holds o (howner o ho)
    exact ⟨ptrs, hptrs, hptrs.congr (hanchor o ho) (hkept o ptrs ho hptrs)⟩
  refine ⟨hwf, fun o ho => ?_, fun o o' ptrs ptrs' hne ho ho' hptrs hptrs' => ?_⟩
  · obtain ⟨ptrs, -, hptrs⟩ := hholds o ho
    exact ⟨ptrs, hptrs⟩
  · obtain ⟨old, hold, hnew⟩ := hholds o ho
    obtain ⟨old', hold', hnew'⟩ := hholds o' ho'
    rw [hptrs.unique hnew hwf, hptrs'.unique hnew' hwf]
    exact h.apart o o' old old' hne (howner o ho) (howner o' ho') hold hold'

theorem grown (h : Held s) (hgrown : Grown s s') : Held s' := by
  have hdisk : s'.disk = s.disk := congrArg Statics.disk hgrown.statics
  have hanchor : ∀ o, anchor s' o = anchor s o := by
    rintro (_ | i)
    · exact congrArg Disk.fs_private hdisk
    · exact congrFun hgrown.slots i
  refine h.congr hgrown.wf (fun o ho => ?_) (fun o _ => hanchor o) fun o ptrs _ hptrs q hq => ?_
  · cases o with
    | none => exact (congrArg Disk.filesystem hdisk).symm.trans_ne ho
    | some i => exact ⟨ho.1, (hanchor (some i)).symm.trans_ne ho.2⟩
  · obtain ⟨ob, hob, hst⟩ := hptrs.object q hq
    rw [hob]
    exact hgrown.object q ob hob hst

/-- A file has been put into a free slot. -/
theorem created (h : Held s) (hwf : s'.WF) (hdisk : s'.disk = s.disk) {slot : Nat} {desc : UInt32}
    (hslots : s'.file_descriptors = Function.update s.file_descriptors slot desc)
    (hkept : ∀ q o, s.live q = some o → (∀ st, o ≠ .diskStream st) → s'.live q = some o) {new : List UInt32}
    (hfile : OwnerHolds s' (some slot) new) (hnew : ∀ q ∈ new, s.live q = none) : Held s' := by
  have hanchor : ∀ o, o ≠ some slot → anchor s' o = anchor s o := by
    rintro (_ | i) hne
    · exact congrArg Disk.fs_private hdisk
    · refine (congrFun hslots i).trans (Function.update_of_ne ?_ ..)
      rintro rfl
      exact hne rfl
  have howner : ∀ o, o ≠ some slot → Owner s' o → Owner s o := by
    rintro (_ | i) hne ho
    · exact (congrArg Disk.filesystem hdisk).symm.trans_ne ho
    · exact ⟨ho.1, (hanchor (some i) hne).symm.trans_ne ho.2⟩
  have hold : ∀ o ptrs, OwnerHolds s o ptrs → ∀ q ∈ ptrs, s'.live q = s.live q := by
    intro o ptrs hptrs q hq
    obtain ⟨ob, hob, hst⟩ := hptrs.object q hq
    rw [hob]
    exact hkept q ob hob hst
  have hholds : ∀ o, o ≠ some slot → Owner s' o → ∃ ptrs, OwnerHolds s o ptrs ∧ OwnerHolds s' o ptrs := by
    intro o hne ho
    obtain ⟨ptrs, hptrs⟩ := h.holds o (howner o hne ho)
    exact ⟨ptrs, hptrs, hptrs.congr (hanchor o hne) (hold o ptrs hptrs)⟩
  -- what the new file owns was not there, what another owner owns was
  have hfresh : ∀ o ptrs, o ≠ some slot → Owner s' o → OwnerHolds s' o ptrs → ∀ q ∈ ptrs, q ∉ new := by
    intro o ptrs hne ho hptrs q hq hmem
    obtain ⟨old, hold, hold'⟩ := hholds o hne ho
    rw [hptrs.unique hold' hwf] at hq
    obtain ⟨ob, hob, -⟩ := hold.object q hq
    rw [hnew q hmem] at hob
    cases hob
  refine ⟨hwf, fun o ho => ?_, fun o o' ptrs ptrs' hne ho ho' hptrs hptrs' q hq hq' => ?_⟩
  · by_cases heq : o = some slot
    · exact ⟨new, heq ▸ hfile⟩
    · obtain ⟨ptrs, -, hptrs⟩ := hholds o heq ho
      exact ⟨ptrs, hptrs⟩
  · by_cases heq : o = some slot
    · subst heq
      rw [hptrs.unique hfile hwf] at hq
      exact hfresh o' ptrs' (Ne.symm hne) ho' hptrs' q hq' hq
    · by_cases heq' : o' = some slot
      · subst heq'
        rw [hptrs'.unique hfile hwf] at hq'
        exact hfresh o ptrs heq ho hptrs q hq hq'
      · obtain ⟨old, hold, hold'⟩ := hholds o heq ho
        obtain ⟨old', hold1, hold1'⟩ := hholds o' heq' ho'
        rw [hptrs.unique hold' hwf] at hq
        rw [hptrs'.unique hold1' hwf] at hq'
        exact h.apart o o' old old' hne (howner o heq ho) (howner o' heq' ho') hold hold1 q hq hq'

/-- The file in a slot has been freed. -/
theorem closed (h : Held s) {slot : Nat} (hslot : Owner s (some slot)) {ptrs : List UInt32}
    (hptrs : OwnerHolds s (some slot) ptrs) (hall : AllLive s ptrs) :
    Held { freedAll ptrs s with
      file_descriptors := Function.update s.file_descriptors slot 0 } := by
  generalize ht : ({ freedAll ptrs s with
    file_descriptors := Function.update s.file_descriptors slot 0 } : Kernel) = t
  have hdisk : t.disk = s.disk := by
    rw [← ht]
    exact congrArg Statics.disk (freedAll_statics ptrs s)
  have hlive : t.live = (freedAll ptrs s).live := by rw [← ht]
  have hslots : t.file_descriptors = Function.update s.file_descriptors slot 0 := by rw [← ht]
  have hne : ∀ o, Owner t o → o ≠ some slot := by
    rintro o ho rfl
    refine ho.2 ?_
    rw [hslots, Function.update_self]
  have hanchor : ∀ o, Owner t o → anchor t o = anchor s o := by
    rintro (_ | i) ho
    · exact congrArg Disk.fs_private hdisk
    · refine (congrFun hslots i).trans (Function.update_of_ne ?_ ..)
      rintro rfl
      exact hne _ ho rfl
  have howner : ∀ o, Owner t o → Owner s o := by
    rintro (_ | i) ho
    · exact (congrArg Disk.filesystem hdisk).symm.trans_ne ho
    · exact ⟨ho.1, (hanchor (some i) ho).symm.trans_ne ho.2⟩
  have hwf : t.WF := by
    rw [← ht]
    exact (h.wf.freedAll hall).of_live rfl fun _ o ho => ⟨o, ho⟩
  refine h.congr hwf howner hanchor fun o ptrs' ho hptrs' q hq => ?_
  rw [hlive, freedAll_live, if_neg]
  exact h.apart o (some slot) ptrs' ptrs (hne o ho) (howner o ho) hslot hptrs' hptrs q hq

end Held

/-! ## Calls -/

theorem Held.rootLive {s : Kernel} (h : Held s) (hfs : s.disk.filesystem ≠ none) : RootLive s := by
  obtain ⟨ptrs, hptrs⟩ := h.holds none hfs
  cases hptrs with
  | volume priv bytes hpriv hbytes => exact ⟨priv, bytes, hpriv, hbytes⟩

/-- A new descriptor has been filled with new private data. -/
theorem Held.opened {s1 s2 s3 : Kernel} {priv item descriptor : UInt32} {ptrs : List UInt32} {slot : Nat}
    {desc : FileDescriptor} (h : Held s1) (h2 : Grown s1 s2)
    (hnew : HeldPrivate s1 priv s2 item ptrs) (hdesc : NewDescriptor s2 slot descriptor s3)
    (hindex : desc.index = slot + 1) (hfilesystem : desc.filesystem = some .fat16)
    (hpriv : desc.private_data = priv) :
    Held { s3 with live := fileDescriptorK.write s3.live descriptor desc } := by
  generalize ht : ({ s3 with live := fileDescriptorK.write s3.live descriptor desc } : Kernel) = t
  have hwf : t.WF := by
    rw [← ht]
    exact hdesc.wf.write hdesc.live _
  have hdisk : t.disk = s1.disk := by
    rw [← ht]
    exact congrArg Statics.disk (hdesc.statics.trans h2.statics)
  have hslots : t.file_descriptors = Function.update s1.file_descriptors slot descriptor := by
    rw [← ht, ← h2.slots]
    exact hdesc.slots
  have hlive : t.live descriptor = some (fileDescriptorK.inj desc) := by
    rw [← ht]
    exact Kind.write_self ..
  have hkeep : ∀ q o, s2.live q = some o → t.live q = s2.live q := by
    intro q o hq
    have hne := Grown.ne_of_fresh hdesc.fresh hq
    rw [← ht]
    exact (Kind.write_of_ne _ _ _ hne).trans (hdesc.others q hne)
  have hanchor : anchor t (some slot) = descriptor := by
    rw [anchor, hslots, Function.update_self]
  -- what the new file consists of
  have hfile : OwnerHolds t (some slot) (ptrs ++ [priv, descriptor]) := by
    rw [← hpriv, ← hanchor]
    refine .file slot desc { item := item, pos := 0 } ptrs (hanchor ▸ hlive) hindex hfilesystem ?_ ?_
    · rw [hpriv, hkeep _ _ hnew.live]
      exact hnew.live
    · refine hnew.holds.congr fun q hq => ?_
      obtain ⟨o, ho, -⟩ := hnew.holds.isItem q hq
      exact hkeep q o ho
  refine h.created hwf hdisk hslots (fun q o hq hst => ?_) hfile fun q hq => ?_
  · have hq2 := h2.object q o hq hst
    exact (hkeep q o hq2).trans hq2
  · rcases List.mem_append.mp hq with hq | hq
    · exact hnew.new q hq
    · simp only [List.mem_cons, List.not_mem_nil, or_false] at hq
      rcases hq with rfl | rfl
      · exact hnew.fresh
      · exact h2.fresh hdesc.fresh

theorem exact_fopen (filename mode_str : List UInt8) {s : Kernel} (h : Held s) :
    Exact Ok Met (Trace.fopen filename mode_str) s fun _ s' => Held s' := by
  refine Exact.bind ?_ fun res s' hs' => Exact.pure hs'
  unfold Trace.fopenRes
  refine (exact_pathparserParse h.wf filename).bind fun root_path s1 h1 => ?_
  have hheld := h.grown h1
  refine Exact.ite (fun _ => Exact.pure hheld) fun _ => ?_
  refine Exact.bind_lift (fun _ _ hrun => load_eq_some.mp hrun) ?_
  rintro root s1 ⟨-, rfl⟩
  refine Exact.ite (fun _ => Exact.pure hheld) fun _ => Exact.ite (fun _ => Exact.pure hheld) fun _ => ?_
  refine Exact.bind_of_some (fetch_apply _ _) (Exact.ite (fun _ => Exact.pure hheld) fun hfs => ?_)
  refine Exact.ite (fun _ => Exact.pure hheld) fun _ => ?_
  refine (exact_open root.first _ hheld.wf (hheld.rootLive hfs)).bind ?_
  rintro priv s2 ⟨h2, hpriv⟩
  have hheld2 := hheld.grown h2
  refine Exact.ite (fun _ => Exact.pure hheld2) fun hiserr => ?_
  obtain ⟨item, ptrs, hnew⟩ := hpriv (Bool.eq_false_iff.mpr hiserr)
  refine Exact.bind_lift (fileNewDescriptorLoop_spec RASOS_MAX_FILEDESCRIPTORS 0 s2 h2.wf
    fun j hj => absurd hj (Nat.not_lt_zero j)) ?_
  rintro ⟨res, descriptor⟩ s3 (⟨hneg, rfl, -⟩ | ⟨hok, slot, -, -, hdesc⟩)
  · exact Exact.ite (fun _ => Exact.pure hheld2) fun hpos => absurd hneg hpos
  obtain rfl : res = OK := hok
  refine Exact.ite (fun hneg => absurd hneg (by decide)) fun _ => ?_
  refine Exact.bind_of_some (load_of_live hdesc.live) ?_
  refine Exact.bind_of_some (store_of_live hdesc.live _) (Exact.pure ?_)
  exact hheld.opened h2 hnew hdesc rfl (filesystem_of_ne_none hfs) rfl

/-! ## Closing -/

/-- If the open file `fd` is not a directory, there is a copy of its entry. -/
def CopyHeld (fd : Int) (s : Kernel) : Prop :=
  ∀ descriptor desc d it, fileGetDescriptor fd s = some (descriptor, s) →
    s.live descriptor = some (fileDescriptorK.inj desc) →
    s.live desc.private_data = some (fatFileDescriptorK.inj d) →
    s.live d.item = some (fatItemK.inj it) → it.type = FAT_ITEM_TYPE_FILE → it.item ≠ 0

/-- There is no descriptor, or that of a slot in use. -/
theorem fileGetDescriptor_cases (fd : Int) (s : Kernel) :
    fileGetDescriptor fd s = some (0, s) ∨
      ∃ i, Owner s (some i) ∧ fileGetDescriptor fd s = some (s.file_descriptors i, s) := by
  unfold fileGetDescriptor
  split
  · exact Or.inl rfl
  · rw [fetch_apply]
    by_cases hslot : s.file_descriptors (fd - 1).toNat = 0
    · exact Or.inl (by rw [hslot])
    · exact Or.inr ⟨(fd - 1).toNat, ⟨by omega, hslot⟩, rfl⟩

section Close

variable {s : Kernel} {fd : Int} {i : Nat} {desc : FileDescriptor} {d : FatFileDescriptor}
  {objects : List UInt32}

/-- Everything that closing a file frees is live. -/
theorem exact_fclose {descriptor : UInt32} (h : DescriptorOwns s descriptor desc d objects)
    (hfd : fileGetDescriptor fd s = some (descriptor, s)) (hne : descriptor ≠ 0) :
    Exact Ok (fun _ => True) (Trace.fclose fd) s fun _ _ => True := by
  have hwith : Trace.withFilesystem desc (Trace.fat16Close desc.private_data) =
      Trace.fat16Close desc.private_data := by
    rw [Trace.withFilesystem, h.filesystem]
  have hclose : Exact Ok (fun _ => True) (Trace.fat16Close desc.private_data) s fun _ s' =>
      freed (freedAll objects s) desc.private_data = s' := by
    refine Exact.bind_of_some (load_of_live h.private_data) ?_
    refine (exact_fatItemFree quiet_true h.item).bind ?_
    rintro _ _ rfl
    refine (exact_kfree quiet_true h.private_left).bind ?_
    rintro _ _ rfl
    exact Exact.pure rfl
  refine Exact.bind_of_some hfd (Exact.ite (fun h0 => absurd h0 hne) fun _ => ?_)
  refine Exact.bind_of_some (load_of_live h.live) ?_
  rw [hwith]
  refine hclose.bind ?_
  rintro res _ rfl
  refine Exact.ite (fun _ => Exact.bind (Q := fun _ _ => True) ?_ fun _ _ _ => Exact.pure trivial)
    fun _ => Exact.pure trivial
  refine Exact.bind_of_some (load_of_live h.descriptor_left) (Exact.bind_of_some (assign_apply _ _) ?_)
  refine (exact_kfree (a := desc) quiet_true ?_).mono fun _ _ _ => trivial
  exact h.descriptor_left

/-- What is reported while the item is freed is reported by `fclose`. -/
theorem exists_event_fclose {descriptor : UInt32} {P : HeapEvent → Prop} (hwf : s.WF)
    (hfd : fileGetDescriptor fd s = some (descriptor, s))
    (hdesc : s.live descriptor = some (fileDescriptorK.inj desc))
    (hfilesystem : desc.filesystem = some .fat16)
    (hpriv : s.live desc.private_data = some (fatFileDescriptorK.inj d))
    (hfree : ∃ e ∈ (Trace.fat16FatItemFree d.item).events s, P e) :
    ∃ e ∈ (Trace.fclose fd).events s, P e := by
  have hclose : ∃ e ∈ (Trace.fat16Close desc.private_data).events s, P e :=
    exists_event_of_some (load_of_live hpriv) (exists_event_bind hfree)
  refine exists_event_of_some hfd ?_
  rw [if_neg (hwf.ne_zero hdesc)]
  refine exists_event_of_some (load_of_live hdesc) (exists_event_bind ?_)
  rw [Trace.withFilesystem, hfilesystem]
  exact hclose

theorem read_item {item : UInt32} {it : FatItem} (hit : s.live item = some (fatItemK.inj it)) :
    (Trace.read fatItemK item).erase s = some (it, s) := by
  rw [Trace.erase_read]
  exact load_of_live hit

/-- The copy that is missing is freed all the same. -/
theorem fatItemFree_uncopied {item : UInt32} {it : FatItem} (hwf : s.WF)
    (hit : s.live item = some (fatItemK.inj it)) (htype : it.type = FAT_ITEM_TYPE_FILE)
    (h0 : it.item = 0) : ∃ e ∈ (Trace.fat16FatItemFree item).events s, ¬ e.Ok := by
  have hdead : Trace.isLive dirItemsK it.item s = false := by
    rw [← Bool.not_eq_true, Trace.isLive_iff, h0]
    rintro ⟨bytes, hbytes⟩
    exact hwf.ne_zero hbytes rfl
  refine exists_event_of_some (read_item hit) ?_
  rw [if_neg (by rw [htype]; decide), if_pos htype]
  refine exists_event_bind (exists_event_bind ?_)
  exact ⟨_, List.mem_singleton_self _, by simp [Ok, hdead]⟩

/-- A directory that has been freed is read to be freed again. -/
theorem fatItemFree_dangling {item : UInt32} {it : FatItem} (hit : s.live item = some (fatItemK.inj it))
    (htype : it.type = FAT_ITEM_TYPE_DIRECTORY) (hne : it.item ≠ 0)
    (hdead : Trace.isLive fatDirectoryK it.item s = false) :
    ∃ e ∈ (Trace.fat16FatItemFree item).events s, e = .read it.item false := by
  refine exists_event_of_some (read_item hit) ?_
  rw [if_pos htype]
  refine exists_event_bind ?_
  unfold Trace.fat16FreeDirectory
  rw [if_neg hne]
  refine exists_event_bind (exists_event_bind ?_)
  exact ⟨_, List.mem_singleton_self _, congrArg _ hdead⟩

end Close

theorem fclose_ok_iff {s : Kernel} (h : Held s) (fd : Int) :
    (∀ e ∈ (Trace.fclose fd).events s, e.Ok) ↔ CopyHeld fd s := by
  rcases fileGetDescriptor_cases fd s with hget | ⟨i, howner, hget⟩
  · -- nothing is closed
    have hsilent : Exact Ok (fun _ => True) (Trace.fclose fd) s fun _ _ => True :=
      Exact.bind_of_some hget (Exact.ite (fun _ => Exact.pure trivial) fun hne => absurd rfl hne)
    refine iff_of_true (hsilent.1.mpr fun _ _ => trivial) ?_
    intro descriptor desc d it hget' hdesc
    rw [hget] at hget'
    obtain ⟨rfl, -⟩ := Prod.mk.inj (Option.some.inj hget')
    exact absurd rfl (h.wf.ne_zero hdesc)
  · obtain ⟨ptrs, hptrs⟩ := h.holds _ howner
    cases hptrs with
    | file _ desc d objects hdesc hindex hfilesystem hpriv hitem =>
        have hsame : ∀ descriptor desc' d' it, fileGetDescriptor fd s = some (descriptor, s) →
            s.live descriptor = some (fileDescriptorK.inj desc') →
            s.live desc'.private_data = some (fatFileDescriptorK.inj d') →
            s.live d'.item = some (fatItemK.inj it) → s.live d.item = some (fatItemK.inj it) := by
          intro descriptor desc' d' it hget' hdesc' hpriv' hit
          rw [hget] at hget'
          obtain ⟨rfl, -⟩ := Prod.mk.inj (Option.some.inj hget')
          obtain rfl := fileDescriptorK.inj_injective (Option.some.inj (hdesc.symm.trans hdesc'))
          obtain rfl := fatFileDescriptorK.inj_injective (Option.some.inj (hpriv.symm.trans hpriv'))
          exact hit
        cases hitem with
        | owns _ hitem =>
            have howns : DescriptorOwns s (s.file_descriptors i) desc d objects :=
              ⟨hdesc, hfilesystem, hpriv, hitem⟩
            -- all it consists of is freed
            refine iff_of_true ((exact_fclose howns hget howner.2).1.mpr fun _ _ => trivial) ?_
            intro descriptor desc' d' it hget' hdesc' hpriv' hit htype
            exact ItemHolds.not_uncopied hitem h.wf (hsame _ _ _ _ hget' hdesc' hpriv' hit) htype
        | uncopied it hit htype h0 =>
            -- the null of the missing copy is handed to `kfree`
            refine iff_of_false (fun hall => ?_) fun hcopy => ?_
            · obtain ⟨e, he, hbad⟩ := exists_event_fclose h.wf hget hdesc hfilesystem hpriv
                (fatItemFree_uncopied h.wf hit htype h0)
              exact hbad (hall e he)
            · exact hcopy _ desc d it hget hdesc hpriv hit htype h0

/-- **With room for it everything that opening a file frees and reads is live.** -/
theorem sound_fopen {s : Kernel} {filename mode_str : List UInt8} {out : WalkEnd}
    (h : Opening s filename mode_str out) (hwf : s.WF) :
    Sound Met (Trace.fopen filename mode_str) s fun _ _ => True := by
  refine Sound.bind (Q := fun _ _ => True) ?_ fun _ _ _ => Sound.pure trivial
  obtain ⟨r, s1, hparse⟩ := parses hwf h.buffer
  unfold Trace.fopenRes
  refine Sound.bind_of_run hparse.run hparse.met ?_
  cases h with
  | unwalked hbuffer hun =>
      -- one of the checks fails, at the latest that of the mode
      cases hparse.root with
      | null h0 hnot =>
          rw [if_pos h0]
          exact Sound.pure trivial
      | made root hvalid hparts hroot hdrive hfirst hchain =>
          rw [if_neg (hparse.grown.wf.ne_zero hroot)]
          refine Sound.bind_of_some (load_of_live hroot) ?_
          rw [if_neg hfirst]
          split
          · exact Sound.pure trivial
          rename_i hget
          refine Sound.bind_of_some (fetch_apply _ _) ?_
          split
          · exact Sound.pure trivial
          rename_i hfs
          dsimp only
          split
          · exact Sound.pure trivial
          have hrefused := sound_fat16Open_refused hparse.grown.wf root.first
            (hparse.refused hun hvalid hparts hdrive hget hfs)
          refine hrefused.bind fun priv s2 herr => ?_
          rw [if_pos herr]
          exact Sound.pure trivial
  | walked image priv L cost out hwalked htree hwalk hout hroom =>
      obtain ⟨htree1, hroom1, root, hr, hroot, hfirst, hget, hfs, hmode, hchain, hshort⟩ :=
        hparse.reaches hwalked htree hroom
      have hspec : Ensures (Trace.fat16Open root.first FILE_MODE_READ).erase s1 fun _ s2 => Grown s1 s2 := by
        rw [Trace.erase_fat16Open]
        exact (fat16Open_new _ _ hparse.grown.wf).mono fun _ _ h => h.1
      rw [if_neg hr]
      refine Sound.bind_of_some (load_of_live hroot) ?_
      rw [if_neg hfirst, hget, if_neg Bool.false_ne_true]
      refine Sound.bind_of_some (fetch_apply _ _) ?_
      rw [if_neg hfs]
      dsimp only
      rw [hmode, if_neg (by decide)]
      refine ((sound_fat16Open htree1 hchain hshort hwalk hout hroom1).and_ensures hspec).bind ?_
      rintro ptr s2 ⟨⟨hroom2, hmade⟩, hgrown2⟩
      split
      · exact Sound.pure trivial
      refine Sound.bind_lift (total_fileNewDescriptor (k := 0) hgrown2.wf hroom2) ?_
      rintro ⟨res, descriptor⟩ s3 ⟨-, hnew⟩
      dsimp only
      split
      · exact Sound.pure trivial
      rename_i hpos
      obtain ⟨d, hd⟩ := hnew.resolve_left hpos
      refine Sound.bind_of_some (load_of_live hd) (Sound.bind_of_some (store_of_live hd _) ?_)
      exact Sound.pure trivial

theorem Held.fclose {s : Kernel} (h : Held s) {fd : Int} (hcopy : CopyHeld fd s) :
    Total (RasOS.fclose fd) s fun _ s' => Held s' := by
  rcases fileGetDescriptor_cases fd s with hget | ⟨i, howner, hget⟩
  · unfold RasOS.fclose
    rw [total_bind_of_some hget, if_pos rfl]
    exact total_pure.mpr h
  · obtain ⟨ptrs, hptrs⟩ := h.holds _ howner
    cases id hptrs with
    | file _ desc d objects hdesc hindex hfilesystem hpriv hitem =>
        cases hitem with
        | uncopied it hit htype h0 => exact absurd h0 (hcopy _ desc d it hget hdesc hpriv hit htype)
        | owns _ hitem =>
            have howns : DescriptorOwns s (s.file_descriptors i) desc d objects :=
              ⟨hdesc, hfilesystem, hpriv, hitem⟩
            have hslot : (desc.index - 1).toNat = i := by omega
            rw [total_of_some (howns.fclose hget howner.2), hslot]
            exact h.closed howner hptrs howns.allLive

/-! ## Runs -/

/-- A call as a step of the kernel. -/
def tableStep (s : Kernel) : TableCall → Option Kernel
  | .fopen filename mode_str => (fopen filename mode_str s).map Prod.snd
  | .fclose fd => (fclose fd s).map Prod.snd

/-- What a call does with the heap. -/
def tableEvents (s : Kernel) : TableCall → List HeapEvent
  | .fopen filename mode_str => (Trace.fopen filename mode_str).events s
  | .fclose fd => (Trace.fclose fd).events s

/-- The call returns, every pointer freed is live, every directory or item read is null or live, and so is
every directory that `fat16_load_fat_directory` returns. -/
def HeapSafe (s : Kernel) (call : TableCall) : Prop :=
  (∃ s', tableStep s call = some s') ∧ ∀ e ∈ tableEvents s call, e.Ok

/-- Opening a file comes to an end; a file that is closed has the copy of its entry. -/
def Handled (s : Kernel) : TableCall → Prop
  | .fopen filename mode_str => ∃ out, Opening s filename mode_str out
  | .fclose fd => CopyHeld fd s

theorem Held.step {s s' : Kernel} (h : Held s) {call : TableCall} (hsafe : HeapSafe s call)
    (hstep : tableStep s call = some s') : Held s' := by
  obtain ⟨-, hok⟩ := hsafe
  cases call with
  | fopen filename mode_str =>
      obtain ⟨⟨fd, t⟩, hrun, rfl⟩ := Option.map_eq_some_iff.mp hstep
      have hexact := exact_fopen filename mode_str h
      refine hexact.2 (hexact.1.mp hok) fd t ?_
      rw [Trace.erase_fopen]
      exact hrun
  | fclose fd =>
      obtain ⟨⟨res, t⟩, hrun, rfl⟩ := Option.map_eq_some_iff.mp hstep
      exact (h.fclose ((fclose_ok_iff h fd).mp hok)).ensures res t hrun

/-- Where opening comes to an end a call is safe exactly when it is handled. -/
theorem heapSafe_iff {s : Kernel} (h : Held s) {call : TableCall} (hends : ComesToEnd s call) :
    HeapSafe s call ↔ Handled s call := by
  cases call with
  | fopen filename mode_str =>
      refine iff_of_true ?_ hends
      obtain ⟨out, hopening⟩ := hends
      obtain ⟨⟨fd, s', hrun, -⟩, hmet⟩ := sound_fopen hopening h.wf
      rw [Trace.erase_fopen] at hrun
      refine ⟨⟨s', ?_⟩, (exact_fopen filename mode_str h).1.mpr hmet⟩
      rw [tableStep, hrun, Option.map_some]
  | fclose fd =>
      refine ⟨fun hsafe => (fclose_ok_iff h fd).mp hsafe.2, fun hcopy => ⟨?_, (fclose_ok_iff h fd).mpr hcopy⟩⟩
      obtain ⟨res, s', hrun, -⟩ := h.fclose hcopy
      exact ⟨s', by rw [tableStep, hrun, Option.map_some]⟩

theorem Handled.comes {s : Kernel} {call : TableCall} (h : Handled s call) : ComesToEnd s call := by
  cases call with
  | fopen filename mode_str => exact h
  | fclose fd => trivial

/-- **The heap is used safely as long as opening comes to an end and no file lacks its copy.** For every run
of `fopen` and `fclose`, from any state in which the volume and the open files hold what they should: when
every `fopen` comes to an end and every file that is closed has the copy of its entry, every call returns,
each pointer it frees is live, each directory or item it reads is null or live, and each directory returned
by `fat16_load_fat_directory` is null or live. Among runs whose `fopen`s come to an end this is so only
then. -/
theorem heapUse_run_iff {s : Kernel} (h : Held s) (calls : List TableCall) :
    (AllCalls tableStep Handled s calls → AllCalls tableStep HeapSafe s calls) ∧
      (AllCalls tableStep ComesToEnd s calls → AllCalls tableStep HeapSafe s calls →
        AllCalls tableStep Handled s calls) := by
  constructor
  · exact AllCalls.of_invariant (fun s call h hcall => (heapSafe_iff h hcall.comes).mpr hcall)
      (fun s call s' h hcall hstep => h.step ((heapSafe_iff h hcall.comes).mpr hcall) hstep) calls s h
  · intro hends hsafe
    exact AllCalls.of_invariant (fun s call h hcall => (heapSafe_iff h hcall.1).mp hcall.2)
      (fun s call s' h hcall hstep => h.step hcall.2 hstep) calls s h (hends.and hsafe)

/-- Nothing is open. -/
theorem Held.empty {s : Kernel} (hwf : s.WF) (hroot : RootLive s) (hempty : ∀ i, s.file_descriptors i = 0) :
    Held s := by
  have hnone : ∀ o, Owner s o → o = none := by
    rintro (_ | i) ho
    · rfl
    · exact absurd (hempty i) ho.2
  refine ⟨hwf, fun o ho => ?_, fun o o' _ _ hne ho ho' => ?_⟩
  · obtain ⟨priv, bytes, hpriv, hbytes⟩ := hroot
    rw [hnone o ho]
    exact ⟨_, .volume priv bytes hpriv hbytes⟩
  · exact absurd ((hnone o ho).trans (hnone o' ho').symm) hne

theorem treeKernel_root : RootLive treeKernel := by
  refine ⟨oneFilePrivate, treeRoot, treeKernel_live 0 (by decide) (by decide), ?_⟩
  exact Function.update_self (blockAddress 4) _ (directoryKernel treeData).live

/-- The file `B` is open then, with a copy of its entry. -/
theorem treeKernel_open : Total (fopen (renderPath 0 [[0x41], [0x42]]) [0x72]) treeKernel fun fd s => fd = 1 ∧
    s.file_descriptors 0 = blockAddress 11 ∧
    fileDescriptorK.read s.live (blockAddress 11) =
      some { index := 1, filesystem := some .fat16, private_data := blockAddress 10 } ∧
    fatFileDescriptorK.read s.live (blockAddress 10) = some { item := blockAddress 14, pos := 0 } ∧
    fatItemK.read s.live (blockAddress 14) =
      some { item := blockAddress 15, type := FAT_ITEM_TYPE_FILE } := by decide +kernel

/-- Opening `0:/A/B` and closing it. -/
theorem heapUse_AB :
    AllCalls tableStep Handled treeKernel [.fopen (renderPath 0 [[0x41], [0x42]]) [0x72], .fclose 1] ∧
      AllCalls tableStep HeapSafe treeKernel [.fopen (renderPath 0 [[0x41], [0x42]]) [0x72], .fclose 1] := by
  have hhandled : AllCalls tableStep Handled treeKernel
      [.fopen (renderPath 0 [[0x41], [0x42]]) [0x72], .fclose 1] := by
    refine ⟨⟨_, treeKernel_opening⟩, fun s' hstep => ⟨?_, fun _ _ => trivial⟩⟩
    obtain ⟨fd, s, hrun, -, hslot, hdesc, hpriv, hitem⟩ := treeKernel_open
    rw [tableStep, hrun, Option.map_some] at hstep
    obtain rfl := Option.some.inj hstep
    intro descriptor desc d it hget hdesc' hpriv' hitem' _
    have hfirst : fileGetDescriptor 1 s = some (blockAddress 11, s) := by
      rw [← hslot]
      rfl
    obtain ⟨rfl, -⟩ := Prod.mk.inj (Option.some.inj (hfirst.symm.trans hget))
    obtain rfl := fileDescriptorK.inj_injective (Option.some.inj ((Kind.read_eq_some.mp hdesc).symm.trans hdesc'))
    obtain rfl := fatFileDescriptorK.inj_injective (Option.some.inj ((Kind.read_eq_some.mp hpriv).symm.trans hpriv'))
    obtain rfl := fatItemK.inj_injective (Option.some.inj ((Kind.read_eq_some.mp hitem).symm.trans hitem'))
    decide
  exact ⟨hhandled, (heapUse_run_iff (Held.empty treeKernel_wf treeKernel_root treeKernel_empty) _).1 hhandled⟩

/-! ## A broken chain -/

/-- The volume of `treeKernel`, but the subdirectory `A` has 17 entries and its chain ends after 16. -/
def brokenKernel : Kernel :=
  { treeKernel with
    drive := fun _ sector => some (if sector = 2 then fun i => treeRoot.getD i 0 else
      oneFileImage 600 (fun _ => 0) (fun cluster i =>
        if cluster = 2 ∨ cluster = 3 ∧ i < 32 then 0x41 else 0) sector) }

theorem brokenKernel_held : Held brokenKernel := by
  have hlive : brokenKernel.live = treeKernel.live := rfl
  have hdisk : brokenKernel.disk = treeKernel.disk := rfl
  have hslots : brokenKernel.file_descriptors = treeKernel.file_descriptors := rfl
  refine Held.empty (treeKernel_wf.of_live rfl fun _ o ho => ⟨o, ho⟩) ?_ fun i => ?_
  · rw [RootLive, hlive, hdisk]
    exact treeKernel_root
  · rw [hslots]
    exact treeKernel_empty i

/-- The file that is open then: its item points to the block of the directory, where the descriptor is
now. -/
theorem brokenKernel_open : Total (fopen pathA [0x72]) brokenKernel fun fd s => fd = 1 ∧
    s.file_descriptors 0 = blockAddress 10 ∧
    fileDescriptorK.read s.live (blockAddress 10) =
      some { index := 1, filesystem := some .fat16, private_data := blockAddress 8 } ∧
    fatFileDescriptorK.read s.live (blockAddress 8) = some { item := blockAddress 9, pos := 0 } ∧
    fatItemK.read s.live (blockAddress 9) =
      some { item := blockAddress 10, type := FAT_ITEM_TYPE_DIRECTORY } ∧
    Trace.isLive fatDirectoryK (blockAddress 10) s = false := by decide +kernel

/-- Opening `A` returns a descriptor of a directory that has been freed, and closing it reads the
directory to free it again. -/
theorem heapUse_broken : Held brokenKernel ∧
    HeapEvent.loaded (- EIO) (blockAddress 10) false ∈
      tableEvents brokenKernel (.fopen pathA [0x72]) ∧
    Total (fopen pathA [0x72]) brokenKernel (fun fd s =>
      fd = 1 ∧ HeapEvent.read (blockAddress 10) false ∈ tableEvents s (.fclose 1)) ∧
    ¬ AllCalls tableStep HeapSafe brokenKernel [.fopen pathA [0x72], .fclose 1] := by
  have hloaded : HeapEvent.loaded (- EIO) (blockAddress 10) false ∈
      tableEvents brokenKernel (.fopen pathA [0x72]) := by decide +kernel
  have hdead : ¬ (HeapEvent.loaded (- EIO) (blockAddress 10) false).Ok := by decide
  obtain ⟨fd, s, hrun, rfl, hslot, hdesc, hpriv, hitem, hfreed⟩ := brokenKernel_open
  have hwf : s.WF := by
    have hrest := (keepsRest_rules.fopen pathA [0x72]).ensures brokenKernel _ _ hrun
    exact (hrest brokenKernel_held.wf).wf
  have hfd : fileGetDescriptor 1 s = some (blockAddress 10, s) := by
    rw [← hslot]
    rfl
  obtain ⟨e, he, rfl⟩ := exists_event_fclose hwf hfd (Kind.read_eq_some.mp hdesc) rfl
    (Kind.read_eq_some.mp hpriv)
    (fatItemFree_dangling (Kind.read_eq_some.mp hitem) rfl (by decide) hfreed)
  exact ⟨brokenKernel_held, hloaded, ⟨1, s, hrun, rfl, he⟩, fun hall => hdead (hall.1.2 _ hloaded)⟩

end RasOS
