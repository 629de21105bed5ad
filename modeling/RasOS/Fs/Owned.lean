import RasOS.Fs.Lookup

set_option autoImplicit false

/-! # What an open file owns

The objects behind a descriptor are computed from the state: the descriptor itself, the private data
of the file system, the item, and the directory or the entry the item holds. Closing a file frees
exactly these, each once. -/

namespace RasOS

open Machine

variable {α : Type}

/-! ## Freeing a list of objects -/

/-- The state after `kfree` of each pointer of the list, the first one first. -/
def freedAll : List UInt32 → Kernel → Kernel
  | [], s => s
  | ptr :: ptrs, s => freedAll ptrs (freed s ptr)

theorem freedAll_live (ptrs : List UInt32) (s : Kernel) (q : UInt32) :
    (freedAll ptrs s).live q = if q ∈ ptrs then none else s.live q := by
  induction ptrs generalizing s with
  | nil => simp [freedAll]
  | cons ptr ptrs ih =>
      rw [freedAll, ih]
      by_cases hq : q = ptr
      · subst hq
        simp [freed]
      · simp [hq, freed_live_of_ne]

theorem freedAll_statics (ptrs : List UInt32) (s : Kernel) :
    (freedAll ptrs s).statics = s.statics := by
  induction ptrs generalizing s with
  | nil => rfl
  | cons ptr ptrs ih => exact ih _

theorem freedAll_slots (ptrs : List UInt32) (s : Kernel) :
    (freedAll ptrs s).file_descriptors = s.file_descriptors := by
  induction ptrs generalizing s with
  | nil => rfl
  | cons ptr ptrs ih => exact ih _

theorem freedAll_append (ptrs ptrs' : List UInt32) (s : Kernel) :
    freedAll (ptrs ++ ptrs') s = freedAll ptrs' (freedAll ptrs s) := by
  induction ptrs generalizing s with
  | nil => rfl
  | cons ptr ptrs ih => exact ih _

/-- Different live objects. -/
structure AllLive (s : Kernel) (ptrs : List UInt32) : Prop where
  nodup : ptrs.Nodup
  live : ∀ ptr ∈ ptrs, ∃ o, s.live ptr = some o

theorem Kernel.WF.freedAll {s : Kernel} (hwf : s.WF) {ptrs : List UInt32} (h : AllLive s ptrs) :
    (freedAll ptrs s).WF := by
  induction ptrs generalizing s with
  | nil => exact hwf
  | cons ptr ptrs ih =>
      obtain ⟨hnot, hnodup⟩ := List.nodup_cons.mp h.nodup
      obtain ⟨o, ho⟩ := h.live ptr List.mem_cons_self
      refine ih (hwf.free ho) ⟨hnodup, fun q hq => ?_⟩
      have hne : q ≠ ptr := by
        rintro rfl
        exact hnot hq
      obtain ⟨o', ho'⟩ := h.live q (List.mem_cons_of_mem _ hq)
      exact ⟨o', (freed_live_of_ne s hne).trans ho'⟩

/-! ## Directories and items -/

/-- The objects of a directory, in the order in which they are freed. -/
def directoryObjects (s : Kernel) (directory : UInt32) : Option (List UInt32) :=
  if directory = 0 then some []
  else do
    let d ← fatDirectoryK.read s.live directory
    if d.item = 0 then some [directory]
    else do
      let _ ← dirItemsK.read s.live d.item
      some [d.item, directory]

/-- The objects of an item. -/
def itemObjects (s : Kernel) (item : UInt32) : Option (List UInt32) := do
  let it ← fatItemK.read s.live item
  if it.type = FAT_ITEM_TYPE_DIRECTORY then do
    let objects ← directoryObjects s it.item
    some (objects ++ [item])
  else if it.type = FAT_ITEM_TYPE_FILE then do
    let _ ← dirItemsK.read s.live it.item
    some [it.item, item]
  else
    some [item]

/-- Items and what they hold. -/
def Obj.isItem : Obj → Bool
  | .fatDirectory _ | .dirItems _ | .fatItem _ => true
  | _ => false

/-- The ways a directory can own something. -/
inductive DirectoryOwns (s : Kernel) (directory : UInt32) : List UInt32 → Prop
  | null (h : directory = 0) : DirectoryOwns s directory []
  | empty (d : FatDirectory) (hne : directory ≠ 0)
      (hlive : s.live directory = some (fatDirectoryK.inj d)) (hitem : d.item = 0) :
      DirectoryOwns s directory [directory]
  | full (d : FatDirectory) (bytes : List UInt8) (hne : directory ≠ 0)
      (hlive : s.live directory = some (fatDirectoryK.inj d)) (hitem : d.item ≠ 0)
      (hbytes : s.live d.item = some (dirItemsK.inj bytes)) :
      DirectoryOwns s directory [d.item, directory]

theorem directoryObjects_cases {s : Kernel} {directory : UInt32} {ptrs : List UInt32}
    (h : directoryObjects s directory = some ptrs) : DirectoryOwns s directory ptrs := by
  unfold directoryObjects at h
  by_cases h0 : directory = 0
  · rw [if_pos h0] at h
    obtain rfl := Option.some.inj h
    exact .null h0
  · rw [if_neg h0] at h
    obtain ⟨d, hd, h⟩ := Option.bind_eq_some_iff.mp h
    have hlive := Kind.read_eq_some.mp hd
    by_cases hitem : d.item = 0
    · rw [if_pos hitem] at h
      obtain rfl := Option.some.inj h
      exact .empty d h0 hlive hitem
    · rw [if_neg hitem] at h
      obtain ⟨bytes, hbytes, h⟩ := Option.bind_eq_some_iff.mp h
      obtain rfl := Option.some.inj h
      exact .full d bytes h0 hlive hitem (Kind.read_eq_some.mp hbytes)

theorem DirectoryOwns.objects {s : Kernel} {directory : UInt32} {ptrs : List UInt32}
    (h : DirectoryOwns s directory ptrs) : directoryObjects s directory = some ptrs := by
  unfold directoryObjects
  cases h with
  | null h => rw [if_pos h]
  | empty d hne hlive hitem =>
      rw [if_neg hne, Kind.read_eq_some.mpr hlive]
      exact if_pos hitem
  | full d bytes hne hlive hitem hbytes =>
      rw [if_neg hne, Kind.read_eq_some.mpr hlive]
      refine (if_neg hitem).trans ?_
      rw [Kind.read_eq_some.mpr hbytes]
      rfl

theorem DirectoryOwns.allLive {s : Kernel} {directory : UInt32} {ptrs : List UInt32}
    (h : DirectoryOwns s directory ptrs) : AllLive s ptrs := by
  cases h with
  | null h => exact ⟨List.nodup_nil, by simp⟩
  | empty d hne hlive hitem => exact ⟨List.nodup_singleton _, by simp [hlive]⟩
  | full d bytes hne hlive hitem hbytes =>
      have hother : d.item ≠ directory := by
        intro heq
        rw [heq, hlive] at hbytes
        cases hbytes
      exact ⟨by simp [hother], by simp [hlive, hbytes]⟩

/-- What a directory owns depends on these objects alone. -/
theorem DirectoryOwns.congr {s s' : Kernel} {directory : UInt32} {ptrs : List UInt32}
    (h : DirectoryOwns s directory ptrs) (hlive : ∀ q ∈ ptrs, s'.live q = s.live q) :
    DirectoryOwns s' directory ptrs := by
  cases h with
  | null h => exact .null h
  | empty d hne hd hitem => exact .empty d hne ((hlive _ (by simp)).trans hd) hitem
  | full d bytes hne hd hitem hbytes =>
      exact .full d bytes hne ((hlive _ (by simp)).trans hd) hitem ((hlive _ (by simp)).trans hbytes)

theorem fat16FreeDirectory_owns {s : Kernel} {directory : UInt32} {ptrs : List UInt32}
    (h : DirectoryOwns s directory ptrs) :
    fat16FreeDirectory directory s = some ((), freedAll ptrs s) := by
  unfold fat16FreeDirectory
  cases h with
  | null h => rw [if_pos h]; rfl
  | empty d hne hlive hitem =>
      rw [if_neg hne, bind_of_some (load_of_live hlive), if_pos hitem]
      exact kfree_of_live hlive
  | full d bytes hne hlive hitem hbytes =>
      have hother : directory ≠ d.item := by
        intro heq
        rw [← heq, hlive] at hbytes
        cases hbytes
      rw [if_neg hne, bind_of_some (load_of_live hlive), if_neg hitem,
        bind_of_some (kfree_of_live hbytes)]
      exact kfree_of_live ((freed_live_of_ne s hother).trans hlive)

/-- The ways an item can own something. -/
inductive ItemOwns (s : Kernel) (item : UInt32) : List UInt32 → Prop
  | directory (it : FatItem) (ptrs : List UInt32) (hlive : s.live item = some (fatItemK.inj it))
      (htype : it.type = FAT_ITEM_TYPE_DIRECTORY) (howns : DirectoryOwns s it.item ptrs) :
      ItemOwns s item (ptrs ++ [item])
  | file (it : FatItem) (bytes : List UInt8) (hlive : s.live item = some (fatItemK.inj it))
      (htype : it.type = FAT_ITEM_TYPE_FILE) (hbytes : s.live it.item = some (dirItemsK.inj bytes)) :
      ItemOwns s item [it.item, item]
  | other (it : FatItem) (hlive : s.live item = some (fatItemK.inj it))
      (htype : it.type ≠ FAT_ITEM_TYPE_DIRECTORY) (htype' : it.type ≠ FAT_ITEM_TYPE_FILE) :
      ItemOwns s item [item]

theorem itemObjects_cases {s : Kernel} {item : UInt32} {ptrs : List UInt32}
    (h : itemObjects s item = some ptrs) : ItemOwns s item ptrs := by
  obtain ⟨it, hit, h⟩ := Option.bind_eq_some_iff.mp h
  have hlive := Kind.read_eq_some.mp hit
  by_cases hdir : it.type = FAT_ITEM_TYPE_DIRECTORY
  · rw [if_pos hdir] at h
    obtain ⟨objects, hobjects, h⟩ := Option.bind_eq_some_iff.mp h
    obtain rfl := Option.some.inj h
    exact .directory it objects hlive hdir (directoryObjects_cases hobjects)
  · rw [if_neg hdir] at h
    by_cases hfile : it.type = FAT_ITEM_TYPE_FILE
    · rw [if_pos hfile] at h
      obtain ⟨bytes, hbytes, h⟩ := Option.bind_eq_some_iff.mp h
      obtain rfl := Option.some.inj h
      exact .file it bytes hlive hfile (Kind.read_eq_some.mp hbytes)
    · rw [if_neg hfile] at h
      obtain rfl := Option.some.inj h
      exact .other it hlive hdir hfile

theorem ItemOwns.objects {s : Kernel} {item : UInt32} {ptrs : List UInt32} (h : ItemOwns s item ptrs) :
    itemObjects s item = some ptrs := by
  unfold itemObjects
  cases h with
  | directory it ptrs hlive htype howns =>
      rw [Kind.read_eq_some.mpr hlive]
      refine (if_pos htype).trans ?_
      rw [howns.objects]
      rfl
  | file it bytes hlive htype hbytes =>
      rw [Kind.read_eq_some.mpr hlive]
      refine (if_neg (by rw [htype]; decide)).trans ((if_pos htype).trans ?_)
      rw [Kind.read_eq_some.mpr hbytes]
      rfl
  | other it hlive htype htype' =>
      rw [Kind.read_eq_some.mpr hlive]
      exact (if_neg htype).trans (if_neg htype')

theorem ItemOwns.allLive {s : Kernel} {item : UInt32} {ptrs : List UInt32} (h : ItemOwns s item ptrs) :
    AllLive s ptrs := by
  cases h with
  | directory it ptrs hlive htype howns =>
      have hnot : item ∉ ptrs := by
        intro hmem
        cases howns with
        | null h0 => cases hmem
        | empty d hne hd hitem =>
            rw [List.mem_singleton.mp hmem, hd] at hlive
            cases hlive
        | full d bytes hne hd hitem hbytes =>
            simp only [List.mem_cons, List.not_mem_nil, or_false] at hmem
            rcases hmem with rfl | rfl
            · rw [hbytes] at hlive
              cases hlive
            · rw [hd] at hlive
              cases hlive
      refine ⟨?_, fun q hq => ?_⟩
      · refine List.nodup_append.mpr ⟨howns.allLive.nodup, List.nodup_singleton _, ?_⟩
        rintro q hq _ hq' rfl
        exact hnot (List.mem_singleton.mp hq' ▸ hq)
      · rcases List.mem_append.mp hq with hq | hq
        · exact howns.allLive.live q hq
        · exact ⟨_, (List.mem_singleton.mp hq) ▸ hlive⟩
  | file it bytes hlive htype hbytes =>
      have hother : it.item ≠ item := by
        intro heq
        rw [heq, hlive] at hbytes
        cases hbytes
      exact ⟨by simp [hother], by simp [hlive, hbytes]⟩
  | other it hlive htype htype' => exact ⟨List.nodup_singleton _, by simp [hlive]⟩

/-- What an item owns depends on these objects alone. -/
theorem ItemOwns.congr {s s' : Kernel} {item : UInt32} {ptrs : List UInt32} (h : ItemOwns s item ptrs)
    (hlive : ∀ q ∈ ptrs, s'.live q = s.live q) : ItemOwns s' item ptrs := by
  cases h with
  | directory it ptrs hit htype howns =>
      refine .directory it ptrs ((hlive _ (by simp)).trans hit) htype (howns.congr fun q hq => ?_)
      exact hlive q (List.mem_append_left _ hq)
  | file it bytes hit htype hbytes =>
      exact .file it bytes ((hlive _ (by simp)).trans hit) htype ((hlive _ (by simp)).trans hbytes)
  | other it hit htype htype' => exact .other it ((hlive _ (by simp)).trans hit) htype htype'

theorem ItemOwns.mem {s : Kernel} {item : UInt32} {ptrs : List UInt32} (h : ItemOwns s item ptrs) :
    item ∈ ptrs := by
  cases h <;> simp

theorem DirectoryOwns.isItem {s : Kernel} {directory : UInt32} {ptrs : List UInt32}
    (h : DirectoryOwns s directory ptrs) : ∀ q ∈ ptrs, ∃ o, s.live q = some o ∧ o.isItem = true := by
  intro q hq
  cases h with
  | null h0 => cases hq
  | empty d hne hd hitem => exact ⟨_, (List.mem_singleton.mp hq) ▸ hd, rfl⟩
  | full d bytes hne hd hitem hbytes =>
      simp only [List.mem_cons, List.not_mem_nil, or_false] at hq
      rcases hq with rfl | rfl
      · exact ⟨_, hbytes, rfl⟩
      · exact ⟨_, hd, rfl⟩

theorem ItemOwns.isItem {s : Kernel} {item : UInt32} {ptrs : List UInt32} (h : ItemOwns s item ptrs) :
    ∀ q ∈ ptrs, ∃ o, s.live q = some o ∧ o.isItem = true := by
  intro q hq
  cases h with
  | directory it ptrs hlive htype howns =>
      rcases List.mem_append.mp hq with hq | hq
      · exact howns.isItem q hq
      · exact ⟨_, (List.mem_singleton.mp hq) ▸ hlive, rfl⟩
  | file it bytes hlive htype hbytes =>
      simp only [List.mem_cons, List.not_mem_nil, or_false] at hq
      rcases hq with rfl | rfl
      · exact ⟨_, hbytes, rfl⟩
      · exact ⟨_, hlive, rfl⟩
  | other it hlive htype htype' => exact ⟨_, (List.mem_singleton.mp hq) ▸ hlive, rfl⟩

/-- What an item owns is as it was. -/
theorem ItemOwns.kept {s s' : Kernel} {item : UInt32} {ptrs : List UInt32} (h : ItemOwns s item ptrs)
    (hgrown : Grown s s') : ∀ q ∈ ptrs, s'.live q = s.live q := by
  intro q hq
  obtain ⟨o, ho, hkind⟩ := h.isItem q hq
  rw [ho]
  refine hgrown.object q o ho fun st heq => ?_
  rw [heq] at hkind
  cases hkind

/-- An item owns one list of objects. -/
theorem ItemOwns.unique {s : Kernel} {item : UInt32} {ptrs ptrs' : List UInt32} (h : ItemOwns s item ptrs)
    (h' : ItemOwns s item ptrs') : ptrs = ptrs' := Option.some.inj (h.objects.symm.trans h'.objects)

/-- Freeing an item frees what it owns. -/
theorem fat16FatItemFree_owns {s : Kernel} {item : UInt32} {ptrs : List UInt32}
    (h : ItemOwns s item ptrs) : fat16FatItemFree item s = some ((), freedAll ptrs s) := by
  have hall := h.allLive
  unfold fat16FatItemFree
  cases h with
  | directory it ptrs hlive htype howns =>
      have hnot : item ∉ ptrs := fun hmem =>
        (List.nodup_append.mp hall.nodup).2.2 item hmem item (by simp) rfl
      have hlive' : (freedAll ptrs s).live item = some (fatItemK.inj it) := by
        rw [freedAll_live, if_neg hnot]
        exact hlive
      rw [bind_of_some (load_of_live hlive), if_pos htype, bind_of_some (fat16FreeDirectory_owns howns),
        kfree_of_live hlive', freedAll_append]
      rfl
  | file it bytes hlive htype hbytes =>
      have hother : item ≠ it.item := by
        intro heq
        rw [← heq, hlive] at hbytes
        cases hbytes
      rw [bind_of_some (load_of_live hlive), if_neg (by rw [htype]; decide), if_pos htype,
        bind_of_some (kfree_of_live hbytes)]
      exact kfree_of_live ((freed_live_of_ne s hother).trans hlive)
  | other it hlive htype htype' =>
      rw [bind_of_some (load_of_live hlive), if_neg htype, if_neg htype']
      exact kfree_of_live hlive

theorem fat16FreeDirectory_returns (directory : UInt32) (s : Kernel) :
    Ensures (fat16FreeDirectory directory) s fun _ _ => ∃ ptrs, DirectoryOwns s directory ptrs := by
  unfold fat16FreeDirectory
  refine Ensures.ite (fun h0 => Ensures.pure ⟨_, .null h0⟩) fun hne => ?_
  refine ensures_load fun d hd => Ensures.ite (fun hitem _ _ _ => ⟨_, .empty d hne hd hitem⟩) fun hitem => ?_
  exact ensures_kfree fun bytes hbytes _ _ _ => ⟨_, .full d bytes hne hd hitem hbytes⟩

/-- An item that can be freed owns what it should. -/
theorem fat16FatItemFree_returns (item : UInt32) (s : Kernel) :
    Ensures (fat16FatItemFree item) s fun _ _ => ∃ ptrs, ItemOwns s item ptrs := by
  unfold fat16FatItemFree
  refine ensures_load fun it hit => Ensures.ite (fun hdir => ?_) fun hdir => ?_
  · refine Ensures.bind (fat16FreeDirectory_returns it.item s) ?_
    rintro _ s1 ⟨ptrs, hptrs⟩ _ _ _
    exact ⟨_, .directory it ptrs hit hdir hptrs⟩
  · refine Ensures.ite (fun hfile => ?_) fun hfile _ _ _ => ⟨_, .other it hit hdir hfile⟩
    exact ensures_kfree fun bytes hbytes _ _ _ => ⟨_, .file it bytes hit hfile hbytes⟩

/-! ## Descriptors -/

/-- The objects of a descriptor: those of its item, its private data and itself. -/
structure DescriptorOwns (s : Kernel) (descriptor : UInt32) (desc : FileDescriptor)
    (d : FatFileDescriptor) (objects : List UInt32) : Prop where
  live : s.live descriptor = some (fileDescriptorK.inj desc)
  filesystem : desc.filesystem = some .fat16
  private_data : s.live desc.private_data = some (fatFileDescriptorK.inj d)
  item : ItemOwns s d.item objects

namespace DescriptorOwns

variable {s s' : Kernel} {descriptor : UInt32} {desc : FileDescriptor} {d : FatFileDescriptor}
  {objects : List UInt32}

theorem congr (h : DescriptorOwns s descriptor desc d objects)
    (hlive : ∀ q ∈ objects ++ [desc.private_data, descriptor], s'.live q = s.live q) :
    DescriptorOwns s' descriptor desc d objects where
  live := (hlive _ (by simp)).trans h.live
  filesystem := h.filesystem
  private_data := (hlive _ (by simp)).trans h.private_data
  item := h.item.congr fun q hq => hlive q (List.mem_append_left _ hq)

theorem allLive (h : DescriptorOwns s descriptor desc d objects) :
    AllLive s (objects ++ [desc.private_data, descriptor]) := by
  have hother : desc.private_data ≠ descriptor := by
    intro heq
    have hpriv := h.private_data
    rw [heq, h.live] at hpriv
    cases hpriv
  refine ⟨List.nodup_append.mpr ⟨h.item.allLive.nodup, by simp [hother], ?_⟩, fun q hq => ?_⟩
  · -- what the item owns is neither private data nor a descriptor
    rintro q hq q' hq' rfl
    obtain ⟨o, ho, hkind⟩ := h.item.isItem q hq
    simp only [List.mem_cons, List.not_mem_nil, or_false] at hq'
    rcases hq' with rfl | rfl
    · rw [h.private_data] at ho
      obtain rfl := Option.some.inj ho
      cases hkind
    · rw [h.live] at ho
      obtain rfl := Option.some.inj ho
      cases hkind
  · rcases List.mem_append.mp hq with hq | hq
    · exact h.item.allLive.live q hq
    · simp only [List.mem_cons, List.not_mem_nil, or_false] at hq
      rcases hq with rfl | rfl
      · exact ⟨_, h.private_data⟩
      · exact ⟨_, h.live⟩

/-- Freeing the item leaves the private data. -/
theorem private_left (h : DescriptorOwns s descriptor desc d objects) :
    (freedAll objects s).live desc.private_data = some (fatFileDescriptorK.inj d) := by
  obtain ⟨-, -, hapart⟩ := List.nodup_append.mp h.allLive.nodup
  rw [freedAll_live, if_neg fun hmem => hapart _ hmem _ (by simp) rfl]
  exact h.private_data

/-- Freeing the private data too leaves the descriptor. -/
theorem descriptor_left (h : DescriptorOwns s descriptor desc d objects) :
    (freed (freedAll objects s) desc.private_data).live descriptor =
      some (fileDescriptorK.inj desc) := by
  obtain ⟨-, hnodup, hapart⟩ := List.nodup_append.mp h.allLive.nodup
  have hother : descriptor ≠ desc.private_data := by
    rintro heq
    simp [heq] at hnodup
  rw [freed_live_of_ne _ hother, freedAll_live, if_neg fun hmem => hapart _ hmem _ (by simp) rfl]
  exact h.live

/-- `fclose` frees what the descriptor owns, and its slot. -/
theorem fclose (h : DescriptorOwns s descriptor desc d objects) {fd : Int}
    (hfd : fileGetDescriptor fd s = some (descriptor, s)) (hne : descriptor ≠ 0) :
    fclose fd s = some (OK, { freedAll (objects ++ [desc.private_data, descriptor]) s with
      file_descriptors := Function.update s.file_descriptors (desc.index - 1).toNat 0 }) := by
  have hdesc := h.descriptor_left
  have hclose : fat16Close desc.private_data s =
      some (OK, freed (freedAll objects s) desc.private_data) := by
    unfold fat16Close
    rw [bind_of_some (load_of_live h.private_data), bind_of_some (fat16FatItemFree_owns h.item),
      bind_of_some (kfree_of_live h.private_left)]
    rfl
  have hwith : withFilesystem desc (fat16Close desc.private_data) = fat16Close desc.private_data := by
    rw [withFilesystem, h.filesystem]
  unfold RasOS.fclose fileFreeDescriptor
  rw [bind_of_some hfd, if_neg hne, bind_of_some (load_of_live h.live), hwith, bind_of_some hclose,
    if_pos rfl, bind_assoc, bind_of_some (load_of_live hdesc), bind_assoc,
    bind_of_some (assign_apply _ _), freedAll_append]
  -- the slot is cleared before the descriptor is freed
  generalize ht : ({ freed (freedAll objects s) desc.private_data with
    file_descriptors := Function.update (freed (freedAll objects s) desc.private_data).file_descriptors
      (desc.index - 1).toNat 0 } : Kernel) = t
  have hdesc' : t.live descriptor = some (fileDescriptorK.inj desc) := by
    rw [← ht]
    exact hdesc
  have hslots : (freed (freedAll objects s) desc.private_data).file_descriptors =
      s.file_descriptors := freedAll_slots objects s
  rw [bind_of_some (kfree_of_live hdesc'), pure_apply, ← ht, hslots]
  rfl

/-- A descriptor that can be closed owns what it should. -/
theorem of_fclose {fd : Int} {Q : Int → Kernel → Prop}
    (hfd : fileGetDescriptor fd s = some (descriptor, s)) (hne : descriptor ≠ 0)
    (hlive : s.live descriptor = some (fileDescriptorK.inj desc))
    (hprivate : s.live desc.private_data = some (fatFileDescriptorK.inj d))
    (h : Total (RasOS.fclose fd) s Q) : ∃ objects, ItemOwns s d.item objects := by
  obtain ⟨res, s', hrun, -⟩ := h
  unfold RasOS.fclose at hrun
  rw [bind_of_some hfd, if_neg hne, bind_of_some (load_of_live hlive)] at hrun
  obtain ⟨res1, s1, hclose, -⟩ := bind_eq_some.mp hrun
  have hclose : fat16Close desc.private_data s = some (res1, s1) := by
    unfold withFilesystem at hclose
    generalize desc.filesystem = filesystem at hclose
    cases filesystem with
    | none => cases hclose
    | some fs => exact hclose
  unfold fat16Close at hclose
  rw [bind_of_some (load_of_live hprivate)] at hclose
  obtain ⟨_, s2, hfree, -⟩ := bind_eq_some.mp hclose
  exact fat16FatItemFree_returns d.item s _ _ hfree

end DescriptorOwns

end RasOS
