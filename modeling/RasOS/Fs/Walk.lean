import RasOS.Fs.OpenSpec
import RasOS.Fs.Owned
import RasOS.Fs.RootSearch

set_option autoImplicit false

/-! # The walk of `fopen`

Opening a file parses a path and walks down the directories. On the way objects are made, changed
and freed, but only those that the call has made itself: whatever was live before the call is
still there, and what the item at the end of the walk owns was not live before. -/

namespace RasOS

open Machine

/-! ## Parsing the path -/

theorem getNextPathPart_grown {s s1 : Kernel} (h : Grown s s1) (path : List UInt8) :
    Ensures (getNextPathPart path) s1 fun _ s2 => Grown s s2 := by
  unfold getNextPathPart
  refine h.ensures_kzalloc fun part s2 h2 hsince hpart => ?_
  have hfree : ∀ o, s2.live part = some o → s.live part = none := by
    intro o ho
    exact h.fresh (hpart (h2.wf.ne_zero ho)).1
  refine Ensures.ite (fun _ => ?_) fun _ => Ensures.ite (fun _ => Ensures.stop) fun _ => ?_
  · exact h2.ensures_kfreeUnchecked hfree fun s3 h3 => Ensures.pure h3
  · exact h2.ensures_storeUnchecked hfree fun s3 h3 _ => Ensures.pure h3

/-- A part of a path that was not there before is chained to another such part. -/
theorem parsePathPart_grown {s s1 : Kernel} (h : Grown s s1) {last_part : UInt32}
    (hlast : s.live last_part = none) (path : List UInt8) :
    Ensures (parsePathPart last_part path) s1 fun r s2 => Grown s s2 ∧ s.live r.1 = none := by
  have hzero : s.live 0 = none := h.fresh h.wf.live_zero
  unfold parsePathPart
  refine Ensures.bind (getNextPathPart_grown h path) ?_
  rintro ⟨name, rest⟩ s2 h2
  refine Ensures.ite (fun _ => Ensures.pure ⟨h2, hzero⟩) fun _ => ?_
  refine h2.ensures_kzalloc fun part s3 h3 hsince hpart => ?_
  have hfree : s.live part = none := by
    by_cases h0 : part = 0
    · rw [h0]
      exact hzero
    · exact h2.fresh (hpart h0).1
  refine h3.ensures_storeUnchecked (fun _ _ => hfree) fun s4 h4 _ => ?_
  refine Ensures.ite (fun _ => Ensures.pure ⟨h4, hfree⟩) fun _ => ?_
  refine ensures_load fun last hl => ensures_store fun _ _ => Ensures.pure ⟨?_, hfree⟩
  exact h4.write hlast hl _

theorem pathparserLoop_grown {s : Kernel} : ∀ (fuel : Nat) (part : UInt32) (path : List UInt8)
    (s1 : Kernel), Grown s s1 → s.live part = none →
      Ensures (pathparserLoop fuel part path) s1 fun _ s2 => Grown s s2 := by
  intro fuel
  induction fuel with
  | zero => exact fun _ _ _ _ _ => Ensures.stop
  | succ fuel ih =>
      intro part path s1 h hpart
      refine Ensures.ite (fun _ => Ensures.pure h) fun _ => ?_
      refine Ensures.bind (parsePathPart_grown h hpart path) ?_
      rintro ⟨next, rest⟩ s2 ⟨h2, hnext⟩
      exact ih next rest s2 h2 hnext

theorem pathparserParse_grown {s : Kernel} (hwf : s.WF) (path : List UInt8) :
    Ensures (pathparserParse path) s fun _ s' => Grown s s' := by
  have hrefl := Grown.refl hwf
  unfold pathparserParse
  refine Ensures.ite (fun _ => Ensures.pure hrefl) fun _ => ?_
  refine Ensures.ite (fun _ => Ensures.pure hrefl) fun _ => ?_
  refine Ensures.bind (createRoot_new hwf _) ?_
  rintro root s1 ⟨h1, hroot, -⟩
  refine Ensures.ite (fun _ => Ensures.pure h1) fun _ => ?_
  refine Ensures.bind (parsePathPart_grown h1 hwf.live_zero _) ?_
  rintro ⟨first, rest⟩ s2 ⟨h2, hfirst⟩
  refine Ensures.ite (fun _ => Ensures.pure h2) fun _ => ?_
  refine ensures_load fun r hr => ensures_store fun _ _ => ?_
  refine Ensures.bind (parsePathPart_grown (h2.write hroot hr _) hfirst _) ?_
  rintro ⟨part, rest⟩ s3 ⟨h3, hpart⟩
  exact Ensures.bind (pathparserLoop_grown _ _ _ _ h3 hpart) fun _ s4 h4 => Ensures.pure h4

/-! ## Walking down -/

theorem LoadedDirectory.owns_fresh {s s1 : Kernel} {directory : UInt32} {objects : List UInt32}
    (h : LoadedDirectory s directory s1) (hwf : s1.WF) (howns : DirectoryOwns s1 directory objects) :
    ∀ q ∈ objects, s.live q = none := by
  intro q hq
  have hlive : ∀ d, s1.live directory = some (fatDirectoryK.inj d) →
      s.live directory = none ∧ s.live d.item = none := by
    intro d hd
    rcases h with h0 | ⟨hfree, hgone | ⟨d', bytes, hd', hitems, -⟩⟩
    · exact absurd h0 (hwf.ne_zero hd)
    · rw [hgone] at hd
      cases hd
    · rw [hd] at hd'
      obtain rfl := fatDirectoryK.inj_injective (Option.some.inj hd')
      exact ⟨hfree, hitems⟩
  cases howns with
  | null h0 => cases hq
  | empty d hne hd hitem => exact (List.mem_singleton.mp hq) ▸ (hlive d hd).1
  | full d bytes hne hd hitem hbytes =>
      simp only [List.mem_cons, List.not_mem_nil, or_false] at hq
      rcases hq with rfl | rfl
      · exact (hlive d hd).2
      · exact (hlive d hd).1

/-- What a new item owns was not there before. -/
theorem NewItem.owns_fresh {s s1 : Kernel} {entry : List UInt8} {item : UInt32} {objects : List UInt32}
    (h : NewItem s entry item s1) (hwf : s1.WF) (howns : ItemOwns s1 item objects) :
    ∀ q ∈ objects, s.live q = none := by
  obtain ⟨o, ho⟩ := howns.allLive.live item howns.mem
  rcases h with h0 | ⟨hfree, it, hit, hpayload⟩
  · exact absurd h0 (hwf.ne_zero ho)
  unfold NewPayload at hpayload
  cases howns with
  | other it' hit' htype htype' => exact fun q hq => (List.mem_singleton.mp hq) ▸ hfree
  | file it' bytes hit' htype hbytes =>
      rw [hit] at hit'
      obtain rfl := fatItemK.inj_injective (Option.some.inj hit')
      split at hpayload
      · rw [htype] at hpayload
        cases hpayload.1
      intro q hq
      simp only [List.mem_cons, List.not_mem_nil, or_false] at hq
      rcases hq with rfl | rfl
      · rcases hpayload.2 with h0 | hcopy
        · exact absurd h0 (hwf.ne_zero hbytes)
        · exact hcopy.1
      · exact hfree
  | directory it' ptrs hit' htype howns' =>
      rw [hit] at hit'
      obtain rfl := fatItemK.inj_injective (Option.some.inj hit')
      split at hpayload
      · intro q hq
        rcases List.mem_append.mp hq with hq | hq
        · exact hpayload.2.owns_fresh hwf howns' q hq
        · exact (List.mem_singleton.mp hq) ▸ hfree
      · rw [htype] at hpayload
        cases hpayload.1

/-- Freeing objects that were not there before. -/
theorem Grown.freedAll {s s1 : Kernel} (h : Grown s s1) {ptrs : List UInt32} (hall : AllLive s1 ptrs)
    (hfresh : ∀ q ∈ ptrs, s.live q = none) : Grown s (freedAll ptrs s1) := by
  have hkeep : ∀ q o, s.live q = some o → (RasOS.freedAll ptrs s1).live q = s1.live q := by
    intro q o hq
    rw [freedAll_live, if_neg]
    intro hmem
    rw [hfresh q hmem] at hq
    cases hq
  refine ⟨h.wf.freedAll hall, (freedAll_statics ptrs s1).trans h.statics,
    (freedAll_slots ptrs s1).trans h.slots, fun q o ho hst => ?_, fun q st hst => ?_⟩
  · exact (hkeep q o ho).trans (h.object q o ho hst)
  · obtain ⟨st', hst'⟩ := h.stream q st hst
    exact ⟨st', (hkeep q _ hst).trans hst'⟩

/-- A new item whose directory is still live owns it. -/
theorem NewItem.directory {s s1 : Kernel} {entry : List UInt8} {item : UInt32} {it : FatItem}
    {d : FatDirectory} (h : NewItem s entry item s1) (hwf : s1.WF)
    (hit : s1.live item = some (fatItemK.inj it)) (htype : it.type = FAT_ITEM_TYPE_DIRECTORY)
    (hd : s1.live it.item = some (fatDirectoryK.inj d)) :
    ItemOwns s1 item [d.item, it.item, item] := by
  rcases h with h0 | ⟨-, it', hit', hpayload⟩
  · exact absurd h0 (hwf.ne_zero hit)
  rw [hit] at hit'
  obtain rfl := fatItemK.inj_injective (Option.some.inj hit')
  unfold NewPayload at hpayload
  split at hpayload
  · refine .directory it [d.item, it.item] hit htype ?_
    rcases hpayload.2 with h0 | ⟨-, hgone | ⟨d', bytes, hd', -, hbytes⟩⟩
    · exact absurd h0 (hwf.ne_zero hd)
    · rw [hgone] at hd
      cases hd
    · rw [hd] at hd'
      obtain rfl := fatDirectoryK.inj_injective (Option.some.inj hd')
      exact .full d bytes (hwf.ne_zero hd) hd (hwf.ne_zero hbytes) hbytes
  · rw [htype] at hpayload
    cases hpayload.1

/-- One turn of the walk: look a name up in the directory of an item, then free the item. -/
def descend (item : UInt32) (directory : FatDirectory) (name : List UInt8) : KernelM UInt32 := do
  let tmp_item ← fat16FindItemInDirectory directory name
  fat16FatItemFree item
  return tmp_item

theorem getDirectoryEntryLoop_succ (fuel : Nat) {next_part : UInt32} (item : UInt32) (hne : next_part ≠ 0) :
    getDirectoryEntryLoop (fuel + 1) next_part item =
      load fatItemK item >>= fun it =>
        if it.type ≠ FAT_ITEM_TYPE_DIRECTORY then Pure.pure 0
        else load pathPartK next_part >>= fun part => load fatDirectoryK it.item >>= fun directory =>
          load pathNameK part.part >>= fun name => descend item directory name >>= fun tmp_item =>
            load pathPartK next_part >>= fun part => getDirectoryEntryLoop fuel part.next tmp_item := by
  rw [getDirectoryEntryLoop, if_neg hne]
  unfold descend
  simp only [bind_assoc, pure_bind]

/-- **A turn of the walk** delivers null or a new item. -/
theorem descend_spec {s s1 : Kernel} (h1 : Grown s s1) {entry : List UInt8} {item : UInt32} {it : FatItem}
    {directory : FatDirectory} (hnew : NewItem s entry item s1)
    (hit : s1.live item = some (fatItemK.inj it)) (htype : it.type = FAT_ITEM_TYPE_DIRECTORY)
    (hd : s1.live it.item = some (fatDirectoryK.inj directory)) (name : List UInt8) :
    Ensures (descend item directory name) s1 fun tmp_item s2 =>
      Grown s s2 ∧ ∃ entry', NewItem s entry' tmp_item s2 := by
  have howns := hnew.directory h1.wf hit htype hd
  have hfresh := hnew.owns_fresh h1.wf howns
  unfold descend
  refine Ensures.bind (fat16FindItemInDirectory_new directory name h1.wf) ?_
  rintro tmp_item s2 ⟨h2, entry', htmp⟩
  -- the current item is as it was before the search, so all of it can be freed
  have howns2 : ItemOwns s2 item [directory.item, it.item, item] := howns.congr (howns.kept h2)
  rw [ensures_bind_of_some (fat16FatItemFree_owns howns2)]
  refine Ensures.pure ⟨(h1.trans h2).freedAll howns2.allLive hfresh, entry', (htmp.congr fun q hq => ?_).earlier h1⟩
  rw [freedAll_live, if_neg]
  intro hmem
  obtain ⟨o, ho⟩ := howns.allLive.live q hmem
  rw [hq] at ho
  cases ho

theorem getDirectoryEntryLoop_new {s : Kernel} : ∀ (fuel : Nat) (next_part current_item : UInt32)
    (s1 : Kernel), Grown s s1 → (∃ entry, NewItem s entry current_item s1) →
      Ensures (getDirectoryEntryLoop fuel next_part current_item) s1 fun item s' =>
        Grown s s' ∧ ∃ entry, NewItem s entry item s' := by
  intro fuel
  induction fuel with
  | zero => exact fun _ _ _ _ _ => Ensures.stop
  | succ fuel ih =>
      rintro next_part current_item s1 h1 ⟨entry, hnew⟩
      by_cases hend : next_part = 0
      · rw [getDirectoryEntryLoop, if_pos hend]
        exact Ensures.pure ⟨h1, entry, hnew⟩
      rw [getDirectoryEntryLoop_succ fuel current_item hend]
      refine ensures_load fun it hit => Ensures.ite (fun _ => ?_) fun htype => ?_
      · exact Ensures.pure ⟨h1, [], Or.inl rfl⟩
      refine ensures_load fun part _ => ensures_load fun d hd => ensures_load fun name _ => ?_
      refine Ensures.bind (descend_spec h1 hnew hit (not_not.mp htype) hd name) ?_
      rintro tmp_item s2 ⟨h2, hnew'⟩
      exact ensures_load fun part' _ => ih part'.next tmp_item s2 h2 hnew'

theorem fat16GetDirectoryEntry_new (path : UInt32) {s : Kernel} (hwf : s.WF) :
    Ensures (fat16GetDirectoryEntry path) s fun item s' =>
      Grown s s' ∧ ∃ entry, NewItem s entry item s' := by
  unfold fat16GetDirectoryEntry
  refine (Grown.refl hwf).ensures_moved moved_rules.fsPrivate fun priv s1 h1 _ => ?_
  refine ensures_load fun part _ => ensures_load fun name _ => ?_
  refine Ensures.bind (fat16FindItemInDirectory_new _ name h1.wf) ?_
  rintro root_item s2 ⟨h2, entry, hnew⟩
  have h := h1.trans h2
  refine Ensures.ite (fun _ => Ensures.pure ⟨h, [], Or.inl rfl⟩) fun _ => ensures_load fun part' _ => ?_
  exact getDirectoryEntryLoop_new _ _ _ _ h ⟨entry, hnew.earlier h1⟩

/-- Private data that were not there before, of an item all of whose objects were not there
before. -/
structure NewPrivate (s : Kernel) (priv : UInt32) (s' : Kernel) (item : UInt32) : Prop where
  fresh : s.live priv = none
  live : s'.live priv = some (fatFileDescriptorK.inj { item := item, pos := 0 })
  objects : ∀ objects, ItemOwns s' item objects → ∀ q ∈ objects, s.live q = none

theorem fat16Open_new (path : UInt32) (mode : Nat) {s : Kernel} (hwf : s.WF) :
    Ensures (fat16Open path mode) s fun priv s' =>
      Grown s s' ∧ (ISERR priv = false → ∃ item, NewPrivate s priv s' item) := by
  have herr : ∀ (res : Int) (t : Kernel), -2 ^ 31 ≤ res → res < 0 → Grown s t →
      Ensures (Pure.pure (ERROR res) : KernelM UInt32) t fun priv s' =>
        Grown s s' ∧ (ISERR priv = false → ∃ item, NewPrivate s priv s' item) := by
    intro res t h1 h2 ht
    refine Ensures.pure ⟨ht, fun h => ?_⟩
    rw [ISERR_ERROR h1 h2] at h
    cases h
  have hrefl := Grown.refl hwf
  unfold fat16Open
  refine Ensures.ite (fun _ => herr _ _ (by decide) (by decide) hrefl) fun _ => ?_
  refine hrefl.ensures_kzalloc fun priv s1 h1 hsince hpriv => ?_
  refine Ensures.ite (fun _ => herr _ _ (by decide) (by decide) h1) fun hne => ?_
  obtain ⟨hfree, hlive⟩ := hpriv hne
  refine Ensures.bind (fat16GetDirectoryEntry_new path h1.wf) ?_
  rintro item s2 ⟨h2, entry, hnew⟩
  have hlive2 : s2.live priv = some (fatFileDescriptorK.inj {}) :=
    h2.object _ _ hlive fun _ heq => Obj.noConfusion heq
  have h02 := h1.trans h2
  refine ensures_store fun _ _ => ?_
  refine Ensures.ite (fun _ => herr _ _ (by decide) (by decide) (h02.write hfree hlive2 _)) fun _ => ?_
  refine ensures_store fun _ _ => Ensures.pure ⟨?_, fun _ => ⟨item, hfree, Kind.write_self .., ?_⟩⟩
  · exact (h02.write hfree hlive2 _).write hfree (Kind.write_self ..) _
  intro objects howns
  -- the item owns the same objects before the private data are filled in
  have howns2 : ItemOwns s2 item objects := by
    refine howns.congr fun q hq => ?_
    obtain ⟨o, ho, hkind⟩ := howns.isItem q hq
    have hqp : q ≠ priv := by
      rintro rfl
      obtain rfl := Option.some.inj (ho.symm.trans (Kind.write_self ..))
      cases hkind
    exact ((Kind.write_of_ne _ _ _ hqp).trans (Kind.write_of_ne _ _ _ hqp)).symm
  exact fun q hq => h1.fresh (hnew.owns_fresh h2.wf howns2 q hq)

end RasOS
