import RasOS.Fs.Owned
import RasOS.Fs.Trace

set_option autoImplicit false

/-! # Freeing what is owned

An item or a directory is freed with all it owns. `fat16_load_fat_directory` does so with a directory
that it returns: then the pointer is dead, and the event of the return says so. -/

namespace RasOS

open Machine Traced

variable {α : Type}

namespace HeapEvent

/-- What is freed is live, what is read is null or live, and so is a directory that is returned. -/
def Ok : HeapEvent → Prop
  | .free _ live => live = true
  | .read ptr live => ptr = 0 ∨ live = true
  | .loaded _ directory live => directory = 0 ∨ live = true
  | .emptyPart _ => True

/-- A directory that has been allocated has been filled; there is a buffer for an empty component. -/
def Met : HeapEvent → Prop
  | .loaded res directory _ => directory = 0 ∨ res = OK
  | .emptyPart name => name ≠ 0
  | _ => True

instance : DecidablePred Ok := fun e => by cases e <;> unfold Ok <;> infer_instance

/-- Nothing is asked of frees and reads. -/
structure Quiet (M : HeapEvent → Prop) : Prop where
  free : ∀ ptr live, M (.free ptr live)
  read : ∀ ptr live, M (.read ptr live)

theorem quiet_met : Quiet Met := ⟨fun _ _ => trivial, fun _ _ => trivial⟩

theorem quiet_true : Quiet fun _ => True := ⟨fun _ _ => trivial, fun _ _ => trivial⟩

end HeapEvent

open HeapEvent

theorem Trace.isLive_iff {k : Kind Obj α} {ptr : UInt32} {s : Kernel} :
    Trace.isLive k ptr s = true ↔ ∃ a, s.live ptr = some (k.inj a) := by
  rw [Trace.isLive, Option.isSome_iff_exists]
  exact exists_congr fun a => Kind.read_eq_some

theorem Trace.kfreeUnchecked_of_ne {k : Kind Obj α} {ptr : UInt32} (hne : ptr ≠ 0) :
    Trace.kfreeUnchecked k ptr = Trace.kfree k ptr := by
  unfold Trace.kfreeUnchecked Trace.kfree
  rw [RasOS.kfreeUnchecked_of_ne hne]

/-! ## Freeing what is owned -/

section Freeing

variable {M : HeapEvent → Prop} {s : Kernel}

theorem exact_kfree (hM : Quiet M) {k : Kind Obj α} {ptr : UInt32} {a : α}
    (h : s.live ptr = some (k.inj a)) :
    Exact Ok M (Trace.kfree k ptr) s fun _ s' => s' = freed s ptr := by
  have hlive : Trace.isLive k ptr s = true := Trace.isLive_iff.mpr ⟨a, h⟩
  refine (Exact.emit (Q := fun _ s' => s = s') (iff_of_true hlive (hM.free _ _)) fun _ => rfl).bind ?_
  rintro _ _ rfl
  exact Exact.lift ((ensures_of_some (kfree_of_live h)).mpr rfl)

theorem exact_read (hM : Quiet M) {k : Kind Obj α} {ptr : UInt32}
    (h : ptr = 0 ∨ ∃ a, s.live ptr = some (k.inj a)) :
    Exact Ok M (Trace.read k ptr) s fun a s' => s.live ptr = some (k.inj a) ∧ s = s' := by
  have hok : (HeapEvent.read ptr (Trace.isLive k ptr s)).Ok := h.imp_right Trace.isLive_iff.mpr
  refine (Exact.emit (Q := fun _ s' => s = s') (iff_of_true hok (hM.read _ _)) fun _ => rfl).bind ?_
  rintro _ _ rfl
  refine Exact.lift fun a s' hrun => ?_
  obtain ⟨ha, rfl⟩ := load_eq_some.mp hrun
  exact ⟨ha, rfl⟩

theorem exact_read_of_live (hM : Quiet M) {k : Kind Obj α} {ptr : UInt32} {a : α}
    (h : s.live ptr = some (k.inj a)) :
    Exact Ok M (Trace.read k ptr) s fun b s' => a = b ∧ s = s' := by
  refine (exact_read hM (Or.inr ⟨a, h⟩)).mono ?_
  rintro b s' ⟨hb, hs'⟩
  exact ⟨k.inj_injective (Option.some.inj (h.symm.trans hb)), hs'⟩

theorem exact_freeDirectory (hM : Quiet M) {directory : UInt32} {ptrs : List UInt32}
    (h : DirectoryOwns s directory ptrs) :
    Exact Ok M (Trace.fat16FreeDirectory directory) s fun _ s' => s' = freedAll ptrs s := by
  refine (Exact.and_ensures (Q := fun _ _ => True) ?_ ?_).mono fun _ _ h => h.2
  · unfold Trace.fat16FreeDirectory
    refine Exact.ite (fun _ => Exact.pure trivial) fun hne => ?_
    cases h with
    | null h => exact absurd h hne
    | empty d _ hlive hitem =>
        refine (exact_read_of_live hM hlive).bind ?_
        rintro _ _ ⟨rfl, rfl⟩
        rw [if_pos hitem]
        exact (exact_kfree hM hlive).mono fun _ _ _ => trivial
    | full d bytes _ hlive hitem hbytes =>
        refine (exact_read_of_live hM hlive).bind ?_
        rintro _ _ ⟨rfl, rfl⟩
        rw [if_neg hitem]
        refine (exact_kfree hM hbytes).bind ?_
        rintro _ _ rfl
        have hother : directory ≠ d.item := by
          intro heq
          rw [← heq, hlive] at hbytes
          cases hbytes
        exact (exact_kfree hM ((freed_live_of_ne _ hother).trans hlive)).mono fun _ _ _ => trivial
  · rw [Trace.erase_fat16FreeDirectory, ensures_of_some (fat16FreeDirectory_owns h)]

theorem exact_fatItemFree (hM : Quiet M) {item : UInt32} {ptrs : List UInt32} (h : ItemOwns s item ptrs) :
    Exact Ok M (Trace.fat16FatItemFree item) s fun _ s' => s' = freedAll ptrs s := by
  have hall := h.allLive
  refine (Exact.and_ensures (Q := fun _ _ => True) ?_ ?_).mono fun _ _ h => h.2
  · unfold Trace.fat16FatItemFree
    cases h with
    | directory it ptrs hlive htype howns =>
        have hnot : item ∉ ptrs := fun hmem =>
          (List.nodup_append.mp hall.nodup).2.2 item hmem item (by simp) rfl
        refine (exact_read_of_live hM hlive).bind ?_
        rintro _ _ ⟨rfl, rfl⟩
        rw [if_pos htype]
        refine (exact_freeDirectory hM howns).bind ?_
        rintro _ _ rfl
        refine (exact_kfree (a := it) hM ?_).mono fun _ _ _ => trivial
        rw [freedAll_live, if_neg hnot]
        exact hlive
    | file it bytes hlive htype hbytes =>
        have hother : item ≠ it.item := by
          intro heq
          rw [← heq, hlive] at hbytes
          cases hbytes
        refine (exact_read_of_live hM hlive).bind ?_
        rintro _ _ ⟨rfl, rfl⟩
        rw [if_neg (by rw [htype]; decide), if_pos htype]
        refine (exact_kfree hM hbytes).bind ?_
        rintro _ _ rfl
        exact (exact_kfree hM ((freed_live_of_ne _ hother).trans hlive)).mono fun _ _ _ => trivial
    | other it hlive htype htype' =>
        refine (exact_read_of_live hM hlive).bind ?_
        rintro _ _ ⟨rfl, rfl⟩
        rw [if_neg htype, if_neg htype']
        exact (exact_kfree hM hlive).mono fun _ _ _ => trivial
  · rw [Trace.erase_fat16FatItemFree, ensures_of_some (fat16FatItemFree_owns h)]

end Freeing

/-! ## Loading a directory -/

/-- What the body of `fat16_load_fat_directory` returns: null, a live directory without an error, or
with an error one that it has freed. -/
def LoadedRes (r : Int × UInt32) (s' : Kernel) : Prop :=
  r.2 = 0 ∨ (r.1 = OK ∧ ∃ d, s'.live r.2 = some (fatDirectoryK.inj d)) ∨
    r.1 ≠ OK ∧ s'.live r.2 = none

/-- Its error exit. -/
theorem exact_loadFailed {res : Int} (hres : res ≠ OK) {s : Kernel} {directory : UInt32}
    {ptrs : List UInt32} (h : DirectoryOwns s directory ptrs) (hmem : directory ∈ ptrs) :
    Exact Ok Met (do Trace.fat16FreeDirectory directory; return (res, directory)) s LoadedRes := by
  refine (exact_freeDirectory quiet_met h).bind ?_
  rintro _ _ rfl
  refine Exact.pure (Or.inr (Or.inr ⟨hres, ?_⟩))
  rw [freedAll_live, if_pos hmem]

theorem exact_loadFatDirectoryRes (item : List UInt8) {s : Kernel} (hwf : s.WF) :
    Exact Ok Met (Trace.loadFatDirectoryRes item) s LoadedRes := by
  unfold Trace.loadFatDirectoryRes
  refine Exact.ite (fun _ => Exact.pure (Or.inl rfl)) fun _ => ?_
  refine Exact.bind_lift (fun _ _ hrun => kzalloc_cases hwf hrun) fun directory s1 halloc => ?_
  refine Exact.ite (fun _ => Exact.pure (Or.inl rfl)) fun hne => ?_
  have hlive1 := (halloc.live hne).2
  refine Exact.bind_lift (moved_rules.fsPrivate.ensures s1) fun priv s2 hm2 => ?_
  refine Exact.bind_lift ((moved_rules.fat16GetTotalItemsForDirectory _).ensures s2) fun total s3 hm3 => ?_
  have hwf3 : s3.WF := hm3.wf (hm2.wf (hwf.kzalloc halloc))
  have hlive3 : s3.live directory = some (fatDirectoryK.inj {}) :=
    (hm3.object _ _ fun _ heq => Obj.noConfusion heq).mpr
      ((hm2.object _ _ fun _ heq => Obj.noConfusion heq).mpr hlive1)
  refine Exact.bind_lift (fun _ _ hrun => kzalloc_cases hwf3 hrun) fun items s4 hitems => ?_
  have hlive4 := (hitems.since hwf3).object _ _ hlive3
  refine Exact.bind_of_some (store_of_live hlive4 _) ?_
  -- the directory is there, and points to the entries
  generalize hd : ({ total := total, item := items } : FatDirectory) = d
  have hitem : d.item = items := by rw [← hd]
  have hlive5 : fatDirectoryK.write s4.live directory d directory = some (fatDirectoryK.inj d) :=
    Kind.write_self ..
  refine Exact.ite (fun h0 => ?_) fun hne' => ?_
  · exact exact_loadFailed (by decide) (.empty d hne hlive5 (hitem.trans h0)) List.mem_cons_self
  have hother : items ≠ directory := Grown.ne_of_fresh (hitems.live hne').1 hlive3 |>.symm
  have hitems5 := (Kind.write_of_ne fatDirectoryK s4.live d hother).trans (hitems.live hne').2
  refine Exact.bind_lift ((moved_rules.fat16ReadInternal _ _ _).ensures _) ?_
  rintro ⟨res, bytes⟩ s6 hm6
  have hlive6 := (hm6.object _ _ fun _ heq => Obj.noConfusion heq).mpr hlive5
  have hitems6 := (hm6.object _ _ fun _ heq => Obj.noConfusion heq).mpr hitems5
  refine Exact.bind_of_some (store_of_live hitems6 _) ?_
  have hlive7 := fun contents => (Kind.write_of_ne dirItemsK s6.live contents hother.symm).trans hlive6
  have hitems7 : ∀ contents, dirItemsK.write s6.live items contents d.item =
      some (dirItemsK.inj contents) := by
    rw [hitem]
    exact fun contents => Kind.write_self ..
  refine Exact.ite (fun hres => ?_) fun hres => ?_
  · exact exact_loadFailed hres (.full d _ hne (hlive7 _) (hitem.trans_ne hne') (hitems7 _)) (by simp)
  · exact Exact.pure (Or.inr (Or.inl ⟨not_not.mp hres, d, hlive7 _⟩))

/-- **A directory that is loaded** is live exactly when it has not been freed on the way. -/
theorem exact_loadFatDirectory (item : List UInt8) {s : Kernel} (hwf : s.WF) :
    Exact Ok Met (Trace.fat16LoadFatDirectory item) s fun directory s' =>
      Grown s s' ∧ LoadedDirectory s directory s' ∧
        (directory = 0 ∨ ∃ d, s'.live directory = some (fatDirectoryK.inj d)) := by
  have hspec : Ensures (Trace.fat16LoadFatDirectory item).erase s fun directory s' =>
      Grown s s' ∧ LoadedDirectory s directory s' := by
    rw [Trace.erase_fat16LoadFatDirectory]
    exact fat16LoadFatDirectory_spec item hwf
  refine (Exact.and_ensures ?_ hspec).mono fun _ _ h => ⟨h.2.1, h.2.2, h.1⟩
  refine (exact_loadFatDirectoryRes item hwf).bind ?_
  rintro ⟨res, directory⟩ s' hres
  refine Exact.bind (Q := fun _ s'' => s'' = s' ∧
    (directory = 0 ∨ ∃ d, s''.live directory = some (fatDirectoryK.inj d))) ?_ ?_
  · refine Exact.emit ?_ fun hok => ⟨rfl, hok.imp_right Trace.isLive_iff.mp⟩
    show directory = 0 ∨ _ ↔ directory = 0 ∨ res = OK
    rw [Trace.isLive_iff]
    rcases hres with h0 | ⟨hok, hd⟩ | ⟨herr, hgone⟩
    · exact iff_of_true (Or.inl h0) (Or.inl h0)
    · exact iff_of_true (Or.inr hd) (Or.inr hok)
    · refine or_congr_right (iff_of_false ?_ herr)
      rintro ⟨d, hd⟩
      rw [hgone] at hd
      cases hd
  · rintro _ _ ⟨rfl, hlive⟩
    exact Exact.pure hlive

end RasOS
