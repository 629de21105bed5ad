import RasOS.Memory.BuiltDirectory
import RasOS.Task.CopyString
import RasOS.Task.Protection

set_option autoImplicit false

/-! # What a load leaves alone

The directory of a new task is made of blocks that were free, and it is the only one that is written to, or freed
when the image cannot be mapped. However a load ends, the directories that were there before are as they were. -/

namespace RasOS

open Machine

/-! ## Directories that stay -/

/-- The directories of `s` are as they were. -/
def PagingKept (s s' : Kernel) : Prop := ∀ q o, s.live q = some o → o.isPaging = true → s'.live q = some o

section PagingKept

variable {α β : Type} {s s' s'' : Kernel}

theorem pagingKept_frame : Frame PagingKept where
  refl := fun _ _ _ ho _ => ho
  trans := fun h h' q o ho hpaging => h' q o (h q o ho hpaging) hpaging

theorem PagingKept.maps (h : PagingKept s s') {chunk : UInt32} {m : Nat → UInt32} (hmaps : Maps s chunk m) :
    Maps s' chunk m := hmaps.congr fun q o hpaging ho => h q o ho hpaging

theorem FileFrame.pagingKept (h : FileFrame s s') : PagingKept s s' := by
  intro q o ho hpaging
  refine h.object q o ho ?_ fun st heq => ?_
  · cases o <;> first | rfl | cases hpaging
  · rw [heq] at hpaging
    cases hpaging

/-- A kind of objects that are not part of a directory. -/
def OtherKind (k : Kind Obj α) : Prop := ∀ a, (k.inj a).isPaging = false

theorem otherKind_task : OtherKind taskK := fun _ => rfl

/-- Where there is an object of another kind there is no part of a directory. -/
theorem OtherKind.ne {k : Kind Obj α} (hk : OtherKind k) {q ptr : UInt32} {a : α} {o : Obj}
    (ha : s.live ptr = some (k.inj a)) (ho : s.live q = some o) (hpaging : o.isPaging = true) : q ≠ ptr := by
  rintro rfl
  obtain rfl := Option.some.inj (ho.symm.trans ha)
  rw [hk a] at hpaging
  cases hpaging

theorem pagingKept_store {k : Kind Obj α} (hk : OtherKind k) (ptr : UInt32) (a : α) :
    Keeps PagingKept (store k ptr a) := by
  intro s u s' h
  obtain ⟨⟨b, hb⟩, rfl⟩ := store_eq_some.mp h
  exact fun q o ho hpaging => (Kind.write_of_ne _ _ _ (hk.ne hb ho hpaging)).trans ho

theorem pagingKept_kfree {k : Kind Obj α} (hk : OtherKind k) (ptr : UInt32) : Keeps PagingKept (kfree k ptr) := by
  intro s u s' h
  obtain ⟨⟨b, hb⟩, rfl⟩ := kfree_eq_some.mp h
  exact fun q o ho hpaging => (Function.update_of_ne (hk.ne hb ho hpaging) ..).trans ho

theorem pagingKept_load (k : Kind Obj α) (ptr : UInt32) : Keeps PagingKept (load k ptr) := by
  intro s a s' h
  obtain ⟨-, rfl⟩ := load_eq_some.mp h
  exact pagingKept_frame.refl s'

theorem pagingKept_fetch (f : Kernel → α) : Keeps PagingKept (fetch f) := by
  intro s a s' h
  obtain ⟨-, rfl⟩ := Prod.mk.inj (Option.some.inj h)
  exact pagingKept_frame.refl s

theorem pagingKept_assign {f : Kernel → Kernel} (hf : ∀ s, (f s).live = s.live) : Keeps PagingKept (assign f) := by
  intro s u s' h
  obtain ⟨-, rfl⟩ := Prod.mk.inj (Option.some.inj h)
  intro q o ho _
  rw [hf]
  exact ho

/-- The links of the tasks are no part of a directory. -/
theorem pagingKept_taskListRemove (task : UInt32) : Keeps PagingKept (taskListRemove task) := by
  have hR := pagingKept_frame
  refine Keeps.bind hR ?_ fun _ => Keeps.bind hR (pagingKept_fetch _) fun current => Keeps.ite ?_ (Keeps.pure hR _)
  · refine Keeps.bind hR (pagingKept_load _ _) fun t => Keeps.bind hR (pagingKept_fetch _) fun head => ?_
    refine Keeps.ite ?_ (Keeps.ite (pagingKept_assign fun _ => rfl) (Keeps.pure hR _))
    exact Keeps.bind hR (pagingKept_load _ _) fun p => pagingKept_store otherKind_task _ _
  · refine Keeps.bind hR ?_ fun next => pagingKept_assign fun _ => rfl
    refine Keeps.bind hR (pagingKept_fetch _) fun current => Keeps.bind hR (pagingKept_load _ _) fun t => ?_
    exact Keeps.ite (pagingKept_fetch _) (Keeps.pure hR _)

end PagingKept

/-! ## The directory of a new task -/

/-- Tasks may be changed, but not which directory they have; everything else is as it was. -/
structure Relinked (s s' : Kernel) : Prop where
  object : ∀ q o, s.live q = some o → (∀ t, o ≠ taskK.inj t) → s'.live q = some o
  task : ∀ q t, s.live q = some (taskK.inj t) →
    ∃ t', s'.live q = some (taskK.inj t') ∧ t'.page_directory = t.page_directory

theorem Relinked.of_live {s s' : Kernel} (h : s'.live = s.live) : Relinked s s' := by
  refine ⟨fun q o ho _ => ?_, fun q t ht => ⟨t, ?_, rfl⟩⟩
  · rw [h]
    exact ho
  · rw [h]
    exact ht

theorem Relinked.trans {s s' s'' : Kernel} (h : Relinked s s') (h' : Relinked s' s'') : Relinked s s'' := by
  refine ⟨fun q o ho htask => h'.object q o (h.object q o ho htask) htask, fun q t ht => ?_⟩
  obtain ⟨t', ht', heq'⟩ := h.task q t ht
  obtain ⟨t'', ht'', heq''⟩ := h'.task q t' ht'
  exact ⟨t'', ht'', heq''.trans heq'⟩

theorem Relinked.write {s : Kernel} {q : UInt32} {t : Task} (ht : s.live q = some (taskK.inj t)) (t' : Task)
    (heq : t'.page_directory = t.page_directory) : Relinked s { s with live := taskK.write s.live q t' } := by
  refine ⟨fun r o ho htask => ?_, fun r u hu => ?_⟩
  · have hne : r ≠ q := by
      rintro rfl
      exact htask t (Option.some.inj (ho.symm.trans ht))
    exact (Kind.write_of_ne _ _ _ hne).trans ho
  · by_cases hr : r = q
    · rw [hr] at hu ⊢
      obtain rfl := taskK.inj_injective (Option.some.inj (hu.symm.trans ht))
      exact ⟨t', Kind.write_self .., heq⟩
    · exact ⟨u, (Kind.write_of_ne _ _ _ hr).trans hu, rfl⟩

/-- The directory of the task consists of blocks that were free in `s0`. -/
structure OwnDirectory (s0 : Kernel) (task directory : UInt32) (e m : Nat → UInt32) (s : Kernel) (t : Task) :
    Prop where
  task : s.live task = some (taskK.inj t)
  maps : MapsBy s t.page_directory directory e m
  fresh : ∀ q, ChunkBlock t.page_directory directory e q → s0.live q = none

section OwnDirectory

variable {s0 s s' : Kernel} {task directory : UInt32} {e m : Nat → UInt32} {t : Task}

theorem MapsBy.congr {chunk : UInt32} (h : MapsBy s chunk directory e m)
    (hobject : ∀ q o, o.isPaging = true → s.live q = some o → s'.live q = some o) :
    MapsBy s' chunk directory e m := by
  refine ⟨hobject _ _ rfl h.1, hobject _ _ rfl h.2.entries, fun i hi => ?_, h.2.inj, h.2.ne⟩
  obtain ⟨u, hu, hvalues⟩ := h.2.values i hi
  exact ⟨u, hobject _ _ rfl hu, hvalues⟩

theorem OwnDirectory.relinked (h : OwnDirectory s0 task directory e m s t) (hlinked : Relinked s s') :
    ∃ t', OwnDirectory s0 task directory e m s' t' := by
  obtain ⟨t', ht', heq⟩ := hlinked.task task t h.task
  refine ⟨t', ht', ?_, ?_⟩
  · rw [heq]
    refine h.maps.congr fun q o hpaging ho => hlinked.object q o ho fun u hu => ?_
    rw [hu] at hpaging
    cases hpaging
  · rw [heq]
    exact h.fresh

theorem taskInitRegisters_relinked (task process : UInt32) (s : Kernel) :
    Ensures (taskInitRegisters task process) s fun _ s' => Relinked s s' := by
  refine ensures_load fun p _ => ?_
  refine Ensures.bind (Q := fun _ s' => s' = s) (fun ip s' hrun => ?_) ?_
  · rcases taskEntry_spec s p with ⟨-, hstop⟩ | ⟨ip', -, hentry⟩
    · rw [hstop] at hrun
      cases hrun
    · exact ((Prod.mk.inj (Option.some.inj (hentry.symm.trans hrun))).2).symm
  · rintro ip _ rfl
    refine ensures_load fun t ht => ensures_store fun _ _ => Ensures.pure (Relinked.write ht _ rfl)

/-- A task that is initialised has a directory of its own. -/
theorem taskInit_own (task process : UInt32) {s : Kernel} (hwf : s.WF) :
    Ensures (taskInit task process) s fun r s' => r = OK →
      ∃ t directory e m, OwnDirectory s task directory e m s' t := by
  refine ensures_store fun t0 ht0 => ?_
  have hwf1 := hwf.write (k := taskK) ht0 {}
  intro r s' hrun hok
  rcases pagingNew4gb_cases hwf1 (by decide : taskFlags.toNat < 4096) with
    ⟨-, s2, hnull, hsince, -⟩ | ⟨chunk, directory, e, s2, hnew, hne, hdirectory, -⟩
  · have ht2 : s2.live task = some (taskK.inj {}) := hsince.object _ _ (Kind.write_self ..)
    rw [bind_of_some hnull, bind_of_some (load_of_live ht2), bind_of_some (store_of_live ht2 _), if_pos rfl] at hrun
    obtain ⟨rfl, -⟩ := Prod.mk.inj (Option.some.inj hrun)
    exact absurd hok (by decide)
  rw [bind_of_some hnew] at hrun
  have hsince := hdirectory.lent.since hwf1
  have ht2 : s2.live task = some (taskK.inj {}) := hsince.object _ _ (Kind.write_self ..)
  rw [bind_of_some (load_of_live ht2), bind_of_some (store_of_live ht2 _), if_neg hne] at hrun
  -- the blocks were free in `s` too: the one object stored since then is the task
  have hfresh : ∀ q, ChunkBlock chunk directory e q → s.live q = none := by
    intro q hq
    have hfree : taskK.write s.live task {} q = none := hdirectory.lent.fresh q hq
    have hqt : q ≠ task := by
      rintro rfl
      rw [Kind.write_self] at hfree
      cases hfree
    exact (Kind.write_of_ne _ _ _ hqt).symm.trans hfree
  have hown : OwnDirectory s task directory e (identityEntry taskFlags)
      { s2 with live := taskK.write s2.live task { page_directory := chunk } } { page_directory := chunk } := by
    refine ⟨Kind.write_self .., hdirectory.maps.congr fun q o hpaging ho => ?_, hfresh⟩
    exact (Kind.write_of_ne _ _ _ (otherKind_task.ne ht2 ho hpaging)).trans ho
  obtain ⟨t, ht⟩ := hown.relinked (taskInitRegisters_relinked task process _ r s' hrun)
  exact ⟨t, directory, e, _, ht⟩

theorem taskAppend_relinked (task : UInt32) (s : Kernel) :
    Ensures (taskAppend task) s fun r s' => r = task ∧ Relinked s s' := by
  unfold taskAppend
  refine ensures_fetch (Ensures.ite (fun _ => ?_) fun _ => ?_)
  · exact ensures_assign (Ensures.pure ⟨rfl, Relinked.of_live rfl⟩)
  refine ensures_fetch (ensures_load fun last hlast => ensures_store fun _ _ => ensures_load fun t ht => ?_)
  refine ensures_store fun _ _ => ensures_assign (Ensures.pure ⟨rfl, ?_⟩)
  exact ((Relinked.write hlast { last with next := task } rfl).trans
    (Relinked.write ht { t with prev := s.task_tail } rfl)).trans (Relinked.of_live rfl)

/-- **A new task has a directory of its own**, of blocks that were free before. -/
theorem taskNew_own (process : UInt32) {s : Kernel} (hwf : s.WF) :
    Ensures (taskNew process) s fun r s' => ISERR r = false →
      ∃ t directory e m, OwnDirectory s r directory e m s' t := by
  unfold taskNew
  refine Ensures.bind (Q := fun ptr s1 => Kzalloc taskK SIZEOF_TASK {} s ptr s1)
    (fun _ _ h => kzalloc_cases hwf h) ?_
  intro ptr s1 hcases
  have hsince := hcases.since hwf
  -- the label `out`, reached with or without a directory
  have hend : ∀ (res : Int) (s2 : Kernel), (res = OK → ∃ t directory e m, OwnDirectory s ptr directory e m s2 t) →
      (res = OK ∨ -2 ^ 31 ≤ res ∧ res < 0) → Ensures (if res ≠ OK then do
        let _ ← taskFree ptr
        return ERROR res
      else
        taskAppend ptr) s2 fun r s' => ISERR r = false → ∃ t directory e m, OwnDirectory s r directory e m s' t := by
    intro res s2 hown hres
    refine Ensures.ite (fun hne => ?_) fun hok => ?_
    · obtain ⟨hlow, hneg⟩ := hres.resolve_left hne
      refine Ensures.bind (Q := fun _ _ => True) (fun _ _ _ => trivial) fun _ s3 _ => Ensures.pure fun herr => ?_
      rw [ISERR_ERROR hlow hneg] at herr
      cases herr
    · obtain ⟨t, directory, e, m, hown2⟩ := hown (not_not.mp hok)
      refine (taskAppend_relinked ptr s2).mono ?_
      rintro r s3 ⟨rfl, hlinked⟩ -
      obtain ⟨t', hown3⟩ := hown2.relinked hlinked
      exact ⟨t', directory, e, m, hown3⟩
  refine Ensures.ite (fun _ => ?_) fun _ => ?_
  · refine Ensures.bind (Ensures.pure (Q := fun res s2 => res = - ENOMEM ∧ s2 = s1) ⟨rfl, rfl⟩) ?_
    rintro _ _ ⟨rfl, rfl⟩
    exact hend _ _ (fun hok => absurd hok (by decide)) (Or.inr (by decide))
  · refine Ensures.bind (fun res s2 hrun => And.intro (taskInit_own ptr process hsince.wf res s2 hrun)
      (taskInit_status ptr process s1 res s2 hrun)) ?_
    rintro res s2 ⟨hown, hstatus⟩
    refine hend res s2 (fun hok => ?_) hstatus
    obtain ⟨t, directory, e, m, hown⟩ := hown hok
    exact ⟨t, directory, e, m, hown.task, hown.maps, fun q hq => hsince.fresh (hown.fresh q hq)⟩

end OwnDirectory

/-! ## Mapping -/

/-- A process whose task has a directory of its own. -/
structure OwnPages (s0 : Kernel) (process directory : UInt32) (e m : Nat → UInt32) (s : Kernel) (p : Process)
    (t : Task) : Prop where
  process : s.live process = some (processK.inj p)
  task : OwnDirectory s0 p.task directory e m s t

section Mapping

variable {s0 s : Kernel} {process directory : UInt32} {e m : Nat → UInt32} {p : Process} {t : Task}

/-- Entries of its directory are set. -/
theorem OwnPages.entries {s' : Kernel} {m' : Nat → UInt32} (h : OwnPages s0 process directory e m s p t)
    (honly : EntriesOnly e s s') (hmaps : MapsBy s' t.page_directory directory e m') :
    OwnPages s0 process directory e m' s' p t := by
  have htables := honly.tablesOnly h.task.maps.2 hmaps.2
  exact ⟨htables.object _ _ h.process fun _ heq => Obj.noConfusion heq,
    htables.object _ _ h.task.task fun _ heq => Obj.noConfusion heq, hmaps, h.task.fresh⟩

theorem OwnPages.kept {s' : Kernel} (h : OwnPages s0 process directory e m s p t) (hkept : PagingKept s0 s)
    (honly : EntriesOnly e s s') : PagingKept s0 s' := by
  intro q o ho hpaging
  refine (honly.other q fun i hi heq => ?_).trans (hkept q o ho hpaging)
  rw [heq, h.task.fresh _ (Or.inr (Or.inr ⟨i, hi, rfl⟩))] at ho
  cases ho

theorem OwnPages.mapTo (h : OwnPages s0 process directory e m s p t) (hkept : PagingKept s0 s)
    (virt phys phys_end flags : UInt32) : Ensures (pagingMapTo t.page_directory virt phys phys_end flags) s
      fun _ s' => PagingKept s0 s' ∧ ∃ m', OwnPages s0 process directory e m' s' p t := by
  rcases pagingMapTo_cases h.task.maps virt phys phys_end flags with ⟨-, hrun⟩ | ⟨-, s', hrun, honly, hmaps⟩
  · exact (ensures_of_some hrun).mpr ⟨hkept, m, h⟩
  · exact (ensures_of_some hrun).mpr ⟨h.kept hkept honly, _, h.entries honly hmaps⟩

theorem OwnPages.mapElfLoop (elf_memory : UInt32) (header : ElfHeader) : ∀ (remaining i : Nat) (res : Int)
    {s : Kernel} {m : Nat → UInt32}, OwnPages s0 process directory e m s p t → PagingKept s0 s →
      Ensures (processMapElfLoop t.page_directory elf_memory header remaining i res) s
        fun _ s' => PagingKept s0 s' ∧ ∃ m', OwnPages s0 process directory e m' s' p t := by
  intro remaining
  induction remaining with
  | zero => exact fun i res s m h hkept => Ensures.pure ⟨hkept, m, h⟩
  | succ remaining ih =>
      intro i res s m h hkept
      refine ensures_fetch (Ensures.bind (h.mapTo hkept _ _ _ _) ?_)
      rintro res' s' ⟨hkept', m', h'⟩
      exact Ensures.ite (fun _ => Ensures.pure ⟨hkept', m', h'⟩) fun _ => ih _ _ h' hkept'

theorem OwnPages.mapMemory (h : OwnPages s0 process directory e m s p t) (hkept : PagingKept s0 s) :
    Ensures (processMapMemory process) s
      fun _ s' => PagingKept s0 s' ∧ ∃ m', OwnPages s0 process directory e m' s' p t := by
  have hsame : ∀ p', s.live process = some (processK.inj p') → p' = p := fun p' hp' =>
    processK.inj_injective (Option.some.inj (hp'.symm.trans h.process))
  have hsameTask : ∀ t', s.live p.task = some (taskK.inj t') → t' = t := fun t' ht' =>
    taskK.inj_injective (Option.some.inj (ht'.symm.trans h.task.task))
  refine ensures_load fun p1 hp1 => Ensures.ite (fun _ => ?_) fun _ => Ensures.ite (fun _ => ?_) fun _ => Ensures.stop
  · refine ensures_load fun p' hp' => ?_
    obtain rfl := hsame p' hp'
    refine Ensures.bind (Q := fun _ s' => s' = s) (fun header s' hrun => ?_) ?_
    · obtain ⟨f, -, -, -, rfl⟩ := elfHeader_eq_some hrun
      rfl
    · rintro header _ rfl
      refine ensures_load fun file _ => Ensures.ite (fun _ => Ensures.pure ⟨hkept, m, h⟩) fun _ => ?_
      refine ensures_load fun t' ht' => ?_
      obtain rfl := hsameTask t' ht'
      exact OwnPages.mapElfLoop file.elf_memory header _ 0 0 h hkept
  · refine ensures_load fun p' hp' => ?_
    obtain rfl := hsame p' hp'
    refine ensures_load fun t' ht' => ?_
    obtain rfl := hsameTask t' ht'
    exact Ensures.bind (h.mapTo hkept _ _ _ _) fun _ _ hmapped => Ensures.pure hmapped

theorem OwnPages.of_live {s' : Kernel} (h : OwnPages s0 process directory e m s p t) (hlive : s'.live = s.live) :
    OwnPages s0 process directory e m s' p t := by
  have hsame : ∀ q o, s.live q = some o → s'.live q = some o := by
    intro q o ho
    rw [hlive]
    exact ho
  exact ⟨hsame _ _ h.process, hsame _ _ h.task.task, h.task.maps.congr fun q o _ ho => hsame q o ho, h.task.fresh⟩

end Mapping

/-! ## Freeing the directory again -/

theorem pagingKept_freed {s0 : Kernel} (l : List UInt32) : ∀ {s : Kernel}, PagingKept s0 s →
    (∀ q ∈ l, s0.live q = none) → PagingKept s0 (l.foldl freed s) := by
  induction l with
  | nil => exact fun h _ => h
  | cons ptr l ih =>
      intro s h hfresh
      refine ih (fun q o ho hpaging => ?_) fun q hq => hfresh q (List.mem_cons_of_mem _ hq)
      have hne : q ≠ ptr := by
        rintro rfl
        rw [hfresh q List.mem_cons_self] at ho
        cases ho
      exact (freed_live_of_ne s hne).trans (h q o ho hpaging)

theorem OwnDirectory.free {s0 s : Kernel} {task directory : UInt32} {e m : Nat → UInt32} {t : Task}
    (h : OwnDirectory s0 task directory e m s t) (hkept : PagingKept s0 s) :
    Ensures (taskFree task) s fun _ s' => PagingKept s0 s' := by
  have hR := pagingKept_frame
  refine ensures_load fun t' ht' => ?_
  obtain rfl := taskK.inj_injective (Option.some.inj (ht'.symm.trans h.task))
  refine (ensures_bind_of_some (pagingFree4gb_run h.maps)).mpr ?_
  have hfreed := pagingKept_freed _ hkept fun q hq => h.fresh q (mem_directoryBlocks.mp hq)
  refine Ensures.bind ((pagingKept_taskListRemove task).ensures _) fun _ s1 h1 => ?_
  refine Ensures.bind ((pagingKept_kfree otherKind_task task).ensures s1) fun _ s2 h2 => Ensures.pure ?_
  exact hR.trans (hR.trans hfreed h1) h2

/-! ## A load -/

section Load

variable {s0 s : Kernel} {process : UInt32} {p : Process}

/-- The registers that a task starts with. -/
def startRegisters (ip : UInt32) : Registers where
  ip := ip
  ss := USER_DATA_SEGMENT
  cs := USER_CODE_SEGMENT
  esp := RASOS_PROGRAM_VIRTUAL_STACK_ADDRESS_BOTTOM

theorem TaskNew.registers {s s' : Kernel} {process task : UInt32} (h : TaskNew s process task s') {t : Task}
    (ht : s'.live task = some (taskK.inj t)) : ∃ ip, t.registers = startRegisters ip := by
  cases h with
  | first s5 _ _ chunk ip _ htask =>
      obtain rfl := taskK.inj_injective (Option.some.inj (ht.symm.trans htask))
      exact ⟨ip, rfl⟩
  | append s5 _ _ chunk ip _ htask _ _ _ last u hlast hu =>
      have hlinked := ht.symm.trans (Kind.write_self ..)
      obtain rfl := taskK.inj_injective (Option.some.inj hlinked)
      refine ⟨ip, ?_⟩
      by_cases hsame : task = s.task_tail
      · rw [← hsame] at hlast hu
        obtain rfl := taskK.inj_injective (Option.some.inj (hlast.symm.trans htask))
        obtain rfl := taskK.inj_injective (Option.some.inj (hu.symm.trans (Kind.write_self ..)))
        rfl
      · rw [Kind.write_of_ne _ _ _ hsame] at hu
        obtain rfl := taskK.inj_injective (Option.some.inj (hu.symm.trans htask))
        rfl

/-- From the stack to the slot: there is an error before the task is made, or the process has pages of its own. -/
theorem processLoadTask_own (filename : List UInt8) (process_slot : Int) (h : DataLoaded s0 process s p) :
    Ensures (processLoadTask filename process_slot process) s fun r s' => r.1 < 0 ∧ s' = s ∨
      (r.1 < 0 ∨ r.2 = some process) ∧ PagingKept s s' ∧ ∃ p' t directory e m,
        OwnPages s process directory e m s' p' t ∧ p'.keyboard = p.keyboard ∧
          ∃ ip, t.registers = startRegisters ip := by
  obtain ⟨stack, s1, halloc, hbytes⟩ := kzallocBytes_spec h.frame.wf RASOS_USER_PROGRAM_STACK_SIZE
  refine (ensures_bind_of_some halloc).mpr (Ensures.ite (fun hnull => ?_) fun _ => ?_)
  · exact Ensures.pure (Or.inl ⟨by decide, hbytes.null hnull⟩)
  have hwf1 := hbytes.since.wf
  rcases taskNew_spec hwf1 process with ⟨-, hstop⟩ | ⟨-, task, s2, -, hnew, htask, -⟩
  · intro r s' hrun
    rw [bind_of_none hstop] at hrun
    cases hrun
  obtain ⟨tn, ht⟩ := htask.newTask (taskNew_only process hwf1 task s2 hnew htask.not_iserr)
  obtain ⟨t, directory, e, m, hown⟩ := taskNew_own process hwf1 task s2 hnew htask.not_iserr
  have hregisters := htask.registers hown.task
  refine (ensures_bind_of_some hnew).mpr (Ensures.ite (fun hnull => absurd hnull htask.ne_zero) fun _ => ?_)
  refine ensures_load fun p2 hp2 => ensures_store fun _ _ => ?_
  have hkeyboard : p2.keyboard = p.keyboard := by
    have hold := ht.object process _ (hbytes.since.object process _ h.live) fun t heq => Obj.noConfusion heq
    obtain rfl := processK.inj_injective (Option.some.inj (hp2.symm.trans hold))
    rfl
  -- what the process gets does not matter here, but for the task
  generalize hp3 : ({ p2 with
    filename := strncpy filename RASOS_PATH_MAX_LEN
    stack := stack
    id := UInt16.ofInt process_slot
    task := task } : Process) = p3
  have hkeyboard3 : p3.keyboard = p.keyboard := by rw [← hp3, ← hkeyboard]
  have hother : ∀ q o, s2.live q = some o → (∀ a, o ≠ processK.inj a) →
      processK.write s2.live process p3 q = some o := by
    intro q o ho hne
    have hq : q ≠ process := by
      rintro rfl
      exact hne p2 (Option.some.inj (ho.symm.trans hp2))
    exact (Kind.write_of_ne _ _ _ hq).trans ho
  have hpaging : ∀ q o, o.isPaging = true → s2.live q = some o → processK.write s2.live process p3 q = some o := by
    intro q o hpaging ho
    refine hother q o ho fun a heq => ?_
    rw [heq] at hpaging
    cases hpaging
  have hpages : OwnPages s process directory e m { s2 with live := processK.write s2.live process p3 } p3 t := by
    have htask3 : p3.task = task := by rw [← hp3]
    refine ⟨Kind.write_self .., ?_, hown.maps.congr hpaging, fun q hq => hbytes.since.fresh (hown.fresh q hq)⟩
    rw [htask3]
    exact hother _ _ hown.task fun _ heq => Obj.noConfusion heq
  have hkept : PagingKept s { s2 with live := processK.write s2.live process p3 } := by
    intro q o ho hp
    refine hpaging q o hp (ht.object q o (hbytes.since.object q o ho) fun t heq => ?_)
    rw [heq] at hp
    cases hp
  refine Ensures.bind (hpages.mapMemory hkept) ?_
  rintro res s4 ⟨hkept4, m', hpages4⟩
  refine Ensures.ite (fun hneg => Ensures.pure (Or.inr ⟨Or.inl hneg, hkept4, p3, t, directory, e, m', hpages4,
      hkeyboard3, hregisters⟩))
    fun _ => Ensures.ite (fun _ => Ensures.stop) fun _ => ensures_assign (Ensures.pure ?_)
  exact Or.inr ⟨Or.inr rfl, hkept4, p3, t, directory, e, m', hpages4.of_live rfl, hkeyboard3, hregisters⟩

/-- Cleaning up, or mapping the stack. -/
theorem OwnPages.ends {directory : UInt32} {e m : Nat → UInt32} {t : Task} {r : Int × Option UInt32}
    (h : OwnPages s0 process directory e m s p t) (hkept : PagingKept s0 s) (hr : r.1 < 0 ∨ r.2 = some process) :
    Ensures (processLoadEnd process r) s fun r' s' => r' = r ∧ PagingKept s0 s' ∧
      (r.1 < 0 ∨ ∃ m', OwnPages s0 process directory e m' s' p t) := by
  refine Ensures.bind (Q := fun _ s' => PagingKept s0 s' ∧ (r.1 < 0 ∨ s' = s)) ?_ ?_
  · refine Ensures.ite (fun hneg => ?_) fun hok => ?_
    · refine ensures_load fun p' hp' => ?_
      obtain rfl := processK.inj_injective (Option.some.inj (hp'.symm.trans h.process))
      refine Ensures.ite (fun _ => ?_) fun _ => Ensures.pure ⟨hkept, Or.inl hneg.1⟩
      exact Ensures.bind (h.task.free hkept) fun _ _ hfreed => Ensures.pure ⟨hfreed, Or.inl hneg.1⟩
    · exact Ensures.pure ⟨hkept, Or.inr rfl⟩
  · rintro _ s1 ⟨hkept1, hcases⟩
    refine Ensures.ite (fun hneg => Ensures.pure ⟨rfl, hkept1, Or.inl hneg⟩) fun hpos => ?_
    obtain rfl := hcases.resolve_left hpos
    have hout : r.2.getD 0 = process := by rw [hr.resolve_left hpos, Option.getD_some]
    rw [hout]
    refine ensures_load fun p' hp' => ?_
    obtain rfl := processK.inj_injective (Option.some.inj (hp'.symm.trans h.process))
    refine ensures_load fun t' ht' => ?_
    obtain rfl := taskK.inj_injective (Option.some.inj (ht'.symm.trans h.task.task))
    refine Ensures.bind (h.mapTo hkept1 _ _ _ _) fun _ _ hmapped => Ensures.pure ?_
    exact ⟨rfl, hmapped.1, Or.inr hmapped.2⟩

/-- The file functions leave the keyboard of the process alone. -/
theorem processLoadData_keyboard (filename : List UInt8) {s : Kernel} (hwf : s.WF)
    (hp : s.live process = some (processK.inj p)) : Ensures (processLoadData filename process) s fun _ s' =>
      ∃ p', s'.live process = some (processK.inj p') ∧ p'.keyboard = p.keyboard := by
  have hR := keepsRest_rules
  have hobject : ∀ {s1 s2 : Kernel} {p1 : Process}, FileFrame s1 s2 → s1.live process = some (processK.inj p1) →
      s2.live process = some (processK.inj p1) :=
    fun hframe hp1 => hframe.object _ _ hp1 rfl fun _ heq => Obj.noConfusion heq
  refine Ensures.bind (Q := fun _ s1 => s1.WF ∧
    ∃ p', s1.live process = some (processK.inj p') ∧ p'.keyboard = p.keyboard) ?_ ?_
  · refine Ensures.bind (elfLoad_spec hwf filename) ?_
    rintro ⟨res, file_out⟩ s1 ⟨hframe1, -⟩
    refine Ensures.ite (fun _ => Ensures.pure ⟨hframe1.wf, p, hobject hframe1 hp, rfl⟩) fun _ => ?_
    refine ensures_load fun p1 hp1 => ensures_store fun _ hp1' => Ensures.pure ⟨hframe1.wf.write hp1' _, _,
      Kind.write_self .., ?_⟩
    obtain rfl := processK.inj_injective (Option.some.inj (hp1.symm.trans (hobject hframe1 hp)))
    rfl
  rintro res s1 ⟨hwf1, p1, hp1, hkeyboard⟩
  refine Ensures.ite (fun _ => ?_) fun _ => Ensures.pure ⟨p1, hp1, hkeyboard⟩
  refine Ensures.bind ((hR.fopen filename [0x72]).ensures s1) fun fd s2 h2 => ?_
  have hframe2 := h2 hwf1
  refine Ensures.ite (fun _ => Ensures.pure ⟨p1, hobject hframe2 hp1, hkeyboard⟩) fun _ => ?_
  refine Ensures.bind ((hR.fstat fd).ensures s2) ?_
  rintro ⟨res, stat⟩ s3 h3
  have hframe3 := hframe2.trans (h3 hframe2.wf)
  refine Ensures.ite (fun _ => Ensures.pure ⟨p1, hobject hframe3 hp1, hkeyboard⟩) fun _ => ?_
  obtain ⟨ptr, s4, halloc, hbytes⟩ := kzallocBytes_spec hframe3.wf stat.filesize
  have hframe4 := hframe3.trans hbytes.since.fileFrame
  refine (ensures_bind_of_some halloc).mpr ?_
  refine Ensures.ite (fun _ => Ensures.pure ⟨p1, hobject hframe4 hp1, hkeyboard⟩) fun _ => ?_
  refine Ensures.bind ((hR.fread keepsRest_memWrite ptr stat.filesize 1 fd).ensures s4) fun res s5 h5 => ?_
  have hframe5 := hframe4.trans (h5 hframe4.wf)
  refine Ensures.ite (fun _ => Ensures.pure ⟨p1, hobject hframe5 hp1, hkeyboard⟩) fun _ => ?_
  refine ensures_load fun p5 hp5 => ensures_store fun _ hp5' => ?_
  obtain rfl := processK.inj_injective (Option.some.inj (hp5.symm.trans (hobject hframe5 hp1)))
  intro r s6 hrun
  have hframe6 := (hR.fclose fd) _ r s6 hrun (hframe5.wf.write hp5' _)
  exact ⟨_, hobject hframe6 (Kind.write_self ..), hkeyboard⟩

/-- A process that has been loaded: nobody has typed for it, and its task is about to start. -/
def StartsFresh (s : Kernel) (process : UInt32) : Prop :=
  ∃ p t ip, s.live process = some (processK.inj p) ∧ p.keyboard = {} ∧ s.live p.task = some (taskK.inj t) ∧
    t.registers = startRegisters ip

/-- However a load ends, the directories that were there before are as they were; and one that does not fail
leaves a process that starts fresh. -/
theorem processLoad_own {s : Kernel} (hwf : s.WF) (garbage : UInt32) (filename : List UInt8) :
    Ensures (processLoad garbage filename) s fun r s' => PagingKept s s' ∧
      (r.1 < 0 ∨ ∃ process, r.2 = some process ∧ StartsFresh s' process) := by
  have hR := pagingKept_frame
  intro r s' hrun
  rcases processLoad_cases s garbage filename with ⟨-, hfull⟩ | ⟨-, slot, -, -, heq⟩
  · rw [hfull] at hrun
    obtain ⟨rfl, rfl⟩ := Prod.mk.inj (Option.some.inj hrun)
    exact ⟨hR.refl s, Or.inl (by decide)⟩
  rw [heq] at hrun
  rcases newProcess_spec hwf with ⟨-, halloc⟩ | ⟨-, process, s0, s1, hne, halloc, hstore, hnew⟩
  · rw [bind_of_some (processLoadNew_full halloc filename slot), processLoadStack, if_pos (by decide)] at hrun
    obtain ⟨rfl, rfl⟩ := Prod.mk.inj (Option.some.inj hrun)
    exact ⟨hR.refl s, Or.inl (by decide)⟩
  rw [processLoadNew_end hne halloc hstore] at hrun
  -- first the file, by functions that know of no directory; then the task, with a directory of its own
  obtain ⟨res, sd, hload, hrest⟩ := bind_eq_some.mp hrun
  obtain ⟨p, hp⟩ := hnew.data filename res sd hload
  have hkeyboard : p.keyboard = {} := by
    obtain ⟨p', hp', hkeyboard⟩ := processLoadData_keyboard filename hnew.since.wf hnew.live res sd hload
    obtain rfl := processK.inj_injective (Option.some.inj (hp.live.symm.trans hp'))
    exact hkeyboard
  have hfile := hp.frame.pagingKept
  have hend : ∀ r : Int × Option UInt32, r.1 < 0 → processLoadEnd process r sd = some (r, sd) :=
    fun r hneg => processLoadEnd_negative hneg (processLoadCleanup_noTask _ hp.live hp.task)
  by_cases hneg : res < 0
  · rw [if_pos hneg, bind_of_some (pure_apply _ _), hend (res, none) hneg] at hrest
    obtain ⟨rfl, rfl⟩ := Prod.mk.inj (Option.some.inj hrest)
    exact ⟨hfile, Or.inl hneg⟩
  rw [if_neg hneg] at hrest
  obtain ⟨r1, s2, htask, hstack⟩ := bind_eq_some.mp hrest
  rcases processLoadTask_own filename slot hp r1 s2 htask with
    ⟨hneg1, rfl⟩ | ⟨hr, hkept, p', t, directory, e, m, hpages, hkeyboard', ip, hregisters⟩
  · rw [hend r1 hneg1] at hstack
    obtain ⟨rfl, rfl⟩ := Prod.mk.inj (Option.some.inj hstack)
    exact ⟨hfile, Or.inl hneg1⟩
  · obtain ⟨rfl, hkept', hpages'⟩ := hpages.ends hkept hr r s' hstack
    refine ⟨hR.trans hfile hkept', ?_⟩
    rcases hpages' with hneg' | ⟨m', hpages'⟩
    · exact Or.inl hneg'
    · exact hr.imp_right fun hout => ⟨process, hout, p', t, ip, hpages'.process, hkeyboard'.trans hkeyboard,
        hpages'.task.task, hregisters⟩

end Load

/-! ## A kernel with a directory -/

/-- The kernel with the volume of `elfKernel` and a directory of its own. -/
def mappedKernel : Kernel := withDirectory (elfKernel ⟨PT_LOAD, 0, 0x400000, 84, 0⟩ 84) 2000 bounceFlags

theorem mappedKernel_wf : mappedKernel.WF :=
  withDirectory_wf (oneFileKernel_wf (by decide)) (by decide) fun i h1 _ => oneFileKernel_free _ _ _ (by omega)

theorem mappedKernel_maps : Maps mappedKernel (blockAddress 3025) (identityEntry bounceFlags) :=
  withDirectory_maps (by decide) (by decide) (by decide)

/-- The file is read into block 15. -/
theorem mappedKernel_run : ElfRun mappedKernel ⟨PT_LOAD, 0, 0x400000, 84, 0⟩ := by decide +kernel

theorem mappedKernel_load : ∃ s' sd slot p t f,
    processLoad 0 pathA mappedKernel = some ((OK, some (blockAddress 5)), s') ∧
      Finished sd (blockAddress 5) slot s' p t ∧ ElfProcess ⟨PT_LOAD, 0, 0x400000, 84, 0⟩ s' p f :=
  mappedKernel_run.load mappedKernel_wf fun hfull => hfull 0 (by decide) rfl

end RasOS
