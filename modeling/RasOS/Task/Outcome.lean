import RasOS.Task.Started
import RasOS.Fs.PathLeak

set_option autoImplicit false

/-! # How a load ends

`process_load_for_slot` undoes nothing but the task: once the process structure has been allocated, it
stays, whatever goes wrong behind it. -/

namespace RasOS

open Machine

/-! ## The parts of `process_load_for_slot` -/

/-- The slot exists and is in use. -/
def SlotTaken (s : Kernel) (process_slot : Int) : Prop :=
  0 ≤ process_slot ∧ process_slot < RASOS_MAX_PROCESSES ∧ s.processes process_slot.toNat ≠ 0

/-- From the allocation of the process structure on. -/
def processLoadNew (filename : List UInt8) (process_slot : Int) : KernelM (Int × Option UInt32) := do
  let process ← kzalloc processK SIZEOF_PROCESS {}
  if process = 0 then
    return (- ENOMEM, none)
  else do
    store processK process {}
    let (res, out) ← processLoadInto filename process_slot process
    processLoadCleanup res process
    return (res, out)

theorem processLoadForSlot_taken {s : Kernel} {process_slot : Int} (h : SlotTaken s process_slot)
    (garbage : UInt32) (filename : List UInt8) :
    processLoadForSlot garbage filename process_slot s =
      (processLoadCleanup (- EISTKN) garbage >>= fun _ => Pure.pure (- EISTKN, none)) s := by
  obtain ⟨hlow, hhigh, hslot⟩ := h
  have hget : processGet process_slot s = some (s.processes process_slot.toNat, s) := by
    rw [processGet, if_neg (by omega)]
    rfl
  unfold processLoadForSlot
  rw [bind_of_some hget, if_pos hslot]

theorem processLoadForSlot_free {s : Kernel} {process_slot : Int} (h : ¬ SlotTaken s process_slot)
    (garbage : UInt32) (filename : List UInt8) :
    processLoadForSlot garbage filename process_slot s = processLoadNew filename process_slot s := by
  have hget : processGet process_slot s = some (0, s) := by
    unfold processGet
    split
    · rfl
    · rw [fetch_apply]
      have hzero : s.processes process_slot.toNat = 0 := by
        by_contra hne
        exact h ⟨by omega, by omega, hne⟩
      rw [hzero]
  unfold processLoadForSlot
  rw [bind_of_some hget, if_neg (not_not_intro rfl)]
  rfl

/-- A new process structure. -/
structure NewProcess (s : Kernel) (process : UInt32) (s' : Kernel) : Prop where
  since : Since s s'
  fresh : s.live process = none
  live : s'.live process = some (processK.inj {})

/-- Allocating the process structure. -/
theorem newProcess_spec {s : Kernel} (hwf : s.WF) :
    NoRoom s.heap SIZEOF_PROCESS ∧ kzalloc processK SIZEOF_PROCESS {} s = some (0, s) ∨
      ¬ NoRoom s.heap SIZEOF_PROCESS ∧ ∃ process s0 s1, process ≠ 0 ∧
        kzalloc processK SIZEOF_PROCESS {} s = some (process, s0) ∧
        store processK process {} s0 = some ((), s1) ∧ NewProcess s process s1 := by
  obtain ⟨process, s0, halloc, hcases⟩ := kzalloc_spec processK SIZEOF_PROCESS {} hwf
  have hnull := hcases.null_iff hwf
  by_cases hprocess : process = 0
  · have hs0 : s0 = s := by
      cases hcases with
      | null hnone => rfl
      | fresh b ptr hpos hend hrun hptr hne hfree => exact absurd hprocess hne
    rw [hprocess, hs0] at halloc
    exact Or.inl ⟨hnull.mp hprocess, halloc⟩
  · obtain ⟨hfree, hlive⟩ := hcases.live hprocess
    exact Or.inr ⟨fun hno => hprocess (hnull.mpr hno), process, s0, _, hprocess, halloc, store_of_live hlive {},
      (hcases.since hwf).write (k := processK) hfree hlive {}, hfree, Kind.write_self ..⟩

theorem processLoadNew_full {s : Kernel} (halloc : kzalloc processK SIZEOF_PROCESS {} s = some (0, s))
    (filename : List UInt8) (process_slot : Int) :
    processLoadNew filename process_slot s = some ((- ENOMEM, none), s) := by
  unfold processLoadNew
  rw [bind_of_some halloc, if_pos rfl]
  rfl

theorem processLoadNew_eq {s s0 s1 : Kernel} {process : UInt32} (hne : process ≠ 0)
    (halloc : kzalloc processK SIZEOF_PROCESS {} s = some (process, s0))
    (hstore : store processK process {} s0 = some ((), s1)) (filename : List UInt8) (process_slot : Int) :
    processLoadNew filename process_slot s = (do
      let (res, out) ← processLoadInto filename process_slot process
      processLoadCleanup res process
      return (res, out)) s1 := by
  unfold processLoadNew
  rw [bind_of_some halloc, if_neg hne, bind_of_some hstore]

theorem NewProcess.data {s s1 : Kernel} {process : UInt32} (h : NewProcess s process s1)
    (filename : List UInt8) :
    Ensures (processLoadData filename process) s1 fun _ s' => ∃ p, DataLoaded s process s' p :=
  processLoadData_spec h.since.fileFrame h.fresh h.live filename

/-! ## Cleaning up -/

/-- What the label `out` finds: no task to free, or one that can be freed. -/
theorem processLoadCleanup_noTask {s : Kernel} {process : UInt32} {p : Process} (res : Int)
    (hp : s.live process = some (processK.inj p)) (htask : p.task = 0) :
    processLoadCleanup res process s = some ((), s) := by
  unfold processLoadCleanup
  split
  · rw [bind_of_some (load_of_live hp), if_neg (not_not_intro htask)]
    rfl
  · rfl

theorem Started.taskFree {s0 s : Kernel} {process : UInt32} {p : Process} {t : Task} {m : Nat → UInt32}
    (h : Started s0 process s p t m) : ∃ s', taskFree p.task s = some (OK, s') ∧
      s'.live process = some (processK.inj p) := by
  obtain ⟨r, s', hrun, rfl⟩ := taskFree_total h.wf h.task h.maps h.prev
  refine ⟨s', hrun, (taskFree_frame h.wf h.task hrun).2 process _ ?_ ?_ rfl h.live⟩
  · intro heq
    have htask := h.task
    rw [← heq, h.live] at htask
    cases htask
  · rcases h.prev with h0 | ⟨u, hu⟩
    · exact Or.inl h0
    · refine Or.inr fun heq => ?_
      rw [← heq, h.live] at hu
      cases hu

theorem Started.cleanup {s0 s : Kernel} {process : UInt32} {p : Process} {t : Task} {m : Nat → UInt32}
    (h : Started s0 process s p t m) {res : Int} (hneg : res < 0) :
    ∃ s', processLoadCleanup res process s = some ((), s') ∧
      s'.live process = some (processK.inj p) := by
  obtain ⟨s', hrun, hlive⟩ := h.taskFree
  refine ⟨s', ?_, hlive⟩
  unfold processLoadCleanup
  rw [if_pos ⟨hneg, h.wf.ne_zero h.live⟩, bind_of_some (load_of_live h.live),
    if_pos (h.wf.ne_zero h.task), bind_of_some hrun]
  rfl

/-- Freeing a task frees it. -/
theorem taskFree_frees (task : UInt32) (s : Kernel) :
    Ensures (taskFree task) s fun _ s' => (s.live task).isSome = true ∧ s'.live task = none := by
  unfold taskFree
  refine ensures_load fun t ht => ?_
  have hsome : (s.live task).isSome = true := by
    rw [ht]
    rfl
  refine Ensures.bind (Q := fun _ _ => True) (fun _ _ _ => trivial) fun _ s1 _ => ?_
  refine Ensures.bind (Q := fun _ _ => True) (fun _ _ _ => trivial) fun _ s2 _ => ?_
  refine Ensures.bind (Q := fun _ s3 => s3.live task = none) ?_ ?_
  · intro _ s3 hrun
    obtain ⟨-, rfl⟩ := kfree_eq_some.mp hrun
    exact Function.update_self ..
  · exact fun _ s3 hnone => Ensures.pure ⟨hsome, hnone⟩

/-! ## What is undone -/

/-- The process table, the task list, the open descriptors and the live allocations are what they
were. -/
structure Undone (s s' : Kernel) : Prop where
  processes : s'.processes = s.processes
  head : s'.task_head = s.task_head
  tail : s'.task_tail = s.task_tail
  current : s'.current_task = s.current_task
  links : ∀ task, taskNode s' task = taskNode s task
  slots : s'.file_descriptors = s.file_descriptors
  live : ∀ ptr, (s'.live ptr).isSome = (s.live ptr).isSome

theorem Undone.refl (s : Kernel) : Undone s s :=
  ⟨rfl, rfl, rfl, rfl, fun _ => rfl, rfl, fun _ => rfl⟩

/-- The variable that was not initialised leads to no task. -/
def CleanGarbage (s : Kernel) (garbage : UInt32) : Prop :=
  garbage = 0 ∨ ∃ p, s.live garbage = some (processK.inj p) ∧ p.task = 0

/-- How `process_load_for_slot` reaches its label `out`. -/
theorem NewProcess.into {s s1 : Kernel} {process : UInt32} (h : NewProcess s process s1)
    (filename : List UInt8) (process_slot : Int) :
    Ensures (processLoadInto filename process_slot process) s1 fun r s2 =>
      (r.1 < 0 ∧ r.2 = none ∧ ∃ p, DataLoaded s process s2 p) ∨
        ∃ sd p, DataLoaded s process sd p ∧ Mapped sd process process_slot r s2 := by
  rw [processLoadInto_eq]
  refine Ensures.bind (h.data filename) ?_
  rintro res s2 ⟨p, hp⟩
  refine Ensures.ite (fun hneg => Ensures.pure (Or.inl ⟨hneg, rfl, p, hp⟩)) fun _ => ?_
  intro r s3 hrun
  rcases processLoadTask_spec filename process_slot hp with
    ⟨-, hnomem⟩ | ⟨-, hstop, -⟩ | ⟨-, -, r', s', hrun', hmapped, -⟩
  · rw [hnomem] at hrun
    obtain ⟨rfl, rfl⟩ := Prod.mk.inj (Option.some.inj hrun)
    exact Or.inl ⟨by decide, rfl, p, hp⟩
  · rw [hstop] at hrun
    cases hrun
  · rw [hrun'] at hrun
    obtain ⟨rfl, rfl⟩ := Prod.mk.inj (Option.some.inj hrun)
    exact Or.inr ⟨s2, p, hp, hmapped⟩

/-- Once there is a process structure, it stays. -/
theorem NewProcess.leaks {s s1 : Kernel} {process : UInt32} (h : NewProcess s process s1)
    (filename : List UInt8) (process_slot : Int) :
    Ensures (do
      let (res, out) ← processLoadInto filename process_slot process
      processLoadCleanup res process
      return (res, out)) s1 fun _ s' => (s'.live process).isSome = true := by
  have hend : ∀ {s2 s3 : Kernel} {p : Process} (r : Int × Option UInt32),
      processLoadCleanup r.1 process s2 = some ((), s3) → s3.live process = some (processK.inj p) →
      Ensures (do
        processLoadCleanup r.1 process
        return (r.1, r.2)) s2 fun (_ : Int × Option UInt32) s' => (s'.live process).isSome = true := by
    intro s2 s3 p r hcleanup hp r' s' hrun
    rw [bind_of_some hcleanup] at hrun
    obtain ⟨-, rfl⟩ := pure_eq_some.mp hrun
    rw [hp]
    rfl
  refine Ensures.bind (h.into filename process_slot) ?_
  rintro r s2 (⟨-, -, p, hp⟩ | ⟨sd, p, -, hmapped⟩)
  · exact hend r (processLoadCleanup_noTask r.1 hp.live hp.task) hp.live
  · cases hmapped with
    | failed res s2 p t m hneg hstarted =>
        obtain ⟨s3, hcleanup, hlive⟩ := hstarted.cleanup hneg
        exact hend (res, none) hcleanup hlive
    | ok s2 p t hlow hhigh hid hstarted => exact hend (OK, some process) rfl hstarted.live

/-- **What a load that fails leaves behind.** When `process_load_for_slot` does not succeed, it returns
an error and has changed nothing if and only if it stops at once: the slot is taken, and its
uninitialised variable leads to no task, or there is no room for the process structure. -/
theorem processLoadForSlot_undone_iff {s : Kernel} (hwf : s.WF) (garbage : UInt32) (filename : List UInt8)
    (process_slot : Int)
    (hfail : ¬ Total (processLoadForSlot garbage filename process_slot) s fun r _ => 0 ≤ r.1) :
    Total (processLoadForSlot garbage filename process_slot) s
        (fun r s' => r.1 < 0 ∧ r.2 = none ∧ Undone s s') ↔
      SlotTaken s process_slot ∧ CleanGarbage s garbage ∨
        ¬ SlotTaken s process_slot ∧ NoRoom s.heap SIZEOF_PROCESS := by
  by_cases htaken : SlotTaken s process_slot
  · rw [or_iff_left fun h => h.1 htaken, and_iff_right htaken]
    unfold Machine.Total
    rw [processLoadForSlot_taken htaken]
    constructor
    · rintro ⟨r, s', hrun, -, -, hundone⟩
      obtain ⟨_, s1, hcleanup, hpure⟩ := bind_eq_some.mp hrun
      obtain ⟨-, rfl⟩ := pure_eq_some.mp hpure
      by_cases hzero : garbage = 0
      · exact Or.inl hzero
      unfold processLoadCleanup at hcleanup
      rw [if_pos ⟨by decide, hzero⟩] at hcleanup
      obtain ⟨p, s2, hload, hrest⟩ := bind_eq_some.mp hcleanup
      obtain ⟨hp, rfl⟩ := load_eq_some.mp hload
      by_cases htask : p.task = 0
      · exact Or.inr ⟨p, hp, htask⟩
      · -- the task it leads to has been freed
        rw [if_pos htask] at hrest
        obtain ⟨_, s3, hfree, hpure⟩ := bind_eq_some.mp hrest
        obtain ⟨-, rfl⟩ := pure_eq_some.mp hpure
        obtain ⟨hsome, hnone⟩ := taskFree_frees p.task _ _ _ hfree
        have hlive := hundone.live p.task
        rw [hnone, hsome] at hlive
        cases hlive
    · intro hclean
      have hcleanup : processLoadCleanup (- EISTKN) garbage s = some ((), s) := by
        rcases hclean with hzero | ⟨p, hp, htask⟩
        · unfold processLoadCleanup
          rw [if_neg fun h => h.2 hzero]
          rfl
        · exact processLoadCleanup_noTask _ hp htask
      exact ⟨_, s, bind_of_some hcleanup, by decide, rfl, Undone.refl s⟩
  · rw [or_iff_right fun h => htaken h.1, and_iff_right htaken]
    unfold Machine.Total
    rw [processLoadForSlot_free htaken]
    rcases newProcess_spec hwf with ⟨hno, halloc⟩ | ⟨hroom, process, s0, s1, hne, halloc, hstore, hnew⟩
    · exact iff_of_true ⟨_, s, processLoadNew_full halloc filename process_slot, by decide, rfl,
        Undone.refl s⟩ hno
    · have hrun := processLoadNew_eq hne halloc hstore filename process_slot
      refine iff_of_false ?_ hroom
      rintro ⟨r, s', hrun', -, -, hundone⟩
      have hleak := hnew.leaks filename process_slot r s' (hrun ▸ hrun')
      have hlive := hundone.live process
      rw [hleak, hnew.fresh] at hlive
      cases hlive

/-- On a full heap a load undoes everything. -/
theorem processLoadForSlot_undone_full :
    NoRoom (bareKernel 0).heap SIZEOF_PROCESS ∧
    Total (processLoadForSlot 0 pathA 0) (bareKernel 0) fun r s' =>
      r.1 < 0 ∧ r.2 = none ∧ Undone (bareKernel 0) s' := by
  have hwf := bareKernel_wf 0
  have hfree : ¬ SlotTaken (bareKernel 0) 0 := fun h => h.2.2 rfl
  have hno : NoRoom (bareKernel 0).heap SIZEOF_PROCESS := by
    have hcount := bareKernel_freeCount (Nat.zero_le 25600)
    refine Or.inr fun b hb hrun => ?_
    have hle := Spacious.le_freeCount ⟨b, hb, hrun⟩
    rw [hcount] at hle
    exact absurd hle (by decide)
  have hfail : ¬ Total (processLoadForSlot 0 pathA 0) (bareKernel 0) fun r _ => 0 ≤ r.1 := by
    obtain ⟨-, halloc⟩ | ⟨hroom, -⟩ := newProcess_spec hwf
    · unfold Machine.Total
      rw [processLoadForSlot_free hfree, processLoadNew_full halloc]
      rintro ⟨r, s', hrun, hpos⟩
      obtain ⟨rfl, -⟩ := Prod.mk.inj (Option.some.inj hrun)
      exact absurd hpos (by decide)
    · exact absurd hno hroom
  exact ⟨hno, (processLoadForSlot_undone_iff hwf 0 pathA 0 hfail).mpr (Or.inr ⟨hfree, hno⟩)⟩

/-- The file `A` has two clusters, and the chain ends after the first one. -/
def cutFile : Kernel := oneFileKernel 600 (fun _ => 0) (fun _ _ => 0) 0

/-- `A` cannot be read: the load returns an error, and block 5, which was free, holds the process
structure. -/
theorem processLoadForSlot_leaves_process :
    cutFile.live (blockAddress 5) = none ∧
    Total (processLoadForSlot 0 pathA 0) cutFile (fun r s' =>
      r.1 = - EIO ∧ (s'.live (blockAddress 5)).isSome = true) ∧
    ¬ (Total (processLoadForSlot 0 pathA 0) cutFile (fun r _ => 0 ≤ r.1) ∨
      Total (processLoadForSlot 0 pathA 0) cutFile fun r s' =>
        r.1 < 0 ∧ r.2 = none ∧ Undone cutFile s') := by
  have hfree : cutFile.live (blockAddress 5) = none := by
    rw [cutFile, oneFileKernel_live (by decide)]
    rfl
  have hrun : Total (processLoadForSlot 0 pathA 0) cutFile fun r s' =>
      r.1 = - EIO ∧ (s'.live (blockAddress 5)).isSome = true := by decide +kernel
  refine ⟨hfree, hrun, ?_⟩
  obtain ⟨r, s', hload, hres, hleak⟩ := hrun
  rw [total_of_some hload, total_of_some hload, hres]
  rintro (hpos | ⟨-, -, hundone⟩)
  · exact absurd hpos (by decide)
  · have hlive := hundone.live (blockAddress 5)
    rw [hleak, hfree] at hlive
    cases hlive

end RasOS
