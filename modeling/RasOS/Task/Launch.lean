import RasOS.Idt.Dispatch
import RasOS.Keyboard.Fifo
import RasOS.Programs.UserSpace
import RasOS.Task.CleanHeap
import RasOS.Task.Isolation
import RasOS.Task.Protection

set_option autoImplicit false

/-! # From a loaded process to a running program

`process_load_switch` loads a process and brings it to the foreground; `task_run_first_ever_task` enters it. What
has been loaded is in the state in which the kernel answers whatever comes next. -/

namespace RasOS

open Machine

/-! ## The code -/

def processSwitch (process : UInt32) : KernelM Int := do
  assign fun s => { s with current_process := process }
  return 0

/-- `process_load_switch`: the result and what it stores in `*process`. -/
def processLoadSwitch (garbage : UInt32) (filename : List UInt8) : KernelM (Int × Option UInt32) := do
  let (res, out) ← processLoad garbage filename
  if res = 0 then do
    let _ ← processSwitch (out.getD 0)
    return (res, out)
  else
    return (res, out)

/-- `task_return` up to its `iretd`, as far as the system has to do with it: the data segments are loaded. -/
def taskReturnSegments (regs : Registers) : SystemM Unit := fun s =>
  some ((), { s with selectors := regs.ss.toUInt16 })

/-- `task_run_first_ever_task`: the registers with which the program is entered. -/
def taskRunFirstEverTask : SystemM Registers := do
  let current_task ← onKernel taskCurrent
  if current_task = 0 then
    panic "task_run_first_ever_task(): No current task exists!\n"
  else do
    let task_head ← onKernel (fetch fun s => s.task_head)
    let _ ← onKernel (taskSwitch task_head)
    let task ← onKernel (load taskK task_head)
    taskReturnSegments task.registers
    return task.registers

/-! ## Before and after the load -/

/-- A kernel without tasks, on a directory of its own. -/
structure Idle (k : Kernel) (kernel_chunk kernel_directory : UInt32) : Prop where
  wf : k.WF
  clean : CleanHeap k.heap
  kernel : k.live kernel_chunk = some (chunkK.inj kernel_directory)
  identity : Maps k kernel_chunk (identityEntry bounceFlags)
  tasks : TaskList k []

/-- A kernel with a process in the foreground that has not run yet. -/
structure Ready (k : Kernel) (kernel_chunk kernel_directory directory : UInt32) (e m : Nat → UInt32)
    (process : UInt32) (p : Process) (t : Task) : Prop where
  hosted : Hosted k kernel_chunk kernel_directory directory e m
  live : k.live process = some (processK.inj p)
  attached : Attached k process p.task {}
  head : k.task_head = p.task
  task : k.live p.task = some (taskK.inj t)
  chunk : k.live t.page_directory = some (chunkK.inj directory)
  registers : ∃ ip, t.registers = startRegisters ip
  starts : StartsLoaded k p t.registers.ip
  stack : ∀ va : UInt32, 0x3FB000 ≤ va.toNat → va.toNat < 0x3FF000 → va.toNat % 4 = 0 → UserWord e m va
  kept : ∀ image_end stack_begin, KernelKept image_end stack_begin k p →
    KernelInPlace image_end stack_begin kernel_chunk e m

section Finished

variable {sd s : Kernel} {process : UInt32} {slot : Nat} {p : Process} {t : Task} {m : Nat → UInt32}

/-- Whatever the image says, no page is absent. -/
theorem Finished.page_present (h : Finished sd process slot s p t) (hm : Maps s t.page_directory m) :
    ∀ page < 2 ^ 20, m page &&& PAGING_IS_PRESENT ≠ 0 := by
  have hflags : ∀ {phys flags : UInt32}, phys.toNat % 4096 = 0 →
      (phys ||| flags) &&& PAGING_IS_PRESENT = flags &&& PAGING_IS_PRESENT :=
    fun haligned => flags_or_page haligned (by decide)
  refine (h.forall_page_iff hm (P := fun _ entry => entry &&& PAGING_IS_PRESENT ≠ 0)).mpr ⟨fun k hk => ?_,
    fun page phys flags himage _ _ => ?_, fun page hpage _ _ => ?_⟩
  · have hrange := Allocated.range h.wf h.started.stack_size
    rw [stackEntry, hflags (by rw [toNat_ofNat_of_lt (by omega)]; omega)]
    decide
  · obtain ⟨haligned, -, hpresent⟩ := himage.parts h.wf h.loaded
    rw [hflags haligned]
    exact hpresent
  · rw [identityEntry, hflags (by rw [toNat_ofNat_of_lt (by omega)]; omega)]
    decide

/-- The program may write to its stack. -/
theorem Finished.stack_word (h : Finished sd process slot s p t) (hm : Maps s t.page_directory m) {e : Nat → UInt32}
    (he : ∀ i < 1024, e i &&& 7 = 7) {va : UInt32} (h1 : 0x3FB000 ≤ va.toNat) (h2 : va.toNat < 0x3FF000)
    (haligned : va.toNat % 4 = 0) : UserWord e m va := by
  have hstack : Allocated s.heap p.stack 4 := h.started.stack_size
  have hrange := hstack.range h.wf
  refine ⟨haligned, he _ (by omega), ?_⟩
  obtain ⟨k, hk, hpage⟩ : ∃ k, k < 4 ∧ va.toNat / 4096 = 0x3FB + k :=
    ⟨va.toNat / 4096 - 0x3FB, by omega, by omega⟩
  rw [hm.unique h.maps (by omega), overlay_apply, hpage, lastWrite_stack h.wf hstack hk, Option.getD_some, stackEntry,
    flags_or_page (by rw [toNat_ofNat_of_lt (by omega)]; omega) (by decide)]
  decide

end Finished

/-! ## What a load costs -/

section Cost

variable {s : Kernel}

theorem taskInit_count (task process : UInt32) (hwf : s.WF) : Ensures (taskInit task process) s fun r s' =>
    r = OK → freeCount s'.heap + 1026 = freeCount s.heap := by
  refine ensures_store fun t ht => ?_
  intro r s' hrun hok
  rcases pagingNew4gb_cases (hwf.write (k := taskK) ht {}) (by decide : taskFlags.toNat < 4096) with
    ⟨-, s2, hnull, hsince, -⟩ | ⟨chunk, directory, e, s2, hnew, -, -, hcount⟩
  · have ht2 : s2.live task = some (taskK.inj {}) := hsince.object _ _ (Kind.write_self ..)
    rw [bind_of_some hnull, bind_of_some (load_of_live ht2), bind_of_some (store_of_live ht2 _), if_pos rfl] at hrun
    obtain ⟨rfl, -⟩ := Prod.mk.inj (Option.some.inj hrun)
    exact absurd hok (by decide)
  rw [bind_of_some hnew] at hrun
  have hsame : Keeps SameHeap (load taskK task >>= fun t =>
      store taskK task { t with page_directory := chunk } >>= fun _ =>
        if chunk = 0 then Pure.pure (- EIO) else taskInitRegisters task process) :=
    sameHeap_bind (sameHeap_load _ _) fun t => sameHeap_bind (sameHeap_store _ _ _) fun _ =>
      Keeps.ite (sameHeap_pure _) (sameHeap_taskInitRegisters task process)
  rw [show s'.heap = s2.heap from hsame _ _ _ hrun]
  exact hcount

/-- A task takes a block, and its directory 1026. -/
theorem taskNew_count (process : UInt32) (hwf : s.WF) : Ensures (taskNew process) s fun r s' =>
    ISERR r = false → freeCount s'.heap + 1027 = freeCount s.heap := by
  have hone : blocksFor SIZEOF_TASK = 1 := by decide
  have hend : ∀ (task : UInt32) (res : Int) (s2 : Kernel),
      (res = OK → freeCount s2.heap + 1027 = freeCount s.heap) → (res = OK ∨ -2 ^ 31 ≤ res ∧ res < 0) →
        Ensures (if res ≠ OK then taskFree task >>= fun _ => Pure.pure (ERROR res) else taskAppend task) s2
          fun r s' => ISERR r = false → freeCount s'.heap + 1027 = freeCount s.heap := by
    intro task res s2 hcount hres
    refine Ensures.ite (fun hne => ?_) fun hok => ?_
    · obtain ⟨hlow, hneg⟩ := hres.resolve_left hne
      refine Ensures.bind (Q := fun _ _ => True) (fun _ _ _ => trivial) fun _ _ _ => Ensures.pure fun herr => ?_
      rw [ISERR_ERROR hlow hneg] at herr
      cases herr
    · refine ((sameHeap_taskAppend task).ensures s2).mono fun r s' hsame _ => ?_
      rw [show s'.heap = s2.heap from hsame]
      exact hcount (not_not.mp hok)
  refine Ensures.bind (Q := fun ptr s1 => Kzalloc taskK SIZEOF_TASK {} s ptr s1)
    (fun _ _ h => kzalloc_cases hwf h) fun ptr s1 hcases => Ensures.ite (fun _ => ?_) fun hne => ?_
  · refine Ensures.bind (Ensures.pure (Q := fun res _ => res = - ENOMEM) rfl) ?_
    rintro _ s2 rfl
    exact hend ptr _ s2 (fun hok => absurd hok (by decide)) (Or.inr (by decide))
  have hwf1 := (hcases.since hwf).wf
  have hcount := hcases.freeCount hwf hne
  rw [hone] at hcount
  refine Ensures.bind (fun res s2 hrun => And.intro (taskInit_count ptr process hwf1 res s2 hrun)
    (taskInit_status ptr process s1 res s2 hrun)) ?_
  rintro res s2 ⟨hinit, hstatus⟩
  refine hend ptr res s2 (fun hok => ?_) hstatus
  have hleft := hinit hok
  omega

/-- Behind the file a load that does not fail takes 1031 blocks. -/
theorem processLoadTask_count (filename : List UInt8) (process_slot : Int) (process : UInt32) (hwf : s.WF) :
    Ensures (processLoadTask filename process_slot process) s fun r s' =>
      r.1 < 0 ∨ freeCount s'.heap + 1031 = freeCount s.heap := by
  obtain ⟨stack, s1, halloc, hbytes⟩ := kzallocBytes_spec hwf RASOS_USER_PROGRAM_STACK_SIZE
  refine (ensures_bind_of_some halloc).mpr (Ensures.ite (fun _ => Ensures.pure (Or.inl (by decide))) fun hne => ?_)
  have hcount := hbytes.freeCount hne
  rw [blocksFor_stack] at hcount
  have hwf1 := hbytes.since.wf
  rcases taskNew_spec hwf1 process with ⟨-, hstop⟩ | ⟨-, task, s2, -, hnew, htask, -⟩
  · intro r s' hrun
    rw [bind_of_none hstop] at hrun
    cases hrun
  have hcount2 := taskNew_count process hwf1 task s2 hnew htask.not_iserr
  refine (ensures_bind_of_some hnew).mpr (Ensures.ite (fun hnull => absurd hnull htask.ne_zero) fun _ => ?_)
  have hsame : Keeps SameHeap (load processK process >>= fun p => store processK process { p with
      filename := strncpy filename RASOS_PATH_MAX_LEN
      stack := stack
      id := UInt16.ofInt process_slot
      task := task } >>= fun _ => processLoadMap process_slot process) := by
    refine sameHeap_bind (sameHeap_load _ _) fun p => sameHeap_bind (sameHeap_store _ _ _) fun _ => ?_
    refine sameHeap_bind (sameHeap_processMapMemory _) fun res => Keeps.ite (sameHeap_pure _) ?_
    exact Keeps.ite Keeps.stop (sameHeap_bind (sameHeap_assign fun _ => rfl) fun _ => sameHeap_pure _)
  refine (hsame.ensures s2).mono fun r s' hheap => Or.inr ?_
  rw [show s'.heap = s2.heap from hheap]
  omega

/-- The stack is mapped in the directory that is there. -/
theorem sameHeap_processLoadStack (r : Int × Option UInt32) : Keeps SameHeap (processLoadStack r) := by
  refine Keeps.ite (sameHeap_pure _) (sameHeap_bind (sameHeap_load _ _) fun p => ?_)
  refine sameHeap_bind (sameHeap_load _ _) fun t => sameHeap_bind (sameHeap_pagingMapTo _ _ _ _ _) fun _ => ?_
  exact sameHeap_pure _

/-- **What a load costs**: what its file takes, and 1031 blocks. -/
theorem processLoad_count (hwf : s.WF) (garbage : UInt32) (filename : List UInt8) :
    Ensures (processLoad garbage filename) s fun r s' => r.1 < 0 ∨
      ∃ r' sd, processLoadFile filename s = some (r', sd) ∧ freeCount s'.heap + 1031 = freeCount sd.heap := by
  intro r s' hrun
  rcases processLoad_cases s garbage filename with ⟨-, hfull⟩ | ⟨-, slot, -, -, heq⟩
  · rw [hfull] at hrun
    obtain ⟨rfl, -⟩ := Prod.mk.inj (Option.some.inj hrun)
    exact Or.inl (by decide)
  rw [heq] at hrun
  rcases newProcess_spec hwf with ⟨-, halloc⟩ | ⟨-, process, s0, s1, hne, halloc, hstore, hnew⟩
  · rw [bind_of_some (processLoadNew_full halloc filename slot), processLoadStack, if_pos (by decide)] at hrun
    obtain ⟨rfl, -⟩ := Prod.mk.inj (Option.some.inj hrun)
    exact Or.inl (by decide)
  rw [processLoadNew_end hne halloc hstore] at hrun
  obtain ⟨res, sd, hload, hrest⟩ := bind_eq_some.mp hrun
  obtain ⟨p, hp⟩ := hnew.data filename res sd hload
  have hend : ∀ r : Int × Option UInt32, r.1 < 0 → processLoadEnd process r sd = some (r, sd) :=
    fun r hneg => processLoadEnd_negative hneg (processLoadCleanup_noTask _ hp.live hp.task)
  by_cases hneg : res < 0
  · rw [if_pos hneg, bind_of_some (pure_apply _ _), hend (res, none) hneg] at hrest
    obtain ⟨rfl, -⟩ := Prod.mk.inj (Option.some.inj hrest)
    exact Or.inl hneg
  rw [if_neg hneg] at hrest
  obtain ⟨r1, s2, htask, hstack⟩ := bind_eq_some.mp hrest
  have hfile : processLoadFile filename s = some ((process, res), sd) := by
    rw [processLoadFile_eq halloc hstore, bind_of_some hload]
    rfl
  by_cases hneg1 : r1.1 < 0
  · obtain ⟨_, s3, hcleanup, hlast⟩ := bind_eq_some.mp hstack
    rw [processLoadStack, if_pos hneg1] at hlast
    obtain ⟨rfl, -⟩ := Prod.mk.inj (Option.some.inj hlast)
    exact Or.inl hneg1
  · -- nothing is freed
    have hcount := (processLoadTask_count filename slot process hp.frame.wf r1 s2 htask).resolve_left hneg1
    rw [processLoadEnd, processLoadCleanup, if_neg fun h => hneg1 h.1, bind_of_some (pure_apply _ _)] at hstack
    have hheap : s'.heap = s2.heap := sameHeap_processLoadStack r1 _ _ _ hstack
    refine Or.inr ⟨_, sd, hfile, ?_⟩
    rw [hheap]
    exact hcount

end Cost

/-- Loading the file leaves everything else alone. -/
theorem processLoadFile_frame {s : Kernel} (hwf : s.WF) (filename : List UInt8) :
    Ensures (processLoadFile filename) s fun _ sd => FileFrame s sd := by
  rcases newProcess_spec hwf with ⟨-, halloc⟩ | ⟨-, process, s0, s1, hne, halloc, hstore, hnew⟩
  · have hnull : store processK 0 {} s = none := by
      rw [store, Kind.read, hwf.live_zero]
      rfl
    intro r sd hrun
    unfold processLoadFile at hrun
    rw [bind_of_some halloc, bind_of_none hnull] at hrun
    cases hrun
  · intro r sd hrun
    rw [processLoadFile_eq halloc hstore] at hrun
    obtain ⟨res, sd', hload, hpure⟩ := bind_eq_some.mp hrun
    obtain ⟨-, rfl⟩ := pure_eq_some.mp hpure
    obtain ⟨p, hp⟩ := hnew.data filename res sd' hload
    exact hp.frame

section Launch

variable {k : Kernel} {kernel_chunk kernel_directory : UInt32}

/-- **The first load.** When it succeeds with a block left, the process is ready to run, whatever its file has
asked for. -/
theorem processLoadSwitch_ready (h : Idle k kernel_chunk kernel_directory) (garbage : UInt32) (filename : List UInt8) :
    Ensures (processLoadSwitch garbage filename) k fun r k' => r.1 = OK → 0 < freeCount k'.heap →
      ∃ directory e m process p t, r.2 = some process ∧
        Ready k' kernel_chunk kernel_directory directory e m process p t := by
  refine Ensures.bind (fun r s hrun => And.intro hrun (And.intro (processLoad_own h.wf garbage filename r s hrun)
    (keepsClean_processLoad garbage filename k r s hrun))) ?_
  rintro ⟨res, out⟩ s ⟨hload, ⟨hkept, hfresh⟩, hclean⟩
  refine Ensures.ite (fun hzero => ?_) fun hne => Ensures.pure fun hzero => absurd hzero hne
  obtain ⟨process, res', sd, slot, p, t, hout, hfile, -, hfinished⟩ :=
    processLoad_finished h.wf garbage filename _ _ hload (by dsimp only; omega)
  obtain ⟨-, rfl⟩ := Prod.mk.inj hout
  rcases hfresh with hneg | ⟨process', hprocess', p', t', ip, hp', hkeyboard, ht', hregisters⟩
  · dsimp only at hneg
    omega
  obtain rfl := Option.some.inj hprocess'
  -- it is the same process and the same task
  have hlive : s.live process = some (processK.inj p) := hfinished.started.live
  obtain rfl := processK.inj_injective (Option.some.inj (hp'.symm.trans hlive))
  have htask : s.live p'.task = some (taskK.inj t) := hfinished.started.task
  obtain rfl := taskK.inj_injective (Option.some.inj (ht'.symm.trans htask))
  have hwf := hfinished.wf
  have hmaps := hfinished.maps
  obtain ⟨directory, e, hby, he⟩ := maps_iff.mp hmaps
  have hlist : TaskList { s with processes := sd.processes } [p'.task] :=
    hfinished.started.list [] ((processLoadFile_frame h.wf filename _ _ hfile).taskList h.tasks)
  have hcurrent : s.current_task = p'.task := by
    have hmem := hlist.current
    rw [if_neg (List.cons_ne_nil _ _)] at hmem
    exact List.mem_singleton.mp hmem
  have hhead : s.task_head = p'.task := hlist.head
  have hback : t'.process = process := hfinished.started.back
  refine (ensures_bind_of_some rfl).mpr (Ensures.pure fun _ hroom => ?_)
  refine ⟨directory, e, _, process, p', t', rfl, ?_, hlive, ?_, hhead, htask, hby.1, ⟨ip, hregisters⟩, ?_,
    fun va h1 h2 haligned => hfinished.stack_word hmaps he h1 h2 haligned,
    fun image_end stack_begin hcovers => ?_⟩
  · refine ⟨hwf.of_live rfl fun q o ho => ⟨o, ho⟩, hclean h.clean, hroom, ⟨t', ?_, ?_, p', ?_⟩, ⟨fun i hi hzero => ?_,
      hfinished.page_present hmaps⟩, hkept _ _ h.kernel rfl, ?_, fun _ => ⟨p', hlive⟩⟩
    · rw [← hcurrent] at htask
      exact htask
    · exact hby.congr fun q o _ ho => ho
    · rw [hback]
      exact hlive
    · -- an entry of the directory
      have hall : e i &&& 7 &&& PAGING_IS_PRESENT = 0 := by
        rw [UInt32.and_assoc]
        exact hzero
      rw [he i hi] at hall
      exact absurd hall (by decide)
    · exact (hkept.maps h.identity).congr fun q o _ ho => ho
  · exact ⟨hwf.ne_zero hlive, hwf.ne_zero htask, rfl, hcurrent, ⟨t', htask, hback⟩, p', hlive, hkeyboard⟩
  · have himage : ImageKept { s with processes := sd.processes } { s with current_process := process } :=
      ⟨fun _ _ ho _ => ho, rfl, fun _ _ hn => hn⟩
    exact (hfinished.started.loaded.kept himage rfl rfl rfl).startsLoaded hfinished.started.file
      (hfinished.started.entry.kept himage rfl rfl)
  · -- only the process in the foreground is another one
    have hsame : KernelKept image_end stack_begin s p' := ⟨hcovers.stack, hcovers.binary, hcovers.elf⟩
    exact hfinished.kernelInPlace hby he hsame (hkept _ _ h.kernel rfl)

/-- **Entering the program.** -/
theorem taskRunFirstEverTask_enters {s : System} {directory : UInt32} {e m : Nat → UInt32} {process : UInt32}
    {p : Process} {t : Task}
    (h : Ready s.kernel s.kernel_chunk kernel_directory directory e m process p t)
    (hlayout : LaidOut s) (hplace : LeavesKernel s e m) :
    taskRunFirstEverTask s = some (t.registers, s.paged 0x23 directory) ∧
      InProgram (s.paged 0x23 directory) kernel_directory directory e m := by
  obtain ⟨ip, hregisters⟩ := h.registers
  have hcurrent : onKernel taskCurrent s = some (s.kernel.current_task, s) := rfl
  have hne : s.kernel.current_task ≠ 0 := by
    rw [h.attached.current_task]
    exact h.attached.task_ne
  have hhead : onKernel (fetch fun s => s.task_head) s = some (p.task, s) := by
    rw [← h.head]
    rfl
  have hsame : ({ s.kernel with current_task := p.task } : Kernel) = s.kernel := by
    rw [← h.attached.current_task]
  have hswitch : taskSwitch p.task s.kernel = some (OK, { s.kernel with current_directory := directory }) := by
    rw [taskSwitch, bind_of_some (assign_apply _ _), hsame, bind_of_some (load_of_live h.task),
      bind_of_some (pagingSwitch_of_live h.chunk)]
    rfl
  have hload : onKernel (load taskK p.task) { s with kernel := { s.kernel with current_directory := directory } } =
      some (t, _) :=
    onKernel_of_some (s := { s with kernel := { s.kernel with current_directory := directory } }) (load_of_live h.task)
  refine ⟨?_, h.hosted.serviced (Serviced.of_directory s.kernel directory), rfl, rfl,
    ⟨hlayout.chunk_variable, hlayout.buffer⟩, hplace⟩
  rw [taskRunFirstEverTask, bind_of_some hcurrent, if_neg hne, bind_of_some hhead,
    bind_of_some (onKernel_of_some hswitch), bind_of_some hload, hregisters]
  rfl

end Launch

/-! ## A kernel that loads `A` -/

theorem mappedKernel_idle : Idle mappedKernel (blockAddress 3025) (blockAddress 2000) := by
  refine ⟨mappedKernel_wf, withDirectory_clean fun i hi hfree => ?_, ?_, mappedKernel_maps, ?_⟩
  · change (if _ then _ else _) = _
    by_cases hused : (i : Int) < 5 ∨ 1000 ≤ (i : Int) ∧ (i : Int) < 1000 + 4 * (0 : Nat)
    · change isBlockTaken (if _ then _ else _) = false at hfree
      rw [if_pos hused] at hfree
      cases hfree
    · rw [if_neg hused]
  · exact withDirectory_live (j := 1025) (by decide) (by decide)
  · exact ⟨List.not_mem_nil, List.nodup_nil, trivial, rfl, rfl, rfl⟩

/-- `A` is loaded and ready. -/
theorem processLoadSwitch_ready_A : ∃ k' directory e m p t,
    processLoadSwitch 0 pathA mappedKernel = some ((OK, some (blockAddress 5)), k') ∧
      Ready k' (blockAddress 3025) (blockAddress 2000) directory e m (blockAddress 5) p t ∧
      KernelInPlace 0x10D 0x5FF (blockAddress 3025) e m := by
  obtain ⟨s', sd0, slot, p0, t0, f, hload, hfinished, helf⟩ := mappedKernel_load
  have hrun : processLoadSwitch 0 pathA mappedKernel =
      some ((OK, some (blockAddress 5)), { s' with current_process := blockAddress 5 }) := by
    rw [processLoadSwitch, bind_of_some hload]
    rfl
  obtain ⟨r, sd, hfile, hcount⟩ :=
    (processLoad_count mappedKernel_wf 0 pathA _ s' hload).resolve_left (by decide)
  have hfree := mappedKernel_run.room mappedKernel_wf hfile
  have hroom : 0 < freeCount s'.heap := by omega
  obtain ⟨directory, e, m, process, p, t, hout, hready⟩ :=
    processLoadSwitch_ready mappedKernel_idle 0 pathA _ _ hrun rfl hroom
  obtain rfl := Option.some.inj hout
  refine ⟨_, directory, e, m, p, t, hrun, hready, hready.kept _ _ ?_⟩
  -- its page is above the stack of the kernel
  have hkept : KernelKept 0x10D 0x5FF s' p0 :=
    helf.kernelKept (by decide) (by decide) (by decide) (by unfold KernelPage; decide)
  obtain rfl := processK.inj_injective (Option.some.inj (hready.live.symm.trans hfinished.started.live))
  exact ⟨hkept.stack, hkept.binary, hkept.elf⟩

end RasOS
