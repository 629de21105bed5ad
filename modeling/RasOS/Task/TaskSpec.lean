import RasOS.Loader.ElfHeader
import RasOS.Task.Task
import RasOS.Memory.PagingRuns
import RasOS.Lib.Linked

set_option autoImplicit false

/-! # Creating a task

`task_new` takes 1027 blocks, one for the task and the rest for its directory. With fewer of them
free it comes to free a directory that was never made, and there it stops, as it does when there is no ELF
header to take the entry point from. -/

namespace RasOS

open Machine

/-! ## The entry point -/

/-- Where a process starts. -/
inductive EntryPoint (s : Kernel) (p : Process) : UInt32 → Prop
  | elf (f : ElfFile) (htype : p.filetype = PROCESS_FILETYPE_ELF)
      (hfile : s.live p.ptr = some (elfFileK.inj f)) (hmem : f.elf_memory ≠ 0) :
      EntryPoint s p (headerAt s.mem f.elf_memory).e_entry
  | binary (htype : p.filetype ≠ PROCESS_FILETYPE_ELF) :
      EntryPoint s p RASOS_PROGRAM_VIRTUAL_ADDRESS

theorem taskEntry_spec (s : Kernel) (p : Process) :
    (¬ ∃ ip, EntryPoint s p ip) ∧ taskEntry p s = none ∨
      ∃ ip, EntryPoint s p ip ∧ taskEntry p s = some (ip, s) := by
  unfold taskEntry
  by_cases htype : p.filetype = PROCESS_FILETYPE_ELF
  · rw [if_pos htype]
    cases hheader : elfHeader p.ptr s with
    | none =>
        refine Or.inl ⟨?_, bind_of_none hheader⟩
        rintro ⟨ip, hip⟩
        cases hip with
        | elf f _ hfile hmem =>
            rw [elfHeader_of_live hfile hmem] at hheader
            cases hheader
        | binary hbin => exact hbin htype
    | some r =>
        obtain ⟨header, s'⟩ := r
        obtain ⟨f, hfile, hmem, rfl, rfl⟩ := elfHeader_eq_some hheader
        exact Or.inr ⟨_, .elf f htype hfile hmem, bind_of_some hheader⟩
  · rw [if_neg htype]
    exact Or.inr ⟨_, .binary htype, rfl⟩

/-- The entry point depends on the file structures and the memory alone. -/
theorem EntryPoint.congr {s s' : Kernel} {p : Process} {ip : UInt32}
    (hfile : ∀ f, s'.live p.ptr = some (elfFileK.inj f) ↔ s.live p.ptr = some (elfFileK.inj f))
    (hmem : s'.mem = s.mem) : EntryPoint s' p ip ↔ EntryPoint s p ip := by
  constructor
  · intro h
    cases h with
    | elf f htype hf hne =>
        rw [hmem]
        exact .elf f htype ((hfile f).mp hf) hne
    | binary htype => exact .binary htype
  · intro h
    cases h with
    | elf f htype hf hne =>
        rw [← hmem]
        exact .elf f htype ((hfile f).mpr hf) hne
    | binary htype => exact .binary htype

/-! ## `task_init` -/

/-- A task as `task_init` leaves it. -/
def initialTask (page_directory ip process : UInt32) : Task where
  page_directory := page_directory
  registers := {
    ip := ip
    ss := USER_DATA_SEGMENT
    cs := USER_CODE_SEGMENT
    esp := RASOS_PROGRAM_VIRTUAL_STACK_ADDRESS_BOTTOM }
  process := process

/-- There is a process at `process`, and it starts at `ip`. -/
def StartsAt (s : Kernel) (process ip : UInt32) : Prop :=
  ∃ p, s.live process = some (processK.inj p) ∧ EntryPoint s p ip

/-- A task is not a process, a file structure or part of a directory. -/
theorem taskK_apart_processK : taskK.Apart processK := fun _ _ h => Obj.noConfusion h

theorem taskK_apart_elfFileK : taskK.Apart elfFileK := fun _ _ h => Obj.noConfusion h

theorem startsAt_congr {s s' : Kernel} {process ip : UInt32}
    (hprocess : ∀ p, s'.live process = some (processK.inj p) ↔ s.live process = some (processK.inj p))
    (hfile : ∀ q f, s'.live q = some (elfFileK.inj f) ↔ s.live q = some (elfFileK.inj f))
    (hmem : s'.mem = s.mem) : StartsAt s' process ip ↔ StartsAt s process ip :=
  exists_congr fun p => and_congr (hprocess p) (EntryPoint.congr (hfile p.ptr) hmem)

theorem taskInitRegisters_spec {s : Kernel} {task chunk : UInt32} (process : UInt32)
    (htask : s.live task = some (taskK.inj { page_directory := chunk })) :
    (¬ ∃ ip, StartsAt s process ip) ∧ taskInitRegisters task process s = none ∨
      ∃ ip, StartsAt s process ip ∧ taskInitRegisters task process s
        = some (OK, { s with live := taskK.write s.live task (initialTask chunk ip process) }) := by
  unfold taskInitRegisters
  cases hload : load processK process s with
  | none =>
      refine Or.inl ⟨?_, bind_of_none hload⟩
      rintro ⟨ip, p, hp, -⟩
      rw [load_of_live hp] at hload
      cases hload
  | some r =>
      obtain ⟨p, s'⟩ := r
      obtain ⟨hp, rfl⟩ := load_eq_some.mp hload
      rw [bind_of_some hload]
      rcases taskEntry_spec s' p with ⟨hnone, hstop⟩ | ⟨ip, hip, hrun⟩
      · refine Or.inl ⟨?_, bind_of_none hstop⟩
        rintro ⟨ip, p', hp', hip⟩
        obtain rfl : p' = p := Kind.inj_injective _ (Option.some.inj (hp'.symm.trans hp))
        exact hnone ⟨ip, hip⟩
      · refine Or.inr ⟨ip, ⟨p, hp, hip⟩, ?_⟩
        rw [bind_of_some hrun, bind_of_some (load_of_live htask), bind_of_some (store_of_live htask _)]
        rfl

theorem taskInit_spec {s0 s : Kernel} {task : UInt32} (process : UInt32) (hsince : Since s0 s)
    (hnew : s0.live task = none) (htask : s.live task = some (taskK.inj {})) :
    (freeCount s.heap < 1026 ∧ ∃ s', taskInit task process s = some (- EIO, s') ∧ s'.WF ∧
      s'.live task = some (taskK.inj {})) ∨
    ((1026 ≤ freeCount s.heap ∧ ¬ ∃ ip, StartsAt s process ip) ∧ taskInit task process s = none) ∨
    ∃ chunk ip s', taskInit task process s = some (OK, s') ∧ Since s0 s' ∧
      s'.live task = some (taskK.inj (initialTask chunk ip process)) ∧ StartsAt s process ip ∧
      Maps s' chunk (identityEntry taskFlags) ∧ s'.mem = s.mem ∧
      freeCount s'.heap + 1026 = freeCount s.heap := by
  have hsince1 := hsince.write (k := taskK) hnew htask {}
  rw [taskInit, bind_of_some (store_of_live htask {})]
  rcases pagingNew4gb_spec taskFlags hsince1.wf (by decide) (by decide) with
    ⟨hlt, s2, hpaging, hsince2, -⟩ | ⟨chunk, s2, hpaging, hsince2, hne, hfree, hmaps, hcount⟩
  · have htask2 : s2.live task = some (taskK.inj {}) := hsince2.object _ _ (Kind.write_self ..)
    refine Or.inl ⟨hlt, _, ?_, hsince2.wf.write (k := taskK) htask2 {}, Kind.write_self ..⟩
    rw [bind_of_some hpaging, bind_of_some (load_of_live htask2), bind_of_some (store_of_live htask2 _), if_pos rfl]
    rfl
  · refine Or.inr ?_
    have hframe := keepsPaging_new _ _ _ _ hpaging hsince1.wf
    have htask2 : s2.live task = some (taskK.inj {}) := hsince2.object _ _ (Kind.write_self ..)
    have hsince3 := (hsince1.trans hsince2).write (k := taskK) hnew htask2 { page_directory := chunk }
    have hstarts : ∀ ip, StartsAt
        { s2 with live := taskK.write s2.live task { page_directory := chunk } } process ip ↔
          StartsAt s process ip := by
      intro ip
      refine startsAt_congr (fun p => ?_) (fun q f => ?_) hframe.mem
      · calc taskK.write s2.live task { page_directory := chunk } process = some (processK.inj p)
            ↔ s2.live process = some (processK.inj p) :=
              Kind.write_apart taskK_apart_processK htask2
          _ ↔ taskK.write s.live task {} process = some (processK.inj p) := hframe.object _ _ rfl
          _ ↔ s.live process = some (processK.inj p) := Kind.write_apart taskK_apart_processK htask
      · calc taskK.write s2.live task { page_directory := chunk } q = some (elfFileK.inj f)
            ↔ s2.live q = some (elfFileK.inj f) := Kind.write_apart taskK_apart_elfFileK htask2
          _ ↔ taskK.write s.live task {} q = some (elfFileK.inj f) := hframe.object _ _ rfl
          _ ↔ s.live q = some (elfFileK.inj f) := Kind.write_apart taskK_apart_elfFileK htask
    rw [bind_of_some hpaging, bind_of_some (load_of_live htask2),
      bind_of_some (store_of_live htask2 _), if_neg hne]
    rcases taskInitRegisters_spec process
      (s := { s2 with live := taskK.write s2.live task { page_directory := chunk } })
      (Kind.write_self ..) with ⟨hnone, hstop⟩ | ⟨ip, hip, hrun⟩
    · have hroom : 1026 ≤ freeCount s.heap := by
        rw [← hcount]
        exact Nat.le_add_left _ _
      exact Or.inl ⟨⟨hroom, fun ⟨ip, hip⟩ => hnone ⟨ip, (hstarts ip).mpr hip⟩⟩, hstop⟩
    · refine Or.inr ⟨chunk, ip, _, hrun, hsince3.write (k := taskK) hnew (Kind.write_self ..) _,
        Kind.write_self .., (hstarts ip).mp hip, ?_, hframe.mem, hcount⟩
      -- the task is not one of the objects of the directory
      refine hmaps.congr fun q o hp hq => ?_
      have hqt : q ≠ task := by
        rintro rfl
        rw [htask2] at hq
        obtain rfl := Option.some.inj hq
        cases hp
      exact (Kind.write_of_ne _ _ _ hqt).trans ((Kind.write_of_ne _ _ _ hqt).trans hq)

/-! ## `task_new` -/

/-- A directory that is missing cannot be freed. -/
theorem taskFree_null {s : Kernel} (hwf : s.WF) {task : UInt32} {t : Task} (ht : s.live task = some (taskK.inj t))
    (hnull : t.page_directory = 0) : taskFree task s = none := by
  have hload : load chunkK 0 s = none := by
    rw [load, Kind.read, hwf.live_zero]
    rfl
  rw [taskFree, bind_of_some (load_of_live ht), hnull]
  exact bind_of_none (bind_of_none (bind_of_none hload))

/-- What a successful `task_new` has done: a new task with its directory, as the only task or behind
the last one. `s5` is the state before the task is linked. -/
inductive TaskNew (s : Kernel) (process task : UInt32) : Kernel → Prop
  | first (s5 : Kernel) (hsince : Since s s5) (hempty : s.task_head = 0) (chunk ip : UInt32)
      (hnew : s.live task = none)
      (htask : s5.live task = some (taskK.inj (initialTask chunk ip process)))
      (hstarts : StartsAt s process ip) (hmaps : Maps s5 chunk (identityEntry taskFlags))
      (hmem : s5.mem = s.mem) :
      TaskNew s process task { s5 with task_head := task, task_tail := task, current_task := task }
  | append (s5 : Kernel) (hsince : Since s s5) (hhead : s.task_head ≠ 0) (chunk ip : UInt32)
      (hnew : s.live task = none)
      (htask : s5.live task = some (taskK.inj (initialTask chunk ip process)))
      (hstarts : StartsAt s process ip) (hmaps : Maps s5 chunk (identityEntry taskFlags))
      (hmem : s5.mem = s.mem) (last t : Task) (hlast : s5.live s.task_tail = some (taskK.inj last))
      (ht : taskK.write s5.live s.task_tail { last with next := task } task = some (taskK.inj t)) :
      TaskNew s process task { s5 with
        live := taskK.write (taskK.write s5.live s.task_tail { last with next := task }) task
          { t with prev := s.task_tail }
        task_tail := task }

/-- What `task_new` needs, the list apart. -/
structure TaskRoom (s : Kernel) (process : UInt32) : Prop where
  blocks : 1027 ≤ freeCount s.heap
  starts : ∃ ip, StartsAt s process ip

/-- There is a task to append to, or no task yet. -/
def TailLive (s : Kernel) : Prop :=
  s.task_head = 0 ∨ ∃ last, s.live s.task_tail = some (taskK.inj last)

/-- Where the next task is allocated. -/
def NextTask (s : Kernel) (task : UInt32) : Prop :=
  ∃ s1, kzalloc taskK SIZEOF_TASK {} s = some (task, s1)

/-- **Creating a task.** A tail that dangles is no obstacle when the new task gets its block. -/
theorem taskNew_spec {s : Kernel} (hwf : s.WF) (process : UInt32) :
    ¬ (TaskRoom s process ∧ (TailLive s ∨ NextTask s s.task_tail)) ∧ taskNew process s = none ∨
    TaskRoom s process ∧ ∃ task s', NextTask s task ∧ taskNew process s = some (task, s') ∧
      TaskNew s process task s' ∧ freeCount s'.heap + 1027 = freeCount s.heap := by
  have hone : blocksFor SIZEOF_TASK = 1 := by decide
  obtain ⟨task, s1, halloc, hcases⟩ := kzalloc_spec taskK SIZEOF_TASK {} hwf
  have hsince1 := hcases.since hwf
  rw [taskNew, bind_of_some halloc]
  by_cases hnull : task = 0
  · -- the null pointer is handed to `task_free`
    have hcount := (noRoom_one_iff hone).mp ((hcases.null_iff hwf).mp hnull)
    refine Or.inl ⟨fun ⟨hroom, _⟩ => ?_, ?_⟩
    · have := hroom.blocks
      omega
    · have hload : load taskK task s1 = none := by
        rw [load, Kind.read, hnull, hsince1.wf.live_zero]
        rfl
      rw [if_pos hnull, bind_of_some (pure_apply _ _)]
      beta_reduce
      rw [if_pos (by decide)]
      refine bind_of_none ?_
      rw [taskFree, bind_of_none hload]
  · obtain ⟨hfree, hlive⟩ := hcases.live hnull
    have hcount := hcases.freeCount hwf hnull
    have hstarts : ∀ ip, StartsAt s1 process ip ↔ StartsAt s process ip := by
      intro ip
      exact startsAt_congr (fun p => hcases.apart taskK_apart_processK _ p)
        (fun q f => hcases.apart taskK_apart_elfFileK q f) hcases.mem
    rw [if_neg hnull]
    rcases taskInit_spec process hsince1 hfree hlive with
      ⟨hlt, s5, hinit, hwf5, htask⟩ | ⟨⟨-, hno⟩, hstop⟩ |
        ⟨chunk, ip, s5, hinit, hsince5, htask, hip, hmaps, hmem, hcount5⟩
    · refine Or.inl ⟨fun ⟨hroom, _⟩ => ?_, ?_⟩
      · have := hroom.blocks
        omega
      · rw [bind_of_some hinit]
        beta_reduce
        rw [if_pos (by decide)]
        exact bind_of_none (taskFree_null hwf5 htask rfl)
    · refine Or.inl ⟨fun ⟨hroom, _⟩ => ?_, bind_of_none hstop⟩
      obtain ⟨ip, hip⟩ := hroom.starts
      exact hno ⟨ip, (hstarts ip).mpr hip⟩
    · have hblocks : 1027 ≤ freeCount s.heap := by omega
      have hmem' : s5.mem = s.mem := by
        rw [hmem, hcases.mem]
      have hhead : s5.task_head = s.task_head := congrArg Statics.task_head hsince5.statics
      have htail : s5.task_tail = s.task_tail := congrArg Statics.task_tail hsince5.statics
      rw [bind_of_some hinit]
      beta_reduce
      rw [if_neg (by decide), taskAppend, bind_of_some (fetch_apply _ _), hhead]
      by_cases hempty : s.task_head = 0
      · refine Or.inr ⟨⟨hblocks, ⟨ip, (hstarts ip).mp hip⟩⟩, task, _, ⟨s1, halloc⟩, ?_,
          .first s5 hsince5 hempty chunk ip hfree htask ((hstarts ip).mp hip) hmaps hmem', ?_⟩
        · rw [if_pos hempty, bind_of_some (assign_apply _ _)]
          rfl
        · show freeCount s5.heap + 1027 = freeCount s.heap
          omega
      · rw [if_neg hempty, bind_of_some (fetch_apply _ _), htail]
        cases hload : load taskK s.task_tail s5 with
        | none =>
            refine Or.inl ⟨fun ⟨_, htail'⟩ => ?_, bind_of_none hload⟩
            rcases htail' with (hzero | ⟨last, hlast⟩) | ⟨s1', halloc'⟩
            · exact hempty hzero
            · rw [load_of_live (hsince5.object _ _ hlast)] at hload
              cases hload
            · obtain ⟨heq, -⟩ := Prod.mk.inj (Option.some.inj (halloc.symm.trans halloc'))
              rw [load_of_live (heq ▸ htask)] at hload
              cases hload
        | some r =>
            obtain ⟨last, s6⟩ := r
            obtain ⟨hlast, rfl⟩ := load_eq_some.mp hload
            obtain ⟨t, ht⟩ : ∃ t, taskK.write s6.live s.task_tail { last with next := task } task
                = some (taskK.inj t) := by
              by_cases heq : task = s.task_tail
              · exact ⟨_, by rw [← heq]; exact Kind.write_self ..⟩
              · exact ⟨_, (Kind.write_of_ne _ _ _ heq).trans htask⟩
            refine Or.inr ⟨⟨hblocks, ⟨ip, (hstarts ip).mp hip⟩⟩, task, _, ⟨s1, halloc⟩, ?_,
              .append s6 hsince5 hempty chunk ip hfree htask ((hstarts ip).mp hip) hmaps hmem' last t
                hlast ht, ?_⟩
            · rw [bind_of_some hload, bind_of_some (store_of_live hlast _),
                bind_of_some (load_of_live ht), bind_of_some (store_of_live ht _)]
              rfl
            · show freeCount s6.heap + 1027 = freeCount s.heap
              omega

end RasOS
