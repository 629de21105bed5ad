import RasOS.Task.TaskSpec
import RasOS.Lib.Traced

set_option autoImplicit false

/-! # Running out of blocks

`task_init` and `task_new` test for a directory that could not be made. But `paging_new_4gb` writes through
the null pointer at whichever of its allocations fails, and `task_new` then frees the directory that is
missing. The functions are copied here with a report of each pointer they read or write through. -/

namespace RasOS

open Machine Traced

/-- An access through a pointer. -/
inductive Access
  | read (ptr : UInt32)
  | write (ptr : UInt32)
  deriving DecidableEq

abbrev AccessM := Traced Access Kernel

namespace AccessTrace

def pagingNew4gbLoop (directory flags : UInt32) : (remaining i : Nat) → (offset : Int) → AccessM Unit
  | 0, _, _ => return ()
  | remaining + 1, i, offset => do
      let table ← kzalloc tableK 4096 fun _ => 0
      emit fun _ => .write table
      storeUnchecked tableK table (fillTable offset flags PAGE_TABLE_TOTAL_ENTRIES)
      emit fun _ => .write directory
      setEntryUnchecked directory i (table ||| flags ||| PAGING_IS_WRITABLE)
      pagingNew4gbLoop directory flags remaining (i + 1)
        (wrap (offset + PAGE_SIZE * PAGE_TABLE_TOTAL_ENTRIES))

def pagingNew4gb (flags : UInt32) : AccessM UInt32 := do
  let directory ← kzalloc tableK 4096 fun _ => 0
  pagingNew4gbLoop directory flags 1024 0 0
  let chunk_4gb ← kzalloc chunkK SIZEOF_PAGING_4GB_CHUNK 0
  emit fun _ => .write chunk_4gb
  storeUnchecked chunkK chunk_4gb directory
  return chunk_4gb

def pagingFree4gbLoop (chunk : UInt32) : (remaining i : Nat) → AccessM Unit
  | 0, _ => return ()
  | remaining + 1, i => do
      emit fun _ => .read chunk
      let directory_entry ← load chunkK chunk
      emit fun _ => .read directory_entry
      let entries ← load tableK directory_entry
      kfree tableK (entries i &&& 0xFFFFF000)
      pagingFree4gbLoop chunk remaining (i + 1)

def pagingFree4gb (chunk : UInt32) : AccessM Unit := do
  pagingFree4gbLoop chunk 1024 0
  emit fun _ => .read chunk
  let directory_entry ← load chunkK chunk
  kfree tableK directory_entry
  kfree chunkK chunk

def taskInit (task process : UInt32) : AccessM Int := do
  emit fun _ => .write task
  store taskK task {}
  let page_directory ← pagingNew4gb taskFlags
  emit fun _ => .write task
  let t ← load taskK task
  store taskK task { t with page_directory := page_directory }
  if page_directory = 0 then
    return - EIO
  else
    taskInitRegisters task process

def taskFree (task : UInt32) : AccessM Int := do
  emit fun _ => .read task
  let t ← load taskK task
  pagingFree4gb t.page_directory
  taskListRemove task
  kfree taskK task
  return OK

def taskNew (process : UInt32) : AccessM UInt32 := do
  let task ← kzalloc taskK SIZEOF_TASK {}
  let res ← if task = 0 then pure (- ENOMEM) else taskInit task process
  if res ≠ OK then do
    let _ ← taskFree task
    return ERROR res
  else
    taskAppend task

/-! ## Without the reports -/

theorem erase_pagingNew4gbLoop (directory flags : UInt32) : ∀ (remaining i : Nat) (offset : Int),
    (pagingNew4gbLoop directory flags remaining i offset).erase =
      RasOS.pagingNew4gbLoop directory flags remaining i offset := by
  intro remaining
  induction remaining with
  | zero => exact fun _ _ => erase_pure _
  | succ remaining ih =>
      intro i offset
      refine erase_bind (erase_lift _) fun table => erase_emit_bind _ ?_
      refine erase_bind (erase_lift _) fun _ => erase_emit_bind _ ?_
      exact erase_bind (erase_lift _) fun _ => ih _ _

theorem erase_pagingNew4gb (flags : UInt32) : (pagingNew4gb flags).erase = RasOS.pagingNew4gb flags := by
  refine erase_bind (erase_lift _) fun directory => ?_
  refine erase_bind (erase_pagingNew4gbLoop _ _ _ _ _) fun _ => ?_
  refine erase_bind (erase_lift _) fun chunk_4gb => erase_emit_bind _ ?_
  exact erase_bind (erase_lift _) fun _ => erase_pure _

theorem erase_pagingFree4gb (chunk : UInt32) : (pagingFree4gb chunk).erase = RasOS.pagingFree4gb chunk := by
  have hloop : ∀ remaining i : Nat,
      (pagingFree4gbLoop chunk remaining i).erase = RasOS.pagingFree4gbLoop chunk remaining i := by
    intro remaining
    induction remaining with
    | zero => exact fun _ => erase_pure _
    | succ remaining ih =>
        intro i
        refine erase_emit_bind _ (erase_bind (erase_lift _) fun directory_entry => erase_emit_bind _ ?_)
        refine erase_bind (erase_lift _) fun entries => ?_
        exact erase_bind (erase_lift _) fun _ => ih _
  refine erase_bind (hloop _ _) fun _ => erase_emit_bind _ ?_
  refine erase_bind (erase_lift _) fun directory_entry => ?_
  exact erase_bind (erase_lift _) fun _ => erase_lift _

theorem erase_taskInit (task process : UInt32) : (taskInit task process).erase = RasOS.taskInit task process := by
  refine erase_emit_bind _ (erase_bind (erase_lift _) fun _ => ?_)
  refine erase_bind (erase_pagingNew4gb _) fun page_directory => erase_emit_bind _ ?_
  refine erase_bind (erase_lift _) fun t => erase_bind (erase_lift _) fun _ => ?_
  exact erase_ite (erase_pure _) (erase_lift _)

theorem erase_taskFree (task : UInt32) : (taskFree task).erase = RasOS.taskFree task := by
  refine erase_emit_bind _ (erase_bind (erase_lift _) fun t => ?_)
  refine erase_bind (erase_pagingFree4gb _) fun _ => erase_bind (erase_lift _) fun _ => ?_
  exact erase_bind (erase_lift _) fun _ => erase_pure _

theorem erase_taskNew (process : UInt32) : (taskNew process).erase = RasOS.taskNew process := by
  have hend : ∀ (task : UInt32) (res : Int), Traced.erase (if res ≠ OK then
      taskFree task >>= fun _ => pure (ERROR res) else liftM (taskAppend task) : AccessM UInt32) =
      if res ≠ OK then RasOS.taskFree task >>= fun _ => pure (ERROR res) else taskAppend task := fun task res =>
    erase_ite (erase_bind (erase_taskFree task) fun _ => erase_pure _) (erase_lift _)
  refine erase_bind (erase_lift _) fun task => ?_
  by_cases hnull : task = 0
  · rw [if_pos hnull, if_pos hnull]
    exact erase_bind (erase_pure _) fun res => hend task res
  · rw [if_neg hnull, if_neg hnull]
    exact erase_bind (erase_taskInit task process) fun res => hend task res

/-! ## Null is written -/

/-- The loop comes to a table that it does not get. -/
theorem pagingLoop_write_of_full {s0 : Kernel} {directory flags : UInt32} (hwf : s0.WF)
    (hflags : flags.toNat < 4096) : ∀ (remaining i : Nat) (offset : Int) (s : Kernel) (e : Nat → UInt32),
      offset % 2 ^ 32 = 4194304 * i % 2 ^ 32 → Filling s0 directory flags e i s → freeCount s.heap < remaining →
      .write 0 ∈ (pagingNew4gbLoop directory flags remaining i offset).events s := by
  intro remaining
  induction remaining with
  | zero => exact fun i offset s e _ _ hlt => absurd hlt (Nat.not_lt_zero _)
  | succ remaining ih =>
      intro i offset s e hoffset h hlt
      obtain ⟨ptr, s1, halloc, hcases⟩ := kzalloc_spec tableK 4096 (fun _ => 0) h.lent.wf
      refine mem_events_of_some halloc ?_
      by_cases hptr : ptr = 0
      · rw [hptr]
        exact mem_events_emit
      · obtain ⟨s2, s3, e', hstore, hset, hfilling, hcount⟩ := h.step hwf hflags hoffset hcases hptr
        refine mem_events_behind (mem_events_of_some hstore ?_)
        refine mem_events_behind (mem_events_of_some hset ?_)
        exact ih (i + 1) _ s3 e' (offset_next hoffset) hfilling (by omega)

/-- **An allocation that fails is written through.** -/
theorem paging_write_of_full {s : Kernel} {flags : UInt32} (hwf : s.WF) (hflags : flags.toNat < 4096)
    (hlt : freeCount s.heap < 1026) : .write 0 ∈ (pagingNew4gb flags).events s := by
  have hone : blocksFor 4096 = 1 := by decide
  obtain ⟨directory, s1, hdir, hcases⟩ := kzalloc_spec tableK 4096 (fun _ => 0) hwf
  by_cases hptr : directory = 0
  · -- there is no block for the first table, either
    have hfull := (noRoom_one_iff hone).mp ((hcases.null_iff hwf).mp hptr)
    refine mem_events_of_some (kzalloc_full tableK _ hwf hone hfull) (mem_events_bind ?_)
    exact mem_events_of_some (kzalloc_full tableK _ hwf hone hfull) mem_events_emit
  · have hcount := hcases.freeCount hwf hptr
    have hstart : Filling s directory flags (fun _ => 0) 0 s1 := filling_start hwf hcases hptr
    refine mem_events_of_some hdir ?_
    rcases pagingNew4gbLoop_filling hwf hflags 1024 0 0 s1 _ rfl hstart with
      ⟨hlt1, -⟩ | ⟨s2, e, hloop, hfilled, hcount2⟩
    · exact mem_events_bind (pagingLoop_write_of_full hwf hflags 1024 0 0 s1 _ rfl hstart hlt1)
    · -- the blocks are enough for the tables, but not for the chunk
      have hfull : freeCount s2.heap = 0 := by omega
      rw [← erase_pagingNew4gbLoop] at hloop
      refine mem_events_of_some hloop ?_
      exact mem_events_of_some (kzalloc_full chunkK _ hfilled.lent.wf (by decide) hfull) mem_events_emit

/-- The missing directory, or the missing task, is read by `task_free`. -/
theorem taskNew_read_of_full {s : Kernel} (hwf : s.WF) (process : UInt32) (hlt : freeCount s.heap < 1027) :
    .read 0 ∈ (taskNew process).events s := by
  obtain ⟨task, s1, halloc, hcases⟩ := kzalloc_spec taskK SIZEOF_TASK {} hwf
  refine mem_events_of_some halloc ?_
  by_cases hnull : task = 0
  · rw [if_pos hnull, hnull]
    refine mem_events_of_some rfl ?_
    beta_reduce
    rw [if_pos (by decide)]
    exact mem_events_bind mem_events_emit
  · obtain ⟨hfree, hlive⟩ := hcases.live hnull
    have hcount := hcases.freeCount hwf hnull
    have hone : blocksFor SIZEOF_TASK = 1 := by decide
    rw [if_neg hnull]
    rcases taskInit_spec process (hcases.since hwf) hfree hlive with
      ⟨-, s2, hinit, -, htask⟩ | ⟨hroom, -⟩ | ⟨_, _, s2, -, -, -, -, -, -, hcount2⟩
    · rw [← erase_taskInit] at hinit
      refine mem_events_of_some hinit ?_
      beta_reduce
      rw [if_pos (by decide)]
      refine mem_events_bind (mem_events_behind ?_)
      refine mem_events_of_some (load_of_live htask) (mem_events_bind (mem_events_bind ?_))
      exact mem_events_emit
    · omega
    · omega

end AccessTrace

/-! ## What a failure comes to -/

/-- `paging_new_4gb` returns null, writes nothing through null and keeps no block. -/
structure PagingNewFails (flags : UInt32) (s : Kernel) : Prop where
  returns : Total (pagingNew4gb flags) s fun chunk s' => chunk = 0 ∧ s'.heap = s.heap ∧ s'.live = s.live
  unwritten : .write 0 ∉ (AccessTrace.pagingNew4gb flags).events s

/-- `task_new` returns an error, keeps no block, leaves the tasks as they are and does not read the missing
directory. -/
structure TaskNewFails (process : UInt32) (s : Kernel) : Prop where
  returns : Total (taskNew process) s fun task s' => signed task < 0 ∧ s'.heap = s.heap ∧ s'.live = s.live ∧
    s'.statics = s.statics
  unread : .read 0 ∉ (AccessTrace.taskNew process).events s

/-- **A directory that cannot be made** is written all the same, and freed. -/
theorem pagingNew4gb_exhausted {s : Kernel} (hwf : s.WF) {flags : UInt32} (hflags : flags.toNat < 256)
    (process : UInt32) :
    (freeCount s.heap < 1026 → ¬ PagingNewFails flags s) ∧
      (freeCount s.heap < 1027 → ¬ TaskNewFails process s) :=
  ⟨fun hlt hfails => hfails.unwritten (AccessTrace.paging_write_of_full hwf (by omega) hlt),
    fun hlt hfails => hfails.unread (AccessTrace.taskNew_read_of_full hwf process hlt)⟩

theorem pagingNew4gb_exhausted_three : ¬ PagingNewFails 5 (bareKernel 3) ∧ ¬ TaskNewFails 0 (bareKernel 3) := by
  have hcount := bareKernel_freeCount (by decide : 3 ≤ 25600)
  obtain ⟨hpaging, htask⟩ := pagingNew4gb_exhausted (bareKernel_wf 3) (by decide : (5 : UInt32).toNat < 256) 0
  exact ⟨hpaging (by omega), htask (by omega)⟩

/-- Three blocks are left: one for the task, one for the directory and one for its first table. -/
theorem pagingNew4gb_writes_null : (bareKernel 3).WF ∧ freeCount (bareKernel 3).heap < 1026 ∧
    .write 0 ∈ (AccessTrace.pagingNew4gb taskFlags).events (bareKernel 3) ∧
    ¬ PagingNewFails taskFlags (bareKernel 3) ∧ ∀ process, ¬ TaskNewFails process (bareKernel 3) := by
  have hcount := bareKernel_freeCount (by decide : 3 ≤ 25600)
  have hnull := AccessTrace.paging_write_of_full (bareKernel_wf 3) (by decide : taskFlags.toNat < 4096) (by omega)
  refine ⟨bareKernel_wf 3, by omega, hnull, fun hfails => hfails.unwritten hnull, fun process hfails => ?_⟩
  exact hfails.unread (AccessTrace.taskNew_read_of_full (bareKernel_wf 3) process (by omega))

end RasOS
