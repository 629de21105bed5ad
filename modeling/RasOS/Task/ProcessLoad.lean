import RasOS.Fs.PathParts
import RasOS.Task.ElfMapping
import RasOS.Task.FileLoads
import RasOS.Task.Outcome

set_option autoImplicit false

/-! # What `process_load` returns

`process_load` takes the first free slot, loads the process and maps its stack. It checks every result but
two: whether the file was found at all, and whether there was memory for the task. -/

namespace RasOS

open Machine

/-! ## The stack -/

/-- The writes that map the stack. -/
def stackWrites (p : Process) : List (Nat × UInt32) :=
  mapToWrites RASOS_PROGRAM_VIRTUAL_STACK_ADDRESS_TOP p.stack
    (pagingAlignAddress (p.stack + RASOS_USER_PROGRAM_STACK_SIZE))
    (PAGING_IS_PRESENT ||| PAGING_ACCESS_BY_ALL ||| PAGING_IS_WRITABLE)

/-- The entry of a page of the stack. -/
def stackEntry (p : Process) (k : Nat) : UInt32 :=
  UInt32.ofNat (p.stack.toNat + 4096 * k) |||
    (PAGING_IS_PRESENT ||| PAGING_ACCESS_BY_ALL ||| PAGING_IS_WRITABLE)

theorem blocksFor_stack : blocksFor RASOS_USER_PROGRAM_STACK_SIZE = 4 := by decide

/-- Four pages from `0x3FB000` on. -/
theorem stackWrites_eq {s : Kernel} (hwf : s.WF) {p : Process} (hstack : Allocated s.heap p.stack 4) :
    stackWrites p = (List.range 4).map fun k => (0x3FB + k, stackEntry p k) := by
  have hrange := hstack.range hwf
  rw [← blocksFor_stack] at hstack
  have hend := hstack.align hwf
  have hle : p.stack ≤ pagingAlignAddress (p.stack + RASOS_USER_PROGRAM_STACK_SIZE) := by
    rw [UInt32.le_iff_toNat_le, hend]
    omega
  have hcount : (pagingAlignAddress (p.stack + RASOS_USER_PROGRAM_STACK_SIZE) - p.stack).toNat / 4096 = 4 := by
    rw [UInt32.toNat_sub_of_le _ _ hle, hend, blocksFor_stack]
    omega
  rw [stackWrites, mapToWrites, hcount, rangeWrites]
  refine List.map_congr_left fun k hk => ?_
  have hk' := List.mem_range.mp hk
  have hvirt : (RASOS_PROGRAM_VIRTUAL_STACK_ADDRESS_TOP + UInt32.ofNat (4096 * k)).toNat / 4096 = 0x3FB + k := by
    have htop : RASOS_PROGRAM_VIRTUAL_STACK_ADDRESS_TOP.toNat = 0x3FB000 := by decide
    rw [UInt32.toNat_add, htop, toNat_ofNat_of_lt (by omega)]
    omega
  have hphys : p.stack + UInt32.ofNat (4096 * k) = UInt32.ofNat (p.stack.toNat + 4096 * k) := by
    apply UInt32.toNat_inj.mp
    rw [UInt32.toNat_add, toNat_ofNat_of_lt (by omega), toNat_ofNat_of_lt (by omega)]
    omega
  rw [hvirt, hphys, stackEntry]

theorem lastWrite_stack {s : Kernel} (hwf : s.WF) {p : Process} (hstack : Allocated s.heap p.stack 4) {k : Nat}
    (hk : k < 4) : lastWrite (0x3FB + k) (stackWrites p) = some (stackEntry p k) := by
  rw [stackWrites_eq hwf hstack]
  refine lastWrite_of_mem (List.mem_map_of_mem (List.mem_range.mpr hk)) fun w hw heq => ?_
  obtain ⟨j, -, rfl⟩ := List.mem_map.mp hw
  obtain rfl : j = k := by
    dsimp only at heq
    omega
  rfl

/-- The addresses of the stack are translated to it, writable for the user. -/
theorem stack_translates {s : Kernel} (hwf : s.WF) {p : Process} (hstack : Allocated s.heap p.stack 4)
    (m : Nat → UInt32) {va : UInt32} (h1 : 0x3FB000 ≤ va.toNat) (h2 : va.toNat < 0x3FF000) :
    Translates (overlay m (stackWrites p) (va.toNat / 4096)) va (p.stack.toNat + (va.toNat - 0x3FB000)) True := by
  have hrange := hstack.range hwf
  obtain ⟨k, hk, hpage⟩ : ∃ k, k < 4 ∧ va.toNat / 4096 = 0x3FB + k :=
    ⟨va.toNat / 4096 - 0x3FB, by omega, by omega⟩
  have hlt : p.stack.toNat + 4096 * k < 2 ^ 32 := by omega
  have haligned : (UInt32.ofNat (p.stack.toNat + 4096 * k)).toNat % 4096 = 0 := by
    rw [toNat_ofNat_of_lt hlt]
    omega
  rw [overlay_apply, hpage, lastWrite_stack hwf hstack hk, Option.getD_some]
  unfold stackEntry
  refine ⟨?_, ?_, ?_, iff_of_true ?_ trivial⟩
  · rw [page_or_flags haligned (by decide), toNat_ofNat_of_lt hlt]
    omega
  · rw [flags_or_page haligned (by decide)]
    decide
  · rw [flags_or_page haligned (by decide)]
    decide
  · rw [flags_or_page haligned (by decide)]
    decide

/-- The rest of `process_load` behind `process_load_for_slot`. -/
def processLoadStack (r : Int × Option UInt32) : KernelM (Int × Option UInt32) := do
  if r.1 < 0 then
    return (r.1, r.2)
  else do
    let p ← load processK (r.2.getD 0)
    let t ← load taskK p.task
    let _ ← pagingMapTo t.page_directory RASOS_PROGRAM_VIRTUAL_STACK_ADDRESS_TOP p.stack
      (pagingAlignAddress (p.stack + RASOS_USER_PROGRAM_STACK_SIZE))
      (PAGING_IS_PRESENT ||| PAGING_ACCESS_BY_ALL ||| PAGING_IS_WRITABLE)
    return (r.1, r.2)

/-- A process that has been loaded into a slot; `sd` is the state in which its file has been loaded. Its
directory is the identity after the writes of the image and of the stack. -/
structure Finished (sd : Kernel) (process : UInt32) (slot : Nat) (s : Kernel) (p : Process) (t : Task) :
    Prop where
  started : Started sd process { s with processes := sd.processes } p t
    (overlay (overlay (identityEntry taskFlags) (imageWrites s p)) (stackWrites p))
  in_table : slot < RASOS_MAX_PROCESSES
  id : p.id.toNat = slot
  processes : s.processes = Function.update sd.processes slot process

/-- The directory of its task. -/
theorem Finished.maps {sd s : Kernel} {process : UInt32} {slot : Nat} {p : Process} {t : Task}
    (h : Finished sd process slot s p t) : Maps s t.page_directory
      (overlay (overlay (identityEntry taskFlags) (imageWrites s p)) (stackWrites p)) :=
  h.started.maps.congr fun _ _ _ hq => hq

/-- Mapping the stack of a process that has been mapped. -/
theorem processLoadStack_spec {sd s : Kernel} {process : UInt32} {process_slot : Int} {p : Process} {t : Task}
    (hlow : 0 ≤ process_slot) (hhigh : process_slot < RASOS_MAX_PROCESSES)
    (hid : p.id = UInt16.ofInt process_slot)
    (h : Started sd process s p t (overlay (identityEntry taskFlags) (imageWrites s p))) :
    ∃ s', processLoadStack (OK, some process) { s with
        processes := Function.update s.processes process_slot.toNat process } = some ((OK, some process), s') ∧
      Finished sd process process_slot.toNat s' p t := by
  have hrange := h.stack_size.range h.wf
  have hend : (pagingAlignAddress (p.stack + RASOS_USER_PROGRAM_STACK_SIZE)).toNat = p.stack.toNat + 4096 * 4 :=
    (blocksFor_stack ▸ h.stack_size).align h.wf
  generalize hs0 : ({ s with
    processes := Function.update s.processes process_slot.toNat process } : Kernel) = s0
  have hlive0 : s0.live = s.live := by rw [← hs0]
  have hmaps0 : Maps s0 t.page_directory (overlay (identityEntry taskFlags) (imageWrites s p)) :=
    h.maps.congr fun q o _ hq => by rw [hlive0]; exact hq
  have hp : s0.live process = some (processK.inj p) := by rw [hlive0]; exact h.live
  have ht : s0.live p.task = some (taskK.inj t) := by rw [hlive0]; exact h.task
  obtain ⟨res, s', hrun, honly, hcases⟩ := pagingMapTo_spec hmaps0 RASOS_PROGRAM_VIRTUAL_STACK_ADDRESS_TOP p.stack
    (pagingAlignAddress (p.stack + RASOS_USER_PROGRAM_STACK_SIZE))
    (PAGING_IS_PRESENT ||| PAGING_ACCESS_BY_ALL ||| PAGING_IS_WRITABLE)
  have hle : p.stack ≤ pagingAlignAddress (p.stack + RASOS_USER_PROGRAM_STACK_SIZE) := by
    rw [UInt32.le_iff_toNat_le, hend]
    omega
  rcases hcases with ⟨-, -, hno⟩ | ⟨-, -, hmaps⟩
  · exact absurd ⟨by decide, hrange.2.2.1, pagingAlignAddress_aligned _, hle⟩ hno
  refine ⟨s', ?_, ?_⟩
  · unfold processLoadStack
    rw [if_neg (by decide : ¬ (OK : Int) < 0), Option.getD_some, bind_of_some (load_of_live hp),
      bind_of_some (load_of_live ht), bind_of_some hrun]
    rfl
  -- the same without the entry in the process table
  have hrest := honly.rest
  rw [← hs0] at hrest
  have hprocesses : s'.processes = Function.update s.processes process_slot.toNat process :=
    congrArg Kernel.processes hrest
  have honly' : TablesOnly s { s' with processes := sd.processes } := by
    refine ⟨?_, fun ptr o ho hne => honly.object ptr o (hlive0 ▸ ho) hne,
      fun ptr e he => honly.table ptr e (hlive0 ▸ he), fun ptr o ho => ?_⟩
    · rw [hrest, ← h.processes]
    · rw [← hlive0]
      exact honly.live ptr o ho
  have hwrites : imageWrites { s' with processes := sd.processes } p = imageWrites s p :=
    imageWrites_congr honly'.imageKept h.loaded h.file
  have hmaps' : Maps { s' with processes := sd.processes } t.page_directory
      (overlay (overlay (identityEntry taskFlags) (imageWrites s' p)) (stackWrites p)) := by
    rw [show imageWrites s' p = imageWrites s p from hwrites]
    exact hmaps.congr fun q o _ hq => hq
  refine ⟨h.tables honly' hmaps', ?_, ?_, ?_⟩
  · omega
  · have hmax : ((RASOS_MAX_PROCESSES : Nat) : Int) = 12 := rfl
    rw [hid, UInt16.ofInt, UInt16.toNat_ofNat']
    omega
  · rw [hprocesses, h.processes]

/-! ## The slot -/

theorem processGetFreeSlotLoop_spec (processes : Nat → UInt32) : ∀ remaining i : Nat,
    processGetFreeSlotLoop processes remaining i = - EISTKN ∧
        (∀ j, i ≤ j → j < i + remaining → processes j ≠ 0) ∨
      ∃ j, i ≤ j ∧ j < i + remaining ∧ processes j = 0 ∧ processGetFreeSlotLoop processes remaining i = j := by
  intro remaining
  induction remaining with
  | zero =>
      intro i
      refine Or.inl ⟨rfl, fun j h1 h2 => ?_⟩
      omega
  | succ remaining ih =>
      intro i
      rw [processGetFreeSlotLoop]
      by_cases hfree : processes i = 0
      · rw [if_pos hfree]
        exact Or.inr ⟨i, Nat.le_refl i, by omega, hfree, rfl⟩
      · rw [if_neg hfree]
        rcases ih (i + 1) with ⟨hloop, hall⟩ | ⟨j, h1, h2, hj, hloop⟩
        · refine Or.inl ⟨hloop, fun j h1 h2 => ?_⟩
          by_cases hji : j = i
          · rw [hji]
            exact hfree
          · exact hall j (by omega) (by omega)
        · exact Or.inr ⟨j, by omega, by omega, hj, hloop⟩

/-- No slot of the process table is free. -/
def TableFull (s : Kernel) : Prop := ∀ i < RASOS_MAX_PROCESSES, s.processes i ≠ 0

/-- The table is full, or the process is loaded into a free slot. -/
theorem processLoad_cases (s : Kernel) (garbage : UInt32) (filename : List UInt8) :
    TableFull s ∧ processLoad garbage filename s = some ((- EISTKN, none), s) ∨
      ¬ TableFull s ∧ ∃ slot : Nat, slot < RASOS_MAX_PROCESSES ∧ s.processes slot = 0 ∧
        processLoad garbage filename s = (processLoadNew filename slot >>= processLoadStack) s := by
  have hget : processGetFreeSlot s
      = some (processGetFreeSlotLoop s.processes RASOS_MAX_PROCESSES 0, s) := fetch_apply _ _
  unfold processLoad
  rw [bind_of_some hget]
  rcases processGetFreeSlotLoop_spec s.processes RASOS_MAX_PROCESSES 0 with
    ⟨hloop, hall⟩ | ⟨slot, -, hslot, hfree, hloop⟩
  · rw [hloop, if_pos (by decide)]
    exact Or.inl ⟨fun i hi => hall i (Nat.zero_le i) (by omega), rfl⟩
  · rw [hloop, if_neg (by omega)]
    have hnot : ¬ SlotTaken s slot := fun htaken => htaken.2.2 (by rw [Int.toNat_natCast]; exact hfree)
    refine Or.inr ⟨fun hfull => hfull slot (by omega) hfree, slot, by omega, hfree, ?_⟩
    rw [bind_apply, bind_apply, processLoadForSlot_free hnot]
    rfl

/-! ## What is loaded -/

/-- Where a process starts: at the entry point of an ELF image that has been loaded and validated, or at the
fixed address of a flat binary. -/
def StartsLoaded (s : Kernel) (p : Process) (ip : UInt32) : Prop :=
  (p.filetype = PROCESS_FILETYPE_ELF ∧ p.ptr ≠ 0 ∧
    ∃ f, ElfLoaded s p.ptr f ∧ ip = (headerAt s.mem f.elf_memory).e_entry) ∨
  p.filetype = PROCESS_FILETYPE_BINARY ∧ ip = RASOS_PROGRAM_VIRTUAL_ADDRESS

/-- A process that has been loaded, with its task; `s` is the state before. -/
structure IsLoaded (s : Kernel) (process : UInt32) (s' : Kernel) (p : Process) (t : Task) : Prop where
  process_ne : process ≠ 0
  live : s'.live process = some (processK.inj p)
  slot : p.id.toNat < RASOS_MAX_PROCESSES ∧ s'.processes p.id.toNat = process
  task_valid : p.task ≠ 0 ∧ ISERR p.task = false
  task : s'.live p.task = some (taskK.inj t)
  back : t.process = process
  appended : Appended s' p.task t
  list : ∀ l, TaskList s l → TaskList s' (l ++ [p.task])
  starts : StartsLoaded s' p t.registers.ip
  stack : s'.live p.stack = some (rawK.inj ()) ∧ Allocated s'.heap p.stack 4
  mapped : ∃ m, Maps s' t.page_directory m ∧ ∀ va : UInt32, 0x3FB000 ≤ va.toNat → va.toNat < 0x3FF000 →
    Translates (m (va.toNat / 4096)) va (p.stack.toNat + (va.toNat - 0x3FB000)) True

/-- What `process_load` is to return: a negative code, or zero and a loaded process. -/
def LoadsOrFails (s : Kernel) (r : Int × Option UInt32) (s' : Kernel) : Prop :=
  r.1 < 0 ∨ r.1 = 0 ∧ ∃ process p t, r.2 = some process ∧ IsLoaded s process s' p t

theorem ProcessLoaded.startsLoaded {s : Kernel} {p : Process} {ip : UInt32} (hloaded : ProcessLoaded s p)
    (hptr : p.ptr ≠ 0) (h : EntryPoint s p ip) : StartsLoaded s p ip := by
  cases hloaded with
  | missing htype hnull => exact absurd hnull hptr
  | elf f htype hfile =>
      cases h with
      | elf f' _ hlive hmem =>
          rw [hfile.live] at hlive
          obtain rfl := elfFileK.inj_injective (Option.some.inj hlive)
          exact Or.inl ⟨htype, hptr, f, hfile, rfl⟩
      | binary hno => exact absurd htype hno
  | binary htype himage hsize =>
      cases h with
      | elf f helf =>
          rw [htype] at helf
          exact absurd helf (by decide)
      | binary _ => exact Or.inr ⟨htype, rfl⟩

/-- A finished process is loaded as it should be when there was a task to append its task to. -/
theorem Finished.isLoaded_iff {s sd s' : Kernel} {process : UInt32} {slot : Nat} {p : Process} {t : Task}
    (h : Finished sd process slot s' p t) (hframe : FileFrame s sd) :
    IsLoaded s process s' p t ↔ TailLive sd := by
  have hwf := h.started.wf
  have hlinked : Appended s' p.task t ↔ TailLive sd := h.started.linked
  constructor
  · exact fun hloaded => hlinked.mp hloaded.appended
  · intro htail
    have htask : s'.live p.task = some (taskK.inj t) := h.started.task
    refine ⟨hwf.ne_zero h.started.live, h.started.live, ?_, ⟨hwf.ne_zero h.started.task,
      hwf.not_iserr h.started.task⟩, htask, h.started.back, hlinked.mpr htail, fun l hl => ?_, ?_,
      ⟨h.started.stack, h.started.stack_size⟩, _, h.maps, fun va h1 h2 => ?_⟩
    · rw [h.id, h.processes, Function.update_self]
      exact ⟨h.in_table, rfl⟩
    · exact (h.started.list l (hframe.taskList hl)).congr (fun _ _ ht => ht) rfl rfl rfl
    · have hkept : ImageKept { s' with processes := sd.processes } s' :=
        ⟨fun _ _ ho _ => ho, rfl, fun _ _ hn => hn⟩
      exact (h.started.loaded.kept hkept rfl rfl rfl).startsLoaded h.started.file
        (h.started.entry.kept hkept rfl rfl)
    · exact stack_translates hwf h.started.stack_size _ h1 h2

/-! ## The end of a load -/

/-- What follows when `process_load_for_slot` reaches its label `out` with a process. -/
def processLoadEnd (process : UInt32) (r : Int × Option UInt32) : KernelM (Int × Option UInt32) := do
  processLoadCleanup r.1 process
  processLoadStack r

theorem processLoadEnd_negative {s s' : Kernel} {process : UInt32} {r : Int × Option UInt32} (hneg : r.1 < 0)
    (hcleanup : processLoadCleanup r.1 process s = some ((), s')) :
    processLoadEnd process r s = some (r, s') := by
  unfold processLoadEnd
  rw [bind_of_some hcleanup, processLoadStack, if_pos hneg]
  rfl

/-- Once the image has been mapped, or that has failed. -/
theorem Mapped.end_run {sd t : Kernel} {process : UInt32} {process_slot : Int} {r : Int × Option UInt32}
    (h : Mapped sd process process_slot r t) : ∃ s', processLoadEnd process r t = some (r, s') ∧
      (r.1 < 0 ∨ r = (OK, some process) ∧ ∃ p task, Finished sd process process_slot.toNat s' p task) := by
  cases h with
  | failed res t p task m hneg hstarted =>
      obtain ⟨s', hcleanup, -⟩ := hstarted.cleanup hneg
      exact ⟨s', processLoadEnd_negative hneg hcleanup, Or.inl hneg⟩
  | ok s1 p task hlow hhigh hid hstarted =>
      obtain ⟨s', hrun, hfinished⟩ := processLoadStack_spec hlow hhigh hid hstarted
      have hzero : ¬ (OK : Int) < 0 := by decide
      refine ⟨s', ?_, Or.inr ⟨rfl, p, task, hfinished⟩⟩
      unfold processLoadEnd processLoadCleanup
      rw [if_neg fun h => absurd h.1 hzero, bind_of_some (pure_apply _ _)]
      exact hrun

theorem Mapped.end_iff {s sd t : Kernel} {process : UInt32} {process_slot : Int} {r : Int × Option UInt32}
    (h : Mapped sd process process_slot r t) (hframe : FileFrame s sd) :
    Total (processLoadEnd process r) t (LoadsOrFails s) ↔ r.1 < 0 ∨ TailLive sd := by
  obtain ⟨s', hrun, hneg | ⟨rfl, p, task, hfinished⟩⟩ := h.end_run
  · rw [total_of_some hrun]
    exact iff_of_true (Or.inl hneg) (Or.inl hneg)
  have hzero : ¬ (OK : Int) < 0 := by decide
  rw [total_of_some hrun, or_iff_right hzero, LoadsOrFails, or_iff_right hzero]
  constructor
  · rintro ⟨-, process', p', task', hout, hloaded⟩
    obtain rfl := Option.some.inj hout
    -- it is the same process and the same task
    have hp := hloaded.live.symm.trans hfinished.started.live
    obtain rfl := processK.inj_injective (Option.some.inj hp)
    have ht := hloaded.task.symm.trans hfinished.started.task
    obtain rfl := taskK.inj_injective (Option.some.inj ht)
    exact (hfinished.isLoaded_iff hframe).mp hloaded
  · exact fun htail => ⟨rfl, process, p, task, rfl, (hfinished.isLoaded_iff hframe).mpr htail⟩

/-- Load the file of a new process. -/
def processLoadFile (filename : List UInt8) : KernelM (UInt32 × Int) := do
  let process ← kzalloc processK SIZEOF_PROCESS {}
  store processK process {}
  let res ← processLoadData filename process
  return (process, res)

/-- Once the file is loaded, what the rest needs. The file has been found and there is memory for the
task; and the last task is there to be linked, or the block it dangles at is the one the new task gets
and the image cannot be mapped, so that the new task is freed again. -/
structure RestReturns (s : Kernel) (p : Process) : Prop where
  file : p.ptr ≠ 0
  blocks : 1031 ≤ freeCount s.heap
  tail : TailLive s ∨ Total stackAndTask s fun task s' => task = s.task_tail ∧ ¬ Mappable s' p

/-- Behind the file. -/
theorem DataLoaded.rest_iff {s sd : Kernel} {process : UInt32} {p : Process} (h : DataLoaded s process sd p)
    (filename : List UInt8) {slot : Nat} (hslot : slot < RASOS_MAX_PROCESSES) :
    Total (processLoadTask filename slot process >>= processLoadEnd process) sd (LoadsOrFails s) ↔
      NoRoom sd.heap RASOS_USER_PROGRAM_STACK_SIZE ∨ RestReturns sd p := by
  have hmax : ((RASOS_MAX_PROCESSES : Nat) : Int) = 12 := rfl
  rcases processLoadTask_spec filename slot h with
    ⟨hno, hrun⟩ | ⟨hroom, hstop, hnot⟩ | ⟨hroom, hready, r, s', hrun, hmapped, hmappable⟩
  · have hend := processLoadEnd_negative (r := (- ENOMEM, none)) (by decide) (processLoadCleanup_noTask _ h.live h.task)
    rw [total_bind_of_some hrun, total_of_some hend]
    exact iff_of_true (Or.inl (by decide)) (Or.inl hno)
  · rw [or_iff_right hroom]
    refine iff_of_false ?_ fun hrest => hnot ⟨⟨hrest.file, hrest.blocks, ?_⟩, by omega, by omega⟩
    · rintro ⟨r, s', hrun, -⟩
      rw [bind_of_none hstop] at hrun
      cases hrun
    · exact hrest.tail.imp id fun hreused => hreused.mono fun _ _ h => h.1
  · rw [total_bind_of_some hrun, hmapped.end_iff h.frame, or_iff_right hroom]
    obtain ⟨task, s3, hboth, hmappable⟩ := hmappable
    constructor
    · intro hend
      refine ⟨hready.file, hready.blocks, ?_⟩
      rcases hend with hneg | htail
      · rcases hready.tail with htail | hreused
        · exact Or.inl htail
        · rw [total_of_some hboth] at hreused ⊢
          exact Or.inr ⟨hreused, fun h => absurd (hmappable.mpr h) (by omega)⟩
      · exact Or.inl htail
    · intro hrest
      rcases hrest.tail with htail | hreused
      · exact Or.inr htail
      · rw [total_of_some hboth] at hreused
        exact Or.inl (not_le.mp fun h => hreused.2 (hmappable.mp h))

/-- The load of a new process, from the state in which its structure is allocated. -/
theorem processLoadNew_end {s s0 s1 : Kernel} {process : UInt32} (hne : process ≠ 0)
    (halloc : kzalloc processK SIZEOF_PROCESS {} s = some (process, s0))
    (hstore : store processK process {} s0 = some ((), s1)) (filename : List UInt8) (process_slot : Int) :
    (processLoadNew filename process_slot >>= processLoadStack) s =
      (processLoadData filename process >>= fun res =>
        (if res < 0 then Pure.pure (res, none) else processLoadTask filename process_slot process) >>=
          processLoadEnd process) s1 := by
  rw [bind_apply, processLoadNew_eq hne halloc hstore, ← bind_apply, processLoadInto_eq]
  unfold processLoadEnd
  simp only [bind_assoc, pure_bind]

theorem processLoadFile_eq {s s0 s1 : Kernel} {process : UInt32}
    (halloc : kzalloc processK SIZEOF_PROCESS {} s = some (process, s0))
    (hstore : store processK process {} s0 = some ((), s1)) (filename : List UInt8) :
    processLoadFile filename s = (processLoadData filename process >>= fun res => Pure.pure (process, res)) s1 := by
  unfold processLoadFile
  rw [bind_of_some halloc, bind_of_some hstore]

theorem processLoadFile_wf {s : Kernel} (hwf : s.WF) (filename : List UInt8) :
    Ensures (processLoadFile filename) s fun _ sd => sd.WF := by
  rcases newProcess_spec hwf with ⟨-, halloc⟩ | ⟨-, process, s0, s1, hne, halloc, hstore, hnew⟩
  · have hnull : store processK 0 {} s = none := by
      rw [store, Kind.read, hwf.live_zero]
      rfl
    intro r sd hrun
    unfold processLoadFile at hrun
    rw [bind_of_some halloc, bind_of_none hnull] at hrun
    cases hrun
  · intro r sd hrun
    rw [processLoadFile_eq halloc hstore] at hrun
    obtain ⟨res, sd', hload, hpure⟩ := bind_eq_some.mp hrun
    obtain ⟨-, rfl⟩ := pure_eq_some.mp hpure
    obtain ⟨p, hp⟩ := hnew.data filename res sd' hload
    exact hp.frame.wf

/-- The load of a process whose file has been loaded, with whatever result, into a free slot. -/
theorem processLoad_file {s sd : Kernel} {process : UInt32} {res : Int} (hwf : s.WF) (garbage : UInt32)
    {filename : List UInt8} (hfull : ¬ TableFull s)
    (hfile : processLoadFile filename s = some ((process, res), sd)) :
    ∃ slot : Nat, slot < RASOS_MAX_PROCESSES ∧ (∃ p, DataLoaded s process sd p) ∧
      processLoad garbage filename s =
        ((if res < 0 then Pure.pure (res, none) else processLoadTask filename slot process) >>=
          processLoadEnd process) sd := by
  rcases processLoad_cases s garbage filename with ⟨hfull', -⟩ | ⟨-, slot, hslot, hfree, heq⟩
  · exact absurd hfull' hfull
  rcases newProcess_spec hwf with ⟨-, halloc⟩ | ⟨-, process', s0, s1, hne, halloc, hstore, hnew⟩
  · -- without a process structure the file is not loaded
    have hnull : store processK 0 {} s = none := by
      rw [store, Kind.read, hwf.live_zero]
      rfl
    unfold processLoadFile at hfile
    rw [bind_of_some halloc, bind_of_none hnull] at hfile
    cases hfile
  rw [processLoadFile_eq halloc hstore] at hfile
  obtain ⟨res', sd', hload, hpure⟩ := bind_eq_some.mp hfile
  obtain ⟨hpair, rfl⟩ := pure_eq_some.mp hpure
  obtain ⟨rfl, rfl⟩ := Prod.mk.inj hpair
  refine ⟨slot, hslot, hnew.data filename _ _ hload, ?_⟩
  rw [heq, processLoadNew_end hne halloc hstore, bind_of_some hload]

/-- **A successful load** has loaded the file and leaves a finished process. -/
theorem processLoad_finished {s : Kernel} (hwf : s.WF) (garbage : UInt32) (filename : List UInt8) :
    Ensures (processLoad garbage filename) s fun r s' => 0 ≤ r.1 → ∃ process res sd slot p t,
      r = (OK, some process) ∧ processLoadFile filename s = some ((process, res), sd) ∧ 0 ≤ res ∧
        Finished sd process slot s' p t := by
  intro r s' hrun hpos
  rcases processLoad_cases s garbage filename with ⟨-, hfull⟩ | ⟨-, slot, hslot, hfree, heq⟩
  · rw [hfull] at hrun
    obtain ⟨rfl, -⟩ := Prod.mk.inj (Option.some.inj hrun)
    exact absurd hpos (by decide)
  rw [heq] at hrun
  rcases newProcess_spec hwf with ⟨-, halloc⟩ | ⟨-, process, s0, s1, hne, halloc, hstore, hnew⟩
  · rw [bind_of_some (processLoadNew_full halloc filename slot), processLoadStack, if_pos (by decide)] at hrun
    obtain ⟨rfl, -⟩ := Prod.mk.inj (Option.some.inj hrun)
    exact absurd hpos (by decide)
  rw [processLoadNew_end hne halloc hstore] at hrun
  obtain ⟨res, sd, hload, hrest⟩ := bind_eq_some.mp hrun
  obtain ⟨p, hp⟩ := hnew.data filename res sd hload
  have hcleanup := fun res => processLoadCleanup_noTask res hp.live hp.task
  by_cases hneg : res < 0
  · rw [if_pos hneg, bind_of_some (pure_apply _ _),
      processLoadEnd_negative (r := (res, none)) hneg (hcleanup res)] at hrest
    obtain ⟨rfl, -⟩ := Prod.mk.inj (Option.some.inj hrest)
    exact absurd hneg (not_lt.mpr hpos)
  rw [if_neg hneg] at hrest
  rcases processLoadTask_spec filename slot hp with ⟨-, htask⟩ | ⟨-, hstop, -⟩ | ⟨-, -, r1, s2, htask, hmapped, -⟩
  · rw [bind_of_some htask, processLoadEnd_negative (r := (- ENOMEM, none)) (by decide) (hcleanup _)] at hrest
    obtain ⟨rfl, -⟩ := Prod.mk.inj (Option.some.inj hrest)
    exact absurd hpos (by decide)
  · rw [bind_of_none hstop] at hrest
    cases hrest
  · obtain ⟨s3, hend, hcases⟩ := hmapped.end_run
    rw [bind_of_some htask, hend] at hrest
    obtain ⟨rfl, rfl⟩ := Prod.mk.inj (Option.some.inj hrest)
    obtain ⟨rfl, p', t, hfinished⟩ := hcases.resolve_left (not_lt.mpr hpos)
    have hfile : processLoadFile filename s = some ((process, res), sd) := by
      rw [processLoadFile_eq halloc hstore, bind_of_some hload]
      rfl
    exact ⟨process, res, sd, _, p', t, rfl, hfile, not_lt.mp hneg, hfinished⟩

/-- **When a load succeeds.** There is a free slot and memory for the stack, the file has been loaded, and
the rest has what it needs. -/
theorem processLoad_succeeds {s sd : Kernel} (hwf : s.WF) (garbage : UInt32) {filename : List UInt8}
    (hfull : ¬ TableFull s) {process : UInt32} {res : Int}
    (hfile : processLoadFile filename s = some ((process, res), sd)) (hres : 0 ≤ res) {p : Process}
    (hp : sd.live process = some (processK.inj p)) (hroom : ¬ NoRoom sd.heap RASOS_USER_PROGRAM_STACK_SIZE)
    (hready : TaskReady sd p) (hmappable : Total stackAndTask sd fun _ s2 => Mappable s2 p) :
    ∃ s', processLoad garbage filename s = some ((OK, some process), s') := by
  have hmax : ((RASOS_MAX_PROCESSES : Nat) : Int) = 12 := rfl
  obtain ⟨slot, hslot, ⟨p', hdata⟩, heq⟩ := processLoad_file hwf garbage hfull hfile
  obtain rfl := processK.inj_injective (Option.some.inj (hp.symm.trans hdata.live))
  rw [heq, if_neg (not_lt.mpr hres)]
  rcases processLoadTask_spec filename slot hdata with ⟨hno, -⟩ | ⟨-, -, hnot⟩ | ⟨-, -, r, s2, htask, hmapped, hiff⟩
  · exact absurd hno hroom
  · exact absurd ⟨hready, by omega, by omega⟩ hnot
  · obtain ⟨task, s3, hboth, hmap⟩ := hmappable
    rw [total_of_some hboth] at hiff
    have hpos := hiff.mpr hmap
    obtain ⟨s', hend, hneg | ⟨rfl, -⟩⟩ := hmapped.end_run
    · omega
    · exact ⟨s', (bind_of_some htask).trans hend⟩

/-! ## Where it returns what it should -/

theorem newProcess_spacious {s : Kernel} {k : Nat} (hwf : s.WF)
    (hroom : Spacious s.heap (blocksFor SIZEOF_PROCESS + k)) :
    ∃ process s0 s1, kzalloc processK SIZEOF_PROCESS {} s = some (process, s0) ∧
      store processK process {} s0 = some ((), s1) ∧ NewProcess s process s1 ∧ Spacious s1.heap k := by
  obtain ⟨process, s0, halloc, -, hsince, hfree, hlive, hroom0⟩ :=
    kzalloc_spacious processK SIZEOF_PROCESS {} hwf (by decide) hroom
  refine ⟨process, s0, _, halloc, store_of_live hlive {}, ⟨?_, hfree, Kind.write_self ..⟩, hroom0⟩
  exact hsince.write (k := processK) hfree hlive {}

/-- The path leads to an entry, a descriptor is free, and there is a run of free blocks for the process, the
file, the stack, the task and its directory. When the entry is that of a file with its whole chain, the
task can be linked. -/
def LoadsWell (s : Kernel) (filename : List UInt8) : Prop :=
  ∃ image priv L cost entry, FileThere s filename image priv L cost entry ∧
    Spacious s.heap (blocksFor SIZEOF_PROCESS + (loadBlocks filename cost entry + 1031)) ∧
    (WholeChain image entry → TailLive s)

/-- There is a slot and as much room, but nothing to open. -/
def LoadsNothing (s : Kernel) (filename : List UInt8) : Prop :=
  ¬ TableFull s ∧ ∃ n, OpensNothing s filename n ∧
    Spacious s.heap (blocksFor SIZEOF_PROCESS + (1 + (n + 1031)))

/-- Loading the file has returned 0 for a process without a file. -/
def NothingLoaded (r : UInt32 × Int) (s : Kernel) : Prop :=
  r.2 = 0 ∧ ∃ p, s.live r.1 = some (processK.inj p) ∧ p.ptr = 0

/-- With room a file that is there is loaded. -/
theorem LoadsWell.processLoad {s : Kernel} {filename : List UInt8} (h : LoadsWell s filename) (hwf : s.WF)
    (garbage : UInt32) (hfull : ¬ TableFull s) : Total (processLoad garbage filename) s (LoadsOrFails s) := by
  obtain ⟨image, priv, L, cost, entry, hthere, hroom, htail⟩ := h
  obtain ⟨process, s0, s1, halloc, hstore, hnew, hroom1⟩ := newProcess_spacious hwf hroom
  obtain ⟨res, sd, hload, hres⟩ := (hthere.grown hnew.since.grown).processLoadData hnew.live hroom1
  have hfile : processLoadFile filename s = some ((process, res), sd) := by
    rw [processLoadFile_eq halloc hstore, bind_of_some hload]
    rfl
  obtain ⟨slot, hslot, ⟨p, hdata⟩, heq⟩ := processLoad_file hwf garbage hfull hfile
  rw [total_of_eq heq]
  by_cases hneg : res < 0
  · have hend := processLoadEnd_negative (r := (res, none)) hneg
      (processLoadCleanup_noTask res hdata.live hdata.task)
    rw [if_pos hneg, total_bind, total_pure, total_of_some hend]
    exact Or.inl hneg
  -- there are blocks for the task and its directory, and a task to link it to
  obtain ⟨hwhole, hfree, p', hp', hptr⟩ := hres.resolve_left hneg
  obtain rfl := processK.inj_injective (Option.some.inj (hp'.symm.trans hdata.live))
  rw [if_neg hneg, hdata.rest_iff filename hslot]
  exact Or.inr ⟨hptr, hfree.le_freeCount, Or.inl (hdata.frame.tailLive (htail hwhole))⟩

/-- Without a file there is no process to return. -/
theorem NothingLoaded.processLoad {s sd : Kernel} {filename : List UInt8} {r : UInt32 × Int} (hwf : s.WF)
    (garbage : UInt32) (hfull : ¬ TableFull s) (hfile : processLoadFile filename s = some (r, sd))
    (h : NothingLoaded r sd) (hroom : ¬ NoRoom sd.heap RASOS_USER_PROGRAM_STACK_SIZE) :
    ¬ Total (processLoad garbage filename) s (LoadsOrFails s) := by
  obtain ⟨process, res⟩ := r
  obtain ⟨rfl, p', hp', hptr⟩ := h
  obtain ⟨slot, hslot, ⟨p, hdata⟩, heq⟩ := processLoad_file hwf garbage hfull hfile
  obtain rfl := processK.inj_injective (Option.some.inj (hp'.symm.trans hdata.live))
  rw [total_of_eq heq, if_neg (by decide), hdata.rest_iff filename hslot]
  rintro (hno | hrest)
  · exact hroom hno
  · exact hrest.file hptr

end RasOS
