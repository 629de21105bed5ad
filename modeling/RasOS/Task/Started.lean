import RasOS.Task.LoadSpec
import RasOS.Fs.OpenSpec

set_option autoImplicit false

/-! # From a loaded file to a mapped process

After its file is loaded a process gets a stack, a task with a directory, and its pages. What is known
of it then is collected in `Started`: the image and the stack are allocations of its own, and its
directory is the identity after a list of writes. -/

namespace RasOS

open Machine

/-! ## The image stays while more is allocated -/

/-- Where an allocation lies: whole pages of the heap. -/
theorem Allocated.range {s : Kernel} (hwf : s.WF) {p : UInt32} {n : Nat} (h : Allocated s.heap p n) :
    0 < n ∧ 0x01000000 ≤ p.toNat ∧ p.toNat % 4096 = 0 ∧ p.toNat + 4096 * n ≤ 0x07400000 := by
  obtain ⟨b, hb, rfl⟩ := h
  have hin := hb.inside
  have hpos := hb.pos
  have htotal := hwf.total
  rw [hwf.address (by omega)]
  omega

/-- Two allocations do not meet. -/
theorem Allocated.apart {s : Kernel} (hwf : s.WF) {p q : UInt32} {n m : Nat}
    (hp : Allocated s.heap p n) (hq : Allocated s.heap q m) (hne : p ≠ q) :
    p.toNat + 4096 * n ≤ q.toNat ∨ q.toNat + 4096 * m ≤ p.toNat := by
  obtain ⟨b, hb, rfl⟩ := hp
  obtain ⟨c, hc, rfl⟩ := hq
  have hbin := hb.inside
  have hcin := hc.inside
  have hbpos := hb.pos
  have hcpos := hc.pos
  have htotal := hwf.total
  rw [hwf.address (by omega), hwf.address (by omega)]
  by_contra hmeet
  refine hne ?_
  rcases Nat.le_total b c with hle | hle
  · rw [hb.disjoint hc (i := c) ⟨hle, by omega⟩ ⟨Nat.le_refl c, by omega⟩]
  · rw [hb.disjoint hc (i := b) ⟨Nat.le_refl b, by omega⟩ ⟨hle, by omega⟩]

/-- Zeroing a new allocation leaves the bytes of the others alone. -/
theorem KzallocBytes.keeps_byte {s s' : Kernel} {size ptr q : UInt32} {n i : Nat} {o : Obj}
    (h : KzallocBytes s size ptr s') (hq : Allocated s.heap q n) (hlive : s.live q = some o)
    (hi : i < 4096 * n) : s'.mem (q + UInt32.ofNat i) = s.mem (q + UInt32.ofNat i) := by
  by_cases hptr : ptr = 0
  · rw [h.null hptr]
  have hne : ptr ≠ q := by
    rintro rfl
    rw [(h.live hptr).1] at hlive
    cases hlive
  have hwf := h.since.wf
  have hq' := h.since.allocated _ _ hq
  have hapart := Allocated.apart hwf (h.allocated hptr) hq' hne
  have hqrange := hq'.range hwf
  have hprange := (h.allocated hptr).range hwf
  have hsize : size.toNat ≤ 4096 * blocksFor size := by
    unfold blocksFor
    omega
  refine h.mem _ ?_
  have haddr : (q + UInt32.ofNat i).toNat = q.toNat + i := by
    rw [UInt32.toNat_add, UInt32.toNat_ofNat']
    omega
  rw [UInt32.toNat_sub, haddr]
  omega

theorem ElfLoaded.kzallocBytes {s s' : Kernel} {elf size ptr : UInt32} {f : ElfFile} (hwf : s.WF)
    (h : ElfLoaded s elf f) (hbytes : KzallocBytes s size ptr s') : ElfLoaded s' elf f := by
  refine ⟨hbytes.since.object _ _ h.live, hbytes.since.object _ _ h.image, ?_⟩
  obtain ⟨n, hn⟩ := hwf.allocated h.image
  have hpos := (hn.range hwf).1
  rw [headerAt_congr fun i hi => hbytes.keeps_byte hn h.image (by omega)]
  exact h.valid

theorem ProcessLoaded.kzallocBytes {s s' : Kernel} {size ptr : UInt32} {p : Process} (hwf : s.WF)
    (h : ProcessLoaded s p) (hbytes : KzallocBytes s size ptr s') : ProcessLoaded s' p := by
  cases h with
  | missing htype hptr => exact .missing htype hptr
  | elf f htype hfile => exact .elf f htype (hfile.kzallocBytes hwf hbytes)
  | binary htype himage hsize =>
      exact .binary htype (hbytes.since.object _ _ himage) (hbytes.since.allocated _ _ hsize)

/-! ## A new task -/

/-- There are no tasks but `task` and those that were there before. -/
def TasksFrom (task : UInt32) (s s' : Kernel) : Prop :=
  s.WF → s'.WF ∧ ∀ q t, s'.live q = some (taskK.inj t) → q = task ∨ ∃ u, s.live q = some (taskK.inj u)

theorem tasksFrom_frame (task : UInt32) : Frame (TasksFrom task) where
  refl := fun _ hwf => ⟨hwf, fun _ t ht => Or.inr ⟨t, ht⟩⟩
  trans := by
    intro s s' s'' h h' hwf
    obtain ⟨hwf', hold⟩ := h hwf
    obtain ⟨hwf'', hold'⟩ := h' hwf'
    refine ⟨hwf'', fun q t ht => ?_⟩
    rcases hold' q t ht with heq | ⟨u, hu⟩
    · exact Or.inl heq
    · exact hold q u hu

section TasksFrom

variable {α : Type} {task : UInt32}

theorem tasksFrom_load (k : Kind Obj α) (ptr : UInt32) : Keeps (TasksFrom task) (load k ptr) := by
  intro s a s' h
  obtain ⟨-, rfl⟩ := load_eq_some.mp h
  exact (tasksFrom_frame task).refl _

theorem tasksFrom_store (ptr : UInt32) (t : Task) : Keeps (TasksFrom task) (store taskK ptr t) := by
  intro s a s' h hwf
  obtain ⟨⟨t0, ht0⟩, rfl⟩ := store_eq_some.mp h
  refine ⟨hwf.write ht0 t, fun q u hu => Or.inr ?_⟩
  by_cases hq : q = ptr
  · exact ⟨t0, by rw [hq]; exact ht0⟩
  · exact ⟨u, (Kind.write_of_ne _ _ _ hq).symm.trans hu⟩

theorem tasksFrom_paging {x : KernelM α} (hx : Keeps KeepsPaging x) : Keeps (TasksFrom task) x := by
  intro s a s' h hwf
  have hframe := hx s a s' h hwf
  exact ⟨hframe.wf, fun q u hu => Or.inr ⟨u, (hframe.object q _ rfl).mp hu⟩⟩

/-- Reading, and changing static variables, makes no tasks. -/
theorem tasksFrom_live {x : KernelM α} (hx : ∀ s a s', x s = some (a, s') → s'.live = s.live ∧ s'.heap = s.heap) :
    Keeps (TasksFrom task) x := by
  intro s a s' h hwf
  obtain ⟨hlive, hheap⟩ := hx s a s' h
  refine ⟨hwf.of_live hheap fun q o ho => ⟨o, hlive ▸ ho⟩, fun q u hu => Or.inr ⟨u, ?_⟩⟩
  rw [← hlive]
  exact hu

theorem tasksFrom_elfHeader (elf_file : UInt32) : Keeps (TasksFrom task) (elfHeader elf_file) := by
  refine tasksFrom_live fun s a s' h => ?_
  obtain ⟨f, -, -, -, rfl⟩ := elfHeader_eq_some h
  exact ⟨rfl, rfl⟩

theorem tasksFrom_fetch (f : Kernel → α) : Keeps (TasksFrom task) (fetch f) := by
  refine tasksFrom_live fun s a s' h => ?_
  obtain ⟨-, rfl⟩ := Prod.mk.inj (Option.some.inj h)
  exact ⟨rfl, rfl⟩

theorem tasksFrom_assign {f : Kernel → Kernel} (hlive : ∀ s, (f s).live = s.live)
    (hheap : ∀ s, (f s).heap = s.heap) : Keeps (TasksFrom task) (assign f) := by
  refine tasksFrom_live fun s a s' h => ?_
  obtain ⟨-, rfl⟩ := Prod.mk.inj (Option.some.inj h)
  exact ⟨hlive s, hheap s⟩

theorem tasksFrom_taskInit (ptr process : UInt32) : Keeps (TasksFrom task) (taskInit ptr process) := by
  have hR := tasksFrom_frame task
  refine Keeps.bind hR (tasksFrom_store _ _) fun _ => ?_
  refine Keeps.bind hR (tasksFrom_paging (keepsPaging_new _)) fun page_directory => ?_
  refine Keeps.bind hR (tasksFrom_load _ _) fun t => Keeps.bind hR (tasksFrom_store _ _) fun _ => ?_
  refine Keeps.ite (Keeps.pure hR _) (Keeps.bind hR (tasksFrom_load _ _) fun p => ?_)
  refine Keeps.bind hR (Keeps.ite ?_ (Keeps.pure hR _)) fun ip => ?_
  · exact Keeps.bind hR (tasksFrom_elfHeader _) fun header => Keeps.pure hR _
  · refine Keeps.bind hR (tasksFrom_load _ _) fun t => ?_
    exact Keeps.bind hR (tasksFrom_store _ _) fun _ => Keeps.pure hR _

theorem tasksFrom_taskAppend (ptr : UInt32) : Keeps (TasksFrom task) (taskAppend ptr) := by
  have hR := tasksFrom_frame task
  refine Keeps.bind hR (tasksFrom_fetch _) fun head => Keeps.ite ?_ ?_
  · exact Keeps.bind hR (tasksFrom_assign (fun _ => rfl) fun _ => rfl) fun _ => Keeps.pure hR _
  refine Keeps.bind hR (tasksFrom_fetch _) fun tail => Keeps.bind hR (tasksFrom_load _ _) fun last => ?_
  refine Keeps.bind hR (tasksFrom_store _ _) fun _ => Keeps.bind hR (tasksFrom_load _ _) fun t => ?_
  refine Keeps.bind hR (tasksFrom_store _ _) fun _ => ?_
  exact Keeps.bind hR (tasksFrom_assign (fun _ => rfl) fun _ => rfl) fun _ => Keeps.pure hR _

theorem taskAppend_returns (ptr : UInt32) (s : Kernel) :
    Ensures (taskAppend ptr) s fun r _ => r = ptr := by
  unfold taskAppend
  refine ensures_fetch (Ensures.ite (fun _ => ensures_assign (Ensures.pure rfl)) fun _ => ?_)
  refine ensures_fetch (ensures_load fun last _ => ensures_store fun _ _ => ensures_load fun t _ => ?_)
  exact ensures_store fun _ _ => ensures_assign (Ensures.pure rfl)

/-- `task_init` succeeds or returns an error. -/
theorem taskInit_status (ptr process : UInt32) (s : Kernel) :
    Ensures (taskInit ptr process) s fun res _ => res = OK ∨ -2 ^ 31 ≤ res ∧ res < 0 := by
  unfold taskInit
  refine ensures_store fun _ _ => ?_
  refine Ensures.bind (Q := fun _ _ => True) (fun _ _ _ => trivial) fun page_directory s1 _ => ?_
  refine ensures_load fun t _ => ensures_store fun _ _ => ?_
  refine Ensures.ite (fun _ => Ensures.pure (Or.inr (by decide))) fun _ => ?_
  unfold taskInitRegisters
  refine ensures_load fun p _ => ?_
  refine Ensures.bind (Q := fun _ _ => True) (fun _ _ _ => trivial) fun ip s2 _ => ?_
  exact ensures_load fun t _ => ensures_store fun _ _ => Ensures.pure (Or.inl rfl)

/-- `task_new` makes one task at most. -/
theorem taskNew_only (process : UInt32) {s : Kernel} (hwf : s.WF) :
    Ensures (taskNew process) s fun r s' => ISERR r = false →
      ∀ q t, s'.live q = some (taskK.inj t) → q = r ∨ ∃ u, s.live q = some (taskK.inj u) := by
  unfold taskNew
  refine Ensures.bind (Q := fun ptr s1 => Kzalloc taskK SIZEOF_TASK {} s ptr s1)
    (fun _ _ h => kzalloc_cases hwf h) ?_
  intro ptr s1 hcases
  have hR := tasksFrom_frame ptr
  have hstart : TasksFrom ptr s s1 := by
    refine fun _ => ⟨hwf.kzalloc hcases, fun q t ht => ?_⟩
    by_cases hq : q = ptr
    · exact Or.inl hq
    · exact Or.inr ⟨t, hcases.only hq ht⟩
  have hrest : ∀ (res : Int) (s2 : Kernel), TasksFrom ptr s1 s2 → (res = OK ∨ -2 ^ 31 ≤ res ∧ res < 0) →
      Ensures (if res ≠ OK then do
        let _ ← taskFree ptr
        return ERROR res
      else
        taskAppend ptr) s2 fun r s' => ISERR r = false →
        ∀ q t, s'.live q = some (taskK.inj t) → q = r ∨ ∃ u, s.live q = some (taskK.inj u) := by
    intro res s2 h2 hres
    refine Ensures.ite (fun hne => ?_) fun _ => ?_
    · -- an error is returned
      obtain ⟨hlow, hneg⟩ := hres.resolve_left hne
      refine Ensures.bind (Q := fun _ _ => True) (fun _ _ _ => trivial) fun _ s3 _ => Ensures.pure ?_
      intro hok
      rw [ISERR_ERROR hlow hneg] at hok
      cases hok
    · intro r s3 hrun
      have happend : TasksFrom ptr s2 s3 := tasksFrom_taskAppend ptr s2 r s3 hrun
      obtain rfl : r = ptr := taskAppend_returns ptr s2 r s3 hrun
      exact fun _ => ((hR.trans (hR.trans hstart h2) happend) hwf).2
  refine Ensures.ite (fun _ => ?_) fun _ => ?_
  · exact Ensures.bind (Ensures.pure (Q := fun res s2 => res = - ENOMEM ∧ s2 = s1) ⟨rfl, rfl⟩)
      fun res s2 h => hrest res s2 (h.2 ▸ hR.refl s1) (Or.inr (by rw [h.1]; decide))
  · refine Ensures.bind (Q := fun res s2 => TasksFrom ptr s1 s2 ∧ (res = OK ∨ -2 ^ 31 ≤ res ∧ res < 0))
      (fun res s2 h => ⟨tasksFrom_taskInit ptr process s1 res s2 h, taskInit_status ptr process s1 res s2 h⟩) ?_
    exact fun res s2 h => hrest res s2 h.1 h.2

end TasksFrom

/-- The task is the last one of the list: the only one, or the next of the one before it. -/
def Appended (s : Kernel) (task : UInt32) (t : Task) : Prop :=
  t.next = 0 ∧ s.task_tail = task ∧ (t.prev = 0 ∧ s.task_head = task ∨
    ∃ last, s.live t.prev = some (taskK.inj last) ∧ last.next = task)

/-- What is known of a new task, however it has been linked. -/
structure NewTask (s : Kernel) (process task : UInt32) (s' : Kernel) (t : Task) : Prop where
  wf : s'.WF
  fresh : s.live task = none
  live : s'.live task = some (taskK.inj t)
  back : t.process = process
  starts : StartsAt s process t.registers.ip
  maps : Maps s' t.page_directory (identityEntry taskFlags)
  prev : t.prev = 0 ∨ ∃ u, s'.live t.prev = some (taskK.inj u)
  linked : Appended s' task t ↔ TailLive s
  mem : s'.mem = s.mem
  processes : s'.processes = s.processes
  object : ∀ q o, s.live q = some o → (∀ t, o ≠ taskK.inj t) → s'.live q = some o
  allocated : ∀ q n, Allocated s.heap q n → Allocated s'.heap q n

theorem TaskNew.newTask {s s' : Kernel} {process task : UInt32} (h : TaskNew s process task s')
    (honly : ∀ q t, s'.live q = some (taskK.inj t) → q = task ∨ ∃ u, s.live q = some (taskK.inj u)) :
    ∃ t, NewTask s process task s' t := by
  have hwf := h.wf
  have hnonzero := h.ne_zero
  cases h with
  | first s5 hsince hempty chunk ip hnew htask hstarts hmaps hmem =>
      have hlinked : Appended { s5 with task_head := task, task_tail := task, current_task := task } task
          (initialTask chunk ip process) ↔ TailLive s :=
        iff_of_true ⟨rfl, rfl, Or.inl ⟨rfl, rfl⟩⟩ (Or.inl hempty)
      exact ⟨_, hwf, hnew, htask, rfl, hstarts, hmaps.congr fun _ _ _ hq => hq, Or.inl rfl, hlinked, hmem,
        congrArg Statics.processes hsince.statics, fun q o ho _ => hsince.object q o ho,
        fun q n hn => hsince.allocated q n hn⟩
  | append s5 hsince hhead chunk ip hnew htask hstarts hmaps hmem last t hlast ht =>
      -- the tail may point to the new task itself, when it was left dangling before
      have ht' : t.process = process ∧ t.registers.ip = ip ∧ t.page_directory = chunk := by
        by_cases heq : task = s.task_tail
        · rw [heq, Kind.write_self] at ht
          rw [← heq, htask] at hlast
          obtain rfl := taskK.inj_injective (Option.some.inj hlast)
          obtain rfl := taskK.inj_injective (Option.some.inj ht)
          exact ⟨rfl, rfl, rfl⟩
        · rw [Kind.write_of_ne _ _ _ heq, htask] at ht
          obtain rfl := taskK.inj_injective (Option.some.inj ht)
          exact ⟨rfl, rfl, rfl⟩
      obtain ⟨hprocess, hip, hchunk⟩ := ht'
      have hkeep : ∀ q o, s5.live q = some o → (∀ t, o ≠ taskK.inj t) →
          taskK.write (taskK.write s5.live s.task_tail { last with next := task }) task
            { t with prev := s.task_tail } q = some o := by
        intro q o ho hne
        have hqtail : q ≠ s.task_tail := by
          rintro rfl
          rw [hlast] at ho
          exact hne last (Option.some.inj ho).symm
        have hqtask : q ≠ task := by
          rintro rfl
          rw [htask] at ho
          exact hne _ (Option.some.inj ho).symm
        exact (Kind.write_of_ne _ _ _ hqtask).trans ((Kind.write_of_ne _ _ _ hqtail).trans ho)
      have htail : ∃ u, taskK.write (taskK.write s5.live s.task_tail { last with next := task }) task
          { t with prev := s.task_tail } s.task_tail = some (taskK.inj u) := by
        by_cases heq : s.task_tail = task
        · exact ⟨_, by rw [heq]; exact Kind.write_self ..⟩
        · exact ⟨_, (Kind.write_of_ne _ _ _ heq).trans (Kind.write_self ..)⟩
      refine ⟨{ t with prev := s.task_tail }, hwf, hnew, Kind.write_self .., hprocess, ?_, ?_, Or.inr htail, ?_, hmem,
        congrArg Statics.processes hsince.statics, fun q o ho hne => hkeep q o (hsince.object q o ho) hne,
        fun q n hn => hsince.allocated q n hn⟩
      · rw [hip]
        exact hstarts
      · rw [← hchunk] at hmaps
        refine hmaps.congr fun q o hpaging hq => hkeep q o hq fun t heq => ?_
        rw [heq] at hpaging
        cases hpaging
      · by_cases heq : s.task_tail = task
        · -- the tail was dangling, and the new task is its own next
          have hnext : t.next = task := by
            rw [heq, Kind.write_self] at ht
            exact (congrArg Task.next (taskK.inj_injective (Option.some.inj ht))).symm
          refine iff_of_false (fun hlinked => hnonzero (hnext.symm.trans hlinked.1)) ?_
          rintro (h0 | ⟨u, hu⟩)
          · exact hhead h0
          · rw [heq, hnew] at hu
            cases hu
        · have ht' : t = initialTask chunk ip process := by
            rw [Kind.write_of_ne _ _ _ (Ne.symm heq), htask] at ht
            exact (taskK.inj_injective (Option.some.inj ht)).symm
          obtain ⟨u, hu⟩ := htail
          refine iff_of_true ⟨by rw [ht']; rfl, rfl, Or.inr ⟨{ last with next := task }, ?_, rfl⟩⟩
            (Or.inr ((honly _ _ hu).resolve_left heq))
          exact (Kind.write_of_ne _ _ _ heq).trans (Kind.write_self ..)

/-- A task is appended to a live one, or its block is the one a dangling tail points to. -/
theorem TaskNew.tail {s s' : Kernel} {process task : UInt32} (h : TaskNew s process task s')
    (honly : ∀ q t, s'.live q = some (taskK.inj t) → q = task ∨ ∃ u, s.live q = some (taskK.inj u)) :
    TailLive s ∨ task = s.task_tail := by
  cases h with
  | first s5 hsince hempty => exact Or.inl (Or.inl hempty)
  | append s5 hsince hhead chunk ip hnew htask hstarts hmaps hmem last t hlast ht =>
      by_cases heq : s.task_tail = task
      · exact Or.inr heq.symm
      · have htail : taskK.write (taskK.write s5.live s.task_tail { last with next := task }) task
            { t with prev := s.task_tail } s.task_tail = some (taskK.inj { last with next := task }) :=
          (Kind.write_of_ne _ _ _ heq).trans (Kind.write_self ..)
        exact Or.inl (Or.inr ((honly _ _ htail).resolve_left heq))

/-- The list of tasks depends on the tasks alone. -/
theorem TaskList.congr {s s' : Kernel} {l : List UInt32} (h : TaskList s l)
    (htask : ∀ q t, s.live q = some (taskK.inj t) → s'.live q = some (taskK.inj t))
    (hhead : s'.task_head = s.task_head) (htail : s'.task_tail = s.task_tail)
    (hcurrent : s'.current_task = s.current_task) : TaskList s' l := by
  refine ⟨h.null, h.nodup, h.linked.congr fun q hq => ?_, hhead.trans h.head, htail.trans h.tail, ?_⟩
  · obtain ⟨t, ht⟩ := Linked.live h.linked hq
    exact taskNode_congr ((htask q t ht).trans ht.symm)
  · rw [hcurrent]
    exact h.current

/-! ## Mapping the image -/

/-- The writes of `process_map_memory`. -/
def imageWrites (s : Kernel) (p : Process) : List (Nat × UInt32) :=
  if p.filetype = PROCESS_FILETYPE_ELF then
    match elfFileK.read s.live p.ptr with
    | some f => programWrites s.mem f.elf_memory
    | none => []
  else
    mapToWrites RASOS_PROGRAM_VIRTUAL_ADDRESS p.ptr (pagingAlignAddress (p.ptr + p.size))
      (PAGING_IS_PRESENT ||| PAGING_ACCESS_BY_ALL ||| PAGING_IS_WRITABLE)

/-- No program header ends before it begins. -/
def Mappable (s : Kernel) (p : Process) : Prop :=
  p.filetype = PROCESS_FILETYPE_ELF → ∀ f, s.live p.ptr = some (elfFileK.inj f) →
    ∀ j < programCount s.mem f.elf_memory, PhdrOk f.elf_memory (programHeader s.mem f.elf_memory j)

/-- The end of an allocation of `size` bytes, rounded to pages, does not wrap. -/
theorem Allocated.align {s : Kernel} (hwf : s.WF) {p size : UInt32}
    (h : Allocated s.heap p (blocksFor size)) :
    (pagingAlignAddress (p + size)).toNat = p.toNat + 4096 * blocksFor size := by
  obtain ⟨hpos, hstart, haligned, hend⟩ := h.range hwf
  have hsize : size.toNat ≤ 4096 * blocksFor size := by
    unfold blocksFor
    omega
  rw [pagingAlignAddress_toNat, UInt32.toNat_add]
  unfold blocksFor at hend ⊢
  omega

theorem processMapMemory_spec {s : Kernel} {process : UInt32} {p : Process} {t : Task}
    {m : Nat → UInt32} (hwf : s.WF) (hp : s.live process = some (processK.inj p))
    (hloaded : ProcessLoaded s p) (hptr : p.ptr ≠ 0) (ht : s.live p.task = some (taskK.inj t))
    (hmaps : Maps s t.page_directory m) :
    ∃ res s' m', processMapMemory process s = some (res, s') ∧ TablesOnly s s' ∧
      Maps s' t.page_directory m' ∧ (res < 0 ∧ ¬ Mappable s p ∨
        res = OK ∧ Mappable s p ∧ m' = overlay m (imageWrites s p)) := by
  unfold processMapMemory
  rw [bind_of_some (load_of_live hp)]
  cases hloaded with
  | missing htype hnull => exact absurd hnull hptr
  | elf f htype hfile =>
      obtain ⟨res, s', m', hrun, honly, hmaps', hcases⟩ :=
        processMapElf_spec hp hfile.live (hwf.ne_zero hfile.image) ht hmaps
      rw [if_pos htype]
      refine ⟨res, s', m', hrun, honly, hmaps', ?_⟩
      rcases hcases with ⟨hneg, j, hj, hno⟩ | ⟨hok, hall, hm'⟩
      · exact Or.inl ⟨hneg, fun hmappable => hno (hmappable htype f hfile.live j hj)⟩
      · refine Or.inr ⟨hok, fun _ f' hf' => ?_, ?_⟩
        · rw [hfile.live] at hf'
          obtain rfl := elfFileK.inj_injective (Option.some.inj hf')
          exact hall
        · rw [hm', imageWrites, if_pos htype, Kind.read_eq_some.mpr hfile.live]
  | binary htype himage hsize =>
      have hbinary : p.filetype ≠ PROCESS_FILETYPE_ELF := by
        rw [htype]
        decide
      rw [if_neg hbinary, if_pos htype]
      unfold processMapBinary
      rw [bind_of_some (load_of_live hp), bind_of_some (load_of_live ht)]
      obtain ⟨res, s', hrun, honly, hcases⟩ := pagingMapTo_spec hmaps RASOS_PROGRAM_VIRTUAL_ADDRESS
        p.ptr (pagingAlignAddress (p.ptr + p.size))
        (PAGING_IS_PRESENT ||| PAGING_ACCESS_BY_ALL ||| PAGING_IS_WRITABLE)
      rcases hcases with ⟨-, -, hno⟩ | ⟨-, -, hmaps'⟩
      · -- the range is always one of whole pages
        have hrange := hsize.range hwf
        refine absurd ⟨by decide, hrange.2.2.1, pagingAlignAddress_aligned _, ?_⟩ hno
        rw [UInt32.le_iff_toNat_le, hsize.align hwf]
        omega
      · refine ⟨OK, s', _, ?_, honly, hmaps', Or.inr ⟨rfl, fun helf => absurd helf hbinary, ?_⟩⟩
        · rw [bind_of_some hrun]
          rfl
        · rw [imageWrites, if_neg hbinary]

/-! ## A mapped process -/

/-- File structures and the bytes of an image. -/
def Obj.isImage : Obj → Bool
  | .elfFile _ | .raw => true
  | _ => false

/-- The images are as they were. -/
structure ImageKept (s s' : Kernel) : Prop where
  object : ∀ q o, s.live q = some o → o.isImage = true → s'.live q = some o
  mem : s'.mem = s.mem
  allocated : ∀ q n, Allocated s.heap q n → Allocated s'.heap q n

theorem ImageKept.trans {s s' s'' : Kernel} (h : ImageKept s s') (h' : ImageKept s' s'') :
    ImageKept s s'' :=
  ⟨fun q o ho hi => h'.object q o (h.object q o ho hi) hi, h'.mem.trans h.mem,
    fun q n hn => h'.allocated q n (h.allocated q n hn)⟩

theorem NewTask.imageKept {s s' : Kernel} {process task : UInt32} {t : Task}
    (h : NewTask s process task s' t) : ImageKept s s' := by
  refine ⟨fun q o ho himage => h.object q o ho fun t heq => ?_, h.mem, h.allocated⟩
  rw [heq] at himage
  cases himage

theorem Since.imageKept {s s' : Kernel} (h : Since s s') (hmem : s'.mem = s.mem) : ImageKept s s' :=
  ⟨fun q o ho _ => h.object q o ho, hmem, h.allocated⟩

theorem TablesOnly.imageKept {s s' : Kernel} (h : TablesOnly s s') : ImageKept s s' := by
  refine ⟨fun q o ho himage => h.object q o ho fun t heq => ?_, h.mem, fun q n hn => ?_⟩
  · rw [heq] at himage
    cases himage
  · rw [h.heap]
    exact hn

/-- Writing over a process. -/
theorem imageKept_process {s : Kernel} {process : UInt32} {p : Process}
    (h : s.live process = some (processK.inj p)) (p' : Process) :
    ImageKept s { s with live := processK.write s.live process p' } := by
  refine ⟨fun q o ho himage => ?_, rfl, fun q n hn => hn⟩
  have hne : q ≠ process := by
    rintro rfl
    rw [h] at ho
    obtain rfl := Option.some.inj ho
    cases himage
  exact (Kind.write_of_ne _ _ _ hne).trans ho

theorem ProcessLoaded.kept {s s' : Kernel} {p p' : Process} (h : ProcessLoaded s p) (hkept : ImageKept s s')
    (htype : p'.filetype = p.filetype) (hptr : p'.ptr = p.ptr) (hsize : p'.size = p.size) :
    ProcessLoaded s' p' := by
  cases h with
  | missing ht hnull => exact .missing (htype.trans ht) (hptr.trans hnull)
  | elf f ht hfile =>
      refine .elf f (htype.trans ht) ⟨?_, hkept.object _ _ hfile.image rfl, ?_⟩
      · rw [hptr]
        exact hkept.object _ _ hfile.live rfl
      · rw [hkept.mem]
        exact hfile.valid
  | binary ht himage hbytes =>
      refine .binary (htype.trans ht) ?_ ?_
      · rw [hptr]
        exact hkept.object _ _ himage rfl
      · rw [hptr, hsize]
        exact hkept.allocated _ _ hbytes

theorem EntryPoint.kept {s s' : Kernel} {p p' : Process} {ip : UInt32} (h : EntryPoint s p ip)
    (hkept : ImageKept s s') (htype : p'.filetype = p.filetype) (hptr : p'.ptr = p.ptr) :
    EntryPoint s' p' ip := by
  cases h with
  | elf f ht hfile hmem =>
      rw [← hkept.mem]
      refine .elf f (htype.trans ht) ?_ hmem
      rw [hptr]
      exact hkept.object _ _ hfile rfl
  | binary ht => exact .binary fun heq => ht (htype.symm.trans heq)

/-- A process with its image, stack and task, and `m` as its directory; `s0` is the state in which its
file has been loaded. -/
structure Started (s0 : Kernel) (process : UInt32) (s : Kernel) (p : Process) (t : Task)
    (m : Nat → UInt32) : Prop where
  wf : s.WF
  live : s.live process = some (processK.inj p)
  loaded : ProcessLoaded s p
  file : p.ptr ≠ 0
  stack : s.live p.stack = some (rawK.inj ())
  stack_size : Allocated s.heap p.stack 4
  task : s.live p.task = some (taskK.inj t)
  back : t.process = process
  entry : EntryPoint s p t.registers.ip
  maps : Maps s t.page_directory m
  prev : t.prev = 0 ∨ ∃ u, s.live t.prev = some (taskK.inj u)
  linked : Appended s p.task t ↔ TailLive s0
  list : ∀ l, TaskList s0 l → TaskList s (l ++ [p.task])
  processes : s.processes = s0.processes
  fresh : s0.live p.stack = none
  image : ∀ q o, s0.live q = some o → o.isImage = true → s.live q = some o
  sizes : ∀ q n, Allocated s0.heap q n → Allocated s.heap q n
  mem : ∀ a, RASOS_USER_PROGRAM_STACK_SIZE.toNat ≤ (a - p.stack).toNat → s.mem a = s0.mem a
  zero : ∀ a, (a - p.stack).toNat < RASOS_USER_PROGRAM_STACK_SIZE.toNat → s.mem a = 0
  source : ∀ p0, s0.live process = some (processK.inj p0) →
    p.filetype = p0.filetype ∧ p.ptr = p0.ptr ∧ p.size = p0.size

/-- Being the last task depends on the tasks alone. -/
theorem appended_congr {s s' : Kernel} {task : UInt32} {t : Task}
    (htask : ∀ q u, s'.live q = some (taskK.inj u) ↔ s.live q = some (taskK.inj u))
    (hhead : s'.task_head = s.task_head) (htail : s'.task_tail = s.task_tail) :
    Appended s' task t ↔ Appended s task t := by
  unfold Appended
  simp only [htask, hhead, htail]

/-- Only page tables have changed. -/
theorem Started.tables {s0 s s' : Kernel} {process : UInt32} {p : Process} {t : Task} {m m' : Nat → UInt32}
    (h : Started s0 process s p t m) (honly : TablesOnly s s') (hmaps : Maps s' t.page_directory m') :
    Started s0 process s' p t m' := by
  have hobject : ∀ q o, s.live q = some o → (∀ e, o ≠ tableK.inj e) → s'.live q = some o := honly.object
  have htask : ∀ q u, s.live q = some (taskK.inj u) → s'.live q = some (taskK.inj u) :=
    fun q u hu => hobject q _ hu fun _ heq => Obj.noConfusion heq
  refine ⟨honly.wf h.wf, hobject _ _ h.live fun _ heq => Obj.noConfusion heq,
    h.loaded.kept honly.imageKept rfl rfl rfl, h.file,
    honly.imageKept.object _ _ h.stack rfl, honly.imageKept.allocated _ _ h.stack_size,
    htask _ _ h.task, h.back, h.entry.kept honly.imageKept rfl rfl, hmaps, ?_, ?_, fun l hl => ?_, ?_,
    h.fresh, fun q o ho hi => honly.imageKept.object q o (h.image q o ho hi) hi,
    fun q n hn => honly.imageKept.allocated q n (h.sizes q n hn),
    fun a ha => (congrFun honly.mem a).trans (h.mem a ha),
    fun a ha => (congrFun honly.mem a).trans (h.zero a ha), h.source⟩
  · rcases h.prev with h0 | ⟨u, hu⟩
    · exact Or.inl h0
    · exact Or.inr ⟨u, htask _ _ hu⟩
  · refine (appended_congr (fun q u => ⟨fun hu => ?_, htask q u⟩)
      (congrArg Statics.task_head honly.statics) (congrArg Statics.task_tail honly.statics)).trans h.linked
    -- an object that is a task now was one before
    obtain ⟨o, ho⟩ := honly.live q _ hu
    by_cases htable : ∃ e, o = tableK.inj e
    · obtain ⟨e, rfl⟩ := htable
      obtain ⟨e', he'⟩ := honly.table q e ho
      rw [hu] at he'
      cases he'
    · rw [hobject q o ho fun e heq => htable ⟨e, heq⟩] at hu
      rw [ho, hu]
  · exact (h.list l hl).congr htask (congrArg Statics.task_head honly.statics)
      (congrArg Statics.task_tail honly.statics) (congrArg Statics.current_task honly.statics)
  · exact (congrArg Statics.processes honly.statics).trans h.processes

/-! ## `process_load_for_slot` behind the file -/

/-- From the mapping of the image on. -/
def processLoadMap (process_slot : Int) (process : UInt32) : KernelM (Int × Option UInt32) := do
  let res ← processMapMemory process
  if res < 0 then
    return (res, none)
  else if process_slot < 0 ∨ process_slot ≥ RASOS_MAX_PROCESSES then
    stop
  else do
    assign fun s => { s with
      processes := Function.update s.processes process_slot.toNat process }
    return (res, some process)

/-- From the allocation of the stack on. -/
def processLoadTask (filename : List UInt8) (process_slot : Int) (process : UInt32) :
    KernelM (Int × Option UInt32) := do
  let program_stack_ptr ← kzallocBytes RASOS_USER_PROGRAM_STACK_SIZE
  if program_stack_ptr = 0 then
    return (- ENOMEM, none)
  else do
    let task ← taskNew process
    if task = 0 then
      return (signed task, none)
    else do
      let p ← load processK process
      store processK process { p with
        filename := strncpy filename RASOS_PATH_MAX_LEN
        stack := program_stack_ptr
        id := UInt16.ofInt process_slot
        task := task }
      processLoadMap process_slot process

theorem processLoadInto_eq (filename : List UInt8) (process_slot : Int) (process : UInt32) :
    processLoadInto filename process_slot process = (do
      let res ← processLoadData filename process
      if res < 0 then
        return (res, none)
      else
        processLoadTask filename process_slot process) := rfl

/-- What is left when the task has been created: an error, or the process in its slot. -/
inductive Mapped (s0 : Kernel) (process : UInt32) (process_slot : Int) :
    Int × Option UInt32 → Kernel → Prop
  | failed (res : Int) (s : Kernel) (p : Process) (t : Task) (m : Nat → UInt32) (hneg : res < 0)
      (hstarted : Started s0 process s p t m) : Mapped s0 process process_slot (res, none) s
  | ok (s : Kernel) (p : Process) (t : Task) (hlow : 0 ≤ process_slot)
      (hhigh : process_slot < RASOS_MAX_PROCESSES) (hid : p.id = UInt16.ofInt process_slot)
      (hstarted : Started s0 process s p t
        (overlay (identityEntry taskFlags) (imageWrites s p))) :
      Mapped s0 process process_slot (OK, some process) { s with
        processes := Function.update s.processes process_slot.toNat process }

/-- The writes of an image depend on the file structure and the memory alone. -/
theorem imageWrites_congr {s s' : Kernel} {p : Process} (hkept : ImageKept s s') (hloaded : ProcessLoaded s p)
    (hptr : p.ptr ≠ 0) : imageWrites s' p = imageWrites s p := by
  cases hloaded with
  | missing htype hnull => exact absurd hnull hptr
  | elf f htype hfile =>
      rw [imageWrites, imageWrites, if_pos htype, if_pos htype, Kind.read_eq_some.mpr hfile.live,
        Kind.read_eq_some.mpr (hkept.object _ _ hfile.live rfl), hkept.mem]
  | binary htype himage hsize =>
      have hbinary : p.filetype ≠ PROCESS_FILETYPE_ELF := by
        rw [htype]
        decide
      rw [imageWrites, imageWrites, if_neg hbinary, if_neg hbinary]

theorem mappable_congr {s s' : Kernel} {p p' : Process} (hkept : ImageKept s s') (hloaded : ProcessLoaded s p)
    (hfile : p.ptr ≠ 0) (htype : p'.filetype = p.filetype) (hptr : p'.ptr = p.ptr) :
    Mappable s' p' ↔ Mappable s p := by
  unfold Mappable
  rw [htype, hptr, hkept.mem]
  refine forall_congr' fun helf => ?_
  cases hloaded with
  | missing ht hnull => exact absurd hnull hfile
  | elf f ht helf =>
      have hlive : s'.live p.ptr = s.live p.ptr := by
        rw [helf.live]
        exact hkept.object _ _ helf.live rfl
      rw [hlive]
  | binary ht himage hsize =>
      rw [ht] at helf
      exact absurd helf (by decide)

theorem processLoadMap_spec {s0 s : Kernel} {process : UInt32} {process_slot : Int} {p : Process} {t : Task}
    (h : Started s0 process s p t (identityEntry taskFlags)) (hid : p.id = UInt16.ofInt process_slot) :
    processLoadMap process_slot process s = none ∧
        ¬ (0 ≤ process_slot ∧ process_slot < RASOS_MAX_PROCESSES) ∨
      ∃ r s', processLoadMap process_slot process s = some (r, s') ∧
        Mapped s0 process process_slot r s' ∧ (0 ≤ r.1 ↔ Mappable s p) := by
  obtain ⟨res, s', m', hrun, honly, hmaps, hcases⟩ :=
    processMapMemory_spec h.wf h.live h.loaded h.file h.task h.maps
  have h' := h.tables honly hmaps
  unfold processLoadMap
  rw [bind_of_some hrun]
  rcases hcases with ⟨hneg, hno⟩ | ⟨hok, hmappable, hm'⟩
  · rw [if_pos hneg]
    refine Or.inr ⟨_, s', rfl, .failed res s' p t m' hneg h', iff_of_false ?_ hno⟩
    exact not_le.mpr hneg
  · rw [hok, if_neg (by decide)]
    by_cases hslot : process_slot < 0 ∨ process_slot ≥ RASOS_MAX_PROCESSES
    · rw [if_pos hslot]
      exact Or.inl ⟨rfl, by omega⟩
    · rw [if_neg hslot, bind_of_some (assign_apply _ _)]
      rw [hm', ← imageWrites_congr honly.imageKept h.loaded h.file] at h'
      exact Or.inr ⟨_, _, rfl, .ok s' p t (by omega) (by omega) hid h',
        iff_of_true (Int.le_refl _) hmappable⟩

/-- The list of tasks does not depend on the files. -/
theorem FileFrame.taskList {s s' : Kernel} {l : List UInt32} (h : FileFrame s s') (hlist : TaskList s l) :
    TaskList s' l :=
  hlist.congr (fun q _ ht => h.object q _ ht rfl fun _ heq => Obj.noConfusion heq)
    (congrArg Statics.task_head h.statics) (congrArg Statics.task_tail h.statics)
    (congrArg Statics.current_task h.statics)

theorem FileFrame.tailLive {s s' : Kernel} (h : FileFrame s s') (htail : TailLive s) : TailLive s' := by
  rcases htail with h0 | ⟨last, hlast⟩
  · exact Or.inl ((congrArg Statics.task_head h.statics).trans h0)
  · refine Or.inr ⟨last, ?_⟩
    rw [show s'.task_tail = s.task_tail from congrArg Statics.task_tail h.statics]
    exact h.object _ _ hlast rfl fun _ heq => Obj.noConfusion heq

theorem Since.tailLive {s s' : Kernel} (h : Since s s') (htail : TailLive s) : TailLive s' :=
  h.fileFrame.tailLive htail

/-- A process starts somewhere exactly when its file has been found. -/
theorem ProcessLoaded.starts_iff {s : Kernel} {p : Process} (hwf : s.WF) (h : ProcessLoaded s p) :
    (∃ ip, EntryPoint s p ip) ↔ p.ptr ≠ 0 := by
  constructor
  · rintro ⟨ip, hip⟩ hnull
    cases hip with
    | elf f htype hfile hmem => exact hwf.ne_zero hfile hnull
    | binary htype =>
        cases h with
        | missing ht _ => exact htype ht
        | elf f ht _ => exact htype ht
        | binary ht himage _ => exact hwf.ne_zero himage hnull
  · intro hptr
    cases h with
    | missing ht hnull => exact absurd hnull hptr
    | elf f ht hfile => exact ⟨_, .elf f ht hfile.live (hwf.ne_zero hfile.image)⟩
    | binary ht _ _ => exact ⟨_, .binary (by rw [ht]; decide)⟩

/-- The allocations of the stack and of the task. -/
def stackAndTask : KernelM UInt32 := do
  let _ ← kzallocBytes RASOS_USER_PROGRAM_STACK_SIZE
  kzalloc taskK SIZEOF_TASK {}

/-- What a process needs for its stack and its task: its file, the memory, and a tail to append to. A tail
that dangles will do when the new task gets its block. -/
structure TaskReady (s : Kernel) (p : Process) : Prop where
  file : p.ptr ≠ 0
  blocks : 1031 ≤ freeCount s.heap
  tail : TailLive s ∨ Total stackAndTask s fun task _ => task = s.task_tail

/-- Allocating the stack leaves the list of tasks alone. -/
theorem KzallocBytes.tailLive_iff {s s1 : Kernel} {size stack : UInt32} (h : KzallocBytes s size stack s1) :
    TailLive s1 ↔ TailLive s := by
  refine ⟨fun h1 => ?_, h.since.tailLive⟩
  rcases h1 with h0 | ⟨last, hlast⟩
  · exact Or.inl ((congrArg Statics.task_head h.since.statics).symm.trans h0)
  · rw [show s1.task_tail = s.task_tail from congrArg Statics.task_tail h.since.statics] at hlast
    exact Or.inr ⟨last, h.only _ _ (fun heq => Obj.noConfusion heq) hlast⟩

/-- The state in which the process has its stack and its task. -/
theorem NewTask.started {s0 s s1 s2 : Kernel} {process stack task : UInt32} {p p' : Process} {t : Task}
    (h : DataLoaded s0 process s p) (hbytes : KzallocBytes s RASOS_USER_PROGRAM_STACK_SIZE stack s1)
    (hstack : stack ≠ 0) (ht : NewTask s1 process task s2 t) (htask : TaskNew s1 process task s2)
    (hptr : p.ptr ≠ 0) {filename : List UInt8} {id : UInt16}
    (hp' : { p with filename := filename, stack := stack, id := id, task := task } = p') :
    Started s process { s2 with live := processK.write s2.live process p' } p' t
      (identityEntry taskFlags) := by
  have hloaded1 := h.loaded.kzallocBytes h.frame.wf hbytes
  have hprocess1 := hbytes.since.object _ _ h.live
  have hprocess2 := ht.object _ _ hprocess1 fun _ heq => Obj.noConfusion heq
  have hfour : blocksFor RASOS_USER_PROGRAM_STACK_SIZE = 4 := by decide
  have hkept := ht.imageKept.trans (imageKept_process hprocess2 p')
  have hother : ∀ q o, s2.live q = some o → (∀ a, o ≠ processK.inj a) →
      processK.write s2.live process p' q = some o := by
    intro q o ho hne
    have hq : q ≠ process := by
      rintro rfl
      rw [hprocess2] at ho
      exact hne p (Option.some.inj ho).symm
    exact (Kind.write_of_ne _ _ _ hq).trans ho
  have htasks : ∀ q u, s2.live q = some (taskK.inj u) →
      processK.write s2.live process p' q = some (taskK.inj u) :=
    fun q u hu => hother q _ hu fun _ heq => Obj.noConfusion heq
  obtain ⟨hfresh, hraw⟩ := hbytes.live hstack
  obtain ⟨p'', hp'', hip⟩ := ht.starts
  rw [hprocess1] at hp''
  obtain rfl := processK.inj_injective (Option.some.inj hp'')
  have hprocesses : s2.processes = s.processes :=
    ht.processes.trans (congrArg Statics.processes hbytes.since.statics)
  subst hp'
  refine ⟨ht.wf.write hprocess2 _, Kind.write_self .., hloaded1.kept hkept rfl rfl rfl, hptr,
    hkept.object _ _ hraw rfl, ?_, htasks _ _ ht.live, ht.back, hip.kept hkept rfl rfl,
    ht.maps.congr fun q o hpaging hq => hother q o hq fun a heq => ?_, ?_, ?_, fun l hl => ?_, hprocesses, hfresh,
    fun q o ho hi => hkept.object q o (hbytes.since.object q o ho) hi,
    fun q n hn => hkept.allocated q n (hbytes.since.allocated q n hn),
    fun a ha => (congrFun ht.mem a).trans (hbytes.mem a ha),
    fun a ha => (congrFun ht.mem a).trans (hbytes.zero hstack a ha), fun p0 hp0 => ?_⟩
  · rw [← hfour]
    exact hkept.allocated _ _ (hbytes.allocated hstack)
  · rw [heq] at hpaging
    cases hpaging
  · rcases ht.prev with h0 | ⟨u, hu⟩
    · exact Or.inl h0
    · exact Or.inr ⟨u, htasks _ _ hu⟩
  · refine Iff.trans ?_ (ht.linked.trans hbytes.tailLive_iff)
    refine appended_congr (s := s2) (fun q u => ?_) rfl rfl
    exact Kind.write_apart (fun _ _ heq => Obj.noConfusion heq) hprocess2
  · exact (htask.taskList (hbytes.since.fileFrame.taskList hl)).congr htasks rfl rfl rfl
  · obtain rfl := processK.inj_injective (Option.some.inj (h.live.symm.trans hp0))
    exact ⟨rfl, rfl, rfl⟩

theorem processLoadTask_spec {s0 s : Kernel} {process : UInt32} {p : Process} (filename : List UInt8)
    (process_slot : Int) (h : DataLoaded s0 process s p) :
    NoRoom s.heap RASOS_USER_PROGRAM_STACK_SIZE ∧
        processLoadTask filename process_slot process s = some ((- ENOMEM, none), s) ∨
      ¬ NoRoom s.heap RASOS_USER_PROGRAM_STACK_SIZE ∧
        processLoadTask filename process_slot process s = none ∧
        ¬ (TaskReady s p ∧ 0 ≤ process_slot ∧ process_slot < RASOS_MAX_PROCESSES) ∨
      ¬ NoRoom s.heap RASOS_USER_PROGRAM_STACK_SIZE ∧ TaskReady s p ∧
        ∃ r s', processLoadTask filename process_slot process s = some (r, s') ∧
          Mapped s process process_slot r s' ∧
          Total stackAndTask s fun _ s2 => 0 ≤ r.1 ↔ Mappable s2 p := by
  have hwf := h.frame.wf
  obtain ⟨stack, s1, halloc, hbytes⟩ := kzallocBytes_spec hwf RASOS_USER_PROGRAM_STACK_SIZE
  have hnull := hbytes.null_iff
  unfold processLoadTask
  rw [bind_of_some halloc]
  by_cases hstack : stack = 0
  · rw [if_pos hstack, hbytes.null hstack]
    exact Or.inl ⟨hnull.mp hstack, rfl⟩
  rw [if_neg hstack]
  have hroom : ¬ NoRoom s.heap RASOS_USER_PROGRAM_STACK_SIZE := fun hno => hstack (hnull.mpr hno)
  have hcount := hbytes.freeCount hstack
  have hfour : blocksFor RASOS_USER_PROGRAM_STACK_SIZE = 4 := by decide
  rw [hfour] at hcount
  have hwf1 := hbytes.since.wf
  have hprocess1 := hbytes.since.object _ _ h.live
  have hloaded1 := h.loaded.kzallocBytes hwf hbytes
  have hstarts : (∃ ip, StartsAt s1 process ip) ↔ p.ptr ≠ 0 := by
    rw [← hloaded1.starts_iff hwf1]
    constructor
    · rintro ⟨ip, p', hp', hip⟩
      rw [hprocess1] at hp'
      obtain rfl := processK.inj_injective (Option.some.inj hp')
      exact ⟨ip, hip⟩
    · rintro ⟨ip, hip⟩
      exact ⟨ip, p, hprocess1, hip⟩
  refine Or.inr ?_
  rcases taskNew_spec hwf1 process with ⟨hno, hstop⟩ | ⟨hready, task, s2, ⟨s3, hnext⟩, hnew, htask, -⟩
  · refine Or.inl ⟨hroom, bind_of_none hstop, fun ⟨hready, _⟩ => hno ⟨⟨?_, ?_⟩, ?_⟩⟩
    · have := hready.blocks
      omega
    · exact hstarts.mpr hready.file
    · rcases hready.tail with htail | ⟨task, s3, hrun, htask⟩
      · exact Or.inl (hbytes.since.tailLive htail)
      · refine Or.inr ⟨s3, ?_⟩
        rw [show s1.task_tail = s.task_tail from congrArg Statics.task_tail hbytes.since.statics, ← htask]
        exact (bind_of_some halloc).symm.trans hrun
  have hptr := hstarts.mp hready.starts
  have hblocks := hready.blocks
  have honly := taskNew_only process hwf1 task s2 hnew htask.not_iserr
  obtain ⟨t, ht⟩ := htask.newTask honly
  have hprocess2 := ht.object _ _ hprocess1 fun _ heq => Obj.noConfusion heq
  rw [bind_of_some hnew, if_neg htask.ne_zero, bind_of_some (load_of_live hprocess2),
    bind_of_some (store_of_live hprocess2 _)]
  generalize hp' : ({ p with
    filename := strncpy filename RASOS_PATH_MAX_LEN
    stack := stack
    id := UInt16.ofInt process_slot
    task := task } : Process) = p'
  have hkept := ht.imageKept.trans (imageKept_process hprocess2 p')
  have hstarted := ht.started h hbytes hstack htask hptr hp'
  rcases processLoadMap_spec hstarted (by rw [← hp']) with ⟨hstop, hslot⟩ | ⟨r, s', hrun, hmapped, hmappable⟩
  · exact Or.inl ⟨hroom, hstop, fun hready => hslot hready.2⟩
  have hboth : stackAndTask s = some (task, s3) := (bind_of_some halloc).trans hnext
  have hready' : TaskReady s p := by
    refine ⟨hptr, by omega, ?_⟩
    rcases htask.tail honly with h1 | heq
    · exact Or.inl (hbytes.tailLive_iff.mp h1)
    · exact Or.inr ⟨task, s3, hboth, heq.trans (congrArg Statics.task_tail hbytes.since.statics)⟩
  refine Or.inr ⟨hroom, hready', r, s', hrun, hmapped, task, s3, hboth, hmappable.trans ?_⟩
  have hcases := kzalloc_cases hwf1 hnext
  have hsame : Mappable { s2 with live := processK.write s2.live process p' } p' ↔ Mappable s1 p :=
    mappable_congr hkept hloaded1 hptr (by rw [← hp']) (by rw [← hp'])
  have hsame3 : Mappable s3 p ↔ Mappable s1 p :=
    mappable_congr ((hcases.since hwf1).imageKept hcases.mem) hloaded1 hptr rfl rfl
  exact hsame.trans hsame3.symm

end RasOS
