import RasOS.Isr80h.Syscalls
import RasOS.Keyboard.Qwerty
import RasOS.Lib.Run

set_option autoImplicit false

/-! # Programs and interrupts (`idt/idt.c`)

What a program sees of the kernel: it runs, interrupts come and system calls are made, in any order. The kernel
answers every one of them, and the only traces they leave are the saved registers of the current task and the
characters in the keyboard buffers.

A program may do anything to memory between two events: the objects of the kernel's heap are not bytes of
`mem`, so this stands for a program that keeps to its own pages. -/

namespace RasOS

open Machine

/-! ## The code -/

abbrev MASTER_PIC_COMMAND_AND_STATUS_REG : UInt16 := 0x20
abbrev END_OF_INTERRUPT : UInt8 := 0x20

/-- The registered callback of a vector, if there is one. -/
def runCallback (interrupt : Nat) (frame : InterruptFrame) : SystemM Unit :=
  if interrupt < RASOS_TOTAL_INTERRUPTS then do
    let interrupt_callbacks ← fun s => some (s.interrupt_callbacks, s)
    match interrupt_callbacks interrupt with
    | none => return ()
    | some interrupt_callback => do
        taskCurrentSaveState frame
        interrupt_callback.run
  else stop

/-- `interrupt_handler`. -/
def interruptHandler (interrupt : Nat) (frame : InterruptFrame) : SystemM Unit := do
  System.kernelPage
  runCallback interrupt frame
  let _ ← taskPage
  System.outb MASTER_PIC_COMMAND_AND_STATUS_REG END_OF_INTERRUPT

/-! ## Events -/

/-- What happens next: the program does something to memory, the keyboard has more bytes, an interrupt comes, or
the program makes a system call. Vector 0 is left out: its gate does not lead to `interrupt_handler`. -/
inductive Event
  | program (mem : UInt32 → UInt8)
  | keys (bytes : List UInt8)
  | interrupt (v : StubVector) (frame : InterruptFrame)
  | syscall (command : UInt32) (frame : InterruptFrame)

theorem StubVector.lt (v : StubVector) : v.vector.toNat < RASOS_TOTAL_INTERRUPTS :=
  Nat.lt_trans v.vector.toNat_lt (by decide)

def systemStep (s : System) : Event → Option System
  | .program mem => some { s with kernel := { s.kernel with mem := mem } }
  | .keys bytes => some { s with ps2 := { s.ps2 with pending := s.ps2.pending ++ bytes } }
  | .interrupt v frame => (interruptHandler v.vector.toNat frame s).map Prod.snd
  | .syscall command frame => (isr80hHandler (signed command) frame s).map Prod.snd

/-! ## What the kernel leaves behind -/

/-- An object and what has become of it: the registers of the current task have been saved, or there is
something else in the keyboard buffer of a process. -/
def ObjServiced (current : Prop) (o o' : Option Obj) : Prop :=
  o' = o ∨ (current ∧ ∃ t r, o = some (taskK.inj t) ∧ o' = some (taskK.inj { t with registers := r })) ∨
    ∃ p kb, o = some (processK.inj p) ∧ o' = some (processK.inj { p with keyboard := kb })

/-- Of the kernel nothing has changed but memory, the active directory, the saved registers of the current task
and keyboard buffers. -/
structure Serviced (k k' : Kernel) : Prop where
  rest : k' = { k with mem := k'.mem, live := k'.live, current_directory := k'.current_directory }
  live : ∀ q, ObjServiced (q = k.current_task) (k.live q) (k'.live q)

theorem ObjServiced.trans {current : Prop} {o o' o'' : Option Obj} (h : ObjServiced current o o')
    (h' : ObjServiced current o' o'') : ObjServiced current o o'' := by
  rcases h' with rfl | ⟨hc, t', r', ht', rfl⟩ | ⟨p', kb', hp', rfl⟩
  · exact h
  · rcases h with rfl | ⟨-, t, r, ht, rfl⟩ | ⟨p, kb, hp, rfl⟩
    · exact Or.inr (Or.inl ⟨hc, t', r', ht', rfl⟩)
    · have heq := taskK.inj_injective (Option.some.inj ht')
      exact Or.inr (Or.inl ⟨hc, t, r', ht, by rw [← heq]⟩)
    · cases ht'
  · rcases h with rfl | ⟨hc, t, r, ht, rfl⟩ | ⟨p, kb, hp, rfl⟩
    · exact Or.inr (Or.inr ⟨p', kb', hp', rfl⟩)
    · cases hp'
    · have heq := processK.inj_injective (Option.some.inj hp')
      exact Or.inr (Or.inr ⟨p, kb', hp, by rw [← heq]⟩)

theorem serviced_frame : Frame Serviced where
  refl := fun k => ⟨rfl, fun _ => Or.inl rfl⟩
  trans := by
    intro k k' k'' h h'
    have hcurrent : k'.current_task = k.current_task := by rw [h.rest]
    refine ⟨?_, fun q => (h.live q).trans ?_⟩
    · rw [h'.rest, h.rest]
    · have hlive := h'.live q
      rw [hcurrent] at hlive
      exact hlive

namespace Serviced

variable {k k' : Kernel} {q : UInt32}

/-- Objects other than tasks and processes are as they were. -/
theorem object (h : Serviced k k') {o : Obj} (ho : k.live q = some o) (htask : ∀ t, o ≠ taskK.inj t)
    (hprocess : ∀ p, o ≠ processK.inj p) : k'.live q = some o := by
  rcases h.live q with heq | ⟨-, t, -, ht, -⟩ | ⟨p, -, hp, -⟩
  · exact heq.trans ho
  · exact absurd (Option.some.inj (ho.symm.trans ht)) (htask t)
  · exact absurd (Option.some.inj (ho.symm.trans hp)) (hprocess p)

theorem task (h : Serviced k k') {t : Task} (ht : k.live q = some (taskK.inj t)) :
    ∃ r, k'.live q = some (taskK.inj { t with registers := r }) := by
  rcases h.live q with heq | ⟨-, t', r, ht', hr⟩ | ⟨p, -, hp, -⟩
  · exact ⟨t.registers, heq.trans ht⟩
  · obtain rfl := taskK.inj_injective (Option.some.inj (ht.symm.trans ht'))
    exact ⟨r, hr⟩
  · cases ht.symm.trans hp

theorem process (h : Serviced k k') {p : Process} (hp : k.live q = some (processK.inj p)) :
    ∃ kb, k'.live q = some (processK.inj { p with keyboard := kb }) := by
  rcases h.live q with heq | ⟨-, t, -, ht, -⟩ | ⟨p', kb, hp', hkb⟩
  · exact ⟨p.keyboard, heq.trans hp⟩
  · cases hp.symm.trans ht
  · obtain rfl := processK.inj_injective (Option.some.inj (hp.symm.trans hp'))
    exact ⟨kb, hkb⟩

theorem of_mem (k : Kernel) (mem : UInt32 → UInt8) : Serviced k { k with mem := mem } := ⟨rfl, fun _ => Or.inl rfl⟩

theorem of_directory (k : Kernel) (directory : UInt32) : Serviced k { k with current_directory := directory } :=
  ⟨rfl, fun _ => Or.inl rfl⟩

/-- The registers of the current task are saved. -/
theorem of_registers {t : Task} (ht : k.live k.current_task = some (taskK.inj t)) (r : Registers) :
    Serviced k { k with live := taskK.write k.live k.current_task { t with registers := r } } := by
  refine ⟨rfl, fun q => ?_⟩
  by_cases hq : q = k.current_task
  · subst hq
    exact Or.inr (Or.inl ⟨rfl, t, r, ht, Kind.write_self ..⟩)
  · exact Or.inl (Kind.write_of_ne _ _ _ hq)

/-- A keyboard buffer is used. -/
theorem of_keyboard {ptr : UInt32} {p : Process} (hp : k.live ptr = some (processK.inj p)) (kb : KeyboardBuffer) :
    Serviced k { k with live := processK.write k.live ptr { p with keyboard := kb } } := by
  refine ⟨rfl, fun q => ?_⟩
  by_cases hq : q = ptr
  · subst hq
    exact Or.inr (Or.inr ⟨p, kb, hp, Kind.write_self ..⟩)
  · exact Or.inl (Kind.write_of_ne _ _ _ hq)

end Serviced

/-! ## What the kernel keeps up -/

/-- A kernel that hosts a program: the heap is in order and has a block left, the current task has a page
directory in which every page is present and a process, and the directory of the kernel is the identity map. -/
structure Hosted (k : Kernel) (kernel_chunk kernel_directory directory : UInt32) (e m : Nat → UInt32) : Prop where
  wf : k.WF
  clean : CleanHeap k.heap
  room : 0 < freeCount k.heap
  task : ∃ t, k.live k.current_task = some (taskK.inj t) ∧ MapsBy k t.page_directory directory e m ∧
    ∃ p, k.live t.process = some (processK.inj p)
  present : Present e m
  kernel : k.live kernel_chunk = some (chunkK.inj kernel_directory)
  identity : Maps k kernel_chunk (identityEntry bounceFlags)
  foreground : k.current_process ≠ 0 → ∃ p, k.live k.current_process = some (processK.inj p)

section Hosted

variable {k k' : Kernel} {kernel_chunk kernel_directory directory : UInt32} {e m : Nat → UInt32}

/-- **Services preserve it.** -/
theorem Hosted.serviced (h : Hosted k kernel_chunk kernel_directory directory e m) (hs : Serviced k k') :
    Hosted k' kernel_chunk kernel_directory directory e m := by
  have hheap : k'.heap = k.heap := by rw [hs.rest]
  have hcurrent : k'.current_task = k.current_task := by rw [hs.rest]
  have hforeground : k'.current_process = k.current_process := by rw [hs.rest]
  have htable : ∀ q t, k.live q = some (tableK.inj t) → k'.live q = some (tableK.inj t) :=
    fun q t ht => hs.object ht (fun _ heq => by cases heq) fun _ heq => by cases heq
  have hchunk : ∀ q d, k.live q = some (chunkK.inj d) → k'.live q = some (chunkK.inj d) :=
    fun q t ht => hs.object ht (fun _ heq => by cases heq) fun _ heq => by cases heq
  obtain ⟨t, ht, hmaps, p, hp⟩ := h.task
  refine ⟨h.wf.of_live hheap fun q o ho => ?_, ?_, ?_, ?_, h.present, hchunk _ _ h.kernel, ?_, ?_⟩
  · rcases hs.live q with heq | ⟨-, t', r, ht', -⟩ | ⟨p', kb, hp', -⟩
    · exact ⟨o, heq.symm.trans ho⟩
    · exact ⟨_, ht'⟩
    · exact ⟨_, hp'⟩
  · rw [hheap]
    exact h.clean
  · rw [hheap]
    exact h.room
  · obtain ⟨r, hr⟩ := hs.task ht
    obtain ⟨kb, hkb⟩ := hs.process hp
    rw [hcurrent]
    refine ⟨_, hr, ⟨hchunk _ _ hmaps.1, htable _ _ hmaps.2.entries, fun i hi => ?_, hmaps.2.inj, hmaps.2.ne⟩, _, hkb⟩
    obtain ⟨u, hu, hvalues⟩ := hmaps.2.values i hi
    exact ⟨u, htable _ _ hu, hvalues⟩
  · refine h.identity.congr fun q o ho hq => hs.object hq (fun t heq => ?_) fun p heq => ?_
    · rw [heq] at ho
      cases ho
    · rw [heq] at ho
      cases ho
  · intro hne
    rw [hforeground] at hne ⊢
    obtain ⟨p, hp⟩ := h.foreground hne
    obtain ⟨kb, hkb⟩ := hs.process hp
    exact ⟨_, hkb⟩

/-- With its own directory active the kernel can read from the task. -/
theorem Hosted.copyCall (h : Hosted k kernel_chunk kernel_directory directory e m)
    (hactive : k.current_directory = kernel_directory) : CopyCall k kernel_chunk k.current_task directory e m := by
  obtain ⟨t, ht, hmaps, -⟩ := h.task
  exact ⟨h.wf, ⟨t, ht, hmaps⟩, by rw [hactive]; exact h.kernel⟩

theorem Hosted.kernelSpace (h : Hosted k kernel_chunk kernel_directory directory e m)
    (hactive : k.current_directory = kernel_directory) : KernelSpace k kernel_chunk :=
  ⟨by rw [hactive]; exact h.kernel, h.identity⟩

end Hosted

/-! ## The functions of the kernel -/

/-- Where the linker and the stack put things: below the heap. -/
structure LaidOut (s : System) : Prop where
  chunk_variable : 0x100 ≤ s.chunk_variable.toNat / 4096 ∧ s.chunk_variable.toNat / 4096 < s.image_end
  buffer : s.print_buf.toNat + 1024 < 0x01000000

/-- The program's directory leaves the code, the variables, the stack and the chunk of the kernel in place: the
handlers run in it before `kernel_page` and behind `task_page`. -/
def LeavesKernel (s : System) (e m : Nat → UInt32) : Prop :=
  KernelInPlace s.image_end s.stack_begin s.kernel_chunk e m

/-- The system is inside the kernel, on behalf of a program. -/
structure InKernel (s : System) (kernel_directory directory : UInt32) (e m : Nat → UInt32) : Prop where
  hosted : Hosted s.kernel s.kernel_chunk kernel_directory directory e m
  active : s.kernel.current_directory = kernel_directory
  selectors : s.selectors = 0x10
  layout : LaidOut s
  place : LeavesKernel s e m

/-- What a service may change. -/
structure Does (s s' : System) : Prop where
  rest : s' = { s with
    kernel := s'.kernel, terminal := s'.terminal, selectors := s'.selectors, ps2 := s'.ps2, written := s'.written }
  kernel : Serviced s.kernel s'.kernel

theorem does_frame : Frame Does where
  refl := fun s => ⟨rfl, serviced_frame.refl _⟩
  trans := by
    intro s s' s'' h h'
    refine ⟨?_, serviced_frame.trans h.kernel h'.kernel⟩
    rw [h'.rest, h.rest]

section Does

variable {s s' : System} {e m : Nat → UInt32}

theorem Does.laidOut (h : Does s s') (hs : LaidOut s) : LaidOut s' := by
  rw [h.rest]
  exact ⟨hs.chunk_variable, hs.buffer⟩

theorem Does.leavesKernel (h : Does s s') (hs : LeavesKernel s e m) : LeavesKernel s' e m := by
  rw [h.rest]
  exact hs

end Does

/-- The system with other segments loaded and another directory active. -/
def System.paged (s : System) (selectors : UInt16) (directory : UInt32) : System :=
  { s with selectors := selectors, kernel := { s.kernel with current_directory := directory } }

section Functions

variable {s : System} {kernel_directory directory : UInt32} {e m : Nat → UInt32}

theorem kernelPage_spec (h : Hosted s.kernel s.kernel_chunk kernel_directory directory e m)
    (hfound : translate s.kernel s.chunk_variable = some s.chunk_variable) :
    System.kernelPage s = some ((), s.paged 0x10 kernel_directory) := by
  have hswitch : s.toKernelPage s.kernel = some ((), _) :=
    (kernelPageAt_of_translate hfound s.kernel_chunk).trans (pagingSwitch_of_live h.kernel)
  exact onKernel_of_some (s := { s with selectors := 0x10 }) hswitch

/-- The variable of `kernel_page`, found in the program's own directory. -/
theorem LeavesKernel.finds (h : LeavesKernel s e m) (hlayout : LaidOut s) {k : Kernel}
    (hdir : Directory k k.current_directory e 1024 m) : translate k s.chunk_variable = some s.chunk_variable := by
  have hlt := s.chunk_variable.toNat_lt
  obtain ⟨he, hm⟩ := h _ (by omega) (Or.inl hlayout.chunk_variable)
  exact hdir.translate_inPlace he hm

theorem InKernel.kernelPage (h : InKernel s kernel_directory directory e m) :
    System.kernelPage s = some ((), s.paged 0x10 kernel_directory) :=
  kernelPage_spec h.hosted ((h.hosted.kernelSpace h.active).space s.chunk_variable)

/-- `kernel_page` from the directory of the program. -/
theorem InKernel.toKernelPage (h : InKernel s kernel_directory directory e m) :
    s.toKernelPage { s.kernel with current_directory := directory } =
      RasOS.kernelPage s.kernel_chunk { s.kernel with current_directory := directory } := by
  obtain ⟨t, -, hmaps, -⟩ := h.hosted.task
  have hdir : Directory { s.kernel with current_directory := directory } directory e 1024 m :=
    ⟨hmaps.2.entries, hmaps.2.values, hmaps.2.inj, hmaps.2.ne⟩
  exact kernelPageAt_of_translate (h.place.finds h.layout hdir) s.kernel_chunk

theorem taskPage_spec (h : Hosted s.kernel s.kernel_chunk kernel_directory directory e m) :
    taskPage s = some (0, s.paged 0x23 directory) := by
  obtain ⟨t, ht, hmaps, -⟩ := h.task
  have hswitch : taskSwitch s.kernel.current_task s.kernel =
      some (OK, { s.kernel with current_directory := directory }) := by
    rw [taskSwitch, bind_of_some (assign_apply _ _), bind_of_some (load_of_live ht),
      bind_of_some (pagingSwitch_of_live hmaps.1)]
    rfl
  have hcurrent : onKernel taskCurrent { s with selectors := 0x23 } =
      some (s.kernel.current_task, { s with selectors := 0x23 }) := rfl
  have hregisters : userRegisters s = some ((), { s with selectors := 0x23 }) := rfl
  rw [taskPage, bind_of_some hregisters, bind_of_some hcurrent,
    bind_of_some (onKernel_of_some (s := { s with selectors := 0x23 }) hswitch)]
  rfl

/-- What `task_save_state` takes from a frame. -/
def savedRegisters (frame : InterruptFrame) : Registers where
  ip := frame.ip
  cs := frame.cs
  flags := frame.flags
  esp := frame.esp
  ss := frame.ss
  eax := frame.eax
  ebp := frame.ebp
  ebx := frame.ebx
  ecx := frame.ecx
  edi := frame.edi
  edx := frame.edx
  esi := frame.esi

/-- The frame in the registers of the current task `t`. -/
def System.saved (s : System) (t : Task) (frame : InterruptFrame) : System :=
  { s with kernel := { s.kernel with
    live := taskK.write s.kernel.live s.kernel.current_task { t with registers := savedRegisters frame } } }

theorem taskCurrentSaveState_run (h : Hosted s.kernel s.kernel_chunk kernel_directory directory e m) {t : Task}
    (ht : s.kernel.live s.kernel.current_task = some (taskK.inj t)) (frame : InterruptFrame) :
    taskCurrentSaveState frame s = some ((), s.saved t frame) := by
  have hcurrent : onKernel taskCurrent s = some (s.kernel.current_task, s) := rfl
  have hsave : taskSaveState s.kernel.current_task frame s.kernel = some ((), (s.saved t frame).kernel) := by
    rw [taskSaveState, bind_of_some (load_of_live ht), store_of_live ht]
    rfl
  rw [taskCurrentSaveState, bind_of_some hcurrent, if_neg (h.wf.ne_zero ht)]
  exact onKernel_of_some hsave

/-- The frame of the interrupt is in the registers of the current task. -/
theorem taskCurrentSaveState_spec (h : InKernel s kernel_directory directory e m) (frame : InterruptFrame) :
    ∃ s', taskCurrentSaveState frame s = some ((), s') ∧ InKernel s' kernel_directory directory e m ∧ Does s s' ∧
      s'.terminal = s.terminal ∧ s'.ps2 = s.ps2 ∧ s'.written = s.written := by
  obtain ⟨t, ht, -⟩ := h.hosted.task
  have hserviced : Serviced s.kernel (s.saved t frame).kernel := Serviced.of_registers ht (savedRegisters frame)
  exact ⟨s.saved t frame, taskCurrentSaveState_run h.hosted ht frame,
    ⟨h.hosted.serviced hserviced, h.active, h.selectors, ⟨h.layout.chunk_variable, h.layout.buffer⟩, h.place⟩,
    ⟨rfl, hserviced⟩, rfl, rfl, rfl⟩

/-- An item on the stack of the current task, as the task reads it. -/
def stackItem (k : Kernel) (m : Nat → UInt32) (t : Task) (index : Int) : UInt32 :=
  taskWord k.mem m (t.registers.esp + UInt32.ofInt (4 * index))

theorem stackItem_spec (h : InKernel s kernel_directory directory e m) {t : Task}
    (ht : s.kernel.live s.kernel.current_task = some (taskK.inj t)) (index : Int) :
    System.taskGetStackItem index s = some (stackItem s.kernel m t index, s) := by
  obtain ⟨t', ht', hmaps, -⟩ := h.hosted.task
  obtain rfl : t' = t := taskK.inj_injective (Option.some.inj (ht'.symm.trans ht))
  have hitem : RasOS.taskGetStackItem s.toKernelPage s.kernel.current_task index s.kernel =
      some (stackItem s.kernel m t' index, s.kernel) :=
    taskGetStackItem_run (h.hosted.copyCall h.active) ht' h.hosted.present h.toKernelPage index
  have hself : (fun s => some (s, s) : SystemM System) s = some (s, s) := rfl
  have hcurrent : onKernel taskCurrent s = some (s.kernel.current_task, s) := rfl
  have hregisters : kernelRegisters s = some ((), s) := by
    rw [kernelRegisters, ← h.selectors]
  rw [System.taskGetStackItem, bind_of_some hself, bind_of_some hcurrent, bind_of_some (onKernel_of_some hitem),
    bind_of_some hregisters]
  rfl

/-- **The print call returns** while the heap has a block left. It has printed a string, and nothing but memory has
changed in the kernel. -/
theorem isr80hCommand1Print_spec (h : InKernel s kernel_directory directory e m) :
    ∃ str mem, System.isr80hCommand1Print s = some (0, { s with
      kernel := { s.kernel with mem := mem }, terminal := terminalPrint s.terminal str }) := by
  obtain ⟨t, ht, -⟩ := h.hosted.task
  have hcall := h.hosted.copyCall h.active
  have hspace := h.hosted.kernelSpace h.active
  have hbuffer : OwnedBuffer s.kernel.heap s.print_buf 1024 := 
    owned_buffer h.hosted.wf (by have hlow := h.layout.buffer; omega)
  have hitem : RasOS.taskGetStackItem s.toKernelPage s.kernel.current_task 0 s.kernel =
      some (taskWord s.kernel.mem m t.registers.esp, s.kernel) :=
    taskGetStackItem_first hcall ht h.hosted.present h.toKernelPage
  have hfinds : FindsChunk s.kernel s.toKernelPage s.kernel_chunk directory e m 1024 :=
    findsChunk_kernelPageAt h.place h.layout.chunk_variable 1024
  have hne : bounceBuffer s.kernel 1024 ≠ 0 := by
    rcases bounceBuffer_block h.hosted.wf (by decide : 0 < (1024 : Int)) (by decide) with ⟨-, hfull⟩ | ⟨hne, -⟩
    · exact absurd hfull (Nat.ne_of_gt h.hosted.room)
    · exact hne
  rcases copyStringFromTask_mem hcall h.hosted.present hspace (taskWord s.kernel.mem m t.registers.esp) s.print_buf
    (by decide : 0 < (1024 : Int)) (by decide) hfinds with ⟨hnull, -⟩ | ⟨-, s1, live, hbounced, hcopy⟩
  · exact absurd hnull hne
  · have hholds := (hbounced.holds_iff hbuffer (by decide) (by decide)
      (bouncedByte s.kernel.mem m (bounceBuffer s.kernel 1024) (taskWord s.kernel.mem m t.registers.esp) 1024)).mpr
        fun _ _ _ => rfl
    have hmem := (hcall.frame h.hosted.clean (taskWord s.kernel.mem m t.registers.esp) s.print_buf
      (by decide : -2 ^ 31 ≤ (1024 : Int)) hfinds).1 _ _ hcopy
    generalize strCopied (strCopied (zeroed s.kernel.mem (bounceBuffer s.kernel 1024) 1024) _ _ _) _ _ _ = mem
      at hcopy hholds hmem
    have hstate : ({ freed s1 (bounceBuffer s.kernel 1024) with mem := mem } : Kernel) =
      { s.kernel with mem := mem } := hmem
    have hread := readString_run (s := { freed s1 (bounceBuffer s.kernel 1024) with mem := mem })
      (hbounced.freedSpace h.hosted.wf hspace mem) hholds (by decide)
    rw [hstate] at hcopy hread
    generalize cString _ _ = str at hread
    have hprint : RasOS.isr80hCommand1PrintBy s.toKernelPage s.print_buf s.kernel =
        some (str, { s.kernel with mem := mem }) := by
      rw [RasOS.isr80hCommand1PrintBy, taskCurrent, bind_of_some (fetch_apply _ _), bind_of_some hitem,
        bind_of_some (fetch_apply _ _), bind_of_some hcopy, hread]
    have hself : (fun s => some (s, s) : SystemM System) s = some (s, s) := rfl
    have hregisters : kernelRegisters { s with kernel := { s.kernel with mem := mem } } =
        some ((), { s with kernel := { s.kernel with mem := mem } }) := by
      rw [kernelRegisters, ← h.selectors]
    refine ⟨str, mem, ?_⟩
    rw [System.isr80hCommand1Print, bind_of_some hself, bind_of_some (onKernel_of_some hprint), bind_of_some hregisters]
    rfl

theorem keyboardPop_hosted (h : InKernel s kernel_directory directory e m) :
    ∃ c k, keyboardPop s.kernel = some (c, k) ∧ Serviced s.kernel k ∧ k = { s.kernel with live := k.live } := by
  obtain ⟨t, ht, -, p, hp⟩ := h.hosted.task
  have hne : s.kernel.current_task ≠ 0 := h.hosted.wf.ne_zero ht
  refine ⟨p.keyboard.pop.1, { s.kernel with
    live := processK.write s.kernel.live t.process { p with keyboard := p.keyboard.pop.2 } }, ?_,
    Serviced.of_keyboard hp _, rfl⟩
  rw [keyboardPop, taskCurrent, bind_of_some (fetch_apply _ _), if_neg hne, bind_of_some (load_of_live ht),
    bind_of_some (load_of_live hp)]
  exact bind_of_some (store_of_live hp _)

/-- What a service inside the kernel leaves. -/
structure Served (s s' : System) (kernel_directory directory : UInt32) (e m : Nat → UInt32) : Prop where
  inside : InKernel s' kernel_directory directory e m
  does : Does s s'

theorem InKernel.served {s' : System} (h : InKernel s kernel_directory directory e m) (hdoes : Does s s')
    (hactive : s'.kernel.current_directory = s.kernel.current_directory) (hselectors : s'.selectors = s.selectors) :
    Served s s' kernel_directory directory e m := by
  have hchunk : s'.kernel_chunk = s.kernel_chunk := by rw [hdoes.rest]
  refine ⟨⟨?_, hactive.trans h.active, hselectors.trans h.selectors, hdoes.laidOut h.layout,
    hdoes.leavesKernel h.place⟩, hdoes⟩
  rw [hchunk]
  exact h.hosted.serviced hdoes.kernel

/-- **Every command returns**, and has done nothing to the ports. -/
theorem Isr80hCommand.run_spec (command : Isr80hCommand) (h : InKernel s kernel_directory directory e m) :
    Total command.run s fun _ s' => Served s s' kernel_directory directory e m ∧ s'.ps2 = s.ps2 ∧
      s'.written = s.written := by
  obtain ⟨t, ht, -⟩ := h.hosted.task
  cases command with
  | sum =>
      show Total isr80hCommand0Sum s _
      rw [isr80hCommand0Sum, total_bind_of_some (stackItem_spec h ht 1), total_bind_of_some (stackItem_spec h ht 0),
        total_pure]
      exact ⟨⟨h, does_frame.refl s⟩, rfl, rfl⟩
  | print =>
      obtain ⟨str, mem, hrun⟩ := isr80hCommand1Print_spec h
      refine (total_of_some hrun).mpr ⟨h.served ⟨rfl, ?_⟩ rfl rfl, rfl, rfl⟩
      exact Serviced.of_mem s.kernel mem
  | getkey =>
      obtain ⟨c, k, hpop, hserviced, hk⟩ := keyboardPop_hosted h
      show Total isr80hCommand2Getkey s _
      rw [isr80hCommand2Getkey, total_bind_of_some (onKernel_of_some hpop), total_pure]
      exact ⟨h.served ⟨rfl, hserviced⟩ (by rw [hk]) rfl, rfl, rfl⟩
  | putchar =>
      show Total isr80hCommand3Putchar s _
      rw [isr80hCommand3Putchar, total_bind_of_some (stackItem_spec h ht 0), total_bind_of_some rfl, total_pure]
      exact ⟨h.served ⟨rfl, serviced_frame.refl _⟩ rfl rfl, rfl, rfl⟩

theorem isr80hHandleCommand_spec (command : Int) (h : InKernel s kernel_directory directory e m) :
    Total (isr80hHandleCommand command) s fun _ s' => Served s s' kernel_directory directory e m ∧ s'.ps2 = s.ps2 ∧
      s'.written = s.written := by
  unfold isr80hHandleCommand
  by_cases hrange : command < 0 ∨ command ≥ RASOS_MAX_ISR80H_COMMANDS
  · rw [if_pos hrange, total_pure]
    exact ⟨⟨h, does_frame.refl s⟩, rfl, rfl⟩
  · have htable : (fun s => some (s.isr80h_commands, s) : SystemM (Nat → Option Isr80hCommand)) s =
        some (s.isr80h_commands, s) := rfl
    rw [if_neg hrange, total_bind_of_some htable]
    cases s.isr80h_commands command.toNat with
    | none => exact total_pure.mpr ⟨⟨h, does_frame.refl s⟩, rfl, rfl⟩
    | some command_func => exact command_func.run_spec h

theorem keyboardPush_hosted (h : InKernel s kernel_directory directory e m) (c : UInt8) :
    ∃ k, keyboardPush c s.kernel = some ((), k) ∧ Serviced s.kernel k ∧ k = { s.kernel with live := k.live } := by
  unfold keyboardPush
  rw [bind_of_some (fetch_apply _ _)]
  by_cases hne : s.kernel.current_process = 0
  · rw [if_pos hne]
    exact ⟨s.kernel, rfl, serviced_frame.refl _, rfl⟩
  · rw [if_neg hne]
    by_cases hc : c = 0
    · rw [if_pos hc]
      exact ⟨s.kernel, rfl, serviced_frame.refl _, rfl⟩
    · obtain ⟨p, hp⟩ := h.hosted.foreground hne
      rw [if_neg hc, bind_of_some (load_of_live hp), store_of_live hp]
      exact ⟨_, rfl, Serviced.of_keyboard hp _, rfl⟩

/-- Back in the program: its directory is active and its segments are loaded. -/
structure InProgram (s : System) (kernel_directory directory : UInt32) (e m : Nat → UInt32) : Prop where
  hosted : Hosted s.kernel s.kernel_chunk kernel_directory directory e m
  active : s.kernel.current_directory = directory
  selectors : s.selectors = 0x23
  layout : LaidOut s
  place : LeavesKernel s e m

/-- The directory of the program is the one it runs in. -/
theorem InProgram.tables (h : InProgram s kernel_directory directory e m) :
    Directory s.kernel s.kernel.current_directory e 1024 m := by
  obtain ⟨tk, -, hmaps, -⟩ := h.hosted.task
  rw [h.active]
  exact hmaps.2

theorem InProgram.kernelPage (h : InProgram s kernel_directory directory e m) :
    System.kernelPage s = some ((), s.paged 0x10 kernel_directory) :=
  kernelPage_spec h.hosted (h.place.finds h.layout h.tables)

/-- **The way in.** -/
theorem InProgram.enter (h : InProgram s kernel_directory directory e m) : ∃ s', System.kernelPage s = some ((), s') ∧
    Served s s' kernel_directory directory e m ∧ s'.terminal = s.terminal ∧ s'.ps2 = s.ps2 ∧
    s'.written = s.written := by
  have hserviced := Serviced.of_directory s.kernel kernel_directory
  have hlayout : LaidOut (s.paged 0x10 kernel_directory) := ⟨h.layout.chunk_variable, h.layout.buffer⟩
  exact ⟨_, h.kernelPage, ⟨⟨h.hosted.serviced hserviced, rfl, rfl, hlayout, h.place⟩, rfl, hserviced⟩, rfl, rfl, rfl⟩

/-- **The way back**, from wherever in the kernel. -/
theorem taskPage_leaves (h : Hosted s.kernel s.kernel_chunk kernel_directory directory e m)
    (hlayout : LaidOut s) (hplace : LeavesKernel s e m) : ∃ s', taskPage s = some (0, s') ∧
      InProgram s' kernel_directory directory e m ∧ Does s s' ∧ s'.terminal = s.terminal ∧ s'.ps2 = s.ps2 ∧
      s'.written = s.written := by
  have hserviced := Serviced.of_directory s.kernel directory
  have hlayout' : LaidOut (s.paged 0x23 directory) := ⟨hlayout.chunk_variable, hlayout.buffer⟩
  exact ⟨_, taskPage_spec h, ⟨h.serviced hserviced, rfl, rfl, hlayout', hplace⟩, ⟨rfl, hserviced⟩, rfl, rfl, rfl⟩

/-- The keyboard's handler reads its bytes; the process in the foreground, if there is one, may get a character. -/
theorem qwertyKeyboardHandleInterrupt_spec (h : InKernel s kernel_directory directory e m) :
    Total qwertyKeyboardHandleInterrupt s fun _ s' => Hosted s'.kernel s'.kernel_chunk kernel_directory directory e m ∧
      Does s s' ∧ s'.terminal = s.terminal ∧ s'.written = s.written := by
  have hpage : System.kernelPage s = some ((), s) := by
    rw [h.kernelPage, System.paged, ← h.selectors, ← h.active]
  have hfirst : insbKeyboard s = some (s.ps2.read.1, { s with ps2 := s.ps2.read.2 }) := rfl
  have hsecond : insbKeyboard { s with ps2 := s.ps2.read.2 } =
      some (s.ps2.read.2.read.1, { s with ps2 := s.ps2.read.2.read.2 }) := rfl
  unfold qwertyKeyboardHandleInterrupt
  rw [total_bind_of_some hpage, total_bind_of_some hfirst, total_bind_of_some hsecond]
  generalize s.ps2.read.1 = scancode
  generalize s.ps2.read.2.read.2 = ps2
  by_cases hreleased : scancode &&& QWERTY_KEYBOARD_KEY_RELEASED ≠ 0
  · rw [if_pos hreleased, total_pure]
    exact ⟨h.hosted, ⟨rfl, serviced_frame.refl _⟩, rfl, rfl⟩
  · have hbehind : (fun s => some (s.behind_scan_set, s) : SystemM UInt8) { s with ps2 := ps2 } =
        some (s.behind_scan_set, { s with ps2 := ps2 }) := rfl
    rw [if_neg hreleased, total_bind_of_some hbehind]
    generalize qwertyKeyboardScancodeToChar s.behind_scan_set scancode = c
    obtain ⟨k, hpush, hserviced⟩ : ∃ k, pushTyped c { s with ps2 := ps2 } =
        some ((), { s with ps2 := ps2, kernel := k }) ∧ Serviced s.kernel k := by
      unfold pushTyped
      by_cases hc : c ≠ 0
      · obtain ⟨k, hpush, hserviced, -⟩ := keyboardPush_hosted h c
        rw [if_pos hc]
        exact ⟨k, onKernel_of_some (s := { s with ps2 := ps2 }) hpush, hserviced⟩
      · rw [if_neg hc]
        exact ⟨s.kernel, rfl, serviced_frame.refl _⟩
    obtain ⟨s', hback, hin, hdoes, hterminal, -, hwritten⟩ := taskPage_leaves (s := { s with ps2 := ps2, kernel := k })
      (h.hosted.serviced hserviced) ⟨h.layout.chunk_variable, h.layout.buffer⟩ h.place
    rw [total_bind_of_some hpush, total_bind_of_some hback, total_pure]
    have hpushed : Does s { s with ps2 := ps2, kernel := k } := ⟨rfl, hserviced⟩
    exact ⟨hin.hosted, does_frame.trans hpushed hdoes, hterminal, hwritten⟩

/-- **Every system call returns** to the program, whatever it has asked for. -/
theorem isr80hHandler_spec (command : Int) (frame : InterruptFrame) (h : InProgram s kernel_directory directory e m) :
    Total (isr80hHandler command frame) s fun _ s' => InProgram s' kernel_directory directory e m ∧ Does s s' ∧
      s'.ps2 = s.ps2 ∧ s'.written = s.written := by
  obtain ⟨s1, henter, hs1, -, hps1, hwritten1⟩ := h.enter
  obtain ⟨s2, hsave, hs2, hdoes2, -, hps2, hwritten2⟩ := taskCurrentSaveState_spec hs1.inside frame
  unfold isr80hHandler
  rw [total_bind_of_some henter, total_bind_of_some hsave]
  refine (isr80hHandleCommand_spec command hs2).bind ?_
  rintro res s3 ⟨hs3, hps3, hwritten3⟩
  obtain ⟨s4, hback, hin, hdoes, -, hps4, hwritten4⟩ := taskPage_leaves hs3.inside.hosted hs3.inside.layout
    hs3.inside.place
  rw [total_bind_of_some hback, total_pure]
  refine ⟨hin, ?_, ?_, ?_⟩
  · exact does_frame.trans (does_frame.trans (does_frame.trans hs1.does hdoes2) hs3.does) hdoes
  · exact hps4.trans (hps3.trans (hps2.trans hps1))
  · exact hwritten4.trans (hwritten3.trans (hwritten2.trans hwritten1))

theorem runCallback_spec {interrupt : Nat} (hv : interrupt < RASOS_TOTAL_INTERRUPTS) (frame : InterruptFrame)
    (h : InKernel s kernel_directory directory e m) :
    Total (runCallback interrupt frame) s fun _ s' => Hosted s'.kernel s'.kernel_chunk kernel_directory directory e m ∧
      Does s s' ∧ s'.terminal = s.terminal ∧ s'.written = s.written := by
  have htable : (fun s => some (s.interrupt_callbacks, s) : SystemM (Nat → Option InterruptCallback)) s =
      some (s.interrupt_callbacks, s) := rfl
  unfold runCallback
  rw [if_pos hv, total_bind_of_some htable]
  cases s.interrupt_callbacks interrupt with
  | none => exact total_pure.mpr ⟨h.hosted, does_frame.refl s, rfl, rfl⟩
  | some interrupt_callback =>
      obtain ⟨s2, hsave, hs2, hdoes2, hterminal2, -, hwritten2⟩ := taskCurrentSaveState_spec h frame
      cases interrupt_callback
      refine (total_bind_of_some hsave).mpr ((qwertyKeyboardHandleInterrupt_spec hs2).mono ?_)
      rintro _ s' ⟨hhosted, hdoes, hterminal, hwritten⟩
      exact ⟨hhosted, does_frame.trans hdoes2 hdoes, hterminal.trans hterminal2, hwritten.trans hwritten2⟩

/-- **Every interrupt is answered**, with one command to the master. -/
theorem interruptHandler_spec {interrupt : Nat} (hv : interrupt < RASOS_TOTAL_INTERRUPTS) (frame : InterruptFrame)
    (h : InProgram s kernel_directory directory e m) :
    Total (interruptHandler interrupt frame) s fun _ s' => InProgram s' kernel_directory directory e m ∧ Does s s' ∧
      s'.terminal = s.terminal ∧ s'.written = (0x20, 0x20) :: s.written := by
  obtain ⟨s1, henter, hs1, hterminal1, -, hwritten1⟩ := h.enter
  unfold interruptHandler
  rw [total_bind_of_some henter]
  refine (runCallback_spec hv frame hs1.inside).bind ?_
  rintro _ s2 ⟨hhosted, hdoes2, hterminal2, hwritten2⟩
  obtain ⟨s3, hback, hin, hdoes3, hterminal3, -, hwritten3⟩ :=
    taskPage_leaves hhosted (hdoes2.laidOut hs1.inside.layout) (hdoes2.leavesKernel hs1.inside.place)
  have heoi : System.outb MASTER_PIC_COMMAND_AND_STATUS_REG END_OF_INTERRUPT s3 =
      some ((), { s3 with written := (0x20, 0x20) :: s3.written }) := rfl
  rw [total_bind_of_some hback, total_of_some heoi]
  refine ⟨⟨hin.hosted, hin.active, hin.selectors, ⟨hin.layout.chunk_variable, hin.layout.buffer⟩, hin.place⟩, ?_, ?_,
    ?_⟩
  · exact does_frame.trans (does_frame.trans (does_frame.trans hs1.does hdoes2) hdoes3) ⟨rfl, serviced_frame.refl _⟩
  · exact hterminal3.trans (hterminal2.trans hterminal1)
  · exact congrArg _ (hwritten3.trans (hwritten2.trans hwritten1))

end Functions

/-! ## Runs -/

def Event.isInterrupt : Event → Bool
  | .interrupt _ _ => true
  | _ => false

/-- What the kernel writes to the ports in an event. -/
def Event.acknowledged (event : Event) : List (UInt16 × UInt8) :=
  if event.isInterrupt then [(MASTER_PIC_COMMAND_AND_STATUS_REG, END_OF_INTERRUPT)] else []

section Runs

variable {s : System} {kernel_directory directory : UInt32} {e m : Nat → UInt32}

/-- One event. -/
theorem systemStep_answers (h : InProgram s kernel_directory directory e m) (event : Event) :
    ∃ s', systemStep s event = some s' ∧ InProgram s' kernel_directory directory e m ∧ Does s s' ∧
      s'.written = event.acknowledged ++ s.written := by
  cases event with
  | program mem =>
      have hserviced := Serviced.of_mem s.kernel mem
      exact ⟨_, rfl, ⟨h.hosted.serviced hserviced, h.active, h.selectors, ⟨h.layout.chunk_variable, h.layout.buffer⟩,
        h.place⟩, ⟨rfl, hserviced⟩, rfl⟩
  | keys bytes =>
      exact ⟨_, rfl, ⟨h.hosted, h.active, h.selectors, ⟨h.layout.chunk_variable, h.layout.buffer⟩, h.place⟩,
        ⟨rfl, serviced_frame.refl _⟩, rfl⟩
  | interrupt v frame =>
      have hv := v.lt
      obtain ⟨_, s', hrun, hin, hdoes, -, hwritten⟩ := interruptHandler_spec hv frame h
      exact ⟨s', by rw [systemStep, hrun]; rfl, hin, hdoes, hwritten⟩
  | syscall command frame =>
      obtain ⟨_, s', hrun, hin, hdoes, -, hwritten⟩ := isr80hHandler_spec (signed command) frame h
      exact ⟨s', by rw [systemStep, hrun]; rfl, hin, hdoes, hwritten⟩

/-- **Whatever happens, the kernel answers and the program goes on.** In every run, every interrupt and every
system call returns, to the directory and the segments of the program; of the kernel nothing has changed but
memory, the saved registers of the task and keyboard buffers, so that the heap, the page tables, the processes
and the files are as they were. One command goes to the master for each interrupt, and none to the slave. -/
theorem systemRun_answers (h : InProgram s kernel_directory directory e m) (events : List Event) :
    ∃ s', runFrom systemStep s events = some s' ∧ InProgram s' kernel_directory directory e m ∧ Does s s' ∧
      s'.written = List.replicate (events.countP Event.isInterrupt)
        (MASTER_PIC_COMMAND_AND_STATUS_REG, END_OF_INTERRUPT) ++ s.written := by
  induction events generalizing s with
  | nil => exact ⟨s, rfl, h, does_frame.refl s, rfl⟩
  | cons event events ih =>
      obtain ⟨s1, hstep, hin1, hdoes1, hwritten1⟩ := systemStep_answers h event
      obtain ⟨s', hrun, hin, hdoes, hwritten⟩ := ih hin1
      refine ⟨s', runFrom_cons.mpr ⟨s1, hstep, hrun⟩, hin, does_frame.trans hdoes1 hdoes, ?_⟩
      rw [hwritten, hwritten1, List.countP_cons, Event.acknowledged]
      cases event.isInterrupt with
      | false => rfl
      | true =>
          rw [if_pos rfl, if_pos rfl, List.replicate_add, List.append_assoc]
          rfl

end Runs

/-! ## A kernel with a program -/

/-- A kernel with one task, and a process for it in the foreground. A block is enough for the fields of a process
that are used here. -/
def oneProcess : KernelM (UInt32 × UInt32) := do
  let r ← oneTask
  let process ← kzalloc processK 4096 {}
  let t ← load taskK r.2
  store taskK r.2 { t with process := process }
  assign fun s => { s with current_process := process }
  return (r.1, process)

theorem oneProcess_hosted : ∃ kernel_chunk process kernel_directory directory e k,
    oneProcess freshKernel = some ((kernel_chunk, process), k) ∧
      Hosted k kernel_chunk kernel_directory directory e (identityEntry taskFlags) ∧
      k.current_process = process ∧ k.live process = some (processK.inj {}) ∧
      ∃ t, k.live k.current_task = some (taskK.inj t) ∧ t.process = process := by
  have hone : blocksFor 4096 = 1 := by decide
  have hfresh := freshKernel_freeCount
  obtain ⟨kernel_chunk, task, directory, e, s, hrun, htask⟩ :=
    oneTask_spec freshKernel_wf (bareKernel_clean 25600) (by omega)
  have hwf := htask.call.wf
  have hcount := htask.count
  obtain ⟨process, s1, halloc, hcases⟩ := kzalloc_spec processK 4096 {} hwf
  have hne : process ≠ 0 := by
    intro hnull
    have hfull := (noRoom_one_iff hone).mp ((hcases.null_iff hwf).mp hnull)
    omega
  obtain ⟨hfree, hprocess⟩ := hcases.live hne
  have hcount1 := hcases.freeCount hwf hne
  have hlent := (Lent.refl hwf).alloc hwf hone hcases hne
  have hsince := hlent.since hwf
  obtain ⟨t, ht, hmaps⟩ := htask.call.task
  have ht1 : s1.live task = some (taskK.inj t) := hsince.object _ _ ht
  -- objects other than the task are where they were
  have hkeep : ∀ q o, (∀ t, o ≠ taskK.inj t) → s1.live q = some o →
      taskK.write s1.live task { t with process := process } q = some o := by
    intro q o ho hq
    have hqt : q ≠ task := by
      rintro rfl
      exact ho _ (Option.some.inj (hq.symm.trans ht1))
    exact (Kind.write_of_ne _ _ _ hqt).trans hq
  have hcurrent : s1.current_task = task := by
    rw [hlent.rest]
    exact htask.current
  refine ⟨kernel_chunk, process, s.current_directory, directory, e, { s1 with
    live := taskK.write s1.live task { t with process := process }, current_process := process }, ?_, ?_, rfl,
    hkeep _ _ (fun _ heq => by cases heq) hprocess, { t with process := process }, ?_, rfl⟩
  · rw [oneProcess, bind_of_some hrun, bind_of_some halloc, bind_of_some (load_of_live ht1),
      bind_of_some (store_of_live ht1 _)]
    rfl
  · have hwf1 := hlent.wf.write (k := taskK) ht1 { t with process := process }
    have hclean1 : CleanHeap s1.heap := hlent.clean hwf htask.clean
    refine ⟨⟨hwf1.start, hwf1.total, hwf1.block⟩, hclean1, ?_, ?_, htask.present, ?_, ?_, ?_⟩
    · show 0 < freeCount s1.heap
      omega
    · have hdirectory : Directory { s1 with
          live := taskK.write s1.live task { t with process := process }, current_process := process }
          directory e 1024 (identityEntry taskFlags) := by
        refine ⟨hkeep _ _ (fun _ heq => by cases heq) (hsince.object _ _ hmaps.2.entries), fun i hi => ?_, hmaps.2.inj,
          hmaps.2.ne⟩
        obtain ⟨u, hu, hvalues⟩ := hmaps.2.values i hi
        exact ⟨u, hkeep _ _ (fun _ heq => by cases heq) (hsince.object _ _ hu), hvalues⟩
      refine ⟨{ t with process := process }, ?_, ⟨?_, hdirectory⟩, {}, hkeep _ _ (fun _ heq => by cases heq) hprocess⟩
      · show taskK.write s1.live task { t with process := process } s1.current_task = _
        rw [hcurrent]
        exact Kind.write_self ..
      · exact hkeep _ _ (fun _ heq => by cases heq) (hsince.object _ _ hmaps.1)
    · exact hkeep _ _ (fun _ heq => by cases heq) (hsince.object _ _ htask.kernel.active)
    · refine htask.kernel.identity.congr fun q o ho hq => hkeep q o (fun t heq => ?_) (hsince.object _ _ hq)
      rw [heq] at ho
      cases ho
    · intro _
      exact ⟨{}, hkeep _ _ (fun _ heq => by cases heq) hprocess⟩
  · show taskK.write s1.live task { t with process := process } s1.current_task = _
    rw [hcurrent]
    exact Kind.write_self ..

/-- A kernel that has registered its handlers and runs its program. -/
def runningSystem (k : Kernel) (kernel_chunk directory : UInt32) : System where
  kernel := { k with current_directory := directory }
  terminal := ⟨fun _ => 0, 0, 0, []⟩
  kernel_chunk := kernel_chunk
  chunk_variable := 0x0010C000
  image_end := 0x10D
  stack_begin := 0x5FF
  selectors := 0x23
  interrupt_callbacks := Function.update (fun _ => none) 0x21 (some .qwertyKeyboardHandleInterrupt)
  isr80h_commands := fun n => [Isr80hCommand.sum, .print, .getkey, .putchar][n]?
  ps2 := ⟨0, []⟩
  written := []
  print_buf := 0x5FF000
  behind_scan_set := 0

theorem runningSystem_laidOut (k : Kernel) (kernel_chunk directory : UInt32) :
    LaidOut (runningSystem k kernel_chunk directory) :=
  ⟨(by decide : 0x100 ≤ (0x0010C000 : UInt32).toNat / 4096 ∧ (0x0010C000 : UInt32).toNat / 4096 < 0x10D),
    (by decide : (0x5FF000 : UInt32).toNat + 1024 < 0x01000000)⟩

theorem runningSystem_inProgram {k : Kernel} {kernel_chunk kernel_directory directory : UInt32} {e : Nat → UInt32}
    (h : Hosted k kernel_chunk kernel_directory directory e (identityEntry taskFlags)) :
    InProgram (runningSystem k kernel_chunk directory) kernel_directory directory e (identityEntry taskFlags) :=
  ⟨h.serviced (Serviced.of_directory k directory), rfl, rfl, runningSystem_laidOut k kernel_chunk directory,
    kernelInPlace_identity (by decide) (by decide) h.present.1 0x10D 0x5FF kernel_chunk⟩

/-- A key is pressed and released, the program prints something and asks for the key, and the timer ticks. -/
theorem systemRun_answers_program : ∃ kernel_chunk process directory k s',
    oneProcess freshKernel = some ((kernel_chunk, process), k) ∧
      runFrom systemStep (runningSystem k kernel_chunk directory) [.keys [0x1E, 0], .interrupt .keyboard (programFrame 0),
        .keys [0x9E, 0], .interrupt .keyboard (programFrame 0), .syscall 1 (programFrame 0), .syscall 2 (programFrame 0),
        .interrupt .timer (programFrame 0)] = some s' ∧
      Serviced { k with current_directory := directory } s'.kernel ∧
      s'.written = [(0x20, 0x20), (0x20, 0x20), (0x20, 0x20)] := by
  obtain ⟨kernel_chunk, process, kernel_directory, directory, e, k, hrun, hhosted, -⟩ := oneProcess_hosted
  obtain ⟨s', hevents, -, hdoes, hwritten⟩ := systemRun_answers (runningSystem_inProgram hhosted)
    [.keys [0x1E, 0], .interrupt .keyboard (programFrame 0), .keys [0x9E, 0], .interrupt .keyboard (programFrame 0),
      .syscall 1 (programFrame 0), .syscall 2 (programFrame 0), .interrupt .timer (programFrame 0)]
  exact ⟨kernel_chunk, process, directory, k, s', hrun, hevents, hdoes.kernel, hwritten⟩

end RasOS
