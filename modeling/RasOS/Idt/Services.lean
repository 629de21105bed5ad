import RasOS.Idt.Dispatch
import RasOS.Isr80h.Registration

set_option autoImplicit false

/-! # What a service leaves, exactly

A run says what a service may change. Here is the state it leaves: a system call runs its function
with the registers of the caller saved and comes back, an interrupt without a callback leaves the kernel as it was,
and one of the keyboard pushes the character of the key. -/

namespace RasOS

open Machine

/-- The system inside a handler, with the registers of its caller saved. -/
def System.entered (s : System) (kernel_directory : UInt32) (t : Task) (frame : InterruptFrame) : System :=
  (s.paged 0x10 kernel_directory).saved t frame

section Services

variable {s s' : System} {kernel_directory directory : UInt32} {e m : Nat → UInt32} {t : Task}

theorem InProgram.entered (h : InProgram s kernel_directory directory e m)
    (ht : s.kernel.live s.kernel.current_task = some (taskK.inj t)) (frame : InterruptFrame) :
    InKernel (s.entered kernel_directory t frame) kernel_directory directory e m := by
  have hpaged : Serviced s.kernel (s.paged 0x10 kernel_directory).kernel := Serviced.of_directory s.kernel _
  have hsaved : Serviced (s.paged 0x10 kernel_directory).kernel (s.entered kernel_directory t frame).kernel :=
    Serviced.of_registers (k := (s.paged 0x10 kernel_directory).kernel) ht (savedRegisters frame)
  exact ⟨h.hosted.serviced (serviced_frame.trans hpaged hsaved), rfl, rfl,
    ⟨h.layout.chunk_variable, h.layout.buffer⟩, h.place⟩

/-- The task in the registers of which the frame has been saved. -/
theorem System.entered_task (s : System) (kernel_directory : UInt32) (t : Task) (frame : InterruptFrame) :
    (s.entered kernel_directory t frame).kernel.live (s.entered kernel_directory t frame).kernel.current_task =
      some (taskK.inj { t with registers := savedRegisters frame }) :=
  Kind.write_self ..

/-- In the program, its segments are loaded and its directory is active. -/
theorem InProgram.paged (h : InProgram s kernel_directory directory e m) : s.paged 0x23 directory = s := by
  rw [System.paged, ← h.selectors, ← h.active]

/-! ## System calls -/

/-- **A system call** is its function, run in the kernel. -/
theorem isr80hHandler_run (h : InProgram s kernel_directory directory e m)
    (ht : s.kernel.live s.kernel.current_task = some (taskK.inj t)) {command : Int} {frame : InterruptFrame}
    {res : UInt32} (hanswer : answer (commandOf s.isr80h_commands command) (s.entered kernel_directory t frame) =
      some (res, s')) : isr80hHandler command frame s = some (res, s'.paged 0x23 directory) := by
  have hcommand : isr80hHandleCommand command (s.entered kernel_directory t frame) = some (res, s') :=
    (isr80hHandleCommand_eq _ _).trans hanswer
  obtain ⟨_, s3, hrun, hserved, -⟩ := isr80hHandleCommand_spec command (h.entered ht frame)
  obtain ⟨-, rfl⟩ := Prod.mk.inj (Option.some.inj (hcommand.symm.trans hrun))
  have hpaged : Hosted (s.paged 0x10 kernel_directory).kernel s.kernel_chunk kernel_directory directory e m :=
    h.hosted.serviced (Serviced.of_directory s.kernel _)
  have hsave : taskCurrentSaveState frame (s.paged 0x10 kernel_directory) =
      some ((), s.entered kernel_directory t frame) := taskCurrentSaveState_run hpaged ht frame
  rw [isr80hHandler, bind_of_some h.kernelPage, bind_of_some hsave, bind_of_some hcommand,
    bind_of_some (taskPage_spec hserved.inside.hosted)]
  rfl

/-- Word `index` of the stack of the caller. -/
def callerWord (s : System) (m : Nat → UInt32) (frame : InterruptFrame) (index : Int) : UInt32 :=
  taskWord s.kernel.mem m (frame.esp + UInt32.ofInt (4 * index))

theorem callerWord_spec (h : InProgram s kernel_directory directory e m)
    (ht : s.kernel.live s.kernel.current_task = some (taskK.inj t)) (frame : InterruptFrame) (index : Int) :
    System.taskGetStackItem index (s.entered kernel_directory t frame) =
      some (callerWord s m frame index, s.entered kernel_directory t frame) :=
  stackItem_spec (h.entered ht frame) (s.entered_task kernel_directory t frame) index

/-- The way back from a handler that has done nothing else. -/
theorem InProgram.entered_paged (h : InProgram s kernel_directory directory e m) (frame : InterruptFrame) :
    (s.entered kernel_directory t frame).paged 0x23 directory = s.saved t frame := by
  rw [System.entered, System.saved, System.saved, System.paged, System.paged, ← h.selectors, ← h.active]

/-- A number without a function. -/
theorem isr80hHandler_unknown (h : InProgram s kernel_directory directory e m)
    (ht : s.kernel.live s.kernel.current_task = some (taskK.inj t)) {command : Int} (frame : InterruptFrame)
    (hcommand : commandOf s.isr80h_commands command = none) :
    isr80hHandler command frame s = some (0, s.saved t frame) := by
  rw [← h.entered_paged frame]
  refine isr80hHandler_run h ht ?_
  rw [hcommand]
  rfl

theorem isr80hHandler_sum (h : InProgram s kernel_directory directory e m)
    (ht : s.kernel.live s.kernel.current_task = some (taskK.inj t)) {command : Int} (frame : InterruptFrame)
    (hcommand : commandOf s.isr80h_commands command = some .sum) :
    isr80hHandler command frame s =
      some (callerWord s m frame 0 + callerWord s m frame 1, s.saved t frame) := by
  rw [← h.entered_paged frame]
  refine isr80hHandler_run h ht ?_
  rw [hcommand]
  show isr80hCommand0Sum _ = _
  rw [isr80hCommand0Sum, bind_of_some (callerWord_spec h ht frame 1), bind_of_some (callerWord_spec h ht frame 0)]
  rfl

theorem isr80hHandler_putchar (h : InProgram s kernel_directory directory e m)
    (ht : s.kernel.live s.kernel.current_task = some (taskK.inj t)) {command : Int} (frame : InterruptFrame)
    (hcommand : commandOf s.isr80h_commands command = some .putchar) :
    isr80hHandler command frame s = some (0, { s.saved t frame with
      terminal := terminalDefaultPutchar s.terminal (callerWord s m frame 0).toUInt8 15 }) := by
  have hrun : isr80hCommand3Putchar (s.entered kernel_directory t frame) =
      some (0, { s.entered kernel_directory t frame with
        terminal := terminalDefaultPutchar s.terminal (callerWord s m frame 0).toUInt8 15 }) := by
    rw [isr80hCommand3Putchar, bind_of_some (callerWord_spec h ht frame 0)]
    rfl
  have hleave : isr80hHandler command frame s = some (0, _) := isr80hHandler_run h ht (by rw [hcommand]; exact hrun)
  rw [hleave, ← h.entered_paged frame]
  rfl

/-- A string has been printed. The copy has left its traces in memory. -/
theorem isr80hHandler_print (h : InProgram s kernel_directory directory e m)
    (ht : s.kernel.live s.kernel.current_task = some (taskK.inj t)) {command : Int} (frame : InterruptFrame)
    (hcommand : commandOf s.isr80h_commands command = some .print) :
    ∃ str mem, isr80hHandler command frame s = some (0, { s.saved t frame with
      kernel := { (s.saved t frame).kernel with mem := mem }, terminal := terminalPrint s.terminal str }) := by
  obtain ⟨str, mem, hrun⟩ := isr80hCommand1Print_spec (h.entered ht frame)
  have hleave : isr80hHandler command frame s = some (0, _) := isr80hHandler_run h ht (by rw [hcommand]; exact hrun)
  refine ⟨str, mem, ?_⟩
  rw [hleave, ← h.entered_paged frame]
  rfl

/-- `getkey` is a pop, with the registers of the caller saved. -/
theorem isr80hHandler_getkey (h : InProgram s kernel_directory directory e m)
    (ht : s.kernel.live s.kernel.current_task = some (taskK.inj t)) {command : Int} (frame : InterruptFrame)
    (hcommand : commandOf s.isr80h_commands command = some .getkey) {c : UInt8} {k : Kernel}
    (hpop : keyboardPop (s.entered kernel_directory t frame).kernel = some (c, k)) :
    isr80hHandler command frame s = some (UInt32.ofInt c.toInt8.toInt,
      { s with kernel := { k with current_directory := directory } }) := by
  have hrun : isr80hCommand2Getkey (s.entered kernel_directory t frame) =
      some (UInt32.ofInt c.toInt8.toInt, { s.entered kernel_directory t frame with kernel := k }) := by
    rw [isr80hCommand2Getkey, bind_of_some (onKernel_of_some hpop)]
    rfl
  have hleave : isr80hHandler command frame s = some (_, _) := isr80hHandler_run h ht (by rw [hcommand]; exact hrun)
  rw [hleave, System.paged, ← h.selectors]
  rfl

/-! ## Interrupts -/

/-- An interrupt nobody has asked for. -/
theorem interruptHandler_ignored (h : InProgram s kernel_directory directory e m) {interrupt : Nat}
    (hv : interrupt < RASOS_TOTAL_INTERRUPTS) (frame : InterruptFrame)
    (hcallback : s.interrupt_callbacks interrupt = none) :
    interruptHandler interrupt frame s = some ((), { s with
      written := (MASTER_PIC_COMMAND_AND_STATUS_REG, END_OF_INTERRUPT) :: s.written }) := by
  have hpaged : Hosted (s.paged 0x10 kernel_directory).kernel s.kernel_chunk kernel_directory directory e m :=
    h.hosted.serviced (Serviced.of_directory s.kernel _)
  have htable : (fun s => some (s.interrupt_callbacks, s) : SystemM (Nat → Option InterruptCallback))
      (s.paged 0x10 kernel_directory) = some (s.interrupt_callbacks, s.paged 0x10 kernel_directory) := rfl
  have hcalled : runCallback interrupt frame (s.paged 0x10 kernel_directory) =
      some ((), s.paged 0x10 kernel_directory) := by
    rw [runCallback, if_pos hv, bind_of_some htable, hcallback]
    rfl
  have hback : taskPage (s.paged 0x10 kernel_directory) = some (0, s) := by
    rw [taskPage_spec hpaged]
    exact congrArg (fun s => some (0, s)) h.paged
  rw [interruptHandler, bind_of_some h.kernelPage, bind_of_some hcalled, bind_of_some hback]
  rfl

/-- The character of the key that the keyboard reports, or 0. -/
def keyPressed (s : System) : UInt8 :=
  if s.ps2.read.1 &&& QWERTY_KEYBOARD_KEY_RELEASED ≠ 0 then 0
  else qwertyKeyboardScancodeToChar s.behind_scan_set s.ps2.read.1

theorem keyboardPush_zero (k : Kernel) : keyboardPush 0 k = some ((), k) := by
  unfold keyboardPush
  rw [bind_of_some (fetch_apply _ _)]
  by_cases hnull : k.current_process = 0
  · rw [if_pos hnull]
    rfl
  · rw [if_neg hnull, if_pos rfl]
    rfl

theorem pushTyped_run {c : UInt8} {k : Kernel} (hpush : keyboardPush c s.kernel = some ((), k)) :
    pushTyped c s = some ((), { s with kernel := k }) := by
  unfold pushTyped
  by_cases hc : c = 0
  · rw [hc, keyboardPush_zero] at hpush
    obtain rfl := (Prod.mk.inj (Option.some.inj hpush)).2
    rw [if_neg (not_not.mpr hc)]
    rfl
  · rw [if_pos hc]
    exact onKernel_of_some hpush

/-- **An interrupt of the keyboard** takes two bytes from it and pushes the character of the first. -/
theorem interruptHandler_keyboard (h : InProgram s kernel_directory directory e m)
    (ht : s.kernel.live s.kernel.current_task = some (taskK.inj t)) {interrupt : Nat}
    (hv : interrupt < RASOS_TOTAL_INTERRUPTS) (frame : InterruptFrame)
    (hcallback : s.interrupt_callbacks interrupt = some .qwertyKeyboardHandleInterrupt) {k : Kernel}
    (hpush : keyboardPush (keyPressed s) (s.entered kernel_directory t frame).kernel = some ((), k)) :
    interruptHandler interrupt frame s = some ((), { s with
      kernel := { k with current_directory := directory }, ps2 := s.ps2.read.2.read.2
      written := (MASTER_PIC_COMMAND_AND_STATUS_REG, END_OF_INTERRUPT) :: s.written }) := by
  have hpaged : Hosted (s.paged 0x10 kernel_directory).kernel s.kernel_chunk kernel_directory directory e m :=
    h.hosted.serviced (Serviced.of_directory s.kernel _)
  have hsave : taskCurrentSaveState frame (s.paged 0x10 kernel_directory) =
      some ((), s.entered kernel_directory t frame) := taskCurrentSaveState_run hpaged ht frame
  have htable : (fun s => some (s.interrupt_callbacks, s) : SystemM (Nat → Option InterruptCallback))
      (s.paged 0x10 kernel_directory) = some (s.interrupt_callbacks, s.paged 0x10 kernel_directory) := rfl
  have hinside := h.entered ht frame
  have hkernel : System.kernelPage (s.entered kernel_directory t frame) =
      some ((), s.entered kernel_directory t frame) := hinside.kernelPage
  have hfirst : insbKeyboard (s.entered kernel_directory t frame) = some (s.ps2.read.1,
      { s.entered kernel_directory t frame with ps2 := s.ps2.read.2 }) := rfl
  have hsecond : insbKeyboard { s.entered kernel_directory t frame with ps2 := s.ps2.read.2 } =
      some (s.ps2.read.2.read.1, { s.entered kernel_directory t frame with ps2 := s.ps2.read.2.read.2 }) := rfl
  -- what the callback leaves, which may be on either side
  obtain ⟨s1, hcalled, hhosted, hs1⟩ : ∃ s1, RasOS.qwertyKeyboardHandleInterrupt (s.entered kernel_directory t frame) =
      some ((), s1) ∧ Hosted s1.kernel s1.kernel_chunk kernel_directory directory e m ∧
      s1.paged 0x23 directory = { s with
        kernel := { k with current_directory := directory }, ps2 := s.ps2.read.2.read.2 } := by
    obtain ⟨k', hpush', hserviced, -⟩ := keyboardPush_hosted hinside (keyPressed s)
    obtain rfl := (Prod.mk.inj (Option.some.inj (hpush.symm.trans hpush'))).2
    rw [RasOS.qwertyKeyboardHandleInterrupt, bind_of_some hkernel, bind_of_some hfirst, bind_of_some hsecond]
    by_cases hreleased : s.ps2.read.1 &&& QWERTY_KEYBOARD_KEY_RELEASED ≠ 0
    · rw [keyPressed, if_pos hreleased, keyboardPush_zero] at hpush
      obtain rfl := (Prod.mk.inj (Option.some.inj hpush)).2
      rw [if_pos hreleased]
      refine ⟨{ s.entered kernel_directory t frame with ps2 := s.ps2.read.2.read.2 }, rfl, hinside.hosted, ?_⟩
      rw [System.paged, ← h.selectors]
      rfl
    · rw [keyPressed, if_neg hreleased] at hpush
      have hbehind : (fun s => some (s.behind_scan_set, s) : SystemM UInt8)
          { s.entered kernel_directory t frame with ps2 := s.ps2.read.2.read.2 } = some (s.behind_scan_set,
            { s.entered kernel_directory t frame with ps2 := s.ps2.read.2.read.2 }) := rfl
      have htyped := pushTyped_run (s := { s.entered kernel_directory t frame with ps2 := s.ps2.read.2.read.2 }) hpush
      have hhosted := hinside.hosted.serviced hserviced
      rw [if_neg hreleased, bind_of_some hbehind, bind_of_some htyped]
      refine ⟨_, bind_of_some (taskPage_spec (s := { s.entered kernel_directory t frame with
        ps2 := s.ps2.read.2.read.2, kernel := k }) hhosted), ?_, ?_⟩
      · exact hhosted.serviced (Serviced.of_directory k directory)
      · rw [System.paged, System.paged, ← h.selectors]
        rfl
  have hrun : runCallback interrupt frame (s.paged 0x10 kernel_directory) = some ((), s1) := by
    rw [runCallback, if_pos hv, bind_of_some htable, hcallback]
    exact (bind_of_some hsave).trans hcalled
  rw [interruptHandler, bind_of_some h.kernelPage, bind_of_some hrun,
    bind_of_some (taskPage_spec hhosted), hs1]
  rfl

end Services

end RasOS
