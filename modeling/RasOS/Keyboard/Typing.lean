import RasOS.Idt.Services
import RasOS.Keyboard.Fifo

set_option autoImplicit false

/-! # From the keyboard to `getkey`

A key is pressed, the keyboard interrupts, the handler pushes a character; some time later the program asks for it
with a system call. In between and all the while there are other interrupts and other system calls. The
characters typed but not read yet are a queue, and `getkey` is to return the oldest of them. -/

namespace RasOS

open Machine

/-- The system, the characters typed but not read yet, and how many calls of `getkey` found nothing to read. -/
structure Typing where
  system : System
  unread : List UInt8
  idle : Nat

/-- The character an event types, or 0. -/
def Event.types (s : System) : Event → UInt8
  | .interrupt v _ =>
      if s.interrupt_callbacks v.vector.toNat = some .qwertyKeyboardHandleInterrupt then keyPressed s else 0
  | _ => 0

/-- The program asks for a character. -/
def Event.asks (s : System) : Event → Bool
  | .syscall command _ => commandOf s.isr80h_commands (signed command) = some .getkey
  | _ => false

/-- One event. At most `RASOS_KEYBOARD_BUFFER_SIZE` characters may be unread. -/
def typingStep (st : Typing) (event : Event) : Option Typing :=
  (systemStep st.system event).bind fun s' =>
    if event.asks st.system = true then
      some ⟨s', st.unread.tail, if st.unread = [] then st.idle + 1 else st.idle⟩
    else if event.types st.system = 0 then some ⟨s', st.unread, st.idle⟩
    else if st.unread.length < 1024 then some ⟨s', st.unread ++ [event.types st.system], st.idle⟩
    else none

/-- What `getkey` returns for a character: a `char` is signed. -/
def keyCode (c : UInt8) : UInt32 := UInt32.ofInt c.toInt8.toInt

/-- If the program asked now it would get the oldest unread character, or 0 when there is none. -/
def AnswersOldest (st : Typing) : Prop :=
  ∀ frame, ∃ s', isr80hHandler SYSTEM_COMMAND2_GETKEY frame st.system = some (keyCode (st.unread.headD 0), s')

/-- A character is typed only when the idle calls have taken the head round the whole ring. -/
def TypesInSync (st : Typing) (event : Event) : Prop := event.types st.system ≠ 0 → 1024 ∣ st.idle

/-- The low byte of what `getkey` returns is the character. -/
theorem keyCode_toUInt8 (c : UInt8) : (keyCode c).toUInt8 = c := by
  have hint : c.toInt8.toInt = if 2 * c.toNat < 256 then (c.toNat : Int) else c.toNat - 256 :=
    BitVec.toInt_eq_toNat_cond c.toBitVec
  have hlt := c.toNat_lt
  refine UInt8.toNat_inj.mp ?_
  rw [keyCode, UInt32.toNat_toUInt8, UInt32.ofInt, UInt32.toNat_ofNat', hint]
  split <;> omega

theorem keyCode_injective {c c' : UInt8} (h : keyCode c = keyCode c') : c = c' := by
  rw [← keyCode_toUInt8 c, h, keyCode_toUInt8]

/-! ## The buffer of the foreground process -/

section Attached

variable {k : Kernel} {p t : UInt32} {kb : KeyboardBuffer}

theorem Attached.of_rest (h : Attached k p t kb) (mem : UInt32 → UInt8) (directory : UInt32) :
    Attached { k with mem := mem, current_directory := directory } p t kb :=
  ⟨h.process_ne, h.task_ne, h.current_process, h.current_task, h.task, h.process⟩

/-- Saving registers leaves the buffer alone. -/
theorem Attached.registers (h : Attached k p t kb) {tk : Task} (htk : k.live k.current_task = some (taskK.inj tk))
    (r : Registers) :
    Attached { k with live := taskK.write k.live k.current_task { tk with registers := r } } p t kb := by
  obtain ⟨tk', htk', hprocess⟩ := h.task
  obtain ⟨pr, hpr, hkb⟩ := h.process
  have hcurrent := h.current_task
  subst hcurrent
  obtain rfl := taskK.inj_injective (Option.some.inj (htk.symm.trans htk'))
  have hne : p ≠ k.current_task := by
    rintro rfl
    cases htk.symm.trans hpr
  exact ⟨h.process_ne, h.task_ne, h.current_process, rfl, ⟨{ tk with registers := r }, Kind.write_self .., hprocess⟩,
    ⟨pr, (Kind.write_of_ne _ _ _ hne).trans hpr, hkb⟩⟩

end Attached

section Steps

variable {s : System} {kernel_directory directory : UInt32} {e m : Nat → UInt32} {p t : UInt32} {kb : KeyboardBuffer}

theorem Attached.entered (h : Attached s.kernel p t kb) (kernel_directory : UInt32) {tk : Task}
    (htk : s.kernel.live s.kernel.current_task = some (taskK.inj tk)) (frame : InterruptFrame) :
    Attached (s.entered kernel_directory tk frame).kernel p t kb :=
  (h.of_rest s.kernel.mem kernel_directory).registers htk (savedRegisters frame)

/-- What a system call returns and does to the buffer. -/
theorem isr80hHandler_keys (h : InProgram s kernel_directory directory e m) (hk : Attached s.kernel p t kb)
    (command : Int) (frame : InterruptFrame) :
    ∃ res s', isr80hHandler command frame s = some (res, s') ∧ Attached s'.kernel p t
        (if commandOf s.isr80h_commands command = some .getkey then kb.pop.2 else kb) ∧
      (commandOf s.isr80h_commands command = some .getkey → res = keyCode kb.pop.1) := by
  obtain ⟨tk, htk, -⟩ := h.hosted.task
  have hsaved : Attached (s.saved tk frame).kernel p t kb := hk.registers htk (savedRegisters frame)
  cases hcommand : commandOf s.isr80h_commands command with
  | none => exact ⟨_, _, isr80hHandler_unknown h htk frame hcommand, hsaved, fun hno => by cases hno⟩
  | some command_func =>
      cases command_func with
      | sum => exact ⟨_, _, isr80hHandler_sum h htk frame hcommand, hsaved, fun hno => by cases hno⟩
      | print =>
          obtain ⟨str, mem, hrun⟩ := isr80hHandler_print h htk frame hcommand
          exact ⟨_, _, hrun, hsaved.of_rest mem _, fun hno => by cases hno⟩
      | getkey =>
          obtain ⟨k, hpop, hafter⟩ := keyboardPop_spec (hk.entered kernel_directory htk frame)
          exact ⟨_, _, isr80hHandler_getkey h htk frame hcommand hpop, hafter.of_rest k.mem directory, fun _ => rfl⟩
      | putchar => exact ⟨_, _, isr80hHandler_putchar h htk frame hcommand, hsaved, fun hno => by cases hno⟩

/-- What an interrupt does to the buffer. -/
theorem interruptHandler_keys (h : InProgram s kernel_directory directory e m) (hk : Attached s.kernel p t kb)
    (v : StubVector) (frame : InterruptFrame) :
    ∃ s', interruptHandler v.vector.toNat frame s = some ((), s') ∧ Attached s'.kernel p t
      (if (Event.interrupt v frame).types s = 0 then kb else kb.push ((Event.interrupt v frame).types s)) := by
  obtain ⟨tk, htk, -⟩ := h.hosted.task
  have hv := v.lt
  cases hcallback : s.interrupt_callbacks v.vector.toNat with
  | none =>
      have htypes : (Event.interrupt v frame).types s = 0 := if_neg (by rw [hcallback]; exact (Option.some_ne_none _).symm)
      rw [if_pos htypes]
      exact ⟨_, interruptHandler_ignored h hv frame hcallback, hk⟩
  | some callback =>
      cases callback
      have htypes : (Event.interrupt v frame).types s = keyPressed s := if_pos hcallback
      have hinside := hk.entered kernel_directory htk frame
      rw [htypes]
      by_cases hc : keyPressed s = 0
      · have hpush := keyboardPush_zero (s.entered kernel_directory tk frame).kernel
        rw [← hc] at hpush
        rw [if_pos hc]
        exact ⟨_, interruptHandler_keyboard h htk hv frame hcallback hpush, hinside.of_rest _ directory⟩
      · obtain ⟨k, hpush, hafter⟩ := keyboardPush_spec hinside hc
        rw [if_neg hc]
        exact ⟨_, interruptHandler_keyboard h htk hv frame hcallback hpush, hafter.of_rest _ directory⟩

/-- **One event** and the buffer. -/
theorem systemStep_keys (h : InProgram s kernel_directory directory e m) (hk : Attached s.kernel p t kb)
    (event : Event) : ∃ s', systemStep s event = some s' ∧ InProgram s' kernel_directory directory e m ∧ Does s s' ∧
      Attached s'.kernel p t (if event.asks s = true then kb.pop.2
        else if event.types s = 0 then kb else kb.push (event.types s)) := by
  obtain ⟨s', hstep, hin, hdoes, -⟩ := systemStep_answers h event
  refine ⟨s', hstep, hin, hdoes, ?_⟩
  cases event with
  | program mem =>
      obtain rfl := Option.some.inj hstep
      exact hk.of_rest mem s.kernel.current_directory
  | keys bytes =>
      obtain rfl := Option.some.inj hstep
      exact hk
  | interrupt v frame =>
      obtain ⟨s1, hrun, hkeys⟩ := interruptHandler_keys h hk v frame
      rw [systemStep, hrun] at hstep
      obtain rfl := Option.some.inj hstep
      exact hkeys
  | syscall command frame =>
      obtain ⟨res, s1, hrun, hkeys, -⟩ := isr80hHandler_keys h hk (signed command) frame
      rw [systemStep, hrun] at hstep
      obtain rfl := Option.some.inj hstep
      simpa [Event.asks, Event.types] using hkeys

end Steps

/-! ## Runs -/

/-- The buffer of the program's process holds the unread characters. -/
structure TypingInv (p t kernel_directory directory : UInt32) (e m : Nat → UInt32) (st : Typing) : Prop where
  inside : InProgram st.system kernel_directory directory e m
  getkey : commandOf st.system.isr80h_commands SYSTEM_COMMAND2_GETKEY = some .getkey
  buffer : ∃ kb, Attached st.system.kernel p t kb ∧ RingInv kb st.unread st.idle

section Runs

variable {st st' : Typing} {p t kernel_directory directory : UInt32} {e m : Nat → UInt32} {event : Event}

theorem TypingInv.answers (h : TypingInv p t kernel_directory directory e m st) : AnswersOldest st := by
  intro frame
  obtain ⟨kb, hk, hring⟩ := h.buffer
  obtain ⟨res, s', hrun, -, hres⟩ := isr80hHandler_keys h.inside hk SYSTEM_COMMAND2_GETKEY frame
  rw [hres h.getkey, hring.pop_fst] at hrun
  exact ⟨s', hrun⟩

/-- What a step has done to the queue and to the buffer. -/
theorem typingStep_cases {kb : KeyboardBuffer} (h : InProgram st.system kernel_directory directory e m)
    (hk : Attached st.system.kernel p t kb) (hstep : typingStep st event = some st') :
    InProgram st'.system kernel_directory directory e m ∧ Does st.system st'.system ∧
      (event.asks st.system = true ∧ Attached st'.system.kernel p t kb.pop.2 ∧ st'.unread = st.unread.tail ∧
          st'.idle = (if st.unread = [] then st.idle + 1 else st.idle) ∨
        event.types st.system = 0 ∧ Attached st'.system.kernel p t kb ∧ st'.unread = st.unread ∧
          st'.idle = st.idle ∨
        event.types st.system ≠ 0 ∧ Attached st'.system.kernel p t (kb.push (event.types st.system)) ∧
          st.unread.length < 1024 ∧ st'.unread = st.unread ++ [event.types st.system] ∧ st'.idle = st.idle) := by
  obtain ⟨s', hsystem, hin, hdoes, hkeys⟩ := systemStep_keys h hk event
  rw [typingStep, hsystem, Option.bind_some] at hstep
  by_cases hasks : event.asks st.system = true
  · rw [if_pos hasks] at hstep hkeys
    obtain rfl := Option.some.inj hstep
    exact ⟨hin, hdoes, Or.inl ⟨hasks, hkeys, rfl, rfl⟩⟩
  rw [if_neg hasks] at hstep hkeys
  by_cases htypes : event.types st.system = 0
  · rw [if_pos htypes] at hstep hkeys
    obtain rfl := Option.some.inj hstep
    exact ⟨hin, hdoes, Or.inr (Or.inl ⟨htypes, hkeys, rfl, rfl⟩)⟩
  rw [if_neg htypes] at hstep hkeys
  by_cases hroom : st.unread.length < 1024
  · rw [if_pos hroom] at hstep
    obtain rfl := Option.some.inj hstep
    exact ⟨hin, hdoes, Or.inr (Or.inr ⟨htypes, hkeys, hroom, rfl, rfl⟩)⟩
  · rw [if_neg hroom] at hstep
    cases hstep

theorem asks_types (s : System) (event : Event) (h : event.asks s = true) : event.types s = 0 := by
  cases event with
  | program mem => cases h
  | keys bytes => cases h
  | interrupt v frame => cases h
  | syscall command frame => rfl

theorem Does.commands {s s' : System} (h : Does s s') : s'.isr80h_commands = s.isr80h_commands := by rw [h.rest]

/-- In sync, the invariant is kept. -/
theorem typingStep_good (h : TypingInv p t kernel_directory directory e m st) (hsync : TypesInSync st event)
    (hstep : typingStep st event = some st') : TypingInv p t kernel_directory directory e m st' := by
  obtain ⟨kb, hk, hring⟩ := h.buffer
  obtain ⟨hin, hdoes, hcases⟩ := typingStep_cases h.inside hk hstep
  have hget : commandOf st'.system.isr80h_commands SYSTEM_COMMAND2_GETKEY = some .getkey := by
    rw [hdoes.commands]
    exact h.getkey
  refine ⟨hin, hget, ?_⟩
  rcases hcases with ⟨-, hk', hunread, hidle⟩ | ⟨-, hk', hunread, hidle⟩ | ⟨htypes, hk', hroom, hunread, hidle⟩
  · rw [hunread, hidle]
    exact ⟨_, hk', hring.pop⟩
  · rw [hunread, hidle]
    exact ⟨_, hk', hring⟩
  · rw [hunread, hidle]
    exact ⟨_, hk', hring.push _ hroom (hsync htypes)⟩

/-- Out of sync, the character typed is not the one that is read. -/
theorem typingStep_bad (h : TypingInv p t kernel_directory directory e m st) (hsync : ¬ TypesInSync st event)
    (hstep : typingStep st event = some st') : ¬ AnswersOldest st' := by
  obtain ⟨kb, hk, hring⟩ := h.buffer
  obtain ⟨htypes, hn⟩ : event.types st.system ≠ 0 ∧ ¬ 1024 ∣ st.idle := by
    unfold TypesInSync at hsync
    tauto
  obtain ⟨hin, hdoes, hcases⟩ := typingStep_cases h.inside hk hstep
  rcases hcases with ⟨hasks, -⟩ | ⟨hnone, -⟩ | ⟨-, hk', -, hunread, -⟩
  · exact absurd (asks_types _ _ hasks) htypes
  · exact absurd hnone htypes
  · intro hanswers
    have hget : commandOf st'.system.isr80h_commands SYSTEM_COMMAND2_GETKEY = some .getkey := by
      rw [hdoes.commands]
      exact h.getkey
    obtain ⟨res, s', hrun, -, hres⟩ := isr80hHandler_keys hin hk' SYSTEM_COMMAND2_GETKEY (programFrame 0)
    obtain ⟨s'', holdest⟩ := hanswers (programFrame 0)
    rw [hrun, hres hget, hunread] at holdest
    have hsame := keyCode_injective (Prod.mk.inj (Option.some.inj holdest)).1
    exact hring.push_lost htypes hn hsame

/-- **When typing works.** Whatever else happens in between, interrupts, system calls and the program's own work:
from an empty buffer, `getkey` would return the oldest unread character, or 0 when there is none, at every point
of a run, if and only if whenever a character is typed the number of calls that had found nothing to read is a
multiple of the size of the buffer. -/
theorem typing_fifo_iff {s : System} (h : InProgram s kernel_directory directory e m)
    (hk : Attached s.kernel p t {})
    (hget : commandOf s.isr80h_commands SYSTEM_COMMAND2_GETKEY = some .getkey) (events : List Event) :
    AllStates typingStep AnswersOldest ⟨s, [], 0⟩ events ↔ AllSteps typingStep TypesInSync ⟨s, [], 0⟩ events := by
  have hinv : TypingInv p t kernel_directory directory e m ⟨s, [], 0⟩ := ⟨h, hget, {}, hk, RingInv.zero⟩
  refine allStates_iff_allSteps (fun st event st' hI _ hC hstep => ?_) (fun st event st' hI _ hC hstep => ?_) events _
    hinv hinv.answers
  · have hgood := typingStep_good hI hC hstep
    exact ⟨hgood, hgood.answers⟩
  · exact typingStep_bad hI hC hstep

end Runs

/-- The program asks for a key before one is typed, a key is pressed and released, another one is pressed. -/
theorem typing_fifo_program : ∃ kernel_chunk process directory k,
    oneProcess freshKernel = some ((kernel_chunk, process), k) ∧
      (AllStates typingStep AnswersOldest ⟨runningSystem k kernel_chunk directory, [], 0⟩
          [.syscall 2 (programFrame 0), .keys [0x1E], .interrupt .keyboard (programFrame 0), .keys [0x9E],
            .interrupt .keyboard (programFrame 0), .keys [0x30], .interrupt .keyboard (programFrame 0)] ↔
        AllSteps typingStep TypesInSync ⟨runningSystem k kernel_chunk directory, [], 0⟩
          [.syscall 2 (programFrame 0), .keys [0x1E], .interrupt .keyboard (programFrame 0), .keys [0x9E],
            .interrupt .keyboard (programFrame 0), .keys [0x30], .interrupt .keyboard (programFrame 0)]) := by
  obtain ⟨kernel_chunk, process, kernel_directory, directory, e, k, hrun, hhosted, hattached⟩ := oneProcess_hosted
  have hk : Attached k process k.current_task {} := by
    obtain ⟨hprocess, hlive, t, ht, hback⟩ := hattached
    exact ⟨hhosted.wf.ne_zero hlive, hhosted.wf.ne_zero ht, hprocess, rfl, ⟨t, ht, hback⟩, {}, hlive, rfl⟩
  exact ⟨kernel_chunk, process, directory, k, hrun, typing_fifo_iff (runningSystem_inProgram hhosted)
    (hk.of_rest k.mem directory) rfl _⟩

end RasOS
