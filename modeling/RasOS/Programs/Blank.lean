import RasOS.Keyboard.Backspace
import RasOS.Keyboard.Typing
import RasOS.Programs.UserSpace
import RasOS.Task.Launch

set_option autoImplicit false

/-! # A program that shows what is typed (`programs/blank/blank.asm`)

The `Makefile` beside it builds `blank.c`; this is the program in assembly that stands there, too.

It asks for keys and puts the characters on the screen. A call of `getkey` that finds nothing moves the head of the
buffer on, so that the next character may be stored behind the place that is looked at next. The program goes on
asking, and gets to it in the end. -/

namespace RasOS

open Machine

/-! ## The program -/

/-- `_start` and `_loop` are 0, `getkey` is 6. -/
def blankCode : List Instr := [
  .call 6,
  .pushEax,
  .movEax 3, -- Command putchar
  .int80,
  .addEsp 4,
  .jmp 0,
  .movEax 2, -- Command getkey
  .int80,
  .cmpEax 0x00,
  .je 6,
  .ret]

/-- The frame of an interrupt; `rest` is what the registers hold that the program does not use. -/
def blankFrame (base : UInt32) (rest : InterruptFrame) (r : Regs) : InterruptFrame :=
  { rest with ip := address blankCode base r.pc, esp := r.esp, eax := r.eax }

def blankWorld (base : UInt32) (rest : InterruptFrame) : World System where
  load va := onKernel (userLoad va)
  store va v := onKernel (userStore va v)
  int80 r := isr80hHandler (signed r.eax) (blankFrame base rest r)

/-- The system, the registers of the program and the characters that have been typed. -/
structure Echo where
  system : System
  regs : Regs
  typed : List UInt8

/-- What happens next: an instruction of the program, more bytes from the keyboard, an interrupt. -/
inductive EchoEvent
  | instruction
  | keys (bytes : List UInt8)
  | interrupt (v : StubVector)
  deriving DecidableEq

/-- The character an event types, or 0. -/
def EchoEvent.types (base : UInt32) (rest : InterruptFrame) (st : Echo) : EchoEvent → UInt8
  | .interrupt v => (Event.interrupt v (blankFrame base rest st.regs)).types st.system
  | _ => 0

/-- How many instructions of the program an event is. -/
def EchoEvent.work : EchoEvent → Nat
  | .instruction => 1
  | _ => 0

/-- An interrupt leaves the registers of the program as they are. -/
def echoStep (base : UInt32) (rest : InterruptFrame) (st : Echo) (event : EchoEvent) : Option Echo :=
  match event with
  | .instruction =>
      (programStep (blankWorld base rest) blankCode base st.regs st.system).map fun r => ⟨r.2, r.1, st.typed⟩
  | .keys bytes => (systemStep st.system (.keys bytes)).map fun s => ⟨s, st.regs, st.typed⟩
  | .interrupt v => (systemStep st.system (.interrupt v (blankFrame base rest st.regs))).map fun s =>
      let c := (EchoEvent.interrupt v).types base rest st
      ⟨s, st.regs, if c = 0 then st.typed else st.typed ++ [c]⟩

/-- The cell that a character would be stored in is empty. -/
def TailFree (k : Kernel) : Prop :=
  ∀ p : Process, k.live k.current_process = some (processK.inj p) → p.keyboard.buffer p.keyboard.tail = 0

/-- A character is typed only into an empty cell. -/
def TypesIntoFree (base : UInt32) (rest : InterruptFrame) (st : Echo) (event : EchoEvent) : Prop :=
  event.types base rest st ≠ 0 → TailFree st.system.kernel

/-! ## The characters in the buffer -/

/-- A character that is there, or none. -/
def chars (c : UInt8) : Multiset UInt8 := if c = 0 then 0 else {c}

/-- What is in the buffer, wherever. -/
def waiting (kb : KeyboardBuffer) : Multiset UInt8 := ∑ i ∈ Finset.range 1024, chars (kb.cell i)

/-- Writing a cell. -/
theorem sum_update_cell (f : Nat → UInt8) {j : Nat} (hj : j < 1024) (c : UInt8) :
    (∑ i ∈ Finset.range 1024, chars (Function.update f j c i)) + chars (f j) =
      (∑ i ∈ Finset.range 1024, chars (f i)) + chars c := by
  have hmem : j ∈ Finset.range 1024 := Finset.mem_range.mpr hj
  have hcomp : (fun i => chars (Function.update f j c i)) = Function.update (fun i => chars (f i)) j (chars c) := by
    funext i
    by_cases h : i = j
    · rw [h, Function.update_self, Function.update_self]
    · rw [Function.update_of_ne h, Function.update_of_ne h]
  rw [hcomp, Finset.sum_update_of_mem hmem, Finset.sum_eq_add_sum_sdiff_singleton_of_mem hmem (fun i => chars (f i))]
  abel

theorem waiting_push {kb : KeyboardBuffer} (h : IndexesValid kb) {c : UInt8} (hfree : kb.buffer kb.tail = 0) :
    waiting (kb.push c) = waiting kb + chars c := by
  obtain ⟨hlow, hhigh⟩ := h.tail
  have htail : kb.tail = kb.tail.toNat := (Int.toNat_of_nonneg hlow).symm
  have hlt : kb.tail.toNat < 1024 := by
    rw [RASOS_KEYBOARD_BUFFER_SIZE] at hhigh
    omega
  have hcell : (kb.push c).cell = Function.update kb.cell kb.tail.toNat c := by
    show (fun i : Nat => Function.update kb.buffer kb.tail c i) = _
    rw [htail, update_cells]
    rfl
  have hzero : kb.cell kb.tail.toNat = 0 := by
    rw [htail] at hfree
    exact hfree
  have hsum := sum_update_cell kb.cell hlt c
  rw [hzero, show chars 0 = 0 from rfl, add_zero, ← hcell] at hsum
  exact hsum

theorem waiting_pop {kb : KeyboardBuffer} (h : IndexesValid kb) :
    waiting kb = waiting kb.pop.2 + chars kb.pop.1 := by
  obtain ⟨hlow, hhigh⟩ := h.head
  have hhead : kb.head = kb.head.toNat := (Int.toNat_of_nonneg hlow).symm
  have hlt : kb.head.toNat < 1024 := by
    rw [RASOS_KEYBOARD_BUFFER_SIZE] at hhigh
    omega
  have hfirst : kb.pop.1 = kb.cell kb.head.toNat := by
    show kb.buffer kb.head = kb.buffer kb.head.toNat
    rw [← hhead]
  have hsum := sum_update_cell kb.cell hlt 0
  rw [show chars 0 = 0 from rfl, add_zero, ← pop_cell hhead, ← hfirst] at hsum
  exact hsum.symm

/-! ## How long a character waits -/

/-- From offset `d` behind the head on the buffer is empty. -/
def Cleared (kb : KeyboardBuffer) (d : Nat) : Prop :=
  ∀ i, d ≤ i → i < 1024 → kb.cell ((kb.head.toNat + i) % 1024) = 0

theorem cleared_all (kb : KeyboardBuffer) : Cleared kb 1024 := fun _ hd hi => absurd hi (not_lt.mpr hd)

/-- A pop empties the cell at the head, and goes on. -/
theorem Cleared.pop {kb : KeyboardBuffer} (hvalid : IndexesValid kb) {d : Nat} (h : Cleared kb (d + 1)) :
    Cleared kb.pop.2 d := by
  obtain ⟨hlow, hhigh⟩ := hvalid.head
  have hhead : kb.head = kb.head.toNat := (Int.toNat_of_nonneg hlow).symm
  have hlt : kb.head.toNat < 1024 := by
    rw [RASOS_KEYBOARD_BUFFER_SIZE] at hhigh
    omega
  have hnext : kb.pop.2.head.toNat = (kb.head.toNat + 1) % 1024 := by
    rw [pop_head hhead hlt]
    rfl
  intro i hd hi
  rw [hnext, Nat.mod_add_mod, show kb.head.toNat + 1 + i = kb.head.toNat + (i + 1) by omega, pop_cell hhead]
  by_cases hlast : i + 1 = 1024
  · rw [hlast, Nat.add_mod_right, Nat.mod_eq_of_lt hlt, Function.update_self]
  · rw [Function.update_of_ne (ring_offset_ne hlt (by omega))]
    exact h (i + 1) (by omega) (by omega)

/-- An empty buffer stays one, and nothing comes out of it. -/
theorem cleared_zero {kb : KeyboardBuffer} (hvalid : IndexesValid kb) :
    Cleared kb 0 ↔ ∀ i < 1024, kb.cell i = 0 := by
  obtain ⟨hlow, hhigh⟩ := hvalid.head
  have hlt : kb.head.toNat < 1024 := by
    rw [RASOS_KEYBOARD_BUFFER_SIZE] at hhigh
    omega
  constructor
  · intro h i hi
    obtain ⟨j, hj, rfl⟩ := ring_offset_surj hlt hi
    exact h j (Nat.zero_le j) hj
  · exact fun h i _ _ => h _ (Nat.mod_lt _ (by decide))

theorem Cleared.waiting {kb : KeyboardBuffer} (hvalid : IndexesValid kb) (h : Cleared kb 0) : waiting kb = 0 := by
  refine Finset.sum_eq_zero fun i hi => ?_
  rw [(cleared_zero hvalid).mp h i (Finset.mem_range.mp hi)]
  rfl

theorem Cleared.pop_fst {kb : KeyboardBuffer} (hvalid : IndexesValid kb) (h : Cleared kb 0) : kb.pop.1 = 0 := by
  obtain ⟨hlow, hhigh⟩ := hvalid.head
  have hhead : kb.head = kb.head.toNat := (Int.toNat_of_nonneg hlow).symm
  rw [RASOS_KEYBOARD_BUFFER_SIZE] at hhigh
  have hcell := (cleared_zero hvalid).mp h kb.head.toNat (by omega)
  show kb.buffer kb.head = 0
  rw [hhead]
  exact hcell

/-! ## The state of the program -/

/-- Where the program is: its registers, the word it has on its stack, the character it holds, and how many
instructions it is from the next system call for a key. -/
inductive At (base E : UInt32) : Regs → UInt32 → Multiset UInt8 → Nat → Prop
  | call (eax : UInt32) (zf : Bool) (w : UInt32) : At base E ⟨0, eax, E, zf⟩ w 0 2
  | pushEax (c : UInt8) (hc : c ≠ 0) (zf : Bool) (w : UInt32) : At base E ⟨1, keyCode c, E, zf⟩ w (chars c) 7
  | movPutchar (c : UInt8) (hc : c ≠ 0) (eax : UInt32) (zf : Bool) :
      At base E ⟨2, eax, E - 4, zf⟩ (keyCode c) (chars c) 6
  | intPutchar (c : UInt8) (hc : c ≠ 0) (zf : Bool) : At base E ⟨3, 3, E - 4, zf⟩ (keyCode c) (chars c) 5
  | addEsp (eax : UInt32) (zf : Bool) (w : UInt32) : At base E ⟨4, eax, E - 4, zf⟩ w 0 4
  | jmp (eax : UInt32) (zf : Bool) (w : UInt32) : At base E ⟨5, eax, E, zf⟩ w 0 3
  | movGetkey (eax : UInt32) (zf : Bool) : At base E ⟨6, eax, E - 4, zf⟩ (address blankCode base 1) 0 1
  | intGetkey (zf : Bool) : At base E ⟨7, 2, E - 4, zf⟩ (address blankCode base 1) 0 0
  | cmpEax (c : UInt8) (zf : Bool) : At base E ⟨8, keyCode c, E - 4, zf⟩ (address blankCode base 1) (chars c) 10
  | je (c : UInt8) : At base E ⟨9, keyCode c, E - 4, decide (keyCode c = 0)⟩ (address blankCode base 1) (chars c) 9
  | ret (c : UInt8) (hc : c ≠ 0) (zf : Bool) :
      At base E ⟨10, keyCode c, E - 4, zf⟩ (address blankCode base 1) (chars c) 8

theorem At.phase_le {base E : UInt32} {r : Regs} {w : UInt32} {held : Multiset UInt8} {phase : Nat}
    (h : At base E r w held phase) : phase ≤ 10 := by
  cases h <;> omega

/-- All that has been typed is on the screen, in the hands of the program, or in the buffer. -/
structure EchoInv (p t kernel_directory directory : UInt32) (e m : Nat → UInt32) (base E : UInt32) (t0 : Terminal)
    (st : Echo) (kb : KeyboardBuffer) (echoed : List UInt8) (held : Multiset UInt8) (phase : Nat) : Prop where
  inside : InProgram st.system kernel_directory directory e m
  attached : Attached st.system.kernel p t kb
  indexes : IndexesValid kb
  getkey : commandOf st.system.isr80h_commands SYSTEM_COMMAND2_GETKEY = some .getkey
  putchar : commandOf st.system.isr80h_commands SYSTEM_COMMAND3_PUTCHAR = some .putchar
  word : UserWord e m (E - 4)
  place : At base E st.regs (taskWord st.system.kernel.mem m (E - 4)) held phase
  screen : st.system.terminal = terminalPrint t0 echoed
  balance : (st.typed : Multiset UInt8) = echoed + held + waiting kb

/-- In less than `n` instructions all that has been typed is on the screen. -/
def Due (kb : KeyboardBuffer) (held : Multiset UInt8) (phase n : Nat) : Prop :=
  Cleared kb 0 ∧ held = 0 ∨ ∃ d, Cleared kb d ∧ 11 * d + phase < n

theorem due_move {kb : KeyboardBuffer} {held held' : Multiset UInt8} {phase phase' n : Nat}
    (hheld : held = 0 → held' = 0) (hphase : phase' < phase) (h : Due kb held phase (n + 1)) :
    Due kb held' phase' n := by
  rcases h with ⟨hcleared, hnone⟩ | ⟨d, hcleared, hlt⟩
  · exact Or.inl ⟨hcleared, hheld hnone⟩
  · exact Or.inr ⟨d, hcleared, by omega⟩

theorem due_pop {kb : KeyboardBuffer} (hvalid : IndexesValid kb) {n : Nat} (h : Due kb 0 0 (n + 1)) :
    Due kb.pop.2 (chars kb.pop.1) 10 n := by
  have hdone : Cleared kb 0 → Due kb.pop.2 (chars kb.pop.1) 10 n := by
    intro hcleared
    have hmore : Cleared kb (0 + 1) := fun i _ hi => hcleared i (Nat.zero_le i) hi
    rw [hcleared.pop_fst hvalid]
    exact Or.inl ⟨hmore.pop hvalid, rfl⟩
  rcases h with ⟨hcleared, -⟩ | ⟨d, hcleared, hlt⟩
  · exact hdone hcleared
  · cases d with
    | zero => exact hdone hcleared
    | succ d => exact Or.inr ⟨d, hcleared.pop hvalid, by omega⟩

/-! ## System calls and interrupts -/

section Services

variable {s : System} {kernel_directory directory : UInt32} {e m : Nat → UInt32} {p t : UInt32} {kb : KeyboardBuffer}

theorem getkey_step (h : InProgram s kernel_directory directory e m) (hk : Attached s.kernel p t kb)
    (hcommand : commandOf s.isr80h_commands SYSTEM_COMMAND2_GETKEY = some .getkey) (frame : InterruptFrame) :
    ∃ s', isr80hHandler SYSTEM_COMMAND2_GETKEY frame s = some (keyCode kb.pop.1, s') ∧
      InProgram s' kernel_directory directory e m ∧ Does s s' ∧ Attached s'.kernel p t kb.pop.2 ∧
      s'.kernel.mem = s.kernel.mem ∧ s'.terminal = s.terminal := by
  obtain ⟨tk, htk, -⟩ := h.hosted.task
  obtain ⟨k, hpop, hafter⟩ := keyboardPop_spec (hk.entered kernel_directory htk frame)
  obtain ⟨c, k', hpop', -, hrest⟩ := keyboardPop_hosted (h.entered htk frame)
  obtain ⟨-, rfl⟩ := Prod.mk.inj (Option.some.inj (hpop.symm.trans hpop'))
  have hrun := isr80hHandler_getkey h htk frame hcommand hpop
  obtain ⟨res, s', hrun', hin, hdoes, -⟩ := isr80hHandler_spec SYSTEM_COMMAND2_GETKEY frame h
  obtain ⟨-, rfl⟩ := Prod.mk.inj (Option.some.inj (hrun.symm.trans hrun'))
  refine ⟨_, hrun, hin, hdoes, hafter.of_rest k.mem directory, ?_, rfl⟩
  show k.mem = s.kernel.mem
  rw [hrest]
  rfl

theorem putchar_step (h : InProgram s kernel_directory directory e m) (hk : Attached s.kernel p t kb)
    (hcommand : commandOf s.isr80h_commands SYSTEM_COMMAND3_PUTCHAR = some .putchar) (frame : InterruptFrame) :
    ∃ s', isr80hHandler SYSTEM_COMMAND3_PUTCHAR frame s = some (0, s') ∧
      InProgram s' kernel_directory directory e m ∧ Does s s' ∧ Attached s'.kernel p t kb ∧
      s'.kernel.mem = s.kernel.mem ∧
      s'.terminal = terminalDefaultPutchar s.terminal (taskWord s.kernel.mem m frame.esp).toUInt8 15 := by
  obtain ⟨tk, htk, -⟩ := h.hosted.task
  have hrun := isr80hHandler_putchar h htk frame hcommand
  obtain ⟨res, s', hrun', hin, hdoes, -⟩ := isr80hHandler_spec SYSTEM_COMMAND3_PUTCHAR frame h
  obtain ⟨-, rfl⟩ := Prod.mk.inj (Option.some.inj (hrun.symm.trans hrun'))
  have hword : callerWord s m frame 0 = taskWord s.kernel.mem m frame.esp := by
    rw [callerWord, show frame.esp + UInt32.ofInt (4 * 0) = frame.esp from UInt32.add_zero _]
  rw [hword] at hrun hin hdoes
  exact ⟨_, hrun, hin, hdoes, hk.registers htk (savedRegisters frame), rfl, rfl⟩

theorem interrupt_step (h : InProgram s kernel_directory directory e m) (hk : Attached s.kernel p t kb) (v : StubVector)
    (frame : InterruptFrame) :
    ∃ s', systemStep s (.interrupt v frame) = some s' ∧ InProgram s' kernel_directory directory e m ∧ Does s s' ∧
      s'.kernel.mem = s.kernel.mem ∧ s'.terminal = s.terminal ∧ Attached s'.kernel p t
        (if (Event.interrupt v frame).types s = 0 then kb else kb.push ((Event.interrupt v frame).types s)) := by
  obtain ⟨tk, htk, -⟩ := h.hosted.task
  have hv := v.lt
  obtain ⟨s1, hrun, hkeys⟩ := interruptHandler_keys h hk v frame
  obtain ⟨_, s', hrun', hin, hdoes, hterminal, -⟩ := interruptHandler_spec hv frame h
  obtain ⟨-, rfl⟩ := Prod.mk.inj (Option.some.inj (hrun.symm.trans hrun'))
  refine ⟨s1, by rw [systemStep, hrun]; rfl, hin, hdoes, ?_, hterminal, hkeys⟩
  cases hcallback : s.interrupt_callbacks v.vector.toNat with
  | none =>
      obtain ⟨-, rfl⟩ := Prod.mk.inj (Option.some.inj (hrun.symm.trans (interruptHandler_ignored h hv frame hcallback)))
      rfl
  | some callback =>
      cases callback
      obtain ⟨k, hpush, -, hrest⟩ := keyboardPush_hosted (h.entered htk frame) (keyPressed s)
      have hkeyboard := interruptHandler_keyboard h htk hv frame hcallback hpush
      obtain ⟨-, rfl⟩ := Prod.mk.inj (Option.some.inj (hrun.symm.trans hkeyboard))
      show k.mem = s.kernel.mem
      rw [hrest]
      rfl

/-- The program stores a word. -/
theorem InProgram.of_mem (h : InProgram s kernel_directory directory e m) (mem : UInt32 → UInt8) :
    InProgram { s with kernel := { s.kernel with mem := mem } } kernel_directory directory e m :=
  ⟨h.hosted.serviced (Serviced.of_mem s.kernel mem), h.active, h.selectors, ⟨h.layout.chunk_variable, h.layout.buffer⟩,
    h.place⟩

end Services

/-! ## One instruction -/

section Instruction

variable {p t kernel_directory directory : UInt32} {e m : Nat → UInt32} {base E : UInt32} {t0 : Terminal}
  {rest : InterruptFrame} {st : Echo} {kb : KeyboardBuffer} {echoed : List UInt8} {held : Multiset UInt8} {phase : Nat}

/-- What an event leaves: the same relation, and, unless a character has been typed, the program has not been set
back on its way. -/
def Goes (p t kernel_directory directory : UInt32) (e m : Nat → UInt32) (base E : UInt32) (t0 : Terminal)
    (rest : InterruptFrame) (st : Echo) (kb : KeyboardBuffer) (held : Multiset UInt8) (phase : Nat)
    (event : EchoEvent) : Prop :=
  ∃ st' kb' echoed' held' phase', echoStep base rest st event = some st' ∧
    EchoInv p t kernel_directory directory e m base E t0 st' kb' echoed' held' phase' ∧
    (event.types base rest st = 0 → ∀ n, Due kb held phase (n + event.work) → Due kb' held' phase' n)

theorem echoStep_instruction {i : Instr} {r : Regs} {s : System} (hcode : blankCode[st.regs.pc]? = some i)
    (hexec : exec (blankWorld base rest) blankCode base st.regs i st.system = some (r, s)) :
    echoStep base rest st .instruction = some ⟨s, r, st.typed⟩ := by
  rw [echoStep, programStep_of_fetch hcode, hexec]
  rfl

/-- An instruction that only works on registers. -/
theorem EchoInv.move (h : EchoInv p t kernel_directory directory e m base E t0 st kb echoed held phase) {i : Instr}
    {r : Regs} {phase' : Nat} (hcode : blankCode[st.regs.pc]? = some i)
    (hexec : exec (blankWorld base rest) blankCode base st.regs i st.system = some (r, st.system))
    (hplace : At base E r (taskWord st.system.kernel.mem m (E - 4)) held phase') (hphase : phase' < phase) :
    Goes p t kernel_directory directory e m base E t0 rest st kb held phase .instruction :=
  ⟨⟨st.system, r, st.typed⟩, kb, echoed, held, phase', echoStep_instruction hcode hexec,
    ⟨h.inside, h.attached, h.indexes, h.getkey, h.putchar, h.word, hplace, h.screen, h.balance⟩,
    fun _ _ hdue => due_move id hphase hdue⟩

/-- An instruction that pushes a word. -/
theorem EchoInv.push (h : EchoInv p t kernel_directory directory e m base E t0 st kb echoed held phase) {i : Instr}
    {r : Regs} {v : UInt32} {phase' : Nat} (hcode : blankCode[st.regs.pc]? = some i)
    (hexec : exec (blankWorld base rest) blankCode base st.regs i =
      (onKernel (userStore (E - 4) v) >>= fun _ => Pure.pure r))
    (hplace : At base E r v held phase') (hphase : phase' < phase) :
    Goes p t kernel_directory directory e m base E t0 rest st kb held phase .instruction := by
  have hstore := onKernel_of_some (h.word.store h.inside.tables v)
  have hrun : exec (blankWorld base rest) blankCode base st.regs i st.system = some (r, { st.system with
      kernel := { st.system.kernel with mem := withWord st.system.kernel.mem m (E - 4) v } }) := by
    rw [hexec, bind_of_some hstore]
    rfl
  have hword := h.word.taskWord_withWord st.system.kernel.mem v
  refine ⟨_, kb, echoed, held, phase', echoStep_instruction hcode hrun, ⟨h.inside.of_mem _,
    h.attached.of_rest _ st.system.kernel.current_directory, h.indexes, h.getkey, h.putchar, h.word, ?_, h.screen,
    h.balance⟩, fun _ _ hdue => due_move id hphase hdue⟩
  show At base E r (taskWord (withWord st.system.kernel.mem m (E - 4) v) m (E - 4)) held phase'
  rw [hword]
  exact hplace

/-- The system call for a key. -/
theorem EchoInv.askKey {zf : Bool} (h : EchoInv p t kernel_directory directory e m base E t0 st kb echoed held phase)
    (hregs : st.regs = ⟨7, 2, E - 4, zf⟩) (hheld : held = 0) (hphase : phase = 0)
    (hword : taskWord st.system.kernel.mem m (E - 4) = address blankCode base 1) :
    Goes p t kernel_directory directory e m base E t0 rest st kb held phase .instruction := by
  obtain ⟨s', hrun, hin, hdoes, hkeys, hmem, hterminal⟩ := getkey_step h.inside h.attached h.getkey
    (blankFrame base rest ⟨8, 2, E - 4, zf⟩)
  have hsigned : signed 2 = SYSTEM_COMMAND2_GETKEY := by decide
  have hexec : exec (blankWorld base rest) blankCode base st.regs .int80 st.system =
      some (⟨8, keyCode kb.pop.1, E - 4, zf⟩, s') := by
    rw [hregs]
    show (isr80hHandler (signed 2) _ >>= _) st.system = _
    rw [hsigned, bind_of_some hrun]
    rfl
  have hcode : blankCode[st.regs.pc]? = some .int80 := by
    rw [hregs]
    rfl
  refine ⟨_, kb.pop.2, echoed, chars kb.pop.1, 10, echoStep_instruction hcode hexec, ⟨hin, hkeys, h.indexes.next .pop,
    ?_, ?_, h.word, ?_, hterminal.trans h.screen, ?_⟩, fun _ n hdue => ?_⟩
  · rw [hdoes.commands]
    exact h.getkey
  · rw [hdoes.commands]
    exact h.putchar
  · dsimp only
    rw [hmem, hword]
    exact At.cmpEax _ zf
  -- the character moves from the buffer into `eax`
  · have hbalance := h.balance
    rw [hheld, add_zero, waiting_pop h.indexes] at hbalance
    rw [hbalance]
    abel
  · rw [hheld, hphase] at hdue
    exact due_pop h.indexes hdue

/-- The system call for a character on the screen. -/
theorem EchoInv.showChar {zf : Bool} {c : UInt8} (hc : c ≠ 0)
    (h : EchoInv p t kernel_directory directory e m base E t0 st kb echoed held phase)
    (hregs : st.regs = ⟨3, 3, E - 4, zf⟩) (hheld : held = chars c) (hphase : 4 < phase)
    (hword : taskWord st.system.kernel.mem m (E - 4) = keyCode c) :
    Goes p t kernel_directory directory e m base E t0 rest st kb held phase .instruction := by
  obtain ⟨s', hrun, hin, hdoes, hkeys, hmem, hterminal⟩ := putchar_step h.inside h.attached h.putchar
    (blankFrame base rest ⟨4, 3, E - 4, zf⟩)
  have hsigned : signed 3 = SYSTEM_COMMAND3_PUTCHAR := by decide
  have hexec : exec (blankWorld base rest) blankCode base st.regs .int80 st.system =
      some (⟨4, 0, E - 4, zf⟩, s') := by
    rw [hregs]
    show (isr80hHandler (signed 3) _ >>= _) st.system = _
    rw [hsigned, bind_of_some hrun]
    rfl
  have hcode : blankCode[st.regs.pc]? = some .int80 := by
    rw [hregs]
    rfl
  refine ⟨_, kb, echoed ++ [c], 0, 4, echoStep_instruction hcode hexec, ⟨hin, hkeys, h.indexes, ?_, ?_, h.word,
    At.addEsp 0 zf _, ?_, ?_⟩, fun _ n hdue => due_move (fun _ => rfl) hphase hdue⟩
  · rw [hdoes.commands]
    exact h.getkey
  · rw [hdoes.commands]
    exact h.putchar
  · have hchar : (taskWord st.system.kernel.mem m (E - 4)).toUInt8 = c := by
      rw [hword, keyCode_toUInt8]
    have hnext : terminalPrint t0 (echoed ++ [c]) = terminalDefaultPutchar (terminalPrint t0 echoed) c 15 :=
      List.foldl_append
    rw [hnext, ← h.screen, ← hchar]
    exact hterminal
  -- and from there to the screen
  · have hbalance := h.balance
    rw [hheld, chars, if_neg hc] at hbalance
    rw [hbalance, add_zero, ← Multiset.coe_add, Multiset.coe_singleton]

/-- **The next instruction**, wherever the program is. -/
theorem EchoInv.instruction (rest : InterruptFrame)
    (h : EchoInv p t kernel_directory directory e m base E t0 st kb echoed held phase) :
    Goes p t kernel_directory directory e m base E t0 rest st kb held phase .instruction := by
  obtain ⟨system, regs, typed⟩ := st
  have hesp : E - 4 + 4 = E := UInt32.sub_add_cancel E 4
  have hplace := h.place
  dsimp only at hplace
  generalize hw : taskWord system.kernel.mem m (E - 4) = w at hplace
  cases hplace with
  | call eax zf w => exact h.push rfl rfl (At.movGetkey eax zf) (by decide)
  | pushEax c hc zf w => exact h.push rfl rfl (At.movPutchar c hc (keyCode c) zf) (by decide)
  | movPutchar c hc eax zf => exact h.move rfl rfl (hw ▸ At.intPutchar c hc zf) (by decide)
  | intPutchar c hc zf => exact h.showChar hc rfl rfl (by decide) hw
  | addEsp eax zf w =>
      refine h.move (r := ⟨5, eax, E - 4 + 4, decide (E - 4 + 4 = 0)⟩) rfl rfl ?_ (by decide : 3 < 4)
      rw [hesp]
      exact At.jmp eax _ _
  | jmp eax zf w => exact h.move rfl rfl (At.call eax zf _) (by decide)
  | movGetkey eax zf => exact h.move rfl rfl (hw ▸ At.intGetkey zf) (by decide)
  | intGetkey zf => exact h.askKey rfl rfl rfl hw
  | cmpEax c zf => exact h.move rfl rfl (hw ▸ At.je c) (by decide)
  | je c =>
      by_cases hc : c = 0
      -- an empty buffer: the program asks again
      · subst hc
        exact h.move rfl rfl (hw ▸ At.movGetkey (keyCode 0) _) (by decide)
      · have hcode : ¬ keyCode c = 0 := fun heq => hc (keyCode_injective heq)
        have hexec : exec (blankWorld base rest) blankCode base ⟨9, keyCode c, E - 4, decide (keyCode c = 0)⟩ (.je 6)
            system = some (⟨10, keyCode c, E - 4, decide (keyCode c = 0)⟩, system) := by
          rw [exec, decide_eq_false hcode]
          rfl
        exact h.move rfl hexec (hw ▸ At.ret c hc _) (by decide)
  | ret c hc zf =>
      have hload := onKernel_of_some (h.word.load h.inside.tables)
      have hfound : instrAt blankCode base (address blankCode base 1) = some 1 :=
        instrAt_address base (by decide) (by decide)
      have hexec : exec (blankWorld base rest) blankCode base ⟨10, keyCode c, E - 4, zf⟩ .ret system =
          some (⟨1, keyCode c, E, zf⟩, system) := by
        show (onKernel (userLoad (E - 4)) >>= _) system = _
        rw [bind_of_some hload]
        dsimp only
        rw [hw, hfound]
        dsimp only
        rw [hesp]
        rfl
      exact h.move rfl hexec (At.pushEax c hc zf _) (by decide)

end Instruction

/-! ## Runs -/

section Runs

variable {p t kernel_directory directory : UInt32} {e m : Nat → UInt32} {base E : UInt32} {t0 : Terminal}
  {rest : InterruptFrame}

/-- An interrupt puts at most one character into the buffer, where there was none. -/
theorem EchoInv.interrupted {st : Echo} {kb : KeyboardBuffer} {echoed : List UInt8} {held : Multiset UInt8}
    {phase : Nat} (h : EchoInv p t kernel_directory directory e m base E t0 st kb echoed held phase) (v : StubVector)
    (hfree : ∀ st', echoStep base rest st (.interrupt v) = some st' → TypesIntoFree base rest st (.interrupt v)) :
    Goes p t kernel_directory directory e m base E t0 rest st kb held phase (.interrupt v) := by
  obtain ⟨s', hrun, hin, hdoes, hmem, hterminal, hkeys⟩ :=
    interrupt_step h.inside h.attached v (blankFrame base rest st.regs)
  have hgetkey : commandOf s'.isr80h_commands SYSTEM_COMMAND2_GETKEY = some .getkey := by
    rw [hdoes.commands]
    exact h.getkey
  have hputchar : commandOf s'.isr80h_commands SYSTEM_COMMAND3_PUTCHAR = some .putchar := by
    rw [hdoes.commands]
    exact h.putchar
  have hplace : At base E st.regs (taskWord s'.kernel.mem m (E - 4)) held phase := by
    rw [hmem]
    exact h.place
  have hscreen := hterminal.trans h.screen
  have hstep : echoStep base rest st (.interrupt v) = some ⟨s', st.regs,
      if (EchoEvent.interrupt v).types base rest st = 0 then st.typed
      else st.typed ++ [(EchoEvent.interrupt v).types base rest st]⟩ := by
    rw [echoStep, hrun]
    rfl
  have hsame : (Event.interrupt v (blankFrame base rest st.regs)).types st.system =
      (EchoEvent.interrupt v).types base rest st := rfl
  rw [hsame] at hkeys
  by_cases hnone : (EchoEvent.interrupt v).types base rest st = 0
  · rw [if_pos hnone] at hstep hkeys
    exact ⟨_, kb, echoed, held, phase, hstep, ⟨hin, hkeys, h.indexes, hgetkey, hputchar, h.word, hplace, hscreen,
      h.balance⟩, fun _ _ hdue => hdue⟩
  · -- the cell at the tail is empty, and the character is what it holds now
    obtain ⟨pr, hpr, hkb⟩ := h.attached.process
    have hempty : kb.buffer kb.tail = 0 := by
      rw [← hkb]
      exact hfree _ hstep hnone pr (h.attached.current_process ▸ hpr)
    rw [if_neg hnone] at hstep hkeys
    have hset : (EchoEvent.interrupt v).types base rest st = 0 → ∀ n,
        Due kb held phase (n + (EchoEvent.interrupt v).work) →
          Due (kb.push ((EchoEvent.interrupt v).types base rest st)) held phase n := fun hzero => absurd hzero hnone
    generalize hc : (EchoEvent.interrupt v).types base rest st = c at hstep hkeys hnone hset
    have hindexes : IndexesValid (kb.push c) := by
      have hnext := h.indexes.next (.push c)
      rw [KeyCall.next, if_neg hnone] at hnext
      exact hnext
    refine ⟨_, kb.push c, echoed, held, phase, hstep, ⟨hin, hkeys, hindexes, hgetkey, hputchar, h.word, hplace,
      hscreen, ?_⟩, fun hzero => hset (hc ▸ hzero)⟩
    have hbalance := h.balance
    dsimp only
    rw [← Multiset.coe_add, hbalance, waiting_push h.indexes hempty, chars, if_neg hnone, Multiset.coe_singleton]
    abel

/-- **The next event**, whatever it is. -/
theorem EchoInv.goes {st : Echo} {kb : KeyboardBuffer} {echoed : List UInt8} {held : Multiset UInt8} {phase : Nat}
    (h : EchoInv p t kernel_directory directory e m base E t0 st kb echoed held phase) (event : EchoEvent)
    (hfree : ∀ st', echoStep base rest st event = some st' → TypesIntoFree base rest st event) :
    Goes p t kernel_directory directory e m base E t0 rest st kb held phase event := by
  cases event with
  | instruction => exact h.instruction rest
  | keys bytes =>
      obtain ⟨s', hstep, hin, hdoes, -⟩ := systemStep_answers h.inside (.keys bytes)
      obtain rfl := Option.some.inj hstep
      exact ⟨_, kb, echoed, held, phase, rfl, ⟨hin, h.attached, h.indexes, h.getkey, h.putchar, h.word, h.place,
        h.screen, h.balance⟩, fun _ _ hdue => hdue⟩
  | interrupt v => exact h.interrupted v hfree

/-- **A run.** -/
theorem EchoInv.run (events : List EchoEvent) : ∀ {st : Echo} {kb : KeyboardBuffer} {echoed : List UInt8}
    {held : Multiset UInt8} {phase : Nat}, EchoInv p t kernel_directory directory e m base E t0 st kb echoed held phase →
    AllSteps (echoStep base rest) (TypesIntoFree base rest) st events →
    ∃ st' kb' echoed' held' phase', runFrom (echoStep base rest) st events = some st' ∧
      EchoInv p t kernel_directory directory e m base E t0 st' kb' echoed' held' phase' ∧
      (AllSteps (echoStep base rest) (fun st event => event.types base rest st = 0) st events →
        ∀ n, Due kb held phase (n + (events.map EchoEvent.work).sum) → Due kb' held' phase' n) := by
  induction events with
  | nil => exact fun {st kb echoed held phase} h _ => ⟨st, kb, echoed, held, phase, rfl, h, fun _ _ hdue => hdue⟩
  | cons event events ih =>
      intro st kb echoed held phase h hall
      obtain ⟨st1, kb1, echoed1, held1, phase1, hstep, h1, hdue1⟩ := h.goes event fun st' hstep => (hall st' hstep).1
      obtain ⟨st', kb', echoed', held', phase', hrun, h', hdue'⟩ := ih h1 (hall st1 hstep).2
      refine ⟨st', kb', echoed', held', phase', runFrom_cons.mpr ⟨st1, hstep, hrun⟩, h', fun hquiet n hdue => ?_⟩
      obtain ⟨htypes, hrest⟩ := hquiet st1 hstep
      refine hdue' hrest n (hdue1 htypes _ ?_)
      rw [List.map_cons, List.sum_cons, Nat.add_comm event.work, ← Nat.add_assoc] at hdue
      exact hdue

/-- The program is at its beginning, and has been given an empty keyboard buffer and a stack to write to. -/
structure BlankStarts (base E : UInt32) (st : Echo) : Prop where
  inside : ∃ kernel_directory directory e m, InProgram st.system kernel_directory directory e m ∧ UserWord e m (E - 4)
  attached : ∃ p t, Attached st.system.kernel p t {}
  getkey : commandOf st.system.isr80h_commands SYSTEM_COMMAND2_GETKEY = some .getkey
  putchar : commandOf st.system.isr80h_commands SYSTEM_COMMAND3_PUTCHAR = some .putchar
  regs : ∃ eax zf, st.regs = ⟨0, eax, E, zf⟩
  typed : st.typed = []

theorem BlankStarts.inv {st : Echo} (h : BlankStarts base E st) (base' : UInt32) :
    ∃ p t kernel_directory directory e m, EchoInv p t kernel_directory directory e m base' E st.system.terminal st {}
      [] 0 2 := by
  obtain ⟨kernel_directory, directory, e, m, hin, hword⟩ := h.inside
  obtain ⟨p, t, hattached⟩ := h.attached
  obtain ⟨eax, zf, hregs⟩ := h.regs
  have hplace : At base' E st.regs (taskWord st.system.kernel.mem m (E - 4)) 0 2 := by
    rw [hregs]
    exact At.call eax zf _
  have hbalance : (st.typed : Multiset UInt8) = ([] : List UInt8) + 0 + waiting {} := by
    have hempty : waiting {} = 0 := ((cleared_zero IndexesValid.zero).mpr fun _ _ => rfl).waiting IndexesValid.zero
    rw [h.typed, hempty]
    rfl
  exact ⟨p, t, kernel_directory, directory, e, m, hin, hattached, IndexesValid.zero, h.getkey, h.putchar, hword,
    hplace, rfl, hbalance⟩

/-- **What the program shows has been typed.** Whatever interrupts come and whenever they come, as long as no
character is stored over one that is still in the buffer, no instruction of the program faults and no system call
fails; and the screen has received, one after the other, characters that have been typed, none of them more often
than it has been typed. -/
theorem blank_echoes {st : Echo} (h : BlankStarts base E st) {events : List EchoEvent}
    (hfree : AllSteps (echoStep base rest) (TypesIntoFree base rest) st events) :
    ∃ st' echoed, runFrom (echoStep base rest) st events = some st' ∧
      st'.system.terminal = terminalPrint st.system.terminal echoed ∧
      echoed.Subperm st'.typed := by
  obtain ⟨p, t, kernel_directory, directory, e, m, hinv⟩ := h.inv base
  obtain ⟨st', kb', echoed, held, phase, hrun, hinv', -⟩ := hinv.run events hfree
  refine ⟨st', echoed, hrun, hinv'.screen, ?_⟩
  rw [← Multiset.coe_le, hinv'.balance, add_assoc]
  exact Multiset.le_add_right _ _

/-- **It catches up.** When for a while nothing is typed, 11275 instructions are enough to show every character that
has been typed, each as often as it has been typed, though not always in the same order. -/
theorem blank_catches_up {st : Echo} (h : BlankStarts base E st) {events quiet : List EchoEvent}
    (hfree : AllSteps (echoStep base rest) (TypesIntoFree base rest) st events)
    (hquiet : ∀ st1, runFrom (echoStep base rest) st events = some st1 →
      AllSteps (echoStep base rest) (fun st event => event.types base rest st = 0) st1 quiet)
    (hlong : 11275 ≤ (quiet.map EchoEvent.work).sum) :
    ∃ st' echoed, runFrom (echoStep base rest) st (events ++ quiet) = some st' ∧
      st'.system.terminal = terminalPrint st.system.terminal echoed ∧
      echoed.Perm st'.typed := by
  obtain ⟨p, t, kernel_directory, directory, e, m, hinv⟩ := h.inv base
  obtain ⟨st1, kb1, echoed1, held1, phase1, hrun1, hinv1, -⟩ := hinv.run events hfree
  have hnothing := hquiet st1 hrun1
  have hinto : AllSteps (echoStep base rest) (TypesIntoFree base rest) st1 quiet :=
    hnothing.mono fun _ _ htypes hno => absurd htypes hno
  obtain ⟨st', kb', echoed, held, phase, hrun, hinv', hdue⟩ := hinv1.run quiet hinto
  -- a round takes at most 11 instructions and moves the head by one, so all 1024 cells are cleared and shown in time
  have hphase1 := hinv1.place.phase_le
  have hdone := hdue hnothing 0 (Or.inr ⟨1024, cleared_all kb1, by omega⟩)
  obtain ⟨hcleared, hheld⟩ : Cleared kb' 0 ∧ held = 0 := by
    rcases hdone with hdone | ⟨d, -, hlt⟩
    · exact hdone
    · exact absurd hlt (Nat.not_lt_zero _)
  refine ⟨st', echoed, (runFrom_append hrun1).trans hrun, hinv'.screen, ?_⟩
  have hbalance := hinv'.balance
  rw [hheld, hcleared.waiting hinv'.indexes, add_zero, add_zero] at hbalance
  exact (Multiset.coe_eq_coe.mp hbalance).symm

end Runs

/-! ## As it is loaded -/

/-- Loaded and entered, a program is at its beginning. -/
theorem Ready.blankStarts {s : System} {kernel_directory directory : UInt32} {e m : Nat → UInt32} {process : UInt32}
    {p : Process} {t : Task} (h : Ready s.kernel s.kernel_chunk kernel_directory directory e m process p t)
    (hlayout : LaidOut s) (hplace : LeavesKernel s e m)
    (hcommands : ∀ c, commandOf s.isr80h_commands c = systemCommands.lookup c) (base : UInt32) (zf : Bool) :
    BlankStarts base RASOS_PROGRAM_VIRTUAL_STACK_ADDRESS_BOTTOM
      ⟨s.paged 0x23 directory, ⟨0, t.registers.eax, t.registers.esp, zf⟩, []⟩ := by
  obtain ⟨ip, hregisters⟩ := h.registers
  obtain ⟨-, hin⟩ := taskRunFirstEverTask_enters h hlayout hplace
  have hword : UserWord e m (RASOS_PROGRAM_VIRTUAL_STACK_ADDRESS_BOTTOM - 4) :=
    h.stack _ (by decide) (by decide) (by decide)
  have hesp : t.registers.esp = RASOS_PROGRAM_VIRTUAL_STACK_ADDRESS_BOTTOM := by
    rw [hregisters]
    rfl
  refine ⟨⟨kernel_directory, directory, e, m, hin, hword⟩, ⟨process, p.task, h.attached.of_rest _ directory⟩,
    hcommands SYSTEM_COMMAND2_GETKEY, hcommands SYSTEM_COMMAND3_PUTCHAR, ⟨t.registers.eax, zf, ?_⟩, rfl⟩
  rw [hesp]

/-- A key is pressed before the program runs. -/
def firstKey (n : Nat) : List EchoEvent :=
  .keys [0x1E] :: .interrupt .keyboard :: List.replicate n .instruction

theorem allSteps_instructions {base : UInt32} {rest : InterruptFrame} {P : Echo → EchoEvent → Prop}
    (hP : ∀ st, P st .instruction) (n : Nat) :
    ∀ st, AllSteps (echoStep base rest) P st (List.replicate n .instruction) := by
  induction n with
  | zero => exact fun _ => trivial
  | succ n ih => exact fun st st' _ => ⟨hP st, ih st'⟩

theorem BlankStarts.firstKey_free {base E : UInt32} {rest : InterruptFrame} {st : Echo} (h : BlankStarts base E st)
    (n : Nat) : AllSteps (echoStep base rest) (TypesIntoFree base rest) st (firstKey n) := by
  obtain ⟨p, t, hattached⟩ := h.attached
  intro st1 hkeys
  obtain rfl := Option.some.inj hkeys
  refine ⟨fun hno => absurd rfl hno, fun st2 _ => ⟨fun _ pr hpr => ?_, ?_⟩⟩
  · -- the buffer is still empty
    obtain ⟨pr', hpr', hkb⟩ := hattached.process
    have hlive : st.system.kernel.live p = some (processK.inj pr) := hattached.current_process ▸ hpr
    obtain rfl := processK.inj_injective (Option.some.inj (hlive.symm.trans hpr'))
    rw [hkb]
  · exact allSteps_instructions (fun _ hno => absurd rfl hno) n st2

theorem runningSystem_commands (k : Kernel) (kernel_chunk directory : UInt32) (c : Int) :
    commandOf (runningSystem k kernel_chunk directory).isr80h_commands c = systemCommands.lookup c := by
  by_cases hlow : 0 ≤ c ∧ c ≤ 3
  · obtain ⟨h0, h3⟩ := hlow
    interval_cases c <;> rfl
  · have hlookup : systemCommands.lookup c = none := by
      rw [List.lookup_eq_none_iff]
      intro p hp
      have hrange : 0 ≤ p.1 ∧ p.1 ≤ 3 := by
        revert p
        decide
      rw [bne_iff_ne]
      omega
    have hbeyond : c < 0 ∨ ([Isr80hCommand.sum, .print, .getkey, .putchar] : List Isr80hCommand).length ≤ c.toNat := by
      rw [show ([Isr80hCommand.sum, .print, .getkey, .putchar] : List Isr80hCommand).length = 4 from rfl]
      omega
    rw [hlookup, commandOf]
    refine ite_eq_left_iff.mpr fun hrange => ?_
    exact List.getElem?_eq_none (hbeyond.resolve_left fun hneg => hrange (Or.inl hneg))

/-- The file `A` is loaded and its program entered. -/
theorem blankStarts_A : ∃ k directory,
    processLoadSwitch 0 pathA mappedKernel = some ((OK, some (blockAddress 5)), k) ∧
      BlankStarts 0x400000 RASOS_PROGRAM_VIRTUAL_STACK_ADDRESS_BOTTOM
        ⟨runningSystem k (blockAddress 3025) directory, ⟨0, 0, RASOS_PROGRAM_VIRTUAL_STACK_ADDRESS_BOTTOM, false⟩,
          []⟩ := by
  obtain ⟨k, directory, e, m, p, t, hload, hready, hplace⟩ := processLoadSwitch_ready_A
  obtain ⟨ip, hregisters⟩ := hready.registers
  have hstarts := Ready.blankStarts (s := runningSystem k (blockAddress 3025) k.current_directory) hready
    (runningSystem_laidOut _ _ _) hplace (runningSystem_commands _ _ _) 0x400000 false
  rw [hregisters] at hstarts
  exact ⟨k, directory, hload, hstarts⟩

/-- `A` types a letter. -/
theorem blank_echoes_A : ∃ (k : Kernel) (directory : UInt32) (st' : Echo) (echoed : List UInt8),
    processLoadSwitch 0 pathA mappedKernel = some ((OK, some (blockAddress 5)), k) ∧
      runFrom (echoStep 0x400000 (programFrame 0)) ⟨runningSystem k (blockAddress 3025) directory,
        ⟨0, 0, RASOS_PROGRAM_VIRTUAL_STACK_ADDRESS_BOTTOM, false⟩, []⟩ (firstKey 12) = some st' ∧
      echoed.Subperm st'.typed := by
  obtain ⟨k, directory, hload, hstarts⟩ := blankStarts_A
  have hfree := @BlankStarts.firstKey_free 0x400000 _ (programFrame 0) _ hstarts 12
  obtain ⟨st', echoed, hrun, -, hsub⟩ := blank_echoes hstarts hfree
  exact ⟨k, directory, st', echoed, hload, hrun, hsub⟩

theorem blank_catches_up_A : ∃ (k : Kernel) (directory : UInt32) (st' : Echo) (echoed : List UInt8),
    processLoadSwitch 0 pathA mappedKernel = some ((OK, some (blockAddress 5)), k) ∧
      runFrom (echoStep 0x400000 (programFrame 0)) ⟨runningSystem k (blockAddress 3025) directory,
        ⟨0, 0, RASOS_PROGRAM_VIRTUAL_STACK_ADDRESS_BOTTOM, false⟩, []⟩
          (firstKey 12 ++ List.replicate 11275 .instruction) = some st' ∧
      echoed.Perm st'.typed := by
  obtain ⟨k, directory, hload, hstarts⟩ := blankStarts_A
  have hlong : 11275 ≤ ((List.replicate 11275 EchoEvent.instruction).map EchoEvent.work).sum := by
    rw [List.map_replicate, List.sum_replicate]
    decide
  have hquiet : ∀ st1, AllSteps (echoStep 0x400000 (programFrame 0))
      (fun st event => event.types 0x400000 (programFrame 0) st = 0) st1 (List.replicate 11275 .instruction) :=
    allSteps_instructions (P := fun st event => event.types 0x400000 (programFrame 0) st = 0) (fun _ => rfl) 11275
  have hfree := @BlankStarts.firstKey_free 0x400000 _ (programFrame 0) _ hstarts 12
  obtain ⟨st', echoed, hrun, -, hperm⟩ := blank_catches_up hstarts hfree (fun st1 _ => hquiet st1) hlong
  exact ⟨k, directory, st', echoed, hload, hrun, hperm⟩

end RasOS
