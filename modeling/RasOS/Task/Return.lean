import RasOS.Idt.Idt
import RasOS.Kernel.StateLemmas
import RasOS.Task.Task

set_option autoImplicit false

/-! # Saving and resuming a task (`task/task.c`, `task/task.asm`)

The C code saves the frame of an interrupt in the registers of the task; the assembly takes them
from there by the offsets written down in it. `task_return` pushes the flags of the kernel, not the
saved ones, and the frame pointer of `restore_general_purpose_registers` ends up in `ebp`. -/

namespace RasOS

open Machine

/-! ## `task_save_state` -/

def taskSaveState (task : UInt32) (frame : InterruptFrame) : KernelM Unit := do
  let t ← load taskK task
  store taskK task { t with registers := {
    ip := frame.ip
    cs := frame.cs
    flags := frame.flags
    esp := frame.esp
    ss := frame.ss
    eax := frame.eax
    ebp := frame.ebp
    ebx := frame.ebx
    ecx := frame.ecx
    edi := frame.edi
    edx := frame.edx
    esi := frame.esi } }

/-- The layout of `struct registers`: its fields in their order. -/
def Registers.dwords (r : Registers) : List UInt32 :=
  [r.edi, r.esi, r.ebp, r.ebx, r.edx, r.ecx, r.eax, r.ip, r.cs, r.flags, r.esp, r.ss]

/-- The offset of `registers` in `struct task`. -/
def OFFSETOF_REGISTERS : UInt32 := 4

/-! ## `task_return` -/

def restoreGeneralPurposeRegisters : Asm Unit := do
  let ebp ← val Cpu.ebp
  push ebp
  op fun c => { c with ebp := c.esp }
  op fun c => { c with ebx := dword c.mem (c.ebp + 8) }
  op fun c => { c with edi := dword c.mem c.ebx }
  op fun c => { c with esi := dword c.mem (c.ebx + 4) }
  op fun c => { c with ebp := dword c.mem (c.ebx + 8) }
  op fun c => { c with edx := dword c.mem (c.ebx + 16) }
  op fun c => { c with ecx := dword c.mem (c.ebx + 20) }
  op fun c => { c with eax := dword c.mem (c.ebx + 24) }
  op fun c => { c with ebx := dword c.mem (c.ebx + 12) }
  let ebp ← pop
  op fun c => { c with ebp := ebp }

/-- `task_return`; `next` is the address behind its call. -/
def taskReturn (next : UInt32) : Asm Unit := do
  op fun c => { c with ebp := c.esp }
  op fun c => { c with ebx := dword c.mem (c.ebp + 4) }
  let ss ← val fun c => dword c.mem (c.ebx + 44)
  push ss
  let esp ← val fun c => dword c.mem (c.ebx + 40)
  push esp
  pushf
  let eax ← pop
  op fun c => { c with eax := eax }
  op fun c => { c with eax := c.eax ||| EFLAGS_IF }
  let eax ← val Cpu.eax
  push eax
  let cs ← val fun c => dword c.mem (c.ebx + 32)
  push cs
  let ip ← val fun c => dword c.mem (c.ebx + 28)
  push ip
  op fun c => { c with eax := (c.eax &&& 0xFFFF0000) ||| (dword c.mem (c.ebx + 44) &&& 0xFFFF) }
  op fun c => { c with ds := c.eax.toUInt16 }
  op fun c => { c with es := c.eax.toUInt16 }
  op fun c => { c with fs := c.eax.toUInt16 }
  op fun c => { c with gs := c.eax.toUInt16 }
  let ebx ← val Cpu.ebx
  push ebx
  call next restoreGeneralPurposeRegisters
  op fun c => { c with esp := c.esp + 4 }
  iretd

/-! ## On the way -/

/-- Inside `task_return`, called in `c`, with `l` on the stack: `ebx` and `ebp` as the first two
instructions leave them, and the registers of the task where they were. -/
structure Returning (c : Cpu) (p : UInt32) (r : Registers) (l : List UInt32) (k : Cpu) : Prop where
  stack : DwordsAt k.mem k.esp l
  registers : DwordsAt k.mem p r.dwords
  esp : (p - k.esp).toNat = (p - c.esp).toNat + 4 * l.length
  ebx : k.ebx = p
  ebp : k.ebp = c.esp
  eflags : k.eflags = c.eflags

section Returning

variable {c k : Cpu} {p : UInt32} {r : Registers} {l : List UInt32}

theorem Returning.push (h : Returning c p r l k) (hroom : Clear c 32 p r.dwords)
    (hlen : l.length < 8) (v : UInt32) : Returning c p r (v :: l) (k.push v) := by
  have hregs : r.dwords.length = 12 := rfl
  have hclear : Clear k (0 + 4) p r.dwords := by
    unfold Clear at hroom ⊢
    rw [h.esp]
    omega
  refine ⟨h.stack.push v (by omega), h.registers.push_clear v hclear, ?_, h.ebx, h.ebp, h.eflags⟩
  unfold Clear at hroom
  have hesp := h.esp
  rw [toNat_esp_push k v p (by omega), hesp, List.length_cons]
  omega

theorem Returning.pop {v : UInt32} (h : Returning c p r (v :: l) k) :
    Returning c p r l { k with esp := k.esp + 4 } := by
  refine ⟨h.stack.tail, h.registers, ?_, h.ebx, h.ebp, h.eflags⟩
  have hesp := h.esp
  rw [List.length_cons] at hesp
  have hp := p.toNat_lt
  have hk := k.esp.toNat_lt
  have hfour : (4 : UInt32).toNat = 4 := rfl
  rw [UInt32.toNat_sub, UInt32.toNat_add, hfour]
  rw [UInt32.toNat_sub p k.esp] at hesp
  have hlt := (p - c.esp).toNat_lt
  omega

/-- A register of the task, by its place in the structure. -/
theorem Returning.register (h : Returning c p r l k) (i : Nat) {v : UInt32}
    (hi : r.dwords[i]? = some v) : dword k.mem (k.ebx + UInt32.ofNat (4 * i)) = v := by
  rw [h.ebx]
  exact h.registers.get i hi

/-- Registers other than `ebx`, `ebp`, `esp` and the flags do not matter. -/
theorem Returning.congr {k' : Cpu} (h : Returning c p r l k) (hmem : k'.mem = k.mem)
    (hesp : k'.esp = k.esp) (hebx : k'.ebx = k.ebx) (hebp : k'.ebp = k.ebp)
    (heflags : k'.eflags = k.eflags) : Returning c p r l k' := by
  refine ⟨?_, ?_, ?_, hebx.trans h.ebx, hebp.trans h.ebp, heflags.trans h.eflags⟩
  · rw [hmem, hesp]
    exact h.stack
  · rw [hmem]
    exact h.registers
  · rw [hesp]
    exact h.esp

end Returning

/-- The image of the flags `task_return` leaves for `iretd`: those of the kernel, with interrupts
enabled. -/
def returnFlags (c : Cpu) : UInt32 := c.eflags &&& ~~~ (EFLAGS_RF ||| EFLAGS_VM) ||| EFLAGS_IF

/-- The first half of `task_return` builds the frame for `iretd`. -/
theorem total_taskReturn_frame {c : Cpu} {p : UInt32} {r : Registers} (next : UInt32)
    (harg : dword c.mem (c.esp + 4) = p) (hregs : DwordsAt c.mem p r.dwords)
    (hroom : Clear c 32 p r.dwords) (Q : Unit → Cpu → Prop) :
    ∃ k, Returning c p r [r.ip, r.cs, returnFlags c, r.esp, r.ss] k ∧
      (Total (taskReturn next) c Q ↔ Total (do
        push p
        call next restoreGeneralPurposeRegisters
        op fun c => { c with esp := c.esp + 4 }
        iretd) k Q) := by
  have h0 : Returning c p r [] { c with ebp := c.esp, ebx := p } :=
    ⟨trivial, hregs, rfl, rfl, rfl, rfl⟩
  unfold taskReturn
  rw [total_op, total_op]
  dsimp only
  rw [harg]
  generalize ({ c with ebp := c.esp, ebx := p } : Cpu) = k at h0 ⊢
  rw [total_val, total_push]
  rw [show dword k.mem (k.ebx + 44) = r.ss from h0.register 11 rfl]
  have h1 := h0.push hroom (by simp) r.ss
  generalize k.push r.ss = k at h1 ⊢
  rw [total_val, total_push]
  rw [show dword k.mem (k.ebx + 40) = r.esp from h1.register 10 rfl]
  have h2 := h1.push hroom (by simp) r.esp
  generalize k.push r.esp = k at h2 ⊢
  -- the flags go to `eax` and back
  have h3 := h2.push hroom (by simp) (k.eflags &&& ~~~ (EFLAGS_RF ||| EFLAGS_VM))
  have hflags : k.eflags &&& ~~~ (EFLAGS_RF ||| EFLAGS_VM) = c.eflags &&& ~~~ (EFLAGS_RF ||| EFLAGS_VM) := by
    rw [h2.eflags]
  rw [total_bind_of_some (show pushf k = some ((), k.push (k.eflags &&& ~~~ (EFLAGS_RF ||| EFLAGS_VM))) from rfl)]
  rw [hflags] at h3 ⊢
  generalize k.push (c.eflags &&& ~~~ (EFLAGS_RF ||| EFLAGS_VM)) = k at h3 ⊢
  rw [total_pop h3.stack]
  have h4 := h3.pop
  generalize ({ k with esp := k.esp + 4 } : Cpu) = k at h4 ⊢
  rw [total_op, total_op, total_val, total_push]
  dsimp only
  have h4' : Returning c p r _ { k with eax := returnFlags c } := h4.congr rfl rfl rfl rfl rfl
  have h5 := h4'.push hroom (by simp) (returnFlags c)
  have hor : c.eflags &&& ~~~ (EFLAGS_RF ||| EFLAGS_VM) ||| EFLAGS_IF = returnFlags c := rfl
  rw [hor]
  generalize Cpu.push _ (returnFlags c) = k at h5 ⊢
  rw [total_val, total_push]
  rw [show dword k.mem (k.ebx + 32) = r.cs from h5.register 8 rfl]
  have h6 := h5.push hroom (by simp) r.cs
  generalize k.push r.cs = k at h6 ⊢
  rw [total_val, total_push]
  rw [show dword k.mem (k.ebx + 28) = r.ip from h6.register 7 rfl]
  have h7 := h6.push hroom (by simp) r.ip
  generalize k.push r.ip = k at h7 ⊢
  -- the segment registers
  rw [total_op, total_op, total_op, total_op, total_op, total_val]
  dsimp only
  rw [h7.ebx]
  refine ⟨_, ?_, Iff.rfl⟩
  exact h7.congr rfl rfl h7.ebx.symm rfl rfl

/-- `restore_general_purpose_registers` and its call. The routine has saved the frame pointer of
its caller and puts that back into `ebp`, over the value it has just loaded. -/
theorem total_restore {c k : Cpu} {p : UInt32} {r : Registers} {l : List UInt32} (next : UInt32)
    (h : Returning c p r (p :: l) k) (hroom : Clear c 32 p r.dwords) (hlen : l.length < 6)
    (g : Unit → Asm Unit) (Q : Unit → Cpu → Prop) :
    ∃ k', DwordsAt k'.mem k'.esp (p :: l) ∧ k'.edi = r.edi ∧ k'.esi = r.esi ∧ k'.ebx = r.ebx ∧
      k'.edx = r.edx ∧ k'.ecx = r.ecx ∧ k'.eax = r.eax ∧ k'.ebp = c.esp ∧ k'.eflags = c.eflags ∧
      (Total (call next restoreGeneralPurposeRegisters >>= g) k Q ↔ Total (g ()) k' Q) := by
  unfold call restoreGeneralPurposeRegisters
  simp only [bind_assoc]
  rw [total_push]
  have h1 := h.push hroom (by simp; omega) next
  generalize k.push next = k at h1 ⊢
  rw [total_val, total_push, h1.ebp]
  have h2 := h1.push hroom (by simp; omega) c.esp
  generalize k.push c.esp = k at h2 ⊢
  rw [total_op, total_op]
  dsimp only
  -- the argument, behind the saved frame pointer and the return address
  rw [show dword k.mem (k.esp + 8) = p from h2.stack.get 2 rfl]
  have hget : ∀ i v, r.dwords[i]? = some v → dword k.mem (p + UInt32.ofNat (4 * i)) = v :=
    fun i v hi => h2.registers.get i hi
  have hedi : dword k.mem p = r.edi := h2.registers.1
  have hesi : dword k.mem (p + 4) = r.esi := hget 1 _ rfl
  have hebx : dword k.mem (p + 12) = r.ebx := hget 3 _ rfl
  have hedx : dword k.mem (p + 16) = r.edx := hget 4 _ rfl
  have hecx : dword k.mem (p + 20) = r.ecx := hget 5 _ rfl
  have heax : dword k.mem (p + 24) = r.eax := hget 6 _ rfl
  rw [total_op, total_op, total_op, total_op, total_op, total_op, total_op]
  dsimp only
  rw [hedi, hesi, hebx, hedx, hecx, heax]
  generalize hk3 : (Cpu.mk _ _ _ _ _ _ _ _ _ _ _ _ _ _ _ _ _) = k3
  have hstack : DwordsAt k3.mem k3.esp (c.esp :: next :: p :: l) := by
    rw [← hk3]
    exact h2.stack
  have hflags : k3.eflags = c.eflags := by
    rw [← hk3]
    exact h2.eflags
  rw [total_pop hstack, total_op]
  dsimp only
  generalize hk4 : (Cpu.mk _ _ _ _ _ _ _ _ _ _ _ _ _ _ _ _ _) = k4
  have hstack4 : DwordsAt k4.mem k4.esp (next :: p :: l) := by
    rw [← hk4]
    exact hstack.tail
  rw [total_pop hstack4, if_pos rfl, pure_bind]
  refine ⟨{ k4 with esp := k4.esp + 4 }, hstack4.tail, ?_, ?_, ?_, ?_, ?_, ?_, ?_, ?_, Iff.rfl⟩
  all_goals rw [← hk4]
  · rw [← hk3]
  · rw [← hk3]
  · rw [← hk3]
  · rw [← hk3]
  · rw [← hk3]
  · rw [← hk3]
  · exact hflags

/-- The bits of the flags `task_return` leaves, seen through a mask. -/
theorem returnFlags_and (c : Cpu) (mask : UInt32) : returnFlags c &&& mask =
    (c.eflags &&& (~~~ (EFLAGS_RF ||| EFLAGS_VM) &&& mask)) ||| (EFLAGS_IF &&& mask) := by
  have hor : ∀ x y : UInt32, (x ||| y) &&& mask = (x &&& mask) ||| (y &&& mask) := by
    intro x y
    apply UInt32.toBitVec_inj.mp
    simp only [UInt32.toBitVec_and, UInt32.toBitVec_or]
    exact BitVec.and_or_distrib_right
  rw [returnFlags, hor, UInt32.and_assoc]

/-- What `task_return` resumes. The frame pointer is the stack pointer it was called with, and the
flags are the kernel's. -/
structure Returned (c : Cpu) (r : Registers) (c' : Cpu) : Prop where
  edi : c'.edi = r.edi
  esi : c'.esi = r.esi
  ebp : c'.ebp = c.esp
  ebx : c'.ebx = r.ebx
  edx : c'.edx = r.edx
  ecx : c'.ecx = r.ecx
  eax : c'.eax = r.eax
  ip : c'.eip = r.ip
  cs : c'.cs = r.cs.toUInt16
  eflags : c'.eflags = returnFlags c
  esp : c'.esp = r.esp
  ss : c'.ss = r.ss.toUInt16

theorem total_taskReturn {c : Cpu} {p : UInt32} {r : Registers} (next : UInt32)
    (harg : dword c.mem (c.esp + 4) = p) (hregs : DwordsAt c.mem p r.dwords)
    (hroom : Clear c 32 p r.dwords) (hring : r.cs &&& 3 ≠ 0) (Q : Unit → Cpu → Prop) :
    ∃ c', Returned c r c' ∧
      (Total (taskReturn next) c Q ↔ c.eflags &&& EFLAGS_NT = 0 ∧ Q () c') := by
  obtain ⟨k, hk, hframe⟩ := total_taskReturn_frame next harg hregs hroom Q
  have hk1 := hk.push hroom (by simp) p
  obtain ⟨k2, hstack, hedi, hesi, hebx, hedx, hecx, heax, hebp, hflags, hrestore⟩ :=
    total_restore next hk1 hroom (by simp)
      (fun _ => do
        op fun c => { c with esp := c.esp + 4 }
        iretd) Q
  rw [hframe, total_push, hrestore, total_op]
  generalize hk3 : (Cpu.mk _ _ _ _ _ _ _ _ _ _ _ _ _ _ _ _ _) = k3
  have hstack3 : DwordsAt k3.mem k3.esp [r.ip, r.cs, returnFlags c, r.esp, r.ss] := by
    rw [← hk3]
    exact hstack.tail
  have hflags3 : k3.eflags = c.eflags := by
    rw [← hk3]
    exact hflags
  have hvm : returnFlags c &&& EFLAGS_VM = 0 := by
    rw [returnFlags_and, show ~~~ (EFLAGS_RF ||| EFLAGS_VM) &&& EFLAGS_VM = 0 by decide,
      show EFLAGS_IF &&& EFLAGS_VM = 0 by decide, UInt32.and_zero, UInt32.or_zero]
  rw [total_iretd hstack3, hflags3]
  refine ⟨_, ?_, ⟨fun h => ⟨h.1, h.2.2.2⟩, fun h => ⟨h.1, hvm, hring, h.2⟩⟩⟩
  rw [← hk3]
  exact ⟨hedi, hesi, hebp, hebx, hedx, hecx, heax, rfl, rfl, rfl, rfl, rfl⟩

/-! ## Resuming -/

/-- The program goes on in ring 3 where it was interrupted, with interrupts enabled. -/
structure TaskResumed (f : InterruptFrame) (c : Cpu) : Prop where
  edi : c.edi = f.edi
  esi : c.esi = f.esi
  ebp : c.ebp = f.ebp
  ebx : c.ebx = f.ebx
  edx : c.edx = f.edx
  ecx : c.ecx = f.ecx
  eax : c.eax = f.eax
  ip : c.eip = f.ip
  cs : c.cs = f.cs.toUInt16
  esp : c.esp = f.esp
  ss : c.ss = f.ss.toUInt16
  flags : c.eflags &&& EFLAGS_ARITHMETIC = f.flags &&& EFLAGS_ARITHMETIC
  interrupts : c.eflags &&& EFLAGS_IF = EFLAGS_IF

/-- **A saved task is resumed as it was interrupted exactly when** its frame pointer happens to be
the kernel's stack pointer at the call of `task_return`, and its arithmetic flags are the kernel's.
NT is clear in the kernel, the processor clears it on every entry. Every other register comes back
in any case. -/
theorem taskReturn_resumes_iff {s s' : Kernel} {task : UInt32} {f : InterruptFrame} {t : Task}
    (hsave : taskSaveState task f s = some ((), s')) (ht : s'.live task = some (taskK.inj t))
    {c : Cpu} (next : UInt32) (harg : dword c.mem (c.esp + 4) = task + OFFSETOF_REGISTERS)
    (hmem : DwordsAt c.mem (task + OFFSETOF_REGISTERS) t.registers.dwords)
    (hroom : Clear c 32 (task + OFFSETOF_REGISTERS) t.registers.dwords)
    (huser : f.cs &&& 3 = 3) :
    Total (taskReturn next) c (fun _ c' => TaskResumed f c') ↔
      c.eflags &&& EFLAGS_NT = 0 ∧ f.ebp = c.esp ∧
        f.flags &&& EFLAGS_ARITHMETIC = c.eflags &&& EFLAGS_ARITHMETIC := by
  -- what was saved
  have hsaved : t.registers = {
      ip := f.ip, cs := f.cs, flags := f.flags, esp := f.esp, ss := f.ss, eax := f.eax
      ebp := f.ebp, ebx := f.ebx, ecx := f.ecx, edi := f.edi, edx := f.edx, esi := f.esi } := by
    obtain ⟨t0, s1, hload, hstore⟩ := bind_eq_some.mp hsave
    obtain ⟨-, rfl⟩ := store_eq_some.mp hstore
    dsimp only at ht
    rw [Kind.write_self] at ht
    rw [← taskK.inj_injective (Option.some.inj ht)]
  have hring : t.registers.cs &&& 3 ≠ 0 := by
    rw [hsaved, huser]
    decide
  obtain ⟨c', hc', hiff⟩ := total_taskReturn next harg hmem hroom hring
    fun _ c' => TaskResumed f c'
  have harith : returnFlags c &&& EFLAGS_ARITHMETIC = c.eflags &&& EFLAGS_ARITHMETIC := by
    rw [returnFlags_and,
      show ~~~ (EFLAGS_RF ||| EFLAGS_VM) &&& EFLAGS_ARITHMETIC = EFLAGS_ARITHMETIC by decide,
      show EFLAGS_IF &&& EFLAGS_ARITHMETIC = 0 by decide, UInt32.or_zero]
  have hif : returnFlags c &&& EFLAGS_IF = EFLAGS_IF := by
    rw [returnFlags_and, show ~~~ (EFLAGS_RF ||| EFLAGS_VM) &&& EFLAGS_IF = EFLAGS_IF by decide,
      UInt32.and_self]
    apply UInt32.toBitVec_inj.mp
    apply BitVec.eq_of_getLsbD_eq
    intro i hi
    simp only [UInt32.toBitVec_or, UInt32.toBitVec_and, BitVec.getLsbD_or, BitVec.getLsbD_and]
    cases c.eflags.toBitVec.getLsbD i <;> simp
  rw [hsaved] at hc'
  rw [hiff]
  constructor
  · rintro ⟨hnt, hres⟩
    refine ⟨hnt, ?_, ?_⟩
    · rw [← hres.ebp, hc'.ebp]
    · rw [← hres.flags, hc'.eflags, harith]
  · rintro ⟨hnt, hebp, hflags⟩
    refine ⟨hnt, hc'.edi, hc'.esi, hc'.ebp.trans hebp.symm, hc'.ebx, hc'.edx, hc'.ecx, hc'.eax,
      hc'.ip, hc'.cs, hc'.esp, hc'.ss, ?_, ?_⟩
    · rw [hc'.eflags, harith, hflags]
    · rw [hc'.eflags, hif]

/-! ## A program with a frame pointer -/

/-- A frame of a program that uses `ebp` for its stack frame, with the zero flag set. -/
def programFrame (ebp : UInt32) : InterruptFrame where
  edi := 1
  esi := 2
  ebp := ebp
  reserved := 0
  ebx := 3
  edx := 4
  ecx := 5
  eax := 6
  ip := 0x400010
  cs := USER_CODE_SEGMENT
  flags := 0x246
  esp := 0x3FEFF0
  ss := USER_DATA_SEGMENT

/-- One task, at `0x01000000`. -/
def savingKernel : Kernel where
  heap := ⟨fun _ => HEAP_BLOCK_ENTRY_FREE, 0, RASOS_HEAP_ADDRESS, noBlocks_lt⟩
  mem := fun _ => 0
  live := taskK.write (fun _ => none) 0x01000000 {}
  drive := fun _ _ => none
  requests := []
  disk := {}
  file_descriptors := fun _ => 0
  processes := fun _ => 0
  current_process := 0
  current_task := 0x01000000
  task_head := 0x01000000
  task_tail := 0x01000000
  current_directory := 0

/-- The task after the frame has been saved. -/
def savedTask (ebp : UInt32) : Task where
  registers := {
    ip := 0x400010, cs := USER_CODE_SEGMENT, flags := 0x246, esp := 0x3FEFF0
    ss := USER_DATA_SEGMENT, eax := 6, ebp := ebp, ebx := 3, ecx := 5, edi := 1, edx := 4, esi := 2 }

theorem savingKernel_saved (ebp : UInt32) :
    taskSaveState 0x01000000 (programFrame ebp) savingKernel =
      some ((), { savingKernel with
        live := taskK.write savingKernel.live 0x01000000 (savedTask ebp) }) := by
  have hlive : savingKernel.live 0x01000000 = some (taskK.inj {}) :=
    taskK.write_self (fun _ => none) (0x01000000 : UInt32) {}
  unfold taskSaveState
  rw [bind_of_some (load_of_live hlive), store_of_live hlive]
  rfl

/-- The kernel calls `task_return` with its stack at `0x5FFF00`. -/
def returningCpu (ebp : UInt32) : Cpu :=
  let k : Cpu := {
    eax := 0, ecx := 0, edx := 0, ebx := 0, esp := 0x01000034, ebp := 0, esi := 0, edi := 0
    eip := 0, eflags := 0x46, cs := KERNEL_CODE_SELECTOR, ss := KERNEL_DATA_SELECTOR
    ds := KERNEL_DATA_SELECTOR, es := KERNEL_DATA_SELECTOR, fs := KERNEL_DATA_SELECTOR
    gs := KERNEL_DATA_SELECTOR, mem := fun _ => 0 }
  let k := k.pushAll (savedTask ebp).registers.dwords.reverse
  ({ k with esp := 0x5FFF08 }.push 0x01000004).push 0x100300

/-- A program whose `ebp` is the kernel's stack pointer, and whose flags are the kernel's, is
resumed. -/
theorem taskReturn_resumes_lucky :
    Total (taskReturn 0x100400) (returningCpu 0x5FFF00)
      (fun _ c' => TaskResumed (programFrame 0x5FFF00) c') :=
  (taskReturn_resumes_iff (t := savedTask 0x5FFF00) (savingKernel_saved 0x5FFF00)
    (taskK.write_self savingKernel.live 0x01000000 (savedTask 0x5FFF00)) 0x100400
    (by decide +kernel) (by decide +kernel) (by decide +kernel) (by decide)).mpr (by decide +kernel)

/-- Any other program is not: it goes on with the kernel's stack pointer in `ebp`. -/
theorem taskReturn_clobbers_ebp :
    ¬ Total (taskReturn 0x100400) (returningCpu 0x3FEFF8)
      (fun _ c' => TaskResumed (programFrame 0x3FEFF8) c') := by
  intro h
  obtain ⟨c', hc', hiff⟩ := total_taskReturn (c := returningCpu 0x3FEFF8) (p := 0x01000004)
    (r := (savedTask 0x3FEFF8).registers) 0x100400 (by decide +kernel) (by decide +kernel)
    (by decide +kernel) (by decide) fun _ c' => TaskResumed (programFrame 0x3FEFF8) c'
  have hebp := (hiff.mp h).2.ebp
  rw [hc'.ebp] at hebp
  exact absurd hebp (by decide +kernel)

end RasOS
