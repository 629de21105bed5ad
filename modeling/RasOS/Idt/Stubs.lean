import RasOS.Idt.Idt

set_option autoImplicit false

/-! # What an interrupt saves and what it resumes

The stubs pass the handler the address of the registers `pushad` has left on the stack, as a
`struct interrupt_frame` that reaches up to what the processor has pushed. For a vector with an
error code there is one value more between the two, which neither the structure nor `iret` knows. -/

namespace RasOS

open Machine

/-- The frame shows the state that was interrupted. -/
structure FrameOf (c : Cpu) (f : InterruptFrame) : Prop where
  ip : f.ip = c.eip
  cs : f.cs = c.cs.toUInt32
  flags : f.flags = c.eflags
  esp : f.esp = c.esp
  ss : f.ss = c.ss.toUInt32

/-- `c'` goes on where `c` was interrupted, with `eax` in that register. -/
structure Resumed (c : Cpu) (eax : UInt32) (c' : Cpu) : Prop where
  eax : c'.eax = eax
  ecx : c'.ecx = c.ecx
  edx : c'.edx = c.edx
  ebx : c'.ebx = c.ebx
  ebp : c'.ebp = c.ebp
  esi : c'.esi = c.esi
  edi : c'.edi = c.edi
  eip : c'.eip = c.eip
  cs : c'.cs = c.cs
  eflags : c'.eflags = c.eflags
  esp : c'.esp = c.esp
  ss : c'.ss = c.ss

/-- What the stubs rely on in a C handler: the calling convention (the stack pointer and the return
address are as they were), and that it only reads the frame and does not set NT. -/
def Handler (handler : UInt32 → UInt32 → Asm UInt32) : Prop :=
  ∀ interrupt frame c r c', handler interrupt frame c = some (r, c') →
    c'.esp = c.esp ∧ dword c'.mem c.esp = dword c.mem c.esp ∧
    InterruptFrame.ofMem c'.mem frame = InterruptFrame.ofMem c.mem frame ∧
    (c.eflags &&& EFLAGS_NT = 0 → c'.eflags &&& EFLAGS_NT = 0)

/-- An interrupt of `c` at vector `v`: the handler is called with the number and a frame that shows
`c`, and when it returns, `c` is resumed. -/
def StubResumes (next : UInt32) (interrupt_handler : UInt32 → UInt32 → Asm UInt32)
    (esp0 code : UInt32) (v : Nat) (c : Cpu) : Prop :=
  Total (interruptEntry v) (interruptCpu esp0 code v c) fun _ k =>
    let interrupt := dword k.mem k.esp
    let frame := dword k.mem (k.esp + 4)
    interrupt = UInt32.ofNat v ∧ FrameOf c (InterruptFrame.ofMem k.mem frame) ∧
    ∀ r k', interrupt_handler interrupt frame (k.push next) = some (r, k') →
      Total (interruptStub next interrupt_handler v) (interruptCpu esp0 code v c)
        fun _ c' => Resumed c c.eax c'

/-- The same of a system call, except that `eax` carries the result. -/
def WrapperResumes (next tmp_res : UInt32) (isr80h_handler : UInt32 → UInt32 → Asm UInt32)
    (esp0 code : UInt32) (c : Cpu) : Prop :=
  Total isr80hEntry (interruptCpu esp0 code 0x80 c) fun _ k =>
    let command := dword k.mem k.esp
    let frame := dword k.mem (k.esp + 4)
    command = c.eax ∧ FrameOf c (InterruptFrame.ofMem k.mem frame) ∧
    ∀ r k', isr80h_handler command frame (k.push next) = some (r, k') →
      Total (isr80hWrapper next tmp_res isr80h_handler) (interruptCpu esp0 code 0x80 c)
        fun _ c' => Resumed c r c'

/-! ## Frames in memory -/

theorem dwordsAt_frame {mem : UInt32 → UInt8} {p : UInt32} {f : InterruptFrame} :
    DwordsAt mem p f.dwords ↔ InterruptFrame.ofMem mem p = f := by
  unfold InterruptFrame.dwords InterruptFrame.ofMem
  simp only [dwordsAt_cons, UInt32.add_assoc, UInt32.reduceAdd]
  constructor
  · intro h
    cases f
    simp_all
  · rintro rfl
    exact ⟨rfl, rfl, rfl, rfl, rfl, rfl, rfl, rfl, rfl, rfl, rfl, rfl, rfl, trivial⟩

/-! ## Up to the call -/

/-- The general registers, the address behind them and an argument pushed on the stack of `k`. -/
def savedCpu (k : Cpu) (arg : UInt32) : Cpu :=
  let k1 := k.pushAll [k.eax, k.ecx, k.edx, k.ebx, k.esp, k.ebp, k.esi, k.edi]
  (k1.push k1.esp).push arg

theorem interruptEntry_apply (v : Nat) (k : Cpu) :
    interruptEntry v k = some ((), savedCpu k (UInt32.ofNat v)) := rfl

theorem savedCpu_eq (k : Cpu) (arg : UInt32) :
    savedCpu k arg = { k with esp := (savedCpu k arg).esp, mem := (savedCpu k arg).mem } := by
  have hregs := k.pushAll_eq [k.eax, k.ecx, k.edx, k.ebx, k.esp, k.ebp, k.esi, k.edi]
  unfold savedCpu
  dsimp only
  rw [hregs]
  rfl

theorem isr80hEntry_apply (k : Cpu) : isr80hEntry k =
    some ((), savedCpu { k with eflags := k.eflags &&& ~~~ EFLAGS_IF } k.eax) := by
  let k1 := { k with eflags := k.eflags &&& ~~~ EFLAGS_IF }
  let vs := [k1.eax, k1.ecx, k1.edx, k1.ebx, k1.esp, k1.ebp, k1.esi, k1.edi]
  have heax : ((k1.pushAll vs).push (k1.pushAll vs).esp).eax = k.eax := by
    rw [k1.pushAll_eq vs]
    rfl
  have hrun : isr80hEntry k = some ((), ((k1.pushAll vs).push (k1.pushAll vs).esp).push
      ((k1.pushAll vs).push (k1.pushAll vs).esp).eax) := rfl
  rw [hrun, heax]
  rfl

theorem savedCpu_stack {k : Cpu} {l : List UInt32} (arg : UInt32) (h : DwordsAt k.mem k.esp l)
    (hroom : 40 + 4 * l.length ≤ 2 ^ 32) :
    DwordsAt (savedCpu k arg).mem (savedCpu k arg).esp (arg :: ((savedCpu k arg).esp + 8) ::
      k.edi :: k.esi :: k.ebp :: k.esp :: k.ebx :: k.edx :: k.ecx :: k.eax :: l) := by
  have hregs := h.pushAll [k.eax, k.ecx, k.edx, k.ebx, k.esp, k.ebp, k.esi, k.edi]
    (by simp only [List.length_cons, List.length_nil]; omega)
  simp only [List.reverse_cons, List.reverse_nil, List.nil_append, List.cons_append] at hregs
  have hesp := hregs.push (k.pushAll [k.eax, k.ecx, k.edx, k.ebx, k.esp, k.ebp, k.esi, k.edi]).esp
    (by simp only [List.length_cons]; omega)
  have harg := hesp.push arg (by simp only [List.length_cons]; omega)
  have hback : (savedCpu k arg).esp + 8 =
      (k.pushAll [k.eax, k.ecx, k.edx, k.ebx, k.esp, k.ebp, k.esi, k.edi]).esp := by
    have h4 : ∀ x : UInt32, x - 4 - 4 + 8 = x := by
      intro x
      rw [show (8 : UInt32) = 4 + 4 from rfl, ← UInt32.add_assoc, UInt32.sub_add_cancel,
        UInt32.sub_add_cancel]
    exact h4 _
  rw [hback]
  exact harg

/-- How far an address lies above the stack pointer. -/
theorem toNat_savedCpu_esp {k : Cpu} (arg a : UInt32) (h : (a - k.esp).toNat + 40 < 2 ^ 32) :
    (a - (savedCpu k arg).esp).toNat = (a - k.esp).toNat + 40 := by
  let k1 := k.pushAll [k.eax, k.ecx, k.edx, k.ebx, k.esp, k.ebp, k.esi, k.edi]
  have h1 : (a - k1.esp).toNat = (a - k.esp).toNat + 4 * 8 :=
    toNat_esp_pushAll k [k.eax, k.ecx, k.edx, k.ebx, k.esp, k.ebp, k.esi, k.edi] a (by simp; omega)
  have h2 := toNat_esp_push k1 k1.esp a (by omega)
  have h3 := toNat_esp_push (k1.push k1.esp) arg a (by omega)
  have hlast : (a - (savedCpu k arg).esp).toNat = (a - (k1.push k1.esp).esp).toNat + 4 := h3
  omega

/-! ## Behind the call -/

/-- The frame on the stack is resumed. -/
theorem total_interruptExit {k : Cpu} {f : InterruptFrame} {Q : Unit → Cpu → Prop}
    (h : DwordsAt k.mem (k.esp + 8) f.dwords) :
    Total interruptExit k Q ↔ k.eflags &&& EFLAGS_NT = 0 ∧ f.flags &&& EFLAGS_VM = 0 ∧
      f.cs &&& 3 ≠ 0 ∧ Q () { k with
        edi := f.edi, esi := f.esi, ebp := f.ebp, ebx := f.ebx, edx := f.edx, ecx := f.ecx
        eax := f.eax, eip := f.ip, cs := f.cs.toUInt16, eflags := f.flags, esp := f.esp
        ss := f.ss.toUInt16 } := by
  unfold interruptExit
  rw [total_op]
  obtain ⟨esp, hrest, hpopad⟩ := total_popad (c := { k with esp := k.esp + 8 })
    (g := fun _ => iretd) (Q := Q) h
  rw [hpopad]
  exact total_iretd hrest

/-! ## Entering -/

section Enter

variable (esp0 code : UInt32) (v : Nat) (c : Cpu)

/-- What the processor leaves on the stack. -/
def enteredDwords : List UInt32 :=
  (if PushesErrorCode v then [code] else []) ++
    [c.eip, c.cs.toUInt32, c.eflags, c.esp, c.ss.toUInt32]

theorem interruptCpu_stack : DwordsAt (interruptCpu esp0 code v c).mem
    (interruptCpu esp0 code v c).esp (enteredDwords code v c) := by
  have hlist : enteredDwords code v c = ([c.ss.toUInt32, c.esp, c.eflags, c.cs.toUInt32, c.eip] ++
      (if PushesErrorCode v then some code else none).toList).reverse ++ [] := by
    unfold enteredDwords
    by_cases h : PushesErrorCode v
    · rw [if_pos h, if_pos h]
      rfl
    · rw [if_neg h, if_neg h]
      rfl
  rw [hlist]
  unfold interruptCpu interruptEnter
  exact DwordsAt.pushAll _ trivial (by split <;> simp)

/-- Entering changes neither the general registers nor, but for masking, the flags. -/
theorem interruptCpu_eq : interruptCpu esp0 code v c = { c with
    esp := (interruptCpu esp0 code v c).esp, mem := (interruptCpu esp0 code v c).mem
    ss := KERNEL_DATA_SELECTOR, cs := KERNEL_CODE_SELECTOR
    eflags := c.eflags &&& ~~~ (EFLAGS_TF ||| EFLAGS_IF ||| EFLAGS_NT ||| EFLAGS_RF |||
      EFLAGS_VM) } := by
  unfold interruptCpu interruptEnter
  dsimp only
  exact Cpu.pushAll_eq _ _

end Enter

/-- NT is masked and stays so. -/
theorem and_masked_nt (x : UInt32) : x &&& ~~~ (EFLAGS_TF ||| EFLAGS_IF ||| EFLAGS_NT |||
    EFLAGS_RF ||| EFLAGS_VM) &&& EFLAGS_NT = 0 := by
  rw [UInt32.and_assoc, show ~~~ (EFLAGS_TF ||| EFLAGS_IF ||| EFLAGS_NT ||| EFLAGS_RF |||
    EFLAGS_VM) &&& EFLAGS_NT = 0 by decide, UInt32.and_zero]

theorem and_cleared_if (x : UInt32) : x &&& ~~~ EFLAGS_IF &&& EFLAGS_NT = x &&& EFLAGS_NT := by
  rw [UInt32.and_assoc, show ~~~ EFLAGS_IF &&& EFLAGS_NT = EFLAGS_NT by decide]

/-- The selector the processor pushes is the one `iret` loads. -/
theorem selector_roundtrip (x : UInt16) : x.toUInt32.toUInt16 = x := by
  apply UInt16.toNat_inj.mp
  have hlt := x.toNat_lt
  rw [UInt32.toNat_toUInt16, UInt16.toNat_toUInt32]
  omega

/-- A selector of ring 3 is one of an outer ring. -/
theorem outer_ring {x : UInt16} (h : x &&& 3 = 3) : x.toUInt32 &&& 3 ≠ 0 := by
  intro h0
  have hnat : (x.toUInt32 &&& 3).toNat = (x &&& 3).toNat := by
    rw [UInt32.toNat_and, UInt16.toNat_and, UInt16.toNat_toUInt32]
    rfl
  rw [h0, h] at hnat
  exact absurd hnat (by decide)

/-- The processor has entered the kernel from `c` and is in `k`; there was no error code. -/
structure Entered (c k : Cpu) : Prop where
  stack : DwordsAt k.mem k.esp [c.eip, c.cs.toUInt32, c.eflags, c.esp, c.ss.toUInt32]
  nt : k.eflags &&& EFLAGS_NT = 0
  eax : k.eax = c.eax
  ecx : k.ecx = c.ecx
  edx : k.edx = c.edx
  ebx : k.ebx = c.ebx
  ebp : k.ebp = c.ebp
  esi : k.esi = c.esi
  edi : k.edi = c.edi

theorem interruptCpu_entered (esp0 code : UInt32) {v : Nat} (c : Cpu)
    (herror : ¬ PushesErrorCode v) : Entered c (interruptCpu esp0 code v c) := by
  have hstack := interruptCpu_stack esp0 code v c
  unfold enteredDwords at hstack
  rw [if_neg herror, List.nil_append] at hstack
  refine ⟨hstack, ?_, ?_, ?_, ?_, ?_, ?_, ?_, ?_⟩
  · rw [interruptCpu_eq]
    exact and_masked_nt c.eflags
  all_goals rw [interruptCpu_eq]

/-- The frame `pushad` completes. -/
def savedFrame (k c : Cpu) : InterruptFrame where
  edi := k.edi
  esi := k.esi
  ebp := k.ebp
  reserved := k.esp
  ebx := k.ebx
  edx := k.edx
  ecx := k.ecx
  eax := k.eax
  ip := c.eip
  cs := c.cs.toUInt32
  flags := c.eflags
  esp := c.esp
  ss := c.ss.toUInt32

theorem frameOf_savedFrame (k c : Cpu) : FrameOf c (savedFrame k c) := ⟨rfl, rfl, rfl, rfl, rfl⟩

theorem Entered.saved {c k : Cpu} (h : Entered c k) (arg : UInt32) :
    DwordsAt (savedCpu k arg).mem (savedCpu k arg).esp
      (arg :: ((savedCpu k arg).esp + 8) :: (savedFrame k c).dwords) :=
  savedCpu_stack arg h.stack (by simp)

theorem Entered.saved_nt {c k : Cpu} (h : Entered c k) (arg : UInt32) :
    (savedCpu k arg).eflags &&& EFLAGS_NT = 0 := by
  have hflags : (savedCpu k arg).eflags = k.eflags := by rw [savedCpu_eq]
  rw [hflags]
  exact h.nt

/-- A state that has taken its registers from the frame goes on where `c` was interrupted. -/
theorem Entered.resumed {c k : Cpu} (h : Entered c k) (k' : Cpu) (eax : UInt32) :
    Resumed c eax { k' with
      edi := (savedFrame k c).edi, esi := (savedFrame k c).esi, ebp := (savedFrame k c).ebp
      ebx := (savedFrame k c).ebx, edx := (savedFrame k c).edx, ecx := (savedFrame k c).ecx
      eax := eax, eip := (savedFrame k c).ip, cs := (savedFrame k c).cs.toUInt16
      eflags := (savedFrame k c).flags, esp := (savedFrame k c).esp
      ss := (savedFrame k c).ss.toUInt16 } :=
  ⟨rfl, h.ecx, h.edx, h.ebx, h.ebp, h.esi, h.edi, rfl, selector_roundtrip c.cs, rfl, rfl,
    selector_roundtrip c.ss⟩

/-! ## The call -/

/-- A C handler is called with its two arguments and comes back with the stack as it was, the frame
unchanged and the result in `eax`. -/
theorem call_handler {α : Type} {handler : UInt32 → UInt32 → Asm UInt32} (hh : Handler handler)
    {k k' : Cpu} {next arg r : UInt32} {f : InterruptFrame}
    (hstack : DwordsAt k.mem k.esp (arg :: (k.esp + 8) :: f.dwords))
    (hnt : k.eflags &&& EFLAGS_NT = 0)
    (hret : handler arg (k.esp + 8) (k.push next) = some (r, k')) :
    ∃ k2, k2.esp = k.esp ∧ k2.eax = r ∧ k2.eflags &&& EFLAGS_NT = 0 ∧
      DwordsAt k2.mem (k2.esp + 8) f.dwords ∧
      ∀ (g : UInt32 → Asm α) (Q : α → Cpu → Prop),
        Total (call next (cdecl handler) >>= g) k Q ↔ Total (g r) k2 Q := by
  obtain ⟨hesp, hnext, hframe, hkept⟩ := hh _ _ _ _ _ hret
  have hlen : f.dwords.length = 13 := rfl
  have hpushed := hstack.push next (by simp only [List.length_cons, hlen]; omega)
  have harg : dword (k.push next).mem ((k.push next).esp + 4) = arg := hpushed.get 1 rfl
  have hat : dword (k.push next).mem ((k.push next).esp + 8) = k.esp + 8 := hpushed.get 2 rfl
  have hback : (k.push next).esp + 4 = k.esp := UInt32.sub_add_cancel ..
  refine ⟨{ k' with eax := r, esp := k.esp }, rfl, rfl, ?_, ?_, fun g Q => ?_⟩
  · exact hkept (by rw [Cpu.push_eflags, hnt])
  · -- the frame was there when the handler was called, and it only reads it
    have haddr : (k.push next).esp + 4 + 4 + 4 = k.esp + 8 := by
      rw [hback, UInt32.add_assoc]
      rfl
    have hf := hpushed.tail.tail.tail
    rw [haddr] at hf
    dsimp only
    rw [dwordsAt_frame, hframe]
    exact dwordsAt_frame.mp hf
  · have hcall : cdecl handler (k.push next) = some (r, { k' with eax := r }) := by
      unfold cdecl
      rw [bind_of_some (show val id (k.push next) = some (k.push next, k.push next) from rfl), harg,
        hat, bind_of_some hret]
      rfl
    have hpop : pop { k' with eax := r } = some (next, { k' with eax := r, esp := k.esp }) := by
      have htop : dword k'.mem k'.esp = next := by
        rw [hesp, hnext]
        exact hpushed.1
      unfold pop
      dsimp only
      rw [htop, hesp, hback]
    unfold call
    simp only [bind_assoc]
    rw [total_push, total_bind_of_some hcall, total_bind_of_some hpop, if_pos rfl, pure_bind]

theorem savedCpu_frame {k : Cpu} {arg : UInt32} {f : InterruptFrame}
    (hstack : DwordsAt k.mem k.esp (arg :: (k.esp + 8) :: f.dwords)) :
    dword k.mem k.esp = arg ∧ dword k.mem (k.esp + 4) = k.esp + 8 ∧
      InterruptFrame.ofMem k.mem (k.esp + 8) = f := by
  refine ⟨hstack.1, hstack.tail.1, ?_⟩
  have haddr : k.esp + 4 + 4 = k.esp + 8 := by
    rw [UInt32.add_assoc]
    rfl
  have hf := hstack.tail.tail
  rw [haddr] at hf
  exact dwordsAt_frame.mp hf

/-! ## The stubs -/

section Resume

variable {c : Cpu} {handler : UInt32 → UInt32 → Asm UInt32}

theorem stub_resumed {k k' : Cpu} (hk : Entered c k) (hc : UserMode c) (hh : Handler handler)
    {next r : UInt32} {v : Nat}
    (hret : handler (UInt32.ofNat v) ((savedCpu k (UInt32.ofNat v)).esp + 8)
      ((savedCpu k (UInt32.ofNat v)).push next) = some (r, k')) :
    Total (interruptStub next handler v) k fun _ c' => Resumed c c.eax c' := by
  obtain ⟨k2, hesp, -, hnt, hframe, hcall⟩ := call_handler hh (hk.saved (UInt32.ofNat v))
    (hk.saved_nt (UInt32.ofNat v)) hret
  unfold interruptStub
  rw [total_bind_of_some (interruptEntry_apply v k), hcall, total_interruptExit hframe]
  refine ⟨hnt, hc.vm, outer_ring hc.cs, ?_⟩
  have hlast := hk.resumed k2 c.eax
  rw [← hk.eax] at hlast ⊢
  exact hlast

/-- **Without an error code** the stub saves and resumes the interrupted state. -/
theorem stubResumes (hc : UserMode c) (hh : Handler handler) (next esp0 code : UInt32) {v : Nat}
    (herror : ¬ PushesErrorCode v) : StubResumes next handler esp0 code v c := by
  have hk := interruptCpu_entered esp0 code c herror
  unfold StubResumes
  generalize interruptCpu esp0 code v c = k at hk ⊢
  obtain ⟨harg, hframe, hsaved⟩ := savedCpu_frame (hk.saved (UInt32.ofNat v))
  refine (total_of_some (interruptEntry_apply v k)).mpr ?_
  dsimp only
  rw [harg, hframe, hsaved]
  exact ⟨rfl, frameOf_savedFrame k c, fun r k' hret => stub_resumed hk hc hh hret⟩

/-- **With an error code** the handler's frame is one value off, so it never shows the state. -/
theorem not_stubResumes (hc : UserMode c) (next esp0 code : UInt32) {v : Nat}
    (herror : PushesErrorCode v) : ¬ StubResumes next handler esp0 code v c := by
  intro hstub
  let k := interruptCpu esp0 code v c
  have hstack := interruptCpu_stack esp0 code v c
  unfold enteredDwords at hstack
  rw [if_pos herror] at hstack
  have hsaved := savedCpu_stack (k := k) (UInt32.ofNat v) hstack (by simp)
  obtain ⟨-, hframe, -⟩ := (total_of_some (interruptEntry_apply v k)).mp hstub
  -- the structure starts at `edi`, so its `cs` is the saved `eip`, and so on up to `ss`
  have hat : dword (savedCpu k (UInt32.ofNat v)).mem ((savedCpu k (UInt32.ofNat v)).esp + 4) =
      (savedCpu k (UInt32.ofNat v)).esp + 8 := hsaved.tail.1
  rw [hat] at hframe
  have hcs := hframe.cs
  have hflags := hframe.flags
  have hesp := hframe.esp
  have hss := hframe.ss
  unfold InterruptFrame.ofMem at hcs hflags hesp hss
  dsimp only at hcs hflags hesp hss
  rw [UInt32.add_assoc] at hcs hflags hesp hss
  have h11 : dword _ ((savedCpu k (UInt32.ofNat v)).esp + (8 + 36)) = _ := hsaved.get 11 rfl
  have h12 : dword _ ((savedCpu k (UInt32.ofNat v)).esp + (8 + 40)) = _ := hsaved.get 12 rfl
  have h13 : dword _ ((savedCpu k (UInt32.ofNat v)).esp + (8 + 44)) = _ := hsaved.get 13 rfl
  have h14 : dword _ ((savedCpu k (UInt32.ofNat v)).esp + (8 + 48)) = _ := hsaved.get 14 rfl
  rw [h11] at hcs
  rw [h12] at hflags
  rw [h13] at hesp
  rw [h14] at hss
  have hsame : c.cs.toUInt32 = c.ss.toUInt32 := by
    rw [hflags, hesp, hss]
  apply hc.apart
  rw [← selector_roundtrip c.cs, hsame, selector_roundtrip]

theorem Entered.cli {k : Cpu} (h : Entered c k) :
    Entered c { k with eflags := k.eflags &&& ~~~ EFLAGS_IF } := by
  refine ⟨h.stack, ?_, h.eax, h.ecx, h.edx, h.ebx, h.ebp, h.esi, h.edi⟩
  rw [and_cleared_if]
  exact h.nt

/-- What is behind the call of the wrapper, for a variable apart from the frame. -/
theorem total_isr80hExit {k : Cpu} {tmp_res : UInt32} {f : InterruptFrame} {Q : Unit → Cpu → Prop}
    (h : DwordsAt k.mem (k.esp + 8) f.dwords) (h1 : 52 ≤ (tmp_res - (k.esp + 8)).toNat)
    (h2 : (tmp_res - (k.esp + 8)).toNat + 4 ≤ 2 ^ 32) :
    Total (isr80hExit tmp_res) k Q ↔ k.eflags &&& EFLAGS_NT = 0 ∧ f.flags &&& EFLAGS_VM = 0 ∧
      f.cs &&& 3 ≠ 0 ∧ Q () { k with
        edi := f.edi, esi := f.esi, ebp := f.ebp, ebx := f.ebx, edx := f.edx, ecx := f.ecx
        eax := k.eax, eip := f.ip, cs := f.cs.toUInt16, eflags := f.flags, esp := f.esp
        ss := f.ss.toUInt16, mem := setDword k.mem tmp_res k.eax } := by
  have hstored : DwordsAt (setDword k.mem tmp_res k.eax) (k.esp + 8) f.dwords :=
    h.setDword_behind (by simpa [InterruptFrame.dwords] using h1) h2
  unfold isr80hExit
  rw [total_op, total_op]
  dsimp only
  generalize hk1 : ({ k with esp := k.esp + 8, mem := setDword k.mem tmp_res k.eax } : Cpu) = k1
  have hmem : k1.mem = setDword k.mem tmp_res k.eax := by rw [← hk1]
  have hesp : k1.esp = k.esp + 8 := by rw [← hk1]
  rw [← hmem, ← hesp] at hstored
  obtain ⟨esp, hrest, hpopad⟩ := total_popad (Q := Q)
    (g := fun _ => do
      op fun c => { c with eax := dword c.mem tmp_res }
      iretd) hstored
  rw [hpopad, total_op]
  dsimp only
  generalize hk2 : (Cpu.mk _ _ _ _ _ _ _ _ _ _ _ _ _ _ _ _ _) = k2
  have hmem2 : k2.mem = k1.mem := by rw [← hk2]
  have hesp2 : k2.esp = esp := by rw [← hk2]
  have heax : dword k1.mem tmp_res = k.eax := by rw [hmem, dword_setDword]
  rw [← hmem2, ← hesp2] at hrest
  rw [total_iretd hrest, ← hk2, ← hk1]
  dsimp only
  rw [← hk1] at heax
  rw [heax]

theorem wrapper_resumed {k k' : Cpu} (hk : Entered c k) (hc : UserMode c) (hh : Handler handler)
    {next tmp_res r : UInt32} (htmp : (tmp_res - k.esp).toNat + 4 + 40 ≤ 2 ^ 32)
    (hlow : 20 ≤ (tmp_res - k.esp).toNat)
    (hret : handler k.eax ((savedCpu { k with eflags := k.eflags &&& ~~~ EFLAGS_IF } k.eax).esp + 8)
      ((savedCpu { k with eflags := k.eflags &&& ~~~ EFLAGS_IF } k.eax).push next) = some (r, k')) :
    Total (isr80hWrapper next tmp_res handler) k fun _ c' => Resumed c r c' := by
  have happly := isr80hEntry_apply k
  have hk1 := hk.cli
  have hesp : ({ k with eflags := k.eflags &&& ~~~ EFLAGS_IF } : Cpu).esp = k.esp := rfl
  generalize ({ k with eflags := k.eflags &&& ~~~ EFLAGS_IF } : Cpu) = k1 at happly hret hk1 hesp
  obtain ⟨k2, hesp2, heax, hnt, hframe, hcall⟩ := call_handler hh (hk1.saved k.eax)
    (hk1.saved_nt k.eax) hret
  -- where `tmp_res` lies, seen from the frame
  have hfar : (tmp_res - ((savedCpu k1 k.eax).esp + 8)).toNat = (tmp_res - k.esp).toNat + 32 := by
    have h40 := toNat_savedCpu_esp (k := k1) k.eax tmp_res (by rw [hesp]; omega)
    rw [hesp] at h40
    have h8 : (8 : UInt32).toNat = 8 := rfl
    have ht := tmp_res.toNat_lt
    have hs := (savedCpu k1 k.eax).esp.toNat_lt
    rw [UInt32.toNat_sub, UInt32.toNat_add, h8]
    rw [UInt32.toNat_sub] at h40
    omega
  unfold isr80hWrapper
  rw [total_bind_of_some happly, hcall, total_isr80hExit hframe (by rw [hesp2]; omega)
    (by rw [hesp2]; omega), heax]
  exact ⟨hnt, hc.vm, outer_ring hc.cs, hk1.resumed { k2 with mem := setDword k2.mem tmp_res r } r⟩

theorem toNat_interruptCpu_esp (esp0 code a : UInt32) {v : Nat} (c : Cpu)
    (herror : ¬ PushesErrorCode v) (h : (a - esp0).toNat + 20 < 2 ^ 32) :
    (a - (interruptCpu esp0 code v c).esp).toNat = (a - esp0).toNat + 20 := by
  unfold interruptCpu interruptEnter
  rw [if_neg herror]
  exact toNat_esp_pushAll _ [c.ss.toUInt32, c.esp, c.eflags, c.cs.toUInt32, c.eip] a h

/-- **A system call** saves and resumes the state, with the result in `eax`. The variable `tmp_res`
lies apart from the 64 bytes below `esp0`. -/
theorem wrapperResumes (hc : UserMode c) (hh : Handler handler) (next esp0 code : UInt32)
    {tmp_res : UInt32} (htmp : (tmp_res - esp0).toNat + 4 + 64 ≤ 2 ^ 32) :
    WrapperResumes next tmp_res handler esp0 code c := by
  have herror : ¬ PushesErrorCode 0x80 := by decide
  have hk := interruptCpu_entered esp0 code c herror
  have hesp := toNat_interruptCpu_esp esp0 code tmp_res c herror (by omega)
  unfold WrapperResumes
  generalize interruptCpu esp0 code 0x80 c = k at hk hesp ⊢
  obtain ⟨harg, hframe, hsaved⟩ := savedCpu_frame (hk.cli.saved k.eax)
  refine (total_of_some (isr80hEntry_apply k)).mpr ?_
  dsimp only at harg hframe hsaved ⊢
  rw [harg, hframe, hsaved]
  exact ⟨hk.eax, frameOf_savedFrame _ c, fun r k' hret =>
    wrapper_resumed hk hc hh (by omega) (by omega) hret⟩

end Resume

/-- **Interrupts are transparent exactly without an error code**: the handler's frame shows the
interrupted state and `iret` resumes it, with every general register unchanged. For a system call
`eax` carries the result. -/
theorem interrupt_resumes_iff {c : Cpu} (hc : UserMode c)
    {interrupt_handler isr80h_handler : UInt32 → UInt32 → Asm UInt32}
    (hinterrupt : Handler interrupt_handler) (hisr80h : Handler isr80h_handler)
    (next esp0 code : UInt32) {tmp_res : UInt32}
    (htmp : (tmp_res - esp0).toNat + 4 + 64 ≤ 2 ^ 32) (v : Nat) :
    (StubResumes next interrupt_handler esp0 code v c ↔ ¬ PushesErrorCode v) ∧
      WrapperResumes next tmp_res isr80h_handler esp0 code c := by
  refine ⟨⟨fun hstub herror => ?_, fun herror => ?_⟩, ?_⟩
  · exact not_stubResumes hc next esp0 code herror hstub
  · exact stubResumes hc hinterrupt next esp0 code herror
  · exact wrapperResumes hc hisr80h next esp0 code htmp

/-- A program at `0x400000` with its stack below `0x3FF000`. -/
def programCpu : Cpu where
  eax := 1
  ecx := 2
  edx := 3
  ebx := 4
  esp := 0x3FF000
  ebp := 5
  esi := 6
  edi := 7
  eip := 0x400000
  eflags := 0x202
  cs := 0x1B
  ss := 0x23
  ds := 0x23
  es := 0x23
  fs := 0x23
  gs := 0x23
  mem := fun _ => 0

theorem programCpu_userMode : UserMode programCpu := ⟨by decide, by decide, by decide⟩

theorem handler_pure (r : UInt32) : Handler fun _ _ => pure r := by
  intro interrupt frame c r' c' h
  obtain ⟨-, rfl⟩ := pure_eq_some.mp h
  exact ⟨rfl, rfl, rfl, id⟩

/-- A timer interrupt and a system call of the program. -/
theorem interrupt_resumes_timer :
    (StubResumes 0x100200 (fun _ _ => pure 0) 0x600000 0 0x20 programCpu ↔ ¬ PushesErrorCode 0x20) ∧
      WrapperResumes 0x100200 0x108000 (fun _ _ => pure 9) 0x600000 0 programCpu :=
  interrupt_resumes_iff programCpu_userMode (handler_pure 0) (handler_pure 9) 0x100200 0x600000 0
    (by decide) 0x20

/-- A page fault of the program at `0x400000`: the frame's `cs` is the `eip` of the program. -/
theorem interrupt_pageFault_shifted :
    ¬ StubResumes 0x100200 (fun _ _ => pure 0) 0x600000 4 14 programCpu :=
  not_stubResumes programCpu_userMode 0x100200 0x600000 4 (by decide)

end RasOS
