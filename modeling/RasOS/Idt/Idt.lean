import RasOS.Config
import RasOS.Lib.X86

set_option autoImplicit false

/-! # Interrupt entry (`idt/idt.asm`, `idt/idt.h`, `idt/idt.c`)

The C handlers `interrupt_handler` and `isr80h_handler` are parameters of the assembly here: the
compiler's code for them is a function of the number and of the address of the frame. -/

namespace RasOS

open Machine

/-- `struct interrupt_frame`. -/
structure InterruptFrame where
  edi : UInt32
  esi : UInt32
  ebp : UInt32
  reserved : UInt32
  ebx : UInt32
  edx : UInt32
  ecx : UInt32
  eax : UInt32
  ip : UInt32
  cs : UInt32
  flags : UInt32
  esp : UInt32
  ss : UInt32
  deriving DecidableEq

/-- The layout of `struct interrupt_frame`: its fields by their offsets. -/
def InterruptFrame.ofMem (mem : UInt32 → UInt8) (frame : UInt32) : InterruptFrame where
  edi := dword mem frame
  esi := dword mem (frame + 4)
  ebp := dword mem (frame + 8)
  reserved := dword mem (frame + 12)
  ebx := dword mem (frame + 16)
  edx := dword mem (frame + 20)
  ecx := dword mem (frame + 24)
  eax := dword mem (frame + 28)
  ip := dword mem (frame + 32)
  cs := dword mem (frame + 36)
  flags := dword mem (frame + 40)
  esp := dword mem (frame + 44)
  ss := dword mem (frame + 48)

/-- The fields in their order. -/
def InterruptFrame.dwords (f : InterruptFrame) : List UInt32 :=
  [f.edi, f.esi, f.ebp, f.reserved, f.ebx, f.edx, f.ecx, f.eax, f.ip, f.cs, f.flags, f.esp, f.ss]

/-! ## The macro `interrupt` -/

/-- What the macro puts before its call, for the vector `v`. -/
def interruptEntry (v : Nat) : Asm Unit := do
  pushad
  let esp ← val Cpu.esp
  push esp
  push (UInt32.ofNat v)

/-- What it puts behind the call. -/
def interruptExit : Asm Unit := do
  op fun c => { c with esp := c.esp + 8 }
  popad
  iretd

/-- `int%1`; `next` is the address behind the call. -/
def interruptStub (next : UInt32) (interrupt_handler : UInt32 → UInt32 → Asm UInt32) (v : Nat) :
    Asm Unit := do
  interruptEntry v
  let _ ← call next (cdecl interrupt_handler)
  interruptExit

/-! ## `isr80h_wrapper` -/

def isr80hEntry : Asm Unit := do
  op fun c => { c with eflags := c.eflags &&& ~~~ EFLAGS_IF } -- cli
  pushad
  let esp ← val Cpu.esp
  push esp
  let eax ← val Cpu.eax
  push eax

/-- `tmp_res` is the address of the variable in the data section. -/
def isr80hExit (tmp_res : UInt32) : Asm Unit := do
  op fun c => { c with mem := setDword c.mem tmp_res c.eax }
  op fun c => { c with esp := c.esp + 8 }
  popad
  op fun c => { c with eax := dword c.mem tmp_res }
  iretd

def isr80hWrapper (next tmp_res : UInt32) (isr80h_handler : UInt32 → UInt32 → Asm UInt32) :
    Asm Unit := do
  isr80hEntry
  let _ ← call next (cdecl isr80h_handler)
  isr80hExit tmp_res

/-! ## Vectors -/

/-- The rule of the processor: the exceptions that push an error code. -/
def PushesErrorCode (v : Nat) : Prop := v = 8 ∨ (10 ≤ v ∧ v ≤ 14) ∨ v = 17

instance (v : Nat) : Decidable (PushesErrorCode v) :=
  inferInstanceAs (Decidable (_ ∨ _ ∨ _))

/-- A vector whose gate leads to a stub of the macro: `idt_init` points that of vector 0 to `idt_zero` and that of
`0x80` to `isr80h_wrapper`. -/
structure StubVector where
  vector : UInt8
  not_zero : vector ≠ 0
  not_syscall : vector ≠ 0x80
  deriving DecidableEq

/-- The timer's. -/
def StubVector.timer : StubVector := ⟨0x20, by decide, by decide⟩

/-- The keyboard's. -/
def StubVector.keyboard : StubVector := ⟨0x21, by decide, by decide⟩

/-- The processor enters vector `v`: with the error code `code` where the vector has one. -/
def interruptCpu (esp0 code : UInt32) (v : Nat) (c : Cpu) : Cpu :=
  interruptEnter esp0 KERNEL_DATA_SELECTOR KERNEL_CODE_SELECTOR
    (if PushesErrorCode v then some code else none) c

end RasOS
