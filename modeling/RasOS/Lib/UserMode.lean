import RasOS.Lib.Prog
import RasOS.Lib.Word

set_option autoImplicit false

/-! # Programs in assembly

The text of a program is a list of instructions; a label is the index of the instruction behind it. The program
has been loaded somewhere, so that an instruction has an address, which is what `call` pushes and `ret` looks up.
Memory and system calls are those of the system that runs the program. Of the flags only the zero flag is kept. -/

namespace Machine

inductive Instr
  | call (target : Nat)
  | pushEax
  | movEax (v : UInt32)
  | int80
  | addEsp (v : UInt32)
  | jmp (target : Nat)
  | cmpEax (v : UInt32)
  | je (target : Nat)
  | ret
  deriving DecidableEq

/-- The length of the encoding, with short jumps. -/
def Instr.size : Instr → Nat
  | call _ => 5
  | pushEax => 1
  | movEax _ => 5
  | int80 => 2
  | addEsp _ => 3
  | jmp _ => 2
  | cmpEax _ => 3
  | je _ => 2
  | ret => 1

/-- The registers a program uses. -/
structure Regs where
  pc : Nat
  eax : UInt32
  esp : UInt32
  zf : Bool

/-- What a program can do outside of its registers. -/
structure World (σ : Type) where
  load : UInt32 → Prog σ UInt32
  store : UInt32 → UInt32 → Prog σ Unit
  int80 : Regs → Prog σ UInt32

/-- Where instruction `i` lies. -/
def address (code : List Instr) (base : UInt32) (i : Nat) : UInt32 :=
  base + UInt32.ofNat ((code.take i).map Instr.size).sum

/-- The instruction at an address. -/
def instrAt (code : List Instr) (base a : UInt32) : Option Nat :=
  (List.range code.length).find? fun i => address code base i = a

variable {σ : Type}

/-- One instruction. -/
def exec (w : World σ) (code : List Instr) (base : UInt32) (r : Regs) : Instr → Prog σ Regs
  | .call target => do
      w.store (r.esp - 4) (address code base (r.pc + 1))
      return { r with pc := target, esp := r.esp - 4 }
  | .pushEax => do
      w.store (r.esp - 4) r.eax
      return { r with pc := r.pc + 1, esp := r.esp - 4 }
  | .movEax v => return { r with pc := r.pc + 1, eax := v }
  | .int80 => do
      let res ← w.int80 { r with pc := r.pc + 1 }
      return { r with pc := r.pc + 1, eax := res }
  | .addEsp v => return { r with pc := r.pc + 1, esp := r.esp + v, zf := decide (r.esp + v = 0) }
  | .jmp target => return { r with pc := target }
  | .cmpEax v => return { r with pc := r.pc + 1, zf := decide (r.eax = v) }
  | .je target => return { r with pc := if r.zf then target else r.pc + 1 }
  | .ret => do
      let a ← w.load r.esp
      match instrAt code base a with
      | none => stop
      | some i => return { r with pc := i, esp := r.esp + 4 }

/-- The program goes on by an instruction. -/
def programStep (w : World σ) (code : List Instr) (base : UInt32) (r : Regs) : Prog σ Regs :=
  match code[r.pc]? with
  | none => stop
  | some i => exec w code base r i

theorem programStep_of_fetch {w : World σ} {code : List Instr} {base : UInt32} {r : Regs} {i : Instr}
    (h : code[r.pc]? = some i) : programStep w code base r = exec w code base r i := by
  rw [programStep, h]

/-- An instruction is found at its own address when those before it are elsewhere. -/
theorem instrAt_address {code : List Instr} (base : UInt32) {i : Nat} (hi : i < code.length)
    (hbefore : ∀ j < i, UInt32.ofNat ((code.take j).map Instr.size).sum ≠
      UInt32.ofNat ((code.take i).map Instr.size).sum) :
    instrAt code base (address code base i) = some i := by
  rw [instrAt, List.find?_range_eq_some]
  refine ⟨by simp, List.mem_range.mpr hi, fun j hj => ?_⟩
  have hne : address code base j ≠ address code base i :=
    fun heq => hbefore j hj ((UInt32.add_right_inj base).mp heq)
  simp [hne]

end Machine
