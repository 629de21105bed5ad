import RasOS.Lib.Prog

set_option autoImplicit false

/-! # A 32-bit x86 processor

As much of the processor as entering and leaving user mode needs: the registers, the memory as
bytes, the stack and its instructions, and what the hardware does on an interrupt and on `iretd`.
A routine is a `Prog Cpu`. Segments are flat; a selector that is loaded is one the processor
accepts. What arithmetic does to the flags is left out: it is for routines that do not read the
flags behind an instruction of theirs that sets them.

The stack is described by `DwordsAt`: the list of the values found from `esp` on. -/

namespace Machine

/-- The registers and the memory. -/
structure Cpu where
  eax : UInt32
  ecx : UInt32
  edx : UInt32
  ebx : UInt32
  esp : UInt32
  ebp : UInt32
  esi : UInt32
  edi : UInt32
  eip : UInt32
  eflags : UInt32
  cs : UInt16
  ss : UInt16
  ds : UInt16
  es : UInt16
  fs : UInt16
  gs : UInt16
  mem : UInt32 → UInt8

abbrev Asm := Prog Cpu

def EFLAGS_TF : UInt32 := 0x100
def EFLAGS_IF : UInt32 := 0x200
def EFLAGS_NT : UInt32 := 0x4000
def EFLAGS_RF : UInt32 := 0x10000
def EFLAGS_VM : UInt32 := 0x20000

/-- The flags of the last arithmetic instruction: CF, PF, AF, ZF, SF and OF. -/
def EFLAGS_ARITHMETIC : UInt32 := 0x8D5

variable {α : Type}

/-! ## Memory -/

/-- The little-endian value at `a`. -/
def dword (mem : UInt32 → UInt8) (a : UInt32) : UInt32 :=
  UInt32.ofNat ((mem a).toNat + 2 ^ 8 * (mem (a + 1)).toNat + 2 ^ 16 * (mem (a + 2)).toNat +
    2 ^ 24 * (mem (a + 3)).toNat)

/-- `mem` with the value `v` stored at `a`. -/
def setDword (mem : UInt32 → UInt8) (a v : UInt32) : UInt32 → UInt8 := fun x =>
  if (x - a).toNat < 4 then UInt8.ofNat (v.toNat / 2 ^ (8 * (x - a).toNat)) else mem x

/-- The values `l` stand one after the other from `a` on. -/
def DwordsAt (mem : UInt32 → UInt8) : UInt32 → List UInt32 → Prop
  | _, [] => True
  | a, v :: l => dword mem a = v ∧ DwordsAt mem (a + 4) l

theorem dwordsAt_cons {mem : UInt32 → UInt8} {a v : UInt32} {l : List UInt32} :
    DwordsAt mem a (v :: l) ↔ dword mem a = v ∧ DwordsAt mem (a + 4) l := Iff.rfl

theorem DwordsAt.tail {mem : UInt32 → UInt8} {a v : UInt32} {l : List UInt32}
    (h : DwordsAt mem a (v :: l)) : DwordsAt mem (a + 4) l := h.2

instance (mem : UInt32 → UInt8) : (a : UInt32) → (l : List UInt32) → Decidable (DwordsAt mem a l)
  | _, [] => isTrue trivial
  | a, v :: l =>
      have := instDecidableDwordsAt mem (a + 4) l
      inferInstanceAs (Decidable (dword mem a = v ∧ DwordsAt mem (a + 4) l))

/-- The `i`-th of the values. -/
theorem DwordsAt.get {mem : UInt32 → UInt8} {a v : UInt32} {l : List UInt32} (i : Nat)
    (h : DwordsAt mem a l) (hi : l[i]? = some v) : dword mem (a + UInt32.ofNat (4 * i)) = v := by
  induction i generalizing a l with
  | zero =>
      cases l with
      | nil => simp at hi
      | cons w l =>
          obtain rfl : w = v := by simpa using hi
          rw [show UInt32.ofNat (4 * 0) = 0 from rfl, UInt32.add_zero]
          exact h.1
  | succ i ih =>
      cases l with
      | nil => simp at hi
      | cons w l =>
          have hrest := ih h.2 (by simpa using hi)
          have hnext : a + UInt32.ofNat (4 * (i + 1)) = a + 4 + UInt32.ofNat (4 * i) := by
            rw [Nat.mul_add, Nat.add_comm, UInt32.ofNat_add, UInt32.add_assoc]
            rfl
          rw [hnext]
          exact hrest

theorem dword_setDword (mem : UInt32 → UInt8) (a v : UInt32) : dword (setDword mem a v) a = v := by
  have hv := v.toNat_lt
  have h0 : (a - a).toNat = 0 := by rw [UInt32.sub_self]; rfl
  have h1 : (a + 1 - a).toNat = 1 := by rw [UInt32.add_comm, UInt32.add_sub_cancel]; rfl
  have h2 : (a + 2 - a).toNat = 2 := by rw [UInt32.add_comm, UInt32.add_sub_cancel]; rfl
  have h3 : (a + 3 - a).toNat = 3 := by rw [UInt32.add_comm, UInt32.add_sub_cancel]; rfl
  unfold dword setDword
  simp only [h0, h1, h2, h3, Nat.zero_lt_succ, Nat.reduceLT, if_true, UInt8.toNat_ofNat']
  apply UInt32.toNat_inj.mp
  rw [UInt32.toNat_ofNat']
  omega

/-- The distance from one address to another grows with the second. -/
theorem toNat_sub_add {a b i : UInt32} (h : (b - a).toNat + i.toNat < 2 ^ 32) :
    (b + i - a).toNat = (b - a).toNat + i.toNat := by
  have ha := a.toNat_lt
  have hb := b.toNat_lt
  rw [UInt32.toNat_sub] at h ⊢
  rw [UInt32.toNat_sub, UInt32.toNat_add]
  omega

/-- A store leaves the values alone that it does not overlap. -/
theorem dword_setDword_of_apart {mem : UInt32 → UInt8} {a b v : UInt32} (h1 : 4 ≤ (b - a).toNat)
    (h2 : (b - a).toNat + 4 ≤ 2 ^ 32) : dword (setDword mem a v) b = dword mem b := by
  have hbyte : ∀ i : UInt32, i.toNat < 4 → setDword mem a v (b + i) = mem (b + i) := by
    intro i hi
    have hdist : (b + i - a).toNat = (b - a).toNat + i.toNat := toNat_sub_add (by omega)
    unfold setDword
    rw [if_neg (by omega)]
  have h0 := hbyte 0 (by decide)
  rw [UInt32.add_zero] at h0
  unfold dword
  rw [h0, hbyte 1 (by decide), hbyte 2 (by decide), hbyte 3 (by decide)]

theorem DwordsAt.setDword {mem : UInt32 → UInt8} {a v : UInt32} {l : List UInt32} {b : UInt32}
    (h : DwordsAt mem b l) (h1 : 4 ≤ (b - a).toNat)
    (h2 : (b - a).toNat + 4 * l.length ≤ 2 ^ 32) : DwordsAt (setDword mem a v) b l := by
  induction l generalizing b with
  | nil => trivial
  | cons w l ih =>
      obtain ⟨hw, hl⟩ := h
      rw [List.length_cons] at h2
      refine ⟨?_, ?_⟩
      · rw [dword_setDword_of_apart h1 (by omega)]
        exact hw
      · cases l with
        | nil => trivial
        | cons w' l =>
            rw [List.length_cons] at h2
            have hfour : (4 : UInt32).toNat = 4 := rfl
            have hdist : (b + 4 - a).toNat = (b - a).toNat + 4 := toNat_sub_add (by omega)
            exact ih hl (by omega) (by rw [List.length_cons]; omega)

/-! ## Instructions -/

/-- An instruction that only changes registers. -/
def op (f : Cpu → Cpu) : Asm Unit := fun c => some ((), f c)

/-- A register, or a value in memory. -/
def val (f : Cpu → α) : Asm α := fun c => some (f c, c)

/-- The state after `push v`. -/
def Cpu.push (c : Cpu) (v : UInt32) : Cpu :=
  { c with esp := c.esp - 4, mem := setDword c.mem (c.esp - 4) v }

@[simp] theorem Cpu.push_eflags (c : Cpu) (v : UInt32) : (c.push v).eflags = c.eflags := rfl

@[simp] theorem Cpu.push_esp (c : Cpu) (v : UInt32) : (c.push v).esp = c.esp - 4 := rfl

def push (v : UInt32) : Asm Unit := fun c => some ((), c.push v)

/-- `pushf`; the image never shows the flags VM and RF. -/
def pushf : Asm Unit := fun c => some ((), c.push (c.eflags &&& ~~~ (EFLAGS_RF ||| EFLAGS_VM)))

def pop : Asm UInt32 := fun c => some (dword c.mem c.esp, { c with esp := c.esp + 4 })

/-- Several values pushed, the first one first. -/
def Cpu.pushAll (c : Cpu) (vs : List UInt32) : Cpu := vs.foldl Cpu.push c

def pushad : Asm Unit := fun c =>
  some ((), c.pushAll [c.eax, c.ecx, c.edx, c.ebx, c.esp, c.ebp, c.esi, c.edi])

def popad : Asm Unit := do
  let edi ← pop
  let esi ← pop
  let ebp ← pop
  let _ ← pop
  let ebx ← pop
  let edx ← pop
  let ecx ← pop
  let eax ← pop
  op fun c => { c with
    edi := edi, esi := esi, ebp := ebp, ebx := ebx, edx := edx, ecx := ecx, eax := eax }

/-- `call`, with the `ret` that ends the routine. The caller goes on at `next` if that is the
address the `ret` finds. -/
def call (next : UInt32) (routine : Asm α) : Asm α := do
  push next
  let r ← routine
  let a ← pop
  if a = next then return r else stop

/-- A C function of two arguments, as its caller sees it: the arguments lie behind the return
address, the result is left in `eax`. -/
def cdecl (f : UInt32 → UInt32 → Asm UInt32) : Asm UInt32 := do
  let c ← val id
  let r ← f (dword c.mem (c.esp + 4)) (dword c.mem (c.esp + 8))
  op fun c => { c with eax := r }
  return r

/-! ## Privilege -/

/-- `iretd` in ring 0. It goes on for a return to an outer ring; returns within the ring, to
virtual-8086 mode and through a task gate are left out. -/
def iretd : Asm Unit := do
  let c ← val id
  let eip ← pop
  let cs ← pop
  let eflags ← pop
  if c.eflags &&& EFLAGS_NT ≠ 0 ∨ eflags &&& EFLAGS_VM ≠ 0 ∨ cs &&& 3 = 0 then
    stop
  else do
    let esp ← pop
    let ss ← pop
    op fun c => { c with
      eip := eip, cs := cs.toUInt16, eflags := eflags, esp := esp, ss := ss.toUInt16 }

/-- The hardware on an interrupt in an outer ring: the stack of ring 0 at `esp0`, the state that is
interrupted on it, with an error code for some of the vectors, and the code segment of ring 0. -/
def interruptEnter (esp0 : UInt32) (ss0 cs0 : UInt16) (error : Option UInt32) (c : Cpu) : Cpu :=
  let masked := EFLAGS_TF ||| EFLAGS_IF ||| EFLAGS_NT ||| EFLAGS_RF ||| EFLAGS_VM
  let k := { c with esp := esp0, ss := ss0, cs := cs0, eflags := c.eflags &&& ~~~ masked }
  k.pushAll ([c.ss.toUInt32, c.esp, c.eflags, c.cs.toUInt32, c.eip] ++ error.toList)

/-- A state of a program in ring 3. A code segment is never a stack segment. -/
structure UserMode (c : Cpu) : Prop where
  cs : c.cs &&& 3 = 3
  vm : c.eflags &&& EFLAGS_VM = 0
  apart : c.cs ≠ c.ss

/-! ## The stack as a list -/

theorem toNat_esp_push (c : Cpu) (v a : UInt32) (h : (a - c.esp).toNat + 4 < 2 ^ 32) :
    (a - (c.push v).esp).toNat = (a - c.esp).toNat + 4 := by
  have ha := a.toNat_lt
  have hc := c.esp.toNat_lt
  have hfour : (4 : UInt32).toNat = 4 := rfl
  rw [UInt32.toNat_sub] at h ⊢
  rw [UInt32.toNat_sub, Cpu.push, UInt32.toNat_sub, hfour]
  omega

/-- Values that end `n` bytes below the stack pointer or earlier, seen around the address space:
`n` bytes can be pushed without touching them. -/
def Clear (c : Cpu) (n : Nat) (a : UInt32) (l : List UInt32) : Prop :=
  (a - c.esp).toNat + 4 * l.length + n ≤ 2 ^ 32

instance (c : Cpu) (n : Nat) (a : UInt32) (l : List UInt32) : Decidable (Clear c n a l) :=
  inferInstanceAs (Decidable (_ ≤ _))

/-- A push leaves alone what is clear of the stack. -/
theorem DwordsAt.push_clear {c : Cpu} {n : Nat} {a : UInt32} {w : UInt32} {l : List UInt32}
    (v : UInt32) (h : DwordsAt c.mem a (w :: l)) (hclear : Clear c (n + 4) a (w :: l)) :
    DwordsAt (c.push v).mem a (w :: l) := by
  unfold Clear at hclear
  have hlen : (w :: l).length = l.length + 1 := rfl
  have hdist := toNat_esp_push c v a (by omega)
  exact h.setDword (by rw [show c.esp - 4 = (c.push v).esp from rfl]; omega)
    (by rw [show c.esp - 4 = (c.push v).esp from rfl]; omega)

/-- The pushed value is the first one on the stack. -/
theorem DwordsAt.push {c : Cpu} {l : List UInt32} (v : UInt32) (h : DwordsAt c.mem c.esp l)
    (hroom : 4 + 4 * l.length ≤ 2 ^ 32) : DwordsAt (c.push v).mem (c.push v).esp (v :: l) := by
  have hnext : (c.push v).esp + 4 = c.esp := UInt32.sub_add_cancel ..
  have hself : (c.esp - c.esp).toNat = 0 := by
    rw [UInt32.sub_self]
    rfl
  have hdist := toNat_esp_push c v c.esp (by omega)
  refine ⟨dword_setDword _ _ _, ?_⟩
  rw [hnext]
  exact h.setDword (by rw [show c.esp - 4 = (c.push v).esp from rfl]; omega)
    (by rw [show c.esp - 4 = (c.push v).esp from rfl]; omega)

/-- Of the registers pushing changes the stack pointer only. -/
theorem Cpu.pushAll_eq (c : Cpu) (vs : List UInt32) :
    c.pushAll vs = { c with esp := (c.pushAll vs).esp, mem := (c.pushAll vs).mem } := by
  induction vs generalizing c with
  | nil => rfl
  | cons v vs ih => exact ih (c.push v)

theorem DwordsAt.pushAll {c : Cpu} {l : List UInt32} (vs : List UInt32)
    (h : DwordsAt c.mem c.esp l) (hroom : 4 * vs.length + 4 * l.length ≤ 2 ^ 32) :
    DwordsAt (c.pushAll vs).mem (c.pushAll vs).esp (vs.reverse ++ l) := by
  induction vs generalizing c l with
  | nil => exact h
  | cons v vs ih =>
      rw [List.length_cons] at hroom
      have hrest := ih (h.push v (by omega)) (by rw [List.length_cons]; omega)
      rw [List.reverse_cons, List.append_assoc]
      exact hrest

theorem toNat_esp_pushAll (c : Cpu) (vs : List UInt32) (a : UInt32)
    (h : (a - c.esp).toNat + 4 * vs.length < 2 ^ 32) :
    (a - (c.pushAll vs).esp).toNat = (a - c.esp).toNat + 4 * vs.length := by
  induction vs generalizing c with
  | nil => rfl
  | cons v vs ih =>
      rw [List.length_cons] at h ⊢
      have hpush := toNat_esp_push c v a (by omega)
      have hrest := ih (c.push v) (by omega)
      rw [show c.pushAll (v :: vs) = (c.push v).pushAll vs from rfl, hrest, hpush]
      omega

/-- A store behind the stack leaves it alone. -/
theorem DwordsAt.setDword_behind {mem : UInt32 → UInt8} {a b v : UInt32} {l : List UInt32}
    (h : DwordsAt mem b l) (h1 : 4 * l.length ≤ (a - b).toNat) (h2 : (a - b).toNat + 4 ≤ 2 ^ 32) :
    DwordsAt (Machine.setDword mem a v) b l := by
  cases l with
  | nil => trivial
  | cons w l =>
      rw [List.length_cons] at h1
      have hback : (b - a).toNat = 2 ^ 32 - (a - b).toNat := by
        have ha := a.toNat_lt
        have hb := b.toNat_lt
        rw [UInt32.toNat_sub] at h1 h2 ⊢
        rw [UInt32.toNat_sub]
        omega
      exact h.setDword (by omega) (by rw [List.length_cons]; omega)

/-! ## Running a routine -/

section Run

variable {β : Type} {c : Cpu} {Q : β → Cpu → Prop}

theorem total_op {f : Cpu → Cpu} {g : Unit → Asm β} :
    Total (op f >>= g) c Q ↔ Total (g ()) (f c) Q :=
  total_bind_of_some rfl

theorem total_val {f : Cpu → α} {g : α → Asm β} : Total (val f >>= g) c Q ↔ Total (g (f c)) c Q :=
  total_bind_of_some rfl

theorem total_push {v : UInt32} {g : Unit → Asm β} :
    Total (push v >>= g) c Q ↔ Total (g ()) (c.push v) Q :=
  total_bind_of_some rfl

theorem total_pop {a v : UInt32} {l : List UInt32} {g : UInt32 → Asm β}
    (h : DwordsAt c.mem a (v :: l)) :
    Total (pop >>= g) { c with esp := a } Q ↔ Total (g v) { c with esp := a + 4 } Q := by
  have hpop : pop { c with esp := a } = some (v, { c with esp := a + 4 }) := by
    rw [← h.1]
    rfl
  exact total_bind_of_some hpop

end Run

/-- `popad` takes the general registers from the stack; the slot of `esp` is skipped. -/
theorem total_popad {α : Type} {c : Cpu} {edi esi ebp slot ebx edx ecx eax : UInt32}
    {l : List UInt32} {g : Unit → Asm α} {Q : α → Cpu → Prop}
    (h : DwordsAt c.mem c.esp (edi :: esi :: ebp :: slot :: ebx :: edx :: ecx :: eax :: l)) :
    ∃ esp, DwordsAt c.mem esp l ∧ (Total (popad >>= g) c Q ↔ Total (g ()) { c with
      edi := edi, esi := esi, ebp := ebp, ebx := ebx, edx := edx, ecx := ecx, eax := eax
      esp := esp } Q) := by
  have h1 := h.tail
  have h2 := h1.tail
  have h3 := h2.tail
  have h4 := h3.tail
  have h5 := h4.tail
  have h6 := h5.tail
  have h7 := h6.tail
  refine ⟨_, h7.tail, ?_⟩
  unfold popad
  simp only [bind_assoc]
  rw [total_pop h, total_pop h1, total_pop h2, total_pop h3, total_pop h4, total_pop h5,
    total_pop h6, total_pop h7, total_op]

/-- `iretd` to an outer ring resumes the state on the stack. -/
theorem total_iretd {c : Cpu} {eip cs eflags esp ss : UInt32} {l : List UInt32}
    {Q : Unit → Cpu → Prop} (h : DwordsAt c.mem c.esp (eip :: cs :: eflags :: esp :: ss :: l)) :
    Total iretd c Q ↔ c.eflags &&& EFLAGS_NT = 0 ∧ eflags &&& EFLAGS_VM = 0 ∧ cs &&& 3 ≠ 0 ∧
      Q () { c with
        eip := eip, cs := cs.toUInt16, eflags := eflags, esp := esp, ss := ss.toUInt16 } := by
  have h1 := h.tail
  have h2 := h1.tail
  have h3 := h2.tail
  have h4 := h3.tail
  unfold iretd
  rw [total_val]
  rw [total_pop h, total_pop h1, total_pop h2]
  dsimp only [id]
  by_cases hleave : c.eflags &&& EFLAGS_NT ≠ 0 ∨ eflags &&& EFLAGS_VM ≠ 0 ∨ cs &&& 3 = 0
  · rw [if_pos hleave]
    refine iff_of_false not_total_stop ?_
    rintro ⟨hnt, hvm, hcs, -⟩
    rcases hleave with h' | h' | h'
    · exact h' hnt
    · exact h' hvm
    · exact hcs h'
  · rw [if_neg hleave, total_pop h3, total_pop h4]
    have hstay : c.eflags &&& EFLAGS_NT = 0 ∧ eflags &&& EFLAGS_VM = 0 ∧ cs &&& 3 ≠ 0 := by
      refine ⟨?_, ?_, ?_⟩
      · by_contra h'
        exact hleave (Or.inl h')
      · by_contra h'
        exact hleave (Or.inr (Or.inl h'))
      · exact fun h' => hleave (Or.inr (Or.inr h'))
    obtain ⟨hnt, hvm, hcs⟩ := hstay
    constructor
    · intro hQ
      exact ⟨hnt, hvm, hcs, (total_of_some rfl).mp hQ⟩
    · rintro ⟨-, -, -, hQ⟩
      exact (total_of_some rfl).mpr hQ

end Machine
