import RasOS.Gdt.Gdt
import RasOS.Idt.Stubs
import RasOS.Lib.Gate

set_option autoImplicit false

/-! # The interrupt descriptor table (`idt/idt.c`)

`idt_init` points the gate of every vector to a stub of `idt.asm`, but for two: that of the system calls, and
vector 0, whose gate points to the C function `idt_zero`. All gates may be used from ring 3.

The processor sees the array `idt_descriptors` as bytes: the structure is packed. -/

namespace RasOS

open Machine

/-! ## The code -/

/-- `struct idt_desc`. -/
structure IdtDesc where
  offset_1 : UInt16 := 0
  selector : UInt16 := 0
  zero : UInt8 := 0
  type_attributes : UInt8 := 0
  offset_2 : UInt16 := 0
  deriving DecidableEq

/-- `struct idtr_desc`. -/
structure IdtrDesc where
  limit : UInt16
  base : UInt32
  deriving DecidableEq

/-- The variables of `idt.c` that describe the table, and the register `lidt` loads. -/
structure IdtTable where
  idt_descriptors : Nat → IdtDesc
  idtr_descriptor : IdtrDesc
  idtr : IdtrDesc

abbrev IdtM := Prog IdtTable

abbrev SIZEOF_IDT_DESC : Nat := 8

/-- The descriptor `idt_set` writes. -/
def IdtDesc.ofAddress (address : UInt32) : IdtDesc where
  offset_1 := (address &&& 0x0000FFFF).toUInt16
  selector := KERNEL_CODE_SELECTOR
  zero := 0x00
  type_attributes := 0xEE
  offset_2 := (address >>> 16).toUInt16

def idtSet (interrupt_number : Nat) (address : UInt32) : IdtM Unit :=
  if interrupt_number < RASOS_TOTAL_INTERRUPTS then
    fun s => some ((), { s with
      idt_descriptors := Function.update s.idt_descriptors interrupt_number (.ofAddress address) })
  else stop

/-- The loop of `idt_init` over the vectors `i`, …, `i + remaining - 1`. -/
def idtInitLoop (interrupt_pointer_table : Nat → UInt32) : (remaining i : Nat) → IdtM Unit
  | 0, _ => pure ()
  | remaining + 1, i => do
      idtSet i (interrupt_pointer_table i)
      idtInitLoop interrupt_pointer_table remaining (i + 1)

/-- `lidt`. -/
def idtLoad : IdtM Unit := fun s => some ((), { s with idtr := s.idtr_descriptor })

/-- `idt_init`; the parameters are the addresses of the array and of the routines. -/
def idtInit (idt_descriptors idt_zero isr80h_wrapper : UInt32) (interrupt_pointer_table : Nat → UInt32) :
    IdtM Unit := do
  fun s => some ((), { s with
    idt_descriptors := fun _ => {}
    idtr_descriptor := {
      limit := UInt16.ofNat (SIZEOF_IDT_DESC * RASOS_TOTAL_INTERRUPTS - 1)
      base := idt_descriptors } })
  idtInitLoop interrupt_pointer_table RASOS_TOTAL_INTERRUPTS 0
  idtSet 0 idt_zero
  idtSet 0x80 isr80h_wrapper
  idtLoad

/-! ## The table in memory -/

/-- The fields of a descriptor in their order. -/
def IdtDesc.bytes (d : IdtDesc) : List UInt8 :=
  gateBytes d.offset_1 d.selector d.zero d.type_attributes d.offset_2

/-- The bytes of the array. -/
def idtBytes (idt_descriptors : Nat → IdtDesc) (q : Nat) : UInt8 :=
  ((idt_descriptors (q / SIZEOF_IDT_DESC)).bytes[q % SIZEOF_IDT_DESC]?).getD 0

theorem slice_idtBytes (idt_descriptors : Nat → IdtDesc) (v : Nat) :
    slice (idtBytes idt_descriptors) (SIZEOF_IDT_DESC * v) SIZEOF_IDT_DESC = (idt_descriptors v).bytes := by
  have hlen : (idt_descriptors v).bytes.length = 8 := rfl
  have hsize : SIZEOF_IDT_DESC = 8 := rfl
  apply List.ext_getElem?
  intro i
  rw [slice_getElem?]
  by_cases hi : i < SIZEOF_IDT_DESC
  · have hdiv : (SIZEOF_IDT_DESC * v + i) / SIZEOF_IDT_DESC = v := by
      rw [hsize] at hi ⊢
      omega
    have hmod : (SIZEOF_IDT_DESC * v + i) % SIZEOF_IDT_DESC = i := by
      rw [hsize] at hi ⊢
      omega
    rw [if_pos hi, idtBytes, hdiv, hmod, List.getElem?_eq_getElem (by omega)]
    rfl
  · rw [if_neg hi, List.getElem?_eq_none (by omega)]

/-- **What `idt_set` writes decodes to the address**: the gate of a handler in the kernel's code segment. -/
theorem gateAt_ofAddress {idt_descriptors : Nat → IdtDesc} {v : Nat} {address : UInt32}
    (h : idt_descriptors v = .ofAddress address) :
    gateAt (idtBytes idt_descriptors) (SIZEOF_IDT_DESC * v) = ⟨address, KERNEL_CODE_SELECTOR, 0xEE⟩ := by
  have hbytes := slice_idtBytes idt_descriptors v
  rw [h] at hbytes
  rw [gateAt_gateBytes hbytes]
  exact congrArg (fun offset => Gate.mk offset KERNEL_CODE_SELECTOR 0xEE) (ofNat_halves address)

/-! ## Filling the table -/

theorem idtSet_spec {v : Nat} (hv : v < RASOS_TOTAL_INTERRUPTS) (address : UInt32) (s : IdtTable) :
    idtSet v address s = some ((), { s with
      idt_descriptors := Function.update s.idt_descriptors v (.ofAddress address) }) := by
  rw [idtSet, if_pos hv]

/-- The vectors the loop has passed have their gates; the others are as they were. -/
theorem idtInitLoop_spec (table : Nat → UInt32) (remaining i : Nat) (s : IdtTable)
    (h : i + remaining ≤ RASOS_TOTAL_INTERRUPTS) :
    idtInitLoop table remaining i s = some ((), { s with
      idt_descriptors := fun v =>
        if i ≤ v ∧ v < i + remaining then .ofAddress (table v) else s.idt_descriptors v }) := by
  induction remaining generalizing i s with
  | zero =>
      have hnone : ∀ v, ¬ (i ≤ v ∧ v < i + 0) := by omega
      simp only [idtInitLoop, pure_apply, hnone, if_false]
  | succ remaining ih =>
      rw [idtInitLoop, bind_of_some (idtSet_spec (by omega) _ s), ih (i + 1) _ (by omega)]
      have hfun : (fun v => if i + 1 ≤ v ∧ v < i + 1 + remaining then IdtDesc.ofAddress (table v)
            else Function.update s.idt_descriptors i (.ofAddress (table i)) v)
          = fun v => if i ≤ v ∧ v < i + (remaining + 1) then IdtDesc.ofAddress (table v)
            else s.idt_descriptors v := by
        funext v
        by_cases hv : v = i
        · rw [hv, if_neg (by omega), Function.update_self, if_pos (by omega)]
        · rw [Function.update_of_ne hv]
          exact if_congr (by omega) rfl rfl
      simp only [hfun]

/-- Where the gate of a vector leads. -/
def vectorAddress (idt_zero isr80h_wrapper : UInt32) (interrupt_pointer_table : Nat → UInt32) (v : Nat) : UInt32 :=
  if v = 0x80 then isr80h_wrapper
  else if v = 0 then idt_zero
  else interrupt_pointer_table v

/-- The gate of such a vector leads to its stub. -/
theorem StubVector.address (v : StubVector) (idt_zero isr80h_wrapper : UInt32) (table : Nat → UInt32) :
    vectorAddress idt_zero isr80h_wrapper table v.vector.toNat = table v.vector.toNat := by
  have h0 : v.vector.toNat ≠ 0 := fun h => v.not_zero (UInt8.toNat_inj.mp h)
  have h80 : v.vector.toNat ≠ 0x80 := fun h => v.not_syscall (UInt8.toNat_inj.mp h)
  rw [vectorAddress, if_neg h80, if_neg h0]

/-- **The table `idt_init` loads**: whatever was in memory, the register holds the address of the array and
the offset of its last byte, and the bytes of each of the 512 gates decode to the routine of its vector. -/
theorem idtInit_gates (idt_descriptors idt_zero isr80h_wrapper : UInt32) (table : Nat → UInt32) (s : IdtTable) :
    Total (idtInit idt_descriptors idt_zero isr80h_wrapper table) s fun _ s' =>
      s'.idtr = ⟨4095, idt_descriptors⟩ ∧
      ∀ v < RASOS_TOTAL_INTERRUPTS, gateAt (idtBytes s'.idt_descriptors) (SIZEOF_IDT_DESC * v) =
        ⟨vectorAddress idt_zero isr80h_wrapper table v, KERNEL_CODE_SELECTOR, 0xEE⟩ := by
  unfold idtInit
  rw [total_bind_of_some rfl, total_bind_of_some (idtInitLoop_spec table _ 0 _ (by decide)),
    total_bind_of_some (idtSet_spec (by decide) _ _), total_bind_of_some (idtSet_spec (by decide) _ _)]
  refine (total_of_some rfl).mpr ⟨rfl, fun v hv => gateAt_ofAddress ?_⟩
  dsimp only
  unfold vectorAddress
  by_cases h80 : v = 0x80
  · rw [h80, Function.update_self, if_pos rfl]
  · rw [Function.update_of_ne h80, if_neg h80]
    by_cases h0 : v = 0
    · rw [h0, Function.update_self, if_pos rfl]
    · rw [Function.update_of_ne h0, if_neg h0, if_pos (by omega)]

/-! ## Software interrupts -/

/-- The tables of the kernel, as the processor sees them. `gdt_load` is given the size of the table for its
limit. -/
def kernelTables (idt : IdtTable) (gdt : Nat → UInt8) : Tables where
  idt := idtBytes idt.idt_descriptors
  idt_limit := idt.idtr.limit.toNat
  gdt := gdt
  gdt_limit := SIZEOF_GDT * RASOS_TOTAL_GDT_SEGMENTS

/-- The kernel has been entered by `int n` from `c`. -/
def intCpu (esp0 : UInt32) (c : Cpu) : Cpu :=
  interruptEnter esp0 KERNEL_DATA_SELECTOR KERNEL_CODE_SELECTOR none c

theorem intCpu_entered (esp0 address : UInt32) (c : Cpu) : Entered c { intCpu esp0 c with eip := address } := by
  have herror : ¬ PushesErrorCode 1 := by decide
  have h := interruptCpu_entered esp0 0 c herror
  have heq : interruptCpu esp0 0 1 c = intCpu esp0 c := by
    rw [interruptCpu, if_neg herror, intCpu]
  rw [heq] at h
  exact ⟨h.stack, h.nt, h.eax, h.ecx, h.edx, h.ebx, h.ebp, h.esi, h.edi⟩

section Int

variable {idt : IdtTable} {gdt : Nat → UInt8} {base idt_zero isr80h_wrapper tss : UInt32} {table : Nat → UInt32}

/-- The tables after `idt_init` and `gdt_structured_to_gdt`. -/
structure TablesLoaded (idt : IdtTable) (gdt : Nat → UInt8) (idt_zero isr80h_wrapper : UInt32)
    (table : Nat → UInt32) : Prop where
  idtr : idt.idtr.limit = 4095
  gates : ∀ v < RASOS_TOTAL_INTERRUPTS, gateAt (idtBytes idt.idt_descriptors) (SIZEOF_IDT_DESC * v) =
    ⟨vectorAddress idt_zero isr80h_wrapper table v, KERNEL_CODE_SELECTOR, 0xEE⟩
  code : (segmentAt gdt (SIZEOF_GDT * 1)).access = 0x9a

/-- The kernel loads its tables at boot, whatever is in memory. -/
theorem tables_loaded (base idt_zero isr80h_wrapper tss : UInt32) (table : Nat → UInt32) (idt : IdtTable)
    (gdt : Nat → UInt8) :
    Total (gdtStructuredToGdt (kernelGdtStructured tss) RASOS_TOTAL_GDT_SEGMENTS) gdt fun _ gdt' =>
      Total (idtInit base idt_zero isr80h_wrapper table) idt fun _ idt' =>
        TablesLoaded idt' gdt' idt_zero isr80h_wrapper table := by
  refine (gdtStructuredToGdt_spec (fun i _ => kernelGdtStructured_admitted tss i) gdt).mono ?_
  intro _ gdt' hentries
  refine (idtInit_gates base idt_zero isr80h_wrapper table idt).mono ?_
  rintro _ idt' ⟨hidtr, hgates⟩
  refine ⟨by rw [hidtr], hgates, ?_⟩
  rw [(hentries 1 (by decide)).decodes]
  rfl

/-- **Every gate is open to programs.** -/
theorem int_enters (h : TablesLoaded idt gdt idt_zero isr80h_wrapper table) {n : Nat} (hn : n < 256) {c : Cpu}
    (hc : UserMode c) (esp0 : UInt32) :
    int (kernelTables idt gdt) esp0 KERNEL_DATA_SELECTOR n c =
      some { intCpu esp0 c with eip := vectorAddress idt_zero isr80h_wrapper table n } := by
  have hgate : gateAt (kernelTables idt gdt).idt (8 * n) = _ := h.gates n (Nat.lt_of_lt_of_le hn (by decide))
  have hlimit : (kernelTables idt gdt).idt_limit = 4095 := by
    show idt.idtr.limit.toNat = 4095
    rw [h.idtr]
    rfl
  have hring : c.cs.toNat % 4 = 3 := by
    have hand : (c.cs &&& 3).toNat = c.cs.toNat % 4 := by
      rw [UInt16.toNat_and]
      exact Nat.and_two_pow_sub_one_eq_mod _ 2
    rw [← hand, hc.cs]
    rfl
  -- 0xEE: present, privilege 3, a gate for interrupts
  have hadmits : (kernelTables idt gdt).Admits 3 n := by
    unfold Tables.Admits
    rw [hgate, hlimit]
    refine ⟨by omega, ?_⟩
    exact (by decide : (Gate.mk 0 KERNEL_CODE_SELECTOR 0xEE).type = Gate.INTERRUPT_GATE ∧
      (Gate.mk 0 KERNEL_CODE_SELECTOR 0xEE).Present ∧ 3 ≤ (Gate.mk 0 KERNEL_CODE_SELECTOR 0xEE).privilege)
  have hcode : (kernelTables idt gdt).EntersRing0 KERNEL_CODE_SELECTOR := by
    refine ⟨by decide, (by decide : 1 * 8 + 7 ≤ SIZEOF_GDT * RASOS_TOTAL_GDT_SEGMENTS), ?_⟩
    have haccess : (segmentAt (kernelTables idt gdt).gdt (KERNEL_CODE_SELECTOR.toNat / 8 * 8)).access = 0x9a :=
      h.code
    rw [haccess]
    decide
  unfold int
  rw [hring, hgate]
  exact if_pos ⟨hadmits, hcode⟩

/-- **A stub can be run by any program.** `int n`, for any vector but that of the system calls and 0, enters
the stub of the vector, which calls the handler as for an interrupt and resumes the program; so it does for
the vectors whose exceptions push an error code, as the instruction pushes none. -/
theorem int_resumes (h : TablesLoaded idt gdt idt_zero isr80h_wrapper table) {n : Nat} (hn : n < 256) (h0 : n ≠ 0)
    (h80 : n ≠ 0x80) {c : Cpu} (hc : UserMode c) {interrupt_handler : UInt32 → UInt32 → Asm UInt32}
    (hh : Handler interrupt_handler) (esp0 next : UInt32) :
    ∃ k, int (kernelTables idt gdt) esp0 KERNEL_DATA_SELECTOR n c = some k ∧ k.eip = table n ∧
      Total (interruptEntry n) k fun _ k1 =>
        let frame := dword k1.mem (k1.esp + 4)
        dword k1.mem k1.esp = UInt32.ofNat n ∧ FrameOf c (InterruptFrame.ofMem k1.mem frame) ∧
        ∀ r k', interrupt_handler (UInt32.ofNat n) frame (k1.push next) = some (r, k') →
          Total (interruptStub next interrupt_handler n) k fun _ c' => Resumed c c.eax c' := by
  refine ⟨_, int_enters h hn hc esp0, ?_, ?_⟩
  · show vectorAddress idt_zero isr80h_wrapper table n = table n
    rw [vectorAddress, if_neg h80, if_neg h0]
  · have hk := intCpu_entered esp0 (vectorAddress idt_zero isr80h_wrapper table n) c
    generalize ({ intCpu esp0 c with eip := _ } : Cpu) = k at hk ⊢
    obtain ⟨harg, hframe, hsaved⟩ := savedCpu_frame (hk.saved (UInt32.ofNat n))
    refine (total_of_some (interruptEntry_apply n k)).mpr ?_
    dsimp only
    rw [harg, hframe, hsaved]
    exact ⟨rfl, frameOf_savedFrame k c, fun r k' hret => stub_resumed hk hc hh hret⟩

/-- The tables of a kernel whose stubs are 16 bytes each, and a program that asks for vector 14. -/
theorem int_resumes_pageFault :
    Total (gdtStructuredToGdt (kernelGdtStructured 0x107000) RASOS_TOTAL_GDT_SEGMENTS) (fun _ => 0) fun _ gdt =>
      Total (idtInit 0x108000 0x100900 0x100800 fun v => 0x101000 + UInt32.ofNat (16 * v))
        ⟨fun _ => {}, ⟨0, 0⟩, ⟨0, 0⟩⟩ fun _ idt =>
          ∃ k, int (kernelTables idt gdt) 0x600000 KERNEL_DATA_SELECTOR 14 programCpu = some k ∧
            k.eip = 0x1010E0 ∧
            Total (interruptStub 0x100200 (fun _ _ => pure 0) 14) k fun _ c' => Resumed programCpu 1 c' := by
  refine (tables_loaded _ _ _ _ _ _ _).mono fun _ gdt hgdt => hgdt.mono fun _ idt htables => ?_
  obtain ⟨k, hint, heip, hentry⟩ := int_resumes (c := programCpu) htables (n := 14) (by decide) (by decide)
    (by decide) programCpu_userMode (handler_pure 0) 0x600000 0x100200
  obtain ⟨_, k1, -, -, -, hreturns⟩ := hentry
  exact ⟨k, hint, heip, hreturns 0 _ rfl⟩

/-! ## Vector 0 -/

/-- A near `ret`. -/
def ret : Asm Unit := do
  let a ← pop
  op fun c => { c with eip := a }

/-- `idt_zero`: the compiler's code for its body, and its `ret`. -/
def idtZero (body : Asm Unit) : Asm Unit := do
  body
  ret

/-- What is known of the code of a C function up to its `ret`: the stack pointer and the return address are
as they were, and the code segment is. -/
def CBody (body : Asm Unit) : Prop :=
  ∀ k u k', body k = some (u, k') → k'.esp = k.esp ∧ dword k'.mem k.esp = dword k.mem k.esp ∧ k'.cs = k.cs

/-- **After vector 0 a program goes on in ring 0.** `idt_zero` is no interrupt routine: its `ret` takes the
interrupted instruction off the stack but not the code segment behind it. -/
theorem idtZero_keeps_ring0 (h : TablesLoaded idt gdt idt_zero isr80h_wrapper table) {c : Cpu} (hc : UserMode c)
    (esp0 : UInt32) {body : Asm Unit} (hbody : CBody body) :
    ∃ k, int (kernelTables idt gdt) esp0 KERNEL_DATA_SELECTOR 0 c = some k ∧ k.eip = idt_zero ∧
      ∀ k', body k = some ((), k') → Total (idtZero body) k fun _ c' =>
        c'.eip = c.eip ∧ c'.cs = KERNEL_CODE_SELECTOR ∧ ¬ UserMode c' := by
  refine ⟨_, int_enters h (by decide) hc esp0, rfl, fun k' hrun => ?_⟩
  have hk := intCpu_entered esp0 (vectorAddress idt_zero isr80h_wrapper table 0) c
  have hcs : (intCpu esp0 c).cs = KERNEL_CODE_SELECTOR := by
    unfold intCpu interruptEnter
    dsimp only
    rw [Cpu.pushAll_eq]
  have hcs' : ({ intCpu esp0 c with eip := vectorAddress idt_zero isr80h_wrapper table 0 } : Cpu).cs =
    KERNEL_CODE_SELECTOR := hcs
  generalize ({ intCpu esp0 c with eip := _ } : Cpu) = k at hk hrun hcs' ⊢
  obtain ⟨hesp, htop, hkept⟩ := hbody k () k' hrun
  have hpop : pop k' = some (c.eip, { k' with esp := k'.esp + 4 }) := by
    unfold pop
    rw [hesp, htop, hk.stack.1]
  unfold idtZero ret
  rw [total_bind_of_some hrun, total_bind_of_some hpop]
  refine (total_of_some rfl).mpr ?_
  -- a near `ret` does not load `cs`
  have hring : k'.cs = KERNEL_CODE_SELECTOR := hkept.trans hcs'
  refine ⟨rfl, hring, fun huser => ?_⟩
  have hthree : k'.cs &&& 3 = 3 := huser.cs
  rw [hring] at hthree
  exact absurd hthree (by decide)

end Int

/-- A program that executes `int 0`; the body of `idt_zero` does nothing. -/
theorem idtZero_keeps_ring0_program :
    Total (gdtStructuredToGdt (kernelGdtStructured 0x107000) RASOS_TOTAL_GDT_SEGMENTS) (fun _ => 0) fun _ gdt =>
      Total (idtInit 0x108000 0x100900 0x100800 fun v => 0x101000 + UInt32.ofNat (16 * v))
        ⟨fun _ => {}, ⟨0, 0⟩, ⟨0, 0⟩⟩ fun _ idt =>
          ∃ k, int (kernelTables idt gdt) 0x600000 KERNEL_DATA_SELECTOR 0 programCpu = some k ∧
            Total (idtZero (pure ())) k fun _ c' => c'.eip = 0x400000 ∧ c'.cs = KERNEL_CODE_SELECTOR := by
  have hbody : CBody (pure ()) := by
    intro k u k' h
    obtain ⟨-, rfl⟩ := pure_eq_some.mp h
    exact ⟨rfl, rfl, rfl⟩
  refine (tables_loaded _ _ _ _ _ _ _).mono fun _ gdt hgdt => hgdt.mono fun _ idt htables => ?_
  obtain ⟨k, hint, -, hrun⟩ := idtZero_keeps_ring0 htables programCpu_userMode 0x600000 hbody
  exact ⟨k, hint, (hrun k rfl).mono fun _ c' h => ⟨h.1, h.2.1⟩⟩

end RasOS
