import RasOS.Fs.Footprint
import RasOS.Memory.Lent
import RasOS.Task.Process

set_option autoImplicit false

/-! # Loading and the heap

Mapping and linking leave the heap alone. Whatever else the kernel allocates and frees while it loads a process, each
entry of the heap table that does not say that its block is taken says that it is free, and nothing else. -/

namespace RasOS

open Machine

/-! ## Code that leaves the heap alone -/

section SameHeap

variable {α β : Type}

/-- The heap is as it was. -/
def SameHeap (s s' : Kernel) : Prop := s'.heap = s.heap

theorem sameHeap_frame : Frame SameHeap where
  refl := fun _ => rfl
  trans := fun h h' => Eq.trans h' h

theorem sameHeap_pure (a : α) : Keeps SameHeap (pure a : KernelM α) := Keeps.pure sameHeap_frame a

theorem sameHeap_bind {x : KernelM α} {f : α → KernelM β} (hx : Keeps SameHeap x) (hf : ∀ a, Keeps SameHeap (f a)) :
    Keeps SameHeap (x >>= f) := Keeps.bind sameHeap_frame hx hf

theorem sameHeap_load (k : Kind Obj α) (ptr : UInt32) : Keeps SameHeap (load k ptr) := by
  intro s a s' h
  obtain ⟨-, rfl⟩ := load_eq_some.mp h
  rfl

theorem sameHeap_store (k : Kind Obj α) (ptr : UInt32) (a : α) : Keeps SameHeap (store k ptr a) := by
  intro s u s' h
  obtain ⟨-, rfl⟩ := store_eq_some.mp h
  rfl

theorem sameHeap_fetch (f : Kernel → α) : Keeps SameHeap (fetch f) := by
  intro s a s' h
  obtain ⟨-, rfl⟩ := Prod.mk.inj (Option.some.inj h)
  rfl

theorem sameHeap_assign {f : Kernel → Kernel} (hf : ∀ s, (f s).heap = s.heap) : Keeps SameHeap (assign f) := by
  intro s u s' h
  obtain ⟨-, rfl⟩ := Prod.mk.inj (Option.some.inj h)
  exact hf s

theorem sameHeap_elfHeader (elf_file : UInt32) : Keeps SameHeap (elfHeader elf_file) :=
  sameHeap_bind (sameHeap_load _ _) fun _ => Keeps.ite Keeps.stop (sameHeap_fetch _)

/-! ### Tasks -/

theorem sameHeap_taskInitRegisters (task process : UInt32) : Keeps SameHeap (taskInitRegisters task process) := by
  have hentry : ∀ p, Keeps SameHeap (taskEntry p) := fun p =>
    Keeps.ite (sameHeap_bind (sameHeap_elfHeader _) fun _ => sameHeap_pure _) (sameHeap_pure _)
  refine sameHeap_bind (sameHeap_load _ _) fun p => sameHeap_bind (hentry p) fun ip => ?_
  refine sameHeap_bind (sameHeap_load _ _) fun t => sameHeap_bind (sameHeap_store _ _ _) fun _ => ?_
  exact sameHeap_pure _

theorem sameHeap_taskAppend (task : UInt32) : Keeps SameHeap (taskAppend task) := by
  refine sameHeap_bind (sameHeap_fetch _) fun head => Keeps.ite ?_ ?_
  · exact sameHeap_bind (sameHeap_assign fun _ => rfl) fun _ => sameHeap_pure _
  refine sameHeap_bind (sameHeap_fetch _) fun tail => sameHeap_bind (sameHeap_load _ _) fun last => ?_
  refine sameHeap_bind (sameHeap_store _ _ _) fun _ => sameHeap_bind (sameHeap_load _ _) fun t => ?_
  refine sameHeap_bind (sameHeap_store _ _ _) fun _ => sameHeap_bind (sameHeap_assign fun _ => rfl) fun _ => ?_
  exact sameHeap_pure _

theorem sameHeap_taskListRemove (task : UInt32) : Keeps SameHeap (taskListRemove task) := by
  have hnext : Keeps SameHeap taskGetNext := by
    refine sameHeap_bind (sameHeap_fetch _) fun current => sameHeap_bind (sameHeap_load _ _) fun t => ?_
    exact Keeps.ite (sameHeap_fetch _) (sameHeap_pure _)
  have hunlink : Keeps SameHeap (taskUnlink task) := by
    refine sameHeap_bind (sameHeap_load _ _) fun t => sameHeap_bind (sameHeap_fetch _) fun head => ?_
    refine Keeps.ite (sameHeap_bind (sameHeap_load _ _) fun p => sameHeap_store _ _ _) ?_
    exact Keeps.ite (sameHeap_assign fun _ => rfl) (sameHeap_pure _)
  refine sameHeap_bind hunlink fun _ => sameHeap_bind (sameHeap_fetch _) fun current => Keeps.ite ?_ (sameHeap_pure _)
  exact sameHeap_bind hnext fun _ => sameHeap_assign fun _ => rfl

/-! ### Mapping -/

theorem sameHeap_pagingMapTo (directory virt phys phys_end flags : UInt32) :
    Keeps SameHeap (pagingMapTo directory virt phys phys_end flags) := by
  have hmap : ∀ virt phys, Keeps SameHeap (pagingMap directory virt phys flags) := by
    intro virt phys
    refine Keeps.ite (sameHeap_pure _) (sameHeap_bind (sameHeap_load _ _) fun directory_entry => ?_)
    refine Keeps.ite (sameHeap_pure _) (sameHeap_bind (sameHeap_load _ _) fun entries => ?_)
    refine sameHeap_bind (sameHeap_load _ _) fun table => sameHeap_bind (sameHeap_store _ _ _) fun _ => ?_
    exact sameHeap_pure _
  have hrange : ∀ (count : Nat) (virt phys : UInt32) (res : Int),
      Keeps SameHeap (pagingMapRange directory count virt phys flags res) := by
    intro count
    induction count with
    | zero => exact fun _ _ _ => sameHeap_pure _
    | succ count ih =>
        intro virt phys res
        exact sameHeap_bind (hmap _ _) fun res => Keeps.ite (sameHeap_pure _) (ih _ _ _)
  refine Keeps.ite (sameHeap_pure _) (Keeps.ite (sameHeap_pure _) (Keeps.ite (sameHeap_pure _) ?_))
  exact Keeps.ite (sameHeap_pure _) (hrange _ _ _ _)

theorem sameHeap_processMapMemory (process : UInt32) : Keeps SameHeap (processMapMemory process) := by
  have hloop : ∀ (directory elf_memory : UInt32) (header : ElfHeader) (remaining i : Nat) (res : Int),
      Keeps SameHeap (processMapElfLoop directory elf_memory header remaining i res) := by
    intro directory elf_memory header remaining
    induction remaining with
    | zero => exact fun _ _ => sameHeap_pure _
    | succ remaining ih =>
        intro i res
        refine sameHeap_bind (sameHeap_fetch _) fun phdr => sameHeap_bind (sameHeap_pagingMapTo _ _ _ _ _) ?_
        exact fun res => Keeps.ite (sameHeap_pure _) (ih _ _)
  refine sameHeap_bind (sameHeap_load _ _) fun p => Keeps.ite ?_ (Keeps.ite ?_ Keeps.stop)
  · refine sameHeap_bind (sameHeap_load _ _) fun p => sameHeap_bind (sameHeap_elfHeader _) fun header => ?_
    refine sameHeap_bind (sameHeap_load _ _) fun file => Keeps.ite (sameHeap_pure _) ?_
    exact sameHeap_bind (sameHeap_load _ _) fun t => hloop _ _ _ _ _ _
  · refine sameHeap_bind (sameHeap_load _ _) fun p => sameHeap_bind (sameHeap_load _ _) fun t => ?_
    exact sameHeap_bind (sameHeap_pagingMapTo _ _ _ _ _) fun _ => sameHeap_pure _

end SameHeap

/-! ## The heap stays clean -/

section Clean

variable {α β : Type}

theorem CleanHeap.malloc {heap : Heap} (h : CleanHeap heap) (size : UInt32) : CleanHeap (heapMalloc heap size).2 := by
  show CleanHeap (heapMallocBlocks heap (heapSizeCeiling size / 4096)).2
  generalize heapSizeCeiling size / 4096 = total_blocks
  unfold heapMallocBlocks
  dsimp only
  generalize heapGetStartBlock heap total_blocks = start
  by_cases hneg : start < 0
  · rw [if_pos hneg]
    exact h
  · rw [if_neg hneg]
    obtain ⟨b, rfl⟩ := Int.eq_ofNat_of_zero_le (not_lt.mp hneg)
    intro i hi hfree
    dsimp only at hfree ⊢
    rw [heapMarkBlocksTaken_entries] at hfree ⊢
    split at hfree
    · rw [takenEntry_taken] at hfree
      cases hfree
    · rename_i hout
      rw [if_neg hout]
      exact h i hi hfree

/-- Whatever is freed. -/
theorem CleanHeap.free {heap : Heap} (h : CleanHeap heap) (ptr : UInt32) : CleanHeap (heapFree heap ptr) := by
  intro i hi hfree
  unfold heapFree at hfree ⊢
  rw [heapMarkBlocksFree_entries] at hfree ⊢
  split at hfree
  · rename_i hlt
    rw [if_pos hlt]
    by_cases hib : (i : Int) = heapAddressToBlock heap ptr
    · rw [hib, Function.update_self]
    · rw [Function.update_of_ne hib] at hfree ⊢
      exact h i hi hfree
  · rename_i hge
    rw [if_neg hge]
    exact h i hi hfree

/-- A clean heap stays one. -/
def KeepsClean (s s' : Kernel) : Prop := CleanHeap s.heap → CleanHeap s'.heap

theorem keepsClean_frame : Frame KeepsClean where
  refl := fun _ h => h
  trans := fun h h' hclean => h' (h hclean)

theorem keepsClean_of_sameHeap {x : KernelM α} (hx : Keeps SameHeap x) : Keeps KeepsClean x := by
  intro s a s' h hclean
  rw [show s'.heap = s.heap from hx s a s' h]
  exact hclean

theorem keepsClean_kzalloc (k : Kind Obj α) (size : UInt32) (zero : α) : Keeps KeepsClean (kzalloc k size zero) := by
  intro s ptr s' h hclean
  obtain ⟨-, rfl⟩ := Prod.mk.inj (Option.some.inj h)
  exact hclean.malloc size

theorem keepsClean_kfree (k : Kind Obj α) (ptr : UInt32) : Keeps KeepsClean (kfree k ptr) := by
  intro s u s' h hclean
  obtain ⟨-, rfl⟩ := kfree_eq_some.mp h
  exact hclean.free ptr

theorem keepsClean_store (k : Kind Obj α) (ptr : UInt32) (a : α) : Keeps KeepsClean (store k ptr a) :=
  keepsClean_of_sameHeap (sameHeap_store k ptr a)

theorem keepsClean_storeUnchecked (k : Kind Obj α) (ptr : UInt32) (a : α) :
    Keeps KeepsClean (storeUnchecked k ptr a) :=
  Keeps.ite (Keeps.pure keepsClean_frame _) (keepsClean_store k ptr a)

theorem keepsClean_assign {f : Kernel → Kernel} (hf : ∀ s, (f s).heap = s.heap) : Keeps KeepsClean (assign f) :=
  keepsClean_of_sameHeap (sameHeap_assign hf)

theorem keepsClean_rules : FileRules KeepsClean where
  frame := keepsClean_frame
  alloc := fun k _ size zero => keepsClean_kzalloc k size zero
  put := fun k _ ptr a => keepsClean_store k ptr a
  free := fun k _ ptr => keepsClean_kfree k ptr
  freeNull := by
    intro s u s' h hclean
    obtain ⟨-, rfl⟩ := Prod.mk.inj (Option.some.inj h)
    exact hclean.free 0
  seek := fun stream st => keepsClean_store diskStreamK stream st
  sector := fun lba => keepsClean_of_sameHeap fun s r s' h => by rw [SameHeap, diskReadBlock_state h]
  slot := fun i desc => keepsClean_assign fun _ => rfl

theorem keepsClean_memWrite (out : UInt32) (bytes : List UInt8) : Keeps KeepsClean (memWrite out bytes) :=
  Keeps.ite Keeps.stop (keepsClean_assign fun _ => rfl)

theorem keepsClean_load (k : Kind Obj α) (ptr : UInt32) : Keeps KeepsClean (load k ptr) :=
  keepsClean_rules.load k ptr

theorem keepsClean_fetch (f : Kernel → α) : Keeps KeepsClean (fetch f) := keepsClean_rules.fetch f

theorem keepsClean_pure (a : α) : Keeps KeepsClean (pure a : KernelM α) := Keeps.pure keepsClean_frame a

theorem keepsClean_bind {x : KernelM α} {f : α → KernelM β} (hx : Keeps KeepsClean x)
    (hf : ∀ a, Keeps KeepsClean (f a)) : Keeps KeepsClean (x >>= f) := Keeps.bind keepsClean_frame hx hf

theorem keepsClean_kzallocBytes (size : UInt32) : Keeps KeepsClean (kzallocBytes size) := by
  refine keepsClean_bind (keepsClean_kzalloc rawK size ()) fun ptr => Keeps.ite (keepsClean_pure _) ?_
  exact keepsClean_bind (keepsClean_memWrite _ _) fun _ => keepsClean_pure _

theorem keepsClean_elfLoad (filename : List UInt8) : Keeps KeepsClean (elfLoad filename) := by
  have hR := keepsClean_rules
  have hprocess : ∀ elf, Keeps KeepsClean (elfProcessLoaded elf) := by
    intro elf
    refine keepsClean_bind (keepsClean_of_sameHeap (sameHeap_elfHeader elf)) fun header => ?_
    refine Keeps.ite (keepsClean_pure _) ?_
    refine keepsClean_bind (keepsClean_of_sameHeap (sameHeap_elfHeader elf)) fun header => ?_
    refine keepsClean_bind (keepsClean_load _ _) fun file => ?_
    refine keepsClean_bind (keepsClean_fetch _) fun mem => keepsClean_bind (keepsClean_store _ _ _) fun _ => ?_
    exact keepsClean_pure _
  refine keepsClean_bind (keepsClean_kzalloc _ _ _) fun elf => keepsClean_bind (hR.fopen _ _) fun fd => ?_
  refine Keeps.ite (keepsClean_bind (hR.fclose _) fun _ => keepsClean_pure _) ?_
  refine keepsClean_bind (keepsClean_bind (hR.fstat fd) ?_) fun res => ?_
  · rintro ⟨res, stat⟩
    refine Keeps.ite (keepsClean_pure _) (keepsClean_bind (keepsClean_kzallocBytes _) fun elf_memory => ?_)
    refine keepsClean_bind (keepsClean_load _ _) fun file => keepsClean_bind (keepsClean_store _ _ _) fun _ => ?_
    refine keepsClean_bind (hR.fread keepsClean_memWrite _ _ _ _) fun res => ?_
    exact Keeps.ite (keepsClean_pure _) (hprocess elf)
  · refine keepsClean_bind (hR.fclose _) fun _ => ?_
    exact Keeps.ite (keepsClean_pure _) (keepsClean_pure _)

theorem keepsClean_processLoadData (filename : List UInt8) (process : UInt32) :
    Keeps KeepsClean (processLoadData filename process) := by
  have hR := keepsClean_rules
  refine keepsClean_bind (keepsClean_bind (keepsClean_elfLoad filename) ?_) fun res => ?_
  · rintro ⟨res, file_out⟩
    refine Keeps.ite (keepsClean_pure _) (keepsClean_bind (keepsClean_load _ _) fun p => ?_)
    exact keepsClean_bind (keepsClean_store _ _ _) fun _ => keepsClean_pure _
  refine Keeps.ite ?_ (keepsClean_pure _)
  refine keepsClean_bind (hR.fopen _ _) fun fd => Keeps.ite (keepsClean_pure _) ?_
  refine keepsClean_bind (hR.fstat fd) ?_
  rintro ⟨res, stat⟩
  refine Keeps.ite (keepsClean_pure _) (keepsClean_bind (keepsClean_kzallocBytes _) fun ptr => ?_)
  refine Keeps.ite (keepsClean_pure _) (keepsClean_bind (hR.fread keepsClean_memWrite _ _ _ _) fun res => ?_)
  refine Keeps.ite (keepsClean_pure _) (keepsClean_bind (keepsClean_load _ _) fun p => ?_)
  exact keepsClean_bind (keepsClean_store _ _ _) fun _ => hR.fclose fd

/-! ### Directories and tasks -/

theorem keepsClean_pagingNew4gb (flags : UInt32) : Keeps KeepsClean (pagingNew4gb flags) := by
  have hloop : ∀ (directory : UInt32) (remaining i : Nat) (offset : Int),
      Keeps KeepsClean (pagingNew4gbLoop directory flags remaining i offset) := by
    intro directory remaining
    induction remaining with
    | zero => exact fun _ _ => keepsClean_pure _
    | succ remaining ih =>
        intro i offset
        refine keepsClean_bind (keepsClean_kzalloc _ _ _) fun table => ?_
        refine keepsClean_bind (keepsClean_storeUnchecked _ _ _) fun _ => ?_
        refine keepsClean_bind (Keeps.ite (keepsClean_pure _) ?_) fun _ => ih _ _
        exact keepsClean_bind (keepsClean_load _ _) fun entries => keepsClean_store _ _ _
  refine keepsClean_bind (keepsClean_kzalloc _ _ _) fun directory => keepsClean_bind (hloop _ _ _ _) fun _ => ?_
  refine keepsClean_bind (keepsClean_kzalloc _ _ _) fun chunk => ?_
  exact keepsClean_bind (keepsClean_storeUnchecked _ _ _) fun _ => keepsClean_pure _

theorem keepsClean_pagingFree4gb (chunk : UInt32) : Keeps KeepsClean (pagingFree4gb chunk) := by
  have hloop : ∀ remaining i : Nat, Keeps KeepsClean (pagingFree4gbLoop chunk remaining i) := by
    intro remaining
    induction remaining with
    | zero => exact fun _ => keepsClean_pure _
    | succ remaining ih =>
        intro i
        refine keepsClean_bind (keepsClean_load _ _) fun directory => ?_
        refine keepsClean_bind (keepsClean_load _ _) fun entries => ?_
        exact keepsClean_bind (keepsClean_kfree _ _) fun _ => ih _
  refine keepsClean_bind (hloop _ _) fun _ => keepsClean_bind (keepsClean_load _ _) fun directory => ?_
  exact keepsClean_bind (keepsClean_kfree _ _) fun _ => keepsClean_kfree _ _

theorem keepsClean_taskFree (task : UInt32) : Keeps KeepsClean (taskFree task) := by
  refine keepsClean_bind (keepsClean_load _ _) fun t => keepsClean_bind (keepsClean_pagingFree4gb _) fun _ => ?_
  refine keepsClean_bind (keepsClean_of_sameHeap (sameHeap_taskListRemove task)) fun _ => ?_
  exact keepsClean_bind (keepsClean_kfree _ _) fun _ => keepsClean_pure _

theorem keepsClean_taskNew (process : UInt32) : Keeps KeepsClean (taskNew process) := by
  have hinit : ∀ task, Keeps KeepsClean (taskInit task process) := by
    intro task
    refine keepsClean_bind (keepsClean_store _ _ _) fun _ => keepsClean_bind (keepsClean_pagingNew4gb _) fun chunk => ?_
    refine keepsClean_bind (keepsClean_load _ _) fun t => keepsClean_bind (keepsClean_store _ _ _) fun _ => ?_
    exact Keeps.ite (keepsClean_pure _) (keepsClean_of_sameHeap (sameHeap_taskInitRegisters _ _))
  have hend : ∀ (task : UInt32) (res : Int), Keeps KeepsClean
      (if res ≠ OK then taskFree task >>= fun _ => Pure.pure (ERROR res) else taskAppend task) := fun task res =>
    Keeps.ite (keepsClean_bind (keepsClean_taskFree _) fun _ => keepsClean_pure _)
      (keepsClean_of_sameHeap (sameHeap_taskAppend task))
  refine keepsClean_bind (keepsClean_kzalloc _ _ _) fun task => Keeps.ite ?_ ?_
  · exact keepsClean_bind (keepsClean_pure _) fun res => hend task res
  · exact keepsClean_bind (hinit task) fun res => hend task res

/-! ### Loading -/

/-- **A load keeps the heap clean**, however it ends. -/
theorem keepsClean_processLoad (garbage : UInt32) (filename : List UInt8) :
    Keeps KeepsClean (processLoad garbage filename) := by
  have hcleanup : ∀ res process, Keeps KeepsClean (processLoadCleanup res process) := by
    intro res process
    refine Keeps.ite (keepsClean_bind (keepsClean_load _ _) fun p => ?_) (keepsClean_pure _)
    refine Keeps.ite (keepsClean_bind (keepsClean_taskFree _) fun _ => ?_) (keepsClean_pure _)
    exact keepsClean_pure _
  have hinto : ∀ process_slot process, Keeps KeepsClean (processLoadInto filename process_slot process) := by
    intro process_slot process
    refine keepsClean_bind (keepsClean_processLoadData _ _) fun res => Keeps.ite (keepsClean_pure _) ?_
    refine keepsClean_bind (keepsClean_kzallocBytes _) fun stack => Keeps.ite (keepsClean_pure _) ?_
    refine keepsClean_bind (keepsClean_taskNew _) fun task => Keeps.ite (keepsClean_pure _) ?_
    refine keepsClean_bind (keepsClean_load _ _) fun p => keepsClean_bind (keepsClean_store _ _ _) fun _ => ?_
    refine keepsClean_bind (keepsClean_of_sameHeap (sameHeap_processMapMemory _)) fun res => ?_
    refine Keeps.ite (keepsClean_pure _) ?_
    exact Keeps.ite Keeps.stop (keepsClean_bind (keepsClean_assign fun _ => rfl) fun _ => keepsClean_pure _)
  have hslot : ∀ process_slot, Keeps KeepsClean (processLoadForSlot garbage filename process_slot) := by
    intro process_slot
    have hget : Keeps KeepsClean (processGet process_slot) := Keeps.ite (keepsClean_pure _) (keepsClean_fetch _)
    refine keepsClean_bind hget fun taken => Keeps.ite ?_ ?_
    · exact keepsClean_bind (hcleanup _ _) fun _ => keepsClean_pure _
    refine keepsClean_bind (keepsClean_kzalloc _ _ _) fun process => Keeps.ite (keepsClean_pure _) ?_
    refine keepsClean_bind (keepsClean_store _ _ _) fun _ => keepsClean_bind (hinto _ _) ?_
    rintro ⟨res, out⟩
    exact keepsClean_bind (hcleanup _ _) fun _ => keepsClean_pure _
  refine keepsClean_bind (keepsClean_fetch _) fun process_slot => Keeps.ite (keepsClean_pure _) ?_
  refine keepsClean_bind (hslot _) ?_
  rintro ⟨res, out⟩
  refine Keeps.ite (keepsClean_pure _) (keepsClean_bind (keepsClean_load _ _) fun p => ?_)
  refine keepsClean_bind (keepsClean_load _ _) fun t => ?_
  refine keepsClean_bind (keepsClean_of_sameHeap (sameHeap_pagingMapTo _ _ _ _ _)) fun _ => ?_
  exact keepsClean_pure _

end Clean

end RasOS
