import RasOS.Kernel.StateLemmas
import RasOS.Memory.HeapSpec

set_option autoImplicit false

/-! # The allocator invariant of the kernel

`kheap_init` puts a heap of 25600 blocks at `RASOS_HEAP_ADDRESS`. Every live object starts at a
block from which the table holds the entries of an allocation; so an allocation never lands on a
live object, the allocations of two objects do not meet, null is not live, and a heap address is
positive as an `int` (`ISERR` of it is false). -/

namespace RasOS

open Machine

variable {α : Type}

/-- The table entries from block `b` on are those of one allocation of `n` blocks. -/
structure Extent (heap : Heap) (b n : Nat) : Prop where
  pos : 0 < n
  inside : b + n ≤ heap.total
  entries : ∀ i : Nat, b ≤ i → i < b + n → heap.entries i = takenEntry b n i

structure Kernel.WF (s : Kernel) : Prop where
  start : s.heap.start_address = RASOS_HEAP_ADDRESS
  total : s.heap.total = 25600
  block : ∀ ptr o, s.live ptr = some o →
    ∃ b n : Nat, Extent s.heap b n ∧ ptr = heapBlockToAddress s.heap b

theorem Extent.block_lt {heap : Heap} {b n : Nat} (h : Extent heap b n) : b < 2 ^ 20 := by
  have hpos := h.pos
  have hin := h.inside
  have htot := heap.total_lt
  omega

theorem Extent.taken {heap : Heap} {b n i : Nat} (h : Extent heap b n) (h1 : b ≤ i)
    (h2 : i < b + n) : isBlockTaken (heap.entries i) = true := by
  rw [h.entries i h1 h2]
  exact takenEntry_taken _ _ _

/-- Only the first entry of an allocation says that it is the first. -/
theorem takenEntry_isFirst (b n i : Int) :
    takenEntry b n i &&& HEAP_BLOCK_IS_FIRST ≠ 0 ↔ i = b := by
  unfold takenEntry
  by_cases hi : i = b
  · rw [if_pos hi]
    refine iff_of_true ?_ hi
    split <;> decide
  · rw [if_neg hi]
    refine iff_of_false ?_ hi
    split <;> decide

/-- Only the last entry of an allocation has no next one. -/
theorem takenEntry_hasNext (b n i : Int) :
    isBlockNextExists (takenEntry b n i) = false ↔ i = b + n - 1 := by
  unfold takenEntry
  by_cases hi : i = b + n - 1
  · rw [if_pos hi]
    refine iff_of_true ?_ hi
    split <;> rfl
  · rw [if_neg hi]
    refine iff_of_false ?_ hi
    split <;> decide

/-- An allocation does not reach the first block of another one. -/
theorem Extent.start_unique {heap : Heap} {b n c m : Nat} (h : Extent heap b n)
    (h' : Extent heap c m) (h1 : b ≤ c) (h2 : c < b + n) : c = b := by
  have hc := h.entries c h1 h2
  rw [h'.entries c (Nat.le_refl c) (Nat.lt_add_of_pos_right h'.pos)] at hc
  have hfirst := (takenEntry_isFirst (c : Int) m c).mpr rfl
  rw [hc] at hfirst
  exact Int.ofNat_inj.mp ((takenEntry_isFirst (b : Int) n c).mp hfirst)

/-- The entries say how long an allocation is. -/
theorem Extent.length_unique {heap : Heap} {b n m : Nat} (h : Extent heap b n)
    (h' : Extent heap b m) : n = m := by
  by_contra hne
  have hn := h.pos
  have hm := h'.pos
  rcases Nat.lt_or_gt_of_ne hne with hlt | hlt
  · have hend := h'.entries (b + n - 1) (by omega) (by omega)
    rw [h.entries (b + n - 1) (by omega) (by omega)] at hend
    have hlast := (takenEntry_hasNext (b : Int) n (b + n - 1 : Nat)).mpr (by omega)
    rw [hend] at hlast
    have := (takenEntry_hasNext (b : Int) m (b + n - 1 : Nat)).mp hlast
    omega
  · have hend := h.entries (b + m - 1) (by omega) (by omega)
    rw [h'.entries (b + m - 1) (by omega) (by omega)] at hend
    have hlast := (takenEntry_hasNext (b : Int) m (b + m - 1 : Nat)).mpr (by omega)
    rw [hend] at hlast
    have := (takenEntry_hasNext (b : Int) n (b + m - 1 : Nat)).mp hlast
    omega

/-- Two allocations are the same or do not meet. -/
theorem Extent.disjoint {heap : Heap} {b n c m i : Nat} (h : Extent heap b n)
    (h' : Extent heap c m) (h1 : b ≤ i ∧ i < b + n) (h2 : c ≤ i ∧ i < c + m) : b = c := by
  rcases Nat.le_total b c with hle | hle
  · exact (h.start_unique h' hle (by omega)).symm
  · exact h'.start_unique h hle (by omega)

/-- The address of a block of the kernel heap. -/
theorem Kernel.WF.address {s : Kernel} (h : s.WF) {b : Nat} (hb : b < 25600) :
    (heapBlockToAddress s.heap b).toNat = 0x01000000 + 4096 * b := by
  have haddr := heapBlockToAddress_toNat s.heap (b := b) (by omega)
  rw [h.start, show RASOS_HEAP_ADDRESS.toNat = 0x01000000 from rfl] at haddr
  omega

theorem Kernel.WF.range {s : Kernel} (h : s.WF) {ptr : UInt32} {o : Obj}
    (hlive : s.live ptr = some o) : ∃ b : Nat, b < 25600 ∧ ptr.toNat = 0x01000000 + 4096 * b := by
  obtain ⟨b, n, hext, rfl⟩ := h.block ptr o hlive
  have hb : b < 25600 := by
    have htot := h.total
    have hpos := hext.pos
    have hin := hext.inside
    omega
  exact ⟨b, hb, h.address hb⟩

theorem Kernel.WF.ne_zero {s : Kernel} (h : s.WF) {ptr : UInt32} {o : Obj}
    (hlive : s.live ptr = some o) : ptr ≠ 0 := by
  obtain ⟨b, -, hb⟩ := h.range hlive
  rintro rfl
  have hzero : (0 : UInt32).toNat = 0 := rfl
  omega

theorem Kernel.WF.live_zero {s : Kernel} (h : s.WF) : s.live 0 = none := by
  cases hlive : s.live 0 with
  | none => rfl
  | some o => exact absurd rfl (h.ne_zero hlive)

/-! ## Allocation -/

/-- What `kzalloc` can do from a well-formed state: nothing, or take the first run of free blocks
that is long enough and put a new object there. -/
inductive Kzalloc (k : Kind Obj α) (size : UInt32) (zero : α) (s : Kernel) : UInt32 → Kernel → Prop
  | null (hnone : blocksFor size = 0 ∨
      ∀ b, b + blocksFor size ≤ 25600 → ¬ FreeRun s.heap.entries b (blocksFor size)) :
      Kzalloc k size zero s 0 s
  | fresh (b : Nat) (ptr : UInt32) (hpos : 0 < blocksFor size) (hend : b + blocksFor size ≤ 25600)
      (hrun : FreeRun s.heap.entries b (blocksFor size)) (hptr : ptr = heapBlockToAddress s.heap b)
      (hne : ptr ≠ 0) (hfree : s.live ptr = none)
      (hleast : ∀ b' < b, ¬ FreeRun s.heap.entries b' (blocksFor size)) :
      Kzalloc k size zero s ptr { s with
        heap := heapMarkBlocksTaken s.heap b (blocksFor size)
        live := k.write s.live ptr zero }

theorem kzalloc_spec (k : Kind Obj α) (size : UInt32) (zero : α) {s : Kernel} (hwf : s.WF) :
    ∃ ptr s', kzalloc k size zero s = some (ptr, s') ∧ Kzalloc k size zero s ptr s' := by
  have hspec := heapMalloc_spec s.heap size
  refine ⟨_, _, rfl, ?_⟩
  generalize heapMalloc s.heap size = r at hspec ⊢
  cases hspec with
  | null hnone =>
      rw [hwf.total] at hnone
      exact .null hnone
  | taken b hpos hend hrun hleast hstart =>
      rw [hwf.total] at hend
      have hne : heapBlockToAddress s.heap b ≠ 0 := by
        intro h0
        have haddr := hwf.address (b := b) (by omega)
        rw [h0] at haddr
        have hzero : (0 : UInt32).toNat = 0 := rfl
        omega
      have hfree : s.live (heapBlockToAddress s.heap b) = none := by
        -- a live object there would start at a taken block
        cases hlive : s.live (heapBlockToAddress s.heap b) with
        | none => rfl
        | some o =>
            obtain ⟨c, n, hext, heq⟩ := hwf.block _ o hlive
            have hcb := hext.block_lt
            have hbc : b = c := heapBlockToAddress_inj s.heap (by omega) (by omega) heq
            subst hbc
            have htaken := hext.taken (Nat.le_refl b) (Nat.lt_add_of_pos_right hext.pos)
            rw [hrun.head hpos] at htaken
            cases htaken
      rw [if_neg hne]
      exact .fresh b _ hpos hend hrun rfl hne hfree hleast

theorem kzalloc_cases {k : Kind Obj α} {size : UInt32} {zero : α} {s s' : Kernel} {ptr : UInt32}
    (hwf : s.WF) (h : kzalloc k size zero s = some (ptr, s')) : Kzalloc k size zero s ptr s' := by
  obtain ⟨p, t, hp, hcases⟩ := kzalloc_spec k size zero hwf
  obtain ⟨rfl, rfl⟩ := Prod.mk.inj (Option.some.inj (h.symm.trans hp))
  exact hcases

/-- Marking makes an allocation. -/
theorem extent_markTaken (heap : Heap) {b n : Nat} (hpos : 0 < n) (hend : b + n ≤ heap.total) :
    Extent (heapMarkBlocksTaken heap b n) b n := by
  refine ⟨hpos, hend, fun i h1 h2 => ?_⟩
  rw [heapMarkBlocksTaken_entries, if_pos (by omega)]

/-- Marking free blocks leaves the allocations alone. -/
theorem Extent.markTaken {heap : Heap} {b n c m : Nat} (h : Extent heap c m)
    (hrun : FreeRun heap.entries b n) : Extent (heapMarkBlocksTaken heap b n) c m := by
  refine ⟨h.pos, h.inside, fun i h1 h2 => ?_⟩
  have hout : ¬ ((b : Int) ≤ i ∧ (i : Int) < b + n) := by
    intro hin
    have htaken := h.taken h1 h2
    rw [hrun i (by omega) (by omega)] at htaken
    cases htaken
  rw [heapMarkBlocksTaken_entries, if_neg hout, h.entries i h1 h2]

/-- The invariant depends on the heap and on which objects are live. -/
theorem Kernel.WF.of_live {s s' : Kernel} (h : s.WF) (hheap : s'.heap = s.heap)
    (hlive : ∀ ptr o, s'.live ptr = some o → ∃ o', s.live ptr = some o') : s'.WF where
  start := by rw [hheap, h.start]
  total := by rw [hheap, h.total]
  block := by
    intro ptr o hptr
    obtain ⟨o', ho'⟩ := hlive ptr o hptr
    rw [hheap]
    exact h.block ptr o' ho'

theorem Kernel.WF.kzalloc {k : Kind Obj α} {size : UInt32} {zero : α} {s s' : Kernel} {ptr : UInt32}
    (hwf : s.WF) (h : Kzalloc k size zero s ptr s') : s'.WF := by
  cases h with
  | null hnone => exact hwf
  | fresh b ptr hpos hend hrun hptr hne hfree =>
      refine ⟨hwf.start, hwf.total, fun q o hq => ?_⟩
      by_cases hqp : q = ptr
      · refine ⟨b, blocksFor size, extent_markTaken s.heap hpos (by rw [hwf.total]; exact hend), ?_⟩
        rw [hqp, hptr]
        rfl
      · have hold : s.live q = some o := (Kind.write_of_ne _ _ _ hqp).symm.trans hq
        obtain ⟨c, n, hext, hqc⟩ := hwf.block q o hold
        exact ⟨c, n, hext.markTaken hrun, hqc⟩

/-- The allocation of `n` blocks at the address `ptr`. -/
def Allocated (heap : Heap) (ptr : UInt32) (n : Nat) : Prop :=
  ∃ b : Nat, Extent heap b n ∧ ptr = heapBlockToAddress heap b

theorem Kernel.WF.allocated {s : Kernel} (h : s.WF) {ptr : UInt32} {o : Obj}
    (hlive : s.live ptr = some o) : ∃ n, Allocated s.heap ptr n := by
  obtain ⟨b, n, hext, hptr⟩ := h.block ptr o hlive
  exact ⟨n, b, hext, hptr⟩

/-- What an allocation adds to the table. -/
theorem Kzalloc.allocated {k : Kind Obj α} {size : UInt32} {zero : α} {s s' : Kernel} {ptr : UInt32}
    (hwf : s.WF) (h : Kzalloc k size zero s ptr s') :
    (∀ q n, Allocated s.heap q n → Allocated s'.heap q n) ∧
      (ptr ≠ 0 → Allocated s'.heap ptr (blocksFor size)) := by
  cases h with
  | null hnone => exact ⟨fun _ _ h => h, fun h0 => absurd rfl h0⟩
  | fresh b ptr hpos hend hrun hptr hne hfree =>
      constructor
      · rintro q n ⟨c, hext, rfl⟩
        exact ⟨c, hext.markTaken hrun, rfl⟩
      · intro _
        exact ⟨b, extent_markTaken s.heap hpos (by rw [hwf.total]; exact hend), by rw [hptr]; rfl⟩

/-- The drive, and the static variables other than the descriptor table. -/
structure Statics where
  drive : List Nat → Nat → Option Sector
  disk : Disk
  processes : Nat → UInt32
  current_process : UInt32
  current_task : UInt32
  task_head : UInt32
  task_tail : UInt32
  current_directory : UInt32

def Kernel.statics (s : Kernel) : Statics :=
  ⟨s.drive, s.disk, s.processes, s.current_process, s.current_task, s.task_head, s.task_tail,
    s.current_directory⟩

/-- Objects may have been added since, and memory written, but nothing else has changed. -/
structure Since (s s' : Kernel) : Prop where
  wf : s'.WF
  statics : s'.statics = s.statics
  slots : s'.file_descriptors = s.file_descriptors
  object : ∀ ptr o, s.live ptr = some o → s'.live ptr = some o
  allocated : ∀ ptr n, Allocated s.heap ptr n → Allocated s'.heap ptr n

theorem Since.refl {s : Kernel} (h : s.WF) : Since s s :=
  ⟨h, rfl, rfl, fun _ _ ho => ho, fun _ _ ha => ha⟩

theorem Since.trans {s s' s'' : Kernel} (h : Since s s') (h' : Since s' s'') : Since s s'' :=
  ⟨h'.wf, h'.statics.trans h.statics, h'.slots.trans h.slots,
    fun ptr o ho => h'.object ptr o (h.object ptr o ho),
    fun ptr n ha => h'.allocated ptr n (h.allocated ptr n ha)⟩

theorem Since.drive {s s' : Kernel} (h : Since s s') : s'.drive = s.drive :=
  congrArg Statics.drive h.statics

theorem Since.disk {s s' : Kernel} (h : Since s s') : s'.disk = s.disk :=
  congrArg Statics.disk h.statics

/-- What is not live now was not live before. -/
theorem Since.fresh {s s' : Kernel} (h : Since s s') {ptr : UInt32} (hfree : s'.live ptr = none) :
    s.live ptr = none := by
  cases hlive : s.live ptr with
  | none => rfl
  | some o =>
      rw [h.object ptr o hlive] at hfree
      cases hfree

/-- Writing over a live object keeps the heap in order. -/
theorem Kernel.WF.write {s : Kernel} (hwf : s.WF) {k : Kind Obj α} {ptr : UInt32} {o : Obj}
    (hlive : s.live ptr = some o) (a : α) :
    Kernel.WF { s with live := k.write s.live ptr a } := by
  refine hwf.of_live rfl fun q o' hq => ?_
  by_cases hqp : q = ptr
  · exact ⟨o, by rw [hqp, hlive]⟩
  · exact ⟨o', (Kind.write_of_ne _ _ _ hqp).symm.trans hq⟩

/-- An added object may be changed. -/
theorem Since.write {s s' : Kernel} (h : Since s s') {k : Kind Obj α} {ptr : UInt32} {o : Obj}
    (hfree : s.live ptr = none) (hlive : s'.live ptr = some o) (a : α) :
    Since s { s' with live := k.write s'.live ptr a } := by
  refine ⟨h.wf.write hlive a, h.statics, h.slots, fun q o' hq => ?_, h.allocated⟩
  have hqp : q ≠ ptr := by
    rintro rfl
    rw [hfree] at hq
    cases hq
  exact (Kind.write_of_ne _ _ _ hqp).trans (h.object q o' hq)

/-- Allocating leaves the objects alone. -/
theorem Kzalloc.since {k : Kind Obj α} {size ptr : UInt32} {zero : α} {s s' : Kernel} (hwf : s.WF)
    (h : Kzalloc k size zero s ptr s') : Since s s' := by
  have hwf' := hwf.kzalloc h
  have halloc := (h.allocated hwf).1
  cases h with
  | null hnone => exact Since.refl hwf
  | fresh b ptr hpos hend hrun hptr hne hfree =>
      refine ⟨hwf', rfl, rfl, fun q o ho => ?_, halloc⟩
      have hqp : q ≠ ptr := by
        rintro rfl
        rw [hfree] at ho
        cases ho
      exact (Kind.write_of_ne _ _ _ hqp).trans ho

theorem kzalloc_since {k : Kind Obj α} {size ptr : UInt32} {zero : α} {s s' : Kernel} (hwf : s.WF)
    (h : kzalloc k size zero s = some (ptr, s')) : Since s s' := (kzalloc_cases hwf h).since hwf

/-- A new object, when its address is not null. -/
theorem Kzalloc.live {k : Kind Obj α} {size ptr : UInt32} {zero : α} {s s' : Kernel}
    (h : Kzalloc k size zero s ptr s') (hne : ptr ≠ 0) :
    s.live ptr = none ∧ s'.live ptr = some (k.inj zero) := by
  cases h with
  | null hnone => exact absurd rfl hne
  | fresh b ptr hpos hend hrun hptr hne hfree => exact ⟨hfree, Kind.write_self ..⟩

/-- An allocation adds one object at most. -/
theorem Kzalloc.only {k : Kind Obj α} {size ptr q : UInt32} {zero : α} {s s' : Kernel} {o : Obj}
    (h : Kzalloc k size zero s ptr s') (hq : q ≠ ptr) (ho : s'.live q = some o) : s.live q = some o := by
  cases h with
  | null hnone => exact ho
  | fresh b ptr hpos hend hrun hptr hne hfree => exact (Kind.write_of_ne _ _ _ hq).symm.trans ho

/-- Allocating an object of one kind makes none of another. -/
theorem Kzalloc.apart {β : Type} {k : Kind Obj α} {k' : Kind Obj β} {size ptr : UInt32} {zero : α}
    {s s' : Kernel} (h : Kzalloc k size zero s ptr s') (hk : k.Apart k') (q : UInt32) (c : β) :
    s'.live q = some (k'.inj c) ↔ s.live q = some (k'.inj c) := by
  cases h with
  | null hnone => exact Iff.rfl
  | fresh b ptr hpos hend hrun hptr hne hfree =>
      show k.write s.live ptr zero q = some (k'.inj c) ↔ _
      by_cases hq : q = ptr
      · rw [hq, Kind.write_self, hfree]
        refine iff_of_false (fun heq => hk zero c (Option.some.inj heq)) nofun
      · rw [Kind.write_of_ne _ _ _ hq]

/-- Allocating writes no bytes. -/
theorem Kzalloc.mem {k : Kind Obj α} {size ptr : UInt32} {zero : α} {s s' : Kernel}
    (h : Kzalloc k size zero s ptr s') : s'.mem = s.mem := by
  cases h with
  | null hnone => rfl
  | fresh b ptr hpos hend hrun hptr hne hfree => rfl

theorem memWrite_spec {out : UInt32} (bytes : List UInt8) (hout : out ≠ 0 ∨ bytes = []) (s : Kernel) :
    memWrite out bytes s = some ((), { s with mem := writeBytes s.mem out bytes }) := by
  have hok : ¬ (out = 0 ∧ bytes ≠ []) := by
    rintro ⟨h0, hne⟩
    rcases hout with h | h
    · exact h h0
    · exact hne h
  rw [memWrite, if_neg hok]
  rfl

theorem kzallocBytes_since {s s' : Kernel} {size ptr : UInt32} (hwf : s.WF)
    (h : kzallocBytes size s = some (ptr, s')) : Since s s' := by
  have hsince : Ensures (kzallocBytes size) s fun _ s' => Since s s' := by
    refine Ensures.bind (Q := fun _ s' => Since s s') (fun _ _ h1 => kzalloc_since hwf h1) ?_
    intro q s1 h1
    refine Ensures.ite (fun _ => Ensures.pure h1) fun hq => ?_
    intro a s2 h2
    rw [bind_of_some (memWrite_spec _ (Or.inl hq) s1)] at h2
    obtain ⟨-, rfl⟩ := pure_eq_some.mp h2
    exact ⟨h1.wf.of_live rfl fun _ o ho => ⟨o, ho⟩, h1.statics, h1.slots, h1.object, h1.allocated⟩
  exact hsince _ _ h

/-! ## Freeing -/

theorem kfree_eq_some {k : Kind Obj α} {ptr : UInt32} {s s' : Kernel} {u : Unit} :
    kfree k ptr s = some (u, s') ↔
      (∃ a, s.live ptr = some (k.inj a)) ∧ s' = { s with
        heap := heapFree s.heap ptr
        live := Function.update s.live ptr none } := by
  rw [kfree, Option.map_eq_some_iff]
  constructor
  · rintro ⟨a, ha, heq⟩
    exact ⟨⟨a, Kind.read_eq_some.mp ha⟩, (Prod.mk.inj heq).2.symm⟩
  · rintro ⟨⟨a, ha⟩, rfl⟩
    exact ⟨a, Kind.read_eq_some.mpr ha, rfl⟩

/-- The state after `kfree` of a live pointer. -/
def freed (s : Kernel) (ptr : UInt32) : Kernel :=
  { s with heap := heapFree s.heap ptr, live := Function.update s.live ptr none }

theorem kfree_of_live {k : Kind Obj α} {ptr : UInt32} {s : Kernel} {a : α}
    (h : s.live ptr = some (k.inj a)) : kfree k ptr s = some ((), freed s ptr) :=
  kfree_eq_some.mpr ⟨⟨a, h⟩, rfl⟩

theorem freed_live_of_ne (s : Kernel) {p q : UInt32} (h : q ≠ p) : (freed s p).live q = s.live q :=
  Function.update_of_ne h ..

/-- `heap_free` of a live pointer clears the entry of its first block. -/
theorem Kernel.WF.heapFree_entries {s : Kernel} (hwf : s.WF) {b : Nat} (hb : b < 25600) :
    (heapFree s.heap (heapBlockToAddress s.heap b)).entries
      = Function.update s.heap.entries b HEAP_BLOCK_ENTRY_FREE := by
  have htot := hwf.total
  rw [heapFree, heapAddressToBlock_of_lt s.heap (by omega), heapMarkBlocksFree_entries,
    if_pos (by omega)]

/-- Clearing the first entry of an allocation leaves the others alone. -/
theorem Extent.free {s : Kernel} (hwf : s.WF) {b n c m : Nat} (hb : Extent s.heap b n)
    (hc : Extent s.heap c m) (hne : c ≠ b) :
    Extent (heapFree s.heap (heapBlockToAddress s.heap b)) c m := by
  have hb' : b < 25600 := by
    have hpos := hb.pos
    have hin := hb.inside
    have htot := hwf.total
    omega
  refine ⟨hc.pos, hc.inside, fun i h1 h2 => ?_⟩
  have hib : (i : Int) ≠ b := by
    intro heq
    have heq' : i = b := Int.ofNat_inj.mp heq
    rw [heq'] at h1 h2
    exact hne (hc.start_unique hb h1 h2).symm
  rw [hwf.heapFree_entries hb', Function.update_of_ne hib, hc.entries i h1 h2]

/-- Freeing one object leaves the allocations of the others alone. -/
theorem Allocated.free {s : Kernel} (hwf : s.WF) {ptr q : UInt32} {o : Obj} {n : Nat}
    (hlive : s.live ptr = some o) (h : Allocated s.heap q n) (hne : q ≠ ptr) :
    Allocated (heapFree s.heap ptr) q n := by
  obtain ⟨b, m, hext, hptr⟩ := hwf.block ptr o hlive
  obtain ⟨c, hext', hq⟩ := h
  refine ⟨c, ?_, hq⟩
  have hcb : c ≠ b := by
    rintro rfl
    exact hne (by rw [hq, hptr])
  rw [hptr]
  exact hext.free hwf hext' hcb

theorem Kernel.WF.free {s : Kernel} (hwf : s.WF) {ptr : UInt32} {o : Obj}
    (hlive : s.live ptr = some o) :
    Kernel.WF { s with heap := heapFree s.heap ptr, live := Function.update s.live ptr none } := by
  refine ⟨hwf.start, hwf.total, fun q o' hq => ?_⟩
  change Function.update s.live ptr none q = some o' at hq
  by_cases hqp : q = ptr
  · rw [hqp, Function.update_self] at hq
    cases hq
  · rw [Function.update_of_ne hqp] at hq
    obtain ⟨m, hm⟩ := hwf.allocated hq
    obtain ⟨c, hext, hqc⟩ := hm.free hwf hlive hqp
    exact ⟨c, m, hext, hqc⟩

/-- The entry of null lies in front of the table. -/
theorem Kernel.WF.heapFree_null {s : Kernel} (hwf : s.WF) (i : Nat) :
    (heapFree s.heap 0).entries i = s.heap.entries i := by
  have hblock : heapAddressToBlock s.heap 0 = -4096 := by
    rw [heapAddressToBlock, hwf.start]
    rfl
  rw [heapFree, hblock, heapMarkBlocksFree_entries]
  split
  · exact Function.update_of_ne (by omega) ..
  · rfl

/-- The allocations do not depend on what lies in front of the table. -/
theorem Kernel.WF.allocated_freeNull {s : Kernel} (hwf : s.WF) {ptr : UInt32} {n : Nat}
    (h : Allocated s.heap ptr n) : Allocated (heapFree s.heap 0) ptr n := by
  obtain ⟨b, hext, hptr⟩ := h
  exact ⟨b, ⟨hext.pos, hext.inside, fun i h1 h2 => (hwf.heapFree_null i).trans (hext.entries i h1 h2)⟩, hptr⟩

theorem Kernel.WF.freeNull {s : Kernel} (hwf : s.WF) : Kernel.WF { s with heap := heapFree s.heap 0 } := by
  refine ⟨hwf.start, hwf.total, fun ptr o ho => ?_⟩
  obtain ⟨n, hn⟩ := hwf.allocated ho
  obtain ⟨b, hext, hptr⟩ := hwf.allocated_freeNull hn
  exact ⟨b, n, hext, hptr⟩

end RasOS
