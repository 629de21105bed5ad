import RasOS.Kernel.Room
import RasOS.Memory.HeapRuns

set_option autoImplicit false

/-! # Blocks that are given back

The paging functions take blocks one at a time and give each of them back. What is lent at a moment is
a set of pointers; when it is empty again, the kernel is in the state it was in before. -/

namespace RasOS

open Machine

variable {α : Type}

/-- Free blocks have the entry that `heap_create` and `heap_free` write. -/
def CleanHeap (heap : Heap) : Prop :=
  ∀ i : Nat, i < heap.total → isBlockTaken (heap.entries i) = false → heap.entries i = HEAP_BLOCK_ENTRY_FREE

/-- The heap of the kernel can be reached: `kheap_init` has created it, and then it has been used. -/
def ReachableHeap (heap : Heap) : Prop :=
  ∃ table heap0 ops st, heapCreate table RASOS_HEAP_ADDRESS RASOS_HEAP_SIZE_BYTES = .ok heap0 ∧
    runFrom heapStep ⟨heap0, []⟩ ops = some st ∧ st.heap = heap

theorem ReachableHeap.clean {heap : Heap} (h : ReachableHeap heap) : CleanHeap heap := by
  obtain ⟨table, heap0, ops, st, hcreate, hrun, rfl⟩ := h
  exact (LiveInv.run hcreate hrun).clean

/-- Since `s0` the blocks of the pointers in `P` have been taken, one for each, and nothing else has
changed. -/
structure Lent (s0 : Kernel) (P : UInt32 → Prop) (s : Kernel) : Prop where
  wf : s.WF
  rest : s = { s0 with heap := s.heap, live := s.live }
  block : ∀ q, P q → ∃ b : Nat, b < 25600 ∧ q = heapBlockToAddress s0.heap b ∧
    isBlockTaken (s0.heap.entries b) = false
  entries : ∀ i : Int, (∀ b : Nat, b < 25600 → i = b → ¬ P (heapBlockToAddress s0.heap b)) →
    s.heap.entries i = s0.heap.entries i
  live : ∀ q, P q → ∃ o, s.live q = some o
  other : ∀ q, ¬ P q → s.live q = s0.live q
  fresh : ∀ q, P q → s0.live q = none

theorem Lent.refl {s : Kernel} (h : s.WF) : Lent s (fun _ => False) s :=
  ⟨h, rfl, fun _ hq => hq.elim, fun _ _ => rfl, fun _ hq => hq.elim, fun _ _ => rfl, fun _ hq => hq.elim⟩

theorem Lent.congr {s0 s : Kernel} {P Q : UInt32 → Prop} (h : Lent s0 P s) (hPQ : ∀ q, P q ↔ Q q) :
    Lent s0 Q s := by
  obtain rfl : P = Q := funext fun q => propext (hPQ q)
  exact h

/-- Where a block is does not depend on what is taken. -/
theorem heapBlockToAddress_congr {heap heap' : Heap} (h : heap'.start_address = heap.start_address) (b : Int) :
    heapBlockToAddress heap' b = heapBlockToAddress heap b := by
  rw [heapBlockToAddress, heapBlockToAddress, h]

/-- The block of a live object is taken. -/
theorem Kernel.WF.block_taken {s : Kernel} (h : s.WF) {b : Nat} (hb : b < 25600) {o : Obj}
    (hlive : s.live (heapBlockToAddress s.heap b) = some o) : isBlockTaken (s.heap.entries b) = true := by
  obtain ⟨c, n, hext, heq⟩ := h.block _ o hlive
  have hc := hext.block_lt
  obtain rfl : b = c := heapBlockToAddress_inj s.heap (by omega) hc heq
  exact hext.taken (Nat.le_refl b) (Nat.lt_add_of_pos_right hext.pos)

theorem Lent.alloc {s0 s s' : Kernel} {P : UInt32 → Prop} {k : Kind Obj α} {size ptr : UInt32} {zero : α}
    (hwf : s0.WF) (h : Lent s0 P s) (hone : blocksFor size = 1) (halloc : Kzalloc k size zero s ptr s')
    (hne : ptr ≠ 0) : Lent s0 (fun q => q = ptr ∨ P q) s' := by
  have hwf' := h.wf.kzalloc halloc
  cases halloc with
  | null hnone => exact absurd rfl hne
  | fresh b ptr hpos hend hrun hptr _ hfree =>
      rw [hone] at hend hrun
      have haddr : ∀ c : Int, heapBlockToAddress s.heap c = heapBlockToAddress s0.heap c :=
        heapBlockToAddress_congr (h.wf.start.trans hwf.start.symm)
      rw [haddr] at hptr
      have hnot : ¬ P ptr := by
        intro hP
        obtain ⟨o, ho⟩ := h.live ptr hP
        rw [hfree] at ho
        cases ho
      have hold : s.heap.entries b = s0.heap.entries b := by
        refine h.entries b fun c hc heq hP => hnot ?_
        rw [hptr, Int.ofNat_inj.mp heq]
        exact hP
      refine ⟨hwf', ?_, fun q hq => ?_, fun i hi => ?_, fun q hq => ?_, fun q hq => ?_, fun q hq => ?_⟩
      · rw [h.rest]
      · rcases hq with rfl | hq
        · refine ⟨b, by omega, hptr, ?_⟩
          rw [← hold]
          exact hrun.head Nat.one_pos
        · exact h.block q hq
      · have hib : ¬ ((b : Int) ≤ i ∧ i < b + (1 : Nat)) := by
          intro hin
          refine hi b (by omega) (by omega) (Or.inl ?_)
          rw [hptr]
        show (heapMarkBlocksTaken s.heap b (blocksFor size)).entries i = _
        rw [hone, heapMarkBlocksTaken_entries, if_neg hib]
        exact h.entries i fun c hc heq hP => hi c hc heq (Or.inr hP)
      · by_cases hqp : q = ptr
        · exact ⟨_, by rw [hqp]; exact Kind.write_self ..⟩
        · obtain ⟨o, ho⟩ := h.live q (hq.resolve_left hqp)
          exact ⟨o, (Kind.write_of_ne _ _ _ hqp).trans ho⟩
      · have hqp : q ≠ ptr := fun heq => hq (Or.inl heq)
        exact (Kind.write_of_ne _ _ _ hqp).trans (h.other q fun hP => hq (Or.inr hP))
      · rcases hq with rfl | hq
        · rw [← h.other q hnot]
          exact hfree
        · exact h.fresh q hq

/-- A lent object may be changed. -/
theorem Lent.objects {s0 s : Kernel} {P : UInt32 → Prop} (h : Lent s0 P s) {live : UInt32 → Option Obj}
    (hother : ∀ q, ¬ P q → live q = s.live q) (hlive : ∀ q, P q → ∃ o, live q = some o) :
    Lent s0 P { s with live := live } := by
  refine ⟨h.wf.of_live rfl fun q o ho => ?_, ?_, h.block, h.entries, hlive,
    fun q hq => (hother q hq).trans (h.other q hq), h.fresh⟩
  · by_cases hq : P q
    · exact h.live q hq
    · exact ⟨o, (hother q hq).symm.trans ho⟩
  · rw [h.rest]

theorem Lent.write {s0 s : Kernel} {P : UInt32 → Prop} (h : Lent s0 P s) (k : Kind Obj α) {ptr : UInt32}
    (hptr : P ptr) (a : α) : Lent s0 P { s with live := k.write s.live ptr a } := by
  refine h.objects (fun q hq => Kind.write_of_ne _ _ _ ?_) fun q hq => ?_
  · rintro rfl
    exact hq hptr
  · by_cases hqp : q = ptr
    · exact ⟨_, by rw [hqp]; exact Kind.write_self ..⟩
    · obtain ⟨o, ho⟩ := h.live q hq
      exact ⟨o, (Kind.write_of_ne _ _ _ hqp).trans ho⟩

/-- Giving one block back. -/
theorem Lent.free {s0 s : Kernel} {P : UInt32 → Prop} (hwf : s0.WF) (hclean : CleanHeap s0.heap)
    (h : Lent s0 P s) {ptr : UInt32} (hptr : P ptr) : Lent s0 (fun q => q ≠ ptr ∧ P q) (freed s ptr) := by
  obtain ⟨o, ho⟩ := h.live ptr hptr
  obtain ⟨b, hb, hblock, hfree⟩ := h.block ptr hptr
  have haddr : heapBlockToAddress s.heap b = ptr := by
    rw [heapBlockToAddress_congr (h.wf.start.trans hwf.start.symm), hblock]
  have hentries := h.wf.heapFree_entries hb
  rw [haddr] at hentries
  have hentry : s0.heap.entries b = HEAP_BLOCK_ENTRY_FREE := hclean b (by rw [hwf.total]; exact hb) hfree
  refine ⟨h.wf.free ho, ?_, fun q hq => h.block q hq.2, fun i hi => ?_, fun q hq => ?_, fun q hq => ?_,
    fun q hq => h.fresh q hq.2⟩
  · rw [freed, h.rest]
  · show (heapFree s.heap ptr).entries i = _
    rw [hentries]
    by_cases hib : i = b
    · rw [hib, Function.update_self, hentry]
    · rw [Function.update_of_ne hib]
      refine h.entries i fun c hc heq hP => hi c hc heq ⟨fun hcp => hib ?_, hP⟩
      rw [heq, heapBlockToAddress_inj s0.heap (by omega) (by omega) (hcp.trans hblock)]
  · obtain ⟨o', ho'⟩ := h.live q hq.2
    exact ⟨o', (freed_live_of_ne s hq.1).trans ho'⟩
  · by_cases hqp : q = ptr
    · rw [hqp, h.fresh ptr hptr]
      exact Function.update_self ..
    · exact (freed_live_of_ne s hqp).trans (h.other q fun hP => hq ⟨hqp, hP⟩)

/-- Giving several blocks back, each once. -/
theorem Lent.freeAll {s0 : Kernel} (hwf : s0.WF) (hclean : CleanHeap s0.heap) :
    ∀ (ptrs : List UInt32) (s : Kernel) (P : UInt32 → Prop), Lent s0 P s → ptrs.Nodup → (∀ q ∈ ptrs, P q) →
      Lent s0 (fun q => q ∉ ptrs ∧ P q) (ptrs.foldl freed s) := by
  intro ptrs
  induction ptrs with
  | nil =>
      intro s P h _ _
      exact h.congr fun q => by simp
  | cons ptr ptrs ih =>
      intro s P h hnodup hmem
      obtain ⟨hnot, hnodup'⟩ := List.nodup_cons.mp hnodup
      have hfree := h.free hwf hclean (hmem ptr List.mem_cons_self)
      have hrest := ih (freed s ptr) _ hfree hnodup' fun q hq =>
        ⟨fun heq => hnot (heq ▸ hq), hmem q (List.mem_cons_of_mem ptr hq)⟩
      refine hrest.congr fun q => ?_
      rw [List.mem_cons, not_or]
      tauto

/-- When nothing is lent any more, the state is the one before. -/
theorem Lent.returned {s0 s : Kernel} {P : UInt32 → Prop} (hwf : s0.WF) (h : Lent s0 P s) (hP : ∀ q, ¬ P q) :
    s = s0 := by
  have hlive : s.live = s0.live := funext fun q => h.other q (hP q)
  have hentries : s.heap.entries = s0.heap.entries := funext fun i => h.entries i fun b _ _ => hP _
  have hstart := h.wf.start.trans hwf.start.symm
  have htotal := h.wf.total.trans hwf.total.symm
  have hheap : s.heap = s0.heap := by
    generalize s.heap = heap at hentries hstart htotal
    cases heap with
    | mk entries total start_address total_lt =>
        dsimp only at hentries hstart htotal
        subst hentries hstart htotal
        rfl
  rw [h.rest, hheap, hlive]

/-- The blocks lent are taken, so the free ones are as before. -/
theorem Lent.clean {s0 s : Kernel} {P : UInt32 → Prop} (hwf : s0.WF) (h : Lent s0 P s)
    (hclean : CleanHeap s0.heap) : CleanHeap s.heap := by
  intro i hi hfree
  by_cases hP : P (heapBlockToAddress s0.heap i)
  · obtain ⟨o, ho⟩ := h.live _ hP
    rw [← heapBlockToAddress_congr (h.wf.start.trans hwf.start.symm)] at ho
    have htaken := h.wf.block_taken (by rw [← h.wf.total]; exact hi) ho
    rw [htaken] at hfree
    cases hfree
  · have hentry : s.heap.entries i = s0.heap.entries i := by
      refine h.entries i fun b _ heq => ?_
      rw [← Int.ofNat_inj.mp heq]
      exact hP
    rw [hentry] at hfree ⊢
    exact hclean i (by rw [hwf.total, ← h.wf.total]; exact hi) hfree

/-- What has been there before is still there. -/
theorem Lent.since {s0 s : Kernel} {P : UInt32 → Prop} (hwf : s0.WF) (h : Lent s0 P s) : Since s0 s := by
  refine ⟨h.wf, ?_, ?_, fun q o ho => ?_, fun q n hn => ?_⟩
  · rw [h.rest]
    rfl
  · rw [h.rest]
  · have hq : ¬ P q := fun hP => by cases (h.fresh q hP).symm.trans ho
    exact (h.other q hq).trans ho
  · obtain ⟨b, hext, rfl⟩ := hn
    have htotal := h.wf.total.trans hwf.total.symm
    refine ⟨b, ⟨hext.pos, by rw [htotal]; exact hext.inside, fun i h1 h2 => ?_⟩,
      (heapBlockToAddress_congr (h.wf.start.trans hwf.start.symm) b).symm⟩
    rw [← hext.entries i h1 h2]
    refine h.entries i fun c hc heq hP => ?_
    obtain ⟨d, hd, hdc, hfree⟩ := h.block _ hP
    obtain rfl : c = d := heapBlockToAddress_inj s0.heap (by omega) (by omega) hdc
    obtain rfl : i = c := Int.ofNat_inj.mp heq
    rw [hext.taken h1 h2] at hfree
    cases hfree

end RasOS
