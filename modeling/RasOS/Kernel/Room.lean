import RasOS.Kernel.Wf

set_option autoImplicit false

/-! # Room on the heap

An allocation fails when there is no run of free blocks long enough for it. Requests of one block
fail only when no block is free, so the number of free blocks says how many of them succeed. -/

namespace RasOS

open Machine

variable {α : Type}

/-- There is no run of free blocks for `size` bytes. A request of no bytes finds none either. -/
def NoRoom (heap : Heap) (size : UInt32) : Prop :=
  blocksFor size = 0 ∨
    ∀ b, b + blocksFor size ≤ heap.total → ¬ FreeRun heap.entries b (blocksFor size)

/-- The number of free blocks. -/
def freeCount (heap : Heap) : Nat :=
  ((Finset.range heap.total).filter fun i => isBlockTaken (heap.entries (i : Nat)) = false).card

theorem Kzalloc.null_iff {k : Kind Obj α} {size ptr : UInt32} {zero : α} {s s' : Kernel}
    (hwf : s.WF) (h : Kzalloc k size zero s ptr s') : ptr = 0 ↔ NoRoom s.heap size := by
  cases h with
  | null hnone =>
      refine iff_of_true rfl ?_
      rw [NoRoom, hwf.total]
      exact hnone
  | fresh b ptr hpos hend hrun hptr hne hfree =>
      refine iff_of_false hne ?_
      rintro (hzero | hnone)
      · omega
      · exact hnone b (by rw [hwf.total]; exact hend) hrun

/-- An allocation uses up its blocks. -/
theorem Kzalloc.freeCount {k : Kind Obj α} {size ptr : UInt32} {zero : α} {s s' : Kernel}
    (hwf : s.WF) (h : Kzalloc k size zero s ptr s') (hne : ptr ≠ 0) :
    freeCount s'.heap + blocksFor size = freeCount s.heap := by
  cases h with
  | null hnone => exact absurd rfl hne
  | fresh b ptr hpos hend hrun hptr hne hfree =>
      have htotal := hwf.total
      have hsub : Finset.Ico b (b + blocksFor size) ⊆ (Finset.range s.heap.total).filter
          fun i => isBlockTaken (s.heap.entries (i : Nat)) = false := by
        intro i hi
        rw [Finset.mem_Ico] at hi
        rw [Finset.mem_filter, Finset.mem_range]
        exact ⟨by omega, hrun i hi.1 hi.2⟩
      have hdiff : ((Finset.range s.heap.total).filter fun i =>
            isBlockTaken ((heapMarkBlocksTaken s.heap b (blocksFor size)).entries (i : Nat)) = false)
          = ((Finset.range s.heap.total).filter fun i =>
              isBlockTaken (s.heap.entries (i : Nat)) = false) \ Finset.Ico b (b + blocksFor size) := by
        ext i
        rw [Finset.mem_sdiff, Finset.mem_filter, Finset.mem_filter, Finset.mem_Ico,
          heapMarkBlocksTaken_taken, Bool.or_eq_false_iff, decide_eq_false_iff_not]
        tauto
      have hcard := Finset.card_sdiff_add_card_eq_card hsub
      rw [← hdiff, Nat.card_Ico, Nat.add_sub_cancel_left] at hcard
      exact hcard

/-- A free block is a run of one. -/
theorem noRoom_one_iff {heap : Heap} {size : UInt32} (hone : blocksFor size = 1) :
    NoRoom heap size ↔ freeCount heap = 0 := by
  rw [NoRoom, hone, freeCount, Finset.card_eq_zero, Finset.filter_eq_empty_iff]
  constructor
  · rintro (hzero | hnone) i hi hfree
    · cases hzero
    · rw [Finset.mem_range] at hi
      refine hnone i (by omega) fun j h1 h2 => ?_
      obtain rfl : j = i := by omega
      exact hfree
  · intro hnone
    refine Or.inr fun b hb hrun => hnone (Finset.mem_range.mpr (by omega)) (hrun.head Nat.one_pos)

/-- While a block is free, one block can be had. -/
theorem kzalloc_one (k : Kind Obj α) (size : UInt32) (zero : α) {s : Kernel} (hwf : s.WF)
    (hone : blocksFor size = 1) (hroom : 0 < freeCount s.heap) :
    ∃ ptr s', kzalloc k size zero s = some (ptr, s') ∧ ptr ≠ 0 ∧ Since s s' ∧ s.live ptr = none ∧
      s'.live ptr = some (k.inj zero) ∧ freeCount s'.heap + 1 = freeCount s.heap := by
  obtain ⟨ptr, s', hrun, hcases⟩ := kzalloc_spec k size zero hwf
  have hne : ptr ≠ 0 := by
    intro h0
    have hfull := (noRoom_one_iff hone).mp ((hcases.null_iff hwf).mp h0)
    omega
  obtain ⟨hfree, hlive⟩ := hcases.live hne
  have hcount := hcases.freeCount hwf hne
  rw [hone] at hcount
  exact ⟨ptr, s', hrun, hne, hcases.since hwf, hfree, hlive, hcount⟩

/-- `k` free blocks lie one behind the other. -/
def Spacious (heap : Heap) (k : Nat) : Prop :=
  ∃ b, b + k ≤ heap.total ∧ FreeRun heap.entries b k

theorem Spacious.mono {heap : Heap} {k k' : Nat} (h : Spacious heap k) (hle : k' ≤ k) :
    Spacious heap k' := by
  obtain ⟨b, hb, hrun⟩ := h
  exact ⟨b, by omega, fun i h1 h2 => hrun i h1 (by omega)⟩

/-- A request that is not larger succeeds. -/
theorem Spacious.not_noRoom {heap : Heap} {k : Nat} {size : UInt32} (h : Spacious heap k)
    (hpos : 0 < blocksFor size) (hle : blocksFor size ≤ k) : ¬ NoRoom heap size := by
  obtain ⟨b, hb, hrun⟩ := h.mono hle
  rintro (hzero | hnone)
  · omega
  · exact hnone b hb hrun

/-- Freeing takes no room away. -/
theorem Spacious.heapFree {heap : Heap} {k : Nat} (h : Spacious heap k) (ptr : UInt32) :
    Spacious (heapFree heap ptr) k := by
  obtain ⟨b, hb, hrun⟩ := h
  refine ⟨b, hb, fun i h1 h2 => ?_⟩
  rw [RasOS.heapFree, heapMarkBlocksFree_entries]
  split
  · by_cases hi : (i : Int) = heapAddressToBlock heap ptr
    · rw [hi, Function.update_self]
      rfl
    · rw [Function.update_of_ne hi]
      exact hrun i h1 h2
  · exact hrun i h1 h2

/-- **An allocation leaves the rest of a free run**: first fit takes its blocks in front of the run or
from its beginning. -/
theorem Kzalloc.spacious {k : Kind Obj α} {size ptr : UInt32} {zero : α} {s s' : Kernel}
    (h : Kzalloc k size zero s ptr s') {n : Nat}
    (hroom : Spacious s.heap (blocksFor size + n)) : Spacious s'.heap n := by
  cases h with
  | null hnone => exact hroom.mono (Nat.le_add_left n _)
  | fresh b ptr hpos hend hrun hptr hne hfree hleast =>
      obtain ⟨c, hc, hfreeRun⟩ := hroom
      have hbc : b ≤ c := by
        by_contra hlt
        exact hleast c (not_le.mp hlt) fun i h1 h2 => hfreeRun i h1 (by omega)
      refine ⟨max c (b + blocksFor size), ?_, fun i h1 h2 => ?_⟩
      · show max c (b + blocksFor size) + n ≤ s.heap.total
        omega
      · rw [heapMarkBlocksTaken_taken, decide_eq_false (by omega), Bool.false_or]
        exact hfreeRun i (by omega) (by omega)

/-- Allocating with room for it. -/
theorem kzalloc_spacious (k : Kind Obj α) (size : UInt32) (zero : α) {s : Kernel} (hwf : s.WF) {n : Nat}
    (hpos : 0 < blocksFor size) (hroom : Spacious s.heap (blocksFor size + n)) :
    ∃ ptr s', kzalloc k size zero s = some (ptr, s') ∧ ptr ≠ 0 ∧ Since s s' ∧ s.live ptr = none ∧
      s'.live ptr = some (k.inj zero) ∧ Spacious s'.heap n := by
  obtain ⟨ptr, s', hrun, hcases⟩ := kzalloc_spec k size zero hwf
  have hne : ptr ≠ 0 := mt (hcases.null_iff hwf).mp (hroom.not_noRoom hpos (Nat.le_add_right _ n))
  obtain ⟨hfree, hlive⟩ := hcases.live hne
  exact ⟨ptr, s', hrun, hne, hcases.since hwf, hfree, hlive, hcases.spacious hroom⟩

/-- A block has been asked for, and the object has been filled in through a pointer that may be null. -/
inductive Made (k : Kind Obj α) (a : α) (s : Kernel) : UInt32 → Kernel → Prop
  | null (hfull : freeCount s.heap = 0) : Made k a s 0 s
  | fresh (ptr : UInt32) (heap : Heap) (hne : ptr ≠ 0) (hfree : s.live ptr = none)
      (hcount : freeCount heap + 1 = freeCount s.heap)
      (hsince : Since s { s with heap := heap, live := k.write s.live ptr a })
      (hspacious : ∀ n, Spacious s.heap (1 + n) → Spacious heap n) :
      Made k a s ptr { s with heap := heap, live := k.write s.live ptr a }

/-- Allocate an object of one block and fill it in, without a check of the pointer. -/
theorem made_new {β : Type} {k : Kind Obj α} {size : UInt32} (zero a : α) {s : Kernel}
    {f : UInt32 → KernelM β} (hwf : s.WF) (hone : blocksFor size = 1) :
    ∃ ptr s', Made k a s ptr s' ∧
      (kzalloc k size zero >>= fun ptr => storeUnchecked k ptr a >>= fun _ => f ptr) s = f ptr s' := by
  obtain ⟨ptr, s1, hrun, hcases⟩ := kzalloc_spec k size zero hwf
  have hsince := hcases.since hwf
  have hnull := (hcases.null_iff hwf).trans (noRoom_one_iff hone)
  have hcount := hcases.freeCount hwf
  have hspacious : ∀ n, Spacious s.heap (1 + n) → Spacious s1.heap n := by
    rw [← hone]
    exact fun n => hcases.spacious
  cases hcases with
  | null hnone =>
      refine ⟨0, s, .null (hnull.mp rfl), (bind_of_some hrun).trans ?_⟩
      rw [storeUnchecked_null]
      rfl
  | fresh b ptr hpos hend hfreeRun hptr hne hfree =>
      have hlive : k.write s.live ptr zero ptr = some (k.inj zero) := Kind.write_self ..
      have hwrite : k.write (k.write s.live ptr zero) ptr a = k.write s.live ptr a :=
        Function.update_idem ..
      have hmade := hsince.write (k := k) hfree hlive a
      have hcount' := hcount hne
      dsimp only at hmade hcount'
      rw [hwrite] at hmade
      refine ⟨ptr, _, .fresh ptr _ hne hfree (hone ▸ hcount') hmade hspacious, (bind_of_some hrun).trans ?_⟩
      rw [storeUnchecked_of_ne hne, bind_of_some (store_of_live (k := k) hlive a)]
      dsimp only
      rw [hwrite]

section Made

variable {k : Kind Obj α} {a : α} {s s' : Kernel} {ptr : UInt32}

theorem Made.since (h : Made k a s ptr s') (hwf : s.WF) : Since s s' := by
  cases h with
  | null hfull => exact Since.refl hwf
  | fresh ptr heap hne hfree hcount hsince => exact hsince

theorem Made.requests (h : Made k a s ptr s') : s'.requests = s.requests := by
  cases h with
  | null hfull => rfl
  | fresh ptr heap hne hfree hcount hsince => rfl

theorem Made.count (h : Made k a s ptr s') : freeCount s'.heap = freeCount s.heap - 1 := by
  cases h with
  | null hfull => rw [hfull]
  | fresh ptr heap hne hfree hcount hsince => exact Nat.eq_sub_of_add_eq hcount

theorem Made.spacious (h : Made k a s ptr s') {n : Nat} (hroom : Spacious s.heap (1 + n)) :
    Spacious s'.heap n := by
  cases h with
  | null hfull => exact hroom.mono (Nat.le_add_left n 1)
  | fresh ptr heap hne hfree hcount hsince hspacious => exact hspacious n hroom

theorem Made.ne_zero_iff (h : Made k a s ptr s') : ptr ≠ 0 ↔ 0 < freeCount s.heap := by
  cases h with
  | null hfull => exact iff_of_false (fun h0 => h0 rfl) (by omega)
  | fresh ptr heap hne hfree hcount hsince => exact iff_of_true hne (by omega)

/-- A new object, when its address is not null. -/
theorem Made.live (h : Made k a s ptr s') (hne : ptr ≠ 0) :
    s.live ptr = none ∧ s'.live ptr = some (k.inj a) := by
  cases h with
  | null hfull => exact absurd rfl hne
  | fresh ptr heap _ hfree hcount hsince => exact ⟨hfree, Kind.write_self ..⟩

/-- The other objects are as they were. -/
theorem Made.other (h : Made k a s ptr s') {q : UInt32} (hq : q ≠ ptr) : s'.live q = s.live q := by
  cases h with
  | null hfull => rfl
  | fresh ptr heap hne hfree hcount hsince => exact Kind.write_of_ne _ _ _ hq

/-- Without a free block nothing is allocated. -/
theorem Made.full (h : Made k a s ptr s') (hfull : freeCount s.heap = 0) : ptr = 0 ∧ s' = s := by
  cases h with
  | null _ => exact ⟨rfl, rfl⟩
  | fresh ptr heap hne hfree hcount hsince => omega

end Made

/-- A run of free blocks counts. -/
theorem le_freeCount (heap : Heap) (lo hi : Nat) (hhi : hi ≤ heap.total)
    (hfree : ∀ i : Nat, lo ≤ i → i < hi → isBlockTaken (heap.entries i) = false) :
    hi - lo ≤ freeCount heap := by
  have hsub : Finset.Ico lo hi ⊆ (Finset.range heap.total).filter
      fun i => isBlockTaken (heap.entries (i : Nat)) = false := by
    intro i hi'
    rw [Finset.mem_Ico] at hi'
    rw [Finset.mem_filter, Finset.mem_range]
    exact ⟨by omega, hfree i hi'.1 hi'.2⟩
  have hcard := Finset.card_le_card hsub
  rw [Nat.card_Ico] at hcard
  exact hcard

theorem Spacious.le_freeCount {heap : Heap} {k : Nat} (h : Spacious heap k) : k ≤ freeCount heap := by
  obtain ⟨b, hb, hrun⟩ := h
  have hle := RasOS.le_freeCount heap b (b + k) hb hrun
  omega

/-- What `kzalloc` of bytes has done. -/
structure KzallocBytes (s : Kernel) (size ptr : UInt32) (s' : Kernel) : Prop where
  since : Since s s'
  null_iff : ptr = 0 ↔ NoRoom s.heap size
  null : ptr = 0 → s' = s
  live : ptr ≠ 0 → s.live ptr = none ∧ s'.live ptr = some (rawK.inj ())
  only : ∀ q o, o ≠ rawK.inj () → s'.live q = some o → s.live q = some o
  allocated : ptr ≠ 0 → Allocated s'.heap ptr (blocksFor size)
  freeCount : ptr ≠ 0 → freeCount s'.heap + blocksFor size = freeCount s.heap
  mem : ∀ a, size.toNat ≤ (a - ptr).toNat → s'.mem a = s.mem a
  zero : ptr ≠ 0 → ∀ a, (a - ptr).toNat < size.toNat → s'.mem a = 0

theorem kzallocBytes_spec {s : Kernel} (hwf : s.WF) (size : UInt32) :
    ∃ ptr s', kzallocBytes size s = some (ptr, s') ∧ KzallocBytes s size ptr s' := by
  obtain ⟨ptr, s1, halloc, hcases⟩ := kzalloc_spec rawK size () hwf
  have hsince := hcases.since hwf
  have hnull := hcases.null_iff hwf
  by_cases hptr : ptr = 0
  · have hs1 : s1 = s := by
      cases hcases with
      | null hnone => rfl
      | fresh b ptr hpos hend hrun hptr' hne hfree => exact absurd hptr hne
    subst hs1
    refine ⟨ptr, s1, ?_, hsince, hnull, fun _ => rfl, fun h => absurd hptr h, fun _ _ _ ho => ho,
      fun h => absurd hptr h, fun h => absurd hptr h, fun _ _ => rfl, fun h => absurd hptr h⟩
    rw [kzallocBytes, bind_of_some halloc, if_pos hptr, hptr]
    rfl
  · have hcount := hcases.freeCount hwf
    have hwrite := memWrite_spec (List.replicate size.toNat 0) (Or.inl hptr) s1
    refine ⟨ptr, { s1 with mem := writeBytes s1.mem ptr (List.replicate size.toNat 0) }, ?_,
      ⟨hsince.wf.of_live rfl fun _ o ho => ⟨o, ho⟩, hsince.statics, hsince.slots, hsince.object,
        hsince.allocated⟩, hnull, fun h => absurd h hptr, fun h => hcases.live h, fun q o hne ho => ?_,
      fun h => (hcases.allocated hwf).2 h, hcount, fun a ha => ?_, fun _ a ha => ?_⟩
    · rw [kzallocBytes, bind_of_some halloc, if_neg hptr, bind_of_some hwrite]
      rfl
    · have hlive := (hcases.live hptr).2
      by_cases hq : q = ptr
      · rw [hq] at ho
        exact absurd (Option.some.inj (ho.symm.trans hlive)) hne
      · exact hcases.only hq ho
    · have hmem := hcases.mem
      show writeBytes s1.mem ptr (List.replicate size.toNat 0) a = s.mem a
      rw [writeBytes, List.getElem?_eq_none (by rw [List.length_replicate]; exact ha),
        Option.getD_none, hmem]
    · show writeBytes s1.mem ptr (List.replicate size.toNat 0) a = 0
      rw [writeBytes, List.getElem?_replicate, if_pos ha, Option.getD_some]

/-- With room for them the bytes are there, unless there are none to allocate. -/
theorem kzallocBytes_spacious {s : Kernel} (hwf : s.WF) (size : UInt32) {n : Nat}
    (hroom : Spacious s.heap (blocksFor size + n)) :
    ∃ ptr s', kzallocBytes size s = some (ptr, s') ∧ KzallocBytes s size ptr s' ∧ (size ≠ 0 → ptr ≠ 0) ∧
      Spacious s'.heap n := by
  obtain ⟨ptr, s', hrun, hbytes⟩ := kzallocBytes_spec hwf size
  refine ⟨ptr, s', hrun, hbytes, fun hsize h0 => ?_, ?_⟩
  · have hpos : 0 < blocksFor size := by
      have hne : size.toNat ≠ 0 := fun h => hsize (UInt32.toNat_inj.mp h)
      unfold blocksFor
      omega
    exact hroom.not_noRoom hpos (Nat.le_add_right _ n) (hbytes.null_iff.mp h0)
  · obtain ⟨ptr', s1, halloc, hrest⟩ := bind_eq_some.mp hrun
    have hroom1 := (kzalloc_cases hwf halloc).spacious hroom
    by_cases h0 : ptr' = 0
    · rw [if_pos h0] at hrest
      obtain ⟨-, rfl⟩ := pure_eq_some.mp hrest
      exact hroom1
    · rw [if_neg h0, bind_of_some (memWrite_spec _ (Or.inl h0) s1)] at hrest
      obtain ⟨-, rfl⟩ := pure_eq_some.mp hrest
      exact hroom1

end RasOS
