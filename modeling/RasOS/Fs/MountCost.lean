import RasOS.Fs.Resolve
import RasOS.Lib.Graded
import RasOS.Task.CleanHeap

set_option autoImplicit false

/-! # What mounting takes from the heap

`fat16_resolve` allocates the private data, four streams and the root directory. The last is as long as a 16-bit
field of the boot sector says, so that the whole takes at most 517 blocks, whatever is on the disk. -/

namespace RasOS

open Machine

/-! ## An account of blocks -/

theorem freeCount_le_of {heap heap' : Heap} (htotal : heap'.total = heap.total)
    (h : ∀ i : Nat, isBlockTaken (heap.entries i) = false → isBlockTaken (heap'.entries i) = false) :
    freeCount heap ≤ freeCount heap' := by
  refine Finset.card_le_card fun i hi => ?_
  rw [Finset.mem_filter, Finset.mem_range] at hi ⊢
  rw [htotal]
  exact ⟨hi.1, h i hi.2⟩

/-- Whatever is freed, no block is taken by it. -/
theorem freeCount_heapFree (heap : Heap) (ptr : UInt32) : freeCount heap ≤ freeCount (heapFree heap ptr) := by
  refine freeCount_le_of (heapFree_total heap ptr) fun i hi => ?_
  rw [heapFree, heapMarkBlocksFree_entries]
  split
  · by_cases hib : (i : Int) = heapAddressToBlock heap ptr
    · rw [hib, Function.update_self]
      rfl
    · rw [Function.update_of_ne hib]
      exact hi
  · exact hi

/-- At most `n` blocks have been taken, and of the rest of the state only the requests and the disk have changed. -/
structure TookBlocks (n : Nat) (s s' : Kernel) : Prop where
  wf : s'.WF
  clean : CleanHeap s.heap → CleanHeap s'.heap
  count : freeCount s.heap ≤ freeCount s'.heap + n
  rest : s' = { s with heap := s'.heap, live := s'.live, requests := s'.requests, disk := s'.disk }

/-- The same, of a kernel whose heap is in order. -/
def Takes (n : Nat) (s s' : Kernel) : Prop := s.WF → TookBlocks n s s'

theorem takes_graded : Graded Takes where
  refl := fun s hwf => ⟨hwf, id, Nat.le_refl _, rfl⟩
  trans := by
    intro n m s s' s'' h h' hwf
    have h1 := h hwf
    have h2 := h' h1.wf
    have hcount1 := h1.count
    have hcount2 := h2.count
    refine ⟨h2.wf, fun hclean => h2.clean (h1.clean hclean), by omega, ?_⟩
    have hrest := h2.rest
    rw [h1.rest] at hrest
    exact hrest
  mono := by
    intro n m s s' hle h hwf
    have h1 := h hwf
    have hcount := h1.count
    exact ⟨h1.wf, h1.clean, by omega, h1.rest⟩

variable {α : Type}

theorem takes_kzalloc (k : Kind Obj α) (zero : α) {size : UInt32} {n : Nat} (hn : blocksFor size ≤ n) :
    Keeps (Takes n) (kzalloc k size zero) := by
  intro s ptr s' h hwf
  have hclean := keepsClean_kzalloc k size zero s ptr s' h
  have hcases := kzalloc_cases hwf h
  refine ⟨hwf.kzalloc hcases, hclean, ?_, ?_⟩
  · by_cases hnull : ptr = 0
    · cases hcases with
      | null hnone => exact Nat.le_add_right _ _
      | fresh b ptr hpos hend hrun hptr hne hfree => exact absurd hnull hne
    · have hcount := hcases.freeCount hwf hnull
      omega
  · obtain ⟨-, rfl⟩ := Prod.mk.inj (Option.some.inj h)
    rfl

theorem takes_store (k : Kind Obj α) (ptr : UInt32) (a : α) : Keeps (Takes 0) (store k ptr a) := by
  intro s u s' h hwf
  obtain ⟨⟨b, hb⟩, rfl⟩ := store_eq_some.mp h
  exact ⟨hwf.write hb a, id, Nat.le_refl _, rfl⟩

theorem takes_kfree (k : Kind Obj α) (ptr : UInt32) : Keeps (Takes 0) (kfree k ptr) := by
  intro s u s' h hwf
  obtain ⟨⟨b, hb⟩, rfl⟩ := kfree_eq_some.mp h
  exact ⟨hwf.free hb, fun hclean => hclean.free ptr, freeCount_heapFree _ _, rfl⟩

theorem takes_storeUnchecked (k : Kind Obj α) (ptr : UInt32) (a : α) : Keeps (Takes 0) (storeUnchecked k ptr a) :=
  Keeps.ite (Keeps.pure takes_graded.frame _) (takes_store k ptr a)

theorem takes_kfreeUnchecked (k : Kind Obj α) (ptr : UInt32) : Keeps (Takes 0) (kfreeUnchecked k ptr) := by
  refine Keeps.ite (fun s u s' h hwf => ?_) (takes_kfree k ptr)
  obtain ⟨-, rfl⟩ := Prod.mk.inj (Option.some.inj h)
  exact ⟨hwf.freeNull, fun hclean => hclean.free 0, freeCount_heapFree _ _, rfl⟩

theorem takes_disk (disk : Disk) : Keeps (Takes 0) (assign fun s => { s with disk := disk }) := by
  intro s u s' h hwf
  obtain ⟨-, rfl⟩ := Prod.mk.inj (Option.some.inj h)
  exact ⟨hwf.of_live rfl fun _ o ho => ⟨o, ho⟩, id, Nat.le_refl _, rfl⟩

theorem takes_rules : StreamRules (Takes 0) where
  frame := takes_graded.frame
  seek := fun stream st => takes_store diskStreamK stream st
  sector := by
    intro lba s r s' h hwf
    rw [diskReadBlock_state h]
    exact ⟨hwf.of_live rfl fun _ o ho => ⟨o, ho⟩, id, Nat.le_refl _, rfl⟩

/-! ## Mounting -/

/-- The size of a root directory has 21 bits. -/
theorem blocksFor_root (entries : UInt16) :
    blocksFor (UInt32.ofInt ((entries.toNat : Int) * SIZEOF_FAT_DIRECTORY_ITEM)) ≤ 512 := by
  have hlt := entries.toNat_lt
  have hsize : (UInt32.ofInt ((entries.toNat : Int) * SIZEOF_FAT_DIRECTORY_ITEM)).toNat = entries.toNat * 32 := by
    rw [toNat_ofInt]
    simp only [SIZEOF_FAT_DIRECTORY_ITEM]
    omega
  rw [blocksFor, hsize]
  omega

theorem takes_diskstreamerNew : Keeps (Takes 1) diskstreamerNew := by
  have hone : blocksFor SIZEOF_DISK_STREAM ≤ 1 := by decide
  refine takes_graded.bind_last (takes_kzalloc diskStreamK _ hone) fun stream => ?_
  exact takes_rules.bind (takes_storeUnchecked _ _ _) fun _ => takes_rules.pure _

theorem takes_fat16GetRootDirectory (p : UInt32) : Keeps (Takes 512) (fat16GetRootDirectory p) := by
  have hR := takes_rules
  refine takes_graded.bind_free (hR.load _ _) fun priv => ?_
  refine takes_graded.bind_free (hR.fat16GetTotalItemsForDirectory _) fun total => ?_
  refine takes_graded.bind_last (takes_kzalloc dirItemsK _ (blocksFor_root _)) fun dir => ?_
  refine Keeps.ite (hR.pure _) (hR.bind (hR.diskstreamerSeek _ _) fun res => Keeps.ite (hR.pure _) ?_)
  refine hR.bind (hR.diskstreamerRead _ _) ?_
  rintro ⟨res, bytes⟩
  refine hR.bind (takes_store _ _ _) fun _ => Keeps.ite (hR.pure _) (hR.bind (hR.load _ _) fun priv => ?_)
  exact hR.bind (takes_store _ _ _) fun _ => hR.pure _

/-- **What mounting takes**, however it ends. -/
theorem takes_fat16Resolve : Keeps (Takes 517) fat16Resolve := by
  have hR := takes_rules
  have hnew := takes_diskstreamerNew
  have hone : blocksFor SIZEOF_FAT_PRIVATE ≤ 1 := by decide
  have hprivate : Keeps (Takes 5) resolvePrivate := by
    refine takes_graded.bind (n := 1) (m := 4) (takes_kzalloc fatPrivateK _ hone) fun p => ?_
    refine takes_graded.bind_free (takes_storeUnchecked _ _ _) fun _ => ?_
    refine takes_graded.bind (n := 1) (m := 3) hnew fun _ => takes_graded.bind (n := 1) (m := 2) hnew fun _ => ?_
    refine takes_graded.bind (n := 1) (m := 1) hnew fun _ => takes_graded.bind_free (takes_storeUnchecked _ _ _) fun _ => ?_
    refine takes_graded.bind_free (takes_disk _) fun _ => takes_graded.bind_last hnew fun _ => hR.pure _
  have hboot : ∀ p stream, Keeps (Takes 0) (resolveBoot p stream) := by
    intro p stream
    refine Keeps.ite (hR.pure _) (hR.bind (hR.diskstreamerRead _ _) ?_)
    rintro ⟨res, bytes⟩
    refine hR.bind (hR.load _ _) fun priv => hR.bind (takes_store _ _ _) fun _ => ?_
    exact Keeps.ite (hR.pure _) (Keeps.ite (hR.pure _) (hR.pure _))
  have hroot : ∀ p status, Keeps (Takes 512) (resolveRoot p status) := by
    intro p status
    refine Keeps.ite (takes_graded.pure 512 _) ?_
    refine takes_graded.bind_last (takes_fat16GetRootDirectory p) fun res => ?_
    exact Keeps.ite (hR.pure _) (hR.pure _)
  have hout : ∀ p stream res, Keeps (Takes 0) (resolveOut p stream res) := by
    intro p stream res
    have hend : Keeps (Takes 0) (if res < 0 then do
        kfreeUnchecked fatPrivateK p
        assign fun s => { s with disk := { filesystem := none, fs_private := 0 } }
        return res
      else return res) :=
      Keeps.ite (hR.bind (takes_kfreeUnchecked _ _) fun _ => hR.bind (takes_disk _) fun _ => hR.pure _) (hR.pure _)
    exact Keeps.ite (hR.bind (takes_kfree _ _) fun _ => hend) hend
  rw [fat16Resolve_parts]
  refine takes_graded.bind (n := 5) (m := 512) hprivate fun r => ?_
  refine takes_graded.bind_free (hboot _ _) fun status => ?_
  exact takes_graded.bind_last (hroot _ _) fun res => hout _ _ res

end RasOS
