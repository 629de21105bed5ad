import RasOS.Memory.PagingDirectory

set_option autoImplicit false

/-! # The life of a directory

A directory is created as the identity map of the address space, changed by calls of `paging_set`,
`paging_map` and `paging_map_to`, and freed. The calls change the entries of its tables and nothing
else, so the blocks that are freed in the end are those that were taken in the beginning. -/

namespace RasOS

open Machine

/-! ## A fresh kernel -/

/-- A kernel without objects whose first `n` blocks are free, on zeroed memory. -/
def bareKernel (n : Nat) : Kernel where
  heap := {
    entries := memsetEntries (fun _ => 0x41) HEAP_BLOCK_ENTRY_FREE n
    total := 25600
    start_address := RASOS_HEAP_ADDRESS
    total_lt := kheapTotal_lt }
  mem := fun _ => 0
  live := fun _ => none
  drive := fun _ _ => none
  requests := []
  disk := {}
  file_descriptors := fun _ => 0
  processes := fun _ => 0
  current_process := 0
  current_task := 0
  task_head := 0
  task_tail := 0
  current_directory := 0

theorem bareKernel_wf (n : Nat) : (bareKernel n).WF where
  start := rfl
  total := rfl
  block := fun _ _ h => by cases h

theorem bareKernel_taken (n i : Nat) : isBlockTaken ((bareKernel n).heap.entries i) = false ↔ i < n := by
  show isBlockTaken (memsetEntries (fun _ => 0x41) HEAP_BLOCK_ENTRY_FREE n i) = false ↔ i < n
  rw [memsetEntries]
  by_cases hi : i < n
  · rw [if_pos (by omega)]
    exact iff_of_true (by decide) hi
  · rw [if_neg (by omega)]
    exact iff_of_false (by decide) hi

theorem bareKernel_freeCount {n : Nat} (hn : n ≤ 25600) : freeCount (bareKernel n).heap = n := by
  have hfilter : (Finset.range 25600).filter (fun i => isBlockTaken ((bareKernel n).heap.entries (i : Nat)) = false)
      = Finset.range n := by
    ext i
    rw [Finset.mem_filter, Finset.mem_range, Finset.mem_range, bareKernel_taken]
    omega
  calc freeCount (bareKernel n).heap = (Finset.range n).card := congrArg Finset.card hfilter
    _ = n := Finset.card_range n

theorem bareKernel_clean (n : Nat) : CleanHeap (bareKernel n).heap := by
  intro i _ hfree
  have hi := (bareKernel_taken n i).mp hfree
  exact if_pos (by omega)

/-- A kernel that has just initialised its heap. -/
def freshKernel : Kernel := bareKernel 25600

theorem freshKernel_wf : freshKernel.WF := bareKernel_wf 25600

theorem freshKernel_freeCount : freeCount freshKernel.heap = 25600 := bareKernel_freeCount (Nat.le_refl _)

theorem freshKernel_reachable : ReachableHeap freshKernel.heap :=
  ⟨fun _ => 0x41, freshKernel.heap, [], ⟨freshKernel.heap, []⟩, rfl, rfl, rfl⟩

/-- A directory for a fresh kernel. -/
theorem freshKernel_directory : ∃ chunk directory e s, pagingNew4gb PAGING_IS_PRESENT freshKernel = some (chunk, s) ∧
    MapsBy s chunk directory e (identityEntry PAGING_IS_PRESENT) := by
  have hroom := freshKernel_freeCount
  rcases pagingNew4gb_cases freshKernel_wf (by decide : PAGING_IS_PRESENT.toNat < 4096) with
    ⟨hlt, -⟩ | ⟨chunk, directory, e, s, hrun, -, hnew, -⟩
  · omega
  · exact ⟨chunk, directory, e, s, hrun, hnew.maps⟩

/-! ## Mapping a range -/

/-- The number of pages of a range. -/
def pageCount (phys phys_end : UInt32) : Nat := (phys_end - phys).toNat / 4096

/-- The page `i` pages behind `address`, modulo `2 ^ 32`. -/
def pageAfter (address : UInt32) (i : Nat) : UInt32 := address + UInt32.ofNat (4096 * i)

theorem pageAfter_aligned {address : UInt32} (h : address.toNat % 4096 = 0) (i : Nat) :
    (pageAfter address i).toNat % 4096 = 0 := by
  rw [pageAfter, UInt32.toNat_add, UInt32.toNat_ofNat']
  omega

/-- An aligned address is determined by its page. -/
theorem eq_of_page_eq {a b : UInt32} (ha : a.toNat % 4096 = 0) (hb : b.toNat % 4096 = 0)
    (h : a.toNat / 4096 = b.toNat / 4096) : a = b := by
  apply UInt32.toNat_inj.mp
  omega

theorem pageCount_lt {phys phys_end : UInt32} : pageCount phys phys_end ≤ 2 ^ 20 := by
  have hlt := (phys_end - phys).toNat_lt
  rw [pageCount]
  omega

/-- **Mapping a range** maps all of it, and nothing else, or changes nothing. The addresses wrap around
at the top of the address space. -/
theorem pagingMapTo_pages {s : Kernel} {chunk directory : UInt32} {e m : Nat → UInt32}
    (h : MapsBy s chunk directory e m) (virt phys phys_end flags : UInt32) :
    ∃ res s', pagingMapTo chunk virt phys phys_end flags s = some (res, s') ∧
      (res = - EINVARG ∧ s' = s ↔ ¬ WholePages virt phys phys_end) ∧
      (WholePages virt phys phys_end → res = OK ∧
        (∀ i < pageCount phys phys_end, pagingGetTableEntry directory (pageAfter virt i) s'
          = some (pageAfter phys i ||| flags, s')) ∧
        ∀ va : UInt32, va.toNat % 4096 = 0 → (∀ i < pageCount phys phys_end, va ≠ pageAfter virt i) →
          ∃ entry, pagingGetTableEntry directory va s = some (entry, s) ∧
            pagingGetTableEntry directory va s' = some (entry, s')) := by
  rcases pagingMapTo_cases h virt phys phys_end flags with ⟨hno, hrun⟩ | ⟨hok, s', hrun, honly, hmaps⟩
  · exact ⟨_, s, hrun, iff_of_true ⟨rfl, rfl⟩ hno, fun hok => absurd hok hno⟩
  · refine ⟨_, s', hrun, iff_of_false (fun hres => ?_) (not_not_intro hok), fun _ => ⟨rfl, fun i hi => ?_,
      fun va hva hother => ?_⟩⟩
    · exact absurd hres.1 (by decide)
    · have hlast : lastWrite ((pageAfter virt i).toNat / 4096) (mapToWrites virt phys phys_end flags)
          = some (pageAfter phys i ||| flags) :=
        (lastWrite_rangeWrites pageCount_lt).mpr ⟨i, hi, rfl, rfl⟩
      rw [pagingGetTableEntry_entries hmaps.2 (pageAfter_aligned hok.1 i), overlay_apply, hlast]
      rfl
    · have hnone : lastWrite (va.toNat / 4096) (mapToWrites virt phys phys_end flags) = none := by
        refine lastWrite_rangeWrites_none.mpr fun i hi heq => hother i hi ?_
        exact eq_of_page_eq hva (pageAfter_aligned hok.1 i) heq.symm
      refine ⟨m (va.toNat / 4096), pagingGetTableEntry_entries h.2 hva, ?_⟩
      rw [pagingGetTableEntry_entries hmaps.2 hva, overlay_apply, hnone]
      rfl

theorem pagingMapTo_pages_fresh : ∃ chunk directory s s',
    pagingMapTo chunk 0x00400000 0x02000000 0x02002000 7 s = some (OK, s') ∧
      pagingGetTableEntry directory 0x00401000 s' = some (0x02001007, s') := by
  obtain ⟨chunk, directory, e, s, -, hmaps⟩ := freshKernel_directory
  have hwhole : WholePages 0x00400000 0x02000000 0x02002000 := by unfold WholePages; decide
  obtain ⟨res, s', hrun, -, hok⟩ := pagingMapTo_pages hmaps 0x00400000 0x02000000 0x02002000 7
  obtain ⟨rfl, hpages, -⟩ := hok hwhole
  exact ⟨chunk, directory, s, s', hrun, hpages 1 (by decide)⟩

/-! ## The identity map -/

theorem identityEntry_page {flags : UInt32} (hflags : flags.toNat < 4096) {page : Nat} (hpage : page < 2 ^ 20) :
    (identityEntry flags page &&& 0xfffff000).toNat = 4096 * page ∧ identityEntry flags page &&& 0xfff = flags := by
  have haligned : (UInt32.ofNat (4096 * page)).toNat = 4096 * page := toNat_ofNat_of_lt (by omega)
  constructor
  · rw [identityEntry, page_or_flags (by omega) hflags, haligned]
  · rw [identityEntry, flags_or_page (by omega) (by decide), and_low_flags hflags]

theorem pageAddress_identity {flags : UInt32} (hflags : flags.toNat < 4096) (va : UInt32) :
    pageAddress (identityEntry flags (va.toNat / 4096)) va = va := by
  have hlt := va.toNat_lt
  obtain ⟨hpage, -⟩ := identityEntry_page hflags (by omega : va.toNat / 4096 < 2 ^ 20)
  rw [toNat_and_page] at hpage
  apply UInt32.toNat_inj.mp
  calc (pageAddress (identityEntry flags (va.toNat / 4096)) va).toNat
      = (identityEntry flags (va.toNat / 4096)).toNat / 4096 * 4096 + va.toNat % 4096 := toNat_page_or_low _ _
    _ = 4096 * (va.toNat / 4096) + va.toNat % 4096 := by rw [hpage]
    _ = va.toNat := Nat.div_add_mod va.toNat 4096

/-- A page that is mapped to itself is in its place. -/
theorem identityEntry_mapped {flags : UInt32} (hflags : flags.toNat < 4096) (hpresent : flags &&& PAGING_IS_PRESENT ≠ 0)
    {page : Nat} (hpage : page < 2 ^ 20) : IdentityMapped page (identityEntry flags page) := by
  obtain ⟨haddress, hlow⟩ := identityEntry_page hflags hpage
  refine ⟨fun hzero => hpresent ?_, haddress⟩
  calc flags &&& PAGING_IS_PRESENT = identityEntry flags page &&& 0xfff &&& PAGING_IS_PRESENT := by rw [hlow]
    _ = identityEntry flags page &&& PAGING_IS_PRESENT := by rw [UInt32.and_assoc]; rfl
    _ = 0 := hzero

theorem kernelInPlace_identity {flags : UInt32} {e : Nat → UInt32} (hflags : flags.toNat < 4096)
    (hpresent : flags &&& PAGING_IS_PRESENT ≠ 0) (he : ∀ i < 1024, e i &&& PAGING_IS_PRESENT ≠ 0)
    (image_end stack_begin : Nat) (kernel_chunk : UInt32) :
    KernelInPlace image_end stack_begin kernel_chunk e (identityEntry flags) :=
  fun _ hpage _ => ⟨he _ (by omega), identityEntry_mapped hflags hpresent hpage⟩

/-- **A new directory is the identity map** of all addresses, with the flags given. -/
theorem pagingNew4gb_identity {s : Kernel} {flags : UInt32} (hwf : s.WF) (hflags : flags.toNat < 256)
    (hroom : 1026 ≤ freeCount s.heap) :
    ∃ chunk directory e s', pagingNew4gb flags s = some (chunk, s') ∧
      s'.live chunk = some (chunkK.inj directory) ∧ s'.live directory = some (tableK.inj e) ∧
      (∀ i < 1024, (e i &&& 0xfffff000).toNat % 4096 = 0 ∧ e i &&& 0xfff = flags ||| PAGING_IS_WRITABLE ∧
        ∃ t, s'.live (e i &&& 0xfffff000) = some (tableK.inj t)) ∧
      (∀ i j, i < 1024 → j < 1024 → e i &&& 0xfffff000 = e j &&& 0xfffff000 → i = j) ∧
      ∀ va : UInt32, ∃ entry, pageWalk s' directory va = some (e (va.toNat / 2 ^ 22), entry) ∧
        pageAddress entry va = va ∧ entry &&& 0xfff = flags := by
  have hflags' : flags.toNat < 4096 := by omega
  rcases pagingNew4gb_cases hwf hflags' with ⟨hlt, -⟩ | ⟨chunk, directory, e, s', hrun, -, hnew, -⟩
  · omega
  · obtain ⟨hchunk, hdir⟩ := hnew.maps
    refine ⟨chunk, directory, e, s', hrun, hchunk, hdir.entries, fun i hi => ⟨?_, hnew.flags i hi, ?_⟩,
      hdir.inj, fun va => ⟨_, hdir.pageWalk va, pageAddress_identity hflags' va, ?_⟩⟩
    · rw [toNat_and_page]
      omega
    · obtain ⟨t, ht, -⟩ := hdir.values i hi
      exact ⟨t, ht⟩
    · have hlt := va.toNat_lt
      exact (identityEntry_page hflags' (by omega)).2

theorem pagingNew4gb_identity_fresh :
    ∃ chunk directory e s', pagingNew4gb 5 freshKernel = some (chunk, s') ∧
      s'.live chunk = some (chunkK.inj directory) ∧ s'.live directory = some (tableK.inj e) ∧
      ∃ entry, pageWalk s' directory 0xDEADBEEF = some (e 890, entry) ∧ pageAddress entry 0xDEADBEEF = 0xDEADBEEF ∧
        entry &&& 0xfff = 5 := by
  have hroom := freshKernel_freeCount
  obtain ⟨chunk, directory, e, s', hrun, hchunk, hentries, -, -, hwalk⟩ :=
    pagingNew4gb_identity freshKernel_wf (by decide : (5 : UInt32).toNat < 256) (by omega)
  exact ⟨chunk, directory, e, s', hrun, hchunk, hentries, hwalk 0xDEADBEEF⟩

/-! ## Creating, changing and freeing -/

/-- The calls that change a directory. -/
inductive PagingCall
  | set (virtual_address val : UInt32)
  | map (virt phys flags : UInt32)
  | mapTo (virt phys phys_end flags : UInt32)

/-- A call on the directory of `chunk`. -/
def PagingCall.run (chunk : UInt32) : PagingCall → KernelM Int
  | .set virtual_address val => do
      let directory ← load chunkK chunk
      pagingSet directory virtual_address val
  | .map virt phys flags => pagingMap chunk virt phys flags
  | .mapTo virt phys phys_end flags => pagingMapTo chunk virt phys phys_end flags

def pagingCalls (chunk : UInt32) : List PagingCall → KernelM Unit
  | [] => return ()
  | call :: calls => do
      let _ ← call.run chunk
      pagingCalls chunk calls

/-- One call changes entries only. -/
theorem PagingCall.run_entries {s : Kernel} {chunk directory : UInt32} {e m : Nat → UInt32}
    (h : MapsBy s chunk directory e m) (call : PagingCall) :
    ∃ res s' m', call.run chunk s = some (res, s') ∧ EntriesOnly e s s' ∧ MapsBy s' chunk directory e m' := by
  cases call with
  | set virtual_address val =>
      by_cases hvirt : virtual_address.toNat % 4096 = 0
      · obtain ⟨s', hset, honly, hdir⟩ := pagingSet_entries h.2 hvirt val
        refine ⟨OK, s', _, ?_, honly, ?_, hdir⟩
        · rw [PagingCall.run, bind_of_some (load_of_live h.1)]
          exact hset
        · exact (honly.tablesOnly h.2 hdir).object _ _ h.1 fun t heq => by cases heq
      · have hno : pagingIsAligned virtual_address = false := by simp [pagingIsAligned, hvirt]
        refine ⟨- EINVARG, s, m, ?_, EntriesOnly.refl e s, h⟩
        rw [PagingCall.run, bind_of_some (load_of_live h.1), pagingSet, hno]
        rfl
  | map virt phys flags =>
      by_cases hvirt : virt.toNat % 4096 = 0 ∧ phys.toNat % 4096 = 0
      · obtain ⟨s', hmap, honly, hmaps⟩ := pagingMap_entries h hvirt.1 hvirt.2 flags
        exact ⟨OK, s', _, hmap, honly, hmaps⟩
      · have hno : virt.toNat % PAGE_SIZE ≠ 0 ∨ phys.toNat % PAGE_SIZE ≠ 0 := by
          rw [not_and_or] at hvirt
          exact hvirt
        refine ⟨- EINVARG, s, m, ?_, EntriesOnly.refl e s, h⟩
        rw [PagingCall.run, pagingMap, if_pos hno]
        rfl
  | mapTo virt phys phys_end flags =>
      rcases pagingMapTo_cases h virt phys phys_end flags with ⟨-, hrun⟩ | ⟨-, s', hrun, honly, hmaps⟩
      · exact ⟨_, s, m, hrun, EntriesOnly.refl e s, h⟩
      · exact ⟨_, s', _, hrun, honly, hmaps⟩

theorem pagingCalls_entries {chunk directory : UInt32} {e : Nat → UInt32} :
    ∀ (calls : List PagingCall) (s : Kernel) (m : Nat → UInt32), MapsBy s chunk directory e m →
      ∃ s' m', pagingCalls chunk calls s = some ((), s') ∧ EntriesOnly e s s' ∧ MapsBy s' chunk directory e m' := by
  intro calls
  induction calls with
  | nil => exact fun s m h => ⟨s, m, rfl, EntriesOnly.refl e s, h⟩
  | cons call calls ih =>
      intro s m h
      obtain ⟨res, s1, m1, hcall, honly1, h1⟩ := call.run_entries h
      obtain ⟨s2, m2, hcalls, honly2, h2⟩ := ih s1 m1 h1
      refine ⟨s2, m2, ?_, honly1.trans honly2, h2⟩
      rw [pagingCalls, bind_of_some hcall]
      exact hcalls

/-- The blocks of a directory stay lent while its entries change. -/
theorem Lent.entriesOnly {s0 s s' : Kernel} {chunk directory : UInt32} {e m : Nat → UInt32}
    (h : Lent s0 (ChunkBlock chunk directory e) s) (honly : EntriesOnly e s s')
    (hmaps : MapsBy s' chunk directory e m) : Lent s0 (ChunkBlock chunk directory e) s' := by
  rw [honly.rest]
  refine h.objects (fun q hq => honly.other q fun i hi heq => hq (Or.inr (Or.inr ⟨i, hi, heq⟩))) fun q hq => ?_
  rcases hq with rfl | rfl | ⟨i, hi, rfl⟩
  · exact ⟨_, hmaps.1⟩
  · exact ⟨_, hmaps.2.entries⟩
  · obtain ⟨t, ht, -⟩ := hmaps.2.values i hi
    exact ⟨_, ht⟩

/-- **The life of a directory leaves no trace.** Each of the 1026 blocks taken is freed once, and the
state is what it was. -/
theorem pagingFree4gb_restores {s : Kernel} {flags : UInt32} (hwf : s.WF) (hheap : ReachableHeap s.heap)
    (hroom : 1026 ≤ freeCount s.heap) (hflags : flags.toNat < 256) (calls : List PagingCall) :
    ∃ chunk s1 s2, ∃ ptrs : List UInt32, pagingNew4gb flags s = some (chunk, s1) ∧
      pagingCalls chunk calls s1 = some ((), s2) ∧
      pagingFree4gb chunk s2 = some ((), ptrs.foldl freed s2) ∧ ptrs.foldl freed s2 = s ∧
      ptrs.length = 1026 ∧ ptrs.Nodup ∧ (∀ q ∈ ptrs, s.live q = none ∧ ∃ o, s1.live q = some o) ∧
      ∀ q, q ∉ ptrs → s1.live q = s.live q := by
  rcases pagingNew4gb_cases hwf (by omega : flags.toNat < 4096) with
    ⟨hlt, -⟩ | ⟨chunk, directory, e, s1, hrun, -, hnew, -⟩
  · omega
  · obtain ⟨s2, m2, hcalls, honly, hmaps⟩ := pagingCalls_entries calls s1 _ hnew.maps
    have hfreed := Lent.freeAll hwf hheap.clean (directoryBlocks chunk directory e) s2 _
      (hnew.lent.entriesOnly honly hmaps) (directoryBlocks_nodup hmaps) fun q hq => mem_directoryBlocks.mp hq
    refine ⟨chunk, s1, s2, directoryBlocks chunk directory e, hrun, hcalls, pagingFree4gb_run hmaps,
      hfreed.returned hwf fun q hq => hq.1 (mem_directoryBlocks.mpr hq.2), ?_, directoryBlocks_nodup hmaps,
      fun q hq => ⟨hnew.lent.fresh q (mem_directoryBlocks.mp hq), hnew.lent.live q (mem_directoryBlocks.mp hq)⟩,
      fun q hq => hnew.lent.other q fun hP => hq (mem_directoryBlocks.mpr hP)⟩
    rw [directoryBlocks, List.length_append, List.length_map, List.length_range']
    rfl

theorem pagingFree4gb_restores_fresh : ∃ chunk s1 s2, pagingNew4gb 5 freshKernel = some (chunk, s1) ∧
    pagingCalls chunk [.mapTo 0x00400000 0x02000000 0x02002000 7, .set 0x00400000 0] s1 = some ((), s2) ∧
      pagingFree4gb chunk s2 = some ((), freshKernel) := by
  have hroom := freshKernel_freeCount
  obtain ⟨chunk, s1, s2, ptrs, hnew, hcalls, hfree, hback, -⟩ :=
    pagingFree4gb_restores freshKernel_wf freshKernel_reachable (by omega) (by decide : (5 : UInt32).toNat < 256)
      [.mapTo 0x00400000 0x02000000 0x02002000 7, .set 0x00400000 0]
  rw [hback] at hfree
  exact ⟨chunk, s1, s2, hnew, hcalls, hfree⟩

end RasOS
