import RasOS.Memory.PagingSpec
import RasOS.Memory.Lent

set_option autoImplicit false

/-! # Creating and freeing a directory

`paging_new_4gb` takes 1026 blocks, one by one: the directory, its tables and the chunk. It returns
null when it runs out of them, and otherwise a chunk whose directory maps every page to itself.
`paging_free_4gb` of such a chunk gives all of them back. -/

namespace RasOS

open Machine

/-- The entry of a page that is mapped to itself. -/
def identityEntry (flags : UInt32) (page : Nat) : UInt32 := UInt32.ofNat (4096 * page) ||| flags

theorem fillTable_apply (offset : Int) (flags : UInt32) :
    ∀ n j : Nat, j < n → fillTable offset flags n j = UInt32.ofInt (offset + j * PAGE_SIZE) ||| flags := by
  intro n
  induction n with
  | zero => exact fun j hj => absurd hj (Nat.not_lt_zero j)
  | succ n ih =>
      intro j hj
      rw [fillTable]
      by_cases hjn : j = n
      · rw [hjn, Function.update_self]
      · rw [Function.update_of_ne hjn, ih j (by omega)]

/-- The table of directory entry `i`; `offset` is `4096 * 1024 * i` as an `int`. -/
theorem fillTable_identity {offset : Int} {i : Nat} (hoffset : offset % 2 ^ 32 = 4194304 * i % 2 ^ 32)
    (flags : UInt32) {j : Nat} (hj : j < 1024) :
    fillTable offset flags 1024 j = identityEntry flags (1024 * i + j) := by
  rw [fillTable_apply _ _ _ _ hj, identityEntry]
  congr 1
  apply UInt32.toNat_inj.mp
  rw [toNat_ofInt, UInt32.toNat_ofNat', PAGE_SIZE]
  omega

theorem Kernel.WF.aligned {s : Kernel} (h : s.WF) {ptr : UInt32} {o : Obj}
    (hlive : s.live ptr = some o) : ptr.toNat % 4096 = 0 := by
  obtain ⟨b, -, hb⟩ := h.range hlive
  omega

/-- One more table: a new object at `ptr`, and an entry that points to it. -/
theorem Directory.extend {s s1 : Kernel} {directory ptr entry : UInt32} {m t e : Nat → UInt32} {n : Nat}
    (h : Directory s directory e n m) (hsince : Since s s1) (hfree : s.live ptr = none)
    (hentry : entry &&& 0xfffff000 = ptr) (hvalues : ∀ j < 1024, t j = m (1024 * n + j)) :
    Directory
      { s1 with live := tableK.write (tableK.write s1.live ptr t) directory (Function.update e n entry) }
      directory (Function.update e n entry) (n + 1) m := by
  have hne : ptr ≠ directory := by
    rintro rfl
    cases hfree.symm.trans h.entries
  have hlive : ∀ i < n, e i &&& 0xfffff000 ≠ ptr := by
    intro i hi heq
    obtain ⟨u, hu, -⟩ := h.values i hi
    rw [heq, hfree] at hu
    cases hu
  refine ⟨Kind.write_self .., fun i hi => ?_, fun i j hi hj heq => ?_, fun i hi => ?_⟩
  · by_cases hin : i = n
    · rw [hin, Function.update_self, hentry]
      exact ⟨t, (Kind.write_of_ne _ _ _ hne).trans (Kind.write_self ..), hvalues⟩
    · obtain ⟨u, hu, huvalues⟩ := h.values i (by omega)
      rw [Function.update_of_ne hin]
      refine ⟨u, ?_, huvalues⟩
      calc tableK.write (tableK.write s1.live ptr t) directory _ (e i &&& 0xfffff000)
          = tableK.write s1.live ptr t (e i &&& 0xfffff000) := Kind.write_of_ne _ _ _ (h.ne i (by omega))
        _ = s1.live (e i &&& 0xfffff000) := Kind.write_of_ne _ _ _ (hlive i (by omega))
        _ = some (tableK.inj u) := hsince.object _ _ hu
  · by_cases hin : i = n
    · by_cases hjn : j = n
      · rw [hin, hjn]
      · rw [hin, Function.update_self, Function.update_of_ne hjn, hentry] at heq
        exact absurd heq.symm (hlive j (by omega))
    · by_cases hjn : j = n
      · rw [hjn, Function.update_self, Function.update_of_ne hin, hentry] at heq
        exact absurd heq (hlive i (by omega))
      · rw [Function.update_of_ne hin, Function.update_of_ne hjn] at heq
        exact h.inj i j (by omega) (by omega) heq
  · by_cases hin : i = n
    · rw [hin, Function.update_self, hentry]
      exact hne
    · rw [Function.update_of_ne hin]
      exact h.ne i (by omega)

/-- The blocks of a directory and of its first `n` tables. -/
def DirectoryBlock (directory : UInt32) (e : Nat → UInt32) (n : Nat) (q : UInt32) : Prop :=
  q = directory ∨ ∃ i < n, q = e i &&& 0xfffff000

/-- A directory that is being filled: `n` of its tables have been made since `s0`. -/
structure Filling (s0 : Kernel) (directory flags : UInt32) (e : Nat → UInt32) (n : Nat) (s : Kernel) : Prop where
  lent : Lent s0 (DirectoryBlock directory e n) s
  tables : Directory s directory e n (identityEntry flags)
  flags : ∀ i < n, e i &&& 0xfff = flags ||| PAGING_IS_WRITABLE

/-- One more table, at `ptr`, is filled and entered. -/
theorem Filling.step {s0 s s1 : Kernel} {directory flags ptr : UInt32} {e : Nat → UInt32} {i : Nat} {offset : Int}
    (hwf : s0.WF) (hflags : flags.toNat < 4096) (hoffset : offset % 2 ^ 32 = 4194304 * i % 2 ^ 32)
    (h : Filling s0 directory flags e i s) (hcases : Kzalloc tableK 4096 (fun _ => 0) s ptr s1) (hptr : ptr ≠ 0) :
    ∃ s2 s3 e', storeUnchecked tableK ptr (fillTable offset flags PAGE_TABLE_TOTAL_ENTRIES) s1 = some ((), s2) ∧
      setEntryUnchecked directory i (ptr ||| flags ||| PAGING_IS_WRITABLE) s2 = some ((), s3) ∧
      Filling s0 directory flags e' (i + 1) s3 ∧ freeCount s3.heap + 1 = freeCount s.heap := by
  have hone : blocksFor 4096 = 1 := by decide
  obtain ⟨hfree, hlive⟩ := hcases.live hptr
  have hcount := hcases.freeCount h.lent.wf hptr
  rw [hone] at hcount
  have hsince := hcases.since h.lent.wf
  have hflags' : (flags ||| PAGING_IS_WRITABLE).toNat < 4096 := by
    rw [UInt32.toNat_or]
    exact Nat.or_lt_two_pow (n := 12) hflags (by decide)
  have haligned : ptr.toNat % 4096 = 0 := hsince.wf.aligned hlive
  have hentry : (ptr ||| (flags ||| PAGING_IS_WRITABLE)) &&& 0xfffff000 = ptr := page_or_flags haligned hflags'
  have hdir : directory ≠ ptr := by
    rintro rfl
    cases hfree.symm.trans h.tables.entries
  have hdir0 : directory ≠ 0 := by
    rintro rfl
    exact absurd h.tables.entries (by rw [h.lent.wf.live_zero]; exact fun heq => by cases heq)
  have he1 : tableK.write s1.live ptr (fillTable offset flags 1024) directory = some (tableK.inj e) :=
    (Kind.write_of_ne _ _ _ hdir).trans (hsince.object _ _ h.tables.entries)
  have htables := h.tables.extend hsince hfree hentry fun j hj => fillTable_identity hoffset flags hj
  -- the new table is lent too
  have hlent := ((h.lent.alloc hwf hone hcases hptr).write tableK (Or.inl rfl)
    (fillTable offset flags 1024)).write tableK (Or.inr (Or.inl rfl))
    (Function.update e i (ptr ||| (flags ||| PAGING_IS_WRITABLE)))
  have hlent' := hlent.congr (Q := DirectoryBlock directory
      (Function.update e i (ptr ||| (flags ||| PAGING_IS_WRITABLE))) (i + 1)) fun q => by
    unfold DirectoryBlock
    constructor
    · rintro (rfl | rfl | ⟨k, hk, rfl⟩)
      · exact Or.inr ⟨i, by omega, by rw [Function.update_self, hentry]⟩
      · exact Or.inl rfl
      · exact Or.inr ⟨k, by omega, by rw [Function.update_of_ne (by omega)]⟩
    · rintro (rfl | ⟨k, hk, rfl⟩)
      · exact Or.inr (Or.inl rfl)
      · by_cases hki : k = i
        · rw [hki, Function.update_self, hentry]
          exact Or.inl rfl
        · rw [Function.update_of_ne hki]
          exact Or.inr (Or.inr ⟨k, by omega, rfl⟩)
  have hlow : ∀ k < i + 1, Function.update e i (ptr ||| (flags ||| PAGING_IS_WRITABLE)) k &&& 0xfff
      = flags ||| PAGING_IS_WRITABLE := by
    intro k hk
    by_cases hki : k = i
    · rw [hki, Function.update_self, flags_or_page haligned (by decide)]
      exact and_low_flags hflags'
    · rw [Function.update_of_ne hki]
      exact h.flags k (by omega)
  refine ⟨{ s1 with live := tableK.write s1.live ptr (fillTable offset flags 1024) }, _, _, ?_, ?_,
    ⟨hlent', htables, hlow⟩, hcount⟩
  · rw [storeUnchecked_of_ne hptr]
    exact store_of_live hlive _
  · rw [setEntryUnchecked, if_neg hdir0, bind_of_some (load_of_live he1), UInt32.or_assoc]
    exact store_of_live he1 _

/-- The offset of the next table. -/
theorem offset_next {offset : Int} {i : Nat} (hoffset : offset % 2 ^ 32 = 4194304 * i % 2 ^ 32) :
    wrap (offset + PAGE_SIZE * PAGE_TABLE_TOTAL_ENTRIES) % 2 ^ 32 = 4194304 * ((i + 1 : Nat) : Int) % 2 ^ 32 := by
  have hbmod : wrap (offset + PAGE_SIZE * PAGE_TABLE_TOTAL_ENTRIES) % 2 ^ 32
      = (offset + PAGE_SIZE * PAGE_TABLE_TOTAL_ENTRIES) % 2 ^ 32 := Int.bmod_emod ..
  rw [hbmod, PAGE_SIZE, PAGE_TABLE_TOTAL_ENTRIES]
  omega

/-- Without a free block `kzalloc` of one block returns null. -/
theorem kzalloc_full {α : Type} (k : Kind Obj α) {size : UInt32} (zero : α) {s : Kernel} (hwf : s.WF)
    (hone : blocksFor size = 1) (hfull : freeCount s.heap = 0) : kzalloc k size zero s = some (0, s) := by
  obtain ⟨ptr, s1, hrun, hcases⟩ := kzalloc_spec k size zero hwf
  have hnull : ptr = 0 := (hcases.null_iff hwf).mpr ((noRoom_one_iff hone).mpr hfull)
  cases hcases with
  | null hnone => exact hrun
  | fresh b ptr hpos hend hfree hptr hne hlive => exact absurd hnull hne

/-- A directory that is null, or one of the blocks lent. -/
def DirectoryOrNull (P : UInt32 → Prop) (directory : UInt32) (s : Kernel) : Prop :=
  directory = 0 ∨ P directory ∧ ∃ e, s.live directory = some (tableK.inj e)

/-- An entry of it is set, or the write is lost. -/
theorem setEntryUnchecked_lent {s0 s : Kernel} {P : UInt32 → Prop} {directory : UInt32} (h : Lent s0 P s)
    (hdir : DirectoryOrNull P directory s) (i : Nat) (entry : UInt32) :
    ∃ s', setEntryUnchecked directory i entry s = some ((), s') ∧ Lent s0 P s' ∧ s'.heap = s.heap ∧
      DirectoryOrNull P directory s' := by
  by_cases hnull : directory = 0
  · refine ⟨s, ?_, h, rfl, Or.inl hnull⟩
    rw [setEntryUnchecked, if_pos hnull]
    rfl
  · obtain ⟨hP, e, he⟩ := hdir.resolve_left hnull
    refine ⟨{ s with live := tableK.write s.live directory (Function.update e i entry) }, ?_,
      h.write tableK hP _, rfl, Or.inr ⟨hP, _, Kind.write_self ..⟩⟩
    rw [setEntryUnchecked, if_neg hnull, bind_of_some (load_of_live he)]
    exact store_of_live he _

/-- Without a free block the loop goes on writing through null. -/
theorem pagingNew4gbLoop_full {s0 : Kernel} {P : UInt32 → Prop} {directory : UInt32} (flags : UInt32) :
    ∀ (remaining i : Nat) (offset : Int) (s : Kernel), Lent s0 P s → freeCount s.heap = 0 →
      DirectoryOrNull P directory s →
      ∃ s', pagingNew4gbLoop directory flags remaining i offset s = some ((), s') ∧ Lent s0 P s' ∧
        freeCount s'.heap = 0 := by
  intro remaining
  induction remaining with
  | zero => exact fun i offset s h hfull _ => ⟨s, rfl, h, hfull⟩
  | succ remaining ih =>
      intro i offset s h hfull hdir
      obtain ⟨s1, hset, hlent, hheap, hdir'⟩ :=
        setEntryUnchecked_lent h hdir i (0 ||| flags ||| PAGING_IS_WRITABLE)
      obtain ⟨s', hloop, hlent', hfull'⟩ :=
        ih (i + 1) (wrap (offset + PAGE_SIZE * PAGE_TABLE_TOTAL_ENTRIES)) s1 hlent (by rw [hheap]; exact hfull) hdir'
      refine ⟨s', ?_, hlent', hfull'⟩
      rw [pagingNew4gbLoop, bind_of_some (kzalloc_full tableK _ h.wf (by decide) hfull), storeUnchecked_null,
        bind_of_some (pure_apply _ _), bind_of_some hset]
      exact hloop

/-- The loop has filled the entries below `i`. Either it fills the rest, or the blocks are not enough for
that and none is left in the end. -/
theorem pagingNew4gbLoop_filling {s0 : Kernel} {directory flags : UInt32} (hwf : s0.WF)
    (hflags : flags.toNat < 4096) :
    ∀ (remaining i : Nat) (offset : Int) (s : Kernel) (e : Nat → UInt32),
      offset % 2 ^ 32 = 4194304 * i % 2 ^ 32 → Filling s0 directory flags e i s →
      (freeCount s.heap < remaining ∧ ∃ s', pagingNew4gbLoop directory flags remaining i offset s = some ((), s') ∧
        Since s0 s' ∧ freeCount s'.heap = 0) ∨
      ∃ s' e', pagingNew4gbLoop directory flags remaining i offset s = some ((), s') ∧
        Filling s0 directory flags e' (i + remaining) s' ∧ freeCount s'.heap + remaining = freeCount s.heap := by
  intro remaining
  induction remaining with
  | zero =>
      intro i offset s e _ h
      exact Or.inr ⟨s, e, rfl, h, rfl⟩
  | succ remaining ih =>
      intro i offset s e hoffset h
      obtain ⟨ptr, s1, halloc, hcases⟩ := kzalloc_spec tableK 4096 (fun _ => 0) h.lent.wf
      by_cases hptr : ptr = 0
      · -- no block is left
        have hfull := (noRoom_one_iff (by decide)).mp ((hcases.null_iff h.lent.wf).mp hptr)
        obtain ⟨s', hloop, hlent, hfull'⟩ := pagingNew4gbLoop_full flags (remaining + 1) i offset s h.lent hfull
          (Or.inr ⟨Or.inl rfl, e, h.tables.entries⟩)
        exact Or.inl ⟨by omega, s', hloop, hlent.since hwf, hfull'⟩
      · obtain ⟨s2, s3, e', hstore, hset, hfilling, hcount⟩ := h.step hwf hflags hoffset hcases hptr
        rw [pagingNew4gbLoop, bind_of_some halloc, bind_of_some hstore, bind_of_some hset]
        rcases ih (i + 1) _ s3 e' (offset_next hoffset) hfilling with
          ⟨hlt, s', hloop, hsince, hfull⟩ | ⟨s', e'', hloop, h1, h2⟩
        · exact Or.inl ⟨by omega, s', hloop, hsince, hfull⟩
        · refine Or.inr ⟨s', e'', hloop, ?_, by omega⟩
          rw [show i + (remaining + 1) = i + 1 + remaining by omega]
          exact h1

/-- The blocks of a directory with all its tables and its chunk. -/
def ChunkBlock (chunk directory : UInt32) (e : Nat → UInt32) (q : UInt32) : Prop :=
  q = chunk ∨ DirectoryBlock directory e 1024 q

/-- The directory of `chunk` has been made since `s0`. -/
structure NewDirectory (s0 : Kernel) (chunk directory flags : UInt32) (e m : Nat → UInt32) (s : Kernel) :
    Prop where
  lent : Lent s0 (ChunkBlock chunk directory e) s
  maps : MapsBy s chunk directory e m
  flags : ∀ i < 1024, e i &&& 0xfff = flags ||| PAGING_IS_WRITABLE

/-- The entries of the directory allow what the flags say. -/
theorem NewDirectory.allows {s0 s : Kernel} {chunk directory flags : UInt32} {e m : Nat → UInt32}
    (h : NewDirectory s0 chunk directory flags e m s) (hall : (flags ||| PAGING_IS_WRITABLE) &&& 7 = 7) :
    Maps s chunk m := by
  refine maps_iff.mpr ⟨directory, e, h.maps, fun i hi => ?_⟩
  calc e i &&& 7 = (e i &&& 0xfff) &&& 7 := by rw [UInt32.and_assoc]; rfl
    _ = 7 := by rw [h.flags i hi, hall]

/-- The directory alone. -/
theorem filling_start {s s1 : Kernel} {directory flags : UInt32} (hwf : s.WF)
    (hcases : Kzalloc tableK 4096 (fun _ => 0) s directory s1) (hptr : directory ≠ 0) :
    Filling s directory flags (fun _ => 0) 0 s1 := by
  obtain ⟨-, hlive⟩ := hcases.live hptr
  have hlent := ((Lent.refl hwf).alloc hwf (by decide) hcases hptr).congr
    (Q := DirectoryBlock directory (fun _ => 0) 0) fun q => by
      unfold DirectoryBlock
      constructor
      · rintro (rfl | hq)
        · exact Or.inl rfl
        · exact hq.elim
      · rintro (rfl | ⟨i, hi, -⟩)
        · exact Or.inl rfl
        · exact absurd hi (Nat.not_lt_zero i)
  exact ⟨hlent, ⟨hlive, fun i hi => absurd hi (Nat.not_lt_zero i), fun i j hi => absurd hi (Nat.not_lt_zero i),
    fun i hi => absurd hi (Nat.not_lt_zero i)⟩, fun i hi => absurd hi (Nat.not_lt_zero i)⟩

/-- **Creating a directory.** It takes 1026 blocks; with fewer of them free it takes them all and returns
null. -/
theorem pagingNew4gb_cases {s : Kernel} {flags : UInt32} (hwf : s.WF) (hflags : flags.toNat < 4096) :
    (freeCount s.heap < 1026 ∧ ∃ s', pagingNew4gb flags s = some (0, s') ∧ Since s s' ∧ freeCount s'.heap = 0) ∨
    ∃ chunk directory e s', pagingNew4gb flags s = some (chunk, s') ∧ chunk ≠ 0 ∧
      NewDirectory s chunk directory flags e (identityEntry flags) s' ∧
      freeCount s'.heap + 1026 = freeCount s.heap := by
  have hone : blocksFor 4096 = 1 := by decide
  have hone' : blocksFor SIZEOF_PAGING_4GB_CHUNK = 1 := by decide
  -- the chunk is null, too, when no block is left for it
  have hnochunk : ∀ (directory : UInt32) (s2 : Kernel), s2.WF → freeCount s2.heap = 0 →
      (kzalloc chunkK SIZEOF_PAGING_4GB_CHUNK 0 >>= fun chunk_4gb =>
        storeUnchecked chunkK chunk_4gb directory >>= fun _ => pure chunk_4gb) s2 = some (0, s2) := by
    intro directory s2 hwf2 hfull
    rw [bind_of_some (kzalloc_full chunkK _ hwf2 hone' hfull), storeUnchecked_null, bind_of_some (pure_apply _ _)]
    rfl
  obtain ⟨directory, s1, hdir, hcases⟩ := kzalloc_spec tableK 4096 (fun _ => 0) hwf
  by_cases hptr : directory = 0
  · -- without a block for the directory there is none for a table either
    have hfull := (noRoom_one_iff hone).mp ((hcases.null_iff hwf).mp hptr)
    obtain ⟨s2, hloop, hlent, hfull2⟩ := pagingNew4gbLoop_full flags 1024 0 0 s (Lent.refl hwf) hfull (Or.inl rfl)
    refine Or.inl ⟨by omega, s2, ?_, hlent.since hwf, hfull2⟩
    rw [pagingNew4gb, bind_of_some (kzalloc_full tableK _ hwf hone hfull), bind_of_some hloop]
    exact hnochunk 0 s2 hlent.wf hfull2
  · have hcount := hcases.freeCount hwf hptr
    rw [hone] at hcount
    rcases pagingNew4gbLoop_filling hwf hflags 1024 0 0 s1 _ rfl (filling_start hwf hcases hptr) with
      ⟨hlt, s2, hloop, hsince, hfull2⟩ | ⟨s2, e, hloop, hfilled, hcount2⟩
    · refine Or.inl ⟨by omega, s2, ?_, hsince, hfull2⟩
      rw [pagingNew4gb, bind_of_some hdir, bind_of_some hloop]
      exact hnochunk directory s2 hsince.wf hfull2
    · have hwf2 := hfilled.lent.wf
      obtain ⟨chunk, s3, hchunk, hcases3⟩ := kzalloc_spec chunkK SIZEOF_PAGING_4GB_CHUNK 0 hwf2
      have hsince3 := hcases3.since hwf2
      by_cases hnull : chunk = 0
      · have hfull2 := (noRoom_one_iff hone').mp ((hcases3.null_iff hwf2).mp hnull)
        refine Or.inl ⟨by omega, s2, ?_, hfilled.lent.since hwf, hfull2⟩
        rw [pagingNew4gb, bind_of_some hdir, bind_of_some hloop]
        exact hnochunk directory s2 hwf2 hfull2
      · obtain ⟨hfree3, hlive3⟩ := hcases3.live hnull
        have hcount3 := hcases3.freeCount hwf2 hnull
        have hlent3 := (hfilled.lent.alloc hwf hone' hcases3 hnull).write chunkK (Or.inl rfl) directory
        -- the chunk is a new object, so the tables are as the loop left them
        have hkeep : ∀ q o, s2.live q = some o → chunkK.write s3.live chunk directory q = some o := by
          intro q o hq
          have hqc : q ≠ chunk := by
            rintro rfl
            cases hfree3.symm.trans hq
          exact (Kind.write_of_ne _ _ _ hqc).trans (hsince3.object q o hq)
        have htables := hfilled.tables
        rw [Nat.zero_add] at htables
        refine Or.inr ⟨chunk, directory, e, _, ?_, hnull, ⟨hlent3, ⟨Kind.write_self .., hkeep _ _ htables.entries,
          fun i hi => ?_, htables.inj, htables.ne⟩, hfilled.flags⟩, ?_⟩
        · rw [pagingNew4gb, bind_of_some hdir, bind_of_some hloop, bind_of_some hchunk, storeUnchecked_of_ne hnull,
            bind_of_some (store_of_live hlive3 directory)]
          rfl
        · obtain ⟨t, ht, hvalues⟩ := htables.values i hi
          exact ⟨t, hkeep _ _ ht, hvalues⟩
        · show freeCount s3.heap + 1026 = freeCount s.heap
          omega

theorem pagingNew4gb_spec {s : Kernel} (flags : UInt32) (hwf : s.WF) (hflags : flags.toNat < 4096)
    (hall : (flags ||| PAGING_IS_WRITABLE) &&& 7 = 7) :
    (freeCount s.heap < 1026 ∧ ∃ s', pagingNew4gb flags s = some (0, s') ∧ Since s s' ∧ freeCount s'.heap = 0) ∨
    ∃ chunk s', pagingNew4gb flags s = some (chunk, s') ∧ Since s s' ∧ chunk ≠ 0 ∧
      s.live chunk = none ∧ Maps s' chunk (identityEntry flags) ∧
      freeCount s'.heap + 1026 = freeCount s.heap := by
  rcases pagingNew4gb_cases hwf hflags with hfail | ⟨chunk, directory, e, s', hrun, hne, hnew, hcount⟩
  · exact Or.inl hfail
  · exact Or.inr ⟨chunk, s', hrun, hnew.lent.since hwf, hne, hnew.lent.fresh _ (Or.inl rfl), hnew.allows hall, hcount⟩

/-! ## Freeing -/

/-- The loop of `paging_free_4gb` has freed the tables below `i`. -/
structure TablesFrom (s : Kernel) (chunk directory : UInt32) (e : Nat → UInt32) (i : Nat) : Prop where
  chunk : s.live chunk = some (chunkK.inj directory)
  entries : s.live directory = some (tableK.inj e)
  values : ∀ k, i ≤ k → k < 1024 → ∃ t, s.live (e k &&& 0xfffff000) = some (tableK.inj t)
  inj : ∀ i j, i < 1024 → j < 1024 → e i &&& 0xfffff000 = e j &&& 0xfffff000 → i = j
  ne : ∀ i < 1024, e i &&& 0xfffff000 ≠ directory

/-- Freeing one table. -/
theorem TablesFrom.step {s : Kernel} {chunk directory : UInt32} {e : Nat → UInt32} {i : Nat}
    (h : TablesFrom s chunk directory e i) (hi : i < 1024) :
    TablesFrom (freed s (e i &&& 0xfffff000)) chunk directory e (i + 1) := by
  obtain ⟨t, ht⟩ := h.values i (Nat.le_refl i) hi
  refine ⟨?_, ?_, fun k h1 h2 => ?_, h.inj, h.ne⟩
  · have hchunk : chunk ≠ e i &&& 0xfffff000 := by
      rintro heq
      cases ((heq ▸ h.chunk).symm.trans ht)
    exact (freed_live_of_ne s hchunk).trans h.chunk
  · exact (freed_live_of_ne s (h.ne i hi).symm).trans h.entries
  · obtain ⟨u, hu⟩ := h.values k (by omega) h2
    have hki : e k &&& 0xfffff000 ≠ e i &&& 0xfffff000 := by
      intro heq
      have := h.inj k i h2 hi heq
      omega
    exact ⟨u, (freed_live_of_ne s hki).trans hu⟩

theorem pagingFree4gbLoop_run {chunk directory : UInt32} {e : Nat → UInt32} :
    ∀ (remaining i : Nat) (s : Kernel), i + remaining = 1024 → TablesFrom s chunk directory e i →
      ∃ s', pagingFree4gbLoop chunk remaining i s = some ((), s') ∧ TablesFrom s' chunk directory e 1024 ∧
        s' = ((List.range' i remaining).map fun k => e k &&& 0xfffff000).foldl freed s := by
  intro remaining
  induction remaining with
  | zero =>
      intro i s hi h
      obtain rfl : i = 1024 := hi
      exact ⟨s, rfl, h, rfl⟩
  | succ remaining ih =>
      intro i s hi h
      obtain ⟨t, ht⟩ := h.values i (Nat.le_refl i) (by omega)
      obtain ⟨s', hloop, hend, heq⟩ := ih (i + 1) _ (by omega) (h.step (by omega))
      refine ⟨s', ?_, hend, ?_⟩
      · rw [pagingFree4gbLoop, bind_of_some (load_of_live h.chunk), bind_of_some (load_of_live h.entries),
          bind_of_some (kfree_of_live ht)]
        exact hloop
      · rw [List.range'_succ, List.map_cons, List.foldl_cons]
        exact heq

/-- The blocks of a directory, in the order in which `paging_free_4gb` frees them. -/
def directoryBlocks (chunk directory : UInt32) (e : Nat → UInt32) : List UInt32 :=
  ((List.range' 0 1024).map fun k => e k &&& 0xfffff000) ++ [directory, chunk]

/-- `paging_free_4gb` frees every block of the directory. -/
theorem pagingFree4gb_run {s : Kernel} {chunk directory : UInt32} {e m : Nat → UInt32}
    (h : MapsBy s chunk directory e m) :
    pagingFree4gb chunk s = some ((), (directoryBlocks chunk directory e).foldl freed s) := by
  obtain ⟨hchunk, htables⟩ := h
  have hfrom : TablesFrom s chunk directory e 0 := by
    refine ⟨hchunk, htables.entries, fun k _ hk => ?_, htables.inj, htables.ne⟩
    obtain ⟨t, ht, -⟩ := htables.values k hk
    exact ⟨t, ht⟩
  obtain ⟨s1, hloop, h1, heq⟩ := pagingFree4gbLoop_run 1024 0 s rfl hfrom
  have hne : chunk ≠ directory := by
    rintro rfl
    cases (h1.chunk.symm.trans h1.entries)
  have hlive : (freed s1 directory).live chunk = some (chunkK.inj directory) :=
    (freed_live_of_ne s1 hne).trans h1.chunk
  rw [pagingFree4gb, bind_of_some hloop, bind_of_some (load_of_live h1.chunk),
    bind_of_some (kfree_of_live h1.entries), kfree_of_live hlive, directoryBlocks, List.foldl_append, ← heq]
  rfl

/-- A directory with all its tables can be freed. -/
theorem pagingFree4gb_total {s : Kernel} {chunk : UInt32} {m : Nat → UInt32} (h : Maps s chunk m) :
    Total (pagingFree4gb chunk) s fun _ _ => True := by
  obtain ⟨directory, e, hby, -⟩ := maps_iff.mp h
  exact ⟨(), _, pagingFree4gb_run hby, trivial⟩

theorem mem_directoryBlocks {chunk directory q : UInt32} {e : Nat → UInt32} :
    q ∈ directoryBlocks chunk directory e ↔ ChunkBlock chunk directory e q := by
  rw [directoryBlocks, List.mem_append, List.mem_map, ChunkBlock, DirectoryBlock]
  constructor
  · rintro (⟨i, hi, rfl⟩ | hq)
    · rw [List.mem_range'_1] at hi
      exact Or.inr (Or.inr ⟨i, by omega, rfl⟩)
    · rcases List.mem_cons.mp hq with rfl | hq
      · exact Or.inr (Or.inl rfl)
      · exact Or.inl (List.mem_singleton.mp hq)
  · rintro (rfl | rfl | ⟨i, hi, rfl⟩)
    · exact Or.inr (by simp)
    · exact Or.inr (by simp)
    · exact Or.inl ⟨i, List.mem_range'_1.mpr (by omega), rfl⟩

/-- No block is freed twice. -/
theorem directoryBlocks_nodup {s : Kernel} {chunk directory : UInt32} {e m : Nat → UInt32}
    (h : MapsBy s chunk directory e m) : (directoryBlocks chunk directory e).Nodup := by
  obtain ⟨hchunk, htables⟩ := h
  have hne : directory ≠ chunk := by
    rintro rfl
    cases (htables.entries.symm.trans hchunk)
  rw [directoryBlocks, List.nodup_append]
  refine ⟨?_, ?_, fun q hq r hr => ?_⟩
  · refine List.Nodup.map_on (fun i hi j hj heq => ?_) (List.nodup_range' ..)
    rw [List.mem_range'_1] at hi hj
    exact htables.inj i j (by omega) (by omega) heq
  · simp [hne]
  · obtain ⟨i, hi, rfl⟩ := List.mem_map.mp hq
    rw [List.mem_range'_1] at hi
    rcases List.mem_cons.mp hr with rfl | hr
    · exact htables.ne i (by omega)
    · rw [List.mem_singleton.mp hr]
      obtain ⟨t, ht, -⟩ := htables.values i (by omega)
      intro heq
      cases ((heq ▸ ht).symm.trans hchunk)

/-! ## What the paging functions leave alone -/

/-- What a call of a paging function leaves as it was. -/
structure PagingFrame (s s' : Kernel) : Prop where
  wf : s'.WF
  object : ∀ ptr o, o.isPaging = false → (s'.live ptr = some o ↔ s.live ptr = some o)
  statics : s'.statics = s.statics
  mem : s'.mem = s.mem

/-- The frame of a call made in a well-formed state. -/
def KeepsPaging (s s' : Kernel) : Prop := s.WF → PagingFrame s s'

theorem keepsPaging_frame : Frame KeepsPaging where
  refl := fun _ hwf => ⟨hwf, fun _ _ _ => Iff.rfl, rfl, rfl⟩
  trans := by
    intro s s' s'' h h' hwf
    have h1 := h hwf
    have h2 := h' h1.wf
    exact ⟨h2.wf, fun ptr o hp => (h2.object ptr o hp).trans (h1.object ptr o hp),
      h2.statics.trans h1.statics, h2.mem.trans h1.mem⟩

/-- A step that changes the object at one pointer, from none or one of the paging functions to none
or one of theirs. -/
theorem PagingFrame.of_update {s s' : Kernel} {ptr : UInt32} {o' : Option Obj} (hwf : s'.WF)
    (hlive : s'.live = Function.update s.live ptr o') (hold : ∀ o, s.live ptr = some o → o.isPaging = true)
    (hnew : ∀ o, o' = some o → o.isPaging = true) (hstatics : s'.statics = s.statics)
    (hmem : s'.mem = s.mem) : PagingFrame s s' := by
  refine ⟨hwf, fun q o hp => ?_, hstatics, hmem⟩
  rw [hlive]
  by_cases hq : q = ptr
  · rw [hq, Function.update_self]
    constructor
    · intro ho
      exact absurd (hnew o ho) (by rw [hp]; decide)
    · intro ho
      exact absurd (hold o ho) (by rw [hp]; decide)
  · rw [Function.update_of_ne hq]

section Rules

variable {α : Type} {k : Kind Obj α}

/-- A kind of objects of the paging functions. -/
def PagingKind (k : Kind Obj α) : Prop := ∀ a, (k.inj a).isPaging = true

theorem keepsPaging_kzalloc (hk : PagingKind k) (size : UInt32) (zero : α) :
    Keeps KeepsPaging (kzalloc k size zero) := by
  intro s ptr s' h hwf
  have hcases := kzalloc_cases hwf h
  have hwf' := hwf.kzalloc hcases
  cases hcases with
  | null hnone => exact keepsPaging_frame.refl _ hwf
  | fresh b ptr hpos hend hrun hptr hne hfree =>
      refine PagingFrame.of_update hwf' rfl (fun o ho => ?_) (fun o ho => ?_) rfl rfl
      · rw [hfree] at ho
        cases ho
      · rw [← Option.some.inj ho]
        exact hk zero

theorem keepsPaging_store (hk : PagingKind k) (ptr : UInt32) (a : α) :
    Keeps KeepsPaging (store k ptr a) := by
  intro s u s' h hwf
  obtain ⟨⟨b, hb⟩, rfl⟩ := store_eq_some.mp h
  refine PagingFrame.of_update (hwf.write hb a) rfl (fun o ho => ?_) (fun o ho => ?_) rfl rfl
  · rw [← Option.some.inj (hb.symm.trans ho)]
    exact hk b
  · rw [← Option.some.inj ho]
    exact hk a

theorem keepsPaging_storeUnchecked (hk : PagingKind k) (ptr : UInt32) (a : α) :
    Keeps KeepsPaging (storeUnchecked k ptr a) :=
  Keeps.ite (Keeps.pure keepsPaging_frame _) (keepsPaging_store hk ptr a)

theorem keepsPaging_kfree (hk : PagingKind k) (ptr : UInt32) : Keeps KeepsPaging (kfree k ptr) := by
  intro s u s' h hwf
  obtain ⟨⟨b, hb⟩, rfl⟩ := kfree_eq_some.mp h
  refine PagingFrame.of_update (hwf.free hb) rfl (fun o ho => ?_) (fun o ho => by cases ho) rfl rfl
  rw [← Option.some.inj (hb.symm.trans ho)]
  exact hk b

theorem keepsPaging_load (k : Kind Obj α) (ptr : UInt32) : Keeps KeepsPaging (load k ptr) := by
  intro s a s' h
  obtain ⟨-, rfl⟩ := load_eq_some.mp h
  exact keepsPaging_frame.refl _

end Rules

theorem pagingKind_table : PagingKind tableK := fun _ => rfl

theorem pagingKind_chunk : PagingKind chunkK := fun _ => rfl

theorem keepsPaging_new (flags : UInt32) : Keeps KeepsPaging (pagingNew4gb flags) := by
  have hloop : ∀ (directory : UInt32) (remaining i : Nat) (offset : Int),
      Keeps KeepsPaging (pagingNew4gbLoop directory flags remaining i offset) := by
    intro directory remaining
    induction remaining with
    | zero => exact fun _ _ => Keeps.pure keepsPaging_frame _
    | succ remaining ih =>
        intro i offset
        refine Keeps.bind keepsPaging_frame (keepsPaging_kzalloc pagingKind_table _ _) fun table => ?_
        refine Keeps.bind keepsPaging_frame (keepsPaging_storeUnchecked pagingKind_table _ _) fun _ => ?_
        refine Keeps.bind keepsPaging_frame (Keeps.ite (Keeps.pure keepsPaging_frame _) ?_) fun _ => ih _ _
        exact Keeps.bind keepsPaging_frame (keepsPaging_load _ _) fun entries =>
          keepsPaging_store pagingKind_table _ _
  refine Keeps.bind keepsPaging_frame (keepsPaging_kzalloc pagingKind_table _ _) fun directory => ?_
  refine Keeps.bind keepsPaging_frame (hloop _ _ _ _) fun _ => ?_
  refine Keeps.bind keepsPaging_frame (keepsPaging_kzalloc pagingKind_chunk _ _) fun chunk => ?_
  refine Keeps.bind keepsPaging_frame (keepsPaging_storeUnchecked pagingKind_chunk _ _) fun _ => ?_
  exact Keeps.pure keepsPaging_frame _

theorem keepsPaging_free (chunk : UInt32) : Keeps KeepsPaging (pagingFree4gb chunk) := by
  have hloop : ∀ remaining i : Nat, Keeps KeepsPaging (pagingFree4gbLoop chunk remaining i) := by
    intro remaining
    induction remaining with
    | zero => exact fun _ => Keeps.pure keepsPaging_frame _
    | succ remaining ih =>
        intro i
        refine Keeps.bind keepsPaging_frame (keepsPaging_load _ _) fun directory_entry => ?_
        refine Keeps.bind keepsPaging_frame (keepsPaging_load _ _) fun entries => ?_
        refine Keeps.bind keepsPaging_frame (keepsPaging_kfree pagingKind_table _) fun _ => ih _
  refine Keeps.bind keepsPaging_frame (hloop _ _) fun _ => ?_
  refine Keeps.bind keepsPaging_frame (keepsPaging_load _ _) fun directory_entry => ?_
  refine Keeps.bind keepsPaging_frame (keepsPaging_kfree pagingKind_table _) fun _ => ?_
  exact keepsPaging_kfree pagingKind_chunk _

end RasOS
