import RasOS.Memory.Paging
import RasOS.Kernel.Wf
import RasOS.Lib.Overlay

set_option autoImplicit false

/-! # Page tables

A directory with its 1024 tables is one map from virtual pages to entries (`Maps`). `paging_set` is
a point write to this map, so a mapping function is described by the list of its writes, and a
sequence of mappings by `overlay`. Nothing but the contents of page tables changes on the way. -/

namespace RasOS

open Machine

/-- The first `n` tables of a directory: `table i` is the address of the `i`-th, and the entries,
counted through, are `m`. The entries of the directory allow every access, so what is allowed is
what `m` says. -/
structure PageTables (s : Kernel) (directory : UInt32) (table : Nat → UInt32) (n : Nat)
    (m : Nat → UInt32) : Prop where
  entries : ∃ e, s.live directory = some (tableK.inj e) ∧
    ∀ i < n, e i &&& 0xfffff000 = table i ∧ e i &&& 7 = 7
  values : ∀ i < n, ∃ t, s.live (table i) = some (tableK.inj t) ∧ ∀ j < 1024, t j = m (1024 * i + j)
  inj : ∀ i j, i < n → j < n → table i = table j → i = j
  ne : ∀ i < n, table i ≠ directory

/-- The directory of `chunk` maps virtual page `v` by the entry `m v`. -/
def Maps (s : Kernel) (chunk : UInt32) (m : Nat → UInt32) : Prop :=
  ∃ directory table, s.live chunk = some (chunkK.inj directory) ∧
    PageTables s directory table 1024 m

/-- The objects of the paging functions. -/
def Obj.isPaging : Obj → Bool
  | .table _ | .chunk _ => true
  | _ => false

/-- A directory stays one while its objects do. -/
theorem PageTables.congr {s s' : Kernel} {directory : UInt32} {table m : Nat → UInt32} {n : Nat}
    (h : PageTables s directory table n m)
    (hobject : ∀ q o, o.isPaging = true → s.live q = some o → s'.live q = some o) :
    PageTables s' directory table n m := by
  obtain ⟨e, he, hentries⟩ := h.entries
  refine ⟨⟨e, hobject _ _ rfl he, hentries⟩, fun i hi => ?_, h.inj, h.ne⟩
  obtain ⟨t, ht, hvalues⟩ := h.values i hi
  exact ⟨t, hobject _ _ rfl ht, hvalues⟩

/-- The entries of a directory are determined. -/
theorem Maps.unique {s : Kernel} {chunk : UInt32} {m m' : Nat → UInt32} (h : Maps s chunk m)
    (h' : Maps s chunk m') {page : Nat} (hpage : page < 2 ^ 20) : m page = m' page := by
  obtain ⟨directory, table, hchunk, htables⟩ := h
  obtain ⟨directory', table', hchunk', htables'⟩ := h'
  obtain rfl := chunkK.inj_injective (Option.some.inj (hchunk.symm.trans hchunk'))
  obtain ⟨e, he, hentries⟩ := htables.entries
  obtain ⟨e', he', hentries'⟩ := htables'.entries
  obtain rfl := tableK.inj_injective (Option.some.inj (he.symm.trans he'))
  have hi : page / 1024 < 1024 := by omega
  have hsame : table (page / 1024) = table' (page / 1024) := (hentries _ hi).1.symm.trans (hentries' _ hi).1
  obtain ⟨t, ht, hvalues⟩ := htables.values _ hi
  obtain ⟨t', ht', hvalues'⟩ := htables'.values _ hi
  rw [hsame] at ht
  obtain rfl := tableK.inj_injective (Option.some.inj (ht.symm.trans ht'))
  have hsplit : 1024 * (page / 1024) + page % 1024 = page := Nat.div_add_mod page 1024
  have hj : page % 1024 < 1024 := by omega
  rw [← hsplit, ← hvalues _ hj, ← hvalues' _ hj]

theorem Maps.congr {s s' : Kernel} {chunk : UInt32} {m : Nat → UInt32} (h : Maps s chunk m)
    (hobject : ∀ q o, o.isPaging = true → s.live q = some o → s'.live q = some o) :
    Maps s' chunk m := by
  obtain ⟨directory, table, hchunk, htables⟩ := h
  exact ⟨directory, table, hobject _ _ rfl hchunk, htables.congr hobject⟩

/-- Nothing has changed but the contents of page tables. -/
structure TablesOnly (s s' : Kernel) : Prop where
  rest : s' = { s with live := s'.live }
  object : ∀ ptr o, s.live ptr = some o → (∀ t, o ≠ tableK.inj t) → s'.live ptr = some o
  table : ∀ ptr t, s.live ptr = some (tableK.inj t) → ∃ t', s'.live ptr = some (tableK.inj t')
  live : ∀ ptr o, s'.live ptr = some o → ∃ o', s.live ptr = some o'

theorem TablesOnly.refl (s : Kernel) : TablesOnly s s :=
  ⟨rfl, fun _ _ h _ => h, fun _ t h => ⟨t, h⟩, fun _ o h => ⟨o, h⟩⟩

theorem TablesOnly.trans {s s' s'' : Kernel} (h : TablesOnly s s') (h' : TablesOnly s' s'') :
    TablesOnly s s'' where
  rest := by
    rw [h'.rest, h.rest]
  object := fun ptr o ho ht => h'.object ptr o (h.object ptr o ho ht) ht
  table := by
    intro ptr t ht
    obtain ⟨t', ht'⟩ := h.table ptr t ht
    exact h'.table ptr t' ht'
  live := by
    intro ptr o ho
    obtain ⟨o', ho'⟩ := h'.live ptr o ho
    exact h.live ptr o' ho'

theorem TablesOnly.wf {s s' : Kernel} (h : TablesOnly s s') (hwf : s.WF) : s'.WF := by
  refine hwf.of_live ?_ h.live
  rw [h.rest]

theorem TablesOnly.heap {s s' : Kernel} (h : TablesOnly s s') : s'.heap = s.heap := by rw [h.rest]

theorem TablesOnly.mem {s s' : Kernel} (h : TablesOnly s s') : s'.mem = s.mem := by rw [h.rest]

theorem TablesOnly.statics {s s' : Kernel} (h : TablesOnly s s') : s'.statics = s.statics := by
  rw [h.rest]
  rfl

/-! ## Any directory

The entries of a directory may have any flags; what `paging_set` and the functions over it do to the
tables does not depend on them. -/

/-- The entries of a directory are `e`. The first `n` of them point to tables, all different and none the
directory itself, and the entries of these tables, counted through, are `m`. -/
structure Directory (s : Kernel) (directory : UInt32) (e : Nat → UInt32) (n : Nat) (m : Nat → UInt32) :
    Prop where
  entries : s.live directory = some (tableK.inj e)
  values : ∀ i < n, ∃ t, s.live (e i &&& 0xfffff000) = some (tableK.inj t) ∧
    ∀ j < 1024, t j = m (1024 * i + j)
  inj : ∀ i j, i < n → j < n → e i &&& 0xfffff000 = e j &&& 0xfffff000 → i = j
  ne : ∀ i < n, e i &&& 0xfffff000 ≠ directory

/-- Page tables are a directory whose entries allow every access. -/
theorem pageTables_iff {s : Kernel} {directory : UInt32} {table m : Nat → UInt32} {n : Nat} :
    PageTables s directory table n m ↔ ∃ e, Directory s directory e n m ∧
      ∀ i < n, e i &&& 0xfffff000 = table i ∧ e i &&& 7 = 7 := by
  constructor
  · intro h
    obtain ⟨e, he, hentries⟩ := h.entries
    refine ⟨e, ⟨he, fun i hi => ?_, fun i j hi hj heq => ?_, fun i hi => ?_⟩, hentries⟩
    · rw [(hentries i hi).1]
      exact h.values i hi
    · rw [(hentries i hi).1, (hentries j hj).1] at heq
      exact h.inj i j hi hj heq
    · rw [(hentries i hi).1]
      exact h.ne i hi
  · rintro ⟨e, h, hentries⟩
    refine ⟨⟨e, h.entries, hentries⟩, fun i hi => ?_, fun i j hi hj heq => ?_, fun i hi => ?_⟩
    · rw [← (hentries i hi).1]
      exact h.values i hi
    · rw [← (hentries i hi).1, ← (hentries j hj).1] at heq
      exact h.inj i j hi hj heq
    · rw [← (hentries i hi).1]
      exact h.ne i hi

/-- The directory of `chunk`. -/
def MapsBy (s : Kernel) (chunk directory : UInt32) (e m : Nat → UInt32) : Prop :=
  s.live chunk = some (chunkK.inj directory) ∧ Directory s directory e 1024 m

theorem maps_iff {s : Kernel} {chunk : UInt32} {m : Nat → UInt32} :
    Maps s chunk m ↔ ∃ directory e, MapsBy s chunk directory e m ∧ ∀ i < 1024, e i &&& 7 = 7 := by
  constructor
  · rintro ⟨directory, table, hchunk, htables⟩
    obtain ⟨e, h, hentries⟩ := pageTables_iff.mp htables
    exact ⟨directory, e, ⟨hchunk, h⟩, fun i hi => (hentries i hi).2⟩
  · rintro ⟨directory, e, ⟨hchunk, h⟩, hall⟩
    exact ⟨directory, fun i => e i &&& 0xfffff000, hchunk,
      pageTables_iff.mpr ⟨e, h, fun i hi => ⟨rfl, hall i hi⟩⟩⟩

/-- Nothing has changed but the tables of a directory. -/
structure EntriesOnly (e : Nat → UInt32) (s s' : Kernel) : Prop where
  rest : s' = { s with live := s'.live }
  other : ∀ q, (∀ i < 1024, q ≠ e i &&& 0xfffff000) → s'.live q = s.live q

theorem EntriesOnly.refl (e : Nat → UInt32) (s : Kernel) : EntriesOnly e s s := ⟨rfl, fun _ _ => rfl⟩

theorem EntriesOnly.trans {e : Nat → UInt32} {s s' s'' : Kernel} (h : EntriesOnly e s s')
    (h' : EntriesOnly e s' s'') : EntriesOnly e s s'' where
  rest := by
    rw [h'.rest, h.rest]
  other := fun q hq => (h'.other q hq).trans (h.other q hq)

/-- Whether a pointer is one to a table of the directory. -/
theorem table_or_other (e : Nat → UInt32) (q : UInt32) :
    (∃ i < 1024, q = e i &&& 0xfffff000) ∨ ∀ i < 1024, q ≠ e i &&& 0xfffff000 := by
  by_cases h : ∃ i < 1024, q = e i &&& 0xfffff000
  · exact Or.inl h
  · exact Or.inr fun i hi heq => h ⟨i, hi, heq⟩

theorem EntriesOnly.tablesOnly {s s' : Kernel} {directory : UInt32} {e m m' : Nat → UInt32}
    (h : EntriesOnly e s s') (hs : Directory s directory e 1024 m) (hs' : Directory s' directory e 1024 m') :
    TablesOnly s s' where
  rest := h.rest
  object := by
    intro q o ho hne
    rcases table_or_other e q with ⟨i, hi, rfl⟩ | hother
    · obtain ⟨t, ht, -⟩ := hs.values i hi
      exact absurd (Option.some.inj (ho.symm.trans ht)) (hne t)
    · exact (h.other q hother).trans ho
  table := by
    intro q t ht
    rcases table_or_other e q with ⟨i, hi, rfl⟩ | hother
    · obtain ⟨t', ht', -⟩ := hs'.values i hi
      exact ⟨t', ht'⟩
    · exact ⟨t, (h.other q hother).trans ht⟩
  live := by
    intro q o ho
    rcases table_or_other e q with ⟨i, hi, rfl⟩ | hother
    · obtain ⟨t, ht, -⟩ := hs.values i hi
      exact ⟨_, ht⟩
    · exact ⟨o, (h.other q hother).symm.trans ho⟩

/-! ## Setting one entry -/

theorem index_lt (virt : UInt32) : directoryIndex virt < 1024 ∧ tableIndex virt < 1024 ∧
    1024 * directoryIndex virt + tableIndex virt = virt.toNat / 4096 := by
  have hlt := virt.toNat_lt
  rw [tableIndex, directoryIndex]
  omega

/-- What `paging_set` stores, and where. -/
theorem pagingSet_run {s : Kernel} {directory virt : UInt32} {e m : Nat → UInt32}
    (h : Directory s directory e 1024 m) (hvirt : virt.toNat % 4096 = 0) (val : UInt32) :
    ∃ t, s.live (e (directoryIndex virt) &&& 0xfffff000) = some (tableK.inj t) ∧
      t (tableIndex virt) = m (virt.toNat / 4096) ∧
      pagingSet directory virt val s = some (OK, { s with
        live := tableK.write s.live (e (directoryIndex virt) &&& 0xfffff000)
          (Function.update t (tableIndex virt) val) }) := by
  obtain ⟨hd, ht, hindex⟩ := index_lt virt
  obtain ⟨t, hlive, hvalues⟩ := h.values _ hd
  have haligned : pagingIsAligned virt = true := by simp [pagingIsAligned, hvirt]
  refine ⟨t, hlive, by rw [hvalues _ ht, hindex], ?_⟩
  unfold pagingSet
  rw [haligned, if_neg (by decide), bind_of_some (load_of_live h.entries), bind_of_some (load_of_live hlive),
    bind_of_some (store_of_live hlive _)]
  rfl

/-- **`paging_set` is a point write.** -/
theorem pagingSet_entries {s : Kernel} {directory virt : UInt32} {e m : Nat → UInt32}
    (h : Directory s directory e 1024 m) (hvirt : virt.toNat % 4096 = 0) (val : UInt32) :
    ∃ s', pagingSet directory virt val s = some (OK, s') ∧ EntriesOnly e s s' ∧
      Directory s' directory e 1024 (Function.update m (virt.toNat / 4096) val) := by
  obtain ⟨hd, ht, hindex⟩ := index_lt virt
  obtain ⟨t, hlive, htm, hrun⟩ := pagingSet_run h hvirt val
  refine ⟨_, hrun, ⟨rfl, fun q hq => ?_⟩, ?_, fun i hi => ?_, h.inj, h.ne⟩
  · exact Kind.write_of_ne _ _ _ (hq _ hd)
  · exact (Kind.write_of_ne _ _ _ (h.ne _ hd).symm).trans h.entries
  · obtain ⟨u, hu, huvalues⟩ := h.values i hi
    by_cases hid : i = directoryIndex virt
    · rw [hid] at hu huvalues ⊢
      obtain rfl : u = t := tableK.inj_injective (Option.some.inj (hu.symm.trans hlive))
      refine ⟨_, Kind.write_self .., fun j hj => ?_⟩
      by_cases hjt : j = tableIndex virt
      · rw [hjt, hindex, Function.update_self, Function.update_self]
      · have hne : 1024 * directoryIndex virt + j ≠ virt.toNat / 4096 := by omega
        rw [Function.update_of_ne hjt, Function.update_of_ne hne, huvalues j hj]
    · -- another table, and another entry
      have hne : e i &&& 0xfffff000 ≠ e (directoryIndex virt) &&& 0xfffff000 :=
        fun heq => hid (h.inj _ _ hi hd heq)
      refine ⟨u, (Kind.write_of_ne _ _ _ hne).trans hu, fun j hj => ?_⟩
      have hindex' : 1024 * i + j ≠ virt.toNat / 4096 := by omega
      rw [Function.update_of_ne hindex', huvalues j hj]

/-- What `paging_get_table_entry` reads. -/
theorem pagingGetTableEntry_entries {s : Kernel} {directory virt : UInt32} {e m : Nat → UInt32}
    (h : Directory s directory e 1024 m) (hvirt : virt.toNat % 4096 = 0) :
    pagingGetTableEntry directory virt s = some (m (virt.toNat / 4096), s) := by
  obtain ⟨hd, ht, hindex⟩ := index_lt virt
  obtain ⟨t, hlive, hvalues⟩ := h.values _ hd
  have haligned : pagingIsAligned virt = true := by simp [pagingIsAligned, hvirt]
  unfold pagingGetTableEntry
  rw [haligned, if_pos rfl, if_pos rfl, bind_of_some (load_of_live h.entries), bind_of_some (load_of_live hlive),
    hvalues _ ht, hindex]
  rfl

/-- Where the processor gets to. -/
theorem Directory.pageWalk {s : Kernel} {directory : UInt32} {e m : Nat → UInt32}
    (h : Directory s directory e 1024 m) (va : UInt32) :
    pageWalk s directory va = some (e (va.toNat / 2 ^ 22), m (va.toNat / 4096)) := by
  have hlt := va.toNat_lt
  have hd : va.toNat / 2 ^ 22 < 1024 := by omega
  have ht : va.toNat / 2 ^ 12 % 2 ^ 10 < 1024 := by omega
  have hindex : 1024 * (va.toNat / 2 ^ 22) + va.toNat / 2 ^ 12 % 2 ^ 10 = va.toNat / 4096 := by omega
  obtain ⟨t, hlive, hvalues⟩ := h.values _ hd
  have hentries : tableK.read s.live directory = some e := Kind.read_eq_some.mpr h.entries
  have htable : tableK.read s.live (e (va.toNat / 2 ^ 22) &&& 0xfffff000) = some t := Kind.read_eq_some.mpr hlive
  simp only [RasOS.pageWalk, hentries, htable, Option.bind_eq_bind, Option.bind_some]
  rw [hvalues _ ht, hindex]
  rfl

/-- No entry faults. -/
def Present (e m : Nat → UInt32) : Prop :=
  (∀ i < 1024, e i &&& PAGING_IS_PRESENT ≠ 0) ∧ ∀ v < 2 ^ 20, m v &&& PAGING_IS_PRESENT ≠ 0

theorem Directory.translate {s : Kernel} {e m : Nat → UInt32} (h : Directory s s.current_directory e 1024 m)
    (hpresent : Present e m) (va : UInt32) : translate s va = some (pageAddress (m (va.toNat / 4096)) va) := by
  have hlt := va.toNat_lt
  have hno : ¬ (e (va.toNat / 2 ^ 22) &&& PAGING_IS_PRESENT = 0 ∨ m (va.toNat / 4096) &&& PAGING_IS_PRESENT = 0) := by
    rintro (hzero | hzero)
    · exact hpresent.1 _ (by omega) hzero
    · exact hpresent.2 _ (by omega) hzero
  rw [RasOS.translate, h.pageWalk va, Option.bind_some, if_neg hno]

/-! ## The kernel in the address space of a task -/

/-- The entry leads to the page with the same address. -/
def IdentityMapped (page : Nat) (entry : UInt32) : Prop :=
  entry &&& PAGING_IS_PRESENT ≠ 0 ∧ (entry &&& 0xfffff000).toNat = 4096 * page

/-- The directory leaves the kernel in its place: its image at `0x100000`, with the code and the variables, its stack
below `0x600000`, and the chunk of its own directory. How far the image and the stack go is left open. -/
def KernelInPlace (image_end stack_begin : Nat) (kernel_chunk : UInt32) (e m : Nat → UInt32) : Prop :=
  ∀ page < 2 ^ 20, 0x100 ≤ page ∧ page < image_end ∨ stack_begin ≤ page ∧ page < 0x600 ∨
      page = kernel_chunk.toNat / 4096 →
    e (page / 1024) &&& PAGING_IS_PRESENT ≠ 0 ∧ IdentityMapped page (m page)

/-- A chunk has one directory, and that has one entry for a page. -/
theorem MapsBy.unique {s : Kernel} {chunk directory directory' : UInt32} {e e' m m' : Nat → UInt32}
    (h : MapsBy s chunk directory e m) (h' : MapsBy s chunk directory' e' m') :
    e = e' ∧ ∀ page < 2 ^ 20, m page = m' page := by
  obtain rfl := chunkK.inj_injective (Option.some.inj (h.1.symm.trans h'.1))
  obtain rfl := tableK.inj_injective (Option.some.inj (h.2.entries.symm.trans h'.2.entries))
  refine ⟨rfl, fun page hpage => ?_⟩
  obtain ⟨t, ht, hvalues⟩ := h.2.values (page / 1024) (by omega)
  obtain ⟨t', ht', hvalues'⟩ := h'.2.values (page / 1024) (by omega)
  obtain rfl := tableK.inj_injective (Option.some.inj (ht.symm.trans ht'))
  have hsplit : 1024 * (page / 1024) + page % 1024 = page := Nat.div_add_mod page 1024
  have hj : page % 1024 < 1024 := by omega
  calc m page = m (1024 * (page / 1024) + page % 1024) := by rw [hsplit]
    _ = t (page % 1024) := (hvalues _ hj).symm
    _ = m' (1024 * (page / 1024) + page % 1024) := hvalues' _ hj
    _ = m' page := by rw [hsplit]

theorem KernelInPlace.congr {image_end stack_begin : Nat} {kernel_chunk : UInt32} {e m m' : Nat → UInt32}
    (h : KernelInPlace image_end stack_begin kernel_chunk e m) (hm : ∀ page < 2 ^ 20, m page = m' page) :
    KernelInPlace image_end stack_begin kernel_chunk e m' := by
  intro page hpage hkernel
  rw [← hm page hpage]
  exact h page hpage hkernel

/-- An address whose page is in its place. -/
theorem Directory.translate_inPlace {s : Kernel} {e m : Nat → UInt32}
    (h : Directory s s.current_directory e 1024 m) {va : UInt32}
    (he : e (va.toNat / 4096 / 1024) &&& PAGING_IS_PRESENT ≠ 0)
    (hm : IdentityMapped (va.toNat / 4096) (m (va.toNat / 4096))) : RasOS.translate s va = some va := by
  obtain ⟨hpresent, hpage⟩ := hm
  have hindex : va.toNat / 2 ^ 22 = va.toNat / 4096 / 1024 := by omega
  have hno : ¬ (e (va.toNat / 2 ^ 22) &&& PAGING_IS_PRESENT = 0 ∨ m (va.toNat / 4096) &&& PAGING_IS_PRESENT = 0) := by
    rw [hindex]
    exact not_or.mpr ⟨he, hpresent⟩
  rw [RasOS.translate, h.pageWalk va, Option.bind_some, if_neg hno]
  rw [toNat_and_page] at hpage
  refine congrArg some (UInt32.toNat_inj.mp ?_)
  calc (pageAddress (m (va.toNat / 4096)) va).toNat
      = (m (va.toNat / 4096)).toNat / 4096 * 4096 + va.toNat % 4096 := toNat_page_or_low _ _
    _ = 4096 * (va.toNat / 4096) + va.toNat % 4096 := by rw [hpage]
    _ = va.toNat := Nat.div_add_mod va.toNat 4096

theorem pagingMap_entries {s : Kernel} {chunk directory virt phys : UInt32} {e m : Nat → UInt32}
    (h : MapsBy s chunk directory e m) (hvirt : virt.toNat % 4096 = 0) (hphys : phys.toNat % 4096 = 0)
    (flags : UInt32) :
    ∃ s', pagingMap chunk virt phys flags s = some (OK, s') ∧ EntriesOnly e s s' ∧
      MapsBy s' chunk directory e (Function.update m (virt.toNat / 4096) (phys ||| flags)) := by
  obtain ⟨hchunk, hdir⟩ := h
  obtain ⟨s', hset, honly, hdir'⟩ := pagingSet_entries hdir hvirt (phys ||| flags)
  refine ⟨s', ?_, honly, ?_, hdir'⟩
  · have hok : ¬ (virt.toNat % PAGE_SIZE ≠ 0 ∨ phys.toNat % PAGE_SIZE ≠ 0) := by simp [hvirt, hphys]
    rw [pagingMap, if_neg hok, bind_of_some (load_of_live hchunk)]
    exact hset
  · exact (honly.tablesOnly hdir hdir').object _ _ hchunk fun t heq => by cases heq

/-- Mapping a page and setting its old entry again changes nothing, whatever has been written to the memory
and switched on meanwhile. -/
theorem pagingMap_undo {s : Kernel} {chunk directory virt phys : UInt32} {e m : Nat → UInt32}
    (h : MapsBy s chunk directory e m) (hvirt : virt.toNat % 4096 = 0) (hphys : phys.toNat % 4096 = 0)
    (flags : UInt32) :
    ∃ live, pagingMap chunk virt phys flags s = some (OK, { s with live := live }) ∧
      MapsBy { s with live := live } chunk directory e (Function.update m (virt.toNat / 4096) (phys ||| flags)) ∧
      (∀ q o, (∀ t, o ≠ tableK.inj t) → s.live q = some o → live q = some o) ∧
      ∀ mem active, pagingSet directory virt (m (virt.toNat / 4096))
          { s with live := live, mem := mem, current_directory := active }
        = some (OK, { s with mem := mem, current_directory := active }) := by
  obtain ⟨t, hlive, htm, hset⟩ := pagingSet_run h.2 hvirt (phys ||| flags)
  obtain ⟨s', hmap, honly, hmaps⟩ := pagingMap_entries h hvirt hphys flags
  have hrun := hmap
  rw [pagingMap, if_neg (by simp [hvirt, hphys]), bind_of_some (load_of_live h.1), hset] at hrun
  obtain rfl := (Prod.mk.inj (Option.some.inj hrun)).2
  refine ⟨_, hmap, hmaps, fun q o ho hq => (honly.tablesOnly h.2 hmaps.2).object q o hq ho, fun mem active => ?_⟩
  -- the same entry is written again, with its old value
  have hdir : Directory { s with
      live := tableK.write s.live (e (directoryIndex virt) &&& 0xfffff000)
        (Function.update t (tableIndex virt) (phys ||| flags))
      mem := mem
      current_directory := active } directory e 1024 (Function.update m (virt.toNat / 4096) (phys ||| flags)) :=
    ⟨hmaps.2.entries, hmaps.2.values, hmaps.2.inj, hmaps.2.ne⟩
  obtain ⟨u, hu, -, hback⟩ := pagingSet_run hdir hvirt (m (virt.toNat / 4096))
  obtain rfl : Function.update t (tableIndex virt) (phys ||| flags) = u :=
    tableK.inj_injective (Option.some.inj ((Kind.write_self ..).symm.trans hu))
  rw [hback]
  have hold : tableK.write (tableK.write s.live (e (directoryIndex virt) &&& 0xfffff000)
      (Function.update t (tableIndex virt) (phys ||| flags))) (e (directoryIndex virt) &&& 0xfffff000)
      (Function.update (Function.update t (tableIndex virt) (phys ||| flags)) (tableIndex virt)
        (m (virt.toNat / 4096))) = s.live := by
    rw [Function.update_idem, ← htm, Function.update_eq_self]
    funext q
    by_cases hq : q = e (directoryIndex virt) &&& 0xfffff000
    · rw [hq, Kind.write_self, hlive]
    · rw [Kind.write_of_ne _ _ _ hq, Kind.write_of_ne _ _ _ hq]
  exact congrArg (fun live => some (OK, { s with live := live, mem := mem, current_directory := active })) hold

/-! ## Ranges -/

/-- The writes of `paging_map_range`. -/
def rangeWrites (virt phys flags : UInt32) (count : Nat) : List (Nat × UInt32) :=
  (List.range count).map fun k =>
    ((virt + UInt32.ofNat (4096 * k)).toNat / 4096, (phys + UInt32.ofNat (4096 * k)) ||| flags)

theorem rangeWrites_succ (virt phys flags : UInt32) (count : Nat) :
    rangeWrites virt phys flags (count + 1) =
      (virt.toNat / 4096, phys ||| flags) :: rangeWrites (virt + 4096) (phys + 4096) flags count := by
  have hstep : ∀ (a : UInt32) (k : Nat),
      a + UInt32.ofNat (4096 * (k + 1)) = a + 4096 + UInt32.ofNat (4096 * k) := by
    intro a k
    apply UInt32.toNat_inj.mp
    rw [UInt32.toNat_add, UInt32.toNat_add, UInt32.toNat_add, UInt32.toNat_ofNat',
      UInt32.toNat_ofNat', show (4096 : UInt32).toNat = 4096 from rfl]
    omega
  have hzero : ∀ a : UInt32, a + UInt32.ofNat (4096 * 0) = a := by
    intro a
    rw [Nat.mul_zero]
    exact UInt32.add_zero a
  rw [rangeWrites, List.range_succ_eq_map, List.map_cons, List.map_map, hzero, hzero, rangeWrites]
  refine congrArg _ (List.map_congr_left fun k _ => ?_)
  rw [Function.comp_apply, Nat.succ_eq_add_one, hstep, hstep]

theorem add_page_aligned {a : UInt32} (h : a.toNat % 4096 = 0) : (a + 4096).toNat % 4096 = 0 := by
  rw [UInt32.toNat_add, show (4096 : UInt32).toNat = 4096 from rfl]
  omega

theorem pagingMapRange_entries {chunk directory : UInt32} {e : Nat → UInt32} (flags : UInt32) :
    ∀ (count : Nat) (s : Kernel) (virt phys : UInt32) (m : Nat → UInt32) (res : Int),
      MapsBy s chunk directory e m → virt.toNat % 4096 = 0 → phys.toNat % 4096 = 0 →
      ∃ s', pagingMapRange chunk count virt phys flags res s
          = some (if count = 0 then res else OK, s') ∧ EntriesOnly e s s' ∧
        MapsBy s' chunk directory e (overlay m (rangeWrites virt phys flags count)) := by
  intro count
  induction count with
  | zero =>
      intro s virt phys m res h _ _
      exact ⟨s, rfl, EntriesOnly.refl e s, h⟩
  | succ count ih =>
      intro s virt phys m res h hvirt hphys
      obtain ⟨s1, hmap, honly1, h1⟩ := pagingMap_entries h hvirt hphys flags
      obtain ⟨s2, hrest, honly2, h2⟩ :=
        ih s1 _ _ _ OK h1 (add_page_aligned hvirt) (add_page_aligned hphys)
      refine ⟨s2, ?_, honly1.trans honly2, ?_⟩
      · rw [pagingMapRange, bind_of_some hmap, if_neg (by decide), hrest, if_neg (Nat.succ_ne_zero count), ite_self]
      · rw [rangeWrites_succ]
        exact h2

/-- Fewer than `2 ^ 20` pages are all different ones, also across the end of the address space. -/
theorem lastWrite_rangeWrites {virt phys flags entry : UInt32} {count page : Nat} (hcount : count ≤ 2 ^ 20) :
    lastWrite page (rangeWrites virt phys flags count) = some entry ↔
      ∃ k < count, (virt + UInt32.ofNat (4096 * k)).toNat / 4096 = page ∧
        entry = (phys + UInt32.ofNat (4096 * k)) ||| flags := by
  constructor
  · intro h
    obtain ⟨k, hk, heq⟩ := List.mem_map.mp (mem_of_lastWrite h)
    obtain ⟨hpage, hentry⟩ := Prod.mk.inj heq
    exact ⟨k, List.mem_range.mp hk, hpage, hentry.symm⟩
  · rintro ⟨k, hk, rfl, rfl⟩
    refine lastWrite_of_mem (List.mem_map.mpr ⟨k, List.mem_range.mpr hk, rfl⟩) fun w hw heq => ?_
    obtain ⟨j, hj, rfl⟩ := List.mem_map.mp hw
    have hj' := List.mem_range.mp hj
    have hjk : j = k := by
      dsimp only at heq
      rw [UInt32.toNat_add, UInt32.toNat_add, UInt32.toNat_ofNat', UInt32.toNat_ofNat'] at heq
      omega
    rw [hjk]

theorem lastWrite_rangeWrites_none {virt phys flags : UInt32} {count page : Nat} :
    lastWrite page (rangeWrites virt phys flags count) = none ↔
      ∀ k < count, (virt + UInt32.ofNat (4096 * k)).toNat / 4096 ≠ page := by
  rw [lastWrite_eq_none, rangeWrites]
  constructor
  · intro h k hk
    exact h _ (List.mem_map.mpr ⟨k, List.mem_range.mpr hk, rfl⟩)
  · intro h w hw
    obtain ⟨k, hk, rfl⟩ := List.mem_map.mp hw
    exact h k (List.mem_range.mp hk)

/-- The writes of `paging_map_to`. -/
def mapToWrites (virt phys phys_end flags : UInt32) : List (Nat × UInt32) :=
  rangeWrites virt phys flags ((phys_end - phys).toNat / 4096)

/-- The ranges `paging_map_to` accepts: whole pages, and an end that is not before the beginning. -/
def WholePages (virt phys phys_end : UInt32) : Prop :=
  virt.toNat % 4096 = 0 ∧ phys.toNat % 4096 = 0 ∧ phys_end.toNat % 4096 = 0 ∧ phys ≤ phys_end

/-- What `paging_map_to` does: it refuses a range that it does not accept, and changes nothing then. -/
theorem pagingMapTo_cases {s : Kernel} {chunk directory : UInt32} {e m : Nat → UInt32}
    (h : MapsBy s chunk directory e m) (virt phys phys_end flags : UInt32) :
    ¬ WholePages virt phys phys_end ∧ pagingMapTo chunk virt phys phys_end flags s = some (- EINVARG, s) ∨
      WholePages virt phys phys_end ∧ ∃ s', pagingMapTo chunk virt phys phys_end flags s = some (OK, s') ∧
        EntriesOnly e s s' ∧ MapsBy s' chunk directory e (overlay m (mapToWrites virt phys phys_end flags)) := by
  unfold pagingMapTo WholePages
  by_cases hvirt : virt.toNat % 4096 = 0
  · rw [if_neg (by simp [hvirt])]
    by_cases hphys : phys.toNat % 4096 = 0
    · rw [if_neg (by simp [hphys])]
      by_cases hend : phys_end.toNat % 4096 = 0
      · rw [if_neg (by simp [hend])]
        by_cases hlt : phys_end < phys
        · rw [if_pos hlt]
          exact Or.inl ⟨fun hall => absurd hall.2.2.2 (UInt32.not_le.mpr hlt), rfl⟩
        · rw [if_neg hlt]
          obtain ⟨s', hmap, honly, hmaps⟩ :=
            pagingMapRange_entries flags ((phys_end - phys).toNat / 4096) s virt phys m 0 h hvirt hphys
          refine Or.inr ⟨⟨hvirt, hphys, hend, UInt32.not_lt.mp hlt⟩, s', ?_, honly, hmaps⟩
          rw [hmap, ite_self]
      · rw [if_pos (by simpa using hend)]
        exact Or.inl ⟨fun hall => hend hall.2.2.1, rfl⟩
    · rw [if_pos (by simpa using hphys)]
      exact Or.inl ⟨fun hall => hphys hall.2.1, rfl⟩
  · rw [if_pos (by simpa using hvirt)]
    exact Or.inl ⟨fun hall => hvirt hall.1, rfl⟩

theorem pagingMapTo_spec {s : Kernel} {chunk : UInt32} {m : Nat → UInt32} (h : Maps s chunk m)
    (virt phys phys_end flags : UInt32) :
    ∃ res s', pagingMapTo chunk virt phys phys_end flags s = some (res, s') ∧ TablesOnly s s' ∧
      (res < 0 ∧ s' = s ∧ ¬ (virt.toNat % 4096 = 0 ∧ phys.toNat % 4096 = 0 ∧
          phys_end.toNat % 4096 = 0 ∧ phys ≤ phys_end) ∨
        res = OK ∧ (virt.toNat % 4096 = 0 ∧ phys.toNat % 4096 = 0 ∧ phys_end.toNat % 4096 = 0 ∧
          phys ≤ phys_end) ∧
        Maps s' chunk (overlay m (mapToWrites virt phys phys_end flags))) := by
  obtain ⟨directory, e, hby, hall⟩ := maps_iff.mp h
  rcases pagingMapTo_cases hby virt phys phys_end flags with ⟨hno, hrun⟩ | ⟨hok, s', hrun, honly, hby'⟩
  · exact ⟨_, s, hrun, TablesOnly.refl s, Or.inl ⟨by decide, rfl, hno⟩⟩
  · exact ⟨_, s', hrun, honly.tablesOnly hby.2 hby'.2,
      Or.inr ⟨rfl, hok, maps_iff.mpr ⟨directory, e, hby', hall⟩⟩⟩

end RasOS
