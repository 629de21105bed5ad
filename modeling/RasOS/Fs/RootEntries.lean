import RasOS.Fs.Items

set_option autoImplicit false

/-! # Which entry of the root directory is found

The search looks at as many slots as are in use, from the first one on, and makes an item for each one
whose assembled name is the name looked for; the last item is returned. That is an item of a live entry
with the name when the last slot taken is such an entry and there is room for the items. -/

namespace RasOS

open Machine

variable {image : Nat → Sector} {priv : FatPrivate}

/-! ## Items of files -/

/-- The item of a file: without a free block there is none, with one block it lacks the copy of its
entry. -/
theorem fat16NewFatItem_file {s : Kernel} {entry : List UInt8} (hwf : s.WF)
    (hfile : itemIsSubdirectory entry = false) :
    Total (fat16NewFatItemForDirectoryItem entry) s fun item s' => s'.WF ∧
      freeCount s'.heap = freeCount s.heap - 2 ∧ (item ≠ 0 ↔ 0 < freeCount s.heap) ∧
      (Describes s' item entry ↔ 2 ≤ freeCount s.heap) := by
  have hone : blocksFor SIZEOF_FAT_ITEM = 1 := by decide
  have hone' : blocksFor 32 = 1 := by decide
  obtain ⟨item, s1, hrun1, hcases1⟩ := kzalloc_spec fatItemK SIZEOF_FAT_ITEM {} hwf
  have hsince1 := hcases1.since hwf
  have hnull1 := (hcases1.null_iff hwf).trans (noRoom_one_iff hone)
  rw [fat16NewFatItemForDirectoryItem, total_bind_of_some hrun1]
  by_cases h0 : item = 0
  · -- no block at all
    have hfull := hnull1.mp h0
    have hsame : s1 = s := by
      cases hcases1 with
      | null _ => rfl
      | fresh b ptr hpos hend hrun hptr hne hfree => exact absurd h0 hne
    subst hsame
    rw [if_pos h0]
    refine total_pure.mpr ⟨hwf, by omega, iff_of_false (fun h => h rfl) (by omega), iff_of_false ?_ (by omega)⟩
    rintro ⟨it, hit, -⟩
    exact hwf.ne_zero hit rfl
  have hcount1 := hcases1.freeCount hwf h0
  rw [hone] at hcount1
  have hlive1 := (hcases1.live h0).2
  obtain ⟨copy, s2, hrun2, hcases2⟩ := kzalloc_spec dirItemsK 32 [] hsince1.wf
  have hsince2 := hcases2.since hsince1.wf
  have hnull2 := (hcases2.null_iff hsince1.wf).trans (noRoom_one_iff hone')
  rw [if_neg h0, hfile, if_neg Bool.false_ne_true]
  by_cases hc : copy = 0
  · -- one block, for the item itself
    have hfull := hnull2.mp hc
    have hsame : s2 = s1 := by
      cases hcases2 with
      | null _ => rfl
      | fresh b ptr hpos hend hrun hptr hne hfree => exact absurd hc hne
    subst hsame
    have hclone : fat16CloneDirectoryItem entry s2 = some (0, s2) := by
      rw [fat16CloneDirectoryItem, bind_of_some hrun2, if_pos hc]
      rfl
    rw [total_bind_of_some hclone, total_store hlive1]
    refine total_pure.mpr ⟨hsince1.wf.write hlive1 _, ?_, iff_of_true h0 (by omega), iff_of_false ?_ (by omega)⟩
    · show freeCount s2.heap = _
      omega
    · rintro ⟨it, hit, hpayload⟩
      obtain rfl := fatItemK.inj_injective (Option.some.inj ((Kind.write_self ..).symm.trans hit))
      rw [hfile, if_neg Bool.false_ne_true] at hpayload
      exact (hsince1.wf.write (k := fatItemK) hlive1 _).ne_zero hpayload.2 rfl
  · -- the second block is for the copy, which is stored in the item
    have hcount2 := hcases2.freeCount hsince1.wf hc
    rw [hone'] at hcount2
    obtain ⟨hfree2, hlive2⟩ := hcases2.live hc
    have hclone : fat16CloneDirectoryItem entry s1
        = some (copy, { s2 with live := dirItemsK.write s2.live copy entry }) := by
      rw [fat16CloneDirectoryItem, bind_of_some hrun2, if_neg hc, bind_of_some (store_of_live hlive2 _)]
      rfl
    have hother : item ≠ copy := by
      rintro rfl
      rw [hfree2] at hlive1
      cases hlive1
    have hitem : dirItemsK.write s2.live copy entry item = some (fatItemK.inj {}) :=
      (Kind.write_of_ne _ _ _ hother).trans (hsince2.object _ _ hlive1)
    have hwf2 : Kernel.WF { s2 with live := dirItemsK.write s2.live copy entry } :=
      hsince2.wf.write hlive2 entry
    rw [total_bind_of_some hclone, total_store hitem]
    refine total_pure.mpr ⟨hwf2.write hitem _, ?_, iff_of_true h0 (by omega), iff_of_true ?_ (by omega)⟩
    · show freeCount s2.heap = _
      omega
    · refine ⟨_, Kind.write_self .., ?_⟩
      rw [hfile, if_neg Bool.false_ne_true]
      exact ⟨rfl, (Kind.write_of_ne _ _ _ hother.symm).trans (Kind.write_self ..)⟩

/-- The last of the items of some files. By induction on the files before it, each of which takes two
blocks while there are any. -/
theorem newItems_files (entries : List (List UInt8)) (entry : List UInt8) :
    ∀ (f_item : UInt32) (s : Kernel), s.WF →
      (∀ e ∈ entries ++ [entry], itemIsSubdirectory e = false) →
      Total (newItems (entries ++ [entry]) f_item) s fun item s' =>
        (item ≠ 0 ↔ 2 * entries.length < freeCount s.heap) ∧
          (Describes s' item entry ↔ 2 * (entries.length + 1) ≤ freeCount s.heap) := by
  induction entries with
  | nil =>
      intro f_item s hwf hfiles
      refine (fat16NewFatItem_file hwf (hfiles entry (by simp))).bind ?_
      rintro item s1 ⟨-, -, hne, hdesc⟩
      exact total_pure.mpr ⟨hne, hdesc⟩
  | cons first entries ih =>
      intro f_item s hwf hfiles
      refine (fat16NewFatItem_file hwf (hfiles first (by simp))).bind ?_
      rintro item s1 ⟨hwf1, hcount, -, -⟩
      refine (ih item s1 hwf1 fun e he => hfiles e (List.mem_cons_of_mem _ he)).mono ?_
      rintro item' s' ⟨hne, hdesc⟩
      rw [List.length_cons, hne, hdesc]
      omega

/-! ## What a search is to do -/

/-- The slots the search takes for the name. -/
def rootTaken (image : Nat → Sector) (n : Nat) (name : List UInt8) : List Nat :=
  takenSlots (rootItems image) name 0 (liveCount image n)

theorem mem_rootTaken_lt {n i : Nat} {name : List UInt8} (h : i ∈ rootTaken image n name) : i < n := by
  rw [rootTaken, takenSlots, List.mem_filter, List.mem_range'_1] at h
  have hle : liveCount image n ≤ n := liveCount_le n
  omega

/-- The entries in these slots. -/
theorem rootListing_entries {n : Nat} (hends : RootEnds image n) (name : List UInt8) :
    (rootListing image n).entries name = (rootTaken image n name).map (rootSlot image) := by
  refine List.map_congr_left fun i hi => entryAt_root ?_
  exact lt_trans (mem_rootTaken_lt hi) hends.inside

/-- It returns an item if and only if there is a live entry with the name, and then the item is one for
such an entry. -/
def FindsLive (s : Kernel) (image : Nat → Sector) (n : Nat) (name : List UInt8)
    (directory : FatDirectory) : Prop :=
  Total (fat16FindItemInDirectory directory name) s fun item s' =>
    (item ≠ 0 ↔ ∃ j, LiveEntry image n name j) ∧
      (item ≠ 0 → ∃ j, LiveEntry image n name j ∧ Describes s' item (rootSlot image j))

/-! ## When it does so -/

/-- Every name assembled fits its buffer, and when there is a live entry with the name, the last slot taken
for the name is such an entry, or leads to a subdirectory like it. -/
structure NamesRight (image : Nat → Sector) (n : Nat) (name : List UInt8) : Prop where
  fits : ∀ i, i < liveCount image n → assembledName (rootItems image) i ≠ none
  last : (∃ j, LiveEntry image n name j) → ∃ front last, rootTaken image n name = front ++ [last] ∧
    ∃ j, LiveEntry image n name j ∧ SameItem (rootSlot image last) (rootSlot image j)

/-- The slots taken for the name are files. -/
def FilesTaken (image : Nat → Sector) (n : Nat) (name : List UInt8) : Prop :=
  ∀ i ∈ rootTaken image n name, itemIsSubdirectory (rootSlot image i) = false

/-- There is room for the items of the slots taken for the name: two blocks for each file; with
subdirectories among them, whose slots can be counted and read, a free run as long as all items and the
slots loaded. -/
def ItemsFit (s : Kernel) (image : Nat → Sector) (n : Nat) (name : List UInt8) : Prop :=
  FilesTaken image n name ∧ 2 * (rootTaken image n name).length ≤ freeCount s.heap ∨
    ∃ priv cost, DirectoryReady s image priv ∧
      ItemCosts image ((rootTaken image n name).map (rootSlot image)) cost ∧ Spacious s.heap cost

/-- No slot is taken for the name, or the blocks are used up before the last one. -/
def NoItemFits (s : Kernel) (image : Nat → Sector) (n : Nat) (name : List UInt8) : Prop :=
  rootTaken image n name = [] ∨
    FilesTaken image n name ∧ freeCount s.heap + 2 ≤ 2 * (rootTaken image n name).length

/-- The names are right; there is room for the items of a name that a live entry has, and no item is made
for one that none has. -/
structure ScanRight (s : Kernel) (image : Nat → Sector) (n : Nat) (name : List UInt8) : Prop where
  names : NamesRight image n name
  room : (∃ j, LiveEntry image n name j) → ItemsFit s image n name
  none : (¬ ∃ j, LiveEntry image n name j) → NoItemFits s image n name

theorem RootLoaded.listed {s : Kernel} {n : Nat} {directory : FatDirectory}
    (h : RootLoaded s image n directory) : Listed s (rootListing image n) directory :=
  ⟨h.items, h.total⟩

/-- The search makes the items of the slots it takes for the name. -/
theorem total_find {s : Kernel} {n : Nat} {directory : FatDirectory} (h : RootLoaded s image n directory)
    (hends : RootEnds image n) (name : List UInt8) (Q : UInt32 → Kernel → Prop) :
    Total (fat16FindItemInDirectory directory name) s Q ↔
      (∀ i, i < liveCount image n → assembledName (rootItems image) i ≠ none) ∧
        Total (newItems ((rootTaken image n name).map (rootSlot image)) 0) s Q := by
  have hscan : Total (findItemLoop directory name (liveCount image n) 0 0) s Q ↔ _ :=
    total_findItemLoop (liveCount image n) 0 0 s h.wf h.items
  have hmap : (takenSlots (rootItems image) name 0 (liveCount image n)).map (entryAt (rootItems image))
      = (rootTaken image n name).map (rootSlot image) := rootListing_entries hends name
  rw [fat16FindItemInDirectory, h.total, Int.toNat_natCast, hscan, hmap]
  simp only [Nat.zero_le, Nat.zero_add, true_implies]

section Search

variable {s : Kernel} {n : Nat} {directory : FatDirectory} {name : List UInt8}

/-- With room for the items the last one describes its entry. -/
theorem ItemsFit.find (h : RootLoaded s image n directory) (hends : RootEnds image n)
    (hfits : ∀ i, i < liveCount image n → assembledName (rootItems image) i ≠ none)
    (hroom : ItemsFit s image n name) {front : List Nat} {last : Nat}
    (hlast : rootTaken image n name = front ++ [last]) :
    Total (fat16FindItemInDirectory directory name) s fun item s' =>
      item ≠ 0 ∧ Describes s' item (rootSlot image last) := by
  rcases hroom with ⟨hfiles, hcount⟩ | ⟨priv, cost, hready, hcosts, hspacious⟩
  · -- files only
    rw [hlast, List.length_append, List.length_singleton] at hcount
    have hentries : ∀ e ∈ front.map (rootSlot image) ++ [rootSlot image last], itemIsSubdirectory e = false := by
      intro e he
      rw [← List.map_singleton, ← List.map_append, ← hlast] at he
      obtain ⟨i, hi, rfl⟩ := List.mem_map.mp he
      exact hfiles i hi
    refine (total_find h hends name _).mpr ⟨hfits, ?_⟩
    rw [hlast, List.map_append, List.map_singleton]
    refine (newItems_files _ _ 0 s h.wf hentries).mono ?_
    rintro item s' ⟨hne, hdesc⟩
    rw [List.length_map] at hne hdesc
    exact ⟨hne.mpr (by omega), hdesc.mpr hcount⟩
  · have hsearch : Searchable image (rootListing image n) name cost :=
      ⟨hfits, (rootListing_entries hends name).symm ▸ hcosts⟩
    have hfind := (sound_findItem (k := 0) hready h.listed hsearch hspacious).1
    rw [Trace.erase_fat16FindItemInDirectory] at hfind
    refine hfind.mono ?_
    rintro item s' ⟨hgrown, -, hmade⟩
    rw [MadeLast, rootListing_entries hends, hlast, List.map_append, List.map_singleton,
      List.getLast?_concat] at hmade
    have hstands : Stands image s' item (rootSlot image last) := hmade.stands
    exact ⟨hstands.ne_zero hgrown.wf, hstands.describes⟩

/-- **Under the condition the search is right.** -/
theorem ScanRight.finds (hright : ScanRight s image n name) (h : RootLoaded s image n directory)
    (hends : RootEnds image n) : FindsLive s image n name directory := by
  by_cases hlive : ∃ j, LiveEntry image n name j
  · obtain ⟨front, last, hlast, j, hj, hsame⟩ := hright.names.last hlive
    refine ((hright.room hlive).find h hends hright.names.fits hlast).mono ?_
    rintro item s' ⟨hne, hdesc⟩
    exact ⟨iff_of_true hne hlive, fun _ => ⟨j, hj, hdesc.same hsame⟩⟩
  · have hzero : Total (fat16FindItemInDirectory directory name) s fun item _ => item = 0 := by
      refine (total_find h hends name _).mpr ⟨hright.names.fits, ?_⟩
      rcases List.eq_nil_or_concat (rootTaken image n name) with hnil | ⟨front, last, hlast⟩
      · rw [hnil]
        exact total_pure.mpr rfl
      rw [List.concat_eq_append] at hlast
      rcases hright.none hlive with hnil | ⟨hfiles, hcount⟩
      · rw [hnil]
        exact total_pure.mpr rfl
      have hentries : ∀ e ∈ front.map (rootSlot image) ++ [rootSlot image last],
          itemIsSubdirectory e = false := by
        intro e he
        rw [← List.map_singleton, ← List.map_append, ← hlast] at he
        obtain ⟨i, hi, rfl⟩ := List.mem_map.mp he
        exact hfiles i hi
      rw [hlast, List.length_append, List.length_singleton] at hcount
      rw [hlast, List.map_append, List.map_singleton]
      refine (newItems_files _ _ 0 s h.wf hentries).mono ?_
      rintro item s' ⟨hne, -⟩
      rw [List.length_map] at hne
      exact not_not.mp fun h0 => absurd (hne.mp h0) (by omega)
    refine hzero.mono ?_
    rintro item s' rfl
    exact ⟨iff_of_false (fun h => h rfl) hlive, fun h => absurd rfl h⟩

/-- A search that is right has right names. -/
theorem FindsLive.names (hfinds : FindsLive s image n name directory) (h : RootLoaded s image n directory)
    (hends : RootEnds image n) : NamesRight image n name := by
  obtain ⟨hfits, item, s', hrun, hitem, hdesc⟩ := (total_find h hends name _).mp hfinds
  refine ⟨hfits, fun hlive => ?_⟩
  have hne : item ≠ 0 := hitem.mpr hlive
  obtain ⟨j, hj, hj'⟩ := hdesc hne
  rcases List.eq_nil_or_concat (rootTaken image n name) with hnil | ⟨front, last, hlast⟩
  · rw [hnil] at hrun
    exact absurd (pure_eq_some.mp hrun).1.symm hne
  · rw [List.concat_eq_append] at hlast
    rw [hlast, List.map_append] at hrun
    obtain ⟨hgrown, hnew⟩ := newItems_new _ _ _ _ h.wf _ _ hrun
    obtain ⟨-, hsame⟩ := (hnew.madeFor hne).describes hgrown.wf hj'
    exact ⟨front, last, hlast, j, hj, hsame⟩

/-- Among files it has used no more than the blocks there are. -/
theorem FindsLive.scanRight (hfinds : FindsLive s image n name directory)
    (h : RootLoaded s image n directory) (hends : RootEnds image n) (hfiles : FilesTaken image n name) :
    ScanRight s image n name := by
  have hnames := hfinds.names h hends
  obtain ⟨-, item, s', hrun, hitem, hdesc⟩ := (total_find h hends name _).mp hfinds
  have hlastFiles : ∀ front last, rootTaken image n name = front ++ [last] →
      (item ≠ 0 ↔ 2 * front.length < freeCount s.heap) ∧
        (Describes s' item (rootSlot image last) ↔ 2 * (front.length + 1) ≤ freeCount s.heap) := by
    intro front last hlast
    have hentries : ∀ e ∈ front.map (rootSlot image) ++ [rootSlot image last],
        itemIsSubdirectory e = false := by
      intro e he
      rw [← List.map_singleton, ← List.map_append, ← hlast] at he
      obtain ⟨i, hi, rfl⟩ := List.mem_map.mp he
      exact hfiles i hi
    have hmade := newItems_files _ _ 0 s h.wf hentries
    rw [hlast, List.map_append, List.map_singleton] at hrun
    rw [total_of_some hrun, List.length_map] at hmade
    exact hmade
  refine ⟨hnames, fun hlive => Or.inl ⟨hfiles, ?_⟩, fun hno => ?_⟩
  · obtain ⟨front, last, hlast, j, hj, hsame⟩ := hnames.last hlive
    have hne : item ≠ 0 := hitem.mpr hlive
    obtain ⟨j', hj', hj''⟩ := hdesc hne
    -- the item is one for the last slot
    have hmade : Describes s' item (rootSlot image last) := by
      have hrun' := hrun
      rw [hlast, List.map_append] at hrun'
      obtain ⟨hgrown, hnew⟩ := newItems_new _ _ _ _ h.wf _ _ hrun'
      exact ((hnew.madeFor hne).describes hgrown.wf hj'').1
    rw [hlast, List.length_append, List.length_singleton]
    exact (hlastFiles front last hlast).2.mp hmade
  · rcases List.eq_nil_or_concat (rootTaken image n name) with hnil | ⟨front, last, hlast⟩
    · exact Or.inl hnil
    · rw [List.concat_eq_append] at hlast
      refine Or.inr ⟨hfiles, ?_⟩
      have hnull : ¬ 2 * front.length < freeCount s.heap := fun hlt =>
        hno (hitem.mp ((hlastFiles front last hlast).1.mpr hlt))
      rw [hlast, List.length_append, List.length_singleton]
      omega

end Search

/-! ## The search after the directory has been loaded -/

end RasOS
