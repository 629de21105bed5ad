import RasOS.Fs.Freeing
import RasOS.Fs.Subdirectory
import RasOS.Fs.Walk

set_option autoImplicit false

/-! # Making items, with room for them

The item of a file takes two blocks of the heap, that of a subdirectory two and those of its slots.
While there is a free run of so many blocks, the item can be made, and stands for its entry. -/

namespace RasOS

open Machine Traced HeapEvent

variable {α : Type} {image : Nat → Sector} {priv : FatPrivate}

/-- Allocating and reading leave the volume mounted. -/
theorem DirectoryReady.grown {s s' : Kernel} (h : DirectoryReady s image priv) (hgrown : Grown s s') :
    DirectoryReady s' image priv := by
  have hdrive : s'.drive = s.drive := congrArg Statics.drive hgrown.statics
  have hdisk : s'.disk = s.disk := congrArg Statics.disk hgrown.statics
  obtain ⟨cluster, hcluster⟩ := h.cluster_stream
  obtain ⟨fat, hfat⟩ := h.fat_stream
  obtain ⟨dir, hdir⟩ := h.directory_stream
  refine ⟨⟨hgrown.wf, fun requests sector => ?_, ?_, hgrown.stream _ _ hcluster, hgrown.stream _ _ hfat,
    h.header, h.data_sector⟩, hgrown.stream _ _ hdir⟩
  · rw [hdrive]
    exact h.drive requests sector
  · rw [hdisk]
    exact hgrown.object _ _ h.private_data fun _ heq => Obj.noConfusion heq

/-! ## Directories in memory -/

/-- The slots of a directory that are loaded, and how many of them are searched. -/
structure Listing where
  items : List UInt8
  total : Nat

namespace Listing

/-- The entries whose items a search for the name makes. -/
def entries (L : Listing) (name : List UInt8) : List (List UInt8) :=
  (takenSlots L.items name 0 L.total).map (entryAt L.items)

/-- The entry whose item it returns. -/
def found (L : Listing) (name : List UInt8) : Option (List UInt8) := (L.entries name).getLast?

end Listing

/-- The root directory, with its terminator in slot `n`. -/
def rootListing (image : Nat → Sector) (n : Nat) : Listing := ⟨rootItems image, liveCount image n⟩

/-- The directory that begins at the cluster `first`, of which `count` slots are counted. -/
def chainListing (image : Nat → Sector) (first count : Nat) : Listing where
  items := readBytes image first 0 (count * SIZEOF_FAT_DIRECTORY_ITEM)
  total := count

/-- The entry is that of a subdirectory, whose listing this is. -/
inductive Enters (image : Nat → Sector) (entry : List UInt8) : Listing → Prop
  | intro (count : Nat) (hsub : itemIsSubdirectory entry = true)
      (hcounts : CountsSlots image (firstCluster entry) count) :
      Enters image entry (chainListing image (firstCluster entry) count)

theorem Enters.unique {entry : List UInt8} {L L' : Listing} (h : Enters image entry L)
    (h' : Enters image entry L') : L = L' := by
  obtain ⟨count, -, hcounts⟩ := h
  obtain ⟨count', -, hcounts'⟩ := h'
  rw [hcounts.unique hcounts']

theorem Enters.subdirectory {entry : List UInt8} {L : Listing} (h : Enters image entry L) :
    itemIsSubdirectory entry = true := by
  obtain ⟨count, hsub, -⟩ := h
  exact hsub

/-- The listing is in memory. -/
structure Listed (s : Kernel) (L : Listing) (d : FatDirectory) : Prop where
  items : s.live d.item = some (dirItemsK.inj L.items)
  total : d.total = L.total

theorem Listed.grown {s s' : Kernel} {L : Listing} {d : FatDirectory} (h : Listed s L d)
    (hgrown : Grown s s') : Listed s' L d :=
  ⟨hgrown.object _ _ h.items fun _ heq => Obj.noConfusion heq, h.total⟩

/-- The item stands for the entry: it holds a copy of it, or the directory it leads to. -/
inductive Stands (image : Nat → Sector) (s : Kernel) (item : UInt32) (entry : List UInt8) : Prop
  | file (it : FatItem) (hfile : itemIsSubdirectory entry = false)
      (hit : s.live item = some (fatItemK.inj it)) (htype : it.type = FAT_ITEM_TYPE_FILE)
      (hcopy : s.live it.item = some (dirItemsK.inj entry)) : Stands image s item entry
  | subdirectory (it : FatItem) (d : FatDirectory) (L : Listing) (henters : Enters image entry L)
      (hit : s.live item = some (fatItemK.inj it)) (htype : it.type = FAT_ITEM_TYPE_DIRECTORY)
      (hd : s.live it.item = some (fatDirectoryK.inj d)) (hlisted : Listed s L d) : Stands image s item entry

/-- What can be freed with the item is all there. -/
theorem Stands.owns {s : Kernel} {item : UInt32} {entry : List UInt8} (h : Stands image s item entry)
    (hwf : s.WF) : ∃ ptrs, ItemOwns s item ptrs := by
  cases h with
  | file it hfile hit htype hcopy => exact ⟨_, .file it entry hit htype hcopy⟩
  | subdirectory it d L henters hit htype hd hlisted =>
      exact ⟨_, .directory it _ hit htype (.full d _ (hwf.ne_zero hd) hd (hwf.ne_zero hlisted.items)
        hlisted.items)⟩

theorem Stands.ne_zero {s : Kernel} {item : UInt32} {entry : List UInt8} (h : Stands image s item entry)
    (hwf : s.WF) : item ≠ 0 := by
  cases h with
  | file it hfile hit htype hcopy => exact hwf.ne_zero hit
  | subdirectory it d L henters hit htype hd hlisted => exact hwf.ne_zero hit

theorem Stands.describes {s : Kernel} {item : UInt32} {entry : List UInt8} (h : Stands image s item entry) :
    Describes s item entry := by
  cases h with
  | file it hfile hit htype hcopy =>
      refine ⟨it, hit, ?_⟩
      rw [hfile, if_neg Bool.false_ne_true]
      exact ⟨htype, hcopy⟩
  | subdirectory it d L henters hit htype hd hlisted =>
      refine ⟨it, hit, ?_⟩
      rw [if_pos henters.subdirectory]
      exact htype

/-- It does so as long as its objects stay. -/
theorem Stands.congr {s s' : Kernel} {item : UInt32} {entry : List UInt8} (h : Stands image s item entry)
    (hkept : ∀ q o, s.live q = some o → o.isItem = true → s'.live q = some o) :
    Stands image s' item entry := by
  cases h with
  | file it hfile hit htype hcopy =>
      exact .file it hfile (hkept _ _ hit rfl) htype (hkept _ _ hcopy rfl)
  | subdirectory it d L henters hit htype hd hlisted =>
      exact .subdirectory it d L henters (hkept _ _ hit rfl) htype (hkept _ _ hd rfl)
        ⟨hkept _ _ hlisted.items rfl, hlisted.total⟩

theorem Stands.grown {s s' : Kernel} {item : UInt32} {entry : List UInt8} (h : Stands image s item entry)
    (hgrown : Grown s s') : Stands image s' item entry := by
  refine h.congr fun q o ho hkind => hgrown.object q o ho fun st heq => ?_
  rw [heq] at hkind
  cases hkind

/-- The item stands for the entry, and what it owns was not there in `s`. -/
structure NewStands (image : Nat → Sector) (s : Kernel) (item : UInt32) (entry : List UInt8) (s' : Kernel) :
    Prop where
  stands : Stands image s' item entry
  fresh : ∀ ptrs, ItemOwns s' item ptrs → ∀ q ∈ ptrs, s.live q = none

theorem NewStands.earlier {s s1 s' : Kernel} {item : UInt32} {entry : List UInt8}
    (h : NewStands image s1 item entry s') (hgrown : Grown s s1) : NewStands image s item entry s' :=
  ⟨h.stands, fun ptrs hptrs q hq => hgrown.fresh (h.fresh ptrs hptrs q hq)⟩

theorem NewStands.later {s s1 s' : Kernel} {item : UInt32} {entry : List UInt8}
    (h : NewStands image s item entry s1) (hwf : s1.WF) (hgrown : Grown s1 s') :
    NewStands image s item entry s' := by
  obtain ⟨ptrs, hptrs⟩ := h.stands.owns hwf
  refine ⟨h.stands.grown hgrown, fun ptrs' hptrs' => ?_⟩
  rw [hptrs'.unique (hptrs.congr (hptrs.kept hgrown))]
  exact h.fresh ptrs hptrs

/-! ## What items cost -/

/-- The blocks that what the item of an entry holds takes. The subdirectory of such an entry is not
empty. -/
inductive PayloadCost (image : Nat → Sector) (entry : List UInt8) : Nat → Prop
  | file (hfile : itemIsSubdirectory entry = false) : PayloadCost image entry 1
  | subdirectory (L : Listing) (henters : Enters image entry L) (hpos : 0 < L.total) :
      PayloadCost image entry (1 + slotBlocks L.total)

/-- The blocks that the items of some entries take. -/
inductive ItemCosts (image : Nat → Sector) : List (List UInt8) → Nat → Prop
  | nil : ItemCosts image [] 0
  | cons {entry : List UInt8} {entries : List (List UInt8)} {cost rest : Nat}
      (first : PayloadCost image entry cost) (others : ItemCosts image entries rest) :
      ItemCosts image (entry :: entries) (1 + (cost + rest))

/-- A search for the name is possible, and takes `cost` blocks: the names assembled fit, and the items of
the entries taken for the name can be made. -/
structure Searchable (image : Nat → Sector) (L : Listing) (name : List UInt8) (cost : Nat) : Prop where
  fits : ∀ i, i < L.total → assembledName L.items i ≠ none
  costs : ItemCosts image (L.entries name) cost

/-! ## Loading -/

theorem always_kfree (k : Kind Obj α) (ptr : UInt32) : Always Met (Trace.kfree k ptr) :=
  .bind (.emit fun _ => trivial) fun _ => .lift _

theorem always_read (k : Kind Obj α) (ptr : UInt32) : Always Met (Trace.read k ptr) :=
  .bind (.emit fun _ => trivial) fun _ => .lift _

theorem always_freeDirectory (directory : UInt32) : Always Met (Trace.fat16FreeDirectory directory) :=
  .ite (.pure _) (.bind (always_read _ _) fun _ =>
    .ite (always_kfree _ _) (.bind (always_kfree _ _) fun _ => always_kfree _ _))

theorem always_fatItemFree (item : UInt32) : Always Met (Trace.fat16FatItemFree item) := by
  refine .bind (always_read _ _) fun it => .ite ?_ (.ite ?_ (always_kfree _ _))
  · exact .bind (always_freeDirectory _) fun _ => always_kfree _ _
  · exact .bind (always_kfree _ _) fun _ => always_kfree _ _

/-- Nothing is reported of a load before it returns. -/
theorem always_loadFatDirectoryRes (item : List UInt8) : Always Met (Trace.loadFatDirectoryRes item) := by
  refine .ite (.pure _) (.bind (.lift _) fun directory => .ite (.pure _) ?_)
  refine .bind (.lift _) fun priv => .bind (.lift _) fun total => .bind (.lift _) fun items => ?_
  refine .bind (.lift _) fun _ => .ite (.bind (always_freeDirectory _) fun _ => .pure _) ?_
  refine .bind (.lift _) fun r => .bind (.lift _) fun _ => .ite ?_ (.pure _)
  exact .bind (always_freeDirectory _) fun _ => .pure _

/-- The slots that are counted need a block. -/
theorem slotBlocks_pos {first count : Nat} (hcounts : CountsSlots image first count) (hpos : 0 < count) :
    0 < slotBlocks count := by
  have hbound := hcounts.bound
  rw [SIZEOF_FAT_DIRECTORY_ITEM] at hbound
  rw [slotBlocks, blocksFor, SIZEOF_FAT_DIRECTORY_ITEM, toNat_ofNat_of_lt (by omega)]
  omega

/-- **With room for it a directory is loaded**, and its error exit is not taken. -/
theorem sound_loadFatDirectory {s : Kernel} {entry : List UInt8} {L : Listing} {k : Nat}
    (h : DirectoryReady s image priv) (henters : Enters image entry L) (hpos : 0 < L.total)
    (hroom : Spacious s.heap (1 + (slotBlocks L.total + k))) :
    Sound Met (Trace.fat16LoadFatDirectory entry) s fun directory s' => Spacious s'.heap k ∧
      ∃ d, s'.live directory = some (fatDirectoryK.inj d) ∧ Listed s' L d := by
  obtain ⟨count, hsub, hcounts⟩ := henters
  have hblocks := slotBlocks_pos hcounts hpos
  obtain ⟨directory, s', hrun, hloaded, -⟩ := fat16LoadFatDirectory_counted h hcounts hsub
  obtain ⟨d, hd, htotal, hitems, hspacious⟩ := hloaded (.of_spacious h.wf hblocks hroom)
  have hlisted : Listed s' (chainListing image (firstCluster entry) count) d := ⟨hitems, htotal⟩
  rw [← Trace.erase_fat16LoadFatDirectory] at hrun
  refine ⟨⟨directory, s', hrun, hspacious k hroom, d, hd, hlisted⟩, ?_⟩
  -- the directory returned is live, so it has not been freed
  have hquiet := always_loadFatDirectoryRes entry s
  have hres := (exact_loadFatDirectoryRes entry h.wf).2 hquiet
  have herase : (Trace.fat16LoadFatDirectory entry).erase
      = (Trace.loadFatDirectoryRes entry).erase >>= fun r => Pure.pure r.2 :=
    erase_bind rfl fun _ => erase_emit_bind _ (erase_pure _)
  rw [herase] at hrun
  obtain ⟨r, t, hrun', hpure⟩ := bind_eq_some.mp hrun
  obtain ⟨rfl, rfl⟩ := pure_eq_some.mp hpure
  unfold Trace.fat16LoadFatDirectory
  rw [events_bind_of_some hrun']
  refine List.forall_mem_append.mpr ⟨hquiet, ?_⟩
  refine List.forall_mem_singleton.mpr ?_
  rcases hres r t hrun' with h0 | ⟨hok, -⟩ | ⟨-, hgone⟩
  · exact Or.inl h0
  · exact Or.inr hok
  · rw [hgone] at hd
    cases hd

/-! ## Making -/

/-- The copy of an entry. -/
theorem fat16CloneDirectoryItem_spacious {s : Kernel} (hwf : s.WF) (entry : List UInt8) {k : Nat}
    (hroom : Spacious s.heap (1 + k)) :
    Total (fat16CloneDirectoryItem entry) s fun copy s' => Spacious s'.heap k ∧
      s'.live copy = some (dirItemsK.inj entry) := by
  obtain ⟨copy, s1, hrun, hne, -, -, hlive, hspacious⟩ := kzalloc_spacious dirItemsK 32 [] hwf (by decide) hroom
  rw [fat16CloneDirectoryItem, total_bind_of_some hrun, if_neg hne, total_store hlive]
  exact total_pure.mpr ⟨hspacious, Kind.write_self ..⟩

/-- **With room for it the item of an entry is made**, and no directory is lost on the way. -/
theorem sound_newFatItem {s : Kernel} {entry : List UInt8} {cost k : Nat} (h : DirectoryReady s image priv)
    (hcost : PayloadCost image entry cost) (hroom : Spacious s.heap (1 + (cost + k))) :
    Sound Met (Trace.fat16NewFatItemForDirectoryItem entry) s fun item s' =>
      Grown s s' ∧ Spacious s'.heap k ∧ NewStands image s item entry s' := by
  have hspec : Ensures (Trace.fat16NewFatItemForDirectoryItem entry).erase s fun item s' =>
      Grown s s' ∧ NewItem s entry item s' := by
    rw [Trace.erase_fat16NewFatItemForDirectoryItem]
    exact fat16NewFatItemForDirectoryItem_spec entry h.wf
  refine (Sound.and_ensures (Q := fun item s' => Spacious s'.heap k ∧ Stands image s' item entry) ?_ hspec).mono
    fun _ _ h => ⟨h.2.1, h.1.1, h.1.2, fun _ howns => h.2.2.owns_fresh h.2.1.wf howns⟩
  obtain ⟨item, s1, hrun, hne, hsince, -, hlive, hspacious⟩ :=
    kzalloc_spacious fatItemK SIZEOF_FAT_ITEM {} h.wf (by decide) hroom
  have h1 := h.grown hsince.grown
  have hlive1 : ∀ {t : Kernel}, Grown s1 t → t.live item = some (fatItemK.inj {}) := fun ht =>
    ht.object _ _ hlive fun _ heq => Obj.noConfusion heq
  unfold Trace.fat16NewFatItemForDirectoryItem
  refine Sound.bind_of_some hrun ?_
  rw [if_neg hne]
  cases hcost with
  | file hfile =>
      rw [hfile, if_neg Bool.false_ne_true]
      have hclone := fat16CloneDirectoryItem_spacious h1.wf entry hspacious
      obtain ⟨copy, s2, hrun2, hspacious2, hcopy⟩ := hclone
      obtain ⟨hgrown2, -⟩ := fat16CloneDirectoryItem_spec entry h1.wf _ _ hrun2
      have hapart : fatItemK.Apart dirItemsK := fun _ _ h => Obj.noConfusion h
      refine Sound.bind_of_some hrun2 (Sound.bind_of_some (store_of_live (hlive1 hgrown2) _) ?_)
      refine Sound.pure ⟨hspacious2, .file _ hfile (Kind.write_self ..) rfl ?_⟩
      exact (Kind.write_apart hapart (hlive1 hgrown2)).mpr hcopy
  | subdirectory L henters hpos =>
      -- the rest of the room is what the directory costs
      rw [if_pos henters.subdirectory]
      rw [Nat.add_assoc] at hspacious
      have hload := sound_loadFatDirectory h1 henters hpos hspacious
      have hgrown : Ensures (Trace.fat16LoadFatDirectory entry).erase s1 fun _ s2 => Grown s1 s2 := by
        rw [Trace.erase_fat16LoadFatDirectory]
        exact (fat16LoadFatDirectory_spec entry h1.wf).mono fun _ _ h => h.1
      refine (hload.and_ensures hgrown).bind ?_
      rintro directory s2 ⟨⟨hspacious2, d, hd, hlisted⟩, hgrown2⟩
      have hapart : fatItemK.Apart fatDirectoryK := fun _ _ h => Obj.noConfusion h
      have hapart' : fatItemK.Apart dirItemsK := fun _ _ h => Obj.noConfusion h
      refine Sound.bind_of_some (store_of_live (hlive1 hgrown2) _) (Sound.pure ⟨hspacious2, ?_⟩)
      refine .subdirectory _ d L henters (Kind.write_self ..) rfl ?_ ⟨?_, hlisted.total⟩
      · exact (Kind.write_apart hapart (hlive1 hgrown2)).mpr hd
      · exact (Kind.write_apart hapart' (hlive1 hgrown2)).mpr hlisted.items

/-- What the last of some new items is: one that stands for the last entry. -/
def MadeLast (image : Nat → Sector) (s : Kernel) (entries : List (List UInt8)) (f_item item : UInt32)
    (s' : Kernel) : Prop :=
  match entries.getLast? with
  | none => item = f_item
  | some entry => NewStands image s item entry s'

theorem MadeLast.cons {s s1 s' : Kernel} {entry : List UInt8} {entries : List (List UInt8)}
    {f_item first item : UInt32} (hfirst : NewStands image s first entry s1) (hgrown : Grown s s1)
    (hgrown' : Grown s1 s') (h : MadeLast image s1 entries first item s') :
    MadeLast image s (entry :: entries) f_item item s' := by
  unfold MadeLast at h ⊢
  rw [List.getLast?_cons]
  cases hlast : entries.getLast? with
  | none =>
      rw [hlast] at h
      rw [show item = first from h]
      exact hfirst.later hgrown.wf hgrown'
  | some last =>
      rw [hlast] at h
      exact NewStands.earlier h hgrown

/-- **With room for the items of the entries taken a scan makes them.** By induction on the slots left to
scan. -/
theorem sound_findItemLoop {directory : FatDirectory} {items name : List UInt8} {k : Nat} :
    ∀ (remaining i : Nat) (f_item : UInt32) (s : Kernel) (cost : Nat), DirectoryReady s image priv →
      s.live directory.item = some (dirItemsK.inj items) →
      (∀ j, i ≤ j → j < i + remaining → assembledName items j ≠ none) →
      ItemCosts image ((takenSlots items name i remaining).map (entryAt items)) cost →
      Spacious s.heap (cost + k) →
      Sound Met (Trace.findItemLoop directory name remaining i f_item) s fun item s' =>
        Grown s s' ∧ Spacious s'.heap k ∧
          MadeLast image s ((takenSlots items name i remaining).map (entryAt items)) f_item item s' := by
  intro remaining
  induction remaining with
  | zero =>
      intro i f_item s cost h _ _ hcosts hroom
      cases hcosts
      rw [Nat.zero_add] at hroom
      exact Sound.pure ⟨Grown.refl h.wf, hroom, rfl⟩
  | succ remaining ih =>
      intro i f_item s cost h hitems hfits hcosts hroom
      obtain ⟨assembled, hname⟩ := Option.ne_none_iff_exists'.mp (hfits i (Nat.le_refl i) (by omega))
      have hcode : combineFilenameAndExt (items.drop (i * SIZEOF_FAT_DIRECTORY_ITEM)) RASOS_PATH_MAX_LEN
          = some assembled := hname
      have hfits' : ∀ j, i + 1 ≤ j → j < i + 1 + remaining → assembledName items j ≠ none :=
        fun j h1 h2 => hfits j (by omega) (by omega)
      have hread : (Trace.read dirItemsK directory.item).erase s = some (items, s) := by
        rw [Trace.erase_read]
        exact load_of_live hitems
      refine ((always_read dirItemsK directory.item).sound
        ((total_of_some (Q := fun a t => items = a ∧ s = t) hread).mpr ⟨rfl, rfl⟩)).bind ?_
      rintro _ _ ⟨rfl, rfl⟩
      dsimp only
      rw [hcode]
      dsimp only
      by_cases hcmp : istrncmp assembled name RASOS_PATH_MAX_LEN = 0
      · -- an item is made for the slot, in place of the one before
        have htaken : Taken items name i = true := by
          rw [Taken, hname, Option.any_some]
          exact decide_eq_true hcmp
        have hslots : takenSlots items name i (remaining + 1) = i :: takenSlots items name (i + 1) remaining := by
          rw [takenSlots, List.range'_succ, List.filter_cons_of_pos htaken, takenSlots]
        rw [hslots, List.map_cons] at hcosts ⊢
        rw [if_pos hcmp]
        cases hcosts with
        | cons first others =>
            rw [Nat.add_assoc, Nat.add_assoc] at hroom
            refine (sound_newFatItem h first hroom).bind ?_
            rintro item s1 ⟨hgrown1, hspacious1, hnew1⟩
            have hitems1 := hgrown1.object _ _ hitems fun _ heq => Obj.noConfusion heq
            refine (ih (i + 1) item s1 _ (h.grown hgrown1) hitems1 hfits' others hspacious1).mono ?_
            rintro item' s' ⟨hgrown', hspacious', hlast⟩
            exact ⟨hgrown1.trans hgrown', hspacious', hlast.cons hnew1 hgrown1 hgrown'⟩
      · have htaken : ¬ Taken items name i = true := by
          rw [Taken, hname, Option.any_some]
          exact fun h => hcmp (of_decide_eq_true h)
        have hslots : takenSlots items name i (remaining + 1) = takenSlots items name (i + 1) remaining := by
          rw [takenSlots, List.range'_succ, List.filter_cons_of_neg htaken, takenSlots]
        rw [hslots] at hcosts ⊢
        rw [if_neg hcmp]
        exact ih (i + 1) f_item s cost h hitems hfits' hcosts hroom

/-- **The search of a directory**, with room for the items it makes: null when no entry is taken for the
name, else an item that stands for the last one. -/
theorem sound_findItem {s : Kernel} {L : Listing} {directory : FatDirectory} {name : List UInt8} {cost k : Nat}
    (h : DirectoryReady s image priv) (hlisted : Listed s L directory)
    (hsearch : Searchable image L name cost) (hroom : Spacious s.heap (cost + k)) :
    Sound Met (Trace.fat16FindItemInDirectory directory name) s fun item s' =>
      Grown s s' ∧ Spacious s'.heap k ∧ MadeLast image s (L.entries name) 0 item s' := by
  have hloop := sound_findItemLoop (k := k) L.total 0 0 s cost h hlisted.items
    (fun j _ hj => hsearch.fits j (by omega)) hsearch.costs hroom
  rw [Trace.fat16FindItemInDirectory, hlisted.total, Int.toNat_natCast]
  exact hloop

end RasOS
