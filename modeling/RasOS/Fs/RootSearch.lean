import RasOS.Fs.Lookup
import RasOS.Fs.OneFile
import RasOS.Fs.ShortName
import RasOS.Fs.SlotScan
import RasOS.Kernel.Room

set_option autoImplicit false

/-! # Finding an entry of the root directory

The root directory is an array of slots that ends at the first slot with a zero. The count made when
the volume is mounted leaves deleted slots out; the search goes through as many slots from the first
one on, deleted or not. -/

namespace RasOS

open Machine

variable {image : Nat → Sector} {priv : FatPrivate}

/-! ## The slots -/

/-- The position of the root directory on the disk. -/
def rootPos (image : Nat → Sector) : Nat := rootSector (bootHeader image) * RASOS_SECTOR_SIZE

/-- The number of its slots. -/
def rootEntries (image : Nat → Sector) : Nat := (bootHeader image).root_dir_entries.toNat

/-- The bytes of a slot. -/
def rootSlot (image : Nat → Sector) (i : Nat) : List UInt8 :=
  slice (diskByte image) (rootPos image + i * SIZEOF_FAT_DIRECTORY_ITEM) SIZEOF_FAT_DIRECTORY_ITEM

/-- All slots. -/
def rootItems (image : Nat → Sector) : List UInt8 :=
  slice (diskByte image) (rootPos image) (rootEntries image * SIZEOF_FAT_DIRECTORY_ITEM)

/-- The entries end at slot `n`: the first one that begins with a zero. -/
structure RootEnds (image : Nat → Sector) (n : Nat) : Prop where
  inside : n < rootEntries image
  terminator : byteAt (rootSlot image n) 0 = 0x00
  before : ∀ i, i < n → byteAt (rootSlot image i) 0 ≠ 0x00

/-- The root directory lies in the part of the disk an `int` position reaches. -/
def RootInRange (image : Nat → Sector) : Prop :=
  rootPos image + rootEntries image * SIZEOF_FAT_DIRECTORY_ITEM ≤ 2 ^ 31

/-- The number of slots in use among the first `n`. -/
def liveCount (image : Nat → Sector) (n : Nat) : Nat :=
  (List.range n).countP fun i => InUse (rootSlot image i)

theorem liveCount_le (n : Nat) : liveCount image n ≤ n := by
  have hle := List.countP_le_length (p := fun i => decide (InUse (rootSlot image i)))
    (l := List.range n)
  rw [List.length_range] at hle
  exact hle

/-! ## Counting -/

/-- **The count of the slots from `j` on**, with the terminator `k` slots further. By induction on `k`:
each read takes the stream to the next slot. -/
theorem getTotalItemsLoop_spec (stream : UInt32) (hrange : RootInRange image) :
    ∀ (k j fuel : Nat) (i : Int) (s : Kernel), HoldsImage s image →
      s.live stream = some (diskStreamK.inj ⟨(rootPos image + j * SIZEOF_FAT_DIRECTORY_ITEM : Nat)⟩) →
      RootEnds image (j + k) → k < fuel →
      Total (getTotalItemsLoop stream fuel i) s fun r _ =>
        r = i + (List.range' j k).countP fun m => InUse (rootSlot image m) := by
  intro k
  induction k with
  | zero =>
      intro j fuel i s hdrive hst hends hfuel
      cases fuel with
      | zero => omega
      | succ fuel =>
          have hin := hends.inside
          unfold RootInRange at hrange
          rw [SIZEOF_FAT_DIRECTORY_ITEM] at hrange hst
          have hread := diskstreamerRead_moves (n := SIZEOF_FAT_DIRECTORY_ITEM) hdrive hst (by omega)
            (by rw [SIZEOF_FAT_DIRECTORY_ITEM]; omega) (by decide)
          rw [getTotalItemsLoop]
          refine hread.bind ?_
          rintro r s1 ⟨rfl, -⟩
          have hzero : byteAt (slice (diskByte image) (rootPos image + j * 32)
              SIZEOF_FAT_DIRECTORY_ITEM) 0 = 0x00 := hends.terminator
          dsimp only
          rw [if_neg (by decide), if_pos hzero]
          exact total_pure.mpr (by simp)
  | succ k ih =>
      intro j fuel i s hdrive hst hends hfuel
      cases fuel with
      | zero => omega
      | succ fuel =>
          have hin := hends.inside
          have hrange' := hrange
          unfold RootInRange at hrange'
          rw [SIZEOF_FAT_DIRECTORY_ITEM] at hrange' hst
          have hread := diskstreamerRead_moves (n := SIZEOF_FAT_DIRECTORY_ITEM) hdrive hst (by omega)
            (by rw [SIZEOF_FAT_DIRECTORY_ITEM]; omega) (by decide)
          rw [getTotalItemsLoop]
          refine (hread.keeps (moved_rules.diskstreamerRead stream _)).bind ?_
          rintro r s1 ⟨⟨rfl, hst1⟩, hmoved⟩
          have hne : byteAt (slice (diskByte image) (rootPos image + j * 32)
              SIZEOF_FAT_DIRECTORY_ITEM) 0 ≠ 0x00 := hends.before j (by omega)
          dsimp only
          rw [if_neg (by decide), if_neg hne]
          -- the stream stands at the next slot
          have hdrive1 : HoldsImage s1 image := by
            intro requests sector
            rw [show s1.drive = s.drive from congrArg Statics.drive hmoved.statics]
            exact hdrive requests sector
          have hnext : wrap ((rootPos image + j * 32 + SIZEOF_FAT_DIRECTORY_ITEM : Nat) : Int)
              = (rootPos image + (j + 1) * SIZEOF_FAT_DIRECTORY_ITEM : Nat) := by
            rw [SIZEOF_FAT_DIRECTORY_ITEM, wrap_of_range (by omega) (by omega)]
            omega
          rw [hnext] at hst1
          have hends1 : RootEnds image (j + 1 + k) := by
            rw [Nat.add_right_comm, Nat.add_assoc]
            exact hends
          rw [List.range'_succ, List.countP_cons]
          by_cases hdel : byteAt (slice (diskByte image) (rootPos image + j * 32)
              SIZEOF_FAT_DIRECTORY_ITEM) 0 = 0xE5
          · have hunused : ¬ InUse (rootSlot image j) := not_not.mpr hdel
            rw [if_pos hdel, if_neg (by simpa using hunused), Nat.add_zero]
            exact ih (j + 1) fuel i s1 hdrive1 hst1 hends1 (by omega)
          · have hused : InUse (rootSlot image j) := hdel
            rw [if_neg hdel, if_pos (by simpa using hused)]
            refine (ih (j + 1) fuel (i + 1) s1 hdrive1 hst1 hends1 (by omega)).mono ?_
            rintro r _ rfl
            push_cast
            ring

/-- The private data are there, and their directory stream. -/
structure RootReady (s : Kernel) (image : Nat → Sector) (priv : FatPrivate) : Prop where
  wf : s.WF
  drive : HoldsImage s image
  private_data : s.live s.disk.fs_private = some (fatPrivateK.inj priv)
  stream : ∃ st, s.live priv.directory_stream = some (diskStreamK.inj st)
  header : priv.header = bootHeader image

/-- Reading the volume and allocating leave the private data and the stream. -/
theorem RootReady.grown {s s' : Kernel} (h : RootReady s image priv) (hgrown : Grown s s') :
    RootReady s' image priv := by
  obtain ⟨st, hst⟩ := h.stream
  refine ⟨hgrown.wf, fun requests sector => ?_, ?_, hgrown.stream _ st hst, h.header⟩
  · rw [show s'.drive = s.drive from congrArg Statics.drive hgrown.statics]
    exact h.drive requests sector
  · rw [show s'.disk = s.disk from congrArg Statics.disk hgrown.statics]
    exact hgrown.object _ _ h.private_data fun _ heq => Obj.noConfusion heq

/-- The sector number of the root directory, as the code computes it. -/
theorem RootReady.sector {s : Kernel} (h : RootReady s image priv) :
    (priv.header.fat_copies.toNat : Int) * priv.header.sectors_per_fat.toNat +
      priv.header.reserved_sectors.toNat = (rootSector (bootHeader image) : Nat) := by
  rw [h.header, rootSector]
  push_cast
  rfl

/-- `fat16_get_total_items_for_directory` of the root directory. -/
theorem fat16GetTotalItems_root {s : Kernel} (h : RootReady s image priv) (hrange : RootInRange image)
    {n : Nat} (hends : RootEnds image n) :
    Total (fat16GetTotalItemsForDirectory
      (UInt32.ofInt (rootSector (bootHeader image) : Nat))) s fun r _ => r = liveCount image n := by
  have hin := hends.inside
  have hentries : rootEntries image < 2 ^ 16 := (bootHeader image).root_dir_entries.toNat_lt
  unfold RootInRange rootPos at hrange
  rw [SIZEOF_FAT_DIRECTORY_ITEM, RASOS_SECTOR_SIZE] at hrange
  have hpos : signed (UInt32.ofInt (rootSector (bootHeader image) : Nat) * 512)
      = (rootPos image + 0 * SIZEOF_FAT_DIRECTORY_ITEM : Nat) := by
    have hnat : (UInt32.ofInt (rootSector (bootHeader image) : Nat) * 512).toNat
        = rootSector (bootHeader image) * 512 := by
      rw [UInt32.toNat_mul, toNat_ofInt_of_range (by omega) (by omega),
        show (512 : UInt32).toNat = 512 from rfl]
      omega
    rw [signed_of_lt (by omega), hnat, rootPos, RASOS_SECTOR_SIZE, Nat.zero_mul, Nat.add_zero]
  have hprivate : HasPrivate s priv := h.private_data
  have hseek := diskstreamerSeek_spec (rootPos image + 0 * SIZEOF_FAT_DIRECTORY_ITEM : Nat) h.stream
  rw [fat16GetTotalItemsForDirectory, total_bind_of_some hprivate.fsPrivate]
  dsimp only
  rw [hpos, total_bind_of_some hseek, if_neg (by decide)]
  refine (getTotalItemsLoop_spec priv.directory_stream hrange n 0 (2 ^ 27) 0 _ ?_ ?_ ?_
    (by omega)).mono ?_
  · exact h.drive
  · exact Kind.write_self ..
  · rw [Nat.zero_add]
    exact hends
  · rintro r _ rfl
    rw [liveCount, List.range_eq_range', zero_add]

/-- The root directory is in memory. -/
structure RootLoaded (s : Kernel) (image : Nat → Sector) (n : Nat) (directory : FatDirectory) : Prop where
  wf : s.WF
  items : s.live directory.item = some (dirItemsK.inj (rootItems image))
  total : directory.total = liveCount image n

/-- **`fat16_get_root_directory` loads the slots and counts those in use.** -/
theorem fat16GetRootDirectory_loads {s : Kernel} (h : RootReady s image priv)
    (hrange : RootInRange image) {n : Nat} (hends : RootEnds image n) :
    Ensures (fat16GetRootDirectory s.disk.fs_private) s fun res s' => res = OK →
      ∃ priv', s'.live s.disk.fs_private = some (fatPrivateK.inj priv') ∧
        RootLoaded s' image n priv'.root_directory := by
  have hentries : rootEntries image < 2 ^ 16 := (bootHeader image).root_dir_entries.toNat_lt
  have hrange' := hrange
  unfold RootInRange at hrange'
  rw [SIZEOF_FAT_DIRECTORY_ITEM] at hrange'
  have hin := hends.inside
  have hlt : rootPos image < 2 ^ 31 := by omega
  have hsize : (priv.header.root_dir_entries.toNat : Int) * SIZEOF_FAT_DIRECTORY_ITEM
      = (rootEntries image * SIZEOF_FAT_DIRECTORY_ITEM : Nat) := by
    rw [h.header, rootEntries]
    push_cast
    rfl
  unfold fat16GetRootDirectory
  refine ensures_load fun priv' hpriv' => ?_
  rw [h.private_data] at hpriv'
  obtain rfl := fatPrivateK.inj_injective (Option.some.inj hpriv')
  dsimp only
  rw [h.sector, hsize]
  -- the count
  refine Ensures.bind ((fat16GetTotalItems_root h hrange hends).keeps
    (moved_rules.fat16GetTotalItemsForDirectory _)).ensures ?_
  rintro total s1 ⟨rfl, hmoved⟩
  have h1 : Grown s s1 := hmoved.grown h.wf
  refine h1.ensures_kzalloc fun dir s2 h2 _ hdir => ?_
  refine Ensures.ite (fun _ => Ensures.pure fun h => absurd h (by decide)) fun hne => ?_
  have hfree : s.live dir = none := h1.fresh (hdir hne).1
  -- the slots
  have hready2 := h.grown h2
  have hpos : wrap ((rootSector (bootHeader image) : Nat) * (RASOS_SECTOR_SIZE : Nat) : Int)
      = (rootPos image : Nat) := by
    rw [← Nat.cast_mul]
    exact wrap_of_range (i := (rootPos image : Nat)) (by omega) (by omega)
  rw [hpos]
  have hseek := diskstreamerSeek_spec (rootPos image : Nat) hready2.stream
  refine Ensures.bind (Q := fun res s3 => Moved s2 s3 ∧
    s3.live priv.directory_stream = some (diskStreamK.inj ⟨(rootPos image : Nat)⟩)) ?_ ?_
  · intro res s3 hrun
    refine ⟨moved_rules.diskstreamerSeek _ _ _ _ _ hrun, ?_⟩
    rw [hseek] at hrun
    rw [← (Prod.mk.inj (Option.some.inj hrun)).2]
    exact Kind.write_self ..
  rintro res s3 ⟨hmoved3, hst3⟩
  have h3 : Grown s s3 := h2.trans (hmoved3.grown h2.wf)
  refine Ensures.ite (fun _ => Ensures.pure fun h => absurd h (by decide)) fun _ => ?_
  have hread := diskstreamerRead_spec (n := rootEntries image * SIZEOF_FAT_DIRECTORY_ITEM)
    (h.grown h3).drive hst3 hlt (by rw [SIZEOF_FAT_DIRECTORY_ITEM]; omega)
    (by rw [SIZEOF_FAT_DIRECTORY_ITEM]; omega)
  refine Ensures.bind (hread.keeps (moved_rules.diskstreamerRead _ _)).ensures ?_
  rintro r s4 ⟨rfl, hmoved4⟩
  have h4 : Grown s s4 := h3.trans (hmoved4.grown h3.wf)
  have hfull : slice (diskByte image) (rootPos image) (rootEntries image * SIZEOF_FAT_DIRECTORY_ITEM) ++
      List.replicate (((rootEntries image * SIZEOF_FAT_DIRECTORY_ITEM : Nat) : Int).toNat -
        (slice (diskByte image) (rootPos image)
          (rootEntries image * SIZEOF_FAT_DIRECTORY_ITEM)).length) 0 = rootItems image := by
    rw [slice_length, Int.toNat_natCast, Nat.sub_self, List.replicate_zero, List.append_nil, rootItems]
  dsimp only
  rw [hfull]
  refine ensures_store fun old hold => ?_
  have h5 := h4.write (k := dirItemsK) hfree hold (rootItems image)
  refine Ensures.ite (fun _ => Ensures.pure fun h => absurd h (by decide)) fun _ => ?_
  refine ensures_load fun priv5 hpriv5 => ensures_store fun _ _ => Ensures.pure fun _ => ?_
  refine ⟨_, Kind.write_self .., h5.wf.write hpriv5 _, ?_, rfl⟩
  have hother : dir ≠ s.disk.fs_private := by
    rintro rfl
    rw [h.private_data] at hfree
    cases hfree
  exact (Kind.write_of_ne _ _ _ hother).trans (Kind.write_self ..)

/-! ## Names -/

/-- Slot `j` is an entry in front of the terminator, in use, with the name `name`. -/
def LiveEntry (image : Nat → Sector) (n : Nat) (name : List UInt8) (j : Nat) : Prop :=
  j < n ∧ InUse (rootSlot image j) ∧ SameName (shortName (rootSlot image j)) name

instance (n : Nat) (name : List UInt8) (j : Nat) : Decidable (LiveEntry image n name j) :=
  inferInstanceAs (Decidable (_ ∧ _ ∧ _))

/-- The name the code puts together for slot `i` of an array of slots, when it fits its buffer. -/
def assembledName (items : List UInt8) (i : Nat) : Option (List UInt8) :=
  combineFilenameAndExt (items.drop (i * SIZEOF_FAT_DIRECTORY_ITEM)) RASOS_PATH_MAX_LEN

/-- The code takes slot `i` for the name. -/
def Taken (items name : List UInt8) (i : Nat) : Bool :=
  (assembledName items i).any fun assembled => istrncmp assembled name RASOS_PATH_MAX_LEN = 0

/-- The slots that a scan of `remaining` slots from `i` on takes for the name. -/
def takenSlots (items name : List UInt8) (i remaining : Nat) : List Nat :=
  (List.range' i remaining).filter (Taken items name)

/-! ## The scan -/

/-- Make the items of some entries, one after the other; the last one counts. -/
def newItems : List (List UInt8) → UInt32 → KernelM UInt32
  | [], f_item => return f_item
  | entry :: entries, _ => do
      let f_item ← fat16NewFatItemForDirectoryItem entry
      newItems entries f_item

/-- The entry in slot `i` of an array of slots. -/
def entryAt (items : List UInt8) (i : Nat) : List UInt8 :=
  (items.drop (i * SIZEOF_FAT_DIRECTORY_ITEM)).take SIZEOF_FAT_DIRECTORY_ITEM

/-- **The scan makes the items of the slots it takes for the name**, as long as every name fits. By
induction on the slots left to scan. -/
theorem total_findItemLoop {directory : FatDirectory} {items name : List UInt8}
    {Q : UInt32 → Kernel → Prop} :
    ∀ (remaining i : Nat) (f_item : UInt32) (s : Kernel), s.WF →
      s.live directory.item = some (dirItemsK.inj items) →
      (Total (findItemLoop directory name remaining i f_item) s Q ↔
        (∀ j, i ≤ j → j < i + remaining → assembledName items j ≠ none) ∧
          Total (newItems ((takenSlots items name i remaining).map (entryAt items)) f_item) s Q) := by
  intro remaining
  induction remaining with
  | zero =>
      intro i f_item s _ _
      refine (and_iff_right fun j h1 h2 => ?_).symm
      omega
  | succ remaining ih =>
      intro i f_item s hwf hlive
      have hsplit : (∀ j, i ≤ j → j < i + (remaining + 1) → assembledName items j ≠ none) ↔
          assembledName items i ≠ none ∧
            ∀ j, i + 1 ≤ j → j < i + 1 + remaining → assembledName items j ≠ none := by
        constructor
        · intro h
          exact ⟨h i (Nat.le_refl i) (by omega), fun j h1 h2 => h j (by omega) (by omega)⟩
        · rintro ⟨h0, h⟩ j h1 h2
          by_cases hji : j = i
          · rw [hji]
            exact h0
          · exact h j (by omega) (by omega)
      rw [findItemLoop, total_load hlive, hsplit]
      dsimp only
      cases hname : assembledName items i with
      | none =>
          have hcode : combineFilenameAndExt (items.drop (i * SIZEOF_FAT_DIRECTORY_ITEM))
              RASOS_PATH_MAX_LEN = none := hname
          rw [hcode]
          exact iff_of_false not_total_stop fun h => h.1.1 rfl
      | some assembled =>
          have hcode : combineFilenameAndExt (items.drop (i * SIZEOF_FAT_DIRECTORY_ITEM))
              RASOS_PATH_MAX_LEN = some assembled := hname
          rw [hcode, and_iff_right (Option.some_ne_none assembled)]
          dsimp only
          by_cases hcmp : istrncmp assembled name RASOS_PATH_MAX_LEN = 0
          · have htaken : Taken items name i = true := by
              rw [Taken, hname, Option.any_some]
              exact decide_eq_true hcmp
            have hslots : takenSlots items name i (remaining + 1)
                = i :: takenSlots items name (i + 1) remaining := by
              rw [takenSlots, List.range'_succ, List.filter_cons_of_pos htaken, takenSlots]
            rw [if_pos hcmp, hslots, List.map_cons, newItems, total_bind, total_bind]
            -- the items made leave the slots alone
            have hafter : ∀ f_item s1,
                fat16NewFatItemForDirectoryItem (entryAt items i) s = some (f_item, s1) →
                (Total (findItemLoop directory name remaining (i + 1) f_item) s1 Q ↔
                  (∀ j, i + 1 ≤ j → j < i + 1 + remaining → assembledName items j ≠ none) ∧
                    Total (newItems ((takenSlots items name (i + 1) remaining).map (entryAt items))
                      f_item) s1 Q) := by
              intro f_item s1 hrun
              obtain ⟨hgrown, -⟩ := fat16NewFatItemForDirectoryItem_spec _ hwf _ _ hrun
              exact ih (i + 1) f_item s1 hgrown.wf
                (hgrown.object _ _ hlive fun _ heq => Obj.noConfusion heq)
            refine (total_congr hafter).trans ?_
            constructor
            · rintro ⟨f_item, s1, hrun, hnames, hrest⟩
              exact ⟨hnames, f_item, s1, hrun, hrest⟩
            · rintro ⟨hnames, f_item, s1, hrun, hrest⟩
              exact ⟨f_item, s1, hrun, hnames, hrest⟩
          · have htaken : ¬ Taken items name i = true := by
              rw [Taken, hname, Option.any_some]
              exact fun h => hcmp (of_decide_eq_true h)
            have hslots : takenSlots items name i (remaining + 1)
                = takenSlots items name (i + 1) remaining := by
              rw [takenSlots, List.range'_succ, List.filter_cons_of_neg htaken, takenSlots]
            rw [if_neg hcmp, hslots]
            exact ih (i + 1) f_item s hwf hlive

/-! ## What is found -/

/-- The item stands for the entry: for a file it holds a copy of it. -/
def Describes (s : Kernel) (item : UInt32) (entry : List UInt8) : Prop :=
  ∃ it, s.live item = some (fatItemK.inj it) ∧
    if itemIsSubdirectory entry then it.type = FAT_ITEM_TYPE_DIRECTORY
    else it.type = FAT_ITEM_TYPE_FILE ∧ s.live it.item = some (dirItemsK.inj entry)

/-- An item for one of the entries is an item for the other. -/
def SameItem (entry entry' : List UInt8) : Prop :=
  if itemIsSubdirectory entry' then itemIsSubdirectory entry = true else entry = entry'

/-- An item made for the entry, which may lack the copy of it. -/
def MadeFor (s : Kernel) (item : UInt32) (entry : List UInt8) : Prop :=
  ∃ it, s.live item = some (fatItemK.inj it) ∧
    if itemIsSubdirectory entry then it.type = FAT_ITEM_TYPE_DIRECTORY
    else it.type = FAT_ITEM_TYPE_FILE ∧ (it.item = 0 ∨ s.live it.item = some (dirItemsK.inj entry))

theorem Describes.same {s : Kernel} {item : UInt32} {entry entry' : List UInt8}
    (h : Describes s item entry) (hsame : SameItem entry entry') : Describes s item entry' := by
  obtain ⟨it, hit, hpayload⟩ := h
  refine ⟨it, hit, ?_⟩
  unfold SameItem at hsame
  split at hsame
  · rename_i hsub
    rw [if_pos hsame] at hpayload
    rw [if_pos hsub]
    exact hpayload
  · rw [← hsame]
    exact hpayload

/-- What an item made for one entry describes is that entry. -/
theorem MadeFor.describes {s : Kernel} (hwf : s.WF) {item : UInt32} {entry entry' : List UInt8}
    (hmade : MadeFor s item entry) (h : Describes s item entry') :
    Describes s item entry ∧ SameItem entry entry' := by
  obtain ⟨it, hit, hmade⟩ := hmade
  obtain ⟨it', hit', hpayload⟩ := h
  rw [hit] at hit'
  obtain rfl := fatItemK.inj_injective (Option.some.inj hit')
  unfold Describes SameItem
  by_cases hsub' : itemIsSubdirectory entry' = true
  · rw [if_pos hsub'] at hpayload
    rw [if_pos hsub']
    by_cases hsub : itemIsSubdirectory entry = true
    · exact ⟨⟨it, hit, by rw [if_pos hsub]; exact hpayload⟩, hsub⟩
    · rw [if_neg hsub] at hmade
      rw [hpayload] at hmade
      exact absurd hmade.1 (by decide)
  · rw [if_neg hsub'] at hpayload
    rw [if_neg hsub']
    by_cases hsub : itemIsSubdirectory entry = true
    · rw [if_pos hsub, hpayload.1] at hmade
      exact absurd hmade (by decide)
    · rw [if_neg hsub] at hmade
      rcases hmade.2 with h0 | hcopy
      · have hnone := hpayload.2
        rw [h0, hwf.live_zero] at hnone
        cases hnone
      · refine ⟨⟨it, hit, by rw [if_neg hsub]; exact ⟨hmade.1, hcopy⟩⟩, ?_⟩
        rw [hcopy] at hpayload
        exact dirItemsK.inj_injective (Option.some.inj hpayload.2)

/-- The last item made is one for the last entry. -/
theorem newItems_new (entries : List (List UInt8)) (entry : List UInt8) :
    ∀ (f_item : UInt32) (s : Kernel), s.WF →
      Ensures (newItems (entries ++ [entry]) f_item) s fun item s' =>
        Grown s s' ∧ NewItem s entry item s' := by
  induction entries with
  | nil =>
      intro f_item s hwf
      refine Ensures.bind (fat16NewFatItemForDirectoryItem_spec entry hwf) ?_
      exact fun item s1 hitem => Ensures.pure hitem
  | cons first entries ih =>
      intro f_item s hwf
      refine Ensures.bind (fat16NewFatItemForDirectoryItem_spec first hwf) ?_
      rintro item s1 ⟨hgrown, -⟩
      refine (ih item s1 hgrown.wf).mono ?_
      rintro item' s' ⟨hgrown', hnew⟩
      exact ⟨hgrown.trans hgrown', hnew.earlier hgrown⟩

theorem NewItem.madeFor {s s' : Kernel} {entry : List UInt8} {item : UInt32}
    (h : NewItem s entry item s') (hne : item ≠ 0) : MadeFor s' item entry := by
  rcases h with h0 | ⟨-, it, hit, hpayload⟩
  · exact absurd h0 hne
  refine ⟨it, hit, ?_⟩
  unfold NewPayload at hpayload
  by_cases hsub : itemIsSubdirectory entry = true
  · rw [if_pos hsub] at hpayload ⊢
    exact hpayload.1
  · rw [if_neg hsub] at hpayload ⊢
    exact ⟨hpayload.1, hpayload.2.imp id And.right⟩

/-- **What the search returns** is null or a new item. -/
theorem fat16FindItemInDirectory_new (directory : FatDirectory) (name : List UInt8) {s : Kernel}
    (hwf : s.WF) : Ensures (fat16FindItemInDirectory directory name) s fun item s' =>
      Grown s s' ∧ ∃ entry, NewItem s entry item s' := by
  intro item s' hrun
  have hnull : Grown s s ∧ ∃ entry, NewItem s entry 0 s := ⟨Grown.refl hwf, [], Or.inl rfl⟩
  rw [fat16FindItemInDirectory] at hrun
  generalize directory.total.toNat = total at hrun
  cases total with
  | zero =>
      obtain ⟨rfl, rfl⟩ := pure_eq_some.mp hrun
      exact hnull
  | succ total =>
      obtain ⟨items, hitems⟩ : ∃ items, s.live directory.item = some (dirItemsK.inj items) := by
        obtain ⟨items, _, hload, -⟩ := bind_eq_some.mp hrun
        exact ⟨items, (load_eq_some.mp hload).1⟩
      obtain ⟨-, hmade⟩ := (total_findItemLoop (Q := fun r t => r = item ∧ t = s') (total + 1) 0 0 s hwf
        hitems).mp ⟨item, s', hrun, rfl, rfl⟩
      obtain ⟨_, _, hrun', rfl, rfl⟩ := hmade
      rcases List.eq_nil_or_concat (takenSlots items name 0 (total + 1)) with hnil | ⟨front, last, hlast⟩
      · rw [hnil] at hrun'
        obtain ⟨rfl, rfl⟩ := pure_eq_some.mp hrun'
        exact hnull
      · rw [List.concat_eq_append] at hlast
        rw [hlast, List.map_append, List.map_singleton] at hrun'
        obtain ⟨hgrown, hnew⟩ := newItems_new _ _ _ _ hwf _ _ hrun'
        exact ⟨hgrown, _, hnew⟩

/-- The entry in a slot of an array of slots. -/
theorem entryAt_slice (f : Nat → UInt8) (p : Nat) {i n : Nat} (hi : i < n) :
    entryAt (slice f p (n * SIZEOF_FAT_DIRECTORY_ITEM)) i
      = slice f (p + i * SIZEOF_FAT_DIRECTORY_ITEM) SIZEOF_FAT_DIRECTORY_ITEM := by
  have hsplit := slice_append f p (i * SIZEOF_FAT_DIRECTORY_ITEM) ((n - i) * SIZEOF_FAT_DIRECTORY_ITEM)
  rw [← Nat.add_mul, Nat.add_sub_cancel' (Nat.le_of_lt hi)] at hsplit
  have hle : SIZEOF_FAT_DIRECTORY_ITEM ≤ (n - i) * SIZEOF_FAT_DIRECTORY_ITEM :=
    Nat.le_mul_of_pos_left _ (by omega)
  rw [entryAt, ← hsplit, List.drop_left' (slice_length ..), slice_take _ _ hle]

theorem entryAt_root {i : Nat} (hi : i < rootEntries image) :
    entryAt (rootItems image) i = rootSlot image i :=
  entryAt_slice _ _ hi

/-! ## A volume with some slots -/

/-- The volume with one file, but with these slots in its root directory. -/
def slotsImage (slots : List UInt8) : Nat → Sector := fun sector =>
  if sector = 2 then fun i => slots.getD i 0
  else oneFileImage 600 (fun _ => 0) (fun _ _ => 0) sector

def slotsKernel (slots : List UInt8) : Kernel :=
  { oneFileKernel 600 (fun _ => 0) (fun _ _ => 0) 0 with
    drive := fun _ sector => some (slotsImage slots sector) }

theorem slotsImage_header (slots : List UInt8) :
    bootHeader (slotsImage slots) = oneFilePrivate.header := by
  have hboot : slotsImage slots 0 = oneFileImage 600 (fun _ => 0) (fun _ _ => 0) 0 :=
    if_neg (by decide)
  have hslice : slice (diskByte (slotsImage slots)) 0 SIZEOF_FAT_H
      = slice (diskByte (oneFileImage 600 (fun _ => 0) fun _ _ => 0)) 0 SIZEOF_FAT_H := by
    apply slice_congr
    intro i hi
    rw [SIZEOF_FAT_H] at hi
    have hdiv : (0 + i) / 512 = 0 := by omega
    rw [diskByte, diskByte, hdiv, hboot]
  rw [← oneFile_header 600 (fun _ => 0) fun _ _ => 0, bootHeader, bootHeader, hslice]

theorem slotsKernel_ready (slots : List UInt8) :
    RootReady (slotsKernel slots) (slotsImage slots) oneFilePrivate := by
  have hlive : ∀ block, block < 25600 →
      (slotsKernel slots).live (blockAddress block) = oneFileObject 600 0 block := by
    intro block hblock
    show (oneFileKernel 600 (fun _ => 0) (fun _ _ => 0) 0).live (blockAddress block) = _
    exact oneFileKernel_live hblock
  have hwf : (oneFileKernel 600 (fun _ => 0) (fun _ _ => 0) 0).WF := oneFileKernel_wf (by decide)
  refine ⟨hwf.of_live rfl fun _ o ho => ⟨o, ho⟩, fun _ _ => rfl, ?_, ⟨{}, ?_⟩,
    (slotsImage_header slots).symm⟩
  · exact hlive 0 (by decide)
  · exact hlive 3 (by decide)

instance (image : Nat → Sector) (n : Nat) : Decidable (RootEnds image n) :=
  decidable_of_iff (n < rootEntries image ∧ byteAt (rootSlot image n) 0 = 0x00 ∧
    ∀ i, i < n → byteAt (rootSlot image i) 0 ≠ 0x00)
    ⟨fun ⟨h1, h2, h3⟩ => ⟨h1, h2, h3⟩, fun h => ⟨h.inside, h.terminator, h.before⟩⟩

end RasOS
