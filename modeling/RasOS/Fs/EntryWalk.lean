import RasOS.Fs.Tree

set_option autoImplicit false

/-! # Which entry a path leads to

A path names an entry when each part but the last names a subdirectory, in the directory that the parts
before it lead to, and the last one names an entry there. `fat16_get_directory_entry` looks the parts up
one after another; it asks whether the item it has reached is a directory, but not whether there is one.
-/

namespace RasOS

open Machine Traced

variable {image : Nat → Sector} {priv : FatPrivate}

/-! ## What a path names -/

/-- A directory on the disk: its slots, and how many there are in front of the terminator. -/
structure DiskDirectory where
  slots : Nat → List UInt8
  count : Nat

/-- The directory has a live entry of the name. -/
def DiskDirectory.Has (D : DiskDirectory) (name entry : List UInt8) : Prop :=
  ∃ j, j < D.count ∧ InUse (D.slots j) ∧ SameName (shortName (D.slots j)) name ∧ D.slots j = entry

/-- The root directory, with its terminator in slot `n`. -/
def rootOnDisk (image : Nat → Sector) (n : Nat) : DiskDirectory := ⟨rootSlot image, n⟩

/-- The entry is that of a subdirectory. -/
inductive LeadsTo (image : Nat → Sector) (entry : List UInt8) : DiskDirectory → Prop
  | intro (n : Nat) (hsub : itemIsSubdirectory entry = true)
      (hchain : ChainDirectory image (firstCluster entry) n) :
      LeadsTo image entry ⟨chainSlot image (firstCluster entry), n⟩

/-- The names lead from the directory to the entry. -/
inductive Names (image : Nat → Sector) : DiskDirectory → List (List UInt8) → List UInt8 → Prop
  | last (D : DiskDirectory) (name entry : List UInt8) (h : D.Has name entry) : Names image D [name] entry
  | down (D D' : DiskDirectory) (name e : List UInt8) (names : List (List UInt8)) (entry : List UInt8)
      (h : D.Has name e) (hleads : LeadsTo image e D') (hrest : Names image D' names entry) :
      Names image D (name :: names) entry

/-- The names lead from one entry to another. -/
def Follows (image : Nat → Sector) (e : List UInt8) (names : List (List UInt8)) (entry : List UInt8) : Prop :=
  names = [] ∧ e = entry ∨ ∃ D, LeadsTo image e D ∧ Names image D names entry

theorem ChainDirectory.unique {first n n' : Nat} (h : ChainDirectory image first n)
    (h' : ChainDirectory image first n') : n = n' := by
  rcases Nat.lt_trichotomy n n' with hlt | heq | hlt
  · exact absurd h.terminator (h'.before n hlt)
  · exact heq
  · exact absurd h'.terminator (h.before n' hlt)

theorem LeadsTo.unique {e : List UInt8} {D D' : DiskDirectory} (h : LeadsTo image e D)
    (h' : LeadsTo image e D') : D = D' := by
  obtain ⟨n, -, hchain⟩ := h
  obtain ⟨n', -, hchain'⟩ := h'
  rw [hchain.unique hchain']

theorem LeadsTo.subdirectory {e : List UInt8} {D : DiskDirectory} (h : LeadsTo image e D) :
    itemIsSubdirectory e = true := by
  obtain ⟨n, hsub, -⟩ := h
  exact hsub

theorem names_cons_iff {D : DiskDirectory} {name entry : List UInt8} {names : List (List UInt8)} :
    Names image D (name :: names) entry ↔ ∃ e, D.Has name e ∧ Follows image e names entry := by
  constructor
  · intro h
    cases h with
    | last _ _ _ h => exact ⟨entry, h, Or.inl ⟨rfl, rfl⟩⟩
    | down _ D' _ e _ _ h hleads hrest => exact ⟨e, h, Or.inr ⟨D', hleads, hrest⟩⟩
  · rintro ⟨e, h, ⟨rfl, rfl⟩ | ⟨D', hleads, hrest⟩⟩
    · exact .last D name e h
    · exact .down D D' name e names entry h hleads hrest

/-! ## When the lookups are right -/

/-- The scan of the listing finds a live entry of the name, the only one if more names follow; and it
finds one when the directory has one. -/
structure LookupRight (D : DiskDirectory) (L : Listing) (name : List UInt8) (names : List (List UInt8)) :
    Prop where
  has : ∀ e, L.found name = some e → D.Has name e
  only : names ≠ [] → ∀ e, L.found name = some e → ∀ e', D.Has name e' → e' = e
  missing : L.found name = none → ∀ e, ¬ D.Has name e

/-- From the entry on every name is looked up right. -/
def OnwardRight (image : Nat → Sector) : List UInt8 → List (List UInt8) → Prop
  | _, [] => True
  | e, name :: names => itemIsSubdirectory e = true → ∃ D L, LeadsTo image e D ∧ Enters image e L ∧
      LookupRight D L name names ∧ ∀ next, L.found name = some next → OnwardRight image next names

/-- From the directory on every name is looked up right. -/
def NamesRightFrom (image : Nat → Sector) (D : DiskDirectory) (L : Listing) : List (List UInt8) → Prop
  | [] => True
  | name :: names => LookupRight D L name names ∧
      ∀ next, L.found name = some next → OnwardRight image next names

/-- What the end of a walk says about what is named. -/
def WalkEnd.Tells (out : WalkEnd) (named : List UInt8 → Prop) : Prop :=
  match out with
  | .entry e => named e
  | _ => ∀ e, ¬ named e

/-- A name that is looked up right tells what the walk from what is found tells. -/
theorem LookupRight.tells {D : DiskDirectory} {L : Listing} {name next : List UInt8}
    {names : List (List UInt8)} {out : WalkEnd} (h : LookupRight D L name names) (hfound : L.found name = some next)
    (hrest : out.Tells (Follows image next names)) (hout : names = [] → out = .entry next) :
    out.Tells (Names image D (name :: names)) := by
  cases out with
  | entry e => exact names_cons_iff.mpr ⟨next, h.has next hfound, hrest⟩
  | null =>
      rintro entry hnames
      obtain ⟨e, he, hfollows⟩ := names_cons_iff.mp hnames
      by_cases hnil : names = []
      · cases hout hnil
      · exact hrest entry (h.only hnil next hfound e he ▸ hfollows)
  | astray =>
      rintro entry hnames
      obtain ⟨e, he, hfollows⟩ := names_cons_iff.mp hnames
      by_cases hnil : names = []
      · cases hout hnil
      · exact hrest entry (h.only hnil next hfound e he ▸ hfollows)

theorem LookupRight.tells_missing {D : DiskDirectory} {L : Listing} {name : List UInt8}
    {names : List (List UInt8)} (h : LookupRight D L name names) (hfound : L.found name = none)
    (entry : List UInt8) : ¬ Names image D (name :: names) entry := by
  intro hnames
  obtain ⟨e, he, -⟩ := names_cons_iff.mp hnames
  exact h.missing hfound e he

/-- After the last name a walk is at its entry. -/
theorem Onward.nil {e : List UInt8} {cost : Nat} {out : WalkEnd} (h : Onward image e [] cost out) :
    out = .entry e := by
  cases h
  rfl

/-- **A walk whose lookups are right ends at the entry that is named**, if one is. By induction on the
walk. -/
theorem onward_tells {e : List UInt8} {names : List (List UInt8)} {cost : Nat} {out : WalkEnd}
    (hwalk : Onward image e names cost out) (hright : OnwardRight image e names) :
    out.Tells (Follows image e names) := by
  induction hwalk with
  | here e => exact Or.inl ⟨rfl, rfl⟩
  | file e name names hfile =>
      rintro entry (⟨hnil, -⟩ | ⟨D, hleads, -⟩)
      · cases hnil
      · rw [hleads.subdirectory] at hfile
        cases hfile
  | missing e name names L cost henters hsearch hfound =>
      obtain ⟨D, L', hleads, henters', hlookup, -⟩ := hright henters.subdirectory
      obtain rfl := henters'.unique henters
      have hnone : ∀ entry, ¬ Follows image e (name :: names) entry := by
        rintro entry (⟨hnil, -⟩ | ⟨D', hleads', hnames⟩)
        · cases hnil
        · obtain rfl := hleads'.unique hleads
          exact hlookup.tells_missing hfound entry hnames
      split
      · exact hnone
      · exact hnone
  | down e name names L cost next rest out henters hsearch hfound hrest ih =>
      -- the directory that is named is the one that is searched
      obtain ⟨D, L', hleads, henters', hlookup, hnext⟩ := hright henters.subdirectory
      obtain rfl := henters'.unique henters
      have htells := hlookup.tells hfound (ih (hnext next hfound)) (by
        rintro rfl
        exact hrest.nil)
      cases out with
      | entry entry => exact Or.inr ⟨D, hleads, htells⟩
      | null =>
          rintro entry (⟨hnil, -⟩ | ⟨D', hleads', hnames⟩)
          · cases hnil
          · exact htells entry (hleads'.unique hleads ▸ hnames)
      | astray =>
          rintro entry (⟨hnil, -⟩ | ⟨D', hleads', hnames⟩)
          · cases hnil
          · exact htells entry (hleads'.unique hleads ▸ hnames)

theorem walkFrom_tells {D : DiskDirectory} {L : Listing} {names : List (List UInt8)} {cost : Nat} {out : WalkEnd}
    (hwalk : WalkFrom image L names cost out) (hright : NamesRightFrom image D L names) :
    out.Tells (Names image D names) := by
  cases hwalk with
  | missing name names cost hsearch hfound => exact hright.1.tells_missing hfound
  | down name names cost next rest out hsearch hfound hrest =>
      refine hright.1.tells hfound (onward_tells hrest (hright.2 next hfound)) ?_
      rintro rfl
      exact hrest.nil

/-! ## The walk -/

/-- A path the parser has made: the parts of these names, no more than a path has bytes. -/
structure ParsedPath (s : Kernel) (path : UInt32) (names : List (List UInt8)) : Prop where
  chain : PathChain s path names
  short : names.length ≤ RASOS_PATH_MAX_LEN

/-- Every path that is parsed is one. -/
theorem ParsedPath.of_parse {s s' : Kernel} (hwf : s.WF) {path : List UInt8} {r : UInt32} {root : PathRoot}
    (hrun : pathparserParse path s = some (r, s')) (hroot : s'.live r = some (pathRootK.inj root)) :
    s'.WF ∧ ParsedPath s' root.first ((partsOf (path.drop 3)).take ((freeCount s.heap - 1) / 2)) := by
  obtain ⟨hwf', hspec⟩ := (total_of_some hrun).mp (pathparserParse_spec hwf path)
  split at hspec
  · rename_i hparts
    obtain ⟨root', hroot', -, hchain⟩ := hspec
    rw [hroot] at hroot'
    obtain rfl := pathRootK.inj_injective (Option.some.inj hroot')
    have hlen := (isValidPath_eq_true.mp hparts.1).1
    have hle := partsOf_length_le _ _ (Nat.le_refl (path.drop 3).length)
    rw [List.length_drop] at hle
    refine ⟨hwf', hchain, ?_⟩
    rw [List.length_take]
    omega
  · exact absurd hspec (hwf'.ne_zero hroot)

/-- An item is returned if and only if the names lead to an entry, and then it stands for such an
entry. -/
def FindsNamed (s : Kernel) (image : Nat → Sector) (n : Nat) (path : UInt32) (names : List (List UInt8)) :
    Prop :=
  Total (fat16GetDirectoryEntry path) s fun item s' =>
    (item ≠ 0 ↔ ∃ e, Names image (rootOnDisk image n) names e) ∧
      (item ≠ 0 → ∃ e, Names image (rootOnDisk image n) names e ∧ Stands image s' item e)

/-- There is room for the items on the way, the names are looked up right, and none but the first and the
last is missing. -/
def WalksRight (s : Kernel) (image : Nat → Sector) (n : Nat) (names : List (List UInt8)) : Prop :=
  ∃ cost out, WalkFrom image (rootListing image n) names cost out ∧ Spacious s.heap cost ∧
    NamesRightFrom image (rootOnDisk image n) (rootListing image n) names ∧ out ≠ .astray

/-- There is room for the items on the way, and a name between the first and the last is missing. -/
def WalksAstray (s : Kernel) (image : Nat → Sector) (n : Nat) (names : List (List UInt8)) : Prop :=
  ∃ cost, WalkFrom image (rootListing image n) names cost .astray ∧ Spacious s.heap cost

/-- The volume is mounted and its root directory, with the terminator in slot `n`, is in memory. -/
structure RootTree (s : Kernel) (image : Nat → Sector) (priv : FatPrivate) (n : Nat) : Prop extends
    TreeReady s image priv (rootListing image n) where
  ends : RootEnds image n

/-- The root directory with the one entry `A`, a subdirectory. -/
def treeRoot : List UInt8 := directoryEntry ++ List.replicate 480 0

/-- The entry of the file `B`. -/
def treeEntry : List UInt8 := 0x42 :: (oneFileEntry 600).tail

/-- In that subdirectory is the file `B`. -/
def treeData (cluster : Nat) : Sector := fun i => if cluster = 2 then treeEntry.getD i 0 else 0

def treeImage (sector : Nat) : Sector :=
  if sector = 2 then fun i => treeRoot.getD i 0 else directoryImage treeData sector

/-- The volume is mounted, its root directory loaded. -/
def treeKernel : Kernel :=
  { directoryKernel treeData with
    drive := fun _ sector => some (treeImage sector)
    live := Function.update (directoryKernel treeData).live (blockAddress 4) (some (.dirItems treeRoot)) }

theorem treeKernel_wf : treeKernel.WF := by
  have hwf : (directoryKernel treeData).WF := oneFileKernel_wf (by decide)
  refine hwf.of_live rfl fun ptr o ho => ?_
  by_cases hptr : ptr = blockAddress 4
  · exact ⟨_, hptr ▸ oneFileKernel_live (by decide)⟩
  · exact ⟨o, (Function.update_of_ne hptr _ _).symm.trans ho⟩

theorem treeImage_header : bootHeader treeImage = oneFilePrivate.header := by
  rw [← oneFile_header 600 (fun i => if i = 4 then 4 else if i = 8 ∨ i = 9 then 0xFF else 0) treeData,
    bootHeader, bootHeader]
  have hslice : slice (diskByte treeImage) 0 SIZEOF_FAT_H
      = slice (diskByte (directoryImage treeData)) 0 SIZEOF_FAT_H := by
    apply slice_congr
    intro i hi
    rw [SIZEOF_FAT_H] at hi
    have hsector : (0 + i) / 512 = 0 := by omega
    rw [diskByte, diskByte, hsector]
    rfl
  rw [hslice]
  rfl

/-- The objects of the volume are those of the volume with one file, but for the root directory. -/
theorem treeKernel_live (block : Nat) (h : block < 25600) (hne : block ≠ 4) :
    treeKernel.live (blockAddress block) = oneFileObject 600 0 block := by
  have hother : blockAddress block ≠ blockAddress 4 := by
    intro heq
    have hnat := congrArg UInt32.toNat heq
    rw [blockAddress_toNat h, blockAddress_toNat (by decide)] at hnat
    omega
  exact (Function.update_of_ne hother _ _).trans (oneFileKernel_live h)

theorem treeKernel_tree : RootTree treeKernel treeImage oneFilePrivate 1 where
  mounted := {
    wf := treeKernel_wf
    drive := fun _ _ => rfl
    private_data := treeKernel_live 0 (by decide) (by decide)
    cluster_stream := ⟨{}, treeKernel_live 1 (by decide) (by decide)⟩
    fat_stream := ⟨{}, treeKernel_live 2 (by decide) (by decide)⟩
    header := treeImage_header.symm
    data_sector := by decide
    directory_stream := ⟨{}, treeKernel_live 3 (by decide) (by decide)⟩ }
  root := {
    items := by
      have hitems : (rootListing treeImage 1).items = treeRoot := by decide +kernel
      rw [hitems]
      exact Function.update_self (blockAddress 4) _ (directoryKernel treeData).live
    total := by decide +kernel }
  ends := by decide +kernel

/-- Parse a path. -/
def parsedFirst (path : List UInt8) : KernelM UInt32 := do
  let path_root ← pathparserParse path
  let root ← load pathRootK path_root
  return root.first

/-- The blocks behind the volume are free. -/
theorem treeKernel_free {i : Nat} (h : 5 ≤ i) : isBlockTaken (treeKernel.heap.entries i) = false :=
  oneFileKernel_free 600 (fun _ => 0) (fun _ _ => 0) h

/-- Nothing is open. -/
theorem treeKernel_empty (i : Nat) : treeKernel.file_descriptors i = 0 := by
  show (if i < 0 then blockAddress (1000 + 4 * i) else 0) = 0
  exact if_neg (Nat.not_lt_zero i)

/-- There is room for a few parts. -/
theorem treeKernel_room : 25595 ≤ freeCount treeKernel.heap :=
  le_freeCount _ 5 25600 (Nat.le_refl _) fun _ h1 _ => treeKernel_free h1

/-- What a parsed path is walked in. -/
theorem parsedFirst_spec {path : List UInt8} (hshort : (partsOf (path.drop 3)).length ≤ 100) :
    Ensures (parsedFirst path) treeKernel fun first s =>
      RootTree s treeImage oneFilePrivate 1 ∧ ParsedPath s first (partsOf (path.drop 3)) := by
  intro first s hrun
  obtain ⟨r, s1, hparse, hload⟩ := bind_eq_some.mp hrun
  obtain ⟨root, s2, hroot, hpure⟩ := bind_eq_some.mp hload
  obtain ⟨rfl, rfl⟩ := pure_eq_some.mp hpure
  obtain ⟨hlive, rfl⟩ := load_eq_some.mp hroot
  have hgrown := pathparserParse_grown treeKernel_wf path r _ hparse
  obtain ⟨-, hpath⟩ := ParsedPath.of_parse treeKernel_wf hparse hlive
  have hroom := treeKernel_room
  rw [List.take_of_length_le (by omega)] at hpath
  exact ⟨⟨treeKernel_tree.toTreeReady.grown hgrown, treeKernel_tree.ends⟩, hpath⟩

/-- `A` is a directory with one slot. -/
theorem treeImage_enters : Enters treeImage directoryEntry (chainListing treeImage 2 1) :=
  .intro 1 (by decide +kernel) {
    spc := by decide +kernel
    ge := by decide +kernel
    scan := ⟨1, ⟨by decide +kernel, by decide +kernel, by decide +kernel⟩, by decide +kernel⟩
    range := by
      unfold ReadInRange
      decide +kernel
    followed := fun i hi => absurd hi (by
      have hlast : lastIndex treeImage 0 (1 * SIZEOF_FAT_DIRECTORY_ITEM) = 0 := by decide +kernel
      omega) }

/-- Its one slot is that of `B`, which is looked up there. -/
theorem treeImage_lookup : Searchable treeImage (chainListing treeImage 2 1) [0x42] 2 ∧
    (chainListing treeImage 2 1).found [0x42] = some treeEntry := by
  have hentries : (chainListing treeImage 2 1).entries [0x42] = [treeEntry] := by decide +kernel
  refine ⟨⟨by decide +kernel, ?_⟩, ?_⟩
  · rw [hentries]
    exact .cons (.file (by decide)) .nil
  · rw [Listing.found, hentries]
    rfl

/-- `A` is looked up in the root directory. -/
theorem treeImage_root : Searchable treeImage (rootListing treeImage 1) [0x41] 3 ∧
    (rootListing treeImage 1).found [0x41] = some directoryEntry := by
  have hentries : (rootListing treeImage 1).entries [0x41] = [directoryEntry] := by decide +kernel
  refine ⟨⟨by decide +kernel, ?_⟩, ?_⟩
  · rw [hentries]
    exact .cons (.subdirectory _ treeImage_enters (by decide)) .nil
  · rw [Listing.found, hentries]
    rfl

/-- The walk along `A/B`. -/
theorem treeImage_walk :
    WalkFrom treeImage (rootListing treeImage 1) [[0x41], [0x42]] 5 (.entry treeEntry) :=
  .down [0x41] [[0x42]] 3 directoryEntry 2 _ treeImage_root.1 treeImage_root.2
    (.down directoryEntry [0x42] [] _ 2 treeEntry 0 _ treeImage_enters treeImage_lookup.1 treeImage_lookup.2
      (.here treeEntry))

/-- The subdirectory `A` on the disk. -/
theorem treeImage_leads : LeadsTo treeImage directoryEntry ⟨chainSlot treeImage 2, 1⟩ :=
  .intro 1 (by decide +kernel)
    { spc := by decide +kernel
      clusters := by decide +kernel
      range := by decide +kernel
      followed := fun i hi => absurd hi (by
        have hlast : lastIndex treeImage 0 ((1 + 1) * SIZEOF_FAT_DIRECTORY_ITEM) = 0 := by decide +kernel
        omega)
      before := by decide +kernel
      terminator := by decide +kernel }

/-- The one slot of a directory has the name that is looked up. -/
theorem lookupRight_one {D : DiskDirectory} {L : Listing} {name e : List UInt8} {names : List (List UInt8)}
    (hcount : D.count = 1) (hslot : D.slots 0 = e) (huse : InUse e) (hname : SameName (shortName e) name)
    (hfound : L.found name = some e) : LookupRight D L name names where
  has := by
    intro e' he'
    rw [hfound] at he'
    obtain rfl := Option.some.inj he'
    exact ⟨0, by omega, hslot.symm ▸ huse, hslot.symm ▸ hname, hslot⟩
  only := by
    rintro - e' he' e'' ⟨j, hj, -, -, rfl⟩
    rw [hfound] at he'
    obtain rfl := Option.some.inj he'
    obtain rfl : j = 0 := by omega
    exact hslot
  missing := by
    intro hnone
    rw [hfound] at hnone
    cases hnone

/-- On it the names are looked up right. -/
theorem treeImage_right :
    NamesRightFrom treeImage (rootOnDisk treeImage 1) (rootListing treeImage 1) [[0x41], [0x42]] := by
  refine ⟨lookupRight_one rfl (by decide +kernel) (by decide +kernel) (by decide +kernel) treeImage_root.2,
    fun next hnext _ => ?_⟩
  rw [treeImage_root.2] at hnext
  obtain rfl := Option.some.inj hnext
  exact ⟨_, _, treeImage_leads, treeImage_enters, lookupRight_one rfl (by decide +kernel) (by decide +kernel)
    (by decide +kernel) treeImage_lookup.2, fun _ _ => trivial⟩

/-- `B` is found, and that there is no `X` is noticed. -/
example : Total (parsedFirst (renderPath 0 [[0x41], [0x42]]) >>= fat16GetDirectoryEntry) treeKernel
    (fun r _ => r ≠ 0) ∧
    Total (parsedFirst (renderPath 0 [[0x41], [0x58]]) >>= fat16GetDirectoryEntry) treeKernel
      fun r _ => r = 0 := by decide +kernel

end RasOS
