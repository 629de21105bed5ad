import RasOS.Fs.Items
import RasOS.Fs.PathParts

set_option autoImplicit false

/-! # Walking down a directory tree

`fat16_get_directory_entry` looks one name up after another, each in the directory of the item found
for the one before. How such a walk ends can be read off the disk, as long as there is room for the items
made on the way. -/

namespace RasOS

open Machine Traced HeapEvent

variable {image : Nat → Sector} {priv : FatPrivate}

/-! ## On the disk -/

/-- How a walk ends: at an item of an entry; with null, for a missing last name or a file among the
others; or with a missing name and more to follow. -/
inductive WalkEnd
  | entry (e : List UInt8)
  | null
  | astray
  deriving DecidableEq

/-- Looking the names up from an entry on takes `cost` blocks and ends so. -/
inductive Onward (image : Nat → Sector) : List UInt8 → List (List UInt8) → Nat → WalkEnd → Prop
  | here (e : List UInt8) : Onward image e [] 0 (.entry e)
  | file (e name : List UInt8) (names : List (List UInt8)) (hfile : itemIsSubdirectory e = false) :
      Onward image e (name :: names) 0 .null
  | missing (e name : List UInt8) (names : List (List UInt8)) (L : Listing) (cost : Nat)
      (henters : Enters image e L) (hsearch : Searchable image L name cost) (hfound : L.found name = none) :
      Onward image e (name :: names) cost (if names = [] then .null else .astray)
  | down (e name : List UInt8) (names : List (List UInt8)) (L : Listing) (cost : Nat) (next : List UInt8)
      (rest : Nat) (out : WalkEnd) (henters : Enters image e L) (hsearch : Searchable image L name cost)
      (hfound : L.found name = some next) (hrest : Onward image next names rest out) :
      Onward image e (name :: names) (cost + rest) out

/-- Looking the names up from a directory on. Here the first may be missing. -/
inductive WalkFrom (image : Nat → Sector) (L : Listing) : List (List UInt8) → Nat → WalkEnd → Prop
  | missing (name : List UInt8) (names : List (List UInt8)) (cost : Nat)
      (hsearch : Searchable image L name cost) (hfound : L.found name = none) :
      WalkFrom image L (name :: names) cost .null
  | down (name : List UInt8) (names : List (List UInt8)) (cost : Nat) (next : List UInt8) (rest : Nat)
      (out : WalkEnd) (hsearch : Searchable image L name cost) (hfound : L.found name = some next)
      (hrest : Onward image next names rest out) : WalkFrom image L (name :: names) (cost + rest) out

/-- What a walk that ends so delivers. -/
def Delivered (image : Nat → Sector) (s : Kernel) (out : WalkEnd) (item : UInt32) (s' : Kernel) : Prop :=
  match out with
  | .entry e => NewStands image s item e s'
  | _ => item = 0

/-- What one lookup delivers. -/
def Listing.lookup (L : Listing) (name : List UInt8) : WalkEnd :=
  match L.found name with
  | none => .null
  | some e => .entry e

theorem MadeLast.delivered {s s' : Kernel} {L : Listing} {name : List UInt8} {item : UInt32}
    (h : MadeLast image s (L.entries name) 0 item s') : Delivered image s (L.lookup name) item s' := by
  unfold MadeLast at h
  rw [Listing.lookup, Listing.found]
  cases hlast : (L.entries name).getLast? with
  | none =>
      rw [hlast] at h
      exact h
  | some e =>
      rw [hlast] at h
      exact h

/-! ## One turn -/

/-- It does so as long as what the item owns stays. -/
theorem Stands.keep {s s' : Kernel} {item : UInt32} {entry : List UInt8} {ptrs : List UInt32}
    (h : Stands image s item entry) (hwf : s.WF) (howns : ItemOwns s item ptrs)
    (hkeep : ∀ q ∈ ptrs, s'.live q = s.live q) : Stands image s' item entry := by
  cases h with
  | file it hfile hit htype hcopy =>
      rw [howns.unique (.file it entry hit htype hcopy)] at hkeep
      exact .file it hfile ((hkeep _ (by simp)).trans hit) htype ((hkeep _ (by simp)).trans hcopy)
  | subdirectory it d L henters hit htype hd hlisted =>
      rw [howns.unique (.directory it _ hit htype (.full d _ (hwf.ne_zero hd) hd (hwf.ne_zero hlisted.items)
        hlisted.items))] at hkeep
      exact .subdirectory it d L henters ((hkeep _ (by simp)).trans hit) htype ((hkeep _ (by simp)).trans hd)
        ⟨(hkeep _ (by simp)).trans hlisted.items, hlisted.total⟩

/-- An item that was not there is left when older objects are freed. -/
theorem NewStands.freedAll {s s' : Kernel} {item : UInt32} {entry : List UInt8} {ptrs : List UInt32}
    (h : NewStands image s item entry s') (hwf : s'.WF) (hall : AllLive s ptrs) :
    NewStands image s item entry (freedAll ptrs s') := by
  obtain ⟨owned, howned⟩ := h.stands.owns hwf
  have hkeep : ∀ q ∈ owned, (RasOS.freedAll ptrs s').live q = s'.live q := by
    intro q hq
    rw [freedAll_live, if_neg]
    intro hmem
    obtain ⟨o, ho⟩ := hall.live q hmem
    rw [h.fresh owned howned q hq] at ho
    cases ho
  refine ⟨h.stands.keep hwf howned hkeep, fun ptrs' hptrs' => ?_⟩
  rw [hptrs'.unique (howned.congr hkeep)]
  exact h.fresh owned howned

theorem Delivered.freedAll {s s' : Kernel} {out : WalkEnd} {item : UInt32} {ptrs : List UInt32}
    (h : Delivered image s out item s') (hwf : s'.WF) (hall : AllLive s ptrs) :
    Delivered image s out item (freedAll ptrs s') := by
  cases out with
  | entry e => exact NewStands.freedAll h hwf hall
  | null => exact h
  | astray => exact h

theorem Delivered.earlier {s s1 s' : Kernel} {out : WalkEnd} {item : UInt32}
    (h : Delivered image s1 out item s') (hgrown : Grown s s1) : Delivered image s out item s' := by
  cases out with
  | entry e => exact NewStands.earlier h hgrown
  | null => exact h
  | astray => exact h

theorem spacious_freedAll {k : Nat} : ∀ {ptrs : List UInt32} {s : Kernel}, Spacious s.heap k →
    Spacious (freedAll ptrs s).heap k := by
  intro ptrs
  induction ptrs with
  | nil => exact fun h => h
  | cons ptr ptrs ih => exact fun h => ih (h.heapFree ptr)

/-- The walk has come to an item of the entry; the names are still to be looked up. -/
structure AtEntry (image : Nat → Sector) (priv : FatPrivate) (s0 : Kernel) (names : List (List UInt8))
    (next_part item : UInt32) (entry : List UInt8) (s : Kernel) : Prop where
  mounted : DirectoryReady s0 image priv
  grown : Grown s0 s
  chain : PathChain s0 next_part names
  item : NewStands image s0 item entry s

/-- What a turn leads to: the rest of the walk goes on from the item that was found. -/
structure Turn (image : Nat → Sector) (s0 : Kernel) (k fuel : Nat) (next_part item : UInt32) (found : WalkEnd)
    (names : List (List UInt8)) (s : Kernel) (next_part' item' : UInt32) (s' : Kernel) : Prop where
  grown : Grown s0 s'
  chain : PathChain s0 next_part' names
  room : Spacious s'.heap k
  found : Delivered image s0 found item' s'
  run : getDirectoryEntryLoop (fuel + 1) next_part item s = getDirectoryEntryLoop fuel next_part' item' s'
  sound : ∀ Q, Sound Met (Trace.getDirectoryEntryLoop fuel next_part' item') s' Q →
    Sound Met (Trace.getDirectoryEntryLoop (fuel + 1) next_part item) s Q

/-- **A turn in a subdirectory**: the name is looked up there, and the item freed. -/
theorem turn (fuel : Nat) {s0 s : Kernel} {name e : List UInt8} {names : List (List UInt8)} {next_part item : UInt32}
    {L : Listing} {cost k : Nat} (h : AtEntry image priv s0 (name :: names) next_part item e s)
    (henters : Enters image e L) (hsearch : Searchable image L name cost) (hroom : Spacious s.heap (cost + k)) :
    ∃ next_part' item' s',
      Turn image s0 k fuel next_part item (L.lookup name) names s next_part' item' s' := by
  obtain ⟨part, hpart0, hname0, hrest⟩ := h.chain
  have hpart : ∀ t, Grown s0 t → t.live next_part = some (pathPartK.inj part) := fun t ht =>
    ht.object _ _ hpart0 fun _ heq => Obj.noConfusion heq
  have hname : s.live part.part = some (pathNameK.inj name) :=
    h.grown.object _ _ hname0 fun _ heq => Obj.noConfusion heq
  obtain ⟨owned, howned⟩ := h.item.stands.owns h.grown.wf
  have hfresh := h.item.fresh owned howned
  cases h.item.stands with
  | file it hfile hit htype hcopy =>
      rw [henters.subdirectory] at hfile
      cases hfile
  | subdirectory it d L' henters' hit htype hd hlisted =>
      obtain rfl := henters'.unique henters
      have hready := h.mounted.grown h.grown
      -- the search
      obtain ⟨⟨item', s1, hfind, hgrown1, hroom1, hmade⟩, hevents⟩ :=
        sound_findItem (k := k) hready hlisted hsearch hroom
      have hdelivered := hmade.delivered
      -- the item is as it was before the search, so all of it can be freed
      have howned1 := howned.congr (howned.kept hgrown1)
      have hfree := fat16FatItemFree_owns howned1
      have hgrown' : Grown s0 (freedAll owned s1) := (h.grown.trans hgrown1).freedAll howned1.allLive hfresh
      have hne : next_part ≠ 0 := h.grown.wf.ne_zero (hpart s h.grown)
      refine ⟨part.next, item', freedAll owned s1, hgrown', hrest, spacious_freedAll hroom1,
        (hdelivered.freedAll hgrown1.wf howned.allLive).earlier h.grown, ?_, fun Q hQ => ?_⟩
      · rw [Trace.erase_fat16FindItemInDirectory] at hfind
        rw [getDirectoryEntryLoop_succ fuel item hne, bind_of_some (load_of_live hit),
          if_neg (not_not.mpr htype), bind_of_some (load_of_live (hpart s h.grown)),
          bind_of_some (load_of_live hd), bind_of_some (load_of_live hname)]
        have hdescend : descend item d name s = some (item', freedAll owned s1) := by
          unfold descend
          rw [bind_of_some hfind, bind_of_some hfree]
          rfl
        rw [bind_of_some hdescend, bind_of_some (load_of_live (hpart _ hgrown'))]
      · have hread : ∀ {α : Type} {k : Kind Obj α} {ptr : UInt32} {a : α}, s.live ptr = some (k.inj a) →
            (Trace.read k ptr).erase s = some (a, s) := by
          intro α k ptr a ha
          rw [Trace.erase_read]
          exact load_of_live ha
        rw [Trace.getDirectoryEntryLoop, if_neg hne]
        refine Sound.bind_of_run (hread hit) (always_read _ _ s) ?_
        rw [if_neg (not_not.mpr htype)]
        refine Sound.bind_of_some (load_of_live (hpart s h.grown)) ?_
        refine Sound.bind_of_run (hread hd) (always_read _ _ s) ?_
        refine Sound.bind_of_some (load_of_live hname) ?_
        refine Sound.bind_of_run hfind hevents ?_
        rw [← Trace.erase_fat16FatItemFree] at hfree
        refine Sound.bind_of_run hfree (always_fatItemFree item s1) ?_
        exact Sound.bind_of_some (load_of_live (hpart _ hgrown')) hQ

/-! ## The walk -/

theorem lookup_none {L : Listing} {name : List UInt8} (h : L.found name = none) : L.lookup name = .null := by
  rw [Listing.lookup, h]

theorem lookup_some {L : Listing} {name e : List UInt8} (h : L.found name = some e) :
    L.lookup name = .entry e := by
  rw [Listing.lookup, h]

/-- The end of the parts. -/
theorem sound_loop_end {s : Kernel} {fuel : Nat} (hfuel : 0 < fuel) {item : UInt32} {Q : UInt32 → Kernel → Prop}
    (hQ : Q item s) : Sound Met (Trace.getDirectoryEntryLoop fuel 0 item) s Q := by
  obtain ⟨fuel, rfl⟩ := Nat.exists_eq_succ_of_ne_zero (Nat.ne_zero_of_lt hfuel)
  rw [Trace.getDirectoryEntryLoop, if_pos rfl]
  exact Sound.pure hQ

/-- **The walk from an item on**, with room for what it makes. By induction on the walk: a turn for each
name. -/
theorem sound_onward {s0 : Kernel} {e : List UInt8} {names : List (List UInt8)} {cost : Nat} {out : WalkEnd}
    (hwalk : Onward image e names cost out) (hout : out ≠ .astray) : ∀ (fuel k : Nat) (next_part item : UInt32)
      (s : Kernel), names.length < fuel → AtEntry image priv s0 names next_part item e s →
      Spacious s.heap (cost + k) → Sound Met (Trace.getDirectoryEntryLoop fuel next_part item) s fun r s' =>
        Grown s0 s' ∧ Spacious s'.heap k ∧ Delivered image s0 out r s' := by
  induction hwalk with
  | here e =>
      intro fuel k next_part item s hfuel h hroom
      obtain rfl : next_part = 0 := h.chain
      rw [Nat.zero_add] at hroom
      exact sound_loop_end hfuel ⟨h.grown, hroom, h.item⟩
  | file e name names hfile =>
      intro fuel k next_part item s hfuel h hroom
      obtain ⟨fuel, rfl⟩ := Nat.exists_eq_succ_of_ne_zero (Nat.ne_zero_of_lt hfuel)
      rw [Nat.zero_add] at hroom
      -- an item of a file has no directory to search
      have hne := (h.chain.grown h.grown).ne_zero h.grown.wf (List.cons_ne_nil _ _)
      cases h.item.stands with
      | subdirectory it d L henters hit htype hd hlisted =>
          rw [henters.subdirectory] at hfile
          cases hfile
      | file it _ hit htype hcopy =>
          have hread : (Trace.read fatItemK item).erase s = some (it, s) := by
            rw [Trace.erase_read]
            exact load_of_live hit
          rw [Trace.getDirectoryEntryLoop, if_neg hne]
          refine Sound.bind_of_run hread (always_read _ _ s) ?_
          rw [if_pos (by rw [htype]; decide)]
          exact Sound.pure ⟨h.grown, hroom, rfl⟩
  | missing e name names L cost henters hsearch hfound =>
      intro fuel k next_part item s hfuel h hroom
      -- the last name may be missing, but none before it
      by_cases hnames : names = []
      · subst hnames
        rw [if_pos rfl]
        obtain ⟨fuel, rfl⟩ := Nat.exists_eq_succ_of_ne_zero (Nat.ne_zero_of_lt hfuel)
        obtain ⟨next_part', item', s', hturn⟩ := turn fuel h henters hsearch hroom
        obtain rfl : next_part' = 0 := hturn.chain
        have hdelivered := hturn.found
        rw [lookup_none hfound] at hdelivered
        exact hturn.sound _ (sound_loop_end (Nat.lt_of_succ_lt_succ hfuel) ⟨hturn.grown, hturn.room, hdelivered⟩)
      · rw [if_neg hnames] at hout
        exact absurd rfl hout
  | down e name names L cost next rest out henters hsearch hfound hrest ih =>
      intro fuel k next_part item s hfuel h hroom
      obtain ⟨fuel, rfl⟩ := Nat.exists_eq_succ_of_ne_zero (Nat.ne_zero_of_lt hfuel)
      rw [Nat.add_assoc] at hroom
      obtain ⟨next_part', item', s', hturn⟩ := turn fuel h henters hsearch hroom
      have hnext := hturn.found
      rw [lookup_some hfound] at hnext
      exact hturn.sound _ (ih hout fuel k next_part' item' s' (Nat.lt_of_succ_lt_succ hfuel)
        ⟨h.mounted, hturn.grown, hturn.chain, hnext⟩ hturn.room)

/-- **There is no item to go on from**, and the loop reads one. -/
theorem getDirectoryEntryLoop_null {s : Kernel} (hwf : s.WF) (fuel : Nat) {next_part : UInt32}
    (hmore : next_part ≠ 0) : getDirectoryEntryLoop fuel next_part 0 s = none := by
  cases fuel with
  | zero => rfl
  | succ fuel =>
      rw [getDirectoryEntryLoop_succ fuel 0 hmore]
      refine bind_of_none ?_
      rw [load, Kind.read, hwf.live_zero]
      rfl

/-- **A walk that goes astray** comes to null with names left. -/
theorem onward_astray {s0 : Kernel} {e : List UInt8} {names : List (List UInt8)} {cost : Nat} {out : WalkEnd}
    (hwalk : Onward image e names cost out) (hout : out = .astray) : ∀ (fuel : Nat) (next_part item : UInt32)
      (s : Kernel), AtEntry image priv s0 names next_part item e s → Spacious s.heap cost →
      getDirectoryEntryLoop fuel next_part item s = none := by
  induction hwalk with
  | here e => cases hout
  | file e name names hfile => cases hout
  | missing e name names L cost henters hsearch hfound =>
      intro fuel next_part item s h hroom
      cases fuel with
      | zero => rfl
      | succ fuel =>
          have hnames : names ≠ [] := by
            rintro rfl
            rw [if_pos rfl] at hout
            cases hout
          obtain ⟨next_part', item', s', hturn⟩ := turn fuel (k := 0) h henters hsearch hroom
          have hdelivered := hturn.found
          rw [lookup_none hfound] at hdelivered
          rw [hturn.run, show item' = 0 from hdelivered]
          have hchain := hturn.chain.grown hturn.grown
          exact getDirectoryEntryLoop_null hturn.grown.wf fuel (hchain.ne_zero hturn.grown.wf hnames)
  | down e name names L cost next rest out henters hsearch hfound hrest ih =>
      intro fuel next_part item s h hroom
      cases fuel with
      | zero => rfl
      | succ fuel =>
          obtain ⟨next_part', item', s', hturn⟩ := turn fuel h henters hsearch hroom
          have hnext := hturn.found
          rw [lookup_some hfound] at hnext
          rw [hturn.run]
          exact ih hout fuel next_part' item' s' ⟨h.mounted, hturn.grown, hturn.chain, hnext⟩ hturn.room

/-! ## From the root directory -/

/-- The volume is mounted, and the listing of its root directory is in memory. -/
structure TreeReady (s : Kernel) (image : Nat → Sector) (priv : FatPrivate) (L : Listing) : Prop where
  mounted : DirectoryReady s image priv
  root : Listed s L priv.root_directory

theorem TreeReady.grown {s s' : Kernel} {L : Listing} (h : TreeReady s image priv L) (hgrown : Grown s s') :
    TreeReady s' image priv L := ⟨h.mounted.grown hgrown, h.root.grown hgrown⟩

section Root

variable {s : Kernel} {L : Listing} {path : UInt32} {names : List (List UInt8)} {cost k : Nat} {out : WalkEnd}

/-- **The walk along a path**, with room for what it makes. -/
theorem sound_getDirectoryEntry (h : TreeReady s image priv L) (hchain : PathChain s path names)
    (hshort : names.length ≤ RASOS_PATH_MAX_LEN) (hwalk : WalkFrom image L names cost out)
    (hout : out ≠ .astray) (hroom : Spacious s.heap (cost + k)) :
    Sound Met (Trace.fat16GetDirectoryEntry path) s fun item s' =>
      Grown s s' ∧ Spacious s'.heap k ∧ Delivered image s out item s' := by
  have hprivate : fsPrivate s = some (priv, s) := load_of_live h.mounted.private_data
  cases hwalk with
  | missing name names cost hsearch hfound =>
      obtain ⟨part, hpart, hname, hrest⟩ := hchain
      unfold Trace.fat16GetDirectoryEntry
      refine Sound.bind_of_some hprivate (Sound.bind_of_some (load_of_live hpart)
        (Sound.bind_of_some (load_of_live hname) ?_))
      refine (sound_findItem (k := k) h.mounted h.root hsearch hroom).bind ?_
      rintro item s1 ⟨hgrown, hroom1, hmade⟩
      have hdelivered := hmade.delivered
      rw [lookup_none hfound] at hdelivered
      rw [if_pos (show item = 0 from hdelivered)]
      exact Sound.pure ⟨hgrown, hroom1, rfl⟩
  | down name names cost next rest out hsearch hfound hrest' =>
      obtain ⟨part, hpart, hname, hrest⟩ := hchain
      rw [Nat.add_assoc] at hroom
      unfold Trace.fat16GetDirectoryEntry
      refine Sound.bind_of_some hprivate (Sound.bind_of_some (load_of_live hpart)
        (Sound.bind_of_some (load_of_live hname) ?_))
      refine (sound_findItem h.mounted h.root hsearch hroom).bind ?_
      rintro item s1 ⟨hgrown, hroom1, hmade⟩
      have hdelivered := hmade.delivered
      rw [lookup_some hfound] at hdelivered
      have hstands : NewStands image s item next s1 := hdelivered
      rw [if_neg (hstands.stands.ne_zero hgrown.wf)]
      have hpart1 := hgrown.object _ _ hpart fun _ heq => Obj.noConfusion heq
      refine Sound.bind_of_some (load_of_live hpart1) ?_
      exact sound_onward hrest' hout _ k part.next item s1 hshort ⟨h.mounted, hgrown, hrest, hstands⟩ hroom1

/-- **A walk that goes astray** reads an item at null. -/
theorem getDirectoryEntry_astray (h : TreeReady s image priv L) (hchain : PathChain s path names)
    (hwalk : WalkFrom image L names cost .astray) (hroom : Spacious s.heap cost) :
    fat16GetDirectoryEntry path s = none := by
  have hprivate : fsPrivate s = some (priv, s) := load_of_live h.mounted.private_data
  cases hwalk with
  | down name names cost next rest out hsearch hfound hrest' =>
      obtain ⟨part, hpart, hname, hrest⟩ := hchain
      obtain ⟨item, s1, hfind, hgrown, hroom1, hmade⟩ := (sound_findItem h.mounted h.root hsearch hroom).1
      rw [Trace.erase_fat16FindItemInDirectory] at hfind
      have hdelivered := hmade.delivered
      rw [lookup_some hfound] at hdelivered
      have hstands : NewStands image s item next s1 := hdelivered
      have hpart1 := hgrown.object _ _ hpart fun _ heq => Obj.noConfusion heq
      rw [fat16GetDirectoryEntry, bind_of_some hprivate, bind_of_some (load_of_live hpart),
        bind_of_some (load_of_live hname), bind_of_some hfind, if_neg (hstands.stands.ne_zero hgrown.wf),
        bind_of_some (load_of_live hpart1)]
      exact onward_astray hrest' rfl _ part.next item s1 ⟨h.mounted, hgrown, hrest, hstands⟩ hroom1

end Root

end RasOS
