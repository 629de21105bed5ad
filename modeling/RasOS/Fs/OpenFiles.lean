import RasOS.Fs.Descriptors
import RasOS.Fs.Position

set_option autoImplicit false

/-! # What can be done with an open file

With room for the walk a file that is there is opened, in the first free slot. Then memory may be
allocated, files read and one object of another kind written, and the file stays open: the calls on it
return, and closing it takes back what opening it has put into the table. -/

namespace RasOS

open Machine

variable {α : Type} {image : Nat → Sector} {priv : FatPrivate}

/-! ## Changes around an object -/

/-- Objects may have been added since, streams moved, and `ptr` written. -/
structure Around (ptr : UInt32) (s s' : Kernel) : Prop where
  wf : s'.WF
  statics : s'.statics = s.statics
  slots : s'.file_descriptors = s.file_descriptors
  object : ∀ q o, q ≠ ptr → s.live q = some o → (∀ st, o ≠ .diskStream st) → s'.live q = some o
  stream : ∀ q st, q ≠ ptr → s.live q = some (.diskStream st) → ∃ st', s'.live q = some (.diskStream st')

namespace Around

variable {ptr : UInt32} {s s' : Kernel}

theorem of_grown (h : Grown s s') : Around ptr s s' :=
  ⟨h.wf, h.statics, h.slots, fun q o _ => h.object q o, fun q st _ => h.stream q st⟩

theorem write (h : Around ptr s s') {k : Kind Obj α} {o : Obj} (hlive : s'.live ptr = some o) (a : α) :
    Around ptr s { s' with live := k.write s'.live ptr a } := by
  refine ⟨h.wf.write hlive a, h.statics, h.slots, fun q o' hne hq hst => ?_, fun q st hne hq => ?_⟩
  · exact (Kind.write_of_ne _ _ _ hne).trans (h.object q o' hne hq hst)
  · obtain ⟨st', hst'⟩ := h.stream q st hne hq
    exact ⟨st', (Kind.write_of_ne _ _ _ hne).trans hst'⟩

/-- If `ptr` is no object of a file, these are as they were. -/
theorem file (h : Around ptr s s') {o : Obj} (hptr : s.live ptr = some o) (hkind : o.isFile = false)
    {q : UInt32} {ob : Obj} (hq : s.live q = some ob) (hfile : ob.isFile = true) : s'.live q = some ob := by
  refine h.object q ob ?_ hq fun st heq => ?_
  · rintro rfl
    rw [hptr] at hq
    rw [Option.some.inj hq, hfile] at hkind
    cases hkind
  · rw [heq] at hfile
    cases hfile

end Around

/-- Objects may have been added since, streams moved, and slots of the table changed. -/
def Added (s s' : Kernel) : Prop := Grown s { s' with file_descriptors := s.file_descriptors }

theorem Added.around {ptr : UInt32} {s s1 s' : Kernel} (h : Added s s1) (hfree : s.live ptr = none)
    (h' : Around ptr s1 s') : Added s s' where
  wf := h'.wf.of_live rfl fun _ o ho => ⟨o, ho⟩
  statics := h'.statics.trans h.statics
  slots := rfl
  object := fun q o ho hst => h'.object q o (Grown.ne_of_fresh hfree ho) (h.object q o ho hst) hst
  stream := by
    intro q st hst
    obtain ⟨st', hst'⟩ := h.stream q st hst
    exact h'.stream q st' (Grown.ne_of_fresh hfree hst) hst'

theorem freedAll_withSlots (ptrs : List UInt32) (slots : Nat → UInt32) (s : Kernel) :
    freedAll ptrs { s with file_descriptors := slots } = { freedAll ptrs s with file_descriptors := slots } := by
  induction ptrs generalizing s with
  | nil => rfl
  | cons ptr ptrs ih => exact ih (freed s ptr)

/-! ## Open files -/

/-- What an open file owns are objects of files. -/
theorem OpenFile.Owns.isFile {f : OpenFile} {s : Kernel} {ptrs : List UInt32} (h : f.Owns s ptrs) :
    ∀ q ∈ ptrs, ∃ o, s.live q = some o ∧ o.isFile = true := by
  obtain ⟨d, objects, hdesc, rfl⟩ := h
  intro q hq
  rcases List.mem_append.mp hq with hq | hq
  · obtain ⟨o, ho, hkind⟩ := hdesc.item.isItem q hq
    refine ⟨o, ho, ?_⟩
    cases o <;> first | rfl | cases hkind
  · simp only [List.mem_cons, List.not_mem_nil, or_false] at hq
    rcases hq with rfl | rfl
    · exact ⟨_, hdesc.private_data, rfl⟩
    · exact ⟨_, hdesc.live, rfl⟩

/-- In this slot of the table is the open file, at the beginning of the entry. -/
structure FileOpen (image : Nat → Sector) (entry : List UInt8) (slot : Nat) (f : OpenFile) (s : Kernel) :
    Prop where
  wf : s.WF
  fd : f.fd = slot + 1
  desc : f.desc = { index := slot + 1, filesystem := some .fat16, private_data := f.desc.private_data }
  held : s.file_descriptors slot = f.descriptor
  descriptor : s.live f.descriptor = some (fileDescriptorK.inj f.desc)
  item : ∃ item, s.live f.desc.private_data = some (fatFileDescriptorK.inj { item := item, pos := 0 }) ∧
    Stands image s item entry

namespace FileOpen

variable {entry : List UInt8} {slot : Nat} {f : OpenFile} {s s' : Kernel} {ptr : UInt32} {o : Obj}

theorem around (h : FileOpen image entry slot f s) (h' : Around ptr s s') (hptr : s.live ptr = some o)
    (hkind : o.isFile = false) : FileOpen image entry slot f s' := by
  obtain ⟨item, hpriv, hstands⟩ := h.item
  refine ⟨h'.wf, h.fd, h.desc, (congrFun h'.slots slot).trans h.held, h'.file hptr hkind h.descriptor rfl,
    item, h'.file hptr hkind hpriv rfl, hstands.congr fun q ob hq hitem => h'.file hptr hkind hq ?_⟩
  cases ob <;> first | rfl | cases hitem

theorem owns (h : FileOpen image entry slot f s) :
    ∃ d objects, DescriptorOwns s f.descriptor f.desc d objects := by
  obtain ⟨item, hpriv, hstands⟩ := h.item
  obtain ⟨objects, hobjects⟩ := hstands.owns h.wf
  refine ⟨_, objects, h.descriptor, ?_, hpriv, hobjects⟩
  rw [h.desc]

/-- The last slot is not looked at. -/
theorem lookup (h : FileOpen image entry slot f s) :
    fileGetDescriptor f.fd s = some (if slot + 1 < 512 then f.descriptor else 0, s) := by
  have hidx : ((slot : Int) + 1 - 1).toNat = slot := by omega
  rw [h.fd]
  by_cases hlast : slot + 1 < 512
  · rw [if_pos hlast, fileGetDescriptor_of_range (by omega) (by omega), hidx, h.held]
  · rw [if_neg hlast, fileGetDescriptor_of_not (by omega)]

/-- `fstat` knows the size of a file, if it is not in the last slot. -/
theorem fstat (h : FileOpen image entry slot f s) :
    (∃ stat, fstat f.fd s = some ((- EINVARG, stat), s)) ∨
      slot + 1 < 512 ∧ itemIsSubdirectory entry = false ∧
        ∃ stat, stat.filesize = itemFilesize entry ∧ RasOS.fstat f.fd s = some ((OK, stat), s) := by
  obtain ⟨item, hpriv, hstands⟩ := h.item
  have hlookup := h.lookup
  by_cases hlast : slot + 1 < 512
  · rw [if_pos hlast] at hlookup
    have hfs : withFilesystem f.desc (fat16Stat f.desc.private_data) = fat16Stat f.desc.private_data := by
      rw [withFilesystem, h.desc]
    have hrun : RasOS.fstat f.fd s = fat16Stat f.desc.private_data s := by
      rw [RasOS.fstat, bind_of_some hlookup, if_neg (h.wf.ne_zero h.descriptor),
        bind_of_some (load_of_live h.descriptor), hfs]
    rw [hrun, fat16Stat, bind_of_some (load_of_live hpriv)]
    cases hstands with
    | file it hfile hit htype hcopy =>
        refine Or.inr ⟨hlast, hfile, {
          filesize := itemFilesize entry
          flags := if itemAttribute entry &&& FAT_FILE_READ_ONLY ≠ 0 then 1 else 0 }, rfl, ?_⟩
        rw [bind_of_some (load_of_live hit), if_neg (not_not.mpr htype), bind_of_some (load_of_live hcopy)]
        rfl
    | subdirectory it d L henters hit htype hd hlisted =>
        refine Or.inl ⟨{}, ?_⟩
        rw [bind_of_some (load_of_live hit), if_pos (by rw [htype]; decide)]
        rfl
  · rw [if_neg hlast] at hlookup
    refine Or.inl ⟨{}, ?_⟩
    rw [RasOS.fstat, bind_of_some hlookup, if_pos rfl]
    rfl

theorem atStart (h : FileOpen image entry slot f s) (hfile : itemIsSubdirectory entry = false) :
    AtStart s f.fd entry := by
  obtain ⟨item, hpriv, hstands⟩ := h.item
  cases hstands with
  | subdirectory it d L henters hit htype hd hlisted =>
      rw [henters.subdirectory] at hfile
      cases hfile
  | file it _ hit htype hcopy =>
      have hdescriptor := h.descriptor
      rw [h.desc] at hdescriptor
      refine ⟨slot, item, h.fd, ⟨_, _, _, h.held, h.wf.ne_zero h.descriptor, hdescriptor, hpriv⟩, it.item, ?_, hcopy⟩
      rw [hit, ← htype]

/-- It can be closed. -/
theorem fclose (h : FileOpen image entry slot f s) :
    Total (fclose f.fd) s fun res s' =>
      (slot + 1 < 512 → res = OK) ∧ ∀ k, Spacious s.heap k → Spacious s'.heap k := by
  obtain ⟨d, objects, howns⟩ := h.owns
  have hlookup := h.lookup
  by_cases hlast : slot + 1 < 512
  · rw [if_pos hlast] at hlookup
    rw [total_of_some (howns.fclose hlookup (h.wf.ne_zero h.descriptor))]
    exact ⟨fun _ => rfl, fun k hroom => spacious_freedAll hroom⟩
  · rw [if_neg hlast] at hlookup
    rw [RasOS.fclose, total_bind_of_some hlookup, if_pos rfl]
    exact total_pure.mpr ⟨fun hlt => absurd hlt hlast, fun _ hroom => hroom⟩

end FileOpen

/-! ## Reading it whole -/

/-- The file lies where it can be read: the clusters have sectors, and those the walk gets to are at
positions of an `int`. -/
structure InReach (image : Nat → Sector) (entry : List UInt8) : Prop where
  spc : 0 < (bootHeader image).sectors_per_cluster.toNat
  first : firstCluster entry < 2 ^ 23
  followed : FollowedInRange image (firstCluster entry) 0 (itemFilesize entry).toNat

/-- The entry is that of a file which is not empty, and whose chain is long enough. -/
structure WholeChain (image : Nat → Sector) (entry : List UInt8) : Prop where
  file : itemIsSubdirectory entry = false
  size : 0 < (itemFilesize entry).toNat
  links : LinksFollowed image (firstCluster entry) (lastIndex image 0 (itemFilesize entry).toNat)

/-- **Reading a file whole returns**, with an error if it is empty or its chain ends too early. -/
theorem FileOpen.fread {entry : List UInt8} {slot : Nat} {f : OpenFile} {s : Kernel}
    (h : FileOpen image entry slot f s) (out : UInt32) (hm : Mounted s image priv) (hreach : InReach image entry)
    (hlast : slot + 1 < 512) (hfile : itemIsSubdirectory entry = false)
    (hout : itemFilesize entry ≠ 0 → out ≠ 0 ∧ out.toNat + (itemFilesize entry).toNat ≤ 2 ^ 32 ∧
      (itemFilesize entry).toNat < 2 ^ 31) :
    Total (fread out (itemFilesize entry) 1 f.fd) s fun res s' =>
      Moved s s' ∧ (res < 0 ∨ res = 1 ∧ WholeChain image entry) := by
  have hmoved := moved_rules.fread moved_memWrite out (itemFilesize entry) 1 f.fd
  by_cases hzero : itemFilesize entry = 0
  · have hrun : RasOS.fread out (itemFilesize entry) 1 f.fd s = some (- EINVARG, s) := by
      rw [RasOS.fread, if_pos (Or.inl hzero)]
      rfl
    exact (total_of_some hrun).mpr ⟨hmoved _ _ _ hrun, Or.inl (by decide)⟩
  obtain ⟨hne, hfit, hsize⟩ := hout hzero
  have hpos : 0 < (itemFilesize entry).toNat := by
    refine Nat.pos_of_ne_zero fun h0 => hzero ?_
    exact UInt32.toNat_inj.mp h0
  have hone : (1 : UInt32).toNat = 1 := rfl
  have hfd : f.fd < 512 := by
    rw [h.fd]
    omega
  -- it is read as one record
  have hfollowed : ∀ i < (1 : UInt32).toNat, FollowedInRange image (firstCluster entry)
      (i * (itemFilesize entry).toNat) (itemFilesize entry).toNat := by
    intro i hi
    obtain rfl : i = 0 := by omega
    rw [Nat.zero_mul]
    exact hreach.followed
  have hspec : Total (RasOS.fread out (itemFilesize entry) 1 f.fd) s _ :=
    fread_spec (hm.layout hreach.spc) hm (h.atStart hfile) hfd hreach.first hpos (by decide)
      (by rw [hone, Nat.one_mul]; exact hsize) hfollowed hne (by rw [hone, Nat.one_mul]; exact hfit)
  refine (hspec.keeps hmoved).mono ?_
  rintro res s' ⟨⟨hok, herr⟩, hkept⟩
  refine ⟨hkept, ?_⟩
  by_cases hlinks : LinksFollowed image (firstCluster entry) (lastIndex image 0 (itemFilesize entry).toNat)
  · refine Or.inr ⟨(hok fun k _ hk => ?_).1, hfile, hpos, hlinks⟩
    obtain rfl : k = 0 := by omega
    rw [Nat.zero_mul]
    exact hlinks
  · refine Or.inl (herr fun hall => hlinks ?_)
    have hfirst := hall 0 (Nat.le_refl 0) (by decide)
    rw [Nat.zero_mul] at hfirst
    exact hfirst

/-! ## New files -/

/-- The file has been opened since `s0`, in a slot that was free. -/
structure NewOpen (s0 : Kernel) (image : Nat → Sector) (entry : List UInt8) (slot : Nat) (f : OpenFile)
    (s : Kernel) : Prop extends FileOpen image entry slot f s where
  free : s0.file_descriptors slot = 0
  slots : s.file_descriptors = Function.update s0.file_descriptors slot f.descriptor
  added : Added s0 s
  fresh : ∀ ptrs, f.Owns s ptrs → ∀ q ∈ ptrs, s0.live q = none

namespace NewOpen

variable {entry : List UInt8} {slot : Nat} {f : OpenFile} {s0 s s' : Kernel} {ptr : UInt32} {o : Obj}

theorem around (h : NewOpen s0 image entry slot f s) (hfree : s0.live ptr = none) (h' : Around ptr s s')
    (hptr : s.live ptr = some o) (hkind : o.isFile = false) : NewOpen s0 image entry slot f s' := by
  refine ⟨h.toFileOpen.around h' hptr hkind, h.free, h'.slots.trans h.slots, h.added.around hfree h', ?_⟩
  obtain ⟨d, objects, hdesc⟩ := h.owns
  have howns : f.Owns s (objects ++ [f.desc.private_data, f.descriptor]) := ⟨d, objects, hdesc, rfl⟩
  intro ptrs hptrs
  rw [hptrs.unique (howns.congr fun q hq => ?_)]
  · exact h.fresh _ howns
  · obtain ⟨ob, hob, hfile⟩ := howns.isFile q hq
    rw [hob]
    exact h'.file hptr hkind hob hfile

/-- **Closing it takes it back**, unless it is in the last slot. -/
theorem fclose (h : NewOpen s0 image entry slot f s) :
    Total (fclose f.fd) s fun _ s' => (slot + 1 < 512 → Grown s0 s') ∧ ∀ k, Spacious s.heap k → Spacious s'.heap k := by
  by_cases hlast : slot + 1 < 512
  swap
  · exact h.toFileOpen.fclose.mono fun _ _ hclose => ⟨fun hlt => absurd hlt hlast, hclose.2⟩
  obtain ⟨d, objects, hdesc⟩ := h.owns
  have howns : f.Owns s (objects ++ [f.desc.private_data, f.descriptor]) := ⟨d, objects, hdesc, rfl⟩
  have hlookup := h.lookup
  rw [if_pos hlast] at hlookup
  have hclose := hdesc.fclose hlookup (h.wf.ne_zero h.descriptor)
  have hindex : (f.desc.index - 1).toNat = slot := by
    rw [h.desc]
    show ((slot : Int) + 1 - 1).toNat = slot
    omega
  have hslots : Function.update s.file_descriptors (f.desc.index - 1).toNat 0 = s0.file_descriptors := by
    rw [hindex, h.slots, Function.update_idem, ← h.free, Function.update_eq_self]
  rw [hslots, ← freedAll_withSlots] at hclose
  -- nothing that is freed was there before
  have hall := howns.allLive
  refine (total_of_some hclose).mpr ⟨fun _ => ?_, fun k hroom => spacious_freedAll hroom⟩
  exact Grown.freedAll h.added ⟨hall.nodup, hall.live⟩ (h.fresh _ howns)

/-- It has been opened since an earlier state too. -/
theorem earlier {s1 : Kernel} (h : NewOpen s1 image entry slot f s) (hgrown : Grown s0 s1) :
    NewOpen s0 image entry slot f s := by
  have hadded := h.added
  unfold Added at hadded
  rw [hgrown.slots] at hadded
  refine ⟨h.toFileOpen, ?_, ?_, hgrown.trans hadded, fun ptrs hptrs q hq => hgrown.fresh (h.fresh ptrs hptrs q hq)⟩
  · rw [← hgrown.slots]
    exact h.free
  · rw [← hgrown.slots]
    exact h.slots

/-- The volume is mounted as it was. -/
theorem mounted (h : NewOpen s0 image entry slot f s) (hready : DirectoryReady s0 image priv) :
    Mounted s image priv := by
  have hmounted := (hready.grown h.added).toMounted
  exact ⟨h.wf, hmounted.drive, hmounted.private_data, hmounted.cluster_stream, hmounted.fat_stream,
    hmounted.header, hmounted.data_sector⟩

end NewOpen

/-! ## Opening with room -/

/-- Blocks of the parsed path, the private data, the items on the way and the descriptor. -/
def openBlocks (filename : List UInt8) (cost : Nat) : Nat := parseBlocks filename + (1 + (cost + 1))

/-- The path is valid, there is a volume, and the walk along the path ends so. -/
structure Reaches (s : Kernel) (filename : List UInt8) (image : Nat → Sector) (priv : FatPrivate) (L : Listing)
    (cost : Nat) (out : WalkEnd) : Prop where
  valid : isValidPath filename = true
  drive : diskGet ((filename.headD 0).toNat - 48) = true
  filesystem : s.disk.filesystem ≠ none
  tree : TreeReady s image priv L
  walk : WalkFrom image L (partsOf (filename.drop 3)) cost out

namespace Reaches

variable {s s' : Kernel} {filename : List UInt8} {L : Listing} {cost k : Nat} {out : WalkEnd}

theorem grown (h : Reaches s filename image priv L cost out) (hgrown : Grown s s') :
    Reaches s' filename image priv L cost out := by
  have hdisk : s'.disk = s.disk := congrArg Statics.disk hgrown.statics
  refine ⟨h.valid, h.drive, ?_, h.tree.grown hgrown, h.walk⟩
  rw [hdisk]
  exact h.filesystem

theorem walked (h : Reaches s filename image priv L cost out) (hroom : Spacious s.heap (parseBlocks filename + k)) :
    ¬ Unwalked s filename [0x72] := by
  have hcount := hroom.le_freeCount
  unfold parseBlocks at hcount
  have hmode : fileGetModeByString [0x72] = FILE_MODE_READ := by decide
  rintro (hinvalid | hnil | hfew | hnodrive | hnofs | hwrong)
  · rw [h.valid] at hinvalid
    cases hinvalid
  · have hwalk := h.walk
    rw [hnil] at hwalk
    cases hwalk
  · omega
  · rw [h.drive] at hnodrive
    cases hnodrive
  · exact h.filesystem hnofs
  · exact hwrong hmode

end Reaches

/-- There is a free slot in the table. -/
def SlotFree (s : Kernel) : Prop := ∃ i, i < RASOS_MAX_FILEDESCRIPTORS ∧ s.file_descriptors i = 0

theorem SlotFree.first {s : Kernel} (h : SlotFree s) :
    ∃ slot, slot < RASOS_MAX_FILEDESCRIPTORS ∧ FirstFree s slot := by
  classical
  obtain ⟨i, hi, hfree⟩ := h
  have hex : ∃ i, s.file_descriptors i = 0 := ⟨i, hfree⟩
  refine ⟨Nat.find hex, lt_of_le_of_lt (Nat.find_min' hex hfree) hi, Nat.find_spec hex, fun j hj => ?_⟩
  exact Nat.find_min hex hj

/-- **With room a file that is there is opened.** -/
theorem Reaches.fopen {s : Kernel} {filename entry : List UInt8} {L : Listing} {cost k : Nat}
    (h : Reaches s filename image priv L cost (.entry entry)) (hwf : s.WF) (hslot : SlotFree s)
    (hroom : Spacious s.heap (openBlocks filename cost + k)) :
    Total (fopen filename [0x72]) s fun fd s' =>
      ∃ slot f, fd = f.fd ∧ NewOpen s image entry slot f s' ∧ Spacious s'.heap k := by
  have hroom' : Spacious s.heap (parseBlocks filename + (1 + (cost + (1 + k)))) := by
    rw [openBlocks, Nat.add_assoc, Nat.add_assoc, Nat.add_assoc] at hroom
    exact hroom
  obtain ⟨⟨res, filesystem, private_data⟩, s1, hprivate, ⟨hok, -, item, hlive, hstands⟩, hroom1⟩ :=
    total_fopenPrivate hwf (h.walked hroom') h.tree h.walk (fun heq => WalkEnd.noConfusion heq) hroom'
  obtain rfl : res = OK := hok
  obtain ⟨hgrown, -⟩ := fopenPrivate_new filename [0x72] hwf _ _ hprivate
  obtain ⟨f, s2, hnew, hroom2⟩ := total_newFile filesystem private_data hgrown.wf hroom1
  -- the open file is one with a descriptor
  have hopen : openFile filename [0x72] s = some (if f.fd < 0 then ⟨0, 0, {}⟩ else f, s2) := by
    have hnot : ¬ (OK : Int) < 0 := by decide
    rw [openFile, bind_of_some hprivate]
    dsimp only
    rw [if_neg hnot, bind_of_some hnew]
    rfl
  rw [← openFile_fopen, total_bind_of_some hopen, total_pure]
  generalize (if f.fd < 0 then ⟨0, 0, {}⟩ else f : OpenFile) = g at hopen
  cases openFile_cases filename [0x72] hwf _ _ hopen with
  | failed _ hgrown' hfull =>
      obtain ⟨slot, hlt, hfirst⟩ := hslot.first
      exact absurd hfirst (hfull _ _ _ hprivate slot hlt)
  | created priv' item' s1' slot _ _ hprivate' hgrown' hnew' hlt hfirst hfile =>
      obtain ⟨hr, rfl⟩ := Prod.mk.inj (Option.some.inj (hprivate.symm.trans hprivate'))
      obtain ⟨-, rfl, rfl⟩ : OK = OK ∧ filesystem = some .fat16 ∧ private_data = priv' := by simpa using hr
      obtain rfl : item' = item := by
        have heq := fatFileDescriptorK.inj_injective (Option.some.inj (hnew'.live.symm.trans hlive))
        exact congrArg FatFileDescriptor.item heq
      have hpriv : g.desc.private_data = private_data := by rw [hfile.desc]
      have hkept : ∀ {q : UInt32} {o : Obj}, s1.live q = some o → s2.live q = some o := fun ho =>
        (hfile.others _ (Grown.ne_of_fresh hfile.fresh ho)).trans ho
      have hopen' : FileOpen image entry slot g s2 := by
        refine ⟨hfile.wf, hfile.fd, ?_, ?_, hfile.live, item', ?_, hstands.congr fun q o ho _ => hkept ho⟩
        · rw [hpriv]
          exact hfile.desc
        · rw [hfile.slots, Function.update_self]
        · rw [hpriv]
          exact hkept hlive
      -- what it consists of is new
      obtain ⟨objects, hobjects⟩ := hstands.owns hgrown.wf
      obtain ⟨howns, hfresh⟩ := hfile.owns hgrown hnew' hobjects
      have hrun : RasOS.fopen filename [0x72] s = some (g.fd, s2) := by
        rw [← openFile_fopen, bind_of_some hopen]
        rfl
      have hstatics := (keepsRest_rules.fopen filename [0x72] _ _ _ hrun hwf).statics
      refine ⟨slot, g, rfl, ⟨hopen', hfirst.1, ?_, ⟨?_, hstatics, rfl, ?_, ?_⟩, fun ptrs hptrs => ?_⟩, hroom2⟩
      · rw [hfile.slots, hgrown.slots]
      · exact hfile.wf.of_live rfl fun _ o ho => ⟨o, ho⟩
      · exact fun q o ho hst => hkept (hgrown.object q o ho hst)
      · intro q st hst
        obtain ⟨st', hst'⟩ := hgrown.stream q st hst
        exact ⟨st', hkept hst'⟩
      · rw [hptrs.unique howns]
        exact hfresh

/-! ## Opening nothing -/

/-- An invalid path is refused at once. -/
theorem pathparserParse_invalid {filename : List UInt8} (h : isValidPath filename = false) (s : Kernel) :
    pathparserParse filename s = some (0, s) := by
  unfold pathparserParse
  by_cases hlong : filename.length > RASOS_PATH_MAX_LEN
  · rw [if_pos hlong]
    rfl
  · rw [if_neg hlong, getDriveFromPath_invalid h]
    rfl

/-- `fopen` opens nothing, and takes so many blocks at most: it returns before it looks anything up, or the
walk ends with null, or no slot is free. -/
inductive OpensNothing (s : Kernel) (filename : List UInt8) : Nat → Prop
  | path (h : isValidPath filename = false ∨ partsOf (filename.drop 3) = [] ∨
      diskGet ((filename.headD 0).toNat - 48) = false ∨ s.disk.filesystem = none) :
      OpensNothing s filename (parseBlocks filename)
  | missing (image : Nat → Sector) (priv : FatPrivate) (L : Listing) (cost : Nat)
      (h : Reaches s filename image priv L cost .null) : OpensNothing s filename (openBlocks filename cost)
  | full (image : Nat → Sector) (priv : FatPrivate) (L : Listing) (cost : Nat) (entry : List UInt8)
      (h : Reaches s filename image priv L cost (.entry entry)) (hfull : ¬ SlotFree s) :
      OpensNothing s filename (openBlocks filename cost)

namespace OpensNothing

variable {s s' : Kernel} {filename : List UInt8} {n k : Nat}

theorem grown (h : OpensNothing s filename n) (hgrown : Grown s s') : OpensNothing s' filename n := by
  cases h with
  | path h =>
      have hdisk : s'.disk = s.disk := congrArg Statics.disk hgrown.statics
      rw [← hdisk] at h
      exact .path h
  | missing image priv L cost h => exact .missing image priv L cost (h.grown hgrown)
  | full image priv L cost entry h hfull =>
      refine .full image priv L cost entry (h.grown hgrown) ?_
      unfold SlotFree
      rw [hgrown.slots]
      exact hfull

theorem fopenPrivate_path (hwf : s.WF) (h : isValidPath filename = false ∨ partsOf (filename.drop 3) = [] ∨
      diskGet ((filename.headD 0).toNat - 48) = false ∨ s.disk.filesystem = none)
    (hroom : Spacious s.heap (parseBlocks filename + k)) :
    Total (fopenPrivate filename [0x72]) s fun r s' => r.1 < 0 ∧ Spacious s'.heap k := by
  by_cases hvalid : isValidPath filename = true
  swap
  · have hinvalid : isValidPath filename = false := by simpa using hvalid
    rw [fopenPrivate, total_bind_of_some (pathparserParse_invalid hinvalid s), if_pos rfl]
    exact total_pure.mpr ⟨by decide, hroom.mono (Nat.le_add_left k _)⟩
  obtain ⟨r, s1, hparse⟩ := parses hwf (.of_spacious hroom)
  have hrun := hparse.run
  rw [Trace.erase_pathparserParse] at hrun
  have hroom1 := (hparse.room hvalid).2 k hroom
  have hdisk : s1.disk = s.disk := congrArg Statics.disk hparse.grown.statics
  rw [fopenPrivate, total_bind_of_some hrun]
  -- there is no path, no drive or no file system
  cases hparse.root with
  | null h0 hnot =>
      rw [if_pos h0]
      exact total_pure.mpr ⟨by decide, hroom1⟩
  | made root _ hparts hroot hdrive hfirst hchain =>
      rw [if_neg (hparse.grown.wf.ne_zero hroot), total_load hroot, if_neg hfirst, hdrive]
      by_cases hget : diskGet ((filename.headD 0).toNat - 48) = false
      · rw [hget, if_pos (by rfl)]
        exact total_pure.mpr ⟨by decide, hroom1⟩
      · have hnofs : s1.disk.filesystem = none := by
          rw [hdisk]
          rcases h with hinvalid | hnil | hnodrive | hnofs
          · rw [hvalid] at hinvalid
            cases hinvalid
          · exact absurd hnil hparts
          · exact absurd hnodrive hget
          · exact hnofs
        rw [Bool.not_eq_false] at hget
        rw [hget, if_neg (by decide), total_fetch, if_pos hnofs]
        exact total_pure.mpr ⟨by decide, hroom1⟩

/-- **With room `fopen` returns 0 then.** -/
theorem fopen (h : OpensNothing s filename n) (hwf : s.WF) (hroom : Spacious s.heap (n + k)) :
    Total (fopen filename [0x72]) s fun fd s' => fd = 0 ∧ Spacious s'.heap k := by
  have hnothing : ∀ {m : Nat}, Total (fopenPrivate filename [0x72]) s (fun r s' => r.1 < 0 ∧ Spacious s'.heap m) →
      k ≤ m → Total (RasOS.fopen filename [0x72]) s fun fd s' => fd = 0 ∧ Spacious s'.heap k := by
    rintro m ⟨⟨res, filesystem, priv⟩, s1, hrun, hneg, hroom1⟩ hle
    have hopen : openFile filename [0x72] s = some (⟨0, 0, {}⟩, s1) := by
      rw [openFile, bind_of_some hrun]
      exact congrFun (if_pos hneg) s1
    rw [← openFile_fopen, total_bind_of_some hopen]
    exact total_pure.mpr ⟨rfl, hroom1.mono hle⟩
  have hroom' : ∀ {cost : Nat}, Spacious s.heap (openBlocks filename cost + k) →
      Spacious s.heap (parseBlocks filename + (1 + (cost + (1 + k)))) := by
    intro cost hroom
    rw [openBlocks, Nat.add_assoc, Nat.add_assoc, Nat.add_assoc] at hroom
    exact hroom
  cases h with
  | path h => exact hnothing (fopenPrivate_path hwf h hroom) (Nat.le_refl k)
  | missing image priv L cost h =>
      exact hnothing (total_fopenPrivate hwf (h.walked (hroom' hroom)) h.tree h.walk
        (fun heq => WalkEnd.noConfusion heq) (hroom' hroom)) (Nat.le_add_left k 1)
  | full image priv L cost entry h hfull =>
      -- the item is made, but no slot is left for the descriptor
      obtain ⟨⟨res, filesystem, private_data⟩, s1, hprivate, ⟨hok, -⟩, hroom1⟩ :=
        total_fopenPrivate hwf (h.walked (hroom' hroom)) h.tree h.walk (fun heq => WalkEnd.noConfusion heq)
          (hroom' hroom)
      obtain rfl : res = OK := hok
      obtain ⟨hgrown, -⟩ := fopenPrivate_new filename [0x72] hwf _ _ hprivate
      obtain ⟨f, s2, hnew, hroom2⟩ := total_newFile filesystem private_data hgrown.wf hroom1
      rcases newFile_spec filesystem private_data hgrown.wf _ _ hnew with ⟨hneg, -, -⟩ | ⟨slot, hlt, hfirst, -⟩
      swap
      · have hfree := hfirst.1
        rw [hgrown.slots] at hfree
        exact absurd ⟨slot, hlt, hfree⟩ hfull
      have hnot : ¬ (OK : Int) < 0 := by decide
      have hopen : openFile filename [0x72] s = some (⟨0, 0, {}⟩, s2) := by
        rw [openFile, bind_of_some hprivate]
        dsimp only
        rw [if_neg hnot, bind_of_some hnew, if_pos hneg]
        rfl
      rw [← openFile_fopen, total_bind_of_some hopen]
      exact total_pure.mpr ⟨rfl, hroom2⟩

end OpensNothing

end RasOS
