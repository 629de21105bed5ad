import RasOS.Fs.EntryWalk
import RasOS.Fs.Opening
import RasOS.Lib.Run

set_option autoImplicit false

/-! # The descriptor table

A run of `fopen` and `fclose` keeps the descriptors apart: each open `fd` stands for the descriptor
that its `fopen` has created, and closing it touches no other. The table is searched from slot 0,
`fd` is the slot plus 1, and `file_get_descriptor` refuses `fd` 512, so the last slot must stay
unused. -/

namespace RasOS

open Machine

/-! ## Opening a file, with the descriptor it creates -/

/-- `fopen` up to `file_new_descriptor`: an error, or the file system and its private data. -/
def fopenPrivate (filename mode_str : List UInt8) : KernelM (Int × Option FileSystem × UInt32) := do
  let root_path ← pathparserParse filename
  if root_path = 0 then
    return (- EINVARG, none, 0)
  else do
    let root ← load pathRootK root_path
    if root.first = 0 then
      return (- EINVARG, none, 0)
    else if !diskGet root.drive_number then
      return (- EIO, none, 0)
    else do
      let filesystem ← fetch fun s => s.disk.filesystem
      if filesystem = none then
        return (- EIO, none, 0)
      else
        let mode := fileGetModeByString mode_str
        if mode = FILE_MODE_INVALID then
          return (- EINVARG, none, 0)
        else do
          let descriptor_private_data ← fat16Open root.first mode
          if ISERR descriptor_private_data then
            return (signed descriptor_private_data, none, 0)
          else
            return (OK, filesystem, descriptor_private_data)

/-- An open file: the number, the descriptor and what the descriptor holds. -/
structure OpenFile where
  fd : Int
  descriptor : UInt32
  desc : FileDescriptor
  deriving DecidableEq

/-- The rest of `fopen`, with the descriptor created. -/
def newFile (filesystem : Option FileSystem) (descriptor_private_data : UInt32) : KernelM OpenFile := do
  let (res, descriptor) ← fileNewDescriptor
  if res < 0 then
    return ⟨res, 0, {}⟩
  else do
    let d ← load fileDescriptorK descriptor
    let desc := { d with filesystem := filesystem, private_data := descriptor_private_data }
    store fileDescriptorK descriptor desc
    return ⟨d.index, descriptor, desc⟩

/-- `fopen`, with the descriptor it has created. -/
def openFile (filename mode_str : List UInt8) : KernelM OpenFile := do
  let (res, filesystem, descriptor_private_data) ← fopenPrivate filename mode_str
  if res < 0 then
    return ⟨0, 0, {}⟩
  else do
    let f ← newFile filesystem descriptor_private_data
    return if f.fd < 0 then ⟨0, 0, {}⟩ else f

theorem fopenRes_eq (filename mode_str : List UInt8) :
    fopenRes filename mode_str = (do
      let (res, filesystem, descriptor_private_data) ← fopenPrivate filename mode_str
      if res < 0 then
        return res
      else do
        let f ← newFile filesystem descriptor_private_data
        return f.fd) := by
  have hinvarg : (- EINVARG : Int) < 0 := by decide
  have hio : (- EIO : Int) < 0 := by decide
  have hok : ¬ (OK : Int) < 0 := by decide
  unfold fopenRes fopenPrivate newFile
  simp only [bind_assoc, ite_bind, pure_bind, if_pos hinvarg, if_pos hio, if_neg hok]
  -- the two sides differ only where `fat16_open` has returned an error
  congr! 14
  rename_i herr
  exact (if_pos (of_decide_eq_true herr)).symm

/-- It is `fopen`. -/
theorem openFile_fopen (filename mode_str : List UInt8) :
    (do let f ← openFile filename mode_str; return f.fd) = fopen filename mode_str := by
  unfold fopen openFile
  rw [fopenRes_eq]
  simp only [bind_assoc, ite_bind, pure_bind]
  congr 1
  funext r
  by_cases hres : r.1 < 0
  · simp only [if_pos hres]
  · simp only [if_neg hres]
    congr 1
    funext f
    split <;> rfl

theorem fopenPrivate_new (filename mode_str : List UInt8) {s : Kernel} (hwf : s.WF) :
    Ensures (fopenPrivate filename mode_str) s fun r s' => Grown s s' ∧ (r.1 < 0 ∨
      r.1 = OK ∧ r.2.1 = some .fat16 ∧ ∃ item, NewPrivate s r.2.2 s' item) := by
  have herr : ∀ (res : Int) (t : Kernel), res < 0 → Grown s t →
      Ensures (Pure.pure (res, none, 0) : KernelM (Int × Option FileSystem × UInt32)) t fun r s' =>
        Grown s s' ∧ (r.1 < 0 ∨ r.1 = OK ∧ r.2.1 = some .fat16 ∧ ∃ item, NewPrivate s r.2.2 s' item) :=
    fun res t hres ht => Ensures.pure ⟨ht, Or.inl hres⟩
  unfold fopenPrivate
  refine Ensures.bind (pathparserParse_grown hwf filename) ?_
  intro root_path s1 h1
  refine Ensures.ite (fun _ => herr _ _ (by decide) h1) fun _ => ?_
  refine ensures_load fun root _ => Ensures.ite (fun _ => herr _ _ (by decide) h1) fun _ => ?_
  refine Ensures.ite (fun _ => herr _ _ (by decide) h1) fun _ => ensures_fetch ?_
  refine Ensures.ite (fun _ => herr _ _ (by decide) h1) fun hfs => ?_
  have hfat := filesystem_of_ne_none hfs
  refine Ensures.ite (fun _ => herr _ _ (by decide) h1) fun _ => ?_
  refine Ensures.bind (fat16Open_new root.first _ h1.wf) ?_
  rintro priv s2 ⟨h2, hpriv⟩
  refine Ensures.ite (fun hiserr => ?_) fun hiserr => ?_
  · exact herr _ _ (of_decide_eq_true hiserr) (h1.trans h2)
  · obtain ⟨item, hnew⟩ := hpriv (Bool.eq_false_iff.mpr hiserr)
    refine Ensures.pure ⟨h1.trans h2, Or.inr ⟨rfl, hfat, item, h1.fresh hnew.fresh, hnew.live, ?_⟩⟩
    exact fun objects howns q hq => h1.fresh (hnew.objects objects howns q hq)

/-- What opening a file comes to: private data of an item for the entry, or an error. -/
def Opens (image : Nat → Sector) (out : WalkEnd) (r : Int × Option FileSystem × UInt32) (s' : Kernel) : Prop :=
  match out with
  | .entry e => r.1 = OK ∧ PrivateMade image (.entry e) r.2.2 s'
  | _ => r.1 < 0

/-- **With room for the walk `fopen` gets to its private data**, or to an error. -/
theorem total_fopenPrivate {image : Nat → Sector} {priv : FatPrivate} {s : Kernel} {filename mode_str : List UInt8}
    {L : Listing} {cost k : Nat} {out : WalkEnd} (hwf : s.WF) (hwalked : ¬ Unwalked s filename mode_str)
    (htree : TreeReady s image priv L) (hwalk : WalkFrom image L (partsOf (filename.drop 3)) cost out)
    (hout : out ≠ .astray) (hroom : Spacious s.heap (parseBlocks filename + (1 + (cost + k)))) :
    Total (fopenPrivate filename mode_str) s fun r s' => Opens image out r s' ∧ Spacious s'.heap k := by
  obtain ⟨r, s1, hparse⟩ := parses hwf (.of_spacious hroom)
  have hrun := hparse.run
  rw [Trace.erase_pathparserParse] at hrun
  obtain ⟨htree1, hroom1, root, hr, hroot, hfirst, hget, hfs, hmode, hchain, hshort⟩ :=
    hparse.reaches hwalked htree hroom
  have hopen := (sound_fat16Open htree1 hchain hshort hwalk hout hroom1).1
  rw [Trace.erase_fat16Open] at hopen
  rw [fopenPrivate, total_bind_of_some hrun, if_neg hr, total_load hroot, if_neg hfirst, hget,
    if_neg Bool.false_ne_true, total_fetch, if_neg hfs]
  dsimp only
  rw [hmode, if_neg (by decide)]
  refine hopen.bind fun ptr s2 hmade => ?_
  cases out with
  | astray => exact absurd rfl hout
  | null =>
      have herr : ISERR ptr = true := hmade.2
      rw [if_pos herr]
      exact total_pure.mpr ⟨show signed ptr < 0 from of_decide_eq_true herr, hmade.1⟩
  | entry e =>
      have hok : ISERR ptr = false := hmade.2.1
      rw [hok, if_neg Bool.false_ne_true]
      exact total_pure.mpr ⟨⟨rfl, hmade.2⟩, hmade.1⟩

/-- **Opening that comes to an end** does so there, with a block for the descriptor. -/
theorem Opening.fopenPrivate {s : Kernel} {filename mode_str : List UInt8} {out : WalkEnd}
    (h : Opening s filename mode_str out) (hwf : s.WF) :
    ∃ image, Total (RasOS.fopenPrivate filename mode_str) s fun r s' =>
      Opens image out r s' ∧ (∀ e, out = .entry e → Spacious s'.heap 1) := by
  cases h with
  | walked image priv L cost out hwalked htree hwalk hout hroom =>
      exact ⟨image, (total_fopenPrivate hwf hwalked htree hwalk hout hroom).mono fun _ _ h => ⟨h.1, fun _ _ => h.2⟩⟩
  | unwalked hbuffer hun =>
      obtain ⟨r, s1, hparse⟩ := parses hwf hbuffer
      have hrun := hparse.run
      rw [Trace.erase_pathparserParse] at hrun
      have herr : ∀ {t : Kernel} {r : Int × Option FileSystem × UInt32}, r.1 < 0 →
          Opens (fun _ _ => 0) .null r t ∧ (∀ e, WalkEnd.null = .entry e → Spacious t.heap 1) :=
        fun hneg => ⟨hneg, fun _ heq => WalkEnd.noConfusion heq⟩
      refine ⟨fun _ _ => 0, ?_⟩
      rw [RasOS.fopenPrivate, total_bind_of_some hrun]
      cases hparse.root with
      | null h0 hnot =>
          rw [if_pos h0]
          exact total_pure.mpr (herr (by decide : (- EINVARG : Int) < 0))
      | made root hvalid hparts hroot hdrive hfirst hchain =>
          rw [if_neg (hparse.grown.wf.ne_zero hroot), total_load hroot, if_neg hfirst]
          split
          · exact total_pure.mpr (herr (by decide : (- EIO : Int) < 0))
          rename_i hget
          rw [total_fetch]
          split
          · exact total_pure.mpr (herr (by decide : (- EIO : Int) < 0))
          rename_i hfs
          dsimp only
          split
          · exact total_pure.mpr (herr (by decide : (- EINVARG : Int) < 0))
          have hrefused := (sound_fat16Open_refused hparse.grown.wf root.first
            (hparse.refused hun hvalid hparts hdrive hget hfs)).1
          rw [Trace.erase_fat16Open] at hrefused
          refine hrefused.bind fun priv s2 hiserr => ?_
          rw [if_pos hiserr]
          exact total_pure.mpr (herr (show signed priv < 0 from of_decide_eq_true hiserr))

/-- A new descriptor has been put into the first free slot. -/
structure NewFile (s : Kernel) (filesystem : Option FileSystem) (priv : UInt32) (slot : Nat)
    (f : OpenFile) (s' : Kernel) : Prop where
  wf : s'.WF
  fd : f.fd = slot + 1
  desc : f.desc = { index := slot + 1, filesystem := filesystem, private_data := priv }
  slots : s'.file_descriptors = Function.update s.file_descriptors slot f.descriptor
  fresh : s.live f.descriptor = none
  live : s'.live f.descriptor = some (fileDescriptorK.inj f.desc)
  others : ∀ ptr, ptr ≠ f.descriptor → s'.live ptr = s.live ptr

theorem newFile_spec (filesystem : Option FileSystem) (priv : UInt32) {s : Kernel} (hwf : s.WF) :
    Ensures (newFile filesystem priv) s fun f s' =>
      (f.fd < 0 ∧ s' = s ∧ ∀ j, j < RASOS_MAX_FILEDESCRIPTORS → s.file_descriptors j ≠ 0) ∨
      ∃ slot, slot < RASOS_MAX_FILEDESCRIPTORS ∧ FirstFree s slot ∧
        NewFile s filesystem priv slot f s' := by
  unfold newFile
  refine Ensures.bind (fileNewDescriptorLoop_spec RASOS_MAX_FILEDESCRIPTORS 0 s hwf
    fun j hj => absurd hj (Nat.not_lt_zero j)) ?_
  rintro ⟨res, descriptor⟩ s1 hnew
  rcases hnew with ⟨hneg, rfl, hfull⟩ | ⟨hok, slot, hlt, hfirst, hnew⟩
  · refine Ensures.ite (fun _ => ?_) fun hpos => absurd hneg hpos
    exact Ensures.pure (Or.inl ⟨hneg, rfl, fun j hj => hfull j (by omega)⟩)
  · obtain rfl : res = OK := hok
    refine Ensures.ite (fun hneg => absurd hneg (by decide)) fun _ => ?_
    refine ensures_load fun d hd => ensures_store fun _ _ => ?_
    rw [hnew.live] at hd
    obtain rfl := fileDescriptorK.inj_injective (Option.some.inj hd)
    refine Ensures.pure (Or.inr ⟨slot, by omega, hfirst, ?_⟩)
    refine ⟨hnew.wf.write hnew.live _, rfl, rfl, hnew.slots, hnew.fresh, Kind.write_self .., ?_⟩
    exact fun ptr hne => (Kind.write_of_ne _ _ _ hne).trans (hnew.others ptr hne)

/-- With a free block `file_new_descriptor` returns. -/
theorem total_fileNewDescriptorLoop {k : Nat} : ∀ (remaining i : Nat) {s : Kernel}, s.WF →
    Spacious s.heap (1 + k) → Total (fileNewDescriptorLoop remaining i) s fun _ s' => Spacious s'.heap k := by
  intro remaining
  induction remaining with
  | zero => exact fun _ _ _ hroom => total_pure.mpr (hroom.mono (Nat.le_add_left k 1))
  | succ remaining ih =>
      intro i s hwf hroom
      rw [fileNewDescriptorLoop, total_fetch]
      split
      · obtain ⟨desc, s1, hrun, -, -, -, hlive, hroom1⟩ :=
          kzalloc_spacious fileDescriptorK SIZEOF_FILE_DESCRIPTOR {} hwf (by decide) hroom
        rw [total_bind_of_some hrun, total_store hlive, total_assign]
        exact total_pure.mpr hroom1
      · exact ih (i + 1) hwf hroom

/-- It returns an error or a live descriptor. -/
theorem total_fileNewDescriptor {k : Nat} {s : Kernel} (hwf : s.WF) (hroom : Spacious s.heap (1 + k)) :
    Total fileNewDescriptor s fun r s' =>
      Spacious s'.heap k ∧ (r.1 < 0 ∨ ∃ d, s'.live r.2 = some (fileDescriptorK.inj d)) := by
  obtain ⟨r, s1, hrun, hroom1⟩ := total_fileNewDescriptorLoop RASOS_MAX_FILEDESCRIPTORS 0 hwf hroom
  have hspec := fileNewDescriptorLoop_spec RASOS_MAX_FILEDESCRIPTORS 0 s hwf
    (fun j hj => absurd hj (Nat.not_lt_zero j)) _ _ hrun
  refine ⟨r, s1, hrun, hroom1, ?_⟩
  rcases hspec with ⟨hneg, -, -⟩ | ⟨-, slot, -, -, hdesc⟩
  · exact Or.inl hneg
  · exact Or.inr ⟨_, hdesc.live⟩

theorem total_newFile {k : Nat} (filesystem : Option FileSystem) (priv : UInt32) {s : Kernel} (hwf : s.WF)
    (hroom : Spacious s.heap (1 + k)) : Total (newFile filesystem priv) s fun _ s' => Spacious s'.heap k := by
  refine (total_fileNewDescriptor hwf hroom).bind ?_
  rintro ⟨res, descriptor⟩ s1 ⟨hroom1, hnew⟩
  dsimp only
  split
  · exact total_pure.mpr hroom1
  rename_i hpos
  obtain ⟨d, hd⟩ := hnew.resolve_left hpos
  rw [total_load hd, total_store hd]
  exact total_pure.mpr hroom1

/-- What `fopen` does: it creates no descriptor, or one in the first free slot. -/
inductive OpenRun (filename mode_str : List UInt8) (s : Kernel) : OpenFile → Kernel → Prop
  | failed (s' : Kernel) (hgrown : Grown s s')
      (hfull : ∀ filesystem priv s1,
        fopenPrivate filename mode_str s = some ((OK, filesystem, priv), s1) →
        ∀ slot, slot < RASOS_MAX_FILEDESCRIPTORS → ¬ FirstFree s slot) :
      OpenRun filename mode_str s ⟨0, 0, {}⟩ s'
  | created (priv item : UInt32) (s1 : Kernel) (slot : Nat) (f : OpenFile) (s' : Kernel)
      (hprivate : fopenPrivate filename mode_str s = some ((OK, some .fat16, priv), s1))
      (hgrown : Grown s s1) (hnew : NewPrivate s priv s1 item)
      (hslot : slot < RASOS_MAX_FILEDESCRIPTORS) (hfirst : FirstFree s slot)
      (hfile : NewFile s1 (some .fat16) priv slot f s') : OpenRun filename mode_str s f s'

theorem openFile_cases (filename mode_str : List UInt8) {s : Kernel} (hwf : s.WF) :
    Ensures (openFile filename mode_str) s (OpenRun filename mode_str s) := by
  unfold openFile
  refine Ensures.bind (Q := fun r s1 => fopenPrivate filename mode_str s = some (r, s1) ∧
    Grown s s1 ∧ (r.1 < 0 ∨ r.1 = OK ∧ r.2.1 = some .fat16 ∧ ∃ item, NewPrivate s r.2.2 s1 item))
    (fun r s1 h => ⟨h, fopenPrivate_new filename mode_str hwf r s1 h⟩) ?_
  rintro ⟨res, filesystem, priv⟩ s1 ⟨hprivate, hgrown, hres⟩
  refine Ensures.ite (fun hneg => ?_) fun hpos => ?_
  · refine Ensures.pure (.failed s1 hgrown fun filesystem' priv' s1' hprivate' => ?_)
    obtain ⟨h, -⟩ := Prod.mk.inj (Option.some.inj (hprivate.symm.trans hprivate'))
    obtain rfl : res = OK := congrArg Prod.fst h
    exact absurd hneg (by decide)
  rcases hres with hneg | ⟨hok, hfat, item, hnew⟩
  · exact absurd hneg hpos
  obtain rfl : res = OK := hok
  obtain rfl : filesystem = some .fat16 := hfat
  have hfree : ∀ slot, FirstFree s1 slot ↔ FirstFree s slot := by
    intro slot
    unfold FirstFree
    rw [hgrown.slots]
  refine Ensures.bind (newFile_spec (some .fat16) priv hgrown.wf) ?_
  rintro f s' (⟨hneg, rfl, hfull⟩ | ⟨slot, hlt, hfirst, hfile⟩)
  · rw [if_pos hneg]
    refine Ensures.pure (.failed s' hgrown fun _ _ _ _ slot hslot hfirst => ?_)
    exact hfull slot hslot ((hfree slot).mpr hfirst).1
  · rw [if_neg (by rw [hfile.fd]; omega)]
    exact Ensures.pure (.created priv item s1 slot f s' hprivate hgrown hnew hlt
      ((hfree slot).mp hfirst) hfile)

/-! ## What the open files own -/

namespace OpenFile

/-- The objects of an open file, in the order in which they are freed. -/
def Owns (s : Kernel) (f : OpenFile) (ptrs : List UInt32) : Prop :=
  ∃ d objects, DescriptorOwns s f.descriptor f.desc d objects ∧
    ptrs = objects ++ [f.desc.private_data, f.descriptor]

variable {s s' : Kernel} {f : OpenFile} {ptrs ptrs' : List UInt32}

theorem Owns.allLive (h : f.Owns s ptrs) : AllLive s ptrs := by
  obtain ⟨d, objects, hdesc, rfl⟩ := h
  exact hdesc.allLive

theorem Owns.congr (h : f.Owns s ptrs) (hlive : ∀ q ∈ ptrs, s'.live q = s.live q) :
    f.Owns s' ptrs := by
  obtain ⟨d, objects, hdesc, rfl⟩ := h
  exact ⟨d, objects, hdesc.congr hlive, rfl⟩

theorem Owns.unique (h : f.Owns s ptrs) (h' : f.Owns s ptrs') : ptrs = ptrs' := by
  obtain ⟨d, objects, hdesc, rfl⟩ := h
  obtain ⟨d', objects', hdesc', rfl⟩ := h'
  have heq := hdesc.private_data.symm.trans hdesc'.private_data
  obtain rfl := fatFileDescriptorK.inj_injective (Option.some.inj heq)
  rw [Option.some.inj (hdesc.item.objects.symm.trans hdesc'.item.objects)]

/-- An open file owns no streams, so it is as it was. -/
theorem Owns.kept (h : f.Owns s ptrs) (hgrown : Grown s s') : ∀ q ∈ ptrs, s'.live q = s.live q := by
  obtain ⟨d, objects, hdesc, rfl⟩ := h
  have hkeep : ∀ q o, s.live q = some o → (∀ st, o ≠ .diskStream st) → s'.live q = s.live q :=
    fun q o ho hst => (hgrown.object q o ho hst).trans ho.symm
  intro q hq
  rcases List.mem_append.mp hq with hq | hq
  · obtain ⟨o, ho, hkind⟩ := hdesc.item.isItem q hq
    refine hkeep q o ho fun st heq => ?_
    rw [heq] at hkind
    cases hkind
  · simp only [List.mem_cons, List.not_mem_nil, or_false] at hq
    rcases hq with rfl | rfl
    · exact hkeep _ _ hdesc.private_data fun _ heq => Obj.noConfusion heq
    · exact hkeep _ _ hdesc.live fun _ heq => Obj.noConfusion heq

end OpenFile

/-- What a new file owns was not there before. -/
theorem NewFile.owns {s s1 s' : Kernel} {priv item : UInt32} {slot : Nat} {f : OpenFile} {objects : List UInt32}
    (h : NewFile s1 (some .fat16) priv slot f s') (hgrown : Grown s s1) (hnew : NewPrivate s priv s1 item)
    (hobjects : ItemOwns s1 item objects) : f.Owns s' (objects ++ [f.desc.private_data, f.descriptor]) ∧
      ∀ q ∈ objects ++ [f.desc.private_data, f.descriptor], s.live q = none := by
  have hkeep : ∀ q o, s1.live q = some o → s'.live q = s1.live q := fun q o ho =>
    h.others q (Grown.ne_of_fresh h.fresh ho)
  constructor
  · refine ⟨{ item := item, pos := 0 }, objects, ⟨h.live, ?_, ?_, ?_⟩, rfl⟩
    · rw [h.desc]
    · rw [h.desc]
      exact (hkeep _ _ hnew.live).trans hnew.live
    · refine hobjects.congr fun q hq => ?_
      obtain ⟨o, ho⟩ := hobjects.allLive.live q hq
      exact hkeep q o ho
  · intro q hq
    rcases List.mem_append.mp hq with hq | hq
    · exact hnew.objects objects hobjects q hq
    · simp only [List.mem_cons, List.not_mem_nil, or_false] at hq
      rcases hq with rfl | rfl
      · rw [h.desc]
        exact hnew.fresh
      · exact hgrown.fresh h.fresh


/-- No two open files share an object. -/
structure Parted (s : Kernel) (opened : List OpenFile) : Prop where
  owns : ∀ f ∈ opened, ∃ ptrs, f.Owns s ptrs
  apart : ∀ f ∈ opened, ∀ f' ∈ opened, f.fd ≠ f'.fd → ∀ ptrs ptrs', f.Owns s ptrs →
    f'.Owns s ptrs' → ∀ q ∈ ptrs, q ∉ ptrs'

namespace Parted

variable {s s' : Kernel} {opened opened' : List OpenFile}

theorem congr (h : Parted s opened) (hsub : ∀ f ∈ opened', f ∈ opened)
    (hkeep : ∀ f ∈ opened', ∀ ptrs, f.Owns s ptrs → ∀ q ∈ ptrs, s'.live q = s.live q) :
    Parted s' opened' := by
  have hback : ∀ f ∈ opened', ∀ ptrs, f.Owns s' ptrs → f.Owns s ptrs := by
    intro f hf ptrs hptrs
    obtain ⟨ptrs0, h0⟩ := h.owns f (hsub f hf)
    rwa [hptrs.unique (h0.congr (hkeep f hf ptrs0 h0))]
  refine ⟨fun f hf => ?_, fun f hf f' hf' hne ptrs ptrs' hptrs hptrs' => ?_⟩
  · obtain ⟨ptrs, hptrs⟩ := h.owns f (hsub f hf)
    exact ⟨ptrs, hptrs.congr (hkeep f hf ptrs hptrs)⟩
  · exact h.apart f (hsub f hf) f' (hsub f' hf') hne ptrs ptrs' (hback f hf ptrs hptrs)
      (hback f' hf' ptrs' hptrs')

theorem cons (h : Parted s opened) {f : OpenFile} {ptrs : List UInt32} (hf : f.Owns s ptrs)
    (hnew : ∀ f' ∈ opened, ∀ ptrs', f'.Owns s ptrs' → ∀ q ∈ ptrs, q ∉ ptrs') :
    Parted s (f :: opened) := by
  refine ⟨fun f' hf' => ?_, fun f1 hf1 f2 hf2 hne ptrs1 ptrs2 hptrs1 hptrs2 q hq hq' => ?_⟩
  · rcases List.mem_cons.mp hf' with rfl | hf'
    · exact ⟨ptrs, hf⟩
    · exact h.owns f' hf'
  · rcases List.mem_cons.mp hf1 with heq1 | hmem1
    · subst heq1
      rw [hptrs1.unique hf] at hq
      rcases List.mem_cons.mp hf2 with heq2 | hmem2
      · exact hne (congrArg OpenFile.fd heq2.symm)
      · exact hnew f2 hmem2 ptrs2 hptrs2 q hq hq'
    · rcases List.mem_cons.mp hf2 with heq2 | hmem2
      · subst heq2
        rw [hptrs2.unique hf] at hq'
        exact hnew f1 hmem1 ptrs1 hptrs1 q hq' hq
      · exact h.apart f1 hmem1 f2 hmem2 hne ptrs1 ptrs2 hptrs1 hptrs2 q hq hq'

end Parted

/-! ## Runs -/

/-- A call that opens or closes a file. -/
inductive TableCall
  | fopen (filename mode_str : List UInt8)
  | fclose (fd : Int)

/-- The kernel, and the files that have been opened and not closed. -/
structure Files where
  kernel : Kernel
  opened : List OpenFile

def filesStep (st : Files) : TableCall → Option Files
  | .fopen filename mode_str =>
      (openFile filename mode_str st.kernel).map fun r =>
        ⟨r.2, if r.1.fd = 0 then st.opened else r.1 :: st.opened⟩
  | .fclose fd =>
      (fclose fd st.kernel).map fun r =>
        ⟨r.2, if r.1 = OK then st.opened.filter fun f => f.fd ≠ fd else st.opened⟩

/-- `f` is still found, with all its objects as they were. -/
structure Untouched (s s' : Kernel) (f : OpenFile) : Prop where
  lookup : fileGetDescriptor f.fd s' = some (f.descriptor, s')
  objects : ∃ ptrs, f.Owns s ptrs ∧ ∀ q ∈ ptrs, s'.live q = s.live q

/-- Closing `f` succeeds, frees its slot and touches no other open file. -/
def ClosesAlone (s : Kernel) (opened : List OpenFile) (f : OpenFile) : Prop :=
  Total (fclose f.fd) s fun res s' => res = OK ∧
    s'.file_descriptors = Function.update s.file_descriptors (f.fd - 1).toNat 0 ∧
    ∀ f' ∈ opened, f'.fd ≠ f.fd → Untouched s s' f'

/-- The descriptor table does what it is for. -/
structure Consistent (st : Files) : Prop where
  distinct : (st.opened.map OpenFile.fd).Nodup
  lookup : ∀ f ∈ st.opened, fileGetDescriptor f.fd st.kernel = some (f.descriptor, st.kernel)
  created : ∀ f ∈ st.opened, st.kernel.live f.descriptor = some (fileDescriptorK.inj f.desc)
  closes : ∀ f ∈ st.opened, ClosesAlone st.kernel st.opened f

/-- A call does not hand out the last slot, nor an item that has lost what it should hold. -/
def HandsOutWell (st : Files) : TableCall → Prop
  | .fopen filename mode_str => ∀ filesystem priv s1,
      fopenPrivate filename mode_str st.kernel = some ((OK, filesystem, priv), s1) →
      ∀ slot, slot < RASOS_MAX_FILEDESCRIPTORS → FirstFree st.kernel slot →
        slot + 1 < RASOS_MAX_FILEDESCRIPTORS ∧
        ∃ d, s1.live priv = some (fatFileDescriptorK.inj d) ∧ itemObjects s1 d.item ≠ none
  | .fclose _ => True

/-- The open files and the table belong together. -/
structure Tracked (st : Files) : Prop where
  wf : st.kernel.WF
  distinct : (st.opened.map OpenFile.fd).Nodup
  slot : ∀ f ∈ st.opened, ∃ i : Nat, i + 1 < RASOS_MAX_FILEDESCRIPTORS ∧ f.fd = i + 1 ∧
    f.desc.index = i + 1 ∧ st.kernel.file_descriptors i = f.descriptor
  only : ∀ i : Nat, i + 1 < RASOS_MAX_FILEDESCRIPTORS → st.kernel.file_descriptors i ≠ 0 →
    ∃ f ∈ st.opened, f.fd = i + 1
  parted : Parted st.kernel st.opened

namespace Tracked

variable {st : Files}

theorem lookup (h : Tracked st) {f : OpenFile} (hf : f ∈ st.opened) :
    fileGetDescriptor f.fd st.kernel = some (f.descriptor, st.kernel) := by
  obtain ⟨i, hi, hfd, -, hslot⟩ := h.slot f hf
  rw [fileGetDescriptor, hfd, if_neg (by omega), fetch_apply, ← hslot]
  congr 3
  omega

theorem fclose_eq (h : Tracked st) {f : OpenFile} (hf : f ∈ st.opened) {ptrs : List UInt32}
    (hptrs : f.Owns st.kernel ptrs) :
    fclose f.fd st.kernel = some (OK, { freedAll ptrs st.kernel with
      file_descriptors := Function.update st.kernel.file_descriptors (f.fd - 1).toNat 0 }) := by
  obtain ⟨i, hi, hfd, hindex, hslot⟩ := h.slot f hf
  obtain ⟨d, objects, hdesc, rfl⟩ := hptrs
  rw [hdesc.fclose (h.lookup hf) (h.wf.ne_zero hdesc.live), hindex, hfd]

/-- What is left when `f` is closed. -/
theorem untouched (h : Tracked st) {f f' : OpenFile} (hf : f ∈ st.opened) (hf' : f' ∈ st.opened)
    (hne : f'.fd ≠ f.fd) {ptrs ptrs' : List UInt32} (hptrs : f.Owns st.kernel ptrs)
    (hptrs' : f'.Owns st.kernel ptrs') :
    ∀ q ∈ ptrs', (freedAll ptrs st.kernel).live q = st.kernel.live q := by
  intro q hq
  rw [freedAll_live, if_neg (h.parted.apart f' hf' f hf hne ptrs' ptrs hptrs' hptrs q hq)]

/-- The slot of another open file. -/
theorem slot_update (h : Tracked st) {f f' : OpenFile} (hf : f ∈ st.opened)
    (hne : f'.fd ≠ f.fd) {i : Nat} (hi : f'.fd = i + 1) :
    Function.update st.kernel.file_descriptors (f.fd - 1).toNat 0 i = st.kernel.file_descriptors i := by
  obtain ⟨j, -, hfd, -⟩ := h.slot f hf
  refine Function.update_of_ne ?_ ..
  omega

theorem consistent (h : Tracked st) : Consistent st where
  distinct := h.distinct
  lookup := fun f hf => h.lookup hf
  created := by
    intro f hf
    obtain ⟨ptrs, d, objects, hdesc, -⟩ := h.parted.owns f hf
    exact hdesc.live
  closes := by
    intro f hf
    obtain ⟨ptrs, hptrs⟩ := h.parted.owns f hf
    refine ⟨OK, _, h.fclose_eq hf hptrs, rfl, rfl, fun f' hf' hne => ?_⟩
    obtain ⟨ptrs', hptrs'⟩ := h.parted.owns f' hf'
    obtain ⟨i, hi, hfd, -, hslot⟩ := h.slot f' hf'
    refine ⟨?_, ptrs', hptrs', h.untouched hf hf' hne hptrs hptrs'⟩
    rw [fileGetDescriptor, if_neg (by omega), fetch_apply]
    have htoNat : (f'.fd - 1).toNat = i := by omega
    rw [htoNat]
    dsimp only
    rw [h.slot_update hf hne hfd, hslot]

/-! ## Steps -/

theorem fclose (h : Tracked st) {f : OpenFile} (hf : f ∈ st.opened) {ptrs : List UInt32}
    (hptrs : f.Owns st.kernel ptrs) :
    Tracked ⟨{ freedAll ptrs st.kernel with
      file_descriptors := Function.update st.kernel.file_descriptors (f.fd - 1).toNat 0 },
      st.opened.filter fun f' => f'.fd ≠ f.fd⟩ := by
  have hmem : ∀ f', f' ∈ st.opened.filter (fun f' => f'.fd ≠ f.fd) ↔
      f' ∈ st.opened ∧ f'.fd ≠ f.fd := by
    intro f'
    rw [List.mem_filter, decide_eq_true_iff]
  refine ⟨(h.wf.freedAll hptrs.allLive).of_live rfl fun _ o ho => ⟨o, ho⟩, ?_, ?_, ?_, ?_⟩
  · exact h.distinct.sublist (List.filter_sublist.map _)
  · intro f' hf'
    obtain ⟨hf', hne⟩ := (hmem f').mp hf'
    obtain ⟨i, hi, hfd, hindex, hslot⟩ := h.slot f' hf'
    exact ⟨i, hi, hfd, hindex, (h.slot_update hf hne hfd).trans hslot⟩
  · intro i hi hslot
    obtain ⟨j, -, hfd, -⟩ := h.slot f hf
    have hij : i ≠ (f.fd - 1).toNat := by
      rintro rfl
      exact hslot (Function.update_self ..)
    obtain ⟨f', hf', hfd'⟩ := h.only i hi ((Function.update_of_ne hij ..).symm.trans_ne hslot)
    exact ⟨f', (hmem f').mpr ⟨hf', by omega⟩, hfd'⟩
  · refine h.parted.congr (fun f' hf' => ((hmem f').mp hf').1) fun f' hf' ptrs' hptrs' => ?_
    obtain ⟨hf', hne⟩ := (hmem f').mp hf'
    exact h.untouched hf hf' hne hptrs hptrs'

/-- No other descriptor can be closed. -/
theorem fclose_other (h : Tracked st) {fd : Int} (hfd : ∀ f ∈ st.opened, f.fd ≠ fd) :
    RasOS.fclose fd st.kernel = some (- EINVARG, st.kernel) := by
  have hget : fileGetDescriptor fd st.kernel = some (0, st.kernel) := by
    unfold fileGetDescriptor
    split
    · rfl
    · rw [fetch_apply]
      by_cases hslot : st.kernel.file_descriptors (fd - 1).toNat = 0
      · rw [hslot]
      · obtain ⟨f, hf, hf_fd⟩ := h.only (fd - 1).toNat (by omega) hslot
        exact absurd (by omega) (hfd f hf)
  unfold RasOS.fclose
  rw [bind_of_some hget, if_pos rfl]
  rfl

/-- The kernel has changed, but no open file. -/
theorem grown (h : Tracked st) {s : Kernel} (hgrown : Grown st.kernel s) : Tracked ⟨s, st.opened⟩ where
  wf := hgrown.wf
  distinct := h.distinct
  slot := by
    rw [hgrown.slots]
    exact h.slot
  only := by
    rw [hgrown.slots]
    exact h.only
  parted := h.parted.congr (fun _ hf => hf) fun f _ ptrs hptrs => hptrs.kept hgrown

/-- A new file owns only what was not there before. -/
theorem created (h : Tracked st) {priv item : UInt32} {s1 s' : Kernel} {slot : Nat} {f : OpenFile}
    {objects : List UInt32} (hgrown : Grown st.kernel s1) (hnew : NewPrivate st.kernel priv s1 item)
    (hfirst : FirstFree st.kernel slot) (hfile : NewFile s1 (some .fat16) priv slot f s')
    (hslot : slot + 1 < RASOS_MAX_FILEDESCRIPTORS) (hobjects : ItemOwns s1 item objects) :
    Tracked ⟨s', f :: st.opened⟩ := by
  have h1 := h.grown hgrown
  have hkeep : ∀ q o, s1.live q = some o → s'.live q = s1.live q := fun q o ho =>
    hfile.others q (Grown.ne_of_fresh hfile.fresh ho)
  obtain ⟨howns, hfresh⟩ := hfile.owns hgrown hnew hobjects
  have hkept : ∀ f' ∈ st.opened, ∀ ptrs, f'.Owns s1 ptrs → ∀ q ∈ ptrs, s'.live q = s1.live q := by
    intro f' _ ptrs hptrs q hq
    obtain ⟨o, ho⟩ := hptrs.allLive.live q hq
    exact hkeep q o ho
  have hparted : Parted s' st.opened := h1.parted.congr (fun _ hf' => hf') hkept
  refine ⟨hfile.wf, ?_, ?_, ?_, hparted.cons howns fun f' hf' ptrs' hptrs' q hq hq' => ?_⟩
  · refine List.nodup_cons.mpr ⟨fun hmem => ?_, h.distinct⟩
    -- the slot of an open file is not free
    obtain ⟨f', hf', hfd⟩ := List.mem_map.mp hmem
    obtain ⟨i, hi, hfd', -, hslot'⟩ := h.slot f' hf'
    have hfd0 := hfile.fd
    obtain rfl : i = slot := by omega
    obtain ⟨ptrs, d, objects, hdesc, -⟩ := h.parted.owns f' hf'
    exact h.wf.ne_zero hdesc.live (hslot'.symm.trans hfirst.1)
  · intro f' hf'
    rcases List.mem_cons.mp hf' with rfl | hf'
    · refine ⟨slot, hslot, hfile.fd, ?_, ?_⟩
      · rw [hfile.desc]
      · show s'.file_descriptors slot = f'.descriptor
        rw [hfile.slots, Function.update_self]
    · obtain ⟨i, hi, hfd, hindex, hslot'⟩ := h1.slot f' hf'
      refine ⟨i, hi, hfd, hindex, ?_⟩
      show s'.file_descriptors i = f'.descriptor
      have hne : i ≠ slot := by
        rintro rfl
        obtain ⟨ptrs, d, objects, hdesc, -⟩ := h1.parted.owns f' hf'
        refine h1.wf.ne_zero hdesc.live (hslot'.symm.trans ?_)
        show s1.file_descriptors i = 0
        rw [hgrown.slots]
        exact hfirst.1
      rw [hfile.slots, Function.update_of_ne hne]
      exact hslot'
  · intro i hi hne
    by_cases hi' : i = slot
    · exact ⟨f, List.mem_cons_self, by rw [hfile.fd, hi']⟩
    · have hold : s1.file_descriptors i ≠ 0 := by
        intro h0
        refine hne ?_
        show s'.file_descriptors i = 0
        rw [hfile.slots, Function.update_of_ne hi', h0]
      obtain ⟨f', hf', hfd⟩ := h1.only i hi hold
      exact ⟨f', List.mem_cons_of_mem _ hf', hfd⟩
  · -- what another file owns was live before the call
    obtain ⟨ptrs0, hptrs0⟩ := h.parted.owns f' hf'
    have hptrs1 := hptrs0.congr (hptrs0.kept hgrown)
    rw [hptrs'.unique (hptrs1.congr (hkept f' hf' ptrs0 hptrs1))] at hq'
    obtain ⟨o, ho⟩ := hptrs0.allLive.live q hq'
    rw [hfresh q hq] at ho
    cases ho

theorem step (h : Tracked st) {call : TableCall} {st' : Files} (hgood : HandsOutWell st call)
    (hstep : filesStep st call = some st') : Tracked st' := by
  cases call with
  | fopen filename mode_str =>
      obtain ⟨⟨f, s'⟩, hrun, rfl⟩ := Option.map_eq_some_iff.mp hstep
      have hcases := openFile_cases filename mode_str h.wf f s' hrun
      cases hcases with
      | failed s' hgrown hfull => exact h.grown hgrown
      | created priv item s1 slot f s' hprivate hgrown hnew hslot hfirst hfile =>
          obtain ⟨hslot', d, hd, howns⟩ := hgood _ _ _ hprivate slot hslot hfirst
          rw [hnew.live] at hd
          obtain rfl := fatFileDescriptorK.inj_injective (Option.some.inj hd)
          obtain ⟨objects, hobjects⟩ := Option.ne_none_iff_exists'.mp howns
          have hne : f.fd ≠ 0 := by
            rw [hfile.fd]
            omega
          dsimp only
          rw [if_neg hne]
          exact h.created hgrown hnew hfirst hfile hslot' (itemObjects_cases hobjects)
  | fclose fd =>
      obtain ⟨⟨res, s'⟩, hrun, rfl⟩ := Option.map_eq_some_iff.mp hstep
      by_cases hopen : ∃ f ∈ st.opened, f.fd = fd
      · obtain ⟨f, hf, rfl⟩ := hopen
        obtain ⟨ptrs, hptrs⟩ := h.parted.owns f hf
        rw [h.fclose_eq hf hptrs] at hrun
        obtain ⟨rfl, rfl⟩ := Prod.mk.inj (Option.some.inj hrun)
        exact h.fclose hf hptrs
      · rw [h.fclose_other fun f hf hfd => hopen ⟨f, hf, hfd⟩] at hrun
        obtain ⟨rfl, rfl⟩ := Prod.mk.inj (Option.some.inj hrun)
        exact h

end Tracked

/-- A call that hands out the last slot, or an item that has lost what it should hold, leaves a file
that cannot be closed. -/
theorem Tracked.broken {st st' : Files} (h : Tracked st) {call : TableCall}
    (hbad : ¬ HandsOutWell st call) (hstep : filesStep st call = some st') : ¬ Consistent st' := by
  cases call with
  | fclose fd => exact absurd trivial hbad
  | fopen filename mode_str =>
      obtain ⟨⟨f, s'⟩, hrun, rfl⟩ := Option.map_eq_some_iff.mp hstep
      unfold HandsOutWell at hbad
      push Not at hbad
      obtain ⟨filesystem, priv, s1, hprivate, slot, hslot, hfirst, hlost⟩ := hbad
      have hcases := openFile_cases filename mode_str h.wf f s' hrun
      cases hcases with
      | failed s' hgrown hfull => exact absurd hfirst (hfull _ _ _ hprivate slot hslot)
      | created priv' item s1' slot' f s' hprivate' hgrown hnew hslot' hfirst' hfile =>
          obtain ⟨hpair, rfl⟩ := Prod.mk.inj (Option.some.inj (hprivate.symm.trans hprivate'))
          obtain rfl : priv = priv' := congrArg (fun r => r.2.2) hpair
          have hsame : slot = slot' := by
            rcases Nat.lt_trichotomy slot slot' with hlt | heq | hlt
            · exact absurd hfirst.1 (hfirst'.2 slot hlt)
            · exact heq
            · exact absurd hfirst'.1 (hfirst.2 slot' hlt)
          subst hsame
          have hfd : f.fd ≠ 0 := by
            rw [hfile.fd]
            omega
          dsimp only
          rw [if_neg hfd]
          intro hcons
          have hne : f.descriptor ≠ 0 := hfile.wf.ne_zero hfile.live
          have hlookup := hcons.lookup f List.mem_cons_self
          by_cases hlast : slot + 1 < RASOS_MAX_FILEDESCRIPTORS
          · -- the item cannot be freed
            have hpriv : s'.live f.desc.private_data =
                some (fatFileDescriptorK.inj { item := item, pos := 0 }) := by
              rw [hfile.desc]
              exact (hfile.others _ (Grown.ne_of_fresh hfile.fresh hnew.live)).trans hnew.live
            obtain ⟨objects, hobjects⟩ := DescriptorOwns.of_fclose hlookup hne hfile.live hpriv
              (hcons.closes f List.mem_cons_self)
            refine absurd (hlost hlast _ hnew.live) (Option.ne_none_iff_exists'.mpr ⟨objects, ?_⟩)
            refine (hobjects.congr fun q hq => ?_).objects
            obtain ⟨o, ho, hkind⟩ := hobjects.isItem q hq
            refine (hfile.others q ?_).symm
            rintro rfl
            rw [hfile.live] at ho
            obtain rfl := Option.some.inj ho
            cases hkind
          · -- `file_get_descriptor` does not know the last slot
            have hzero : fileGetDescriptor f.fd s' = some (0, s') := by
              rw [fileGetDescriptor, hfile.fd, if_pos (by omega)]
              rfl
            rw [hzero] at hlookup
            exact hne (Prod.mk.inj (Option.some.inj hlookup)).1.symm

/-- Nothing is open. -/
theorem Tracked.empty {s : Kernel} (hwf : s.WF) (hempty : ∀ i, s.file_descriptors i = 0) :
    Tracked ⟨s, []⟩ := by
  refine ⟨hwf, List.nodup_nil, fun f hf => (by cases hf), fun i _ hi => absurd (hempty i) hi, ?_⟩
  exact ⟨fun f hf => (by cases hf), fun f hf => (by cases hf)⟩

/-- Every call of `fopen` comes to an end, at an entry or with nothing opened. -/
def ComesToEnd (s : Kernel) : TableCall → Prop
  | .fopen filename mode_str => ∃ out, Opening s filename mode_str out
  | .fclose _ => True

/-- It does so, and when it gets to an entry the first free slot is not the last. -/
def OpensWell (st : Files) : TableCall → Prop
  | .fopen filename mode_str => ∃ out, Opening st.kernel filename mode_str out ∧
      ∀ e, out = .entry e → ∀ slot, slot < RASOS_MAX_FILEDESCRIPTORS → FirstFree st.kernel slot →
        slot + 1 < RASOS_MAX_FILEDESCRIPTORS
  | .fclose _ => True

theorem OpensWell.comes {st : Files} {call : TableCall} (h : OpensWell st call) :
    ComesToEnd st.kernel call := by
  cases call with
  | fopen filename mode_str =>
      obtain ⟨out, hopen, -⟩ := h
      exact ⟨out, hopen⟩
  | fclose fd => trivial

/-- Such a call hands out what can be closed. -/
theorem OpensWell.handsOut {st : Files} {call : TableCall} (h : OpensWell st call) (hwf : st.kernel.WF) :
    HandsOutWell st call := by
  cases call with
  | fclose fd => trivial
  | fopen filename mode_str =>
      obtain ⟨out, hopen, hlast⟩ := h
      intro filesystem priv s1 hrun slot hslot hfirst
      obtain ⟨image, htotal⟩ := hopen.fopenPrivate hwf
      obtain ⟨hopens, -⟩ := (total_of_some hrun).mp htotal
      have hwf1 := (fopenPrivate_new filename mode_str hwf _ _ hrun).1.wf
      have hnot : ¬ (OK : Int) < 0 := by decide
      cases out with
      | null => exact absurd hopens hnot
      | astray => exact absurd hopens hnot
      | entry e =>
          obtain ⟨-, -, item, hlive, hstands⟩ := hopens
          obtain ⟨ptrs, howns⟩ := hstands.owns hwf1
          refine ⟨hlast e rfl slot hslot hfirst, _, hlive, ?_⟩
          rw [howns.objects]
          exact Option.some_ne_none _

theorem Tracked.returns {st : Files} (h : Tracked st) {call : TableCall} (hends : ComesToEnd st.kernel call) :
    ∃ st', filesStep st call = some st' := by
  cases call with
  | fclose fd =>
      have hrun : ∃ r, RasOS.fclose fd st.kernel = some r := by
        by_cases hopen : ∃ f ∈ st.opened, f.fd = fd
        · obtain ⟨f, hf, rfl⟩ := hopen
          obtain ⟨ptrs, hptrs⟩ := h.parted.owns f hf
          exact ⟨_, h.fclose_eq hf hptrs⟩
        · exact ⟨_, h.fclose_other fun f hf hfd => hopen ⟨f, hf, hfd⟩⟩
      obtain ⟨r, hr⟩ := hrun
      exact ⟨_, by rw [filesStep, hr, Option.map_some]⟩
  | fopen filename mode_str =>
      obtain ⟨out, hopen⟩ := hends
      obtain ⟨image, hprivate⟩ := hopen.fopenPrivate h.wf
      have hgrown := fopenPrivate_new filename mode_str h.wf
      have htotal : Total (openFile filename mode_str) st.kernel fun _ _ => True := by
        obtain ⟨⟨res, filesystem, priv⟩, s1, hrun, hopens, hroom⟩ := hprivate
        obtain ⟨hgrown1, -⟩ := hgrown _ _ hrun
        rw [openFile, total_bind_of_some hrun]
        dsimp only
        split
        · exact total_pure.mpr trivial
        rename_i hpos
        cases out with
        | null => exact absurd hopens hpos
        | astray => exact absurd hopens hpos
        | entry e =>
            exact (total_newFile (k := 0) filesystem priv hgrown1.wf (hroom e rfl)).bind fun _ _ _ =>
              total_pure.mpr trivial
      obtain ⟨f, s', hrun, -⟩ := htotal
      exact ⟨_, by rw [filesStep, hrun, Option.map_some]⟩

/-- A call that comes to its end and leaves the table consistent has not handed out the last slot. -/
theorem Tracked.opensWell {st st' : Files} (h : Tracked st) {call : TableCall}
    (hends : ComesToEnd st.kernel call) (hstep : filesStep st call = some st') (hcons : Consistent st') :
    OpensWell st call := by
  by_contra hnot
  refine h.broken (fun hgood => hnot ?_) hstep hcons
  cases call with
  | fclose fd => trivial
  | fopen filename mode_str =>
      obtain ⟨out, hopen⟩ := hends
      refine ⟨out, hopen, ?_⟩
      rintro e rfl slot hslot hfirst
      obtain ⟨image, ⟨res, filesystem, priv⟩, s1, hrun, ⟨hok, -⟩, -⟩ := hopen.fopenPrivate h.wf
      obtain rfl : res = OK := hok
      exact (hgood filesystem priv s1 hrun slot hslot hfirst).1

/-- **The descriptor table is consistent as long as the last slot is not handed out.** For every run of
`fopen` and `fclose`, from an empty table or one that belongs to the files open so far: when every
`fopen` comes to an end, and none that gets to an entry finds only the last slot free, then all calls
return and in every state of the run each open `fd` is different from the others, is mapped to the
descriptor that was created for it, and can be closed without touching another. Among runs whose calls
come to an end this is so only then. -/
theorem descriptors_run_iff {st : Files} (h : Tracked st) (calls : List TableCall) :
    (AllCalls filesStep OpensWell st calls →
      (∃ st', runFrom filesStep st calls = some st') ∧ AllStates filesStep Consistent st calls) ∧
      (AllCalls filesStep (fun st => ComesToEnd st.kernel) st calls → AllStates filesStep Consistent st calls →
        AllCalls filesStep OpensWell st calls) := by
  have hgood : ∀ st call, Tracked st → OpensWell st call →
      ∃ st', filesStep st call = some st' ∧ Tracked st' := by
    intro st call hI hC
    obtain ⟨st', hstep⟩ := hI.returns hC.comes
    exact ⟨st', hstep, hI.step (hC.handsOut hI.wf) hstep⟩
  constructor
  · intro hopens
    obtain ⟨hrun, hstates⟩ := allStates_of_allCalls hgood calls st h hopens
    exact ⟨hrun, hstates.mono fun st hst => hst.consistent⟩
  · exact allCalls_of_allStates hgood (fun st call hI hends => hI.returns hends)
      (fun st call st' hI hends hstep hcons => hI.opensWell hends hstep hcons) calls st h

/-- The path `0:/A/B` can be opened on the tree. -/
theorem treeKernel_opening :
    Opening treeKernel (renderPath 0 [[0x41], [0x42]]) [0x72] (.entry treeEntry) := by
  have hparts : partsOf ((renderPath 0 [[0x41], [0x42]]).drop 3) = [[0x41], [0x42]] := by decide +kernel
  have hroom := treeKernel_room
  have hmode : fileGetModeByString [0x72] = FILE_MODE_READ := by decide
  refine .walked treeImage oneFilePrivate _ 5 _ ?_ treeKernel_tree.toTreeReady ?_ (by simp) ?_
  · unfold Unwalked
    rw [hparts, hmode]
    rintro (hinvalid | hnil | hfew | hnodrive | hnofs | hmode)
    · exact absurd hinvalid (by decide +kernel)
    · cases hnil
    · rw [List.length_cons, List.length_singleton] at hfew
      omega
    · exact absurd hnodrive (by decide +kernel)
    · cases hnofs
    · exact hmode rfl
  · rw [hparts]
    exact treeImage_walk
  · have hblocks : parseBlocks (renderPath 0 [[0x41], [0x42]]) = 6 := by
      rw [parseBlocks, hparts]
      rfl
    rw [hblocks]
    exact ⟨5, by decide, fun i h1 _ => treeKernel_free h1⟩

/-- Opening `0:/A/B` in an empty table, and closing it. -/
theorem descriptors_AB :
    AllCalls filesStep OpensWell ⟨treeKernel, []⟩ [.fopen (renderPath 0 [[0x41], [0x42]]) [0x72], .fclose 1] ∧
      AllStates filesStep Consistent ⟨treeKernel, []⟩
        [.fopen (renderPath 0 [[0x41], [0x42]]) [0x72], .fclose 1] := by
  have hopens : AllCalls filesStep OpensWell ⟨treeKernel, []⟩
      [.fopen (renderPath 0 [[0x41], [0x42]]) [0x72], .fclose 1] := by
    refine ⟨⟨_, treeKernel_opening, fun _ _ slot _ hfirst => ?_⟩, fun _ _ => ⟨trivial, fun _ _ => trivial⟩⟩
    -- the first slot is free
    have hslot : slot = 0 := by
      by_contra hne
      exact hfirst.2 0 (Nat.pos_of_ne_zero hne) (treeKernel_empty 0)
    rw [hslot]
    decide
  exact ⟨hopens, ((descriptors_run_iff (Tracked.empty treeKernel_wf treeKernel_empty) _).1 hopens).2⟩

/-! ## 511 open files -/

/-- The open file of slot `i`. -/
def openA (i : Nat) : OpenFile where
  fd := i + 1
  descriptor := blockAddress (1000 + 4 * i)
  desc := {
    index := i + 1
    filesystem := some .fat16
    private_data := blockAddress (1001 + 4 * i) }

theorem openA_owns {size : UInt16} {fat : Sector} {data : Nat → Sector} {used i : Nat}
    (hi : i < used) (hused : used ≤ 512) :
    (openA i).Owns (oneFileKernel size fat data used) [blockAddress (1003 + 4 * i),
      blockAddress (1002 + 4 * i), blockAddress (1001 + 4 * i), blockAddress (1000 + 4 * i)] := by
  have hlive : ∀ j, j < 4 → (oneFileKernel size fat data used).live (blockAddress (1000 + j + 4 * i)) =
      oneFileObject size used (1000 + j + 4 * i) := fun j hj => oneFileKernel_live (by omega)
  have hobject : ∀ j, j < 4 → oneFileObject size used (1000 + j + 4 * i) =
      if j = 0 then some (.fileDescriptor (openA i).desc)
      else if j = 1 then some (.fatFileDescriptor { item := blockAddress (1002 + 4 * i) })
      else if j = 2 then
        some (.fatItem { item := blockAddress (1003 + 4 * i), type := FAT_ITEM_TYPE_FILE })
      else some (.dirItems (oneFileEntry size)) := by
    intro j hj
    have hmod : (1000 + j + 4 * i) % 4 = j := by omega
    unfold oneFileObject
    rw [if_neg (by omega), if_neg (by omega), if_neg (by omega), if_neg (by omega), hmod]
    interval_cases j
    · have hindex : (1000 + 0 + 4 * i - 996) / 4 = i + 1 := by omega
      have hnext : 1000 + 0 + 4 * i + 1 = 1001 + 4 * i := by omega
      rw [hindex, hnext]
      rfl
    · have hnext : 1000 + 1 + 4 * i + 1 = 1002 + 4 * i := by omega
      rw [hnext]
      rfl
    · have hnext : 1000 + 2 + 4 * i + 1 = 1003 + 4 * i := by omega
      rw [hnext]
      rfl
    · simp
  refine ⟨{ item := blockAddress (1002 + 4 * i) }, [_, _], ⟨?_, rfl, ?_, ?_⟩, rfl⟩
  · exact (hlive 0 (by decide)).trans (hobject 0 (by decide))
  · exact (hlive 1 (by decide)).trans (hobject 1 (by decide))
  · exact .file { item := blockAddress (1003 + 4 * i), type := FAT_ITEM_TYPE_FILE } (oneFileEntry size)
      ((hlive 2 (by decide)).trans (hobject 2 (by decide))) rfl
      ((hlive 3 (by decide)).trans (hobject 3 (by decide)))

theorem blockAddress_inj {b c : Nat} (hb : b < 25600) (hc : c < 25600)
    (h : blockAddress b = blockAddress c) : b = c := by
  have htoNat := congrArg UInt32.toNat h
  rw [blockAddress_toNat hb, blockAddress_toNat hc] at htoNat
  omega

theorem oneFileKernel_tracked {size : UInt16} {fat : Sector} {data : Nat → Sector} {used : Nat}
    (hused : used < 512) :
    Tracked ⟨oneFileKernel size fat data used, (List.range used).map openA⟩ where
  wf := oneFileKernel_wf (by omega)
  distinct := by
    rw [List.map_map]
    refine List.nodup_range.map fun i j hij => ?_
    exact Int.ofNat_inj.mp (add_right_cancel hij)
  slot := by
    intro f hf
    obtain ⟨i, hi, rfl⟩ := List.mem_map.mp hf
    have hlt := List.mem_range.mp hi
    have hmax : RASOS_MAX_FILEDESCRIPTORS = 512 := rfl
    exact ⟨i, by omega, rfl, rfl, if_pos hlt⟩
  only := by
    intro i _ hslot
    refine ⟨openA i, List.mem_map.mpr ⟨i, List.mem_range.mpr ?_, rfl⟩, rfl⟩
    by_contra hlt
    exact hslot (if_neg hlt)
  parted := by
    refine ⟨fun f hf => ?_, fun f hf f' hf' hne ptrs ptrs' hptrs hptrs' q hq hq' => ?_⟩
    · obtain ⟨i, hi, rfl⟩ := List.mem_map.mp hf
      exact ⟨_, openA_owns (List.mem_range.mp hi) (by omega)⟩
    · obtain ⟨i, hi, rfl⟩ := List.mem_map.mp hf
      obtain ⟨j, hj, rfl⟩ := List.mem_map.mp hf'
      have hi' := List.mem_range.mp hi
      have hj' := List.mem_range.mp hj
      rw [hptrs.unique (openA_owns hi' (by omega))] at hq
      rw [hptrs'.unique (openA_owns hj' (by omega))] at hq'
      have hblock : ∀ i, i < used → ∀ q ∈ [blockAddress (1003 + 4 * i), blockAddress (1002 + 4 * i),
          blockAddress (1001 + 4 * i), blockAddress (1000 + 4 * i)],
          ∃ b, q = blockAddress b ∧ b < 25600 ∧ b / 4 = 250 + i := by
        intro i hi q hq
        simp only [List.mem_cons, List.not_mem_nil, or_false] at hq
        rcases hq with rfl | rfl | rfl | rfl <;> exact ⟨_, rfl, by omega, by omega⟩
      obtain ⟨b, rfl, hb, hbi⟩ := hblock i hi' q hq
      obtain ⟨c, hbc, hc, hcj⟩ := hblock j hj' _ hq'
      obtain rfl := blockAddress_inj hb hc hbc
      obtain rfl : i = j := by omega
      exact hne rfl

/-- With 511 files open, opening and closing one more. -/
theorem descriptors_last_slot :
    Tracked ⟨oneFileKernel 600 (fun _ => 0) (fun _ _ => 0) 511, (List.range 511).map openA⟩ ∧
    Total (fopen pathA [0x72]) (oneFileKernel 600 (fun _ => 0) (fun _ _ => 0) 511) (fun fd s =>
      fd = 512 ∧ s.file_descriptors 511 ≠ 0 ∧
      Total (fileGetDescriptor 512) s (fun descriptor _ => descriptor = 0) ∧
      Total (fclose 512) s fun res _ => res = - EINVARG) ∧
    ¬ AllStates filesStep Consistent
      ⟨oneFileKernel 600 (fun _ => 0) (fun _ _ => 0) 511, (List.range 511).map openA⟩
      [.fopen pathA [0x72]] := by
  have htracked : Tracked ⟨oneFileKernel 600 (fun _ => 0) (fun _ _ => 0) 511,
      (List.range 511).map openA⟩ := oneFileKernel_tracked (by decide)
  obtain ⟨f, s, hopen, hfd, hne, hslot⟩ : Total (openFile pathA [0x72])
      (oneFileKernel 600 (fun _ => 0) (fun _ _ => 0) 511)
      fun f s => f.fd = 512 ∧ f.descriptor ≠ 0 ∧ s.file_descriptors 511 ≠ 0 := by decide +kernel
  have hget : fileGetDescriptor 512 s = some (0, s) := rfl
  have hclose : fclose 512 s = some (- EINVARG, s) := by
    unfold fclose
    rw [bind_of_some hget]
    rfl
  refine ⟨htracked, ?_, ?_⟩
  · rw [← openFile_fopen]
    refine (total_bind_of_some hopen).mpr (total_pure.mpr ⟨hfd, hslot, ?_, ?_⟩)
    · exact (total_of_some hget).mpr rfl
    · exact (total_of_some hclose).mpr rfl
  · intro hall
    have hstep : filesStep ⟨oneFileKernel 600 (fun _ => 0) (fun _ _ => 0) 511,
        (List.range 511).map openA⟩ (.fopen pathA [0x72]) =
        some ⟨s, f :: (List.range 511).map openA⟩ := by
      rw [filesStep, hopen, Option.map_some, if_neg (by rw [hfd]; decide)]
    obtain ⟨-, hrest⟩ := (allStates_cons_of_some hstep).mp hall
    have hlookup := hrest.first.lookup f List.mem_cons_self
    rw [hfd, hget] at hlookup
    exact hne (Prod.mk.inj (Option.some.inj hlookup)).1.symm

end RasOS
