import RasOS.Disk.StreamSpec
import RasOS.Fs.File
import RasOS.Kernel.Wf

set_option autoImplicit false

/-! # What the file functions touch

The file functions allocate, change and free objects of their own types, move the streams of the
volume, ask the drive for sectors and fill in descriptor slots; `fread` also writes through its
pointer. A relation between the states before and after that each of these steps satisfies
(`FileRules`) therefore holds of every call. The one relation used is `FileFrame`: the rest of
the kernel is as it was. -/

namespace RasOS

open Machine

variable {α β : Type}

/-- The objects that only the file functions use. -/
def Obj.isFile : Obj → Bool
  | .fileDescriptor _ | .pathRoot _ | .pathPart _ | .pathName _ | .fatDirectory _ | .dirItems _
  | .fatItem _ | .fatFileDescriptor _ => true
  | _ => false

/-- The roots of parsed paths. -/
def Obj.isRoot : Obj → Bool
  | .pathRoot _ => true
  | _ => false

/-- A kind of objects of the file functions. -/
structure FileKind (k : Kind Obj α) : Prop where
  file : ∀ a, (k.inj a).isFile = true
  root : ∀ a b, (k.inj a).isRoot = (k.inj b).isRoot

theorem fileKind_fileDescriptor : FileKind fileDescriptorK := ⟨fun _ => rfl, fun _ _ => rfl⟩
theorem fileKind_pathRoot : FileKind pathRootK := ⟨fun _ => rfl, fun _ _ => rfl⟩
theorem fileKind_pathPart : FileKind pathPartK := ⟨fun _ => rfl, fun _ _ => rfl⟩
theorem fileKind_pathName : FileKind pathNameK := ⟨fun _ => rfl, fun _ _ => rfl⟩
theorem fileKind_fatDirectory : FileKind fatDirectoryK := ⟨fun _ => rfl, fun _ _ => rfl⟩
theorem fileKind_dirItems : FileKind dirItemsK := ⟨fun _ => rfl, fun _ _ => rfl⟩
theorem fileKind_fatItem : FileKind fatItemK := ⟨fun _ => rfl, fun _ _ => rfl⟩
theorem fileKind_fatFileDescriptor : FileKind fatFileDescriptorK := ⟨fun _ => rfl, fun _ _ => rfl⟩

/-- A kind of objects that the file functions free. -/
structure FreedKind (k : Kind Obj α) : Prop extends FileKind k where
  notRoot : ∀ a, (k.inj a).isRoot = false

theorem freedKind_fileDescriptor : FreedKind fileDescriptorK := ⟨fileKind_fileDescriptor, fun _ => rfl⟩
theorem freedKind_pathName : FreedKind pathNameK := ⟨fileKind_pathName, fun _ => rfl⟩
theorem freedKind_fatDirectory : FreedKind fatDirectoryK := ⟨fileKind_fatDirectory, fun _ => rfl⟩
theorem freedKind_dirItems : FreedKind dirItemsK := ⟨fileKind_dirItems, fun _ => rfl⟩
theorem freedKind_fatItem : FreedKind fatItemK := ⟨fileKind_fatItem, fun _ => rfl⟩
theorem freedKind_fatFileDescriptor : FreedKind fatFileDescriptorK :=
  ⟨fileKind_fatFileDescriptor, fun _ => rfl⟩

/-- The steps of the functions that read the volume keep `R`. -/
structure StreamRules (R : Kernel → Kernel → Prop) : Prop where
  frame : Frame R
  seek : ∀ stream st, Keeps R (store diskStreamK stream st)
  sector : ∀ lba, Keeps R (diskReadBlock lba)

/-- The steps of the functions that parse paths and look up entries keep `R`. -/
structure VolumeRules (R : Kernel → Kernel → Prop) : Prop extends StreamRules R where
  alloc : ∀ {α : Type} (k : Kind Obj α), FileKind k → ∀ size zero, Keeps R (kzalloc k size zero)
  put : ∀ {α : Type} (k : Kind Obj α), FileKind k → ∀ ptr a, Keeps R (store k ptr a)
  free : ∀ {α : Type} (k : Kind Obj α), FreedKind k → ∀ ptr, Keeps R (kfree k ptr)
  freeNull : Keeps R fun s => some ((), { s with heap := heapFree s.heap 0 })

/-- The steps of the file functions, which also change the descriptor table, keep `R`. -/
structure FileRules (R : Kernel → Kernel → Prop) : Prop extends VolumeRules R where
  slot : ∀ i desc, Keeps R
    (assign fun s => { s with file_descriptors := Function.update s.file_descriptors i desc })

namespace StreamRules

variable {R : Kernel → Kernel → Prop}

theorem pure (hR : StreamRules R) (a : α) : Keeps R (Pure.pure a : KernelM α) :=
  Keeps.pure hR.frame a

theorem bind (hR : StreamRules R) {x : KernelM α} {f : α → KernelM β} (hx : Keeps R x)
    (hf : ∀ a, Keeps R (f a)) : Keeps R (x >>= f) := Keeps.bind hR.frame hx hf

theorem load (hR : StreamRules R) (k : Kind Obj α) (ptr : UInt32) : Keeps R (load k ptr) := by
  intro s a s' h
  obtain ⟨-, rfl⟩ := load_eq_some.mp h
  exact hR.frame.refl _

theorem fetch (hR : StreamRules R) (f : Kernel → α) : Keeps R (fetch f) := by
  intro s a s' h
  obtain ⟨-, rfl⟩ := Prod.mk.inj (Option.some.inj h)
  exact hR.frame.refl _

/-! ## Streams -/

theorem diskstreamerSeek (hR : StreamRules R) (stream : UInt32) (pos : Int) :
    Keeps R (diskstreamerSeek stream pos) :=
  hR.bind (hR.seek stream _) fun _ => hR.pure _

theorem diskstreamerReadLoop (hR : StreamRules R) (stream : UInt32) :
    ∀ (fuel : Nat) (total : Int), Keeps R (diskstreamerReadLoop stream fuel total) := by
  intro fuel
  induction fuel with
  | zero => exact fun _ => Keeps.stop
  | succ fuel ih =>
      intro total
      refine hR.bind (hR.load _ _) fun st => hR.bind (hR.sector _) ?_
      rintro ⟨res, buf⟩
      refine Keeps.ite (hR.pure _) (Keeps.ite Keeps.stop ?_)
      refine hR.bind (hR.seek stream _) fun _ => Keeps.ite ?_ (hR.pure _)
      exact hR.bind (ih _) fun _ => hR.pure _

theorem diskstreamerRead (hR : StreamRules R) (stream : UInt32) (total : Int) :
    Keeps R (diskstreamerRead stream total) := hR.diskstreamerReadLoop stream _ total

theorem fsPrivate (hR : StreamRules R) : Keeps R fsPrivate :=
  hR.bind (hR.fetch _) fun _ => hR.load _ _

/-! ## Clusters -/

theorem fat16GetFatEntry (hR : StreamRules R) (cluster : Int) :
    Keeps R (fat16GetFatEntry cluster) := by
  refine hR.bind hR.fsPrivate fun priv => Keeps.ite (hR.pure _) ?_
  refine hR.bind (hR.diskstreamerSeek _ _) fun _ => hR.bind (hR.diskstreamerRead _ _) ?_
  rintro ⟨res, bytes⟩
  exact Keeps.ite (hR.pure _) (hR.pure _)

theorem getClusterLoop (hR : StreamRules R) :
    ∀ (remaining : Nat) (cluster : Int), Keeps R (getClusterLoop remaining cluster) := by
  intro remaining
  induction remaining with
  | zero => exact fun _ => hR.pure _
  | succ remaining ih =>
      intro cluster
      refine hR.bind (hR.fat16GetFatEntry _) fun entry => Keeps.ite (hR.pure _) ?_
      refine Keeps.ite (hR.pure _) (Keeps.ite (hR.pure _) (Keeps.ite (hR.pure _) ?_))
      exact ih _

theorem fat16GetClusterForOffset (hR : StreamRules R) (cluster offset : Int) :
    Keeps R (fat16GetClusterForOffset cluster offset) :=
  hR.bind hR.fsPrivate fun _ => Keeps.ite Keeps.stop (hR.getClusterLoop _ _)

theorem fat16ReadInternalFromStream (hR : StreamRules R) (stream : UInt32) (cluster : Int) :
    ∀ (fuel : Nat) (offset total : Int),
      Keeps R (fat16ReadInternalFromStream stream cluster fuel offset total) := by
  intro fuel
  induction fuel with
  | zero => exact fun _ _ => Keeps.stop
  | succ fuel ih =>
      intro offset total
      refine hR.bind hR.fsPrivate fun priv => ?_
      refine hR.bind (hR.fat16GetClusterForOffset _ _) fun c => Keeps.ite (hR.pure _) ?_
      refine hR.bind (hR.diskstreamerSeek _ _) fun res => Keeps.ite (hR.pure _) ?_
      refine hR.bind (hR.diskstreamerRead _ _) ?_
      rintro ⟨res, out⟩
      refine Keeps.ite (hR.pure _) (Keeps.ite ?_ (hR.pure _))
      exact hR.bind (ih _ _) fun _ => hR.pure _

theorem fat16ReadInternal (hR : StreamRules R) (cluster offset total : Int) :
    Keeps R (fat16ReadInternal cluster offset total) :=
  hR.bind hR.fsPrivate fun _ => hR.fat16ReadInternalFromStream _ _ _ _ _

/-! ## Counting entries -/

theorem getTotalItemsLoop (hR : StreamRules R) (stream : UInt32) :
    ∀ (fuel : Nat) (i : Int), Keeps R (getTotalItemsLoop stream fuel i) := by
  intro fuel
  induction fuel with
  | zero => exact fun _ => Keeps.stop
  | succ fuel ih =>
      intro i
      refine hR.bind (hR.diskstreamerRead _ _) ?_
      rintro ⟨res, item⟩
      exact Keeps.ite (hR.pure _) (Keeps.ite (hR.pure _) (Keeps.ite (ih _) (ih _)))

theorem fat16GetTotalItemsForDirectory (hR : StreamRules R) (sector : UInt32) :
    Keeps R (fat16GetTotalItemsForDirectory sector) := by
  refine hR.bind hR.fsPrivate fun priv => hR.bind (hR.diskstreamerSeek _ _) fun res => ?_
  exact Keeps.ite (hR.pure _) (hR.getTotalItemsLoop _ _ _)

/-! ## Reading files -/

theorem fileGetDescriptor (hR : StreamRules R) (fd : Int) : Keeps R (fileGetDescriptor fd) :=
  Keeps.ite (hR.pure _) (hR.fetch _)

theorem withFilesystem (desc : FileDescriptor) {f : KernelM α} (hf : Keeps R f) :
    Keeps R (withFilesystem desc f) := by
  unfold RasOS.withFilesystem
  cases desc.filesystem with
  | none => exact Keeps.stop
  | some fs => exact hf

/-- `fread` also writes memory. -/
theorem fread (hR : StreamRules R) (hmem : ∀ out bytes, Keeps R (memWrite out bytes))
    (out size nmemb : UInt32) (fd : Int) : Keeps R (fread out size nmemb fd) := by
  have hloop : ∀ (first_cluster : UInt32) (remaining : Nat) (offset : Int) (out : UInt32),
      Keeps R (fat16ReadLoop first_cluster size remaining offset out) := by
    intro first_cluster remaining
    induction remaining with
    | zero => exact fun _ _ => hR.pure _
    | succ remaining ih =>
        intro offset out
        refine hR.bind (hR.fat16ReadInternal _ _ _) ?_
        rintro ⟨res, bytes⟩
        exact hR.bind (hmem _ _) fun _ => Keeps.ite (hR.pure _) (ih _ _)
  refine Keeps.ite (hR.pure _) (hR.bind (hR.fileGetDescriptor _) fun descriptor => ?_)
  refine Keeps.ite (hR.pure _) (hR.bind (hR.load _ _) fun desc => withFilesystem desc ?_)
  refine hR.bind (hR.load _ _) fun fat_descriptor => hR.bind (hR.load _ _) fun fat_item => ?_
  refine hR.bind (hR.load _ _) fun item => hR.bind (hloop _ _ _ _) fun res => ?_
  exact Keeps.ite (hR.pure _) (hR.pure _)

theorem fstat (hR : StreamRules R) (fd : Int) : Keeps R (fstat fd) := by
  refine hR.bind (hR.fileGetDescriptor _) fun descriptor => Keeps.ite (hR.pure _) ?_
  refine hR.bind (hR.load _ _) fun desc => withFilesystem desc ?_
  refine hR.bind (hR.load _ _) fun descriptor => hR.bind (hR.load _ _) fun item => ?_
  exact Keeps.ite (hR.pure _) (hR.bind (hR.load _ _) fun ritem => hR.pure _)

end StreamRules

namespace VolumeRules

variable {R : Kernel → Kernel → Prop}

theorem putUnchecked (hR : VolumeRules R) (k : Kind Obj α) (hk : FileKind k) (ptr : UInt32) (a : α) :
    Keeps R (storeUnchecked k ptr a) := Keeps.ite (hR.pure _) (hR.put k hk ptr a)

theorem freeUnchecked (hR : VolumeRules R) (k : Kind Obj α) (hk : FreedKind k) (ptr : UInt32) :
    Keeps R (kfreeUnchecked k ptr) := Keeps.ite hR.freeNull (hR.free k hk ptr)

/-! ## Directories -/

theorem fat16FreeDirectory (hR : VolumeRules R) (directory : UInt32) :
    Keeps R (fat16FreeDirectory directory) := by
  refine Keeps.ite (hR.pure _) (hR.bind (hR.load _ _) fun d => Keeps.ite ?_ ?_)
  · exact hR.free _ freedKind_fatDirectory _
  · exact hR.bind (hR.free _ freedKind_dirItems _) fun _ => hR.free _ freedKind_fatDirectory _

theorem fat16FatItemFree (hR : VolumeRules R) (item : UInt32) : Keeps R (fat16FatItemFree item) := by
  refine hR.bind (hR.load _ _) fun it => Keeps.ite ?_ (Keeps.ite ?_ ?_)
  · exact hR.bind (hR.fat16FreeDirectory _) fun _ => hR.free _ freedKind_fatItem _
  · exact hR.bind (hR.free _ freedKind_dirItems _) fun _ => hR.free _ freedKind_fatItem _
  · exact hR.free _ freedKind_fatItem _

theorem fat16CloneDirectoryItem (hR : VolumeRules R) (item : List UInt8) :
    Keeps R (fat16CloneDirectoryItem item) := by
  refine hR.bind (hR.alloc _ fileKind_dirItems _ _) fun copy => Keeps.ite (hR.pure _) ?_
  exact hR.bind (hR.put _ fileKind_dirItems _ _) fun _ => hR.pure _

theorem fat16LoadFatDirectory (hR : VolumeRules R) (item : List UInt8) :
    Keeps R (fat16LoadFatDirectory item) := by
  refine Keeps.ite (hR.pure _) (hR.bind (hR.alloc _ fileKind_fatDirectory _ _) fun dir => ?_)
  refine Keeps.ite (hR.pure _) (hR.bind hR.fsPrivate fun priv => ?_)
  refine hR.bind (hR.fat16GetTotalItemsForDirectory _) fun total => ?_
  refine hR.bind (hR.alloc _ fileKind_dirItems _ _) fun items => ?_
  refine hR.bind (hR.put _ fileKind_fatDirectory _ _) fun _ => Keeps.ite ?_ ?_
  · exact hR.bind (hR.fat16FreeDirectory _) fun _ => hR.pure _
  · refine hR.bind (hR.fat16ReadInternal _ _ _) ?_
    rintro ⟨res, bytes⟩
    refine hR.bind (hR.put _ fileKind_dirItems _ _) fun _ => Keeps.ite ?_ (hR.pure _)
    exact hR.bind (hR.fat16FreeDirectory _) fun _ => hR.pure _

theorem fat16NewFatItemForDirectoryItem (hR : VolumeRules R) (item : List UInt8) :
    Keeps R (fat16NewFatItemForDirectoryItem item) := by
  refine hR.bind (hR.alloc _ fileKind_fatItem _ _) fun f_item => Keeps.ite (hR.pure _) ?_
  refine Keeps.ite ?_ ?_
  · exact hR.bind (hR.fat16LoadFatDirectory _) fun _ =>
      hR.bind (hR.put _ fileKind_fatItem _ _) fun _ => hR.pure _
  · exact hR.bind (hR.fat16CloneDirectoryItem _) fun _ =>
      hR.bind (hR.put _ fileKind_fatItem _ _) fun _ => hR.pure _

theorem findItemLoop (hR : VolumeRules R) (directory : FatDirectory) (name : List UInt8) :
    ∀ (remaining i : Nat) (f_item : UInt32),
      Keeps R (findItemLoop directory name remaining i f_item) := by
  intro remaining
  induction remaining with
  | zero => exact fun _ _ => hR.pure _
  | succ remaining ih =>
      intro i f_item
      refine hR.bind (hR.load _ _) fun items => ?_
      dsimp only
      split
      · exact Keeps.stop
      · refine Keeps.ite ?_ (ih _ _)
        exact hR.bind (hR.fat16NewFatItemForDirectoryItem _) fun _ => ih _ _

theorem fat16FindItemInDirectory (hR : VolumeRules R) (directory : FatDirectory) (name : List UInt8) :
    Keeps R (fat16FindItemInDirectory directory name) := hR.findItemLoop _ _ _ _ _

theorem getDirectoryEntryLoop (hR : VolumeRules R) :
    ∀ (fuel : Nat) (next_part current_item : UInt32),
      Keeps R (getDirectoryEntryLoop fuel next_part current_item) := by
  intro fuel
  induction fuel with
  | zero => exact fun _ _ => Keeps.stop
  | succ fuel ih =>
      intro next_part current_item
      refine Keeps.ite (hR.pure _) (hR.bind (hR.load _ _) fun it => Keeps.ite (hR.pure _) ?_)
      refine hR.bind (hR.load _ _) fun part => hR.bind (hR.load _ _) fun directory => ?_
      refine hR.bind (hR.load _ _) fun name => ?_
      refine hR.bind (hR.fat16FindItemInDirectory _ _) fun tmp_item => ?_
      refine hR.bind (hR.fat16FatItemFree _) fun _ => hR.bind (hR.load _ _) fun part => ?_
      exact ih _ _

theorem fat16GetDirectoryEntry (hR : VolumeRules R) (path : UInt32) :
    Keeps R (fat16GetDirectoryEntry path) := by
  refine hR.bind hR.fsPrivate fun priv => hR.bind (hR.load _ _) fun part => ?_
  refine hR.bind (hR.load _ _) fun name => hR.bind (hR.fat16FindItemInDirectory _ _) fun item => ?_
  refine Keeps.ite (hR.pure _) (hR.bind (hR.load _ _) fun part => ?_)
  exact hR.getDirectoryEntryLoop _ _ _

/-! ## Paths -/

theorem getNextPathPart (hR : VolumeRules R) (path : List UInt8) :
    Keeps R (getNextPathPart path) := by
  refine hR.bind (hR.alloc _ fileKind_pathName _ _) fun part => Keeps.ite ?_ (Keeps.ite Keeps.stop ?_)
  · exact hR.bind (hR.freeUnchecked _ freedKind_pathName _) fun _ => hR.pure _
  · exact hR.bind (hR.putUnchecked _ fileKind_pathName _ _) fun _ => hR.pure _

theorem parsePathPart (hR : VolumeRules R) (last_part : UInt32) (path : List UInt8) :
    Keeps R (parsePathPart last_part path) := by
  refine hR.bind (hR.getNextPathPart _) ?_
  rintro ⟨name, rest⟩
  refine Keeps.ite (hR.pure _) (hR.bind (hR.alloc _ fileKind_pathPart _ _) fun part => ?_)
  refine hR.bind (hR.putUnchecked _ fileKind_pathPart _ _) fun _ => Keeps.ite (hR.pure _) ?_
  refine hR.bind (hR.load _ _) fun last => hR.bind (hR.put _ fileKind_pathPart _ _) fun _ => ?_
  exact hR.pure _

theorem pathparserLoop (hR : VolumeRules R) :
    ∀ (fuel : Nat) (part : UInt32) (path : List UInt8), Keeps R (pathparserLoop fuel part path) := by
  intro fuel
  induction fuel with
  | zero => exact fun _ _ => Keeps.stop
  | succ fuel ih =>
      intro part path
      refine Keeps.ite (hR.pure _) (hR.bind (hR.parsePathPart _ _) ?_)
      rintro ⟨part, path⟩
      exact ih _ _

theorem pathparserParse (hR : VolumeRules R) (path : List UInt8) :
    Keeps R (pathparserParse path) := by
  have hroot : ∀ drive_number, Keeps R (createRoot drive_number) := fun drive_number =>
    hR.bind (hR.alloc _ fileKind_pathRoot _ _) fun _ =>
      hR.bind (hR.putUnchecked _ fileKind_pathRoot _ _) fun _ => hR.pure _
  refine Keeps.ite (hR.pure _) (Keeps.ite (hR.pure _) (hR.bind (hroot _) fun root => ?_))
  refine Keeps.ite (hR.pure _) (hR.bind (hR.parsePathPart _ _) ?_)
  rintro ⟨first_part, tmp_path⟩
  refine Keeps.ite (hR.pure _) (hR.bind (hR.load _ _) fun root => ?_)
  refine hR.bind (hR.put _ fileKind_pathRoot _ _) fun _ => hR.bind (hR.parsePathPart _ _) ?_
  rintro ⟨part, tmp_path⟩
  exact hR.bind (hR.pathparserLoop _ _ _) fun _ => hR.pure _

theorem fat16Open (hR : VolumeRules R) (path : UInt32) (mode : Nat) : Keeps R (fat16Open path mode) := by
  refine Keeps.ite (hR.pure _) (hR.bind (hR.alloc _ fileKind_fatFileDescriptor _ _) fun desc => ?_)
  refine Keeps.ite (hR.pure _) (hR.bind (hR.fat16GetDirectoryEntry _) fun item => ?_)
  refine hR.bind (hR.put _ fileKind_fatFileDescriptor _ _) fun _ => Keeps.ite (hR.pure _) ?_
  exact hR.bind (hR.put _ fileKind_fatFileDescriptor _ _) fun _ => hR.pure _

end VolumeRules

namespace FileRules

/-! ## Files -/

variable {R : Kernel → Kernel → Prop}

theorem fileNewDescriptorLoop (hR : FileRules R) :
    ∀ remaining i : Nat, Keeps R (fileNewDescriptorLoop remaining i) := by
  intro remaining
  induction remaining with
  | zero => exact fun _ => hR.pure _
  | succ remaining ih =>
      intro i
      refine hR.bind (hR.fetch _) fun slot => Keeps.ite ?_ (ih _)
      refine hR.bind (hR.alloc _ fileKind_fileDescriptor _ _) fun desc => ?_
      refine hR.bind (hR.put _ fileKind_fileDescriptor _ _) fun _ => ?_
      exact hR.bind (hR.slot _ _) fun _ => hR.pure _

theorem fopen (hR : FileRules R) (filename mode_str : List UInt8) :
    Keeps R (fopen filename mode_str) := by
  refine hR.bind ?_ fun res => hR.pure _
  refine hR.bind (hR.pathparserParse _) fun root_path => Keeps.ite (hR.pure _) ?_
  refine hR.bind (hR.load _ _) fun root => Keeps.ite (hR.pure _) (Keeps.ite (hR.pure _) ?_)
  refine hR.bind (hR.fetch _) fun filesystem => Keeps.ite (hR.pure _) (Keeps.ite (hR.pure _) ?_)
  refine hR.bind (hR.fat16Open _ _) fun priv => Keeps.ite (hR.pure _) ?_
  refine hR.bind (hR.fileNewDescriptorLoop _ _) ?_
  rintro ⟨res, descriptor⟩
  refine Keeps.ite (hR.pure _) (hR.bind (hR.load _ _) fun d => ?_)
  exact hR.bind (hR.put _ fileKind_fileDescriptor _ _) fun _ => hR.pure _

theorem fseek (hR : FileRules R) (fd offset : Int) (whence : Nat) :
    Keeps R (fseek fd offset whence) := by
  refine hR.bind (hR.fileGetDescriptor _) fun descriptor => Keeps.ite (hR.pure _) ?_
  refine hR.bind (hR.load _ _) fun desc => StreamRules.withFilesystem desc ?_
  refine hR.bind (hR.load _ _) fun desc => hR.bind (hR.load _ _) fun item => Keeps.ite (hR.pure _) ?_
  refine hR.bind (hR.load _ _) fun ritem => Keeps.ite (hR.pure _) (Keeps.ite ?_ ?_)
  · exact hR.bind (hR.put _ fileKind_fatFileDescriptor _ _) fun _ => hR.pure _
  · refine Keeps.ite (hR.pure _) (Keeps.ite ?_ (hR.pure _))
    exact hR.bind (hR.put _ fileKind_fatFileDescriptor _ _) fun _ => hR.pure _

theorem fclose (hR : FileRules R) (fd : Int) : Keeps R (fclose fd) := by
  refine hR.bind (hR.fileGetDescriptor _) fun descriptor => Keeps.ite (hR.pure _) ?_
  refine hR.bind (hR.load _ _) fun desc => hR.bind (StreamRules.withFilesystem desc ?_) fun res => ?_
  · refine hR.bind (hR.load _ _) fun d => hR.bind (hR.fat16FatItemFree _) fun _ => ?_
    exact hR.bind (hR.free _ freedKind_fatFileDescriptor _) fun _ => hR.pure _
  · refine Keeps.ite (hR.bind ?_ fun _ => hR.pure _) (hR.pure _)
    refine hR.bind (hR.load _ _) fun d => hR.bind (hR.slot _ _) fun _ => ?_
    exact hR.free _ freedKind_fileDescriptor _

end FileRules

/-! ## The rest of the kernel -/

/-- What a call of a file function leaves as it was. -/
structure FileFrame (s s' : Kernel) : Prop where
  wf : s'.WF
  object : ∀ ptr o, s.live ptr = some o → o.isFile = false → (∀ st, o ≠ .diskStream st) →
    s'.live ptr = some o
  stream : ∀ ptr st, s.live ptr = some (.diskStream st) →
    ∃ st', s'.live ptr = some (.diskStream st')
  statics : s'.statics = s.statics
  allocated : ∀ ptr o n, s.live ptr = some o → o.isFile = false → Allocated s.heap ptr n →
    Allocated s'.heap ptr n

theorem FileFrame.drive {s s' : Kernel} (h : FileFrame s s') : s'.drive = s.drive :=
  congrArg Statics.drive h.statics

theorem FileFrame.disk {s s' : Kernel} (h : FileFrame s s') : s'.disk = s.disk :=
  congrArg Statics.disk h.statics

/-- A step that changes only the objects, and those of a file kind at most. -/
theorem FileFrame.of_live {s s' : Kernel} (hwf : s'.WF) (hstatics : s'.statics = s.statics)
    (hheap : s'.heap = s.heap)
    (hlive : ∀ ptr o, s.live ptr = some o → o.isFile = false → s'.live ptr = some o ∨
      ∃ st st', o = .diskStream st ∧ s'.live ptr = some (.diskStream st')) : FileFrame s s' where
  wf := hwf
  object := by
    intro ptr o ho hfile hstream
    rcases hlive ptr o ho hfile with h | ⟨st, st', rfl, -⟩
    · exact h
    · exact absurd rfl (hstream st)
  stream := by
    intro ptr st hst
    rcases hlive ptr _ hst rfl with h | ⟨-, st', -, h⟩
    · exact ⟨st, h⟩
    · exact ⟨st', h⟩
  statics := hstatics
  allocated := by
    intro ptr o n _ _ ha
    rw [hheap]
    exact ha

theorem Since.fileFrame {s s' : Kernel} (h : Since s s') : FileFrame s s' where
  wf := h.wf
  object := fun ptr o ho _ _ => h.object ptr o ho
  stream := fun ptr st hst => ⟨st, h.object ptr _ hst⟩
  statics := h.statics
  allocated := fun ptr _ n _ _ ha => h.allocated ptr n ha

theorem FileFrame.trans {s s' s'' : Kernel} (h : FileFrame s s') (h' : FileFrame s' s'') :
    FileFrame s s'' where
  wf := h'.wf
  object := fun ptr o ho hfile hstream =>
    h'.object ptr o (h.object ptr o ho hfile hstream) hfile hstream
  stream := by
    intro ptr st hst
    obtain ⟨st', hst'⟩ := h.stream ptr st hst
    exact h'.stream ptr st' hst'
  statics := h'.statics.trans h.statics
  allocated := by
    intro ptr o n ho hfile ha
    have ha' := h.allocated ptr o n ho hfile ha
    by_cases hstream : ∃ st, o = .diskStream st
    · obtain ⟨st, rfl⟩ := hstream
      obtain ⟨st', hst'⟩ := h.stream ptr st ho
      exact h'.allocated ptr _ n hst' rfl ha'
    · have ho' := h.object ptr o ho hfile fun st heq => hstream ⟨st, heq⟩
      exact h'.allocated ptr o n ho' hfile ha'

/-- An object that was not there before may be changed. -/
theorem FileFrame.write {s s' : Kernel} (h : FileFrame s s') {k : Kind Obj α} {ptr : UInt32} {o : Obj}
    (hfree : s.live ptr = none) (hlive : s'.live ptr = some o) (a : α) :
    FileFrame s { s' with live := k.write s'.live ptr a } := by
  have hne : ∀ q o, s.live q = some o → q ≠ ptr := by
    rintro q o ho rfl
    rw [hfree] at ho
    cases ho
  refine ⟨h.wf.write hlive a, fun q o ho hfile hstream => ?_, fun q st hst => ?_, h.statics,
    h.allocated⟩
  · exact (Kind.write_of_ne _ _ _ (hne q o ho)).trans (h.object q o ho hfile hstream)
  · obtain ⟨st', hst'⟩ := h.stream q st hst
    exact ⟨st', (Kind.write_of_ne _ _ _ (hne q _ hst)).trans hst'⟩

/-- The frame of a call made in a well-formed state. -/
def KeepsRest (s s' : Kernel) : Prop := s.WF → FileFrame s s'

theorem keepsRest_frame : Frame KeepsRest where
  refl := fun _ hwf => (Since.refl hwf).fileFrame
  trans := fun h h' hwf => (h hwf).trans (h' (h hwf).wf)

theorem keepsRest_rules : FileRules KeepsRest where
  frame := keepsRest_frame
  alloc := by
    intro α k hk size zero s ptr s' h hwf
    exact (kzalloc_since hwf h).fileFrame
  put := by
    intro α k hk ptr a s u s' h hwf
    obtain ⟨⟨b, hb⟩, rfl⟩ := store_eq_some.mp h
    refine FileFrame.of_live (hwf.write hb a) rfl rfl fun q o hq hfile => Or.inl ?_
    have hqp : q ≠ ptr := by
      rintro rfl
      rw [hb] at hq
      obtain rfl := Option.some.inj hq
      exact absurd (hk.file b) (by rw [hfile]; decide)
    exact (Kind.write_of_ne _ _ _ hqp).trans hq
  free := by
    intro α k hk ptr s u s' h hwf
    obtain ⟨⟨b, hb⟩, rfl⟩ := kfree_eq_some.mp h
    have hkeep : ∀ q o, s.live q = some o → o.isFile = false → q ≠ ptr := by
      rintro q o hq hfile rfl
      rw [hb] at hq
      obtain rfl := Option.some.inj hq
      exact absurd (hk.file b) (by rw [hfile]; decide)
    have hobject : ∀ q o, s.live q = some o → o.isFile = false →
        Function.update s.live ptr none q = some o := fun q o hq hfile =>
      (Function.update_of_ne (hkeep q o hq hfile) ..).trans hq
    exact ⟨hwf.free hb, fun q o hq hfile _ => hobject q o hq hfile,
      fun q st hst => ⟨st, hobject q _ hst rfl⟩, rfl,
      fun q o n hq hfile hn => hn.free hwf hb (hkeep q o hq hfile)⟩
  freeNull := by
    intro s u s' h hwf
    obtain ⟨-, rfl⟩ := Prod.mk.inj (Option.some.inj h)
    exact ⟨hwf.freeNull, fun _ _ ho _ _ => ho, fun _ st hst => ⟨st, hst⟩, rfl,
      fun _ _ _ _ _ hn => hwf.allocated_freeNull hn⟩
  seek := by
    intro stream st s u s' h hwf
    obtain ⟨⟨st0, hst0⟩, rfl⟩ := store_eq_some.mp h
    refine FileFrame.of_live (hwf.write hst0 st) rfl rfl fun q o hq _ => ?_
    by_cases hqs : q = stream
    · subst hqs
      rw [hst0] at hq
      obtain rfl := Option.some.inj hq
      exact Or.inr ⟨st0, st, rfl, Kind.write_self ..⟩
    · exact Or.inl ((Kind.write_of_ne _ _ _ hqs).trans hq)
  sector := by
    intro lba s r s' h hwf
    rw [diskReadBlock_state h]
    exact FileFrame.of_live (hwf.of_live rfl fun _ o ho => ⟨o, ho⟩) rfl rfl fun _ _ ho _ => Or.inl ho
  slot := by
    intro i desc s u s' h hwf
    obtain ⟨-, rfl⟩ := Prod.mk.inj (Option.some.inj h)
    exact FileFrame.of_live (hwf.of_live rfl fun _ o ho => ⟨o, ho⟩) rfl rfl fun _ _ ho _ => Or.inl ho

theorem keepsRest_memWrite (out : UInt32) (bytes : List UInt8) :
    Keeps KeepsRest (memWrite out bytes) := by
  refine Keeps.ite Keeps.stop ?_
  intro s u s' h hwf
  obtain ⟨-, rfl⟩ := Prod.mk.inj (Option.some.inj h)
  exact FileFrame.of_live (hwf.of_live rfl fun _ o ho => ⟨o, ho⟩) rfl rfl fun _ _ ho _ => Or.inl ho

/-- A part of the state other than the heap, the objects and the requests. -/
theorem project_rules {γ : Type} (f : Kernel → γ)
    (hf : ∀ (s : Kernel) heap live requests,
      f { s with heap := heap, live := live, requests := requests } = f s) :
    VolumeRules fun s s' => f s' = f s where
  frame := ⟨fun _ => rfl, fun h h' => h'.trans h⟩
  alloc := by
    intro α k _ size zero s ptr s' h
    rw [← (Prod.mk.inj (Option.some.inj h)).2]
    exact hf s _ _ s.requests
  put := by
    intro α k _ ptr a s u s' h
    rw [(store_eq_some.mp h).2]
    exact hf s s.heap _ s.requests
  free := by
    intro α k _ ptr s u s' h
    rw [(kfree_eq_some.mp h).2]
    exact hf s _ _ s.requests
  freeNull := by
    intro s u s' h
    rw [← (Prod.mk.inj (Option.some.inj h)).2]
    exact hf s _ s.live s.requests
  seek := by
    intro stream st s u s' h
    rw [(store_eq_some.mp h).2]
    exact hf s s.heap _ s.requests
  sector := by
    intro lba s r s' h
    rw [diskReadBlock_state h]
    exact hf s s.heap s.live _

/-- Streams have moved and sectors have been asked for. -/
structure Moved (s s' : Kernel) : Prop where
  heap : s'.heap = s.heap
  statics : s'.statics = s.statics
  slots : s'.file_descriptors = s.file_descriptors
  object : ∀ ptr o, (∀ st, o ≠ .diskStream st) → (s'.live ptr = some o ↔ s.live ptr = some o)
  stream : ∀ ptr, (∃ st, s'.live ptr = some (.diskStream st)) ↔
    ∃ st, s.live ptr = some (.diskStream st)

theorem Moved.of_live {s s' : Kernel} (hheap : s'.heap = s.heap) (hstatics : s'.statics = s.statics)
    (hslots : s'.file_descriptors = s.file_descriptors) (hlive : s'.live = s.live) : Moved s s' :=
  ⟨hheap, hstatics, hslots, fun ptr o _ => by rw [hlive], fun ptr => by rw [hlive]⟩

theorem moved_rules : StreamRules Moved where
  frame := by
    refine ⟨fun s => Moved.of_live rfl rfl rfl rfl, fun h h' => ?_⟩
    exact ⟨h'.heap.trans h.heap, h'.statics.trans h.statics, h'.slots.trans h.slots,
      fun ptr o ho => (h'.object ptr o ho).trans (h.object ptr o ho),
      fun ptr => (h'.stream ptr).trans (h.stream ptr)⟩
  seek := by
    intro stream st s u s' h
    obtain ⟨⟨st0, hst0⟩, rfl⟩ := store_eq_some.mp h
    refine ⟨rfl, rfl, rfl, fun q o ho => ?_, fun q => ?_⟩
    · by_cases hq : q = stream
      · subst hq
        refine iff_of_false (fun h' => ?_) fun h' => ?_
        · exact ho st (Option.some.inj (h'.symm.trans (Kind.write_self diskStreamK s.live q st)))
        · exact ho st0 (Option.some.inj (h'.symm.trans hst0))
      · exact Eq.congr_left (Kind.write_of_ne _ _ _ hq)
    · by_cases hq : q = stream
      · subst hq
        exact iff_of_true ⟨st, Kind.write_self ..⟩ ⟨st0, hst0⟩
      · simp only [Kind.write_of_ne diskStreamK s.live st hq]
  sector := by
    intro lba s r s' h
    rw [diskReadBlock_state h]
    exact Moved.of_live rfl rfl rfl rfl

theorem moved_memWrite (out : UInt32) (bytes : List UInt8) : Keeps Moved (memWrite out bytes) := by
  refine Keeps.ite Keeps.stop ?_
  intro s u s' h
  obtain ⟨-, rfl⟩ := Prod.mk.inj (Option.some.inj h)
  exact Moved.of_live rfl rfl rfl rfl

theorem Moved.wf {s s' : Kernel} (h : Moved s s') (hwf : s.WF) : s'.WF := by
  refine hwf.of_live h.heap fun ptr o ho => ?_
  by_cases hst : ∃ st, o = .diskStream st
  · obtain ⟨st, rfl⟩ := hst
    obtain ⟨st', hst'⟩ := (h.stream ptr).mp ⟨st, ho⟩
    exact ⟨_, hst'⟩
  · exact ⟨o, (h.object ptr o fun st heq => hst ⟨st, heq⟩).mp ho⟩

/-- The private data of the volume. -/
def HasPrivate (s : Kernel) (priv : FatPrivate) : Prop :=
  s.live s.disk.fs_private = some (fatPrivateK.inj priv)

theorem HasPrivate.fsPrivate {s : Kernel} {priv : FatPrivate} (h : HasPrivate s priv) :
    fsPrivate s = some (priv, s) := by
  rw [RasOS.fsPrivate, bind_of_some (fetch_apply _ _)]
  exact load_of_live h

theorem HasPrivate.moved {s s' : Kernel} {priv : FatPrivate} (h : HasPrivate s priv)
    (hmoved : Moved s s') : HasPrivate s' priv := by
  have hdisk : s'.disk = s.disk := congrArg Statics.disk hmoved.statics
  unfold HasPrivate
  rw [hdisk]
  exact (hmoved.object _ _ fun _ heq => Obj.noConfusion heq).mpr h

/-- All but `fread` leave the memory alone. -/
theorem sameMem_rules : FileRules fun s s' => s'.mem = s.mem where
  toVolumeRules := project_rules Kernel.mem fun _ _ _ _ => rfl
  slot := by
    intro i desc s u s' h
    rw [← (Prod.mk.inj (Option.some.inj h)).2]

/-- Only `fopen` and `fclose` change the descriptor table. -/
theorem sameSlots_rules : VolumeRules fun s s' => s'.file_descriptors = s.file_descriptors :=
  project_rules Kernel.file_descriptors fun _ _ _ _ => rfl

end RasOS
