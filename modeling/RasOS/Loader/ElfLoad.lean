import RasOS.Fs.Owned
import RasOS.Fs.PathLeak
import RasOS.Fs.Position
import RasOS.Kernel.Room
import RasOS.Loader.ElfHeader

set_option autoImplicit false

/-! # Loading an ELF file

`elf_load` opens a file, reads it whole and looks at its header. A file that is not there makes it return
0, `elf_is_executable` is never called, and what has been allocated when it fails is lost. -/

namespace RasOS

open Machine

/-! ## `elf_load` -/

/-- The ELF file structure `elf` has an image with a valid header. -/
structure ElfLoaded (s : Kernel) (elf : UInt32) (f : ElfFile) : Prop where
  live : s.live elf = some (elfFileK.inj f)
  image : s.live f.elf_memory = some (rawK.inj ())
  valid : elfValidateLoaded (headerAt s.mem f.elf_memory) = OK

/-- `elf_process_loaded` fails, or the header is valid and the structure filled in. -/
theorem elfProcessLoaded_spec {s0 s : Kernel} {elf : UInt32} (hframe : FileFrame s0 s)
    (hnew : s0.live elf = none)
    (hraw : ∀ f, s.live elf = some (elfFileK.inj f) → f.elf_memory ≠ 0 →
      s.live f.elf_memory = some (rawK.inj ())) :
    Ensures (elfProcessLoaded elf) s fun res s' =>
      FileFrame s0 s' ∧ (0 ≤ res → ∃ f, ElfLoaded s' elf f) := by
  refine ensures_elfHeader fun f hf hmem => ?_
  have hvalues : elfValidateLoaded (headerAt s.mem f.elf_memory) = OK ∨
      elfValidateLoaded (headerAt s.mem f.elf_memory) < 0 := by
    rw [elfValidateLoaded]
    split
    · exact Or.inl rfl
    · exact Or.inr (by decide)
  refine Ensures.ite (fun hneg => Ensures.pure ⟨hframe, fun hres => by omega⟩) fun hneg => ?_
  have hvalid := hvalues.resolve_right hneg
  refine ensures_elfHeader fun f' hf' _ => ?_
  obtain rfl : f' = f := Kind.inj_injective _ (Option.some.inj (hf'.symm.trans hf))
  refine ensures_load fun f'' hf'' => ensures_fetch (ensures_store fun _ _ => Ensures.pure ?_)
  obtain rfl : f'' = f' := Kind.inj_injective _ (Option.some.inj (hf''.symm.trans hf))
  refine ⟨hframe.write hnew hf _, fun _ => ⟨_, Kind.write_self .., ?_, ?_⟩⟩
  · rw [elfProcessPheadersLoop_memory]
    have hraw' := hraw f'' hf hmem
    have hne : f''.elf_memory ≠ elf := by
      intro heq
      rw [heq, hf] at hraw'
      exact Obj.noConfusion (Option.some.inj hraw')
    exact (Kind.write_of_ne _ _ _ hne).trans hraw'
  · rw [elfProcessPheadersLoop_memory]
    exact hvalid

theorem elfLoadOpened_spec {s0 s : Kernel} {elf : UInt32} {fd : Int} (hframe : FileFrame s0 s)
    (hnew : s0.live elf = none) :
    Ensures (elfLoadOpened elf fd) s fun res s' =>
      FileFrame s0 s' ∧ (0 ≤ res → ∃ f, ElfLoaded s' elf f) := by
  refine Ensures.bind ((keepsRest_rules.fstat fd).ensures s) ?_
  rintro ⟨res, stat⟩ s1 h1
  have hframe1 := hframe.trans (h1 hframe.wf)
  refine Ensures.ite (fun hneg => Ensures.pure ⟨hframe1, fun hres => absurd hres (not_le.mpr hneg)⟩)
    fun _ => ?_
  obtain ⟨mem, s2, halloc, hbytes⟩ := kzallocBytes_spec hframe1.wf stat.filesize
  have hframe2 := hframe1.trans hbytes.since.fileFrame
  refine Ensures.bind (Q := fun ptr s' => ptr = mem ∧ s' = s2) ?_ ?_
  · intro ptr s' hrun
    obtain ⟨rfl, rfl⟩ := Prod.mk.inj (Option.some.inj (halloc.symm.trans hrun))
    exact ⟨rfl, rfl⟩
  rintro ptr s2' ⟨rfl, rfl⟩
  refine ensures_load fun f hf => ensures_store fun _ _ => ?_
  have hframe3 := hframe2.write (k := elfFileK) hnew hf { f with elf_memory := ptr }
  refine Ensures.bind ((keepsRest_rules.fread keepsRest_memWrite ptr stat.filesize 1 fd).ensures _) ?_
  rintro res s4 h4
  have hread := h4 hframe3.wf
  have hframe4 := hframe3.trans hread
  refine Ensures.ite (fun hneg => Ensures.pure ⟨hframe4, fun hres => absurd hres (not_le.mpr hneg)⟩)
    fun _ => ?_
  refine elfProcessLoaded_spec hframe4 hnew fun f' hf' hmem => ?_
  have helf4 : s4.live elf = some (elfFileK.inj { f with elf_memory := ptr }) :=
    hread.object _ _ (Kind.write_self ..) rfl fun _ heq => Obj.noConfusion heq
  obtain rfl : f' = { f with elf_memory := ptr } :=
    Kind.inj_injective _ (Option.some.inj (hf'.symm.trans helf4))
  -- the image is where the allocation put it
  have hraw := (hbytes.live hmem).2
  have hne : ptr ≠ elf := by
    rintro rfl
    exact Obj.noConfusion (Option.some.inj (hraw.symm.trans hf))
  exact hread.object _ _ ((Kind.write_of_ne _ _ _ hne).trans hraw) rfl
    fun _ heq => Obj.noConfusion heq

theorem elfLoad_spec {s : Kernel} (hwf : s.WF) (filename : List UInt8) :
    Ensures (elfLoad filename) s fun r s' =>
      FileFrame s s' ∧ ∀ elf, r.2 = some elf → ∃ f, ElfLoaded s' elf f := by
  obtain ⟨elf, s1, halloc, hcases⟩ := kzalloc_spec elfFileK SIZEOF_ELF_FILE {} hwf
  have hsince := hcases.since hwf
  refine Ensures.bind (Q := fun ptr s' => ptr = elf ∧ s' = s1) ?_ ?_
  · intro ptr s' hrun
    obtain ⟨rfl, rfl⟩ := Prod.mk.inj (Option.some.inj (halloc.symm.trans hrun))
    exact ⟨rfl, rfl⟩
  rintro ptr s1' ⟨rfl, rfl⟩
  have hnew : s.live ptr = none := by
    by_cases hnull : ptr = 0
    · rw [hnull]
      exact hwf.live_zero
    · exact (hcases.live hnull).1
  refine Ensures.bind ((keepsRest_rules.fopen filename [0x72]).ensures _) fun res s2 h2 => ?_
  have hframe2 := hsince.fileFrame.trans (h2 hsince.wf)
  refine Ensures.ite (fun _ => ?_) fun _ => ?_
  · refine Ensures.bind ((keepsRest_rules.fclose 0).ensures _) fun _ s3 h3 => Ensures.pure ?_
    exact ⟨hframe2.trans (h3 hframe2.wf), fun elf h => by cases h⟩
  · refine Ensures.bind (elfLoadOpened_spec hframe2 hnew) fun res' s3 h3 => ?_
    obtain ⟨hframe3, hloaded⟩ := h3
    refine Ensures.bind (Q := fun _ s4 => FileFrame s3 s4 ∧ s4.mem = s3.mem) ?_ ?_
    · intro r s4 hrun
      exact ⟨keepsRest_rules.fclose res s3 r s4 hrun hframe3.wf,
        sameMem_rules.fclose res s3 r s4 hrun⟩
    · rintro _ s4 ⟨hclose, hmem⟩
      refine Ensures.ite (fun _ => Ensures.pure ⟨hframe3.trans hclose, fun elf h => by cases h⟩)
        fun hres => Ensures.pure ⟨hframe3.trans hclose, fun elf h => ?_⟩
      obtain rfl := Option.some.inj h
      obtain ⟨f, hf⟩ := hloaded (not_lt.mp hres)
      refine ⟨f, hclose.object _ _ hf.live rfl fun _ heq => Obj.noConfusion heq,
        hclose.object _ _ hf.image rfl fun _ heq => Obj.noConfusion heq, ?_⟩
      rw [hmem]
      exact hf.valid

/-! ## A volume with an ELF file -/

/-- The four bytes of a word, the lowest first. -/
def bytes32 (x : UInt32) : List UInt8 :=
  [x.toUInt8, (x >>> 8).toUInt8, (x >>> 16).toUInt8, (x >>> 24).toUInt8]

/-- An executable of 84 bytes with one program header; the code does not read `p_memsz`. -/
def elfBytes (phdr : Elf32Phdr) (p_memsz : UInt32) : List UInt8 :=
  [0x7f, 0x45, 0x4c, 0x46, 1, 1] ++ List.replicate 10 0 ++ [2, 0, 3, 0, 1, 0, 0, 0] ++
    bytes32 RASOS_PROGRAM_VIRTUAL_ADDRESS ++ bytes32 52 ++ List.replicate 12 0 ++ [1, 0] ++
    List.replicate 6 0 ++ bytes32 phdr.p_type ++ bytes32 phdr.p_offset ++ bytes32 phdr.p_vaddr ++
    bytes32 0 ++ bytes32 phdr.p_filesz ++ bytes32 p_memsz ++ bytes32 phdr.p_flags ++ bytes32 4096

/-- The volume on which the file `A` is this executable. -/
def elfKernel (phdr : Elf32Phdr) (p_memsz : UInt32) : Kernel :=
  oneFileKernel 84 (fun _ => 0xff) (fun _ i => (elfBytes phdr p_memsz).getD i 0) 0

/-! ## Reading the file -/

/-- A file that has been read: its structure, its descriptor, and where its bytes are. -/
structure FileImage where
  elf_file : UInt32
  fd : Int
  memory : UInt32
  size : UInt32
  deriving DecidableEq

/-- The calls of `elf_load` that open a file and read it whole, as long as all of them succeed. -/
def readImage (filename : List UInt8) : KernelM FileImage := do
  let elf_file ← kzalloc elfFileK SIZEOF_ELF_FILE {}
  let fd ← fopen filename [0x72]
  if fd ≤ 0 then
    stop
  else do
    let (res, stat) ← fstat fd
    if res < 0 then
      stop
    else do
      let elf_memory ← kzallocBytes stat.filesize
      let file ← load elfFileK elf_file
      store elfFileK elf_file { file with elf_memory := elf_memory }
      let res ← fread elf_memory stat.filesize 1 fd
      if res < 0 ∨ elf_memory = 0 then
        stop
      else
        return ⟨elf_file, fd, elf_memory, stat.filesize⟩

/-- What `elf_load` does with a file that has been read. -/
def elfLoadRead (image : FileImage) : KernelM (Int × Option UInt32) := do
  let res ← elfProcessLoaded image.elf_file
  let _ ← fclose image.fd
  if res < 0 then
    return (res, none)
  else
    return (res, some image.elf_file)

/-- The file can be opened and read, and its header passes all the rules of the loader. -/
def Loadable (filename : List UInt8) (s : Kernel) : Prop :=
  Total (readImage filename) s fun image s' =>
    elfValidateLoaded (headerAt s'.mem image.memory) = OK ∧
      elfIsExecutable (headerAt s'.mem image.memory) = true

instance (filename : List UInt8) (s : Kernel) : Decidable (Loadable filename s) := by
  unfold Loadable
  infer_instance

/-- An open file about which `fstat` knows something is a file, and has one of the first 511 descriptors. -/
theorem Opened.standsAt {s s1 s2 : Kernel} {fd : Int} {item : UInt32} {r : Int × FileStat}
    (h : Opened s fd s1 item) (hstat : fstat fd s1 = some (r, s2)) (hres : 0 ≤ r.1) :
    1 ≤ fd ∧ fd < 512 ∧ ∃ entry, StandsAt s1 fd entry 0 ∧ r.2.filesize = itemFilesize entry := by
  obtain ⟨slot, hslot, rfl, -, desc, priv, index, hdescriptor, hne, hdesc, hpriv⟩ := h
  have hindex : ((slot : Int) + 1 - 1).toNat = slot := by omega
  have herror : ¬ 0 ≤ - EINVARG := by decide
  unfold fstat at hstat
  by_cases hlast : (slot : Int) + 1 < 512
  · rw [bind_of_some (fileGetDescriptor_of_range (by omega) hlast s1), hindex, hdescriptor, if_neg hne,
      bind_of_some (load_of_live hdesc)] at hstat
    change fat16Stat priv s1 = some (r, s2) at hstat
    unfold fat16Stat at hstat
    rw [bind_of_some (load_of_live hpriv)] at hstat
    obtain ⟨⟨ptr, type⟩, s3, hload, hrest⟩ := bind_eq_some.mp hstat
    obtain ⟨hitem, rfl⟩ := load_eq_some.mp hload
    by_cases htype : type = FAT_ITEM_TYPE_FILE
    · rw [if_neg (not_not.mpr htype)] at hrest
      obtain ⟨entry, s4, hload', hlast'⟩ := bind_eq_some.mp hrest
      obtain ⟨hentry, rfl⟩ := load_eq_some.mp hload'
      obtain ⟨rfl, -⟩ := pure_eq_some.mp hlast'
      subst htype
      refine ⟨by omega, hlast, entry, ⟨index, priv, item, ptr, ?_, hpriv, hitem, hentry⟩, rfl⟩
      rw [hindex, hdescriptor]
      exact hdesc
    · rw [if_pos htype] at hrest
      obtain ⟨rfl, -⟩ := pure_eq_some.mp hrest
      exact absurd hres herror
  · rw [bind_of_some (fileGetDescriptor_of_not (by omega) s1), if_pos rfl] at hstat
    obtain ⟨rfl, -⟩ := pure_eq_some.mp hstat
    exact absurd hres herror

/-- A file can be closed. -/
theorem StandsAt.fclose {s : Kernel} {fd : Int} {entry : List UInt8} {pos : UInt32} (h : StandsAt s fd entry pos)
    (hwf : s.WF) (h1 : 1 ≤ fd) (h2 : fd < 512) : ∃ s', fclose fd s = some (OK, s') := by
  obtain ⟨index, priv, item, ptr, hdesc, hpriv, hitem, hentry⟩ := h
  have howns : DescriptorOwns s (s.file_descriptors (fd - 1).toNat)
      { index := index, filesystem := some .fat16, private_data := priv } ⟨item, pos⟩ [ptr, item] :=
    ⟨hdesc, rfl, hpriv, .file _ entry hitem rfl hentry⟩
  exact ⟨_, howns.fclose (fileGetDescriptor_of_range h1 h2 s) (hwf.ne_zero hdesc)⟩

/-- The state in which a file has been read. -/
structure ImageRead (s : Kernel) (image : FileImage) (s' : Kernel) : Prop where
  wf : s'.WF
  frame : FileFrame s s'
  fresh : s.live image.elf_file = none
  elf_file : s'.live image.elf_file = some (elfFileK.inj { elf_memory := image.memory })
  memory : s'.live image.memory = some (rawK.inj ())
  allocated : Allocated s'.heap image.memory (blocksFor image.size)
  index : 1 ≤ image.fd ∧ image.fd < 512
  file : ∃ entry, StandsAt s' image.fd entry 0 ∧ image.size = itemFilesize entry

/-- Allocating leaves an open file alone. -/
theorem Since.standsAt {s s' : Kernel} (h : Since s s') {fd : Int} {entry : List UInt8} {pos : UInt32}
    (hfile : StandsAt s fd entry pos) : StandsAt s' fd entry pos := by
  obtain ⟨index, priv, item, ptr, hdesc, hpriv, hitem, hentry⟩ := hfile
  refine ⟨index, priv, item, ptr, ?_, h.object _ _ hpriv, h.object _ _ hitem, h.object _ _ hentry⟩
  rw [h.slots]
  exact h.object _ _ hdesc

/-- So does writing to the structure of an ELF file. -/
theorem StandsAt.writeElf {s : Kernel} {fd : Int} {entry : List UInt8} {pos elf : UInt32} {f : ElfFile}
    (h : StandsAt s fd entry pos) (helf : s.live elf = some (elfFileK.inj f)) (f' : ElfFile) :
    StandsAt { s with live := elfFileK.write s.live elf f' } fd entry pos := by
  have hdescK : elfFileK.Apart fileDescriptorK := fun _ _ h => Obj.noConfusion h
  have hprivK : elfFileK.Apart fatFileDescriptorK := fun _ _ h => Obj.noConfusion h
  have hitemK : elfFileK.Apart fatItemK := fun _ _ h => Obj.noConfusion h
  have hentryK : elfFileK.Apart dirItemsK := fun _ _ h => Obj.noConfusion h
  obtain ⟨index, priv, item, ptr, hdesc, hpriv, hitem, hentry⟩ := h
  exact ⟨index, priv, item, ptr, (Kind.write_apart hdescK helf).mpr hdesc,
    (Kind.write_apart hprivK helf).mpr hpriv, (Kind.write_apart hitemK helf).mpr hitem,
    (Kind.write_apart hentryK helf).mpr hentry⟩

/-- **What reading the file leaves**, and that the rest of `elf_load` begins there. -/
theorem readImage_spec {s s' : Kernel} {filename : List UInt8} {image : FileImage} (hwf : s.WF)
    (h : readImage filename s = some (image, s')) :
    ImageRead s image s' ∧ elfLoad filename s = elfLoadRead image s' := by
  obtain ⟨elf, s1, halloc, h1⟩ := bind_eq_some.mp h
  have hcases := kzalloc_cases hwf halloc
  have hsince1 := hcases.since hwf
  obtain ⟨fd, t2, hopen, h2⟩ := bind_eq_some.mp h1
  have hframe2 := keepsRest_rules.fopen filename [0x72] s1 fd t2 hopen hsince1.wf
  by_cases hfd : fd ≤ 0
  · rw [if_pos hfd] at h2
    cases h2
  rw [if_neg hfd] at h2
  obtain ⟨⟨res, stat⟩, s2, hstat, h3⟩ := bind_eq_some.mp h2
  obtain rfl := fstat_same hstat
  by_cases hres : res < 0
  · change (if res < 0 then stop else _ : KernelM FileImage) s2 = _ at h3
    rw [if_pos hres] at h3
    cases h3
  change (if res < 0 then stop else _ : KernelM FileImage) s2 = _ at h3
  rw [if_neg hres] at h3
  obtain ⟨item, hopened⟩ := fopen_spec filename [0x72] s1 hsince1.wf fd s2 hopen (not_le.mp hfd)
  obtain ⟨hlow, hhigh, entry, hstands, hsize⟩ := hopened.standsAt hstat (not_lt.mp hres)
  -- the allocation of the image
  obtain ⟨memory, t3, halloc3, hbytes⟩ := kzallocBytes_spec hframe2.wf stat.filesize
  rw [bind_of_some halloc3] at h3
  obtain ⟨file, s3, hload, h4⟩ := bind_eq_some.mp h3
  obtain ⟨hfile, rfl⟩ := load_eq_some.mp hload
  rw [bind_of_some (store_of_live hfile _)] at h4
  obtain ⟨res', s4, hread, h5⟩ := bind_eq_some.mp h4
  by_cases hbad : res' < 0 ∨ memory = 0
  · rw [if_pos hbad] at h5
    cases h5
  rw [if_neg hbad] at h5
  obtain ⟨rfl, rfl⟩ := pure_eq_some.mp h5
  obtain ⟨hok, hmemory⟩ := not_or.mp hbad
  -- the structure of the file is the one allocated first
  have hne := hbytes.since.wf.ne_zero hfile
  obtain ⟨hfresh, hlive⟩ := hcases.live hne
  have hframe3 := hsince1.fileFrame.trans (hframe2.trans hbytes.since.fileFrame)
  have hempty := hbytes.since.object _ _ (hframe2.object _ _ hlive rfl fun _ heq => Obj.noConfusion heq)
  obtain rfl : file = {} := Kind.inj_injective _ (Option.some.inj (hfile.symm.trans hempty))
  have hframe4 := hframe3.write (k := elfFileK) hfresh hfile { elf_memory := memory }
  have hframe5 := keepsRest_rules.fread keepsRest_memWrite memory stat.filesize 1 fd _ _ _ hread hframe4.wf
  have hmoved := moved_rules.fread moved_memWrite memory stat.filesize 1 fd _ _ _ hread
  have hraw := (hbytes.live hmemory).2
  have hapart : memory ≠ elf := by
    rintro rfl
    exact Obj.noConfusion (Option.some.inj (hraw.symm.trans hfile))
  have hraw' := (Kind.write_of_ne elfFileK s3.live { elf_memory := memory } hapart).trans hraw
  refine ⟨⟨hframe5.wf, hframe4.trans hframe5, hfresh, ?_, ?_, ?_, ⟨hlow, hhigh⟩, entry, ?_, hsize⟩, ?_⟩
  · exact hframe5.object _ _ (Kind.write_self ..) rfl fun _ heq => Obj.noConfusion heq
  · exact hframe5.object _ _ hraw' rfl fun _ heq => Obj.noConfusion heq
  · exact hframe5.allocated _ _ _ hraw' rfl (hbytes.allocated hmemory)
  · exact hmoved.standsAt ((hbytes.since.standsAt hstands).writeElf hfile _)
  · have hopened' : elfLoadOpened elf fd s2 = elfProcessLoaded elf s4 := by
      unfold elfLoadOpened
      rw [bind_of_some hstat]
      change (if res < 0 then _ else _ : KernelM Int) s2 = _
      rw [if_neg hres, bind_of_some halloc3, bind_of_some hload, bind_of_some (store_of_live hfile _),
        bind_of_some hread, if_neg hok]
    unfold elfLoad elfLoadRead
    rw [bind_of_some halloc, bind_of_some hopen, if_neg hfd, bind_apply, hopened', bind_apply]

/-- A file that `elf_load` accepts has been read. -/
theorem elfLoad_readImage {s s' : Kernel} {filename : List UInt8} {res : Int} {elf : UInt32} (hwf : s.WF)
    (h : elfLoad filename s = some ((res, some elf), s')) :
    ∃ image s1, readImage filename s = some (image, s1) ∧ image.elf_file = elf := by
  obtain ⟨elf', s1, halloc, h1⟩ := bind_eq_some.mp h
  obtain ⟨fd, s2, hopen, h2⟩ := bind_eq_some.mp h1
  have hwf1 := ((kzalloc_cases hwf halloc).since hwf).wf
  have hwf2 := (keepsRest_rules.fopen filename [0x72] s1 fd s2 hopen hwf1).wf
  by_cases hfd : fd ≤ 0
  · rw [if_pos hfd] at h2
    obtain ⟨_, s3, -, h3⟩ := bind_eq_some.mp h2
    cases (pure_eq_some.mp h3).1
  rw [if_neg hfd] at h2
  obtain ⟨res', s3, hopened, h3⟩ := bind_eq_some.mp h2
  obtain ⟨_, s4, -, h4⟩ := bind_eq_some.mp h3
  by_cases hres : res' < 0
  · rw [if_pos hres] at h4
    cases (pure_eq_some.mp h4).1
  rw [if_neg hres] at h4
  obtain ⟨heq, -⟩ := pure_eq_some.mp h4
  obtain ⟨-, rfl⟩ : res' = res ∧ elf' = elf := by simpa using heq
  -- the calls on the open file, which all have succeeded
  obtain ⟨⟨res2, stat⟩, s5, hstat, h5⟩ := bind_eq_some.mp hopened
  by_cases hstat0 : res2 < 0
  · change (if res2 < 0 then _ else _ : KernelM Int) s5 = _ at h5
    rw [if_pos hstat0] at h5
    exact absurd ((pure_eq_some.mp h5).1 ▸ hstat0) hres
  change (if res2 < 0 then _ else _ : KernelM Int) s5 = _ at h5
  rw [if_neg hstat0] at h5
  obtain ⟨memory, s6, hmemory, h6⟩ := bind_eq_some.mp h5
  obtain ⟨file, s7, hload, h7⟩ := bind_eq_some.mp h6
  obtain ⟨_, s8, hstore, h8⟩ := bind_eq_some.mp h7
  obtain ⟨res3, s9, hread, h9⟩ := bind_eq_some.mp h8
  by_cases hread0 : res3 < 0
  · rw [if_pos hread0] at h9
    exact absurd ((pure_eq_some.mp h9).1 ▸ hread0) hres
  rw [if_neg hread0] at h9
  -- the header has been looked at
  have hne : memory ≠ 0 := by
    obtain rfl := fstat_same hstat
    obtain ⟨hfile, rfl⟩ := load_eq_some.mp hload
    have hwf6 := (kzallocBytes_since hwf2 hmemory).wf
    obtain ⟨-, rfl⟩ := store_eq_some.mp hstore
    have hframe := keepsRest_rules.fread keepsRest_memWrite memory stat.filesize 1 fd _ _ _ hread
      (hwf6.write (k := elfFileK) hfile _)
    have hkept := hframe.object _ _ (Kind.write_self elfFileK _ elf' { file with elf_memory := memory }) rfl
      fun _ heq => Obj.noConfusion heq
    obtain ⟨_, _, hheader, -⟩ := bind_eq_some.mp h9
    obtain ⟨file', s10, hload', hcheck⟩ := bind_eq_some.mp hheader
    obtain ⟨hfile', rfl⟩ := load_eq_some.mp hload'
    obtain rfl := elfFileK.inj_injective (Option.some.inj (hkept.symm.trans hfile'))
    rintro rfl
    cases hcheck
  refine ⟨⟨elf', fd, memory, stat.filesize⟩, s9, ?_, rfl⟩
  unfold readImage
  rw [bind_of_some halloc, bind_of_some hopen, if_neg hfd, bind_of_some hstat]
  change (if res2 < 0 then stop else _ : KernelM FileImage) s5 = _
  rw [if_neg hstat0, bind_of_some hmemory, bind_of_some hload, bind_of_some hstore, bind_of_some hread,
    if_neg (not_or.mpr ⟨hread0, hne⟩)]
  rfl

/-! ## What is done with it -/

/-- The structure of a file points to the bytes that have been read. -/
structure ImageHeld (s : Kernel) (image : FileImage) (mem : UInt32 → UInt8) : Prop where
  elf_file : ∃ f, s.live image.elf_file = some (elfFileK.inj f) ∧ f.elf_memory = image.memory
  memory : s.live image.memory = some (rawK.inj ())
  allocated : Allocated s.heap image.memory (blocksFor image.size)
  bytes : s.mem = mem

theorem elfValidateLoaded_cases (header : ElfHeader) :
    elfValidateLoaded header = OK ∨ elfValidateLoaded header = - EINFORMAT := by
  unfold elfValidateLoaded
  split
  · exact Or.inl rfl
  · exact Or.inr rfl

/-- A valid header is processed; with another one nothing happens. -/
theorem elfProcessLoaded_run {s : Kernel} {elf : UInt32} {f : ElfFile}
    (hf : s.live elf = some (elfFileK.inj f)) (hmem : f.elf_memory ≠ 0) :
    elfProcessLoaded elf s = some (if elfValidateLoaded (headerAt s.mem f.elf_memory) = OK then
      (OK, { s with live := elfFileK.write s.live elf (elfProcessPheadersLoop s.mem
        (headerAt s.mem f.elf_memory) (headerAt s.mem f.elf_memory).e_phnum.toNat 0 f) })
      else (- EINFORMAT, s)) := by
  unfold elfProcessLoaded
  rw [bind_of_some (elfHeader_of_live hf hmem)]
  rcases elfValidateLoaded_cases (headerAt s.mem f.elf_memory) with hvalid | hinvalid
  · rw [hvalid, if_neg (by decide), if_pos rfl]
    exact elfProcessPheaders_of_live hf hmem
  · rw [hinvalid, if_pos (by decide), if_neg (by decide)]
    rfl

/-- A file that has been read is accepted or refused for its header alone. -/
theorem elfLoadRead_spec {s s1 : Kernel} {image : FileImage} (h : ImageRead s image s1) :
    Total (elfLoadRead image) s1 fun r s' =>
      (elfValidateLoaded (headerAt s1.mem image.memory) = OK →
        r = (OK, some image.elf_file) ∧ ImageHeld s' image s1.mem) ∧
      (elfValidateLoaded (headerAt s1.mem image.memory) ≠ OK → r = (- EINFORMAT, none)) := by
  have hmemory : image.memory ≠ 0 := h.wf.ne_zero h.memory
  obtain ⟨h1, h2⟩ := h.index
  obtain ⟨entry, hfile, -⟩ := h.file
  have hprocess := elfProcessLoaded_run h.elf_file hmemory
  unfold elfLoadRead
  by_cases hvalid : elfValidateLoaded (headerAt s1.mem image.memory) = OK
  · rw [if_pos hvalid] at hprocess
    have hkept := elfProcessPheadersLoop_memory s1.mem (headerAt s1.mem image.memory)
      (headerAt s1.mem image.memory).e_phnum.toNat 0 { elf_memory := image.memory }
    dsimp only at hprocess
    generalize elfProcessPheadersLoop s1.mem (headerAt s1.mem image.memory)
      (headerAt s1.mem image.memory).e_phnum.toNat 0 { elf_memory := image.memory } = file at hprocess hkept
    have hwf2 := h.wf.write (k := elfFileK) h.elf_file file
    obtain ⟨s', hclose⟩ := (hfile.writeElf h.elf_file file).fclose hwf2 h1 h2
    have hframe := keepsRest_rules.fclose image.fd _ _ _ hclose hwf2
    have hbytes := sameMem_rules.fclose image.fd _ _ _ hclose
    -- the image is not the structure
    have hapart : image.memory ≠ image.elf_file := by
      intro heq
      have hraw := h.memory
      rw [heq, h.elf_file] at hraw
      cases hraw
    have hraw := (Kind.write_of_ne elfFileK s1.live file hapart).trans h.memory
    refine (total_bind_of_some hprocess).mpr ((total_bind_of_some hclose).mpr ?_)
    refine total_pure.mpr ⟨fun _ => ⟨rfl, ?_⟩, absurd hvalid⟩
    exact ⟨⟨file, hframe.object _ _ (Kind.write_self ..) rfl fun _ heq => Obj.noConfusion heq, hkept⟩,
      hframe.object _ _ hraw rfl fun _ heq => Obj.noConfusion heq,
      hframe.allocated _ _ _ hraw rfl h.allocated, hbytes⟩
  · rw [if_neg hvalid] at hprocess
    obtain ⟨s', hclose⟩ := hfile.fclose h.wf h1 h2
    refine (total_bind_of_some hprocess).mpr ((total_bind_of_some hclose).mpr ?_)
    exact total_pure.mpr ⟨fun hok => absurd hok hvalid, fun _ => rfl⟩

/-! ## What an error leaves -/

/-- A change of an object that is not the root of a path. -/
theorem keepsRoots_store {α : Type} {k : Kind Obj α} (hk : ∀ a, (k.inj a).isRoot = false) (ptr : UInt32)
    (a : α) : Keeps KeepsRoots (store k ptr a) := by
  intro s u s' h hwf
  obtain ⟨⟨b, hb⟩, rfl⟩ := store_eq_some.mp h
  refine ⟨hwf.write hb a, fun q o ho hroot => ⟨o, ?_, hroot⟩⟩
  have hq : q ≠ ptr := by
    rintro rfl
    rw [hb] at ho
    obtain rfl := Option.some.inj ho
    rw [hk b] at hroot
    cases hroot
  exact (Kind.write_of_ne _ _ _ hq).trans ho

theorem keepsRoots_kzallocBytes (size : UInt32) : Keeps KeepsRoots (kzallocBytes size) := by
  intro s ptr s' h hwf
  have hsince := kzallocBytes_since hwf h
  exact ⟨hsince.wf, fun q o ho hroot => ⟨o, hsince.object q o ho, hroot⟩⟩

theorem keepsRoots_elfProcessLoaded (elf : UInt32) : Keeps KeepsRoots (elfProcessLoaded elf) := by
  have hR := keepsRoots_rules
  have hheader : Keeps KeepsRoots (elfHeader elf) := hR.bind (hR.load _ _) fun _ => Keeps.ite Keeps.stop (hR.fetch _)
  refine hR.bind hheader fun header => Keeps.ite (hR.pure _) ?_
  refine hR.bind hheader fun header => hR.bind (hR.load _ _) fun file => hR.bind (hR.fetch _) fun mem => ?_
  exact hR.bind (keepsRoots_store (fun _ => rfl) _ _) fun _ => hR.pure _

theorem keepsRoots_elfLoadOpened (elf : UInt32) (fd : Int) : Keeps KeepsRoots (elfLoadOpened elf fd) := by
  have hR := keepsRoots_rules
  refine hR.bind (hR.fstat fd) ?_
  rintro ⟨res, stat⟩
  refine Keeps.ite (hR.pure _) (hR.bind (keepsRoots_kzallocBytes _) fun elf_memory => ?_)
  refine hR.bind (hR.load _ _) fun file => hR.bind (keepsRoots_store (fun _ => rfl) _ _) fun _ => ?_
  refine hR.bind (hR.fread keepsRoots_memWrite _ _ _ _) fun res => Keeps.ite (hR.pure _) ?_
  exact keepsRoots_elfProcessLoaded elf

/-- `fopen` does not return an error. -/
theorem fopen_nonneg (filename mode_str : List UInt8) (s : Kernel) :
    Ensures (fopen filename mode_str) s fun fd _ => 0 ≤ fd := by
  unfold fopen
  refine Ensures.bind (Q := fun _ _ => True) (fun _ _ _ => trivial) fun res s1 _ => Ensures.pure ?_
  split <;> omega

/-- **Every error loses the path**: the file had been opened, and the root of its path stays. -/
theorem elfLoad_error (filename : List UInt8) {s : Kernel} (hwf : s.WF) :
    Ensures (elfLoad filename) s fun r s' => r.1 < 0 → NewRoot s s' := by
  have hR := keepsRoots_rules
  obtain ⟨elf, s1, halloc, hcases⟩ := kzalloc_spec elfFileK SIZEOF_ELF_FILE {} hwf
  have hsince := hcases.since hwf
  refine (ensures_bind_of_some halloc).mpr ?_
  refine Ensures.bind (Q := fun fd s2 => 0 ≤ fd ∧ s2.WF ∧ (0 < fd → NewRoot s1 s2)) ?_ ?_
  · exact fun fd s2 hopen => ⟨fopen_nonneg filename [0x72] s1 fd s2 hopen,
      fopen_opened_newRoot filename [0x72] hsince.wf fd s2 hopen⟩
  rintro fd s2 ⟨hpos, hwf2, hnew⟩
  refine Ensures.ite (fun _ => ?_) fun hfd => ?_
  · refine Ensures.bind (Q := fun _ _ => True) (fun _ _ _ => trivial) fun _ s3 _ => Ensures.pure ?_
    exact fun hneg => absurd hpos (not_le.mpr hneg)
  · have hkeep : Keeps KeepsRoots (elfLoadOpened elf fd >>= fun res => fclose fd >>= fun _ =>
        if res < 0 then pure (res, none) else pure (res, some elf)) :=
      hR.bind (keepsRoots_elfLoadOpened elf fd) fun res => hR.bind (hR.fclose fd) fun _ =>
        Keeps.ite (hR.pure _) (hR.pure _)
    intro r s' hrun _
    obtain ⟨ptr, o, hfree, hroot⟩ := (hnew (not_le.mp hfd)).keep hwf2 (hkeep s2 r s' hrun)
    exact ⟨ptr, o, hsince.fresh hfree, hroot⟩

/-! ## The outcome -/

/-- What `elf_load` is to do. -/
structure ElfLoadMeets (filename : List UInt8) (s : Kernel) (r : Int × Option UInt32) (s' : Kernel) :
    Prop where
  accepts : 0 ≤ r.1 ↔ Loadable filename s
  file : 0 ≤ r.1 → ∃ image s1, readImage filename s = some (image, s1) ∧ r.2 = some image.elf_file ∧
    ImageHeld s' image s1.mem
  untouched : r.1 < 0 → r.2 = none
  format : r.1 < 0 → (r.1 = - EINFORMAT ↔ ∃ image s1, readImage filename s = some (image, s1))
  restored : r.1 < 0 → Restored s s'

/-- **When `elf_load` does what it is to do**: only with a file that it may accept. -/
theorem elfLoad_iff {s : Kernel} (hwf : s.WF) (filename : List UInt8) :
    Total (elfLoad filename) s (ElfLoadMeets filename s) ↔ Loadable filename s := by
  constructor
  · rintro ⟨r, s', hrun, hmeets⟩
    by_contra hnot
    have hneg : r.1 < 0 := not_le.mp fun hpos => hnot (hmeets.accepts.mp hpos)
    -- an error leaves something behind
    exact (elfLoad_error filename hwf r s' hrun hneg).not_restored (hmeets.restored hneg)
  · intro hloadable
    obtain ⟨image, s1, hread, hvalid, -⟩ := id hloadable
    obtain ⟨himage, hload⟩ := readImage_spec hwf hread
    refine (total_of_eq hload).mpr ((elfLoadRead_spec himage).mono fun r s' hout => ?_)
    obtain ⟨rfl, hholds⟩ := hout.1 hvalid
    have hpos : (0 : Int) ≤ OK := by decide
    have hneg : ¬ (OK : Int) < 0 := by decide
    exact ⟨iff_of_true hpos hloadable, fun _ => ⟨image, s1, hread, rfl, hholds⟩, fun h => absurd h hneg,
      fun h => absurd h hneg, fun h => absurd h hneg⟩

/-- The program of 84 bytes is accepted, as it should be. -/
theorem elfLoad_accepts_A : Total (elfLoad pathA) (elfKernel ⟨PT_LOAD, 0, 0x400000, 84, 0⟩ 84)
    (ElfLoadMeets pathA (elfKernel ⟨PT_LOAD, 0, 0x400000, 84, 0⟩ 84)) :=
  (elfLoad_iff (oneFileKernel_wf (by decide)) pathA).mpr (by decide +kernel)

/-- There is no file `B`, and `elf_load` does not say so: it returns 0. -/
theorem elfLoad_missing :
    Total (elfLoad [0x30, COLON, SLASH, 0x42]) (elfKernel ⟨PT_LOAD, 0, 0x400000, 84, 0⟩ 84)
      (fun r _ => r = (0, none)) ∧
    ¬ Total (elfLoad [0x30, COLON, SLASH, 0x42]) (elfKernel ⟨PT_LOAD, 0, 0x400000, 84, 0⟩ 84)
      (ElfLoadMeets [0x30, COLON, SLASH, 0x42] (elfKernel ⟨PT_LOAD, 0, 0x400000, 84, 0⟩ 84)) := by
  have hrun : Total (elfLoad [0x30, COLON, SLASH, 0x42]) (elfKernel ⟨PT_LOAD, 0, 0x400000, 84, 0⟩ 84)
      (fun r _ => r = (0, none)) := by decide +kernel
  have hnot : ¬ Loadable [0x30, COLON, SLASH, 0x42] (elfKernel ⟨PT_LOAD, 0, 0x400000, 84, 0⟩ 84) := by
    decide +kernel
  obtain ⟨r, s', hload, rfl⟩ := id hrun
  refine ⟨hrun, fun hmeets => hnot ?_⟩
  exact ((total_of_some hload).mp hmeets).accepts.mp (Int.le_refl 0)

end RasOS
