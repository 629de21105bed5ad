import RasOS.Task.TaskList
import RasOS.Task.MapSpec
import RasOS.Loader.ElfLoad

set_option autoImplicit false

/-! # Loading the file of a process

What `process_load_data` leaves in the process structure when it does not fail: a validated ELF
image, a flat binary, or, for a file that `fopen` does not find, an ELF process without a file. -/

namespace RasOS

open Machine

/-! ## `process_load_data` -/

/-- What the file of a process has been loaded as. -/
inductive ProcessLoaded (s : Kernel) (p : Process) : Prop
  | missing (htype : p.filetype = PROCESS_FILETYPE_ELF) (hptr : p.ptr = 0)
  | elf (f : ElfFile) (htype : p.filetype = PROCESS_FILETYPE_ELF) (hfile : ElfLoaded s p.ptr f)
  | binary (htype : p.filetype = PROCESS_FILETYPE_BINARY) (himage : s.live p.ptr = some (rawK.inj ()))
      (hsize : Allocated s.heap p.ptr (blocksFor p.size))

/-- What the file functions leave of a process that was zero: its file is loaded in some way. -/
structure DataLoaded (s0 : Kernel) (process : UInt32) (s : Kernel) (p : Process) : Prop where
  frame : FileFrame s0 s
  live : s.live process = some (processK.inj p)
  task : p.task = 0
  loaded : ProcessLoaded s p

/-- A process that is still zero. -/
theorem DataLoaded.zero {s0 s : Kernel} {process : UInt32} (hframe : FileFrame s0 s)
    (hprocess : s.live process = some (processK.inj {})) : DataLoaded s0 process s {} :=
  ⟨hframe, hprocess, rfl, .missing rfl rfl⟩

theorem processLoadElf_spec {s0 s : Kernel} {process : UInt32} (hframe : FileFrame s0 s)
    (hnew : s0.live process = none) (hprocess : s.live process = some (processK.inj {}))
    (filename : List UInt8) :
    Ensures (processLoadElf filename process) s fun res s' =>
      ∃ p, DataLoaded s0 process s' p ∧ (res < 0 → p = {}) := by
  refine Ensures.bind (elfLoad_spec hframe.wf filename) ?_
  rintro ⟨res, file_out⟩ s1 ⟨h1, hloaded⟩
  have hprocess1 : s1.live process = some (processK.inj {}) :=
    h1.object _ _ hprocess rfl fun _ heq => Obj.noConfusion heq
  refine Ensures.ite (fun _ => Ensures.pure ⟨{}, .zero (hframe.trans h1) hprocess1, fun _ => rfl⟩)
    fun hneg => ?_
  refine ensures_load fun p hp => ensures_store fun _ _ => Ensures.pure ?_
  obtain rfl : p = {} := Kind.inj_injective _ (Option.some.inj (hp.symm.trans hprocess1))
  refine ⟨_, ⟨(hframe.trans h1).write hnew hp _, Kind.write_self .., rfl, ?_⟩,
    fun h => absurd h hneg⟩
  cases file_out with
  | none => exact .missing rfl rfl
  | some elf =>
      obtain ⟨f, hf⟩ := hloaded elf rfl
      -- the process is not one of the objects of the file
      have helf : elf ≠ process := by
        rintro rfl
        exact Obj.noConfusion (Option.some.inj (hf.live.symm.trans hprocess1))
      have himage : f.elf_memory ≠ process := by
        intro heq
        have h := hf.image
        rw [heq, hprocess1] at h
        exact Obj.noConfusion (Option.some.inj h)
      exact .elf f rfl ⟨(Kind.write_of_ne _ _ _ helf).trans hf.live,
        (Kind.write_of_ne _ _ _ himage).trans hf.image, hf.valid⟩

/-- A process that has a file, a flat binary. -/
structure BinaryLoaded (s0 : Kernel) (process : UInt32) (s : Kernel) (p : Process) : Prop
    extends DataLoaded s0 process s p where
  binary : p.ptr ≠ 0 → p.filetype = PROCESS_FILETYPE_BINARY

theorem processLoadBinaryOpened_spec {s0 s : Kernel} {process : UInt32} {fd : Int}
    (hframe : FileFrame s0 s) (hnew : s0.live process = none)
    (hprocess : s.live process = some (processK.inj {})) :
    Ensures (processLoadBinaryOpened process fd) s fun _ s' =>
      ∃ p, BinaryLoaded s0 process s' p := by
  have hzero : ∀ s', FileFrame s s' → ∃ p, BinaryLoaded s0 process s' p := fun s' h =>
    ⟨{}, .zero (hframe.trans h) (h.object _ _ hprocess rfl fun _ heq => Obj.noConfusion heq), absurd rfl⟩
  refine Ensures.bind ((keepsRest_rules.fstat fd).ensures s) ?_
  rintro ⟨res, stat⟩ s1 h1
  have hf1 := h1 hframe.wf
  refine Ensures.ite (fun _ => Ensures.pure (hzero s1 hf1)) fun _ => ?_
  obtain ⟨mem, s2, halloc, hbytes⟩ := kzallocBytes_spec hf1.wf stat.filesize
  have hf2 := hf1.trans hbytes.since.fileFrame
  refine Ensures.bind (Q := fun ptr s' => ptr = mem ∧ s' = s2) ?_ ?_
  · intro ptr s' hrun
    obtain ⟨rfl, rfl⟩ := Prod.mk.inj (Option.some.inj (halloc.symm.trans hrun))
    exact ⟨rfl, rfl⟩
  rintro ptr s2' ⟨rfl, rfl⟩
  refine Ensures.ite (fun _ => Ensures.pure (hzero _ hf2)) fun hptr => ?_
  refine Ensures.bind ((keepsRest_rules.fread keepsRest_memWrite ptr stat.filesize 1 fd).ensures _) ?_
  rintro res s3 h3
  have hread := h3 hf2.wf
  have hf3 := hf2.trans hread
  refine Ensures.ite (fun _ => Ensures.pure (hzero _ hf3)) fun _ => ?_
  refine ensures_load fun p hp => ensures_store fun _ _ => ?_
  have hprocess3 : s3.live process = some (processK.inj {}) :=
    hf3.object _ _ hprocess rfl fun _ heq => Obj.noConfusion heq
  obtain rfl : p = {} := Kind.inj_injective _ (Option.some.inj (hp.symm.trans hprocess3))
  have hframe4 := (hframe.trans hf3).write (k := processK) hnew hp
    { filetype := PROCESS_FILETYPE_BINARY, ptr := ptr, size := stat.filesize }
  have hraw2 := (hbytes.live hptr).2
  have hraw3 : s3.live ptr = some (rawK.inj ()) :=
    hread.object _ _ hraw2 rfl fun _ heq => Obj.noConfusion heq
  have hne : ptr ≠ process := by
    rintro rfl
    exact Obj.noConfusion (Option.some.inj (hraw3.symm.trans hp))
  have hraw4 := (Kind.write_of_ne processK s3.live
    { filetype := PROCESS_FILETYPE_BINARY, ptr := ptr, size := stat.filesize } hne).trans hraw3
  have halloc3 := hread.allocated _ _ _ hraw2 rfl (hbytes.allocated hptr)
  intro r s5 hrun
  have hclose := keepsRest_rules.fclose fd _ r s5 hrun hframe4.wf
  refine ⟨_, ⟨hframe4.trans hclose, hclose.object _ _ (Kind.write_self ..) rfl
    fun _ heq => Obj.noConfusion heq, rfl, .binary rfl ?_ ?_⟩, fun _ => rfl⟩
  · exact hclose.object _ _ hraw4 rfl fun _ heq => Obj.noConfusion heq
  · exact hclose.allocated _ _ _ hraw4 rfl halloc3

theorem processLoadBinary_spec {s0 s : Kernel} {process : UInt32} (hframe : FileFrame s0 s)
    (hnew : s0.live process = none) (hprocess : s.live process = some (processK.inj {}))
    (filename : List UInt8) :
    Ensures (processLoadBinary filename process) s fun _ s' => ∃ p, BinaryLoaded s0 process s' p := by
  refine Ensures.bind ((keepsRest_rules.fopen filename [0x72]).ensures s) fun fd s1 h1 => ?_
  have hframe1 := h1 hframe.wf
  have hprocess1 : s1.live process = some (processK.inj {}) :=
    hframe1.object _ _ hprocess rfl fun _ heq => Obj.noConfusion heq
  refine Ensures.ite (fun _ => Ensures.pure ⟨{}, .zero (hframe.trans hframe1) hprocess1, absurd rfl⟩) fun _ => ?_
  exact processLoadBinaryOpened_spec (hframe.trans hframe1) hnew hprocess1

theorem processLoadData_spec {s0 s : Kernel} {process : UInt32} (hframe : FileFrame s0 s)
    (hnew : s0.live process = none) (hprocess : s.live process = some (processK.inj {}))
    (filename : List UInt8) :
    Ensures (processLoadData filename process) s fun _ s' => ∃ p, DataLoaded s0 process s' p := by
  refine Ensures.bind (processLoadElf_spec hframe hnew hprocess filename) fun res s1 h1 => ?_
  obtain ⟨p, hp, hzero⟩ := h1
  refine Ensures.ite (fun hres => ?_) fun _ => Ensures.pure ⟨p, hp⟩
  obtain rfl := hzero (by rw [hres]; decide)
  intro r s2 hrun
  obtain ⟨p, hbinary⟩ := processLoadBinary_spec hp.frame hnew hp.live filename r s2 hrun
  exact ⟨p, hbinary.toDataLoaded⟩

end RasOS
