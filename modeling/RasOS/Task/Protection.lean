import RasOS.Task.ProcessLoad

set_option autoImplicit false

/-! # What a loaded process can reach

The directory of a process is the identity, to be read by the user, after the writes of its image and
of its stack. The last program header that maps a page decides where it leads, and nothing compares the
pages a header maps with the pages of the image, or with those the kernel uses. -/

namespace RasOS

open Machine

/-! ## The pages of an image -/

/-- The number of pages that a program header maps. -/
def headerCount (elf_memory : UInt32) (phdr : Elf32Phdr) : Nat :=
  (pagingAlignAddress (elfPhdrPhysAddress elf_memory phdr + phdr.p_filesz) -
    pagingAlignToLowerPage (elfPhdrPhysAddress elf_memory phdr)).toNat / 4096

/-- The `k`-th page that it maps. -/
def headerPage (phdr : Elf32Phdr) (k : Nat) : Nat :=
  (pagingAlignToLowerPage phdr.p_vaddr + UInt32.ofNat (4096 * k)).toNat / 4096

/-- Where this page is mapped to. -/
def headerPhys (elf_memory : UInt32) (phdr : Elf32Phdr) (k : Nat) : UInt32 :=
  pagingAlignToLowerPage (elfPhdrPhysAddress elf_memory phdr) + UInt32.ofNat (4096 * k)

/-- A page is mapped by program header `i`, as its `k`-th page, and by no later one. -/
structure LastHeader (mem : UInt32 → UInt8) (elf_memory : UInt32) (page i k : Nat) : Prop where
  index : i < programCount mem elf_memory
  count : k < headerCount elf_memory (programHeader mem elf_memory i)
  maps : headerPage (programHeader mem elf_memory i) k = page
  last : ∀ j, i < j → j < programCount mem elf_memory →
    ∀ l < headerCount elf_memory (programHeader mem elf_memory j),
      headerPage (programHeader mem elf_memory j) l ≠ page

theorem headerCount_le (elf_memory : UInt32) (phdr : Elf32Phdr) : headerCount elf_memory phdr ≤ 2 ^ 20 := by
  have hlt := (pagingAlignAddress (elfPhdrPhysAddress elf_memory phdr + phdr.p_filesz) -
    pagingAlignToLowerPage (elfPhdrPhysAddress elf_memory phdr)).toNat_lt
  unfold headerCount
  omega

theorem headerPhys_aligned (elf_memory : UInt32) (phdr : Elf32Phdr) (k : Nat) :
    (headerPhys elf_memory phdr k).toNat % 4096 = 0 := by
  have haligned := pagingAlignToLowerPage_aligned (elfPhdrPhysAddress elf_memory phdr)
  rw [headerPhys, UInt32.toNat_add, UInt32.toNat_ofNat']
  omega

theorem LastHeader.page_lt {mem : UInt32 → UInt8} {elf_memory : UInt32} {page i k : Nat}
    (h : LastHeader mem elf_memory page i k) : page < 2 ^ 20 := by
  have hlt := (pagingAlignToLowerPage (programHeader mem elf_memory i).p_vaddr +
    UInt32.ofNat (4096 * k)).toNat_lt
  rw [← h.maps, headerPage]
  omega

theorem phdrWrites_eq (elf_memory : UInt32) (phdr : Elf32Phdr) :
    phdrWrites elf_memory phdr = rangeWrites (pagingAlignToLowerPage phdr.p_vaddr)
      (pagingAlignToLowerPage (elfPhdrPhysAddress elf_memory phdr)) (phdrFlags phdr)
      (headerCount elf_memory phdr) := rfl

/-- The last header that maps a page decides. -/
theorem lastWrite_programWrites {mem : UInt32 → UInt8} {elf_memory entry : UInt32} {page : Nat} :
    lastWrite page (programWrites mem elf_memory) = some entry ↔
      ∃ i k, LastHeader mem elf_memory page i k ∧
        entry = headerPhys elf_memory (programHeader mem elf_memory i) k |||
          phdrFlags (programHeader mem elf_memory i) := by
  rw [programWrites, lastWrite_flatMap_range]
  simp only [phdrWrites_eq, lastWrite_rangeWrites (headerCount_le _ _), lastWrite_rangeWrites_none]
  constructor
  · rintro ⟨i, hi, ⟨k, hk, hpage, hentry⟩, hlast⟩
    exact ⟨i, k, ⟨hi, hk, hpage, hlast⟩, hentry⟩
  · rintro ⟨i, k, hheader, hentry⟩
    exact ⟨i, hheader.index, ⟨k, hheader.count, hheader.maps, hentry⟩, hheader.last⟩

/-- A page of the image of a process, where it leads, and its flags. -/
inductive ImagePage (s : Kernel) (p : Process) (page : Nat) : UInt32 → UInt32 → Prop
  | elf (f : ElfFile) (i k : Nat) (htype : p.filetype = PROCESS_FILETYPE_ELF)
      (hfile : s.live p.ptr = some (elfFileK.inj f)) (hlast : LastHeader s.mem f.elf_memory page i k) :
      ImagePage s p page (headerPhys f.elf_memory (programHeader s.mem f.elf_memory i) k)
        (phdrFlags (programHeader s.mem f.elf_memory i))
  | binary (k : Nat) (htype : p.filetype = PROCESS_FILETYPE_BINARY) (hk : k < blocksFor p.size)
      (hpage : page = 0x400 + k) :
      ImagePage s p page (UInt32.ofNat (p.ptr.toNat + 4096 * k))
        (PAGING_IS_PRESENT ||| PAGING_ACCESS_BY_ALL ||| PAGING_IS_WRITABLE)

/-- The pages of a flat binary follow `RASOS_PROGRAM_VIRTUAL_ADDRESS`. -/
theorem lastWrite_binary {s : Kernel} (hwf : s.WF) {p : Process}
    (hsize : Allocated s.heap p.ptr (blocksFor p.size)) {page : Nat} {flags entry : UInt32} :
    lastWrite page (mapToWrites RASOS_PROGRAM_VIRTUAL_ADDRESS p.ptr
        (pagingAlignAddress (p.ptr + p.size)) flags) = some entry ↔
      ∃ k < blocksFor p.size, page = 0x400 + k ∧
        entry = UInt32.ofNat (p.ptr.toNat + 4096 * k) ||| flags := by
  have hrange := hsize.range hwf
  have hend := hsize.align hwf
  have hle : p.ptr ≤ pagingAlignAddress (p.ptr + p.size) := by
    rw [UInt32.le_iff_toNat_le, hend]
    omega
  have hcount : (pagingAlignAddress (p.ptr + p.size) - p.ptr).toNat / 4096 = blocksFor p.size := by
    rw [UInt32.toNat_sub_of_le _ _ hle, hend]
    omega
  have hvirt : ∀ k < blocksFor p.size,
      (RASOS_PROGRAM_VIRTUAL_ADDRESS + UInt32.ofNat (4096 * k)).toNat / 4096 = 0x400 + k := by
    intro k hk
    rw [UInt32.toNat_add, toNat_ofNat_of_lt (by omega),
      show RASOS_PROGRAM_VIRTUAL_ADDRESS.toNat = 0x400000 from rfl]
    omega
  have hphys : ∀ k < blocksFor p.size,
      p.ptr + UInt32.ofNat (4096 * k) = UInt32.ofNat (p.ptr.toNat + 4096 * k) := by
    intro k hk
    apply UInt32.toNat_inj.mp
    rw [UInt32.toNat_add, toNat_ofNat_of_lt (by omega), toNat_ofNat_of_lt (by omega)]
    omega
  rw [mapToWrites, hcount, lastWrite_rangeWrites (by omega)]
  constructor
  · rintro ⟨k, hk, hpage, hentry⟩
    rw [hvirt k hk] at hpage
    rw [hphys k hk] at hentry
    exact ⟨k, hk, hpage.symm, hentry⟩
  · rintro ⟨k, hk, hpage, hentry⟩
    refine ⟨k, hk, ?_, ?_⟩
    · rw [hvirt k hk, hpage]
    · rw [hphys k hk, hentry]

/-- The image of an ELF process is a live allocation. -/
theorem ProcessLoaded.elf_image {s : Kernel} {p : Process} {f : ElfFile} (h : ProcessLoaded s p)
    (hptr : p.ptr ≠ 0) (htype : p.filetype = PROCESS_FILETYPE_ELF)
    (hfile : s.live p.ptr = some (elfFileK.inj f)) : s.live f.elf_memory = some (rawK.inj ()) := by
  cases h with
  | missing _ hnull => exact absurd hnull hptr
  | elf f' _ helf =>
      have hlive := helf.live
      rw [hfile] at hlive
      obtain rfl := elfFileK.inj_injective (Option.some.inj hlive)
      exact helf.image
  | binary hbinary _ _ =>
      rw [htype] at hbinary
      exact absurd hbinary (by decide)

/-- The allocation of a flat binary. -/
theorem ProcessLoaded.binary_size {s : Kernel} {p : Process} (h : ProcessLoaded s p)
    (htype : p.filetype = PROCESS_FILETYPE_BINARY) : Allocated s.heap p.ptr (blocksFor p.size) := by
  cases h with
  | missing helf _ =>
      rw [htype] at helf
      exact absurd helf (by decide)
  | elf f helf _ =>
      rw [htype] at helf
      exact absurd helf (by decide)
  | binary _ _ hsize => exact hsize

theorem lastWrite_imageWrites {s : Kernel} (hwf : s.WF) {p : Process} (hloaded : ProcessLoaded s p)
    (hptr : p.ptr ≠ 0) {page : Nat} {entry : UInt32} :
    lastWrite page (imageWrites s p) = some entry ↔
      ∃ phys flags, ImagePage s p page phys flags ∧ entry = phys ||| flags := by
  cases hloaded with
  | missing htype hnull => exact absurd hnull hptr
  | elf f htype hfile =>
      have hwrites : imageWrites s p = programWrites s.mem f.elf_memory := by
        rw [imageWrites, if_pos htype, Kind.read_eq_some.mpr hfile.live]
      rw [hwrites, lastWrite_programWrites]
      constructor
      · rintro ⟨i, k, hlast, hentry⟩
        exact ⟨_, _, .elf f i k htype hfile.live hlast, hentry⟩
      · rintro ⟨phys, flags, hpage, hentry⟩
        cases hpage with
        | elf f' i k _ hfile' hlast =>
            rw [hfile.live] at hfile'
            obtain rfl := elfFileK.inj_injective (Option.some.inj hfile')
            exact ⟨i, k, hlast, hentry⟩
        | binary k hbinary hk hpage =>
            rw [htype] at hbinary
            exact absurd hbinary (by decide)
  | binary htype himage hsize =>
      have hbinary : p.filetype ≠ PROCESS_FILETYPE_ELF := by
        rw [htype]
        decide
      rw [imageWrites, if_neg hbinary, lastWrite_binary hwf hsize]
      constructor
      · rintro ⟨k, hk, hpage, hentry⟩
        exact ⟨_, _, .binary k htype hk hpage, hentry⟩
      · rintro ⟨phys, flags, hpage, hentry⟩
        cases hpage with
        | elf f i k helf hfile hlast => exact absurd helf hbinary
        | binary k _ hk hpage => exact ⟨k, hk, hpage, hentry⟩

/-- An entry of an image is a whole page with its flags. -/
theorem ImagePage.parts {s : Kernel} (hwf : s.WF) {p : Process} (hloaded : ProcessLoaded s p) {page : Nat}
    {phys flags : UInt32} (h : ImagePage s p page phys flags) :
    phys.toNat % 4096 = 0 ∧ flags.toNat < 4096 ∧ flags &&& PAGING_IS_PRESENT ≠ 0 := by
  cases h with
  | elf f i k htype hfile hlast =>
      refine ⟨headerPhys_aligned _ _ _, phdrFlags_lt _, ?_⟩
      unfold phdrFlags
      split <;> decide
  | binary k htype hk hpage =>
      have hrange := (hloaded.binary_size htype).range hwf
      refine ⟨?_, by decide, by decide⟩
      rw [toNat_ofNat_of_lt (by omega)]
      omega

/-! ## The whole directory -/

/-- The four pages of the stack. -/
def StackPage (page : Nat) : Prop := 0x3FB ≤ page ∧ page < 0x3FF

theorem Finished.wf {sd s : Kernel} {process : UInt32} {slot : Nat} {p : Process} {t : Task}
    (h : Finished sd process slot s p t) : s.WF :=
  h.started.wf.of_live rfl fun _ o ho => ⟨o, ho⟩

theorem Finished.loaded {sd s : Kernel} {process : UInt32} {slot : Nat} {p : Process} {t : Task}
    (h : Finished sd process slot s p t) : ProcessLoaded s p := by
  have hkept : ImageKept { s with processes := sd.processes } s := ⟨fun _ _ ho _ => ho, rfl, fun _ _ hn => hn⟩
  exact h.started.loaded.kept hkept rfl rfl rfl

/-- A property of all pages of the directory of a finished process: of its stack, of its image, and of the
identity that is left elsewhere. -/
theorem Finished.forall_page_iff {sd s : Kernel} {process : UInt32} {slot : Nat} {p : Process} {t : Task}
    (h : Finished sd process slot s p t) {m : Nat → UInt32} (hm : Maps s t.page_directory m)
    {P : Nat → UInt32 → Prop} :
    (∀ page < 2 ^ 20, P page (m page)) ↔
      (∀ k < 4, P (0x3FB + k) (stackEntry p k)) ∧
      (∀ page phys flags, ImagePage s p page phys flags → page < 2 ^ 20 → ¬ StackPage page →
        P page (phys ||| flags)) ∧
      ∀ page < 2 ^ 20, ¬ StackPage page → (∀ phys flags, ¬ ImagePage s p page phys flags) →
        P page (identityEntry taskFlags page) := by
  have hwf := h.wf
  have hloaded := h.loaded
  have hstack : Allocated s.heap p.stack 4 := h.started.stack_size
  have himage : ∀ page entry, lastWrite page (imageWrites s p) = some entry ↔
      ∃ phys flags, ImagePage s p page phys flags ∧ entry = phys ||| flags :=
    fun page entry => lastWrite_imageWrites hwf hloaded h.started.file
  have hentry : ∀ page < 2 ^ 20, m page =
      (lastWrite page (stackWrites p)).getD
        ((lastWrite page (imageWrites s p)).getD (identityEntry taskFlags page)) := by
    intro page hpage
    rw [hm.unique h.maps hpage, overlay_apply, overlay_apply]
  have hother : ∀ page, ¬ StackPage page → lastWrite page (stackWrites p) = none := by
    intro page hpage
    rw [stackWrites_eq hwf hstack, lastWrite_eq_none]
    intro w hw heq
    obtain ⟨k, hk, rfl⟩ := List.mem_map.mp hw
    have hk' := List.mem_range.mp hk
    dsimp only at heq
    exact hpage ⟨by omega, by omega⟩
  constructor
  · intro hall
    refine ⟨fun k hk => ?_, fun page phys flags hp hpage hno => ?_, fun page hpage hno hnone => ?_⟩
    · have hP := hall (0x3FB + k) (by omega)
      rw [hentry _ (by omega), lastWrite_stack hwf hstack hk] at hP
      exact hP
    · have hP := hall page hpage
      rw [hentry page hpage, hother page hno, (himage page _).mpr ⟨phys, flags, hp, rfl⟩] at hP
      exact hP
    · have hP := hall page hpage
      have hlast : lastWrite page (imageWrites s p) = none := by
        cases hwrite : lastWrite page (imageWrites s p) with
        | none => rfl
        | some entry =>
            obtain ⟨phys, flags, hp, -⟩ := (himage page entry).mp hwrite
            exact absurd hp (hnone phys flags)
      rw [hentry page hpage, hother page hno, hlast] at hP
      exact hP
  · rintro ⟨hstackP, himageP, hidentity⟩ page hpage
    rw [hentry page hpage]
    by_cases hno : StackPage page
    · obtain ⟨k, hk, rfl⟩ : ∃ k, k < 4 ∧ page = 0x3FB + k := by
        unfold StackPage at hno
        exact ⟨page - 0x3FB, by omega, by omega⟩
      rw [lastWrite_stack hwf hstack hk]
      exact hstackP k hk
    · rw [hother page hno, Option.getD_none]
      cases hwrite : lastWrite page (imageWrites s p) with
      | none =>
          refine hidentity page hpage hno fun phys flags hp => ?_
          rw [(himage page _).mpr ⟨phys, flags, hp, rfl⟩] at hwrite
          cases hwrite
      | some entry =>
          obtain ⟨phys, flags, hp, rfl⟩ := (himage page entry).mp hwrite
          exact himageP page phys flags hp hpage hno

/-! ## The image at the end of a load -/

/-- What has been loaded stays in place: the stack is another allocation. -/
theorem Finished.image_mem {sd s : Kernel} {process : UInt32} {slot : Nat} {p : Process} {t : Task}
    (h : Finished sd process slot s p t) {q : UInt32} (hq : sd.live q = some (rawK.inj ())) {n i : Nat}
    (hn : Allocated s.heap q n) (hi : i < 4096 * n) :
    s.mem (q + UInt32.ofNat i) = sd.mem (q + UInt32.ofNat i) := by
  have hstack : Allocated s.heap p.stack 4 := h.started.stack_size
  have hne : q ≠ p.stack := by
    rintro rfl
    cases h.started.fresh.symm.trans hq
  have hapart := Allocated.apart h.wf hn hstack hne
  have hqrange := hn.range h.wf
  have hsrange := hstack.range h.wf
  have hsize : RASOS_USER_PROGRAM_STACK_SIZE.toNat = 4096 * 4 := by decide
  have haddress : (q + UInt32.ofNat i).toNat = q.toNat + i := by
    rw [UInt32.toNat_add, toNat_ofNat_of_lt (by omega)]
    omega
  refine h.started.mem _ ?_
  rw [hsize, UInt32.toNat_sub, haddress]
  omega

/-! ## How `elfKernel` loads its file -/

/-- The image is at block 15, and its file structure at block 7. -/
def ElfPlaced (phdr : Elf32Phdr) (s : Kernel) : Prop :=
  (elfFileK.read s.live (blockAddress 7)).map ElfFile.elf_memory = some (blockAddress 15) ∧
    (headerAt s.mem (blockAddress 15)).e_phoff = 52 ∧
    programCount s.mem (blockAddress 15) = 1 ∧ programHeader s.mem (blockAddress 15) 0 = phdr

instance (phdr : Elf32Phdr) (s : Kernel) : Decidable (ElfPlaced phdr s) := by
  unfold ElfPlaced
  infer_instance

/-- How the kernel `k` loads `A`; the process structure is at block 5. -/
def ElfRun (k : Kernel) (phdr : Elf32Phdr) : Prop :=
  PhdrOk (blockAddress 15) phdr ∧ Total (processLoadFile pathA) k fun r sd =>
    r = (blockAddress 5, 0) ∧ sd.task_head = 0 ∧
    (processK.read sd.live (blockAddress 5)).map (fun p => (p.filetype, p.ptr)) =
      some (PROCESS_FILETYPE_ELF, blockAddress 7) ∧
    rawK.read sd.live (blockAddress 15) = some () ∧
    (∀ i < 34, ∀ j < 33, isBlockTaken (sd.heap.entries ((100 + (33 * i + j) : Nat) : Int)) = false) ∧
    ElfPlaced phdr sd

instance (k : Kernel) (phdr : Elf32Phdr) : Decidable (ElfRun k phdr) := by
  unfold ElfRun PhdrOk
  infer_instance

/-- What the process is in the end. -/
structure ElfProcess (phdr : Elf32Phdr) (s : Kernel) (p : Process) (f : ElfFile) : Prop where
  filetype : p.filetype = PROCESS_FILETYPE_ELF
  file : s.live p.ptr = some (elfFileK.inj f)
  memory : f.elf_memory = blockAddress 15
  count : programCount s.mem (blockAddress 15) = 1
  header : programHeader s.mem (blockAddress 15) 0 = phdr

/-- The header and its program header are read from the first page of the image. -/
theorem elfPlaced_congr {sd s : Kernel} {phdr : Elf32Phdr}
    (hbyte : ∀ i < 4096, s.mem (blockAddress 15 + UInt32.ofNat i) = sd.mem (blockAddress 15 + UInt32.ofNat i))
    (hcount : programCount sd.mem (blockAddress 15) = 1)
    (hphoff : (headerAt sd.mem (blockAddress 15)).e_phoff = 52)
    (hheader : programHeader sd.mem (blockAddress 15) 0 = phdr) :
    programCount s.mem (blockAddress 15) = 1 ∧ programHeader s.mem (blockAddress 15) 0 = phdr := by
  have hsame : headerAt s.mem (blockAddress 15) = headerAt sd.mem (blockAddress 15) :=
    headerAt_congr fun i hi => hbyte i (by omega)
  constructor
  · rw [programCount, hsame]
    exact hcount
  · have haddress : elfProgramHeader (blockAddress 15) (headerAt sd.mem (blockAddress 15)) 0 =
        blockAddress 15 + 52 := by
      rw [elfProgramHeader, hphoff]
      rfl
    rw [← hheader, programHeader, programHeader, hsame, haddress]
    refine phdrAt_congr fun i hi => ?_
    have hmove : blockAddress 15 + 52 + UInt32.ofNat i = blockAddress 15 + UInt32.ofNat (52 + i) := by
      rw [UInt32.add_assoc, UInt32.ofNat_add]
      rfl
    rw [hmove]
    exact hbyte _ (by omega)

/-- Allocating the stack and the task leaves an image alone. -/
theorem stackAndTask_image {s : Kernel} (hwf : s.WF) {q : UInt32} (hq : s.live q = some (rawK.inj ())) :
    Total stackAndTask s fun _ s2 => Since s s2 ∧
      ∀ i < 4096, s2.mem (q + UInt32.ofNat i) = s.mem (q + UInt32.ofNat i) := by
  obtain ⟨stack, s1, halloc, hbytes⟩ := kzallocBytes_spec hwf RASOS_USER_PROGRAM_STACK_SIZE
  obtain ⟨task, s2, hnext, hcases⟩ := kzalloc_spec taskK SIZEOF_TASK {} hbytes.since.wf
  obtain ⟨n, hn⟩ := hwf.allocated hq
  have hpos := (hn.range hwf).1
  refine ⟨task, s2, (bind_of_some halloc).trans hnext, hbytes.since.trans (hcases.since hbytes.since.wf),
    fun i hi => ?_⟩
  rw [hcases.mem, hbytes.keeps_byte hn hq (by omega)]

/-- Then blocks are free. -/
theorem ElfRun.free {k sd : Kernel} {phdr : Elf32Phdr} {r : UInt32 × Int} (h : ElfRun k phdr)
    (hrun : processLoadFile pathA k = some (r, sd)) {i : Nat} (h1 : 100 ≤ i) (h2 : i < 1200) :
    isBlockTaken (sd.heap.entries i) = false := by
  obtain ⟨-, r', sd', hfile, -, -, -, -, hfree, -⟩ := h
  obtain ⟨-, rfl⟩ := Prod.mk.inj (Option.some.inj (hrun.symm.trans hfile))
  have hi := hfree ((i - 100) / 33) (by omega) ((i - 100) % 33) (Nat.mod_lt _ (by decide))
  rwa [Nat.div_add_mod, show 100 + (i - 100) = i by omega] at hi

theorem ElfRun.room {k sd : Kernel} {phdr : Elf32Phdr} {r : UInt32 × Int} (h : ElfRun k phdr) (hwf : k.WF)
    (hrun : processLoadFile pathA k = some (r, sd)) : 1100 ≤ freeCount sd.heap := by
  have htotal := (processLoadFile_wf hwf _ _ _ hrun).total
  exact le_freeCount sd.heap 100 1200 (by omega) fun i h1 h2 => h.free hrun h1 h2

/-- `A` is loaded, and the process is what it should be. -/
theorem ElfRun.load {k : Kernel} {phdr : Elf32Phdr} (h : ElfRun k phdr) (hwf : k.WF) (hfull : ¬ TableFull k) :
    ∃ s' sd slot p t f, processLoad 0 pathA k = some ((OK, some (blockAddress 5)), s') ∧
      Finished sd (blockAddress 5) slot s' p t ∧ ElfProcess phdr s' p f := by
  have hrunning := h
  obtain ⟨hok, r, sd, hfile, rfl, hhead, hprocess, himage, -, hplaced⟩ := h
  have hsdwf := processLoadFile_wf hwf _ _ _ hfile
  obtain ⟨hmemory, hphoff, hcount, hheader⟩ := hplaced
  -- the process structure, and the file structure
  obtain ⟨p, hp, hpair⟩ := Option.map_eq_some_iff.mp hprocess
  obtain ⟨htype, hptr⟩ := Prod.mk.inj hpair
  obtain ⟨f, hf, hfmem⟩ := Option.map_eq_some_iff.mp hmemory
  have hplive := Kind.read_eq_some.mp hp
  have hflive := Kind.read_eq_some.mp hf
  have himage' := Kind.read_eq_some.mp himage
  have hcountfree : 1031 ≤ freeCount sd.heap := le_trans (by decide) (hrunning.room hwf hfile)
  have hready : TaskReady sd p := by
    refine ⟨?_, hcountfree, Or.inl (Or.inl hhead)⟩
    rw [hptr]
    decide
  have hroom : ¬ NoRoom sd.heap RASOS_USER_PROGRAM_STACK_SIZE := by
    have htotal := hsdwf.total
    rintro (hzero | hno)
    · rw [blocksFor_stack] at hzero
      omega
    refine hno 100 (by rw [blocksFor_stack]; omega) fun i h1 h2 => ?_
    rw [blocksFor_stack] at h2
    exact hrunning.free hfile h1 (by omega)
  have hmappable : Total stackAndTask sd fun _ s2 => Mappable s2 p := by
    refine (stackAndTask_image hsdwf himage').mono fun task s2 ⟨hsince, hbyte⟩ _ f' hf' j hj => ?_
    obtain ⟨hcount2, hheader2⟩ := elfPlaced_congr hbyte hcount hphoff hheader
    rw [hptr, hsince.object _ _ hflive] at hf'
    obtain rfl := elfFileK.inj_injective (Option.some.inj hf')
    rw [hfmem] at hj ⊢
    obtain rfl : j = 0 := by omega
    rw [hheader2]
    exact hok
  obtain ⟨s', hrun⟩ := processLoad_succeeds hwf 0 hfull hfile (Int.le_refl 0)
    hplive hroom hready hmappable
  obtain ⟨process, res, sd', slot, p', t, heq, hfile', -, hfinished⟩ :=
    processLoad_finished hwf 0 pathA _ s' hrun (Int.le_refl 0)
  -- it is the same run
  rw [hfile] at hfile'
  obtain ⟨hpair', rfl⟩ := Prod.mk.inj (Option.some.inj hfile')
  obtain ⟨rfl, -⟩ := Prod.mk.inj hpair'
  obtain ⟨htype', hptr', -⟩ := hfinished.started.source p hplive
  obtain ⟨n, hn⟩ := hfinished.wf.allocated (hfinished.started.image _ _ himage' rfl)
  have hpos := (hn.range hfinished.wf).1
  obtain ⟨hcount', hheader'⟩ :=
    elfPlaced_congr (fun i hi => hfinished.image_mem himage' hn (by omega)) hcount hphoff hheader
  refine ⟨s', sd, slot, p', t, f, hrun, hfinished, htype'.trans htype, ?_, hfmem, hcount', hheader'⟩
  rw [hptr', hptr]
  exact hfinished.started.image _ _ hflive rfl

theorem oneFileKernel_notFull (size : UInt16) (fat : Sector) (data : Nat → Sector) (used : Nat) :
    ¬ TableFull (oneFileKernel size fat data used) := fun hfull => hfull 0 (by decide) rfl

/-- With `elfKernel`. -/
theorem ElfRun.load_elf {phdr : Elf32Phdr} {p_memsz : UInt32} (h : ElfRun (elfKernel phdr p_memsz) phdr) :
    ∃ s' sd slot p t f, processLoad 0 pathA (elfKernel phdr p_memsz) = some ((OK, some (blockAddress 5)), s') ∧
      Finished sd (blockAddress 5) slot s' p t ∧ ElfProcess phdr s' p f :=
  h.load (oneFileKernel_wf (by decide)) (oneFileKernel_notFull _ _ _ _)

/-- A header with one page, which is mapped by no other. -/
theorem ElfProcess.lastHeader {phdr : Elf32Phdr} {s : Kernel} {p : Process} {f : ElfFile}
    (h : ElfProcess phdr s p f) (hone : headerCount (blockAddress 15) phdr = 1) {page i k : Nat} :
    LastHeader s.mem f.elf_memory page i k ↔ i = 0 ∧ k = 0 ∧ headerPage phdr 0 = page := by
  rw [h.memory]
  constructor
  · intro hlast
    have hindex := hlast.index
    rw [h.count] at hindex
    obtain rfl : i = 0 := by omega
    have hcount := hlast.count
    have hmaps := hlast.maps
    rw [h.header] at hcount hmaps
    rw [hone] at hcount
    obtain rfl : k = 0 := by omega
    exact ⟨rfl, rfl, hmaps⟩
  · rintro ⟨rfl, rfl, hpage⟩
    refine ⟨by rw [h.count]; decide, by rw [h.header, hone]; decide, by rw [h.header]; exact hpage,
      fun j hj hlt => ?_⟩
    rw [h.count] at hlt
    omega

/-! ## Writable pages -/

/-- The user can write to what the entry maps. -/
def UserWritable (entry : UInt32) : Prop :=
  entry &&& PAGING_ACCESS_BY_ALL ≠ 0 ∧ entry &&& PAGING_IS_WRITABLE ≠ 0

/-- Where the image of a process begins. -/
def ImageBase (s : Kernel) (p : Process) (base : UInt32) : Prop :=
  p.filetype = PROCESS_FILETYPE_ELF ∧ (∃ f, s.live p.ptr = some (elfFileK.inj f) ∧ base = f.elf_memory) ∨
    p.filetype = PROCESS_FILETYPE_BINARY ∧ base = p.ptr

/-- The page at `phys` is one of the allocation of the image or of the stack of the process. -/
def OwnsPage (s : Kernel) (p : Process) (phys : UInt32) : Prop :=
  ∃ base n, (base = p.stack ∨ ImageBase s p base) ∧ Allocated s.heap base n ∧
    base.toNat ≤ phys.toNat ∧ phys.toNat < base.toNat + 4096 * n

/-- The pages that a writable program header maps are pages of the image: they begin inside it, counted
from its first byte. (Or they happen to be those of the stack. Pages over which a later header or the
stack is mapped do not count.) -/
def WritesInside (s : Kernel) (p : Process) : Prop :=
  p.filetype = PROCESS_FILETYPE_ELF → ∀ f n, s.live p.ptr = some (elfFileK.inj f) →
    Allocated s.heap f.elf_memory n → ∀ page i k, LastHeader s.mem f.elf_memory page i k →
      ¬ StackPage page → (programHeader s.mem f.elf_memory i).p_flags &&& PF_W ≠ 0 →
        (pagingAlignToLowerPage (programHeader s.mem f.elf_memory i).p_offset +
            UInt32.ofNat (4096 * k)).toNat < 4096 * n ∨
          (headerPhys f.elf_memory (programHeader s.mem f.elf_memory i) k - p.stack).toNat
            < RASOS_USER_PROGRAM_STACK_SIZE.toNat

/-- The size of an allocation is determined. -/
theorem Allocated.unique {s : Kernel} (hwf : s.WF) {p : UInt32} {n n' : Nat} (h : Allocated s.heap p n)
    (h' : Allocated s.heap p n') : n = n' := by
  obtain ⟨b, hb, rfl⟩ := h
  obtain ⟨c, hc, heq⟩ := h'
  have hbin := hb.inside
  have hcin := hc.inside
  have hbpos := hb.pos
  have hcpos := hc.pos
  have htotal := hwf.total
  have hbc : b = c := by
    have hnat := congrArg UInt32.toNat heq
    rw [hwf.address (by omega), hwf.address (by omega)] at hnat
    omega
  subst hbc
  exact hb.length_unique hc

/-- An address in an allocation, by its distance from the first byte. -/
theorem Allocated.mem_iff {s : Kernel} (hwf : s.WF) {p : UInt32} {n : Nat} (h : Allocated s.heap p n)
    (phys : UInt32) : p.toNat ≤ phys.toNat ∧ phys.toNat < p.toNat + 4096 * n ↔
      (phys - p).toNat < 4096 * n := by
  have hrange := h.range hwf
  have hlt := phys.toNat_lt
  rw [UInt32.toNat_sub]
  omega

/-- Where a page of a header leads, counted from the first byte of the image. -/
theorem headerPhys_sub {elf_memory : UInt32} (haligned : elf_memory.toNat % 4096 = 0) (phdr : Elf32Phdr)
    (k : Nat) : headerPhys elf_memory phdr k - elf_memory =
      pagingAlignToLowerPage phdr.p_offset + UInt32.ofNat (4096 * k) := by
  have hoffset := phdr.p_offset.toNat_lt
  have hmemory := elf_memory.toNat_lt
  apply UInt32.toNat_inj.mp
  rw [headerPhys, UInt32.toNat_sub, UInt32.toNat_add, UInt32.toNat_add, pagingAlignToLowerPage_toNat,
    pagingAlignToLowerPage_toNat, elfPhdrPhysAddress, UInt32.toNat_add, UInt32.toNat_ofNat']
  omega

/-- The pages of the stack belong to the process. -/
theorem ownsPage_stack {s : Kernel} (hwf : s.WF) {p : Process} (hstack : Allocated s.heap p.stack 4) {k : Nat}
    (hk : k < 4) : OwnsPage s p (stackEntry p k &&& 0xfffff000) := by
  have hrange := hstack.range hwf
  have haddress : (UInt32.ofNat (p.stack.toNat + 4096 * k)).toNat = p.stack.toNat + 4096 * k :=
    toNat_ofNat_of_lt (by omega)
  refine ⟨p.stack, 4, Or.inl rfl, hstack, ?_⟩
  unfold stackEntry
  rw [page_or_flags (by rw [haddress]; omega) (by decide), haddress]
  omega

/-- A page belongs to an ELF process when it is inside the image or inside the stack. -/
theorem ownsPage_elf_iff {s : Kernel} (hwf : s.WF) {p : Process} (htype : p.filetype = PROCESS_FILETYPE_ELF)
    {f : ElfFile} (hfile : s.live p.ptr = some (elfFileK.inj f)) {n : Nat}
    (hn : Allocated s.heap f.elf_memory n) (hstack : Allocated s.heap p.stack 4) (phys : UInt32) :
    OwnsPage s p phys ↔ (phys - f.elf_memory).toNat < 4096 * n ∨
      (phys - p.stack).toNat < RASOS_USER_PROGRAM_STACK_SIZE.toNat := by
  have hsize : RASOS_USER_PROGRAM_STACK_SIZE.toNat = 4096 * 4 := by decide
  rw [hsize, ← hn.mem_iff hwf, ← hstack.mem_iff hwf]
  constructor
  · rintro ⟨base, n', rfl | ⟨-, f', hfile', rfl⟩ | ⟨hbinary, -⟩, hn', hin⟩
    · rw [hstack.unique hwf hn']
      exact Or.inr hin
    · rw [hfile] at hfile'
      obtain rfl := elfFileK.inj_injective (Option.some.inj hfile')
      rw [hn.unique hwf hn']
      exact Or.inl hin
    · rw [htype] at hbinary
      exact absurd hbinary (by decide)
  · rintro (hin | hin)
    · exact ⟨f.elf_memory, n, Or.inr (Or.inl ⟨htype, f, hfile, rfl⟩), hn, hin⟩
    · exact ⟨p.stack, 4, Or.inl rfl, hstack, hin⟩

/-- A page of an image is writable for the user when its flags say so. -/
theorem userWritable_iff {phys flags : UInt32} (haligned : phys.toNat % 4096 = 0) :
    UserWritable (phys ||| flags) ↔ UserWritable flags := by
  unfold UserWritable
  rw [flags_or_page haligned (by decide), flags_or_page haligned (by decide)]

theorem userWritable_phdrFlags (phdr : Elf32Phdr) : UserWritable (phdrFlags phdr) ↔ phdr.p_flags &&& PF_W ≠ 0 := by
  unfold phdrFlags
  split
  · rename_i hw
    exact iff_of_true (by unfold UserWritable; decide) hw
  · rename_i hw
    exact iff_of_false (by unfold UserWritable; decide) hw

/-- The pages of the identity are not writable for the user. -/
theorem identity_readOnly {page : Nat} (hpage : page < 2 ^ 20) : ¬ UserWritable (identityEntry taskFlags page) := by
  unfold identityEntry
  rw [userWritable_iff (by rw [toNat_ofNat_of_lt (by omega)]; omega)]
  unfold UserWritable
  decide

/-- The task of a process has `m` as its directory. -/
def ProcessMaps (s : Kernel) (process : UInt32) (p : Process) (m : Nat → UInt32) : Prop :=
  s.live process = some (processK.inj p) ∧ ∃ t, s.live p.task = some (taskK.inj t) ∧ Maps s t.page_directory m

/-- Which pages are writable for the user in a directory. -/
theorem Finished.writable_iff {sd s : Kernel} {process : UInt32} {slot : Nat} {p : Process} {t : Task}
    (h : Finished sd process slot s p t) {m : Nat → UInt32} (hm : Maps s t.page_directory m) :
    (∀ page < 2 ^ 20, UserWritable (m page) → OwnsPage s p (m page &&& 0xfffff000)) ↔ WritesInside s p := by
  have hwf := h.wf
  have hstack : Allocated s.heap p.stack 4 := h.started.stack_size
  rw [h.forall_page_iff hm (P := fun _ entry => UserWritable entry → OwnsPage s p (entry &&& 0xfffff000))]
  have himage : ∀ {page : Nat} {phys flags : UInt32}, ImagePage s p page phys flags →
      ((UserWritable (phys ||| flags) → OwnsPage s p ((phys ||| flags) &&& 0xfffff000)) ↔
        (UserWritable flags → OwnsPage s p phys)) := by
    intro page phys flags hp
    obtain ⟨haligned, hflags, -⟩ := hp.parts hwf h.loaded
    rw [userWritable_iff haligned, page_or_flags haligned hflags]
  constructor
  · rintro ⟨-, hall, -⟩ htype f n hfile hn page i k hlast hno hwrite
    have hp := ImagePage.elf f i k htype hfile hlast
    have howns := (himage hp).mp (hall page _ _ hp hlast.page_lt hno) ((userWritable_phdrFlags _).mpr hwrite)
    rw [← headerPhys_sub (hn.range hwf).2.2.1]
    exact (ownsPage_elf_iff hwf htype hfile hn hstack _).mp howns
  · intro hinside
    refine ⟨fun k hk _ => ownsPage_stack hwf hstack hk, fun page phys flags hp _ hno => (himage hp).mpr ?_,
      fun page hpage _ _ hwrite => absurd hwrite (identity_readOnly hpage)⟩
    intro hwrite
    cases hp with
    | elf f i k htype hfile hlast =>
        obtain ⟨n, hn⟩ := hwf.allocated (h.loaded.elf_image h.started.file htype hfile)
        have hcases := hinside htype f n hfile hn page i k hlast hno ((userWritable_phdrFlags _).mp hwrite)
        rw [← headerPhys_sub (hn.range hwf).2.2.1] at hcases
        exact (ownsPage_elf_iff hwf htype hfile hn hstack _).mpr hcases
    | binary k htype hk hpage =>
        have hsize := h.loaded.binary_size htype
        have hrange := hsize.range hwf
        refine ⟨p.ptr, _, Or.inr (Or.inr ⟨htype, rfl⟩), hsize, ?_⟩
        rw [toNat_ofNat_of_lt (by omega)]
        omega

/-- A header for writing that puts `0x200000` in the place of the kernel: its offset leads out of the image,
modulo `2 ^ 32`. -/
def kernelHeader : Elf32Phdr := ⟨PT_LOAD, 0x200000 - blockAddress 15, 0x100000, 84, PF_W⟩

theorem kernelHeader_run : ElfRun (elfKernel kernelHeader 84) kernelHeader := by decide +kernel

/-- A header for writing that puts the first page of the file at `0x400000`. -/
def plainHeader : Elf32Phdr := ⟨PT_LOAD, 0, 0x400000, 84, PF_W⟩

theorem plainHeader_run : ElfRun (elfKernel plainHeader 84) plainHeader := by decide +kernel

/-- The file with this header is loaded, and its page is mapped as it says. -/
theorem kernelHeader_loaded : ∃ s' process p m,
    processLoad 0 pathA (elfKernel kernelHeader 84) = some ((OK, some process), s') ∧ s'.WF ∧
      ProcessMaps s' process p m ∧ m 0x100 = 0x200000 ||| phdrFlags kernelHeader := by
  obtain ⟨s', sd, slot, p, t, f, hrun, hfinished, helf⟩ := kernelHeader_run.load_elf
  have hmaps := hfinished.maps
  refine ⟨s', _, p, _, hrun, hfinished.wf, ⟨hfinished.started.live, t, hfinished.started.task, hmaps⟩, ?_⟩
  have hlast : lastWrite 0x100 (imageWrites s' p) = some (0x200000 ||| phdrFlags kernelHeader) := by
    have hwrites : imageWrites s' p = programWrites s'.mem (blockAddress 15) := by
      rw [imageWrites, if_pos helf.filetype, Kind.read_eq_some.mpr helf.file]
      exact congrArg (programWrites s'.mem) helf.memory
    rw [hwrites, programWrites, helf.count, List.range_one, List.flatMap_singleton, helf.header]
    decide
  have hstack : lastWrite 0x100 (stackWrites p) = none := by
    rw [stackWrites_eq hfinished.wf hfinished.started.stack_size]
    refine lastWrite_eq_none.mpr fun w hw heq => ?_
    obtain ⟨k, -, rfl⟩ := List.mem_map.mp hw
    dsimp only at heq
    omega
  rw [overlay_apply, hstack, overlay_apply, hlast]
  rfl

/-- **What a loaded program can write to.** After a load that succeeds, every page of the new task that the
user can write to is a page of the image or of the stack of the process, if and only if no program header
asks for a writable page outside its image. -/
theorem processLoad_writable_iff {s : Kernel} (hwf : s.WF) (garbage : UInt32) (filename : List UInt8) :
    Ensures (processLoad garbage filename) s fun r s' => 0 ≤ r.1 → ∃ process p m,
      r.2 = some process ∧ ProcessMaps s' process p m ∧
      ((∀ page < 2 ^ 20, UserWritable (m page) → OwnsPage s' p (m page &&& 0xfffff000)) ↔
        WritesInside s' p) := by
  intro r s' hrun hpos
  obtain ⟨process, res, sd, slot, p, t, rfl, -, -, hfinished⟩ :=
    processLoad_finished hwf garbage filename r s' hrun hpos
  have hmaps := hfinished.maps
  exact ⟨process, p, _, rfl, ⟨hfinished.started.live, t, hfinished.started.task, hmaps⟩,
    hfinished.writable_iff hmaps⟩

/-- The header of `A` is for writing, and begins in its image. -/
theorem processLoad_writable_A : ∃ s' process p m,
    processLoad 0 pathA (elfKernel plainHeader 84) = some ((OK, some process), s') ∧
      ProcessMaps s' process p m ∧ WritesInside s' p ∧
      ∀ page < 2 ^ 20, UserWritable (m page) → OwnsPage s' p (m page &&& 0xfffff000) := by
  obtain ⟨s', sd, slot, p0, t, f, hrun, hfinished, helf⟩ := plainHeader_run.load_elf
  obtain ⟨process, p, m, hout, hmaps, hiff⟩ := processLoad_writable_iff (oneFileKernel_wf (by decide)) 0 pathA _ s'
    hrun (Int.le_refl 0)
  obtain rfl := Option.some.inj hout
  obtain rfl := processK.inj_injective (Option.some.inj (hmaps.1.symm.trans hfinished.started.live))
  have hinside : WritesInside s' p := by
    intro _ f' n hfile hn page i k hlast _ _
    obtain rfl := elfFileK.inj_injective (Option.some.inj (hfile.symm.trans helf.file))
    obtain ⟨rfl, rfl, -⟩ := (helf.lastHeader (by decide)).mp hlast
    have hpos := (hn.range hfinished.wf).1
    have hzero : (pagingAlignToLowerPage plainHeader.p_offset + UInt32.ofNat (4096 * 0)).toNat = 0 := by decide
    rw [helf.memory, helf.header, hzero]
    exact Or.inl (by omega)
  exact ⟨s', _, p, m, hrun, hmaps, hinside, hiff.mpr hinside⟩

/-- `A` is loaded, and the user can write through page `0x100` to a page that is not one of its own. -/
theorem processLoad_writes_elsewhere : ∃ s' process p m,
    processLoad 0 pathA (elfKernel kernelHeader 84) = some ((OK, some process), s') ∧
      ProcessMaps s' process p m ∧ m 0x100 &&& 0xfffff000 = 0x200000 ∧ UserWritable (m 0x100) ∧
      ¬ OwnsPage s' p (m 0x100 &&& 0xfffff000) := by
  obtain ⟨s', process, p, m, hrun, hwf, hmaps, hentry⟩ := kernelHeader_loaded
  have hphys : m 0x100 &&& 0xfffff000 = 0x200000 := by
    rw [hentry]
    decide
  refine ⟨s', process, p, m, hrun, hmaps, hphys, ?_, ?_⟩
  · rw [hentry]
    unfold UserWritable
    decide
  · -- the heap begins above
    rintro ⟨base, n, -, hn, hle, -⟩
    have hrange := hn.range hwf
    have hnat : (0x200000 : UInt32).toNat = 0x200000 := rfl
    rw [hphys, hnat] at hle
    omega

/-! ## The pages of the kernel -/

/-- The pages that the kernel uses whichever directory is active: its image at `0x100000`, the stack below
`0x600000`, and its heap. How far the image and the stack go is left open. -/
def KernelPage (image_end stack_begin page : Nat) : Prop :=
  0x100 ≤ page ∧ page < image_end ∨ stack_begin ≤ page ∧ page < 0x600 ∨ 0x1000 ≤ page ∧ page < 0x7400

/-- Nothing is mapped over the pages of the kernel: not the stack, not a flat binary that is too long, and
no program header, but one that leads to the same page (or over which the stack or a later header is
mapped). -/
structure KernelKept (image_end stack_begin : Nat) (s : Kernel) (p : Process) : Prop where
  stack : ∀ page, StackPage page → ¬ KernelPage image_end stack_begin page
  binary : p.filetype = PROCESS_FILETYPE_BINARY →
    ∀ k < blocksFor p.size, ¬ KernelPage image_end stack_begin (0x400 + k)
  elf : p.filetype = PROCESS_FILETYPE_ELF → ∀ f, s.live p.ptr = some (elfFileK.inj f) →
    ∀ page i k, LastHeader s.mem f.elf_memory page i k → ¬ StackPage page →
      KernelPage image_end stack_begin page →
        (headerPhys f.elf_memory (programHeader s.mem f.elf_memory i) k).toNat = 4096 * page

/-- A flat binary and the stack are never found at their own addresses: they come from the heap, which
begins above both. -/
theorem stackEntry_moved {s : Kernel} (hwf : s.WF) {p : Process} (hstack : Allocated s.heap p.stack 4) {k : Nat}
    (hk : k < 4) : ¬ IdentityMapped (0x3FB + k) (stackEntry p k) := by
  have hrange := hstack.range hwf
  have haddress : (UInt32.ofNat (p.stack.toNat + 4096 * k)).toNat = p.stack.toNat + 4096 * k :=
    toNat_ofNat_of_lt (by omega)
  unfold stackEntry
  rintro ⟨-, hsame⟩
  rw [page_or_flags (by rw [haddress]; omega) (by decide), haddress] at hsame
  omega

/-- Which pages of the kernel are still found where they were. -/
theorem Finished.kernel_iff {sd s : Kernel} {process : UInt32} {slot : Nat} {p : Process} {t : Task}
    (h : Finished sd process slot s p t) {m : Nat → UInt32} (hm : Maps s t.page_directory m)
    (image_end stack_begin : Nat) :
    (∀ page < 2 ^ 20, KernelPage image_end stack_begin page → IdentityMapped page (m page)) ↔
      KernelKept image_end stack_begin s p := by
  have hwf := h.wf
  have hstack : Allocated s.heap p.stack 4 := h.started.stack_size
  rw [h.forall_page_iff hm
    (P := fun page entry => KernelPage image_end stack_begin page → IdentityMapped page entry)]
  have himage : ∀ {page : Nat} {phys flags : UInt32}, ImagePage s p page phys flags →
      (IdentityMapped page (phys ||| flags) ↔ phys.toNat = 4096 * page) := by
    intro page phys flags hp
    obtain ⟨haligned, hflags, hpresent⟩ := hp.parts hwf h.loaded
    unfold IdentityMapped
    rw [page_or_flags haligned hflags, flags_or_page haligned (by decide)]
    exact and_iff_right hpresent
  -- where a flat binary lies
  have hbinary : p.filetype = PROCESS_FILETYPE_BINARY → ∀ k < blocksFor p.size, 0x400 + k < 2 ^ 20 ∧
      (UInt32.ofNat (p.ptr.toNat + 4096 * k)).toNat = p.ptr.toNat + 4096 * k ∧
      p.ptr.toNat + 4096 * k ≠ 4096 * (0x400 + k) := by
    intro htype k hk
    have hrange := (h.loaded.binary_size htype).range hwf
    refine ⟨by omega, toNat_ofNat_of_lt (by omega), by omega⟩
  constructor
  · rintro ⟨hstackP, himageP, -⟩
    refine ⟨fun page hpage hkernel => ?_, fun htype k hk hkernel => ?_,
      fun htype f hfile page i k hlast hno hkernel => ?_⟩
    · obtain ⟨k, hk, rfl⟩ : ∃ k, k < 4 ∧ page = 0x3FB + k := by
        unfold StackPage at hpage
        exact ⟨page - 0x3FB, by omega, by omega⟩
      exact stackEntry_moved hwf hstack hk (hstackP k hk hkernel)
    · obtain ⟨hlt, haddress, hmoved⟩ := hbinary htype k hk
      have hp := ImagePage.binary (s := s) k htype hk rfl
      have hno : ¬ StackPage (0x400 + k) := by
        unfold StackPage
        omega
      have hsame := (himage hp).mp (himageP _ _ _ hp hlt hno hkernel)
      rw [haddress] at hsame
      exact hmoved hsame
    · have hp := ImagePage.elf f i k htype hfile hlast
      exact (himage hp).mp (himageP page _ _ hp hlast.page_lt hno hkernel)
  · intro hkept
    refine ⟨fun k hk hkernel => absurd hkernel (hkept.stack _ ⟨by omega, by omega⟩),
      fun page phys flags hp _ hno hkernel => (himage hp).mpr ?_,
      fun page hpage _ _ _ => identityEntry_mapped (by decide) (by decide) hpage⟩
    cases hp with
    | elf f i k htype hfile hlast => exact hkept.elf htype f hfile page i k hlast hno hkernel
    | binary k htype hk hpage =>
        rw [hpage] at hkernel
        exact absurd hkernel (hkept.binary htype k hk)

/-- Then the directory leaves the kernel in place, with the chunk of its own directory. -/
theorem Finished.kernelInPlace {sd s : Kernel} {process : UInt32} {slot : Nat} {p : Process} {t : Task}
    (h : Finished sd process slot s p t) {directory : UInt32} {e m : Nat → UInt32}
    (hmaps : MapsBy s t.page_directory directory e m) (he : ∀ i < 1024, e i &&& 7 = 7) {image_end stack_begin : Nat}
    (hkept : KernelKept image_end stack_begin s p) {kernel_chunk : UInt32} {d : UInt32}
    (hchunk : s.live kernel_chunk = some (chunkK.inj d)) : KernelInPlace image_end stack_begin kernel_chunk e m := by
  obtain ⟨n, hn⟩ := h.wf.allocated hchunk
  have hrange := hn.range h.wf
  intro page hpage hcases
  refine ⟨fun hzero => ?_, (h.kernel_iff (maps_iff.mpr ⟨_, _, hmaps, he⟩) image_end stack_begin).mpr hkept page hpage ?_⟩
  · have hall : e (page / 1024) &&& 7 &&& PAGING_IS_PRESENT = 0 := by
      rw [UInt32.and_assoc]
      exact hzero
    rw [he _ (by omega)] at hall
    exact absurd hall (by decide)
  · unfold KernelPage
    omega

/-- **Whether the kernel stays where it is.** After a load that succeeds, the pages of the kernel are found
at their own addresses in the directory of the new task if and only if nothing is mapped over them. -/
theorem processLoad_kernel_iff {s : Kernel} (hwf : s.WF) (garbage : UInt32) (filename : List UInt8)
    (image_end stack_begin : Nat) :
    Ensures (processLoad garbage filename) s fun r s' => 0 ≤ r.1 → ∃ process p m,
      r.2 = some process ∧ ProcessMaps s' process p m ∧
      ((∀ page < 2 ^ 20, KernelPage image_end stack_begin page → IdentityMapped page (m page)) ↔
        KernelKept image_end stack_begin s' p) := by
  intro r s' hrun hpos
  obtain ⟨process, res, sd, slot, p, t, rfl, -, -, hfinished⟩ :=
    processLoad_finished hwf garbage filename r s' hrun hpos
  have hmaps := hfinished.maps
  exact ⟨process, p, _, rfl, ⟨hfinished.started.live, t, hfinished.started.task, hmaps⟩,
    hfinished.kernel_iff hmaps image_end stack_begin⟩

/-- A program of one page that is not among those of the kernel. -/
theorem ElfProcess.kernelKept {phdr : Elf32Phdr} {s : Kernel} {p : Process} {f : ElfFile}
    (h : ElfProcess phdr s p f) (hone : headerCount (blockAddress 15) phdr = 1) {image_end stack_begin : Nat}
    (himage : image_end ≤ 0x3FB) (hstack : 0x3FF ≤ stack_begin)
    (hpage : ¬ KernelPage image_end stack_begin (headerPage phdr 0)) : KernelKept image_end stack_begin s p := by
  refine ⟨fun page hstackPage hkernel => ?_, fun htype => ?_, fun _ f' hfile page i k hlast _ hkernel => ?_⟩
  · unfold StackPage at hstackPage
    unfold KernelPage at hkernel
    omega
  · rw [h.filetype] at htype
    exact absurd htype (by decide)
  · obtain rfl := elfFileK.inj_injective (Option.some.inj (hfile.symm.trans h.file))
    obtain ⟨-, -, rfl⟩ := (h.lastHeader hone).mp hlast
    exact absurd hkernel hpage

/-- The page of `A` is above the stack of the kernel. -/
theorem processLoad_kernel_A : ∃ s' process p m,
    processLoad 0 pathA (elfKernel plainHeader 84) = some ((OK, some process), s') ∧
      ProcessMaps s' process p m ∧ KernelKept 0x10D 0x5FF s' p ∧
      ∀ page < 2 ^ 20, KernelPage 0x10D 0x5FF page → IdentityMapped page (m page) := by
  obtain ⟨s', sd, slot, p0, t, f, hrun, hfinished, helf⟩ := plainHeader_run.load_elf
  obtain ⟨process, p, m, hout, hmaps, hiff⟩ := processLoad_kernel_iff (oneFileKernel_wf (by decide)) 0 pathA 0x10D 0x5FF
    _ s' hrun (Int.le_refl 0)
  obtain rfl := Option.some.inj hout
  obtain rfl := processK.inj_injective (Option.some.inj (hmaps.1.symm.trans hfinished.started.live))
  have hkept : KernelKept 0x10D 0x5FF s' p :=
    helf.kernelKept (by decide) (by decide) (by decide) (by unfold KernelPage; decide)
  exact ⟨s', _, p, m, hrun, hmaps, hkept, hiff.mpr hkept⟩

/-- `A` is loaded, and the first page of the kernel is not found at its address any more. -/
theorem processLoad_covers_kernel : ∃ s' process p m,
    processLoad 0 pathA (elfKernel kernelHeader 84) = some ((OK, some process), s') ∧
      ProcessMaps s' process p m ∧ KernelPage 0x10D 0x5FF 0x100 ∧ ¬ IdentityMapped 0x100 (m 0x100) := by
  obtain ⟨s', process, p, m, hrun, -, hmaps, hentry⟩ := kernelHeader_loaded
  refine ⟨s', process, p, m, hrun, hmaps, Or.inl ⟨by decide, by decide⟩, ?_⟩
  rw [hentry]
  unfold IdentityMapped
  decide

end RasOS
