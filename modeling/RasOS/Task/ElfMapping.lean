import RasOS.Task.MapSpec
import RasOS.Task.TaskList

set_option autoImplicit false

/-! # Mapping an ELF image

For an image that obeys the layout rules of ELF, every byte of a program header is found at its
virtual address, with the rights the header asks for, and no other page is touched. -/

namespace RasOS

open Machine

/-- The pages of a program header: from the page of its first byte to the end, rounded up. -/
def phdrPages (phdr : Elf32Phdr) (page : Nat) : Prop :=
  phdr.p_vaddr.toNat / 4096 ≤ page ∧
    page < (phdr.p_vaddr.toNat + phdr.p_filesz.toNat + 4095) / 4096

/-- The rules for one program header of an image of `size` bytes at `elf_memory`. No address wraps,
neither of a byte nor of the end of the range in whole pages. -/
structure PhdrLayout (elf_memory : UInt32) (size : Nat) (phdr : Elf32Phdr) : Prop where
  inside : phdr.p_offset.toNat + phdr.p_filesz.toNat ≤ size
  congruent : phdr.p_vaddr.toNat % 4096 = phdr.p_offset.toNat % 4096
  virtual : phdr.p_vaddr.toNat + phdr.p_filesz.toNat ≤ 2 ^ 32
  physical : elf_memory.toNat + phdr.p_offset.toNat + phdr.p_filesz.toNat ≤ 2 ^ 32 - 4096

/-- The layout rules of ELF for the image at `elf_memory`. -/
structure ElfLayout (mem : UInt32 → UInt8) (elf_memory : UInt32) (size : Nat) : Prop where
  header : ∀ i < programCount mem elf_memory, PhdrLayout elf_memory size (programHeader mem elf_memory i)
  apart : ∀ i < programCount mem elf_memory, ∀ j < programCount mem elf_memory, i ≠ j → ∀ page,
    ¬ (phdrPages (programHeader mem elf_memory i) page ∧
      phdrPages (programHeader mem elf_memory j) page)

/-- The entry of a page of a program header. -/
def phdrEntry (elf_memory : UInt32) (phdr : Elf32Phdr) (page : Nat) : UInt32 :=
  UInt32.ofNat (elf_memory.toNat + phdr.p_offset.toNat / 4096 * 4096 +
    4096 * (page - phdr.p_vaddr.toNat / 4096)) ||| phdrFlags phdr

section Header

variable {elf_memory : UInt32} {size : Nat} {phdr : Elf32Phdr}

theorem PhdrLayout.phys (h : PhdrLayout elf_memory size phdr) :
    (elfPhdrPhysAddress elf_memory phdr).toNat = elf_memory.toNat + phdr.p_offset.toNat ∧
      (elfPhdrPhysAddress elf_memory phdr + phdr.p_filesz).toNat
        = elf_memory.toNat + phdr.p_offset.toNat + phdr.p_filesz.toNat := by
  have hphys := h.physical
  have hstart : (elfPhdrPhysAddress elf_memory phdr).toNat
      = elf_memory.toNat + phdr.p_offset.toNat := by
    rw [elfPhdrPhysAddress, UInt32.toNat_add]
    omega
  refine ⟨hstart, ?_⟩
  rw [UInt32.toNat_add, hstart]
  omega

theorem PhdrLayout.ok (h : PhdrLayout elf_memory size phdr) : PhdrOk elf_memory phdr := by
  have hphys := h.physical
  rw [PhdrOk, UInt32.le_iff_toNat_le, pagingAlignToLowerPage_toNat, pagingAlignAddress_toNat,
    h.phys.1, h.phys.2]
  omega

/-- The number of pages mapped for a header is the number of its pages. -/
theorem PhdrLayout.count (h : PhdrLayout elf_memory size phdr) (haligned : elf_memory.toNat % 4096 = 0) :
    (pagingAlignAddress (elfPhdrPhysAddress elf_memory phdr + phdr.p_filesz) -
        pagingAlignToLowerPage (elfPhdrPhysAddress elf_memory phdr)).toNat / 4096
      = (phdr.p_vaddr.toNat + phdr.p_filesz.toNat + 4095) / 4096 - phdr.p_vaddr.toNat / 4096 := by
  have hphys := h.physical
  have hcong := h.congruent
  rw [UInt32.toNat_sub_of_le _ _ h.ok, pagingAlignToLowerPage_toNat, pagingAlignAddress_toNat,
    h.phys.1, h.phys.2]
  omega

theorem PhdrLayout.mem_writes (h : PhdrLayout elf_memory size phdr)
    (haligned : elf_memory.toNat % 4096 = 0) (page : Nat) (entry : UInt32) :
    (page, entry) ∈ phdrWrites elf_memory phdr ↔
      phdrPages phdr page ∧ entry = phdrEntry elf_memory phdr page := by
  have hphys := h.physical
  have hvirt := h.virtual
  have hcong := h.congruent
  have hvalue : ∀ k, k < (phdr.p_vaddr.toNat + phdr.p_filesz.toNat + 4095) / 4096
        - phdr.p_vaddr.toNat / 4096 →
      (pagingAlignToLowerPage phdr.p_vaddr + UInt32.ofNat (4096 * k)).toNat / 4096
          = phdr.p_vaddr.toNat / 4096 + k ∧
        pagingAlignToLowerPage (elfPhdrPhysAddress elf_memory phdr) + UInt32.ofNat (4096 * k)
          = UInt32.ofNat (elf_memory.toNat + phdr.p_offset.toNat / 4096 * 4096 + 4096 * k) := by
    intro k hk
    constructor
    · rw [UInt32.toNat_add, pagingAlignToLowerPage_toNat, UInt32.toNat_ofNat']
      omega
    · apply UInt32.toNat_inj.mp
      rw [UInt32.toNat_add, pagingAlignToLowerPage_toNat, UInt32.toNat_ofNat', UInt32.toNat_ofNat',
        h.phys.1]
      omega
  rw [phdrWrites, mapToWrites, h.count haligned, rangeWrites, List.mem_map]
  constructor
  · rintro ⟨k, hk, heq⟩
    rw [List.mem_range] at hk
    obtain ⟨hpage, hentry⟩ := Prod.mk.inj heq
    rw [(hvalue k hk).1] at hpage
    refine ⟨⟨by omega, by omega⟩, ?_⟩
    rw [← hentry, (hvalue k hk).2, phdrEntry, ← hpage, Nat.add_sub_cancel_left]
  · rintro ⟨⟨h1, h2⟩, rfl⟩
    refine ⟨page - phdr.p_vaddr.toNat / 4096, ?_, ?_⟩
    · rw [List.mem_range]
      omega
    · have hk := hvalue (page - phdr.p_vaddr.toNat / 4096) (by omega)
      rw [hk.1, hk.2, phdrEntry, Nat.add_sub_cancel' h1]

theorem phdrFlags_lt (phdr : Elf32Phdr) : (phdrFlags phdr).toNat < 4096 := by
  rw [phdrFlags]
  split <;> decide

end Header

/-- The address `va` is translated to `phys` by `entry`, for the user, for writing as `writable`
says. -/
structure Translates (entry va : UInt32) (phys : Nat) (writable : Prop) : Prop where
  address : (entry &&& 0xfffff000).toNat + va.toNat % 4096 = phys
  present : entry &&& PAGING_IS_PRESENT ≠ 0
  user : entry &&& PAGING_ACCESS_BY_ALL ≠ 0
  writable : entry &&& PAGING_IS_WRITABLE ≠ 0 ↔ writable

theorem PhdrLayout.translates {elf_memory va : UInt32} {size : Nat} {phdr : Elf32Phdr}
    (h : PhdrLayout elf_memory size phdr) (haligned : elf_memory.toNat % 4096 = 0)
    (h1 : phdr.p_vaddr.toNat ≤ va.toNat) (h2 : va.toNat < phdr.p_vaddr.toNat + phdr.p_filesz.toNat) :
    Translates (phdrEntry elf_memory phdr (va.toNat / 4096)) va
      (elf_memory.toNat + phdr.p_offset.toNat + (va.toNat - phdr.p_vaddr.toNat))
      (phdr.p_flags &&& PF_W ≠ 0) := by
  have hphys := h.physical
  have hcong := h.congruent
  have hlt : elf_memory.toNat + phdr.p_offset.toNat / 4096 * 4096 +
      4096 * (va.toNat / 4096 - phdr.p_vaddr.toNat / 4096) < 2 ^ 32 := by omega
  have hpage : (UInt32.ofNat (elf_memory.toNat + phdr.p_offset.toNat / 4096 * 4096 +
      4096 * (va.toNat / 4096 - phdr.p_vaddr.toNat / 4096))).toNat % 4096 = 0 := by
    rw [toNat_ofNat_of_lt hlt]
    omega
  have hflags : ∀ g : UInt32, g.toNat < 4096 →
      phdrEntry elf_memory phdr (va.toNat / 4096) &&& g = phdrFlags phdr &&& g := fun g hg =>
    flags_or_page hpage hg
  refine ⟨?_, ?_, ?_, ?_⟩
  · rw [phdrEntry, page_or_flags hpage (phdrFlags_lt phdr), toNat_ofNat_of_lt hlt]
    omega
  · rw [hflags _ (by decide), phdrFlags]
    split <;> decide
  · rw [hflags _ (by decide), phdrFlags]
    split <;> decide
  · rw [hflags _ (by decide), phdrFlags]
    split
    · rename_i hw
      exact iff_of_true (by decide) hw
    · rename_i hw
      exact iff_of_false (by decide) hw

/-- **`process_map_elf` maps the image.** -/
theorem processMapElf_maps {s : Kernel} {process : UInt32} {p : Process} {f : ElfFile} {t : Task}
    {m : Nat → UInt32} {size : Nat} (hp : s.live process = some (processK.inj p))
    (hf : s.live p.ptr = some (elfFileK.inj f)) (ht : s.live p.task = some (taskK.inj t))
    (hmaps : Maps s t.page_directory m) (hmem : f.elf_memory ≠ 0)
    (haligned : f.elf_memory.toNat % 4096 = 0) (hlayout : ElfLayout s.mem f.elf_memory size) :
    ∃ s' m', processMapElf process s = some (OK, s') ∧ Maps s' t.page_directory m' ∧
      (∀ i < programCount s.mem f.elf_memory, ∀ va : UInt32,
        (programHeader s.mem f.elf_memory i).p_vaddr.toNat ≤ va.toNat →
        va.toNat < (programHeader s.mem f.elf_memory i).p_vaddr.toNat +
          (programHeader s.mem f.elf_memory i).p_filesz.toNat →
        Translates (m' (va.toNat / 4096)) va
          (f.elf_memory.toNat + (programHeader s.mem f.elf_memory i).p_offset.toNat +
            (va.toNat - (programHeader s.mem f.elf_memory i).p_vaddr.toNat))
          ((programHeader s.mem f.elf_memory i).p_flags &&& PF_W ≠ 0)) ∧
      ∀ page, (∀ i < programCount s.mem f.elf_memory,
        ¬ phdrPages (programHeader s.mem f.elf_memory i) page) → m' page = m page := by
  obtain ⟨res, s', m', hrun, -, hmaps', hcases⟩ := processMapElf_spec hp hf hmem ht hmaps
  rcases hcases with ⟨-, j, hj, hno⟩ | ⟨rfl, -, rfl⟩
  · exact absurd (hlayout.header j hj).ok hno
  · have hwrites : ∀ page entry, (page, entry) ∈ programWrites s.mem f.elf_memory ↔
        ∃ i < programCount s.mem f.elf_memory,
          phdrPages (programHeader s.mem f.elf_memory i) page ∧
            entry = phdrEntry f.elf_memory (programHeader s.mem f.elf_memory i) page := by
      intro page entry
      rw [programWrites, List.mem_flatMap]
      constructor
      · rintro ⟨i, hi, hin⟩
        rw [List.mem_range] at hi
        exact ⟨i, hi, ((hlayout.header i hi).mem_writes haligned page entry).mp hin⟩
      · rintro ⟨i, hi, hin⟩
        exact ⟨i, List.mem_range.mpr hi,
          ((hlayout.header i hi).mem_writes haligned page entry).mpr hin⟩
    refine ⟨s', _, hrun, hmaps', fun i hi va h1 h2 => ?_, fun page hpage => ?_⟩
    · have hin : phdrPages (programHeader s.mem f.elf_memory i) (va.toNat / 4096) :=
        ⟨Nat.div_le_div_right h1, by omega⟩
      -- no other header writes to this page
      have hlast : lastWrite (va.toNat / 4096) (programWrites s.mem f.elf_memory) =
          some (phdrEntry f.elf_memory (programHeader s.mem f.elf_memory i) (va.toNat / 4096)) := by
        refine lastWrite_of_mem ((hwrites _ _).mpr ⟨i, hi, hin, rfl⟩) ?_
        rintro ⟨page, entry⟩ hw rfl
        obtain ⟨j, hj, hin', rfl⟩ := (hwrites _ _).mp hw
        by_cases hij : i = j
        · rw [hij]
        · exact absurd ⟨hin, hin'⟩ (hlayout.apart i hi j hj hij _)
      rw [overlay_apply, hlast]
      exact (hlayout.header i hi).translates haligned h1 h2
    · have hnone : lastWrite page (programWrites s.mem f.elf_memory) = none := by
        refine lastWrite_eq_none.mpr ?_
        rintro ⟨page', entry⟩ hw rfl
        obtain ⟨i, hi, hin, -⟩ := (hwrites _ _).mp hw
        exact hpage i hi hin
      rw [overlay_apply, hnone]
      rfl

/-- A process whose image has one program header: 100 bytes from offset 16 on, to be found at
`0x400010`, for writing too. -/
def elfProcess : Process := { filetype := PROCESS_FILETYPE_ELF, ptr := 0x01002000 }

def elfProcessKernel : Kernel where
  heap := {
    entries := fun i => if i = 0 then 0xC1 else if i = 1 then 0x01 else
      if i = 2 ∨ i = 3 then 0x41 else HEAP_BLOCK_ENTRY_FREE
    total := 25600
    start_address := RASOS_HEAP_ADDRESS
    total_lt := kheapTotal_lt }
  mem := fun a =>
    if a = 0x0100301C then 52 else if a = 0x0100302C ∨ a = 0x01003034 then 1
    else if a = 0x01003038 ∨ a = 0x0100303C then 16 else if a = 0x0100303E then 0x40
    else if a = 0x01003044 then 100 else if a = 0x0100304C then 2 else 0
  live := fun ptr =>
    if ptr = 0x01000000 then some (.process elfProcess)
    else if ptr = 0x01002000 then some (.elfFile { elf_memory := 0x01003000 })
    else if ptr = 0x01003000 then some .raw else none
  drive := fun _ _ => none
  requests := []
  disk := {}
  file_descriptors := fun _ => 0
  processes := fun _ => 0
  current_process := 0
  current_task := 0
  task_head := 0
  task_tail := 0
  current_directory := 0

theorem elfProcessKernel_wf : elfProcessKernel.WF where
  start := rfl
  total := rfl
  block := by
    intro ptr o ho
    change (if ptr = 0x01000000 then _ else if ptr = 0x01002000 then _ else
      if ptr = 0x01003000 then _ else none) = some o at ho
    split at ho
    · rename_i hptr
      refine ⟨0, 2, ⟨by decide, by decide, fun i h1 h2 => ?_⟩, hptr⟩
      rcases Nat.lt_or_ge i 1 with hi | hi
      · obtain rfl : i = 0 := by omega
        rfl
      · obtain rfl : i = 1 := by omega
        rfl
    · split at ho
      · rename_i hptr
        refine ⟨2, 1, ⟨by decide, by decide, fun i h1 h2 => ?_⟩, hptr⟩
        obtain rfl : i = 2 := by omega
        rfl
      · split at ho
        · rename_i hptr
          refine ⟨3, 1, ⟨by decide, by decide, fun i h1 h2 => ?_⟩, hptr⟩
          obtain rfl : i = 3 := by omega
          rfl
        · cases ho

theorem elfProcessKernel_room : TaskRoom elfProcessKernel 0x01000000 where
  blocks := by
    have hcount := le_freeCount elfProcessKernel.heap 4 25600 (Nat.le_refl _) fun i h1 h2 => by
        show isBlockTaken (if (i : Int) = 0 then _ else if (i : Int) = 1 then _ else
          if (i : Int) = 2 ∨ (i : Int) = 3 then _ else _) = false
        rw [if_neg (by omega), if_neg (by omega), if_neg (by omega)]
        rfl
    omega
  starts := ⟨_, _, rfl, .elf { elf_memory := 0x01003000 } rfl rfl (by decide)⟩

theorem elfProcessKernel_layout : ElfLayout elfProcessKernel.mem 0x01003000 4096 := by
  have hcount : programCount elfProcessKernel.mem 0x01003000 = 1 := by decide +kernel
  have hheader : programHeader elfProcessKernel.mem 0x01003000 0 = ⟨1, 16, 0x400010, 100, 2⟩ := by
    decide +kernel
  refine ⟨fun i hi => ?_, fun i hi j hj hij => ?_⟩
  · obtain rfl : i = 0 := by omega
    rw [hheader]
    exact ⟨by decide, by decide, by decide, by decide⟩
  · omega

/-- The process gets a task and is mapped: the first byte of the segment is where it should be. -/
theorem processMapElf_maps_segment :
    ∃ (s s' : Kernel) (m' : Nat → UInt32), s.mem = elfProcessKernel.mem ∧
      processMapElf 0x01000000 s = some (OK, s') ∧
      Translates (m' 0x400) 0x400010 0x01003010
        ((programHeader s.mem 0x01003000 0).p_flags &&& PF_W ≠ 0) := by
  rcases taskNew_spec elfProcessKernel_wf 0x01000000 with ⟨hno, -⟩ | ⟨-, task, k, -, hnew, htask, -⟩
  · exact absurd ⟨elfProcessKernel_room, Or.inl (Or.inl rfl)⟩ hno
  cases htask with
  | append s5 hsince hhead => exact absurd rfl hhead
  | first s5 hsince hempty chunk ip hfree hlive hstarts hmaps hmem =>
      have hp : s5.live 0x01000000 = some (processK.inj elfProcess) := hsince.object _ _ rfl
      have htask : task ≠ 0x01000000 := by
        rintro rfl
        cases hfree
      have hfile : (0x01002000 : UInt32) ≠ 0x01000000 := by decide
      -- the task becomes the task of the process
      have hmaps1 : Maps { s5 with
          live := processK.write s5.live 0x01000000 { elfProcess with task := task } } chunk
          (identityEntry taskFlags) := by
        refine hmaps.congr fun q o hpaging hq => ?_
        have hne : q ≠ 0x01000000 := by
          rintro rfl
          rw [hp] at hq
          obtain rfl := Option.some.inj hq
          cases hpaging
        exact (Kind.write_of_ne _ _ _ hne).trans hq
      obtain ⟨s', m', hrun, -, htranslates, -⟩ := @processMapElf_maps
        { s5 with live := processK.write s5.live 0x01000000 { elfProcess with task := task } }
        0x01000000 { elfProcess with task := task } { elf_memory := 0x01003000 }
        (initialTask chunk ip 0x01000000) (identityEntry taskFlags) 4096
        (Kind.write_self processK s5.live 0x01000000 { elfProcess with task := task })
        ((Kind.write_of_ne processK s5.live { elfProcess with task := task } hfile).trans (hsince.object _ _ rfl))
        ((Kind.write_of_ne processK s5.live { elfProcess with task := task } htask).trans hlive) hmaps1
        (by decide) (by decide) (by rw [hmem]; exact elfProcessKernel_layout)
      refine ⟨_, s', m', ?_, hrun, ?_⟩
      · exact hmem
      have hcount : programCount s5.mem 0x01003000 = 1 := by
        rw [hmem]
        decide +kernel
      have hheader : programHeader s5.mem 0x01003000 0 = ⟨1, 16, 0x400010, 100, 2⟩ := by
        rw [hmem]
        decide +kernel
      have hfirst := htranslates 0 (by rw [hcount]; decide) 0x400010 (by rw [hheader])
        (by rw [hheader]; decide)
      rw [hheader] at hfirst
      show Translates _ _ _ ((programHeader s5.mem 0x01003000 0).p_flags &&& PF_W ≠ 0)
      rw [hheader]
      exact hfirst

end RasOS
