import RasOS.Task.Protection

set_option autoImplicit false

/-! # The memory image of a segment

A segment takes up `p_memsz` bytes of memory, of which `p_filesz` come from the file and the rest is zero.
`process_map_elf` maps the pages of the file where the file lies in memory, and never reads `p_memsz`: what
is behind the bytes of the file is left to chance. -/

namespace RasOS

open Machine

/-! ## What a segment is to be -/

/-- `p_memsz` of a program header, a field of its structure that no function reads. -/
def programMemsz (mem : UInt32 → UInt8) (elf_memory : UInt32) (index : Nat) : UInt32 :=
  read32 mem (elfProgramHeader elf_memory (headerAt mem elf_memory) index + 20)

/-- An address in the memory image of loadable segment `i`. -/
structure InSegment (mem : UInt32 → UInt8) (elf_memory : UInt32) (i : Nat) (va : UInt32) : Prop where
  index : i < programCount mem elf_memory
  load : (programHeader mem elf_memory i).p_type = PT_LOAD
  sizes : (programHeader mem elf_memory i).p_filesz ≤ programMemsz mem elf_memory i
  low : (programHeader mem elf_memory i).p_vaddr.toNat ≤ va.toNat
  high : va.toNat < (programHeader mem elf_memory i).p_vaddr.toNat + (programMemsz mem elf_memory i).toNat

/-- The byte that is to be read there: one of the file, or zero. -/
def segmentByte (mem : UInt32 → UInt8) (elf_memory : UInt32) (phdr : Elf32Phdr) (va : UInt32) : UInt8 :=
  if (va - phdr.p_vaddr).toNat < phdr.p_filesz.toNat then
    mem (elfPhdrPhysAddress elf_memory phdr + (va - phdr.p_vaddr))
  else 0

/-- Through `entry` the user reads `byte` at `va`, from memory of the process, and writes if it may. -/
structure Provides (s : Kernel) (p : Process) (entry va : UInt32) (writable : Prop) (byte : UInt8) : Prop where
  present : entry &&& PAGING_IS_PRESENT ≠ 0
  user : entry &&& PAGING_ACCESS_BY_ALL ≠ 0
  writable : entry &&& PAGING_IS_WRITABLE ≠ 0 ↔ writable
  owned : OwnsPage s p (entry &&& 0xfffff000)
  reads : s.mem ((entry &&& 0xfffff000) + va % 4096) = byte

/-- The whole memory image of every segment is there. -/
def ImageAvailable (s : Kernel) (p : Process) (f : ElfFile) (m : Nat → UInt32) : Prop :=
  ∀ i va, InSegment s.mem f.elf_memory i va → Provides s p (m (va.toNat / 4096)) va
    ((programHeader s.mem f.elf_memory i).p_flags &&& PF_W ≠ 0)
    (segmentByte s.mem f.elf_memory (programHeader s.mem f.elf_memory i) va)

/-! ## What there is instead -/

/-- Byte `offset` of a file that has been read, if the file has it. -/
def imageByteAt (mem : UInt32 → UInt8) (image : FileImage) (offset : UInt32) : Option UInt8 :=
  if offset.toNat < image.size.toNat then some (mem (image.memory + offset)) else none

/-- The byte that a header prescribes at `va`: one of the file, or zero behind `p_filesz`. -/
def prescribedByte (file : UInt32 → Option UInt8) (phdr : Elf32Phdr) (va : UInt32) : Option UInt8 :=
  if (va - phdr.p_vaddr).toNat < phdr.p_filesz.toNat then file (phdr.p_offset + (va - phdr.p_vaddr)) else some 0

/-- Where `va` leads, counted from the first byte of the image, and whether the user can write there: on a page
that a header maps, where the last such header puts it; elsewhere to its own address. -/
inductive Placed (mem : UInt32 → UInt8) (elf_memory va : UInt32) : UInt32 → Prop → Prop
  | header (j k : Nat) (hlast : LastHeader mem elf_memory (va.toNat / 4096) j k) :
      Placed mem elf_memory va
        (pagingAlignToLowerPage (programHeader mem elf_memory j).p_offset + UInt32.ofNat (4096 * k) + va % 4096)
        ((programHeader mem elf_memory j).p_flags &&& PF_W ≠ 0)
  | identity (hnone : ∀ j k, ¬ LastHeader mem elf_memory (va.toNat / 4096) j k) :
      Placed mem elf_memory va (va - elf_memory) False

/-- The place is one of the file and holds this byte, or one of the stack, which is zero. -/
def HoldsByte (file : UInt32 → Option UInt8) (elf_memory stack offset : UInt32) (byte : UInt8) : Prop :=
  file offset = some byte ∨
    (elf_memory + offset - stack).toNat < RASOS_USER_PROGRAM_STACK_SIZE.toNat ∧ byte = 0

/-- The pages of the stack, of the file, or of the identity happen to have the byte that segment `i` is to have at
`va`, with the rights of the segment. -/
inductive ByteBacked (s : Kernel) (p : Process) (f : ElfFile) (file : UInt32 → Option UInt8) (i : Nat)
    (va : UInt32) : Prop
  | stack (hpage : StackPage (va.toNat / 4096)) (hwrite : (programHeader s.mem f.elf_memory i).p_flags &&& PF_W ≠ 0)
      (hzero : prescribedByte file (programHeader s.mem f.elf_memory i) va = some 0)
  | image (offset : UInt32) (writable : Prop) (byte : UInt8) (hpage : ¬ StackPage (va.toNat / 4096))
      (hplaced : Placed s.mem f.elf_memory va offset writable)
      (hrights : writable ↔ (programHeader s.mem f.elf_memory i).p_flags &&& PF_W ≠ 0)
      (hbyte : prescribedByte file (programHeader s.mem f.elf_memory i) va = some byte)
      (hholds : HoldsByte file f.elf_memory p.stack offset byte)

/-- So it is for all bytes of all segments. -/
def SegmentsBacked (s : Kernel) (p : Process) (f : ElfFile) (file : UInt32 → Option UInt8) : Prop :=
  ∀ i va, InSegment s.mem f.elf_memory i va → ByteBacked s p f file i va

/-- What is left to chance: bytes that the file is to have and does not have, and those that lead behind the end of
the file, to the rest of the last of its `n` blocks. -/
inductive LeftToChance (s : Kernel) (f : ElfFile) (file : UInt32 → Option UInt8) (n i : Nat) (va : UInt32) : Prop
  | missing (hnone : prescribedByte file (programHeader s.mem f.elf_memory i) va = none)
  | behind (offset : UInt32) (writable : Prop) (hplaced : Placed s.mem f.elf_memory va offset writable)
      (hnone : file offset = none) (hlast : offset.toNat < 4096 * n)

/-- An entry of a whole page with its flags. -/
theorem provides_iff {s : Kernel} {p : Process} {phys flags va : UInt32} {writable : Prop} {byte : UInt8}
    (haligned : phys.toNat % 4096 = 0) (hflags : flags.toNat < 4096) (hpresent : flags &&& PAGING_IS_PRESENT ≠ 0)
    (huser : flags &&& PAGING_ACCESS_BY_ALL ≠ 0) :
    Provides s p (phys ||| flags) va writable byte ↔ (flags &&& PAGING_IS_WRITABLE ≠ 0 ↔ writable) ∧
      OwnsPage s p phys ∧ s.mem (phys + va % 4096) = byte := by
  have hpage := page_or_flags haligned hflags
  constructor
  · intro h
    have hwritable := h.writable
    have howned := h.owned
    have hreads := h.reads
    rw [flags_or_page haligned (by decide)] at hwritable
    rw [hpage] at howned hreads
    exact ⟨hwritable, howned, hreads⟩
  · rintro ⟨hwritable, howned, hreads⟩
    refine ⟨?_, ?_, ?_, ?_, ?_⟩
    · rwa [flags_or_page haligned (by decide)]
    · rwa [flags_or_page haligned (by decide)]
    · rwa [flags_or_page haligned (by decide)]
    · rwa [hpage]
    · rwa [hpage]

theorem phdrFlags_user (phdr : Elf32Phdr) :
    phdrFlags phdr &&& PAGING_IS_PRESENT ≠ 0 ∧ phdrFlags phdr &&& PAGING_ACCESS_BY_ALL ≠ 0 := by
  unfold phdrFlags
  split <;> exact ⟨by decide, by decide⟩

/-- The flags of a header and the rights it asks for. -/
theorem phdrFlags_writable (phdr : Elf32Phdr) :
    phdrFlags phdr &&& PAGING_IS_WRITABLE ≠ 0 ↔ phdr.p_flags &&& PF_W ≠ 0 := by
  have h := userWritable_phdrFlags phdr
  unfold UserWritable at h
  rw [← h]
  exact (and_iff_right (phdrFlags_user phdr).2).symm

/-- A byte of the stack. -/
theorem provides_stack {sd s : Kernel} {process : UInt32} {slot : Nat} {p : Process} {t : Task}
    (h : Finished sd process slot s p t) {k : Nat} (hk : k < 4) (va : UInt32) (writable : Prop) (byte : UInt8) :
    Provides s p (stackEntry p k) va writable byte ↔ writable ∧ byte = 0 := by
  have hwf := h.wf
  have hstack : Allocated s.heap p.stack 4 := h.started.stack_size
  have hrange := hstack.range hwf
  have haddress : (UInt32.ofNat (p.stack.toNat + 4096 * k)).toNat = p.stack.toNat + 4096 * k :=
    toNat_ofNat_of_lt (by omega)
  have haligned : (UInt32.ofNat (p.stack.toNat + 4096 * k)).toNat % 4096 = 0 := by omega
  have howned := ownsPage_stack hwf hstack hk
  unfold stackEntry at howned ⊢
  rw [page_or_flags haligned (by decide)] at howned
  have hzero : s.mem (UInt32.ofNat (p.stack.toNat + 4096 * k) + va % 4096) = 0 := by
    refine h.started.zero _ ?_
    have hmod : (va % 4096).toNat = va.toNat % 4096 := UInt32.toNat_mod ..
    have hsize : RASOS_USER_PROGRAM_STACK_SIZE.toNat = 4096 * 4 := by decide
    rw [hsize, UInt32.toNat_sub, UInt32.toNat_add, haddress, hmod]
    omega
  rw [provides_iff haligned (by decide) (by decide) (by decide), hzero]
  constructor
  · rintro ⟨hwritable, -, hbyte⟩
    exact ⟨hwritable.mp (by decide), hbyte.symm⟩
  · rintro ⟨hwritable, hbyte⟩
    exact ⟨iff_of_true (by decide) hwritable, howned, hbyte.symm⟩

/-- A byte of what is left of the identity. -/
theorem provides_identity {s : Kernel} {p : Process} {va : UInt32} {writable : Prop} {byte : UInt8} :
    Provides s p (identityEntry taskFlags (va.toNat / 4096)) va writable byte ↔
      ¬ writable ∧ OwnsPage s p (pagingAlignToLowerPage va) ∧ s.mem va = byte := by
  have hpage : UInt32.ofNat (4096 * (va.toNat / 4096)) = pagingAlignToLowerPage va := by
    apply UInt32.toNat_inj.mp
    have hlt := va.toNat_lt
    rw [pagingAlignToLowerPage_toNat, toNat_ofNat_of_lt (by omega), Nat.mul_comm]
  have hback : pagingAlignToLowerPage va + va % 4096 = va := by
    rw [pagingAlignToLowerPage, UInt32.sub_add_cancel]
  unfold identityEntry
  rw [hpage, provides_iff (pagingAlignToLowerPage_aligned va) (by decide) (by decide) (by decide), hback]
  have hflags : ¬ taskFlags &&& PAGING_IS_WRITABLE ≠ 0 := by decide
  rw [iff_false_left hflags]

/-! ## Where a byte leads -/

/-- A page is the `k`-th page of one header only. -/
theorem headerPage_injective {phdr : Elf32Phdr} {k k' : Nat} (hk : k < 2 ^ 20) (hk' : k' < 2 ^ 20)
    (h : headerPage phdr k = headerPage phdr k') : k = k' := by
  have haligned := pagingAlignToLowerPage_aligned phdr.p_vaddr
  have hlt := (pagingAlignToLowerPage phdr.p_vaddr).toNat_lt
  unfold headerPage at h
  rw [UInt32.toNat_add, UInt32.toNat_add, toNat_ofNat_of_lt (by omega), toNat_ofNat_of_lt (by omega)] at h
  omega

theorem LastHeader.unique {mem : UInt32 → UInt8} {elf_memory : UInt32} {page i k i' k' : Nat}
    (h : LastHeader mem elf_memory page i k) (h' : LastHeader mem elf_memory page i' k') : i = i' ∧ k = k' := by
  have hi : i = i' := by
    rcases Nat.lt_trichotomy i i' with hlt | heq | hgt
    · exact absurd h'.maps (h.last i' hlt h'.index k' h'.count)
    · exact heq
    · exact absurd h.maps (h'.last i hgt h.index k h.count)
  subst hi
  have hle := headerCount_le elf_memory (programHeader mem elf_memory i)
  exact ⟨rfl, headerPage_injective (lt_of_lt_of_le h.count hle) (lt_of_lt_of_le h'.count hle)
    (h.maps.trans h'.maps.symm)⟩

/-- A byte of a page is in an allocation when the page is. -/
theorem byte_in_iff {phys r base : UInt32} (hphys : phys.toNat % 4096 = 0) (hbase : base.toNat % 4096 = 0)
    (hr : r.toNat < 4096) (n : Nat) : (phys + r - base).toNat < 4096 * n ↔ (phys - base).toNat < 4096 * n := by
  have hlt := phys.toNat_lt
  have hlt' := base.toNat_lt
  rw [UInt32.toNat_sub, UInt32.toNat_sub, UInt32.toNat_add]
  omega

/-- A byte belongs to an ELF process when it is inside the image or inside the stack. -/
theorem ownsByte_iff {s : Kernel} (hwf : s.WF) {p : Process} (htype : p.filetype = PROCESS_FILETYPE_ELF)
    {f : ElfFile} (hfile : s.live p.ptr = some (elfFileK.inj f)) {n : Nat} (hn : Allocated s.heap f.elf_memory n)
    (hstack : Allocated s.heap p.stack 4) {phys va offset : UInt32} (haligned : phys.toNat % 4096 = 0)
    (hoffset : phys + va % 4096 = f.elf_memory + offset) :
    OwnsPage s p phys ↔ offset.toNat < 4096 * n ∨
      (f.elf_memory + offset - p.stack).toNat < RASOS_USER_PROGRAM_STACK_SIZE.toNat := by
  have hr : (va % 4096).toNat < 4096 := by
    rw [UInt32.toNat_mod]
    exact Nat.mod_lt _ (by decide)
  have hsize : RASOS_USER_PROGRAM_STACK_SIZE.toNat = 4096 * 4 := by decide
  have hback : offset = phys + va % 4096 - f.elf_memory := by
    rw [hoffset, UInt32.add_comm, UInt32.add_sub_cancel]
  rw [ownsPage_elf_iff hwf htype hfile hn hstack, ← hoffset, hback, hsize,
    byte_in_iff haligned (hn.range hwf).2.2.1 hr, byte_in_iff haligned (hstack.range hwf).2.2.1 hr]

/-- On a page of a header there is one such place. -/
theorem LastHeader.placed_iff {mem : UInt32 → UInt8} {elf_memory va : UInt32} {j k : Nat}
    (h : LastHeader mem elf_memory (va.toNat / 4096) j k) {Q : UInt32 → Prop → Prop} :
    (∃ offset w, Placed mem elf_memory va offset w ∧ Q offset w) ↔
      Q (pagingAlignToLowerPage (programHeader mem elf_memory j).p_offset + UInt32.ofNat (4096 * k) + va % 4096)
        ((programHeader mem elf_memory j).p_flags &&& PF_W ≠ 0) := by
  constructor
  · rintro ⟨offset, w, hplaced, hQ⟩
    cases hplaced with
    | header j' k' hlast =>
        obtain ⟨rfl, rfl⟩ := h.unique hlast
        exact hQ
    | identity hnone => exact absurd h (hnone j k)
  · exact fun hQ => ⟨_, _, .header j k h, hQ⟩

/-- So there is on the others. -/
theorem placed_identity_iff {mem : UInt32 → UInt8} {elf_memory va : UInt32}
    (hnone : ∀ j k, ¬ LastHeader mem elf_memory (va.toNat / 4096) j k) {Q : UInt32 → Prop → Prop} :
    (∃ offset w, Placed mem elf_memory va offset w ∧ Q offset w) ↔ Q (va - elf_memory) False := by
  constructor
  · rintro ⟨offset, w, hplaced, hQ⟩
    cases hplaced with
    | header j k hlast => exact absurd hlast (hnone j k)
    | identity _ => exact hQ
  · exact fun hQ => ⟨_, _, .identity hnone, hQ⟩

/-- What lies at a place with the rights `w` belongs to the process, and is `byte`. -/
def FoundAt (s : Kernel) (p : Process) (elf_memory : UInt32) (n : Nat) (writable : Prop) (byte : UInt8)
    (offset : UInt32) (w : Prop) : Prop :=
  (w ↔ writable) ∧ (offset.toNat < 4096 * n ∨
    (elf_memory + offset - p.stack).toNat < RASOS_USER_PROGRAM_STACK_SIZE.toNat) ∧ s.mem (elf_memory + offset) = byte

/-- What the user finds at `va`. -/
theorem Finished.finds_iff {sd s : Kernel} {process : UInt32} {slot : Nat} {p : Process} {t : Task}
    (h : Finished sd process slot s p t) {m : Nat → UInt32} (hm : Maps s t.page_directory m)
    (htype : p.filetype = PROCESS_FILETYPE_ELF) {f : ElfFile} (hfile : s.live p.ptr = some (elfFileK.inj f)) {n : Nat}
    (hn : Allocated s.heap f.elf_memory n) (va : UInt32) (writable : Prop) (byte : UInt8) :
    Provides s p (m (va.toNat / 4096)) va writable byte ↔
      StackPage (va.toNat / 4096) ∧ writable ∧ byte = 0 ∨
      ¬ StackPage (va.toNat / 4096) ∧
        ∃ offset w, Placed s.mem f.elf_memory va offset w ∧ FoundAt s p f.elf_memory n writable byte offset w := by
  have hwf := h.wf
  have hstack : Allocated s.heap p.stack 4 := h.started.stack_size
  have hlt := va.toNat_lt
  have hall := (h.forall_page_iff hm (P := fun page entry => page = va.toNat / 4096 →
    (Provides s p entry va writable byte ↔ StackPage page ∧ writable ∧ byte = 0 ∨
      ¬ StackPage page ∧
        ∃ offset w, Placed s.mem f.elf_memory va offset w ∧ FoundAt s p f.elf_memory n writable byte offset w))).mpr
  refine hall ⟨fun k hk _ => ?_, fun page phys flags hp _ hoff heq => ?_, fun page _ hoff hnone heq => ?_⟩ _
    (by omega) rfl
  · -- a page of the stack
    have hon : StackPage (0x3FB + k) := ⟨by omega, by omega⟩
    rw [provides_stack h hk, and_iff_right hon, or_iff_left fun hno => hno.1 hon]
  · -- a page of a header
    subst heq
    rw [and_iff_right hoff, or_iff_right fun hon => hoff hon.1]
    cases hp with
    | binary k hbinary _ _ =>
        rw [htype] at hbinary
        exact absurd hbinary (by decide)
    | elf f' j k _ hfile' hlast =>
        rw [hfile] at hfile'
        obtain rfl := elfFileK.inj_injective (Option.some.inj hfile')
        have haligned := headerPhys_aligned f.elf_memory (programHeader s.mem f.elf_memory j) k
        have hoffset : headerPhys f.elf_memory (programHeader s.mem f.elf_memory j) k + va % 4096 =
            f.elf_memory + (pagingAlignToLowerPage (programHeader s.mem f.elf_memory j).p_offset +
              UInt32.ofNat (4096 * k) + va % 4096) := by
          rw [← headerPhys_sub (hn.range hwf).2.2.1, ← UInt32.add_assoc, UInt32.add_comm f.elf_memory,
            UInt32.sub_add_cancel]
        rw [provides_iff haligned (phdrFlags_lt _) (phdrFlags_user _).1 (phdrFlags_user _).2, phdrFlags_writable,
          ownsByte_iff hwf htype hfile hn hstack haligned hoffset, hoffset]
        exact (hlast.placed_iff (Q := FoundAt s p f.elf_memory n writable byte)).symm
  · -- a page of the identity
    subst heq
    have hheaders : ∀ j k, ¬ LastHeader s.mem f.elf_memory (va.toNat / 4096) j k :=
      fun j k hlast => hnone _ _ (.elf f j k htype hfile hlast)
    have hself : f.elf_memory + (va - f.elf_memory) = va := by
      rw [UInt32.add_comm, UInt32.sub_add_cancel]
    have hoffset : pagingAlignToLowerPage va + va % 4096 = f.elf_memory + (va - f.elf_memory) := by
      rw [hself, pagingAlignToLowerPage, UInt32.sub_add_cancel]
    rw [and_iff_right hoff, or_iff_right fun hon => hoff hon.1, provides_identity,
      ownsByte_iff hwf htype hfile hn hstack (pagingAlignToLowerPage_aligned va) hoffset]
    refine Iff.trans ?_ (placed_identity_iff hheaders (Q := FoundAt s p f.elf_memory n writable byte)).symm
    rw [FoundAt, false_iff, hself]

/-! ## A loaded process -/

/-- Which segments are there. -/
theorem Finished.segments {sd s : Kernel} {process : UInt32} {slot : Nat} {p : Process} {t : Task}
    (h : Finished sd process slot s p t) {m : Nat → UInt32} (hm : Maps s t.page_directory m)
    (htype : p.filetype = PROCESS_FILETYPE_ELF) {f : ElfFile} (hfile : s.live p.ptr = some (elfFileK.inj f)) {n : Nat}
    (hn : Allocated s.heap f.elf_memory n) {file : UInt32 → Option UInt8}
    (hread : ∀ offset byte, file offset = some byte → offset.toNat < 4096 * n ∧ s.mem (f.elf_memory + offset) = byte) :
    (SegmentsBacked s p f file → ImageAvailable s p f m) ∧
    (ImageAvailable s p f m → ∀ i va, InSegment s.mem f.elf_memory i va →
      ByteBacked s p f file i va ∨ LeftToChance s f file n i va) := by
  have hprovides := fun va writable byte => h.finds_iff hm htype hfile hn va writable byte
  have hzero : ∀ a : UInt32, (a - p.stack).toNat < RASOS_USER_PROGRAM_STACK_SIZE.toNat → s.mem a = 0 := h.started.zero
  -- the prescribed byte is the one that is to be read
  have hsegment : ∀ {i : Nat} {va : UInt32} {byte : UInt8},
      prescribedByte file (programHeader s.mem f.elf_memory i) va = some byte →
        segmentByte s.mem f.elf_memory (programHeader s.mem f.elf_memory i) va = byte := by
    intro i va byte hbyte
    unfold prescribedByte at hbyte
    unfold segmentByte
    split at hbyte
    · rename_i hlt
      rw [if_pos hlt, elfPhdrPhysAddress, UInt32.add_assoc]
      exact (hread _ _ hbyte).2
    · rename_i hlt
      rw [if_neg hlt]
      exact Option.some.inj hbyte
  constructor
  · intro hbacked i va hin
    refine (hprovides va _ _).mpr ?_
    cases hbacked i va hin with
    | stack hpage hwrite hbyte => exact Or.inl ⟨hpage, hwrite, hsegment hbyte⟩
    | image offset writable byte hpage hplaced hrights hbyte hholds =>
        rw [hsegment hbyte]
        refine Or.inr ⟨hpage, offset, writable, hplaced, hrights, ?_⟩
        rcases hholds with hfound | ⟨hstack, rfl⟩
        · obtain ⟨hlt, hmem⟩ := hread _ _ hfound
          exact ⟨Or.inl hlt, hmem⟩
        · exact ⟨Or.inr hstack, hzero _ hstack⟩
  · intro havailable i va hin
    cases hbyte : prescribedByte file (programHeader s.mem f.elf_memory i) va with
    | none => exact Or.inr (.missing hbyte)
    | some byte =>
        have hfound := (hprovides va _ _).mp (havailable i va hin)
        rw [hsegment hbyte] at hfound
        rcases hfound with ⟨hpage, hwrite, rfl⟩ | ⟨hpage, offset, writable, hplaced, hrights, howned, hmem⟩
        · exact Or.inl (.stack hpage hwrite hbyte)
        · rcases howned with hlt | hstack
          · cases hplace : file offset with
            | none => exact Or.inr (.behind offset writable hplaced hplace hlt)
            | some byte' =>
                obtain rfl := (hread _ _ hplace).2.symm.trans hmem
                exact Or.inl (.image offset writable byte' hpage hplaced hrights hbyte (Or.inl hplace))
          · rw [hzero _ hstack] at hmem
            exact Or.inl (.image offset writable byte hpage hplaced hrights hbyte (Or.inr ⟨hstack, hmem.symm⟩))

/-- Allocate the structure of a process and read its file. -/
def processReadImage (filename : List UInt8) : KernelM FileImage := do
  let process ← kzalloc processK SIZEOF_PROCESS {}
  store processK process {}
  readImage filename

/-- An ELF process has the file that has been read. -/
theorem processLoadElf_image {s s' : Kernel} (hwf : s.WF) {filename : List UInt8} {process : UInt32} {res : Int}
    (hrun : processLoadElf filename process s = some (res, s')) (hpos : 0 ≤ res) {p : Process}
    (hp : s'.live process = some (processK.inj p)) (hptr : p.ptr ≠ 0) :
    ∃ image s1, readImage filename s = some (image, s1) ∧ p.ptr = image.elf_file ∧ ImageHeld s' image s1.mem := by
  obtain ⟨⟨res1, file_out⟩, s2, hload, hrest⟩ := bind_eq_some.mp hrun
  change (if res1 < 0 then _ else _ : KernelM Int) s2 = _ at hrest
  by_cases hneg : res1 < 0
  · rw [if_pos hneg] at hrest
    exact absurd ((pure_eq_some.mp hrest).1 ▸ hneg) (not_lt.mpr hpos)
  rw [if_neg hneg] at hrest
  obtain ⟨p2, s3, hload2, hstore⟩ := bind_eq_some.mp hrest
  obtain ⟨hp2, rfl⟩ := load_eq_some.mp hload2
  rw [bind_of_some (store_of_live hp2 _)] at hstore
  obtain ⟨-, rfl⟩ := pure_eq_some.mp hstore
  have hself := (Kind.write_self processK s3.live process
    { p2 with filetype := PROCESS_FILETYPE_ELF, ptr := file_out.getD 0 }).symm.trans hp
  obtain rfl := processK.inj_injective (Option.some.inj hself)
  cases file_out with
  | none => exact absurd rfl hptr
  | some elf =>
      obtain ⟨image, s1, hread, rfl⟩ := elfLoad_readImage hwf hload
      obtain ⟨himage, hsame⟩ := readImage_spec hwf hread
      rw [hsame] at hload
      obtain ⟨hvalid, hinvalid⟩ := (total_of_some hload).mp (elfLoadRead_spec himage)
      have hok : elfValidateLoaded (headerAt s1.mem image.memory) = OK := by
        by_contra hbad
        cases hinvalid hbad
      obtain ⟨-, ⟨f, hf, hmemory⟩, hraw, hallocated, hbytes⟩ := hvalid hok
      -- neither the structure nor the image is the process
      have hapart : ∀ {q : UInt32} {o : Obj}, s3.live q = some o → (∀ a, o ≠ processK.inj a) → q ≠ process := by
        rintro q o ho hother rfl
        exact hother p2 (Option.some.inj (ho.symm.trans hp2))
      exact ⟨image, s1, hread, rfl,
        ⟨f, (Kind.write_of_ne _ _ _ (hapart hf fun _ heq => Obj.noConfusion heq)).trans hf, hmemory⟩,
        (Kind.write_of_ne _ _ _ (hapart hraw fun _ heq => Obj.noConfusion heq)).trans hraw, hallocated, hbytes⟩

theorem processLoadFile_image {s sd : Kernel} (hwf : s.WF) {filename : List UInt8} {process : UInt32} {res : Int}
    (hrun : processLoadFile filename s = some ((process, res), sd)) :
    ∃ p, sd.live process = some (processK.inj p) ∧ (p.filetype = PROCESS_FILETYPE_ELF → p.ptr ≠ 0 →
      ∃ image s2, processReadImage filename s = some (image, s2) ∧ p.ptr = image.elf_file ∧
        ImageHeld sd image s2.mem) := by
  rcases newProcess_spec hwf with ⟨-, halloc⟩ | ⟨-, process', s0, s1, hne, halloc, hstore, hnew⟩
  · have hnull : store processK 0 {} s = none := by
      rw [store, Kind.read, hwf.live_zero]
      rfl
    unfold processLoadFile at hrun
    rw [bind_of_some halloc, bind_of_none hnull] at hrun
    cases hrun
  rw [processLoadFile_eq halloc hstore] at hrun
  obtain ⟨res', sd', hdata, hpure⟩ := bind_eq_some.mp hrun
  obtain ⟨hpair, rfl⟩ := pure_eq_some.mp hpure
  obtain ⟨rfl, rfl⟩ := Prod.mk.inj hpair
  obtain ⟨res1, s2, helf, hrest⟩ := bind_eq_some.mp hdata
  obtain ⟨p, hloaded, hzero⟩ := processLoadElf_spec hnew.since.fileFrame hnew.fresh hnew.live filename res1 s2 helf
  by_cases hformat : res1 = - EINFORMAT
  · -- a flat binary, or no file
    rw [if_pos hformat] at hrest
    obtain rfl := hzero (by rw [hformat]; decide)
    obtain ⟨p2, hbinary⟩ := processLoadBinary_spec hloaded.frame hnew.fresh hloaded.live filename _ _ hrest
    refine ⟨p2, hbinary.live, fun htype hptr => ?_⟩
    rw [hbinary.binary hptr] at htype
    exact absurd htype (by decide)
  rw [if_neg hformat] at hrest
  obtain ⟨rfl, rfl⟩ := pure_eq_some.mp hrest
  refine ⟨p, hloaded.live, fun _ hptr => ?_⟩
  have hpos : 0 ≤ res1 := by
    by_contra hneg
    rw [hzero (not_le.mp hneg)] at hptr
    exact hptr rfl
  obtain ⟨image, t, hread, helf', hheld⟩ := processLoadElf_image hnew.since.wf helf hpos hloaded.live hptr
  refine ⟨image, t, ?_, helf', hheld⟩
  unfold processReadImage
  rw [bind_of_some halloc, bind_of_some hstore, hread]

/-- **Which programs find their memory image.** After a load that succeeds, every segment of an ELF process
is there in full, its bytes behind those of the file zero, if each byte happens to be found where the pages of the
file, of the stack, or of the identity put it. Only bytes left to chance are there without. -/
theorem processLoad_segments_iff {s : Kernel} (hwf : s.WF) (garbage : UInt32) (filename : List UInt8) :
    Ensures (processLoad garbage filename) s fun r s' => 0 ≤ r.1 → ∃ process p m,
      r.2 = some process ∧ ProcessMaps s' process p m ∧
      (p.filetype = PROCESS_FILETYPE_ELF → ∀ f, s'.live p.ptr = some (elfFileK.inj f) → ∃ image s2,
        processReadImage filename s = some (image, s2) ∧ image.memory = f.elf_memory ∧
        (SegmentsBacked s' p f (imageByteAt s2.mem image) → ImageAvailable s' p f m) ∧
        (ImageAvailable s' p f m → ∀ i va, InSegment s'.mem f.elf_memory i va →
          ByteBacked s' p f (imageByteAt s2.mem image) i va ∨
          LeftToChance s' f (imageByteAt s2.mem image) (blocksFor image.size) i va)) := by
  intro r s' hrun hpos
  obtain ⟨process, res, sd, slot, p, t, rfl, hfile, -, hfinished⟩ :=
    processLoad_finished hwf garbage filename r s' hrun hpos
  have hmaps := hfinished.maps
  refine ⟨process, p, _, rfl, ⟨hfinished.started.live, t, hfinished.started.task, hmaps⟩, fun htype f hf => ?_⟩
  obtain ⟨p0, hp0, himage⟩ := processLoadFile_image hwf hfile
  obtain ⟨htype0, hptr0, -⟩ := hfinished.started.source p0 hp0
  obtain ⟨image, s2, hread, helf, hheld⟩ := himage (htype0 ▸ htype) (hptr0 ▸ hfinished.started.file)
  obtain ⟨f', hf', hmemory⟩ := hheld.elf_file
  have hkept := hfinished.started.image _ _ hf' rfl
  rw [hptr0, helf] at hf
  obtain rfl := elfFileK.inj_injective (Option.some.inj (hkept.symm.trans hf))
  have hn : Allocated s'.heap f'.elf_memory (blocksFor image.size) := by
    rw [hmemory]
    exact hfinished.started.sizes _ _ hheld.allocated
  refine ⟨image, s2, hread, hmemory.symm, hfinished.segments hmaps htype (by rw [hptr0, helf]; exact hkept) hn
    fun offset byte hbyte => ?_⟩
  unfold imageByteAt at hbyte
  split at hbyte
  · rename_i hlt
    have hin : offset.toNat < 4096 * blocksFor image.size := by
      unfold blocksFor
      omega
    have hsame := hfinished.image_mem hheld.memory (hmemory ▸ hn) hin
    rw [UInt32.ofNat_toNat, hheld.bytes] at hsame
    rw [hmemory, hsame]
    exact ⟨hin, Option.some.inj hbyte⟩
  · cases hbyte

/-! ## Two programs -/

/-- The field is read from the first page of the image. -/
theorem programMemsz_congr {sd s : Kernel}
    (hbyte : ∀ i < 4096, s.mem (blockAddress 15 + UInt32.ofNat i) = sd.mem (blockAddress 15 + UInt32.ofNat i))
    (hphoff : (headerAt sd.mem (blockAddress 15)).e_phoff = 52) :
    programMemsz s.mem (blockAddress 15) 0 = programMemsz sd.mem (blockAddress 15) 0 := by
  have hsame : headerAt s.mem (blockAddress 15) = headerAt sd.mem (blockAddress 15) :=
    headerAt_congr fun i hi => hbyte i (by omega)
  have haddress : elfProgramHeader (blockAddress 15) (headerAt sd.mem (blockAddress 15)) 0 + 20 =
      blockAddress 15 + UInt32.ofNat 72 := by
    rw [elfProgramHeader, hphoff]
    rfl
  have hnext : ∀ c : UInt32, c.toNat < 4 → s.mem (blockAddress 15 + UInt32.ofNat 72 + c) =
      sd.mem (blockAddress 15 + UInt32.ofNat 72 + c) := by
    intro c hc
    have hc' := hbyte (72 + c.toNat) (by omega)
    rwa [UInt32.ofNat_add, UInt32.ofNat_toNat, ← UInt32.add_assoc] at hc'
  rw [programMemsz, programMemsz, hsame, haddress]
  exact read32_congr (hbyte 72 (by decide)) (hnext 1 (by decide)) (hnext 2 (by decide)) (hnext 3 (by decide))

/-- `A` is loaded, its one segment is at `0x400000`, and has the size that its header asks for. -/
theorem plainHeader_loaded {p_memsz : UInt32} (h : ElfRun (elfKernel plainHeader p_memsz) plainHeader)
    (hmemsz : Total (processLoadFile pathA) (elfKernel plainHeader p_memsz) fun _ sd =>
      programMemsz sd.mem (blockAddress 15) 0 = p_memsz) (hsize : 84 ≤ p_memsz.toNat) :
    ∃ s' sd slot p t f, processLoad 0 pathA (elfKernel plainHeader p_memsz) = some ((OK, some (blockAddress 5)), s') ∧
      Finished sd (blockAddress 5) slot s' p t ∧ ElfProcess plainHeader s' p f ∧
      ∀ i va, InSegment s'.mem f.elf_memory i va ↔
        i = 0 ∧ 0x400000 ≤ va.toNat ∧ va.toNat < 0x400000 + p_memsz.toNat := by
  have hwf : (elfKernel plainHeader p_memsz).WF := oneFileKernel_wf (by decide)
  obtain ⟨s', sd0, slot0, p, t0, f, hrun, hfinished0, helf⟩ := h.load_elf
  obtain ⟨process, res, sd, slot, p', t, heq, hfile, -, hfinished⟩ :=
    processLoad_finished hwf 0 pathA _ s' hrun (Int.le_refl 0)
  obtain rfl := Option.some.inj (Prod.mk.inj heq).2
  obtain rfl : p' = p := processK.inj_injective
    (Option.some.inj (hfinished.started.live.symm.trans hfinished0.started.live))
  obtain ⟨-, -, -, himage, -, -, hphoff, -⟩ := (total_of_some hfile).mp h.2
  -- the field is still in memory
  have hraw := Kind.read_eq_some.mp himage
  obtain ⟨n, hn⟩ := hfinished.wf.allocated (hfinished.started.image _ _ hraw rfl)
  have hpos := (hn.range hfinished.wf).1
  have hkept : programMemsz s'.mem (blockAddress 15) 0 = p_memsz :=
    (programMemsz_congr (fun i hi => hfinished.image_mem hraw hn (by omega)) hphoff).trans
      ((total_of_some hfile).mp hmemsz)
  refine ⟨s', sd, slot, p', t, f, hrun, hfinished, helf, fun i va => ?_⟩
  rw [helf.memory]
  constructor
  · intro hin
    have hindex := hin.index
    rw [helf.count] at hindex
    obtain rfl : i = 0 := by omega
    have hlow := hin.low
    have hhigh := hin.high
    rw [helf.header] at hlow hhigh
    rw [hkept] at hhigh
    exact ⟨rfl, hlow, hhigh⟩
  · rintro ⟨rfl, hlow, hhigh⟩
    refine ⟨by rw [helf.count]; decide, by rw [helf.header]; rfl, ?_, by rw [helf.header]; exact hlow, ?_⟩
    · rw [helf.header, hkept]
      exact UInt32.le_iff_toNat_le.mpr hsize
    · rw [helf.header, hkept]
      exact hhigh

theorem plainHeader_memsz : Total (processLoadFile pathA) (elfKernel plainHeader 84) fun _ sd =>
    programMemsz sd.mem (blockAddress 15) 0 = 84 := by decide +kernel

theorem plainHeader_image : Total (processReadImage pathA) (elfKernel plainHeader 84) fun image _ =>
    image.size = 84 := by decide +kernel

/-- All 84 bytes of the segment are bytes of the file, where the header puts them. -/
theorem processLoad_segments_A : ∃ s' process p f m,
    processLoad 0 pathA (elfKernel plainHeader 84) = some ((OK, some process), s') ∧
      ProcessMaps s' process p m ∧ p.filetype = PROCESS_FILETYPE_ELF ∧ s'.live p.ptr = some (elfFileK.inj f) ∧
      InSegment s'.mem f.elf_memory 0 0x400000 ∧ ImageAvailable s' p f m := by
  obtain ⟨s', sd, slot, p0, t, f, hrun, hfinished, helf, hin⟩ :=
    plainHeader_loaded plainHeader_run plainHeader_memsz (by decide)
  obtain ⟨process, p, m, hout, hmaps, hrest⟩ := processLoad_segments_iff (oneFileKernel_wf (by decide)) 0 pathA _ s'
    hrun (Int.le_refl 0)
  obtain rfl := Option.some.inj hout
  obtain rfl := processK.inj_injective (Option.some.inj (hmaps.1.symm.trans hfinished.started.live))
  obtain ⟨image, s2, hread, -, hbacked, -⟩ := hrest helf.filetype f helf.file
  have hsize := (total_of_some hread).mp plainHeader_image
  refine ⟨s', _, p, f, m, hrun, hmaps, helf.filetype, helf.file, (hin 0 _).mpr ⟨rfl, by decide, by decide⟩,
    hbacked fun i va hva => ?_⟩
  obtain ⟨rfl, hlow, hhigh⟩ := (hin i va).mp hva
  have hheader : programHeader s'.mem f.elf_memory 0 = plainHeader := by
    rw [helf.memory]
    exact helf.header
  have hbase : (0x400000 : UInt32).toNat = 0x400000 := rfl
  have hsegment : (84 : UInt32).toNat = 84 := rfl
  have hle : (0x400000 : UInt32) ≤ va := by
    rw [UInt32.le_iff_toNat_le, hbase]
    exact hlow
  have hdelta : (va - 0x400000).toNat = va.toNat - 0x400000 := by
    rw [UInt32.toNat_sub_of_le _ _ hle, hbase]
  -- the header puts the byte where it is in the file
  have hlast : LastHeader s'.mem f.elf_memory (va.toNat / 4096) 0 0 := by
    refine (helf.lastHeader (by decide)).mpr ⟨rfl, rfl, ?_⟩
    have hpage : headerPage plainHeader 0 = 0x400 := by decide
    omega
  have hplaced : Placed s'.mem f.elf_memory va _ _ := .header 0 0 hlast
  have hoffset : pagingAlignToLowerPage plainHeader.p_offset + UInt32.ofNat (4096 * 0) + va % 4096 = va - 0x400000 := by
    have hzero : pagingAlignToLowerPage plainHeader.p_offset + UInt32.ofNat (4096 * 0) = 0 := by decide
    have hmod : (va % 4096).toNat = va.toNat % 4096 := UInt32.toNat_mod ..
    apply UInt32.toNat_inj.mp
    rw [hzero, UInt32.zero_add, hdelta, hmod]
    omega
  rw [hheader, hoffset] at hplaced
  have hbyte : imageByteAt s2.mem image (va - 0x400000) = some (s2.mem (image.memory + (va - 0x400000))) := by
    rw [imageByteAt, hsize, if_pos (by omega)]
  refine .image _ _ _ (by unfold StackPage; omega) hplaced (by rw [hheader]) ?_ (Or.inl hbyte)
  have hfile : (va - plainHeader.p_vaddr).toNat < plainHeader.p_filesz.toNat := by
    change (va - 0x400000).toNat < 84
    omega
  rw [hheader, prescribedByte, if_pos hfile]
  exact (congrArg (imageByteAt s2.mem image) (UInt32.zero_add _)).trans hbyte

theorem bssHeader_run : ElfRun (elfKernel plainHeader 8192) plainHeader := by decide +kernel

theorem bssHeader_memsz : Total (processLoadFile pathA) (elfKernel plainHeader 8192) fun _ sd =>
    programMemsz sd.mem (blockAddress 15) 0 = 8192 := by decide +kernel

/-- `A` is loaded with a segment of two pages, of which the file has 84 bytes: the second page is still the identity,
and the program cannot write there. -/
theorem processLoad_bss_missing : ∃ s' process p m f,
    processLoad 0 pathA (elfKernel plainHeader 8192) = some ((OK, some process), s') ∧
      ProcessMaps s' process p m ∧ p.filetype = PROCESS_FILETYPE_ELF ∧
      s'.live p.ptr = some (elfFileK.inj f) ∧ programHeader s'.mem f.elf_memory 0 = plainHeader ∧
      InSegment s'.mem f.elf_memory 0 0x401000 ∧ m 0x401 &&& PAGING_IS_WRITABLE = 0 ∧
      ¬ ImageAvailable s' p f m := by
  obtain ⟨s', sd, slot, p, t, f, hrun, hfinished, helf, hsegment⟩ :=
    plainHeader_loaded bssHeader_run bssHeader_memsz (by decide)
  have hmaps := hfinished.maps
  have hin : InSegment s'.mem f.elf_memory 0 0x401000 := (hsegment 0 _).mpr ⟨rfl, by decide, by decide⟩
  have hheader : programHeader s'.mem f.elf_memory 0 = plainHeader := by
    rw [helf.memory]
    exact helf.header
  -- no header maps its page, and the stack is elsewhere
  have himageWrites : lastWrite 0x401 (imageWrites s' p) = none := by
    have hwrites : imageWrites s' p = programWrites s'.mem (blockAddress 15) := by
      rw [imageWrites, if_pos helf.filetype, Kind.read_eq_some.mpr helf.file]
      exact congrArg (programWrites s'.mem) helf.memory
    rw [hwrites, programWrites, helf.count, List.range_one, List.flatMap_singleton, helf.header]
    decide
  have hstack : lastWrite 0x401 (stackWrites p) = none := by
    rw [stackWrites_eq hfinished.wf hfinished.started.stack_size]
    refine lastWrite_eq_none.mpr fun w hw heq => ?_
    obtain ⟨k, hk, rfl⟩ := List.mem_map.mp hw
    have hk' := List.mem_range.mp hk
    dsimp only at heq
    omega
  have hentry : overlay (overlay (identityEntry taskFlags) (imageWrites s' p)) (stackWrites p) 0x401 =
      identityEntry taskFlags 0x401 := by
    rw [overlay_apply, hstack, overlay_apply, himageWrites]
    rfl
  have hread : identityEntry taskFlags 0x401 &&& PAGING_IS_WRITABLE = 0 := by decide
  refine ⟨s', _, p, _, f, hrun, ⟨hfinished.started.live, t, hfinished.started.task, hmaps⟩, helf.filetype, helf.file,
    hheader, hin, by rw [hentry]; exact hread, fun havailable => ?_⟩
  have hprovides := havailable 0 0x401000 hin
  have hwritable := hprovides.writable.mpr (by rw [hheader]; decide)
  have hpage : (0x401000 : UInt32).toNat / 4096 = 0x401 := by decide
  rw [hpage, hentry] at hwritable
  exact hwritable hread

end RasOS
