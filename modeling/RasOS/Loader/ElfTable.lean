import RasOS.Loader.ElfLoad

set_option autoImplicit false

/-! # Where the headers of a file lie

`e_phoff` and `e_phnum` come from the file, and nothing compares them with its size. Neither is the size
compared with the 52 bytes of a header: what a file lacks is read from the memory behind it. -/

namespace RasOS

open Machine

/-! ## Headers inside the file -/

/-- The header and the program headers of an image of `size` bytes lie inside it, and no offset wraps. -/
structure TableInside (mem : UInt32 → UInt8) (memory : UInt32) (size : Nat) : Prop where
  header : 52 ≤ size
  table : (headerAt mem memory).e_phoff.toNat + 32 * (headerAt mem memory).e_phnum.toNat ≤ size

instance (mem : UInt32 → UInt8) (memory : UInt32) (size : Nat) : Decidable (TableInside mem memory size) :=
  decidable_of_iff (52 ≤ size ∧
    (headerAt mem memory).e_phoff.toNat + 32 * (headerAt mem memory).e_phnum.toNat ≤ size)
    ⟨fun h => ⟨h.1, h.2⟩, fun h => ⟨h.header, h.table⟩⟩

/-- The header and the program headers depend on the `size` bytes of the image alone. -/
def SeenInside (mem : UInt32 → UInt8) (memory : UInt32) (size : Nat) : Prop :=
  ∀ mem' : UInt32 → UInt8, (∀ i < size, mem' (memory + UInt32.ofNat i) = mem (memory + UInt32.ofNat i)) →
    headerAt mem' memory = headerAt mem memory ∧
    ∀ i < programCount mem memory, programHeader mem' memory i = programHeader mem memory i

theorem elfValidateLoaded_phoff {header : ElfHeader} (h : elfValidateLoaded header = OK) :
    header.e_phoff ≠ 0 := by
  intro hzero
  unfold elfValidateLoaded elfHasProgramHeader at h
  simp [hzero] at h

/-- A table inside the file is read from the file. -/
theorem TableInside.seen {mem : UInt32 → UInt8} {memory : UInt32} {size : Nat}
    (h : TableInside mem memory size) (hphoff : (headerAt mem memory).e_phoff ≠ 0) :
    SeenInside mem memory size := by
  have hheader := h.header
  have htable := h.table
  intro mem' hsame
  have hhead : headerAt mem' memory = headerAt mem memory := headerAt_congr fun i hi => hsame i (by omega)
  refine ⟨hhead, fun i hi => ?_⟩
  have hi' : i < (headerAt mem memory).e_phnum.toNat := hi
  rw [programHeader, programHeader, hhead, elfProgramHeader, if_neg hphoff]
  refine phdrAt_congr fun b hb => ?_
  have haddress : memory + (headerAt mem memory).e_phoff + UInt32.ofNat (32 * i) + UInt32.ofNat b =
      memory + UInt32.ofNat ((headerAt mem memory).e_phoff.toNat + 32 * i + b) := by
    rw [UInt32.ofNat_add, UInt32.ofNat_add, UInt32.ofNat_toNat, UInt32.add_assoc, UInt32.add_assoc,
      UInt32.add_assoc]
  rw [haddress]
  exact hsame _ (by omega)

/-! ## What `elf_load` accepts -/

/-- Whenever `elf_load` accepts a file, its headers are inside the file, and are read from there. -/
def LoadsInside (filename : List UInt8) (s : Kernel) : Prop :=
  Ensures (elfLoad filename) s fun r s' => ∀ elf, r.2 = some elf → ∃ image s1,
    readImage filename s = some (image, s1) ∧ elf = image.elf_file ∧ ImageHeld s' image s1.mem ∧
    TableInside s'.mem image.memory image.size.toNat ∧ SeenInside s'.mem image.memory image.size.toNat

/-- The file cannot be read, or one of the four rules that `elf_load` checks refuses its header, or it is long
enough for its header and for the table. -/
def TableFits (filename : List UInt8) (s : Kernel) : Prop :=
  ∀ image s1, readImage filename s = some (image, s1) →
    elfValidateLoaded (headerAt s1.mem image.memory) = OK → 52 ≤ image.size.toNat ∧
      (headerAt s1.mem image.memory).e_phoff.toNat + 32 * (headerAt s1.mem image.memory).e_phnum.toNat
        ≤ image.size.toNat

/-- What is accepted has been read, and found valid. -/
theorem elfLoad_accepted {s : Kernel} (hwf : s.WF) (filename : List UInt8) :
    Ensures (elfLoad filename) s fun r s' => ∀ elf, r.2 = some elf → ∃ image s1,
      readImage filename s = some (image, s1) ∧ elf = image.elf_file ∧
      elfValidateLoaded (headerAt s1.mem image.memory) = OK ∧ ImageHeld s' image s1.mem := by
  intro r s' hrun elf hout
  have hread : ∃ image s1, readImage filename s = some (image, s1) := by
    obtain ⟨elf_file, s1, halloc, h1⟩ := bind_eq_some.mp hrun
    obtain ⟨fd, s2, hopen, h2⟩ := bind_eq_some.mp h1
    by_cases hfd : fd ≤ 0
    · rw [if_pos hfd] at h2
      obtain ⟨_, s3, -, h3⟩ := bind_eq_some.mp h2
      obtain ⟨rfl, -⟩ := pure_eq_some.mp h3
      cases hout
    rw [if_neg hfd] at h2
    obtain ⟨res, s3, hopened, h3⟩ := bind_eq_some.mp h2
    obtain ⟨_, s4, -, h4⟩ := bind_eq_some.mp h3
    have hpos : ¬ res < 0 := by
      intro hneg
      rw [if_pos hneg] at h4
      obtain ⟨rfl, -⟩ := pure_eq_some.mp h4
      cases hout
    -- each step of `elf_load` on the open file is one of `readImage`
    obtain ⟨⟨res1, stat⟩, t1, hstat, h5⟩ := bind_eq_some.mp hopened
    change (if res1 < 0 then pure res1 else _ : KernelM Int) t1 = _ at h5
    by_cases hres1 : res1 < 0
    · rw [if_pos hres1] at h5
      obtain ⟨rfl, -⟩ := pure_eq_some.mp h5
      exact absurd hres1 hpos
    rw [if_neg hres1] at h5
    obtain ⟨memory, t2, hbytes, h6⟩ := bind_eq_some.mp h5
    obtain ⟨file, t3, hload, h7⟩ := bind_eq_some.mp h6
    obtain ⟨_, t4, hstore, h8⟩ := bind_eq_some.mp h7
    obtain ⟨res2, t5, hfread, h9⟩ := bind_eq_some.mp h8
    by_cases hres2 : res2 < 0
    · rw [if_pos hres2] at h9
      obtain ⟨rfl, -⟩ := pure_eq_some.mp h9
      exact absurd hres2 hpos
    rw [if_neg hres2] at h9
    -- the header is read through the pointer that `elf_load` does not check
    have hmemory : memory ≠ 0 := by
      obtain ⟨header, t6, hheader, -⟩ := bind_eq_some.mp h9
      obtain ⟨e, he, hne, -, -⟩ := elfHeader_eq_some hheader
      obtain ⟨-, rfl⟩ := store_eq_some.mp hstore
      have hmoved := moved_rules.fread moved_memWrite memory stat.filesize 1 fd _ _ _ hfread
      have hkept := (hmoved.object _ _ fun _ heq => Obj.noConfusion heq).mp he
      have hself := Kind.write_self elfFileK t3.live elf_file { file with elf_memory := memory }
      obtain rfl := elfFileK.inj_injective (Option.some.inj (hkept.symm.trans hself))
      exact hne
    refine ⟨⟨elf_file, fd, memory, stat.filesize⟩, t5, ?_⟩
    unfold readImage
    rw [bind_of_some halloc, bind_of_some hopen, if_neg hfd, bind_of_some hstat]
    change (if res1 < 0 then stop else _ : KernelM FileImage) t1 = _
    rw [if_neg hres1, bind_of_some hbytes, bind_of_some hload, bind_of_some hstore, bind_of_some hfread,
      if_neg (not_or.mpr ⟨hres2, hmemory⟩)]
    rfl
  obtain ⟨image, s1, himage⟩ := hread
  obtain ⟨hspec, hload⟩ := readImage_spec hwf himage
  obtain ⟨hvalid, hinvalid⟩ := (elfLoadRead_spec hspec).ensures r s' (hload.symm.trans hrun)
  by_cases hok : elfValidateLoaded (headerAt s1.mem image.memory) = OK
  · obtain ⟨rfl, hheld⟩ := hvalid hok
    exact ⟨image, s1, himage, (Option.some.inj hout).symm, hok, hheld⟩
  · obtain rfl := hinvalid hok
    cases hout

/-- **Which files are read inside their bounds**: those with room for the table that their header names. -/
theorem elfLoad_inside_iff {s : Kernel} (hwf : s.WF) (filename : List UInt8) :
    LoadsInside filename s ↔ TableFits filename s := by
  constructor
  · intro hinside image s1 himage hvalid
    obtain ⟨hspec, hload⟩ := readImage_spec hwf himage
    obtain ⟨r, s', hrun, hout, -⟩ := elfLoadRead_spec hspec
    obtain ⟨rfl, hheld⟩ := hout hvalid
    obtain ⟨image', s1', himage', -, hheld', htable, -⟩ := hinside _ s' (hload.trans hrun) image.elf_file rfl
    -- the file is read once
    rw [himage] at himage'
    obtain ⟨rfl, rfl⟩ := Prod.mk.inj (Option.some.inj himage')
    rw [hheld.bytes] at htable
    exact ⟨htable.header, htable.table⟩
  · intro hfits r s' hrun elf hout
    obtain ⟨image, s1, himage, helf, hvalid, hheld⟩ := elfLoad_accepted hwf filename r s' hrun elf hout
    obtain ⟨hheader, htable⟩ := hfits image s1 himage hvalid
    have hinside : TableInside s'.mem image.memory image.size.toNat := by
      rw [hheld.bytes]
      exact ⟨hheader, htable⟩
    refine ⟨image, s1, himage, helf, hheld, hinside, hinside.seen ?_⟩
    rw [hheld.bytes]
    exact elfValidateLoaded_phoff hvalid

/-- The program of 84 bytes has room for its table. -/
theorem elfLoad_inside_A : LoadsInside pathA (elfKernel ⟨PT_LOAD, 0, 0x400000, 84, 0⟩ 84) := by
  refine (elfLoad_inside_iff (oneFileKernel_wf (by decide)) pathA).mpr ?_
  have hfits : Total (readImage pathA) (elfKernel ⟨PT_LOAD, 0, 0x400000, 84, 0⟩ 84) fun image s1 =>
      TableInside s1.mem image.memory image.size.toNat := by decide +kernel
  intro image s1 himage _
  have hinside := (total_of_some himage).mp hfits
  exact ⟨hinside.header, hinside.table⟩

/-- The same program, cut off after 48 bytes. -/
def truncatedElf : Kernel :=
  oneFileKernel 48 (fun _ => 0xff) (fun _ i => (elfBytes ⟨PT_LOAD, 0, 0x400000, 84, 0⟩ 84).getD i 0) 0

/-- It is accepted, with a program header that lies behind its end. -/
theorem elfLoad_truncated : Total (elfLoad pathA) truncatedElf (fun r _ => r.1 = OK ∧ r.2.isSome = true) ∧
    ¬ LoadsInside pathA truncatedElf := by
  have hrun : Total (elfLoad pathA) truncatedElf (fun r _ => r.1 = OK ∧ r.2.isSome = true) := by
    decide +kernel
  have hsize : Total (readImage pathA) truncatedElf fun image _ => image.size = 48 := by decide +kernel
  refine ⟨hrun, fun hinside => ?_⟩
  obtain ⟨r, s', hload, -, hsome⟩ := hrun
  obtain ⟨elf, helf⟩ := Option.isSome_iff_exists.mp hsome
  obtain ⟨image, s1, himage, -, -, htable, -⟩ := hinside r s' hload elf helf
  have hheader := htable.header
  rw [(total_of_some himage).mp hsize] at hheader
  exact absurd hheader (by decide)

end RasOS
