import RasOS.Lib.Extremum
import RasOS.Loader.ElfLoad

set_option autoImplicit false

/-! # The bounds of a loaded file

`elf_process_pheaders` keeps the lowest start and the highest end of the loadable segments seen so far, each
with the address of that byte in the image. It takes a start or an end of 0 for one that has not been set. -/

namespace RasOS

open Machine

/-! ## The bounds -/

/-- The loadable segments of the image at `elf_memory`, in the order of the table. -/
def loadSegments (mem : UInt32 → UInt8) (elf_memory : UInt32) : List Elf32Phdr :=
  ((List.range (programCount mem elf_memory)).map (programHeader mem elf_memory)).filter
    fun phdr => phdr.p_type = PT_LOAD

/-- The end of a segment, which need not be an address. -/
def segmentEnd (phdr : Elf32Phdr) : Nat := phdr.p_vaddr.toNat + phdr.p_filesz.toNat

/-- The structure of a file whose image is at `elf_memory` holds the bounds of the segments. -/
structure ElfBounds (elf_memory : UInt32) (segments : List Elf32Phdr) (file : ElfFile) : Prop where
  base : ∃ phdr ∈ segments, elfVirtualBase file = phdr.p_vaddr ∧
    elfPhysBase file = elf_memory + phdr.p_offset ∧ ∀ phdr' ∈ segments, phdr.p_vaddr ≤ phdr'.p_vaddr
  last : ∃ phdr ∈ segments, (elfVirtualEnd file).toNat = segmentEnd phdr ∧
    elfPhysEnd file = elf_memory + phdr.p_offset + phdr.p_filesz ∧
    ∀ phdr' ∈ segments, segmentEnd phdr' ≤ segmentEnd phdr

/-- `elf_process_pheaders` finds the bounds of the segments of the image at `elf_memory`. -/
def BoundsFound (elf_file elf_memory : UInt32) (s : Kernel) : Prop :=
  Total (elfProcessPheaders elf_file) s fun res s' => res = OK ∧ ∃ file,
    s'.live elf_file = some (elfFileK.inj file) ∧ ElfBounds elf_memory (loadSegments s.mem elf_memory) file

/-- If a segment starts at address 0, the last one of the table does. -/
def ZeroLast (segments : List Elf32Phdr) : Prop :=
  (∃ phdr ∈ segments, phdr.p_vaddr = 0) → ∃ phdr, segments.getLast? = some phdr ∧ phdr.p_vaddr = 0

/-! ## The loop over the headers -/

/-- The loop is a fold over the headers. -/
theorem elfProcessPheadersLoop_eq_foldl (mem : UInt32 → UInt8) (elf_memory : UInt32) (remaining i : Nat)
    (file : ElfFile) (hfile : file.elf_memory = elf_memory) :
    elfProcessPheadersLoop mem (headerAt mem elf_memory) remaining i file =
      ((List.range' i remaining).map (programHeader mem elf_memory)).foldl elfProcessPheader file := by
  induction remaining generalizing i file with
  | zero => rfl
  | succ remaining ih =>
      have hnext : (elfProcessPheader file (programHeader mem elf_memory i)).elf_memory = elf_memory := by
        rw [elfProcessPheader_memory, hfile]
      rw [elfProcessPheadersLoop, List.range'_succ, List.map_cons, List.foldl_cons, ← ih _ _ hnext, hfile]
      rfl

/-- Only the loadable segments count. -/
theorem foldl_elfProcessPheader (phdrs : List Elf32Phdr) (file : ElfFile) :
    phdrs.foldl elfProcessPheader file =
      (phdrs.filter fun phdr => phdr.p_type = PT_LOAD).foldl elfProcessPhdrPtLoad file := by
  simp only [List.foldl_filter, decide_eq_true_eq]
  rfl

/-- What `elf_process_pheaders` does with the structure of a file. -/
theorem elfProcessPheaders_run {s : Kernel} {elf_file : UInt32} {file : ElfFile}
    (hfile : s.live elf_file = some (elfFileK.inj file)) (hmemory : file.elf_memory ≠ 0) :
    elfProcessPheaders elf_file s = some (OK, { s with
      live := elfFileK.write s.live elf_file
        ((loadSegments s.mem file.elf_memory).foldl elfProcessPhdrPtLoad file) }) := by
  rw [elfProcessPheaders_of_live hfile hmemory, elfProcessPheadersLoop_eq_foldl s.mem file.elf_memory _ 0 file rfl,
    foldl_elfProcessPheader, ← List.range_eq_range']
  rfl

/-! ## The lowest start and the highest end

A bound is an address and where its byte lies in memory. -/

def fileStart (file : ElfFile) : UInt32 × UInt32 := (elfVirtualBase file, elfPhysBase file)

def fileEnd (file : ElfFile) : UInt32 × UInt32 := (elfVirtualEnd file, elfPhysEnd file)

def phdrStart (elf_memory : UInt32) (phdr : Elf32Phdr) : UInt32 × UInt32 :=
  (phdr.p_vaddr, elf_memory + phdr.p_offset)

def phdrEnd (elf_memory : UInt32) (phdr : Elf32Phdr) : UInt32 × UInt32 :=
  (phdr.p_vaddr + phdr.p_filesz, elf_memory + phdr.p_offset + phdr.p_filesz)

/-- Bounds are compared by their addresses. -/
def boundKey (bound : UInt32 × UInt32) : Nat := bound.1.toNat

@[simp] theorem boundKey_eq_zero (bound : UInt32 × UInt32) : boundKey bound = 0 ↔ bound.1 = 0 := by
  rw [boundKey, ← UInt32.toNat_zero, UInt32.toNat_inj]

theorem fileStart_elfProcessPhdrPtLoad (file : ElfFile) (phdr : Elf32Phdr) :
    fileStart (elfProcessPhdrPtLoad file phdr) =
      keepLow boundKey (fileStart file) (phdrStart file.elf_memory phdr) := by
  have hkeep : keepLow boundKey (fileStart file) (phdrStart file.elf_memory phdr) =
      if file.virtual_base_address ≥ phdr.p_vaddr ∨ file.virtual_base_address = 0 then
        phdrStart file.elf_memory phdr
      else fileStart file :=
    if_congr (or_congr Iff.rfl (boundKey_eq_zero _)) rfl rfl
  rw [hkeep]
  unfold elfProcessPhdrPtLoad
  dsimp only
  split <;> split <;> rfl

theorem fileEnd_elfProcessPhdrPtLoad (file : ElfFile) (phdr : Elf32Phdr) :
    fileEnd (elfProcessPhdrPtLoad file phdr) =
      keepHigh boundKey (fileEnd file) (phdrEnd file.elf_memory phdr) := by
  have hkeep : keepHigh boundKey (fileEnd file) (phdrEnd file.elf_memory phdr) =
      if file.virtual_end_address ≤ phdr.p_vaddr + phdr.p_filesz ∨ file.virtual_end_address = 0 then
        phdrEnd file.elf_memory phdr
      else fileEnd file :=
    if_congr (or_congr Iff.rfl (boundKey_eq_zero _)) rfl rfl
  rw [hkeep]
  unfold elfProcessPhdrPtLoad
  dsimp only
  split <;> split <;> rfl

/-- The loop is the search for the lowest start, and the search for the highest end. -/
theorem foldl_elfProcessPhdrPtLoad (segments : List Elf32Phdr) (file : ElfFile) :
    fileStart (segments.foldl elfProcessPhdrPtLoad file) =
        (segments.map (phdrStart file.elf_memory)).foldl (keepLow boundKey) (fileStart file) ∧
      fileEnd (segments.foldl elfProcessPhdrPtLoad file) =
        (segments.map (phdrEnd file.elf_memory)).foldl (keepHigh boundKey) (fileEnd file) := by
  induction segments generalizing file with
  | nil => exact ⟨rfl, rfl⟩
  | cons phdr segments ih =>
      obtain ⟨hstart, hend⟩ := ih (elfProcessPhdrPtLoad file phdr)
      rw [elfProcessPhdrPtLoad_memory] at hstart hend
      simp only [List.foldl_cons, List.map_cons]
      constructor
      · rw [hstart, fileStart_elfProcessPhdrPtLoad]
      · rw [hend, fileEnd_elfProcessPhdrPtLoad]

/-! ## When they are found -/

section Bounds

variable {elf_memory : UInt32} {segments : List Elf32Phdr}

/-- An end that is an address. -/
theorem boundKey_phdrEnd {phdr : Elf32Phdr} (h : segmentEnd phdr < 2 ^ 32) :
    boundKey (phdrEnd elf_memory phdr) = segmentEnd phdr := by
  unfold segmentEnd at h ⊢
  rw [boundKey, phdrEnd, UInt32.toNat_add, Nat.mod_eq_of_lt h]

/-- The condition on the table, as one on the starts. -/
theorem zeroLast_iff : ZeroLast segments ↔
    ((∃ a ∈ segments.map (phdrStart elf_memory), boundKey a = ⊥) →
      ∃ a, (segments.map (phdrStart elf_memory)).getLast? = some a ∧ boundKey a = ⊥) := by
  simp [ZeroLast, phdrStart]

/-- The highest end is found. -/
theorem fileEnd_found (hload : segments ≠ []) (hwrap : ∀ phdr ∈ segments, segmentEnd phdr < 2 ^ 32) {file : ElfFile}
    (hfile : file = segments.foldl elfProcessPhdrPtLoad { elf_memory := elf_memory }) :
    ∃ phdr ∈ segments, (elfVirtualEnd file).toNat = segmentEnd phdr ∧
      elfPhysEnd file = elf_memory + phdr.p_offset + phdr.p_filesz ∧
      ∀ phdr' ∈ segments, segmentEnd phdr' ≤ segmentEnd phdr := by
  have hzero : boundKey (fileEnd { elf_memory := elf_memory }) = ⊥ := rfl
  obtain ⟨-, hend⟩ := foldl_elfProcessPhdrPtLoad segments { elf_memory := elf_memory }
  rw [← hfile] at hend
  have hne : segments.map (phdrEnd elf_memory) ≠ [] := by simpa using hload
  have hmem := foldl_keepHigh_mem boundKey hzero hne
  rw [← hend] at hmem
  obtain ⟨phdr, hphdr, hbound⟩ := List.mem_map.mp hmem
  refine ⟨phdr, hphdr, ?_, (congrArg Prod.snd hbound).symm, ?_⟩
  · calc (elfVirtualEnd file).toNat
        = boundKey (phdrEnd elf_memory phdr) := congrArg boundKey hbound.symm
      _ = segmentEnd phdr := boundKey_phdrEnd (hwrap phdr hphdr)
  · have hhigh : ∀ a ∈ segments.map (phdrEnd elf_memory), boundKey a ≤ boundKey (fileEnd file) := by
      rw [hend]
      exact le_key_foldl_keepHigh boundKey
    intro phdr' hphdr'
    have hle := hhigh _ (List.mem_map_of_mem hphdr')
    rw [← hbound, boundKey_phdrEnd (hwrap phdr' hphdr'), boundKey_phdrEnd (hwrap phdr hphdr)] at hle
    exact hle

/-- The lowest start is found unless a segment that starts at 0 is followed by one that does not. -/
theorem fileStart_found_iff (hload : segments ≠ []) {file : ElfFile}
    (hfile : file = segments.foldl elfProcessPhdrPtLoad { elf_memory := elf_memory }) :
    (∃ phdr ∈ segments, elfVirtualBase file = phdr.p_vaddr ∧ elfPhysBase file = elf_memory + phdr.p_offset ∧
      ∀ phdr' ∈ segments, phdr.p_vaddr ≤ phdr'.p_vaddr) ↔ ZeroLast segments := by
  have hzero : boundKey (fileStart { elf_memory := elf_memory }) = ⊥ := rfl
  obtain ⟨hstart, -⟩ := foldl_elfProcessPhdrPtLoad segments { elf_memory := elf_memory }
  rw [← hfile] at hstart
  have hne : segments.map (phdrStart elf_memory) ≠ [] := by simpa using hload
  have hmem := foldl_keepLow_mem boundKey hzero hne
  have hiff := key_foldl_keepLow_le_iff (l := segments.map (phdrStart elf_memory)) boundKey hzero
  rw [← hstart] at hmem hiff
  rw [zeroLast_iff, ← hiff, List.forall_mem_map]
  constructor
  · rintro ⟨phdr, -, hbase, -, hlow⟩ phdr' hphdr'
    have hle := hlow phdr' hphdr'
    rw [← hbase] at hle
    exact UInt32.le_iff_toNat_le.mp hle
  · intro hlow
    obtain ⟨phdr, hphdr, hbound⟩ := List.mem_map.mp hmem
    refine ⟨phdr, hphdr, (congrArg Prod.fst hbound).symm, (congrArg Prod.snd hbound).symm, ?_⟩
    intro phdr' hphdr'
    have hle := hlow phdr' hphdr'
    rw [← hbound] at hle
    exact UInt32.le_iff_toNat_le.mpr hle

/-- **When the bounds are found.** -/
theorem elfBounds_iff (hload : segments ≠ []) (hwrap : ∀ phdr ∈ segments, segmentEnd phdr < 2 ^ 32) :
    ElfBounds elf_memory segments (segments.foldl elfProcessPhdrPtLoad { elf_memory := elf_memory }) ↔
      ZeroLast segments := by
  rw [← fileStart_found_iff hload rfl]
  constructor
  · exact ElfBounds.base
  · exact fun hbase => ⟨hbase, fileEnd_found hload hwrap rfl⟩

end Bounds

/-- What is found in the structure of the file after the call. -/
theorem boundsFound_iff {s : Kernel} {elf_file elf_memory : UInt32}
    (hfile : s.live elf_file = some (elfFileK.inj { elf_memory := elf_memory })) (hmemory : elf_memory ≠ 0) :
    BoundsFound elf_file elf_memory s ↔ ElfBounds elf_memory (loadSegments s.mem elf_memory)
      ((loadSegments s.mem elf_memory).foldl elfProcessPhdrPtLoad { elf_memory := elf_memory }) := by
  unfold BoundsFound
  rw [total_of_some (elfProcessPheaders_run hfile hmemory)]
  constructor
  · rintro ⟨-, file, hlive, hbounds⟩
    have hwritten := (Kind.write_self ..).symm.trans hlive
    obtain rfl := elfFileK.inj_injective (Option.some.inj hwritten)
    exact hbounds
  · exact fun hbounds => ⟨rfl, _, Kind.write_self .., hbounds⟩

/-- **The tables whose bounds are found**: those whose last loadable segment starts at address 0 if any does. -/
theorem elfProcessPheaders_bounds_iff {s : Kernel} {elf_file elf_memory : UInt32}
    (hfile : s.live elf_file = some (elfFileK.inj { elf_memory := elf_memory })) (hmemory : elf_memory ≠ 0)
    (hload : loadSegments s.mem elf_memory ≠ [])
    (hwrap : ∀ phdr ∈ loadSegments s.mem elf_memory, segmentEnd phdr < 2 ^ 32) :
    BoundsFound elf_file elf_memory s ↔ ZeroLast (loadSegments s.mem elf_memory) := by
  rw [boundsFound_iff hfile hmemory, elfBounds_iff hload hwrap]

/-- The same of a file that `elf_load` has just read. -/
theorem ImageRead.boundsFound_iff {s s1 : Kernel} {image : FileImage} (h : ImageRead s image s1)
    (hload : loadSegments s1.mem image.memory ≠ [])
    (hwrap : ∀ phdr ∈ loadSegments s1.mem image.memory, segmentEnd phdr < 2 ^ 32) :
    BoundsFound image.elf_file image.memory s1 ↔ ZeroLast (loadSegments s1.mem image.memory) := by
  rw [RasOS.boundsFound_iff h.elf_file (h.wf.ne_zero h.memory), elfBounds_iff hload hwrap]

/-! ## Two segments -/

/-- An executable with the program headers `phdrs`. -/
def elfImage (phdrs : List Elf32Phdr) : List UInt8 :=
  [0x7f, 0x45, 0x4c, 0x46, 1, 1] ++ List.replicate 10 0 ++ [2, 0, 3, 0, 1, 0, 0, 0] ++
    bytes32 RASOS_PROGRAM_VIRTUAL_ADDRESS ++ bytes32 52 ++ List.replicate 12 0 ++
    [UInt8.ofNat phdrs.length, 0] ++ List.replicate 6 0 ++
    phdrs.flatMap fun phdr => bytes32 phdr.p_type ++ bytes32 phdr.p_offset ++ bytes32 phdr.p_vaddr ++
      bytes32 0 ++ bytes32 phdr.p_filesz ++ bytes32 phdr.p_filesz ++ bytes32 phdr.p_flags ++ bytes32 4096

/-- The executable has been read to block 6, and the structure of the file is in block 5. -/
def imageKernel (phdrs : List Elf32Phdr) : Kernel :=
  let s := oneFileKernel 84 (fun _ => 0xff) (fun _ _ => 0) 0
  { s with
    mem := fun a => (elfImage phdrs).getD (a - blockAddress 6).toNat 0
    live := Function.update s.live (blockAddress 5) (some (elfFileK.inj { elf_memory := blockAddress 6 })) }

theorem imageKernel_file (phdrs : List Elf32Phdr) : (imageKernel phdrs).live (blockAddress 5) =
    some (elfFileK.inj { elf_memory := blockAddress 6 }) := by
  simp [imageKernel]

/-- A segment at address 0. -/
def zeroSegment : Elf32Phdr := ⟨PT_LOAD, 116, 0, 16, 0⟩

/-- A segment where programs start. -/
def programSegment : Elf32Phdr := ⟨PT_LOAD, 132, RASOS_PROGRAM_VIRTUAL_ADDRESS, 16, 0⟩

/-- With the segment at address 0 behind the other one the bounds are found. -/
theorem elfProcessPheaders_zero_last :
    BoundsFound (blockAddress 5) (blockAddress 6) (imageKernel [programSegment, zeroSegment]) := by
  have hload : loadSegments (imageKernel [programSegment, zeroSegment]).mem (blockAddress 6) =
      [programSegment, zeroSegment] := by decide +kernel
  refine (elfProcessPheaders_bounds_iff (imageKernel_file _) (by decide) ?_ ?_).mpr ?_
  · simp [hload]
  · rw [hload]
    decide
  · rw [hload]
    exact fun _ => ⟨zeroSegment, rfl, rfl⟩

/-- With the segment at address 0 first its address is taken for none at all, and the other one for the lowest. -/
theorem elfProcessPheaders_zero_first :
    Total (elfProcessPheaders (blockAddress 5)) (imageKernel [zeroSegment, programSegment])
      (fun _ s' => (elfFileK.read s'.live (blockAddress 5)).map elfVirtualBase =
        some RASOS_PROGRAM_VIRTUAL_ADDRESS) ∧
    loadSegments (imageKernel [zeroSegment, programSegment]).mem (blockAddress 6) =
      [zeroSegment, programSegment] ∧
    ¬ BoundsFound (blockAddress 5) (blockAddress 6) (imageKernel [zeroSegment, programSegment]) := by
  have hload : loadSegments (imageKernel [zeroSegment, programSegment]).mem (blockAddress 6) =
      [zeroSegment, programSegment] := by decide +kernel
  have hrun : Total (elfProcessPheaders (blockAddress 5)) (imageKernel [zeroSegment, programSegment])
      (fun _ s' => (elfFileK.read s'.live (blockAddress 5)).map elfVirtualBase =
        some RASOS_PROGRAM_VIRTUAL_ADDRESS) := by decide +kernel
  refine ⟨hrun, hload, ?_⟩
  rw [boundsFound_iff (imageKernel_file _) (by decide), hload, elfBounds_iff (by simp) (by decide)]
  intro hlast
  obtain ⟨phdr, hphdr, hzero⟩ := hlast ⟨zeroSegment, by simp, rfl⟩
  obtain rfl : programSegment = phdr := Option.some.inj hphdr
  exact absurd hzero (by decide)

end RasOS
