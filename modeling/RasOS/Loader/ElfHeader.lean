import RasOS.Loader.Elf
import RasOS.Kernel.StateLemmas

set_option autoImplicit false

/-! # Headers in memory

`elf_header` is the first address of the image, whatever is there, and a header is read from the bytes that
follow it. -/

namespace RasOS

open Machine

/-! ## Reading a header -/

theorem elfHeader_of_live {s : Kernel} {elf_file : UInt32} {f : ElfFile}
    (h : s.live elf_file = some (elfFileK.inj f)) (hmem : f.elf_memory ≠ 0) :
    elfHeader elf_file s = some (headerAt s.mem f.elf_memory, s) := by
  rw [elfHeader, bind_of_some (load_of_live h), if_neg hmem]
  rfl

theorem elfHeader_eq_some {s s' : Kernel} {elf_file : UInt32} {header : ElfHeader}
    (h : elfHeader elf_file s = some (header, s')) :
    ∃ f, s.live elf_file = some (elfFileK.inj f) ∧ f.elf_memory ≠ 0 ∧
      header = headerAt s.mem f.elf_memory ∧ s' = s := by
  unfold elfHeader at h
  obtain ⟨f, s1, hload, hrest⟩ := bind_eq_some.mp h
  obtain ⟨hf, rfl⟩ := load_eq_some.mp hload
  split at hrest
  · cases hrest
  · rename_i hmem
    obtain ⟨rfl, rfl⟩ := Prod.mk.inj (Option.some.inj hrest)
    exact ⟨f, hf, hmem, rfl, rfl⟩

theorem ensures_elfHeader {α : Type} {elf_file : UInt32} {s : Kernel} {f : ElfHeader → KernelM α}
    {Q : α → Kernel → Prop}
    (hf : ∀ e, s.live elf_file = some (elfFileK.inj e) → e.elf_memory ≠ 0 →
      Ensures (f (headerAt s.mem e.elf_memory)) s Q) : Ensures (elfHeader elf_file >>= f) s Q := by
  intro a s' h
  obtain ⟨header, s1, hheader, hrest⟩ := bind_eq_some.mp h
  obtain ⟨e, he, hmem, rfl, rfl⟩ := elfHeader_eq_some hheader
  exact hf e he hmem a s' hrest

/-! ## The bytes of a header -/

theorem read16_congr {mem mem' : UInt32 → UInt8} {a : UInt32} (h0 : mem' a = mem a)
    (h1 : mem' (a + 1) = mem (a + 1)) : read16 mem' a = read16 mem a := by
  rw [read16, read16, h0, h1]

theorem read32_congr {mem mem' : UInt32 → UInt8} {a : UInt32} (h0 : mem' a = mem a)
    (h1 : mem' (a + 1) = mem (a + 1)) (h2 : mem' (a + 2) = mem (a + 2))
    (h3 : mem' (a + 3) = mem (a + 3)) : read32 mem' a = read32 mem a := by
  rw [read32, read32, h0, h1, h2, h3]

/-- A header is read from its first 46 bytes. -/
theorem headerAt_congr {mem mem' : UInt32 → UInt8} {a : UInt32}
    (h : ∀ i < 46, mem' (a + UInt32.ofNat i) = mem (a + UInt32.ofNat i)) :
    headerAt mem' a = headerAt mem a := by
  have hbyte : ∀ b : UInt32, b.toNat < 46 → mem' (a + b) = mem (a + b) := by
    intro b hb
    have := h b.toNat hb
    rwa [UInt32.ofNat_toNat] at this
  have hadd : ∀ b c : UInt32, (b + c).toNat < 46 → mem' (a + b + c) = mem (a + b + c) := by
    intro b c hbc
    rw [UInt32.add_assoc]
    exact hbyte _ hbc
  have hident : (List.range 16).map (fun i => mem' (a + UInt32.ofNat i)) =
      (List.range 16).map fun i => mem (a + UInt32.ofNat i) := by
    refine List.map_congr_left fun i hi => h i ?_
    have := List.mem_range.mp hi
    omega
  unfold headerAt
  rw [hident, read16_congr (hbyte 16 (by decide)) (hadd _ _ (by decide)),
    read32_congr (hbyte 24 (by decide)) (hadd _ _ (by decide)) (hadd _ _ (by decide)) (hadd _ _ (by decide)),
    read32_congr (hbyte 28 (by decide)) (hadd _ _ (by decide)) (hadd _ _ (by decide)) (hadd _ _ (by decide)),
    read16_congr (hbyte 44 (by decide)) (hadd _ _ (by decide))]

/-- A program header is read from 28 of its 32 bytes. -/
theorem phdrAt_congr {mem mem' : UInt32 → UInt8} {a : UInt32}
    (h : ∀ i < 32, mem' (a + UInt32.ofNat i) = mem (a + UInt32.ofNat i)) : phdrAt mem' a = phdrAt mem a := by
  have hbyte : ∀ b : UInt32, b.toNat < 32 → mem' (a + b) = mem (a + b) := by
    intro b hb
    have hb' := h b.toNat hb
    rwa [UInt32.ofNat_toNat] at hb'
  have hfirst : mem' a = mem a := by
    have h0 := hbyte 0 (by decide)
    rwa [UInt32.add_zero] at h0
  have hadd : ∀ b c : UInt32, (b + c).toNat < 32 → mem' (a + b + c) = mem (a + b + c) := by
    intro b c hbc
    rw [UInt32.add_assoc]
    exact hbyte _ hbc
  unfold phdrAt
  rw [read32_congr hfirst (hbyte 1 (by decide)) (hbyte 2 (by decide)) (hbyte 3 (by decide)),
    read32_congr (hbyte 4 (by decide)) (hadd _ _ (by decide)) (hadd _ _ (by decide)) (hadd _ _ (by decide)),
    read32_congr (hbyte 8 (by decide)) (hadd _ _ (by decide)) (hadd _ _ (by decide)) (hadd _ _ (by decide)),
    read32_congr (hbyte 16 (by decide)) (hadd _ _ (by decide)) (hadd _ _ (by decide)) (hadd _ _ (by decide)),
    read32_congr (hbyte 24 (by decide)) (hadd _ _ (by decide)) (hadd _ _ (by decide)) (hadd _ _ (by decide))]

/-! ## Program headers -/

/-- Program header `index` of the image at `elf_memory`. -/
def programHeader (mem : UInt32 → UInt8) (elf_memory : UInt32) (index : Nat) : Elf32Phdr :=
  phdrAt mem (elfProgramHeader elf_memory (headerAt mem elf_memory) index)

/-- The number of program headers. -/
def programCount (mem : UInt32 → UInt8) (elf_memory : UInt32) : Nat :=
  (headerAt mem elf_memory).e_phnum.toNat

theorem elfProcessPhdrPtLoad_memory (file : ElfFile) (phdr : Elf32Phdr) :
    (elfProcessPhdrPtLoad file phdr).elf_memory = file.elf_memory := by
  unfold elfProcessPhdrPtLoad
  dsimp only
  split <;> split <;> rfl

theorem elfProcessPheader_memory (file : ElfFile) (phdr : Elf32Phdr) :
    (elfProcessPheader file phdr).elf_memory = file.elf_memory := by
  unfold elfProcessPheader
  split
  · exact elfProcessPhdrPtLoad_memory file phdr
  · rfl

theorem elfProcessPheadersLoop_memory (mem : UInt32 → UInt8) (header : ElfHeader) :
    ∀ (remaining i : Nat) (f : ElfFile),
      (elfProcessPheadersLoop mem header remaining i f).elf_memory = f.elf_memory := by
  intro remaining
  induction remaining with
  | zero => exact fun _ _ => rfl
  | succ remaining ih =>
      intro i f
      rw [elfProcessPheadersLoop, ih, elfProcessPheader_memory]

/-- `elf_process_pheaders` changes the structure of the file alone. -/
theorem elfProcessPheaders_of_live {s : Kernel} {elf_file : UInt32} {f : ElfFile}
    (h : s.live elf_file = some (elfFileK.inj f)) (hmem : f.elf_memory ≠ 0) :
    elfProcessPheaders elf_file s = some (OK, { s with
      live := elfFileK.write s.live elf_file (elfProcessPheadersLoop s.mem (headerAt s.mem f.elf_memory)
        (programCount s.mem f.elf_memory) 0 f) }) := by
  unfold elfProcessPheaders
  rw [bind_of_some (elfHeader_of_live h hmem), bind_of_some (load_of_live h), bind_of_some (fetch_apply _ _),
    bind_of_some (store_of_live h _)]
  rfl

end RasOS
