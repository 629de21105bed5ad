import RasOS.Loader.ElfHeader
import RasOS.Task.Process
import RasOS.Memory.PagingSpec

set_option autoImplicit false

/-! # The mappings of a process

`process_map_elf` is a sequence of `paging_map_to`, one for each program header, so the directory it
leaves is the old one after the writes of the headers (`programWrites`), the first header first. -/

namespace RasOS

open Machine

/-! ## Rounding -/

theorem pagingAlignToLowerPage_toNat (a : UInt32) :
    (pagingAlignToLowerPage a).toNat = a.toNat / 4096 * 4096 := by
  have hmod : (a % 4096).toNat = a.toNat % 4096 := UInt32.toNat_mod ..
  rw [pagingAlignToLowerPage, UInt32.toNat_sub_of_le _ _ (by
    rw [UInt32.le_iff_toNat_le, hmod]
    exact Nat.mod_le _ _), hmod]
  omega

theorem pagingAlignAddress_toNat (a : UInt32) :
    (pagingAlignAddress a).toNat = (a.toNat + 4095) / 4096 * 4096 % 2 ^ 32 := by
  have hmod : (a % 4096).toNat = a.toNat % 4096 := UInt32.toNat_mod ..
  have hlt := a.toNat_lt
  rw [pagingAlignAddress]
  split
  · rename_i h0
    have hzero : a.toNat % 4096 = 0 := by
      rw [← hmod, h0]
      rfl
    omega
  · rename_i h0
    have hpos : a.toNat % 4096 ≠ 0 := by
      intro hz
      exact h0 (UInt32.toNat_inj.mp (by rw [hmod, hz]; rfl))
    rw [UInt32.toNat_sub, UInt32.toNat_add, hmod, show (4096 : UInt32).toNat = 4096 from rfl]
    omega

theorem pagingAlignToLowerPage_aligned (a : UInt32) :
    (pagingAlignToLowerPage a).toNat % 4096 = 0 := by
  rw [pagingAlignToLowerPage_toNat]
  omega

theorem pagingAlignAddress_aligned (a : UInt32) : (pagingAlignAddress a).toNat % 4096 = 0 := by
  rw [pagingAlignAddress_toNat]
  omega

/-! ## Program headers -/

/-- The physical range of a program header does not end before it begins. -/
def PhdrOk (elf_memory : UInt32) (phdr : Elf32Phdr) : Prop :=
  pagingAlignToLowerPage (elfPhdrPhysAddress elf_memory phdr) ≤
    pagingAlignAddress (elfPhdrPhysAddress elf_memory phdr + phdr.p_filesz)

/-- The writes of a program header. -/
def phdrWrites (elf_memory : UInt32) (phdr : Elf32Phdr) : List (Nat × UInt32) :=
  mapToWrites (pagingAlignToLowerPage phdr.p_vaddr)
    (pagingAlignToLowerPage (elfPhdrPhysAddress elf_memory phdr))
    (pagingAlignAddress (elfPhdrPhysAddress elf_memory phdr + phdr.p_filesz)) (phdrFlags phdr)

/-- The writes of all program headers. -/
def programWrites (mem : UInt32 → UInt8) (elf_memory : UInt32) : List (Nat × UInt32) :=
  (List.range (programCount mem elf_memory)).flatMap fun i =>
    phdrWrites elf_memory (programHeader mem elf_memory i)

/-- The loop has mapped the headers before `i`. It maps the rest, or stops at the first one that
cannot be mapped. -/
theorem processMapElfLoop_spec {chunk elf_memory : UInt32} :
    ∀ (remaining i : Nat) (s : Kernel) (m : Nat → UInt32) (res : Int), Maps s chunk m →
      ∃ res' s' m', processMapElfLoop chunk elf_memory (headerAt s.mem elf_memory) remaining i res s
          = some (res', s') ∧ TablesOnly s s' ∧ Maps s' chunk m' ∧
        (res' < 0 ∧ (∃ j, i ≤ j ∧ j < i + remaining ∧
            ¬ PhdrOk elf_memory (programHeader s.mem elf_memory j)) ∨
          res' = (if remaining = 0 then res else OK) ∧
          (∀ j, i ≤ j → j < i + remaining → PhdrOk elf_memory (programHeader s.mem elf_memory j)) ∧
          m' = overlay m ((List.range' i remaining).flatMap fun j =>
            phdrWrites elf_memory (programHeader s.mem elf_memory j))) := by
  intro remaining
  induction remaining with
  | zero =>
      intro i s m res h
      refine ⟨res, s, m, rfl, TablesOnly.refl s, h, Or.inr ⟨rfl, fun j h1 h2 => ?_, rfl⟩⟩
      omega
  | succ remaining ih =>
      intro i s m res h
      rw [processMapElfLoop, bind_of_some (fetch_apply _ _)]
      obtain ⟨res1, s1, hmap, honly, hcases⟩ := pagingMapTo_spec h
        (pagingAlignToLowerPage (programHeader s.mem elf_memory i).p_vaddr)
        (pagingAlignToLowerPage (elfPhdrPhysAddress elf_memory (programHeader s.mem elf_memory i)))
        (pagingAlignAddress (elfPhdrPhysAddress elf_memory (programHeader s.mem elf_memory i) +
          (programHeader s.mem elf_memory i).p_filesz))
        (phdrFlags (programHeader s.mem elf_memory i))
      have hmap' := bind_of_some (f := fun res => if res < 0 then (return res : KernelM Int) else
        processMapElfLoop chunk elf_memory (headerAt s.mem elf_memory) remaining (i + 1) res) hmap
      rcases hcases with ⟨hneg, rfl, hno⟩ | ⟨rfl, hok, hmaps⟩
      · refine ⟨res1, s1, m, ?_, honly, h, Or.inl ⟨hneg, i, Nat.le_refl i, by omega, ?_⟩⟩
        · refine hmap'.trans ?_
          rw [if_pos hneg]
          rfl
        · intro hphdr
          exact hno ⟨pagingAlignToLowerPage_aligned _, pagingAlignToLowerPage_aligned _,
            pagingAlignAddress_aligned _, hphdr⟩
      · obtain ⟨res', s', m', hrun, honly', hmaps', hrest⟩ := ih (i + 1) s1 _ OK hmaps
        rw [honly.mem] at hrun hrest
        refine ⟨res', s', m', ?_, honly.trans honly', hmaps', ?_⟩
        · refine hmap'.trans ?_
          rw [if_neg (by decide)]
          exact hrun
        · rcases hrest with ⟨hneg, j, h1, h2, hj⟩ | ⟨hres, hall, hm'⟩
          · exact Or.inl ⟨hneg, j, by omega, by omega, hj⟩
          · refine Or.inr ⟨?_, fun j h1 h2 => ?_, ?_⟩
            · rw [hres, ite_self, if_neg (Nat.succ_ne_zero _)]
            · by_cases hji : j = i
              · rw [hji]
                exact hok.2.2.2
              · exact hall j (by omega) (by omega)
            · rw [hm', List.range'_succ, List.flatMap_cons, overlay_append]
              rfl

/-- What `process_map_elf` does for a process whose image is loaded. -/
theorem processMapElf_spec {s : Kernel} {process : UInt32} {p : Process} {f : ElfFile} {t : Task}
    {m : Nat → UInt32} (hp : s.live process = some (processK.inj p))
    (hf : s.live p.ptr = some (elfFileK.inj f)) (hmem : f.elf_memory ≠ 0)
    (ht : s.live p.task = some (taskK.inj t)) (hmaps : Maps s t.page_directory m) :
    ∃ res s' m', processMapElf process s = some (res, s') ∧ TablesOnly s s' ∧
      Maps s' t.page_directory m' ∧
      (res < 0 ∧ (∃ j < programCount s.mem f.elf_memory,
          ¬ PhdrOk f.elf_memory (programHeader s.mem f.elf_memory j)) ∨
        res = OK ∧ (∀ j < programCount s.mem f.elf_memory,
          PhdrOk f.elf_memory (programHeader s.mem f.elf_memory j)) ∧
        m' = overlay m (programWrites s.mem f.elf_memory)) := by
  have hheader : elfHeader p.ptr s = some (headerAt s.mem f.elf_memory, s) := by
    rw [elfHeader, bind_of_some (load_of_live hf), if_neg hmem]
    rfl
  rw [processMapElf, bind_of_some (load_of_live hp), bind_of_some hheader,
    bind_of_some (load_of_live hf)]
  by_cases hcount : (headerAt s.mem f.elf_memory).e_phnum = 0
  · have hzero : programCount s.mem f.elf_memory = 0 := by
      rw [programCount, hcount]
      rfl
    rw [if_pos hcount, hzero, programWrites, hzero]
    exact ⟨OK, s, m, rfl, TablesOnly.refl s, hmaps, Or.inr ⟨rfl, fun j hj => by omega, rfl⟩⟩
  · rw [if_neg hcount, bind_of_some (load_of_live ht)]
    obtain ⟨res, s', m', hrun, honly, hmaps', hcases⟩ :=
      processMapElfLoop_spec (programCount s.mem f.elf_memory) 0 s m 0 hmaps
    refine ⟨res, s', m', hrun, honly, hmaps', ?_⟩
    rw [ite_self] at hcases
    rcases hcases with ⟨hneg, j, -, h2, hj⟩ | ⟨hres, hall, hm'⟩
    · exact Or.inl ⟨hneg, j, by omega, hj⟩
    · refine Or.inr ⟨hres, fun j hj => hall j (Nat.zero_le j) (by omega), ?_⟩
      rw [hm', programWrites, List.range_eq_range']

end RasOS
