import RasOS.Fs.OpenFiles
import RasOS.Task.Started

set_option autoImplicit false

/-! # Loading a file that is there

`process_load_data` opens the file twice when it is no ELF file. With room for the paths, the items on the
way and both images it returns, and what it has loaded is not null. Where `fopen` opens nothing it
returns 0 as well, and what it has loaded is null. -/

namespace RasOS

open Machine

variable {image : Nat → Sector} {priv : FatPrivate}

/-! ## What is to be there -/

/-- The path leads to an entry, there is a slot for it, and a file lies where it can be read. -/
structure FileThere (s : Kernel) (filename : List UInt8) (image : Nat → Sector) (priv : FatPrivate) (L : Listing)
    (cost : Nat) (entry : List UInt8) : Prop where
  reaches : Reaches s filename image priv L cost (.entry entry)
  slot : SlotFree s
  reach : itemIsSubdirectory entry = false → InReach image entry

theorem FileThere.grown {s s' : Kernel} {filename : List UInt8} {L : Listing} {cost : Nat} {entry : List UInt8}
    (h : FileThere s filename image priv L cost entry) (hgrown : Grown s s') :
    FileThere s' filename image priv L cost entry := by
  refine ⟨h.reaches.grown hgrown, ?_, h.reach⟩
  unfold SlotFree
  rw [hgrown.slots]
  exact h.slot

/-- The blocks of the bytes of a file. -/
def imageBlocks (entry : List UInt8) : Nat :=
  if itemIsSubdirectory entry then 0 else blocksFor (itemFilesize entry)

/-- The blocks of an ELF file structure, and twice those of the open file and of its bytes. -/
def loadBlocks (filename : List UInt8) (cost : Nat) (entry : List UInt8) : Nat :=
  1 + (openBlocks filename cost + (imageBlocks entry + (openBlocks filename cost + imageBlocks entry)))

/-- The bytes of a file fit where they have been allocated. -/
theorem KzallocBytes.fits {s s' : Kernel} {size ptr : UInt32} (h : KzallocBytes s size ptr s') (hne : ptr ≠ 0) :
    ptr.toNat + size.toNat ≤ 2 ^ 32 ∧ size.toNat < 2 ^ 31 := by
  obtain ⟨-, -, -, hend⟩ := (h.allocated hne).range h.since.wf
  have hsize : size.toNat ≤ 4096 * blocksFor size := by
    unfold blocksFor
    omega
  omega

/-! ## `elf_load` -/

section Elf

variable {s0 s : Kernel} {filename entry : List UInt8} {L : Listing} {slot cost k : Nat} {f : OpenFile}

theorem NewOpen.elfLoadOpened {elf : UInt32} {file : ElfFile} (h : NewOpen s0 image entry slot f s)
    (hready : DirectoryReady s0 image priv) (hreach : itemIsSubdirectory entry = false → InReach image entry)
    (hfree : s0.live elf = none) (helf : s.live elf = some (elfFileK.inj file))
    (hroom : Spacious s.heap (imageBlocks entry + k)) :
    Total (elfLoadOpened elf f.fd) s fun res s' => NewOpen s0 image entry slot f s' ∧ Spacious s'.heap k ∧
      (res = - EINVARG ∨ slot + 1 < 512) ∧ (0 ≤ res → WholeChain image entry) := by
  have hneg : (- EINVARG : Int) < 0 := by decide
  have hok : ¬ (OK : Int) < 0 := by decide
  unfold RasOS.elfLoadOpened
  rcases h.fstat with ⟨stat, hstat⟩ | ⟨hlast, hfile, stat, hsize, hstat⟩
  · rw [total_bind_of_some hstat]
    dsimp only
    rw [if_pos hneg]
    exact total_pure.mpr ⟨h, hroom.mono (Nat.le_add_left k _), Or.inl rfl, fun hpos => absurd hpos (by decide)⟩
  have hblocks : imageBlocks entry = blocksFor (itemFilesize entry) := by
    rw [imageBlocks, hfile, if_neg Bool.false_ne_true]
  rw [hblocks] at hroom
  obtain ⟨ptr, s1, halloc, hbytes, hptr, hroom1⟩ := kzallocBytes_spacious h.wf (itemFilesize entry) hroom
  rw [total_bind_of_some hstat]
  dsimp only
  rw [if_neg hok, hsize, total_bind_of_some halloc]
  -- up to here only the bytes have been allocated
  have helf1 := hbytes.since.object _ _ helf
  have haround : Around elf s { s1 with live := elfFileK.write s1.live elf { file with elf_memory := ptr } } :=
    (Around.of_grown hbytes.since.grown).write helf1 _
  have h2 := h.around hfree haround helf rfl
  rw [total_load helf1, total_store helf1]
  have helf2 : elfFileK.write s1.live elf { file with elf_memory := ptr } elf =
      some (elfFileK.inj { file with elf_memory := ptr }) := Kind.write_self ..
  have hread := h2.toFileOpen.fread ptr (h2.mounted hready) (hreach hfile) hlast hfile
    fun hne => ⟨hptr hne, hbytes.fits (hptr hne)⟩
  refine hread.bind ?_
  rintro res s3 ⟨hmoved, hres⟩
  have h3 := h2.around hfree (.of_grown (hmoved.grown h2.wf)) helf2 rfl
  have hroom3 : Spacious s3.heap k := by
    rw [hmoved.heap]
    exact hroom1
  rcases hres with hbad | ⟨rfl, hwhole⟩
  · rw [if_pos hbad]
    exact total_pure.mpr ⟨h3, hroom3, Or.inr hlast, fun hpos => absurd hbad (not_lt.mpr hpos)⟩
  rw [if_neg (by decide)]
  -- the header is there to be looked at
  have hne : itemFilesize entry ≠ 0 := by
    intro h0
    have hpos := hwhole.size
    rw [h0, UInt32.toNat_zero] at hpos
    omega
  have helf3 : s3.live elf = some (elfFileK.inj { file with elf_memory := ptr }) :=
    (hmoved.object _ _ fun _ heq => Obj.noConfusion heq).mpr helf2
  have hrun := elfProcessLoaded_run helf3 (hptr hne)
  split at hrun
  all_goals rw [total_of_some hrun]
  · refine ⟨h3.around hfree ?_ helf3 rfl, hroom3, Or.inr hlast, fun _ => hwhole⟩
    exact (Around.of_grown (Grown.refl h3.wf)).write helf3 _
  · exact ⟨h3, hroom3, Or.inr hlast, fun _ => hwhole⟩

/-- **With room `elf_load` returns for a file that is there.** A refused header leaves the room and the file
for another try. -/
theorem FileThere.elfLoad (h : FileThere s filename image priv L cost entry) (hwf : s.WF)
    (hroom : Spacious s.heap (1 + (openBlocks filename cost + (imageBlocks entry + k)))) :
    Total (elfLoad filename) s fun r s' => Spacious s'.heap k ∧
      (r.1 = - EINFORMAT → Grown s s') ∧ (0 ≤ r.1 → WholeChain image entry ∧ ∃ elf, elf ≠ 0 ∧ r.2 = some elf) := by
  obtain ⟨elf, s1, halloc, hne, hsince, hfree, hlive, hroom1⟩ :=
    kzalloc_spacious elfFileK SIZEOF_ELF_FILE {} hwf (by decide) hroom
  have h1 := h.grown hsince.grown
  rw [RasOS.elfLoad, total_bind_of_some halloc]
  refine (h1.reaches.fopen h1.reaches.tree.mounted.wf h1.slot hroom1).bind ?_
  rintro fd s2 ⟨slot, f, rfl, hopen, hroom2⟩
  have hpos : ¬ f.fd ≤ 0 := by
    rw [hopen.fd]
    omega
  rw [if_neg hpos]
  have helf2 : s2.live elf = some (elfFileK.inj {}) :=
    hopen.added.object _ _ hlive fun _ heq => Obj.noConfusion heq
  refine ((hopen.earlier hsince.grown).elfLoadOpened h.reaches.tree.mounted h.reach hfree helf2 hroom2).bind ?_
  rintro res s3 ⟨hopen3, hroom3, hlast, hwhole⟩
  refine hopen3.fclose.bind ?_
  rintro _ s4 ⟨hgrown, hroom4⟩
  have hgrown' : res = - EINFORMAT → Grown s s4 := by
    rintro rfl
    exact hgrown (hlast.resolve_left (by decide))
  by_cases hneg : res < 0
  · rw [if_pos hneg]
    exact total_pure.mpr ⟨hroom4 k hroom3, hgrown', fun hpos => absurd hneg (not_lt.mpr hpos)⟩
  · rw [if_neg hneg]
    exact total_pure.mpr ⟨hroom4 k hroom3, hgrown', fun hpos => ⟨hwhole hpos, elf, hne, rfl⟩⟩

/-- With nothing to open it returns 0, without a file. -/
theorem OpensNothing.elfLoad {n : Nat} (h : OpensNothing s filename n) (hwf : s.WF)
    (hroom : Spacious s.heap (1 + (n + k))) :
    Total (elfLoad filename) s fun r s' => r = (0, none) ∧ Spacious s'.heap k := by
  obtain ⟨elf, s1, halloc, -, hsince, -, -, hroom1⟩ :=
    kzalloc_spacious elfFileK SIZEOF_ELF_FILE {} hwf (by decide) hroom
  rw [RasOS.elfLoad, total_bind_of_some halloc]
  refine ((h.grown hsince.grown).fopen hsince.wf hroom1).bind ?_
  rintro fd s2 ⟨rfl, hroom2⟩
  have hclose : fclose 0 s2 = some (- EINVARG, s2) := by
    rw [fclose, bind_of_some (fileGetDescriptor_of_not (by decide) s2), if_pos rfl]
    rfl
  rw [if_pos (Int.le_refl 0), total_bind_of_some hclose]
  exact total_pure.mpr ⟨rfl, hroom2⟩

end Elf

/-! ## `process_load_data` -/

/-- What a process has loaded, if anything, is not null. -/
def LoadsFile (process : UInt32) (s : Kernel) : Prop :=
  ∃ p, s.live process = some (processK.inj p) ∧ p.ptr ≠ 0

section Data

variable {s : Kernel} {filename entry : List UInt8} {L : Listing} {cost k : Nat} {process : UInt32} {p : Process}

theorem FileOpen.processLoadBinaryOpened {slot : Nat} {f : OpenFile} (h : FileOpen image entry slot f s)
    (hm : Mounted s image priv) (hreach : itemIsSubdirectory entry = false → InReach image entry)
    (hprocess : s.live process = some (processK.inj p)) (hroom : Spacious s.heap (imageBlocks entry + k)) :
    Total (processLoadBinaryOpened process f.fd) s fun res s' => Spacious s'.heap k ∧
      (0 ≤ res → WholeChain image entry ∧ LoadsFile process s') := by
  have hfail : ∀ {res : Int} {t : Kernel}, res < 0 → Spacious t.heap k →
      Total (Pure.pure res : KernelM Int) t fun res s' => Spacious s'.heap k ∧
        (0 ≤ res → WholeChain image entry ∧ LoadsFile process s') :=
    fun hneg ht => total_pure.mpr ⟨ht, fun hpos => absurd hneg (not_lt.mpr hpos)⟩
  unfold RasOS.processLoadBinaryOpened
  rcases h.fstat with ⟨stat, hstat⟩ | ⟨hlast, hfile, stat, hsize, hstat⟩
  · rw [total_bind_of_some hstat]
    dsimp only
    rw [if_pos (by decide)]
    exact hfail (by decide) (hroom.mono (Nat.le_add_left k _))
  have hblocks : imageBlocks entry = blocksFor (itemFilesize entry) := by
    rw [imageBlocks, hfile, if_neg Bool.false_ne_true]
  rw [hblocks] at hroom
  obtain ⟨ptr, s1, halloc, hbytes, hptr, hroom1⟩ := kzallocBytes_spacious h.wf (itemFilesize entry) hroom
  rw [total_bind_of_some hstat]
  dsimp only
  rw [if_neg (by decide), hsize, total_bind_of_some halloc]
  by_cases h0 : ptr = 0
  · rw [if_pos h0]
    exact hfail (by decide) hroom1
  rw [if_neg h0]
  have hprocess1 := hbytes.since.object _ _ hprocess
  have h1 := h.around (.of_grown hbytes.since.grown) hprocess rfl
  have hread := h1.fread ptr (hm.frame fun _ => hbytes.since.fileFrame) (hreach hfile) hlast hfile
    fun _ => ⟨h0, hbytes.fits h0⟩
  refine hread.bind ?_
  rintro res s2 ⟨hmoved, hres⟩
  have h2 := h1.around (.of_grown (hmoved.grown h1.wf)) hprocess1 rfl
  have hroom2 : Spacious s2.heap k := by
    rw [hmoved.heap]
    exact hroom1
  rcases hres with hbad | ⟨rfl, hwhole⟩
  · rw [if_pos (by omega)]
    exact hfail (by decide) hroom2
  rw [if_neg (not_not.mpr rfl)]
  -- the process is written, and the file closed
  have hprocess2 : s2.live process = some (processK.inj p) :=
    (hmoved.object _ _ fun _ heq => Obj.noConfusion heq).mpr hprocess1
  rw [total_load hprocess2, total_store hprocess2]
  generalize hp' : ({ p with
    filetype := PROCESS_FILETYPE_BINARY, ptr := ptr, size := itemFilesize entry } : Process) = p'
  have hptr' : p'.ptr ≠ 0 := by
    rw [← hp']
    exact h0
  have h3 := h2.around ((Around.of_grown (Grown.refl h2.wf)).write (k := processK) hprocess2 p') hprocess2 rfl
  have hclose := h3.fclose.keeps (keepsRest_rules.fclose f.fd)
  refine hclose.mono ?_
  rintro res s4 ⟨⟨-, hroom4⟩, hframe⟩
  refine ⟨hroom4 k hroom2, fun _ => ⟨hwhole, p', ?_, hptr'⟩⟩
  exact (hframe h3.wf).object _ _ (Kind.write_self processK s2.live process p') rfl fun _ heq => Obj.noConfusion heq

theorem FileThere.processLoadBinary (h : FileThere s filename image priv L cost entry)
    (hprocess : s.live process = some (processK.inj p))
    (hroom : Spacious s.heap (openBlocks filename cost + (imageBlocks entry + k))) :
    Total (processLoadBinary filename process) s fun res s' => Spacious s'.heap k ∧
      (0 ≤ res → WholeChain image entry ∧ LoadsFile process s') := by
  unfold RasOS.processLoadBinary
  refine (h.reaches.fopen h.reaches.tree.mounted.wf h.slot hroom).bind ?_
  rintro fd s1 ⟨slot, f, rfl, hopen, hroom1⟩
  have hne : f.fd ≠ 0 := by
    rw [hopen.fd]
    omega
  have hprocess1 : s1.live process = some (processK.inj p) :=
    hopen.added.object _ _ hprocess fun _ heq => Obj.noConfusion heq
  rw [if_neg hne]
  exact hopen.toFileOpen.processLoadBinaryOpened (hopen.mounted h.reaches.tree.mounted) h.reach hprocess1 hroom1

/-- **With room a file that is there is loaded**, or the call fails. -/
theorem FileThere.processLoadData (h : FileThere s filename image priv L cost entry)
    (hprocess : s.live process = some (processK.inj p)) (hroom : Spacious s.heap (loadBlocks filename cost entry + k)) :
    Total (processLoadData filename process) s fun res s' => res < 0 ∨
      WholeChain image entry ∧ Spacious s'.heap k ∧ LoadsFile process s' := by
  have hwf := h.reaches.tree.mounted.wf
  have hroom' : Spacious s.heap (1 + (openBlocks filename cost + (imageBlocks entry +
      (openBlocks filename cost + (imageBlocks entry + k))))) := by
    simp only [loadBlocks, Nat.add_assoc] at hroom
    exact hroom
  unfold RasOS.processLoadData
  refine Total.bind (Q := fun res s1 => (res = - EINFORMAT → Grown s s1 ∧
    Spacious s1.heap (openBlocks filename cost + (imageBlocks entry + k))) ∧
      (res < 0 ∨ WholeChain image entry ∧ Spacious s1.heap k ∧ LoadsFile process s1)) ?_ ?_
  · obtain ⟨⟨res, file_out⟩, s1, hrun, hroom1, hformat, hloaded⟩ := h.elfLoad hwf hroom'
    obtain ⟨hframe, -⟩ := elfLoad_spec hwf filename _ _ hrun
    have hprocess1 := hframe.object _ _ hprocess rfl fun _ heq => Obj.noConfusion heq
    rw [processLoadElf, total_bind_of_some hrun]
    dsimp only
    by_cases hneg : res < 0
    · rw [if_pos hneg]
      exact total_pure.mpr ⟨fun hbad => ⟨hformat hbad, hroom1⟩, Or.inl hneg⟩
    · obtain ⟨hwhole, elf, hne, rfl⟩ := hloaded (not_lt.mp hneg)
      have hpos : res ≠ - EINFORMAT := by
        rintro rfl
        exact hneg (by decide)
      rw [if_neg hneg, total_load hprocess1, total_store hprocess1]
      refine total_pure.mpr ⟨fun hbad => absurd hbad hpos, Or.inr ⟨hwhole, ?_, _, Kind.write_self .., hne⟩⟩
      exact hroom1.mono (by omega)
  · rintro res s1 ⟨hformat, hres⟩
    split
    · rename_i hbad
      obtain ⟨hgrown, hroom1⟩ := hformat hbad
      have hprocess1 := hgrown.object _ _ hprocess fun _ heq => Obj.noConfusion heq
      refine ((h.grown hgrown).processLoadBinary hprocess1 hroom1).mono ?_
      rintro res s2 ⟨hroom2, hloaded⟩
      rcases lt_or_ge res 0 with hneg | hpos
      · exact Or.inl hneg
      · exact Or.inr ⟨(hloaded hpos).1, hroom2, (hloaded hpos).2⟩
    · exact total_pure.mpr hres

/-- **With nothing to open 0 is returned**, and nothing has been loaded. -/
theorem OpensNothing.processLoadData {n : Nat} (h : OpensNothing s filename n) (hwf : s.WF)
    (hprocess : s.live process = some (processK.inj p)) (hroom : Spacious s.heap (1 + (n + k))) :
    Total (processLoadData filename process) s fun res s' => res = 0 ∧ Spacious s'.heap k ∧
      ∃ p, s'.live process = some (processK.inj p) ∧ p.ptr = 0 := by
  obtain ⟨r, s1, hrun, rfl, hroom1⟩ := h.elfLoad hwf hroom
  obtain ⟨hframe, -⟩ := elfLoad_spec hwf filename _ _ hrun
  have hprocess1 := hframe.object _ _ hprocess rfl fun _ heq => Obj.noConfusion heq
  rw [RasOS.processLoadData, processLoadElf, bind_assoc, total_bind_of_some hrun]
  dsimp only
  rw [if_neg (by decide), bind_assoc, total_load hprocess1, bind_assoc, total_store hprocess1]
  exact total_pure.mpr ⟨rfl, hroom1, _, Kind.write_self .., rfl⟩

end Data

end RasOS
