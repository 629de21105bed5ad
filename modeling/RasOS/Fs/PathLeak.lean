import RasOS.Fs.Cursor
import RasOS.Fs.PathParts

set_option autoImplicit false

/-! # What an open leaves behind

`fopen` parses its path into a root, its parts and their names, and no function frees them. However
a file is used and closed, the root of its path stays allocated. -/

namespace RasOS

open Machine

/-- The roots of paths stay. -/
def KeepsRoots (s s' : Kernel) : Prop :=
  s.WF → s'.WF ∧ ∀ ptr o, s.live ptr = some o → o.isRoot = true →
    ∃ o', s'.live ptr = some o' ∧ o'.isRoot = true

/-- A step that keeps the invariant and the live objects. -/
theorem KeepsRoots.of_live {s s' : Kernel} (hframe : KeepsRest s s')
    (hlive : s.WF → ∀ ptr o, s.live ptr = some o → o.isRoot = true → s'.live ptr = some o) :
    KeepsRoots s s' :=
  fun hwf => ⟨(hframe hwf).wf, fun ptr o ho hroot => ⟨o, hlive hwf ptr o ho hroot, hroot⟩⟩

theorem keepsRoots_rules : FileRules KeepsRoots where
  frame := by
    refine ⟨fun s hwf => ⟨hwf, fun ptr o ho hroot => ⟨o, ho, hroot⟩⟩, ?_⟩
    intro s s' s'' h h' hwf
    obtain ⟨hwf', hroots⟩ := h hwf
    obtain ⟨hwf'', hroots'⟩ := h' hwf'
    refine ⟨hwf'', fun ptr o ho hroot => ?_⟩
    obtain ⟨o', ho', hroot'⟩ := hroots ptr o ho hroot
    exact hroots' ptr o' ho' hroot'
  alloc := by
    intro α k hk size zero s ptr s' h
    refine KeepsRoots.of_live (keepsRest_rules.alloc k hk size zero s ptr s' h) ?_
    intro hwf q o ho _
    exact (kzalloc_since hwf h).object q o ho
  put := by
    intro α k hk ptr a s u s' h hwf
    refine ⟨(keepsRest_rules.put k hk ptr a s u s' h hwf).wf, fun q o ho hroot => ?_⟩
    obtain ⟨⟨b, hb⟩, rfl⟩ := store_eq_some.mp h
    by_cases hq : q = ptr
    · -- a root may be overwritten, by a root
      subst hq
      rw [hb] at ho
      obtain rfl := Option.some.inj ho
      exact ⟨k.inj a, Kind.write_self .., by rw [hk.root a b]; exact hroot⟩
    · exact ⟨o, (Kind.write_of_ne _ _ _ hq).trans ho, hroot⟩
  free := by
    intro α k hk ptr s u s' h
    refine KeepsRoots.of_live (keepsRest_rules.free k hk ptr s u s' h) ?_
    intro hwf q o ho hroot
    obtain ⟨⟨b, hb⟩, rfl⟩ := kfree_eq_some.mp h
    have hq : q ≠ ptr := by
      rintro rfl
      rw [hb] at ho
      obtain rfl := Option.some.inj ho
      rw [hk.notRoot b] at hroot
      cases hroot
    exact (Function.update_of_ne hq ..).trans ho
  freeNull := by
    intro s u s' h
    refine KeepsRoots.of_live (keepsRest_rules.freeNull s u s' h) fun _ q o ho _ => ?_
    obtain ⟨-, rfl⟩ := Prod.mk.inj (Option.some.inj h)
    exact ho
  seek := by
    intro stream st s u s' h
    refine KeepsRoots.of_live (keepsRest_rules.seek stream st s u s' h) ?_
    intro hwf q o ho hroot
    obtain ⟨⟨st', hst'⟩, rfl⟩ := store_eq_some.mp h
    have hq : q ≠ stream := by
      rintro rfl
      rw [hst'] at ho
      obtain rfl := Option.some.inj ho
      cases hroot
    exact (Kind.write_of_ne _ _ _ hq).trans ho
  sector := by
    intro lba s r s' h
    refine KeepsRoots.of_live (keepsRest_rules.sector lba s r s' h) ?_
    intro hwf q o ho _
    rw [diskReadBlock_state h]
    exact ho
  slot := by
    intro i desc s u s' h
    refine KeepsRoots.of_live (keepsRest_rules.slot i desc s u s' h) ?_
    intro hwf q o ho _
    obtain ⟨-, rfl⟩ := Prod.mk.inj (Option.some.inj h)
    exact ho

theorem keepsRoots_memWrite (out : UInt32) (bytes : List UInt8) :
    Keeps KeepsRoots (memWrite out bytes) := by
  intro s u s' h
  refine KeepsRoots.of_live (keepsRest_memWrite out bytes s u s' h) ?_
  intro hwf q o ho _
  unfold memWrite at h
  split at h
  · cases h
  · obtain ⟨-, rfl⟩ := Prod.mk.inj (Option.some.inj h)
    exact ho

/-! ## The root of an open file -/

/-- There is the root of a path that was not there before. -/
def NewRoot (s s' : Kernel) : Prop :=
  ∃ ptr o, s.live ptr = none ∧ s'.live ptr = some o ∧ o.isRoot = true

theorem NewRoot.keep {s s' s'' : Kernel} (h : NewRoot s s') (hwf : s'.WF) (hkeep : KeepsRoots s' s'') :
    NewRoot s s'' := by
  obtain ⟨ptr, o, hfree, ho, hroot⟩ := h
  obtain ⟨o', ho', hroot'⟩ := (hkeep hwf).2 ptr o ho hroot
  exact ⟨ptr, o', hfree, ho', hroot'⟩

/-- A path that is not valid is given up before anything is allocated, and without a free block nothing can be. -/
theorem pathparserParse_rejected {path : List UInt8} {s : Kernel} (hwf : s.WF)
    (h : isValidPath path = false ∨ freeCount s.heap = 0) : pathparserParse path s = some (0, s) := by
  unfold pathparserParse
  by_cases hlong : path.length > RASOS_PATH_MAX_LEN
  · rw [if_pos hlong]
    rfl
  rw [if_neg hlong]
  by_cases hvalid : isValidPath path = true
  · have hfull := h.resolve_left (by rw [hvalid]; decide)
    obtain ⟨hdrive, hnonneg⟩ := getDriveFromPath_valid hvalid
    obtain ⟨root, s1, hmade, hrun⟩ := createRoot_made hwf (((path.headD 0).toNat : Int) - 48)
    obtain ⟨rfl, rfl⟩ := hmade.full hfull
    rw [hdrive]
    dsimp only
    rw [if_neg hnonneg, bind_of_some hrun, if_pos rfl]
    rfl
  · rw [getDriveFromPath_invalid (by simpa using hvalid)]
    rfl

/-- Parsing a valid path leaves a new root behind. -/
theorem pathparserParse_newRoot (path : List UInt8) {s : Kernel} (hwf : s.WF)
    (hvalid : isValidPath path = true) (hroom : 0 < freeCount s.heap) :
    Ensures (pathparserParse path) s fun _ s' => s'.WF ∧ NewRoot s s' := by
  have hR := keepsRoots_rules
  obtain ⟨hlen, -⟩ := isValidPath_eq_true.mp hvalid
  obtain ⟨hdrive, hnonneg⟩ := getDriveFromPath_valid hvalid
  unfold pathparserParse
  rw [if_neg (Nat.not_lt.mpr hlen), hdrive]
  dsimp only
  rw [if_neg hnonneg]
  -- the root is made first, and everything after keeps it
  obtain ⟨root, s1, hmade, hrun⟩ := createRoot_made hwf (((path.headD 0).toNat : Int) - 48)
  rw [ensures_bind_of_some hrun]
  obtain ⟨hfree, hroot⟩ := hmade.live (hmade.ne_zero_iff.mpr hroom)
  have hwf1 : s1.WF := (hmade.since hwf).wf
  have hnew1 : NewRoot s s1 := ⟨root, _, hfree, hroot, rfl⟩
  have hrest : ∀ x : KernelM UInt32, Keeps KeepsRoots x →
      Ensures x s1 fun _ s' => s'.WF ∧ NewRoot s s' :=
    fun x hx a s' h => ⟨(hx s1 a s' h hwf1).1, hnew1.keep hwf1 (hx s1 a s' h)⟩
  refine hrest _ (Keeps.ite (hR.pure _) (hR.bind (hR.parsePathPart _ _) ?_))
  rintro ⟨first_part, tmp_path⟩
  refine Keeps.ite (hR.pure _) (hR.bind (hR.load _ _) fun root => ?_)
  refine hR.bind (hR.put _ fileKind_pathRoot _ _) fun _ => hR.bind (hR.parsePathPart _ _) ?_
  rintro ⟨part, tmp_path⟩
  exact hR.bind (hR.pathparserLoop _ _ _) fun _ => hR.pure _

/-- Such a path opens nothing and changes nothing. -/
theorem fopen_rejected {filename : List UInt8} {s : Kernel} (hwf : s.WF)
    (h : isValidPath filename = false ∨ freeCount s.heap = 0) (mode_str : List UInt8) :
    fopen filename mode_str s = some (0, s) := by
  have hres : fopenRes filename mode_str s = some (- EINVARG, s) := by
    unfold fopenRes
    rw [bind_of_some (pathparserParse_rejected hwf h), if_pos rfl]
    rfl
  unfold fopen
  rw [bind_of_some hres]
  rfl

/-- Opening a valid path leaves a new root behind, whatever it returns. -/
theorem fopen_newRoot (filename mode_str : List UInt8) {s : Kernel} (hwf : s.WF)
    (hvalid : isValidPath filename = true) (hroom : 0 < freeCount s.heap) :
    Ensures (fopen filename mode_str) s fun _ s' => s'.WF ∧ NewRoot s s' := by
  have hR := keepsRoots_rules
  unfold fopen fopenRes
  rw [bind_assoc]
  refine Ensures.bind (pathparserParse_newRoot filename hwf hvalid hroom) ?_
  rintro root_path s1 ⟨hwf1, hnew1⟩
  have hkeep : ∀ x : KernelM Int, Keeps KeepsRoots x →
      Ensures x s1 fun _ s' => s'.WF ∧ NewRoot s s' :=
    fun x hx a s' h => ⟨(hx s1 a s' h hwf1).1, hnew1.keep hwf1 (hx s1 a s' h)⟩
  refine hkeep _ (hR.bind (Keeps.ite (hR.pure _) ?_) fun _ => hR.pure _)
  refine hR.bind (hR.load _ _) fun root => ?_
  refine Keeps.ite (hR.pure _) (Keeps.ite (hR.pure _) (hR.bind (hR.fetch _) fun filesystem => ?_))
  refine Keeps.ite (hR.pure _) (Keeps.ite (hR.pure _) (hR.bind (hR.fat16Open _ _) fun priv => ?_))
  refine Keeps.ite (hR.pure _) (hR.bind (hR.fileNewDescriptorLoop _ _) ?_)
  rintro ⟨res, descriptor⟩
  refine Keeps.ite (hR.pure _) (hR.bind (hR.load _ _) fun d => ?_)
  exact hR.bind (hR.put _ fileKind_fileDescriptor _ _) fun _ => hR.pure _

/-- An open file has a new root. -/
theorem fopen_opened_newRoot (filename mode_str : List UInt8) {s : Kernel} (hwf : s.WF) :
    Ensures (fopen filename mode_str) s fun fd s' => s'.WF ∧ (0 < fd → NewRoot s s') := by
  intro fd s' hopen
  by_cases hrejected : isValidPath filename = false ∨ freeCount s.heap = 0
  · rw [fopen_rejected hwf hrejected, Option.some.injEq, Prod.mk.injEq] at hopen
    obtain ⟨rfl, rfl⟩ := hopen
    exact ⟨hwf, fun hpos => absurd hpos (by decide)⟩
  · obtain ⟨hvalid, hroom⟩ := not_or.mp hrejected
    obtain ⟨hwf', hnew⟩ := fopen_newRoot filename mode_str hwf (by simpa using hvalid) (Nat.pos_of_ne_zero hroom) fd s'
      hopen
    exact ⟨hwf', fun _ => hnew⟩

/-! ## Using a file and closing it -/

/-- Calls on a descriptor, one after the other, and then its end. -/
def useAndClose (fd : Int) : List FileCall → KernelM Int
  | [] => fclose fd
  | call :: calls => do
      let _ ← call.run fd
      useAndClose fd calls

theorem keepsRoots_useAndClose (fd : Int) (calls : List FileCall) :
    Keeps KeepsRoots (useAndClose fd calls) := by
  have hR := keepsRoots_rules
  induction calls with
  | nil => exact hR.fclose fd
  | cons call calls ih =>
      refine hR.bind ?_ fun _ => ih
      cases call with
      | fread out size nmemb => exact hR.fread keepsRoots_memWrite out size nmemb fd
      | fseek offset whence => exact hR.fseek fd offset whence
      | fstat => exact hR.bind (hR.fstat fd) fun _ => hR.pure _

/-- The live allocations and the descriptor table are what they were. -/
structure Restored (s s' : Kernel) : Prop where
  live : ∀ ptr, (s'.live ptr).isSome = (s.live ptr).isSome
  slots : s'.file_descriptors = s.file_descriptors

theorem Restored.refl (s : Kernel) : Restored s s := ⟨fun _ => rfl, rfl⟩

theorem NewRoot.not_restored {s s' : Kernel} (h : NewRoot s s') : ¬ Restored s s' := by
  obtain ⟨ptr, o, hfree, ho, -⟩ := h
  intro hrestored
  have hlive := hrestored.live ptr
  rw [hfree, ho] at hlive
  cases hlive

/-- What closing a file is to do: it returns 0, and everything is as before the file was opened. -/
def ClosesClean (s s1 : Kernel) (fd : Int) (calls : List FileCall) : Prop :=
  Total (useAndClose fd calls) s1 fun res s' => res = OK ∧ Restored s s'

/-- **No file closes clean**: whatever is done with it, the root of its path stays allocated. -/
theorem fclose_leaks (filename mode_str : List UInt8) {s s1 : Kernel} {fd : Int} (hwf : s.WF)
    (hopen : fopen filename mode_str s = some (fd, s1)) (hfd : 0 < fd) (calls : List FileCall) :
    ¬ ClosesClean s s1 fd calls := by
  rintro ⟨res, s2, hrun, -, hrestored⟩
  obtain ⟨hwf1, hnew⟩ := fopen_opened_newRoot filename mode_str hwf fd s1 hopen
  have hkeep := keepsRoots_useAndClose fd calls s1 res s2 hrun
  exact ((hnew hfd).keep hwf1 hkeep).not_restored hrestored

/-- The file `A`, read and closed. -/
theorem fclose_leaks_A :
    Total (fopen pathA [0x72]) (oneFileKernel 600 (fun _ => 0) (fun _ _ => 0) 0) fun fd s1 =>
      0 < fd ∧ ¬ ClosesClean (oneFileKernel 600 (fun _ => 0) (fun _ _ => 0) 0) s1 fd
        [.fread 0x2000000 1 5, .fseek 7 SEEK_SET, .fstat] := by
  have hopens : Total (fopen pathA [0x72]) (oneFileKernel 600 (fun _ => 0) (fun _ _ => 0) 0)
      fun fd _ => 0 < fd := by decide +kernel
  obtain ⟨fd, s1, hopen, hfd⟩ := hopens
  exact ⟨fd, s1, hopen, hfd, fclose_leaks pathA [0x72] (oneFileKernel_wf (by decide)) hopen hfd _⟩

/-- Block 5 is free before `A` is opened, and the root of the path is there after `A` has been closed,
although `fclose` returns 0. -/
theorem fclose_leaves_root :
    (oneFileKernel 600 (fun _ => 0) (fun _ _ => 0) 0).live (blockAddress 5) = none ∧
    (Total (fopen pathA [0x72] >>= fun fd => useAndClose fd [])
      (oneFileKernel 600 (fun _ => 0) (fun _ _ => 0) 0)
      fun res s' => res = OK ∧ (s'.live (blockAddress 5)).isSome = true) ∧
    Total (fopen pathA [0x72]) (oneFileKernel 600 (fun _ => 0) (fun _ _ => 0) 0) fun fd s1 =>
      0 < fd ∧ ¬ ClosesClean (oneFileKernel 600 (fun _ => 0) (fun _ _ => 0) 0) s1 fd [] := by
  have hrun : Total (fopen pathA [0x72] >>= fun fd => useAndClose fd [])
      (oneFileKernel 600 (fun _ => 0) (fun _ _ => 0) 0)
      fun res s' => res = OK ∧ (s'.live (blockAddress 5)).isSome = true := by decide +kernel
  have hopens : Total (fopen pathA [0x72]) (oneFileKernel 600 (fun _ => 0) (fun _ _ => 0) 0)
      fun fd _ => 0 < fd := by decide +kernel
  have hfree : (oneFileKernel 600 (fun _ => 0) (fun _ _ => 0) 0).live (blockAddress 5) = none := by
    rw [oneFileKernel_live (by decide)]
    rfl
  obtain ⟨fd, s1, hopen, hfd⟩ := hopens
  refine ⟨hfree, hrun, fd, s1, hopen, hfd, ?_⟩
  rintro ⟨res, s2, hclose, -, hrestored⟩
  obtain ⟨-, hroot⟩ := (total_of_some ((bind_of_some hopen).trans hclose)).mp hrun
  have hlive := hrestored.live (blockAddress 5)
  rw [hroot, hfree] at hlive
  cases hlive

/-! ## Opening that fails -/

/-- **An open that fails leaves the root of its path behind.** Whenever `fopen` returns 0, the live
allocations and the descriptor table are what they were if and only if the path was not valid, or there was no
block for its root, so that nothing had been allocated. -/
theorem fopen_failed_restored_iff (filename mode_str : List UInt8) {s s' : Kernel} (hwf : s.WF)
    (hopen : fopen filename mode_str s = some (0, s')) :
    Restored s s' ↔ isValidPath filename = false ∨ freeCount s.heap = 0 := by
  constructor
  · intro hrestored
    by_contra hrejected
    obtain ⟨hvalid, hroom⟩ := not_or.mp hrejected
    obtain ⟨-, hnew⟩ := fopen_newRoot filename mode_str hwf (by simpa using hvalid) (Nat.pos_of_ne_zero hroom) 0 s'
      hopen
    exact hnew.not_restored hrestored
  · intro hrejected
    rw [fopen_rejected hwf hrejected, Option.some.injEq, Prod.mk.injEq] at hopen
    obtain ⟨-, rfl⟩ := hopen
    exact Restored.refl s

/-- The path `A/B`, without a drive. -/
theorem fopen_failed_restored_AB :
    ∃ s', fopen [0x41, 0x2F, 0x42] [0x72] (oneFileKernel 600 (fun _ => 0) (fun _ _ => 0) 0) = some (0, s') ∧
      Restored (oneFileKernel 600 (fun _ => 0) (fun _ _ => 0) 0) s' := by
  have hinvalid : isValidPath [0x41, 0x2F, 0x42] = false := by decide
  have hwf : (oneFileKernel 600 (fun _ => 0) (fun _ _ => 0) 0).WF := oneFileKernel_wf (by decide)
  have hopen := fopen_rejected hwf (Or.inl hinvalid) [0x72]
  exact ⟨_, hopen, (fopen_failed_restored_iff _ _ hwf hopen).mpr (Or.inl hinvalid)⟩

/-- The file `B` is not there; after the attempt to open it the root of its path is. -/
theorem fopen_missing_leaves_root :
    (oneFileKernel 600 (fun _ => 0) (fun _ _ => 0) 0).live (blockAddress 5) = none ∧
    Total (fopen [0x30, 0x3A, 0x2F, 0x42] [0x72]) (oneFileKernel 600 (fun _ => 0) (fun _ _ => 0) 0)
      fun fd s' => fd = 0 ∧ (s'.live (blockAddress 5)).isSome = true ∧
        ¬ Restored (oneFileKernel 600 (fun _ => 0) (fun _ _ => 0) 0) s' := by
  have hfree : (oneFileKernel 600 (fun _ => 0) (fun _ _ => 0) 0).live (blockAddress 5) = none := by
    rw [oneFileKernel_live (by decide)]
    rfl
  have hrun : Total (fopen [0x30, 0x3A, 0x2F, 0x42] [0x72])
      (oneFileKernel 600 (fun _ => 0) (fun _ _ => 0) 0)
      fun fd s' => fd = 0 ∧ (s'.live (blockAddress 5)).isSome = true := by decide +kernel
  refine ⟨hfree, hrun.mono fun fd s' h => ⟨h.1, h.2, fun hrestored => ?_⟩⟩
  have hlive := hrestored.live (blockAddress 5)
  rw [h.2, hfree] at hlive
  cases hlive

end RasOS
