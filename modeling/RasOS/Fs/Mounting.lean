import RasOS.Fs.Lookup
import RasOS.Fs.OneFile
import RasOS.Fs.Resolve
import RasOS.Memory.PagingRuns

set_option autoImplicit false

/-! # How `fat16_resolve` ends

When it fails, `fat16_resolve` closes the stream of the boot sector, frees the private data and clears
the disk. The three streams that `fat16_init_private` has made are not closed: after the record is gone
no one knows them. Where the heap has no block for the first of them, there is nothing to leave behind. -/

namespace RasOS

open Machine

/-- The state in which `fat16_resolve` returns `res`. -/
structure ResolveEnd (s : Kernel) (res : Int) (s' : Kernel) : Prop where
  drive : s'.drive = s.drive
  status : res = OK ∨ res < 0
  /-- a stream of the private data is there, whatever has happened, if there was a block for it -/
  stream : 2 ≤ freeCount s.heap → ∃ q st, s.live q = none ∧ s'.live q = some (diskStreamK.inj st)
  mounted : 0 ≤ res → ∃ p priv, s'.disk = { filesystem := some .fat16, fs_private := p } ∧
    PrivateAt s' p priv ∧ priv.root_directory.ending_sector_pos = dataSector priv.header
  cleared : res < 0 → s'.disk = { filesystem := none, fs_private := 0 }

/-- Without a block for the stream of the boot sector. -/
theorem Starved.resolveEnd {s s1 s' : Kernel} {p : UInt32} (h : Starved s p s1) (hend : Refused s1 p s') :
    ResolveEnd s (- ENOMEM) s' := by
  have hneg : ¬ 0 ≤ - ENOMEM := by decide
  refine ⟨hend.drive.trans h.drive, Or.inr (by decide), fun hroom => ?_, fun h => absurd h hneg, fun _ => hend.disk⟩
  obtain ⟨q, st, hne, hnew, hst⟩ := h.stream hroom
  refine ⟨q, st, hnew, ?_⟩
  rw [hend.live, Function.update_of_ne hne]
  exact hst

/-- **How `fat16_resolve` ends**, on any disk. -/
theorem fat16Resolve_end {s : Kernel} (hwf : s.WF) : Ensures fat16Resolve s (ResolveEnd s) := by
  obtain ⟨p, stream, s1, hrun, ⟨hstream, priv, hprep⟩ | ⟨rfl, hstarved⟩⟩ := resolvePrivate_spec hwf
  swap
  · refine (fat16Resolve_starved hrun hstarved).ensures.mono ?_
    rintro res s' ⟨rfl, hend⟩
    exact hstarved.resolveEnd hend
  have hp : p ≠ 0 := hprep.wf.ne_zero hprep.private_data
  rw [fat16Resolve_parts, ensures_bind_of_some hrun]
  dsimp only
  refine Ensures.bind (resolveBoot_spec hstream hprep.toPrivateAt) ?_
  rintro status s' ⟨header, hboot⟩
  refine Ensures.bind (resolveRoot_spec hboot) ?_
  rintro status s2 ⟨priv', hdone⟩
  refine (resolveOut_spec hp hstream status s2).mono ?_
  rintro res s3 ⟨rfl, hst, hclosed, hfreed⟩
  have hnew : s.live priv'.cluster_read_stream = none := by
    rw [hdone.cluster_stream]
    exact hprep.new
  have hat : PrivateAt (freed s2 stream) p priv' := by
    refine hdone.private_data.closed hst ?_ ?_
    · rw [hdone.cluster_stream]
      exact hprep.cluster_ne
    · rw [hdone.fat_stream]
      exact hprep.fat_ne
  have hdrive : s2.drive = s.drive := hdone.drive.trans hprep.drive
  have hdisk : s2.disk = { filesystem := some .fat16, fs_private := p } := hdone.disk.trans hprep.disk
  obtain ⟨st, hst⟩ := hat.cluster_stream
  rcases lt_or_ge res 0 with hneg | hpos
  · obtain rfl := hfreed hneg
    have hcp : priv'.cluster_read_stream ≠ p := by
      intro heq
      rw [heq, hat.private_data] at hst
      cases hst
    exact ⟨hdrive, hdone.status, fun _ => ⟨_, st, hnew, (freed_live_of_ne _ hcp).trans hst⟩,
      fun h => absurd hneg (not_lt.mpr h), fun _ => rfl⟩
  · obtain rfl := hclosed hpos
    exact ⟨hdrive, hdone.status, fun _ => ⟨_, st, hnew, hst⟩,
      fun _ => ⟨p, priv', hdisk, hat, hdone.root hpos⟩, fun h => absurd h (not_lt.mpr hpos)⟩

/-! ## Failures -/

/-- What a failure of `fat16_resolve` is to leave: a negative code, a disk without a file system, and the
live allocations of before. -/
def CleansUp (s : Kernel) : Prop :=
  Total fat16Resolve s fun res s' => res < 0 ∧
    s'.disk = { filesystem := none, fs_private := 0 } ∧
    ∀ ptr, (s'.live ptr).isSome = (s.live ptr).isSome

/-- With at most one free block there is one for the private data, and none for a stream. -/
theorem fat16Resolve_cleansUp {s : Kernel} (hwf : s.WF) (hfull : freeCount s.heap < 2) : CleansUp s := by
  obtain ⟨p, stream, s1, hrun, ⟨-, priv, hprep⟩ | ⟨rfl, hstarved⟩⟩ := resolvePrivate_spec hwf
  · have hroom := hprep.room
    omega
  refine (fat16Resolve_starved hrun hstarved).mono ?_
  rintro res s' ⟨rfl, hend⟩
  refine ⟨by decide, hend.disk, fun ptr => ?_⟩
  rw [hend.live]
  by_cases hptr : ptr = p
  · rw [hptr, Function.update_self, hstarved.new]
  · rw [Function.update_of_ne hptr, hstarved.only hfull ptr hptr]

/-- **When `fat16_resolve` fails and cleans up**: with two free blocks or more, one of the streams of the
private data is left, whatever has failed. -/
theorem fat16Resolve_cleansUp_iff {s : Kernel} (hwf : s.WF) : CleansUp s ↔ freeCount s.heap < 2 := by
  refine ⟨?_, fat16Resolve_cleansUp hwf⟩
  rintro ⟨res, s', hrun, -, -, hlive⟩
  by_contra hroom
  obtain ⟨q, st, hfree, hst⟩ := (fat16Resolve_end hwf res s' hrun).stream (not_lt.mp hroom)
  have hq := hlive q
  rw [hfree, hst] at hq
  cases hq

/-- With one free block the private data are made and freed again. -/
theorem fat16Resolve_oneBlock : freeCount (bareKernel 1).heap = 1 ∧ CleansUp (bareKernel 1) := by
  have hcount := bareKernel_freeCount (by decide : 1 ≤ 25600)
  exact ⟨hcount, (fat16Resolve_cleansUp_iff (bareKernel_wf 1)).mpr (by omega)⟩

/-- The volume with one file, but no signature in the boot sector. -/
def foreignKernel : Kernel :=
  { oneFileKernel 600 (fun _ => 0) (fun _ _ => 0) 0 with
    drive := fun _ _ => some fun _ => 0 }

theorem foreignKernel_live :
    foreignKernel.live = (oneFileKernel 600 (fun _ => 0) (fun _ _ => 0) 0).live := rfl

/-- A foreign boot sector is refused and the disk is cleared, but the blocks 6, 7 and 8, free before, hold
the streams. -/
theorem fat16Resolve_leaves_streams :
    foreignKernel.live (blockAddress 6) = none ∧
    (Total fat16Resolve foreignKernel fun res s' => res = - EFSNOTUS ∧
      s'.disk.filesystem = none ∧ s'.disk.fs_private = 0 ∧
      (s'.live (blockAddress 6)).isSome = true ∧ (s'.live (blockAddress 7)).isSome = true ∧
      (s'.live (blockAddress 8)).isSome = true) ∧ ¬ CleansUp foreignKernel := by
  have hfree : foreignKernel.live (blockAddress 6) = none := by
    rw [foreignKernel_live, oneFileKernel_live (by decide)]
    rfl
  have hrun : Total fat16Resolve foreignKernel fun res s' => res = - EFSNOTUS ∧
      s'.disk.filesystem = none ∧ s'.disk.fs_private = 0 ∧
      (s'.live (blockAddress 6)).isSome = true ∧ (s'.live (blockAddress 7)).isSome = true ∧
      (s'.live (blockAddress 8)).isSome = true := by decide +kernel
  refine ⟨hfree, hrun, ?_⟩
  rintro ⟨res, s', hresolve, -, -, hlive⟩
  obtain ⟨-, -, -, hsix, -⟩ := (total_of_some hresolve).mp hrun
  have hlive6 := hlive (blockAddress 6)
  rw [hsix, hfree] at hlive6
  cases hlive6

end RasOS
