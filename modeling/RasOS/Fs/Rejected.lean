import RasOS.Fs.OneFile
import RasOS.Fs.Cursor

set_option autoImplicit false

/-! # Calls on what is not open

`fread`, `fstat` and `fclose` refuse a number that no open file has: they look the descriptor up and
test it. `fseek` looks it up too, but tests the number: for `0` it returns a positive code, for every
other number it follows the null pointer. -/

namespace RasOS

open Machine

/-- There is an open file with the number `fd`. -/
def DenotesOpen (s : Kernel) (fd : Int) : Prop :=
  1 ≤ fd ∧ fd ≤ RASOS_MAX_FILEDESCRIPTORS ∧ s.file_descriptors (fd - 1).toNat ≠ 0

/-- A call that names a descriptor. -/
inductive DescriptorCall
  | use (call : FileCall)
  | fclose

/-- The status the call returns. -/
def DescriptorCall.run (fd : Int) : DescriptorCall → KernelM Int
  | .use call => call.run fd
  | .fclose => RasOS.fclose fd

/-- The program returns a negative error and leaves the state as it is. -/
def Rejects (x : KernelM Int) (s : Kernel) : Prop := Total x s fun res s' => res < 0 ∧ s' = s

theorem rejects_pure {res : Int} {s : Kernel} (h : res < 0) :
    Rejects (Pure.pure res) s :=
  total_pure.mpr ⟨h, rfl⟩

theorem rejects_bind_of_some {α : Type} {x : KernelM α} {f : α → KernelM Int} {s : Kernel} {a : α}
    (h : x s = some (a, s)) : Rejects (x >>= f) s ↔ Rejects (f a) s :=
  total_bind_of_some h

/-- The descriptor of a number that is not open is null. -/
theorem fileGetDescriptor_null {s : Kernel} {fd : Int} (h : ¬ DenotesOpen s fd) :
    fileGetDescriptor fd s = some (0, s) := by
  unfold fileGetDescriptor
  by_cases hrange : fd ≤ 0 ∨ fd ≥ RASOS_MAX_FILEDESCRIPTORS
  · rw [if_pos hrange]
    rfl
  · rw [if_neg hrange]
    have hslot : s.file_descriptors (fd - 1).toNat = 0 := by
      by_contra hne
      exact h ⟨by omega, by omega, hne⟩
    rw [fetch_apply, hslot]

/-- A seek on what is not open returns a positive code or stops. -/
theorem fseek_not_rejects {s : Kernel} (hwf : s.WF) {fd : Int} (h : ¬ DenotesOpen s fd)
    (offset : Int) (whence : Nat) : ¬ Rejects (fseek fd offset whence) s := by
  unfold fseek
  rw [rejects_bind_of_some (fileGetDescriptor_null h)]
  by_cases hzero : fd = 0
  · rw [if_pos hzero]
    intro hrejects
    have hneg : EINVARG < 0 := (total_pure.mp hrejects).1
    exact absurd hneg (by decide)
  · rw [if_neg hzero]
    intro hrejects
    obtain ⟨desc, hdesc, -⟩ := total_load_iff.mp hrejects
    rw [hwf.live_zero] at hdesc
    cases hdesc

/-- **A number that is not open is refused by every call but a seek.** For every state, every number
without an open file and all arguments: the call returns a negative error, follows no null pointer
and changes nothing, if and only if it is not `fseek`. -/
theorem unopened_rejected_iff {s : Kernel} (hwf : s.WF) {fd : Int} (h : ¬ DenotesOpen s fd)
    (call : DescriptorCall) :
    Rejects (call.run fd) s ↔ ∀ offset whence, call ≠ .use (.fseek offset whence) := by
  have hget := fileGetDescriptor_null h
  rcases call with (⟨out, size, nmemb⟩ | ⟨offset, whence⟩ | _) | _
  · refine iff_of_true ?_ fun _ _ heq => by cases heq
    change Rejects (fread out size nmemb fd) s
    unfold fread
    by_cases hargs : size = 0 ∨ nmemb = 0 ∨ fd < 1
    · rw [if_pos hargs]
      exact rejects_pure (by decide)
    · rw [if_neg hargs, rejects_bind_of_some hget, if_pos rfl]
      exact rejects_pure (by decide)
  · refine iff_of_false (fseek_not_rejects hwf h offset whence) fun hall => ?_
    exact hall offset whence rfl
  · refine iff_of_true ?_ fun _ _ heq => by cases heq
    change Rejects (fstat fd >>= fun r => Pure.pure r.1) s
    have hfstat : fstat fd s = some ((- EINVARG, {}), s) := by
      unfold fstat
      rw [bind_of_some hget, if_pos rfl]
      rfl
    rw [rejects_bind_of_some hfstat]
    exact rejects_pure (by decide)
  · refine iff_of_true ?_ fun _ _ heq => by cases heq
    change Rejects (fclose fd) s
    unfold fclose
    rw [rejects_bind_of_some hget, if_pos rfl]
    exact rejects_pure (by decide)

/-- Nothing is open after the volume has been mounted. -/
theorem oneFileKernel_unopened (fd : Int) :
    ¬ DenotesOpen (oneFileKernel 600 (fun _ => 0) (fun _ _ => 0) 0) fd :=
  fun h => h.2.2 rfl

/-- Closing descriptor 7. -/
theorem unopened_rejected_fclose :
    Rejects (DescriptorCall.fclose.run 7) (oneFileKernel 600 (fun _ => 0) (fun _ _ => 0) 0) ↔
      ∀ offset whence, DescriptorCall.fclose ≠ .use (.fseek offset whence) :=
  unopened_rejected_iff (oneFileKernel_wf (by decide)) (oneFileKernel_unopened 7) .fclose

/-- A seek on descriptor 0 returns 2, on descriptor 3 it never returns. -/
theorem fseek_unopened :
    ¬ DenotesOpen (oneFileKernel 600 (fun _ => 0) (fun _ _ => 0) 0) 0 ∧
    ¬ DenotesOpen (oneFileKernel 600 (fun _ => 0) (fun _ _ => 0) 0) 3 ∧
    Total (fseek 0 0 SEEK_SET) (oneFileKernel 600 (fun _ => 0) (fun _ _ => 0) 0)
      (fun res _ => res = 2) ∧
    fseek 3 0 SEEK_SET (oneFileKernel 600 (fun _ => 0) (fun _ _ => 0) 0) = none ∧
    ¬ Rejects (fseek 0 0 SEEK_SET) (oneFileKernel 600 (fun _ => 0) (fun _ _ => 0) 0) ∧
    ¬ Rejects (fseek 3 0 SEEK_SET) (oneFileKernel 600 (fun _ => 0) (fun _ _ => 0) 0) := by
  have hwf : (oneFileKernel 600 (fun _ => 0) (fun _ _ => 0) 0).WF := oneFileKernel_wf (by decide)
  refine ⟨oneFileKernel_unopened 0, oneFileKernel_unopened 3, ⟨2, _, rfl, rfl⟩, ?_,
    fseek_not_rejects hwf (oneFileKernel_unopened 0) 0 SEEK_SET,
    fseek_not_rejects hwf (oneFileKernel_unopened 3) 0 SEEK_SET⟩
  have hnull : load fileDescriptorK 0 (oneFileKernel 600 (fun _ => 0) (fun _ _ => 0) 0) = none := by
    rw [load, Kind.read, hwf.live_zero]
    rfl
  unfold fseek
  rw [bind_of_some (fileGetDescriptor_null (oneFileKernel_unopened 3)), if_neg (by decide),
    bind_of_none hnull]

end RasOS
