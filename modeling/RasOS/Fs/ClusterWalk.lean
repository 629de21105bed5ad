import RasOS.Fs.OneFile
import RasOS.Fs.ReadSpec

set_option autoImplicit false

/-! # The markers of the allocation table

A FAT16 link is a data cluster, `0x0002` to `0xFFEF`, or a marker. The walk along a chain tests for
the markers of FAT12: it turns five data clusters away and follows every marker but the free one. -/

namespace RasOS

open Machine

variable {image : Nat → Sector} {priv : FatPrivate}

/-- A link to a data cluster. -/
def DataLink (link : Nat) : Prop := 0x0002 ≤ link ∧ link ≤ 0xFFEF

instance (link : Nat) : Decidable (DataLink link) := inferInstanceAs (Decidable (_ ∧ _))

/-- One of the first `n` links of the chain is not a data cluster: the chain ends before its `n`-th
cluster. -/
def ChainEnds (image : Nat → Sector) (first n : Nat) : Prop :=
  ∃ i, i < n ∧ ¬ DataLink (chainCluster image first (i + 1))

/-- One of the first `n` links is one the walk turns away. -/
def WalkEnds (image : Nat → Sector) (first n : Nat) : Prop :=
  ∃ i, i < n ∧ RejectedLink (chainCluster image first (i + 1))

instance (first n : Nat) : Decidable (ChainEnds image first n) :=
  inferInstanceAs (Decidable (∃ i, i < n ∧ _))

theorem linksFollowed_iff {first n : Nat} : LinksFollowed image first n ↔ ¬ WalkEnds image first n := by
  unfold LinksFollowed WalkEnds
  simp

/-- What the walk is for: the cluster of a byte when the chain is long enough, a negative code exactly
when it is not. -/
def FindsCluster (image : Nat → Sector) (s : Kernel) (first o : Nat) : Prop :=
  let n := o / clusterSize (bootHeader image)
  Total (fat16GetClusterForOffset first o) s fun r _ =>
    (¬ ChainEnds image first n → r = chainCluster image first n) ∧
    (r < 0 ↔ ChainEnds image first n)

instance (s : Kernel) (first o : Nat) : Decidable (FindsCluster image s first o) :=
  inferInstanceAs (Decidable (Total _ _ _))

/-- **The walk is right exactly when both kinds of markers agree on the way**: among the links up to
the cluster asked for there is one it turns away if and only if there is one that is not a data
cluster. -/
theorem fat16GetClusterForOffset_iff {s : Kernel} (hm : Mounted s image priv)
    (hspc : 0 < (bootHeader image).sectors_per_cluster.toNat) {first : Nat}
    (hfirst : EntryInRange image first) (o : Nat) :
    FindsCluster image s first o ↔
      (WalkEnds image first (o / clusterSize (bootHeader image)) ↔
        ChainEnds image first (o / clusterSize (bootHeader image))) := by
  have hlayout := hm.layout hspc
  obtain ⟨r, s', hrun, ⟨hok, herr⟩, -, -⟩ := fat16GetClusterForOffset_spec (o := o) hlayout hfirst s hm
  rw [linksFollowed_iff] at hok herr
  unfold FindsCluster
  dsimp only
  generalize o / clusterSize (bootHeader image) = n at hok herr ⊢
  rw [total_of_some hrun]
  -- the sign of the result says whether the walk has ended
  have hsign : r < 0 ↔ WalkEnds image first n := by
    by_cases hwalk : WalkEnds image first n
    · have hr := herr (not_not.mpr hwalk)
      rw [hr]
      exact iff_of_true (by decide) hwalk
    · have hr := hok hwalk
      rw [hr]
      exact iff_of_false (by omega) hwalk
  constructor
  · rintro ⟨-, hends⟩
    exact hsign.symm.trans hends
  · intro hagree
    refine ⟨fun hlong => hok ?_, hsign.trans hagree⟩
    rw [hagree]
    exact hlong

/-! ## A volume with a long chain -/

/-- A table in which cluster 2 links to `link`, and every other cluster to cluster 3. -/
def linkTable (link : UInt16) : Sector := fun i =>
  if i = 4 then link.toUInt8
  else if i = 5 then (link >>> 8).toUInt8
  else if i % 2 = 0 then 3
  else 0

/-- The walk to the second cluster of a chain of data clusters. -/
theorem fat16GetClusterForOffset_second :
    FindsCluster (oneFileImage 600 (linkTable 3) fun _ _ => 0)
        (oneFileKernel 600 (linkTable 3) (fun _ _ => 0) 0) 2 512 ↔
      (WalkEnds (oneFileImage 600 (linkTable 3) fun _ _ => 0) 2
          (512 / clusterSize (bootHeader (oneFileImage 600 (linkTable 3) fun _ _ => 0))) ↔
        ChainEnds (oneFileImage 600 (linkTable 3) fun _ _ => 0) 2
          (512 / clusterSize (bootHeader (oneFileImage 600 (linkTable 3) fun _ _ => 0)))) :=
  fat16GetClusterForOffset_iff (oneFileKernel_mounted (by decide)) (by decide +kernel)
    (entryInRange_of_lt (by decide)) 512

/-- Cluster `0xFF8` is a data cluster, and the walk takes it for the end of the chain; `0xFFFF` is the
end of the chain, and the walk takes it for a cluster. -/
theorem fat16GetClusterForOffset_markers :
    (Total (fat16GetClusterForOffset 2 512) (oneFileKernel 600 (linkTable 0xFF8) (fun _ _ => 0) 0)
      fun r _ => r = - EIO) ∧
    (Total (fat16GetClusterForOffset 2 512) (oneFileKernel 600 (linkTable 0xFFFF) (fun _ _ => 0) 0)
      fun r _ => r = 0xFFFF) ∧
    ¬ FindsCluster (oneFileImage 600 (linkTable 0xFF8) fun _ _ => 0)
      (oneFileKernel 600 (linkTable 0xFF8) (fun _ _ => 0) 0) 2 512 ∧
    ¬ FindsCluster (oneFileImage 600 (linkTable 0xFFFF) fun _ _ => 0)
      (oneFileKernel 600 (linkTable 0xFFFF) (fun _ _ => 0) 0) 2 512 := by
  refine ⟨?_, ?_, ?_, ?_⟩ <;> decide +kernel

end RasOS
