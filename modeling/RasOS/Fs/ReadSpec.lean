import RasOS.Fs.Volume

set_option autoImplicit false

/-! # What a read of a file delivers

A read goes piece by piece, a piece being as long as a cluster at most. Piece `k` of a read at
offset `o` begins in the cluster with index `o / size + k` of the chain, as far into it as `o` is
into its own, and takes the bytes that follow on the disk (`readAddr`). -/

namespace RasOS

open Machine

variable {image : Nat → Sector} {priv : FatPrivate}

/-- Where byte `r` of a read at offset `o` comes from. -/
def readAddr (image : Nat → Sector) (first o r : Nat) : Nat :=
  let h := bootHeader image
  clusterPos h (chainCluster image first (o / clusterSize h + r / clusterSize h)) +
    o % clusterSize h + r % clusterSize h

/-- The bytes of a read of `n` bytes at offset `o`. -/
def readBytes (image : Nat → Sector) (first o n : Nat) : List UInt8 :=
  slice (fun r => diskByte image (readAddr image first o r)) 0 n

/-- The read stays in the data area and at positions an `int` can hold. -/
def ReadInRange (image : Nat → Sector) (first o n : Nat) : Prop :=
  ∀ r, r < n →
    2 ≤ chainCluster image first (o / clusterSize (bootHeader image) +
      r / clusterSize (bootHeader image)) ∧ readAddr image first o r < 2 ^ 31

instance (image : Nat → Sector) (first o n : Nat) : Decidable (ReadInRange image first o n) :=
  inferInstanceAs (Decidable (∀ r < n, _ ∧ _))

/-- The pieces of the read that the walk gets to do so. -/
def FollowedInRange (image : Nat → Sector) (first o n : Nat) : Prop :=
  ∀ r, r < n → LinksFollowed image first (o / clusterSize (bootHeader image) +
    r / clusterSize (bootHeader image)) →
      2 ≤ chainCluster image first (o / clusterSize (bootHeader image) +
        r / clusterSize (bootHeader image)) ∧ readAddr image first o r < 2 ^ 31

theorem ReadInRange.followed {first o n : Nat} (h : ReadInRange image first o n) :
    FollowedInRange image first o n := fun r hr _ => h r hr

/-- The index in the chain of the cluster where the last piece of a read begins. -/
def lastIndex (image : Nat → Sector) (o n : Nat) : Nat :=
  o / clusterSize (bootHeader image) + (n - 1) / clusterSize (bootHeader image)

@[simp] theorem readBytes_length (first o n : Nat) : (readBytes image first o n).length = n :=
  slice_length ..

theorem clusterSize_le (h : FatHeader) : clusterSize h < 2 ^ 17 := by
  have hlt := h.sectors_per_cluster.toNat_lt
  rw [clusterSize, RASOS_SECTOR_SIZE]
  omega

/-! ## Cutting off the first piece -/

section Pieces

variable {first o n : Nat}

/-- The rest of a read is a read at the next offset. -/
theorem readAddr_next (hcs : 0 < clusterSize (bootHeader image)) (r : Nat) :
    readAddr image first (o + clusterSize (bootHeader image)) r
      = readAddr image first o (clusterSize (bootHeader image) + r) := by
  simp only [readAddr]
  rw [Nat.add_div_right _ hcs, Nat.add_mod_right, Nat.add_div_left _ hcs, Nat.add_mod_left,
    Nat.succ_add, Nat.add_succ]

/-- Inside the first piece the bytes are adjacent on the disk. -/
theorem readAddr_first {r : Nat} (hr : r < clusterSize (bootHeader image)) :
    readAddr image first o r = readAddr image first o 0 + r := by
  simp only [readAddr]
  simp only [Nat.div_eq_of_lt hr, Nat.mod_eq_of_lt hr, Nat.zero_div, Nat.zero_mod, Nat.add_zero]

theorem readBytes_first (hn : n ≤ clusterSize (bootHeader image)) :
    slice (diskByte image) (readAddr image first o 0) n = readBytes image first o n := by
  apply slice_congr
  intro i hi
  rw [← readAddr_first (by omega), Nat.zero_add]

theorem readBytes_cut (hcs : 0 < clusterSize (bootHeader image))
    (hn : clusterSize (bootHeader image) < n) :
    readBytes image first o (clusterSize (bootHeader image)) ++
      readBytes image first (o + clusterSize (bootHeader image))
        (n - clusterSize (bootHeader image)) = readBytes image first o n := by
  have hshift : readBytes image first (o + clusterSize (bootHeader image))
      (n - clusterSize (bootHeader image))
      = slice (fun r => diskByte image (readAddr image first o r)) (0 + clusterSize (bootHeader image))
        (n - clusterSize (bootHeader image)) := by
    apply slice_congr
    intro i hi
    simp only [Nat.zero_add]
    rw [readAddr_next hcs]
  rw [hshift, readBytes, slice_append, Nat.add_sub_cancel' (Nat.le_of_lt hn), readBytes]

theorem lastIndex_next (hcs : 0 < clusterSize (bootHeader image))
    (hn : clusterSize (bootHeader image) < n) :
    lastIndex image (o + clusterSize (bootHeader image)) (n - clusterSize (bootHeader image))
      = lastIndex image o n := by
  have hpred : n - 1 = n - clusterSize (bootHeader image) - 1 + clusterSize (bootHeader image) := by
    omega
  rw [lastIndex, lastIndex, Nat.add_div_right _ hcs, hpred, Nat.add_div_right _ hcs]
  omega

theorem FollowedInRange.next (hcs : 0 < clusterSize (bootHeader image))
    (h : FollowedInRange image first o n) :
    FollowedInRange image first (o + clusterSize (bootHeader image))
      (n - clusterSize (bootHeader image)) := by
  intro r hr
  have hr' := h (clusterSize (bootHeader image) + r) (by omega)
  rw [← readAddr_next hcs, Nat.add_div_left _ hcs] at hr'
  rw [Nat.add_div_right _ hcs, Nat.succ_add, ← Nat.add_succ]
  exact hr'

end Pieces

/-! ## The recursion -/

theorem Layout.clusterSize_pos (h : Layout image priv) : 0 < clusterSize (bootHeader image) := by
  have hspc := h.spc
  rw [clusterSize, RASOS_SECTOR_SIZE]
  omega

theorem Layout.sizeOfClusterBytes (h : Layout image priv) :
    sizeOfClusterBytes priv = clusterSize (bootHeader image) := by
  rw [RasOS.sizeOfClusterBytes, h.header, clusterSize]
  push_cast
  rfl

/-- `starting_pos` of a piece. -/
theorem Layout.startingPos (h : Layout image priv) {cluster within : Nat} (hc : 2 ≤ cluster)
    (hpos : clusterPos (bootHeader image) cluster + within < 2 ^ 31) :
    wrap (fat16ClusterToSector priv cluster * RASOS_SECTOR_SIZE + within)
      = (clusterPos (bootHeader image) cluster + within : Nat) := by
  have hsector : fat16ClusterToSector priv cluster
      = (dataSector (bootHeader image) +
        (cluster - 2) * (bootHeader image).sectors_per_cluster.toNat : Nat) := by
    rw [fat16ClusterToSector, h.data_sector, h.header]
    rw [clusterPos, RASOS_SECTOR_SIZE] at hpos
    have hcast : ((cluster : Int) - 2) = (cluster - 2 : Nat) := by omega
    rw [hcast, ← Nat.cast_mul, ← Nat.cast_add]
    exact wrap_of_range (by omega) (by omega)
  have hcast : (fat16ClusterToSector priv cluster * (RASOS_SECTOR_SIZE : Int) + within)
      = (clusterPos (bootHeader image) cluster + within : Nat) := by
    rw [hsector, clusterPos]
    push_cast
    rfl
  rw [hcast]
  exact wrap_of_range (by omega) (by omega)

/-- The cluster a piece begins in. -/
theorem fat16GetClusterForOffset_spec (h : Layout image priv) {first o : Nat}
    (hfirst : EntryInRange image first) :
    Reads image priv (fat16GetClusterForOffset first o) fun r =>
      (LinksFollowed image first (o / clusterSize (bootHeader image)) →
        r = chainCluster image first (o / clusterSize (bootHeader image))) ∧
      (¬ LinksFollowed image first (o / clusterSize (bootHeader image)) → r = - EIO) := by
  have hpos := h.clusterSize_pos
  have hcount : ((o : Int).tdiv (sizeOfClusterBytes priv)).toNat
      = o / clusterSize (bootHeader image) := by
    rw [h.sizeOfClusterBytes, Int.tdiv_eq_ediv_of_nonneg (Int.natCast_nonneg o), ← Int.natCast_div,
      Int.toNat_natCast]
  refine Reads.private_data ?_
  dsimp only
  rw [if_neg (by rw [h.sizeOfClusterBytes]; omega), hcount]
  exact getClusterLoop_spec h.fat_stream h.header _ _ hfirst

/-- **A read delivers the bytes of its pieces**, or fails when the walk to one of them does. By
induction on the pieces. -/
theorem fat16ReadInternalFromStream_spec (h : Layout image priv) {first : Nat}
    (hfirst : first < 2 ^ 23) :
    ∀ (fuel o n : Nat), 0 < n → n ≤ fuel → o + n < 2 ^ 31 → FollowedInRange image first o n →
      Reads image priv (fat16ReadInternalFromStream priv.cluster_read_stream first fuel o n) fun r =>
        (LinksFollowed image first (lastIndex image o n) → r = (OK, readBytes image first o n)) ∧
        (¬ LinksFollowed image first (lastIndex image o n) → r.1 < 0) := by
  intro fuel
  induction fuel with
  | zero => intro o n hn hle; omega
  | succ fuel ih =>
      intro o n hn hle hend hrange
      have hcs := h.clusterSize_pos
      have hcs' := clusterSize_le (bootHeader image)
      have hbegin : o / clusterSize (bootHeader image) ≤ lastIndex image o n := Nat.le_add_right _ _
      refine Reads.private_data (Reads.bind
        (fat16GetClusterForOffset_spec h (entryInRange_of_lt hfirst)) ?_)
      rintro cluster ⟨hok, herr⟩
      by_cases hlinks : LinksFollowed image first (o / clusterSize (bootHeader image))
      · rw [hok hlinks, if_neg (by omega)]
        have hpiece : ∀ r, r < clusterSize (bootHeader image) → LinksFollowed image first
            (o / clusterSize (bootHeader image) + r / clusterSize (bootHeader image)) := by
          intro r hr
          rw [Nat.div_eq_of_lt hr, Nat.add_zero]
          exact hlinks
        -- the place of the first byte
        have hwithin : (o : Int).tmod (sizeOfClusterBytes priv)
            = (o % clusterSize (bootHeader image) : Nat) := by
          rw [h.sizeOfClusterBytes, Int.tmod_eq_emod_of_nonneg (Int.natCast_nonneg o),
            Int.natCast_mod]
        obtain ⟨hge, hlt⟩ := hrange 0 hn (hpiece 0 hcs)
        have hstart : readAddr image first o 0 = clusterPos (bootHeader image)
            (chainCluster image first (o / clusterSize (bootHeader image))) +
              o % clusterSize (bootHeader image) := by
          simp only [readAddr, Nat.zero_div, Nat.zero_mod, Nat.add_zero]
        rw [Nat.zero_div, Nat.add_zero] at hge
        have hpos := h.startingPos hge (hstart ▸ hlt)
        rw [← hstart] at hpos
        dsimp only
        rw [hwithin, hpos, h.sizeOfClusterBytes]
        by_cases hlong : clusterSize (bootHeader image) < n
        · rw [if_pos (by omega)]
          have hend' := (hrange (clusterSize (bootHeader image) - 1) (by omega) (hpiece _ (by omega))).2
          rw [readAddr_first (by omega)] at hend'
          refine Reads.seek_read (fun s hm => hm.cluster_stream) hlt (by omega) (by omega) (if_neg (not_not.mpr rfl)) ?_
          have hoffset : wrap ((o : Int) + clusterSize (bootHeader image))
              = (o + clusterSize (bootHeader image) : Nat) := by
            rw [← Nat.cast_add]
            exact wrap_of_range (by omega) (by omega)
          have hrest : (n : Int) - clusterSize (bootHeader image)
              = (n - clusterSize (bootHeader image) : Nat) := by omega
          have hend2 : o + clusterSize (bootHeader image) + (n - clusterSize (bootHeader image))
              < 2 ^ 31 := by
            rw [Nat.add_assoc, Nat.add_sub_cancel' (Nat.le_of_lt hlong)]
            exact hend
          dsimp only
          rw [if_neg (by decide), if_pos (by omega), hoffset, hrest]
          refine Reads.bind (ih _ _ (Nat.sub_pos_of_lt hlong) (by omega) hend2 (hrange.next hcs)) ?_
          rintro ⟨res, rest⟩ ⟨hrestok, hresterr⟩
          rw [lastIndex_next hcs hlong] at hrestok hresterr
          refine Reads.pure ⟨fun hl => ?_, fun hl => hresterr hl⟩
          obtain ⟨rfl, rfl⟩ := Prod.mk.inj (hrestok hl)
          rw [readBytes_first (Nat.le_refl _), readBytes_cut hcs hlong]
        · rw [if_neg (by omega)]
          have hend' := (hrange (n - 1) (by omega) (hpiece _ (by omega))).2
          rw [readAddr_first (by omega)] at hend'
          refine Reads.seek_read (fun s hm => hm.cluster_stream) hlt (by omega) (by omega) (if_neg (not_not.mpr rfl)) ?_
          have hlast : lastIndex image o n = o / clusterSize (bootHeader image) := by
            rw [lastIndex, Nat.div_eq_of_lt (a := n - 1) (by omega), Nat.add_zero]
          dsimp only
          rw [if_neg (by decide), if_neg (by omega), hlast, readBytes_first (by omega)]
          exact Reads.pure ⟨fun _ => rfl, fun hl => absurd hlinks hl⟩
      · rw [herr hlinks, if_pos (by decide)]
        exact Reads.pure ⟨fun hl => absurd (hl.mono hbegin) hlinks, fun _ => by decide⟩

end RasOS
