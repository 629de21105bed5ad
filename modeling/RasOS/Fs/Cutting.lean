import RasOS.Fs.WholeFile

set_option autoImplicit false

/-! # Cutting a read into records

A piece of a read is as long as a cluster, but it begins where its record does: when that is inside
a cluster, the end of the piece lies behind the cluster, and is taken from the cluster that follows
on the disk instead of the one that follows in the chain. -/

namespace RasOS

open Machine

variable {image : Nat → Sector} {priv : FatPrivate}

/-- In a read in records of `size` bytes, byte `j` belongs to a piece that begins in the cluster
before the one the byte belongs to. -/
def Straddles (image : Nat → Sector) (size j : Nat) : Prop :=
  clusterSize (bootHeader image) ≤
    (j / size * size) % clusterSize (bootHeader image) + j % size % clusterSize (bootHeader image)

/-- Behind the cluster where the piece of byte `j` begins, the disk holds the byte that the next
cluster of the chain holds. -/
def SameBehind (image : Nat → Sector) (first j : Nat) : Prop :=
  let h := bootHeader image
  diskByte image (clusterPos h (chainCluster image first (j / clusterSize h - 1)) +
      clusterSize h + j % clusterSize h)
    = diskByte image (clusterPos h (chainCluster image first (j / clusterSize h)) +
      j % clusterSize h)

section Bytes

variable {first size j : Nat}

/-- A byte whose piece begins in its own cluster comes from its own place. -/
theorem recordAddr_of_not_straddles (hcs : 0 < clusterSize (bootHeader image))
    (h : ¬ Straddles image size j) :
    recordAddr image first size j = readAddr image first 0 j := by
  have hj : j / size * size + j % size = j := Nat.div_add_mod' j size
  unfold Straddles at h
  have hdiv : j / clusterSize (bootHeader image)
      = j / size * size / clusterSize (bootHeader image) +
        j % size / clusterSize (bootHeader image) := by
    conv_lhs => rw [← hj]
    rw [Nat.add_div hcs, if_neg h, Nat.add_zero]
  have hmod : j % clusterSize (bootHeader image)
      = j / size * size % clusterSize (bootHeader image) +
        j % size % clusterSize (bootHeader image) := by
    conv_lhs => rw [← hj]
    exact Nat.add_mod_of_add_mod_lt (not_le.mp h)
  rw [readAddr_zero, recordAddr, hdiv, hmod]
  simp only [readAddr]
  omega

/-- A byte whose piece begins in the cluster before comes from behind that cluster. -/
theorem recordAddr_of_straddles (hcs : 0 < clusterSize (bootHeader image))
    (h : Straddles image size j) :
    recordAddr image first size j = clusterPos (bootHeader image)
      (chainCluster image first (j / clusterSize (bootHeader image) - 1)) +
        clusterSize (bootHeader image) + j % clusterSize (bootHeader image) := by
  have hj : j / size * size + j % size = j := Nat.div_add_mod' j size
  unfold Straddles at h
  have hdiv : j / clusterSize (bootHeader image) - 1
      = j / size * size / clusterSize (bootHeader image) +
        j % size / clusterSize (bootHeader image) := by
    conv_lhs => rw [← hj]
    rw [Nat.add_div hcs, if_pos h, Nat.add_sub_cancel]
  have hmod : j % clusterSize (bootHeader image) + clusterSize (bootHeader image)
      = j / size * size % clusterSize (bootHeader image) +
        j % size % clusterSize (bootHeader image) := by
    conv_lhs => rw [← hj]
    exact Nat.add_mod_add_of_le_add_mod h
  rw [recordAddr, hdiv]
  simp only [readAddr]
  omega

/-- The bytes of a read in records are those of the file exactly when what follows the clusters of
the straddling pieces is what follows in the chain. -/
theorem recordBytes_eq_iff (hcs : 0 < clusterSize (bootHeader image)) (n : Nat) :
    recordBytes image first size 0 n = readBytes image first 0 n ↔
      ∀ j, j < n → Straddles image size j → SameBehind image first j := by
  rw [recordBytes, readBytes, slice_eq_iff]
  refine forall_congr' fun j => imp_congr_right fun _ => ?_
  rw [Nat.zero_add]
  by_cases h : Straddles image size j
  · rw [recordAddr_of_straddles hcs h, readAddr_zero]
    exact ⟨fun heq _ => heq, fun heq => heq h⟩
  · rw [recordAddr_of_not_straddles hcs h]
    exact ⟨fun _ hs => absurd hs h, fun _ => rfl⟩

end Bytes

/-- A record of a file in range is in range, when the bytes it takes are. -/
theorem readInRange_record (hcs : 0 < clusterSize (bootHeader image)) {first size n i : Nat}
    (hsize : 0 < size) (hi : i < n)
    (hclusters : ∀ j, j < n * size →
      2 ≤ chainCluster image first (j / clusterSize (bootHeader image)))
    (hrange : ∀ j, j < n * size → recordAddr image first size j < 2 ^ 31) :
    ReadInRange image first (i * size) size := by
  intro r hr
  have hend : i * size + r < n * size := by
    have hle : (i + 1) * size ≤ n * size := Nat.mul_le_mul_right size hi
    rw [Nat.succ_mul] at hle
    omega
  have hdiv : (i * size + r) / size = i := by
    rw [Nat.mul_comm, Nat.mul_add_div hsize, Nat.div_eq_of_lt hr, Nat.add_zero]
  have hmod : (i * size + r) % size = r := by
    rw [Nat.mul_comm, Nat.mul_add_mod, Nat.mod_eq_of_lt hr]
  constructor
  · -- the cluster is that of an earlier byte of the file
    have hle : (i * size / clusterSize (bootHeader image) + r / clusterSize (bootHeader image)) *
        clusterSize (bootHeader image) ≤ i * size + r := by
      have h1 := Nat.div_mul_le_self (i * size) (clusterSize (bootHeader image))
      have h2 := Nat.div_mul_le_self r (clusterSize (bootHeader image))
      rw [Nat.add_mul]
      omega
    have hcluster := hclusters _ (lt_of_le_of_lt hle hend)
    rw [Nat.mul_div_cancel _ hcs] at hcluster
    exact hcluster
  · have haddr := hrange _ hend
    rw [recordAddr, hdiv, hmod] at haddr
    exact haddr

/-- The walk to the end of the file gets to every record. -/
theorem recordsFollowed_of_linksFollowed {first size n : Nat} (hsize : 0 < size)
    (h : LinksFollowed image first (lastIndex image 0 (n * size))) :
    RecordsFollowed image first size 0 n := by
  intro k _ hk
  refine h.mono ?_
  have hle : (k + 1) * size ≤ n * size := Nat.mul_le_mul_right size hk
  rw [Nat.succ_mul] at hle
  have hsum : k * size / clusterSize (bootHeader image) + (size - 1) / clusterSize (bootHeader image)
      ≤ (k * size + (size - 1)) / clusterSize (bootHeader image) := Nat.div_add_div_le_add_div
  have hmono : (k * size + (size - 1)) / clusterSize (bootHeader image)
      ≤ (n * size - 1) / clusterSize (bootHeader image) := Nat.div_le_div_right (by omega)
  rw [lastIndex, lastIndex, Nat.zero_div, Nat.zero_add]
  exact hsum.trans hmono

/-- **When a read does not depend on how it is cut.** On a descriptor just opened, for a file with
its clusters and the positions read in range: reading in records and in one piece delivers the
same bytes if and only if the descriptor is not the last of the table, every link up to the last
byte is followed, and the straddling pieces happen to find the right bytes behind their cluster. -/
theorem fread_cut_iff {k0 k1 : Kernel} {filename mode entry : List UInt8} {fd : Int}
    {out size nmemb : UInt32} (hm : Mounted k0 image priv)
    (hspc : 0 < (bootHeader image).sectors_per_cluster.toNat)
    (hopen : fopen filename mode k0 = some (fd, k1)) (hfd : 0 < fd) (hfile : entryOf k1 fd = some entry)
    (hsize : 0 < size.toNat) (hnmemb : 0 < nmemb.toNat)
    (hlt : nmemb.toNat * size.toNat < 2 ^ 31)
    (hclusters : ∀ j, j < nmemb.toNat * size.toNat →
      2 ≤ chainCluster image (firstCluster entry) (j / clusterSize (bootHeader image)))
    (hrange : ∀ j, j < nmemb.toNat * size.toNat →
      readAddr image (firstCluster entry) 0 j < 2 ^ 31 ∧
        recordAddr image (firstCluster entry) size.toNat j < 2 ^ 31)
    (hout : out ≠ 0) (hfit : out.toNat + nmemb.toNat * size.toNat ≤ 2 ^ 32) :
    (∃ bytes, bytes.length = nmemb.toNat * size.toNat ∧
      Delivers (fread out size nmemb fd) k1 out nmemb.toNat bytes ∧
      Delivers (fread out (nmemb * size) 1 fd) k1 out 1 bytes) ↔
    (∃ slot, slot < 511 ∧ k0.file_descriptors slot = 0) ∧
      LinksFollowed image (firstCluster entry) (lastIndex image 0 (nmemb.toNat * size.toNat)) ∧
      ∀ j, j < nmemb.toNat * size.toNat → Straddles image size.toNat j →
        SameBehind image (firstCluster entry) j := by
  have hlayout := hm.layout hspc
  have hcs := hlayout.clusterSize_pos
  have hprod : (nmemb * size).toNat = nmemb.toNat * size.toNat := by
    rw [UInt32.toNat_mul]
    exact Nat.mod_eq_of_lt (by omega)
  have hpos : 0 < nmemb.toNat * size.toNat := Nat.mul_pos hnmemb hsize
  obtain ⟨item, hopened⟩ := fopen_spec filename mode k0 hm.wf fd k1 hopen hfd
  have hm1 := hm.frame (keepsRest_rules.fopen filename mode k0 fd k1 hopen)
  have hstart := (Since.refl hm1.wf).atStart hopened hfile
  obtain ⟨slot, hslot, rfl, hfree, -⟩ := hopened
  by_cases hlast : slot < 511
  · have hfree' : ∃ slot, slot < 511 ∧ k0.file_descriptors slot = 0 := ⟨slot, hlast, hfree.1⟩
    have hfirst : firstCluster entry < 2 ^ 23 := by
      have h0 := (hrange 0 hpos).1
      rw [readAddr_zero, Nat.zero_div, Nat.zero_mod, Nat.add_zero] at h0
      exact firstCluster_lt hspc h0
    have hcut := fun bytes => fread_delivers_iff hlayout hm1 hstart
      (by omega) hfirst hsize hnmemb hlt
      (fun i hi => readInRange_record hcs hsize hi hclusters fun j hj => (hrange j hj).2) hout hfit bytes
    have hone := fun bytes => fread_one_iff (nmemb * size) hlayout hm1 hstart (by omega)
      (by rw [hprod]; exact hpos) (by rw [hprod]; exact hlt)
      (by rw [hprod]; exact hclusters) (by rw [hprod]; exact fun j hj => (hrange j hj).1) hout
      (by rw [hprod]; exact hfit) bytes
    rw [and_iff_right hfree', ← recordBytes_eq_iff hcs]
    simp only [hprod] at hone
    constructor
    · rintro ⟨bytes, hlen, hd1, hd2⟩
      obtain ⟨-, hb1⟩ := (hcut bytes hlen).mp hd1
      obtain ⟨hlinks, hb2⟩ := (hone bytes hlen).mp hd2
      exact ⟨hlinks, hb1.symm.trans hb2⟩
    · rintro ⟨hlinks, heq⟩
      have hlen : (recordBytes image (firstCluster entry) size.toNat 0
          (nmemb.toNat * size.toNat)).length = nmemb.toNat * size.toNat := recordBytes_length ..
      exact ⟨_, hlen, (hcut _ hlen).mpr ⟨recordsFollowed_of_linksFollowed hsize hlinks, rfl⟩,
        (hone _ hlen).mpr ⟨hlinks, heq⟩⟩
  · obtain rfl : slot = 511 := by omega
    constructor
    · rintro ⟨bytes, -, ⟨r, k2, hr, hrn, -⟩, -⟩
      rw [fread_last (by decide)] at hr
      have hneg : - EINVARG = (nmemb.toNat : Int) :=
        (Prod.mk.inj (Option.some.inj hr)).1.trans hrn
      exact absurd hneg (by rw [EINVARG]; omega)
    · rintro ⟨⟨j, hj, hzero⟩, -⟩
      exact absurd hzero (hfree.2 j hj)

/-- Two records inside the first cluster. -/
theorem fread_cut_run :
    ∃ k1, fopen pathA [0x72] (twoClusters 0) = some (1, k1) ∧
      ((∃ bytes, bytes.length = (2 : UInt32).toNat * (200 : UInt32).toNat ∧
        Delivers (fread 0x700000 200 2 1) k1 0x700000 (2 : UInt32).toNat bytes ∧
        Delivers (fread 0x700000 (2 * 200) 1 1) k1 0x700000 1 bytes) ↔
      (∃ slot, slot < 511 ∧ (twoClusters 0).file_descriptors slot = 0) ∧
        LinksFollowed twoClustersImage (firstCluster (oneFileEntry 600))
          (lastIndex twoClustersImage 0 ((2 : UInt32).toNat * (200 : UInt32).toNat)) ∧
        ∀ j, j < (2 : UInt32).toNat * (200 : UInt32).toNat →
          Straddles twoClustersImage (200 : UInt32).toNat j →
            SameBehind twoClustersImage (firstCluster (oneFileEntry 600)) j) := by
  obtain ⟨fd, k1, hopen, rfl, hentry⟩ : Total (fopen pathA [0x72]) (twoClusters 0)
      fun fd k1 => fd = 1 ∧ entryOf k1 fd = some (oneFileEntry 600) := by decide +kernel
  have hm : Mounted (twoClusters 0) twoClustersImage oneFilePrivate :=
    oneFileKernel_mounted (by decide)
  exact ⟨k1, hopen, fread_cut_iff hm (by decide +kernel) hopen (by decide) hentry (by decide)
    (by decide) (by decide) (by decide +kernel) (by decide +kernel) (by decide) (by decide)⟩

/-- `A` lies in the clusters 2 and 4. The second of two records of 300 bytes begins in cluster 2 and
ends with bytes of cluster 3: byte 512 differs. -/
theorem fread_cut_differs :
    Mounted (twoClusters 0) twoClustersImage oneFilePrivate ∧
    Total (fopen pathA [0x72]) (twoClusters 0) fun fd k1 => fd = 1 ∧
      entryOf k1 1 = some (oneFileEntry 600) ∧
      (Total (fread 0x700000 600 1 1) k1 fun r k2 => r = 1 ∧ k2.mem 0x700200 = 4) ∧
      Total (fread 0x700000 300 2 1) k1 fun r k2 => r = 2 ∧ k2.mem 0x700200 = 3 :=
  ⟨oneFileKernel_mounted (by decide), by decide +kernel⟩

end RasOS
