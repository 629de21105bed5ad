import RasOS.Fs.Fread
import RasOS.Fs.OneFile

set_option autoImplicit false

/-! # Loading a whole file

`elf_load` and `process_load_binary` open a file, ask for its size, allocate a buffer and read the
file in one record. What they get is described here by the layout of a FAT16 volume alone: the
clusters of the chain, one behind the other, cut off at the size of the file. -/

namespace RasOS

open Machine

variable {image : Nat → Sector} {priv : FatPrivate}

/-! ## The contents of a file -/

/-- The first sector of the data area: the root directory takes whole sectors. -/
def firstDataSector (h : FatHeader) : Nat :=
  h.reserved_sectors.toNat + h.fat_copies.toNat * h.sectors_per_fat.toNat +
    (h.root_dir_entries.toNat * 32 + 511) / 512

/-- The bytes of a cluster. -/
def clusterBytes (image : Nat → Sector) (cluster : Nat) : List UInt8 :=
  slice (diskByte image)
    ((firstDataSector (bootHeader image) +
      (cluster - 2) * (bootHeader image).sectors_per_cluster.toNat) * 512)
    (clusterSize (bootHeader image))

/-- The number of clusters of a file. -/
def clusterCount (image : Nat → Sector) (size : Nat) : Nat :=
  (size + (clusterSize (bootHeader image) - 1)) / clusterSize (bootHeader image)

/-- The contents of a file: the clusters of its chain, cut off at its size. -/
def fileContents (image : Nat → Sector) (first size : Nat) : List UInt8 :=
  ((List.range (clusterCount image size)).flatMap fun i =>
    clusterBytes image (chainCluster image first i)).take size

/-- Byte `j` of a file, where the chain and the layout of the volume put it. -/
def fileByte (image : Nat → Sector) (first j : Nat) : UInt8 :=
  diskByte image ((firstDataSector (bootHeader image) +
    (chainCluster image first (j / clusterSize (bootHeader image)) - 2) *
      (bootHeader image).sectors_per_cluster.toNat) * 512 + j % clusterSize (bootHeader image))

theorem dataSector_eq {h : FatHeader} (hroot : h.root_dir_entries.toNat % 16 = 0) :
    dataSector h = firstDataSector h := by
  rw [dataSector, rootSector, firstDataSector, SIZEOF_FAT_DIRECTORY_ITEM, RASOS_SECTOR_SIZE]
  omega

/-- The concatenation of the first `k` clusters is the beginning of the file. -/
theorem flatMap_clusters (hcs : 0 < clusterSize (bootHeader image)) (first k : Nat) :
    ((List.range k).flatMap fun i => clusterBytes image (chainCluster image first i))
      = slice (fileByte image first) 0 (k * clusterSize (bootHeader image)) := by
  induction k with
  | zero =>
      rw [Nat.zero_mul]
      rfl
  | succ k ih =>
      have hlast : clusterBytes image (chainCluster image first k)
          = slice (fileByte image first)
            (0 + k * clusterSize (bootHeader image)) (clusterSize (bootHeader image)) := by
        apply slice_congr
        intro i hi
        have hdiv : (0 + k * clusterSize (bootHeader image) + i) / clusterSize (bootHeader image)
            = k := by
          rw [Nat.zero_add, Nat.mul_comm, Nat.mul_add_div hcs, Nat.div_eq_of_lt hi, Nat.add_zero]
        have hmod : (0 + k * clusterSize (bootHeader image) + i) % clusterSize (bootHeader image)
            = i := by
          rw [Nat.zero_add, Nat.mul_comm, Nat.mul_add_mod, Nat.mod_eq_of_lt hi]
        rw [fileByte, hdiv, hmod]
      rw [List.range_succ, List.flatMap_append, ih, List.flatMap_singleton, hlast, slice_append, Nat.succ_mul]

theorem fileContents_slice (hcs : 0 < clusterSize (bootHeader image)) (first size : Nat) :
    fileContents image first size = slice (fileByte image first) 0 size := by
  have hle : size ≤ clusterCount image size * clusterSize (bootHeader image) := by
    have hdiv := Nat.div_add_mod (size + (clusterSize (bootHeader image) - 1))
      (clusterSize (bootHeader image))
    have hmod := Nat.mod_lt (size + (clusterSize (bootHeader image) - 1)) hcs
    rw [clusterCount, Nat.mul_comm]
    omega
  rw [fileContents, flatMap_clusters hcs]
  exact slice_take _ 0 hle

/-- Where the root directory fills its sectors, the code looks for the data area where it is. -/
theorem fileByte_eq (hroot : (bootHeader image).root_dir_entries.toNat % 16 = 0) (first j : Nat) :
    fileByte image first j = diskByte image (readAddr image first 0 j) := by
  simp only [fileByte, readAddr, clusterPos, dataSector_eq hroot, Nat.zero_div, Nat.zero_mod, Nat.zero_add,
    Nat.add_zero]

theorem fileContents_eq (hcs : 0 < clusterSize (bootHeader image))
    (hroot : (bootHeader image).root_dir_entries.toNat % 16 = 0) (first size : Nat) :
    fileContents image first size = readBytes image first 0 size := by
  rw [fileContents_slice hcs]
  apply slice_congr
  intro j _
  exact fileByte_eq hroot first (0 + j)

/-- What follows in a file. -/
theorem fileContents_part (hcs : 0 < clusterSize (bootHeader image)) (first : Nat) {pos n size : Nat}
    (h : pos + n ≤ size) :
    ((fileContents image first size).drop pos).take n = slice (fileByte image first) pos n := by
  rw [fileContents_slice hcs, slice_drop _ 0 (by omega), slice_take _ _ (by omega), Nat.zero_add]

theorem clusterCount_eq (hcs : 0 < clusterSize (bootHeader image)) {size : Nat} (hsize : 0 < size) :
    clusterCount image size = lastIndex image 0 size + 1 := by
  have hpred : size + (clusterSize (bootHeader image) - 1)
      = size - 1 + clusterSize (bootHeader image) := by omega
  rw [clusterCount, lastIndex, hpred, Nat.add_div_right _ hcs, Nat.zero_div, Nat.zero_add]

/-- A cluster whose position is in range has a small number. -/
theorem firstCluster_lt {cluster : Nat} (hspc : 0 < (bootHeader image).sectors_per_cluster.toNat)
    (hpos : clusterPos (bootHeader image) cluster < 2 ^ 31) : cluster < 2 ^ 23 := by
  have hle : cluster - 2 ≤ (cluster - 2) * (bootHeader image).sectors_per_cluster.toNat :=
    Nat.le_mul_of_pos_right _ hspc
  rw [clusterPos, RASOS_SECTOR_SIZE] at hpos
  omega

/-- One record is one read. -/
theorem recordBytes_whole (first size : Nat) :
    recordBytes image first size 0 size = readBytes image first 0 size := by
  apply slice_congr
  intro i hi
  simp only [recordAddr, Nat.zero_add]
  rw [Nat.div_eq_of_lt hi, Nat.mod_eq_of_lt hi, Nat.zero_mul]

theorem recordsFollowed_whole (first size : Nat) :
    RecordsFollowed image first size 0 1 ↔ LinksFollowed image first (lastIndex image 0 size) := by
  constructor
  · intro h
    have h0 := h 0 (Nat.le_refl 0) Nat.zero_lt_one
    rw [Nat.zero_mul] at h0
    exact h0
  · intro h k _ hk
    obtain rfl : k = 0 := by omega
    rw [Nat.zero_mul]
    exact h

theorem readAddr_zero (first j : Nat) :
    readAddr image first 0 j = clusterPos (bootHeader image)
      (chainCluster image first (j / clusterSize (bootHeader image))) +
        j % clusterSize (bootHeader image) := by
  simp only [readAddr, Nat.zero_div, Nat.zero_mod, Nat.zero_add, Nat.add_zero]

/-- **Reading in one record.** -/
theorem fread_one_iff {s : Kernel} {fd : Int} {entry : List UInt8} {out : UInt32} (size : UInt32)
    (h : Layout image priv) (hm : Mounted s image priv) (hfile : AtStart s fd entry)
    (hfd : fd < 512) (hsize : 0 < size.toNat) (hlt : size.toNat < 2 ^ 31)
    (hclusters : ∀ j, j < size.toNat →
      2 ≤ chainCluster image (firstCluster entry) (j / clusterSize (bootHeader image)))
    (hrange : ∀ j, j < size.toNat → readAddr image (firstCluster entry) 0 j < 2 ^ 31)
    (hout : out ≠ 0) (hfit : out.toNat + size.toNat ≤ 2 ^ 32) (bytes : List UInt8)
    (hlen : bytes.length = size.toNat) :
    Delivers (fread out size 1 fd) s out 1 bytes ↔
      LinksFollowed image (firstCluster entry) (lastIndex image 0 size.toNat) ∧
        bytes = readBytes image (firstCluster entry) 0 size.toNat := by
  have hfirst : firstCluster entry < 2 ^ 23 := by
    have h0 := hrange 0 hsize
    rw [readAddr_zero, Nat.zero_div, Nat.zero_mod, Nat.add_zero] at h0
    exact firstCluster_lt h.spc h0
  have hread : ∀ i, i < (1 : UInt32).toNat →
      ReadInRange image (firstCluster entry) (i * size.toNat) size.toNat := by
    intro i hi r hr
    obtain rfl : i = 0 := by
      rw [UInt32.toNat_one] at hi
      omega
    rw [Nat.zero_mul, Nat.zero_div, Nat.zero_add]
    exact ⟨hclusters r hr, hrange r hr⟩
  have hiff := fread_delivers_iff h hm hfile hfd hfirst hsize (by decide)
    (by rw [UInt32.toNat_one, Nat.one_mul]; exact hlt) hread hout
    (by rw [UInt32.toNat_one, Nat.one_mul]; exact hfit) bytes
    (by rw [UInt32.toNat_one, Nat.one_mul]; exact hlen)
  rw [UInt32.toNat_one, Nat.one_mul, recordsFollowed_whole, recordBytes_whole] at hiff
  exact hiff

/-! ## From `fopen` to `fread` -/

/-- The directory entry of the file `fd` is a descriptor of. -/
def entryOf (s : Kernel) (fd : Int) : Option (List UInt8) := do
  let desc ← fileDescriptorK.read s.live (s.file_descriptors (fd - 1).toNat)
  let fat_desc ← fatFileDescriptorK.read s.live desc.private_data
  let item ← fatItemK.read s.live fat_desc.item
  if item.type = FAT_ITEM_TYPE_FILE then dirItemsK.read s.live item.item else none

theorem Since.mounted {s s' : Kernel} (h : Since s s') (hm : Mounted s image priv) :
    Mounted s' image priv := by
  obtain ⟨st, hst⟩ := hm.cluster_stream
  obtain ⟨st', hst'⟩ := hm.fat_stream
  refine ⟨h.wf, ?_, ?_, ⟨st, h.object _ _ hst⟩, ⟨st', h.object _ _ hst'⟩, hm.header, hm.data_sector⟩
  · intro requests sector
    rw [h.drive]
    exact hm.drive requests sector
  · rw [h.disk]
    exact h.object _ _ hm.private_data

/-- The descriptor `fopen` has returned still stands at the beginning of its file. -/
theorem Since.atStart {s0 s1 s2 : Kernel} {fd : Int} {item : UInt32} {entry : List UInt8}
    (h : Since s1 s2) (hopen : Opened s0 fd s1 item) (hfile : entryOf s1 fd = some entry) :
    AtStart s2 fd entry := by
  obtain ⟨slot, -, rfl, -, desc, priv', index, hslot, hdesc, hlive, hpriv⟩ := hopen
  have hindex : ((slot : Int) + 1 - 1).toNat = slot := by omega
  rw [entryOf, hindex, hslot, Kind.read_eq_some.mpr hlive] at hfile
  simp only [Option.bind_eq_bind, Option.bind_some, Kind.read_eq_some.mpr hpriv,
    Option.bind_eq_some_iff] at hfile
  obtain ⟨⟨ptr, type⟩, hit, hentry⟩ := hfile
  split at hentry
  · rename_i htype
    obtain rfl : type = FAT_ITEM_TYPE_FILE := htype
    refine ⟨slot, item, rfl, ⟨desc, priv', index, ?_, hdesc, h.object _ _ hlive,
      h.object _ _ hpriv⟩, ptr, h.object _ _ (Kind.read_eq_some.mp hit),
      h.object _ _ (Kind.read_eq_some.mp hentry)⟩
    rw [h.slots]
    exact hslot
  · cases hentry

/-- `fstat` changes nothing at all. -/
theorem fstat_same {s s' : Kernel} {fd : Int} {r : Int × FileStat} (h : fstat fd s = some (r, s')) :
    s' = s := by
  have hsame : Ensures (fstat fd) s fun _ s' => s' = s := by
    unfold fstat fileGetDescriptor
    refine Ensures.bind (Q := fun _ s' => s' = s) (Ensures.ite (fun _ => Ensures.pure rfl) ?_) ?_
    · intro _ a s' h
      exact (Prod.mk.inj (Option.some.inj h)).2.symm
    rintro desc s' rfl
    refine Ensures.ite (fun _ => Ensures.pure rfl) fun _ => ensures_load fun d _ => ?_
    unfold withFilesystem
    split
    · exact Ensures.stop
    · unfold fat16Stat
      refine ensures_load fun _ _ => ensures_load fun _ _ => ?_
      exact Ensures.ite (fun _ => Ensures.pure rfl) fun _ => ensures_load fun _ _ => Ensures.pure rfl
  exact hsame _ _ h

/-- **Loading a whole file.** With all clusters of the file and their positions in range, reading
it in one record right behind `fopen` stores its contents and returns 1, if and only if one of the
first 511 descriptors was free: the last one can be opened but not used. -/
theorem fread_whole_file_iff {k0 k1 k2 : Kernel} {filename mode entry : List UInt8} {fd : Int}
    {buf : UInt32} (hm : Mounted k0 image priv)
    (hspc : 0 < (bootHeader image).sectors_per_cluster.toNat)
    (hroot : (bootHeader image).root_dir_entries.toNat % 16 = 0)
    (hopen : fopen filename mode k0 = some (fd, k1)) (hfd : 0 < fd) (hsince : Since k1 k2)
    (hfile : entryOf k1 fd = some entry) (hpos : 0 < (itemFilesize entry).toNat)
    (hlt : (itemFilesize entry).toNat < 2 ^ 31)
    (hclusters : ∀ i, i < clusterCount image (itemFilesize entry).toNat →
      2 ≤ chainCluster image (firstCluster entry) i)
    (hlinks : ∀ i, 0 < i → i < clusterCount image (itemFilesize entry).toNat →
      ¬ RejectedLink (chainCluster image (firstCluster entry) i))
    (hrange : ∀ r, r < (itemFilesize entry).toNat →
      clusterPos (bootHeader image) (chainCluster image (firstCluster entry)
        (r / clusterSize (bootHeader image))) + r % clusterSize (bootHeader image) < 2 ^ 31)
    (hbuf : buf ≠ 0) (hfit : buf.toNat + (itemFilesize entry).toNat ≤ 2 ^ 32) :
    Delivers (fread buf (itemFilesize entry) 1 fd) k2 buf 1
      (fileContents image (firstCluster entry) (itemFilesize entry).toNat) ↔
    ∃ slot, slot < 511 ∧ k0.file_descriptors slot = 0 := by
  generalize itemFilesize entry = size at hpos hlt hclusters hlinks hrange hfit ⊢
  have hlayout := hm.layout hspc
  have hcs := hlayout.clusterSize_pos
  obtain ⟨item, hopened⟩ := fopen_spec filename mode k0 hm.wf fd k1 hopen hfd
  have hm2 := hsince.mounted (hm.frame (keepsRest_rules.fopen filename mode k0 fd k1 hopen))
  have hstart := hsince.atStart hopened hfile
  obtain ⟨slot, hslot, rfl, hfree, -⟩ := hopened
  by_cases hlast : slot < 511
  · refine ⟨fun _ => ⟨slot, hlast, hfree.1⟩, fun _ => ?_⟩
    have hcount : clusterCount image size.toNat = lastIndex image 0 size.toNat + 1 :=
      clusterCount_eq hcs hpos
    have hindex : ∀ r, r < size.toNat →
        r / clusterSize (bootHeader image) < clusterCount image size.toNat := by
      intro r hr
      have hle : r / clusterSize (bootHeader image)
          ≤ (size.toNat - 1) / clusterSize (bootHeader image) := Nat.div_le_div_right (by omega)
      rw [hcount, lastIndex, Nat.zero_div]
      omega
    rw [fileContents_eq hcs hroot]
    refine (fread_one_iff size hlayout hm2 hstart (by omega) hpos hlt
      (fun r hr => hclusters _ (hindex r hr)) (fun r hr => ?_) hbuf hfit
      _ (readBytes_length _ _ _)).mpr ⟨?_, rfl⟩
    · rw [readAddr_zero]
      exact hrange r hr
    · exact fun i hi => hlinks (i + 1) (Nat.succ_pos i) (by omega)
  · obtain rfl : slot = 511 := by omega
    constructor
    · rintro ⟨r, k3, hr, hr1, -⟩
      rw [fread_last (by decide)] at hr
      rw [hr1] at hr
      exact absurd (Prod.mk.inj (Option.some.inj hr)).1 (by decide)
    · rintro ⟨j, hj, hzero⟩
      exact absurd hzero (hfree.2 j hj)

/-- A volume where `A` has 600 bytes, in the clusters 2 and 4; the bytes of a cluster are its
number. -/
def twoClusters (used : Nat) : Kernel :=
  oneFileKernel 600 (fun i => if i = 4 then 4 else 0) (fun cluster _ => UInt8.ofNat cluster) used

def twoClustersImage : Nat → Sector :=
  oneFileImage 600 (fun i => if i = 4 then 4 else 0) fun cluster _ => UInt8.ofNat cluster

/-- Loading it with no other file open. -/
theorem fread_whole_file_run :
    ∃ k1, fopen pathA [0x72] (twoClusters 0) = some (1, k1) ∧
      (Delivers (fread 0x700000 (itemFilesize (oneFileEntry 600)) 1 1) k1 0x700000 1
          (fileContents twoClustersImage (firstCluster (oneFileEntry 600))
            (itemFilesize (oneFileEntry 600)).toNat) ↔
        ∃ slot, slot < 511 ∧ (twoClusters 0).file_descriptors slot = 0) := by
  obtain ⟨fd, k1, hopen, rfl, hentry⟩ : Total (fopen pathA [0x72]) (twoClusters 0)
      fun fd k1 => fd = 1 ∧ entryOf k1 fd = some (oneFileEntry 600) := by decide +kernel
  have hcount : clusterCount twoClustersImage (itemFilesize (oneFileEntry 600)).toNat = 2 := by
    decide +kernel
  have hm : Mounted (twoClusters 0) twoClustersImage oneFilePrivate :=
    oneFileKernel_mounted (by decide)
  refine ⟨_, hopen, fread_whole_file_iff hm (by decide +kernel) (by decide +kernel) hopen
    (by decide) (Since.refl ?_) hentry (by decide +kernel) (by decide +kernel)
    (by decide +kernel) ?_ (by decide +kernel) (by decide) (by decide +kernel)⟩
  · exact (keepsRest_rules.fopen _ _ _ _ _ hopen hm.wf).wf
  · intro i h0 h1
    rw [hcount] at h1
    obtain rfl : i = 1 := by omega
    decide +kernel

/-- With the first 511 descriptors open, `fopen` returns the last one, and reading from it fails. -/
theorem fread_last_descriptor :
    Mounted (twoClusters 511) twoClustersImage oneFilePrivate ∧
      ∃ k1, fopen pathA [0x72] (twoClusters 511) = some (512, k1) ∧
        entryOf k1 512 = some (oneFileEntry 600) ∧
        fread 0x700000 600 1 512 k1 = some (- EINVARG, k1) := by
  obtain ⟨fd, k1, hopen, rfl, hentry⟩ : Total (fopen pathA [0x72]) (twoClusters 511)
      fun fd k1 => fd = 512 ∧ entryOf k1 fd = some (oneFileEntry 600) := by decide +kernel
  exact ⟨oneFileKernel_mounted (by decide), k1, hopen, hentry, fread_last (by decide)⟩

end RasOS
