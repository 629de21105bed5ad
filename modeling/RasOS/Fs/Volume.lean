import RasOS.Disk.StreamSpec
import RasOS.Fs.Footprint

set_option autoImplicit false

/-! # A mounted FAT16 volume

The layout of the volume on the disk, as functions of the image: the header in the boot sector, the
table of links, the place of a cluster, the chain that begins at a cluster. A state in which the
volume is mounted reads all of it the same way. -/

namespace RasOS

open Machine

variable {image : Nat → Sector}

/-! ## Layout -/

/-- The header in the boot sector. -/
def bootHeader (image : Nat → Sector) : FatHeader :=
  FatHeader.ofBytes (slice (diskByte image) 0 SIZEOF_FAT_H)

/-- The first sector of the root directory: it lies behind the reserved sectors and the tables. -/
def rootSector (h : FatHeader) : Nat :=
  h.fat_copies.toNat * h.sectors_per_fat.toNat + h.reserved_sectors.toNat

/-- The first sector of cluster 2, behind the root directory. -/
def dataSector (h : FatHeader) : Nat :=
  rootSector h + h.root_dir_entries.toNat * SIZEOF_FAT_DIRECTORY_ITEM / RASOS_SECTOR_SIZE

def clusterSize (h : FatHeader) : Nat := h.sectors_per_cluster.toNat * RASOS_SECTOR_SIZE

/-- The position of the first byte of a cluster. -/
def clusterPos (h : FatHeader) (cluster : Nat) : Nat :=
  (dataSector h + (cluster - 2) * h.sectors_per_cluster.toNat) * RASOS_SECTOR_SIZE

/-- The word of the first allocation table at a cluster. -/
def fatLink (image : Nat → Sector) (cluster : Nat) : Nat :=
  (wordAt (slice (diskByte image)
    ((bootHeader image).reserved_sectors.toNat * 512 + cluster * 2) 2) 0).toNat

/-- The entry of the cluster ends in the part of the disk an `int` position reaches. -/
def EntryInRange (image : Nat → Sector) (cluster : Nat) : Prop :=
  (bootHeader image).reserved_sectors.toNat * 512 + cluster * 2 + 2 ≤ 2 ^ 31

theorem entryInRange_of_lt {cluster : Nat} (h : cluster < 2 ^ 23) : EntryInRange image cluster := by
  have hres := (bootHeader image).reserved_sectors.toNat_lt
  unfold EntryInRange
  omega

/-- The links the walk along a chain does not follow. -/
def RejectedLink (link : Nat) : Prop :=
  link = 0xFF8 ∨ link = 0xFFF ∨ link = 0xFF7 ∨ link = 0xFF0 ∨ link = 0xFF6 ∨ link = 0x00

instance (link : Nat) : Decidable (RejectedLink link) := by
  unfold RejectedLink
  infer_instance

/-- The `i`-th cluster of the chain that begins at `first`. -/
def chainCluster (image : Nat → Sector) (first : Nat) : Nat → Nat
  | 0 => first
  | i + 1 => fatLink image (chainCluster image first i)

/-- The walk gets to the cluster with index `last`: it follows every link up to there. -/
def LinksFollowed (image : Nat → Sector) (first last : Nat) : Prop :=
  ∀ i, i < last → ¬ RejectedLink (chainCluster image first (i + 1))

theorem LinksFollowed.mono {first last last' : Nat} (h : LinksFollowed image first last)
    (hle : last' ≤ last) : LinksFollowed image first last' :=
  fun i hi => h i (by omega)

/-- The chain without its first cluster is the chain of the second one. -/
theorem chainCluster_shift (first i : Nat) :
    chainCluster image first (i + 1) = chainCluster image (fatLink image first) i := by
  induction i with
  | zero => rfl
  | succ i ih => rw [chainCluster, ih, chainCluster]

/-! ## The mounted state -/

/-- The volume of the image is mounted, and the drive holds the image. -/
structure Mounted (s : Kernel) (image : Nat → Sector) (priv : FatPrivate) : Prop where
  wf : s.WF
  drive : HoldsImage s image
  private_data : s.live s.disk.fs_private = some (fatPrivateK.inj priv)
  cluster_stream : ∃ st, s.live priv.cluster_read_stream = some (diskStreamK.inj st)
  fat_stream : ∃ st, s.live priv.fat_read_stream = some (diskStreamK.inj st)
  header : priv.header = bootHeader image
  data_sector : priv.root_directory.ending_sector_pos = dataSector (bootHeader image)

/-- The file functions do not unmount the volume. -/
theorem Mounted.frame {s s' : Kernel} {priv : FatPrivate} (h : Mounted s image priv)
    (hframe : KeepsRest s s') : Mounted s' image priv := by
  have hf := hframe h.wf
  obtain ⟨st, hst⟩ := h.cluster_stream
  obtain ⟨st', hst'⟩ := h.fat_stream
  refine ⟨hf.wf, ?_, ?_, hf.stream _ st hst, hf.stream _ st' hst', h.header, h.data_sector⟩
  · intro requests sector
    rw [hf.drive]
    exact h.drive requests sector
  · rw [hf.disk]
    exact hf.object _ _ h.private_data rfl fun st hne => by cases hne

/-- What reads of the volume take from the mounted state: its private data are those of the image,
and the file allocation table has its stream. -/
structure Layout (image : Nat → Sector) (priv : FatPrivate) : Prop where
  fat_stream : priv.fat_read_stream ≠ 0
  header : priv.header = bootHeader image
  data_sector : priv.root_directory.ending_sector_pos = dataSector (bootHeader image)
  spc : 0 < (bootHeader image).sectors_per_cluster.toNat

theorem Mounted.layout {s : Kernel} {priv : FatPrivate} (h : Mounted s image priv)
    (hspc : 0 < (bootHeader image).sectors_per_cluster.toNat) : Layout image priv := by
  obtain ⟨st, hst⟩ := h.fat_stream
  exact ⟨h.wf.ne_zero hst, h.header, h.data_sector, hspc⟩

theorem fsPrivate_spec {s : Kernel} {priv : FatPrivate} (h : Mounted s image priv) :
    fsPrivate s = some (priv, s) :=
  HasPrivate.fsPrivate h.private_data

theorem diskstreamerSeek_spec {s : Kernel} {stream : UInt32} (pos : Int)
    (h : ∃ st, s.live stream = some (diskStreamK.inj st)) :
    diskstreamerSeek stream pos s
      = some (OK, { s with live := diskStreamK.write s.live stream { pos := pos } }) := by
  obtain ⟨st, hst⟩ := h
  rw [diskstreamerSeek, bind_of_some (store_of_live hst _)]
  rfl

/-! ## Reading from the volume

`Reads` is a program that can be run whenever the volume is mounted: it returns a value with `Q`,
and apart from streams and requests it leaves everything as it was. -/

def Reads (image : Nat → Sector) (priv : FatPrivate) {α : Type} (x : KernelM α) (Q : α → Prop) :
    Prop :=
  ∀ s, Mounted s image priv →
    Total x s fun a s' => Q a ∧ Mounted s' image priv ∧ s'.mem = s.mem

namespace Reads

variable {priv : FatPrivate} {α β : Type}

theorem pure {a : α} {Q : α → Prop} (ha : Q a) : Reads image priv (Pure.pure a) Q :=
  fun _ hm => total_pure.mpr ⟨ha, hm, rfl⟩

theorem bind {x : KernelM α} {f : α → KernelM β} {Q : α → Prop} {Q' : β → Prop}
    (hx : Reads image priv x Q) (hf : ∀ a, Q a → Reads image priv (f a) Q') :
    Reads image priv (x >>= f) Q' := by
  intro s hm
  refine (hx s hm).bind ?_
  rintro a s' ⟨ha, hm', hmem⟩
  refine (hf a ha s' hm').mono ?_
  rintro b s'' ⟨hb, hm'', hmem'⟩
  exact ⟨hb, hm'', hmem'.trans hmem⟩

theorem mono {x : KernelM α} {Q Q' : α → Prop} (hx : Reads image priv x Q)
    (hQ : ∀ a, Q a → Q' a) : Reads image priv x Q' := by
  intro s hm
  refine (hx s hm).mono ?_
  rintro a s' ⟨ha, hrest⟩
  exact ⟨hQ a ha, hrest⟩

/-- Begin with a look at the private data of the volume. -/
theorem private_data {f : FatPrivate → KernelM β} {Q : β → Prop}
    (hf : Reads image priv (f priv) Q) : Reads image priv (fsPrivate >>= f) Q := by
  intro s hm
  exact (total_bind_of_some (fsPrivate_spec hm)).mpr (hf s hm)

/-- Move a stream of the volume, read from there and go on. -/
theorem seek_read {stream : UInt32} {p n : Nat} {Q : β → Prop} {f : Int → KernelM β}
    {g : Int × List UInt8 → KernelM β}
    (hstream : ∀ s, Mounted s image priv → ∃ st, s.live stream = some (diskStreamK.inj st))
    (hp : p < 2 ^ 31) (hend : p + n ≤ 2 ^ 31) (hn : n ≤ 2 ^ 30)
    (hf : f OK = diskstreamerRead stream n >>= g)
    (hg : Reads image priv (g (OK, slice (diskByte image) p n)) Q) :
    Reads image priv (diskstreamerSeek stream p >>= f) Q := by
  intro s hm
  have hseek := diskstreamerSeek_spec p (hstream s hm)
  have hm' := hm.frame (keepsRest_rules.diskstreamerSeek stream p _ _ _ hseek)
  have hmem := sameMem_rules.diskstreamerSeek stream p _ _ _ hseek
  have hread := diskstreamerRead_spec hm'.drive (Kind.write_self ..) hp hend hn
  rw [total_bind_of_some hseek, hf]
  refine ((hread.keeps (keepsRest_rules.diskstreamerRead stream n)).keeps
    (sameMem_rules.diskstreamerRead stream n)).bind ?_
  rintro r s' ⟨⟨rfl, hframe⟩, hmem'⟩
  refine (hg s' (hm'.frame hframe)).mono ?_
  rintro b s'' ⟨hb, hm'', hmem''⟩
  exact ⟨hb, hm'', hmem''.trans (hmem'.trans hmem)⟩

end Reads

/-! ## Following the chain -/

variable {priv : FatPrivate}

theorem fat16GetFatEntry_spec {cluster : Nat} (hc : EntryInRange image cluster)
    (hne : priv.fat_read_stream ≠ 0) (hhead : priv.header = bootHeader image) :
    Reads image priv (fat16GetFatEntry cluster)
      fun entry => entry.toNat = fatLink image cluster := by
  have hres := (bootHeader image).reserved_sectors.toNat_lt
  unfold EntryInRange at hc
  have hpos : signed (fat16GetFirstFatSector priv * 512 +
      UInt32.ofInt ((cluster : Int) * RASOS_FAT16_FAT_ENTRY_SIZE))
      = ((bootHeader image).reserved_sectors.toNat * 512 + cluster * 2 : Nat) := by
    have hnat : (fat16GetFirstFatSector priv * 512 +
        UInt32.ofInt ((cluster : Int) * RASOS_FAT16_FAT_ENTRY_SIZE)).toNat
        = (bootHeader image).reserved_sectors.toNat * 512 + cluster * 2 := by
      rw [UInt32.toNat_add, UInt32.toNat_mul, fat16GetFirstFatSector, hhead,
        UInt16.toNat_toUInt32, toNat_ofInt, RASOS_FAT16_FAT_ENTRY_SIZE,
        show (512 : UInt32).toNat = 512 from rfl]
      omega
    rw [signed_of_lt (by omega), hnat]
  refine Reads.private_data ?_
  rw [if_neg hne]
  dsimp only
  rw [hpos]
  refine Reads.seek_read (n := 2) (fun s hm => hm.fat_stream) (by omega) (by omega) (by omega)
    rfl ?_
  exact Reads.pure rfl

/-- One link of the walk: the five tests reject the same value as one. -/
theorem getClusterLoop_succ (n : Nat) (cluster : Int) :
    getClusterLoop (n + 1) cluster = fat16GetFatEntry cluster >>= fun entry =>
      if RejectedLink entry.toNat then Pure.pure (- EIO) else getClusterLoop n entry.toNat := by
  rw [getClusterLoop]
  congr 1
  funext entry
  by_cases hrej : RejectedLink entry.toNat
  · rw [if_pos hrej]
    unfold RejectedLink at hrej
    rcases hrej with h | h | h | h | h | h <;> rw [h] <;> rfl
  · rw [if_neg hrej]
    unfold RejectedLink at hrej
    have hbad : (entry.toNat : Int) ≠ RASOS_FAT16_BAD_SECTOR := by
      rw [RASOS_FAT16_BAD_SECTOR]
      omega
    dsimp only
    rw [if_neg (by omega), if_neg hbad, if_neg (by omega), if_neg (by omega)]

/-- The walk along the chain: it ends at the cluster asked for when it follows every link, with an
error otherwise. -/
theorem getClusterLoop_spec (hne : priv.fat_read_stream ≠ 0)
    (hhead : priv.header = bootHeader image) :
    ∀ (n cluster : Nat), EntryInRange image cluster →
      Reads image priv (getClusterLoop n cluster) fun r =>
        (LinksFollowed image cluster n → r = chainCluster image cluster n) ∧
        (¬ LinksFollowed image cluster n → r = - EIO) := by
  intro n
  induction n with
  | zero =>
      intro cluster _
      refine Reads.pure ⟨fun _ => rfl, fun h => absurd (fun i hi => ?_) h⟩
      omega
  | succ n ih =>
      intro cluster hc
      rw [getClusterLoop_succ]
      refine Reads.bind (fat16GetFatEntry_spec hc hne hhead) fun entry16 hentry => ?_
      -- the walk goes on along the chain of the next cluster
      have hshift : LinksFollowed image cluster (n + 1) ↔
          ¬ RejectedLink entry16.toNat ∧ LinksFollowed image entry16.toNat n := by
        constructor
        · intro h
          refine ⟨?_, fun i hi => ?_⟩
          · rw [hentry]
            exact h 0 (by omega)
          · rw [hentry, ← chainCluster_shift]
            exact h (i + 1) (by omega)
        · rintro ⟨h0, hrest⟩ i hi
          cases i with
          | zero =>
              rw [hentry] at h0
              exact h0
          | succ i =>
              rw [chainCluster_shift, ← hentry]
              exact hrest i (by omega)
      have hlast : chainCluster image cluster (n + 1) = chainCluster image entry16.toNat n := by
        rw [chainCluster_shift, hentry]
      rw [hshift, hlast]
      by_cases hrej : RejectedLink entry16.toNat
      · rw [if_pos hrej]
        exact Reads.pure ⟨fun h => absurd hrej h.1, fun _ => rfl⟩
      · rw [if_neg hrej]
        have hlt : EntryInRange image entry16.toNat :=
          entryInRange_of_lt (lt_trans entry16.toNat_lt (by decide))
        refine (ih entry16.toNat hlt).mono ?_
        rintro r ⟨hok, herr⟩
        exact ⟨fun h => hok h.2, fun h => herr fun hl => h ⟨hrej, hl⟩⟩

end RasOS
