import RasOS.Fs.RootSearch
import RasOS.Fs.SlotScan
import RasOS.Fs.WholeFile

set_option autoImplicit false

/-! # Loading a subdirectory

`fat16_load_fat_directory` counts the entries of a subdirectory with a scan that goes from sector to
sector, and then loads as many slots along the chain of clusters. -/

namespace RasOS

open Machine

variable {image : Nat → Sector} {priv : FatPrivate}

/-! ## The directory on the disk -/

/-- Slot `j` of the directory whose chain begins at `first`. -/
def chainSlot (image : Nat → Sector) (first j : Nat) : List UInt8 :=
  slice (fun r => diskByte image (readAddr image first 0 r)) (j * SIZEOF_FAT_DIRECTORY_ITEM)
    SIZEOF_FAT_DIRECTORY_ITEM

/-- The data of the directory occupy the chain from `first` on: the walk gets to the terminator, which is
slot `n`, through clusters at positions of an `int`. -/
structure ChainDirectory (image : Nat → Sector) (first n : Nat) : Prop where
  spc : 0 < (bootHeader image).sectors_per_cluster.toNat
  clusters : ∀ r, r < (n + 1) * SIZEOF_FAT_DIRECTORY_ITEM →
    2 ≤ chainCluster image first (r / clusterSize (bootHeader image))
  range : ∀ r, r < (n + 1) * SIZEOF_FAT_DIRECTORY_ITEM → readAddr image first 0 r + 1 < 2 ^ 31
  followed : LinksFollowed image first (lastIndex image 0 ((n + 1) * SIZEOF_FAT_DIRECTORY_ITEM))
  before : ∀ i, i < n → byteAt (chainSlot image first i) 0 ≠ 0x00
  terminator : byteAt (chainSlot image first n) 0 = 0x00

theorem ChainDirectory.first {first n : Nat} (h : ChainDirectory image first n) :
    2 ≤ first ∧ clusterPos (bootHeader image) first < 2 ^ 31 := by
  have hpositive : 0 < (n + 1) * SIZEOF_FAT_DIRECTORY_ITEM := by
    rw [SIZEOF_FAT_DIRECTORY_ITEM]
    omega
  have hge := h.clusters 0 hpositive
  have hpos := h.range 0 hpositive
  rw [readAddr_zero, Nat.zero_div, Nat.zero_mod] at hpos
  rw [Nat.zero_div] at hge
  rw [chainCluster] at hge hpos
  exact ⟨hge, by omega⟩

/-- The clusters up to the one with index `last` lie one behind the other on the disk. -/
def Adjacent (image : Nat → Sector) (first last : Nat) : Prop :=
  ∀ i, i ≤ last → chainCluster image first i = first + i

/-- The number of slots in use before slot `n` of the chain. -/
def chainCount (image : Nat → Sector) (first n : Nat) : Nat :=
  (List.range n).countP fun j => InUse (chainSlot image first j)

theorem chainCount_le (first n : Nat) : chainCount image first n ≤ n := by
  have hle := List.countP_le_length (p := fun j => decide (InUse (chainSlot image first j)))
    (l := List.range n)
  rw [List.length_range] at hle
  exact hle

theorem clusterPos_add {h : FatHeader} {first : Nat} (hfirst : 2 ≤ first) (i : Nat) :
    clusterPos h (first + i) = clusterPos h first + i * clusterSize h := by
  have hsub : first + i - 2 = first - 2 + i := by omega
  rw [clusterPos, clusterPos, clusterSize, hsub]
  ring

theorem clusterPos_injective {h : FatHeader} (hspc : 0 < h.sectors_per_cluster.toNat) {c c' : Nat}
    (hc : 2 ≤ c) (hc' : 2 ≤ c') (heq : clusterPos h c = clusterPos h c') : c = c' := by
  rw [clusterPos, clusterPos, RASOS_SECTOR_SIZE] at heq
  have hmul : (c - 2) * h.sectors_per_cluster.toNat = (c' - 2) * h.sectors_per_cluster.toNat := by omega
  have hsub := Nat.eq_of_mul_eq_mul_right hspc hmul
  omega

/-- The bytes of a chain are adjacent exactly when its clusters are. -/
theorem readAddr_adjacent_iff {first m : Nat} (hspc : 0 < (bootHeader image).sectors_per_cluster.toNat)
    (hm : 0 < m) (hclusters : ∀ r, r < m → 2 ≤ chainCluster image first (r / clusterSize (bootHeader image))) :
    (∀ r, r < m → readAddr image first 0 r = clusterPos (bootHeader image) first + r) ↔
      Adjacent image first (lastIndex image 0 m) := by
  have hcs : 0 < clusterSize (bootHeader image) := by
    rw [clusterSize, RASOS_SECTOR_SIZE]
    omega
  have hfirst : 2 ≤ first := by
    have h0 := hclusters 0 hm
    rw [Nat.zero_div] at h0
    exact h0
  have hlast : lastIndex image 0 m = (m - 1) / clusterSize (bootHeader image) := by
    rw [lastIndex, Nat.zero_div, Nat.zero_add]
  rw [hlast]
  constructor
  · intro h i hi
    have hle : i * clusterSize (bootHeader image) ≤ m - 1 := (Nat.le_div_iff_mul_le hcs).mp hi
    have hdiv : i * clusterSize (bootHeader image) / clusterSize (bootHeader image) = i :=
      Nat.mul_div_cancel i hcs
    have haddr := h (i * clusterSize (bootHeader image)) (by omega)
    have hcluster := hclusters (i * clusterSize (bootHeader image)) (by omega)
    rw [hdiv] at hcluster
    rw [readAddr_zero, hdiv, Nat.mul_mod_left, Nat.add_zero, ← clusterPos_add hfirst] at haddr
    exact clusterPos_injective hspc hcluster (by omega) haddr
  · intro h r hr
    have hindex : r / clusterSize (bootHeader image) ≤ (m - 1) / clusterSize (bootHeader image) :=
      Nat.div_le_div_right (by omega)
    have hmod := Nat.div_add_mod' r (clusterSize (bootHeader image))
    rw [readAddr_zero, h _ hindex, clusterPos_add hfirst]
    omega

/-- In a directory whose bytes are adjacent a slot of the chain is a slot behind the first cluster. -/
theorem chainSlot_eq_slotAt {first m j : Nat}
    (hbytes : ∀ r, r < m → readAddr image first 0 r = clusterPos (bootHeader image) first + r)
    (hj : (j + 1) * SIZEOF_FAT_DIRECTORY_ITEM ≤ m) :
    chainSlot image first j = slotAt image (clusterPos (bootHeader image) first) j := by
  apply slice_congr
  intro i hi
  rw [Nat.succ_mul] at hj
  rw [hbytes _ (by omega), Nat.add_assoc]

/-! ## The scan -/

/-- The sector the scan of a directory begins at. -/
def directorySector (priv : FatPrivate) (entry : List UInt8) : UInt32 :=
  UInt32.ofInt (fat16ClusterToSector priv (signed (fat16GetFirstCluster entry)))

/-- The scan for the count, and the position it leaves the stream at. -/
def directoryScan (entry : List UInt8) : KernelM (Int × Int) := do
  let priv ← fsPrivate
  let total ← fat16GetTotalItemsForDirectory (directorySector priv entry)
  let st ← load diskStreamK priv.directory_stream
  return (total, st.pos)

/-- The volume is mounted, and the stream for directories is there. -/
structure DirectoryReady (s : Kernel) (image : Nat → Sector) (priv : FatPrivate) : Prop extends
    Mounted s image priv where
  directory_stream : ∃ st, s.live priv.directory_stream = some (diskStreamK.inj st)

theorem DirectoryReady.frame {s s' : Kernel} (h : DirectoryReady s image priv) (hframe : KeepsRest s s') :
    DirectoryReady s' image priv := by
  obtain ⟨st, hst⟩ := h.directory_stream
  exact ⟨h.toMounted.frame hframe, (hframe h.wf).stream _ st hst⟩

/-- The scan starts at the first cluster. -/
theorem directorySector_pos {first : Nat} {entry : List UInt8} (h : Layout image priv)
    (hfirst : firstCluster entry = first) (hge : 2 ≤ first) (hlt : first < 2 ^ 23)
    (hpos : clusterPos (bootHeader image) first < 2 ^ 31) :
    signed (directorySector priv entry * 512) = clusterPos (bootHeader image) first := by
  have hcluster : signed (fat16GetFirstCluster entry) = first := by
    rw [signed_of_lt (by rw [← firstCluster, hfirst]; omega), ← firstCluster, hfirst]
  have hsector : fat16ClusterToSector priv first
      = (dataSector (bootHeader image) + (first - 2) * (bootHeader image).sectors_per_cluster.toNat : Nat) := by
    rw [fat16ClusterToSector, h.data_sector, h.header]
    rw [clusterPos, RASOS_SECTOR_SIZE] at hpos
    have hcast : ((first : Int) - 2) = (first - 2 : Nat) := by omega
    rw [hcast, ← Nat.cast_mul, ← Nat.cast_add]
    exact wrap_of_range (by omega) (by omega)
  have hnat : (directorySector priv entry * 512).toNat = clusterPos (bootHeader image) first := by
    rw [directorySector, hcluster, hsector]
    rw [clusterPos, RASOS_SECTOR_SIZE] at hpos ⊢
    rw [UInt32.toNat_mul, toNat_ofInt_of_range (by omega) (by omega), show (512 : UInt32).toNat = 512 from rfl]
    omega
  rw [signed_of_lt (by omega), hnat]

/-- The scan is the loop from the first cluster on. -/
theorem fat16GetTotalItems_directory {s : Kernel} {entry : List UInt8} (h : DirectoryReady s image priv)
    (hspc : 0 < (bootHeader image).sectors_per_cluster.toNat) (hge : 2 ≤ firstCluster entry)
    (hpos : clusterPos (bootHeader image) (firstCluster entry) < 2 ^ 31) :
    fat16GetTotalItemsForDirectory (directorySector priv entry) s =
      getTotalItemsLoop priv.directory_stream (2 ^ 27) 0 { s with
        live := diskStreamK.write s.live priv.directory_stream
          ⟨clusterPos (bootHeader image) (firstCluster entry)⟩ } := by
  have hstart := directorySector_pos (h.toMounted.layout hspc) rfl hge (firstCluster_lt hspc hpos) hpos
  have hseek := diskstreamerSeek_spec (clusterPos (bootHeader image) (firstCluster entry) : Int)
    h.directory_stream
  rw [fat16GetTotalItemsForDirectory, bind_of_some (fsPrivate_spec h.toMounted), hstart,
    bind_of_some hseek, if_neg (by decide)]

/-- Of the slots at `base` slot `n` is the first with a zero, at a position an `int` can hold. -/
structure ScanEnds (image : Nat → Sector) (base n : Nat) : Prop where
  range : base + (n + 1) * SIZEOF_FAT_DIRECTORY_ITEM < 2 ^ 31
  before : ∀ i, i < n → byteAt (slotAt image base i) 0 ≠ 0x00
  terminator : byteAt (slotAt image base n) 0 = 0x00

/-- Then a scan finds it from every state. -/
theorem ScanEnds.scanned {base n : Nat} (h : ScanEnds image base n) {s : Kernel} (hdrive : HoldsImage s image) :
    Scanned s image base 0 n := by
  refine ⟨?_, fun i _ hi => h.before i (by omega), ?_, hdrive.succeeds _ _⟩
  · rw [Nat.zero_add]
    exact h.range
  · rw [Nat.zero_add]
    exact h.terminator

/-- In an adjacent directory that is its terminator. -/
theorem scanEnds_of_adjacent {first n : Nat} (h : ChainDirectory image first n)
    (hadjacent : Adjacent image first (lastIndex image 0 ((n + 1) * SIZEOF_FAT_DIRECTORY_ITEM))) :
    ScanEnds image (clusterPos (bootHeader image) first) n := by
  have hbytes := (readAddr_adjacent_iff h.spc (by rw [SIZEOF_FAT_DIRECTORY_ITEM]; omega) h.clusters).mpr hadjacent
  have hslot : ∀ j, j ≤ n → slotAt image (clusterPos (bootHeader image) first) j = chainSlot image first j :=
    fun j hj => (chainSlot_eq_slotAt hbytes (Nat.mul_le_mul_right _ (by omega))).symm
  have hlast : (n + 1) * SIZEOF_FAT_DIRECTORY_ITEM - 1 < (n + 1) * SIZEOF_FAT_DIRECTORY_ITEM := by
    rw [SIZEOF_FAT_DIRECTORY_ITEM]
    omega
  refine ⟨?_, fun i hi => ?_, ?_⟩
  · have hrange := h.range _ hlast
    rw [hbytes _ hlast] at hrange
    omega
  · rw [hslot i (by omega)]
    exact h.before i hi
  · rw [hslot n (Nat.le_refl n)]
    exact h.terminator

/-- In an adjacent directory the scan counts the slots in use of the chain. -/
theorem usedSlots_of_adjacent {first n : Nat} (h : ChainDirectory image first n)
    (hadjacent : Adjacent image first (lastIndex image 0 ((n + 1) * SIZEOF_FAT_DIRECTORY_ITEM))) :
    usedSlots image (clusterPos (bootHeader image) first) 0 n = chainCount image first n := by
  have hbytes := (readAddr_adjacent_iff h.spc (by rw [SIZEOF_FAT_DIRECTORY_ITEM]; omega) h.clusters).mpr hadjacent
  rw [usedSlots, chainCount, List.range_eq_range']
  apply List.countP_congr
  intro j hj
  rw [List.mem_range'_1] at hj
  rw [chainSlot_eq_slotAt hbytes (Nat.mul_le_mul_right _ (by omega))]

/-- The scan succeeds, and the bytes it reads, from the first cluster to where it leaves the stream, are
those of the chain. -/
def ScansChain (image : Nat → Sector) (entry : List UInt8) (s : Kernel) : Prop :=
  Total (directoryScan entry) s fun r _ => 0 ≤ r.1 ∧
    ∃ m : Nat, r.2 = (clusterPos (bootHeader image) (firstCluster entry) + m : Nat) ∧
      ∀ i, i < m → readAddr image (firstCluster entry) 0 i =
        clusterPos (bootHeader image) (firstCluster entry) + i

/-- The state with the stream for directories at the first cluster. -/
def atFirstCluster (image : Nat → Sector) (priv : FatPrivate) (entry : List UInt8) (s : Kernel) : Kernel :=
  { s with
    live := diskStreamK.write s.live priv.directory_stream
      { pos := clusterPos (bootHeader image) (firstCluster entry) } }

theorem total_directoryScan {s : Kernel} {entry : List UInt8} (h : DirectoryReady s image priv)
    (hspc : 0 < (bootHeader image).sectors_per_cluster.toNat) (hge : 2 ≤ firstCluster entry)
    (hpos : clusterPos (bootHeader image) (firstCluster entry) < 2 ^ 31) {Q : Int × Int → Kernel → Prop} :
    Total (directoryScan entry) s Q ↔
      Total (getTotalItemsLoop priv.directory_stream (2 ^ 27) 0) (atFirstCluster image priv entry s) fun r s' =>
        ∃ st, s'.live priv.directory_stream = some (diskStreamK.inj st) ∧ Q (r, st.pos) s' := by
  have hrun := fat16GetTotalItems_directory h hspc hge hpos
  have hbind : ∀ Q, Total (fat16GetTotalItemsForDirectory (directorySector priv entry)) s Q ↔
      Total (getTotalItemsLoop priv.directory_stream (2 ^ 27) 0) (atFirstCluster image priv entry s) Q := by
    intro Q
    rw [Machine.Total, hrun]
    rfl
  unfold directoryScan
  rw [total_bind_of_some (fsPrivate_spec h.toMounted), total_bind, hbind]
  refine total_congr fun r s' _ => total_load_iff.trans (exists_congr fun st => and_congr_right fun _ => ?_)
  exact total_pure

/-- **The scan reads the chain exactly when the chain is adjacent.** -/
theorem scansChain_iff {s : Kernel} {entry : List UInt8} {n : Nat} (h : DirectoryReady s image priv)
    (hchain : ChainDirectory image (firstCluster entry) n) :
    ScansChain image entry s ↔ Adjacent image (firstCluster entry)
      (lastIndex image 0 ((n + 1) * SIZEOF_FAT_DIRECTORY_ITEM)) := by
  have hpositive : 0 < (n + 1) * SIZEOF_FAT_DIRECTORY_ITEM := by
    rw [SIZEOF_FAT_DIRECTORY_ITEM]
    omega
  obtain ⟨hge, hpos⟩ := hchain.first
  have hmay : MayFail (atFirstCluster image priv entry s) image := h.drive.mayFail
  have hstart : (atFirstCluster image priv entry s).live priv.directory_stream = some (diskStreamK.inj
      ⟨(clusterPos (bootHeader image) (firstCluster entry) + 0 * SIZEOF_FAT_DIRECTORY_ITEM : Nat)⟩) := by
    rw [Nat.zero_mul, Nat.add_zero]
    exact Kind.write_self ..
  have hfuel : ∀ {k}, Scanned (atFirstCluster image priv entry s) image
      (clusterPos (bootHeader image) (firstCluster entry)) 0 k → k < 2 ^ 27 := by
    intro k hk
    have hrange := hk.range
    rw [SIZEOF_FAT_DIRECTORY_ITEM] at hrange
    omega
  rw [ScansChain, total_directoryScan h hchain.spc hge hpos]
  constructor
  · rintro ⟨r, s', hrun, st, hst, hr, m, hm, hbytes⟩
    dsimp only at hr hm
    by_cases hany : ∃ k, Scanned (atFirstCluster image priv entry s) image
        (clusterPos (bootHeader image) (firstCluster entry)) 0 k
    · obtain ⟨k, hk⟩ := hany
      obtain ⟨-, hst'⟩ := (getTotalItemsLoop_found _ _ k 0 _ 0 _ hmay hstart hk (hfuel hk)).ensures _ _ hrun
      rw [hst] at hst'
      obtain rfl := diskStreamK.inj_injective (Option.some.inj hst')
      obtain rfl : m = (k + 1) * SIZEOF_FAT_DIRECTORY_ITEM := by
        dsimp only at hm
        rw [Nat.zero_add] at hm
        omega
      -- the scan and the chain have the same terminator
      have hslot : ∀ j, j ≤ k → slotAt image (clusterPos (bootHeader image) (firstCluster entry)) j
          = chainSlot image (firstCluster entry) j :=
        fun j hj => (chainSlot_eq_slotAt hbytes (Nat.mul_le_mul_right _ (by omega))).symm
      obtain rfl : k = n := by
        have hzero := hk.terminator
        rw [Nat.zero_add, hslot k (Nat.le_refl k)] at hzero
        by_contra hne
        rcases Nat.lt_or_gt_of_ne hne with hlt | hgt
        · exact hchain.before k hlt hzero
        · have hn := hk.before n (Nat.zero_le n) (by omega)
          rw [hslot n (by omega)] at hn
          exact hn hchain.terminator
      exact (readAddr_adjacent_iff hchain.spc hpositive hchain.clusters).mp hbytes
    · have hbase : clusterPos (bootHeader image) (firstCluster entry) % SIZEOF_FAT_DIRECTORY_ITEM = 0 := by
        rw [clusterPos, RASOS_SECTOR_SIZE, SIZEOF_FAT_DIRECTORY_ITEM]
        omega
      have hzero : clusterPos (bootHeader image) (firstCluster entry) + 0 * SIZEOF_FAT_DIRECTORY_ITEM
          = clusterPos (bootHeader image) (firstCluster entry) := by
        rw [Nat.zero_mul, Nat.add_zero]
      rcases getTotalItemsLoop_lost _ hbase _ 0 0 _ hmay hstart (lt_of_eq_of_lt hzero hpos) hany
        _ _ hrun with hneg | ⟨pos', hlive, -, hneg⟩
      · omega
      · rw [hst] at hlive
        obtain rfl := diskStreamK.inj_injective (Option.some.inj hlive)
        dsimp only at hm
        omega
  · intro hadjacent
    have hscan := (scanEnds_of_adjacent hchain hadjacent).scanned (s := atFirstCluster image priv entry s) h.drive
    refine (getTotalItemsLoop_found _ _ n 0 _ 0 _ hmay hstart hscan (hfuel hscan)).mono ?_
    rintro r s' ⟨rfl, hst⟩
    refine ⟨_, hst, by omega, (n + 1) * SIZEOF_FAT_DIRECTORY_ITEM, ?_, ?_⟩
    · rw [Nat.zero_add]
    · exact (readAddr_adjacent_iff hchain.spc hpositive hchain.clusters).mpr hadjacent

/-! ## The load -/

/-- There is room for the directory, and behind it for `count` slots. -/
def RoomFor (s : Kernel) (count : Nat) : Prop :=
  ¬ NoRoom s.heap SIZEOF_FAT_DIRECTORY ∧
    ∀ directory s', kzalloc fatDirectoryK SIZEOF_FAT_DIRECTORY {} s = some (directory, s') →
      ¬ NoRoom s'.heap (UInt32.ofNat (count * SIZEOF_FAT_DIRECTORY_ITEM))

/-- The blocks that `count` slots need. -/
def slotBlocks (count : Nat) : Nat := blocksFor (UInt32.ofNat (count * SIZEOF_FAT_DIRECTORY_ITEM))

theorem RoomFor.of_spacious {s : Kernel} {count k : Nat} (hwf : s.WF) (hpos : 0 < slotBlocks count)
    (hroom : Spacious s.heap (1 + (slotBlocks count + k))) : RoomFor s count := by
  have hone : blocksFor SIZEOF_FAT_DIRECTORY = 1 := by decide
  refine ⟨hroom.not_noRoom (by omega) (by omega), fun directory s' hrun => ?_⟩
  have hroom' := (kzalloc_cases hwf hrun).spacious (by rw [hone]; exact hroom)
  exact hroom'.not_noRoom hpos (Nat.le_add_right _ k)

/-- Freeing a directory that has no entries. -/
theorem fat16FreeDirectory_empty {s : Kernel} {directory : UInt32} {d : FatDirectory} (hne : directory ≠ 0)
    (hlive : s.live directory = some (fatDirectoryK.inj d)) (hitem : d.item = 0) :
    fat16FreeDirectory directory s = some ((), freed s directory) := by
  rw [fat16FreeDirectory, if_neg hne, bind_of_some (load_of_live hlive), if_pos hitem]
  exact kfree_of_live hlive

/-- What the code makes of the directory that begins at the cluster `first`: from sector to sector the scan
gets to a terminator and counts `count` slots, and so many slots can be read along the chain. -/
structure CountsSlots (image : Nat → Sector) (first count : Nat) : Prop where
  spc : 0 < (bootHeader image).sectors_per_cluster.toNat
  ge : 2 ≤ first
  scan : ∃ k, ScanEnds image (clusterPos (bootHeader image) first) k ∧
    count = usedSlots image (clusterPos (bootHeader image) first) 0 k
  range : ReadInRange image first 0 (count * SIZEOF_FAT_DIRECTORY_ITEM)
  followed : LinksFollowed image first (lastIndex image 0 (count * SIZEOF_FAT_DIRECTORY_ITEM))

namespace CountsSlots

variable {first count : Nat}

theorem bound (h : CountsSlots image first count) :
    clusterPos (bootHeader image) first + (count + 1) * SIZEOF_FAT_DIRECTORY_ITEM < 2 ^ 31 := by
  obtain ⟨k, hends, rfl⟩ := h.scan
  have hrange := hends.range
  have hle : usedSlots image (clusterPos (bootHeader image) first) 0 k ≤ k := usedSlots_le _ 0 k
  have hmul := Nat.mul_le_mul_right SIZEOF_FAT_DIRECTORY_ITEM (Nat.succ_le_succ hle)
  simp only [Nat.succ_eq_add_one] at hmul
  omega

theorem lt (h : CountsSlots image first count) : first < 2 ^ 23 := by
  have hbound := h.bound
  exact firstCluster_lt h.spc (by omega)

theorem unique {count' : Nat} (h : CountsSlots image first count) (h' : CountsSlots image first count') :
    count = count' := by
  obtain ⟨k, hends, rfl⟩ := h.scan
  obtain ⟨k', hends', rfl⟩ := h'.scan
  rcases Nat.lt_trichotomy k k' with hlt | rfl | hlt
  · exact absurd hends.terminator (hends'.before k hlt)
  · rfl
  · exact absurd hends'.terminator (hends.before k' hlt)

/-- It does so with an adjacent directory, whose slots in use it counts. -/
theorem of_adjacent {n : Nat} (h : ChainDirectory image first n)
    (hadjacent : Adjacent image first (lastIndex image 0 ((n + 1) * SIZEOF_FAT_DIRECTORY_ITEM))) :
    CountsSlots image first (chainCount image first n) := by
  have hcount : chainCount image first n ≤ n := chainCount_le first n
  have hbytes : (chainCount image first n) * SIZEOF_FAT_DIRECTORY_ITEM ≤ (n + 1) * SIZEOF_FAT_DIRECTORY_ITEM :=
    Nat.mul_le_mul_right _ (by omega)
  refine ⟨h.spc, h.first.1, ⟨n, scanEnds_of_adjacent h hadjacent, (usedSlots_of_adjacent h hadjacent).symm⟩,
    fun r hr => ?_, h.followed.mono (Nat.add_le_add_left (Nat.div_le_div_right (by omega)) _)⟩
  have hlt := h.range r (by omega)
  rw [Nat.zero_div, Nat.zero_add]
  exact ⟨h.clusters r (by omega), by omega⟩

end CountsSlots

/-- The count. -/
theorem total_directoryCount {s : Kernel} {entry : List UInt8} {count : Nat}
    (h : DirectoryReady s image priv) (hcounts : CountsSlots image (firstCluster entry) count) :
    Total (fat16GetTotalItemsForDirectory (directorySector priv entry)) s fun r _ => r = count := by
  obtain ⟨k, hends, hcount⟩ := hcounts.scan
  have hscan := hends.scanned (s := atFirstCluster image priv entry s) h.drive
  have hend := hscan.range
  rw [SIZEOF_FAT_DIRECTORY_ITEM] at hend
  have hstart : (atFirstCluster image priv entry s).live priv.directory_stream = some (diskStreamK.inj
      ⟨(clusterPos (bootHeader image) (firstCluster entry) + 0 * SIZEOF_FAT_DIRECTORY_ITEM : Nat)⟩) := by
    rw [Nat.zero_mul, Nat.add_zero]
    exact Kind.write_self ..
  have hfound := getTotalItemsLoop_found priv.directory_stream _ k 0 (2 ^ 27) 0
    (atFirstCluster image priv entry s) h.drive.mayFail hstart hscan (by omega)
  rw [Machine.Total, fat16GetTotalItems_directory h hcounts.spc hcounts.ge (by omega)]
  refine hfound.mono ?_
  rintro r _ ⟨rfl, -⟩
  rw [hcount, zero_add]

/-- What is read for the slots counted are the bytes of the chain. -/
theorem total_readSlots {s : Kernel} {entry : List UInt8} {count : Nat}
    (h : DirectoryReady s image priv) (hcounts : CountsSlots image (firstCluster entry) count)
    (hpositive : 0 < count * 32) (hend : count * 32 < 2 ^ 31) :
    Total (fat16ReadInternal (firstCluster entry) 0 (count * 32 : Nat)) s fun r _ =>
      r = (OK, readBytes image (firstCluster entry) 0 (count * 32)) := by
  have hread := fat16ReadInternal_spec (h.toMounted.layout hcounts.spc) hcounts.lt hpositive (by omega)
    hcounts.range.followed _ h.toMounted
  exact hread.mono fun r _ hr => hr.1.1 hcounts.followed

/-- **The load of a directory** whose slots can be counted and read, with room for it and without. -/
theorem fat16LoadFatDirectory_counted {s : Kernel} {entry : List UInt8} {count : Nat}
    (h : DirectoryReady s image priv) (hcounts : CountsSlots image (firstCluster entry) count)
    (hsub : itemIsSubdirectory entry = true) :
    Total (fat16LoadFatDirectory entry) s fun directory s' =>
      (RoomFor s count → ∃ d, s'.live directory = some (fatDirectoryK.inj d) ∧ d.total = count ∧
        s'.live d.item = some (dirItemsK.inj (readBytes image (firstCluster entry) 0
          (count * SIZEOF_FAT_DIRECTORY_ITEM))) ∧
        ∀ k, Spacious s.heap (1 + (slotBlocks count + k)) → Spacious s'.heap k) ∧
      (¬ RoomFor s count → s'.live directory = none) := by
  have hend := hcounts.bound
  rw [SIZEOF_FAT_DIRECTORY_ITEM] at hend
  have hfirst := hcounts.lt
  -- the directory
  obtain ⟨directory, s1, hrun1, hcases1⟩ := kzalloc_spec fatDirectoryK SIZEOF_FAT_DIRECTORY {} h.wf
  have hsince1 := hcases1.since h.wf
  have hspacious1 : ∀ k, Spacious s.heap (1 + k) → Spacious s1.heap k := fun k =>
    hcases1.spacious (n := k)
  rw [fat16LoadFatDirectory, hsub, if_neg (by decide), total_bind_of_some hrun1]
  by_cases hnull : directory = 0
  · have hfull := (hcases1.null_iff h.wf).mp hnull
    rw [if_pos hnull]
    refine total_pure.mpr ⟨fun hroom => absurd hfull hroom.1, fun _ => ?_⟩
    exact hsince1.wf.live_zero
  have hroom1 := mt (hcases1.null_iff h.wf).mpr hnull
  have hready1 := h.frame (keepsRest_rules.alloc fatDirectoryK fileKind_fatDirectory _ _ _ _ _ hrun1)
  obtain ⟨-, hlive1⟩ := hcases1.live hnull
  rw [if_neg hnull, total_bind_of_some (fsPrivate_spec hready1.toMounted)]
  -- the count
  obtain ⟨_, s2, hrun2, rfl⟩ := total_directoryCount hready1 hcounts
  have hmoved2 := moved_rules.fat16GetTotalItemsForDirectory _ _ _ _ hrun2
  have hready2 := hready1.frame (keepsRest_rules.fat16GetTotalItemsForDirectory _ _ _ _ hrun2)
  have hlive2 := (hmoved2.object _ _ fun _ heq => Obj.noConfusion heq).mpr hlive1
  have hsize : wrap ((count : Int) * SIZEOF_FAT_DIRECTORY_ITEM) = (count * 32 : Nat) := by
    rw [SIZEOF_FAT_DIRECTORY_ITEM, ← Nat.cast_mul]
    exact wrap_of_range (by omega) (by omega)
  have hword : UInt32.ofInt ((count * 32 : Nat) : Int) = UInt32.ofNat (count * SIZEOF_FAT_DIRECTORY_ITEM) := by
    rw [← UInt32.toNat_inj, toNat_ofInt_of_range (by omega) (by omega), SIZEOF_FAT_DIRECTORY_ITEM,
      toNat_ofNat_of_lt (by omega)]
    rfl
  have hwordNat : (UInt32.ofNat (count * SIZEOF_FAT_DIRECTORY_ITEM)).toNat = count * 32 := by
    rw [SIZEOF_FAT_DIRECTORY_ITEM, toNat_ofNat_of_lt (by omega)]
  have hroom : RoomFor s count ↔ ¬ NoRoom s2.heap (UInt32.ofNat (count * SIZEOF_FAT_DIRECTORY_ITEM)) := by
    rw [hmoved2.heap]
    refine ⟨fun hroom => hroom.2 _ _ hrun1, fun hroom => ⟨hroom1, fun p t hrun => ?_⟩⟩
    rw [hrun1] at hrun
    obtain ⟨-, rfl⟩ := Prod.mk.inj (Option.some.inj hrun)
    exact hroom
  dsimp only
  rw [show UInt32.ofInt (fat16ClusterToSector priv (signed (fat16GetFirstCluster entry)))
    = directorySector priv entry from rfl, total_bind_of_some hrun2, hsize, hword, hwordNat]
  -- the slots
  obtain ⟨items, s3, hrun3, hcases3⟩ := kzalloc_spec dirItemsK
    (UInt32.ofNat (count * SIZEOF_FAT_DIRECTORY_ITEM)) (List.replicate (count * 32) 0) hready2.wf
  have hsince3 := hcases3.since hready2.wf
  have hspacious3 : ∀ k, Spacious s.heap (1 + (slotBlocks count + k)) → Spacious s3.heap k := fun k hk =>
    hcases3.spacious (hmoved2.heap.symm ▸ hspacious1 _ hk)
  have hready3 := hready2.frame (keepsRest_rules.alloc dirItemsK fileKind_dirItems _ _ _ _ _ hrun3)
  have hlive3 := hsince3.object _ _ hlive2
  have hnoroom := hcases3.null_iff hready2.wf
  have hstore := store_of_live hlive3 { total := count, item := items }
  have hready4 := hready3.frame (keepsRest_rules.put fatDirectoryK fileKind_fatDirectory _ _ _ _ _ hstore)
  have hlive4 := Kind.write_self fatDirectoryK s3.live directory { total := count, item := items }
  rw [total_bind_of_some hrun3, total_bind_of_some hstore]
  by_cases hitems : items = 0
  · rw [if_pos hitems, total_bind_of_some (fat16FreeDirectory_empty hnull hlive4 hitems)]
    refine total_pure.mpr ⟨fun hyes => absurd (hnoroom.mp hitems) (hroom.mp hyes), fun _ => ?_⟩
    exact Function.update_self ..
  have hyes : RoomFor s count := hroom.mpr (mt hnoroom.mpr hitems)
  have hpositive : 0 < count * 32 := by
    by_contra hzero
    refine hroom.mp hyes (Or.inl ?_)
    rw [blocksFor, hwordNat]
    omega
  obtain ⟨hfree3, hitems3⟩ := hcases3.live hitems
  have hother : directory ≠ items := by
    rintro rfl
    rw [hfree3] at hlive2
    cases hlive2
  have hitems4 : fatDirectoryK.write s3.live directory { total := count, item := items } items = some _ :=
    (Kind.write_of_ne _ _ _ hother.symm).trans hitems3
  have hread := (total_readSlots hready4 hcounts hpositive (by omega)).keeps
    (moved_rules.fat16ReadInternal _ _ _)
  rw [if_neg hitems, signed_of_lt (show (fat16GetFirstCluster entry).toNat < 2 ^ 31 by
    rw [← firstCluster]; omega), ← firstCluster]
  refine hread.bind ?_
  rintro _ s5 ⟨rfl, hmoved5⟩
  have hlive5 := (hmoved5.object _ _ fun _ heq => Obj.noConfusion heq).mpr hlive4
  have hitems5 := (hmoved5.object _ _ fun _ heq => Obj.noConfusion heq).mpr hitems4
  dsimp only
  rw [readBytes_length, Nat.sub_self, List.replicate_zero, List.append_nil, total_store hitems5,
    if_neg (not_not.mpr rfl)]
  refine total_pure.mpr ⟨fun _ => ⟨{ total := count, item := items }, ?_, rfl, ?_, fun k hk => ?_⟩,
    fun hno => absurd hyes hno⟩
  · exact (Kind.write_of_ne _ _ _ hother).trans hlive5
  · exact Kind.write_self ..
  · rw [show s5.heap = s3.heap from hmoved5.heap]
    exact hspacious3 k hk

/-! ## The entries -/

/-- The load returns a directory in memory, its slots are bytes of the chain, and every slot in use before
the terminator is among them. -/
def LoadsEntries (image : Nat → Sector) (n : Nat) (entry : List UInt8) (s : Kernel) : Prop :=
  Total (fat16LoadFatDirectory entry) s fun directory s' => ∃ d items,
    s'.live directory = some (fatDirectoryK.inj d) ∧ s'.live d.item = some (dirItemsK.inj items) ∧
    items = readBytes image (firstCluster entry) 0 items.length ∧
    ∀ j, j < n → InUse (chainSlot image (firstCluster entry) j) →
      entryAt items j = chainSlot image (firstCluster entry) j

/-- No slot in use lies behind a deleted one. -/
def DeletedLast (image : Nat → Sector) (first n : Nat) : Prop :=
  ∀ i j, i < j → j < n → InUse (chainSlot image first j) → InUse (chainSlot image first i)

/-- A predicate that holds of a beginning of the numbers below `n` only holds of as many numbers as it
counts. -/
theorem closed_iff_lt_countP (p : Nat → Prop) [DecidablePred p] (n : Nat) :
    (∀ i j, i < j → j < n → p j → p i) ↔
      ∀ j, j < n → p j → j < (List.range n).countP fun j => p j := by
  constructor
  · intro h j hj hp
    have hsub : (List.range (j + 1)).Sublist (List.range n) := List.range_sublist.mpr hj
    have hall : (List.range (j + 1)).countP (fun j => decide (p j)) = j + 1 := by
      rw [List.countP_eq_length.mpr, List.length_range]
      intro i hi
      rw [List.mem_range] at hi
      by_cases hij : i = j
      · rw [hij]
        exact decide_eq_true hp
      · exact decide_eq_true (h i j (by omega) hj hp)
    have hle := hsub.countP_le (p := fun j => decide (p j))
    omega
  · intro h i j hij hj hp
    have hcard : ((Finset.range n).filter p).card = (List.range n).countP fun j => p j := by
      rw [List.countP_eq_length_filter]
      rfl
    -- what is counted is a set of numbers below the count, so it is all of them
    have hall : (Finset.range n).filter p = Finset.range ((List.range n).countP fun j => p j) := by
      refine Finset.eq_of_subset_of_card_le (fun k hk => ?_) ?_
      · rw [Finset.mem_filter, Finset.mem_range] at hk
        exact Finset.mem_range.mpr (h k hk.1 hk.2)
      · rw [Finset.card_range, hcard]
    have hmem : i ∈ (Finset.range n).filter p := by
      rw [hall, Finset.mem_range]
      exact lt_trans hij (h j hj hp)
    exact (Finset.mem_filter.mp hmem).2

/-- What the loaded slots contain. -/
theorem entryAt_readBytes_iff (first count j : Nat) :
    entryAt (readBytes image first 0 (count * SIZEOF_FAT_DIRECTORY_ITEM)) j = chainSlot image first j ↔
      j < count := by
  constructor
  · intro h
    by_contra hj
    have hlength := congrArg List.length h
    have hle : count * SIZEOF_FAT_DIRECTORY_ITEM ≤ j * SIZEOF_FAT_DIRECTORY_ITEM :=
      Nat.mul_le_mul_right _ (not_lt.mp hj)
    rw [entryAt, List.drop_eq_nil_of_le (by rw [readBytes_length]; exact hle), List.take_nil, chainSlot,
      slice_length] at hlength
    cases hlength
  · intro hj
    rw [readBytes, entryAt_slice _ _ hj, Nat.zero_add]
    rfl

/-- **Loading an adjacent directory** is right exactly when there is room for it and no slot in use lies
behind a deleted one. -/
theorem loadsEntries_iff {s : Kernel} {entry : List UInt8} {n : Nat}
    (h : DirectoryReady s image priv) (hchain : ChainDirectory image (firstCluster entry) n)
    (hadjacent : Adjacent image (firstCluster entry)
      (lastIndex image 0 ((n + 1) * SIZEOF_FAT_DIRECTORY_ITEM)))
    (hsub : itemIsSubdirectory entry = true) :
    LoadsEntries image n entry s ↔ RoomFor s (chainCount image (firstCluster entry) n) ∧
      DeletedLast image (firstCluster entry) n := by
  have hclosed : DeletedLast image (firstCluster entry) n ↔ _ :=
    closed_iff_lt_countP (fun j => InUse (chainSlot image (firstCluster entry) j)) n
  obtain ⟨directory, s', hrun, hroom, hfull⟩ :=
    fat16LoadFatDirectory_counted h (.of_adjacent hchain hadjacent) hsub
  rw [LoadsEntries, total_of_some hrun, hclosed]
  by_cases hyes : RoomFor s (chainCount image (firstCluster entry) n)
  · obtain ⟨d, hlive, -, hitems, -⟩ := hroom hyes
    rw [and_iff_right hyes]
    constructor
    · rintro ⟨d', items, hlive', hitems', -, hall⟩ j hj hused
      rw [hlive] at hlive'
      obtain rfl := fatDirectoryK.inj_injective (Option.some.inj hlive')
      rw [hitems] at hitems'
      obtain rfl := dirItemsK.inj_injective (Option.some.inj hitems')
      exact (entryAt_readBytes_iff _ _ j).mp (hall j hj hused)
    · intro hall
      refine ⟨d, _, hlive, hitems, by rw [readBytes_length], fun j hj hused => ?_⟩
      exact (entryAt_readBytes_iff _ _ j).mpr (hall j hj hused)
  · refine iff_of_false (fun hloads => ?_) fun hboth => hyes hboth.1
    obtain ⟨d, items, hlive, -⟩ := hloads
    rw [hfull hyes] at hlive
    cases hlive

/-- **When a subdirectory is read right.** For every subdirectory whose data occupy a chain of clusters
with a terminator: the scan for the count and the load read the same bytes of the chain and all
entries in use are loaded, if and only if the clusters up to the terminator are adjacent on the
disk, no entry in use lies behind a deleted one, and there is room. -/
theorem subdirectory_iff {s : Kernel} {entry : List UInt8} {n : Nat} (h : DirectoryReady s image priv)
    (hchain : ChainDirectory image (firstCluster entry) n) (hsub : itemIsSubdirectory entry = true) :
    ScansChain image entry s ∧ LoadsEntries image n entry s ↔
      Adjacent image (firstCluster entry) (lastIndex image 0 ((n + 1) * SIZEOF_FAT_DIRECTORY_ITEM)) ∧
        RoomFor s (chainCount image (firstCluster entry) n) ∧ DeletedLast image (firstCluster entry) n := by
  rw [scansChain_iff h hchain]
  exact and_congr_right fun hadjacent => loadsEntries_iff h hchain hadjacent hsub

/-- The entry of a subdirectory that begins at cluster 2. -/
def directoryEntry : List UInt8 :=
  0x41 :: (List.replicate 10 (0x20 : UInt8) ++ (0x10 :: List.replicate 14 (0 : UInt8)) ++ [2, 0, 0, 0, 0, 0])

/-- A volume where that subdirectory has these bytes in its clusters; cluster 2 is followed by cluster 4. -/
def directoryImage (data : Nat → Sector) : Nat → Sector :=
  oneFileImage 600 (fun i => if i = 4 then 4 else if i = 8 ∨ i = 9 then 0xFF else 0) data

def directoryKernel (data : Nat → Sector) : Kernel :=
  oneFileKernel 600 (fun i => if i = 4 then 4 else if i = 8 ∨ i = 9 then 0xFF else 0) data 0

theorem directoryKernel_ready (data : Nat → Sector) :
    DirectoryReady (directoryKernel data) (directoryImage data) oneFilePrivate where
  toMounted := oneFileKernel_mounted (by decide)
  directory_stream := ⟨{}, oneFileKernel_live (by decide)⟩

/-- Two entries in cluster 2. -/
def twoEntries : Nat → Sector := fun cluster i => if cluster = 2 ∧ i < 64 then 0x41 else 0

theorem subdirectory_two :
    ScansChain (directoryImage twoEntries) directoryEntry (directoryKernel twoEntries) ∧
        LoadsEntries (directoryImage twoEntries) 2 directoryEntry (directoryKernel twoEntries) ↔
      Adjacent (directoryImage twoEntries) (firstCluster directoryEntry)
          (lastIndex (directoryImage twoEntries) 0 ((2 + 1) * SIZEOF_FAT_DIRECTORY_ITEM)) ∧
        RoomFor (directoryKernel twoEntries)
          (chainCount (directoryImage twoEntries) (firstCluster directoryEntry) 2) ∧
        DeletedLast (directoryImage twoEntries) (firstCluster directoryEntry) 2 :=
  subdirectory_iff (directoryKernel_ready twoEntries)
    { spc := by decide +kernel
      clusters := by decide +kernel
      range := by decide +kernel
      followed := fun i hi => absurd hi (by
        have hlast : lastIndex (directoryImage twoEntries) 0 ((2 + 1) * SIZEOF_FAT_DIRECTORY_ITEM) = 0 := by
          decide +kernel
        omega)
      before := by decide +kernel
      terminator := by decide +kernel }
    (by decide +kernel)

/-- The slots of a loaded directory. -/
def loadedSlots (s : Kernel) (directory : UInt32) : Option (List UInt8) := do
  let d ← fatDirectoryK.read s.live directory
  dirItemsK.read s.live d.item

/-- Sixteen entries in cluster 2, one in cluster 4. -/
def splitEntries : Nat → Sector := fun cluster i =>
  if cluster = 2 ∨ cluster = 4 ∧ i < 32 then 0x41 else 0

/-- Slot 16 is an entry in use before the terminator of the chain, but it is not loaded: the scan has gone
on in cluster 3. -/
theorem subdirectory_split :
    ChainDirectory (directoryImage splitEntries) (firstCluster directoryEntry) 17 ∧
    InUse (chainSlot (directoryImage splitEntries) (firstCluster directoryEntry) 16) ∧
    Total (fat16LoadFatDirectory directoryEntry) (directoryKernel splitEntries) fun directory s' =>
      (loadedSlots s' directory).map List.length = some 512 ∧
      (loadedSlots s' directory).map (fun items => entryAt items 16) = some [] := by
  have hlast : lastIndex (directoryImage splitEntries) 0 ((17 + 1) * SIZEOF_FAT_DIRECTORY_ITEM) = 1 := by
    decide +kernel
  refine ⟨⟨by decide +kernel, by decide +kernel, by decide +kernel, fun i hi => ?_, by decide +kernel,
    by decide +kernel⟩, by decide +kernel, by decide +kernel⟩
  obtain rfl : i = 0 := by omega
  decide +kernel

end RasOS
