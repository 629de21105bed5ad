import RasOS.Disk.Requests
import RasOS.Fs.Mounting

set_option autoImplicit false

/-! # The data area

The clusters lie behind the root directory, cluster 2 first. `fat16_get_root_directory` computes where
the root directory ends, in whole sectors; `fat16_cluster_to_sector` counts from there, and its callers
turn the sector into a byte position, an `int`. -/

namespace RasOS

open Machine

/-! ## Where the data area begins -/

/-- The first sector behind the root directory: its last one may be filled in part. -/
def dataStart (h : FatHeader) : Nat :=
  h.reserved_sectors.toNat + h.fat_copies.toNat * h.sectors_per_fat.toNat +
    (h.root_dir_entries.toNat * SIZEOF_FAT_DIRECTORY_ITEM + 511) / RASOS_SECTOR_SIZE

/-- The code leaves out a last sector that is filled in part. -/
theorem dataSector_eq_dataStart_iff (h : FatHeader) :
    dataSector h = dataStart h ↔ 16 ∣ h.root_dir_entries.toNat := by
  unfold dataSector dataStart rootSector
  rw [SIZEOF_FAT_DIRECTORY_ITEM, RASOS_SECTOR_SIZE]
  omega

theorem dataSector_lt (h : FatHeader) : dataSector h < 2 ^ 25 := by
  have hcopies := h.fat_copies.toNat_lt
  have hsize := h.sectors_per_fat.toNat_lt
  have hres := h.reserved_sectors.toNat_lt
  have hentries := h.root_dir_entries.toNat_lt
  have htables : h.fat_copies.toNat * h.sectors_per_fat.toNat ≤ 255 * 65535 :=
    Nat.mul_le_mul (by omega) (by omega)
  unfold dataSector rootSector
  rw [SIZEOF_FAT_DIRECTORY_ITEM, RASOS_SECTOR_SIZE]
  omega

/-- The data area lies behind the root directory, and every cluster has sectors of its own there. -/
structure DataAreaPlaced (priv : FatPrivate) : Prop where
  start : priv.root_directory.ending_sector_pos = dataStart priv.header
  behind_root : rootSector priv.header * 512 +
    priv.header.root_dir_entries.toNat * SIZEOF_FAT_DIRECTORY_ITEM ≤ fat16ClusterToSector priv 2 * 512
  sectors : ∀ c : Nat, 2 ≤ c → c < 2 ^ 16 → fat16ClusterToSector priv c =
    (dataStart priv.header + (c - 2) * priv.header.sectors_per_cluster.toNat : Nat)
  apart : ∀ c c' : Nat, 2 ≤ c → c < c' → c' < 2 ^ 16 →
    fat16ClusterToSector priv c + priv.header.sectors_per_cluster.toNat ≤ fat16ClusterToSector priv c'

/-- The sector of a cluster, where the sum is an `int`. -/
theorem fat16ClusterToSector_eq {priv : FatPrivate} {start c : Nat} (hc : 2 ≤ c)
    (hstart : priv.root_directory.ending_sector_pos = start)
    (hrange : start + (c - 2) * priv.header.sectors_per_cluster.toNat < 2 ^ 31) :
    fat16ClusterToSector priv c =
      (start + (c - 2) * priv.header.sectors_per_cluster.toNat : Nat) := by
  have hcast : (c : Int) - 2 = (c - 2 : Nat) := by omega
  have hsum : priv.root_directory.ending_sector_pos + ((c : Int) - 2) *
      priv.header.sectors_per_cluster.toNat =
        (start + (c - 2) * priv.header.sectors_per_cluster.toNat : Nat) := by
    rw [hstart, hcast]
    push_cast
    rfl
  rw [fat16ClusterToSector, hsum]
  exact wrap_of_range (by omega) (by omega)

/-- The sectors of a 16-bit cluster number cannot leave the `int` range. -/
theorem cluster16_lt {h : FatHeader} {start c : Nat} (hstart : start < 2 ^ 26) (hc : c < 2 ^ 16) :
    start + (c - 2) * h.sectors_per_cluster.toNat < 2 ^ 31 := by
  have hspc := h.sectors_per_cluster.toNat_lt
  have hmul : (c - 2) * h.sectors_per_cluster.toNat ≤ 65535 * 255 :=
    Nat.mul_le_mul (by omega) (by omega)
  omega

theorem dataAreaPlaced_of_start {priv : FatPrivate}
    (hstart : priv.root_directory.ending_sector_pos = dataStart priv.header) :
    DataAreaPlaced priv := by
  have hlt : dataStart priv.header < 2 ^ 26 := by
    have hlt := dataSector_lt priv.header
    unfold dataSector rootSector at hlt
    unfold dataStart
    rw [SIZEOF_FAT_DIRECTORY_ITEM, RASOS_SECTOR_SIZE] at hlt ⊢
    omega
  have hsectors : ∀ c : Nat, 2 ≤ c → c < 2 ^ 16 → fat16ClusterToSector priv c =
      (dataStart priv.header + (c - 2) * priv.header.sectors_per_cluster.toNat : Nat) :=
    fun c hc hc' => fat16ClusterToSector_eq hc hstart (cluster16_lt hlt hc')
  refine ⟨hstart, ?_, hsectors, fun c c' hc hlt' hc' => ?_⟩
  · rw [← Nat.cast_two, hsectors 2 (Nat.le_refl 2) (by decide)]
    unfold dataStart rootSector
    rw [SIZEOF_FAT_DIRECTORY_ITEM, RASOS_SECTOR_SIZE, Nat.sub_self, Nat.zero_mul]
    push_cast
    omega
  · rw [hsectors c hc (by omega), hsectors c' (by omega) hc']
    have hnext : (c - 2 + 1) * priv.header.sectors_per_cluster.toNat ≤
        (c' - 2) * priv.header.sectors_per_cluster.toNat := Nat.mul_le_mul_right _ (by omega)
    rw [Nat.add_mul, Nat.one_mul] at hnext
    omega

/-- **When the data area begins where it should**: only when the entries of the root directory fill
their last sector. For every header and every disk from which the root directory can be loaded. -/
theorem dataArea_placed_iff {s s' : Kernel} {p : UInt32} {priv priv' : FatPrivate} (hwf : s.WF)
    (hp : s.live p = some (fatPrivateK.inj priv)) (hrun : fat16GetRootDirectory p s = some (OK, s'))
    (hp' : s'.live p = some (fatPrivateK.inj priv')) :
    priv'.header = priv.header ∧ (DataAreaPlaced priv' ↔ 16 ∣ priv.header.root_dir_entries.toNat) := by
  obtain ⟨s1, -, -, -, hok⟩ := fat16GetRootDirectory_stores hwf hp _ _ hrun
  obtain ⟨root, hroot, rfl⟩ := hok rfl
  obtain rfl : { priv with root_directory := root } = priv' := by
    have hstored : fatPrivateK.write s1.live p { priv with root_directory := root } p =
        some (fatPrivateK.inj priv') := hp'
    rw [Kind.write_self] at hstored
    exact fatPrivateK.inj_injective (Option.some.inj hstored)
  refine ⟨rfl, ?_⟩
  rw [← dataSector_eq_dataStart_iff]
  constructor
  · intro h
    have hstart : root.ending_sector_pos = dataStart priv.header := h.start
    rw [hroot] at hstart
    exact Int.ofNat_inj.mp hstart
  · intro h
    refine dataAreaPlaced_of_start ?_
    rw [← h]
    exact hroot

/-- The private data of the volume with one file, with another number of entries. -/
def entriesPrivate (entries : UInt16) : FatPrivate :=
  { oneFilePrivate with header := { oneFilePrivate.header with root_dir_entries := entries } }

def entriesKernel (entries : UInt16) : Kernel :=
  { oneFileKernel 600 (fun _ => 0) (fun _ _ => 0) 0 with
    live := fatPrivateK.write (oneFileKernel 600 (fun _ => 0) (fun _ _ => 0) 0).live (blockAddress 0)
      (entriesPrivate entries) }

theorem entriesKernel_wf (entries : UInt16) : (entriesKernel entries).WF := by
  have hmounted : Mounted (oneFileKernel 600 (fun _ => 0) (fun _ _ => 0) 0) _ oneFilePrivate :=
    oneFileKernel_mounted (by decide)
  exact hmounted.wf.write hmounted.private_data _

/-- What `fat16_get_root_directory` has stored. -/
def storedPrivate (s : Kernel) : Option FatPrivate := fatPrivateK.read s.live (blockAddress 0)

/-- Sixteen entries fill their sector. -/
theorem dataArea_placed_16 :
    Total (fat16GetRootDirectory (blockAddress 0)) (entriesKernel 16) fun res s' => res = OK ∧
      ∃ priv', s'.live (blockAddress 0) = some (fatPrivateK.inj priv') ∧
        priv'.header = (entriesPrivate 16).header ∧
        (DataAreaPlaced priv' ↔ 16 ∣ (entriesPrivate 16).header.root_dir_entries.toNat) := by
  have hloads : Total (fat16GetRootDirectory (blockAddress 0)) (entriesKernel 16)
      fun res s' => res = OK ∧ (storedPrivate s').isSome = true := by decide +kernel
  obtain ⟨res, s', hrun, rfl, hstored⟩ := hloads
  obtain ⟨priv', hpriv'⟩ := Option.isSome_iff_exists.mp hstored
  have hp' := Kind.read_eq_some.mp hpriv'
  exact ⟨OK, s', hrun, rfl, priv', hp',
    dataArea_placed_iff (entriesKernel_wf 16) (Kind.write_self ..) hrun hp'⟩

/-- Seventeen entries from sector 2 on take two sectors, but cluster 2 is looked for in the second one. -/
theorem dataArea_misplaced_17 :
    Total (fat16GetRootDirectory (blockAddress 0)) (entriesKernel 17) fun res s' => res = OK ∧
      ∃ priv', s'.live (blockAddress 0) = some (fatPrivateK.inj priv') ∧
        priv'.root_directory.ending_sector_pos = 3 ∧ dataStart priv'.header = 4 ∧
        fat16ClusterToSector priv' 2 = 3 ∧ ¬ DataAreaPlaced priv' := by
  have hloads : Total (fat16GetRootDirectory (blockAddress 0)) (entriesKernel 17)
      fun res s' => res = OK ∧ (storedPrivate s').any (fun priv' =>
        priv'.root_directory.ending_sector_pos = 3 ∧ dataStart priv'.header = 4 ∧
          fat16ClusterToSector priv' 2 = 3) = true := by decide +kernel
  refine hloads.mono fun res s' ⟨hres, hstored⟩ => ⟨hres, ?_⟩
  obtain ⟨priv', hpriv', hvalues⟩ := (Option.any_eq_true _ _).mp hstored
  obtain ⟨hend, hstart, hcluster⟩ := of_decide_eq_true hvalues
  refine ⟨priv', Kind.read_eq_some.mp hpriv', hend, hstart, hcluster, fun hplaced => ?_⟩
  have heq := hplaced.start
  rw [hend, hstart] at heq
  exact absurd heq (by decide)

/-! ## Where a byte of a cluster is looked for -/

/-- `starting_pos` of `fat16_read_internal_from_stream`, the position it seeks to. -/
def startingPos (priv : FatPrivate) (cluster_to_use offset_within_cluster : Int) : Int :=
  wrap (fat16ClusterToSector priv cluster_to_use * RASOS_SECTOR_SIZE + offset_within_cluster)

/-- The sector that `diskstreamer_read` asks for first. -/
def firstSector (pos : Int) : Nat := (pos.tdiv RASOS_SECTOR_SIZE % 2 ^ 28).toNat

theorem diskReadBlock_requests {lba : Int} {s s' : Kernel} {r : Int × Sector}
    (h : diskReadBlock lba s = some (r, s')) :
    s'.requests = (lba % 2 ^ 28).toNat :: s.requests := by
  unfold diskReadBlock at h
  dsimp only at h
  split at h <;> rw [← (Prod.mk.inj (Option.some.inj h)).2]

/-- Requests are added to those made before. -/
theorem requests_rules : StreamRules fun s s' => ∃ later, s'.requests = later ++ s.requests where
  frame := by
    refine ⟨fun s => ⟨[], rfl⟩, ?_⟩
    rintro s s' s'' ⟨later, h⟩ ⟨later', h'⟩
    exact ⟨later' ++ later, by rw [h', h, List.append_assoc]⟩
  seek := by
    intro stream st s u s' h
    obtain ⟨-, rfl⟩ := store_eq_some.mp h
    exact ⟨[], rfl⟩
  sector := fun lba s r s' h => ⟨[_], diskReadBlock_requests h⟩

/-- A read from this position on asks for this sector first. -/
def AsksFirst (pos : Int) (sector : Nat) : Prop :=
  ∀ (s : Kernel) (stream : UInt32) (total : Int), s.live stream = some (diskStreamK.inj ⟨pos⟩) →
    Ensures (diskstreamerRead stream total) s fun _ s' =>
      ∃ later, s'.requests = later ++ sector :: s.requests

theorem asksFirst_firstSector (pos : Int) : AsksFirst pos (firstSector pos) := by
  intro s stream total hst
  have hR := requests_rules
  unfold diskstreamerRead diskstreamerReadLoop
  refine ensures_load fun st hst' => ?_
  rw [hst] at hst'
  obtain rfl := diskStreamK.inj_injective (Option.some.inj hst')
  refine Ensures.bind (Q := fun _ s1 => s1.requests = firstSector pos :: s.requests)
    (fun _ _ h => diskReadBlock_requests h) ?_
  rintro ⟨res, buf⟩ s1 hasked
  rw [← hasked]
  refine Keeps.ensures (R := fun s s' => ∃ later, s'.requests = later ++ s.requests) ?_ s1
  refine Keeps.ite (hR.pure _) (Keeps.ite Keeps.stop ?_)
  refine hR.bind (hR.seek stream _) fun _ => Keeps.ite ?_ (hR.pure _)
  exact hR.bind (hR.diskstreamerReadLoop _ _ _) fun _ => hR.pure _

/-- A natural number is an `int` when it is below `2 ^ 31`. -/
theorem wrap_natCast_eq_iff {n : Nat} : wrap (n : Int) = n ↔ n < 2 ^ 31 := by
  constructor
  · intro h
    have hlt := wrap_lt n
    omega
  · intro h
    exact wrap_of_range (by omega) (by omega)

theorem firstSector_natCast (n : Nat) : firstSector n = n / 512 % 2 ^ 28 := by
  rw [firstSector, RASOS_SECTOR_SIZE, Int.tdiv_eq_ediv_of_nonneg (Int.natCast_nonneg n)]
  omega

/-- The cluster lies in the data area of a volume of so many sectors. -/
def InVolume (h : FatHeader) (sectors c : Nat) : Prop :=
  2 ≤ c ∧ dataSector h + (c - 2) * h.sectors_per_cluster.toNat + h.sectors_per_cluster.toNat ≤ sectors

/-- Byte `offset` of the cluster is looked for where it is. -/
structure PositionExact (priv : FatPrivate) (c offset : Nat) : Prop where
  position : startingPos priv c offset = (clusterPos priv.header c + offset : Nat)
  nonneg : 0 ≤ startingPos priv c offset
  sector : AsksFirst (startingPos priv c offset)
    (dataSector priv.header + (c - 2) * priv.header.sectors_per_cluster.toNat + offset / 512)

/-- **When a byte is looked for where it is**: when its position is an `int`. For every volume that
`fat16_resolve` accepts and that 28-bit sector numbers reach, every cluster of it and every byte. -/
theorem cluster_position_iff {s s' : Kernel} {res : Int} (hwf : s.WF)
    (hrun : fat16Resolve s = some (res, s')) (hres : 0 ≤ res) {priv : FatPrivate}
    (hpriv : s'.live s'.disk.fs_private = some (fatPrivateK.inj priv)) {sectors c offset : Nat}
    (hsectors : sectors ≤ 2 ^ 28) (hc : InVolume priv.header sectors c)
    (hoffset : offset < clusterSize priv.header) :
    PositionExact priv c offset ↔ clusterPos priv.header c + offset < 2 ^ 31 := by
  -- the private data are those that the resolve has left
  obtain ⟨p, priv', hdisk, hat, hend⟩ := (fat16Resolve_end hwf _ _ hrun).mounted hres
  rw [hdisk, hat.private_data] at hpriv
  obtain rfl := fatPrivateK.inj_injective (Option.some.inj hpriv)
  obtain ⟨htwo, hinside⟩ := hc
  have hsector := fat16ClusterToSector_eq htwo hend (by omega)
  have hsize : offset / 512 < priv'.header.sectors_per_cluster.toNat := by
    rw [clusterSize, RASOS_SECTOR_SIZE] at hoffset
    omega
  have hbelow : dataSector priv'.header + (c - 2) * priv'.header.sectors_per_cluster.toNat +
      offset / 512 < 2 ^ 28 := by omega
  have hpos : startingPos priv' c offset = wrap ((clusterPos priv'.header c + offset : Nat) : Int) := by
    rw [startingPos, hsector, clusterPos, RASOS_SECTOR_SIZE]
    push_cast
    rfl
  constructor
  · intro h
    have hposition := h.position
    rw [hpos] at hposition
    exact wrap_natCast_eq_iff.mp hposition
  · intro hlt
    have hexact : startingPos priv' c offset = (clusterPos priv'.header c + offset : Nat) :=
      hpos.trans (wrap_natCast_eq_iff.mpr hlt)
    refine ⟨hexact, ?_, ?_⟩
    · rw [hexact]
      exact Int.natCast_nonneg _
    · have hfirst := asksFirst_firstSector (startingPos priv' c offset)
      rw [hexact, firstSector_natCast, clusterPos, RASOS_SECTOR_SIZE, Nat.mul_comm,
        Nat.mul_add_div (by decide), Nat.mod_eq_of_lt hbelow] at hfirst
      rw [hexact, clusterPos, RASOS_SECTOR_SIZE, Nat.mul_comm]
      exact hfirst

/-- The header of the boot sector in `boot.asm`. -/
def bootAsmSector : Sector := fun i =>
  if i = 13 then 0x80
  else if i = 14 then 200
  else if i = 16 then 2
  else if i = 17 then 0x40
  else if i = 23 then 1
  else if i = 38 then 0x29
  else 0

/-- A disk with this boot sector and an empty root directory. -/
def bootAsmKernel : Kernel :=
  { oneFileKernel 600 (fun _ => 0) (fun _ _ => 0) 0 with
    drive := fun _ sector => some (if sector = 0 then bootAsmSector else fun _ => 0) }

theorem bootAsmKernel_wf : bootAsmKernel.WF := by
  have hwf : (oneFileKernel 600 (fun _ => 0) (fun _ _ => 0) 0).WF := oneFileKernel_wf (by decide)
  exact hwf.of_live rfl fun _ o ho => ⟨o, ho⟩

/-- The volume of `boot.asm` is accepted, with its data area from sector 716 on. -/
theorem bootAsm_accepted : ∃ res s' priv, fat16Resolve bootAsmKernel = some (res, s') ∧ 0 ≤ res ∧
    s'.live s'.disk.fs_private = some (fatPrivateK.inj priv) ∧
    priv.header.sectors_per_cluster = 128 ∧ dataSector priv.header = 716 ∧
    priv.root_directory.ending_sector_pos = 716 := by
  have haccepts : Total fat16Resolve bootAsmKernel fun res s' => 0 ≤ res ∧
      (fatPrivateK.read s'.live s'.disk.fs_private).any (fun priv =>
        priv.header.sectors_per_cluster = 128 ∧ dataSector priv.header = 716 ∧
          priv.root_directory.ending_sector_pos = 716) = true := by decide +kernel
  obtain ⟨res, s', hrun, hres, hany⟩ := haccepts
  obtain ⟨priv, hpriv, hvalues⟩ := (Option.any_eq_true _ _).mp hany
  exact ⟨res, s', priv, hrun, hres, Kind.read_eq_some.mp hpriv, of_decide_eq_true hvalues⟩

/-- Byte 5 of cluster 3 of that volume. -/
theorem cluster_position_3 : ∃ priv : FatPrivate,
    InVolume priv.header 0x773594 3 ∧ (PositionExact priv 3 5 ↔ clusterPos priv.header 3 + 5 < 2 ^ 31) := by
  obtain ⟨res, s', priv, hrun, hres, hpriv, hspc, hsector, -⟩ := bootAsm_accepted
  have hc : InVolume priv.header 0x773594 3 := by
    rw [InVolume, hsector, hspc]
    decide
  refine ⟨priv, hc, cluster_position_iff bootAsmKernel_wf hrun hres hpriv (by decide) hc ?_⟩
  rw [clusterSize, hspc]
  decide

/-- Cluster 40000 of that volume begins with sector 5120460, and is looked for at a negative position,
with a request for sector 265167308. -/
theorem cluster_position_40000 : ∃ res s' priv, fat16Resolve bootAsmKernel = some (res, s') ∧ 0 ≤ res ∧
    s'.live s'.disk.fs_private = some (fatPrivateK.inj priv) ∧
    InVolume priv.header 0x773594 40000 ∧ fat16ClusterToSector priv 40000 = 5120460 ∧
    startingPos priv 40000 0 = -1673291776 ∧ firstSector (startingPos priv 40000 0) = 265167308 ∧
    ¬ PositionExact priv 40000 0 := by
  obtain ⟨res, s', priv, hrun, hres, hpriv, hspc, hsector, hend⟩ := bootAsm_accepted
  have hcluster : fat16ClusterToSector priv 40000 = 5120460 := by
    rw [fat16ClusterToSector, hend, hspc]
    decide
  have hpos : startingPos priv 40000 0 = -1673291776 := by
    rw [startingPos, hcluster]
    decide
  refine ⟨res, s', priv, hrun, hres, hpriv, ?_, hcluster, hpos, ?_, fun h => ?_⟩
  · have hspc128 : priv.header.sectors_per_cluster.toNat = 128 := congrArg UInt8.toNat hspc
    refine ⟨by omega, ?_⟩
    omega
  · rw [hpos]
    decide
  · have hnonneg := h.nonneg
    rw [Nat.cast_ofNat, Nat.cast_zero, hpos] at hnonneg
    exact absurd hnonneg (by decide)

end RasOS
