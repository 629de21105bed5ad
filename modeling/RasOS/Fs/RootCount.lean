import RasOS.Fs.Resolve
import RasOS.Fs.RootSearch
import RasOS.Fs.SlotScan

set_option autoImplicit false

/-! # Counting the entries of the root directory

When the volume is mounted the entries of the root directory are counted, with a scan that has no
bound, and as many slots as the boot sector says are loaded. -/

namespace RasOS

open Machine

variable {image : Nat → Sector}

/-! ## The volume -/

/-- `fat16_resolve` up to the call of `fat16_get_root_directory`: the private data, the stream of the
boot sector, and the status so far. -/
def fat16ResolveHead : KernelM (UInt32 × UInt32 × Int) := do
  let r ← resolvePrivate
  let status ← resolveBoot r.1 r.2
  return (r.1, r.2, status)

theorem fat16Resolve_eq : fat16Resolve = (do
    let r ← fat16ResolveHead
    let res ← resolveRoot r.1 r.2.2
    resolveOut r.1 r.2.1 res) := by
  rw [fat16Resolve_parts, fat16ResolveHead]
  simp only [bind_assoc, pure_bind]

/-- The state in which the root directory is loaded. -/
structure HeadDone (image : Nat → Sector) (s : Kernel) (p : UInt32) (priv : FatPrivate) (s' : Kernel) :
    Prop where
  wf : s'.WF
  drive : s'.drive = s.drive
  requests : s'.requests = 0 :: s.requests
  disk : s'.disk.fs_private = p
  private_data : s'.live p = some (fatPrivateK.inj priv)
  header : priv.header = bootHeader image
  stream : ∃ st, s'.live priv.directory_stream = some (diskStreamK.inj st)

theorem HeadDone.hasPrivate {s s' : Kernel} {p : UInt32} {priv : FatPrivate}
    (h : HeadDone image s p priv s') : HasPrivate s' priv := by
  rw [HasPrivate, h.disk]
  exact h.private_data

/-- When the head has come to the root directory, it has asked for the boot sector only. -/
theorem fat16ResolveHead_spec {s : Kernel} (hwf : s.WF) (hdrive : MayFail s image) :
    Ensures fat16ResolveHead s fun r s' => 0 ≤ r.2.2 →
      r.2.2 = OK ∧ r.2.1 ≠ 0 ∧ ∃ priv, HeadDone image s r.1 priv s' := by
  obtain ⟨p, stream, s7, hprivate, ⟨hne, priv, hprep⟩ | ⟨rfl, -⟩⟩ := resolvePrivate_spec hwf
  swap
  · -- no block is left for the stream
    rw [fat16ResolveHead, ensures_bind_of_some hprivate]
    dsimp only
    rw [resolveBoot, if_pos rfl, pure_bind]
    exact Ensures.pure fun h => absurd h (by decide : ¬ 0 ≤ (- ENOMEM))
  rw [fat16ResolveHead, ensures_bind_of_some hprivate]
  refine Ensures.bind (Q := fun status s' => 0 ≤ status → status = OK ∧ ∃ priv, HeadDone image s p priv s') ?_
    fun status s' h => Ensures.pure fun hok => ⟨(h hok).1, hne, (h hok).2⟩
  dsimp only
  rw [resolveBoot, if_neg hne]
  have hstream := hprep.boot_stream
  -- the boot sector
  have hmay7 : MayFail s7 image := by
    rw [MayFail, hprep.drive]
    exact hdrive
  have hread := diskstreamerRead_requests (p := 0) (n := SIZEOF_FAT_H) hmay7 hstream (by decide)
  have hmoved := moved_rules.diskstreamerRead stream SIZEOF_FAT_H
  by_cases hboot : Succeeds s7.drive s7.requests (readSectors 0 SIZEOF_FAT_H)
  · obtain ⟨r, s8, hrun, hdone⟩ := hread.1 hboot
    have h8 := hmoved _ _ _ hrun
    have hp8 := (h8.object _ _ fun _ heq => Obj.noConfusion heq).mpr hprep.private_data
    obtain ⟨st, hst⟩ := (h8.stream priv.directory_stream).mpr hprep.directory_stream
    have hdp : priv.directory_stream ≠ p := by
      intro heq
      rw [heq, hp8] at hst
      cases hst
    rw [ensures_bind_of_some hrun, hdone.result]
    refine ensures_load fun priv' hpriv => ensures_store fun _ _ => ?_
    rw [hp8] at hpriv
    obtain rfl := fatPrivateK.inj_injective (Option.some.inj hpriv)
    refine Ensures.ite (fun h => absurd rfl h) fun _ => ?_
    refine Ensures.ite (fun _ => Ensures.pure fun h => absurd h (by decide : ¬ 0 ≤ (- EFSNOTUS))) fun _ =>
      Ensures.pure fun _ => ?_
    refine ⟨rfl, _, (h8.wf hprep.wf).write hp8 _, ?_, ?_, ?_, Kind.write_self .., rfl, st, ?_⟩
    · exact hdone.drive.trans hprep.drive
    · show s8.requests = _
      rw [hdone.requests, hprep.requests]
      rfl
    · show s8.disk.fs_private = _
      rw [show s8.disk = s7.disk from congrArg Statics.disk h8.statics, hprep.disk]
    · exact (Kind.write_of_ne _ _ _ hdp).trans hst
  · refine Ensures.bind (hread.2 hboot).ensures ?_
    rintro ⟨res, bytes⟩ s8 hneg
    dsimp only at hneg ⊢
    refine ensures_load fun priv _ => ensures_store fun _ _ => ?_
    have hres : res ≠ OK := by
      rintro rfl
      exact absurd hneg (lt_irrefl OK)
    rw [if_pos hres]
    exact Ensures.pure fun h => absurd h (by decide : ¬ 0 ≤ (- EIO))

/-- The scan of the root directory, and the position it leaves the stream at. -/
def rootScan (image : Nat → Sector) : KernelM (Int × Int) := do
  let total ← fat16GetTotalItemsForDirectory (UInt32.ofInt (rootSector (bootHeader image) : Nat))
  let priv ← fsPrivate
  let st ← load diskStreamK priv.directory_stream
  return (total, st.pos)

/-- The scan ends inside the root directory. -/
def ScanInside (image : Nat → Sector) (pos : Int) : Prop :=
  (rootPos image : Int) < pos ∧ pos ≤ (rootPos image + rootEntries image * SIZEOF_FAT_DIRECTORY_ITEM : Nat)

/-- The loop from the position of the root directory on. -/
theorem getTotalItemsLoop_root {s : Kernel} {stream : UInt32} {pos : Int} (hdrive : MayFail s image)
    (hpos : pos = signed (UInt32.ofInt (rootSector (bootHeader image) : Nat) * 512))
    (hst : s.live stream = some (diskStreamK.inj ⟨pos⟩)) :
    Ensures (getTotalItemsLoop stream (2 ^ 27) 0) s fun r s' =>
      ∀ st, s'.live stream = some (diskStreamK.inj st) →
        (∀ n, n < rootEntries image → Scanned s image (rootPos image) 0 n →
          0 ≤ r ∧ r ≤ rootEntries image ∧ ScanInside image st.pos) ∧
        ((¬ ∃ n, n < rootEntries image ∧ Scanned s image (rootPos image) 0 n) → r < 0 ∨ ¬ ScanInside image st.pos) := by
  intro r s' hrun st hst'
  have hsector : rootPos image = rootSector (bootHeader image) * 512 := rfl
  have hbase : rootPos image % SIZEOF_FAT_DIRECTORY_ITEM = 0 := by
    rw [SIZEOF_FAT_DIRECTORY_ITEM]
    omega
  have hstart : pos < 2 ^ 31 := by
    have hlt := (UInt32.ofInt (rootSector (bootHeader image) : Nat) * 512).toNat_lt
    rw [hpos, signed]
    split <;> omega
  have hint : st.pos < 2 ^ 31 := by
    refine getTotalItemsLoop_int _ _ _ _ (fun st1 hst1 => ?_) r s' hrun st hst'
    rw [hst] at hst1
    obtain rfl := diskStreamK.inj_injective (Option.some.inj hst1)
    exact hstart
  by_cases hrange : rootPos image < 2 ^ 31
  · have hroot : pos = (rootPos image + 0 * SIZEOF_FAT_DIRECTORY_ITEM : Nat) := by
      have hnat : (UInt32.ofInt (rootSector (bootHeader image) : Nat) * 512).toNat = rootPos image := by
        rw [UInt32.toNat_mul, toNat_ofInt_of_range (by omega) (by omega),
          show (512 : UInt32).toNat = 512 from rfl]
        omega
      rw [hpos, signed_of_lt (by omega), hnat, Nat.zero_mul, Nat.add_zero]
    rw [hroot] at hst
    have hzero : rootPos image + 0 * SIZEOF_FAT_DIRECTORY_ITEM = rootPos image := by
      rw [Nat.zero_mul, Nat.add_zero]
    have hlost := getTotalItemsLoop_lost stream hbase (2 ^ 27) 0 0 s hdrive hst
      (lt_of_eq_of_lt hzero hrange)
    have hscan : ∀ n, Scanned s image (rootPos image) 0 n → r ≤ n ∧ 0 ≤ r ∧
        st.pos = (rootPos image + (n + 1) * SIZEOF_FAT_DIRECTORY_ITEM : Nat) := by
      intro n hn
      have hfuel : n < 2 ^ 27 := by
        have hn := hn.range
        rw [SIZEOF_FAT_DIRECTORY_ITEM] at hn
        omega
      obtain ⟨hr, hstream⟩ :=
        (getTotalItemsLoop_found stream (rootPos image) n 0 _ 0 s hdrive hst hn hfuel).ensures r s' hrun
      have hcount : usedSlots image (rootPos image) 0 n ≤ n := usedSlots_le _ _ _
      rw [hst', Nat.zero_add] at hstream
      obtain rfl := diskStreamK.inj_injective (Option.some.inj hstream)
      exact ⟨by omega, by omega, rfl⟩
    refine ⟨fun n hn hscanned => ?_, fun hno => ?_⟩
    · obtain ⟨hle, hge, hstop⟩ := hscan n hscanned
      refine ⟨hge, by omega, ?_⟩
      rw [ScanInside, hstop, SIZEOF_FAT_DIRECTORY_ITEM]
      omega
    · by_cases hany : ∃ n, Scanned s image (rootPos image) 0 n
      · -- the first zero lies behind the directory
        obtain ⟨n, hn⟩ := hany
        obtain ⟨-, -, hstop⟩ := hscan n hn
        have hbehind : rootEntries image ≤ n := by
          by_contra hlt
          exact hno ⟨n, not_le.mp hlt, hn⟩
        refine Or.inr fun hinside => ?_
        rw [ScanInside, hstop, SIZEOF_FAT_DIRECTORY_ITEM] at hinside
        omega
      · rcases hlost hany r s' hrun with hneg | ⟨pos', hlive, -, hneg⟩
        · exact Or.inl hneg
        · refine Or.inr fun hinside => ?_
          rw [hst'] at hlive
          obtain rfl := diskStreamK.inj_injective (Option.some.inj hlive)
          exact absurd (lt_trans hinside.1 hneg) (by omega)
  · -- no `int` is a position in the directory
    refine ⟨fun n _ hn => absurd hn.range (by omega), fun _ => Or.inr fun hinside => ?_⟩
    exact absurd (lt_trans hinside.1 hint) (by omega)

/-- **How the scan of the root directory ends.** -/
theorem rootScan_spec {s mid : Kernel} {p : UInt32} {priv : FatPrivate} (hdrive : MayFail s image)
    (h : HeadDone image s p priv mid) :
    Ensures (rootScan image) mid fun r _ =>
      (∀ n, n < rootEntries image → Scanned mid image (rootPos image) 0 n →
        0 ≤ r.1 ∧ r.1 ≤ rootEntries image ∧ ScanInside image r.2) ∧
      ((¬ ∃ n, n < rootEntries image ∧ Scanned mid image (rootPos image) 0 n) → r.1 < 0 ∨ ¬ ScanInside image r.2) := by
  have hprivate := h.hasPrivate
  have hmay : MayFail mid image := by
    rw [MayFail, h.drive]
    exact hdrive
  have hseek := diskstreamerSeek_spec (signed (UInt32.ofInt (rootSector (bootHeader image) : Nat) * 512)) h.stream
  have hrun : fat16GetTotalItemsForDirectory (UInt32.ofInt (rootSector (bootHeader image) : Nat)) mid = _ :=
    (bind_of_some hprivate.fsPrivate).trans ((bind_of_some hseek).trans (congrFun (if_neg (by decide)) _))
  have hmoved := moved_rules.fat16GetTotalItemsForDirectory (UInt32.ofInt (rootSector (bootHeader image) : Nat))
  unfold rootScan
  refine Ensures.bind (Q := fun (r : Int) s1 => Moved mid s1 ∧ ∀ st,
    s1.live priv.directory_stream = some (diskStreamK.inj st) →
      (∀ n, n < rootEntries image → Scanned mid image (rootPos image) 0 n →
        0 ≤ r ∧ r ≤ rootEntries image ∧ ScanInside image st.pos) ∧
      ((¬ ∃ n, n < rootEntries image ∧ Scanned mid image (rootPos image) 0 n) → r < 0 ∨ ¬ ScanInside image st.pos)) ?_ ?_
  · intro r s1 h1
    refine ⟨hmoved _ _ _ h1, ?_⟩
    rw [hrun] at h1
    intro st hst
    obtain ⟨hin, hout⟩ := getTotalItemsLoop_root
      (s := { mid with live := diskStreamK.write mid.live priv.directory_stream _ })
      hmay rfl (Kind.write_self ..) r s1 h1 st hst
    refine ⟨fun n hn hs => hin n hn (hs.congr rfl rfl), fun hno => hout ?_⟩
    rintro ⟨n, hn, hs⟩
    exact hno ⟨n, hn, hs.congr rfl rfl⟩
  rintro r s1 ⟨hmoved1, hstop⟩
  have hpriv1 := (hprivate.moved hmoved1).fsPrivate
  rw [ensures_bind_of_some hpriv1]
  exact ensures_load fun st hst => Ensures.pure (hstop st hst)

/-- What loading the root directory leaves: the count of the scan, and an array with room for all slots. -/
structure RootRecorded (image : Nat → Sector) (mid : Kernel) (p : UInt32) (priv : FatPrivate) (s' : Kernel) :
    Prop where
  disk : s'.disk = mid.disk
  private_data : s'.live p = some (fatPrivateK.inj priv)
  items : ∃ items, s'.live priv.root_directory.item = some (dirItemsK.inj items) ∧
    rootEntries image * SIZEOF_FAT_DIRECTORY_ITEM ≤ items.length
  scan : Total (rootScan image) mid fun r _ => r.1 = priv.root_directory.total

theorem fat16GetRootDirectory_records {s mid : Kernel} {p : UInt32} {priv : FatPrivate}
    (h : HeadDone image s p priv mid) :
    Ensures (fat16GetRootDirectory p) mid fun res s' => res = OK →
      ∃ priv', RootRecorded image mid p priv' s' := by
  have hsector : (priv.header.fat_copies.toNat : Int) * priv.header.sectors_per_fat.toNat +
      priv.header.reserved_sectors.toNat = (rootSector (bootHeader image) : Nat) := by
    rw [h.header, rootSector]
    push_cast
    rfl
  have hsize : (priv.header.root_dir_entries.toNat : Int) * SIZEOF_FAT_DIRECTORY_ITEM
      = (rootEntries image * SIZEOF_FAT_DIRECTORY_ITEM : Nat) := by
    rw [h.header, rootEntries]
    push_cast
    rfl
  unfold fat16GetRootDirectory
  refine ensures_load fun priv' hpriv' => ?_
  rw [h.private_data] at hpriv'
  obtain rfl := fatPrivateK.inj_injective (Option.some.inj hpriv')
  dsimp only
  rw [hsector, hsize]
  -- the count
  refine Ensures.bind (Q := fun total s1 => Moved mid s1 ∧
    Total (rootScan image) mid fun r _ => r.1 = total) ?_ ?_
  · intro total s1 hrun
    have hmoved := moved_rules.fat16GetTotalItemsForDirectory _ _ _ _ hrun
    obtain ⟨st, hst⟩ := (hmoved.stream priv.directory_stream).mpr h.stream
    have hpriv1 := (h.hasPrivate.moved hmoved).fsPrivate
    refine ⟨hmoved, ?_⟩
    unfold rootScan
    rw [total_bind_of_some hrun, total_bind_of_some hpriv1, total_load hst]
    exact total_pure.mpr rfl
  rintro total s1 ⟨hmoved, hscan⟩
  have h1 : Grown mid s1 := hmoved.grown h.wf
  refine h1.ensures_kzalloc fun dir s2 h2 _ hdir => ?_
  refine Ensures.ite (fun _ => Ensures.pure fun h => absurd h (by decide)) fun hne => ?_
  have hfree : mid.live dir = none := h1.fresh (hdir hne).1
  -- the slots
  refine h2.ensures_moved (moved_rules.diskstreamerSeek _ _) fun res s3 h3 _ => ?_
  refine Ensures.ite (fun _ => Ensures.pure fun h => absurd h (by decide)) fun _ => ?_
  refine h3.ensures_moved (moved_rules.diskstreamerRead _ _) fun r s4 h4 _ => ?_
  refine ensures_store fun old hold => ?_
  refine Ensures.ite (fun _ => Ensures.pure fun h => absurd h (by decide)) fun _ => ?_
  refine ensures_load fun priv5 hpriv5 => ensures_store fun _ _ => Ensures.pure fun _ => ?_
  have hother : dir ≠ p := by
    rintro rfl
    rw [h.private_data] at hfree
    cases hfree
  refine ⟨_, congrArg Statics.disk h4.statics, Kind.write_self .., ⟨r.2 ++ List.replicate
    (((rootEntries image * SIZEOF_FAT_DIRECTORY_ITEM : Nat) : Int).toNat - r.2.length) 0, ?_, ?_⟩, hscan⟩
  · exact (Kind.write_of_ne _ _ _ hother).trans (Kind.write_self ..)
  · rw [List.length_append, List.length_replicate, Int.toNat_natCast]
    omega

/-- An accepted volume: the head has come to the root directory, and the root directory is loaded. -/
theorem fat16Resolve_accepts {s s' : Kernel} {res : Int} (hwf : s.WF) (hdrive : MayFail s image)
    (hrun : fat16Resolve s = some (res, s')) (hres : 0 ≤ res) :
    ∃ r mid priv priv', fat16ResolveHead s = some (r, mid) ∧ HeadDone image s r.1 priv mid ∧
      s'.disk.fs_private = r.1 ∧ RootRecorded image mid r.1 priv' s' := by
  rw [fat16Resolve_eq] at hrun
  obtain ⟨⟨p, stream, status⟩, mid, hhead, htail⟩ := bind_eq_some.mp hrun
  obtain ⟨res1, s2, hroot, hout⟩ := bind_eq_some.mp htail
  dsimp only at hroot hout
  -- a negative status is returned
  obtain rfl : res = res1 := resolveOut_status _ _ _ _ _ _ hout
  have hstatus : 0 ≤ status := by
    by_contra hneg
    have hne : status ≠ OK := by
      rintro rfl
      exact hneg (le_refl OK)
    rw [resolveRoot, if_pos hne] at hroot
    obtain ⟨rfl, -⟩ := pure_eq_some.mp hroot
    exact hneg hres
  obtain ⟨rfl, hstream, priv, hdone⟩ := fat16ResolveHead_spec hwf hdrive _ _ hhead hstatus
  rw [resolveRoot, if_neg (not_not.mpr rfl)] at hroot
  obtain ⟨loaded, s3, hload, hrest⟩ := bind_eq_some.mp hroot
  by_cases hok : loaded = OK
  swap
  · rw [if_pos hok] at hrest
    obtain ⟨rfl, -⟩ := pure_eq_some.mp hrest
    exact absurd hres (by decide)
  rw [if_neg (not_not.mpr hok)] at hrest
  obtain ⟨rfl, rfl⟩ := pure_eq_some.mp hrest
  obtain ⟨priv', hrec⟩ := fat16GetRootDirectory_records hdone _ _ hload hok
  obtain ⟨items, hitems, hlen⟩ := hrec.items
  have hp : p ≠ 0 := hdone.wf.ne_zero hdone.private_data
  obtain ⟨-, ⟨st, hst⟩, hclosed, -⟩ := resolveOut_spec hp hstream OK s3 _ _ hout
  obtain rfl := hclosed hres
  -- closing the stream of the boot sector leaves the other objects
  have hkept : ∀ q o, (∀ st, o ≠ .diskStream st) → s3.live q = some o →
      Function.update s3.live stream none q = some o := by
    intro q o ho hq
    have hne : q ≠ stream := by
      rintro rfl
      rw [hst] at hq
      exact ho st (Option.some.inj hq).symm
    exact (Function.update_of_ne hne ..).trans hq
  refine ⟨_, mid, priv, priv', hhead, hdone, ?_, hrec.disk, ?_, ⟨items, ?_, hlen⟩, hrec.scan⟩
  · show s3.disk.fs_private = p
    rw [hrec.disk, hdone.disk]
  · exact hkept _ _ (fun _ heq => Obj.noConfusion heq) hrec.private_data
  · exact hkept _ _ (fun _ heq => Obj.noConfusion heq) hitems

/-- The count is one of the slots of the array, and the scan has stopped inside the directory. -/
structure RootBounded (image : Nat → Sector) (s s' : Kernel) : Prop where
  total : ∃ priv items, s'.live s'.disk.fs_private = some (fatPrivateK.inj priv) ∧
    s'.live priv.root_directory.item = some (dirItemsK.inj items) ∧
    0 ≤ priv.root_directory.total ∧ priv.root_directory.total ≤ rootEntries image ∧
    priv.root_directory.total.toNat * SIZEOF_FAT_DIRECTORY_ITEM ≤ items.length
  scan : Total (fat16ResolveHead >>= fun _ => rootScan image) s fun r _ => ScanInside image r.2

/-- The directory ends with a zero, and no request on the way there fails. The request for the boot
sector comes before them. -/
def EndsReadably (image : Nat → Sector) (s : Kernel) : Prop :=
  ∃ n, RootEnds image n ∧ rootPos image + (n + 1) * SIZEOF_FAT_DIRECTORY_ITEM < 2 ^ 31 ∧
    Succeeds s.drive (0 :: s.requests) (scanSectors (rootPos image) 0 (n + 1))

theorem HeadDone.endsReadably_iff {s mid : Kernel} {p : UInt32} {priv : FatPrivate}
    (h : HeadDone image s p priv mid) :
    EndsReadably image s ↔ ∃ n, n < rootEntries image ∧ Scanned mid image (rootPos image) 0 n := by
  constructor
  · rintro ⟨n, hends, hrange, hrequests⟩
    refine ⟨n, hends.inside, ?_, fun i _ hi => hends.before i ?_, ?_, ?_⟩
    · rw [Nat.zero_add]
      exact hrange
    · rw [Nat.zero_add] at hi
      exact hi
    · rw [Nat.zero_add]
      exact hends.terminator
    · rw [h.drive, h.requests]
      exact hrequests
  · rintro ⟨n, hn, hscan⟩
    have hrange := hscan.range
    have hbefore := hscan.before
    have hterminator := hscan.terminator
    have hrequests := hscan.requests
    rw [Nat.zero_add] at hrange hbefore hterminator
    rw [h.drive, h.requests] at hrequests
    exact ⟨n, ⟨hn, hterminator, fun i hi => hbefore i (Nat.zero_le i) hi⟩, hrange, hrequests⟩

/-- **When the count of the root directory is right.** For every image that `fat16_resolve` accepts, from
a drive some of whose requests may fail. -/
theorem rootBounded_iff {s s' : Kernel} {res : Int} (hwf : s.WF) (hdrive : MayFail s image)
    (hrun : fat16Resolve s = some (res, s')) (hres : 0 ≤ res) :
    RootBounded image s s' ↔ EndsReadably image s := by
  obtain ⟨r, mid, priv, priv', hhead, hdone, hfs, hrec⟩ := fat16Resolve_accepts hwf hdrive hrun hres
  obtain ⟨items, hitems, hlen⟩ := hrec.items
  obtain ⟨⟨total, pos⟩, t, hscan, htotal⟩ := hrec.scan
  obtain ⟨hfound, hlost⟩ := rootScan_spec hdrive hdone _ _ hscan
  dsimp only at hfound hlost htotal
  rw [hdone.endsReadably_iff]
  constructor
  · intro hbounded
    by_contra hno
    obtain ⟨priv1, items1, hpriv1, -, hge, -⟩ := hbounded.total
    rw [hfs, hrec.private_data] at hpriv1
    obtain rfl := fatPrivateK.inj_injective (Option.some.inj hpriv1)
    have hinside := hbounded.scan
    rw [total_bind_of_some hhead, total_of_some hscan] at hinside
    rcases hlost hno with hneg | hout
    · omega
    · exact hout hinside
  · rintro ⟨n, hn, hs⟩
    obtain ⟨hge, hle, hinside⟩ := hfound n hn hs
    rw [htotal] at hge hle
    refine ⟨⟨priv', items, ?_, hitems, hge, hle, ?_⟩, ?_⟩
    · rw [hfs]
      exact hrec.private_data
    · rw [SIZEOF_FAT_DIRECTORY_ITEM] at hlen ⊢
      omega
    · rw [total_bind_of_some hhead, total_of_some hscan]
      exact hinside

/-- The volume with the one entry `A`. -/
theorem rootBounded_A :
    Total fat16Resolve (slotsKernel (oneFileEntry 600)) fun res s' => 0 ≤ res ∧
      (RootBounded (slotsImage (oneFileEntry 600)) (slotsKernel (oneFileEntry 600)) s' ↔
        EndsReadably (slotsImage (oneFileEntry 600)) (slotsKernel (oneFileEntry 600))) := by
  obtain ⟨res, s', hrun, hres⟩ : Total fat16Resolve (slotsKernel (oneFileEntry 600)) fun res _ => 0 ≤ res := by
    decide +kernel
  exact ⟨res, s', hrun, hres, rootBounded_iff (slotsKernel_ready _).wf
    (slotsKernel_ready _).drive.mayFail hrun hres⟩

/-- The count of the root directory. -/
def rootTotal (s : Kernel) : Option Int :=
  (fatPrivateK.read s.live s.disk.fs_private).map fun priv => priv.root_directory.total

/-- The volume with one file, but all slots of the root directory are in use, and the first cluster
looks like slots in use, too. -/
def fullRootKernel : Kernel :=
  { oneFileKernel 600 (fun _ => 0) (fun _ _ => 0) 0 with
    drive := fun _ sector =>
      if sector = 2 ∨ sector = 3 then some fun _ => 0x41
      else some (oneFileImage 600 (fun _ => 0) (fun _ _ => 0) sector) }

/-- The volume with the one entry `A`; the first request of the scan fails. -/
def failingScanKernel : Kernel :=
  { slotsKernel (oneFileEntry 600) with
    drive := fun requests sector =>
      if requests = [0] then none else some (slotsImage (oneFileEntry 600) sector) }

/-- Both volumes have 16 slots and are accepted, one with 32 entries, the other one with a negative
number of them. -/
theorem rootTotal_unbounded :
    oneFilePrivate.header.root_dir_entries = 16 ∧
    (Total fat16Resolve fullRootKernel fun res s' => res = OK ∧ rootTotal s' = some 32) ∧
    Total fat16Resolve failingScanKernel fun res s' => res = OK ∧ rootTotal s' = some (- EIO) := by
  decide +kernel

end RasOS
