import RasOS.Fs.Volume
import RasOS.Kernel.Room

set_option autoImplicit false

/-! # Mounting a volume

When `fat16_resolve` succeeds on a drive that holds an image, the volume of the image is mounted. -/

namespace RasOS

open Machine

variable {image : Nat → Sector}

/-- The private data are being filled in at `p`. -/
structure Resolving (s : Kernel) (image : Nat → Sector) (p : UInt32) (priv : FatPrivate) : Prop where
  wf : s.WF
  drive : HoldsImage s image
  private_data : s.live p = some (fatPrivateK.inj priv)
  cluster_stream : ∃ st, s.live priv.cluster_read_stream = some (diskStreamK.inj st)
  fat_stream : ∃ st, s.live priv.fat_read_stream = some (diskStreamK.inj st)

/-- The private data and their streams, without regard to what is on the disk. -/
structure PrivateAt (s : Kernel) (p : UInt32) (priv : FatPrivate) : Prop where
  wf : s.WF
  private_data : s.live p = some (fatPrivateK.inj priv)
  cluster_stream : ∃ st, s.live priv.cluster_read_stream = some (diskStreamK.inj st)
  fat_stream : ∃ st, s.live priv.fat_read_stream = some (diskStreamK.inj st)

theorem PrivateAt.resolving {s : Kernel} {p : UInt32} {priv : FatPrivate} (h : PrivateAt s p priv)
    (hdrive : HoldsImage s image) : Resolving s image p priv :=
  ⟨h.wf, hdrive, h.private_data, h.cluster_stream, h.fat_stream⟩

theorem HoldsImage.congr {s s' : Kernel} (h : HoldsImage s image) (hdrive : s'.drive = s.drive) :
    HoldsImage s' image := by
  intro requests sector
  rw [hdrive]
  exact h requests sector

theorem PrivateAt.frame {s s' : Kernel} {p : UInt32} {priv : FatPrivate} (h : PrivateAt s p priv)
    (hframe : KeepsRest s s') : PrivateAt s' p priv := by
  have hf := hframe h.wf
  obtain ⟨st, hst⟩ := h.cluster_stream
  obtain ⟨st', hst'⟩ := h.fat_stream
  exact ⟨hf.wf, hf.object _ _ h.private_data rfl (fun st hne => by cases hne),
    hf.stream _ st hst, hf.stream _ st' hst'⟩

theorem PrivateAt.since {s s' : Kernel} {p : UInt32} {priv : FatPrivate} (h : PrivateAt s p priv)
    (hsince : Since s s') : PrivateAt s' p priv := by
  obtain ⟨st, hst⟩ := h.cluster_stream
  obtain ⟨st', hst'⟩ := h.fat_stream
  exact ⟨hsince.wf, hsince.object _ _ h.private_data, ⟨st, hsince.object _ _ hst⟩,
    ⟨st', hsince.object _ _ hst'⟩⟩

/-- Changing the header or the root directory leaves the streams alone. -/
theorem PrivateAt.store {s : Kernel} {p : UInt32} {priv : FatPrivate} (priv' : FatPrivate)
    (h : PrivateAt s p priv) (hc : priv'.cluster_read_stream = priv.cluster_read_stream)
    (hf : priv'.fat_read_stream = priv.fat_read_stream) :
    PrivateAt { s with live := fatPrivateK.write s.live p priv' } p priv' := by
  have hother : ∀ q st, s.live q = some (diskStreamK.inj st) →
      fatPrivateK.write s.live p priv' q = some (diskStreamK.inj st) := by
    intro q st hq
    have hne : q ≠ p := by
      rintro rfl
      rw [h.private_data] at hq
      cases hq
    exact (Kind.write_of_ne _ _ _ hne).trans hq
  obtain ⟨st, hst⟩ := h.cluster_stream
  obtain ⟨st', hst'⟩ := h.fat_stream
  exact ⟨h.wf.write h.private_data priv', Kind.write_self .., ⟨st, by rw [hc]; exact hother _ _ hst⟩,
    ⟨st', by rw [hf]; exact hother _ _ hst'⟩⟩

/-- When the disk is set up, the volume is mounted. -/
theorem Resolving.mounted {s : Kernel} {priv : FatPrivate} (h : Resolving s image s.disk.fs_private priv)
    (hheader : priv.header = bootHeader image)
    (hend : priv.root_directory.ending_sector_pos = dataSector priv.header) : Mounted s image priv := by
  rw [hheader] at hend
  exact ⟨h.wf, h.drive, h.private_data, h.cluster_stream, h.fat_stream, hheader, hend⟩

theorem diskstreamerNew_spec {s : Kernel} (hwf : s.WF) :
    ∃ stream s', Made diskStreamK ⟨0⟩ s stream s' ∧ diskstreamerNew s = some (stream, s') := by
  have hone : blocksFor SIZEOF_DISK_STREAM = 1 := by decide
  obtain ⟨stream, s', hmade, hrun⟩ := made_new (k := diskStreamK) {} ⟨0⟩ (f := Pure.pure) hwf hone
  exact ⟨stream, s', hmade, hrun⟩

/-- `fat16_get_root_directory` fills in the root directory, or only reads. -/
theorem fat16GetRootDirectory_stores {s : Kernel} {p : UInt32} {priv : FatPrivate} (hwf : s.WF)
    (hp : s.live p = some (fatPrivateK.inj priv)) :
    Ensures (fat16GetRootDirectory p) s fun res s' => ∃ s1, KeepsRest s s1 ∧
      s1.live p = some (fatPrivateK.inj priv) ∧ (res ≠ OK → s1 = s') ∧
      (res = OK → ∃ root : FatDirectory, root.ending_sector_pos = dataSector priv.header ∧
        s' = { s1 with live := fatPrivateK.write s1.live p { priv with root_directory := root } }) := by
  have hR := keepsRest_rules
  -- what has only read the volume still has the private data
  have hdata : ∀ {t : Kernel}, KeepsRest s t → t.live p = some (fatPrivateK.inj priv) :=
    fun h => (h hwf).object _ _ hp rfl fun st hne => by cases hne
  have hfail : ∀ (res : Int) (t : Kernel), res ≠ OK → KeepsRest s t →
      Ensures (Pure.pure res : KernelM Int) t fun res s' => ∃ s1, KeepsRest s s1 ∧
        s1.live p = some (fatPrivateK.inj priv) ∧ (res ≠ OK → s1 = s') ∧
        (res = OK → ∃ root : FatDirectory, root.ending_sector_pos = dataSector priv.header ∧
          s' = { s1 with live := fatPrivateK.write s1.live p { priv with root_directory := root } }) :=
    fun res t hres ht => Ensures.pure ⟨t, ht, hdata ht, fun _ => rfl, fun h => absurd h hres⟩
  unfold fat16GetRootDirectory
  refine ensures_load fun priv' hpriv' => ?_
  rw [hp] at hpriv'
  obtain rfl := fatPrivateK.inj_injective (Option.some.inj hpriv')
  refine Ensures.bind ((hR.fat16GetTotalItemsForDirectory _).ensures s) fun total s1 h1 => ?_
  refine Ensures.bind ((hR.alloc _ fileKind_dirItems _ _).ensures s1) fun dir s2 h2 => ?_
  have hrest2 := hR.frame.trans h1 h2
  refine Ensures.ite (fun _ => hfail _ _ (by decide) hrest2) fun _ => ?_
  refine Ensures.bind ((hR.diskstreamerSeek _ _).ensures s2) fun res s3 h3 => ?_
  have hrest3 := hR.frame.trans hrest2 h3
  refine Ensures.ite (fun _ => hfail _ _ (by decide) hrest3) fun _ => ?_
  refine Ensures.bind ((hR.diskstreamerRead _ _).ensures s3) ?_
  rintro ⟨res, bytes⟩ s4 h4
  refine Ensures.bind ((hR.put _ fileKind_dirItems _ _).ensures s4) fun _ s5 h5 => ?_
  have hrest5 := hR.frame.trans (hR.frame.trans hrest3 h4) h5
  refine Ensures.ite (fun _ => hfail _ _ (by decide) hrest5) fun _ => ?_
  refine ensures_load fun priv' hpriv' => ensures_store fun _ _ => ?_
  rw [hdata hrest5] at hpriv'
  obtain rfl := fatPrivateK.inj_injective (Option.some.inj hpriv')
  refine Ensures.pure ⟨s5, hrest5, hdata hrest5, fun h => absurd rfl h, fun _ => ⟨_, ?_, rfl⟩⟩
  rw [dataSector, rootSector]
  push_cast
  rfl

/-! ## The parts of `fat16_resolve` -/

/-- `fat16_resolve` up to the boot sector: the private data, and the stream to read it. -/
def resolvePrivate : KernelM (UInt32 × UInt32) := do
  let fat_private ← kzalloc fatPrivateK SIZEOF_FAT_PRIVATE {}
  storeUnchecked fatPrivateK fat_private {}
  let cluster_read_stream ← diskstreamerNew
  let fat_read_stream ← diskstreamerNew
  let directory_stream ← diskstreamerNew
  storeUnchecked fatPrivateK fat_private {
    cluster_read_stream := cluster_read_stream
    fat_read_stream := fat_read_stream
    directory_stream := directory_stream }
  assign fun s => { s with disk := { filesystem := some .fat16, fs_private := fat_private } }
  let stream ← diskstreamerNew
  return (fat_private, stream)

/-- The boot sector is read and its signature compared. -/
def resolveBoot (fat_private stream : UInt32) : KernelM Int :=
  if stream = 0 then
    return - ENOMEM
  else do
    let (res, bytes) ← diskstreamerRead stream SIZEOF_FAT_H
    let priv ← load fatPrivateK fat_private
    store fatPrivateK fat_private { priv with header := FatHeader.ofBytes bytes }
    if res ≠ OK then
      return - EIO
    else if byteAt bytes 38 ≠ RASOS_FAT16_SIGNATURE then
      return - EFSNOTUS
    else
      return OK

/-- The root directory is loaded, when all has been right so far. -/
def resolveRoot (fat_private : UInt32) (status : Int) : KernelM Int :=
  if status ≠ OK then
    return status
  else do
    let res ← fat16GetRootDirectory fat_private
    if res ≠ OK then return - EIO else return OK

/-- What follows the label `out`. -/
def resolveOut (fat_private stream : UInt32) (res : Int) : KernelM Int := do
  if stream ≠ 0 then
    diskstreamerClose stream
  if res < 0 then do
    kfreeUnchecked fatPrivateK fat_private
    assign fun s => { s with disk := { filesystem := none, fs_private := 0 } }
    return res
  else
    return res

theorem fat16Resolve_parts : fat16Resolve = (do
    let r ← resolvePrivate
    let status ← resolveBoot r.1 r.2
    let res ← resolveRoot r.1 status
    resolveOut r.1 r.2 res) := by
  have hnomem : (- ENOMEM) ≠ OK := by decide
  have hio : (- EIO) ≠ OK := by decide
  have hnotus : (- EFSNOTUS) ≠ OK := by decide
  unfold fat16Resolve resolvePrivate resolveBoot resolveRoot resolveOut
  simp only [bind_assoc, pure_bind, ite_bind, if_pos hnomem, if_pos hio, if_pos hnotus,
    if_neg (not_not.mpr (Eq.refl OK))]

/-! ## The private data -/

/-- The private data at `p` have been allocated since `s` and have their streams; `stream` is to read the
boot sector. -/
structure Prepared (s : Kernel) (p : UInt32) (priv : FatPrivate) (stream : UInt32) (s' : Kernel) :
    Prop extends PrivateAt s' p priv where
  drive : s'.drive = s.drive
  requests : s'.requests = s.requests
  disk : s'.disk = { filesystem := some .fat16, fs_private := p }
  directory_stream : ∃ st, s'.live priv.directory_stream = some (diskStreamK.inj st)
  boot_stream : s'.live stream = some (diskStreamK.inj ⟨0⟩)
  new : s.live priv.cluster_read_stream = none
  cluster_ne : priv.cluster_read_stream ≠ stream
  fat_ne : priv.fat_read_stream ≠ stream
  room : 5 ≤ freeCount s.heap

/-- There was no block for the stream of the boot sector. The private data are at `p`, when there was a block
for them. -/
structure Starved (s : Kernel) (p : UInt32) (s' : Kernel) : Prop where
  wf : s'.WF
  drive : s'.drive = s.drive
  full : freeCount s.heap < 5
  new : s.live p = none
  private_data : p ≠ 0 → ∃ priv, s'.live p = some (fatPrivateK.inj priv)
  /-- nothing but the private data -/
  only : freeCount s.heap < 2 → ∀ q, q ≠ p → s'.live q = s.live q
  /-- at least one of their streams -/
  stream : 2 ≤ freeCount s.heap → ∃ q st, q ≠ p ∧ s.live q = none ∧ s'.live q = some (diskStreamK.inj st)

/-- The record is written a second time: what is not at `p` stays. -/
theorem storeUnchecked_private {s : Kernel} {p : UInt32} {old : FatPrivate} (hwf : s.WF)
    (hp : p ≠ 0 → s.live p = some (fatPrivateK.inj old)) (priv : FatPrivate) :
    ∃ s', storeUnchecked fatPrivateK p priv s = some ((), s') ∧ s'.WF ∧ s'.heap = s.heap ∧
      s'.statics = s.statics ∧ s'.requests = s.requests ∧
      (p ≠ 0 → s'.live p = some (fatPrivateK.inj priv)) ∧ ∀ q, q ≠ p → s'.live q = s.live q := by
  by_cases h0 : p = 0
  · subst h0
    refine ⟨s, ?_, hwf, rfl, rfl, rfl, fun h => absurd rfl h, fun _ _ => rfl⟩
    rw [storeUnchecked_null]
    rfl
  · refine ⟨_, ?_, hwf.write (hp h0) priv, rfl, rfl, rfl, fun _ => Kind.write_self .., fun q hq =>
      Kind.write_of_ne _ _ _ hq⟩
    rw [storeUnchecked_of_ne h0, store_of_live (hp h0)]

theorem resolvePrivate_spec {s : Kernel} (hwf : s.WF) :
    ∃ p stream s', resolvePrivate s = some ((p, stream), s') ∧
      ((stream ≠ 0 ∧ ∃ priv, Prepared s p priv stream s') ∨ (stream = 0 ∧ Starved s p s')) := by
  have hone : blocksFor SIZEOF_FAT_PRIVATE = 1 := by decide
  unfold resolvePrivate
  obtain ⟨p, s1, hp, hrun1⟩ := made_new (k := fatPrivateK) {} {} (s := s) hwf hone
  have h1 := hp.since hwf
  -- the three streams
  obtain ⟨c, s2, hc, hrun2⟩ := diskstreamerNew_spec h1.wf
  have h2 := hc.since h1.wf
  obtain ⟨f, s3, hf, hrun3⟩ := diskstreamerNew_spec h2.wf
  have h3 := hf.since h2.wf
  obtain ⟨d, s4, hd, hrun4⟩ := diskstreamerNew_spec h3.wf
  have h4 := hd.since h3.wf
  have h14 : Since s1 s4 := (h2.trans h3).trans h4
  have hp4 : p ≠ 0 → s4.live p = some (fatPrivateK.inj {}) := fun hne => h14.object _ _ (hp.live hne).2
  obtain ⟨s5, hrun5, hwf5, hheap5, hstatics5, hreq5, hlive5, hother5⟩ := storeUnchecked_private h14.wf hp4
    { cluster_read_stream := c, fat_read_stream := f, directory_stream := d }
  obtain ⟨s6, hs6⟩ : ∃ s6, s6 = { s5 with disk := { filesystem := some .fat16, fs_private := p } } := ⟨_, rfl⟩
  have hwf6 : s6.WF := by
    rw [hs6]
    exact hwf5.of_live rfl fun _ o ho => ⟨o, ho⟩
  have hlive6 : s6.live = s5.live := by rw [hs6]
  have hheap6 : s6.heap = s4.heap := by
    rw [hs6]
    exact hheap5
  -- the stream of the boot sector
  obtain ⟨stream, s7, hstream, hrun7⟩ := diskstreamerNew_spec hwf6
  have h7 := hstream.since hwf6
  have hcount : freeCount s6.heap = freeCount s.heap - 4 := by
    rw [hheap6, hd.count, hf.count, hc.count, hp.count]
    omega
  have hdrive : s7.drive = s.drive := by
    rw [h7.drive, hs6, show ({ s5 with disk := { filesystem := some .fat16, fs_private := p } } : Kernel).drive
      = s4.drive from congrArg Statics.drive hstatics5, h14.drive, h1.drive]
  refine ⟨p, stream, s7, ?_, ?_⟩
  · rw [hrun1, bind_of_some hrun2, bind_of_some hrun3, bind_of_some hrun4, bind_of_some hrun5,
      bind_of_some (assign_apply _ _), ← hs6, bind_of_some hrun7]
    rfl
  have hcne := hc.ne_zero_iff
  have hpne := hp.ne_zero_iff
  have hcount1 := hp.count
  have hcount2 := hc.count
  have hcount3 := hf.count
  by_cases hroom : 5 ≤ freeCount s.heap
  · have hp0 : p ≠ 0 := hpne.mpr (by omega)
    have hc0 : c ≠ 0 := hcne.mpr (by omega)
    have hf0 : f ≠ 0 := hf.ne_zero_iff.mpr (by omega)
    have hd0 : d ≠ 0 := hd.ne_zero_iff.mpr (by omega)
    have hs0 : stream ≠ 0 := hstream.ne_zero_iff.mpr (by omega)
    refine Or.inl ⟨hs0, { cluster_read_stream := c, fat_read_stream := f, directory_stream := d }, ?_⟩
    have hstay : ∀ q, s4.live q = some (diskStreamK.inj ⟨0⟩) → s6.live q = some (diskStreamK.inj ⟨0⟩) := by
      intro q hq
      have hqp : q ≠ p := by
        rintro rfl
        rw [hp4 hp0] at hq
        cases hq
      rw [hlive6, hother5 q hqp]
      exact hq
    have hc6 := hstay c ((h3.trans h4).object _ _ (hc.live hc0).2)
    have hf6 := hstay f (h4.object _ _ (hf.live hf0).2)
    have hd6 := hstay d (hd.live hd0).2
    have hat : PrivateAt s6 p { cluster_read_stream := c, fat_read_stream := f, directory_stream := d } := by
      refine ⟨hwf6, ?_, ⟨⟨0⟩, hc6⟩, ⟨⟨0⟩, hf6⟩⟩
      rw [hlive6]
      exact hlive5 hp0
    have hne : ∀ q, s6.live q = some (diskStreamK.inj ⟨0⟩) → q ≠ stream := by
      rintro q hq rfl
      rw [(hstream.live hs0).1] at hq
      cases hq
    refine ⟨hat.since h7, hdrive, ?_, ?_, ⟨⟨0⟩, h7.object _ _ hd6⟩, (hstream.live hs0).2,
      h1.fresh (hc.live hc0).1, hne c hc6, hne f hf6, hroom⟩
    · rw [hstream.requests, hs6]
      exact hreq5.trans (hd.requests.trans (hf.requests.trans (hc.requests.trans hp.requests)))
    · rw [h7.disk, hs6]
  · -- without a block for the last stream there is none for it now
    obtain ⟨rfl, rfl⟩ := hstream.full (by omega)
    have hnew : s.live p = none := by
      by_cases h0 : p = 0
      · rw [h0]
        exact hwf.live_zero
      · exact (hp.live h0).1
    refine Or.inr ⟨rfl, hwf6, hdrive, by omega, hnew, fun h0 => ?_, fun hlt q hq => ?_, fun hle => ?_⟩
    · rw [hlive6]
      exact ⟨_, hlive5 h0⟩
    · obtain ⟨rfl, rfl⟩ := hc.full (by omega)
      obtain ⟨rfl, rfl⟩ := hf.full (by omega)
      obtain ⟨rfl, rfl⟩ := hd.full (by omega)
      rw [hlive6, hother5 q hq]
      exact hp.other hq
    · have hp0 : p ≠ 0 := hpne.mpr (by omega)
      have hc0 : c ≠ 0 := hcne.mpr (by omega)
      have hcp : c ≠ p := by
        rintro rfl
        have hfree := (hc.live hc0).1
        rw [(hp.live hp0).2] at hfree
        cases hfree
      refine ⟨c, ⟨0⟩, hcp, h1.fresh (hc.live hc0).1, ?_⟩
      rw [hlive6, hother5 c hcp]
      exact (h3.trans h4).object _ _ (hc.live hc0).2

/-! ## The end -/

/-- The end returns the status. -/
theorem resolveOut_status (p stream : UInt32) (res : Int) (s : Kernel) :
    Ensures (resolveOut p stream res) s fun r _ => r = res := by
  have hend : ∀ s : Kernel, Ensures (if res < 0 then do
      kfreeUnchecked fatPrivateK p
      assign fun s => { s with disk := { filesystem := none, fs_private := 0 } }
      return res
    else return res) s fun r _ => r = res := by
    intro s
    refine Ensures.ite (fun _ => ?_) fun _ => Ensures.pure rfl
    exact Ensures.bind (Q := fun _ _ => True) (fun _ _ _ => trivial) fun _ _ _ => ensures_assign (Ensures.pure rfl)
  exact Ensures.ite (fun _ => Ensures.bind (Q := fun _ _ => True) (fun _ _ _ => trivial) fun _ s1 _ => hend s1)
    fun _ => hend s

/-- What the end leaves: the stream of the boot sector is closed, and after an error the private data are
gone. -/
theorem resolveOut_spec {p stream : UInt32} (hp : p ≠ 0) (hstream : stream ≠ 0) (res : Int) (s : Kernel) :
    Ensures (resolveOut p stream res) s fun r s' => r = res ∧
      (∃ st, s.live stream = some (diskStreamK.inj st)) ∧
      (0 ≤ res → s' = freed s stream) ∧
      (res < 0 → s' = { freed (freed s stream) p with disk := { filesystem := none, fs_private := 0 } }) := by
  unfold resolveOut diskstreamerClose
  rw [if_pos hstream, kfreeUnchecked_of_ne hp]
  refine Ensures.bind (Q := fun _ s1 => (∃ st, s.live stream = some (diskStreamK.inj st)) ∧
    s1 = freed s stream) (fun _ _ h => kfree_eq_some.mp h) ?_
  rintro _ _ ⟨hst, rfl⟩
  refine Ensures.ite (fun hneg => ?_) fun hpos => ?_
  · refine Ensures.bind (Q := fun _ s2 => s2 = freed (freed s stream) p)
      (fun _ _ h => (kfree_eq_some.mp h).2) ?_
    rintro _ _ rfl
    exact ensures_assign (Ensures.pure ⟨rfl, hst, fun h => absurd hneg (not_lt.mpr h), fun _ => rfl⟩)
  · exact Ensures.pure ⟨rfl, hst, fun _ => rfl, fun h => absurd h hpos⟩

/-- The failed `fat16_resolve`: the disk is cleared, and what was at `p` is freed. -/
structure Refused (s : Kernel) (p : UInt32) (s' : Kernel) : Prop where
  drive : s'.drive = s.drive
  disk : s'.disk = { filesystem := none, fs_private := 0 }
  live : s'.live = Function.update s.live p none

/-- Without a stream to close. -/
theorem resolveOut_null {s : Kernel} {p : UInt32} {res : Int} (hwf : s.WF)
    (hp : p ≠ 0 → ∃ priv, s.live p = some (fatPrivateK.inj priv)) (hneg : res < 0) :
    Total (resolveOut p 0 res) s fun r s' => r = res ∧ Refused s p s' := by
  unfold resolveOut
  rw [if_neg (not_not.mpr rfl)]
  dsimp only
  rw [if_pos hneg]
  by_cases h0 : p = 0
  · have hsame : Function.update s.live p none = s.live := by
      rw [h0]
      exact Function.update_eq_self_iff.mpr hwf.live_zero.symm
    have hrun : kfreeUnchecked fatPrivateK p s = some ((), { s with heap := heapFree s.heap 0 }) := by
      rw [kfreeUnchecked, if_pos h0]
    rw [total_bind_of_some hrun, total_assign]
    exact total_pure.mpr ⟨rfl, rfl, rfl, hsame.symm⟩
  · obtain ⟨priv, hpriv⟩ := hp h0
    rw [kfreeUnchecked_of_ne h0, total_bind_of_some (kfree_of_live hpriv), total_assign]
    exact total_pure.mpr ⟨rfl, rfl, rfl, rfl⟩

/-- **Without a block for the stream of the boot sector** `fat16_resolve` gives up. -/
theorem fat16Resolve_starved {s s1 : Kernel} {p : UInt32} (hrun : resolvePrivate s = some ((p, 0), s1))
    (h : Starved s p s1) : Total fat16Resolve s fun res s' => res = - ENOMEM ∧ Refused s1 p s' := by
  rw [fat16Resolve_parts, total_bind_of_some hrun]
  dsimp only
  rw [resolveBoot, if_pos rfl, pure_bind, resolveRoot, if_pos (by decide), pure_bind]
  exact resolveOut_null h.wf h.private_data (by decide)

/-! ## The volume -/

/-- What the part before the label leaves of the private data `priv` at `p`. -/
structure Resolved (s : Kernel) (p stream : UInt32) (priv : FatPrivate) (res : Int) (s' : Kernel)
    (priv' : FatPrivate) : Prop where
  status : res = OK ∨ res < 0
  drive : s'.drive = s.drive
  disk : s'.disk = s.disk
  private_data : PrivateAt s' p priv'
  cluster_stream : priv'.cluster_read_stream = priv.cluster_read_stream
  fat_stream : priv'.fat_read_stream = priv.fat_read_stream
  root : 0 ≤ res → priv'.root_directory.ending_sector_pos = dataSector priv'.header
  header : 0 ≤ res → Total (diskstreamerRead stream SIZEOF_FAT_H) s fun r _ =>
    r.1 = OK ∧ priv'.header = FatHeader.ofBytes r.2

/-- What reading the boot sector leaves of them. -/
structure BootRead (s : Kernel) (p stream : UInt32) (priv : FatPrivate) (res : Int) (s' : Kernel)
    (header : FatHeader) : Prop where
  status : res = OK ∨ res < 0
  drive : s'.drive = s.drive
  disk : s'.disk = s.disk
  private_data : PrivateAt s' p { priv with header := header }
  read : res = OK → Total (diskstreamerRead stream SIZEOF_FAT_H) s fun r _ =>
    r.1 = OK ∧ header = FatHeader.ofBytes r.2

theorem resolveBoot_spec {s : Kernel} {p stream : UInt32} {priv : FatPrivate} (hstream : stream ≠ 0)
    (h : PrivateAt s p priv) :
    Ensures (resolveBoot p stream) s fun status s' => ∃ header, BootRead s p stream priv status s' header := by
  have hR := keepsRest_rules
  unfold resolveBoot
  rw [if_neg hstream]
  refine Ensures.bind (Q := fun r s1 => diskstreamerRead stream SIZEOF_FAT_H s = some (r, s1))
    (fun _ _ hrun => hrun) ?_
  rintro ⟨res, bytes⟩ s1 hrun
  have hkept := hR.diskstreamerRead _ _ _ _ _ hrun
  have h1 := h.frame hkept
  have hframe := hkept h.wf
  refine ensures_load fun priv1 hpriv1 => ensures_store fun _ _ => ?_
  rw [h1.private_data] at hpriv1
  obtain rfl := fatPrivateK.inj_injective (Option.some.inj hpriv1)
  have h2 := h1.store { priv with header := FatHeader.ofBytes bytes } rfl rfl
  have hfail : ∀ {code : Int}, code < 0 → ∃ header, BootRead s p stream priv code
      { s1 with live := fatPrivateK.write s1.live p { priv with header := FatHeader.ofBytes bytes } }
      header := fun hneg =>
    ⟨_, Or.inr hneg, hframe.drive, hframe.disk, h2, fun h => absurd (h ▸ hneg) (by decide)⟩
  refine Ensures.ite (fun _ => Ensures.pure (hfail (by decide))) fun hres => ?_
  refine Ensures.ite (fun _ => Ensures.pure (hfail (by decide))) fun _ => Ensures.pure ?_
  exact ⟨_, Or.inl rfl, hframe.drive, hframe.disk, h2,
    fun _ => (total_of_some hrun).mpr ⟨not_not.mp hres, rfl⟩⟩

theorem resolveRoot_spec {s s1 : Kernel} {p stream : UInt32} {priv : FatPrivate} {status : Int}
    {header : FatHeader} (h : BootRead s p stream priv status s1 header) :
    Ensures (resolveRoot p status) s1 fun res s' => ∃ priv', Resolved s p stream priv res s' priv' := by
  have hwf := h.private_data.wf
  unfold resolveRoot
  refine Ensures.ite (fun hbad => Ensures.pure ?_) fun hok => ?_
  · have hneg : status < 0 := h.status.resolve_left hbad
    exact ⟨_, Or.inr hneg, h.drive, h.disk, h.private_data, rfl, rfl, fun h => absurd hneg (not_lt.mpr h),
      fun h => absurd hneg (not_lt.mpr h)⟩
  refine Ensures.bind (fat16GetRootDirectory_stores hwf h.private_data.private_data) ?_
  rintro res' s4 ⟨s3, hkept3, -, hbad, hroot⟩
  have h3 := h.private_data.frame hkept3
  have hframe3 := hkept3 hwf
  have hdrive : s3.drive = s.drive := hframe3.drive.trans h.drive
  have hdisk : s3.disk = s.disk := hframe3.disk.trans h.disk
  refine Ensures.ite (fun hres' => Ensures.pure ?_) fun hres' => Ensures.pure ?_
  · obtain rfl := hbad hres'
    have hneg : ¬ 0 ≤ - EIO := by decide
    exact ⟨_, Or.inr (by decide), hdrive, hdisk, h3, rfl, rfl, fun h => absurd h hneg,
      fun h => absurd h hneg⟩
  · obtain ⟨root, hend, rfl⟩ := hroot (not_not.mp hres')
    exact ⟨_, Or.inl rfl, hdrive, hdisk, h3.store { priv with header := header, root_directory := root } rfl rfl,
      rfl, rfl, fun _ => hend, fun _ => h.read (not_not.mp hok)⟩

/-- Closing another stream leaves the private data and their streams. -/
theorem PrivateAt.closed {s : Kernel} {p stream : UInt32} {priv : FatPrivate} (h : PrivateAt s p priv)
    (hst : ∃ st, s.live stream = some (diskStreamK.inj st)) (hc : priv.cluster_read_stream ≠ stream)
    (hf : priv.fat_read_stream ≠ stream) : PrivateAt (freed s stream) p priv := by
  obtain ⟨a, ha⟩ := hst
  have hp : p ≠ stream := by
    rintro rfl
    rw [h.private_data] at ha
    cases ha
  obtain ⟨st, hst⟩ := h.cluster_stream
  obtain ⟨st', hst'⟩ := h.fat_stream
  exact ⟨h.wf.free ha, (freed_live_of_ne s hp).trans h.private_data,
    ⟨st, (freed_live_of_ne s hc).trans hst⟩, ⟨st', (freed_live_of_ne s hf).trans hst'⟩⟩

/-- **A volume that `fat16_resolve` accepts is mounted.** -/
theorem fat16Resolve_mounted {s : Kernel} (hwf : s.WF) (hdrive : HoldsImage s image) :
    Ensures fat16Resolve s fun res s' => 0 ≤ res → ∃ priv, Mounted s' image priv := by
  obtain ⟨p, stream, s1, hrun, ⟨hstream, priv, hprep⟩ | ⟨rfl, hstarved⟩⟩ := resolvePrivate_spec hwf
  swap
  · -- no block is left for the boot sector
    refine (fat16Resolve_starved hrun hstarved).ensures.mono ?_
    rintro res s' ⟨rfl, -⟩ hres
    exact absurd hres (by decide)
  rw [fat16Resolve_parts, ensures_bind_of_some hrun]
  dsimp only
  refine Ensures.bind (resolveBoot_spec hstream hprep.toPrivateAt) ?_
  rintro status s' ⟨header, hboot⟩
  refine Ensures.bind (resolveRoot_spec hboot) ?_
  rintro status s2 ⟨priv', hdone⟩
  have hp : p ≠ 0 := hprep.wf.ne_zero hprep.private_data
  refine (resolveOut_spec hp hstream status s2).mono ?_
  rintro res s3 ⟨rfl, hst, hclosed, -⟩ hres
  obtain rfl := hclosed hres
  have hdisk : s2.disk = { filesystem := some .fat16, fs_private := p } := hdone.disk.trans hprep.disk
  have hat : PrivateAt (freed s2 stream) p priv' := by
    refine hdone.private_data.closed hst ?_ ?_
    · rw [hdone.cluster_stream]
      exact hprep.cluster_ne
    · rw [hdone.fat_stream]
      exact hprep.fat_ne
  have hat' : PrivateAt (freed s2 stream) (freed s2 stream).disk.fs_private priv' := by
    rw [show (freed s2 stream).disk = s2.disk from rfl, hdisk]
    exact hat
  -- the header is the one of the image
  have hheader : priv'.header = bootHeader image := by
    have hread := diskstreamerRead_spec (n := SIZEOF_FAT_H) (hdrive.congr hprep.drive) hprep.boot_stream
      (by decide) (by decide) (by decide)
    obtain ⟨r, t, hrun, -, hheader⟩ := hdone.header hres
    rw [hheader, (total_of_some hrun).mp hread, bootHeader]
  exact ⟨priv', (hat'.resolving (hdrive.congr (hdone.drive.trans hprep.drive))).mounted hheader
    (hdone.root hres)⟩

end RasOS
