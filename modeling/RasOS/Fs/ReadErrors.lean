import RasOS.Fs.Mounting
import RasOS.Fs.ReadTrace
import RasOS.Fs.RootCount

set_option autoImplicit false

/-! # Sectors that cannot be read

A request for a sector that fails is to end `fread` and `fat16_resolve` with an error. It does, but for
two places: an entry of the allocation table is returned in 16 bits, where the error is a number of a
cluster, and the count of the root directory is stored without a look at its sign. -/

namespace RasOS

open Machine Traced

namespace ReadEvent

/-- A request has failed. -/
def Failure (e : ReadEvent) : Prop := e.isFailure = true

/-- A failed read is not taken for data, for a cluster or for a count. -/
def Reported : ReadEvent → Prop
  | .copied res => 0 ≤ res
  | .link res => 0 ≤ res
  | .counted _ total => 0 ≤ total
  | _ => True

/-- No request for the allocation table has failed, and no count is stored after a failed request. -/
def Checked : ReadEvent → Prop
  | .sector .table answered => answered = true
  | .counted failed _ => failed = false
  | _ => True

instance : DecidablePred Failure := fun e => inferInstanceAs (Decidable (e.isFailure = true))

instance : DecidablePred Checked
  | .sector .table answered => inferInstanceAs (Decidable (answered = true))
  | .counted failed _ => inferInstanceAs (Decidable (failed = false))
  | .sector .boot _ | .sector .count _ | .sector .root _ | .sector .data _ | .copied _ | .link _
  | .divide _ | .again .. | .exhausted => inferInstanceAs (Decidable True)

instance : DecidablePred Reported
  | .copied res => inferInstanceAs (Decidable (0 ≤ res))
  | .link res => inferInstanceAs (Decidable (0 ≤ res))
  | .counted _ total => inferInstanceAs (Decidable (0 ≤ total))
  | .sector .. | .divide _ | .again .. | .exhausted => inferInstanceAs (Decidable True)

end ReadEvent

open ReadEvent

/-! ## Streams -/

/-- The events of reading a stream are fine. -/
structure StreamEvents (P M : ReadEvent → Prop) (purpose : ReadPurpose) : Prop where
  sector : ∀ answered, P (.sector purpose answered) ∧ M (.sector purpose answered)
  copied : P (.copied OK) ∧ M (.copied OK)
  exhausted : P .exhausted ∧ M .exhausted

theorem streamEvents_reported {purpose : ReadPurpose} (h : purpose ≠ .table) :
    StreamEvents Reported Checked purpose where
  sector := by
    intro answered
    cases purpose with
    | table => exact absurd rfl h
    | boot | count | root | data => exact ⟨trivial, trivial⟩
  copied := ⟨le_refl OK, trivial⟩
  exhausted := ⟨trivial, trivial⟩

section Streams

variable {P M : ReadEvent → Prop} {g : Prop} {purpose : ReadPurpose}

theorem relays_diskReadBlock (hevents : StreamEvents P M purpose) (lba : Int) (s : Kernel) :
    Relays P M Failure g (ReadTrace.diskReadBlock purpose lba) s (fun r _ => r.1 = OK)
      fun r _ => r.1 = - EIO := by
  have hall : ∀ {R : ReadEvent → Prop}, R (.sector purpose (s.drive s.requests (lba % 2 ^ 28).toNat).isSome) →
      ∀ e ∈ (ReadTrace.diskReadBlock purpose lba).events s, R e :=
    fun h => List.forall_mem_singleton.mpr h
  have hclean : Clean P M ((ReadTrace.diskReadBlock purpose lba).events s) := hall (hevents.sector _)
  have herase : (ReadTrace.diskReadBlock purpose lba).erase = diskReadBlock lba :=
    ReadTrace.erase_diskReadBlock _ _
  cases hbuf : s.drive s.requests (lba % 2 ^ 28).toNat with
  | some buf =>
      refine Relays.fine hclean (hall ?_) ?_
      · rw [hbuf]
        exact Bool.noConfusion
      · rw [herase, ensures_of_some (diskReadBlock_spec hbuf)]
  | none =>
      refine Relays.failed hclean ⟨_, List.mem_singleton_self _, ?_⟩ (Guarded.of_total ?_)
      · show Failure (.sector purpose (s.drive s.requests (lba % 2 ^ 28).toNat).isSome)
        rw [hbuf]
        rfl
      · rw [herase, total_of_some (diskReadBlock_fails hbuf)]

/-- **Reading a stream passes failures on.** By induction on the calls. -/
theorem relays_diskstreamerReadLoop (hevents : StreamEvents P M purpose) (stream : UInt32) :
    ∀ (fuel : Nat) (total : Int) (s : Kernel),
      Relays P M Failure g (ReadTrace.diskstreamerReadLoop purpose stream fuel total) s
        (fun r _ => r.1 = OK) fun r _ => r.1 = - EIO := by
  intro fuel
  induction fuel with
  | zero =>
      intro total s
      exact Relays.bind_emit hevents.exhausted.1 hevents.exhausted.2 Bool.noConfusion
        (Relays.lift Ensures.stop)
  | succ fuel ih =>
      intro total s
      refine Relays.bind_skip fun st s1 => ?_
      refine Relays.bind (relays_diskReadBlock hevents _ s1) ?_ ?_
      · rintro ⟨res, buf⟩ s2 hres
        obtain rfl : res = OK := hres
        refine Relays.ite (fun h => absurd h (lt_irrefl OK)) fun _ => ?_
        refine Relays.ite (fun _ => Relays.lift Ensures.stop) fun _ => ?_
        refine Relays.bind_emit hevents.copied.1 hevents.copied.2 Bool.noConfusion ?_
        refine Relays.bind_skip fun _ s3 => ?_
        refine Relays.ite (fun _ => ?_) fun _ => Relays.pure rfl
        refine Relays.bind (ih _ s3) ?_ ?_
        · rintro ⟨res, rest⟩ s4 hres
          exact Relays.pure hres
        · rintro ⟨res, rest⟩ s4 hres
          exact AfterError.pure hres
      · rintro ⟨res, buf⟩ s2 hres
        obtain rfl : res = - EIO := hres
        exact AfterError.ite (fun _ => AfterError.pure rfl) fun h => absurd (by decide) h

theorem relays_diskstreamerRead (hevents : StreamEvents P M purpose) (stream : UInt32) (total : Int)
    (s : Kernel) : Relays P M Failure g (ReadTrace.diskstreamerRead purpose stream total) s
      (fun r _ => r.1 = OK) fun r _ => r.1 = - EIO :=
  relays_diskstreamerReadLoop hevents stream _ total s

end Streams

/-! ## The allocation table -/

/-- The events of reading the allocation table. -/
def OfTable (e : ReadEvent) : Prop := (∃ answered, e = .sector .table answered) ∨ e = .copied OK ∨
  e = .exhausted

theorem streamEvents_table : StreamEvents OfTable (fun _ => True) .table where
  sector answered := ⟨Or.inl ⟨answered, rfl⟩, trivial⟩
  copied := ⟨Or.inr (Or.inl rfl), trivial⟩
  exhausted := ⟨Or.inr (Or.inr rfl), trivial⟩

/-- When nothing fails there, the events are fine, … -/
theorem OfTable.clean {e : ReadEvent} (h : OfTable e) (hanswered : ¬ Failure e) :
    Reported e ∧ Checked e := by
  rcases h with ⟨answered, rfl⟩ | rfl | rfl
  · refine ⟨trivial, ?_⟩
    cases answered with
    | true => rfl
    | false => exact absurd rfl hanswered
  · exact ⟨le_refl OK, trivial⟩
  · exact ⟨trivial, trivial⟩

/-- … and a failure is not. -/
theorem OfTable.failure {e : ReadEvent} (h : OfTable e) (hfailed : Failure e) : ¬ Checked e := by
  rcases h with ⟨answered, rfl⟩ | rfl | rfl
  · cases answered with
    | true => cases hfailed
    | false => exact Bool.noConfusion
  · cases hfailed
  · cases hfailed

/-- An entry that could not be read is `0xFFFF`. -/
theorem relays_fatEntryRes (cluster : Int) (s : Kernel) :
    Relays OfTable (fun _ => True) Failure True (ReadTrace.fatEntryRes cluster) s
      (fun r _ => r.1 = OK) fun r _ => r = (- EIO, 0xFFFF) := by
  refine Relays.bind_skip fun priv s1 => ?_
  refine Relays.ite (fun _ => Relays.pure rfl) fun _ => ?_
  refine Relays.bind_skip fun _ s2 => ?_
  refine Relays.bind (relays_diskstreamerRead streamEvents_table _ _ s2) ?_ ?_
  · rintro ⟨res, bytes⟩ s3 hres
    obtain rfl : res = OK := hres
    exact Relays.ite (fun h => absurd h (lt_irrefl OK)) fun _ => Relays.pure rfl
  · rintro ⟨res, bytes⟩ s3 hres
    obtain rfl : res = - EIO := hres
    exact AfterError.ite (fun _ => AfterError.pure rfl) fun h => absurd (by decide) h

section Clusters

variable {g : Prop}

/-- **The walk along the table**: a request that fails there is taken for a cluster. -/
theorem relays_getClusterLoop : ∀ (remaining : Nat) (cluster : Int) (s : Kernel),
    Relays Reported Checked Failure g (ReadTrace.getClusterLoop remaining cluster) s
      (fun _ _ => True) fun _ _ => False := by
  intro remaining
  induction remaining with
  | zero => exact fun _ _ => Relays.pure trivial
  | succ remaining ih =>
      intro cluster s
      refine Relays.bind_used (relays_fatEntryRes cluster s) (fun _ => OfTable.clean)
        (fun _ => OfTable.failure) ?_ ?_
      · rintro ⟨res, entry16⟩ s1 hres
        obtain rfl : res = OK := hres
        refine Relays.ite (fun _ => Relays.pure trivial) fun _ => ?_
        refine Relays.ite (fun _ => Relays.pure trivial) fun _ => ?_
        refine Relays.ite (fun _ => Relays.pure trivial) fun _ => ?_
        refine Relays.ite (fun _ => Relays.pure trivial) fun _ => ?_
        exact Relays.bind_emit (le_refl OK) trivial Bool.noConfusion (ih _ s1)
      · rintro ⟨res, entry16⟩ s1 hres
        obtain ⟨rfl, rfl⟩ := Prod.mk.inj hres
        -- the error is none of the marks of the table
        exact exists_event_bind ⟨.link (- EIO), List.mem_singleton_self _, by decide⟩

theorem relays_fat16GetClusterForOffset (cluster offset : Int) (s : Kernel) :
    Relays Reported Checked Failure g (ReadTrace.fat16GetClusterForOffset cluster offset) s
      (fun _ _ => True) fun _ _ => False := by
  refine Relays.bind_skip fun priv s1 => ?_
  refine Relays.bind_emit trivial trivial Bool.noConfusion ?_
  exact Relays.ite (fun _ => Relays.lift Ensures.stop) fun _ => relays_getClusterLoop _ _ s1

/-- **The recursion of a read** passes on what fails in the data area. -/
theorem relays_fat16ReadInternalFromStream (stream : UInt32) (cluster : Int) :
    ∀ (fuel : Nat) (offset total : Int) (s : Kernel), Relays Reported Checked Failure g
      (ReadTrace.fat16ReadInternalFromStream stream cluster fuel offset total) s
      (fun _ _ => True) fun r _ => r.1 < 0 := by
  intro fuel
  induction fuel with
  | zero =>
      intro offset total s
      exact Relays.bind_emit trivial trivial Bool.noConfusion (Relays.lift Ensures.stop)
  | succ fuel ih =>
      intro offset total s
      refine Relays.bind_skip fun priv s1 => ?_
      refine Relays.bind (relays_fat16GetClusterForOffset _ _ s1) ?_ fun _ _ => False.elim
      intro c s2 _
      refine Relays.ite (fun _ => Relays.pure trivial) fun _ => ?_
      refine Relays.bind_emit trivial trivial Bool.noConfusion ?_
      refine Relays.bind_skip fun res s3 => ?_
      refine Relays.ite (fun _ => Relays.pure trivial) fun _ => ?_
      refine Relays.bind (relays_diskstreamerRead (streamEvents_reported (by decide)) _ _ s3) ?_ ?_
      · rintro ⟨res, out⟩ s4 hres
        obtain rfl : res = OK := hres
        refine Relays.ite (fun h => absurd rfl h) fun _ => ?_
        refine Relays.ite (fun _ => ?_) fun _ => Relays.pure trivial
        refine Relays.bind_emit trivial trivial Bool.noConfusion ?_
        refine Relays.bind (ih _ _ s4) (fun _ _ _ => Relays.pure trivial) ?_
        rintro ⟨res, rest⟩ s5 hres
        exact AfterError.pure hres
      · rintro ⟨res, out⟩ s4 hres
        obtain rfl : res = - EIO := hres
        exact AfterError.ite (fun _ => AfterError.pure (by decide : - EIO < 0)) fun h =>
          absurd (by decide) h

theorem relays_fat16ReadInternal (cluster offset total : Int) (s : Kernel) :
    Relays Reported Checked Failure g (ReadTrace.fat16ReadInternal cluster offset total) s
      (fun _ _ => True) fun r _ => r.1 < 0 :=
  Relays.bind_skip fun _ s1 =>
    relays_fat16ReadInternalFromStream _ _ _ _ _ s1

end Clusters

/-! ## Files -/

/-- No record is stored at the null pointer. -/
def RecordsStorable (out size : UInt32) (records : Nat) : Prop :=
  ∀ k, k < records → out + UInt32.ofNat k * size ≠ 0

theorem RecordsStorable.first {out size : UInt32} {records : Nat}
    (h : RecordsStorable out size (records + 1)) : out ≠ 0 := by
  have hfirst := h 0 (Nat.succ_pos _)
  rwa [show UInt32.ofNat 0 = 0 from rfl, UInt32.zero_mul, UInt32.add_zero] at hfirst

theorem RecordsStorable.rest {out size : UInt32} {records : Nat}
    (h : RecordsStorable out size (records + 1)) : RecordsStorable (out + size) size records := by
  intro k hk
  have hnext := h (k + 1) (by omega)
  have hsum : out + UInt32.ofNat (k + 1) * size = out + size + UInt32.ofNat k * size := by
    rw [UInt32.ofNat_add, UInt32.add_mul, show UInt32.ofNat 1 = 1 from rfl, UInt32.one_mul,
      UInt32.add_comm (UInt32.ofNat k * size), UInt32.add_assoc]
  rwa [hsum] at hnext

theorem relays_fat16ReadLoop {g : Prop} (first_cluster size : UInt32) :
    ∀ (remaining : Nat) (offset : Int) (out : UInt32) (s : Kernel),
      (g → RecordsStorable out size remaining) → Relays Reported Checked Failure g
        (ReadTrace.fat16ReadLoop first_cluster size remaining offset out) s
        (fun _ _ => True) fun res _ => res < 0 := by
  intro remaining
  induction remaining with
  | zero => exact fun _ _ _ _ => Relays.pure trivial
  | succ remaining ih =>
      intro offset out s hout
      refine Relays.bind (relays_fat16ReadInternal _ _ _ s) ?_ ?_
      · rintro ⟨res, bytes⟩ s1 -
        refine Relays.bind_skip fun _ s2 => ?_
        refine Relays.ite (fun _ => Relays.pure trivial) fun _ => ?_
        exact ih _ _ s2 fun hg => (hout hg).rest
      · rintro ⟨res, bytes⟩ s1 hres
        -- the bytes read before the failure are stored
        refine AfterError.bind (E := fun _ _ => True) (AfterError.lift ?_) fun _ s2 _ => ?_
        · refine Guarded.ite (fun hnull => Guarded.stop fun hg => (hout hg).first hnull.1) fun _ => ?_
          exact Guarded.of_total ⟨_, _, rfl, trivial⟩
        · exact AfterError.ite (fun _ => AfterError.pure hres) fun h => absurd hres h

/-- **`fread` passes failures on**, but for those in the allocation table. -/
theorem relays_fread (out size nmemb : UInt32) (fd : Int) (s : Kernel) :
    Relays Reported Checked Failure (RecordsStorable out size nmemb.toNat)
      (ReadTrace.fread out size nmemb fd) s (fun _ _ => True) fun res _ => res < 0 := by
  refine Relays.ite (fun _ => Relays.pure trivial) fun _ => ?_
  refine Relays.bind_skip fun descriptor s1 => ?_
  refine Relays.ite (fun _ => Relays.pure trivial) fun _ => ?_
  refine Relays.bind_skip fun desc s2 => ?_
  unfold ReadTrace.withFilesystem
  cases desc.filesystem with
  | none => exact Relays.lift Ensures.stop
  | some filesystem =>
      cases filesystem
      refine Relays.bind_skip fun fat_descriptor s3 => ?_
      refine Relays.bind_skip fun fat_item s4 => ?_
      refine Relays.bind_skip fun item s5 => ?_
      refine Relays.bind (relays_fat16ReadLoop _ size nmemb.toNat _ out s5 id) ?_ ?_
      · exact fun res s6 _ => Relays.ite (fun _ => Relays.pure trivial) fun _ => Relays.pure trivial
      · exact fun res s6 hres => AfterError.ite (fun _ => AfterError.pure hres) fun h => absurd hres h

/-! ## The root directory -/

section Count

variable {g : Prop}

theorem relays_getTotalItemsLoop (stream : UInt32) : ∀ (fuel : Nat) (i : Int) (s : Kernel), 0 ≤ i →
    Relays Reported Checked Failure g (ReadTrace.getTotalItemsLoop stream fuel i) s
      (fun r _ => 0 ≤ r) fun r _ => r < 0 := by
  intro fuel
  induction fuel with
  | zero => exact fun _ _ _ => Relays.lift Ensures.stop
  | succ fuel ih =>
      intro i s hi
      refine Relays.bind (relays_diskstreamerRead (streamEvents_reported (by decide)) _ _ s) ?_ ?_
      · rintro ⟨res, item⟩ s1 hres
        obtain rfl : res = OK := hres
        refine Relays.ite (fun h => absurd rfl h) fun _ => ?_
        refine Relays.ite (fun _ => Relays.pure hi) fun _ => ?_
        exact Relays.ite (fun _ => ih i s1 hi) fun _ => ih (i + 1) s1 (by omega)
      · rintro ⟨res, item⟩ s1 hres
        obtain rfl : res = - EIO := hres
        exact AfterError.ite (fun _ => AfterError.pure (by decide : - EIO < 0)) fun h =>
          absurd (by decide) h

/-- The count of a directory is an error when a request has failed. -/
theorem relays_fat16GetTotalItemsForDirectory (directory_start_sector : UInt32) (s : Kernel) :
    Relays Reported Checked Failure g
      (ReadTrace.fat16GetTotalItemsForDirectory directory_start_sector) s
      (fun r _ => 0 ≤ r) fun r _ => r < 0 := by
  refine Relays.bind_skip fun fat_private s1 => ?_
  refine Relays.bind_lift (Q := fun res _ => res = OK) ?_ ?_
  · exact ensures_store fun _ _ => Ensures.pure rfl
  rintro _ s2 rfl
  refine Relays.ite (fun h => absurd rfl h) fun _ => ?_
  exact relays_getTotalItemsLoop _ _ _ s2 (le_refl 0)

end Count

/-- The objects that the end of `fat16_resolve` frees are there. -/
structure Closable (s : Kernel) (p stream : UInt32) : Prop where
  private_data : ∃ priv, s.live p = some (fatPrivateK.inj priv)
  boot_stream : ∃ st, s.live stream = some (diskStreamK.inj st)

/-- The private data are at `p`, with the stream of the directory. -/
structure RootLoadable (s : Kernel) (p stream : UInt32) (priv : FatPrivate) : Prop where
  wf : s.WF
  private_data : s.live p = some (fatPrivateK.inj priv)
  directory_stream : ∃ st, s.live priv.directory_stream = some (diskStreamK.inj st)
  boot_stream : ∃ st, s.live stream = some (diskStreamK.inj st)

namespace RootLoadable

variable {s s' : Kernel} {p stream : UInt32} {priv : FatPrivate}

theorem closable (h : RootLoadable s p stream priv) : Closable s p stream :=
  ⟨⟨priv, h.private_data⟩, h.boot_stream⟩

theorem moved (h : RootLoadable s p stream priv) (hmoved : Moved s s') : RootLoadable s' p stream priv :=
  ⟨hmoved.wf h.wf, (hmoved.object _ _ fun _ heq => Obj.noConfusion heq).mpr h.private_data,
    (hmoved.stream _).mpr h.directory_stream, (hmoved.stream _).mpr h.boot_stream⟩

/-- The array is elsewhere. -/
theorem store_items (h : RootLoadable s p stream priv) {dir : UInt32} {items : List UInt8}
    (hdir : s.live dir = some (dirItemsK.inj items)) (bytes : List UInt8) :
    Total (store dirItemsK dir bytes) s fun _ s' => RootLoadable s' p stream priv := by
  have hother : ∀ {q o}, s.live q = some o → (∀ b, o ≠ dirItemsK.inj b) →
      dirItemsK.write s.live dir bytes q = some o := by
    intro q o hq ho
    refine (Kind.write_of_ne _ _ _ ?_).trans hq
    rintro rfl
    exact ho items (Option.some.inj (hq.symm.trans hdir))
  obtain ⟨st, hst⟩ := h.directory_stream
  obtain ⟨st', hst'⟩ := h.boot_stream
  refine ⟨(), _, store_of_live hdir bytes, h.wf.write hdir bytes, hother h.private_data ?_,
    ⟨st, hother hst ?_⟩, st', hother hst' ?_⟩
  · exact fun _ heq => Obj.noConfusion heq
  · exact fun _ heq => Obj.noConfusion heq
  · exact fun _ heq => Obj.noConfusion heq

/-- The header is filled in. -/
theorem store_header (h : RootLoadable s p stream priv) (header : FatHeader) :
    Total (store fatPrivateK p { priv with header := header }) s fun _ s' =>
      RootLoadable s' p stream { priv with header := header } := by
  have hother : ∀ {q st}, s.live q = some (diskStreamK.inj st) →
      fatPrivateK.write s.live p { priv with header := header } q = some (diskStreamK.inj st) := by
    intro q st hq
    refine (Kind.write_of_ne _ _ _ ?_).trans hq
    rintro rfl
    rw [h.private_data] at hq
    cases hq
  obtain ⟨st, hst⟩ := h.directory_stream
  obtain ⟨st', hst'⟩ := h.boot_stream
  exact ⟨(), _, store_of_live h.private_data _, h.wf.write h.private_data _, Kind.write_self ..,
    ⟨st, hother hst⟩, st', hother hst'⟩

/-- The private data are changed. -/
theorem closable_record (h : RootLoadable s p stream priv) (priv' : FatPrivate) :
    Closable { s with live := fatPrivateK.write s.live p priv' } p stream := by
  obtain ⟨st, hst⟩ := h.boot_stream
  refine ⟨⟨priv', Kind.write_self ..⟩, st, (Kind.write_of_ne _ _ _ ?_).trans hst⟩
  rintro rfl
  rw [h.private_data] at hst
  cases hst

/-- An array of entries is allocated, or there is no room for it. -/
theorem kzalloc (h : RootLoadable s p stream priv) (size : UInt32) (items : List UInt8) :
    Total (kzalloc dirItemsK size items) s fun dir s' => RootLoadable s' p stream priv ∧
      (dir ≠ 0 → ∃ items, s'.live dir = some (dirItemsK.inj items)) := by
  obtain ⟨dir, s', hrun, hcases⟩ := kzalloc_spec dirItemsK size items h.wf
  have hsince := hcases.since h.wf
  obtain ⟨st, hst⟩ := h.directory_stream
  obtain ⟨st', hst'⟩ := h.boot_stream
  refine ⟨dir, s', hrun, ⟨hsince.wf, hsince.object _ _ h.private_data, ⟨st, hsince.object _ _ hst⟩,
    ⟨st', hsince.object _ _ hst'⟩⟩, fun hne => ⟨items, (hcases.live hne).2⟩⟩

/-- The stream of the directory is put somewhere, and leaves the array alone. -/
theorem seek (h : RootLoadable s p stream priv) (pos : Int) :
    Total (diskstreamerSeek priv.directory_stream pos) s fun res s' => res = OK ∧
      RootLoadable s' p stream priv ∧ s'.live priv.directory_stream = some (diskStreamK.inj ⟨pos⟩) ∧
      ∀ dir items, s.live dir = some (dirItemsK.inj items) → s'.live dir = some (dirItemsK.inj items) := by
  have hrun := diskstreamerSeek_spec pos h.directory_stream
  have hmoved := moved_rules.diskstreamerSeek _ _ _ _ _ hrun
  refine ⟨OK, _, hrun, rfl, h.moved hmoved, Kind.write_self .., fun dir items hdir => ?_⟩
  exact (hmoved.object _ _ fun _ heq => Obj.noConfusion heq).mpr hdir

/-- The root directory is read from the beginning of a sector. -/
theorem read (h : RootLoadable s p stream priv) {pos : Int} {n : Nat}
    (hst : s.live priv.directory_stream = some (diskStreamK.inj ⟨pos⟩)) (hpos : pos.tmod 512 = 0)
    (hn : n < 2 ^ 30) {dir : UInt32} {items : List UInt8} (hdir : s.live dir = some (dirItemsK.inj items)) :
    Total (diskstreamerRead priv.directory_stream n) s fun _ s' => RootLoadable s' p stream priv ∧
      s'.live dir = some (dirItemsK.inj items) := by
  obtain ⟨r, s', hrun⟩ := diskstreamerReadLoop_returns priv.directory_stream (n / 512 + 2) n pos s hst hpos
    (by omega) (by omega)
  have hmoved := moved_rules.diskstreamerReadLoop _ _ _ _ _ _ hrun
  exact ⟨r, s', hrun, h.moved hmoved, (hmoved.object _ _ fun _ heq => Obj.noConfusion heq).mpr hdir⟩

end RootLoadable

/-- A position at the beginning of a sector. -/
theorem tmod_wrap_mul (x : Int) : (wrap (x * RASOS_SECTOR_SIZE)).tmod 512 = 0 := by
  apply Int.tmod_eq_zero_of_dvd
  rw [RASOS_SECTOR_SIZE, wrap, Int.bmod_def]
  omega

section Load

variable {s : Kernel} {p stream dir : UInt32} {priv : FatPrivate} {items : List UInt8} {n : Nat} {sector : Int}

/-- Reading the root directory returns, and leaves the private data and the array. -/
theorem total_readRoot (h : RootLoadable s p stream priv) (hn : n < 2 ^ 30)
    (hst : s.live priv.directory_stream = some (diskStreamK.inj ⟨wrap (sector * RASOS_SECTOR_SIZE)⟩))
    (hdir : s.live dir = some (dirItemsK.inj items)) :
    Total (ReadTrace.diskstreamerRead .root priv.directory_stream n).erase s fun _ s' =>
      RootLoadable s' p stream priv ∧ s'.live dir = some (dirItemsK.inj items) := by
  rw [ReadTrace.erase_diskstreamerRead]
  exact h.read hst (tmod_wrap_mul _) hn hdir

theorem relays_readRoot (s : Kernel) : Relays Reported Checked Failure True
    (ReadTrace.diskstreamerRead .root stream n) s (fun r _ => r.1 = OK) fun r _ => r.1 = - EIO :=
  relays_diskstreamerRead (streamEvents_reported (by decide)) _ _ s

/-- Behind a count without a failure. -/
theorem relays_loadRoot (h : RootLoadable s p stream priv) (hn : n < 2 ^ 30) {total : Int}
    (htotal : 0 ≤ total) : Relays Reported Checked Failure True
      (ReadTrace.loadRoot p priv.directory_stream sector n total false) s
      (fun _ s' => Closable s' p stream) fun res s' => res < 0 ∧ Closable s' p stream := by
  refine Relays.bind_lift (h.kzalloc _ _).ensures ?_
  rintro dir s1 ⟨h1, hdir⟩
  refine Relays.ite (fun _ => Relays.pure h1.closable) fun hne => ?_
  obtain ⟨items, hitems⟩ := hdir hne
  refine Relays.bind_lift (h1.seek _).ensures ?_
  rintro _ s2 ⟨rfl, h2, hst, hkept⟩
  refine Relays.ite (fun hbad => absurd rfl hbad) fun _ => ?_
  have hroot := total_readRoot h2 hn hst (hkept _ _ hitems)
  refine Relays.bind ((relays_readRoot s2).and_ensures hroot.ensures) ?_ ?_
  · rintro ⟨res, bytes⟩ s3 ⟨hres, h3, hitems3⟩
    obtain rfl : res = OK := hres
    refine Relays.bind_lift (h3.store_items hitems3 _).ensures fun _ s4 h4 => ?_
    refine Relays.ite (fun hbad => absurd rfl hbad) fun _ => ?_
    refine Relays.bind_lift (Q := fun _ s5 => RootLoadable s5 p stream priv)
      ((ensures_of_some (load_of_live h4.private_data)).mpr h4) fun priv5 s5 h5 => ?_
    refine Relays.bind_emit htotal rfl Bool.noConfusion ?_
    refine Relays.bind_lift ((ensures_of_some (store_of_live h5.private_data _)).mpr
      (h5.closable_record _)) fun _ s6 h6 => Relays.pure h6
  · rintro ⟨res, bytes⟩ s3 ⟨hres, h3, hitems3⟩
    obtain rfl : res = - EIO := hres
    refine AfterError.bind (AfterError.lift (Guarded.of_total (h3.store_items hitems3 _))) ?_
    intro _ s4 h4
    exact AfterError.ite (fun _ => AfterError.pure ⟨by decide, h4.closable⟩) fun h =>
      absurd (by decide : - EIO ≠ OK) h

/-- Behind a count with a failure, which is stored all the same unless something else fails. -/
theorem afterError_loadRoot (h : RootLoadable s p stream priv) (hn : n < 2 ^ 30) {total : Int}
    (htotal : total < 0) : AfterError Reported Checked True
      (ReadTrace.loadRoot p priv.directory_stream sector n total true) s
      fun res s' => res < 0 ∧ Closable s' p stream := by
  refine AfterError.bind (AfterError.lift (Guarded.of_total (h.kzalloc _ _))) ?_
  rintro dir s1 ⟨h1, hdir⟩
  refine AfterError.ite (fun _ => AfterError.pure ⟨by decide, h1.closable⟩) fun hne => ?_
  obtain ⟨items, hitems⟩ := hdir hne
  refine AfterError.bind (AfterError.lift (Guarded.of_total (h1.seek _))) ?_
  rintro _ s2 ⟨rfl, h2, hst, hkept⟩
  refine AfterError.ite (fun hbad => absurd rfl hbad) fun _ => ?_
  have hroot := total_readRoot h2 hn hst (hkept _ _ hitems)
  refine AfterError.bind (AfterError.of_relays ((relays_readRoot s2).and_ensures hroot.ensures) ?_) ?_
  · obtain ⟨r, s3, hrun, -⟩ := hroot
    exact ⟨r, s3, hrun⟩
  rintro ⟨res, bytes⟩ s3 hres
  obtain ⟨h3, hitems3⟩ : RootLoadable s3 p stream priv ∧ s3.live dir = some (dirItemsK.inj items) :=
    hres.elim And.right And.right
  refine AfterError.bind (AfterError.lift (Guarded.of_total (h3.store_items hitems3 _))) ?_
  intro _ s4 h4
  refine AfterError.ite (fun _ => AfterError.pure ⟨by decide, h4.closable⟩) fun _ => ?_
  refine AfterError.bind (AfterError.lift (Guarded.of_total (Q := fun _ _ => True)
    ((total_of_some (load_of_live h4.private_data)).mpr trivial))) fun priv5 s5 _ => ?_
  exact AfterError.of_emit (not_le.mpr htotal) Bool.noConfusion

/-- **Loading the root directory passes failures on**, unless it stores a count after one. -/
theorem relays_fat16GetRootDirectory (h : RootLoadable s p stream priv) :
    Relays Reported Checked Failure True (ReadTrace.fat16GetRootDirectory p) s
      (fun _ s' => Closable s' p stream) fun res s' => res < 0 ∧ Closable s' p stream := by
  refine Relays.bind_lift (Q := fun a s' => priv = a ∧ s = s')
    ((ensures_of_some (load_of_live h.private_data)).mpr ⟨rfl, rfl⟩) ?_
  rintro _ _ ⟨rfl, rfl⟩
  dsimp only
  obtain ⟨n, hn, hsize⟩ : ∃ n : Nat, n < 2 ^ 30 ∧
      (priv.header.root_dir_entries.toNat : Int) * SIZEOF_FAT_DIRECTORY_ITEM = n := by
    have hlt := priv.header.root_dir_entries.toNat_lt
    refine ⟨priv.header.root_dir_entries.toNat * SIZEOF_FAT_DIRECTORY_ITEM, ?_, ?_⟩
    · rw [SIZEOF_FAT_DIRECTORY_ITEM]
      omega
    · push_cast
      rfl
  rw [hsize]
  have hcount : ∀ sector, Relays Reported Checked Failure True
      (ReadTrace.fat16GetTotalItemsForDirectory sector) s
      (fun total s' => 0 ≤ total ∧ RootLoadable s' p stream priv)
      fun total s' => total < 0 ∧ RootLoadable s' p stream priv := by
    intro sector
    refine (relays_fat16GetTotalItemsForDirectory _ s).and_ensures ?_
    rw [ReadTrace.erase_fat16GetTotalItemsForDirectory]
    exact ((moved_rules.fat16GetTotalItemsForDirectory _).ensures s).mono fun _ _ => h.moved
  refine Relays.bind (hcount _).listen ?_ ?_
  · rintro ⟨total, reads⟩ s1 ⟨⟨htotal, h1⟩, hanswered⟩
    have hflag : reads.any isFailure = false := by
      rw [List.any_eq_false]
      exact hanswered
    dsimp only
    rw [hflag]
    exact relays_loadRoot h1 hn htotal
  · rintro ⟨total, reads⟩ s1 ⟨⟨htotal, h1⟩, hfailed⟩
    have hflag : reads.any isFailure = true := by
      rw [List.any_eq_true]
      exact hfailed
    dsimp only
    rw [hflag]
    exact afterError_loadRoot h1 hn htotal

end Load

/-! ## Resolve -/

/-- The end of `fat16_resolve` returns the error. -/
theorem resolveOut_returns {s : Kernel} {p stream : UInt32} {res : Int} (hp0 : p ≠ 0) (hstream : stream ≠ 0)
    (h : Closable s p stream) (hres : res < 0) : Total (resolveOut p stream res) s fun r _ => r < 0 := by
  obtain ⟨priv, hp⟩ := h.private_data
  obtain ⟨st, hst⟩ := h.boot_stream
  have hne : p ≠ stream := by
    rintro rfl
    rw [hp] at hst
    cases hst
  have hp' : (freed s stream).live p = some (fatPrivateK.inj priv) :=
    (freed_live_of_ne s hne).trans hp
  unfold resolveOut diskstreamerClose
  rw [if_pos hstream, total_bind_of_some (kfree_of_live hst), if_pos hres, kfreeUnchecked_of_ne hp0,
    total_bind_of_some (kfree_of_live hp'), total_assign, total_pure]
  exact hres

/-- Reading the boot sector passes failures on. -/
theorem relays_resolveBoot {s : Kernel} {p stream : UInt32} {priv : FatPrivate} (hstream : stream ≠ 0)
    (h : RootLoadable s p stream priv) :
    Relays Reported Checked Failure True (ReadTrace.resolveBoot p stream) s
      (fun status s' => status = OK → ∃ priv', RootLoadable s' p stream priv')
      fun status s' => status < 0 ∧ Closable s' p stream := by
  have hboot : Relays Reported Checked Failure True (ReadTrace.diskstreamerRead .boot stream SIZEOF_FAT_H) s
      (fun r s' => r.1 = OK ∧ RootLoadable s' p stream priv)
      fun r s' => r.1 = - EIO ∧ RootLoadable s' p stream priv := by
    refine (relays_diskstreamerRead (streamEvents_reported (by decide)) _ _ s).and_ensures ?_
    rw [ReadTrace.erase_diskstreamerRead]
    exact ((moved_rules.diskstreamerRead _ _).ensures s).mono fun _ _ => h.moved
  refine Relays.ite (fun h0 => absurd h0 hstream) fun _ => Relays.bind hboot ?_ ?_
  · rintro ⟨res, bytes⟩ s1 ⟨hres, h1⟩
    obtain rfl : res = OK := hres
    refine Relays.bind_lift (Q := fun a s' => priv = a ∧ s1 = s')
      ((ensures_of_some (load_of_live h1.private_data)).mpr ⟨rfl, rfl⟩) ?_
    rintro _ _ ⟨rfl, rfl⟩
    refine Relays.bind_lift (h1.store_header _).ensures fun _ s2 h2 => ?_
    refine Relays.ite (fun hbad => absurd rfl hbad) fun _ => ?_
    exact Relays.ite (fun _ => Relays.pure fun h => absurd h (by decide)) fun _ => Relays.pure fun _ => ⟨_, h2⟩
  · rintro ⟨res, bytes⟩ s1 ⟨hres, h1⟩
    obtain rfl : res = - EIO := hres
    refine AfterError.bind (E := fun a s' => priv = a ∧ s1 = s') (AfterError.lift (Guarded.of_total
      ((total_of_some (load_of_live h1.private_data)).mpr ⟨rfl, rfl⟩))) ?_
    rintro _ _ ⟨rfl, rfl⟩
    refine AfterError.bind (AfterError.lift (Guarded.of_total (h1.store_header _))) fun _ s2 h2 => ?_
    exact AfterError.ite (fun _ => AfterError.pure ⟨by decide, h2.closable⟩) fun h =>
      absurd (by decide : - EIO ≠ OK) h

/-- So does the rest, but for the failures in the count. -/
theorem relays_resolveRoot {s : Kernel} {p stream : UInt32} {status : Int}
    (h : status = OK → ∃ priv, RootLoadable s p stream priv) :
    Relays Reported Checked Failure True (ReadTrace.resolveRoot p status) s (fun _ _ => True)
      fun res s' => res < 0 ∧ Closable s' p stream := by
  refine Relays.ite (fun _ => Relays.pure trivial) fun hok => ?_
  obtain ⟨priv, h1⟩ := h (not_not.mp hok)
  refine Relays.bind (relays_fat16GetRootDirectory h1) ?_ ?_
  · exact fun res s3 _ => Relays.ite (fun _ => Relays.pure trivial) fun _ => Relays.pure trivial
  · rintro res s3 ⟨hres, h3⟩
    have hne : res ≠ OK := ne_of_lt hres
    exact AfterError.ite (fun _ => AfterError.pure ⟨by decide, h3⟩) fun h => absurd hne h

/-- **`fat16_resolve` passes failures on**, but for those in the count. -/
theorem relays_fat16Resolve {s : Kernel} (hwf : s.WF) :
    Relays Reported Checked Failure True ReadTrace.fat16Resolve s (fun _ _ => True)
      fun res _ => res < 0 := by
  refine Relays.bind_lift (Q := fun r s' => (r.2 ≠ 0 ∧ ∃ priv, Prepared s r.1 priv r.2 s') ∨
    (r.2 = 0 ∧ Starved s r.1 s')) ?_ ?_
  · obtain ⟨p, stream, s1, hrun, hcases⟩ := resolvePrivate_spec hwf
    exact (ensures_of_some hrun).mpr hcases
  rintro ⟨p, stream⟩ s1 (⟨hstream, priv, hprep⟩ | ⟨hnull, -⟩)
  swap
  · -- without a stream nothing is read
    obtain rfl : stream = 0 := hnull
    have hboot : ReadTrace.resolveBoot p 0 = Pure.pure (- ENOMEM) := if_pos rfl
    have hroot : ReadTrace.resolveRoot p (- ENOMEM) = Pure.pure (- ENOMEM) := if_pos (by decide)
    dsimp only
    rw [hboot]
    refine Relays.bind (Q := fun status s' => status = - ENOMEM) (E := fun _ _ => False) (Relays.pure rfl) ?_
      fun _ _ h => h.elim
    rintro _ s2 rfl
    rw [hroot]
    refine Relays.bind (Q := fun _ _ => True) (E := fun _ _ => False) (Relays.pure trivial) ?_
      fun _ _ h => h.elim
    exact fun res s3 _ => Relays.lift fun _ _ _ => trivial
  have h1 : RootLoadable s1 p stream priv :=
    ⟨hprep.wf, hprep.private_data, hprep.directory_stream, ⟨0⟩, hprep.boot_stream⟩
  have hp : p ≠ 0 := hprep.wf.ne_zero hprep.private_data
  refine Relays.bind (relays_resolveBoot hstream h1) (fun status s2 h2 => ?_) ?_
  · refine Relays.bind (relays_resolveRoot h2) ?_ ?_
    · exact fun res s3 _ => Relays.lift fun _ _ _ => trivial
    · rintro res s3 ⟨hres, h3⟩
      exact AfterError.lift (Guarded.of_total (resolveOut_returns hp hstream h3 hres))
  · rintro status s2 ⟨hneg, h2⟩
    have hne : status ≠ OK := ne_of_lt hneg
    refine AfterError.bind (E := fun res s' => res < 0 ∧ Closable s' p stream)
      (AfterError.ite (fun _ => AfterError.pure ⟨hneg, h2⟩) fun h => absurd hne h) ?_
    rintro res s3 ⟨hres, h3⟩
    exact AfterError.lift (Guarded.of_total (resolveOut_returns hp hstream h3 hres))

/-! ## Calls that read the volume -/

/-- A call that asks for sectors. -/
inductive VolumeCall
  | fread (out size nmemb : UInt32) (fd : Int)
  | resolve

namespace VolumeCall

def code : VolumeCall → KernelM Int
  | fread out size nmemb fd => RasOS.fread out size nmemb fd
  | resolve => fat16Resolve

/-- With its events. -/
def traced : VolumeCall → ReadM Int
  | fread out size nmemb fd => ReadTrace.fread out size nmemb fd
  | resolve => ReadTrace.fat16Resolve

theorem erase_traced (call : VolumeCall) : call.traced.erase = call.code := by
  cases call with
  | fread out size nmemb fd => exact ReadTrace.erase_fread out size nmemb fd
  | resolve => exact ReadTrace.erase_fat16Resolve

/-- The pointer of the call may be written through. -/
def Storable : VolumeCall → Prop
  | fread out size nmemb _ => RecordsStorable out size nmemb.toNat
  | resolve => True

end VolumeCall

/-- What a call is to do when a sector cannot be read. -/
structure PassesFailures (call : VolumeCall) (s : Kernel) : Prop where
  /-- it returns a negative error -/
  error : (∃ e ∈ call.traced.events s, Failure e) → Guarded call.Storable call.code s fun res _ => res < 0
  /-- and takes nothing that it has not read for data, a cluster or a count -/
  reported : ∀ e ∈ call.traced.events s, Reported e

/-- **When failures are passed on**: when none is in the allocation table, and none in the count of the
root directory when the count is stored. -/
theorem passesFailures_iff {s : Kernel} (hwf : s.WF) (call : VolumeCall) :
    PassesFailures call s ↔ ∀ e ∈ call.traced.events s, Checked e := by
  have hrelays : Relays Reported Checked Failure call.Storable call.traced s (fun _ _ => True)
      fun res _ => res < 0 := by
    cases call with
    | fread out size nmemb fd => exact relays_fread out size nmemb fd s
    | resolve => exact relays_fat16Resolve hwf
  rw [← hrelays.passed_on_iff, call.erase_traced]
  exact ⟨fun h => ⟨h.error, h.reported⟩, fun h => ⟨h.1, h.2⟩⟩

/-- The file of 600 bytes is open, and one sector cannot be read. -/
def failingSectorKernel (bad : Nat) : Kernel :=
  { oneFileKernel 600 (fun _ => 0) (fun _ _ => 0) 1 with
    drive := fun _ sector =>
      if sector = bad then none else some (oneFileImage 600 (fun _ => 0) (fun _ _ => 0) sector) }

theorem failingSectorKernel_wf (bad : Nat) : (failingSectorKernel bad).WF := by
  have hwf : (oneFileKernel 600 (fun _ => 0) (fun _ _ => 0) 1).WF := oneFileKernel_wf (by decide)
  exact hwf.of_live rfl fun _ o ho => ⟨o, ho⟩

/-- Where the boot sector, or the first sector of the file, cannot be read, the error is returned. -/
theorem passesFailures_failingSector :
    ((∃ e ∈ ReadTrace.fat16Resolve.events (failingSectorKernel 0), Failure e) ∧
      PassesFailures .resolve (failingSectorKernel 0) ∧
      Total fat16Resolve (failingSectorKernel 0) fun res _ => res = - EIO) ∧
    (∃ e ∈ (ReadTrace.fread 0x400000 600 1 1).events (failingSectorKernel 3), Failure e) ∧
      PassesFailures (.fread 0x400000 600 1 1) (failingSectorKernel 3) ∧
      Total (fread 0x400000 600 1 1) (failingSectorKernel 3) fun res _ => res = - EIO := by
  have hboot : (∃ e ∈ ReadTrace.fat16Resolve.events (failingSectorKernel 0), Failure e) ∧
      Total fat16Resolve (failingSectorKernel 0) fun res _ => res = - EIO := by decide +kernel
  have hdata : (∃ e ∈ (ReadTrace.fread 0x400000 600 1 1).events (failingSectorKernel 3), Failure e) ∧
      Total (fread 0x400000 600 1 1) (failingSectorKernel 3) fun res _ => res = - EIO := by decide +kernel
  refine ⟨⟨hboot.1, ?_, hboot.2⟩, hdata.1, ?_, hdata.2⟩
  · exact (passesFailures_iff (failingSectorKernel_wf 0) .resolve).mpr (by decide +kernel)
  · exact (passesFailures_iff (failingSectorKernel_wf 3) (.fread 0x400000 600 1 1)).mpr (by decide +kernel)

/-- Reading the whole file asks for the entry of its first cluster in vain and succeeds, and a volume
whose count cannot be made is accepted. -/
theorem failures_taken :
    ((failingSectorKernel 1).WF ∧ failingScanKernel.WF) ∧
    (Total (fread 0x400000 600 1 1) (failingSectorKernel 1) fun res _ => res = 1) ∧
    (Total fat16Resolve failingScanKernel fun res s' => res = OK ∧ rootTotal s' = some (- EIO)) ∧
    ¬ PassesFailures (.fread 0x400000 600 1 1) (failingSectorKernel 1) ∧
    ¬ PassesFailures .resolve failingScanKernel := by
  have hread : Total (fread 0x400000 600 1 1) (failingSectorKernel 1) fun res _ => res = 1 := by
    decide +kernel
  have hresolve : Total fat16Resolve failingScanKernel fun res s' =>
      res = OK ∧ rootTotal s' = some (- EIO) := by decide +kernel
  have hfailures : (∃ e ∈ (ReadTrace.fread 0x400000 600 1 1).events (failingSectorKernel 1), Failure e) ∧
      ∃ e ∈ ReadTrace.fat16Resolve.events failingScanKernel, Failure e := by decide +kernel
  have hwf := (slotsKernel_ready (oneFileEntry 600)).wf
  refine ⟨⟨failingSectorKernel_wf 1, hwf.of_live rfl fun _ o ho => ⟨o, ho⟩⟩, hread, hresolve,
    fun h => ?_, fun h => ?_⟩
  · obtain ⟨res, s', hrun, rfl⟩ := hread
    exact absurd ((h.error hfailures.1).1 _ _ hrun) (by decide : ¬ (1 : Int) < 0)
  · obtain ⟨res, s', hrun, rfl, -⟩ := hresolve
    exact absurd ((h.error hfailures.2).1 _ _ hrun) (lt_irrefl OK)

end RasOS
