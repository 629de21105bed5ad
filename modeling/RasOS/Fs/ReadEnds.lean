import RasOS.Fs.Mounting
import RasOS.Fs.ReadTrace

set_option autoImplicit false

/-! # Reads come to an end

A read divides by the size of a cluster and recurs on the bytes that are left. Both are fine as long as a
cluster has a sector; that it has one is not checked when the volume is mounted. -/

namespace RasOS

open Machine Traced

/-- The divisor is positive, the bytes that are left are fewer, and no recursion goes on for ever. -/
def ReadEvent.Steps : ReadEvent → Prop
  | .divide size => 0 < size
  | .again total rest => 0 ≤ rest ∧ rest < total
  | .exhausted => False
  | _ => True

instance : DecidablePred ReadEvent.Steps
  | .divide size => inferInstanceAs (Decidable (0 < size))
  | .again total rest => inferInstanceAs (Decidable (0 ≤ rest ∧ rest < total))
  | .exhausted => inferInstanceAs (Decidable False)
  | .sector .. | .copied _ | .link _ | .counted .. => inferInstanceAs (Decidable True)

/-- All steps of the run are fine, and it ensures `Q`. -/
abbrev StepsOn {α : Type} (x : ReadM α) (s : Kernel) (Q : α → Kernel → Prop) : Prop :=
  Exact ReadEvent.Steps (fun _ => True) x s Q

theorem stepsOn_emit {β : Type} {e : Kernel → ReadEvent} {f : Unit → ReadM β} {s : Kernel}
    {Q : β → Kernel → Prop} (he : (e s).Steps) (hf : StepsOn (f ()) s Q) :
    StepsOn (emit e >>= f) s Q := by
  have hemit : StepsOn (emit e) s fun _ s' => s' = s :=
    ⟨iff_of_true (List.forall_mem_singleton.mpr he) fun _ _ => trivial, fun _ => Ensures.pure rfl⟩
  refine hemit.bind ?_
  rintro _ _ rfl
  exact hf

theorem stepsOn_load {α β : Type} {k : Kind Obj α} {ptr : UInt32} {f : α → ReadM β} {s : Kernel}
    {Q : β → Kernel → Prop} (hf : ∀ a, s.live ptr = some (k.inj a) → StepsOn (f a) s Q) :
    StepsOn (liftM (load k ptr) >>= f) s Q := by
  refine Exact.bind_lift (Q := fun a s' => s.live ptr = some (k.inj a) ∧ s' = s)
    (fun _ _ h => load_eq_some.mp h) ?_
  rintro a _ ⟨ha, rfl⟩
  exact hf a ha

/-! ## Streams -/

theorem le_of_wrap_ge {x : Int} (hlow : -2 ^ 31 ≤ x) (h : 512 ≤ wrap x) : 512 ≤ x := by
  rw [wrap, Int.bmod_def] at h
  omega

theorem stepsOn_diskReadBlock (purpose : ReadPurpose) (lba : Int) (s : Kernel) :
    StepsOn (ReadTrace.diskReadBlock purpose lba) s fun _ _ => True :=
  stepsOn_emit (e := fun s => .sector purpose (s.drive s.requests (lba % 2 ^ 28).toNat).isSome) trivial
    (Exact.lift fun _ _ _ => trivial)

/-- Reading a stream ends: only a call that goes to the end of a sector is followed by another one, and
that begins with a sector. -/
theorem diskstreamerReadLoop_steps (purpose : ReadPurpose) (stream : UInt32) :
    ∀ (fuel : Nat) (total : Int) (s : Kernel), -2 ^ 31 ≤ total → 0 < fuel →
      (∀ st, s.live stream = some (diskStreamK.inj st) → 0 ≤ st.pos.tmod 512 →
        st.pos.tmod 512 + total < 512 * fuel) →
      StepsOn (ReadTrace.diskstreamerReadLoop purpose stream fuel total) s fun _ _ => True := by
  intro fuel
  induction fuel with
  | zero => intro total s _ hfuel; omega
  | succ fuel ih =>
      intro total s hlow _ hroom
      refine stepsOn_load fun st hst => ?_
      have hroom := hroom st hst
      have hlt := Int.tmod_lt_of_pos st.pos (by decide : (0 : Int) < 512)
      simp only [RASOS_SECTOR_SIZE, Nat.cast_ofNat]
      refine Exact.bind (stepsOn_diskReadBlock purpose _ s) ?_
      rintro ⟨res, buf⟩ s1 -
      refine Exact.ite (fun _ => Exact.pure trivial) fun _ => ?_
      refine Exact.ite (fun _ => Exact.lift Ensures.stop) fun hinside => ?_
      refine stepsOn_emit trivial (Exact.bind_lift (fun _ _ h => (store_eq_some.mp h).2) ?_)
      rintro _ _ rfl
      refine Exact.ite (fun hover => ?_) fun _ => Exact.pure trivial
      rw [if_pos hover] at hinside ⊢
      -- the bytes go up to the end of the sector
      have hoffset : 0 ≤ st.pos.tmod 512 := by
        by_contra hneg
        exact hinside ⟨by omega, Or.inl (not_le.mp hneg)⟩
      have hroom := hroom hoffset
      have hge := le_of_wrap_ge (by omega) hover
      refine Exact.bind (ih _ _ (by omega) (by omega) ?_) fun _ _ _ => Exact.pure trivial
      intro st' hst' _
      have hpos : DiskStream.mk (wrap (st.pos + (512 - st.pos.tmod 512))) = st' :=
        diskStreamK.inj_injective (Option.some.inj ((Kind.write_self ..).symm.trans hst'))
      rw [← hpos, tmod_next_sector]
      push_cast at hroom
      omega

theorem diskstreamerRead_steps (purpose : ReadPurpose) (stream : UInt32) {total : Int} (s : Kernel)
    (hlow : -2 ^ 31 ≤ total) :
    StepsOn (ReadTrace.diskstreamerRead purpose stream total) s fun _ _ => True := by
  refine diskstreamerReadLoop_steps purpose stream _ total s hlow (Nat.succ_pos _) fun st _ _ => ?_
  have hlt := Int.tmod_lt_of_pos st.pos (by decide : (0 : Int) < 512)
  rw [RASOS_SECTOR_SIZE]
  omega

/-! ## Clusters -/

theorem fatEntryRes_steps (cluster : Int) (s : Kernel) :
    StepsOn (ReadTrace.fatEntryRes cluster) s fun _ _ => True := by
  refine Exact.bind_skip fun priv s1 => ?_
  refine Exact.ite (fun _ => Exact.pure trivial) fun _ => ?_
  refine Exact.bind_skip fun _ s2 => ?_
  refine Exact.bind (diskstreamerRead_steps _ _ s2 (by decide)) ?_
  rintro ⟨res, bytes⟩ s3 -
  exact Exact.ite (fun _ => Exact.pure trivial) fun _ => Exact.pure trivial

theorem getClusterLoop_steps : ∀ (remaining : Nat) (cluster : Int) (s : Kernel),
    StepsOn (ReadTrace.getClusterLoop remaining cluster) s fun _ _ => True := by
  intro remaining
  induction remaining with
  | zero => exact fun _ _ => Exact.pure trivial
  | succ remaining ih =>
      intro cluster s
      refine Exact.bind (fatEntryRes_steps cluster s) ?_
      rintro ⟨res, entry16⟩ s1 -
      refine Exact.ite (fun _ => Exact.pure trivial) fun _ => ?_
      refine Exact.ite (fun _ => Exact.pure trivial) fun _ => ?_
      refine Exact.ite (fun _ => Exact.pure trivial) fun _ => ?_
      refine Exact.ite (fun _ => Exact.pure trivial) fun _ => ?_
      exact stepsOn_emit trivial (ih _ _)

/-- The size of a cluster is positive when it has a sector. -/
theorem sizeOfClusterBytes_pos {priv : FatPrivate} (h : priv.header.sectors_per_cluster ≠ 0) :
    0 < sizeOfClusterBytes priv := by
  have hpos : 0 < priv.header.sectors_per_cluster.toNat := by
    by_contra hzero
    exact h (UInt8.toNat_inj.mp (Nat.eq_zero_of_not_pos hzero))
  rw [sizeOfClusterBytes, RASOS_SECTOR_SIZE]
  omega

theorem fat16GetClusterForOffset_steps {s : Kernel} {priv : FatPrivate} (hp : HasPrivate s priv)
    (hsize : 0 < sizeOfClusterBytes priv) (cluster offset : Int) :
    StepsOn (ReadTrace.fat16GetClusterForOffset cluster offset) s fun _ s' => HasPrivate s' priv := by
  have hmoved : Ensures (ReadTrace.fat16GetClusterForOffset cluster offset).erase s fun _ s' =>
      HasPrivate s' priv := by
    rw [ReadTrace.erase_fat16GetClusterForOffset]
    exact ((moved_rules.fat16GetClusterForOffset cluster offset).ensures s).mono fun _ _ h => hp.moved h
  refine (Exact.and_ensures (Q := fun _ _ => True) ?_ hmoved).mono fun _ _ h => h.2
  refine Exact.bind_of_some hp.fsPrivate (stepsOn_emit hsize ?_)
  exact Exact.ite (fun _ => Exact.lift Ensures.stop) fun _ => getClusterLoop_steps _ _ _

/-- **The recursion of a read**, on fewer bytes than calls are left. -/
theorem fat16ReadInternalFromStream_steps {priv : FatPrivate} (hsize : 0 < sizeOfClusterBytes priv)
    (stream : UInt32) (cluster : Int) : ∀ (fuel : Nat) (offset total : Int) (s : Kernel),
      HasPrivate s priv → -2 ^ 31 ≤ total → total.toNat < fuel →
      StepsOn (ReadTrace.fat16ReadInternalFromStream stream cluster fuel offset total) s
        fun _ _ => True := by
  intro fuel
  induction fuel with
  | zero => exact fun _ _ _ _ _ h => absurd h (Nat.not_lt_zero _)
  | succ fuel ih =>
      intro offset total s hp hlow hfuel
      refine Exact.bind_of_some hp.fsPrivate ?_
      refine Exact.bind (fat16GetClusterForOffset_steps hp hsize cluster offset) fun c s1 hp1 => ?_
      refine Exact.ite (fun _ => Exact.pure trivial) fun _ => stepsOn_emit hsize ?_
      refine Exact.bind_lift (Q := fun _ s2 => HasPrivate s2 priv) ?_ fun res s2 hp2 => ?_
      · exact ((moved_rules.diskstreamerSeek _ _).ensures s1).mono fun _ _ h => hp1.moved h
      refine Exact.ite (fun _ => Exact.pure trivial) fun _ => ?_
      -- the bytes of this cluster
      have hread : StepsOn (ReadTrace.diskstreamerRead .data stream
          (if total > sizeOfClusterBytes priv then sizeOfClusterBytes priv else total)) s2
          fun _ s3 => HasPrivate s3 priv := by
        have hkept : Ensures (ReadTrace.diskstreamerRead .data stream
            (if total > sizeOfClusterBytes priv then sizeOfClusterBytes priv else total)).erase s2
            fun _ s3 => HasPrivate s3 priv := by
          rw [ReadTrace.erase_diskstreamerRead]
          exact ((moved_rules.diskstreamerRead _ _).ensures s2).mono fun _ _ h => hp2.moved h
        refine (Exact.and_ensures (diskstreamerRead_steps _ _ s2 ?_) hkept).mono fun _ _ h => h.2
        split <;> omega
      refine Exact.bind hread ?_
      rintro ⟨res, out⟩ s3 hp3
      refine Exact.ite (fun _ => Exact.pure trivial) fun _ => ?_
      refine Exact.ite (fun hrest => ?_) fun _ => Exact.pure trivial
      -- the rest is what is beyond a cluster
      have hlong : sizeOfClusterBytes priv < total := by
        by_contra hshort
        rw [if_neg hshort, Int.sub_self] at hrest
        exact absurd hrest (lt_irrefl _)
      rw [if_pos hlong] at hrest ⊢
      refine stepsOn_emit ⟨by omega, by omega⟩ ?_
      exact Exact.bind (ih _ _ s3 hp3 (by omega) (by omega)) fun _ _ _ => Exact.pure trivial

theorem fat16ReadInternal_steps {s : Kernel} {priv : FatPrivate} (hp : HasPrivate s priv)
    (hsize : 0 < sizeOfClusterBytes priv) (starting_cluster offset : Int) (size : UInt32) :
    StepsOn (ReadTrace.fat16ReadInternal starting_cluster offset (signed size)) s fun _ s' =>
      HasPrivate s' priv := by
  have hkept : Ensures (ReadTrace.fat16ReadInternal starting_cluster offset (signed size)).erase s
      fun _ s' => HasPrivate s' priv := by
    rw [ReadTrace.erase_fat16ReadInternal]
    exact ((moved_rules.fat16ReadInternal _ _ _).ensures s).mono fun _ _ h => hp.moved h
  refine (Exact.and_ensures (Q := fun _ _ => True) ?_ hkept).mono fun _ _ h => h.2
  refine Exact.bind_of_some hp.fsPrivate ?_
  exact fat16ReadInternalFromStream_steps hsize _ _ _ _ _ s hp (signed_ge size) (Nat.lt_succ_self _)

/-- **When a read comes to an end**, at any place of any file and of any size: when a cluster has a
sector. -/
theorem fat16ReadInternal_steps_iff {s : Kernel} {priv : FatPrivate} (hp : HasPrivate s priv)
    (starting_cluster offset : Int) (size : UInt32) :
    (∀ e ∈ (ReadTrace.fat16ReadInternal starting_cluster offset (signed size)).events s, e.Steps) ↔
      priv.header.sectors_per_cluster ≠ 0 := by
  constructor
  · intro hall hzero
    have hsize : sizeOfClusterBytes priv = 0 := by
      rw [sizeOfClusterBytes, hzero]
      rfl
    have hdivide : ∃ e ∈ (ReadTrace.fat16ReadInternal starting_cluster offset (signed size)).events s,
        ¬ e.Steps := by
      refine exists_event_of_some hp.fsPrivate (exists_event_of_some hp.fsPrivate ?_)
      refine exists_event_bind (exists_event_of_some hp.fsPrivate (exists_event_bind ?_))
      refine ⟨_, List.mem_singleton_self _, ?_⟩
      show ¬ 0 < sizeOfClusterBytes priv
      rw [hsize]
      exact lt_irrefl 0
    obtain ⟨e, he, hnot⟩ := hdivide
    exact hnot (hall e he)
  · intro hspc
    have hread := fat16ReadInternal_steps hp (sizeOfClusterBytes_pos hspc) starting_cluster offset size
    exact hread.1.mpr fun _ _ => trivial

/-! ## Files -/

theorem fat16ReadLoop_steps {priv : FatPrivate} (hsize : 0 < sizeOfClusterBytes priv)
    (first_cluster size : UInt32) : ∀ (remaining : Nat) (offset : Int) (out : UInt32) (s : Kernel),
      HasPrivate s priv →
      StepsOn (ReadTrace.fat16ReadLoop first_cluster size remaining offset out) s fun _ _ => True := by
  intro remaining
  induction remaining with
  | zero => exact fun _ _ _ _ => Exact.pure trivial
  | succ remaining ih =>
      intro offset out s hp
      refine Exact.bind (fat16ReadInternal_steps hp hsize _ _ size) ?_
      rintro ⟨res, bytes⟩ s1 hp1
      refine Exact.bind_lift (Q := fun _ s2 => HasPrivate s2 priv) ?_ fun _ s2 hp2 => ?_
      · exact ((moved_memWrite _ _).ensures s1).mono fun _ _ h => hp1.moved h
      exact Exact.ite (fun _ => Exact.pure trivial) fun _ => ih _ _ s2 hp2

theorem fread_steps {s : Kernel} {priv : FatPrivate} (hp : HasPrivate s priv)
    (hsize : 0 < sizeOfClusterBytes priv) (out size nmemb : UInt32) (fd : Int) :
    StepsOn (ReadTrace.fread out size nmemb fd) s fun _ _ => True := by
  refine Exact.ite (fun _ => Exact.pure trivial) fun _ => ?_
  refine Exact.bind_lift (Q := fun _ s1 => HasPrivate s1 priv) ?_ fun descriptor s1 hp1 => ?_
  · exact ((moved_rules.fileGetDescriptor fd).ensures s).mono fun _ _ h => hp.moved h
  refine Exact.ite (fun _ => Exact.pure trivial) fun _ => stepsOn_load fun desc _ => ?_
  unfold ReadTrace.withFilesystem
  cases desc.filesystem with
  | none => exact Exact.lift Ensures.stop
  | some filesystem =>
      cases filesystem
      refine stepsOn_load fun fat_descriptor _ => stepsOn_load fun fat_item _ => ?_
      refine stepsOn_load fun item _ => ?_
      refine Exact.bind (fat16ReadLoop_steps hsize _ size _ _ _ s1 hp1) fun res s2 _ => ?_
      exact Exact.ite (fun _ => Exact.pure trivial) fun _ => Exact.pure trivial

/-- The volume with one file, but with `sectors_per_cluster` zero. -/
def noClusterKernel : Kernel :=
  { oneFileKernel 600 (fun _ => 0) (fun _ _ => 0) 0 with
    drive := fun _ sector => some fun i =>
      if sector = 0 ∧ i = 13 then 0 else oneFileImage 600 (fun _ => 0) (fun _ _ => 0) sector i }

end RasOS
