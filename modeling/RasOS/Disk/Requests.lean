import RasOS.Disk.StreamSpec

set_option autoImplicit false

/-! # Reading a stream of a disk that may fail

A request for a sector gets the sector of the image or an error. A read asks for the sectors it
touches one after the other, and for the one behind them when it ends with a sector; the first error
ends it. -/

namespace RasOS

open Machine

variable {image : Nat → Sector}

/-- Every request for a sector gets the sector of the image, if it gets one. -/
def MayFail (s : Kernel) (image : Nat → Sector) : Prop :=
  ∀ requests sector buf, s.drive requests sector = some buf → buf = image sector

theorem HoldsImage.mayFail {s : Kernel} (h : HoldsImage s image) : MayFail s image := by
  intro requests sector buf hbuf
  rw [h requests sector] at hbuf
  exact (Option.some.inj hbuf).symm

/-- The drive answers these requests, made one after the other. -/
def Succeeds (drive : List Nat → Nat → Option Sector) : (requests sectors : List Nat) → Prop
  | _, [] => True
  | requests, sector :: sectors =>
      drive requests sector ≠ none ∧ Succeeds drive (sector :: requests) sectors

theorem succeeds_append (drive : List Nat → Nat → Option Sector) (front back : List Nat) :
    ∀ requests, Succeeds drive requests (front ++ back) ↔
      Succeeds drive requests front ∧ Succeeds drive (front.reverse ++ requests) back := by
  induction front with
  | nil => exact fun _ => (and_iff_right trivial).symm
  | cons sector front ih =>
      intro requests
      rw [List.cons_append, Succeeds, Succeeds, ih, and_assoc, List.reverse_cons, List.append_assoc,
        List.singleton_append]

/-- A drive that holds an image answers everything. -/
theorem HoldsImage.succeeds {s : Kernel} (h : HoldsImage s image) (sectors : List Nat) :
    ∀ requests, Succeeds s.drive requests sectors := by
  induction sectors with
  | nil => exact fun _ => trivial
  | cons sector sectors ih =>
      intro requests
      refine ⟨?_, ih _⟩
      rw [h requests sector]
      exact Option.some_ne_none _

/-- The sectors that a read of `n` bytes at `p` asks for. -/
def readSectors (p n : Nat) : List Nat := List.range' (p / 512) ((p % 512 + n) / 512 + 1)

theorem readSectors_next {p n : Nat} (h : 512 ≤ p % 512 + n) :
    readSectors p n = p / 512 :: readSectors (p + (512 - p % 512)) (n - (512 - p % 512)) := by
  have hdiv : (p + (512 - p % 512)) / 512 = p / 512 + 1 := by omega
  have hcount : (p % 512 + n) / 512
      = ((p + (512 - p % 512)) % 512 + (n - (512 - p % 512))) / 512 + 1 := by omega
  rw [readSectors, readSectors, hdiv, hcount, List.range'_succ]

theorem readSectors_last {p n : Nat} (h : p % 512 + n < 512) : readSectors p n = [p / 512] := by
  rw [readSectors, Nat.div_eq_of_lt h]
  rfl

/-- A request that fails ends the read. -/
theorem diskstreamerReadLoop_fails {s : Kernel} {stream : UInt32} {pos : Int} (fuel : Nat) (n : Int)
    (hread : s.drive s.requests (pos.tdiv 512 % 2 ^ 28).toNat = none)
    (hst : s.live stream = some (diskStreamK.inj ⟨pos⟩)) :
    diskstreamerReadLoop stream (fuel + 1) n s
      = some ((- EIO, []), { s with requests := (pos.tdiv 512 % 2 ^ 28).toNat :: s.requests }) := by
  rw [diskstreamerReadLoop, bind_of_some (load_of_live hst)]
  simp only [RASOS_SECTOR_SIZE, Nat.cast_ofNat]
  rw [bind_of_some (diskReadBlock_fails hread)]
  rfl

/-- What a read leaves when every request is answered. -/
structure ReadDone (image : Nat → Sector) (stream : UInt32) (p n : Nat) (s : Kernel)
    (r : Int × List UInt8) (s' : Kernel) : Prop where
  result : r = (OK, slice (diskByte image) p n)
  drive : s'.drive = s.drive
  requests : s'.requests = (readSectors p n).reverse ++ s.requests
  stream : s'.live stream = some (diskStreamK.inj ⟨(p + n : Nat)⟩)

/-- **A read is done when every request is answered, and fails otherwise.** By induction on the calls. -/
theorem diskstreamerReadLoop_requests (stream : UInt32) :
    ∀ (fuel n p : Nat) (s : Kernel), MayFail s image →
      s.live stream = some (diskStreamK.inj ⟨p⟩) → p + n < 2 ^ 31 → p % 512 + n < 512 * fuel →
      (Succeeds s.drive s.requests (readSectors p n) →
        Total (diskstreamerReadLoop stream fuel n) s (ReadDone image stream p n s)) ∧
      (¬ Succeeds s.drive s.requests (readSectors p n) →
        Total (diskstreamerReadLoop stream fuel n) s fun r _ => r.1 < 0) := by
  intro fuel
  induction fuel with
  | zero => intro n p s _ _ _ hfuel; omega
  | succ fuel ih =>
      intro n p s hdrive hst hend hfuel
      have hsector := sector_natCast (show p < 2 ^ 31 by omega)
      have hmod := tmod_natCast p
      cases hbuf : s.drive s.requests (p / 512) with
      | none =>
          have hfails := diskstreamerReadLoop_fails fuel (n : Int) (by rw [hsector]; exact hbuf) hst
          have hno : ¬ Succeeds s.drive s.requests (readSectors p n) := by
            intro h
            rw [readSectors, List.range'_succ] at h
            exact h.1 hbuf
          exact ⟨fun h => absurd h hno, fun _ => (total_of_some hfails).mpr (by decide)⟩
      | some buf =>
          obtain rfl := hdrive _ _ _ hbuf
          have hstep := diskstreamerReadLoop_step (n := n) fuel (by rw [hsector]; exact hbuf) hst hmod
            (Nat.mod_lt _ (by decide)) (by omega)
          have hslice : ∀ m, p % 512 + m ≤ 512 → slice (image (p / 512)) (p % 512) m
              = slice (diskByte image) p m := by
            intro m hm
            rw [← sector_slice (by omega) hm, hsector]
          have hfirst : s.drive s.requests (p / 512) ≠ none := by
            rw [hbuf]
            exact Option.some_ne_none _
          by_cases hover : 512 ≤ p % 512 + n
          · have hlive := streamMoved_stands s stream (p := p) (b := 512 - p % 512) (by omega)
            have hrest := ih (n - (512 - p % 512)) (p + (512 - p % 512)) (streamMoved s stream p (512 - p % 512))
              hdrive hlive (by omega) (by omega)
            have hmoved := streamMoved_requests s stream (show p < 2 ^ 31 by omega) (512 - p % 512)
            rw [hmoved] at hrest
            rw [if_pos hover, hslice _ (by omega)] at hstep
            rw [readSectors_next hover, Succeeds, and_iff_right hfirst]
            refine ⟨fun h => ?_, fun h => ?_⟩
            · obtain ⟨r, s', hr, hdone⟩ := hrest.1 h
              rw [hr] at hstep
              have hsum : 512 - p % 512 + (n - (512 - p % 512)) = n := by omega
              refine ⟨_, s', hstep, ?_, hdone.drive, ?_, ?_⟩
              · rw [hdone.result, slice_append, hsum]
              · rw [hdone.requests, hmoved, readSectors_next hover, List.reverse_cons, List.append_assoc]
                rfl
              · rw [hdone.stream, Nat.add_assoc, hsum]
            · obtain ⟨r, s', hr, hneg⟩ := hrest.2 h
              rw [hr] at hstep
              exact ⟨_, s', hstep, hneg⟩
          · have hlast := readSectors_last (not_le.mp hover)
            rw [if_neg hover, hslice _ (by omega)] at hstep
            rw [hlast, Succeeds, Succeeds]
            refine ⟨fun _ => ⟨_, _, hstep, rfl, rfl, ?_, ?_⟩, fun h => absurd ⟨hfirst, trivial⟩ h⟩
            · rw [hlast]
              exact streamMoved_requests s stream (by omega) n
            · exact streamMoved_stands s stream hend

theorem diskstreamerRead_requests {s : Kernel} {stream : UInt32} {p n : Nat} (hdrive : MayFail s image)
    (hst : s.live stream = some (diskStreamK.inj ⟨p⟩)) (hend : p + n < 2 ^ 31) :
    (Succeeds s.drive s.requests (readSectors p n) →
      Total (diskstreamerRead stream n) s (ReadDone image stream p n s)) ∧
    (¬ Succeeds s.drive s.requests (readSectors p n) →
      Total (diskstreamerRead stream n) s fun r _ => r.1 < 0) := by
  have hfuel : p % 512 + n < 512 * (n / 512 + 2) := by omega
  exact diskstreamerReadLoop_requests stream _ n p s hdrive hst hend hfuel

/-! ## Positions -/

theorem wrap_lt (i : Int) : wrap i < 2 ^ 31 := by
  rw [wrap, Int.bmod_def]
  omega

/-- A position is an `int`. -/
theorem diskstreamerReadLoop_int (stream : UInt32) :
    ∀ (fuel : Nat) (total : Int) (s : Kernel),
      (∀ st, s.live stream = some (diskStreamK.inj st) → st.pos < 2 ^ 31) →
      Ensures (diskstreamerReadLoop stream fuel total) s fun _ s' =>
        ∀ st, s'.live stream = some (diskStreamK.inj st) → st.pos < 2 ^ 31 := by
  intro fuel
  induction fuel with
  | zero => exact fun _ _ _ => Ensures.stop
  | succ fuel ih =>
      intro total s hpos
      rw [diskstreamerReadLoop]
      refine ensures_load fun st hst => ?_
      refine Ensures.bind (Q := fun _ s1 => s1.live = s.live) ?_ ?_
      · intro r s1 h
        rw [diskReadBlock_state h]
      rintro ⟨res, buf⟩ s1 hlive
      dsimp only
      refine Ensures.ite (fun _ => Ensures.pure ?_) fun _ => Ensures.ite (fun _ => Ensures.stop) fun _ => ?_
      · rw [hlive]
        exact hpos
      refine ensures_store fun _ _ => ?_
      have hmoved : ∀ b, ∀ st', diskStreamK.write s1.live stream { pos := wrap (st.pos + b) } stream
          = some (diskStreamK.inj st') → st'.pos < 2 ^ 31 := by
        intro b st' hst'
        rw [Kind.write_self] at hst'
        obtain rfl := diskStreamK.inj_injective (Option.some.inj hst')
        exact wrap_lt _
      refine Ensures.ite (fun _ => ?_) fun _ => Ensures.pure (hmoved _)
      refine Ensures.bind (ih _ _ (hmoved _)) fun r s2 h => Ensures.pure h

/-- A read that begins with a sector returns, whatever the drive answers. By induction on its calls. -/
theorem diskstreamerReadLoop_returns (stream : UInt32) : ∀ (fuel n : Nat) (pos : Int) (s : Kernel),
    s.live stream = some (diskStreamK.inj ⟨pos⟩) → pos.tmod 512 = 0 → n < 2 ^ 31 → n < 512 * fuel →
    ∃ r s', diskstreamerReadLoop stream fuel n s = some (r, s') := by
  intro fuel
  induction fuel with
  | zero => intro n pos s _ _ _ hfuel; omega
  | succ fuel ih =>
      intro n pos s hst hpos hn hfuel
      cases hbuf : s.drive s.requests (pos.tdiv 512 % 2 ^ 28).toNat with
      | none => exact ⟨_, _, diskstreamerReadLoop_fails fuel n hbuf hst⟩
      | some buf =>
          have hstep := diskstreamerReadLoop_step (o := 0) (n := n) fuel hbuf hst hpos (by decide) (by omega)
          by_cases hover : 512 ≤ 0 + n
          · have hnext := tmod_next_sector pos
            rw [hpos, Int.sub_zero] at hnext
            obtain ⟨r, s', hrest⟩ := ih (n - (512 - 0)) _ (streamMoved s stream pos (512 - 0))
              (streamMoved_live ..) hnext (by omega) (by omega)
            rw [if_pos hover, hrest] at hstep
            exact ⟨_, _, hstep⟩
          · rw [if_neg hover] at hstep
            exact ⟨_, _, hstep⟩

/-- The stream stands at a negative position. -/
def AtNegative (s : Kernel) (stream : UInt32) : Prop :=
  ∃ pos, s.live stream = some (diskStreamK.inj ⟨pos⟩) ∧ -2 ^ 31 ≤ pos ∧ pos < 0

/-- A read at a negative position fails or leaves the stream at one. -/
theorem diskstreamerRead_negative {s : Kernel} {stream : UInt32} {pos : Int} {n : Nat}
    (hst : s.live stream = some (diskStreamK.inj ⟨pos⟩)) (hlow : -2 ^ 31 ≤ pos) (hneg : pos < 0)
    (hn : 0 < n) (hn' : n < 512) :
    Ensures (diskstreamerRead stream n) s fun r s' => r.1 < 0 ∨ AtNegative s' stream := by
  have hfuel : ((n : Int).toNat) / 512 + 2 = 1 + 1 := by omega
  rw [diskstreamerRead, RASOS_SECTOR_SIZE, hfuel]
  have htmod : pos.tmod 512 = -((-pos) % 512) := by
    rw [← Int.tmod_eq_emod_of_nonneg (by omega), Int.neg_tmod, neg_neg]
  cases hbuf : s.drive s.requests (pos.tdiv 512 % 2 ^ 28).toNat with
  | none =>
      rw [ensures_of_some (diskstreamerReadLoop_fails 1 n hbuf hst)]
      exact Or.inl (by decide)
  | some buf =>
      by_cases hzero : pos.tmod 512 = 0
      · -- the sector is read from its beginning
        have hstep := diskstreamerReadLoop_step (o := 0) (n := n) 1 hbuf hst hzero (by decide) (by omega)
        rw [if_neg (by omega)] at hstep
        refine (ensures_of_some hstep).mpr (Or.inr ⟨_, streamMoved_live .., ?_⟩)
        rw [wrap_of_range (by omega) (by omega)]
        omega
      · -- it would be read from before its beginning
        rw [diskstreamerReadLoop]
        refine ensures_load fun st hst' => ?_
        rw [hst] at hst'
        obtain rfl := diskStreamK.inj_injective (Option.some.inj hst')
        simp only [RASOS_SECTOR_SIZE, Nat.cast_ofNat]
        have hwrap : wrap (pos.tmod 512 + n) = pos.tmod 512 + n := wrap_of_range (by omega) (by omega)
        refine Ensures.bind (Q := fun r _ => r = (OK, buf)) ?_ ?_
        · exact (ensures_of_some (diskReadBlock_spec hbuf)).mpr rfl
        rintro _ s1 rfl
        dsimp only
        rw [hwrap, if_neg (by decide), if_pos]
        · exact Ensures.stop
        · rw [if_neg (by omega)]
          omega

/-- A read that ends with the last byte a position can name fails or leaves the stream at a negative
position. -/
theorem diskstreamerRead_edge {s : Kernel} {stream : UInt32} {p n : Nat}
    (hst : s.live stream = some (diskStreamK.inj ⟨p⟩)) (hend : p + n = 2 ^ 31) (hn : 0 < n)
    (hn' : n < 512) :
    Ensures (diskstreamerRead stream n) s fun r s' => r.1 < 0 ∨ AtNegative s' stream := by
  have hfuel : ((n : Int).toNat) / 512 + 2 = 1 + 1 := by omega
  rw [diskstreamerRead, RASOS_SECTOR_SIZE, hfuel]
  cases hbuf : s.drive s.requests ((p : Int).tdiv 512 % 2 ^ 28).toNat with
  | none => exact (ensures_of_some (diskstreamerReadLoop_fails 1 n hbuf hst)).mpr (Or.inl (by decide))
  | some buf =>
      have hmod := tmod_natCast p
      have hstep := diskstreamerReadLoop_step (n := n) 1 hbuf hst hmod (Nat.mod_lt _ (by decide)) (by omega)
      have hrest : n - (512 - p % 512) = 0 := by omega
      have hnext : wrap ((p : Int) + (512 - p % 512 : Nat)) = -2 ^ 31 := by
        have hsum : (p : Int) + (512 - p % 512 : Nat) = 2 ^ 31 := by omega
        rw [hsum, wrap, Int.bmod_def]
        decide
      rw [if_pos (by omega), hrest] at hstep
      -- nothing is left to read, but the next sector is asked for
      have hlive := streamMoved_live s stream p (512 - p % 512)
      rw [hnext] at hlive
      generalize streamMoved s stream p (512 - p % 512) = s1 at hstep hlive
      cases hbuf1 : s1.drive s1.requests ((-2 ^ 31 : Int).tdiv 512 % 2 ^ 28).toNat with
      | none =>
          rw [diskstreamerReadLoop_fails 0 _ hbuf1 hlive] at hstep
          exact (ensures_of_some hstep).mpr (Or.inl (by decide : (- EIO) < 0))
      | some buf1 =>
          have hstep1 := diskstreamerReadLoop_step (o := 0) (n := 0) 0 hbuf1 hlive (by decide) (by decide)
            (by decide)
          rw [if_neg (by decide)] at hstep1
          rw [hstep1] at hstep
          exact (ensures_of_some hstep).mpr (Or.inr ⟨_, streamMoved_live .., by decide, by decide⟩)

end RasOS
