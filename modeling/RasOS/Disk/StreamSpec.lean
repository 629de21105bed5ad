import RasOS.Disk.Streamer
import RasOS.Kernel.StateLemmas
import RasOS.Lib.Slice

set_option autoImplicit false

/-! # Reading a stream of a disk that does not fail

When the drive holds an image (a total map from sectors to their bytes), a read delivers the slice
of the disk that begins at the position of the stream, whatever sector borders it crosses. -/

namespace RasOS

open Machine

/-- The byte at a position of the disk. -/
def diskByte (image : Nat → Sector) (p : Nat) : UInt8 := image (p / 512) (p % 512)

/-- Every request for a sector gets the sector of the image. -/
def HoldsImage (s : Kernel) (image : Nat → Sector) : Prop :=
  ∀ requests sector, s.drive requests sector = some (image sector)

variable {image : Nat → Sector}

theorem diskReadBlock_spec {s : Kernel} {lba : Int} {buf : Sector}
    (hread : s.drive s.requests (lba % 2 ^ 28).toNat = some buf) :
    diskReadBlock lba s = some ((OK, buf),
      { s with requests := (lba % 2 ^ 28).toNat :: s.requests }) := by
  unfold diskReadBlock
  simp only [hread]

theorem diskReadBlock_fails {s : Kernel} {lba : Int}
    (hread : s.drive s.requests (lba % 2 ^ 28).toNat = none) :
    diskReadBlock lba s = some ((- EIO, fun _ => 0),
      { s with requests := (lba % 2 ^ 28).toNat :: s.requests }) := by
  unfold diskReadBlock
  simp only [hread]

/-- A request for a sector changes nothing but the list of requests. -/
theorem diskReadBlock_state {lba : Int} {s s' : Kernel} {r : Int × Sector}
    (h : diskReadBlock lba s = some (r, s')) : s' = { s with requests := s'.requests } := by
  unfold diskReadBlock at h
  dsimp only at h
  split at h
  · rw [← (Prod.mk.inj (Option.some.inj h)).2]
  · rw [← (Prod.mk.inj (Option.some.inj h)).2]

/-! The sector of a position, and the place in it. -/

theorem sector_natCast {p : Nat} (hp : p < 2 ^ 31) : ((p : Int).tdiv 512 % 2 ^ 28).toNat = p / 512 := by
  rw [Int.tdiv_eq_ediv_of_nonneg (Int.natCast_nonneg p)]
  omega

theorem tmod_natCast (p : Nat) : (p : Int).tmod 512 = (p % 512 : Nat) := by
  rw [Int.tmod_eq_emod_of_nonneg (Int.natCast_nonneg p), Int.natCast_mod]
  rfl

/-- The state after one call has read `b` bytes from a stream at `pos`. -/
def streamMoved (s : Kernel) (stream : UInt32) (pos : Int) (b : Nat) : Kernel :=
  { s with
    requests := (pos.tdiv 512 % 2 ^ 28).toNat :: s.requests
    live := diskStreamK.write s.live stream { pos := wrap (pos + b) } }

/-- One call of `diskstreamer_read`: it reads up to the end of the sector, and when it gets there it
calls itself for what is left, even if that is nothing. -/
theorem diskstreamerReadLoop_step {s : Kernel} {stream : UInt32} {pos : Int} {o n : Nat} {sector : Sector}
    (fuel : Nat) (hread : s.drive s.requests (pos.tdiv 512 % 2 ^ 28).toNat = some sector)
    (hst : s.live stream = some (diskStreamK.inj ⟨pos⟩))
    (hpos : pos.tmod 512 = o) (ho : o < 512) (hn : o + n < 2 ^ 31) :
    diskstreamerReadLoop stream (fuel + 1) n s =
      if 512 ≤ o + n then
        (diskstreamerReadLoop stream fuel (n - (512 - o) : Nat)
          (streamMoved s stream pos (512 - o))).map
            fun r => ((r.1.1, slice sector o (512 - o) ++ r.1.2), r.2)
      else some ((OK, slice sector o n), streamMoved s stream pos n) := by
  have hwrap : wrap ((o : Int) + n) = o + n := wrap_of_range (by omega) (by omega)
  have hblock := diskReadBlock_spec hread
  have hslice : ∀ m : Nat, (List.range ((m : Int).toNat)).map
      (fun i => sector ((o : Int).toNat + i)) = slice sector o m := fun m => rfl
  rw [diskstreamerReadLoop, bind_of_some (load_of_live hst)]
  simp only [RASOS_SECTOR_SIZE, Nat.cast_ofNat, hpos, hwrap]
  rw [bind_of_some hblock]
  by_cases hover : 512 ≤ o + n
  · have hge : (o : Int) + n ≥ 512 := by omega
    have hbytes : (512 : Int) - o = (512 - o : Nat) := by omega
    have hrest : (n : Int) - (512 - o : Nat) = (n - (512 - o) : Nat) := by omega
    simp only [hge, if_true, hover, hbytes, hslice, hrest]
    rw [if_neg (by decide), if_neg (by omega)]
    have hstore := store_of_live (k := diskStreamK) (a := ⟨pos⟩)
      (s := { s with requests := (pos.tdiv 512 % 2 ^ 28).toNat :: s.requests }) hst
      ⟨wrap (pos + (512 - o : Nat))⟩
    rw [bind_of_some hstore, bind_apply]
    show (diskstreamerReadLoop stream fuel _ (streamMoved s stream pos (512 - o))).bind _ = _
    cases diskstreamerReadLoop stream fuel (n - (512 - o) : Nat)
      (streamMoved s stream pos (512 - o)) <;> rfl
  · have hlt : ¬ (o : Int) + n ≥ 512 := by omega
    simp only [hlt, hover, if_false, hslice]
    rw [if_neg (by decide), if_neg (by omega)]
    have hstore := store_of_live (k := diskStreamK) (a := ⟨pos⟩)
      (s := { s with requests := (pos.tdiv 512 % 2 ^ 28).toNat :: s.requests }) hst
      ⟨wrap (pos + n)⟩
    exact bind_of_some hstore

theorem streamMoved_live (s : Kernel) (stream : UInt32) (pos : Int) (b : Nat) :
    (streamMoved s stream pos b).live stream = some (diskStreamK.inj ⟨wrap (pos + b)⟩) :=
  Kind.write_self ..

/-- Where the position does not wrap. -/
theorem streamMoved_stands (s : Kernel) (stream : UInt32) {p b : Nat} (h : p + b < 2 ^ 31) :
    (streamMoved s stream p b).live stream = some (diskStreamK.inj ⟨(p + b : Nat)⟩) := by
  rw [streamMoved_live, ← Nat.cast_add, wrap_of_range (by omega) (by omega)]

theorem streamMoved_requests (s : Kernel) (stream : UInt32) {p : Nat} (h : p < 2 ^ 31) (b : Nat) :
    (streamMoved s stream p b).requests = p / 512 :: s.requests :=
  congrArg (· :: s.requests) (sector_natCast h)

/-- The bytes of a sector are bytes of the disk. -/
theorem sector_slice {p n : Nat} (hp : p < 2 ^ 31) (hn : p % 512 + n ≤ 512) :
    slice (image (((p : Int).tdiv 512) % 2 ^ 28).toNat) (p % 512) n
      = slice (diskByte image) p n := by
  rw [sector_natCast hp]
  apply slice_congr
  intro i hi
  have hdiv : (p + i) / 512 = p / 512 := by omega
  have hmod : (p + i) % 512 = p % 512 + i := by omega
  rw [diskByte, hdiv, hmod]

/-- Where a stream at `p` is after `n` more bytes. -/
theorem wrap_add_wrap (p n : Nat) : wrap (wrap (p : Int) + n) = wrap ((p + n : Nat) : Int) := by
  rw [wrap, wrap, wrap, Int.bmod_add_bmod, Nat.cast_add]

/-- The position behind a sector is one where a sector begins. -/
theorem tmod_next_sector (pos : Int) : (wrap (pos + (512 - pos.tmod 512))).tmod 512 = 0 := by
  have hsum : pos + (512 - pos.tmod 512) = 512 * (pos.tdiv 512 + 1) := by
    have hdivision := Int.mul_tdiv_add_tmod pos 512
    omega
  apply Int.tmod_eq_zero_of_dvd
  rw [hsum, wrap, Int.bmod_def]
  omega

/-- **A read delivers a slice of the disk** and leaves the stream behind it. By induction on the calls:
each one takes the read to the next sector. A read that ends at the last byte a position can name
leaves the stream at a negative position, and the call for nothing that follows is made from
there. -/
theorem diskstreamerReadLoop_moves (stream : UInt32) :
    ∀ (fuel n p : Nat) (pos : Int) (s : Kernel), HoldsImage s image →
      s.live stream = some (diskStreamK.inj ⟨pos⟩) → p + n ≤ 2 ^ 31 → p % 512 + n < 2 ^ 31 →
      p % 512 + n < 512 * fuel → pos = wrap p →
      Total (diskstreamerReadLoop stream fuel n) s
        fun r s' => r = (OK, slice (diskByte image) p n) ∧ HoldsImage s' image ∧
          s'.live stream = some (diskStreamK.inj ⟨wrap (p + n : Nat)⟩) := by
  intro fuel
  induction fuel with
  | zero => intro n p pos s _ _ _ _ hfuel _; omega
  | succ fuel ih =>
      intro n p pos s hdrive hst hend hn hfuel hpos
      have hmod : pos.tmod 512 = (p % 512 : Nat) := by
        by_cases hp : p < 2 ^ 31
        · rw [hpos, wrap_of_range (by omega) (by omega), tmod_natCast]
        · have hp' : p = 2 ^ 31 := by omega
          have hwrap : wrap ((2 ^ 31 : Nat) : Int) = -2 ^ 31 := by
            rw [wrap, Int.bmod_def]
            norm_num
          rw [hpos, hp', hwrap]
          decide
      have hstep := diskstreamerReadLoop_step fuel (hdrive _ _) hst hmod
        (Nat.mod_lt _ (by decide)) hn
      by_cases hover : 512 ≤ p % 512 + n
      · have hp : p < 2 ^ 31 := by omega
        have hposp : pos = p := by rw [hpos, wrap_of_range (by omega) (by omega)]
        have hnext : wrap (pos + (512 - p % 512 : Nat)) = wrap (p + (512 - p % 512) : Nat) := by
          rw [hposp, ← Nat.cast_add]
        rw [if_pos hover] at hstep
        obtain ⟨r, s', hr, hrest, hdrive', hlive⟩ := ih (n - (512 - p % 512)) (p + (512 - p % 512)) _
          (streamMoved s stream pos (512 - p % 512)) hdrive (streamMoved_live ..) (by omega)
          (by omega) (by omega) hnext
        rw [hr, hrest, hposp, sector_slice hp (by omega)] at hstep
        have hsum : 512 - p % 512 + (n - (512 - p % 512)) = n := by omega
        refine ⟨_, s', hstep, ?_, hdrive', ?_⟩
        · rw [slice_append, hsum]
        · rw [hlive, Nat.add_assoc, hsum]
      · rw [if_neg hover] at hstep
        refine ⟨_, _, hstep, ?_, hdrive, ?_⟩
        · cases n with
          | zero => rfl
          | succ n =>
              have hp : p < 2 ^ 31 := by omega
              have hposp : pos = p := by rw [hpos, wrap_of_range (by omega) (by omega)]
              rw [hposp, sector_slice hp (by omega)]
        · rw [streamMoved_live, hpos, wrap_add_wrap]

/-- `diskstreamer_read` from the position `p`. -/
theorem diskstreamerRead_holds {s : Kernel} {stream : UInt32} {p n : Nat}
    (hdrive : HoldsImage s image) (hst : s.live stream = some (diskStreamK.inj ⟨p⟩))
    (hp : p < 2 ^ 31) (hend : p + n ≤ 2 ^ 31) (hn : p % 512 + n < 2 ^ 31) :
    Total (diskstreamerRead stream n) s fun r s' => r = (OK, slice (diskByte image) p n) ∧
      HoldsImage s' image ∧ s'.live stream = some (diskStreamK.inj ⟨wrap (p + n : Nat)⟩) := by
  have hfuel : p % 512 + n < 512 * (n / 512 + 2) := by omega
  exact diskstreamerReadLoop_moves stream _ n p p s hdrive hst hend hn hfuel
    (wrap_of_range (by omega) (by omega)).symm

theorem diskstreamerRead_moves {s : Kernel} {stream : UInt32} {p n : Nat}
    (hdrive : HoldsImage s image) (hst : s.live stream = some (diskStreamK.inj ⟨p⟩))
    (hp : p < 2 ^ 31) (hend : p + n ≤ 2 ^ 31) (hn : n ≤ 2 ^ 30) :
    Total (diskstreamerRead stream n) s fun r s' => r = (OK, slice (diskByte image) p n) ∧
      s'.live stream = some (diskStreamK.inj ⟨wrap (p + n : Nat)⟩) :=
  (diskstreamerRead_holds hdrive hst hp hend (by omega)).mono fun _ _ h => ⟨h.1, h.2.2⟩

theorem diskstreamerRead_spec {s : Kernel} {stream : UInt32} {p n : Nat}
    (hdrive : HoldsImage s image) (hst : s.live stream = some (diskStreamK.inj ⟨p⟩))
    (hp : p < 2 ^ 31) (hend : p + n ≤ 2 ^ 31) (hn : n ≤ 2 ^ 30) :
    Total (diskstreamerRead stream n) s fun r _ => r = (OK, slice (diskByte image) p n) :=
  (diskstreamerRead_moves hdrive hst hp hend hn).mono fun _ _ h => h.1

/-! ## Reads one after the other -/

/-- Consecutive reads of these lengths: their statuses, and the bytes stored one behind the other. -/
def diskstreamerReads (stream : UInt32) : List Nat → KernelM (List Int × List UInt8)
  | [] => return ([], [])
  | n :: ns => do
      let (res, bytes) ← diskstreamerRead stream n
      let (ress, rest) ← diskstreamerReads stream ns
      return (res :: ress, bytes ++ rest)

/-- **Reads one after the other deliver what one read does.** By induction on the reads: each begins
where the one before it has left the stream. -/
theorem diskstreamerReads_spec (stream : UInt32) :
    ∀ (ns : List Nat) (p : Nat) (s : Kernel), HoldsImage s image →
      s.live stream = some (diskStreamK.inj ⟨p⟩) → p + ns.sum < 2 ^ 31 →
      Total (diskstreamerReads stream ns) s fun r s' =>
        r = (ns.map fun _ => OK, slice (diskByte image) p ns.sum) ∧
          s'.live stream = some (diskStreamK.inj ⟨(p + ns.sum : Nat)⟩) := by
  intro ns
  induction ns with
  | nil =>
      intro p s _ hst _
      exact total_pure.mpr ⟨by rw [List.sum_nil, slice_zero]; rfl, hst⟩
  | cons n ns ih =>
      intro p s hdrive hst hend
      rw [List.sum_cons] at hend
      refine (diskstreamerRead_holds hdrive hst (by omega) (by omega) (by omega)).bind ?_
      rintro r s1 ⟨rfl, hdrive1, hst1⟩
      rw [wrap_of_range (by omega) (by omega)] at hst1
      refine (ih (p + n) s1 hdrive1 hst1 (by omega)).bind ?_
      rintro r s2 ⟨rfl, hst2⟩
      refine total_pure.mpr ⟨?_, ?_⟩
      · rw [List.sum_cons, ← slice_append]
        rfl
      · rw [hst2, List.sum_cons, Nat.add_assoc]

/-- **A read delivers the bytes it is asked for, however it is split.** -/
theorem diskstreamerRead_delivers {s : Kernel} {stream : UInt32} {p n : Nat}
    (hdrive : HoldsImage s image) (hst : s.live stream = some (diskStreamK.inj ⟨p⟩))
    (hend : p + n < 2 ^ 31) :
    (Total (diskstreamerRead stream n) s fun r s' => r = (OK, slice (diskByte image) p n) ∧
      s'.live stream = some (diskStreamK.inj ⟨(p + n : Nat)⟩)) ∧
    ∀ ns : List Nat, ns.sum = n →
      Total (diskstreamerReads stream ns) s fun r s' =>
        r = (ns.map fun _ => OK, slice (diskByte image) p n) ∧
          s'.live stream = some (diskStreamK.inj ⟨(p + n : Nat)⟩) := by
  constructor
  · refine (diskstreamerRead_holds hdrive hst (by omega) (by omega) (by omega)).mono ?_
    rintro r s' ⟨hr, -, hlive⟩
    rw [wrap_of_range (by omega) (by omega)] at hlive
    exact ⟨hr, hlive⟩
  · rintro ns rfl
    exact diskstreamerReads_spec stream ns p s hdrive hst hend

/-- A disk with byte `i` of a sector being `i` more than its number, and a stream on it. -/
def streamKernel (pos : Int) : Kernel where
  heap := { entries := fun _ => 0, total := 0, start_address := 0, total_lt := noBlocks_lt }
  mem := fun _ => 0
  live := fun ptr => if ptr = 4096 then some (.diskStream { pos := pos }) else none
  drive := fun _ sector => some fun i => UInt8.ofNat (sector + i)
  requests := []
  disk := {}
  file_descriptors := fun _ => 0
  processes := fun _ => 0
  current_process := 0
  current_task := 0
  task_head := 0
  task_tail := 0
  current_directory := 0

/-- Four bytes from two sectors. -/
theorem diskstreamerRead_delivers_510 :
    (Total (diskstreamerRead 4096 (4 : Nat)) (streamKernel (510 : Nat)) fun r s' =>
      r = (OK, slice (diskByte fun sector i => UInt8.ofNat (sector + i)) 510 4) ∧
      s'.live 4096 = some (diskStreamK.inj ⟨(510 + 4 : Nat)⟩)) ∧
    ∀ ns : List Nat, ns.sum = 4 →
      Total (diskstreamerReads 4096 ns) (streamKernel (510 : Nat)) fun r s' =>
        r = (ns.map fun _ => OK, slice (diskByte fun sector i => UInt8.ofNat (sector + i)) 510 4) ∧
        s'.live 4096 = some (diskStreamK.inj ⟨(510 + 4 : Nat)⟩) :=
  diskstreamerRead_delivers (fun _ _ => rfl) rfl (by decide)

end RasOS
