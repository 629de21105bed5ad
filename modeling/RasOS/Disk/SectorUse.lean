import RasOS.Disk.Requests

set_option autoImplicit false

/-! # The sectors a read asks for

A read of a stream is to ask for the sectors its bytes lie in and for no others. A read that ends with
a sector also asks for the one behind it: the boundary test takes `offset + total` equal to the sector
size for an overflow. -/

namespace RasOS

open Machine

/-! ## Requests up to the first failure -/

/-- The requests that are made for the sectors, one after the other, until one fails. -/
def untilFailure (drive : List Nat → Nat → Option Sector) : (requests sectors : List Nat) → List Nat
  | _, [] => []
  | requests, sector :: sectors =>
      sector :: if (drive requests sector).isNone then [] else
        untilFailure drive (sector :: requests) sectors

theorem untilFailure_of_none {drive : List Nat → Nat → Option Sector} {requests : List Nat}
    {sector : Nat} (sectors : List Nat) (h : drive requests sector = none) :
    untilFailure drive requests (sector :: sectors) = [sector] := by
  rw [untilFailure, h]
  rfl

theorem untilFailure_of_some {drive : List Nat → Nat → Option Sector} {requests : List Nat}
    {sector : Nat} {buf : Sector} (sectors : List Nat) (h : drive requests sector = some buf) :
    untilFailure drive requests (sector :: sectors) =
      sector :: untilFailure drive (sector :: requests) sectors := by
  rw [untilFailure, h]
  rfl

/-- When all requests are answered, all are made. -/
theorem untilFailure_of_succeeds {drive : List Nat → Nat → Option Sector} {sectors : List Nat} :
    ∀ {requests : List Nat}, Succeeds drive requests sectors →
      untilFailure drive requests sectors = sectors := by
  induction sectors with
  | nil => exact fun _ => rfl
  | cons sector sectors ih =>
      intro requests h
      obtain ⟨buf, hbuf⟩ := Option.ne_none_iff_exists'.mp h.1
      rw [untilFailure_of_some _ hbuf, ih h.2]

/-- What follows answered requests is asked for, too. -/
theorem untilFailure_append {drive : List Nat → Nat → Option Sector} {front : List Nat}
    (back : List Nat) : ∀ {requests : List Nat}, Succeeds drive requests front →
      untilFailure drive requests (front ++ back) =
        front ++ untilFailure drive (front.reverse ++ requests) back := by
  induction front with
  | nil => exact fun _ => rfl
  | cons sector front ih =>
      intro requests h
      obtain ⟨buf, hbuf⟩ := Option.ne_none_iff_exists'.mp h.1
      rw [List.cons_append, untilFailure_of_some _ hbuf, ih h.2, List.reverse_cons, List.append_assoc,
        List.singleton_append, List.cons_append]

/-- What follows a failure is not asked for. -/
theorem untilFailure_append_of_fails {drive : List Nat → Nat → Option Sector} {front : List Nat}
    (back : List Nat) : ∀ {requests : List Nat}, ¬ Succeeds drive requests front →
      untilFailure drive requests (front ++ back) = untilFailure drive requests front := by
  induction front with
  | nil => exact fun h => absurd trivial h
  | cons sector front ih =>
      intro requests h
      rw [List.cons_append]
      cases hbuf : drive requests sector with
      | none => rw [untilFailure_of_none _ hbuf, untilFailure_of_none _ hbuf]
      | some buf =>
          have hrest : ¬ Succeeds drive (sector :: requests) front :=
            fun hrest => h ⟨by rw [hbuf]; exact Option.some_ne_none _, hrest⟩
          rw [untilFailure_of_some _ hbuf, untilFailure_of_some _ hbuf, ih hrest]

/-! ## What a read asks for -/

/-- **The requests of a read.** By induction on its calls. -/
theorem diskstreamerReadLoop_asks (stream : UInt32) :
    ∀ (fuel n p : Nat) (s : Kernel), s.live stream = some (diskStreamK.inj ⟨p⟩) → p + n < 2 ^ 31 →
      p % 512 + n < 512 * fuel → Total (diskstreamerReadLoop stream fuel n) s fun _ s' =>
        s'.requests = (untilFailure s.drive s.requests (readSectors p n)).reverse ++ s.requests := by
  intro fuel
  induction fuel with
  | zero => intro n p s _ _ hfuel; omega
  | succ fuel ih =>
      intro n p s hst hend hfuel
      have hsector := sector_natCast (show p < 2 ^ 31 by omega)
      have hmod := tmod_natCast p
      have hsplit : ∃ sectors, readSectors p n = p / 512 :: sectors := by
        rw [readSectors, List.range'_succ]
        exact ⟨_, rfl⟩
      cases hbuf : s.drive s.requests (p / 512) with
      | none =>
          obtain ⟨sectors, hsectors⟩ := hsplit
          have hfails := diskstreamerReadLoop_fails fuel (n : Int) (by rw [hsector]; exact hbuf) hst
          rw [total_of_some hfails, hsectors, untilFailure_of_none _ hbuf, hsector]
          rfl
      | some buf =>
          have hstep := diskstreamerReadLoop_step (n := n) fuel (by rw [hsector]; exact hbuf) hst hmod
            (Nat.mod_lt _ (by decide)) (by omega)
          have hmoved := streamMoved_requests s stream (show p < 2 ^ 31 by omega)
          by_cases hover : 512 ≤ p % 512 + n
          · have hlive := streamMoved_stands s stream (p := p) (b := 512 - p % 512) (by omega)
            obtain ⟨r, s', hr, hasked⟩ := ih (n - (512 - p % 512)) (p + (512 - p % 512)) _ hlive
              (by omega) (by omega)
            rw [if_pos hover, hr] at hstep
            refine (total_of_some hstep).mpr ?_
            rw [hasked, hmoved, readSectors_next hover, untilFailure_of_some _ hbuf, List.reverse_cons,
              List.append_assoc]
            rfl
          · rw [if_neg hover] at hstep
            rw [total_of_some hstep, hmoved, readSectors_last (not_le.mp hover),
              untilFailure_of_some _ hbuf]
            rfl

theorem diskstreamerRead_asks {s : Kernel} {stream : UInt32} {p n : Nat}
    (hst : s.live stream = some (diskStreamK.inj ⟨p⟩)) (hend : p + n < 2 ^ 31) :
    Total (diskstreamerRead stream n) s fun _ s' =>
      s'.requests = (untilFailure s.drive s.requests (readSectors p n)).reverse ++ s.requests := by
  have hfuel : p % 512 + n < 512 * (n / 512 + 2) := by omega
  exact diskstreamerReadLoop_asks stream _ n p s hst hend hfuel

/-! ## The sectors of a range of bytes -/

/-- The sectors with a byte from `p` up to `p + n`, in ascending order. -/
structure SectorsOf (p n : Nat) (sectors : List Nat) : Prop where
  ascending : sectors.Pairwise (· < ·)
  mem : ∀ b, b ∈ sectors ↔ ∃ i, p ≤ i ∧ i < p + n ∧ i / 512 = b

theorem SectorsOf.unique {p n : Nat} {sectors sectors' : List Nat} (h : SectorsOf p n sectors)
    (h' : SectorsOf p n sectors') : sectors = sectors' :=
  h.ascending.eq_of_mem_iff h'.ascending fun b => (h.mem b).trans (h'.mem b).symm

/-- As a list of consecutive numbers. -/
def sectorsOf (p n : Nat) : List Nat := List.range' (p / 512) ((p + n - 1) / 512 + 1 - p / 512)

theorem sectorsOf_spec {p n : Nat} (hn : 1 ≤ n) : SectorsOf p n (sectorsOf p n) where
  ascending := List.pairwise_lt_range'
  mem := by
    intro b
    rw [sectorsOf, List.mem_range'_1]
    constructor
    · rintro ⟨hlow, hhigh⟩
      -- the first byte of the sector, or the first byte read
      refine ⟨max p (b * 512), Nat.le_max_left .., ?_, ?_⟩ <;> omega
    · rintro ⟨i, hlow, hhigh, rfl⟩
      omega

/-- A read that does not end with a sector asks for the sectors of its bytes. -/
theorem readSectors_inside {p n : Nat} (hn : 1 ≤ n) (h : ¬ 512 ∣ p + n) :
    readSectors p n = sectorsOf p n := by
  have hcount : (p % 512 + n) / 512 + 1 = (p + n - 1) / 512 + 1 - p / 512 := by omega
  rw [readSectors, hcount, sectorsOf]

/-- A read that ends with a sector also asks for the next one. -/
theorem readSectors_boundary {p n : Nat} (hn : 1 ≤ n) (h : 512 ∣ p + n) :
    readSectors p n = sectorsOf p n ++ [(p + n) / 512] := by
  have hcount : (p % 512 + n) / 512 + 1 = (p + n - 1) / 512 + 1 - p / 512 + 1 := by omega
  have hlast : p / 512 + ((p + n - 1) / 512 + 1 - p / 512) = (p + n) / 512 := by omega
  rw [readSectors, hcount, List.range'_1_concat, hlast, sectorsOf]

/-! ## The claim of a read on the disk -/

/-- A read of `n` bytes at `p` asks for the sectors of its bytes, each once and in ascending order, as
long as the drive answers. -/
def AsksForItsSectors (s : Kernel) (stream : UInt32) (p n : Nat) : Prop :=
  Total (diskstreamerRead stream n) s fun _ s' => ∃ sectors, SectorsOf p n sectors ∧
    s'.requests = (untilFailure s.drive s.requests sectors).reverse ++ s.requests

/-- **A read asks for one sector too many exactly when it ends with a sector**, unless the drive has
failed before. -/
theorem asksForItsSectors_iff {s : Kernel} {stream : UInt32} {p n : Nat}
    (hst : s.live stream = some (diskStreamK.inj ⟨p⟩)) (hn : 1 ≤ n) (hend : p + n < 2 ^ 31) :
    AsksForItsSectors s stream p n ↔
      ¬ 512 ∣ p + n ∨ ¬ Succeeds s.drive s.requests (sectorsOf p n) := by
  obtain ⟨r, s', hrun, hasked⟩ := diskstreamerRead_asks hst hend
  unfold AsksForItsSectors
  rw [total_of_some hrun, hasked]
  constructor
  · rintro ⟨sectors, hsectors, heq⟩
    obtain rfl := hsectors.unique (sectorsOf_spec hn)
    by_contra hnot
    rw [not_or, not_not, not_not] at hnot
    obtain ⟨hboundary, hanswered⟩ := hnot
    -- the next sector is asked for, too
    rw [readSectors_boundary hn hboundary, untilFailure_append _ hanswered,
      untilFailure_of_succeeds hanswered] at heq
    have hlength := congrArg List.length heq
    rw [List.length_append, List.length_append, List.length_reverse, List.length_reverse,
      List.length_append, untilFailure, List.length_cons] at hlength
    omega
  · intro h
    refine ⟨_, sectorsOf_spec hn, ?_⟩
    by_cases hboundary : 512 ∣ p + n
    · have hfails := h.resolve_left (not_not.mpr hboundary)
      rw [readSectors_boundary hn hboundary, untilFailure_append_of_fails _ hfails]
    · rw [readSectors_inside hn hboundary]

/-- Four bytes from two sectors. -/
theorem asksForItsSectors_510 :
    AsksForItsSectors (streamKernel (510 : Nat)) 4096 510 4 ↔
      ¬ 512 ∣ 510 + 4 ∨ ¬ Succeeds (streamKernel (510 : Nat)).drive [] (sectorsOf 510 4) :=
  asksForItsSectors_iff rfl (by decide) (by decide)

/-- The first sector of the disk, as a whole: the second one is asked for, too. -/
theorem diskstreamerRead_next_sector :
    SectorsOf 0 512 [0] ∧
    Total (diskstreamerRead 4096 (512 : Nat)) (streamKernel (0 : Nat)) (fun _ s' => s'.requests = [1, 0]) ∧
    ¬ AsksForItsSectors (streamKernel (0 : Nat)) 4096 0 512 := by
  have hone : SectorsOf 0 512 [0] := sectorsOf_spec (by decide)
  have hrun : Total (diskstreamerRead 4096 (512 : Nat)) (streamKernel (0 : Nat))
      (fun _ s' => s'.requests = [1, 0]) := by decide +kernel
  refine ⟨hone, hrun, ?_⟩
  rintro ⟨r, s', hread, sectors, hsectors, heq⟩
  obtain rfl := hsectors.unique hone
  rw [(total_of_some hread).mp hrun] at heq
  exact absurd heq (by decide)

end RasOS
