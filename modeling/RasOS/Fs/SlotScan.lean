import RasOS.Disk.Requests
import RasOS.Fs.File

set_option autoImplicit false

/-! # Counting the entries of a directory

`fat16_get_total_items_for_directory` reads slot after slot from a position of the disk on until it
finds a zero or a read fails. Nothing in it knows where the directory ends, or where it continues. -/

namespace RasOS

open Machine

variable {image : Nat → Sector}

/-! ## Slots -/

/-- A slot in use. -/
def InUse (slot : List UInt8) : Prop := byteAt slot 0 ≠ 0xE5

instance (slot : List UInt8) : Decidable (InUse slot) := inferInstanceAs (Decidable (_ ≠ _))

/-- Slot `i` of the slots at `base`. -/
def slotAt (image : Nat → Sector) (base i : Nat) : List UInt8 :=
  slice (diskByte image) (base + i * SIZEOF_FAT_DIRECTORY_ITEM) SIZEOF_FAT_DIRECTORY_ITEM

/-- The sectors a scan of `n` slots from slot `j` on asks for. -/
def scanSectors (base j n : Nat) : List Nat :=
  (List.range' j n).flatMap fun i =>
    readSectors (base + i * SIZEOF_FAT_DIRECTORY_ITEM) SIZEOF_FAT_DIRECTORY_ITEM

/-- A scan of the slots at `base` from slot `j` on that asks for its sectors from `s` on finds the first zero `k` slots
further, at a position an `int` can hold. -/
structure Scanned (s : Kernel) (image : Nat → Sector) (base j k : Nat) : Prop where
  range : base + (j + k + 1) * SIZEOF_FAT_DIRECTORY_ITEM < 2 ^ 31
  before : ∀ i, j ≤ i → i < j + k → byteAt (slotAt image base i) 0 ≠ 0x00
  terminator : byteAt (slotAt image base (j + k)) 0 = 0x00
  requests : Succeeds s.drive s.requests (scanSectors base j (k + 1))

theorem scanSectors_succ (base j n : Nat) :
    scanSectors base j (n + 1) =
      readSectors (base + j * SIZEOF_FAT_DIRECTORY_ITEM) SIZEOF_FAT_DIRECTORY_ITEM ++
        scanSectors base (j + 1) n := by
  rw [scanSectors, List.range'_succ, List.flatMap_cons, scanSectors]

/-- A scan that finds the zero in the slot it begins with. -/
theorem scanned_terminator {s : Kernel} {base j : Nat}
    (hrange : base + (j + 1) * SIZEOF_FAT_DIRECTORY_ITEM < 2 ^ 31)
    (hread : Succeeds s.drive s.requests
      (readSectors (base + j * SIZEOF_FAT_DIRECTORY_ITEM) SIZEOF_FAT_DIRECTORY_ITEM))
    (hzero : byteAt (slotAt image base j) 0 = 0x00) (k : Nat) : Scanned s image base j k ↔ k = 0 := by
  constructor
  · intro h
    by_contra hk
    exact h.before j (Nat.le_refl j) (by omega) hzero
  · rintro rfl
    refine ⟨hrange, fun i h1 h2 => by omega, hzero, ?_⟩
    rw [scanSectors_succ, succeeds_append]
    exact ⟨hread, trivial⟩

/-- A scan that goes on behind the slot it begins with. -/
theorem scanned_next {s s' : Kernel} {base j : Nat}
    (hread : Succeeds s.drive s.requests
      (readSectors (base + j * SIZEOF_FAT_DIRECTORY_ITEM) SIZEOF_FAT_DIRECTORY_ITEM))
    (hdrive : s'.drive = s.drive)
    (hrequests : s'.requests = (readSectors (base + j * SIZEOF_FAT_DIRECTORY_ITEM)
      SIZEOF_FAT_DIRECTORY_ITEM).reverse ++ s.requests)
    (hne : byteAt (slotAt image base j) 0 ≠ 0x00) (k : Nat) :
    Scanned s image base j k ↔ ∃ k', k = k' + 1 ∧ Scanned s' image base (j + 1) k' := by
  constructor
  · intro h
    cases k with
    | zero => exact absurd h.terminator hne
    | succ k =>
        have hrequests' := h.requests
        rw [scanSectors_succ, succeeds_append, ← hrequests, ← hdrive] at hrequests'
        have hshift : j + 1 + k = j + (k + 1) := by omega
        refine ⟨k, rfl, ?_, fun i h1 h2 => h.before i (by omega) (by omega), ?_, hrequests'.2⟩
        · rw [hshift]
          exact h.range
        · rw [hshift]
          exact h.terminator
  · rintro ⟨k, rfl, h⟩
    have hshift : j + 1 + k = j + (k + 1) := by omega
    refine ⟨?_, fun i h1 h2 => ?_, ?_, ?_⟩
    · rw [← hshift]
      exact h.range
    · by_cases hij : i = j
      · rw [hij]
        exact hne
      · exact h.before i (by omega) (by omega)
    · rw [← hshift]
      exact h.terminator
    · rw [scanSectors_succ, succeeds_append, ← hrequests]
      exact ⟨hread, hdrive ▸ h.requests⟩

/-- A scan whose next read takes the stream to a negative position, and that does not leave it then. -/
theorem getTotalItemsLoop_toNegative {stream : UInt32} {fuel : Nat} {i : Int} {s : Kernel}
    (hread : Ensures (diskstreamerRead stream SIZEOF_FAT_DIRECTORY_ITEM) s fun r s' =>
      r.1 < 0 ∨ AtNegative s' stream)
    (hrest : ∀ i s', AtNegative s' stream →
      Ensures (getTotalItemsLoop stream fuel i) s' fun r s' => r < 0 ∨ AtNegative s' stream) :
    Ensures (getTotalItemsLoop stream (fuel + 1) i) s fun r s' => r < 0 ∨ AtNegative s' stream := by
  rw [getTotalItemsLoop]
  refine Ensures.bind hread ?_
  rintro ⟨res, item⟩ s1 hread
  dsimp only at hread ⊢
  refine Ensures.ite (fun _ => Ensures.pure (Or.inl (by decide))) fun hok => ?_
  have hnegative : AtNegative s1 stream := by
    rcases hread with h | h
    · rw [not_not.mp hok] at h
      exact absurd h (lt_irrefl OK)
    · exact h
  refine Ensures.ite (fun _ => Ensures.pure (Or.inr hnegative)) fun _ => ?_
  exact Ensures.ite (fun _ => hrest _ _ hnegative) fun _ => hrest _ _ hnegative

theorem getTotalItemsLoop_negative (stream : UInt32) :
    ∀ (fuel : Nat) (i : Int) (s : Kernel), AtNegative s stream →
      Ensures (getTotalItemsLoop stream fuel i) s fun r s' => r < 0 ∨ AtNegative s' stream := by
  intro fuel
  induction fuel with
  | zero => exact fun _ _ _ => Ensures.stop
  | succ fuel ih =>
      rintro i s ⟨pos, hst, hlow, hneg⟩
      exact getTotalItemsLoop_toNegative
        (diskstreamerRead_negative hst hlow hneg (by decide) (by decide)) ih

/-- A scan depends on the answers of the drive only. -/
theorem Scanned.congr {s s' : Kernel} {base j k : Nat} (h : Scanned s image base j k)
    (hdrive : s'.drive = s.drive) (hrequests : s'.requests = s.requests) : Scanned s' image base j k :=
  ⟨h.range, h.before, h.terminator, by rw [hdrive, hrequests]; exact h.requests⟩

/-- The number of slots in use among `k` from slot `j` on. -/
def usedSlots (image : Nat → Sector) (base j k : Nat) : Nat :=
  (List.range' j k).countP fun m => InUse (slotAt image base m)

theorem usedSlots_le (base j k : Nat) : usedSlots image base j k ≤ k := by
  have hle := List.countP_le_length (p := fun m => decide (InUse (slotAt image base m)))
    (l := List.range' j k)
  rw [List.length_range'] at hle
  exact hle

theorem usedSlots_succ (base j k : Nat) :
    usedSlots image base j (k + 1) =
      usedSlots image base (j + 1) k + if InUse (slotAt image base j) then 1 else 0 := by
  rw [usedSlots, List.range'_succ, List.countP_cons, usedSlots]
  simp only [decide_eq_true_eq]

/-! ## The loop -/

/-- One turn of the loop whose requests are answered. -/
theorem getTotalItemsLoop_step {s : Kernel} {stream : UInt32} {base j : Nat} (hdrive : MayFail s image)
    (hst : s.live stream = some (diskStreamK.inj ⟨(base + j * SIZEOF_FAT_DIRECTORY_ITEM : Nat)⟩))
    (hend : base + (j + 1) * SIZEOF_FAT_DIRECTORY_ITEM < 2 ^ 31)
    (hread : Succeeds s.drive s.requests
      (readSectors (base + j * SIZEOF_FAT_DIRECTORY_ITEM) SIZEOF_FAT_DIRECTORY_ITEM)) (fuel : Nat) (i : Int) :
    ∃ s', s'.drive = s.drive ∧
      s'.requests = (readSectors (base + j * SIZEOF_FAT_DIRECTORY_ITEM)
        SIZEOF_FAT_DIRECTORY_ITEM).reverse ++ s.requests ∧
      s'.live stream = some (diskStreamK.inj ⟨(base + (j + 1) * SIZEOF_FAT_DIRECTORY_ITEM : Nat)⟩) ∧
      getTotalItemsLoop stream (fuel + 1) i s =
        if byteAt (slotAt image base j) 0 = 0x00 then some (i, s')
        else getTotalItemsLoop stream fuel (i + if InUse (slotAt image base j) then 1 else 0) s' := by
  have hstep : base + (j + 1) * SIZEOF_FAT_DIRECTORY_ITEM
      = base + j * SIZEOF_FAT_DIRECTORY_ITEM + SIZEOF_FAT_DIRECTORY_ITEM := by ring
  obtain ⟨r, s1, hrun, hdone⟩ := (diskstreamerRead_requests hdrive hst (hstep ▸ hend)).1 hread
  have hslot : slice (diskByte image) (base + j * SIZEOF_FAT_DIRECTORY_ITEM)
      SIZEOF_FAT_DIRECTORY_ITEM = slotAt image base j := rfl
  refine ⟨s1, hdone.drive, hdone.requests, by rw [hstep]; exact hdone.stream, ?_⟩
  rw [getTotalItemsLoop, bind_of_some hrun, hdone.result]
  dsimp only
  rw [if_neg (by decide), hslot]
  split
  · rfl
  split
  · rename_i hdel
    have hunused : ¬ InUse (slotAt image base j) := not_not.mpr hdel
    rw [if_neg hunused, add_zero]
  · rename_i hused
    have hused' : InUse (slotAt image base j) := hused
    rw [if_pos hused']

/-- **A scan that finds a zero returns the number of slots in use before it**, and leaves the stream
behind it. By induction on the slots before the zero. -/
theorem getTotalItemsLoop_found (stream : UInt32) (base k : Nat) :
    ∀ (j fuel : Nat) (i : Int) (s : Kernel), MayFail s image →
      s.live stream = some (diskStreamK.inj ⟨(base + j * SIZEOF_FAT_DIRECTORY_ITEM : Nat)⟩) →
      Scanned s image base j k → k < fuel →
      Total (getTotalItemsLoop stream fuel i) s fun r s' => r = i + usedSlots image base j k ∧
        s'.live stream = some (diskStreamK.inj
          ⟨(base + (j + k + 1) * SIZEOF_FAT_DIRECTORY_ITEM : Nat)⟩) := by
  induction k with
  | zero =>
      intro j fuel i s hdrive hst hscan hfuel
      obtain ⟨fuel, rfl⟩ := Nat.exists_eq_succ_of_ne_zero (Nat.ne_of_gt hfuel)
      have hread := hscan.requests
      rw [scanSectors_succ, succeeds_append] at hread
      obtain ⟨s', -, -, hst', hrun⟩ := getTotalItemsLoop_step hdrive hst hscan.range hread.1 fuel i
      have hzero : byteAt (slotAt image base j) 0 = 0x00 := hscan.terminator
      rw [if_pos hzero] at hrun
      exact ⟨_, _, hrun, (add_zero i).symm, hst'⟩
  | succ k ih =>
      intro j fuel i s hdrive hst hscan hfuel
      obtain ⟨fuel, rfl⟩ := Nat.exists_eq_succ_of_ne_zero (Nat.ne_zero_of_lt hfuel)
      have hrange : base + (j + 1) * SIZEOF_FAT_DIRECTORY_ITEM < 2 ^ 31 := by
        have hle : (j + 1) * SIZEOF_FAT_DIRECTORY_ITEM ≤ (j + (k + 1) + 1) * SIZEOF_FAT_DIRECTORY_ITEM :=
          Nat.mul_le_mul_right _ (by omega)
        exact lt_of_le_of_lt (Nat.add_le_add_left hle base) hscan.range
      have hread := hscan.requests
      rw [scanSectors_succ, succeeds_append] at hread
      have hne := hscan.before j (Nat.le_refl j) (by omega)
      obtain ⟨s', hdrive', hrequests', hst', hrun⟩ := getTotalItemsLoop_step hdrive hst hrange hread.1 fuel i
      obtain ⟨k', hk, hscan'⟩ := (scanned_next hread.1 hdrive' hrequests' hne (k + 1)).mp hscan
      obtain rfl := Nat.succ.inj hk
      have hmay : MayFail s' image := by
        rw [MayFail, hdrive']
        exact hdrive
      rw [if_neg hne] at hrun
      obtain ⟨r, s'', hrest, hr, hst''⟩ := ih (j + 1) fuel _ s' hmay hst' hscan' (by omega)
      have hshift : j + 1 + k + 1 = j + (k + 1) + 1 := by omega
      rw [hshift] at hst''
      refine ⟨r, s'', hrun.trans hrest, ?_, hst''⟩
      rw [hr, usedSlots_succ]
      push_cast
      ring

/-- **A scan that finds no zero fails or leaves the positions of an `int`.** By induction on the
reads. -/
theorem getTotalItemsLoop_lost (stream : UInt32) {base : Nat}
    (hbase : base % SIZEOF_FAT_DIRECTORY_ITEM = 0) :
    ∀ (fuel j : Nat) (i : Int) (s : Kernel), MayFail s image →
      s.live stream = some (diskStreamK.inj ⟨(base + j * SIZEOF_FAT_DIRECTORY_ITEM : Nat)⟩) →
      base + j * SIZEOF_FAT_DIRECTORY_ITEM < 2 ^ 31 → (¬ ∃ k, Scanned s image base j k) →
      Ensures (getTotalItemsLoop stream fuel i) s fun r s' => r < 0 ∨ AtNegative s' stream := by
  intro fuel
  induction fuel with
  | zero => exact fun _ _ _ _ _ _ _ => Ensures.stop
  | succ fuel ih =>
      intro j i s hdrive hst hpos hno
      have hsize : SIZEOF_FAT_DIRECTORY_ITEM = 32 := rfl
      by_cases hend : base + (j + 1) * SIZEOF_FAT_DIRECTORY_ITEM < 2 ^ 31
      · have hstep : base + (j + 1) * SIZEOF_FAT_DIRECTORY_ITEM
            = base + j * SIZEOF_FAT_DIRECTORY_ITEM + SIZEOF_FAT_DIRECTORY_ITEM := by ring
        by_cases hread : Succeeds s.drive s.requests
            (readSectors (base + j * SIZEOF_FAT_DIRECTORY_ITEM) SIZEOF_FAT_DIRECTORY_ITEM)
        · obtain ⟨s1, hdrive1, hrequests1, hst1, hrun⟩ := getTotalItemsLoop_step hdrive hst hend hread fuel i
          have hne : byteAt (slotAt image base j) 0 ≠ 0x00 := fun hzero =>
            hno ⟨0, (scanned_terminator hend hread hzero 0).mpr rfl⟩
          have hmay : MayFail s1 image := by
            rw [MayFail, hdrive1]
            exact hdrive
          rw [if_neg hne] at hrun
          intro r s' h
          refine ih (j + 1) _ s1 hmay hst1 hend ?_ r s' (hrun.symm.trans h)
          rintro ⟨k, hk⟩
          exact hno ⟨k + 1, (scanned_next hread hdrive1 hrequests1 hne (k + 1)).mpr ⟨k, rfl, hk⟩⟩
        · rw [getTotalItemsLoop]
          refine Ensures.bind ((diskstreamerRead_requests hdrive hst (hstep ▸ hend)).2 hread).ensures ?_
          rintro ⟨res, item⟩ s1 hneg
          dsimp only at hneg ⊢
          have hres : res ≠ OK := by
            rintro rfl
            exact absurd hneg (lt_irrefl OK)
          rw [if_pos hres]
          exact Ensures.pure (Or.inl (by decide))
      · -- the slot ends where the positions of an `int` do
        have hlast : base + j * SIZEOF_FAT_DIRECTORY_ITEM + SIZEOF_FAT_DIRECTORY_ITEM = 2 ^ 31 := by
          rw [hsize] at hbase hpos hend ⊢
          omega
        exact getTotalItemsLoop_toNegative (diskstreamerRead_edge hst hlast (by decide) (by decide))
          (getTotalItemsLoop_negative stream fuel)

/-- Positions of the directory stream are positions of an `int` after the scan. -/
theorem getTotalItemsLoop_int (stream : UInt32) :
    ∀ (fuel : Nat) (i : Int) (s : Kernel),
      (∀ st, s.live stream = some (diskStreamK.inj st) → st.pos < 2 ^ 31) →
      Ensures (getTotalItemsLoop stream fuel i) s fun _ s' =>
        ∀ st, s'.live stream = some (diskStreamK.inj st) → st.pos < 2 ^ 31 := by
  intro fuel
  induction fuel with
  | zero => exact fun _ _ _ => Ensures.stop
  | succ fuel ih =>
      intro i s hpos
      rw [getTotalItemsLoop]
      refine Ensures.bind (diskstreamerReadLoop_int stream _ _ s hpos) ?_
      rintro ⟨res, item⟩ s1 hpos1
      refine Ensures.ite (fun _ => Ensures.pure hpos1) fun _ => ?_
      refine Ensures.ite (fun _ => Ensures.pure hpos1) fun _ => ?_
      exact Ensures.ite (fun _ => ih _ _ hpos1) fun _ => ih _ _ hpos1

end RasOS
