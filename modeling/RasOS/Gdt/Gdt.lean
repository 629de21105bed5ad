import RasOS.Config
import RasOS.Lib.Descriptor
import RasOS.Lib.Prog

set_option autoImplicit false

/-! # The global descriptor table (`gdt/gdt.c`)

The state is the memory of the table, its bytes counted from the first one. The structures the table is made from
are another object. -/

namespace RasOS

open Machine

/-! ## The code -/

structure GdtStructured where
  base : UInt32
  limit : UInt32
  access_byte : UInt8
  deriving DecidableEq

abbrev GdtM := Prog (Nat → UInt8)

def gdtByte (p : Nat) : GdtM UInt8 := fun mem => some (mem p, mem)

def gdtSetByte (p : Nat) (b : UInt8) : GdtM Unit := fun mem => some ((), Function.update mem p b)

/-- `encode_gdt_entry` from the point where `in.limit` is the number that is stored. -/
def encodeGdtFields (out : Nat) (entry : GdtStructured) : GdtM Unit := do
  gdtSetByte out (entry.limit &&& 0xFF).toUInt8
  gdtSetByte (out + 1) (entry.limit >>> 8 &&& 0xFF).toUInt8
  let flags ← gdtByte (out + 6)
  gdtSetByte (out + 6) (flags ||| (entry.limit >>> 16 &&& 0x0F).toUInt8)
  gdtSetByte (out + 2) (entry.base &&& 0xFF).toUInt8
  gdtSetByte (out + 3) (entry.base >>> 8 &&& 0xFF).toUInt8
  gdtSetByte (out + 4) (entry.base >>> 16 &&& 0xFF).toUInt8
  gdtSetByte (out + 7) (entry.base >>> 24 &&& 0xFF).toUInt8
  gdtSetByte (out + 5) entry.access_byte

/-- `encode_gdt_entry`. `panic` does not return. -/
def encodeGdtEntry (out : Nat) (entry : GdtStructured) : GdtM Unit :=
  if entry.limit > 65536 ∧ entry.limit &&& 0xFFF ≠ 0xFFF then
    stop
  else do
    gdtSetByte (out + 6) 0b01000000
    if entry.limit > 65536 then do
      -- the granularity flag
      gdtSetByte (out + 6) 0b11000000
      encodeGdtFields out { entry with limit := entry.limit >>> 12 }
    else
      encodeGdtFields out entry

/-- The loop of `gdt_structured_to_gdt` over the entries `i`, …, `i + remaining - 1`. -/
def gdtStructuredToGdtLoop (structured_gdt : Nat → GdtStructured) : (remaining i : Nat) → GdtM Unit
  | 0, _ => pure ()
  | remaining + 1, i => do
      encodeGdtEntry (SIZEOF_GDT * i) (structured_gdt i)
      gdtStructuredToGdtLoop structured_gdt remaining (i + 1)

def gdtStructuredToGdt (structured_gdt : Nat → GdtStructured) (total_entries : Int) : GdtM Unit :=
  gdtStructuredToGdtLoop structured_gdt total_entries.toNat 0

/-- The table `gdt_structured` of `kernel.c`, for a `tss` at the given address. -/
def kernelGdtStructured (tss : UInt32) (i : Nat) : GdtStructured :=
  [⟨0x00, 0x00, 0x00⟩,               -- NULL Segment
   ⟨0x00, 0xffffffff, 0x9a⟩,         -- Kernel code segment
   ⟨0x00, 0xffffffff, 0x92⟩,         -- Kernel data segment
   ⟨0x00, 0xffffffff, 0xf8⟩,         -- User code segment
   ⟨0x00, 0xffffffff, 0xf2⟩,         -- User data segment
   ⟨tss, SIZEOF_TSS, 0xE9⟩].getD i ⟨0, 0, 0⟩

/-! ## One entry -/

/-- The limits that `encode_gdt_entry` takes. -/
def Admitted (entry : GdtStructured) : Prop := entry.limit ≤ 65536 ∨ entry.limit &&& 0xFFF = 0xFFF

instance (entry : GdtStructured) : Decidable (Admitted entry) := inferInstanceAs (Decidable (_ ∨ _))

/-- The segment that an entry describes. -/
def GdtStructured.segment (entry : GdtStructured) : Segment := ⟨entry.base, entry.limit, entry.access_byte⟩

/-- The bytes of an entry. -/
def gdtBytes (entry : GdtStructured) : List UInt8 :=
  if entry.limit > 65536 then
    descriptorBytes entry.base (entry.limit >>> 12) entry.access_byte 0b11000000
  else
    descriptorBytes entry.base entry.limit entry.access_byte 0b01000000

theorem not_admitted_iff (entry : GdtStructured) :
    entry.limit > 65536 ∧ entry.limit &&& 0xFFF ≠ 0xFFF ↔ ¬ Admitted entry := by
  rw [Admitted, not_or, UInt32.not_le]

/-- The upper four bits of a field of 20. -/
theorem toUInt8_and_15 {field : UInt32} (h : field.toNat < 2 ^ 20) :
    (field >>> 16 &&& 0x0F).toUInt8 = (field >>> 16).toUInt8 := by
  have hmask : (field >>> 16) &&& (0x0F : UInt32) = field >>> 16 := by
    apply UInt32.toNat_inj.mp
    have hlow : (field >>> 16).toNat &&& 15 = (field >>> 16).toNat % 2 ^ 4 := Nat.and_two_pow_sub_one_eq_mod _ 4
    have hshift : (field >>> 16).toNat = field.toNat / 2 ^ 16 := by
      rw [UInt32.toNat_shiftRight, Nat.shiftRight_eq_div_pow]
      rfl
    rw [UInt32.toNat_and, show (0x0F : UInt32).toNat = 15 from rfl, hlow]
    omega
  rw [hmask]

/-- A limit in pages has 20 bits. -/
theorem pages_lt (limit : UInt32) : (limit >>> 12).toNat < 2 ^ 20 := by
  have hlt := limit.toNat_lt
  rw [UInt32.toNat_shiftRight, Nat.shiftRight_eq_div_pow]
  simp only [UInt32.reduceToNat, Nat.reduceMod]
  omega

/-- So has one of at most 64 KiB. -/
theorem limit_lt {limit : UInt32} (h : ¬ limit > 65536) : limit.toNat < 2 ^ 20 := by
  have hle := UInt32.le_iff_toNat_le.mp (UInt32.not_lt.mp h)
  simp only [UInt32.reduceToNat] at hle
  omega

/-- What encoding at `out` makes of the memory. -/
structure EncodedAt (mem mem' : Nat → UInt8) (out : Nat) (bytes : List UInt8) : Prop where
  bytes : slice mem' out SIZEOF_GDT = bytes
  others : ∀ q, q < out ∨ out + SIZEOF_GDT ≤ q → mem' q = mem q

/-- The fields are put around the flags that are there. -/
theorem encodeGdtFields_spec {entry : GdtStructured} (hfield : entry.limit.toNat < 2 ^ 20) (out : Nat)
    {mem0 mem : Nat → UInt8} {flags : UInt8} (hflags : mem (out + 6) = flags)
    (hmem : ∀ q, q ≠ out + 6 → mem q = mem0 q) :
    Total (encodeGdtFields out entry) mem fun _ mem' =>
      EncodedAt mem0 mem' out (descriptorBytes entry.base entry.limit entry.access_byte flags) := by
  refine ⟨(), _, rfl, ?_, ?_⟩
  · simp [slice, List.range_succ, Function.update_apply, descriptorBytes, toUInt8_and_15 hfield, hflags]
  · intro q hq
    have hsize : SIZEOF_GDT = 8 := rfl
    rw [hsize] at hq
    have hne : ∀ k < 8, q ≠ out + k := by
      intro k hk
      omega
    have h0 : q ≠ out := hne 0 (by decide)
    simp [hne, hmem, h0]

theorem total_gdtSetByte {α : Type} {p : Nat} {b : UInt8} {f : Unit → GdtM α} {mem : Nat → UInt8}
    {Q : α → (Nat → UInt8) → Prop} :
    Total (gdtSetByte p b >>= f) mem Q ↔ Total (f ()) (Function.update mem p b) Q :=
  total_bind_of_some rfl

/-- **Encoding an entry.** -/
theorem encodeGdtEntry_spec {entry : GdtStructured} (h : Admitted entry) (out : Nat) (mem : Nat → UInt8) :
    Total (encodeGdtEntry out entry) mem fun _ mem' => EncodedAt mem mem' out (gdtBytes entry) := by
  unfold encodeGdtEntry gdtBytes
  rw [if_neg fun hbad => (not_admitted_iff entry).mp hbad h, total_gdtSetByte]
  by_cases hpages : entry.limit > 65536
  · rw [if_pos hpages, if_pos hpages, total_gdtSetByte]
    apply encodeGdtFields_spec (pages_lt entry.limit)
    · simp
    · intro q hq
      simp [hq]
  · rw [if_neg hpages, if_neg hpages]
    apply encodeGdtFields_spec (limit_lt hpages)
    · simp
    · intro q hq
      simp [hq]

/-- An entry with another limit stops the kernel. -/
theorem encodeGdtEntry_panics {entry : GdtStructured} (h : ¬ Admitted entry) (out : Nat) (mem : Nat → UInt8) :
    encodeGdtEntry out entry mem = none := by
  unfold encodeGdtEntry
  rw [if_pos ((not_admitted_iff entry).mpr h)]
  rfl

/-- The eight bytes of an admitted entry describe its segment. -/
theorem segmentAt_gdtBytes {entry : GdtStructured} (h : Admitted entry) {mem : Nat → UInt8} {p : Nat}
    (hbytes : slice mem p SIZEOF_GDT = gdtBytes entry) : segmentAt mem p = entry.segment := by
  unfold gdtBytes at hbytes
  by_cases hpages : entry.limit > 65536
  · rw [if_pos hpages] at hbytes
    have hlow : entry.limit &&& 0xFFF = 0xFFF := h.resolve_left (UInt32.not_le.mpr hpages)
    rw [segmentAt_descriptorBytes hbytes (pages_lt entry.limit) (by decide), if_pos (by decide),
      pages_shiftLeft hlow]
    rfl
  · rw [if_neg hpages] at hbytes
    rw [segmentAt_descriptorBytes hbytes (limit_lt hpages) (by decide), if_neg (by decide)]
    rfl

/-! ## The table -/

/-- **Encoding a table.** Every entry is put in its own eight bytes, and nothing else is changed. -/
theorem gdtStructuredToGdtLoop_spec {structured_gdt : Nat → GdtStructured} (remaining i : Nat)
    (mem : Nat → UInt8) (h : ∀ j, i ≤ j → j < i + remaining → Admitted (structured_gdt j)) :
    Total (gdtStructuredToGdtLoop structured_gdt remaining i) mem fun _ mem' =>
      (∀ j, i ≤ j → j < i + remaining → slice mem' (SIZEOF_GDT * j) SIZEOF_GDT = gdtBytes (structured_gdt j)) ∧
      ∀ q, q < SIZEOF_GDT * i ∨ SIZEOF_GDT * (i + remaining) ≤ q → mem' q = mem q := by
  have hsize : SIZEOF_GDT = 8 := rfl
  induction remaining generalizing i mem with
  | zero =>
      refine total_pure.mpr ⟨fun j hj hlt => ?_, fun _ _ => rfl⟩
      omega
  | succ remaining ih =>
      refine (encodeGdtEntry_spec (h i (Nat.le_refl i) (by omega)) _ mem).bind fun _ mem1 hentry => ?_
      refine (ih (i + 1) mem1 fun j hj hlt => h j (by omega) (by omega)).mono fun _ mem' hrest => ?_
      obtain ⟨hbytes, hothers⟩ := hrest
      constructor
      · intro j hj hlt
        rcases Nat.eq_or_lt_of_le hj with rfl | hj
        · -- the entries behind it leave this one alone
          rw [← hentry.bytes]
          apply slice_congr
          intro k hk
          apply hothers
          rw [hsize] at hk ⊢
          omega
        · exact hbytes j hj (by omega)
      · intro q hq
        rw [hsize] at hq hothers
        have hentry_others := hentry.others
        rw [hsize] at hentry_others
        calc mem' q
            = mem1 q := hothers q (by omega)
          _ = mem q := hentry_others q (by omega)

/-- A table that is encoded has admitted entries only. -/
theorem gdtStructuredToGdtLoop_admitted {structured_gdt : Nat → GdtStructured} (remaining i : Nat)
    {mem mem' : Nat → UInt8} (h : gdtStructuredToGdtLoop structured_gdt remaining i mem = some ((), mem')) :
    ∀ j, i ≤ j → j < i + remaining → Admitted (structured_gdt j) := by
  induction remaining generalizing i mem with
  | zero =>
      intro j hj hlt
      omega
  | succ remaining ih =>
      intro j hj hlt
      obtain ⟨_, mem1, hentry, hrest⟩ := bind_eq_some.mp h
      rcases Nat.eq_or_lt_of_le hj with rfl | hj
      · by_contra hbad
        rw [encodeGdtEntry_panics hbad] at hentry
        cases hentry
      · exact ih (i + 1) hrest j hj (by omega)

/-- The eight bytes at `p` describe the segment of the entry, and are those that encoding this entry alone makes
of any memory. -/
structure HoldsEntry (mem : Nat → UInt8) (p : Nat) (entry : GdtStructured) : Prop where
  decodes : segmentAt mem p = entry.segment
  alone : ∀ out mem0, Total (encodeGdtEntry out entry) mem0 fun _ mem1 =>
    slice mem1 out SIZEOF_GDT = slice mem p SIZEOF_GDT

theorem holdsEntry_of_bytes {entry : GdtStructured} (h : Admitted entry) {mem : Nat → UInt8} {p : Nat}
    (hbytes : slice mem p SIZEOF_GDT = gdtBytes entry) : HoldsEntry mem p entry := by
  refine ⟨segmentAt_gdtBytes h hbytes, fun out mem0 => ?_⟩
  refine (encodeGdtEntry_spec h out mem0).mono fun _ mem1 hentry => ?_
  rw [hentry.bytes, hbytes]

/-- A table of admitted entries. -/
theorem gdtStructuredToGdt_spec {structured_gdt : Nat → GdtStructured} {total_entries : Int}
    (h : ∀ i : Nat, (i : Int) < total_entries → Admitted (structured_gdt i)) (mem : Nat → UInt8) :
    Total (gdtStructuredToGdt structured_gdt total_entries) mem fun _ mem' =>
      ∀ i : Nat, (i : Int) < total_entries → HoldsEntry mem' (SIZEOF_GDT * i) (structured_gdt i) := by
  have hall : ∀ j, 0 ≤ j → j < 0 + total_entries.toNat → Admitted (structured_gdt j) :=
    fun j _ hlt => h j (by omega)
  refine (gdtStructuredToGdtLoop_spec total_entries.toNat 0 mem hall).mono fun _ mem' hbytes i hi => ?_
  exact holdsEntry_of_bytes (h i hi) (hbytes.1 i (Nat.zero_le i) (by omega))

/-- **What is encoded decodes to what it was**: an entry exactly when its limit is admitted, and every entry of a
table, whatever the others are, exactly when all of them are admitted. -/
theorem gdt_decodes_iff (entry : GdtStructured) (out : Nat) (structured_gdt : Nat → GdtStructured)
    (total_entries : Int) (mem : Nat → UInt8) :
    (Total (encodeGdtEntry out entry) mem (fun _ mem' => segmentAt mem' out = entry.segment) ↔
      Admitted entry) ∧
    (Total (gdtStructuredToGdt structured_gdt total_entries) mem (fun _ mem' =>
        ∀ i : Nat, (i : Int) < total_entries → HoldsEntry mem' (SIZEOF_GDT * i) (structured_gdt i)) ↔
      ∀ i : Nat, (i : Int) < total_entries → Admitted (structured_gdt i)) := by
  constructor
  · constructor
    · rintro ⟨_, mem', hrun, -⟩
      by_contra hbad
      rw [encodeGdtEntry_panics hbad] at hrun
      cases hrun
    · intro h
      exact (encodeGdtEntry_spec h out mem).mono fun _ mem' hentry => segmentAt_gdtBytes h hentry.bytes
  · constructor
    · rintro ⟨_, mem', hrun, -⟩ i hi
      exact gdtStructuredToGdtLoop_admitted total_entries.toNat 0 hrun i (Nat.zero_le i) (by omega)
    · exact fun h => gdtStructuredToGdt_spec h mem

/-! ## The table of the kernel -/

theorem kernelGdtStructured_admitted (tss : UInt32) (i : Nat) : Admitted (kernelGdtStructured tss i) := by
  have hall : (0xffffffff : UInt32) &&& 0xFFF = 0xFFF := by decide
  match i with
  | 0 => exact Or.inl (by decide : (0 : UInt32) ≤ 65536)
  | 1 | 2 | 3 | 4 => exact Or.inr hall
  | 5 => exact Or.inl (by decide : SIZEOF_TSS ≤ 65536)
  | _ + 6 => exact Or.inl (by decide : (0 : UInt32) ≤ 65536)

/-- The selectors of code and data, in the kernel and for the user, name segments that are all of memory. -/
theorem kernelGdt_flat (tss : UInt32) (mem : Nat → UInt8) :
    Total (gdtStructuredToGdt (kernelGdtStructured tss) RASOS_TOTAL_GDT_SEGMENTS) mem fun _ mem' =>
      ∀ selector ∈ [KERNEL_CODE_SELECTOR.toNat, KERNEL_DATA_SELECTOR.toNat, USER_CODE_SEGMENT.toNat,
          USER_DATA_SEGMENT.toNat],
        (segmentAt mem' (selector / 8 * SIZEOF_GDT)).base = 0 ∧
          (segmentAt mem' (selector / 8 * SIZEOF_GDT)).limit = 0xFFFFFFFF := by
  have hall : ∀ i : Nat, (i : Int) < (RASOS_TOTAL_GDT_SEGMENTS : Int) → Admitted (kernelGdtStructured tss i) :=
    fun i _ => kernelGdtStructured_admitted tss i
  refine (gdtStructuredToGdt_spec hall mem).mono fun _ mem' hentries selector hselector => ?_
  have hindex : ∀ i < RASOS_TOTAL_GDT_SEGMENTS,
      segmentAt mem' (i * SIZEOF_GDT) = (kernelGdtStructured tss i).segment := by
    intro i hi
    rw [Nat.mul_comm]
    exact (hentries i (by exact_mod_cast hi)).decodes
  simp only [List.mem_cons, List.not_mem_nil, or_false] at hselector
  rcases hselector with rfl | rfl | rfl | rfl
  all_goals
    rw [hindex _ (by decide)]
    exact ⟨rfl, rfl⟩

end RasOS
