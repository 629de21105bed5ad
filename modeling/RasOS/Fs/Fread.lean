import RasOS.Fs.OpenSpec
import RasOS.Fs.ReadSpec

set_option autoImplicit false

/-! # What `fread` stores

`fread` reads record by record, each with the pieces of a read at the offset of the record, and
stores the records one behind the other. -/

namespace RasOS

open Machine

/-! ## Memory -/

/-- The `n` bytes from `out` on. -/
def bytesAt (mem : UInt32 → UInt8) (out : UInt32) (n : Nat) : List UInt8 :=
  slice (fun i => mem (out + UInt32.ofNat i)) 0 n

/-- What has been written is there. -/
theorem bytesAt_writeBytes (mem : UInt32 → UInt8) (out : UInt32) (bytes : List UInt8)
    (hlen : bytes.length ≤ 2 ^ 32) :
    bytesAt (writeBytes mem out bytes) out bytes.length = bytes := by
  apply List.ext_getElem?
  intro i
  rw [bytesAt, slice_getElem?]
  by_cases hi : i < bytes.length
  · have hoff : (out + UInt32.ofNat (0 + i) - out).toNat = i := by
      rw [Nat.zero_add, toNat_offset out (by omega)]
    rw [if_pos hi, writeBytes, hoff, List.getElem?_eq_getElem hi, Option.getD_some]
  · rw [if_neg hi, List.getElem?_eq_none (by omega)]

/-- Two adjacent writes are one. -/
theorem writeBytes_append (mem : UInt32 → UInt8) (out : UInt32) {b1 b2 : List UInt8}
    (hlen : b1.length + b2.length ≤ 2 ^ 32) :
    writeBytes (writeBytes mem out b1) (out + UInt32.ofNat b1.length) b2
      = writeBytes mem out (b1 ++ b2) := by
  funext a
  have hlt := (a - out).toNat_lt
  simp only [writeBytes]
  rw [List.getElem?_append]
  by_cases hin : (a - out).toNat < b1.length
  · have hfar : b2.length ≤ (a - (out + UInt32.ofNat b1.length)).toNat := by
      rw [toNat_sub_offset]
      omega
    rw [if_pos hin, List.getElem?_eq_none hfar, Option.getD_none]
  · have hnear : (a - (out + UInt32.ofNat b1.length)).toNat = (a - out).toNat - b1.length := by
      rw [toNat_sub_offset]
      omega
    rw [if_neg hin, hnear, List.getElem?_eq_none (l := b1) (by omega), Option.getD_none]

/-! ## Records -/

variable {image : Nat → Sector} {priv : FatPrivate}

/-- Where byte `j` of a read in records of `size` bytes comes from. -/
def recordAddr (image : Nat → Sector) (first size j : Nat) : Nat :=
  readAddr image first (j / size * size) (j % size)

/-- The bytes `lo`, …, `lo + n - 1` of a read in records of `size` bytes. -/
def recordBytes (image : Nat → Sector) (first size lo n : Nat) : List UInt8 :=
  slice (fun j => diskByte image (recordAddr image first size j)) lo n

@[simp] theorem recordBytes_length (first size lo n : Nat) :
    (recordBytes image first size lo n).length = n := slice_length ..

/-- The walk gets to every piece of the records `lo`, …, `hi - 1`. -/
def RecordsFollowed (image : Nat → Sector) (first size lo hi : Nat) : Prop :=
  ∀ k, lo ≤ k → k < hi → LinksFollowed image first (lastIndex image (k * size) size)

theorem readBytes_record {size : Nat} (first k : Nat) (hsize : 0 < size) :
    readBytes image first (k * size) size = recordBytes image first size (k * size) size := by
  apply slice_congr
  intro i hi
  have hdiv : (k * size + i) / size = k := by
    rw [Nat.mul_comm, Nat.mul_add_div hsize, Nat.div_eq_of_lt hi, Nat.add_zero]
  have hmod : (k * size + i) % size = i := by
    rw [Nat.mul_comm, Nat.mul_add_mod, Nat.mod_eq_of_lt hi]
  simp only [recordAddr, Nat.zero_add, hdiv, hmod]

/-- One record. -/
theorem fat16ReadInternal_spec (h : Layout image priv) {first o n : Nat} (hfirst : first < 2 ^ 23)
    (hn : 0 < n) (hend : o + n < 2 ^ 31) (hrange : FollowedInRange image first o n) :
    Reads image priv (fat16ReadInternal first o n) fun r =>
      (LinksFollowed image first (lastIndex image o n) → r = (OK, readBytes image first o n)) ∧
      (¬ LinksFollowed image first (lastIndex image o n) → r.1 < 0) := by
  refine Reads.private_data ?_
  rw [Int.toNat_natCast]
  exact fat16ReadInternalFromStream_spec h hfirst (n + 1) o n hn (by omega) hend hrange

/-- The walk gets to every record when it gets to the first and to the others. -/
theorem recordsFollowed_succ (first size k n : Nat) :
    RecordsFollowed image first size k (k + (n + 1)) ↔
      LinksFollowed image first (lastIndex image (k * size) size) ∧
        RecordsFollowed image first size (k + 1) (k + 1 + n) := by
  constructor
  · intro h
    exact ⟨h k (Nat.le_refl k) (by omega), fun i h1 h2 => h i (by omega) (by omega)⟩
  · rintro ⟨h0, hrest⟩ i h1 h2
    by_cases hik : i = k
    · rw [hik]
      exact h0
    · exact hrest i (by omega) (by omega)

/-- One turn of the loop: the record is stored and the loop goes on behind it, or it ends with the
error. -/
theorem fat16ReadLoop_step (h : Layout image priv) {first size : UInt32} {o : Nat} {out : UInt32}
    {s : Kernel} (hfirst : first.toNat < 2 ^ 23) (hsize : 0 < size.toNat) (hm : Mounted s image priv)
    (hend : o + size.toNat < 2 ^ 31) (hrange : FollowedInRange image first.toNat o size.toNat)
    (hout : out ≠ 0) (remaining : Nat) :
    (LinksFollowed image first.toNat (lastIndex image o size.toNat) →
      ∃ s', Mounted s' image priv ∧
        s'.mem = writeBytes s.mem out (readBytes image first.toNat o size.toNat) ∧
        ∀ Q, Total (fat16ReadLoop first size (remaining + 1) o out) s Q ↔
          Total (fat16ReadLoop first size remaining (o + size.toNat : Nat) (out + size)) s' Q) ∧
    (¬ LinksFollowed image first.toNat (lastIndex image o size.toNat) →
      Total (fat16ReadLoop first size (remaining + 1) o out) s fun r _ => r < 0) := by
  obtain ⟨⟨res, bytes⟩, s1, hread, ⟨hok, herr⟩, hm1, hmem1⟩ :=
    fat16ReadInternal_spec h hfirst hsize hend hrange s hm
  have hwrite := memWrite_spec bytes (Or.inl hout) s1
  have hm2 := hm1.frame (keepsRest_memWrite out bytes _ _ _ hwrite)
  rw [fat16ReadLoop, signed_of_lt (x := first) (by omega), signed_of_lt (x := size) (by omega)]
  simp only [total_bind_of_some hread, total_bind_of_some hwrite]
  constructor
  · intro hlinks
    obtain ⟨rfl, rfl⟩ := Prod.mk.inj (hok hlinks)
    have hnext : wrap ((o : Int) + size.toNat) = (o + size.toNat : Nat) := by
      rw [← Nat.cast_add]
      exact wrap_of_range (by omega) (by omega)
    refine ⟨_, hm2, ?_, fun Q => ?_⟩
    · show writeBytes s1.mem out _ = _
      rw [hmem1]
    · rw [if_neg (by decide), hnext]
  · intro hlinks
    have hneg : res < 0 := herr hlinks
    rw [if_pos hneg]
    exact total_pure.mpr hneg

/-- **The loop of `fat16_read`** over the records from `k` on. -/
theorem fat16ReadLoop_spec (h : Layout image priv) {first size : UInt32}
    (hfirst : first.toNat < 2 ^ 23) (hsize : 0 < size.toNat) :
    ∀ (remaining k : Nat) (out : UInt32) (s : Kernel), Mounted s image priv →
      (k + remaining) * size.toNat < 2 ^ 31 →
      (∀ i, i < k + remaining → FollowedInRange image first.toNat (i * size.toNat) size.toNat) →
      (remaining ≠ 0 → out ≠ 0 ∧ out.toNat + remaining * size.toNat ≤ 2 ^ 32) →
      Total (fat16ReadLoop first size remaining (k * size.toNat : Nat) out) s fun r s' =>
        (RecordsFollowed image first.toNat size.toNat k (k + remaining) → r = 0 ∧
          s'.mem = writeBytes s.mem out (recordBytes image first.toNat size.toNat
            (k * size.toNat) (remaining * size.toNat))) ∧
        (¬ RecordsFollowed image first.toNat size.toNat k (k + remaining) → r < 0) := by
  intro remaining
  induction remaining with
  | zero =>
      intro k out s hm _ _ _
      refine total_pure.mpr ⟨fun _ => ⟨rfl, ?_⟩, fun hno => absurd (fun i h1 h2 => ?_) hno⟩
      · rw [Nat.zero_mul, recordBytes, slice_zero]
        rfl
      · omega
  | succ remaining ih =>
      intro k out s hm hend hrange hout
      obtain ⟨hne, hfit⟩ := hout (Nat.succ_ne_zero remaining)
      rw [Nat.succ_mul] at hfit
      have htotal : (k + (remaining + 1)) * size.toNat
          = k * size.toNat + remaining * size.toNat + size.toNat := by ring
      rw [htotal] at hend
      have hstep := fat16ReadLoop_step (o := k * size.toNat) h hfirst hsize hm (by omega)
        (hrange k (by omega)) hne remaining
      rw [recordsFollowed_succ]
      by_cases hlinks : LinksFollowed image first.toNat
          (lastIndex image (k * size.toNat) size.toNat)
      · -- the record is in the buffer, and the others come behind it
        obtain ⟨s2, hm2, hmem2, hloop⟩ := hstep.1 hlinks
        rw [hloop, ← Nat.succ_mul]
        have hout' : remaining ≠ 0 →
            out + size ≠ 0 ∧ (out + size).toNat + remaining * size.toNat ≤ 2 ^ 32 := by
          intro hrem
          have hpos : 0 < remaining * size.toNat := Nat.mul_pos (Nat.pos_of_ne_zero hrem) hsize
          have hsum : (out + size).toNat = out.toNat + size.toNat := by
            rw [UInt32.toNat_add]
            omega
          refine ⟨fun h0 => ?_, by omega⟩
          rw [h0, UInt32.toNat_zero] at hsum
          omega
        refine (ih (k + 1) (out + size) _ hm2 (by rw [Nat.succ_add, ← Nat.add_succ, htotal]; omega)
          (fun i hi => hrange i (by omega)) hout').mono ?_
        rintro r s' ⟨hrok, hrerr⟩
        refine ⟨fun hall => ⟨(hrok hall.2).1, ?_⟩, fun hno => hrerr fun hall => hno ⟨hlinks, hall⟩⟩
        have hadd : out + size = out + UInt32.ofNat (recordBytes image first.toNat size.toNat
            (k * size.toNat) size.toNat).length := by
          rw [recordBytes_length, UInt32.ofNat_toNat]
        have hlen : (recordBytes image first.toNat size.toNat (k * size.toNat) size.toNat).length +
            (recordBytes image first.toNat size.toNat ((k + 1) * size.toNat)
              (remaining * size.toNat)).length ≤ 2 ^ 32 := by
          rw [recordBytes_length, recordBytes_length]
          omega
        have hcat : recordBytes image first.toNat size.toNat (k * size.toNat) size.toNat ++
            recordBytes image first.toNat size.toNat ((k + 1) * size.toNat)
              (remaining * size.toNat)
            = recordBytes image first.toNat size.toNat (k * size.toNat)
              ((remaining + 1) * size.toNat) := by
          rw [recordBytes, recordBytes, Nat.succ_mul k, slice_append, Nat.succ_mul remaining,
            Nat.add_comm size.toNat, recordBytes]
        rw [(hrok hall.2).2, hmem2, readBytes_record _ _ hsize, hadd, writeBytes_append _ _ hlen, hcat]
      · exact (hstep.2 hlinks).mono fun r _ hneg => ⟨fun hall => absurd hall.1 hlinks, fun _ => hneg⟩

/-! ## The call -/

/-- `fd` stands at the beginning of a file with the directory entry `entry`. -/
def AtStart (s : Kernel) (fd : Int) (entry : List UInt8) : Prop :=
  ∃ slot : Nat, ∃ item, fd = slot + 1 ∧ Fresh s slot item ∧ IsFile s item entry

/-- The first cluster of a file. -/
def firstCluster (entry : List UInt8) : Nat := (fat16GetFirstCluster entry).toNat

/-- The call returns `count`, and `bytes` are in memory from `out` on. -/
def Delivers (call : KernelM Int) (s : Kernel) (out : UInt32) (count : Int) (bytes : List UInt8) :
    Prop :=
  Total call s fun r s' => r = count ∧ bytesAt s'.mem out bytes.length = bytes

/-- `fread` does not know the last descriptor of the table. -/
theorem fread_last {s : Kernel} {out size nmemb : UInt32} {fd : Int} (hfd : 512 ≤ fd) :
    fread out size nmemb fd s = some (- EINVARG, s) := by
  unfold fread
  split
  · rfl
  · have hnone : fileGetDescriptor fd s = some (0, s) := by
      have hbig : fd ≥ (RASOS_MAX_FILEDESCRIPTORS : Nat) := hfd
      rw [fileGetDescriptor, if_pos (Or.inr hbig)]
      rfl
    rw [bind_of_some hnone, if_pos rfl]
    rfl

/-- **`fread` from the beginning of a file.** -/
theorem fread_spec {s : Kernel} {fd : Int} {entry : List UInt8} {out size nmemb : UInt32}
    (h : Layout image priv) (hm : Mounted s image priv) (hfile : AtStart s fd entry)
    (hfd : fd < 512) (hfirst : firstCluster entry < 2 ^ 23) (hsize : 0 < size.toNat)
    (hnmemb : 0 < nmemb.toNat) (hend : nmemb.toNat * size.toNat < 2 ^ 31)
    (hrange : ∀ i, i < nmemb.toNat →
      FollowedInRange image (firstCluster entry) (i * size.toNat) size.toNat)
    (hout : out ≠ 0) (hfit : out.toNat + nmemb.toNat * size.toNat ≤ 2 ^ 32) :
    Total (fread out size nmemb fd) s fun r s' =>
      (RecordsFollowed image (firstCluster entry) size.toNat 0 nmemb.toNat →
        r = nmemb.toNat ∧ s'.mem = writeBytes s.mem out
          (recordBytes image (firstCluster entry) size.toNat 0 (nmemb.toNat * size.toNat))) ∧
      (¬ RecordsFollowed image (firstCluster entry) size.toNat 0 nmemb.toNat → r < 0) := by
  obtain ⟨slot, item, rfl, ⟨desc, priv', index, hslot, hdesc, hlive, hpriv⟩, ptr, hitem, hentry⟩ :=
    hfile
  have hargs : ¬ (size = 0 ∨ nmemb = 0 ∨ (slot : Int) + 1 < 1) := by
    rintro (h0 | h0 | h0)
    · rw [h0, UInt32.toNat_zero] at hsize
      omega
    · rw [h0, UInt32.toNat_zero] at hnmemb
      omega
    · omega
  have hget : fileGetDescriptor ((slot : Int) + 1) s = some (desc, s) := by
    have hidx : ((slot : Int) + 1 - 1).toNat = slot := by omega
    have hsmall : ¬ (slot : Int) + 1 ≥ (RASOS_MAX_FILEDESCRIPTORS : Nat) := not_le.mpr hfd
    rw [fileGetDescriptor, if_neg (not_or.mpr ⟨by omega, hsmall⟩), hidx, fetch_apply, hslot]
  unfold fread
  rw [if_neg hargs, total_bind_of_some hget, if_neg hdesc, total_load hlive]
  unfold withFilesystem fat16Read
  dsimp only
  rw [total_load hpriv, total_load hitem, total_load hentry]
  have hloop := fat16ReadLoop_spec h hfirst hsize nmemb.toNat 0 out s hm
    (by rw [Nat.zero_add]; exact hend) (fun i hi => hrange i (by omega)) (fun _ => ⟨hout, hfit⟩)
  rw [Nat.zero_mul, Nat.zero_add] at hloop
  refine hloop.bind ?_
  rintro r s' ⟨hok, herr⟩
  by_cases hall : RecordsFollowed image (firstCluster entry) size.toNat 0 nmemb.toNat
  · obtain ⟨rfl, hmem⟩ := hok hall
    have hle : nmemb.toNat ≤ nmemb.toNat * size.toNat := Nat.le_mul_of_pos_right _ hsize
    rw [if_neg (by decide), signed_of_lt (by omega)]
    exact total_pure.mpr ⟨fun _ => ⟨rfl, hmem⟩, fun hno => absurd hall hno⟩
  · have hneg := herr hall
    rw [if_pos hneg]
    exact total_pure.mpr ⟨fun hall' => absurd hall' hall, fun _ => hneg⟩

/-- What a read delivers, and when. -/
theorem fread_delivers_iff {s : Kernel} {fd : Int} {entry : List UInt8} {out size nmemb : UInt32}
    (h : Layout image priv) (hm : Mounted s image priv) (hfile : AtStart s fd entry)
    (hfd : fd < 512) (hfirst : firstCluster entry < 2 ^ 23) (hsize : 0 < size.toNat)
    (hnmemb : 0 < nmemb.toNat) (hend : nmemb.toNat * size.toNat < 2 ^ 31)
    (hrange : ∀ i, i < nmemb.toNat →
      ReadInRange image (firstCluster entry) (i * size.toNat) size.toNat)
    (hout : out ≠ 0) (hfit : out.toNat + nmemb.toNat * size.toNat ≤ 2 ^ 32) (bytes : List UInt8)
    (hlen : bytes.length = nmemb.toNat * size.toNat) :
    Delivers (fread out size nmemb fd) s out nmemb.toNat bytes ↔
      RecordsFollowed image (firstCluster entry) size.toNat 0 nmemb.toNat ∧
        bytes = recordBytes image (firstCluster entry) size.toNat 0
          (nmemb.toNat * size.toNat) := by
  obtain ⟨r, s', hr, hok, herr⟩ :=
    fread_spec h hm hfile hfd hfirst hsize hnmemb hend (fun i hi => (hrange i hi).followed) hout hfit
  have hback := bytesAt_writeBytes s.mem out (recordBytes image (firstCluster entry)
    size.toNat 0 (nmemb.toNat * size.toNat)) (by rw [recordBytes_length]; omega)
  rw [recordBytes_length] at hback
  rw [Delivers, total_of_some hr, hlen]
  by_cases hall : RecordsFollowed image (firstCluster entry) size.toNat 0 nmemb.toNat
  · obtain ⟨hrn, hmem⟩ := hok hall
    rw [hmem, hback]
    exact ⟨fun hb => ⟨hall, hb.2.symm⟩, fun hb => ⟨hrn, hb.2.symm⟩⟩
  · have hneg := herr hall
    exact ⟨fun hb => absurd hb.1 (by omega), fun hb => absurd hb.1 hall⟩

end RasOS
