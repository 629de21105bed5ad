import RasOS.Fs.Cursor

set_option autoImplicit false

/-! # Positions behind the end of a file

`fseek` compares its offset with the size of the file, whatever the offset is counted from, and
`fread` compares nothing. -/

namespace RasOS

open Machine

/-! ## Positioning -/

/-- What `fseek` returns, and the position it leaves. -/
def seekOutcome (filesize pos : UInt32) (offset : Int) (whence : Nat) : Int × UInt32 :=
  if UInt32.ofInt offset ≥ filesize then (- EIO, pos)
  else if whence = SEEK_SET then (OK, UInt32.ofInt offset)
  else if whence = SEEK_END then (- EUNIMP, pos)
  else if whence = SEEK_CUR then (OK, pos + UInt32.ofInt offset)
  else (- EINVARG, pos)

theorem fileGetDescriptor_of_range {fd : Int} (h1 : 1 ≤ fd) (h2 : fd < 512) (s : Kernel) :
    fileGetDescriptor fd s = some (s.file_descriptors (fd - 1).toNat, s) := by
  have hmax : (RASOS_MAX_FILEDESCRIPTORS : Int) = 512 := rfl
  rw [fileGetDescriptor, if_neg (by omega)]
  rfl

theorem fileGetDescriptor_of_not {fd : Int} (h : fd < 1 ∨ 512 ≤ fd) (s : Kernel) :
    fileGetDescriptor fd s = some (0, s) := by
  have hmax : (RASOS_MAX_FILEDESCRIPTORS : Int) = 512 := rfl
  rw [fileGetDescriptor, if_pos (by omega)]
  rfl

/-- **`fseek` on an open file.** -/
theorem fseek_spec {s : Kernel} {fd : Int} {entry : List UInt8} {pos : UInt32} (hwf : s.WF)
    (h : StandsAt s fd entry pos) (h1 : 1 ≤ fd) (h2 : fd < 512) (offset : Int) (whence : Nat) :
    Total (fseek fd offset whence) s fun r s' => s'.WF ∧
      r = (seekOutcome (itemFilesize entry) pos offset whence).1 ∧
      StandsAt s' fd entry (seekOutcome (itemFilesize entry) pos offset whence).2 := by
  obtain ⟨index, priv, item, ptr, hdesc, hpriv, hitem, hentry⟩ := id h
  have hstays : ∀ pos', Kernel.WF { s with live := fatFileDescriptorK.write s.live priv ⟨item, pos'⟩ } ∧
      StandsAt { s with live := fatFileDescriptorK.write s.live priv ⟨item, pos'⟩ } fd entry pos' :=
    fun pos' => ⟨hwf.write hpriv _, standsAt_store pos' hdesc hpriv hitem hentry⟩
  unfold fseek withFilesystem fat16Seek seekOutcome
  rw [total_bind_of_some (fileGetDescriptor_of_range h1 h2 s), if_neg (by omega), total_load hdesc]
  dsimp only
  rw [total_load hpriv, total_load hitem, if_neg (not_not.mpr rfl), total_load hentry]
  split
  · exact total_pure.mpr ⟨hwf, rfl, h⟩
  split
  · exact (total_store hpriv).mpr (total_pure.mpr ⟨(hstays _).1, rfl, (hstays _).2⟩)
  split
  · exact total_pure.mpr ⟨hwf, rfl, h⟩
  split
  · exact (total_store hpriv).mpr (total_pure.mpr ⟨(hstays _).1, rfl, (hstays _).2⟩)
  · exact total_pure.mpr ⟨hwf, rfl, h⟩

/-- It does not know the last descriptor of the table, and goes through a null pointer. -/
theorem fseek_last {s : Kernel} (hwf : s.WF) {fd : Int} (hfd : 512 ≤ fd) (offset : Int) (whence : Nat) :
    fseek fd offset whence s = none := by
  unfold fseek
  rw [bind_of_some (fileGetDescriptor_of_not (Or.inr hfd) s), if_neg (by omega)]
  refine bind_of_none ?_
  rw [load, Kind.read, hwf.live_zero]
  rfl

/-- The position a call asks for. -/
def FileCall.target (filesize pos : Nat) : FileCall → Option Int
  | .fseek offset whence =>
      if whence = SEEK_SET then some offset
      else if whence = SEEK_CUR then some (pos + offset)
      else if whence = SEEK_END then some (filesize + offset)
      else none
  | _ => none

/-- The call would leave the file. -/
def FileCall.Leaves (filesize pos : UInt32) (call : FileCall) : Prop :=
  ∃ target, call.target filesize.toNat pos.toNat = some target ∧ ¬ (0 ≤ target ∧ target < filesize.toNat)

/-- A call on `fd` from `s`. -/
def callStep (fd : Int) (s : Kernel) (call : FileCall) : Option Kernel := (call.run fd s).map Prod.snd

/-- When the call returns the position is in the file; when it would leave the file it does return,
with a negative error, and the position is as before. -/
def StaysInside (fd : Int) (entry : List UInt8) (s : Kernel) (call : FileCall) : Prop :=
  ∀ pos, StandsAt s fd entry pos →
    (Ensures (call.run fd) s fun _ s' => ∃ pos', StandsAt s' fd entry pos' ∧ pos' < itemFilesize entry) ∧
    (call.Leaves (itemFilesize entry) pos →
      Total (call.run fd) s fun r s' => r < 0 ∧ StandsAt s' fd entry pos)

/-- The offset alone is behind the end of the file, or it is counted from somewhere the function does
not support. -/
def FileCall.Refused (filesize : UInt32) : FileCall → Prop
  | .fseek offset whence => UInt32.ofInt offset ≥ filesize ∨ whence ≠ SEEK_SET ∧ whence ≠ SEEK_CUR
  | _ => False

/-- A call that would leave the file is one whose offset alone is too large, and is not made on the last
descriptor of the table. -/
def RefusedIfLeaving (fd : Int) (entry : List UInt8) (s : Kernel) (call : FileCall) : Prop :=
  ∀ pos, StandsAt s fd entry pos → call.Leaves (itemFilesize entry) pos →
    fd < 512 ∧ call.Refused (itemFilesize entry)

/-- The outcome of `fseek` is right exactly when a target outside the file is refused. -/
theorem seekOutcome_inside_iff {filesize pos : UInt32} (hpos : pos < filesize) (offset : Int) (whence : Nat) :
    ((seekOutcome filesize pos offset whence).2 < filesize ∧
      ((FileCall.fseek offset whence).Leaves filesize pos →
        (seekOutcome filesize pos offset whence).1 < 0 ∧ (seekOutcome filesize pos offset whence).2 = pos)) ↔
      ((FileCall.fseek offset whence).Leaves filesize pos → (FileCall.fseek offset whence).Refused filesize) := by
  have hlow := UInt32.lt_iff_toNat_lt.mp hpos
  -- a success is right exactly when the call stays in the file
  have hsuccess : ∀ pos' : UInt32, ¬ (FileCall.fseek offset whence).Refused filesize →
      (¬ (FileCall.fseek offset whence).Leaves filesize pos → pos' < filesize) →
      (((OK, pos').2 < filesize ∧ ((FileCall.fseek offset whence).Leaves filesize pos →
        (OK, pos').1 < 0 ∧ (OK, pos').2 = pos)) ↔
      ((FileCall.fseek offset whence).Leaves filesize pos →
        (FileCall.fseek offset whence).Refused filesize)) := by
    intro pos' hrefused hstays
    by_cases hleaves : (FileCall.fseek offset whence).Leaves filesize pos
    · exact iff_of_false (fun h => absurd (h.2 hleaves).1 (lt_irrefl OK)) fun h => hrefused (h hleaves)
    · exact iff_of_true ⟨hstays hleaves, fun h => absurd h hleaves⟩ fun h => absurd h hleaves
  unfold seekOutcome
  split
  · rename_i hbig
    exact iff_of_true ⟨hpos, fun _ => ⟨(by decide : (- EIO) < 0), rfl⟩⟩ fun _ => Or.inl hbig
  rename_i hsmall
  have hsmall := UInt32.lt_iff_toNat_lt.mp (UInt32.not_le.mp hsmall)
  have hoffset := toNat_ofInt offset
  split
  · rename_i hset
    refine hsuccess _ (fun h => ?_) fun _ => UInt32.lt_iff_toNat_lt.mpr hsmall
    rcases h with h | h
    · exact absurd (UInt32.le_iff_toNat_le.mp h) (Nat.not_le.mpr hsmall)
    · exact h.1 hset
  rename_i hset
  split
  · rename_i hend
    refine iff_of_true ⟨hpos, fun _ => ⟨(by decide : (- EUNIMP) < 0), rfl⟩⟩ fun _ => Or.inr ⟨hset, ?_⟩
    rw [hend]
    decide
  rename_i hend
  split
  · rename_i hcur
    refine hsuccess _ (fun h => ?_) fun hleaves => ?_
    · rcases h with h | h
      · exact absurd (UInt32.le_iff_toNat_le.mp h) (Nat.not_le.mpr hsmall)
      · exact h.2 hcur
    · -- what is not behind the end of the file is counted without wrapping
      have htarget : 0 ≤ (pos.toNat : Int) + offset ∧ (pos.toNat : Int) + offset < filesize.toNat := by
        by_contra hout
        refine hleaves ⟨_, ?_, hout⟩
        rw [FileCall.target, if_neg hset, if_pos hcur]
      rw [UInt32.lt_iff_toNat_lt, UInt32.toNat_add]
      have hsize := filesize.toNat_lt
      omega
  · rename_i hcur
    exact iff_of_true ⟨hpos, fun _ => ⟨(by decide : (- EINVARG) < 0), rfl⟩⟩ fun _ => Or.inr ⟨hset, hcur⟩

/-- A call that is no `fseek` asks for no position. -/
theorem FileCall.not_leaves {filesize pos : UInt32} {call : FileCall}
    (h : ∀ offset whence, call ≠ .fseek offset whence) : ¬ call.Leaves filesize pos := by
  rintro ⟨target, htarget, -⟩
  cases call with
  | fseek offset whence => exact h offset whence rfl
  | fread out size nmemb => cases htarget
  | fstat => cases htarget

/-- Reading and asking for the size keep the position. -/
theorem FileCall.keeps_position {s s' : Kernel} {fd r : Int} {entry : List UInt8} {pos : UInt32}
    {call : FileCall} (h : ∀ offset whence, call ≠ .fseek offset whence) (hwf : s.WF)
    (hfile : StandsAt s fd entry pos) (hrun : call.run fd s = some (r, s')) :
    s'.WF ∧ StandsAt s' fd entry pos := by
  cases call with
  | fseek offset whence => exact absurd rfl (h offset whence)
  | fread out size nmemb =>
      have hmoved := moved_rules.fread moved_memWrite out size nmemb fd _ _ _ hrun
      exact ⟨hmoved.wf hwf, hmoved.standsAt hfile⟩
  | fstat =>
      have hrules := moved_rules
      have hmoved := hrules.bind (hrules.fstat fd) (fun _ => hrules.pure _) _ _ _ hrun
      exact ⟨hmoved.wf hwf, hmoved.standsAt hfile⟩

/-- The descriptor is open on the file, at a position in it. -/
def InsideFile (fd : Int) (entry : List UInt8) (s : Kernel) : Prop :=
  s.WF ∧ ∃ pos, StandsAt s fd entry pos ∧ pos < itemFilesize entry

theorem InsideFile.step {s s' : Kernel} {fd : Int} {entry : List UInt8} {call : FileCall}
    (h : InsideFile fd entry s) (hcall : StaysInside fd entry s call)
    (hstep : callStep fd s call = some s') : InsideFile fd entry s' := by
  obtain ⟨hwf, pos, hfile, hpos⟩ := h
  rw [callStep, Option.map_eq_some_iff] at hstep
  obtain ⟨⟨r, s''⟩, hrun, rfl⟩ := hstep
  refine ⟨?_, (hcall pos hfile).1 _ _ hrun⟩
  cases call with
  | fseek offset whence => exact (keepsRest_rules.fseek fd offset whence _ _ _ hrun hwf).wf
  | fread out size nmemb =>
      exact (FileCall.keeps_position (fun _ _ => FileCall.noConfusion) hwf hfile hrun).1
  | fstat => exact (FileCall.keeps_position (fun _ _ => FileCall.noConfusion) hwf hfile hrun).1

/-- One call stays in the file exactly when one that would leave it is refused. -/
theorem staysInside_iff {s : Kernel} {fd : Int} {entry : List UInt8} (hfd : 1 ≤ fd)
    (h : InsideFile fd entry s) (call : FileCall) :
    StaysInside fd entry s call ↔ RefusedIfLeaving fd entry s call := by
  obtain ⟨hwf, pos, hfile, hpos⟩ := h
  -- there is one position to speak about
  have hstays : StaysInside fd entry s call ↔
      (Ensures (call.run fd) s fun _ s' => ∃ pos', StandsAt s' fd entry pos' ∧ pos' < itemFilesize entry) ∧
      (call.Leaves (itemFilesize entry) pos →
        Total (call.run fd) s fun r s' => r < 0 ∧ StandsAt s' fd entry pos) := by
    refine ⟨fun h => h pos hfile, fun h pos' hfile' => ?_⟩
    obtain rfl := hfile.unique hfile'
    exact h
  have hrefused : RefusedIfLeaving fd entry s call ↔
      (call.Leaves (itemFilesize entry) pos → fd < 512 ∧ call.Refused (itemFilesize entry)) := by
    refine ⟨fun h => h pos hfile, fun h pos' hfile' => ?_⟩
    obtain rfl := hfile.unique hfile'
    exact h
  rw [hstays, hrefused]
  by_cases hseek : ∀ offset whence, call ≠ .fseek offset whence
  · have hleaves : ¬ call.Leaves (itemFilesize entry) pos := FileCall.not_leaves hseek
    refine iff_of_true ⟨fun r s' hrun => ?_, fun h => absurd h hleaves⟩ fun h => absurd h hleaves
    exact ⟨pos, (FileCall.keeps_position hseek hwf hfile hrun).2, hpos⟩
  push Not at hseek
  obtain ⟨offset, whence, rfl⟩ := hseek
  by_cases hlast : 512 ≤ fd
  · -- the last descriptor of the table: `fseek` does not return
    have hnone := fseek_last hwf hlast offset whence
    by_cases hleaves : (FileCall.fseek offset whence).Leaves (itemFilesize entry) pos
    · refine iff_of_false (fun h => ?_) fun h => by have := (h hleaves).1; omega
      obtain ⟨r, s', hrun, -⟩ := h.2 hleaves
      rw [FileCall.run, hnone] at hrun
      cases hrun
    · refine iff_of_true ⟨fun r s' hrun => ?_, fun h => absurd h hleaves⟩ fun h => absurd h hleaves
      rw [FileCall.run, hnone] at hrun
      cases hrun
  · have hseek := fseek_spec hwf hfile hfd (not_le.mp hlast) offset whence
    obtain ⟨r, s', hrun, -, hr, hfile'⟩ := hseek
    have houtcome := seekOutcome_inside_iff hpos offset whence
    rw [← hr] at houtcome
    simp only [not_le.mp hlast, true_and]
    rw [← houtcome, FileCall.run, ensures_of_some hrun, total_of_some hrun]
    refine and_congr ⟨fun h => ?_, fun h => ⟨_, hfile', h⟩⟩ (imp_congr_right fun _ => and_congr_right
      fun _ => ⟨fun h => hfile'.unique h, fun h => h ▸ hfile'⟩)
    obtain ⟨pos', h', hlt⟩ := h
    rwa [hfile'.unique h']

/-- **A run stays in the file exactly when the calls that would leave it are refused.** For every run of
calls on a descriptor freshly opened on a file that is not empty: the position is in the file
after every call, and every call that would leave the file returns a negative error and keeps the
position, if and only if every such call is made on a descriptor below 512 with an offset that alone
is behind the end of the file, or with a `whence` that is not supported. -/
theorem fseek_inside_iff {s : Kernel} {fd : Int} {entry : List UInt8} (hwf : s.WF)
    (hopen : AtStart s fd entry) (hsize : 0 < itemFilesize entry) (calls : List FileCall) :
    AllCalls (callStep fd) (StaysInside fd entry) s calls ↔
      AllCalls (callStep fd) (RefusedIfLeaving fd entry) s calls := by
  have hfd : 1 ≤ fd := by
    obtain ⟨slot, item, rfl, -⟩ := hopen
    omega
  exact allCalls_iff (fun s call hI => staysInside_iff hfd hI call)
    (fun s call s' hI hcall hstep => hI.step hcall hstep) calls s ⟨hwf, 0, hopen.standsAt, hsize⟩

/-- A position in the file, the size, and one position further behind the last byte. -/
theorem fseek_inside_run :
    ∃ s, fopen pathA [0x72] countingFile = some (1, s) ∧
      (AllCalls (callStep 1) (StaysInside 1 (oneFileEntry 600)) s
          [.fseek 300 SEEK_SET, .fread 0x700000 10 2, .fseek 600 SEEK_CUR] ↔
        AllCalls (callStep 1) (RefusedIfLeaving 1 (oneFileEntry 600)) s
          [.fseek 300 SEEK_SET, .fread 0x700000 10 2, .fseek 600 SEEK_CUR]) := by
  obtain ⟨fd, s, hopen, rfl, hentry⟩ : Total (fopen pathA [0x72]) countingFile
      fun fd s => fd = 1 ∧ entryOf s fd = some (oneFileEntry 600) := by decide +kernel
  have hwf := (keepsRest_rules.fopen _ _ _ _ _ hopen countingFile_mounted.wf).wf
  obtain ⟨item, hopened⟩ := fopen_spec _ _ _ countingFile_mounted.wf _ _ hopen (by decide)
  exact ⟨s, hopen, fseek_inside_iff hwf ((Since.refl hwf).atStart hopened hentry) (by decide) _⟩

/-- The position of the descriptor `fd`. -/
def positionOf (s : Kernel) (fd : Int) : Option UInt32 := do
  let desc ← fileDescriptorK.read s.live (s.file_descriptors (fd - 1).toNat)
  let fat_desc ← fatFileDescriptorK.read s.live desc.private_data
  return fat_desc.pos

/-- Two steps of 500 bytes through a file of 600 bytes both succeed. -/
theorem fseek_leaves_file :
    itemFilesize (oneFileEntry 600) = 600 ∧
    Total (fopen pathA [0x72]) countingFile fun fd s =>
      fd = 1 ∧ entryOf s 1 = some (oneFileEntry 600) ∧ positionOf s 1 = some 0 ∧
      Total (fseek 1 500 SEEK_CUR >>= fun _ => fseek 1 500 SEEK_CUR) s fun r s' =>
        r = OK ∧ entryOf s' 1 = some (oneFileEntry 600) ∧ positionOf s' 1 = some 1000 := by
  decide +kernel

/-! ## Reading -/

section Reading

variable {image : Nat → Sector} {priv : FatPrivate}

/-- The descriptor `fd` is open on a directory. -/
def OnDirectory (s : Kernel) (fd : Int) : Prop :=
  ∃ index priv item pos ptr directory,
    s.live (s.file_descriptors (fd - 1).toNat) = some (fileDescriptorK.inj
      { index := index, filesystem := some .fat16, private_data := priv }) ∧
    s.live priv = some (fatFileDescriptorK.inj { item := item, pos := pos }) ∧
    s.live item = some (fatItemK.inj { item := ptr, type := FAT_ITEM_TYPE_DIRECTORY }) ∧
    s.live ptr = some (fatDirectoryK.inj directory)

theorem OnDirectory.not_standsAt {s : Kernel} {fd : Int} (h : OnDirectory s fd) {entry : List UInt8} {pos : UInt32} :
    ¬ StandsAt s fd entry pos := by
  rintro ⟨index', priv', item', ptr', hdesc', hpriv', hitem', -⟩
  obtain ⟨index, priv, item, pos', ptr, directory, hdesc, hpriv, hitem, -⟩ := h
  obtain rfl : priv = priv' := congrArg FileDescriptor.private_data
    (fileDescriptorK.inj_injective (Option.some.inj (hdesc.symm.trans hdesc')))
  obtain rfl : item = item' := congrArg FatFileDescriptor.item
    (fatFileDescriptorK.inj_injective (Option.some.inj (hpriv.symm.trans hpriv')))
  have htype := congrArg FatItem.type (fatItemK.inj_injective (Option.some.inj (hitem.symm.trans hitem')))
  cases htype

/-- The descriptor is open on a regular file, and the next `n` bytes are bytes of the file. -/
def ReadsInside (s : Kernel) (fd : Int) (n : Nat) : Prop :=
  ∃ entry pos, StandsAt s fd entry pos ∧ pos.toNat + n ≤ (itemFilesize entry).toNat

/-- The `n` bytes from `out` on are those that follow the position of `fd` in its file. -/
def FileDelivered (image : Nat → Sector) (s s' : Kernel) (fd : Int) (out : UInt32) (n : Nat) : Prop :=
  ∃ entry pos, StandsAt s fd entry pos ∧ pos.toNat + n ≤ (itemFilesize entry).toNat ∧
    bytesAt s'.mem out n =
      ((fileContents image (firstCluster entry) (itemFilesize entry).toNat).drop pos.toNat).take n

/-- A read that succeeds delivers the bytes of a regular file that follow its position; one that is not inside of
such a file returns a negative error. -/
def BoundedRead (image : Nat → Sector) (s : Kernel) (out size nmemb : UInt32) (fd : Int) : Prop :=
  (Ensures (fread out size nmemb fd) s fun r s' =>
    0 ≤ r → FileDelivered image s s' fd out (size.toNat * nmemb.toNat)) ∧
  (¬ ReadsInside s fd (size.toNat * nmemb.toNat) →
    Total (fread out size nmemb fd) s fun r _ => r < 0)

/-- Where byte `j` of a read at `pos` in records of `size` bytes is taken from. -/
def takenAddr (image : Nat → Sector) (first pos size j : Nat) : Nat :=
  readAddr image first (pos + j / size * size) (j % size)

/-- The bytes of `n` records from `pos` on. -/
def takenBytes (image : Nat → Sector) (first pos size n : Nat) : List UInt8 :=
  slice (fun j => diskByte image (takenAddr image first pos size j)) 0 (n * size)

/-- Where the bytes are taken from the disk holds those of the file: a piece that begins inside a cluster and runs over
its end goes on with the next cluster of the disk, which holds the bytes of the next one of the chain. -/
def TakesFile (image : Nat → Sector) (first pos size n : Nat) : Prop :=
  ∀ j < n * size, diskByte image (takenAddr image first pos size j) = fileByte image first (pos + j)

/-- Without such pieces, and with a root directory that fills its sectors, all bytes are the right ones. -/
theorem takesFile_of_inside (hcs : 0 < clusterSize (bootHeader image))
    (hroot : (bootHeader image).root_dir_entries.toNat % 16 = 0) {first pos size n : Nat}
    (h : ∀ j < n * size, (pos + j / size * size) % clusterSize (bootHeader image) +
      j % size % clusterSize (bootHeader image) < clusterSize (bootHeader image)) :
    TakesFile image first pos size n := by
  intro j hj
  have hinside := h j hj
  have hj' : pos + j = pos + j / size * size + j % size := by
    rw [Nat.add_assoc, Nat.div_add_mod']
  rw [fileByte_eq hroot, readAddr_zero, takenAddr, hj', Nat.add_div hcs, if_neg (by omega), Nat.add_zero,
    Nat.add_mod_of_add_mod_lt hinside]
  simp only [readAddr]
  rw [← Nat.add_assoc]

/-- `n` records of `size` bytes from `pos` on are in the data area, at positions an `int` can hold, and
fit behind `out`. -/
structure RecordsInRange (image : Nat → Sector) (first pos size n : Nat) (out : UInt32) : Prop where
  spc : 0 < (bootHeader image).sectors_per_cluster.toNat
  first_cluster : first < 2 ^ 23
  offset : pos + n * size < 2 ^ 31
  data : ∀ i, i < n → ReadInRange image first (pos + i * size) size
  buffer : 0 < n → out ≠ 0 ∧ out.toNat + n * size ≤ 2 ^ 32

/-- The walk does not get to one of the `nmemb` records from `pos` on. -/
def RecordMissing (image : Nat → Sector) (first pos size nmemb : Nat) (out : UInt32) : Prop :=
  ∃ k, k < nmemb ∧ RecordsInRange image first pos size (k + 1) out ∧
    ¬ LinksFollowed image first (lastIndex image (pos + k * size) size)

/-- The arguments of the call are rejected. -/
def ArgsRejected (size nmemb : UInt32) (fd : Int) : Prop := size = 0 ∨ nmemb = 0 ∨ fd < 1 ∨ 512 ≤ fd

theorem RecordsInRange.next {first pos n : Nat} {size out : UInt32} (hsize : 0 < size.toNat)
    (h : RecordsInRange image first pos size.toNat (n + 1) out) :
    RecordsInRange image first (pos + size.toNat) size.toNat n (out + size) := by
  have hoffset := h.offset
  have hdata := h.data
  obtain ⟨-, hfit⟩ := h.buffer (Nat.succ_pos n)
  rw [Nat.succ_mul] at hoffset hfit
  refine ⟨h.spc, h.first_cluster, by omega, fun i hi => ?_, fun hn => ?_⟩
  · have hi' := hdata (i + 1) (Nat.succ_lt_succ hi)
    rw [Nat.succ_mul, Nat.add_comm (i * _), ← Nat.add_assoc] at hi'
    exact hi'
  · have hpos : 0 < n * size.toNat := Nat.mul_pos hn hsize
    have hsum : (out + size).toNat = out.toNat + size.toNat := by
      rw [UInt32.toNat_add]
      omega
    refine ⟨fun h0 => ?_, by omega⟩
    rw [h0, UInt32.toNat_zero] at hsum
    omega

theorem RecordsInRange.mono {first pos size n k : Nat} {out : UInt32}
    (h : RecordsInRange image first pos size n out) (hk : k ≤ n) :
    RecordsInRange image first pos size k out := by
  have hle : k * size ≤ n * size := Nat.mul_le_mul_right size hk
  have hoffset := h.offset
  refine ⟨h.spc, h.first_cluster, by omega, fun i hi => h.data i (by omega), fun hpos => ?_⟩
  obtain ⟨hne, hfit⟩ := h.buffer (by omega)
  exact ⟨hne, by omega⟩

/-- One turn of the loop. -/
theorem RecordsInRange.step {first size out : UInt32} {pos n : Nat} {s : Kernel}
    (h : RecordsInRange image first.toNat pos size.toNat (n + 1) out) (hsize : 0 < size.toNat)
    (hm : Mounted s image priv) (remaining : Nat) :
    (LinksFollowed image first.toNat (lastIndex image pos size.toNat) →
      ∃ s', Mounted s' image priv ∧
        s'.mem = writeBytes s.mem out (readBytes image first.toNat pos size.toNat) ∧
        ∀ Q, Total (fat16ReadLoop first size (remaining + 1) pos out) s Q ↔
          Total (fat16ReadLoop first size remaining (pos + size.toNat : Nat) (out + size)) s' Q) ∧
    (¬ LinksFollowed image first.toNat (lastIndex image pos size.toNat) →
      Total (fat16ReadLoop first size (remaining + 1) pos out) s fun r _ => r < 0) := by
  have hoffset := h.offset
  rw [Nat.succ_mul] at hoffset
  have hdata := h.data 0 (Nat.succ_pos n)
  rw [Nat.zero_mul, Nat.add_zero] at hdata
  exact fat16ReadLoop_step (hm.layout h.spc) h.first_cluster hsize hm (by omega) hdata.followed
    (h.buffer (Nat.succ_pos n)).1 remaining

/-- A missing record ends the loop with an error. By induction on the records before it. -/
theorem fat16ReadLoop_missing {first size : UInt32} (hsize : 0 < size.toNat) (k : Nat) :
    ∀ {pos remaining : Nat} {out : UInt32} {s : Kernel}, Mounted s image priv → k < remaining →
      RecordsInRange image first.toNat pos size.toNat (k + 1) out →
      ¬ LinksFollowed image first.toNat (lastIndex image (pos + k * size.toNat) size.toNat) →
      Total (fat16ReadLoop first size remaining pos out) s fun r _ => r < 0 := by
  induction k with
  | zero =>
      intro pos remaining out s hm hlt hrange hno
      obtain ⟨m, rfl⟩ := Nat.exists_eq_succ_of_ne_zero (Nat.ne_of_gt hlt)
      rw [Nat.zero_mul, Nat.add_zero] at hno
      exact (hrange.step hsize hm m).2 hno
  | succ k ih =>
      intro pos remaining out s hm hlt hrange hno
      obtain ⟨m, rfl⟩ := Nat.exists_eq_succ_of_ne_zero (Nat.ne_zero_of_lt hlt)
      have hstep := hrange.step hsize hm m
      by_cases hlinks : LinksFollowed image first.toNat (lastIndex image pos size.toNat)
      · obtain ⟨s', hm', -, hloop⟩ := hstep.1 hlinks
        rw [Nat.succ_mul, Nat.add_comm (k * _), ← Nat.add_assoc] at hno
        exact (hloop _).mpr (ih hm' (Nat.lt_of_succ_lt_succ hlt) (hrange.next hsize) hno)
      · exact hstep.2 hlinks

/-- The first record, and the others. -/
theorem takenBytes_succ {first pos size : Nat} (hsize : 0 < size) (n : Nat) :
    takenBytes image first pos size (n + 1) =
      readBytes image first pos size ++ takenBytes image first (pos + size) size n := by
  have hhead : readBytes image first pos size =
      slice (fun j => diskByte image (takenAddr image first pos size j)) 0 size := by
    apply slice_congr
    intro i hi
    simp only [takenAddr, Nat.zero_add]
    rw [Nat.div_eq_of_lt hi, Nat.mod_eq_of_lt hi, Nat.zero_mul, Nat.add_zero]
  have htail : takenBytes image first (pos + size) size n =
      slice (fun j => diskByte image (takenAddr image first pos size j)) (0 + size) (n * size) := by
    apply slice_congr
    intro i _
    have hdiv : (size + i) / size = i / size + 1 := Nat.add_div_left i hsize
    simp only [takenAddr, Nat.zero_add]
    rw [hdiv, Nat.add_mod_left, Nat.succ_mul, Nat.add_assoc pos, Nat.add_comm size]
  rw [hhead, htail, slice_append, takenBytes, Nat.succ_mul, Nat.add_comm size]

@[simp] theorem takenBytes_length (first pos size n : Nat) :
    (takenBytes image first pos size n).length = n * size := slice_length ..

/-- With no record missing the loop ends well, and the records lie one behind the other. -/
theorem fat16ReadLoop_found {first size : UInt32} (hsize : 0 < size.toNat) (n : Nat) :
    ∀ {pos : Nat} {out : UInt32} {s : Kernel}, Mounted s image priv →
      RecordsInRange image first.toNat pos size.toNat n out →
      (∀ k, k < n → LinksFollowed image first.toNat (lastIndex image (pos + k * size.toNat) size.toNat)) →
      Total (fat16ReadLoop first size n pos out) s fun r s' =>
        r = 0 ∧ s'.mem = writeBytes s.mem out (takenBytes image first.toNat pos size.toNat n) := by
  induction n with
  | zero =>
      intro pos out s _ _ _
      refine total_pure.mpr ⟨rfl, ?_⟩
      rw [takenBytes, Nat.zero_mul, slice_zero]
      rfl
  | succ n ih =>
      intro pos out s hm hrange hall
      have hfirst := hall 0 (Nat.succ_pos n)
      rw [Nat.zero_mul, Nat.add_zero] at hfirst
      obtain ⟨s', hm', hmem, hloop⟩ := (hrange.step hsize hm n).1 hfirst
      have hrest := ih hm' (hrange.next hsize) fun k hk => by
        have hk' := hall (k + 1) (Nat.succ_lt_succ hk)
        rw [Nat.succ_mul, Nat.add_comm (k * _), ← Nat.add_assoc] at hk'
        exact hk'
      refine (hloop _).mpr (hrest.mono fun r s2 ⟨hr, hmem2⟩ => ⟨hr, ?_⟩)
      have hlen : (readBytes image first.toNat pos size.toNat).length +
          (takenBytes image first.toNat (pos + size.toNat) size.toNat n).length ≤ 2 ^ 32 := by
        have hfit := (hrange.buffer (Nat.succ_pos n)).2
        rw [Nat.succ_mul] at hfit
        rw [readBytes_length, takenBytes_length]
        omega
      have hout : out + size = out + UInt32.ofNat (readBytes image first.toNat pos size.toNat).length := by
        rw [readBytes_length, UInt32.ofNat_toNat]
      rw [hmem2, hmem, hout, writeBytes_append _ _ hlen, takenBytes_succ hsize]

/-- Rejected arguments. -/
theorem fread_rejected {s : Kernel} {size nmemb : UInt32} {fd : Int} (h : ArgsRejected size nmemb fd)
    (out : UInt32) : fread out size nmemb fd s = some (- EINVARG, s) := by
  by_cases hlast : 512 ≤ fd
  · exact fread_last hlast
  · have hargs : size = 0 ∨ nmemb = 0 ∨ fd < 1 := by
      rcases h with h | h | h | h
      · exact Or.inl h
      · exact Or.inr (Or.inl h)
      · exact Or.inr (Or.inr h)
      · exact absurd h hlast
    unfold fread
    rw [if_pos hargs]
    rfl

/-- A read on a descriptor of a file is the loop from its position on. -/
theorem total_fread_file {s : Kernel} {fd : Int} {entry : List UInt8} {pos size nmemb : UInt32}
    (hwf : s.WF) (hfile : StandsAt s fd entry pos) (hargs : ¬ ArgsRejected size nmemb fd) (out : UInt32)
    {Q : Int → Kernel → Prop} :
    Total (fread out size nmemb fd) s Q ↔
      Total (fat16ReadLoop (fat16GetFirstCluster entry) size nmemb.toNat (signed pos) out) s
        fun r s' => if r < 0 then Q r s' else Q (signed nmemb) s' := by
  obtain ⟨index, priv', item, ptr, hdesc, hpriv, hitem, hentry⟩ := hfile
  unfold ArgsRejected at hargs
  push Not at hargs
  obtain ⟨h1, h2, h3, h4⟩ := hargs
  have hslot : s.file_descriptors (fd - 1).toNat ≠ 0 := by
    intro h0
    rw [h0, hwf.live_zero] at hdesc
    cases hdesc
  unfold fread
  rw [if_neg (not_or.mpr ⟨h1, not_or.mpr ⟨h2, not_lt.mpr h3⟩⟩),
    total_bind_of_some (fileGetDescriptor_of_range h3 h4 s), if_neg hslot, total_load hdesc]
  unfold withFilesystem fat16Read
  dsimp only
  rw [total_load hpriv, total_load hitem, total_load hentry, total_bind]
  refine total_congr fun r s' _ => ?_
  split
  · exact total_pure
  · exact total_pure

/-- `fat16_read` takes a directory for the entry of a file: it reads behind the end of the object. -/
theorem fread_directory {s : Kernel} {fd : Int} {size nmemb : UInt32} (hwf : s.WF)
    (hdir : OnDirectory s fd) (hargs : ¬ ArgsRejected size nmemb fd) (out : UInt32) :
    fread out size nmemb fd s = none := by
  obtain ⟨index, priv', item, pos, ptr, directory, hdesc, hpriv, hitem, hobj⟩ := hdir
  unfold ArgsRejected at hargs
  push Not at hargs
  obtain ⟨h1, h2, h3, h4⟩ := hargs
  have hslot : s.file_descriptors (fd - 1).toNat ≠ 0 := by
    intro h0
    rw [h0, hwf.live_zero] at hdesc
    cases hdesc
  unfold fread
  rw [if_neg (not_or.mpr ⟨h1, not_or.mpr ⟨h2, not_lt.mpr h3⟩⟩),
    bind_of_some (fileGetDescriptor_of_range h3 h4 s), if_neg hslot,
    bind_of_some (load_of_live hdesc)]
  unfold withFilesystem fat16Read
  dsimp only
  rw [bind_of_some (load_of_live hpriv), bind_of_some (load_of_live hitem)]
  refine bind_of_none ?_
  rw [load, Kind.read, hobj]
  rfl

/-- The arguments are rejected, the walk breaks off, or the bytes are bytes of the file and are taken from where the
disk holds them. -/
def InsideOrRefused (image : Nat → Sector) (s : Kernel) (out size nmemb : UInt32) (fd : Int) : Prop :=
  ArgsRejected size nmemb fd ∨ ∃ entry pos, StandsAt s fd entry pos ∧
    (RecordMissing image (firstCluster entry) pos.toNat size.toNat nmemb.toNat out ∨
      pos.toNat + size.toNat * nmemb.toNat ≤ (itemFilesize entry).toNat ∧
        RecordsInRange image (firstCluster entry) pos.toNat size.toNat nmemb.toNat out ∧
        TakesFile image (firstCluster entry) pos.toNat size.toNat nmemb.toNat)

/-- A read of records that are all in range: it ends at the first one the walk does not get to, or delivers them. -/
theorem fread_inRange {s : Kernel} {fd : Int} {entry : List UInt8} {pos out size nmemb : UInt32}
    (hm : Mounted s image priv) (hfile : StandsAt s fd entry pos) (hargs : ¬ ArgsRejected size nmemb fd)
    (hrange : RecordsInRange image (firstCluster entry) pos.toNat size.toNat nmemb.toNat out)
    (hall : ∀ k < nmemb.toNat,
      LinksFollowed image (firstCluster entry) (lastIndex image (pos.toNat + k * size.toNat) size.toNat)) :
    Total (fread out size nmemb fd) s fun r s' => 0 ≤ r ∧
      bytesAt s'.mem out (size.toNat * nmemb.toNat) =
        takenBytes image (firstCluster entry) pos.toNat size.toNat nmemb.toNat := by
  have hsize : 0 < size.toNat := by
    unfold ArgsRejected at hargs
    push Not at hargs
    exact Nat.pos_of_ne_zero fun h0 => hargs.1 (UInt32.toNat_inj.mp h0)
  have hoffset := hrange.offset
  have hle : nmemb.toNat ≤ nmemb.toNat * size.toNat := Nat.le_mul_of_pos_right _ hsize
  have hback := bytesAt_writeBytes s.mem out
    (takenBytes image (firstCluster entry) pos.toNat size.toNat nmemb.toNat) (by rw [takenBytes_length]; omega)
  rw [takenBytes_length, Nat.mul_comm] at hback
  obtain ⟨r, s', hloop, rfl, hmem⟩ := fat16ReadLoop_found hsize nmemb.toNat hm hrange hall
  rw [total_fread_file hm.wf hfile hargs, signed_of_lt (x := pos) (by omega), total_of_some hloop,
    if_neg (lt_irrefl 0), signed_of_lt (x := nmemb) (by omega), hmem]
  exact ⟨Int.natCast_nonneg _, hback⟩

end Reading

end RasOS
