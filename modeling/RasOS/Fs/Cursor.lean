import RasOS.Fs.WholeFile
import RasOS.Lib.Run

set_option autoImplicit false

/-! # The position of a descriptor

A file is read through a cursor: a read takes the bytes from the cursor on and moves it behind them.
The position of a descriptor is to be that cursor. `fread` leaves it where it is. -/

namespace RasOS

open Machine

/-! ## Calls on a descriptor -/

/-- A call on an open descriptor. -/
inductive FileCall
  | fread (out size nmemb : UInt32)
  | fseek (offset : Int) (whence : Nat)
  | fstat

/-- The status the call returns. -/
def FileCall.run (fd : Int) : FileCall → KernelM Int
  | .fread out size nmemb => RasOS.fread out size nmemb fd
  | .fseek offset whence => RasOS.fseek fd offset whence
  | .fstat => do
      let (res, _) ← RasOS.fstat fd
      return res

/-- The descriptor `fd` is open on the file with the directory entry `entry`, at `pos`. -/
def StandsAt (s : Kernel) (fd : Int) (entry : List UInt8) (pos : UInt32) : Prop :=
  ∃ index priv item ptr,
    s.live (s.file_descriptors (fd - 1).toNat) = some (fileDescriptorK.inj
      { index := index, filesystem := some .fat16, private_data := priv }) ∧
    s.live priv = some (fatFileDescriptorK.inj { item := item, pos := pos }) ∧
    s.live item = some (fatItemK.inj { item := ptr, type := FAT_ITEM_TYPE_FILE }) ∧
    s.live ptr = some (dirItemsK.inj entry)

theorem StandsAt.unique {s : Kernel} {fd : Int} {entry : List UInt8} {pos pos' : UInt32}
    (h : StandsAt s fd entry pos) (h' : StandsAt s fd entry pos') : pos = pos' := by
  obtain ⟨index, priv, item, ptr, hdesc, hpriv, -⟩ := h
  obtain ⟨index', priv', item', ptr', hdesc', hpriv', -⟩ := h'
  rw [hdesc] at hdesc'
  obtain heq := fileDescriptorK.inj_injective (Option.some.inj hdesc')
  obtain rfl : priv = priv' := congrArg FileDescriptor.private_data heq
  rw [hpriv] at hpriv'
  exact congrArg FatFileDescriptor.pos (fatFileDescriptorK.inj_injective (Option.some.inj hpriv'))

theorem StandsAt.entry_unique {s : Kernel} {fd : Int} {entry entry' : List UInt8} {pos pos' : UInt32}
    (h : StandsAt s fd entry pos) (h' : StandsAt s fd entry' pos') : entry = entry' := by
  obtain ⟨index, priv, item, ptr, hdesc, hpriv, hitem, hentry⟩ := h
  obtain ⟨index', priv', item', ptr', hdesc', hpriv', hitem', hentry'⟩ := h'
  obtain rfl : priv = priv' := congrArg FileDescriptor.private_data
    (fileDescriptorK.inj_injective (Option.some.inj (hdesc.symm.trans hdesc')))
  obtain rfl : item = item' := congrArg FatFileDescriptor.item
    (fatFileDescriptorK.inj_injective (Option.some.inj (hpriv.symm.trans hpriv')))
  obtain rfl : ptr = ptr' := congrArg FatItem.item
    (fatItemK.inj_injective (Option.some.inj (hitem.symm.trans hitem')))
  exact dirItemsK.inj_injective (Option.some.inj (hentry.symm.trans hentry'))

/-- A descriptor that `fopen` has returned. -/
theorem AtStart.standsAt {s : Kernel} {fd : Int} {entry : List UInt8} (h : AtStart s fd entry) :
    StandsAt s fd entry 0 := by
  obtain ⟨slot, item, rfl, ⟨desc, priv, index, rfl, -, hdesc, hpriv⟩, ptr, hitem, hentry⟩ := h
  have hslot : ((slot : Int) + 1 - 1).toNat = slot := by omega
  refine ⟨index, priv, item, ptr, ?_, hpriv, hitem, hentry⟩
  rw [hslot]
  exact hdesc

/-- Reading the volume leaves the descriptor alone. -/
theorem Moved.standsAt {s s' : Kernel} (h : Moved s s') {fd : Int} {entry : List UInt8}
    {pos : UInt32} (hfile : StandsAt s fd entry pos) : StandsAt s' fd entry pos := by
  obtain ⟨index, priv, item, ptr, hdesc, hpriv, hitem, hentry⟩ := hfile
  refine ⟨index, priv, item, ptr, ?_, ?_, ?_, ?_⟩
  · rw [h.slots]
    exact (h.object _ _ fun _ heq => Obj.noConfusion heq).mpr hdesc
  · exact (h.object _ _ fun _ heq => Obj.noConfusion heq).mpr hpriv
  · exact (h.object _ _ fun _ heq => Obj.noConfusion heq).mpr hitem
  · exact (h.object _ _ fun _ heq => Obj.noConfusion heq).mpr hentry

/-! ## The cursor -/

/-- The kernel, and where the next byte is to be read. -/
structure Session where
  kernel : Kernel
  cursor : Int

/-- Where a successful call takes the cursor. -/
def FileCall.next (cursor : Int) : FileCall → Int
  | .fread _ size nmemb => cursor + size.toNat * nmemb.toNat
  | .fseek offset whence =>
      if whence = SEEK_SET then offset
      else if whence = SEEK_CUR then cursor + offset
      else cursor
  | .fstat => cursor

/-- What a call returns when it succeeds. -/
def FileCall.success : FileCall → Int
  | .fread _ _ nmemb => nmemb.toNat
  | .fseek _ _ => OK
  | .fstat => OK

/-- A call on `fd` that succeeds and stays inside the file. -/
def sessionStep (fd : Int) (entry : List UInt8) (st : Session) (call : FileCall) : Option Session :=
  let cursor := call.next st.cursor
  match call.run fd st.kernel with
  | none => none
  | some (r, k) =>
      if r = call.success ∧ 0 ≤ cursor ∧ cursor ≤ (itemFilesize entry).toNat then some ⟨k, cursor⟩
      else none

theorem sessionStep_eq_some {fd : Int} {entry : List UInt8} {st st' : Session} {call : FileCall} :
    sessionStep fd entry st call = some st' ↔
      call.run fd st.kernel = some (call.success, st'.kernel) ∧ st'.cursor = call.next st.cursor ∧
        0 ≤ st'.cursor ∧ st'.cursor ≤ (itemFilesize entry).toNat := by
  obtain ⟨k', cursor'⟩ := st'
  unfold sessionStep
  dsimp only
  split
  · rename_i hnone
    rw [hnone]
    exact iff_of_false nofun fun h => by cases h.1
  · rename_i r k hrun
    rw [hrun, Option.some.injEq, Prod.mk.injEq]
    constructor
    · intro h
      split at h
      · rename_i hok
        obtain ⟨rfl, rfl⟩ := Session.mk.inj (Option.some.inj h)
        exact ⟨⟨hok.1, rfl⟩, rfl, hok.2⟩
      · cases h
    · rintro ⟨⟨rfl, rfl⟩, rfl, hrange⟩
      rw [if_pos ⟨rfl, hrange⟩]

/-- The descriptor stands at the cursor. -/
def AtCursor (fd : Int) (entry : List UInt8) (st : Session) : Prop :=
  ∃ pos : UInt32, StandsAt st.kernel fd entry pos ∧ (pos.toNat : Int) = st.cursor

/-- The call is not a read. -/
def NoRead (_ : Session) (call : FileCall) : Prop := ∀ out size nmemb, call ≠ .fread out size nmemb

/-! ## The calls -/

/-- `fread` leaves the position alone, and reads something when it succeeds. -/
theorem fread_standsAt {s s' : Kernel} {fd : Int} {entry : List UInt8} {pos out size nmemb : UInt32}
    (h : StandsAt s fd entry pos) (hrun : fread out size nmemb fd s = some ((nmemb.toNat : Int), s')) :
    StandsAt s' fd entry pos ∧ 0 < size.toNat * nmemb.toNat := by
  have hmoved := moved_rules.fread moved_memWrite out size nmemb fd s _ s' hrun
  refine ⟨hmoved.standsAt h, ?_⟩
  have hargs : ¬ (size = 0 ∨ nmemb = 0 ∨ fd < 1) := by
    intro hbad
    unfold fread at hrun
    rw [if_pos hbad] at hrun
    have hres : - EINVARG = (nmemb.toNat : Int) := (Prod.mk.inj (Option.some.inj hrun)).1
    exact absurd hres (by rw [EINVARG]; omega)
  rw [not_or, not_or, ← UInt32.toNat_inj, ← UInt32.toNat_inj, UInt32.toNat_zero] at hargs
  exact Nat.mul_pos (Nat.pos_of_ne_zero hargs.1) (Nat.pos_of_ne_zero hargs.2.1)

/-- Storing a position changes nothing else. -/
theorem standsAt_store {s : Kernel} {fd : Int} {entry : List UInt8} {index : Int}
    {priv item ptr pos : UInt32} (pos' : UInt32)
    (hdesc : s.live (s.file_descriptors (fd - 1).toNat) = some (fileDescriptorK.inj
      { index := index, filesystem := some .fat16, private_data := priv }))
    (hpriv : s.live priv = some (fatFileDescriptorK.inj { item := item, pos := pos }))
    (hitem : s.live item = some (fatItemK.inj { item := ptr, type := FAT_ITEM_TYPE_FILE }))
    (hentry : s.live ptr = some (dirItemsK.inj entry)) :
    StandsAt { s with live := fatFileDescriptorK.write s.live priv ⟨item, pos'⟩ } fd entry pos' := by
  have hdescK : fatFileDescriptorK.Apart fileDescriptorK := fun _ _ h => Obj.noConfusion h
  have hitemK : fatFileDescriptorK.Apart fatItemK := fun _ _ h => Obj.noConfusion h
  have hentryK : fatFileDescriptorK.Apart dirItemsK := fun _ _ h => Obj.noConfusion h
  refine ⟨index, priv, item, ptr, ?_, Kind.write_self .., ?_, ?_⟩
  · exact (Kind.write_apart hdescK hpriv).mpr hdesc
  · exact (Kind.write_apart hitemK hpriv).mpr hitem
  · exact (Kind.write_apart hentryK hpriv).mpr hentry

/-- `fseek` takes the position where it is told to. -/
theorem fseek_standsAt {s s' : Kernel} {fd offset : Int} {entry : List UInt8} {pos : UInt32}
    {whence : Nat} (hwf : s.WF) (h : StandsAt s fd entry pos)
    (hrun : fseek fd offset whence s = some (OK, s')) :
    (whence = SEEK_SET ∧ StandsAt s' fd entry (UInt32.ofInt offset)) ∨
      (whence = SEEK_CUR ∧ StandsAt s' fd entry (pos + UInt32.ofInt offset)) := by
  obtain ⟨index, priv, item, ptr, hdesc, hpriv, hitem, hentry⟩ := h
  have hstore := fun pos' => standsAt_store pos' hdesc hpriv hitem hentry
  have herr : ∀ (res : Int) (t : Kernel), res ≠ OK → Ensures (Pure.pure res : KernelM Int) t
      fun r s' => r = OK → (whence = SEEK_SET ∧ StandsAt s' fd entry (UInt32.ofInt offset)) ∨
        (whence = SEEK_CUR ∧ StandsAt s' fd entry (pos + UInt32.ofInt offset)) :=
    fun res t hres => Ensures.pure fun h => absurd h hres
  have hseek : Ensures (fseek fd offset whence) s fun r s' => r = OK →
      (whence = SEEK_SET ∧ StandsAt s' fd entry (UInt32.ofInt offset)) ∨
        (whence = SEEK_CUR ∧ StandsAt s' fd entry (pos + UInt32.ofInt offset)) := by
    unfold fseek fileGetDescriptor
    refine Ensures.bind (Q := fun desc s1 =>
      s1 = s ∧ (desc = 0 ∨ desc = s.file_descriptors (fd - 1).toNat)) ?_ ?_
    · refine Ensures.ite (fun _ => Ensures.pure ⟨rfl, Or.inl rfl⟩) fun _ => ?_
      intro desc s1 h1
      obtain ⟨rfl, rfl⟩ := Prod.mk.inj (Option.some.inj h1)
      exact ⟨rfl, Or.inr rfl⟩
    rintro desc s1 ⟨rfl, hslot⟩
    refine Ensures.ite (fun _ => herr _ _ (by decide)) fun _ => ensures_load fun d hd => ?_
    rcases hslot with rfl | rfl
    · rw [hwf.live_zero] at hd
      cases hd
    rw [hdesc] at hd
    obtain rfl := fileDescriptorK.inj_injective (Option.some.inj hd)
    unfold withFilesystem fat16Seek
    dsimp only
    refine ensures_load fun fd' hfd' => ?_
    rw [hpriv] at hfd'
    obtain rfl := fatFileDescriptorK.inj_injective (Option.some.inj hfd')
    refine ensures_load fun it _ => Ensures.ite (fun _ => herr _ _ (by decide)) fun _ => ?_
    refine ensures_load fun ritem _ => Ensures.ite (fun _ => herr _ _ (by decide)) fun _ => ?_
    refine Ensures.ite (fun hset => ?_) fun _ => Ensures.ite (fun _ => herr _ _ (by decide)) fun _ => ?_
    · exact ensures_store fun _ _ => Ensures.pure fun _ => Or.inl ⟨hset, hstore _⟩
    · refine Ensures.ite (fun hcur => ?_) fun _ => herr _ _ (by decide)
      exact ensures_store fun _ _ => Ensures.pure fun _ => Or.inr ⟨hcur, hstore _⟩
  exact hseek _ _ hrun rfl

/-- A descriptor at the cursor is at the cursor after every call but a read. -/
theorem AtCursor.step {fd : Int} {entry : List UInt8} {st st' : Session} {call : FileCall}
    (hwf : st.kernel.WF) (h : AtCursor fd entry st) (hcall : NoRead st call)
    (hstep : sessionStep fd entry st call = some st') :
    st'.kernel.WF ∧ AtCursor fd entry st' := by
  obtain ⟨hrun, hcursor, hlow, hhigh⟩ := sessionStep_eq_some.mp hstep
  obtain ⟨pos, hfile, hpos⟩ := h
  have hsize := (itemFilesize entry).toNat_lt
  cases call with
  | fread out size nmemb => exact absurd rfl (hcall out size nmemb)
  | fstat =>
      have hrules := moved_rules
      have hmoved := hrules.bind (hrules.fstat fd) (fun _ => hrules.pure _) _ _ _ hrun
      exact ⟨hmoved.wf hwf, pos, hmoved.standsAt hfile, by rw [hcursor]; exact hpos⟩
  | fseek offset whence =>
      have hwf' := (keepsRest_rules.fseek fd offset whence _ _ _ hrun hwf).wf
      refine ⟨hwf', ?_⟩
      rcases fseek_standsAt hwf hfile hrun with ⟨rfl, hfile'⟩ | ⟨rfl, hfile'⟩
      · refine ⟨_, hfile', ?_⟩
        rw [FileCall.next, if_pos rfl] at hcursor
        rw [hcursor] at hlow hhigh ⊢
        rw [toNat_ofInt]
        omega
      · refine ⟨_, hfile', ?_⟩
        rw [FileCall.next, if_neg (by decide), if_pos rfl] at hcursor
        rw [UInt32.toNat_add, toNat_ofInt]
        omega

/-- A read leaves the descriptor behind the cursor. -/
theorem AtCursor.read {fd : Int} {entry : List UInt8} {st st' : Session} {call : FileCall}
    (h : AtCursor fd entry st) (hcall : ¬ NoRead st call)
    (hstep : sessionStep fd entry st call = some st') : ¬ AtCursor fd entry st' := by
  obtain ⟨hrun, hcursor, -⟩ := sessionStep_eq_some.mp hstep
  obtain ⟨pos, hfile, hpos⟩ := h
  cases call with
  | fstat => exact absurd (fun _ _ _ => FileCall.noConfusion) hcall
  | fseek offset whence => exact absurd (fun _ _ _ => FileCall.noConfusion) hcall
  | fread out size nmemb =>
      obtain ⟨hfile', hread⟩ := fread_standsAt hfile hrun
      rintro ⟨pos', hfile'', hpos'⟩
      obtain rfl := hfile'.unique hfile''
      rw [FileCall.next] at hcursor
      have hcast : ((size.toNat * nmemb.toNat : Nat) : Int) = size.toNat * nmemb.toNat :=
        Nat.cast_mul ..
      omega

/-- **A descriptor follows the cursor exactly as long as nothing is read.** For every run of calls
that succeed and stay inside the file, on a descriptor that stands at the cursor: it stands at
the cursor in every state of the run if and only if the run contains no read. -/
theorem file_cursor_iff {s : Kernel} {fd : Int} {entry : List UInt8} {pos : UInt32} (hwf : s.WF)
    (hfile : StandsAt s fd entry pos) (calls : List FileCall) :
    AllStates (sessionStep fd entry) (AtCursor fd entry) ⟨s, pos.toNat⟩ calls ↔
      AllSteps (sessionStep fd entry) NoRead ⟨s, pos.toNat⟩ calls :=
  allStates_iff_allSteps (I := fun st => st.kernel.WF)
    (fun _ _ _ hI hP hC hstep => hP.step hI hC hstep)
    (fun _ _ _ _ hP hC hstep => hP.read hC hstep) calls _ hwf ⟨pos, hfile, rfl⟩

/-- A volume where `A` has 600 bytes, byte `i` of a sector being `i`. -/
def countingFile : Kernel := oneFileKernel 600 (fun _ => 0) (fun _ i => UInt8.ofNat i) 0

def countingImage : Nat → Sector := oneFileImage 600 (fun _ => 0) fun _ i => UInt8.ofNat i

theorem countingFile_mounted : Mounted countingFile countingImage oneFilePrivate :=
  oneFileKernel_mounted (by decide)

/-- Positioning, asking for the size and reading. -/
theorem file_cursor_run :
    ∃ s, fopen pathA [0x72] countingFile = some (1, s) ∧
      (AllStates (sessionStep 1 (oneFileEntry 600)) (AtCursor 1 (oneFileEntry 600))
          ⟨s, (0 : UInt32).toNat⟩ [.fseek 300 SEEK_SET, .fstat, .fread 0x700000 10 2] ↔
        AllSteps (sessionStep 1 (oneFileEntry 600)) NoRead
          ⟨s, (0 : UInt32).toNat⟩ [.fseek 300 SEEK_SET, .fstat, .fread 0x700000 10 2]) := by
  obtain ⟨fd, s, hopen, rfl, hentry⟩ : Total (fopen pathA [0x72]) countingFile
      fun fd s => fd = 1 ∧ entryOf s fd = some (oneFileEntry 600) := by decide +kernel
  have hwf := (keepsRest_rules.fopen _ _ _ _ _ hopen countingFile_mounted.wf).wf
  obtain ⟨item, hopened⟩ := fopen_spec _ _ _ countingFile_mounted.wf _ _ hopen (by decide)
  exact ⟨s, hopen,
    file_cursor_iff hwf ((Since.refl hwf).atStart hopened hentry).standsAt _⟩

/-- Two reads of one byte deliver byte 0 twice, and `fseek` by one from there leads to byte 1; one
read of two bytes delivers the bytes 0 and 1. -/
theorem fread_reads_again :
    Total (fopen pathA [0x72]) countingFile fun fd s =>
      fd = 1 ∧ entryOf s 1 = some (oneFileEntry 600) ∧
      (Total (fread 0x700000 1 1 1 >>= fun _ => fread 0x700001 1 1 1) s fun r s' =>
        r = 1 ∧ s'.mem 0x700000 = 0 ∧ s'.mem 0x700001 = 0) ∧
      (Total (fread 0x700000 1 1 1 >>= fun _ => fseek 1 1 SEEK_CUR >>= fun _ => fread 0x700001 1 1 1)
        s fun r s' => r = 1 ∧ s'.mem 0x700001 = 1) ∧
      Total (fread 0x700000 2 1 1) s fun r s' =>
        r = 1 ∧ s'.mem 0x700000 = 0 ∧ s'.mem 0x700001 = 1 := by
  decide +kernel

end RasOS
