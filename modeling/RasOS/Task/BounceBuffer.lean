import RasOS.Task.CopyString

set_option autoImplicit false

/-! # Reading through the bounce buffer

While the string is read, one page of the task is replaced by the bounce buffer. A byte of the string that
is in that page, or is mapped to it, is read from the buffer: it has been zeroed, and then holds the bytes
copied so far. -/

namespace RasOS

open Machine

/-! ## Which bytes are read -/

/-- Where byte `i` of the string at `va` is, for a task with the entries `m`. -/
def taskAddress (m : Nat → UInt32) (va : UInt32) (i : Nat) : UInt32 :=
  pageAddress (m ((va + UInt32.ofNat i).toNat / 4096)) (va + UInt32.ofNat i)

/-- Byte `i` of the string, as the task reads it. -/
def taskByte (mem : UInt32 → UInt8) (m : Nat → UInt32) (va : UInt32) (i : Nat) : UInt8 := mem (taskAddress m va i)

/-- The offset of byte `i` in its page. -/
def pageOffset (va : UInt32) (i : Nat) : Nat := (va + UInt32.ofNat i).toNat % 4096

/-- Byte `i` of the string is in the page of the buffer, or mapped to it. -/
def ReadsBuffer (m : Nat → UInt32) (b va : UInt32) (i : Nat) : Prop :=
  (va + UInt32.ofNat i).toNat / 4096 = b.toNat / 4096 ∨
    (m ((va + UInt32.ofNat i).toNat / 4096)).toNat / 4096 = b.toNat / 4096

instance (m : Nat → UInt32) (b va : UInt32) (i : Nat) : Decidable (ReadsBuffer m b va i) :=
  inferInstanceAs (Decidable (_ ∨ _))

theorem pageAddress_toNat (entry va : UInt32) :
    (pageAddress entry va).toNat = entry.toNat / 4096 * 4096 + va.toNat % 4096 := toNat_page_or_low entry va

theorem offset_toNat {b : UInt32} (hb : b.toNat % 4096 = 0) {i : Nat} (hi : i < 4096) :
    (b + UInt32.ofNat i).toNat = b.toNat + i := by
  have hlt := b.toNat_lt
  rw [UInt32.toNat_add, UInt32.toNat_ofNat']
  omega

/-- An address in the page of the buffer. -/
theorem eq_buffer_offset {b a : UInt32} (hb : b.toNat % 4096 = 0) {o : Nat} (ho : o < 4096)
    (h : a.toNat = b.toNat + o) : a = b + UInt32.ofNat o := by
  apply UInt32.toNat_inj.mp
  rw [offset_toNat hb ho, h]

/-- The page of the buffer is where it is. -/
theorem bouncedSpace_page {m : Nat → UInt32} {b va : UInt32} (hb : b.toNat % 4096 = 0)
    (hva : va.toNat / 4096 = b.toNat / 4096) : bouncedSpace m b va = va := by
  apply UInt32.toNat_inj.mp
  have hentry : (b ||| bounceFlags).toNat / 4096 * 4096 = b.toNat := by
    rw [← toNat_and_page, page_or_flags hb (by decide)]
  rw [bouncedSpace, hva, Function.update_self, pageAddress_toNat, hentry]
  omega

theorem bouncedSpace_other {m : Nat → UInt32} {b va : UInt32} (hva : va.toNat / 4096 ≠ b.toNat / 4096) :
    bouncedSpace m b va = pageAddress (m (va.toNat / 4096)) va := by
  rw [bouncedSpace, Function.update_of_ne hva]

/-- Where the buffer itself is written. -/
theorem run_buffer {m : Nat → UInt32} {b : UInt32} (hb : b.toNat % 4096 = 0) {i : Nat} (hi : i < 4096) :
    run (bouncedSpace m b) b i = b + UInt32.ofNat i := by
  refine bouncedSpace_page hb ?_
  rw [offset_toNat hb hi]
  omega

/-- A byte of the string that is read from the buffer. -/
theorem run_inside {m : Nat → UInt32} {b va : UInt32} {i : Nat} (hb : b.toNat % 4096 = 0)
    (h : ReadsBuffer m b va i) : run (bouncedSpace m b) va i = b + UInt32.ofNat (pageOffset va i) := by
  have hoffset : pageOffset va i < 4096 := Nat.mod_lt _ (by decide)
  refine eq_buffer_offset hb hoffset ?_
  by_cases hpage : (va + UInt32.ofNat i).toNat / 4096 = b.toNat / 4096
  · rw [run, bouncedSpace_page hb hpage, pageOffset]
    omega
  · rw [run, bouncedSpace_other hpage, pageAddress_toNat, h.resolve_left hpage, pageOffset]
    omega

/-- A byte of the string that is not. -/
theorem run_outside {m : Nat → UInt32} {b va : UInt32} {i : Nat} (h : ¬ ReadsBuffer m b va i) :
    run (bouncedSpace m b) va i = taskAddress m va i ∧
      (run (bouncedSpace m b) va i).toNat / 4096 ≠ b.toNat / 4096 := by
  obtain ⟨hpage, hphys⟩ := not_or.mp h
  have hrun : run (bouncedSpace m b) va i = _ := bouncedSpace_other hpage
  refine ⟨hrun, ?_⟩
  rw [hrun, pageAddress_toNat]
  omega

theorem zeroed_apply (mem : UInt32 → UInt8) (b : UInt32) {max : Int} (h1 : 0 ≤ max) (h2 : max < 2 ^ 32)
    (a : UInt32) : zeroed mem b max a = if (a - b).toNat < max.toNat then 0 else mem a := by
  have hsize : (UInt32.ofInt max).toNat = max.toNat := by
    have := toNat_ofInt_of_range h1 h2
    omega
  rw [zeroed, writeBytes, hsize]
  by_cases ha : (a - b).toNat < max.toNat
  · rw [if_pos ha, List.getElem?_replicate, if_pos ha, Option.getD_some]
  · rw [if_neg ha, List.getElem?_replicate, if_neg ha, Option.getD_none]

/-- The bytes as the copy reads them. -/
def bouncedByte (mem : UInt32 → UInt8) (m : Nat → UInt32) (b va : UInt32) (max : Int) : Nat → UInt8 :=
  copiedByte (zeroed mem b max) (run (bouncedSpace m b) b) (run (bouncedSpace m b) va)

/-- What the buffer holds at an offset when byte `i` is read: a byte copied before, a zero, or what has
been in the block behind the buffer. -/
def bufferByte (mem : UInt32 → UInt8) (b : UInt32) (max : Int) (r : Nat → UInt8) (i o : Nat) : UInt8 :=
  if o < i then r o else if o < max.toNat then 0 else mem (b + UInt32.ofNat o)

/-- **What the copy reads.** -/
theorem bouncedByte_eq {mem : UInt32 → UInt8} {m : Nat → UInt32} {b va : UInt32} {max : Int} {i : Nat}
    (hb : b.toNat % 4096 = 0) (hmax : max < 4096) (hi : (i : Int) < max) :
    bouncedByte mem m b va max i = if ReadsBuffer m b va i then
      bufferByte mem b max (bouncedByte mem m b va max) i (pageOffset va i) else taskByte mem m va i := by
  have hzeroed := zeroed_apply mem b (by omega : 0 ≤ max) (by omega)
  by_cases hreads : ReadsBuffer m b va i
  · have hoffset : pageOffset va i < 4096 := Nat.mod_lt _ (by decide)
    have hsrc : run (bouncedSpace m b) va i = run (bouncedSpace m b) b (pageOffset va i) := by
      rw [run_inside hb hreads, run_buffer hb hoffset]
    have hne : ∀ j < i, pageOffset va i ≠ j →
        run (bouncedSpace m b) b (pageOffset va i) ≠ run (bouncedSpace m b) b j := by
      intro j hj hij heq
      have hnat := congrArg UInt32.toNat heq
      rw [run_buffer hb hoffset, run_buffer hb (by omega), offset_toNat hb hoffset, offset_toNat hb (by omega)] at hnat
      omega
    rw [if_pos hreads, bouncedByte, copiedByte, hsrc, bufferByte]
    by_cases hlt : pageOffset va i < i
    · rw [if_pos hlt]
      exact copied_dest hne hlt
    · rw [if_neg hlt, copied_other fun j hj => hne j hj (by omega), run_buffer hb hoffset, hzeroed,
        toNat_offset b (by omega)]
  · obtain ⟨hrun, hpage⟩ := run_outside hreads
    rw [if_neg hreads, bouncedByte, copiedByte, copied_other fun j hj heq => hpage ?_, hzeroed, if_neg ?_, hrun]
    · rfl
    · intro hlt
      have hsub : (run (bouncedSpace m b) va i - b).toNat
          = (2 ^ 32 - b.toNat + (run (bouncedSpace m b) va i).toNat) % 2 ^ 32 := UInt32.toNat_sub ..
      have h1 := b.toNat_lt
      have h2 := (run (bouncedSpace m b) va i).toNat_lt
      omega
    · rw [heq, run_buffer hb (by omega), offset_toNat hb (by omega)]
      omega

/-! ## The result -/

/-- The address is not in a free block: it belongs to somebody. -/
def Owned (heap : Heap) (a : UInt32) : Prop :=
  ∀ c : Nat, c < 25600 → isBlockTaken (heap.entries c) = false → 4096 ≤ (a - heapBlockToAddress heap c).toNat

/-- The caller's buffer of `max` bytes. -/
def OwnedBuffer (heap : Heap) (buf : UInt32) (max : Int) : Prop :=
  ∀ i : Nat, (i : Int) < max → Owned heap (buf + UInt32.ofNat i)

theorem Bounced.apart {s s1 : Kernel} {b directory : UInt32} {e m : Nat → UInt32} {live : UInt32 → Option Obj}
    (h : Bounced s b directory e m s1 live) {a : UInt32} (ha : Owned s.heap a) {i : Nat} (hi : i < 4096) :
    a ≠ b + UInt32.ofNat i := by
  obtain ⟨c, hc, hbc, hfree⟩ := h.lent.block b rfl
  rintro rfl
  have hfar := ha c hc hfree
  rw [← hbc, toNat_offset b (by omega)] at hfar
  omega

/-- **What `copy_string_from_task` writes** when it gets a buffer. -/
theorem copyStringFromTask_mem {s : Kernel} {kernel_page : KernelM Unit} {kernel_chunk task directory : UInt32}
    {e m : Nat → UInt32} (h : CopyCall s kernel_chunk task directory e m) (hpresent : Present e m)
    (hkernel : KernelSpace s kernel_chunk) (va buf : UInt32) {max : Int} (hpos : 0 < max) (hmax : max < 4096)
    (hfinds : FindsChunk s kernel_page kernel_chunk directory e m max) :
    bounceBuffer s max = 0 ∧ copyStringFromTask kernel_page task va buf max s = some (- ENOMEM, s) ∨
    bounceBuffer s max ≠ 0 ∧ ∃ s1 live, Bounced s (bounceBuffer s max) directory e m s1 live ∧
      copyStringFromTask kernel_page task va buf max s = some (OK, { freed s1 (bounceBuffer s max) with
        mem := strCopied (strCopied (zeroed s.mem (bounceBuffer s max) max)
            (run (bouncedSpace m (bounceBuffer s max)) (bounceBuffer s max))
            (run (bouncedSpace m (bounceBuffer s max)) va) (max - 1).toNat)
          (run id buf) (run id (bounceBuffer s max)) (max - 1).toNat }) := by
  rcases copyStringFromTask_cases h va buf (by omega : -2 ^ 31 ≤ max) hfinds with
    ⟨hlarge, -⟩ | ⟨-, hnull, hrun⟩ | ⟨-, hne, s1, live, hbounced, hrun⟩
  · omega
  · exact Or.inl ⟨hnull, hrun⟩
  · refine Or.inr ⟨hne, s1, live, hbounced, ?_⟩
    rw [hrun, strncpyBytes_run (hbounced.space hpresent _), Option.bind_some,
      strncpyBytes_run (hbounced.kernelSpace h.wf hkernel _)]
    rfl

/-- The kernel's space after the buffer has been freed. -/
theorem Bounced.freedSpace {s s1 : Kernel} {b directory kernel_chunk : UInt32} {e m : Nat → UInt32}
    {live : UInt32 → Option Obj} (hwf : s.WF) (h : Bounced s b directory e m s1 live)
    (hkernel : KernelSpace s kernel_chunk) (mem : UInt32 → UInt8) : Space { freed s1 b with mem := mem } id := by
  have hsince := h.lent.since hwf
  have hdirectory : (freed s1 b).current_directory = s.current_directory := by
    rw [freed, h.lent.rest]
  have hkeep : ∀ q o, s.live q = some o → (freed s1 b).live q = some o := by
    intro q o hq
    have hqb : q ≠ b := by
      rintro rfl
      cases (h.lent.fresh q rfl).symm.trans hq
    exact (freed_live_of_ne s1 hqb).trans (hsince.object q o hq)
  have hkernel1 : KernelSpace { freed s1 b with mem := mem } kernel_chunk := by
    refine ⟨?_, hkernel.identity.congr fun q o _ hq => hkeep q o hq⟩
    rw [hdirectory]
    exact hkeep _ _ hkernel.active
  exact hkernel1.space

section Strings

variable {s s1 : Kernel} {b directory buf va : UInt32} {e m : Nat → UInt32} {live : UInt32 → Option Obj} {max : Int}

theorem run_injective (f : UInt32) {i j : Nat} (hi : i < 4096) (hj : j < 4096) (hij : i ≠ j) :
    run id f i ≠ run id f j := by
  intro heq
  have hsub : (run id f i - f).toNat = (run id f j - f).toNat := by rw [heq]
  rw [show run id f i - f = f + UInt32.ofNat i - f from rfl, show run id f j - f = f + UInt32.ofNat j - f from rfl,
    toNat_offset f (by omega), toNat_offset f (by omega)] at hsub
  exact hij hsub

/-- The buffer of the caller holds a string when the copy has read it. -/
theorem Bounced.holds_iff (h : Bounced s b directory e m s1 live) (hbuf : OwnedBuffer s.heap buf max)
    (hpos : 0 < max) (hmax : max < 4096) (u : Nat → UInt8) :
    HoldsString (strCopied (strCopied (zeroed s.mem b max) (run (bouncedSpace m b) b) (run (bouncedSpace m b) va)
        (max - 1).toNat) (run id buf) (run id b) (max - 1).toNat) (run id buf) u (max - 1).toNat ↔
      ∀ i < (max - 1).toNat, (∀ j < i, u j ≠ 0) → bouncedByte s.mem m b va max i = u i := by
  have hb : b.toNat % 4096 = 0 := h.lent.wf.aligned h.buffer
  have hinj : ∀ i j, i ≤ (max - 1).toNat → j ≤ (max - 1).toNat → i ≠ j →
      run (bouncedSpace m b) b i ≠ run (bouncedSpace m b) b j := by
    intro i j hi hj hij
    rw [run_buffer hb (by omega), run_buffer hb (by omega)]
    exact run_injective b (by omega) (by omega) hij
  have hbounce : ∀ i ≤ (max - 1).toNat, run (bouncedSpace m b) b i = run id b i :=
    fun i hi => run_buffer hb (by omega)
  have hfirst : HoldsString (strCopied (zeroed s.mem b max) (run (bouncedSpace m b) b) (run (bouncedSpace m b) va)
      (max - 1).toNat) (run id b) (bouncedByte s.mem m b va max) (max - 1).toNat := by
    obtain ⟨k, hend, hbytes, hzero⟩ := @strCopied_holds _ _ (zeroed s.mem b max) _
      (run (bouncedSpace m b) va) _ hinj
    refine ⟨k, hend, fun i hi => ?_, ?_⟩
    · rw [← hbounce i (hi.le.trans hend.le)]
      exact hbytes i hi
    · rw [← hbounce k hend.le]
      exact hzero
  rw [strCopied_apart hfirst (fun i j hi hj hij => run_injective buf (by omega) (by omega) hij), hfirst.iff]
  intro i j hi hj heq
  exact h.apart (hbuf j (by omega)) (by omega) heq.symm

end Strings

/-- `copy_string_from_task` brings the string that the task reads at `va`, cut at `max - 1` bytes, to `buf`,
whenever it says so, and writes nothing else outside its own buffer. -/
def CopiesString (kernel_page : KernelM Unit) (task va buf : UInt32) (max : Int) (m : Nat → UInt32) (s : Kernel) :
    Prop :=
  ∀ s', copyStringFromTask kernel_page task va buf max s = some (OK, s') →
    HoldsString s'.mem (run id buf) (taskByte s.mem m va) (max - 1).toNat ∧
      ∀ a : UInt32, max.toNat ≤ (a - buf).toNat → max.toNat ≤ (a - bounceBuffer s max).toNat → s'.mem a = s.mem a

/-- Every byte of the string that is read from the buffer is what the buffer holds at that moment. -/
def BufferAgrees (va : UInt32) (max : Int) (m : Nat → UInt32) (s : Kernel) : Prop :=
  bounceBuffer s max ≠ 0 → ∀ i < (max - 1).toNat, (∀ j < i, taskByte s.mem m va j ≠ 0) →
    ReadsBuffer m (bounceBuffer s max) va i →
      taskByte s.mem m va i = bufferByte s.mem (bounceBuffer s max) max (taskByte s.mem m va) i (pageOffset va i)

theorem bufferByte_congr {mem : UInt32 → UInt8} {b : UInt32} {max : Int} {r u : Nat → UInt8} {i o : Nat}
    (h : o < i → r o = u o) : bufferByte mem b max r i o = bufferByte mem b max u i o := by
  unfold bufferByte
  by_cases ho : o < i
  · rw [if_pos ho, if_pos ho, h ho]
  · rw [if_neg ho, if_neg ho]

/-- The bytes read are those of the string exactly when those from the buffer are. -/
theorem bouncedByte_agrees {mem : UInt32 → UInt8} {m : Nat → UInt32} {b va : UInt32} {max : Int}
    (hb : b.toNat % 4096 = 0) (hmax : max < 4096) :
    (∀ i < (max - 1).toNat, (∀ j < i, taskByte mem m va j ≠ 0) →
        bouncedByte mem m b va max i = taskByte mem m va i) ↔
      ∀ i < (max - 1).toNat, (∀ j < i, taskByte mem m va j ≠ 0) → ReadsBuffer m b va i →
        taskByte mem m va i = bufferByte mem b max (taskByte mem m va) i (pageOffset va i) := by
  constructor
  · intro hagree i hi hnonzero hreads
    have hbyte := hagree i hi hnonzero
    rw [bouncedByte_eq hb hmax (by omega), if_pos hreads] at hbyte
    rw [← hbyte]
    refine bufferByte_congr fun ho => hagree _ (ho.trans hi) fun j hj => hnonzero j (hj.trans ho)
  · intro hagree i
    -- a byte from the buffer may be one that has been copied before
    induction i using Nat.strong_induction_on with
    | _ i ih =>
        intro hi hnonzero
        rw [bouncedByte_eq hb hmax (by omega)]
        by_cases hreads : ReadsBuffer m b va i
        · rw [if_pos hreads, hagree i hi hnonzero hreads]
          exact bufferByte_congr fun ho => ih _ ho (ho.trans hi) fun j hj => hnonzero j (hj.trans ho)
        · rw [if_neg hreads]

/-- The addresses whose bytes change while the string is read, the buffer apart: the entry of its block in the table
of the heap at `0x7E00`, the directory and the page tables of the task (where the processor marks what is accessed,
too), and the stack of the kernel with its variable `current_directory`. -/
def ChangedByCall (s : Kernel) (b directory : UInt32) (e : Nat → UInt32) (stack_begin : Nat)
    (current_directory_address a : UInt32) : Prop :=
  (∃ c : Nat, c < 25600 ∧ b = heapBlockToAddress s.heap c ∧ a = RASOS_HEAP_TABLE_ADDRESS + UInt32.ofNat c) ∨
    a &&& 0xfffff000 = directory ∨ (∃ i < 1024, a &&& 0xfffff000 = e i &&& 0xfffff000) ∨
    (stack_begin ≤ a.toNat / 4096 ∧ a.toNat / 4096 < 0x600) ∨ (a - current_directory_address).toNat < 4

/-- What `copy_string_from_task` is called for: a string of a task that leaves the kernel in its place, to a buffer of
the caller. No byte of the string is one that the call itself changes, but in the page of its buffer. -/
structure StringCall (s : Kernel) (image_end stack_begin : Nat) (address current_directory_address kernel_chunk : UInt32)
    (task directory : UInt32) (e m : Nat → UInt32) (va buf : UInt32) (max : Int) : Prop where
  call : CopyCall s kernel_chunk task directory e m
  present : Present e m
  kernel : KernelSpace s kernel_chunk
  place : KernelInPlace image_end stack_begin kernel_chunk e m
  chunk_variable : 0x100 ≤ address.toNat / 4096 ∧ address.toNat / 4096 < image_end
  buffer : OwnedBuffer s.heap buf max
  string : ∀ i < (max - 1).toNat, (∀ j < i, taskByte s.mem m va j ≠ 0) →
    ¬ ChangedByCall s (bounceBuffer s max) directory e stack_begin current_directory_address (taskAddress m va i)

/-- **The string arrives** unless it is in the way of the buffer. -/
theorem copyStringFromTask_iff {s : Kernel} {image_end stack_begin : Nat}
    {address current_directory_address kernel_chunk task directory : UInt32} {e m : Nat → UInt32} {va buf : UInt32}
    {max : Int} (h : StringCall s image_end stack_begin address current_directory_address kernel_chunk task directory e m
      va buf max) (hpos : 0 < max) (hmax : max < 4096) :
    CopiesString (kernelPageAt address kernel_chunk) task va buf max m s ↔ BufferAgrees va max m s := by
  have hbuf := h.buffer
  rcases copyStringFromTask_mem h.call h.present h.kernel va buf hpos hmax
      (findsChunk_kernelPageAt h.place h.chunk_variable max) with
    ⟨hnull, hrun⟩ | ⟨hne, s1, live, hbounced, hrun⟩
  · refine iff_of_true (fun s' hs' => ?_) fun hne => absurd hnull hne
    have hres := (Prod.mk.inj (Option.some.inj (hrun.symm.trans hs'))).1
    exact absurd hres (by decide)
  · have hb : (bounceBuffer s max).toNat % 4096 = 0 := hbounced.lent.wf.aligned hbounced.buffer
    have hother : ∀ a : UInt32, max.toNat ≤ (a - buf).toNat → max.toNat ≤ (a - bounceBuffer s max).toNat →
        strCopied (strCopied (zeroed s.mem (bounceBuffer s max) max)
          (run (bouncedSpace m (bounceBuffer s max)) (bounceBuffer s max))
          (run (bouncedSpace m (bounceBuffer s max)) va) (max - 1).toNat)
          (run id buf) (run id (bounceBuffer s max)) (max - 1).toNat a = s.mem a := by
      intro a h1 h2
      have hfar : ∀ base : UInt32, max.toNat ≤ (a - base).toNat → ∀ i ≤ (max - 1).toNat, a ≠ run id base i := by
        rintro base hle i hi rfl
        rw [run, id, toNat_offset base (by omega)] at hle
        omega
      rw [strCopied_other (hfar buf h1), strCopied_other, zeroed_apply _ _ (by omega) (by omega), if_neg (by omega)]
      intro i hi
      rw [run_buffer hb (by omega)]
      exact hfar _ h2 i hi
    have hcopies : CopiesString (kernelPageAt address kernel_chunk) task va buf max m s ↔ HoldsString (strCopied (strCopied
        (zeroed s.mem (bounceBuffer s max) max) (run (bouncedSpace m (bounceBuffer s max)) (bounceBuffer s max))
          (run (bouncedSpace m (bounceBuffer s max)) va) (max - 1).toNat)
        (run id buf) (run id (bounceBuffer s max)) (max - 1).toNat)
        (run id buf) (taskByte s.mem m va) (max - 1).toNat := by
      constructor
      · exact fun hall => (hall _ hrun).1
      · intro hholds s' hs'
        obtain ⟨-, rfl⟩ := Prod.mk.inj (Option.some.inj (hrun.symm.trans hs'))
        exact ⟨hholds, hother⟩
    rw [hcopies, hbounced.holds_iff hbuf hpos hmax, bouncedByte_agrees hb hmax]
    exact ⟨fun hall _ => hall, fun hall => hall hne⟩

/-! ## A string where the buffer will be -/

/-- A kernel with free blocks and a `B` in every byte. -/
def filledKernel (n : Nat) : Kernel := { bareKernel n with mem := fun _ => 0x42 }

theorem filledKernel_wf (n : Nat) : (filledKernel n).WF :=
  ⟨(bareKernel_wf n).start, (bareKernel_wf n).total, (bareKernel_wf n).block⟩

theorem filledKernel_oneTask {n : Nat} (h1 : 2053 ≤ n) (h2 : n ≤ 25600) : ∃ kernel_chunk task directory e s,
    oneTask (filledKernel n) = some ((kernel_chunk, task), s) ∧
      OneTask (filledKernel n) kernel_chunk task directory e s ∧ freeCount s.heap + 2053 = n := by
  have hcount : freeCount (filledKernel n).heap = n := bareKernel_freeCount h2
  obtain ⟨kernel_chunk, task, directory, e, s, hrun, hone⟩ :=
    oneTask_spec (filledKernel_wf n) (bareKernel_clean n) (by omega)
  have hleft := hone.count
  exact ⟨kernel_chunk, task, directory, e, s, hrun, hone, by omega⟩

/-- Nothing below the heap is in a free block. -/
theorem owned_low {s : Kernel} (hwf : s.WF) {a : UInt32} (ha : a.toNat < 0x01000000) : Owned s.heap a := by
  intro c hc _
  have haddr := hwf.address hc
  rw [UInt32.toNat_sub]
  omega

/-- In an identity map only the page of the buffer is read from it. -/
theorem readsBuffer_identity {flags b va : UInt32} (hflags : flags.toNat < 4096) {i : Nat} :
    ReadsBuffer (identityEntry flags) b va i ↔ (va + UInt32.ofNat i).toNat / 4096 = b.toNat / 4096 := by
  have hlt := (va + UInt32.ofNat i).toNat_lt
  obtain ⟨hpage, -⟩ := identityEntry_page hflags (by omega : (va + UInt32.ofNat i).toNat / 4096 < 2 ^ 20)
  rw [toNat_and_page] at hpage
  have hentry : (identityEntry flags ((va + UInt32.ofNat i).toNat / 4096)).toNat / 4096
      = (va + UInt32.ofNat i).toNat / 4096 := by
    generalize (identityEntry flags ((va + UInt32.ofNat i).toNat / 4096)).toNat = x at hpage ⊢
    omega
  rw [ReadsBuffer, hentry, or_self]

theorem owned_buffer {s : Kernel} (hwf : s.WF) {buf : UInt32} {max : Int} (h : buf.toNat + max < 0x01000000) :
    OwnedBuffer s.heap buf max := by
  intro i hi
  refine owned_low hwf ?_
  rw [UInt32.toNat_add, UInt32.toNat_ofNat']
  omega

/-- What the call changes is not in the middle of memory, outside the objects of the heap. -/
theorem not_changedByCall {s : Kernel} {kernel_chunk task b directory a : UInt32} {e m : Nat → UInt32}
    (h : CopyCall s kernel_chunk task directory e m) (hfree : s.live (a &&& 0xfffff000) = none)
    (h1 : 0x00300000 ≤ a.toNat) (h2 : a.toNat < 0x005FF000 ∨ 0x00600000 ≤ a.toNat) :
    ¬ ChangedByCall s b directory e 0x5FF 0x0010C004 a := by
  obtain ⟨t, -, hmaps⟩ := h.task
  have hlt := a.toNat_lt
  rintro (⟨c, hc, -, rfl⟩ | hdir | ⟨i, hi, htable⟩ | hstack | hvariable)
  · rw [UInt32.toNat_add, UInt32.toNat_ofNat', show RASOS_HEAP_TABLE_ADDRESS.toNat = 0x7E00 from rfl] at h1
    omega
  · rw [hdir, hmaps.2.entries] at hfree
    cases hfree
  · obtain ⟨u, hu, -⟩ := hmaps.2.values i hi
    rw [htable, hu] at hfree
    cases hfree
  · omega
  · rw [UInt32.toNat_sub, show (0x0010C004 : UInt32).toNat = 0x0010C004 from rfl] at hvariable
    omega

/-- There is no object below the heap. -/
theorem live_low {s : Kernel} (hwf : s.WF) {a : UInt32} (ha : a.toNat < 0x01000000) :
    s.live (a &&& 0xfffff000) = none := by
  by_contra hlive
  obtain ⟨o, ho⟩ := Option.ne_none_iff_exists'.mp hlive
  obtain ⟨c, -, hc⟩ := hwf.range ho
  rw [toNat_and_page] at hc
  omega

/-- Nor in the block that becomes the buffer. -/
theorem bounceBuffer_free {s : Kernel} (hwf : s.WF) {max : Int} (hne : bounceBuffer s max ≠ 0) :
    s.live (bounceBuffer s max) = none := by
  obtain ⟨ptr, s1, halloc, hcases⟩ := kzalloc_spec rawK (UInt32.ofInt max) () hwf
  obtain rfl : bounceBuffer s max = ptr := (Prod.mk.inj (Option.some.inj halloc)).1
  exact (hcases.live hne).1

/-- A string in the middle of memory, for a task whose pages are all where they are. -/
theorem stringCall_middle {s0 s : Kernel} {kernel_chunk task directory : UInt32} {e : Nat → UInt32}
    (h : OneTask s0 kernel_chunk task directory e s) (va : UInt32)
    (hva : ∀ i < 15, (∀ j < i, taskByte s.mem (identityEntry taskFlags) va j ≠ 0) →
      ¬ ChangedByCall s (bounceBuffer s 16) directory e 0x5FF 0x0010C004 (va + UInt32.ofNat i)) :
    StringCall s 0x10D 0x5FF 0x0010C000 0x0010C004 kernel_chunk task directory e (identityEntry taskFlags) va
      0x00200000 16 where
  call := h.call
  present := h.present
  kernel := h.kernel
  place := kernelInPlace_identity (by decide) (by decide) h.present.1 0x10D 0x5FF kernel_chunk
  chunk_variable := by decide
  buffer := owned_buffer h.call.wf (by decide)
  string := fun i hi hnonzero => by
    rw [taskAddress, pageAddress_identity (by decide)]
    exact hva i hi hnonzero

/-- The string is below the heap. -/
theorem copyStringFromTask_low : ∃ kernel_chunk task s, oneTask (filledKernel 25600) = some ((kernel_chunk, task), s) ∧
    CopiesString (kernelPageAt 0x0010C000 kernel_chunk) task 0x00400000 0x00200000 16 (identityEntry taskFlags) s := by
  obtain ⟨kernel_chunk, task, directory, e, s, hrun, hone, -⟩ :=
    filledKernel_oneTask (by decide : 2053 ≤ 25600) (Nat.le_refl _)
  have hwf := hone.call.wf
  have haddress : ∀ i < 15, (0x00400000 + UInt32.ofNat i).toNat = 0x00400000 + i := by
    intro i hi
    rw [UInt32.toNat_add, UInt32.toNat_ofNat', show (0x00400000 : UInt32).toNat = 0x00400000 from rfl]
    omega
  have hcall := stringCall_middle hone 0x00400000 fun i hi _ => by
    have hi' := haddress i hi
    exact not_changedByCall hone.call (live_low hwf (by omega)) (by omega) (by omega)
  refine ⟨kernel_chunk, task, s, hrun, (copyStringFromTask_iff hcall (by decide) (by decide)).mpr ?_⟩
  intro hne i hi _ hreads
  rw [readsBuffer_identity (by decide), haddress i hi] at hreads
  rcases bounceBuffer_block hwf (by decide : 0 < (16 : Int)) (by decide) with ⟨hnull, -⟩ | ⟨-, -, c, hc, hblock⟩
  · exact absurd hnull hne
  · have hi' : i < 15 := hi
    omega

/-- The string is in the block that becomes the buffer, and its first byte is not zero. -/
theorem copyStringFromTask_collides : ∃ kernel_chunk task directory e s,
    oneTask (filledKernel 25600) = some ((kernel_chunk, task), s) ∧
      StringCall s 0x10D 0x5FF 0x0010C000 0x0010C004 kernel_chunk task directory e (identityEntry taskFlags)
        (bounceBuffer s 16) 0x00200000 16 ∧
      ¬ CopiesString (kernelPageAt 0x0010C000 kernel_chunk) task (bounceBuffer s 16) 0x00200000 16
        (identityEntry taskFlags) s := by
  obtain ⟨kernel_chunk, task, directory, e, s, hrun, hone, hcount⟩ :=
    filledKernel_oneTask (by decide : 2053 ≤ 25600) (Nat.le_refl _)
  have hwf := hone.call.wf
  rcases bounceBuffer_block hwf (by decide : 0 < (16 : Int)) (by decide) with ⟨-, hfull⟩ | ⟨hne, -, c, hc, hblock⟩
  · omega
  · have hcall := stringCall_middle hone (bounceBuffer s 16) fun i hi _ => by
      have hi' := offset_toNat (b := bounceBuffer s 16) (by omega) (by omega : i < 4096)
      have hpage : bounceBuffer s 16 + UInt32.ofNat i &&& 0xfffff000 = bounceBuffer s 16 := by
        apply UInt32.toNat_inj.mp
        rw [toNat_and_page]
        omega
      refine not_changedByCall hone.call ?_ (by omega) (by omega)
      rw [hpage]
      exact bounceBuffer_free hwf hne
    refine ⟨kernel_chunk, task, directory, e, s, hrun, hcall, fun hcopies => ?_⟩
    have hagrees := (copyStringFromTask_iff hcall (by decide) (by decide)).mp hcopies
    have hzero : bounceBuffer s 16 + UInt32.ofNat 0 = bounceBuffer s 16 := UInt32.add_zero _
    have hfirst := hagrees hne 0 (by decide) (fun j hj => absurd hj (Nat.not_lt_zero j)) (Or.inl (by rw [hzero]))
    have hoffset : pageOffset (bounceBuffer s 16) 0 = 0 := by
      rw [pageOffset, hzero]
      omega
    -- the task reads a `B`, the copy a zero
    rw [hoffset, taskByte, hone.mem] at hfirst
    change (0x42 : UInt8) = 0 at hfirst
    exact absurd hfirst (by decide)

/-! ## What is left behind -/

/-- **`copy_string_from_task` leaves no trace** but in memory, for a task that leaves the kernel in its place: the
entries of the task, the active directory and the heap are as they were, however it returns. It does return when no
page faults. -/
theorem copyStringFromTask_frame {s : Kernel} {image_end stack_begin : Nat}
    {address kernel_chunk task directory : UInt32} {e m : Nat → UInt32}
    (h : CopyCall s kernel_chunk task directory e m) (hplace : KernelInPlace image_end stack_begin kernel_chunk e m)
    (haddress : 0x100 ≤ address.toNat / 4096 ∧ address.toNat / 4096 < image_end) (hclean : CleanHeap s.heap)
    (virtual_addr phys_addr : UInt32) {max : Int} (hmin : -2 ^ 31 ≤ max) :
    Ensures (copyStringFromTask (kernelPageAt address kernel_chunk) task virtual_addr phys_addr max) s
        (fun _ s' => MemOnly s s') ∧
      (Present e m → KernelSpace s kernel_chunk → ∃ res s',
        copyStringFromTask (kernelPageAt address kernel_chunk) task virtual_addr phys_addr max s = some (res, s')) :=
  h.frame hclean virtual_addr phys_addr hmin (findsChunk_kernelPageAt hplace haddress max)

theorem copyStringFromTask_frame_oneTask : ∃ kernel_chunk task s res s',
    oneTask freshKernel = some ((kernel_chunk, task), s) ∧
      copyStringFromTask (kernelPageAt 0x0010C000 kernel_chunk) task 0x00400000 0x00200000 16 s = some (res, s') ∧
      MemOnly s s' := by
  have hcount := freshKernel_freeCount
  obtain ⟨kernel_chunk, task, directory, e, s, hrun, hone⟩ :=
    oneTask_spec freshKernel_wf (bareKernel_clean 25600) (by omega)
  have hplace : KernelInPlace 0x10D 0x5FF kernel_chunk e (identityEntry taskFlags) :=
    kernelInPlace_identity (by decide) (by decide) hone.present.1 0x10D 0x5FF kernel_chunk
  have haddress : 0x100 ≤ (0x0010C000 : UInt32).toNat / 4096 ∧ (0x0010C000 : UInt32).toNat / 4096 < 0x10D := by decide
  obtain ⟨hframe, hreturns⟩ := copyStringFromTask_frame hone.call hplace haddress hone.clean
    0x00400000 0x00200000 (by decide : -2 ^ 31 ≤ (16 : Int))
  obtain ⟨res, s', hcopy⟩ := hreturns hone.present hone.kernel
  exact ⟨kernel_chunk, task, s, res, s', hrun, hcopy, hframe res s' hcopy⟩

/-- Memory with the word `v` at `0x300000`. -/
def wordMemory (v a : UInt32) : UInt8 :=
  if (a - 0x00300000).toNat < 4 then wordByte v (a - 0x00300000).toNat else 0

/-- The entries of a task that maps the page of `kernel_chunk` to `0x300000`. -/
def strandingEntries : Nat → UInt32 := Function.update (identityEntry taskFlags) 0x10C 0x00300005

theorem strandingEntries_eq : overlay (identityEntry taskFlags)
    (mapToWrites 0x0010C000 0x00300000 0x00301000 taskFlags) = strandingEntries := by
  have hwrites : mapToWrites 0x0010C000 0x00300000 0x00301000 taskFlags = [(0x10C, 0x00300005)] := by decide
  rw [hwrites]
  rfl

theorem strandingEntries_present {e : Nat → UInt32} (h : Present e (identityEntry taskFlags)) :
    Present e strandingEntries := by
  refine ⟨h.1, fun v hv => ?_⟩
  by_cases hpage : v = 0x10C
  · rw [hpage, strandingEntries, Function.update_self]
    decide
  · rw [strandingEntries, Function.update_of_ne hpage]
    exact h.2 v hv

/-- Where the variable is found while the buffer is at `b`, in the heap. -/
theorem bouncedSpace_stranding {b : UInt32} (hb : 0x01000000 ≤ b.toNat) {i : Nat} (hi : i < 4) :
    bouncedSpace strandingEntries b (0x0010C000 + UInt32.ofNat i) = 0x00300000 + UInt32.ofNat i := by
  have haddress : ∀ i : Fin 4, (0x0010C000 + UInt32.ofNat i.val).toNat / 4096 = 0x10C ∧
      pageAddress 0x00300005 (0x0010C000 + UInt32.ofNat i.val) = 0x00300000 + UInt32.ofNat i.val := by decide
  obtain ⟨hpage, hphys⟩ := haddress ⟨i, hi⟩
  dsimp only at hpage hphys
  rw [bouncedSpace_other (by omega), hpage, strandingEntries, Function.update_self, hphys]

/-- The variable is read as the word in memory. -/
theorem readStatic_stranding {s : Kernel} {b v kernel_chunk : UInt32} (hspace : Space s (bouncedSpace strandingEntries b))
    (hb : 0x01000000 ≤ b.toNat) (hword : ∀ i < 4, s.mem (0x00300000 + UInt32.ofNat i) = wordByte v i) :
    readStatic 0x0010C000 kernel_chunk s = some (v, s) := by
  have hbyte : ∀ i < 4, readByte (0x0010C000 + UInt32.ofNat i) s = some (wordByte v i, s) := by
    intro i hi
    refine readByte_eq_some.mpr ⟨_, hspace _, ?_, rfl⟩
    rw [bouncedSpace_stranding hb hi, hword i hi]
  have hfirst : translate s 0x0010C000 = some 0x00300000 := by
    have h0 := hspace (0x0010C000 + UInt32.ofNat 0)
    rw [bouncedSpace_stranding hb (by decide)] at h0
    exact h0
  have hread : readWord 0x0010C000 s = some (v, s) := by
    have h0 : readByte 0x0010C000 s = _ := hbyte 0 (by decide)
    have h1 : readByte (0x0010C000 + 1) s = _ := hbyte 1 (by decide)
    have h2 : readByte (0x0010C000 + 2) s = _ := hbyte 2 (by decide)
    have h3 : readByte (0x0010C000 + 3) s = _ := hbyte 3 (by decide)
    rw [readWord, bind_of_some h0, bind_of_some h1, bind_of_some h2, bind_of_some h3, word_wordByte]
    rfl
  rw [readStatic, hfirst, Option.bind_some, if_neg (by decide), hread]

/-- What the copy of the string leaves of the word. -/
theorem strCopied_wordMemory {m : Nat → UInt32} {b v : UInt32} (hb : b.toNat % 4096 = 0) (hlow : 0x01000000 ≤ b.toNat)
    (src : Nat → UInt32) {i : Nat} (hi : i < 4) :
    strCopied (zeroed (wordMemory v) b 16) (run (bouncedSpace m b) b) src 15 (0x00300000 + UInt32.ofNat i) =
      wordByte v i := by
  have haddress : (0x00300000 + UInt32.ofNat i).toNat = 0x00300000 + i := by
    rw [UInt32.toNat_add, UInt32.toNat_ofNat', show (0x00300000 : UInt32).toNat = 0x00300000 from rfl]
    omega
  have hlt := b.toNat_lt
  have hfar : 16 ≤ (0x00300000 + UInt32.ofNat i - b).toNat := by
    rw [UInt32.toNat_sub, haddress]
    omega
  rw [strCopied_other, zeroed_apply _ _ (by decide) (by decide),
    if_neg (show ¬ _ < Int.toNat 16 from Nat.not_lt.mpr hfar), wordMemory, toNat_offset _ (by omega), if_pos hi]
  intro k hk heq
  have hnat := congrArg UInt32.toNat heq
  rw [run_buffer hb (by omega), offset_toNat hb (by omega), haddress] at hnat
  omega

/-- A task made by `paging_new_4gb` maps the page of `kernel_chunk` to a page that holds the address of its own chunk:
`kernel_page` switches the directory of the task on again. -/
theorem copyStringFromTask_strands : ∃ kernel_chunk task chunk s s1 s',
    oneTask freshKernel = some ((kernel_chunk, task), s) ∧
      (∃ t, s.live task = some (taskK.inj t) ∧ t.page_directory = chunk) ∧
      pagingMapTo chunk 0x0010C000 0x00300000 0x00301000 taskFlags s = some (OK, s1) ∧
      copyStringFromTask (kernelPageAt 0x0010C000 kernel_chunk) task 0x00400000 0x00200000 16
        { s1 with mem := wordMemory chunk } = some (OK, s') ∧ s'.current_directory ≠ s.current_directory := by
  have hcount := freshKernel_freeCount
  obtain ⟨kernel_chunk, task, directory, e, s, hrun, hone⟩ :=
    oneTask_spec freshKernel_wf (bareKernel_clean 25600) (by omega)
  obtain ⟨t, ht, hmaps⟩ := hone.call.task
  rcases pagingMapTo_cases hmaps 0x0010C000 0x00300000 0x00301000 taskFlags with
    ⟨hno, -⟩ | ⟨-, s1, hmap, honly, hmaps1⟩
  · exact absurd (by unfold WholePages; decide) hno
  rw [strandingEntries_eq] at hmaps1
  have htables := honly.tablesOnly hmaps.2 hmaps1.2
  have hwf : Kernel.WF { s1 with mem := wordMemory t.page_directory } :=
    (htables.wf hone.call.wf).of_live rfl fun _ o ho => ⟨o, ho⟩
  have htask : ∃ t', s1.live task = some (taskK.inj t') ∧
      MapsBy { s1 with mem := wordMemory t.page_directory } t'.page_directory directory e strandingEntries :=
    ⟨t, htables.object _ _ ht (fun _ heq => by cases heq), hmaps1.1, hmaps1.2.entries, hmaps1.2.values, hmaps1.2.inj,
      hmaps1.2.ne⟩
  have hpresent := strandingEntries_present hone.present
  have hfull : freeCount s1.heap + 2053 = 25600 := by
    rw [htables.heap, ← hcount]
    exact hone.count
  rcases bounceBuffer_block hwf (by decide : 0 < (16 : Int)) (by decide) with ⟨-, hnone⟩ | ⟨hne, -, c, -, hblock⟩
  · change freeCount s1.heap = 0 at hnone
    omega
  have haligned : (bounceBuffer { s1 with mem := wordMemory t.page_directory } 16).toNat % 4096 = 0 := by omega
  generalize hb : bounceBuffer { s1 with mem := wordMemory t.page_directory } 16 = b at hne hblock haligned
  have hlow : 0x01000000 ≤ b.toNat := by omega
  -- what `kernel_page` reads is the chunk of the task
  have hpage : ∀ s2 live u mem, Bounced { s1 with mem := wordMemory t.page_directory } b directory e strandingEntries
        s2 live →
      strncpyBytes b 0x00400000 16 (readingState s2 live directory (zeroed (wordMemory t.page_directory) b 16))
        = some (u, readingState s2 live directory mem) →
      kernelPageAt 0x0010C000 kernel_chunk (readingState s2 live directory mem)
        = some ((), { s2 with live := live, mem := mem, current_directory := directory }) := by
    intro s2 live u mem hbounced hcopy
    rw [strncpyBytes_run (hbounced.space hpresent _)] at hcopy
    have hmem := congrArg Kernel.mem (Prod.mk.inj (Option.some.inj hcopy)).2
    have hread : readStatic 0x0010C000 kernel_chunk (readingState s2 live directory mem)
        = some (t.page_directory, readingState s2 live directory mem) := by
      refine readStatic_stranding (hbounced.space hpresent mem) hlow fun i hi => ?_
      rw [← hmem]
      exact strCopied_wordMemory haligned hlow _ hi
    have hchunk : (readingState s2 live directory mem).live t.page_directory = some (chunkK.inj directory) :=
      hbounced.other _ _ (fun _ heq => by cases heq) hmaps1.1
    rw [kernelPageAt, bind_of_some hread, pagingSwitch_of_live hchunk]
    rfl
  subst hb
  rcases copyStringFromTask_paged hwf htask 0x00400000 0x00200000 (by decide : -2 ^ 31 ≤ (16 : Int)) hpage with
    ⟨hlarge, -⟩ | ⟨-, hnull, -⟩ | ⟨-, -, s2, live, hbounced, hcopy⟩
  · exact absurd hlarge (by decide)
  · exact absurd hnull hne
  · have hsince := hbounced.lent.since hwf
    -- the second copy is made in the address space of the task
    have hspace : ∀ mem, Space { s2 with mem := mem, current_directory := directory }
        fun va => pageAddress (strandingEntries (va.toNat / 4096)) va := by
      intro mem
      have hdir : Directory { s2 with mem := mem, current_directory := directory } directory e 1024 strandingEntries := by
        refine ⟨hsince.object _ _ hmaps1.2.entries, fun i hi => ?_, hmaps1.2.inj, hmaps1.2.ne⟩
        obtain ⟨u, hu, hvalues⟩ := hmaps1.2.values i hi
        exact ⟨u, hsince.object _ _ hu, hvalues⟩
      exact hdir.space hpresent
    rw [strncpyBytes_run (hbounced.space hpresent _), Option.bind_some, strncpyBytes_run (hspace _)] at hcopy
    refine ⟨kernel_chunk, task, t.page_directory, s, s1, _, hrun, ⟨t, ht, rfl⟩, hmap, hcopy, ?_⟩
    -- the directories differ in the flags of their pages
    rintro (hsame : directory = s.current_directory)
    obtain ⟨kernel_directory, ke, hkernel, -⟩ := maps_iff.mp hone.kernel.identity
    obtain rfl : kernel_directory = s.current_directory :=
      chunkK.inj_injective (Option.some.inj (hkernel.1.symm.trans hone.kernel.active))
    have hwalk := hmaps.2.pageWalk 0
    rw [hsame, hkernel.2.pageWalk 0] at hwalk
    have hentry := (Prod.mk.inj (Option.some.inj hwalk)).2
    exact absurd hentry (by decide)

end RasOS
