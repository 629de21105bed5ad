import RasOS.Task.Task
import RasOS.Memory.PagingRuns
import RasOS.Lib.StrCopy

set_option autoImplicit false

/-! # Reading from a task (`task/task.c`)

`copy_string_from_task` maps a new block, the bounce buffer, into the task's directory, copies the string
there in the address space of the task, and from there to the caller's buffer in that of the kernel. On the way
back `kernel_page` reads the variable `kernel_chunk` while the directory of the task is still active. The code
of the kernel and its stack are not memory of the model, nor are the table of its heap and the page tables. -/

namespace RasOS

open Machine

variable {α : Type}

/-! ## The model -/

/-- The loop of `strncpy` (`string/string.c`) from byte `i` on; it returns the index it ends with. -/
def strncpyBytesLoop (dest src : UInt32) : (remaining i : Nat) → KernelM Nat
  | 0, i => return i
  | remaining + 1, i => do
      let c ← readByte (src + UInt32.ofNat i)
      if c = 0 then
        return i
      else do
        writeByte (dest + UInt32.ofNat i) c
        strncpyBytesLoop dest src remaining (i + 1)

/-- `strncpy`, through the page tables. -/
def strncpyBytes (dest src : UInt32) (count : Int) : KernelM Unit := do
  let i ← strncpyBytesLoop dest src (count - 1).toNat 0
  writeByte (dest + UInt32.ofNat i) 0

/-- A 32-bit read through the page tables. -/
def readWord (virtual_address : UInt32) : KernelM UInt32 := do
  let b0 ← readByte virtual_address
  let b1 ← readByte (virtual_address + 1)
  let b2 ← readByte (virtual_address + 2)
  let b3 ← readByte (virtual_address + 3)
  return b0.toUInt32 ||| b1.toUInt32 <<< 8 ||| b2.toUInt32 <<< 16 ||| b3.toUInt32 <<< 24

/-- A read of the static variable at `address`, whose value is `value`, in the address space that is active.
Where the page of the variable is mapped elsewhere, what is there is read. -/
def readStatic (address value : UInt32) : KernelM UInt32 := fun s =>
  (translate s address).bind fun a => if a = address then some (value, s) else readWord address s

/-- `kernel_page` (`kernel.c`); `kernel_chunk` is its static variable, at `address`. -/
def kernelPageAt (address kernel_chunk : UInt32) : KernelM Unit := do
  let chunk ← readStatic address kernel_chunk
  pagingSwitch chunk

/-- `kernel_page` where the variable is in its place. -/
def kernelPage (kernel_chunk : UInt32) : KernelM Unit := pagingSwitch kernel_chunk

/-- The flags of the page of the bounce buffer. -/
def bounceFlags : UInt32 := PAGING_IS_WRITABLE ||| PAGING_IS_PRESENT ||| PAGING_ACCESS_BY_ALL

/-- `copy_string_from_task`; `kernel_page` is one of the two above. -/
def copyStringFromTask (kernel_page : KernelM Unit) (task virtual_addr phys_addr : UInt32) (max : Int) : KernelM Int :=
  if max ≥ PAGE_SIZE then return - EINVARG
  else do
    let string_cpy ← kzallocBytes (UInt32.ofInt max)
    if string_cpy = 0 then
      return - ENOMEM
    else do
      let t ← load taskK task
      let task_directory ← load chunkK t.page_directory
      let page_table_entry ← pagingGetTableEntry task_directory string_cpy
      let _ ← pagingMap t.page_directory string_cpy string_cpy bounceFlags
      pagingSwitch t.page_directory
      strncpyBytes string_cpy virtual_addr max
      kernel_page
      let res ← pagingSet task_directory string_cpy page_table_entry
      if res < 0 then do
        kfree rawK string_cpy
        return - EIO
      else do
        strncpyBytes phys_addr string_cpy max
        kfree rawK string_cpy
        return res

def taskGetStackItem (kernel_page : KernelM Unit) (task : UInt32) (index : Int) : KernelM UInt32 := do
  let t ← load taskK task
  let sp_ptr := t.registers.esp
  pagingSwitch t.page_directory
  let result ← readWord (sp_ptr + UInt32.ofInt (4 * index))
  kernel_page
  return result

/-! ## What an access changes -/

/-- Nothing has changed but bytes. -/
def MemOnly (s s' : Kernel) : Prop := s' = { s with mem := s'.mem }

theorem memOnly_frame : Frame MemOnly where
  refl := fun _ => rfl
  trans := by
    intro s s' s'' h h'
    rw [MemOnly, h', h]

theorem readByte_eq_some {virtual_address : UInt32} {s s' : Kernel} {c : UInt8} :
    readByte virtual_address s = some (c, s') ↔ ∃ a, translate s virtual_address = some a ∧ c = s.mem a ∧ s' = s := by
  rw [readByte, Option.map_eq_some_iff]
  constructor
  · rintro ⟨a, ha, heq⟩
    obtain ⟨rfl, rfl⟩ := Prod.mk.inj heq
    exact ⟨a, ha, rfl, rfl⟩
  · rintro ⟨a, ha, rfl, rfl⟩
    exact ⟨a, ha, rfl⟩

theorem keeps_readByte (virtual_address : UInt32) : Keeps MemOnly (readByte virtual_address) := by
  intro s c s' h
  obtain ⟨a, -, -, rfl⟩ := readByte_eq_some.mp h
  exact memOnly_frame.refl _

theorem keeps_writeByte (virtual_address : UInt32) (c : UInt8) : Keeps MemOnly (writeByte virtual_address c) := by
  intro s u s' h
  obtain ⟨a, -, heq⟩ := Option.map_eq_some_iff.mp h
  obtain ⟨-, rfl⟩ := Prod.mk.inj heq
  rfl

theorem keeps_strncpyBytes (dest src : UInt32) (count : Int) : Keeps MemOnly (strncpyBytes dest src count) := by
  have hloop : ∀ remaining i : Nat, Keeps MemOnly (strncpyBytesLoop dest src remaining i) := by
    intro remaining
    induction remaining with
    | zero => exact fun i => Keeps.pure memOnly_frame i
    | succ remaining ih =>
        intro i
        refine Keeps.bind memOnly_frame (keeps_readByte _) fun c => ?_
        refine Keeps.ite (Keeps.pure memOnly_frame i) ?_
        exact Keeps.bind memOnly_frame (keeps_writeByte _ c) fun _ => ih (i + 1)
  exact Keeps.bind memOnly_frame (hloop _ 0) fun i => keeps_writeByte _ 0

/-! ## The copy -/

theorem noRoom_of_negative {s : Kernel} (hwf : s.WF) {max : Int} (hmin : -2 ^ 31 ≤ max) (hmax : max ≤ 0) :
    NoRoom s.heap (UInt32.ofInt max) := by
  by_cases hzero : max = 0
  · exact Or.inl (by rw [hzero]; rfl)
  · refine Or.inr fun b hb => ?_
    have hsize : 2 ^ 31 ≤ (UInt32.ofInt max).toNat := by
      rw [toNat_ofInt]
      omega
    have htotal := hwf.total
    rw [blocksFor] at hb
    omega

theorem blocksFor_small {max : Int} (h1 : 0 < max) (h2 : max < 4096) : blocksFor (UInt32.ofInt max) = 1 := by
  rw [blocksFor, toNat_ofInt_of_range (by omega) (by omega)]
  omega

/-- The bounce buffer: the address of the next block. -/
def bounceBuffer (s : Kernel) (max : Int) : UInt32 := (heapMalloc s.heap (UInt32.ofInt max)).1

/-- Memory with a new buffer in it. -/
def zeroed (mem : UInt32 → UInt8) (b : UInt32) (max : Int) : UInt32 → UInt8 :=
  writeBytes mem b (List.replicate (UInt32.ofInt max).toNat 0)

/-- The buffer is a block of the heap, and there is one while a block is free. -/
theorem bounceBuffer_block {s : Kernel} (hwf : s.WF) {max : Int} (h1 : 0 < max) (h2 : max < 4096) :
    bounceBuffer s max = 0 ∧ freeCount s.heap = 0 ∨ bounceBuffer s max ≠ 0 ∧ 0 < freeCount s.heap ∧
      ∃ c : Nat, c < 25600 ∧ (bounceBuffer s max).toNat = 0x01000000 + 4096 * c := by
  obtain ⟨ptr, s1, halloc, hcases⟩ := kzalloc_spec rawK (UInt32.ofInt max) () hwf
  have hptr : bounceBuffer s max = ptr := (Prod.mk.inj (Option.some.inj halloc)).1
  have hone := blocksFor_small h1 h2
  rw [hptr]
  by_cases hnull : ptr = 0
  · exact Or.inl ⟨hnull, (noRoom_one_iff hone).mp ((hcases.null_iff hwf).mp hnull)⟩
  · have hcount := hcases.freeCount hwf hnull
    refine Or.inr ⟨hnull, by omega, ?_⟩
    obtain ⟨-, hlive⟩ := hcases.live hnull
    exact (hcases.since hwf).wf.range hlive

/-- One block of bytes is lent, or there is none. -/
theorem kzallocBytes_lent {s : Kernel} (hwf : s.WF) {size : UInt32} (hone : blocksFor size = 1) :
    (heapMalloc s.heap size).1 = 0 ∧ kzallocBytes size s = some (0, s) ∨
      (heapMalloc s.heap size).1 ≠ 0 ∧ ∃ s1, Lent s (fun q => q = (heapMalloc s.heap size).1) s1 ∧
        s1.live (heapMalloc s.heap size).1 = some (rawK.inj ()) ∧
        kzallocBytes size s = some ((heapMalloc s.heap size).1, { s1 with
          mem := writeBytes s.mem (heapMalloc s.heap size).1 (List.replicate size.toNat 0) }) := by
  obtain ⟨ptr, s1, halloc, hcases⟩ := kzalloc_spec rawK size () hwf
  have hptr : (heapMalloc s.heap size).1 = ptr := (Prod.mk.inj (Option.some.inj halloc)).1
  rw [hptr, kzallocBytes, bind_of_some halloc]
  by_cases hnull : ptr = 0
  · refine Or.inl ⟨hnull, ?_⟩
    have hs1 : s1 = s := by
      cases hcases with
      | null hnone => rfl
      | fresh b ptr hpos hend hrun hptr' hne hfree => exact absurd hnull hne
    rw [if_pos hnull, hs1]
    rfl
  · obtain ⟨-, hlive⟩ := hcases.live hnull
    have hlent := ((Lent.refl hwf).alloc hwf hone hcases hnull).congr (Q := fun q => q = ptr) fun q => by
      rw [or_false]
    refine Or.inr ⟨hnull, s1, hlent, hlive, ?_⟩
    rw [if_neg hnull, bind_of_some (memWrite_spec _ (Or.inl hnull) s1), hcases.mem]
    rfl

/-- What `copy_string_from_task` is called with: a task with its directory, and the directory of the kernel
active. -/
structure CopyCall (s : Kernel) (kernel_chunk task directory : UInt32) (e m : Nat → UInt32) : Prop where
  wf : s.WF
  task : ∃ t, s.live task = some (taskK.inj t) ∧ MapsBy s t.page_directory directory e m
  kernel : s.live kernel_chunk = some (chunkK.inj s.current_directory)

/-- The bounce buffer `b` has been taken: `s1` is the state with it, and `live` are the objects with its page
mapped for the task. -/
structure Bounced (s : Kernel) (b directory : UInt32) (e m : Nat → UInt32) (s1 : Kernel)
    (live : UInt32 → Option Obj) : Prop where
  lent : Lent s (fun q => q = b) s1
  buffer : s1.live b = some (rawK.inj ())
  maps : Directory { s1 with live := live } directory e 1024
    (Function.update m (b.toNat / 4096) (b ||| bounceFlags))
  other : ∀ q o, (∀ t, o ≠ tableK.inj t) → s.live q = some o → live q = some o

/-- The state in which the string is read. -/
def readingState (s1 : Kernel) (live : UInt32 → Option Obj) (directory : UInt32) (mem : UInt32 → UInt8) : Kernel :=
  { s1 with live := live, current_directory := directory, mem := mem }

theorem pagingSwitch_of_live {s : Kernel} {chunk directory : UInt32}
    (h : s.live chunk = some (chunkK.inj directory)) :
    pagingSwitch chunk s = some ((), { s with current_directory := directory }) := by
  rw [pagingSwitch, bind_of_some (load_of_live h)]
  rfl

/-- The two copies of `copy_string_from_task`. The rest of it leaves no trace, but that `kernel_page` switches the
directory `active` on. -/
theorem copyStringFromTask_paged {s : Kernel} {kernel_page : KernelM Unit} {task directory active : UInt32}
    {e m : Nat → UInt32} (hwf : s.WF)
    (htask : ∃ t, s.live task = some (taskK.inj t) ∧ MapsBy s t.page_directory directory e m)
    (virtual_addr phys_addr : UInt32) {max : Int} (hmin : -2 ^ 31 ≤ max)
    (hpage : ∀ s1 live u mem, Bounced s (bounceBuffer s max) directory e m s1 live →
      strncpyBytes (bounceBuffer s max) virtual_addr max
          (readingState s1 live directory (zeroed s.mem (bounceBuffer s max) max))
        = some (u, readingState s1 live directory mem) →
      kernel_page (readingState s1 live directory mem)
        = some ((), { s1 with live := live, mem := mem, current_directory := active })) :
    4096 ≤ max ∧ copyStringFromTask kernel_page task virtual_addr phys_addr max s = some (- EINVARG, s) ∨
    max < 4096 ∧ bounceBuffer s max = 0 ∧
      copyStringFromTask kernel_page task virtual_addr phys_addr max s = some (- ENOMEM, s) ∨
    (0 < max ∧ max < 4096) ∧ bounceBuffer s max ≠ 0 ∧ ∃ s1 live,
      Bounced s (bounceBuffer s max) directory e m s1 live ∧
      copyStringFromTask kernel_page task virtual_addr phys_addr max s =
        (strncpyBytes (bounceBuffer s max) virtual_addr max
          (readingState s1 live directory (zeroed s.mem (bounceBuffer s max) max))).bind fun r =>
            (strncpyBytes phys_addr (bounceBuffer s max) max
              { s1 with mem := r.2.mem, current_directory := active }).map fun r' =>
                (OK, { freed s1 (bounceBuffer s max) with mem := r'.2.mem, current_directory := active }) := by
  unfold copyStringFromTask
  by_cases hmax : max ≥ (PAGE_SIZE : Nat)
  · rw [if_pos hmax]
    exact Or.inl ⟨hmax, rfl⟩
  rw [if_neg hmax]
  have hmax' : max < 4096 := by
    rw [PAGE_SIZE] at hmax
    omega
  right
  by_cases hpos : 0 < max
  · rcases kzallocBytes_lent hwf (blocksFor_small hpos hmax') with
      ⟨hnull, hrun⟩ | ⟨hne, s1, hlent, hbuffer, hrun⟩
    · refine Or.inl ⟨hmax', hnull, ?_⟩
      rw [bind_of_some hrun, if_pos rfl]
      rfl
    · right
      refine ⟨⟨hpos, hmax'⟩, hne, ?_⟩
      generalize hb : (heapMalloc s.heap (UInt32.ofInt max)).1 = b at hne hlent hbuffer hrun
      rw [show bounceBuffer s max = b from hb] at hpage ⊢
      change kzallocBytes _ s = some (b, { s1 with mem := zeroed s.mem b max }) at hrun
      have hsince := hlent.since hwf
      obtain ⟨t, htask, hmaps⟩ := htask
      have haligned : b.toNat % 4096 = 0 := hlent.wf.aligned hbuffer
      -- the directory of the task is still there
      have hmaps1 : MapsBy { s1 with mem := zeroed s.mem b max } t.page_directory directory e m := by
        refine ⟨hsince.object _ _ hmaps.1, hsince.object _ _ hmaps.2.entries, fun i hi => ?_, hmaps.2.inj, hmaps.2.ne⟩
        obtain ⟨u, hu, hvalues⟩ := hmaps.2.values i hi
        exact ⟨u, hsince.object _ _ hu, hvalues⟩
      obtain ⟨live, hmap, hmapped, hkeep, hundo⟩ := pagingMap_undo hmaps1 haligned haligned bounceFlags
      have hbounced : Bounced s b directory e m s1 live :=
        ⟨hlent, hbuffer, ⟨hmapped.2.entries, hmapped.2.values, hmapped.2.inj, hmapped.2.ne⟩,
          fun q o ho hq => hkeep q o ho (hsince.object q o hq)⟩
      refine ⟨s1, live, hbounced, ?_⟩
      have htask1 : ({ s1 with mem := zeroed s.mem b max } : Kernel).live task = some (taskK.inj t) :=
        hsince.object _ _ htask
      rw [bind_of_some hrun, if_neg hne, bind_of_some (load_of_live htask1), bind_of_some (load_of_live hmaps1.1),
        bind_of_some (pagingGetTableEntry_entries hmaps1.2 haligned), bind_of_some hmap,
        bind_of_some (pagingSwitch_of_live hmapped.1)]
      change (strncpyBytes b virtual_addr max >>= _) (readingState s1 live directory (zeroed s.mem b max)) = _
      cases hcopy : strncpyBytes b virtual_addr max (readingState s1 live directory (zeroed s.mem b max)) with
      | none =>
          rw [bind_of_none hcopy]
          rfl
      | some r =>
          obtain ⟨u, s2⟩ := r
          have hs2 : s2 = readingState s1 live directory s2.mem := keeps_strncpyBytes _ _ _ _ _ _ hcopy
          have hswitch : kernel_page s2
              = some ((), { s1 with live := live, mem := s2.mem, current_directory := active }) := by
            rw [hs2] at hcopy ⊢
            exact hpage s1 live u s2.mem hbounced hcopy
          rw [bind_of_some hcopy, bind_of_some hswitch, bind_of_some (hundo s2.mem active), if_neg (by decide),
            Option.bind_some]
          cases hcopy2 : strncpyBytes phys_addr b max { s1 with mem := s2.mem, current_directory := active } with
          | none =>
              rw [bind_of_none hcopy2]
              rfl
          | some r =>
              obtain ⟨u, s3⟩ := r
              have hs3 : s3 = { s1 with mem := s3.mem, current_directory := active } :=
                keeps_strncpyBytes _ _ _ { s1 with mem := s2.mem, current_directory := active } _ _ hcopy2
              have hbuffer3 : s3.live b = some (rawK.inj ()) := by
                rw [hs3]
                exact hbuffer
              rw [bind_of_some hcopy2, bind_of_some (kfree_of_live hbuffer3), Option.map_some, pure_apply, hs3]
              rfl
  · -- a size that is not positive is none, or far too large
    obtain ⟨ptr, s1, hrun, hcases⟩ := kzallocBytes_spec hwf (UInt32.ofInt max)
    have hnull : ptr = 0 := hcases.null_iff.mpr (noRoom_of_negative hwf hmin (by omega))
    refine Or.inl ⟨hmax', ?_, ?_⟩
    · obtain ⟨q, s2, halloc, hcases2⟩ := kzalloc_spec rawK (UInt32.ofInt max) () hwf
      have hq : bounceBuffer s max = q := (Prod.mk.inj (Option.some.inj halloc)).1
      rw [hq]
      exact (hcases2.null_iff hwf).mpr (noRoom_of_negative hwf hmin (by omega))
    · rw [bind_of_some hrun, if_pos hnull, hcases.null hnull]
      rfl

/-- Where the variable is in its place, `kernel_page` finds it. -/
theorem kernelPageAt_of_translate {s : Kernel} {address : UInt32} (h : translate s address = some address)
    (kernel_chunk : UInt32) : kernelPageAt address kernel_chunk s = kernelPage kernel_chunk s := by
  have hread : readStatic address kernel_chunk s = some (kernel_chunk, s) := by
    rw [readStatic, h, Option.bind_some, if_pos rfl]
  rw [kernelPageAt, bind_of_some hread, kernelPage]

/-- A `kernel_page` that finds the chunk of the kernel while the string is read. -/
def FindsChunk (s : Kernel) (kernel_page : KernelM Unit) (kernel_chunk directory : UInt32) (e m : Nat → UInt32)
    (max : Int) : Prop :=
  ∀ s1 live mem, Bounced s (bounceBuffer s max) directory e m s1 live →
    kernel_page (readingState s1 live directory mem) = kernelPage kernel_chunk (readingState s1 live directory mem)

theorem findsChunk_kernelPage {s : Kernel} {kernel_chunk directory : UInt32} {e m : Nat → UInt32} {max : Int} :
    FindsChunk s (kernelPage kernel_chunk) kernel_chunk directory e m max := fun _ _ _ _ => rfl

/-- The variable is found where the directory leaves the image of the kernel in place. -/
theorem findsChunk_kernelPageAt {s : Kernel} {address kernel_chunk directory : UInt32} {e m : Nat → UInt32}
    {image_end stack_begin : Nat} (hplace : KernelInPlace image_end stack_begin kernel_chunk e m)
    (haddress : 0x100 ≤ address.toNat / 4096 ∧ address.toNat / 4096 < image_end) (max : Int) :
    FindsChunk s (kernelPageAt address kernel_chunk) kernel_chunk directory e m max := by
  intro s1 live mem hbounced
  have hlt := address.toNat_lt
  obtain ⟨he, hm⟩ := hplace _ (by omega) (Or.inl haddress)
  have hb : (bounceBuffer s max).toNat % 4096 = 0 := hbounced.lent.wf.aligned hbounced.buffer
  have hdir : Directory (readingState s1 live directory mem) directory e 1024
      (Function.update m ((bounceBuffer s max).toNat / 4096) (bounceBuffer s max ||| bounceFlags)) :=
    ⟨hbounced.maps.entries, hbounced.maps.values, hbounced.maps.inj, hbounced.maps.ne⟩
  refine kernelPageAt_of_translate (hdir.translate_inPlace he ?_) kernel_chunk
  · by_cases hpage : address.toNat / 4096 = (bounceBuffer s max).toNat / 4096
    · -- the page of the buffer is mapped to itself
      rw [hpage, Function.update_self]
      refine ⟨?_, ?_⟩
      · rw [flags_or_page hb (by decide)]
        decide
      · rw [page_or_flags hb (by decide)]
        omega
    · rw [Function.update_of_ne hpage]
      exact hm

/-- The two copies of `copy_string_from_task`; the rest of it leaves no trace. -/
theorem copyStringFromTask_cases {s : Kernel} {kernel_page : KernelM Unit} {kernel_chunk task directory : UInt32}
    {e m : Nat → UInt32} (h : CopyCall s kernel_chunk task directory e m) (virtual_addr phys_addr : UInt32) {max : Int}
    (hmin : -2 ^ 31 ≤ max) (hfinds : FindsChunk s kernel_page kernel_chunk directory e m max) :
    4096 ≤ max ∧ copyStringFromTask kernel_page task virtual_addr phys_addr max s = some (- EINVARG, s) ∨
    max < 4096 ∧ bounceBuffer s max = 0 ∧
      copyStringFromTask kernel_page task virtual_addr phys_addr max s = some (- ENOMEM, s) ∨
    (0 < max ∧ max < 4096) ∧ bounceBuffer s max ≠ 0 ∧ ∃ s1 live,
      Bounced s (bounceBuffer s max) directory e m s1 live ∧
      copyStringFromTask kernel_page task virtual_addr phys_addr max s =
        (strncpyBytes (bounceBuffer s max) virtual_addr max
          (readingState s1 live directory (zeroed s.mem (bounceBuffer s max) max))).bind fun r =>
            (strncpyBytes phys_addr (bounceBuffer s max) max { s1 with mem := r.2.mem }).map fun r' =>
              (OK, { freed s1 (bounceBuffer s max) with mem := r'.2.mem }) := by
  have hpage : ∀ s1 live mem, Bounced s (bounceBuffer s max) directory e m s1 live →
      kernel_page (readingState s1 live directory mem)
        = some ((), { s1 with live := live, mem := mem, current_directory := s.current_directory }) := by
    intro s1 live mem hbounced
    rw [hfinds s1 live mem hbounced]
    exact pagingSwitch_of_live (s := readingState s1 live directory mem)
      (hbounced.other _ _ (fun t heq => by cases heq) h.kernel)
  rcases copyStringFromTask_paged h.wf h.task virtual_addr phys_addr hmin
      fun s1 live u mem hbounced _ => hpage s1 live mem hbounced with
    hlarge | hnull | ⟨hrange, hne, s1, live, hbounced, hrun⟩
  · exact Or.inl hlarge
  · exact Or.inr (Or.inl hnull)
  · refine Or.inr (Or.inr ⟨hrange, hne, s1, live, hbounced, hrun.trans ?_⟩)
    -- the directory of the kernel has been active before
    have hdirectory : s1.current_directory = s.current_directory := by rw [hbounced.lent.rest]
    rw [← hdirectory]
    rfl

/-! ## Address spaces -/

/-- Every access succeeds, at the address `f` says. -/
def Space (s : Kernel) (f : UInt32 → UInt32) : Prop := ∀ va, translate s va = some (f va)

/-- `count` bytes from `base` on, as the space sees them. -/
def run (f : UInt32 → UInt32) (base : UInt32) (i : Nat) : UInt32 := f (base + UInt32.ofNat i)

theorem writeByte_of_space {s : Kernel} {f : UInt32 → UInt32} (hspace : Space s f) (va : UInt32) (c : UInt8)
    (mem : UInt32 → UInt8) :
    writeByte va c { s with mem := mem } = some ((), { s with mem := Function.update mem (f va) c }) := by
  unfold writeByte
  rw [show translate { s with mem := mem } va = some (f va) from hspace va]
  rfl

theorem strncpyBytesLoop_run {s : Kernel} {f : UInt32 → UInt32} (hspace : Space s f) (dest src : UInt32) :
    ∀ remaining i : Nat, strncpyBytesLoop dest src remaining i
        { s with mem := copied s.mem (run f dest) (run f src) i }
      = some (strEnd (copiedByte s.mem (run f dest) (run f src)) remaining i, { s with
          mem := copied s.mem (run f dest) (run f src)
            (strEnd (copiedByte s.mem (run f dest) (run f src)) remaining i) }) := by
  intro remaining
  induction remaining with
  | zero => exact fun i => rfl
  | succ remaining ih =>
      intro i
      have hread : readByte (src + UInt32.ofNat i) { s with mem := copied s.mem (run f dest) (run f src) i }
          = some (copiedByte s.mem (run f dest) (run f src) i,
            { s with mem := copied s.mem (run f dest) (run f src) i }) :=
        readByte_eq_some.mpr ⟨_, hspace _, rfl, rfl⟩
      rw [strncpyBytesLoop, bind_of_some hread, strEnd]
      by_cases hzero : copiedByte s.mem (run f dest) (run f src) i = 0
      · rw [if_pos hzero, if_pos hzero]
        rfl
      · rw [if_neg hzero, if_neg hzero, bind_of_some (writeByte_of_space hspace _ _ _)]
        exact ih (i + 1)

/-- **`strncpy` in an address space.** -/
theorem strncpyBytes_run {s : Kernel} {f : UInt32 → UInt32} (hspace : Space s f) (dest src : UInt32) (count : Int) :
    strncpyBytes dest src count s
      = some ((), { s with mem := strCopied s.mem (run f dest) (run f src) (count - 1).toNat }) := by
  have hloop := strncpyBytesLoop_run hspace dest src (count - 1).toNat 0
  rw [copied] at hloop
  rw [strncpyBytes, bind_of_some hloop, writeByte_of_space hspace]
  rfl

/-- The space of a directory. -/
theorem Directory.space {s : Kernel} {e m : Nat → UInt32} (h : Directory s s.current_directory e 1024 m)
    (hpresent : Present e m) : Space s fun va => pageAddress (m (va.toNat / 4096)) va :=
  h.translate hpresent

theorem present_update {e m : Nat → UInt32} (h : Present e m) {b : UInt32} (hb : b.toNat % 4096 = 0) :
    Present e (Function.update m (b.toNat / 4096) (b ||| bounceFlags)) := by
  refine ⟨h.1, fun v hv => ?_⟩
  by_cases hvb : v = b.toNat / 4096
  · rw [hvb, Function.update_self, flags_or_page hb (by decide)]
    decide
  · rw [Function.update_of_ne hvb]
    exact h.2 v hv

theorem present_identity {flags : UInt32} {e : Nat → UInt32} (hflags : flags.toNat < 4096)
    (hpresent : flags &&& PAGING_IS_PRESENT ≠ 0) (he : ∀ i < 1024, e i &&& PAGING_IS_PRESENT ≠ 0) :
    Present e (identityEntry flags) :=
  ⟨he, fun _ hv => (identityEntry_mapped hflags hpresent hv).1⟩

/-- The kernel's own directory is active, and it is the identity map that `kernel_main` has made. -/
structure KernelSpace (s : Kernel) (kernel_chunk : UInt32) : Prop where
  active : s.live kernel_chunk = some (chunkK.inj s.current_directory)
  identity : Maps s kernel_chunk (identityEntry bounceFlags)

theorem KernelSpace.space {s : Kernel} {kernel_chunk : UInt32} (h : KernelSpace s kernel_chunk) : Space s id := by
  obtain ⟨directory, e, hmaps, hall⟩ := maps_iff.mp h.identity
  obtain rfl : directory = s.current_directory :=
    chunkK.inj_injective (Option.some.inj (hmaps.1.symm.trans h.active))
  have hpresent : Present e (identityEntry bounceFlags) := by
    refine present_identity (by decide) (by decide) fun i hi hzero => ?_
    have hone : e i &&& 7 &&& PAGING_IS_PRESENT = 0 := by
      rw [UInt32.and_assoc]
      exact hzero
    rw [hall i hi] at hone
    exact absurd hone (by decide)
  intro va
  rw [hmaps.2.translate hpresent va, pageAddress_identity (by decide)]
  rfl

/-- The space in which the string is read: the task's own, but for the page of the buffer. -/
def bouncedSpace (m : Nat → UInt32) (b va : UInt32) : UInt32 :=
  pageAddress (Function.update m (b.toNat / 4096) (b ||| bounceFlags) (va.toNat / 4096)) va

theorem Bounced.space {s s1 : Kernel} {b directory : UInt32} {e m : Nat → UInt32} {live : UInt32 → Option Obj}
    (h : Bounced s b directory e m s1 live) (hpresent : Present e m) (mem : UInt32 → UInt8) :
    Space (readingState s1 live directory mem) (bouncedSpace m b) := by
  have hdir : Directory (readingState s1 live directory mem) directory e 1024
      (Function.update m (b.toNat / 4096) (b ||| bounceFlags)) :=
    ⟨h.maps.entries, h.maps.values, h.maps.inj, h.maps.ne⟩
  exact hdir.space (present_update hpresent (h.lent.wf.aligned h.buffer))

theorem Bounced.kernelSpace {s s1 : Kernel} {b directory kernel_chunk : UInt32} {e m : Nat → UInt32}
    {live : UInt32 → Option Obj} (hwf : s.WF) (h : Bounced s b directory e m s1 live)
    (hkernel : KernelSpace s kernel_chunk) (mem : UInt32 → UInt8) : Space { s1 with mem := mem } id := by
  have hsince := h.lent.since hwf
  have hdirectory : s1.current_directory = s.current_directory := by rw [h.lent.rest]
  have hkernel1 : KernelSpace { s1 with mem := mem } kernel_chunk := by
    refine ⟨?_, hkernel.identity.congr fun q o _ hq => hsince.object q o hq⟩
    rw [hdirectory]
    exact hsince.object _ _ hkernel.active
  exact hkernel1.space

/-- A call that finds the chunk of the kernel changes memory only, and returns when no page faults. -/
theorem CopyCall.frame {s : Kernel} {kernel_page : KernelM Unit} {kernel_chunk task directory : UInt32}
    {e m : Nat → UInt32} (h : CopyCall s kernel_chunk task directory e m) (hclean : CleanHeap s.heap)
    (virtual_addr phys_addr : UInt32) {max : Int} (hmin : -2 ^ 31 ≤ max)
    (hfinds : FindsChunk s kernel_page kernel_chunk directory e m max) :
    Ensures (copyStringFromTask kernel_page task virtual_addr phys_addr max) s (fun _ s' => MemOnly s s') ∧
      (Present e m → KernelSpace s kernel_chunk →
        ∃ res s', copyStringFromTask kernel_page task virtual_addr phys_addr max s = some (res, s')) := by
  rcases copyStringFromTask_cases h virtual_addr phys_addr hmin hfinds with
    ⟨-, hrun⟩ | ⟨-, -, hrun⟩ | ⟨-, hne, s1, live, hbounced, hrun⟩
  · exact ⟨(ensures_of_some hrun).mpr (memOnly_frame.refl s), fun _ _ => ⟨_, _, hrun⟩⟩
  · exact ⟨(ensures_of_some hrun).mpr (memOnly_frame.refl s), fun _ _ => ⟨_, _, hrun⟩⟩
  · constructor
    · -- the buffer is given back, so only memory is left to differ
      have hback : freed s1 (bounceBuffer s max) = s :=
        (hbounced.lent.free h.wf hclean rfl).returned h.wf fun q hq => hq.1 hq.2
      intro res s' hres
      rw [hrun] at hres
      obtain ⟨r, -, hmap⟩ := Option.bind_eq_some_iff.mp hres
      obtain ⟨r', -, heq⟩ := Option.map_eq_some_iff.mp hmap
      obtain ⟨-, rfl⟩ := Prod.mk.inj heq
      rw [hback]
      rfl
    · intro hpresent hkernel
      rw [strncpyBytes_run (hbounced.space hpresent _), Option.bind_some,
        strncpyBytes_run (hbounced.kernelSpace h.wf hkernel _)] at hrun
      exact ⟨_, _, hrun⟩

/-! ## A kernel with one task -/

/-- A kernel makes its own directory and switches it on, and makes a task with a directory. -/
def oneTask : KernelM (UInt32 × UInt32) := do
  let kernel_chunk ← pagingNew4gb bounceFlags
  pagingSwitch kernel_chunk
  let task ← kzalloc taskK SIZEOF_TASK {}
  let page_directory ← pagingNew4gb taskFlags
  store taskK task { page_directory := page_directory }
  assign fun s => { s with current_task := task }
  return (kernel_chunk, task)

/-- What `oneTask` leaves. -/
structure OneTask (s0 : Kernel) (kernel_chunk task directory : UInt32) (e : Nat → UInt32) (s : Kernel) : Prop where
  call : CopyCall s kernel_chunk task directory e (identityEntry taskFlags)
  present : Present e (identityEntry taskFlags)
  kernel : KernelSpace s kernel_chunk
  clean : CleanHeap s.heap
  count : freeCount s.heap + 2053 = freeCount s0.heap
  mem : s.mem = s0.mem
  current : s.current_task = task
  task : ∃ t, s.live task = some (taskK.inj t) ∧ t.registers = {}

theorem oneTask_spec {s0 : Kernel} (hwf : s0.WF) (hclean : CleanHeap s0.heap) (hroom : 2053 ≤ freeCount s0.heap) :
    ∃ kernel_chunk task directory e s, oneTask s0 = some ((kernel_chunk, task), s) ∧
      OneTask s0 kernel_chunk task directory e s := by
  have hone : blocksFor SIZEOF_TASK = 1 := by decide
  rcases pagingNew4gb_cases hwf (by decide : bounceFlags.toNat < 4096) with
    ⟨hlt, -⟩ | ⟨kernel_chunk, kernel_directory, ke, s1, hrun1, -, hnew1, hcount1⟩
  · omega
  -- the kernel's directory is switched on
  have hwf1 : Kernel.WF { s1 with current_directory := kernel_directory } :=
    hnew1.lent.wf.of_live rfl fun _ o ho => ⟨o, ho⟩
  obtain ⟨task, s2, halloc, hcases⟩ := kzalloc_spec taskK SIZEOF_TASK {} hwf1
  have hne : task ≠ 0 := by
    intro hnull
    have hcount := (noRoom_one_iff hone).mp ((hcases.null_iff hwf1).mp hnull)
    change freeCount s1.heap = 0 at hcount
    omega
  obtain ⟨hfree, htask⟩ := hcases.live hne
  have hcount2 := hcases.freeCount hwf1 hne
  change freeCount s2.heap + blocksFor SIZEOF_TASK = freeCount s1.heap at hcount2
  have hlent2 := (Lent.refl hwf1).alloc hwf1 hone hcases hne
  have hwf2 := hlent2.wf
  have hsince2 := hlent2.since hwf1
  rcases pagingNew4gb_cases hwf2 (by decide : taskFlags.toNat < 4096) with
    ⟨hlt, -⟩ | ⟨chunk, directory, e, s3, hrun3, -, hnew3, hcount3⟩
  · omega
  have hsince3 := hnew3.lent.since hwf2
  have htask3 : s3.live task = some (taskK.inj {}) := hsince3.object _ _ htask
  refine ⟨kernel_chunk, task, directory, e, { s3 with
    live := taskK.write s3.live task { page_directory := chunk }
    current_task := task }, ?_, ?_⟩
  · rw [oneTask, bind_of_some hrun1, bind_of_some (pagingSwitch_of_live hnew1.maps.1), bind_of_some halloc,
      bind_of_some hrun3, bind_of_some (store_of_live htask3 _)]
    rfl
  · -- the objects of the directories are where they were
    have hkeep : ∀ q o, (∀ t, o ≠ taskK.inj t) → s3.live q = some o →
        taskK.write s3.live task { page_directory := chunk } q = some o := by
      intro q o ho hq
      have hqt : q ≠ task := by
        rintro rfl
        exact ho _ (Option.some.inj (hq.symm.trans htask3))
      exact (Kind.write_of_ne _ _ _ hqt).trans hq
    have hdirectory : s3.current_directory = kernel_directory := by rw [hnew3.lent.rest, hlent2.rest]
    have hkernel : taskK.write s3.live task { page_directory := chunk } kernel_chunk
        = some (chunkK.inj s3.current_directory) := by
      rw [hdirectory]
      exact hkeep _ _ (fun t heq => by cases heq) (hsince3.object _ _ (hsince2.object _ _ hnew1.maps.1))
    have hwf3 := hnew3.lent.wf.write (k := taskK) htask3 { page_directory := chunk }
    have hmaps := hnew3.maps
    refine ⟨⟨⟨hwf3.start, hwf3.total, hwf3.block⟩, ⟨_, Kind.write_self .., ?_, ?_, fun i hi => ?_, hmaps.2.inj,
      hmaps.2.ne⟩, hkernel⟩, ?_, ⟨hkernel, ?_⟩, ?_, ?_, ?_, rfl, ⟨_, Kind.write_self .., rfl⟩⟩
    · exact hkeep _ _ (fun t heq => by cases heq) hmaps.1
    · exact hkeep _ _ (fun t heq => by cases heq) hmaps.2.entries
    · obtain ⟨t, ht, hvalues⟩ := hmaps.2.values i hi
      exact ⟨t, hkeep _ _ (fun t heq => by cases heq) ht, hvalues⟩
    · refine present_identity (by decide) (by decide) fun i hi hzero => ?_
      have hlow : (e i &&& 0xfff) &&& PAGING_IS_PRESENT = 0 := by
        rw [UInt32.and_assoc]
        exact hzero
      rw [hnew3.flags i hi] at hlow
      exact absurd hlow (by decide)
    · refine (hnew1.allows (by decide)).congr fun q o ho hq => ?_
      refine hkeep q o (fun t heq => ?_) (hsince3.object _ _ (hsince2.object _ _ hq))
      rw [heq] at ho
      cases ho
    · have hclean1 : CleanHeap s1.heap := hnew1.lent.clean hwf hclean
      have hclean3 : CleanHeap s3.heap := hnew3.lent.clean hwf2 (hlent2.clean hwf1 hclean1)
      exact hclean3
    · show freeCount s3.heap + 2053 = freeCount s0.heap
      omega
    · show s3.mem = s0.mem
      rw [hnew3.lent.rest, hlent2.rest, hnew1.lent.rest]

end RasOS
