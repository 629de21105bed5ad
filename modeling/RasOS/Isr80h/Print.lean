import RasOS.Task.BounceBuffer

set_option autoImplicit false

/-! # The print system call (`isr80h/syscalls.c`)

`isr80h_command1_print` copies the string of the task to a buffer on the stack of the kernel and prints
the buffer, whether or not the copy succeeded. -/

namespace RasOS

open Machine

/-! ## The model -/

/-- The characters of the string at `str`, from byte `i` on: `strlen` and the loop of `terminal_print`. -/
def readStringLoop (str : UInt32) : (remaining i : Nat) → KernelM (List UInt8)
  | 0, _ => stop
  | remaining + 1, i => do
      let c ← readByte (str + UInt32.ofNat i)
      if c = 0 then
        return []
      else do
        let cs ← readStringLoop str remaining (i + 1)
        return c :: cs

/-- The number of addresses: a string that is longer does not end. -/
def ADDRESSES : Nat := 2 ^ 32

def readString (str : UInt32) : KernelM (List UInt8) := readStringLoop str ADDRESSES 0

/-- `isr80h_command1_print`, with its 1024 bytes `buf` on the stack; it returns what is printed. -/
def isr80hCommand1PrintBy (kernel_page : KernelM Unit) (buf : UInt32) : KernelM (List UInt8) := do
  let task ← taskCurrent
  let user_space_msg_buffer ← taskGetStackItem kernel_page task 0
  let task ← taskCurrent
  let _ ← copyStringFromTask kernel_page task user_space_msg_buffer buf 1024
  readString buf

/-- It, where the variable of `kernel_page` is in its place. -/
def isr80hCommand1Print (kernel_chunk buf : UInt32) : KernelM (List UInt8) :=
  isr80hCommand1PrintBy (kernelPage kernel_chunk) buf

/-! ## Its parts -/

theorem readByte_of_space {s : Kernel} {f : UInt32 → UInt32} (hspace : Space s f) (va : UInt32) :
    readByte va s = some (s.mem (f va), s) :=
  readByte_eq_some.mpr ⟨_, hspace va, rfl, rfl⟩

theorem readStringLoop_run {s : Kernel} {f : UInt32 → UInt32} (hspace : Space s f) {str : UInt32} {u : Nat → UInt8}
    {k : Nat} (hbytes : ∀ i < k, s.mem (run f str i) = u i) (hnonzero : ∀ i < k, u i ≠ 0)
    (hzero : s.mem (run f str k) = 0) :
    ∀ remaining i : Nat, i ≤ k → k < i + remaining →
      readStringLoop str remaining i s = some ((List.range' i (k - i)).map u, s) := by
  intro remaining
  induction remaining with
  | zero => intro i h1 h2; omega
  | succ remaining ih =>
      intro i h1 h2
      rw [readStringLoop, bind_of_some (readByte_of_space hspace _)]
      by_cases hik : i = k
      · rw [if_pos (by rw [hik]; exact hzero), hik, Nat.sub_self]
        rfl
      · have hi : i < k := by omega
        have hbyte : s.mem (f (str + UInt32.ofNat i)) = u i := hbytes i hi
        rw [hbyte, if_neg (hnonzero i hi), bind_of_some (ih (i + 1) (by omega) (by omega)),
          show k - i = k - (i + 1) + 1 by omega, List.range'_succ, List.map_cons]
        rfl

/-- Reading a string that memory holds. -/
theorem readString_run {s : Kernel} {f : UInt32 → UInt32} (hspace : Space s f) {str : UInt32} {u : Nat → UInt8}
    {n : Nat} (h : HoldsString s.mem (run f str) u n) (hn : n < ADDRESSES) :
    readString str s = some (cString u n, s) := by
  obtain ⟨k, hend, hbytes, hzero⟩ := h
  have hle := hend.le
  rw [readString, readStringLoop_run hspace hbytes hend.nonzero hzero ADDRESSES 0 (Nat.zero_le k) (by omega),
    hend.cString, List.range_eq_range', Nat.sub_zero]

/-- The word at `va`, as a task with the entries `m` reads it. -/
def taskWord (mem : UInt32 → UInt8) (m : Nat → UInt32) (va : UInt32) : UInt32 :=
  (taskByte mem m va 0).toUInt32 ||| (taskByte mem m va 1).toUInt32 <<< 8 |||
    (taskByte mem m va 2).toUInt32 <<< 16 ||| (taskByte mem m va 3).toUInt32 <<< 24

theorem taskWord_run {s : Kernel} {m : Nat → UInt32} (hspace : Space s fun va => pageAddress (m (va.toNat / 4096)) va)
    (va : UInt32) : readWord va s = some (taskWord s.mem m va, s) := by
  have hfirst : taskByte s.mem m va 0 = s.mem (pageAddress (m (va.toNat / 4096)) va) := by
    rw [taskByte, taskAddress, show va + UInt32.ofNat 0 = va from UInt32.add_zero va]
  rw [readWord, bind_of_some (readByte_of_space hspace _), bind_of_some (readByte_of_space hspace _),
    bind_of_some (readByte_of_space hspace _), bind_of_some (readByte_of_space hspace _), taskWord, hfirst]
  rfl

/-- An item on the stack of a task, as the task reads it; `kernel_page` is to find the chunk of the kernel from
there. -/
theorem taskGetStackItem_run {s : Kernel} {kernel_page : KernelM Unit} {kernel_chunk task directory : UInt32}
    {e m : Nat → UInt32} {t : Task} (h : CopyCall s kernel_chunk task directory e m)
    (ht : s.live task = some (taskK.inj t)) (hpresent : Present e m)
    (hpage : kernel_page { s with current_directory := directory } =
      kernelPage kernel_chunk { s with current_directory := directory }) (index : Int) :
    taskGetStackItem kernel_page task index s =
      some (taskWord s.mem m (t.registers.esp + UInt32.ofInt (4 * index)), s) := by
  obtain ⟨t', ht', hmaps⟩ := h.task
  obtain rfl : t' = t := taskK.inj_injective (Option.some.inj (ht'.symm.trans ht))
  have hdir : Directory { s with current_directory := directory } directory e 1024 m :=
    ⟨hmaps.2.entries, hmaps.2.values, hmaps.2.inj, hmaps.2.ne⟩
  have hspace : Space { s with current_directory := directory } fun va => pageAddress (m (va.toNat / 4096)) va :=
    hdir.space hpresent
  have hswitch : kernel_page { s with current_directory := directory } = some ((), s) :=
    hpage.trans (pagingSwitch_of_live (s := { s with current_directory := directory }) h.kernel)
  rw [taskGetStackItem, bind_of_some (load_of_live ht), bind_of_some (pagingSwitch_of_live hmaps.1),
    bind_of_some (taskWord_run hspace _), bind_of_some hswitch]
  rfl

/-- The first item. -/
theorem taskGetStackItem_first {s : Kernel} {kernel_page : KernelM Unit} {kernel_chunk task directory : UInt32}
    {e m : Nat → UInt32} {t : Task} (h : CopyCall s kernel_chunk task directory e m)
    (ht : s.live task = some (taskK.inj t)) (hpresent : Present e m)
    (hpage : kernel_page { s with current_directory := directory } =
      kernelPage kernel_chunk { s with current_directory := directory }) :
    taskGetStackItem kernel_page task 0 s = some (taskWord s.mem m t.registers.esp, s) := by
  have hfirst : t.registers.esp + UInt32.ofInt (4 * 0) = t.registers.esp := UInt32.add_zero _
  have hitem := taskGetStackItem_run h ht hpresent hpage 0
  rw [hfirst] at hitem
  exact hitem

/-! ## Two contents of the buffer -/

/-- The state with `c` in the buffer. -/
def withBuffer (s : Kernel) (buf : UInt32) (c : Nat → UInt8) : Kernel :=
  { s with mem := fun a => if (a - buf).toNat < 1024 then c (a - buf).toNat else s.mem a }

/-- What is printed, if the call returns. -/
def printed (kernel_chunk buf : UInt32) (s : Kernel) : Option (List UInt8) :=
  (isr80hCommand1Print kernel_chunk buf s).map Prod.fst

/-- What is printed does not depend on what has been in the buffer. -/
def PrintsAlike (kernel_chunk buf : UInt32) (s : Kernel) : Prop :=
  ∀ c c' : Nat → UInt8, printed kernel_chunk buf (withBuffer s buf c) = printed kernel_chunk buf (withBuffer s buf c')

/-- A task that makes the call, and the buffer on the stack of the kernel. The item on the stack of the task,
the pointer to the string, is not in the buffer. -/
structure PrintCall (s : Kernel) (kernel_chunk directory buf : UInt32) (e m : Nat → UInt32) (t : Task) : Prop where
  call : CopyCall s kernel_chunk s.current_task directory e m
  task : s.live s.current_task = some (taskK.inj t)
  present : Present e m
  kernel : KernelSpace s kernel_chunk
  buffer : OwnedBuffer s.heap buf 1024
  item : ∀ k < 4, 1024 ≤ (taskAddress m t.registers.esp k - buf).toNat

section Runs

variable {s : Kernel} {kernel_chunk directory buf : UInt32} {e m : Nat → UInt32} {t : Task}

/-- The user pointer. -/
def userPointer (s : Kernel) (m : Nat → UInt32) (t : Task) : UInt32 := taskWord s.mem m t.registers.esp

theorem PrintCall.withBuffer (h : PrintCall s kernel_chunk directory buf e m t) (c : Nat → UInt8) :
    PrintCall (withBuffer s buf c) kernel_chunk directory buf e m t := by
  obtain ⟨t', ht', hmaps⟩ := h.call.task
  exact ⟨⟨⟨h.call.wf.start, h.call.wf.total, h.call.wf.block⟩,
    ⟨t', ht', hmaps.1, hmaps.2.entries, hmaps.2.values, hmaps.2.inj, hmaps.2.ne⟩, h.call.kernel⟩, h.task, h.present,
    ⟨h.kernel.active, h.kernel.identity.congr fun _ _ _ hq => hq⟩, h.buffer, h.item⟩

theorem PrintCall.userPointer_withBuffer (h : PrintCall s kernel_chunk directory buf e m t) (c : Nat → UInt8) :
    userPointer (RasOS.withBuffer s buf c) m t = userPointer s m t := by
  have hbyte : ∀ k < 4, taskByte (RasOS.withBuffer s buf c).mem m t.registers.esp k
      = taskByte s.mem m t.registers.esp k := by
    intro k hk
    have hfar := h.item k hk
    exact if_neg (by omega)
  unfold userPointer taskWord
  rw [hbyte 0 (by decide), hbyte 1 (by decide), hbyte 2 (by decide), hbyte 3 (by decide)]

/-- The bytes the copy reads. -/
def readByteOf (s : Kernel) (m : Nat → UInt32) (va : UInt32) : Nat → UInt8 :=
  bouncedByte s.mem m (bounceBuffer s 1024) va 1024

/-- With a bounce buffer, what the copy has read is printed. -/
theorem PrintCall.printed_copy (h : PrintCall s kernel_chunk directory buf e m t) (hne : bounceBuffer s 1024 ≠ 0) :
    printed kernel_chunk buf s = some (cString (readByteOf s m (userPointer s m t)) 1023) := by
  have hitem : taskGetStackItem (kernelPage kernel_chunk) s.current_task 0 s = some (userPointer s m t, s) :=
    taskGetStackItem_first h.call h.task h.present rfl
  rcases copyStringFromTask_mem h.call h.present h.kernel (userPointer s m t) buf (by decide : 0 < (1024 : Int))
    (by decide) findsChunk_kernelPage with ⟨hnull, -⟩ | ⟨-, s1, live, hbounced, hcopy⟩
  · exact absurd hnull hne
  · have hholds := (hbounced.holds_iff h.buffer (by decide) (by decide)
      (readByteOf s m (userPointer s m t))).mpr fun _ _ _ => rfl
    generalize strCopied (strCopied (zeroed s.mem (bounceBuffer s 1024) 1024) _ _ _) _ _ _ = mem at hcopy hholds
    have hread := readString_run (s := { freed s1 (bounceBuffer s 1024) with mem := mem })
      (hbounced.freedSpace h.call.wf h.kernel mem) hholds (by decide)
    unfold printed isr80hCommand1Print isr80hCommand1PrintBy
    rw [taskCurrent, bind_of_some (fetch_apply _ _), bind_of_some hitem, bind_of_some (fetch_apply _ _),
      bind_of_some hcopy, hread]
    rfl

/-- Without one, what has been in the buffer is printed. -/
theorem PrintCall.printed_stale (h : PrintCall s kernel_chunk directory buf e m t) (hnull : bounceBuffer s 1024 = 0) :
    printed kernel_chunk buf s = (readString buf s).map Prod.fst := by
  have hitem : taskGetStackItem (kernelPage kernel_chunk) s.current_task 0 s = some (userPointer s m t, s) :=
    taskGetStackItem_first h.call h.task h.present rfl
  rcases copyStringFromTask_mem h.call h.present h.kernel (userPointer s m t) buf (by decide : 0 < (1024 : Int))
    (by decide) findsChunk_kernelPage with ⟨-, hcopy⟩ | ⟨hne, -⟩
  · unfold printed isr80hCommand1Print isr80hCommand1PrintBy
    rw [taskCurrent, bind_of_some (fetch_apply _ _), bind_of_some hitem, bind_of_some (fetch_apply _ _),
      bind_of_some hcopy]
  · exact absurd hnull hne

/-- The bounce buffer is not in the buffer on the stack. -/
theorem PrintCall.bounce_outside (h : PrintCall s kernel_chunk directory buf e m t) (hne : bounceBuffer s 1024 ≠ 0)
    {o : Nat} (ho : o < 4096) : 1024 ≤ (bounceBuffer s 1024 + UInt32.ofNat o - buf).toNat := by
  rcases copyStringFromTask_mem h.call h.present h.kernel 0 buf (by decide : 0 < (1024 : Int)) (by decide)
      findsChunk_kernelPage with
    ⟨hnull, -⟩ | ⟨-, s1, live, hbounced, -⟩
  · exact absurd hnull hne
  · by_contra hlt
    have hapart := hbounced.apart (h.buffer (bounceBuffer s 1024 + UInt32.ofNat o - buf).toNat (by omega)) ho
    rw [UInt32.ofNat_toNat, UInt32.add_comm, UInt32.sub_add_cancel] at hapart
    exact hapart rfl

/-- Byte `i` of the string at `va` is read from the buffer on the stack. -/
def InBuffer (s : Kernel) (m : Nat → UInt32) (va buf : UInt32) (i : Nat) : Prop :=
  ¬ ReadsBuffer m (bounceBuffer s 1024) va i ∧ (taskAddress m va i - buf).toNat < 1024

/-- One byte, with another content of the buffer. -/
theorem PrintCall.readByteOf_withBuffer (h : PrintCall s kernel_chunk directory buf e m t)
    (hne : bounceBuffer s 1024 ≠ 0) (c : Nat → UInt8) (va : UInt32) {i : Nat} (hi : i < 1023)
    (hbefore : ∀ j < i, readByteOf (RasOS.withBuffer s buf c) m va j = readByteOf s m va j) :
    (InBuffer s m va buf i → readByteOf (RasOS.withBuffer s buf c) m va i = c (taskAddress m va i - buf).toNat) ∧
      (¬ InBuffer s m va buf i → readByteOf (RasOS.withBuffer s buf c) m va i = readByteOf s m va i) := by
  have hb : (bounceBuffer s 1024).toNat % 4096 = 0 := by
    rcases bounceBuffer_block h.call.wf (by decide : 0 < (1024 : Int)) (by decide) with ⟨hnull, -⟩ | ⟨-, -, c, -, hblock⟩
    · exact absurd hnull hne
    · omega
  have hi' : (i : Int) < 1024 := by omega
  have hbyte := @bouncedByte_eq s.mem m (bounceBuffer s 1024) va 1024 i hb (by decide) hi'
  have hbyte' := @bouncedByte_eq (RasOS.withBuffer s buf c).mem m (bounceBuffer s 1024) va 1024 i hb (by decide) hi'
  change readByteOf s m va i = _ at hbyte
  change readByteOf (RasOS.withBuffer s buf c) m va i = _ at hbyte'
  rw [hbyte, hbyte']
  by_cases hreads : ReadsBuffer m (bounceBuffer s 1024) va i
  · -- from the bounce buffer, or from its page
    refine ⟨fun hin => absurd hreads hin.1, fun _ => ?_⟩
    rw [if_pos hreads, if_pos hreads, bufferByte, bufferByte]
    by_cases hlt : pageOffset va i < i
    · rw [if_pos hlt, if_pos hlt]
      exact hbefore _ hlt
    · have hoffset : pageOffset va i < 4096 := Nat.mod_lt _ (by decide)
      have hfar := h.bounce_outside hne hoffset
      rw [if_neg hlt, if_neg hlt]
      refine ite_congr rfl (fun _ => rfl) fun _ => if_neg (by omega)
  · rw [if_neg hreads, if_neg hreads]
    exact ⟨fun hin => if_pos hin.2, fun hout => if_neg fun hlt => hout ⟨hreads, hlt⟩⟩

/-- Bytes before any from the buffer do not depend on it. -/
theorem PrintCall.readByteOf_before (h : PrintCall s kernel_chunk directory buf e m t)
    (hne : bounceBuffer s 1024 ≠ 0) (c : Nat → UInt8) (va : UInt32) {n : Nat} (hn : n ≤ 1023)
    (hout : ∀ i < n, ¬ InBuffer s m va buf i) :
    ∀ i < n, readByteOf (RasOS.withBuffer s buf c) m va i = readByteOf s m va i := by
  intro i
  induction i using Nat.strong_induction_on with
  | _ i ih =>
      intro hi
      exact (h.readByteOf_withBuffer hne c va (by omega) fun j hj => ih j hj (hj.trans hi)).2 (hout i hi)

/-- Without a bounce buffer the content of the buffer itself is printed. -/
theorem PrintCall.printed_content (h : PrintCall s kernel_chunk directory buf e m t) (hnull : bounceBuffer s 1024 = 0)
    {c : Nat → UInt8} (hc : c 1023 = 0) :
    printed kernel_chunk buf (RasOS.withBuffer s buf c) = some (cString c 1023) := by
  have hbyte : ∀ i < 1024, (RasOS.withBuffer s buf c).mem (run id buf i) = c i := by
    intro i hi
    have hoffset : (run id buf i - buf).toNat = i := toNat_offset buf (by omega)
    show (if (run id buf i - buf).toNat < 1024 then c (run id buf i - buf).toNat else _) = c i
    rw [hoffset, if_pos hi]
  have hend := strEnd_spec c 1023
  have hzero : c (strEnd c 1023 0) = 0 := by
    rcases Nat.lt_or_eq_of_le hend.le with hlt | heq
    · exact hend.zero hlt
    · rw [heq, hc]
  have hholds : HoldsString (RasOS.withBuffer s buf c).mem (run id buf) c 1023 := by
    have hle := hend.le
    exact ⟨_, hend, fun i hi => hbyte i (by omega), (hbyte _ (by omega)).trans hzero⟩
  rw [(h.withBuffer c).printed_stale hnull, readString_run (h.withBuffer c).kernel.space hholds (by decide)]
  rfl

end Runs

theorem taskAddress_identity {flags : UInt32} (hflags : flags.toNat < 4096) (va : UInt32) (i : Nat) :
    taskAddress (identityEntry flags) va i = va + UInt32.ofNat i := pageAddress_identity hflags _

/-- The task of `oneTask` makes the call, the buffer below the top of the kernel's stack. -/
theorem oneTask_print {n : Nat} (h1 : 2053 ≤ n) (h2 : n ≤ 25600) : ∃ kernel_chunk task directory e s t,
    oneTask (filledKernel n) = some ((kernel_chunk, task), s) ∧
      PrintCall s kernel_chunk directory 0x005FF000 e (identityEntry taskFlags) t ∧
      freeCount s.heap + 2053 = n ∧ userPointer s (identityEntry taskFlags) t = 0x42424242 := by
  obtain ⟨kernel_chunk, task, directory, e, s, hrun, hone, hcount⟩ := filledKernel_oneTask h1 h2
  obtain ⟨t, ht, hregisters⟩ := hone.task
  have hcall := hone.call
  rw [← hone.current] at hcall ht
  refine ⟨kernel_chunk, task, directory, e, s, t, hrun, ⟨hcall, ht, hone.present, hone.kernel,
    owned_buffer hone.call.wf (by decide), fun k hk => ?_⟩, hcount, ?_⟩
  · rw [taskAddress_identity (by decide), hregisters, UInt32.toNat_sub, UInt32.toNat_add, UInt32.toNat_ofNat',
      show (0x005FF000 : UInt32).toNat = 0x005FF000 from rfl, show (0 : UInt32).toNat = 0 from rfl]
    omega
  · have hbyte : ∀ k, taskByte s.mem (identityEntry taskFlags) t.registers.esp k = 0x42 := by
      intro k
      rw [taskByte, hone.mem]
      rfl
    rw [userPointer, taskWord, hbyte, hbyte, hbyte, hbyte]
    decide

end RasOS
