import RasOS.Keyboard.Keyboard
import RasOS.Kernel.StateLemmas
import RasOS.Lib.Ring
import RasOS.Lib.Run

set_option autoImplicit false

/-! # The keyboard buffer as a queue

A run is a sequence of `keyboard_push` and `keyboard_pop` on one process that is both in the
foreground and current. Beside the kernel its state carries the queue of the characters not read
yet. `keyboard_pop` moves the head on even when there is nothing to read, and then the head is no
longer where the next character will be stored: the buffer serves the queue as long as the pops
that found nothing had gone round the ring a whole number of times whenever a character was pushed
(`keyboard_fifo_iff`). -/

namespace RasOS

open Machine

/-- The kernel, the characters typed but not read yet, and how many pops found nothing to read. -/
structure KeyState where
  kernel : Kernel
  unread : List UInt8
  idle : Nat

inductive KeyOp
  | push (c : UInt8)
  | pop

/-- One call. At most `RASOS_KEYBOARD_BUFFER_SIZE` characters may be unread. -/
def keyStep (st : KeyState) : KeyOp → Option KeyState
  | .push c =>
      if c ≠ 0 ∧ st.unread.length < 1024 then
        (keyboardPush c st.kernel).map fun r => ⟨r.2, st.unread ++ [c], st.idle⟩
      else none
  | .pop => (keyboardPop st.kernel).map fun r =>
      ⟨r.2, st.unread.tail, if st.unread = [] then st.idle + 1 else st.idle⟩

/-- A pop in this state returns the oldest unread character, or `0` when there is none. -/
def Serves (st : KeyState) : Prop :=
  ∃ k', keyboardPop st.kernel = some (st.unread.headD 0, k')

/-- A character is pushed only when the idle pops have taken the head round the whole ring. -/
def PushInSync (st : KeyState) : KeyOp → Prop
  | .push _ => 1024 ∣ st.idle
  | .pop => True

/-- Process `p` with the buffer `kb` is in the foreground, and task `t` of `p` is current. -/
structure Attached (k : Kernel) (p t : UInt32) (kb : KeyboardBuffer) : Prop where
  process_ne : p ≠ 0
  task_ne : t ≠ 0
  current_process : k.current_process = p
  current_task : k.current_task = t
  task : ∃ tk : Task, k.live t = some (taskK.inj tk) ∧ tk.process = p
  process : ∃ pr : Process, k.live p = some (processK.inj pr) ∧ pr.keyboard = kb

/-- Writing the process record changes its buffer and nothing else that matters here. -/
theorem Attached.write {k : Kernel} {p t : UInt32} {kb kb' : KeyboardBuffer}
    (h : Attached k p t kb) (pr : Process) (hpr : pr.keyboard = kb') :
    Attached { k with live := processK.write k.live p pr } p t kb' := by
  obtain ⟨tk, htk, htp⟩ := h.task
  obtain ⟨pr0, hpr0, -⟩ := h.process
  have hne : t ≠ p := by
    rintro rfl
    rw [htk] at hpr0
    cases hpr0
  exact ⟨h.process_ne, h.task_ne, h.current_process, h.current_task,
    ⟨tk, (Kind.write_of_ne _ _ _ hne).trans htk, htp⟩, ⟨pr, Kind.write_self .., hpr⟩⟩

theorem keyboardPush_spec {k : Kernel} {p t : UInt32} {kb : KeyboardBuffer}
    (h : Attached k p t kb) {c : UInt8} (hc : c ≠ 0) :
    ∃ k', keyboardPush c k = some ((), k') ∧ Attached k' p t (kb.push c) := by
  obtain ⟨pr, hpr, hkb⟩ := h.process
  refine ⟨_, ?_, h.write { pr with keyboard := pr.keyboard.push c } (by rw [← hkb])⟩
  have hcur := h.current_process
  have hne := h.process_ne
  subst hcur
  rw [keyboardPush, bind_of_some (fetch_apply _ _), if_neg hne, if_neg hc,
    bind_of_some (load_of_live hpr), store_of_live hpr]

theorem keyboardPop_spec {k : Kernel} {p t : UInt32} {kb : KeyboardBuffer}
    (h : Attached k p t kb) :
    ∃ k', keyboardPop k = some (kb.pop.1, k') ∧ Attached k' p t kb.pop.2 := by
  obtain ⟨tk, htk, rfl⟩ := h.task
  obtain ⟨pr, hpr, rfl⟩ := h.process
  refine ⟨_, ?_, h.write { pr with keyboard := pr.keyboard.pop.2 } rfl⟩
  have hcur := h.current_task
  have hne := h.task_ne
  subst hcur
  rw [keyboardPop, taskCurrent, bind_of_some (fetch_apply _ _), if_neg hne,
    bind_of_some (load_of_live htk), bind_of_some (load_of_live hpr)]
  exact bind_of_some (store_of_live hpr _)

/-! ## The ring in the buffer -/

/-- The buffer holds the unread characters from its head on, and the head has run ahead of them by
the idle pops. -/
structure RingInv (kb : KeyboardBuffer) (unread : List UInt8) (idle : Nat) : Prop where
  ring : ∃ head tail : Nat, kb.head = head ∧ kb.tail = tail ∧ tail < 1024 ∧
    Holds 1024 0 (fun i => kb.buffer i) head unread ∧
    (head + unread.length) % 1024 = (tail + idle) % 1024
  sync : unread ≠ [] → 1024 ∣ idle

theorem RingInv.zero : RingInv {} [] 0 :=
  ⟨⟨0, 0, rfl, rfl, by decide, ⟨by decide, Nat.zero_le _, fun _ _ => rfl⟩, rfl⟩,
    fun h => absurd rfl h⟩

theorem RingInv.pop_fst {kb : KeyboardBuffer} {q : List UInt8} {n : Nat} (h : RingInv kb q n) :
    kb.pop.1 = q.headD 0 := by
  obtain ⟨head, tail, hh, -, -, hring, -⟩ := h.ring
  show kb.buffer kb.head = _
  rw [hh]
  exact hring.cell_head

/-- The cells of the buffer after a write, by natural index. -/
theorem update_cells (f : Int → UInt8) (j : Nat) (c : UInt8) :
    (fun i : Nat => Function.update f (j : Int) c i) = Function.update (fun i : Nat => f i) j c := by
  funext i
  by_cases h : i = j
  · rw [h, Function.update_self, Function.update_self]
  · rw [Function.update_of_ne h, Function.update_of_ne (by omega)]

theorem wrapped_succ {i : Nat} (hi : i < 1024) :
    (if (i : Int) + 1 ≥ RASOS_KEYBOARD_BUFFER_SIZE then 0 else (i : Int) + 1)
      = ((i + 1) % 1024 : Nat) := by
  rw [← ring_succ hi, RASOS_KEYBOARD_BUFFER_SIZE]
  split <;> split <;> omega

theorem RingInv.pop {kb : KeyboardBuffer} {q : List UInt8} {n : Nat} (h : RingInv kb q n) :
    RingInv kb.pop.2 q.tail (if q = [] then n + 1 else n) := by
  obtain ⟨⟨head, tail, hh, ht, htail, hring, hdist⟩, hsync⟩ := h
  have hhead : kb.pop.2.head = ((head + 1) % 1024 : Nat) := by
    show (if kb.head + 1 ≥ _ then _ else _) = _
    rw [hh, wrapped_succ hring.head_lt]
  have hbuf : (fun i : Nat => kb.pop.2.buffer i)
      = Function.update (fun i : Nat => kb.buffer i) head 0 := by
    show (fun i : Nat => Function.update kb.buffer kb.head 0 i) = _
    rw [hh, update_cells]
  cases q with
  | nil =>
      have hzero : Function.update (fun i : Nat => kb.buffer i) head 0 = fun i : Nat => kb.buffer i :=
        Function.update_eq_self_iff.mpr hring.cell_head.symm
      refine ⟨⟨(head + 1) % 1024, tail, hhead, ht, htail, ?_, ?_⟩, fun hne => absurd rfl hne⟩
      · rw [hbuf, hzero]
        exact hring.empty_move (Nat.mod_lt _ (by decide))
      · rw [if_pos rfl]
        simp only [List.length_nil, List.tail_nil] at hdist ⊢
        omega
  | cons x q =>
      have hn : 1024 ∣ n := hsync (List.cons_ne_nil x q)
      rw [if_neg (List.cons_ne_nil x q)]
      refine ⟨⟨(head + 1) % 1024, tail, hhead, ht, htail, ?_, ?_⟩, fun _ => hn⟩
      · rw [hbuf]
        exact hring.pop
      · rw [List.length_cons] at hdist
        rw [List.tail_cons]
        omega

/-- In sync, a push appends to the queue. -/
theorem RingInv.push {kb : KeyboardBuffer} {q : List UInt8} {n : Nat} (h : RingInv kb q n)
    (c : UInt8) (hq : q.length < 1024) (hn : 1024 ∣ n) : RingInv (kb.push c) (q ++ [c]) n := by
  obtain ⟨⟨head, tail, hh, ht, htail, hring, hdist⟩, -⟩ := h
  have hpos : tail = (head + q.length) % 1024 := by omega
  refine ⟨⟨head, (tail + 1) % 1024, hh, ?_, Nat.mod_lt _ (by decide), ?_, ?_⟩, fun _ => hn⟩
  · show (if kb.tail + 1 ≥ _ then _ else _) = _
    rw [ht, wrapped_succ htail]
  · show Holds 1024 0 (fun i : Nat => Function.update kb.buffer kb.tail c i) _ _
    rw [ht, update_cells, hpos]
    exact hring.push c hq
  · rw [List.length_append, List.length_singleton]
    omega

/-- Out of sync, the pushed character is not where the next pop looks. -/
theorem RingInv.push_lost {kb : KeyboardBuffer} {q : List UInt8} {n : Nat} (h : RingInv kb q n)
    {c : UInt8} (hc : c ≠ 0) (hn : ¬ 1024 ∣ n) : (kb.push c).pop.1 ≠ (q ++ [c]).headD 0 := by
  obtain ⟨⟨head, tail, hh, ht, htail, hring, hdist⟩, hsync⟩ := h
  have hnil : q = [] := by
    by_contra hne
    exact hn (hsync hne)
  subst hnil
  have hne : (head : Int) ≠ tail := by
    rw [List.length_nil] at hdist
    omega
  show Function.update kb.buffer kb.tail c kb.head ≠ c
  rw [hh, ht, Function.update_of_ne hne]
  intro heq
  exact hc (heq.symm.trans hring.cell_head)

/-! ## Runs -/

/-- A run from a state in which the buffer holds the queue. -/
theorem keyboard_fifo_from {p t : UInt32} (ops : List KeyOp) {k : Kernel} {kb : KeyboardBuffer}
    {q : List UInt8} {n : Nat} (hk : Attached k p t kb) (hring : RingInv kb q n) :
    AllStates keyStep Serves ⟨k, q, n⟩ ops ↔ AllSteps keyStep PushInSync ⟨k, q, n⟩ ops := by
  induction ops generalizing k kb q n with
  | nil =>
      obtain ⟨k', hpop, -⟩ := keyboardPop_spec hk
      rw [hring.pop_fst] at hpop
      exact ⟨fun _ => trivial, fun _ => ⟨k', hpop⟩⟩
  | cons op ops ih =>
      obtain ⟨k', hpop, hk'⟩ := keyboardPop_spec hk
      have hserves : Serves ⟨k, q, n⟩ := ⟨k', by rw [hpop, hring.pop_fst]⟩
      cases op with
      | pop =>
          have hstep : keyStep ⟨k, q, n⟩ .pop
              = some ⟨k', q.tail, if q = [] then n + 1 else n⟩ := by
            rw [keyStep, hpop]
            rfl
          rw [allStates_cons_of_some hstep, allSteps_cons_of_some hstep, and_iff_right hserves,
            ih hk' hring.pop]
          exact (and_iff_right trivial).symm
      | push c =>
          by_cases hposs : c ≠ 0 ∧ q.length < 1024
          · obtain ⟨k1, hpush, hk1⟩ := keyboardPush_spec hk hposs.1
            have hstep : keyStep ⟨k, q, n⟩ (.push c) = some ⟨k1, q ++ [c], n⟩ := by
              rw [keyStep, if_pos hposs, hpush]
              rfl
            rw [allStates_cons_of_some hstep, allSteps_cons_of_some hstep, and_iff_right hserves]
            by_cases hn : 1024 ∣ n
            · rw [ih hk1 (hring.push c hposs.2 hn)]
              exact (and_iff_right hn).symm
            · refine ⟨fun hall => ?_, fun hall => absurd hall.1 hn⟩
              obtain ⟨k2, hpop1, -⟩ := keyboardPop_spec hk1
              obtain ⟨k3, hpop2⟩ := hall.first
              rw [hpop1] at hpop2
              exact absurd (Prod.mk.inj (Option.some.inj hpop2)).1 (hring.push_lost hposs.1 hn)
          · -- the push is not possible, so the run ends here
            have hnone : keyStep ⟨k, q, n⟩ (.push c) = none := if_neg hposs
            constructor
            · intro _ s' hs'
              rw [hnone] at hs'
              cases hs'
            · exact fun _ => ⟨hserves, fun s' hs' => by rw [hnone] at hs'; cases hs'⟩

/-- **When the keyboard is a queue.** From the zeroed buffer, in every run: every pop, wherever it
is made, returns the oldest unread character or `0`, if and only if at every push of the run the
number of pops that had found nothing to read is a multiple of the size of the ring. -/
theorem keyboard_fifo_iff {k : Kernel} {p t : UInt32} (h : Attached k p t {}) (ops : List KeyOp) :
    AllStates keyStep Serves ⟨k, [], 0⟩ ops ↔ AllSteps keyStep PushInSync ⟨k, [], 0⟩ ops :=
  keyboard_fifo_from ops h RingInv.zero

/-- A kernel whose foreground process at `0x01002000` has the task at `0x01001000`. -/
def keyboardKernel : Kernel where
  heap := ⟨memsetEntries (fun _ => HEAP_BLOCK_ENTRY_FREE) HEAP_BLOCK_ENTRY_TAKEN 4, 25600,
    RASOS_HEAP_ADDRESS, kheapTotal_lt⟩
  mem := fun _ => 0
  live := processK.write
    (taskK.write (fun _ => none) 0x01001000 { process := 0x01002000 })
    0x01002000 { task := 0x01001000 }
  drive := fun _ _ => none
  requests := []
  disk := {}
  file_descriptors := fun _ => 0
  processes := Function.update (fun _ => 0) 0 0x01002000
  current_process := 0x01002000
  current_task := 0x01001000
  task_head := 0x01001000
  task_tail := 0x01001000
  current_directory := 0

theorem keyboardKernel_attached : Attached keyboardKernel 0x01002000 0x01001000 {} where
  process_ne := by decide
  task_ne := by decide
  current_process := rfl
  current_task := rfl
  task := ⟨_, rfl, rfl⟩
  process := ⟨_, rfl, rfl⟩

/-- Two characters typed before the first read. -/
theorem keyboard_fifo_typed :
    Attached keyboardKernel 0x01002000 0x01001000 {} ∧
      (AllStates keyStep Serves ⟨keyboardKernel, [], 0⟩ [.push 97, .push 98, .pop] ↔
        AllSteps keyStep PushInSync ⟨keyboardKernel, [], 0⟩ [.push 97, .push 98, .pop]) :=
  ⟨keyboardKernel_attached, keyboard_fifo_iff keyboardKernel_attached _⟩

/-- A program that asks for a key before one is typed: the character typed next is not read. -/
theorem keyboard_loses_key :
    Attached keyboardKernel 0x01002000 0x01001000 {} ∧
      ∃ st, runFrom keyStep ⟨keyboardKernel, [], 0⟩ [.pop, .push 97] = some st ∧
        st.unread = [97] ∧ (keyboardPop st.kernel).map Prod.fst = some 0 :=
  ⟨keyboardKernel_attached, _, rfl, rfl, rfl⟩

end RasOS
