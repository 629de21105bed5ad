import RasOS.Keyboard.Fifo

set_option autoImplicit false

/-! # Runs of the keyboard buffer

A run is any sequence of `keyboard_push`, `keyboard_pop` and `keyboard_backspace` on one process. Head
and tail stay indexes of the buffer, and a reader that polls once round the ring gets every character
there is. `keyboard_backspace` moves the tail back by one, but not from `0` to the last cell. -/

namespace RasOS

open Machine

/-! ## Calls -/

inductive KeyCall
  | push (c : UInt8)
  | pop
  | backspace

/-- The call on process `p`, and the character it returns when it is a pop. -/
def KeyCall.run (p : UInt32) : KeyCall → KernelM (List UInt8)
  | .push c => do
      keyboardPush c
      return []
  | .pop => do
      let ch ← keyboardPop
      return [ch]
  | .backspace => do
      keyboardBackspace p
      return []

/-- What the pops of a sequence of calls return. -/
def keyCalls (p : UInt32) : List KeyCall → KernelM (List UInt8)
  | [] => return []
  | call :: calls => do
      let chars ← call.run p
      let rest ← keyCalls p calls
      return chars ++ rest

/-- What a call returns, and the buffer it leaves. -/
def KeyCall.next (kb : KeyboardBuffer) : KeyCall → List UInt8 × KeyboardBuffer
  | .push c => ([], if c = 0 then kb else kb.push c)
  | .pop => ([kb.pop.1], kb.pop.2)
  | .backspace => ([], kb.backspace)

/-- The same for a sequence of calls. -/
def KeyboardBuffer.after (kb : KeyboardBuffer) : List KeyCall → List UInt8 × KeyboardBuffer
  | [] => ([], kb)
  | call :: calls =>
      let rest := KeyboardBuffer.after (call.next kb).2 calls
      ((call.next kb).1 ++ rest.1, rest.2)

section Runs

variable {k : Kernel} {p t : UInt32} {kb kb' : KeyboardBuffer}

theorem Attached.unique (h : Attached k p t kb) (h' : Attached k p t kb') : kb = kb' := by
  obtain ⟨pr, hpr, rfl⟩ := h.process
  obtain ⟨pr', hpr', rfl⟩ := h'.process
  rw [hpr] at hpr'
  rw [processK.inj_injective (Option.some.inj hpr')]

theorem keyboardBackspace_spec (h : Attached k p t kb) :
    ∃ k', keyboardBackspace p k = some ((), k') ∧ Attached k' p t kb.backspace := by
  obtain ⟨pr, hpr, rfl⟩ := h.process
  refine ⟨_, ?_, h.write { pr with keyboard := pr.keyboard.backspace } rfl⟩
  rw [keyboardBackspace, bind_of_some (load_of_live hpr), store_of_live hpr]

/-- A NUL is not stored. -/
theorem keyboardPush_nul (h : Attached k p t kb) : keyboardPush 0 k = some ((), k) := by
  have hcur := h.current_process
  have hne := h.process_ne
  subst hcur
  rw [keyboardPush, bind_of_some (fetch_apply _ _), if_neg hne, if_pos rfl]
  rfl

/-- **What one call does.** -/
theorem KeyCall.run_spec (h : Attached k p t kb) (call : KeyCall) :
    ∃ k', call.run p k = some ((call.next kb).1, k') ∧ Attached k' p t (call.next kb).2 := by
  cases call with
  | push c =>
      by_cases hc : c = 0
      · subst hc
        refine ⟨k, ?_, ?_⟩
        · exact bind_of_some (keyboardPush_nul h)
        · rw [KeyCall.next, if_pos rfl]
          exact h
      · obtain ⟨k', hpush, hk'⟩ := keyboardPush_spec h hc
        refine ⟨k', bind_of_some hpush, ?_⟩
        rw [KeyCall.next, if_neg hc]
        exact hk'
  | pop =>
      obtain ⟨k', hpop, hk'⟩ := keyboardPop_spec h
      exact ⟨k', bind_of_some hpop, hk'⟩
  | backspace =>
      obtain ⟨k', hback, hk'⟩ := keyboardBackspace_spec h
      exact ⟨k', bind_of_some hback, hk'⟩

/-- **What a run does.** -/
theorem keyCalls_spec (calls : List KeyCall) : ∀ {k : Kernel} {kb : KeyboardBuffer}, Attached k p t kb →
    ∃ k', keyCalls p calls k = some ((kb.after calls).1, k') ∧ Attached k' p t (kb.after calls).2 := by
  induction calls with
  | nil => exact fun h => ⟨_, rfl, h⟩
  | cons call calls ih =>
      intro k kb h
      obtain ⟨k1, hcall, h1⟩ := call.run_spec h
      obtain ⟨k2, hcalls, h2⟩ := ih h1
      refine ⟨k2, ?_, h2⟩
      rw [keyCalls, bind_of_some hcall, bind_of_some hcalls]
      rfl

/-- A run that is known: the buffer it leaves. -/
theorem keyCalls_attached {k' : Kernel} {calls : List KeyCall} {chars : List UInt8}
    (h : Attached k p t kb) (hrun : keyCalls p calls k = some (chars, k')) :
    Attached k' p t (kb.after calls).2 := by
  obtain ⟨k2, hcalls, h2⟩ := keyCalls_spec calls h
  rw [hcalls] at hrun
  obtain ⟨-, rfl⟩ := Prod.mk.inj (Option.some.inj hrun)
  exact h2

end Runs

/-! ## The indexes -/

/-- Head and tail are indexes of the buffer. -/
structure IndexesValid (kb : KeyboardBuffer) : Prop where
  head : 0 ≤ kb.head ∧ kb.head < RASOS_KEYBOARD_BUFFER_SIZE
  tail : 0 ≤ kb.tail ∧ kb.tail < RASOS_KEYBOARD_BUFFER_SIZE

theorem IndexesValid.zero : IndexesValid {} := ⟨by decide, by decide⟩

/-- An index moved on by one is an index. -/
theorem index_next {i : Int} (h : 0 ≤ i ∧ i < RASOS_KEYBOARD_BUFFER_SIZE) :
    0 ≤ (if i + 1 ≥ RASOS_KEYBOARD_BUFFER_SIZE then 0 else i + 1) ∧
      (if i + 1 ≥ RASOS_KEYBOARD_BUFFER_SIZE then 0 else i + 1) < RASOS_KEYBOARD_BUFFER_SIZE := by
  obtain ⟨hlow, hhigh⟩ := h
  rw [RASOS_KEYBOARD_BUFFER_SIZE] at hhigh ⊢
  split <;> omega

theorem IndexesValid.next {kb : KeyboardBuffer} (h : IndexesValid kb) (call : KeyCall) :
    IndexesValid (call.next kb).2 := by
  cases call with
  | push c =>
      rw [KeyCall.next]
      split
      · exact h
      · exact ⟨h.head, index_next h.tail⟩
  | pop => exact ⟨index_next h.head, h.tail⟩
  | backspace =>
      refine ⟨h.head, ?_⟩
      obtain ⟨hlow, hhigh⟩ := h.tail
      show 0 ≤ (if kb.tail - 1 < 0 then 0 else kb.tail - 1) ∧
        (if kb.tail - 1 < 0 then 0 else kb.tail - 1) < RASOS_KEYBOARD_BUFFER_SIZE
      rw [RASOS_KEYBOARD_BUFFER_SIZE] at hhigh ⊢
      split <;> omega

theorem IndexesValid.after {calls : List KeyCall} : ∀ {kb : KeyboardBuffer}, IndexesValid kb →
    IndexesValid (kb.after calls).2 := by
  induction calls with
  | nil => exact fun h => h
  | cons call calls ih => exact fun h => ih (h.next call)

/-! ## Polling -/

/-- The cells of the buffer. -/
def KeyboardBuffer.cell (kb : KeyboardBuffer) (i : Nat) : UInt8 := kb.buffer i

/-- What a reader gets that polls the buffer once round, and what it leaves. -/
structure Swept (kb : KeyboardBuffer) (chars : List UInt8) (kb' : KeyboardBuffer) : Prop where
  order : chars = around 1024 kb.cell kb.head.toNat 1024
  once : chars.Perm ((List.range 1024).map kb.cell)
  empty : ∀ i, i < 1024 → kb'.cell i = 0
  head : kb'.head = kb.head
  tail : kb'.tail = kb.tail

theorem pop_cell {kb : KeyboardBuffer} {head : Nat} (hh : kb.head = head) :
    kb.pop.2.cell = Function.update kb.cell head 0 := by
  show (fun i : Nat => Function.update kb.buffer kb.head 0 i) = _
  rw [hh, update_cells]
  rfl

theorem pop_head {kb : KeyboardBuffer} {head : Nat} (hh : kb.head = head) (hhead : head < 1024) :
    kb.pop.2.head = ((head + 1) % 1024 : Nat) := by
  show (if kb.head + 1 ≥ _ then _ else _) = _
  rw [hh, wrapped_succ hhead]

/-- Pops go round the buffer and clear the cells they meet. By induction on the pops, each of which
begins one cell further on. -/
theorem after_pops (count : Nat) : ∀ {kb : KeyboardBuffer} {head : Nat}, kb.head = head → head < 1024 →
    count ≤ 1024 →
    (kb.after (List.replicate count .pop)).1 = around 1024 kb.cell head count ∧
    (kb.after (List.replicate count .pop)).2.head = ((head + count) % 1024 : Nat) ∧
    (kb.after (List.replicate count .pop)).2.tail = kb.tail ∧
    (∀ i, kb.cell i = 0 → (kb.after (List.replicate count .pop)).2.cell i = 0) ∧
    ∀ i, i < count → (kb.after (List.replicate count .pop)).2.cell ((head + i) % 1024) = 0 := by
  induction count with
  | zero =>
      intro kb head hh hhead _
      refine ⟨rfl, ?_, rfl, fun _ h => h, fun i hi => absurd hi (Nat.not_lt_zero i)⟩
      rw [Nat.add_zero, Nat.mod_eq_of_lt hhead]
      exact hh
  | succ count ih =>
      intro kb head hh hhead hcount
      obtain ⟨hchars, hhead', htail', hkept, hcleared⟩ := ih (pop_head hh hhead)
        (Nat.mod_lt _ (by decide)) (by omega)
      have hcell := pop_cell hh
      rw [List.replicate_succ]
      refine ⟨?_, ?_, htail', fun i hi => hkept i ?_, fun i hi => ?_⟩
      · show kb.pop.1 :: (kb.pop.2.after (List.replicate count .pop)).1 = _
        rw [hchars, hcell, around_update hhead (by omega), around_succ, Nat.mod_eq_of_lt hhead]
        show kb.buffer kb.head :: _ = _
        rw [hh]
        rfl
      · show (kb.pop.2.after (List.replicate count .pop)).2.head = _
        rw [hhead', Nat.mod_add_mod, Nat.add_right_comm, Nat.add_assoc]
      · rw [hcell, Function.update_apply]
        split
        · rfl
        · exact hi
      · cases i with
        | zero =>
            refine hkept _ ?_
            rw [hcell, Nat.add_zero, Nat.mod_eq_of_lt hhead, Function.update_self]
        | succ i =>
            have hoffset := hcleared i (by omega)
            rw [Nat.mod_add_mod, show head + 1 + i = head + (i + 1) by omega] at hoffset
            exact hoffset

/-- **A reader that polls once round the ring gets what there is.** In every state that pushes, pops and
backspaces can reach from the zeroed buffer, head and tail are indexes of the buffer, and as many pops
as it has cells return each cell once, in cyclic order from the head, and leave all of them empty and
the head where it was. -/
theorem keyboard_sweep {k k' : Kernel} {p t : UInt32} (h : Attached k p t {}) {calls : List KeyCall}
    {chars : List UInt8} (hrun : keyCalls p calls k = some (chars, k')) :
    ∃ kb, Attached k' p t kb ∧ IndexesValid kb ∧
      Total (keyCalls p (List.replicate 1024 .pop)) k' fun chars k'' =>
        ∃ kb', Attached k'' p t kb' ∧ Swept kb chars kb' := by
  have hkb := keyCalls_attached h hrun
  have hvalid : IndexesValid (KeyboardBuffer.after {} calls).2 := IndexesValid.zero.after
  generalize (KeyboardBuffer.after {} calls).2 = kb at hkb hvalid
  refine ⟨kb, hkb, hvalid, ?_⟩
  obtain ⟨k'', hpops, hk''⟩ := keyCalls_spec (List.replicate 1024 .pop) hkb
  refine ⟨_, k'', hpops, _, hk'', ?_⟩
  obtain ⟨hlow, hhigh⟩ := hvalid.head
  have hhead : kb.head = kb.head.toNat := (Int.toNat_of_nonneg hlow).symm
  have hlt : kb.head.toNat < 1024 := by
    rw [RASOS_KEYBOARD_BUFFER_SIZE] at hhigh
    omega
  obtain ⟨hchars, hhead', htail', -, hcleared⟩ := after_pops 1024 hhead hlt (Nat.le_refl _)
  refine ⟨hchars, ?_, fun i hi => ?_, ?_, htail'⟩
  · rw [hchars]
    exact around_perm hlt
  · obtain ⟨j, hj, rfl⟩ := ring_offset_surj hlt hi
    exact hcleared j hj
  · rw [hhead', Nat.add_mod_right, Nat.mod_eq_of_lt hlt, ← hhead]

/-- A character typed and taken back. -/
theorem keyboard_sweep_typed : ∃ chars k', keyCalls 0x01002000 [.push 97, .pop, .push 98, .backspace]
      keyboardKernel = some (chars, k') ∧
    ∃ kb, Attached k' 0x01002000 0x01001000 kb ∧ IndexesValid kb ∧
      Total (keyCalls 0x01002000 (List.replicate 1024 .pop)) k' fun chars k'' =>
        ∃ kb', Attached k'' 0x01002000 0x01001000 kb' ∧ Swept kb chars kb' := by
  obtain ⟨k', hrun, -⟩ := keyCalls_spec [.push 97, .pop, .push 98, .backspace] keyboardKernel_attached
  exact ⟨_, k', hrun, keyboard_sweep keyboardKernel_attached hrun⟩

/-! ## Taking a character back -/

/-- Typing the character and taking it back leaves the buffer, the head and the tail as they were. -/
def Undoes (k : Kernel) (p t : UInt32) (c : UInt8) : Prop :=
  ∃ kb, Attached k p t kb ∧
    Total (keyboardPush c >>= fun _ => keyboardBackspace p) k fun _ k' => Attached k' p t kb

/-- No character is unread. -/
def NothingUnread (kb : KeyboardBuffer) : Prop := ∀ i, i < 1024 → kb.cell i = 0

/-- Whatever is called afterwards, the pops return what they return without the backspace. -/
def BackspaceUnobserved (k : Kernel) (p : UInt32) : Prop :=
  ∀ calls, (keyCalls p calls k).map Prod.fst =
    ((keyboardBackspace p >>= fun _ => keyCalls p calls) k).map Prod.fst

/-- A backspace that moves the tail to `tail`. -/
theorem backspace_eq {kb : KeyboardBuffer} {tail : Int}
    (h : (if kb.tail - 1 < 0 then 0 else kb.tail - 1) = tail) :
    kb.backspace = { kb with buffer := Function.update kb.buffer tail 0, tail := tail } := by
  subst h
  rfl

theorem push_backspace_iff {kb : KeyboardBuffer} (h : IndexesValid kb) {c : UInt8} :
    (kb.push c).backspace = kb ↔ kb.tail ≠ 1023 ∧ kb.buffer kb.tail = 0 := by
  obtain ⟨hlow, hhigh⟩ := h.tail
  rw [RASOS_KEYBOARD_BUFFER_SIZE] at hhigh
  by_cases hlast : kb.tail = 1023
  · -- the push has wrapped the tail to 0, and from there it does not go back
    have htail : (kb.push c).backspace.tail = 0 := by
      have hwrapped : (kb.push c).tail = 0 := if_pos (by rw [hlast]; decide)
      exact if_pos (by rw [hwrapped]; decide)
    refine iff_of_false (fun heq => ?_) fun h => h.1 hlast
    rw [heq, hlast] at htail
    exact absurd htail (by decide)
  · have hnext : (kb.push c).tail = kb.tail + 1 := if_neg (by rw [RASOS_KEYBOARD_BUFFER_SIZE]; omega)
    have hback : (if (kb.push c).tail - 1 < 0 then 0 else (kb.push c).tail - 1) = kb.tail := by
      rw [hnext, Int.add_sub_cancel, if_neg (not_lt.mpr hlow)]
    have hpushed : (kb.push c).buffer = Function.update kb.buffer kb.tail c := rfl
    have hkb : (kb.push c).backspace =
        { kb with buffer := Function.update kb.buffer kb.tail 0 } := by
      rw [backspace_eq hback, hpushed, Function.update_idem]
      rfl
    rw [hkb, and_iff_right hlast]
    constructor
    · intro heq
      have hbuffer := congrArg KeyboardBuffer.buffer heq
      exact (Function.update_eq_self_iff.mp hbuffer).symm
    · intro hzero
      rw [Function.update_eq_self_iff.mpr hzero.symm]

theorem undoes_iff {k : Kernel} {p t : UInt32} {kb : KeyboardBuffer} (h : Attached k p t kb)
    (hvalid : IndexesValid kb) {c : UInt8} (hc : c ≠ 0) :
    Undoes k p t c ↔ kb.tail ≠ 1023 ∧ kb.buffer kb.tail = 0 := by
  obtain ⟨k1, hpush, h1⟩ := keyboardPush_spec h hc
  obtain ⟨k2, hback, h2⟩ := keyboardBackspace_spec h1
  have hrun := (bind_of_some (f := fun _ => keyboardBackspace p) hpush).trans hback
  rw [← push_backspace_iff hvalid (c := c)]
  constructor
  · rintro ⟨kb', h', htotal⟩
    obtain rfl := h.unique h'
    exact h2.unique ((total_of_some hrun).mp htotal)
  · intro heq
    rw [heq] at h2
    exact ⟨kb, h, (total_of_some hrun).mpr h2⟩

/-- What the pops of the two runs return, by the buffers. -/
theorem backspaceUnobserved_iff {k : Kernel} {p t : UInt32} {kb : KeyboardBuffer}
    (h : Attached k p t kb) :
    BackspaceUnobserved k p ↔ ∀ calls, (kb.after calls).1 = (kb.backspace.after calls).1 := by
  obtain ⟨k1, hback, h1⟩ := keyboardBackspace_spec h
  refine forall_congr' fun calls => ?_
  obtain ⟨k2, hcalls, -⟩ := keyCalls_spec calls h
  obtain ⟨k3, hcalls', -⟩ := keyCalls_spec calls h1
  rw [bind_of_some hback, hcalls, hcalls']
  exact Option.some_inj

theorem after_push {kb : KeyboardBuffer} {c : UInt8} (hc : c ≠ 0) (calls : List KeyCall) :
    (kb.after (.push c :: calls)).1 = ((kb.push c).after calls).1 := by
  rw [KeyboardBuffer.after, KeyCall.next, if_neg hc]
  rfl

/-- A reader that polls after one more character has been typed finds it at the distance of the tail from
the head. -/
theorem after_push_pops {kb : KeyboardBuffer} {head tail i : Nat} (hh : kb.head = head)
    (hhead : head < 1024) (ht : kb.tail = tail) (hi : i < 1024) (hempty : NothingUnread kb) :
    (kb.after (.push 1 :: List.replicate 1024 .pop)).1[i]? =
      some (if (head + i) % 1024 = tail then 1 else 0) := by
  have hcell : (kb.push 1).cell = Function.update kb.cell tail 1 := by
    show (fun i : Nat => Function.update kb.buffer kb.tail 1 i) = _
    rw [ht, update_cells]
    rfl
  have hpushed : (kb.push 1).head = head := hh
  rw [after_push (by decide), (after_pops 1024 hpushed hhead (Nat.le_refl _)).1, around_getElem? _ _ hi, hcell,
    Function.update_apply]
  split
  · rfl
  · rw [hempty _ (Nat.mod_lt _ (by decide))]

/-- On an empty buffer a backspace shows, unless the tail is at the beginning. -/
theorem backspace_empty_iff {kb : KeyboardBuffer} (hvalid : IndexesValid kb) (hempty : NothingUnread kb) :
    (∀ calls, (kb.after calls).1 = (kb.backspace.after calls).1) ↔ kb.tail = 0 := by
  obtain ⟨hlow, hhigh⟩ := hvalid.head
  obtain ⟨htlow, hthigh⟩ := hvalid.tail
  rw [RASOS_KEYBOARD_BUFFER_SIZE] at hhigh hthigh
  have hhead : kb.head = kb.head.toNat := (Int.toNat_of_nonneg hlow).symm
  have htail : kb.tail = kb.tail.toNat := (Int.toNat_of_nonneg htlow).symm
  constructor
  · intro hsame
    by_contra hne
    -- the character typed next is found at the tail before, but not at the tail after
    have hback : (if kb.tail - 1 < 0 then 0 else kb.tail - 1) = (kb.tail.toNat - 1 : Nat) := by
      rw [if_neg (by omega)]
      omega
    have hcells : kb.backspace.cell = Function.update kb.cell (kb.tail.toNat - 1) 0 := by
      rw [backspace_eq hback]
      exact update_cells kb.buffer _ 0
    have hempty' : NothingUnread kb.backspace := by
      intro i hi
      rw [hcells, Function.update_apply]
      split
      · rfl
      · exact hempty i hi
    obtain ⟨i, hi, hoffset⟩ : ∃ i, i < 1024 ∧ (kb.head.toNat + i) % 1024 = kb.tail.toNat :=
      ring_offset_surj (by omega) (by omega)
    have hbefore := after_push_pops hhead (by omega) htail hi hempty
    have hhead' : kb.backspace.head = kb.head.toNat := hhead
    have hafter := after_push_pops hhead' (by omega) hback hi hempty'
    rw [hsame, hafter, hoffset, if_pos rfl, if_neg (by omega)] at hbefore
    exact absurd hbefore (by decide)
  · intro hzero calls
    have hsame : kb.backspace = kb := by
      have hcell : kb.buffer 0 = 0 := hempty 0 (by decide)
      have hback : (if kb.tail - 1 < 0 then 0 else kb.tail - 1) = 0 := by
        rw [hzero]
        rfl
      rw [backspace_eq hback, Function.update_eq_self_iff.mpr hcell.symm, ← hzero]
    rw [hsame]

/-- **When backspace is right.** In every state that pushes, pops and backspaces can reach from the zeroed
buffer: it undoes a push exactly when the tail is not in the last cell and the cell at the tail is
free, and on a buffer without unread characters it cannot be noticed exactly when the tail is at the
beginning. -/
theorem keyboard_backspace_iff {k k' : Kernel} {p t : UInt32} (h : Attached k p t {})
    {calls : List KeyCall} {chars : List UInt8} (hrun : keyCalls p calls k = some (chars, k'))
    {kb : KeyboardBuffer} (hkb : Attached k' p t kb) {c : UInt8} (hc : c ≠ 0) :
    (Undoes k' p t c ↔ kb.tail ≠ 1023 ∧ kb.buffer kb.tail = 0) ∧
      (NothingUnread kb → (BackspaceUnobserved k' p ↔ kb.tail = 0)) := by
  have hvalid : IndexesValid kb := by
    rw [hkb.unique (keyCalls_attached h hrun)]
    exact IndexesValid.zero.after
  exact ⟨undoes_iff hkb hvalid hc,
    fun hempty => (backspaceUnobserved_iff hkb).trans (backspace_empty_iff hvalid hempty)⟩

/-- After one character typed and read. -/
theorem keyboard_backspace_typed : ∃ chars k' kb,
    keyCalls 0x01002000 [.push 97, .pop] keyboardKernel = some (chars, k') ∧
    Attached k' 0x01002000 0x01001000 kb ∧
    (Undoes k' 0x01002000 0x01001000 98 ↔ kb.tail ≠ 1023 ∧ kb.buffer kb.tail = 0) ∧
      (NothingUnread kb → (BackspaceUnobserved k' 0x01002000 ↔ kb.tail = 0)) := by
  obtain ⟨k', hrun, hkb⟩ := keyCalls_spec [.push 97, .pop] keyboardKernel_attached
  exact ⟨_, k', _, hrun, hkb, keyboard_backspace_iff keyboardKernel_attached hrun hkb (by decide)⟩

/-- Typing moves the tail on. -/
theorem after_pushes_tail {c : UInt8} (hc : c ≠ 0) (count : Nat) :
    ∀ {kb : KeyboardBuffer} {tail : Nat}, kb.tail = tail → tail + count < 1024 →
      (kb.after (List.replicate count (.push c))).2.tail = (tail + count : Nat) := by
  induction count with
  | zero => exact fun ht _ => ht
  | succ count ih =>
      intro kb tail ht hlt
      have hnext : (kb.push c).tail = (tail + 1 : Nat) := by
        show (if kb.tail + 1 ≥ _ then _ else _) = _
        rw [ht, wrapped_succ (by omega), Nat.mod_eq_of_lt (by omega)]
      rw [List.replicate_succ, KeyboardBuffer.after, KeyCall.next, if_neg hc, ih hnext (by omega)]
      omega

/-- A character that wraps the tail is not taken back. And when everything typed has been read, a backspace
moves the tail behind the head: the character typed next is not read. -/
theorem keyboard_backspace_wrong :
    (∃ chars k', keyCalls 0x01002000 (List.replicate 1023 (.push 97)) keyboardKernel = some (chars, k') ∧
      ¬ Undoes k' 0x01002000 0x01001000 98) ∧
    (keyCalls 0x01002000 [.push 97, .pop, .push 98, .pop] keyboardKernel).map Prod.fst = some [97, 98] ∧
    (keyCalls 0x01002000 [.push 97, .pop, .backspace, .push 98, .pop] keyboardKernel).map Prod.fst =
      some [97, 0] := by
  refine ⟨?_, by decide +kernel, by decide +kernel⟩
  obtain ⟨k', hrun, hkb⟩ := keyCalls_spec (List.replicate 1023 (.push 97)) keyboardKernel_attached
  refine ⟨_, k', hrun, fun hundoes => ?_⟩
  have hempty : ({} : KeyboardBuffer).tail = (0 : Nat) := rfl
  have hlast := after_pushes_tail (by decide : (97 : UInt8) ≠ 0) 1023 hempty (by decide)
  exact ((undoes_iff hkb IndexesValid.zero.after (by decide)).mp hundoes).1 hlast

end RasOS
