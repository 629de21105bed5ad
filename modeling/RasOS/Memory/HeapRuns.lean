import RasOS.Memory.HeapSpec
import RasOS.Lib.Run

set_option autoImplicit false

/-! # Runs of the heap

A run starts from a heap built by `heap_create` and is any sequence of `heap_malloc` calls and of
`heap_free` calls on live pointers. Beside the heap its state carries the list of live
allocations, pointer and requested size; the code has no such list, the extent of an allocation
is only encoded in the table. `LiveInv` ties the two together.

`heap_free` does not look at the extent (`heapMarkBlocksFree_entries`), so an allocation of more
than one block leaves taken entries behind. Those entries are never handed out again, which is
why the live allocations still stay apart, and never become free again. -/

namespace RasOS

open Machine

/-- The heap and its live allocations: pointer and requested size. -/
structure HeapState where
  heap : Heap
  live : List (UInt32 × UInt32)

inductive HeapOp
  | malloc (size : UInt32)
  | free (ptr : UInt32)

/-- One call. A null result adds no live allocation; only a live pointer may be freed. -/
def heapStep (st : HeapState) : HeapOp → Option HeapState
  | .malloc size =>
      let r := heapMalloc st.heap size
      some ⟨r.2, if r.1 = 0 then st.live else (r.1, size) :: st.live⟩
  | .free ptr =>
      if ptr ∈ st.live.map Prod.fst then
        some ⟨heapFree st.heap ptr, st.live.filter fun a => a.1 ≠ ptr⟩
      else none

/-- The block a pointer points to. -/
def firstBlock (heap : Heap) (ptr : UInt32) : Nat := (ptr - heap.start_address).toNat / 4096

/-- Block `i` belongs to the allocation `a`. -/
def Covers (heap : Heap) (a : UInt32 × UInt32) (i : Nat) : Prop :=
  firstBlock heap a.1 ≤ i ∧ i < firstBlock heap a.1 + blocksFor a.2

/-- No block belongs to both allocations. -/
def Apart (heap : Heap) (a c : UInt32 × UInt32) : Prop :=
  ∀ i, ¬ (Covers heap a i ∧ Covers heap c i)

instance (heap : Heap) : Std.Symm (Apart heap) where
  symm _ _ h i hi := h i ⟨hi.2, hi.1⟩

/-- **The heap invariant.** -/
structure LiveInv (st : HeapState) : Prop where
  address : ∀ a ∈ st.live, a.1 = heapBlockToAddress st.heap (firstBlock st.heap a.1)
  nonempty : ∀ a ∈ st.live, 0 < blocksFor a.2
  inside : ∀ a ∈ st.live, firstBlock st.heap a.1 + blocksFor a.2 ≤ st.heap.total
  taken : ∀ a ∈ st.live, ∀ i, Covers st.heap a i → isBlockTaken (st.heap.entries i) = true
  apart : st.live.Pairwise (Apart st.heap)
  clean : ∀ i : Nat, i < st.heap.total → isBlockTaken (st.heap.entries i) = false →
    st.heap.entries i = HEAP_BLOCK_ENTRY_FREE

theorem firstBlock_lt {st : HeapState} (hinv : LiveInv st) {a : UInt32 × UInt32}
    (ha : a ∈ st.live) : firstBlock st.heap a.1 < 2 ^ 20 := by
  have h1 := hinv.inside a ha
  have h2 := hinv.nonempty a ha
  have h3 := st.heap.total_lt
  omega

@[simp] theorem firstBlock_heapBlockToAddress (heap : Heap) {b : Nat} (hb : b < 2 ^ 20) :
    firstBlock heap (heapBlockToAddress heap b) = b := by
  rw [firstBlock, heapBlockToAddress_sub heap hb]
  omega

theorem covers_first {st : HeapState} (hinv : LiveInv st) {a : UInt32 × UInt32}
    (ha : a ∈ st.live) : Covers st.heap a (firstBlock st.heap a.1) := by
  have := hinv.nonempty a ha
  exact ⟨Nat.le_refl _, by omega⟩

/-! ## `heap_free` on a live pointer -/

/-- Freeing a live pointer clears the first entry of its allocation, when its offset from the
start of the heap fits an `int`; otherwise it clears a byte in front of the table. -/
theorem heapFree_entries {st : HeapState} (hinv : LiveInv st) {a : UInt32 × UInt32}
    (ha : a ∈ st.live) (i : Nat) :
    (heapFree st.heap a.1).entries i =
      if i = firstBlock st.heap a.1 ∧ i < 2 ^ 19 then HEAP_BLOCK_ENTRY_FREE
      else st.heap.entries i := by
  have hlt := firstBlock_lt hinv ha
  have hin := hinv.inside a ha
  have hpos := hinv.nonempty a ha
  rw [heapFree, hinv.address a ha, heapMarkBlocksFree_entries,
    firstBlock_heapBlockToAddress st.heap hlt]
  generalize firstBlock st.heap a.1 = b at hlt hin
  by_cases hb : b < 2 ^ 19
  · rw [heapAddressToBlock_of_lt st.heap hb, if_pos (by omega)]
    by_cases hi : i = b
    · rw [if_pos ⟨hi, by omega⟩, hi, Function.update_self]
    · rw [if_neg (fun h => hi h.1), Function.update_of_ne (by omega)]
  · rw [heapAddressToBlock_of_ge st.heap (by omega) hlt, if_pos (by omega),
      if_neg (by omega), Function.update_of_ne (by omega)]

/-! ## Every run keeps the invariant -/

theorem LiveInv.of_create {table : Int → UInt8} {start size : UInt32} {heap : Heap}
    (h : heapCreate table start size = .ok heap) : LiveInv ⟨heap, []⟩ := by
  refine ⟨by simp, by simp, by simp, by simp, .nil, fun i hi _ => ?_⟩
  unfold heapCreate at h
  split at h
  · cases h
  · split at h
    · cases h
    · obtain rfl := Except.ok.inj h
      exact if_pos ⟨Int.natCast_nonneg i, Int.ofNat_lt.mpr hi⟩

/-- The blocks of an allocation `heap_malloc` makes were free, so no live allocation covers them. -/
theorem not_covers_of_freeRun {st : HeapState} (hinv : LiveInv st) {b n i : Nat}
    (hrun : FreeRun st.heap.entries b n) (hi : b ≤ i) (hi' : i < b + n) {a : UInt32 × UInt32}
    (ha : a ∈ st.live) : ¬ Covers st.heap a i := by
  intro hcov
  have h1 := hinv.taken a ha i hcov
  rw [hrun i hi hi'] at h1
  cases h1

theorem LiveInv.malloc {st : HeapState} (hinv : LiveInv st) (size : UInt32) {st' : HeapState}
    (h : heapStep st (.malloc size) = some st') : LiveInv st' := by
  obtain rfl := Option.some.inj h
  have hspec := heapMalloc_spec st.heap size
  generalize heapMalloc st.heap size = r at hspec ⊢
  cases hspec with
  | null hnone hstart => exact hinv
  | taken b hpos hend hrun hleast hstart =>
      have hb : b < 2 ^ 20 := by have := st.heap.total_lt; omega
      have htaken := heapMarkBlocksTaken_taken st.heap b (blocksFor size)
      have hkeep : ∀ i : Nat, isBlockTaken (st.heap.entries i) = true →
          isBlockTaken ((heapMarkBlocksTaken st.heap b (blocksFor size)).entries i) = true := by
        intro i hi
        rw [htaken, hi, Bool.or_true]
      have hclean : ∀ i : Nat, i < st.heap.total →
          isBlockTaken ((heapMarkBlocksTaken st.heap b (blocksFor size)).entries i) = false →
          (heapMarkBlocksTaken st.heap b (blocksFor size)).entries i = HEAP_BLOCK_ENTRY_FREE := by
        intro i hi hf
        have hf' := hf
        rw [htaken, Bool.or_eq_false_iff, decide_eq_false_iff_not] at hf'
        rw [heapMarkBlocksTaken_entries, if_neg (by omega)]
        exact hinv.clean i hi hf'.2
      by_cases hp : heapBlockToAddress st.heap b = 0
      · -- the address wraps to the null pointer: the blocks are taken and lost
        simp only [if_pos hp]
        exact ⟨hinv.address, hinv.nonempty, hinv.inside,
          fun a ha i hi => hkeep i (hinv.taken a ha i hi), hinv.apart, hclean⟩
      · simp only [if_neg hp]
        have hfirst : firstBlock st.heap (heapBlockToAddress st.heap b) = b :=
          firstBlock_heapBlockToAddress st.heap hb
        refine ⟨?_, ?_, ?_, ?_, ?_, hclean⟩
        · rintro a (_ | ⟨_, ha⟩)
          · show _ = heapBlockToAddress st.heap (firstBlock st.heap (heapBlockToAddress st.heap b))
            rw [hfirst]
          · exact hinv.address a ha
        · rintro a (_ | ⟨_, ha⟩)
          · exact hpos
          · exact hinv.nonempty a ha
        · rintro a (_ | ⟨_, ha⟩)
          · show firstBlock st.heap (heapBlockToAddress st.heap b) + _ ≤ _
            rw [hfirst]
            exact hend
          · exact hinv.inside a ha
        · rintro a (_ | ⟨_, ha⟩) i hi
          · obtain ⟨h1, h2⟩ : firstBlock st.heap (heapBlockToAddress st.heap b) ≤ i ∧
              i < firstBlock st.heap (heapBlockToAddress st.heap b) + blocksFor size := hi
            rw [hfirst] at h1 h2
            rw [htaken, decide_eq_true ⟨h1, h2⟩, Bool.true_or]
          · exact hkeep i (hinv.taken a ha i hi)
        · refine .cons (fun c hc i => ?_) hinv.apart
          rintro ⟨⟨h1, h2⟩, hcov⟩
          change firstBlock st.heap (heapBlockToAddress st.heap b) ≤ i at h1
          change i < firstBlock st.heap (heapBlockToAddress st.heap b) + _ at h2
          rw [hfirst] at h1 h2
          exact not_covers_of_freeRun hinv hrun h1 h2 hc hcov

theorem LiveInv.free {st : HeapState} (hinv : LiveInv st) (ptr : UInt32) {st' : HeapState}
    (h : heapStep st (.free ptr) = some st') : LiveInv st' := by
  rw [heapStep] at h
  split at h
  · rename_i hmem
    obtain rfl := Option.some.inj h
    obtain ⟨a, ha, rfl⟩ := List.mem_map.mp hmem
    have hsub : ∀ c, c ∈ st.live.filter (fun c => c.1 ≠ a.1) → c ∈ st.live ∧ c.1 ≠ a.1 := by
      intro c hc
      simpa using hc
    refine ⟨fun c hc => hinv.address c (hsub c hc).1, fun c hc => hinv.nonempty c (hsub c hc).1,
      fun c hc => hinv.inside c (hsub c hc).1, fun c hc i hi => ?_, hinv.apart.filter _,
      fun i hi hf => ?_⟩
    · -- the cleared entry belongs to `a`, so not to another live allocation
      obtain ⟨hc, hne⟩ := hsub c hc
      show isBlockTaken ((heapFree st.heap a.1).entries i) = true
      rw [heapFree_entries hinv ha, if_neg]
      · exact hinv.taken c hc i hi
      · rintro ⟨rfl, -⟩
        exact hinv.apart.forall ha hc (fun h => hne (h ▸ rfl)) _ ⟨covers_first hinv ha, hi⟩
    · change (heapFree st.heap a.1).entries i = _
      change isBlockTaken ((heapFree st.heap a.1).entries i) = false at hf
      rw [heapFree_entries hinv ha] at hf ⊢
      split
      · rfl
      · rename_i hn
        rw [if_neg hn] at hf
        exact hinv.clean i hi hf
  · cases h

theorem LiveInv.step {st st' : HeapState} (op : HeapOp) (hinv : LiveInv st)
    (h : heapStep st op = some st') : LiveInv st' := by
  cases op with
  | malloc size => exact hinv.malloc size h
  | free ptr => exact hinv.free ptr h

theorem LiveInv.run {table : Int → UInt8} {start size : UInt32} {heap : Heap}
    (hc : heapCreate table start size = .ok heap) {ops : List HeapOp} {st : HeapState}
    (h : runFrom heapStep ⟨heap, []⟩ ops = some st) : LiveInv st :=
  runFrom_invariant (fun _ op _ hinv => hinv.step op) (LiveInv.of_create hc) h

/-- The heap keeps its size and its place. -/
theorem heapStep_geometry {st st' : HeapState} (op : HeapOp) (h : heapStep st op = some st') :
    st'.heap.total = st.heap.total ∧ st'.heap.start_address = st.heap.start_address := by
  cases op with
  | malloc size =>
      obtain rfl := Option.some.inj h
      have hspec := heapMalloc_spec st.heap size
      generalize heapMalloc st.heap size = r at hspec ⊢
      cases hspec with
      | null => exact ⟨rfl, rfl⟩
      | taken => exact ⟨rfl, rfl⟩
  | free ptr =>
      rw [heapStep] at h
      split at h
      · obtain rfl := Option.some.inj h
        exact ⟨rfl, rfl⟩
      · cases h

theorem heapRun_geometry {heap : Heap} {ops : List HeapOp} {st : HeapState}
    (h : runFrom heapStep ⟨heap, []⟩ ops = some st) :
    st.heap.total = heap.total ∧ st.heap.start_address = heap.start_address :=
  runFrom_invariant
    (I := fun t => t.heap.total = heap.total ∧ t.heap.start_address = heap.start_address)
    (fun _ op _ hI ht => by
      obtain ⟨h1, h2⟩ := heapStep_geometry op ht
      exact ⟨h1.trans hI.1, h2.trans hI.2⟩) ⟨rfl, rfl⟩ h

theorem heapCreate_geometry {table : Int → UInt8} {start size : UInt32} {heap : Heap}
    (hc : heapCreate table start size = .ok heap) :
    heap.total = size.toNat / 4096 ∧ heap.start_address = start ∧ start.toNat % 4096 = 0 ∧
      size.toNat % 4096 = 0 := by
  unfold heapCreate at hc
  split at hc
  · cases hc
  · split at hc
    · cases hc
    · rename_i h1 h2
      obtain rfl := Except.ok.inj hc
      exact ⟨rfl, rfl, not_not.mp h1, not_not.mp h2⟩

/-- **No block is handed out twice.** For a heap below `2 ^ 31`, after any sequence of calls every
live pointer is the address of a block, the blocks of its request lie inside the table and are
taken, and two live allocations have no block in common. -/
theorem heap_live_apart {table : Int → UInt8} {start size : UInt32} {heap : Heap}
    (hc : heapCreate table start size = .ok heap) (hend : start.toNat + size.toNat < 2 ^ 31)
    {ops : List HeapOp} {st : HeapState} (h : runFrom heapStep ⟨heap, []⟩ ops = some st) :
    (∀ ptr sz, (ptr, sz) ∈ st.live → ∃ b, ptr.toNat = start.toNat + 4096 * b ∧
      b + blocksFor sz ≤ size.toNat / 4096 ∧
      ∀ i, b ≤ i → i < b + blocksFor sz → isBlockTaken (st.heap.entries i) = true) ∧
    st.live.Pairwise (fun a c => a.1 ≠ c.1 ∧ ∀ i, ¬ (Covers st.heap a i ∧ Covers st.heap c i)) := by
  have hinv := LiveInv.run hc h
  obtain ⟨htot, hstart, -, -⟩ := heapCreate_geometry hc
  obtain ⟨htot', hstart'⟩ := heapRun_geometry h
  rw [htot] at htot'
  rw [hstart] at hstart'
  constructor
  · intro ptr sz hmem
    have hin := hinv.inside (ptr, sz) hmem
    have haddr := congrArg UInt32.toNat (hinv.address (ptr, sz) hmem)
    rw [heapBlockToAddress_toNat st.heap (firstBlock_lt hinv hmem), hstart'] at haddr
    rw [htot'] at hin
    have hpos := hinv.nonempty (ptr, sz) hmem
    refine ⟨firstBlock st.heap ptr, ?_, hin, fun i h1 h2 => hinv.taken _ hmem i ⟨h1, h2⟩⟩
    dsimp only at haddr hin hpos
    rw [haddr]
    omega
  · refine hinv.apart.imp_of_mem fun ha hc hdisj => ⟨fun heq => ?_, hdisj⟩
    -- equal pointers would share their first block
    refine hdisj _ ⟨covers_first hinv ha, ?_⟩
    rw [heq]
    exact covers_first hinv hc

/-- A fresh heap of eight blocks where the kernel has its own. -/
def smallHeap : Heap where
  entries := memsetEntries (fun _ => 0xFF) HEAP_BLOCK_ENTRY_FREE 8
  total := 8
  start_address := RASOS_HEAP_ADDRESS
  total_lt := by decide

theorem smallHeap_create : heapCreate (fun _ => 0xFF) RASOS_HEAP_ADDRESS 0x8000 = .ok smallHeap :=
  rfl

/-- A run on eight blocks: a two-block allocation is freed, then one of two blocks is made. -/
theorem heap_live_apart_run :
    ∃ st, runFrom heapStep ⟨smallHeap, []⟩
        [.malloc 100, .malloc 8192, .malloc 0, .free 0x01001000, .malloc 4097] = some st ∧
      st.live.Pairwise
        (fun a c => a.1 ≠ c.1 ∧ ∀ i, ¬ (Covers st.heap a i ∧ Covers st.heap c i)) :=
  ⟨_, (Option.some_get (by decide)).symm,
    (heap_live_apart smallHeap_create (by decide) (Option.some_get (by decide)).symm).2⟩

/-! ## What `heap_free` gives back -/

/-- `heap_free` of the allocation clears exactly its table entries. -/
def FreesExactly (heap : Heap) (a : UInt32 × UInt32) : Prop :=
  ∀ i : Nat, i < heap.total →
    (Covers heap a i → (heapFree heap a.1).entries i = HEAP_BLOCK_ENTRY_FREE) ∧
    (¬ Covers heap a i → (heapFree heap a.1).entries i = heap.entries i)

theorem not_free_of_taken {e : UInt8} (h : isBlockTaken e = true) : e ≠ HEAP_BLOCK_ENTRY_FREE := by
  rintro rfl
  cases h

/-- Exactly the one-block allocations are freed as a whole. -/
theorem freesExactly_iff {st : HeapState} (hinv : LiveInv st) {a : UInt32 × UInt32}
    (ha : a ∈ st.live) :
    FreesExactly st.heap a ↔ blocksFor a.2 = 1 ∧ firstBlock st.heap a.1 < 2 ^ 19 := by
  have hpos := hinv.nonempty a ha
  have hin := hinv.inside a ha
  have hlt := st.heap.total_lt
  constructor
  · intro h
    by_contra hcon
    -- a block of `a` that the call leaves taken
    obtain ⟨i, hi, hkept⟩ : ∃ i, Covers st.heap a i ∧
        ¬ (i = firstBlock st.heap a.1 ∧ i < 2 ^ 19) := by
      by_cases hb : firstBlock st.heap a.1 < 2 ^ 19
      · exact ⟨firstBlock st.heap a.1 + 1, ⟨by omega, by omega⟩, by omega⟩
      · exact ⟨firstBlock st.heap a.1, covers_first hinv ha, by omega⟩
    have hfree := (h i (lt_of_lt_of_le hi.2 hin)).1 hi
    rw [heapFree_entries hinv ha, if_neg hkept] at hfree
    exact not_free_of_taken (hinv.taken a ha i hi) hfree
  · rintro ⟨h1, h2⟩ i -
    rw [heapFree_entries hinv ha]
    constructor
    · rintro ⟨hlo, hhi⟩
      rw [if_pos (by omega)]
    · intro hn
      rw [if_neg]
      rintro ⟨rfl, -⟩
      exact hn (covers_first hinv ha)

/-- Every taken block will be freed with some live pointer. -/
def Recoverable (st : HeapState) : Prop :=
  ∀ i : Nat, i < st.heap.total → isBlockTaken (st.heap.entries i) = true →
    ∃ a ∈ st.live, firstBlock st.heap a.1 = i ∧ i < 2 ^ 19

/-- The condition on a call under which nothing is lost: `heap_malloc` finds no blocks, or a single
one whose offset from the start fits an `int` and whose address is not null. -/
def LeakFree (st : HeapState) : HeapOp → Prop
  | .malloc size =>
      let b := heapGetStartBlock st.heap (heapSizeCeiling size / 4096)
      b < 0 ∨ (blocksFor size = 1 ∧ b < 2 ^ 19 ∧ heapBlockToAddress st.heap b ≠ 0)
  | .free _ => True

/-- An allocation adds lost blocks exactly when it is not `LeakFree`. -/
theorem recoverable_malloc {st st' : HeapState} (hinv : LiveInv st) (size : UInt32)
    (h : heapStep st (.malloc size) = some st') :
    Recoverable st' ↔ Recoverable st ∧ LeakFree st (.malloc size) := by
  obtain rfl := Option.some.inj h
  have hspec := heapMalloc_spec st.heap size
  simp only [LeakFree]
  generalize heapMalloc st.heap size = r at hspec ⊢
  cases hspec with
  | null hnone hstart =>
      rw [if_pos rfl]
      exact ⟨fun hrec => ⟨hrec, .inl hstart⟩, fun hrec => hrec.1⟩
  | taken b hpos hend hrun hleast hstart =>
      have htot := st.heap.total_lt
      have hb : b < 2 ^ 20 := by omega
      have htaken := heapMarkBlocksTaken_taken st.heap b (blocksFor size)
      have hfirst := firstBlock_heapBlockToAddress st.heap hb
      rw [hstart]
      -- no allocation that was live before starts at one of the new blocks
      have hnew : ∀ a ∈ st.live, ∀ i, b ≤ i → i < b + blocksFor size →
          firstBlock st.heap a.1 ≠ i := by
        rintro a ha i h1 h2 rfl
        exact not_covers_of_freeRun hinv hrun h1 h2 ha (covers_first hinv ha)
      have hold : ∀ i : Nat, ¬ (b ≤ i ∧ i < b + blocksFor size) →
          isBlockTaken ((heapMarkBlocksTaken st.heap b (blocksFor size)).entries i) =
            isBlockTaken (st.heap.entries i) := by
        intro i hi
        rw [htaken, decide_eq_false hi, Bool.false_or]
      have hnow : ∀ i : Nat, b ≤ i → i < b + blocksFor size →
          isBlockTaken ((heapMarkBlocksTaken st.heap b (blocksFor size)).entries i) = true := by
        intro i h1 h2
        rw [htaken, decide_eq_true ⟨h1, h2⟩, Bool.true_or]
      by_cases hp : heapBlockToAddress st.heap b = 0
      · simp only [if_pos hp]
        constructor
        · intro hrec
          obtain ⟨a, ha, hfa, -⟩ := hrec b (by simp; omega) (hnow b (Nat.le_refl b) (by omega))
          exact absurd hfa (hnew a ha b (Nat.le_refl b) (by omega))
        · rintro ⟨-, hneg | ⟨-, -, hne⟩⟩
          · omega
          · exact absurd hp hne
      · simp only [if_neg hp]
        constructor
        · intro hrec
          refine ⟨fun i hi ht => ?_, .inr ⟨?_, ?_, hp⟩⟩
          · have hi' : ¬ (b ≤ i ∧ i < b + blocksFor size) := by
              rintro ⟨h1, h2⟩
              rw [hrun i h1 h2] at ht
              cases ht
            obtain ⟨a, ha, hfa, hlt⟩ := hrec i hi ((hold i hi').trans ht)
            change firstBlock st.heap a.1 = i at hfa
            rcases List.mem_cons.mp ha with rfl | ha
            · exact absurd (hfirst.symm.trans hfa) (by omega)
            · exact ⟨a, ha, hfa, hlt⟩
          · by_contra hne
            obtain ⟨a, ha, hfa, -⟩ := hrec (b + 1) (by simp; omega) (hnow (b + 1) (by omega) (by omega))
            change firstBlock st.heap a.1 = b + 1 at hfa
            rcases List.mem_cons.mp ha with rfl | ha
            · exact absurd (hfirst.symm.trans hfa) (by omega)
            · exact hnew a ha (b + 1) (by omega) (by omega) hfa
          · obtain ⟨a, -, -, hlt⟩ := hrec b (by simp; omega) (hnow b (Nat.le_refl b) (by omega))
            omega
        · rintro ⟨hrec, hneg | ⟨hone, hlt, -⟩⟩ i hi ht
          · omega
          · by_cases hib : i = b
            · exact ⟨_, List.mem_cons_self, hfirst.trans hib.symm, by omega⟩
            · obtain ⟨a, ha, hfa⟩ := hrec i hi ((hold i (by omega)).symm.trans ht)
              exact ⟨a, List.mem_cons_of_mem _ ha, hfa⟩

/-- Freeing a live pointer neither loses a block nor finds a lost one. -/
theorem recoverable_free {st st' : HeapState} (hinv : LiveInv st) (ptr : UInt32)
    (h : heapStep st (.free ptr) = some st') : Recoverable st' ↔ Recoverable st := by
  rw [heapStep] at h
  split at h
  · rename_i hmem
    obtain rfl := Option.some.inj h
    obtain ⟨a, ha, rfl⟩ := List.mem_map.mp hmem
    have hent := heapFree_entries hinv ha
    have hin := hinv.inside a ha
    have hpos := hinv.nonempty a ha
    constructor
    · intro hrec i hi ht
      by_cases hia : i = firstBlock st.heap a.1 ∧ i < 2 ^ 19
      · exact ⟨a, ha, hia.1.symm, hia.2⟩
      · obtain ⟨c, hc, hfc⟩ := hrec i hi (by
          show isBlockTaken ((heapFree st.heap a.1).entries i) = true
          rw [hent, if_neg hia]
          exact ht)
        exact ⟨c, List.mem_of_mem_filter hc, hfc⟩
    · intro hrec i hi ht
      change isBlockTaken ((heapFree st.heap a.1).entries i) = true at ht
      rw [hent] at ht
      split at ht
      · cases ht
      · rename_i hia
        obtain ⟨c, hc, rfl, hlt⟩ := hrec i hi ht
        refine ⟨c, List.mem_filter.mpr ⟨hc, ?_⟩, rfl, hlt⟩
        rw [decide_eq_true_eq]
        intro heq
        exact hia ⟨by rw [heq], hlt⟩
  · cases h

theorem recoverable_step {st st' : HeapState} (hinv : LiveInv st) (op : HeapOp)
    (h : heapStep st op = some st') : Recoverable st' ↔ Recoverable st ∧ LeakFree st op := by
  cases op with
  | malloc size => exact recoverable_malloc hinv size h
  | free ptr =>
      rw [recoverable_free hinv ptr h]
      exact ⟨fun hrec => ⟨hrec, trivial⟩, fun hrec => hrec.1⟩

theorem recoverable_run {st st' : HeapState} {ops : List HeapOp} (hinv : LiveInv st)
    (h : runFrom heapStep st ops = some st') :
    Recoverable st' ↔ Recoverable st ∧ AllSteps heapStep LeakFree st ops := by
  induction ops generalizing st with
  | nil =>
      obtain rfl := Option.some.inj h
      exact ⟨fun hrec => ⟨hrec, trivial⟩, fun hrec => hrec.1⟩
  | cons op ops ih =>
      obtain ⟨t, ht, hrest⟩ := runFrom_cons.mp h
      rw [ih (hinv.step op ht) hrest, recoverable_step hinv op ht, allSteps_cons_of_some ht,
        and_assoc]

theorem recoverable_create {table : Int → UInt8} {start size : UInt32} {heap : Heap}
    (hc : heapCreate table start size = .ok heap) : Recoverable ⟨heap, []⟩ := by
  intro i hi ht
  unfold heapCreate at hc
  split at hc
  · cases hc
  · split at hc
    · cases hc
    · obtain rfl := Except.ok.inj hc
      have hfree : memsetEntries table HEAP_BLOCK_ENTRY_FREE (size.toNat / 4096) i = 0 :=
        if_pos ⟨Int.natCast_nonneg i, Int.ofNat_lt.mpr hi⟩
      change isBlockTaken (memsetEntries table HEAP_BLOCK_ENTRY_FREE (size.toNat / 4096) i) = true
        at ht
      rw [hfree] at ht
      cases ht

/-- **What freeing gives back.** In every run, `heap_free` of a live pointer clears exactly the
entries of its allocation if and only if the allocation is one block and its offset from the
start of the heap is below `2 ^ 31`; and when every live pointer has been freed, the whole table is free if and
only if every allocation of the run was `LeakFree`. -/
theorem heapFree_exact_iff {table : Int → UInt8} {start size : UInt32} {heap : Heap}
    (hc : heapCreate table start size = .ok heap) {ops : List HeapOp} {st : HeapState}
    (h : runFrom heapStep ⟨heap, []⟩ ops = some st) :
    (∀ ptr sz, (ptr, sz) ∈ st.live → (FreesExactly st.heap (ptr, sz) ↔
      blocksFor sz = 1 ∧ (ptr - start).toNat < 2 ^ 31)) ∧
    (st.live = [] → ((∀ i : Nat, i < st.heap.total → st.heap.entries i = HEAP_BLOCK_ENTRY_FREE) ↔
      AllSteps heapStep LeakFree ⟨heap, []⟩ ops)) := by
  have hinv := LiveInv.run hc h
  obtain ⟨-, hstart, -, -⟩ := heapCreate_geometry hc
  obtain ⟨-, hstart'⟩ := heapRun_geometry h
  constructor
  · intro ptr sz hmem
    have haddr := hinv.address (ptr, sz) hmem
    have hoff := heapBlockToAddress_sub st.heap (firstBlock_lt hinv hmem)
    rw [← haddr, hstart', hstart] at hoff
    rw [freesExactly_iff hinv hmem, hoff]
    refine and_congr_right fun _ => ?_
    change firstBlock st.heap ptr < 2 ^ 19 ↔ 4096 * firstBlock st.heap ptr < 2 ^ 31
    omega
  · intro hlive
    have hrun := recoverable_run (LiveInv.of_create hc) h
    rw [and_iff_right (recoverable_create hc)] at hrun
    rw [← hrun]
    constructor
    · intro hfree i hi ht
      exact absurd (hfree i hi) (not_free_of_taken ht)
    · intro hrec i hi
      refine hinv.clean i hi (Bool.eq_false_iff.mpr fun ht => ?_)
      obtain ⟨a, ha, -⟩ := hrec i hi ht
      rw [hlive] at ha
      cases ha

/-- Two one-block allocations, of which the first has been freed again. -/
theorem heapFree_exact_run :
    ∃ st, runFrom heapStep ⟨smallHeap, []⟩ [.malloc 4096, .malloc 17, .free 0x01000000] = some st ∧
      (FreesExactly st.heap (0x01001000, 17) ↔
        blocksFor 17 = 1 ∧ ((0x01001000 : UInt32) - RASOS_HEAP_ADDRESS).toNat < 2 ^ 31) :=
  ⟨_, (Option.some_get (by decide)).symm,
    (heapFree_exact_iff smallHeap_create (Option.some_get (by decide)).symm).1 _ _ (by decide)⟩

/-- A request of 8192 bytes: freeing it leaves its second block taken. -/
theorem heapFree_leaks :
    ∃ st st', runFrom heapStep ⟨smallHeap, []⟩ [.malloc 8192] = some st ∧
      (0x01000000, 8192) ∈ st.live ∧ ¬ FreesExactly st.heap (0x01000000, 8192) ∧
      heapStep st (.free 0x01000000) = some st' ∧ st'.live = [] ∧
      st'.heap.entries 1 ≠ HEAP_BLOCK_ENTRY_FREE := by
  refine ⟨_, _, (Option.some_get (by decide)).symm, by decide, fun h => ?_,
    (Option.some_get (by decide)).symm, by decide, by decide⟩
  exact absurd ((h 1 (by decide)).1 ⟨by decide, by decide⟩) (by decide)

end RasOS
