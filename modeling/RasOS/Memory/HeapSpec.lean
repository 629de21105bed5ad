import RasOS.Memory.Heap

set_option autoImplicit false

/-! # What the heap functions do

One specification for each function of `heap.c`, in terms of blocks: `heap_get_start_block` is a
first fit search (`heapGetStartBlock_spec`), `heap_mark_blocks_taken` takes exactly the blocks of
the run (`heapMarkBlocksTaken_entries`), and `heap_mark_blocks_free` clears one entry, whatever
the extent of the allocation (`heapMarkBlocksFree_entries`). -/

namespace RasOS

open Machine

/-! ## Requests in blocks -/

/-- The number of blocks a request of `size` bytes needs: `⌈size / 4096⌉`. -/
def blocksFor (size : UInt32) : Nat := (size.toNat + 4095) / 4096

theorem heapSizeCeiling_toNat (size : UInt32) :
    (heapSizeCeiling size).toNat = (4096 * blocksFor size) % 2 ^ 32 := by
  have hlt := size.toNat_lt
  have hmod : size % 4096 = 0 ↔ size.toNat % 4096 = 0 := by
    rw [← UInt32.toNat_inj, UInt32.toNat_mod]
    rfl
  unfold heapSizeCeiling blocksFor
  split
  · rename_i h
    rw [hmod] at h
    omega
  · rename_i h
    rw [hmod] at h
    rw [UInt32.toNat_add, UInt32.toNat_sub, UInt32.toNat_mod, show (4096 : UInt32).toNat = 4096 from rfl]
    omega

/-- The block count `heap_malloc` computes. It is the number of blocks needed, except that the
rounding of a size above `2 ^ 32 - 4096` wraps to `0`. -/
theorem requestBlocks (size : UInt32) :
    (heapSizeCeiling size / 4096).toNat = blocksFor size % 2 ^ 20 := by
  rw [UInt32.toNat_div, heapSizeCeiling_toNat, show (4096 : UInt32).toNat = 4096 from rfl]
  omega

theorem blocksFor_le (size : UInt32) : blocksFor size ≤ 2 ^ 20 := by
  have hlt := size.toNat_lt
  unfold blocksFor
  omega

/-! ## Addresses and blocks -/

theorem heapBlockToAddress_toNat (heap : Heap) {b : Nat} (hb : b < 2 ^ 20) :
    (heapBlockToAddress heap b).toNat = (heap.start_address.toNat + 4096 * b) % 2 ^ 32 := by
  rw [heapBlockToAddress, UInt32.toNat_add, toNat_ofInt, RASOS_HEAP_BLOCK_SIZE]
  omega

/-- The offset of a block from the start of the heap. -/
theorem heapBlockToAddress_sub (heap : Heap) {b : Nat} (hb : b < 2 ^ 20) :
    (heapBlockToAddress heap b - heap.start_address).toNat = 4096 * b := by
  have hlt := heap.start_address.toNat_lt
  rw [UInt32.toNat_sub, heapBlockToAddress_toNat heap hb]
  omega

theorem heapBlockToAddress_inj (heap : Heap) {b c : Nat} (hb : b < 2 ^ 20) (hc : c < 2 ^ 20)
    (h : heapBlockToAddress heap b = heapBlockToAddress heap c) : b = c := by
  have h1 := heapBlockToAddress_sub heap hb
  rw [h, heapBlockToAddress_sub heap hc] at h1
  omega

/-- Below `2 ^ 31` bytes from the start the block of an address is found again. -/
theorem heapAddressToBlock_of_lt (heap : Heap) {b : Nat} (hb : b < 2 ^ 19) :
    heapAddressToBlock heap (heapBlockToAddress heap b) = b := by
  have h := heapBlockToAddress_sub heap (b := b) (by omega)
  rw [heapAddressToBlock, signed_of_lt (by omega), h, RASOS_HEAP_BLOCK_SIZE, Nat.cast_mul]
  exact Int.mul_tdiv_cancel_left _ (by decide)

/-- From `2 ^ 31` bytes on the offset is negative as an `int`, and so is the block computed. -/
theorem heapAddressToBlock_of_ge (heap : Heap) {b : Nat} (hb : 2 ^ 19 ≤ b) (hb' : b < 2 ^ 20) :
    heapAddressToBlock heap (heapBlockToAddress heap b) = b - 2 ^ 20 := by
  have h := heapBlockToAddress_sub heap hb'
  have hneg : ((4096 * b : Nat) : Int) - 2 ^ 32 = ((4096 : Nat) : Int) * (b - 2 ^ 20) := by
    push_cast
    ring
  rw [heapAddressToBlock, signed_of_ge (by omega), h, RASOS_HEAP_BLOCK_SIZE, hneg]
  exact Int.mul_tdiv_cancel_left _ (by decide)

/-! ## First fit -/

/-- The `n` blocks from `b` on are all free. -/
def FreeRun (entries : Int → UInt8) (b n : Nat) : Prop :=
  ∀ i : Nat, b ≤ i → i < b + n → isBlockTaken (entries i) = false

theorem FreeRun.head {entries : Int → UInt8} {b n : Nat} (h : FreeRun entries b n) (hn : 0 < n) :
    isBlockTaken (entries b) = false := h b (Nat.le_refl b) (by omega)

/-- The result of a search over the blocks `[lo, hi)` for `n` free ones in a row. -/
inductive FirstFit (entries : Int → UInt8) (n lo hi : Nat) : Int → Prop
  | found (b : Nat) (hlo : lo ≤ b) (hhi : b + n ≤ hi) (hrun : FreeRun entries b n)
      (hleast : ∀ b', lo ≤ b' → b' < b → ¬ FreeRun entries b' n) : FirstFit entries n lo hi b
  | none (hnone : ∀ b, lo ≤ b → b + n ≤ hi → ¬ FreeRun entries b n) :
      FirstFit entries n lo hi (-ENOMEM)

/-- A search may skip the starts whose run would cover a taken block. -/
theorem FirstFit.extend {entries : Int → UInt8} {n lo lo' hi : Nat} {r : Int} (hle : lo ≤ lo')
    (hskip : ∀ b, lo ≤ b → b < lo' → ¬ FreeRun entries b n) (h : FirstFit entries n lo' hi r) :
    FirstFit entries n lo hi r := by
  cases h with
  | found b hlo hhi hrun hleast =>
      refine .found b (by omega) hhi hrun fun b' hb' hlt => ?_
      by_cases hb : b' < lo'
      · exact hskip b' hb' hb
      · exact hleast b' (by omega) hlt
  | none hnone =>
      refine .none fun b hb hhi => ?_
      by_cases hb' : b < lo'
      · exact hskip b hb hb'
      · exact hnone b (by omega) hhi

/-- The loop invariant: the `block_count` blocks before `i` are free, fewer than asked for, and
`block_start_index` is where they start. -/
theorem getStartBlockLoop_spec (entries : Int → UInt8) (n : Nat) :
    ∀ (remaining i count : Nat), count < n → count ≤ i → FreeRun entries (i - count) count →
      FirstFit entries n (i - count) (i + remaining)
        (getStartBlockLoop entries n remaining i count
          (if count = 0 then -1 else ((i - count : Nat) : Int))) := by
  intro remaining
  induction remaining with
  | zero =>
      intro i count hlt hle hfree
      exact .none fun b hb hhi => by omega
  | succ k ih =>
      intro i count hlt hle hfree
      rw [getStartBlockLoop]
      by_cases htaken : isBlockTaken (entries i) = true
      · rw [if_pos htaken]
        have hrest := ih (i + 1) 0 (by omega) (by omega) (fun j h1 h2 => by omega)
        rw [if_pos rfl, Nat.sub_zero, show i + 1 + k = i + (k + 1) by omega] at hrest
        refine hrest.extend (by omega) fun b hb hlt' hrun => ?_
        -- a run of `n` blocks starting at or before `i` covers the taken block `i`
        have := hrun i (by omega) (by omega)
        rw [htaken] at this
        cases this
      · rw [Bool.not_eq_true] at htaken
        rw [if_neg (by simp [htaken])]
        have hfree' : FreeRun entries (i - count) (count + 1) := by
          intro j h1 h2
          by_cases hj : j = i
          · rw [hj]; exact htaken
          · exact hfree j h1 (by omega)
        have hstart : (if (if count = 0 then (-1 : Int) else ((i - count : Nat) : Int)) = -1
            then (i : Int) else if count = 0 then -1 else ((i - count : Nat) : Int))
            = ((i - count : Nat) : Int) := by
          by_cases h0 : count = 0
          · simp [h0]
          · rw [if_neg h0, if_neg (by omega)]
        simp only [hstart]
        split
        · rename_i hn
          refine .found (i - count) (Nat.le_refl _) (by omega) (hn ▸ hfree') fun b' h1 h2 => ?_
          omega
        · rename_i hn
          have hrest := ih (i + 1) (count + 1) (by omega) (by omega)
            (by rw [show i + 1 - (count + 1) = i - count by omega]; exact hfree')
          rw [if_neg (by omega), show i + 1 - (count + 1) = i - count by omega,
            show i + 1 + k = i + (k + 1) by omega] at hrest
          exact hrest

/-- A search for no blocks at all finds nothing: the counter is compared after it is increased. -/
theorem getStartBlockLoop_zero (entries : Int → UInt8) :
    ∀ (remaining i count : Nat) (start : Int),
      getStartBlockLoop entries 0 remaining i count start = -ENOMEM := by
  intro remaining
  induction remaining with
  | zero => intros; rfl
  | succ k ih =>
      intro i count start
      rw [getStartBlockLoop]
      split
      · exact ih _ _ _
      · rw [if_neg (by omega)]
        exact ih _ _ _

theorem heapGetStartBlock_spec (heap : Heap) (n : UInt32) (hn : 0 < n.toNat) :
    FirstFit heap.entries n.toNat 0 heap.total (heapGetStartBlock heap n) := by
  have h := getStartBlockLoop_spec heap.entries n.toNat heap.total 0 0 hn (Nat.le_refl 0)
    (fun j h1 h2 => by omega)
  rw [if_pos rfl, Nat.sub_zero, Nat.zero_add] at h
  exact h

/-! ## Marking -/

/-- The entry `heap_mark_blocks_taken` writes for block `i` of the allocation `[b, b + n)`. -/
def takenEntry (b n i : Int) : UInt8 :=
  HEAP_BLOCK_ENTRY_TAKEN |||
    (if i = b then HEAP_BLOCK_IS_FIRST else 0) ||| (if i = b + n - 1 then 0 else HEAP_BLOCK_HAS_NEXT)

theorem takenEntry_taken (b n i : Int) : isBlockTaken (takenEntry b n i) = true := by
  unfold takenEntry
  split <;> split <;> rfl

theorem markBlocksTakenLoop_apply (e : Int) :
    ∀ (k : Nat) (i : Int) (entry : UInt8) (entries : Int → UInt8) (j : Int),
      markBlocksTakenLoop e k i entry entries j =
        if i ≤ j ∧ j < i + k then
          if j = i then entry
          else if j ≠ e then HEAP_BLOCK_ENTRY_TAKEN ||| HEAP_BLOCK_HAS_NEXT
          else HEAP_BLOCK_ENTRY_TAKEN
        else entries j := by
  intro k
  induction k with
  | zero =>
      intro i entry entries j
      rw [markBlocksTakenLoop, if_neg (by omega)]
  | succ k ih =>
      intro i entry entries j
      rw [markBlocksTakenLoop, ih]
      by_cases hji : j = i
      · subst hji
        rw [if_neg (by omega), if_pos ⟨by omega, by omega⟩, if_pos rfl, Function.update_self]
      · by_cases hin : i + 1 ≤ j ∧ j < i + 1 + k
        · have hin' : i ≤ j ∧ j < i + ((k + 1 : Nat) : Int) := by omega
          rw [if_pos hin, if_pos hin', if_neg hji]
          by_cases hj1 : j = i + 1
          · have hlast : i ≠ e - 1 ↔ j ≠ e := by omega
            simp only [if_pos hj1, hlast]
          · rw [if_neg hj1]
        · have hin' : ¬ (i ≤ j ∧ j < i + ((k + 1 : Nat) : Int)) := by omega
          rw [if_neg hin, if_neg hin', Function.update_of_ne hji]

/-- `heap_mark_blocks_taken` writes the entries of its blocks and no other. -/
theorem heapMarkBlocksTaken_entries (heap : Heap) (b n : Nat) (i : Int) :
    (heapMarkBlocksTaken heap b n).entries i =
      if (b : Int) ≤ i ∧ i < b + n then takenEntry b n i else heap.entries i := by
  rw [heapMarkBlocksTaken]
  simp only [markBlocksTakenLoop_apply]
  split
  · rename_i hin
    unfold takenEntry
    by_cases hib : i = b
    · subst hib
      by_cases hn : n > 1
      · rw [if_pos rfl, if_pos hn, if_pos rfl, if_neg (by omega)]
      · rw [if_pos rfl, if_neg hn, if_pos rfl, if_pos (by omega)]
        rfl
    · rw [if_neg hib, if_neg hib]
      by_cases hlast : i = b + n - 1
      · rw [if_neg (by simp [hlast]), if_pos hlast]
        rfl
      · rw [if_pos hlast, if_neg hlast]
        rfl
  · rfl

/-- **The free loop stops at once.** `heap_mark_blocks_free` clears the entry it starts at, then
looks for `HAS_NEXT` in the cleared entry, so it never goes on to a second block. -/
theorem heapMarkBlocksFree_entries (heap : Heap) (b : Int) :
    (heapMarkBlocksFree heap b).entries =
      if b < heap.total then Function.update heap.entries b HEAP_BLOCK_ENTRY_FREE
      else heap.entries := by
  rw [heapMarkBlocksFree]
  by_cases hb : b < heap.total
  · rw [if_pos hb, show (heap.total - b).toNat = (heap.total - b).toNat - 1 + 1 by omega,
      markBlocksFreeLoop]
    simp only [Function.update_self]
    rfl
  · rw [if_neg hb, show (heap.total - b).toNat = 0 by omega]
    rfl

/-! ## `heap_malloc` as a whole -/

@[simp] theorem heapMarkBlocksTaken_total (heap : Heap) (b : Int) (n : Nat) :
    (heapMarkBlocksTaken heap b n).total = heap.total := rfl

@[simp] theorem heapMarkBlocksTaken_start (heap : Heap) (b : Int) (n : Nat) :
    (heapMarkBlocksTaken heap b n).start_address = heap.start_address := rfl

@[simp] theorem heapFree_total (heap : Heap) (p : UInt32) :
    (heapFree heap p).total = heap.total := rfl

@[simp] theorem heapFree_start (heap : Heap) (p : UInt32) :
    (heapFree heap p).start_address = heap.start_address := rfl

/-- What a call of `heap_malloc` can do: give out the first run of free blocks that is long
enough, or nothing. -/
inductive Malloc (heap : Heap) (size : UInt32) : UInt32 × Heap → Prop
  | taken (b : Nat) (hpos : 0 < blocksFor size) (hend : b + blocksFor size ≤ heap.total)
      (hrun : FreeRun heap.entries b (blocksFor size))
      (hleast : ∀ b' < b, ¬ FreeRun heap.entries b' (blocksFor size))
      (hstart : heapGetStartBlock heap (heapSizeCeiling size / 4096) = b) :
      Malloc heap size
        (heapBlockToAddress heap b, heapMarkBlocksTaken heap b (blocksFor size))
  | null (hnone : blocksFor size = 0 ∨
      ∀ b, b + blocksFor size ≤ heap.total → ¬ FreeRun heap.entries b (blocksFor size))
      (hstart : heapGetStartBlock heap (heapSizeCeiling size / 4096) < 0) :
      Malloc heap size (0, heap)

theorem heapMalloc_spec (heap : Heap) (size : UInt32) : Malloc heap size (heapMalloc heap size) := by
  have hreq := requestBlocks size
  have hle := blocksFor_le size
  have htot := heap.total_lt
  simp only [heapMalloc, heapMallocBlocks]
  generalize hn : heapSizeCeiling size / 4096 = n at hreq ⊢
  by_cases h0 : n.toNat = 0
  · have hneg : heapGetStartBlock heap n < 0 := by
      rw [heapGetStartBlock, h0, getStartBlockLoop_zero]
      decide
    rw [if_pos hneg]
    refine .null ?_ (hn ▸ hneg)
    by_cases hz : blocksFor size = 0
    · exact .inl hz
    · exact .inr fun b hb => by omega
  · have hblocks : n.toNat = blocksFor size := by omega
    have hspec := heapGetStartBlock_spec heap n (by omega)
    rw [hblocks] at hspec ⊢
    generalize hr : heapGetStartBlock heap n = r at hspec ⊢
    cases hspec with
    | found b hlo hhi hrun hleast =>
        rw [if_neg (by omega)]
        exact .taken b (by omega) hhi hrun (fun b' hb' => hleast b' (Nat.zero_le _) hb') (hn ▸ hr)
    | none hnone =>
        rw [if_pos (by decide)]
        refine .null (.inr fun b => hnone b (Nat.zero_le _)) ?_
        rw [hn, hr]
        decide

/-- The table after an allocation of the `n` blocks from `b` on, entry by entry. -/
structure TakesRun (heap : Heap) (b n : Nat) (heap' : Heap) : Prop where
  first : heap'.entries b =
    HEAP_BLOCK_ENTRY_TAKEN ||| HEAP_BLOCK_IS_FIRST ||| if 1 < n then HEAP_BLOCK_HAS_NEXT else 0
  middle : ∀ i : Int, (b : Int) < i → i < b + n - 1 →
    heap'.entries i = HEAP_BLOCK_ENTRY_TAKEN ||| HEAP_BLOCK_HAS_NEXT
  last : 1 < n → heap'.entries (b + n - 1) = HEAP_BLOCK_ENTRY_TAKEN
  others : ∀ i : Int, i < b ∨ b + n ≤ i → heap'.entries i = heap.entries i
  total : heap'.total = heap.total
  start_address : heap'.start_address = heap.start_address

theorem heapMarkBlocksTaken_takesRun (heap : Heap) (b : Nat) {n : Nat} (hn : 0 < n) :
    TakesRun heap b n (heapMarkBlocksTaken heap b n) := by
  have hentry := heapMarkBlocksTaken_entries heap b n
  refine ⟨?_, fun i h1 h2 => ?_, fun h1 => ?_, fun i hi => ?_, rfl, rfl⟩
  · rw [hentry, if_pos (by omega), takenEntry, if_pos rfl]
    by_cases h1 : 1 < n
    · rw [if_neg (by omega), if_pos h1]
    · rw [if_pos (by omega), if_neg h1]
  · rw [hentry, if_pos (by omega), takenEntry, if_neg (by omega), if_neg (by omega)]
    rfl
  · rw [hentry, if_pos (by omega), takenEntry, if_neg (by omega), if_pos rfl]
    rfl
  · rw [hentry, if_neg (by omega)]

/-- Block `b` begins the first run of free blocks that a request of `size` bytes fits in. -/
def FirstRun (heap : Heap) (size : UInt32) (b : Nat) : Prop :=
  IsLeast {b | b + blocksFor size ≤ heap.total ∧ FreeRun heap.entries b (blocksFor size)} b

/-- **`heap_malloc` is a first fit allocator.** A request gets the first run of free blocks it fits in
and takes exactly the blocks of that run; it gets null, from a table that stays as it was, when it asks
for nothing or there is no such run. -/
theorem heapMalloc_firstFit (heap : Heap) (size : UInt32) :
    (size ≠ 0 → ∀ b, FirstRun heap size b →
      (heapMalloc heap size).1 = heap.start_address + UInt32.ofNat (4096 * b) ∧
        TakesRun heap b (blocksFor size) (heapMalloc heap size).2) ∧
    (heapMalloc heap size = (0, heap) ↔ size = 0 ∨ ¬ ∃ b, FirstRun heap size b) := by
  have hspec := heapMalloc_spec heap size
  have hzero : blocksFor size = 0 ↔ size = 0 := by
    rw [← UInt32.toNat_inj, UInt32.toNat_zero, blocksFor]
    omega
  generalize hr : heapMalloc heap size = r at hspec ⊢
  cases hspec with
  | null hnone hstart =>
      -- there is no run at all, so no first one
      have hno : ∀ b, FirstRun heap size b → size = 0 := by
        rintro b ⟨⟨hend, hrun⟩, -⟩
        exact hzero.mp (hnone.resolve_right fun h => h b hend hrun)
      refine ⟨fun hsize b hb => absurd (hno b hb) hsize, iff_of_true rfl ?_⟩
      by_cases hsize : size = 0
      · exact Or.inl hsize
      · exact Or.inr fun ⟨b, hb⟩ => hsize (hno b hb)
  | taken b hpos hend hrun hleast hstart =>
      have hfirst : FirstRun heap size b := by
        refine ⟨⟨hend, hrun⟩, fun b' hb' => ?_⟩
        by_contra hlt
        exact hleast b' (not_le.mp hlt) hb'.2
      have hsize : size ≠ 0 := fun h => Nat.ne_of_gt hpos (hzero.mpr h)
      refine ⟨fun _ b' hb' => ?_, iff_of_false (fun heq => ?_) ?_⟩
      · obtain rfl := hfirst.unique hb'
        have htotal := heap.total_lt
        refine ⟨?_, heapMarkBlocksTaken_takesRun heap b hpos⟩
        rw [← UInt32.toNat_inj, heapBlockToAddress_toNat heap (by omega), UInt32.toNat_add,
          UInt32.toNat_ofNat']
        omega
      · -- block `b` is taken now
        have hentries := congrArg (fun r => isBlockTaken (r.2.entries b)) heq
        simp only [heapMarkBlocksTaken_entries] at hentries
        rw [if_pos (by omega), takenEntry_taken, hrun.head hpos] at hentries
        cases hentries
      · exact not_or.mpr ⟨hsize, not_not.mpr ⟨b, hfirst⟩⟩

/-- After an allocation its blocks are taken and the others are as before. -/
theorem heapMarkBlocksTaken_taken (heap : Heap) (b n : Nat) (i : Nat) :
    isBlockTaken ((heapMarkBlocksTaken heap b n).entries i) =
      (decide (b ≤ i ∧ i < b + n) || isBlockTaken (heap.entries i)) := by
  rw [heapMarkBlocksTaken_entries]
  by_cases h : b ≤ i ∧ i < b + n
  · rw [if_pos (by omega), takenEntry_taken, decide_eq_true h, Bool.true_or]
  · rw [if_neg (by omega), decide_eq_false h, Bool.false_or]

end RasOS
