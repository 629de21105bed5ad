import RasOS.Fs.OneFile
import RasOS.Memory.Lent
import RasOS.Memory.PagingDirectory

set_option autoImplicit false

/-! # A kernel with a directory

`paging_new_4gb` takes the first free blocks it finds. Here is a directory in a run of free blocks anywhere in the
heap, written down at once, so that the kernel that has it can be evaluated. -/

namespace RasOS

open Machine

/-- The objects of a directory in the blocks from `base` on: the directory, its 1024 tables and its chunk. -/
def directoryObject (base : Nat) (flags : UInt32) (j : Nat) : Obj :=
  if j = 0 then .table fun i => blockAddress (base + 1 + i) ||| (flags ||| PAGING_IS_WRITABLE)
  else if j ≤ 1024 then .table fun i => identityEntry flags (1024 * (j - 1) + i)
  else .chunk (blockAddress base)

/-- The kernel `s` with a directory in the blocks from `base` on. It is the active one. -/
def withDirectory (s : Kernel) (base : Nat) (flags : UInt32) : Kernel :=
  { s with
    heap := { s.heap with
      entries := fun i =>
        if (base : Int) ≤ i ∧ i < base + 1026 then HEAP_BLOCK_ENTRY_TAKEN ||| HEAP_BLOCK_IS_FIRST
        else s.heap.entries i }
    live := fun ptr =>
      if 0x01000000 + 4096 * base ≤ ptr.toNat ∧ ptr.toNat < 0x01000000 + 4096 * (base + 1026) ∧ ptr.toNat % 4096 = 0 then
        some (directoryObject base flags ((ptr.toNat - 0x01000000) / 4096 - base))
      else s.live ptr
    current_directory := blockAddress base }

section WithDirectory

variable {s : Kernel} {base : Nat} {flags : UInt32}

theorem withDirectory_entry {i : Nat} (h : base ≤ i ∧ i < base + 1026) :
    (withDirectory s base flags).heap.entries i = takenEntry i 1 i := by
  show (if _ then _ else _) = _
  rw [if_pos (by omega), takenEntry, if_pos rfl, if_pos (by omega)]
  rfl

/-- The rest of the heap is as it was. -/
theorem withDirectory_other {i : Nat} (h : ¬ (base ≤ i ∧ i < base + 1026)) :
    (withDirectory s base flags).heap.entries i = s.heap.entries i := by
  show (if _ then _ else _) = _
  rw [if_neg (by omega)]

theorem withDirectory_live (hbase : base + 1026 ≤ 25600) {j : Nat} (hj : j < 1026) :
    (withDirectory s base flags).live (blockAddress (base + j)) = some (directoryObject base flags j) := by
  show (if _ then _ else _) = _
  have hindex : (0x01000000 + 4096 * (base + j) - 0x01000000) / 4096 - base = j := by omega
  rw [blockAddress_toNat (by omega), if_pos (by omega), hindex]

/-- **The kernel is still well formed.** -/
theorem withDirectory_wf (hwf : s.WF) (hbase : base + 1026 ≤ 25600)
    (hfree : ∀ i : Nat, base ≤ i → i < base + 1026 → isBlockTaken (s.heap.entries i) = false) :
    (withDirectory s base flags).WF := by
  refine ⟨hwf.start, hwf.total, fun q o ho => ?_⟩
  change (if _ then _ else _) = some o at ho
  split at ho
  · rename_i hin
    obtain ⟨b, hb⟩ : ∃ b, q.toNat = 0x01000000 + 4096 * b := ⟨(q.toNat - 0x01000000) / 4096, by omega⟩
    refine ⟨b, 1, ⟨Nat.one_pos, ?_, fun i h1 h2 => ?_⟩, ?_⟩
    · show b + 1 ≤ s.heap.total
      rw [hwf.total]
      omega
    · obtain rfl : i = b := by omega
      exact withDirectory_entry (by omega)
    · rw [← UInt32.toNat_inj, heapBlockToAddress_toNat _ (by omega)]
      show q.toNat = (s.heap.start_address.toNat + 4096 * b) % 2 ^ 32
      rw [hwf.start]
      show q.toNat = (0x01000000 + 4096 * b) % 2 ^ 32
      omega
  · obtain ⟨b, n, hext, hq⟩ := hwf.block q o ho
    refine ⟨b, n, ⟨hext.pos, hext.inside, fun i h1 h2 => ?_⟩, hq⟩
    rw [withDirectory_other fun hin => ?_]
    · exact hext.entries i h1 h2
    · have htaken := hext.taken h1 h2
      rw [hfree i hin.1 hin.2] at htaken
      cases htaken

theorem withDirectory_clean (hclean : CleanHeap s.heap) : CleanHeap (withDirectory s base flags).heap := by
  intro i hi hfree
  by_cases hin : base ≤ i ∧ i < base + 1026
  · rw [withDirectory_entry hin, takenEntry_taken] at hfree
    cases hfree
  · rw [withDirectory_other hin] at hfree ⊢
    exact hclean i hi hfree

/-- **It is a directory**, the identity with the flags. -/
theorem withDirectory_maps (hbase : base + 1026 ≤ 25600) (hflags : flags.toNat < 4096)
    (hall : (flags ||| PAGING_IS_WRITABLE) &&& 7 = 7) :
    Maps (withDirectory s base flags) (blockAddress (base + 1025)) (identityEntry flags) := by
  have haddress : ∀ i < 1024, (blockAddress (base + 1 + i)).toNat = 0x01000000 + 4096 * (base + 1 + i) :=
    fun i hi => blockAddress_toNat (by omega)
  have hlow : (flags ||| PAGING_IS_WRITABLE).toNat < 4096 := by
    rw [UInt32.toNat_or]
    exact Nat.or_lt_two_pow (n := 12) hflags (by decide)
  have hentries : (withDirectory s base flags).live (blockAddress base) =
      some (tableK.inj fun i => blockAddress (base + 1 + i) ||| (flags ||| PAGING_IS_WRITABLE)) :=
    withDirectory_live hbase (j := 0) (by decide)
  refine ⟨blockAddress base, fun i => blockAddress (base + 1 + i), ?_, ⟨_, hentries, fun i hi => ⟨?_, ?_⟩⟩,
    fun i hi => ?_, fun i j hi hj heq => ?_, fun i hi heq => ?_⟩
  · exact withDirectory_live hbase (by decide)
  · have haligned : (blockAddress (base + 1 + i)).toNat % 4096 = 0 := by
      rw [haddress i hi]
      omega
    rw [page_or_flags haligned hlow]
  · rw [flags_or_page (by rw [haddress i hi]; omega) (by decide)]
    exact hall
  · refine ⟨fun j => identityEntry flags (1024 * i + j), ?_, fun j _ => rfl⟩
    have hlive : (withDirectory s base flags).live (blockAddress (base + (1 + i))) = _ :=
      withDirectory_live hbase (by omega)
    rw [directoryObject, if_neg (by omega), if_pos (by omega), show 1 + i - 1 = i by omega, ← Nat.add_assoc] at hlive
    exact hlive
  · have hnat := congrArg UInt32.toNat heq
    rw [haddress i hi, haddress j hj] at hnat
    omega
  · have hnat := congrArg UInt32.toNat heq
    rw [haddress i hi, blockAddress_toNat (by omega)] at hnat
    omega

end WithDirectory

end RasOS
