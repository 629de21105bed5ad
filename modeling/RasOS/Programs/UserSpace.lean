import RasOS.Idt.Services
import RasOS.Lib.UserMode

set_option autoImplicit false

/-! # The memory of a program

A program runs in ring 3: its accesses go through the page directory that is active, and both entries have to be
present, for the user and, for a write, writable. An access that the processor refuses stops. -/

namespace RasOS

open Machine

abbrev USER_READ : UInt32 := PAGING_IS_PRESENT ||| PAGING_ACCESS_BY_ALL
abbrev USER_WRITE : UInt32 := PAGING_IS_PRESENT ||| PAGING_ACCESS_BY_ALL ||| PAGING_IS_WRITABLE

/-- Where a program gets with an access. -/
def userAddress (access : UInt32) (s : Kernel) (va : UInt32) : Option UInt32 :=
  (pageWalk s s.current_directory va).bind fun entries =>
    if entries.1 &&& access = access ∧ entries.2 &&& access = access then some (pageAddress entries.2 va) else none

def userReadByte (va : UInt32) : KernelM UInt8 := fun s =>
  (userAddress USER_READ s va).map fun a => (s.mem a, s)

def userWriteByte (va : UInt32) (c : UInt8) : KernelM Unit := fun s =>
  (userAddress USER_WRITE s va).map fun a => ((), { s with mem := Function.update s.mem a c })

def userLoad (va : UInt32) : KernelM UInt32 := do
  let b0 ← userReadByte va
  let b1 ← userReadByte (va + 1)
  let b2 ← userReadByte (va + 2)
  let b3 ← userReadByte (va + 3)
  return b0.toUInt32 ||| b1.toUInt32 <<< 8 ||| b2.toUInt32 <<< 16 ||| b3.toUInt32 <<< 24

def userStore (va v : UInt32) : KernelM Unit := do
  userWriteByte va (wordByte v 0)
  userWriteByte (va + 1) (wordByte v 1)
  userWriteByte (va + 2) (wordByte v 2)
  userWriteByte (va + 3) (wordByte v 3)

/-! ## A word of the stack -/

/-- The four bytes at `va` lie in a page that the program may write. -/
structure UserWord (e m : Nat → UInt32) (va : UInt32) : Prop where
  aligned : va.toNat % 4 = 0
  directory : e (va.toNat / 2 ^ 22) &&& USER_WRITE = USER_WRITE
  page : m (va.toNat / 4096) &&& USER_WRITE = USER_WRITE

section UserWord

variable {s : Kernel} {directory : UInt32} {e m : Nat → UInt32} {va : UInt32}

/-- The bytes of the word are in one page. -/
theorem UserWord.toNat_add (h : UserWord e m va) {i : Nat} (hi : i < 4) :
    (va + UInt32.ofNat i).toNat = va.toNat + i := by
  have hlt := va.toNat_lt
  have haligned := h.aligned
  rw [UInt32.toNat_add, UInt32.toNat_ofNat']
  omega

theorem UserWord.address (h : UserWord e m va) {access : UInt32} (haccess : access &&& USER_WRITE = access)
    (hdir : Directory s s.current_directory e 1024 m) {i : Nat} (hi : i < 4) :
    userAddress access s (va + UInt32.ofNat i) = some (taskAddress m va i) := by
  have haligned := h.aligned
  have hadd := h.toNat_add hi
  have hpage : (va + UInt32.ofNat i).toNat / 4096 = va.toNat / 4096 := by omega
  have htable : (va + UInt32.ofNat i).toNat / 2 ^ 22 = va.toNat / 2 ^ 22 := by omega
  have hand : ∀ x : UInt32, x &&& USER_WRITE = USER_WRITE → x &&& access = access := by
    intro x hx
    rw [← haccess, UInt32.and_comm access, ← UInt32.and_assoc, hx]
  unfold userAddress
  rw [hdir.pageWalk, Option.bind_some, hpage, htable, if_pos ⟨hand _ h.directory, hand _ h.page⟩, taskAddress, hpage]

/-- They are at different places. -/
theorem UserWord.address_ne (h : UserWord e m va) {i j : Nat} (hi : i < 4) (hj : j < 4) (hij : i ≠ j) :
    taskAddress m va i ≠ taskAddress m va j := by
  intro heq
  have haligned := h.aligned
  have hnat := congrArg UInt32.toNat heq
  rw [taskAddress, taskAddress, pageAddress_toNat, pageAddress_toNat, h.toNat_add hi, h.toNat_add hj] at hnat
  omega

/-- Memory with a word of the program stored. -/
def withWord (mem : UInt32 → UInt8) (m : Nat → UInt32) (va v : UInt32) : UInt32 → UInt8 :=
  Function.update (Function.update (Function.update (Function.update mem (taskAddress m va 0) (wordByte v 0))
    (taskAddress m va 1) (wordByte v 1)) (taskAddress m va 2) (wordByte v 2)) (taskAddress m va 3) (wordByte v 3)

/-- **What has been stored is what is read.** -/
theorem UserWord.taskWord_withWord (h : UserWord e m va) (mem : UInt32 → UInt8) (v : UInt32) :
    taskWord (withWord mem m va v) m va = v := by
  have h01 := h.address_ne (i := 0) (j := 1) (by decide) (by decide) (by decide)
  have h02 := h.address_ne (i := 0) (j := 2) (by decide) (by decide) (by decide)
  have h03 := h.address_ne (i := 0) (j := 3) (by decide) (by decide) (by decide)
  have h12 := h.address_ne (i := 1) (j := 2) (by decide) (by decide) (by decide)
  have h13 := h.address_ne (i := 1) (j := 3) (by decide) (by decide) (by decide)
  have h23 := h.address_ne (i := 2) (j := 3) (by decide) (by decide) (by decide)
  have hbyte0 : taskByte (withWord mem m va v) m va 0 = wordByte v 0 := by
    rw [taskByte, withWord, Function.update_of_ne h03, Function.update_of_ne h02, Function.update_of_ne h01,
      Function.update_self]
  have hbyte1 : taskByte (withWord mem m va v) m va 1 = wordByte v 1 := by
    rw [taskByte, withWord, Function.update_of_ne h13, Function.update_of_ne h12, Function.update_self]
  have hbyte2 : taskByte (withWord mem m va v) m va 2 = wordByte v 2 := by
    rw [taskByte, withWord, Function.update_of_ne h23, Function.update_self]
  have hbyte3 : taskByte (withWord mem m va v) m va 3 = wordByte v 3 := by
    rw [taskByte, withWord, Function.update_self]
  rw [taskWord, hbyte0, hbyte1, hbyte2, hbyte3, word_wordByte]

theorem UserWord.load (h : UserWord e m va) (hdir : Directory s s.current_directory e 1024 m) :
    userLoad va s = some (taskWord s.mem m va, s) := by
  have hbyte : ∀ i < 4, userReadByte (va + UInt32.ofNat i) s = some (taskByte s.mem m va i, s) := by
    intro i hi
    rw [userReadByte, h.address (by decide) hdir hi]
    rfl
  have hfirst := hbyte 0 (by decide)
  rw [show va + UInt32.ofNat 0 = va from UInt32.add_zero va] at hfirst
  have h1 : userReadByte (va + 1) s = _ := hbyte 1 (by decide)
  have h2 : userReadByte (va + 2) s = _ := hbyte 2 (by decide)
  have h3 : userReadByte (va + 3) s = _ := hbyte 3 (by decide)
  rw [userLoad, bind_of_some hfirst, bind_of_some h1, bind_of_some h2, bind_of_some h3]
  rfl

theorem UserWord.store (h : UserWord e m va) (hdir : Directory s s.current_directory e 1024 m) (v : UInt32) :
    userStore va v s = some ((), { s with mem := withWord s.mem m va v }) := by
  have hbyte : ∀ i < 4, ∀ (mem : UInt32 → UInt8) (c : UInt8),
      userWriteByte (va + UInt32.ofNat i) c { s with mem := mem } =
        some ((), { s with mem := Function.update mem (taskAddress m va i) c }) := by
    intro i hi mem c
    have hdir' : Directory { s with mem := mem } s.current_directory e 1024 m :=
      ⟨hdir.entries, hdir.values, hdir.inj, hdir.ne⟩
    rw [userWriteByte, h.address (by decide) hdir' hi]
    rfl
  have hfirst := hbyte 0 (by decide) s.mem (wordByte v 0)
  rw [show va + UInt32.ofNat 0 = va from UInt32.add_zero va] at hfirst
  have h1 : ∀ mem c, userWriteByte (va + 1) c { s with mem := mem } = _ := hbyte 1 (by decide)
  have h2 : ∀ mem c, userWriteByte (va + 2) c { s with mem := mem } = _ := hbyte 2 (by decide)
  have h3 : ∀ mem c, userWriteByte (va + 3) c { s with mem := mem } = _ := hbyte 3 (by decide)
  rw [userStore, bind_of_some hfirst, bind_of_some (h1 _ _), bind_of_some (h2 _ _)]
  exact h3 _ _

end UserWord

end RasOS
