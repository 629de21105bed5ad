import RasOS.Disk.Ata
import RasOS.Lib.Lockstep
import RasOS.Lib.X86

set_option autoImplicit false

/-! # The boot loader (`boot/boot.asm`)

The second half of the boot loader, in protected mode: `ata_lba_read` reads the kernel from the disk, the way
`disk_read_sector` does, and `load32` jumps to it. What the loader leaves as the BIOS had it, the descriptors
behind `es` and `ss` and the A20 line, is a parameter: the kernel sets all three, but only once it is running.

The number of sectors that are left lies on the stack while one is read, so the memory is that of the driver
written in C but for the four bytes below the return address. -/

namespace RasOS

open Machine

/-! ## The code -/

/-- What the processor keeps of the descriptor of a segment. -/
structure SegmentCache where
  base : UInt32
  limit : UInt32
  /-- 32-bit stack operations, for `ss` -/
  big : Bool
deriving DecidableEq

def SegmentCache.flat : SegmentCache where
  base := 0
  limit := 0xFFFFFFFF
  big := true

/-- What decides where a store of the loader goes. `main` loads `es` and `ss` in real mode, and nothing of
`boot.asm` loads them again in protected mode; the A20 line is enabled in `kernel.asm`. -/
structure Addressing where
  es : SegmentCache
  ss : SegmentCache
  a20 : Bool

/-- Every address is the one it reads. -/
structure Addressing.Flat (env : Addressing) : Prop where
  es : env.es = SegmentCache.flat
  ss : env.ss = SegmentCache.flat
  a20 : env.a20 = true

/-- The processor and the drive. -/
structure BootHost where
  cpu : Cpu
  drive : AtaDrive

abbrev BootM := Prog BootHost

def CODE_SEG_GDT_OFFSET : UInt16 := 8

def EFLAGS_DF : UInt32 := 0x400

/-- An instruction that has nothing to do with the drive. -/
def onCpu {α : Type} (x : Asm α) : BootM α := fun s => (x s.cpu).map fun r => (r.1, { s with cpu := r.2 })

/-- An instruction that uses the stack. Through another `ss` than a flat one it is not modelled. -/
def onStack {α : Type} (env : Addressing) (x : Asm α) : BootM α := fun s =>
  if env.ss = SegmentCache.flat then onCpu x s else none

/-- `edx` with another lower half. -/
def withDx (edx : UInt32) (w : UInt16) : UInt32 := edx &&& 0xFFFF0000 ||| w.toUInt32

/-- `mov dx, w`. -/
def movDx (w : UInt16) : BootM Unit := onCpu (op fun c => { c with edx := withDx c.edx w })

/-- The accumulator with another lowest byte. -/
def withAl (eax : UInt32) (v : UInt8) : UInt32 := eax &&& 0xFFFFFF00 ||| v.toUInt32

/-- `out dx, al`. -/
def outDxAl : BootM Unit := fun s =>
  some ((), { s with drive := s.drive.outPort s.cpu.edx.toUInt16 s.cpu.eax.toUInt8 })

/-- `in al, dx`, of the status. -/
def inAlDx : BootM Unit := fun s =>
  if s.cpu.edx.toUInt16 = 0x1F7 then
    some ((), { cpu := { s.cpu with eax := withAl s.cpu.eax s.drive.status }, drive := s.drive.polled })
  else
    some ((), { s with cpu := { s.cpu with eax := withAl s.cpu.eax 0xFF } })

/-- `rep insw`, of the data, with the direction flag clear. It stores through `es`: past its limit the processor
faults, and without the A20 line the words go to the first megabyte, neither of which is modelled. -/
def repInsw (env : Addressing) : BootM Unit := fun s =>
  if s.cpu.edx.toUInt16 = 0x1F0 ∧ s.cpu.eflags &&& EFLAGS_DF = 0 ∧ env.es = SegmentCache.flat ∧ env.a20 = true then
    let r := copyWords s.cpu.ecx.toNat s.cpu.edi (s.drive, s.cpu.mem)
    some ((), {
      cpu := { s.cpu with mem := r.2, edi := s.cpu.edi + 2 * s.cpu.ecx, ecx := 0 }
      drive := r.1 })
  else
    none

/-- The loop at `.try_again`, for a number of reads. -/
def tryAgainLoop : (polls : Nat) → BootM Unit
  | 0 => stop
  | polls + 1 => do
      movDx 0x1F7
      inAlDx
      let al ← onCpu (val fun c => c.eax.toUInt8)
      if al &&& 8 = 0 then tryAgainLoop polls else return ()

/-- One turn of the loop at `.next_sector`, with the count `loop` does. -/
def nextSector (env : Addressing) (polls : Nat) : BootM Unit := do
  let ecx ← onCpu (val Cpu.ecx)
  onStack env (push ecx)
  tryAgainLoop polls
  onCpu (op fun c => { c with ecx := 256 })
  movDx 0x1F0
  repInsw env
  let ecx ← onStack env pop
  onCpu (op fun c => { c with ecx := ecx - 1 })

/-- The loop at `.next_sector`, for at most `turns` turns. -/
def nextSectorLoop (env : Addressing) (polls : Nat) : (turns : Nat) → BootM Unit
  | 0 => stop
  | turns + 1 => do
      nextSector env polls
      let ecx ← onCpu (val Cpu.ecx)
      if ecx ≠ 0 then nextSectorLoop env polls turns else return ()

/-- `ata_lba_read` up to its `ret`. With 0 in `ecx` the `loop` goes all the way round. -/
def ataLbaRead (env : Addressing) (polls : Nat) : BootM Unit := do
  onCpu (op fun c => { c with ebx := c.eax })
  onCpu (op fun c => { c with eax := c.eax >>> 24 })
  onCpu (op fun c => { c with eax := c.eax ||| 0xE0 })
  movDx 0x1F6
  outDxAl
  onCpu (op fun c => { c with eax := c.ecx })
  movDx 0x1F2
  outDxAl
  onCpu (op fun c => { c with eax := c.ebx })
  movDx 0x1F3
  outDxAl
  movDx 0x1F4
  onCpu (op fun c => { c with eax := c.ebx })
  onCpu (op fun c => { c with eax := c.eax >>> 8 })
  outDxAl
  movDx 0x1F5
  onCpu (op fun c => { c with eax := c.ebx })
  onCpu (op fun c => { c with eax := c.eax >>> 16 })
  outDxAl
  movDx 0x1F7
  onCpu (op fun c => { c with eax := withAl c.eax 0x20 })
  outDxAl
  let ecx ← onCpu (val Cpu.ecx)
  nextSectorLoop env polls (if ecx = 0 then 2 ^ 32 else ecx.toNat)

/-- `load32`; `next` is the address behind its call. -/
def load32 (env : Addressing) (polls : Nat) (next : UInt32) : BootM Unit := do
  onCpu (op fun c => { c with eax := 1 })
  onCpu (op fun c => { c with ecx := 100 })
  onCpu (op fun c => { c with edi := 0x0100000 })
  onStack env (push next)
  ataLbaRead env polls
  let a ← onStack env pop
  if a = next then
    onCpu (op fun c => { c with cs := CODE_SEG_GDT_OFFSET, eip := 0x0100000 })
  else
    stop

/-! ## Registers -/

theorem toUInt16_withDx (x : UInt32) (w : UInt16) : (withDx x w).toUInt16 = w := by
  have hw := w.toNat_lt
  have hmask : UInt32.toNat 0xFFFF0000 % 2 ^ 16 = 0 := rfl
  apply UInt16.toNat_inj.mp
  rw [withDx, UInt32.toNat_toUInt16, UInt32.toNat_or, UInt32.toNat_and, Nat.or_mod_two_pow, Nat.and_mod_two_pow, hmask,
    Nat.and_zero, Nat.zero_or, UInt16.toNat_toUInt32, Nat.mod_eq_of_lt hw]

theorem toUInt8_withAl (x : UInt32) (v : UInt8) : (withAl x v).toUInt8 = v := by
  have hv := v.toNat_lt
  have hmask : UInt32.toNat 0xFFFFFF00 % 2 ^ 8 = 0 := rfl
  apply UInt8.toNat_inj.mp
  rw [withAl, UInt32.toNat_toUInt8, UInt32.toNat_or, UInt32.toNat_and, Nat.or_mod_two_pow, Nat.and_mod_two_pow, hmask,
    Nat.and_zero, Nat.zero_or, UInt8.toNat_toUInt32, Nat.mod_eq_of_lt hv]

/-! ## Memory beside the stack -/

/-- The memories agree but for the four bytes at `p`. -/
def AgreeBut (p : UInt32) (m m' : UInt32 → UInt8) : Prop := ∀ x, 4 ≤ (x - p).toNat → m x = m' x

section Memory

variable {p a : UInt32} {m m' : UInt32 → UInt8} {d : AtaDrive}

theorem AgreeBut.setDword (h : AgreeBut p m m') (v : UInt32) : AgreeBut p (setDword m p v) m' := by
  intro x hx
  unfold Machine.setDword
  rw [if_neg (by omega)]
  exact h x hx

theorem AgreeBut.copyWords (n : Nat) : ∀ {a : UInt32} {m m' : UInt32 → UInt8} {d : AtaDrive}, AgreeBut p m m' →
    (copyWords n a (d, m)).1 = (copyWords n a (d, m')).1 ∧
      AgreeBut p (copyWords n a (d, m)).2 (copyWords n a (d, m')).2 := by
  induction n with
  | zero =>
      intro a m m' d h
      exact ⟨rfl, h⟩
  | succ n ih =>
      intro a m m' d h
      apply ih
      intro x hx
      unfold setWord
      dsimp only
      rw [h x hx]

theorem copyWords_outside (n : Nat) : ∀ {a x : UInt32} {m : UInt32 → UInt8} {d : AtaDrive},
    2 * n ≤ (x - a).toNat → (copyWords n a (d, m)).2 x = m x := by
  induction n with
  | zero =>
      intro a x m d _
      rfl
  | succ n ih =>
      intro a x m d h
      have hdist : (x - (a + 2)).toNat = (x - a).toNat - 2 := by
        have hx := (x - a).toNat_lt
        have hsub := toNat_sub_offset x a 2
        rw [show UInt32.ofNat 2 = 2 from rfl] at hsub
        omega
      rw [copyWords, ih (by omega)]
      have h0 : x ≠ a := by
        rintro rfl
        rw [UInt32.sub_self] at h
        exact absurd h (by show ¬ (2 * (n + 1) ≤ 0); omega)
      have h1 : x ≠ a + 1 := by
        rintro rfl
        have hone : (a + 1 - a).toNat = 1 := toNat_offset a (n := 1) (by decide)
        omega
      unfold setWord
      rw [if_neg h0, if_neg h1]

/-- A value behind what is read stays. -/
theorem dword_copyWords {n : Nat} {b : UInt32} (h1 : 2 * n ≤ (b - a).toNat) (h2 : (b - a).toNat + 4 ≤ 2 ^ 32) :
    dword (copyWords n a (d, m)).2 b = dword m b := by
  have hbyte : ∀ i : UInt32, i.toNat < 4 → (copyWords n a (d, m)).2 (b + i) = m (b + i) := by
    intro i hi
    have hdist : (b + i - a).toNat = (b - a).toNat + i.toNat := toNat_sub_add (by omega)
    exact copyWords_outside n (by omega)
  have h0 := hbyte 0 (by decide)
  rw [UInt32.add_zero] at h0
  unfold dword
  rw [h0, hbyte 1 (by decide), hbyte 2 (by decide), hbyte 3 (by decide)]

end Memory

/-! ## The loops -/

/-- The two drivers between two steps: the same drive, and the same memory but for the slot of the number of
sectors, below the stack pointer `sp` of the assembly. -/
structure Beside (sp : UInt32) (h : AtaHost) (s : BootHost) : Prop where
  drive : s.drive = h.drive
  mem : AgreeBut (sp - 4) s.cpu.mem h.mem
  df : s.cpu.eflags &&& EFLAGS_DF = 0

section Loops

variable {env : Addressing} {polls : Nat} {sp : UInt32} {h : AtaHost} {s : BootHost}

theorem onStack_flat {α : Type} (hflat : env.Flat) (x : Asm α) (s : BootHost) : onStack env x s = onCpu x s :=
  if_pos hflat.ss

/-- One read of the status. -/
theorem tryAgainLoop_step (polls : Nat) (s : BootHost) : ∃ edx, tryAgainLoop (polls + 1) s =
    if s.drive.status &&& 8 = 0 then
      tryAgainLoop polls ⟨{ s.cpu with edx := edx, eax := withAl s.cpu.eax s.drive.status }, s.drive.polled⟩
    else some ((), ⟨{ s.cpu with edx := edx, eax := withAl s.cpu.eax s.drive.status }, s.drive.polled⟩) := by
  refine ⟨withDx s.cpu.edx 0x1F7, ?_⟩
  have hport := toUInt16_withDx s.cpu.edx 0x1F7
  generalize hedx : withDx s.cpu.edx 0x1F7 = edx at hport
  have hmov : movDx 0x1F7 s = some ((), { s with cpu := { s.cpu with edx := edx } }) := by
    rw [← hedx]
    rfl
  have hin : inAlDx { s with cpu := { s.cpu with edx := edx } } = some ((),
      ⟨{ s.cpu with edx := edx, eax := withAl s.cpu.eax s.drive.status }, s.drive.polled⟩) := if_pos hport
  have hal : onCpu (val fun c => c.eax.toUInt8)
      ⟨{ s.cpu with edx := edx, eax := withAl s.cpu.eax s.drive.status }, s.drive.polled⟩ =
      some (s.drive.status, ⟨{ s.cpu with edx := edx, eax := withAl s.cpu.eax s.drive.status }, s.drive.polled⟩) := by
    have hbyte := toUInt8_withAl s.cpu.eax s.drive.status
    show some ((withAl s.cpu.eax s.drive.status).toUInt8, _) = _
    rw [hbyte]
  rw [tryAgainLoop, bind_of_some hmov, bind_of_some hin, bind_of_some hal]
  by_cases hdrq : s.drive.status &&& 8 = 0
  · rw [if_pos hdrq, if_pos hdrq]
  · rw [if_neg hdrq, if_neg hdrq]
    rfl

/-- The drivers wait alike. -/
theorem tryAgainLoop_waits (polls : Nat) : ∀ {h : AtaHost} {s : BootHost}, Beside sp h s →
    InStep (waitLoop polls) h (tryAgainLoop polls) s fun _ h' _ s' => h'.mem = h.mem ∧
      ∃ eax edx, s' = ⟨{ s.cpu with eax := eax, edx := edx }, h'.drive⟩ := by
  induction polls with
  | zero =>
      intro h s _
      exact InStep.of_none rfl rfl
  | succ polls ih =>
      intro h s hbeside
      obtain ⟨edx, hstep⟩ := tryAgainLoop_step polls s
      unfold InStep
      rw [waitLoop_step, hstep, hbeside.drive]
      by_cases hdrq : h.drive.status &&& 8 = 0
      · have hdrq' : h.drive.status &&& 0x08 = 0 := hdrq
        rw [if_pos hdrq, if_pos hdrq']
        refine (ih (h := { h with drive := h.drive.polled })
          (s := ⟨{ s.cpu with edx := edx, eax := withAl s.cpu.eax h.drive.status }, h.drive.polled⟩)
          ⟨rfl, hbeside.mem, hbeside.df⟩).mono ?_
        rintro _ h' _ s' ⟨hmem, eax', edx', rfl⟩
        exact ⟨hmem, eax', edx', rfl⟩
      · have hdrq' : ¬ h.drive.status &&& 0x08 = 0 := hdrq
        rw [if_neg hdrq, if_neg hdrq']
        exact Or.inr ⟨_, _, _, _, rfl, rfl, rfl, _, _, rfl⟩

/-- The words of a sector, taken by both drivers. The slot on the stack is behind them. -/
theorem repInsw_takes (hflat : env.Flat) {c : Cpu} {ptr : UInt32} (hmem : AgreeBut (sp - 4) c.mem h.mem)
    (hdf : c.eflags &&& EFLAGS_DF = 0) (hport : c.edx.toUInt16 = 0x1F0) (hedi : c.edi = ptr) (hecx : c.ecx = 256)
    (hroom : 512 ≤ (sp - 4 - ptr).toNat) (hend : (sp - 4 - ptr).toNat + 4 ≤ 2 ^ 32) :
    InStep (readWordsLoop 256 ptr) h (repInsw env) ⟨c, h.drive⟩ fun _ h' _ s' => s'.drive = h'.drive ∧
      AgreeBut (sp - 4) s'.cpu.mem h'.mem ∧ dword s'.cpu.mem (sp - 4) = dword c.mem (sp - 4) ∧
      ∃ mem, s'.cpu = { c with mem := mem, edi := ptr + 512, ecx := 0 } := by
  subst hedi
  have hrep : repInsw env ⟨c, h.drive⟩ = some ((), {
      cpu := { c with
        mem := (copyWords c.ecx.toNat c.edi (h.drive, c.mem)).2
        edi := c.edi + 2 * c.ecx
        ecx := 0 }
      drive := (copyWords c.ecx.toNat c.edi (h.drive, c.mem)).1 }) :=
    if_pos ⟨hport, hdf, hflat.es, hflat.a20⟩
  have hcount : c.ecx.toNat = 256 := by
    rw [hecx]
    rfl
  obtain ⟨hsame, hagree⟩ := hmem.copyWords 256 (a := c.edi) (d := h.drive)
  apply InStep.of_some (readWordsLoop_eq 256 c.edi h) hrep
  dsimp only
  rw [hcount, hecx]
  exact ⟨hsame, hagree, dword_copyWords (by omega) hend, _, rfl⟩

/-- One sector. The number of those left is pushed before it and popped behind it. -/
theorem nextSector_reads (hflat : env.Flat) {ptr : UInt32} (hbeside : Beside sp h s) (hesp : s.cpu.esp = sp)
    (hedi : s.cpu.edi = ptr) (hroom : 512 ≤ (sp - 4 - ptr).toNat) (hend : (sp - 4 - ptr).toNat + 4 ≤ 2 ^ 32) :
    InStep (do
        waitLoop polls
        readWordsLoop 256 ptr) h (nextSector env polls) s fun _ h' _ s' =>
      Beside sp h' s' ∧ s'.cpu.esp = sp ∧ s'.cpu.edi = ptr + 512 ∧ s'.cpu.ecx = s.cpu.ecx - 1 := by
  have hpush : s.cpu.push s.cpu.ecx = { s.cpu with esp := sp - 4, mem := setDword s.cpu.mem (sp - 4) s.cpu.ecx } := by
    rw [Cpu.push, hesp]
  have hslot := dword_setDword s.cpu.mem (sp - 4) s.cpu.ecx
  have hmem := hbeside.mem.setDword s.cpu.ecx
  generalize setDword s.cpu.mem (sp - 4) s.cpu.ecx = mem at hpush hslot hmem
  unfold nextSector
  apply InStep.right rfl
  apply InStep.right (onStack_flat hflat _ _)
  rw [hpush]
  have hpushed : Beside sp h ⟨{ s.cpu with esp := sp - 4, mem := mem }, s.drive⟩ := ⟨hbeside.drive, hmem, hbeside.df⟩
  refine (tryAgainLoop_waits polls hpushed).bind ?_
  rintro _ h1 _ _ ⟨hmem1, eax, edx, rfl⟩
  -- the words
  apply InStep.right rfl
  apply InStep.right rfl
  have hport := toUInt16_withDx edx 0x1F0
  refine (repInsw_takes hflat (c := { s.cpu with
    esp := sp - 4, mem := mem, eax := eax, ecx := 256, edx := withDx edx 0x1F0 })
    ?_ hbeside.df hport hedi rfl hroom hend).bind_right ?_
  · rw [hmem1]
    exact hmem
  · rintro _ h2 _ ⟨c2, d2⟩ ⟨hdrive, hagree, hkept, mem2, rfl⟩
    have hpop := onStack_flat hflat pop ⟨{ s.cpu with
      esp := sp - 4, mem := mem2, eax := eax, ecx := 0, edx := withDx edx 0x1F0, edi := ptr + 512 }, d2⟩
    refine ⟨(), ⟨_, d2⟩, bind_of_some hpop, ⟨hdrive, hagree, hbeside.df⟩, UInt32.sub_add_cancel .., rfl, ?_⟩
    exact congrArg (· - 1) (hkept.trans hslot)

/-- **The drivers read the sectors alike.** By induction on their number, which the assembly keeps in `ecx` and
on its stack. -/
theorem nextSectorLoop_reads (hflat : env.Flat) {n : Nat} :
    ∀ {h : AtaHost} {s : BootHost} {ptr : UInt32} {turns : Nat}, Beside sp h s →
    s.cpu.esp = sp → s.cpu.edi = ptr → s.cpu.ecx.toNat = n + 1 → n + 1 ≤ turns →
    512 * (n + 1) ≤ (sp - 4 - ptr).toNat → (sp - 4 - ptr).toNat + 4 ≤ 2 ^ 32 →
    InStep (readSectorsLoop polls (n + 1) ptr) h (nextSectorLoop env polls turns) s fun _ h' _ s' =>
      Beside sp h' s' ∧ s'.cpu.esp = sp := by
  have hturn : ∀ n ptr, readSectorsLoop polls (n + 1) ptr = (do
      waitLoop polls
      readWordsLoop 256 ptr) >>= fun _ => readSectorsLoop polls n (ptr + 512) := by
    intro n ptr
    rw [bind_assoc]
    rfl
  induction n with
  | zero =>
      intro h s ptr turns hbeside hesp hedi hecx hturns hroom hend
      obtain ⟨turns, rfl⟩ : ∃ k, turns = k + 1 := ⟨turns - 1, by omega⟩
      rw [hturn]
      refine (nextSector_reads hflat hbeside hesp hedi hroom hend).bind ?_
      rintro _ h' _ s' ⟨hbeside', hesp', -, hecx'⟩
      have hlast : s'.cpu.ecx = 0 := by
        apply UInt32.toNat_inj.mp
        rw [hecx', UInt32.toNat_sub, hecx]
        rfl
      -- `loop` falls through
      refine InStep.right (Eq.refl (some (s'.cpu.ecx, s'))) ?_
      rw [if_neg (not_not.mpr hlast)]
      exact InStep.of_some rfl rfl ⟨hbeside', hesp'⟩
  | succ n ih =>
      intro h s ptr turns hbeside hesp hedi hecx hturns hroom hend
      obtain ⟨turns, rfl⟩ : ∃ k, turns = k + 1 := ⟨turns - 1, by omega⟩
      rw [hturn]
      refine (nextSector_reads hflat hbeside hesp hedi (by omega) hend).bind ?_
      rintro _ h' _ s' ⟨hbeside', hesp', hedi', hecx'⟩
      have hleft : s'.cpu.ecx.toNat = n + 1 := by
        have hlt := s.cpu.ecx.toNat_lt
        rw [hecx', UInt32.toNat_sub, hecx, UInt32.toNat_one]
        omega
      have hmore : s'.cpu.ecx ≠ 0 := by
        intro h0
        rw [h0] at hleft
        exact absurd hleft (Nat.succ_ne_zero n).symm
      have hdist : (sp - 4 - (ptr + 512)).toNat = (sp - 4 - ptr).toNat - 512 := by
        have hsub := toNat_sub_offset (sp - 4) ptr 512
        rw [show UInt32.ofNat 512 = 512 from rfl] at hsub
        omega
      refine InStep.right (Eq.refl (some (s'.cpu.ecx, s'))) ?_
      rw [if_pos hmore]
      exact ih hbeside' hesp' hedi' hleft (by omega) (by omega) (by omega)

end Loops

/-! ## The request -/

/-- Both drivers write the same to the ports. -/
theorem ataLbaRead_request (env : Addressing) (polls : Nat) (s : BootHost) : ∃ eax edx, ataLbaRead env polls s =
    nextSectorLoop env polls (if s.cpu.ecx = 0 then 2 ^ 32 else s.cpu.ecx.toNat)
      ⟨{ s.cpu with ebx := s.cpu.eax, eax := eax, edx := edx }, readRequest s.drive s.cpu.eax s.cpu.ecx.toUInt8⟩ := by
  have hwhole : ataLbaRead env polls s = nextSectorLoop env polls (if s.cpu.ecx = 0 then 2 ^ 32 else s.cpu.ecx.toNat)
      ⟨{ s.cpu with
          ebx := s.cpu.eax
          eax := withAl (s.cpu.eax >>> 16) 0x20
          edx := withDx (withDx (withDx (withDx (withDx (withDx s.cpu.edx 0x1F6) 0x1F2) 0x1F3) 0x1F4) 0x1F5) 0x1F7 },
        (((((s.drive.outPort (withDx s.cpu.edx 0x1F6).toUInt16 (s.cpu.eax >>> 24 ||| 0xE0).toUInt8).outPort
          (withDx (withDx s.cpu.edx 0x1F6) 0x1F2).toUInt16 s.cpu.ecx.toUInt8).outPort
          (withDx (withDx (withDx s.cpu.edx 0x1F6) 0x1F2) 0x1F3).toUInt16 s.cpu.eax.toUInt8).outPort
          (withDx (withDx (withDx (withDx s.cpu.edx 0x1F6) 0x1F2) 0x1F3) 0x1F4).toUInt16
            (s.cpu.eax >>> 8).toUInt8).outPort
          (withDx (withDx (withDx (withDx (withDx s.cpu.edx 0x1F6) 0x1F2) 0x1F3) 0x1F4) 0x1F5).toUInt16
            (s.cpu.eax >>> 16).toUInt8).outPort
          (withDx (withDx (withDx (withDx (withDx (withDx s.cpu.edx 0x1F6) 0x1F2) 0x1F3) 0x1F4) 0x1F5) 0x1F7).toUInt16
            (withAl (s.cpu.eax >>> 16) 0x20).toUInt8⟩ := rfl
  have hlow : (s.cpu.eax &&& 0xFF).toUInt8 = s.cpu.eax.toUInt8 := by
    rw [UInt32.toUInt8_and]
    exact UInt8.and_neg_one
  have hhigh : (s.cpu.eax >>> 24 ||| 0xE0).toUInt8 = (s.cpu.eax >>> 24).toUInt8 ||| 0xE0 := UInt32.toUInt8_or ..
  rw [hwhole, readRequest, hlow, ← hhigh]
  simp only [toUInt16_withDx, toUInt8_withAl]
  exact ⟨_, _, rfl⟩

/-- **The two drivers agree.** For 1 to 2³¹ - 1 sectors, and with a stack that is not in the buffer: where
`disk_read_sector` goes on for ever `ata_lba_read` does, and where it returns, `ata_lba_read` does and leaves
the same drive and the same memory, but for the four bytes below its return address. -/
theorem ataLbaRead_agrees {env : Addressing} (hflat : env.Flat) (polls : Nat) (s : BootHost)
    (h0 : s.cpu.ecx ≠ 0) (h1 : s.cpu.ecx.toNat < 2 ^ 31)
    (hdf : s.cpu.eflags &&& EFLAGS_DF = 0) (hroom : 512 * s.cpu.ecx.toNat ≤ (s.cpu.esp - 4 - s.cpu.edi).toNat)
    (hend : (s.cpu.esp - 4 - s.cpu.edi).toNat + 4 ≤ 2 ^ 32) :
    InStep (diskReadSector polls s.cpu.eax (signed s.cpu.ecx) s.cpu.edi) ⟨s.drive, s.cpu.mem⟩ (ataLbaRead env polls) s
      fun r h' _ s' => r = OK ∧ s'.drive = h'.drive ∧ AgreeBut (s.cpu.esp - 4) s'.cpu.mem h'.mem ∧
        s'.cpu.esp = s.cpu.esp := by
  have hsigned : signed s.cpu.ecx = s.cpu.ecx.toNat := signed_of_lt h1
  obtain ⟨n, hn⟩ : ∃ n, s.cpu.ecx.toNat = n + 1 := by
    refine ⟨s.cpu.ecx.toNat - 1, ?_⟩
    have hpos : s.cpu.ecx.toNat ≠ 0 := fun h => h0 (UInt32.toNat_inj.mp h)
    omega
  have hcount : (UInt32.ofInt (signed s.cpu.ecx)).toUInt8 = s.cpu.ecx.toUInt8 := by
    have hword : UInt32.ofInt s.cpu.ecx.toNat = s.cpu.ecx := by
      apply UInt32.toNat_inj.mp
      rw [toNat_ofInt]
      omega
    rw [hsigned, hword]
  obtain ⟨eax, edx, hrequest⟩ := ataLbaRead_request env polls s
  have hloops : InStep (readSectorsLoop polls (n + 1) s.cpu.edi)
      ⟨readRequest s.drive s.cpu.eax s.cpu.ecx.toUInt8, s.cpu.mem⟩ (nextSectorLoop env polls s.cpu.ecx.toNat)
      ⟨{ s.cpu with ebx := s.cpu.eax, eax := eax, edx := edx }, readRequest s.drive s.cpu.eax s.cpu.ecx.toUInt8⟩
      fun _ h' _ s' => Beside s.cpu.esp h' s' ∧ s'.cpu.esp = s.cpu.esp :=
    nextSectorLoop_reads hflat ⟨rfl, fun _ _ => rfl, hdf⟩ rfl rfl hn (by omega) (by omega) hend
  rw [if_neg h0] at hrequest
  unfold InStep at hloops ⊢
  rw [hrequest, diskReadSector_eq, hcount, hsigned, Int.toNat_natCast]
  rw [← hn] at hloops
  rcases hloops with ⟨hleft, hright⟩ | ⟨_, h', _, s', hleft, hright, hbeside, hesp⟩
  · rw [hleft, hright]
    exact Or.inl ⟨rfl, rfl⟩
  · rw [hleft, hright]
    exact Or.inr ⟨0, h', (), s', rfl, rfl, rfl, hbeside.drive, hbeside.mem, hesp⟩

/-! ## Loading the kernel -/

/-- The stack of the boot loader is below the place of the kernel. -/
def StackBelow (c : Cpu) : Prop := 8 ≤ c.esp.toNat ∧ c.esp.toNat ≤ 0x100000

/-- The registers and the stack at the call of `ata_lba_read`. -/
def callingCpu (next : UInt32) (c : Cpu) : Cpu :=
  { c with eax := 1, ecx := 100, edi := 0x0100000, esp := c.esp - 4, mem := setDword c.mem (c.esp - 4) next }

section Load

variable {env : Addressing} {polls : Nat} {next : UInt32} {s : BootHost}

theorem load32_calls (hflat : env.Flat) (polls : Nat) (next : UInt32) (s : BootHost) : load32 env polls next s =
    (ataLbaRead env polls >>= fun _ => do
      let a ← onStack env pop
      if a = next then
        onCpu (op fun c => { c with cs := CODE_SEG_GDT_OFFSET, eip := 0x0100000 })
      else
        stop) ⟨callingCpu next s.cpu, s.drive⟩ := by
  have heax : onCpu (op fun c => { c with eax := 1 }) s = some ((), ⟨{ s.cpu with eax := 1 }, s.drive⟩) := rfl
  have hecx : onCpu (op fun c => { c with ecx := 100 }) ⟨{ s.cpu with eax := 1 }, s.drive⟩ =
      some ((), ⟨{ s.cpu with eax := 1, ecx := 100 }, s.drive⟩) := rfl
  have hedi : onCpu (op fun c => { c with edi := 0x0100000 }) ⟨{ s.cpu with eax := 1, ecx := 100 }, s.drive⟩ =
      some ((), ⟨{ s.cpu with eax := 1, ecx := 100, edi := 0x0100000 }, s.drive⟩) := rfl
  have hpush : onStack env (push next) ⟨{ s.cpu with eax := 1, ecx := 100, edi := 0x0100000 }, s.drive⟩ =
      some ((), ⟨callingCpu next s.cpu, s.drive⟩) := onStack_flat hflat _ _
  rw [load32, bind_of_some heax, bind_of_some hecx, bind_of_some hedi, bind_of_some hpush]

theorem StackBelow.agrees (h : StackBelow s.cpu) (hflat : env.Flat) (hdf : s.cpu.eflags &&& EFLAGS_DF = 0) (polls : Nat)
    (next : UInt32) : InStep (diskReadSector polls 1 100 0x0100000) ⟨s.drive, setDword s.cpu.mem (s.cpu.esp - 4) next⟩
      (ataLbaRead env polls) ⟨callingCpu next s.cpu, s.drive⟩ fun r h' _ s' => r = OK ∧ s'.drive = h'.drive ∧
        AgreeBut (s.cpu.esp - 4 - 4) s'.cpu.mem h'.mem ∧ s'.cpu.esp = s.cpu.esp - 4 := by
  obtain ⟨hlow, hhigh⟩ := h
  have hlt := s.cpu.esp.toNat_lt
  have hslot : (s.cpu.esp - 4 - 4).toNat = s.cpu.esp.toNat - 8 := by
    rw [UInt32.toNat_sub, UInt32.toNat_sub, show (4 : UInt32).toNat = 4 from rfl]
    omega
  have hdist : (s.cpu.esp - 4 - 4 - 0x0100000).toNat = 2 ^ 32 + s.cpu.esp.toNat - 8 - 0x100000 := by
    rw [UInt32.toNat_sub, hslot, show (0x0100000 : UInt32).toNat = 0x100000 from rfl]
    omega
  have hcount : (callingCpu next s.cpu).ecx.toNat = 100 := rfl
  have hsigned : signed (callingCpu next s.cpu).ecx = 100 := by
    rw [signed_of_lt (by rw [hcount]; decide), hcount]
    rfl
  have hroom : 512 * (callingCpu next s.cpu).ecx.toNat ≤ (s.cpu.esp - 4 - 4 - 0x0100000).toNat := by
    rw [hcount, hdist]
    omega
  have hne : (callingCpu next s.cpu).ecx ≠ 0 := (by decide : (100 : UInt32) ≠ 0)
  have hcall := ataLbaRead_agrees hflat polls ⟨callingCpu next s.cpu, s.drive⟩ hne (by rw [hcount]; decide) hdf hroom
    (by rw [show (callingCpu next s.cpu).esp - 4 - (callingCpu next s.cpu).edi = s.cpu.esp - 4 - 4 - 0x0100000 from rfl,
      hdist]; omega)
  rw [hsigned] at hcall
  exact hcall

theorem readsFrom_kernel {d : AtaDrive} : ReadsFrom d polls 1 100 ↔ HandsOut d polls 1 100 := by
  unfold ReadsFrom
  rw [and_iff_right (by decide), and_iff_right (by decide)]
  rfl

theorem kernel_served {d : AtaDrive} (h : HandsOut d polls 1 100) (mem : UInt32 → UInt8) :
    Total (diskReadSector polls 1 100 0x0100000) ⟨d, mem⟩ fun _ h' =>
      h'.mem = filled mem 0x0100000 (sectorBytes d.image 1) 51200 := by
  have hfirst : (1 : UInt32).toNat % 2 ^ 28 = 1 := rfl
  have hlen : 512 * (100 : Int).toNat = 51200 := rfl
  have hserved : Total (diskReadSector polls 1 100 0x0100000) ⟨d, mem⟩ _ :=
    diskReadSector_served (by decide) (by decide) 0x0100000 ⟨d, mem⟩ (readsFrom_kernel.mpr h)
  rw [hfirst, hlen] at hserved
  exact hserved.mono fun _ _ h => h.2.1

/-- Memory with the kernel in it, apart from the slot of `ata_lba_read` on the stack. -/
theorem StackBelow.memory (h : StackBelow s.cpu) {mem : UInt32 → UInt8} (f : Nat → UInt8)
    (hmem : AgreeBut (s.cpu.esp - 4 - 4) mem
      (filled (setDword s.cpu.mem (s.cpu.esp - 4) next) 0x0100000 f 51200)) :
    dword mem (s.cpu.esp - 4) = next ∧ (∀ i < 51200, mem (0x0100000 + UInt32.ofNat i) = f i) ∧
      ∀ x : UInt32, ¬ (0x0100000 ≤ x.toNat ∧ x.toNat < 0x0100000 + 51200) →
        ¬ (s.cpu.esp.toNat - 8 ≤ x.toNat ∧ x.toNat < s.cpu.esp.toNat) → mem x = s.cpu.mem x := by
  obtain ⟨hlow, hhigh⟩ := h
  have hlt := s.cpu.esp.toNat_lt
  have hfour : (4 : UInt32).toNat = 4 := rfl
  have hplace : (0x0100000 : UInt32).toNat = 0x100000 := rfl
  have hnear : (s.cpu.esp - 4).toNat = s.cpu.esp.toNat - 4 := by
    rw [UInt32.toNat_sub, hfour]
    omega
  have hslot : (s.cpu.esp - 4 - 4).toNat = s.cpu.esp.toNat - 8 := by
    rw [UInt32.toNat_sub, hnear, hfour]
    omega
  -- what is outside of the slot
  have hout : ∀ x : UInt32, (x.toNat < s.cpu.esp.toNat - 8 ∨ s.cpu.esp.toNat - 4 ≤ x.toNat) →
      mem x = filled (setDword s.cpu.mem (s.cpu.esp - 4) next) 0x0100000 f 51200 x := by
    intro x hx
    have hxlt := x.toNat_lt
    apply hmem
    rw [UInt32.toNat_sub, hslot]
    omega
  have hbeyond : ∀ x : UInt32, ¬ (0x0100000 ≤ x.toNat ∧ x.toNat < 0x0100000 + 51200) →
      filled (setDword s.cpu.mem (s.cpu.esp - 4) next) 0x0100000 f 51200 x =
        setDword s.cpu.mem (s.cpu.esp - 4) next x := by
    intro x hx
    have hxlt := x.toNat_lt
    apply if_neg
    rw [UInt32.toNat_sub, hplace]
    omega
  refine ⟨?_, ?_, ?_⟩
  · have hbyte : ∀ i : UInt32, i.toNat < 4 → mem (s.cpu.esp - 4 + i) =
        setDword s.cpu.mem (s.cpu.esp - 4) next (s.cpu.esp - 4 + i) := by
      intro i hi
      have hat : (s.cpu.esp - 4 + i).toNat = s.cpu.esp.toNat - 4 + i.toNat := by
        rw [UInt32.toNat_add, hnear]
        omega
      rw [hout _ (by omega), hbeyond _ (by omega)]
    have h0 := hbyte 0 (by decide)
    rw [UInt32.add_zero] at h0
    have hsame : dword mem (s.cpu.esp - 4) = dword (setDword s.cpu.mem (s.cpu.esp - 4) next) (s.cpu.esp - 4) := by
      unfold dword
      rw [h0, hbyte 1 (by decide), hbyte 2 (by decide), hbyte 3 (by decide)]
    exact hsame.trans (dword_setDword ..)
  · intro i hi
    have hat : (0x0100000 + UInt32.ofNat i).toNat = 0x100000 + i := by
      rw [UInt32.toNat_add, hplace, toNat_ofNat_of_lt (by omega)]
      omega
    have hoffset : (0x0100000 + UInt32.ofNat i - 0x0100000).toNat = i := toNat_offset 0x0100000 (by omega)
    rw [hout _ (by omega)]
    unfold filled
    rw [hoffset, if_pos hi]
  · intro x hx hstack
    have hxlt := x.toNat_lt
    rw [hout x (by omega), hbeyond x hx]
    apply if_neg
    rw [UInt32.toNat_sub, hnear]
    omega

end Load

/-- **The boot loader loads the kernel and enters it**, if the BIOS left it flat segments, the A20 line enabled
and the direction flag clear, its stack is below the first megabyte, and the drive can read sectors 1 to 100 in
time: they stand one behind the other from the first megabyte on, nothing else has changed in memory but eight
bytes of the stack, and the processor goes on at the first of them. With a drive that cannot it waits for
ever. -/
theorem load32_loads (env : Addressing) (polls : Nat) (next : UInt32) (s : BootHost) (hflat : env.Flat)
    (hdf : s.cpu.eflags &&& EFLAGS_DF = 0) (hstack : StackBelow s.cpu) :
    (HandsOut s.drive polls 1 100 → Total (load32 env polls next) s fun _ s' =>
      s'.cpu.eip = 0x0100000 ∧ s'.cpu.cs = CODE_SEG_GDT_OFFSET ∧ s'.cpu.esp = s.cpu.esp ∧
      (∀ i < 51200, s'.cpu.mem (0x0100000 + UInt32.ofNat i) = s.drive.image (1 + i / 512) (i % 512)) ∧
      (∀ x : UInt32, ¬ (0x0100000 ≤ x.toNat ∧ x.toNat < 0x0100000 + 51200) →
        ¬ (s.cpu.esp.toNat - 8 ≤ x.toNat ∧ x.toNat < s.cpu.esp.toNat) → s'.cpu.mem x = s.cpu.mem x)) ∧
    (¬ HandsOut s.drive polls 1 100 → load32 env polls next s = none) := by
  have hagrees := hstack.agrees hflat hdf polls next
  constructor
  · intro hhands
    obtain ⟨_, k, hrun, _, h', hfilled, -, hdrive, hmem, hesp⟩ := hagrees.total (kernel_served hhands _)
    rw [hfilled] at hmem
    -- the return address is above what has been read, so `ret` finds it
    obtain ⟨hret, hkernel, hkept⟩ := hstack.memory _ hmem
    have hpop : onStack env pop k = some (next, { k with cpu := { k.cpu with esp := s.cpu.esp } }) := by
      have hback : s.cpu.esp - 4 + 4 = s.cpu.esp := UInt32.sub_add_cancel ..
      rw [onStack_flat hflat]
      unfold onCpu pop
      dsimp only
      rw [hesp, hret, hback]
      rfl
    have hjump : onCpu (op fun c => { c with cs := CODE_SEG_GDT_OFFSET, eip := 0x0100000 })
        { k with cpu := { k.cpu with esp := s.cpu.esp } } = some ((), { k with
          cpu := { k.cpu with esp := s.cpu.esp, cs := CODE_SEG_GDT_OFFSET, eip := 0x0100000 } }) := rfl
    rw [total_of_eq (load32_calls hflat polls next s), total_bind_of_some hrun, total_bind_of_some hpop, if_pos rfl,
      total_of_some hjump]
    exact ⟨rfl, rfl, rfl, hkernel, hkept⟩
  · intro hhands
    have hnone : diskReadSector polls 1 100 0x0100000 ⟨s.drive, setDword s.cpu.mem (s.cpu.esp - 4) next⟩ = none :=
      diskReadSector_hangs (by decide) (by decide) 0x0100000 _ (readsFrom_kernel.not.mpr hhands)
    rw [load32_calls hflat, bind_of_none (hagrees.stops hnone)]

/-- The processor at `load32`. -/
def bootCpu : Cpu where
  eax := 0x11
  ecx := 0
  edx := 0x80
  ebx := 0
  esp := 0x7C00
  ebp := 0
  esi := 0
  edi := 0
  eip := 0x7C80
  eflags := 2
  cs := CODE_SEG_GDT_OFFSET
  ss := 0
  ds := 0
  es := 0
  fs := 0
  gs := 0
  mem := fun _ => 0

/-- Descriptors and line of a BIOS that loads the kernel's place itself. -/
def flatAddressing : Addressing where
  es := SegmentCache.flat
  ss := SegmentCache.flat
  a20 := true

/-- A kernel is loaded from a good disk; with sector 7 damaged the loader waits. -/
theorem load32_loads_small :
    (Total (load32 flatAddressing 4 0x7D00) ⟨bootCpu, { smallDrive with readable := fun _ => true }⟩ fun _ s' =>
      s'.cpu.eip = 0x0100000 ∧
        ∀ i < 51200, s'.cpu.mem (0x0100000 + UInt32.ofNat i) = UInt8.ofNat (1 + i / 512)) ∧
    load32 flatAddressing 4 0x7D00 ⟨bootCpu, smallDrive⟩ = none := by
  have hstack : StackBelow bootCpu := ⟨by decide, by decide⟩
  have hflat : flatAddressing.Flat := ⟨rfl, rfl, rfl⟩
  constructor
  · refine ((load32_loads flatAddressing 4 0x7D00 ⟨bootCpu, { smallDrive with readable := fun _ => true }⟩ hflat
      (by decide) hstack).1 ?_).mono fun _ s' h => ⟨h.1, h.2.2.2.1⟩
    exact fun b _ => ⟨rfl, (by decide : 3 < 4)⟩
  · apply (load32_loads flatAddressing 4 0x7D00 ⟨bootCpu, smallDrive⟩ hflat (by decide) hstack).2
    intro hhands
    exact absurd (hhands 6 (by decide)).1 (by decide)

end RasOS
