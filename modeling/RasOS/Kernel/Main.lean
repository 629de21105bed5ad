import RasOS.Fs.MountCost
import RasOS.Idt.Gates
import RasOS.Isr80h.Registration
import RasOS.Keyboard.Typing
import RasOS.Task.Launch

set_option autoImplicit false

/-! # The kernel starts (`kernel.c`)

`kernel_main` fills its tables, mounts the disk, switches paging on, registers what answers interrupts and system
calls, loads the first program and enters it. Interrupts are off until then. -/

namespace RasOS

open Machine

/-! ## The state -/

/-- The fields of `struct tss` that are set. -/
structure Tss where
  esp0 : UInt32 := 0
  ss0 : UInt32 := 0
  deriving DecidableEq

/-- What `lgdt` loads. -/
structure Gdtr where
  size : UInt16
  base : UInt32
  deriving DecidableEq

/-- The functions that are `KEYBOARD_INIT_FUNCTION`. -/
inductive KeyboardInit
  | qwertyKeyboardInit
  deriving DecidableEq

/-- The keyboards there are. -/
inductive KeyboardName
  | qwerty_keyboard
  deriving DecidableEq

/-- `struct keyboard`; the `name` is not read. -/
structure Keyboard where
  init : Option KeyboardInit
  next : Option KeyboardName

/-- The kernel together with what only its start has to do with. `paging` is the bit of `cr0`, `tr` the task
register. -/
structure Startup where
  system : System
  gdt_real : Nat → UInt8
  gdtr : Gdtr
  idt : IdtTable
  tss : Tss
  tr : UInt16
  paging : Bool
  filesystems : Nat → Option FileSystem
  keyboards : KeyboardName → Keyboard
  keyboard_list_head : Option KeyboardName
  keyboard_list_last : Option KeyboardName

abbrev StartupM := Prog Startup

/-- Where the linker has put things. -/
structure Symbols where
  gdt_real : UInt32
  tss : UInt32
  idt_descriptors : UInt32
  idt_zero : UInt32
  isr80h_wrapper : UInt32
  interrupt_pointer_table : Nat → UInt32

section Primitives

variable {α : Type}

def onSystem (x : SystemM α) : StartupM α := fun b => (x b.system).map fun r => (r.1, { b with system := r.2 })

def onIdt (x : IdtM α) : StartupM α := fun b => (x b.idt).map fun r => (r.1, { b with idt := r.2 })

def onGdt (x : GdtM α) : StartupM α := fun b => (x b.gdt_real).map fun r => (r.1, { b with gdt_real := r.2 })

/-- A variable of the state. -/
def look (f : Startup → α) : StartupM α := fun b => some (f b, b)

/-- Change variables. -/
def change (f : Startup → Startup) : StartupM Unit := fun b => some ((), f b)

theorem onSystem_of_some {x : SystemM α} {b : Startup} {a : α} {s : System} (h : x b.system = some (a, s)) :
    onSystem x b = some (a, { b with system := s }) := by
  rw [onSystem, h]
  rfl

theorem onSystem_of_none {x : SystemM α} {b : Startup} (h : x b.system = none) : onSystem x b = none := by
  rw [onSystem, h]
  rfl

theorem change_bind (f : Startup → Startup) (x : Unit → StartupM α) (b : Startup) :
    (change f >>= x) b = x () (f b) := rfl

theorem onKernel_of_none {x : KernelM α} {s : System} (h : x s.kernel = none) : onKernel x s = none := by
  rw [onKernel, h]
  rfl

theorem onIdt_of_some {x : IdtM α} {b : Startup} {a : α} {idt : IdtTable} (h : x b.idt = some (a, idt)) :
    onIdt x b = some (a, { b with idt := idt }) := by
  rw [onIdt, h]
  rfl

theorem onGdt_of_some {x : GdtM α} {b : Startup} {a : α} {gdt : Nat → UInt8} (h : x b.gdt_real = some (a, gdt)) :
    onGdt x b = some (a, { b with gdt_real := gdt }) := by
  rw [onGdt, h]
  rfl

end Primitives

/-- The bytes of a message. -/
def text (str : String) : List UInt8 := str.toList.map fun c => UInt8.ofNat c.toNat

def print (str : String) : SystemM Unit :=
  fun s => some ((), { s with terminal := terminalPrint s.terminal (text str) })

/-! ## The heap (`memory/heap/kheap.c`) -/

/-- `kheap_init`. The entries of the heap there was are what is in the memory of the table. -/
def kheapInit : SystemM Unit := fun s =>
  match heapCreate s.kernel.heap.entries RASOS_HEAP_ADDRESS RASOS_HEAP_SIZE_BYTES with
  | .ok heap => some ((), { s with kernel := { s.kernel with heap := heap } })
  | .error _ => print "Failed to create heap\n" s

/-! ## File systems (`fs/file.c`, `disk/disk.c`) -/

/-- The loop of `fs_get_free_filesystem` from entry `i` on. -/
def fsGetFreeFilesystemLoop (filesystems : Nat → Option FileSystem) : (remaining i : Nat) → Option Nat
  | 0, _ => none
  | remaining + 1, i =>
      if filesystems i = none then some i else fsGetFreeFilesystemLoop filesystems remaining (i + 1)

/-- `fs_get_free_filesystem`. -/
def fsGetFreeFilesystem (filesystems : Nat → Option FileSystem) : Option Nat :=
  fsGetFreeFilesystemLoop filesystems RASOS_MAX_FILESYSTEMS 0

def fsInsertFilesystem (filesystem : FileSystem) : StartupM Unit := do
  let filesystems ← look Startup.filesystems
  match fsGetFreeFilesystem filesystems with
  | none =>
      onSystem (print "Problem inserting filesystem")
      stop
  | some i => change fun b => { b with filesystems := Function.update b.filesystems i (some filesystem) }

def fat16Init : FileSystem := .fat16

def fsStaticLoad : StartupM Unit := fsInsertFilesystem fat16Init

def fsLoad : StartupM Unit := do
  change fun b => { b with filesystems := fun _ => none }
  fsStaticLoad

def fsInit : StartupM Unit := do
  onSystem (onKernel (assign fun s => { s with file_descriptors := fun _ => 0 }))
  fsLoad

/-- The function behind `resolve` of a file system. -/
def FileSystem.resolve : FileSystem → KernelM Int
  | fat16 => fat16Resolve

/-- The loop of `fs_resolve` from entry `i` on. -/
def fsResolveLoop (filesystems : Nat → Option FileSystem) : (remaining i : Nat) → KernelM (Option FileSystem)
  | 0, _ => return none
  | remaining + 1, i =>
      match filesystems i with
      | none => fsResolveLoop filesystems remaining (i + 1)
      | some fs => do
          let res ← fs.resolve
          if res = 0 then return some fs else fsResolveLoop filesystems remaining (i + 1)

def fsResolve : StartupM (Option FileSystem) := do
  let filesystems ← look Startup.filesystems
  onSystem (onKernel (fsResolveLoop filesystems RASOS_MAX_FILESYSTEMS 0))

def diskSearchAndInit : StartupM Unit := do
  onSystem (onKernel (assign fun s => { s with disk := {} }))
  let filesystem ← fsResolve
  onSystem (onKernel (assign fun s => { s with disk := { s.disk with filesystem := filesystem } }))

/-! ## The keyboard (`keyboard/keyboard.c`) -/

def qwertyInit : KeyboardName := .qwerty_keyboard

/-- The function behind `init` of a keyboard. -/
def KeyboardInit.run : KeyboardInit → SystemM Int
  | qwertyKeyboardInit => RasOS.qwertyKeyboardInit

/-- The list that `keyboard_insert` appends to. -/
def keyboardAppend (keyboard : KeyboardName) (b : Startup) : Startup :=
  match b.keyboard_list_last with
  | some last => { b with
      keyboards := Function.update b.keyboards last { b.keyboards last with next := some keyboard }
      keyboard_list_last := some keyboard }
  | none => { b with keyboard_list_head := some keyboard, keyboard_list_last := some keyboard }

def keyboardInsert (keyboard : KeyboardName) : StartupM Int := do
  let k ← look fun b => b.keyboards keyboard
  match k.init with
  | none => return - EINVARG
  | some init => do
      change (keyboardAppend keyboard)
      onSystem init.run

def keyboardInit : StartupM Unit := do
  let _ ← keyboardInsert qwertyInit
  return ()

/-! ## `kernel_main` -/

/-- `gdt_load` (`gdt/gdt.asm`). -/
def gdtLoad (gdt : UInt32) (size : Nat) : StartupM Unit := change fun b => { b with gdtr := ⟨UInt16.ofNat size, gdt⟩ }

/-- `tss_load` (`task/tss.asm`). -/
def tssLoad (tss_segment : UInt16) : StartupM Unit := change fun b => { b with tr := tss_segment }

/-- `enable_paging` (`memory/paging/paging.asm`). -/
def enablePaging : StartupM Unit := change fun b => { b with paging := true }

/-- Its own directory, and the switch to it. -/
def kernelPaging : SystemM Unit := do
  let kernel_chunk ← onKernel (pagingNew4gb (PAGING_IS_WRITABLE ||| PAGING_IS_PRESENT ||| PAGING_ACCESS_BY_ALL))
  fun s => some ((), { s with kernel_chunk := kernel_chunk })
  onKernel (pagingSwitch kernel_chunk)

/-- `kernel_main` up to the disk. -/
def kernelTablesAndHeap (sym : Symbols) : StartupM Unit := do
  onSystem fun s => some ((), { s with terminal := terminalInitialize s.terminal })
  onSystem (print "Hello, World!\nWelcome to RasOS!\n")
  onGdt fun gdt => some ((), fun i => if i < SIZEOF_GDT * RASOS_TOTAL_GDT_SEGMENTS then 0 else gdt i)
  onGdt (gdtStructuredToGdt (kernelGdtStructured sym.tss) RASOS_TOTAL_GDT_SEGMENTS)
  gdtLoad sym.gdt_real (SIZEOF_GDT * RASOS_TOTAL_GDT_SEGMENTS)
  onSystem kheapInit
  fsInit

/-- From there to the first program. -/
def kernelDevices (sym : Symbols) : StartupM Unit := do
  onIdt (idtInit sym.idt_descriptors sym.idt_zero sym.isr80h_wrapper sym.interrupt_pointer_table)
  change fun b => { b with tss := {} }
  change fun b => { b with tss := { b.tss with esp0 := 0x600000 } }
  change fun b => { b with tss := { b.tss with ss0 := KERNEL_DATA_SELECTOR.toUInt32 } }
  tssLoad 0x28
  onSystem kernelPaging
  enablePaging
  onSystem isr80hRegisterCommands
  keyboardInit

/-- `kernel_main` up to the first program. -/
def kernelSetup (sym : Symbols) : StartupM Unit := do
  kernelTablesAndHeap sym
  diskSearchAndInit
  kernelDevices sym

def blankPath : List UInt8 := text "0:/blank.elf"

/-- `kernel_main`: the registers with which the first program is entered. -/
def kernelMain (sym : Symbols) (garbage : UInt32) : StartupM Registers := do
  kernelSetup sym
  let r ← onSystem (onKernel (processLoadSwitch garbage blankPath))
  if r.1 ≠ OK then
    onSystem (panic "Failed to load blank.elf\n")
  else
    -- the endless loop behind this call is never reached
    onSystem taskRunFirstEverTask

/-! ## The tables -/

/-- The heap that `kheap_init` creates over the bytes `table`. -/
def createdHeap (table : Int → UInt8) : Heap where
  entries := memsetEntries table HEAP_BLOCK_ENTRY_FREE 25600
  total := 25600
  start_address := RASOS_HEAP_ADDRESS
  total_lt := kheapTotal_lt

theorem heapCreate_kheap (table : Int → UInt8) :
    heapCreate table RASOS_HEAP_ADDRESS RASOS_HEAP_SIZE_BYTES = .ok (createdHeap table) := by
  have hstart : ¬ RASOS_HEAP_ADDRESS.toNat % RASOS_HEAP_BLOCK_SIZE ≠ 0 := by decide
  have hsize : ¬ RASOS_HEAP_SIZE_BYTES.toNat % RASOS_HEAP_BLOCK_SIZE ≠ 0 := by decide
  have hblocks : RASOS_HEAP_SIZE_BYTES.toNat / RASOS_HEAP_BLOCK_SIZE = 25600 := by decide
  rw [heapCreate, if_neg hstart, if_neg hsize]
  simp only [hblocks, createdHeap]

theorem kheapInit_spec (s : System) : kheapInit s =
    some ((), { s with kernel := { s.kernel with heap := createdHeap s.kernel.heap.entries } }) := by
  delta kheapInit
  rw [heapCreate_kheap]

theorem memsetEntries_inside (entries : Int → UInt8) (c : UInt8) {i n : Nat} (hi : i < n) :
    memsetEntries entries c n i = c :=
  if_pos ⟨Int.natCast_nonneg i, Int.ofNat_lt.mpr hi⟩

theorem createdHeap_free (table : Int → UInt8) {i : Nat} (hi : i < 25600) :
    (createdHeap table).entries i = HEAP_BLOCK_ENTRY_FREE := by
  have hentries : (createdHeap table).entries = memsetEntries table HEAP_BLOCK_ENTRY_FREE 25600 := rfl
  rw [hentries]
  exact memsetEntries_inside table HEAP_BLOCK_ENTRY_FREE hi

theorem createdHeap_clean (table : Int → UInt8) : CleanHeap (createdHeap table) :=
  fun _ hi _ => createdHeap_free table hi

/-- All of it is free. -/
theorem createdHeap_freeCount (table : Int → UInt8) : 25600 ≤ freeCount (createdHeap table) := by
  refine le_freeCount (createdHeap table) 0 25600 (Nat.le_refl _) fun i _ hi => ?_
  rw [createdHeap_free table hi]
  rfl

/-- The kernel before its disk is looked for: whatever was in memory, the heap is empty. -/
def Startup.formatted (b : Startup) : Kernel :=
  { b.system.kernel with
    heap := createdHeap b.system.kernel.heap.entries
    file_descriptors := fun _ => 0
    disk := {} }

/-- The tables are filled, `fat16` is there, and nothing else has been done. -/
structure TablesFilled (sym : Symbols) (b b' : Startup) : Prop where
  gdt : ∀ i : Nat, i < 6 → HoldsEntry b'.gdt_real (SIZEOF_GDT * i) (kernelGdtStructured sym.tss i)
  rest : ∃ terminal, b' = { b with
    system := { b.system with
      terminal := terminal
      kernel := { b.system.kernel with
        heap := createdHeap b.system.kernel.heap.entries, file_descriptors := fun _ => 0 } }
    gdt_real := b'.gdt_real
    gdtr := ⟨48, sym.gdt_real⟩
    filesystems := Function.update (fun _ => none) 0 (some .fat16) }

theorem kernelTablesAndHeap_spec (sym : Symbols) (b : Startup) :
    ∃ b', kernelTablesAndHeap sym b = some ((), b') ∧ TablesFilled sym b b' := by
  have hspec : Total (gdtStructuredToGdt (kernelGdtStructured sym.tss) RASOS_TOTAL_GDT_SEGMENTS)
      (fun i => if i < SIZEOF_GDT * RASOS_TOTAL_GDT_SEGMENTS then 0 else b.gdt_real i) _ :=
    gdtStructuredToGdt_spec (fun i _ => kernelGdtStructured_admitted sym.tss i) _
  obtain ⟨_, gdt, hgdt, hentries⟩ := hspec
  let greeted := terminalPrint (terminalInitialize b.system.terminal) (text "Hello, World!\nWelcome to RasOS!\n")
  have hfill := onGdt_of_some (b := { b with
    system := { b.system with terminal := greeted }
    gdt_real := fun i => if i < SIZEOF_GDT * RASOS_TOTAL_GDT_SEGMENTS then 0 else b.gdt_real i }) hgdt
  refine ⟨{ b with
    system := { b.system with
      terminal := greeted
      kernel := { b.system.kernel with
        heap := createdHeap b.system.kernel.heap.entries, file_descriptors := fun _ => 0 } }
    gdt_real := gdt
    gdtr := ⟨48, sym.gdt_real⟩
    filesystems := Function.update (fun _ => none) 0 (some .fat16) }, ?_, fun i hi => hentries i (by exact_mod_cast hi),
    greeted, rfl⟩
  have hheap := onSystem_of_some (b := { b with
    system := { b.system with terminal := greeted }, gdt_real := gdt, gdtr := ⟨48, sym.gdt_real⟩ }) (kheapInit_spec _)
  rw [kernelTablesAndHeap, bind_of_some rfl, bind_of_some rfl, bind_of_some rfl, bind_of_some hfill, gdtLoad,
    change_bind]
  exact (bind_of_some hheap).trans rfl

/-! ## The disk -/

/-- No more file systems. -/
theorem fsResolveLoop_none {filesystems : Nat → Option FileSystem} (remaining : Nat) :
    ∀ i, (∀ j, i ≤ j → filesystems j = none) → fsResolveLoop filesystems remaining i = pure none := by
  induction remaining with
  | zero => exact fun _ _ => rfl
  | succ remaining ih =>
      intro i h
      rw [fsResolveLoop, h i (Nat.le_refl i)]
      exact ih (i + 1) fun j hj => h j (Nat.le_of_succ_le hj)

/-- There is one file system to be tried. -/
theorem fsResolveLoop_fat16 : fsResolveLoop (Function.update (fun _ => none) 0 (some .fat16)) RASOS_MAX_FILESYSTEMS 0 =
    fat16Resolve >>= fun res => pure (if res = 0 then some .fat16 else none) := by
  have hnone : ∀ j, 1 ≤ j → Function.update (fun _ => none) 0 (some FileSystem.fat16) j = none :=
    fun j hj => Function.update_of_ne (by omega) ..
  show (fat16Resolve >>= fun res => if res = 0 then pure (some .fat16) else
    fsResolveLoop (Function.update (fun _ => none) 0 (some .fat16)) 11 1) = _
  congr 1
  funext res
  rw [fsResolveLoop_none 11 1 hnone]
  split <;> rfl

/-- What looking for a disk leaves. -/
structure DiskFound (k k' : Kernel) : Prop where
  wf : k'.WF
  clean : CleanHeap k'.heap
  count : 25083 ≤ freeCount k'.heap
  rest : k' = { k with heap := k'.heap, live := k'.live, requests := k'.requests, disk := k'.disk }

theorem diskSearchAndInit_run {b : Startup}
    (hfilesystems : b.filesystems = Function.update (fun _ => none) 0 (some .fat16)) : diskSearchAndInit b =
      (fat16Resolve { b.system.kernel with disk := {} }).map fun r => ((), { b with
        system := { b.system with kernel := { r.2 with
          disk := { r.2.disk with filesystem := if r.1 = 0 then some .fat16 else none } } } }) := by
  have hclear : onSystem (onKernel (assign fun s => { s with disk := {} })) b = some ((), { b with
      system := { b.system with kernel := { b.system.kernel with disk := {} } } }) := rfl
  rw [diskSearchAndInit, bind_of_some hclear, fsResolve, bind_assoc, bind_of_some rfl, hfilesystems,
    fsResolveLoop_fat16]
  cases hrun : fat16Resolve { b.system.kernel with disk := {} } with
  | none =>
      have hstop : (fat16Resolve >>= fun res => (pure (if res = 0 then some .fat16 else none) :
          KernelM (Option FileSystem))) { b.system.kernel with disk := {} } = none := bind_of_none hrun
      exact bind_of_none (onSystem_of_none (onKernel_of_none hstop))
  | some r =>
      have hgo : (fat16Resolve >>= fun res => (pure (if res = 0 then some .fat16 else none) :
          KernelM (Option FileSystem))) { b.system.kernel with disk := {} } =
            some (if r.1 = 0 then some .fat16 else none, r.2) := bind_of_some hrun
      exact bind_of_some (onSystem_of_some (onKernel_of_some hgo))

/-- Looking for the disk ends when mounting does, and the heap has enough left for a directory. -/
theorem diskSearchAndInit_spec {b : Startup}
    (hfilesystems : b.filesystems = Function.update (fun _ => none) 0 (some .fat16))
    (hwf : b.system.kernel.WF) (hclean : CleanHeap b.system.kernel.heap)
    (hcount : 25600 ≤ freeCount b.system.kernel.heap) :
    (Total fat16Resolve { b.system.kernel with disk := {} } (fun _ _ => True) →
      ∃ k, diskSearchAndInit b = some ((), { b with system := { b.system with kernel := k } }) ∧
        DiskFound b.system.kernel k) ∧
    (¬ Total fat16Resolve { b.system.kernel with disk := {} } (fun _ _ => True) → diskSearchAndInit b = none) := by
  rw [diskSearchAndInit_run hfilesystems]
  constructor
  · rintro ⟨res, k, hrun, -⟩
    have hwf0 : Kernel.WF { b.system.kernel with disk := {} } := hwf.of_live rfl fun _ o ho => ⟨o, ho⟩
    have htook := takes_fat16Resolve _ _ _ hrun hwf0
    have hleft := htook.count
    refine ⟨{ k with disk := { k.disk with filesystem := if res = 0 then some .fat16 else none } }, by rw [hrun]; rfl,
      htook.wf.of_live rfl fun _ o ho => ⟨o, ho⟩, htook.clean hclean, ?_, ?_⟩
    · dsimp only at hleft ⊢
      omega
    · have hrest := htook.rest
      dsimp only
      rw [hrest]
  · intro hno
    cases hrun : fat16Resolve { b.system.kernel with disk := {} } with
    | none => rfl
    | some r => exact absurd ⟨r.1, r.2, hrun, trivial⟩ hno

/-! ## Paging, system calls and the keyboard -/

/-- The kernel has a directory of its own, and it is active. -/
theorem kernelPaging_spec {s : System} (hwf : s.kernel.WF) (hclean : CleanHeap s.kernel.heap)
    (hroom : 1026 ≤ freeCount s.kernel.heap) (htasks : TaskList s.kernel []) :
    ∃ kernel_directory s', kernelPaging s = some ((), s') ∧
      Idle s'.kernel s'.kernel_chunk kernel_directory ∧ freeCount s'.kernel.heap + 1026 = freeCount s.kernel.heap ∧
      s' = { s with kernel := s'.kernel, kernel_chunk := s'.kernel_chunk } := by
  have hflags : bounceFlags.toNat < 4096 := by decide
  rcases pagingNew4gb_cases hwf hflags with ⟨hlt, -⟩ | ⟨chunk, directory, e, k, hrun, -, hnew, hcount⟩
  · omega
  have hchunk : k.live chunk = some (chunkK.inj directory) := hnew.maps.1
  have hrest := hnew.lent.rest
  have hcleaned : CleanHeap k.heap := Lent.clean hwf hnew.lent hclean
  refine ⟨directory, { s with kernel := { k with current_directory := directory }, kernel_chunk := chunk }, ?_,
    ⟨hnew.lent.wf.of_live rfl fun _ o ho => ⟨o, ho⟩, hcleaned, hchunk, ?_, ?_⟩, hcount, rfl⟩
  · have hswitch : onKernel (pagingSwitch chunk) { s with kernel := k, kernel_chunk := chunk } = some ((), _) :=
      onKernel_of_some (s := { s with kernel := k, kernel_chunk := chunk }) (pagingSwitch_of_live hchunk)
    have hpaging : onKernel (pagingNew4gb (PAGING_IS_WRITABLE ||| PAGING_IS_PRESENT ||| PAGING_ACCESS_BY_ALL)) s =
        some (chunk, { s with kernel := k }) := onKernel_of_some hrun
    rw [kernelPaging, bind_of_some hpaging, bind_of_some rfl]
    exact hswitch
  · exact (hnew.allows (by decide)).congr fun q o _ ho => ho
  · refine ⟨htasks.null, htasks.nodup, trivial, ?_, ?_, ?_⟩
    · show k.task_head = _
      rw [hrest]
      exact htasks.head
    · show k.task_tail = _
      rw [hrest]
      exact htasks.tail
    · show k.current_task = 0
      rw [hrest]
      exact htasks.current

theorem keyboardAppend_rest (keyboard : KeyboardName) (b : Startup) : ∃ keyboards head last,
    keyboardAppend keyboard b = { b with
      keyboards := keyboards, keyboard_list_head := head, keyboard_list_last := last } := by
  unfold keyboardAppend
  cases b.keyboard_list_last with
  | none => exact ⟨_, _, _, rfl⟩
  | some last => exact ⟨_, _, _, rfl⟩

/-- The system with the handler of the keyboard registered and the keyboard switched on. -/
def System.withKeyboard (s : System) : System :=
  { s with
    interrupt_callbacks := Function.update s.interrupt_callbacks 0x21 (some .qwertyKeyboardHandleInterrupt)
    written := (PS2_PORT, PS2_COMMAND_ENABLE_FIRST_PORT) :: s.written }

theorem keyboardInit_spec {b : Startup} (h : (b.keyboards qwertyInit).init = some .qwertyKeyboardInit) :
    ∃ keyboards head last, keyboardInit b = some ((), { b with
      system := b.system.withKeyboard
      keyboards := keyboards, keyboard_list_head := head, keyboard_list_last := last }) := by
  obtain ⟨keyboards, head, last, happend⟩ := keyboardAppend_rest qwertyInit b
  refine ⟨keyboards, head, last, ?_⟩
  have hchange : change (keyboardAppend qwertyInit) b = some ((), _) := congrArg (fun b => some ((), b)) happend
  have hinsert : keyboardInsert qwertyInit b = some (0, { b with
      system := b.system.withKeyboard
      keyboards := keyboards, keyboard_list_head := head, keyboard_list_last := last }) := by
    have hlook : look (fun b => b.keyboards qwertyInit) b = some (b.keyboards qwertyInit, b) := rfl
    rw [keyboardInsert, bind_of_some hlook, h]
    exact bind_of_some hchange
  rw [keyboardInit, bind_of_some hinsert]
  rfl

/-! ## The setup as a whole -/

/-- When the machine is switched on: the static variables are as the compiler has set them, and nothing has been
allocated. -/
structure PowerOn (b : Startup) : Prop where
  live : ∀ q, b.system.kernel.live q = none
  current_task : b.system.kernel.current_task = 0
  task_head : b.system.kernel.task_head = 0
  task_tail : b.system.kernel.task_tail = 0
  commands : ∀ n, b.system.isr80h_commands n = none
  callbacks : ∀ v, b.system.interrupt_callbacks v = none
  keyboard : (b.keyboards qwertyInit).init = some .qwertyKeyboardInit
  layout : LaidOut b.system

/-- Interrupts and system calls get to the kernel, and to the functions that are there for them. -/
structure Configured (sym : Symbols) (b : Startup) : Prop where
  tables : TablesLoaded b.idt b.gdt_real sym.idt_zero sym.isr80h_wrapper sym.interrupt_pointer_table
  idtr : b.idt.idtr = ⟨4095, sym.idt_descriptors⟩
  gdtr : b.gdtr = ⟨48, sym.gdt_real⟩
  segments : ∀ i : Nat, i < 6 → segmentAt b.gdt_real (SIZEOF_GDT * i) = (kernelGdtStructured sym.tss i).segment
  tss : b.tss = ⟨0x600000, 0x10⟩
  tr : b.tr = 0x28
  paging : b.paging = true
  commands : ∀ c, commandOf b.system.isr80h_commands c = systemCommands.lookup c
  callbacks : ∀ v, b.system.interrupt_callbacks v = if v = 0x21 then some .qwertyKeyboardHandleInterrupt else none
  layout : LaidOut b.system

theorem kernelDevices_spec {sym : Symbols} {b : Startup} (hwf : b.system.kernel.WF)
    (hclean : CleanHeap b.system.kernel.heap) (hroom : 1026 ≤ freeCount b.system.kernel.heap)
    (htasks : TaskList b.system.kernel []) (hcommands : ∀ n, b.system.isr80h_commands n = none)
    (hcallbacks : ∀ v, b.system.interrupt_callbacks v = none)
    (hkeyboard : (b.keyboards qwertyInit).init = some .qwertyKeyboardInit)
    (hlayout : LaidOut b.system) (hgdtr : b.gdtr = ⟨48, sym.gdt_real⟩)
    (hgdt : ∀ i : Nat, i < 6 → HoldsEntry b.gdt_real (SIZEOF_GDT * i) (kernelGdtStructured sym.tss i)) :
    ∃ b' kernel_directory, kernelDevices sym b = some ((), b') ∧ Configured sym b' ∧
      Idle b'.system.kernel b'.system.kernel_chunk kernel_directory ∧
      freeCount b'.system.kernel.heap + 1026 = freeCount b.system.kernel.heap := by
  obtain ⟨_, idt, hidt, hidtr, hgates⟩ := idtInit_gates sym.idt_descriptors sym.idt_zero sym.isr80h_wrapper
    sym.interrupt_pointer_table b.idt
  obtain ⟨kernel_directory, s1, hpaging, hidle, hcount, hrest1⟩ := kernelPaging_spec hwf hclean hroom htasks
  have hempty : ∀ n, s1.isr80h_commands n = none := by
    rw [hrest1]
    exact hcommands
  -- paging and the registrations do not touch each other's variables
  obtain ⟨s2, hregister, hrest2, htable⟩ := isr80hRegisterCommands_spec hempty
  have hkernel : s2.kernel = s1.kernel := by rw [hrest2]
  have hchunk : s2.kernel_chunk = s1.kernel_chunk := by rw [hrest2]
  have hnone : ∀ v, s2.interrupt_callbacks v = none := by
    rw [hrest2, hrest1]
    exact hcallbacks
  have hlow : LaidOut s2.withKeyboard := by
    rw [hrest2, hrest1]
    exact ⟨hlayout.chunk_variable, hlayout.buffer⟩
  obtain ⟨keyboards, head, last, hinit⟩ := keyboardInit_spec (b := { b with
    system := s2, idt := idt, tss := ⟨0x600000, 0x10⟩, tr := 0x28, paging := true }) hkeyboard
  refine ⟨{ b with
    system := s2.withKeyboard, idt := idt, tss := ⟨0x600000, 0x10⟩, tr := 0x28, paging := true,
    keyboards := keyboards, keyboard_list_head := head, keyboard_list_last := last }, kernel_directory, ?_, ?_, ?_, ?_⟩
  · have hdirectory := onSystem_of_some (b := { b with idt := idt, tss := ⟨0x600000, 0x10⟩, tr := 0x28 }) hpaging
    have hservices := onSystem_of_some (b := { b with
      system := s1, idt := idt, tss := ⟨0x600000, 0x10⟩, tr := 0x28, paging := true }) hregister
    rw [kernelDevices, bind_of_some (onIdt_of_some hidt), change_bind, change_bind, change_bind, tssLoad, change_bind]
    refine (bind_of_some hdirectory).trans ?_
    rw [enablePaging, change_bind]
    exact (bind_of_some hservices).trans hinit
  · refine ⟨⟨?_, hgates, ?_⟩, hidtr, hgdtr, fun i hi => (hgdt i hi).decodes, rfl, rfl, rfl, htable, fun v => ?_, hlow⟩
    · rw [hidtr]
    · rw [(hgdt 1 (by decide)).decodes]
      rfl
    · show Function.update s2.interrupt_callbacks 0x21 (some .qwertyKeyboardHandleInterrupt) v = _
      by_cases hv : v = 0x21
      · rw [hv, Function.update_self, if_pos rfl]
      · rw [Function.update_of_ne hv, if_neg hv, hnone]
  · show Idle s2.kernel s2.kernel_chunk kernel_directory
    rw [hkernel, hchunk]
    exact hidle
  · show freeCount s2.kernel.heap + 1026 = _
    rw [hkernel]
    exact hcount

/-- **The setup ends when mounting does**, whatever is in memory when the machine is switched on. Mounting costs 517
blocks of the heap at most, the directory 1026. -/
theorem kernelSetup_spec {b : Startup} (h : PowerOn b) (sym : Symbols) :
    (Total fat16Resolve b.formatted (fun _ _ => True) → ∃ b' kernel_directory, kernelSetup sym b = some ((), b') ∧
      Configured sym b' ∧ Idle b'.system.kernel b'.system.kernel_chunk kernel_directory ∧
      24057 ≤ freeCount b'.system.kernel.heap) ∧
    (¬ Total fat16Resolve b.formatted (fun _ _ => True) → kernelSetup sym b = none) := by
  obtain ⟨b1, htables, hgdt, terminal, hrest⟩ := kernelTablesAndHeap_spec sym b
  have hfilesystems : b1.filesystems = Function.update (fun _ => none) 0 (some .fat16) := by rw [hrest]
  have hformatted : ({ b1.system.kernel with disk := {} } : Kernel) = b.formatted := by
    rw [hrest]
    rfl
  have hwf : b1.system.kernel.WF := by
    rw [hrest]
    refine ⟨rfl, rfl, fun q o ho => ?_⟩
    exact absurd (ho.symm.trans (h.live q)) nofun
  have hclean : CleanHeap b1.system.kernel.heap := by
    rw [hrest]
    exact createdHeap_clean _
  have hcount : 25600 ≤ freeCount b1.system.kernel.heap := by
    rw [hrest]
    exact createdHeap_freeCount _
  -- nothing is known of the drive: what counts is whether mounting it ends
  obtain ⟨hgo, hstop⟩ := diskSearchAndInit_spec hfilesystems hwf hclean hcount
  rw [hformatted] at hgo hstop
  rw [kernelSetup, bind_of_some htables]
  constructor
  · intro hmount
    obtain ⟨k, hdisk, hfound⟩ := hgo hmount
    have htasks : TaskList k [] := by
      refine ⟨List.not_mem_nil, List.nodup_nil, trivial, ?_, ?_, ?_⟩
      · rw [hfound.rest, hrest]
        exact h.task_head
      · rw [hfound.rest, hrest]
        exact h.task_tail
      · show k.current_task = 0
        rw [hfound.rest, hrest]
        exact h.current_task
    have hroom := hfound.count
    rw [bind_of_some hdisk]
    have hleft : 1026 ≤ freeCount k.heap := by omega
    have hdevices := @kernelDevices_spec sym { b1 with system := { b1.system with kernel := k } } hfound.wf hfound.clean
      hleft htasks ?_ ?_ ?_ ?_ ?_ hgdt
    · obtain ⟨b', kernel_directory, hrun, hconfigured, hidle, hcount'⟩ := hdevices
      refine ⟨b', kernel_directory, hrun, hconfigured, hidle, ?_⟩
      have hcount'' : freeCount b'.system.kernel.heap + 1026 = freeCount k.heap := hcount'
      omega
    · rw [hrest]
      exact h.commands
    · rw [hrest]
      exact h.callbacks
    · rw [hrest]
      exact h.keyboard
    · rw [hrest]
      exact ⟨h.layout.chunk_variable, h.layout.buffer⟩
    · rw [hrest]
  · exact fun hno => bind_of_none (hstop hno)

/-! ## Entering the first program -/

/-- The first program has been entered, in a directory that leaves the kernel in place, and whatever happens from then
on is answered. -/
structure ProgramEntered (sym : Symbols) (regs : Registers) (b : Startup) : Prop where
  configured : Configured sym b
  registers : ∃ ip, regs = startRegisters ip
  keyboard : ∃ p t, Attached b.system.kernel p t {}
  answers : ∃ kernel_directory directory e m, InProgram b.system kernel_directory directory e m ∧
    ∀ events, ∃ s', runFrom systemStep b.system events = some s' ∧ InProgram s' kernel_directory directory e m

theorem Configured.system {sym : Symbols} {b : Startup} (h : Configured sym b) {s : System}
    (hrest : s = { b.system with kernel := s.kernel, selectors := s.selectors }) :
    Configured sym { b with system := s } := by
  refine ⟨h.tables, h.idtr, h.gdtr, h.segments, h.tss, h.tr, h.paging, ?_, ?_, ?_⟩
  · rw [hrest]
    exact h.commands
  · rw [hrest]
    exact h.callbacks
  · rw [hrest]
    exact ⟨h.layout.chunk_variable, h.layout.buffer⟩

theorem onKernel_eq_some {α : Type} {x : KernelM α} {s s' : System} {a : α} (h : onKernel x s = some (a, s')) :
    ∃ k, x s.kernel = some (a, k) ∧ s' = { s with kernel := k } := by
  obtain ⟨⟨a1, k⟩, hrun, heq⟩ := Option.map_eq_some_iff.mp h
  obtain ⟨rfl, rfl⟩ := Prod.mk.inj heq
  exact ⟨k, hrun, rfl⟩

/-- Entering the program changes the current task and the active directory of the kernel, and nothing else of it. -/
theorem taskRunFirstEverTask_rest (s : System) : Ensures taskRunFirstEverTask s fun _ s' => ∃ directory,
    s' = { s with
      selectors := s'.selectors
      kernel := { s.kernel with current_task := s.kernel.task_head, current_directory := directory } } := by
  intro regs s' h
  unfold taskRunFirstEverTask at h
  obtain ⟨current, _, hcurrent, h⟩ := bind_eq_some.mp h
  obtain ⟨-, rfl⟩ := Prod.mk.inj (Option.some.inj hcurrent)
  by_cases hnull : current = 0
  · rw [if_pos hnull] at h
    cases h
  rw [if_neg hnull] at h
  obtain ⟨task_head, _, hhead, h⟩ := bind_eq_some.mp h
  obtain ⟨rfl, rfl⟩ := Prod.mk.inj (Option.some.inj hhead)
  obtain ⟨_, s1, hswitch, h⟩ := bind_eq_some.mp h
  obtain ⟨t, _, hload, h⟩ := bind_eq_some.mp h
  obtain ⟨k, hrun, rfl⟩ := onKernel_eq_some hload
  obtain ⟨k1, hrun1, rfl⟩ := onKernel_eq_some hswitch
  obtain ⟨-, rfl⟩ := load_eq_some.mp hrun
  obtain ⟨_, _, hsegments, h⟩ := bind_eq_some.mp h
  obtain ⟨-, rfl⟩ := Prod.mk.inj (Option.some.inj hsegments)
  obtain ⟨-, rfl⟩ := pure_eq_some.mp h
  -- the switch
  unfold taskSwitch at hrun1
  rw [bind_of_some (assign_apply _ _)] at hrun1
  obtain ⟨t1, _, hload1, hrun1⟩ := bind_eq_some.mp hrun1
  obtain ⟨-, rfl⟩ := load_eq_some.mp hload1
  obtain ⟨_, k2, hpaging, hrun1⟩ := bind_eq_some.mp hrun1
  obtain ⟨-, rfl⟩ := pure_eq_some.mp hrun1
  unfold pagingSwitch at hpaging
  obtain ⟨directory, _, hload2, hassign⟩ := bind_eq_some.mp hpaging
  obtain ⟨-, rfl⟩ := load_eq_some.mp hload2
  obtain ⟨-, rfl⟩ := Prod.mk.inj (Option.some.inj hassign)
  exact ⟨directory, rfl⟩

/-- The directory of the first task leaves the kernel in place. -/
def FirstLeavesKernel (s : System) (k : Kernel) : Prop :=
  ∃ t directory e m, k.live k.task_head = some (taskK.inj t) ∧ MapsBy k t.page_directory directory e m ∧
    LeavesKernel s e m

/-- The program is loaded, a block is left, and none of its segments is over the kernel. -/
def LoadsBlank (garbage : UInt32) (s : System) : Prop :=
  Total (processLoadSwitch garbage blankPath) s.kernel fun r k =>
    r.1 = OK ∧ 0 < freeCount k.heap ∧ FirstLeavesKernel s k

theorem InProgram.answered {s : System} {kernel_directory directory : UInt32} {e m : Nat → UInt32}
    (h : InProgram s kernel_directory directory e m) (events : List Event) :
    ∃ s', runFrom systemStep s events = some s' ∧ InProgram s' kernel_directory directory e m := by
  induction events generalizing s with
  | nil => exact ⟨s, rfl, h⟩
  | cons event events ih =>
      obtain ⟨s', hstep, hin', -⟩ := systemStep_answers h event
      obtain ⟨s'', hrun, hin''⟩ := ih hin'
      exact ⟨s'', runFrom_cons.mpr ⟨s', hstep, hrun⟩, hin''⟩

/-- Behind the setup. -/
theorem kernelMain_rest {sym : Symbols} {b : Startup} {kernel_directory : UInt32} (hconfigured : Configured sym b)
    (hidle : Idle b.system.kernel b.system.kernel_chunk kernel_directory) (garbage : UInt32) :
    Total (onSystem (onKernel (processLoadSwitch garbage blankPath)) >>= fun r =>
        if r.1 ≠ OK then onSystem (panic "Failed to load blank.elf\n") else onSystem taskRunFirstEverTask) b
      (fun regs b' => 0 < freeCount b'.system.kernel.heap ∧ ProgramEntered sym regs b') ↔
    LoadsBlank garbage b.system := by
  constructor
  -- the heap and the directories are left alone behind the load
  · rintro ⟨regs, b', hrun, hroom, hentered⟩
    obtain ⟨r, b1, hload, hrest⟩ := bind_eq_some.mp hrun
    obtain ⟨⟨r1, s1⟩, hsystem, heq⟩ := Option.map_eq_some_iff.mp hload
    obtain ⟨rfl, rfl⟩ := Prod.mk.inj heq
    obtain ⟨⟨r2, k⟩, hkernel, heq⟩ := Option.map_eq_some_iff.mp hsystem
    obtain ⟨rfl, rfl⟩ := Prod.mk.inj heq
    by_cases hok : r2.1 ≠ OK
    · rw [if_pos hok] at hrest
      cases hrest
    rw [if_neg hok] at hrest
    obtain ⟨⟨regs1, s2⟩, htask, heq⟩ := Option.map_eq_some_iff.mp hrest
    obtain ⟨-, rfl⟩ := Prod.mk.inj heq
    obtain ⟨active, hrest⟩ := taskRunFirstEverTask_rest _ _ _ htask
    obtain ⟨kernel_directory', directory, e, m, hin, -⟩ := hentered.answers
    obtain ⟨t, ht, hmaps, -⟩ := hin.hosted.task
    have hplace := hin.place
    dsimp only at hroom ht hmaps hplace
    rw [hrest] at hroom ht hmaps hplace
    exact ⟨r2, k, hkernel, not_not.mp hok, hroom, t, directory, e, m, ht, hmaps.congr fun _ _ _ ho => ho, hplace⟩
  · rintro ⟨⟨res, out⟩, k, hkernel, hok, hroom, t1, directory1, e1, m1, ht1, hmaps1, hplace1⟩
    obtain ⟨directory, e, m, process, p, t, -, hready⟩ :=
      processLoadSwitch_ready hidle garbage blankPath _ _ hkernel hok hroom
    have hready' : Ready ({ b.system with kernel := k } : System).kernel
      ({ b.system with kernel := k } : System).kernel_chunk kernel_directory directory e m process p t := hready
    -- the directory is the one of the condition
    have hhead : k.task_head = k.current_task := hready.head.trans hready.attached.current_task.symm
    obtain ⟨t2, ht2, hmaps2, -⟩ := hready.hosted.task
    rw [hhead] at ht1
    obtain rfl := taskK.inj_injective (Option.some.inj (ht1.symm.trans ht2))
    obtain ⟨rfl, hsame⟩ := hmaps1.unique hmaps2
    have hplace : LeavesKernel { b.system with kernel := k } e1 m := KernelInPlace.congr hplace1 hsame
    obtain ⟨htask, hin⟩ := taskRunFirstEverTask_enters hready'
      ⟨hconfigured.layout.chunk_variable, hconfigured.layout.buffer⟩ hplace
    have hload : onSystem (onKernel (processLoadSwitch garbage blankPath)) b =
        some ((res, out), { b with system := { b.system with kernel := k } }) :=
      onSystem_of_some (onKernel_of_some hkernel)
    have henter := onSystem_of_some (b := { b with system := { b.system with kernel := k } }) htask
    refine ⟨t.registers, { b with system := ({ b.system with kernel := k } : System).paged 0x23 directory }, ?_, hroom,
      hconfigured.system rfl, hready.registers, ⟨process, p.task, ?_⟩, ?_⟩
    · rw [bind_of_some hload, if_neg (not_not.mpr hok)]
      exact henter
    · exact hready.attached.of_rest k.mem directory
    · exact ⟨kernel_directory, directory, e1, m, hin, fun events => hin.answered events⟩

/-- A machine that is switched on with the volume of `elfKernel` in its drive. -/
def poweredOn : Startup where
  system := {
    kernel := { bareKernel 0 with drive := (elfKernel ⟨PT_LOAD, 0, 0x400000, 84, 0⟩ 84).drive }
    terminal := ⟨fun _ => 0xFFFF, 24, 79, []⟩
    kernel_chunk := 0
    chunk_variable := 0x0010C000
    image_end := 0x10D
    stack_begin := 0x5FF
    selectors := 0x10
    interrupt_callbacks := fun _ => none
    isr80h_commands := fun _ => none
    ps2 := ⟨0, []⟩
    written := []
    print_buf := 0x5FF000
    behind_scan_set := 0 }
  gdt_real := fun _ => 0xCC
  gdtr := ⟨23, 0x7C20⟩
  idt := ⟨fun _ => {}, ⟨0, 0⟩, ⟨0x3FF, 0⟩⟩
  tss := ⟨1, 2⟩
  tr := 0
  paging := false
  filesystems := fun _ => none
  keyboards := fun _ => ⟨some .qwertyKeyboardInit, none⟩
  keyboard_list_head := none
  keyboard_list_last := none

def poweredOnSymbols : Symbols where
  gdt_real := 0x110000
  tss := 0x110030
  idt_descriptors := 0x111000
  idt_zero := 0x100400
  isr80h_wrapper := 0x100500
  interrupt_pointer_table := fun n => 0x100600 + 16 * UInt32.ofNat n

theorem poweredOn_powerOn : PowerOn poweredOn where
  live _ := rfl
  current_task := rfl
  task_head := rfl
  task_tail := rfl
  commands _ := rfl
  callbacks _ := rfl
  keyboard := rfl
  layout := ⟨by decide, by decide⟩

end RasOS
