import Mathlib.Tactic

set_option autoImplicit false

/-! # Constants (`config.h`, `status.h`, `kernel.h`)

Sizes of C structures are those of the i686 target. -/

namespace RasOS

/-! ## Status codes -/

abbrev OK : Int := 0
abbrev EIO : Int := 1
abbrev EINVARG : Int := 2
abbrev ENOMEM : Int := 3
abbrev EBADPATH : Int := 4
abbrev EFSNOTUS : Int := 5
abbrev ERDONLY : Int := 6
abbrev EUNIMP : Int := 7
abbrev EISTKN : Int := 8
abbrev EINFORMAT : Int := 9

/-! ## Configuration -/

abbrev KERNEL_CODE_SELECTOR : UInt16 := 0x08
abbrev KERNEL_DATA_SELECTOR : UInt16 := 0x10
abbrev RASOS_TOTAL_INTERRUPTS : Nat := 512
abbrev RASOS_TOTAL_GDT_SEGMENTS : Nat := 6
abbrev RASOS_HEAP_SIZE_BYTES : UInt32 := 104857600
abbrev RASOS_HEAP_BLOCK_SIZE : Nat := 4096
abbrev RASOS_HEAP_ADDRESS : UInt32 := 0x01000000
abbrev RASOS_HEAP_TABLE_ADDRESS : UInt32 := 0x00007E00
abbrev RASOS_SECTOR_SIZE : Nat := 512
abbrev RASOS_MAX_FILESYSTEMS : Nat := 12
abbrev RASOS_MAX_FILEDESCRIPTORS : Nat := 512
abbrev RASOS_PROGRAM_VIRTUAL_ADDRESS : UInt32 := 0x400000
abbrev RASOS_USER_PROGRAM_STACK_SIZE : UInt32 := 1024 * 16
abbrev RASOS_PROGRAM_VIRTUAL_STACK_ADDRESS_BOTTOM : UInt32 := 0x3FF000
abbrev RASOS_PROGRAM_VIRTUAL_STACK_ADDRESS_TOP : UInt32 :=
  RASOS_PROGRAM_VIRTUAL_STACK_ADDRESS_BOTTOM - RASOS_USER_PROGRAM_STACK_SIZE
abbrev USER_DATA_SEGMENT : UInt32 := 0x23
abbrev USER_CODE_SEGMENT : UInt32 := 0x1b
abbrev RASOS_MAX_PROCESSES : Nat := 12
abbrev RASOS_MAX_ISR80H_COMMANDS : Int := 1024
abbrev RASOS_KEYBOARD_BUFFER_SIZE : Int := 1024
abbrev RASOS_PATH_MAX_LEN : Nat := 128

/-! ## Sizes of structures -/

abbrev SIZEOF_GDT : Nat := 8
abbrev SIZEOF_TSS : UInt32 := 100
abbrev SIZEOF_PROCESS : UInt32 := 5280
abbrev SIZEOF_TASK : UInt32 := 64
abbrev SIZEOF_ELF_FILE : UInt32 := 152
abbrev SIZEOF_PAGING_4GB_CHUNK : UInt32 := 4
abbrev SIZEOF_DISK_STREAM : UInt32 := 8
abbrev SIZEOF_FILE_DESCRIPTOR : UInt32 := 16
abbrev SIZEOF_PATH_ROOT : UInt32 := 8
abbrev SIZEOF_PATH_PART : UInt32 := 8
abbrev SIZEOF_FAT_FILE_DESCRIPTOR : UInt32 := 8
abbrev SIZEOF_FAT_ITEM : UInt32 := 8
abbrev SIZEOF_FAT_DIRECTORY : UInt32 := 16
abbrev SIZEOF_FAT_DIRECTORY_ITEM : Nat := 32
abbrev SIZEOF_FAT_H : Nat := 62
abbrev SIZEOF_FAT_PRIVATE : UInt32 := 92

end RasOS
