import RasOS.Fs.Resolve
import RasOS.Fs.Cutting
import RasOS.Fs.ClusterWalk
import RasOS.Fs.ReadSpec
import RasOS.Fs.PathLeak
import RasOS.Fs.PathParts
import RasOS.Fs.RootSearch
import RasOS.Fs.Descriptors
import RasOS.Fs.Footprint
import RasOS.Memory.HeapRuns
import RasOS.Memory.PagingDirectory
import RasOS.Task.Process
import RasOS.Task.Exhausted
import RasOS.Task.TaskList
import RasOS.Task.ElfMapping
import RasOS.Task.Outcome
import RasOS.Task.Return
import RasOS.Keyboard.Fifo
import RasOS.Display.Screen
import RasOS.Idt.Stubs
import RasOS.Fs.Position
import RasOS.Fs.RootCount
import RasOS.Fs.RootEntries
import RasOS.Fs.Subdirectory
import RasOS.Fs.EntryWalk
import RasOS.Task.ProcessLoad
import RasOS.Task.Segments
import RasOS.Loader.ElfTable
import RasOS.Task.BounceBuffer
import RasOS.Isr80h.Print
import RasOS.Fs.Owners
import RasOS.Fs.Rejected
import RasOS.Fs.Mounting
import RasOS.Disk.SectorUse
import RasOS.Fs.DataArea
import RasOS.Keyboard.Backspace
import RasOS.Fs.ReadEnds
import RasOS.Fs.ReadErrors
import RasOS.Loader.ElfBounds
import RasOS.Gdt.Gdt
import RasOS.Boot.Boot
import RasOS.Fs.MountCost
import RasOS.Fs.PathFree
import RasOS.Idt.Dispatch
import RasOS.Idt.Gates
import RasOS.Idt.Services
import RasOS.Kernel.Main
import RasOS.Keyboard.Typing
import RasOS.Lib.UserMode
import RasOS.Memory.BuiltDirectory
import RasOS.Programs.Blank
