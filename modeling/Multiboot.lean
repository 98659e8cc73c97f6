import Multiboot.Lib.Run
import Multiboot.Lib.KeyedList
import Multiboot.Uevent
import Multiboot.Fstab
import Multiboot.Hooks
import Multiboot.HookSpecs
import Multiboot.System
import Multiboot.Scratch
import Multiboot.Format
import Multiboot.Prepared
import Multiboot.Descriptors
import Multiboot.Records
import Multiboot.Detection
import Multiboot.Redirect
import Multiboot.Untouched
import Multiboot.Patcher
import Multiboot.Rollback
import Multiboot.Lib.Paths
import Multiboot.EnvPrepare
import Multiboot.Storage
import Multiboot.Images
import Multiboot.Sources
import Multiboot.Cmdline
import Multiboot.Lib.Logged
import Multiboot.Startup
import Multiboot.Lib.Tokens
import Multiboot.Lib.FirstMatch
import Multiboot.BlockTable
import Multiboot.DeviceLookup
import Multiboot.DeviceNames
import Multiboot.ReadFstab
import Multiboot.FstabColumns
import Multiboot.FstabRoundTrip
import Multiboot.Lib.Strtok
import Multiboot.ParseFlags
import Multiboot.FstabReader
import Multiboot.PathArg
import Multiboot.UeventFile
import Multiboot.UeventLines
import Multiboot.FstabTable
import Multiboot.LoopNodes
import Multiboot.Mkpath
import Multiboot.Lib.FileTree
import Multiboot.Wipe
import Multiboot.Lib.Heap
import Multiboot.TracerHeap
import Multiboot.TracerHeapSpecs
import Multiboot.TracerHeapRuns
import Multiboot.Lib.Calls
import Multiboot.Boot
import Multiboot.BootSpecs
import Multiboot.BootSetup
import Multiboot.WipeRuns
import Multiboot.StorageFrame
import Multiboot.Lib.Handles
import Multiboot.Partitions
import Multiboot.FstabHeap
import Multiboot.UeventHeap
