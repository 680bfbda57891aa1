import Nachos.Foundation.Buffer
import Nachos.Foundation.Transitions
import Nachos.Foundation.Refinement
import Nachos.Foundation.Words
import Nachos.Lib.Utility
import Nachos.Lib.Bitmap
import Nachos.Lib.BitmapCalls
import Nachos.Machine.Disk
import Nachos.Filesys.FileHeader
import Nachos.Filesys.OpenFile
import Nachos.Filesys.Access
import Nachos.Lib.CString
import Nachos.Filesys.Directory
import Nachos.Filesys.DirectoryCalls
import Nachos.Foundation.FirstMatch
import Nachos.Filesys.PersistentBitmap
import Nachos.Filesys.FileSystem
import Nachos.Filesys.Consistency
import Nachos.Filesys.Operations
import Nachos.Filesys.Format
import Nachos.Filesys.Creation
import Nachos.Filesys.Sessions
import Nachos.Filesys.Removal
import Nachos.Filesys.Handles
import Nachos.Stub.Host
import Nachos.Filesys.Transfer
import Nachos.Stub.HostFile
import Nachos.Stub.FileSystem
import Nachos.Stub.Table
import Nachos.Stub.Runs
import Nachos.Stub.Descriptors
import Nachos.Stub.Leftovers
import Nachos.Stub.Contract
import Nachos.Stub.Survival
import Nachos.Lib.List
import Nachos.Foundation.Chain
import Nachos.Lib.ListElements
import Nachos.Lib.ListCalls
import Nachos.Foundation.StableQueue
import Nachos.Lib.SortedList
import Nachos.Foundation.Buckets
import Nachos.Lib.Hash
import Nachos.Lib.HashContents
import Nachos.Lib.HashCalls
import Nachos.Threads.Semaphore
import Nachos.Threads.Lock
import Nachos.Foundation.Update
import Nachos.Foundation.Channel
import Nachos.Foundation.Counting
import Nachos.Threads.Waiters
import Nachos.Threads.Condition
import Nachos.Threads.Wakeups
import Nachos.Threads.ConditionCalls
import Nachos.Threads.SynchList
import Nachos.Threads.SynchListChannel
import Nachos.Threads.Scheduler
import Nachos.Threads.Placement
import Nachos.Threads.Scheduling
import Nachos.Foundation.Agenda
import Nachos.Machine.Interrupt
import Nachos.Machine.InterruptRuns
import Nachos.Threads.Guarded
import Nachos.Filesys.SynchDisk
import Nachos.Userprog.SynchConsole
import Nachos.Machine.Network
import Nachos.Network.MailBox
import Nachos.Network.Post
import Nachos.Network.Outgoing
import Nachos.Network.Arrival
import Nachos.Network.Incoming
import Nachos.Network.Delivery
import Nachos.Machine.Translate
import Nachos.Machine.Mipssim
import Nachos.Machine.CpuRuns
import Nachos.Machine.CpuAgreement
import Nachos.Machine.LoadDelay
import Nachos.Machine.UserMemory
import Nachos.Userprog.Copies
import Nachos.Userprog.Ksyscall
import Nachos.Userprog.Exception
import Nachos.Userprog.Returns
import Nachos.Userprog.RoundTrip
import Nachos.Userprog.ReadNum
import Nachos.Userprog.PrintNum
import Nachos.Userprog.ReadFile
import Nachos.Stub.Names
import Nachos.Stub.Offsets
import Nachos.Foundation.DoubleWord
import Nachos.Machine.Multiply
import Nachos.Machine.WordMemory
import Nachos.Machine.Unaligned
import Nachos.Machine.ByteMemory
import Nachos.Machine.Confinement
import Nachos.Userprog.AddrSpace
import Nachos.Userprog.Load
import Nachos.Userprog.Image
import Nachos.Userprog.Isolation
import Nachos.Userprog.StringCopies
import Nachos.Userprog.Survival
import Nachos.Machine.Arithmetic
import Nachos.Foundation.Settled
import Nachos.Test.Sort
import Nachos.Machine.DiskLatency
