import Nachos.Stub.Host
import Nachos.Foundation.FirstMatch

/-!
# The file system over UNIX

`OpenFile` and `FileSystem` of the build with `FILESYS_STUB` (`openfile.h`,
`filesys.h`) and the kernel side of the system calls (`ksyscall.h`).  The four
parallel arrays `FileTable`, `id`, `openMode` and `name` are one list of slots,
for the indices 2 to 19 that the loops run over.

Inside the class `FileSystem` a call of `Close` is a call of the member
function, which works on the table; the `Close` of `sysdep.cc` is reached by the
destructor of `OpenFile` only.
-/

namespace Nachos.Stub

open Foundation

variable {World : Type}

/-! ## Open files -/

structure OpenFile where
  file : Int
  currentOffset : Int
  deriving DecidableEq, Repr

namespace OpenFile

def readAt
    (host : Host World) (openFile : OpenFile) (into : List Byte)
    (numBytes position : Int) (state : HostState World) :
    Except Abort (Int × List Byte × HostState World) := do
  let state ← lseek host openFile.file position 0 state
  return readPartial host openFile.file into numBytes state

def writeAt
    (host : Host World) (openFile : OpenFile) (source : List Byte)
    (numBytes position : Int) (state : HostState World) :
    Except Abort (Int × HostState World) := do
  let state ← lseek host openFile.file position 0 state
  let state ← writeFile host openFile.file source numBytes state
  return (numBytes, state)

def read
    (host : Host World) (openFile : OpenFile) (into : List Byte)
    (numBytes : Int) (state : HostState World) :
    Except Abort (Int × List Byte × OpenFile × HostState World) := do
  let (numRead, into, state) ←
    openFile.readAt host into numBytes openFile.currentOffset state
  let openFile := { openFile with
    currentOffset := wrap (openFile.currentOffset + numRead) }
  return (numRead, into, openFile, state)

def write
    (host : Host World) (openFile : OpenFile) (source : List Byte)
    (numBytes : Int) (state : HostState World) :
    Except Abort (Int × OpenFile × HostState World) := do
  let (numWritten, state) ←
    openFile.writeAt host source numBytes openFile.currentOffset state
  let openFile := { openFile with
    currentOffset := wrap (openFile.currentOffset + numWritten) }
  return (numWritten, openFile, state)

def length
    (host : Host World) (openFile : OpenFile) (state : HostState World) :
    Except Abort (Int × HostState World) := do
  let state ← lseek host openFile.file 0 2 state
  return tell host openFile.file state

def seek (openFile : OpenFile) (position : Int) : Int × OpenFile :=
  (position, { openFile with currentOffset := position })

end OpenFile

/-! ## The table -/

inductive Mode where
  | readWrite
  | read
  deriving DecidableEq, Repr

/-- The entries of the four arrays at one index. -/
structure Slot where
  file : Option OpenFile
  id : Int
  openMode : Mode
  name : Option (List Byte)
  deriving DecidableEq, Repr

namespace Slot

/-- A slot as `Close` leaves it: null pointers and zeros. -/
def empty : Slot where
  file := none
  id := 0
  openMode := .readWrite
  name := none

end Slot

structure FileSystem (World : Type) where
  slots : List Slot
  host : HostState World

namespace FileSystem

/-- `MAX_FILE`, less the two indices of the console. -/
def maxFile : Nat := 18

def checkFileMode
    (host : Host World) (mode : Mode) (fileName : List Byte)
    (fileSystem : FileSystem World) : Bool :=
  fileSystem.slots.any (fun slot =>
    match slot.name with
    | some recorded =>
      host.sameName (cString fileName) recorded fileSystem.host.world &&
        decide (slot.openMode = mode)
    | none => false)

/-- `delete FileTable[i][j]`: the destructor closes the host descriptor. -/
def deleteFile
    (host : Host World) (file : Option OpenFile) (state : HostState World) :
    Except Abort (HostState World) :=
  match file with
  | some openFile => hostClose host openFile.file state
  | none => .ok state

/-- `FileSystem::Close`, with a bound on the depth of its recursion. -/
def closeWithin
    (host : Host World) :
    Nat → Int → FileSystem World → Except Abort (Int × FileSystem World)
  | 0, _, _ => .error .endlessRecursion
  | depth + 1, fileID, fileSystem =>
    if fileID < 0 then
      .ok (-1, fileSystem)
    else
      match fileSystem.slots.findIdx? (fun slot => slot.id == fileID) with
      | some index => do
        let state ←
          deleteFile host
            ((fileSystem.slots.getD index Slot.empty).file) fileSystem.host
        let (_, fileSystem) ←
          closeWithin host depth fileID
            ⟨fileSystem.slots.set index Slot.empty, state⟩
        return (0, fileSystem)
      | none => .ok (-1, fileSystem)

/-- `FileSystem::Close`.  A recursion that closes no slot twice ends within this
depth; only one that comes back to a slot with `id` 0 goes deeper. -/
def close
    (host : Host World) (fileID : Int) (fileSystem : FileSystem World) :
    Except Abort (Int × FileSystem World) :=
  closeWithin host (fileSystem.slots.length + 2) fileID fileSystem

def create
    (host : Host World) (name : List Byte) (fileSystem : FileSystem World) :
    Except Abort (Int × FileSystem World) :=
  if strlen name = 0 then
    .ok (-1, fileSystem)
  else do
    let (fileDescriptor, state) ← openForWrite host name fileSystem.host
    let fileSystem := { fileSystem with host := state }
    if fileDescriptor < 0 then
      return (-1, fileSystem)
    else
      let (_, fileSystem) ← fileSystem.close host fileDescriptor
      return (0, fileSystem)

def openFor
    (host : Host World) (mode : Mode) (fileName : List Byte)
    (state : HostState World) : Int × HostState World :=
  match mode with
  | .read => openForRead host fileName state
  | .readWrite => openForReadWrite host fileName state

def openMode
    (host : Host World) (fileName : List Byte) (mode : Mode)
    (fileSystem : FileSystem World) :
    Except Abort (Int × FileSystem World) :=
  if strlen fileName = 0 then
    .ok (-1, fileSystem)
  else if fileSystem.checkFileMode host mode fileName then
    .ok (-1, fileSystem)
  else
    let (fileDescriptor, state) := openFor host mode fileName fileSystem.host
    match fileSystem.slots.findIdx? (fun slot => slot.file.isNone) with
    | some index =>
      .ok (fileDescriptor,
        ⟨fileSystem.slots.set index
          ⟨some ⟨fileDescriptor, 0⟩, fileDescriptor, mode,
            some (cString fileName)⟩,
          state⟩)
    | none => do
      let (_, fileSystem) ← close host fileDescriptor ⟨fileSystem.slots, state⟩
      return (-1, fileSystem)

def findSlot (fileID : Int) (fileSystem : FileSystem World) : Option Slot :=
  fileSystem.slots.find? (fun slot => slot.id == fileID)

/-- Store back the open file of the first slot with the given `id`. -/
def storeFile
    (fileID : Int) (openFile : OpenFile) (fileSystem : FileSystem World)
    (state : HostState World) : FileSystem World :=
  match fileSystem.slots.findIdx? (fun slot => slot.id == fileID) with
  | some index =>
    ⟨fileSystem.slots.modify index
      (fun slot => { slot with file := some openFile }), state⟩
  | none => ⟨fileSystem.slots, state⟩

/-- `strlen(buffer) == size`; the `int` is converted for the comparison. -/
def hasLength (buffer : List Byte) (size : Int) : Prop :=
  (strlen buffer : Int) = size % 2 ^ 32

instance (buffer : List Byte) (size : Int) :
    Decidable (hasLength buffer size) :=
  inferInstanceAs (Decidable ((strlen buffer : Int) = size % 2 ^ 32))

def write
    (host : Host World) (buffer : List Byte) (size fileID : Int)
    (fileSystem : FileSystem World) :
    Except Abort (Int × FileSystem World) :=
  if fileID < 0 then
    .ok (-1, fileSystem)
  else if ¬ hasLength buffer size then
    .ok (-1, fileSystem)
  else
    match fileSystem.findSlot fileID with
    | none => .ok (-1, fileSystem)
    | some slot =>
      if slot.openMode ≠ .readWrite then
        .ok (-1, fileSystem)
      else
        match slot.file with
        | none => .ok (-1, fileSystem)
        | some openFile => do
          let (result, openFile, state) ←
            openFile.write host buffer size fileSystem.host
          return (result, fileSystem.storeFile fileID openFile state)

def read
    (host : Host World) (buffer : List Byte) (size fileID : Int)
    (fileSystem : FileSystem World) :
    Except Abort (Int × List Byte × FileSystem World) :=
  if fileID < 0 then
    .ok (-1, buffer, fileSystem)
  else
    match (fileSystem.findSlot fileID).bind Slot.file with
    | none => .ok (-1, buffer, fileSystem)
    | some openFile => do
      let (result, buffer, openFile, state) ←
        openFile.read host buffer size fileSystem.host
      return (result, buffer, fileSystem.storeFile fileID openFile state)

def seek
    (host : Host World) (pos fileID : Int) (fileSystem : FileSystem World) :
    Except Abort (Int × FileSystem World) :=
  if fileID < 0 then
    .ok (-1, fileSystem)
  else
    match (fileSystem.findSlot fileID).bind Slot.file with
    | none => .ok (-1, fileSystem)
    | some openFile =>
      if pos < -1 then
        .ok (-1, fileSystem)
      else do
        let (pos, state) ←
          if pos = -1 then
            openFile.length host fileSystem.host
          else
            .ok (pos, fileSystem.host)
        let (result, openFile) := openFile.seek pos
        return (result, fileSystem.storeFile fileID openFile state)

def remove
    (host : Host World) (fileName : List Byte)
    (fileSystem : FileSystem World) : Int × FileSystem World :=
  if strlen fileName = 0 then
    (-1, fileSystem)
  else if !fileSystem.checkFileMode host .read fileName &&
      !fileSystem.checkFileMode host .readWrite fileName then
    let (result, state) := unlink host fileName fileSystem.host
    if result = false then
      (-1, { fileSystem with host := state })
    else
      (1, { fileSystem with host := state })
  else
    (-1, fileSystem)

end FileSystem

/-! ## System calls, kernel side -/

def readChars (host : Host World) : Nat → World → List Byte × World
  | 0, world => ([], world)
  | remaining + 1, world =>
    let (character, world) := host.getChar world
    let (characters, world) := readChars host remaining world
    (character :: characters, world)

/-- `SysReadString`.  The terminating NUL goes to `buffer[length]`; a buffer of
`length` bytes is listed with that byte past its end. -/
def sysReadString
    (host : Host World) (buffer : List Byte) (length : Int)
    (state : HostState World) : List Byte × HostState World :=
  let (characters, world) := readChars host length.toNat state.world
  (characters ++ 0 :: buffer.drop (characters.length + 1),
    { state with world := world })

def sysPrintString
    (host : Host World) (buffer : List Byte) (limit : Int)
    (state : HostState World) : HostState World :=
  let printed := cString (buffer.take limit.toNat)
  { state with
    world := printed.foldl (fun world character =>
      host.putChar character world) state.world }

def sysCreate
    (host : Host World) (name : List Byte) (fileSystem : FileSystem World) :
    Except Abort (Int × FileSystem World) :=
  fileSystem.create host name

def sysOpen
    (host : Host World) (fileName : List Byte) (type : Int)
    (fileSystem : FileSystem World) :
    Except Abort (Int × FileSystem World) :=
  if type = 0 then
    fileSystem.openMode host fileName .readWrite
  else if type = 1 then
    fileSystem.openMode host fileName .read
  else
    .ok (-1, fileSystem)

def sysClose
    (host : Host World) (id : Int) (fileSystem : FileSystem World) :
    Except Abort (Int × FileSystem World) :=
  fileSystem.close host id

def sysWrite
    (host : Host World) (buffer : List Byte) (size id : Int)
    (fileSystem : FileSystem World) :
    Except Abort (Int × FileSystem World) :=
  if id = 0 then
    .ok (-1, fileSystem)
  else if id = 1 then
    .ok (1, { fileSystem with
      host := sysPrintString host buffer size fileSystem.host })
  else
    fileSystem.write host buffer size id

def sysRead
    (host : Host World) (buffer : List Byte) (size id : Int)
    (fileSystem : FileSystem World) :
    Except Abort (Int × List Byte × FileSystem World) :=
  if id = 0 then
    let (buffer, state) := sysReadString host buffer size fileSystem.host
    .ok (1, buffer, { fileSystem with host := state })
  else if id = 1 then
    .ok (-1, buffer, fileSystem)
  else
    fileSystem.read host buffer size id

def sysSeek
    (host : Host World) (pos id : Int) (fileSystem : FileSystem World) :
    Except Abort (Int × FileSystem World) :=
  fileSystem.seek host pos id

def sysRemove
    (host : Host World) (fileName : List Byte)
    (fileSystem : FileSystem World) : Int × FileSystem World :=
  let (result, fileSystem) := fileSystem.remove host fileName
  (if result ≠ 0 then 0 else -1, fileSystem)

/-- `SysRemove` tests the answer of `Remove`, which is never 0. -/
theorem sysRemove_fst
    {host : Host World} (fileName : List Byte)
    (fileSystem : FileSystem World) :
    (sysRemove host fileName fileSystem).1 = 0 := by
  unfold sysRemove FileSystem.remove
  dsimp only
  split_ifs <;> simp_all

end Nachos.Stub
