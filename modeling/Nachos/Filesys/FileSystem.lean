import Nachos.Filesys.Directory
import Nachos.Filesys.PersistentBitmap

/-!
# The file system on the simulated disk

`FileSystem` of `filesys/filesys.cc`: the bitmap of free sectors and the single
directory are files themselves, whose headers sit in sectors 0 and 1 and which
stay open while Nachos runs.

Every function takes the disk and returns the disk it leaves behind.  `memory`
is what the memory that it allocates happens to hold, allocation by allocation.
-/

namespace Nachos

open Foundation

namespace FileSystem

def freeMapSector : Nat := 0

def directorySector : Nat := 1

def freeMapFileSize : Nat := Disk.numSectors / 8

def numDirEntries : Nat := 10

def directoryFileSize : Nat := DirectoryEntry.size * numDirEntries

end FileSystem

open FileSystem

/-- What successive allocations of a call happen to hold. -/
abbrev Memory := Nat → Junk

def Memory.skip (memory : Memory) (count : Nat) : Memory :=
  fun index => memory (count + index)

structure FileSystem where
  freeMapFile : OpenFile
  directoryFile : OpenFile

namespace FileSystem

def newHeader (junk : Junk) : FileHeader :=
  FileHeader.ofSector ⟨(List.range Disk.sectorSize).map junk, by simp⟩

/-- `FileSystem::FileSystem(FALSE)`. -/
def mount (disk : DiskImage) : Except Fault FileSystem := do
  let freeMapFile ← OpenFile.openSector disk freeMapSector
  let directoryFile ← OpenFile.openSector disk directorySector
  return { freeMapFile, directoryFile }

/-- `FileSystem::FileSystem(TRUE)`. -/
def format (disk : DiskImage) (memory : Memory) :
    Except Fault (FileSystem × DiskImage) := do
  let freeMap ← Bitmap.create Disk.numSectors
  let directory := Directory.create (memory 0) numDirEntries
  -- make sure no one else grabs the two header sectors
  let freeMap ← freeMap.mark freeMapSector
  let freeMap ← freeMap.mark directorySector
  let (success, mapHdr, freeMap) ←
    (newHeader (memory 1)).allocate freeMap freeMapFileSize
  assertThat success .formatAllocate
  let (success, dirHdr, freeMap) ←
    (newHeader (memory 2)).allocate freeMap directoryFileSize
  assertThat success .formatAllocate
  -- the headers go to disk before the files can be opened
  let disk ← mapHdr.writeBack disk freeMapSector
  let disk ← dirHdr.writeBack disk directorySector
  let fileSystem ← mount disk
  let disk ←
    PersistentBitmap.writeBack freeMap fileSystem.freeMapFile disk
      (memory.skip 3)
  let disk ← directory.writeBack fileSystem.directoryFile disk (memory.skip 6)
  return (fileSystem, disk)

def fetchDirectory
    (fileSystem : FileSystem) (disk : DiskImage) (memory : Memory) :
    Except Fault Directory :=
  (Directory.create (memory 0) numDirEntries).fetchFrom
    fileSystem.directoryFile disk (memory 1)

def create
    (fileSystem : FileSystem) (disk : DiskImage) (memory : Memory)
    (name : List Byte) (initialSize : Int) :
    Except Fault (Bool × DiskImage) := do
  let directory ← fileSystem.fetchDirectory disk memory
  if directory.find name ≠ -1 then
    return (false, disk)
  else
    let freeMap ←
      PersistentBitmap.fetch fileSystem.freeMapFile disk (memory 2)
        Disk.numSectors
    let (sector, freeMap) ← freeMap.findAndSet
    if sector = -1 then
      return (false, disk)
    else
      let (added, directory) := directory.add name sector
      if !added then
        return (false, disk)
      else
        let (allocated, hdr, freeMap) ←
          (newHeader (memory 3)).allocate freeMap initialSize
        if !allocated then
          return (false, disk)
        else
          let disk ← hdr.writeBack disk sector
          let disk ←
            directory.writeBack fileSystem.directoryFile disk (memory.skip 4)
          let disk ←
            PersistentBitmap.writeBack freeMap fileSystem.freeMapFile disk
              (memory.skip 7)
          return (true, disk)

/-- `FileSystem::Open`: `none` is the `NULL` of a name not found. -/
def openFile
    (fileSystem : FileSystem) (disk : DiskImage) (memory : Memory)
    (name : List Byte) : Except Fault (Option OpenFile) := do
  let directory ← fileSystem.fetchDirectory disk memory
  let sector := directory.find name
  if 0 ≤ sector then
    return some (← OpenFile.openSector disk sector)
  else
    return none

def remove
    (fileSystem : FileSystem) (disk : DiskImage) (memory : Memory)
    (name : List Byte) : Except Fault (Bool × DiskImage) := do
  let directory ← fileSystem.fetchDirectory disk memory
  let sector := directory.find name
  if sector = -1 then
    return (false, disk)
  else
    let fileHdr ← FileHeader.fetchFrom disk sector
    let freeMap ←
      PersistentBitmap.fetch fileSystem.freeMapFile disk (memory 2)
        Disk.numSectors
    let freeMap ← fileHdr.deallocate freeMap
    let freeMap ← freeMap.clear sector
    let (_, directory) := directory.remove name
    let disk ←
      PersistentBitmap.writeBack freeMap fileSystem.freeMapFile disk
        (memory.skip 3)
    let disk ← directory.writeBack fileSystem.directoryFile disk (memory.skip 6)
    return (true, disk)

end FileSystem

end Nachos
