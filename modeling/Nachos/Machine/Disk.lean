import Nachos.Lib.Utility
import Mathlib.Logic.Function.Basic

/-!
# The disk as the file system sees it

`SynchDisk::ReadSector` and `WriteSector` move whole sectors; the `ASSERT`s on
the sector number are those of `Disk::ReadRequest` and `Disk::WriteRequest`.
-/

namespace Nachos

open Foundation

namespace Disk

def sectorSize : Nat := 128

def sectorsPerTrack : Nat := 32

def numTracks : Nat := 32

def numSectors : Nat := sectorsPerTrack * numTracks

theorem small_of_lt {sector : Nat} (inside : sector < numSectors) :
    sector < 2 ^ 31 := by
  simp only [numSectors, sectorsPerTrack, numTracks] at inside
  omega

end Disk

open Disk (sectorSize)

structure Sector where
  bytes : List Byte
  length_eq : bytes.length = sectorSize

abbrev DiskImage := Nat → Sector

def blankDisk : DiskImage :=
  fun _ => ⟨List.replicate sectorSize 0, List.length_replicate⟩

namespace SynchDisk

def inRange (sectorNumber : Int) : Bool :=
  decide (0 ≤ sectorNumber ∧ sectorNumber < Disk.numSectors)

def readSector (disk : DiskImage) (sectorNumber : Int) :
    Except Fault Sector := do
  assertThat (inRange sectorNumber) .diskRequest
  return disk sectorNumber.toNat

def writeSector
    (disk : DiskImage) (sectorNumber : Int) (data : List Byte) :
    Except Fault DiskImage := do
  assertThat (inRange sectorNumber) .diskRequest
  if whole : data.length = sectorSize then
    return Function.update disk sectorNumber.toNat ⟨data, whole⟩
  else
    throw .outOfBounds

theorem readSector_natCast
    (disk : DiskImage) {sector : Nat} (inside : sector < Disk.numSectors) :
    readSector disk sector = .ok (disk sector) := by
  have ranged : inRange sector = true := by
    simp [inRange, inside]
  unfold readSector
  rw [ranged]
  rfl

theorem writeSector_natCast
    (disk : DiskImage) {sector : Nat} (inside : sector < Disk.numSectors)
    {data : List Byte} (whole : data.length = sectorSize) :
    writeSector disk sector data =
      .ok (Function.update disk sector ⟨data, whole⟩) := by
  have ranged : inRange sector = true := by
    simp [inRange, inside]
  unfold writeSector
  rw [ranged, dif_pos whole]
  rfl

end SynchDisk

end Nachos
