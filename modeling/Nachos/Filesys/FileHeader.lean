import Nachos.Lib.Bitmap
import Nachos.Machine.Disk

/-!
# File headers

`FileHeader` of `filesys/filehdr.cc`: the length of a file and a table of
direct data sectors, stored in memory as on disk in one sector.
-/

namespace Nachos

open Foundation
open Disk (sectorSize)

def numDirect : Nat := (sectorSize - 2 * 4) / 4

def maxFileSize : Nat := numDirect * sectorSize

structure FileHeader where
  numBytes : Word
  numSectors : Word
  dataSectors : List Word
  dataSectors_length : dataSectors.length = numDirect

namespace FileHeader

def toBytes (header : FileHeader) : List Byte :=
  encodeWords (header.numBytes :: header.numSectors :: header.dataSectors)

theorem length_toBytes (header : FileHeader) :
    header.toBytes.length = sectorSize := by
  rw [toBytes, length_encodeWords, List.length_cons, List.length_cons,
    header.dataSectors_length]
  rfl

def ofSector (sector : Sector) : FileHeader where
  numBytes := (decodeWords sector.bytes).getD 0 0
  numSectors := (decodeWords sector.bytes).getD 1 0
  dataSectors := (decodeWords sector.bytes).drop 2
  dataSectors_length := by
    rw [List.length_drop, length_decodeWords, sector.length_eq]
    rfl

theorem ofSector_toBytes (header : FileHeader) :
    ofSector ⟨header.toBytes, header.length_toBytes⟩ = header := by
  unfold ofSector toBytes
  simp

def setDataSector
    (header : FileHeader) (i : Nat) (sector : Int) :
    Except Fault FileHeader :=
  if i < numDirect then
    .ok { header with
      dataSectors := header.dataSectors.set i (BitVec.ofInt 32 sector)
      dataSectors_length := by
        rw [List.length_set]
        exact header.dataSectors_length }
  else
    .error .outOfBounds

/-- `dataSectors[i]`.  Nothing checks the index: the two words before the table
are the other members of the header, and only what is outside the object
fails. -/
def dataSector (header : FileHeader) (i : Int) : Except Fault Int :=
  if 0 ≤ i ∧ i < numDirect then
    .ok (header.dataSectors.getD i.toNat 0).toInt
  else if i = -1 then
    .ok header.numSectors.toInt
  else if i = -2 then
    .ok header.numBytes.toInt
  else
    .error .outOfBounds

def allocateFrom (header : FileHeader) (freeMap : Bitmap) :
    Nat → Nat → Except Fault (FileHeader × Bitmap)
  | 0, _ => .ok (header, freeMap)
  | remaining + 1, i => do
    let (sector, freeMap) ← freeMap.findAndSet
    let header ← header.setDataSector i sector
    assertThat (decide (0 ≤ (← header.dataSector i))) .fileHeaderAllocate
    allocateFrom header freeMap remaining (i + 1)

def allocate (header : FileHeader) (freeMap : Bitmap) (fileSize : Int) :
    Except Fault (Bool × FileHeader × Bitmap) := do
  let header := { header with
    numBytes := BitVec.ofInt 32 fileSize
    numSectors := BitVec.ofInt 32 (divRoundUp fileSize sectorSize) }
  if (← freeMap.numClear) < header.numSectors.toInt then
    return (false, header, freeMap)
  else
    let (header, freeMap) ←
      header.allocateFrom freeMap header.numSectors.toInt.toNat 0
    return (true, header, freeMap)

def deallocateFrom (header : FileHeader) (freeMap : Bitmap) :
    Nat → Nat → Except Fault Bitmap
  | 0, _ => .ok freeMap
  | remaining + 1, i => do
    let sector ← header.dataSector i
    assertThat (← freeMap.test sector) .fileHeaderDeallocate
    let freeMap ← freeMap.clear sector
    deallocateFrom header freeMap remaining (i + 1)

def deallocate (header : FileHeader) (freeMap : Bitmap) :
    Except Fault Bitmap :=
  header.deallocateFrom freeMap header.numSectors.toInt.toNat 0

def fetchFrom (disk : DiskImage) (sector : Int) :
    Except Fault FileHeader := do
  return ofSector (← SynchDisk.readSector disk sector)

def writeBack (header : FileHeader) (disk : DiskImage) (sector : Int) :
    Except Fault DiskImage :=
  SynchDisk.writeSector disk sector header.toBytes

def byteToSector (header : FileHeader) (offset : Int) :
    Except Fault Int :=
  header.dataSector (divRoundDown offset sectorSize)

def fileLength (header : FileHeader) : Int :=
  header.numBytes.toInt

/-! ## Well-formed headers -/

def length (header : FileHeader) : Nat :=
  header.numBytes.toInt.toNat

def sectors (header : FileHeader) : List Nat :=
  (header.dataSectors.take header.numSectors.toInt.toNat).map BitVec.toNat

/-- A header that the table of direct sectors can represent. -/
structure WellFormed (header : FileHeader) : Prop where
  numBytes_nonneg : 0 ≤ header.numBytes.toInt
  numSectors_eq :
    header.numSectors.toInt = divRoundUp header.numBytes.toInt sectorSize
  numSectors_le : header.numSectors.toInt ≤ numDirect
  inRange : ∀ sector ∈ header.sectors, sector < Disk.numSectors

theorem length_sectors_le (header : FileHeader) :
    header.sectors.length ≤ numDirect := by
  unfold sectors
  rw [List.length_map, List.length_take, header.dataSectors_length]
  omega

theorem WellFormed.length_sectors
    {header : FileHeader} (wellFormed : header.WellFormed) :
    header.sectors.length = (header.length + sectorSize - 1) / sectorSize := by
  have nonnegative := wellFormed.numBytes_nonneg
  have few := wellFormed.numSectors_le
  have bytes : header.numBytes.toInt = (header.length : Int) := by
    unfold length
    omega
  have count : header.numSectors.toInt.toNat =
      (header.length + sectorSize - 1) / sectorSize := by
    rw [wellFormed.numSectors_eq, bytes, divRoundUp_natCast _ (by decide)]
    rfl
  unfold sectors
  rw [List.length_map, List.length_take, header.dataSectors_length, ← count]
  omega

theorem WellFormed.length_sectors_eq
    {header : FileHeader} (wellFormed : header.WellFormed) :
    (header.sectors.length : Int) = header.numSectors.toInt := by
  have nonnegative := wellFormed.numBytes_nonneg
  have bytes : header.numBytes.toInt = (header.length : Int) := by
    unfold length
    omega
  rw [wellFormed.numSectors_eq, bytes, divRoundUp_natCast _ (by decide),
    wellFormed.length_sectors]

theorem WellFormed.length_le
    {header : FileHeader} (wellFormed : header.WellFormed) :
    header.length ≤ maxFileSize := by
  have count := wellFormed.length_sectors
  have few := header.length_sectors_le
  simp only [maxFileSize, numDirect, sectorSize] at *
  omega

/-! ## Specifications -/

theorem toInt_ofInt_natCast {number : Nat} (small : number < 2 ^ 31) :
    (BitVec.ofInt 32 (number : Int)).toInt = number := by
  rw [BitVec.toInt_ofInt]
  exact Int.bmod_eq_of_le (by omega) (by omega)

theorem toNat_ofInt_natCast {number : Nat} (small : number < 2 ^ 31) :
    (BitVec.ofInt 32 (number : Int)).toNat = number := by
  rw [BitVec.ofInt_natCast, BitVec.toNat_ofNat]
  exact Nat.mod_eq_of_lt (by omega)

theorem toInt_eq_natCast {word : Word} (small : word.toNat < 2 ^ 31) :
    word.toInt = word.toNat :=
  BitVec.toInt_eq_toNat_of_lt (by omega)

theorem dataSector_natCast
    (header : FileHeader) {i : Nat} (inside : i < numDirect) :
    header.dataSector i = .ok (header.dataSectors.getD i 0).toInt := by
  unfold dataSector
  rw [if_pos (by omega)]
  rfl

theorem byteToSector_natCast
    {header : FileHeader} (wellFormed : header.WellFormed)
    {index : Nat} (inside : index < header.sectors.length) :
    header.byteToSector ((sectorSize * index : Nat) : Int) =
      .ok (header.sectors.get ⟨index, inside⟩ : Int) := by
  have few := header.length_sectors_le
  have ranged := wellFormed.inRange _ (List.get_mem header.sectors ⟨index, inside⟩)
  have tableInside : index < header.dataSectors.length := by
    rw [header.dataSectors_length]
    omega
  have entry :
      header.sectors.get ⟨index, inside⟩ = (header.dataSectors[index]).toNat := by
    simp [sectors]
  unfold byteToSector
  rw [divRoundDown_natCast, Nat.mul_div_cancel_left _ (by decide),
    dataSector_natCast _ (by omega), List.getD_eq_getElem?_getD,
    List.getElem?_eq_getElem tableInside, Option.getD_some, entry]
  rw [entry] at ranged
  rw [toInt_eq_natCast (Disk.small_of_lt ranged)]

private theorem setDataSector_spec
    (header : FileHeader) {i : Nat} (inside : i < numDirect)
    {sector : Nat} (small : sector < 2 ^ 31) :
    ∃ updated,
      header.setDataSector i sector = .ok updated ∧
        updated.numBytes = header.numBytes ∧
        updated.numSectors = header.numSectors ∧
        updated.dataSectors =
          header.dataSectors.set i (BitVec.ofInt 32 sector) ∧
        updated.dataSector i = .ok (sector : Int) := by
  refine ⟨{ header with
    dataSectors := header.dataSectors.set i (BitVec.ofInt 32 sector)
    dataSectors_length := by
      rw [List.length_set]
      exact header.dataSectors_length }, ?_, rfl, rfl, rfl, ?_⟩
  · unfold setDataSector
    rw [if_pos inside]
  · have lengthEq := header.dataSectors_length
    rw [dataSector_natCast _ inside, List.getD_eq_getElem?_getD,
      List.getElem?_set_self (by omega), Option.getD_some,
      toInt_ofInt_natCast small]

/-- The allocation loop takes the lowest clear sectors, one for each index it
still has to fill, and leaves the earlier entries of the table alone. -/
private theorem allocateFrom_spec :
    ∀ remaining i (header : FileHeader) (freeMap : Bitmap),
      remaining ≤ freeMap.clearBits.card →
      i + remaining ≤ numDirect →
      freeMap.numBits ≤ 2 ^ 31 →
      ∃ (taken : List Nat) (header' : FileHeader) (freeMap' : Bitmap),
        header.allocateFrom freeMap remaining i = .ok (header', freeMap') ∧
          taken.length = remaining ∧
          taken.Nodup ∧
          (∀ sector ∈ taken, sector ∈ freeMap.clearBits) ∧
          (∀ free ∈ freeMap.clearBits, free ∉ taken →
            ∀ sector ∈ taken, sector < free) ∧
          freeMap'.numBits = freeMap.numBits ∧
          (∀ other, freeMap'.marked other =
            (decide (other ∈ taken) || freeMap.marked other)) ∧
          header'.numBytes = header.numBytes ∧
          header'.numSectors = header.numSectors ∧
          header'.dataSectors.take i = header.dataSectors.take i ∧
          ((header'.dataSectors.drop i).take remaining).map BitVec.toNat = taken
  | 0, i, header, freeMap, _, _, _ =>
    ⟨[], header, freeMap, rfl, rfl, List.nodup_nil, by simp, by simp, rfl,
      by simp, rfl, rfl, rfl, by simp⟩
  | remaining + 1, i, header, freeMap, enough, fits, small => by
    rcases Bitmap.findAndSet_cases freeMap with
      ⟨sector, marking, inside, clearBit, allBefore, found, sameSize, bits⟩ |
        ⟨allMarked, _⟩
    · have clearMember : sector ∈ freeMap.clearBits :=
        Bitmap.mem_clearBits.mpr ⟨inside, clearBit⟩
      have clearErase : marking.clearBits = freeMap.clearBits.erase sector :=
        Bitmap.clearBits_of_marked sameSize bits
      have enoughLeft : remaining ≤ marking.clearBits.card := by
        rw [clearErase, Finset.card_erase_of_mem clearMember]
        omega
      obtain ⟨stored, storeResult, sameBytes, sameSectors, storedTable,
          storedSector⟩ :=
        setDataSector_spec header (i := i) (by omega)
          (show sector < 2 ^ 31 by omega)
      obtain ⟨taken, header', freeMap', result, takenLength, takenNodup,
          takenClear, lowest, finalSize, finalBits, finalBytes, finalSectors,
          earlier, later⟩ :=
        allocateFrom_spec remaining (i + 1) stored marking enoughLeft
          (by omega) (by omega)
      have tableLength : i < header.dataSectors.length := by
        rw [header.dataSectors_length]
        omega
      have storedLength : i < header'.dataSectors.length := by
        rw [header'.dataSectors_length]
        omega
      have atIndex :
          header'.dataSectors[i]? = some (BitVec.ofInt 32 (sector : Int)) := by
        have prefixes := congrArg (fun table => table[i]?) earlier
        simpa [storedTable, List.getElem?_take, tableLength] using prefixes
      refine ⟨sector :: taken, header', freeMap', ?_, ?_, ?_, ?_, ?_, ?_, ?_,
        ?_, ?_, ?_, ?_⟩
      · unfold allocateFrom
        simp only [found, ok_bind, storeResult, storedSector,
          Int.natCast_nonneg, decide_true, assertThat_true]
        exact result
      · rw [List.length_cons, takenLength]
      · rw [List.nodup_cons]
        refine ⟨?_, takenNodup⟩
        intro member
        have stillClear := takenClear sector member
        rw [clearErase] at stillClear
        exact Finset.notMem_erase sector _ stillClear
      · intro other member
        rcases List.mem_cons.mp member with equal | member
        · exact equal ▸ clearMember
        · have stillClear := takenClear other member
          rw [clearErase] at stillClear
          exact Finset.mem_of_mem_erase stillClear
      · intro free isFree notTaken other member
        rw [List.mem_cons, not_or] at notTaken
        rcases List.mem_cons.mp member with rfl | member
        · -- what is marked before the sector found is not free
          by_contra notBefore
          have marked := allBefore free (by omega)
          rw [(Bitmap.mem_clearBits.mp isFree).2] at marked
          cases marked
        · refine lowest free ?_ notTaken.2 other member
          rw [clearErase]
          exact Finset.mem_erase.mpr ⟨notTaken.1, isFree⟩
      · exact finalSize.trans sameSize
      · intro other
        rw [finalBits, bits]
        by_cases same : other = sector <;> simp [same]
      · exact finalBytes.trans sameBytes
      · exact finalSectors.trans sameSectors
      · have prefixes := congrArg (List.take i) earlier
        rw [List.take_take, List.take_take, Nat.min_eq_left (by omega),
          storedTable, List.take_set_of_le (le_refl i)] at prefixes
        exact prefixes
      · rw [List.drop_eq_getElem_cons storedLength, List.take_succ_cons,
          List.map_cons, later]
        congr 1
        rw [List.getElem?_eq_getElem storedLength] at atIndex
        rw [Option.some.inj atIndex, toNat_ofInt_natCast (by omega)]
    · have noneClear : freeMap.clearBits = ∅ := by
        rw [Finset.eq_empty_iff_forall_notMem]
        intro which member
        obtain ⟨inside, clearBit⟩ := Bitmap.mem_clearBits.mp member
        rw [allMarked which inside] at clearBit
        cases clearBit
      rw [noneClear] at enough
      simp at enough

def sectorsFor (fileSize : Nat) : Nat :=
  (fileSize + sectorSize - 1) / sectorSize

theorem sectorsFor_le {fileSize : Nat} (allowed : fileSize ≤ maxFileSize) :
    sectorsFor fileSize ≤ numDirect := by
  simp only [sectorsFor, maxFileSize, numDirect, sectorSize] at *
  omega

def withSize (header : FileHeader) (fileSize : Int) : FileHeader :=
  { header with
    numBytes := BitVec.ofInt 32 fileSize
    numSectors := BitVec.ofInt 32 (divRoundUp fileSize sectorSize) }

/-- `Allocate` compares the clear bits with the sectors it needs, and fills the
table. -/
theorem allocate_eq
    (header : FileHeader) (freeMap : Bitmap) (fileSize : Int) :
    header.allocate freeMap fileSize =
      if (freeMap.clearBits.card : Int) <
          (header.withSize fileSize).numSectors.toInt then
        .ok (false, header.withSize fileSize, freeMap)
      else
        ((header.withSize fileSize).allocateFrom freeMap
          (header.withSize fileSize).numSectors.toInt.toNat 0).map
            (fun result => (true, result.1, result.2)) := by
  unfold allocate
  rw [Bitmap.numClear_eq]
  change (if (freeMap.clearBits.card : Int) <
    (header.withSize fileSize).numSectors.toInt then _ else _) = _
  split_ifs
  · rfl
  · change (do
      let result ← (header.withSize fileSize).allocateFrom freeMap
        (header.withSize fileSize).numSectors.toInt.toNat 0
      pure (true, result.1, result.2)) = _
    cases (header.withSize fileSize).allocateFrom freeMap
      (header.withSize fileSize).numSectors.toInt.toNat 0 <;> rfl

theorem numSectors_withSize
    (header : FileHeader) {fileSize : Nat} (small : fileSize < 2 ^ 31) :
    (header.withSize fileSize).numSectors.toInt =
      (sectorsFor fileSize : Int) := by
  have needed :
      divRoundUp (fileSize : Int) (sectorSize : Int) =
        (sectorsFor fileSize : Int) :=
    divRoundUp_natCast fileSize (by decide)
  have sectorsSmall : sectorsFor fileSize < 2 ^ 31 := by
    simp only [sectorsFor, sectorSize]
    omega
  change (BitVec.ofInt 32 (divRoundUp (fileSize : Int) sectorSize)).toInt = _
  rw [needed]
  exact toInt_ofInt_natCast sectorsSmall

/-- `Allocate` either reports that the map has too few clear bits, or returns a
well-formed header over the lowest clear sectors, which are now marked. -/
theorem allocate_spec
    (header : FileHeader) (freeMap : Bitmap)
    {fileSize : Nat} (allowed : fileSize ≤ maxFileSize)
    (bounded : freeMap.numBits ≤ Disk.numSectors) :
    (freeMap.clearBits.card < sectorsFor fileSize ∧
        ∃ header', header.allocate freeMap fileSize =
          .ok (false, header', freeMap)) ∨
      (sectorsFor fileSize ≤ freeMap.clearBits.card ∧
        ∃ header' freeMap',
          header.allocate freeMap fileSize = .ok (true, header', freeMap') ∧
            header'.WellFormed ∧
            header'.length = fileSize ∧
            header'.sectors.length = sectorsFor fileSize ∧
            header'.sectors.Nodup ∧
            (∀ sector ∈ header'.sectors, sector ∈ freeMap.clearBits) ∧
            (∀ free ∈ freeMap.clearBits, free ∉ header'.sectors →
              ∀ sector ∈ header'.sectors, sector < free) ∧
            freeMap'.numBits = freeMap.numBits ∧
            ∀ other, freeMap'.marked other =
              (decide (other ∈ header'.sectors) || freeMap.marked other)) := by
  have fewSectors := sectorsFor_le allowed
  have sizeSmall : fileSize < 2 ^ 31 := by
    simp only [maxFileSize, numDirect, sectorSize] at allowed
    omega
  have needed := header.numSectors_withSize sizeSmall
  have unfolded := header.allocate_eq freeMap fileSize
  rw [needed, Int.toNat_natCast] at unfolded
  rcases Nat.lt_or_ge freeMap.clearBits.card (sectorsFor fileSize) with
    few | enough
  · left
    refine ⟨few, header.withSize fileSize, ?_⟩
    rw [unfolded, if_pos (by omega)]
  · right
    have mapSmall : freeMap.numBits ≤ 2 ^ 31 := by
      simp only [Disk.numSectors, Disk.sectorsPerTrack, Disk.numTracks]
        at bounded
      omega
    obtain ⟨taken, header', freeMap', result, takenLength, takenNodup,
        takenClear, lowest, finalSize, finalBits, finalBytes, finalSectors, _,
        table⟩ :=
      allocateFrom_spec (sectorsFor fileSize) 0 (header.withSize fileSize)
        freeMap enough (by omega) mapSmall
    have sectorCount : header'.numSectors.toInt = sectorsFor fileSize := by
      rw [finalSectors]
      exact needed
    have byteCount : header'.numBytes.toInt = fileSize := by
      rw [finalBytes]
      exact toInt_ofInt_natCast sizeSmall
    have sectorsEq : header'.sectors = taken := by
      unfold sectors
      rw [sectorCount, Int.toNat_natCast]
      exact table
    refine ⟨enough, header', freeMap', ?_, ?_, ?_, ?_, ?_, ?_, ?_, finalSize,
      ?_⟩
    · rw [unfolded, if_neg (by omega), result]
      rfl
    · refine ⟨?_, ?_, ?_, ?_⟩
      · rw [byteCount]
        omega
      · rw [sectorCount, byteCount]
        exact (divRoundUp_natCast fileSize (by decide)).symm
      · rw [sectorCount]
        omega
      · intro sector member
        rw [sectorsEq] at member
        exact lt_of_lt_of_le
          (Bitmap.mem_clearBits.mp (takenClear sector member)).1 bounded
    · rw [length, byteCount, Int.toNat_natCast]
    · rw [sectorsEq, takenLength]
    · rw [sectorsEq]
      exact takenNodup
    · rw [sectorsEq]
      exact takenClear
    · rw [sectorsEq]
      exact lowest
    · rw [sectorsEq]
      exact finalBits

theorem allocate_of_negative
    (header : FileHeader) (freeMap : Bitmap) {fileSize : Int}
    (negative : fileSize < 0) (lower : -2 ^ 31 ≤ fileSize) :
    header.allocate freeMap fileSize =
      .ok (true, header.withSize fileSize, freeMap) := by
  have nonpositive : (header.withSize fileSize).numSectors.toInt ≤ 0 := by
    obtain ⟨size, rfl⟩ : ∃ size : Nat, fileSize = -(size : Int) :=
      ⟨fileSize.natAbs, by omega⟩
    have rounded := divRoundUp_neg size sectorSize
    have bounded : size / sectorSize ≤ size := Nat.div_le_self _ _
    generalize size / sectorSize = sectors at rounded bounded
    change (BitVec.ofInt 32 (divRoundUp (-(size : Int)) sectorSize)).toInt ≤ 0
    rw [rounded, BitVec.toInt_ofInt, Int.bmod_eq_of_le] <;> omega
  rw [allocate_eq, if_neg (by omega), Int.toNat_eq_zero.mpr nonpositive]
  rfl

/-- The loop of `Allocate` with more sectors to store than the table has
entries left. -/
private theorem allocateFrom_outOfBounds :
    ∀ remaining i (header : FileHeader) (freeMap : Bitmap),
      remaining ≤ freeMap.clearBits.card →
      i ≤ numDirect →
      numDirect < i + remaining →
      freeMap.numBits ≤ 2 ^ 31 →
      header.allocateFrom freeMap remaining i = .error .outOfBounds
  | 0, i, header, freeMap, _, below, above, _ => by omega
  | remaining + 1, i, header, freeMap, enough, below, above, small => by
    rcases Bitmap.findAndSet_cases freeMap with
      ⟨sector, marking, inside, clearBit, _, found, sameSize, bits⟩ |
        ⟨allMarked, _⟩
    · unfold allocateFrom
      simp only [found, ok_bind]
      by_cases within : i < numDirect
      · have clearMember : sector ∈ freeMap.clearBits :=
          Bitmap.mem_clearBits.mpr ⟨inside, clearBit⟩
        have enoughLeft : remaining ≤ marking.clearBits.card := by
          rw [Bitmap.clearBits_of_marked sameSize bits,
            Finset.card_erase_of_mem clearMember]
          omega
        obtain ⟨stored, storeResult, _, _, _, storedSector⟩ :=
          setDataSector_spec header within (show sector < 2 ^ 31 by omega)
        simp only [storeResult, storedSector, ok_bind, Int.natCast_nonneg,
          decide_true, assertThat_true]
        exact allocateFrom_outOfBounds remaining (i + 1) stored marking
          enoughLeft within (by omega) (by omega)
      · unfold setDataSector
        rw [if_neg within]
        rfl
    · exfalso
      obtain ⟨which, isClear⟩ := Finset.card_pos.mp
        (show 0 < freeMap.clearBits.card by omega)
      obtain ⟨inside, clearBit⟩ := Bitmap.mem_clearBits.mp isClear
      rw [allMarked which inside] at clearBit
      cases clearBit

/-- A size beyond `MaxFileSize` is refused if the map has too few clear bits,
and runs over the end of the table otherwise. -/
theorem allocate_of_large
    (header : FileHeader) {freeMap : Bitmap} {fileSize : Nat}
    (large : maxFileSize < fileSize) (small : fileSize < 2 ^ 31)
    (bounded : freeMap.numBits ≤ 2 ^ 31) :
    header.allocate freeMap fileSize =
      if freeMap.clearBits.card < sectorsFor fileSize then
        .ok (false, header.withSize fileSize, freeMap)
      else
        .error .outOfBounds := by
  have many : numDirect < 0 + sectorsFor fileSize := by
    simp only [maxFileSize, sectorsFor, numDirect, sectorSize] at large ⊢
    omega
  rw [allocate_eq, numSectors_withSize header small, Int.toNat_natCast]
  split_ifs with first second second
  · rfl
  · omega
  · omega
  · rw [allocateFrom_outOfBounds _ 0 _ _ (by omega) (Nat.zero_le _) many bounded]
    rfl

private theorem deallocateFrom_spec (header : FileHeader) :
    ∀ remaining i (freeMap : Bitmap) (released : List Nat),
      i + remaining ≤ numDirect →
      freeMap.numBits ≤ 2 ^ 31 →
      ((header.dataSectors.drop i).take remaining).map BitVec.toNat = released →
      released.Nodup →
      (∀ sector ∈ released,
        sector < freeMap.numBits ∧ freeMap.marked sector = true) →
      ∃ freeMap',
        header.deallocateFrom freeMap remaining i = .ok freeMap' ∧
          freeMap'.numBits = freeMap.numBits ∧
          ∀ other, freeMap'.marked other =
            (!decide (other ∈ released) && freeMap.marked other)
  | 0, i, freeMap, released, _, _, table, _, _ => by
    refine ⟨freeMap, rfl, rfl, ?_⟩
    intro other
    rw [← table]
    simp
  | remaining + 1, i, freeMap, released, fits, small, table, nodup, owned => by
    have tableLength : i < header.dataSectors.length := by
      rw [header.dataSectors_length]
      omega
    rw [List.drop_eq_getElem_cons tableLength, List.take_succ_cons,
      List.map_cons] at table
    subst table
    obtain ⟨fresh, restNodup⟩ := List.nodup_cons.mp nodup
    obtain ⟨inside, isMarked⟩ := owned _ List.mem_cons_self
    have sectorInt :
        header.dataSector i =
          .ok ((header.dataSectors[i]).toNat : Int) := by
      rw [dataSector_natCast _ (by omega), List.getD_eq_getElem?_getD,
        List.getElem?_eq_getElem tableLength, Option.getD_some,
        toInt_eq_natCast (by omega)]
    obtain ⟨cleared, clearResult, sameSize, bits⟩ :=
      Bitmap.clear_spec freeMap inside
    obtain ⟨freeMap', result, finalSize, finalBits⟩ :=
      deallocateFrom_spec header remaining (i + 1) cleared _ (by omega)
        (by omega) rfl restNodup (by
          intro sector member
          obtain ⟨sectorInside, sectorMarked⟩ :=
            owned sector (List.mem_cons_of_mem _ member)
          refine ⟨by omega, ?_⟩
          have different :
              sector ≠ (header.dataSectors[i]).toNat := by
            intro equal
            exact fresh (equal ▸ member)
          rw [bits, sectorMarked]
          simp [different])
    refine ⟨freeMap', ?_, finalSize.trans sameSize, ?_⟩
    · unfold deallocateFrom
      rw [sectorInt, ok_bind, Bitmap.test_eq_ok freeMap inside, ok_bind,
        isMarked, assertThat_true, ok_bind, clearResult, ok_bind]
      exact result
    · intro other
      rw [finalBits, bits]
      by_cases same : other = (header.dataSectors[i]).toNat <;>
        simp [same]

theorem deallocate_spec
    {header : FileHeader} (wellFormed : header.WellFormed)
    {freeMap : Bitmap} (bounded : freeMap.numBits = Disk.numSectors)
    (nodup : header.sectors.Nodup)
    (owned : ∀ sector ∈ header.sectors, freeMap.marked sector = true) :
    ∃ freeMap',
      header.deallocate freeMap = .ok freeMap' ∧
        freeMap'.numBits = freeMap.numBits ∧
        ∀ other, freeMap'.marked other =
          (!decide (other ∈ header.sectors) && freeMap.marked other) := by
  have fewSectors := wellFormed.numSectors_le
  have mapSmall : freeMap.numBits ≤ 2 ^ 31 := by
    rw [bounded]
    decide
  apply deallocateFrom_spec header _ 0 freeMap header.sectors
    (by omega) mapSmall rfl nodup
  intro sector member
  refine ⟨?_, owned sector member⟩
  rw [bounded]
  exact wellFormed.inRange sector member

theorem deallocate_of_clear
    {header : FileHeader} (wellFormed : header.WellFormed)
    {freeMap : Bitmap} (bounded : freeMap.numBits = Disk.numSectors)
    (here : 0 < header.sectors.length)
    (clear : freeMap.marked (header.sectors.get ⟨0, here⟩) = false) :
    header.deallocate freeMap = .error (.assertion .fileHeaderDeallocate) := by
  have first : header.dataSector 0 = .ok (header.sectors.get ⟨0, here⟩ : Int) :=
    byteToSector_natCast wellFormed here
  have inside : header.sectors.get ⟨0, here⟩ < freeMap.numBits := by
    rw [bounded]
    exact wellFormed.inRange _ (List.get_mem _ _)
  obtain ⟨remaining, count⟩ :
      ∃ remaining, header.numSectors.toInt.toNat = remaining + 1 := by
    rw [← wellFormed.length_sectors_eq, Int.toNat_natCast]
    exact Nat.exists_eq_succ_of_ne_zero (by omega)
  unfold deallocate
  rw [count]
  unfold deallocateFrom
  rw [show header.dataSector ((0 : Nat) : Int) = _ from first, ok_bind,
    Bitmap.test_eq_ok freeMap inside, clear]
  rfl

end FileHeader

end Nachos
