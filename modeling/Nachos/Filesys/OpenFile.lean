import Nachos.Filesys.FileHeader

/-!
# Open files on the simulated disk

`OpenFile` of `filesys/openfile.cc` (the build without `FILESYS_STUB`): a file
is read and written through whole sectors, with a temporary buffer for the
sectors a request touches.  `contents` is the byte array that a header and a
disk stand for; `readAt` and `writeAt` are specified against it.
-/

namespace Nachos

open Foundation
open Disk (sectorSize)

/-- `OpenFile`: the header kept in memory while the file is open. -/
structure OpenFile where
  hdr : FileHeader
  seekPosition : Int

namespace OpenFile

def openSector (disk : DiskImage) (sector : Int) : Except Fault OpenFile := do
  return { hdr := ← FileHeader.fetchFrom disk sector, seekPosition := 0 }

def length (file : OpenFile) : Int :=
  file.hdr.fileLength

def refused (file : OpenFile) (numBytes position : Int) : Bool :=
  decide (numBytes ≤ 0 ∨ file.hdr.fileLength ≤ position)

def clipped (file : OpenFile) (numBytes position : Int) : Int :=
  if file.hdr.fileLength < wrap (position + numBytes) then
    wrap (file.hdr.fileLength - position)
  else
    numBytes

def firstSector (position : Int) : Int :=
  divRoundDown position sectorSize

def lastSector (numBytes position : Int) : Int :=
  divRoundDown (wrap (wrap (position + numBytes) - 1)) sectorSize

def bufferSize (first last : Int) : Int :=
  wrap (wrap (wrap (1 + last) - first) * sectorSize)

def readSectors (file : OpenFile) (disk : DiskImage) (first : Int) :
    Nat → Int → List Byte → Except Fault (List Byte)
  | 0, _, buf => .ok buf
  | remaining + 1, i, buf => do
    let sector ← file.hdr.byteToSector (wrap (i * sectorSize))
    let data ← SynchDisk.readSector disk sector
    let buf ←
      bcopy data.bytes 0 buf (wrap (wrap (i - first) * sectorSize)) sectorSize
    readSectors file disk first remaining (i + 1) buf

def readAt
    (file : OpenFile) (disk : DiskImage) (junk : Junk)
    (into : List Byte) (start numBytes position : Int) :
    Except Fault (Int × List Byte) :=
  if file.refused numBytes position then
    .ok (0, into)
  else do
    let numBytes := file.clipped numBytes position
    let first := firstSector position
    let last := lastSector numBytes position
    let buf ← newChars junk (bufferSize first last)
    let buf ← file.readSectors disk first (last - first + 1).toNat first buf
    let into ←
      bcopy buf (wrap (position - wrap (first * sectorSize))) into start numBytes
    return (numBytes, into)

def writeSectors (file : OpenFile) (first : Int) (buf : List Byte) :
    Nat → Int → DiskImage → Except Fault DiskImage
  | 0, _, disk => .ok disk
  | remaining + 1, i, disk => do
    let sector ← file.hdr.byteToSector (wrap (i * sectorSize))
    let data ← bytesAt buf (wrap (wrap (i - first) * sectorSize)) sectorSize
    let disk ← SynchDisk.writeSector disk sector data
    writeSectors file first buf remaining (i + 1) disk

/-- The part of `WriteAt` that reads in the first and the last sector, if they
are to be partially modified. -/
def readEdges
    (file : OpenFile) (disk : DiskImage) (junk : Nat → Junk)
    (first last : Int) (firstAligned lastAligned : Bool) (buf : List Byte) :
    Except Fault (List Byte) := do
  let buf ←
    if !firstAligned then
      Prod.snd <$>
        file.readAt disk (junk 1) buf 0 sectorSize (wrap (first * sectorSize))
    else
      .ok buf
  if !lastAligned && (first != last || firstAligned) then
    Prod.snd <$>
      file.readAt disk (junk 2) buf (wrap (wrap (last - first) * sectorSize))
        sectorSize (wrap (last * sectorSize))
  else
    .ok buf

def writeAt
    (file : OpenFile) (disk : DiskImage) (junk : Nat → Junk)
    (source : List Byte) (numBytes position : Int) :
    Except Fault (Int × DiskImage) :=
  if file.refused numBytes position then
    .ok (0, disk)
  else do
    let numBytes := file.clipped numBytes position
    let first := firstSector position
    let last := lastSector numBytes position
    let buf ← newChars (junk 0) (bufferSize first last)
    let firstAligned := decide (position = wrap (first * sectorSize))
    let lastAligned :=
      decide (wrap (position + numBytes) = wrap (wrap (last + 1) * sectorSize))
    let buf ← file.readEdges disk junk first last firstAligned lastAligned buf
    -- copy in the bytes we want to change, then write the sectors back
    let buf ←
      bcopy source 0 buf (wrap (position - wrap (first * sectorSize))) numBytes
    let disk ← file.writeSectors first buf (last - first + 1).toNat first disk
    return (numBytes, disk)

def read
    (file : OpenFile) (disk : DiskImage) (junk : Junk) (into : List Byte)
    (numBytes : Int) : Except Fault (Int × List Byte × OpenFile) := do
  let (result, into) ← file.readAt disk junk into 0 numBytes file.seekPosition
  return (result, into,
    { file with seekPosition := wrap (file.seekPosition + result) })

def write
    (file : OpenFile) (disk : DiskImage) (junk : Nat → Junk)
    (source : List Byte) (numBytes : Int) :
    Except Fault (Int × DiskImage × OpenFile) := do
  let (result, disk) ← file.writeAt disk junk source numBytes file.seekPosition
  return (result, disk,
    { file with seekPosition := wrap (file.seekPosition + result) })

/-! ## The byte array behind a header -/

def contents (disk : DiskImage) (header : FileHeader) : List Byte :=
  (header.sectors.map (fun sector => (disk sector).bytes)).flatten

def fileBytes (disk : DiskImage) (header : FileHeader) : List Byte :=
  (contents disk header).take header.length

private theorem uniform_blocks (disk : DiskImage) (sectors : List Nat) :
    ∀ block ∈ sectors.map (fun sector => (disk sector).bytes),
      block.length = sectorSize := by
  intro block member
  obtain ⟨sector, _, rfl⟩ := List.mem_map.mp member
  exact (disk sector).length_eq

theorem length_contents (disk : DiskImage) (header : FileHeader) :
    (contents disk header).length = sectorSize * header.sectors.length := by
  unfold contents
  rw [length_flatten_of_uniform (uniform_blocks disk header.sectors),
    List.length_map]

theorem slice_contents
    (disk : DiskImage) (header : FileHeader)
    {index : Nat} (inside : index < header.sectors.length) :
    slice (contents disk header) (sectorSize * index) sectorSize =
      (disk (header.sectors.get ⟨index, inside⟩)).bytes := by
  unfold contents
  rw [slice_flatten_of_uniform (by decide)
    (uniform_blocks disk header.sectors) (by rw [List.length_map]; exact inside)]
  simp

/-- Writing one data sector overlays its window of the contents; the sectors of
a file being distinct, no other window changes. -/
theorem contents_update
    (disk : DiskImage) {header : FileHeader} (nodup : header.sectors.Nodup)
    {index : Nat} (inside : index < header.sectors.length)
    (data : Sector) :
    contents
        (Function.update disk (header.sectors.get ⟨index, inside⟩) data)
        header =
      overlay (contents disk header) data.bytes (sectorSize * index) := by
  have blocks :
      header.sectors.map
          (fun sector =>
            (Function.update disk (header.sectors.get ⟨index, inside⟩) data
              sector).bytes) =
        (header.sectors.map (fun sector => (disk sector).bytes)).set
          index data.bytes := by
    apply List.ext_getElem?
    intro position
    rw [List.getElem?_set, List.getElem?_map, List.getElem?_map,
      List.length_map]
    by_cases same : index = position
    · subst same
      rw [if_pos rfl, if_pos inside, List.getElem?_eq_getElem inside]
      simp
    · rw [if_neg same]
      by_cases positionInside : position < header.sectors.length
      · rw [List.getElem?_eq_getElem positionInside]
        have different :
            header.sectors[position] ≠ header.sectors.get ⟨index, inside⟩ := by
          intro equal
          exact same ((List.Nodup.getElem_inj_iff nodup).mp equal).symm
        simp only [Option.map_some, Function.update_of_ne different]
      · rw [List.getElem?_eq_none (by omega)]
        rfl
  unfold contents
  rw [blocks, flatten_set_of_uniform (by decide)
    (uniform_blocks disk header.sectors) data.length_eq
    (by rw [List.length_map]; exact inside)]

/-! ## Index arithmetic of a request -/

section Request

variable {file : OpenFile}

theorem firstSector_natCast (position : Nat) :
    firstSector position = ((position / sectorSize : Nat) : Int) :=
  divRoundDown_natCast position sectorSize

theorem lastSector_natCast
    {count position : Nat} (positive : 0 < count)
    (small : position + count < 2 ^ 31) :
    lastSector count position =
      (((position + count - 1) / sectorSize : Nat) : Int) := by
  have total : (position : Int) + (count : Int) = ((position + count : Nat) : Int) := by
    omega
  have previous :
      ((position + count : Nat) : Int) - 1 = ((position + count - 1 : Nat) : Int) := by
    omega
  unfold lastSector
  rw [total, wrap_natCast small, previous, wrap_natCast (by omega)]
  exact divRoundDown_natCast (position + count - 1) sectorSize

theorem bufferSize_natCast
    {first last : Nat} (ordered : first ≤ last) (few : last < numDirect) :
    bufferSize first last = ((sectorSize * (last + 1 - first) : Nat) : Int) := by
  simp only [numDirect, sectorSize] at few
  have next : 1 + (last : Int) = ((last + 1 : Nat) : Int) := by omega
  have difference :
      ((last + 1 : Nat) : Int) - (first : Int) = ((last + 1 - first : Nat) : Int) := by
    omega
  have product :
      ((last + 1 - first : Nat) : Int) * ((sectorSize : Nat) : Int) =
        ((sectorSize * (last + 1 - first) : Nat) : Int) := by
    rw [Nat.mul_comm]
    exact (Int.natCast_mul _ _).symm
  unfold bufferSize
  rw [next, wrap_natCast (by omega), difference, wrap_natCast (by omega),
    product, wrap_natCast (by simp only [sectorSize]; omega)]

theorem wrap_mul_sectorSize {index : Nat} (few : index ≤ numDirect) :
    wrap ((index : Int) * (sectorSize : Nat)) =
      ((sectorSize * index : Nat) : Int) := by
  simp only [numDirect, sectorSize] at few
  have product :
      (index : Int) * ((sectorSize : Nat) : Int) =
        ((sectorSize * index : Nat) : Int) := by
    rw [Nat.mul_comm]
    exact (Int.natCast_mul _ _).symm
  rw [product, wrap_natCast (by simp only [sectorSize]; omega)]

theorem wrap_sub_natCast
    {larger smaller : Nat} (ordered : smaller ≤ larger)
    (small : larger < 2 ^ 31) :
    wrap ((larger : Int) - (smaller : Int)) = ((larger - smaller : Nat) : Int) := by
  have difference :
      (larger : Int) - (smaller : Int) = ((larger - smaller : Nat) : Int) := by
    omega
  rw [difference, wrap_natCast (by omega)]

theorem fileLength_eq (wellFormed : file.hdr.WellFormed) :
    file.hdr.fileLength = (file.hdr.length : Int) := by
  have nonnegative := wellFormed.numBytes_nonneg
  unfold FileHeader.fileLength FileHeader.length
  omega

theorem refused_iff
    (wellFormed : file.hdr.WellFormed) {numBytes position : Int} :
    file.refused numBytes position = true ↔
      numBytes ≤ 0 ∨ (file.hdr.length : Int) ≤ position := by
  unfold refused
  rw [fileLength_eq wellFormed, decide_eq_true_iff]

theorem refused_eq_false_iff
    (wellFormed : file.hdr.WellFormed) {numBytes position : Int} :
    file.refused numBytes position = false ↔
      0 < numBytes ∧ position < file.hdr.length := by
  rw [Bool.eq_false_iff, ne_eq, refused_iff wellFormed]
  omega

theorem clipped_natCast
    (wellFormed : file.hdr.WellFormed) {count position : Nat}
    (inside : position < file.hdr.length)
    (small : position + count < 2 ^ 31)
    (short : file.hdr.length < 2 ^ 31) :
    file.clipped count position =
      ((min count (file.hdr.length - position) : Nat) : Int) := by
  have total : (position : Int) + (count : Int) = ((position + count : Nat) : Int) := by
    omega
  unfold clipped
  rw [fileLength_eq wellFormed, total, wrap_natCast small,
    wrap_sub_natCast (by omega) short]
  split_ifs <;> omega

/-- The sectors that `amount` bytes of a file from `position` on lie in. -/
structure Touches (header : FileHeader) (position amount first last : Nat) :
    Prop where
  positive : 0 < amount
  inside : position + amount ≤ header.length
  isFirst : first = position / sectorSize
  isLast : last = (position + amount - 1) / sectorSize

namespace Touches

variable {header : FileHeader} {position amount first last : Nat}

theorem firstSector_bounds (touches : Touches header position amount first last) :
    sectorSize * first ≤ position ∧ position < sectorSize * (first + 1) := by
  have isFirst := touches.isFirst
  simp only [sectorSize] at isFirst ⊢
  omega

theorem lastSector_bounds (touches : Touches header position amount first last) :
    sectorSize * last < position + amount ∧
      position + amount ≤ sectorSize * (last + 1) := by
  have positive := touches.positive
  have isLast := touches.isLast
  simp only [sectorSize] at isLast ⊢
  omega

theorem ordered (touches : Touches header position amount first last) :
    first ≤ last := by
  have positive := touches.positive
  have firstBounds := touches.firstSector_bounds
  have lastBounds := touches.lastSector_bounds
  simp only [sectorSize] at firstBounds lastBounds
  omega

theorem lastInside
    (touches : Touches header position amount first last)
    (wellFormed : header.WellFormed) :
    last < header.sectors.length := by
  have inside := touches.inside
  have lastBounds := touches.lastSector_bounds
  rw [wellFormed.length_sectors]
  simp only [sectorSize] at lastBounds ⊢
  omega

theorem window (touches : Touches header position amount first last) :
    position - sectorSize * first + amount ≤ sectorSize * (last + 1 - first) := by
  have firstBounds := touches.firstSector_bounds
  have lastBounds := touches.lastSector_bounds
  simp only [sectorSize] at firstBounds lastBounds ⊢
  omega

theorem contents_fit
    (touches : Touches header position amount first last)
    (wellFormed : header.WellFormed) (disk : DiskImage) :
    sectorSize * first + sectorSize * (last + 1 - first) ≤
      (contents disk header).length := by
  have ordered := touches.ordered
  have lastInside := touches.lastInside wellFormed
  rw [length_contents]
  simp only [sectorSize]
  omega

end Touches

/-- A request that is not refused: how many bytes it is cut off to, and the
sectors that `ReadAt` and `WriteAt` find for them. -/
structure Serves (file : OpenFile) (count position amount first last : Nat) :
    Prop where
  notRefused : file.refused count position = false
  clipped : file.clipped count position = (amount : Int)
  isFirst : firstSector position = (first : Int)
  isLast : lastSector amount position = (last : Int)
  touches : Touches file.hdr position amount first last

theorem exists_serves
    (wellFormed : file.hdr.WellFormed) {count position : Nat}
    (positive : 0 < count) (inside : position < file.hdr.length)
    (small : position + count < 2 ^ 31) :
    ∃ amount first last, amount = min count (file.hdr.length - position) ∧
      file.Serves count position amount first last := by
  have lengthBound := wellFormed.length_le
  simp only [maxFileSize, numDirect, sectorSize] at lengthBound
  refine ⟨_, _, _, rfl, ?_, ?_, ?_, ?_, by omega, by omega, rfl, rfl⟩
  · exact (refused_eq_false_iff wellFormed).mpr (by omega)
  · exact clipped_natCast wellFormed inside small (by omega)
  · exact firstSector_natCast position
  · exact lastSector_natCast (by omega) (by omega)

end Request

/-! ## Reading -/

section Reading

variable {file : OpenFile} {disk : DiskImage}

private theorem readSectors_spec
    (wellFormed : file.hdr.WellFormed) (first : Nat) :
    ∀ (remaining i : Nat) (buf : List Byte),
      first ≤ i →
      i + remaining ≤ file.hdr.sectors.length →
      sectorSize * (i - first + remaining) ≤ buf.length →
      file.readSectors disk first remaining i buf =
        .ok (overlay buf
          (slice (contents disk file.hdr) (sectorSize * i)
            (sectorSize * remaining))
          (sectorSize * (i - first)))
  | 0, i, buf, _, _, _ => by
    simp [readSectors, slice]
  | remaining + 1, i, buf, ordered, inside, fits => by
    have few := file.hdr.length_sectors_le
    have here : i < file.hdr.sectors.length := by omega
    have window : sectorSize * (i - first) + sectorSize ≤ buf.length := by
      simp only [sectorSize] at fits ⊢
      omega
    have contentsLength := length_contents disk file.hdr
    have block := slice_contents disk file.hdr here
    have sectorLength := (disk (file.hdr.sectors.get ⟨i, here⟩)).length_eq
    have copied :
        bcopy (disk (file.hdr.sectors.get ⟨i, here⟩)).bytes 0 buf
            ((sectorSize * (i - first) : Nat) : Int) (sectorSize : Nat) =
          .ok (overlay buf
            (disk (file.hdr.sectors.get ⟨i, here⟩)).bytes
            (sectorSize * (i - first))) := by
      have copy :=
        @bcopy_natCast (disk (file.hdr.sectors.get ⟨i, here⟩)).bytes buf 0 _
          sectorSize (by omega) window
      rw [← sectorLength, slice_full, sectorLength] at copy
      exact copy
    have nextIndex : (i : Int) + 1 = ((i + 1 : Nat) : Int) := by omega
    have rest :=
      readSectors_spec wellFormed first remaining (i + 1)
        (overlay buf (disk (file.hdr.sectors.get ⟨i, here⟩)).bytes
          (sectorSize * (i - first)))
        (by omega) (by omega)
        (by
          rw [length_overlay (by rw [sectorLength]; exact window)]
          simp only [sectorSize] at fits ⊢
          omega)
    unfold readSectors
    rw [wrap_mul_sectorSize (by omega),
      FileHeader.byteToSector_natCast wellFormed here, ok_bind,
      SynchDisk.readSector_natCast disk
        (wellFormed.inRange _ (List.get_mem _ _)),
      ok_bind,
      wrap_sub_natCast ordered
        (by simp only [numDirect, sectorSize] at few; omega),
      wrap_mul_sectorSize (by omega), copied, ok_bind, nextIndex]
    refine rest.trans ?_
    rw [show sectorSize * (i + 1 - first) =
        sectorSize * (i - first) +
          (disk (file.hdr.sectors.get ⟨i, here⟩)).bytes.length by
      rw [sectorLength]
      simp only [sectorSize]
      omega]
    rw [overlay_overlay_adjacent (by
      rw [sectorLength, length_slice (by
        rw [contentsLength]
        simp only [sectorSize]
        omega)]
      simp only [sectorSize] at fits ⊢
      omega)]
    rw [← block,
      show sectorSize * (i + 1) = sectorSize * i + sectorSize from rfl,
      slice_append_slice _ _ _ _ (by
        rw [contentsLength]
        simp only [sectorSize]
        omega)]
    congr 3
    simp only [sectorSize]
    omega

/-- `ReadAt` copies the requested part of the contents, cut off at the end of
the file, and reports how much that was. -/
theorem readAt_spec
    (wellFormed : file.hdr.WellFormed) (junk : Junk)
    {into : List Byte} {start count position : Nat}
    (small : position + count < 2 ^ 31)
    (fits : start + min count (file.hdr.length - position) ≤ into.length) :
    file.readAt disk junk into start count position =
      .ok (((min count (file.hdr.length - position) : Nat) : Int),
        overlay into
          (slice (contents disk file.hdr) position
            (min count (file.hdr.length - position)))
          start) := by
  have few := file.hdr.length_sectors_le
  unfold readAt
  by_cases served : 0 < count ∧ position < file.hdr.length
  · obtain ⟨positive, inside⟩ := served
    obtain ⟨amount, first, last, amountEq, serves⟩ :=
      exists_serves wellFormed positive inside small
    have touches := serves.touches
    have firstLower := touches.firstSector_bounds.1
    have ordered := touches.ordered
    have lastInside := touches.lastInside wellFormed
    have bufferLength :
        sectorSize * (last + 1 - first) =
          ((List.range (sectorSize * (last + 1 - first))).map junk).length := by
      simp
    have blockLength :
        (slice (contents disk file.hdr) (sectorSize * first)
          (sectorSize * (last + 1 - first))).length =
            sectorSize * (last + 1 - first) :=
      length_slice (touches.contents_fit wellFormed disk)
    have loop :=
      @readSectors_spec file disk wellFormed first (last + 1 - first) first
        ((List.range (sectorSize * (last + 1 - first))).map junk)
        (le_refl _) (by omega) (by rw [← bufferLength]; simp)
    rw [Nat.sub_self, Nat.mul_zero,
      overlay_full (blockLength.trans bufferLength)] at loop
    have offset :
        wrap ((position : Int) - ((sectorSize * first : Nat) : Int)) =
          ((position - sectorSize * first : Nat) : Int) :=
      wrap_sub_natCast firstLower (by omega)
    have loopCount : ((last : Int) - (first : Int) + 1).toNat = last + 1 - first := by
      omega
    rw [← amountEq] at fits ⊢
    rw [serves.notRefused]
    simp only [Bool.false_eq_true, if_false]
    rw [serves.clipped, serves.isFirst, serves.isLast,
      bufferSize_natCast ordered (by omega), loopCount,
      wrap_mul_sectorSize (by omega), offset]
    unfold newChars
    rw [if_pos (Int.natCast_nonneg _), Int.toNat_natCast, ok_bind, loop, ok_bind,
      bcopy_natCast (by rw [blockLength]; exact touches.window) fits,
      slice_slice _ touches.window, Nat.add_sub_cancel' firstLower]
    rfl
  · have isRefused : file.refused count position = true :=
      (refused_iff wellFormed).mpr (by omega)
    have nothing : min count (file.hdr.length - position) = 0 := by omega
    rw [isRefused, nothing]
    simp [slice]

end Reading

/-! ## Writing -/

section Writing

variable {file : OpenFile}

/-- The write-back loop overlays its part of the buffer on the contents and
leaves every sector outside the file alone. -/
private theorem writeSectors_spec
    (wellFormed : file.hdr.WellFormed) (first : Nat) (buf : List Byte) :
    ∀ (remaining i : Nat) (disk : DiskImage),
      first ≤ i →
      i + remaining ≤ file.hdr.sectors.length →
      sectorSize * (i - first + remaining) ≤ buf.length →
      ∃ disk',
        file.writeSectors first buf remaining i disk = .ok disk' ∧
          (file.hdr.sectors.Nodup → contents disk' file.hdr =
            overlay (contents disk file.hdr)
              (slice buf (sectorSize * (i - first)) (sectorSize * remaining))
              (sectorSize * i)) ∧
          ∀ sector, sector ∉ file.hdr.sectors → disk' sector = disk sector
  | 0, i, disk, _, _, _ => by
    refine ⟨disk, rfl, fun _ => ?_, fun _ _ => rfl⟩
    simp [slice]
  | remaining + 1, i, disk, ordered, inside, fits => by
    have few := file.hdr.length_sectors_le
    have here : i < file.hdr.sectors.length := by omega
    have window : sectorSize * (i - first) + sectorSize ≤ buf.length := by
      simp only [sectorSize] at fits ⊢
      omega
    have dataLength :
        (slice buf (sectorSize * (i - first)) sectorSize).length =
          sectorSize :=
      length_slice window
    let written : DiskImage :=
      Function.update disk (file.hdr.sectors.get ⟨i, here⟩)
        ⟨slice buf (sectorSize * (i - first)) sectorSize, dataLength⟩
    obtain ⟨disk', result, finalContents, frame⟩ :=
      writeSectors_spec wellFormed first buf remaining (i + 1) written
        (by omega) (by omega)
        (by simp only [sectorSize] at fits ⊢; omega)
    have contentsLength := length_contents disk file.hdr
    refine ⟨disk', ?_, ?_, ?_⟩
    · have nextIndex : (i : Int) + 1 = ((i + 1 : Nat) : Int) := by omega
      unfold writeSectors
      rw [wrap_mul_sectorSize (by omega),
        FileHeader.byteToSector_natCast wellFormed here, ok_bind,
        wrap_sub_natCast ordered
          (by simp only [numDirect, sectorSize] at few; omega),
        wrap_mul_sectorSize (by omega), bytesAt_natCast window, ok_bind,
        SynchDisk.writeSector_natCast disk
          (wellFormed.inRange _ (List.get_mem _ _)) dataLength,
        ok_bind, nextIndex]
      exact result
    · intro nodup
      have writtenContents :
          contents written file.hdr =
            overlay (contents disk file.hdr)
              (slice buf (sectorSize * (i - first)) sectorSize)
              (sectorSize * i) :=
        contents_update disk nodup here _
      rw [finalContents nodup, writtenContents,
        show sectorSize * (i + 1) =
            sectorSize * i +
              (slice buf (sectorSize * (i - first)) sectorSize).length by
          rw [dataLength]
          rfl,
        overlay_overlay_adjacent (by
          rw [dataLength, contentsLength, length_slice (by
            simp only [sectorSize] at fits ⊢
            omega)]
          simp only [sectorSize]
          omega)]
      have startNext :
          sectorSize * (i + 1 - first) =
            sectorSize * (i - first) + sectorSize := by
        simp only [sectorSize]
        omega
      rw [startNext, slice_append_slice _ _ _ _ window]
      congr 2
      simp only [sectorSize]
      omega
    · intro sector outside
      rw [frame sector outside]
      apply Function.update_of_ne
      intro equal
      exact outside (equal ▸ List.get_mem _ _)

/-- One sector of the file is read to its place in a buffer that begins with
the sector `first`. -/
private theorem readEdge_spec
    (wellFormed : file.hdr.WellFormed) (disk : DiskImage) (junk : Junk)
    {target : List Byte} {first sector : Nat} (ordered : first ≤ sector)
    (inside : sector < file.hdr.sectors.length)
    (fits : sectorSize * (sector + 1 - first) ≤ target.length) :
    ∃ count filled,
      file.readAt disk junk target ((sectorSize * (sector - first) : Nat) : Int)
          sectorSize ((sectorSize * sector : Nat) : Int) = .ok (count, filled) ∧
        filled.length = target.length ∧
        (∀ index, sectorSize * sector ≤ index →
          index < sectorSize * (sector + 1) → index < file.hdr.length →
          filled[index - sectorSize * first]? =
            (contents disk file.hdr)[index]?) ∧
        ∀ index, sectorSize * first ≤ index → index < sectorSize * sector →
          filled[index - sectorSize * first]? =
            target[index - sectorSize * first]? := by
  have few := file.hdr.length_sectors_le
  have lengthBound := wellFormed.length_le
  have contentsLength := length_contents disk file.hdr
  have sectorCount := wellFormed.length_sectors
  simp only [maxFileSize, numDirect, sectorSize] at few lengthBound
  simp only [sectorSize] at fits contentsLength sectorCount
  obtain ⟨count, isCount⟩ :
      ∃ count, min sectorSize (file.hdr.length - sectorSize * sector) = count :=
    ⟨_, rfl⟩
  simp only [sectorSize] at isCount
  have blockLength :
      (slice (contents disk file.hdr) (sectorSize * sector) count).length =
        count :=
    length_slice (by simp only [sectorSize]; omega)
  have read :=
    @readAt_spec file disk wellFormed junk target (sectorSize * (sector - first))
      sectorSize (sectorSize * sector) (by simp only [sectorSize]; omega)
      (by simp only [sectorSize]; omega)
  have blockFits :
      sectorSize * (sector - first) +
        (slice (contents disk file.hdr) (sectorSize * sector) count).length ≤
          target.length := by
    rw [blockLength]
    simp only [sectorSize]
    omega
  simp only [sectorSize, isCount] at read blockFits blockLength
  refine ⟨_, _, read, length_overlay blockFits, ?_, ?_⟩
  · intro index lower upper short
    simp only [sectorSize] at lower upper ⊢
    rw [getElem?_overlay blockFits, blockLength, if_pos (by omega),
      getElem?_slice, if_pos (by omega)]
    congr 1
    omega
  · intro index lower upper
    simp only [sectorSize] at lower upper ⊢
    rw [getElem?_overlay blockFits, if_neg (by omega)]

/-- After the edge sectors are read in, the buffer holds the old contents at
every byte of the file that the request does not overwrite. -/
private theorem readEdges_spec
    (wellFormed : file.hdr.WellFormed) (disk : DiskImage) (junk : Nat → Junk)
    {position amount first last : Nat}
    (touches : Touches file.hdr position amount first last) {buf : List Byte}
    (bufLength : buf.length = sectorSize * (last + 1 - first)) :
    ∃ filled,
      file.readEdges disk junk first last
          (decide (position = sectorSize * first))
          (decide (position + amount = sectorSize * (last + 1))) buf =
        .ok filled ∧
        filled.length = buf.length ∧
        ∀ index,
          sectorSize * first ≤ index →
          index < sectorSize * (last + 1) →
          index < file.hdr.length →
          index < position ∨ position + amount ≤ index →
          filled[index - sectorSize * first]? =
            (contents disk file.hdr)[index]? := by
  have few := file.hdr.length_sectors_le
  have ordered := touches.ordered
  have lastInside := touches.lastInside wellFormed
  have firstBounds := touches.firstSector_bounds
  have lastBounds := touches.lastSector_bounds
  have firstPosition :
      wrap ((first : Int) * (sectorSize : Nat)) =
        ((sectorSize * first : Nat) : Int) :=
    wrap_mul_sectorSize (by omega)
  have lastPosition :
      wrap ((last : Int) * (sectorSize : Nat)) =
        ((sectorSize * last : Nat) : Int) :=
    wrap_mul_sectorSize (by omega)
  have lastStart :
      wrap (wrap ((last : Int) - first) * (sectorSize : Nat)) =
        ((sectorSize * (last - first) : Nat) : Int) := by
    rw [wrap_sub_natCast ordered (by simp only [numDirect, sectorSize] at few; omega),
      wrap_mul_sectorSize (by omega)]
  obtain ⟨_, withFirst, firstRead, firstLength, atFirst, _⟩ :=
    readEdge_spec wellFormed disk (junk 1) (le_refl first) (by omega)
      (show sectorSize * (first + 1 - first) ≤ buf.length by
        rw [bufLength]
        exact Nat.mul_le_mul_left _ (by omega))
  rw [Nat.sub_self, Nat.mul_zero] at firstRead
  have lastRead := fun (target : List Byte) (sameLength : target.length = buf.length) =>
    readEdge_spec wellFormed disk (junk 2) ordered lastInside
      (show sectorSize * (last + 1 - first) ≤ target.length by
        rw [sameLength, bufLength])
  unfold readEdges
  rw [firstPosition, lastPosition, lastStart]
  simp only [sectorSize] at firstBounds lastBounds
  by_cases firstAligned : position = sectorSize * first
  · rw [decide_eq_true firstAligned]
    simp only [Bool.not_true, Bool.false_eq_true, if_false, Bool.or_true,
      Bool.and_true, ok_bind]
    by_cases lastAligned : position + amount = sectorSize * (last + 1)
    · rw [decide_eq_true lastAligned]
      refine ⟨buf, rfl, rfl, ?_⟩
      intro index lower upper short outside
      omega
    · obtain ⟨_, filled, isRead, length, atLast, _⟩ := lastRead buf rfl
      rw [decide_eq_false lastAligned, isRead]
      refine ⟨filled, rfl, length, ?_⟩
      intro index lower upper short outside
      exact atLast index (by simp only [sectorSize] at *; omega) upper short
  · obtain ⟨_, filled, isRead, length, atLast, beforeLast⟩ :=
      lastRead withFirst firstLength
    rw [decide_eq_false firstAligned]
    simp only [Bool.not_false, if_true, Bool.or_false]
    rw [show file.readAt disk (junk 1) buf 0 sectorSize _ = _ from firstRead]
    change ∃ result, (do
      if (!decide (position + amount = sectorSize * (last + 1)) &&
          ((first : Int) != last)) then
        Prod.snd <$>
          file.readAt disk (junk 2) withFirst
            ((sectorSize * (last - first) : Nat) : Int) sectorSize
            ((sectorSize * last : Nat) : Int)
      else
        Except.ok withFirst) = Except.ok result ∧ _
    rw [isRead]
    split_ifs with partialLast
    · refine ⟨filled, rfl, length.trans firstLength, ?_⟩
      intro index lower upper short outside
      rcases Nat.lt_or_ge index (sectorSize * last) with before | after
      · rw [beforeLast index lower before]
        exact atFirst index lower (by simp only [sectorSize] at *; omega) short
      · exact atLast index after upper short
    · refine ⟨withFirst, rfl, firstLength, ?_⟩
      intro index lower upper short outside
      have single :
          position + amount = sectorSize * (last + 1) ∨ first = last := by
        simpa [imp_iff_not_or] using partialLast
      exact atFirst index lower (by simp only [sectorSize] at *; omega) short

/-- What the contents are after the buffer, with the bytes of the request put in
it, is written back. -/
private theorem Touches.getElem?_written
    {position amount first last : Nat}
    (touches : Touches file.hdr position amount first last)
    (wellFormed : file.hdr.WellFormed) {disk : DiskImage}
    {source filled : List Byte}
    (sourceLength : (slice source 0 amount).length = amount)
    (filledLength : filled.length = sectorSize * (last + 1 - first))
    (filledBytes : ∀ index, sectorSize * first ≤ index →
      index < sectorSize * (last + 1) → index < file.hdr.length →
      index < position ∨ position + amount ≤ index →
      filled[index - sectorSize * first]? = (contents disk file.hdr)[index]?)
    {index : Nat} (indexInside : index < file.hdr.length) :
    (overlay (contents disk file.hdr)
        (overlay filled (slice source 0 amount) (position - sectorSize * first))
        (sectorSize * first))[index]? =
      if position ≤ index ∧ index < position + amount then
        source[index - position]?
      else
        (contents disk file.hdr)[index]? := by
  have ordered := touches.ordered
  have firstBounds := touches.firstSector_bounds
  have lastBounds := touches.lastSector_bounds
  have patchFits :
      position - sectorSize * first + (slice source 0 amount).length ≤
        filled.length := by
    rw [sourceLength, filledLength]
    exact touches.window
  have patchedLength := length_overlay patchFits
  rw [filledLength] at patchedLength
  rw [getElem?_overlay (by
    rw [patchedLength]
    exact touches.contents_fit wellFormed disk), patchedLength]
  by_cases touched :
      sectorSize * first ≤ index ∧
        index < sectorSize * first + sectorSize * (last + 1 - first)
  · rw [if_pos touched, getElem?_overlay patchFits, sourceLength]
    by_cases overwritten : position ≤ index ∧ index < position + amount
    · rw [if_pos (by omega), if_pos overwritten, getElem?_slice,
        if_pos (by omega)]
      congr 1
      omega
    · rw [if_neg (by omega), if_neg overwritten]
      apply filledBytes index touched.1 _ indexInside (by omega)
      simp only [sectorSize] at touched ⊢
      omega
  · have untouched : ¬ (position ≤ index ∧ index < position + amount) := by
      simp only [sectorSize] at touched firstBounds lastBounds
      omega
    rw [if_neg touched, if_neg untouched]

/-- `WriteAt` without the machine arithmetic: fill the edges, copy the bytes of
the request over them and write the sectors back. -/
private theorem Serves.writeAt_eq
    {count position amount first last : Nat}
    (serves : file.Serves count position amount first last)
    (wellFormed : file.hdr.WellFormed) (small : position + amount < 2 ^ 31)
    (disk : DiskImage) (junk : Nat → Junk) (source : List Byte) :
    file.writeAt disk junk source count position = do
      let buf ←
        file.readEdges disk junk first last
          (decide (position = sectorSize * first))
          (decide (position + amount = sectorSize * (last + 1)))
          ((List.range (sectorSize * (last + 1 - first))).map (junk 0))
      let buf ←
        bcopy source 0 buf ((position - sectorSize * first : Nat) : Int) amount
      let disk ← file.writeSectors first buf (last + 1 - first) first disk
      return (amount, disk) := by
  have few := file.hdr.length_sectors_le
  have touches := serves.touches
  have ordered := touches.ordered
  have lastInside := touches.lastInside wellFormed
  have lastFew : last < numDirect := by omega
  have firstFew : first ≤ numDirect := by omega
  have loopCount :
      ((last : Int) - (first : Int) + 1).toNat = last + 1 - first := by
    omega
  have total :
      wrap ((position : Int) + (amount : Int)) =
        ((position + amount : Nat) : Int) := by
    rw [← Int.natCast_add, wrap_natCast small]
  have lastNext : wrap ((last : Int) + 1) = ((last + 1 : Nat) : Int) := by
    have sum : (last : Int) + 1 = ((last + 1 : Nat) : Int) := by omega
    rw [sum, wrap_natCast (by
      simp only [numDirect, sectorSize] at few
      omega)]
  have offset :
      wrap ((position : Int) - ((sectorSize * first : Nat) : Int)) =
        ((position - sectorSize * first : Nat) : Int) :=
    wrap_sub_natCast touches.firstSector_bounds.1 (by omega)
  unfold writeAt
  rw [serves.notRefused]
  simp only [Bool.false_eq_true, if_false]
  rw [serves.clipped, serves.isFirst, serves.isLast,
    bufferSize_natCast ordered lastFew, loopCount,
    wrap_mul_sectorSize firstFew, offset, total, lastNext,
    wrap_mul_sectorSize lastFew]
  simp only [Nat.cast_inj]
  unfold newChars
  rw [if_pos (Int.natCast_nonneg _), Int.toNat_natCast, ok_bind]

/-- `WriteAt` returns and leaves every sector of other owners unchanged.  If no
sector occurs twice in the file, it stores the given bytes, cut off at the end
of the file, and leaves the other bytes of the file unchanged. -/
theorem writeAt_returns
    (wellFormed : file.hdr.WellFormed) (disk : DiskImage) (junk : Nat → Junk)
    {source : List Byte} {count position : Nat}
    (small : position + count < 2 ^ 31)
    (enough : min count (file.hdr.length - position) ≤ source.length) :
    ∃ disk',
      file.writeAt disk junk source count position =
          .ok (((min count (file.hdr.length - position) : Nat) : Int), disk') ∧
        (∀ sector, sector ∉ file.hdr.sectors → disk' sector = disk sector) ∧
        (file.hdr.sectors.Nodup → ∀ index, index < file.hdr.length →
          (contents disk' file.hdr)[index]? =
            if position ≤ index ∧
                index < position + min count (file.hdr.length - position) then
              source[index - position]?
            else
              (contents disk file.hdr)[index]?) := by
  by_cases served : 0 < count ∧ position < file.hdr.length
  · obtain ⟨positive, inside⟩ := served
    obtain ⟨amount, first, last, amountEq, serves⟩ :=
      exists_serves wellFormed positive inside small
    have touches := serves.touches
    have ordered := touches.ordered
    have lastInside := touches.lastInside wellFormed
    have bufferLength :
        ((List.range (sectorSize * (last + 1 - first))).map (junk 0)).length =
          sectorSize * (last + 1 - first) := by
      simp
    obtain ⟨filled, filledResult, filledLength, filledBytes⟩ :=
      readEdges_spec wellFormed disk junk touches bufferLength
    rw [bufferLength] at filledLength
    have sourceLength : (slice source 0 amount).length = amount :=
      length_slice (by omega)
    have patchFits :
        position - sectorSize * first + amount ≤ filled.length := by
      rw [filledLength]
      exact touches.window
    have copied :=
      @bcopy_natCast source filled 0 (position - sectorSize * first) amount
        (by omega) patchFits
    have patchedLength :
        (overlay filled (slice source 0 amount)
          (position - sectorSize * first)).length =
            sectorSize * (last + 1 - first) := by
      rw [length_overlay (by rw [sourceLength]; exact patchFits), filledLength]
    obtain ⟨disk', result, finalContents, frame⟩ :=
      writeSectors_spec wellFormed first _ (last + 1 - first) first disk
        (le_refl _) (by omega) (by rw [patchedLength]; simp)
    rw [Nat.sub_self, Nat.mul_zero, ← patchedLength, slice_full]
      at finalContents
    rw [← amountEq]
    refine ⟨disk', ?_, frame, ?_⟩
    · rw [serves.writeAt_eq wellFormed (by omega), filledResult, ok_bind,
        show bcopy source 0 filled _ amount = _ from copied, ok_bind, result]
      rfl
    · intro nodup index indexInside
      rw [finalContents nodup]
      exact touches.getElem?_written wellFormed sourceLength filledLength
        filledBytes indexInside
  · have isRefused : file.refused count position = true :=
      (refused_iff wellFormed).mpr (by omega)
    have nothing : min count (file.hdr.length - position) = 0 := by omega
    refine ⟨disk, ?_, fun _ _ => rfl, ?_⟩
    · unfold writeAt
      rw [isRefused, nothing]
      rfl
    · intro _ index _
      rw [nothing, if_neg (by omega)]

theorem writeAt_spec
    (wellFormed : file.hdr.WellFormed) (nodup : file.hdr.sectors.Nodup)
    (disk : DiskImage) (junk : Nat → Junk)
    {source : List Byte} {count position : Nat}
    (small : position + count < 2 ^ 31)
    (enough : min count (file.hdr.length - position) ≤ source.length) :
    ∃ disk',
      file.writeAt disk junk source count position =
          .ok (((min count (file.hdr.length - position) : Nat) : Int), disk') ∧
        (∀ sector, sector ∉ file.hdr.sectors → disk' sector = disk sector) ∧
        ∀ index, index < file.hdr.length →
          (contents disk' file.hdr)[index]? =
            if position ≤ index ∧
                index < position + min count (file.hdr.length - position) then
              source[index - position]?
            else
              (contents disk file.hdr)[index]? := by
  obtain ⟨disk', written, frame, bytes⟩ :=
    writeAt_returns wellFormed disk junk small enough
  exact ⟨disk', written, frame, bytes nodup⟩

end Writing

/-! ## Whole files -/

theorem length_fileBytes
    (disk : DiskImage) {header : FileHeader}
    (wellFormed : header.WellFormed) :
    (fileBytes disk header).length = header.length := by
  have sectorCount := wellFormed.length_sectors
  unfold fileBytes
  rw [List.length_take, length_contents]
  simp only [sectorSize] at sectorCount ⊢
  omega

theorem contents_congr
    {disk disk' : DiskImage} {header : FileHeader}
    (same : ∀ sector ∈ header.sectors, disk' sector = disk sector) :
    contents disk' header = contents disk header := by
  unfold contents
  rw [List.map_congr_left (fun sector member => by rw [same sector member])]

theorem fileBytes_congr
    {disk disk' : DiskImage} {header : FileHeader}
    (same : ∀ sector ∈ header.sectors, disk' sector = disk sector) :
    fileBytes disk' header = fileBytes disk header := by
  unfold fileBytes
  rw [contents_congr same]

/-- Every data sector begins inside the file, and holds the bytes from there
on. -/
theorem fileBytes_sector
    {header : FileHeader} (wellFormed : header.WellFormed) (disk : DiskImage)
    {index : Nat} (inside : index < header.sectors.length) :
    sectorSize * index < header.length ∧
      (fileBytes disk header)[sectorSize * index]? =
        (disk (header.sectors.get ⟨index, inside⟩)).bytes[0]? := by
  have sectorCount := wellFormed.length_sectors
  have begins : sectorSize * index < header.length := by
    simp only [sectorSize] at sectorCount ⊢
    omega
  refine ⟨begins, ?_⟩
  have block := congrArg (fun bytes => bytes[0]?)
    (slice_contents disk header inside)
  simp only [getElem?_slice, Nat.add_zero] at block
  rw [if_pos (by decide)] at block
  unfold fileBytes
  rw [List.getElem?_take_of_lt begins, block]

theorem readAt_whole
    {file : OpenFile} (wellFormed : file.hdr.WellFormed)
    (disk : DiskImage) (junk : Junk) {into : List Byte} {count : Nat}
    (whole : count = file.hdr.length) (fits : into.length = count) :
    file.readAt disk junk into 0 count 0 =
      .ok ((count : Int), fileBytes disk file.hdr) := by
  subst whole
  have lengthBound := wellFormed.length_le
  have bytesLength := length_fileBytes disk wellFormed
  have small : 0 + file.hdr.length < 2 ^ 31 := by
    simp only [maxFileSize, numDirect, sectorSize] at lengthBound
    omega
  have read := @readAt_spec file disk wellFormed junk into 0 _ 0 small (by omega)
  rw [Nat.sub_zero, Nat.min_self] at read
  have sameBytes :
      slice (contents disk file.hdr) 0 file.hdr.length =
        fileBytes disk file.hdr := by
    simp [slice, fileBytes]
  rw [sameBytes, overlay_full (by rw [bytesLength, fits])] at read
  exact read

theorem writeAt_whole
    {file : OpenFile} (wellFormed : file.hdr.WellFormed)
    (nodup : file.hdr.sectors.Nodup) (disk : DiskImage) (junk : Nat → Junk)
    {source : List Byte} {count : Nat}
    (whole : count = file.hdr.length) (supplied : source.length = count) :
    ∃ disk',
      file.writeAt disk junk source count 0 = .ok ((count : Int), disk') ∧
        (∀ sector, sector ∉ file.hdr.sectors → disk' sector = disk sector) ∧
        fileBytes disk' file.hdr = source := by
  subst whole
  have lengthBound := wellFormed.length_le
  have small : 0 + file.hdr.length < 2 ^ 31 := by
    simp only [maxFileSize, numDirect, sectorSize] at lengthBound
    omega
  obtain ⟨disk', written, frame, bytes⟩ :=
    @writeAt_spec file wellFormed nodup disk junk source _ 0 small (by omega)
  rw [Nat.sub_zero, Nat.min_self] at written bytes
  refine ⟨disk', written, frame, ?_⟩
  apply List.ext_getElem?
  intro index
  unfold fileBytes
  rw [List.getElem?_take]
  split_ifs with inside
  · rw [bytes index inside, if_pos (by omega), Nat.sub_zero]
  · rw [List.getElem?_eq_none (by omega)]

end OpenFile

end Nachos
