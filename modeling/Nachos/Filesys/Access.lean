import Nachos.Filesys.OpenFile

/-!
# Requests to open files

`ReadAt` and `WriteAt` for all pairs of `int` arguments.
-/

namespace Nachos

open Foundation
open Disk (sectorSize)

namespace OpenFile

variable {file : OpenFile} {numBytes position : Int}

def transferred (file : OpenFile) (numBytes position : Int) : Int :=
  max 0 (min numBytes (file.hdr.length - position))

/-- The requests that are refused, or whose start and end are offsets. -/
def Safe (file : OpenFile) (numBytes position : Int) : Prop :=
  numBytes ≤ 0 ∨ (file.hdr.length : Int) ≤ position ∨
    0 ≤ position ∧ position + numBytes < 2 ^ 31

theorem readAt_refused
    (isRefused : file.refused numBytes position = true) (disk : DiskImage)
    (junk : Junk) (into : List Byte) (start : Int) :
    file.readAt disk junk into start numBytes position = .ok (0, into) := by
  unfold readAt
  rw [isRefused]
  rfl

theorem writeAt_refused
    (isRefused : file.refused numBytes position = true) (disk : DiskImage)
    (junk : Nat → Junk) (source : List Byte) :
    file.writeAt disk junk source numBytes position = .ok (0, disk) := by
  unfold writeAt
  rw [isRefused]
  rfl

/-- A safe request is refused, or starts inside the file and ends at an offset.
-/
theorem Safe.cases
    (safe : file.Safe numBytes position) (wellFormed : file.hdr.WellFormed) :
    (file.refused numBytes position = true ∧
        file.transferred numBytes position = 0) ∨
      ∃ count start : Nat,
        numBytes = count ∧ position = start ∧
          0 < count ∧ start < file.hdr.length ∧ start + count < 2 ^ 31 ∧
          file.transferred numBytes position =
            ((min count (file.hdr.length - start) : Nat) : Int) := by
  by_cases outright : numBytes ≤ 0 ∨ (file.hdr.length : Int) ≤ position
  · refine Or.inl ⟨(refused_iff wellFormed).mpr outright, ?_⟩
    unfold transferred
    omega
  · have inside : 0 ≤ position ∧ position + numBytes < 2 ^ 31 := by
      unfold Safe at safe
      omega
    obtain ⟨count, rfl⟩ : ∃ count : Nat, numBytes = count :=
      Int.eq_ofNat_of_zero_le (by omega)
    obtain ⟨start, rfl⟩ := Int.eq_ofNat_of_zero_le inside.1
    refine Or.inr ⟨count, start, rfl, rfl, by omega, by omega, by omega, ?_⟩
    unfold transferred
    omega

/-! ## The file as a byte array -/

theorem readAt_safe
    (wellFormed : file.hdr.WellFormed) (safe : file.Safe numBytes position)
    (disk : DiskImage) (junk : Junk) {into : List Byte} {start : Nat}
    (room : start + file.transferred numBytes position ≤ into.length) :
    file.readAt disk junk into start numBytes position =
      .ok (file.transferred numBytes position,
        overlay into
          (slice (fileBytes disk file.hdr) position.toNat
            (file.transferred numBytes position).toNat)
          start) := by
  rcases safe.cases wellFormed with
    ⟨isRefused, nothing⟩ |
      ⟨count, offset, rfl, rfl, positive, inside, small, amount⟩
  · rw [readAt_refused isRefused, nothing]
    simp [slice]
  · rw [amount] at room ⊢
    rw [readAt_spec wellFormed junk small (by omega), Int.toNat_natCast,
      Int.toNat_natCast]
    congr 3
    unfold fileBytes slice
    rw [List.drop_take, List.take_take]
    congr 1
    omega

/-- A safe `WriteAt` stores the bytes that it covers and leaves every sector
outside the file alone.  If the sectors of the file are distinct, it leaves the
other bytes of the file alone too. -/
theorem writeAt_safe
    (wellFormed : file.hdr.WellFormed) (safe : file.Safe numBytes position)
    (disk : DiskImage) (junk : Nat → Junk) {source : List Byte}
    (supplied : file.transferred numBytes position ≤ source.length) :
    ∃ disk',
      file.writeAt disk junk source numBytes position =
          .ok (file.transferred numBytes position, disk') ∧
        (∀ sector, sector ∉ file.hdr.sectors → disk' sector = disk sector) ∧
        (file.hdr.sectors.Nodup → ∀ index, index < file.hdr.length →
          (fileBytes disk' file.hdr)[index]? =
            if position ≤ index ∧
                index < position + file.transferred numBytes position then
              source[index - position.toNat]?
            else
              (fileBytes disk file.hdr)[index]?) := by
  rcases safe.cases wellFormed with
    ⟨isRefused, nothing⟩ |
      ⟨count, offset, rfl, rfl, positive, inside, small, amount⟩
  · refine ⟨disk, ?_, fun _ _ => rfl, ?_⟩
    · rw [writeAt_refused isRefused, nothing]
    · intro _ index _
      rw [nothing, if_neg (by omega)]
  · rw [amount] at supplied ⊢
    obtain ⟨disk', written, frame, bytes⟩ :=
      writeAt_returns wellFormed disk junk small
        (show min count (file.hdr.length - offset) ≤ source.length by omega)
    refine ⟨disk', written, frame, ?_⟩
    intro nodup index inFile
    unfold fileBytes
    rw [List.getElem?_take_of_lt inFile, List.getElem?_take_of_lt inFile,
      bytes nodup index inFile, Int.toNat_natCast]
    congr 1
    exact propext (by omega)

/-- `ReadAt` and `WriteAt` implement a byte array of fixed length over the
data sectors of the file. -/
theorem access_exact
    (wellFormed : file.hdr.WellFormed) (nodup : file.hdr.sectors.Nodup)
    (disk : DiskImage) (junk : Junk) (edgeJunk : Nat → Junk)
    (nonnegative : 0 ≤ position) (small : position + numBytes < 2 ^ 31)
    {into source : List Byte}
    (room : file.transferred numBytes position ≤ into.length)
    (supplied : file.transferred numBytes position ≤ source.length) :
    (∃ disk',
      file.writeAt disk edgeJunk source numBytes position =
          .ok (max 0 (min numBytes (file.length - position)), disk') ∧
        (∀ index, index < file.hdr.length →
          (fileBytes disk' file.hdr)[index]? =
            if position ≤ index ∧
                index <
                  position + max 0 (min numBytes (file.length - position)) then
              source[index - position.toNat]?
            else
              (fileBytes disk file.hdr)[index]?) ∧
        ∀ sector, sector ∉ file.hdr.sectors → disk' sector = disk sector) ∧
      file.readAt disk junk into 0 numBytes position =
        .ok (max 0 (min numBytes (file.length - position)),
          overlay into
            (slice (fileBytes disk file.hdr) position.toNat
              (max 0 (min numBytes (file.length - position))).toNat)
            0) := by
  have safe : file.Safe numBytes position := Or.inr (Or.inr ⟨nonnegative, small⟩)
  have sameLength : file.length = (file.hdr.length : Int) :=
    fileLength_eq wellFormed
  have amount :
      file.transferred numBytes position =
        max 0 (min numBytes (file.length - position)) := by
    rw [sameLength]
    rfl
  obtain ⟨disk', written, frame, bytes⟩ :=
    writeAt_safe wellFormed safe disk edgeJunk supplied
  have read :=
    @readAt_safe file numBytes position wellFormed safe disk junk into 0
      (by omega)
  rw [amount] at written bytes read
  exact ⟨⟨disk', written, bytes nodup, frame⟩, read⟩

def scattered : OpenFile where
  hdr :=
    { numBytes := 300
      numSectors := 3
      dataSectors := [50, 9, 700] ++ List.replicate 27 0
      dataSectors_length := rfl }
  seekPosition := 0

theorem wellFormed_scattered : scattered.hdr.WellFormed where
  numBytes_nonneg := by decide
  numSectors_eq := by decide
  numSectors_le := by decide
  inRange := by decide

theorem access_exact_scattered :
    ∃ disk',
      scattered.writeAt blankDisk (fun _ _ => 0) (List.replicate 200 7) 200 120 =
          .ok (180, disk') ∧
        ∀ sector, sector ∉ [50, 9, 700] → disk' sector = blankDisk sector := by
  obtain ⟨⟨disk', written, _, frame⟩, _⟩ :=
    @access_exact scattered 200 120 wellFormed_scattered (by decide) blankDisk
      (fun _ => 0) (fun _ _ => 0) (by decide) (by decide)
      (List.replicate 180 0) (List.replicate 200 7)
      (by rw [List.length_replicate]; decide)
      (by rw [List.length_replicate]; decide)
  exact ⟨disk', written, frame⟩

/-! ## Sequential access -/

theorem write_natCast
    {header : FileHeader} (wellFormed : header.WellFormed)
    (nodup : header.sectors.Nodup) (disk : DiskImage) (junk : Nat → Junk)
    {source : List Byte} {start count : Nat}
    (inside : start + count ≤ header.length)
    (supplied : count ≤ source.length) :
    ∃ disk',
      (OpenFile.mk header start).write disk junk source count =
          .ok (count, disk', ⟨header, ((start + count : Nat) : Int)⟩) ∧
        (∀ sector, sector ∉ header.sectors → disk' sector = disk sector) ∧
        fileBytes disk' header =
          overlay (fileBytes disk header) (source.take count) start := by
  have lengthBound := wellFormed.length_le
  simp only [maxFileSize, numDirect, sectorSize] at lengthBound
  have amount : (OpenFile.mk header start).transferred count start = count := by
    unfold transferred
    change max 0 (min (count : Int) ((header.length : Int) - start)) = count
    omega
  obtain ⟨disk', written, frame, bytes⟩ :=
    @writeAt_safe ⟨header, start⟩ count start wellFormed
      (Or.inr (Or.inr (by omega))) disk junk source (by rw [amount]; omega)
  rw [amount] at written bytes
  refine ⟨disk', ?_, frame, ?_⟩
  · unfold write
    rw [written, ok_bind]
    dsimp only
    rw [← Int.natCast_add, wrap_natCast (by omega)]
    rfl
  · have length := length_fileBytes disk wellFormed
    have length' := length_fileBytes disk' wellFormed
    have taken : (source.take count).length = count :=
      List.length_take_of_le supplied
    apply List.ext_getElem?
    intro index
    rw [getElem?_overlay (by omega), taken]
    by_cases inFile : index < header.length
    · rw [bytes nodup index inFile, Int.toNat_natCast]
      by_cases covered : start ≤ index ∧ index < start + count
      · rw [if_pos (by omega), if_pos covered,
          List.getElem?_take_of_lt (by omega)]
      · rw [if_neg (by omega), if_neg covered]
    · rw [List.getElem?_eq_none (by omega), if_neg (by omega),
        List.getElem?_eq_none (by omega)]

theorem read_natCast
    {header : FileHeader} (wellFormed : header.WellFormed) (disk : DiskImage)
    (junk : Junk) {into : List Byte} {start count : Nat}
    (inside : start ≤ header.length) (small : start + count < 2 ^ 31)
    (room : count ≤ into.length) :
    (OpenFile.mk header start).read disk junk into count =
      .ok (((min count (header.length - start) : Nat) : Int),
        overlay into
          (slice (fileBytes disk header) start
            (min count (header.length - start))) 0,
        ⟨header, ((start + min count (header.length - start) : Nat) : Int)⟩) := by
  have amount :
      (OpenFile.mk header start).transferred count start =
        ((min count (header.length - start) : Nat) : Int) := by
    unfold transferred
    change max 0 (min (count : Int) ((header.length : Int) - start)) = _
    omega
  have wasRead :=
    @readAt_safe ⟨header, start⟩ count start wellFormed
      (Or.inr (Or.inr (by omega))) disk junk into 0 (by rw [amount]; omega)
  rw [amount, Int.toNat_natCast, Int.toNat_natCast] at wasRead
  unfold read
  rw [show (0 : Int) = ((0 : Nat) : Int) from rfl, wasRead, ok_bind]
  dsimp only
  rw [← Int.natCast_add, wrap_natCast (by omega)]
  rfl

/-! ## All arguments -/

/-- The sector indices that the loop of a request passes to `ByteToSector`. -/
def loopAsks (file : OpenFile) (numBytes position : Int) : List Int :=
  if file.refused numBytes position then
    []
  else
    let numBytes := file.clipped numBytes position
    let first := firstSector position
    let last := lastSector numBytes position
    (List.range (last - first + 1).toNat).map (fun k : Nat =>
      divRoundDown (wrap ((first + k) * sectorSize)) sectorSize)

/-- The sector indices that `WriteAt` passes to `ByteToSector`, those of the
two calls of `ReadAt` for the edges included. -/
def writeAsks (file : OpenFile) (numBytes position : Int) : List Int :=
  if file.refused numBytes position then
    []
  else
    let clippedBytes := file.clipped numBytes position
    let first := firstSector position
    let last := lastSector clippedBytes position
    let firstAligned := decide (position = wrap (first * sectorSize))
    let lastAligned :=
      decide
        (wrap (position + clippedBytes) = wrap (wrap (last + 1) * sectorSize))
    (if !firstAligned then
      file.loopAsks sectorSize (wrap (first * sectorSize))
    else
      []) ++
    (if !lastAligned && (first != last || firstAligned) then
      file.loopAsks sectorSize (wrap (last * sectorSize))
    else
      []) ++
    file.loopAsks numBytes position

section Lookups

variable {other : OpenFile} {disk : DiskImage}

private theorem readSectors_congr {first : Int} :
    ∀ {remaining : Nat} {index : Int} {buf : List Byte},
      (∀ k : Nat, k < remaining →
        other.hdr.byteToSector (wrap ((index + k) * sectorSize)) =
          file.hdr.byteToSector (wrap ((index + k) * sectorSize))) →
      other.readSectors disk first remaining index buf =
        file.readSectors disk first remaining index buf
  | 0, _, _, _ => rfl
  | remaining + 1, index, buf, same => by
    have here := same 0 (by omega)
    rw [Nat.cast_zero, Int.add_zero] at here
    have later := fun filled => @readSectors_congr first remaining (index + 1)
      filled (fun k fewer => by
        have next := same (k + 1) (by omega)
        rwa [Nat.cast_succ, ← Int.add_assoc, Int.add_right_comm] at next)
    simp only [readSectors, here, later]

private theorem writeSectors_congr {first : Int} {buf : List Byte} :
    ∀ {remaining : Nat} {index : Int} {disk : DiskImage},
      (∀ k : Nat, k < remaining →
        other.hdr.byteToSector (wrap ((index + k) * sectorSize)) =
          file.hdr.byteToSector (wrap ((index + k) * sectorSize))) →
      other.writeSectors first buf remaining index disk =
        file.writeSectors first buf remaining index disk
  | 0, _, _, _ => rfl
  | remaining + 1, index, disk, same => by
    have here := same 0 (by omega)
    rw [Nat.cast_zero, Int.add_zero] at here
    have later := fun disk => @writeSectors_congr first buf remaining
      (index + 1) disk (fun k fewer => by
        have next := same (k + 1) (by omega)
        rwa [Nat.cast_succ, ← Int.add_assoc, Int.add_right_comm] at next)
    simp only [writeSectors, here, later]

variable (sameLength : other.hdr.fileLength = file.hdr.fileLength)
include sameLength

private theorem refused_congr (numBytes position : Int) :
    other.refused numBytes position = file.refused numBytes position := by
  unfold refused
  rw [sameLength]

private theorem clipped_congr (numBytes position : Int) :
    other.clipped numBytes position = file.clipped numBytes position := by
  unfold clipped
  rw [sameLength]

/-- `loopAsks` misses no lookup of `ReadAt`: it makes the same of two headers
that agree there. -/
theorem readAt_congr
    (same : ∀ index ∈ file.loopAsks numBytes position,
      other.hdr.dataSector index = file.hdr.dataSector index)
    (junk : Junk) (into : List Byte) (start : Int) :
    other.readAt disk junk into start numBytes position =
      file.readAt disk junk into start numBytes position := by
  unfold readAt
  rw [refused_congr sameLength, clipped_congr sameLength]
  cases isRefused : file.refused numBytes position with
  | true => rw [if_pos rfl, if_pos rfl]
  | false =>
    unfold loopAsks at same
    rw [isRefused] at same
    have loop := fun buf =>
      @readSectors_congr file other disk (firstSector position) _ _ buf
        (fun k fewer => same _ (List.mem_map_of_mem (List.mem_range.mpr fewer)))
    simp only [Bool.false_eq_true, if_false, loop]

private theorem readEdges_congr
    {first last : Int} {firstAligned lastAligned : Bool}
    (atFirst : (!firstAligned) = true →
      ∀ index ∈ file.loopAsks sectorSize (wrap (first * sectorSize)),
        other.hdr.dataSector index = file.hdr.dataSector index)
    (atLast : (!lastAligned && (first != last || firstAligned)) = true →
      ∀ index ∈ file.loopAsks sectorSize (wrap (last * sectorSize)),
        other.hdr.dataSector index = file.hdr.dataSector index)
    (junk : Nat → Junk) (buf : List Byte) :
    other.readEdges disk junk first last firstAligned lastAligned buf =
      file.readEdges disk junk first last firstAligned lastAligned buf := by
  unfold readEdges
  split_ifs with needLast needFirst needFirst
  · simp only [readAt_congr sameLength (atFirst needFirst),
      readAt_congr sameLength (atLast needLast)]
  · simp only [readAt_congr sameLength (atLast needLast)]
  · simp only [readAt_congr sameLength (atFirst needFirst)]
  · rfl

/-- Nor does `writeAsks` miss one of `WriteAt`. -/
theorem writeAt_congr
    (same : ∀ index ∈ file.writeAsks numBytes position,
      other.hdr.dataSector index = file.hdr.dataSector index)
    (junk : Nat → Junk) (source : List Byte) :
    other.writeAt disk junk source numBytes position =
      file.writeAt disk junk source numBytes position := by
  unfold writeAt
  rw [refused_congr sameLength, clipped_congr sameLength]
  cases isRefused : file.refused numBytes position with
  | true => rw [if_pos rfl, if_pos rfl]
  | false =>
    unfold writeAsks at same
    rw [isRefused] at same
    simp only [Bool.false_eq_true, if_false, List.mem_append] at same
    have loops : ∀ index ∈ file.loopAsks numBytes position,
        other.hdr.dataSector index = file.hdr.dataSector index :=
      fun index asked => same index (Or.inr asked)
    unfold loopAsks at loops
    rw [isRefused] at loops
    have loop := fun buf disk =>
      @writeSectors_congr file other (firstSector position) buf _ _ disk
        (fun k fewer =>
          loops _ (List.mem_map_of_mem (List.mem_range.mpr fewer)))
    have edges := fun buf =>
      @readEdges_congr file other disk sameLength (firstSector position)
        (lastSector (file.clipped numBytes position) position) _ _
        (fun needed index asked =>
          same index (Or.inl (Or.inl (by rw [if_pos needed]; exact asked))))
        (fun needed index asked =>
          same index (Or.inl (Or.inr (by rw [if_pos needed]; exact asked))))
        junk buf
    simp only [Bool.false_eq_true, if_false, edges, loop]

end Lookups

/-- What a caller may rely on: the reported count is zero or lies inside the
file, and every sector index asked for is one of the file. -/
structure Harmless
    (file : OpenFile) (position count : Int) (asks : List Int) : Prop where
  count :
    count = 0 ∨ 0 < count ∧ count ≤ file.length - position ∧ 0 ≤ position
  asks : ∀ index ∈ asks, 0 ≤ index ∧ index < file.hdr.numSectors.toInt

theorem loopAsks_of_safe
    (wellFormed : file.hdr.WellFormed) (safe : file.Safe numBytes position) :
    ∀ index ∈ file.loopAsks numBytes position,
      0 ≤ index ∧ index < file.hdr.numSectors.toInt := by
  have few := file.hdr.length_sectors_le
  rw [← wellFormed.length_sectors_eq]
  intro index asked
  unfold loopAsks at asked
  rcases safe.cases wellFormed with
    ⟨isRefused, _⟩ | ⟨count, start, rfl, rfl, positive, inside, small, _⟩
  · rw [isRefused] at asked
    cases asked
  · obtain ⟨amount, first, last, -, serves⟩ :=
      exists_serves wellFormed positive inside small
    have lastInside := serves.touches.lastInside wellFormed
    rw [serves.notRefused, serves.clipped] at asked
    simp only [Bool.false_eq_true, if_false, serves.isFirst, serves.isLast]
      at asked
    obtain ⟨k, inRange, rfl⟩ := List.mem_map.mp asked
    rw [List.mem_range] at inRange
    have indexFew : first + k < file.hdr.sectors.length := by omega
    rw [← Int.natCast_add, wrap_mul_sectorSize (by omega),
      divRoundDown_natCast, Nat.mul_div_cancel_left _ (by decide)]
    exact ⟨Int.natCast_nonneg _, Int.ofNat_lt.mpr indexFew⟩

/-- Every index that a safe `WriteAt` looks up is one of the file. -/
theorem writeAsks_of_safe
    (wellFormed : file.hdr.WellFormed) (safe : file.Safe numBytes position) :
    ∀ index ∈ file.writeAsks numBytes position,
      0 ≤ index ∧ index < file.hdr.numSectors.toInt := by
  have lengthBound := wellFormed.length_le
  have loop := loopAsks_of_safe wellFormed safe
  intro index asked
  unfold writeAsks at asked
  rcases safe.cases wellFormed with
    ⟨isRefused, _⟩ | ⟨count, start, rfl, rfl, positive, inside, small, _⟩
  · rw [isRefused] at asked
    cases asked
  · obtain ⟨amount, first, last, -, serves⟩ :=
      exists_serves wellFormed positive inside small
    have touched := serves.touches.inside
    have firstLower := serves.touches.firstSector_bounds.1
    have lastUpper := serves.touches.lastSector_bounds.1
    simp only [maxFileSize, numDirect, sectorSize] at lengthBound
    -- both edges are sectors of the file, and a read of one sector is safe
    have edgeSafe : ∀ edge : Nat, sectorSize * edge < file.hdr.length →
        file.Safe sectorSize (wrap ((edge : Int) * (sectorSize : Nat))) := by
      intro edge edgeInside
      simp only [sectorSize] at edgeInside
      rw [wrap_mul_sectorSize (by simp only [numDirect, sectorSize]; omega)]
      simp only [Safe, sectorSize]
      omega
    rw [serves.notRefused, serves.clipped] at asked
    simp only [Bool.false_eq_true, if_false, serves.isFirst, serves.isLast]
      at asked
    rcases List.mem_append.mp asked with edges | asked
    · rcases List.mem_append.mp edges with atFirst | atLast
      · split_ifs at atFirst
        · exact loopAsks_of_safe wellFormed (edgeSafe first (by omega)) index
            atFirst
        · cases atFirst
      · split_ifs at atLast
        · exact loopAsks_of_safe wellFormed (edgeSafe last (by omega)) index
            atLast
        · cases atLast
    · exact loop index asked

theorem count_of_readAt
    (notRefused : file.refused numBytes position = false)
    {disk : DiskImage} {junk : Junk} {into into' : List Byte}
    {start count : Int}
    (returned :
      file.readAt disk junk into start numBytes position =
        .ok (count, into')) :
    count = file.clipped numBytes position := by
  unfold readAt at returned
  rw [notRefused] at returned
  obtain ⟨_, _, returned⟩ := exists_of_bind_eq_ok returned
  obtain ⟨_, _, returned⟩ := exists_of_bind_eq_ok returned
  obtain ⟨_, _, returned⟩ := exists_of_bind_eq_ok returned
  cases returned
  rfl

theorem count_of_writeAt
    (notRefused : file.refused numBytes position = false)
    {disk disk' : DiskImage} {junk : Nat → Junk} {source : List Byte}
    {count : Int}
    (returned :
      file.writeAt disk junk source numBytes position = .ok (count, disk')) :
    count = file.clipped numBytes position := by
  unfold writeAt at returned
  rw [notRefused] at returned
  obtain ⟨_, _, returned⟩ := exists_of_bind_eq_ok returned
  obtain ⟨_, _, returned⟩ := exists_of_bind_eq_ok returned
  obtain ⟨_, _, returned⟩ := exists_of_bind_eq_ok returned
  obtain ⟨_, _, returned⟩ := exists_of_bind_eq_ok returned
  cases returned
  rfl

/-- An unsafe request is cut off to a count that is not harmless: it starts
before the file, or passes its end. -/
theorem not_harmless_of_unsafe
    (wellFormed : file.hdr.WellFormed)
    (lower : -2 ^ 31 ≤ position) (upper : numBytes < 2 ^ 31)
    (unsafeRequest : ¬ file.Safe numBytes position) (asks : List Int) :
    ¬ file.Harmless position (file.clipped numBytes position) asks := by
  have lengthBound := wellFormed.length_le
  simp only [maxFileSize, numDirect, sectorSize] at lengthBound
  unfold Safe at unsafeRequest
  rintro ⟨count, _⟩
  unfold length at count
  unfold clipped at count
  simp only [fileLength_eq wellFormed] at count
  rcases Int.lt_or_le position 0 with negative | nonnegative
  · rw [wrap_eq_self (by omega) (by omega)] at count
    split_ifs at count with cut
    · rw [wrap_eq_self (by omega) (by omega)] at count
      omega
    · omega
  · -- the end of the request is no `int`, and wraps to a negative number
    have wrapped :
        wrap (position + numBytes) = position + numBytes - 2 ^ 32 := by
      unfold wrap
      rw [← Int.sub_bmod_right]
      exact Int.bmod_eq_of_le (by omega) (by omega)
    rw [wrapped, if_neg (by omega)] at count
    omega

/-- `ReadAt` and `WriteAt` keep to the file and to their buffers for exactly
the requests that are refused or whose start and end are offsets.  The loop of
an unsafe request leaves an array, or its count is wrong. -/
theorem access_harmless_iff
    (wellFormed : file.hdr.WellFormed) (disk : DiskImage) (junk : Junk)
    (edgeJunk : Nat → Junk)
    (lower : -2 ^ 31 ≤ numBytes ∧ -2 ^ 31 ≤ position)
    (upper : numBytes < 2 ^ 31 ∧ position < 2 ^ 31)
    {into source : List Byte}
    (room : numBytes ≤ into.length) (supplied : numBytes ≤ source.length) :
    ((∃ count into',
        file.readAt disk junk into 0 numBytes position =
            .ok (count, into') ∧
          file.Harmless position count (file.loopAsks numBytes position)) ↔
      file.Safe numBytes position) ∧
    ((∃ count disk',
        file.writeAt disk edgeJunk source numBytes position =
            .ok (count, disk') ∧
          file.Harmless position count (file.writeAsks numBytes position)) ↔
      file.Safe numBytes position) := by
  have served : ¬ file.Safe numBytes position →
      file.refused numBytes position = false := by
    intro unsafeRequest
    rw [refused_eq_false_iff wellFormed]
    unfold Safe at unsafeRequest
    omega
  have counted : file.Safe numBytes position →
      file.transferred numBytes position = 0 ∨
        0 < file.transferred numBytes position ∧
          file.transferred numBytes position ≤ file.length - position ∧
          0 ≤ position := by
    intro safe
    unfold length
    rw [fileLength_eq wellFormed]
    unfold transferred
    unfold Safe at safe
    omega
  have amountLe : file.transferred numBytes position ≤ max 0 numBytes := by
    unfold transferred
    omega
  refine ⟨⟨?_, ?_⟩, ⟨?_, ?_⟩⟩
  · rintro ⟨count, into', returned, harmless⟩
    by_contra unsafeRequest
    rw [count_of_readAt (served unsafeRequest) returned] at harmless
    exact not_harmless_of_unsafe wellFormed lower.2 upper.1 unsafeRequest _
      harmless
  · intro safe
    exact ⟨_, _,
      @readAt_safe file numBytes position wellFormed safe disk junk into 0
        (by omega),
      counted safe, loopAsks_of_safe wellFormed safe⟩
  · rintro ⟨count, disk', returned, harmless⟩
    by_contra unsafeRequest
    rw [count_of_writeAt (served unsafeRequest) returned] at harmless
    exact not_harmless_of_unsafe wellFormed lower.2 upper.1 unsafeRequest _
      harmless
  · intro safe
    obtain ⟨disk', written, _⟩ :=
      @writeAt_safe file numBytes position wellFormed safe disk edgeJunk source
        (by omega)
    exact ⟨_, disk', written, counted safe, writeAsks_of_safe wellFormed safe⟩

theorem access_harmless_scattered :
    ∃ count into',
      scattered.readAt blankDisk (fun _ => 0) (List.replicate 100 0) 0 100 256 =
          .ok (count, into') ∧
        scattered.Harmless 256 count (scattered.loopAsks 100 256) := by
  have supplied : (100 : Int) ≤ (List.replicate 100 (0 : Byte)).length := by
    rw [List.length_replicate]
    decide
  exact
    (@access_harmless_iff scattered 100 256 wellFormed_scattered blankDisk
      (fun _ => 0) (fun _ _ => 0) (by decide) (by decide) _ _ supplied
      supplied).1.mpr (Or.inr (Or.inr (by decide)))

set_option maxRecDepth 2000 in
/-- One byte at position -1: the position is below the length, so the request
is not refused, and both calls index their buffer with -1. -/
theorem access_before_start :
    scattered.hdr.WellFormed ∧
      scattered.readAt blankDisk (fun _ => 0) [0] 0 1 (-1) =
        .error .outOfBounds ∧
      scattered.writeAt blankDisk (fun _ _ => 0) [0] 1 (-1) =
        .error .outOfBounds :=
  ⟨wellFormed_scattered, rfl, rfl⟩

/-! ## Writes that return -/

private theorem supplied_of_writeAt
    (wellFormed : file.hdr.WellFormed) (safe : file.Safe numBytes position)
    {disk disk' : DiskImage} {junk : Nat → Junk} {source : List Byte}
    {count : Int}
    (returned :
      file.writeAt disk junk source numBytes position = .ok (count, disk')) :
    file.transferred numBytes position ≤ source.length := by
  rcases safe.cases wellFormed with
    ⟨_, nothing⟩ | ⟨bytes, start, rfl, rfl, positive, inside, small, amount⟩
  · rw [nothing]
    exact Int.natCast_nonneg _
  · have lengthBound := wellFormed.length_le
    simp only [maxFileSize, numDirect, sectorSize] at lengthBound
    have notRefused : file.refused bytes start = false :=
      (refused_eq_false_iff wellFormed).mpr (by omega)
    unfold writeAt at returned
    rw [notRefused] at returned
    simp only [Bool.false_eq_true, if_false] at returned
    obtain ⟨_, _, returned⟩ := exists_of_bind_eq_ok returned
    obtain ⟨_, _, returned⟩ := exists_of_bind_eq_ok returned
    obtain ⟨_, copied, _⟩ := exists_of_bind_eq_ok returned
    have enough := (bounds_of_bcopy copied).1
    rw [clipped_natCast wellFormed inside small (by omega), ← amount] at enough
    omega

/-- A safe `WriteAt` that returned changed no sector outside its file. -/
theorem frame_of_writeAt
    (wellFormed : file.hdr.WellFormed) (safe : file.Safe numBytes position)
    {disk disk' : DiskImage} {junk : Nat → Junk} {source : List Byte}
    {count : Int}
    (returned :
      file.writeAt disk junk source numBytes position = .ok (count, disk')) :
    ∀ sector, sector ∉ file.hdr.sectors → disk' sector = disk sector := by
  obtain ⟨disk'', written, frame, _⟩ :=
    writeAt_safe wellFormed safe disk junk
      (supplied_of_writeAt wellFormed safe returned)
  cases returned.symm.trans written
  exact frame

/-- The buffer of a write of the sector before the file: the bytes to write, and
behind them the first sector of the file, which is read in as the last one. -/
private theorem buffer_before
    {buf source edge : List Byte} (bufLength : buf.length = 2 * sectorSize)
    (sourceLength : source.length = sectorSize)
    (edgeLength : edge.length = sectorSize) :
    overlay (overlay buf edge sectorSize) source 0 = source ++ edge := by
  unfold overlay
  rw [List.take_zero, List.nil_append, Nat.zero_add, sourceLength,
    List.append_assoc, List.drop_left' (by rw [List.length_take]; omega),
    edgeLength, List.drop_eq_nil_of_le (by omega), List.append_nil]

private theorem writeSectors_before
    (wellFormed : file.hdr.WellFormed)
    (here : 0 < file.hdr.sectors.length) (disk : DiskImage)
    (source edge : Sector) :
    file.writeSectors (-1) (source.bytes ++ edge.bytes) 2 (-1) disk =
      .ok (Function.update
        (Function.update disk file.hdr.sectors.length source)
        (file.hdr.sectors.get ⟨0, here⟩) edge) := by
  have few := file.hdr.length_sectors_le
  simp only [numDirect, sectorSize] at few
  have bufLength : (source.bytes ++ edge.bytes).length = 2 * sectorSize := by
    rw [List.length_append, source.length_eq, edge.length_eq]
    rfl
  have beforeTable :
      file.hdr.byteToSector (wrap (-1 * (sectorSize : Nat))) =
        .ok (file.hdr.sectors.length : Int) := by
    rw [wellFormed.length_sectors_eq]
    rfl
  have atStart := FileHeader.byteToSector_natCast wellFormed here
  have firstHalf :
      bytesAt (source.bytes ++ edge.bytes) (0 : Nat) sectorSize =
        .ok source.bytes := by
    rw [bytesAt_natCast (by rw [bufLength]; decide), ← source.length_eq]
    simp [slice]
  have secondHalf :
      bytesAt (source.bytes ++ edge.bytes) (sectorSize : Nat) sectorSize =
        .ok edge.bytes := by
    rw [bytesAt_natCast (by rw [bufLength]; decide)]
    unfold slice
    rw [List.drop_left' source.length_eq,
      List.take_of_length_le (le_of_eq edge.length_eq)]
  unfold writeSectors
  rw [beforeTable, ok_bind]
  change (bytesAt _ (0 : Nat) _ >>= _) = _
  rw [firstHalf, ok_bind,
    SynchDisk.writeSector_natCast disk
      (by simp only [Disk.numSectors, Disk.sectorsPerTrack, Disk.numTracks]; omega)
      source.length_eq, ok_bind]
  unfold writeSectors
  change (file.hdr.byteToSector ((sectorSize * 0 : Nat) : Int) >>= _) = _
  rw [atStart, ok_bind]
  change (bytesAt _ (sectorSize : Nat) _ >>= _) = _
  rw [secondHalf, ok_bind,
    SynchDisk.writeSector_natCast _
      (wellFormed.inRange _ (List.get_mem _ _)) edge.length_eq, ok_bind]
  rfl

/-- A write of the sector before the file returns, and what it wrote is in the
sector whose number is the length of the table: `dataSectors[-1]` is
`numSectors`. -/
theorem writeAt_before
    (wellFormed : file.hdr.WellFormed) (long : sectorSize ≤ file.hdr.length)
    (apart : file.hdr.sectors.length ∉ file.hdr.sectors) (disk : DiskImage)
    (junk : Nat → Junk) (source : Sector) :
    file.writeAt disk junk source.bytes sectorSize (-(sectorSize : Nat)) =
      .ok ((sectorSize : Nat),
        Function.update disk file.hdr.sectors.length source) := by
  have lengthBound := wellFormed.length_le
  simp only [maxFileSize, numDirect, sectorSize] at lengthBound long
  have here : 0 < file.hdr.sectors.length := by
    rw [wellFormed.length_sectors]
    simp only [sectorSize]
    omega
  have notRefused : file.refused sectorSize (-(sectorSize : Nat)) = false := by
    rw [refused_eq_false_iff wellFormed]
    simp only [sectorSize]
    omega
  have uncut :
      file.clipped sectorSize (-(sectorSize : Nat)) = (sectorSize : Nat) := by
    unfold clipped
    rw [fileLength_eq wellFormed, if_neg]
    change ¬ ((file.hdr.length : Int) < 0)
    omega
  obtain ⟨buf, isBuf⟩ :
      ∃ buf, buf = (List.range (2 * sectorSize)).map (junk 0) := ⟨_, rfl⟩
  have bufLength : buf.length = 2 * sectorSize := by
    rw [isBuf, List.length_map, List.length_range]
  have edge :=
    @readAt_spec file disk wellFormed (junk 2) buf sectorSize sectorSize 0
      (by decide) (by rw [bufLength]; simp only [sectorSize]; omega)
  rw [Nat.sub_zero, Nat.min_eq_left (by simp only [sectorSize]; omega),
    show slice (contents disk file.hdr) 0 sectorSize = _ from
      slice_contents disk file.hdr here] at edge
  have edges :
      file.readEdges disk junk (-1) 0 true false buf =
        .ok (overlay buf (disk (file.hdr.sectors.get ⟨0, here⟩)).bytes
          sectorSize) := by
    change Prod.snd <$>
      file.readAt disk (junk 2) buf (sectorSize : Nat) sectorSize (0 : Nat) = _
    rw [edge]
    rfl
  unfold writeAt
  rw [notRefused]
  simp only [Bool.false_eq_true, if_false, uncut]
  change (newChars (junk 0) (2 * sectorSize : Nat) >>= fun buf =>
    file.readEdges disk junk (-1) 0 true false buf >>= fun buf =>
      bcopy source.bytes (0 : Nat) buf (0 : Nat) sectorSize >>= fun buf =>
        file.writeSectors (-1) buf 2 (-1) disk >>= fun disk =>
          Except.ok (((sectorSize : Nat) : Int), disk)) = _
  unfold newChars
  rw [if_pos (Int.natCast_nonneg _), Int.toNat_natCast, ← isBuf, ok_bind, edges,
    ok_bind,
    bcopy_natCast (by rw [source.length_eq]; decide)
      (by
        rw [length_overlay (by rw [Sector.length_eq, bufLength]; decide),
          bufLength]
        decide),
    ok_bind, ← source.length_eq, slice_full, source.length_eq,
    buffer_before bufLength source.length_eq (Sector.length_eq _),
    writeSectors_before wellFormed here, ok_bind]
  have different :
      file.hdr.sectors.get ⟨0, here⟩ ≠ file.hdr.sectors.length := by
    intro equal
    exact apart (equal ▸ List.get_mem _ _)
  rw [← Function.update_of_ne different source disk, Function.update_eq_self]

end OpenFile

end Nachos
