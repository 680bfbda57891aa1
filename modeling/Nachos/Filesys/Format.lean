import Nachos.Filesys.Operations

/-!
# Formatting a disk
-/

namespace Nachos

open Foundation
open FileSystem

theorem SystemFiles.consistent
    {disk : DiskImage} (system : SystemFiles disk)
    (empty : (directoryOf disk).heads = [])
    (marks : ∀ sector, (freeMapOf disk).marked sector =
      decide (sector ∈
        fileSectors disk freeMapSector ++ fileSectors disk directorySector)) :
    Consistent disk := by
  have headsEq : heads disk = [freeMapSector, directorySector] := by
    unfold heads
    rw [empty]
  have ownedEq : ownedSectors disk =
      fileSectors disk freeMapSector ++ fileSectors disk directorySector := by
    unfold ownedSectors
    rw [headsEq]
    simp
  refine ⟨?_, ?_, system.mapLength, system.directoryLength, ?_, ?_⟩
  · rw [headsEq]
    intro head member
    simp only [List.mem_cons, List.not_mem_nil, or_false] at member
    rcases member with rfl | rfl
    · exact system.mapWellFormed
    · exact system.directoryWellFormed
  · rw [headsEq]
    decide
  · rw [ownedEq]
    exact system.separate
  · intro sector _
    rw [marks, ownedEq, decide_eq_true_eq]

private theorem format_headMap :
    ∃ emptyMap firstMap headMap,
      Bitmap.create Disk.numSectors = .ok emptyMap ∧
        emptyMap.mark freeMapSector = .ok firstMap ∧
        firstMap.mark directorySector = .ok headMap ∧
        headMap.numBits = Disk.numSectors ∧
        Disk.numSectors - 2 ≤ headMap.clearBits.card ∧
        ∀ sector, headMap.marked sector =
          (decide (sector = directorySector) ||
            decide (sector = freeMapSector)) := by
  obtain ⟨emptyMap, created, emptySize, emptyMarks⟩ :=
    Bitmap.create_spec (show 0 < Disk.numSectors by decide)
  obtain ⟨firstMap, marked₀, firstSize, firstMarks⟩ :=
    emptyMap.mark_spec (show freeMapSector < emptyMap.numBits by
      rw [emptySize]
      decide)
  obtain ⟨headMap, marked₁, headSize, headMarks⟩ :=
    firstMap.mark_spec (show directorySector < firstMap.numBits by
      rw [firstSize, emptySize]
      decide)
  have emptyCount : emptyMap.clearBits.card = Disk.numSectors := by
    have everything : emptyMap.clearBits = Finset.range Disk.numSectors := by
      ext sector
      rw [Bitmap.mem_clearBits, emptySize, emptyMarks, Finset.mem_range]
      exact and_iff_left rfl
    rw [everything, Finset.card_range]
  have firstCount :=
    @Finset.pred_card_le_card_erase _ emptyMap.clearBits freeMapSector _
  have headCount :=
    @Finset.pred_card_le_card_erase _ firstMap.clearBits directorySector _
  rw [← Bitmap.clearBits_of_marked firstSize firstMarks, emptyCount]
    at firstCount
  rw [← Bitmap.clearBits_of_marked headSize headMarks] at headCount
  refine ⟨emptyMap, firstMap, headMap, created, marked₀, marked₁, ?_, ?_, ?_⟩
  · rw [headSize, firstSize, emptySize]
  · omega
  · intro sector
    rw [headMarks, firstMarks, emptyMarks, Bool.or_false]

private theorem format_store
    (disk : DiskImage) (memory memory' : Memory) {mapHdr dirHdr : FileHeader}
    {directory : Directory} {freeMap : Bitmap}
    (mapWellFormed : mapHdr.WellFormed)
    (mapLength : mapHdr.length = freeMapFileSize)
    (dirWellFormed : dirHdr.WellFormed)
    (dirLength : dirHdr.length = directoryFileSize)
    (separate : ((freeMapSector :: mapHdr.sectors) ++
      (directorySector :: dirHdr.sectors)).Nodup)
    (tableSize : directory.table.length = numDirEntries)
    (empty : directory.heads = [])
    (mapSize : freeMap.numBits = Disk.numSectors)
    (marks : ∀ sector, freeMap.marked sector =
      decide (sector ∈ (freeMapSector :: mapHdr.sectors) ++
        (directorySector :: dirHdr.sectors))) :
    ∃ disk₀ disk₁ fileSystem disk₂ disk₃,
      mapHdr.writeBack disk freeMapSector = .ok disk₀ ∧
        dirHdr.writeBack disk₀ directorySector = .ok disk₁ ∧
        mount disk₁ = .ok fileSystem ∧
        PersistentBitmap.writeBack freeMap fileSystem.freeMapFile disk₁
          memory = .ok disk₂ ∧
        directory.writeBack fileSystem.directoryFile disk₂ memory' =
          .ok disk₃ ∧
        Consistent disk₃ ∧ Mounted fileSystem disk₃ ∧
        directoryOf disk₃ = directory ∧
        headerAt disk₃ freeMapSector = mapHdr := by
  obtain ⟨disk₁, stored⟩ :
      ∃ disk₁, disk₁ =
        Function.update
          (Function.update disk freeMapSector
            ⟨mapHdr.toBytes, mapHdr.length_toBytes⟩)
          directorySector ⟨dirHdr.toBytes, dirHdr.length_toBytes⟩ :=
    ⟨_, rfl⟩
  have mapHeader : headerAt disk₁ freeMapSector = mapHdr := by
    unfold headerAt
    rw [stored, Function.update_of_ne (by decide), Function.update_self]
    exact FileHeader.ofSector_toBytes mapHdr
  have dirHeader : headerAt disk₁ directorySector = dirHdr := by
    unfold headerAt
    rw [stored, Function.update_self]
    exact FileHeader.ofSector_toBytes dirHdr
  have mapSectors : fileSectors disk₁ freeMapSector =
      freeMapSector :: mapHdr.sectors := by
    unfold fileSectors
    rw [mapHeader]
  have dirSectors : fileSectors disk₁ directorySector =
      directorySector :: dirHdr.sectors := by
    unfold fileSectors
    rw [dirHeader]
  have system : SystemFiles disk₁ := by
    refine ⟨?_, ?_, ?_, ?_, ?_⟩
    · rwa [mapHeader]
    · rwa [mapHeader]
    · rwa [dirHeader]
    · rwa [dirHeader]
    · rwa [mapSectors, dirSectors]
  obtain ⟨fileSystem, isMounted, mounted⟩ := mount_spec disk₁
  obtain ⟨disk₂, disk₃, written₂, written₃, frame, directoryEq, mapEq⟩ :=
    system.writeMap_writeDirectory mounted memory memory' tableSize mapSize
  obtain ⟨system₃, mounted₃, mapHeader₃, dirHeader₃⟩ :=
    system.of_frame mounted frame
  refine ⟨_, disk₁, fileSystem, disk₂, disk₃,
    SynchDisk.writeSector_natCast disk (by decide) mapHdr.length_toBytes,
    ?_, isMounted, written₂, written₃, ?_, mounted₃, directoryEq,
    mapHeader₃.trans mapHeader⟩
  · rw [stored]
    exact SynchDisk.writeSector_natCast _ (by decide) dirHdr.length_toBytes
  · apply system₃.consistent
    · rw [directoryEq]
      exact empty
    · intro sector
      unfold fileSectors
      rw [mapEq, marks, mapHeader₃, dirHeader₃, mapHeader, dirHeader]

private theorem format_separate
    {mapSectors dirSectors : List Nat} (mapNodup : mapSectors.Nodup)
    (dirNodup : dirSectors.Nodup)
    (mapFresh : ∀ sector ∈ mapSectors,
      sector ≠ freeMapSector ∧ sector ≠ directorySector)
    (dirFresh : ∀ sector ∈ dirSectors,
      sector ∉ mapSectors ∧
        sector ≠ freeMapSector ∧ sector ≠ directorySector) :
    ((freeMapSector :: mapSectors) ++ (directorySector :: dirSectors)).Nodup := by
  rw [List.nodup_append]
  refine ⟨List.nodup_cons.mpr ⟨?_, mapNodup⟩,
    List.nodup_cons.mpr ⟨?_, dirNodup⟩, ?_⟩
  · exact fun member => (mapFresh _ member).1 rfl
  · exact fun member => (dirFresh _ member).2.2 rfl
  · rintro sector mapMember _ dirMember rfl
    rcases List.mem_cons.mp mapMember with rfl | mapMember
    · rcases List.mem_cons.mp dirMember with impossible | dirMember
      · exact absurd impossible (by decide)
      · exact (dirFresh _ dirMember).2.1 rfl
    · rcases List.mem_cons.mp dirMember with rfl | dirMember
      · exact (mapFresh _ mapMember).2 rfl
      · exact (dirFresh _ dirMember).1 mapMember

/-- The bitmap gets the lowest sector that is not a header. -/
private theorem format_mapSectors
    {headMap : Bitmap} (headSize : headMap.numBits = Disk.numSectors)
    (headMarks : ∀ sector, headMap.marked sector =
      (decide (sector = directorySector) || decide (sector = freeMapSector)))
    {sectors : List Nat} (count : sectors.length = 1)
    (clear : ∀ sector ∈ sectors, sector ∈ headMap.clearBits)
    (lowest : ∀ free ∈ headMap.clearBits, free ∉ sectors →
      ∀ sector ∈ sectors, sector < free) :
    sectors = [2] := by
  obtain ⟨sector, rfl⟩ := List.length_eq_one_iff.mp count
  have isClear := (Bitmap.mem_clearBits.mp (clear sector List.mem_cons_self)).2
  rw [headMarks, Bool.or_eq_false_iff, decide_eq_false_iff_not,
    decide_eq_false_iff_not] at isClear
  have free : 2 ∈ headMap.clearBits :=
    Bitmap.mem_clearBits.mpr ⟨by rw [headSize]; decide, by rw [headMarks]; rfl⟩
  by_contra different
  have before := lowest 2 free
    (fun member => different (by rw [List.mem_singleton.mp member])) sector
    List.mem_cons_self
  simp only [directorySector, freeMapSector] at isClear
  omega

private theorem format_marks
    {mapSectors dirSectors : List Nat} (sector : Nat) :
    (decide (sector ∈ dirSectors) || (decide (sector ∈ mapSectors) ||
        (decide (sector = directorySector) ||
          decide (sector = freeMapSector)))) =
      decide (sector ∈ (freeMapSector :: mapSectors) ++
        (directorySector :: dirSectors)) := by
  rw [← Bool.decide_or, ← Bool.decide_or, ← Bool.decide_or, decide_eq_decide]
  simp only [List.mem_append, List.mem_cons]
  constructor
  · rintro (inDirectory | inMap | isDirectory | isMap)
    · exact Or.inr (Or.inr inDirectory)
    · exact Or.inl (Or.inr inMap)
    · exact Or.inr (Or.inl isDirectory)
    · exact Or.inl (Or.inl isMap)
  · rintro ((isMap | inMap) | isDirectory | inDirectory)
    · exact Or.inr (Or.inr (Or.inr isMap))
    · exact Or.inr (Or.inl inMap)
    · exact Or.inr (Or.inr (Or.inl isDirectory))
    · exact Or.inl inDirectory

/-- Formatting returns on every disk and leaves a consistent one, without a
file in the directory and with the bitmap in the first sector behind the two
headers. -/
theorem format_spec (disk : DiskImage) (memory : Memory) :
    ∃ fileSystem disk',
      format disk memory = .ok (fileSystem, disk') ∧
        Consistent disk' ∧ Mounted fileSystem disk' ∧
        (directoryOf disk').heads = [] ∧
        (headerAt disk' freeMapSector).sectors = [2] := by
  obtain ⟨emptyMap, firstMap, headMap, created, marked₀, marked₁, headSize,
    headCount, headMarks⟩ := format_headMap
  rcases (newHeader (memory 1)).allocate_spec headMap
      (show freeMapFileSize ≤ maxFileSize by decide) (by rw [headSize]) with
    ⟨tooFew, _⟩ |
      ⟨_, mapHdr, dataMap, mapAllocated, mapWellFormed, mapLength, mapCount,
        mapNodup, mapClear, mapLowest, dataSize, dataMarks⟩
  · exact absurd (lt_of_le_of_lt headCount tooFew) (by decide)
  · have dataCount : headMap.clearBits.card ≤ dataMap.clearBits.card + 1 := by
      have counted := Bitmap.card_clearBits_le dataSize dataMarks
      rw [mapCount] at counted
      exact counted
    rcases (newHeader (memory 2)).allocate_spec dataMap
        (show directoryFileSize ≤ maxFileSize by decide)
        (by rw [dataSize, headSize]) with
      ⟨tooFew, _⟩ |
        ⟨_, dirHdr, freeMap, dirAllocated, dirWellFormed, dirLength, _,
          dirNodup, dirClear, _, freeSize, freeMarks⟩
    · exfalso
      have needed : FileHeader.sectorsFor directoryFileSize = 2 := by decide
      simp only [Disk.numSectors, Disk.sectorsPerTrack, Disk.numTracks]
        at headCount
      omega
    · -- neither allocation takes a header sector, nor the second one a
      -- sector of the first
      have mapFresh : ∀ sector ∈ mapHdr.sectors,
          sector ≠ freeMapSector ∧ sector ≠ directorySector := by
        intro sector member
        have unmarked := (Bitmap.mem_clearBits.mp (mapClear sector member)).2
        rw [headMarks, Bool.or_eq_false_iff] at unmarked
        exact ⟨of_decide_eq_false unmarked.2, of_decide_eq_false unmarked.1⟩
      have dirFresh : ∀ sector ∈ dirHdr.sectors,
          sector ∉ mapHdr.sectors ∧
            sector ≠ freeMapSector ∧ sector ≠ directorySector := by
        intro sector member
        have unmarked := (Bitmap.mem_clearBits.mp (dirClear sector member)).2
        rw [dataMarks, headMarks, Bool.or_eq_false_iff, Bool.or_eq_false_iff]
          at unmarked
        exact ⟨of_decide_eq_false unmarked.1,
          of_decide_eq_false unmarked.2.2, of_decide_eq_false unmarked.2.1⟩
      have separate := format_separate mapNodup dirNodup mapFresh dirFresh
      have marks : ∀ sector, freeMap.marked sector =
          decide (sector ∈ (freeMapSector :: mapHdr.sectors) ++
            (directorySector :: dirHdr.sectors)) := by
        intro sector
        rw [freeMarks, dataMarks, headMarks]
        exact format_marks sector
      obtain ⟨disk₀, disk₁, fileSystem, disk₂, disk₃, written₀, written₁,
          isMounted, written₂, written₃, consistent, mounted, directoryEq,
          mapHeader⟩ :=
        format_store disk (memory.skip 3) (memory.skip 6) mapWellFormed
          mapLength dirWellFormed dirLength separate
          (Directory.length_table_create (memory 0) numDirEntries)
          (Directory.heads_create (memory 0) numDirEntries)
          (freeSize.trans (dataSize.trans headSize)) marks
      refine ⟨fileSystem, disk₃, ?_, consistent, mounted, ?_, ?_⟩
      rotate_left
      · rw [directoryEq]
        exact Directory.heads_create (memory 0) numDirEntries
      · rw [mapHeader]
        exact format_mapSectors headSize headMarks mapCount mapClear mapLowest
      unfold format
      rw [created, ok_bind, marked₀, ok_bind, marked₁, ok_bind, mapAllocated,
        ok_bind]
      dsimp only
      rw [assertThat_true, ok_bind, dirAllocated, ok_bind]
      dsimp only
      rw [assertThat_true, ok_bind, written₀, ok_bind, written₁, ok_bind,
        isMounted, ok_bind, written₂, ok_bind, written₃]
      rfl

theorem Consistent.card_clearBits
    {disk : DiskImage} (consistent : Consistent disk) :
    (freeMapOf disk).clearBits.card + (ownedSectors disk).length =
      Disk.numSectors := by
  have owned : (ownedSectors disk).toFinset.card = (ownedSectors disk).length :=
    List.toFinset_card_of_nodup consistent.nodup
  have apart : Disjoint (freeMapOf disk).clearBits
      (ownedSectors disk).toFinset := by
    rw [Finset.disjoint_left]
    intro sector isClear isOwned
    exact consistent.clear_not_owned isClear (List.mem_toFinset.mp isOwned)
  have all : (freeMapOf disk).clearBits ∪ (ownedSectors disk).toFinset =
      Finset.range Disk.numSectors := by
    ext sector
    rw [Finset.mem_union, List.mem_toFinset, Bitmap.mem_clearBits,
      Finset.mem_range]
    constructor
    · rintro (⟨inside, _⟩ | isOwned)
      · exact inside
      · exact consistent.owned_inRange isOwned
    · intro inside
      rw [← consistent.marked sector inside]
      cases (freeMapOf disk).marked sector with
      | true => exact Or.inr rfl
      | false => exact Or.inl ⟨inside, rfl⟩
  rw [← owned, ← Finset.card_union_of_disjoint apart, all, Finset.card_range]

/-- A consistent disk without files has room for 1000 data sectors. -/
theorem Consistent.room_of_empty
    {disk : DiskImage} (consistent : Consistent disk)
    (empty : (directoryOf disk).heads = []) (name : List Byte)
    {sectors : Nat} (few : sectors ≤ 1000) : Room disk name sectors := by
  have unused : ∀ entry ∈ (directoryOf disk).table, entry.inUse = false := by
    intro entry member
    by_contra used
    have isHead : entry.sector.toNat ∈ (directoryOf disk).heads :=
      List.mem_map.mpr ⟨entry,
        List.mem_filter.mpr ⟨member, (Bool.not_eq_false _).mp used⟩, rfl⟩
    rw [empty] at isHead
    cases isHead
  have tableLength : (directoryOf disk).table.length = numDirEntries :=
    Directory.length_table_ofBytes _ _
  have firstMember : (directoryOf disk).table.get ⟨0, by rw [tableLength]; decide⟩ ∈
      (directoryOf disk).table := List.get_mem _ _
  refine ⟨?_, ⟨_, firstMember, unused _ firstMember⟩, ?_⟩
  · intro entry member
    unfold Directory.holds
    rw [unused entry member, Bool.false_and]
  · have ownedLength : (ownedSectors disk).length = 5 := by
      have map := (consistent.systemFiles.mapWellFormed).length_sectors
      have directory := (consistent.systemFiles.directoryWellFormed).length_sectors
      rw [consistent.mapLength] at map
      rw [consistent.directoryLength] at directory
      unfold ownedSectors heads fileSectors
      rw [empty]
      simp only [List.flatMap_cons, List.flatMap_nil, List.append_nil,
        List.length_append, List.length_cons, map, directory]
      decide
    have counted := consistent.card_clearBits
    rw [ownedLength] at counted
    simp only [Disk.numSectors, Disk.sectorsPerTrack, Disk.numTracks] at counted
    omega

end Nachos
