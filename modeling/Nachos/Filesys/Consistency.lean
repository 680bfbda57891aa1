import Nachos.Filesys.FileSystem
import Mathlib.Data.List.Nodup
import Mathlib.Data.List.Pairwise

/-!
# Consistency of the file system on disk

What the sectors of a disk stand for: the headers, the bitmap of free sectors
and the directory, each decoded from the sectors it is stored in.
-/

namespace Nachos

open Foundation
open FileSystem

def headerAt (disk : DiskImage) (sector : Nat) : FileHeader :=
  FileHeader.ofSector (disk sector)

def freeMapOf (disk : DiskImage) : Bitmap :=
  PersistentBitmap.ofBytes Disk.numSectors
    (OpenFile.fileBytes disk (headerAt disk freeMapSector))

theorem numBits_freeMapOf (disk : DiskImage) :
    (freeMapOf disk).numBits = Disk.numSectors :=
  rfl

def directoryOf (disk : DiskImage) : Directory :=
  Directory.ofBytes numDirEntries
    (OpenFile.fileBytes disk (headerAt disk directorySector))

def fileSectors (disk : DiskImage) (head : Nat) : List Nat :=
  head :: (headerAt disk head).sectors

/-- The header sectors: of the bitmap, of the directory, and of every directory
entry in use. -/
def heads (disk : DiskImage) : List Nat :=
  freeMapSector :: directorySector :: (directoryOf disk).heads

def ownedSectors (disk : DiskImage) : List Nat :=
  (heads disk).flatMap (fileSectors disk)

/-- `fileSystem` has the bitmap and the directory of `disk` open. -/
structure Mounted (fileSystem : FileSystem) (disk : DiskImage) : Prop where
  freeMapHdr : fileSystem.freeMapFile.hdr = headerAt disk freeMapSector
  directoryHdr : fileSystem.directoryFile.hdr = headerAt disk directorySector

/-- The bitmap and the directory can be read and written back. -/
structure SystemFiles (disk : DiskImage) : Prop where
  mapWellFormed : (headerAt disk freeMapSector).WellFormed
  mapLength : (headerAt disk freeMapSector).length = freeMapFileSize
  directoryWellFormed : (headerAt disk directorySector).WellFormed
  directoryLength : (headerAt disk directorySector).length = directoryFileSize
  separate :
    (fileSectors disk freeMapSector ++ fileSectors disk directorySector).Nodup

/-- The free map marks exactly the owned sectors and no sector has two
owners. -/
structure Consistent (disk : DiskImage) : Prop where
  wellFormed : ∀ head ∈ heads disk, (headerAt disk head).WellFormed
  inRange : ∀ head ∈ heads disk, head < Disk.numSectors
  mapLength : (headerAt disk freeMapSector).length = freeMapFileSize
  directoryLength : (headerAt disk directorySector).length = directoryFileSize
  nodup : (ownedSectors disk).Nodup
  marked : ∀ sector < Disk.numSectors,
    ((freeMapOf disk).marked sector = true ↔ sector ∈ ownedSectors disk)

/-! ## What depends on which sectors -/

theorem headerAt_congr
    {disk disk' : DiskImage} {sector : Nat}
    (same : disk' sector = disk sector) :
    headerAt disk' sector = headerAt disk sector := by
  unfold headerAt
  rw [same]

theorem freeMapOf_congr
    {disk disk' : DiskImage}
    (same : ∀ sector ∈ fileSectors disk freeMapSector,
      disk' sector = disk sector) :
    freeMapOf disk' = freeMapOf disk := by
  have sameHeader := headerAt_congr (same freeMapSector List.mem_cons_self)
  unfold freeMapOf
  rw [sameHeader, OpenFile.fileBytes_congr
    (fun sector member => same sector (List.mem_cons_of_mem _ member))]

theorem directoryOf_congr
    {disk disk' : DiskImage}
    (same : ∀ sector ∈ fileSectors disk directorySector,
      disk' sector = disk sector) :
    directoryOf disk' = directoryOf disk := by
  have sameHeader := headerAt_congr (same directorySector List.mem_cons_self)
  unfold directoryOf
  rw [sameHeader, OpenFile.fileBytes_congr
    (fun sector member => same sector (List.mem_cons_of_mem _ member))]

theorem Mounted.congr
    {fileSystem : FileSystem} {disk disk' : DiskImage}
    (mounted : Mounted fileSystem disk)
    (sameMap : disk' freeMapSector = disk freeMapSector)
    (sameDirectory : disk' directorySector = disk directorySector) :
    Mounted fileSystem disk' where
  freeMapHdr := by rw [headerAt_congr sameMap, mounted.freeMapHdr]
  directoryHdr := by rw [headerAt_congr sameDirectory, mounted.directoryHdr]

theorem SystemFiles.congr
    {disk disk' : DiskImage} (system : SystemFiles disk)
    (sameMap : disk' freeMapSector = disk freeMapSector)
    (sameDirectory : disk' directorySector = disk directorySector) :
    SystemFiles disk' := by
  obtain ⟨mapWellFormed, mapLength, directoryWellFormed, directoryLength,
    separate⟩ := system
  unfold fileSectors at separate
  rw [← headerAt_congr sameMap] at mapWellFormed mapLength separate
  rw [← headerAt_congr sameDirectory]
    at directoryWellFormed directoryLength separate
  exact ⟨mapWellFormed, mapLength, directoryWellFormed, directoryLength,
    separate⟩

theorem fetchHeader_eq
    (disk : DiskImage) {sector : Nat} (inRange : sector < Disk.numSectors) :
    FileHeader.fetchFrom disk sector = .ok (headerAt disk sector) := by
  unfold FileHeader.fetchFrom
  rw [SynchDisk.readSector_natCast disk inRange]
  rfl

theorem openSector_eq
    (disk : DiskImage) {sector : Nat} (inRange : sector < Disk.numSectors) :
    OpenFile.openSector disk sector = .ok ⟨headerAt disk sector, 0⟩ := by
  unfold OpenFile.openSector
  rw [fetchHeader_eq disk inRange]
  rfl

theorem mount_spec (disk : DiskImage) :
    ∃ fileSystem, mount disk = .ok fileSystem ∧ Mounted fileSystem disk := by
  have mapOpened :=
    openSector_eq disk (show freeMapSector < Disk.numSectors by decide)
  have directoryOpened :=
    openSector_eq disk (show directorySector < Disk.numSectors by decide)
  refine ⟨⟨⟨headerAt disk freeMapSector, 0⟩,
    ⟨headerAt disk directorySector, 0⟩⟩, ?_, rfl, rfl⟩
  unfold mount
  rw [mapOpened, directoryOpened]
  rfl

/-! ## Reading and writing the two system files -/

namespace SystemFiles

variable {disk : DiskImage} {fileSystem : FileSystem}

theorem map_nodup (system : SystemFiles disk) :
    (fileSectors disk freeMapSector).Nodup :=
  (List.nodup_append.mp system.separate).1

theorem directory_nodup (system : SystemFiles disk) :
    (fileSectors disk directorySector).Nodup :=
  (List.nodup_append.mp system.separate).2.1

theorem not_shared
    (system : SystemFiles disk) {sector : Nat}
    (mapSector : sector ∈ fileSectors disk freeMapSector) :
    sector ∉ fileSectors disk directorySector := by
  intro directoryMember
  exact (List.nodup_append.mp system.separate).2.2 _ mapSector _
    directoryMember rfl

theorem fetchDirectory_eq
    (system : SystemFiles disk) (mounted : Mounted fileSystem disk)
    (memory : Memory) :
    fileSystem.fetchDirectory disk memory = .ok (directoryOf disk) := by
  unfold FileSystem.fetchDirectory
  rw [Directory.fetchFrom_spec _
    (by rw [mounted.directoryHdr]; exact system.directoryWellFormed)
    (by
      rw [mounted.directoryHdr, system.directoryLength,
        Directory.length_table_create]
      rfl),
    Directory.length_table_create, mounted.directoryHdr]
  rfl

theorem fetchMap_eq
    (system : SystemFiles disk) (mounted : Mounted fileSystem disk)
    (junk : Junk) :
    PersistentBitmap.fetch fileSystem.freeMapFile disk junk Disk.numSectors =
      .ok (freeMapOf disk) := by
  rw [PersistentBitmap.fetch_spec
    (by rw [mounted.freeMapHdr]; exact system.mapWellFormed) (by decide)
    (by
      rw [mounted.freeMapHdr, system.mapLength]
      rfl),
    mounted.freeMapHdr]
  rfl

theorem writeDirectory
    (system : SystemFiles disk) (mounted : Mounted fileSystem disk)
    (memory : Memory) {directory : Directory}
    (size : directory.table.length = numDirEntries) :
    ∃ disk',
      directory.writeBack fileSystem.directoryFile disk memory = .ok disk' ∧
        (∀ sector, sector ∉ (headerAt disk directorySector).sectors →
          disk' sector = disk sector) ∧
        directoryOf disk' = directory := by
  have ownNodup := List.nodup_cons.mp system.directory_nodup
  obtain ⟨disk', written, frame, stored⟩ :=
    directory.writeBack_spec
      (by rw [mounted.directoryHdr]; exact system.directoryWellFormed)
      (by rw [mounted.directoryHdr]; exact ownNodup.2)
      (by rw [mounted.directoryHdr, system.directoryLength, size]; rfl)
      disk memory
  rw [mounted.directoryHdr] at frame stored
  refine ⟨disk', written, frame, ?_⟩
  unfold directoryOf
  rw [headerAt_congr (frame _ ownNodup.1), ← size]
  exact stored

theorem writeMap
    (system : SystemFiles disk) (mounted : Mounted fileSystem disk)
    (memory : Memory) {freeMap : Bitmap}
    (size : freeMap.numBits = Disk.numSectors) :
    ∃ disk',
      PersistentBitmap.writeBack freeMap fileSystem.freeMapFile disk memory =
          .ok disk' ∧
        (∀ sector, sector ∉ (headerAt disk freeMapSector).sectors →
          disk' sector = disk sector) ∧
        freeMapOf disk' = freeMap := by
  have ownNodup := List.nodup_cons.mp system.map_nodup
  obtain ⟨disk', written, frame, stored⟩ :=
    PersistentBitmap.writeBack_spec freeMap
      (by rw [mounted.freeMapHdr]; exact system.mapWellFormed)
      (by rw [mounted.freeMapHdr]; exact ownNodup.2)
      (by rw [mounted.freeMapHdr, system.mapLength, size]; rfl)
      disk memory
  rw [mounted.freeMapHdr] at frame stored
  refine ⟨disk', written, frame, ?_⟩
  unfold freeMapOf
  rw [headerAt_congr (frame _ ownNodup.1), ← size]
  exact stored

theorem freeMapSector_not_mem
    (system : SystemFiles disk) {sector : Nat}
    (data : sector ∈ (headerAt disk freeMapSector).sectors ∨
      sector ∈ (headerAt disk directorySector).sectors) :
    freeMapSector ≠ sector := by
  rintro rfl
  rcases data with member | member
  · exact (List.nodup_cons.mp system.map_nodup).1 member
  · exact system.not_shared List.mem_cons_self (List.mem_cons_of_mem _ member)

theorem directorySector_not_mem
    (system : SystemFiles disk) {sector : Nat}
    (data : sector ∈ (headerAt disk freeMapSector).sectors ∨
      sector ∈ (headerAt disk directorySector).sectors) :
    directorySector ≠ sector := by
  rintro rfl
  rcases data with member | member
  · exact system.not_shared (List.mem_cons_of_mem _ member) List.mem_cons_self
  · exact (List.nodup_cons.mp system.directory_nodup).1 member

/-- A write to the data sectors of the two files leaves their headers in
place. -/
theorem of_frame
    (system : SystemFiles disk) (mounted : Mounted fileSystem disk)
    {disk' : DiskImage}
    (frame : ∀ sector,
      sector ∉ (headerAt disk freeMapSector).sectors →
      sector ∉ (headerAt disk directorySector).sectors →
      disk' sector = disk sector) :
    SystemFiles disk' ∧ Mounted fileSystem disk' ∧
      headerAt disk' freeMapSector = headerAt disk freeMapSector ∧
      headerAt disk' directorySector = headerAt disk directorySector := by
  have sameMap : disk' freeMapSector = disk freeMapSector :=
    frame _
      (fun member => system.freeMapSector_not_mem (Or.inl member) rfl)
      (fun member => system.freeMapSector_not_mem (Or.inr member) rfl)
  have sameDirectory : disk' directorySector = disk directorySector :=
    frame _
      (fun member => system.directorySector_not_mem (Or.inl member) rfl)
      (fun member => system.directorySector_not_mem (Or.inr member) rfl)
  exact ⟨system.congr sameMap sameDirectory,
    mounted.congr sameMap sameDirectory,
    headerAt_congr sameMap, headerAt_congr sameDirectory⟩

theorem writeDirectory_writeMap
    (system : SystemFiles disk) (mounted : Mounted fileSystem disk)
    (memory memory' : Memory) {directory : Directory} {freeMap : Bitmap}
    (tableSize : directory.table.length = numDirEntries)
    (mapSize : freeMap.numBits = Disk.numSectors) :
    ∃ disk₁ disk₂,
      directory.writeBack fileSystem.directoryFile disk memory = .ok disk₁ ∧
        PersistentBitmap.writeBack freeMap fileSystem.freeMapFile disk₁
          memory' = .ok disk₂ ∧
        (∀ sector, sector ∉ (headerAt disk freeMapSector).sectors →
          sector ∉ (headerAt disk directorySector).sectors →
          disk₂ sector = disk sector) ∧
        directoryOf disk₂ = directory ∧
        freeMapOf disk₂ = freeMap := by
  obtain ⟨disk₁, written₁, frame₁, stored₁⟩ :=
    system.writeDirectory mounted memory tableSize
  obtain ⟨system₁, mounted₁, mapHeader, directoryHeader⟩ :=
    system.of_frame mounted (fun sector _ outside => frame₁ sector outside)
  obtain ⟨disk₂, written₂, frame₂, stored₂⟩ :=
    system₁.writeMap mounted₁ memory' mapSize
  refine ⟨disk₁, disk₂, written₁, written₂, ?_, ?_, stored₂⟩
  · intro sector outsideMap outsideDirectory
    rw [frame₂ sector (by rw [mapHeader]; exact outsideMap),
      frame₁ sector outsideDirectory]
  · rw [← stored₁]
    apply directoryOf_congr
    intro sector member
    apply frame₂
    intro mapMember
    exact system₁.not_shared (List.mem_cons_of_mem _ mapMember) member

theorem writeMap_writeDirectory
    (system : SystemFiles disk) (mounted : Mounted fileSystem disk)
    (memory memory' : Memory) {directory : Directory} {freeMap : Bitmap}
    (tableSize : directory.table.length = numDirEntries)
    (mapSize : freeMap.numBits = Disk.numSectors) :
    ∃ disk₁ disk₂,
      PersistentBitmap.writeBack freeMap fileSystem.freeMapFile disk memory =
          .ok disk₁ ∧
        directory.writeBack fileSystem.directoryFile disk₁ memory' =
          .ok disk₂ ∧
        (∀ sector, sector ∉ (headerAt disk freeMapSector).sectors →
          sector ∉ (headerAt disk directorySector).sectors →
          disk₂ sector = disk sector) ∧
        directoryOf disk₂ = directory ∧
        freeMapOf disk₂ = freeMap := by
  obtain ⟨disk₁, written₁, frame₁, stored₁⟩ :=
    system.writeMap mounted memory mapSize
  obtain ⟨system₁, mounted₁, mapHeader, directoryHeader⟩ :=
    system.of_frame mounted (fun sector outside _ => frame₁ sector outside)
  obtain ⟨disk₂, written₂, frame₂, stored₂⟩ :=
    system₁.writeDirectory mounted₁ memory' tableSize
  refine ⟨disk₁, disk₂, written₁, written₂, ?_, stored₂, ?_⟩
  · intro sector outsideMap outsideDirectory
    rw [frame₂ sector (by rw [directoryHeader]; exact outsideDirectory),
      frame₁ sector outsideMap]
  · rw [← stored₁]
    apply freeMapOf_congr
    intro sector member
    apply frame₂
    intro directoryMember
    exact system₁.not_shared member (List.mem_cons_of_mem _ directoryMember)

end SystemFiles

/-! ## Consequences of consistency -/

namespace Consistent

variable {disk : DiskImage}

theorem fileSectors_nodup
    (consistent : Consistent disk) {head : Nat} (member : head ∈ heads disk) :
    (fileSectors disk head).Nodup :=
  (List.nodup_flatMap.mp consistent.nodup).1 head member

theorem disjoint
    (consistent : Consistent disk) {head other : Nat}
    (headMember : head ∈ heads disk) (otherMember : other ∈ heads disk)
    (different : head ≠ other) :
    List.Disjoint (fileSectors disk head) (fileSectors disk other) := by
  have pairwise := (List.nodup_flatMap.mp consistent.nodup).2
  have : Std.Symm (Function.onFun List.Disjoint (fileSectors disk)) :=
    ⟨fun _ _ apart => apart.symm⟩
  exact pairwise.forall headMember otherMember different

theorem head_not_mem_sectors
    (consistent : Consistent disk) {head owner : Nat}
    (headMember : head ∈ heads disk) (ownerMember : owner ∈ heads disk) :
    head ∉ (headerAt disk owner).sectors := by
  intro data
  by_cases same : head = owner
  · subst same
    exact (List.nodup_cons.mp (consistent.fileSectors_nodup headMember)).1 data
  · exact consistent.disjoint headMember ownerMember same List.mem_cons_self
      (List.mem_cons_of_mem _ data)

theorem owned_inRange
    (consistent : Consistent disk) {sector : Nat}
    (owned : sector ∈ ownedSectors disk) : sector < Disk.numSectors := by
  obtain ⟨head, headMember, sectorMember⟩ := List.mem_flatMap.mp owned
  rcases List.mem_cons.mp sectorMember with rfl | sectorMember
  · exact consistent.inRange sector headMember
  · exact (consistent.wellFormed head headMember).inRange sector sectorMember

theorem head_owned {head : Nat} (headMember : head ∈ heads disk) :
    head ∈ ownedSectors disk :=
  List.mem_flatMap.mpr ⟨head, headMember, List.mem_cons_self⟩

theorem data_owned
    {head sector : Nat} (headMember : head ∈ heads disk)
    (data : sector ∈ (headerAt disk head).sectors) :
    sector ∈ ownedSectors disk :=
  List.mem_flatMap.mpr ⟨head, headMember, List.mem_cons_of_mem _ data⟩

theorem mapHead_mem : freeMapSector ∈ heads disk :=
  List.mem_cons_self

theorem directoryHead_mem : directorySector ∈ heads disk :=
  List.mem_cons_of_mem _ List.mem_cons_self

theorem entryHead_mem
    {head : Nat} (entry : head ∈ (directoryOf disk).heads) :
    head ∈ heads disk :=
  List.mem_cons_of_mem _ (List.mem_cons_of_mem _ entry)

theorem systemFiles (consistent : Consistent disk) : SystemFiles disk where
  mapWellFormed := consistent.wellFormed _ mapHead_mem
  mapLength := consistent.mapLength
  directoryWellFormed := consistent.wellFormed _ directoryHead_mem
  directoryLength := consistent.directoryLength
  separate := by
    rw [List.nodup_append]
    refine ⟨consistent.fileSectors_nodup mapHead_mem,
      consistent.fileSectors_nodup directoryHead_mem, ?_⟩
    rintro sector mapMember _ directoryMember rfl
    exact consistent.disjoint mapHead_mem directoryHead_mem (by decide)
      mapMember directoryMember

theorem entryHead_small
    (consistent : Consistent disk) :
    ∀ head ∈ (directoryOf disk).heads, head < 2 ^ 31 := by
  intro head entry
  exact Disk.small_of_lt (consistent.inRange head (entryHead_mem entry))

theorem clear_not_owned
    (consistent : Consistent disk) {sector : Nat}
    (clearBit : sector ∈ (freeMapOf disk).clearBits) :
    sector ∉ ownedSectors disk := by
  obtain ⟨inside, unmarked⟩ := Bitmap.mem_clearBits.mp clearBit
  intro owned
  have isMarked := (consistent.marked sector inside).mpr owned
  rw [unmarked] at isMarked
  exact Bool.false_ne_true isMarked

/-- A disk with the same header sectors, free map and directory is consistent
too, whatever the data of the files. -/
theorem of_decoded
    (consistent : Consistent disk) {disk' : DiskImage}
    (agreeHeads : ∀ head ∈ heads disk, disk' head = disk head)
    (sameMap : freeMapOf disk' = freeMapOf disk)
    (sameDirectory : directoryOf disk' = directoryOf disk) :
    Consistent disk' := by
  have sameHeads : heads disk' = heads disk := by
    unfold heads
    rw [sameDirectory]
  have sameHeader : ∀ head ∈ heads disk,
      headerAt disk' head = headerAt disk head :=
    fun head member => headerAt_congr (agreeHeads head member)
  have sameOwned : ownedSectors disk' = ownedSectors disk := by
    unfold ownedSectors
    rw [sameHeads]
    apply List.flatMap_congr
    intro head member
    unfold fileSectors
    rw [sameHeader head member]
  refine ⟨?_, ?_, ?_, ?_, ?_, ?_⟩
  · intro head member
    rw [sameHeads] at member
    rw [sameHeader head member]
    exact consistent.wellFormed head member
  · rw [sameHeads]
    exact consistent.inRange
  · rw [sameHeader _ mapHead_mem]
    exact consistent.mapLength
  · rw [sameHeader _ directoryHead_mem]
    exact consistent.directoryLength
  · rw [sameOwned]
    exact consistent.nodup
  · rw [sameOwned, sameMap]
    exact consistent.marked

/-- So is a disk that agrees on the sectors of the two system files and on the
header sectors. -/
theorem of_agreement
    (consistent : Consistent disk) {disk' : DiskImage}
    (agreeHeads : ∀ head ∈ heads disk, disk' head = disk head)
    (agreeMap : ∀ sector ∈ (headerAt disk freeMapSector).sectors,
      disk' sector = disk sector)
    (agreeDirectory : ∀ sector ∈ (headerAt disk directorySector).sectors,
      disk' sector = disk sector) :
    Consistent disk' ∧ directoryOf disk' = directoryOf disk ∧
      freeMapOf disk' = freeMapOf disk := by
  have sameMap : freeMapOf disk' = freeMapOf disk :=
    freeMapOf_congr
      (List.forall_mem_cons.mpr ⟨agreeHeads _ mapHead_mem, agreeMap⟩)
  have sameDirectory : directoryOf disk' = directoryOf disk :=
    directoryOf_congr
      (List.forall_mem_cons.mpr ⟨agreeHeads _ directoryHead_mem, agreeDirectory⟩)
  exact ⟨consistent.of_decoded agreeHeads sameMap sameDirectory, sameDirectory,
    sameMap⟩

theorem heads_perm
    {disk' : DiskImage} {sector : Nat}
    (headsPerm :
      (directoryOf disk').heads.Perm (sector :: (directoryOf disk).heads)) :
    (heads disk').Perm (sector :: heads disk) := by
  unfold heads
  calc
    (freeMapSector :: directorySector :: (directoryOf disk').heads).Perm
        (freeMapSector :: directorySector :: sector ::
          (directoryOf disk).heads) :=
      (headsPerm.cons _).cons _
    _ |>.Perm (sector :: freeMapSector :: directorySector ::
          (directoryOf disk).heads) :=
      ((List.Perm.swap _ _ _).cons _).trans (List.Perm.swap _ _ _)

theorem ownedSectors_perm
    {disk' : DiskImage} {sector : Nat}
    (headsPerm :
      (directoryOf disk').heads.Perm (sector :: (directoryOf disk).heads))
    (headers : ∀ head ∈ heads disk,
      headerAt disk' head = headerAt disk head) :
    (ownedSectors disk').Perm
      (fileSectors disk' sector ++ ownedSectors disk) := by
  have oldFiles :
      (heads disk).flatMap (fileSectors disk') = ownedSectors disk := by
    apply List.flatMap_congr
    intro head member
    unfold fileSectors
    rw [headers head member]
  rw [← oldFiles, ← List.flatMap_cons]
  exact (heads_perm headsPerm).flatMap_right _

theorem of_added
    (consistent : Consistent disk) {disk' : DiskImage} {sector : Nat}
    (headsPerm :
      (directoryOf disk').heads.Perm (sector :: (directoryOf disk).heads))
    (headers : ∀ head ∈ heads disk, headerAt disk' head = headerAt disk head)
    (wellFormed : (headerAt disk' sector).WellFormed)
    (ownNodup : (fileSectors disk' sector).Nodup)
    (allClear : ∀ other ∈ fileSectors disk' sector,
      other ∈ (freeMapOf disk).clearBits)
    (marks : ∀ other, (freeMapOf disk').marked other =
      (decide (other ∈ fileSectors disk' sector) ||
        (freeMapOf disk).marked other)) :
    Consistent disk' := by
  have allHeads := heads_perm headsPerm
  have ownedPerm := ownedSectors_perm headsPerm headers
  refine ⟨?_, ?_, ?_, ?_, ?_, ?_⟩
  · intro head member
    rcases List.mem_cons.mp (allHeads.mem_iff.mp member) with rfl | member
    · exact wellFormed
    · rw [headers head member]
      exact consistent.wellFormed head member
  · intro head member
    rcases List.mem_cons.mp (allHeads.mem_iff.mp member) with rfl | member
    · exact (Bitmap.mem_clearBits.mp (allClear head List.mem_cons_self)).1
    · exact consistent.inRange head member
  · rw [headers _ mapHead_mem]
    exact consistent.mapLength
  · rw [headers _ directoryHead_mem]
    exact consistent.directoryLength
  · rw [ownedPerm.nodup_iff, List.nodup_append]
    refine ⟨ownNodup, consistent.nodup, ?_⟩
    rintro other own _ old rfl
    exact consistent.clear_not_owned (allClear other own) old
  · intro other inside
    rw [marks, ownedPerm.mem_iff, List.mem_append, Bool.or_eq_true,
      decide_eq_true_eq, consistent.marked other inside]

theorem of_removed
    (consistent : Consistent disk) {disk' : DiskImage} {sector : Nat}
    (headsPerm :
      (directoryOf disk).heads.Perm (sector :: (directoryOf disk').heads))
    (headers : ∀ head ∈ heads disk, headerAt disk' head = headerAt disk head)
    (marks : ∀ other, (freeMapOf disk').marked other =
      (!decide (other ∈ fileSectors disk sector) &&
        (freeMapOf disk).marked other)) :
    Consistent disk' := by
  have kept : ∀ head ∈ heads disk', head ∈ heads disk := by
    intro head member
    exact (heads_perm headsPerm).mem_iff.mpr (List.mem_cons_of_mem _ member)
  have ownedPerm := ownedSectors_perm headsPerm
    (fun head member => (headers head (kept head member)).symm)
  have parts := consistent.nodup
  rw [ownedPerm.nodup_iff, List.nodup_append] at parts
  refine ⟨?_, ?_, ?_, ?_, ?_, ?_⟩
  · intro head member
    rw [headers head (kept head member)]
    exact consistent.wellFormed head (kept head member)
  · intro head member
    exact consistent.inRange head (kept head member)
  · rw [headers _ mapHead_mem]
    exact consistent.mapLength
  · rw [headers _ directoryHead_mem]
    exact consistent.directoryLength
  · exact parts.2.1
  · intro other inside
    have oldMark := consistent.marked other inside
    rw [ownedPerm.mem_iff, List.mem_append] at oldMark
    rw [marks, Bool.and_eq_true, Bool.not_eq_true', decide_eq_false_iff_not,
      oldMark]
    constructor
    · rintro ⟨notOwn, own | owned⟩
      · exact absurd own notOwn
      · exact owned
    · intro owned
      refine ⟨?_, Or.inr owned⟩
      intro own
      exact parts.2.2 other own other owned rfl

end Consistent

end Nachos
