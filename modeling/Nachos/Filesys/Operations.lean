import Nachos.Filesys.Consistency

/-!
# The operations keep the disk consistent
-/

namespace Nachos

open Foundation
open FileSystem

def KeepsFiles (disk disk' : DiskImage) (gone : List Nat) : Prop :=
  ∀ head ∈ (directoryOf disk).heads, head ∉ gone →
    head ∈ (directoryOf disk').heads ∧
      headerAt disk' head = headerAt disk head

theorem length_replaced_table
    {disk : DiskImage} {test : DirectoryEntry → Bool}
    {before after : List DirectoryEntry} {entry : DirectoryEntry}
    (first : FirstMatch test (directoryOf disk).table before entry after)
    (updated : DirectoryEntry) :
    (Directory.mk (before ++ updated :: after)).table.length = numDirEntries :=
  (first.length_replaced updated).trans (Directory.length_table_ofBytes _ _)

namespace Consistent

variable {disk : DiskImage} {fileSystem : FileSystem}

theorem head_frame
    (consistent : Consistent disk) {disk' : DiskImage}
    (frame : ∀ sector,
      sector ∉ (headerAt disk freeMapSector).sectors →
      sector ∉ (headerAt disk directorySector).sectors →
      disk' sector = disk sector)
    {head : Nat} (member : head ∈ heads disk) :
    disk' head = disk head :=
  frame head
    (consistent.head_not_mem_sectors member mapHead_mem)
    (consistent.head_not_mem_sectors member directoryHead_mem)

theorem of_owned
    (consistent : Consistent disk) {disk' : DiskImage}
    (agree : ∀ sector ∈ ownedSectors disk, disk' sector = disk sector) :
    Consistent disk' ∧ directoryOf disk' = directoryOf disk ∧
      freeMapOf disk' = freeMapOf disk :=
  consistent.of_agreement
    (fun head member => agree head (head_owned member))
    (fun other member => agree other (data_owned mapHead_mem member))
    (fun other member => agree other (data_owned directoryHead_mem member))

/-- Storing the header of a new file in a sector that was free changes neither
the system files nor any header. -/
theorem update_free
    (consistent : Consistent disk) {sector : Nat}
    (free : sector ∉ ownedSectors disk) (data : Sector) :
    Consistent (Function.update disk sector data) ∧
      heads (Function.update disk sector data) = heads disk ∧
      ∀ owned ∈ ownedSectors disk,
        Function.update disk sector data owned = disk owned := by
  have agree : ∀ owned ∈ ownedSectors disk,
      Function.update disk sector data owned = disk owned := by
    intro owned member
    apply Function.update_of_ne
    rintro rfl
    exact free member
  obtain ⟨consistent', sameDirectory, _⟩ := consistent.of_owned agree
  refine ⟨consistent', ?_, agree⟩
  unfold heads
  rw [sameDirectory]

theorem entry_ne_system
    (consistent : Consistent disk) {entry : Nat}
    (member : entry ∈ (directoryOf disk).heads) :
    entry ≠ freeMapSector ∧ entry ≠ directorySector := by
  have headsNodup : (heads disk).Nodup := by
    apply (List.nodup_flatMap.mp consistent.nodup).2.imp
    rintro head _ apart rfl
    exact apart List.mem_cons_self List.mem_cons_self
  obtain ⟨mapApart, tailNodup⟩ := List.nodup_cons.mp headsNodup
  obtain ⟨directoryApart, _⟩ := List.nodup_cons.mp tailNodup
  constructor
  · rintro rfl
    exact mapApart (List.mem_cons_of_mem _ member)
  · rintro rfl
    exact directoryApart member

/-- Writes to the data sectors of one file keep the disk consistent. -/
theorem write_data
    (consistent : Consistent disk) {disk' : DiskImage} {entry : Nat}
    (member : entry ∈ (directoryOf disk).heads)
    (frame : ∀ sector, sector ∉ (headerAt disk entry).sectors →
      disk' sector = disk sector) :
    Consistent disk' ∧
      directoryOf disk' = directoryOf disk ∧ freeMapOf disk' = freeMapOf disk ∧
      ∀ head ∈ heads disk, disk' head = disk head := by
  have entryMember := entryHead_mem member
  obtain ⟨notMap, notDirectory⟩ := consistent.entry_ne_system member
  have agreeHeads : ∀ head ∈ heads disk, disk' head = disk head :=
    fun head headMember =>
      frame head (consistent.head_not_mem_sectors headMember entryMember)
  have agreeOther : ∀ other ∈ heads disk, other ≠ entry →
      ∀ sector ∈ (headerAt disk other).sectors,
        disk' sector = disk sector := by
    intro other otherMember different sector data
    apply frame
    intro own
    exact consistent.disjoint otherMember entryMember different
      (List.mem_cons_of_mem _ data) (List.mem_cons_of_mem _ own)
  obtain ⟨consistent', sameDirectory, sameMap⟩ :=
    consistent.of_agreement agreeHeads
      (agreeOther _ mapHead_mem notMap.symm)
      (agreeOther _ directoryHead_mem notDirectory.symm)
  exact ⟨consistent', sameDirectory, sameMap, agreeHeads⟩

end Consistent

/-! ## `Create` -/

/-- `Create` has what it needs: the name is not in the directory, an entry of
the table is free, and so are a header sector and `sectors` data sectors. -/
structure Room (disk : DiskImage) (name : List Byte) (sectors : Nat) : Prop where
  absent : ∀ entry ∈ (directoryOf disk).table,
    Directory.holds name entry = false
  entry : ∃ entry ∈ (directoryOf disk).table, entry.inUse = false
  clear : 1 + sectors ≤ (freeMapOf disk).clearBits.card

structure Created
    (disk : DiskImage) (name : List Byte) (head : Nat) (header : FileHeader)
    (disk' : DiskImage) : Prop where
  consistent : Consistent disk'
  stored : headerAt disk' head = header
  fresh : ∀ sector ∈ head :: header.sectors,
    sector ∈ (freeMapOf disk).clearBits
  marks : ∀ other, (freeMapOf disk').marked other =
    (decide (other ∈ head :: header.sectors) || (freeMapOf disk).marked other)
  absent : ∀ entry ∈ (directoryOf disk).table,
    Directory.holds name entry = false
  entered : ∃ before free after, free.inUse = false ∧
    (directoryOf disk).table = before ++ free :: after ∧
    (directoryOf disk').table =
      before ++ Directory.filled name head free :: after
  headsPerm : (directoryOf disk').heads.Perm (head :: (directoryOf disk).heads)
  frame : ∀ sector, sector ≠ head →
    sector ∉ (headerAt disk freeMapSector).sectors →
    sector ∉ (headerAt disk directorySector).sectors →
    disk' sector = disk sector

namespace Consistent

variable {disk : DiskImage} {fileSystem : FileSystem}

/-- The writes at the end of a successful `Create`, of any header in a sector
that was free. -/
theorem store_header
    (consistent : Consistent disk) (mounted : Mounted fileSystem disk)
    (memory memory' : Memory) {sector : Nat}
    (sectorClear : sector ∈ (freeMapOf disk).clearBits) (header : FileHeader)
    {directory : Directory} {freeMap : Bitmap}
    (tableSize : directory.table.length = numDirEntries)
    (mapSize : freeMap.numBits = Disk.numSectors) :
    ∃ disk₀ disk₁ disk₂,
      header.writeBack disk sector = .ok disk₀ ∧
        directory.writeBack fileSystem.directoryFile disk₀ memory =
          .ok disk₁ ∧
        PersistentBitmap.writeBack freeMap fileSystem.freeMapFile disk₁
          memory' = .ok disk₂ ∧
        Mounted fileSystem disk₂ ∧ headerAt disk₂ sector = header ∧
        directoryOf disk₂ = directory ∧ freeMapOf disk₂ = freeMap ∧
        (∀ head ∈ heads disk, headerAt disk₂ head = headerAt disk head) ∧
        ∀ other, other ≠ sector →
          other ∉ (headerAt disk freeMapSector).sectors →
          other ∉ (headerAt disk directorySector).sectors →
          disk₂ other = disk other := by
  have free := consistent.clear_not_owned sectorClear
  obtain ⟨disk₀, stored⟩ :
      ∃ disk₀, disk₀ =
        Function.update disk sector ⟨header.toBytes, header.length_toBytes⟩ :=
    ⟨_, rfl⟩
  have headerWritten : header.writeBack disk sector = .ok disk₀ := by
    rw [stored]
    exact SynchDisk.writeSector_natCast disk
      (Bitmap.mem_clearBits.mp sectorClear).1 header.length_toBytes
  obtain ⟨consistent₀, sameHeads, agree⟩ :=
    consistent.update_free free ⟨header.toBytes, header.length_toBytes⟩
  rw [← stored] at consistent₀ sameHeads agree
  have sameHead : ∀ head ∈ heads disk, disk₀ head = disk head :=
    fun head member => agree head (head_owned member)
  have mounted₀ : Mounted fileSystem disk₀ :=
    mounted.congr (sameHead _ mapHead_mem) (sameHead _ directoryHead_mem)
  obtain ⟨disk₁, disk₂, written₁, written₂, frame, directoryEq, mapEq⟩ :=
    consistent₀.systemFiles.writeDirectory_writeMap mounted₀ memory memory'
      tableSize mapSize
  refine ⟨disk₀, disk₁, disk₂, headerWritten, written₁, written₂,
    (consistent₀.systemFiles.of_frame mounted₀ frame).2.1, ?_, directoryEq,
    mapEq, ?_, ?_⟩
  · have notData : ∀ owner ∈ heads disk,
        sector ∉ (headerAt disk₀ owner).sectors := by
      intro owner member data
      rw [headerAt_congr (sameHead owner member)] at data
      exact free (data_owned member data)
    rw [headerAt_congr (frame sector (notData _ mapHead_mem)
      (notData _ directoryHead_mem))]
    unfold headerAt
    rw [stored, Function.update_self]
    exact FileHeader.ofSector_toBytes header
  · intro head member
    have unwritten : disk₂ head = disk₀ head :=
      consistent₀.head_frame frame (by rw [sameHeads]; exact member)
    exact headerAt_congr (unwritten.trans (sameHead head member))
  · intro other notHead notMap notDirectory
    rw [frame other
      (by rw [headerAt_congr (sameHead _ mapHead_mem)]; exact notMap)
      (by rw [headerAt_congr (sameHead _ directoryHead_mem)]; exact notDirectory),
      stored, Function.update_of_ne notHead]

/-- `Create` up to the call of `Allocate`: it has failed, or a header sector and
a directory entry are taken. -/
theorem create_stages
    (consistent : Consistent disk) (mounted : Mounted fileSystem disk)
    (memory : Memory) (name : List Byte) (initialSize : Int) :
    (¬Room disk name 0 ∧
        fileSystem.create disk memory name initialSize = .ok (false, disk)) ∨
      Room disk name 0 ∧
      ∃ (sector : Nat) (headMap : Bitmap) (before : List DirectoryEntry)
        (free : DirectoryEntry) (after : List DirectoryEntry),
        FirstMatch (fun entry => !entry.inUse) (directoryOf disk).table before
          free after ∧
        (freeMapOf disk).findAndSet = .ok (↑sector, headMap) ∧
        sector ∈ (freeMapOf disk).clearBits ∧
        headMap.numBits = Disk.numSectors ∧
        (∀ other, headMap.marked other =
          (decide (other = sector) || (freeMapOf disk).marked other)) ∧
        fileSystem.create disk memory name initialSize = do
          let (allocated, hdr, freeMap) ←
            (newHeader (memory 3)).allocate headMap initialSize
          if !allocated then
            return (false, disk)
          else
            let disk ← hdr.writeBack disk sector
            let disk ←
              (Directory.mk (before ++
                Directory.filled name sector free :: after)).writeBack
                fileSystem.directoryFile disk (memory.skip 4)
            let disk ←
              PersistentBitmap.writeBack freeMap fileSystem.freeMapFile disk
                (memory.skip 7)
            return (true, disk) := by
  unfold FileSystem.create
  rw [consistent.systemFiles.fetchDirectory_eq mounted, ok_bind]
  rcases Directory.find_cases (directoryOf disk) name
      consistent.entryHead_small with
    ⟨notFound, absent⟩ | ⟨before, entry, after, first, found⟩
  · rw [notFound, if_neg (by decide),
      consistent.systemFiles.fetchMap_eq mounted, ok_bind]
    rcases Bitmap.findAndSet_cases (freeMapOf disk) with
      ⟨sector, headMap, inside, clearBit, _, taken, headSize, headMarks⟩ |
        ⟨allMarked, full⟩
    · have sectorClear : sector ∈ (freeMapOf disk).clearBits :=
        Bitmap.mem_clearBits.mpr ⟨inside, clearBit⟩
      have sectorSmall : sector < 2 ^ 31 := Disk.small_of_lt inside
      simp only [taken, ok_bind]
      rw [if_neg (by omega)]
      rcases firstMatch_cases (fun entry : DirectoryEntry => !entry.inUse)
          (directoryOf disk).table with
        noEntry | ⟨before, free, after, first⟩
      · left
        refine ⟨?_, ?_⟩
        · rintro ⟨_, ⟨entry, member, unused⟩, _⟩
          have used := noEntry entry member
          rw [unused] at used
          cases used
        · rw [Directory.add_of_full _ noEntry]
          rfl
      · right
        have unused : free.inUse = false := by simpa using first.passes
        refine ⟨⟨absent, ⟨free, first.mem, unused⟩,
          Finset.card_pos.mpr ⟨sector, sectorClear⟩⟩,
          sector, headMap, before, free, after, first, rfl, sectorClear,
          headSize, headMarks, ?_⟩
        rw [(Directory.add_firstMatch sectorSmall absent first).1]
        rfl
    · left
      refine ⟨?_, ?_⟩
      · rintro ⟨_, _, clear⟩
        obtain ⟨which, isClear⟩ := Finset.card_pos.mp clear
        obtain ⟨inside, clearBit⟩ := Bitmap.mem_clearBits.mp isClear
        rw [allMarked which inside] at clearBit
        cases clearBit
      · rw [full]
        rfl
  · left
    refine ⟨?_, ?_⟩
    · intro room
      have isHeld := first.passes
      rw [room.absent entry first.mem] at isHeld
      cases isHeld
    · rw [found, if_pos (by omega)]
      rfl

/-- The header sector and the data sectors of a new file are clear in the free
map, differ, and are all that is marked in the end. -/
theorem owned_of_allocated
    {map headMap freeMap : Bitmap} {sector : Nat} {data : List Nat}
    (sectorClear : sector ∈ map.clearBits)
    (headClear : headMap.clearBits = map.clearBits.erase sector)
    (headMarks : ∀ other, headMap.marked other =
      (decide (other = sector) || map.marked other))
    (dataNodup : data.Nodup)
    (dataClear : ∀ other ∈ data, other ∈ headMap.clearBits)
    (marks : ∀ other, freeMap.marked other =
      (decide (other ∈ data) || headMap.marked other)) :
    (sector :: data).Nodup ∧
      (∀ other ∈ sector :: data, other ∈ map.clearBits) ∧
      ∀ other, freeMap.marked other =
        (decide (other ∈ sector :: data) || map.marked other) := by
  rw [headClear] at dataClear
  refine ⟨List.nodup_cons.mpr ⟨?_, dataNodup⟩, ?_, ?_⟩
  · intro member
    exact Finset.notMem_erase sector _ (dataClear sector member)
  · intro other member
    rcases List.mem_cons.mp member with rfl | member
    · exact sectorClear
    · exact Finset.mem_of_mem_erase (dataClear other member)
  · intro other
    rw [marks, headMarks, ← Bool.or_assoc]
    simp only [List.mem_cons, Bool.decide_or,
      Bool.or_comm (decide (other = sector))]

/-- `Create` on a consistent disk: it succeeds just if there is room, and
changes nothing if it fails. -/
theorem create_spec
    (consistent : Consistent disk) (mounted : Mounted fileSystem disk)
    (memory : Memory) (name : List Byte)
    {initialSize : Nat} (allowed : initialSize ≤ maxFileSize) :
    (¬Room disk name (FileHeader.sectorsFor initialSize) ∧
        fileSystem.create disk memory name initialSize = .ok (false, disk)) ∨
      Room disk name (FileHeader.sectorsFor initialSize) ∧
      ∃ (disk' : DiskImage) (head : Nat) (header : FileHeader)
        (headMap freeMap : Bitmap),
        fileSystem.create disk memory name initialSize = .ok (true, disk') ∧
        (freeMapOf disk).findAndSet = .ok (↑head, headMap) ∧
        (newHeader (memory 3)).allocate headMap initialSize =
          .ok (true, header, freeMap) ∧
        header.length = initialSize ∧ Mounted fileSystem disk' ∧
        Created disk name head header disk' := by
  rcases consistent.create_stages mounted memory name initialSize with
    ⟨noRoom, failed⟩ |
      ⟨room, sector, headMap, before, free, after, first, taken, sectorClear,
        headSize, headMarks, created⟩
  · left
    refine ⟨fun room => noRoom ⟨room.absent, room.entry, ?_⟩, failed⟩
    have clear := room.clear
    omega
  · have headClear : headMap.clearBits = (freeMapOf disk).clearBits.erase sector :=
      Bitmap.clearBits_of_marked headSize headMarks
    have oneLess : headMap.clearBits.card + 1 =
        (freeMapOf disk).clearBits.card := by
      rw [headClear]
      exact Finset.card_erase_add_one sectorClear
    have sectorSmall : sector < 2 ^ 31 :=
      Disk.small_of_lt (Bitmap.mem_clearBits.mp sectorClear).1
    rcases (newHeader (memory 3)).allocate_spec headMap allowed
        (by rw [headSize]) with
      ⟨few, header, tooFew⟩ |
        ⟨enough, header, freeMap, allocated, wellFormed, lengthEq, _, dataNodup,
          dataClear, _, mapSize, marks⟩
    · left
      refine ⟨?_, ?_⟩
      · intro larger
        have clear := larger.clear
        omega
      · rw [created, tooFew]
        rfl
    · right
      obtain ⟨ownNodup, allClear, allMarks⟩ :=
        owned_of_allocated sectorClear headClear headMarks dataNodup dataClear
          marks
      have headsPerm :=
        (Directory.add_firstMatch sectorSmall room.absent first).2
      obtain ⟨disk₀, disk₁, disk₂, written₀, written₁, written₂, mounted₂,
          headerEq, directoryEq, mapEq, headers, frame⟩ :=
        consistent.store_header mounted (memory.skip 4) (memory.skip 7)
          sectorClear header
          (length_replaced_table first (Directory.filled name sector free))
          (mapSize.trans headSize)
      have sectorsEq : fileSectors disk₂ sector = sector :: header.sectors := by
        unfold fileSectors
        rw [headerEq]
      have consistent₂ : Consistent disk₂ := by
        apply consistent.of_added
        · rw [directoryEq]
          exact headsPerm
        · exact headers
        · rw [headerEq]
          exact wellFormed
        · rw [sectorsEq]
          exact ownNodup
        · rw [sectorsEq]
          exact allClear
        · rw [sectorsEq, mapEq]
          exact allMarks
      refine ⟨⟨room.absent, room.entry, by omega⟩, disk₂, sector, header,
        headMap, freeMap, ?_, taken, allocated, lengthEq, mounted₂,
        ⟨consistent₂, headerEq, allClear, ?_, room.absent, ?_, ?_, frame⟩⟩
      · rw [created, allocated, ok_bind]
        dsimp only
        rw [Bool.not_true, if_neg Bool.false_ne_true, written₀, ok_bind, written₁,
          ok_bind, written₂]
        rfl
      · rw [mapEq]
        exact allMarks
      · refine ⟨before, free, after, by simpa using first.passes, first.split, ?_⟩
        rw [directoryEq]
      · rw [directoryEq]
        exact headsPerm

end Consistent

namespace Created

variable {disk disk' : DiskImage} {name : List Byte} {head : Nat}
variable {header : FileHeader}

theorem head_small (created : Created disk name head header disk') :
    head < 2 ^ 31 :=
  Disk.small_of_lt
    (Bitmap.mem_clearBits.mp (created.fresh head List.mem_cons_self)).1

theorem frame_owned
    (created : Created disk name head header disk')
    (consistent : Consistent disk) {sector : Nat}
    (owned : sector ∈ ownedSectors disk)
    (notMap : sector ∉ (headerAt disk freeMapSector).sectors)
    (notDirectory : sector ∉ (headerAt disk directorySector).sectors) :
    disk' sector = disk sector := by
  refine created.frame sector ?_ notMap notDirectory
  rintro rfl
  exact consistent.clear_not_owned (created.fresh _ List.mem_cons_self) owned

theorem keepsHead
    (created : Created disk name head header disk')
    (consistent : Consistent disk) {other : Nat} (member : other ∈ heads disk) :
    headerAt disk' other = headerAt disk other :=
  headerAt_congr (created.frame_owned consistent
    (Consistent.head_owned member)
    (consistent.head_not_mem_sectors member Consistent.mapHead_mem)
    (consistent.head_not_mem_sectors member Consistent.directoryHead_mem))

theorem keepsFiles
    (created : Created disk name head header disk')
    (consistent : Consistent disk) : KeepsFiles disk disk' [] :=
  fun _ member _ => ⟨created.headsPerm.mem_iff.mpr
    (List.mem_cons_of_mem _ member),
    created.keepsHead consistent (Consistent.entryHead_mem member)⟩

theorem find
    (created : Created disk name head header disk') (other : List Byte) :
    (directoryOf disk').find other =
      if strncmpEq fileNameMaxLen name other = true then (head : Int)
      else (directoryOf disk).find other := by
  obtain ⟨before, free, after, unused, split, split'⟩ := created.entered
  have absent := created.absent
  rw [split] at absent
  have found := Directory.find_filled created.head_small absent unused other
  rw [← split, ← split'] at found
  exact found

theorem member (created : Created disk name head header disk') :
    head ∈ (directoryOf disk').heads :=
  created.headsPerm.mem_iff.mpr List.mem_cons_self

theorem found (created : Created disk name head header disk') :
    (directoryOf disk').find name = head := by
  rw [created.find, if_pos (strncmpEq_iff.mpr rfl)]

end Created

/-! ## `Open` and `Remove` -/

/-- `disk'` is `disk` without the file of the first entry that has the name. -/
structure Removed
    (disk : DiskImage) (name : List Byte) (head : Nat) (disk' : DiskImage) :
    Prop where
  consistent : Consistent disk'
  found : (directoryOf disk).find name = head
  member : head ∈ (directoryOf disk).heads
  marks : ∀ other, (freeMapOf disk').marked other =
    (!decide (other ∈ fileSectors disk head) && (freeMapOf disk).marked other)
  released : ∃ before entry after,
    FirstMatch (Directory.holds name) (directoryOf disk).table before entry
      after ∧
    (directoryOf disk').table = before ++ Directory.released entry :: after
  headsPerm : (directoryOf disk).heads.Perm (head :: (directoryOf disk').heads)
  frame : ∀ sector,
    sector ∉ (headerAt disk freeMapSector).sectors →
    sector ∉ (headerAt disk directorySector).sectors →
    disk' sector = disk sector

namespace Consistent

variable {disk : DiskImage} {fileSystem : FileSystem}

theorem firstMatch_head
    {name : List Byte} {before after : List DirectoryEntry}
    {entry : DirectoryEntry}
    (first : FirstMatch (Directory.holds name) (directoryOf disk).table before
      entry after) :
    entry.sector.toNat ∈ (directoryOf disk).heads :=
  (Directory.remove_firstMatch first).2.mem_iff.mpr List.mem_cons_self

/-- `Open` gives the header of the entry with the name, or `NULL`. -/
theorem openFile_spec
    (consistent : Consistent disk) (mounted : Mounted fileSystem disk)
    (memory : Memory) (name : List Byte) :
    ((directoryOf disk).find name = -1 ∧
        fileSystem.openFile disk memory name = .ok none) ∨
      ∃ head : Nat,
        (directoryOf disk).find name = head ∧
          head ∈ (directoryOf disk).heads ∧
          fileSystem.openFile disk memory name =
            .ok (some ⟨headerAt disk head, 0⟩) := by
  unfold FileSystem.openFile
  rw [consistent.systemFiles.fetchDirectory_eq mounted, ok_bind]
  rcases Directory.find_cases (directoryOf disk) name
      consistent.entryHead_small with
    ⟨notFound, _⟩ | ⟨before, entry, after, first, found⟩
  · left
    rw [notFound]
    exact ⟨rfl, rfl⟩
  · right
    have member := firstMatch_head first
    refine ⟨_, found, member, ?_⟩
    simp only [found]
    rw [if_pos (Int.natCast_nonneg _)]
    rw [openSector_eq disk (consistent.inRange _ (entryHead_mem member))]
    rfl

/-- `Remove` finds no such name and changes nothing, or removes the file. -/
theorem remove_spec
    (consistent : Consistent disk) (mounted : Mounted fileSystem disk)
    (memory : Memory) (name : List Byte) :
    ((directoryOf disk).find name = -1 ∧
        fileSystem.remove disk memory name = .ok (false, disk)) ∨
      ∃ disk' head,
        fileSystem.remove disk memory name = .ok (true, disk') ∧
          Mounted fileSystem disk' ∧ Removed disk name head disk' := by
  unfold FileSystem.remove
  rw [consistent.systemFiles.fetchDirectory_eq mounted, ok_bind]
  rcases Directory.find_cases (directoryOf disk) name
      consistent.entryHead_small with
    ⟨notFound, _⟩ | ⟨before, entry, after, first, found⟩
  · left
    rw [notFound]
    exact ⟨rfl, rfl⟩
  · right
    obtain ⟨removed, headsPerm⟩ := Directory.remove_firstMatch first
    have member := firstMatch_head first
    have headMember := entryHead_mem member
    have ranged := consistent.inRange _ headMember
    generalize entry.sector.toNat = head at *
    have headerRead := fetchHeader_eq disk ranged
    have wellFormed := consistent.wellFormed head headMember
    obtain ⟨dataMap, deallocated, dataSize, dataMarks⟩ :=
      FileHeader.deallocate_spec wellFormed
        (numBits_freeMapOf disk)
        (List.nodup_cons.mp (consistent.fileSectors_nodup headMember)).2
        (fun sector data =>
          (consistent.marked sector (wellFormed.inRange sector data)).mpr
            (data_owned headMember data))
    obtain ⟨freeMap, cleared, mapSize, marks⟩ :=
      dataMap.clear_spec (show head < dataMap.numBits by
        rw [dataSize]
        exact ranged)
    obtain ⟨disk₁, disk₂, written₁, written₂, frame, directoryEq, mapEq⟩ :=
      consistent.systemFiles.writeMap_writeDirectory mounted
        (memory.skip 3) (memory.skip 6)
        (length_replaced_table first (Directory.released entry))
        (mapSize.trans dataSize)
    have headers : ∀ other ∈ heads disk,
        headerAt disk₂ other = headerAt disk other :=
      fun other otherMember =>
        headerAt_congr (consistent.head_frame frame otherMember)
    have allMarks : ∀ other, (freeMapOf disk₂).marked other =
        (!decide (other ∈ fileSectors disk head) &&
          (freeMapOf disk).marked other) := by
      intro other
      rw [mapEq, marks, dataMarks, ← Bool.and_assoc]
      unfold fileSectors
      simp [List.mem_cons]
    rw [← directoryEq] at headsPerm
    refine ⟨disk₂, head, ?_,
      (consistent.systemFiles.of_frame mounted frame).2.1,
      ⟨consistent.of_removed headsPerm headers allMarks, found, member, allMarks,
        ⟨before, entry, after, first, by rw [directoryEq]⟩, headsPerm, frame⟩⟩
    simp only [found]
    rw [if_neg (by omega), headerRead, ok_bind,
      consistent.systemFiles.fetchMap_eq mounted, ok_bind, deallocated,
      ok_bind, cleared, ok_bind, removed]
    dsimp only
    rw [written₁, ok_bind, written₂]
    rfl

end Consistent

namespace Removed

variable {disk disk' : DiskImage} {name : List Byte} {head : Nat}

theorem keepsHead
    (removed : Removed disk name head disk') (consistent : Consistent disk)
    {other : Nat} (member : other ∈ heads disk) :
    headerAt disk' other = headerAt disk other :=
  headerAt_congr (removed.frame other
    (consistent.head_not_mem_sectors member Consistent.mapHead_mem)
    (consistent.head_not_mem_sectors member Consistent.directoryHead_mem))

theorem keepsFiles
    (removed : Removed disk name head disk') (consistent : Consistent disk) :
    KeepsFiles disk disk' [head] := by
  intro other member notGone
  refine ⟨?_, removed.keepsHead consistent (Consistent.entryHead_mem member)⟩
  rcases List.mem_cons.mp (removed.headsPerm.mem_iff.mp member) with
    same | kept
  · rw [same] at notGone
    exact absurd List.mem_cons_self notGone
  · exact kept

end Removed

end Nachos
