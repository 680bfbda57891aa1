import Nachos.Filesys.Format

/-!
# When `Create` succeeds, and what it leaves
-/

namespace Nachos

open Foundation
open FileSystem
open Disk (sectorSize)

structure SameFile (disk disk' : DiskImage) (head : Nat) : Prop where
  entry : head ∈ (directoryOf disk').heads
  header : headerAt disk' head = headerAt disk head
  bytes : OpenFile.fileBytes disk' (headerAt disk' head) =
    OpenFile.fileBytes disk (headerAt disk head)

theorem sameFile_of_agreement
    {disk disk' : DiskImage} {head : Nat}
    (entry : head ∈ (directoryOf disk').heads)
    (agree : ∀ sector ∈ fileSectors disk head, disk' sector = disk sector) :
    SameFile disk disk' head := by
  have header := headerAt_congr (agree head List.mem_cons_self)
  refine ⟨entry, header, ?_⟩
  rw [header]
  exact OpenFile.fileBytes_congr fun sector member =>
    agree sector (List.mem_cons_of_mem _ member)

theorem SameFile.trans
    {disk disk' disk'' : DiskImage} {head : Nat}
    (first : SameFile disk disk' head) (second : SameFile disk' disk'' head) :
    SameFile disk disk'' head where
  entry := second.entry
  header := second.header.trans first.header
  bytes := second.bytes.trans first.bytes

theorem Consistent.sameFile_of_write
    {disk disk' : DiskImage} (consistent : Consistent disk) {entry other : Nat}
    (member : entry ∈ (directoryOf disk).heads)
    (frame : ∀ sector, sector ∉ (headerAt disk entry).sectors →
      disk' sector = disk sector)
    (otherMember : other ∈ (directoryOf disk).heads) (different : other ≠ entry) :
    SameFile disk disk' other := by
  apply sameFile_of_agreement
  · rw [(consistent.write_data member frame).2.1]
    exact otherMember
  · intro sector own
    apply frame
    intro data
    exact consistent.disjoint (entryHead_mem otherMember)
      (entryHead_mem member) different own (List.mem_cons_of_mem _ data)

theorem Consistent.entry_apart
    {disk : DiskImage} (consistent : Consistent disk) {entry sector : Nat}
    (member : entry ∈ (directoryOf disk).heads)
    (own : sector ∈ fileSectors disk entry) :
    sector ∉ fileSectors disk freeMapSector ∧
      sector ∉ fileSectors disk directorySector := by
  obtain ⟨notMap, notDirectory⟩ := consistent.entry_ne_system member
  have entryMember := entryHead_mem member
  exact ⟨consistent.disjoint entryMember mapHead_mem notMap own,
    consistent.disjoint entryMember directoryHead_mem notDirectory own⟩

theorem Created.sameFile
    {disk disk' : DiskImage} {name : List Byte} {head : Nat}
    {header : FileHeader} (created : Created disk name head header disk')
    (consistent : Consistent disk) {other : Nat}
    (member : other ∈ (directoryOf disk).heads) : SameFile disk disk' other := by
  apply sameFile_of_agreement
  · exact created.headsPerm.mem_iff.mpr (List.mem_cons_of_mem _ member)
  · intro sector own
    obtain ⟨notMap, notDirectory⟩ := consistent.entry_apart member own
    exact created.frame_owned consistent
      (List.mem_flatMap.mpr ⟨other, Consistent.entryHead_mem member, own⟩)
      (fun data => notMap (List.mem_cons_of_mem _ data))
      (fun data => notDirectory (List.mem_cons_of_mem _ data))

theorem Created.ne_head
    {disk disk' : DiskImage} {name : List Byte} {head : Nat}
    {header : FileHeader} (created : Created disk name head header disk')
    (consistent : Consistent disk) {other : Nat}
    (otherMember : other ∈ (directoryOf disk).heads) : other ≠ head := by
  rintro rfl
  exact consistent.clear_not_owned (created.fresh _ List.mem_cons_self)
    (Consistent.head_owned (Consistent.entryHead_mem otherMember))

theorem Created.find_of_found
    {disk disk' : DiskImage} {name other : List Byte} {head : Nat}
    {header : FileHeader} (created : Created disk name head header disk')
    (found : (directoryOf disk).find other ≠ -1) :
    (directoryOf disk').find other = (directoryOf disk).find other := by
  rw [created.find, if_neg]
  intro same
  apply found
  have absent : ∀ entry ∈ (directoryOf disk).table,
      Directory.holds other entry = false := by
    intro entry member
    rw [Directory.holds_congr same]
    exact created.absent entry member
  unfold Directory.find
  rw [find?_of_no_match absent]

theorem Created.openFile
    {disk disk' : DiskImage} {name : List Byte} {head : Nat}
    {header : FileHeader} (created : Created disk name head header disk')
    {fileSystem : FileSystem} (mounted : Mounted fileSystem disk')
    (memory : Memory) :
    fileSystem.openFile disk' memory name = .ok (some ⟨header, 0⟩) := by
  have found := created.found
  rcases created.consistent.openFile_spec mounted memory name with
    ⟨missing, _⟩ | ⟨other, foundOther, _, opened⟩
  · rw [found] at missing
    omega
  · rw [found] at foundOther
    rw [opened, ← Int.ofNat_inj.mp foundOther, created.stored]

/-- `Create` succeeds exactly if the name is new, a directory entry is free and
there are clear bits for the header and the data.  If it fails the disk is as it
was.  If it succeeds the new file has the given size, and every file that was
there keeps its name, its header sector, its header and its bytes. -/
theorem create_succeeds_iff
    {disk : DiskImage} (consistent : Consistent disk)
    {fileSystem : FileSystem} (mounted : Mounted fileSystem disk)
    (memory : Memory) (name : List Byte) {size : Nat}
    (allowed : size ≤ maxFileSize) :
    ∃ success disk',
      fileSystem.create disk memory name size = .ok (success, disk') ∧
      (success = true ↔ Room disk name (FileHeader.sectorsFor size)) ∧
      (success = false → disk' = disk) ∧
      (success = true →
        (∀ memory', ∃ file,
          fileSystem.openFile disk' memory' name = .ok (some file) ∧
          file.length = size) ∧
        (∀ other, (directoryOf disk).find other ≠ -1 →
          (directoryOf disk').find other = (directoryOf disk).find other) ∧
        ∀ head ∈ (directoryOf disk).heads, SameFile disk disk' head) := by
  rcases consistent.create_spec mounted memory name allowed with
    ⟨noRoom, failed⟩ |
      ⟨room, disk', head, header, _, _, done, _, _, lengthEq, mounted', created⟩
  · refine ⟨false, disk, failed, ?_, fun _ => rfl, fun impossible => ?_⟩
    · exact iff_of_false Bool.false_ne_true noRoom
    · cases impossible
  · refine ⟨true, disk', done, iff_of_true rfl room, fun impossible => ?_,
      fun _ => ⟨?_, ?_, ?_⟩⟩
    · cases impossible
    · intro memory'
      refine ⟨⟨header, 0⟩, created.openFile mounted' memory', ?_⟩
      have wellFormed := created.consistent.wellFormed head
        (Consistent.entryHead_mem created.member)
      rw [created.stored] at wellFormed
      unfold OpenFile.length
      rw [OpenFile.fileLength_eq wellFormed, lengthEq]
    · intro other found
      exact created.find_of_found found
    · intro other member
      exact created.sameFile consistent member

def zeros : Memory :=
  fun _ _ => 0

/-- A file of 300 bytes on a formatted disk. -/
theorem create_succeeds_on_formatted :
    ∃ fileSystem disk disk',
      format blankDisk zeros = .ok (fileSystem, disk) ∧
      fileSystem.create disk zeros [97] (300 : Nat) = .ok (true, disk') := by
  obtain ⟨fileSystem, disk, formatted, consistent, mounted, empty, _⟩ :=
    format_spec blankDisk zeros
  obtain ⟨success, disk', done, succeeds, _⟩ :=
    create_succeeds_iff consistent mounted zeros [97]
      (show 300 ≤ maxFileSize by decide)
  have room : Room disk [97] (FileHeader.sectorsFor 300) :=
    consistent.room_of_empty empty [97] (by decide)
  rw [succeeds.mpr room] at done
  exact ⟨fileSystem, disk, disk', formatted, done⟩

/-! ## Sizes that a header cannot describe -/

/-- `Create` returns, and if it reports success then the size is one that the
header can describe, and the header that `Allocate` filled in is read back from
disk. -/
def Represents
    (fileSystem : FileSystem) (disk : DiskImage) (memory : Memory)
    (name : List Byte) (initialSize : Int) : Prop :=
  ∃ success disk',
    fileSystem.create disk memory name initialSize = .ok (success, disk') ∧
    (success = true →
      0 ≤ initialSize ∧
      ∃ (head : Nat) (header : FileHeader) (headMap freeMap : Bitmap),
        (freeMapOf disk).findAndSet = .ok (↑head, headMap) ∧
        (newHeader (memory 3)).allocate headMap initialSize =
          .ok (true, header, freeMap) ∧
        header.numSectors.toInt ≤ numDirect ∧
        FileHeader.fetchFrom disk' head = .ok header)

section Sizes

variable {disk : DiskImage} (consistent : Consistent disk)
variable {fileSystem : FileSystem} (mounted : Mounted fileSystem disk)
variable (memory : Memory) (name : List Byte)

include consistent mounted

/-- For a negative size `Create` needs no data sector, and succeeds. -/
theorem create_of_negative
    (room : Room disk name 0) {initialSize : Int}
    (negative : initialSize < 0) (lower : -2 ^ 31 ≤ initialSize) :
    ∃ disk', fileSystem.create disk memory name initialSize =
      .ok (true, disk') := by
  rcases consistent.create_stages mounted memory name initialSize with
    ⟨noRoom, _⟩ |
      ⟨_, sector, headMap, before, free, after, first, _, sectorClear, headSize,
        _, created⟩
  · exact absurd room noRoom
  · obtain ⟨disk₀, disk₁, disk₂, written₀, written₁, written₂, _⟩ :=
      consistent.store_header mounted (memory.skip 4) (memory.skip 7)
        sectorClear ((newHeader (memory 3)).withSize initialSize)
        (length_replaced_table first (Directory.filled name sector free))
        headSize
    refine ⟨disk₂, ?_⟩
    rw [created, FileHeader.allocate_of_negative _ headMap negative lower, ok_bind]
    dsimp only
    rw [Bool.not_true, if_neg Bool.false_ne_true, written₀, ok_bind, written₁,
      ok_bind, written₂]
    rfl

/-- A size beyond `MaxFileSize` is refused for lack of room, or `Allocate` runs
over the end of `dataSectors`. -/
theorem create_of_large
    {size : Nat} (large : maxFileSize < size) (small : size < 2 ^ 31) :
    (¬Room disk name (FileHeader.sectorsFor size) ∧
        fileSystem.create disk memory name size = .ok (false, disk)) ∨
      (Room disk name (FileHeader.sectorsFor size) ∧
        fileSystem.create disk memory name size = .error .outOfBounds) := by
  rcases consistent.create_stages mounted memory name size with
    ⟨noRoom, failed⟩ |
      ⟨room, sector, headMap, before, free, after, first, _, sectorClear,
        headSize, headMarks, created⟩
  · left
    refine ⟨fun larger => noRoom ⟨larger.absent, larger.entry, ?_⟩, failed⟩
    have clear := larger.clear
    omega
  · have oneLess : headMap.clearBits.card + 1 =
        (freeMapOf disk).clearBits.card := by
      rw [Bitmap.clearBits_of_marked headSize headMarks]
      exact Finset.card_erase_add_one sectorClear
    have bounded : headMap.numBits ≤ 2 ^ 31 := by
      rw [headSize]
      decide
    rw [created, FileHeader.allocate_of_large _ large small bounded]
    by_cases few : headMap.clearBits.card < FileHeader.sectorsFor size
    · left
      rw [if_pos few]
      refine ⟨fun larger => ?_, rfl⟩
      have clear := larger.clear
      omega
    · right
      rw [if_neg few]
      exact ⟨⟨room.absent, room.entry, by omega⟩, rfl⟩

/-- `Create` builds only headers that it can represent, exactly if the size is
one of those that a header can describe or `Create` fails for another reason. -/
theorem create_represents_iff
    {initialSize : Int} (lower : -2 ^ 31 ≤ initialSize)
    (upper : initialSize < 2 ^ 31) :
    Represents fileSystem disk memory name initialSize ↔
      (0 ≤ initialSize ∧ initialSize ≤ maxFileSize) ∨
        ¬Room disk name (divRoundUp initialSize sectorSize).toNat := by
  rcases lt_or_ge initialSize 0 with negative | nonnegative
  · have noSectors : (divRoundUp initialSize sectorSize).toNat = 0 := by
      obtain ⟨size, rfl⟩ : ∃ size : Nat, initialSize = -(size : Int) :=
        ⟨initialSize.natAbs, by omega⟩
      rw [divRoundUp_neg]
      exact Int.toNat_neg_natCast _
    rw [noSectors]
    constructor
    · rintro ⟨success, disk', done, sound⟩
      right
      intro room
      obtain ⟨_, created⟩ :=
        create_of_negative consistent mounted memory name room negative lower
      cases created.symm.trans done
      have positive := (sound rfl).1
      omega
    · rintro (⟨nonnegative, _⟩ | noRoom)
      · omega
      · rcases consistent.create_stages mounted memory name initialSize with
          ⟨_, failed⟩ | ⟨room, _⟩
        · exact ⟨false, disk, failed, fun impossible => by cases impossible⟩
        · exact absurd room noRoom
  · obtain ⟨size, rfl⟩ := Int.eq_ofNat_of_zero_le nonnegative
    have sectors : (divRoundUp (size : Int) sectorSize).toNat =
        FileHeader.sectorsFor size := by
      rw [divRoundUp_natCast size (by decide)]
      rfl
    rw [sectors]
    rcases Nat.lt_or_ge maxFileSize size with large | allowed
    · rcases create_of_large consistent mounted memory name large (by omega) with
        ⟨noRoom, failed⟩ | ⟨room, failed⟩
      · exact iff_of_true
          ⟨false, disk, failed, fun impossible => by cases impossible⟩
          (Or.inr noRoom)
      · refine iff_of_false ?_ ?_
        · rintro ⟨success, disk', done, _⟩
          cases failed.symm.trans done
        · rintro (⟨_, allowed⟩ | noRoom)
          · omega
          · exact noRoom room
    · refine iff_of_true ?_ (Or.inl ⟨nonnegative, by omega⟩)
      rcases consistent.create_spec mounted memory name allowed with
        ⟨_, failed⟩ |
          ⟨_, disk', head, header, headMap, freeMap, done, taken, allocated, _,
            _, created⟩
      · exact ⟨false, disk, failed, fun impossible => by cases impossible⟩
      · refine ⟨true, disk', done, fun _ => ⟨nonnegative, head, header, headMap,
          freeMap, taken, allocated, ?_, ?_⟩⟩
        · have member := Consistent.entryHead_mem created.member
          have wellFormed := created.consistent.wellFormed head member
          rw [created.stored] at wellFormed
          exact wellFormed.numSectors_le
        · have member := Consistent.entryHead_mem created.member
          rw [fetchHeader_eq disk' (created.consistent.inRange head member),
            created.stored]

end Sizes

/-- On a formatted disk a file of 300 bytes is described by its header. -/
theorem create_represents_on_formatted :
    ∃ fileSystem disk,
      format blankDisk zeros = .ok (fileSystem, disk) ∧
      Represents fileSystem disk zeros [97] 300 := by
  obtain ⟨fileSystem, disk, formatted, consistent, mounted, _⟩ :=
    format_spec blankDisk zeros
  exact ⟨fileSystem, disk, formatted,
    (create_represents_iff consistent mounted zeros [97] (by decide)
      (by decide)).mpr (Or.inl (by decide))⟩

/-- On a formatted disk `Create` succeeds for the size -1, and writes past the
end of `dataSectors` for a size one more than `MaxFileSize`. -/
theorem create_unrepresentable :
    ∃ fileSystem disk disk',
      format blankDisk zeros = .ok (fileSystem, disk) ∧
      fileSystem.create disk zeros [97] (-1) = .ok (true, disk') ∧
      fileSystem.create disk zeros [97] (3841 : Nat) =
        .error .outOfBounds := by
  obtain ⟨fileSystem, disk, formatted, consistent, mounted, empty, _⟩ :=
    format_spec blankDisk zeros
  obtain ⟨disk', created⟩ :=
    create_of_negative consistent mounted zeros [97]
      (consistent.room_of_empty empty [97] (by decide))
      (show (-1 : Int) < 0 by decide) (by decide)
  refine ⟨fileSystem, disk, disk', formatted, created, ?_⟩
  rcases create_of_large consistent mounted zeros [97]
      (show maxFileSize < 3841 by decide) (by decide) with
    ⟨noRoom, _⟩ | ⟨_, failed⟩
  · exact absurd (consistent.room_of_empty empty [97] (by decide)) noRoom
  · exact failed

end Nachos
