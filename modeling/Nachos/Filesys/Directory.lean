import Nachos.Filesys.OpenFile
import Nachos.Foundation.FirstMatch
import Nachos.Lib.CString

/-!
# The directory

`Directory` of `filesys/directory.cc`: a table of entries that is stored as the
contents of an ordinary file.  An entry takes 20 bytes in memory and on disk:
the flag `inUse`, three bytes of padding, the sector of the file header, ten
characters of name, and two bytes of padding.
-/

namespace Nachos

open Foundation

def fileNameMaxLen : Nat := 9

/-- `DirectoryEntry`, with the padding its memory image carries. -/
structure DirectoryEntry where
  inUse : Bool
  padding : List Byte
  sector : Word
  name : List Byte
  trailing : List Byte
  padding_length : padding.length = 3
  name_length : name.length = fileNameMaxLen + 1
  trailing_length : trailing.length = 2

namespace DirectoryEntry

def size : Nat := 20

def toBytes (entry : DirectoryEntry) : List Byte :=
  (if entry.inUse then 1 else 0) ::
    (entry.padding ++ wordBytes entry.sector ++ entry.name ++ entry.trailing)

theorem length_toBytes (entry : DirectoryEntry) :
    entry.toBytes.length = size := by
  simp only [toBytes, List.length_cons, List.length_append,
    entry.padding_length, length_wordBytes, entry.name_length,
    entry.trailing_length]
  rfl

def ofBytes (bytes : List Byte) : DirectoryEntry where
  inUse := bytes.headD 0 != 0
  padding := window bytes 1 3
  sector := (decodeWords (window bytes 4 4)).headD 0
  name := window bytes 8 (fileNameMaxLen + 1)
  trailing := window bytes 18 2
  padding_length := length_window _ _ _
  name_length := length_window _ _ _
  trailing_length := length_window _ _ _

theorem ofBytes_toBytes (entry : DirectoryEntry) :
    ofBytes entry.toBytes = entry := by
  obtain ⟨inUse, padding, sector, name, trailing, paddingLength, nameLength,
    trailingLength⟩ := entry
  have flag : (((if inUse then 1 else 0) : Byte) != 0) = inUse := by
    cases inUse <;> rfl
  have paddingWindow :
      window ([if inUse then 1 else 0] ++ padding ++
        (wordBytes sector ++ name ++ trailing)) 1 3 = padding :=
    window_append _ _ _ (by simp) (by simp [paddingLength])
  have sectorWindow :
      window ([if inUse then 1 else 0] ++ padding ++ wordBytes sector ++
        (name ++ trailing)) 4 4 = wordBytes sector :=
    window_append _ _ _ (by simp [paddingLength]) (by simp)
  have nameWindow :
      window ([if inUse then 1 else 0] ++ padding ++ wordBytes sector ++ name ++
        trailing) 8 (fileNameMaxLen + 1) = name :=
    window_append _ _ _ (by simp [paddingLength]) (by simp [nameLength])
  have trailingWindow :
      window ([if inUse then 1 else 0] ++ padding ++ wordBytes sector ++ name ++
        trailing ++ []) 18 2 = trailing :=
    window_append _ _ _
      (by simp [paddingLength, nameLength, fileNameMaxLen])
      (by simp [trailingLength])
  have decoded : (decodeWords (wordBytes sector)).headD 0 = sector := by
    have roundTrip := decodeWords_encodeWords [sector]
    simp only [encodeWords, List.flatMap_cons, List.flatMap_nil,
      List.append_nil] at roundTrip
    rw [roundTrip]
    rfl
  simp only [List.append_nil, List.append_assoc, List.nil_append,
    List.cons_append] at paddingWindow sectorWindow nameWindow trailingWindow
  simp only [ofBytes, toBytes, List.headD_cons, flag, List.append_assoc,
    paddingWindow, sectorWindow, nameWindow, trailingWindow, decoded]

end DirectoryEntry

structure Directory where
  table : List DirectoryEntry

namespace Directory

def toBytes (directory : Directory) : List Byte :=
  (directory.table.map DirectoryEntry.toBytes).flatten

def ofBytes (tableSize : Nat) (bytes : List Byte) : Directory where
  table := (List.range tableSize).map (fun index =>
    DirectoryEntry.ofBytes
      (window bytes (DirectoryEntry.size * index) DirectoryEntry.size))

/-- `Directory::Directory(size)`: only the flags of the new table are set. -/
def create (junk : Junk) (size : Nat) : Directory where
  table :=
    (ofBytes size ((List.range (DirectoryEntry.size * size)).map junk)).table.map
      (fun entry => { entry with inUse := false })

def holds (name : List Byte) (entry : DirectoryEntry) : Bool :=
  entry.inUse && strncmpEq fileNameMaxLen entry.name name

def findIndex (directory : Directory) (name : List Byte) : Int :=
  match directory.table.findIdx? (holds name) with
  | some index => index
  | none => -1

def find (directory : Directory) (name : List Byte) : Int :=
  match directory.table.find? (holds name) with
  | some entry => entry.sector.toInt
  | none => -1

def filled (name : List Byte) (newSector : Int) (entry : DirectoryEntry) :
    DirectoryEntry where
  inUse := true
  padding := entry.padding
  sector := BitVec.ofInt 32 newSector
  name := strncpy entry.name name fileNameMaxLen
  trailing := entry.trailing
  padding_length := entry.padding_length
  name_length := by
    rw [length_strncpy _ (by rw [entry.name_length]; decide), entry.name_length]
  trailing_length := entry.trailing_length

def add (directory : Directory) (name : List Byte) (newSector : Int) :
    Bool × Directory :=
  if directory.findIndex name ≠ -1 then
    (false, directory)
  else
    match directory.table.findIdx? (fun entry => !entry.inUse) with
    | some index =>
      (true, ⟨directory.table.modify index (filled name newSector)⟩)
    | none => (false, directory)

def released (entry : DirectoryEntry) : DirectoryEntry :=
  { entry with inUse := false }

def remove (directory : Directory) (name : List Byte) : Bool × Directory :=
  match directory.table.findIdx? (holds name) with
  | some index =>
    (true, ⟨directory.table.modify index released⟩)
  | none => (false, directory)

def fetchFrom
    (directory : Directory) (file : OpenFile) (disk : DiskImage) (junk : Junk) :
    Except Fault Directory := do
  let (_, bytes) ←
    file.readAt disk junk directory.toBytes 0
      (wrap (DirectoryEntry.size * directory.table.length : Nat)) 0
  return ofBytes directory.table.length bytes

def writeBack
    (directory : Directory) (file : OpenFile) (disk : DiskImage)
    (junk : Nat → Junk) : Except Fault DiskImage := do
  let (_, disk) ←
    file.writeAt disk junk directory.toBytes
      (wrap (DirectoryEntry.size * directory.table.length : Nat)) 0
  return disk

/-! ## The stored table -/

theorem length_toBytes (directory : Directory) :
    directory.toBytes.length =
      DirectoryEntry.size * directory.table.length := by
  unfold toBytes
  rw [length_flatten_of_uniform, List.length_map]
  intro bytes member
  obtain ⟨entry, _, rfl⟩ := List.mem_map.mp member
  exact entry.length_toBytes

@[simp]
theorem length_table_ofBytes (tableSize : Nat) (bytes : List Byte) :
    (ofBytes tableSize bytes).table.length = tableSize := by
  simp [ofBytes]

@[simp]
theorem length_table_create (junk : Junk) (size : Nat) :
    (create junk size).table.length = size := by
  simp [create]

theorem ofBytes_toBytes (directory : Directory) :
    ofBytes directory.table.length directory.toBytes = directory := by
  obtain ⟨table⟩ := directory
  have uniform : ∀ bytes ∈ table.map DirectoryEntry.toBytes,
      bytes.length = DirectoryEntry.size := by
    intro bytes member
    obtain ⟨entry, _, rfl⟩ := List.mem_map.mp member
    exact entry.length_toBytes
  have totalLength := length_toBytes ⟨table⟩
  simp only at totalLength
  unfold ofBytes
  congr 1
  apply List.ext_getElem
  · simp
  · intro index inside inTable
    have fits : DirectoryEntry.size * index + DirectoryEntry.size ≤
        (toBytes ⟨table⟩).length := by
      rw [totalLength]
      simp only [DirectoryEntry.size]
      omega
    have block :
        slice (toBytes ⟨table⟩) (DirectoryEntry.size * index)
            DirectoryEntry.size =
          (table[index]).toBytes := by
      unfold toBytes
      rw [slice_flatten_of_uniform (by decide) uniform (by simpa using inTable)]
      simp
    rw [List.getElem_map, List.getElem_range, window_eq_slice fits, block,
      DirectoryEntry.ofBytes_toBytes]

theorem wrap_tableBytes
    {header : FileHeader} (wellFormed : header.WellFormed)
    {count : Nat} (fits : count ≤ header.length) :
    wrap (count : Int) = count := by
  have bound := wellFormed.length_le
  simp only [maxFileSize, numDirect, Disk.sectorSize] at bound
  exact wrap_natCast (by omega)

theorem fetchFrom_spec
    (directory : Directory) {file : OpenFile}
    (wellFormed : file.hdr.WellFormed)
    (whole : DirectoryEntry.size * directory.table.length = file.hdr.length)
    (disk : DiskImage) (junk : Junk) :
    directory.fetchFrom file disk junk =
      .ok (ofBytes directory.table.length
        (OpenFile.fileBytes disk file.hdr)) := by
  unfold fetchFrom
  rw [wrap_tableBytes wellFormed whole.le, OpenFile.readAt_whole wellFormed disk junk whole
    directory.length_toBytes]
  rfl

theorem writeBack_spec
    (directory : Directory) {file : OpenFile}
    (wellFormed : file.hdr.WellFormed) (nodup : file.hdr.sectors.Nodup)
    (whole : DirectoryEntry.size * directory.table.length = file.hdr.length)
    (disk : DiskImage) (junk : Nat → Junk) :
    ∃ disk',
      directory.writeBack file disk junk = .ok disk' ∧
        (∀ sector, sector ∉ file.hdr.sectors → disk' sector = disk sector) ∧
        ofBytes directory.table.length (OpenFile.fileBytes disk' file.hdr) =
          directory := by
  obtain ⟨disk', written, frame, bytes⟩ :=
    OpenFile.writeAt_whole wellFormed nodup disk junk whole
      directory.length_toBytes
  refine ⟨disk', ?_, frame, ?_⟩
  · unfold writeBack
    rw [wrap_tableBytes wellFormed whole.le, written]
    rfl
  · rw [bytes, ofBytes_toBytes]

/-! ## The header sectors that a directory names -/

def heads (directory : Directory) : List Nat :=
  (directory.table.filter DirectoryEntry.inUse).map
    (fun entry => entry.sector.toNat)

theorem heads_create (junk : Junk) (size : Nat) :
    (create junk size).heads = [] := by
  unfold heads create
  rw [List.map_eq_nil_iff, List.filter_eq_nil_iff]
  intro entry member
  obtain ⟨_, _, rfl⟩ := List.mem_map.mp member
  simp

private theorem heads_split
    (before after : List DirectoryEntry) (entry : DirectoryEntry) :
    heads ⟨before ++ entry :: after⟩ =
      heads ⟨before⟩ ++
        ((if entry.inUse then [entry.sector.toNat] else []) ++
          heads ⟨after⟩) := by
  unfold heads
  cases flag : entry.inUse <;> simp [flag]

private theorem holds_inUse
    {name : List Byte} {entry : DirectoryEntry}
    (held : holds name entry = true) : entry.inUse = true := by
  unfold holds at held
  rw [Bool.and_eq_true] at held
  exact held.1

theorem findIndex_of_absent
    {directory : Directory} {name : List Byte}
    (absent : ∀ entry ∈ directory.table, holds name entry = false) :
    directory.findIndex name = -1 := by
  unfold findIndex
  rw [findIdx?_of_no_match absent]

/-- `Find` returns -1, or the header sector of the first entry that has the
name. -/
theorem find_cases
    (directory : Directory) (name : List Byte)
    (small : ∀ head ∈ directory.heads, head < 2 ^ 31) :
    (directory.find name = -1 ∧
        ∀ entry ∈ directory.table, holds name entry = false) ∨
      ∃ before entry after,
        FirstMatch (holds name) directory.table before entry after ∧
          directory.find name = entry.sector.toNat := by
  rcases firstMatch_cases (holds name) directory.table with
    nothing | ⟨before, entry, after, first⟩
  · left
    refine ⟨?_, nothing⟩
    unfold find
    rw [find?_of_no_match nothing]
  · right
    refine ⟨before, entry, after, first, ?_⟩
    unfold find
    rw [first.find?]
    apply FileHeader.toInt_eq_natCast
    apply small
    refine List.mem_map.mpr ⟨entry, List.mem_filter.mpr ⟨first.mem, ?_⟩, rfl⟩
    exact holds_inUse first.passes

/-- `Remove` releases the entry that has the name, and takes its header sector
out. -/
theorem remove_firstMatch
    {directory : Directory} {name : List Byte}
    {before after : List DirectoryEntry} {entry : DirectoryEntry}
    (first : FirstMatch (holds name) directory.table before entry after) :
    directory.remove name = (true, ⟨before ++ released entry :: after⟩) ∧
      directory.heads.Perm
        (entry.sector.toNat :: heads ⟨before ++ released entry :: after⟩) := by
  constructor
  · unfold remove
    rw [first.findIdx?]
    change (true, Directory.mk (directory.table.modify _ _)) = _
    rw [first.modify]
  · obtain ⟨table⟩ := directory
    have split : table = before ++ entry :: after := first.split
    rw [split, heads_split, heads_split, holds_inUse first.passes]
    exact List.perm_middle

theorem add_eq
    {directory : Directory} {name : List Byte}
    (absent : ∀ entry ∈ directory.table, holds name entry = false)
    {before after : List DirectoryEntry} {free : DirectoryEntry}
    (first : FirstMatch (fun entry => !entry.inUse) directory.table before free
      after) (newSector : Int) :
    directory.add name newSector =
      (true, ⟨before ++ filled name newSector free :: after⟩) := by
  unfold add
  rw [findIndex_of_absent absent, if_neg (by decide), first.findIdx?]
  change (true, Directory.mk (directory.table.modify _ _)) = _
  rw [first.modify]

theorem add_firstMatch
    {directory : Directory} {name : List Byte} {newSector : Nat}
    (small : newSector < 2 ^ 31)
    (absent : ∀ entry ∈ directory.table, holds name entry = false)
    {before after : List DirectoryEntry} {free : DirectoryEntry}
    (first : FirstMatch (fun entry => !entry.inUse) directory.table before free
      after) :
    directory.add name newSector =
        (true, ⟨before ++ filled name newSector free :: after⟩) ∧
      (heads ⟨before ++ filled name newSector free :: after⟩).Perm
        (newSector :: directory.heads) := by
  constructor
  · exact add_eq absent first newSector
  · obtain ⟨table⟩ := directory
    have split : table = before ++ free :: after := first.split
    have unused : free.inUse = false := by simpa using first.passes
    have entered : (filled name newSector free).sector.toNat = newSector :=
      FileHeader.toNat_ofInt_natCast small
    have usedNow : (filled name newSector free).inUse = true := rfl
    rw [split, heads_split, heads_split, unused, usedNow, entered]
    exact List.perm_middle

theorem add_of_full
    {directory : Directory} {name : List Byte} (newSector : Int)
    (full : ∀ entry ∈ directory.table, (!entry.inUse) = false) :
    directory.add name newSector = (false, directory) := by
  unfold add
  rw [findIdx?_of_no_match full]
  exact ite_self _

/-! ## Names

`strncmp` looks at the first `FileNameMaxLen` characters. -/

theorem holds_congr
    {name other : List Byte}
    (same : strncmpEq fileNameMaxLen name other = true)
    (entry : DirectoryEntry) : holds other entry = holds name entry := by
  unfold holds
  congr 1
  rw [Bool.eq_iff_iff, strncmpEq_iff, strncmpEq_iff, strncmpEq_iff.mp same]

theorem holds_filled
    (name other : List Byte) (newSector : Int) (free : DirectoryEntry) :
    holds other (filled name newSector free) =
      strncmpEq fileNameMaxLen name other := by
  unfold holds filled
  rw [Bool.true_and, Bool.eq_iff_iff, strncmpEq_iff, strncmpEq_iff,
    strncpyBytes_strncpy]

theorem find_skip
    (before after : List DirectoryEntry) {entry : DirectoryEntry}
    {name : List Byte} (different : holds name entry = false) :
    find ⟨before ++ entry :: after⟩ name = find ⟨before ++ after⟩ name := by
  unfold find
  rw [find?_skip different]

theorem find_filled
    {before after : List DirectoryEntry} {free : DirectoryEntry}
    {name : List Byte} {newSector : Nat} (small : newSector < 2 ^ 31)
    (absent : ∀ entry ∈ before ++ free :: after, holds name entry = false)
    (unused : free.inUse = false) (other : List Byte) :
    find ⟨before ++ filled name newSector free :: after⟩ other =
      if strncmpEq fileNameMaxLen name other = true then
        (newSector : Int)
      else
        find ⟨before ++ free :: after⟩ other := by
  have skipped : holds other free = false := by
    unfold holds
    rw [unused, Bool.false_and]
  split_ifs with same
  · have first : FirstMatch (holds other)
        (before ++ filled name newSector free :: after) before
        (filled name newSector free) after := by
      refine ⟨rfl, (holds_filled name other newSector free).trans same, ?_⟩
      intro entry member
      rw [holds_congr same]
      exact absent entry (List.mem_append_left _ member)
    unfold find
    rw [first.find?]
    exact FileHeader.toInt_ofInt_natCast small
  · rw [find_skip before after skipped,
      find_skip before after (by rw [holds_filled]; simpa using same)]

theorem find_released
    (before after : List DirectoryEntry) (entry : DirectoryEntry)
    {free : DirectoryEntry} (unused : free.inUse = false) (name : List Byte) :
    find ⟨before ++ released entry :: after⟩ name =
      find ⟨before ++ free :: after⟩ name := by
  have skipped : holds name free = false := by
    unfold holds
    rw [unused, Bool.false_and]
  have skippedReleased : holds name (released entry) = false := rfl
  rw [find_skip before after skipped, find_skip before after skippedReleased]

end Directory

end Nachos
