import Nachos.Filesys.Creation
import Nachos.Filesys.Sessions

/-!
# `Remove` undoes `Create`

A write that starts before the file may reach the free map, and then `Remove`
fails.
-/

namespace Nachos

open Foundation
open FileSystem

namespace Removed

variable {disk disk' : DiskImage} {name : List Byte} {head : Nat}

theorem sameFile
    (removed : Removed disk name head disk') (consistent : Consistent disk)
    {other : Nat} (member : other ∈ (directoryOf disk).heads)
    (different : other ≠ head) : SameFile disk disk' other := by
  apply sameFile_of_agreement
  · exact (removed.keepsFiles consistent other member (by simpa using different)).1
  · intro sector own
    obtain ⟨notMap, notDirectory⟩ := consistent.entry_apart member own
    exact removed.frame sector
      (fun data => notMap (List.mem_cons_of_mem _ data))
      (fun data => notDirectory (List.mem_cons_of_mem _ data))

end Removed

namespace Created

variable {disk disk' disk'' : DiskImage} {name : List Byte} {head : Nat}
variable {header : FileHeader}

theorem firstMatch
    (created : Created disk name head header disk') :
    ∃ before free after,
      free.inUse = false ∧
        (directoryOf disk).table = before ++ free :: after ∧
        FirstMatch (Directory.holds name) (directoryOf disk').table before
          (Directory.filled name head free) after := by
  obtain ⟨before, free, after, unused, split, split'⟩ := created.entered
  refine ⟨before, free, after, unused, split, split', ?_, ?_⟩
  · rw [Directory.holds_filled]
    exact strncmpEq_iff.mpr rfl
  · intro entry earlier
    apply created.absent
    rw [split]
    exact List.mem_append_left _ earlier

theorem step_openFile
    (created : Created disk name head header disk')
    {fileSystem : FileSystem} (mounted : Mounted fileSystem disk')
    (memory : Memory) (handles : List Handle) :
    Session.step ⟨fileSystem, disk', handles⟩ (.openFile memory name) =
      .ok ⟨fileSystem, disk', handles ++ [⟨⟨header, 0⟩, head, false⟩]⟩ := by
  simp only [Session.step, created.openFile mounted, ok_bind, created.found]
  rfl

/-- What is left when the new file is removed again, from a disk that still has
the free map, the directory and the header that `Create` wrote. -/
theorem undone
    (created : Created disk name head header disk')
    {written : DiskImage}
    (sameDirectory : directoryOf written = directoryOf disk')
    (sameMap : freeMapOf written = freeMapOf disk')
    (sameHeader : headerAt written head = header)
    {gone : Nat} (removed : Removed written name gone disk'') :
    gone = head ∧ freeMapOf disk'' = freeMapOf disk ∧
      ∀ other, (directoryOf disk'').find other = (directoryOf disk).find other := by
  have sameHead : gone = head := by
    have found := removed.found
    rw [sameDirectory, created.found] at found
    omega
  refine ⟨sameHead, ?_, ?_⟩
  · apply Bitmap.eq_of_marked
      ((numBits_freeMapOf disk'').trans (numBits_freeMapOf disk).symm)
    intro sector
    have sectors : fileSectors written gone = head :: header.sectors := by
      unfold fileSectors
      rw [sameHead, sameHeader]
    rw [removed.marks, sectors, sameMap, created.marks]
    by_cases own : sector ∈ head :: header.sectors
    · have clear := (Bitmap.mem_clearBits.mp (created.fresh sector own)).2
      rw [clear, decide_eq_true own, Bool.not_true, Bool.false_and]
    · rw [decide_eq_false own, Bool.not_false, Bool.true_and, Bool.false_or]
  · intro other
    obtain ⟨before, free, after, unused, split, first⟩ := created.firstMatch
    obtain ⟨before', entry, after', second, table⟩ := removed.released
    rw [sameDirectory] at second
    obtain ⟨rfl, rfl, rfl⟩ := first.unique second
    have released :=
      Directory.find_released before after (Directory.filled name head free)
        unused other
    rw [← table, ← split] at released
    exact released

end Created

/-! ## Runs that use one file -/

/-- The operations that open the file `name`, or make a safe request to write
through a handle. -/
def UsesOnly (name : List Byte) (session : Session) : Operation → Prop
  | .openFile _ other => other = name
  | .writeAt _ index _ numBytes position =>
    ∀ handle, session.handles[index]? = some handle →
      handle.file.Safe numBytes position
  | .create _ _ _ | .remove _ _ | .remount => False

def usesOf (fileSystem : FileSystem) (disk : DiskImage) (name : List Byte) :
    TransitionSystem Session Operation where
  start session := session = ⟨fileSystem, disk, []⟩
  step session operation next :=
    UsesOnly name session operation ∧ session.step operation = .ok next

structure Uses
    (fileSystem : FileSystem) (disk : DiskImage) (head : Nat)
    (session : Session) : Prop where
  fileSystem : session.fileSystem = fileSystem
  handles : ∀ handle ∈ session.handles, handle.file.hdr = headerAt disk head
  frame : ∀ sector, sector ∉ (headerAt disk head).sectors →
    session.disk sector = disk sector

/-- Safe writes through the handles of a file change its data sectors only. -/
theorem uses_of_reachable
    {fileSystem : FileSystem} {disk : DiskImage} (consistent : Consistent disk)
    (mounted : Mounted fileSystem disk) {name : List Byte} {head : Nat}
    (member : head ∈ (directoryOf disk).heads)
    (found : (directoryOf disk).find name = head) {session : Session}
    (reachable : (usesOf fileSystem disk name).Reachable session) :
    Uses fileSystem disk head session := by
  have headMember := Consistent.entryHead_mem member
  refine reachable.invariant ?_ ?_
  · rintro _ rfl
    exact ⟨rfl, by simp, fun _ _ => rfl⟩
  · rintro session operation next ⟨sameSystem, handles, frame⟩
      ⟨allowed, stepped⟩
    obtain ⟨consistent', sameDirectory, _, sameHead⟩ :=
      consistent.write_data member frame
    cases operation with
    | openFile memory other =>
      cases allowed
      have mounted' : Mounted session.fileSystem session.disk := by
        rw [sameSystem]
        exact mounted.congr (sameHead _ Consistent.mapHead_mem)
          (sameHead _ Consistent.directoryHead_mem)
      rcases consistent'.openFile_spec mounted' memory name with
        ⟨missing, _⟩ | ⟨other, foundOther, _, opened⟩
      · rw [sameDirectory, found] at missing
        omega
      · rw [sameDirectory, found] at foundOther
        cases Int.ofNat_inj.mp foundOther
        simp only [Session.step, opened, ok_bind] at stepped
        cases stepped
        refine ⟨sameSystem, ?_, frame⟩
        intro handle handleMember
        rcases List.mem_append.mp handleMember with old | new
        · exact handles handle old
        · rw [List.mem_singleton] at new
          rw [new]
          exact headerAt_congr (sameHead head headMember)
    | writeAt memory index source numBytes position =>
      cases lookup : session.handles[index]? with
      | none =>
        simp only [Session.step, lookup] at stepped
        cases stepped
        exact ⟨sameSystem, handles, frame⟩
      | some opened =>
        simp only [Session.step, lookup] at stepped
        obtain ⟨⟨count, disk'⟩, written, stepped⟩ :=
          exists_of_bind_eq_ok stepped
        cases stepped
        have sameHeader := handles opened (List.mem_of_getElem? lookup)
        refine ⟨sameSystem, handles, ?_⟩
        intro sector outside
        have unwritten :=
          OpenFile.frame_of_writeAt
            (by rw [sameHeader]; exact consistent.wellFormed _ headMember)
            (allowed opened lookup) written sector
        rw [sameHeader] at unwritten
        exact (unwritten outside).trans (frame sector outside)
    | create | remove | remount =>
      cases allowed

/-- `Remove` after a successful `Create` succeeds, whatever safe requests have
written to the new file in between.  It leaves the free map as it was, bit for
bit, every name found where it was, and every other file with its header and
its bytes. -/
theorem remove_undoes_create
    {disk : DiskImage} (consistent : Consistent disk)
    {fileSystem : FileSystem} (mounted : Mounted fileSystem disk)
    (memory memory' : Memory) {name : List Byte} {size : Nat}
    (allowed : size ≤ maxFileSize) {disk₁ : DiskImage}
    (created : fileSystem.create disk memory name size = .ok (true, disk₁))
    {session : Session}
    (reachable : (usesOf fileSystem disk₁ name).Reachable session) :
    ∃ disk₂,
      fileSystem.remove session.disk memory' name = .ok (true, disk₂) ∧
        freeMapOf disk₂ = freeMapOf disk ∧
        (∀ other,
          (directoryOf disk₂).find other = (directoryOf disk).find other) ∧
        ∀ head ∈ (directoryOf disk).heads, SameFile disk disk₂ head := by
  rcases consistent.create_spec mounted memory name allowed with
    ⟨_, failed⟩ |
      ⟨_, disk', head, header, _, _, done, _, _, _, mounted₁, creation⟩
  · cases created.symm.trans failed
  cases created.symm.trans done
  obtain ⟨_, _, frame⟩ :=
    uses_of_reachable creation.consistent mounted₁ creation.member
      creation.found reachable
  obtain ⟨consistent', sameDirectory, sameMap, sameHead⟩ :=
    creation.consistent.write_data creation.member frame
  have headMember := Consistent.entryHead_mem creation.member
  have mounted' : Mounted fileSystem session.disk :=
    mounted₁.congr (sameHead _ Consistent.mapHead_mem)
      (sameHead _ Consistent.directoryHead_mem)
  have sameHeader : headerAt session.disk head = header :=
    (headerAt_congr (sameHead head headMember)).trans creation.stored
  rcases consistent'.remove_spec mounted' memory' name with
    ⟨missing, _⟩ | ⟨disk₂, gone, removedOk, _, removed⟩
  · rw [sameDirectory, creation.found] at missing
    omega
  obtain ⟨rfl, mapEq, findEq⟩ :=
    creation.undone sameDirectory sameMap sameHeader removed
  refine ⟨disk₂, removedOk, mapEq, findEq, ?_⟩
  intro other otherMember
  have different := creation.ne_head consistent otherMember
  have first := creation.sameFile consistent otherMember
  have second :=
    creation.consistent.sameFile_of_write creation.member frame first.entry
      different
  exact (first.trans second).trans
    (removed.sameFile consistent' second.entry different)

theorem remove_undoes_create_on_formatted :
    ∃ fileSystem disk disk₁ session disk₂,
      format blankDisk zeros = .ok (fileSystem, disk) ∧
        fileSystem.create disk zeros [97] (300 : Nat) = .ok (true, disk₁) ∧
        (usesOf fileSystem disk₁ [97]).Run ⟨fileSystem, disk₁, []⟩
          [.openFile zeros [97], .writeAt zeros 0 [1, 2, 3] 3 200] session ∧
        fileSystem.remove session.disk zeros [97] = .ok (true, disk₂) ∧
        freeMapOf disk₂ = freeMapOf disk := by
  obtain ⟨fileSystem, disk, formatted, consistent, mounted, empty, _⟩ :=
    format_spec blankDisk zeros
  rcases consistent.create_spec mounted zeros [97]
      (show 300 ≤ maxFileSize by decide) with
    ⟨noRoom, _⟩ |
      ⟨_, disk₁, head, header, _, _, created, _, _, lengthEq, mounted₁, creation⟩
  · exact absurd (consistent.room_of_empty empty [97] (by decide)) noRoom
  have wellFormed : header.WellFormed := by
    rw [← creation.stored]
    exact creation.consistent.wellFormed head
      (Consistent.entryHead_mem creation.member)
  obtain ⟨disk', written, _⟩ :=
    @OpenFile.writeAt_safe ⟨header, 0⟩ 3 200 wellFormed
      (Or.inr (Or.inr (by decide))) disk₁ zeros [1, 2, 3] (by
        unfold OpenFile.transferred
        simp)
  have opened := creation.step_openFile mounted₁ zeros []
  have stored :
      Session.step ⟨fileSystem, disk₁, [⟨⟨header, 0⟩, head, false⟩]⟩
          (.writeAt zeros 0 [1, 2, 3] 3 200) =
        .ok ⟨fileSystem, disk', [⟨⟨header, 0⟩, head, false⟩]⟩ := by
    simp only [Session.step, List.getElem?_cons_zero, written, ok_bind]
    rfl
  have run :
      (usesOf fileSystem disk₁ [97]).Run ⟨fileSystem, disk₁, []⟩
        ([] ++ [.openFile zeros [97]] ++ [.writeAt zeros 0 [1, 2, 3] 3 200])
        ⟨fileSystem, disk', [⟨⟨header, 0⟩, head, false⟩]⟩ :=
    .snoc (.snoc (.nil _) ⟨rfl, opened⟩)
      ⟨fun _ _ => Or.inr (Or.inr (by decide)), stored⟩
  obtain ⟨disk₂, removed, mapEq, _⟩ :=
    remove_undoes_create consistent mounted zeros zeros
      (show 300 ≤ maxFileSize by decide) created
      (run.reachable (.start rfl))
  exact ⟨fileSystem, disk, disk₁, _, disk₂, formatted, created, run, removed,
    mapEq⟩

/-! ## A write before the file -/

theorem marked_freeMapOf_blank
    {disk : DiskImage} (consistent : Consistent disk) {mapSector : Nat}
    (place : (headerAt disk freeMapSector).sectors = [mapSector])
    (sector : Nat) :
    (freeMapOf (Function.update disk mapSector (blankDisk 0))).marked sector =
      false := by
  have different : freeMapSector ≠ mapSector := by
    intro equal
    refine consistent.head_not_mem_sectors Consistent.mapHead_mem
      Consistent.mapHead_mem ?_
    rw [place, equal]
    exact List.mem_cons_self
  have words :
      (PersistentBitmap.ofBytes Disk.numSectors (List.replicate 128 0)).map =
        List.replicate 32 0 := by
    decide
  have blank :
      freeMapOf (Function.update disk mapSector (blankDisk 0)) =
        PersistentBitmap.ofBytes Disk.numSectors (List.replicate 128 0) := by
    unfold freeMapOf OpenFile.fileBytes OpenFile.contents
    rw [headerAt_congr (Function.update_of_ne different _ _), place,
      consistent.mapLength, List.map_singleton, List.flatten_singleton,
      Function.update_self]
    rfl
  rw [blank]
  unfold Bitmap.marked
  rw [words, List.getD_eq_getElem?_getD, List.getElem?_replicate]
  split_ifs <;> simp

/-- `Remove` fails in `Deallocate` if the free map on the disk has been
overwritten by zeros. -/
private theorem remove_of_blankMap
    {disk : DiskImage} (consistent : Consistent disk)
    {fileSystem : FileSystem} (mounted : Mounted fileSystem disk)
    (memory : Memory) {name : List Byte} {head mapSector : Nat}
    (member : head ∈ (directoryOf disk).heads)
    (found : (directoryOf disk).find name = head)
    (here : 0 < (headerAt disk head).sectors.length)
    (place : (headerAt disk freeMapSector).sectors = [mapSector]) :
    fileSystem.remove (Function.update disk mapSector (blankDisk 0)) memory
        name =
      .error (.assertion .fileHeaderDeallocate) := by
  have headMember := Consistent.entryHead_mem member
  have mapData : mapSector ∈ (headerAt disk freeMapSector).sectors := by
    rw [place]
    exact List.mem_cons_self
  have same : ∀ other ∈ heads disk,
      Function.update disk mapSector (blankDisk 0) other = disk other := by
    intro other otherMember
    apply Function.update_of_ne
    rintro rfl
    exact consistent.head_not_mem_sectors otherMember Consistent.mapHead_mem
      mapData
  have sameMapHead := same _ Consistent.mapHead_mem
  have sameDirectoryHead := same _ Consistent.directoryHead_mem
  have system := consistent.systemFiles.congr sameMapHead sameDirectoryHead
  have sameDirectory :
      directoryOf (Function.update disk mapSector (blankDisk 0)) =
        directoryOf disk := by
    apply directoryOf_congr
    intro sector own
    apply Function.update_of_ne
    rintro rfl
    exact consistent.systemFiles.not_shared (List.mem_cons_of_mem _ mapData) own
  unfold FileSystem.remove
  rw [system.fetchDirectory_eq (mounted.congr sameMapHead sameDirectoryHead),
    ok_bind, sameDirectory]
  simp only [found]
  rw [if_neg (by omega), fetchHeader_eq _ (consistent.inRange _ headMember),
    ok_bind, system.fetchMap_eq (mounted.congr sameMapHead sameDirectoryHead),
    ok_bind, headerAt_congr (same head headMember),
    FileHeader.deallocate_of_clear (consistent.wellFormed head headMember)
      (numBits_freeMapOf _) here (marked_freeMapOf_blank consistent place _)]
  rfl

/-- A new file of two sectors is opened, and zeros are written to the sector
before it: `dataSectors[-1]` is `numSectors`, so that they go to sector 2, where
the free map is. -/
theorem exists_write_before :
    ∃ fileSystem disk disk₁ head header,
      format blankDisk zeros = .ok (fileSystem, disk) ∧
        Consistent disk ∧ Mounted fileSystem disk ∧
        fileSystem.create disk zeros [97] (256 : Nat) = .ok (true, disk₁) ∧
        Mounted fileSystem disk₁ ∧ Created disk [97] head header disk₁ ∧
        header.sectors.length = 2 ∧
        (headerAt disk₁ freeMapSector).sectors = [2] ∧
        Session.step ⟨fileSystem, disk₁, [⟨⟨header, 0⟩, head, false⟩]⟩
            (.writeAt zeros 0 (List.replicate 128 0) 128 (-128)) =
          .ok ⟨fileSystem, Function.update disk₁ 2 (blankDisk 0),
            [⟨⟨header, 0⟩, head, false⟩]⟩ := by
  obtain ⟨fileSystem, disk, formatted, consistent, mounted, empty, place⟩ :=
    format_spec blankDisk zeros
  rcases consistent.create_spec mounted zeros [97]
      (show 256 ≤ maxFileSize by decide) with
    ⟨noRoom, _⟩ |
      ⟨_, disk₁, head, header, _, _, created, _, _, lengthEq, mounted₁, creation⟩
  · exact absurd (consistent.room_of_empty empty [97] (by decide)) noRoom
  have headMember := Consistent.entryHead_mem creation.member
  have wellFormed := creation.consistent.wellFormed head headMember
  rw [creation.stored] at wellFormed
  have place₁ : (headerAt disk₁ freeMapSector).sectors = [2] := by
    rw [← place]
    exact congrArg FileHeader.sectors
      (creation.keepsHead consistent Consistent.mapHead_mem)
  have count : header.sectors.length = 2 := by
    rw [wellFormed.length_sectors, lengthEq]
    decide
  have apart : header.sectors.length ∉ header.sectors := by
    rw [count, ← creation.stored]
    intro own
    refine creation.consistent.disjoint Consistent.mapHead_mem headMember
      (creation.consistent.entry_ne_system creation.member).1.symm
      (List.mem_cons_of_mem freeMapSector ?_) (List.mem_cons_of_mem head own)
    rw [place₁]
    exact List.mem_cons_self
  have written :=
    @OpenFile.writeAt_before ⟨header, 0⟩ wellFormed
      (by rw [lengthEq]; decide) apart disk₁ zeros (blankDisk 0)
  rw [count] at written
  refine ⟨fileSystem, disk, disk₁, head, header, formatted, consistent, mounted,
    created, mounted₁, creation, count, place₁, ?_⟩
  simp only [Session.step, List.getElem?_cons_zero]
  rw [show OpenFile.writeAt ⟨header, 0⟩ disk₁ zeros (List.replicate 128 0) 128
    (-128) = _ from written, ok_bind]
  rfl

/-- The write returns, and the `Remove` after it fails: no bit of the free map
is marked any more. -/
theorem remove_fails_after_write_before :
    ∃ fileSystem disk disk₁ opened session,
      format blankDisk zeros = .ok (fileSystem, disk) ∧
        Consistent disk ∧ Mounted fileSystem disk ∧
        fileSystem.create disk zeros [97] (256 : Nat) = .ok (true, disk₁) ∧
        Session.step ⟨fileSystem, disk₁, []⟩ (.openFile zeros [97]) =
          .ok opened ∧
        opened.step (.writeAt zeros 0 (List.replicate 128 0) 128 (-128)) =
          .ok session ∧
        fileSystem.remove session.disk zeros [97] =
          .error (.assertion .fileHeaderDeallocate) := by
  obtain ⟨fileSystem, disk, disk₁, head, header, formatted, consistent, mounted,
    created, mounted₁, creation, count, place, written⟩ := exists_write_before
  exact ⟨fileSystem, disk, disk₁, _, _, formatted, consistent, mounted, created,
    creation.step_openFile mounted₁ zeros [], written,
    remove_of_blankMap creation.consistent mounted₁ zeros creation.member
      creation.found (by rw [creation.stored, count]; decide) place⟩

end Nachos
