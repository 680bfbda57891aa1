import Nachos.Filesys.Removal

/-!
# Isolation of open files

A handle keeps the file header that it was opened with.  `Remove` does not know
of the handles, so that the sectors of a header may come to belong to another
file.
-/

namespace Nachos

open Foundation
open FileSystem

/-- What a write through `handle` has to leave alone: every file header, the
free map, the directory, and the files in the directory other than the one the
handle was opened for. -/
structure Isolated (handle : Handle) (disk disk' : DiskImage) : Prop where
  headers : ∀ head ∈ heads disk, disk' head = disk head
  freeMap :
    OpenFile.fileBytes disk' (headerAt disk freeMapSector) =
      OpenFile.fileBytes disk (headerAt disk freeMapSector)
  directory :
    OpenFile.fileBytes disk' (headerAt disk directorySector) =
      OpenFile.fileBytes disk (headerAt disk directorySector)
  files : ∀ head ∈ (directoryOf disk).heads,
    handle.removed = true ∨ head ≠ handle.head →
    OpenFile.fileBytes disk' (headerAt disk head) =
      OpenFile.fileBytes disk (headerAt disk head)

/-- The file of the handle is still there, or none of the sectors in its header
belongs to a file. -/
def Separate (handle : Handle) (disk : DiskImage) : Prop :=
  handle.removed = false ∨
    ∀ sector ∈ handle.file.hdr.sectors, sector ∉ ownedSectors disk

namespace Isolated

variable {handle : Handle} {disk disk' : DiskImage}

theorem freeMapOf_eq (isolated : Isolated handle disk disk') :
    freeMapOf disk' = freeMapOf disk := by
  unfold freeMapOf
  rw [headerAt_congr (isolated.headers _ Consistent.mapHead_mem),
    isolated.freeMap]

theorem directoryOf_eq (isolated : Isolated handle disk disk') :
    directoryOf disk' = directoryOf disk := by
  unfold directoryOf
  rw [headerAt_congr (isolated.headers _ Consistent.directoryHead_mem),
    isolated.directory]

end Isolated

namespace Session

/-- The operations of an isolated run: files of any size that a header can
describe, and writes through any handle with any arguments that left the rest
of the disk alone. -/
def Isolates (session : Session) (next : Session) : Operation → Prop
  | .create _ _ initialSize => 0 ≤ initialSize ∧ initialSize ≤ maxFileSize
  | .writeAt _ index _ numBytes position =>
    IntArguments numBytes position ∧
      ∀ handle, session.handles[index]? = some handle →
        Isolated handle session.disk next.disk
  | .remove _ _ | .remount | .openFile _ _ => True

/-- All runs from a formatted disk in which no write has disturbed another file
so far. -/
def isolatedRuns : TransitionSystem Session Operation where
  start := system.start
  step session operation next :=
    session.Isolates next operation ∧ session.step operation = .ok next

structure SoundHandles (session : Session) : Prop where
  sound : Sound session
  wellFormed : ∀ handle ∈ session.handles, handle.file.hdr.WellFormed
  nodup : ∀ handle ∈ session.handles, handle.file.hdr.sectors.Nodup

private theorem removed_of_step
    {session next : Session} {operation : Operation}
    (stepped : session.step operation = .ok next) :
    ∀ handle ∈ next.handles, handle.removed = true →
      ∃ old ∈ session.handles, old.file = handle.file := by
  intro handle member gone
  cases operation with
  | create memory name initialSize =>
    obtain ⟨_, _, stepped⟩ := exists_of_bind_eq_ok stepped
    cases stepped
    exact ⟨handle, member, rfl⟩
  | remove memory name =>
    obtain ⟨⟨success, _⟩, _, stepped⟩ := exists_of_bind_eq_ok stepped
    cases stepped
    cases success with
    | true =>
      obtain ⟨old, oldMember, rfl⟩ := List.mem_map.mp member
      refine ⟨old, oldMember, ?_⟩
      split_ifs <;> rfl
    | false =>
      exact ⟨handle, member, rfl⟩
  | remount =>
    obtain ⟨_, _, stepped⟩ := exists_of_bind_eq_ok stepped
    cases stepped
    exact ⟨handle, member, rfl⟩
  | openFile memory name =>
    obtain ⟨opened, _, stepped⟩ := exists_of_bind_eq_ok stepped
    cases opened with
    | some file =>
      cases stepped
      rcases List.mem_append.mp member with old | new
      · exact ⟨handle, old, rfl⟩
      · rw [List.mem_singleton] at new
        rw [new] at gone
        cases gone
    | none =>
      cases stepped
      exact ⟨handle, member, rfl⟩
  | writeAt memory index source numBytes position =>
    cases lookup : session.handles[index]? with
    | some opened =>
      simp only [Session.step, lookup] at stepped
      obtain ⟨_, _, stepped⟩ := exists_of_bind_eq_ok stepped
      cases stepped
      exact ⟨handle, member, rfl⟩
    | none =>
      simp only [Session.step, lookup] at stepped
      cases stepped
      exact ⟨handle, member, rfl⟩

private theorem soundHandles_of_step
    {session next : Session} (sound : SoundHandles session)
    {operation : Operation} (stepped : session.step operation = .ok next)
    (soundNext : Sound next) : SoundHandles next := by
  have kept := removed_of_step stepped
  have both : ∀ handle ∈ next.handles,
      handle.file.hdr.WellFormed ∧ handle.file.hdr.sectors.Nodup := by
    intro handle member
    cases present : handle.removed with
    | false =>
      exact soundNext.handle_wellFormed member present
    | true =>
      obtain ⟨old, oldMember, sameFile⟩ := kept handle member present
      rw [← sameFile]
      exact ⟨sound.wellFormed old oldMember, sound.nodup old oldMember⟩
  exact ⟨soundNext, fun handle member => (both handle member).1,
    fun handle member => (both handle member).2⟩

theorem Sound.write_isolated
    {session : Session} (sound : Sound session) {handle : Handle}
    {disk' : DiskImage} (isolated : Isolated handle session.disk disk') :
    Sound { session with disk := disk' } := by
  refine ⟨sound.consistent.of_decoded isolated.headers isolated.freeMapOf_eq
      isolated.directoryOf_eq,
    sound.mounted.congr (isolated.headers _ Consistent.mapHead_mem)
      (isolated.headers _ Consistent.directoryHead_mem), ?_⟩
  intro other member present
  obtain ⟨entry, sameHeader⟩ := sound.handles other member present
  refine ⟨?_, ?_⟩
  · simp only [isolated.directoryOf_eq]
    exact entry
  · rw [sameHeader]
    exact (headerAt_congr
      (isolated.headers _ (Consistent.entryHead_mem entry))).symm

theorem soundHandles_of_reachable
    {session : Session} (reachable : isolatedRuns.Reachable session) :
    SoundHandles session := by
  refine reachable.invariant ?_ ?_
  · intro session starting
    refine ⟨sound_start starting, ?_, ?_⟩ <;> simp [starting.1]
  · rintro session operation next sound ⟨isolates, stepped⟩
    apply soundHandles_of_step sound stepped
    have admitted : session.Allows operation → Sound next := by
      intro allowed
      obtain ⟨reached, result, soundNext⟩ := sound.sound.step allowed
      cases stepped.symm.trans result
      exact soundNext
    cases operation with
    | create memory name initialSize =>
      exact admitted isolates
    | remove | remount | openFile =>
      exact admitted trivial
    | writeAt memory index source numBytes position =>
      cases lookup : session.handles[index]? with
      | none =>
        simp only [Session.step, lookup] at stepped
        cases stepped
        exact sound.sound
      | some handle =>
        have isolated := isolates.2 handle lookup
        simp only [Session.step, lookup] at stepped
        obtain ⟨_, _, stepped⟩ := exists_of_bind_eq_ok stepped
        cases stepped
        exact sound.sound.write_isolated isolated

/-! ## Separate handles -/

variable {session : Session} {handle : Handle}

/-- No sector of a separate handle is a header, or belongs to a file other than
its own. -/
theorem SoundHandles.apart
    (sound : SoundHandles session) (member : handle ∈ session.handles)
    (separate : Separate handle session.disk) {head : Nat}
    (headMember : head ∈ heads session.disk) :
    head ∉ handle.file.hdr.sectors ∧
      (handle.removed = true ∨ head ≠ handle.head →
        ∀ sector ∈ (headerAt session.disk head).sectors,
          sector ∉ handle.file.hdr.sectors) := by
  rcases separate with present | unowned
  · obtain ⟨entry, sameHeader⟩ := sound.sound.handles handle member present
    have ownMember := Consistent.entryHead_mem entry
    rw [sameHeader, present]
    refine ⟨sound.sound.consistent.head_not_mem_sectors headMember ownMember, ?_⟩
    rintro (impossible | different) sector data own
    · cases impossible
    · exact sound.sound.consistent.disjoint headMember ownMember different
        (List.mem_cons_of_mem _ data) (List.mem_cons_of_mem _ own)
  · exact ⟨fun own => unowned head own (Consistent.head_owned headMember),
      fun _ sector data own =>
        unowned sector own (Consistent.data_owned headMember data)⟩

private theorem system_not_own
    (sound : SoundHandles session) (member : handle ∈ session.handles) :
    (handle.removed = true ∨ freeMapSector ≠ handle.head) ∧
      (handle.removed = true ∨ directorySector ≠ handle.head) := by
  cases present : handle.removed with
  | true =>
    simp
  | false =>
    obtain ⟨entry, _⟩ := sound.sound.handles handle member present
    obtain ⟨notMap, notDirectory⟩ :=
      sound.sound.consistent.entry_ne_system entry
    exact ⟨Or.inr notMap.symm, Or.inr notDirectory.symm⟩

/-- A write inside the sectors of a separate handle disturbs no other file. -/
theorem isolated_of_separate
    (sound : SoundHandles session) (member : handle ∈ session.handles)
    (separate : Separate handle session.disk) {disk' : DiskImage}
    (frame : ∀ sector, sector ∉ handle.file.hdr.sectors →
      disk' sector = session.disk sector) :
    Isolated handle session.disk disk' := by
  obtain ⟨mapOther, directoryOther⟩ := system_not_own sound member
  have bytes : ∀ head ∈ heads session.disk,
      handle.removed = true ∨ head ≠ handle.head →
      OpenFile.fileBytes disk' (headerAt session.disk head) =
        OpenFile.fileBytes session.disk (headerAt session.disk head) := by
    intro head headMember other
    exact OpenFile.fileBytes_congr fun sector data =>
      frame sector ((sound.apart member separate headMember).2 other sector data)
  exact ⟨fun head headMember =>
      frame head (sound.apart member separate headMember).1,
    bytes _ Consistent.mapHead_mem mapOther,
    bytes _ Consistent.directoryHead_mem directoryOther,
    fun head entry => bytes head (Consistent.entryHead_mem entry)⟩

private theorem exists_other_byte (old : Option Byte) :
    ∃ byte : Byte, some byte ≠ old := by
  by_cases zero : some 0 = old
  · exact ⟨1, by rw [← zero]; decide⟩
  · exact ⟨0, zero⟩

/-- Through a handle every sector in its header can be changed. -/
private theorem exists_changing_write
    (sound : SoundHandles session) (member : handle ∈ session.handles)
    (memory : Memory) {sector : Nat} (own : sector ∈ handle.file.hdr.sectors) :
    ∃ (byte : Byte) (position : Nat) (count : Int) (disk' : DiskImage),
      position + 1 < 2 ^ 31 ∧
        handle.file.writeAt session.disk memory [byte] 1 position =
          .ok (count, disk') ∧
        (disk' sector).bytes[0]? ≠ (session.disk sector).bytes[0]? := by
  have wellFormed := sound.wellFormed handle member
  have lengthBound := wellFormed.length_le
  simp only [maxFileSize, numDirect, Disk.sectorSize] at lengthBound
  obtain ⟨⟨index, inside⟩, rfl⟩ := List.get_of_mem own
  have begins := (OpenFile.fileBytes_sector wellFormed session.disk inside).1
  obtain ⟨byte, different⟩ :=
    exists_other_byte
      (session.disk (handle.file.hdr.sectors.get ⟨index, inside⟩)).bytes[0]?
  have amount :
      handle.file.transferred 1 ((Disk.sectorSize * index : Nat) : Int) = 1 := by
    unfold OpenFile.transferred
    omega
  obtain ⟨disk', written, _, bytes⟩ :=
    @OpenFile.writeAt_safe handle.file 1 ((Disk.sectorSize * index : Nat) : Int)
      wellFormed (Or.inr (Or.inr (by omega))) session.disk memory [byte]
      (by rw [amount]; exact Int.le_refl _)
  refine ⟨byte, Disk.sectorSize * index, _, disk', by omega, written, ?_⟩
  have stored := bytes (sound.nodup handle member) _ begins
  rw [amount, if_pos (by omega), Int.toNat_natCast, Nat.sub_self,
    List.getElem?_cons_zero,
    (OpenFile.fileBytes_sector wellFormed disk' inside).2] at stored
  rw [stored]
  exact different

/-- A change to the first byte of an owned sector is not isolated, if the file
of the handle is gone. -/
private theorem not_isolated_of_owned
    (sound : SoundHandles session) (gone : handle.removed = true)
    {sector : Nat} (owned : sector ∈ ownedSectors session.disk)
    {disk' : DiskImage}
    (changed : (disk' sector).bytes[0]? ≠ (session.disk sector).bytes[0]?) :
    ¬ Isolated handle session.disk disk' := by
  intro isolated
  obtain ⟨head, headMember, own⟩ := List.mem_flatMap.mp owned
  rcases List.mem_cons.mp own with rfl | data
  · exact changed (by rw [isolated.headers sector headMember])
  · have sameBytes :
        OpenFile.fileBytes disk' (headerAt session.disk head) =
          OpenFile.fileBytes session.disk (headerAt session.disk head) := by
      rcases List.mem_cons.mp headMember with rfl | headMember
      · exact isolated.freeMap
      · rcases List.mem_cons.mp headMember with rfl | entry
        · exact isolated.directory
        · exact isolated.files head entry (Or.inl gone)
    have wellFormed := sound.sound.consistent.wellFormed head headMember
    obtain ⟨⟨index, inside⟩, rfl⟩ := List.get_of_mem data
    apply changed
    rw [← (OpenFile.fileBytes_sector wellFormed disk' inside).2, sameBytes,
      (OpenFile.fileBytes_sector wellFormed session.disk inside).2]

/-- In every run in which no write has disturbed another file so far: the safe
writes through a handle disturb none exactly if the file of the handle is still
there or none of its sectors has been handed out again. -/
theorem handle_isolated_iff
    (reachable : isolatedRuns.Reachable session) {index : Nat}
    (lookup : session.handles[index]? = some handle) :
    (∀ memory source numBytes position next,
        IntArguments numBytes position →
        handle.file.Safe numBytes position →
        session.step (.writeAt memory index source numBytes position) =
          .ok next →
        Isolated handle session.disk next.disk) ↔
      Separate handle session.disk := by
  have sound := soundHandles_of_reachable reachable
  have member := List.mem_of_getElem? lookup
  constructor
  · intro allIsolated
    by_contra shared
    unfold Separate at shared
    rw [not_or] at shared
    obtain ⟨gone, shared⟩ := shared
    rw [Bool.not_eq_false] at gone
    push Not at shared
    obtain ⟨sector, own, owned⟩ := shared
    obtain ⟨byte, position, count, disk', small, written, changed⟩ :=
      exists_changing_write sound member (fun _ _ => 0) own
    refine not_isolated_of_owned sound gone owned changed
      (allIsolated (fun _ _ => 0) [byte] 1 position
        { session with disk := disk' } ?_ ?_ ?_)
    · unfold IntArguments
      omega
    · unfold OpenFile.Safe
      omega
    · simp only [Session.step, lookup, written, ok_bind]
      rfl
  · intro separate memory source numBytes position next _ safe stepped
    simp only [Session.step, lookup] at stepped
    obtain ⟨⟨count, disk'⟩, written, stepped⟩ := exists_of_bind_eq_ok stepped
    cases stepped
    exact isolated_of_separate sound member separate
      (OpenFile.frame_of_writeAt (sound.wellFormed handle member) safe written)

private theorem first_file :
    ∃ fileSystem disk disk₁ head header headMap freeMap,
      format blankDisk zeros = .ok (fileSystem, disk) ∧
        Consistent disk ∧ (directoryOf disk).heads = [] ∧
        (freeMapOf disk).findAndSet = .ok ((head : Nat), headMap) ∧
        (newHeader (zeros 3)).allocate headMap (1 : Nat) =
          .ok (true, header, freeMap) ∧
        header.length = 1 ∧ Mounted fileSystem disk₁ ∧
        Created disk [97] head header disk₁ ∧
        isolatedRuns.Run ⟨fileSystem, disk, []⟩
          [.create zeros [97] 1, .openFile zeros [97]]
          ⟨fileSystem, disk₁, [⟨⟨header, 0⟩, head, false⟩]⟩ := by
  obtain ⟨fileSystem, disk, formatted, consistent, mounted, empty, _⟩ :=
    format_spec blankDisk zeros
  rcases consistent.create_spec mounted zeros [97]
      (show 1 ≤ maxFileSize by decide) with
    ⟨noRoom, _⟩ |
      ⟨_, disk₁, head, header, headMap, freeMap, done, taken, allocated,
        lengthEq, mounted₁, creation⟩
  · exact absurd (consistent.room_of_empty empty [97] (by decide)) noRoom
  have created :
      Session.step ⟨fileSystem, disk, []⟩ (.create zeros [97] 1) =
        .ok ⟨fileSystem, disk₁, []⟩ := by
    have done' : fileSystem.create disk zeros [97] 1 = .ok (true, disk₁) := done
    simp only [Session.step, done', ok_bind]
    rfl
  have opened := creation.step_openFile mounted₁ zeros []
  refine ⟨fileSystem, disk, disk₁, head, header, headMap, freeMap, formatted,
    consistent, empty, taken, allocated, lengthEq, mounted₁, creation, ?_⟩
  have sizes : (0 : Int) ≤ 1 ∧ (1 : Int) ≤ maxFileSize := by decide
  exact TransitionSystem.Run.snoc
    (TransitionSystem.Run.snoc (TransitionSystem.Run.nil _)
      (And.intro sizes created))
    (And.intro trivial opened)

theorem handle_isolated_of_first_file :
    ∃ session handle,
      isolatedRuns.Reachable session ∧ session.handles[0]? = some handle ∧
        ∀ memory source numBytes position next,
          IntArguments numBytes position →
          handle.file.Safe numBytes position →
          session.step (.writeAt memory 0 source numBytes position) =
            .ok next →
          Isolated handle session.disk next.disk := by
  obtain ⟨fileSystem, disk, disk₁, head, header, _, _, formatted, _, _, _, _, _,
      _, _, run⟩ := first_file
  have reachable := run.reachable (.start ⟨rfl, _, _, formatted⟩)
  exact ⟨_, ⟨⟨header, 0⟩, head, false⟩, reachable, rfl,
    (@handle_isolated_iff _ ⟨⟨header, 0⟩, head, false⟩ reachable 0 rfl).mpr
      (Or.inl rfl)⟩

/-- A file is created and opened, and removed while it is open; a second file of
the same size gets its sectors.  A write through the old handle changes the
second file. -/
theorem stale_handle_disturbs :
    ∃ start session handle source position next head,
      system.start start ∧
        isolatedRuns.Run start
          [.create zeros [97] 1, .openFile zeros [97], .remove zeros [97],
            .create zeros [98] 1] session ∧
        session.handles[0]? = some handle ∧ handle.removed = true ∧
        session.step (.writeAt zeros 0 source 1 position) = .ok next ∧
        (directoryOf session.disk).find [98] = head ∧
        OpenFile.fileBytes next.disk (headerAt session.disk head.toNat) ≠
          OpenFile.fileBytes session.disk (headerAt session.disk head.toNat) := by
  obtain ⟨fileSystem, disk, disk₁, head, header, headMap, freeMap, formatted,
      consistent, empty, taken, allocated, lengthEq, mounted₁, creation, run⟩ :=
    first_file
  -- the file is removed, which leaves the free map as it was at first
  rcases creation.consistent.remove_spec mounted₁ zeros [97] with
    ⟨missing, _⟩ | ⟨disk₂, gone, removedOk, mounted₂, removed⟩
  · rw [creation.found] at missing
    omega
  obtain ⟨rfl, sameMap, _⟩ := creation.undone rfl rfl creation.stored removed
  have empty₂ : (directoryOf disk₂).heads = [] := by
    have perm := (removed.headsPerm.symm.trans creation.headsPerm).cons_inv
    rw [empty] at perm
    exact perm.eq_nil
  -- so the second file gets the header sector and the data sectors of the first
  rcases removed.consistent.create_spec mounted₂ zeros [98]
      (show 1 ≤ maxFileSize by decide) with
    ⟨noRoom, _⟩ |
      ⟨_, disk₃, second, header', headMap', freeMap', done, taken', allocated',
        _, mounted₃, creation'⟩
  · exact absurd (removed.consistent.room_of_empty empty₂ [98] (by decide))
      noRoom
  rw [sameMap] at taken'
  cases taken.symm.trans taken'
  cases allocated.symm.trans allocated'
  have retired :
      Session.step ⟨fileSystem, disk₁, [⟨⟨header, 0⟩, gone, false⟩]⟩
          (.remove zeros [97]) =
        .ok ⟨fileSystem, disk₂, [⟨⟨header, 0⟩, gone, true⟩]⟩ := by
    simp only [Session.step, removedOk, ok_bind, removed.found, retire,
      Int.toNat_natCast, List.map_cons, List.map_nil, if_true]
    rfl
  have created :
      Session.step ⟨fileSystem, disk₂, [⟨⟨header, 0⟩, gone, true⟩]⟩
          (.create zeros [98] 1) =
        .ok ⟨fileSystem, disk₃, [⟨⟨header, 0⟩, gone, true⟩]⟩ := by
    have done' : fileSystem.create disk₂ zeros [98] 1 = .ok (true, disk₃) := done
    simp only [Session.step, done', ok_bind]
    rfl
  have sizes : (0 : Int) ≤ 1 ∧ (1 : Int) ≤ maxFileSize := by decide
  have removal :
      isolatedRuns.step
        ⟨fileSystem, disk₁, [⟨⟨header, 0⟩, gone, false⟩]⟩ (.remove zeros [97])
        ⟨fileSystem, disk₂, [⟨⟨header, 0⟩, gone, true⟩]⟩ :=
    And.intro trivial retired
  have whole :
      isolatedRuns.Run ⟨fileSystem, disk, []⟩
        [.create zeros [97] 1, .openFile zeros [97], .remove zeros [97],
          .create zeros [98] 1]
        ⟨fileSystem, disk₃, [⟨⟨header, 0⟩, gone, true⟩]⟩ :=
    TransitionSystem.Run.snoc
      (TransitionSystem.Run.snoc run removal)
      (And.intro sizes created)
  have sound :=
    soundHandles_of_reachable (whole.reachable (.start ⟨rfl, _, _, formatted⟩))
  have wellFormed : header.WellFormed :=
    sound.wellFormed ⟨⟨header, 0⟩, gone, true⟩ List.mem_cons_self
  have inside : 0 < header.sectors.length := by
    rw [wellFormed.length_sectors, lengthEq]
    decide
  obtain ⟨byte, position, count, disk₄, _, written, changed⟩ :=
    exists_changing_write sound List.mem_cons_self zeros
      (List.get_mem header.sectors ⟨0, inside⟩)
  refine ⟨_, _, ⟨⟨header, 0⟩, gone, true⟩, [byte], position,
    ⟨fileSystem, disk₄, [⟨⟨header, 0⟩, gone, true⟩]⟩, gone,
    ⟨rfl, _, _, formatted⟩, whole, rfl, rfl, ?_, creation'.found, ?_⟩
  · simp only [Session.step, List.getElem?_cons_zero, written, ok_bind]
    rfl
  · intro same
    apply changed
    rw [Int.toNat_natCast, creation'.stored] at same
    rw [← (OpenFile.fileBytes_sector wellFormed disk₄ inside).2, same,
      (OpenFile.fileBytes_sector wellFormed disk₃ inside).2]

/-- A request that is not safe disturbs other files even through the handle of
a file that is still there. -/
theorem live_handle_disturbs :
    ∃ session handle next,
      isolatedRuns.Reachable session ∧ session.handles[0]? = some handle ∧
        handle.removed = false ∧
        session.step (.writeAt zeros 0 (List.replicate 128 0) 128 (-128)) =
          .ok next ∧
        ¬ Isolated handle session.disk next.disk := by
  obtain ⟨fileSystem, disk, disk₁, head, header, formatted, consistent, mounted,
    created, mounted₁, creation, _, place, written⟩ := exists_write_before
  have sizes : (0 : Int) ≤ 256 ∧ (256 : Int) ≤ maxFileSize := by decide
  have stepped :
      Session.step ⟨fileSystem, disk, []⟩ (.create zeros [97] 256) =
        .ok ⟨fileSystem, disk₁, []⟩ := by
    have created' : fileSystem.create disk zeros [97] 256 = .ok (true, disk₁) :=
      created
    simp only [Session.step, created', ok_bind]
    rfl
  have first :
      isolatedRuns.Reachable ⟨fileSystem, disk₁, []⟩ :=
    .step (.start ⟨rfl, _, _, formatted⟩)
      (show isolatedRuns.step _ (.create zeros [97] 256) _ from
        ⟨sizes, stepped⟩)
  have reachable :
      isolatedRuns.Reachable
        ⟨fileSystem, disk₁, [⟨⟨header, 0⟩, head, false⟩]⟩ :=
    .step first
      (show isolatedRuns.step _ (.openFile zeros [97]) _ from
        ⟨trivial, creation.step_openFile mounted₁ zeros []⟩)
  refine ⟨_, ⟨⟨header, 0⟩, head, false⟩, _, reachable, rfl, rfl, written, ?_⟩
  intro isolated
  have cleared := marked_freeMapOf_blank creation.consistent place freeMapSector
  rw [isolated.freeMapOf_eq,
    (creation.consistent.marked _ (by decide)).mpr
      (Consistent.head_owned Consistent.mapHead_mem)] at cleared
  cases cleared

end Session

end Nachos
