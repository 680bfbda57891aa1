import Nachos.Filesys.Access
import Nachos.Filesys.Format
import Nachos.Foundation.Transitions

/-!
# Runs of the file system
-/

namespace Nachos

open Foundation
open FileSystem

/-- An open file, with the header sector it was opened from and whether the
file has been removed since. -/
structure Handle where
  file : OpenFile
  head : Nat
  removed : Bool

structure Session where
  fileSystem : FileSystem
  disk : DiskImage
  handles : List Handle

inductive Operation where
  | create (memory : Memory) (name : List Byte) (initialSize : Int)
  | remove (memory : Memory) (name : List Byte)
  | remount
  | openFile (memory : Memory) (name : List Byte)
  | writeAt
      (memory : Memory) (handle : Nat) (source : List Byte)
      (numBytes position : Int)

def IntArguments (numBytes position : Int) : Prop :=
  (-2 ^ 31 ≤ numBytes ∧ numBytes < 2 ^ 31) ∧
    -2 ^ 31 ≤ position ∧ position < 2 ^ 31

namespace Session

def retire (head : Nat) (handles : List Handle) : List Handle :=
  handles.map (fun handle =>
    if handle.head = head then { handle with removed := true } else handle)

def step (session : Session) : Operation → Except Fault Session
  | .create memory name initialSize => do
    let (_, disk) ←
      session.fileSystem.create session.disk memory name initialSize
    return { session with disk := disk }
  | .remove memory name => do
    let head := (directoryOf session.disk).find name
    let (success, disk) ← session.fileSystem.remove session.disk memory name
    return { session with
      disk := disk
      handles :=
        if success then
          retire head.toNat session.handles
        else
          session.handles }
  | .remount => do
    let fileSystem ← mount session.disk
    return { session with fileSystem := fileSystem }
  | .openFile memory name => do
    let head := (directoryOf session.disk).find name
    match ← session.fileSystem.openFile session.disk memory name with
    | some file =>
      return { session with
        handles := session.handles ++ [⟨file, head.toNat, false⟩] }
    | none => return session
  | .writeAt memory handle source numBytes position =>
    match session.handles[handle]? with
    | some handle => do
      let (_, disk) ←
        handle.file.writeAt session.disk memory source numBytes position
      return { session with disk := disk }
    | none => .ok session

/-- The operations a session admits: file sizes within the documented limit,
and writes without `int` overflow, from a buffer that holds the bytes to be
written, through handles of files that were not removed. -/
def Allows (session : Session) : Operation → Prop
  | .create _ _ initialSize => 0 ≤ initialSize ∧ initialSize ≤ maxFileSize
  | .writeAt _ handle source numBytes position =>
    (∃ opened, session.handles[handle]? = some opened ∧
      opened.removed = false) ∧
      0 ≤ position ∧ position + numBytes < 2 ^ 31 ∧
      numBytes ≤ source.length
  | .remove _ _ | .remount | .openFile _ _ => True

def system : TransitionSystem Session Operation where
  start session :=
    session.handles = [] ∧
      ∃ disk memory,
        format disk memory = .ok (session.fileSystem, session.disk)
  step session operation next :=
    session.Allows operation ∧ session.step operation = .ok next

structure Sound (session : Session) : Prop where
  consistent : Consistent session.disk
  mounted : Mounted session.fileSystem session.disk
  handles : ∀ handle ∈ session.handles, handle.removed = false →
    handle.head ∈ (directoryOf session.disk).heads ∧
      handle.file.hdr = headerAt session.disk handle.head

theorem sound_start
    {session : Session} (starting : system.start session) : Sound session := by
  obtain ⟨noHandles, disk, memory, formatted⟩ := starting
  obtain ⟨fileSystem, disk', result, consistent, mounted, _⟩ :=
    format_spec disk memory
  rw [formatted] at result
  obtain ⟨sameSystem, sameDisk⟩ := Prod.mk.inj (Except.ok.inj result)
  rw [← sameDisk] at consistent mounted
  rw [← sameSystem] at mounted
  refine ⟨consistent, mounted, ?_⟩
  rw [noHandles]
  simp

private theorem handles_of_keepsFiles
    {session : Session} (sound : Sound session) {disk' : DiskImage}
    {gone : List Nat} (keeps : KeepsFiles session.disk disk' gone)
    {handle : Handle} (member : handle ∈ session.handles)
    (present : handle.removed = false) (notGone : handle.head ∉ gone) :
    handle.head ∈ (directoryOf disk').heads ∧
      handle.file.hdr = headerAt disk' handle.head := by
  obtain ⟨entry, sameHeader⟩ := sound.handles handle member present
  obtain ⟨entry', sameHeader'⟩ := keeps handle.head entry notGone
  exact ⟨entry', by rw [sameHeader', sameHeader]⟩

private theorem mem_retire
    {head : Nat} {handles : List Handle} {handle : Handle}
    (member : handle ∈ retire head handles)
    (present : handle.removed = false) :
    handle ∈ handles ∧ handle.head ≠ head := by
  obtain ⟨old, oldMember, rfl⟩ := List.mem_map.mp member
  split_ifs at present ⊢ with same
  exact ⟨oldMember, same⟩

theorem Sound.write_live
    {session : Session} (sound : Sound session) {opened : Handle}
    (member : opened ∈ session.handles) (present : opened.removed = false)
    {disk' : DiskImage}
    (frame : ∀ sector, sector ∉ opened.file.hdr.sectors →
      disk' sector = session.disk sector) :
    Sound { session with disk := disk' } := by
  obtain ⟨entry, sameHeader⟩ := sound.handles opened member present
  rw [sameHeader] at frame
  obtain ⟨consistent, sameDirectory, _, sameHead⟩ :=
    sound.consistent.write_data entry frame
  refine ⟨consistent,
    sound.mounted.congr (sameHead _ Consistent.mapHead_mem)
      (sameHead _ Consistent.directoryHead_mem), ?_⟩
  intro other otherMember otherPresent
  obtain ⟨otherEntry, otherHeader⟩ :=
    sound.handles other otherMember otherPresent
  refine ⟨?_, ?_⟩
  · simp only [sameDirectory]
    exact otherEntry
  · rw [otherHeader]
    exact (headerAt_congr
      (sameHead _ (Consistent.entryHead_mem otherEntry))).symm

theorem Sound.handle_wellFormed
    {session : Session} (sound : Sound session) {opened : Handle}
    (member : opened ∈ session.handles) (present : opened.removed = false) :
    opened.file.hdr.WellFormed ∧ opened.file.hdr.sectors.Nodup := by
  obtain ⟨entry, sameHeader⟩ := sound.handles opened member present
  have headMember := Consistent.entryHead_mem entry
  rw [sameHeader]
  exact ⟨sound.consistent.wellFormed _ headMember,
    (List.nodup_cons.mp (sound.consistent.fileSectors_nodup headMember)).2⟩

/-- Every operation that a session admits returns, and keeps it sound. -/
theorem Sound.step
    {session : Session} (sound : Sound session) {operation : Operation}
    (allowed : session.Allows operation) :
    ∃ next, session.step operation = .ok next ∧ Sound next := by
  cases operation with
  | create memory name initialSize =>
    obtain ⟨nonnegative, small⟩ := allowed
    obtain ⟨size, rfl⟩ := Int.eq_ofNat_of_zero_le nonnegative
    rcases sound.consistent.create_spec sound.mounted memory name
        (show size ≤ maxFileSize by omega) with
      ⟨_, failed⟩ | ⟨_, disk', _, _, _, _, done, _, _, _, mounted, created⟩
    · refine ⟨session, ?_, sound⟩
      simp only [Session.step, failed, ok_bind]
      rfl
    · refine ⟨{ session with disk := disk' }, ?_, created.consistent, mounted,
        ?_⟩
      · simp only [Session.step, done, ok_bind]
        rfl
      · intro handle member present
        exact handles_of_keepsFiles sound
          (created.keepsFiles sound.consistent) member present
          List.not_mem_nil
  | remove memory name =>
    rcases sound.consistent.remove_spec sound.mounted memory name with
      ⟨_, failed⟩ | ⟨disk', head, done, mounted, removed⟩
    · refine ⟨session, ?_, sound⟩
      simp only [Session.step, failed, ok_bind]
      rfl
    · refine ⟨{ session with
        disk := disk'
        handles := retire head session.handles }, ?_, removed.consistent,
        mounted, ?_⟩
      · simp only [Session.step, done, ok_bind, removed.found]
        rfl
      · intro handle member present
        obtain ⟨oldMember, different⟩ := mem_retire member present
        exact handles_of_keepsFiles sound
          (removed.keepsFiles sound.consistent) oldMember present
          (by simpa using different)
  | remount =>
    obtain ⟨fileSystem, isMounted, mounted⟩ := mount_spec session.disk
    refine ⟨{ session with fileSystem := fileSystem }, ?_,
      sound.consistent, mounted, sound.handles⟩
    simp only [Session.step, isMounted, ok_bind]
    rfl
  | openFile memory name =>
    rcases sound.consistent.openFile_spec sound.mounted memory name with
      ⟨_, missing⟩ | ⟨head, found, entry, opened⟩
    · refine ⟨session, ?_, sound⟩
      simp only [Session.step, missing, ok_bind]
      rfl
    · refine ⟨{ session with
        handles := session.handles ++
          [⟨⟨headerAt session.disk head, 0⟩, head, false⟩] }, ?_,
        sound.consistent, sound.mounted, ?_⟩
      · simp only [Session.step, opened, ok_bind, found]
        rfl
      · intro handle member present
        rcases List.mem_append.mp member with old | new
        · exact sound.handles handle old present
        · rw [List.mem_singleton] at new
          subst new
          exact ⟨entry, rfl⟩
  | writeAt memory handle source numBytes position =>
    obtain ⟨⟨opened, lookup, present⟩, nonnegative, small, supplied⟩ := allowed
    have member := List.mem_of_getElem? lookup
    obtain ⟨disk', written, frame, _⟩ :=
      OpenFile.writeAt_safe (sound.handle_wellFormed member present).1
        (Or.inr (Or.inr ⟨nonnegative, small⟩)) session.disk memory
        (show opened.file.transferred numBytes position ≤ source.length by
          unfold OpenFile.transferred
          omega)
    refine ⟨{ session with disk := disk' }, ?_,
      sound.write_live member present frame⟩
    simp only [Session.step, lookup, written, ok_bind]
    rfl

/-- In every reachable session the bitmap on disk marks exactly the sectors of
the two system files and of the files in the directory, all of them distinct,
and every admitted operation returns: no `ASSERT` ever fires. -/
theorem consistent_of_reachable :
    (∀ disk memory, ∃ fileSystem disk',
        format disk memory = .ok (fileSystem, disk')) ∧
      ∀ session, system.Reachable session →
        (∀ sector < Disk.numSectors,
          ((freeMapOf session.disk).marked sector = true ↔
            sector ∈ ownedSectors session.disk)) ∧
        (∀ sector ∈ ownedSectors session.disk, sector < Disk.numSectors) ∧
        (ownedSectors session.disk).Nodup ∧
        (∀ head ∈ heads session.disk,
          ((headerAt session.disk head).sectors.length : Int) =
            (headerAt session.disk head).numSectors.toInt) ∧
        ∀ operation, session.Allows operation →
          ∃ next, session.step operation = .ok next := by
  refine ⟨?_, ?_⟩
  · intro disk memory
    obtain ⟨fileSystem, disk', formatted, _⟩ := format_spec disk memory
    exact ⟨fileSystem, disk', formatted⟩
  · intro session reachable
    have sound : Sound session := by
      refine reachable.invariant (fun _ => sound_start) ?_
      rintro source operation target sound ⟨allowed, stepped⟩
      obtain ⟨next, result, soundNext⟩ := sound.step allowed
      rw [stepped] at result
      cases result
      exact soundNext
    refine ⟨sound.consistent.marked, ?_, sound.consistent.nodup, ?_, ?_⟩
    · intro sector owned
      exact sound.consistent.owned_inRange owned
    · intro head member
      exact (sound.consistent.wellFormed head member).length_sectors_eq
    · intro operation allowed
      obtain ⟨next, result, _⟩ := sound.step allowed
      exact ⟨next, result⟩

theorem consistent_after_first_create :
    ∃ blank created : Session,
      system.start blank ∧
        blank.step (.create (fun _ _ => 0) [97] 300) = .ok created ∧
        (ownedSectors created.disk).Nodup ∧
        ∀ sector < Disk.numSectors,
          ((freeMapOf created.disk).marked sector = true ↔
            sector ∈ ownedSectors created.disk) := by
  obtain ⟨fileSystem, disk, formatted⟩ :=
    consistent_of_reachable.1
      (fun _ => ⟨List.replicate Disk.sectorSize 0, List.length_replicate⟩)
      (fun _ _ => 0)
  have starting : system.start ⟨fileSystem, disk, []⟩ := ⟨rfl, _, _, formatted⟩
  have allowed : Session.Allows ⟨fileSystem, disk, []⟩
      (.create (fun _ _ => 0) [97] 300) := by
    constructor <;> decide
  obtain ⟨_, _, _, _, returns⟩ := consistent_of_reachable.2 _ (.start starting)
  obtain ⟨created, stepped⟩ := returns _ allowed
  obtain ⟨marked, _, nodup, _⟩ :=
    consistent_of_reachable.2 created
      (.step (.start starting) ⟨allowed, stepped⟩)
  exact ⟨_, created, starting, stepped, nodup, marked⟩

end Session

end Nachos
