import Nachos.Filesys.Access
import Nachos.Filesys.Creation
import Nachos.Stub.Host

/-!
# Copying files in and printing them

`Copy` and `Print` of `threads/main.cc`, which move a file in pieces between
UNIX, the simulated disk and the terminal.  The loops take a bound on their
turns; the bounds that suffice are part of the results.
-/

namespace Nachos.Main

open Foundation
open FileSystem
open Stub (Host HostState)

variable {World : Type}

inductive Halt where
  | fault (cause : Fault)
  | abort (cause : Stub.Abort)
  /-- `openFile != NULL` in `Copy`. -/
  | notOpened
  /-- The loop takes more turns than it was given. -/
  | unfinished

def transferSize : Nat := 128

def text (message : String) : List Byte :=
  message.toList.map (fun character => BitVec.ofNat 8 character.toNat)

def copyLoop (host : Host World) (fd : Int) (memory : Nat → Memory) :
    Nat → List Byte → OpenFile → HostState World → DiskImage →
      Except Halt (OpenFile × HostState World × DiskImage)
  | 0, _, _, _, _ => .error .unfinished
  | turns + 1, buffer, openFile, state, disk => do
    let (amountRead, buffer, state) :=
      Stub.readPartial host fd buffer transferSize state
    if 0 < amountRead then
      let (_, disk, openFile) ←
        (openFile.write disk (memory turns) buffer amountRead).mapError
          .fault
      copyLoop host fd memory turns buffer openFile state disk
    else
      return (openFile, state, disk)

def copy
    (host : Host World) (fileSystem : FileSystem) (turns : Nat)
    (memory : Nat → Memory) (source target : List Byte)
    (state : HostState World) (disk : DiskImage) :
    Except Halt (List Byte × HostState World × DiskImage) := do
  let (fd, state) := Stub.openForReadWrite host source state
  if fd < 0 then
    return (text "Copy: couldn't open input file " ++ cString source ++
      text "\n", state, disk)
  else
    -- figure out the length of the UNIX file
    let state ← (Stub.lseek host fd 0 2 state).mapError .abort
    let (fileLength, state) := Stub.tell host fd state
    let state ← (Stub.lseek host fd 0 0 state).mapError .abort
    let (created, disk) ←
      (fileSystem.create disk (memory 0) target fileLength).mapError .fault
    if !created then
      let state ← (Stub.hostClose host fd state).mapError .abort
      return (text "Copy: couldn't create output file " ++ cString target ++
        text "\n", state, disk)
    else
      match ← (fileSystem.openFile disk (memory 1) target).mapError .fault with
      | none => throw .notOpened
      | some openFile =>
        let buffer ← (newChars (memory 2 0) transferSize).mapError .fault
        let (_, state, disk) ←
          copyLoop host fd (fun turn => memory (3 + turn)) turns buffer
            openFile state disk
        let state ← (Stub.hostClose host fd state).mapError .abort
        return ([], state, disk)

def printLoop (disk : DiskImage) (memory : Nat → Memory) :
    Nat → List Byte → OpenFile → List Byte → Except Halt (List Byte)
  | 0, _, _, _ => .error .unfinished
  | turns + 1, buffer, openFile, printed => do
    let (amountRead, buffer, openFile) ←
      (openFile.read disk (memory turns 0) buffer transferSize).mapError
        .fault
    if 0 < amountRead then
      let characters ← (bytesAt buffer 0 amountRead).mapError .fault
      printLoop disk memory turns buffer openFile (printed ++ characters)
    else
      return printed

def print
    (fileSystem : FileSystem) (turns : Nat) (memory : Nat → Memory)
    (name : List Byte) (disk : DiskImage) : Except Halt (List Byte) := do
  match ← (fileSystem.openFile disk (memory 0) name).mapError .fault with
  | none =>
    return text "Print: unable to open file " ++ cString name ++ text "\n"
  | some openFile =>
    let buffer ← (newChars (memory 1 0) transferSize).mapError .fault
    printLoop disk (fun turn => memory (2 + turn)) turns buffer openFile []

/-! ## The UNIX file -/

/-- A UNIX file behind descriptor `fd`.  A `read` gives some of the bytes that
are left, at least one if there are any. -/
structure SourceFile (host : Host World) (fd : Int) (contents : List Byte) where
  /-- The descriptor is open on the file, at a position. -/
  positioned : World → Nat → Prop
  seekEnd : ∀ {world : World} {position : Nat}, positioned world position →
    ∃ next, host.lseek fd 0 2 world = (↑contents.length, next) ∧
      positioned next contents.length
  tell : ∀ {world : World} {position : Nat}, positioned world position →
    ∃ next, host.lseek fd 0 1 world = (↑position, next) ∧
      positioned next position
  rewind : ∀ {world : World} {position : Nat}, positioned world position →
    ∃ next, host.lseek fd 0 0 world = (0, next) ∧ positioned next 0
  read : ∀ {world : World} {position : Nat} (count : Nat),
    positioned world position → position ≤ contents.length → 0 < count →
    ∃ amount next,
      host.read fd count world =
          (↑amount, slice contents position amount, next) ∧
        amount ≤ count ∧ position + amount ≤ contents.length ∧
        (amount = 0 → position = contents.length) ∧
        positioned next (position + amount)
  close : ∀ {world : World} {position : Nat}, positioned world position →
    0 ≤ (host.close fd world).1

@[simp]
theorem mapError_ok {Result Cause : Type} (wrapCause : Cause → Halt)
    (value : Result) :
    (Except.ok value : Except Cause Result).mapError wrapCause = .ok value :=
  rfl

@[simp]
theorem halt_ok_bind {Result Next : Type}
    (value : Result) (next : Result → Except Halt Next) :
    (Except.ok value >>= next) = next value :=
  rfl

section Loops

variable {header : FileHeader}

/-- The loop of `Copy` writes the rest of the UNIX file behind what is already
there. -/
theorem copyLoop_spec
    {host : Host World} {fd : Int} {contents : List Byte}
    (file : SourceFile host fd contents) (memory : Nat → Memory)
    (wellFormed : header.WellFormed) (nodup : header.sectors.Nodup)
    (sameLength : header.length = contents.length) :
    ∀ (turns position : Nat) (buffer : List Byte) (state : HostState World)
      (disk : DiskImage),
      file.positioned state.world position → position ≤ contents.length →
      contents.length - position < turns → buffer.length = transferSize →
      (OpenFile.fileBytes disk header).take position = contents.take position →
      ∃ openFile state' disk',
        copyLoop host fd memory turns buffer ⟨header, position⟩ state disk =
            .ok (openFile, state', disk') ∧
          file.positioned state'.world contents.length ∧
          (∀ sector, sector ∉ header.sectors → disk' sector = disk sector) ∧
          OpenFile.fileBytes disk' header = contents
  | 0, _, _, _, _, _, _, few, _, _ => absurd few (Nat.not_lt_zero _)
  | turns + 1, position, buffer, state, disk, positioned, inside, enough,
      bufferLength, copied => by
    have bytesLength := OpenFile.length_fileBytes disk wellFormed
    obtain ⟨amount, world, wasRead, atMost, stillInside, progress,
        positioned'⟩ :=
      file.read transferSize positioned inside (by decide)
    have chunkLength : (slice contents position amount).length = amount :=
      length_slice stillInside
    unfold copyLoop Stub.readPartial
    simp only [wasRead]
    by_cases done : amount = 0
    · have atEnd := progress done
      rw [done, if_neg (by decide)]
      refine ⟨_, _, disk, rfl, ?_, fun _ _ => rfl, ?_⟩
      · rw [← atEnd]
        rw [done] at positioned'
        exact positioned'
      · rw [atEnd, List.take_length, ← sameLength, ← bytesLength,
          List.take_length] at copied
        exact copied
    · have patched :
          (overlay buffer (slice contents position amount) 0).length =
            transferSize := by
        rw [length_overlay (by omega), bufferLength]
      have written :
          (overlay buffer (slice contents position amount) 0).take amount =
            slice contents position amount := by
        have starts := starts_overlay buffer (slice contents position amount)
        rw [List.prefix_iff_eq_take, chunkLength] at starts
        exact starts.symm
      obtain ⟨disk', wrote, frame, bytes⟩ :=
        OpenFile.write_natCast wellFormed nodup disk (memory turns)
          (show position + amount ≤ header.length by omega)
          (show amount ≤
            (overlay buffer (slice contents position amount) 0).length by
            omega)
      rw [written] at bytes
      have copied' :
          (OpenFile.fileBytes disk' header).take (position + amount) =
            contents.take (position + amount) := by
        have front :=
          @take_overlay _ (OpenFile.fileBytes disk header)
            (slice contents position amount) position (by omega)
        rw [chunkLength, copied] at front
        rw [bytes, front, List.take_add]
        rfl
      obtain ⟨openFile, state', disk'', looped, atEnd, laterFrame, final⟩ :=
        copyLoop_spec file memory wellFormed nodup sameLength turns
          (position + amount) _ { state with world := world } disk'
          positioned' stillInside (by omega) patched copied'
      rw [if_pos (by omega), wrote, mapError_ok, halt_ok_bind]
      exact ⟨openFile, state', disk'', looped, atEnd,
        fun sector outside =>
          (laterFrame sector outside).trans (frame sector outside),
        final⟩

theorem printLoop_spec
    (wellFormed : header.WellFormed) (disk : DiskImage)
    (memory : Nat → Memory) :
    ∀ (turns position : Nat) (buffer printed : List Byte),
      position ≤ header.length → header.length - position < turns →
      buffer.length = transferSize →
      printLoop disk memory turns buffer ⟨header, position⟩ printed =
        .ok (printed ++ (OpenFile.fileBytes disk header).drop position)
  | 0, _, _, _, _, few, _ => absurd few (Nat.not_lt_zero _)
  | turns + 1, position, buffer, printed, inside, enough, bufferLength => by
    have lengthBound := wellFormed.length_le
    simp only [maxFileSize, numDirect, Disk.sectorSize] at lengthBound
    have bytesLength := OpenFile.length_fileBytes disk wellFormed
    obtain ⟨amount, amountEq⟩ :
        ∃ amount, amount = min transferSize (header.length - position) :=
      ⟨_, rfl⟩
    have chunkLength :
        (slice (OpenFile.fileBytes disk header) position amount).length =
          amount :=
      length_slice (by omega)
    have wasRead :=
      OpenFile.read_natCast wellFormed disk (memory turns 0) inside
        (show position + transferSize < 2 ^ 31 by
          simp only [transferSize]
          omega)
        (show transferSize ≤ buffer.length by omega)
    rw [← amountEq] at wasRead
    unfold printLoop
    rw [wasRead, mapError_ok, halt_ok_bind]
    dsimp only
    by_cases done : amount = 0
    · have atEnd : position = header.length := by
        simp only [transferSize] at amountEq
        omega
      rw [done, if_neg (by decide), atEnd, ← bytesLength, List.drop_length,
        List.append_nil]
      rfl
    · have patched :
          (overlay buffer
            (slice (OpenFile.fileBytes disk header) position amount)
            0).length = transferSize := by
        rw [length_overlay (by omega), bufferLength]
      have characters :=
        @bytesAt_natCast
          (overlay buffer
            (slice (OpenFile.fileBytes disk header) position amount) 0) 0
          amount (by omega)
      have shown :
          slice (overlay buffer
            (slice (OpenFile.fileBytes disk header) position amount) 0) 0
            amount =
            slice (OpenFile.fileBytes disk header) position amount := by
        have same :=
          @slice_overlay_self _ buffer
            (slice (OpenFile.fileBytes disk header) position amount) 0
            (by omega)
        rw [chunkLength] at same
        exact same
      rw [shown] at characters
      rw [if_pos (by omega),
        show (0 : Int) = ((0 : Nat) : Int) from rfl, characters, mapError_ok,
        halt_ok_bind,
        printLoop_spec wellFormed disk memory turns (position + amount) _ _
          (by omega) (by omega) patched,
        List.append_assoc]
      unfold slice
      rw [← List.drop_drop, List.take_append_drop]

end Loops

/-- `Print` outputs exactly the bytes of the file. -/
theorem print_spec
    {disk : DiskImage} (consistent : Consistent disk)
    {fileSystem : FileSystem} (mounted : Mounted fileSystem disk)
    {name : List Byte} {head : Nat}
    (found : (directoryOf disk).find name = head) (memory : Nat → Memory)
    {turns : Nat} (enough : (headerAt disk head).length < turns) :
    print fileSystem turns memory name disk =
      .ok (OpenFile.fileBytes disk (headerAt disk head)) := by
  rcases consistent.openFile_spec mounted (memory 0) name with
    ⟨missing, _⟩ | ⟨other, foundOther, entry, opened⟩
  · rw [found] at missing
    omega
  · rw [found] at foundOther
    cases Int.ofNat_inj.mp foundOther
    have wellFormed :=
      consistent.wellFormed head (Consistent.entryHead_mem entry)
    have allocated :
        newChars (memory 1 0) transferSize =
          .ok ((List.range transferSize).map (memory 1 0)) :=
      rfl
    unfold print
    rw [opened, mapError_ok, halt_ok_bind, allocated, mapError_ok]
    dsimp only
    rw [halt_ok_bind]
    exact printLoop_spec wellFormed disk _ turns 0 _ [] (Nat.zero_le _)
      (by omega) (by simp)

/-- Copying a UNIX file in and printing it is the identity: `Copy` returns,
`Print` prints the bytes of the UNIX file, the new file has its length, and
every other file is as it was. -/
theorem print_copy
    {host : Host World} {fd : Int} {contents : List Byte}
    (file : SourceFile host fd contents)
    (small : contents.length ≤ maxFileSize)
    {disk : DiskImage} (consistent : Consistent disk)
    {fileSystem : FileSystem} (mounted : Mounted fileSystem disk)
    {source target : List Byte} {state : HostState World} {world : World}
    {position : Nat} (valid : 0 ≤ fd)
    (opened : host.openFile .readWrite (cString source) state.world =
      (fd, world))
    (positioned : file.positioned world position)
    (memory : Nat → Memory) {created : DiskImage}
    (succeeds : fileSystem.create disk (memory 0) target contents.length =
      .ok (true, created))
    {turns : Nat} (enough : contents.length < turns) :
    ∃ state' disk',
      copy host fileSystem turns memory source target state disk =
          .ok ([], state', disk') ∧
        (∀ memory', print fileSystem turns memory' target disk' =
          .ok contents) ∧
        (∀ memory', ∃ openFile,
          fileSystem.openFile disk' memory' target = .ok (some openFile) ∧
            openFile.length = contents.length) ∧
        ∀ head ∈ (directoryOf disk).heads, SameFile disk disk' head := by
  rcases consistent.create_spec mounted (memory 0) target small with
    ⟨_, failed⟩ |
      ⟨_, disk₁, head, header, _, _, done, _, _, lengthEq, mounted₁, creation⟩
  · cases succeeds.symm.trans failed
  cases succeeds.symm.trans done
  have headMember := Consistent.entryHead_mem creation.member
  have wellFormed : header.WellFormed := by
    rw [← creation.stored]
    exact creation.consistent.wellFormed head headMember
  have nodup : header.sectors.Nodup := by
    rw [← creation.stored]
    exact (List.nodup_cons.mp
      (creation.consistent.fileSectors_nodup headMember)).2
  -- the three calls of `lseek` give the length and go back to the start
  obtain ⟨world₁, soughtEnd, positioned₁⟩ := file.seekEnd positioned
  obtain ⟨world₂, told, positioned₂⟩ := file.tell positioned₁
  obtain ⟨world₃, rewound, positioned₃⟩ := file.rewind positioned₂
  have allocated :
      newChars (memory 2 0) transferSize =
        .ok ((List.range transferSize).map (memory 2 0)) :=
    rfl
  obtain ⟨openFile, state', disk', looped, positioned', frame, bytes⟩ :=
    @copyLoop_spec _ header _ _ _ file (fun turn => memory (3 + turn)) wellFormed nodup lengthEq
      turns 0 ((List.range transferSize).map (memory 2 0))
      ⟨world₃, if 0 ≤ fd then fd :: state.opened else state.opened⟩ created
      positioned₃ (Nat.zero_le _) (by omega) (by simp) rfl
  rw [Int.natCast_zero] at looped
  have closed :
      Stub.hostClose host fd state' =
        .ok ⟨(host.close fd state'.world).2,
          state'.opened.filter (· ≠ fd)⟩ := by
    unfold Stub.hostClose
    dsimp only
    rw [if_pos (file.close positioned')]
  rw [← creation.stored] at frame
  obtain ⟨consistent', sameDirectory, _, sameHead⟩ :=
    creation.consistent.write_data creation.member frame
  have mounted' : Mounted fileSystem disk' :=
    mounted₁.congr (sameHead _ Consistent.mapHead_mem)
      (sameHead _ Consistent.directoryHead_mem)
  have sameHeader : headerAt disk' head = header :=
    (headerAt_congr (sameHead head headMember)).trans creation.stored
  have found' : (directoryOf disk').find target = head := by
    rw [sameDirectory, creation.found]
  refine ⟨⟨(host.close fd state'.world).2, state'.opened.filter (· ≠ fd)⟩,
    disk', ?_, ?_, ?_, ?_⟩
  · unfold copy Stub.openForReadWrite Stub.hostOpen Stub.lseek Stub.tell
    simp only [opened, soughtEnd, told, rewound, if_neg (not_lt.mpr valid),
      Int.natCast_nonneg, Int.le_refl, if_true, mapError_ok, halt_ok_bind, done,
      creation.openFile mounted₁, allocated, Bool.not_true, Bool.false_eq_true,
      if_false]
    rw [looped, halt_ok_bind]
    dsimp only
    rw [closed]
    rfl
  · intro memory'
    rw [print_spec consistent' mounted' found' memory'
      (by rw [sameHeader]; omega), sameHeader, bytes]
  · intro memory'
    rcases consistent'.openFile_spec mounted' memory' target with
      ⟨missing, _⟩ | ⟨other, foundOther, _, reopened⟩
    · rw [found'] at missing
      omega
    · rw [found'] at foundOther
      cases Int.ofNat_inj.mp foundOther
      refine ⟨_, reopened, ?_⟩
      unfold OpenFile.length
      rw [sameHeader, OpenFile.fileLength_eq wellFormed, lengthEq]
  · intro other otherMember
    have kept := creation.sameFile consistent otherMember
    exact kept.trans
      (creation.consistent.sameFile_of_write creation.member frame kept.entry
        (creation.ne_head consistent otherMember))

def shortReads (contents : List Byte) : Host Nat where
  openFile _ _ _ := (3, 0)
  read _ count position :=
    let amount := min (min count.toNat 100) (contents.length - position)
    (amount, slice contents position amount, position + amount)
  write _ _ position := (-1, position)
  lseek _ offset whence position :=
    let base : Int :=
      if whence = 0 then 0 else if whence = 1 then position else contents.length
    (base + offset, (base + offset).toNat)
  close _ position := (0, position)
  unlink _ position := (-1, position)
  getChar position := (0, position)
  putChar _ position := position
  sameName fileName recorded _ := fileName == recorded

def shortFile (contents : List Byte) :
    SourceFile (shortReads contents) 3 contents where
  positioned world position := world = position
  seekEnd _ := ⟨contents.length, by simp [shortReads], rfl⟩
  tell located := ⟨_, by simp [shortReads, located], rfl⟩
  rewind _ := ⟨0, by simp [shortReads], rfl⟩
  read := by
    rintro world position count rfl inside positive
    refine ⟨_, _, rfl, ?_, ?_, ?_, rfl⟩ <;> omega
  close _ := Int.le_refl 0

theorem print_copy_on_formatted :
    ∃ fileSystem disk state' disk',
      format blankDisk zeros = .ok (fileSystem, disk) ∧
        copy (shortReads (List.replicate 300 7)) fileSystem 301
            (fun _ => zeros) [120] [97] ⟨0, []⟩ disk =
          .ok ([], state', disk') ∧
        print fileSystem 301 (fun _ => zeros) [97] disk' =
          .ok (List.replicate 300 7) := by
  obtain ⟨fileSystem, disk, formatted, consistent, mounted, empty, _⟩ :=
    format_spec blankDisk zeros
  have size : (List.replicate 300 (7 : Byte)).length = 300 :=
    List.length_replicate
  rcases consistent.create_spec mounted zeros [97]
      (show 300 ≤ maxFileSize by decide) with
    ⟨noRoom, _⟩ | ⟨_, created, _, _, _, _, done, _⟩
  · exact absurd (consistent.room_of_empty empty [97] (by decide)) noRoom
  rw [← size] at done
  obtain ⟨state', disk', copied, printed, _⟩ :=
    @print_copy _ _ _ _ (shortFile (List.replicate 300 7))
      (by rw [size]; decide) disk consistent fileSystem mounted [120] [97]
      ⟨0, []⟩ 0 0 (by decide) rfl rfl (fun _ => zeros) created done 301
      (by rw [size]; decide)
  exact ⟨fileSystem, disk, state', disk', formatted, copied, printed _⟩

end Nachos.Main
