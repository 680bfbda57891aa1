import Nachos.Stub.Runs

/-!
# The position of an open file
-/

namespace Nachos.Stub

open Foundation

variable {World : Type}

inductive Access where
  | read (buffer : List Byte) (size : Int)
  | write (buffer : List Byte) (size : Int)
  | seek (pos : Int)

namespace Access

def perform (host : Host World) (d : Int) :
    Access → FileSystem World → Except Abort (Int × FileSystem World)
  | .read buffer size, fileSystem => do
    let (result, _, fileSystem) ← fileSystem.read host buffer size d
    return (result, fileSystem)
  | .write buffer size, fileSystem => fileSystem.write host buffer size d
  | .seek pos, fileSystem => fileSystem.seek host pos d

def Sized : Access → Prop
  | .write buffer size =>
    buffer.length < 2 ^ 31 ∧ -2 ^ 31 ≤ size ∧ size < 2 ^ 31
  | .read _ _ | .seek _ => True

theorem read_of_perform
    {host : Host World} {d : Int} {buffer : List Byte} {size result : Int}
    {fileSystem next : FileSystem World}
    (returned : perform host d (.read buffer size) fileSystem =
      .ok (result, next)) :
    ∃ bytes, fileSystem.read host buffer size d = .ok (result, bytes, next) := by
  obtain ⟨⟨numRead, bytes, after⟩, wasRead, returned⟩ :=
    exists_of_bind_eq_ok returned
  cases returned
  exact ⟨bytes, wasRead⟩

end Access

/-- What `read` and `lseek` of UNIX promise. -/
structure Host.SeeksProperly (host : Host World) : Prop where
  reads : ∀ fd count world, -1 ≤ (host.read fd count world).1
  refusesNegative : ∀ fd offset world,
    offset < 0 → (host.lseek fd offset 0 world).1 < 0
  /-- At the end of the file, the position is its length. -/
  tellsEnd : ∀ fd world, 0 ≤ (host.lseek fd 0 2 world).1 →
    (host.lseek fd 0 1 (host.lseek fd 0 2 world).2).1 =
      (host.lseek fd 0 2 world).1

def Host.fileLength (host : Host World) (fd : Int) (world : World) : Int :=
  (host.lseek fd 0 2 world).1

/-- The file system, the position that descriptor `d` should have, and how many
reads have failed since the last successful `Seek`. -/
structure Tracked (World : Type) where
  fileSystem : FileSystem World
  position : Int
  failures : Nat

namespace Tracked

def offset (d : Int) (tracked : Tracked World) : Option Int :=
  ((tracked.fileSystem.findSlot d).bind Slot.file).map OpenFile.currentOffset

def positionAfter (host : Host World) (d : Int) (tracked : Tracked World) :
    Access × Int → Int
  | (.read _ _, result) | (.write _ _, result) =>
    if result < 0 then tracked.position else tracked.position + result
  | (.seek pos, _) =>
    if pos < -1 then tracked.position
    else if pos = -1 then
      host.fileLength d tracked.fileSystem.host.world
    else pos

def failuresAfter (tracked : Tracked World) : Access × Int → Nat
  | (.read _ _, result) =>
    if result < 0 then tracked.failures + 1 else tracked.failures
  | (.write _ _, _) => tracked.failures
  | (.seek pos, _) => if pos < -1 then tracked.failures else 0

def Meaningful (d : Int) (tracked : Tracked World) : Prop :=
  ∃ offset, tracked.offset d = some offset ∧ 0 ≤ offset ∧
    offset = tracked.position

end Tracked

/-- All runs of accesses through `d` that return, from just after it was opened,
with no position reaching 2^31. -/
def accesses (host : Host World) (d : Int) :
    TransitionSystem (Tracked World) (Access × Int) where
  start tracked :=
    2 ≤ d ∧ tracked.position = 0 ∧ tracked.failures = 0 ∧
      ∃ mode name before after,
        HeldAt tracked.fileSystem.slots d 0 mode name before after
  step tracked event next :=
    event.1.Sized ∧
      event.1.perform host d tracked.fileSystem =
        .ok (event.2, next.fileSystem) ∧
      next.position = tracked.positionAfter host d event ∧
      next.position < 2 ^ 31 ∧
      next.failures = tracked.failuresAfter event

section Positions

variable {host : Host World} (properly : host.SeeksProperly)

include properly

theorem nonneg_of_lseek
    {fd offset : Int} {state state' : HostState World}
    (returned : lseek host fd offset 0 state = .ok state') : 0 ≤ offset := by
  unfold lseek at returned
  dsimp only at returned
  split_ifs at returned with succeeded
  by_contra negative
  exact absurd succeeded
    (not_le.mpr (properly.refusesNegative fd offset state.world (by omega)))

theorem OpenFile.read_range
    {file file' : OpenFile} {buffer buffer' : List Byte} {size result : Int}
    {state state' : HostState World}
    (returned : file.read host buffer size state =
      .ok (result, buffer', file', state')) :
    0 ≤ file.currentOffset ∧ -1 ≤ result := by
  obtain ⟨⟨numRead, bytes, middle⟩, wasRead, returned⟩ :=
    exists_of_bind_eq_ok returned
  obtain ⟨sought, seeks, wasRead⟩ := exists_of_bind_eq_ok wasRead
  cases wasRead
  cases returned
  exact ⟨nonneg_of_lseek properly seeks, properly.reads _ _ _⟩

theorem OpenFile.write_range
    {file file' : OpenFile} {buffer : List Byte} {size result : Int}
    {state state' : HostState World}
    (returned : file.write host buffer size state =
      .ok (result, file', state')) :
    0 ≤ file.currentOffset := by
  obtain ⟨reply, wasWritten, -⟩ := exists_of_bind_eq_ok returned
  obtain ⟨sought, seeks, -⟩ := exists_of_bind_eq_ok wasWritten
  exact nonneg_of_lseek properly seeks

theorem OpenFile.length_eq
    {file : OpenFile} {result : Int} {state state' : HostState World}
    (returned : file.length host state = .ok (result, state')) :
    result = host.fileLength file.file state.world ∧ 0 ≤ result := by
  obtain ⟨sought, seeks, returned⟩ := exists_of_bind_eq_ok returned
  unfold Stub.lseek at seeks
  dsimp only at seeks
  split_ifs at seeks with succeeded
  cases seeks
  cases returned
  have sameLength := properly.tellsEnd file.file state.world succeeded
  exact ⟨sameLength, by rw [sameLength]; exact succeeded⟩

end Positions

/-- `Write` transfers a whole string; the comparison of its length with `size`
then means what it says. -/
theorem size_of_hasLength
    {buffer : List Byte} {size : Int}
    (sized : Access.Sized (.write buffer size))
    (sameLength : FileSystem.hasLength buffer size) : 0 ≤ size := by
  obtain ⟨short, lower, upper⟩ := sized
  have bound : strlen buffer ≤ buffer.length :=
    (List.takeWhile_prefix _).length_le
  unfold FileSystem.hasLength at sameLength
  omega

/-- The offset is behind the position by one for each failed read. -/
structure Tracked.Follows
    (d offset : Int) (tracked : Tracked World) : Prop where
  held : ∃ mode name before after,
    HeldAt tracked.fileSystem.slots d offset mode name before after
  behind : offset = tracked.position - tracked.failures
  lower : -1 ≤ offset
  nonneg : 0 ≤ tracked.position
  upper : tracked.position < 2 ^ 31

section Moves

variable {host : Host World} {fileSystem next : FileSystem World}
variable {d offset : Int} {mode : Mode} {name : List Byte}
variable {before after : List Slot}

theorem HeldAt.read_moves
    (properly : host.SeeksProperly) (large : 2 ≤ d)
    (held : HeldAt fileSystem.slots d offset mode name before after)
    {buffer bytes : List Byte} {size result : Int}
    (returned : fileSystem.read host buffer size d =
      .ok (result, bytes, next)) :
    0 ≤ offset ∧ -1 ≤ result ∧
      next.slots = moveTo d (wrap (offset + result)) fileSystem.slots := by
  have sameCall : Stub.sysRead host buffer size d fileSystem =
      fileSystem.read host buffer size d := by
    unfold Stub.sysRead
    rw [if_neg (by omega), if_neg (by omega)]
  rw [← sameCall, held.sysRead host large] at returned
  obtain ⟨⟨numRead, into, file, state⟩, outcome, returned⟩ :=
    exists_of_bind_eq_ok returned
  cases returned
  obtain ⟨nonneg, answered⟩ := OpenFile.read_range properly outcome
  refine ⟨nonneg, answered, ?_⟩
  rw [(OpenFile.read_result outcome).1]

theorem HeldAt.write_moves
    (properly : host.SeeksProperly) (large : 2 ≤ d)
    (held : HeldAt fileSystem.slots d offset mode name before after)
    {buffer : List Byte} {size result : Int}
    (returned : fileSystem.write host buffer size d = .ok (result, next)) :
    (result = -1 ∧ next = fileSystem) ∨
      (0 ≤ offset ∧ result = size ∧ FileSystem.hasLength buffer size ∧
        next.slots = moveTo d (wrap (offset + result)) fileSystem.slots) := by
  have sameCall : Stub.sysWrite host buffer size d fileSystem =
      fileSystem.write host buffer size d := by
    unfold Stub.sysWrite
    rw [if_neg (by omega), if_neg (by omega)]
  rw [← sameCall, held.sysWrite host large] at returned
  by_cases admitted : mode = .readWrite ∧ FileSystem.hasLength buffer size
  · right
    rw [if_pos admitted] at returned
    obtain ⟨⟨numWritten, file, state⟩, outcome, returned⟩ :=
      exists_of_bind_eq_ok returned
    cases returned
    obtain ⟨everything, fileEq, -⟩ := OpenFile.write_result outcome
    refine ⟨OpenFile.write_range properly outcome, everything, admitted.2, ?_⟩
    rw [fileEq]
  · left
    rw [if_neg admitted] at returned
    cases returned
    exact ⟨rfl, rfl⟩

theorem HeldAt.seek_moves
    (properly : host.SeeksProperly) (large : 2 ≤ d)
    (held : HeldAt fileSystem.slots d offset mode name before after)
    {pos result : Int}
    (returned : fileSystem.seek host pos d = .ok (result, next)) :
    (pos < -1 ∧ next = fileSystem) ∨
      (-1 ≤ pos ∧ ∃ target,
        target = (if pos = -1 then host.fileLength d fileSystem.host.world
          else pos) ∧
        0 ≤ target ∧ next.slots = moveTo d target fileSystem.slots) := by
  change Stub.sysSeek host pos d fileSystem = _ at returned
  rw [held.sysSeek host large] at returned
  by_cases refused : pos < -1
  · left
    rw [if_pos refused] at returned
    cases returned
    exact ⟨refused, rfl⟩
  · right
    rw [if_neg refused] at returned
    refine ⟨by omega, ?_⟩
    by_cases atEnd : pos = -1
    · rw [if_pos atEnd] at returned
      obtain ⟨⟨length, state⟩, outcome, returned⟩ :=
        exists_of_bind_eq_ok returned
      cases returned
      obtain ⟨lengthEq, nonneg⟩ := OpenFile.length_eq properly outcome
      exact ⟨result, by rw [if_pos atEnd]; exact lengthEq, nonneg, rfl⟩
    · rw [if_neg atEnd] at returned
      cases returned
      exact ⟨pos, by rw [if_neg atEnd], by omega, rfl⟩

end Moves

namespace Tracked

variable {host : Host World} {d offset : Int} {tracked next : Tracked World}

/-- Each access moves the offset with the position, failed reads apart. -/
theorem Follows.step
    (properly : host.SeeksProperly) (large : 2 ≤ d)
    (follows : tracked.Follows d offset) {event : Access × Int}
    (taken : (accesses host d).step tracked event next) :
    ∃ offset', next.Follows d offset' := by
  obtain ⟨⟨mode, name, before, after, held⟩, behind, lower, nonneg, upper⟩ :=
    follows
  obtain ⟨access, result⟩ := event
  obtain ⟨sized, returned, position, small, failures⟩ := taken
  dsimp only at returned
  have moves : ∀ {offset' : Int},
      next.fileSystem.slots = moveTo d offset' tracked.fileSystem.slots →
      offset' = next.position - next.failures → -1 ≤ offset' →
      0 ≤ next.position → next.Follows d offset' := by
    intro offset' moved behind' lower' nonneg'
    refine ⟨⟨mode, name, before, after, ?_⟩, behind', lower', nonneg', small⟩
    rw [moved]
    exact held.moved offset'
  have stays : next.fileSystem = tracked.fileSystem →
      next.position = tracked.position → next.failures = tracked.failures →
      next.Follows d offset := by
    intro unchanged samePosition sameFailures
    apply moves
    · rw [unchanged, held.moveTo_self]
    · rw [samePosition, sameFailures]
      exact behind
    · exact lower
    · rw [samePosition]
      exact nonneg
  cases access with
  | read buffer size =>
    obtain ⟨bytes, wasRead⟩ := Access.read_of_perform returned
    obtain ⟨started, answered, moved⟩ := held.read_moves properly large wasRead
    by_cases failed : result < 0
    · have samePosition : next.position = tracked.position :=
        position.trans (if_pos failed)
      have oneMore : next.failures = tracked.failures + 1 :=
        failures.trans (if_pos failed)
      have exact : wrap (offset + result) = offset + result :=
        wrap_eq_self (by omega) (by omega)
      exact ⟨_, moves moved (by omega) (by omega) (by omega)⟩
    · have advanced : next.position = tracked.position + result :=
        position.trans (if_neg failed)
      have sameFailures : next.failures = tracked.failures :=
        failures.trans (if_neg failed)
      have exact : wrap (offset + result) = offset + result :=
        wrap_eq_self (by omega) (by omega)
      exact ⟨_, moves moved (by omega) (by omega) (by omega)⟩
  | write buffer size =>
    have sameFailures : next.failures = tracked.failures := failures
    rcases held.write_moves properly large returned with
      ⟨refused, unchanged⟩ | ⟨started, everything, sameLength, moved⟩
    · have samePosition : next.position = tracked.position :=
        position.trans (if_pos (by omega))
      exact ⟨offset, stays unchanged samePosition sameFailures⟩
    · have nonnegative := size_of_hasLength sized sameLength
      have advanced : next.position = tracked.position + result :=
        position.trans (if_neg (by omega))
      have exact : wrap (offset + result) = offset + result :=
        wrap_eq_self (by omega) (by omega)
      exact ⟨_, moves moved (by omega) (by omega) (by omega)⟩
  | seek pos =>
    rcases held.seek_moves properly large returned with
      ⟨refused, unchanged⟩ | ⟨accepted, target, targetEq, atLeast, moved⟩
    · exact ⟨offset, stays unchanged (position.trans (if_pos refused))
        (failures.trans (if_pos refused))⟩
    · have set : next.position = target :=
        (position.trans (if_neg (by omega))).trans targetEq.symm
      have noFailures : next.failures = 0 := failures.trans (if_neg (by omega))
      exact ⟨target, moves moved (by omega) (by omega) (by omega)⟩

theorem follows_of_reachable
    (properly : host.SeeksProperly)
    (reachable : (accesses host d).Reachable tracked) :
    2 ≤ d ∧ ∃ offset, tracked.Follows d offset := by
  induction reachable with
  | start starting =>
    obtain ⟨large, position, failures, held⟩ := starting
    exact ⟨large, 0, held, by omega, by omega, by omega, by omega⟩
  | step _ taken ih =>
    obtain ⟨large, offset, follows⟩ := ih
    exact ⟨large, follows.step properly large taken⟩

/-- The offset of an open file is the position that it should be just if no
read has failed since the last successful `Seek`. -/
theorem meaningful_iff
    (properly : host.SeeksProperly)
    (reachable : (accesses host d).Reachable tracked) :
    tracked.Meaningful d ↔ tracked.failures = 0 := by
  obtain ⟨_, offset, ⟨mode, name, before, after, held⟩, behind, _, nonneg, _⟩ :=
    follows_of_reachable properly reachable
  have found : tracked.offset d = some offset := by
    unfold Tracked.offset
    rw [held.findSlot]
    rfl
  constructor
  · rintro ⟨actual, isOffset, _, atPosition⟩
    have same : offset = actual := Option.some.inj (found.symm.trans isOffset)
    omega
  · intro noFailure
    exact ⟨offset, found, by omega, by omega⟩

end Tracked

theorem smallHost_seeksProperly : smallHost.SeeksProperly where
  reads fd count world := by
    unfold smallHost
    dsimp only
    split_ifs <;> simp
  refusesNegative fd offset world negative := by
    unfold smallHost
    dsimp only
    rw [if_neg (fun both => absurd both.2 (by omega))]
    simp
  tellsEnd fd world := by
    unfold smallHost
    dsimp only
    split_ifs <;> simp_all

def smallOpened (mode : Mode) (name : List Byte) (offset : Int) :
    FileSystem SmallWorld :=
  ⟨Slot.holding 2 offset mode name :: List.replicate 17 Slot.empty,
    ⟨(SmallWorld.initial.give name mode.flags).2, [2]⟩⟩

theorem smallOpened_start (mode : Mode) (name : List Byte) :
    (accesses smallHost 2).start ⟨smallOpened mode name 0, 0, 0⟩ :=
  ⟨le_refl 2, rfl, rfl, mode, name, [], List.replicate 17 Slot.empty, rfl,
    by simp, by decide⟩

def smallWriting (offset : Int) : Tracked SmallWorld :=
  ⟨smallOpened .readWrite [97] offset, offset, 0⟩

/-- Three characters are written to `"a"`, then one at position 1. -/
theorem meaningful_after_seek :
    sysOpen smallHost [97] 0 smallStart =
        .ok (2, smallOpened .readWrite [97] 0) ∧
      (accesses smallHost 2).Run (smallWriting 0)
        [(.write [120, 121, 122] 3, 3), (.seek 1, 1), (.write [120] 1, 1)]
        (smallWriting 2) ∧
      Tracked.Meaningful 2 (smallWriting 2) := by
  have first : (accesses smallHost 2).step (smallWriting 0)
      (.write [120, 121, 122] 3, 3) (smallWriting 3) :=
    ⟨⟨by decide, by decide⟩, rfl, rfl, by decide, rfl⟩
  have second : (accesses smallHost 2).step (smallWriting 3) (.seek 1, 1)
      (smallWriting 1) :=
    ⟨trivial, rfl, rfl, by decide, rfl⟩
  have third : (accesses smallHost 2).step (smallWriting 1)
      (.write [120] 1, 1) (smallWriting 2) :=
    ⟨⟨by decide, by decide⟩, rfl, rfl, by decide, rfl⟩
  have run : (accesses smallHost 2).Run (smallWriting 0) _ (smallWriting 2) :=
    .cons first (.cons second (.cons third (.nil _)))
  exact ⟨rfl, run, (Tracked.meaningful_iff smallHost_seeksProperly
    (run.reachable (.start (smallOpened_start _ _)))).mpr rfl⟩

/-- Reading the directory `"."` fails; the offset is then -1, and a second read
aborts the kernel. -/
theorem offset_after_failed_read :
    ∃ fileSystem,
      sysOpen smallHost [46] 1 smallStart = .ok (2, smallOpened .read [46] 0) ∧
      (accesses smallHost 2).step ⟨smallOpened .read [46] 0, 0, 0⟩
        (.read [9] 1, -1) ⟨fileSystem, 0, 1⟩ ∧
      Tracked.offset 2 ⟨fileSystem, 0, 1⟩ = some (-1) ∧
      ¬ Tracked.Meaningful 2 ⟨fileSystem, 0, 1⟩ ∧
      fileSystem.read smallHost [9] 1 2 = .error .lseek := by
  have taken : (accesses smallHost 2).step ⟨smallOpened .read [46] 0, 0, 0⟩
      (.read [9] 1, -1) ⟨_, 0, 1⟩ :=
    ⟨trivial, rfl, rfl, by decide, rfl⟩
  refine ⟨_, rfl, taken, rfl, ?_, rfl⟩
  rintro ⟨offset, isOffset, nonneg, _⟩
  cases isOffset
  exact absurd nonneg (by decide)

end Nachos.Stub
