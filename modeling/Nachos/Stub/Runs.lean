import Nachos.Stub.Table
import Nachos.Foundation.Transitions
import Mathlib.Data.List.Nodup

/-!
# Runs of the system calls
-/

namespace Nachos.Stub

open Foundation

variable {World : Type}

inductive Call where
  | create (name : List Byte)
  | openFile (name : List Byte) (type : Int)
  | read (buffer : List Byte) (size id : Int)
  | write (buffer : List Byte) (size id : Int)
  | seek (pos id : Int)
  | close (id : Int)
  | remove (name : List Byte)

/-- Perform a call; the buffer that `SysRead` fills is left out. -/
def perform (host : Host World) :
    Call → FileSystem World → Except Abort (Int × FileSystem World)
  | .create name, fileSystem => sysCreate host name fileSystem
  | .openFile name type, fileSystem => sysOpen host name type fileSystem
  | .read buffer size id, fileSystem => do
    let (result, _, fileSystem) ← sysRead host buffer size id fileSystem
    return (result, fileSystem)
  | .write buffer size id, fileSystem => sysWrite host buffer size id fileSystem
  | .seek pos id, fileSystem => sysSeek host pos id fileSystem
  | .close id, fileSystem => sysClose host id fileSystem
  | .remove name, fileSystem => .ok (sysRemove host name fileSystem)

theorem sysRead_of_perform
    {host : Host World} {buffer : List Byte} {size d result : Int}
    {fileSystem next : FileSystem World}
    (returned : perform host (.read buffer size d) fileSystem =
      .ok (result, next)) :
    ∃ buffer', sysRead host buffer size d fileSystem =
      .ok (result, buffer', next) := by
  obtain ⟨⟨count, bytes, after⟩, outcome, returned⟩ :=
    exists_of_bind_eq_ok returned
  cases returned
  exact ⟨bytes, outcome⟩

def system (host : Host World) :
    TransitionSystem (FileSystem World) (Call × Int) where
  start fileSystem :=
    fileSystem.slots = List.replicate FileSystem.maxFile Slot.empty ∧
      fileSystem.host.opened = []
  step fileSystem event next :=
    fileSystem.OpensFresh host ∧
      perform host event.1 fileSystem = .ok (event.2, next)

def smallStart : FileSystem SmallWorld :=
  ⟨List.replicate FileSystem.maxFile Slot.empty, ⟨.initial, []⟩⟩

theorem smallStart_start : (system smallHost).start smallStart :=
  ⟨rfl, rfl⟩

theorem smallStart_opensFresh : smallStart.OpensFresh smallHost :=
  smallHost_opensFresh (by decide) (by decide)

/-! ## Access through a descriptor -/

theorem OpenFile.read_result
    {host : Host World} {file file' : OpenFile} {buffer buffer' : List Byte}
    {size result : Int} {state state' : HostState World}
    (returned : file.read host buffer size state =
      .ok (result, buffer', file', state')) :
    file' = ⟨file.file, wrap (file.currentOffset + result)⟩ ∧
      host.Passes state state' := by
  obtain ⟨answer, readAt, returned⟩ := exists_of_bind_eq_ok returned
  obtain ⟨state₁, sought, handed⟩ := exists_of_bind_eq_ok readAt
  cases handed
  cases returned
  exact ⟨rfl, (lseek_passes sought).trans (.single (.read file.file size))⟩

theorem OpenFile.write_result
    {host : Host World} {file file' : OpenFile} {buffer : List Byte}
    {size result : Int} {state state' : HostState World}
    (returned : file.write host buffer size state =
      .ok (result, file', state')) :
    result = size ∧
      file' = ⟨file.file, wrap (file.currentOffset + result)⟩ ∧
      host.Passes state state' := by
  obtain ⟨answer, writeAt, returned⟩ := exists_of_bind_eq_ok returned
  obtain ⟨state₁, sought, writeAt⟩ := exists_of_bind_eq_ok writeAt
  obtain ⟨state₂, written, stored⟩ := exists_of_bind_eq_ok writeAt
  cases stored
  cases returned
  exact ⟨rfl, rfl, (lseek_passes sought).trans (writeFile_passes written)⟩

theorem OpenFile.length_result
    {host : Host World} {file : OpenFile} {result : Int}
    {state state' : HostState World}
    (returned : file.length host state = .ok (result, state')) :
    host.Passes state state' := by
  obtain ⟨state₁, sought, returned⟩ := exists_of_bind_eq_ok returned
  cases returned
  exact (lseek_passes sought).trans (.single (.lseek file.file 0 1))

structure Entry where
  mode : Mode
  offset : Int
  deriving DecidableEq, Repr

def moveTo (d offset : Int) (slots : List Slot) : List Slot :=
  slots.map (fun slot =>
    if slot.id = d then { slot with file := some ⟨d, offset⟩ } else slot)

structure HeldAt
    (slots : List Slot) (d offset : Int) (mode : Mode) (name : List Byte)
    (before after : List Slot) : Prop where
  split : slots = before ++ Slot.holding d offset mode name :: after
  earlier : ∀ slot ∈ before, slot.id ≠ d
  later : ∀ slot ∈ after, slot.id ≠ d

namespace HeldAt

variable {slots before after : List Slot} {d offset : Int} {mode : Mode}
variable {name : List Byte}

theorem firstMatch (held : HeldAt slots d offset mode name before after) :
    FirstMatch (fun slot => slot.id == d) slots before
      (Slot.holding d offset mode name) after where
  split := held.split
  passes := by simp [Slot.holding]
  earlier := by
    intro slot member
    simpa using held.earlier slot member

theorem moveTo_eq
    (held : HeldAt slots d offset mode name before after) (offset' : Int) :
    moveTo d offset' slots =
      before ++ Slot.holding d offset' mode name :: after := by
  have unchanged : ∀ part : List Slot, (∀ slot ∈ part, slot.id ≠ d) →
      part.map (fun slot =>
        if slot.id = d then { slot with file := some ⟨d, offset'⟩ }
        else slot) = part := by
    intro part different
    rw [List.map_congr_left (fun slot member => if_neg (different slot member)),
      List.map_id']
  unfold moveTo
  rw [held.split, List.map_append, List.map_cons,
    unchanged before held.earlier, unchanged after held.later,
    if_pos (by rfl)]
  rfl

theorem moved
    (held : HeldAt slots d offset mode name before after) (offset' : Int) :
    HeldAt (moveTo d offset' slots) d offset' mode name before after :=
  ⟨held.moveTo_eq offset', held.earlier, held.later⟩

theorem moveTo_self (held : HeldAt slots d offset mode name before after) :
    moveTo d offset slots = slots := by
  rw [held.moveTo_eq]
  exact held.split.symm

theorem findSlot
    (fileSystem : FileSystem World)
    (held : HeldAt fileSystem.slots d offset mode name before after) :
    fileSystem.findSlot d = some (Slot.holding d offset mode name) :=
  held.firstMatch.find?

theorem storeFile
    (fileSystem : FileSystem World)
    (held : HeldAt fileSystem.slots d offset mode name before after)
    (offset' : Int) (state : HostState World) :
    fileSystem.storeFile d ⟨d, offset'⟩ state =
      ⟨moveTo d offset' fileSystem.slots, state⟩ := by
  unfold FileSystem.storeFile
  rw [held.firstMatch.findIdx?, held.moveTo_eq]
  simp only [held.firstMatch.modify]
  rfl

end HeldAt

/-- A descriptor from 2 on is in no slot, or in exactly one. -/
theorem FileSystem.Sound.heldAt_cases
    {fileSystem : FileSystem World} (sound : fileSystem.Sound)
    {d : Int} (large : 2 ≤ d) :
    (∀ slot ∈ fileSystem.slots, slot.id ≠ d) ∨
      ∃ offset mode name before after,
        HeldAt fileSystem.slots d offset mode name before after := by
  rcases firstMatch_cases (fun slot : Slot => slot.id == d)
      fileSystem.slots with
    nothing | ⟨before, slot, after, first⟩
  · left
    intro slot member
    simpa using nothing slot member
  · right
    obtain ⟨⟨offset, mode, name, held⟩, earlier, later⟩ :=
      sound.found large first
    refine ⟨offset, mode, name, before, after, ?_, earlier, later⟩
    rw [first.split, held]

section Access

variable (host : Host World) {fileSystem : FileSystem World}

theorem findSlot_of_absent
    {d : Int} (absent : ∀ slot ∈ fileSystem.slots, slot.id ≠ d) :
    fileSystem.findSlot d = none :=
  find?_of_no_match (fun slot member => by simpa using absent slot member)

theorem sysRead_of_absent
    {d : Int} (large : 2 ≤ d)
    (absent : ∀ slot ∈ fileSystem.slots, slot.id ≠ d)
    (buffer : List Byte) (size : Int) :
    sysRead host buffer size d fileSystem = .ok (-1, buffer, fileSystem) := by
  unfold sysRead FileSystem.read
  rw [if_neg (by omega), if_neg (by omega), if_neg (by omega),
    findSlot_of_absent absent]
  rfl

theorem sysWrite_of_absent
    {d : Int} (large : 2 ≤ d)
    (absent : ∀ slot ∈ fileSystem.slots, slot.id ≠ d)
    (buffer : List Byte) (size : Int) :
    sysWrite host buffer size d fileSystem = .ok (-1, fileSystem) := by
  unfold sysWrite FileSystem.write
  rw [if_neg (by omega), if_neg (by omega), if_neg (by omega),
    findSlot_of_absent absent]
  exact ite_self _

theorem sysSeek_of_absent
    {d : Int} (large : 2 ≤ d)
    (absent : ∀ slot ∈ fileSystem.slots, slot.id ≠ d) (pos : Int) :
    sysSeek host pos d fileSystem = .ok (-1, fileSystem) := by
  unfold sysSeek FileSystem.seek
  rw [if_neg (by omega), findSlot_of_absent absent]
  rfl

variable {d offset : Int} {mode : Mode} {name : List Byte}
variable {before after : List Slot}

theorem HeldAt.sysRead
    (held : HeldAt fileSystem.slots d offset mode name before after)
    (large : 2 ≤ d) (buffer : List Byte) (size : Int) :
    sysRead host buffer size d fileSystem = do
      let (result, buffer, file, state) ←
        (OpenFile.mk d offset).read host buffer size fileSystem.host
      return (result, buffer,
        ⟨moveTo d file.currentOffset fileSystem.slots, state⟩) := by
  unfold Stub.sysRead FileSystem.read
  rw [if_neg (by omega), if_neg (by omega), if_neg (by omega), held.findSlot]
  change (do
    let (result, buffer, openFile, state) ←
      (OpenFile.mk d offset).read host buffer size fileSystem.host
    return (result, buffer, fileSystem.storeFile d openFile state)) = _
  cases returned :
      (OpenFile.mk d offset).read host buffer size fileSystem.host with
  | error abort =>
    rfl
  | ok outcome =>
    obtain ⟨result, buffer', file, state⟩ := outcome
    obtain ⟨fileEq, _⟩ := OpenFile.read_result returned
    simp only [ok_bind, fileEq, held.storeFile]

/-- `SysWrite` writes through its own slot, if the slot is open for writing and
the string has the stated length. -/
theorem HeldAt.sysWrite
    (held : HeldAt fileSystem.slots d offset mode name before after)
    (large : 2 ≤ d) (buffer : List Byte) (size : Int) :
    sysWrite host buffer size d fileSystem =
      if mode = .readWrite ∧ FileSystem.hasLength buffer size then do
        let (result, file, state) ←
          (OpenFile.mk d offset).write host buffer size fileSystem.host
        return (result,
          ⟨moveTo d file.currentOffset fileSystem.slots, state⟩)
      else
        .ok (-1, fileSystem) := by
  unfold Stub.sysWrite FileSystem.write
  rw [if_neg (by omega), if_neg (by omega), if_neg (by omega), held.findSlot]
  by_cases sized : FileSystem.hasLength buffer size
  · rw [if_neg (not_not.mpr sized)]
    cases mode with
    | read =>
      rw [if_neg (by simp)]
      rfl
    | readWrite =>
      rw [if_pos ⟨rfl, sized⟩]
      change (do
        let (result, openFile, state) ←
          (OpenFile.mk d offset).write host buffer size fileSystem.host
        return (result, fileSystem.storeFile d openFile state)) = _
      cases returned :
          (OpenFile.mk d offset).write host buffer size
            fileSystem.host with
      | error abort =>
        rfl
      | ok outcome =>
        obtain ⟨result, file, state⟩ := outcome
        obtain ⟨_, fileEq, _⟩ := OpenFile.write_result returned
        simp only [ok_bind, fileEq, held.storeFile]
  · rw [if_pos sized, if_neg (fun both => sized both.2)]

theorem HeldAt.sysSeek
    (held : HeldAt fileSystem.slots d offset mode name before after)
    (large : 2 ≤ d) (pos : Int) :
    sysSeek host pos d fileSystem =
      if pos < -1 then
        .ok (-1, fileSystem)
      else do
        let (pos, state) ←
          if pos = -1 then
            (OpenFile.mk d offset).length host fileSystem.host
          else
            .ok (pos, fileSystem.host)
        return (pos, ⟨moveTo d pos fileSystem.slots, state⟩) := by
  unfold Stub.sysSeek FileSystem.seek
  rw [if_neg (by omega), held.findSlot]
  simp only [Option.bind_some, Slot.holding, OpenFile.seek, held.storeFile]

end Access

/-! ## Every call keeps the table sound -/

section Preservation

variable (host : Host World) {fileSystem : FileSystem World}

theorem FileSystem.Sound.sysSeek_of_small
    (sound : fileSystem.Sound) {d : Int} (small : d < 2) (pos : Int) :
    sysSeek host pos d fileSystem = .ok (-1, fileSystem) := by
  unfold sysSeek FileSystem.seek
  by_cases negative : d < 0
  · rw [if_pos negative]
  · rw [if_neg negative]
    have noFile : (fileSystem.findSlot d).bind Slot.file = none := by
      rw [Option.bind_eq_none_iff]
      intro slot found
      have idEq : slot.id = d := by simpa using List.find?_some found
      rcases sound.slots slot (List.mem_of_find?_eq_some found) with
        rfl | ⟨fd, offset, mode, name, rfl, valid⟩
      · rfl
      · change fd = d at idEq
        omega
    rw [noFile]

theorem readChars_passes (remaining : Nat) (state : HostState World) :
    host.Passes state
      { state with world := (readChars host remaining state.world).2 } := by
  induction remaining generalizing state with
  | zero =>
    exact .refl state
  | succ remaining ih =>
    exact Host.Passes.trans (.single .getChar)
      (ih
        { state with world := (host.getChar state.world).2 })

theorem putChars_passes (characters : List Byte) (state : HostState World) :
    host.Passes state
      { state with
        world := characters.foldl (fun world character =>
          host.putChar character world) state.world } := by
  induction characters generalizing state with
  | nil =>
    exact .refl state
  | cons character characters ih =>
    exact Host.Passes.trans (.single (.putChar character))
      (ih
        { state with world := host.putChar character state.world })

theorem sysRead_of_small
    {d : Int} (small : d < 2) (buffer : List Byte) (size : Int) :
    ∃ result buffer' state,
      sysRead host buffer size d fileSystem =
          .ok (result, buffer', ⟨fileSystem.slots, state⟩) ∧
        host.Passes fileSystem.host state ∧ (d ≠ 0 → result = -1) := by
  unfold sysRead
  split_ifs with isInput isOutput
  · exact ⟨1, _, _, rfl, readChars_passes host _ fileSystem.host,
      fun other => absurd isInput other⟩
  · exact ⟨-1, buffer, fileSystem.host, rfl, .refl _, fun _ => rfl⟩
  · refine ⟨-1, buffer, fileSystem.host, ?_, .refl _, fun _ => rfl⟩
    unfold FileSystem.read
    rw [if_pos (by omega)]

theorem sysWrite_of_small
    {d : Int} (small : d < 2) (buffer : List Byte) (size : Int) :
    ∃ result state,
      sysWrite host buffer size d fileSystem =
          .ok (result, ⟨fileSystem.slots, state⟩) ∧
        host.Passes fileSystem.host state ∧ (d ≠ 1 → result = -1) := by
  unfold sysWrite
  split_ifs with isInput isOutput
  · exact ⟨-1, fileSystem.host, rfl, .refl _, fun _ => rfl⟩
  · exact ⟨1, _, rfl, putChars_passes host _ fileSystem.host,
      fun other => absurd isOutput other⟩
  · refine ⟨-1, fileSystem.host, ?_, .refl _, fun _ => rfl⟩
    unfold FileSystem.write
    rw [if_pos (by omega)]

/-- What an access through `d` does to the table: nothing where no slot holds
`d`; otherwise the position of that slot moves, as `change` says. -/
inductive Accesses
    (host : Host World) (fileSystem : FileSystem World) (d : Int)
    (change : Entry → Entry) : FileSystem World → Prop
  | elsewhere {state : HostState World}
      (notHeld : d < 2 ∨ ∀ slot ∈ fileSystem.slots, slot.id ≠ d)
      (passes : host.Passes fileSystem.host state) :
      Accesses host fileSystem d change ⟨fileSystem.slots, state⟩
  | moved
      {offset offset' : Int} {mode : Mode} {name : List Byte}
      {before after : List Slot} {state : HostState World}
      (large : 2 ≤ d)
      (held : HeldAt fileSystem.slots d offset mode name before after)
      (changed : change ⟨mode, offset⟩ = ⟨mode, offset'⟩)
      (passes : host.Passes fileSystem.host state) :
      Accesses host fileSystem d change
        ⟨moveTo d offset' fileSystem.slots, state⟩

theorem HeldAt.refused
    {d offset : Int} {mode : Mode} {name : List Byte}
    {before after : List Slot}
    (held : HeldAt fileSystem.slots d offset mode name before after)
    (large : 2 ≤ d) {change : Entry → Entry}
    (fixed : change ⟨mode, offset⟩ = ⟨mode, offset⟩) :
    Accesses host fileSystem d change fileSystem := by
  have effect : Accesses host fileSystem d change
      ⟨moveTo d offset fileSystem.slots, fileSystem.host⟩ :=
    .moved large held fixed (.refl _)
  rw [held.moveTo_self] at effect
  exact effect

def Entry.afterRead (result : Int) (entry : Entry) : Entry :=
  { entry with offset := wrap (entry.offset + result) }

def Entry.afterWrite
    (buffer : List Byte) (size result : Int) (entry : Entry) : Entry :=
  if entry.mode = .readWrite ∧ FileSystem.hasLength buffer size then
    { entry with offset := wrap (entry.offset + result) }
  else
    entry

def Entry.afterSeek (pos result : Int) (entry : Entry) : Entry :=
  if pos < -1 then entry else { entry with offset := result }

theorem FileSystem.Sound.read_accesses
    (sound : fileSystem.Sound) {buffer buffer' : List Byte}
    {size d result : Int} {next : FileSystem World}
    (returned : sysRead host buffer size d fileSystem =
      .ok (result, buffer', next)) :
    Accesses host fileSystem d (Entry.afterRead result) next := by
  by_cases large : 2 ≤ d
  · rcases sound.heldAt_cases large with
      absent | ⟨offset, mode, name, before, after, held⟩
    · rw [sysRead_of_absent host large absent] at returned
      cases returned
      exact .elsewhere (Or.inr absent) (.refl _)
    · rw [held.sysRead host large] at returned
      obtain ⟨⟨count, bytes, file, state⟩, outcome, returned⟩ :=
        exists_of_bind_eq_ok returned
      obtain ⟨fileEq, passes⟩ := OpenFile.read_result outcome
      cases returned
      rw [fileEq]
      exact .moved large held rfl passes
  · obtain ⟨count, bytes, state, small, passes, _⟩ :=
      @sysRead_of_small _ host fileSystem d (by omega) buffer size
    rw [small] at returned
    cases returned
    exact .elsewhere (Or.inl (by omega)) passes

theorem FileSystem.Sound.write_accesses
    (sound : fileSystem.Sound) {buffer : List Byte} {size d result : Int}
    {next : FileSystem World}
    (returned : sysWrite host buffer size d fileSystem =
      .ok (result, next)) :
    Accesses host fileSystem d (Entry.afterWrite buffer size result) next := by
  by_cases large : 2 ≤ d
  · rcases sound.heldAt_cases large with
      absent | ⟨offset, mode, name, before, after, held⟩
    · rw [sysWrite_of_absent host large absent] at returned
      cases returned
      exact .elsewhere (Or.inr absent) (.refl _)
    · rw [held.sysWrite host large] at returned
      by_cases admitted :
          mode = .readWrite ∧ FileSystem.hasLength buffer size
      · rw [if_pos admitted] at returned
        obtain ⟨⟨count, file, state⟩, outcome, returned⟩ :=
          exists_of_bind_eq_ok returned
        obtain ⟨_, fileEq, passes⟩ := OpenFile.write_result outcome
        cases returned
        rw [fileEq]
        exact .moved large held (if_pos admitted) passes
      · rw [if_neg admitted] at returned
        cases returned
        exact held.refused host large (if_neg admitted)
  · obtain ⟨count, state, small, passes, _⟩ :=
      @sysWrite_of_small _ host fileSystem d (by omega) buffer size
    rw [small] at returned
    cases returned
    exact .elsewhere (Or.inl (by omega)) passes

theorem FileSystem.Sound.seek_accesses
    (sound : fileSystem.Sound) {pos d result : Int}
    {next : FileSystem World}
    (returned : sysSeek host pos d fileSystem = .ok (result, next)) :
    Accesses host fileSystem d (Entry.afterSeek pos result) next := by
  by_cases large : 2 ≤ d
  · rcases sound.heldAt_cases large with
      absent | ⟨offset, mode, name, before, after, held⟩
    · rw [sysSeek_of_absent host large absent] at returned
      cases returned
      exact .elsewhere (Or.inr absent) (.refl _)
    · rw [held.sysSeek host large] at returned
      by_cases refused : pos < -1
      · rw [if_pos refused] at returned
        cases returned
        exact held.refused host large (if_pos refused)
      · rw [if_neg refused] at returned
        by_cases atEnd : pos = -1
        · rw [if_pos atEnd] at returned
          obtain ⟨⟨position, state⟩, outcome, returned⟩ :=
            exists_of_bind_eq_ok returned
          cases returned
          exact .moved large held (if_neg refused)
            (OpenFile.length_result outcome)
        · rw [if_neg atEnd] at returned
          cases returned
          exact .moved large held (if_neg refused) (.refl _)
  · rw [sound.sysSeek_of_small host (by omega)] at returned
    cases returned
    exact .elsewhere (Or.inl (by omega)) (.refl _)

theorem Accesses.accounts
    {d : Int} {change : Entry → Entry} {next : FileSystem World}
    (effect : Accesses host fileSystem d change next) :
    descriptors next.slots = descriptors fileSystem.slots ∧
      next.host.opened = fileSystem.host.opened := by
  cases effect with
  | elsewhere _ passes => exact ⟨rfl, passes.opened⟩
  | moved large held _ passes =>
    refine ⟨?_, passes.opened⟩
    rw [held.moveTo_eq, held.split, descriptors_split, descriptors_split,
      descriptor_holding (by omega), descriptor_holding (by omega)]

theorem sysRemove_frame (name : List Byte) :
    (sysRemove host name fileSystem).2.slots = fileSystem.slots ∧
      host.Passes fileSystem.host
        (sysRemove host name fileSystem).2.host := by
  unfold sysRemove FileSystem.remove unlink
  dsimp only
  split_ifs
  · exact ⟨rfl, .refl _⟩
  · exact ⟨rfl, .single (.unlink _)⟩
  · exact ⟨rfl, .single (.unlink _)⟩
  · exact ⟨rfl, .refl _⟩

theorem frame_of_perform_remove
    {host : Host World} {fileSystem next : FileSystem World}
    {name : List Byte} {result : Int}
    (returned : perform host (.remove name) fileSystem = .ok (result, next)) :
    next.slots = fileSystem.slots ∧
      host.Passes fileSystem.host next.host := by
  have frame := @sysRemove_frame _ host fileSystem name
  rw [show sysRemove host name fileSystem = (result, next) from
    Except.ok.inj returned] at frame
  exact frame

theorem hostOpen_opened (flags : OpenFlags) (name : List Byte) :
    (hostOpen host flags name fileSystem.host).2.opened =
      if 0 ≤ fileSystem.answer host flags name then
        fileSystem.answer host flags name :: fileSystem.host.opened
      else
        fileSystem.host.opened :=
  rfl

theorem hostOpen_keeps (flags : OpenFlags) (name : List Byte) :
    ∀ fd ∈ fileSystem.host.opened,
      fd ∈ (hostOpen host flags name fileSystem.host).2.opened := by
  intro fd member
  rw [hostOpen_opened]
  split_ifs
  · exact List.mem_cons_of_mem _ member
  · exact member

theorem hostClose_opened
    {fd : Int} {state state' : HostState World}
    (returned : hostClose host fd state = .ok state') :
    state'.opened = state.opened.filter (· ≠ fd) := by
  unfold hostClose at returned
  dsimp only at returned
  split_ifs at returned with nonnegative
  cases returned
  rfl

theorem FileSystem.Sound.install
    (sound : fileSystem.Sound) {flags : OpenFlags} {fileName : List Byte}
    (fresh : fileSystem.AnswersFresh host flags fileName)
    {before after : List Slot}
    (split : fileSystem.slots = before ++ Slot.empty :: after)
    (mode : Mode) (recorded : List Byte) :
    FileSystem.Sound
      ⟨before ++
        Slot.holding (fileSystem.answer host flags fileName) 0 mode recorded ::
          after,
        (hostOpen host flags fileName fileSystem.host).2⟩ := by
  have oldNodup := sound.nodup
  have oldOpened := sound.opened
  rw [split, descriptors_split, descriptor_empty, Option.toList_none,
    List.nil_append] at oldNodup oldOpened
  rcases fresh with failed | ⟨large, isFresh⟩
  · have sameDescriptors :
        descriptors (before ++ Slot.holding
            (fileSystem.answer host flags fileName) 0 mode recorded :: after) =
          descriptors before ++ descriptors after := by
      rw [descriptors_split, descriptor_holding_neg (by omega),
        Option.toList_none, List.nil_append]
    apply sound.replace split (Slot.sound_holding (Or.inl failed) _ _ _)
    · rw [sameDescriptors]
      exact oldNodup
    · rw [sameDescriptors]
      intro fd member
      exact hostOpen_keeps host flags fileName fd (oldOpened fd member)
  · have moreDescriptors :
        descriptors (before ++ Slot.holding
            (fileSystem.answer host flags fileName) 0 mode recorded :: after) =
          descriptors before ++
            fileSystem.answer host flags fileName :: descriptors after := by
      rw [descriptors_split, descriptor_holding (by omega)]
      rfl
    apply sound.replace split (Slot.sound_holding (Or.inr large) _ _ _)
    · rw [moreDescriptors, List.nodup_middle, List.nodup_cons]
      exact ⟨fun member => isFresh (oldOpened _ member), oldNodup⟩
    · rw [moreDescriptors, hostOpen_opened, if_pos (by omega)]
      intro fd member
      rw [List.mem_append, List.mem_cons] at member
      rcases member with member | rfl | member
      · exact List.mem_cons_of_mem _
          (oldOpened fd (List.mem_append_left _ member))
      · exact List.mem_cons_self
      · exact List.mem_cons_of_mem _
          (oldOpened fd (List.mem_append_right _ member))

theorem FileSystem.Sound.release
    (sound : fileSystem.Sound) {d offset : Int} {mode : Mode}
    {name : List Byte} {before after : List Slot} (large : 2 ≤ d)
    (held : HeldAt fileSystem.slots d offset mode name before after)
    {state : HostState World}
    (closed : state.opened = fileSystem.host.opened.filter (· ≠ d)) :
    FileSystem.Sound ⟨before ++ Slot.empty :: after, state⟩ := by
  have oldNodup := sound.nodup
  have oldOpened := sound.opened
  rw [held.split, descriptors_split, descriptor_holding (by omega),
    Option.toList_some, List.singleton_append] at oldNodup oldOpened
  have fewerDescriptors :
      descriptors (before ++ Slot.empty :: after) =
        descriptors before ++ descriptors after := by
    rw [descriptors_split, descriptor_empty, Option.toList_none,
      List.nil_append]
  rw [List.nodup_middle, List.nodup_cons] at oldNodup
  apply sound.replace held.split Slot.sound_empty
  · rw [fewerDescriptors]
    exact oldNodup.2
  · rw [fewerDescriptors, closed]
    intro fd member
    rw [List.mem_filter]
    refine ⟨oldOpened fd ?_, ?_⟩
    · rw [List.mem_append] at member
      rcases member with member | member
      · exact List.mem_append_left _ member
      · exact List.mem_append_right _ (List.mem_cons_of_mem _ member)
    · apply decide_eq_true
      rintro rfl
      exact oldNodup.1 member

theorem FileSystem.Sound.sysClose_cases
    (sound : fileSystem.Sound) {d result : Int} {next : FileSystem World}
    (returned : sysClose host d fileSystem = .ok (result, next)) :
    (result = -1 ∧ next = fileSystem ∧
        (d < 2 ∨ ∀ slot ∈ fileSystem.slots, slot.id ≠ d)) ∨
      (2 ≤ d ∧ result = 0 ∧
        ∃ offset mode name before after state,
          HeldAt fileSystem.slots d offset mode name before after ∧
            hostClose host d fileSystem.host = .ok state ∧
            next = ⟨before ++ Slot.empty :: after, state⟩) := by
  unfold sysClose at returned
  by_cases large : 2 ≤ d
  · rcases sound.heldAt_cases large with
      absent | ⟨offset, mode, name, before, after, held⟩
    · rw [close_of_absent host fileSystem (Or.inr absent)] at returned
      cases returned
      exact Or.inl ⟨rfl, rfl, Or.inr absent⟩
    · right
      rw [sound.close_found host large held.firstMatch] at returned
      obtain ⟨state, closed, returned⟩ := exists_of_bind_eq_ok returned
      cases returned
      exact ⟨large, rfl, offset, mode, name, before, after, state, held,
        closed, rfl⟩
  · left
    have absent : d < 0 ∨ ∀ slot ∈ fileSystem.slots, slot.id ≠ d := by
      by_cases zero : d = 0
      · subst zero
        right
        by_contra free
        push Not at free
        rw [sound.close_zero host free] at returned
        cases returned
      · by_cases negative : d < 0
        · exact Or.inl negative
        · right
          intro slot member same
          rcases sound.slots slot member with
            rfl | ⟨fd, offset, mode, name, rfl, valid⟩
          · exact zero same.symm
          · change fd = d at same
            omega
    rw [close_of_absent host fileSystem absent] at returned
    cases returned
    exact ⟨rfl, rfl, Or.inl (by omega)⟩

end Preservation

end Nachos.Stub
