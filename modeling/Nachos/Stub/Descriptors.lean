import Nachos.Stub.Runs
import Mathlib.Data.List.Induction

/-!
# The table as a map from descriptors to files

What the table is for: a map that gives, for each live descriptor, the mode it
was opened in and the present position.
-/

namespace Nachos.Stub

open Foundation

variable {World : Type}

abbrev Files := Int → Option Entry

def modeOf (type : Int) : Option Mode :=
  if type = 0 then some .readWrite else if type = 1 then some .read else none

namespace Files

def adjust (files : Files) (d : Int) (change : Entry → Entry) : Files :=
  Function.update files d ((files d).map change)

def apply (files : Files) : Call × Int → Files
  | (.openFile _ type, result) =>
    if 0 ≤ result then
      Function.update files result
        ((modeOf type).map (fun mode => ⟨mode, 0⟩))
    else
      files
  | (.close d, result) =>
    if result = 0 then Function.update files d none else files
  | (.read _ _ d, result) => files.adjust d (Entry.afterRead result)
  | (.write buffer size d, result) =>
    files.adjust d (Entry.afterWrite buffer size result)
  | (.seek pos d, result) => files.adjust d (Entry.afterSeek pos result)
  | (.create _, _) | (.remove _, _) => files

def replay (events : List (Call × Int)) : Files :=
  events.foldl apply (fun _ => none)

@[simp]
theorem replay_snoc (events : List (Call × Int)) (event : Call × Int) :
    replay (events ++ [event]) = (replay events).apply event := by
  simp [replay]

theorem adjust_of_ne
    (files : Files) {d other : Int} (different : other ≠ d)
    (change : Entry → Entry) :
    files.adjust d change other = files other :=
  Function.update_of_ne different _ _

theorem adjust_self (files : Files) (d : Int) (change : Entry → Entry) :
    files.adjust d change d = (files d).map change :=
  Function.update_self _ _ _

theorem apply_eq_none
    {files : Files} {d : Int} (dead : files d = none)
    {event : Call × Int}
    (notOpened : ∀ name type, event ≠ (.openFile name type, d)) :
    files.apply event d = none := by
  have adjusted : ∀ other (change : Entry → Entry),
      files.adjust other change d = none := by
    intro other change
    by_cases same : d = other
    · subst same
      rw [adjust_self, dead]
      rfl
    · rw [adjust_of_ne files same, dead]
  obtain ⟨call, result⟩ := event
  cases call with
  | openFile name type =>
    unfold apply
    dsimp only
    split_ifs
    · rw [Function.update_of_ne, dead]
      rintro rfl
      exact notOpened name type rfl
    · exact dead
  | close other =>
    unfold apply
    dsimp only
    split_ifs
    · by_cases same : d = other
      · subst same
        exact Function.update_self _ _ _
      · rw [Function.update_of_ne same, dead]
    · exact dead
  | read buffer size other => exact adjusted other _
  | write buffer size other => exact adjusted other _
  | seek pos other => exact adjusted other _
  | create name => exact dead
  | remove name => exact dead

end Files

/-! ## The map behind the slots -/

def Slot.entry (slot : Slot) : Option Entry :=
  slot.file.map (fun file => ⟨slot.openMode, file.currentOffset⟩)

/-- The map that the slots stand for, on descriptors from 2 on. -/
def lookup (slots : List Slot) (d : Int) : Option Entry :=
  (slots.find? (fun slot => slot.id == d)).bind Slot.entry

theorem lookup_of_absent
    {slots : List Slot} {d : Int} (absent : ∀ slot ∈ slots, slot.id ≠ d) :
    lookup slots d = none := by
  unfold lookup
  rw [find?_of_no_match (fun slot member => by simpa using absent slot member)]
  rfl

theorem HeldAt.lookup
    {slots before after : List Slot} {d offset : Int} {mode : Mode}
    {name : List Byte}
    (held : HeldAt slots d offset mode name before after) :
    Stub.lookup slots d = some ⟨mode, offset⟩ := by
  unfold Stub.lookup
  rw [held.firstMatch.find?]
  rfl

theorem lookup_skip
    (before after : List Slot) {slot : Slot} {d : Int}
    (different : slot.id ≠ d) :
    lookup (before ++ slot :: after) d = lookup (before ++ after) d := by
  have failed : (slot.id == d) = false := by simpa using different
  unfold lookup
  rw [List.find?_append, List.find?_append, List.find?_cons, failed]

theorem lookup_replace
    (before after : List Slot) {slot updated : Slot} {d : Int}
    (different : slot.id ≠ d) (different' : updated.id ≠ d) :
    lookup (before ++ updated :: after) d =
      lookup (before ++ slot :: after) d := by
  rw [lookup_skip before after different, lookup_skip before after different']

theorem heldAt_mk
    {before after : List Slot} {d : Int}
    (earlier : ∀ slot ∈ before, slot.id ≠ d)
    (later : ∀ slot ∈ after, slot.id ≠ d)
    (offset : Int) (mode : Mode) (name : List Byte) :
    HeldAt (before ++ Slot.holding d offset mode name :: after) d offset mode
      name before after :=
  ⟨rfl, earlier, later⟩

theorem HeldAt.lookup_moveTo
    {slots before after : List Slot} {d offset : Int} {mode : Mode}
    {name : List Byte}
    (held : HeldAt slots d offset mode name before after)
    {files : Files}
    (agrees : ∀ other, 2 ≤ other → Stub.lookup slots other = files other)
    (large : 2 ≤ d) {change : Entry → Entry} {offset' : Int}
    (changed : change ⟨mode, offset⟩ = ⟨mode, offset'⟩) :
    ∀ other, 2 ≤ other →
      Stub.lookup (moveTo d offset' slots) other =
        files.adjust d change other := by
  intro other otherLarge
  rw [held.moveTo_eq]
  by_cases same : other = d
  · subst same
    rw [(heldAt_mk held.earlier held.later offset' mode name).lookup,
      Files.adjust_self, ← agrees other large, held.lookup, Option.map_some,
      changed]
  · rw [Files.adjust_of_ne files same, ← agrees other otherLarge, held.split]
    apply lookup_replace
    · exact fun equal => same equal.symm
    · exact fun equal => same equal.symm

/-! ## Refinement -/

structure Refines (fileSystem : FileSystem World) (files : Files) : Prop where
  sound : fileSystem.Sound
  agrees : ∀ d, 2 ≤ d → lookup fileSystem.slots d = files d

theorem sysOpen_eq
    (host : Host World) (fileName : List Byte) (type : Int)
    (fileSystem : FileSystem World) :
    sysOpen host fileName type fileSystem =
      match modeOf type with
      | some mode => fileSystem.openMode host fileName mode
      | none => .ok (-1, fileSystem) := by
  unfold sysOpen modeOf
  split_ifs <;> rfl

namespace Refines

variable {host : Host World} {fileSystem next : FileSystem World}
variable {files : Files} {result : Int}

theorem unchanged
    (refines : Refines fileSystem files) {state : HostState World}
    (kept : ∀ fd ∈ fileSystem.host.opened, fd ∈ state.opened)
    {files' : Files} (same : ∀ d, 2 ≤ d → files' d = files d) :
    Refines ⟨fileSystem.slots, state⟩ files' :=
  ⟨refines.sound.host kept,
    fun d large => (refines.agrees d large).trans (same d large).symm⟩

theorem access
    (refines : Refines fileSystem files) {d : Int} {change : Entry → Entry}
    (effect : Accesses host fileSystem d change next) :
    Refines next (files.adjust d change) := by
  cases effect with
  | elsewhere notHeld passes =>
    apply refines.unchanged
    · rw [passes.opened]
      exact fun _ member => member
    · intro other otherLarge
      by_cases same : other = d
      · subst same
        rcases notHeld with small | absent
        · omega
        · rw [Files.adjust_self, ← refines.agrees other otherLarge,
            lookup_of_absent absent]
          rfl
      · exact Files.adjust_of_ne files same _
  | moved large held changed passes =>
    refine ⟨?_, held.lookup_moveTo refines.agrees large changed⟩
    rw [held.moveTo_eq]
    exact refines.sound.move large held.split _ passes.opened

theorem create
    (refines : Refines fileSystem files)
    {name : List Byte}
    (fresh : fileSystem.AnswersFresh host .createTruncate name)
    (returned : sysCreate host name fileSystem = .ok (result, next)) :
    Refines next files := by
  unfold sysCreate at returned
  rcases refines.sound.create_cases host fresh with
    ⟨_, refused⟩ | ⟨_, _, aborted⟩ | ⟨_, _, created⟩
  · rw [refused] at returned
    cases returned
    exact refines
  · rw [aborted] at returned
    cases returned
  · rw [created] at returned
    cases returned
    exact refines.unchanged (hostOpen_keeps host _ name) (fun _ _ => rfl)

theorem openFile
    (refines : Refines fileSystem files)
    (fresh : fileSystem.OpensFresh host) {name : List Byte} {type : Int}
    (returned : sysOpen host name type fileSystem = .ok (result, next)) :
    Refines next (files.apply (.openFile name type, result)) := by
  have refused : ∀ state : HostState World,
      (∀ fd ∈ fileSystem.host.opened, fd ∈ state.opened) →
      Refines ⟨fileSystem.slots, state⟩
        (files.apply (.openFile name type, -1)) := by
    intro state kept
    exact refines.unchanged kept (fun _ _ => rfl)
  rw [sysOpen_eq] at returned
  cases asked : modeOf type with
  | none =>
    rw [asked] at returned
    cases returned
    exact refused _ (fun _ member => member)
  | some mode =>
    rw [asked] at returned
    rcases refines.sound.openMode_cases host (fresh mode.flags name) with
      ⟨_, early⟩ | ⟨_, _, full⟩ | ⟨_, _, before, after, split, entered⟩
    · simp only [early] at returned
      cases returned
      exact refused _ (fun _ member => member)
    · simp only [full] at returned
      cases returned
      exact refused _ (hostOpen_keeps host _ name)
    · simp only [entered] at returned
      cases returned
      refine ⟨refines.sound.install host (fresh _ name) split mode _, ?_⟩
      intro d large
      have notEmpty : Slot.empty.id ≠ d := by
        change (0 : Int) ≠ d
        omega
      unfold Files.apply
      dsimp only
      rcases fresh mode.flags name with failed | ⟨answerLarge, isFresh⟩
      · rw [failed, if_neg (by decide), ← refines.agrees d large, split]
        apply lookup_replace _ _ notEmpty
        change (-1 : Int) ≠ d
        omega
      · rw [if_pos (by omega), asked]
        by_cases same : d = fileSystem.answer host mode.flags name
        · have absent := refines.sound.not_held answerLarge isFresh
          rw [split] at absent
          rw [same, Function.update_self]
          exact (heldAt_mk
            (fun slot member => absent slot (by simp [member]))
            (fun slot member => absent slot (by simp [member]))
            0 mode (cString name)).lookup
        · rw [Function.update_of_ne same, ← refines.agrees d large, split]
          apply lookup_replace _ _ notEmpty
          exact fun equal => same equal.symm

theorem close
    (refines : Refines fileSystem files) {d : Int}
    (returned : sysClose host d fileSystem = .ok (result, next)) :
    Refines next (files.apply (.close d, result)) := by
  rcases refines.sound.sysClose_cases host returned with
    ⟨rfl, rfl, _⟩ |
      ⟨large, rfl, offset, mode, name, before, after, state, held, closed,
        rfl⟩
  · exact refines
  · refine ⟨refines.sound.release large held (hostClose_opened host closed), ?_⟩
    intro other otherLarge
    have notEmpty : Slot.empty.id ≠ other := by
      change (0 : Int) ≠ other
      omega
    unfold Files.apply
    dsimp only
    rw [if_pos rfl]
    by_cases same : other = d
    · subst same
      rw [Function.update_self]
      apply lookup_of_absent
      intro slot member
      rcases List.mem_append.mp member with member | member
      · exact held.earlier slot member
      · rcases List.mem_cons.mp member with rfl | member
        · exact notEmpty
        · exact held.later slot member
    · rw [Function.update_of_ne same, ← refines.agrees other otherLarge,
        held.split]
      apply lookup_replace _ _ _ notEmpty
      exact fun equal => same equal.symm

/-- One call: the table follows the map of descriptors. -/
theorem step
    (refines : Refines fileSystem files) {event : Call × Int}
    (taken : (system host).step fileSystem event next) :
    Refines next (files.apply event) := by
  obtain ⟨fresh, returned⟩ := taken
  obtain ⟨call, result⟩ := event
  cases call with
  | create name => exact refines.create (fresh _ name) returned
  | openFile name type => exact refines.openFile fresh returned
  | close d => exact refines.close returned
  | write buffer size d =>
    exact refines.access (refines.sound.write_accesses host returned)
  | seek pos d =>
    exact refines.access (refines.sound.seek_accesses host returned)
  | read buffer size d =>
    obtain ⟨bytes, read⟩ := sysRead_of_perform returned
    exact refines.access (refines.sound.read_accesses host read)
  | remove name =>
    obtain ⟨sameSlots, passes⟩ := frame_of_perform_remove returned
    obtain ⟨slots, state⟩ := next
    subst sameSlots
    apply refines.unchanged
    · rw [show state.opened = fileSystem.host.opened from passes.opened]
      exact fun _ member => member
    · exact fun _ _ => rfl

theorem start
    (starting : (system host).start fileSystem) :
    Refines fileSystem (fun _ => none) := by
  obtain ⟨allEmpty, noneOpened⟩ := starting
  have isEmpty : ∀ slot ∈ fileSystem.slots, slot = Slot.empty := by
    rw [allEmpty]
    exact fun slot member => List.eq_of_mem_replicate member
  have noDescriptors : descriptors fileSystem.slots = [] := by
    unfold descriptors
    rw [List.filterMap_eq_nil_iff]
    intro slot member
    rw [isEmpty slot member, descriptor_empty]
  refine ⟨⟨?_, ?_, ?_⟩, ?_⟩
  · intro slot member
    rw [isEmpty slot member]
    exact Slot.sound_empty
  · rw [noDescriptors]
    exact List.nodup_nil
  · rw [noDescriptors]
    simp
  · intro d large
    apply lookup_of_absent
    intro slot member
    rw [isEmpty slot member]
    change (0 : Int) ≠ d
    omega

theorem run
    {source target : FileSystem World} {events : List (Call × Int)}
    (starting : (system host).start source)
    (performed : (system host).Run source events target) :
    Refines target (Files.replay events) := by
  induction performed with
  | nil =>
    exact start starting
  | snoc _ taken ih =>
    rw [Files.replay_snoc]
    exact ih.step taken

end Refines

theorem sound_of_reachable
    {host : Host World} {fileSystem : FileSystem World}
    (reachable : (system host).Reachable fileSystem) : fileSystem.Sound := by
  obtain ⟨source, events, starting, performed⟩ := reachable.exists_run
  exact (Refines.run starting performed).sound

/-! ## Access through the map -/

section Access

variable (host : Host World) (files : Files) (fileSystem : FileSystem World)

def Files.read (buffer : List Byte) (size d : Int) :
    Except Abort (Int × List Byte × FileSystem World) :=
  match files d with
  | none => .ok (-1, buffer, fileSystem)
  | some entry => do
    let (result, buffer, file, state) ←
      (OpenFile.mk d entry.offset).read host buffer size fileSystem.host
    return (result, buffer,
      ⟨moveTo d file.currentOffset fileSystem.slots, state⟩)

def Files.write (buffer : List Byte) (size d : Int) :
    Except Abort (Int × FileSystem World) :=
  match files d with
  | none => .ok (-1, fileSystem)
  | some entry =>
    if entry.mode = .readWrite ∧ FileSystem.hasLength buffer size then do
      let (result, file, state) ←
        (OpenFile.mk d entry.offset).write host buffer size fileSystem.host
      return (result,
        ⟨moveTo d file.currentOffset fileSystem.slots, state⟩)
    else
      .ok (-1, fileSystem)

def Files.seek (pos d : Int) : Except Abort (Int × FileSystem World) :=
  match files d with
  | none => .ok (-1, fileSystem)
  | some entry =>
    if pos < -1 then
      .ok (-1, fileSystem)
    else do
      let (pos, state) ←
        if pos = -1 then
          (OpenFile.mk d entry.offset).length host fileSystem.host
        else
          .ok (pos, fileSystem.host)
      return (pos, ⟨moveTo d pos fileSystem.slots, state⟩)

end Access

namespace Refines

variable (host : Host World) {fileSystem : FileSystem World} {files : Files}

theorem sysRead_eq
    (refines : Refines fileSystem files) {d : Int} (large : 2 ≤ d)
    (buffer : List Byte) (size : Int) :
    sysRead host buffer size d fileSystem =
      files.read host fileSystem buffer size d := by
  unfold Files.read
  rw [← refines.agrees d large]
  rcases refines.sound.heldAt_cases large with
    absent | ⟨offset, mode, name, before, after, held⟩
  · rw [lookup_of_absent absent, sysRead_of_absent host large absent]
  · rw [held.lookup, held.sysRead host large]

theorem sysWrite_eq
    (refines : Refines fileSystem files) {d : Int} (large : 2 ≤ d)
    (buffer : List Byte) (size : Int) :
    sysWrite host buffer size d fileSystem =
      files.write host fileSystem buffer size d := by
  unfold Files.write
  rw [← refines.agrees d large]
  rcases refines.sound.heldAt_cases large with
    absent | ⟨offset, mode, name, before, after, held⟩
  · rw [lookup_of_absent absent, sysWrite_of_absent host large absent]
  · rw [held.lookup, held.sysWrite host large]

theorem sysSeek_eq
    (refines : Refines fileSystem files) {d : Int} (large : 2 ≤ d)
    (pos : Int) :
    sysSeek host pos d fileSystem = files.seek host fileSystem pos d := by
  unfold Files.seek
  rw [← refines.agrees d large]
  rcases refines.sound.heldAt_cases large with
    absent | ⟨offset, mode, name, before, after, held⟩
  · rw [lookup_of_absent absent, sysSeek_of_absent host large absent]
  · rw [held.lookup, held.sysSeek host large]

end Refines

theorem large_of_closed
    {host : Host World} {source target : FileSystem World}
    {events : List (Call × Int)}
    (starting : (system host).start source)
    (performed : (system host).Run source events target)
    {d : Int} (closed : (Call.close d, 0) ∈ events) : 2 ≤ d := by
  induction performed with
  | nil =>
    exact absurd closed List.not_mem_nil
  | @snoc _ _ _ label earlier taken ih =>
    rcases List.mem_append.mp closed with closed | closed
    · exact ih closed
    · rw [List.mem_singleton] at closed
      subst closed
      obtain ⟨_, returned⟩ := taken
      rcases (Refines.run starting earlier).sound.sysClose_cases host
          returned with
        ⟨impossible, _⟩ | ⟨large, _⟩
      · exact absurd impossible (show (0 : Int) ≠ -1 by decide)
      · exact large

theorem replay_of_closed
    (earlier later : List (Call × Int)) {d : Int}
    (notOpened : ∀ event ∈ later, ∀ name type,
      event ≠ (.openFile name type, d)) :
    Files.replay (earlier ++ (.close d, 0) :: later) d = none := by
  induction later using List.reverseRecOn with
  | nil =>
    rw [Files.replay_snoc]
    exact Function.update_self _ _ _
  | append_singleton later event ih =>
    rw [← List.cons_append, ← List.append_assoc, Files.replay_snoc]
    apply Files.apply_eq_none
    · exact ih (fun other member =>
        notOpened other (List.mem_append_left _ member))
    · exact notOpened event (by simp)

/-- After any sequence of calls that each return, the descriptors in the table
are distinct, and it behaves as the map that the calls and their results add up
to: an access through `d` is an access to the file, mode and position recorded
for `d`, changes no other slot, is refused for writing if `d` was opened for
reading, and is refused altogether from a successful close of `d` until `d` is
opened again. -/
theorem table_refines_descriptor_map
    (host : Host World) {source target : FileSystem World}
    {events : List (Call × Int)}
    (starting : (system host).start source)
    (performed : (system host).Run source events target) :
    (descriptors target.slots).Nodup ∧
      (∀ d, 2 ≤ d →
        lookup target.slots d = Files.replay events d ∧
        (∀ buffer size, sysRead host buffer size d target =
          (Files.replay events).read host target buffer size d) ∧
        (∀ buffer size, sysWrite host buffer size d target =
          (Files.replay events).write host target buffer size d) ∧
        ∀ pos, sysSeek host pos d target =
          (Files.replay events).seek host target pos d) ∧
      (∀ d offset buffer size, 2 ≤ d →
        Files.replay events d = some ⟨.read, offset⟩ →
        sysWrite host buffer size d target = .ok (-1, target)) ∧
      ∀ earlier d later, events = earlier ++ (.close d, 0) :: later →
        (∀ event ∈ later, ∀ name type, event ≠ (.openFile name type, d)) →
        ∀ buffer size pos,
          sysRead host buffer size d target = .ok (-1, buffer, target) ∧
            sysWrite host buffer size d target = .ok (-1, target) ∧
            sysSeek host pos d target = .ok (-1, target) := by
  have refines := Refines.run starting performed
  refine ⟨refines.sound.nodup, ?_, ?_, ?_⟩
  · intro d large
    exact ⟨refines.agrees d large, refines.sysRead_eq host large,
      refines.sysWrite_eq host large, refines.sysSeek_eq host large⟩
  · intro d offset buffer size large readOnly
    rw [refines.sysWrite_eq host large]
    simp [Files.write, readOnly]
  · intro earlier d later eventsEq notOpened buffer size pos
    have large : 2 ≤ d :=
      large_of_closed starting performed (by rw [eventsEq]; simp)
    have dead : Files.replay events d = none := by
      rw [eventsEq]
      exact replay_of_closed earlier later notOpened
    rw [refines.sysRead_eq host large, refines.sysWrite_eq host large,
      refines.sysSeek_eq host large]
    simp [Files.read, Files.write, Files.seek, dead]

/-- `"a"` is opened twice, written and sought through 3, and 2 is closed. -/
def smallEvents : List (Call × Int) :=
  [(.openFile [97] 1, 2), (.openFile [97] 0, 3), (.write [120, 121] 2 3, 2),
    (.seek 1 3, 1), (.close 2, 0)]

/-- Descriptor 3 is at position 1, and nothing can be read through 2. -/
theorem descriptor_map_after_close :
    ∃ target, (system smallHost).Run smallStart smallEvents target ∧
      lookup target.slots 3 = some ⟨.readWrite, 1⟩ ∧
      sysRead smallHost [0] 1 2 target = .ok (-1, [0], target) := by
  have performed : (system smallHost).Run smallStart smallEvents _ :=
    .cons ⟨smallStart_opensFresh, rfl⟩
      (.cons ⟨smallHost_opensFresh (by decide) (by decide), rfl⟩
        (.cons ⟨smallHost_opensFresh (by decide) (by decide), rfl⟩
          (.cons ⟨smallHost_opensFresh (by decide) (by decide), rfl⟩
            (.cons ⟨smallHost_opensFresh (by decide) (by decide), rfl⟩
              (.nil _)))))
  obtain ⟨-, agrees, -, refuses⟩ :=
    table_refines_descriptor_map smallHost smallStart_start performed
  have recorded : Files.replay smallEvents 3 = some ⟨.readWrite, 1⟩ := by decide
  exact ⟨_, performed, (agrees 3 (by decide)).1.trans recorded,
    (refuses (smallEvents.take 4) 2 [] rfl (by simp) [0] 1 0).1⟩

end Nachos.Stub
