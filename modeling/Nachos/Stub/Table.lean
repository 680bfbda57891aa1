import Nachos.Stub.FileSystem

/-!
# What the table holds
-/

namespace Nachos.Stub

open Foundation

variable {World : Type}

namespace Slot

def holding (fd offset : Int) (mode : Mode) (name : List Byte) : Slot :=
  ⟨some ⟨fd, offset⟩, fd, mode, some name⟩

/-- Empty, or holding a file; a failed host `open` leaves -1 as descriptor. -/
def Sound (slot : Slot) : Prop :=
  slot = empty ∨
    ∃ fd offset mode name,
      slot = holding fd offset mode name ∧ (fd = -1 ∨ 2 ≤ fd)

def descriptor (slot : Slot) : Option Int :=
  if slot.file.isSome ∧ 0 ≤ slot.id then some slot.id else none

theorem sound_empty : Slot.empty.Sound :=
  Or.inl rfl

theorem sound_holding
    {fd : Int} (valid : fd = -1 ∨ 2 ≤ fd)
    (offset : Int) (mode : Mode) (name : List Byte) :
    (holding fd offset mode name).Sound :=
  Or.inr ⟨fd, offset, mode, name, rfl, valid⟩

theorem Sound.eq_holding
    {slot : Slot} (sound : slot.Sound) (large : 2 ≤ slot.id) :
    ∃ offset mode name, slot = holding slot.id offset mode name := by
  rcases sound with rfl | ⟨fd, offset, mode, name, rfl, _⟩
  · exact absurd large (by decide)
  · exact ⟨offset, mode, name, rfl⟩

theorem Sound.eq_empty_of_id
    {slot : Slot} (sound : slot.Sound) (zero : slot.id = 0) :
    slot = empty := by
  rcases sound with rfl | ⟨fd, offset, mode, name, rfl, valid⟩
  · rfl
  · exfalso
    change fd = 0 at zero
    omega

theorem Sound.eq_empty_of_file
    {slot : Slot} (sound : slot.Sound) (free : slot.file.isNone = true) :
    slot = empty := by
  rcases sound with rfl | ⟨fd, offset, mode, name, rfl, _⟩
  · rfl
  · exact absurd free (by simp [holding])

end Slot

def descriptors (slots : List Slot) : List Int :=
  slots.filterMap Slot.descriptor

theorem descriptors_split (before after : List Slot) (slot : Slot) :
    descriptors (before ++ slot :: after) =
      descriptors before ++ (slot.descriptor.toList ++ descriptors after) := by
  unfold descriptors
  rw [List.filterMap_append, List.filterMap_cons]
  cases slot.descriptor <;> rfl

@[simp]
theorem descriptor_empty : Slot.empty.descriptor = none :=
  rfl

theorem descriptor_holding
    {fd : Int} (nonnegative : 0 ≤ fd) (offset : Int) (mode : Mode)
    (name : List Byte) :
    (Slot.holding fd offset mode name).descriptor = some fd := by
  simp [Slot.holding, Slot.descriptor, nonnegative]

theorem descriptor_holding_neg
    {fd : Int} (negative : fd < 0) (offset : Int) (mode : Mode)
    (name : List Byte) :
    (Slot.holding fd offset mode name).descriptor = none := by
  simp [Slot.holding, Slot.descriptor, negative]

structure FileSystem.Sound (fileSystem : FileSystem World) : Prop where
  slots : ∀ slot ∈ fileSystem.slots, slot.Sound
  nodup : (descriptors fileSystem.slots).Nodup
  opened : ∀ fd ∈ descriptors fileSystem.slots, fd ∈ fileSystem.host.opened

namespace FileSystem.Sound

variable {fileSystem : FileSystem World}

theorem found
    (sound : fileSystem.Sound) {d : Int} (large : 2 ≤ d)
    {before after : List Slot} {slot : Slot}
    (first : FirstMatch (fun slot => slot.id == d) fileSystem.slots
      before slot after) :
    (∃ offset mode name, slot = Slot.holding d offset mode name) ∧
      (∀ other ∈ before, other.id ≠ d) ∧
      ∀ other ∈ after, other.id ≠ d := by
  have idEq : slot.id = d := by simpa using first.passes
  have slotSound := sound.slots slot first.mem
  obtain ⟨offset, mode, name, held⟩ :=
    slotSound.eq_holding (by rw [idEq]; exact large)
  rw [idEq] at held
  refine ⟨⟨offset, mode, name, held⟩, ?_, ?_⟩
  · intro other member
    have failed := first.earlier other member
    simpa using failed
  · intro other member same
    have otherSound := sound.slots other (by
      rw [first.split]
      simp [member])
    obtain ⟨otherOffset, otherMode, otherName, otherHeld⟩ :=
      otherSound.eq_holding (by rw [same]; exact large)
    have nodup := sound.nodup
    rw [first.split, descriptors_split, held,
      descriptor_holding (by omega)] at nodup
    have tail := (List.nodup_append.mp nodup).2.1
    rw [Option.toList_some, List.singleton_append, List.nodup_cons] at tail
    apply tail.1
    apply List.mem_filterMap.mpr
    refine ⟨other, member, ?_⟩
    rw [otherHeld, same, descriptor_holding (by omega)]

theorem not_held
    (sound : fileSystem.Sound) {d : Int} (large : 2 ≤ d)
    (fresh : d ∉ fileSystem.host.opened) :
    ∀ slot ∈ fileSystem.slots, slot.id ≠ d := by
  intro slot member same
  obtain ⟨offset, mode, name, held⟩ :=
    (sound.slots slot member).eq_holding (by rw [same]; exact large)
  apply fresh
  apply sound.opened
  apply List.mem_filterMap.mpr
  refine ⟨slot, member, ?_⟩
  rw [held, same, descriptor_holding (by omega)]

/-- Replacing one slot by a sound one that keeps the descriptors accounted
for. -/
theorem replace
    (sound : fileSystem.Sound) {before after : List Slot} {slot : Slot}
    (split : fileSystem.slots = before ++ slot :: after)
    {updated : Slot} (updatedSound : updated.Sound)
    {state : HostState World}
    (nodup : (descriptors (before ++ updated :: after)).Nodup)
    (opened : ∀ fd ∈ descriptors (before ++ updated :: after),
      fd ∈ state.opened) :
    FileSystem.Sound ⟨before ++ updated :: after, state⟩ := by
  refine ⟨?_, nodup, opened⟩
  intro other member
  rcases List.mem_append.mp member with member | member
  · exact sound.slots other (by rw [split]; simp [member])
  · rcases List.mem_cons.mp member with rfl | member
    · exact updatedSound
    · exact sound.slots other (by rw [split]; simp [member])

theorem move
    (sound : fileSystem.Sound) {before after : List Slot}
    {d offset : Int} {mode : Mode} {name : List Byte} (large : 2 ≤ d)
    (split : fileSystem.slots =
      before ++ Slot.holding d offset mode name :: after)
    (offset' : Int) {state : HostState World}
    (sameOpened : state.opened = fileSystem.host.opened) :
    FileSystem.Sound
      ⟨before ++ Slot.holding d offset' mode name :: after, state⟩ := by
  have sameDescriptors :
      descriptors (before ++ Slot.holding d offset' mode name :: after) =
        descriptors fileSystem.slots := by
    rw [split, descriptors_split, descriptors_split,
      descriptor_holding (by omega), descriptor_holding (by omega)]
  apply sound.replace split (Slot.sound_holding (Or.inr large) _ _ _)
  · rw [sameDescriptors]
    exact sound.nodup
  · rw [sameDescriptors, sameOpened]
    exact sound.opened

theorem host
    (sound : fileSystem.Sound) {state : HostState World}
    (kept : ∀ fd ∈ fileSystem.host.opened, fd ∈ state.opened) :
    FileSystem.Sound ⟨fileSystem.slots, state⟩ :=
  ⟨sound.slots, sound.nodup, fun fd member => kept fd (sound.opened fd member)⟩

end FileSystem.Sound

/-! ## What each function does to the table -/

def FileSystem.answer
    (host : Host World) (fileSystem : FileSystem World) (flags : OpenFlags)
    (name : List Byte) : Int :=
  (host.openFile flags (cString name) fileSystem.host.world).1

def FileSystem.AnswersFresh
    (host : Host World) (fileSystem : FileSystem World) (flags : OpenFlags)
    (name : List Byte) : Prop :=
  fileSystem.answer host flags name = -1 ∨
    (2 ≤ fileSystem.answer host flags name ∧
      fileSystem.answer host flags name ∉ fileSystem.host.opened)

/-- What the file system expects of the host, whatever it is asked to open. -/
def FileSystem.OpensFresh
    (host : Host World) (fileSystem : FileSystem World) : Prop :=
  ∀ flags name, fileSystem.AnswersFresh host flags name

theorem smallHost_opensFresh
    {fileSystem : FileSystem SmallWorld}
    (large : 2 ≤ fileSystem.host.world.next)
    (unused : fileSystem.host.world.next ∉ fileSystem.host.opened) :
    fileSystem.OpensFresh smallHost := by
  intro flags name
  unfold FileSystem.AnswersFresh FileSystem.answer
  rcases smallHost_openFile flags (cString name) fileSystem.host.world with
    failed | given
  · left
    rw [failed]
  · right
    rw [given]
    exact ⟨large, unused⟩

def Mode.flags : Mode → OpenFlags
  | .readWrite => .readWrite
  | .read => .readOnly

namespace FileSystem

variable (host : Host World) (fileSystem : FileSystem World)

def refusesOpen (fileName : List Byte) (mode : Mode) : Bool :=
  decide (strlen fileName = 0) || fileSystem.checkFileMode host mode fileName

def isFull : Bool :=
  fileSystem.slots.all (fun slot => slot.file.isSome)

theorem openFor_eq (mode : Mode) (name : List Byte) (state : HostState World) :
    openFor host mode name state = hostOpen host mode.flags name state := by
  cases mode <;> rfl

theorem closeWithin_of_absent
    {fileID : Int}
    (absent : fileID < 0 ∨ ∀ slot ∈ fileSystem.slots, slot.id ≠ fileID)
    (depth : Nat) :
    closeWithin host (depth + 1) fileID fileSystem = .ok (-1, fileSystem) := by
  unfold closeWithin
  split_ifs with negative
  · rfl
  · have nothing : ∀ slot ∈ fileSystem.slots, (slot.id == fileID) = false := by
      intro slot member
      rcases absent with impossible | absent
      · exact absurd impossible negative
      · simpa using absent slot member
    rw [findIdx?_of_no_match nothing]

theorem close_of_absent
    {fileID : Int}
    (absent : fileID < 0 ∨ ∀ slot ∈ fileSystem.slots, slot.id ≠ fileID) :
    fileSystem.close host fileID = .ok (-1, fileSystem) :=
  closeWithin_of_absent host fileSystem absent _

variable {fileSystem}

/-- Closing an open descriptor empties its slot; the recursive call then finds
no slot any more. -/
theorem Sound.closeWithin_found
    (sound : fileSystem.Sound) {d : Int} (large : 2 ≤ d)
    {before after : List Slot} {slot : Slot}
    (first : FirstMatch (fun slot => slot.id == d) fileSystem.slots
      before slot after)
    (depth : Nat) :
    closeWithin host (depth + 2) d fileSystem = do
      let state ← hostClose host d fileSystem.host
      return (0, ⟨before ++ Slot.empty :: after, state⟩) := by
  obtain ⟨⟨offset, mode, name, held⟩, earlier, later⟩ := sound.found large first
  have absent : ∀ other ∈ before ++ Slot.empty :: after, other.id ≠ d := by
    intro other member
    rcases List.mem_append.mp member with member | member
    · exact earlier other member
    · rcases List.mem_cons.mp member with rfl | member
      · change (0 : Int) ≠ d
        omega
      · exact later other member
  unfold closeWithin
  rw [if_neg (by omega), first.findIdx?]
  simp only [first.getD, held, Slot.holding, deleteFile, first.set]
  cases hostClose host d fileSystem.host with
  | error abort =>
    rfl
  | ok state =>
    rw [ok_bind, closeWithin_of_absent host _ (Or.inr absent), ok_bind, ok_bind]

theorem Sound.close_found
    (sound : fileSystem.Sound) {d : Int} (large : 2 ≤ d)
    {before after : List Slot} {slot : Slot}
    (first : FirstMatch (fun slot => slot.id == d) fileSystem.slots
      before slot after) :
    fileSystem.close host d = do
      let state ← hostClose host d fileSystem.host
      return (0, ⟨before ++ Slot.empty :: after, state⟩) :=
  sound.closeWithin_found host large first _

/-- While a slot is free, `Close(0)` comes back to it at any depth. -/
theorem Sound.closeWithin_zero
    (sound : fileSystem.Sound)
    (free : ∃ slot ∈ fileSystem.slots, slot.id = 0) :
    ∀ depth, closeWithin host depth 0 fileSystem = .error .endlessRecursion
  | 0 => rfl
  | depth + 1 => by
    rcases firstMatch_cases (fun slot : Slot => slot.id == 0)
        fileSystem.slots with
      nothing | ⟨before, slot, after, first⟩
    · obtain ⟨slot, member, zero⟩ := free
      exact absurd (nothing slot member) (by simp [zero])
    · have zero : slot.id = 0 := by simpa using first.passes
      have isEmpty : slot = Slot.empty :=
        (sound.slots slot first.mem).eq_empty_of_id zero
      have unchanged :
          fileSystem.slots.set before.length Slot.empty =
            fileSystem.slots := by
        rw [first.set, first.split, isEmpty]
      unfold closeWithin
      rw [if_neg (by decide), first.findIdx?]
      have nothingDeleted :
          deleteFile host Slot.empty.file fileSystem.host =
            .ok fileSystem.host := rfl
      simp only [first.getD, isEmpty, unchanged, nothingDeleted, ok_bind,
        sound.closeWithin_zero free depth, error_bind]

theorem Sound.close_zero
    (sound : fileSystem.Sound)
    (free : ∃ slot ∈ fileSystem.slots, slot.id = 0) :
    fileSystem.close host 0 = .error .endlessRecursion :=
  sound.closeWithin_zero host free _

/-- `OpenMode` returns at once, or asks the host and enters the answer in the
first free slot, or asks the host and finds no free slot. -/
theorem Sound.openMode_cases
    (sound : fileSystem.Sound) {fileName : List Byte} {mode : Mode}
    (fresh : fileSystem.AnswersFresh host mode.flags fileName) :
    (fileSystem.refusesOpen host fileName mode = true ∧
        fileSystem.openMode host fileName mode = .ok (-1, fileSystem)) ∨
      (fileSystem.refusesOpen host fileName mode = false ∧
        fileSystem.isFull = true ∧
        fileSystem.openMode host fileName mode =
          .ok (-1, ⟨fileSystem.slots,
            (hostOpen host mode.flags fileName fileSystem.host).2⟩)) ∨
      (fileSystem.refusesOpen host fileName mode = false ∧
        fileSystem.isFull = false ∧
        ∃ before after,
          fileSystem.slots = before ++ Slot.empty :: after ∧
          fileSystem.openMode host fileName mode =
            .ok (fileSystem.answer host mode.flags fileName,
              ⟨before ++
                Slot.holding (fileSystem.answer host mode.flags fileName) 0
                  mode (cString fileName) :: after,
                (hostOpen host mode.flags fileName fileSystem.host).2⟩)) := by
  unfold openMode refusesOpen
  by_cases named : strlen fileName = 0
  · left
    simp [named]
  · cases checked : fileSystem.checkFileMode host mode fileName with
    | true =>
      left
      simp [named]
    | false =>
      right
      rw [if_neg named, if_neg (by decide), openFor_eq]
      rcases firstMatch_cases (fun slot : Slot => slot.file.isNone)
          fileSystem.slots with
        nothing | ⟨before, slot, after, first⟩
      · left
        have full : fileSystem.isFull = true := by
          unfold isFull
          rw [List.all_eq_true]
          intro slot member
          rw [← Option.not_isNone, nothing slot member]
          rfl
        refine ⟨by simp [named], full, ?_⟩
        simp only [findIdx?_of_no_match nothing]
        rw [close_of_absent host
          ⟨fileSystem.slots,
            (hostOpen host mode.flags fileName fileSystem.host).2⟩]
        · rfl
        · rcases fresh with failed | ⟨large, isFresh⟩
          · left
            change fileSystem.answer host mode.flags fileName < 0
            omega
          · right
            exact sound.not_held large isFresh
      · right
        have isEmpty : slot = Slot.empty :=
          (sound.slots slot first.mem).eq_empty_of_file first.passes
        have notFull : fileSystem.isFull = false := by
          unfold isFull
          rw [List.all_eq_false]
          refine ⟨slot, first.mem, ?_⟩
          rw [isEmpty]
          decide
        refine ⟨by simp [named], notFull, before, after, ?_, ?_⟩
        · rw [first.split, isEmpty]
        · simp only [first.findIdx?, first.set]
          rfl

/-- `Create` leaves the table alone; whatever it opens on the host stays
open. -/
theorem Sound.create_cases
    (sound : fileSystem.Sound) {name : List Byte}
    (fresh : fileSystem.AnswersFresh host .createTruncate name) :
    (strlen name = 0 ∧
        fileSystem.create host name = .ok (-1, fileSystem)) ∨
      (strlen name ≠ 0 ∧
        fileSystem.answer host .createTruncate name = -1 ∧
        fileSystem.create host name = .error .openForWrite) ∨
      (strlen name ≠ 0 ∧
        2 ≤ fileSystem.answer host .createTruncate name ∧
        fileSystem.create host name =
          .ok (0, ⟨fileSystem.slots,
            (hostOpen host .createTruncate name fileSystem.host).2⟩)) := by
  unfold create
  by_cases named : strlen name = 0
  · left
    rw [if_pos named]
    exact ⟨named, rfl⟩
  · right
    rw [if_neg named]
    rcases fresh with failed | ⟨large, isFresh⟩
    · left
      refine ⟨named, failed, ?_⟩
      have aborted :
          openForWrite host name fileSystem.host = .error .openForWrite := by
        unfold openForWrite
        change (if 0 ≤ fileSystem.answer host .createTruncate name
          then _ else _) = _
        rw [failed]
        rfl
      rw [aborted]
      rfl
    · right
      refine ⟨named, large, ?_⟩
      have opened :
          openForWrite host name fileSystem.host =
            .ok (fileSystem.answer host .createTruncate name,
              (hostOpen host .createTruncate name fileSystem.host).2) := by
        unfold openForWrite
        change (if 0 ≤ fileSystem.answer host .createTruncate name
          then _ else _) = _
        rw [if_pos (by omega)]
        rfl
      rw [opened, ok_bind]
      simp only
      rw [if_neg (by omega), close_of_absent host
        ⟨fileSystem.slots,
          (hostOpen host .createTruncate name fileSystem.host).2⟩
        (Or.inr (sound.not_held large isFresh))]
      rfl

end FileSystem

end Nachos.Stub
