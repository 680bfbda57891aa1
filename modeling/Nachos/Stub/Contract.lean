import Nachos.Stub.Descriptors

/-!
# A host that keeps its side

Seen from the account of open descriptors: the host may refuse to open, read or
unlink, but seeking, writing and closing work on what is open.  Every system
call keeps such a host and the table together.
-/

namespace Nachos.Stub

open Foundation

variable {World : Type}

/-- What the file system relies on.  `valid` relates the state of the host to
the account of open descriptors, `writable` says which of them were opened for
writing. -/
structure Contract (host : Host World) where
  valid : HostState World → Prop
  writable : HostState World → Int → Prop
  /-- `open` fails, or gives a new descriptor. -/
  open_fresh : ∀ state flags name, valid state →
    (host.openFile flags name state.world).1 = -1 ∨
      (2 ≤ (host.openFile flags name state.world).1 ∧
        (host.openFile flags name state.world).1 ∉ state.opened)
  open_writable : ∀ state name, valid state →
    0 ≤ (hostOpen host .readWrite name state).1 →
    writable (hostOpen host .readWrite name state).2
      (hostOpen host .readWrite name state).1
  /-- Positions that are not negative can be sought on what is open, and no
  others. -/
  lseek_iff : ∀ state fd offset, valid state → fd ∈ state.opened →
    (0 ≤ (host.lseek fd offset 0 state.world).1 ↔ 0 ≤ offset)
  lseek_end : ∀ state fd, valid state → fd ∈ state.opened →
    0 ≤ (host.lseek fd 0 2 state.world).1
  /-- A write transfers everything. -/
  write_all : ∀ state fd bytes, valid state → fd ∈ state.opened →
    writable state fd →
    (host.write fd bytes state.world).1 = bytes.length
  /-- What is open can be closed, and -1 cannot. -/
  close_open : ∀ state fd, valid state → fd ∈ state.opened →
    0 ≤ (host.close fd state.world).1
  close_failed : ∀ state, valid state → (host.close (-1) state.world).1 < 0
  open_keeps : ∀ state flags name, valid state →
    valid (hostOpen host flags name state).2 ∧
      ∀ fd, writable state fd → writable (hostOpen host flags name state).2 fd
  close_keeps : ∀ state fd, valid state → fd ∈ state.opened →
    valid ⟨(host.close fd state.world).2, state.opened.filter (· ≠ fd)⟩ ∧
      ∀ other, other ≠ fd → writable state other →
        writable ⟨(host.close fd state.world).2,
          state.opened.filter (· ≠ fd)⟩ other
  pass_keeps : ∀ state world, valid state → host.Pass state.world world →
    valid { state with world := world } ∧
      ∀ fd, writable state fd → writable { state with world := world } fd

namespace Contract

variable {host : Host World} (contract : Contract host)

theorem passes_keep
    {state state' : HostState World} (passes : host.Passes state state')
    (valid : contract.valid state) :
    contract.valid state' ∧
      ∀ fd, contract.writable state fd → contract.writable state' fd := by
  obtain ⟨world, opened⟩ := state
  obtain ⟨world', opened'⟩ := state'
  obtain ⟨sameOpened, steps⟩ := passes
  dsimp only at sameOpened steps
  subst sameOpened
  induction steps with
  | refl =>
    exact ⟨valid, fun _ isWritable => isWritable⟩
  | tail _ pass ih =>
    obtain ⟨validBefore, writableBefore⟩ := ih
    obtain ⟨validAfter, writableAfter⟩ :=
      contract.pass_keeps _ _ validBefore pass
    exact ⟨validAfter,
      fun fd isWritable => writableAfter fd (writableBefore fd isWritable)⟩

/-- The table is sound, the host keeps its side, and every slot open for
writing has a descriptor that is. -/
structure Good (fileSystem : FileSystem World) : Prop where
  sound : fileSystem.Sound
  valid : contract.valid fileSystem.host
  writable : ∀ slot ∈ fileSystem.slots, slot.openMode = .readWrite →
    2 ≤ slot.id → contract.writable fileSystem.host slot.id

variable {contract} {fileSystem next : FileSystem World}

namespace Good

theorem opensFresh (good : contract.Good fileSystem) :
    fileSystem.OpensFresh host :=
  fun flags name =>
    contract.open_fresh fileSystem.host flags (cString name) good.valid

theorem of_passes
    (good : contract.Good fileSystem) (sound : next.Sound)
    (passes : host.Passes fileSystem.host next.host)
    (same : ∀ slot ∈ next.slots, ∃ old ∈ fileSystem.slots,
      old.id = slot.id ∧ old.openMode = slot.openMode) :
    contract.Good next := by
  obtain ⟨valid, writable⟩ := contract.passes_keep passes good.valid
  refine ⟨sound, valid, ?_⟩
  intro slot member mode large
  obtain ⟨old, oldMember, sameId, sameMode⟩ := same slot member
  rw [← sameId] at large ⊢
  exact writable _ (good.writable old oldMember (sameMode.trans mode) large)

theorem access
    (good : contract.Good fileSystem) (sound : next.Sound) {d : Int}
    {change : Entry → Entry}
    (effect : Accesses host fileSystem d change next) :
    contract.Good next := by
  cases effect with
  | elsewhere _ passes =>
    exact good.of_passes sound passes
      (fun slot member => ⟨slot, member, rfl, rfl⟩)
  | moved _ _ _ passes =>
    apply good.of_passes sound passes
    intro slot member
    obtain ⟨old, oldMember, rfl⟩ := List.mem_map.mp member
    refine ⟨old, oldMember, ?_⟩
    split_ifs <;> exact ⟨rfl, rfl⟩

theorem host_opened
    (good : contract.Good fileSystem) (flags : OpenFlags) (name : List Byte)
    (sound : FileSystem.Sound
      ⟨fileSystem.slots, (hostOpen host flags name fileSystem.host).2⟩) :
    contract.Good
      ⟨fileSystem.slots, (hostOpen host flags name fileSystem.host).2⟩ := by
  obtain ⟨valid, writable⟩ :=
    contract.open_keeps fileSystem.host flags name good.valid
  exact ⟨sound, valid, fun slot member mode large =>
    writable _ (good.writable slot member mode large)⟩

theorem install
    (good : contract.Good fileSystem) {before after : List Slot}
    (split : fileSystem.slots = before ++ Slot.empty :: after)
    (mode : Mode) (name recorded : List Byte) :
    contract.Good
      ⟨before ++
        Slot.holding (fileSystem.answer host mode.flags name) 0 mode
          recorded :: after,
        (hostOpen host mode.flags name fileSystem.host).2⟩ := by
  obtain ⟨valid, writable⟩ :=
    contract.open_keeps fileSystem.host mode.flags name good.valid
  refine ⟨good.sound.install host (good.opensFresh _ name) split mode recorded,
    valid, ?_⟩
  intro slot member isReadWrite large
  have old : slot ∈ before ∨ slot ∈ after →
      contract.writable (hostOpen host mode.flags name fileSystem.host).2
        slot.id := by
    intro elsewhere
    apply writable
    apply good.writable slot _ isReadWrite large
    rw [split]
    rcases elsewhere with inBefore | inAfter
    · simp [inBefore]
    · simp [inAfter]
  rcases List.mem_append.mp member with inBefore | member
  · exact old (Or.inl inBefore)
  · rcases List.mem_cons.mp member with rfl | inAfter
    · change mode = .readWrite at isReadWrite
      subst isReadWrite
      change 2 ≤ fileSystem.answer host .readWrite name at large
      exact contract.open_writable fileSystem.host name good.valid
        (show 0 ≤ fileSystem.answer host .readWrite name by omega)
    · exact old (Or.inr inAfter)

theorem hostClose_eq
    (good : contract.Good fileSystem) {d : Int}
    (isOpen : d ∈ fileSystem.host.opened) :
    hostClose host d fileSystem.host =
      .ok ⟨(host.close d fileSystem.host.world).2,
        fileSystem.host.opened.filter (· ≠ d)⟩ := by
  unfold hostClose
  exact if_pos (contract.close_open fileSystem.host d good.valid isOpen)

theorem held_opened
    (good : contract.Good fileSystem) {d offset : Int} {mode : Mode}
    {name : List Byte} {before after : List Slot} (large : 2 ≤ d)
    (held : HeldAt fileSystem.slots d offset mode name before after) :
    d ∈ fileSystem.host.opened := by
  apply good.sound.opened
  rw [held.split, descriptors_split, descriptor_holding (by omega)]
  simp

theorem release
    (good : contract.Good fileSystem) {d offset : Int} {mode : Mode}
    {name : List Byte} {before after : List Slot} (large : 2 ≤ d)
    (held : HeldAt fileSystem.slots d offset mode name before after)
    {state : HostState World}
    (closed : hostClose host d fileSystem.host = .ok state) :
    contract.Good ⟨before ++ Slot.empty :: after, state⟩ := by
  have isOpen := good.held_opened large held
  obtain ⟨valid, writable⟩ :=
    contract.close_keeps fileSystem.host d good.valid isOpen
  have sound := good.sound.release large held (hostClose_opened host closed)
  rw [good.hostClose_eq isOpen] at closed
  cases closed
  refine ⟨sound, valid, ?_⟩
  intro slot member isReadWrite slotLarge
  have old : slot ∈ before ++ after := by
    rcases List.mem_append.mp member with inBefore | member
    · simp [inBefore]
    · rcases List.mem_cons.mp member with rfl | inAfter
      · exact absurd slotLarge (by decide)
      · simp [inAfter]
  have different : slot.id ≠ d := by
    rcases List.mem_append.mp old with inBefore | inAfter
    · exact held.earlier slot inBefore
    · exact held.later slot inAfter
  apply writable _ different
  apply good.writable slot _ isReadWrite slotLarge
  rw [held.split]
  rcases List.mem_append.mp old with inBefore | inAfter
  · simp [inBefore]
  · simp [inAfter]

/-- Every call that returns keeps the host and the table together. -/
theorem step
    (good : contract.Good fileSystem) {call : Call} {result : Int}
    (returned : perform host call fileSystem = .ok (result, next)) :
    contract.Good next := by
  have refines : Refines fileSystem (lookup fileSystem.slots) :=
    ⟨good.sound, fun _ _ => rfl⟩
  have taken : (system host).step fileSystem (call, result) next :=
    ⟨good.opensFresh, returned⟩
  have nextSound : next.Sound := (refines.step taken).sound
  cases call with
  | create name =>
    rcases good.sound.create_cases host (good.opensFresh _ name) with
      ⟨_, refused⟩ | ⟨_, _, aborted⟩ | ⟨_, _, created⟩
    · cases refused.symm.trans returned
      exact good
    · cases aborted.symm.trans returned
    · cases created.symm.trans returned
      exact good.host_opened _ name nextSound
  | openFile name type =>
    change sysOpen host name type fileSystem = _ at returned
    rw [sysOpen_eq] at returned
    cases asked : modeOf type with
    | none =>
      rw [asked] at returned
      cases returned
      exact good
    | some mode =>
      rw [asked] at returned
      rcases good.sound.openMode_cases host
          (good.opensFresh mode.flags name) with
        ⟨_, early⟩ | ⟨_, _, atEnd⟩ | ⟨_, _, before, after, split, entered⟩
      · cases early.symm.trans returned
        exact good
      · cases atEnd.symm.trans returned
        exact good.host_opened _ name nextSound
      · cases entered.symm.trans returned
        exact good.install split mode name _
  | read buffer size d =>
    obtain ⟨bytes, read⟩ := sysRead_of_perform returned
    exact good.access nextSound (good.sound.read_accesses host read)
  | write buffer size d =>
    exact good.access nextSound (good.sound.write_accesses host returned)
  | seek pos d =>
    exact good.access nextSound (good.sound.seek_accesses host returned)
  | close d =>
    rcases good.sound.sysClose_cases host returned with
      ⟨_, rfl, _⟩ |
        ⟨large, _, offset, mode, name, before, after, state, held, closed,
          rfl⟩
    · exact good
    · exact good.release large held closed
  | remove name =>
    obtain ⟨sameSlots, passes⟩ := frame_of_perform_remove returned
    apply good.of_passes nextSound passes
    intro slot member
    exact ⟨slot, by rw [← sameSlots]; exact member, rfl, rfl⟩

end Good

end Contract

end Nachos.Stub
