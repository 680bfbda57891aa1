import Nachos.Stub.Descriptors
import Nachos.Stub.HostFile
import Nachos.Userprog.Exception

/-!
# File data through the system calls
-/

namespace Nachos.Userprog

open Foundation Machine

variable {World : Type}

def State.enter (state : State World) (code first second third : Word) :
    State World :=
  { state with machine :=
      (((state.machine.set (gpr r2) code).set (gpr r4) first).set (gpr r5)
        second).set (gpr r6) third }

/-- A system call: what it leaves in register 2, and the state after it. -/
def syscall (platform : Platform World) (code first second third : Word)
    (state : State World) : Except Stop (Int × State World) := do
  let next ← exceptionHandler platform .syscallException
    (state.enter code first second third)
  return (next.argument r2, next)

def roundTrip (platform : Platform World) (id position count : Word)
    (source target : Word) (state : State World) :
    Except Stop (Int × Int × State World) := do
  let (_, state) ← syscall platform 9 position id 0 state
  let (numWritten, state) ← syscall platform 8 source count id state
  let (_, state) ← syscall platform 9 position id 0 state
  let (numRead, state) ← syscall platform 7 target count id state
  return (numWritten, numRead, state)

/-! ## Arguments and results -/

section Registers

variable (state : State World) (code first second third : Word)

theorem enter_r2 :
    (state.enter code first second third).argument r2 = code.toInt := by
  unfold State.enter State.argument operand
  rw [set_of_ne _ (gpr_injective.ne (by decide)),
    set_of_ne _ (gpr_injective.ne (by decide)),
    set_of_ne _ (gpr_injective.ne (by decide)), set_self]

theorem enter_r4 :
    (state.enter code first second third).machine.operand r4 = first := by
  unfold State.enter operand
  rw [set_of_ne _ (gpr_injective.ne (by decide)),
    set_of_ne _ (gpr_injective.ne (by decide)), set_self]

theorem enter_r5 :
    (state.enter code first second third).machine.operand r5 = second := by
  unfold State.enter operand
  rw [set_of_ne _ (gpr_injective.ne (by decide)), set_self]

theorem enter_r6 :
    (state.enter code first second third).machine.operand r6 = third :=
  set_self ..

end Registers

theorem answer_r2
    (state : State World) {result : Int} (above : -2 ^ 31 ≤ result)
    (below : result < 2 ^ 31) : (state.answer result).argument r2 = result := by
  unfold State.answer State.argument operand increasePC
  rw [set_of_ne _ (gpr_ne _ (by decide)), set_of_ne _ (gpr_ne _ (by decide)),
    set_of_ne _ (gpr_ne _ (by decide)), set_self, BitVec.toInt_ofInt]
  exact Int.bmod_eq_of_le (by omega) (by omega)

theorem ofNat_toInt {number : Nat} (small : number < 2 ^ 31) :
    (BitVec.ofNat 32 number).toInt = number := by
  rw [BitVec.toInt_ofNat']
  exact Int.bmod_eq_of_le (by omega) (by omega)

structure SameMemory (machine next : Machine) : Prop where
  memory : next.mainMemory = machine.mainMemory
  settings : next.translation.settings = machine.translation.settings
  ready : machine.translation.Ready → next.translation.Ready

theorem SameMemory.trans
    {first second third : Machine} (earlier : SameMemory first second)
    (later : SameMemory second third) : SameMemory first third :=
  ⟨later.memory.trans earlier.memory, later.settings.trans earlier.settings,
    later.ready ∘ earlier.ready⟩

theorem SameMemory.holds
    {machine next : Machine} (same : SameMemory machine next) {addr : Word}
    {bytes : List Byte} (holds : machine.Holds addr bytes) :
    next.Holds addr bytes :=
  Machine.holds_congr same.memory same.settings holds

theorem SameMemory.placedAt
    {machine next : Machine} (same : SameMemory machine next) {addr : Word}
    {places : List Nat} (placed : PlacedAt machine addr places) :
    PlacedAt next addr places :=
  placedAt_congr same.settings placed

section Calls

variable {platform : Platform World} {state : State World}
variable {code first second third : Word}

theorem exceptionHandler_enter
    {syscallCode : SyscallCode}
    (isCode : SyscallCode.ofInt code.toInt = some syscallCode) :
    exceptionHandler platform .syscallException
        (state.enter code first second third) =
      solve platform (state.enter code first second third) syscallCode := by
  unfold exceptionHandler
  dsimp only
  rw [enter_r2, isCode]

/-- A handler that answers leaves its result in register 2, and memory as it
was before `increasePC`. -/
theorem syscall_of_answer
    {syscallCode : SyscallCode} (next : State World) {result : Int}
    (isCode : SyscallCode.ofInt code.toInt = some syscallCode)
    (above : -2 ^ 31 ≤ result) (below : result < 2 ^ 31)
    (solved : solve platform (state.enter code first second third)
      syscallCode = .ok (next.answer result)) :
    ∃ last, syscall platform code first second third state =
        .ok (result, last) ∧
      last.fileSystem = next.fileSystem ∧
      SameMemory next.machine last.machine := by
  refine ⟨next.answer result, ?_, rfl, rfl, rfl, id⟩
  unfold syscall
  rw [exceptionHandler_enter isCode, solved]
  exact congrArg (fun value => Except.ok (value, next.answer result))
    (answer_r2 next above below)

end Calls

section Files

variable {platform : Platform World} {state : State World} {id : Word}
variable {offset : Int} {mode : Stub.Mode} {name : List Byte}
variable {before after : List Stub.Slot}

theorem syscall_seek
    (held : Stub.HeldAt state.fileSystem.slots id.toInt offset mode name before
      after)
    (large : 2 ≤ id.toInt) {position : Nat} (small : position < 2 ^ 31)
    (third : Word) :
    ∃ last, syscall platform 9 (BitVec.ofNat 32 position) id third state =
        .ok (↑position, last) ∧
      last.fileSystem = ⟨Stub.moveTo id.toInt position state.fileSystem.slots,
        state.fileSystem.host⟩ ∧
      SameMemory state.machine last.machine := by
  have sought : Stub.sysSeek platform.toHost position id.toInt
      state.fileSystem =
        .ok (position, ⟨Stub.moveTo id.toInt position state.fileSystem.slots,
          state.fileSystem.host⟩) := by
    rw [held.sysSeek _ large, if_neg (by omega), if_neg (by omega)]
    rfl
  have solved : solve platform
      (state.enter 9 (BitVec.ofNat 32 position) id third) .seek =
        .ok (State.answer
          ⟨(state.enter 9 (BitVec.ofNat 32 position) id third).machine,
            ⟨Stub.moveTo id.toInt position state.fileSystem.slots,
              state.fileSystem.host⟩⟩ position) := by
    unfold solve solveSeek withResult State.argument
    rw [enter_r4, enter_r5, ofNat_toInt small]
    change (liftAbort (Stub.sysSeek platform.toHost position id.toInt
      state.fileSystem) >>= _) = _
    rw [sought]
    rfl
  obtain ⟨last, called, files, same⟩ :=
    syscall_of_answer _ rfl (by omega) (by omega) solved
  exact ⟨last, called, files, same.memory, same.settings, same.ready⟩

theorem solveWrite_holds
    (id : Word) (ready : state.machine.translation.Ready) {source : Word}
    {bytes : List Byte} (holds : state.machine.Holds source bytes)
    (allocated : platform.newChars (bytes.length + 1) state.world = .allocated)
    (small : bytes.length + 1 < 2 ^ 31) :
    ∃ machine, SameMemory state.machine machine ∧
      solve platform (state.enter 8 source (BitVec.ofNat 32 bytes.length) id)
          .write = do
        let (result, fileSystem) ← liftAbort (Stub.sysWrite platform.toHost
          (cString bytes ++
            List.replicate (bytes.length + 1 - (cString bytes).length) 0)
          bytes.length id.toInt state.fileSystem)
        return State.answer ⟨machine, fileSystem⟩ result := by
  let entry := state.enter 8 source (BitVec.ofNat 32 bytes.length) id
  have entryHolds : entry.machine.Holds source bytes :=
    @Machine.holds_congr state.machine entry.machine rfl rfl _ _ holds
  obtain ⟨machine, copied, looked⟩ :=
    @user2System_holds _ platform state.world entry.machine _ _ _ ready
      entryHolds (Or.inl rfl) allocated small
  refine ⟨machine, ⟨looked.memory, looked.settings, fun _ => looked.ready⟩, ?_⟩
  unfold solve solveWrite withString State.argument
  rw [enter_r4, enter_r5, enter_r6, ofNat_toInt (by omega)]
  change (user2System platform state.world entry.machine source bytes.length
    >>= _) = _
  rw [copied]
  rfl

/-- The `strlen` check of `FileSystem::Write` passes just if the bytes are a
string. -/
theorem hasLength_iff {bytes : List Byte} (small : bytes.length < 2 ^ 31) :
    Stub.FileSystem.hasLength
        (cString bytes ++
          List.replicate (bytes.length + 1 - (cString bytes).length) 0)
        bytes.length ↔
      0 ∉ bytes := by
  unfold Stub.FileSystem.hasLength strlen
  rw [cString_padded, ← cString_eq_self_iff]
  constructor
  · intro sameLength
    have shorter : cString bytes <+: bytes := List.takeWhile_prefix _
    exact shorter.eq_of_length (by omega)
  · intro whole
    rw [whole]
    omega

theorem syscall_write_refused
    (held : Stub.HeldAt state.fileSystem.slots id.toInt offset mode name before
      after)
    (large : 2 ≤ id.toInt) (ready : state.machine.translation.Ready)
    {source : Word} {bytes : List Byte}
    (holds : state.machine.Holds source bytes)
    (allocated : platform.newChars (bytes.length + 1) state.world = .allocated)
    (small : bytes.length + 1 < 2 ^ 31) (isNul : 0 ∈ bytes) :
    ∃ last, syscall platform 8 source (BitVec.ofNat 32 bytes.length) id state =
      .ok (-1, last) := by
  obtain ⟨machine, -, solved⟩ := solveWrite_holds id ready holds allocated small
  rw [held.sysWrite _ large, if_neg fun both =>
    (hasLength_iff (by omega)).mp both.2 isNul] at solved
  obtain ⟨last, called, -⟩ :=
    syscall_of_answer ⟨machine, state.fileSystem⟩ rfl (by decide) (by decide)
      solved
  exact ⟨last, called⟩

/-- `SC_Write` of bytes without a NUL stores all of them. -/
theorem syscall_write
    (file : Stub.HostFile platform.toHost id.toInt)
    (valid : file.valid state.world) {position : Nat}
    (held : Stub.HeldAt state.fileSystem.slots id.toInt position .readWrite name
      before after)
    (large : 2 ≤ id.toInt) (ready : state.machine.translation.Ready)
    {source : Word} {bytes : List Byte}
    (holds : state.machine.Holds source bytes)
    (allocated : platform.newChars (bytes.length + 1) state.world = .allocated)
    (small : bytes.length + 1 < 2 ^ 31) (noNul : 0 ∉ bytes)
    (fits : position + bytes.length < 2 ^ 31) :
    ∃ last world,
      syscall platform 8 source (BitVec.ofNat 32 bytes.length) id state =
        .ok (↑bytes.length, last) ∧
      SameMemory state.machine last.machine ∧
      last.fileSystem =
        ⟨Stub.moveTo id.toInt ↑(position + bytes.length)
          state.fileSystem.slots,
          { state.fileSystem.host with world := world }⟩ ∧
      file.valid world ∧
      file.contents world =
        Stub.written (file.contents state.world) position bytes := by
  obtain ⟨machine, same, solved⟩ :=
    solveWrite_holds id ready holds allocated small
  rw [held.sysWrite _ large,
    if_pos ⟨rfl, (hasLength_iff (by omega)).mpr noNul⟩,
    cString_eq_self_iff.mpr noNul] at solved
  obtain ⟨world, wrote, nextValid, stored⟩ :=
    file.openFile_write valid
      (bytes ++ List.replicate (bytes.length + 1 - bytes.length) 0)
      (by simp) fits
  rw [wrote] at solved
  rw [List.take_left] at stored
  obtain ⟨last, called, files, sameLast⟩ :=
    syscall_of_answer
      ⟨machine, ⟨Stub.moveTo id.toInt ↑(position + bytes.length)
          state.fileSystem.slots,
          { state.fileSystem.host with world := world }⟩⟩
      rfl (by omega) (by omega) solved
  exact ⟨last, world, called, same.trans sameLast, files, nextValid, stored⟩

/-- `SC_Read` copies the kernel buffer out, up to its first NUL, whatever
`SysRead` returned. -/
theorem syscall_read_copies
    (ready : state.machine.translation.Ready) {target : Word}
    {places : List Nat} (placed : PlacedAt state.machine target places)
    (distinct : places.Nodup) {buffer : List Byte} {count : Nat}
    (bufferLength : buffer.length = count)
    (placesLength : places.length = count)
    (allocated : platform.newChars count state.world = .allocated)
    {result : Int} (above : -2 ^ 31 ≤ result) (below : result < 2 ^ 31)
    {fileSystem : Stub.FileSystem World}
    (wasRead : Stub.sysRead platform.toHost
      ((List.range count).map (platform.garbage state.world)) count id.toInt
        state.fileSystem = .ok (result, buffer, fileSystem)) :
    ∃ last, syscall platform 7 target (BitVec.ofNat 32 count) id state =
        .ok (result, last) ∧
      (∀ address, address ∉ places.take (copied buffer).length →
        last.machine.mainMemory address = state.machine.mainMemory address) ∧
      last.machine.translation.settings = state.machine.translation.settings ∧
      last.machine.Holds target (copied buffer) := by
  let entry := state.enter 7 target (BitVec.ofNat 32 count) id
  have small : count < 2 ^ 31 := by
    have inMemory := placed.length_le distinct
    unfold memorySize numPhysPages pageSize at inMemory
    omega
  have entryPlaced : PlacedAt entry.machine target places :=
    @placedAt_congr state.machine entry.machine rfl _ _ placed
  have entryReady : entry.machine.translation.Ready := ready
  obtain ⟨machine, copiedOut, stored, holds⟩ :=
    copyOut_holds entryReady entryPlaced distinct
      (bufferLength.trans placesLength.symm)
  rw [bufferLength] at copiedOut
  have isNew : platform.newArray count state.world = .ok true := by
    rw [platform.newArray_natCast, allocated]
  have solved : solve platform entry .read =
      .ok (State.answer ⟨machine, fileSystem⟩ result) := by
    unfold solve solveRead State.argument
    rw [enter_r4, enter_r5, enter_r6, ofNat_toInt small]
    change (platform.newArray count state.world >>= _) = _
    rw [isNew]
    change (liftAbort (Stub.sysRead platform.toHost
      ((List.range (count : Int).toNat).map
        (platform.garbage state.world)) count id.toInt
          state.fileSystem) >>= _) = _
    rw [Int.toNat_natCast, wasRead]
    change (system2User entry.machine buffer target count >>= _) = _
    rw [system2User_natCast, copiedOut]
    rfl
  obtain ⟨last, called, -, same⟩ := syscall_of_answer _ rfl above below solved
  refine ⟨last, called, ?_, same.settings.trans stored.settings,
    same.holds holds⟩
  intro address outside
  rw [same.memory]
  exact stored.memory address outside

theorem syscall_read
    (file : Stub.HostFile platform.toHost id.toInt)
    (valid : file.valid state.world) {position : Nat}
    (held : Stub.HeldAt state.fileSystem.slots id.toInt position mode name before
      after)
    (large : 2 ≤ id.toInt) (ready : state.machine.translation.Ready)
    {target : Word} {bytes : List Byte} {places : List Nat}
    (placed : PlacedAt state.machine target places) (distinct : places.Nodup)
    (sameLength : bytes.length = places.length)
    (allocated : platform.newChars bytes.length state.world = .allocated)
    (fits : position + bytes.length < 2 ^ 31)
    (contained : slice (file.contents state.world) position bytes.length =
      bytes) :
    ∃ last, syscall platform 7 target (BitVec.ofNat 32 bytes.length) id state =
        .ok (↑bytes.length, last) ∧
      last.machine.Holds target (copied bytes) := by
  let garbage := (List.range bytes.length).map (platform.garbage state.world)
  obtain ⟨world, wasRead, -, -⟩ :=
    file.openFile_read valid garbage fits contained
  have garbageLength : bytes.length = garbage.length := by
    rw [List.length_map, List.length_range]
  rw [overlay_full garbageLength] at wasRead
  have sysRead : Stub.sysRead platform.toHost garbage bytes.length id.toInt
      state.fileSystem =
        .ok (bytes.length, bytes,
          ⟨Stub.moveTo id.toInt ↑(position + bytes.length)
            state.fileSystem.slots,
            { state.fileSystem.host with world := world }⟩) := by
    rw [held.sysRead _ large, wasRead]
    rfl
  obtain ⟨last, called, -, -, holds⟩ :=
    syscall_read_copies ready placed distinct rfl sameLength.symm allocated
      (by omega) (by omega) sysRead
  exact ⟨last, called, holds⟩

end Files

theorem heldAt_of_lookup
    {fileSystem : Stub.FileSystem World} (sound : fileSystem.Sound)
    {d offset : Int} {mode : Stub.Mode} (large : 2 ≤ d)
    (opened : Stub.lookup fileSystem.slots d = some ⟨mode, offset⟩) :
    ∃ name before after,
      Stub.HeldAt fileSystem.slots d offset mode name before after := by
  rcases sound.heldAt_cases large with
    absent | ⟨_, _, name, before, after, held⟩
  · rw [Stub.lookup_of_absent absent] at opened
    cases opened
  · rw [held.lookup] at opened
    cases opened
    exact ⟨name, before, after, held⟩

/-- Bytes that are written and read back at the same position arrive, with both
calls returning their number, exactly if there is no NUL among them. -/
theorem round_trip_iff
    {platform : Platform World} {state : State World} {id : Word}
    {offset : Int} (sound : state.fileSystem.Sound) (large : 2 ≤ id.toInt)
    (opened : Stub.lookup state.fileSystem.slots id.toInt =
      some ⟨.readWrite, offset⟩)
    (file : Stub.HostFile platform.toHost id.toInt)
    (valid : file.valid state.world) {bytes : List Byte}
    (allocates : ∀ size world, size ≤ bytes.length + 1 →
      platform.newChars size world = .allocated)
    (ready : state.machine.translation.Ready) {source target : Word}
    (holds : state.machine.Holds source bytes) {places : List Nat}
    (placed : PlacedAt state.machine target places) (distinct : places.Nodup)
    (sameLength : bytes.length = places.length) {position : Nat}
    (fits : position + bytes.length < 2 ^ 31) :
    (∃ last, roundTrip platform id (BitVec.ofNat 32 position)
          (BitVec.ofNat 32 bytes.length) source target state =
        .ok (↑bytes.length, ↑bytes.length, last) ∧
      last.machine.Holds target bytes) ↔ 0 ∉ bytes := by
  have small : bytes.length + 1 < 2 ^ 31 := by
    have inMemory := placed.length_le distinct
    unfold memorySize numPhysPages pageSize at inMemory
    omega
  have positionSmall : position < 2 ^ 31 := by omega
  obtain ⟨name, before, after, held⟩ := heldAt_of_lookup sound large opened
  obtain ⟨first, sought, firstFiles, firstSame⟩ :=
    @syscall_seek _ platform _ _ _ _ _ _ _ held large _ positionSmall 0
  have firstHeld : Stub.HeldAt first.fileSystem.slots id.toInt position
      .readWrite name before after := by
    rw [firstFiles]
    exact held.moved position
  have firstReady := firstSame.ready ready
  have firstHolds := firstSame.holds holds
  constructor
  · rintro ⟨last, returned, -⟩ isNul
    obtain ⟨second, refused⟩ := syscall_write_refused firstHeld large firstReady
      firstHolds (allocates _ _ (Nat.le_refl _)) small isNul
    obtain ⟨_, seeks, returned⟩ := exists_of_bind_eq_ok returned
    cases sought.symm.trans seeks
    obtain ⟨_, writes, returned⟩ := exists_of_bind_eq_ok returned
    cases refused.symm.trans writes
    obtain ⟨_, -, returned⟩ := exists_of_bind_eq_ok returned
    obtain ⟨_, -, returned⟩ := exists_of_bind_eq_ok returned
    cases returned
  · intro noNul
    have firstValid : file.valid first.world := by
      unfold State.world
      rw [firstFiles]
      exact valid
    obtain ⟨second, world, wrote, secondSame, secondFiles, secondValid, stored⟩ :=
      syscall_write file firstValid firstHeld large firstReady firstHolds
        (allocates _ _ (Nat.le_refl _)) small noNul fits
    have secondHeld : Stub.HeldAt second.fileSystem.slots id.toInt
        ↑(position + bytes.length) .readWrite name before after := by
      rw [secondFiles]
      exact firstHeld.moved _
    obtain ⟨third, soughtAgain, thirdFiles, thirdSame⟩ :=
      @syscall_seek _ platform _ _ _ _ _ _ _ secondHeld large _ positionSmall 0
    have thirdHeld : Stub.HeldAt third.fileSystem.slots id.toInt position
        .readWrite name before after := by
      rw [thirdFiles]
      exact secondHeld.moved position
    have thirdWorld : third.world = world := by
      unfold State.world
      rw [thirdFiles, secondFiles]
    have allSame := (firstSame.trans secondSame).trans thirdSame
    obtain ⟨last, wasRead, arrived⟩ :=
      syscall_read file (thirdWorld ▸ secondValid) thirdHeld large
        (allSame.ready ready) (allSame.placedAt placed) distinct sameLength
        (allocates _ _ (Nat.le_succ _)) fits
        (by rw [thirdWorld, stored, Stub.slice_written])
    rw [copied_of_no_nul noNul] at arrived
    refine ⟨last, ?_, arrived⟩
    simp only [roundTrip, sought, wrote, soughtAgain, wasRead, bind,
      Except.bind, pure, Except.pure]

def filePlatform : Platform Stub.OneFile where
  toHost := Stub.oneFileHost
  malloc _ _ := true
  newChars _ _ := .allocated
  garbage _ _ := 0
  rand world := (0, world)

def openedState (memory : Nat → Byte) : State Stub.OneFile where
  machine := onePage memory false
  fileSystem :=
    ⟨Stub.Slot.holding 2 0 .readWrite [97] :: List.replicate 17 .empty,
      ⟨⟨[], 0⟩, [2]⟩⟩

theorem openedState_sound (memory : Nat → Byte) :
    (openedState memory).fileSystem.Sound where
  slots := by
    intro slot member
    rcases List.mem_cons.mp member with rfl | isEmpty
    · exact Stub.Slot.sound_holding (Or.inr (by decide)) 0 .readWrite [97]
    · rw [List.eq_of_mem_replicate isEmpty]
      exact Stub.Slot.sound_empty
  nodup := List.nodup_singleton (2 : Int)
  opened _ member := member

/-- `"ab"` is written behind the end of the file and read back. -/
theorem round_trip_of_text :
    ∃ last, roundTrip filePlatform 2 3 2 0 64
        (openedState fun address => if address = 0 then 97 else 98) =
          .ok (2, 2, last) ∧
      last.machine.Holds 64 [97, 98] := by
  have holds : (openedState fun address =>
      if address = 0 then 97 else 98).machine.Holds 0 [97, 98] :=
    ⟨⟨0, rfl, rfl⟩, ⟨1, rfl, rfl⟩, trivial⟩
  have placed : PlacedAt (openedState fun address =>
      if address = 0 then 97 else 98).machine 64 [64, 65] :=
    ⟨rfl, rfl, trivial⟩
  exact (round_trip_iff (openedState_sound _) (by decide) rfl (Stub.oneFile 2)
    trivial (fun _ _ _ => rfl) rfl holds placed (by decide) rfl
    (by decide : 3 + 2 < 2 ^ 31)).mpr (by decide)

/-- One NUL is refused by `SC_Write`, and nothing is there to be read. -/
theorem round_trip_of_nul :
    (openedState fun _ => 0).machine.Holds 0 [0] ∧
      ∃ last, roundTrip filePlatform 2 0 1 0 64 (openedState fun _ => 0) =
        .ok (-1, 0, last) :=
  ⟨⟨⟨0, rfl, rfl⟩, trivial⟩, _, rfl⟩

end Nachos.Userprog
