import Nachos.Userprog.RoundTrip

/-!
# What `SC_Read` delivers
-/

namespace Nachos.Userprog

open Foundation Machine

variable {World : Type}

/-- What the host hands over to `SysRead`: its result and the bytes it stored in
the buffer.  Nothing is stored if no slot holds the descriptor. -/
def fetch (host : Stub.Host World) (fileSystem : Stub.FileSystem World)
    (d count : Int) : Except Stub.Abort (Int × List Byte) :=
  match Stub.lookup fileSystem.slots d with
  | none => .ok (-1, [])
  | some entry => do
    let state ← Stub.lseek host d entry.offset 0 fileSystem.host
    let (result, bytes, _) := host.read d count state.world
    return (result, bytes)

structure Delivers {host : Stub.Host World} {d : Int}
    (file : Stub.ReadableFile host d) (target : Word) (places : List Nat)
    (state last : State World) (result : Int) : Prop where
  bytes : ∀ entry, Stub.lookup state.fileSystem.slots d = some entry →
    0 ≤ result →
    last.machine.Holds target
      (slice (file.contents state.world) entry.offset.toNat result.toNat)
  frame : ∀ address, address ∉ places.take result.toNat →
    last.machine.mainMemory address = state.machine.mainMemory address

def State.withMemory (state : State World) (memory : Nat → Byte) :
    State World :=
  { state with machine := { state.machine with mainMemory := memory } }

def Platform.withGarbage (platform : Platform World)
    (garbage : World → Nat → Byte) : Platform World :=
  { platform with garbage := garbage }

/-- Whatever is in user memory and in the new buffer, a call of `SC_Read` that
returns has delivered what it says. -/
def AlwaysDelivers (platform : Platform World) (id : Word)
    (file : Stub.ReadableFile platform.toHost id.toInt) (target : Word)
    (places : List Nat) (state : State World) : Prop :=
  ∀ garbage memory result last,
    syscall (platform.withGarbage garbage) 7 target
        (BitVec.ofNat 32 places.length) id (state.withMemory memory) =
      .ok (result, last) →
    Delivers file target places (state.withMemory memory) last result

/-- The copy to the user stops behind these bytes and not before. -/
def Complete (count : Nat) (bytes : List Byte) : Prop :=
  0 ∉ bytes.dropLast ∧ (bytes.length = count ∨ bytes.getLast? = some 0)

/-! ## Copying up to a NUL -/

theorem copied_append_of_no_nul
    {bytes : List Byte} (noNul : 0 ∉ bytes) (rest : List Byte) :
    copied (bytes ++ rest) = bytes ++ copied rest := by
  induction bytes with
  | nil => rfl
  | cons byte bytes ih =>
    rw [List.mem_cons, not_or] at noNul
    rw [List.cons_append, copied, if_neg (Ne.symm noNul.1),
      ih noNul.2, List.cons_append]

theorem copied_cons_nul (rest : List Byte) : copied (0 :: rest) = [0] :=
  if_pos rfl

theorem eq_append_nul
    {bytes : List Byte} (nulLast : bytes.getLast? = some 0) :
    bytes = bytes.dropLast ++ [0] :=
  (List.dropLast_append_getLast? 0 nulLast).symm

theorem nul_last_or_none
    {bytes : List Byte} (noNul : 0 ∉ bytes.dropLast) :
    bytes.getLast? = some 0 ∨ 0 ∉ bytes := by
  rcases List.eq_nil_or_concat bytes with rfl | ⟨front, last, rfl⟩
  · exact Or.inr List.not_mem_nil
  · rw [List.concat_eq_append, List.dropLast_concat] at noNul
    rw [List.concat_eq_append, List.getLast?_concat, List.mem_append,
      List.mem_singleton]
    by_cases isNul : last = 0
    · exact Or.inl (congrArg some isNul)
    · exact Or.inr (not_or.mpr ⟨noNul, Ne.symm isNul⟩)

theorem Complete.copied_append
    {count : Nat} {bytes rest : List Byte} (complete : Complete count bytes)
    (filled : bytes.length + rest.length = count) :
    copied (bytes ++ rest) = bytes := by
  obtain ⟨noNul, ends⟩ := complete
  rcases nul_last_or_none noNul with nulLast | noNul
  · rw [eq_append_nul nulLast, List.append_assoc,
      copied_append_of_no_nul noNul, List.singleton_append, copied_cons_nul]
  · have nothing : rest = [] := by
      rcases ends with full | nulLast
      · exact List.eq_nil_of_length_eq_zero (by omega)
      · exact absurd (List.mem_of_getLast? nulLast) noNul
    rw [copied_append_of_no_nul noNul, nothing]
    exact List.append_nil bytes

theorem length_copied_lt
    {bytes : List Byte} (isNul : 0 ∈ bytes.dropLast) (rest : List Byte) :
    (copied (bytes ++ rest)).length < bytes.length := by
  obtain ⟨front, back, split, noNul⟩ := List.eq_append_cons_of_mem isNul
  have starts : front ++ 0 :: back <+: bytes := by
    rw [← split]
    exact List.dropLast_prefix bytes
  obtain ⟨others, rfl⟩ := starts
  have longer := congrArg List.length split
  rw [List.append_assoc, List.append_assoc, copied_append_of_no_nul noNul,
    List.cons_append, copied_cons_nul]
  simp only [List.length_append, List.length_cons, List.length_nil,
    List.length_dropLast] at longer ⊢
  omega

/-! ## The call -/

theorem memory_of_holds
    {machine : Machine} {addr : Word} {places : List Nat} {bytes : List Byte}
    (placed : PlacedAt machine addr places) (holds : machine.Holds addr bytes)
    {index place : Nat} {byte : Byte} (isPlace : places[index]? = some place)
    (isByte : bytes[index]? = some byte) :
    machine.mainMemory place = byte := by
  induction bytes generalizing addr places index with
  | nil => cases isByte
  | cons first bytes ih =>
    cases places with
    | nil => cases isPlace
    | cons firstPlace places =>
      obtain ⟨mapped, placedRest⟩ := placed
      obtain ⟨⟨physAddr, found, held⟩, holdsRest⟩ := holds
      cases index with
      | zero =>
        cases isPlace
        cases isByte
        have samePlace := (Translation.physical_read_of_write mapped).symm.trans
          found
        rw [Option.some.inj samePlace]
        exact held
      | succ index =>
        exact ih placedRest holdsRest isPlace isByte

theorem notMem_take_of_getElem
    {places : List Nat} (distinct : places.Nodup) {index place : Nat}
    (isPlace : places[index]? = some place) : place ∉ places.take index := by
  intro earlier
  obtain ⟨inside, atIndex⟩ := List.getElem?_eq_some_iff.mp isPlace
  obtain ⟨other, before, atOther⟩ := List.mem_take_iff_getElem.mp earlier
  have same := (List.Nodup.getElem_inj_iff distinct).mp
    (atOther.trans atIndex.symm)
  omega

section Call

variable {platform : Platform World} {state : State World} {id : Word}
variable {count : Nat}

/-- `SysRead` returns what the host handed over, in the first bytes of the
buffer. -/
theorem sysRead_fetch
    (host : Stub.Host World) {fileSystem : Stub.FileSystem World}
    (sound : fileSystem.Sound) {d : Int} (large : 2 ≤ d) (count : Int)
    (buffer : List Byte) :
    (Stub.sysRead host buffer count d fileSystem).map
        (fun reply => (reply.1, reply.2.1)) =
      (fetch host fileSystem d count).map
        (fun answer => (answer.1, overlay buffer answer.2 0)) := by
  unfold fetch
  rcases sound.heldAt_cases large with
    absent | ⟨offset, mode, name, before, after, held⟩
  · rw [Stub.sysRead_of_absent host large absent,
      Stub.lookup_of_absent absent]
    exact congrArg (fun bytes => Except.ok (-1, bytes))
      (overlay_nil buffer 0).symm
  · rw [held.sysRead host large, held.lookup]
    unfold Stub.OpenFile.read Stub.OpenFile.readAt
    dsimp only
    cases Stub.lseek host d offset 0 fileSystem.host with
    | error abort => rfl
    | ok sought => rfl

theorem fetch_cases
    (file : Stub.ReadableFile platform.toHost id.toInt)
    (valid : ∀ entry, Stub.lookup state.fileSystem.slots id.toInt = some entry →
      file.valid state.world)
    {result : Int} {bytes : List Byte}
    (fetched : fetch platform.toHost state.fileSystem id.toInt count =
      .ok (result, bytes)) :
    (result = -1 ∧ bytes = []) ∨
      (result = bytes.length ∧ bytes.length ≤ count ∧
        ∃ entry, Stub.lookup state.fileSystem.slots id.toInt = some entry ∧
          slice (file.contents state.world) entry.offset.toNat bytes.length =
            bytes) := by
  unfold fetch at fetched
  cases opened : Stub.lookup state.fileSystem.slots id.toInt with
  | none =>
    rw [opened] at fetched
    cases fetched
    exact Or.inl ⟨rfl, rfl⟩
  | some entry =>
    rw [opened] at fetched
    obtain ⟨sought, seeks, fetched⟩ := exists_of_bind_eq_ok fetched
    obtain ⟨soughtValid, sameContents, atOffset⟩ :=
      file.of_lseek (valid entry opened) seeks
    obtain ⟨answer, given, next, wasRead, handed⟩ := file.read count soughtValid
    rw [wasRead] at fetched
    cases fetched
    refine handed.imp_right fun ⟨sameLength, short, inFile⟩ =>
      ⟨sameLength, short, entry, rfl, ?_⟩
    rw [sameContents, atOffset] at inFile
    exact inFile

theorem fetch_bounds
    (file : Stub.ReadableFile platform.toHost id.toInt)
    (valid : ∀ entry, Stub.lookup state.fileSystem.slots id.toInt = some entry →
      file.valid state.world)
    {result : Int} {bytes : List Byte}
    (fetched : fetch platform.toHost state.fileSystem id.toInt count =
      .ok (result, bytes)) :
    bytes.length ≤ count ∧ -1 ≤ result ∧ result ≤ count ∧
      result.toNat = bytes.length := by
  rcases fetch_cases file valid fetched with
    ⟨rfl, rfl⟩ | ⟨sameLength, short, -⟩
  · exact ⟨Nat.zero_le _, le_refl _, by omega, rfl⟩
  · omega

/-- After `SC_Read` the user buffer holds what was handed over, and behind it
what the kernel buffer held before, up to the first NUL. -/
theorem syscall_read_fetch
    (sound : state.fileSystem.Sound) (large : 2 ≤ id.toInt)
    (ready : state.machine.translation.Ready) {target : Word}
    {places : List Nat} (placed : PlacedAt state.machine target places)
    (distinct : places.Nodup)
    (allocated :
      platform.newChars places.length state.world = .allocated)
    {result : Int} {bytes : List Byte}
    (fetched : fetch platform.toHost state.fileSystem id.toInt places.length =
      .ok (result, bytes))
    (short : bytes.length ≤ places.length) (above : -1 ≤ result)
    (below : result ≤ places.length) :
    ∃ last rest, syscall platform 7 target (BitVec.ofNat 32 places.length) id
        state = .ok (result, last) ∧
      rest = ((List.range places.length).map
        (platform.garbage state.world)).drop bytes.length ∧
      (∀ address, address ∉ places.take (copied (bytes ++ rest)).length →
        last.machine.mainMemory address = state.machine.mainMemory address) ∧
      PlacedAt last.machine target places ∧
      last.machine.Holds target (copied (bytes ++ rest)) := by
  let garbage := (List.range places.length).map (platform.garbage state.world)
  have garbageLength : garbage.length = places.length := by
    rw [List.length_map, List.length_range]
  have bufferEq : overlay garbage bytes 0 =
      bytes ++ garbage.drop bytes.length := by
    simp [overlay]
  have bufferLength : (overlay garbage bytes 0).length = places.length := by
    rw [length_overlay (by omega), garbageLength]
  have mapped := sysRead_fetch platform.toHost sound large places.length garbage
  rw [fetched] at mapped
  obtain ⟨⟨answer, buffer, fileSystem⟩, wasRead, same⟩ :=
    exists_of_map_eq_ok mapped
  cases same
  have inMemory := placed.length_le distinct
  unfold memorySize numPhysPages pageSize at inMemory
  obtain ⟨last, called, frame, settings, holds⟩ :=
    syscall_read_copies ready placed distinct bufferLength rfl allocated
      (by omega) (by omega) wasRead
  rw [bufferEq] at frame holds
  exact ⟨last, _, called, rfl, frame, placedAt_congr settings placed, holds⟩

theorem solveRead_of_syscall
    (small : count < 2 ^ 31) {target : Word} {result : Int}
    {last : State World}
    (returned : syscall platform 7 target (BitVec.ofNat 32 count) id state =
      .ok (result, last)) :
    ∃ allocated, platform.newArray count state.world = .ok allocated ∧
      if allocated then
        ∃ reply, Stub.sysRead platform.toHost
          ((List.range count).map (platform.garbage state.world)) count
            id.toInt state.fileSystem = .ok reply
      else
        result = -1 ∧ last.machine.mainMemory = state.machine.mainMemory := by
  have isCode : SyscallCode.ofInt (7 : Word).toInt = some .read := rfl
  obtain ⟨next, handled, returned⟩ := exists_of_bind_eq_ok returned
  rw [exceptionHandler_enter isCode] at handled
  unfold solve solveRead State.argument at handled
  rw [enter_r4, enter_r5, enter_r6, ofNat_toInt small] at handled
  obtain ⟨allocated, array, handled⟩ := exists_of_bind_eq_ok handled
  refine ⟨allocated, array, ?_⟩
  cases allocated with
  | true =>
    obtain ⟨reply, lifted, -⟩ := exists_of_bind_eq_ok handled
    rw [if_pos rfl]
    change liftAbort (Stub.sysRead platform.toHost
      ((List.range (count : Int).toNat).map (platform.garbage state.world))
      count id.toInt state.fileSystem) = _ at lifted
    rw [Int.toNat_natCast] at lifted
    cases outcome : Stub.sysRead platform.toHost
        ((List.range count).map (platform.garbage state.world)) count
          id.toInt state.fileSystem with
    | error abort =>
      rw [outcome] at lifted
      cases lifted
    | ok reply => exact ⟨reply, rfl⟩
  | false =>
    cases handled
    cases returned
    rw [if_neg Bool.false_ne_true]
    exact ⟨answer_r2 _ (by decide) (by decide), rfl⟩

end Call

/-! ## Exactly the bytes of the file -/

section Delivery

variable {platform : Platform World} {state : State World} {id : Word}
variable {file : Stub.ReadableFile platform.toHost id.toInt}
variable {target : Word} {places : List Nat} {result : Int} {bytes : List Byte}
variable (sound : state.fileSystem.Sound) (large : 2 ≤ id.toInt)
variable (ready : state.machine.translation.Ready)
variable (placed : PlacedAt state.machine target places)
variable (distinct : places.Nodup)
variable (allocated : platform.newChars places.length state.world = .allocated)
variable (fetched :
  fetch platform.toHost state.fileSystem id.toInt places.length =
    .ok (result, bytes))

include sound large ready placed distinct allocated fetched

/-- Where the host leaves room in the buffer, what was there before is copied
behind the bytes of the file. -/
theorem not_alwaysDelivers_of_room
    (sameLength : result.toNat = bytes.length) (above : -1 ≤ result)
    (noNul : 0 ∉ bytes) (room : bytes.length < places.length) :
    ¬ AlwaysDelivers platform id file target places state := by
  intro always
  let next := state.withMemory fun _ => 0
  obtain ⟨last, rest, called, restEq, -, lastPlaced, holds⟩ :=
    @syscall_read_fetch _ (platform.withGarbage fun _ _ => 1) next id sound
      large ready target places
      (@placedAt_congr state.machine next.machine rfl _ _ placed) distinct
      allocated _ _ fetched room.le above (by omega)
  have delivers := always _ _ _ _ called
  obtain ⟨place, isPlace⟩ : ∃ place, places[bytes.length]? = some place :=
    ⟨_, List.getElem?_eq_getElem room⟩
  have firstGarbage : rest.head? = some 1 := by
    rw [restEq, List.head?_drop, List.getElem?_map, List.getElem?_range room]
    rfl
  have isGarbage : (copied (bytes ++ rest))[bytes.length]? = some 1 := by
    rw [copied_append_of_no_nul noNul, List.getElem?_append_right (le_refl _),
      Nat.sub_self]
    cases rest with
    | nil => cases firstGarbage
    | cons first rest =>
      cases firstGarbage
      rfl
  have changed := memory_of_holds lastPlaced holds isPlace isGarbage
  have outside := notMem_take_of_getElem distinct isPlace
  rw [← sameLength] at outside
  have unchanged := delivers.frame _ outside
  rw [changed] at unchanged
  change (1 : Byte) = 0 at unchanged
  exact absurd unchanged (by decide)

theorem not_alwaysDelivers_of_nul
    (sameLength : result = bytes.length)
    {entry : Stub.Entry}
    (opened : Stub.lookup state.fileSystem.slots id.toInt = some entry)
    (inFile : slice (file.contents state.world) entry.offset.toNat bytes.length =
      bytes)
    (isNul : 0 ∈ bytes.dropLast) (short : bytes.length ≤ places.length) :
    ¬ AlwaysDelivers platform id file target places state := by
  intro always
  let rest := ((List.range places.length).map
    (platform.garbage state.world)).drop bytes.length
  have fewer := length_copied_lt isNul rest
  obtain ⟨byte, isByte⟩ :
      ∃ byte, bytes[(copied (bytes ++ rest)).length]? = some byte :=
    ⟨_, List.getElem?_eq_getElem fewer⟩
  obtain ⟨place, isPlace⟩ :
      ∃ place, places[(copied (bytes ++ rest)).length]? = some place :=
    ⟨_, List.getElem?_eq_getElem (fewer.trans_le short)⟩
  let next := state.withMemory fun _ => byte + 1
  obtain ⟨last, _, called, rfl, frame, lastPlaced, -⟩ :=
    @syscall_read_fetch _ platform next id sound large ready target places
      (@placedAt_congr state.machine next.machine rfl _ _ placed) distinct
      allocated _ _ fetched short (by omega) (by omega)
  have unchanged := frame place (notMem_take_of_getElem distinct isPlace)
  have holds := (always platform.garbage _ _ _ called).bytes entry opened
    (by omega)
  have wanted : slice (file.contents next.world) entry.offset.toNat
      result.toNat = bytes := by
    rw [sameLength, Int.toNat_natCast]
    exact inFile
  rw [wanted] at holds
  rw [memory_of_holds lastPlaced holds isPlace isByte] at unchanged
  change byte = byte + 1 at unchanged
  bv_omega

theorem delivers_of_fetch
    (valid : ∀ entry, Stub.lookup state.fileSystem.slots id.toInt = some entry →
      file.valid state.world)
    (complete : Complete places.length bytes) {last : State World}
    {answer : Int}
    (returned : syscall platform 7 target (BitVec.ofNat 32 places.length) id
      state = .ok (answer, last)) :
    Delivers file target places state last answer := by
  obtain ⟨short, above, below, toNat⟩ := fetch_bounds file valid fetched
  obtain ⟨next, rest, called, restEq, frame, -, holds⟩ :=
    syscall_read_fetch sound large ready placed distinct allocated fetched
      short above below
  cases returned.symm.trans called
  have filled : bytes.length + rest.length = places.length := by
    rw [restEq, List.length_drop, List.length_map, List.length_range]
    omega
  rw [complete.copied_append filled] at frame holds
  rw [← toNat] at frame
  refine ⟨?_, frame⟩
  intro entry opened nonneg
  rcases fetch_cases file valid fetched with
    ⟨failed, -⟩ | ⟨-, -, other, same, inFile⟩
  · exact absurd nonneg (by omega)
  · cases opened.symm.trans same
    rw [toNat, inFile]
    exact holds

end Delivery

/-- A read that fills the buffer or ends with a NUL delivers what it says. -/
theorem delivers_of_returned
    {platform : Platform World} {state last : State World} {id : Word}
    (sound : state.fileSystem.Sound) (large : 2 ≤ id.toInt)
    (file : Stub.ReadableFile platform.toHost id.toInt)
    (valid : ∀ entry, Stub.lookup state.fileSystem.slots id.toInt = some entry →
      file.valid state.world)
    (ready : state.machine.translation.Ready) {target : Word}
    {places : List Nat} (placed : PlacedAt state.machine target places)
    (distinct : places.Nodup)
    (proper : places = [] ∨
      platform.newChars places.length state.world ≠ .allocated ∨
      ∀ result bytes,
        fetch platform.toHost state.fileSystem id.toInt places.length =
          .ok (result, bytes) →
        0 ≤ result ∧ Complete places.length bytes)
    {result : Int}
    (returned : syscall platform 7 target (BitVec.ofNat 32 places.length) id
      state = .ok (result, last)) :
    Delivers file target places state last result := by
  have small := placed.length_le distinct
  unfold memorySize numPhysPages pageSize at small
  obtain ⟨isNew, array, parts⟩ := solveRead_of_syscall (by omega) returned
  cases isNew with
  | false =>
    obtain ⟨failed, sameMemory⟩ := parts
    refine ⟨fun entry _ nonneg => absurd nonneg (by omega), ?_⟩
    intro address _
    rw [sameMemory]
  | true =>
    have allocated :
        platform.newChars places.length state.world = .allocated := by
      rw [platform.newArray_natCast] at array
      split at array
      · assumption
      · cases array
      · cases array
    obtain ⟨reply, wasRead⟩ := parts
    have mapped := sysRead_fetch platform.toHost sound large places.length
      ((List.range places.length).map (platform.garbage state.world))
    rw [wasRead] at mapped
    obtain ⟨⟨answer, bytes⟩, fetched, -⟩ := exists_of_map_eq_ok mapped.symm
    refine delivers_of_fetch sound large ready placed distinct allocated
      fetched valid ?_ returned
    rcases proper with nothing | failed | complete
    · obtain ⟨short, -⟩ := fetch_bounds file valid fetched
      rw [nothing] at short ⊢
      rw [List.eq_nil_of_length_eq_zero (Nat.le_zero.mp short)]
      exact ⟨List.not_mem_nil, Or.inl rfl⟩
    · exact absurd allocated failed
    · exact (complete answer bytes fetched).2

/-- `SC_Read` always delivers what it says just if nothing is asked for, or there
is no kernel buffer, or the bytes that the host hands over fill the buffer or end
with a NUL, and have no NUL before the last. -/
theorem alwaysDelivers_iff
    {platform : Platform World} {state : State World} {id : Word}
    (sound : state.fileSystem.Sound) (large : 2 ≤ id.toInt)
    (file : Stub.ReadableFile platform.toHost id.toInt)
    (valid : ∀ entry, Stub.lookup state.fileSystem.slots id.toInt = some entry →
      file.valid state.world)
    (ready : state.machine.translation.Ready) {target : Word}
    {places : List Nat} (placed : PlacedAt state.machine target places)
    (distinct : places.Nodup) :
    AlwaysDelivers platform id file target places state ↔
      places = [] ∨
        platform.newChars places.length state.world ≠ .allocated ∨
        ∀ result bytes,
          fetch platform.toHost state.fileSystem id.toInt places.length =
            .ok (result, bytes) →
          0 ≤ result ∧ Complete places.length bytes := by
  constructor
  · intro always
    by_contra otherwise
    push Not at otherwise
    obtain ⟨some, allocated, result, bytes, fetched, incomplete⟩ := otherwise
    have count : 0 < places.length := List.length_pos_iff.mpr some
    rcases fetch_cases file valid fetched with
      ⟨rfl, rfl⟩ | ⟨sameLength, short, entry, opened, inFile⟩
    · exact not_alwaysDelivers_of_room sound large ready placed distinct
        allocated fetched rfl (le_refl _) List.not_mem_nil count always
    · by_cases isNul : 0 ∈ bytes.dropLast
      · exact not_alwaysDelivers_of_nul sound large ready placed distinct
          allocated fetched sameLength opened inFile isNul short always
      · have ends : ¬ (bytes.length = places.length ∨
            bytes.getLast? = .some 0) :=
          fun ends => incomplete (by omega) ⟨isNul, ends⟩
        rw [not_or] at ends
        have noNul := (nul_last_or_none isNul).resolve_left ends.2
        exact not_alwaysDelivers_of_room sound large ready placed distinct
          allocated fetched (by omega) (by omega) noNul (by omega) always
  · intro proper garbage memory result last returned
    let next := state.withMemory memory
    exact @delivers_of_returned _ (platform.withGarbage garbage) next last id
      sound large file valid ready target places
      (@placedAt_congr state.machine next.machine rfl _ _ placed) distinct
      proper result returned

def textState (contents : List Byte) : State Stub.OneFile :=
  (openedState fun _ => 98).withWorld ⟨contents, 0⟩

theorem alwaysDelivers_text :
    AlwaysDelivers filePlatform 2 (Stub.oneReadableFile 2) 64 [64, 65]
      (textState [97, 98]) := by
  have sound : (textState [97, 98]).fileSystem.Sound :=
    (openedState_sound fun _ => 98).host fun _ member => member
  have placed : PlacedAt (textState [97, 98]).machine 64 [64, 65] :=
    ⟨rfl, rfl, trivial⟩
  have large : 2 ≤ (2 : Word).toInt := by decide
  have delivers := @alwaysDelivers_iff _ filePlatform _ 2 sound large
    (Stub.oneReadableFile 2) (fun _ _ => trivial) rfl _ _ placed (by decide)
  refine delivers.mpr (Or.inr (Or.inr ?_))
  intro result bytes fetched
  cases fetched
  exact ⟨by decide, by decide, Or.inl rfl⟩

/-- `SC_Read` at the end of the file returns 0 and changes a byte of the user;
on a descriptor that is not open it returns -1 and does so too. -/
theorem short_read_overwrites :
    (∃ last, syscall filePlatform 7 64 1 2 (textState []) = .ok (0, last) ∧
      (textState []).machine.mainMemory 64 = 98 ∧
      last.machine.mainMemory 64 = 0 ∧
      ¬ Delivers (Stub.oneReadableFile 2) 64 [64] (textState []) last 0) ∧
    ∃ last, syscall filePlatform 7 64 1 3 (textState []) = .ok (-1, last) ∧
      last.machine.mainMemory 64 = 0 := by
  refine ⟨⟨_, rfl, rfl, rfl, ?_⟩, _, rfl, rfl⟩
  intro delivers
  exact absurd (delivers.frame 64 List.not_mem_nil) (by decide)

end Nachos.Userprog
