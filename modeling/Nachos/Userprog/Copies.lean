import Mathlib.Data.List.Perm.Subperm
import Nachos.Machine.UserMemory
import Nachos.Stub.FileSystem

/-!
# Copies between user and kernel memory

`user2System` and `system2User` of `userprog/exception.cc`.  They go through
`ReadMem` and `WriteMem`; an access that raises an exception there ends in
`Interrupt::Halt` and does not come back.  What the C library answers is a
parameter, like the host.
-/

namespace Nachos.Userprog

open Foundation

variable {World : Type}

inductive Allocation where
  | allocated
  | null
  | throws
  deriving DecidableEq, Repr

structure Platform (World : Type) extends Stub.Host World where
  /-- `malloc(size) != NULL`. -/
  malloc : Nat → World → Bool
  /-- `new char[size]`. -/
  newChars : Nat → World → Allocation
  /-- What memory holds when it is allocated. -/
  garbage : World → Nat → Byte
  /-- `srand(time(NULL)); rand()`. -/
  rand : World → Int × World

inductive Stop where
  /-- `Interrupt::Halt`. -/
  | halt
  /-- An exception of C++ that nobody catches. -/
  | badAlloc
  /-- A failed `ASSERT` or an access outside an array. -/
  | fault (fault : Fault)
  /-- A failed `ASSERT` of `sysdep.cc`. -/
  | abort (abort : Stub.Abort)

/-- `new char[count]` for an `int`: the pointer, or `nullptr`. -/
def Platform.newArray (platform : Platform World) (count : Int)
    (world : World) : Except Stop Bool :=
  if count < 0 then
    .error .badAlloc
  else
    match platform.newChars count.toNat world with
    | .allocated => .ok true
    | .null => .ok false
    | .throws => .error .badAlloc

theorem Platform.newArray_natCast (platform : Platform World) (count : Nat)
    (world : World) :
    platform.newArray count world =
      match platform.newChars count world with
      | .allocated => .ok true
      | .null => .ok false
      | .throws => .error .badAlloc := by
  unfold newArray
  rw [if_neg (Int.not_lt.mpr (Int.natCast_nonneg _)), Int.toNat_natCast]

def readByte (machine : Machine) (addr : Word) :
    Except Stop (Word × Machine) :=
  match machine.readMem addr 1 with
  | .error fault => .error (.fault fault)
  | .ok (.error _, _) => .error .halt
  | .ok (.ok value, next) => .ok (value, next)

def writeByte (machine : Machine) (addr value : Word) : Except Stop Machine :=
  match machine.writeMem addr 1 value with
  | .error fault => .error (.fault fault)
  | .ok (.error _, _) => .error .halt
  | .ok (.ok (), next) => .ok next

def copyIn (machine : Machine) : Nat → Word →
    Except Stop (List Byte × Machine)
  | 0, _ => .ok ([], machine)
  | remaining + 1, virtAddr => do
    let (oneChar, machine) ← readByte machine virtAddr
    if oneChar = 0 then
      return ([], machine)
    else
      let (characters, machine) ← copyIn machine remaining (virtAddr + 1)
      return (oneChar.extractLsb' 0 8 :: characters, machine)

/-- `user2System`: the buffer of `limit + 1` bytes, cleared before the copy, or
`nullptr`. -/
def user2System (platform : Platform World) (world : World) (machine : Machine)
    (virtAddr : Word) (limit : Int) :
    Except Stop (Option (List Byte) × Machine) := do
  let limit := if limit = -1 then 0 else limit
  let allocated ← platform.newArray (wrap (limit + 1)) world
  if allocated then
    let (characters, machine) ← copyIn machine limit.toNat virtAddr
    return (some (characters ++
      List.replicate (limit.toNat + 1 - characters.length) 0), machine)
  else
    return (none, machine)

/-- The loop of `system2User`, which stops after the first NUL, and how many
characters it stores. -/
def copyOut (machine : Machine) : Nat → Word → List Byte →
    Except Stop (Nat × Machine)
  | 0, _, _ => .ok (0, machine)
  | remaining + 1, virtAddr, buffer => do
    let oneChar := buffer.headD 0
    let machine ← writeByte machine virtAddr (oneChar.signExtend 32)
    if oneChar = 0 then
      return (1, machine)
    else
      let (i, machine) ← copyOut machine remaining (virtAddr + 1) buffer.tail
      return (i + 1, machine)

def system2User (machine : Machine) (buffer : List Byte) (virtAddr : Word)
    (limit : Int) : Except Stop (Int × Machine) :=
  if limit < 0 then
    .ok (-1, machine)
  else if limit = 0 then
    .ok (limit, machine)
  else do
    let (i, machine) ← copyOut machine limit.toNat virtAddr buffer
    return ((i : Int), machine)

theorem system2User_natCast
    (machine : Machine) (buffer : List Byte) (virtAddr : Word) (limit : Nat) :
    system2User machine buffer virtAddr limit = do
      let (i, machine) ← copyOut machine limit virtAddr buffer
      return ((i : Int), machine) := by
  unfold system2User
  rw [if_neg (by omega)]
  cases limit with
  | zero => rfl
  | succ limit => rw [if_neg (by omega), Int.toNat_natCast]

/-! ## What is left alone -/

/-- An access of the kernel leaves the registers alone, and the tables ready. -/
structure Kept (machine next : Machine) : Prop where
  registers : next.registers = machine.registers
  ready : machine.translation.Ready → next.translation.Ready

namespace Kept

theorem refl (machine : Machine) : Kept machine machine :=
  ⟨rfl, id⟩

theorem trans
    {first second third : Machine} (earlier : Kept first second)
    (later : Kept second third) : Kept first third :=
  ⟨later.registers.trans earlier.registers, later.ready ∘ earlier.ready⟩

end Kept

theorem readByte_kept
    {machine next : Machine} {addr value : Word}
    (returned : readByte machine addr = .ok (value, next)) :
    Kept machine next := by
  unfold readByte at returned
  split at returned
  · cases returned
  · cases returned
  · next value after read =>
      cases returned
      refine ⟨?_, ?_⟩
      · obtain ⟨⟨result, translation⟩, -, found⟩ := exists_of_bind_eq_ok read
        cases result with
        | error exception => cases found
        | ok physicalAddress =>
          cases found
          rfl
      · intro ready
        obtain ⟨result, translation, performed, nextReady⟩ :=
          Machine.readMem_spec ready addr (Or.inl rfl)
        cases performed.symm.trans read
        exact nextReady

theorem writeByte_kept
    {machine next : Machine} {addr value : Word}
    (returned : writeByte machine addr value = .ok next) :
    Kept machine next := by
  unfold writeByte at returned
  split at returned
  · cases returned
  · cases returned
  · next after written =>
      cases returned
      refine ⟨?_, ?_⟩
      · obtain ⟨⟨result, translation⟩, -, stored⟩ :=
          exists_of_bind_eq_ok written
        cases result with
        | error exception => cases stored
        | ok physicalAddress =>
          cases stored
          rfl
      · intro ready
        obtain ⟨result, memory, translation, performed, -, nextReady⟩ :=
          Machine.writeMem_spec ready addr (Or.inl rfl) value
        cases performed.symm.trans written
        exact nextReady

theorem copyIn_kept
    {remaining : Nat} {machine next : Machine} {virtAddr : Word}
    {characters : List Byte}
    (returned : copyIn machine remaining virtAddr = .ok (characters, next)) :
    Kept machine next := by
  induction remaining generalizing machine virtAddr characters with
  | zero =>
    cases returned
    exact Kept.refl next
  | succ remaining ih =>
    unfold copyIn at returned
    obtain ⟨⟨oneChar, after⟩, read, returned⟩ := exists_of_bind_eq_ok returned
    have kept := readByte_kept read
    dsimp only at returned
    split_ifs at returned with isNul
    · cases returned
      exact kept
    · obtain ⟨⟨rest, last⟩, copied, returned⟩ := exists_of_bind_eq_ok returned
      cases returned
      exact kept.trans (ih copied)

theorem user2System_kept
    {platform : Platform World} {world : World} {machine next : Machine}
    {virtAddr : Word} {limit : Int} {buffer : Option (List Byte)}
    (returned : user2System platform world machine virtAddr limit =
      .ok (buffer, next)) :
    Kept machine next := by
  simp only [user2System] at returned
  obtain ⟨allocated, -, returned⟩ := exists_of_bind_eq_ok returned
  cases allocated with
  | true =>
    obtain ⟨⟨characters, after⟩, copied, returned⟩ :=
      exists_of_bind_eq_ok returned
    cases returned
    exact copyIn_kept copied
  | false =>
    cases returned
    exact Kept.refl _

theorem copyOut_kept
    {remaining count : Nat} {machine next : Machine} {virtAddr : Word}
    {buffer : List Byte}
    (returned : copyOut machine remaining virtAddr buffer = .ok (count, next)) :
    Kept machine next := by
  induction remaining generalizing machine virtAddr buffer count with
  | zero =>
    cases returned
    exact Kept.refl next
  | succ remaining ih =>
    simp only [copyOut] at returned
    obtain ⟨after, written, returned⟩ := exists_of_bind_eq_ok returned
    have kept := writeByte_kept written
    split_ifs at returned with isNul
    · cases returned
      exact kept
    · obtain ⟨⟨i, last⟩, copied, returned⟩ := exists_of_bind_eq_ok returned
      cases returned
      exact kept.trans (ih copied)

theorem system2User_kept
    {machine next : Machine} {virtAddr : Word} {buffer : List Byte}
    {limit result : Int}
    (returned : system2User machine buffer virtAddr limit =
      .ok (result, next)) :
    Kept machine next := by
  unfold system2User at returned
  split_ifs at returned with negative nothing
  · cases returned
    exact Kept.refl _
  · cases returned
    exact Kept.refl _
  · obtain ⟨⟨i, last⟩, copied, returned⟩ := exists_of_bind_eq_ok returned
    cases returned
    exact copyOut_kept copied

/-! ## Mapped user memory -/

theorem extract_signExtend (byte : Byte) :
    (byte.signExtend 32).extractLsb' 0 8 = byte := by
  apply BitVec.eq_of_getLsbD_eq
  intro index inside
  simp only [BitVec.getLsbD_extractLsb', BitVec.getLsbD_signExtend]
  grind

theorem signExtend_eq_zero_iff (byte : Byte) :
    byte.signExtend 32 = 0 ↔ byte = 0 := by
  constructor
  · intro zero
    rw [← extract_signExtend byte, zero]
    rfl
  · rintro rfl
    rfl

/-- The bytes are all that a copy of at most `limit` characters looks at. -/
def Covers (limit : Nat) (bytes : List Byte) : Prop :=
  bytes.length = limit ∨ (bytes.length ≤ limit ∧ 0 ∈ bytes)

theorem Covers.tail
    {limit : Nat} {byte : Byte} {bytes : List Byte}
    (covers : Covers (limit + 1) (byte :: bytes)) (notNul : byte ≠ 0) :
    Covers limit bytes := by
  rcases covers with all | ⟨short, terminated⟩
  · exact Or.inl (Nat.succ.inj all)
  · refine Or.inr ⟨Nat.le_of_succ_le_succ short, ?_⟩
    exact (List.mem_cons.mp terminated).resolve_left (Ne.symm notNul)

/-- The characters before the first NUL are copied in, and nothing but use bits
is changed. -/
theorem copyIn_holds
    {bytes : List Byte} {machine : Machine} {virtAddr : Word} {limit : Nat}
    (ready : machine.translation.Ready) (holds : machine.Holds virtAddr bytes)
    (covers : Covers limit bytes) :
    ∃ next, copyIn machine limit virtAddr = .ok (cString bytes, next) ∧
      machine.Looked next := by
  induction bytes generalizing machine virtAddr limit with
  | nil =>
    obtain rfl : 0 = limit := covers.resolve_right (by simp)
    exact ⟨machine, rfl, rfl, rfl, rfl, ready⟩
  | cons byte bytes ih =>
    obtain ⟨limit, rfl⟩ : ∃ fewer, limit = fewer + 1 := by
      apply Nat.exists_eq_succ_of_ne_zero
      rintro rfl
      rcases covers with all | ⟨short, _⟩
      · cases all
      · exact Nat.not_succ_le_zero _ short
    obtain ⟨⟨physAddr, mapped, held⟩, rest⟩ := holds
    obtain ⟨after, read, looked⟩ := Machine.readMem_mapped ready mapped
    rw [held] at read
    have isRead : readByte machine virtAddr =
        .ok (byte.signExtend 32, after) := by
      simp only [readByte, read]
    simp only [copyIn, isRead, bind, Except.bind, signExtend_eq_zero_iff,
      cString_cons]
    by_cases isNul : byte = 0
    · rw [if_pos isNul, if_pos isNul]
      exact ⟨after, rfl, looked⟩
    · rw [if_neg isNul, if_neg isNul]
      obtain ⟨last, copied, lastLooked⟩ :=
        ih looked.ready
          (Machine.holds_congr looked.memory looked.settings rest)
          (covers.tail isNul)
      rw [copied, extract_signExtend]
      exact ⟨last, rfl, looked.trans lastLooked⟩

theorem user2System_natCast
    (platform : Platform World) (world : World) (machine : Machine)
    (virtAddr : Word) (limit : Nat) :
    user2System platform world machine virtAddr limit = do
      let allocated ← platform.newArray (wrap (limit + 1)) world
      if allocated then
        let (characters, machine) ← copyIn machine limit virtAddr
        return (some (characters ++
          List.replicate (limit + 1 - characters.length) 0), machine)
      else
        return (none, machine) := by
  have isLimit : (if (limit : Int) = -1 then (0 : Int) else limit) = limit :=
    if_neg (by omega)
  unfold user2System
  rw [isLimit]
  rfl

section Names

variable {platform : Platform World} {world : World} {machine : Machine}
variable {virtAddr : Word} {bytes : List Byte} {limit : Nat}

theorem user2System_allocated
    (ready : machine.translation.Ready) (holds : machine.Holds virtAddr bytes)
    (covers : Covers limit bytes)
    (isNew : platform.newArray (wrap (limit + 1)) world = .ok true) :
    ∃ next, user2System platform world machine virtAddr limit =
        .ok (some (cString bytes ++
          List.replicate (limit + 1 - (cString bytes).length) 0), next) ∧
      machine.Looked next := by
  obtain ⟨next, copied, looked⟩ := copyIn_holds ready holds covers
  refine ⟨next, ?_, looked⟩
  rw [user2System_natCast, isNew]
  simp only [copied, bind, Except.bind, if_true, pure, Except.pure]

theorem user2System_holds
    (ready : machine.translation.Ready) (holds : machine.Holds virtAddr bytes)
    (covers : Covers limit bytes)
    (allocated : platform.newChars (limit + 1) world = .allocated)
    (small : limit + 1 < 2 ^ 31) :
    ∃ next, user2System platform world machine virtAddr limit =
        .ok (some (cString bytes ++
          List.replicate (limit + 1 - (cString bytes).length) 0), next) ∧
      machine.Looked next := by
  apply user2System_allocated ready holds covers
  have size : wrap (limit + 1) = ↑(limit + 1) := by
    rw [← Nat.cast_succ]
    exact wrap_natCast small
  rw [size, platform.newArray_natCast, allocated]

end Names

def PlacedAt (machine : Machine) : Word → List Nat → Prop
  | _, [] => True
  | addr, place :: places =>
    machine.translation.physical addr true = some place ∧
      PlacedAt machine (addr + 1) places

/-- What `system2User` copies: up to the first NUL, and that NUL. -/
def copied : List Byte → List Byte
  | [] => []
  | byte :: bytes => if byte = 0 then [0] else byte :: copied bytes

theorem copied_of_no_nul {bytes : List Byte} (noNul : 0 ∉ bytes) :
    copied bytes = bytes := by
  induction bytes with
  | nil => rfl
  | cons byte bytes ih =>
    rw [List.mem_cons, not_or] at noNul
    unfold copied
    rw [if_neg (Ne.symm noNul.1), ih noNul.2]

structure Stored (machine : Machine) (places : List Nat) (next : Machine) :
    Prop where
  registers : next.registers = machine.registers
  memory : ∀ address, address ∉ places →
    next.mainMemory address = machine.mainMemory address
  settings : next.translation.settings = machine.translation.settings
  ready : next.translation.Ready

theorem Stored.trans
    {first second third : Machine} {place : Nat} {places : List Nat}
    (earlier : Stored first [place] second)
    (later : Stored second places third) :
    Stored first (place :: places) third where
  registers := later.registers.trans earlier.registers
  memory := by
    intro address outside
    rw [List.mem_cons, not_or] at outside
    rw [later.memory address outside.2]
    exact earlier.memory address fun isPlace =>
      outside.1 (List.mem_singleton.mp isPlace)
  settings := later.settings.trans earlier.settings
  ready := later.ready

theorem writeByte_of_writeMem
    {machine next : Machine} {addr value : Word}
    (written : machine.writeMem addr 1 value = .ok (.ok (), next)) :
    writeByte machine addr value = .ok next := by
  unfold writeByte
  rw [written]

theorem copyOut_succ
    {machine next : Machine} {virtAddr : Word} {buffer : List Byte}
    (written : writeByte machine virtAddr ((buffer.headD 0).signExtend 32) =
      .ok next)
    (remaining : Nat) :
    copyOut machine (remaining + 1) virtAddr buffer =
      if buffer.headD 0 = 0 then .ok (1, next)
      else do
        let (i, last) ← copyOut next remaining (virtAddr + 1) buffer.tail
        return (i + 1, last) := by
  simp only [copyOut, written]
  rfl

theorem placedAt_congr
    {machine next : Machine}
    (settings : next.translation.settings = machine.translation.settings)
    {addr : Word} {places : List Nat} (placed : PlacedAt machine addr places) :
    PlacedAt next addr places := by
  induction places generalizing addr with
  | nil => trivial
  | cons place places ih =>
    refine ⟨?_, ih placed.2⟩
    rw [Translation.physical_congr settings]
    exact placed.1

theorem PlacedAt.lt
    {machine : Machine} {addr : Word} {places : List Nat}
    (placed : PlacedAt machine addr places) :
    ∀ place ∈ places, place < memorySize := by
  induction places generalizing addr with
  | nil =>
    intro place member
    cases member
  | cons first places ih =>
    intro place member
    rcases List.mem_cons.mp member with rfl | later
    · exact Translation.physical_lt placed.1
    · exact ih placed.2 place later

theorem PlacedAt.length_le
    {machine : Machine} {addr : Word} {places : List Nat}
    (placed : PlacedAt machine addr places) (distinct : places.Nodup) :
    places.length ≤ memorySize := by
  have inMemory : places ⊆ List.range memorySize := fun place member =>
    List.mem_range.mpr (placed.lt place member)
  have shorter := (List.Nodup.subperm distinct inMemory).length_le
  rwa [List.length_range] at shorter

/-- A buffer is copied out to the first places of the user buffer, and nothing
else is changed. -/
theorem copyOut_holds
    {buffer : List Byte} {machine : Machine} {virtAddr : Word}
    {places : List Nat} (ready : machine.translation.Ready)
    (placed : PlacedAt machine virtAddr places) (distinct : places.Nodup)
    (sameLength : buffer.length = places.length) :
    ∃ next, copyOut machine buffer.length virtAddr buffer =
        .ok ((copied buffer).length, next) ∧
      Stored machine (places.take (copied buffer).length) next ∧
      next.Holds virtAddr (copied buffer) := by
  induction buffer generalizing machine virtAddr places with
  | nil => exact ⟨machine, rfl, ⟨rfl, fun _ _ => rfl, rfl, ready⟩, trivial⟩
  | cons byte bytes ih =>
    cases places with
    | nil => cases sameLength
    | cons place places =>
      obtain ⟨mapped, rest⟩ := placed
      obtain ⟨notAgain, distinct⟩ := List.nodup_cons.mp distinct
      obtain ⟨translation, written, settings, nextReady⟩ :=
        Machine.writeMem_mapped ready (byte.signExtend 32) mapped
      rw [extract_signExtend] at written
      have isWritten := writeByte_of_writeMem written
      rw [List.length_cons, @copyOut_succ _ _ _ (byte :: bytes) isWritten,
        List.headD_cons, List.tail_cons]
      have stored : Stored machine [place] { machine with
          mainMemory := Function.update machine.mainMemory place byte
          translation := translation } := by
        refine ⟨rfl, fun address different => ?_, settings, nextReady⟩
        exact Function.update_of_ne (List.ne_of_not_mem_cons different) _ _
      have readable : ∀ final : Machine,
          final.translation.settings = machine.translation.settings →
          final.translation.physical virtAddr false = some place := by
        intro final sameSettings
        rw [Translation.physical_congr sameSettings]
        exact Translation.physical_read_of_write mapped
      by_cases isNul : byte = 0
      · unfold copied
        rw [if_pos isNul, if_pos isNul]
        refine ⟨_, rfl, stored, ⟨place, readable _ settings, ?_⟩, trivial⟩
        exact (Function.update_self ..).trans isNul
      · rw [if_neg isNul]
        obtain ⟨final, copiedRest, finalStored, finalHolds⟩ :=
          ih nextReady
            (placedAt_congr stored.settings rest) distinct
            (Nat.succ.inj sameLength)
        unfold copied
        rw [if_neg isNul, List.length_cons, List.take_succ_cons, copiedRest]
        refine ⟨final, rfl, stored.trans finalStored, ⟨place, ?_, ?_⟩,
          finalHolds⟩
        · exact readable final (finalStored.settings.trans settings)
        · rw [finalStored.memory place
            fun again => notAgain (List.mem_of_mem_take again)]
          exact Function.update_self ..

end Nachos.Userprog
