import Nachos.Foundation.Buffer
import Nachos.Foundation.Words

/-!
# C arithmetic and failing code

`int` is a 32-bit two's complement number: the model computes in `Int` and
reduces every sum, difference and product with `wrap`.  Code that can fail
returns `Except Fault`; a `Fault` is an `ASSERT` that aborts the simulation, an
array access outside its bounds, an allocation of negative size, the use of an
object that does not exist, a division that the host traps, or a loop over
linked elements that does not end.
-/

namespace Nachos

open Foundation

/-- Reduce an exact result to the `int` the machine keeps. -/
def wrap (exact : Int) : Int :=
  exact.bmod (2 ^ 32)

theorem wrap_eq_self
    {exact : Int} (lower : -2 ^ 31 ≤ exact) (upper : exact < 2 ^ 31) :
    wrap exact = exact := by
  unfold wrap
  exact Int.bmod_eq_of_le (by omega) (by omega)

theorem wrap_natCast {number : Nat} (small : number < 2 ^ 31) :
    wrap (number : Int) = number :=
  wrap_eq_self (by omega) (by omega)

theorem wrap_range (exact : Int) : -2 ^ 31 ≤ wrap exact ∧ wrap exact < 2 ^ 31 := by
  have lower := @Int.le_bmod exact (2 ^ 32) (by decide)
  have upper := @Int.bmod_lt exact (2 ^ 32) (by decide)
  unfold wrap
  omega

theorem wrap_natCast_le (number : Nat) : wrap (number : Int) ≤ number := by
  unfold wrap
  rw [Int.bmod_def]
  split_ifs <;> omega

/-- `divRoundDown` of `utility.h`: C division truncates towards zero. -/
def divRoundDown (number divisor : Int) : Int :=
  number.tdiv divisor

def divRoundUp (number divisor : Int) : Int :=
  number.tdiv divisor + if 0 < number.tmod divisor then 1 else 0

theorem divRoundDown_natCast (number divisor : Nat) :
    divRoundDown number divisor = ((number / divisor : Nat) : Int) := by
  unfold divRoundDown
  exact (Int.ofNat_tdiv number divisor).symm

theorem divRoundUp_natCast
    (number : Nat) {divisor : Nat} (positive : 0 < divisor) :
    divRoundUp number divisor =
      (((number + divisor - 1) / divisor : Nat) : Int) := by
  have quotient : (number : Int).tdiv divisor = ((number / divisor : Nat) : Int) :=
    (Int.ofNat_tdiv number divisor).symm
  have remainder : (number : Int).tmod divisor = ((number % divisor : Nat) : Int) :=
    (Int.ofNat_tmod number divisor).symm
  have shifted :
      number + divisor - 1 =
        divisor * (number / divisor) + (number % divisor + divisor - 1) := by
    have division := Nat.div_add_mod number divisor
    omega
  have rounded :
      (number % divisor + divisor - 1) / divisor =
        if 0 < number % divisor then 1 else 0 := by
    have small := Nat.mod_lt number positive
    split_ifs with positiveRemainder
    · rw [Nat.div_eq_iff positive]
      omega
    · rw [Nat.div_eq_of_lt (by omega)]
  unfold divRoundUp
  rw [quotient, remainder, shifted, Nat.mul_add_div positive, rounded]
  split_ifs <;> omega

theorem divRoundUp_neg (number divisor : Nat) :
    divRoundUp (-(number : Int)) divisor =
      -((number / divisor : Nat) : Int) := by
  unfold divRoundUp
  rw [Int.neg_tdiv, Int.neg_tmod, ← Int.ofNat_tdiv, ← Int.ofNat_tmod,
    if_neg (by omega), Int.add_zero]

inductive Assertion where
  /-- `which >= 0 && which < numBits` in `Bitmap::Mark`, `Clear` and `Test`. -/
  | bitmapIndex
  /-- `numItems > 0` in `Bitmap::Bitmap`. -/
  | bitmapItems
  /-- `Test(which)` after `Bitmap::Mark`, `!Test(which)` after `Clear`. -/
  | bitmapUpdated
  /-- `dataSectors[i] >= 0` in `FileHeader::Allocate`. -/
  | fileHeaderAllocate
  /-- `freeMap->Test(dataSectors[i])` in `FileHeader::Deallocate`. -/
  | fileHeaderDeallocate
  /-- The sector range in `Disk::ReadRequest` and `Disk::WriteRequest`. -/
  | diskRequest
  /-- `!active` in `Disk::ReadRequest` and `Disk::WriteRequest`. -/
  | diskActive
  /-- The two allocations of `FileSystem::FileSystem(TRUE)`. -/
  | formatAllocate
  /-- `!IsInList(item)` in `List::Append`. -/
  | listAppend
  /-- `IsInList(item)` at the end of `List::Append`. -/
  | listAppended
  /-- `!IsInList(item)` in `List::Prepend`. -/
  | listPrepend
  /-- `IsInList(item)` at the end of `List::Prepend`. -/
  | listPrepended
  /-- `!IsEmpty()` in `List::RemoveFront`. -/
  | listRemoveFront
  /-- `IsInList(item)` in `List::Remove`. -/
  | listRemove
  /-- `item == removed`, `ptr != NULL` and `!IsInList(item)` at the end of
  `List::Remove`. -/
  | listRemoved
  /-- The checks of `List::SanityCheck`. -/
  | listSanity
  /-- `!IsDone()` in `ListIterator::Item`. -/
  | listIterator
  /-- The range of the result in `HashTable::HashValue`. -/
  | hashValue
  /-- `!IsInTable(key)` in `HashTable::Insert`. -/
  | hashInsert
  /-- `IsInTable(key)` at the end of `HashTable::Insert`. -/
  | hashInserted
  /-- `found` in `HashTable::Remove`. -/
  | hashRemove
  /-- `!IsInTable(key)` at the end of `HashTable::Remove`. -/
  | hashRemoved
  /-- The checks of `HashTable::SanityCheck`. -/
  | hashSanity
  /-- `!IsDone()` in `HashIterator::Item`. -/
  | hashIterator
  /-- `IsHeldByCurrentThread()` in `Lock::Release`. -/
  | lockRelease
  /-- `conditionLock->IsHeldByCurrentThread()` in `Condition::Wait` and
  `Condition::Signal`. -/
  | conditionLock
  /-- `getLevel() == IntOff` in `ReadyToRun`, `FindNextToRun`, `Run` and
  `Sleep`. -/
  | interruptLevel
  /-- `this == kernel->currentThread` in `Begin`, `Finish`, `Yield` and
  `Sleep`. -/
  | currentThread
  /-- `toBeDestroyed == NULL` in `Scheduler::Run`. -/
  | toBeDestroyed
  /-- `this != kernel->currentThread` in `Thread::~Thread`. -/
  | threadDelete
  /-- `incoming == EOF` in `ConsoleInput::CallBack`. -/
  | consoleIncoming
  /-- `!IsInList(item)` in `SortedList::Insert`. -/
  | sortedListInsert
  /-- `IsInList(item)` at the end of `SortedList::Insert`. -/
  | sortedListInserted
  /-- The order of two neighbours in `SortedList::SanityCheck`. -/
  | sortedListSanity
  /-- `(now == IntOff) || (inHandler == FALSE)` in `Interrupt::SetLevel`. -/
  | enableInHandler
  /-- `inHandler == TRUE` in `Interrupt::YieldOnReturn`. -/
  | yieldOnReturn
  /-- `fromNow > 0` in `Interrupt::Schedule`. -/
  | scheduleDelay
  /-- `level == IntOff` in `Interrupt::CheckIfDue`. -/
  | checkIfDueLevel
  /-- `ASSERTNOTREACHED()` at the end of `ExceptionHandler`. -/
  | exceptionHandler
  /-- `tlb == NULL || pageTable == NULL` in `Machine::Translate`. -/
  | translateOne
  /-- `tlb != NULL || pageTable != NULL` in `Machine::Translate`. -/
  | translateSome
  /-- The range of the physical address in `Machine::Translate`. -/
  | translateAddress
  /-- The range of the physical address in `AddrSpace::Translate`. -/
  | addrSpaceTranslate
  /-- `noffH.noffMagic == NOFFMAGIC` in `AddrSpace::Load`. -/
  | noffMagic
  /-- `numPages <= NumPhysPages` in `AddrSpace::Load`. -/
  | loadPages
  /-- The default case of the size in `ReadMem` and `WriteMem`. -/
  | accessSize
  /-- The default case of `Machine::OneInstruction`. -/
  | unknownOpCode
  /-- The range of the register in `ReadRegister` and `WriteRegister`. -/
  | registerNumber
  /-- The check of the packet in `NetworkInput::CallBack`. -/
  | networkReceive
  /-- The check of the packet in `NetworkOutput::Send`. -/
  | networkSend
  /-- `mailHdr.length <= MaxMailSize` in `PostOfficeOutput::Send`,
  `PostalDelivery`, `Mail::Mail` and `PostOfficeInput::Receive`. -/
  | mailLength
  /-- `0 <= mailHdr.to` in `PostOfficeOutput::Send`. -/
  | mailTo
  /-- The range of the box in `PostalDelivery` and
  `PostOfficeInput::Receive`. -/
  | mailBox
  deriving DecidableEq, Repr

inductive Fault where
  | assertion (failed : Assertion)
  | outOfBounds
  | badAllocation
  /-- The use of an object that was never allocated, or is deleted. -/
  | badObject
  /-- A division whose quotient is no `int`, which the host traps. -/
  | divisionOverflow
  /-- A loop over linked elements that comes back to one of them. -/
  | endlessLoop
  deriving DecidableEq, Repr

def assertThat (condition : Bool) (name : Assertion) : Except Fault Unit :=
  if condition then .ok () else .error (.assertion name)

/-- What freshly allocated memory happens to hold. -/
abbrev Junk := Nat → Byte

def newChars (junk : Junk) (size : Int) : Except Fault (List Byte) :=
  if 0 ≤ size then
    .ok ((List.range size.toNat).map junk)
  else
    .error .badAllocation

/-- The `count` bytes that a pointer `&source[start]` gives access to. -/
def bytesAt (source : List Byte) (start count : Int) :
    Except Fault (List Byte) :=
  if 0 ≤ start ∧ 0 ≤ count ∧ start + count ≤ source.length then
    .ok (slice source start.toNat count.toNat)
  else
    .error .outOfBounds

def storeBytes (target : List Byte) (start : Int) (patch : List Byte) :
    Except Fault (List Byte) :=
  if 0 ≤ start ∧ start + patch.length ≤ target.length then
    .ok (overlay target patch start.toNat)
  else
    .error .outOfBounds

/-- `bcopy(&source[sourceStart], &target[targetStart], count)`. -/
def bcopy
    (source : List Byte) (sourceStart : Int)
    (target : List Byte) (targetStart count : Int) :
    Except Fault (List Byte) := do
  storeBytes target targetStart (← bytesAt source sourceStart count)

@[simp]
theorem ok_bind {Result Next : Type}
    (value : Result) (next : Result → Except Fault Next) :
    (Except.ok value >>= next) = next value :=
  rfl

theorem exists_of_bind_eq_ok {Error Result Next : Type}
    {action : Except Error Result} {next : Result → Except Error Next}
    {result : Next} (returned : (action >>= next) = .ok result) :
    ∃ value, action = .ok value ∧ next value = .ok result := by
  cases action with
  | ok value =>
    exact ⟨value, rfl, returned⟩
  | error fault =>
    cases returned

theorem exists_of_map_eq_ok {Error Result Next : Type}
    {action : Except Error Result} {convert : Result → Next} {result : Next}
    (returned : convert <$> action = .ok result) :
    ∃ value, action = .ok value ∧ convert value = result := by
  cases action with
  | ok value =>
    exact ⟨value, rfl, Except.ok.inj returned⟩
  | error fault =>
    cases returned

@[simp]
theorem assertThat_true (name : Assertion) :
    assertThat true name = .ok () :=
  rfl

theorem of_assertThat
    {condition : Prop} [Decidable condition] {name : Assertion}
    {result : Unit} (passed : assertThat condition name = .ok result) :
    condition := by
  by_contra fails
  rw [decide_eq_false fails] at passed
  cases passed

theorem bytesAt_natCast
    {source : List Byte} {start count : Nat}
    (fits : start + count ≤ source.length) :
    bytesAt source start count = .ok (slice source start count) := by
  unfold bytesAt
  rw [if_pos (by omega)]
  rfl

theorem storeBytes_natCast
    {target patch : List Byte} {start : Nat}
    (fits : start + patch.length ≤ target.length) :
    storeBytes target start patch = .ok (overlay target patch start) := by
  unfold storeBytes
  rw [if_pos (by omega)]
  rfl

theorem bcopy_natCast
    {source target : List Byte} {sourceStart targetStart count : Nat}
    (sourceFits : sourceStart + count ≤ source.length)
    (targetFits : targetStart + count ≤ target.length) :
    bcopy source sourceStart target targetStart count =
      .ok (overlay target (slice source sourceStart count) targetStart) := by
  unfold bcopy
  rw [bytesAt_natCast sourceFits]
  exact storeBytes_natCast (by rw [length_slice sourceFits]; exact targetFits)

theorem bounds_of_bcopy
    {source target result : List Byte} {sourceStart targetStart count : Int}
    (returned :
      bcopy source sourceStart target targetStart count = .ok result) :
    sourceStart + count ≤ source.length ∧ 0 ≤ targetStart := by
  obtain ⟨patch, taken, stored⟩ := exists_of_bind_eq_ok returned
  unfold bytesAt at taken
  split_ifs at taken with sourceInside
  unfold storeBytes at stored
  split_ifs at stored with targetInside
  exact ⟨sourceInside.2.2, targetInside.1⟩

end Nachos
