import Nachos.Lib.Utility

/-!
# User memory

`Machine::Translate`, `ReadMem` and `WriteMem` of `machine/translate.cc`.  The
part of `Machine` that translates addresses is a record of its own, so that
what a translation reads and changes is plain from its type.
-/

namespace Nachos

open Foundation

def pageSize : Nat := 128

def numPhysPages : Nat := 128

def memorySize : Nat := numPhysPages * pageSize

def tlbSize : Nat := 4

inductive ExceptionType where
  | syscallException
  | pageFaultException
  | readOnlyException
  | busErrorException
  | addressErrorException
  | overflowException
  | illegalInstrException
  deriving DecidableEq, Repr

structure TranslationEntry where
  virtualPage : Word
  physicalPage : Word
  valid : Bool
  readOnly : Bool
  use : Bool
  dirty : Bool
  deriving DecidableEq

/-- `pageTable` and `pageTableSize`, which is at most the size of the array. -/
structure PageTable where
  entries : List TranslationEntry
  size : Word
  fits : size.toNat ≤ entries.length

def PageTable.single (entry : TranslationEntry) : PageTable :=
  ⟨[entry], 1, by simp⟩

structure Tlb where
  entries : List TranslationEntry
  full : entries.length = tlbSize

structure Translation where
  tlb : Option Tlb
  pageTable : Option PageTable

namespace TranslationEntry

def touch (writing : Bool) (entry : TranslationEntry) : TranslationEntry :=
  { entry with use := true, dirty := entry.dirty || writing }

def frame (entry : TranslationEntry) (writing : Bool) :
    Except ExceptionType Nat :=
  if entry.readOnly && writing then
    .error .readOnlyException
  else if numPhysPages ≤ entry.physicalPage.toNat then
    .error .busErrorException
  else
    .ok entry.physicalPage.toNat

theorem frame_lt
    {entry : TranslationEntry} {writing : Bool} {pageFrame : Nat}
    (found : entry.frame writing = .ok pageFrame) :
    pageFrame < numPhysPages := by
  unfold frame at found
  split_ifs at found with _ tooBig
  cases found
  omega

end TranslationEntry

namespace PageTable

def set (table : PageTable) (index : Nat) (entry : TranslationEntry) :
    PageTable :=
  ⟨table.entries.set index entry, table.size, by
    rw [List.length_set]
    exact table.fits⟩

/-- The entry of a virtual page: past the end of the table, or not valid. -/
def find (table : PageTable) (vpn : Nat) :
    Except ExceptionType TranslationEntry :=
  if inside : vpn < table.size.toNat then
    let entry := table.entries.get ⟨vpn, inside.trans_le table.fits⟩
    if entry.valid then .ok entry else .error .pageFaultException
  else
    .error .addressErrorException

end PageTable

namespace Tlb

def set (tlb : Tlb) (index : Nat) (entry : TranslationEntry) : Tlb :=
  ⟨tlb.entries.set index entry, by
    rw [List.length_set]
    exact tlb.full⟩

/-- The first valid entry for a virtual page, and its index. -/
def find (tlb : Tlb) (vpn : Nat) :
    Except ExceptionType (Nat × TranslationEntry) :=
  match tlb.entries.findFinIdx? (fun entry =>
    entry.valid && entry.virtualPage == BitVec.ofNat 32 vpn) with
  | some index => .ok (index, tlb.entries.get index)
  | none => .error .pageFaultException

end Tlb

namespace Translation

def lookUp (translation : Translation) (vpn : Nat) (writing : Bool) :
    Except ExceptionType (TranslationEntry × Translation) :=
  match translation.tlb, translation.pageTable with
  | none, some table => do
    let entry ← table.find vpn
    return (entry, { translation with
      pageTable := some (table.set vpn (entry.touch writing)) })
  | some tlb, _ => do
    let (index, entry) ← tlb.find vpn
    return (entry, { translation with
      tlb := some (tlb.set index (entry.touch writing)) })
  | none, none => .error .addressErrorException

def frame (translation : Translation) (vpn : Nat) (writing : Bool) :
    Except ExceptionType (Nat × Translation) := do
  let (entry, touched) ← translation.lookUp vpn writing
  return (← entry.frame writing, touched)

def misaligned (virtAddr : Word) (size : Nat) : Bool :=
  (size == 4 && virtAddr &&& 3 != 0) || (size == 2 && virtAddr &&& 1 != 0)

def translate (translation : Translation) (virtAddr : Word) (size : Nat)
    (writing : Bool) :
    Except Fault (Except ExceptionType Nat × Translation) := do
  if misaligned virtAddr size then
    return (.error .addressErrorException, translation)
  else
    assertThat (translation.tlb.isNone || translation.pageTable.isNone)
      .translateOne
    assertThat (translation.tlb.isSome || translation.pageTable.isSome)
      .translateSome
    let vpn := virtAddr.toNat / pageSize
    let offset := virtAddr.toNat % pageSize
    match translation.frame vpn writing with
    | .error exception => return (.error exception, translation)
    | .ok (pageFrame, touched) =>
      let physAddr := pageFrame * pageSize + offset
      assertThat (physAddr + size ≤ memorySize) .translateAddress
      return (.ok physAddr, touched)

/-- There is a page table or a TLB, but not both. -/
def Ready (translation : Translation) : Prop :=
  translation.tlb.isSome = !translation.pageTable.isSome

theorem offset_add_size_le
    {virtAddr : Word} {size : Nat}
    (isSize : size = 1 ∨ size = 2 ∨ size = 4)
    (aligned : misaligned virtAddr size = false) :
    virtAddr.toNat % pageSize + size ≤ pageSize := by
  unfold pageSize
  rcases isSize with rfl | rfl | rfl
  · omega
  · have even : virtAddr &&& 1 = 0 := by simpa [misaligned] using aligned
    have toNat := congrArg BitVec.toNat even
    rw [BitVec.toNat_and, show BitVec.toNat (1 : Word) = 2 ^ 1 - 1 from rfl,
      Nat.and_two_pow_sub_one_eq_mod] at toNat
    have zero : virtAddr.toNat % 2 = 0 := toNat
    omega
  · have fourth : virtAddr &&& 3 = 0 := by simpa [misaligned] using aligned
    have toNat := congrArg BitVec.toNat fourth
    rw [BitVec.toNat_and, show BitVec.toNat (3 : Word) = 2 ^ 2 - 1 from rfl,
      Nat.and_two_pow_sub_one_eq_mod] at toNat
    have zero : virtAddr.toNat % 4 = 0 := toNat
    omega

theorem lookUp_ready
    {translation touched : Translation} (ready : translation.Ready)
    {vpn : Nat} {writing : Bool} {entry : TranslationEntry}
    (found : translation.lookUp vpn writing = .ok (entry, touched)) :
    touched.Ready := by
  unfold Ready at ready
  unfold lookUp at found
  split at found
  · next noTlb isTable =>
      obtain ⟨entry, -, found⟩ := exists_of_bind_eq_ok found
      cases found
      rw [noTlb, isTable] at ready
      simp [Ready, noTlb]
  · next isTlb =>
      obtain ⟨pair, -, found⟩ := exists_of_bind_eq_ok found
      cases found
      rw [isTlb] at ready
      exact ready
  · cases found

theorem frame_spec
    {translation touched : Translation} (ready : translation.Ready)
    {vpn pageFrame : Nat} {writing : Bool}
    (found : translation.frame vpn writing = .ok (pageFrame, touched)) :
    pageFrame < numPhysPages ∧ touched.Ready := by
  obtain ⟨⟨entry, tables⟩, search, found⟩ := exists_of_bind_eq_ok found
  obtain ⟨frame, check, found⟩ := exists_of_bind_eq_ok found
  cases found
  exact ⟨TranslationEntry.frame_lt check, lookUp_ready ready search⟩

/-- With one table, an aligned access goes where the table says. -/
theorem translate_of_ready
    {translation : Translation} (ready : translation.Ready)
    {virtAddr : Word} {size : Nat} (isSize : size = 1 ∨ size = 2 ∨ size = 4)
    (aligned : misaligned virtAddr size = false) (writing : Bool) :
    translation.translate virtAddr size writing =
      .ok (match translation.frame (virtAddr.toNat / pageSize) writing with
        | .error exception => (.error exception, translation)
        | .ok (pageFrame, touched) =>
          (.ok (pageFrame * pageSize + virtAddr.toNat % pageSize),
            touched)) := by
  have one :
      (translation.tlb.isNone || translation.pageTable.isNone) = true := by
    unfold Ready at ready
    rw [← Option.not_isSome, ready]
    cases translation.pageTable <;> rfl
  have some :
      (translation.tlb.isSome || translation.pageTable.isSome) = true := by
    unfold Ready at ready
    rw [ready]
    cases translation.pageTable <;> rfl
  unfold translate
  rw [aligned, if_neg Bool.false_ne_true, one, some]
  cases search : translation.frame (virtAddr.toNat / pageSize) writing with
  | error exception =>
    simp only [assertThat_true, ok_bind, search]
    rfl
  | ok pair =>
    obtain ⟨pageFrame, touched⟩ := pair
    obtain ⟨inside, -⟩ := frame_spec ready search
    have within := offset_add_size_le isSize aligned
    have bounded :
        decide (pageFrame * pageSize + virtAddr.toNat % pageSize + size ≤
          memorySize) = true := by
      rw [decide_eq_true_eq]
      unfold memorySize numPhysPages pageSize at *
      omega
    simp only [assertThat_true, ok_bind, search, bounded]
    rfl

theorem translate_misaligned
    (translation : Translation) {virtAddr : Word} {size : Nat}
    (misplaced : misaligned virtAddr size = true) (writing : Bool) :
    translation.translate virtAddr size writing =
      .ok (.error .addressErrorException, translation) := by
  unfold translate
  rw [if_pos misplaced]
  rfl

/-- An access is refused and leaves the tables alone, or it is aligned and its
page has a frame. -/
theorem translate_cases
    {translation : Translation} (ready : translation.Ready) {size : Nat}
    (isSize : size = 1 ∨ size = 2 ∨ size = 4) (virtAddr : Word)
    (writing : Bool) :
    (∃ exception, translation.translate virtAddr size writing =
        .ok (.error exception, translation)) ∨
      ∃ pageFrame touched, misaligned virtAddr size = false ∧
        translation.frame (virtAddr.toNat / pageSize) writing =
          .ok (pageFrame, touched) ∧
        translation.translate virtAddr size writing =
          .ok (.ok (pageFrame * pageSize + virtAddr.toNat % pageSize),
            touched) := by
  cases aligned : misaligned virtAddr size with
  | true => exact Or.inl ⟨_, translate_misaligned translation aligned writing⟩
  | false =>
    rw [translate_of_ready ready isSize aligned]
    cases search : translation.frame (virtAddr.toNat / pageSize) writing with
    | error exception => exact Or.inl ⟨exception, rfl⟩
    | ok pair => exact Or.inr ⟨pair.1, pair.2, rfl, rfl, rfl⟩

theorem translate_spec
    {translation : Translation} (ready : translation.Ready)
    (virtAddr : Word) {size : Nat} (isSize : size = 1 ∨ size = 2 ∨ size = 4)
    (writing : Bool) :
    ∃ result touched,
      translation.translate virtAddr size writing = .ok (result, touched) ∧
      touched.Ready := by
  rcases translate_cases ready isSize virtAddr writing with
    ⟨exception, refused⟩ | ⟨pageFrame, touched, -, search, translated⟩
  · exact ⟨_, _, refused, ready⟩
  · exact ⟨_, _, translated, (frame_spec ready search).2⟩

end Translation

def numTotalRegs : Nat := 40

def numGPRegs : Nat := 32

structure Machine where
  registers : Fin numTotalRegs → Word
  mainMemory : Nat → Byte
  translation : Translation

namespace Machine

/-- What a read of one, two or four bytes at a physical address gives: a
`char`, an `unsigned short` or a word, least significant byte first. -/
def valueAt (memory : Nat → Byte) (physicalAddress size : Nat) :
    Except Fault Word :=
  match size with
  | 1 => .ok ((memory physicalAddress).signExtend 32)
  | 2 => .ok ((memory (physicalAddress + 1) ++
      memory physicalAddress).zeroExtend 32)
  | 4 => .ok (bytesWord (memory physicalAddress) (memory (physicalAddress + 1))
      (memory (physicalAddress + 2)) (memory (physicalAddress + 3)))
  | _ => .error (.assertion .accessSize)

def storeAt (memory : Nat → Byte) (physicalAddress : Nat) (bytes : List Byte) :
    Nat → Byte :=
  fun address =>
    if physicalAddress ≤ address then
      bytes.getD (address - physicalAddress) (memory address)
    else
      memory address

def storedBytes (value : Word) (size : Nat) : Except Fault (List Byte) :=
  match size with
  | 1 | 2 | 4 => .ok ((wordBytes value).take size)
  | _ => .error (.assertion .accessSize)

/-- `Machine::ReadMem`.  The exception is raised by the caller, which returns
at once. -/
def readMem (machine : Machine) (addr : Word) (size : Nat) :
    Except Fault (Except ExceptionType Word × Machine) := do
  let (result, translation) ← machine.translation.translate addr size false
  let next := { machine with translation := translation }
  match result with
  | .error exception => return (.error exception, next)
  | .ok physicalAddress =>
    return (.ok (← valueAt machine.mainMemory physicalAddress size), next)

/-- `Machine::WriteMem`.  The exception is raised by the caller, which returns
at once. -/
def writeMem (machine : Machine) (addr : Word) (size : Nat) (value : Word) :
    Except Fault (Except ExceptionType Unit × Machine) := do
  let (result, translation) ← machine.translation.translate addr size true
  match result with
  | .error exception =>
    return (.error exception, { machine with translation := translation })
  | .ok physicalAddress =>
    let bytes ← storedBytes value size
    return (.ok (), { machine with
      mainMemory := storeAt machine.mainMemory physicalAddress bytes
      translation := translation })

theorem readMem_spec
    {machine : Machine} (ready : machine.translation.Ready) (addr : Word)
    {size : Nat} (isSize : size = 1 ∨ size = 2 ∨ size = 4) :
    ∃ result translation,
      machine.readMem addr size =
        .ok (result, { machine with translation := translation }) ∧
      translation.Ready := by
  obtain ⟨result, translation, translated, nextReady⟩ :=
    Translation.translate_spec ready addr isSize false
  unfold readMem
  rw [translated]
  cases result with
  | error exception =>
    exact ⟨_, translation, rfl, nextReady⟩
  | ok physicalAddress =>
    rcases isSize with rfl | rfl | rfl
    all_goals exact ⟨_, translation, rfl, nextReady⟩

theorem writeMem_spec
    {machine : Machine} (ready : machine.translation.Ready) (addr : Word)
    {size : Nat} (isSize : size = 1 ∨ size = 2 ∨ size = 4) (value : Word) :
    ∃ result memory translation,
      machine.writeMem addr size value = .ok (result, { machine with
        mainMemory := memory
        translation := translation }) ∧
      (∀ exception, result = .error exception →
        memory = machine.mainMemory) ∧
      translation.Ready := by
  obtain ⟨result, translation, translated, nextReady⟩ :=
    Translation.translate_spec ready addr isSize true
  unfold writeMem
  rw [translated]
  cases result with
  | error exception =>
    exact ⟨.error exception, machine.mainMemory, translation, rfl,
      fun _ _ => rfl, nextReady⟩
  | ok physicalAddress =>
    rcases isSize with rfl | rfl | rfl
    all_goals
      exact ⟨.ok (), _, translation, rfl, fun _ isError => (by cases isError),
        nextReady⟩

end Machine

end Nachos
