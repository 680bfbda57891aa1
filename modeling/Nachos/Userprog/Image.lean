import Nachos.Machine.WordMemory
import Nachos.Userprog.Load

/-!
# What a program finds in memory

`AddrSpace::AddrSpace` and `AddrSpace::Execute` of `userprog/addrspace.cc`, with
`Load` between them as in `main`.
-/

namespace Nachos

open Foundation Stub

namespace AddrSpace

variable {World : Type}

def newEntries : List TranslationEntry :=
  (List.range numPhysPages).map fun i =>
    ⟨BitVec.ofNat 32 i, BitVec.ofNat 32 i, true, false, false, false⟩

def cleared (memory : Nat → Byte) : Nat → Byte :=
  fun address => if address < memorySize then 0 else memory address

def stored (memory : Nat → Byte) (written : List (Int × List Byte)) :
    Nat → Byte :=
  written.foldl (fun memory piece =>
    Machine.storeAt memory piece.1.toNat piece.2) memory

def restoreState (machine : Machine) (numPages : Word)
    (few : numPages.toNat ≤ numPhysPages) : Machine :=
  { machine with translation := { machine.translation with
      pageTable := some ⟨newEntries, numPages, by
        rw [newEntries, List.length_map, List.length_range]
        exact few⟩ } }

def InMemory (piece : Int × List Byte) : Prop :=
  0 ≤ piece.1 ∧ piece.1 + piece.2.length ≤ memorySize

instance (piece : Int × List Byte) : Decidable (InMemory piece) :=
  inferInstanceAs (Decidable (_ ∧ _))

inductive RunStop where
  /-- The file cannot be opened. -/
  | noFile
  | load (stop : LoadStop)
  /-- A store outside `mainMemory`. -/
  | outside

/-- `new AddrSpace`, `Load`, and `Execute` up to `Machine::Run`.  `numPages` is
not initialised before. -/
def runProgram (host : Host World) (fileName stack : List Byte)
    (numPages : Word) (machine : Machine) (state : HostState World) :
    Except RunStop Machine :=
  match load host fileName stack ⟨state, numPages, []⟩ with
  | (.error stop, _) => .error (.load stop)
  | (.ok false, _) => .error .noFile
  | (.ok true, loaded) =>
    if few : loaded.numPages.toNat ≤ numPhysPages then
      if ∀ piece ∈ loaded.written, InMemory piece then
        let memory := stored (cleared machine.mainMemory) loaded.written
        let machine := { machine with mainMemory := memory }
        .ok (restoreState (machine.initRegisters loaded.numPages)
          loaded.numPages few)
      else
        .error .outside
    else
      -- `Load` has checked it.
      .error (.load (.assertion .loadPages))

/-! ## The page table -/

variable {machine : Machine} {numPages : Word}

theorem getElem?_newEntries (vpn : Nat) :
    newEntries[vpn]? =
      if vpn < numPhysPages then
        some ⟨BitVec.ofNat 32 vpn, BitVec.ofNat 32 vpn, true, false, false,
          false⟩
      else
        none := by
  unfold newEntries
  rw [List.getElem?_map]
  split_ifs with inside
  · rw [List.getElem?_range inside]
    rfl
  · rw [List.getElem?_eq_none (by rw [List.length_range]; omega)]
    rfl

theorem frameOf_restoreState
    (noTlb : machine.translation.tlb = none)
    (few : numPages.toNat ≤ numPhysPages) (vpn : Nat) (writing : Bool) :
    Translation.frameOf (restoreState machine numPages few).translation.settings
        vpn writing =
      if vpn < numPages.toNat then .ok vpn
      else .error .addressErrorException := by
  simp only [restoreState, Translation.settings, noTlb, Option.map_none,
    Option.map_some, Translation.frameOf, List.getElem?_map,
    getElem?_newEntries]
  by_cases inside : vpn < numPages.toNat
  · have frame : vpn < numPhysPages := by omega
    have number : (BitVec.ofNat 32 vpn).toNat = vpn := by
      unfold numPhysPages at frame
      exact Nat.mod_eq_of_lt (by omega)
    rw [if_pos inside, if_pos inside, if_pos frame]
    simp [TranslationEntry.touch, TranslationEntry.frame, number, frame]
  · rw [if_neg inside, if_neg inside]

theorem physical_restoreState
    (noTlb : machine.translation.tlb = none)
    (few : numPages.toNat ≤ numPhysPages) (addr : Word) (writing : Bool) :
    (restoreState machine numPages few).translation.physical addr writing =
      if addr.toNat < numPages.toNat * pageSize then some addr.toNat
      else none := by
  unfold Translation.physical
  rw [frameOf_restoreState noTlb]
  have page : addr.toNat / pageSize < numPages.toNat ↔
      addr.toNat < numPages.toNat * pageSize :=
    Nat.div_lt_iff_lt_mul (by decide)
  by_cases inside : addr.toNat < numPages.toNat * pageSize
  · rw [if_pos (page.mpr inside), if_pos inside]
    exact congrArg some (Nat.div_add_mod' _ _)
  · rw [if_neg (fun less => inside (page.mp less)), if_neg inside]
    rfl

theorem separate_restoreState
    (noTlb : machine.translation.tlb = none)
    (few : numPages.toNat ≤ numPhysPages) :
    (restoreState machine numPages few).translation.Separate := by
  intro first second pageFrame firstFound secondFound
  rw [frameOf_restoreState noTlb] at firstFound secondFound
  split_ifs at firstFound
  split_ifs at secondFound
  exact Except.ok.inj (firstFound.trans secondFound.symm)

/-! ## The segments -/

def byteIn (piece : Int × List Byte) (address : Nat) : Option Byte :=
  if piece.1.toNat ≤ address then piece.2[address - piece.1.toNat]? else none

theorem storeAt_byteIn
    (memory : Nat → Byte) (piece : Int × List Byte) (address : Nat) :
    Machine.storeAt memory piece.1.toNat piece.2 address =
      (byteIn piece address).getD (memory address) := by
  unfold Machine.storeAt byteIn
  split_ifs
  · exact List.getD_eq_getElem?_getD
  · rfl

theorem stored_eq
    (memory : Nat → Byte) (written : List (Int × List Byte)) (address : Nat) :
    stored memory written address =
      (written.reverse.findSome? fun piece => byteIn piece address).getD
        (memory address) := by
  induction written generalizing memory with
  | nil => rfl
  | cons piece rest ih =>
    change stored (Machine.storeAt memory piece.1.toNat piece.2) rest address = _
    rw [ih, List.reverse_cons, List.findSome?_append, storeAt_byteIn]
    cases rest.reverse.findSome? fun piece => byteIn piece address with
    | some byte => rfl
    | none =>
      rw [List.findSome?_singleton]
      rfl

end AddrSpace

def Segment.byteFor (contents : List Byte) (segment : Segment) (address : Nat) :
    Option Byte :=
  let start := segment.virtualAddr.toInt.toNat
  if segment.Occupied ∧ start ≤ address ∧
      address - start < segment.size.toInt.toNat then
    contents[segment.inFileAddr.toInt.toNat + (address - start)]?
  else
    none

def NoffHeader.image (header : NoffHeader) (contents : List Byte)
    (address : Nat) : Byte :=
  (header.loaded.reverse.findSome? fun segment =>
    segment.byteFor contents address).getD 0

namespace AddrSpace

theorem byteIn_piece
    {contents : List Byte} {segment : Segment} (occupied : segment.Occupied)
    (address : Nat) :
    byteIn (piece contents segment) address =
      segment.byteFor contents address := by
  unfold byteIn piece Segment.byteFor
  dsimp only
  rw [getElem?_slice]
  split_ifs with above inside <;> simp_all

theorem findSome?_copied
    {contents : List Byte} {segments : List Segment} (address : Nat)
    (sought : ∀ segment ∈ segments, segment.Occupied →
      0 ≤ segment.inFileAddr.toInt) :
    (((copied segments).map (piece contents)).reverse.findSome? fun piece =>
        byteIn piece address) =
      segments.reverse.findSome? fun segment =>
        segment.byteFor contents address := by
  induction segments with
  | nil => rfl
  | cons segment rest ih =>
    rw [List.forall_mem_cons] at sought
    have later := ih sought.2
    rw [List.reverse_cons, List.findSome?_append, List.findSome?_singleton]
    unfold copied
    by_cases occupied : segment.Occupied
    · rw [if_pos occupied, if_pos (sought.1 occupied), List.map_cons,
        List.reverse_cons, List.findSome?_append, List.findSome?_singleton,
        byteIn_piece occupied, later]
    · have nothing : segment.byteFor contents address = none :=
        if_neg fun both => occupied both.1
      rw [if_neg occupied, later, nothing, Option.or_none]

structure Started (header : NoffHeader) (contents : List Byte)
    (machine : Machine) : Prop where
  sound : machine.Sound
  separate : machine.translation.Separate
  pc : machine.registers pcReg = 0
  nextPC : machine.registers nextPCReg = 4
  stack : (machine.registers Machine.stackReg).toInt =
    header.numPages.toNat * pageSize - 16
  bytes : ∀ addr : Word, machine.byteAt addr =
    if addr.toNat < header.numPages.toNat * pageSize then
      some (header.image contents addr.toNat)
    else
      none
  writable : ∀ addr : Word, (machine.translation.physical addr true).isSome =
    decide (addr.toNat < header.numPages.toNat * pageSize)

variable {machine : Machine} {header : NoffHeader} {contents : List Byte}

theorem started_of_stored
    (noTlb : machine.translation.tlb = none)
    (few : header.numPages.toNat ≤ numPhysPages)
    (sought : ∀ segment ∈ header.loaded, segment.Occupied →
      0 ≤ segment.inFileAddr.toInt) :
    Started header contents (restoreState (Machine.initRegisters
      { machine with
        mainMemory := stored (cleared machine.mainMemory)
          ((copied header.loaded).map (piece contents)) }
      header.numPages) header.numPages few) where
  sound := by
    refine ⟨rfl, ⟨r0, rfl⟩, ?_⟩
    change machine.translation.tlb.isSome = false
    rw [noTlb]
    rfl
  separate := separate_restoreState noTlb few
  pc := rfl
  nextPC := rfl
  stack := by
    rw [← toInt_stackReg machine few]
    rfl
  bytes := by
    intro addr
    unfold Machine.byteAt
    rw [physical_restoreState (by exact noTlb)]
    split_ifs with inside
    · have below : addr.toNat < memorySize := by
        unfold memorySize
        exact inside.trans_le (Nat.mul_le_mul_right pageSize few)
      refine congrArg some ?_
      change stored _ _ addr.toNat = _
      rw [stored_eq, findSome?_copied _ sought]
      unfold cleared NoffHeader.image
      rw [if_pos below]
    · rfl
  writable := by
    intro addr
    rw [physical_restoreState (by exact noTlb)]
    split_ifs with inside
    · exact (decide_eq_true inside).symm
    · exact (decide_eq_false inside).symm

theorem inMemory_piece
    (passes : header.Passes) (fits : Fits header) {segment : Segment}
    (member : segment ∈ copied header.loaded) :
    InMemory (piece contents segment) := by
  obtain ⟨nonnegative, within⟩ := fits.copied segment member
  obtain ⟨occupied, -⟩ := occupied_of_mem_copied member
  have few := passes.2
  have length : (piece contents segment).2.length ≤
      segment.size.toInt.toNat := List.length_take_le _ _
  have start : (piece contents segment).1 = segment.virtualAddr.toInt := rfl
  refine ⟨nonnegative, ?_⟩
  unfold Segment.limit Segment.Occupied memorySize numPhysPages pageSize at *
  omega

/-- The host opens the program file, serves it and closes it. -/
structure ProgramFile (host : Host World) (fileName : List Byte)
    (state : HostState World) (contents : List Byte) where
  fd : Int
  opened : HostState World
  file : HostFile host fd
  opens : openForReadWrite host fileName state = (fd, opened)
  isOpen : fd ≠ -1
  valid : file.valid opened.world
  holds : file.contents opened.world = contents
  closes : ∀ world, file.valid world → 0 ≤ (host.close fd world).1

def Readable (segments : List Segment) : Prop :=
  ∀ segment ∈ segments, segment.Occupied → 0 ≤ segment.inFileAddr.toInt ∧
    segment.inFileAddr.toInt + segment.size.toInt < 2 ^ 31

section Programs

variable {host : Host World} {fileName stack : List Byte}
variable {state : HostState World}

theorem copySegments_file
    {fd : Int} (file : HostFile host fd) {segments : List Segment}
    (readable : Readable segments) {loading : LoadState World}
    (valid : file.valid loading.host.world)
    (holds : file.contents loading.host.world = contents) :
    ∃ next, copySegments host ⟨fd, 0⟩ segments loading =
        (.ok (), ⟨next, loading.numPages,
          loading.written ++ (copied segments).map (piece contents)⟩) ∧
      file.valid next.world := by
  induction segments generalizing loading with
  | nil =>
    refine ⟨loading.host, ?_, valid⟩
    rw [copied, List.map_nil, List.append_nil]
    rfl
  | cons segment rest ih =>
    obtain ⟨here, later⟩ := List.forall_mem_cons.mp readable
    unfold copySegments copied
    by_cases occupied : segment.Occupied
    · obtain ⟨nonnegative, below⟩ := here occupied
      obtain ⟨size, isSize⟩ := Int.eq_ofNat_of_zero_le occupied.le
      obtain ⟨start, isStart⟩ := Int.eq_ofNat_of_zero_le nonnegative
      obtain ⟨world, wasRead, nextValid, kept⟩ :=
        @file.openFile_readAt _ _ _ _ valid 0 start [] size _ (by omega) rfl
      have isPiece : piece contents segment = (segment.virtualAddr.toInt,
          overlay [] (slice (file.contents loading.host.world) start size)
            0) := by
        unfold piece
        rw [isStart, isSize, holds]
        simp [overlay]
      rw [if_pos occupied, if_pos occupied, if_pos nonnegative, isSize,
        isStart, wasRead, List.map_cons, isPiece, List.append_cons]
      exact ih later nextValid (kept.trans holds)
    · rw [if_neg occupied, if_neg occupied]
      exact ih later valid holds

/-- `Load` succeeds, and has copied each segment to its place. -/
theorem ProgramFile.load
    {filler : List Byte}
    (program : ProgramFile host fileName state (header.bytes ++ filler))
    (passes : header.Passes) (readable : Readable header.loaded)
    (isStack : stack.length = NoffHeader.byteSize) (numPages : Word) :
    ∃ closed, AddrSpace.load host fileName stack ⟨state, numPages, []⟩ =
      (.ok true, ⟨closed, header.numPages,
        (copied header.loaded).map (piece (header.bytes ++ filler))⟩) := by
  obtain ⟨fd, opened, file, opens, isOpen, valid, holds, closes⟩ := program
  have front : slice (file.contents opened.world) 0 NoffHeader.byteSize =
      header.bytes := by
    rw [holds, ← length_bytes header]
    exact List.take_left
  obtain ⟨world, headerRead, nextValid, kept⟩ :=
    file.openFile_readAt valid 0 stack (by decide) front
  rw [overlay_full ((length_bytes header).trans isStack.symm)] at headerRead
  obtain ⟨next, copies, lastValid⟩ := @copySegments_file _ _ host fd file _
    readable ⟨{ opened with world := world }, header.numPages, []⟩ nextValid
    (kept.trans holds)
  rw [load_of_header opens isOpen headerRead, ofBytes_bytes,
    loadSegments_of_passes passes, copies]
  have closed : hostClose host fd next = .ok ⟨_, _⟩ :=
    if_pos (closes next.world lastValid)
  dsimp only
  rw [closed]
  exact ⟨_, rfl⟩

/-- A program whose header passes the checks of `Load` and stays inside its
address space starts with the image that its file describes. -/
theorem runProgram_starts
    (program : ProgramFile host fileName state contents) {filler : List Byte}
    (isFile : contents = header.bytes ++ filler)
    (passes : header.Passes) (fits : Fits header)
    (readable : Readable header.loaded)
    (noTlb : machine.translation.tlb = none)
    (isStack : stack.length = NoffHeader.byteSize) (numPages : Word) :
    ∃ started,
      runProgram host fileName stack numPages machine state = .ok started ∧
      Started header contents started := by
  subst isFile
  obtain ⟨closed, loads⟩ := program.load passes readable isStack numPages
  have inside : ∀ part ∈ (copied header.loaded).map
      (piece (header.bytes ++ filler)), InMemory part := by
    intro part isPart
    obtain ⟨segment, member, rfl⟩ := List.mem_map.mp isPart
    exact inMemory_piece passes fits member
  unfold runProgram
  rw [loads]
  dsimp only
  rw [dif_pos passes.2, if_pos inside]
  exact ⟨_, rfl, started_of_stored noTlb passes.2
    fun segment member occupied => (readable segment member occupied).1⟩

end Programs

def codeHeader (size : Word) : NoffHeader :=
  ⟨noffMagic, ⟨0, 52, size⟩, ⟨0, 0, 0⟩, ⟨0, 0, 0⟩, ⟨0, 0, 0⟩⟩

def newMachine : Machine :=
  ⟨fun _ => 0, fun _ => 0, ⟨none, none⟩⟩

def helloFile (contents : List Byte) :
    ProgramFile oneFileHost [104, 105] ⟨⟨contents, 9⟩, []⟩ contents where
  fd := 2
  opened := ⟨⟨contents, 0⟩, [2]⟩
  file := oneFile 2
  opens := rfl
  isOpen := by decide
  valid := trivial
  holds := rfl
  closes _ _ := le_refl 0

theorem runProgram_starts_code :
    ∃ started, runProgram oneFileHost [104, 105] (List.replicate 52 7) 5
        newMachine ⟨⟨(codeHeader 4).bytes ++ [0x0c, 0, 0, 0], 9⟩, []⟩ =
        .ok started ∧
      Started (codeHeader 4) ((codeHeader 4).bytes ++ [0x0c, 0, 0, 0])
        started := by
  refine runProgram_starts (helloFile _) rfl ⟨rfl, by decide⟩ ?_ ?_ rfl rfl 5
  · exact fits_of_packed (by decide) (by decide) (by decide)
  · unfold Readable
    decide

end AddrSpace

end Nachos
