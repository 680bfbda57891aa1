import Nachos.Machine.CpuRuns
import Nachos.Stub.HostFile

/-!
# Loading a program

`AddrSpace::Load` of `userprog/addrspace.cc` believes the header of the
executable.  It checks the sum of the sizes, in 32 bits, and copies each segment
to the address that the header gives.
-/

namespace Nachos

open Foundation Stub

structure Segment where
  virtualAddr : Word
  inFileAddr : Word
  size : Word

structure NoffHeader where
  noffMagic : Word
  code : Segment
  initData : Segment
  readonlyData : Segment
  uninitData : Segment

def noffMagic : Word := 0xbadfad

def userStackSize : Word := 1024

def wordToHost (word : Word) : Word := word

namespace Segment

def ofWords (words : List Word) (index : Nat) : Segment :=
  ⟨words.getD index 0, words.getD (index + 1) 0, words.getD (index + 2) 0⟩

def words (segment : Segment) : List Word :=
  [segment.virtualAddr, segment.inFileAddr, segment.size]

def swap (segment : Segment) : Segment :=
  ⟨wordToHost segment.virtualAddr, wordToHost segment.inFileAddr,
    wordToHost segment.size⟩

def Occupied (segment : Segment) : Prop :=
  0 < segment.size.toInt

instance (segment : Segment) : Decidable segment.Occupied :=
  inferInstanceAs (Decidable (0 < _))

def limit (segment : Segment) : Int :=
  segment.virtualAddr.toInt + segment.size.toInt

end Segment

namespace NoffHeader

def ofBytes (bytes : List Byte) : NoffHeader :=
  let words := decodeWords bytes
  ⟨words.getD 0 0, .ofWords words 1, .ofWords words 4, .ofWords words 7,
    .ofWords words 10⟩

def byteSize : Nat := 52

def bytes (header : NoffHeader) : List Byte :=
  encodeWords (header.noffMagic :: (header.code.words ++ header.initData.words ++
    header.readonlyData.words ++ header.uninitData.words))

def swapHeader (header : NoffHeader) : NoffHeader :=
  ⟨wordToHost header.noffMagic, header.code.swap, header.initData.swap,
    header.readonlyData.swap, header.uninitData.swap⟩

def loaded (header : NoffHeader) : List Segment :=
  [header.code, header.initData, header.readonlyData]

def segments (header : NoffHeader) : List Segment :=
  header.loaded ++ [header.uninitData]

/-- The size of the address space, as `Load` adds it up. -/
def size (header : NoffHeader) : Word :=
  header.code.size + header.readonlyData.size + header.initData.size +
    header.uninitData.size + userStackSize

def numPages (header : NoffHeader) : Word :=
  BitVec.ofInt 32 (divRoundUp header.size.toNat pageSize)

def Passes (header : NoffHeader) : Prop :=
  header.noffMagic = Nachos.noffMagic ∧ header.numPages.toNat ≤ numPhysPages

end NoffHeader

namespace AddrSpace

inductive LoadStop where
  | assertion (assertion : Assertion)
  | abort (abort : Abort)

variable {World : Type}

/-- The host, `numPages`, and what was stored into `mainMemory`: where each piece
begins, and its bytes. -/
structure LoadState (World : Type) where
  host : HostState World
  numPages : Word
  written : List (Int × List Byte)

/-- The copies: `if (size > 0) executable->ReadAt(&mainMemory[virtualAddr], size,
inFileAddr)` for one segment after the other. -/
def copySegments (host : Host World) (executable : Stub.OpenFile) :
    List Segment → LoadState World → Except LoadStop Unit × LoadState World
  | [], state => (.ok (), state)
  | segment :: rest, state =>
    if segment.Occupied then
      match executable.readAt host [] segment.size.toInt
          segment.inFileAddr.toInt state.host with
      | .error abort => (.error (.abort abort), state)
      | .ok (_, bytes, next) =>
        copySegments host executable rest { state with
          host := next
          written :=
            state.written ++ [(segment.virtualAddr.toInt, bytes)] }
    else
      copySegments host executable rest state

def loadSegments (host : Host World) (executable : Stub.OpenFile)
    (noffH : NoffHeader) (state : LoadState World) :
    Except LoadStop Bool × LoadState World :=
  let noffH :=
    if noffH.noffMagic ≠ noffMagic ∧ wordToHost noffH.noffMagic = noffMagic then
      noffH.swapHeader
    else
      noffH
  if noffH.noffMagic = noffMagic then
    let state := { state with numPages := noffH.numPages }
    if state.numPages.toNat ≤ numPhysPages then
      match copySegments host executable noffH.loaded state with
      | (.error stop, state) => (.error stop, state)
      | (.ok (), state) =>
        match hostClose host executable.file state.host with
        | .error abort => (.error (.abort abort), state)
        | .ok closed => (.ok true, { state with host := closed })
    else
      (.error (.assertion .loadPages), state)
  else
    (.error (.assertion .noffMagic), state)

/-- `AddrSpace::Load`.  `noffH` is not initialised: it holds `stack`. -/
def load (host : Host World) (fileName stack : List Byte)
    (state : LoadState World) : Except LoadStop Bool × LoadState World :=
  let (fd, opened) := openForReadWrite host fileName state.host
  let state := { state with host := opened }
  if fd = -1 then
    (.ok false, state)
  else
    let executable : Stub.OpenFile := ⟨fd, 0⟩
    match executable.readAt host stack NoffHeader.byteSize 0 opened with
    | .error abort => (.error (.abort abort), state)
    | .ok (_, bytes, next) =>
      loadSegments host executable (.ofBytes bytes) { state with host := next }

/-- The host refuses to seek before the start of a file, and a read stores no
more than it was asked for. -/
structure HostReads (host : Host World) : Prop where
  lseek : ∀ fd offset world, offset < 0 → (host.lseek fd offset 0 world).1 < 0
  read : ∀ fd count world,
    (host.read fd count world).2.1.length ≤ count.toNat

/-- The file opens, and `Load` finds this header in it. -/
def ReadsHeader (host : Host World) (fileName stack : List Byte)
    (state : HostState World) (header : NoffHeader) : Prop :=
  ∃ fd opened count bytes next,
    openForReadWrite host fileName state = (fd, opened) ∧ fd ≠ -1 ∧
    Stub.OpenFile.readAt host ⟨fd, 0⟩ stack NoffHeader.byteSize 0 opened =
      .ok (count, bytes, next) ∧
    NoffHeader.ofBytes bytes = header

/-- Nothing is stored outside the pages of the address space, and if the program
is loaded then its stack starts above its segments. -/
structure StaysInside (header : NoffHeader)
    (outcome : Except LoadStop Bool × LoadState World) : Prop where
  written : ∀ start bytes, (start, bytes) ∈ outcome.2.written →
    ∀ index < bytes.length, 0 ≤ start + index ∧
      start + index < outcome.2.numPages.toNat * pageSize
  stack : outcome.1 = .ok true → ∀ machine : Machine,
    ∀ segment ∈ header.segments, segment.Occupied → segment.limit ≤
      ((machine.initRegisters outcome.2.numPages).registers
        Machine.stackReg).toInt

def Confined (header : NoffHeader) : Prop :=
  ∀ (World : Type) (host : Host World) (fileName stack : List Byte)
    (state : HostState World) (numPages : Word),
    HostReads host → ReadsHeader host fileName stack state header →
    StaysInside header (load host fileName stack ⟨state, numPages, []⟩)

def copied : List Segment → List Segment
  | [] => []
  | segment :: rest =>
    if segment.Occupied then
      if 0 ≤ segment.inFileAddr.toInt then segment :: copied rest else []
    else
      copied rest

structure Fits (header : NoffHeader) : Prop where
  copied : ∀ segment ∈ copied header.loaded,
    0 ≤ segment.virtualAddr.toInt ∧
      segment.limit ≤ header.numPages.toNat * pageSize
  stack : (∀ segment ∈ header.loaded, segment.Occupied →
      0 ≤ segment.inFileAddr.toInt) →
    ∀ segment ∈ header.segments, segment.Occupied →
      segment.limit ≤ header.numPages.toNat * pageSize - 16

variable {host : Host World} {executable : Stub.OpenFile}

theorem readAt_bounds
    (reads : HostReads host) {numBytes position count : Int}
    {bytes : List Byte} {state next : HostState World}
    (returned : executable.readAt host [] numBytes position state =
      .ok (count, bytes, next)) :
    0 ≤ position ∧ bytes.length ≤ numBytes.toNat := by
  obtain ⟨sought, seeks, returned⟩ := exists_of_bind_eq_ok returned
  cases returned
  refine ⟨?_, ?_⟩
  · by_contra negative
    unfold Stub.lseek at seeks
    dsimp only at seeks
    have refused := reads.lseek executable.file position state.world (by omega)
    rw [if_neg (Int.not_le.mpr refused)] at seeks
    cases seeks
  · have bounded := reads.read executable.file numBytes sought.world
    simpa [overlay] using bounded

theorem copySegments_written
    (reads : HostReads host) (segments : List Segment)
    (state : LoadState World) {start : Int} {bytes : List Byte}
    (stored : (start, bytes) ∈
      (copySegments host executable segments state).2.written) :
    (start, bytes) ∈ state.written ∨ ∃ segment ∈ copied segments,
      start = segment.virtualAddr.toInt ∧ bytes.length ≤ segment.size.toInt := by
  induction segments generalizing state with
  | nil => exact Or.inl stored
  | cons segment rest ih =>
    unfold copySegments at stored
    unfold copied
    by_cases occupied : segment.Occupied
    · rw [if_pos occupied] at stored ⊢
      cases returned : executable.readAt host [] segment.size.toInt
          segment.inFileAddr.toInt state.host with
      | error abort =>
        rw [returned] at stored
        exact Or.inl stored
      | ok result =>
        obtain ⟨count, piece, next⟩ := result
        obtain ⟨nonnegative, bounded⟩ := readAt_bounds reads returned
        rw [returned] at stored
        rw [if_pos nonnegative]
        rcases ih _ stored with
          earlier | ⟨other, member, isStart, short⟩
        · rcases List.mem_append.mp earlier with before | this
          · exact Or.inl before
          · cases List.mem_singleton.mp this
            unfold Segment.Occupied at occupied
            exact Or.inr ⟨segment, List.mem_cons_self, rfl, by omega⟩
        · exact Or.inr
            ⟨other, List.mem_cons_of_mem _ member, isStart, short⟩
    · rw [if_neg occupied] at stored ⊢
      exact ih state stored

theorem copySegments_sought
    (reads : HostReads host) (segments : List Segment)
    (state : LoadState World)
    (finished : (copySegments host executable segments state).1 = .ok ()) :
    ∀ segment ∈ segments, segment.Occupied →
      0 ≤ segment.inFileAddr.toInt := by
  induction segments generalizing state with
  | nil => exact fun _ impossible => (by cases impossible)
  | cons segment rest ih =>
    unfold copySegments at finished
    rw [List.forall_mem_cons]
    by_cases occupied : segment.Occupied
    · rw [if_pos occupied] at finished
      cases returned : executable.readAt host [] segment.size.toInt
          segment.inFileAddr.toInt state.host with
      | error abort =>
        rw [returned] at finished
        cases finished
      | ok result =>
        rw [returned] at finished
        exact ⟨fun _ => (readAt_bounds reads returned).1, ih _ finished⟩
    · rw [if_neg occupied] at finished
      exact ⟨fun impossible => absurd impossible occupied, ih state finished⟩

theorem copySegments_numPages
    (segments : List Segment) (state : LoadState World) :
    (copySegments host executable segments state).2.numPages =
      state.numPages := by
  induction segments generalizing state with
  | nil => rfl
  | cons segment rest ih =>
    unfold copySegments
    split_ifs
    · split
      · rfl
      · exact ih _
    · exact ih state

theorem loadSegments_of_passes
    {header : NoffHeader} (passes : header.Passes) (state : LoadState World) :
    loadSegments host executable header state =
      match copySegments host executable header.loaded
          { state with numPages := header.numPages } with
      | (.error stop, state) => (.error stop, state)
      | (.ok (), state) =>
        match hostClose host executable.file state.host with
        | .error abort => (.error (.abort abort), state)
        | .ok closed => (.ok true, { state with host := closed }) := by
  obtain ⟨magic, few⟩ := passes
  have noSwap : ¬ (header.noffMagic ≠ noffMagic ∧
      wordToHost header.noffMagic = noffMagic) := fun swap => swap.1 magic
  unfold loadSegments
  rw [if_neg noSwap, if_pos magic, if_pos few]

theorem loadSegments_of_not_passes
    {header : NoffHeader} (fails : ¬ header.Passes) (state : LoadState World) :
    ∃ stop after, loadSegments host executable header state =
        (.error stop, after) ∧ after.written = state.written := by
  have noSwap : ¬ (header.noffMagic ≠ noffMagic ∧
      wordToHost header.noffMagic = noffMagic) := fun swap => swap.1 swap.2
  unfold loadSegments
  rw [if_neg noSwap]
  by_cases magic : header.noffMagic = noffMagic
  · have many : ¬ header.numPages.toNat ≤ numPhysPages :=
      fun few => fails ⟨magic, few⟩
    rw [if_pos magic, if_neg many]
    exact ⟨_, _, rfl, rfl⟩
  · rw [if_neg magic]
    exact ⟨_, _, rfl, rfl⟩

theorem loadSegments_copies
    {header : NoffHeader} (passes : header.Passes) (state : LoadState World) :
    (loadSegments host executable header state).2.written =
        (copySegments host executable header.loaded
          { state with numPages := header.numPages }).2.written ∧
      (loadSegments host executable header state).2.numPages =
        header.numPages ∧
      ((loadSegments host executable header state).1 = .ok true →
        (copySegments host executable header.loaded
          { state with numPages := header.numPages }).1 = .ok ()) := by
  have kept := @copySegments_numPages World host executable header.loaded
    { state with numPages := header.numPages }
  rw [loadSegments_of_passes passes]
  generalize copySegments host executable header.loaded
    { state with numPages := header.numPages } = copies at kept ⊢
  obtain ⟨result, after⟩ := copies
  cases result with
  | error stop => exact ⟨rfl, kept, fun impossible => (by cases impossible)⟩
  | ok =>
    dsimp only
    cases hostClose host executable.file after.host with
    | error abort => exact ⟨rfl, kept, fun _ => rfl⟩
    | ok closed => exact ⟨rfl, kept, fun _ => rfl⟩

theorem load_of_header
    {fileName stack bytes : List Byte} {state opened next : HostState World}
    {numPages : Word} {fd count : Int}
    (opens : openForReadWrite host fileName state = (fd, opened))
    (isOpen : fd ≠ -1)
    (returned : Stub.OpenFile.readAt host ⟨fd, 0⟩ stack NoffHeader.byteSize 0
      opened = .ok (count, bytes, next)) :
    load host fileName stack ⟨state, numPages, []⟩ =
      loadSegments host ⟨fd, 0⟩ (.ofBytes bytes) ⟨next, numPages, []⟩ := by
  unfold load
  rw [opens]
  dsimp only
  rw [if_neg isOpen, returned]

theorem toInt_stackReg (machine : Machine) {numPages : Word}
    (few : numPages.toNat ≤ numPhysPages) :
    ((machine.initRegisters numPages).registers Machine.stackReg).toInt =
      numPages.toNat * pageSize - 16 := by
  unfold Machine.initRegisters numPhysPages pageSize at *
  rw [Machine.set_self, BitVec.toInt_sub, BitVec.toInt_mul,
    BitVec.toInt_eq_toNat_of_lt (by omega)]
  have small : ∀ value : Int, -16 ≤ value → value ≤ 16384 →
      value.bmod (2 ^ 32) = value := by
    intro value atLeast atMost
    exact Int.bmod_eq_of_le (by omega) (by omega)
  change (((numPages.toNat : Int) * 128).bmod (2 ^ 32) - 16).bmod (2 ^ 32) = _
  rw [small (numPages.toNat * 128) (by omega) (by omega),
    small _ (by omega) (by omega)]
  rfl

/-- Segments that fit are stored inside the address space, on any host. -/
theorem Fits.staysInside
    (reads : HostReads host) {header : NoffHeader}
    (fits : header.Passes → Fits header) (state : HostState World)
    (numPages : Word) :
    StaysInside header
      (loadSegments host executable header ⟨state, numPages, []⟩) := by
  by_cases passes : header.Passes
  · obtain ⟨sameWritten, isPages, finished⟩ :=
      @loadSegments_copies World host executable header passes
        ⟨state, numPages, []⟩
    refine ⟨?_, ?_⟩
    · intro start bytes stored index inside
      rw [sameWritten] at stored
      rw [isPages]
      rcases copySegments_written reads _ _ stored with
        impossible | ⟨segment, member, isStart, short⟩
      · cases impossible
      · obtain ⟨nonnegative, within⟩ := (fits passes).copied segment member
        unfold Segment.limit at within
        omega
    · intro loaded machine segment member occupied
      rw [isPages, toInt_stackReg machine passes.2]
      exact (fits passes).stack
        (copySegments_sought reads _ _ (finished loaded)) segment member occupied
  · obtain ⟨stop, after, stopped, nothing⟩ :=
      @loadSegments_of_not_passes World host executable header passes
        ⟨state, numPages, []⟩
    rw [stopped]
    refine ⟨?_, fun impossible => (by cases impossible)⟩
    intro start bytes stored
    rw [nothing] at stored
    cases stored

/-! ## A file for every header -/

theorem hostReads_oneFile : HostReads oneFileHost where
  lseek _ _ _ negative := negative
  read _ _ _ := List.length_take_le _ _

theorem length_bytes (header : NoffHeader) :
    header.bytes.length = NoffHeader.byteSize :=
  length_encodeWords _

theorem ofBytes_bytes (header : NoffHeader) :
    NoffHeader.ofBytes header.bytes = header := by
  unfold NoffHeader.ofBytes NoffHeader.bytes
  rw [decodeWords_encodeWords]
  rfl

theorem readAt_oneFileHost
    (executable : Stub.OpenFile) (numBytes : Int) {position : Int}
    (nonnegative : 0 ≤ position) (state : HostState OneFile) :
    ∃ count next, executable.readAt oneFileHost [] numBytes position state =
        .ok (count, slice state.world.contents position.toNat numBytes.toNat,
          next) ∧
      next.world.contents = state.world.contents := by
  simp only [Stub.OpenFile.readAt, Stub.lseek, oneFileHost, nonnegative,
    if_true, Stub.ok_bind]
  refine ⟨_, _, congrArg Except.ok (congrArg (Prod.mk _)
    (congrArg (· , _) ?_)), rfl⟩
  simp [overlay]

def piece (contents : List Byte) (segment : Segment) : Int × List Byte :=
  (segment.virtualAddr.toInt, slice contents segment.inFileAddr.toInt.toNat
    segment.size.toInt.toNat)

theorem copySegments_oneFile
    (segments : List Segment) (state : LoadState OneFile) :
    (copySegments oneFileHost executable segments state).2.written =
        state.written ++
          (copied segments).map (piece state.host.world.contents) ∧
      ((∀ segment ∈ segments, segment.Occupied →
          0 ≤ segment.inFileAddr.toInt) →
        (copySegments oneFileHost executable segments state).1 = .ok ()) := by
  induction segments generalizing state with
  | nil => exact ⟨(List.append_nil _).symm, fun _ => rfl⟩
  | cons segment rest ih =>
    unfold copySegments copied
    rw [List.forall_mem_cons]
    by_cases occupied : segment.Occupied
    · rw [if_pos occupied, if_pos occupied]
      by_cases nonnegative : 0 ≤ segment.inFileAddr.toInt
      · obtain ⟨count, next, returned, sameContents⟩ :=
          readAt_oneFileHost executable segment.size.toInt nonnegative
            state.host
        rw [returned, if_pos nonnegative]
        obtain ⟨written, finished⟩ := ih { state with
          host := next
          written := state.written ++
            [piece state.host.world.contents segment] }
        rw [sameContents, List.append_assoc] at written
        exact ⟨written, fun sought => finished sought.2⟩
      · have refused : ∃ abort, executable.readAt oneFileHost []
            segment.size.toInt segment.inFileAddr.toInt state.host =
              .error abort := by
          simp only [Stub.OpenFile.readAt, Stub.lseek, oneFileHost, nonnegative,
            if_false, error_bind]
          exact ⟨_, rfl⟩
        obtain ⟨abort, refused⟩ := refused
        rw [refused, if_neg nonnegative]
        exact ⟨(List.append_nil _).symm,
          fun sought => absurd (sought.1 occupied) nonnegative⟩
    · rw [if_neg occupied, if_neg occupied]
      obtain ⟨written, finished⟩ := ih state
      exact ⟨written, fun sought => finished sought.2⟩

theorem mem_of_mem_copied {segments : List Segment} {segment : Segment}
    (member : segment ∈ copied segments) : segment ∈ segments := by
  induction segments with
  | nil => exact member
  | cons other rest ih =>
    unfold copied at member
    split_ifs at member
    · rcases List.mem_cons.mp member with rfl | later
      · exact List.mem_cons_self
      · exact List.mem_cons_of_mem _ (ih later)
    · cases member
    · exact List.mem_cons_of_mem _ (ih member)

theorem occupied_of_mem_copied {segments : List Segment} {segment : Segment}
    (member : segment ∈ copied segments) :
    segment.Occupied ∧ 0 ≤ segment.inFileAddr.toInt := by
  induction segments with
  | nil => cases member
  | cons other rest ih =>
    unfold copied at member
    split_ifs at member with occupied nonnegative
    · rcases List.mem_cons.mp member with rfl | later
      · exact ⟨occupied, nonnegative⟩
      · exact ih later
    · cases member
    · exact ih member

theorem length_piece
    {contents : List Byte} (long : 2 ^ 32 ≤ contents.length) {segment : Segment}
    (occupied : segment.Occupied) (nonnegative : 0 ≤ segment.inFileAddr.toInt) :
    ((piece contents segment).2.length : Int) = segment.size.toInt := by
  have start := @BitVec.toInt_lt 32 segment.inFileAddr
  have size := @BitVec.toInt_lt 32 segment.size
  unfold Segment.Occupied at occupied
  unfold piece
  rw [length_slice (by omega)]
  omega

theorem loadSegments_oneFile
    {header : NoffHeader} (passes : header.Passes) {state : LoadState OneFile}
    (sought : ∀ segment ∈ header.loaded, segment.Occupied →
      0 ≤ segment.inFileAddr.toInt) :
    (loadSegments oneFileHost executable header state).1 = .ok true := by
  have finished := (@copySegments_oneFile executable header.loaded
    { state with numPages := header.numPages }).2 sought
  rw [loadSegments_of_passes passes]
  generalize copySegments oneFileHost executable header.loaded
    { state with numPages := header.numPages } = copies at finished ⊢
  obtain ⟨result, after⟩ := copies
  cases finished
  rfl

theorem fits_of_oneFile
    {header : NoffHeader} (passes : header.Passes) {host : HostState OneFile}
    {numPages : Word} (long : 2 ^ 32 ≤ host.world.contents.length)
    (staysInside : StaysInside header
      (loadSegments oneFileHost executable header ⟨host, numPages, []⟩)) :
    Fits header := by
  obtain ⟨inside, above⟩ := staysInside
  obtain ⟨sameWritten, isPages, -⟩ :=
    @loadSegments_copies OneFile oneFileHost executable header passes
      ⟨host, numPages, []⟩
  rw [isPages] at inside above
  refine ⟨?_, ?_⟩
  · intro segment member
    obtain ⟨occupied, nonnegative⟩ := occupied_of_mem_copied member
    have stored : piece host.world.contents segment ∈ (loadSegments oneFileHost
        executable header ⟨host, numPages, []⟩).2.written := by
      rw [sameWritten, (copySegments_oneFile _ _).1]
      exact List.mem_append_right _ (List.mem_map_of_mem member)
    have length := length_piece long occupied nonnegative
    have isStart : (piece host.world.contents segment).1 =
        segment.virtualAddr.toInt := rfl
    unfold Segment.Occupied at occupied
    unfold Segment.limit
    have inPiece := inside (piece host.world.contents segment).1
      (piece host.world.contents segment).2 stored
    have first := inPiece 0 (by omega)
    have last := inPiece (segment.size.toInt.toNat - 1) (by omega)
    omega
  · intro sought segment member occupied
    have bounded := above (loadSegments_oneFile passes sought)
      ⟨fun _ => 0, fun _ => 0, ⟨none, none⟩⟩ segment member occupied
    rwa [toInt_stackReg _ passes.2] at bounded

theorem readAt_header (header : NoffHeader) (filler : List Byte) :
    ∃ count next, Stub.OpenFile.readAt oneFileHost ⟨2, 0⟩ []
        NoffHeader.byteSize 0 ⟨⟨header.bytes ++ filler, 0⟩, [2]⟩ =
        .ok (count, header.bytes, next) ∧
      next.world.contents = header.bytes ++ filler := by
  have front : slice (header.bytes ++ filler) 0 NoffHeader.byteSize =
      header.bytes := by
    rw [← length_bytes header]
    exact List.take_left
  obtain ⟨count, next, returned, sameContents⟩ :=
    readAt_oneFileHost ⟨2, 0⟩ NoffHeader.byteSize (le_refl 0)
      ⟨⟨header.bytes ++ filler, 0⟩, [2]⟩
  refine ⟨count, next, ?_, sameContents⟩
  rw [returned]
  exact congrArg (fun bytes => Except.ok (count, bytes, next)) front

/-- The program of a header that passes the checks is loaded inside its address
space, from whatever file, just if the header fits. -/
theorem confined_iff_fits (header : NoffHeader) :
    Confined header ↔ (header.Passes → Fits header) := by
  constructor
  · intro confined passes
    -- The header stands at the start of a file with bytes for every segment.
    obtain ⟨filler, long⟩ : ∃ filler : List Byte, filler.length = 2 ^ 32 :=
      ⟨List.replicate (2 ^ 32) 0, List.length_replicate⟩
    have opens : openForReadWrite oneFileHost []
        ⟨⟨header.bytes ++ filler, 0⟩, []⟩ =
      (2, ⟨⟨header.bytes ++ filler, 0⟩, [2]⟩) := rfl
    obtain ⟨count, next, headerRead, sameContents⟩ :=
      readAt_header header filler
    have staysInside := confined OneFile oneFileHost [] []
      ⟨⟨header.bytes ++ filler, 0⟩, []⟩ 0 hostReads_oneFile
      ⟨2, _, _, _, _, opens, by decide, headerRead, ofBytes_bytes header⟩
    rw [load_of_header opens (by decide) headerRead, ofBytes_bytes]
      at staysInside
    refine fits_of_oneFile passes ?_ staysInside
    rw [sameContents, List.length_append]
    omega
  · rintro fits World host fileName stack state numPages reads
      ⟨fd, opened, count, bytes, next, opens, isOpen, returned, rfl⟩
    rw [load_of_header opens isOpen returned]
    exact Fits.staysInside reads fits next numPages

def total (header : NoffHeader) : Int :=
  header.code.size.toInt + header.readonlyData.size.toInt +
    header.initData.size.toInt + header.uninitData.size.toInt

theorem toNat_size
    {header : NoffHeader}
    (sizes : ∀ segment ∈ header.segments, 0 ≤ segment.size.toInt)
    (small : total header + 1024 ≤ memorySize) :
    (header.size.toNat : Int) = total header + 1024 := by
  have code := toInt_eq_toNat_of_nonneg (sizes header.code (by
    simp [NoffHeader.segments, NoffHeader.loaded]))
  have initData := toInt_eq_toNat_of_nonneg (sizes header.initData (by
    simp [NoffHeader.segments, NoffHeader.loaded]))
  have readonlyData := toInt_eq_toNat_of_nonneg (sizes header.readonlyData (by
    simp [NoffHeader.segments, NoffHeader.loaded]))
  have uninitData := toInt_eq_toNat_of_nonneg (sizes header.uninitData (by
    simp [NoffHeader.segments, NoffHeader.loaded]))
  unfold total memorySize numPhysPages pageSize at *
  have stack : userStackSize.toNat = 1024 := rfl
  unfold NoffHeader.size
  simp only [BitVec.toNat_add]
  omega

theorem numPages_enough
    {header : NoffHeader}
    (sizes : ∀ segment ∈ header.segments, 0 ≤ segment.size.toInt)
    (small : total header + 1024 ≤ memorySize) :
    total header + 1024 ≤ header.numPages.toNat * pageSize := by
  have size := toNat_size sizes small
  unfold NoffHeader.numPages
  rw [divRoundUp_natCast _ (by decide), BitVec.ofInt_natCast, BitVec.toNat_ofNat]
  unfold memorySize numPhysPages pageSize at *
  omega

/-- A linker that packs the segments into their total size makes a header that
fits. -/
theorem fits_of_packed
    {header : NoffHeader}
    (sizes : ∀ segment ∈ header.segments, 0 ≤ segment.size.toInt)
    (small : total header + 1024 ≤ memorySize)
    (packed : ∀ segment ∈ header.segments, 0 ≤ segment.virtualAddr.toInt ∧
      segment.limit ≤ total header) :
    Fits header := by
  have enough := numPages_enough sizes small
  refine ⟨fun segment member => ?_, fun _ segment member _ => ?_⟩
  · have isSegment : segment ∈ header.segments :=
      List.mem_append_left _ (mem_of_mem_copied member)
    obtain ⟨nonnegative, within⟩ := packed segment isSegment
    exact ⟨nonnegative, by omega⟩
  · obtain ⟨-, within⟩ := packed segment member
    omega

def farCode : NoffHeader :=
  ⟨noffMagic, ⟨0x10000, 52, 4⟩, ⟨0, 0, 0⟩, ⟨0, 0, 0⟩, ⟨0, 0, 0⟩⟩

/-- They are stored there, beyond the nine pages of the program. -/
theorem load_farCode :
    ¬ StaysInside farCode (load oneFileHost [] []
      ⟨⟨⟨farCode.bytes ++ [1, 2, 3, 4], 0⟩, []⟩, 0, []⟩) := by
  rintro ⟨inside, -⟩
  have outside := inside 0x10000 [1, 2, 3, 4] (by decide) 0 (by decide)
  have ninePages : (load oneFileHost [] []
      ⟨⟨⟨farCode.bytes ++ [1, 2, 3, 4], 0⟩, []⟩, 0, []⟩).2.numPages = 9 := by
    decide
  have nine : BitVec.toNat (9 : Word) = 9 := rfl
  rw [ninePages, nine] at outside
  unfold pageSize at outside
  omega

end AddrSpace

end Nachos
