import Nachos.Stub.Survival
import Nachos.Userprog.RoundTrip
import Nachos.Userprog.StringCopies

/-!
# When the kernel survives its file system calls
-/

namespace Nachos.Userprog

open Foundation Machine

variable {World : Type}

/-! ## Requests -/

inductive FileCall where
  | create
  | openFile
  | close
  | write
  | read
  | seek
  | remove

def FileCall.code : FileCall → SyscallCode
  | .create => .create
  | .openFile => .openFile
  | .close => .close
  | .write => .write
  | .read => .read
  | .seek => .seek
  | .remove => .remove

/-- The buffer of `limit + 1` bytes that `user2System` gives. -/
def padded (limit : Nat) (bytes : List Byte) : List Byte :=
  cString bytes ++ List.replicate (limit + 1 - (cString bytes).length) 0

/-- A file system call: the machine at the `syscall` instruction, and the bytes
at the address in register 4. -/
structure Request where
  machine : Machine
  fileCall : FileCall
  bytes : List Byte

namespace Request

variable (request : Request)

def argument (num : Fin numGPRegs) : Int :=
  (request.machine.operand num).toInt

def handle
    (platform : Platform World) (fileSystem : Stub.FileSystem World) :
    Except Stop (State World) :=
  exceptionHandler platform .syscallException ⟨request.machine, fileSystem⟩

/-- The call of `ksyscall.h` that the handler makes once it has its buffer. -/
def call (platform : Platform World) (world : World) : Stub.Call :=
  match request.fileCall with
  | .create => .create (padded maxString.toNat request.bytes)
  | .openFile =>
    .openFile (padded maxString.toNat request.bytes) (request.argument r5)
  | .close => .close (request.argument r4)
  | .write =>
    .write (padded (request.argument r5).toNat request.bytes)
      (request.argument r5) (request.argument r6)
  | .read =>
    .read ((List.range (request.argument r5).toNat).map
      (platform.garbage world)) (request.argument r5) (request.argument r6)
  | .seek => .seek (request.argument r4) (request.argument r5)
  | .remove => .remove (padded maxString.toNat request.bytes)

/-- What the `new char[]` of the handler answers.  For `SC_Write` the size is
one more than the `charCount`, as an `int`. -/
def allocation (platform : Platform World) (world : World) :
    Except Stop Bool :=
  match request.fileCall with
  | .create | .openFile | .remove =>
    platform.newArray (wrap (maxString + 1)) world
  | .write => platform.newArray (wrap (request.argument r5 + 1)) world
  | .read => platform.newArray (request.argument r5) world
  | .close | .seek => .ok true

def Supplies (limit : Int) : Prop :=
  request.machine.Holds (request.machine.operand r4) request.bytes ∧
    Covers limit.toNat request.bytes

def Accessible : Prop :=
  match request.fileCall with
  | .create | .openFile | .remove => request.Supplies maxString
  | .write => 0 ≤ request.argument r5 ∧ request.Supplies (request.argument r5)
  | .read =>
    0 ≤ request.argument r5 ∧
      Writable request.machine (request.machine.operand r4)
        (request.argument r5).toNat
  | .close | .seek => True

structure Fits : Prop where
  isCode : SyscallCode.ofInt (request.argument r2) = some request.fileCall.code
  ready : request.machine.translation.Ready
  accessible : request.Accessible

end Request

theorem Request.Fits.sized
    {request : Request} (fits : request.Fits) (platform : Platform World)
    (world : World) : (request.call platform world).Sized := by
  obtain ⟨machine, fileCall, bytes⟩ := request
  cases fileCall with
  | write => exact ⟨fits.accessible.1, BitVec.toInt_lt⟩
  | create | openFile | close | read | seek | remove => trivial

/-! ## Handlers and calls -/

def Answers (handled : Except Stop (State World)) :
    Except Stub.Abort (Int × Stub.FileSystem World) → Prop
  | .ok (result, next) =>
    ∃ machine, handled = .ok (State.answer ⟨machine, next⟩ result)
  | .error abort => handled = .error (.abort abort)

/-- A handler goes on after its allocation, answers -1 or throws. -/
def Serves (state : State World) (handled : Except Stop (State World))
    (reply : Except Stub.Abort (Int × Stub.FileSystem World)) :
    Except Stop Bool → Prop
  | .ok true => Answers handled reply
  | .ok false => handled = .ok (state.answer (-1))
  | .error stop => handled = .error stop

section Handlers

variable {platform : Platform World} {state : State World}

theorem withString_serves
    {limit : Int} {bytes : List Byte} (ready : state.machine.translation.Ready)
    (holds : state.machine.Holds (state.machine.operand r4) bytes)
    (nonnegative : 0 ≤ limit) (covers : Covers limit.toNat bytes)
    (call : List Byte → Stub.FileSystem World →
      Except Stub.Abort (Int × Stub.FileSystem World)) :
    Serves state (withString platform limit call state)
      (call (padded limit.toNat bytes) state.fileSystem)
      (platform.newArray (wrap (limit + 1)) state.world) := by
  obtain ⟨count, rfl⟩ := Int.eq_ofNat_of_zero_le nonnegative
  rw [Int.toNat_natCast] at covers ⊢
  cases isNew : platform.newArray (wrap (count + 1)) state.world with
  | error stop =>
    unfold Serves withString
    rw [user2System_natCast, isNew]
    rfl
  | ok allocated =>
    cases allocated with
    | false =>
      unfold Serves withString
      rw [user2System_natCast, isNew]
      rfl
    | true =>
      obtain ⟨machine, copied, -⟩ :=
        user2System_allocated ready holds covers isNew
      change Answers (withString platform count call state) _
      unfold withString
      rw [copied]
      change Answers (liftAbort (call (padded count bytes)
        state.fileSystem) >>= _) _
      cases call (padded count bytes) state.fileSystem with
      | error abort => rfl
      | ok reply => exact ⟨machine, rfl⟩

theorem withResult_serves
    (call : Stub.FileSystem World →
      Except Stub.Abort (Int × Stub.FileSystem World)) :
    Serves state (withResult call state) (call state.fileSystem)
      (.ok true) := by
  unfold Serves withResult
  cases call state.fileSystem with
  | error abort => rfl
  | ok reply => exact ⟨state.machine, rfl⟩

theorem exists_copyOut
    {machine : Machine} {addr : Word} {limit : Nat} {buffer : List Byte}
    (ready : machine.translation.Ready)
    (writable : Writable machine addr limit) :
    ∃ reply, copyOut machine limit addr buffer = .ok reply := by
  induction limit generalizing machine addr buffer with
  | zero => exact ⟨_, rfl⟩
  | succ limit ih =>
    have here := writable 0 (Nat.zero_lt_succ _)
    rw [BitVec.add_zero] at here
    obtain ⟨place, isPlace⟩ := Option.isSome_iff_exists.mp here
    obtain ⟨translation, written, settings, nextReady⟩ :=
      Machine.writeMem_mapped ready ((buffer.headD 0).signExtend 32) isPlace
    rw [copyOut_succ (writeByte_of_writeMem written)]
    split_ifs
    · exact ⟨_, rfl⟩
    · obtain ⟨reply, copied⟩ := @ih { machine with
          mainMemory := _, translation := translation } _ buffer.tail
          nextReady (writable.tail settings)
      rw [copied]
      exact ⟨_, rfl⟩

theorem solveRead_serves
    (ready : state.machine.translation.Ready)
    (nonnegative : 0 ≤ state.argument r5)
    (writable : Writable state.machine (state.machine.operand r4)
      (state.argument r5).toNat) :
    Serves state (solveRead platform state)
      (Stub.perform platform.toHost
        (.read ((List.range (state.argument r5).toNat).map
          (platform.garbage state.world)) (state.argument r5)
          (state.argument r6)) state.fileSystem)
      (platform.newArray (state.argument r5) state.world) := by
  cases isNew : platform.newArray (state.argument r5) state.world with
  | error stop =>
    simp only [Serves, solveRead, isNew]
    rfl
  | ok allocated =>
    cases allocated with
    | false =>
      simp only [Serves, solveRead, isNew]
      rfl
    | true =>
      simp only [Serves, solveRead, Stub.perform, isNew]
      cases Stub.sysRead platform.toHost
          ((List.range (state.argument r5).toNat).map
            (platform.garbage state.world)) (state.argument r5)
          (state.argument r6) state.fileSystem with
      | error abort => rfl
      | ok reply =>
        obtain ⟨result, buffer, fileSystem⟩ := reply
        obtain ⟨⟨count, machine⟩, copied⟩ :=
          @exists_copyOut _ _ _ buffer ready writable
        obtain ⟨charCount, isCount⟩ := Int.eq_ofNat_of_zero_le nonnegative
        rw [isCount, Int.toNat_natCast] at copied
        refine ⟨machine, ?_⟩
        rw [isCount]
        change (system2User state.machine buffer
          (state.machine.operand r4) charCount >>= _) = _
        rw [system2User_natCast, copied]
        rfl

end Handlers

theorem Request.Fits.serves
    {request : Request} (fits : request.Fits) (platform : Platform World)
    (fileSystem : Stub.FileSystem World) :
    Serves ⟨request.machine, fileSystem⟩ (request.handle platform fileSystem)
      (Stub.perform platform.toHost
        (request.call platform fileSystem.host.world) fileSystem)
      (request.allocation platform fileSystem.host.world) := by
  have handled : request.handle platform fileSystem =
      solve platform ⟨request.machine, fileSystem⟩ request.fileCall.code := by
    have isCode : SyscallCode.ofInt
        (State.argument ⟨request.machine, fileSystem⟩ r2) =
          some request.fileCall.code := fits.isCode
    unfold Request.handle exceptionHandler
    dsimp only
    rw [isCode]
  rw [handled]
  obtain ⟨-, ready, accessible⟩ := fits
  obtain ⟨machine, fileCall, bytes⟩ := request
  cases fileCall with
  | create | openFile =>
    exact @withString_serves _ platform ⟨machine, fileSystem⟩ _ _ ready
      accessible.1 (by decide) accessible.2 _
  | remove =>
    exact @withString_serves _ platform ⟨machine, fileSystem⟩ _ _ ready
      accessible.1 (by decide) accessible.2
      (fun fileName fileSystem =>
        .ok (Stub.sysRemove platform.toHost fileName fileSystem))
  | write =>
    exact @withString_serves _ platform ⟨machine, fileSystem⟩ _ _ ready
      accessible.2.1 accessible.1 accessible.2.2 _
  | read =>
    exact @solveRead_serves _ platform ⟨machine, fileSystem⟩ ready
      accessible.1 accessible.2
  | close | seek =>
    exact @withResult_serves _ ⟨machine, fileSystem⟩ _

/-- A handler that returns has had no buffer, or has passed its call on. -/
theorem Request.Fits.returned
    {request : Request} (fits : request.Fits) {platform : Platform World}
    {fileSystem : Stub.FileSystem World} {next : State World}
    (handled : request.handle platform fileSystem = .ok next) :
    (request.allocation platform fileSystem.host.world = .ok false ∧
        next = State.answer ⟨request.machine, fileSystem⟩ (-1)) ∨
      (request.allocation platform fileSystem.host.world = .ok true ∧
        ∃ machine result after,
          Stub.perform platform.toHost
              (request.call platform fileSystem.host.world) fileSystem =
            .ok (result, after) ∧
          next = State.answer ⟨machine, after⟩ result) := by
  have serves := fits.serves platform fileSystem
  rw [handled] at serves
  cases isNew : request.allocation platform fileSystem.host.world with
  | error stop =>
    rw [isNew] at serves
    cases serves
  | ok allocated =>
    rw [isNew] at serves
    cases allocated with
    | false => exact Or.inl ⟨rfl, Except.ok.inj serves⟩
    | true =>
      change Answers (.ok next) _ at serves
      cases called : Stub.perform platform.toHost
          (request.call platform fileSystem.host.world) fileSystem with
      | error abort =>
        rw [called] at serves
        cases serves
      | ok reply =>
        rw [called] at serves
        obtain ⟨machine, same⟩ := serves
        exact Or.inr ⟨rfl, machine, reply.1, reply.2, rfl, Except.ok.inj same⟩

/-! ## Whole sequences -/

/-- No allocation throws, and every call of the sequence that has its buffer is
permitted in the state it is made in. -/
def Safe (platform : Platform World) :
    List Request → Stub.FileSystem World → Prop
  | [], _ => True
  | request :: requests, fileSystem =>
    let call := request.call platform fileSystem.host.world
    (request.allocation platform fileSystem.host.world = .ok false ∧
        Safe platform requests fileSystem) ∨
      (request.allocation platform fileSystem.host.world = .ok true ∧
        Stub.Permitted platform.toHost fileSystem call ∧
        ∀ result next,
          Stub.perform platform.toHost call fileSystem = .ok (result, next) →
            Safe platform requests next)

section Sequences

variable {platform : Platform World} {contract : Stub.Contract platform.toHost}

end Sequences

end Nachos.Userprog
