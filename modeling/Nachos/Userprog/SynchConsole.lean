import Nachos.Lib.Utility
import Nachos.Threads.Guarded

/-!
# Console input

`SynchConsoleInput` of `userprog/synchconsole.cc` over the device `ConsoleInput`
of `machine/console.cc`.  The host answers each poll as it likes, and each read
with the next byte of its input, or with nothing at the end of it.
-/

namespace Nachos

open Foundation

variable {Thread : Type}

/-- `(char) EOF`, which is also what a `char` holds that was read as `0xFF`. -/
def eof : Byte := 0xFF

/-- `incoming == EOF`: the `char` is converted to an `int`. -/
def isEof (char : Byte) : Bool :=
  decide (char.toInt = -1)

theorem isEof_iff (char : Byte) : isEof char = true ↔ char = eof := by
  revert char
  decide

theorem isEof_eof : isEof eof = true :=
  (isEof_iff eof).mpr rfl

/-- `ConsoleInput`.  `interrupts` counts the pending `ConsoleReadInt`s;
`remaining` is what the host has not delivered yet; `ended` tells that it has
reported the end of the file. -/
structure ConsoleInput where
  incoming : Byte
  interrupts : Nat
  remaining : List Byte
  ended : Bool

namespace ConsoleInput

def create (input : List Byte) : ConsoleInput :=
  ⟨eof, 1, input, false⟩

def schedule (console : ConsoleInput) : ConsoleInput :=
  { console with interrupts := console.interrupts + 1 }

/-- `ConsoleInput::CallBack`, where `ready` is the answer of `PollFile`: the
characters read, and whether `callWhenAvail` is called. -/
def callBack (console : ConsoleInput) (ready : Bool) :
    Except Fault (Bool × List Byte × ConsoleInput) := do
  assertThat (isEof console.incoming) .consoleIncoming
  if !ready then
    return (false, [], console.schedule)
  else
    match console.remaining with
    | [] => return (true, [], { console with ended := true })
    | char :: rest =>
      return (true, [char], { console with
        incoming := char
        remaining := rest })

def takeInterrupt (console : ConsoleInput) : ConsoleInput :=
  { console with interrupts := console.interrupts - 1 }

def getChar (console : ConsoleInput) : Byte × ConsoleInput :=
  let char := console.incoming
  let console := if !isEof console.incoming then console.schedule else console
  (char, { console with incoming := eof })

end ConsoleInput

/-- `SynchConsoleInput`, and where each thread is; the frame of a call is its
variable `ch`.  The last three fields are a record of the characters that the
device has read, of those that `ConsoleInput::GetChar` has returned and to whom,
and of what the calls of each thread have returned. -/
structure SynchConsoleInputUse (Thread : Type) where
  guarded : GuardedUse Thread (Option Byte)
  console : ConsoleInput
  read : List Byte
  taken : List (Thread × Byte)
  returned : Thread → List Byte

namespace SynchConsoleInputUse

def create (input : List Byte) : SynchConsoleInputUse Thread :=
  ⟨.create, .create input, [], [], fun _ => []⟩

inductive Event (Thread : Type) where
  /-- A step of the lock or of the semaphore. -/
  | guarded (event : GuardedUse.Event Thread (Option Byte))
  /-- Go on to `waitFor->P()`. -/
  | begin (thread : Thread)
  /-- `ch = consoleInput->GetChar()`. -/
  | getChar (thread : Thread)
  /-- A `ConsoleReadInt`; `ready` is the answer to the poll. -/
  | interrupt (ready : Bool)

def Allows (use : SynchConsoleInputUse Thread) : Event Thread → Prop
  | .guarded event =>
    use.guarded.Allows event ∧
      ∀ thread frame, event = .call thread frame → frame = none
  | .begin thread => use.guarded.task thread = .entered none
  | .getChar thread => use.guarded.task thread = .passed none
  | .interrupt _ => 0 < use.console.interrupts

section

variable [DecidableEq Thread]

def returns (returned : Thread → List Byte) :
    GuardedUse.Event Thread (Option Byte) → Thread → List Byte
  | .released thread char =>
    Function.update returned thread (returned thread ++ char.toList)
  | .call _ _ | .lock _ | .acquired _ _ | .P _ _ | .resume _ _
  | .release _ _ => returned

def perform (use : SynchConsoleInputUse Thread) :
    Event Thread → Except Fault (SynchConsoleInputUse Thread)
  | .guarded event => do
    let guarded ← use.guarded.perform event
    return { use with
      guarded := guarded
      returned := returns use.returned event }
  | .begin thread =>
    return { use with
      guarded := use.guarded.moveTo thread (.requested none) }
  | .getChar thread =>
    let (char, console) := use.console.getChar
    return { use with
      guarded := use.guarded.moveTo thread (.finished (some char))
      console := console
      taken := use.taken ++ [(thread, char)] }
  | .interrupt ready => do
    let (available, chars, console) ← use.console.takeInterrupt.callBack ready
    return { use with
      guarded := if available then use.guarded.V else use.guarded
      console := console
      read := use.read ++ chars }

def system (input : List Byte) :
    TransitionSystem (SynchConsoleInputUse Thread) (Event Thread) where
  start use := use = create input
  step use event next := use.Allows event ∧ use.perform event = .ok next

end

/-! ## The invariant -/

def result : GuardedTask (Option Byte) → List Byte
  | .finished char | .releasing char => char.toList
  | .idle | .acquiring _ | .entered _ | .requested _ | .waiting _
  | .passed _ => []

def Unused : GuardedTask (Option Byte) → Prop
  | .acquiring char | .entered char | .requested char | .waiting char
  | .passed char => char = none
  | .idle | .finished _ | .releasing _ => True

def chars (use : SynchConsoleInputUse Thread) : List Byte :=
  use.taken.map Prod.snd

/-- The device has called `callWhenAvail`, and `GetChar` is due. -/
structure Offered (console : ConsoleInput) (read chars : List Byte) :
    Prop where
  interrupts : console.interrupts = 0
  alive : eof ∉ chars
  offer :
    console.ended = false ∧ read = chars ++ [console.incoming] ∨
      console.ended = true ∧ console.incoming = eof ∧ read = chars ∧
        console.remaining = []

structure Resting (console : ConsoleInput) (read chars : List Byte) :
    Prop where
  incoming : console.incoming = eof
  stage :
    console.interrupts = 1 ∧ console.ended = false ∧ chars = read ∧
        eof ∉ read ∨
      console.interrupts = 0 ∧ console.ended = true ∧
        chars = read ++ [eof] ∧ eof ∉ read ∧ console.remaining = [] ∨
      console.interrupts = 0 ∧ console.ended = false ∧ chars = read ∧
        eof ∈ read

def Quiet (value : Int) (console : ConsoleInput) (read chars : List Byte) :
    Prop :=
  value = 0 ∧ Resting console read chars ∨
    value = 1 ∧ Offered console read chars

structure Sound [DecidableEq Thread] (input : List Byte)
    (use : SynchConsoleInputUse Thread) : Prop where
  guarded : use.guarded.Sound
  frames : ∀ thread, Unused (use.guarded.task thread)
  device : use.guarded.Attends GuardedTask.passed?
    (fun _ => use.guarded.semaphore.semaphore.value = 0 ∧
      Offered use.console use.read use.chars)
    (Quiet use.guarded.semaphore.semaphore.value use.console use.read
      use.chars)
  stream : use.read ++ use.console.remaining = input
  results : ∀ thread,
    (use.taken.filter (fun entry => entry.1 = thread)).map Prod.snd =
      use.returned thread ++ result (use.guarded.task thread)

namespace Sound

variable [DecidableEq Thread] {input : List Byte}
variable {use : SynchConsoleInputUse Thread} {thread : Thread}

/-- A thread goes on, and neither the device nor the value of the semaphore
changes. -/
theorem moveTo
    (sound : use.Sound input)
    {guarded : GuardedUse Thread (Option Byte)}
    {current task : GuardedTask (Option Byte)}
    (guardedSound : (guarded.moveTo thread task).Sound)
    (sameTask : guarded.task = use.guarded.task)
    (sameValue : guarded.semaphore.semaphore.value =
      use.guarded.semaphore.semaphore.value)
    (located : use.guarded.task thread = current)
    (passed : task.passed? = current.passed?) (unused : Unused task)
    {returned : Thread → List Byte}
    (same : ∀ other, other ≠ thread → returned other = use.returned other)
    (results : returned thread ++ result task =
      use.returned thread ++ result current) :
    { use with
      guarded := guarded.moveTo thread task
      returned := returned }.Sound input := by
  have sameUpdate :
      (guarded.moveTo thread task).task =
        (use.guarded.moveTo thread task).task := by
    unfold GuardedUse.moveTo
    rw [sameTask]
  refine ⟨guardedSound, ?_, ?_, sound.stream, ?_⟩
  · dsimp only
    rw [sameUpdate]
    exact (Function.forall_update_iff use.guarded.task (fun _ task =>
      Unused task)).mpr ⟨unused, fun other _ => sound.frames other⟩
  · have moved := sound.device.moveTo located passed
    rw [← sameValue] at moved
    refine moved.imp ?_ (fun _ => id) id
    intro other
    exact congrArg (fun task => (task other).passed?) sameUpdate
  · dsimp only
    rw [sameUpdate]
    refine (Function.forall_update_iff use.guarded.task (fun other task =>
      (use.taken.filter (fun entry => entry.1 = other)).map Prod.snd =
        returned other ++ result task)).mpr ⟨?_, fun other different => ?_⟩
    · rw [results, ← located]
      exact sound.results thread
    · rw [same other different]
      exact sound.results other

theorem testP
    (sound : use.Sound input) {char : Option Byte}
    {event : GuardedUse.Event Thread (Option Byte)}
    (isTest : event = .P thread char ∨ event = .resume thread char)
    (allowed : use.guarded.Allows event) :
    ∃ guarded, use.guarded.perform event = .ok guarded ∧
      { use with guarded := guarded }.Sound input := by
  obtain ⟨awaits, taken, semaphore, performed, tested, guardedSound⟩ :=
    sound.guarded.testP isTest allowed
  have notPassed := GuardedTask.passed_of_awaiting awaits
  have unused : char = none := by
    have frame := sound.frames thread
    cases task : use.guarded.task thread with
    | requested | waiting =>
      rw [task] at awaits frame
      cases awaits
      exact frame
    | idle | acquiring | entered | passed | finished | releasing =>
      rw [task] at awaits
      cases awaits
  have noResult : result (use.guarded.task thread) = [] := by
    cases task : use.guarded.task thread with
    | finished | releasing =>
      rw [task] at awaits
      cases awaits
    | idle | acquiring | entered | requested | waiting | passed =>
      rfl
  refine ⟨_, performed, ?_⟩
  cases taken with
  | false =>
    have sameValue :
        semaphore.semaphore.value =
          use.guarded.semaphore.semaphore.value := by
      simpa using tested.value
    exact sound.moveTo guardedSound rfl sameValue rfl notPassed.symm unused
      (fun _ _ => rfl) (by rw [noResult]; rfl)
  | true =>
    have sole := sound.guarded.sole (GuardedTask.ofHolder_awaiting _ _ awaits)
    have nonzero := tested.taken_iff.mp rfl
    obtain ⟨zero, _⟩ | ⟨one, offered⟩ :=
      sound.device.quiet_of_sole GuardedTask.ofHolder_passed sole notPassed
    · exact (nonzero zero).elim
    · have zero : semaphore.semaphore.value = 0 := by
        rw [tested.value, one]
        rfl
      refine ⟨guardedSound, ?_, ?_, sound.stream, ?_⟩
      · exact (Function.forall_update_iff use.guarded.task (fun _ task =>
          Unused task)).mpr ⟨unused, fun other _ => sound.frames other⟩
      · refine GuardedUse.Attends.begins GuardedTask.ofHolder_passed ?_ rfl ?_
        · exact sole
        · exact ⟨zero, offered⟩
      · refine (Function.forall_update_iff use.guarded.task
          (fun other task =>
            (use.taken.filter (fun entry => entry.1 = other)).map Prod.snd =
              use.returned other ++ result task)).mpr
            ⟨?_, fun other _ => sound.results other⟩
        rw [sound.results thread, noResult]
        rfl

theorem rest_of_getChar
    {console : ConsoleInput} {read chars : List Byte}
    (offered : Offered console read chars) :
    Resting console.getChar.2 read (chars ++ [console.getChar.1]) ∧
      console.getChar.2.remaining = console.remaining := by
  obtain ⟨interrupts, alive, char | atEnd⟩ := offered
  · obtain ⟨ended, read⟩ := char
    by_cases isChar : isEof console.incoming = true
    · have same : console.getChar = (console.incoming, { console with
          incoming := eof }) := by
        simp [ConsoleInput.getChar, isChar]
      rw [same]
      refine ⟨⟨rfl, Or.inr (Or.inr ⟨interrupts, ended, read.symm, ?_⟩)⟩, rfl⟩
      rw [read, (isEof_iff _).mp isChar]
      exact List.mem_append_right _ List.mem_cons_self
    · have same : console.getChar = (console.incoming, { console with
          interrupts := console.interrupts + 1
          incoming := eof }) := by
        simp [ConsoleInput.getChar, isChar, ConsoleInput.schedule]
      rw [same]
      refine ⟨⟨rfl, Or.inl ⟨by simp [interrupts], ended, read.symm, ?_⟩⟩, rfl⟩
      rw [read, List.mem_append, List.mem_singleton, not_or]
      exact ⟨alive, fun isIncoming => isChar ((isEof_iff _).mpr isIncoming.symm)⟩
  · obtain ⟨ended, incoming, read, remaining⟩ := atEnd
    have same : console.getChar = (eof, { console with incoming := eof }) := by
      simp [ConsoleInput.getChar, incoming, isEof_eof]
    rw [same, read]
    exact ⟨⟨rfl, Or.inr (Or.inl ⟨interrupts, ended, rfl, alive, remaining⟩)⟩,
      rfl⟩

theorem getChar
    (sound : use.Sound input) (passed : use.guarded.task thread = .passed none) :
    ∃ next, use.perform (.getChar thread) = .ok next ∧ next.Sound input := by
  have holding : (use.guarded.task thread).isHolding = true := by
    rw [passed]
    rfl
  have sole := sound.guarded.sole holding
  obtain ⟨zero, offered⟩ := sound.device.busy thread none (by rw [passed]; rfl)
  obtain ⟨resting, remaining⟩ := rest_of_getChar offered
  refine ⟨_, rfl, sound.guarded.goOn passed ⟨rfl, rfl⟩ ⟨rfl, rfl⟩, ?_, ?_, ?_, ?_⟩
  · exact (Function.forall_update_iff use.guarded.task (fun _ task =>
      Unused task)).mpr ⟨trivial, fun other _ => sound.frames other⟩
  · refine GuardedUse.Attends.ends GuardedTask.ofHolder_passed sole rfl ?_
    refine Or.inl ⟨zero, ?_⟩
    unfold chars
    rw [List.map_append]
    exact resting
  · exact (congrArg (use.read ++ ·) remaining).trans sound.stream
  · refine (Function.forall_update_iff use.guarded.task (fun other task =>
      ((use.taken ++ [(thread, use.console.getChar.1)]).filter
        (fun entry => entry.1 = other)).map Prod.snd =
          use.returned other ++ result task)).mpr
        ⟨?_, fun other different => ?_⟩
    · have earlier := sound.results thread
      rw [passed] at earlier
      have isIncoming : use.console.getChar.1 = use.console.incoming := rfl
      rw [List.filter_append, List.map_append, earlier]
      simp [result, isIncoming]
    · rw [List.filter_append, List.map_append, sound.results other]
      simp [different.symm]

theorem polling
    (sound : use.Sound input) (pending : 0 < use.console.interrupts) :
    (∀ thread, (use.guarded.task thread).passed? = none) ∧
      use.guarded.semaphore.semaphore.value = 0 ∧
      use.console.incoming = eof ∧ use.console.interrupts = 1 ∧
      use.console.ended = false ∧ use.chars = use.read ∧ eof ∉ use.read := by
  have none : ∀ thread, (use.guarded.task thread).passed? = none := by
    intro thread
    cases passed : (use.guarded.task thread).passed? with
    | none =>
      rfl
    | some char =>
      have busy := (sound.device.busy thread char passed).2.interrupts
      omega
  refine ⟨none, ?_⟩
  obtain ⟨zero, incoming, stage⟩ | ⟨_, offered⟩ := sound.device.quiet none
  · obtain polls | completed | stopped := stage
    · obtain ⟨one, ended, taken, alive⟩ := polls
      exact ⟨zero, incoming, one, ended, taken, alive⟩
    · have interrupts := completed.1
      omega
    · have interrupts := stopped.1
      omega
  · have interrupts := offered.interrupts
    omega

/-- A poll keeps the invariant, whatever the host answers. -/
theorem interrupt
    (sound : use.Sound input) (pending : 0 < use.console.interrupts)
    (ready : Bool) :
    ∃ next, use.perform (.interrupt ready) = .ok next ∧ next.Sound input := by
  obtain ⟨none, zero, incoming, one, ended, taken, alive⟩ :=
    sound.polling pending
  have isIncoming : isEof use.console.takeInterrupt.incoming = true :=
    (isEof_iff _).mpr incoming
  have checked :
      assertThat (isEof use.console.takeInterrupt.incoming)
        .consoleIncoming = .ok () := by
    rw [isIncoming]
    rfl
  have untaken : eof ∉ use.chars := by
    rw [taken]
    exact alive
  have alone : ∀ {busy : Option Byte → Prop} {quiet : Prop}, quiet →
      use.guarded.Attends GuardedTask.passed? busy quiet := by
    intro busy quiet isQuiet
    refine ⟨fun thread char passed => ?_, fun _ => isQuiet⟩
    rw [none thread] at passed
    cases passed
  cases ready with
  | false =>
    have performed :
        use.perform (.interrupt false) = .ok { use with
          console := use.console.takeInterrupt.schedule
          read := use.read ++ [] } := by
      simp only [perform, ConsoleInput.callBack, checked, ok_bind]
      rfl
    rw [List.append_nil] at performed
    refine ⟨_, performed, sound.guarded, sound.frames, alone ?_, sound.stream,
      sound.results⟩
    refine Or.inl ⟨zero, incoming, Or.inl ⟨?_, ended, taken, alive⟩⟩
    change use.console.interrupts - 1 + 1 = 1
    omega
  | true =>
    have interrupts : use.console.interrupts - 1 = 0 := by omega
    have raised := sound.guarded.value_V zero
    cases remaining : use.console.remaining with
    | nil =>
      have performed :
          use.perform (.interrupt true) = .ok { use with
            guarded := use.guarded.V
            console := { use.console.takeInterrupt with ended := true }
            read := use.read ++ [] } := by
        simp only [perform, ConsoleInput.callBack, checked, ok_bind,
          show use.console.takeInterrupt.remaining = [] from remaining]
        rfl
      rw [List.append_nil] at performed
      refine ⟨_, performed, sound.guarded.V zero, sound.frames, ?_, sound.stream,
        sound.results⟩
      refine (alone ?_).imp (fun _ => rfl) (fun _ => id) id
      exact Or.inr ⟨raised, interrupts, untaken,
        Or.inr ⟨rfl, incoming, taken.symm, remaining⟩⟩
    | cons char rest =>
      have performed :
          use.perform (.interrupt true) = .ok { use with
            guarded := use.guarded.V
            console := { use.console.takeInterrupt with
              incoming := char
              remaining := rest }
            read := use.read ++ [char] } := by
        simp only [perform, ConsoleInput.callBack, checked, ok_bind,
          show use.console.takeInterrupt.remaining = char :: rest
            from remaining]
        rfl
      refine ⟨_, performed, sound.guarded.V zero, sound.frames, ?_, ?_,
        sound.results⟩
      · refine (alone ?_).imp (fun _ => rfl) (fun _ => id) id
        exact Or.inr ⟨raised, interrupts, untaken,
          Or.inl ⟨ended, congrArg (· ++ [char]) taken.symm⟩⟩
      · have stream := sound.stream
        rw [remaining] at stream
        dsimp only
        rw [List.append_assoc]
        exact stream

theorem perform_guarded
    {guarded : GuardedUse Thread (Option Byte)}
    {event : GuardedUse.Event Thread (Option Byte)}
    (performed : use.guarded.perform event = .ok guarded) :
    use.perform (.guarded event) = .ok { use with
      guarded := guarded
      returned := returns use.returned event } := by
  simp only [perform, performed, ok_bind]
  rfl

theorem guardedStep
    (sound : use.Sound input)
    {event : GuardedUse.Event Thread (Option Byte)}
    (allowed : use.Allows (.guarded event)) :
    ∃ next, use.perform (.guarded event) = .ok next ∧ next.Sound input := by
  obtain ⟨allowed, begins⟩ := allowed
  cases event with
  | call thread char =>
    have idle : use.guarded.task thread = .idle := allowed
    exact ⟨_, perform_guarded rfl,
      sound.moveTo (sound.guarded.call idle char) rfl rfl idle rfl
        (begins thread char rfl) (fun _ _ => rfl) rfl⟩
  | lock event =>
    obtain ⟨lock, performed, guardedSound⟩ := sound.guarded.lockStep allowed
    have guardedPerformed :
        use.guarded.perform (.lock event) =
          .ok { use.guarded with lock := lock } := by
      simp only [GuardedUse.perform, performed, ok_bind]
      rfl
    exact ⟨_, perform_guarded guardedPerformed, guardedSound, sound.frames,
      sound.device.imp (fun _ => rfl) (fun _ => id) id, sound.stream,
      sound.results⟩
  | acquired thread char =>
    obtain ⟨acquiring, holding⟩ := allowed
    have unused := sound.frames thread
    rw [acquiring] at unused
    exact ⟨_, perform_guarded rfl,
      sound.moveTo (sound.guarded.acquired acquiring holding char) rfl rfl
        acquiring rfl unused (fun _ _ => rfl) rfl⟩
  | P thread char =>
    obtain ⟨guarded, performed, next⟩ := sound.testP (Or.inl rfl) allowed
    exact ⟨_, perform_guarded performed, next⟩
  | resume thread char =>
    obtain ⟨guarded, performed, next⟩ := sound.testP (Or.inr rfl) allowed
    exact ⟨_, perform_guarded performed, next⟩
  | release thread char =>
    have finished : use.guarded.task thread = .finished char := allowed
    obtain ⟨lock, performed, guardedSound⟩ := sound.guarded.release finished
    exact ⟨_, perform_guarded performed,
      sound.moveTo guardedSound rfl rfl finished rfl trivial (fun _ _ => rfl)
        rfl⟩
  | released thread char =>
    obtain ⟨releasing, outside⟩ := allowed
    refine ⟨_, perform_guarded rfl,
      sound.moveTo (sound.guarded.released releasing outside) rfl rfl
        releasing rfl trivial ?_ ?_⟩
    · intro other different
      exact Function.update_of_ne different ..
    · simp [returns, result]

theorem step
    (sound : use.Sound input) {event : Event Thread}
    (allowed : use.Allows event) :
    ∃ next, use.perform event = .ok next ∧ next.Sound input := by
  cases event with
  | guarded event =>
    exact sound.guardedStep allowed
  | begin thread =>
    have entered : use.guarded.task thread = .entered none := allowed
    have goesOn : (use.guarded.moveTo thread (.requested none)).Sound :=
      sound.guarded.goOn entered ⟨rfl, rfl⟩ ⟨rfl, rfl⟩
    exact ⟨_, rfl, sound.moveTo goesOn rfl rfl entered rfl rfl
      (fun _ _ => rfl) rfl⟩
  | getChar thread =>
    exact sound.getChar allowed
  | interrupt ready =>
    exact sound.interrupt allowed ready

end Sound

variable [DecidableEq Thread] {input : List Byte}
variable {use : SynchConsoleInputUse Thread}

theorem sound_create (input : List Byte) :
    (create input : SynchConsoleInputUse Thread).Sound input where
  guarded := GuardedUse.sound_create
  frames := fun _ => trivial
  device := by
    refine ⟨?_, fun _ => Or.inl ⟨rfl, rfl, ?_⟩⟩
    · intro thread char passed
      cases passed
    · exact Or.inl ⟨rfl, rfl, rfl, List.not_mem_nil⟩
  stream := rfl
  results := fun _ => rfl

theorem sound_of_reachable
    (reachable : (system input).Reachable use) : use.Sound input := by
  refine reachable.invariant ?_ ?_
  · rintro state rfl
    exact sound_create input
  · rintro source event target sound ⟨allowed, performed⟩
    obtain ⟨next, stepped, nextSound⟩ := sound.step allowed
    cases stepped.symm.trans performed
    exact nextSound

/-- A poll is pending, a character that the device has read is not returned
yet, or the host has reported the end of the file. -/
def Live (use : SynchConsoleInputUse Thread) : Prop :=
  0 < use.console.interrupts ∨ use.chars.length < use.read.length ∨
    use.console.ended = true

structure Contract (input : List Byte) (use : SynchConsoleInputUse Thread) :
    Prop where
  /-- No `ASSERT` fails. -/
  safe : ∀ event, use.Allows event → ∃ next, use.perform event = .ok next
  /-- The characters are those of the input, and then `EOF`. -/
  order : use.chars <+: input ∨ use.chars = input ++ [eof]
  /-- Each call returns the character that was taken for it. -/
  results : ∀ thread,
    (use.taken.filter (fun entry => entry.1 = thread)).map Prod.snd =
      use.returned thread ++ result (use.guarded.task thread)
  live : use.Live

theorem Sound.offered_or_resting (sound : use.Sound input) :
    Offered use.console use.read use.chars ∨
      Resting use.console use.read use.chars := by
  by_cases none : ∀ thread, (use.guarded.task thread).passed? = none
  · obtain ⟨_, resting⟩ | ⟨_, offered⟩ := sound.device.quiet none
    · exact Or.inr resting
    · exact Or.inl offered
  · obtain ⟨thread, some⟩ := not_forall.mp none
    obtain ⟨char, passed⟩ := Option.ne_none_iff_exists'.mp some
    exact Or.inl (sound.device.busy thread char passed).2

theorem Sound.order (sound : use.Sound input) :
    use.chars <+: input ∨ use.chars = input ++ [eof] := by
  have prefixRead : use.read <+: input := ⟨_, sound.stream⟩
  obtain offered | resting := sound.offered_or_resting
  · left
    obtain ⟨_, read⟩ | ⟨_, _, read, _⟩ := offered.offer
    · exact (read ▸ List.prefix_append _ _).trans prefixRead
    · exact read ▸ prefixRead
  · obtain ⟨_, _, taken, _⟩ | ⟨_, _, taken, _, remaining⟩ |
      ⟨_, _, taken, _⟩ := resting.stage
    · exact Or.inl (taken ▸ prefixRead)
    · right
      rw [taken, ← sound.stream, remaining, List.append_nil]
    · exact Or.inl (taken ▸ prefixRead)

/-- The device is live as long as it has not read a byte `0xFF`. -/
theorem Sound.live_iff (sound : use.Sound input) :
    use.Live ↔ eof ∉ input.take use.chars.length := by
  have stream := sound.stream
  unfold Live
  obtain offered | resting := sound.offered_or_resting
  · have alive := offered.alive
    obtain ⟨_, read⟩ | ⟨ended, _, read, _⟩ := offered.offer
    · refine iff_of_true (Or.inr (Or.inl ?_)) ?_
      · rw [read]
        simp
      · rw [← stream, read, List.append_assoc, List.take_left]
        exact alive
    · refine iff_of_true (Or.inr (Or.inr ended)) ?_
      rw [← stream, read, List.take_left]
      exact alive
  · obtain ⟨interrupts, _, taken, alive⟩ | ⟨_, ended, taken, alive, remaining⟩ |
      ⟨interrupts, ended, taken, dead⟩ := resting.stage
    · refine iff_of_true (Or.inl (by omega)) ?_
      rw [← stream, taken, List.take_left]
      exact alive
    · refine iff_of_true (Or.inr (Or.inr ended)) ?_
      rw [← stream, remaining, List.append_nil]
      exact fun member => alive (List.mem_of_mem_take member)
    · refine iff_of_false ?_ ?_
      · rintro (pending | unread | finished)
        · omega
        · rw [taken] at unread
          exact lt_irrefl _ unread
        · rw [ended] at finished
          cases finished
      · rw [← stream, taken, List.take_left]
        exact not_not.mpr dead

/-- Console input does what it should exactly as long as none of the bytes that
`GetChar` has returned is `0xFF`. -/
theorem console_contract_iff
    (reachable : (system input).Reachable use) :
    use.Contract input ↔ eof ∉ input.take use.chars.length := by
  have sound := sound_of_reachable reachable
  rw [← sound.live_iff]
  refine ⟨fun contract => contract.live, fun live => ?_⟩
  refine ⟨?_, sound.order, sound.results, live⟩
  intro event allowed
  obtain ⟨next, performed, _⟩ := sound.step allowed
  exact ⟨next, performed⟩

/-- A thread calls `GetChar`, waits for the first byte of the input, and gets
it. -/
theorem reachable_after_call (char : Byte) (rest : List Byte) :
    ∃ use : SynchConsoleInputUse Nat,
      (system (char :: rest)).Reachable use ∧ use.chars = [char] ∧
        use.returned 1 = [char] ∧ use.read = [char] ∧
        use.console = (ConsoleInput.mk char 0 rest false).getChar.2 := by
  have step : ∀ {source target : SynchConsoleInputUse Nat} (event : Event Nat),
      (system (char :: rest)).Reachable source → source.Allows event →
      source.perform event = .ok target →
      (system (char :: rest)).Reachable target :=
    fun _ reachable allowed performed => reachable.step ⟨allowed, performed⟩
  have now : (system (char :: rest)).Reachable
      (create (char :: rest) : SynchConsoleInputUse Nat) := .start rfl
  have now := step (.guarded (.call 1 none)) now
    ⟨rfl, fun _ _ same => by cases same; rfl⟩ rfl
  have now := step (.guarded (.lock (.acquire 1))) now
    ⟨⟨⟨show LockPhase.outside ≠ .holding by decide, rfl⟩, Or.inl rfl⟩,
      fun _ _ same => by cases same⟩ rfl
  have now := step (.guarded (.lock (.assign 1))) now
    ⟨⟨⟨show LockPhase.passed false ≠ .holding by decide, rfl⟩, ⟨false, rfl⟩⟩,
      fun _ _ same => by cases same⟩ rfl
  have now := step (.guarded (.acquired 1 none)) now
    ⟨⟨rfl, rfl⟩, fun _ _ same => by cases same⟩ rfl
  have now := step (.begin 1) now rfl rfl
  have now := step (.guarded (.P 1 none)) now
    ⟨rfl, fun _ _ same => by cases same⟩ rfl
  have now := step (.interrupt true) now Nat.one_pos rfl
  have now := step (.guarded (.resume 1 none)) now
    ⟨⟨rfl, List.mem_singleton.mpr rfl⟩, fun _ _ same => by cases same⟩ rfl
  have now := step (.getChar 1) now rfl rfl
  have now := step (.guarded (.release 1 (some char))) now
    ⟨rfl, fun _ _ same => by cases same⟩ rfl
  have now := step (.guarded (.lock (.check 1))) now
    ⟨⟨rfl, rfl⟩, fun _ _ same => by cases same⟩ rfl
  have now := step (.guarded (.lock (.clear 1))) now
    ⟨⟨rfl, rfl⟩, fun _ _ same => by cases same⟩ rfl
  have now := step (.guarded (.lock (.V 1))) now
    ⟨⟨rfl, rfl⟩, fun _ _ same => by cases same⟩ rfl
  have now := step (.guarded (.released 1 (some char))) now
    ⟨⟨rfl, rfl⟩, fun _ _ same => by cases same⟩ rfl
  exact ⟨_, now, rfl, rfl, rfl, rfl⟩

/-- The device goes on after the letter `A`. -/
theorem console_contract_after_letter :
    ∃ use : SynchConsoleInputUse Nat,
      (system [65, 66]).Reachable use ∧ use.returned 1 = [65] ∧
        use.Contract [65, 66] := by
  obtain ⟨use, reachable, taken, returned, _⟩ := reachable_after_call 65 [66]
  refine ⟨use, reachable, returned, (console_contract_iff reachable).mpr ?_⟩
  rw [taken]
  decide

/-- After the byte `0xFF` the device is dead: no poll is pending, every
character read is returned, there is more input, and the host has not reported
its end. -/
theorem console_dead_after_eof_byte :
    ∃ use : SynchConsoleInputUse Nat,
      (system [0xFF, 65]).Reachable use ∧ use.returned 1 = [0xFF] ∧
        use.console = ⟨eof, 0, [65], false⟩ ∧ ¬ use.Live := by
  obtain ⟨use, reachable, taken, returned, read, console⟩ :=
    reachable_after_call 0xFF [65]
  refine ⟨use, reachable, returned, console, ?_⟩
  rw [Live, taken, read, console]
  decide

end SynchConsoleInputUse

end Nachos
