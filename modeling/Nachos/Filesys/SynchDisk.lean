import Nachos.Machine.Disk
import Nachos.Threads.Guarded

/-!
# The synchronous disk

`filesys/synchdisk.cc` over the asynchronous disk of `machine/disk.cc`.  A
request transfers its data at once and schedules a `DiskInt`, which comes at any
later moment.  Latencies and statistics are left out.
-/

namespace Nachos

open Foundation

variable {Thread : Type}

inductive DiskRequest where
  | read (sectorNumber : Int)
  | write (sectorNumber : Int) (data : Sector)

namespace DiskRequest

def sectorNumber : DiskRequest → Int
  | .read sectorNumber | .write sectorNumber _ => sectorNumber

def apply (disk : DiskImage) : DiskRequest → DiskImage
  | .read _ => disk
  | .write sectorNumber data => Function.update disk sectorNumber.toNat data

def answer (disk : DiskImage) : DiskRequest → Option Sector
  | .read sectorNumber => some (disk sectorNumber.toNat)
  | .write _ _ => none

def writes? (sector : Nat) : DiskRequest → Option Sector
  | .read _ => none
  | .write sectorNumber data =>
    if sectorNumber.toNat = sector then some data else none

def lastWrite? (requests : List DiskRequest) (sector : Nat) : Option Sector :=
  requests.reverse.findSome? (writes? sector)

def replay (initial : DiskImage) (requests : List DiskRequest) : DiskImage :=
  requests.foldl apply initial

@[simp]
theorem replay_append_singleton
    (initial : DiskImage) (requests : List DiskRequest)
    (request : DiskRequest) :
    replay initial (requests ++ [request]) =
      request.apply (replay initial requests) := by
  simp [replay]

theorem replay_eq_lastWrite
    (initial : DiskImage) (requests : List DiskRequest) (sector : Nat) :
    replay initial requests sector =
      (lastWrite? requests sector).getD (initial sector) := by
  induction requests using List.reverseRecOn with
  | nil =>
    rfl
  | append_singleton earlier request ih =>
    rw [replay_append_singleton]
    unfold lastWrite? at ih ⊢
    rw [List.reverse_concat, List.findSome?_cons]
    cases request with
    | read other =>
      exact ih
    | write other data =>
      by_cases same : other.toNat = sector
      · simp [apply, writes?, same]
      · simp only [apply, writes?, if_neg same]
        rw [Function.update_of_ne (Ne.symm same)]
        exact ih

/-- `ReadSector` as the file system uses it is the call with no other thread
around. -/
theorem readSector_eq_answer
    (disk : DiskImage) {sectorNumber : Int}
    (inside : SynchDisk.inRange sectorNumber = true) :
    (SynchDisk.readSector disk sectorNumber).toOption =
      (read sectorNumber).answer disk := by
  unfold SynchDisk.readSector
  rw [inside]
  rfl

theorem writeSector_eq_apply
    (disk : DiskImage) {sectorNumber : Int}
    (inside : SynchDisk.inRange sectorNumber = true) (data : Sector) :
    SynchDisk.writeSector disk sectorNumber data.bytes =
      .ok ((write sectorNumber data).apply disk) := by
  unfold SynchDisk.writeSector
  rw [inside, dif_pos data.length_eq]
  rfl

end DiskRequest

/-- `Disk`: the UNIX file that holds the contents, and the pending `DiskInt`
interrupts, each with the number of the request that scheduled it. -/
structure DiskDevice where
  contents : DiskImage
  active : Bool
  interrupts : List Nat

namespace DiskDevice

def readRequest (disk : DiskDevice) (sectorNumber : Int) (serial : Nat) :
    Except Fault (Sector × DiskDevice) := do
  assertThat (!disk.active) .diskActive
  assertThat (SynchDisk.inRange sectorNumber) .diskRequest
  return (disk.contents sectorNumber.toNat, { disk with
    active := true
    interrupts := disk.interrupts ++ [serial] })

def writeRequest (disk : DiskDevice) (sectorNumber : Int) (data : Sector)
    (serial : Nat) : Except Fault DiskDevice := do
  assertThat (!disk.active) .diskActive
  assertThat (SynchDisk.inRange sectorNumber) .diskRequest
  return {
    contents := Function.update disk.contents sectorNumber.toNat data
    active := true
    interrupts := disk.interrupts ++ [serial] }

def request (disk : DiskDevice) (serial : Nat) :
    DiskRequest → Except Fault (Option Sector × DiskDevice)
  | .read sectorNumber => do
    let (data, disk) ← disk.readRequest sectorNumber serial
    return (some data, disk)
  | .write sectorNumber data => do
    let disk ← disk.writeRequest sectorNumber data serial
    return (none, disk)

/-- `Disk::CallBack`, less the call of the handler of the synchronous disk. -/
def callBack (disk : DiskDevice) (serial : Nat) : DiskDevice :=
  { disk with
    active := false
    interrupts := disk.interrupts.erase serial }

theorem request_eq
    {disk : DiskDevice} (idle : disk.active = false)
    {request : DiskRequest}
    (inside : SynchDisk.inRange request.sectorNumber = true) (serial : Nat) :
    disk.request serial request = .ok (request.answer disk.contents,
      ⟨request.apply disk.contents, true, disk.interrupts ++ [serial]⟩) := by
  cases request with
  | read sectorNumber =>
    have ranged : SynchDisk.inRange sectorNumber = true := inside
    simp only [DiskDevice.request, readRequest, idle, ranged]
    rfl
  | write sectorNumber data =>
    have ranged : SynchDisk.inRange sectorNumber = true := inside
    simp only [DiskDevice.request, writeRequest, idle, ranged]
    rfl

end DiskDevice

/-- The local variables of a call: what it was called with, and, once the
request is made, the number of the request and the data that was read. -/
structure SynchDiskCall where
  request : DiskRequest
  served : Option (Nat × Option Sector)

/-- `SynchDisk`, and where each thread is.  The last four fields are a record:
the calls in the order in which they got the lock, those that have made their
request, the requests whose interrupt has come, and the results. -/
structure SynchDiskUse (Thread : Type) where
  guarded : GuardedUse Thread SynchDiskCall
  disk : DiskDevice
  acquired : List DiskRequest
  issued : List DiskRequest
  completed : List Nat
  returned : List (Nat × Option Sector)

namespace SynchDiskUse

def create (initial : DiskImage) : SynchDiskUse Thread :=
  ⟨.create, ⟨initial, false, []⟩, [], [], [], []⟩

inductive Event (Thread : Type) where
  /-- A step of the lock or of the semaphore. -/
  | guarded (event : GuardedUse.Event Thread SynchDiskCall)
  /-- `disk->ReadRequest` or `disk->WriteRequest`. -/
  | request (thread : Thread) (call : SynchDiskCall)
  /-- Go on after `semaphore->P()`. -/
  | finish (thread : Thread) (call : SynchDiskCall)
  /-- A `DiskInt`: `Disk::CallBack` and `SynchDisk::CallBack`. -/
  | interrupt (serial : Nat)

def Begins : GuardedUse.Event Thread SynchDiskCall → Prop
  | .call _ call =>
    call.served = none ∧
      SynchDisk.inRange call.request.sectorNumber = true
  | .lock _ | .acquired _ _ | .P _ _ | .resume _ _ | .release _ _
  | .released _ _ => True

def Allows (use : SynchDiskUse Thread) : Event Thread → Prop
  | .guarded event => use.guarded.Allows event ∧ Begins event
  | .request thread call => use.guarded.task thread = .entered call
  | .finish thread call => use.guarded.task thread = .passed call
  | .interrupt serial => serial ∈ use.disk.interrupts

def acquires : GuardedUse.Event Thread SynchDiskCall → List DiskRequest
  | .acquired _ call => [call.request]
  | .call _ _ | .lock _ | .P _ _ | .resume _ _ | .release _ _
  | .released _ _ => []

def returns :
    GuardedUse.Event Thread SynchDiskCall → List (Nat × Option Sector)
  | .released _ call => call.served.toList
  | .call _ _ | .lock _ | .acquired _ _ | .P _ _ | .resume _ _
  | .release _ _ => []

section

variable [DecidableEq Thread]

def perform (use : SynchDiskUse Thread) :
    Event Thread → Except Fault (SynchDiskUse Thread)
  | .guarded event => do
    let guarded ← use.guarded.perform event
    return { use with
      guarded := guarded
      acquired := use.acquired ++ acquires event
      returned := use.returned ++ returns event }
  | .request thread call => do
    let serial := use.issued.length
    let (data, disk) ← use.disk.request serial call.request
    return { use with
      guarded := use.guarded.moveTo thread
        (.requested { call with served := some (serial, data) })
      disk := disk
      issued := use.issued ++ [call.request] }
  | .finish thread call =>
    return { use with guarded := use.guarded.moveTo thread (.finished call) }
  | .interrupt serial =>
    return { use with
      guarded := use.guarded.V
      disk := use.disk.callBack serial
      completed := use.completed ++ [serial] }

def system (initial : DiskImage) :
    TransitionSystem (SynchDiskUse Thread) (Event Thread) where
  start use := use = create initial
  step use event next := use.Allows event ∧ use.perform event = .ok next

theorem perform_guarded
    {use : SynchDiskUse Thread} {guarded : GuardedUse Thread SynchDiskCall}
    {event : GuardedUse.Event Thread SynchDiskCall}
    (performed : use.guarded.perform event = .ok guarded)
    (noCall : acquires event = []) (noResult : returns event = []) :
    use.perform (.guarded event) = .ok { use with guarded := guarded } := by
  simp only [perform, performed, ok_bind, noCall, noResult, List.append_nil]
  rfl

end

/-! ## The invariant -/

def Answered (initial : DiskImage) (issued : List DiskRequest)
    (request : DiskRequest) (served : Nat × Option Sector) : Prop :=
  issued[served.1]? = some request ∧
    served.2 = request.answer
      (DiskRequest.replay initial (issued.take served.1))

def CallSound (initial : DiskImage) (issued : List DiskRequest)
    (completed : List Nat) : GuardedTask SynchDiskCall → Prop
  | .idle => True
  | .acquiring call | .entered call =>
    call.served = none ∧ SynchDisk.inRange call.request.sectorNumber = true
  | .requested call | .waiting call =>
    ∃ served, call.served = some served ∧
      Answered initial issued call.request served
  | .passed call | .finished call | .releasing call =>
    ∃ served, call.served = some served ∧
      Answered initial issued call.request served ∧ served.1 ∈ completed

/-- No request is under way, and no interrupt has been left over. -/
structure Quiet (disk : DiskDevice) (value : Int) (issued : List DiskRequest)
    (completed : List Nat) : Prop where
  active : disk.active = false
  interrupts : disk.interrupts = []
  value : value = 0
  completed : completed = List.range issued.length

/-- The last request is under way, or its interrupt has come. -/
def Busy (disk : DiskDevice) (value : Int) (issued : List DiskRequest)
    (completed : List Nat) (call : SynchDiskCall) : Prop :=
  ∃ serial data, call.served = some (serial, data) ∧
    issued.length = serial + 1 ∧
    (disk.active = true ∧ disk.interrupts = [serial] ∧ value = 0 ∧
        completed = List.range serial ∨
      disk.active = false ∧ disk.interrupts = [] ∧ value = 1 ∧
        completed = List.range issued.length)

structure Sound (initial : DiskImage) (use : SynchDiskUse Thread) : Prop where
  guarded : use.guarded.Sound
  calls : ∀ thread,
    CallSound initial use.issued use.completed (use.guarded.task thread)
  device : use.guarded.Attends GuardedTask.awaiting?
    (Busy use.disk use.guarded.semaphore.semaphore.value use.issued
      use.completed)
    (Quiet use.disk use.guarded.semaphore.semaphore.value use.issued
      use.completed)
  contents : use.disk.contents = DiskRequest.replay initial use.issued
  order : use.guarded.Attends GuardedTask.entered?
    (fun call => use.acquired = use.issued ++ [call.request])
    (use.acquired = use.issued)
  returned : ∀ served ∈ use.returned,
    served.1 ∈ use.completed ∧
      ∃ request, Answered initial use.issued request served

theorem sound_create (initial : DiskImage) :
    (create initial : SynchDiskUse Thread).Sound initial where
  guarded := GuardedUse.sound_create
  calls := fun _ => trivial
  device := ⟨fun _ _ awaits => (by cases awaits), fun _ => ⟨rfl, rfl, rfl, rfl⟩⟩
  contents := rfl
  order := ⟨fun _ _ entered => (by cases entered), fun _ => rfl⟩
  returned := fun _ member => (List.not_mem_nil member).elim

section Frame

variable {initial : DiskImage} {issued : List DiskRequest}
variable {completed : List Nat}

theorem Answered.append
    {request : DiskRequest} {served : Nat × Option Sector}
    (answered : Answered initial issued request served)
    (next : DiskRequest) :
    Answered initial (issued ++ [next]) request served := by
  obtain ⟨listed, data⟩ := answered
  obtain ⟨within, _⟩ := List.getElem?_eq_some_iff.mp listed
  refine ⟨?_, ?_⟩
  · rw [List.getElem?_append_left within]
    exact listed
  · rw [List.take_append_of_le_length within.le]
    exact data

theorem CallSound.mono
    {nextIssued : List DiskRequest} {nextCompleted : List Nat}
    {task : GuardedTask SynchDiskCall}
    (sound : CallSound initial issued completed task)
    (answered : ∀ request served, Answered initial issued request served →
      Answered initial nextIssued request served)
    (more : completed ⊆ nextCompleted) :
    CallSound initial nextIssued nextCompleted task := by
  cases task with
  | idle | acquiring | entered =>
    exact sound
  | requested | waiting =>
    obtain ⟨served, isServed, isAnswered⟩ := sound
    exact ⟨served, isServed, answered _ _ isAnswered⟩
  | passed | finished | releasing =>
    obtain ⟨served, isServed, isAnswered, isCompleted⟩ := sound
    exact ⟨served, isServed, answered _ _ isAnswered, more isCompleted⟩

theorem CallSound.awaiting
    {task : GuardedTask SynchDiskCall} {call : SynchDiskCall}
    (sound : CallSound initial issued completed task)
    (awaits : task.awaiting? = some call) :
    ∃ served, call.served = some served ∧
      Answered initial issued call.request served := by
  cases task with
  | requested | waiting =>
    cases awaits
    exact sound
  | idle | acquiring | entered | passed | finished | releasing =>
    cases awaits

end Frame

namespace Sound

variable [DecidableEq Thread] {initial : DiskImage}
variable {use : SynchDiskUse Thread} {thread : Thread}

omit [DecidableEq Thread] in
theorem append_returned
    (sound : use.Sound initial) {result : Nat × Option Sector}
    {request : DiskRequest}
    (answered : Answered initial use.issued request result)
    (isCompleted : result.1 ∈ use.completed) :
    ∀ served ∈ use.returned ++ [result], served.1 ∈ use.completed ∧
      ∃ request, Answered initial use.issued request served := by
  intro served member
  rcases List.mem_append.mp member with earlier | last
  · exact sound.returned served earlier
  · rw [List.mem_singleton.mp last]
    exact ⟨isCompleted, request, answered⟩

/-- A thread goes on, and neither the device nor the value of the semaphore
changes. -/
theorem moveTo
    (sound : use.Sound initial)
    {guarded : GuardedUse Thread SynchDiskCall}
    {current task : GuardedTask SynchDiskCall}
    (guardedSound : (guarded.moveTo thread task).Sound)
    (sameTask : guarded.task = use.guarded.task)
    (sameValue : guarded.semaphore.semaphore.value =
      use.guarded.semaphore.semaphore.value)
    (located : use.guarded.task thread = current)
    (awaiting : task.awaiting? = current.awaiting?)
    (entered : task.entered? = current.entered?)
    (call : CallSound initial use.issued use.completed task)
    {returned : List (Nat × Option Sector)}
    (isReturned : ∀ served ∈ returned, served.1 ∈ use.completed ∧
      ∃ request, Answered initial use.issued request served) :
    { use with
      guarded := guarded.moveTo thread task
      returned := returned }.Sound initial := by
  have sameUpdate :
      (guarded.moveTo thread task).task =
        (use.guarded.moveTo thread task).task := by
    unfold GuardedUse.moveTo
    rw [sameTask]
  refine ⟨guardedSound, ?_, ?_, sound.contents, ?_, isReturned⟩
  · dsimp only
    rw [sameUpdate]
    exact (Function.forall_update_iff use.guarded.task (fun _ task =>
      CallSound initial use.issued use.completed task)).mpr
        ⟨call, fun other _ => sound.calls other⟩
  · have moved := sound.device.moveTo located awaiting
    rw [← sameValue] at moved
    refine moved.imp ?_ (fun _ => id) id
    intro other
    exact congrArg (fun task => (task other).awaiting?) sameUpdate
  · refine (sound.order.moveTo located entered).imp ?_ (fun _ => id) id
    intro other
    exact congrArg (fun task => (task other).entered?) sameUpdate

theorem acquired
    (sound : use.Sound initial) {call : SynchDiskCall}
    (acquiring : use.guarded.task thread = .acquiring call)
    (holding : use.guarded.lock.phase thread = .holding) :
    { use with
      guarded := use.guarded.moveTo thread (.entered call)
      acquired := use.acquired ++ [call.request] }.Sound initial := by
  have sole := sound.guarded.sole_of_phase holding
  have begun := sound.calls thread
  rw [acquiring] at begun
  have same : use.acquired = use.issued :=
    sound.order.quiet_of_sole GuardedTask.ofHolder_entered sole
      (by rw [acquiring]; rfl)
  refine ⟨sound.guarded.acquired acquiring holding call, ?_,
    sound.device.moveTo acquiring rfl, sound.contents, ?_, sound.returned⟩
  · exact (Function.forall_update_iff use.guarded.task (fun _ task =>
      CallSound initial use.issued use.completed task)).mpr
        ⟨begun, fun other _ => sound.calls other⟩
  · refine GuardedUse.Attends.begins GuardedTask.ofHolder_entered sole rfl ?_
    rw [same]

/-- The request of the thread with the lock finds the disk idle. -/
theorem request
    (sound : use.Sound initial) {call : SynchDiskCall}
    (entered : use.guarded.task thread = .entered call) :
    ∃ next, use.perform (.request thread call) = .ok next ∧
      next.Sound initial := by
  have holding : (use.guarded.task thread).isHolding = true := by
    rw [entered]
    rfl
  have sole := sound.guarded.sole holding
  have begun := sound.calls thread
  rw [entered] at begun
  obtain ⟨active, interrupts, zero, completed⟩ :=
    sound.device.quiet_of_sole GuardedTask.ofHolder_awaiting sole
      (by rw [entered]; rfl)
  have lastAcquired : use.acquired = use.issued ++ [call.request] :=
    sound.order.busy thread call (by rw [entered]; rfl)
  have answered : Answered initial (use.issued ++ [call.request]) call.request
      (use.issued.length, call.request.answer use.disk.contents) := by
    refine ⟨List.getElem?_concat_length, ?_⟩
    rw [sound.contents, List.take_left]
  have performed :
      use.perform (.request thread call) = .ok { use with
        guarded := use.guarded.moveTo thread (.requested { call with
          served := some (use.issued.length,
            call.request.answer use.disk.contents) })
        disk := ⟨call.request.apply use.disk.contents, true,
          use.disk.interrupts ++ [use.issued.length]⟩
        issued := use.issued ++ [call.request] } := by
    simp only [perform, DiskDevice.request_eq active begun.2, ok_bind]
    rfl
  refine ⟨_, performed,
    sound.guarded.goOn entered ⟨rfl, rfl⟩ ⟨rfl, rfl⟩, ?_, ?_, ?_, ?_, ?_⟩
  · refine (Function.forall_update_iff use.guarded.task (fun _ task =>
      CallSound initial (use.issued ++ [call.request]) use.completed
        task)).mpr ⟨⟨_, rfl, answered⟩, fun other _ => ?_⟩
    exact (sound.calls other).mono
      (fun _ _ earlier => earlier.append call.request) (List.Subset.refl _)
  · refine GuardedUse.Attends.begins GuardedTask.ofHolder_awaiting sole rfl ?_
    refine ⟨_, _, rfl, List.length_append, Or.inl ⟨rfl, ?_, zero, completed⟩⟩
    rw [interrupts]
    rfl
  · rw [DiskRequest.replay_append_singleton, ← sound.contents]
  · exact GuardedUse.Attends.ends GuardedTask.ofHolder_entered sole rfl
      lastAcquired
  · intro served member
    obtain ⟨isCompleted, request, earlier⟩ := sound.returned served member
    exact ⟨isCompleted, request, earlier.append call.request⟩

omit [DecidableEq Thread] in
theorem value_of_pending
    (sound : use.Sound initial) {serial : Nat}
    (pending : serial ∈ use.disk.interrupts) :
    use.guarded.semaphore.semaphore.value = 0 := by
  by_cases none : ∀ thread, (use.guarded.task thread).awaiting? = none
  · exact (sound.device.quiet none).value
  · obtain ⟨thread, some⟩ := not_forall.mp none
    obtain ⟨call, awaits⟩ := Option.ne_none_iff_exists'.mp some
    obtain ⟨_, _, _, _, underWay | finished⟩ :=
      sound.device.busy thread call awaits
    · exact underWay.2.2.1
    · rw [finished.2.1] at pending
      exact (List.not_mem_nil pending).elim

omit [DecidableEq Thread] in
theorem interrupt
    (sound : use.Sound initial) {serial : Nat}
    (pending : serial ∈ use.disk.interrupts) :
    { use with
      guarded := use.guarded.V
      disk := use.disk.callBack serial
      completed := use.completed ++ [serial] }.Sound initial := by
  have zero := sound.value_of_pending pending
  refine ⟨sound.guarded.V zero, ?_, ⟨?_, ?_⟩, sound.contents,
    sound.order.imp (fun _ => rfl) (fun _ => id) id, ?_⟩
  · exact fun thread => (sound.calls thread).mono (fun _ _ => id)
      (List.subset_append_left _ _)
  · intro thread call awaits
    obtain ⟨other, data, served, last, underWay | finished⟩ :=
      sound.device.busy thread call awaits
    · obtain ⟨active, interrupts, _, completed⟩ := underWay
      have same : serial = other := by
        rw [interrupts] at pending
        exact List.mem_singleton.mp pending
      subst same
      refine ⟨serial, data, served, last,
        Or.inr ⟨rfl, ?_, sound.guarded.value_V zero, ?_⟩⟩
      · change use.disk.interrupts.erase serial = []
        rw [interrupts]
        simp
      · rw [completed, last, List.range_succ]
    · rw [finished.2.1] at pending
      exact (List.not_mem_nil pending).elim
  · intro none
    have quiet := sound.device.quiet none
    rw [quiet.interrupts] at pending
    exact (List.not_mem_nil pending).elim
  · intro served member
    obtain ⟨isCompleted, answered⟩ := sound.returned served member
    exact ⟨List.mem_append_left _ isCompleted, answered⟩

theorem testP
    (sound : use.Sound initial) {call : SynchDiskCall}
    {event : GuardedUse.Event Thread SynchDiskCall}
    (isTest : event = .P thread call ∨ event = .resume thread call)
    (allowed : use.guarded.Allows event) :
    ∃ guarded, use.guarded.perform event = .ok guarded ∧
      { use with guarded := guarded }.Sound initial := by
  obtain ⟨awaits, taken, semaphore, performed, tested, guardedSound⟩ :=
    sound.guarded.testP isTest allowed
  refine ⟨_, performed, ?_⟩
  cases taken with
  | false =>
    have sameValue :
        semaphore.semaphore.value =
          use.guarded.semaphore.semaphore.value := by
      simpa using tested.value
    exact sound.moveTo guardedSound rfl sameValue rfl awaits.symm
      (GuardedTask.entered_of_awaiting awaits).symm
      ((sound.calls thread).awaiting awaits) sound.returned
  | true =>
    have sole := sound.guarded.sole (GuardedTask.ofHolder_awaiting _ _ awaits)
    have nonzero := tested.taken_iff.mp rfl
    obtain ⟨serial, data, served, last, underWay | finished⟩ :=
      sound.device.busy thread call awaits
    · exact (nonzero underWay.2.2.1).elim
    · obtain ⟨active, interrupts, one, completed⟩ := finished
      obtain ⟨result, isServed, answered⟩ :=
        (sound.calls thread).awaiting awaits
      have isCompleted : result.1 ∈ use.completed := by
        have same : result = (serial, data) :=
          Option.some.inj (isServed.symm.trans served)
        rw [completed, same, List.mem_range]
        omega
      have zero : semaphore.semaphore.value = 0 := by
        rw [tested.value, one]
        rfl
      refine ⟨guardedSound, ?_, ?_, sound.contents, ?_, sound.returned⟩
      · exact (Function.forall_update_iff use.guarded.task (fun _ task =>
          CallSound initial use.issued use.completed task)).mpr
            ⟨⟨result, isServed, answered, isCompleted⟩,
              fun other _ => sound.calls other⟩
      · refine GuardedUse.Attends.ends GuardedTask.ofHolder_awaiting ?_ rfl ?_
        · exact sole
        · exact ⟨active, interrupts, zero, completed⟩
      · refine GuardedUse.Attends.ends GuardedTask.ofHolder_entered ?_ rfl ?_
        · exact sole
        · exact sound.order.quiet_of_sole GuardedTask.ofHolder_entered sole
            (GuardedTask.entered_of_awaiting awaits)

theorem guardedStep
    (sound : use.Sound initial)
    {event : GuardedUse.Event Thread SynchDiskCall}
    (allowed : use.Allows (.guarded event)) :
    ∃ next, use.perform (.guarded event) = .ok next ∧ next.Sound initial := by
  obtain ⟨allowed, begins⟩ := allowed
  cases event with
  | call thread call =>
    have idle : use.guarded.task thread = .idle := allowed
    exact ⟨_, perform_guarded rfl rfl rfl,
      sound.moveTo (sound.guarded.call idle call) rfl rfl idle rfl rfl begins
        sound.returned⟩
  | lock event =>
    obtain ⟨lock, performed, guardedSound⟩ := sound.guarded.lockStep allowed
    refine ⟨_, perform_guarded (by simp [GuardedUse.perform, performed]; rfl)
      rfl rfl, ?_⟩
    exact ⟨guardedSound, sound.calls,
      sound.device.imp (fun _ => rfl) (fun _ => id) id, sound.contents,
      sound.order.imp (fun _ => rfl) (fun _ => id) id, sound.returned⟩
  | acquired thread call =>
    have next := sound.acquired allowed.1 allowed.2
    rw [← List.append_nil use.returned] at next
    exact ⟨_, rfl, next⟩
  | P thread call =>
    obtain ⟨guarded, performed, next⟩ := sound.testP (Or.inl rfl) allowed
    exact ⟨_, perform_guarded performed rfl rfl, next⟩
  | resume thread call =>
    obtain ⟨guarded, performed, next⟩ := sound.testP (Or.inr rfl) allowed
    exact ⟨_, perform_guarded performed rfl rfl, next⟩
  | release thread call =>
    have finished : use.guarded.task thread = .finished call := allowed
    obtain ⟨lock, performed, guardedSound⟩ := sound.guarded.release finished
    have callSound := sound.calls thread
    rw [finished] at callSound
    exact ⟨_, perform_guarded performed rfl rfl,
      sound.moveTo guardedSound rfl rfl finished rfl rfl callSound
        sound.returned⟩
  | released thread call =>
    obtain ⟨releasing, outside⟩ := allowed
    obtain ⟨result, isServed, answered, isCompleted⟩ :
        CallSound initial use.issued use.completed (.releasing call) :=
      releasing ▸ sound.calls thread
    have performed :
        use.perform (.guarded (.released thread call)) = .ok { use with
          guarded := use.guarded.moveTo thread .idle
          acquired := use.acquired ++ []
          returned := use.returned ++ [result] } := by
      simp only [perform, returns, acquires, isServed]
      rfl
    rw [List.append_nil] at performed
    exact ⟨_, performed, sound.moveTo
      (sound.guarded.released releasing outside) rfl rfl releasing rfl rfl
      trivial (sound.append_returned answered isCompleted)⟩

/-- Every step of a thread or of the disk keeps the invariant. -/
theorem step
    (sound : use.Sound initial) {event : Event Thread}
    (allowed : use.Allows event) :
    ∃ next, use.perform event = .ok next ∧ next.Sound initial := by
  cases event with
  | request thread call =>
    exact sound.request allowed
  | finish thread call =>
    have passed : use.guarded.task thread = .passed call := allowed
    have goesOn : (use.guarded.moveTo thread (.finished call)).Sound :=
      sound.guarded.goOn passed ⟨rfl, rfl⟩ ⟨rfl, rfl⟩
    have callSound := sound.calls thread
    rw [passed] at callSound
    exact ⟨_, rfl, sound.moveTo goesOn rfl rfl passed rfl rfl callSound
      sound.returned⟩
  | interrupt serial =>
    exact ⟨_, rfl, sound.interrupt allowed⟩
  | guarded event =>
    exact sound.guardedStep allowed

end Sound

variable [DecidableEq Thread] {initial : DiskImage}
variable {use : SynchDiskUse Thread}

theorem sound_of_reachable
    (reachable : (system initial).Reachable use) : use.Sound initial := by
  refine reachable.invariant ?_ ?_
  · rintro state rfl
    exact sound_create initial
  · rintro source event target sound ⟨allowed, performed⟩
    obtain ⟨next, stepped, nextSound⟩ := sound.step allowed
    cases stepped.symm.trans performed
    exact nextSound

/-- What a call returns if the calls before it are made one after the other. -/
def expected (initial : DiskImage) (earlier : List DiskRequest) :
    DiskRequest → Option Sector
  | .read sectorNumber =>
    some ((DiskRequest.lastWrite? earlier sectorNumber.toNat).getD
      (initial sectorNumber.toNat))
  | .write _ _ => none

structure Contract (initial : DiskImage) (use : SynchDiskUse Thread) :
    Prop where
  /-- No `ASSERT` fails. -/
  safe : ∀ event, use.Allows event → ∃ next, use.perform event = .ok next
  pending :
    use.disk.interrupts.length = if use.disk.active then 1 else 0
  /-- A call gets past `P` after the interrupt of its own request. -/
  own : ∀ thread call,
    use.guarded.task thread = .passed call ∨
        use.guarded.task thread = .finished call ∨
        use.guarded.task thread = .releasing call →
      ∃ served, call.served = some served ∧
        use.acquired[served.1]? = some call.request ∧
        served.1 ∈ use.completed
  /-- Before this interrupt there is no `V` that it could take. -/
  noSurplus : ∀ thread call serial data,
    (use.guarded.task thread).awaiting? = some call →
    call.served = some (serial, data) → serial ∉ use.completed →
    use.guarded.semaphore.semaphore.value = 0
  results : ∀ served ∈ use.returned,
    served.1 ∈ use.completed ∧
      ∃ request, use.acquired[served.1]? = some request ∧
        served.2 = expected initial (use.acquired.take served.1) request

theorem answer_replay
    (initial : DiskImage) (earlier : List DiskRequest)
    (request : DiskRequest) :
    request.answer (DiskRequest.replay initial earlier) =
      expected initial earlier request := by
  cases request with
  | read sectorNumber =>
    exact congrArg some (DiskRequest.replay_eq_lastWrite ..)
  | write sectorNumber data =>
    rfl

omit [DecidableEq Thread] in
theorem Sound.acquired_eq (sound : use.Sound initial) :
    ∃ last, use.acquired = use.issued ++ last := by
  by_cases none : ∀ thread, (use.guarded.task thread).entered? = none
  · exact ⟨[], (sound.order.quiet none).trans (List.append_nil _).symm⟩
  · obtain ⟨thread, some⟩ := not_forall.mp none
    obtain ⟨call, entered⟩ := Option.ne_none_iff_exists'.mp some
    exact ⟨[call.request], sound.order.busy thread call entered⟩

omit [DecidableEq Thread] in
theorem Sound.answered
    (sound : use.Sound initial)
    {request : DiskRequest} {served : Nat × Option Sector}
    (answered : Answered initial use.issued request served) :
    use.acquired[served.1]? = some request ∧
      served.2 = expected initial (use.acquired.take served.1) request := by
  obtain ⟨listed, data⟩ := answered
  obtain ⟨last, acquired⟩ := sound.acquired_eq
  obtain ⟨within, _⟩ := List.getElem?_eq_some_iff.mp listed
  rw [acquired, List.getElem?_append_left within,
    List.take_append_of_le_length within.le, ← answer_replay]
  exact ⟨listed, data⟩

/-- Under every schedule the disk serves one request at a time, each call waits
for its own, and reads see the last write. -/
theorem serialised_of_reachable
    (reachable : (system initial).Reachable use) :
    use.Contract initial := by
  have sound := sound_of_reachable reachable
  refine ⟨?_, ?_, ?_, ?_, ?_⟩
  · intro event allowed
    obtain ⟨next, performed, _⟩ := sound.step allowed
    exact ⟨next, performed⟩
  · by_cases none : ∀ thread, (use.guarded.task thread).awaiting? = none
    · obtain ⟨active, interrupts, _⟩ := sound.device.quiet none
      rw [active, interrupts]
      rfl
    · obtain ⟨thread, some⟩ := not_forall.mp none
      obtain ⟨call, awaits⟩ := Option.ne_none_iff_exists'.mp some
      obtain ⟨serial, data, _, _, ⟨active, interrupts, _⟩ |
        ⟨active, interrupts, _⟩⟩ := sound.device.busy thread call awaits
      · rw [active, interrupts]
        rfl
      · rw [active, interrupts]
        rfl
  · intro thread call past
    have callSound := sound.calls thread
    obtain ⟨served, isServed, answered, isCompleted⟩ :
        CallSound initial use.issued use.completed (.passed call) := by
      rcases past with located | located | located
      · rw [located] at callSound
        exact callSound
      · rw [located] at callSound
        exact callSound
      · rw [located] at callSound
        exact callSound
    exact ⟨served, isServed, (sound.answered answered).1, isCompleted⟩
  · intro thread call serial data awaits isServed notCompleted
    obtain ⟨other, _, served, last, ⟨_, _, zero, _⟩ | ⟨_, _, _, completed⟩⟩ :=
      sound.device.busy thread call awaits
    · exact zero
    · rw [isServed] at served
      cases served
      rw [completed, List.mem_range] at notCompleted
      omega
  · intro served member
    obtain ⟨isCompleted, request, answered⟩ := sound.returned served member
    exact ⟨isCompleted, request, sound.answered answered⟩

/-- While thread 1 reads a sector thread 2 comes to write it, and waits for the
lock. -/
theorem serialised_after_write :
    ∃ (zero : Sector) (use : SynchDiskUse Nat),
      (system fun _ => zero).Reachable use ∧
        use.returned.map (fun served =>
          (served.1, served.2.map fun sector => sector.bytes.headD 7)) =
            [(0, some 0), (1, none)] ∧
        (use.disk.contents 3).bytes.headD 7 = 1 ∧
        use.Contract fun _ => zero := by
  let zero : Sector := ⟨List.replicate 128 0, List.length_replicate⟩
  let one : Sector := ⟨List.replicate 128 1, List.length_replicate⟩
  let read : SynchDiskCall := ⟨.read 3, none⟩
  let wasRead : SynchDiskCall := ⟨.read 3, some (0, some zero)⟩
  let write : SynchDiskCall := ⟨.write 3 one, none⟩
  let written : SynchDiskCall := ⟨.write 3 one, some (1, none)⟩
  have step : ∀ {source target : SynchDiskUse Nat} (event : Event Nat),
      (system fun _ => zero).Reachable source → source.Allows event →
      source.perform event = .ok target →
      (system fun _ => zero).Reachable target :=
    fun _ reachable allowed performed => reachable.step ⟨allowed, performed⟩
  have now : (system fun _ => zero).Reachable
      (create (fun _ => zero) : SynchDiskUse Nat) := .start rfl
  have now := step (.guarded (.call 1 read)) now ⟨rfl, rfl, rfl⟩ rfl
  have now := step (.guarded (.lock (.acquire 1))) now
    ⟨⟨⟨by decide, rfl⟩, Or.inl rfl⟩, trivial⟩ rfl
  have now := step (.guarded (.lock (.assign 1))) now
    ⟨⟨⟨by decide, rfl⟩, ⟨false, rfl⟩⟩, trivial⟩ rfl
  have now := step (.guarded (.acquired 1 read)) now ⟨⟨rfl, rfl⟩, trivial⟩ rfl
  have now := step (.request 1 read) now rfl rfl
  have now := step (.guarded (.P 1 wasRead)) now ⟨rfl, trivial⟩ rfl
  have now := step (.guarded (.call 2 write)) now ⟨rfl, rfl, rfl⟩ rfl
  have now := step (.guarded (.lock (.acquire 2))) now
    ⟨⟨⟨by decide, rfl⟩, Or.inl rfl⟩, trivial⟩ rfl
  have now := step (.interrupt 0) now (List.mem_singleton.mpr rfl) rfl
  have now := step (.guarded (.resume 1 wasRead)) now
    ⟨⟨rfl, List.mem_singleton.mpr rfl⟩, trivial⟩ rfl
  have now := step (.finish 1 wasRead) now rfl rfl
  have now := step (.guarded (.release 1 wasRead)) now ⟨rfl, trivial⟩ rfl
  have now := step (.guarded (.lock (.check 1))) now ⟨⟨rfl, rfl⟩, trivial⟩ rfl
  have now := step (.guarded (.lock (.clear 1))) now ⟨⟨rfl, rfl⟩, trivial⟩ rfl
  have now := step (.guarded (.lock (.V 1))) now ⟨⟨rfl, rfl⟩, trivial⟩ rfl
  have now := step (.guarded (.released 1 wasRead)) now
    ⟨⟨rfl, rfl⟩, trivial⟩ rfl
  have now := step (.guarded (.lock (.resume 2))) now
    ⟨⟨⟨by decide, rfl⟩, ⟨false, rfl⟩, List.mem_singleton.mpr rfl⟩, trivial⟩ rfl
  have now := step (.guarded (.lock (.assign 2))) now
    ⟨⟨⟨by decide, rfl⟩, ⟨false, rfl⟩⟩, trivial⟩ rfl
  have now := step (.guarded (.acquired 2 write)) now ⟨⟨rfl, rfl⟩, trivial⟩ rfl
  have now := step (.request 2 write) now rfl rfl
  have now := step (.guarded (.P 2 written)) now ⟨rfl, trivial⟩ rfl
  have now := step (.interrupt 1) now (List.mem_singleton.mpr rfl) rfl
  have now := step (.guarded (.resume 2 written)) now
    ⟨⟨rfl, List.mem_singleton.mpr rfl⟩, trivial⟩ rfl
  have now := step (.finish 2 written) now rfl rfl
  have now := step (.guarded (.release 2 written)) now ⟨rfl, trivial⟩ rfl
  have now := step (.guarded (.lock (.check 2))) now ⟨⟨rfl, rfl⟩, trivial⟩ rfl
  have now := step (.guarded (.lock (.clear 2))) now ⟨⟨rfl, rfl⟩, trivial⟩ rfl
  have now := step (.guarded (.lock (.V 2))) now ⟨⟨rfl, rfl⟩, trivial⟩ rfl
  have now := step (.guarded (.released 2 written)) now
    ⟨⟨rfl, rfl⟩, trivial⟩ rfl
  exact ⟨zero, _, now, by decide +kernel, by decide +kernel,
    serialised_of_reachable now⟩

end SynchDiskUse

end Nachos
