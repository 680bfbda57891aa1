import Nachos.Threads.Placement

/-!
# The invariant of the scheduler
-/

namespace Nachos

open Foundation

variable {Thread Key : Type}

theorem Semaphore.test_spec [DecidableEq Thread]
    {semaphore : Semaphore Thread} {thread : Thread}
    (absent : thread ∉ semaphore.queue) :
    ∃ taken next, semaphore.test thread = .ok (taken, next) ∧
      next.queue =
        if taken then semaphore.queue else semaphore.queue ++ [thread] := by
  by_cases zero : semaphore.value = 0
  · refine ⟨false, ⟨semaphore.value, semaphore.queue ++ [thread]⟩, ?_, rfl⟩
    simp only [Semaphore.test, if_pos zero, listAppend_eq absent, ok_bind]
    rfl
  · exact ⟨true, ⟨wrap (semaphore.value - 1), semaphore.queue⟩, if_neg zero, rfl⟩

theorem Semaphore.V_spec (semaphore : Semaphore Thread) :
    semaphore.queue = semaphore.V.1.toList ++ semaphore.V.2.queue := by
  obtain ⟨value, queue⟩ := semaphore
  cases queue <;> rfl

namespace Kernel

variable {kernel : Kernel Thread Key}

def queues (semaphores : Key → Semaphore Thread) (key : Key) : List Thread :=
  (semaphores key).queue

theorem queues_update [DecidableEq Key]
    (semaphores : Key → Semaphore Thread) (key : Key)
    (semaphore : Semaphore Thread) :
    queues (Function.update semaphores key semaphore) =
      Function.update (queues semaphores) key semaphore.queue := by
  funext other
  unfold queues
  by_cases same : other = key
  · rw [same, Function.update_self, Function.update_self]
  · rw [Function.update_of_ne same, Function.update_of_ne same]

/-- The threads that called `Finish` and are not deleted yet. -/
def undeleted (currentThread : Thread) (toBeDestroyed : Option Thread) :
    Control Key → List Thread
  | .running => []
  | .switched => toBeDestroyed.toList
  | .idling point | .halted point =>
    if point.finishing then [currentThread] else []

def OneRunning (status : Thread → Option ThreadStatus)
    (currentThread : Thread) : Prop :=
  ∀ thread, status thread = some .running ↔ thread = currentThread

structure Suspended (status : Thread → Option ThreadStatus)
    (currentThread : Thread) (toBeDestroyed : Option Thread)
    (level : IntStatus) : Prop where
  nobody : ∀ thread, status thread ≠ some .running
  current : status currentThread = some .blocked ∨
    status currentThread = some .ready
  toBeDestroyed : toBeDestroyed = none
  level : level = .intOff

def ControlSound (status : Thread → Option ThreadStatus)
    (currentThread : Thread) (toBeDestroyed : Option Thread)
    (level : IntStatus) : Control Key → Prop
  | .running => OneRunning status currentThread ∧ toBeDestroyed = none
  | .switched => OneRunning status currentThread ∧ level = .intOff
  | .idling _ | .halted _ =>
    Suspended status currentThread toBeDestroyed level

structure Sound (kernel : Kernel Thread Key) : Prop where
  executing : kernel.executing = kernel.currentThread
  placed : Placed kernel.status kernel.readyList
    (queues kernel.semaphores) kernel.finished
  buried : Buried kernel.status kernel.finished kernel.deleted
    (undeleted kernel.currentThread kernel.toBeDestroyed kernel.control)
  saved : ∀ thread, kernel.saved thread = .finish →
    thread ∈ kernel.finished
  control : ControlSound kernel.status kernel.currentThread
    kernel.toBeDestroyed kernel.level kernel.control

theorem sound_create [DecidableEq Thread]
    (main : Thread) (level : IntStatus) (values : Key → Int) :
    (create main level values : Kernel Thread Key).Sound where
  executing := rfl
  placed := by
    refine ⟨List.nodup_nil, fun _ => List.nodup_nil, fun thread => ?_⟩
    refine .of_loose ?_ List.not_mem_nil (fun _ => List.not_mem_nil)
    change Loose (Function.update (fun _ => none) main
      (some ThreadStatus.running) thread)
    by_cases same : thread = main <;> simp [same, Loose]
  buried := ⟨List.nodup_nil, rfl, fun _ member =>
    absurd member List.not_mem_nil, fun _ member =>
    absurd member List.not_mem_nil⟩
  saved := fun _ isFinish => (nomatch isFinish)
  control := by
    refine ⟨fun thread => ?_, rfl⟩
    change Function.update (fun _ => none) main
      (some ThreadStatus.running) thread = _ ↔ thread = main
    rw [update_eq_iff_or]
    simp

section Functions

theorem level_checked (off : kernel.level = .intOff) :
    assertThat (kernel.level = .intOff) .interruptLevel = .ok () := by
  rw [decide_eq_true off]
  rfl

variable [DecidableEq Thread] {thread : Thread}

theorem current_checked (executing : kernel.executing = kernel.currentThread) :
    assertThat (kernel.executing = kernel.currentThread) .currentThread =
      .ok () := by
  rw [decide_eq_true executing]
  rfl

theorem setStatus_eq
    (kernel : Kernel Thread Key) (exists_ : kernel.status thread ≠ none)
    (status : ThreadStatus) :
    kernel.setStatus thread status = .ok { kernel with
      status := Function.update kernel.status thread (some status) } := by
  unfold setStatus
  cases found : kernel.status thread with
  | none => exact absurd found exists_
  | some _ => rfl

theorem readyToRun_eq
    (kernel : Kernel Thread Key)
    (off : kernel.level = .intOff) (exists_ : kernel.status thread ≠ none)
    (absent : thread ∉ kernel.readyList) :
    kernel.readyToRun thread = .ok { kernel with
      status := Function.update kernel.status thread (some .ready)
      readyList := kernel.readyList ++ [thread] } := by
  simp only [readyToRun, level_checked off, ok_bind,
    setStatus_eq kernel exists_, listAppend_eq absent]
  rfl

omit [DecidableEq Thread] in
theorem findNextToRun_nil
    (kernel : Kernel Thread Key)
    (off : kernel.level = .intOff) (empty : kernel.readyList = []) :
    kernel.findNextToRun = .ok (none, kernel) := by
  simp only [findNextToRun, level_checked off, ok_bind, empty]
  rfl

omit [DecidableEq Thread] in
theorem findNextToRun_cons
    (kernel : Kernel Thread Key)
    (off : kernel.level = .intOff) {rest : List Thread}
    (first : kernel.readyList = thread :: rest) :
    kernel.findNextToRun = .ok (some thread,
      { kernel with readyList := rest }) := by
  simp only [findNextToRun, level_checked off, ok_bind, first]
  rfl

theorem run_eq
    (kernel : Kernel Thread Key)
    (off : kernel.level = .intOff) (clear : kernel.toBeDestroyed = none)
    (exists_ : kernel.status thread ≠ none) (point : ResumePoint Key) :
    kernel.run thread point.finishing point = .ok { kernel with
      toBeDestroyed :=
        if point.finishing then some kernel.currentThread else none
      currentThread := thread
      status := Function.update kernel.status thread (some .running)
      saved := Function.update kernel.saved kernel.currentThread point
      executing := thread
      control := .switched } := by
  have marked : kernel.markFinishing point.finishing = .ok { kernel with
      toBeDestroyed :=
        if point.finishing then some kernel.currentThread else none } := by
    cases point.finishing
    · simp only [markFinishing, Bool.false_eq_true, if_false, ← clear]
      rfl
    · simp only [markFinishing, if_true, clear]
      rfl
  have running := setStatus_eq { kernel with
    toBeDestroyed :=
      if point.finishing then some kernel.currentThread else none
    currentThread := thread } exists_ .running
  simp only [run, level_checked off, ok_bind, marked, running]
  rfl

end Functions

namespace Sound

section Switch

variable [DecidableEq Thread] {thread : Thread} {point : ResumePoint Key}

theorem run
    (sound : { kernel with control := .idling point }.Sound)
    {rest : List Thread} (first : kernel.readyList = thread :: rest) :
    ∃ next, { kernel with readyList := rest }.run thread point.finishing
        point = .ok next ∧ next.Sound := by
  have suspended : Suspended kernel.status kernel.currentThread
      kernel.toBeDestroyed kernel.level := sound.control
  have ready : kernel.status thread = some .ready :=
    sound.placed.ready_of_mem (by
      change thread ∈ kernel.readyList
      rw [first]
      exact List.mem_cons_self)
  have unfinished : thread ∉ kernel.finished :=
    sound.buried.unfinished (by simp [ready]) (by simp [ready])
  have exists_ : kernel.status thread ≠ none := by simp [ready]
  refine ⟨_, run_eq { kernel with readyList := rest } suspended.level
    suspended.toBeDestroyed exists_ point, ?_⟩
  refine ⟨rfl, ?_, ?_, ?_, ?_, suspended.level⟩
  · have placed := sound.placed
    change Placed kernel.status kernel.readyList _ _ at placed
    rw [first] at placed
    exact placed.dequeue
  · have buried := sound.buried.update unfinished (some .running)
    have same : (if point.finishing then [kernel.currentThread] else []) =
        (if point.finishing then some kernel.currentThread
          else none).toList := by
      cases point.finishing <;> rfl
    change Buried _ kernel.finished kernel.deleted
      (if point.finishing then [kernel.currentThread] else []) at buried
    rw [same] at buried
    exact buried
  · apply (Function.forall_update_iff kernel.saved (fun other point =>
      point = .finish → other ∈ kernel.finished)).mpr
    refine ⟨?_, fun other _ => sound.saved other⟩
    rintro rfl
    rw [show kernel.finished = _ from sound.buried.order]
    exact List.mem_append_right _ List.mem_cons_self
  · intro other
    change Function.update kernel.status thread (some .running) other = _ ↔
      other = thread
    rw [update_eq_iff_or]
    exact or_iff_left (suspended.nobody other)

theorem sleepLoop
    (sound : { kernel with control := .idling point }.Sound) :
    ∃ next, kernel.sleepLoop point = .ok next ∧ next.Sound := by
  have off : kernel.level = .intOff := sound.control.level
  cases list : kernel.readyList with
  | nil =>
    refine ⟨{ kernel with control := .idling point }, ?_, sound⟩
    simp only [Kernel.sleepLoop, findNextToRun_nil kernel off list, ok_bind]
    rfl
  | cons thread rest =>
    obtain ⟨next, performed, nextSound⟩ := sound.run list
    refine ⟨next, ?_, nextSound⟩
    simp only [Kernel.sleepLoop, findNextToRun_cons kernel off list, ok_bind]
    exact performed

theorem sleep
    (executing : kernel.executing = kernel.currentThread)
    (exists_ : kernel.status kernel.executing ≠ none)
    (sound : { kernel with
      status := Function.update kernel.status kernel.executing (some .blocked)
      control := .idling point }.Sound) :
    ∃ next, kernel.sleep point = .ok next ∧ next.Sound := by
  have off : kernel.level = .intOff := sound.control.level
  obtain ⟨next, performed, nextSound⟩ := @sleepLoop _ _ { kernel with
    status := Function.update kernel.status kernel.executing
      (some .blocked) } _ point sound
  refine ⟨next, ?_, nextSound⟩
  simp only [Kernel.sleep, current_checked executing, level_checked off,
    ok_bind, setStatus_eq kernel exists_]
  exact performed

theorem checkToBeDestroyed
    (sound : kernel.Sound) (switched : kernel.control = .switched) :
    ∃ next, kernel.checkToBeDestroyed = .ok next ∧
      { next with control := .running }.Sound ∧ next.level = .intOff := by
  obtain ⟨executing, placed, buried, saved, control⟩ := sound
  rw [switched] at control buried
  obtain ⟨oneRunning, off⟩ := control
  cases marked : kernel.toBeDestroyed with
  | none =>
    rw [marked] at buried
    refine ⟨kernel, ?_, ⟨executing, placed, buried, saved, oneRunning,
      marked⟩, off⟩
    simp only [Kernel.checkToBeDestroyed, marked]
  | some thread =>
    rw [marked] at buried
    have isBlocked := buried.left thread List.mem_cons_self
    have isFinished : thread ∈ kernel.finished := by
      rw [buried.order]
      exact List.mem_append_right _ List.mem_cons_self
    have notCurrent : thread ≠ kernel.currentThread := by
      intro same
      rw [(oneRunning thread).mpr same] at isBlocked
      cases isBlocked
    refine ⟨{ kernel with
        status := Function.update kernel.status thread none
        deleted := kernel.deleted ++ [thread]
        toBeDestroyed := none }, ?_, ⟨executing,
      placed.bury isBlocked isFinished, buried.delete, saved, ?_, rfl⟩, off⟩
    · simp only [Kernel.checkToBeDestroyed, marked, Kernel.delete,
        decide_eq_true notCurrent, assertThat_true, ok_bind, isBlocked]
      rfl
    · intro other
      refine (update_eq_iff ?_ ?_ other).trans (oneRunning other)
      · simp [isBlocked]
      · simp

end Switch

theorem setLevel
    (sound : { kernel with control := .running }.Sound) (level : IntStatus) :
    { kernel with level := level, control := .running }.Sound :=
  ⟨sound.executing, sound.placed, sound.buried, sound.saved, sound.control⟩

theorem awake
    (sound : kernel.Sound) (running : kernel.control = .running) :
    { kernel with control := .running }.Sound := by
  rw [← running]
  exact sound

section Awake

variable (awake : { kernel with control := .running }.Sound)

include awake

theorem status_executing : kernel.status kernel.executing = some .running :=
  (awake.control.1 kernel.executing).mpr awake.executing

theorem loose_executing : Loose (kernel.status kernel.executing) := by
  rw [awake.status_executing]
  simp [Loose]

theorem unfinished_executing : kernel.executing ∉ kernel.finished :=
  awake.buried.unfinished (by simp [awake.status_executing])
    (by simp [awake.status_executing])

variable [DecidableEq Thread]

theorem suspended
    {status : ThreadStatus} (asleep : status = .blocked ∨ status = .ready) :
    Suspended
      (Function.update kernel.status kernel.executing (some status))
      kernel.currentThread kernel.toBeDestroyed .intOff where
  nobody := by
    intro other
    by_cases same : other = kernel.executing
    · rw [same, Function.update_self]
      rcases asleep with rfl | rfl <;> simp
    · rw [Function.update_of_ne same]
      exact fun isRunning => same (((awake.control.1 other).mp
        isRunning).trans awake.executing.symm)
  current := by
    have same : Function.update kernel.status kernel.executing (some status)
        kernel.currentThread = some status := by
      rw [← show kernel.executing = kernel.currentThread from
        awake.executing, Function.update_self]
    rcases asleep with rfl | rfl
    · exact Or.inl same
    · exact Or.inr same
  toBeDestroyed := awake.control.2
  level := rfl

end Awake

variable [DecidableEq Thread] [DecidableEq Key]

theorem testP
    (awake : { kernel with control := .running }.Sound)
    (off : kernel.level = .intOff) (key : Key) (oldLevel : IntStatus) :
    ∃ next, kernel.testP key oldLevel = .ok next ∧ next.Sound := by
  have absent : kernel.executing ∉ (kernel.semaphores key).queue :=
    awake.placed.notQueued awake.loose_executing.2 key
  obtain ⟨taken, semaphore, tested, queue⟩ := Semaphore.test_spec absent
  cases taken with
  | true =>
    have same : queues (Function.update kernel.semaphores key semaphore) =
        queues kernel.semaphores := by
      rw [queues_update, queue]
      exact Function.update_eq_self key _
    refine ⟨{ kernel with
      semaphores := Function.update kernel.semaphores key semaphore
      level := oldLevel
      control := .running }, ?_, awake.executing, ?_, awake.buried,
      awake.saved, awake.control⟩
    · simp only [Kernel.testP, tested, ok_bind]
      rfl
    · rw [same]
      exact awake.placed
  | false =>
    have placed : Placed
        (Function.update kernel.status kernel.executing (some .blocked))
        kernel.readyList
        (queues (Function.update kernel.semaphores key semaphore))
        kernel.finished := by
      rw [queues_update, queue]
      exact awake.placed.block awake.loose_executing
        awake.unfinished_executing key
    have exists_ : kernel.status kernel.executing ≠ none := by
      simp [awake.status_executing]
    obtain ⟨next, performed, nextSound⟩ := @Sound.sleep _ _ { kernel with
      semaphores := Function.update kernel.semaphores key semaphore }
      _ (.P key oldLevel) awake.executing exists_ ⟨awake.executing, placed,
        awake.buried.update awake.unfinished_executing _, awake.saved,
        off ▸ awake.suspended (Or.inl rfl)⟩
    refine ⟨next, ?_, nextSound⟩
    simp only [Kernel.testP, tested, ok_bind]
    exact performed

omit [DecidableEq Key] in
/-- What the CPU is doing does not change when a thread gets or loses a status
other than `RUNNING`. -/
theorem control_update
    (sound : kernel.Sound) {thread : Thread} {status : ThreadStatus}
    (leaves : kernel.status thread ≠ some .running)
    (takes : status ≠ .running)
    (current : thread = kernel.currentThread → status = .ready) :
    ControlSound (Function.update kernel.status thread (some status))
      kernel.currentThread kernel.toBeDestroyed kernel.level
      kernel.control := by
  have same : ∀ other,
      Function.update kernel.status thread (some status) other =
        some .running ↔ kernel.status other = some .running :=
    update_eq_iff leaves (by simpa using takes)
  have control := sound.control
  cases doing : kernel.control with
  | running | switched =>
    rw [doing] at control
    exact ⟨fun other => (same other).trans (control.1 other), control.2⟩
  | idling point | halted point =>
    rw [doing] at control
    refine ⟨fun other isRunning => control.nobody other
      ((same other).mp isRunning), ?_, control.toBeDestroyed,
      control.level⟩
    by_cases isThread : kernel.currentThread = thread
    · right
      rw [current isThread.symm, isThread, Function.update_self]
    · rw [Function.update_of_ne isThread]
      exact control.current

theorem V
    (sound : kernel.Sound) (key : Key) :
    ∃ next, kernel.V key = .ok next ∧ next.Sound ∧
      next.control = kernel.control ∧ next.level = kernel.level := by
  have split := Semaphore.V_spec (kernel.semaphores key)
  cases woken : (kernel.semaphores key).V.1 with
  | none =>
    rw [woken] at split
    have unchanged : (kernel.semaphores key).V.2.queue =
        queues kernel.semaphores key := split.symm
    have same : queues (Function.update kernel.semaphores key
        (kernel.semaphores key).V.2) = queues kernel.semaphores := by
      rw [queues_update, unchanged]
      exact Function.update_eq_self key _
    refine ⟨{ kernel with
      semaphores := Function.update kernel.semaphores key
        (kernel.semaphores key).V.2 }, ?_, ⟨sound.executing, ?_,
      sound.buried, sound.saved, sound.control⟩, rfl, rfl⟩
    · simp only [Kernel.V, Kernel.setLevel, woken]
      rfl
    · rw [same]
      exact sound.placed
  | some thread =>
    rw [woken] at split
    have first : queues kernel.semaphores key =
        thread :: (kernel.semaphores key).V.2.queue := split
    have member : thread ∈ queues kernel.semaphores key := by
      rw [first]
      exact List.mem_cons_self
    obtain ⟨isBlocked, unfinished⟩ :=
      (sound.placed.at_ thread).queued key member
    have notReady : thread ∉ kernel.readyList := by
      intro isReady
      rw [sound.placed.ready_of_mem isReady] at isBlocked
      cases isBlocked
    have placed := sound.placed.wake first
    rw [← queues_update] at placed
    refine ⟨{ kernel with
      status := Function.update kernel.status thread (some .ready)
      readyList := kernel.readyList ++ [thread]
      semaphores := Function.update kernel.semaphores key
        (kernel.semaphores key).V.2 }, ?_, ⟨sound.executing, placed,
      sound.buried.update unfinished _, sound.saved,
      sound.control_update (by simp [isBlocked]) (by simp)
        (fun _ => rfl)⟩, rfl, rfl⟩
    have readied := readyToRun_eq (kernel.setLevel .intOff) rfl
      (show kernel.status thread ≠ none by simp [isBlocked]) notReady
    simp only [Kernel.V]
    rw [show ((kernel.setLevel .intOff).semaphores key).V.1 = _ from woken]
    simp only [readied, ok_bind]
    rfl

theorem interrupt
    (sound : kernel.Sound) (interruptible : kernel.Interruptible)
    (key : Key) :
    ∃ next, kernel.interrupt key = .ok next ∧ next.Sound := by
  have setLevel {kernel : Kernel Thread Key} (sound : kernel.Sound)
      {level : IntStatus}
      (fits : kernel.control = .running ∨ level = kernel.level) :
      (kernel.setLevel level).Sound := by
    rcases fits with running | rfl
    · refine ⟨sound.executing, sound.placed, sound.buried, sound.saved, ?_⟩
      have control := sound.control
      rw [running] at control
      change ControlSound _ _ _ level kernel.control
      rw [running]
      exact control
    · exact sound
  have fits : kernel.control = .running ∨ .intOff = kernel.level := by
    have control := sound.control
    unfold Interruptible at interruptible
    cases doing : kernel.control with
    | running => exact Or.inl rfl
    | idling point =>
      rw [doing] at control
      exact Or.inr control.level.symm
    | switched | halted point =>
      rw [doing] at interruptible
      exact interruptible.elim
  obtain ⟨woken, performed, wokenSound, control, level⟩ :=
    (setLevel sound fits).V key
  refine ⟨woken.setLevel kernel.level, ?_, setLevel wokenSound ?_⟩
  · simp only [Kernel.interrupt, performed, ok_bind]
    rfl
  · rw [control, level]
    exact fits.imp id Eq.symm

omit [DecidableEq Key]

theorem fork
    (sound : kernel.Sound) {thread : Thread}
    (created : kernel.status thread = some .justCreated) :
    ∃ next, kernel.fork thread = .ok next ∧ next.Sound := by
  have loose : Loose (kernel.status thread) := by
    rw [created]
    simp [Loose]
  have exists_ : kernel.status thread ≠ none := by simp [created]
  have readied := readyToRun_eq { kernel.setLevel .intOff with
    saved := Function.update kernel.saved thread .threadRoot } rfl exists_
    (sound.placed.notReady loose)
  refine ⟨{ kernel with
    status := Function.update kernel.status thread (some .ready)
    readyList := kernel.readyList ++ [thread]
    saved := Function.update kernel.saved thread .threadRoot }, ?_,
    sound.executing, sound.placed.enqueue loose,
    sound.buried.update (sound.buried.unfinished exists_ loose.2) _, ?_,
    sound.control_update (by simp [created]) (by simp) (fun _ => rfl)⟩
  · simp only [Kernel.fork, readied, ok_bind]
    rfl
  · apply (Function.forall_update_iff kernel.saved (fun other point =>
      point = .finish → other ∈ kernel.finished)).mpr
    refine ⟨?_, fun other _ => sound.saved other⟩
    intro isFinish
    cases isFinish

theorem yield
    (sound : kernel.Sound) (running : kernel.control = .running) :
    ∃ next, kernel.yield = .ok next ∧ next.Sound := by
  have awake := sound.awake running
  have executing : kernel.executing = kernel.currentThread := awake.executing
  cases list : kernel.readyList with
  | nil =>
    refine ⟨kernel, ?_, sound⟩
    simp only [Kernel.yield, current_checked
      (show (kernel.setLevel .intOff).executing = _ from executing), ok_bind,
      findNextToRun_nil (kernel.setLevel .intOff) rfl list]
    rfl
  | cons thread rest =>
    have placed := awake.placed.enqueue awake.loose_executing
    change Placed _ (kernel.readyList ++ _) _ _ at placed
    rw [list, List.cons_append] at placed
    have notInRest : kernel.executing ∉ rest := by
      intro member
      refine awake.placed.notReady awake.loose_executing ?_
      change kernel.executing ∈ kernel.readyList
      rw [list]
      exact List.mem_cons_of_mem _ member
    have exists_ : kernel.status kernel.executing ≠ none := by
      simp [awake.status_executing]
    have readied := readyToRun_eq { kernel.setLevel .intOff with
      readyList := rest } rfl exists_ notInRest
    obtain ⟨next, performed, nextSound⟩ := @Sound.run _ _ { kernel with
      status := Function.update kernel.status kernel.executing (some .ready)
      readyList := thread :: (rest ++ [kernel.executing])
      level := .intOff } _ thread (.yield kernel.level)
      ⟨awake.executing, placed,
        awake.buried.update awake.unfinished_executing _, awake.saved,
        awake.suspended (Or.inr rfl)⟩ _ rfl
    refine ⟨next, ?_, nextSound⟩
    simp only [Kernel.yield, current_checked
      (show (kernel.setLevel .intOff).executing = _ from executing), ok_bind,
      findNextToRun_cons (kernel.setLevel .intOff) rfl list]
    refine (congrArg (· >>= _) readied).trans ?_
    exact performed

theorem finish
    (sound : kernel.Sound) (running : kernel.control = .running) :
    ∃ next, kernel.finish = .ok next ∧ next.Sound := by
  have awake := sound.awake running
  have executing : kernel.executing = kernel.currentThread := awake.executing
  have exists_ : kernel.status kernel.executing ≠ none := by
    simp [awake.status_executing]
  have buried := awake.buried.finish awake.unfinished_executing
  rw [executing] at buried
  obtain ⟨next, performed, nextSound⟩ := @Sound.sleep _ _ { kernel with
    level := .intOff
    finished := kernel.finished ++ [kernel.executing] } _ .finish executing
    exists_ ⟨executing, awake.placed.finish awake.loose_executing, by
      dsimp only
      rw [executing]
      exact buried,
      fun thread isFinish =>
        List.mem_append_left _ (awake.saved thread isFinish),
      awake.suspended (Or.inl rfl)⟩
  refine ⟨next, ?_, nextSound⟩
  simp only [Kernel.finish, current_checked
    (show (kernel.setLevel .intOff).executing = _ from executing), ok_bind]
  exact performed

theorem create_thread
    (sound : kernel.Sound) {thread : Thread}
    (running : kernel.control = .running)
    (new : kernel.status thread = none) (fresh : thread ∉ kernel.deleted) :
    { kernel with status :=
      Function.update kernel.status thread (some .justCreated) }.Sound := by
  have loose : Loose (kernel.status thread) := by
    rw [new]
    simp [Loose]
  have unfinished : thread ∉ kernel.finished := by
    rw [sound.buried.order, List.mem_append]
    rintro (isDeleted | isLeft)
    · exact fresh isDeleted
    · rw [sound.buried.left thread isLeft] at new
      cases new
  have notCurrent : thread ≠ kernel.currentThread := by
    rintro rfl
    have awake := sound.awake running
    have status := awake.status_executing
    rw [show kernel.executing = _ from awake.executing, new] at status
    cases status
  exact ⟨sound.executing, sound.placed.stay_loose loose (by simp [Loose]),
    sound.buried.update unfinished _, sound.saved,
    sound.control_update (by simp [new]) (by simp)
      (fun same => absurd same notCurrent)⟩

omit [DecidableEq Thread] in
theorem saved_ne_finish
    (sound : kernel.Sound) (switched : kernel.control = .switched) :
    kernel.saved kernel.executing ≠ .finish := by
  intro isFinish
  have control := sound.control
  rw [switched] at control
  have isRunning : kernel.status kernel.executing = some .running :=
    (control.1 kernel.executing).mpr sound.executing
  exact sound.buried.unfinished (by simp [isRunning]) (by simp [isRunning])
    (sound.saved kernel.executing isFinish)

variable [DecidableEq Key]

theorem resume
    (sound : kernel.Sound) (switched : kernel.control = .switched) :
    ∃ next, kernel.resume = .ok next ∧ next.Sound := by
  obtain ⟨checked, performed, awake, off⟩ := sound.checkToBeDestroyed switched
  have level : kernel.level = .intOff := by
    have control := sound.control
    rw [switched] at control
    exact control.2
  cases point : kernel.saved kernel.executing with
  | threadRoot =>
    refine ⟨_, ?_, awake.setLevel .intOn⟩
    simp only [Kernel.resume, point, Kernel.begin,
      current_checked sound.executing, performed, ok_bind]
    rfl
  | yield oldLevel =>
    refine ⟨_, ?_, awake.setLevel oldLevel⟩
    simp only [Kernel.resume, point, level_checked level, performed, ok_bind]
    rfl
  | P key oldLevel =>
    obtain ⟨next, tested, nextSound⟩ := awake.testP off key oldLevel
    refine ⟨next, ?_, nextSound⟩
    simp only [Kernel.resume, point, level_checked level, performed, ok_bind]
    exact tested
  | finish => exact absurd point (sound.saved_ne_finish switched)

/-- Every step of the scheduler can be performed, and keeps the invariant. -/
theorem step
    (sound : kernel.Sound) {event : Event Thread Key}
    (allowed : kernel.Allows event) :
    ∃ next, kernel.perform event = .ok next ∧ next.Sound := by
  cases event with
  | create thread =>
    obtain ⟨running, new, fresh⟩ := allowed
    exact ⟨_, rfl, sound.create_thread running new fresh⟩
  | fork thread => exact sound.fork allowed.2
  | setLevel now =>
    refine ⟨kernel.setLevel now, rfl, ?_⟩
    have relevelled := (sound.awake allowed).setLevel now
    rw [← show kernel.control = .running from allowed] at relevelled
    exact relevelled
  | yield => exact sound.yield allowed
  | P key =>
    have awake := sound.awake allowed
    exact @testP _ _ (kernel.setLevel .intOff) _ _ (awake.setLevel .intOff)
      rfl key kernel.level
  | V key =>
    obtain ⟨next, performed, nextSound, _⟩ := sound.V key
    exact ⟨next, performed, nextSound⟩
  | finish => exact sound.finish allowed
  | interrupt key => exact sound.interrupt allowed key
  | idled point =>
    refine sleepLoop ?_
    rw [← show kernel.control = .idling point from allowed]
    exact sound
  | halt point =>
    have buried := sound.buried
    have control := sound.control
    rw [show kernel.control = .idling point from allowed] at buried control
    exact ⟨_, rfl, sound.executing, sound.placed, buried, sound.saved, control⟩
  | resume => exact sound.resume allowed

end Sound

variable [DecidableEq Thread] [DecidableEq Key]

theorem sound_of_reachable
    (reachable : system.Reachable kernel) : kernel.Sound := by
  apply reachable.invariant
  · rintro state ⟨main, level, values, rfl⟩
    exact sound_create main level values
  · intro source event target sound taken
    obtain ⟨next, performed, nextSound⟩ := sound.step taken.1
    cases performed.symm.trans taken.2
    exact nextSound

def Idles (kernel : Kernel Thread Key) : Prop :=
  ∃ point, kernel.control = .idling point ∨ kernel.control = .halted point

structure Contract (kernel : Kernel Thread Key) : Prop where
  /-- Exactly the current thread is `RUNNING`, and it has not finished. -/
  running : ¬ kernel.Idles →
    OneRunning kernel.status kernel.currentThread ∧
      kernel.currentThread ∉ kernel.finished
  /-- Inside `Sleep` no thread is `RUNNING`, and the current one is `BLOCKED` or
  in the ready list. -/
  idling : kernel.Idles →
    (∀ thread, kernel.status thread ≠ some .running) ∧
      (kernel.status kernel.currentThread = some .blocked ∨
        kernel.currentThread ∈ kernel.readyList)
  /-- A thread is `READY` just if it is in the ready list, and then once. -/
  ready : ∀ thread,
    kernel.status thread = some .ready ↔ thread ∈ kernel.readyList
  readyOnce : kernel.readyList.Nodup
  /-- A `BLOCKED` thread that has not finished is in the queue of exactly one
  semaphore, once. -/
  blocked : ∀ thread, kernel.status thread = some .blocked →
    thread ∉ kernel.finished →
    ∃! key, thread ∈ (kernel.semaphores key).queue
  blockedOnce : ∀ key, (kernel.semaphores key).queue.Nodup
  /-- Nobody else is in a queue. -/
  queued : ∀ key, ∀ thread ∈ (kernel.semaphores key).queue,
    kernel.status thread = some .blocked ∧ thread ∉ kernel.finished
  /-- A finished thread is not on its way to be dispatched. -/
  finished : ∀ thread ∈ kernel.finished, thread ∉ kernel.readyList
  /-- Only finished threads are deleted, each once, and not while they are the
  current thread. -/
  deleted : kernel.deleted.Nodup ∧ ∀ thread ∈ kernel.deleted,
    thread ∈ kernel.finished ∧ kernel.status thread = none ∧
      thread ≠ kernel.currentThread
  /-- A finished thread is deleted as soon as another one runs. -/
  deletes : kernel.control = .running →
    ∀ thread ∈ kernel.finished, thread ∈ kernel.deleted
  toBeDestroyed : kernel.control ≠ .switched → kernel.toBeDestroyed = none
  /-- No step fails. -/
  safe : ∀ event, kernel.Allows event →
    ∃ next, kernel.perform event = .ok next

omit [DecidableEq Thread] [DecidableEq Key] in
theorem Sound.current_exists
    (sound : kernel.Sound) : kernel.status kernel.currentThread ≠ none := by
  have control := sound.control
  cases doing : kernel.control with
  | running | switched =>
    rw [doing] at control
    simp [(control.1 kernel.currentThread).mpr rfl]
  | idling point | halted point =>
    rw [doing] at control
    rcases control.current with isBlocked | isReady
    · simp [isBlocked]
    · simp [isReady]

/-- The scheduler keeps its contract over every sequence of steps, with any
number of threads and semaphores. -/
theorem scheduling_of_reachable
    (reachable : system.Reachable kernel) : kernel.Contract := by
  have sound := sound_of_reachable reachable
  refine ⟨?_, ?_, fun thread => (sound.placed.at_ thread).ready,
    sound.placed.nodup, ?_, sound.placed.queues, ?_, ?_, ?_, ?_, ?_, ?_⟩
  · intro awake
    have oneRunning :
        OneRunning kernel.status kernel.currentThread := by
      have control := sound.control
      cases doing : kernel.control with
      | running | switched =>
        rw [doing] at control
        exact control.1
      | idling point => exact absurd ⟨point, Or.inl doing⟩ awake
      | halted point => exact absurd ⟨point, Or.inr doing⟩ awake
    have isRunning := (oneRunning kernel.currentThread).mpr rfl
    exact ⟨oneRunning, sound.buried.unfinished (by simp [isRunning])
      (by simp [isRunning])⟩
  · rintro ⟨point, doing⟩
    have suspended : Suspended kernel.status kernel.currentThread
        kernel.toBeDestroyed kernel.level := by
      have control := sound.control
      rcases doing with doing | doing
      · rw [doing] at control
        exact control
      · rw [doing] at control
        exact control
    exact ⟨suspended.nobody, suspended.current.imp id
      (sound.placed.at_ kernel.currentThread).ready.mp⟩
  · intro thread isBlocked unfinished
    obtain ⟨key, member⟩ :=
      (sound.placed.at_ thread).blocked isBlocked unfinished
    exact ⟨key, member, fun other inOther =>
      (sound.placed.at_ thread).single other key inOther member⟩
  · exact fun key thread member =>
      (sound.placed.at_ thread).queued key member
  · intro thread isFinished isReady
    have ready := sound.placed.ready_of_mem isReady
    exact sound.buried.unfinished (by simp [ready]) (by simp [ready]) isFinished
  · have nodup := sound.buried.nodup
    rw [sound.buried.order] at nodup
    refine ⟨(List.nodup_append.mp nodup).1, fun thread isDeleted => ?_⟩
    have gone := sound.buried.gone thread isDeleted
    refine ⟨?_, gone, ?_⟩
    · rw [sound.buried.order]
      exact List.mem_append_left _ isDeleted
    · rintro rfl
      exact sound.current_exists gone
  · intro running thread isFinished
    have order := sound.buried.order
    rw [running] at order
    rw [order, undeleted, List.append_nil] at isFinished
    exact isFinished
  · intro notSwitched
    have control := sound.control
    cases doing : kernel.control with
    | running =>
      rw [doing] at control
      exact control.2
    | switched => exact absurd doing notSwitched
    | idling point | halted point =>
      rw [doing] at control
      exact control.toBeDestroyed
  · intro event allowed
    obtain ⟨next, performed, _⟩ := sound.step allowed
    exact ⟨next, performed⟩

theorem scheduling_after_finish :
    ∃ kernel : Kernel Nat Unit,
      system.Reachable kernel ∧ kernel.currentThread = 1 ∧
        kernel.toBeDestroyed = some 0 ∧ 0 ∉ kernel.readyList ∧
        ∃ next, kernel.perform .resume = .ok next := by
  have step {kernel next : Kernel Nat Unit}
      (reachable : system.Reachable kernel) (event : Event Nat Unit)
      (allowed : kernel.Allows event)
      (performed : kernel.perform event = .ok next) :
      system.Reachable next := .step reachable ⟨allowed, performed⟩
  have now : system.Reachable (create 0 .intOn (fun _ => 0) : Kernel Nat Unit) :=
    .start ⟨0, .intOn, _, rfl⟩
  have now := step now (.create 1) ⟨rfl, rfl, List.not_mem_nil⟩ rfl
  have now := step now (.fork 1) ⟨rfl, rfl⟩ rfl
  have now := step now .finish rfl rfl
  have contract := scheduling_of_reachable now
  exact ⟨_, now, rfl, rfl, contract.finished 0 List.mem_cons_self,
    contract.safe .resume rfl⟩

end Kernel

end Nachos
