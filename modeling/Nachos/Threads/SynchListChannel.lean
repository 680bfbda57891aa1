import Nachos.Threads.SynchList

/-!
# Synchronized lists are channels
-/

namespace Nachos

open Foundation

variable {Thread Item : Type} [DecidableEq Thread]

namespace SynchListUse

variable {use next : SynchListUse Thread Item} {thread : Thread}
variable {current task : SynchListTask Item}

theorem Recorded.waiting_congr
    (recorded : use.Recorded)
    (same : ∀ other, (next.task other).pending? = (use.task other).pending?) :
    (∀ other item, (next.task other).pending? = some item →
      item ∈ use.passed ∧ item ∉ use.appended) ∧
    ∀ first second item, (next.task first).pending? = some item →
      (next.task second).pending? = some item → first = second := by
  simp only [same]
  exact ⟨recorded.pending, recorded.distinct⟩

theorem Recorded.move
    (recorded : use.Recorded)
    (moved : next.task = Function.update use.task thread task)
    (located : use.task thread = current)
    (pending : task.pending? = current.pending?)
    (result : task.result? = current.result?)
    (same : next.list = use.list ∧ next.passed = use.passed ∧
      next.appended = use.appended ∧ next.removed = use.removed ∧
      next.returned = use.returned) :
    next.Recorded := by
  subst located
  obtain ⟨list, passed, appended, removed, returned⟩ := same
  have samePending : ∀ other,
      (next.task other).pending? = (use.task other).pending? := by
    rw [moved]
    exact read_update_eq SynchListTask.pending? pending
  have sameResult : ∀ other,
      (next.task other).result? = (use.task other).result? := by
    rw [moved]
    exact read_update_eq SynchListTask.result? result
  obtain ⟨stillPending, stillDistinct⟩ := recorded.waiting_congr samePending
  refine ⟨?_, ?_, ?_, stillDistinct, ?_⟩
  · rw [list, appended]
    exact recorded.listed
  · rw [passed, appended]
    exact recorded.passed
  · rw [passed, appended]
    exact stillPending
  · intro other
    rw [sameResult, removed, returned]
    exact recorded.results other

theorem Recorded.call
    (recorded : use.Recorded) {call : SynchListCall Item}
    (located : use.task thread = .idle)
    (fresh : ∀ item ∈ call.item?, item ∉ use.passed) :
    ({ use with passed := use.passed ++ call.item?.toList }.moveTo thread
      (.acquiring call)).Recorded := by
  have others : ∀ other item, (use.task other).pending? = some item →
      item ∉ call.item? :=
    fun other item waits passed =>
      fresh item passed (recorded.pending other item waits).1
  have result : ∀ other,
      (Function.update use.task thread (.acquiring call) other).result? =
        (use.task other).result? :=
    read_update_eq SynchListTask.result? (by rw [located]; rfl)
  refine ⟨recorded.listed, ?_, ?_, ?_, ?_⟩
  · exact fun item member =>
      List.mem_append_left _ (recorded.passed item member)
  · apply (Function.forall_update_iff use.task (fun other task => ∀ item,
      task.pending? = some item →
        item ∈ use.passed ++ call.item?.toList ∧ item ∉ use.appended)).mpr
    refine ⟨fun item isItem => ⟨?_, ?_⟩, fun other _ item waits => ?_⟩
    · exact List.mem_append_right _ (Option.mem_toList.mpr isItem)
    · exact fun member => fresh item isItem (recorded.passed item member)
    · obtain ⟨passed, notAppended⟩ := recorded.pending other item waits
      exact ⟨List.mem_append_left _ passed, notAppended⟩
  · intro first second item
    change (Function.update use.task thread _ first).pending? = _ →
      (Function.update use.task thread _ second).pending? = _ → _
    by_cases isFirst : first = thread <;> by_cases isSecond : second = thread
    · exact fun _ _ => isFirst.trans isSecond.symm
    · rw [isFirst, Function.update_self, Function.update_of_ne isSecond]
      exact fun isItem waits => absurd isItem (others second item waits)
    · rw [isSecond, Function.update_self, Function.update_of_ne isFirst]
      exact fun waits isItem => absurd isItem (others first item waits)
    · rw [Function.update_of_ne isFirst, Function.update_of_ne isSecond]
      exact recorded.distinct first second item
  · intro other
    refine (recorded.results other).trans ?_
    rw [← result other]
    rfl

theorem Recorded.append
    (recorded : use.Recorded) {item : Item}
    (located : use.task thread = .appending item) :
    ({ use with
      list := use.list ++ [item]
      appended := use.appended ++ [item] }.moveTo thread
        .signalCall).Recorded := by
  have own : (use.task thread).pending? = some item := by
    rw [located]
    rfl
  have pending : ∀ other number,
      (Function.update use.task thread .signalCall other).pending? =
        some number →
      other ≠ thread ∧ (use.task other).pending? = some number := by
    intro other number waits
    by_cases same : other = thread
    · rw [same, Function.update_self] at waits
      cases waits
    · rw [Function.update_of_ne same] at waits
      exact ⟨same, waits⟩
  have result : ∀ other,
      (Function.update use.task thread .signalCall other).result? =
        (use.task other).result? :=
    read_update_eq SynchListTask.result? (by rw [located]; rfl)
  refine ⟨?_, ?_, ?_, ?_, ?_⟩
  · intro number member
    rcases List.mem_append.mp member with old | new
    · exact List.mem_append_left _ (recorded.listed number old)
    · exact List.mem_append_right _ new
  · intro number member
    rcases List.mem_append.mp member with old | new
    · exact recorded.passed number old
    · rw [List.mem_singleton.mp new]
      exact (recorded.pending thread item own).1
  · intro other number waits
    obtain ⟨different, before⟩ := pending other number waits
    obtain ⟨passed, notAppended⟩ := recorded.pending other number before
    refine ⟨passed, fun member => ?_⟩
    rcases List.mem_append.mp member with old | new
    · exact notAppended old
    · rw [List.mem_singleton.mp new] at before
      exact different (recorded.distinct other thread item before own)
  · intro first second number firstWaits secondWaits
    exact recorded.distinct first second number
      (pending first number firstWaits).2 (pending second number secondWaits).2
  · intro other
    refine (recorded.results other).trans ?_
    rw [← result other]
    rfl

theorem Recorded.take
    (recorded : use.Recorded) {item : Item} {rest : List Item}
    (located : use.task thread = .taking) (first : use.list = item :: rest) :
    ({ use with
      list := rest
      removed := use.removed ++ [(thread, item)] }.moveTo thread
        (.releaseCall (some item))).Recorded := by
  obtain ⟨pending, distinct⟩ :=
    @waiting_congr _ _ _ _ (use.moveTo thread (.releaseCall (some item)))
      recorded (read_update_eq SynchListTask.pending? (by rw [located]; rfl))
  refine ⟨?_, recorded.passed, pending, distinct, ?_⟩
  · intro number member
    apply recorded.listed
    rw [first]
    exact List.mem_cons_of_mem _ member
  · intro other
    change ((use.removed ++ [(thread, item)]).filter _).map Prod.snd =
      use.returned other ++
        (Function.update use.task thread _ other).result?.toList
    rw [List.filter_append, List.map_append, recorded.results other]
    by_cases same : other = thread
    · rw [same, Function.update_self, located]
      simp [SynchListTask.result?]
    · rw [Function.update_of_ne same]
      simp [Ne.symm same]

theorem Recorded.released
    (recorded : use.Recorded) {result : Option Item}
    (located : use.task thread = .releasing result) :
    ({ use with
      returned := Function.update use.returned thread
        (use.returned thread ++ result.toList) }.moveTo thread
          .idle).Recorded := by
  obtain ⟨pending, distinct⟩ :=
    @waiting_congr _ _ _ _ (use.moveTo thread .idle) recorded
      (read_update_eq SynchListTask.pending? (by rw [located]; rfl))
  refine ⟨recorded.listed, recorded.passed, pending, distinct, ?_⟩
  intro other
  change _ = Function.update use.returned thread _ other ++
    (Function.update use.task thread _ other).result?.toList
  refine (recorded.results other).trans ?_
  by_cases same : other = thread
  · rw [same, Function.update_self, Function.update_self, located]
    simp [SynchListTask.result?]
  · rw [Function.update_of_ne same, Function.update_of_ne same]

namespace Sound

theorem answers_kept
    (sound : use.Sound)
    (moved : next.task = Function.update use.task thread task)
    (others : ∀ other, other ≠ thread →
      use.condition.Undisturbed next.condition other) :
    ∀ other ∈ use.answering, other ≠ thread → other ∈ next.answering := by
  intro other answers different
  change Answers next.condition other (next.task other)
  rw [moved, Function.update_of_ne different]
  exact Answers.frame answers sound.condition (others other different)

theorem finite_step
    (sound : use.Sound)
    (moved : next.task = Function.update use.task thread task) :
    { other | next.task other ≠ .idle }.Finite := by
  apply (sound.finite.insert thread).subset
  intro other busy
  by_cases same : other = thread
  · exact Or.inl same
  · right
    change next.task other ≠ .idle at busy
    rw [moved, Function.update_of_ne same] at busy
    exact busy

omit [DecidableEq Thread] in
theorem finite_answering
    (finite : { other | next.task other ≠ .idle }.Finite) :
    next.answering.Finite :=
  finite.subset (fun _ answers => Answers.ne_idle answers)

/-- After a step, the thread that took it is where it should be, and the others
are undisturbed. -/
theorem assemble
    (sound : use.Sound)
    (moved : next.task = Function.update use.task thread task)
    (condition : next.condition.Sound)
    (others : ∀ other, other ≠ thread →
      use.condition.Undisturbed next.condition other)
    (list : ∀ other, other ≠ thread →
      use.condition.lock.phase other = .holding → next.list = use.list)
    (self : TaskSound next.condition next.list thread task)
    (recorded : next.Recorded)
    (covered : next.condition.waiters.waitQueue ≠ [] →
      next.list.length ≤ next.answering.ncard) :
    next.Sound where
  condition := condition
  tasks := by
    intro other
    rw [moved]
    by_cases same : other = thread
    · rw [same, Function.update_self]
      exact self
    · rw [Function.update_of_ne same]
      exact (sound.tasks other).frame sound.condition (others other same)
        (list other same)
  recorded := recorded
  finite := sound.finite_step moved
  covered := covered

/-- A step that leaves the list alone keeps every item covered if its thread
answers on. -/
theorem covered_step
    (sound : use.Sound) {condition : ConditionUse Thread}
    (others : ∀ other, other ≠ thread →
      use.condition.Undisturbed condition other)
    (queue : condition.waiters.waitQueue ≠ [] →
      use.condition.waiters.waitQueue ≠ [])
    (located : use.task thread = current)
    (self : Answers use.condition thread current →
      Answers condition thread task)
    (waiting : condition.waiters.waitQueue ≠ []) :
    use.list.length ≤
      ({ use with condition := condition }.moveTo thread
        task).answering.ncard := by
  subst located
  have moved : ({ use with condition := condition }.moveTo thread task).task =
      Function.update use.task thread task := rfl
  refine (sound.covered (queue waiting)).trans
    (Set.ncard_le_ncard ?_ (finite_answering (sound.finite_step moved)))
  intro other answers
  by_cases same : other = thread
  · subst same
    change Answers condition other (Function.update use.task other task other)
    rw [Function.update_self]
    exact self answers
  · exact sound.answers_kept moved others other answers same

theorem advance
    (sound : use.Sound) {condition : ConditionUse Thread}
    (conditionSound : condition.Sound)
    (others : ∀ other, other ≠ thread →
      use.condition.Undisturbed condition other)
    (self : TaskSound condition use.list thread task)
    (located : use.task thread = current)
    (pending : task.pending? = current.pending?)
    (result : task.result? = current.result?)
    (covered : condition.waiters.waitQueue ≠ [] → use.list.length ≤
      ({ use with condition := condition }.moveTo thread
        task).answering.ncard) :
    ({ use with condition := condition }.moveTo thread task).Sound :=
  sound.assemble rfl conditionSound others (fun _ _ _ => rfl) self
    (sound.recorded.move rfl located pending result
      ⟨rfl, rfl, rfl, rfl, rfl⟩)
    covered

omit [DecidableEq Thread] in
theorem undisturbed
    {condition : ConditionUse Thread} :
    ∀ other, other ≠ thread → condition.Undisturbed condition other :=
  fun _ _ => ConditionUse.Sound.undisturbed_refl rfl rfl rfl

theorem control
    (sound : use.Sound)
    (self : TaskSound use.condition use.list thread task)
    (located : use.task thread = current)
    (pending : task.pending? = current.pending?)
    (result : task.result? = current.result?)
    (answers : use.list = [] ∨
      (Answers use.condition thread current →
        Answers use.condition thread task)) :
    (use.moveTo thread task).Sound := by
  refine sound.advance sound.condition undisturbed self located pending
    result ?_
  rcases answers with empty | answers
  · intro _
    rw [empty]
    exact Nat.zero_le _
  · exact sound.covered_step undisturbed id located answers

theorem lock_step
    (sound : use.Sound) {event : LockUse.Event Thread}
    (resting : use.condition.phase event.thread = .rest)
    (allowed : use.condition.lock.Allows event)
    (located : use.task event.thread = current)
    (silent : ¬ Answers use.condition event.thread current)
    (pending : task.pending? = current.pending?)
    (result : task.result? = current.result?)
    (self : ∀ condition : ConditionUse Thread,
      condition.phase event.thread = .rest →
      event.Follows (use.condition.lock.phase event.thread)
        (condition.lock.phase event.thread) →
      TaskSound condition use.list event.thread task) :
    ∃ condition, use.condition.perform (.lock event) = .ok condition ∧
      ({ use with condition := condition }.moveTo event.thread task).Sound := by
  have permitted : use.condition.AllowsLock event := by
    unfold ConditionUse.AllowsLock
    rw [resting]
    trivial
  obtain ⟨condition, phase, performed, conditionSound, others, samePhase,
    sameWaiters, lockPhase, follows⟩ :=
    sound.condition.lock_step permitted allowed
  refine ⟨condition, performed, sound.advance conditionSound others ?_ located
    pending result (sound.covered_step others ?_ located
      (fun answers => absurd answers silent))⟩
  · apply self condition
    · rw [samePhase]
      exact resting
    · rw [lockPhase, Function.update_self]
      exact follows
  · rw [sameWaiters]
    exact id

omit [DecidableEq Thread] in
theorem task_eq_waiting
    {condition : ConditionUse Thread} {list : List Item}
    (sound : TaskSound condition list thread task)
    (inWait : (condition.phase thread).inWait = true)
    (busy : condition.phase thread ≠ .rest) :
    task = .waiting := by
  cases task with
  | waiting => rfl
  | signalling =>
    rw [ConditionPhase.inWait_eq_false sound.1 busy] at inWait
    cases inWait
  | idle | acquiring call | appending item | signalCall | testing again
  | waitCall | taking | releaseCall result | releasing result =>
    exact absurd sound.1 busy

theorem covered_of_release
    (sound : use.Sound) {condition : ConditionUse Thread}
    (signalling : use.task thread = .signalling)
    (others : ∀ other, other ≠ thread →
      use.condition.Undisturbed condition other)
    (queue : condition.waiters.waitQueue ≠ [] →
      use.condition.waiters.waitQueue ≠ []) {waiter : Nat}
    (blocked : use.condition.waiters.Blocked waiter)
    (released : ¬ condition.waiters.Blocked waiter)
    (waiting : condition.waiters.waitQueue ≠ []) :
    use.list.length ≤
      ({ use with condition := condition }.moveTo thread
        task).answering.ncard := by
  have moved : ({ use with condition := condition }.moveTo thread task).task =
      Function.update use.task thread task := rfl
  obtain ⟨consumer, waits, _⟩ :=
    sound.condition.waiters.existsUnique_waitsOn blocked
  obtain ⟨inWait, busy⟩ := sound.condition.inWait_of_waitsOn waits
  have isWaiting := task_eq_waiting (sound.tasks consumer) inWait busy
  have role : (use.condition.waiters.role consumer).waiter? =
      some waiter := by
    rcases waits with role | role <;> rw [role] <;> rfl
  have different : consumer ≠ thread := by
    rintro rfl
    cases signalling.symm.trans isWaiting
  have enters : consumer ∈
      ({ use with condition := condition }.moveTo thread task).answering := by
    change Answers condition consumer
      (Function.update use.task thread task consumer)
    rw [Function.update_of_ne different, isWaiting]
    refine Or.inr ⟨waiter, ?_, released⟩
    rw [(others consumer different).role]
    exact role
  have new : consumer ∉ use.answering := by
    intro answers
    change Answers use.condition consumer (use.task consumer) at answers
    rw [isWaiting] at answers
    obtain ⟨number, alsoRole, notBlocked⟩ := answers.resolve_left busy
    cases role.symm.trans alsoRole
    exact notBlocked blocked
  exact (sound.covered (queue waiting)).trans (ncard_le_of_exchange
    (finite_answering (sound.finite_step moved))
    (sound.answers_kept moved others) enters new)

omit [DecidableEq Thread] in
theorem task_at
    {condition : ConditionUse Thread} {list : List Item}
    {tasks : Thread → SynchListTask Item}
    (sound : ∀ thread, TaskSound condition list thread (tasks thread))
    (located : tasks thread = task) :
    TaskSound condition list thread task := by
  rw [← located]
  exact sound thread

theorem condition_step
    (sound : use.Sound) {event : ConditionUse.Event Thread}
    (permitted : use.Permits event)
    (allowed : use.condition.Allows event) :
    ∃ condition, use.condition.perform event = .ok condition ∧
      { use with condition := condition }.Sound := by
  -- A task that stays as it is, is updated to itself.
  have unmoved : ∀ condition : ConditionUse Thread,
      { use with condition := condition }.moveTo event.thread
        (use.task event.thread) = { use with condition := condition } := by
    intro condition
    simp [moveTo]
  unfold Permits at permitted
  cases located : use.task event.thread with
  | acquiring call =>
    rw [located] at permitted unmoved
    obtain ⟨notHolding, inner, rfl, ofAcquire⟩ := permitted
    change use.task inner.thread = _ at located
    obtain ⟨resting, inAcquire⟩ := task_at sound.tasks located
    obtain ⟨condition, performed, nextSound⟩ :=
      sound.lock_step resting allowed.2 located id rfl rfl
        (fun _ stillResting follows => ⟨stillResting,
          follows.1 ofAcquire notHolding inAcquire⟩)
    exact ⟨condition, performed, unmoved condition ▸ nextSound⟩
  | releasing result =>
    rw [located] at permitted unmoved
    obtain ⟨inner, rfl, ofRelease⟩ := permitted
    change use.task inner.thread = _ at located
    obtain ⟨resting, _⟩ := task_at sound.tasks located
    obtain ⟨condition, performed, nextSound⟩ :=
      sound.lock_step resting allowed.2 located id rfl rfl
        (fun _ stillResting follows => ⟨stillResting,
          follows.2 ofRelease⟩)
    exact ⟨condition, performed, unmoved condition ▸ nextSound⟩
  | signalling =>
    rw [located] at permitted unmoved
    obtain ⟨inSignal, holding⟩ := task_at sound.tasks located
    obtain ⟨condition, performed, conditionSound, others⟩ :=
      sound.condition.step allowed
    have step := sound.condition.signal_step inSignal permitted allowed
      performed
    refine ⟨condition, performed, unmoved condition ▸
      sound.advance conditionSound others ⟨step.inSignal, ?_⟩
        located rfl rfl ?_⟩
    · rw [step.lock]
      exact holding
    · by_cases before :
        (use.condition.phase event.thread).beforeV = true
      · rcases step.releases before with still | empty |
          ⟨waiter, blocked, released⟩
        · exact sound.covered_step others step.queue located
            (fun _ => still)
        · exact fun waiting => absurd empty waiting
        · exact sound.covered_of_release located others step.queue blocked
            released
      · exact sound.covered_step others step.queue located
          (fun answers => absurd answers before)
  | waiting =>
    rw [located] at permitted unmoved
    obtain ⟨inWait, _, queues⟩ := task_at sound.tasks located
    obtain ⟨condition, performed, conditionSound, others⟩ :=
      sound.condition.step allowed
    have step := sound.condition.wait_step inWait permitted allowed performed
    refine ⟨condition, performed, unmoved condition ▸
      sound.advance conditionSound others ⟨step.inWait, step.returns,
        fun before => queues (step.before before)⟩ located rfl rfl ?_⟩
    by_cases before :
      (use.condition.phase event.thread).beforeQueue = true
    · intro _
      rw [queues before]
      exact Nat.zero_le _
    · exact sound.covered_step others
        (fun waiting => (step.queue waiting).resolve_right before) located
        step.woken
  | idle | appending item | signalCall | testing again | waitCall | taking
  | releaseCall result =>
    rw [located] at permitted
    exact permitted.elim

theorem call
    (sound : use.Sound) {call : SynchListCall Item}
    (located : use.task thread = .idle)
    (fresh : ∀ item ∈ call.item?, item ∉ use.passed) :
    ({ use with passed := use.passed ++ call.item?.toList }.moveTo thread
      (.acquiring call)).Sound := by
  obtain ⟨resting, outside⟩ := task_at sound.tasks located
  refine sound.assemble rfl sound.condition undisturbed (fun _ _ _ => rfl)
    ⟨resting, ?_⟩ (sound.recorded.call located fresh)
    (sound.covered_step undisturbed id located False.elim)
  change (use.condition.lock.phase thread).inAcquire = true
  rw [outside]
  rfl

/-- The producer of an item in the list answers for it. -/
theorem append
    (sound : use.Sound) {item : Item}
    (located : use.task thread = .appending item) :
    ({ use with
      list := use.list ++ [item]
      appended := use.appended ++ [item] }.moveTo thread
        .signalCall).Sound := by
  obtain ⟨resting, holding⟩ := task_at sound.tasks located
  refine sound.assemble rfl sound.condition undisturbed ?_
    ⟨resting, holding⟩ (sound.recorded.append located) ?_
  · intro other different otherHolding
    exact absurd otherHolding (sound.condition.exclusive holding different)
  · intro waiting
    have moved : ({ use with
        list := use.list ++ [item]
        appended := use.appended ++ [item] }.moveTo thread .signalCall).task =
          Function.update use.task thread .signalCall := rfl
    have silent : thread ∉ use.answering := by
      change ¬ Answers use.condition thread (use.task thread)
      rw [located]
      exact id
    have enters : thread ∈ ({ use with
        list := use.list ++ [item]
        appended := use.appended ++ [item] }.moveTo thread
          .signalCall).answering := by
      change Answers use.condition thread
        (Function.update use.task thread .signalCall thread)
      rw [Function.update_self]
      trivial
    calc (use.list ++ [item]).length
        = use.list.length + 1 := List.length_append
      _ ≤ use.answering.ncard + 1 :=
          Nat.succ_le_succ (sound.covered waiting)
      _ ≤ _ := by
          refine succ_ncard_le (finite_answering (sound.finite_step moved)) ?_
            enters silent
          intro other answers
          exact sound.answers_kept moved undisturbed other answers
            (fun same => silent (same ▸ answers))

theorem take
    (sound : use.Sound) {item : Item} {rest : List Item}
    (located : use.task thread = .taking) (first : use.list = item :: rest) :
    ({ use with
      list := rest
      removed := use.removed ++ [(thread, item)] }.moveTo thread
        (.releaseCall (some item))).Sound := by
  obtain ⟨resting, holding, _⟩ := task_at sound.tasks located
  refine sound.assemble rfl sound.condition undisturbed ?_
    ⟨resting, holding⟩ (sound.recorded.take located first) ?_
  · intro other different otherHolding
    exact absurd otherHolding (sound.condition.exclusive holding different)
  · intro waiting
    have moved : ({ use with
        list := rest
        removed := use.removed ++ [(thread, item)] }.moveTo thread
          (.releaseCall (some item))).task =
            Function.update use.task thread (.releaseCall (some item)) := rfl
    have covered := (sound.covered waiting).trans (ncard_le_succ
      (finite_answering (sound.finite_step moved))
      (sound.answers_kept moved undisturbed))
    rw [first, List.length_cons] at covered
    exact Nat.le_of_succ_le_succ covered

theorem released
    (sound : use.Sound) {result : Option Item}
    (located : use.task thread = .releasing result)
    (outside : use.condition.lock.phase thread = .outside) :
    ({ use with
      returned := Function.update use.returned thread
        (use.returned thread ++ result.toList) }.moveTo thread
          .idle).Sound := by
  obtain ⟨resting, _⟩ := task_at sound.tasks located
  exact sound.assemble rfl sound.condition undisturbed (fun _ _ _ => rfl)
    ⟨resting, outside⟩ (sound.recorded.released located)
    (sound.covered_step undisturbed id located False.elim)

variable [DecidableEq Item]

theorem signal
    (sound : use.Sound) (located : use.task thread = .signalCall) :
    ∃ next, use.perform (.signal thread) = .ok next ∧ next.Sound ∧
      next.channel = use.channel := by
  obtain ⟨resting, holding⟩ := task_at sound.tasks located
  obtain ⟨condition, performed, conditionSound, others⟩ :=
    sound.condition.step (show use.condition.Allows (.signal thread) from
      ⟨resting, holding⟩)
  cases performed
  refine ⟨_, rfl, sound.advance conditionSound others ⟨?_, holding⟩ located rfl
    rfl (sound.covered_step others id located (fun _ => ?_)), rfl⟩
  · rw [ConditionUse.phase_moveTo_self]
    rfl
  · change (ConditionUse.phase _ thread).beforeV = true
    rw [ConditionUse.phase_moveTo_self]
    rfl

theorem test
    (sound : use.Sound) {again : Bool}
    (located : use.task thread = .testing again) :
    ∃ next, use.perform (.test thread again) = .ok next ∧ next.Sound ∧
      next.channel = use.channel := by
  obtain ⟨resting, holding⟩ := task_at sound.tasks located
  by_cases empty : use.list = []
  · exact ⟨use.moveTo thread .waitCall,
      if_pos (List.isEmpty_iff.mpr empty),
      sound.control ⟨resting, holding, empty⟩ located rfl rfl
        (Or.inl empty), rfl⟩
  · exact ⟨use.moveTo thread .taking,
      if_neg (fun isEmpty => empty (List.isEmpty_iff.mp isEmpty)),
      sound.control ⟨resting, holding, empty⟩ located rfl rfl
        (Or.inr (fun _ => trivial)), rfl⟩

theorem wait
    (sound : use.Sound) (located : use.task thread = .waitCall) :
    ∃ next, use.perform (.wait thread) = .ok next ∧ next.Sound ∧
      next.channel = use.channel := by
  obtain ⟨resting, holding, empty⟩ := task_at sound.tasks located
  obtain ⟨condition, performed, conditionSound, others⟩ :=
    sound.condition.step (show use.condition.Allows (.wait thread) from
      ⟨resting, holding⟩)
  cases performed
  refine ⟨_, rfl, sound.advance conditionSound others
    ⟨?_, fun _ => holding, fun _ => empty⟩ located rfl rfl (fun _ => ?_), rfl⟩
  · rw [ConditionUse.phase_moveTo_self]
    rfl
  · rw [empty]
    exact Nat.zero_le _

theorem release
    (sound : use.Sound) {result : Option Item}
    (located : use.task thread = .releaseCall result) :
    ∃ next, use.perform (.release thread result) = .ok next ∧ next.Sound ∧
      next.channel = use.channel := by
  obtain ⟨resting, holding⟩ := task_at sound.tasks located
  obtain ⟨condition, performed, nextSound⟩ :=
    sound.lock_step (show use.condition.phase
        (LockUse.Event.release thread).thread = .rest from resting)
      holding located id
      (show (SynchListTask.releasing result).pending? = none from rfl) rfl
      (fun _ stillResting follows => ⟨stillResting, follows.2 rfl⟩)
  exact ⟨_, by simp only [perform, performed, ok_bind]; rfl, nextSound, rfl⟩

/-- A step that is allowed does not fail, keeps the invariant, and sends or
receives an item or does neither. -/
theorem step
    (sound : use.Sound) {event : Event Thread Item}
    (allowed : use.Allows event) :
    ∃ next, use.perform event = .ok next ∧ next.Sound ∧
      (next.channel = use.channel ∨
        ∃ transfer, Channel.system.step use.channel transfer
          next.channel) := by
  cases event with
  | call thread call =>
    exact ⟨_, rfl, sound.call allowed.1 allowed.2, Or.inl rfl⟩
  | condition event =>
    obtain ⟨condition, performed, nextSound⟩ :=
      sound.condition_step allowed.1 allowed.2
    exact ⟨{ use with condition := condition },
      by simp [perform, performed], nextSound, Or.inl rfl⟩
  | acquired thread call =>
    obtain ⟨located, holding⟩ := allowed
    obtain ⟨resting, _⟩ := task_at sound.tasks located
    refine ⟨_, rfl, sound.control ?_ located ?_ ?_ (Or.inr False.elim),
      Or.inl rfl⟩ <;> cases call
    · exact ⟨resting, holding⟩
    · exact ⟨resting, holding⟩
    all_goals rfl
  | append thread item =>
    have own : (use.task thread).pending? = some item := by
      rw [show use.task thread = _ from allowed]
      rfl
    have fresh := (sound.recorded.pending thread item own).2
    have absent : item ∉ use.list :=
      fun member => fresh (sound.recorded.listed item member)
    exact ⟨_, by simp only [perform, listAppend_eq absent, ok_bind]; rfl,
      sound.append allowed, Or.inr ⟨.send item, fresh, rfl⟩⟩
  | signal thread =>
    obtain ⟨next, performed, nextSound, silent⟩ := sound.signal allowed
    exact ⟨next, performed, nextSound, Or.inl silent⟩
  | signalled thread =>
    obtain ⟨located, resting⟩ := allowed
    obtain ⟨_, holding⟩ := task_at sound.tasks located
    refine ⟨_, rfl, sound.control ⟨resting, holding⟩ located rfl rfl
      (Or.inr (fun owes => ?_)), Or.inl rfl⟩
    change (use.condition.phase thread).beforeV = true at owes
    rw [resting] at owes
    cases owes
  | test thread again =>
    obtain ⟨next, performed, nextSound, silent⟩ := sound.test allowed
    exact ⟨next, performed, nextSound, Or.inl silent⟩
  | wait thread =>
    obtain ⟨next, performed, nextSound, silent⟩ := sound.wait allowed
    exact ⟨next, performed, nextSound, Or.inl silent⟩
  | waited thread =>
    obtain ⟨located, resting⟩ := allowed
    obtain ⟨_, returns, _⟩ := task_at sound.tasks located
    exact ⟨_, rfl, sound.control ⟨resting, returns resting⟩ located rfl rfl
      (Or.inr (fun _ => rfl)), Or.inl rfl⟩
  | take thread =>
    obtain ⟨_, _, nonempty⟩ := task_at sound.tasks allowed
    obtain ⟨item, rest, first⟩ := List.exists_cons_of_ne_nil nonempty
    refine ⟨_, by simp only [perform, first, listRemoveFront, ok_bind]; rfl,
      sound.take allowed first, Or.inr ⟨.receive item, rest, first, ?_⟩⟩
    simp [channel, moveTo]
  | release thread result =>
    obtain ⟨next, performed, nextSound, silent⟩ := sound.release allowed
    exact ⟨next, performed, nextSound, Or.inl silent⟩
  | released thread result =>
    exact ⟨_, rfl, sound.released allowed.1 allowed.2, Or.inl rfl⟩

end Sound

variable [DecidableEq Item]

theorem sound_of_reachable
    (reachable : system.Reachable use) : use.Sound := by
  apply reachable.invariant
  · intro state starting
    rw [show state = create from starting]
    exact sound_create
  · intro source event target sound taken
    obtain ⟨next, performed, nextSound, _⟩ := sound.step taken.1
    cases performed.symm.trans taken.2
    exact nextSound

theorem refines_channel :
    TransitionSystem.Projection (system : TransitionSystem
      (SynchListUse Thread Item) (Event Thread Item)) Channel.system
      channel where
  start := by
    intro state starting
    rw [show state = create from starting]
    rfl
  step := by
    intro source event target reachable taken
    obtain ⟨next, performed, _, transfers⟩ :=
      (sound_of_reachable reachable).step taken.1
    cases performed.symm.trans taken.2
    exact transfers

structure Contract (use : SynchListUse Thread Item) : Prop where
  /-- `List::RemoveFront` is never called on an empty list. -/
  nonempty : ∀ thread, use.task thread = .taking → use.list ≠ []
  /-- The items taken off the list, in that order, and those in it are the
  items put in it, in that order. -/
  order : use.removed.map Prod.snd ++ use.list = use.appended
  /-- No item was put in the list twice. -/
  nodup : use.appended.Nodup
  /-- Each call of `RemoveFront` returns the item that it took off the list. -/
  results : ∀ thread,
    (use.removed.filter (fun entry => entry.1 = thread)).map Prod.snd =
      use.returned thread ++ (use.task thread).result?.toList
  /-- Who is in the wait queue is a consumer. -/
  consumers : ∀ waiter ∈ use.condition.waiters.waitQueue,
    ∃ thread, use.task thread = .waiting ∧
      use.condition.waiters.WaitsOn thread waiter
  /-- No wakeup is lost. -/
  covered : use.condition.lock.lockHolder = none ∨
      use.condition.lock.semaphore.semaphore.value = 1 →
    use.condition.waiters.waitQueue ≠ [] →
    use.signalled.Finite ∧ use.list.length ≤ use.signalled.ncard
  /-- No step fails. -/
  safe : ∀ event, use.Allows event → ∃ next, use.perform event = .ok next

/-- A synchronized list is a first-in, first-out channel that loses no wakeup,
under every schedule of any number of producers and consumers. -/
theorem fifo_channel_of_reachable
    (reachable : system.Reachable use) : use.Contract := by
  have sound := sound_of_reachable reachable
  obtain ⟨order, nodup⟩ :=
    Channel.fifo_of_reachable (refines_channel.reachable reachable)
  refine ⟨?_, order, nodup, sound.recorded.results, ?_, ?_, ?_⟩
  · intro thread located
    exact (Sound.task_at sound.tasks located).2.2
  · intro waiter queued
    obtain ⟨thread, waits, _⟩ :=
      sound.condition.waiters.existsUnique_waitsOn (Or.inl queued)
    obtain ⟨inWait, busy⟩ := sound.condition.inWait_of_waitsOn waits
    exact ⟨thread, Sound.task_eq_waiting (sound.tasks thread) inWait busy,
      waits⟩
  · intro free waiting
    have nobody : ∀ thread,
        use.condition.lock.phase thread ≠ .holding := by
      intro thread holding
      have held := sound.condition.lock.lockHolder_eq holding rfl
      have zero := (sound.condition.lock.occupied
        (show _ = true by rw [holding]; rfl)).1
      rcases free with noHolder | one
      · rw [noHolder] at held
        cases held
      · rw [one] at zero
        cases zero
    have same : use.answering = use.signalled := by
      ext thread
      refine ⟨fun answers => ?_, Signalled.answers⟩
      exact (Answers.signalled_or_holding answers
        (sound.tasks thread)).resolve_right (nobody thread)
    rw [← same]
    exact ⟨Sound.finite_answering sound.finite, sound.covered waiting⟩
  · intro event allowed
    obtain ⟨next, performed, _⟩ := sound.step allowed
    exact ⟨next, performed⟩

theorem fifo_channel_with_two_consumers :
    ∃ use : SynchListUse Nat Nat,
      system.Reachable use ∧ use.condition.waiters.waitQueue = [1] ∧
        use.list = [7] ∧ use.condition.lock.lockHolder = none ∧
        1 ≤ use.signalled.ncard := by
  have step {use next : SynchListUse Nat Nat}
      (reachable : system.Reachable use) (event : Event Nat Nat)
      (allowed : use.Allows event) (performed : use.perform event = .ok next) :
      system.Reachable next := .step reachable ⟨allowed, performed⟩
  have outside : LockPhase.outside ≠ .holding := by decide
  have passed : LockPhase.passed false ≠ .holding := by decide
  have called : ConditionPhase.waitCalled ≠ .rest := by simp
  have checked : ConditionPhase.waitChecked ≠ .rest := by simp
  have releasing (waiter : Nat) :
      ConditionPhase.waitReleasing waiter ≠ .rest := by simp
  have signalCalled (call : WakeCall) :
      ConditionPhase.signalCalled call ≠ .rest := by simp
  have signalChecked (call : WakeCall) :
      ConditionPhase.signalChecked call ≠ .rest := by simp
  have removing (call : WakeCall) :
      ConditionPhase.removing call ≠ .rest := by simp
  have waking (call : WakeCall) (waiter : Nat) :
      ConditionPhase.waking call waiter ≠ .rest := by simp
  have woken (call : WakeCall) : ConditionPhase.woken call ≠ .rest := by simp
  have now : system.Reachable (create : SynchListUse Nat Nat) := .start rfl
  -- The consumers find the list empty and wait.
  have now := step now (.call 1 .removeFront)
    ⟨rfl, fun _ passed => (nomatch passed)⟩ rfl
  have now := step now (.condition (.lock (.acquire 1)))
    ⟨⟨outside, _, rfl, rfl⟩, trivial, Or.inl rfl⟩ rfl
  have now := step now (.condition (.lock (.assign 1)))
    ⟨⟨passed, _, rfl, rfl⟩, trivial, false, rfl⟩ rfl
  have now := step now (.acquired 1 .removeFront) ⟨rfl, rfl⟩ rfl
  have now := step now (.test 1 false) rfl rfl
  have now := step now (.wait 1) rfl rfl
  have now := step now (.condition (.checkWait 1)) ⟨called, rfl⟩ rfl
  have now := step now (.condition (.enqueue 1)) ⟨checked, rfl⟩ rfl
  have now := step now (.condition (.lock (.release 1)))
    ⟨releasing 0, rfl, rfl⟩ rfl
  have now := step now (.condition (.lock (.check 1)))
    ⟨releasing 0, rfl, rfl⟩ rfl
  have now := step now (.condition (.lock (.clear 1)))
    ⟨releasing 0, rfl, rfl⟩ rfl
  have now := step now (.condition (.lock (.V 1))) ⟨releasing 0, rfl, rfl⟩ rfl
  have now := step now (.call 2 .removeFront)
    ⟨rfl, fun _ passed => (nomatch passed)⟩ rfl
  have now := step now (.condition (.lock (.acquire 2)))
    ⟨⟨outside, _, rfl, rfl⟩, trivial, Or.inl rfl⟩ rfl
  have now := step now (.condition (.lock (.assign 2)))
    ⟨⟨passed, _, rfl, rfl⟩, trivial, false, rfl⟩ rfl
  have now := step now (.acquired 2 .removeFront) ⟨rfl, rfl⟩ rfl
  have now := step now (.test 2 false) rfl rfl
  have now := step now (.wait 2) rfl rfl
  have now := step now (.condition (.checkWait 2)) ⟨called, rfl⟩ rfl
  have now := step now (.condition (.enqueue 2)) ⟨checked, rfl⟩ rfl
  have now := step now (.condition (.lock (.release 2)))
    ⟨releasing 1, rfl, rfl⟩ rfl
  have now := step now (.condition (.lock (.check 2)))
    ⟨releasing 1, rfl, rfl⟩ rfl
  have now := step now (.condition (.lock (.clear 2)))
    ⟨releasing 1, rfl, rfl⟩ rfl
  have now := step now (.condition (.lock (.V 2))) ⟨releasing 1, rfl, rfl⟩ rfl
  -- The producer appends an item and signals the first of them.
  have now := step now (.call 3 (.append 7))
    ⟨rfl, fun _ _ passed => (nomatch passed)⟩ rfl
  have now := step now (.condition (.lock (.acquire 3)))
    ⟨⟨outside, _, rfl, rfl⟩, trivial, Or.inl rfl⟩ rfl
  have now := step now (.condition (.lock (.assign 3)))
    ⟨⟨passed, _, rfl, rfl⟩, trivial, false, rfl⟩ rfl
  have now := step now (.acquired 3 (.append 7)) ⟨rfl, rfl⟩ rfl
  have now := step now (.append 3 7) rfl rfl
  have now := step now (.signal 3) rfl rfl
  have now := step now (.condition (.checkSignal 3 ⟨false, [0, 1], [], 0⟩))
    ⟨signalCalled _, rfl⟩ rfl
  have now := step now (.condition (.test 3 ⟨false, [0, 1], [], 1⟩))
    ⟨signalChecked _, rfl⟩ rfl
  have now := step now (.condition (.remove 3 ⟨false, [0, 1], [], 2⟩))
    ⟨removing _, rfl⟩ rfl
  have now := step now (.condition (.V 3 ⟨false, [0, 1], [0], 3⟩ 0))
    ⟨waking _ _, rfl⟩ rfl
  have now := step now (.condition (.finish 3 ⟨false, [0, 1], [0], 4⟩))
    ⟨woken _, rfl⟩ rfl
  have now := step now (.signalled 3) ⟨rfl, rfl⟩ rfl
  have now := step now (.release 3 none) rfl rfl
  have now := step now (.condition (.lock (.check 3)))
    ⟨⟨_, rfl, rfl⟩, trivial, rfl⟩ rfl
  have now := step now (.condition (.lock (.clear 3)))
    ⟨⟨_, rfl, rfl⟩, trivial, rfl⟩ rfl
  have now := step now (.condition (.lock (.V 3)))
    ⟨⟨_, rfl, rfl⟩, trivial, rfl⟩ rfl
  exact ⟨_, now, rfl, rfl, rfl, ((fifo_channel_of_reachable now).covered
    (Or.inl rfl) (List.cons_ne_nil 1 [])).2⟩

end SynchListUse

end Nachos
