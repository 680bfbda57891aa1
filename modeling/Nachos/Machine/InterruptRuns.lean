import Nachos.Foundation.Agenda
import Nachos.Machine.Interrupt

/-!
# Runs of the interrupt hardware

Pending and fired interrupts are an agenda: `Schedule` posts, the loop of
`CheckIfDue` serves, and the clock only goes forward.
-/

namespace Nachos

open Foundation

variable {Device : Type}

theorem pendingCompare_neg (new old : PendingInterrupt Device) :
    pendingCompare new old < 0 ↔ new.when < old.when := by
  unfold pendingCompare
  split_ifs with before behind
  · exact iff_of_true (by omega) before
  · exact iff_of_false (by omega) before
  · exact iff_of_false (by omega) before

theorem orderedInsert_pendingCompare
    (item : PendingInterrupt Device) (list : List (PendingInterrupt Device)) :
    list.orderedInsert (fun new old => pendingCompare new old < 0) item =
      list.orderedInsert (fun new old => new.when < old.when) item := by
  simp only [pendingCompare_neg]

structure Statistics.Sound (stats : Statistics) : Prop where
  idleTicks : 0 ≤ stats.idleTicks
  systemTicks : 0 ≤ stats.systemTicks
  userTicks : 0 ≤ stats.userTicks
  totalTicks :
    stats.totalTicks =
      stats.idleTicks + stats.systemTicks + stats.userTicks
  bound : stats.totalTicks < 2 ^ 31

theorem Statistics.Sound.jump
    {stats : Statistics} (sound : stats.Sound)
    {next : Int} (later : stats.totalTicks < next) (fits : next < 2 ^ 31) :
    { stats with
      idleTicks := wrap (stats.idleTicks + (next - stats.totalTicks))
      totalTicks := next }.Sound := by
  obtain ⟨idle, system, user, total, _⟩ := sound
  rw [wrap_eq_self (by omega) (by omega)]
  exact ⟨by dsimp only; omega, system, user, by dsimp only; omega, fits⟩

namespace Interrupt

def agenda (interrupt : Interrupt Device) :
    Agenda (PendingInterrupt Device) Int where
  now := interrupt.stats.totalTicks
  waiting := interrupt.pending
  posted := interrupt.scheduled
  served := interrupt.fired

def due (interrupt : Interrupt Device) : Nat :=
  Agenda.due PendingInterrupt.when interrupt.stats.totalTicks
    interrupt.pending

def timetable (Device : Type) :
    TransitionSystem (Agenda (PendingInterrupt Device) Int)
      (Agenda.Action (PendingInterrupt Device) Int) :=
  Agenda.system PendingInterrupt.when PendingInterrupt.serial

structure Sound (interrupt : Interrupt Device) : Prop where
  agenda : (timetable Device).Reachable interrupt.agenda
  stats : interrupt.stats.Sound
  bounded : ∀ entry ∈ interrupt.pending, entry.when < 2 ^ 31
  inHandler : interrupt.inHandler = true ↔ interrupt.control.inLoop
  level : interrupt.control.inCheck → interrupt.level = .intOff
  looping :
    ∀ caller, interrupt.control = .looping caller →
      ∃ front rest, interrupt.pending = front :: rest ∧
        front.when ≤ interrupt.stats.totalTicks

structure Advances (source target : Interrupt Device) : Prop where
  sound : target.Sound
  monotone : source.stats.totalTicks ≤ target.stats.totalTicks
  settled :
    source.control.inCheck → ¬ target.control.inCheck →
      ∀ entry ∈ target.pending, target.stats.totalTicks < entry.when

def Event.inLoop : Event Device → Bool
  | .schedule _ _ _ | .setLevel .intOff | .yieldOnReturn
  | .callHandler _ | .handlerReturned _ => true
  | .setLevel .intOn | .oneTick | .idle | .setStatus _ | .checkIfDue _
  | .returnFromYield _ => false

def Event.isCall : Event Device → Bool
  | .callHandler _ => true
  | .schedule _ _ _ | .setLevel _ | .oneTick | .idle | .setStatus _
  | .yieldOnReturn | .checkIfDue _ | .handlerReturned _
  | .returnFromYield _ => false

theorem frontDue_iff {interrupt : Interrupt Device} :
    interrupt.frontDue = true ↔
      ∃ front rest, interrupt.pending = front :: rest ∧
        front.when ≤ interrupt.stats.totalTicks := by
  unfold frontDue
  cases interrupt.pending with
  | nil =>
    simp
  | cons front rest =>
    simp

namespace Sound

variable {interrupt : Interrupt Device}

theorem ordered (sound : interrupt.Sound) :
    interrupt.agenda.Ordered PendingInterrupt.when PendingInterrupt.serial :=
  Agenda.ordered_of_reachable sound.agenda

theorem same
    {target : Interrupt Device}
    (sound : interrupt.Sound)
    (agenda : target.agenda = interrupt.agenda)
    (stats : target.stats = interrupt.stats)
    (inHandler : target.inHandler = true ↔ target.control.inLoop)
    (level : target.control.inCheck → target.level = .intOff)
    (looping :
      ∀ caller, target.control = .looping caller →
        ∃ front rest, interrupt.pending = front :: rest ∧
          front.when ≤ interrupt.stats.totalTicks) :
    target.Sound := by
  have pending : target.pending = interrupt.pending :=
    congrArg Agenda.waiting agenda
  refine ⟨?_, ?_, ?_, inHandler, level, ?_⟩
  · rw [agenda]
    exact sound.agenda
  · rw [stats]
    exact sound.stats
  · rw [pending]
    exact sound.bounded
  · rw [pending, stats]
    exact looping

theorem later_of_front
    (sound : interrupt.Sound)
    {front : PendingInterrupt Device} {rest : List (PendingInterrupt Device)}
    (pending : interrupt.pending = front :: rest)
    (early : interrupt.stats.totalTicks < front.when) :
    ∀ entry ∈ interrupt.pending,
      interrupt.stats.totalTicks < entry.when := by
  have order := sound.ordered.waiting_pairwise
  rw [show interrupt.agenda.waiting = front :: rest from pending] at order
  rw [pending]
  exact Agenda.later_of_front order early

theorem advanceTime
    (sound : interrupt.Sound)
    (fits :
      interrupt.stats.totalTicks + tickLength interrupt.status < 2 ^ 31) :
    interrupt.advanceTime.Sound ∧
      interrupt.stats.totalTicks ≤ interrupt.advanceTime.totalTicks := by
  obtain ⟨idle, system, user, total, bound⟩ := sound.stats
  unfold Interrupt.advanceTime
  unfold tickLength systemTick userTick at fits
  split_ifs with systemMode
  · rw [if_pos systemMode] at fits
    dsimp only [systemTick]
    rw [wrap_eq_self (by omega) (by omega), wrap_eq_self (by omega) (by omega)]
    exact ⟨⟨idle, by dsimp only; omega, user, by dsimp only; omega, fits⟩,
      by omega⟩
  · rw [if_neg systemMode] at fits
    dsimp only [userTick]
    rw [wrap_eq_self (by omega) (by omega), wrap_eq_self (by omega) (by omega)]
    exact ⟨⟨idle, system, by dsimp only; omega, by dsimp only; omega, fits⟩,
      by omega⟩

theorem oneTick
    (sound : interrupt.Sound) (thread : interrupt.control = .thread)
    (fits :
      interrupt.stats.totalTicks + tickLength interrupt.status < 2 ^ 31) :
    Advances interrupt interrupt.oneTick := by
  obtain ⟨stats, later⟩ := sound.advanceTime fits
  have outside : interrupt.inHandler ≠ true := by
    rw [ne_eq, sound.inHandler, thread]
    exact id
  refine ⟨⟨?_, stats, sound.bounded, ?_, fun _ => rfl, ?_⟩, later, ?_⟩
  · exact Agenda.reachable_advance sound.agenda later
  · exact iff_of_false outside id
  · intro caller looping
    cases looping
  · intro checking
    rw [thread] at checking
    exact checking.elim

theorem setLevel
    (sound : interrupt.Sound) {now : IntStatus}
    (allowed : interrupt.Allows (.setLevel now)) :
    ∃ next, interrupt.setLevel now = .ok next ∧
      Advances interrupt next ∧
      (now = .intOff → next = interrupt.changeLevel .intOff) := by
  obtain ⟨place, proper⟩ := allowed
  cases now with
  | intOff =>
    refine ⟨interrupt.changeLevel .intOff, rfl, ⟨?_, le_rfl, ?_⟩, fun _ => rfl⟩
    · exact sound.same rfl rfl sound.inHandler (fun _ => rfl) sound.looping
    · intro checking outside
      exact (outside checking).elim
  | intOn =>
    obtain ⟨thread, fits⟩ := proper rfl
    have outside : interrupt.inHandler = false := by
      rw [← Bool.not_eq_true, sound.inHandler, thread]
      exact id
    have enabled : (interrupt.changeLevel .intOn).Sound := by
      refine sound.same rfl rfl sound.inHandler ?_ sound.looping
      rw [show (interrupt.changeLevel .intOn).control = _ from thread]
      exact False.elim
    unfold Interrupt.setLevel
    simp only [outside, or_true, decide_true, assertThat_true, ok_bind,
      true_and]
    split_ifs with off
    · obtain ⟨ticked, later, _⟩ := enabled.oneTick thread (fits off)
      refine ⟨_, rfl, ⟨ticked, later, ?_⟩, fun isOff => by cases isOff⟩
      rw [thread]
      exact False.elim
    · refine ⟨_, rfl, ⟨enabled, le_rfl, ?_⟩, fun isOff => by cases isOff⟩
      rw [thread]
      exact False.elim

theorem idle
    (sound : interrupt.Sound) (thread : interrupt.control = .thread)
    (off : interrupt.level = .intOff) :
    Advances interrupt interrupt.idle := by
  have outside : ¬ interrupt.inHandler = true := by
    rw [sound.inHandler, thread]
    exact id
  refine ⟨?_, le_rfl, ?_⟩
  · refine sound.same rfl rfl (iff_of_false outside id) (fun _ => off) ?_
    intro caller looping
    cases looping
  · rw [thread]
    exact False.elim

theorem requestYield
    (sound : interrupt.Sound)
    {caller : CheckCaller} (handling : interrupt.control = .handling caller) :
    ∃ next, interrupt.requestYield = .ok next ∧
      Advances interrupt next ∧ next.due = interrupt.due := by
  have inHandler : interrupt.inHandler = true := by
    rw [sound.inHandler, handling]
    trivial
  have performed :
      interrupt.requestYield =
        .ok { interrupt with yieldOnReturn := true } := by
    unfold Interrupt.requestYield
    rw [inHandler]
    rfl
  refine ⟨_, performed, ⟨?_, le_rfl, ?_⟩, rfl⟩
  · exact sound.same rfl rfl sound.inHandler sound.level sound.looping
  · intro checking outside
    exact (outside checking).elim

/-- Leaving the check: interrupts and clock stay, no handler runs, and nothing
is due. -/
theorem leaves
    {next : Interrupt Device}
    (sound : interrupt.Sound)
    (settled :
      ∀ entry ∈ interrupt.pending, interrupt.stats.totalTicks < entry.when)
    (agenda : next.agenda = interrupt.agenda)
    (stats : next.stats = interrupt.stats)
    (outside : next.inHandler = false) (left : ¬ next.control.inCheck) :
    Advances interrupt next ∧ next.due = interrupt.due := by
  have pending : next.pending = interrupt.pending :=
    congrArg Agenda.waiting agenda
  have notLooping : ¬ next.control.inLoop := by
    cases control : next.control with
    | looping | handling =>
      rw [control] at left
      exact (left trivial).elim
    | thread | checking | halted =>
      exact id
  refine ⟨⟨?_, ?_, fun _ _ => ?_⟩, ?_⟩
  · refine sound.same agenda stats ?_ (fun checking => (left checking).elim) ?_
    · rw [outside]
      exact iff_of_false Bool.false_ne_true notLooping
    · intro caller looping
      rw [looping] at notLooping
      exact (notLooping trivial).elim
  · rw [stats]
  · rw [stats, pending]
    exact settled
  · unfold Interrupt.due
    rw [stats, pending]

theorem returnTo
    {last : Interrupt Device}
    (sound : interrupt.Sound)
    (settled :
      ∀ entry ∈ interrupt.pending, interrupt.stats.totalTicks < entry.when)
    (agenda : last.agenda = interrupt.agenda)
    (stats : last.stats = interrupt.stats)
    (outside : last.inHandler = false)
    (caller : CheckCaller) (result : Bool) :
    Advances interrupt (last.returnTo caller result) ∧
      (last.returnTo caller result).due = interrupt.due := by
  cases caller with
  | oneTick oldStatus =>
    unfold Interrupt.returnTo
    dsimp only
    split_ifs
    · exact sound.leaves settled agenda stats outside id
    · exact sound.leaves settled agenda stats outside id
  | idle =>
    cases result with
    | true => exact sound.leaves settled agenda stats outside id
    | false => exact sound.leaves settled agenda stats outside id

theorem advances_enterLoop
    (sound : interrupt.Sound) (off : interrupt.level = .intOff)
    {front : PendingInterrupt Device} {rest : List (PendingInterrupt Device)}
    (pending : interrupt.pending = front :: rest)
    {stats : Statistics} (clock : stats.Sound)
    (later : interrupt.stats.totalTicks ≤ stats.totalTicks)
    (reached : front.when ≤ stats.totalTicks) (caller : CheckCaller) :
    Advances interrupt ({ interrupt with stats := stats }.enterLoop caller) := by
  refine ⟨⟨?_, clock, sound.bounded, ?_, fun _ => off, ?_⟩, later, ?_⟩
  · exact Agenda.reachable_advance sound.agenda later
  · exact iff_of_true rfl trivial
  · intro _ _
    exact ⟨front, rest, pending, reached⟩
  · intro _ left
    exact (left trivial).elim

theorem checkIfDue
    (sound : interrupt.Sound)
    {caller : CheckCaller} (checking : interrupt.control = .checking caller) :
    ∃ next, interrupt.checkIfDue caller = .ok next ∧
      Advances interrupt next := by
  have off : interrupt.level = .intOff := by
    apply sound.level
    rw [checking]
    trivial
  have outside : interrupt.inHandler = false := by
    rw [← Bool.not_eq_true, sound.inHandler, checking]
    exact id
  have checked :
      assertThat (interrupt.level = .intOff) .checkIfDueLevel = .ok () := by
    rw [off]
    rfl
  unfold Interrupt.checkIfDue
  rw [checked, ok_bind]
  split
  · next none =>
      refine ⟨_, rfl, (sound.returnTo ?_ rfl rfl outside caller false).1⟩
      simp [none]
  · next front rest pending =>
      split_ifs with early stays
      · exact ⟨_, rfl, (sound.returnTo (sound.later_of_front pending early)
          rfl rfl outside caller false).1⟩
      · have jumped := sound.stats.jump early
          (sound.bounded front (by simp [pending]))
        exact ⟨_, rfl, sound.advances_enterLoop off pending jumped early.le
          le_rfl caller⟩
      · exact ⟨_, rfl, sound.advances_enterLoop off pending sound.stats le_rfl
          (not_lt.mp early) caller⟩

theorem callHandler
    (sound : interrupt.Sound)
    {caller : CheckCaller} (looping : interrupt.control = .looping caller) :
    ∃ next, interrupt.callHandler caller = .ok next ∧
      Advances interrupt next ∧ 1 + next.due ≤ interrupt.due := by
  obtain ⟨front, rest, pending, reached⟩ := sound.looping caller looping
  have inHandler : interrupt.inHandler = true := by
    rw [sound.inHandler, looping]
    trivial
  have off : interrupt.level = .intOff := by
    apply sound.level
    rw [looping]
    trivial
  have performed :
      interrupt.callHandler caller = .ok { interrupt with
        pending := rest
        control := .handling caller
        fired := interrupt.fired ++ [(front, interrupt.stats.totalTicks)] } := by
    unfold Interrupt.callHandler
    rw [pending]
    rfl
  refine ⟨_, performed,
    ⟨⟨?_, sound.stats, ?_, ?_, fun _ => off, ?_⟩, le_rfl, ?_⟩, ?_⟩
  · exact Agenda.reachable_serve sound.agenda pending reached
  · intro entry member
    exact sound.bounded entry (by rw [pending]; exact .tail _ member)
  · exact iff_of_true inHandler trivial
  · intro other isLooping
    cases isLooping
  · intro _ left
    exact (left trivial).elim
  · have counted :
        interrupt.due =
          Agenda.due PendingInterrupt.when interrupt.stats.totalTicks rest +
            1 := by
      unfold Interrupt.due
      rw [pending]
      exact Agenda.due_cons reached rest
    rw [counted, Nat.add_comm]
    exact le_rfl

theorem handlerReturned
    (sound : interrupt.Sound)
    {caller : CheckCaller} (handling : interrupt.control = .handling caller) :
    Advances interrupt (interrupt.handlerReturned caller) ∧
      (interrupt.handlerReturned caller).due = interrupt.due := by
  unfold Interrupt.handlerReturned
  split_ifs with more
  · obtain ⟨front, rest, pending, reached⟩ := frontDue_iff.mp more
    have inHandler : interrupt.inHandler = true := by
      rw [sound.inHandler, handling]
      trivial
    have off : interrupt.level = .intOff := by
      apply sound.level
      rw [handling]
      trivial
    refine ⟨⟨?_, le_rfl, ?_⟩, rfl⟩
    · refine sound.same rfl rfl (iff_of_true inHandler trivial)
        (fun _ => off) ?_
      intro _ _
      exact ⟨front, rest, pending, reached⟩
    · intro _ left
      exact (left trivial).elim
  · refine @returnTo _ _ { interrupt with inHandler := false } sound ?_
      rfl rfl rfl caller true
    intro entry member
    obtain ⟨front, rest, pending⟩ :=
      List.exists_cons_of_ne_nil (List.ne_nil_of_mem member)
    refine sound.later_of_front pending (not_le.mp fun reached => ?_)
      entry member
    exact more (frontDue_iff.mpr ⟨front, rest, pending, reached⟩)

theorem schedule
    [DecidableEq Device] (sound : interrupt.Sound)
    {toCall : Device} {fromNow : Int} {type : IntType}
    (allowed : interrupt.Allows (.schedule toCall fromNow type)) :
    ∃ next, interrupt.schedule toCall fromNow type = .ok next ∧
      Advances interrupt next ∧ next.due = interrupt.due := by
  obtain ⟨place, positive, fits⟩ := allowed
  obtain ⟨idle, system, user, total, bound⟩ := sound.stats
  have exact :
      wrap (interrupt.stats.totalTicks + fromNow) =
        interrupt.stats.totalTicks + fromNow :=
    wrap_eq_self (by omega) (by omega)
  obtain ⟨toOccur, isToOccur⟩ : ∃ toOccur : PendingInterrupt Device,
      toOccur = ⟨toCall, interrupt.stats.totalTicks + fromNow, type,
        interrupt.scheduled.length⟩ :=
    ⟨_, rfl⟩
  have time : toOccur.when = interrupt.stats.totalTicks + fromNow := by
    rw [isToOccur]
  have serial : toOccur.serial = interrupt.scheduled.length := by
    rw [isToOccur]
  have ahead : interrupt.stats.totalTicks < toOccur.when := by
    omega
  have fresh : toOccur ∉ interrupt.pending := by
    intro member
    exact (sound.ordered.stamp_lt (sound.ordered.complete.subset
      (List.mem_append_right _ member))).ne serial
  have performed :
      interrupt.schedule toCall fromNow type = .ok { interrupt with
        pending := interrupt.pending.orderedInsert
          (fun new old => new.when < old.when) toOccur
        scheduled := interrupt.scheduled ++ [toOccur] } := by
    unfold Interrupt.schedule
    rw [exact]
    dsimp only
    rw [← isToOccur, sortedListInsert_eq fresh, orderedInsert_pendingCompare,
      decide_eq_true positive]
    rfl
  refine ⟨_, performed,
    ⟨⟨?_, sound.stats, ?_, sound.inHandler, sound.level, ?_⟩, le_rfl, ?_⟩, ?_⟩
  · exact Agenda.reachable_post sound.agenda ahead serial
  · intro entry member
    rcases (List.mem_orderedInsert _).mp member with rfl | old
    · exact time.trans_lt fits
    · exact sound.bounded entry old
  · intro caller looping
    rcases place with thread | ⟨_, handling⟩
    · rw [thread] at looping
      cases looping
    · rw [handling] at looping
      cases looping
  · intro checking left
    exact (left checking).elim
  · exact Agenda.due_orderedInsert ahead interrupt.pending

theorem restatus
    (sound : interrupt.Sound) (status : MachineStatus)
    (yielding : List MachineStatus) :
    Advances interrupt
      { interrupt with status := status, yielding := yielding } := by
  refine ⟨?_, le_rfl, ?_⟩
  · exact sound.same rfl rfl sound.inHandler sound.level sound.looping
  · intro checking left
    exact (left checking).elim

theorem step
    [DecidableEq Device] (sound : interrupt.Sound)
    {event : Event Device} (allowed : interrupt.Allows event) :
    ∃ next, interrupt.perform event = .ok next ∧
      Advances interrupt next ∧
      (event.inLoop = true → event.isCall.toNat + next.due ≤ interrupt.due) := by
  cases event with
  | schedule toCall fromNow type =>
    obtain ⟨next, performed, advances, same⟩ := sound.schedule allowed
    refine ⟨next, performed, advances, fun _ => ?_⟩
    rw [same]
    exact (Nat.zero_add _).le
  | setLevel now =>
    obtain ⟨next, performed, advances, disabled⟩ := sound.setLevel allowed
    refine ⟨next, performed, advances, fun inLoop => ?_⟩
    cases now with
    | intOff =>
      rw [disabled rfl]
      exact (Nat.zero_add _).le
    | intOn =>
      cases inLoop
  | oneTick =>
    exact ⟨_, rfl, sound.oneTick allowed.1 allowed.2, by rintro ⟨⟩⟩
  | idle =>
    exact ⟨_, rfl, sound.idle allowed.1 allowed.2, by rintro ⟨⟩⟩
  | setStatus status =>
    exact ⟨_, rfl, sound.restatus status _, by rintro ⟨⟩⟩
  | yieldOnReturn =>
    obtain ⟨caller, handling⟩ := allowed.1
    obtain ⟨next, performed, advances, same⟩ := sound.requestYield handling
    refine ⟨next, performed, advances, fun _ => ?_⟩
    rw [same]
    exact (Nat.zero_add _).le
  | checkIfDue caller =>
    obtain ⟨next, performed, advances⟩ := sound.checkIfDue allowed.1
    exact ⟨next, performed, advances, by rintro ⟨⟩⟩
  | callHandler caller =>
    obtain ⟨next, performed, advances, fewer⟩ := sound.callHandler allowed.1
    exact ⟨next, performed, advances, fun _ => fewer⟩
  | handlerReturned caller =>
    obtain ⟨advances, same⟩ := sound.handlerReturned allowed.1
    refine ⟨_, rfl, advances, fun _ => ?_⟩
    rw [same]
    exact (Nat.zero_add _).le
  | returnFromYield oldStatus =>
    exact ⟨_, rfl, sound.restatus oldStatus _, by rintro ⟨⟩⟩

end Sound

variable [DecidableEq Device] {interrupt : Interrupt Device}

theorem sound_of_reachable
    (reachable : system.Reachable interrupt) :
    interrupt.Sound := by
  refine reachable.invariant ?_ ?_
  · rintro state rfl
    refine ⟨.start ⟨rfl, rfl, rfl⟩, ⟨?_, ?_, ?_, ?_, ?_⟩, ?_, ?_, ?_, ?_⟩ <;>
      simp [create, InterruptControl.inLoop, InterruptControl.inCheck]
  · rintro source event target sound ⟨allowed, performed⟩
    obtain ⟨next, stepped, advances, _⟩ := sound.step allowed
    rw [performed] at stepped
    cases stepped
    exact advances.sound

/-- While the clock stands still, every call of a handler is paid for by an
interrupt that was due before. -/
theorem calls_le_due
    {target : Interrupt Device} {events : List (Event Device)}
    (reachable : system.Reachable interrupt)
    (run : system.Run interrupt events target)
    (inLoop : ∀ event ∈ events, event.inLoop = true) :
    events.countP Event.isCall + target.due ≤ interrupt.due := by
  induction run with
  | nil =>
    exact (Nat.zero_add _).le
  | @snoc middle target events event earlier taken ih =>
    obtain ⟨allowed, performed⟩ := taken
    rw [List.forall_mem_append, List.forall_mem_singleton] at inLoop
    obtain ⟨next, stepped, _, paid⟩ :=
      (sound_of_reachable (earlier.reachable reachable)).step allowed
    rw [performed] at stepped
    cases stepped
    have before := ih inLoop.1
    have last := paid inLoop.2
    have counted :
        [event].countP Event.isCall = event.isCall.toNat := by
      cases call : event.isCall <;> simp [call]
    rw [List.countP_append, counted]
    omega

structure Contract (interrupt : Interrupt Device) : Prop where
  sorted :
    interrupt.pending.Pairwise fun first second => first.when ≤ second.when
  punctual : ∀ firing ∈ interrupt.fired, firing.1.when ≤ firing.2
  order :
    (interrupt.fired.map Prod.fst).Pairwise fun first second =>
      first.when < second.when ∨
        first.when = second.when ∧ first.serial < second.serial
  serials :
    interrupt.scheduled.map PendingInterrupt.serial =
      List.range interrupt.scheduled.length
  once :
    (interrupt.fired.map Prod.fst ++ interrupt.pending).Perm
      interrupt.scheduled
  clock :
    interrupt.stats.totalTicks =
      interrupt.stats.idleTicks + interrupt.stats.systemTicks +
        interrupt.stats.userTicks
  /-- No `ASSERT` fails. -/
  safe :
    ∀ event, interrupt.Allows event →
      ∃ next, interrupt.perform event = .ok next
  monotone :
    ∀ event next, system.step interrupt event next →
      interrupt.stats.totalTicks ≤ next.stats.totalTicks
  /-- `CheckIfDue` returns with nothing due. -/
  settled :
    ∀ event next, system.step interrupt event next →
      interrupt.control.inCheck → ¬ next.control.inCheck →
      ∀ entry ∈ next.pending, next.stats.totalTicks < entry.when
  /-- The loop of `CheckIfDue` calls at most as many handlers as interrupts are
  due, whatever the handlers schedule. -/
  terminates :
    ∀ events target, system.Run interrupt events target →
      (∀ event ∈ events, event.inLoop = true) →
      events.countP Event.isCall ≤ interrupt.due
  /-- In the loop there is always a next handler to call, or the running one can
  return. -/
  continues :
    interrupt.control.inLoop →
      ∃ event, event.inLoop = true ∧ interrupt.Allows event

/-- Whatever the threads and the handlers do, interrupts are handled in order,
in time and once, and the clock is the sum of its parts. -/
theorem clock_contract_of_reachable
    (reachable : system.Reachable interrupt) :
    interrupt.Contract := by
  have sound := sound_of_reachable reachable
  have ordered := sound.ordered
  refine ⟨?_, ordered.punctual, ?_, ordered.stamps, ordered.complete,
    sound.stats.totalTicks, ?_, ?_, ?_, ?_, ?_⟩
  · exact ordered.waiting_pairwise.imp Agenda.Precedes.time_le
  · exact (List.pairwise_append.mp ordered.order).1
  · intro event allowed
    obtain ⟨next, performed, _⟩ := sound.step allowed
    exact ⟨next, performed⟩
  · rintro event next ⟨allowed, performed⟩
    obtain ⟨_, stepped, advances, _⟩ := sound.step allowed
    rw [performed] at stepped
    cases stepped
    exact advances.monotone
  · rintro event next ⟨allowed, performed⟩
    obtain ⟨_, stepped, advances, _⟩ := sound.step allowed
    rw [performed] at stepped
    cases stepped
    exact advances.settled
  · intro events target run inLoop
    have paid := calls_le_due reachable run inLoop
    omega
  · intro looping
    cases control : interrupt.control with
    | looping caller =>
      exact ⟨.callHandler caller, rfl, control, trivial⟩
    | handling caller =>
      exact ⟨.handlerReturned caller, rfl, control, trivial⟩
    | thread | checking | halted =>
      rw [control] at looping
      exact looping.elim

end Interrupt

namespace Timer

theorem delay_bounds (timer : Timer) (randomNumber : Nat) :
    0 < timer.delay randomNumber ∧
      timer.delay randomNumber ≤ timerTicks * 2 := by
  unfold delay timerTicks
  split_ifs <;> omega

theorem allows_setInterrupt
    {interrupt : Interrupt Device} (timer : Timer) (self : Device)
    (randomNumber : Nat)
    (place :
      interrupt.control = .thread ∨
        ∃ caller, interrupt.control = .handling caller)
    (fits : interrupt.stats.totalTicks + timerTicks * 2 < 2 ^ 31) :
    interrupt.Allows
      (.schedule self (timer.delay randomNumber) .timerInt) := by
  obtain ⟨positive, bounded⟩ := timer.delay_bounds randomNumber
  refine ⟨place, positive, ?_⟩
  omega

theorem setInterrupt_reachable
    [DecidableEq Device] {interrupt : Interrupt Device}
    (reachable : Interrupt.system.Reachable interrupt)
    (timer : Timer) (self : Device) (randomNumber : Nat)
    (place :
      interrupt.control = .thread ∨
        ∃ caller, interrupt.control = .handling caller)
    (fits : interrupt.stats.totalTicks + timerTicks * 2 < 2 ^ 31) :
    ∃ next, timer.setInterrupt self randomNumber interrupt = .ok next ∧
      Interrupt.system.Reachable next := by
  unfold setInterrupt
  split_ifs with enabled
  · have allowed := timer.allows_setInterrupt self randomNumber place fits
    obtain ⟨next, performed, _⟩ :=
      (Interrupt.sound_of_reachable reachable).step allowed
    exact ⟨next, performed, reachable.step ⟨allowed, performed⟩⟩
  · exact ⟨interrupt, rfl, reachable⟩

end Timer

open Interrupt in
/-- The timer fires when the machine idles, and has set its next interrupt. -/
theorem clock_contract_after_timer :
    ∃ interrupt : Interrupt Unit,
      system.Reachable interrupt ∧
        interrupt.fired = [(⟨(), 100, .timerInt, 0⟩, 100)] ∧
        interrupt.pending = [⟨(), 200, .timerInt, 1⟩] ∧
        interrupt.Contract := by
  have step : ∀ {source target : Interrupt Unit} (event : Event Unit),
      system.Reachable source → source.Allows event →
      source.perform event = .ok target → system.Reachable target :=
    fun _ reachable allowed performed => reachable.step ⟨allowed, performed⟩
  let timer : Timer := ⟨false, false⟩
  have now : system.Reachable (create : Interrupt Unit) := .start rfl
  have now := step _ now
    (timer.allows_setInterrupt () 0 (Or.inl rfl) (by decide)) rfl
  have now := step .idle now ⟨rfl, rfl⟩ rfl
  have now := step (.checkIfDue .idle) now ⟨rfl, trivial⟩ rfl
  have now := step (.callHandler .idle) now ⟨rfl, trivial⟩ rfl
  have now := step _ now
    (timer.allows_setInterrupt () 0 (Or.inr ⟨_, rfl⟩) (by decide)) rfl
  have now := step (.handlerReturned .idle) now ⟨rfl, trivial⟩ rfl
  exact ⟨_, now, rfl, rfl, clock_contract_of_reachable now⟩

end Nachos
