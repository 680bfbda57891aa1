import Nachos.Network.Post

/-!
# Sending
-/

namespace Nachos

open Foundation

variable {Thread : Type}

/-- A message as `PostOfficeOutput::Send` on a machine completes it. -/
def Message.stamped (hostName : Word) (message : Message) : Message where
  pktHdr := { message.pktHdr with
    fromAddress := hostName
    length := message.mailHdr.length + BitVec.ofNat 32 headerSize }
  mailHdr := message.mailHdr
  data := message.data.take message.mailHdr.length.toNat

theorem PostOfficeOutputUse.Permits.legal
    {numBoxes : Word → Nat} {message : Message}
    (permitted : PostOfficeOutputUse.Permits numBoxes message)
    (hostName : Word) :
    (message.stamped hostName).Legal
      (numBoxes message.pktHdr.toAddress) := by
  have small := permitted.small
  have dataLength : (message.stamped hostName).data.length =
      message.mailHdr.length.toNat := by
    simpa [Message.stamped] using permitted.enough
  refine ⟨dataLength, dataLength ▸ small, ?_, permitted.boxLower,
    permitted.boxUpper⟩
  rw [dataLength]
  change (message.mailHdr.length + BitVec.ofNat 32 headerSize).toNat = _
  simp only [maxMailSize, maxPacketSize, maxWireSize, headerSize] at small ⊢
  bv_omega

namespace SendCall

structure Sound (numBoxes : Word → Nat) (hostName : Word) (call : SendCall) :
    Prop where
  pktHdr : call.pktHdr = (call.message.stamped hostName).pktHdr
  buffer : InBuffer call.buffer (call.message.stamped hostName).payload
  legal : (call.message.stamped hostName).Legal
    (numBoxes call.message.pktHdr.toAddress)

theorem prepare_eq
    {numBoxes : Word → Nat} {message : Message}
    (permitted : PostOfficeOutputUse.Permits numBoxes message)
    (hostName : Word) (junk : Junk) :
    ∃ call, prepare hostName message junk = .ok call ∧
      call.Sound numBoxes hostName := by
  have legal := permitted.legal hostName
  have starts : (message.stamped hostName).data <+: message.data :=
    List.take_prefix _ _
  have fits : headerSize + (message.stamped hostName).data.length ≤
      maxPacketSize := by
    have small := legal.carries.small
    rwa [Message.length_payload] at small
  obtain ⟨buffer, concatenated, length, front⟩ :=
    Header.concatenate_eq junk message.mailHdr starts fits
  have copied : message.mailHdr.concatenate junk maxPacketSize message.data
      message.mailHdr.length.toNat = .ok buffer := by
    rwa [legal.dataLength] at concatenated
  refine ⟨⟨message, (message.stamped hostName).pktHdr, buffer⟩, ?_, rfl,
    ⟨length, front⟩, legal⟩
  unfold prepare
  rw [decide_eq_true permitted.small, decide_eq_true permitted.boxLower, copied]
  rfl

end SendCall

namespace PostOfficeOutputUse

def CallSound (numBoxes : Word → Nat) (hostName : Word) :
    GuardedTask SendCall → Prop
  | .acquiring call | .entered call => call.Sound numBoxes hostName
  | .idle | .requested _ | .waiting _ | .passed _ | .finished _
  | .releasing _ => True

structure Sound (numBoxes : Word → Nat) (hostName : Word)
    (use : PostOfficeOutputUse Thread) : Prop where
  guarded : use.guarded.Sound
  calls : ∀ thread, CallSound numBoxes hostName (use.guarded.task thread)
  order : use.guarded.Attends GuardedTask.entered?
    (fun call => use.acquired = use.issued ++ [call.message])
    (use.acquired = use.issued)
  pending : use.guarded.Attends GuardedTask.awaiting?
    (fun _ => use.interrupts + use.guarded.semaphore.semaphore.value = 1)
    (use.interrupts = 0 ∧ use.guarded.semaphore.semaphore.value = 0)
  sendBusy : use.sendBusy = false

theorem CallSound.step
    {numBoxes : Word → Nat} {hostName : Word}
    {event : GuardedUse.Event Thread SendCall}
    {current task : GuardedTask SendCall}
    (sound : CallSound numBoxes hostName current)
    (taskStep : GuardedUse.TaskStep event current task)
    (inner : isInner event = true) :
    CallSound numBoxes hostName task := by
  cases taskStep with
  | call => cases inner
  | lock | acquired => exact sound
  | P thread frame taken | resume thread frame taken =>
    cases taken <;> trivial
  | release | released => trivial

structure Emits (numBoxes : Word → Nat) (hostName : Word)
    (use next : PostOfficeOutputUse Thread)
    (sent : Option (Word × List Byte)) : Prop where
  issued : use.issued <+: next.issued
  sent : ∀ toName packet, sent = some (toName, packet) →
    ∃ message, next.issued = use.issued ++ [message] ∧
      toName = message.pktHdr.toAddress ∧
      (message.stamped hostName).Legal (numBoxes toName) ∧
      OnWire packet (message.stamped hostName).pktHdr
        (message.stamped hostName).payload

theorem sound_create (numBoxes : Word → Nat) (hostName : Word) :
    (create : PostOfficeOutputUse Thread).Sound numBoxes hostName where
  guarded := GuardedUse.sound_create
  calls := fun _ => trivial
  order := ⟨fun _ _ entered => (by cases entered), fun _ => rfl⟩
  pending := ⟨fun _ _ awaits => (by cases awaits), fun _ => ⟨rfl, rfl⟩⟩
  sendBusy := rfl

variable {numBoxes : Word → Nat} {hostName : Word}
variable {use next : PostOfficeOutputUse Thread}

theorem emits_none (same : next.issued = use.issued) :
    Emits numBoxes hostName use next none :=
  ⟨⟨[], by rw [same, List.append_nil]⟩,
    fun _ _ isSent => (by cases isSent)⟩

/-- The messages got the lock in the order in which they were handed to the
network. -/
theorem Sound.issued_acquired (sound : use.Sound numBoxes hostName) :
    use.issued <+: use.acquired := by
  by_cases none : ∀ thread, (use.guarded.task thread).entered? = none
  · exact ⟨[], by rw [sound.order.quiet none, List.append_nil]⟩
  · obtain ⟨thread, some⟩ := not_forall.mp none
    obtain ⟨call, entered⟩ := Option.ne_none_iff_exists'.mp some
    exact ⟨[call.message], (sound.order.busy thread call entered).symm⟩

namespace Sound

/-- A `NetworkSendInt` finds the value of `messageSent` at 0. -/
theorem value_of_pending
    (sound : use.Sound numBoxes hostName) (pending : 0 < use.interrupts) :
    use.guarded.semaphore.semaphore.value = 0 := by
  by_cases none : ∀ thread, (use.guarded.task thread).awaiting? = none
  · exact (sound.pending.quiet none).2
  · obtain ⟨thread, some⟩ := not_forall.mp none
    obtain ⟨call, awaits⟩ := Option.ne_none_iff_exists'.mp some
    have one := sound.pending.busy thread call awaits
    have nonnegative := sound.guarded.semaphore.nonnegative
    omega

variable [DecidableEq Thread] {thread : Thread}

theorem pending_step
    (sound : use.Sound numBoxes hostName) {current task : GuardedTask SendCall}
    (located : use.guarded.task thread = current)
    {guarded : GuardedUse Thread SendCall}
    (updated : guarded.task = Function.update use.guarded.task thread task)
    (valueStep : GuardedUse.ValueStep use.guarded.semaphore.semaphore.value
      guarded.semaphore.semaphore.value current task) :
    guarded.Attends GuardedTask.awaiting?
      (fun _ => use.interrupts + guarded.semaphore.semaphore.value = 1)
      (use.interrupts = 0 ∧ guarded.semaphore.semaphore.value = 0) := by
  subst located
  rcases valueStep with ⟨same, read⟩ | ⟨taken, nonzero, ⟨call, awaits⟩, none⟩
  · rw [same]
    refine sound.pending.imp ?_ (fun _ => id) id
    rw [updated]
    exact read_update_eq GuardedTask.awaiting? read
  · have one := sound.pending.busy thread call awaits
    have nonnegative := sound.guarded.semaphore.nonnegative
    have ended :=
      @GuardedUse.Attends.ends _ _ use.guarded thread GuardedTask.awaiting?
        (fun _ => use.interrupts + guarded.semaphore.semaphore.value = 1)
        (use.interrupts = 0 ∧ guarded.semaphore.semaphore.value = 0) _
        GuardedTask.ofHolder_awaiting
        (sound.guarded.sole (GuardedTask.ofHolder_awaiting _ _ awaits)) task
        none (by omega)
    refine ended.imp ?_ (fun _ => id) id
    intro other
    rw [updated]
    rfl

theorem calls_update
    (sound : use.Sound numBoxes hostName) {task : GuardedTask SendCall}
    (callSound : CallSound numBoxes hostName task) (other : Thread) :
    CallSound numBoxes hostName
      (Function.update use.guarded.task thread task other) :=
  (Function.forall_update_iff use.guarded.task (fun _ task =>
    CallSound numBoxes hostName task)).mpr
      ⟨callSound, fun other _ => sound.calls other⟩ other

theorem guardedStep
    (sound : use.Sound numBoxes hostName)
    {event : GuardedUse.Event Thread SendCall}
    (allowed : use.guarded.Allows event) (inner : isInner event = true) :
    ∃ guarded, use.guarded.perform event = .ok guarded ∧
      { use with
        guarded := guarded
        acquired := use.acquired ++ acquires event }.Sound numBoxes
          hostName := by
  obtain ⟨guarded, task, performed, guardedSound, updated, taskStep,
      valueStep⟩ :=
    sound.guarded.step allowed
  refine ⟨guarded, performed, guardedSound, ?_, ?_,
    sound.pending_step rfl updated valueStep, sound.sendBusy⟩
  · dsimp only
    rw [updated]
    exact sound.calls_update ((sound.calls event.thread).step taskStep inner)
  · cases event with
    | acquired thread call =>
      have sole := sound.guarded.sole_of_phase allowed.2
      have same : use.acquired = use.issued :=
        sound.order.quiet_of_sole GuardedTask.ofHolder_entered sole
          (by rw [allowed.1]; rfl)
      cases performed
      refine GuardedUse.Attends.begins GuardedTask.ofHolder_entered sole rfl ?_
      rw [same]
      rfl
    | call | lock | P | resume | release | released =>
      refine sound.order.imp ?_ ?_ ?_
      · rw [updated]
        refine read_update_eq GuardedTask.entered? (taskStep.entered ?_)
        exact fun _ _ isAcquired => (by cases isAcquired)
      · intro call busy
        rw [busy]
        exact List.append_nil _
      · intro quiet
        rw [quiet]
        exact List.append_nil _

theorem send
    (sound : use.Sound numBoxes hostName) {call : SendCall}
    (entered : use.guarded.task thread = .entered call)
    (lost : Bool) (junk : Junk) :
    ∃ sent next,
      use.perform hostName (.send thread call lost junk) = .ok (sent, next) ∧
      next.Sound numBoxes hostName ∧
      Emits numBoxes hostName use next sent := by
  have holding : (use.guarded.task thread).isHolding = true := by
    rw [entered]
    rfl
  have sole := sound.guarded.sole holding
  have callSound := sound.calls thread
  rw [entered] at callSound
  obtain ⟨pktHdr, buffer, legal⟩ : call.Sound numBoxes hostName := callSound
  have lastAcquired : use.acquired = use.issued ++ [call.message] :=
    sound.order.busy thread call (by rw [entered]; rfl)
  obtain ⟨none, zero⟩ :=
    sound.pending.quiet_of_sole GuardedTask.ofHolder_awaiting sole
      (by rw [entered]; rfl)
  have one : ((use.interrupts + 1 : Nat) : Int) +
      use.guarded.semaphore.semaphore.value = 1 := by
    rw [none, zero]
    rfl
  have own : (call.message.stamped hostName).pktHdr.fromAddress = hostName :=
    rfl
  obtain ⟨packet, performed, onWire⟩ :=
    NetworkOutput.send_eq legal.carries buffer.starts
      (Message.payload_ne_nil _) own lost junk
  rw [← pktHdr, ← sound.sendBusy] at performed
  refine ⟨packet.map (call.pktHdr.toAddress, ·), { use with
    guarded := use.guarded.moveTo thread (.requested call)
    interrupts := use.interrupts + 1
    issued := use.issued ++ [call.message] }, ?_, ?_, ?_⟩
  · simp only [perform, performed, ok_bind]
    rfl
  · exact ⟨sound.guarded.goOn entered ⟨rfl, rfl⟩ ⟨rfl, rfl⟩,
      sound.calls_update trivial,
      GuardedUse.Attends.ends GuardedTask.ofHolder_entered sole rfl
        lastAcquired,
      GuardedUse.Attends.begins GuardedTask.ofHolder_awaiting sole rfl one,
      sound.sendBusy⟩
  · refine ⟨⟨[call.message], rfl⟩, ?_⟩
    intro toName onSocket isSent
    obtain ⟨sentPacket, isPacket, isPair⟩ := Option.map_eq_some_iff.mp isSent
    cases isPair
    have toAddress : call.pktHdr.toAddress = call.message.pktHdr.toAddress := by
      rw [pktHdr]
      rfl
    rw [toAddress]
    exact ⟨call.message, rfl, rfl, legal, onWire _ isPacket⟩

/-- Every step of `Send` keeps the invariant and emits its own packet at most.
-/
theorem step
    (sound : use.Sound numBoxes hostName) {event : Event Thread}
    (allowed : use.Allows numBoxes event) :
    ∃ sent next, use.perform hostName event = .ok (sent, next) ∧
      next.Sound numBoxes hostName ∧
      Emits numBoxes hostName use next sent := by
  cases event with
  | call thread message junk =>
    obtain ⟨idle, permitted⟩ := allowed
    obtain ⟨call, prepared, callSound⟩ :=
      SendCall.prepare_eq permitted hostName junk
    refine ⟨none, { use with
      guarded := use.guarded.moveTo thread (.acquiring call) }, ?_, ?_,
      emits_none rfl⟩
    · simp only [perform, prepared, ok_bind]
      rfl
    · exact ⟨sound.guarded.call idle call, sound.calls_update callSound,
        sound.order.moveTo idle rfl, sound.pending.moveTo idle rfl,
        sound.sendBusy⟩
  | guarded event =>
    obtain ⟨guarded, performed, nextSound⟩ :=
      sound.guardedStep allowed.1 allowed.2
    refine ⟨none, _, ?_, nextSound, emits_none rfl⟩
    simp only [perform, performed, ok_bind]
    rfl
  | send thread call lost junk =>
    exact sound.send allowed lost junk
  | finish thread call =>
    have passed : use.guarded.task thread = .passed call := allowed
    refine ⟨none, { use with
      guarded := use.guarded.moveTo thread (.finished call) }, rfl, ?_,
      emits_none rfl⟩
    exact ⟨sound.guarded.goOn passed ⟨rfl, rfl⟩ ⟨rfl, rfl⟩,
      sound.calls_update trivial, sound.order.moveTo passed rfl,
      sound.pending.moveTo passed rfl, sound.sendBusy⟩
  | interrupt =>
    have pending : 0 < use.interrupts := allowed
    have zero := sound.value_of_pending pending
    have one := sound.guarded.value_V zero
    refine ⟨none, _, rfl, ?_, emits_none rfl⟩
    refine ⟨sound.guarded.V zero, sound.calls,
      sound.order.imp (fun _ => rfl) (fun _ => id) id,
      sound.pending.imp (fun _ => rfl) ?_ ?_, rfl⟩
    · intro _ busy
      dsimp only
      omega
    · intro quiet
      omega

end Sound

end PostOfficeOutputUse

end Nachos
