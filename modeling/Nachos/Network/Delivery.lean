import Nachos.Network.Incoming
import Nachos.Network.Outgoing

/-!
# Delivery of mail
-/

namespace Nachos

open Foundation

open scoped List

variable {Thread : Type}

/-- The messages from one machine that have come to another, or are on their
way to it, are messages that were handed to the network for it, in that
order. -/
def Flows (source target : Word) (arrived inFlight issued : List Message) :
    Prop :=
  (arrived ++ inFlight).filter (Message.isFrom source) <+
    (issued.map (Message.stamped source)).filter (Message.isTo target)

namespace Flows

variable {source target : Word} {arrived inFlight issued : List Message}

theorem more
    (flows : Flows source target arrived inFlight issued)
    {next : List Message} (grows : issued <+: next) :
    Flows source target arrived inFlight next := by
  have sublist : issued <+ next := grows.sublist
  exact flows.trans ((sublist.map _).filter _)

theorem send
    (flows : Flows source target arrived inFlight issued) {message : Message}
    (there : message.pktHdr.toAddress = target) :
    Flows source target arrived (inFlight ++ [message.stamped source])
      (issued ++ [message]) := by
  have isFrom : (message.stamped source).isFrom source = true :=
    decide_eq_true rfl
  have isTo : (message.stamped source).isTo target = true :=
    decide_eq_true there
  have left :
      (arrived ++ (inFlight ++ [message.stamped source])).filter
          (Message.isFrom source) =
        (arrived ++ inFlight).filter (Message.isFrom source) ++
          [message.stamped source] := by
    simp [isFrom]
  have right :
      ((issued ++ [message]).map (Message.stamped source)).filter
          (Message.isTo target) =
        (issued.map (Message.stamped source)).filter (Message.isTo target) ++
          [message.stamped source] := by
    simp [isTo]
  unfold Flows
  rw [left, right]
  exact List.Sublist.append flows (List.Sublist.refl _)

theorem sendOther
    (flows : Flows source target arrived inFlight issued) {message : Message}
    (different : message.pktHdr.fromAddress ≠ source) :
    Flows source target arrived (inFlight ++ [message]) issued := by
  have notFrom : message.isFrom source = false := decide_eq_false different
  have left :
      (arrived ++ (inFlight ++ [message])).filter (Message.isFrom source) =
        (arrived ++ inFlight).filter (Message.isFrom source) := by
    simp [notFrom]
  unfold Flows
  rw [left]
  exact flows

theorem lose
    (flows : Flows source target arrived inFlight issued)
    {left : List Message} (fewer : left <+ inFlight) :
    Flows source target arrived left issued :=
  (((List.Sublist.refl arrived).append fewer).filter _).trans flows

theorem arrive
    {message : Message} {rest : List Message}
    (flows : Flows source target arrived (message :: rest) issued) :
    Flows source target (arrived ++ [message]) rest issued := by
  unfold Flows
  rw [List.append_assoc, List.singleton_append]
  exact flows

end Flows

namespace PostNetwork

def inFlight (sockets : Word → List (List Byte)) (hostName : Word) :
    List Message :=
  (sockets hostName).filterMap Message.ofPacket?

def Addressed (numBoxes : Word → Nat) (hostName : Word) (packet : List Byte) :
    Prop :=
  ∃ message : Message, message.Legal (numBoxes hostName) ∧
    message.pktHdr.toAddress = hostName ∧
    OnWire packet message.pktHdr message.payload

theorem addressed_sendToSocket
    {numBoxes : Word → Nat} {sockets : Word → List (List Byte)}
    (addressed : ∀ hostName, ∀ packet ∈ sockets hostName,
      Addressed numBoxes hostName packet)
    {sent : Option (Word × List Byte)}
    (isAddressed : ∀ toName packet, sent = some (toName, packet) →
      Addressed numBoxes toName packet) :
    ∀ hostName, ∀ packet ∈ sendToSocket sockets sent hostName,
      Addressed numBoxes hostName packet := by
  cases sent with
  | none =>
    exact addressed
  | some pair =>
    obtain ⟨toName, packet⟩ := pair
    refine (Function.forall_update_iff sockets (fun hostName socket =>
      ∀ packet ∈ socket, Addressed numBoxes hostName packet)).mpr
        ⟨?_, fun other _ => addressed other⟩
    intro other member
    rcases List.mem_append.mp member with earlier | last
    · exact addressed toName other earlier
    · rw [List.mem_singleton.mp last]
      exact isAddressed toName packet rfl

theorem inFlight_sendToSocket
    {numBoxes : Nat} {message : Message} {packet : List Byte}
    (legal : message.Legal numBoxes)
    (onWire : OnWire packet message.pktHdr message.payload)
    (sockets : Word → List (List Byte)) (toName target : Word) :
    inFlight (sendToSocket sockets (some (toName, packet))) target =
      inFlight sockets target ++ if target = toName then [message] else [] := by
  change (Function.update sockets toName (sockets toName ++ [packet])
    target).filterMap Message.ofPacket? = _
  by_cases same : target = toName
  · rw [same, Function.update_self, List.filterMap_append, if_pos rfl]
    simp [inFlight, Message.ofPacket?_eq legal onWire]
  · rw [Function.update_of_ne same, if_neg same, List.append_nil]
    rfl

structure Sound [DecidableEq Thread] (worker : Thread) (numBoxes : Word → Nat)
    (network : PostNetwork Thread) : Prop where
  outputs : ∀ hostName,
    (network.outputs hostName).Sound numBoxes hostName
  inputs : ∀ hostName,
    (network.inputs hostName).Sound worker hostName (numBoxes hostName)
  packets : ∀ hostName, ∀ packet ∈ network.sockets hostName,
    Addressed numBoxes hostName packet
  flows : ∀ source target,
    Flows source target (network.inputs target).arrived
      (inFlight network.sockets target) (network.outputs source).issued

variable [DecidableEq Thread] {worker : Thread} {numBoxes : Word → Nat}
variable {network : PostNetwork Thread}

theorem sound_of_starts
    (starts : network.Starts) : network.Sound worker numBoxes := by
  obtain ⟨outputs, inputs, sockets⟩ := starts
  refine ⟨?_, ?_, ?_, ?_⟩
  · intro hostName
    rw [outputs]
    exact PostOfficeOutputUse.sound_create numBoxes hostName
  · intro hostName
    obtain ⟨inHdr, inbox, buffer, isInput⟩ := inputs hostName
    rw [isInput]
    exact PostOfficeInputUse.sound_create ..
  · intro hostName packet member
    rw [sockets] at member
    exact (List.not_mem_nil member).elim
  · intro source target
    obtain ⟨inHdr, inbox, buffer, isInput⟩ := inputs target
    unfold inFlight
    rw [outputs, isInput, sockets]
    exact List.Sublist.refl []

namespace Sound

theorem flows_output
    (sound : network.Sound worker numBoxes) {hostName : Word}
    {output : PostOfficeOutputUse Thread} {sent : Option (Word × List Byte)}
    (emits : PostOfficeOutputUse.Emits numBoxes hostName
      (network.outputs hostName) output sent)
    (source target : Word) :
    Flows source target (network.inputs target).arrived
      (inFlight (sendToSocket network.sockets sent) target)
      (Function.update network.outputs hostName output source).issued := by
  have flows := sound.flows source target
  cases sent with
  | none =>
    refine flows.more ?_
    by_cases same : source = hostName
    · rw [same, Function.update_self]
      exact emits.issued
    · rw [Function.update_of_ne same]
  | some pair =>
    obtain ⟨toName, packet⟩ := pair
    obtain ⟨message, issued, isTo, legal, onWire⟩ :=
      emits.sent toName packet rfl
    rw [inFlight_sendToSocket legal onWire]
    by_cases same : source = hostName
    · subst same
      rw [Function.update_self, issued]
      by_cases here : target = toName
      · rw [if_pos here]
        exact flows.send (isTo.symm.trans here.symm)
      · rw [if_neg here, List.append_nil]
        exact flows.more ⟨[message], rfl⟩
    · rw [Function.update_of_ne same]
      by_cases here : target = toName
      · rw [if_pos here]
        exact flows.sendOther (Ne.symm same)
      · rw [if_neg here, List.append_nil]
        exact flows

theorem output
    (sound : network.Sound worker numBoxes) {hostName : Word}
    {event : PostOfficeOutputUse.Event Thread}
    (allowed : (network.outputs hostName).Allows numBoxes event) :
    ∃ next, network.perform worker numBoxes (.output hostName event) =
        .ok next ∧ next.Sound worker numBoxes := by
  obtain ⟨sent, output, performed, outputSound, emits⟩ :=
    (sound.outputs hostName).step allowed
  refine ⟨{ network with
    outputs := Function.update network.outputs hostName output
    sockets := sendToSocket network.sockets sent }, ?_, ?_, sound.inputs, ?_,
    ?_⟩
  · simp only [perform, performed, ok_bind]
    rfl
  · exact (Function.forall_update_iff network.outputs (fun hostName output =>
      output.Sound numBoxes hostName)).mpr
        ⟨outputSound, fun other _ => sound.outputs other⟩
  · refine addressed_sendToSocket sound.packets ?_
    intro toName packet isSent
    obtain ⟨message, _, isTo, legal, onWire⟩ := emits.sent toName packet isSent
    exact ⟨message.stamped hostName, legal, isTo.symm, onWire⟩
  · intro source target
    exact sound.flows_output emits source target

theorem input
    (sound : network.Sound worker numBoxes) {hostName : Word}
    {event : PostOfficeInputUse.Event Thread}
    (allowed : (network.inputs hostName).Allows worker (numBoxes hostName)
      event) :
    ∃ next, network.perform worker numBoxes (.input hostName event) =
        .ok next ∧ next.Sound worker numBoxes := by
  obtain ⟨input, performed, inputSound, sameArrived⟩ :=
    (sound.inputs hostName).step allowed
  refine ⟨{ network with
    inputs := Function.update network.inputs hostName input }, ?_,
    sound.outputs, ?_, sound.packets, ?_⟩
  · simp only [perform, performed, ok_bind]
    rfl
  · exact (Function.forall_update_iff network.inputs (fun hostName input =>
      input.Sound worker hostName (numBoxes hostName))).mpr
        ⟨inputSound, fun other _ => sound.inputs other⟩
  · intro source target
    have same :
        (Function.update network.inputs hostName input target).arrived =
          (network.inputs target).arrived :=
      read_update_eq PostOfficeInputUse.arrived sameArrived target
    dsimp only
    rw [same]
    exact sound.flows source target

theorem readIn
    (sound : network.Sound worker numBoxes) {hostName : Word}
    (empty : (network.inputs hostName).network.isFull = false)
    {found : Bool} (polls : found = true)
    {packet : List Byte} {rest : List (List Byte)}
    (socket : network.sockets hostName = packet :: rest) :
    ∃ next, network.perform worker numBoxes (.poll hostName found) =
        .ok next ∧ next.Sound worker numBoxes := by
  obtain ⟨message, legal, here, onWire⟩ :=
    sound.packets hostName packet (by rw [socket]; exact List.mem_cons_self)
  obtain ⟨input, called, inputSound, arrived⟩ :=
    (sound.inputs hostName).callBack_some empty legal here onWire
  have performed :
      network.perform worker numBoxes (.poll hostName found) = .ok { network with
        inputs := Function.update network.inputs hostName input
        sockets := Function.update network.sockets hostName rest } := by
    simp only [perform, polls, socket, if_true, List.head?_cons, called,
      ok_bind, List.tail_cons]
    rfl
  refine ⟨_, performed, sound.outputs, ?_, ?_, ?_⟩
  · exact (Function.forall_update_iff network.inputs (fun hostName input =>
      input.Sound worker hostName (numBoxes hostName))).mpr
        ⟨inputSound, fun other _ => sound.inputs other⟩
  · refine (Function.forall_update_iff network.sockets (fun hostName socket =>
      ∀ packet ∈ socket, Addressed numBoxes hostName packet)).mpr
        ⟨?_, fun other _ => sound.packets other⟩
    intro other member
    refine sound.packets hostName other ?_
    rw [socket]
    exact List.mem_cons_of_mem packet member
  · intro source target
    have flows := sound.flows source target
    unfold inFlight at flows ⊢
    dsimp only
    by_cases same : target = hostName
    · subst same
      rw [socket, List.filterMap_cons_some
        (Message.ofPacket?_eq legal onWire)] at flows
      rw [Function.update_self, Function.update_self, arrived]
      exact flows.arrive
    · rw [Function.update_of_ne same, Function.update_of_ne same]
      exact flows

/-- A `NetworkRecvInt`: the device is full or nothing is there, or the first
packet is read in. -/
theorem poll
    (sound : network.Sound worker numBoxes) (hostName : Word) (found : Bool) :
    ∃ next, network.perform worker numBoxes (.poll hostName found) =
        .ok next ∧ next.Sound worker numBoxes := by
  by_cases nothing :
      (network.inputs hostName).network.isFull = true ∨
        (if found then (network.sockets hostName).head? else none) = none
  · refine ⟨network, ?_, sound⟩
    simp only [perform, PostOfficeInputUse.Sound.callBack_none nothing, ok_bind,
      Function.update_eq_self]
    rfl
  · obtain ⟨notFull, isFound⟩ := not_or.mp nothing
    have empty : (network.inputs hostName).network.isFull = false := by
      simpa using notFull
    have polls : found = true := by
      by_contra notFound
      exact isFound (if_neg notFound)
    rw [if_pos polls] at isFound
    obtain ⟨packet, rest, socket⟩ :
        ∃ packet rest, network.sockets hostName = packet :: rest :=
      List.exists_cons_of_ne_nil (fun isEmpty => isFound (by rw [isEmpty]; rfl))
    exact sound.readIn empty polls socket

theorem drop
    (sound : network.Sound worker numBoxes) (hostName : Word) (index : Nat) :
    { network with
      sockets := Function.update network.sockets hostName
        ((network.sockets hostName).eraseIdx index) }.Sound worker
          numBoxes := by
  refine ⟨sound.outputs, sound.inputs, ?_, ?_⟩
  · refine (Function.forall_update_iff network.sockets (fun hostName socket =>
      ∀ packet ∈ socket, Addressed numBoxes hostName packet)).mpr
        ⟨?_, fun other _ => sound.packets other⟩
    intro packet member
    exact sound.packets hostName packet (List.mem_of_mem_eraseIdx member)
  · intro source target
    refine (sound.flows source target).lose ?_
    unfold inFlight
    dsimp only
    by_cases same : target = hostName
    · subst same
      rw [Function.update_self]
      exact (List.eraseIdx_sublist _ _).filterMap _
    · rw [Function.update_of_ne same]

/-- Every step on any machine keeps the invariant. -/
theorem step
    (sound : network.Sound worker numBoxes) {event : Event Thread}
    (allowed : network.Allows worker numBoxes event) :
    ∃ next, network.perform worker numBoxes event = .ok next ∧
      next.Sound worker numBoxes := by
  cases event with
  | output hostName event => exact sound.output allowed
  | input hostName event => exact sound.input allowed
  | poll hostName found => exact sound.poll hostName found
  | drop hostName index => exact ⟨_, rfl, sound.drop hostName index⟩

end Sound

theorem sound_of_reachable
    (reachable : (system worker numBoxes).Reachable network) :
    network.Sound worker numBoxes := by
  refine reachable.invariant ?_ ?_
  · intro state starts
    exact sound_of_starts starts
  · rintro source event target sound ⟨allowed, performed⟩
    obtain ⟨next, stepped, nextSound⟩ := sound.step allowed
    cases stepped.symm.trans performed
    exact nextSound

structure Contract (worker : Thread) (numBoxes : Word → Nat)
    (network : PostNetwork Thread) : Prop where
  /-- What is taken out of a mailbox and came from a machine is what was sent
  there from that machine, in the order of its `sendLock`, with the header that
  `Send` completes and the bytes that belong to the message. -/
  order : ∀ source target box,
    ((network.inputs target).received box).filter (Message.isFrom source) <+
      ((network.outputs source).acquired.map (Message.stamped source)).filter
        (fun message => message.isTo target && message.isFor box)
  /-- All mailboxes of a machine together get no message twice. -/
  once : ∀ source target,
    (network.inputs target).delivered.filter (Message.isFrom source) <+
      ((network.outputs source).acquired.map (Message.stamped source)).filter
        (Message.isTo target)
  /-- A mailbox gets its own messages, in the order of their arrival. -/
  boxed : ∀ target box,
    (network.inputs target).received box <+:
      (network.inputs target).delivered.filter (Message.isFor box)
  /-- `Receive` returns what it took out of the mailbox. -/
  results : ∀ target box thread,
    (((network.inputs target).boxes box).removed.filter
        (fun entry => entry.1 = thread)).map Prod.snd =
      ((network.inputs target).boxes box).returned thread ++
        (((network.inputs target).boxes box).task thread).result?.toList
  contents : ∀ target box,
    ∀ entry ∈ ((network.inputs target).boxes box).removed,
      entry.2.receive = .ok entry.2.message
  /-- What was read from the socket is in a mailbox, or still in the buffer of
  the worker or in the device. -/
  kept : ∀ target,
    (network.inputs target).arrived =
      (network.inputs target).delivered ++ (network.inputs target).inHand ++
        (network.inputs target).buffered
  /-- No `ASSERT` fails. -/
  safe : ∀ event, network.Allows worker numBoxes event →
    ∃ next, network.perform worker numBoxes event = .ok next

omit [DecidableEq Thread] in
theorem received_eq
    (input : PostOfficeInputUse Thread) (box : Nat) :
    input.received box =
      ((input.boxes box).removed.map Prod.snd).map Mail.message := by
  rw [List.map_map]
  rfl

theorem Sound.boxed
    (sound : network.Sound worker numBoxes) (target : Word) (box : Nat) :
    (network.inputs target).received box <+:
      (network.inputs target).delivered.filter (Message.isFor box) := by
  have boxSound := (sound.inputs target).boxes box
  rw [received_eq, ← boxSound.passed, ← boxSound.delivered_eq,
    List.append_assoc, List.map_append]
  exact ⟨_, rfl⟩

/-- What was delivered was sent. -/
theorem Sound.once
    (sound : network.Sound worker numBoxes) (source target : Word) :
    (network.inputs target).delivered.filter (Message.isFrom source) <+
      ((network.outputs source).acquired.map (Message.stamped source)).filter
        (Message.isTo target) := by
  have flows :=
    (sound.flows source target).more (sound.outputs source).issued_acquired
  rw [(sound.inputs target).account] at flows
  refine List.Sublist.trans (List.Sublist.filter _ ?_) flows
  rw [List.append_assoc, List.append_assoc]
  exact List.sublist_append_left _ _

/-- Under every schedule each mailbox gets the messages that were sent to it, in
order and as they were sent, and none is overwritten. -/
theorem delivery_of_reachable
    (reachable : (system worker numBoxes).Reachable network) :
    network.Contract worker numBoxes := by
  have sound := sound_of_reachable reachable
  refine ⟨?_, sound.once, sound.boxed, ?_, ?_, ?_, ?_⟩
  · intro source target box
    calc ((network.inputs target).received box).filter (Message.isFrom source)
      _ <+ ((network.inputs target).delivered.filter
            (Message.isFor box)).filter (Message.isFrom source) :=
          (sound.boxed target box).sublist.filter _
      _ = ((network.inputs target).delivered.filter
            (Message.isFrom source)).filter (Message.isFor box) :=
          List.filter_comm _ _ _
      _ <+ (((network.outputs source).acquired.map
            (Message.stamped source)).filter (Message.isTo target)).filter
              (Message.isFor box) :=
          (sound.once source target).filter _
      _ = ((network.outputs source).acquired.map
            (Message.stamped source)).filter
              (fun message => message.isTo target && message.isFor box) := by
          rw [List.filter_filter]
          simp only [Bool.and_comm]
  · intro target box thread
    exact (SynchListUse.sound_of_reachable
      ((sound.inputs target).boxes box).reachable).recorded.results thread
  · intro target box entry member
    have boxSound := (sound.inputs target).boxes box
    have passed : entry.2 ∈ ((network.inputs target).boxes box).passed := by
      rw [← boxSound.delivered_eq, List.append_assoc]
      exact List.mem_append_left _ (List.mem_map_of_mem member)
    exact (boxSound.mails entry.2 passed).2.receive_eq
  · intro target
    exact (sound.inputs target).account
  · intro event allowed
    obtain ⟨next, performed, _⟩ := sound.step allowed
    exact ⟨next, performed⟩

def letter : Message :=
  ⟨⟨1, 9, 9⟩, ⟨0, 5, 1⟩, [65, 66]⟩

def letterCall : SendCall :=
  ⟨letter, ⟨1, 0, 13⟩, letter.mailHdr.bytes ++ 65 :: List.replicate 39 0⟩

/-- The postal worker puts the letter in its mailbox, and a thread takes it
out. -/
theorem delivery_of_letter :
    ∃ network : PostNetwork Bool,
      (system true fun _ => 1).Reachable network ∧
        ((network.inputs 1).received 0).map Message.data = [[65]] ∧
        network.Contract true fun _ => 1 := by
  have step : ∀ {source target : PostNetwork Bool} (event : Event Bool),
      (system true fun _ => 1).Reachable source →
      source.Allows true (fun _ => 1) event →
      source.perform true (fun _ => 1) event = .ok target →
      (system true fun _ => 1).Reachable target :=
    fun _ reachable allowed performed => reachable.step ⟨allowed, performed⟩
  have signalCalled (call : WakeCall) :
      ConditionPhase.signalCalled call ≠ .rest := by simp
  have signalChecked (call : WakeCall) :
      ConditionPhase.signalChecked call ≠ .rest := by simp
  have woken (call : WakeCall) : ConditionPhase.woken call ≠ .rest := by simp
  have permitted : PostOfficeOutputUse.Permits (fun _ => 1) letter :=
    ⟨by decide, by decide, by decide, by decide⟩
  have now : (system true fun _ => 1).Reachable
      ⟨fun _ => .create, fun _ => .create ⟨0, 0, 0⟩ (fun _ => 0) (fun _ => 0),
        fun _ => []⟩ :=
    .start ⟨fun _ => rfl, fun _ => ⟨_, _, _, rfl⟩, fun _ => rfl⟩
  have now := step (.output 0 (.call false letter fun _ => 0)) now
    ⟨rfl, permitted⟩ rfl
  have now := step (.output 0 (.guarded (.lock (.acquire false)))) now
    ⟨⟨⟨by decide, rfl⟩, Or.inl rfl⟩, rfl⟩ rfl
  have now := step (.output 0 (.guarded (.lock (.assign false)))) now
    ⟨⟨⟨by decide, rfl⟩, ⟨false, rfl⟩⟩, rfl⟩ rfl
  have now := step (.output 0 (.guarded (.acquired false letterCall))) now
    ⟨⟨rfl, rfl⟩, rfl⟩ rfl
  have now := step (.output 0 (.send false letterCall false fun _ => 0)) now
    rfl rfl
  have now := step (.poll 1 true) now (fun _ isEmpty => (by cases isEmpty)) rfl
  have now := step (.input 1 .P) now rfl rfl
  have now := step (.input 1 .receive) now rfl rfl
  have now := step (.input 1 (.put ⟨1, 0, 13⟩ fun _ => 0)) now rfl rfl
  have now := step (.input 1 (.box 0 (.condition (.lock (.acquire true))))) now
    ⟨⟨⟨by decide, _, rfl, rfl⟩, trivial, Or.inl rfl⟩, rfl⟩ rfl
  have now := step (.input 1 (.box 0 (.condition (.lock (.assign true))))) now
    ⟨⟨⟨by decide, _, rfl, rfl⟩, trivial, false, rfl⟩, rfl⟩ rfl
  have now := step (.input 1 (.box 0 (.acquired true (.append _)))) now
    ⟨⟨rfl, rfl⟩, rfl⟩ rfl
  have now := step (.input 1 (.box 0 (.append true _))) now ⟨rfl, rfl⟩ rfl
  have now := step (.input 1 (.box 0 (.signal true))) now ⟨rfl, rfl⟩ rfl
  have now := step (.input 1 (.box 0 (.condition
    (.checkSignal true ⟨false, [], [], 0⟩)))) now ⟨⟨signalCalled _, rfl⟩, rfl⟩ rfl
  have now := step (.input 1 (.box 0 (.condition
    (.test true ⟨false, [], [], 1⟩)))) now ⟨⟨signalChecked _, rfl⟩, rfl⟩ rfl
  have now := step (.input 1 (.box 0 (.condition
    (.finish true ⟨false, [], [], 2⟩)))) now ⟨⟨woken _, rfl⟩, rfl⟩ rfl
  have now := step (.input 1 (.box 0 (.signalled true))) now
    ⟨⟨rfl, rfl⟩, rfl⟩ rfl
  have now := step (.input 1 (.box 0 (.release true none))) now ⟨rfl, rfl⟩ rfl
  have now := step (.input 1 (.box 0 (.condition (.lock (.check true))))) now
    ⟨⟨⟨_, rfl, rfl⟩, trivial, rfl⟩, rfl⟩ rfl
  have now := step (.input 1 (.box 0 (.condition (.lock (.clear true))))) now
    ⟨⟨⟨_, rfl, rfl⟩, trivial, rfl⟩, rfl⟩ rfl
  have now := step (.input 1 (.box 0 (.condition (.lock (.V true))))) now
    ⟨⟨⟨_, rfl, rfl⟩, trivial, rfl⟩, rfl⟩ rfl
  have now := step (.input 1 (.box 0 (.released true none))) now
    ⟨⟨rfl, rfl⟩, rfl⟩ rfl
  have now := step (.input 1 (.returned 0)) now ⟨rfl, rfl⟩ rfl
  have now := step (.input 1 (.get false 0)) now
    ⟨by decide, by decide, by decide, rfl⟩ rfl
  have now := step (.input 1 (.box 0 (.condition (.lock (.acquire false))))) now
    ⟨⟨⟨by decide, _, rfl, rfl⟩, trivial, Or.inl rfl⟩, rfl⟩ rfl
  have now := step (.input 1 (.box 0 (.condition (.lock (.assign false))))) now
    ⟨⟨⟨by decide, _, rfl, rfl⟩, trivial, false, rfl⟩, rfl⟩ rfl
  have now := step (.input 1 (.box 0 (.acquired false .removeFront))) now
    ⟨⟨rfl, rfl⟩, rfl⟩ rfl
  have now := step (.input 1 (.box 0 (.test false false))) now ⟨rfl, rfl⟩ rfl
  have now := step (.input 1 (.box 0 (.take false))) now ⟨rfl, rfl⟩ rfl
  exact ⟨_, now, by decide +kernel, delivery_of_reachable now⟩

end PostNetwork

end Nachos
