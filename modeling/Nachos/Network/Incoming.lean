import Nachos.Network.Post

/-!
# Receiving
-/

namespace Nachos

open Foundation

variable {Thread : Type}

structure Message.HeldIn (hostName : Word) (numBoxes : Nat)
    (pktHdr : PacketHeader) (buffer : List Byte) (message : Message) :
    Prop where
  pktHdr : pktHdr = message.pktHdr
  buffer : InBuffer buffer message.payload
  legal : message.Legal numBoxes
  here : message.pktHdr.toAddress = hostName

theorem Message.HeldIn.read
    {hostName : Word} {numBoxes : Nat} {pktHdr : PacketHeader}
    {buffer : List Byte} {message : Message}
    (held : message.HeldIn hostName numBoxes pktHdr buffer) :
    Message.read? pktHdr buffer = some message := by
  rw [held.pktHdr]
  exact Message.read?_eq held.legal held.buffer.starts

namespace PostOfficeInputUse

structure BoxSound (worker : Thread) (phase : WorkerPhase) (created : Nat)
    (delivered : List Message) (box : Nat)
    (messages : SynchListUse Thread Mail) [DecidableEq Thread] : Prop where
  reachable : SynchListUse.system.Reachable messages
  sole : messages.SoleProducer worker
  passed : messages.passed.map Mail.message =
    delivered.filter (Message.isFor box)
  mails : ∀ mail ∈ messages.passed, mail.serial < created ∧ mail.Sound
  resting : phase ≠ .putting box → messages.task worker = .idle

structure Sound [DecidableEq Thread] (worker : Thread) (hostName : Word)
    (numBoxes : Nat) (use : PostOfficeInputUse Thread) : Prop where
  messageAvailable : use.messageAvailable.Sound 0 0
  inside : ∀ thread, use.messageAvailable.Inside thread ↔
    thread = worker ∧ use.phase = .inP
  value : use.messageAvailable.semaphore.value =
    if use.network.isFull = true ∧ use.phase ≠ .passed then 1 else 0
  passed : use.phase = .passed → use.network.isFull = true
  inbox : use.network.inbox.length = maxPacketSize
  buffer : use.buffer.length = maxPacketSize
  full : use.network.isFull = true →
    ∃ message : Message, message.HeldIn hostName numBoxes use.network.inHdr
      use.network.inbox
  hand : ∀ pktHdr, use.phase = .received pktHdr →
    ∃ message : Message, message.HeldIn hostName numBoxes pktHdr use.buffer
  account : use.arrived = use.delivered ++ use.inHand ++ use.buffered
  boxes : ∀ box, BoxSound worker use.phase use.created use.delivered box
    (use.boxes box)

variable [DecidableEq Thread] {worker : Thread} {hostName : Word}
variable {numBoxes : Nat} {use : PostOfficeInputUse Thread}

theorem sound_create
    (worker : Thread) (hostName : Word) (numBoxes : Nat)
    (inHdr : PacketHeader) (inbox buffer : Junk) :
    (create inHdr inbox buffer).Sound worker hostName numBoxes where
  messageAvailable := SemaphoreUse.sound_create le_rfl (by decide)
  inside := by
    intro thread
    simp [create, SemaphoreUse.create, Semaphore.create, SemaphoreUse.Inside]
  value := rfl
  passed := fun passed => (by cases passed)
  inbox := by simp [create]
  buffer := by simp [create]
  full := fun full => (by cases full)
  hand := fun _ received => (by cases received)
  account := rfl
  boxes := fun _ => ⟨.start rfl, SynchListUse.soleProducer_create worker, rfl,
    fun _ member => (List.not_mem_nil member).elim, fun _ => rfl⟩

namespace BoxSound

variable {phase next : WorkerPhase} {created box : Nat}
variable {delivered : List Message} {messages : SynchListUse Thread Mail}

theorem rephase
    (sound : BoxSound worker phase created delivered box messages)
    (same : next ≠ .putting box → phase ≠ .putting box) :
    BoxSound worker next created delivered box messages :=
  { sound with resting := fun elsewhere => sound.resting (same elsewhere) }

theorem inner
    (sound : BoxSound worker phase created delivered box messages)
    {event : SynchListUse.Event Thread Mail}
    (allowed : messages.Allows event) (isInner : event.isInner = true) :
    ∃ next, messages.perform event = .ok next ∧
      BoxSound worker phase created delivered box next := by
  obtain ⟨next, performed, _⟩ :=
    (SynchListUse.sound_of_reachable sound.reachable).step allowed
  obtain ⟨thread, task, step⟩ :=
    SynchListUse.innerStep allowed isInner performed
  refine ⟨next, performed, sound.reachable.step ⟨allowed, performed⟩,
    step.soleProducer sound.sole, ?_, ?_, ?_⟩
  · rw [step.passed]
    exact sound.passed
  · rw [step.passed]
    exact sound.mails
  · intro elsewhere
    exact step.idle (sound.resting elsewhere)

/-- What was taken out of the mailbox, what is in it, and what is on its way
into it. -/
theorem delivered_eq
    (sound : BoxSound worker phase created delivered box messages) :
    messages.removed.map Prod.snd ++ messages.list ++
        (messages.task worker).pending?.toList = messages.passed := by
  have order := (Channel.fifo_of_reachable
    (SynchListUse.refines_channel.reachable sound.reachable)).1
  rw [sound.sole.passed]
  exact congrArg (· ++ _) order

theorem get
    (sound : BoxSound worker phase created delivered box messages)
    {thread : Thread} (isReceiver : thread ≠ worker)
    (idle : messages.task thread = .idle) :
    ∃ next, messages.perform (.call thread .removeFront) = .ok next ∧
      BoxSound worker phase created delivered box next := by
  have allowed : messages.Allows (.call thread .removeFront) :=
    ⟨idle, fun _ isItem => (by cases isItem)⟩
  refine ⟨_, rfl, sound.reachable.step ⟨allowed, rfl⟩,
    sound.sole.callRemoveFront idle, ?_, ?_, ?_⟩
  · change (messages.passed ++ []).map Mail.message = _
    rw [List.append_nil]
    exact sound.passed
  · intro mail member
    change mail ∈ messages.passed ++ [] at member
    rw [List.append_nil] at member
    exact sound.mails mail member
  · intro elsewhere
    exact (Function.update_of_ne isReceiver.symm _ _).trans
      (sound.resting elsewhere)

theorem put
    (sound : BoxSound worker phase created delivered box messages)
    (elsewhere : phase ≠ .putting box) {mail : Mail}
    (isNew : mail.serial = created) (mailSound : mail.Sound)
    (here : mail.mailHdr.toAddress.toNat = box) :
    ∃ next, messages.perform (.call worker (.append mail)) = .ok next ∧
      BoxSound worker (.putting box) (created + 1)
        (delivered ++ [mail.message]) box next := by
  have idle := sound.resting elsewhere
  have fresh : mail ∉ messages.passed := by
    intro member
    have earlier := (sound.mails mail member).1
    omega
  have allowed : messages.Allows (.call worker (.append mail)) := by
    refine ⟨idle, ?_⟩
    intro item isItem
    cases isItem
    exact fresh
  refine ⟨_, rfl, sound.reachable.step ⟨allowed, rfl⟩,
    sound.sole.callAppend idle mail, ?_, ?_, fun absurdly => ?_⟩
  · change (messages.passed ++ [mail]).map Mail.message = _
    rw [List.map_append, sound.passed, List.filter_append]
    congr 1
    have kept : mail.message.isFor box = true := decide_eq_true here
    simp [kept]
  · intro other member
    change other ∈ messages.passed ++ [mail] at member
    rcases List.mem_append.mp member with earlier | last
    · obtain ⟨bound, otherSound⟩ := sound.mails other earlier
      exact ⟨bound.trans (Nat.lt_succ_self created), otherSound⟩
    · rw [List.mem_singleton.mp last]
      exact ⟨isNew ▸ Nat.lt_succ_self mail.serial, mailSound⟩
  · exact (absurdly rfl).elim

theorem putElsewhere
    (sound : BoxSound worker phase created delivered box messages)
    (elsewhere : phase ≠ .putting box) {message : Message} {other : Nat}
    (there : message.mailHdr.toAddress.toNat = other)
    (different : box ≠ other) :
    BoxSound worker (.putting other) (created + 1) (delivered ++ [message])
      box messages := by
  refine ⟨sound.reachable, sound.sole, ?_, ?_, fun _ => sound.resting elsewhere⟩
  · have elsewhere : message.isFor box = false :=
      decide_eq_false (there ▸ different.symm)
    rw [sound.passed]
    simp [elsewhere]
  · intro mail member
    obtain ⟨bound, mailSound⟩ := sound.mails mail member
    exact ⟨bound.trans (Nat.lt_succ_self created), mailSound⟩

end BoxSound

namespace Sound

/-- A test of `messageAvailable->P()`: the worker passes if a packet is in the
device. -/
theorem tested
    (sound : use.Sound worker hostName numBoxes)
    (waits : use.phase = .atP ∨ use.phase = .inP)
    {taken : Bool} {messageAvailable : SemaphoreUse Thread}
    (tested : use.messageAvailable.Tested worker taken messageAvailable)
    (semaphoreSound : messageAvailable.Sound 0 0) :
    { use with
      messageAvailable := messageAvailable
      phase := afterTest taken }.Sound worker hostName numBoxes := by
  have notPassed : use.phase ≠ .passed := by
    rcases waits with waits | waits <;> rw [waits] <;> decide
  have noHand : use.inHand = [] := by
    unfold inHand
    rcases waits with waits | waits <;> rw [waits]
  have full_iff : use.network.isFull = true ↔ taken = true := by
    rw [tested.taken_iff, sound.value]
    simp [notPassed]
  refine ⟨semaphoreSound, ?_, ?_, ?_, sound.inbox, sound.buffer, sound.full,
    ?_, ?_, ?_⟩
  · intro thread
    by_cases same : thread = worker
    · subst same
      rw [tested.inside_self]
      cases taken <;> simp [afterTest]
    · rw [tested.inside_other thread same, sound.inside]
      simp [same]
  · dsimp only
    rw [tested.value, sound.value]
    cases taken <;> simp [afterTest, full_iff, notPassed]
  · intro passed
    rw [full_iff]
    cases taken with
    | true => rfl
    | false => cases passed
  · intro pktHdr received
    cases taken <;> cases received
  · rw [sound.account, noHand]
    cases taken <;> rfl
  · intro box
    refine (sound.boxes box).rephase fun _ => ?_
    rcases waits with waits | waits <;> rw [waits] <;> simp

theorem receive
    (sound : use.Sound worker hostName numBoxes)
    (passed : use.phase = .passed) :
    ∃ next, use.perform worker numBoxes .receive = .ok next ∧
      next.Sound worker hostName numBoxes ∧ next.arrived = use.arrived := by
  have full := sound.passed passed
  obtain ⟨message, held⟩ := sound.full full
  have carries := held.legal.carries
  rw [← held.pktHdr] at carries
  obtain ⟨buffer, received, filled⟩ :=
    NetworkInput.receive_eq held.buffer carries sound.buffer full
  have performed : use.perform worker numBoxes .receive = .ok { use with
      network := { use.network with
        inHdr := { use.network.inHdr with length := 0 } }
      buffer := buffer
      phase := .received use.network.inHdr } := by
    simp only [perform, received, ok_bind]
    rfl
  refine ⟨_, performed, ?_, rfl⟩
  have nowHeld :
      message.HeldIn hostName numBoxes use.network.inHdr buffer :=
    ⟨held.pktHdr, filled, held.legal, held.here⟩
  have value := sound.value
  rw [passed] at value
  refine ⟨sound.messageAvailable, ?_, ?_, ?_, sound.inbox, filled.length, ?_,
    ?_, ?_, ?_⟩
  · intro thread
    rw [sound.inside, passed]
    simp
  · rw [value]
    simp [NetworkInput.isFull]
  · intro stillPassed
    cases stillPassed
  · intro stillFull
    cases stillFull
  · intro pktHdr isReceived
    cases isReceived
    exact ⟨message, nowHeld⟩
  · have before := sound.account
    unfold inHand buffered at before
    rw [passed, if_pos full, held.read] at before
    unfold inHand buffered
    dsimp only
    rw [nowHeld.read, before]
    simp [NetworkInput.isFull]
  · intro box
    refine (sound.boxes box).rephase fun _ => ?_
    rw [passed]
    simp

/-- The worker checks the message in its buffer and begins to put it in its
mailbox. -/
theorem put
    (sound : use.Sound worker hostName numBoxes) {pktHdr : PacketHeader}
    (received : use.phase = .received pktHdr) (junk : Junk) :
    ∃ next, use.perform worker numBoxes (.put pktHdr junk) = .ok next ∧
      next.Sound worker hostName numBoxes ∧ next.arrived = use.arrived := by
  obtain ⟨message, held⟩ := sound.hand pktHdr received
  obtain ⟨mail, created, serial, isMessage, mailSound⟩ :=
    Mail.create_eq held.legal held.buffer.starts use.created junk
  rw [← held.pktHdr] at created
  have elsewhere : ∀ box, use.phase ≠ .putting box := by
    rw [received]
    simp
  have sameHdr : mail.mailHdr = message.mailHdr := by
    rw [← isMessage]
    rfl
  obtain ⟨messages, performed, boxSound⟩ :=
    (sound.boxes message.mailHdr.toAddress.toNat).put (elsewhere _) serial
      mailSound (by rw [sameHdr])
  have inRange :
      decide (0 ≤ message.mailHdr.toAddress.toInt ∧
        message.mailHdr.toAddress.toInt < numBoxes) = true :=
    decide_eq_true ⟨held.legal.boxLower, held.legal.boxUpper⟩
  have short : decide (message.mailHdr.length.toNat ≤ maxMailSize) = true :=
    decide_eq_true (held.legal.dataLength ▸ held.legal.small)
  have performed : use.perform worker numBoxes (.put pktHdr junk) =
      .ok { use with
        boxes := Function.update use.boxes message.mailHdr.toAddress.toNat
          messages
        phase := .putting message.mailHdr.toAddress.toNat
        created := use.created + 1
        delivered := use.delivered ++ [mail.message] } := by
    simp only [perform, Header.ofBytes_eq held.buffer.starts, ok_bind, inRange,
      short, assertThat_true, created, performed]
    rfl
  refine ⟨_, performed, ?_, rfl⟩
  refine ⟨sound.messageAvailable, ?_, ?_, ?_, sound.inbox, sound.buffer,
    sound.full, ?_, ?_, ?_⟩
  · intro thread
    rw [sound.inside, received]
    simp
  · rw [sound.value, received]
    simp
  · intro isPassed
    cases isPassed
  · intro other isReceived
    cases isReceived
  · have before := sound.account
    unfold inHand at before
    rw [received] at before
    dsimp only at before
    rw [held.read] at before
    rw [before, isMessage]
    exact congrArg (· ++ use.buffered) (List.append_nil _).symm
  · refine (Function.forall_update_iff use.boxes (fun box messages =>
      BoxSound worker _ _ _ box messages)).mpr
        ⟨boxSound, fun box different => ?_⟩
    exact (sound.boxes box).putElsewhere (elsewhere box)
      (by rw [isMessage]) different

theorem updateBox
    (sound : use.Sound worker hostName numBoxes) {box : Nat}
    {messages : SynchListUse Thread Mail}
    (boxSound : BoxSound worker use.phase use.created use.delivered box
      messages) :
    { use with
      boxes := Function.update use.boxes box messages }.Sound worker hostName
        numBoxes :=
  { sound with
    boxes := (Function.forall_update_iff use.boxes (fun box messages =>
      BoxSound worker use.phase use.created use.delivered box messages)).mpr
        ⟨boxSound, fun other _ => sound.boxes other⟩ }

theorem returned
    (sound : use.Sound worker hostName numBoxes) {box : Nat}
    (putting : use.phase = .putting box)
    (idle : (use.boxes box).task worker = .idle) :
    { use with phase := .atP }.Sound worker hostName numBoxes := by
  refine ⟨sound.messageAvailable, ?_, ?_, ?_, sound.inbox, sound.buffer,
    sound.full, ?_, ?_, ?_⟩
  · intro thread
    rw [sound.inside, putting]
    simp
  · rw [sound.value, putting]
    simp
  · intro isPassed
    cases isPassed
  · intro pktHdr isReceived
    cases isReceived
  · rw [sound.account]
    unfold inHand
    rw [putting]
    rfl
  · intro other
    refine { sound.boxes other with resting := fun _ => ?_ }
    by_cases same : other = box
    · rw [same]
      exact idle
    · refine (sound.boxes other).resting ?_
      rw [putting]
      simpa using Ne.symm same

/-- Every step of the receiving side keeps the invariant. -/
theorem step
    (sound : use.Sound worker hostName numBoxes) {event : Event Thread}
    (allowed : use.Allows worker numBoxes event) :
    ∃ next, use.perform worker numBoxes event = .ok next ∧
      next.Sound worker hostName numBoxes ∧ next.arrived = use.arrived := by
  cases event with
  | P =>
    have atP : use.phase = .atP := allowed
    have outside : ¬ use.messageAvailable.Inside worker := by
      rw [sound.inside, atP]
      simp
    obtain ⟨taken, messageAvailable, performed, isTested, semaphoreSound⟩ :=
      sound.messageAvailable.P outside
    refine ⟨_, ?_, sound.tested (Or.inl atP) isTested semaphoreSound, rfl⟩
    simp only [perform, performed, ok_bind]
    rfl
  | resume =>
    obtain ⟨inP, readied⟩ := allowed
    obtain ⟨taken, messageAvailable, performed, isTested, semaphoreSound⟩ :=
      sound.messageAvailable.resume readied
    refine ⟨_, ?_, sound.tested (Or.inr inP) isTested semaphoreSound, rfl⟩
    simp only [perform, performed, ok_bind]
    rfl
  | receive =>
    exact sound.receive allowed
  | put pktHdr junk =>
    exact sound.put allowed junk
  | returned box =>
    exact ⟨_, rfl, sound.returned allowed.1 allowed.2, rfl⟩
  | get thread box =>
    obtain ⟨isReceiver, lower, upper, idle⟩ := allowed
    obtain ⟨messages, performed, boxSound⟩ :=
      (sound.boxes box.toNat).get isReceiver idle
    have inRange : decide (0 ≤ box ∧ box < numBoxes) = true :=
      decide_eq_true ⟨lower, upper⟩
    refine ⟨_, ?_, sound.updateBox boxSound, rfl⟩
    simp only [perform, inRange, assertThat_true, performed, ok_bind]
    rfl
  | box box event =>
    obtain ⟨messages, performed, boxSound⟩ :=
      (sound.boxes box).inner allowed.1 allowed.2
    refine ⟨_, ?_, sound.updateBox boxSound, rfl⟩
    simp only [perform, performed, ok_bind]
    rfl

omit [DecidableEq Thread] in
theorem callBack_none
    {polled : Option (List Byte)}
    (nothing : use.network.isFull = true ∨ polled = none) :
    use.callBack hostName polled = .ok (false, use) := by
  unfold callBack NetworkInput.callBack
  rcases nothing with full | none
  · rw [if_pos full]
    rfl
  · rw [none]
    split <;> rfl

theorem callBack_some
    (sound : use.Sound worker hostName numBoxes)
    (empty : use.network.isFull = false) {packet : List Byte}
    {message : Message} (legal : message.Legal numBoxes)
    (here : message.pktHdr.toAddress = hostName)
    (onWire : OnWire packet message.pktHdr message.payload) :
    ∃ next, use.callBack hostName (some packet) = .ok (true, next) ∧
      next.Sound worker hostName numBoxes ∧
      next.arrived = use.arrived ++ [message] := by
  obtain ⟨inbox, readIn, filled⟩ :=
    NetworkInput.readIn_eq onWire legal.carries here sound.inbox
  have held :
      message.HeldIn hostName numBoxes message.pktHdr inbox :=
    ⟨rfl, filled, legal, here⟩
  have isFull : NetworkInput.isFull ⟨message.pktHdr, inbox⟩ = true := by
    have pktLength := legal.pktLength
    simp only [NetworkInput.isFull, bne_iff_ne, ne_eq]
    intro zero
    rw [zero, headerSize] at pktLength
    simp at pktLength
    omega
  have notPassed : use.phase ≠ .passed := by
    intro passed
    rw [sound.passed passed] at empty
    cases empty
  have performed : use.callBack hostName (some packet) = .ok (true, { use with
      network := ⟨message.pktHdr, inbox⟩
      messageAvailable := use.messageAvailable.V
      arrived := use.arrived ++ [message] }) := by
    unfold callBack NetworkInput.callBack
    rw [if_neg (by rw [empty]; decide)]
    simp only [readIn, ok_bind, pure, Except.pure, held.read,
      Option.toList_some]
  have zero : use.messageAvailable.semaphore.value = 0 := by
    rw [sound.value, empty]
    rfl
  refine ⟨_, performed, ?_, rfl⟩
  refine ⟨sound.messageAvailable.V (by omega), ?_, ?_, ?_, filled.length,
    sound.buffer, ?_, sound.hand, ?_, sound.boxes⟩
  · intro thread
    exact (SemaphoreUse.inside_V use.messageAvailable thread).trans
      (sound.inside thread)
  · dsimp only
    rw [sound.messageAvailable.value_V (by omega), zero]
    simp [isFull, notPassed]
  · intro _
    exact isFull
  · intro _
    exact ⟨message, held⟩
  · have before := sound.account
    unfold buffered at before
    rw [if_neg (by rw [empty]; decide), List.append_nil] at before
    unfold buffered
    dsimp only
    rw [if_pos isFull, held.read, before]
    rfl

end Sound

end PostOfficeInputUse

end Nachos
