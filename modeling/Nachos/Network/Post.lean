import Nachos.Network.MailBox
import Nachos.Threads.Guarded

/-!
# Post offices

`PostOfficeOutput` and `PostOfficeInput` of `network/post.cc` on every machine,
and the datagram sockets between the machines.  A host name stands for a
machine.  The sockets keep the order of the packets; a packet can be lost on
its way.  Code between two changes of the interrupt level runs through, so
nothing comes between its statements.
-/

namespace Nachos

open Foundation

variable {Thread : Type}

structure SendCall where
  message : Message
  pktHdr : PacketHeader
  buffer : List Byte

/-- `PostOfficeOutput::Send` before `sendLock->Acquire()`. -/
def SendCall.prepare (hostName : Word) (message : Message) (junk : Junk) :
    Except Fault SendCall := do
  assertThat (message.mailHdr.length.toNat ≤ maxMailSize) .mailLength
  assertThat (0 ≤ message.mailHdr.toAddress.toInt) .mailTo
  let buffer ← message.mailHdr.concatenate junk maxPacketSize message.data
    message.mailHdr.length.toNat
  return {
    message := message
    pktHdr := { message.pktHdr with
      fromAddress := hostName
      length := message.mailHdr.length + BitVec.ofNat 32 headerSize }
    buffer := buffer }

/-- `PostOfficeOutput` and its network device, and where each thread is.
`interrupts` counts the pending `NetworkSendInt`s.  The last two fields are a
record: the messages in the order in which they got the lock, and those that
were handed to the network. -/
structure PostOfficeOutputUse (Thread : Type) where
  guarded : GuardedUse Thread SendCall
  sendBusy : Bool
  interrupts : Nat
  acquired : List Message
  issued : List Message

namespace PostOfficeOutputUse

def create : PostOfficeOutputUse Thread :=
  ⟨.create, false, 0, [], []⟩

inductive Event (Thread : Type) where
  /-- Call `Send`. -/
  | call (thread : Thread) (message : Message) (junk : Junk)
  /-- A step of the lock or of the semaphore. -/
  | guarded (event : GuardedUse.Event Thread SendCall)
  /-- `network->Send(pktHdr, buffer)`. -/
  | send (thread : Thread) (call : SendCall) (lost : Bool) (junk : Junk)
  /-- Go on after `messageSent->P()`. -/
  | finish (thread : Thread) (call : SendCall)
  /-- A `NetworkSendInt`. -/
  | interrupt

structure Permits (numBoxes : Word → Nat) (message : Message) : Prop where
  small : message.mailHdr.length.toNat ≤ maxMailSize
  enough : message.mailHdr.length.toNat ≤ message.data.length
  boxLower : 0 ≤ message.mailHdr.toAddress.toInt
  boxUpper :
    message.mailHdr.toAddress.toInt < numBoxes message.pktHdr.toAddress

def isInner : GuardedUse.Event Thread SendCall → Bool
  | .call _ _ => false
  | .lock _ | .acquired _ _ | .P _ _ | .resume _ _ | .release _ _
  | .released _ _ => true

def Allows (numBoxes : Word → Nat) (use : PostOfficeOutputUse Thread) :
    Event Thread → Prop
  | .call thread message _ =>
    use.guarded.task thread = .idle ∧ Permits numBoxes message
  | .guarded event => use.guarded.Allows event ∧ isInner event = true
  | .send thread call _ _ => use.guarded.task thread = .entered call
  | .finish thread call => use.guarded.task thread = .passed call
  | .interrupt => 0 < use.interrupts

def acquires : GuardedUse.Event Thread SendCall → List Message
  | .acquired _ call => [call.message]
  | .call _ _ | .lock _ | .P _ _ | .resume _ _ | .release _ _
  | .released _ _ => []

/-- Perform a step; the first part of the result is the packet that is put on
a socket, with the name of the machine. -/
def perform [DecidableEq Thread] (hostName : Word)
    (use : PostOfficeOutputUse Thread) :
    Event Thread →
      Except Fault (Option (Word × List Byte) × PostOfficeOutputUse Thread)
  | .call thread message junk => do
    let call ← SendCall.prepare hostName message junk
    return (none, { use with
      guarded := use.guarded.moveTo thread (.acquiring call) })
  | .guarded event => do
    let guarded ← use.guarded.perform event
    return (none, { use with
      guarded := guarded
      acquired := use.acquired ++ acquires event })
  | .send thread call lost junk => do
    let packet ← NetworkOutput.send hostName use.sendBusy call.pktHdr
      call.buffer lost junk
    return (packet.map (call.pktHdr.toAddress, ·), { use with
      guarded := use.guarded.moveTo thread (.requested call)
      interrupts := use.interrupts + 1
      issued := use.issued ++ [call.message] })
  | .finish thread call =>
    return (none, { use with
      guarded := use.guarded.moveTo thread (.finished call) })
  | .interrupt =>
    return (none, { use with
      guarded := use.guarded.V
      sendBusy := false
      interrupts := use.interrupts - 1 })

end PostOfficeOutputUse

inductive WorkerPhase where
  /-- Before the first test of `messageAvailable->P()`. -/
  | atP
  /-- Asleep or readied in `messageAvailable->P()`. -/
  | inP
  /-- Before `network->Receive(buffer)`. -/
  | passed
  /-- Before the checks and the call of `Put`. -/
  | received (pktHdr : PacketHeader)
  /-- In `Append` of this mailbox. -/
  | putting (box : Nat)
  deriving DecidableEq

/-- `PostOfficeInput` and its network device; `buffer` is the one of the postal
worker.  The last three fields are a record: the number of mails allocated, the
messages read from the socket, and those put in a mailbox. -/
structure PostOfficeInputUse (Thread : Type) where
  network : NetworkInput
  messageAvailable : SemaphoreUse Thread
  boxes : Nat → SynchListUse Thread Mail
  phase : WorkerPhase
  buffer : List Byte
  created : Nat
  arrived : List Message
  delivered : List Message

namespace PostOfficeInputUse

/-- `PostOfficeInput::PostOfficeInput`, with a worker at the head of its loop.
Nothing initialises the two buffers and the rest of `inHdr`. -/
def create (inHdr : PacketHeader) (inbox buffer : Junk) :
    PostOfficeInputUse Thread where
  network := ⟨{ inHdr with length := 0 }, (List.range maxPacketSize).map inbox⟩
  messageAvailable := .create 0
  boxes := fun _ => .create
  phase := .atP
  buffer := (List.range maxPacketSize).map buffer
  created := 0
  arrived := []
  delivered := []

inductive Event (Thread : Type) where
  /-- The first test of `messageAvailable->P()`. -/
  | P
  /-- The worker is woken and tests again. -/
  | resume
  /-- `network->Receive(buffer)`. -/
  | receive
  /-- The checks of `PostalDelivery`, and the call of `Put`. -/
  | put (pktHdr : PacketHeader) (junk : Junk)
  /-- `Put` has returned. -/
  | returned (box : Nat)
  /-- A thread calls `PostOfficeInput::Receive`. -/
  | get (thread : Thread) (box : Int)
  /-- A step inside `Append` or `RemoveFront` of a mailbox. -/
  | box (box : Nat) (event : SynchListUse.Event Thread Mail)

def Allows (worker : Thread) (numBoxes : Nat)
    (use : PostOfficeInputUse Thread) : Event Thread → Prop
  | .P => use.phase = .atP
  | .resume =>
    use.phase = .inP ∧ worker ∈ use.messageAvailable.readied
  | .receive => use.phase = .passed
  | .put pktHdr _ => use.phase = .received pktHdr
  | .returned box =>
    use.phase = .putting box ∧ (use.boxes box).task worker = .idle
  | .get thread box =>
    thread ≠ worker ∧ 0 ≤ box ∧ box < numBoxes ∧
      (use.boxes box.toNat).task thread = .idle
  | .box box event => (use.boxes box).Allows event ∧ event.isInner = true

def afterTest (taken : Bool) : WorkerPhase :=
  if taken then .passed else .inP

def buffered (use : PostOfficeInputUse Thread) : List Message :=
  if use.network.isFull then
    (Message.read? use.network.inHdr use.network.inbox).toList
  else
    []

def inHand (use : PostOfficeInputUse Thread) : List Message :=
  match use.phase with
  | .received pktHdr => (Message.read? pktHdr use.buffer).toList
  | .atP | .inP | .passed | .putting _ => []

/-- A `NetworkRecvInt`: `NetworkInput::CallBack` and
`PostOfficeInput::CallBack`.  The first part of the result says whether the
packet was read. -/
def callBack (hostName : Word) (use : PostOfficeInputUse Thread)
    (polled : Option (List Byte)) :
    Except Fault (Bool × PostOfficeInputUse Thread) := do
  match ← use.network.callBack hostName polled with
  | none => return (false, use)
  | some network =>
    return (true, { use with
      network := network
      messageAvailable := use.messageAvailable.V
      arrived := use.arrived ++
        (Message.read? network.inHdr network.inbox).toList })

section

variable [DecidableEq Thread]

def perform (worker : Thread) (numBoxes : Nat)
    (use : PostOfficeInputUse Thread) :
    Event Thread → Except Fault (PostOfficeInputUse Thread)
  | .P => do
    let (taken, messageAvailable) ← use.messageAvailable.test worker
    return { use with
      messageAvailable := messageAvailable
      phase := afterTest taken }
  | .resume => do
    let (taken, messageAvailable) ← use.messageAvailable.resume worker
    return { use with
      messageAvailable := messageAvailable
      phase := afterTest taken }
  | .receive => do
    let (pktHdr, buffer, network) ← use.network.receive use.buffer
    return { use with
      network := network
      buffer := buffer
      phase := .received pktHdr }
  | .put pktHdr junk => do
    let mailHdr ← Header.ofBytes use.buffer
    assertThat (0 ≤ mailHdr.toAddress.toInt ∧
      mailHdr.toAddress.toInt < numBoxes) .mailBox
    assertThat (mailHdr.length.toNat ≤ maxMailSize) .mailLength
    let mail ← Mail.create use.created junk pktHdr mailHdr
      (use.buffer.drop headerSize)
    let box := mailHdr.toAddress.toNat
    let messages ← (use.boxes box).perform (.call worker (.append mail))
    return { use with
      boxes := Function.update use.boxes box messages
      phase := .putting box
      created := use.created + 1
      delivered := use.delivered ++ [mail.message] }
  | .returned _ => return { use with phase := .atP }
  | .get thread box => do
    assertThat (0 ≤ box ∧ box < numBoxes) .mailBox
    let messages ← (use.boxes box.toNat).perform (.call thread .removeFront)
    return { use with
      boxes := Function.update use.boxes box.toNat messages }
  | .box box event => do
    let messages ← (use.boxes box).perform event
    return { use with boxes := Function.update use.boxes box messages }

end

def received (use : PostOfficeInputUse Thread) (box : Nat) : List Message :=
  (use.boxes box).removed.map (fun entry => entry.2.message)

end PostOfficeInputUse

structure PostNetwork (Thread : Type) where
  outputs : Word → PostOfficeOutputUse Thread
  inputs : Word → PostOfficeInputUse Thread
  sockets : Word → List (List Byte)

namespace PostNetwork

inductive Event (Thread : Type) where
  /-- A step of a sender or a `NetworkSendInt`. -/
  | output (hostName : Word) (event : PostOfficeOutputUse.Event Thread)
  /-- A step of a postal worker or of a receiver. -/
  | input (hostName : Word) (event : PostOfficeInputUse.Event Thread)
  /-- A `NetworkRecvInt`, and whether `PollSocket` finds a packet. -/
  | poll (hostName : Word) (found : Bool)
  /-- A packet is lost on its way. -/
  | drop (hostName : Word) (index : Nat)

def Allows (worker : Thread) (numBoxes : Word → Nat)
    (network : PostNetwork Thread) : Event Thread → Prop
  | .output hostName event => (network.outputs hostName).Allows numBoxes event
  | .input hostName event =>
    (network.inputs hostName).Allows worker (numBoxes hostName) event
  | .poll hostName found => found = true → network.sockets hostName ≠ []
  | .drop _ _ => True

def sendToSocket (sockets : Word → List (List Byte)) :
    Option (Word × List Byte) → Word → List (List Byte)
  | none => sockets
  | some (toName, packet) =>
    Function.update sockets toName (sockets toName ++ [packet])

variable [DecidableEq Thread]

def perform (worker : Thread) (numBoxes : Word → Nat)
    (network : PostNetwork Thread) :
    Event Thread → Except Fault (PostNetwork Thread)
  | .output hostName event => do
    let (sent, output) ← (network.outputs hostName).perform hostName event
    return { network with
      outputs := Function.update network.outputs hostName output
      sockets := sendToSocket network.sockets sent }
  | .input hostName event => do
    let input ← (network.inputs hostName).perform worker (numBoxes hostName)
      event
    return { network with
      inputs := Function.update network.inputs hostName input }
  | .poll hostName found => do
    let socket := network.sockets hostName
    let polled := if found then socket.head? else none
    let (read, input) ← (network.inputs hostName).callBack hostName polled
    return { network with
      inputs := Function.update network.inputs hostName input
      sockets := if read then
          Function.update network.sockets hostName socket.tail
        else
          network.sockets }
  | .drop hostName index =>
    return { network with
      sockets := Function.update network.sockets hostName
        ((network.sockets hostName).eraseIdx index) }

def Starts (network : PostNetwork Thread) : Prop :=
  (∀ hostName, network.outputs hostName = .create) ∧
    (∀ hostName, ∃ inHdr inbox buffer,
      network.inputs hostName = .create inHdr inbox buffer) ∧
    ∀ hostName, network.sockets hostName = []

def system (worker : Thread) (numBoxes : Word → Nat) :
    TransitionSystem (PostNetwork Thread) (Event Thread) where
  start := Starts
  step network event next :=
    network.Allows worker numBoxes event ∧
      network.perform worker numBoxes event = .ok next

end PostNetwork

end Nachos
