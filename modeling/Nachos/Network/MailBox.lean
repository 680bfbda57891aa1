import Nachos.Machine.Network
import Nachos.Threads.SynchListChannel

/-!
# Messages and mailboxes

`Mail` and `MailBox` of `network/post.cc`.  A mailbox is a synchronized list of
mails to which only the postal worker appends.
-/

namespace Nachos

open Foundation

abbrev MailHeader := Header

def maxMailSize : Nat := maxPacketSize - headerSize

/-- The arguments of `PostOfficeOutput::Send`, and what
`PostOfficeInput::Receive` hands out. -/
structure Message where
  pktHdr : PacketHeader
  mailHdr : MailHeader
  data : List Byte
  deriving DecidableEq

namespace Message

def payload (message : Message) : List Byte :=
  message.mailHdr.bytes ++ message.data

def read? (pktHdr : PacketHeader) (buffer : List Byte) : Option Message := do
  let mailHdr ← (Header.ofBytes buffer).toOption
  let data ← (bytesAt buffer headerSize mailHdr.length.toNat).toOption
  return ⟨pktHdr, mailHdr, data⟩

def ofPacket? (packet : List Byte) : Option Message := do
  read? (← (Header.ofBytes packet).toOption) (packet.drop headerSize)

def isFrom (hostName : Word) (message : Message) : Bool :=
  message.pktHdr.fromAddress = hostName

def isTo (hostName : Word) (message : Message) : Bool :=
  message.pktHdr.toAddress = hostName

def isFor (box : Nat) (message : Message) : Bool :=
  message.mailHdr.toAddress.toNat = box

structure Legal (numBoxes : Nat) (message : Message) : Prop where
  dataLength : message.data.length = message.mailHdr.length.toNat
  small : message.data.length ≤ maxMailSize
  pktLength :
    message.pktHdr.length.toNat = headerSize + message.data.length
  boxLower : 0 ≤ message.mailHdr.toAddress.toInt
  boxUpper : message.mailHdr.toAddress.toInt < numBoxes

@[simp]
theorem length_payload (message : Message) :
    message.payload.length = headerSize + message.data.length := by
  simp [payload]

theorem payload_ne_nil (message : Message) : message.payload ≠ [] := by
  intro empty
  have length := message.length_payload
  rw [empty, List.length_nil, headerSize] at length
  omega

theorem Legal.carries
    {numBoxes : Nat} {message : Message} (legal : message.Legal numBoxes) :
    message.pktHdr.Carries message.payload where
  length := by rw [length_payload, legal.pktLength]
  small := by
    have small := legal.small
    simp only [length_payload, maxMailSize, maxPacketSize, maxWireSize,
      headerSize] at small ⊢
    omega

theorem read?_eq
    {numBoxes : Nat} {message : Message} {buffer : List Byte}
    (legal : message.Legal numBoxes) (starts : message.payload <+: buffer) :
    read? message.pktHdr buffer = some message := by
  have fits : headerSize + message.mailHdr.length.toNat ≤ buffer.length := by
    have shorter := starts.length_le
    rwa [length_payload, legal.dataLength] at shorter
  have isData :
      slice buffer headerSize message.mailHdr.length.toNat = message.data := by
    have sliced := slice_of_starts starts
    rwa [Header.length_bytes, legal.dataLength] at sliced
  unfold read?
  rw [Header.ofBytes_eq starts, show Except.toOption (.ok message.mailHdr) =
    some message.mailHdr from rfl, Option.bind_eq_bind, Option.bind_some,
    bytesAt_natCast fits, isData]
  rfl

theorem ofPacket?_eq
    {numBoxes : Nat} {message : Message} {packet : List Byte}
    (legal : message.Legal numBoxes)
    (onWire : OnWire packet message.pktHdr message.payload) :
    ofPacket? packet = some message := by
  obtain ⟨others, isPacket⟩ := onWire.starts
  have behind : message.payload <+: packet.drop headerSize := by
    refine ⟨others, ?_⟩
    rw [← isPacket, List.append_assoc, ← message.pktHdr.length_bytes,
      List.drop_left]
  unfold ofPacket?
  rw [Header.ofBytes_eq onWire.starts, show Except.toOption
    (.ok message.pktHdr) = some message.pktHdr from rfl]
  exact read?_eq legal behind

end Message

/-- `Mail`; `serial` tells the allocated mails apart. -/
structure Mail where
  serial : Nat
  pktHdr : PacketHeader
  mailHdr : MailHeader
  data : List Byte
  deriving DecidableEq

namespace Mail

def create (serial : Nat) (junk : Junk) (pktH : PacketHeader)
    (mailH : MailHeader) (msgData : List Byte) : Except Fault Mail := do
  assertThat (mailH.length.toNat ≤ maxMailSize) .mailLength
  let data ← newChars junk maxMailSize
  let data ← bcopy msgData 0 data 0 mailH.length.toNat
  return ⟨serial, pktH, mailH, data⟩

def receive (mail : Mail) : Except Fault Message := do
  let data ← bytesAt mail.data 0 mail.mailHdr.length.toNat
  assertThat (mail.mailHdr.length.toNat ≤ maxMailSize) .mailLength
  return ⟨mail.pktHdr, mail.mailHdr, data⟩

def message (mail : Mail) : Message :=
  ⟨mail.pktHdr, mail.mailHdr, mail.data.take mail.mailHdr.length.toNat⟩

structure Sound (mail : Mail) : Prop where
  length : mail.data.length = maxMailSize
  small : mail.mailHdr.length.toNat ≤ maxMailSize

theorem Sound.receive_eq {mail : Mail} (sound : mail.Sound) :
    mail.receive = .ok mail.message := by
  have fits : 0 + mail.mailHdr.length.toNat ≤ mail.data.length := by
    rw [sound.length]
    simpa using sound.small
  have read : bytesAt mail.data 0 mail.mailHdr.length.toNat =
      .ok (mail.data.take mail.mailHdr.length.toNat) := bytesAt_natCast fits
  unfold receive
  rw [read, decide_eq_true sound.small]
  rfl

theorem create_of_fits
    {mailH : MailHeader} {msgData : List Byte}
    (small : mailH.length.toNat ≤ maxMailSize)
    (enough : mailH.length.toNat ≤ msgData.length)
    (serial : Nat) (junk : Junk) (pktH : PacketHeader) :
    ∃ mail, create serial junk pktH mailH msgData = .ok mail ∧
      mail.serial = serial ∧
      mail.message = ⟨pktH, mailH, msgData.take mailH.length.toNat⟩ ∧
      mail.Sound := by
  obtain ⟨empty, isEmpty⟩ :
      ∃ empty, empty = (List.range maxMailSize).map junk := ⟨_, rfl⟩
  have emptyLength : empty.length = maxMailSize := by simp [isEmpty]
  have allocated : newChars junk maxMailSize = .ok empty := by
    rw [isEmpty]
    rfl
  have targetFits : 0 + mailH.length.toNat ≤ empty.length := by omega
  have copied :=
    @bcopy_natCast msgData empty 0 0 mailH.length.toNat (by omega) targetFits
  have isData :
      slice msgData 0 mailH.length.toNat = msgData.take mailH.length.toNat := by
    simp [slice]
  have dataLength :
      (msgData.take mailH.length.toNat).length = mailH.length.toNat :=
    List.length_take_of_le enough
  rw [isData] at copied
  have front := starts_overlay empty (msgData.take mailH.length.toNat)
  rw [List.prefix_iff_eq_take, dataLength] at front
  refine ⟨⟨serial, pktH, mailH,
    overlay empty (msgData.take mailH.length.toNat) 0⟩, ?_, rfl, ?_, ?_, small⟩
  · unfold create
    rw [decide_eq_true small, assertThat_true, ok_bind, allocated, ok_bind]
    exact congrArg (· >>= _) copied
  · unfold Mail.message
    rw [← front]
  · exact (length_overlay (by omega)).trans emptyLength

theorem create_eq
    {numBoxes : Nat} {message : Message} {buffer : List Byte}
    (legal : message.Legal numBoxes) (starts : message.payload <+: buffer)
    (serial : Nat) (junk : Junk) :
    ∃ mail, create serial junk message.pktHdr message.mailHdr
        (buffer.drop headerSize) = .ok mail ∧
      mail.serial = serial ∧ mail.message = message ∧ mail.Sound := by
  obtain ⟨others, isBuffer⟩ := starts
  have behind : buffer.drop headerSize = message.data ++ others := by
    rw [← isBuffer, Message.payload, List.append_assoc,
      ← message.mailHdr.length_bytes, List.drop_left]
  have small : message.mailHdr.length.toNat ≤ maxMailSize :=
    legal.dataLength ▸ legal.small
  have enough :
      message.mailHdr.length.toNat ≤ (buffer.drop headerSize).length := by
    rw [behind, List.length_append, legal.dataLength]
    omega
  have isData :
      (buffer.drop headerSize).take message.mailHdr.length.toNat =
        message.data := by
    rw [behind, ← legal.dataLength, List.take_left]
  have made := create_of_fits small enough serial junk message.pktHdr
  rw [isData] at made
  exact made

end Mail

/-! ## Lists with one producer -/

namespace SynchListUse

variable {Thread Item : Type}

/-- Only one thread passes items to `Append`, so they come into the list in the
order in which they are passed. -/
structure SoleProducer (producer : Thread) (use : SynchListUse Thread Item) :
    Prop where
  others : ∀ thread, thread ≠ producer → (use.task thread).pending? = none
  passed : use.passed =
    use.appended ++ (use.task producer).pending?.toList

theorem soleProducer_create (producer : Thread) :
    (create : SynchListUse Thread Item).SoleProducer producer :=
  ⟨fun _ _ => rfl, rfl⟩

def Event.isInner : Event Thread Item → Bool
  | .call _ _ => false
  | .condition _ | .acquired _ _ | .append _ _ | .signal _ | .signalled _
  | .test _ _ | .wait _ | .waited _ | .take _ | .release _ _
  | .released _ _ => true

/-- What a step inside `Append` or `RemoveFront` does to the items on their way
into the list: nothing, or one of them comes into it. -/
structure InnerStep [DecidableEq Thread] (use next : SynchListUse Thread Item)
    (thread : Thread) (task : SynchListTask Item) : Prop where
  busy : use.task thread ≠ .idle
  passed : next.passed = use.passed
  tasks : next.task = Function.update use.task thread task
  appended :
    next.appended = use.appended ∧
        task.pending? = (use.task thread).pending? ∨
      ∃ item, (use.task thread).pending? = some item ∧
        task.pending? = none ∧ next.appended = use.appended ++ [item]

section

variable [DecidableEq Thread] {use next : SynchListUse Thread Item}

theorem InnerStep.moves
    {thread : Thread} {current task : SynchListTask Item}
    (located : use.task thread = current) (busy : current ≠ .idle)
    (pending : task.pending? = current.pending?)
    (samePassed : next.passed = use.passed)
    (sameAppended : next.appended = use.appended)
    (sameTask : next.task = use.task) :
    InnerStep use (next.moveTo thread task) thread task := by
  refine ⟨located ▸ busy, samePassed, ?_, Or.inl ⟨sameAppended, ?_⟩⟩
  · rw [← sameTask]
    rfl
  · rw [located, pending]

variable [DecidableEq Item]

theorem innerStep
    {event : Event Thread Item} (allowed : use.Allows event)
    (inner : event.isInner = true) (performed : use.perform event = .ok next) :
    ∃ thread task, InnerStep use next thread task := by
  cases event with
  | call => cases inner
  | condition event =>
    obtain ⟨condition, _, isNext⟩ := exists_of_bind_eq_ok performed
    cases isNext
    refine ⟨event.thread, use.task event.thread, ?_, rfl,
      (Function.update_eq_self event.thread use.task).symm,
      Or.inl ⟨rfl, rfl⟩⟩
    intro idle
    have permitted := allowed.1
    unfold Permits at permitted
    rw [idle] at permitted
    exact permitted
  | acquired thread call =>
    cases performed
    refine ⟨thread, call.entered, .moves allowed.1 (by simp) ?_ rfl rfl rfl⟩
    cases call <;> rfl
  | append thread item =>
    have located : use.task thread = .appending item := allowed
    obtain ⟨list, _, isNext⟩ := exists_of_bind_eq_ok performed
    cases isNext
    refine ⟨thread, .signalCall, ?_, rfl, rfl, Or.inr ⟨item, ?_, rfl, rfl⟩⟩
    · rw [located]
      simp
    · rw [located]
      rfl
  | signal thread =>
    obtain ⟨condition, _, isNext⟩ := exists_of_bind_eq_ok performed
    cases isNext
    exact ⟨thread, _, .moves allowed (by simp) rfl rfl rfl rfl⟩
  | signalled thread =>
    cases performed
    exact ⟨thread, _, .moves allowed.1 (by simp) rfl rfl rfl rfl⟩
  | test thread again =>
    simp only [perform] at performed
    split at performed
    · cases performed
      exact ⟨thread, _, .moves allowed (by simp) rfl rfl rfl rfl⟩
    · cases performed
      exact ⟨thread, _, .moves allowed (by simp) rfl rfl rfl rfl⟩
  | wait thread =>
    obtain ⟨condition, _, isNext⟩ := exists_of_bind_eq_ok performed
    cases isNext
    exact ⟨thread, _, .moves allowed (by simp) rfl rfl rfl rfl⟩
  | waited thread =>
    cases performed
    exact ⟨thread, _, .moves allowed.1 (by simp) rfl rfl rfl rfl⟩
  | take thread =>
    obtain ⟨front, _, isNext⟩ := exists_of_bind_eq_ok performed
    cases isNext
    exact ⟨thread, _, .moves allowed (by simp) rfl rfl rfl rfl⟩
  | release thread result =>
    obtain ⟨condition, _, isNext⟩ := exists_of_bind_eq_ok performed
    cases isNext
    exact ⟨thread, _, .moves allowed (by simp) rfl rfl rfl rfl⟩
  | released thread result =>
    cases performed
    exact ⟨thread, _, .moves allowed.1 (by simp) rfl rfl rfl rfl⟩

end

namespace InnerStep

variable [DecidableEq Thread] {use next : SynchListUse Thread Item}
variable {thread : Thread} {task : SynchListTask Item}

theorem idle
    (step : InnerStep use next thread task) {other : Thread}
    (isIdle : use.task other = .idle) : next.task other = .idle := by
  have different : other ≠ thread := by
    rintro rfl
    exact step.busy isIdle
  rw [step.tasks, Function.update_of_ne different]
  exact isIdle

theorem soleProducer
    (step : InnerStep use next thread task) {producer : Thread}
    (sole : use.SoleProducer producer) : next.SoleProducer producer := by
  rcases step.appended with ⟨sameAppended, same⟩ |
    ⟨item, pending, none, appended⟩
  · have unchanged : ∀ other,
        (next.task other).pending? = (use.task other).pending? := by
      rw [step.tasks]
      exact read_update_eq SynchListTask.pending? same
    refine ⟨fun other different => ?_, ?_⟩
    · rw [unchanged]
      exact sole.others other different
    · rw [step.passed, sameAppended, unchanged]
      exact sole.passed
  · have isProducer : thread = producer := by
      by_contra different
      rw [sole.others thread different] at pending
      cases pending
    subst isProducer
    refine ⟨fun other different => ?_, ?_⟩
    · rw [step.tasks, Function.update_of_ne different]
      exact sole.others other different
    · rw [step.passed, step.tasks, Function.update_self, none, appended,
        sole.passed, pending]
      exact (List.append_nil _).symm

end InnerStep

namespace SoleProducer

variable [DecidableEq Thread] {producer : Thread}
variable {use : SynchListUse Thread Item}

theorem callAppend
    (sole : use.SoleProducer producer) (idle : use.task producer = .idle)
    (item : Item) :
    ({ use with passed := use.passed ++ [item] }.moveTo producer
      (.acquiring (.append item))).SoleProducer producer := by
  refine ⟨fun other different => ?_, ?_⟩
  · change (Function.update use.task producer _ other).pending? = none
    rw [Function.update_of_ne different]
    exact sole.others other different
  · change use.passed ++ [item] =
      use.appended ++ (Function.update use.task producer _
        producer).pending?.toList
    rw [sole.passed, idle, Function.update_self]
    exact congrArg (· ++ [item]) (List.append_nil use.appended)

theorem callRemoveFront
    (sole : use.SoleProducer producer) {thread : Thread}
    (idle : use.task thread = .idle) :
    ({ use with passed := use.passed ++ [] }.moveTo thread
      (.acquiring .removeFront)).SoleProducer producer := by
  have unchanged : ∀ other,
      (Function.update use.task thread (.acquiring .removeFront)
        other).pending? = (use.task other).pending? :=
    read_update_eq SynchListTask.pending? (by rw [idle]; rfl)
  refine ⟨fun other different => ?_, ?_⟩
  · exact (unchanged other).trans (sole.others other different)
  · change use.passed ++ [] = use.appended ++ _
    rw [List.append_nil, sole.passed]
    exact congrArg (use.appended ++ ·.toList) (unchanged producer).symm

end SoleProducer

end SynchListUse

end Nachos
