import Nachos.Network.Outgoing

/-!
# Packets that arrive

What one packet goes through at the receiver: `NetworkInput::CallBack`,
`NetworkInput::Receive`, the checks of `PostalDelivery` and `Mail::Mail`.  The
two buffers on the way are used again for every packet.  The packet may hold
anything.
-/

namespace Nachos

open Foundation

/-- The part of `PostOfficeInput` that a packet passes through: the network
device and the buffer of the postal worker. -/
structure Receiver where
  network : NetworkInput
  buffer : List Byte
  created : Nat

namespace Receiver

/-- The packet is read in and put in a mailbox before the next one comes. -/
def deliver (hostName : Word) (numBoxes : Nat) (junk : Junk)
    (receiver : Receiver) (packet : List Byte) :
    Except Fault (Mail × Receiver) := do
  let network ← receiver.network.readIn hostName packet
  let (pktHdr, buffer, network) ← network.receive receiver.buffer
  let mailHdr ← Header.ofBytes buffer
  assertThat (0 ≤ mailHdr.toAddress.toInt ∧
    mailHdr.toAddress.toInt < numBoxes) .mailBox
  assertThat (mailHdr.length.toNat ≤ maxMailSize) .mailLength
  let mail ← Mail.create receiver.created junk pktHdr mailHdr
    (buffer.drop headerSize)
  return (mail, ⟨network, buffer, receiver.created + 1⟩)

def deliverAll (hostName : Word) (numBoxes : Nat) (junk : Junk)
    (receiver : Receiver) : List (List Byte) → Except Fault Receiver
  | [] => .ok receiver
  | packet :: packets => do
    let (_, next) ← receiver.deliver hostName numBoxes junk packet
    next.deliverAll hostName numBoxes junk packets

/-- The mail can be what is made of the packet after some other packets. -/
def Delivers (hostName : Word) (numBoxes : Nat) (receiver : Receiver)
    (packet : List Byte) (mail : Mail) : Prop :=
  ∃ junk earlier middle next,
    (∀ wire ∈ earlier, wire.length = maxWireSize) ∧
      receiver.deliverAll hostName numBoxes junk earlier = .ok middle ∧
      middle.deliver hostName numBoxes junk packet = .ok (mail, next)

structure Sized (receiver : Receiver) : Prop where
  inbox : receiver.network.inbox.length = maxPacketSize
  buffer : receiver.buffer.length = maxPacketSize

end Receiver

def PostOfficeInputUse.receiver {Thread : Type}
    (use : PostOfficeInputUse Thread) : Receiver :=
  ⟨use.network, use.buffer, use.created⟩

/-- A `NetworkRecvInt` and the next turn of the postal worker deliver the
packet. -/
theorem PostOfficeInputUse.deliver_of_steps
    {Thread : Type} [DecidableEq Thread] {worker : Thread} {hostName : Word}
    {numBoxes : Nat} {junk : Junk} {pktHdr : PacketHeader} {packet : List Byte}
    {use arrived turned received put : PostOfficeInputUse Thread}
    (isRead : use.callBack hostName (some packet) = .ok (true, arrived))
    (sameNetwork : turned.receiver = arrived.receiver)
    (delivered : turned.delivered = arrived.delivered)
    (isReceived : turned.perform worker numBoxes .receive = .ok received)
    (phase : received.phase = .received pktHdr)
    (isPut : received.perform worker numBoxes (.put pktHdr junk) = .ok put) :
    ∃ mail, use.receiver.deliver hostName numBoxes junk packet =
        .ok (mail, put.receiver) ∧
      put.delivered = use.delivered ++ [mail.message] := by
  unfold callBack at isRead
  obtain ⟨polled, called, isRead⟩ := exists_of_bind_eq_ok isRead
  cases polled with
  | none => cases isRead
  | some network =>
    cases isRead
    unfold NetworkInput.callBack at called
    split_ifs at called
    · cases called
    · obtain ⟨_, readIn, called⟩ := exists_of_bind_eq_ok called
      cases called
      obtain ⟨⟨header, buffer, emptied⟩, taken, isReceived⟩ :=
        exists_of_bind_eq_ok isReceived
      cases isReceived
      cases phase
      obtain ⟨mailHdr, isHeader, isPut⟩ := exists_of_bind_eq_ok isPut
      obtain ⟨_, inRange, isPut⟩ := exists_of_bind_eq_ok isPut
      obtain ⟨_, short, isPut⟩ := exists_of_bind_eq_ok isPut
      obtain ⟨mail, made, isPut⟩ := exists_of_bind_eq_ok isPut
      obtain ⟨_, _, isPut⟩ := exists_of_bind_eq_ok isPut
      cases isPut
      obtain ⟨sameDevice, sameBuffer, sameCount⟩ := Receiver.mk.inj sameNetwork
      rw [sameDevice, sameBuffer] at taken
      rw [sameCount] at made
      refine ⟨mail, ?_, by rw [delivered]⟩
      unfold Receiver.deliver receiver
      simp only [readIn, ok_bind, taken, isHeader, inRange, short, made,
        sameCount]
      rfl

/-! ## Headers in a buffer -/

def headerOf (buffer : List Byte) : Header :=
  let word := fun start => bytesWord (buffer.getD start 0)
    (buffer.getD (start + 1) 0) (buffer.getD (start + 2) 0)
    (buffer.getD (start + 3) 0)
  ⟨word 0, word 4, word 8⟩

theorem ofBytes_headerOf
    {buffer : List Byte} (long : headerSize ≤ buffer.length) :
    Header.ofBytes buffer = .ok (headerOf buffer) := by
  match buffer, long with
  | b0 :: b1 :: b2 :: b3 :: b4 :: b5 :: b6 :: b7 :: b8 :: b9 :: b10 :: b11 ::
      rest, long =>
    unfold Header.ofBytes
    have read := @bytesAt_natCast (b0 :: b1 :: b2 :: b3 :: b4 :: b5 :: b6 ::
      b7 :: b8 :: b9 :: b10 :: b11 :: rest) 0 headerSize (by omega)
    rw [Int.natCast_zero] at read
    rw [read]
    rfl

theorem headerOf_congr
    {first second : List Byte}
    (same : ∀ index, index < headerSize →
      first.getD index 0 = second.getD index 0) :
    headerOf first = headerOf second := by
  unfold headerOf
  simp only [headerSize] at same
  simp only [same, Nat.reduceAdd, Nat.reduceLT]

theorem toNat_length (buffer : List Byte) :
    (headerOf buffer).length.toNat =
      (buffer.getD 8 0).toNat + 256 * (buffer.getD 9 0).toNat +
        65536 * (buffer.getD 10 0).toNat +
        16777216 * (buffer.getD 11 0).toNat :=
  toNat_bytesWord _ _ _ _

/-! ## One packet -/

/-- The checks of `PostalDelivery` and `Mail::Mail`. -/
structure Accepts (numBoxes : Nat) (mailHdr : MailHeader) : Prop where
  boxLower : 0 ≤ mailHdr.toAddress.toInt
  boxUpper : mailHdr.toAddress.toInt < numBoxes
  small : mailHdr.length.toNat ≤ maxMailSize

/-- The check of `NetworkInput::CallBack`. -/
structure Addressed (hostName : Word) (packet : List Byte) : Prop where
  here : (headerOf packet).toAddress = hostName
  small : (headerOf packet).length.toNat ≤ maxPacketSize

/-- A buffer after a packet was copied to it: as much as the header of the
packet says, and behind that what was there before. -/
def fill (packet buffer : List Byte) : List Byte :=
  overlay buffer (slice packet headerSize (headerOf packet).length.toNat) 0

def messageIn (pktHdr : PacketHeader) (buffer : List Byte) : Message :=
  ⟨pktHdr, headerOf buffer,
    slice buffer headerSize (headerOf buffer).length.toNat⟩

section Packet

variable {hostName : Word} {numBoxes : Nat} {receiver : Receiver}
variable {packet : List Byte}

theorem length_patch
    (whole : packet.length = maxWireSize) (addressed : Addressed hostName packet) :
    (slice packet headerSize (headerOf packet).length.toNat).length =
      (headerOf packet).length.toNat := by
  apply length_slice
  have small := addressed.small
  simp only [maxPacketSize] at small
  rw [whole]
  simp only [maxWireSize, headerSize] at small ⊢
  omega

theorem length_fill
    (whole : packet.length = maxWireSize) (addressed : Addressed hostName packet)
    {buffer : List Byte} (size : buffer.length = maxPacketSize) :
    (fill packet buffer).length = maxPacketSize := by
  have patch := length_patch whole addressed
  have small := addressed.small
  unfold fill
  rw [length_overlay (by omega), size]

theorem readIn_fill
    (whole : packet.length = maxWireSize) (addressed : Addressed hostName packet)
    {input : NetworkInput} (size : input.inbox.length = maxPacketSize) :
    input.readIn hostName packet =
      .ok ⟨headerOf packet, fill packet input.inbox⟩ := by
  have small := addressed.small
  have patch := length_patch whole addressed
  have fits : headerSize + (headerOf packet).length.toNat ≤ packet.length := by
    simp only [maxPacketSize, maxWireSize, headerSize] at small whole ⊢
    omega
  have copied :=
    @bcopy_natCast packet input.inbox headerSize 0
      (headerOf packet).length.toNat fits (by omega)
  unfold NetworkInput.readIn
  rw [ofBytes_headerOf (by rw [whole]; decide), ok_bind,
    decide_eq_true (And.intro addressed.here small), assertThat_true, ok_bind,
    show (0 : Int) = ((0 : Nat) : Int) from rfl, copied]
  rfl

/-- The worker gets the packet; a packet of length 0 leaves its buffer as it
is. -/
theorem receive_fill
    (whole : packet.length = maxWireSize) (addressed : Addressed hostName packet)
    {inbox buffer : List Byte} (inboxSize : inbox.length = maxPacketSize)
    (bufferSize : buffer.length = maxPacketSize) :
    NetworkInput.receive ⟨headerOf packet, fill packet inbox⟩ buffer =
      .ok (headerOf packet, fill packet buffer,
        ⟨{ headerOf packet with length := 0 }, fill packet inbox⟩) := by
  have small := addressed.small
  have patch := length_patch whole addressed
  have size := length_fill whole addressed inboxSize
  unfold NetworkInput.receive
  by_cases nothing : (headerOf packet).length = 0
  · have unchanged : fill packet buffer = buffer := by
      unfold fill
      rw [nothing]
      exact overlay_nil buffer 0
    rw [if_neg (not_not.mpr nothing), unchanged]
    rfl
  · have copied :=
      @bcopy_natCast (fill packet inbox) buffer 0 0
        (headerOf packet).length.toNat (by omega) (by omega)
    have front :
        slice (fill packet inbox) 0 (headerOf packet).length.toNat =
          slice packet headerSize (headerOf packet).length.toNat := by
      have same :=
        @slice_overlay_self _ inbox
          (slice packet headerSize (headerOf packet).length.toNat) 0 (by omega)
      rw [patch] at same
      exact same
    rw [front] at copied
    rw [if_pos nothing]
    exact congrArg (· >>= _) copied

theorem create_message
    {buffer : List Byte} (size : buffer.length = maxPacketSize)
    (small : (headerOf buffer).length.toNat ≤ maxMailSize) (serial : Nat)
    (junk : Junk) (pktHdr : PacketHeader) :
    ∃ mail,
      Mail.create serial junk pktHdr (headerOf buffer)
          (buffer.drop headerSize) = .ok mail ∧
        mail.message = messageIn pktHdr buffer ∧ mail.Sound := by
  have enough :
      (headerOf buffer).length.toNat ≤ (buffer.drop headerSize).length := by
    rw [List.length_drop, size]
    exact small
  obtain ⟨mail, made, _, isMessage, sound⟩ :=
    Mail.create_of_fits small enough serial junk pktHdr
  exact ⟨mail, made, isMessage, sound⟩

/-- A packet that passes the checks is put in a mailbox. -/
theorem deliver_of_accepts
    (sized : receiver.Sized) (whole : packet.length = maxWireSize)
    (addressed : Addressed hostName packet)
    (accepts : Accepts numBoxes (headerOf (fill packet receiver.buffer)))
    (junk : Junk) :
    ∃ mail next,
      receiver.deliver hostName numBoxes junk packet = .ok (mail, next) ∧
        next.Sized ∧ next.buffer = fill packet receiver.buffer ∧
        mail.message = messageIn (headerOf packet) next.buffer ∧ mail.Sound := by
  have size := length_fill whole addressed sized.buffer
  obtain ⟨mail, made, isMessage, sound⟩ :=
    create_message size accepts.small receiver.created junk (headerOf packet)
  refine ⟨mail, ⟨⟨{ headerOf packet with length := 0 },
    fill packet receiver.network.inbox⟩, fill packet receiver.buffer,
    receiver.created + 1⟩, ?_,
    ⟨length_fill whole addressed sized.inbox, size⟩, rfl, isMessage, sound⟩
  unfold Receiver.deliver
  rw [readIn_fill whole addressed sized.inbox, ok_bind,
    receive_fill whole addressed sized.inbox sized.buffer, ok_bind]
  dsimp only
  rw [ofBytes_headerOf (by rw [size]; decide), ok_bind,
    decide_eq_true (And.intro accepts.boxLower accepts.boxUpper),
    assertThat_true, ok_bind, decide_eq_true accepts.small, assertThat_true,
    ok_bind, made]
  rfl

theorem accepts_of_deliver
    (sized : receiver.Sized) (whole : packet.length = maxWireSize)
    {junk : Junk} {mail : Mail} {next : Receiver}
    (delivered :
      receiver.deliver hostName numBoxes junk packet = .ok (mail, next)) :
    Addressed hostName packet ∧
      Accepts numBoxes (headerOf (fill packet receiver.buffer)) := by
  unfold Receiver.deliver at delivered
  obtain ⟨network, isRead, delivered⟩ := exists_of_bind_eq_ok delivered
  have addressed : Addressed hostName packet := by
    unfold NetworkInput.readIn at isRead
    rw [ofBytes_headerOf (by rw [whole]; decide), ok_bind] at isRead
    obtain ⟨_, checked, _⟩ := exists_of_bind_eq_ok isRead
    obtain ⟨here, small⟩ := of_assertThat checked
    exact ⟨here, small⟩
  rw [readIn_fill whole addressed sized.inbox] at isRead
  cases isRead
  rw [receive_fill whole addressed sized.inbox sized.buffer, ok_bind]
    at delivered
  dsimp only at delivered
  rw [ofBytes_headerOf (by
    rw [length_fill whole addressed sized.buffer]
    decide), ok_bind] at delivered
  obtain ⟨_, inRange, delivered⟩ := exists_of_bind_eq_ok delivered
  obtain ⟨_, short, _⟩ := exists_of_bind_eq_ok delivered
  obtain ⟨lower, upper⟩ := of_assertThat inRange
  exact ⟨addressed, lower, upper, of_assertThat short⟩

theorem of_deliver
    (sized : receiver.Sized) (whole : packet.length = maxWireSize)
    {junk : Junk} {mail : Mail} {next : Receiver}
    (delivered :
      receiver.deliver hostName numBoxes junk packet = .ok (mail, next)) :
    next.Sized ∧
      mail.message =
        messageIn (headerOf packet) (fill packet receiver.buffer) := by
  obtain ⟨addressed, accepts⟩ := accepts_of_deliver sized whole delivered
  obtain ⟨_, _, delivered', nextSized, isBuffer, isMessage, _⟩ :=
    deliver_of_accepts sized whole addressed accepts junk
  cases delivered.symm.trans delivered'
  rw [isBuffer] at isMessage
  exact ⟨nextSized, isMessage⟩

theorem sized_of_deliverAll
    {junk : Junk} {earlier : List (List Byte)}
    (whole : ∀ wire ∈ earlier, wire.length = maxWireSize) :
    ∀ {receiver middle : Receiver}, receiver.Sized →
      receiver.deliverAll hostName numBoxes junk earlier = .ok middle →
      middle.Sized := by
  induction earlier with
  | nil =>
    intro receiver middle sized delivered
    cases delivered
    exact sized
  | cons wire earlier ih =>
    intro receiver middle sized delivered
    unfold Receiver.deliverAll at delivered
    obtain ⟨⟨mail, next⟩, one, delivered⟩ := exists_of_bind_eq_ok delivered
    have nextSized := (of_deliver sized (whole wire List.mem_cons_self) one).1
    exact ih (fun other member => whole other (List.mem_cons_of_mem _ member))
      nextSized delivered

end Packet

/-! ## Legal messages -/

def Mail.receiveFrom (numBoxes : Nat) (box : Int) (mail : Mail) :
    Except Fault Message := do
  assertThat (0 ≤ box ∧ box < numBoxes) .mailBox
  mail.receive

theorem permits_of_prepare
    {sender : Word} {message : Message} {junk : Junk} {call : SendCall}
    (prepared : SendCall.prepare sender message junk = .ok call)
    {numBoxes : Word → Nat}
    (boxUpper :
      message.mailHdr.toAddress.toInt < numBoxes message.pktHdr.toAddress) :
    PostOfficeOutputUse.Permits numBoxes message := by
  unfold SendCall.prepare at prepared
  obtain ⟨_, small, prepared⟩ := exists_of_bind_eq_ok prepared
  obtain ⟨_, boxLower, prepared⟩ := exists_of_bind_eq_ok prepared
  obtain ⟨_, joined, _⟩ := exists_of_bind_eq_ok prepared
  unfold Header.concatenate at joined
  obtain ⟨_, _, joined⟩ := exists_of_bind_eq_ok joined
  obtain ⟨_, _, joined⟩ := exists_of_bind_eq_ok joined
  have enough := (bounds_of_bcopy joined).1
  exact ⟨of_assertThat small, by omega, of_assertThat boxLower, boxUpper⟩

theorem message_of_prepare
    {sender : Word} {message : Message} {junk : Junk} {call : SendCall}
    (prepared : SendCall.prepare sender message junk = .ok call) :
    call.message = message := by
  unfold SendCall.prepare at prepared
  obtain ⟨_, _, prepared⟩ := exists_of_bind_eq_ok prepared
  obtain ⟨_, _, prepared⟩ := exists_of_bind_eq_ok prepared
  obtain ⟨_, _, prepared⟩ := exists_of_bind_eq_ok prepared
  cases prepared
  rfl

theorem headers_of_onWire
    {numBoxes : Nat} {message : Message} {packet : List Byte}
    (legal : message.Legal numBoxes)
    (onWire : OnWire packet message.pktHdr message.payload)
    (buffer : List Byte) :
    headerOf packet = message.pktHdr ∧
      headerOf (fill packet buffer) = message.mailHdr := by
  have outer : headerOf packet = message.pktHdr := by
    have read := Header.ofBytes_eq onWire.starts
    rw [ofBytes_headerOf (by rw [onWire.length]; decide)] at read
    exact Except.ok.inj read
  have patch :
      slice packet headerSize (headerOf packet).length.toNat =
        message.payload := by
    have sliced := slice_of_starts onWire.starts
    rw [Header.length_bytes, legal.carries.length] at sliced
    rw [outer]
    exact sliced
  have starts : message.payload <+: fill packet buffer := by
    unfold fill
    rw [patch]
    exact starts_overlay buffer message.payload
  have inner := Header.ofBytes_eq starts
  rw [ofBytes_headerOf (by
    have shorter := starts.length_le
    rw [Message.length_payload] at shorter
    omega)] at inner
  exact ⟨outer, Except.ok.inj inner⟩

/-- A message that one machine may send passes all checks at its destination,
exactly if the destination has the mailbox. -/
theorem legal_message_accepted_iff
    {sender : Word} {message : Message} {sendBusy : Bool}
    {bufferJunk wireJunk : Junk} {call : SendCall} {packet : List Byte}
    (prepared : SendCall.prepare sender message bufferJunk = .ok call)
    (sent : NetworkOutput.send sender sendBusy call.pktHdr call.buffer false
      wireJunk = .ok (some packet))
    {receiver : Receiver} (sized : receiver.Sized) (numBoxes : Nat)
    (junk : Junk) :
    (∃ mail next received,
      receiver.deliver message.pktHdr.toAddress numBoxes junk packet =
          .ok (mail, next) ∧
        mail.receiveFrom numBoxes message.mailHdr.toAddress.toInt =
          .ok received) ↔
      message.mailHdr.toAddress.toInt < numBoxes := by
  have permitted :=
    @permits_of_prepare _ _ _ _ prepared
      (fun _ => message.mailHdr.toAddress.toInt.toNat + 1) (by omega)
  obtain ⟨call', prepared', sound⟩ :=
    SendCall.prepare_eq permitted sender bufferJunk
  cases prepared.symm.trans prepared'
  obtain ⟨pktHdr, inBuffer, legal⟩ := sound
  rw [message_of_prepare prepared] at pktHdr inBuffer legal
  have sentParts := sent
  unfold NetworkOutput.send at sentParts
  obtain ⟨_, checked, _⟩ := exists_of_bind_eq_ok sentParts
  have idle : sendBusy = false := (of_assertThat checked).1
  rw [idle, pktHdr] at sent
  obtain ⟨maybeSent, isSent, onWires⟩ :=
    NetworkOutput.send_eq legal.carries inBuffer.starts
      (message.stamped sender).payload_ne_nil rfl false wireJunk
  cases sent.symm.trans isSent
  have onWire := onWires packet rfl
  obtain ⟨outer, inner⟩ := headers_of_onWire legal onWire receiver.buffer
  have addressed : Addressed message.pktHdr.toAddress packet := by
    refine ⟨by rw [outer]; rfl, ?_⟩
    rw [outer, ← legal.carries.length]
    exact legal.carries.small
  constructor
  · rintro ⟨mail, next, received, delivered, _⟩
    have upper := (accepts_of_deliver sized onWire.length delivered).2.boxUpper
    rw [inner] at upper
    exact upper
  · intro upper
    have accepts :
        Accepts numBoxes (headerOf (fill packet receiver.buffer)) := by
      rw [inner]
      exact ⟨permitted.boxLower, upper, permitted.small⟩
    obtain ⟨mail, next, delivered, _, _, _, mailSound⟩ :=
      deliver_of_accepts sized onWire.length addressed accepts junk
    refine ⟨mail, next, mail.message, delivered, ?_⟩
    unfold Mail.receiveFrom
    rw [decide_eq_true (And.intro permitted.boxLower upper), assertThat_true,
      ok_bind, mailSound.receive_eq]

def newReceiver : Receiver where
  network := ⟨⟨0, 0, 0⟩, List.replicate maxPacketSize 0⟩
  buffer := List.replicate maxPacketSize 0
  created := 0

theorem sized_newReceiver : newReceiver.Sized :=
  ⟨List.length_replicate, List.length_replicate⟩

def oneByte (box : Word) : Message :=
  ⟨⟨2, 0, 0⟩, ⟨box, 0, 1⟩, [7]⟩

theorem legal_message_accepted :
    ∃ call packet mail next received,
      SendCall.prepare 1 (oneByte 0) (fun _ => 0) = .ok call ∧
        NetworkOutput.send 1 false call.pktHdr call.buffer false (fun _ => 0) =
          .ok (some packet) ∧
        newReceiver.deliver 2 1 (fun _ => 0) packet = .ok (mail, next) ∧
        mail.receiveFrom 1 0 = .ok received := by
  obtain ⟨mail, next, received, delivered, handed⟩ :=
    (@legal_message_accepted_iff 1 (oneByte 0) false (fun _ => 0) (fun _ => 0)
      _ _ rfl rfl newReceiver sized_newReceiver 1 (fun _ => 0)).mpr (by decide)
  exact ⟨_, _, mail, next, received, rfl, rfl, delivered, handed⟩

/-- The mailbox number is not negative, so machine 1 sends the message.  Machine
2 has one mailbox, and the check in `PostalDelivery` aborts it. -/
theorem legal_message_aborts :
    ∃ call packet,
      SendCall.prepare 1 (oneByte 5) (fun _ => 0) = .ok call ∧
        NetworkOutput.send 1 false call.pktHdr call.buffer false (fun _ => 0) =
          .ok (some packet) ∧
        newReceiver.deliver 2 1 (fun _ => 0) packet =
          .error (.assertion .mailBox) :=
  ⟨_, _, rfl, rfl, rfl⟩

/-! ## Bytes of earlier packets -/

section Stale

variable {hostName : Word} {numBoxes : Nat} {packet : List Byte}

/-- The mail header as far as the packet reaches, with zeros behind it. -/
def mailHdrIn (packet : List Byte) : MailHeader :=
  headerOf (slice packet headerSize (headerOf packet).length.toNat)

/-- The packet is for another machine or too long, or the bytes it has of its
mail header are already a wrong mailbox or a wrong length. -/
def Refused (hostName : Word) (numBoxes : Nat) (packet : List Byte) : Prop :=
  ¬ (Addressed hostName packet ∧ Accepts numBoxes (mailHdrIn packet))

/-- The packet reaches the last byte of its message.  The low byte of
`mailHdr.length` is all of it in a message that passes the checks. -/
def Covered (packet : List Byte) : Prop :=
  9 ≤ (headerOf packet).length.toNat ∧
    ((packet.getD 20 0).toNat = 0 ∨
      headerSize + (packet.getD 20 0).toNat ≤ (headerOf packet).length.toNat)

theorem getElem?_fill
    (whole : packet.length = maxWireSize) (addressed : Addressed hostName packet)
    {buffer : List Byte} (size : buffer.length = maxPacketSize) (index : Nat) :
    (fill packet buffer)[index]? =
      if index < (headerOf packet).length.toNat then
        packet[headerSize + index]?
      else
        buffer[index]? := by
  have patch := length_patch whole addressed
  have small := addressed.small
  unfold fill
  rw [getElem?_overlay (by omega), patch]
  by_cases inside : index < (headerOf packet).length.toNat
  · rw [if_pos (by omega), if_pos inside, Nat.sub_zero, getElem?_slice,
      if_pos inside]
  · rw [if_neg (by omega), if_neg inside]

theorem getD_fill
    (whole : packet.length = maxWireSize) (addressed : Addressed hostName packet)
    {buffer : List Byte} (size : buffer.length = maxPacketSize) (index : Nat) :
    (fill packet buffer).getD index 0 =
      if index < (headerOf packet).length.toNat then
        (slice packet headerSize (headerOf packet).length.toNat).getD index 0
      else
        buffer.getD index 0 := by
  simp only [List.getD_eq_getElem?_getD, getElem?_fill whole addressed size,
    getElem?_slice]
  split_ifs <;> rfl

theorem headerOf_fill_zeros
    (whole : packet.length = maxWireSize)
    (addressed : Addressed hostName packet) :
    headerOf (fill packet newReceiver.buffer) = mailHdrIn packet := by
  apply headerOf_congr
  intro index _
  rw [getD_fill whole addressed sized_newReceiver.buffer]
  by_cases inside : index < (headerOf packet).length.toNat
  · rw [if_pos inside]
  · rw [if_neg inside, List.getD_eq_getElem?_getD, List.getD_eq_getElem?_getD,
      getElem?_slice, if_neg inside]
    change (List.replicate maxPacketSize (0 : Byte))[index]?.getD 0 = 0
    rw [List.getElem?_replicate]
    split_ifs <;> rfl

theorem headerOf_le
    {short long : List Byte}
    (below : ∀ index,
      (short.getD index 0).toNat ≤ (long.getD index 0).toNat) :
    (headerOf short).toAddress.toNat ≤ (headerOf long).toAddress.toNat ∧
      (headerOf short).length.toNat ≤ (headerOf long).length.toNat := by
  unfold headerOf
  simp only [toNat_bytesWord]
  have first := below 0
  have second := below (0 + 1)
  have third := below (0 + 2)
  have fourth := below (0 + 3)
  have ninth := below 8
  have tenth := below (8 + 1)
  have eleventh := below (8 + 2)
  have twelfth := below (8 + 3)
  omega

/-- The bytes behind the packet can only make the mailbox number and the length
greater. -/
theorem Accepts.of_fill
    (whole : packet.length = maxWireSize) (addressed : Addressed hostName packet)
    {buffer : List Byte} (size : buffer.length = maxPacketSize)
    (accepts : Accepts numBoxes (headerOf (fill packet buffer))) :
    Accepts numBoxes (mailHdrIn packet) := by
  obtain ⟨boxLower, boxUpper, small⟩ := accepts
  obtain ⟨box, length⟩ : (mailHdrIn packet).toAddress.toNat ≤
        (headerOf (fill packet buffer)).toAddress.toNat ∧
      (mailHdrIn packet).length.toNat ≤
        (headerOf (fill packet buffer)).length.toNat := by
    apply headerOf_le
    intro index
    rw [getD_fill whole addressed size]
    split_ifs with inside
    · exact Nat.le_refl _
    · rw [List.getD_eq_getElem?_getD, getElem?_slice, if_neg inside]
      exact Nat.zero_le _
  rw [BitVec.toInt_eq_toNat_cond] at boxLower boxUpper
  have shorter : (mailHdrIn packet).toAddress.toInt =
      (mailHdrIn packet).toAddress.toNat := by
    rw [BitVec.toInt_eq_toNat_cond]
    split_ifs at boxLower boxUpper ⊢
    all_goals omega
  split_ifs at boxLower boxUpper
  all_goals exact ⟨by omega, by omega, by omega⟩

theorem fill_fill
    (whole : packet.length = maxWireSize) (addressed : Addressed hostName packet)
    {buffer : List Byte} (size : buffer.length = maxPacketSize) :
    fill packet (fill packet buffer) = fill packet buffer := by
  apply List.ext_getElem?
  intro index
  rw [getElem?_fill whole addressed (length_fill whole addressed size),
    getElem?_fill whole addressed size]
  split_ifs <;> rfl

theorem length_of_small
    {buffer : List Byte}
    (small : (headerOf buffer).length.toNat ≤ maxMailSize) :
    (headerOf buffer).length.toNat = (buffer.getD 8 0).toNat ∧
      (buffer.getD 9 0).toNat = 0 ∧ (buffer.getD 10 0).toNat = 0 ∧
      (buffer.getD 11 0).toNat = 0 := by
  have isLength := toNat_length buffer
  simp only [maxMailSize, maxPacketSize, maxWireSize, headerSize] at small
  omega

/-- What was in the buffer before has no part in a message that is covered. -/
theorem messageIn_of_covered
    (whole : packet.length = maxWireSize) (addressed : Addressed hostName packet)
    (covered : Covered packet) {first second : List Byte}
    (firstSize : first.length = maxPacketSize)
    (secondSize : second.length = maxPacketSize)
    (firstSmall : (headerOf (fill packet first)).length.toNat ≤ maxMailSize)
    (secondSmall : (headerOf (fill packet second)).length.toNat ≤ maxMailSize) :
    messageIn (headerOf packet) (fill packet first) =
      messageIn (headerOf packet) (fill packet second) := by
  obtain ⟨reaches, covers⟩ := covered
  have agree : ∀ index, index < (headerOf packet).length.toNat →
      (fill packet first)[index]? = (fill packet second)[index]? := by
    intro index inside
    rw [getElem?_fill whole addressed firstSize,
      getElem?_fill whole addressed secondSize, if_pos inside, if_pos inside]
  have agreeD : ∀ index, index < (headerOf packet).length.toNat →
      (fill packet first).getD index 0 = (fill packet second).getD index 0 := by
    intro index inside
    rw [List.getD_eq_getElem?_getD, agree index inside,
      List.getD_eq_getElem?_getD]
  have firstLength := (length_of_small firstSmall).1
  have secondLength := (length_of_small secondSmall).1
  have isByte : (fill packet first).getD 8 0 = packet.getD 20 0 := by
    rw [List.getD_eq_getElem?_getD, getElem?_fill whole addressed firstSize,
      if_pos (by omega), List.getD_eq_getElem?_getD]
    rfl
  have sameHeader :
      headerOf (fill packet first) = headerOf (fill packet second) := by
    apply Header.ext
    · unfold headerOf
      dsimp only
      rw [agreeD 0 (by omega), agreeD (0 + 1) (by omega),
        agreeD (0 + 2) (by omega), agreeD (0 + 3) (by omega)]
    · unfold headerOf
      dsimp only
      rw [agreeD 4 (by omega), agreeD (4 + 1) (by omega),
        agreeD (4 + 2) (by omega), agreeD (4 + 3) (by omega)]
    · apply BitVec.eq_of_toNat_eq
      rw [firstLength, secondLength, agreeD 8 (by omega)]
  have sameData :
      slice (fill packet first) headerSize (packet.getD 20 0).toNat =
        slice (fill packet second) headerSize (packet.getD 20 0).toNat := by
    apply List.ext_getElem?
    intro index
    rw [getElem?_slice, getElem?_slice]
    by_cases inside : index < (packet.getD 20 0).toNat
    · rw [if_pos inside, if_pos inside, agree _ (by omega)]
    · rw [if_neg inside, if_neg inside]
  unfold messageIn
  rw [← sameHeader, firstLength, isByte, sameData]

def fullPacket (hostName : Word) (buffer : List Byte) : List Byte :=
  Header.bytes ⟨hostName, 0, BitVec.ofNat 32 maxPacketSize⟩ ++ buffer

theorem fill_fullPacket
    (hostName : Word) {buffer stale : List Byte}
    (size : buffer.length = maxPacketSize)
    (staleSize : stale.length = maxPacketSize) :
    (fullPacket hostName buffer).length = maxWireSize ∧
      Addressed hostName (fullPacket hostName buffer) ∧
      fill (fullPacket hostName buffer) stale = buffer := by
  have length : (fullPacket hostName buffer).length = maxWireSize := by
    unfold fullPacket
    rw [List.length_append, Header.length_bytes, size]
    rfl
  have outer :
      headerOf (fullPacket hostName buffer) =
        ⟨hostName, 0, BitVec.ofNat 32 maxPacketSize⟩ := by
    have read := Header.ofBytes_eq
      (List.prefix_refl (fullPacket hostName buffer))
    rw [ofBytes_headerOf (by rw [length]; decide)] at read
    exact Except.ok.inj read
  have count : (BitVec.ofNat 32 maxPacketSize).toNat = maxPacketSize := rfl
  refine ⟨length, ⟨by rw [outer], by rw [outer, count]⟩, ?_⟩
  have patch :
      slice (fullPacket hostName buffer) headerSize maxPacketSize = buffer := by
    have sliced := slice_of_starts
      (List.prefix_refl (fullPacket hostName buffer))
    rw [Header.length_bytes, size] at sliced
    exact sliced
  unfold fill
  rw [outer, count, patch, overlay_full (by omega)]

structure Ready (numBoxes : Nat) (packet buffer : List Byte) : Prop where
  size : buffer.length = maxPacketSize
  accepts : Accepts numBoxes (headerOf buffer)
  kept : fill packet buffer = buffer

theorem Ready.delivers
    {receiver : Receiver} (sized : receiver.Sized)
    (whole : packet.length = maxWireSize) (addressed : Addressed hostName packet)
    {buffer : List Byte} (ready : Ready numBoxes packet buffer) :
    ∃ mail, receiver.Delivers hostName numBoxes packet mail ∧
      mail.message = messageIn (headerOf packet) buffer := by
  obtain ⟨fullWhole, fullAddressed, loads⟩ :=
    fill_fullPacket hostName ready.size sized.buffer
  obtain ⟨_, middle, loaded, middleSized, isBuffer, _, _⟩ :=
    deliver_of_accepts sized fullWhole fullAddressed
      (by rw [loads]; exact ready.accepts) (fun _ => 0)
  rw [loads] at isBuffer
  obtain ⟨mail, next, delivered, _, sameBuffer, isMessage, _⟩ :=
    deliver_of_accepts middleSized whole addressed
      (by rw [isBuffer, ready.kept]; exact ready.accepts) (fun _ => 0)
  rw [sameBuffer, isBuffer, ready.kept] at isMessage
  refine ⟨mail, ⟨fun _ => 0, [fullPacket hostName buffer], middle, next, ?_, ?_,
    delivered⟩, isMessage⟩
  · intro wire member
    rw [List.mem_singleton.mp member]
    exact fullWhole
  · unfold Receiver.deliverAll
    rw [loaded]
    rfl

theorem Ready.set
    (whole : packet.length = maxWireSize) (addressed : Addressed hostName packet)
    {buffer : List Byte} (ready : Ready numBoxes packet buffer) {index : Nat}
    (beyond : (headerOf packet).length.toNat ≤ index) {value : Byte}
    (accepts : Accepts numBoxes (headerOf (buffer.set index value))) :
    Ready numBoxes packet (buffer.set index value) := by
  have size : (buffer.set index value).length = maxPacketSize := by
    rw [List.length_set, ready.size]
  refine ⟨size, accepts, ?_⟩
  apply List.ext_getElem?
  intro position
  rw [getElem?_fill whole addressed size]
  by_cases inside : position < (headerOf packet).length.toNat
  · have same := getElem?_fill whole addressed ready.size position
    rw [ready.kept, if_pos inside] at same
    rw [if_pos inside, List.getElem?_set_ne (by omega), same]
  · rw [if_neg inside]

theorem headerOf_set
    {buffer : List Byte} {index : Nat} (isData : headerSize ≤ index)
    (value : Byte) :
    headerOf (buffer.set index value) = headerOf buffer := by
  apply headerOf_congr
  intro position before
  rw [List.getD_eq_getElem?_getD, List.getElem?_set_ne (by omega),
    List.getD_eq_getElem?_getD]

theorem toAddress_set_length (buffer : List Byte) (value : Byte) :
    (headerOf (buffer.set 8 value)).toAddress = (headerOf buffer).toAddress := by
  unfold headerOf
  simp only [List.getD_eq_getElem?_getD, List.getElem?_set, Nat.reduceAdd,
    Nat.reduceEqDiff, if_false]

theorem length_set_length
    {buffer : List Byte} (size : buffer.length = maxPacketSize)
    (small : (headerOf buffer).length.toNat ≤ maxMailSize) (value : Byte) :
    (headerOf (buffer.set 8 value)).length.toNat = value.toNat := by
  obtain ⟨_, second, third, fourth⟩ := length_of_small small
  have isLength := toNat_length (buffer.set 8 value)
  have inside : 8 < buffer.length := by
    rw [size]
    decide
  simp only [List.getD_eq_getElem?_getD, List.getElem?_set, Nat.reduceEqDiff,
    if_false, if_true, inside, Option.getD_some] at isLength second third fourth
  omega

/-- A packet without its mail header leaves the length of the message to the
packets before it. -/
theorem exists_other_length
    (whole : packet.length = maxWireSize) (addressed : Addressed hostName packet)
    {buffer : List Byte} (ready : Ready numBoxes packet buffer)
    (atMost : (headerOf packet).length.toNat ≤ 8) :
    ∃ other, Ready numBoxes packet other ∧
      messageIn (headerOf packet) other ≠ messageIn (headerOf packet) buffer := by
  obtain ⟨value, short, differs⟩ :
      ∃ value : Byte, value.toNat ≤ 1 ∧ value.toNat ≠ (buffer.getD 8 0).toNat := by
    by_cases nothing : (buffer.getD 8 0).toNat = 0
    · exact ⟨1, by decide, by rw [nothing]; decide⟩
    · exact ⟨0, by decide, fun same => nothing same.symm⟩
  have isLength := length_set_length ready.size ready.accepts.small value
  refine ⟨buffer.set 8 value, ready.set whole addressed atMost ⟨?_, ?_, ?_⟩, ?_⟩
  · rw [toAddress_set_length]
    exact ready.accepts.boxLower
  · rw [toAddress_set_length]
    exact ready.accepts.boxUpper
  · rw [isLength]
    exact short.trans (by decide)
  · intro same
    apply differs
    have sameHdr := congrArg (·.mailHdr.length.toNat) same
    change (headerOf (buffer.set 8 value)).length.toNat =
      (headerOf buffer).length.toNat at sameHdr
    rw [isLength, (length_of_small ready.accepts.small).1] at sameHdr
    exact sameHdr

/-- A packet without the last byte of its message leaves that byte to the
packets before it. -/
theorem exists_other_byte
    (whole : packet.length = maxWireSize) (addressed : Addressed hostName packet)
    {buffer : List Byte} (ready : Ready numBoxes packet buffer)
    (long : 0 < (headerOf buffer).length.toNat)
    (beyond : (headerOf packet).length.toNat <
      headerSize + (headerOf buffer).length.toNat) :
    ∃ other, Ready numBoxes packet other ∧
      messageIn (headerOf packet) other ≠ messageIn (headerOf packet) buffer := by
  have size := ready.size
  have small := ready.accepts.small
  generalize isLast :
    headerSize + (headerOf buffer).length.toNat - 1 = last at *
  have inside : last < buffer.length := by
    simp only [maxMailSize, maxPacketSize, maxWireSize, headerSize] at *
    omega
  have isData : headerSize ≤ last := by omega
  have sameHdr := @headerOf_set buffer last isData
  refine ⟨buffer.set last (buffer.getD last 0 + 1),
    ready.set whole addressed (by omega) ?_, ?_⟩
  · rw [sameHdr]
    exact ready.accepts
  · intro same
    have sameData := congrArg
      (fun message => message.data[(headerOf buffer).length.toNat - 1]?) same
    simp only [messageIn, sameHdr, getElem?_slice] at sameData
    rw [if_pos (by omega), if_pos (by omega),
      show headerSize + ((headerOf buffer).length.toNat - 1) = last by omega,
      List.getElem?_set_self inside, List.getD_eq_getElem?_getD,
      List.getElem?_eq_getElem inside] at sameData
    have grown := Option.some.inj sameData
    rw [Option.getD_some] at grown
    bv_omega

theorem Ready.exists_other
    (whole : packet.length = maxWireSize) (addressed : Addressed hostName packet)
    {buffer : List Byte} (ready : Ready numBoxes packet buffer)
    (uncovered : ¬ Covered packet) :
    ∃ other, Ready numBoxes packet other ∧
      messageIn (headerOf packet) other ≠ messageIn (headerOf packet) buffer := by
  by_cases atMost : (headerOf packet).length.toNat ≤ 8
  · exact exists_other_length whole addressed ready atMost
  · have isByte : buffer.getD 8 0 = packet.getD 20 0 := by
      have same := getElem?_fill whole addressed ready.size 8
      rw [ready.kept, if_pos (by omega)] at same
      rw [List.getD_eq_getElem?_getD, same, List.getD_eq_getElem?_getD]
      rfl
    have isLength := (length_of_small ready.accepts.small).1
    rw [isByte] at isLength
    unfold Covered at uncovered
    exact exists_other_byte whole addressed ready (by omega) (by omega)

/-- A mail depends on nothing but its packet, exactly if the packet is refused
or has all of its message. -/
theorem mail_determined_iff
    {first second : Receiver} (firstSized : first.Sized)
    (secondSized : second.Sized) (whole : packet.length = maxWireSize) :
    (∀ mail mail', first.Delivers hostName numBoxes packet mail →
      second.Delivers hostName numBoxes packet mail' →
      mail.message = mail'.message) ↔
      Refused hostName numBoxes packet ∨ Covered packet := by
  constructor
  · intro determined
    by_contra neither
    obtain ⟨passes, uncovered⟩ := not_or.mp neither
    obtain ⟨addressed, accepts⟩ := not_not.mp passes
    rw [← headerOf_fill_zeros whole addressed] at accepts
    have size := sized_newReceiver.buffer
    have ready : Ready numBoxes packet (fill packet newReceiver.buffer) :=
      ⟨length_fill whole addressed size, accepts,
        fill_fill whole addressed size⟩
    obtain ⟨other, otherReady, differs⟩ :=
      ready.exists_other whole addressed uncovered
    obtain ⟨mail, delivers, isMessage⟩ :=
      otherReady.delivers firstSized whole addressed
    obtain ⟨mail', delivers', isMessage'⟩ :=
      ready.delivers secondSized whole addressed
    rw [← isMessage, ← isMessage'] at differs
    exact differs (determined mail mail' delivers delivers')
  · rintro holds mail mail' ⟨junk, earlier, middle, next, wires, ran, delivered⟩
      ⟨junk', earlier', middle', next', wires', ran', delivered'⟩
    have sized := sized_of_deliverAll wires firstSized ran
    have sized' := sized_of_deliverAll wires' secondSized ran'
    obtain ⟨addressed, accepts⟩ := accepts_of_deliver sized whole delivered
    rcases holds with refused | covered
    · exact absurd
        ⟨addressed, accepts.of_fill whole addressed sized.buffer⟩ refused
    · have accepts' := (accepts_of_deliver sized' whole delivered').2
      rw [(of_deliver sized whole delivered).2,
        (of_deliver sized' whole delivered').2]
      exact messageIn_of_covered whole addressed covered sized.buffer
        sized'.buffer accepts.small accepts'.small

def wirePacket (packetLength mailLength : Word) (data : List Byte) : List Byte :=
  Header.bytes ⟨2, 1, packetLength⟩ ++ Header.bytes ⟨0, 0, mailLength⟩ ++ data ++
    List.replicate (maxMailSize - data.length) 0

theorem mail_determined_of_covered :
    Covered (wirePacket 13 1 [7]) ∧
      ∀ mail mail',
        newReceiver.Delivers 2 1 (wirePacket 13 1 [7]) mail →
        newReceiver.Delivers 2 1 (wirePacket 13 1 [7]) mail' →
        mail.message = mail'.message :=
  have covered : Covered (wirePacket 13 1 [7]) := ⟨by decide, Or.inr (by decide)⟩
  ⟨covered,
    (mail_determined_iff sized_newReceiver sized_newReceiver rfl).mpr
      (Or.inr covered)⟩

/-- The last packet says that its message has two bytes and ends after the
first.  The second byte is the one of the packet before. -/
theorem mail_leaks_earlier_packet :
    ∃ middle middle' mail mail' next next',
      newReceiver.deliverAll 2 1 (fun _ => 0) [wirePacket 14 2 [5, 6]] =
          .ok middle ∧
        newReceiver.deliverAll 2 1 (fun _ => 0) [wirePacket 14 2 [5, 9]] =
          .ok middle' ∧
        middle.deliver 2 1 (fun _ => 0) (wirePacket 13 2 [7]) =
          .ok (mail, next) ∧
        middle'.deliver 2 1 (fun _ => 0) (wirePacket 13 2 [7]) =
          .ok (mail', next') ∧
        mail.message = ⟨⟨2, 1, 13⟩, ⟨0, 0, 2⟩, [7, 6]⟩ ∧
        mail'.message = ⟨⟨2, 1, 13⟩, ⟨0, 0, 2⟩, [7, 9]⟩ :=
  ⟨_, _, _, _, _, _, rfl, rfl, rfl, rfl, rfl, rfl⟩

end Stale

end Nachos
