import Nachos.Lib.Utility

/-!
# The network device

`NetworkInput` and `NetworkOutput` of `machine/network.cc`.  The format on the
wire is the packet header, the payload, and whatever fills the packet up to
`MaxWireSize` bytes.  Statistics and `packetAvail`, which nothing reads, are
left out.
-/

namespace Nachos

open Foundation

/-- `PacketHeader` and `MailHeader` have the same three fields.  The fields
`to` and `from` of the source are words of Lean. -/
@[ext]
structure Header where
  toAddress : Word
  fromAddress : Word
  length : Word
  deriving DecidableEq, Repr

def headerSize : Nat := 12

namespace Header

def bytes (header : Header) : List Byte :=
  encodeWords [header.toAddress, header.fromAddress, header.length]

def ofBytes (buffer : List Byte) : Except Fault Header := do
  match decodeWords (← bytesAt buffer 0 headerSize) with
  | [toAddress, fromAddress, length] =>
    return ⟨toAddress, fromAddress, length⟩
  | _ => throw .outOfBounds

def concatenate (junk : Junk) (size : Nat) (header : Header)
    (data : List Byte) (count : Nat) : Except Fault (List Byte) := do
  let buffer ← newChars junk size
  let buffer ← storeBytes buffer 0 header.bytes
  bcopy data 0 buffer headerSize count

@[simp]
theorem length_bytes (header : Header) : header.bytes.length = headerSize :=
  length_encodeWords _

theorem ofBytes_eq
    {header : Header} {rest buffer : List Byte}
    (starts : header.bytes ++ rest <+: buffer) :
    ofBytes buffer = .ok header := by
  have front : [] ++ header.bytes <+: buffer :=
    (List.prefix_append header.bytes rest).trans starts
  have read : bytesAt buffer 0 headerSize = .ok header.bytes := by
    have fits : 0 + headerSize ≤ buffer.length := by
      have shorter := front.length_le
      simpa using shorter
    have isFront : slice buffer 0 headerSize = header.bytes := by
      have sliced := slice_of_starts front
      rwa [length_bytes] at sliced
    rw [← isFront]
    exact bytesAt_natCast fits
  unfold ofBytes
  rw [read, ok_bind, bytes, decodeWords_encodeWords]
  rfl

theorem concatenate_eq
    {payload data : List Byte} {size : Nat} (junk : Junk) (header : Header)
    (starts : payload <+: data)
    (fits : headerSize + payload.length ≤ size) :
    ∃ buffer, header.concatenate junk size data payload.length = .ok buffer ∧
      buffer.length = size ∧ header.bytes ++ payload <+: buffer := by
  obtain ⟨empty, isEmpty⟩ : ∃ empty, empty = (List.range size).map junk :=
    ⟨_, rfl⟩
  have emptyLength : empty.length = size := by simp [isEmpty]
  have allocated : newChars junk size = .ok empty := by
    rw [isEmpty]
    exact if_pos (Int.natCast_nonneg size)
  have headerFits : 0 + header.bytes.length ≤ empty.length := by
    rw [header.length_bytes]
    omega
  have stored : storeBytes empty 0 header.bytes =
      .ok (overlay empty header.bytes 0) := storeBytes_natCast headerFits
  have sourceFits : 0 + payload.length ≤ data.length := by
    simpa using starts.length_le
  have targetFits : header.bytes.length + payload.length ≤
      (overlay empty header.bytes 0).length := by
    rw [length_overlay headerFits, header.length_bytes]
    omega
  have isPayload : slice data 0 payload.length = payload :=
    @slice_of_starts _ [] payload data starts
  have copied := bcopy_natCast sourceFits targetFits
  have bothFit : 0 + header.bytes.length + payload.length ≤ empty.length := by
    rw [header.length_bytes]
    omega
  have joined := overlay_overlay_adjacent bothFit
  rw [Nat.zero_add] at joined
  rw [isPayload, joined, header.length_bytes] at copied
  refine ⟨_, ?_, ?_, starts_overlay empty (header.bytes ++ payload)⟩
  · unfold concatenate
    rw [allocated, ok_bind, stored, ok_bind]
    exact copied
  · rw [length_overlay, emptyLength]
    rw [List.length_append]
    omega

end Header

abbrev PacketHeader := Header

def maxWireSize : Nat := 64

def maxPacketSize : Nat := maxWireSize - headerSize

structure Header.Carries (header : PacketHeader) (payload : List Byte) :
    Prop where
  length : payload.length = header.length.toNat
  small : payload.length ≤ maxPacketSize

structure OnWire (packet : List Byte) (header : PacketHeader)
    (payload : List Byte) : Prop where
  length : packet.length = maxWireSize
  starts : header.bytes ++ payload <+: packet

structure InBuffer (buffer payload : List Byte) : Prop where
  length : buffer.length = maxPacketSize
  starts : payload <+: buffer

theorem bcopy_payload
    {source buffer front payload : List Byte}
    (starts : front ++ payload <+: source)
    (small : payload.length ≤ maxPacketSize)
    (length : buffer.length = maxPacketSize) :
    ∃ filled, bcopy source front.length buffer 0 payload.length = .ok filled ∧
      InBuffer filled payload := by
  have sourceFits : front.length + payload.length ≤ source.length := by
    simpa using starts.length_le
  have targetFits : 0 + payload.length ≤ buffer.length := by omega
  refine ⟨overlay buffer payload 0, ?_, ?_, starts_overlay buffer payload⟩
  · have copied := bcopy_natCast sourceFits targetFits
    rwa [slice_of_starts starts] at copied
  · rw [length_overlay targetFits, length]

/-- `NetworkInput`: the packet that has arrived, if `inHdr.length` is not 0. -/
structure NetworkInput where
  inHdr : PacketHeader
  inbox : List Byte

namespace NetworkInput

def isFull (input : NetworkInput) : Bool :=
  input.inHdr.length != 0

def readIn (hostName : Word) (input : NetworkInput) (packet : List Byte) :
    Except Fault NetworkInput := do
  let inHdr ← Header.ofBytes packet
  assertThat (inHdr.toAddress = hostName ∧ inHdr.length.toNat ≤ maxPacketSize)
    .networkReceive
  let inbox ← bcopy packet headerSize input.inbox 0 inHdr.length.toNat
  return ⟨inHdr, inbox⟩

/-- `NetworkInput::CallBack`; `polled` is the packet that `PollSocket` finds.
The result is there if the packet was read in, and then the post office is
called. -/
def callBack (hostName : Word) (input : NetworkInput)
    (polled : Option (List Byte)) : Except Fault (Option NetworkInput) := do
  if input.isFull then
    return none
  else match polled with
    | none => return none
    | some packet => return some (← input.readIn hostName packet)

/-- `NetworkInput::Receive`: the header, the buffer of the caller, and the
device.  It runs through without a change of the interrupt level. -/
def receive (input : NetworkInput) (data : List Byte) :
    Except Fault (PacketHeader × List Byte × NetworkInput) := do
  let hdr := input.inHdr
  let emptied := { input with inHdr := { input.inHdr with length := 0 } }
  if hdr.length ≠ 0 then
    return (hdr, ← bcopy input.inbox 0 data 0 hdr.length.toNat, emptied)
  else
    return (hdr, data, emptied)

theorem readIn_eq
    {hostName : Word} {input : NetworkInput} {packet payload : List Byte}
    {header : PacketHeader}
    (onWire : OnWire packet header payload) (carries : header.Carries payload)
    (here : header.toAddress = hostName) (length : input.inbox.length = maxPacketSize) :
    ∃ inbox, input.readIn hostName packet = .ok ⟨header, inbox⟩ ∧
      InBuffer inbox payload := by
  obtain ⟨inbox, copied, filled⟩ :=
    bcopy_payload onWire.starts carries.small length
  refine ⟨inbox, ?_, filled⟩
  rw [Header.length_bytes, carries.length] at copied
  have checked :
      decide (header.toAddress = hostName ∧
        header.length.toNat ≤ maxPacketSize) = true := by
    rw [decide_eq_true_eq]
    exact ⟨here, carries.length ▸ carries.small⟩
  unfold readIn
  simp only [Header.ofBytes_eq onWire.starts, checked, copied, ok_bind,
    assertThat_true]
  rfl

theorem receive_eq
    {input : NetworkInput} {payload data : List Byte}
    (inbox : InBuffer input.inbox payload)
    (carries : input.inHdr.Carries payload)
    (length : data.length = maxPacketSize) (full : input.isFull = true) :
    ∃ filled, input.receive data = .ok (input.inHdr, filled,
        { input with inHdr := { input.inHdr with length := 0 } }) ∧
      InBuffer filled payload := by
  obtain ⟨filled, copied, isFilled⟩ :=
    @bcopy_payload _ _ [] _ inbox.starts carries.small length
  refine ⟨filled, ?_, isFilled⟩
  rw [carries.length] at copied
  have nonzero : input.inHdr.length ≠ 0 := by
    simpa [isFull] using full
  unfold receive
  rw [if_pos nonzero]
  exact congrArg (· >>= _) copied

end NetworkInput

namespace NetworkOutput

def send (hostName : Word) (sendBusy : Bool) (hdr : PacketHeader)
    (data : List Byte) (lost : Bool) (junk : Junk) :
    Except Fault (Option (List Byte)) := do
  assertThat (sendBusy = false ∧ 0 < hdr.length.toNat ∧
    hdr.length.toNat ≤ maxPacketSize ∧ hdr.fromAddress = hostName) .networkSend
  if lost then
    return none
  else
    return some (← hdr.concatenate junk maxWireSize data hdr.length.toNat)

theorem send_eq
    {hostName : Word} {hdr : PacketHeader} {payload data : List Byte}
    (carries : hdr.Carries payload) (starts : payload <+: data)
    (nonempty : payload ≠ []) (own : hdr.fromAddress = hostName)
    (lost : Bool) (junk : Junk) :
    ∃ sent, send hostName false hdr data lost junk = .ok sent ∧
      ∀ packet, sent = some packet → OnWire packet hdr payload := by
  have positive := List.length_pos_iff.mpr nonempty
  have checked :
      decide (false = false ∧ 0 < hdr.length.toNat ∧
        hdr.length.toNat ≤ maxPacketSize ∧ hdr.fromAddress = hostName) =
          true := by
    rw [decide_eq_true_eq, ← carries.length]
    exact ⟨rfl, positive, carries.small, own⟩
  unfold send
  rw [checked, assertThat_true, ok_bind]
  cases lost with
  | true =>
    exact ⟨none, rfl, fun _ isSent => (by cases isSent)⟩
  | false =>
    have fits : headerSize + payload.length ≤ maxWireSize :=
      Nat.add_le_of_le_sub' (by decide) carries.small
    obtain ⟨packet, concatenated, length, front⟩ :=
      Header.concatenate_eq junk hdr starts fits
    rw [carries.length] at concatenated
    refine ⟨some packet, by simp [concatenated, pure, Except.pure], ?_⟩
    intro sent isSent
    cases isSent
    exact ⟨length, front⟩

end NetworkOutput

end Nachos
