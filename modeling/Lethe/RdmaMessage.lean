import Lethe.Types
import Lethe.Library.ByteMemory
import Lethe.Library.LittleEndian

namespace Lethe

open ByteMemory

/-!
# Messages of the RDMA transport

A pushed block travels as a packed header of 60 bytes followed by its payload.
The sender lays the fields out in a registered buffer and posts the bytes up to
the end of the payload.  The receiver gets them at the start of a buffer that
it has used before, together with their number, and reads the fields back.
-/

/--
Why a block is streamed.  The type is a byte; the named values are those the
code uses, and a message may carry any other.
-/
structure StreamPurpose where
  code : UInt8
  deriving DecidableEq, Repr

namespace StreamPurpose

/-- Push of a new block to its replicas. -/
def replicationPush : StreamPurpose :=
  ⟨0⟩

/-- Pull of a missing block from a replica. -/
def readRepair : StreamPurpose :=
  ⟨1⟩

/-- Promotion from the hotter copy of another node. -/
def promotion : StreamPurpose :=
  ⟨2⟩

end StreamPurpose

/-- A registered buffer; what lies behind its size belongs to others. -/
structure RegBuf where
  mem : Memory
  size : Nat

/-- The fixed header of a message. -/
structure MsgHeader where
  magic : UInt32
  type : UInt32
  purpose : UInt32
  payloadLen : UInt32
  hash : Hash256
  layer : UInt32
  headGroup : UInt32
  modelId : UInt32

/-- A block handed to the receiver's callback. -/
structure ReceivedPush where
  id : BlockId
  payload : List UInt8
  purpose : StreamPurpose
  deriving DecidableEq

namespace Rdma

/-- First field of every message. -/
def magic : UInt32 :=
  0x4C455448

/-- Type of the messages that push a block. -/
def msgBlockPush : UInt32 :=
  1

/-- Size of the packed header. -/
def headerBytes : Nat :=
  60

/-- Size of the registered buffers. -/
def msgCap
    (msgBytes : Nat) :
    Nat :=
  headerBytes + msgBytes

/-- A 32-bit field as it lies in memory. -/
def word
    (value : UInt32) :
    List UInt8 :=
  LittleEndian.encode 4 value.toNat

/-- The 32-bit field at an address. -/
def wordAt
    (memory : Memory)
    (address : Nat) :
    UInt32 :=
  UInt32.ofNat (LittleEndian.decode (load memory address 4))

/-- The header at the start of a buffer. -/
def headerAt
    (memory : Memory) :
    MsgHeader where
  magic := wordAt memory 0
  type := wordAt memory 4
  purpose := wordAt memory 8
  payloadLen := wordAt memory 12
  hash := ⟨load memory 16 32, length_load memory 16 32⟩
  layer := wordAt memory 48
  headGroup := wordAt memory 52
  modelId := wordAt memory 56

/-- The fields that a sender writes, each at its place in the buffer. -/
def messageFields
    (id : BlockId)
    (purpose : StreamPurpose)
    (data : List UInt8) :
    List (Nat × List UInt8) :=
  [ (0, word magic),
    (4, word msgBlockPush),
    (8, word purpose.code.toUInt32),
    (12, word (UInt32.ofNat data.length)),
    (16, id.hash.bytes),
    (48, word id.layer),
    (52, word id.headGroup),
    (56, word id.modelId),
    (headerBytes, data) ]

/--
The bytes that the device is told to send, if the block fits a buffer.  Their
number is a 32-bit field of the work request.
-/
def send
    (msgBytes : Nat)
    (buffer : RegBuf)
    (id : BlockId)
    (purpose : StreamPurpose)
    (data : List UInt8) :
    Option (List UInt8) :=
  if msgCap msgBytes < headerBytes + data.length then
    none
  else
    let written := run buffer.mem (storesOf (messageFields id purpose data))
    let length := UInt32.ofNat (headerBytes + data.length)
    some (load written 0 length.toNat)

/-- The device puts a message at the start of a posted buffer. -/
def receiveInto
    (buffer : RegBuf)
    (message : List UInt8) :
    RegBuf :=
  { buffer with mem := run buffer.mem (storesAt 0 message) }

/-- What a completed receive hands to the callback. -/
def handleRecv
    (buffer : RegBuf)
    (byteLen : UInt32) :
    Option ReceivedPush :=
  if byteLen.toNat < headerBytes then
    none
  else
    let header := headerAt buffer.mem
    if header.magic ≠ magic ∨ header.type ≠ msgBlockPush then
      none
    else if byteLen.toNat < headerBytes + header.payloadLen.toNat then
      none
    else
      some
        { id := ⟨header.hash, header.layer, header.headGroup, header.modelId⟩
          payload := load buffer.mem headerBytes header.payloadLen.toNat
          purpose := ⟨header.purpose.toUInt8⟩ }

/-! ## Reading back what was sent -/

/-- A 32-bit field is read back as it was written. -/
theorem wordAt_of_load
    {memory : Memory}
    {address : Nat}
    {value : UInt32}
    (stored : load memory address 4 = word value) :
    wordAt memory address = value := by
  rw [wordAt, stored, word]
  exact LittleEndian.ofNat_decode_encode_word32 value

/-- The fields of a message do not overlap. -/
theorem messageFields_apart
    (id : BlockId)
    (purpose : StreamPurpose)
    (data : List UInt8) :
    (messageFields id purpose data).Pairwise Apart := by
  simp [messageFields, Apart, word, headerBytes, id.hash.length_eq]

/-- Every field of a message lies before its end. -/
theorem messageFields_end
    {id : BlockId}
    {purpose : StreamPurpose}
    {data : List UInt8}
    {field : Nat × List UInt8}
    (member : field ∈ messageFields id purpose data) :
    field.1 + field.2.length ≤ headerBytes + data.length := by
  simp only [messageFields, List.mem_cons, List.not_mem_nil,
    or_false] at member
  rcases member with rfl | rfl | rfl | rfl | rfl | rfl | rfl | rfl | rfl
  all_goals simp [word, headerBytes, id.hash.length_eq]
  all_goals omega

/-- A sent message is the written part of the buffer. -/
theorem message_of_send
    {msgBytes : Nat}
    (small : msgCap msgBytes < 2 ^ 32)
    {buffer : RegBuf}
    {id : BlockId}
    {purpose : StreamPurpose}
    {data message : List UInt8}
    (sent : send msgBytes buffer id purpose data = some message) :
    message.length = headerBytes + data.length ∧
      message =
        load (run buffer.mem (storesOf (messageFields id purpose data))) 0
          (headerBytes + data.length) ∧
      headerBytes + data.length ≤ msgCap msgBytes := by
  unfold send at sent
  split at sent
  · simp at sent
  · next fits =>
      have noWrap :
          (UInt32.ofNat (headerBytes + data.length)).toNat =
            headerBytes + data.length :=
        UInt32.toNat_ofNat_of_lt'
          (Nat.lt_of_le_of_lt (Nat.not_lt.mp fits) small)
      simp only [noWrap, Option.some.injEq] at sent
      subst sent
      exact ⟨length_load _ _ _, rfl, Nat.not_lt.mp fits⟩

/-- What a block looks like once its message has been received. -/
theorem load_received
    {msgBytes : Nat}
    (small : msgCap msgBytes < 2 ^ 32)
    {sendBuffer : RegBuf}
    {id : BlockId}
    {purpose : StreamPurpose}
    {data message : List UInt8}
    (sent : send msgBytes sendBuffer id purpose data = some message)
    (buffer : RegBuf)
    {field : Nat × List UInt8}
    (member : field ∈ messageFields id purpose data) :
    load (receiveInto buffer message).mem field.1 field.2.length =
      field.2 := by
  obtain ⟨size, isMessage, _⟩ := message_of_send small sent
  have received :
      load (receiveInto buffer message).mem 0 message.length = message :=
    load_run_storesAt buffer.mem 0 message
  rw [size] at received
  rw [load_part_eq (received.trans isMessage) (Nat.zero_le _)]
  · exact load_run_storesOf (messageFields_apart id purpose data) member
  · have inside := messageFields_end member
    omega

/-- The payload length of a message that fits a buffer is not cut. -/
theorem payloadLen_toNat
    {msgBytes : Nat}
    (small : msgCap msgBytes < 2 ^ 32)
    {data : List UInt8}
    (fits : headerBytes + data.length ≤ msgCap msgBytes) :
    (UInt32.ofNat data.length).toNat = data.length :=
  UInt32.toNat_ofNat_of_lt'
    (Nat.lt_of_le_of_lt (Nat.le_trans (Nat.le_add_left _ _) fits) small)

/-- The receiver reads the header that the sender wrote. -/
theorem headerAt_received
    {msgBytes : Nat}
    (small : msgCap msgBytes < 2 ^ 32)
    {sendBuffer : RegBuf}
    {id : BlockId}
    {purpose : StreamPurpose}
    {data message : List UInt8}
    (sent : send msgBytes sendBuffer id purpose data = some message)
    (buffer : RegBuf) :
    headerAt (receiveInto buffer message).mem =
      { magic := magic
        type := msgBlockPush
        purpose := purpose.code.toUInt32
        payloadLen := UInt32.ofNat data.length
        hash := id.hash
        layer := id.layer
        headGroup := id.headGroup
        modelId := id.modelId } := by
  have stored {address : Nat} {value : UInt32}
      (member : (address, word value) ∈ messageFields id purpose data) :
      wordAt (receiveInto buffer message).mem address = value := by
    refine wordAt_of_load ?_
    have received := load_received small sent buffer member
    rwa [word, LittleEndian.length_encode] at received
  have isField :
      (16, id.hash.bytes) ∈ messageFields id purpose data := by
    simp [messageFields]
  have hash := load_received small sent buffer isField
  simp only [id.hash.length_eq] at hash
  simp only [headerAt, MsgHeader.mk.injEq]
  refine ⟨stored ?_, stored ?_, stored ?_, stored ?_, ?_, stored ?_,
    stored ?_, stored ?_⟩
  case refine_5 =>
    cases isHash : id.hash with
    | mk bytes length_eq =>
        rw [isHash] at hash
        simp only [hash]
  all_goals simp [messageFields]

/-- The receiver is handed the block that was sent. -/
theorem handleRecv_of_send
    {msgBytes : Nat}
    (small : msgCap msgBytes < 2 ^ 32)
    {sendBuffer : RegBuf}
    {id : BlockId}
    {purpose : StreamPurpose}
    {data message : List UInt8}
    (sent : send msgBytes sendBuffer id purpose data = some message)
    (buffer : RegBuf) :
    handleRecv (receiveInto buffer message)
        (UInt32.ofNat message.length) =
      some ⟨id, data, purpose⟩ := by
  obtain ⟨size, _, fits⟩ := message_of_send small sent
  have header := headerAt_received small sent buffer
  have payloadLen := payloadLen_toNat small fits
  have byteLen :
      (UInt32.ofNat message.length).toNat = headerBytes + data.length := by
    rw [size]
    exact UInt32.toNat_ofNat_of_lt' (Nat.lt_of_le_of_lt fits small)
  have isField :
      (headerBytes, data) ∈ messageFields id purpose data := by
    simp [messageFields]
  have payload := load_received small sent buffer isField
  simp only [handleRecv, header, byteLen, payloadLen, payload]
  simp

/-- What is handed over lies in the message and follows a right header. -/
structure RightPush
    (buffer : RegBuf)
    (byteLen : UInt32)
    (received : ReceivedPush) : Prop where
  magic_eq : (headerAt buffer.mem).magic = magic
  type_eq : (headerAt buffer.mem).type = msgBlockPush
  inMessage :
    headerBytes + (headerAt buffer.mem).payloadLen.toNat ≤ byteLen.toNat
  inBuffer : byteLen.toNat ≤ buffer.size
  payload_eq :
    received.payload =
      load buffer.mem headerBytes (headerAt buffer.mem).payloadLen.toNat

/-- Whatever the buffer holds, only right pushes are handed over. -/
theorem rightPush_of_handleRecv
    {buffer : RegBuf}
    {byteLen : UInt32}
    (inBuffer : byteLen.toNat ≤ buffer.size)
    {received : ReceivedPush}
    (handed : handleRecv buffer byteLen = some received) :
    RightPush buffer byteLen received := by
  unfold handleRecv at handed
  split at handed
  · simp at handed
  · dsimp only at handed
    split at handed
    · simp at handed
    · next right =>
        split at handed
        · simp at handed
        · next inside =>
            simp only [not_or, Decidable.not_not] at right
            simp only [Option.some.injEq] at handed
            subst handed
            exact
              ⟨right.1, right.2, Nat.not_lt.mp inside, inBuffer, rfl⟩

/--
A block that the sender accepts arrives as it was, whatever the receiver's
buffer held before.  From any buffer and any length up to its size, either
nothing or a payload that lies in the message is handed over.
-/
theorem rdma_push_round_trips_and_rejects
    {msgBytes : Nat}
    (small : msgBytes + 60 < 2 ^ 32) :
    (∀ sendBuffer id purpose data message,
        send msgBytes sendBuffer id purpose data = some message →
        ∀ buffer,
          handleRecv (receiveInto buffer message)
              (UInt32.ofNat message.length) =
            some ⟨id, data, purpose⟩) ∧
      ∀ (buffer : RegBuf) (byteLen : UInt32),
        byteLen.toNat ≤ buffer.size →
        handleRecv buffer byteLen = none ∨
          ∃ received,
            handleRecv buffer byteLen = some received ∧
              RightPush buffer byteLen received := by
  have smallCap : msgCap msgBytes < 2 ^ 32 := by
    rw [msgCap, headerBytes, Nat.add_comm]
    exact small
  constructor
  · intro sendBuffer id purpose data message sent buffer
    exact handleRecv_of_send smallCap sent buffer
  · intro buffer byteLen inBuffer
    cases handed : handleRecv buffer byteLen with
    | none =>
        exact Or.inl rfl
    | some received =>
        exact
          Or.inr ⟨received, rfl, rightPush_of_handleRecv inBuffer handed⟩

/-- A buffer that is full of old bytes. -/
def staleBuffer : RegBuf where
  mem := fun _ => 0xEE
  size := 64

theorem rdma_push_round_trips_and_rejects_stale :
    ∃ message,
      send 4 staleBuffer ⟨.fill 5, 1, 2, 3⟩ .readRepair [7, 8] =
          some message ∧
        handleRecv (receiveInto staleBuffer message)
            (UInt32.ofNat message.length) =
          some ⟨⟨.fill 5, 1, 2, 3⟩, [7, 8], .readRepair⟩ :=
  ⟨_, rfl,
    (rdma_push_round_trips_and_rejects
      (show 4 + 60 < 2 ^ 32 by decide)).1 _ _ _ _ _ rfl _⟩

end Rdma

end Lethe
