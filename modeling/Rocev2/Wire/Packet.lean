import Rocev2.Core.Psn

/-!
# Transport packets

The parts of `rocev2-wire` that the engine reads and writes: opcodes (`opcode.rs`), the transport
headers (`bth.rs`, `reth.rs`, `aeth.rs`) and decoded packets (`packet.rs`, and `packet.rs` of the
endpoint crate).

The engine is modelled above the byte codec: an incoming datagram is either rejected by the
strict decoder or is a `DecodedPacket`, and an outgoing one is a `WirePacket`.  A decoded packet
carries the header invariants the parser establishes, so the engine never sees a READ request
without its RETH or an ACK without its AETH.
-/

namespace Rocev2.Wire

open Rocev2.Core

/-- Reliable Connected transport opcode. -/
inductive Opcode where
  | sendFirst
  | sendMiddle
  | sendLast
  | sendLastWithImmediate
  | sendOnly
  | sendOnlyWithImmediate
  | rdmaWriteFirst
  | rdmaWriteMiddle
  | rdmaWriteLast
  | rdmaWriteLastWithImmediate
  | rdmaWriteOnly
  | rdmaWriteOnlyWithImmediate
  | rdmaReadRequest
  | rdmaReadResponseFirst
  | rdmaReadResponseMiddle
  | rdmaReadResponseLast
  | rdmaReadResponseOnly
  | acknowledge
deriving DecidableEq, Repr

/-- Logical operation represented by an opcode. -/
inductive Operation where
  | send
  | write
  | readRequest
  | readResponse
  | acknowledge
deriving DecidableEq, Repr

/-- Position of a packet inside a segmented operation. -/
inductive SegmentPosition where
  | first
  | middle
  | last
  | only
deriving DecidableEq, Repr

namespace Opcode

/-- Logical operation. -/
def operation : Opcode → Operation
  | sendFirst | sendMiddle | sendLast | sendLastWithImmediate | sendOnly
  | sendOnlyWithImmediate => .send
  | rdmaWriteFirst | rdmaWriteMiddle | rdmaWriteLast | rdmaWriteLastWithImmediate | rdmaWriteOnly
  | rdmaWriteOnlyWithImmediate => .write
  | rdmaReadRequest => .readRequest
  | rdmaReadResponseFirst | rdmaReadResponseMiddle | rdmaReadResponseLast
  | rdmaReadResponseOnly => .readResponse
  | acknowledge => .acknowledge

def position : Opcode → SegmentPosition
  | sendFirst | rdmaWriteFirst | rdmaReadResponseFirst => .first
  | sendMiddle | rdmaWriteMiddle | rdmaReadResponseMiddle => .middle
  | sendLast | sendLastWithImmediate | rdmaWriteLast | rdmaWriteLastWithImmediate
  | rdmaReadResponseLast => .last
  | sendOnly | sendOnlyWithImmediate | rdmaWriteOnly | rdmaWriteOnlyWithImmediate
  | rdmaReadRequest | rdmaReadResponseOnly | acknowledge => .only

/-- Whether a RETH follows the BTH. -/
def hasReth : Opcode → Bool
  | rdmaWriteFirst | rdmaWriteOnly | rdmaWriteOnlyWithImmediate | rdmaReadRequest => true
  | _ => false

/-- Whether an AETH follows the BTH. -/
def hasAeth : Opcode → Bool
  | rdmaReadResponseFirst | rdmaReadResponseLast | rdmaReadResponseOnly | acknowledge => true
  | _ => false

/-- Whether the opcode includes an immediate-data header. -/
def hasImmediate : Opcode → Bool
  | sendLastWithImmediate | sendOnlyWithImmediate | rdmaWriteLastWithImmediate
  | rdmaWriteOnlyWithImmediate => true
  | _ => false

/-- Whether the opcode may carry a payload. -/
def allowsPayload : Opcode → Bool
  | rdmaReadRequest | acknowledge => false
  | _ => true

/-- Whether the packet is sent by a requester. -/
def isRequest (opcode : Opcode) : Bool :=
  match opcode.operation with
  | .send | .write | .readRequest => true
  | .readResponse | .acknowledge => false

end Opcode

/-! ## Headers -/

/-- The fields of the base transport header that the engine uses. -/
structure Bth where
  /-- RC operation opcode. -/
  opcode : Opcode
  /-- Partition key. -/
  partitionKey : UInt16
  /-- Destination queue-pair number. -/
  destinationQpn : ℕ
  /-- Request an ACK for this packet. -/
  ackRequest : Bool
  /-- Packet sequence number; the decoder masks it to 24 bits. -/
  psn : Psn
deriving DecidableEq, Repr

/-- The default full-membership partition key. -/
def Bth.defaultPkey : UInt16 := 0xffff

/-- A conventional header. -/
def Bth.new (opcode : Opcode) (destinationQpn : ℕ) (psn : Psn) : Bth :=
  ⟨opcode, Bth.defaultPkey, destinationQpn, false, psn⟩

/-- RDMA extended transport header. -/
structure Reth where
  /-- Remote virtual address. -/
  virtualAddress : UInt64
  /-- Remote key. -/
  remoteKey : UInt32
  /-- Total operation length in bytes. -/
  dmaLength : UInt32
deriving DecidableEq, Repr

/-- Reason of a negative acknowledgement. -/
inductive NakCode where
  | psnSequenceError
  | invalidRequest
  | remoteAccessError
  | remoteOperationError
  | unknown (code : UInt8)
deriving DecidableEq, Repr

/-- Classification of an AETH syndrome. -/
inductive AethClass where
  /-- Positive acknowledgement with a credit value. -/
  | ack (credit : UInt8)
  /-- Receiver-not-ready NAK with a delay code. -/
  | rnrNak (timer : UInt8)
  /-- Reserved syndrome class. -/
  | reserved (code : UInt8)
  /-- Negative acknowledgement. -/
  | nak (code : NakCode)
deriving DecidableEq, Repr

/-- ACK extended transport header. -/
structure Aeth where
  /-- Raw eight-bit syndrome. -/
  syndrome : UInt8
  /-- Message sequence number. -/
  messageSequenceNumber : ℕ
deriving DecidableEq, Repr

namespace Aeth

variable (messageSequenceNumber : ℕ)

/-- An unlimited-credit ACK. -/
def ack : Aeth := ⟨0x1f, messageSequenceNumber⟩

/-- A receiver-not-ready NAK. -/
def rnrNak (timer : UInt8) : Aeth :=
  ⟨0x20 ||| (timer &&& 0x1f), messageSequenceNumber⟩

def psnNak : Aeth := ⟨0x60, messageSequenceNumber⟩

def nakInvalidRequest : UInt8 := 0x61

def nakRemoteAccessError : UInt8 := 0x62

def nakRemoteOperationError : UInt8 := 0x63

/-- Classify the syndrome. -/
def classify (aeth : Aeth) : AethClass :=
  let kind := aeth.syndrome &&& 0xe0
  let code := aeth.syndrome &&& 0x1f
  if kind = 0x00 then .ack code
  else if kind = 0x20 then .rnrNak code
  else if kind = 0x40 then .reserved code
  else
    .nak
      (if code = 0 then .psnSequenceError
      else if code = 1 then .invalidRequest
      else if code = 2 then .remoteAccessError
      else if code = 3 then .remoteOperationError
      else .unknown code)

@[simp]
theorem classify_ack (msn : ℕ) : (ack msn).classify = .ack 0x1f := by
  have hkind : (0x1f : UInt8) &&& 0xe0 = 0 := by decide
  have hcode : (0x1f : UInt8) &&& 0x1f = 0x1f := by decide
  simp only [classify, ack, hkind, hcode, if_true]

@[simp]
theorem classify_rnrNak (msn : ℕ) (timer : UInt8) :
    (rnrNak msn timer).classify = .rnrNak (timer &&& 0x1f) := by
  have hkind : ∀ t : UInt8, (0x20 ||| (t &&& 0x1f)) &&& 0xe0 = 0x20 := by
    rintro ⟨t⟩
    revert t
    decide
  have hcode : ∀ t : UInt8, (0x20 ||| (t &&& 0x1f)) &&& 0x1f = t &&& 0x1f := by
    rintro ⟨t⟩
    revert t
    decide
  have h₁ : (0x20 : UInt8) ≠ 0 := by decide
  simp only [classify, rnrNak, hkind, hcode, if_neg h₁, if_true]

end Aeth

/-! ## Packets -/

abbrev Ipv4Addr := Vector UInt8 4

def Ipv4Addr.octets (a b c d : UInt8) : Ipv4Addr := #v[a, b, c, d]

/-- A decoded transport packet, with the header invariants of the parser. -/
structure PacketRef where
  /-- Base transport header. -/
  bth : Bth
  /-- RDMA extended transport header. -/
  reth : Option Reth
  /-- ACK extended transport header. -/
  aeth : Option Aeth
  /-- Operation payload. -/
  payload : List UInt8
  /-- A RETH is present exactly when the opcode carries one. -/
  reth_isSome : reth.isSome = bth.opcode.hasReth
  /-- An AETH is present exactly when the opcode carries one. -/
  aeth_isSome : aeth.isSome = bth.opcode.hasAeth
  /-- A payload is present only when the opcode allows one. -/
  payload_eq_nil : bth.opcode.allowsPayload = false → payload = []

/-- The IPv4 fields the engine checks. -/
structure Ipv4Header where
  source : Ipv4Addr
  destination : Ipv4Addr
deriving DecidableEq

/-- A validated complete packet. -/
structure DecodedPacket where
  /-- IPv4 header. -/
  ipv4 : Ipv4Header
  /-- Transport headers and payload. -/
  transport : PacketRef

/-- The path of outgoing packets. -/
structure Ipv4Path where
  /-- Source address. -/
  source : Ipv4Addr
  /-- Destination address. -/
  destination : Ipv4Addr
  /-- UDP source port used for flow entropy. -/
  sourcePort : UInt16
  /-- IPv4 time to live. -/
  ttl : UInt8
  /-- IPv4 DSCP and ECN octet. -/
  dscpEcn : UInt8
deriving DecidableEq

/-- Create a path with TTL 64 and no DSCP or ECN markings. -/
def Ipv4Path.new (source destination : Ipv4Addr) (sourcePort : UInt16) : Ipv4Path :=
  ⟨source, destination, sourcePort, 64, 0⟩

/-- A packet handed to the encoder. -/
structure WirePacket where
  /-- The IPv4 and UDP fields. -/
  path : Ipv4Path
  /-- Base transport header. -/
  bth : Bth
  /-- RDMA extended transport header. -/
  reth : Option Reth
  /-- ACK extended transport header. -/
  aeth : Option Aeth
  /-- Operation payload. -/
  payload : List UInt8
deriving DecidableEq

variable (packet : WirePacket)

/-- The header check of the encoder. -/
def WirePacket.validHeaders : Bool :=
  packet.reth.isSome == packet.bth.opcode.hasReth &&
    packet.aeth.isSome == packet.bth.opcode.hasAeth && !packet.bth.opcode.hasImmediate &&
    (packet.bth.opcode.allowsPayload || packet.payload.isEmpty)

/-- The length of the complete encoded packet: IPv4, UDP, transport headers, padded payload and
ICRC. -/
def WirePacket.encodedLength : ℕ :=
  20 + 8 + 12 + (if packet.bth.opcode.hasReth then 16 else 0) +
    (if packet.bth.opcode.hasAeth then 4 else 0) + (packet.payload.length + 3) / 4 * 4 + 4

/-- What the peer decodes from a packet that passes the encoder's header check. -/
def WirePacket.decoded (h : packet.validHeaders = true) : DecodedPacket where
  ipv4 := ⟨packet.path.source, packet.path.destination⟩
  transport :=
    { bth := packet.bth
      reth := packet.reth
      aeth := packet.aeth
      payload := packet.payload
      reth_isSome := by
        simp only [validHeaders, Bool.and_eq_true, beq_iff_eq] at h
        exact h.1.1.1
      aeth_isSome := by
        simp only [validHeaders, Bool.and_eq_true, beq_iff_eq] at h
        exact h.1.1.2
      payload_eq_nil := by
        intro hallow
        simp only [validHeaders, Bool.and_eq_true, hallow, Bool.false_or, List.isEmpty_iff] at h
        exact h.2 }

end Rocev2.Wire
