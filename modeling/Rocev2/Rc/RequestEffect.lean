import Rocev2.Rc.Ledger
import Rocev2.Rc.Responder

/-!
# What handling a request can do

The inversion lemma of the responder.  `RequestEffect` lists every outcome of
`handleRequestPacket` with the condition under which it occurs, as a relation between the
transport state before and after, the copies into registered memory and the reply.  It does not
mention the registry after the call: `Keeps` says how that one differs.

Every later result about the responder is a case analysis on `RequestEffect` and never unfolds a
handler again.  The lemma itself, `handleRequestPacket_effect`, is proved in
`Rocev2.Rc.RequestInversion`.

A SEND or WRITE packet is accepted in two moves.  The first packet of a message *loads* it: the
receive work request or the remote range becomes the inbound message with no byte written.  A
later packet finds the message loaded.  Then the payload is copied behind the bytes written so
far, and the final packet completes the message.
-/

namespace Rocev2.Wire

/-- Whether a packet at this position ends its message. -/
def SegmentPosition.isFinal : SegmentPosition → Bool
  | .last | .only => true
  | .first | .middle => false

end Rocev2.Wire

namespace Rocev2.Rc

open Rocev2.Core Rocev2.Wire Rocev2.Memory

variable {MRS SQ RQ CQ : ℕ}

/-- Every optional part of a slot is held together with its lease. -/
structure Tidy (qp : QpTransport MRS SQ RQ CQ) : Prop where
  active : qp.activeMemory.isSome = qp.activeRequest.isSome
  inbound : qp.inboundMemory.isSome = qp.inboundMessage.isSome
  read : qp.readMemory.isSome = qp.readResponse.isSome
  sends : ∀ posted ∈ qp.sendQueue.items, posted.lease.isSome
  receives : ∀ posted ∈ qp.receiveQueue.items, posted.lease.isSome

def LeaseOn (memory : MemoryRegistry MRS) (kind : KeyKind) (key : UInt32)
    (lease : Option (RegionLease MRS)) : Prop :=
  ∃ index slot, KeyTable.get memory.keys key kind = some index ∧
    memory.slots index = some slot ∧ lease = some (memory.leaseOf index slot)

namespace QpTransport

variable (qp : QpTransport MRS SQ RQ CQ)

def loadSend (posted : PostedWork RecvWorkRequest MRS)
    (queue : Ring (PostedWork RecvWorkRequest MRS) RQ) : QpTransport MRS SQ RQ CQ :=
  ((qp.setReceives queue).setInboundMemory posted.lease).setInbound (some (.send posted.work 0))

/-- Make a remote range the inbound message. -/
def loadWrite (reth : Reth) (lease : Option (RegionLease MRS)) :
    QpTransport MRS SQ RQ CQ :=
  (qp.setInboundMemory lease).setInbound
    (some (.write reth.virtualAddress reth.remoteKey reth.dmaLength 0))

def sendWritten (psn : Psn) (work : RecvWorkRequest) (total : ℕ)
    (final : Bool) : QpTransport MRS SQ RQ CQ :=
  if final then ((qp.observe psn).setInbound none).nextMessage.receiveFinished work .success total
  else (qp.observe psn).setInbound (some (.send work total))

def writeWritten (psn : Psn) (address : UInt64) (rkey : UInt32)
    (length : UInt32) (total : ℕ) (final : Bool) : QpTransport MRS SQ RQ CQ :=
  if final then (((qp.observe psn).setInbound none).setInboundMemory none).nextMessage
  else (qp.observe psn).setInbound (some (.write address rkey length total))

def readAdmitted (lease : RegionLease MRS) (psn : Psn)
    (reth : Reth) : QpTransport MRS SQ RQ CQ :=
  { qp with
    readMemory := some lease
    receivePsn := ⟨qp.receivePsn.expected.wrappingAdd (packetCount reth.dmaLength qp.mtu)⟩
    messageSequenceNumber := qp.messageSequenceNumber.next
    readReplay := some (readResponseOf qp psn reth)
    readResponse := some (readResponseOf qp psn reth) }

end QpTransport

/-- `loaded` holds the receive work request that a SEND packet fills, at its current offset. -/
inductive LoadsSend (qp : QpTransport MRS SQ RQ CQ) :
    SegmentPosition → QpTransport MRS SQ RQ CQ → RecvWorkRequest → ℕ → Prop where
  /-- A first packet takes the head of the receive queue. -/
  | start {position posted queue} (hpos : position = .first ∨ position = .only)
      (hnone : qp.inboundMessage = none) (hpop : qp.receiveQueue.pop = some (posted, queue)) :
      LoadsSend qp position (qp.loadSend posted queue) posted.work 0
  /-- A later packet finds its message. -/
  | resume {position work written} (hpos : position = .middle ∨ position = .last)
      (hsome : qp.inboundMessage = some (.send work written)) :
      LoadsSend qp position qp work written

/-- `loaded` holds the remote range that a WRITE packet fills, at its current offset. -/
inductive LoadsWrite (qp : QpTransport MRS SQ RQ CQ) (memory : MemoryRegistry MRS)
    (reth : Option Reth) : SegmentPosition → QpTransport MRS SQ RQ CQ → UInt64 → UInt32 →
      UInt32 → ℕ → Prop where
  /-- A first packet names the range; only a message of several packets takes a lease. -/
  | start {position range lease} (hpos : position = .first ∨ position = .only)
      (hnone : qp.inboundMessage = none) (hreth : reth = some range)
      (hgrants : ∃ index slot, Grants memory .remote .remoteWriteOnly range.remoteKey
        range.virtualAddress.toNat range.dmaLength.toNat index slot)
      (hlease : lease.isSome = !position.isFinal)
      (hleased : position.isFinal = false → LeaseOn memory .remote range.remoteKey lease) :
      LoadsWrite qp memory reth position (qp.loadWrite range lease) range.virtualAddress
        range.remoteKey range.dmaLength 0
  /-- A later packet finds its message. -/
  | resume {position address rkey length written} (hpos : position = .middle ∨ position = .last)
      (hsome : qp.inboundMessage = some (.write address rkey length written)) :
      LoadsWrite qp memory reth position qp address rkey length written

/-- **Every outcome of handling a request packet.** -/
inductive RequestEffect (qp : QpTransport MRS SQ RQ CQ) (memory : MemoryRegistry MRS)
    (packet : PacketRef) :
    List (ℕ × List UInt8) → QpTransport MRS SQ RQ CQ → Option ControlReply → Prop where
  /-- A packet from the future is answered with a sequence NAK. -/
  | future (hpsn : qp.receivePsn.classify packet.bth.psn = .future) :
      RequestEffect qp memory packet [] qp (some (controlReply qp qp.receivePsn.expected
        (.psnNak qp.messageSequenceNumber.value)))
  /-- A duplicate SEND or WRITE is acknowledged again. -/
  | duplicate (hpsn : qp.receivePsn.classify packet.bth.psn = .duplicate)
      (hop : packet.bth.opcode ≠ .rdmaReadRequest) :
      RequestEffect qp memory packet [] qp (some (ackReply qp packet.bth.psn))
  /-- A duplicate READ other than the last one is put off. -/
  | replayNotReady (hpsn : qp.receivePsn.classify packet.bth.psn = .duplicate)
      (hop : packet.bth.opcode = .rdmaReadRequest) :
      RequestEffect qp memory packet [] qp (some (rnrReply qp packet.bth.psn))
  /-- The last READ is answered again. -/
  | replay {reth lease} (hpsn : qp.receivePsn.classify packet.bth.psn = .duplicate)
      (hop : packet.bth.opcode = .rdmaReadRequest) (hreth : packet.reth = some reth)
      (hgrants : ∃ index slot, Grants memory .remote .remoteReadOnly reth.remoteKey
        reth.virtualAddress.toNat reth.dmaLength.toNat index slot)
      (hreplay : qp.readReplay = some (readResponseOf qp packet.bth.psn reth))
      (hlease : lease.isSome) (hsame : qp.readMemory.isSome → lease = qp.readMemory)
      (hleased : qp.readMemory = none → LeaseOn memory .remote reth.remoteKey lease) :
      RequestEffect qp memory packet []
        ((qp.setReadMemory lease).setRead (some (readResponseOf qp packet.bth.psn reth))) none
  /-- A duplicate READ whose region is gone or saturated is fatal. -/
  | replayFatal {reth} (hpsn : qp.receivePsn.classify packet.bth.psn = .duplicate)
      (hop : packet.bth.opcode = .rdmaReadRequest) (hreth : packet.reth = some reth)
      (hreason : (∃ e, memory.validateRemoteRead reth.remoteKey reth.virtualAddress
        reth.dmaLength.toNat = .error e) ∨
        qp.readMemory = none ∧ ∃ e, memory.retainRemote reth.remoteKey = .error e) :
      RequestEffect qp memory packet [] qp.failed
        (some (nakReply qp packet.bth.psn Aeth.nakRemoteAccessError))
  /-- A SEND finds no receive work request. -/
  | sendNotReady (hpsn : qp.receivePsn.classify packet.bth.psn = .expected)
      (hop : packet.bth.opcode.operation = .send) (hempty : qp.receiveQueue.items = []) :
      RequestEffect qp memory packet [] qp (some (rnrReply qp packet.bth.psn))
  /-- A READ finds another one being answered. -/
  | readNotReady (hpsn : qp.receivePsn.classify packet.bth.psn = .expected)
      (hop : packet.bth.opcode = .rdmaReadRequest) (hbusy : qp.readResponse.isSome) :
      RequestEffect qp memory packet [] qp (some (rnrReply qp packet.bth.psn))
  /-- The request breaks the protocol or a protection rule. -/
  | fatal (syndrome : UInt8) (hpsn : qp.receivePsn.classify packet.bth.psn = .expected) :
      RequestEffect qp memory packet [] qp.failed (some (nakReply qp packet.bth.psn syndrome))
  /-- The first packet of a SEND does not fit its receive work request: the queue behind it is
  flushed first. -/
  | sendRejected {posted queue} (status : CompletionStatus) (syndrome : UInt8)
      (hpsn : qp.receivePsn.classify packet.bth.psn = .expected)
      (hop : packet.bth.opcode = .sendFirst ∨ packet.bth.opcode = .sendOnly)
      (hkey : packet.bth.partitionKey = Bth.defaultPkey)
      (hvalid : validRequestPayloadLength packet.bth.opcode.position packet.payload.length
        qp.mtu = true)
      (hnone : qp.inboundMessage = none) (hpop : qp.receiveQueue.pop = some (posted, queue))
      (hstatus : status ≠ .success)
      (hreason : (status = .localLengthError ∧
          posted.work.sge.length.toNat < packet.payload.length) ∨
        status = .localProtectionError ∧
          packet.payload.length ≤ posted.work.sge.length.toNat ∧
          ∃ e, memory.writeLocal posted.work.sge.lkey posted.work.sge.address packet.payload =
            .error e) :
      RequestEffect qp memory packet []
        (((qp.setReceives queue).setInboundMemory posted.lease).failed.receiveFinished
          posted.work status 0)
        (some (nakReply qp packet.bth.psn syndrome))
  /-- A later packet of a SEND does not fit its receive work request. -/
  | receiveFailed {work written} (status : CompletionStatus)
      (hpsn : qp.receivePsn.classify packet.bth.psn = .expected)
      (hsome : qp.inboundMessage = some (.send work written)) (hstatus : status ≠ .success)
      (hreason : status = .localLengthError ∨
        status = .localProtectionError ∧
          written + packet.payload.length ≤ work.sge.length.toNat ∧
          ∃ address e, checkedAdd work.sge.address written = some address ∧
            memory.writeLocal work.sge.lkey address packet.payload = .error e) :
      RequestEffect qp memory packet []
        ((qp.setInbound none).receiveFinished work status 0).failed
        (some (nakReply qp packet.bth.psn Aeth.nakInvalidRequest))
  /-- A SEND packet is written behind the bytes received so far. -/
  | send {loaded work written} (hpsn : qp.receivePsn.classify packet.bth.psn = .expected)
      (hop : packet.bth.opcode.operation = .send)
      (hload : LoadsSend qp packet.bth.opcode.position loaded work written)
      (hvalid : validRequestPayloadLength packet.bth.opcode.position packet.payload.length
        qp.mtu = true)
      (hfits : written + packet.payload.length ≤ work.sge.length.toNat)
      (hgrants : ∃ index slot, Grants memory .loc .localWriteOnly work.sge.lkey
        (work.sge.address.toNat + written) packet.payload.length index slot) :
      RequestEffect qp memory packet [(work.sge.address.toNat + written, packet.payload)]
        (loaded.sendWritten packet.bth.psn work (written + packet.payload.length)
          packet.bth.opcode.position.isFinal)
        (some (ackReply (loaded.sendWritten packet.bth.psn work
          (written + packet.payload.length) packet.bth.opcode.position.isFinal) packet.bth.psn))
  /-- A WRITE packet is written behind the bytes received so far. -/
  | write {loaded address rkey length written}
      (hpsn : qp.receivePsn.classify packet.bth.psn = .expected)
      (hop : packet.bth.opcode.operation = .write)
      (hload : LoadsWrite qp memory packet.reth packet.bth.opcode.position loaded address rkey
        length written)
      (hvalid : validRequestPayloadLength packet.bth.opcode.position packet.payload.length
        qp.mtu = true)
      (hfits : written + packet.payload.length ≤ length.toNat)
      (hfinal : packet.bth.opcode.position.isFinal = true ↔
        written + packet.payload.length = length.toNat)
      (hgrants : ∃ index slot, Grants memory .remote .remoteWriteOnly rkey
        (address.toNat + written) packet.payload.length index slot) :
      RequestEffect qp memory packet [(address.toNat + written, packet.payload)]
        (loaded.writeWritten packet.bth.psn address rkey length (written + packet.payload.length)
          packet.bth.opcode.position.isFinal)
        (some (ackReply (loaded.writeWritten packet.bth.psn address rkey length
          (written + packet.payload.length) packet.bth.opcode.position.isFinal) packet.bth.psn))
  /-- A READ is admitted. -/
  | read {reth} (lease : RegionLease MRS)
      (hpsn : qp.receivePsn.classify packet.bth.psn = .expected)
      (hop : packet.bth.opcode = .rdmaReadRequest) (hreth : packet.reth = some reth)
      (hinbound : qp.inboundMessage = none) (hread : qp.readResponse = none)
      (hgrants : ∃ index slot, Grants memory .remote .remoteReadOnly reth.remoteKey
        reth.virtualAddress.toNat reth.dmaLength.toNat index slot)
      (hleased : LeaseOn memory .remote reth.remoteKey (some lease)) :
      RequestEffect qp memory packet []
        (qp.readAdmitted lease packet.bth.psn reth) none

end Rocev2.Rc
