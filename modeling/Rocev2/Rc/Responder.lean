import Rocev2.Rc.Slot

/-!
# The responder

The half of the engine (`rocev2/src/rc.rs`) that executes the peer's requests: classification by
sequence number, reassembly of SEND and WRITE messages into registered memory, and admission and
replay of RDMA READ.

A request that breaks the protocol moves the queue pair to the error state and is answered with a
NAK that is built before the flush, from the counters as they were.
-/

namespace Rocev2.Rc

open Rocev2.Core Rocev2.Wire Rocev2.Memory

variable {MRS SQ RQ CQ : ℕ}

variable (qp : QpTransport MRS SQ RQ CQ)

/-- A reply to the peer of a queue pair. -/
def controlReply (psn : Psn) (aeth : Aeth) : ControlReply :=
  ⟨qp.path, qp.machine.config.remoteQpn, psn, aeth⟩

def ackReply (psn : Psn) : ControlReply :=
  controlReply qp psn (.ack qp.messageSequenceNumber.value)

def nakReply (psn : Psn) (syndrome : UInt8) : ControlReply :=
  controlReply qp psn ⟨syndrome, qp.messageSequenceNumber.value⟩

/-- A receiver-not-ready NAK. -/
def rnrReply (psn : Psn) : ControlReply :=
  controlReply qp psn (.rnrNak qp.messageSequenceNumber.value qp.rnrNakTimer)

def validRequestPayloadLength (position : SegmentPosition) (length mtu : ℕ) : Bool :=
  match position with
  | .first | .middle => length = mtu
  | .last | .only => length ≤ mtu

def payloadLength (packet : PacketRef) : ℕ := min packet.payload.length (2 ^ 32 - 1)

variable (ctx : QpContext MRS SQ RQ CQ)

def fatalRequestError (psn : Psn) (syndrome : UInt8) :
    QpContext MRS SQ RQ CQ × HandlerResult :=
  let entered := ctx.enterError
  (entered.1, { reply := some (nakReply ctx.qp psn syndrome), completions := entered.2 })

def failReceiveMessage (psn : Psn) (status : CompletionStatus) :
    QpContext MRS SQ RQ CQ × HandlerResult :=
  let failed := ctx.finishInbound status
  let entered := failed.1.enterError
  (entered.1,
    { reply := some (nakReply ctx.qp psn Aeth.nakInvalidRequest)
      completions := failed.2 + entered.2 })

/-- Answer with an RNR NAK and do nothing else. -/
def notReady (psn : Psn) :
    QpContext MRS SQ RQ CQ × HandlerResult :=
  (ctx, { reply := some (rnrReply ctx.qp psn) })

/-- Advance the expected PSN past one packet. -/
def QpTransport.observe (psn : Psn) : QpTransport MRS SQ RQ CQ :=
  { qp with receivePsn := (qp.receivePsn.observe psn).1 }

/-- Count a completed message. -/
def QpTransport.nextMessage : QpTransport MRS SQ RQ CQ :=
  { qp with messageSequenceNumber := qp.messageSequenceNumber.next }

/-! ## SEND -/

/-- Enter the error state, then complete the receive work request `work` with `status`; the queue
behind `work` has been flushed by then. -/
def rejectSend (psn : Psn) (work : RecvWorkRequest)
    (syndrome : UInt8) (status : CompletionStatus) : QpContext MRS SQ RQ CQ × HandlerResult :=
  let fatal := fatalRequestError ctx psn syndrome
  let failed := fatal.1.finishReceive work status 0
  (failed.1, { fatal.2 with completions := fatal.2.completions + failed.2 })

/-- Account for a SEND packet that was written, after which the message has `total` bytes. -/
def acceptSend (psn : Psn) (work : RecvWorkRequest) (total : ℕ)
    (final : Bool) : QpContext MRS SQ RQ CQ × HandlerResult :=
  let qp := ctx.qp.observe psn
  if final then
    let finished := (ctx.setQp (qp.setInbound none).nextMessage).finishReceive work .success total
    (finished.1, { reply := some (ackReply finished.1.qp psn), completions := finished.2 })
  else
    (ctx.setQp (qp.setInbound (some (.send work total))), { reply := some (ackReply qp psn) })

/-- Accept the first or only packet of a SEND into the head of the receive queue. -/
def handleSendStart (packet : PacketRef) (psn : Psn)
    (position : SegmentPosition) : QpContext MRS SQ RQ CQ × HandlerResult :=
  if ctx.qp.inboundMessage.isSome then fatalRequestError ctx psn Aeth.nakInvalidRequest
  else
    match ctx.qp.receiveQueue.pop with
    | none => notReady ctx psn
    | some (posted, queue) =>
      let work := posted.work
      let ctx := ctx.setQp ((ctx.qp.setReceives queue).setInboundMemory posted.lease)
      if work.sge.length.toNat < packet.payload.length then
        rejectSend ctx psn work Aeth.nakInvalidRequest .localLengthError
      else
        match ctx.memory.writeLocal work.sge.lkey work.sge.address packet.payload with
        | .error _ => rejectSend ctx psn work Aeth.nakRemoteOperationError .localProtectionError
        | .ok memory =>
          acceptSend (ctx.setMemory memory) psn work (payloadLength packet) (position = .only)

/-- Accept a middle or last packet of a SEND. -/
def handleSendContinuation (packet : PacketRef) (psn : Psn)
    (position : SegmentPosition) : QpContext MRS SQ RQ CQ × HandlerResult :=
  match ctx.qp.inboundMessage with
  | some (.send work bytesWritten) =>
    let newTotal := bytesWritten + payloadLength packet
    if 2 ^ 32 ≤ newTotal then failReceiveMessage ctx psn .localLengthError
    else if work.sge.length.toNat < newTotal then failReceiveMessage ctx psn .localLengthError
    else
      match checkedAdd work.sge.address bytesWritten with
      | none => failReceiveMessage ctx psn .localLengthError
      | some address =>
        match ctx.memory.writeLocal work.sge.lkey address packet.payload with
        | .error _ => failReceiveMessage ctx psn .localProtectionError
        | .ok memory => acceptSend (ctx.setMemory memory) psn work newTotal (position = .last)
  | some (.write _ _ _ _) | none => fatalRequestError ctx psn Aeth.nakInvalidRequest

/-- Handle an in-order SEND packet. -/
def handleSendRequest (packet : PacketRef) (psn : Psn) :
    QpContext MRS SQ RQ CQ × HandlerResult :=
  let position := packet.bth.opcode.position
  if validRequestPayloadLength position packet.payload.length ctx.qp.mtu = false then
    fatalRequestError ctx psn Aeth.nakInvalidRequest
  else
    match position with
    | .only | .first => handleSendStart ctx packet psn position
    | .middle | .last => handleSendContinuation ctx packet psn position

/-! ## RDMA WRITE -/

/-- Whether the first packet of a WRITE carries as much as its RETH announces. -/
def validWriteStart (position : SegmentPosition) (length total : ℕ) : Bool :=
  match position with
  | .only => length = total
  | .first => length < total
  | .middle | .last => false

/-- Take a reference to the range of a WRITE of several packets. -/
def retainWrite (rkey : UInt32) (position : SegmentPosition) :
    Except MemoryError (QpContext MRS SQ RQ CQ) :=
  if position = .first then
    match ctx.memory.retainRemote rkey with
    | .error e => .error e
    | .ok (lease, memory) =>
      .ok ((ctx.setMemory memory).setQp (ctx.qp.setInboundMemory (some lease)))
  else .ok ctx

/-- Accept the first or only packet of a WRITE. -/
def handleWriteStart (packet : PacketRef) (psn : Psn)
    (position : SegmentPosition) : QpContext MRS SQ RQ CQ × HandlerResult :=
  if ctx.qp.inboundMessage.isSome then fatalRequestError ctx psn Aeth.nakInvalidRequest
  else
    match packet.reth with
    | none => fatalRequestError ctx psn Aeth.nakInvalidRequest
    | some reth =>
      if validWriteStart position (payloadLength packet) reth.dmaLength.toNat = false then
        fatalRequestError ctx psn Aeth.nakInvalidRequest
      else
        match ctx.memory.validateRemoteWrite reth.remoteKey reth.virtualAddress
            reth.dmaLength.toNat with
        | .error _ => fatalRequestError ctx psn Aeth.nakRemoteAccessError
        | .ok () =>
          match retainWrite ctx reth.remoteKey position with
          | .error _ => fatalRequestError ctx psn Aeth.nakRemoteAccessError
          | .ok ctx =>
            match ctx.memory.writeRemote reth.remoteKey reth.virtualAddress packet.payload with
            | .error _ => fatalRequestError ctx psn Aeth.nakRemoteAccessError
            | .ok memory =>
              let qp := ctx.qp.observe psn
              let qp :=
                if position = .only then qp.nextMessage
                else qp.setInbound (some (.write reth.virtualAddress reth.remoteKey
                  reth.dmaLength (payloadLength packet)))
              ((ctx.setMemory memory).setQp qp, { reply := some (ackReply qp psn) })

/-- Whether a later packet of a WRITE ends the message exactly when it should. -/
def validWriteContinuation (position : SegmentPosition) (newTotal total : ℕ) : Bool :=
  match position with
  | .middle => newTotal < total
  | .last => newTotal = total
  | .first | .only => false

/-- Account for a later WRITE packet that was written. -/
def acceptWrite (psn : Psn) (message : InboundMessage)
    (final : Bool) : QpContext MRS SQ RQ CQ × HandlerResult :=
  let qp := ctx.qp.observe psn
  if final then
    let released := (ctx.setQp (qp.setInbound none)).releaseInbound
    let qp := released.qp.nextMessage
    (released.setQp qp, { reply := some (ackReply qp psn) })
  else (ctx.setQp (qp.setInbound (some message)), { reply := some (ackReply qp psn) })

/-- Accept a middle or last packet of a WRITE. -/
def handleWriteContinuation (packet : PacketRef) (psn : Psn)
    (position : SegmentPosition) : QpContext MRS SQ RQ CQ × HandlerResult :=
  match ctx.qp.inboundMessage with
  | some (.write address rkey totalLength bytesWritten) =>
    let newTotal := bytesWritten + payloadLength packet
    if 2 ^ 32 ≤ newTotal then fatalRequestError ctx psn Aeth.nakInvalidRequest
    else if validWriteContinuation position newTotal totalLength.toNat = false then
      fatalRequestError ctx psn Aeth.nakInvalidRequest
    else
      match checkedAdd address bytesWritten with
      | none => fatalRequestError ctx psn Aeth.nakRemoteAccessError
      | some segmentAddress =>
        match ctx.memory.writeRemote rkey segmentAddress packet.payload with
        | .error _ => fatalRequestError ctx psn Aeth.nakRemoteAccessError
        | .ok memory =>
          acceptWrite (ctx.setMemory memory) psn (.write address rkey totalLength newTotal)
            (position = .last)
  | some (.send _ _) | none => fatalRequestError ctx psn Aeth.nakInvalidRequest

/-- Handle an in-order WRITE packet. -/
def handleWriteRequest (packet : PacketRef) (psn : Psn) :
    QpContext MRS SQ RQ CQ × HandlerResult :=
  let position := packet.bth.opcode.position
  if validRequestPayloadLength position packet.payload.length ctx.qp.mtu = false then
    fatalRequestError ctx psn Aeth.nakInvalidRequest
  else
    match position with
    | .only | .first => handleWriteStart ctx packet psn position
    | .middle | .last => handleWriteContinuation ctx packet psn position

/-! ## RDMA READ -/

def readResponseOf (psn : Psn) (reth : Reth) :
    ReadResponseState where
  requestPsn := psn
  address := reth.virtualAddress
  rkey := reth.remoteKey
  length := reth.dmaLength
  packetCount := packetCount reth.dmaLength qp.mtu
  nextPacket := 0

/-- Admit an in-order READ request. -/
def handleReadRequest (packet : PacketRef) (psn : Psn) :
    QpContext MRS SQ RQ CQ × HandlerResult :=
  if ctx.qp.inboundMessage.isSome then fatalRequestError ctx psn Aeth.nakInvalidRequest
  else if ctx.qp.readResponse.isSome then notReady ctx psn
  else
    match packet.reth with
    | none => fatalRequestError ctx psn Aeth.nakInvalidRequest
    | some reth =>
      match ctx.memory.validateRemoteRead reth.remoteKey reth.virtualAddress
          reth.dmaLength.toNat with
      | .error _ => fatalRequestError ctx psn Aeth.nakRemoteAccessError
      | .ok () =>
        match ctx.memory.retainRemote reth.remoteKey with
        | .error _ => fatalRequestError ctx psn Aeth.nakRemoteAccessError
        | .ok (lease, memory) =>
          let response := readResponseOf ctx.qp psn reth
          let qp := ctx.qp.setReadMemory (some lease)
          let qp := { qp with
            receivePsn := (qp.receivePsn.observeSpan psn response.packetCount).1 }.nextMessage
          let qp := (qp.setReplay (some response)).setRead (some response)
          ((ctx.setMemory memory).setQp qp, {})

/-- Take a reference to the range of a replayed READ unless the slot still holds one. -/
def retainReplay (rkey : UInt32) :
    Except MemoryError (QpContext MRS SQ RQ CQ) :=
  if ctx.qp.readMemory.isNone then
    match ctx.memory.retainRemote rkey with
    | .error e => .error e
    | .ok (lease, memory) =>
      .ok ((ctx.setMemory memory).setQp (ctx.qp.setReadMemory (some lease)))
  else .ok ctx

/-- Answer a repeated READ request again. -/
def replayReadRequest (packet : PacketRef) (psn : Psn) :
    QpContext MRS SQ RQ CQ × HandlerResult :=
  match packet.reth with
  | none => fatalRequestError ctx psn Aeth.nakInvalidRequest
  | some reth =>
    let replay := readResponseOf ctx.qp psn reth
    match ctx.memory.validateRemoteRead reth.remoteKey reth.virtualAddress
        reth.dmaLength.toNat with
    | .error _ => fatalRequestError ctx psn Aeth.nakRemoteAccessError
    | .ok () =>
      if ctx.qp.readReplay ≠ some replay ∨
          ctx.qp.readResponse.any (fun active ↦ active.requestPsn ≠ psn) then
        notReady ctx psn
      else
        match retainReplay ctx replay.rkey with
        | .error _ => fatalRequestError ctx psn Aeth.nakRemoteAccessError
        | .ok ctx => (ctx.setQp (ctx.qp.setRead (some replay)), {})

/-! ## Dispatch -/

/-- Execute a request packet that carries the expected PSN. -/
def handleExpected (packet : PacketRef) (psn : Psn) :
    QpContext MRS SQ RQ CQ × HandlerResult :=
  if packet.bth.partitionKey ≠ Bth.defaultPkey then
    fatalRequestError ctx psn Aeth.nakInvalidRequest
  else
    match packet.bth.opcode with
    | .sendOnly | .sendFirst | .sendMiddle | .sendLast => handleSendRequest ctx packet psn
    | .rdmaWriteOnly | .rdmaWriteFirst | .rdmaWriteMiddle | .rdmaWriteLast =>
      handleWriteRequest ctx packet psn
    | .rdmaReadRequest => handleReadRequest ctx packet psn
    | .sendLastWithImmediate | .sendOnlyWithImmediate | .rdmaWriteLastWithImmediate
    | .rdmaWriteOnlyWithImmediate | .rdmaReadResponseFirst | .rdmaReadResponseMiddle
    | .rdmaReadResponseLast | .rdmaReadResponseOnly | .acknowledge =>
      fatalRequestError ctx psn Aeth.nakInvalidRequest

/-- Handle a packet sent by a requester. -/
def handleRequestPacket (packet : PacketRef) :
    QpContext MRS SQ RQ CQ × HandlerResult :=
  let receivedPsn := packet.bth.psn
  match ctx.qp.receivePsn.classify receivedPsn with
  | .future =>
    (ctx.setStats { ctx.stats with
        sequenceErrors := saturatingAdd ctx.stats.sequenceErrors 1 },
      { reply := some (controlReply ctx.qp ctx.qp.receivePsn.expected
          (.psnNak ctx.qp.messageSequenceNumber.value)) })
  | .duplicate =>
    let ctx := ctx.setStats { ctx.stats with
      duplicateRequests := saturatingAdd ctx.stats.duplicateRequests 1 }
    if packet.bth.opcode = .rdmaReadRequest then replayReadRequest ctx packet receivedPsn
    else (ctx, { reply := some (ackReply ctx.qp receivedPsn) })
  | .expected => handleExpected ctx packet receivedPsn

end Rocev2.Rc
