import Rocev2.Rc.Endpoint

/-!
# Scalar progress

`RcEndpoint::progress` of `rocev2/src/rc.rs`: one bounded unit of work, which services a timer,
transmits an owed reply, receives a packet or emits one data packet.

The packet backend is an oracle: `PollIo` holds what it does during one call.  A call transmits
at most once, so one flag says whether the backend accepts the packet.  The byte codec is
represented by the length checks of the encoder and by the decoder's verdict on the datagram.

The loops of the source pop a slot from a ready queue or an entry from the timer heap in every
iteration; each takes as fuel the number of entries it can pop.
-/

namespace Rocev2.Rc

open Rocev2.Core Rocev2.Wire

/-- Error of a progress call. -/
inductive PollError where
  | io
  | api (error : ApiError)
deriving DecidableEq

/-- What the backend returns for a receive call. -/
inductive ReceiveOutcome where
  /-- Backend failure. -/
  | ioError
  /-- No packet is available. -/
  | empty
  /-- A datagram of the given length with the strict decoder's verdict. -/
  | datagram (length : ℕ) (decoded : Option DecodedPacket)

/-- The backend during one scalar progress call. -/
structure PollIo where
  /-- Length of the receive buffer. -/
  receiveBuffer : ℕ
  /-- Length of the transmit buffer. -/
  transmitBuffer : ℕ
  /-- The result of the receive call. -/
  receive : ReceiveOutcome
  /-- Whether the backend accepts a transmitted packet. -/
  transmitOk : Bool

/-- Work performed by one progress call. -/
structure RcProgress where
  receivedPackets : ℕ := 0
  transmittedPackets : ℕ := 0
  completions : ℕ := 0
  retransmissions : ℕ := 0
deriving DecidableEq, Repr

/-- Result of an emission attempt. -/
structure EmitResult where
  transmitted : Bool := false
  completions : ℕ := 0
deriving DecidableEq, Repr

/-- A READ response that can be sent. -/
structure ReadyReadResponse (QPS : ℕ) where
  qpIndex : Fin QPS
  path : Ipv4Path
  remoteQpn : ℕ
  response : ReadResponseState
  messageSequenceNumber : Psn
  mtu : ℕ

def encodeIpv4Packet (packet : WirePacket) (output : ℕ) : Except ApiError ℕ :=
  let length := packet.encodedLength
  if 65535 < length then .error (.packetTooLarge length 65535)
  else if output < length then .error (.bufferTooShort length output)
  else if packet.validHeaders = false ∨ maxQpn < packet.bth.destinationQpn then .error .wire
  else .ok length

theorem encodeIpv4Packet_ne_ticks {packet : WirePacket} {output : ℕ} {error : ApiError}
    (h : encodeIpv4Packet packet output = .error error) : error ≠ .invalidTicksPerSecond := by
  unfold encodeIpv4Packet at h
  dsimp only at h
  split at h
  · cases h
    nofun
  split at h
  · cases h
    nofun
  split at h
  · cases h
    nofun
  · cases h

def controlPacket (reply : ControlReply) : WirePacket where
  path := reply.path
  bth := Bth.new .acknowledge reply.destinationQpn reply.psn
  reth := none
  aeth := some reply.aeth
  payload := []

def readResponseSegment (response : ReadResponseState) (mtu : ℕ) :
    Except ApiError (UInt64 × ℕ) :=
  match segmentBounds response.length mtu response.nextPacket with
  | none => .error .arithmeticOverflow
  | some (offset, length) =>
    match checkedAdd response.address offset with
    | none => .error .arithmeticOverflow
    | some address => .ok (address, length)

/-- The next packet of a READ response. -/
def readResponsePacket {QPS : ℕ} (ready : ReadyReadResponse QPS) (payload : List UInt8) :
    WirePacket :=
  let opcode :=
    segmentedOpcode .readResponse ready.response.nextPacket ready.response.packetCount
  { path := ready.path
    bth := Bth.new opcode ready.remoteQpn
      (ready.response.requestPsn.wrappingAdd ready.response.nextPacket)
    reth := none
    aeth := if opcode.hasAeth then some (.ack ready.messageSequenceNumber.value) else none
    payload := payload }

/-- Account for a transmitted READ response. -/
def advanceReadContext {MRS SQ RQ CQ : ℕ} (ctx : QpContext MRS SQ RQ CQ) :
    QpContext MRS SQ RQ CQ :=
  match ctx.qp.readResponse with
  | none => ctx
  | some active =>
    let active := { active with nextPacket := active.nextPacket + 1 }
    if active.nextPacket = active.packetCount then
      (ctx.setQp (ctx.qp.setRead none)).releaseRead
    else ctx.setQp (ctx.qp.setRead (some active))

/-- Rewind the active request after a receiver-not-ready delay. -/
def expireRnrWait {MRS SQ RQ CQ : ℕ} (ctx : QpContext MRS SQ RQ CQ) (active : ActiveRequest) :
    QpContext MRS SQ RQ CQ :=
  (ctx.setQp (ctx.qp.setActive (some active.resetForRetry))).setStats { ctx.stats with
    retransmissions := saturatingAdd ctx.stats.retransmissions 1 }

def handlePacket {MRS SQ RQ CQ : ℕ} (ctx : QpContext MRS SQ RQ CQ) (packet : PacketRef)
    (now ticksPerSecond : ℕ) : QpContext MRS SQ RQ CQ × HandlerResult :=
  if packet.bth.opcode.isRequest then handleRequestPacket ctx packet
  else handleResponsePacket ctx packet now ticksPerSecond

namespace RcEndpoint

variable {QPS MRS SQ RQ CQ IDX : ℕ}

variable (ep : RcEndpoint QPS MRS SQ RQ CQ IDX)

/-- Count a backend failure. -/
def countIoError : RcEndpoint QPS MRS SQ RQ CQ IDX :=
  { ep with stats := { ep.stats with ioErrors := saturatingAdd ep.stats.ioErrors 1 } }

/-- Count a packet rejected by the decoder. -/
def recordInvalidDrop : RcEndpoint QPS MRS SQ RQ CQ IDX :=
  { ep with stats := { ep.stats with
    invalidPackets := saturatingAdd ep.stats.invalidPackets 1
    droppedPackets := saturatingAdd ep.stats.droppedPackets 1 } }

/-- Count a decoded packet. -/
def recordReceive (length : ℕ) :
    RcEndpoint QPS MRS SQ RQ CQ IDX :=
  { ep with stats := { ep.stats with
    receivePackets := saturatingAdd ep.stats.receivePackets 1
    receiveBytes := saturatingAdd ep.stats.receiveBytes length } }

def recordTransmit (length : ℕ) :
    RcEndpoint QPS MRS SQ RQ CQ IDX :=
  { ep with stats := { ep.stats with
    transmitPackets := saturatingAdd ep.stats.transmitPackets 1
    transmitBytes := saturatingAdd ep.stats.transmitBytes length } }

/-- Count a transmitted reply by its class. -/
def recordControlTransmit (reply : ControlReply) :
    RcEndpoint QPS MRS SQ RQ CQ IDX :=
  match reply.aeth.classify with
  | .ack _ =>
    { ep with stats := { ep.stats with
      acknowledgements := saturatingAdd ep.stats.acknowledgements 1 } }
  | .rnrNak _ =>
    { ep with stats := { ep.stats with rnrNaks := saturatingAdd ep.stats.rnrNaks 1 } }
  | .nak _ | .reserved _ =>
    { ep with stats := { ep.stats with
      negativeAcknowledgements := saturatingAdd ep.stats.negativeAcknowledgements 1 } }

/-! ## Transmission -/

/-- Encode a packet and hand it to the backend. -/
def transmitPacket (io : PollIo) (packet : WirePacket) :
    RcEndpoint QPS MRS SQ RQ CQ IDX × Except PollError Unit :=
  match encodeIpv4Packet packet io.transmitBuffer with
  | .error e => (ep, .error (.api e))
  | .ok length =>
    if ep.config.maximumPacketSize < length then
      (ep, .error (.api (.packetTooLarge length ep.config.maximumPacketSize)))
    else
      let ep := { ep with offered := ep.offered ++ [packet] }
      if io.transmitOk then (ep.recordTransmit length, .ok ()) else (ep.countIoError, .error .io)

/-- Transmit the oldest owed reply. -/
def transmitPendingControl (io : PollIo) :
    RcEndpoint QPS MRS SQ RQ CQ IDX × Except PollError Bool :=
  match ep.pendingControl.pop with
  | none => (ep, .ok false)
  | some (reply, rest) =>
    match ep.transmitPacket io (controlPacket reply) with
    | (ep, .error e) => (ep, .error e)
    | (ep, .ok ()) =>
      ({ ep.recordControlTransmit reply with pendingControl := rest }.log (.replied reply),
        .ok true)

/-! ## Timers -/

/-- The phase whose timer an entry reports, when the entry is current. -/
def timerAction (index : Fin QPS) (entry : TimerEntry)
    (now : ℕ) : Option (RcQpSlot MRS SQ RQ CQ × ActiveRequest) :=
  match ep.qps index with
  | none => none
  | some slot =>
    if slot.generation ≠ entry.qpGeneration ∨ slot.timerSequence ≠ entry.sequence then none
    else
      match slot.activeRequest with
      | none => none
      | some active =>
        if slot.timerDeadline ≠ some entry.deadline ∨ active.timer.expired now = false then none
        else some (slot, active)

/-- React to an expired timer. -/
def expireTimer (index : Fin QPS)
    (slot : RcQpSlot MRS SQ RQ CQ) (active : ActiveRequest) :
    RcEndpoint QPS MRS SQ RQ CQ IDX × HandlerResult :=
  match active.phase with
  | .waiting =>
    let ep := { ep with stats := { ep.stats with
      timeoutEvents := saturatingAdd ep.stats.timeoutEvents 1 } }
    let retry := scheduleTransportRetry (ep.context slot)
    (ep.restore index slot retry.1, retry.2)
  | .rnrWait =>
    (ep.restore index slot (expireRnrWait (ep.context slot) active), { retransmissions := 1 })
  | .sending =>
    let active := { active with timer := .new }
    (ep.setSlot index { slot with activeRequest := some active }, {})

/-- Service at most `budget` expired timers. -/
def serviceTimersLoop (now : ℕ) :
    ℕ → ℕ → RcEndpoint QPS MRS SQ RQ CQ IDX → HandlerResult →
      RcEndpoint QPS MRS SQ RQ CQ IDX × HandlerResult
  | 0, _, ep, result => (ep, result)
  | _ + 1, 0, ep, result => (ep, result)
  | fuel + 1, budget + 1, ep, result =>
    match ep.timerScheduler.popExpired now with
    | none => (ep, result)
    | some (index, entry, timers) =>
      let ep := { ep with timerScheduler := timers }
      match ep.timerAction index entry now with
      | none => serviceTimersLoop now fuel (budget + 1) (ep.synchronizeQp index) result
      | some (slot, active) =>
        let retry := ep.expireTimer index slot active
        serviceTimersLoop now fuel budget (retry.1.synchronizeQp index)
          { result with
            completions := result.completions + retry.2.completions
            retransmissions := result.retransmissions + retry.2.retransmissions }

def serviceTimers (now budget : ℕ) :
    RcEndpoint QPS MRS SQ RQ CQ IDX × HandlerResult :=
  let serviced := serviceTimersLoop now (budget + ep.timerScheduler.len) budget ep {}
  (serviced.1.countCompletions serviced.2.completions, serviced.2)

/-! ## Reception -/

/-- Find the queue pair of a packet and run its handler. -/
def processIncomingState (now : ℕ)
    (decoded : DecodedPacket) :
    RcEndpoint QPS MRS SQ RQ CQ IDX × Except ApiError (Fin QPS × HandlerResult) :=
  let destinationQpn := decoded.transport.bth.destinationQpn
  match ep.qpnIndex.get destinationQpn with
  | none =>
    ({ ep with stats := { ep.stats with
        unknownQpPackets := saturatingAdd ep.stats.unknownQpPackets 1
        droppedPackets := saturatingAdd ep.stats.droppedPackets 1 } },
      .error (.unknownDestinationQpn destinationQpn))
  | some number =>
    if h : number < QPS then
      match ep.qps ⟨number, h⟩ with
      | none => (ep, .error .invalidQpHandle)
      | some slot =>
        if decoded.ipv4.source ≠ slot.path.destination ∨
            decoded.ipv4.destination ≠ slot.path.source then
          ({ ep with stats := { ep.stats with
              peerMismatchPackets := saturatingAdd ep.stats.peerMismatchPackets 1
              droppedPackets := saturatingAdd ep.stats.droppedPackets 1 } },
            .error (.peerAddressMismatch decoded.ipv4.source decoded.ipv4.destination))
        else if slot.machine.canReceive = false then
          ({ ep with stats := { ep.stats with
              qpNotReadyPackets := saturatingAdd ep.stats.qpNotReadyPackets 1
              droppedPackets := saturatingAdd ep.stats.droppedPackets 1 } },
            .error (.qpNotReady slot.machine.state))
        else
          let handled := handlePacket (ep.context slot) decoded.transport now
            ep.config.ticksPerSecond
          let arrival := ⟨number, slot.toQpTransport, decoded.transport, handled.2.reply⟩
          ({ ep.restore ⟨number, h⟩ slot handled.1 with arrivals := ep.arrivals ++ [arrival] },
            .ok (⟨number, h⟩, handled.2))
    else (ep, .error .invalidQpHandle)

/-- Whether an error only means that the packet is not for a ready queue pair. -/
def isIgnored : ApiError → Bool
  | .unknownDestinationQpn _ | .peerAddressMismatch _ _ | .qpNotReady _ => true
  | _ => false

def processIncoming (now : ℕ) (decoded : DecodedPacket) :
    RcEndpoint QPS MRS SQ RQ CQ IDX × Except ApiError (Option HandlerResult) :=
  match ep.processIncomingState now decoded with
  | (ep, .error e) => if isIgnored e then (ep, .ok none) else (ep, .error e)
  | (ep, .ok (index, result)) =>
    ((ep.synchronizeQp index).countCompletions result.completions, .ok (some result))

/-! ## Data packets -/

/-- Take the next READ response that can be sent. -/
def dequeueReadResponse :
    ℕ → RcEndpoint QPS MRS SQ RQ CQ IDX →
      RcEndpoint QPS MRS SQ RQ CQ IDX × Option (ReadyReadResponse QPS)
  | 0, ep => (ep, none)
  | fuel + 1, ep =>
    match ep.responderReady.pop with
    | none => (ep, none)
    | some (index, queue) =>
      let ep := { ep with responderReady := queue }.log
        (.taken .responder index queue.slots (ep.runnable .requester))
      match ep.qps index with
      | none => dequeueReadResponse fuel ((ep.log (.returned .responder index)).synchronizeQp index)
      | some slot =>
        let slot := { slot with responderScheduled := false }
        let ep := ep.setSlot index slot
        match slot.readResponse, slot.responderIsRunnable with
        | some response, true =>
          (ep, some
            { qpIndex := index
              path := slot.path
              remoteQpn := slot.machine.config.remoteQpn
              response := response
              messageSequenceNumber := slot.messageSequenceNumber
              mtu := slot.mtu })
        | _, _ =>
          dequeueReadResponse fuel ((ep.log (.returned .responder index)).synchronizeQp index)

/-- Move a queue pair whose READ response cannot be read to the error state. -/
def failReadResponder (index : Fin QPS) :
    RcEndpoint QPS MRS SQ RQ CQ IDX × EmitResult :=
  let ep := ep.log (.faulted .responder index)
  match ep.qps index with
  | none => (ep.synchronizeQp index, {})
  | some slot =>
    let entered := (ep.context slot).enterError
    (((ep.restore index slot entered.1).synchronizeQp index).countCompletions entered.2,
      { completions := entered.2 })

def advanceReadResponse (index : Fin QPS) :
    RcEndpoint QPS MRS SQ RQ CQ IDX × Except ApiError Unit :=
  match ep.qps index with
  | none => (ep, .error .invalidQpHandle)
  | some slot =>
    let ep := ep.log (.accepted .responder index slot.toQpTransport)
    ((ep.restore index slot (advanceReadContext (ep.context slot))).synchronizeQp index, .ok ())

/-- Emit one READ response packet. -/
def emitReadResponse (io : PollIo) :
    RcEndpoint QPS MRS SQ RQ CQ IDX × Except PollError EmitResult :=
  match dequeueReadResponse ep.responderReady.len ep with
  | (ep, none) => (ep, .ok {})
  | (ep, some ready) =>
    match readResponseSegment ready.response ready.mtu with
    | .error e =>
      ((ep.log (.returned .responder ready.qpIndex)).synchronizeQp ready.qpIndex, .error (.api e))
    | .ok (address, length) =>
      match ep.memory.readRemote ready.response.rkey address length with
      | .error _ =>
        let failed := ep.failReadResponder ready.qpIndex
        (failed.1, .ok failed.2)
      | .ok payload =>
        match ep.transmitPacket io (readResponsePacket ready payload) with
        | (ep, .error e) =>
          ((ep.log (.returned .responder ready.qpIndex)).synchronizeQp ready.qpIndex, .error e)
        | (ep, .ok ()) =>
          match ep.advanceReadResponse ready.qpIndex with
          | (ep, .error e) => (ep, .error (.api e))
          | (ep, .ok ()) => (ep, .ok { transmitted := true })

/-- Emit one requester packet; `generated` counts the completions of failed requests. -/
def emitRequesterLoop (now : ℕ) (io : PollIo) :
    ℕ → RcEndpoint QPS MRS SQ RQ CQ IDX → ℕ →
      RcEndpoint QPS MRS SQ RQ CQ IDX × Except PollError EmitResult
  | 0, ep, generated => (ep.countCompletions generated, .ok { completions := generated })
  | fuel + 1, ep, generated =>
    match ep.requesterReady.pop with
    | none => (ep.countCompletions generated, .ok { completions := generated })
    | some (index, queue) =>
      let ep := { ep with requesterReady := queue }.log
        (.taken .requester index queue.slots (ep.runnable .responder))
      match ep.qps index with
      | none => emitRequesterLoop now io fuel (ep.log (.returned .requester index)) generated
      | some slot =>
        let slot := { slot with
          requesterScheduled := false
          toQpTransport := startNextRequest slot.toQpTransport ep.config.ticksPerSecond }
        let ep := ep.setSlot index slot
        match slot.activeRequest with
        | none =>
          emitRequesterLoop now io fuel
            ((ep.log (.returned .requester index)).synchronizeQp index) generated
        | some active =>
          if active.phase ≠ .sending then
            emitRequesterLoop now io fuel
              ((ep.log (.returned .requester index)).synchronizeQp index) generated
          else
            let config := slot.machine.config
            match ackTimeoutTicks config.timeout ep.config.ticksPerSecond with
            | none => (ep.log (.returned .requester index), .error (.api .invalidTicksPerSecond))
            | some timeoutTicks =>
              match buildRequestPacket ep.memory active config.pathMtu.bytes config.remoteQpn
                  slot.path with
              | .error .arithmeticOverflow =>
                (((ep.log (.returned .requester index)).synchronizeQp index).countCompletions
                    generated,
                  .error (.api .arithmeticOverflow))
              | .error .localProtection =>
                let ep := ep.log (.faulted .requester index)
                let failed := failActiveAndError (ep.context slot) .localProtectionError
                emitRequesterLoop now io fuel
                  ((ep.restore index slot failed.1).synchronizeQp index) (generated + failed.2)
              | .ok packet =>
                match ep.transmitPacket io packet with
                | (ep, .error e) =>
                  (((ep.log (.returned .requester index)).synchronizeQp index).countCompletions
                      generated,
                    .error e)
                | (ep, .ok ()) =>
                  let ep := ep.log (.accepted .requester index slot.toQpTransport)
                  let slot := { slot with
                    toQpTransport := markRequestPacketSent slot.toQpTransport now timeoutTicks }
                  (((ep.setSlot index slot).synchronizeQp index).countCompletions generated,
                    .ok { transmitted := true, completions := generated })

def emitRequester (now : ℕ) (io : PollIo) :
    RcEndpoint QPS MRS SQ RQ CQ IDX × Except PollError EmitResult :=
  emitRequesterLoop now io ep.requesterReady.len ep 0

def emitDataClass (kind : DataTxClass) (now : ℕ)
    (io : PollIo) : RcEndpoint QPS MRS SQ RQ CQ IDX × Except PollError EmitResult :=
  match kind with
  | .requester => ep.emitRequester now io
  | .responder => ep.emitReadResponse io

/-- Emit one data packet, alternating between the classes. -/
def emitDataPacket (now : ℕ) (io : PollIo) :
    RcEndpoint QPS MRS SQ RQ CQ IDX × Except PollError EmitResult :=
  let first := ep.nextDataTxClass
  let second := first.other
  match ep.emitDataClass first now io with
  | (ep, .error e) => (ep, .error e)
  | (ep, .ok result) =>
    if result.transmitted then ({ ep with nextDataTxClass := second }, .ok result)
    else
      match ep.emitDataClass second now io with
      | (ep, .error e) => (ep, .error e)
      | (ep, .ok fallback) =>
        let ep := if fallback.transmitted then { ep with nextDataTxClass := first } else ep
        (ep, .ok
          { transmitted := fallback.transmitted
            completions := result.completions + fallback.completions })

/-! ## One call -/

/-- Emit a data packet after reception and report the progress made. -/
def finishProgress (now : ℕ) (io : PollIo)
    (progress : RcProgress) : RcEndpoint QPS MRS SQ RQ CQ IDX × Except PollError RcProgress :=
  match ep.emitDataPacket now io with
  | (ep, .error e) => (ep, .error e)
  | (ep, .ok result) =>
    (ep, .ok { progress with
      completions := progress.completions + result.completions
      transmittedPackets :=
        if result.transmitted then 1 else progress.transmittedPackets })

/-- Owe a reply; a full queue drops it. -/
def queueReply (reply : ControlReply) :
    RcEndpoint QPS MRS SQ RQ CQ IDX :=
  match ep.pendingControl.push reply with
  | .ok ring => { ep with pendingControl := ring }
  | .error _ => ep

/-- Process a received packet, then reply to it or emit a data packet. -/
def progressPacket (now : ℕ) (io : PollIo)
    (progress : RcProgress) (decoded : DecodedPacket) :
    RcEndpoint QPS MRS SQ RQ CQ IDX × Except PollError RcProgress :=
  match ep.processIncoming now decoded with
  | (ep, .error e) => (ep, .error (.api e))
  | (ep, .ok none) => ep.finishProgress now io progress
  | (ep, .ok (some result)) =>
    let progress := { progress with
      completions := progress.completions + result.completions
      retransmissions := progress.retransmissions + result.retransmissions }
    match result.reply with
    | none => ep.finishProgress now io progress
    | some reply =>
      match (ep.queueReply reply).transmitPendingControl io with
      | (ep, .error e) => (ep, .error e)
      | (ep, .ok true) => (ep, .ok { progress with transmittedPackets := 1 })
      | (ep, .ok false) => ep.finishProgress now io progress

/-- Receive at most one packet. -/
def progressReceive (now : ℕ) (io : PollIo)
    (progress : RcProgress) : RcEndpoint QPS MRS SQ RQ CQ IDX × Except PollError RcProgress :=
  match io.receive with
  | .ioError => (ep.countIoError, .error .io)
  | .empty => ep.finishProgress now io progress
  | .datagram length decoded =>
    if io.receiveBuffer < length then (ep, .error (.api .packetIoContractViolation))
    else
      let progress := { progress with receivedPackets := 1 }
      if ep.config.maximumPacketSize < length then
        ep.recordInvalidDrop.finishProgress now io progress
      else
        match decoded with
        | none => ep.recordInvalidDrop.finishProgress now io progress
        | some decoded => (ep.recordReceive length).progressPacket now io progress decoded

/-- Make one bounded, nonblocking unit of transport progress. -/
def progress (now : ℕ) (io : PollIo) :
    RcEndpoint QPS MRS SQ RQ CQ IDX × Except PollError RcProgress :=
  if io.receiveBuffer < ep.config.maximumPacketSize then
    (ep, .error (.api (.bufferTooShort ep.config.maximumPacketSize io.receiveBuffer)))
  else if io.transmitBuffer < ep.config.maximumPacketSize then
    (ep, .error (.api (.bufferTooShort ep.config.maximumPacketSize io.transmitBuffer)))
  else
    let timers := ep.serviceTimers now 1
    let progress : RcProgress :=
      { completions := timers.2.completions, retransmissions := timers.2.retransmissions }
    match timers.1.transmitPendingControl io with
    | (ep, .error e) => (ep, .error e)
    | (ep, .ok true) => (ep, .ok { progress with transmittedPackets := 1 })
    | (ep, .ok false) => ep.progressReceive now io progress

end RcEndpoint

end Rocev2.Rc
