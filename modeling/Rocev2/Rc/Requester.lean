import Rocev2.Rc.Slot

/-!
# The requester

The half of the engine (`rocev2/src/rc.rs`) that executes send-queue work: starting the next
request, building and accounting for its packets, restarting it after a timeout or a NAK, and
handling the ACKs and READ responses of the peer.

Every function is translated branch by branch.  A function that borrows a slot, the registry and
the counters takes and returns a `QpContext`.
-/

namespace Rocev2.Rc

open Rocev2.Core Rocev2.Wire Rocev2.Memory

variable {MRS SQ RQ CQ : ℕ}

/-- The local ACK timeout, or the largest tick count when it is not representable. -/
def timeoutOrMax (config : QpConfig) (ticksPerSecond : ℕ) : ℕ :=
  (ackTimeoutTicks config.timeout ticksPerSecond).getD (2 ^ 64 - 1)

/-- A request of `count` packets before its first packet. -/
def ActiveRequest.start (work : WorkRequest) (firstPsn : Psn) (count : ℕ) (policy : RetryPolicy) :
    ActiveRequest where
  work := work
  firstPsn := firstPsn
  lastPsn := firstPsn.wrappingAdd (count - 1)
  packetCount := count
  nextPacket := 0
  transmittedPackets := 0
  readPacketsReceived := 0
  bytesReceived := 0
  retryBudget := .new policy
  timer := .new
  phase := .sending
  sent := []
  delays := []
  retried := 0

/-- Move the head of the send queue into the active slot. -/
def startNextRequest (qp : QpTransport MRS SQ RQ CQ) (ticksPerSecond : ℕ) :
    QpTransport MRS SQ RQ CQ :=
  if qp.activeRequest.isSome ∨ qp.machine.canSend = false then qp
  else
    match qp.sendQueue.front with
    | none => qp
    | some front =>
      let work := front.work
      let config := qp.machine.config
      let count := packetCount work.sge.length config.pathMtu.bytes
      match qp.sendWindow.reserveMany count with
      | (_, none) => qp
      | (window, some firstPsn) =>
        let qp := qp.setWindow window
        match RetryPolicy.new config.retryCount config.rnrRetryCount
            (timeoutOrMax config ticksPerSecond) with
        | none => qp
        | some policy =>
          match qp.sendQueue.pop with
          | none => qp
          | some (posted, queue) =>
            ((qp.setSends queue).setActiveMemory posted.lease).setActive
              (some (.start work firstPsn count policy))

/-- Failure to build a request packet. -/
inductive RequestPacketError where
  | arithmeticOverflow
  | localProtection
deriving DecidableEq, Repr

def readLocalSegment (memory : MemoryRegistry MRS) (work : WorkRequest) (offset length : ℕ) :
    Except MemoryError (List UInt8) :=
  match checkedAdd work.sge.address offset with
  | none => .error .addressOverflow
  | some address => memory.readLocal work.sge.lkey address length

def transferOf : WorkRequestKind → Option (TransferDirection × Option (UInt64 × UInt32))
  | .send => some (.send, none)
  | .rdmaWrite remoteAddress rkey => some (.write, some (remoteAddress, rkey))
  | .rdmaRead _ _ => none

def readRequestPacket (active : ActiveRequest) (remoteAddress : UInt64) (rkey : UInt32)
    (remoteQpn : ℕ) (path : Ipv4Path) : WirePacket where
  path := path
  bth := { Bth.new .rdmaReadRequest remoteQpn active.firstPsn with ackRequest := true }
  reth := some ⟨remoteAddress, rkey, active.work.sge.length⟩
  aeth := none
  payload := []

/-- The next packet of a SEND or WRITE, carrying `payload`. -/
def segmentPacket (active : ActiveRequest) (direction : TransferDirection)
    (remote : Option (UInt64 × UInt32)) (remoteQpn : ℕ) (path : Ipv4Path)
    (payload : List UInt8) : WirePacket where
  path := path
  bth :=
    { Bth.new (segmentedOpcode direction active.nextPacket active.packetCount) remoteQpn
        (active.firstPsn.wrappingAdd active.nextPacket) with
      ackRequest := decide (active.nextPacket + 1 = active.packetCount) }
  reth :=
    match remote with
    | some (remoteAddress, rkey) =>
      if active.nextPacket = 0 then some ⟨remoteAddress, rkey, active.work.sge.length⟩ else none
    | none => none
  aeth := none
  payload := payload

/-- Build the next packet of the active request. -/
def buildRequestPacket (memory : MemoryRegistry MRS) (active : ActiveRequest) (mtu remoteQpn : ℕ)
    (path : Ipv4Path) : Except RequestPacketError WirePacket :=
  match active.work.kind with
  | .rdmaRead remoteAddress rkey =>
    .ok (readRequestPacket active remoteAddress rkey remoteQpn path)
  | kind =>
    match transferOf kind, segmentBounds active.work.sge.length mtu active.nextPacket with
    | some (direction, remote), some (offset, length) =>
      match readLocalSegment memory active.work offset length with
      | .error _ => .error .localProtection
      | .ok payload => .ok (segmentPacket active direction remote remoteQpn path payload)
    | _, _ => .error .arithmeticOverflow

/-- Account for a transmitted packet of a request. -/
def ActiveRequest.packetSent (current : ActiveRequest) (now timeoutTicks : ℕ) : ActiveRequest :=
  match current.work.kind with
  | .rdmaRead _ _ =>
    { current with
      sent := current.sent ++ [(current.nextPacket, now)]
      transmittedPackets := max current.transmittedPackets 1
      phase := .waiting
      timer := .arm now timeoutTicks }
  | .send | .rdmaWrite _ _ =>
    let current := { current with
      sent := current.sent ++ [(current.nextPacket, now)]
      nextPacket := current.nextPacket + 1
      transmittedPackets := max current.transmittedPackets (current.nextPacket + 1) }
    if current.nextPacket = current.packetCount then
      { current with phase := .waiting, timer := .arm now timeoutTicks }
    else current

def markRequestPacketSent (qp : QpTransport MRS SQ RQ CQ) (now timeoutTicks : ℕ) :
    QpTransport MRS SQ RQ CQ :=
  match qp.activeRequest with
  | none => qp
  | some current => qp.setActive (some (current.packetSent now timeoutTicks))

/-! ## Failure and retry -/

variable (ctx : QpContext MRS SQ RQ CQ)

def failActiveAndError (status : CompletionStatus) :
    QpContext MRS SQ RQ CQ × ℕ :=
  let failed := ctx.finishActive status 0
  let entered := failed.1.enterError
  (entered.1, failed.2 + entered.2)

def failActiveAndEnterError (status : CompletionStatus) :
    QpContext MRS SQ RQ CQ × HandlerResult :=
  let failed := failActiveAndError ctx status
  (failed.1, { completions := failed.2 })

/-- Fail the active request because the peer broke the protocol. -/
def failActiveTransport : QpContext MRS SQ RQ CQ × HandlerResult :=
  failActiveAndEnterError ctx .transportError

/-- Charge a timeout or sequence NAK and restart the request. -/
def scheduleTransportRetry :
    QpContext MRS SQ RQ CQ × HandlerResult :=
  match ctx.qp.activeRequest with
  | none => (ctx, {})
  | some active =>
    match active.retryBudget.onFailure .timeout 0 with
    | (budget, .retry _) =>
      let active := { active with
        retryBudget := budget
        retried := active.retried + 1 }.resetForRetry
      ((ctx.setQp (ctx.qp.setActive (some active))).setStats { ctx.stats with
          retransmissions := saturatingAdd ctx.stats.retransmissions 1 },
        { retransmissions := 1 })
    | (budget, .exhausted _) =>
      let active := { active with retryBudget := budget }
      failActiveAndEnterError (ctx.setQp (ctx.qp.setActive (some active))) .retryExceeded

/-- Charge a receiver-not-ready NAK and wait. -/
def scheduleRnrRetry (timerCode now ticksPerSecond : ℕ) :
    QpContext MRS SQ RQ CQ × HandlerResult :=
  let delay := (rnrTimerTicks timerCode ticksPerSecond).getD (2 ^ 64 - 1)
  match ctx.qp.activeRequest with
  | none => (ctx, {})
  | some active =>
    match active.retryBudget.onFailure .receiverNotReady delay with
    | (budget, .retry delayTicks) =>
      let active := { active with
        retryBudget := budget
        phase := .rnrWait
        timer := .arm now delayTicks
        delays := active.delays ++ [(active.sent.length, now + delay)] }
      (ctx.setQp (ctx.qp.setActive (some active)), {})
    | (budget, .exhausted _) =>
      let active := { active with retryBudget := budget }
      failActiveAndEnterError (ctx.setQp (ctx.qp.setActive (some active))) .rnrRetryExceeded

/-! ## Responses -/

def completeActive (byteLen : ℕ) :
    QpContext MRS SQ RQ CQ × HandlerResult :=
  let finished := ctx.finishActive .success byteLen
  (finished.1, { completions := finished.2 })

/-- Handle a positive ACK. -/
def handleAck (responsePsn : Psn) (now ticksPerSecond : ℕ) :
    QpContext MRS SQ RQ CQ × HandlerResult :=
  match ctx.qp.activeRequest with
  | none => (ctx, {})
  | some active =>
    if active.work.kind.isRead then failActiveTransport ctx
    else if active.transmittedPackets = 0 ∨
        responsePsn.compare (active.firstPsn.wrappingAdd (active.transmittedPackets - 1)) =
          .after then
      failActiveTransport ctx
    else
      match ctx.qp.sendWindow.acknowledge responsePsn with
      | (window, .advanced _ _) =>
        let qp := ctx.qp.setWindow window
        let current := { active with retryBudget := active.retryBudget.reset, retried := 0 }
        if window.oldestUnacknowledged = active.lastPsn.next then
          completeActive (ctx.setQp (qp.setActive (some current))) active.work.sge.length.toNat
        else
          let current := { current with
            timer := .arm now (timeoutOrMax ctx.qp.machine.config ticksPerSecond) }
          (ctx.setQp (qp.setActive (some current)), {})
      | (window, .duplicate) => (ctx.setQp (ctx.qp.setWindow window), {})
      | (window, .invalid) => failActiveTransport (ctx.setQp (ctx.qp.setWindow window))

/-- Handle an AETH. -/
def handleAethResponse (aeth : Aeth) (responsePsn : Psn)
    (now ticksPerSecond : ℕ) : QpContext MRS SQ RQ CQ × HandlerResult :=
  match aeth.classify with
  | .ack _ => handleAck ctx responsePsn now ticksPerSecond
  | .rnrNak timer =>
    scheduleRnrRetry
      (ctx.setStats { ctx.stats with rnrNaks := saturatingAdd ctx.stats.rnrNaks 1 })
      timer.toNat now ticksPerSecond
  | .nak .psnSequenceError => scheduleTransportRetry ctx
  | .nak .invalidRequest => failActiveAndEnterError ctx .remoteInvalidRequest
  | .nak .remoteAccessError => failActiveAndEnterError ctx .remoteAccessError
  | .nak .remoteOperationError | .nak (.unknown _) | .reserved _ =>
    failActiveAndEnterError ctx .transportError

/-- Whether an AETH is present and is not a positive ACK. -/
def negativeAeth (aeth : Option Aeth) : Option Aeth :=
  aeth.filter fun aeth ↦ match aeth.classify with
    | .ack _ => false
    | _ => true

/-- Account for an accepted READ response. -/
def acceptReadResponse (active : ActiveRequest) (receivedPsn : Psn)
    (payloadLength now ticksPerSecond : ℕ) : QpContext MRS SQ RQ CQ × HandlerResult :=
  let window := (ctx.qp.sendWindow.acknowledge receivedPsn).1
  let current := { active with
    readPacketsReceived := active.readPacketsReceived + 1
    bytesReceived := min (active.bytesReceived + min payloadLength (2 ^ 32 - 1)) (2 ^ 32 - 1)
    retryBudget := active.retryBudget.reset
    retried := if window = ctx.qp.sendWindow then active.retried else 0 }
  let qp := ctx.qp.setWindow window
  if current.readPacketsReceived = current.packetCount then
    completeActive (ctx.setQp (qp.setActive (some current))) active.work.sge.length.toNat
  else
    let current := { current with
      timer := .arm now (timeoutOrMax ctx.qp.machine.config ticksPerSecond) }
    (ctx.setQp (qp.setActive (some current)), {})

/-- Handle a READ response packet. -/
def handleReadResponse (packet : PacketRef)
    (now ticksPerSecond : ℕ) : QpContext MRS SQ RQ CQ × HandlerResult :=
  match ctx.qp.activeRequest with
  | none => (ctx, {})
  | some active =>
    if active.work.kind.isRead = false then failActiveTransport ctx
    else
      match negativeAeth packet.aeth with
      | some aeth => handleAethResponse ctx aeth packet.bth.psn now ticksPerSecond
      | none =>
        if packet.bth.psn.compare (active.firstPsn.wrappingAdd active.readPacketsReceived) ≠
            .equal then
          (ctx, {})
        else if packet.bth.opcode ≠
            segmentedOpcode .readResponse active.readPacketsReceived active.packetCount then
          failActiveTransport ctx
        else
          match segmentBounds active.work.sge.length ctx.qp.mtu active.readPacketsReceived with
          | none => failActiveTransport ctx
          | some (offset, expectedLength) =>
            if packet.payload.length ≠ expectedLength then failActiveTransport ctx
            else
              match checkedAdd active.work.sge.address offset with
              | none => failActiveAndEnterError ctx .localLengthError
              | some address =>
                match ctx.memory.writeLocal active.work.sge.lkey address packet.payload with
                | .error _ => failActiveAndEnterError ctx .localProtectionError
                | .ok memory =>
                  acceptReadResponse (ctx.setMemory memory) active packet.bth.psn
                    packet.payload.length now ticksPerSecond

/-- Handle a packet sent by a responder. -/
def handleResponsePacket (packet : PacketRef)
    (now ticksPerSecond : ℕ) : QpContext MRS SQ RQ CQ × HandlerResult :=
  if ctx.qp.activeRequest.isNone then (ctx, {})
  else
    match packet.bth.opcode with
    | .acknowledge =>
      match packet.aeth with
      | none => failActiveTransport ctx
      | some aeth => handleAethResponse ctx aeth packet.bth.psn now ticksPerSecond
    | .rdmaReadResponseFirst | .rdmaReadResponseMiddle | .rdmaReadResponseLast
    | .rdmaReadResponseOnly => handleReadResponse ctx packet now ticksPerSecond
    | .sendFirst | .sendMiddle | .sendLast | .sendLastWithImmediate | .sendOnly
    | .sendOnlyWithImmediate | .rdmaWriteFirst | .rdmaWriteMiddle | .rdmaWriteLast
    | .rdmaWriteLastWithImmediate | .rdmaWriteOnly | .rdmaWriteOnlyWithImmediate
    | .rdmaReadRequest => failActiveTransport ctx

end Rocev2.Rc
