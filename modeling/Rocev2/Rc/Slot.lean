import Rocev2.Core.Ack
import Rocev2.Core.Containers
import Rocev2.Core.Retry
import Rocev2.Memory.Registry
import Rocev2.Rc.Segment

/-!
# Queue-pair slots

The state of one queue pair in the posted-work engine (`rocev2/src/rc.rs`) and the functions on
it that reserve, resolve and flush completions.

The source keeps the transport state and three scheduling fields in one record.  The handlers
touch only the transport state, `QpTransport`; the record of the endpoint, `RcQpSlot`, extends it
with the generation and the scheduling fields.  A handler works on a `QpContext`: the transport
state it borrows mutably together with the memory registry and the counters.

`QpTransport.history` records what the application posted and polled.  It is a history variable:
the post and poll operations append to it and nothing reads it.
-/

namespace Rocev2.Rc

open Rocev2.Core Rocev2.Wire Rocev2.Memory

/-- Connection-specific configuration of one queue pair. -/
structure RcQpConfig where
  /-- State-machine and PSN configuration. -/
  transport : QpConfig
  /-- Path used for every outgoing packet. -/
  path : Ipv4Path
  /-- Five-bit delay advertised when a SEND has no receive work request. -/
  rnrNakTimer : UInt8
deriving DecidableEq

/-- Phase of the active request. -/
inductive RequestPhase where
  | sending
  | waiting
  | rnrWait
deriving DecidableEq, Repr

/-- The request a queue pair is executing. -/
structure ActiveRequest where
  work : WorkRequest
  firstPsn : Psn
  lastPsn : Psn
  packetCount : ℕ
  nextPacket : ℕ
  transmittedPackets : ℕ
  readPacketsReceived : ℕ
  bytesReceived : ℕ
  retryBudget : RetryBudget
  timer : Timer
  phase : RequestPhase
  /-- History variable: the packets the backend accepted, each by its number and time. -/
  sent : List (ℕ × ℕ)
  /-- History variable: for each receiver-not-ready NAK that made the request wait, the number of
  packets accepted before it and the time until which the peer asked to wait. -/
  delays : List (ℕ × ℕ)
  /-- History variable: the transport retries granted since the send window last advanced. -/
  retried : ℕ
deriving DecidableEq, Repr

/-- What is recorded of a request when it finishes. -/
structure RetiredRequest where
  work : WorkRequest
  firstPsn : Psn
  packetCount : ℕ
  sent : List (ℕ × ℕ)
  delays : List (ℕ × ℕ)
  status : CompletionStatus
deriving DecidableEq, Repr

def ActiveRequest.retired (active : ActiveRequest) (status : CompletionStatus) : RetiredRequest :=
  ⟨active.work, active.firstPsn, active.packetCount, active.sent, active.delays, status⟩

def completionOpcode : WorkRequestKind → CompletionOpcode
  | .send => .send
  | .rdmaWrite _ _ => .rdmaWrite
  | .rdmaRead _ _ => .rdmaRead

def ActiveRequest.resetForRetry (active : ActiveRequest) : ActiveRequest :=
  { active with
    nextPacket := 0
    readPacketsReceived := 0
    bytesReceived := 0
    phase := .sending
    timer := .new }

/-- A message being reassembled by the responder. -/
inductive InboundMessage where
  | send (work : RecvWorkRequest) (bytesWritten : ℕ)
  | write (address : UInt64) (rkey : UInt32) (totalLength : UInt32) (bytesWritten : ℕ)
deriving DecidableEq, Repr

def InboundMessage.isSend : InboundMessage → Bool
  | .send _ _ => true
  | .write _ _ _ _ => false

/-- An RDMA READ being answered. -/
structure ReadResponseState where
  requestPsn : Psn
  address : UInt64
  rkey : UInt32
  length : UInt32
  packetCount : ℕ
  nextPacket : ℕ
deriving DecidableEq, Repr

/-- A posted work request and its lease. -/
structure PostedWork (α : Type) (MRS : ℕ) where
  work : α
  lease : Option (RegionLease MRS)
deriving DecidableEq, Repr

/-- History variables of a queue pair; no operation reads them. -/
structure QpHistory where
  /-- The accepted send-queue work requests, oldest first. -/
  sends : List WorkRequest := []
  /-- The accepted receive work requests, oldest first. -/
  receives : List RecvWorkRequest := []
  /-- The completions the application has polled, oldest first. -/
  polled : List Completion := []
deriving DecidableEq, Repr

/-- The transport state of a queue pair. -/
@[ext]
structure QpTransport (MRS SQ RQ CQ : ℕ) where
  machine : QpStateMachine
  path : Ipv4Path
  rnrNakTimer : UInt8
  sendWindow : SendWindow
  receivePsn : ReceivePsn
  sendQueue : Ring (PostedWork WorkRequest MRS) SQ
  receiveQueue : Ring (PostedWork RecvWorkRequest MRS) RQ
  completionQueue : Ring Completion CQ
  completionReservations : ℕ
  activeRequest : Option ActiveRequest
  activeMemory : Option (RegionLease MRS)
  inboundMemory : Option (RegionLease MRS)
  readMemory : Option (RegionLease MRS)
  inboundMessage : Option InboundMessage
  readResponse : Option ReadResponseState
  readReplay : Option ReadResponseState
  messageSequenceNumber : Psn
  history : QpHistory
  /-- History variable: the requests that were active once, oldest first. -/
  retired : List RetiredRequest

/-- A slot of the endpoint's queue-pair table. -/
structure RcQpSlot (MRS SQ RQ CQ : ℕ) extends QpTransport MRS SQ RQ CQ where
  generation : ℕ
  requesterScheduled : Bool
  responderScheduled : Bool
  timerSequence : ℕ

/-- Cumulative counters of the data path. -/
structure RcEndpointStats where
  receivePackets : ℕ := 0
  receiveBytes : ℕ := 0
  transmitPackets : ℕ := 0
  transmitBytes : ℕ := 0
  invalidPackets : ℕ := 0
  droppedPackets : ℕ := 0
  unknownQpPackets : ℕ := 0
  peerMismatchPackets : ℕ := 0
  qpNotReadyPackets : ℕ := 0
  ioErrors : ℕ := 0
  postedWorkRequests : ℕ := 0
  postedReceiveRequests : ℕ := 0
  completions : ℕ := 0
  acknowledgements : ℕ := 0
  negativeAcknowledgements : ℕ := 0
  rnrNaks : ℕ := 0
  retransmissions : ℕ := 0
  timeoutEvents : ℕ := 0
  sequenceErrors : ℕ := 0
  duplicateRequests : ℕ := 0
deriving DecidableEq, Repr

/-- An ACK or NAK owed to the peer. -/
structure ControlReply where
  path : Ipv4Path
  destinationQpn : ℕ
  psn : Psn
  aeth : Aeth
deriving DecidableEq

/-- What a handler asks the endpoint to do. -/
structure HandlerResult where
  reply : Option ControlReply := none
  completions : ℕ := 0
  retransmissions : ℕ := 0
deriving DecidableEq

/-- What a handler borrows mutably. -/
@[ext]
structure QpContext (MRS SQ RQ CQ : ℕ) where
  qp : QpTransport MRS SQ RQ CQ
  memory : MemoryRegistry MRS
  stats : RcEndpointStats

variable {MRS SQ RQ CQ : ℕ}

/-- A new slot in the reset state. -/
def RcQpSlot.new (generation : ℕ) (config : RcQpConfig) :
    Except StateTransitionError (RcQpSlot MRS SQ RQ CQ) :=
  match QpStateMachine.new config.transport with
  | .error e => .error e
  | .ok machine =>
    .ok
      { machine := machine
        path := config.path
        rnrNakTimer := config.rnrNakTimer
        sendWindow := .new config.transport.sendPsn
        receivePsn := ⟨config.transport.receivePsn⟩
        sendQueue := .new
        receiveQueue := .new
        completionQueue := .new
        completionReservations := 0
        activeRequest := none
        activeMemory := none
        inboundMemory := none
        readMemory := none
        inboundMessage := none
        readResponse := none
        readReplay := none
        messageSequenceNumber := .zero
        history := {}
        retired := []
        generation := generation
        requesterScheduled := false
        responderScheduled := false
        timerSequence := 0 }

/-- Give back a lease; only an invalid one stays in place. -/
def releaseLease (memory : MemoryRegistry MRS) (lease : Option (RegionLease MRS)) :
    MemoryRegistry MRS × Option (RegionLease MRS) :=
  let released := memory.release lease
  (released.1, released.2.1)

namespace QpTransport

/-! ### Field updates

The handlers update one field at a time; each update has a name so that a state after several of
them stays readable. -/

variable (qp : QpTransport MRS SQ RQ CQ)

def setMachine (machine : QpStateMachine) :
    QpTransport MRS SQ RQ CQ :=
  { qp with machine := machine }

def setWindow (window : SendWindow) : QpTransport MRS SQ RQ CQ :=
  { qp with sendWindow := window }

def setSends (queue : Ring (PostedWork WorkRequest MRS) SQ) :
    QpTransport MRS SQ RQ CQ :=
  { qp with sendQueue := queue }

def setReceives (qp : QpTransport MRS SQ RQ CQ)
    (queue : Ring (PostedWork RecvWorkRequest MRS) RQ) : QpTransport MRS SQ RQ CQ :=
  { qp with receiveQueue := queue }

def setActive (active : Option ActiveRequest) :
    QpTransport MRS SQ RQ CQ :=
  { qp with activeRequest := active }

def retire (active : ActiveRequest) (status : CompletionStatus) :
    QpTransport MRS SQ RQ CQ :=
  { qp with activeRequest := none, retired := qp.retired ++ [active.retired status] }

def setActiveMemory (lease : Option (RegionLease MRS)) :
    QpTransport MRS SQ RQ CQ :=
  { qp with activeMemory := lease }

/-- Replace the message being reassembled. -/
def setInbound (message : Option InboundMessage) :
    QpTransport MRS SQ RQ CQ :=
  { qp with inboundMessage := message }

/-- Replace the lease of the message being reassembled. -/
def setInboundMemory (lease : Option (RegionLease MRS)) :
    QpTransport MRS SQ RQ CQ :=
  { qp with inboundMemory := lease }

/-- Replace the READ response being sent. -/
def setRead (response : Option ReadResponseState) :
    QpTransport MRS SQ RQ CQ :=
  { qp with readResponse := response }

def setReplay (response : Option ReadResponseState) :
    QpTransport MRS SQ RQ CQ :=
  { qp with readReplay := response }

def setReadMemory (lease : Option (RegionLease MRS)) :
    QpTransport MRS SQ RQ CQ :=
  { qp with readMemory := lease }

def workPosted (queue : Ring (PostedWork WorkRequest MRS) SQ)
    (works : List WorkRequest) : QpTransport MRS SQ RQ CQ :=
  { qp with
    sendQueue := queue
    completionReservations := qp.completionReservations + works.length
    history := { qp.history with sends := qp.history.sends ++ works } }

def receivePosted (qp : QpTransport MRS SQ RQ CQ)
    (queue : Ring (PostedWork RecvWorkRequest MRS) RQ) (works : List RecvWorkRequest) :
    QpTransport MRS SQ RQ CQ :=
  { qp with
    receiveQueue := queue
    completionReservations := qp.completionReservations + works.length
    history := { qp.history with receives := qp.history.receives ++ works } }

/-! ### Slot functions -/

/-- The configuration of the queue pair. -/
def config : RcQpConfig :=
  ⟨qp.machine.config, qp.path, qp.rnrNakTimer⟩

def mtu : ℕ := qp.machine.config.pathMtu.bytes

def canReserveCompletion : Bool :=
  qp.completionQueue.len + qp.completionReservations < CQ

/-- Use up one reservation, pushing a completion if there is one to report. -/
def resolveReservedCompletion (completion : Option Completion) :
    QpTransport MRS SQ RQ CQ × ℕ :=
  let qp := { qp with completionReservations := qp.completionReservations - 1 }
  match completion with
  | none => (qp, 0)
  | some completion =>
    match qp.completionQueue.push completion with
    | .ok queue => ({ qp with completionQueue := queue }, 1)
    | .error _ => (qp, 0)

def requesterIsRunnable : Bool :=
  match qp.activeRequest with
  | some active => active.phase = .sending
  | none => qp.machine.canSend && !qp.sendQueue.isEmpty

def responderIsRunnable : Bool :=
  qp.machine.canReceive && qp.readResponse.isSome

/-- The deadline the endpoint has to watch. -/
def timerDeadline : Option ℕ :=
  match qp.activeRequest with
  | none => none
  | some active =>
    match active.phase with
    | .waiting | .rnrWait => active.timer.deadline
    | .sending => none

/-- Restart both sequence spaces and forget the transport activity. -/
def resetTransportState : QpTransport MRS SQ RQ CQ :=
  { qp with
    sendWindow := .new qp.machine.config.sendPsn
    receivePsn := ⟨qp.machine.config.receivePsn⟩
    messageSequenceNumber := .zero
    activeRequest := none
    inboundMessage := none
    readResponse := none
    readReplay := none }

end QpTransport

/-- Whether the slot still owns work, responder state or completions. -/
def RcQpSlot.isBusy (slot : RcQpSlot MRS SQ RQ CQ) : Bool :=
  slot.activeRequest.isSome || slot.inboundMessage.isSome || slot.readResponse.isSome ||
    !slot.sendQueue.isEmpty || !slot.receiveQueue.isEmpty || !slot.completionQueue.isEmpty ||
    slot.completionReservations != 0 || slot.requesterScheduled || slot.responderScheduled

namespace QpContext

variable (ctx : QpContext MRS SQ RQ CQ)

/-- Replace the transport state. -/
def setQp (qp : QpTransport MRS SQ RQ CQ) :
    QpContext MRS SQ RQ CQ :=
  { ctx with qp := qp }

def setMemory (memory : MemoryRegistry MRS) :
    QpContext MRS SQ RQ CQ :=
  { ctx with memory := memory }

/-- Replace the counters. -/
def setStats (stats : RcEndpointStats) : QpContext MRS SQ RQ CQ :=
  { ctx with stats := stats }

section Projections

variable (ctx : QpContext MRS SQ RQ CQ) (qp : QpTransport MRS SQ RQ CQ)
  (memory : MemoryRegistry MRS) (stats : RcEndpointStats)

@[simp] theorem setQp_qp : (ctx.setQp qp).qp = qp := rfl
@[simp] theorem setQp_memory : (ctx.setQp qp).memory = ctx.memory := rfl
@[simp] theorem setMemory_qp : (ctx.setMemory memory).qp = ctx.qp := rfl
@[simp] theorem setMemory_memory : (ctx.setMemory memory).memory = memory := rfl
@[simp] theorem setStats_qp : (ctx.setStats stats).qp = ctx.qp := rfl
@[simp] theorem setStats_memory : (ctx.setStats stats).memory = ctx.memory := rfl

end Projections

/-- Give back the lease of the active request. -/
def releaseActive : QpContext MRS SQ RQ CQ :=
  let released := releaseLease ctx.memory ctx.qp.activeMemory
  (ctx.setMemory released.1).setQp (ctx.qp.setActiveMemory released.2)

/-- Give back the lease of the inbound message. -/
def releaseInbound : QpContext MRS SQ RQ CQ :=
  let released := releaseLease ctx.memory ctx.qp.inboundMemory
  (ctx.setMemory released.1).setQp (ctx.qp.setInboundMemory released.2)

/-- Give back the lease of the READ response. -/
def releaseRead : QpContext MRS SQ RQ CQ :=
  let released := releaseLease ctx.memory ctx.qp.readMemory
  (ctx.setMemory released.1).setQp (ctx.qp.setReadMemory released.2)

/-- Use up one reservation. -/
def resolve (completion : Option Completion) :
    QpContext MRS SQ RQ CQ × ℕ :=
  let resolved := ctx.qp.resolveReservedCompletion completion
  (ctx.setQp resolved.1, resolved.2)

def workCompletion (work : WorkRequest) (status : CompletionStatus) (byteLen : ℕ) :
    Option Completion :=
  if work.signaled ∨ status ≠ .success then
    some (if status = .success then .success work.id (completionOpcode work.kind) byteLen
      else .failure work.id (completionOpcode work.kind) status)
  else none

def receiveCompletion (work : RecvWorkRequest) (status : CompletionStatus) (byteLen : ℕ) :
    Completion :=
  if status = .success then .success work.id .receive byteLen
  else .failure work.id .receive status

def finishActive (status : CompletionStatus) (byteLen : ℕ) :
    QpContext MRS SQ RQ CQ × ℕ :=
  let ctx := ctx.releaseActive
  match ctx.qp.activeRequest with
  | none => (ctx, 0)
  | some active =>
    (ctx.setQp (ctx.qp.retire active status)).resolve (workCompletion active.work status byteLen)

def finishReceive (work : RecvWorkRequest)
    (status : CompletionStatus) (byteLen : ℕ) : QpContext MRS SQ RQ CQ × ℕ :=
  ctx.releaseInbound.resolve (some (receiveCompletion work status byteLen))

/-- Flush the send queue, at most `fuel` entries. -/
def flushSendQueue : ℕ → QpContext MRS SQ RQ CQ → QpContext MRS SQ RQ CQ × ℕ
  | 0, ctx => (ctx, 0)
  | fuel + 1, ctx =>
    match ctx.qp.sendQueue.pop with
    | none => (ctx, 0)
    | some (posted, queue) =>
      let ctx := (ctx.setQp (ctx.qp.setSends queue)).setMemory
        (releaseLease ctx.memory posted.lease).1
      let flushed := ctx.resolve
        (some (.failure posted.work.id (completionOpcode posted.work.kind) .flushed))
      let rest := flushSendQueue fuel flushed.1
      (rest.1, flushed.2 + rest.2)

/-- Flush the receive queue, at most `fuel` entries. -/
def flushReceiveQueue : ℕ → QpContext MRS SQ RQ CQ → QpContext MRS SQ RQ CQ × ℕ
  | 0, ctx => (ctx, 0)
  | fuel + 1, ctx =>
    match ctx.qp.receiveQueue.pop with
    | none => (ctx, 0)
    | some (posted, queue) =>
      let ctx := (ctx.setQp (ctx.qp.setReceives queue)).setMemory
        (releaseLease ctx.memory posted.lease).1
      let flushed := ctx.finishReceive posted.work .flushed 0
      let rest := flushReceiveQueue fuel flushed.1
      (rest.1, flushed.2 + rest.2)

def finishInbound (status : CompletionStatus) :
    QpContext MRS SQ RQ CQ × ℕ :=
  let taken := ctx.setQp (ctx.qp.setInbound none)
  match ctx.qp.inboundMessage with
  | some (.send work _) => taken.finishReceive work status 0
  | some (.write _ _ _ _) | none => (taken, 0)

def dropRead : QpContext MRS SQ RQ CQ :=
  let ctx := ctx.releaseRead
  ctx.setQp ((ctx.qp.setRead none).setReplay none)

def flushQueues : QpContext MRS SQ RQ CQ × ℕ :=
  let sends := flushSendQueue ctx.qp.sendQueue.len ctx
  let receives := flushReceiveQueue sends.1.qp.receiveQueue.len sends.1
  (receives.1, sends.2 + receives.2)

def flushPending : QpContext MRS SQ RQ CQ × ℕ :=
  let active := ctx.finishActive .flushed 0
  let inbound := active.1.finishInbound .flushed
  let queues := inbound.1.releaseInbound.dropRead.flushQueues
  (queues.1, active.2 + inbound.2 + queues.2)

def enterError : QpContext MRS SQ RQ CQ × ℕ :=
  if ctx.qp.machine.state = .error then ctx.flushPending
  else
    match ctx.qp.machine.transition .error with
    | .ok machine => (ctx.setQp (ctx.qp.setMachine machine)).flushPending
    | .error _ => ctx.flushPending

end QpContext

end Rocev2.Rc
