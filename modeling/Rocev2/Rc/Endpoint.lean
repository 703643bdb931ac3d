import Rocev2.Core.QpnTable
import Rocev2.Rc.Requester
import Rocev2.Rc.Responder

/-!
# The endpoint: tables, control plane and posting

`RcEndpoint` of `rocev2/src/rc.rs`: the queue-pair table, its schedulers and the control-plane
and posting operations.  Operations return the endpoint they leave behind together with their
result, so that an error keeps exactly the state the source keeps.

Three fields are history variables, which no operation reads: `offered` holds every packet that
the endpoint has encoded for the backend, whether or not the backend then accepted it,
`arrivals` every packet that reached a queue pair, with the state that met it and the reply it
caused, and `activity` what the schedulers did and which packets the backend accepted.  All list the
oldest first.
-/

namespace Rocev2.Rc

open Rocev2.Core Rocev2.Wire Rocev2.Memory

/-- Fixed-capacity queue that rejected a post operation. -/
inductive QueueKind where
  | send
  | receive
  | completion
deriving DecidableEq, Repr

/-- Errors of the public interface. -/
inductive ApiError where
  | wire
  | bufferTooShort (needed actual : ℕ)
  | packetTooLarge (length maximum : ℕ)
  | unsupportedMaximumPacket (requested backend : ℕ)
  | arithmeticOverflow
  | qpTableFull
  | invalidQpnIndexCapacity (qpCapacity indexCapacity : ℕ)
  | qpnIndexFull
  | invalidQpHandle
  | duplicateLocalQpn (qpn : ℕ)
  | unknownDestinationQpn (qpn : ℕ)
  | qpNotReady (state : QpState)
  | qpState (error : StateTransitionError)
  | memory (error : MemoryError)
  | queueFull (queue : QueueKind)
  | qpBusy
  | workRequestTooLarge (packets maximum : ℕ)
  | invalidTicksPerSecond
  | packetIoContractViolation
  | invalidRnrNakTimer (timer : UInt8)
  | pathMtuExceedsPacketLimit (required maximum : ℕ)
  | peerAddressMismatch (source destination : Ipv4Addr)
deriving DecidableEq

/-- Configuration of the engine. -/
structure RcEndpointConfig where
  /-- Maximum complete IPv4 packet accepted or transmitted. -/
  maximumPacketSize : ℕ
  /-- Frequency of the tick value supplied to `progress`. -/
  ticksPerSecond : ℕ
  /-- Seed for registrations made without a key generator. -/
  memoryKeySeed : UInt32
deriving DecidableEq, Repr

/-- The data class that transmits next. -/
inductive DataTxClass where
  | requester
  | responder
deriving DecidableEq, Repr

def DataTxClass.other : DataTxClass → DataTxClass
  | .requester => .responder
  | .responder => .requester

def maxBatchPackets : ℕ := 64

/-- A generation-checked queue-pair handle. -/
structure QpHandle where
  slot : ℕ
  generation : ℕ
deriving DecidableEq, Repr

/-- The queue pair that a handle names, and its slot in the table. -/
def QpHandle.find {QPS : ℕ} {α : Type} (handle : QpHandle) (generation : α → ℕ)
    (qps : Fin QPS → Option α) : Option (Fin QPS × α) :=
  if h : handle.slot < QPS then
    match qps ⟨handle.slot, h⟩ with
    | none => none
    | some slot =>
      if generation slot = handle.generation then some (⟨handle.slot, h⟩, slot) else none
  else none

theorem QpHandle.find_eq_some {QPS : ℕ} {α : Type} {handle : QpHandle} {generation : α → ℕ}
    {qps : Fin QPS → Option α} {index : Fin QPS} {slot : α} :
    handle.find generation qps = some (index, slot) ↔
      qps index = some slot ∧ index.val = handle.slot ∧ generation slot = handle.generation := by
  unfold QpHandle.find
  constructor
  · intro h
    split at h
    · split at h
      · cases h
      rename_i hslot
      split at h
      · rename_i hgeneration
        cases h
        exact ⟨hslot, rfl, hgeneration⟩
      · cases h
    · cases h
  · rintro ⟨hslot, hindex, hgeneration⟩
    obtain ⟨number, generation⟩ := handle
    dsimp only at hindex hgeneration
    subst hindex hgeneration
    rw [dif_pos index.isLt]
    simp [hslot]

/-- The generation of the next queue pair in a slot; zero is skipped. -/
def nextGeneration (generation : ℕ) : ℕ := max ((generation + 1) % 2 ^ 32) 1

/-- A packet that reached a queue pair. -/
structure Arrival (MRS SQ RQ CQ : ℕ) where
  /-- The index of the queue pair. -/
  slot : ℕ
  /-- The transport state that met the packet. -/
  qp : QpTransport MRS SQ RQ CQ
  /-- The packet. -/
  packet : PacketRef
  /-- The reply of the handler. -/
  reply : Option ControlReply

/-- An entry of the history of the schedulers. -/
inductive Activity (QPS MRS SQ RQ CQ : ℕ) where
  /-- A slot was synchronized and is runnable in a class. -/
  | ready (kind : DataTxClass) (index : Fin QPS)
  /-- A slot was synchronized and is not runnable in a class. -/
  | idle (kind : DataTxClass) (index : Fin QPS)
  /-- A slot was taken from the head of its ready queue; `waiting` is left in the queue, and the
  slots in `others` are runnable in the other class. -/
  | taken (kind : DataTxClass) (index : Fin QPS) (waiting others : List (Fin QPS))
  /-- A slot that was taken sends no packet. -/
  | returned (kind : DataTxClass) (index : Fin QPS)
  /-- A slot that was taken fails, because the memory of its work cannot be read. -/
  | faulted (kind : DataTxClass) (index : Fin QPS)
  /-- The backend accepted the packet that a slot that was taken sends in the given state. -/
  | accepted (kind : DataTxClass) (index : Fin QPS) (qp : QpTransport MRS SQ RQ CQ)
  /-- The backend accepted a reply. -/
  | replied (reply : ControlReply)

/-- What synchronization finds out about a slot. -/
def Activity.observed {QPS MRS SQ RQ CQ : ℕ} (kind : DataTxClass) (index : Fin QPS)
    (runnable : Bool) : Activity QPS MRS SQ RQ CQ :=
  if runnable then .ready kind index else .idle kind index

/-- Whether a queue pair has a packet of a class to send. -/
def QpTransport.isRunnable {MRS SQ RQ CQ : ℕ} (qp : QpTransport MRS SQ RQ CQ) :
    DataTxClass → Bool
  | .requester => qp.requesterIsRunnable
  | .responder => qp.responderIsRunnable

/-- The posted-work endpoint. -/
structure RcEndpoint (QPS MRS SQ RQ CQ IDX : ℕ) where
  config : RcEndpointConfig
  stats : RcEndpointStats
  memory : MemoryRegistry MRS
  qps : Fin QPS → Option (RcQpSlot MRS SQ RQ CQ)
  generations : Fin QPS → ℕ
  qpnIndex : QpnTable IDX
  requesterReady : ReadyQueue QPS
  responderReady : ReadyQueue QPS
  timerScheduler : TimerScheduler QPS
  pendingControl : Ring ControlReply maxBatchPackets
  nextDataTxClass : DataTxClass
  offered : List WirePacket
  arrivals : List (Arrival MRS SQ RQ CQ)
  activity : List (Activity QPS MRS SQ RQ CQ)

/-- The sequence number of the next timer arm operation; zero is skipped. -/
def nextTimerSequence (sequence : ℕ) : ℕ :=
  let next := (sequence + 1) % 2 ^ 32
  if next = 0 then 1 else next

/-- The smallest complete packet: IPv4, UDP, BTH and ICRC. -/
def minRoceIpv4Packet : ℕ := 20 + 8 + 12 + 4

namespace RcEndpoint

variable {QPS MRS SQ RQ CQ IDX : ℕ}

/-- An endpoint without queue pairs. -/
def empty (config : RcEndpointConfig) (memory : MemoryRegistry MRS) :
    RcEndpoint QPS MRS SQ RQ CQ IDX where
  config := config
  stats := {}
  memory := memory
  qps _ := none
  generations _ := 0
  qpnIndex := .new
  requesterReady := .new
  responderReady := .new
  timerScheduler := .new
  pendingControl := .new
  nextDataTxClass := .responder
  offered := []
  arrivals := []
  activity := []

/-- A checked endpoint over a backend that carries packets of at most `maxIpv4Packet` bytes. -/
def new (QPS MRS SQ RQ CQ IDX : ℕ) (config : RcEndpointConfig) (maxIpv4Packet identity : ℕ)
    (bytes : ℕ → UInt8) : Except ApiError (RcEndpoint QPS MRS SQ RQ CQ IDX) :=
  if config.maximumPacketSize < minRoceIpv4Packet then
    .error (.bufferTooShort minRoceIpv4Packet config.maximumPacketSize)
  else if maxIpv4Packet < config.maximumPacketSize then
    .error (.unsupportedMaximumPacket config.maximumPacketSize maxIpv4Packet)
  else if config.ticksPerSecond = 0 then .error .invalidTicksPerSecond
  else if QpnTable.supportsEntries IDX QPS = false then
    .error (.invalidQpnIndexCapacity QPS IDX)
  else
    match MemoryRegistry.new MRS config.memoryKeySeed identity bytes with
    | .error e => .error (.memory e)
    | .ok memory => .ok (.empty config memory)

variable (ep : RcEndpoint QPS MRS SQ RQ CQ IDX)

/-- Record what the schedulers do. -/
def log (event : Activity QPS MRS SQ RQ CQ) :
    RcEndpoint QPS MRS SQ RQ CQ IDX :=
  { ep with activity := ep.activity ++ [event] }

def runnable (kind : DataTxClass) : List (Fin QPS) :=
  (List.finRange QPS).filter fun i ↦ (ep.qps i).any fun slot ↦ slot.isRunnable kind

/-- What a handler borrows of the endpoint. -/
def context (slot : RcQpSlot MRS SQ RQ CQ) :
    QpContext MRS SQ RQ CQ :=
  ⟨slot.toQpTransport, ep.memory, ep.stats⟩

def setSlot (index : Fin QPS)
    (slot : RcQpSlot MRS SQ RQ CQ) : RcEndpoint QPS MRS SQ RQ CQ IDX :=
  { ep with qps := Function.update ep.qps index (some slot) }

/-- Give back what a handler borrowed. -/
def restore (index : Fin QPS)
    (slot : RcQpSlot MRS SQ RQ CQ) (ctx : QpContext MRS SQ RQ CQ) :
    RcEndpoint QPS MRS SQ RQ CQ IDX :=
  { ep with
    qps := Function.update ep.qps index (some { slot with toQpTransport := ctx.qp })
    memory := ctx.memory
    stats := ctx.stats }

def countCompletions (generated : ℕ) :
    RcEndpoint QPS MRS SQ RQ CQ IDX :=
  { ep with stats := { ep.stats with
    completions := saturatingAdd ep.stats.completions generated } }

/-! ## Scheduling -/

/-- Remove a slot from every scheduler. -/
def descheduleQp (index : Fin QPS) :
    RcEndpoint QPS MRS SQ RQ CQ IDX :=
  let ep := { ep with
    requesterReady := ep.requesterReady.cancel index
    responderReady := ep.responderReady.cancel index
    timerScheduler :=
      if index.val < 2 ^ 32 then ep.timerScheduler.cancel index else ep.timerScheduler
    activity := ep.activity ++ [Activity.idle .requester index, Activity.idle .responder index] }
  match ep.qps index with
  | none => ep
  | some slot =>
    ep.setSlot index { slot with
      requesterScheduled := false
      responderScheduled := false
      timerSequence := nextTimerSequence slot.timerSequence }

/-- The timer entry and arm sequence of a slot after synchronization. -/
def synchronizeTimer (timers : TimerScheduler QPS) (index : Fin QPS)
    (slot : RcQpSlot MRS SQ RQ CQ) : TimerScheduler QPS × ℕ :=
  if index.val < 2 ^ 32 then
    match slot.timerDeadline with
    | some deadline =>
      let entry : TimerEntry := ⟨deadline, index.val, slot.generation, slot.timerSequence⟩
      if (timers.get index).any (fun current ↦ current.deadline = deadline ∧
          current.qpGeneration = slot.generation ∧ current.sequence = slot.timerSequence) then
        (timers, slot.timerSequence)
      else
        let sequence := nextTimerSequence slot.timerSequence
        (timers.schedule index { entry with sequence := sequence }, sequence)
    | none =>
      if (timers.get index).isSome then
        (timers.cancel index, nextTimerSequence slot.timerSequence)
      else (timers, slot.timerSequence)
  else (timers, slot.timerSequence)

/-- Bring the schedulers in line with a slot. -/
def synchronizeQp (index : Fin QPS) :
    RcEndpoint QPS MRS SQ RQ CQ IDX :=
  match ep.qps index with
  | none => ep.descheduleQp index
  | some slot =>
    let requesterReady :=
      if slot.requesterIsRunnable then ep.requesterReady.schedule index
      else ep.requesterReady.cancel index
    let responderReady :=
      if slot.responderIsRunnable then ep.responderReady.schedule index
      else ep.responderReady.cancel index
    let timers := synchronizeTimer ep.timerScheduler index slot
    { ep with
      requesterReady := requesterReady
      responderReady := responderReady
      timerScheduler := timers.1
      activity := ep.activity ++ [Activity.observed .requester index slot.requesterIsRunnable,
        Activity.observed .responder index slot.responderIsRunnable]
      qps := Function.update ep.qps index (some { slot with
        timerSequence := timers.2
        requesterScheduled := requesterReady.isScheduled index
        responderScheduled := responderReady.isScheduled index }) }

/-! ## The control plane -/

def qpIndex (handle : QpHandle) :
    Option (Fin QPS × RcQpSlot MRS SQ RQ CQ) :=
  handle.find (fun slot ↦ slot.generation) ep.qps

/-- Insert a queue-pair number into the index. -/
def insertQpn (table : QpnTable IDX) (qpn slot : ℕ) : Except ApiError (QpnTable IDX) :=
  if 2 ^ 32 ≤ slot then .error .qpTableFull
  else
    match table.insert qpn slot with
    | .ok table => .ok table
    | .error (.invalidQpn qpn) => .error (.qpState (.invalidLocalQpn qpn))
    | .error (.duplicate qpn) => .error (.duplicateLocalQpn qpn)
    | .error .full => .error .qpnIndexFull

/-- The checks on a queue-pair configuration that do not depend on the table. -/
def checkQpConfig (config : RcQpConfig) :
    Except ApiError Unit :=
  if 31 < config.rnrNakTimer then .error (.invalidRnrNakTimer config.rnrNakTimer)
  else
    let required := maximumPacketForMtu config.transport.pathMtu.bytes
    if ep.config.maximumPacketSize < required then
      .error (.pathMtuExceedsPacketLimit required ep.config.maximumPacketSize)
    else .ok ()

def freeSlot : Option (Fin QPS) :=
  (List.finRange QPS).find? fun i ↦ (ep.qps i).isNone

/-- Create a validated queue pair in the reset state. -/
def createQp (config : RcQpConfig) :
    RcEndpoint QPS MRS SQ RQ CQ IDX × Except ApiError QpHandle :=
  if 31 < config.rnrNakTimer then (ep, .error (.invalidRnrNakTimer config.rnrNakTimer))
  else if (ep.qpnIndex.get config.transport.localQpn).isSome then
    (ep, .error (.duplicateLocalQpn config.transport.localQpn))
  else
    match ep.checkQpConfig config with
    | .error e => (ep, .error e)
    | .ok () =>
      match ep.freeSlot with
      | none => (ep, .error .qpTableFull)
      | some index =>
        let generation := nextGeneration (ep.generations index)
        match RcQpSlot.new generation config with
        | .error e => (ep, .error (.qpState e))
        | .ok slot =>
          match insertQpn ep.qpnIndex config.transport.localQpn index.val with
          | .error e => (ep, .error e)
          | .ok table =>
            ({ ep with
                qpnIndex := table
                generations := Function.update ep.generations index generation
                qps := Function.update ep.qps index (some slot) },
              .ok ⟨index.val, generation⟩)

/-- Remove an idle queue pair. -/
def removeQp (handle : QpHandle) :
    RcEndpoint QPS MRS SQ RQ CQ IDX × Except ApiError RcQpConfig :=
  match ep.qpIndex handle with
  | none => (ep, .error .invalidQpHandle)
  | some (index, slot) =>
    if slot.isBusy then (ep, .error .qpBusy)
    else
      let ep := ep.descheduleQp index
      ({ ep with
          qps := Function.update ep.qps index none
          qpnIndex := (ep.qpnIndex.remove slot.machine.config.localQpn).1 },
        .ok slot.config)

/-- The state of a queue pair. -/
def qpState (handle : QpHandle) : Except ApiError QpState :=
  match ep.qpIndex handle with
  | none => .error .invalidQpHandle
  | some (_, slot) => .ok slot.machine.state

/-- The configuration of a queue pair. -/
def qpConfig (handle : QpHandle) :
    Except ApiError RcQpConfig :=
  match ep.qpIndex handle with
  | none => .error .invalidQpHandle
  | some (_, slot) => .ok slot.config

/-- Move the entry of a slot to another queue-pair number. -/
def renumberQpn (table : QpnTable IDX) (previous qpn slot : ℕ) :
    Except ApiError (QpnTable IDX) :=
  if previous ≠ qpn then
    match insertQpn table qpn slot with
    | .error e => .error e
    | .ok table => .ok (table.remove previous).1
  else .ok table

/-- Replace the configuration of a reset, idle queue pair. -/
def reconfigureQp (handle : QpHandle)
    (config : RcQpConfig) : RcEndpoint QPS MRS SQ RQ CQ IDX × Except ApiError Unit :=
  match ep.checkQpConfig config with
  | .error e => (ep, .error e)
  | .ok () =>
    match ep.qpIndex handle with
    | none => (ep, .error .invalidQpHandle)
    | some (index, slot) =>
      if (ep.qpnIndex.get config.transport.localQpn).any (fun owner ↦ owner ≠ handle.slot) then
        (ep, .error (.duplicateLocalQpn config.transport.localQpn))
      else if slot.isBusy then (ep, .error .qpBusy)
      else
        match slot.machine.reconfigure config.transport with
        | .error e => (ep, .error (.qpState e))
        | .ok machine =>
          match renumberQpn ep.qpnIndex slot.machine.config.localQpn
              config.transport.localQpn index.val with
          | .error e => (ep, .error e)
          | .ok table =>
            let qp := { slot.toQpTransport with
              machine := machine
              path := config.path
              rnrNakTimer := config.rnrNakTimer }.resetTransportState
            let ep := { ep with qpnIndex := table }.setSlot index
              { slot with toQpTransport := qp }
            (ep.synchronizeQp index, .ok ())

variable (ctx : QpContext MRS SQ RQ CQ)

/-- Apply a state transition, flushing posted work on reset and error. -/
def transitionContext (destination : QpState) :
    Except StateTransitionError (QpContext MRS SQ RQ CQ × ℕ) :=
  match ctx.qp.machine.transition destination with
  | .error e => .error e
  | .ok machine =>
    let ctx := ctx.setQp (ctx.qp.setMachine machine)
    match destination with
    | .error => .ok ctx.flushPending
    | .reset =>
      let flushed := ctx.flushPending
      .ok (flushed.1.setQp flushed.1.qp.resetTransportState, flushed.2)
    | .init | .rtr | .rts | .sqd | .sqe => .ok (ctx, 0)

/-- Apply a state transition to a queue pair. -/
def transitionQp (handle : QpHandle)
    (destination : QpState) : RcEndpoint QPS MRS SQ RQ CQ IDX × Except ApiError Unit :=
  match ep.qpIndex handle with
  | none => (ep, .error .invalidQpHandle)
  | some (index, slot) =>
    match transitionContext (ep.context slot) destination with
    | .error e => (ep, .error (.qpState e))
    | .ok (ctx, generated) =>
      (((ep.restore index slot ctx).synchronizeQp index).countCompletions generated, .ok ())

/-! ## Posting and polling -/

/-- Validate a work request before it is accepted. -/
def validatePostedWork (memory : MemoryRegistry MRS) (work : WorkRequest) (mtu : ℕ) :
    Except ApiError Unit :=
  let packets := packetCount work.sge.length mtu
  if maxOutstandingPackets < packets then
    .error (.workRequestTooLarge packets maxOutstandingPackets)
  else
    let length := work.sge.length.toNat
    match work.kind with
    | .send =>
      match memory.validateLocalRead work.sge.lkey work.sge.address length with
      | .error e => .error (.memory e)
      | .ok () => .ok ()
    | .rdmaWrite remoteAddress _ =>
      match memory.validateLocalRead work.sge.lkey work.sge.address length with
      | .error e => .error (.memory e)
      | .ok () =>
        if (checkedAdd remoteAddress length).isNone then .error .arithmeticOverflow else .ok ()
    | .rdmaRead remoteAddress _ =>
      match memory.validateLocalWrite work.sge.lkey work.sge.address length with
      | .error e => .error (.memory e)
      | .ok () =>
        if (checkedAdd remoteAddress length).isNone then .error .arithmeticOverflow else .ok ()

/-- Whether receive work may be posted. -/
def canPostReceive : QpState → Bool
  | .rtr | .rts | .sqd | .sqe => true
  | .reset | .init | .error => false

/-- Accept one validated send-queue work request. -/
def acceptWork (work : WorkRequest) :
    QpContext MRS SQ RQ CQ × Except ApiError Unit :=
  if ctx.qp.sendQueue.isFull then (ctx, .error (.queueFull .send))
  else if ctx.qp.canReserveCompletion = false then (ctx, .error (.queueFull .completion))
  else
    match ctx.memory.retainLocal work.sge.lkey with
    | .error e => (ctx, .error (.memory e))
    | .ok (lease, memory) =>
      match ctx.qp.sendQueue.push ⟨work, some lease⟩ with
      | .error posted =>
        (ctx.setMemory (releaseLease memory posted.lease).1, .error (.queueFull .send))
      | .ok queue => ((ctx.setMemory memory).setQp (ctx.qp.workPosted queue [work]), .ok ())

/-- Accept one validated receive work request. -/
def acceptReceive (work : RecvWorkRequest) :
    QpContext MRS SQ RQ CQ × Except ApiError Unit :=
  if ctx.qp.receiveQueue.isFull then (ctx, .error (.queueFull .receive))
  else if ctx.qp.canReserveCompletion = false then (ctx, .error (.queueFull .completion))
  else
    match ctx.memory.retainLocal work.sge.lkey with
    | .error e => (ctx, .error (.memory e))
    | .ok (lease, memory) =>
      match ctx.qp.receiveQueue.push ⟨work, some lease⟩ with
      | .error posted =>
        (ctx.setMemory (releaseLease memory posted.lease).1, .error (.queueFull .receive))
      | .ok queue => ((ctx.setMemory memory).setQp (ctx.qp.receivePosted queue [work]), .ok ())

/-- Post one send-queue work request. -/
def postWork (handle : QpHandle) (work : WorkRequest) :
    RcEndpoint QPS MRS SQ RQ CQ IDX × Except ApiError Unit :=
  match ep.qpIndex handle with
  | none => (ep, .error .invalidQpHandle)
  | some (index, slot) =>
    if slot.machine.state ≠ .rts then (ep, .error (.qpNotReady slot.machine.state))
    else
      match validatePostedWork ep.memory work slot.mtu with
      | .error e => (ep, .error e)
      | .ok () =>
        match acceptWork (ep.context slot) work with
        | (ctx, .error e) => (ep.restore index slot ctx, .error e)
        | (ctx, .ok ()) =>
          let ep := (ep.restore index slot ctx).synchronizeQp index
          ({ ep with stats := { ep.stats with
              postedWorkRequests := saturatingAdd ep.stats.postedWorkRequests 1 } },
            .ok ())

/-- Post one receive work request. -/
def postReceive (handle : QpHandle)
    (work : RecvWorkRequest) : RcEndpoint QPS MRS SQ RQ CQ IDX × Except ApiError Unit :=
  match ep.qpIndex handle with
  | none => (ep, .error .invalidQpHandle)
  | some (index, slot) =>
    if canPostReceive slot.machine.state = false then
      (ep, .error (.qpNotReady slot.machine.state))
    else
      match ep.memory.validateLocalWrite work.sge.lkey work.sge.address
          work.sge.length.toNat with
      | .error e => (ep, .error (.memory e))
      | .ok () =>
        match acceptReceive (ep.context slot) work with
        | (ctx, .error e) => (ep.restore index slot ctx, .error e)
        | (ctx, .ok ()) =>
          let ep := ep.restore index slot ctx
          ({ ep with stats := { ep.stats with
              postedReceiveRequests := saturatingAdd ep.stats.postedReceiveRequests 1 } },
            .ok ())

def errorOf {ε : Type} : Except ε Unit → Option ε
  | .error e => some e
  | .ok () => none

/-- Retain the regions of a batch, giving all leases back when one cannot be taken. -/
def retainBatch (memory : MemoryRegistry MRS) :
    List UInt32 → List (RegionLease MRS) →
      MemoryRegistry MRS × Except MemoryError (List (RegionLease MRS))
  | [], leases => (memory, .ok leases)
  | key :: keys, leases =>
    match memory.retainLocal key with
    | .ok (lease, memory) => retainBatch memory keys (leases ++ [lease])
    | .error e =>
      (leases.foldl (fun memory lease ↦ (releaseLease memory (some lease)).1) memory, .error e)

/-- Post a batch of send-queue work requests atomically. -/
def postWorkBatch (handle : QpHandle)
    (works : List WorkRequest) : RcEndpoint QPS MRS SQ RQ CQ IDX × Except ApiError ℕ :=
  if works = [] then (ep, .ok 0)
  else
    match ep.qpIndex handle with
    | none => (ep, .error .invalidQpHandle)
    | some (index, slot) =>
      if slot.machine.state ≠ .rts then (ep, .error (.qpNotReady slot.machine.state))
      else if slot.sendQueue.remainingCapacity < works.length then
        (ep, .error (.queueFull .send))
      else if CQ - (slot.completionQueue.len + slot.completionReservations) < works.length then
        (ep, .error (.queueFull .completion))
      else
        match works.findSome? (fun work ↦
            errorOf (validatePostedWork ep.memory work slot.mtu)) with
        | some e => (ep, .error e)
        | none =>
          match retainBatch ep.memory (works.map fun work ↦ work.sge.lkey) [] with
          | (memory, .error e) => ({ ep with memory := memory }, .error (.memory e))
          | (memory, .ok leases) =>
            let posted := works.zipWith (fun work lease ↦ ⟨work, some lease⟩) leases
            let qp := slot.toQpTransport.workPosted (slot.sendQueue.pushAll posted) works
            let ep := ({ ep with memory := memory }.setSlot index
              { slot with toQpTransport := qp }).synchronizeQp index
            ({ ep with stats := { ep.stats with
                postedWorkRequests :=
                  saturatingAdd ep.stats.postedWorkRequests works.length } },
              .ok works.length)

/-- Post a batch of receive work requests atomically. -/
def postReceiveBatch (handle : QpHandle)
    (works : List RecvWorkRequest) : RcEndpoint QPS MRS SQ RQ CQ IDX × Except ApiError ℕ :=
  if works = [] then (ep, .ok 0)
  else
    match ep.qpIndex handle with
    | none => (ep, .error .invalidQpHandle)
    | some (index, slot) =>
      if canPostReceive slot.machine.state = false then
        (ep, .error (.qpNotReady slot.machine.state))
      else if slot.receiveQueue.remainingCapacity < works.length then
        (ep, .error (.queueFull .receive))
      else if CQ - (slot.completionQueue.len + slot.completionReservations) < works.length then
        (ep, .error (.queueFull .completion))
      else
        match works.findSome? (fun work ↦
            errorOf (ep.memory.validateLocalWrite work.sge.lkey work.sge.address
              work.sge.length.toNat)) with
        | some e => (ep, .error (.memory e))
        | none =>
          match retainBatch ep.memory (works.map fun work ↦ work.sge.lkey) [] with
          | (memory, .error e) => ({ ep with memory := memory }, .error (.memory e))
          | (memory, .ok leases) =>
            let posted := works.zipWith (fun work lease ↦ ⟨work, some lease⟩) leases
            let qp := slot.toQpTransport.receivePosted (slot.receiveQueue.pushAll posted) works
            let ep := { ep with memory := memory }.setSlot index
              { slot with toQpTransport := qp }
            ({ ep with stats := { ep.stats with
                postedReceiveRequests :=
                  saturatingAdd ep.stats.postedReceiveRequests works.length } },
              .ok works.length)

/-- Take the oldest completion of a queue pair. -/
def pollQp (qp : QpTransport MRS SQ RQ CQ) :
    Option (Completion × QpTransport MRS SQ RQ CQ) :=
  match qp.completionQueue.pop with
  | none => none
  | some (completion, queue) =>
    some (completion, { qp with
      completionQueue := queue
      history := { qp.history with polled := qp.history.polled ++ [completion] } })

def pollMany : ℕ → QpTransport MRS SQ RQ CQ → QpTransport MRS SQ RQ CQ × List Completion
  | 0, qp => (qp, [])
  | count + 1, qp =>
    match pollQp qp with
    | none => (qp, [])
    | some (completion, qp) =>
      let rest := pollMany count qp
      (rest.1, completion :: rest.2)

/-- Remove the oldest completion of a queue pair. -/
def pollCompletion (handle : QpHandle) :
    RcEndpoint QPS MRS SQ RQ CQ IDX × Except ApiError (Option Completion) :=
  match ep.qpIndex handle with
  | none => (ep, .error .invalidQpHandle)
  | some (index, slot) =>
    match pollQp slot.toQpTransport with
    | none => (ep, .ok none)
    | some (completion, qp) =>
      (ep.setSlot index { slot with toQpTransport := qp }, .ok (some completion))

def pollCompletions (handle : QpHandle) (count : ℕ) :
    RcEndpoint QPS MRS SQ RQ CQ IDX × Except ApiError (List Completion) :=
  match ep.qpIndex handle with
  | none => (ep, .error .invalidQpHandle)
  | some (index, slot) =>
    let polled := pollMany count slot.toQpTransport
    (ep.setSlot index { slot with toQpTransport := polled.1 }, .ok polled.2)

def completionLen (handle : QpHandle) : Except ApiError ℕ :=
  match ep.qpIndex handle with
  | none => .error .invalidQpHandle
  | some (_, slot) => .ok slot.completionQueue.len

/-! ## Memory -/

def registerMemory (buffer : Buffer) (access : AccessFlags)
    (generator : Option KeyGenerator) :
    RcEndpoint QPS MRS SQ RQ CQ IDX × Except ApiError RegionHandle :=
  match ep.memory.registerInner buffer access generator with
  | (memory, .ok handle) => ({ ep with memory := memory }, .ok handle)
  | (memory, .error e) => ({ ep with memory := memory }, .error (.memory e))

def deregisterMemory (handle : RegionHandle) :
    RcEndpoint QPS MRS SQ RQ CQ IDX × Except ApiError (List UInt8) :=
  match ep.memory.deregister handle with
  | (memory, .ok bytes) => ({ ep with memory := memory }, .ok bytes)
  | (memory, .error e) => ({ ep with memory := memory }, .error (.memory e))

/-- A copy into registered memory through the checked access view. -/
def writeMemory (kind : KeyKind) (key : UInt32)
    (address : UInt64) (input : List UInt8) :
    RcEndpoint QPS MRS SQ RQ CQ IDX × Except ApiError Unit :=
  let written := match kind with
    | .loc => ep.memory.writeLocal key address input
    | .remote => ep.memory.writeRemote key address input
  match written with
  | .ok memory => ({ ep with memory := memory }, .ok ())
  | .error e => (ep, .error (.memory e))

end RcEndpoint

end Rocev2.Rc
