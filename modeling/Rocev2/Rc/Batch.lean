import Rocev2.Rc.Progress

/-!
# Batched progress

`RcEndpoint::progress_batch` of `rocev2/src/rc.rs`: timers, then a burst of received packets,
then a burst of transmitted ones.

Outgoing packets are staged first: a staged slot is popped from its ready queue and its packet is
encoded, but its transport state advances only when the backend accepts the packet.  The packets
after the accepted prefix are rolled back by synchronizing their slots again.

`BatchIo` holds what the backend does during one call, including every way in which it can break
the ownership contract that the engine checks.
-/

namespace Rocev2.Rc

open Rocev2.Core Rocev2.Wire Rocev2.Memory

/-- What the backend returns for one received frame. -/
inductive RxFrame where
  /-- The frame cannot be read. -/
  | ioError
  /-- A datagram of the given length with the strict decoder's verdict. -/
  | datagram (length : ℕ) (decoded : Option DecodedPacket)

/-- What the backend returns for one transmit frame. -/
inductive TxFrame where
  /-- The buffer of the frame cannot be borrowed. -/
  | ioError
  /-- A buffer of the given length. -/
  | buffer (length : ℕ)

/-- The backend during one batched progress call. -/
structure BatchIo where
  /-- Whether transmit completions can be reaped. -/
  reapOk : Bool
  /-- The received frames, `none` for a slot the backend left empty, or a failure. -/
  receive : Option (List (Option RxFrame))
  /-- Whether received frames can be recycled. -/
  recycleOk : Bool
  /-- The acquired frames, `none` for a slot the backend left empty, or a failure. -/
  acquire : Option (List (Option TxFrame))
  /-- The number of submitted packets the backend accepts. -/
  accepted : ℕ
  /-- Whether the submission reports a failure. -/
  submitError : Bool
  /-- Whether the backend took exactly the accepted frames. -/
  ownershipOk : Bool
  /-- Whether unused frames can be released. -/
  releaseOk : Bool

/-- The payload of a prepared packet. -/
inductive PreparedPayload where
  | empty
  | loc (lkey : UInt32) (address : UInt64) (length : ℕ)
  | remote (rkey : UInt32) (address : UInt64) (length : ℕ)

/-- A packet whose payload has been validated but not yet read. -/
structure PreparedWirePacket where
  /-- The packet without its payload. -/
  header : WirePacket
  /-- Where the payload is read from. -/
  payload : PreparedPayload

/-- What a staged packet will change once it is accepted. -/
inductive PreparedTx (QPS : ℕ) where
  | control (reply : ControlReply)
  | requester (qpIndex : Fin QPS) (timeoutTicks : ℕ) (nextClass : DataTxClass)
  | responder (qpIndex : Fin QPS) (nextClass : DataTxClass)

/-- The class and the slot of a staged packet. -/
def PreparedTx.qpIndex {QPS : ℕ} : PreparedTx QPS → Option (DataTxClass × Fin QPS)
  | .control _ => none
  | .requester index _ _ => some (.requester, index)
  | .responder index _ => some (.responder, index)

/-- Prepare the next packet of a SEND or WRITE. -/
def prepareSegmentedBatchPacket {MRS : ℕ} (memory : MemoryRegistry MRS) (active : ActiveRequest)
    (mtu remoteQpn : ℕ) (path : Ipv4Path) (direction : TransferDirection)
    (remote : Option (UInt64 × UInt32)) : Except RequestPacketError PreparedWirePacket :=
  match segmentBounds active.work.sge.length mtu active.nextPacket with
  | none => .error .arithmeticOverflow
  | some (offset, length) =>
    match checkedAdd active.work.sge.address offset with
    | none => .error .arithmeticOverflow
    | some address =>
      match memory.validateLocalRead active.work.sge.lkey address length with
      | .error _ => .error .localProtection
      | .ok () =>
        .ok ⟨segmentPacket active direction remote remoteQpn path [],
          .loc active.work.sge.lkey address length⟩

/-- Prepare the next packet of the active request. -/
def prepareRequestBatchPacket {MRS : ℕ} (memory : MemoryRegistry MRS) (active : ActiveRequest)
    (mtu remoteQpn : ℕ) (path : Ipv4Path) : Except RequestPacketError PreparedWirePacket :=
  match active.work.kind with
  | .send => prepareSegmentedBatchPacket memory active mtu remoteQpn path .send none
  | .rdmaWrite remoteAddress rkey =>
    prepareSegmentedBatchPacket memory active mtu remoteQpn path .write
      (some (remoteAddress, rkey))
  | .rdmaRead remoteAddress rkey =>
    .ok ⟨readRequestPacket active remoteAddress rkey remoteQpn path, .empty⟩

namespace RcEndpoint

variable {QPS MRS SQ RQ CQ IDX : ℕ}

/-! ## Preparation -/

/-- A prepared packet with its effect, and the completions generated on the way. -/
abbrev Prepared (QPS : ℕ) := Option (PreparedWirePacket × PreparedTx QPS) × ℕ

/-- Prepare a requester packet. -/
def prepareRequesterBatch (nextClass : DataTxClass) :
    ℕ → RcEndpoint QPS MRS SQ RQ CQ IDX → ℕ →
      RcEndpoint QPS MRS SQ RQ CQ IDX × Except ApiError (Prepared QPS)
  | 0, ep, generated => (ep.countCompletions generated, .ok (none, generated))
  | fuel + 1, ep, generated =>
    match ep.requesterReady.pop with
    | none => (ep.countCompletions generated, .ok (none, generated))
    | some (index, queue) =>
      let ep := { ep with requesterReady := queue }.log
        (.taken .requester index queue.slots (ep.runnable .responder))
      match ep.qps index with
      | none =>
        prepareRequesterBatch nextClass fuel (ep.log (.returned .requester index)) generated
      | some slot =>
        let slot := { slot with
          requesterScheduled := false
          toQpTransport := startNextRequest slot.toQpTransport ep.config.ticksPerSecond }
        let ep := ep.setSlot index slot
        match slot.activeRequest with
        | none =>
          prepareRequesterBatch nextClass fuel
            ((ep.log (.returned .requester index)).synchronizeQp index) generated
        | some active =>
          if active.phase ≠ .sending then
            prepareRequesterBatch nextClass fuel
              ((ep.log (.returned .requester index)).synchronizeQp index) generated
          else
            let config := slot.machine.config
            match ackTimeoutTicks config.timeout ep.config.ticksPerSecond with
            | none => (ep.log (.returned .requester index), .error .invalidTicksPerSecond)
            | some timeoutTicks =>
              match prepareRequestBatchPacket ep.memory active config.pathMtu.bytes
                  config.remoteQpn slot.path with
              | .error .arithmeticOverflow =>
                (((ep.log (.returned .requester index)).synchronizeQp index).countCompletions
                    generated,
                  .error .arithmeticOverflow)
              | .error .localProtection =>
                let ep := ep.log (.faulted .requester index)
                let failed := failActiveAndError (ep.context slot) .localProtectionError
                prepareRequesterBatch nextClass fuel
                  ((ep.restore index slot failed.1).synchronizeQp index) (generated + failed.2)
              | .ok packet =>
                (ep.countCompletions generated,
                  .ok (some (packet, .requester index timeoutTicks nextClass), generated))

/-- Prepare a READ response packet. -/
def prepareReadResponseBatch (nextClass : DataTxClass) :
    ℕ → RcEndpoint QPS MRS SQ RQ CQ IDX → ℕ →
      RcEndpoint QPS MRS SQ RQ CQ IDX × Except ApiError (Prepared QPS)
  | 0, ep, generated => (ep, .ok (none, generated))
  | fuel + 1, ep, generated =>
    match dequeueReadResponse ep.responderReady.len ep with
    | (ep, none) => (ep, .ok (none, generated))
    | (ep, some ready) =>
      match readResponseSegment ready.response ready.mtu with
      | .error e =>
        ((ep.log (.returned .responder ready.qpIndex)).synchronizeQp ready.qpIndex, .error e)
      | .ok (address, length) =>
        match ep.memory.validateRemoteRead ready.response.rkey address length with
        | .error _ =>
          let failed := ep.failReadResponder ready.qpIndex
          prepareReadResponseBatch nextClass fuel failed.1 (generated + failed.2.completions)
        | .ok () =>
          (ep, .ok (some (⟨readResponsePacket ready [], .remote ready.response.rkey address length⟩,
            .responder ready.qpIndex nextClass), generated))

variable (ep : RcEndpoint QPS MRS SQ RQ CQ IDX)

def prepareDataClassBatch (kind nextClass : DataTxClass) :
    RcEndpoint QPS MRS SQ RQ CQ IDX × Except ApiError (Prepared QPS) :=
  match kind with
  | .requester => prepareRequesterBatch nextClass ep.requesterReady.len ep 0
  | .responder => prepareReadResponseBatch nextClass (ep.responderReady.len + 1) ep 0

/-- The cursor of a staging loop. -/
structure Staging where
  /-- The next owed reply to stage. -/
  controlOffset : ℕ
  /-- The data class to try first. -/
  stagingClass : DataTxClass
  /-- The progress so far. -/
  progress : RcProgress

/-- Prepare the next packet of a batch: owed replies first, then data. -/
def prepareNextBatchTx (staging : Staging) :
    RcEndpoint QPS MRS SQ RQ CQ IDX × Staging ×
      Except ApiError (Option (PreparedWirePacket × PreparedTx QPS)) :=
  match ep.pendingControl.items[staging.controlOffset]? with
  | some reply =>
    (ep, { staging with controlOffset := staging.controlOffset + 1 },
      .ok (some (⟨controlPacket reply, .empty⟩, .control reply)))
  | none =>
    let first := staging.stagingClass
    let second := first.other
    match ep.prepareDataClassBatch first second with
    | (ep, .error e) => (ep, staging, .error e)
    | (ep, .ok (prepared, completions)) =>
      let staging := { staging with progress := { staging.progress with
        completions := staging.progress.completions + completions } }
      match prepared with
      | some prepared => (ep, { staging with stagingClass := second }, .ok (some prepared))
      | none =>
        match ep.prepareDataClassBatch second first with
        | (ep, .error e) => (ep, staging, .error e)
        | (ep, .ok (prepared, completions)) =>
          let staging := { staging with progress := { staging.progress with
            completions := staging.progress.completions + completions } }
          let staging :=
            if prepared.isSome then { staging with stagingClass := first } else staging
          (ep, staging, .ok prepared)

/-- Undo the staging of a packet. -/
def rollbackPreparedTx (prepared : PreparedTx QPS) :
    RcEndpoint QPS MRS SQ RQ CQ IDX :=
  match prepared.qpIndex with
  | some (kind, index) => (ep.log (.returned kind index)).synchronizeQp index
  | none => ep

/-- Read the payload of a prepared packet. -/
def preparedPacket (memory : MemoryRegistry MRS) (prepared : PreparedWirePacket) :
    Except MemoryError WirePacket :=
  match prepared.payload with
  | .empty => .ok prepared.header
  | .loc lkey address length =>
    match memory.readLocal lkey address length with
    | .error e => .error e
    | .ok payload => .ok { prepared.header with payload := payload }
  | .remote rkey address length =>
    match memory.readRemote rkey address length with
    | .error e => .error e
    | .ok payload => .ok { prepared.header with payload := payload }

/-- Encode a prepared packet into a frame. -/
def encodeBatchPacket (frame : TxFrame)
    (prepared : PreparedWirePacket) :
    RcEndpoint QPS MRS SQ RQ CQ IDX × Except PollError ℕ :=
  match preparedPacket ep.memory prepared with
  | .error e => (ep, .error (.api (.memory e)))
  | .ok packet =>
    match frame with
    | .ioError => (ep.countIoError, .error .io)
    | .buffer output =>
      match encodeIpv4Packet packet output with
      | .error e => (ep, .error (.api e))
      | .ok length =>
        if ep.config.maximumPacketSize < length then
          (ep, .error (.api (.packetTooLarge length ep.config.maximumPacketSize)))
        else ({ ep with offered := ep.offered ++ [packet] }, .ok length)

/-- Stage packets into the acquired frames; `staged` is what has been staged, oldest first. -/
def stageBatchPackets :
    List TxFrame → RcEndpoint QPS MRS SQ RQ CQ IDX → Staging → List (PreparedTx QPS × ℕ) →
      RcEndpoint QPS MRS SQ RQ CQ IDX × Staging × List (PreparedTx QPS × ℕ) × Option PollError
  | [], ep, staging, staged => (ep, staging, staged, none)
  | frame :: frames, ep, staging, staged =>
    match ep.prepareNextBatchTx staging with
    | (ep, staging, .error e) => (ep, staging, staged, some (.api e))
    | (ep, staging, .ok none) => (ep, staging, staged, none)
    | (ep, staging, .ok (some (wire, prepared))) =>
      match ep.encodeBatchPacket frame wire with
      | (ep, .error e) => (ep.rollbackPreparedTx prepared, staging, staged, some e)
      | (ep, .ok length) =>
        stageBatchPackets frames ep staging (staged ++ [(prepared, length)])

/-! ## Submission -/

/-- Apply the effect of an accepted packet. -/
def commitPreparedTx (prepared : PreparedTx QPS)
    (now : ℕ) : RcEndpoint QPS MRS SQ RQ CQ IDX × Except ApiError Unit :=
  match prepared with
  | .control expected =>
    match ep.pendingControl.pop with
    | none => (ep, .error .packetIoContractViolation)
    | some (actual, rest) =>
      let ep := { ep with pendingControl := rest }
      if actual ≠ expected then (ep, .error .packetIoContractViolation)
      else ((ep.recordControlTransmit actual).log (.replied actual), .ok ())
  | .requester index timeoutTicks nextClass =>
    match ep.qps index with
    | none => (ep, .error .invalidQpHandle)
    | some slot =>
      let ep := ep.log (.accepted .requester index slot.toQpTransport)
      let slot := { slot with
        toQpTransport := markRequestPacketSent slot.toQpTransport now timeoutTicks }
      let ep := { ep.setSlot index slot with nextDataTxClass := nextClass }
      (ep.synchronizeQp index, .ok ())
  | .responder index nextClass =>
    { ep with nextDataTxClass := nextClass }.advanceReadResponse index

/-- Apply the effects of the accepted packets, keeping the first error. -/
def commitAcceptedBatch (now : ℕ) :
    List (PreparedTx QPS × ℕ) → RcEndpoint QPS MRS SQ RQ CQ IDX → RcProgress → Option ApiError →
      RcEndpoint QPS MRS SQ RQ CQ IDX × RcProgress × Option ApiError
  | [], ep, progress, error => (ep, progress, error)
  | (prepared, length) :: staged, ep, progress, error =>
    let committed := ep.commitPreparedTx prepared now
    let error := match error, committed.2 with
      | some e, _ => some e
      | none, .error e => some e
      | none, .ok () => none
    commitAcceptedBatch now staged (committed.1.recordTransmit length)
      { progress with transmittedPackets := progress.transmittedPackets + 1 } error

def rollbackAll (staged : List (PreparedTx QPS × ℕ)) :
    RcEndpoint QPS MRS SQ RQ CQ IDX :=
  staged.foldl (fun ep prepared ↦ ep.rollbackPreparedTx prepared.1) ep

def firstError (errors : List (Option PollError)) (progress : RcProgress) :
    Except PollError RcProgress :=
  match errors.findSome? id with
  | some e => .error e
  | none => .ok progress

/-- Submit the staged packets, commit the accepted prefix and roll the rest back. -/
def submitStagedBatch (now : ℕ) (io : BatchIo)
    (staged : List (PreparedTx QPS × ℕ)) (progress : RcProgress)
    (preparationError : Option PollError) :
    RcEndpoint QPS MRS SQ RQ CQ IDX × Except PollError RcProgress :=
  if staged.length < io.accepted ∨ io.ownershipOk = false then
    (ep.rollbackAll staged, .error (.api .packetIoContractViolation))
  else
    let committed := commitAcceptedBatch now (staged.take io.accepted) ep progress none
    let ep := committed.1.rollbackAll (staged.drop io.accepted)
    if io.releaseOk = false then (ep.countIoError, .error .io)
    else
      let ep := if io.submitError then ep.countIoError else ep
      (ep, firstError
        [if io.submitError then some .io else none, committed.2.2.map .api, preparationError]
        committed.2.1)

/-- Transmit a burst of packets. -/
def transmitBatchPhase (now budget : ℕ) (io : BatchIo)
    (progress : RcProgress) : RcEndpoint QPS MRS SQ RQ CQ IDX × Except PollError RcProgress :=
  match io.acquire with
  | none => (ep.countIoError, .error .io)
  | some frames =>
    if budget < frames.length ∨ frames.any Option.isNone then
      (ep, .error (.api .packetIoContractViolation))
    else if frames = [] then (ep, .ok progress)
    else
      match stageBatchPackets (frames.filterMap id) ep ⟨0, ep.nextDataTxClass, progress⟩ [] with
      | (ep, staging, [], preparationError) =>
        if io.releaseOk = false then (ep.countIoError, .error .io)
        else (ep, firstError [preparationError] staging.progress)
      | (ep, staging, prepared :: staged, preparationError) =>
        ep.submitStagedBatch now io (prepared :: staged) staging.progress preparationError

/-! ## Reception -/

/-- Process received frames until one fails. -/
def receiveFrames (now : ℕ) :
    List RxFrame → RcEndpoint QPS MRS SQ RQ CQ IDX → RcProgress →
      RcEndpoint QPS MRS SQ RQ CQ IDX × RcProgress × Option PollError
  | [], ep, progress => (ep, progress, none)
  | .ioError :: _, ep, progress => (ep.countIoError, progress, some .io)
  | .datagram length decoded :: frames, ep, progress =>
    let progress := { progress with receivedPackets := progress.receivedPackets + 1 }
    if ep.config.maximumPacketSize < length then
      receiveFrames now frames ep.recordInvalidDrop progress
    else
      match decoded with
      | none => receiveFrames now frames ep.recordInvalidDrop progress
      | some decoded =>
        match (ep.recordReceive length).processIncoming now decoded with
        | (ep, .error e) => (ep, progress, some (.api e))
        | (ep, .ok none) => receiveFrames now frames ep progress
        | (ep, .ok (some result)) =>
          let progress := { progress with
            completions := progress.completions + result.completions
            retransmissions := progress.retransmissions + result.retransmissions }
          match result.reply with
          | none => receiveFrames now frames ep progress
          | some reply =>
            match ep.pendingControl.push reply with
            | .error _ => (ep, progress, some (.api .packetIoContractViolation))
            | .ok ring => receiveFrames now frames { ep with pendingControl := ring } progress

/-- Receive a burst of packets, as many as replies can be queued. -/
def receiveBatchPhase (now budget : ℕ) (io : BatchIo)
    (progress : RcProgress) : RcEndpoint QPS MRS SQ RQ CQ IDX × Except PollError RcProgress :=
  let receiveBudget := min budget ep.pendingControl.remainingCapacity
  if receiveBudget = 0 then (ep, .ok progress)
  else
    match io.receive with
    | none => (ep.countIoError, .error .io)
    | some frames =>
      if receiveBudget < frames.length ∨ frames.any Option.isNone then
        (ep, .error (.api .packetIoContractViolation))
      else
        let received := receiveFrames now (frames.filterMap id) ep progress
        if io.recycleOk = false then (received.1.countIoError, .error .io)
        else (received.1, firstError [received.2.2] received.2.1)

/-- Make bounded batched progress. -/
def progressBatch (now budget : ℕ) (io : BatchIo) :
    RcEndpoint QPS MRS SQ RQ CQ IDX × Except PollError RcProgress :=
  let budget := min budget maxBatchPackets
  if budget = 0 then (ep, .ok {})
  else if io.reapOk = false then (ep.countIoError, .error .io)
  else
    let timers := ep.serviceTimers now budget
    let progress : RcProgress :=
      { completions := timers.2.completions, retransmissions := timers.2.retransmissions }
    match timers.1.receiveBatchPhase now budget io progress with
    | (ep, .error e) => (ep, .error e)
    | (ep, .ok progress) => ep.transmitBatchPhase now budget io progress

end RcEndpoint

/-! ## Public operations -/

/-- The public operations of an endpoint, with what the backend does during each. -/
inductive Op where
  | registerMemory (buffer : Buffer) (access : AccessFlags) (generator : Option KeyGenerator)
  | deregisterMemory (handle : RegionHandle)
  | writeMemory (kind : KeyKind) (key : UInt32) (address : UInt64) (input : List UInt8)
  | createQp (config : RcQpConfig)
  | removeQp (handle : QpHandle)
  | reconfigureQp (handle : QpHandle) (config : RcQpConfig)
  | transitionQp (handle : QpHandle) (destination : QpState)
  | postWork (handle : QpHandle) (work : WorkRequest)
  | postWorkBatch (handle : QpHandle) (works : List WorkRequest)
  | postReceive (handle : QpHandle) (work : RecvWorkRequest)
  | postReceiveBatch (handle : QpHandle) (works : List RecvWorkRequest)
  | pollCompletion (handle : QpHandle)
  | pollCompletions (handle : QpHandle) (count : ℕ)
  | progress (now : ℕ) (io : PollIo)
  | progressBatch (now budget : ℕ) (io : BatchIo)

namespace RcEndpoint

variable {QPS MRS SQ RQ CQ IDX : ℕ}

/-- The endpoint that a public operation leaves behind, whatever it returns. -/
def step (ep : RcEndpoint QPS MRS SQ RQ CQ IDX) : Op → RcEndpoint QPS MRS SQ RQ CQ IDX
  | .registerMemory buffer access generator => (ep.registerMemory buffer access generator).1
  | .deregisterMemory handle => (ep.deregisterMemory handle).1
  | .writeMemory kind key address input => (ep.writeMemory kind key address input).1
  | .createQp config => (ep.createQp config).1
  | .removeQp handle => (ep.removeQp handle).1
  | .reconfigureQp handle config => (ep.reconfigureQp handle config).1
  | .transitionQp handle destination => (ep.transitionQp handle destination).1
  | .postWork handle work => (ep.postWork handle work).1
  | .postWorkBatch handle works => (ep.postWorkBatch handle works).1
  | .postReceive handle work => (ep.postReceive handle work).1
  | .postReceiveBatch handle works => (ep.postReceiveBatch handle works).1
  | .pollCompletion handle => (ep.pollCompletion handle).1
  | .pollCompletions handle count => (ep.pollCompletions handle count).1
  | .progress now io => (ep.progress now io).1
  | .progressBatch now budget io => (ep.progressBatch now budget io).1

end RcEndpoint

end Rocev2.Rc
