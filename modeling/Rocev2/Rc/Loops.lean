import Rocev2.Rc.Batch

/-!
# The loops of a progress call

The source has five loops without a bound of their own: they take slots from a ready queue, or
entries from the timer heap, until there are none left, and an iteration may put the slot that it
took back through `synchronize_qp`.  The model unrolls them with fuel.  Here the bodies of the loops
are written down by themselves, without fuel: `Sum.inl` is what the loop returns, `Sum.inr` the
state of the next iteration.  The functions with fuel unroll these bodies.
-/

namespace Rocev2.Rc

open Rocev2.Core

variable {QPS MRS SQ RQ CQ IDX : ℕ}

/-! ## Taking a slot -/

section Slot

variable (slot : RcQpSlot MRS SQ RQ CQ)

def RcQpSlot.requesting (ticksPerSecond : ℕ) :
    RcQpSlot MRS SQ RQ CQ :=
  { slot with
    requesterScheduled := false
    toQpTransport := startNextRequest slot.toQpTransport ticksPerSecond }

def RcQpSlot.responding : RcQpSlot MRS SQ RQ CQ :=
  { slot with responderScheduled := false }

def RcQpSlot.readyResponse (index : Fin QPS)
    (response : ReadResponseState) : ReadyReadResponse QPS :=
  ⟨index, slot.path, slot.machine.config.remoteQpn, response, slot.messageSequenceNumber, slot.mtu⟩

end Slot

namespace RcEndpoint

def requesterTaken (ep : RcEndpoint QPS MRS SQ RQ CQ IDX) (index : Fin QPS)
    (queue : ReadyQueue QPS) (slot : RcQpSlot MRS SQ RQ CQ) : RcEndpoint QPS MRS SQ RQ CQ IDX :=
  ({ ep with requesterReady := queue }.log
    (.taken .requester index queue.slots (ep.runnable .responder))).setSlot index
    (slot.requesting ep.config.ticksPerSecond)

def responderTaken (ep : RcEndpoint QPS MRS SQ RQ CQ IDX) (index : Fin QPS)
    (queue : ReadyQueue QPS) (slot : RcQpSlot MRS SQ RQ CQ) : RcEndpoint QPS MRS SQ RQ CQ IDX :=
  ({ ep with responderReady := queue }.log
    (.taken .responder index queue.slots (ep.runnable .requester))).setSlot index slot.responding

/-! ## Bodies -/

/-- One iteration of a loop over the requester's ready queue.  The loops of the scalar and of the
batched path differ in what they return and in how they make a packet. -/
def requesterBody {ρ : Type} (exit : RcEndpoint QPS MRS SQ RQ CQ IDX → ℕ → ρ)
    (late : RcEndpoint QPS MRS SQ RQ CQ IDX → ρ)
    (send : RcEndpoint QPS MRS SQ RQ CQ IDX → Fin QPS → RcQpSlot MRS SQ RQ CQ → ActiveRequest →
      ℕ → ℕ → ρ ⊕ RcEndpoint QPS MRS SQ RQ CQ IDX × ℕ) :
    RcEndpoint QPS MRS SQ RQ CQ IDX × ℕ → ρ ⊕ RcEndpoint QPS MRS SQ RQ CQ IDX × ℕ
  | (ep, generated) =>
    match ep.requesterReady.pop with
    | none => .inl (exit ep generated)
    | some (index, queue) =>
      let ep := { ep with requesterReady := queue }.log
        (.taken .requester index queue.slots (ep.runnable .responder))
      match ep.qps index with
      | none => .inr (ep.log (.returned .requester index), generated)
      | some slot =>
        let slot := slot.requesting ep.config.ticksPerSecond
        let ep := ep.setSlot index slot
        match slot.activeRequest with
        | none => .inr ((ep.log (.returned .requester index)).synchronizeQp index, generated)
        | some active =>
          if active.phase ≠ .sending then
            .inr ((ep.log (.returned .requester index)).synchronizeQp index, generated)
          else
            match ackTimeoutTicks slot.machine.config.timeout ep.config.ticksPerSecond with
            | none => .inl (late (ep.log (.returned .requester index)))
            | some timeoutTicks => send ep index slot active timeoutTicks generated

def requesterFault (ep : RcEndpoint QPS MRS SQ RQ CQ IDX) (index : Fin QPS)
    (slot : RcQpSlot MRS SQ RQ CQ) (generated : ℕ) : RcEndpoint QPS MRS SQ RQ CQ IDX × ℕ :=
  let ep := ep.log (.faulted .requester index)
  let failed := failActiveAndError (ep.context slot) .localProtectionError
  ((ep.restore index slot failed.1).synchronizeQp index, generated + failed.2)

/-- One iteration of `emit_requester`. -/
def emitRequesterBody (now : ℕ) (io : PollIo) :
    RcEndpoint QPS MRS SQ RQ CQ IDX × ℕ →
      (RcEndpoint QPS MRS SQ RQ CQ IDX × Except PollError EmitResult) ⊕
        RcEndpoint QPS MRS SQ RQ CQ IDX × ℕ :=
  requesterBody
    (fun ep generated ↦ (ep.countCompletions generated, .ok { completions := generated }))
    (fun ep ↦ (ep, .error (.api .invalidTicksPerSecond)))
    fun ep index slot active timeoutTicks generated ↦
      match buildRequestPacket ep.memory active slot.machine.config.pathMtu.bytes
          slot.machine.config.remoteQpn slot.path with
      | .error .arithmeticOverflow =>
        .inl (((ep.log (.returned .requester index)).synchronizeQp index).countCompletions
          generated, .error (.api .arithmeticOverflow))
      | .error .localProtection => .inr (ep.requesterFault index slot generated)
      | .ok packet =>
        match ep.transmitPacket io packet with
        | (ep, .error e) =>
          .inl (((ep.log (.returned .requester index)).synchronizeQp index).countCompletions
            generated, .error e)
        | (ep, .ok ()) =>
          let ep := ep.log (.accepted .requester index slot.toQpTransport)
          .inl (((ep.setSlot index { slot with
              toQpTransport := markRequestPacketSent slot.toQpTransport now
                timeoutTicks }).synchronizeQp index).countCompletions generated,
            .ok { transmitted := true, completions := generated })

variable (nextClass : DataTxClass)

/-- One iteration of `prepare_requester_batch`. -/
def prepareRequesterBody :
    RcEndpoint QPS MRS SQ RQ CQ IDX × ℕ →
      (RcEndpoint QPS MRS SQ RQ CQ IDX × Except ApiError (Prepared QPS)) ⊕
        RcEndpoint QPS MRS SQ RQ CQ IDX × ℕ :=
  requesterBody (fun ep generated ↦ (ep.countCompletions generated, .ok (none, generated)))
    (fun ep ↦ (ep, .error .invalidTicksPerSecond))
    fun ep index slot active timeoutTicks generated ↦
      match prepareRequestBatchPacket ep.memory active slot.machine.config.pathMtu.bytes
          slot.machine.config.remoteQpn slot.path with
      | .error .arithmeticOverflow =>
        .inl (((ep.log (.returned .requester index)).synchronizeQp index).countCompletions
          generated, .error .arithmeticOverflow)
      | .error .localProtection => .inr (ep.requesterFault index slot generated)
      | .ok packet =>
        .inl (ep.countCompletions generated,
          .ok (some (packet, .requester index timeoutTicks nextClass), generated))

/-- One iteration of `dequeue_read_response`. -/
def dequeueBody (ep : RcEndpoint QPS MRS SQ RQ CQ IDX) :
    (RcEndpoint QPS MRS SQ RQ CQ IDX × Option (ReadyReadResponse QPS)) ⊕
      RcEndpoint QPS MRS SQ RQ CQ IDX :=
  match ep.responderReady.pop with
  | none => .inl (ep, none)
  | some (index, queue) =>
    let ep := { ep with responderReady := queue }.log
      (.taken .responder index queue.slots (ep.runnable .requester))
    match ep.qps index with
    | none => .inr ((ep.log (.returned .responder index)).synchronizeQp index)
    | some slot =>
      let slot := slot.responding
      let ep := ep.setSlot index slot
      match slot.readResponse, slot.responderIsRunnable with
      | some response, true => .inl (ep, some (slot.readyResponse index response))
      | _, _ => .inr ((ep.log (.returned .responder index)).synchronizeQp index)

/-- One iteration of `prepare_read_response_batch`. -/
def prepareReadResponseBody :
    RcEndpoint QPS MRS SQ RQ CQ IDX × ℕ →
      (RcEndpoint QPS MRS SQ RQ CQ IDX × Except ApiError (Prepared QPS)) ⊕
        RcEndpoint QPS MRS SQ RQ CQ IDX × ℕ
  | (ep, generated) =>
    match dequeueReadResponse ep.responderReady.len ep with
    | (ep, none) => .inl (ep, .ok (none, generated))
    | (ep, some ready) =>
      match readResponseSegment ready.response ready.mtu with
      | .error e =>
        .inl ((ep.log (.returned .responder ready.qpIndex)).synchronizeQp ready.qpIndex, .error e)
      | .ok (address, length) =>
        match ep.memory.validateRemoteRead ready.response.rkey address length with
        | .error _ =>
          let failed := ep.failReadResponder ready.qpIndex
          .inr (failed.1, generated + failed.2.completions)
        | .ok () =>
          .inl (ep, .ok (some (⟨readResponsePacket ready [],
            .remote ready.response.rkey address length⟩, .responder ready.qpIndex nextClass),
            generated))

/-- One iteration of `service_timers`, with the number of timers that may still be serviced. -/
def serviceTimersBody (now : ℕ) :
    RcEndpoint QPS MRS SQ RQ CQ IDX × ℕ × HandlerResult →
      (RcEndpoint QPS MRS SQ RQ CQ IDX × HandlerResult) ⊕
        RcEndpoint QPS MRS SQ RQ CQ IDX × ℕ × HandlerResult
  | (ep, 0, result) => .inl (ep, result)
  | (ep, budget + 1, result) =>
    match ep.timerScheduler.popExpired now with
    | none => .inl (ep, result)
    | some (index, entry, timers) =>
      let ep := { ep with timerScheduler := timers }
      match ep.timerAction index entry now with
      | none => .inr (ep.synchronizeQp index, budget + 1, result)
      | some (slot, active) =>
        let retry := ep.expireTimer index slot active
        .inr (retry.1.synchronizeQp index, budget,
          { result with
            completions := result.completions + retry.2.completions
            retransmissions := result.retransmissions + retry.2.retransmissions })

/-- A runnable slot at the head of the queue sends its packet. -/
theorem requesterBody_eq {ρ : Type} {exit : RcEndpoint QPS MRS SQ RQ CQ IDX → ℕ → ρ}
    {late : RcEndpoint QPS MRS SQ RQ CQ IDX → ρ}
    {send : RcEndpoint QPS MRS SQ RQ CQ IDX → Fin QPS → RcQpSlot MRS SQ RQ CQ → ActiveRequest →
      ℕ → ℕ → ρ ⊕ RcEndpoint QPS MRS SQ RQ CQ IDX × ℕ}
    {ep : RcEndpoint QPS MRS SQ RQ CQ IDX} {index : Fin QPS} {queue : ReadyQueue QPS}
    {slot : RcQpSlot MRS SQ RQ CQ} {active : ActiveRequest} {generated : ℕ}
    (hpop : ep.requesterReady.pop = some (index, queue)) (hslot : ep.qps index = some slot)
    (hactive : (slot.requesting ep.config.ticksPerSecond).activeRequest = some active)
    (hphase : active.phase = .sending) :
    requesterBody exit late send (ep, generated) =
      match ackTimeoutTicks (slot.requesting ep.config.ticksPerSecond).machine.config.timeout
        ep.config.ticksPerSecond with
      | none => .inl (late ((ep.requesterTaken index queue slot).log (.returned .requester index)))
      | some timeoutTicks => send (ep.requesterTaken index queue slot) index
          (slot.requesting ep.config.ticksPerSecond) active timeoutTicks generated := by
  unfold requesterBody
  dsimp only
  rw [hpop]
  dsimp only
  split
  · rename_i hnone
    cases hslot.symm.trans hnone
  rename_i current hcurrent
  cases hslot.symm.trans hcurrent
  split
  · rename_i hnone
    cases hactive.symm.trans hnone
  rename_i request hrequest
  cases hactive.symm.trans hrequest
  rw [if_neg (not_not.mpr hphase)]
  rfl

/-! ## Unrolling -/

theorem emitRequesterLoop_succ (now : ℕ) (io : PollIo) (fuel : ℕ)
    (s : RcEndpoint QPS MRS SQ RQ CQ IDX × ℕ) :
    emitRequesterLoop now io (fuel + 1) s.1 s.2 =
      (emitRequesterBody now io s).elim id fun t ↦ emitRequesterLoop now io fuel t.1 t.2 := by
  obtain ⟨ep, generated⟩ := s
  unfold emitRequesterBody requesterBody RcQpSlot.requesting requesterFault
  rw [emitRequesterLoop]
  dsimp only
  cases ep.requesterReady.pop with
  | none => rfl
  | some head =>
    dsimp only
    cases RcEndpoint.qps _ head.1 with
    | none => rfl
    | some slot =>
      dsimp only
      cases (startNextRequest slot.toQpTransport _).activeRequest with
      | none => rfl
      | some active =>
        dsimp only
        by_cases hphase : active.phase ≠ .sending
        · rw [if_pos hphase, if_pos hphase]
          rfl
        · rw [if_neg hphase, if_neg hphase]
          cases ackTimeoutTicks _ _ with
          | none => rfl
          | some timeoutTicks =>
            dsimp only
            cases buildRequestPacket _ active _ _ _ with
            | error fault => cases fault <;> rfl
            | ok packet =>
              dsimp only
              rcases RcEndpoint.transmitPacket _ io packet with ⟨ep', _ | _⟩
              · rfl
              · rfl

theorem prepareRequesterBatch_succ (fuel : ℕ)
    (s : RcEndpoint QPS MRS SQ RQ CQ IDX × ℕ) :
    prepareRequesterBatch nextClass (fuel + 1) s.1 s.2 =
      (prepareRequesterBody nextClass s).elim id
        fun t ↦ prepareRequesterBatch nextClass fuel t.1 t.2 := by
  obtain ⟨ep, generated⟩ := s
  unfold prepareRequesterBody requesterBody RcQpSlot.requesting requesterFault
  rw [prepareRequesterBatch]
  dsimp only
  cases ep.requesterReady.pop with
  | none => rfl
  | some head =>
    dsimp only
    cases RcEndpoint.qps _ head.1 with
    | none => rfl
    | some slot =>
      dsimp only
      cases (startNextRequest slot.toQpTransport _).activeRequest with
      | none => rfl
      | some active =>
        dsimp only
        by_cases hphase : active.phase ≠ .sending
        · rw [if_pos hphase, if_pos hphase]
          rfl
        · rw [if_neg hphase, if_neg hphase]
          cases ackTimeoutTicks _ _ with
          | none => rfl
          | some timeoutTicks =>
            dsimp only
            cases prepareRequestBatchPacket _ active _ _ _ with
            | error fault => cases fault <;> rfl
            | ok packet => rfl

theorem dequeueReadResponse_succ (fuel : ℕ) (ep : RcEndpoint QPS MRS SQ RQ CQ IDX) :
    dequeueReadResponse (fuel + 1) ep = (dequeueBody ep).elim id (dequeueReadResponse fuel) := by
  unfold dequeueBody RcQpSlot.responding
  rw [dequeueReadResponse]
  cases ep.responderReady.pop with
  | none => rfl
  | some head =>
    dsimp only
    cases RcEndpoint.qps _ head.1 with
    | none => rfl
    | some slot =>
      dsimp only
      cases slot.readResponse with
      | none => rfl
      | some response =>
        cases slot.toQpTransport.responderIsRunnable with
        | false => rfl
        | true => rfl

theorem prepareReadResponseBatch_succ (fuel : ℕ)
    (s : RcEndpoint QPS MRS SQ RQ CQ IDX × ℕ) :
    prepareReadResponseBatch nextClass (fuel + 1) s.1 s.2 =
      (prepareReadResponseBody nextClass s).elim id
        fun t ↦ prepareReadResponseBatch nextClass fuel t.1 t.2 := by
  obtain ⟨ep, generated⟩ := s
  unfold prepareReadResponseBody
  rw [prepareReadResponseBatch]
  dsimp only
  rcases dequeueReadResponse ep.responderReady.len ep with ⟨ep', _ | ready⟩
  · rfl
  dsimp only
  cases readResponseSegment ready.response ready.mtu with
  | error e => rfl
  | ok segment =>
    dsimp only
    cases ep'.memory.validateRemoteRead ready.response.rkey segment.1 segment.2 with
    | error e => rfl
    | ok => rfl

theorem serviceTimersLoop_succ (now : ℕ) (fuel : ℕ)
    (s : RcEndpoint QPS MRS SQ RQ CQ IDX × ℕ × HandlerResult) :
    serviceTimersLoop now (fuel + 1) s.2.1 s.1 s.2.2 =
      (serviceTimersBody now s).elim id fun t ↦ serviceTimersLoop now fuel t.2.1 t.1 t.2.2 := by
  obtain ⟨ep, budget, result⟩ := s
  cases budget with
  | zero => rfl
  | succ budget =>
    unfold serviceTimersBody
    dsimp only
    rw [serviceTimersLoop]
    cases ep.timerScheduler.popExpired now with
    | none => rfl
    | some popped =>
      dsimp only
      cases RcEndpoint.timerAction _ popped.1 popped.2.1 now with
      | none => rfl
      | some action => rfl

end RcEndpoint

end Rocev2.Rc
