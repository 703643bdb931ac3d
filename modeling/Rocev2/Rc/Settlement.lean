import Rocev2.Rc.Accounting

/-!
# What a step settles

Every step of a queue pair that is not a call of the application settles pending requests in the
sense of `Settles`.  From this follow the step lemmas of the two accounting invariants:
`QpStep.balanced` and `QpStep.ledger`.

One outcome of the responder breaks the order of the receive completions: a SEND whose first
packet does not fit the receive request at the head of the queue is reported after the requests
behind it have been flushed.  `KeepsOrder` is the negation of its condition.
-/

namespace Rocev2.Rc

open Rocev2.Core Rocev2.Wire Rocev2.Memory

variable {MRS SQ RQ CQ : ℕ}

/-- If the packet is a SEND that is rejected with the receive request at the head of the queue,
then no other receive request is queued behind it. -/
def KeepsOrder (qp : QpTransport MRS SQ RQ CQ) (memory : MemoryRegistry MRS) (packet : PacketRef) :
    Prop :=
  ∀ posted queue, qp.receivePsn.classify packet.bth.psn = .expected →
    packet.bth.opcode = .sendFirst ∨ packet.bth.opcode = .sendOnly →
    packet.bth.partitionKey = Bth.defaultPkey →
    validRequestPayloadLength packet.bth.opcode.position packet.payload.length qp.mtu = true →
    qp.inboundMessage = none → qp.receiveQueue.pop = some (posted, queue) →
    (posted.work.sge.length.toNat < packet.payload.length ∨
      ∃ e, memory.writeLocal posted.work.sge.lkey posted.work.sge.address packet.payload =
        .error e) →
    queue.items = []

section Effects

variable {qp qp' : QpTransport MRS SQ RQ CQ} {memory : MemoryRegistry MRS} {packet : PacketRef}
  {copies : List (ℕ × List UInt8)} {reply : Option ControlReply} {ordered : Prop}
  {position : SegmentPosition} {loaded : QpTransport MRS SQ RQ CQ} {work : RecvWorkRequest}
  {written : ℕ} {active : ActiveRequest} {address : UInt64} {rkey length : UInt32}

open QpTransport

theorem LoadsSend.inbound (h : LoadsSend qp position loaded work written) :
    loaded.inboundMessage = some (.send work written) := by
  cases h with
  | start => rfl
  | resume hpos hsome => exact hsome

theorem LoadsSend.settles (h : LoadsSend qp position loaded work written) :
    Settles ordered qp loaded [] [] [] := by
  cases h with
  | start hpos hnone hpop =>
    refine Settles.same rfl rfl rfl rfl rfl ?_
    simp only [receivePending, inboundWork, hnone, Ring.pop_eq_some.mp hpop]
    rfl
  | resume hpos hsome => exact Settles.same rfl rfl rfl rfl rfl rfl

theorem LoadsWrite.inbound {reth : Option Reth}
    (h : LoadsWrite qp memory reth position loaded address rkey length written) :
    loaded.inboundMessage = some (.write address rkey length written) := by
  cases h with
  | start => rfl
  | resume hpos hsome => exact hsome

theorem LoadsWrite.settles {reth : Option Reth}
    (h : LoadsWrite qp memory reth position loaded address rkey length written) :
    Settles ordered qp loaded [] [] [] := by
  cases h with
  | start hpos hnone hreth hgrants hlease =>
    refine Settles.same rfl rfl rfl rfl rfl ?_
    simp only [receivePending, inboundWork, hnone]
    rfl
  | resume hpos hsome => exact Settles.same rfl rfl rfl rfl rfl rfl

theorem receivePending_of_send (h : qp.inboundMessage = some (.send work written)) :
    qp.receivePending = work :: qp.receiveQueue.items.map fun posted ↦ posted.work := by
  simp [receivePending, inboundWork, h]

theorem receivePending_of_none (h : qp.inboundMessage = none) :
    qp.receivePending = qp.receiveQueue.items.map fun posted ↦ posted.work := by
  simp [receivePending, inboundWork, h]

theorem exists_settles_sendWritten (hb : Balanced qp)
    (hsome : qp.inboundMessage = some (.send work written)) (psn : Psn) (total : ℕ) (final : Bool) :
    ∃ sent received reports,
      Settles ordered qp (qp.sendWritten psn work total final) sent received reports := by
  unfold sendWritten
  split
  · refine ⟨_, _, _, settles_receiveFinished _ hb ?_ ?_ ?_ ?_ ?_ ?_ _ _⟩
    any_goals rfl
    rw [receivePending_of_send hsome]
    rfl
  · refine ⟨_, _, _, Settles.same rfl rfl rfl rfl rfl ?_⟩
    rw [receivePending_of_send hsome]
    rfl

theorem settles_writeWritten (hsome : qp.inboundMessage = some (.write address rkey length written))
    (psn : Psn) (total : ℕ) (final : Bool) :
    Settles ordered qp (qp.writeWritten psn address rkey length total final) [] [] [] := by
  have hpending : qp.receivePending = qp.receiveQueue.items.map fun posted ↦ posted.work := by
    simp [receivePending, inboundWork, hsome]
  unfold writeWritten
  split
  · refine Settles.same rfl rfl rfl rfl rfl ?_
    rw [hpending]
    rfl
  · refine Settles.same rfl rfl rfl rfl rfl ?_
    rw [hpending]
    rfl

theorem settles_sendRejected {posted : PostedWork RecvWorkRequest MRS}
    {queue : Ring (PostedWork RecvWorkRequest MRS) RQ} (hb : Balanced qp)
    (hnone : qp.inboundMessage = none) (hpop : qp.receiveQueue.pop = some (posted, queue))
    (status : CompletionStatus) (hordered : ordered → queue.items = []) :
    ∃ sent received reports,
      Settles ordered qp (((qp.setReceives queue).setInboundMemory
        posted.lease).failed.receiveFinished posted.work status 0) sent received reports := by
  obtain ⟨popped, hpopped⟩ : ∃ popped, popped =
    ((qp.setReceives queue).setInboundMemory posted.lease).setMachine
      { qp.machine with state := .error } := ⟨_, rfl⟩
  -- the queue behind the rejected request is flushed before the request is reported
  have hshape : ((qp.setReceives queue).setInboundMemory posted.lease).failed.receiveFinished
      posted.work status 0 =
        (popped.emptied.setInboundMemory none).resolved (popped.flushCompletions.length + 1)
          (popped.flushCompletions ++ [QpContext.receiveCompletion posted.work status 0]) := by
    rw [← resolved_resolved, hpopped]
    rfl
  have hsends : popped.sendPending = qp.sendPending := by
    rw [hpopped]
    rfl
  have hreceives : popped.receivePending = queue.items.map fun posted ↦ posted.work := by
    rw [hpopped]
    exact receivePending_of_none hnone
  have hpending : qp.receivePending = posted.work :: popped.receivePending := by
    rw [hreceives, receivePending_of_none hnone, Ring.pop_eq_some.mp hpop]
    rfl
  rw [hshape]
  refine ⟨popped.sendPending.map .flushed,
    popped.receivePending.map .flushed ++ [⟨posted.work, status, 0⟩], _,
    settles_resolved (popped.emptied.setInboundMemory none) _ _ hb ?_ ?_ ?_ ?_ ?_ ⟨?_, ?_⟩ ?_ ?_
      ?_⟩
  · rw [hpopped]
    rfl
  · rw [unflushed_map_flushed, List.append_nil]
    refine (unflushed_emptied popped).trans ?_
    rw [hpopped]
    rfl
  · rw [hpopped]
    rfl
  · rw [hpopped]
    rfl
  · rw [map_work_flushed, hsends]
    exact (List.append_nil _).symm
  · rw [hpending, List.map_append, map_work_flushed, List.append_assoc]
    exact (List.perm_append_singleton posted.work popped.receivePending).symm
  · intro ho
    rw [hpending, hreceives, hordered ho]
    rfl
  · rw [List.filter_append, filter_isSend_flushCompletions]
    simp [isSend, isReceive_receiveCompletion]
  · rw [List.filter_append, filter_isReceive_flushCompletions, List.map_append]
    simp [isReceive_receiveCompletion, receiveReport]
  · rw [length_flushCompletions, List.length_append, List.length_map, List.length_map,
      List.length_singleton, Nat.add_assoc]

/-- **A request packet settles pending requests**, in order unless it rejects a SEND in front of
other receive requests. -/
theorem RequestEffect.settles (h : RequestEffect qp memory packet copies qp' reply)
    (hb : Balanced qp) :
    ∃ sent received reports,
      Settles (KeepsOrder qp memory packet) qp qp' sent received reports := by
  cases h with
  | future | duplicate | replayNotReady | sendNotReady | readNotReady | replay | read =>
    exact ⟨_, _, _, Settles.same rfl rfl rfl rfl rfl rfl⟩
  | replayFatal | fatal => exact ⟨_, _, _, settles_failed hb⟩
  | sendRejected status syndrome hpsn hop hkey hvalid hnone hpop hstatus hreason =>
    exact settles_sendRejected hb hnone hpop status fun horder ↦
      horder _ _ hpsn hop hkey hvalid hnone hpop
        (hreason.imp And.right fun hfault ↦ hfault.2.2)
  | receiveFailed status hpsn hsome hstatus =>
    have hfinish : Settles (KeepsOrder qp memory packet) qp _ _ _ _ :=
      settles_receiveFinished (qp.setInbound none) hb rfl rfl rfl rfl rfl
        (receivePending_of_send hsome) status 0
    exact ⟨_, _, _, hfinish.trans (settles_failed (hfinish.balanced hb))⟩
  | send hpsn hop hload hvalid hfits hgrants =>
    have hloads : Settles (KeepsOrder qp memory packet) qp _ [] [] [] := hload.settles
    obtain ⟨sent, received, reports, hwritten⟩ :=
      exists_settles_sendWritten (hloads.balanced hb) hload.inbound packet.bth.psn _ _
    exact ⟨_, _, _, hloads.trans hwritten⟩
  | write hpsn hop hload hvalid hfits hfinal hgrants =>
    exact ⟨_, _, _, hload.settles.trans (settles_writeWritten hload.inbound packet.bth.psn _ _)⟩

theorem sendPending_of_active (h : qp.activeRequest = some active) :
    qp.sendPending = active.work :: qp.sendQueue.items.map fun posted ↦ posted.work := by
  simp [sendPending, h]

theorem settles_setActive {active' : ActiveRequest} (h : qp.activeRequest = some active)
    (hwork : active'.work = active.work) (window : SendWindow) :
    Settles ordered qp ((qp.setWindow window).setActive (some active')) [] [] [] := by
  refine Settles.same rfl rfl rfl rfl ?_ rfl
  rw [sendPending_of_active h, ← hwork]
  rfl

theorem RetryEffect.settles (h : RetryEffect qp qp') (hb : Balanced qp) :
    ∃ sent received reports, Settles ordered qp qp' sent received reports := by
  cases h with
  | idle => exact ⟨_, _, _, Settles.same rfl rfl rfl rfl rfl rfl⟩
  | retried hactive hbudget =>
    refine ⟨_, _, _, settles_setActive hactive ?_ qp.sendWindow⟩
    rfl
  | exhausted hactive hbudget => exact exists_settles_activeFailed hb hactive _

theorem exists_settles_completed (hb : Balanced qp) (hactive : qp.activeRequest = some active)
    (window : SendWindow) (byteLen : ℕ) :
    ∃ sent received reports, Settles ordered qp
      ((qp.setWindow window).activeFinished .success byteLen) sent received reports := by
  have hwindow : Settles ordered qp (qp.setWindow window) [] [] [] :=
    Settles.same rfl rfl rfl rfl rfl rfl
  exact ⟨_, _, _, hwindow.trans (settles_activeFinished (hwindow.balanced hb) hactive .success _)⟩

/-- **A response packet settles pending requests in order.** -/
theorem ResponseEffect.settles {now ticksPerSecond : ℕ}
    (h : ResponseEffect qp memory packet now ticksPerSecond copies qp') (hb : Balanced qp) :
    ∃ sent received reports, Settles ordered qp qp' sent received reports := by
  cases h with
  | ignored => exact ⟨_, _, _, Settles.same rfl rfl rfl rfl rfl rfl⟩
  | failed status hactive hstatus => exact exists_settles_activeFailed hb hactive status
  | retry haeth hclass hretry => exact hretry.settles hb
  | delayed hactive haeth hclass hbudget =>
    refine ⟨_, _, _, settles_setActive hactive ?_ qp.sendWindow⟩
    rfl
  | acked active hactive | read active hactive =>
    refine ⟨_, _, _, settles_setActive hactive ?_ _⟩
    rfl
  | ackCompleted hactive | readCompleted hactive =>
    exact exists_settles_completed hb hactive _ _

end Effects

/-! ## Steps -/

def QpEvent.isQueueCall : QpEvent → Bool
  | .postWork _ | .postReceive _ | .poll => true
  | .start _ | .sent _ _ | .readSent | .request _ | .response _ _ _
  | .timeout _ | .rnrExpired _ | .transition _ | .reconfigure _ => false

/-- Whether the event reports receive requests in the order of the queue. -/
def QpEvent.KeepsOrder (event : QpEvent) (qp : QpTransport MRS SQ RQ CQ)
    (memory : MemoryRegistry MRS) : Prop :=
  ∀ packet, event = .request packet → Rc.KeepsOrder qp memory packet

section Steps

variable {qp qp' : QpTransport MRS SQ RQ CQ} {memory : MemoryRegistry MRS} {event : QpEvent}
  {copies : List (ℕ × List UInt8)} {reply : Option ControlReply} {ordered : Prop}

open QpTransport

theorem StartEffect.settles {ticksPerSecond : ℕ} (h : StartEffect qp ticksPerSecond qp') :
    Settles ordered qp qp' [] [] [] := by
  cases h with
  | waits => exact Settles.same rfl rfl rfl rfl rfl rfl
  | starts hactive hready hpop hreserve hpolicy =>
    refine Settles.same rfl rfl rfl rfl ?_ rfl
    simp only [sendPending, hactive, Ring.pop_eq_some.mp hpop]
    rfl

theorem work_packetSent (active : ActiveRequest) (now timeoutTicks : ℕ) :
    (active.packetSent now timeoutTicks).work = active.work := by
  unfold ActiveRequest.packetSent
  split
  · rfl
  all_goals
    dsimp only
    split <;> rfl

theorem settles_markRequestPacketSent (qp : QpTransport MRS SQ RQ CQ) (now timeoutTicks : ℕ) :
    Settles ordered qp (markRequestPacketSent qp now timeoutTicks) [] [] [] := by
  unfold markRequestPacketSent
  split
  · exact Settles.same rfl rfl rfl rfl rfl rfl
  · rename_i active hactive
    exact settles_setActive hactive (work_packetSent active now timeoutTicks) qp.sendWindow

theorem settles_readAdvanced (qp : QpTransport MRS SQ RQ CQ) :
    Settles ordered qp qp.readAdvanced [] [] [] := by
  unfold readAdvanced
  split
  · exact Settles.same rfl rfl rfl rfl rfl rfl
  · split <;> exact Settles.same rfl rfl rfl rfl rfl rfl

theorem settles_resetTransportState (hactive : qp.activeRequest = none)
    (hinbound : qp.inboundMessage = none) :
    Settles ordered qp qp.resetTransportState [] [] [] := by
  refine Settles.same rfl rfl rfl rfl ?_ ?_
  · simp [sendPending, hactive, resetTransportState]
  · simp [receivePending, inboundWork, hinbound, resetTransportState]

theorem exists_settles_moved (hb : Balanced qp) (destination : QpState) :
    ∃ sent received reports, Settles ordered qp (qp.moved destination) sent received reports := by
  obtain ⟨stopped, hstopped⟩ : ∃ stopped, stopped =
    qp.setMachine { qp.machine with state := destination } := ⟨_, rfl⟩
  have hsame : Settles ordered qp stopped [] [] [] := by
    rw [hstopped]
    exact Settles.same rfl rfl rfl rfl rfl rfl
  have hflush := hsame.trans (settles_flushed (hsame.balanced hb))
  unfold moved
  rw [← hstopped]
  cases destination with
  | error => exact ⟨_, _, _, hflush⟩
  | reset => exact ⟨_, _, _, hflush.trans (settles_resetTransportState rfl rfl)⟩
  | init | rtr | rts | sqd | sqe => exact ⟨_, _, _, hsame⟩

/-- **Every step that is not a queue call settles pending requests.** -/
theorem QpStep.settles (h : QpStep memory qp event copies qp' reply) (hb : Balanced qp)
    (hcall : event.isQueueCall = false) :
    ∃ sent received reports,
      Settles (event.KeepsOrder qp memory) qp qp' sent received reports := by
  cases h with
  | start heffect => exact ⟨_, _, _, heffect.settles⟩
  | sent now timeoutTicks hphase => exact ⟨_, _, _, settles_markRequestPacketSent _ _ _⟩
  | readSent => exact ⟨_, _, _, settles_readAdvanced _⟩
  | request hready heffect =>
    obtain ⟨sent, received, reports, hsettles⟩ := heffect.settles hb
    exact ⟨sent, received, reports, hsettles.mono fun horder ↦ horder _ rfl⟩
  | response hready heffect => exact heffect.settles hb
  | timeout hretry => exact hretry.settles hb
  | rnrExpired hactive hphase =>
    refine ⟨_, _, _, settles_setActive hactive ?_ qp.sendWindow⟩
    rfl
  | transition hlegal => exact exists_settles_moved hb _
  | reconfigure hidle hmachine =>
    refine ⟨_, _, _, Settles.same rfl rfl rfl rfl ?_ ?_⟩
    · simp [sendPending, hidle.active, reconfigured, resetTransportState]
    · simp [receivePending, inboundWork, hidle.inbound, reconfigured, resetTransportState]
  | postWork | postReceive | poll => cases hcall

theorem sendPending_workPosted {queue : Ring (PostedWork WorkRequest MRS) SQ}
    {posted : List (PostedWork WorkRequest MRS)}
    (hqueue : queue.items = qp.sendQueue.items ++ posted) (works : List WorkRequest) :
    (qp.workPosted queue works).sendPending =
      qp.sendPending ++ posted.map fun entry ↦ entry.work := by
  simp [sendPending, workPosted, hqueue]

theorem receivePending_receivePosted {queue : Ring (PostedWork RecvWorkRequest MRS) RQ}
    {posted : List (PostedWork RecvWorkRequest MRS)}
    (hqueue : queue.items = qp.receiveQueue.items ++ posted) (works : List RecvWorkRequest) :
    (qp.receivePosted queue works).receivePending =
      qp.receivePending ++ posted.map fun entry ↦ entry.work := by
  simp [receivePending, inboundWork, receivePosted, hqueue]

theorem pollQp_eq_some {completion : Completion}
    (h : RcEndpoint.pollQp qp = some (completion, qp')) :
    ∃ queue, qp.completionQueue.items = completion :: queue.items ∧
      qp' = { qp with
        completionQueue := queue
        history := { qp.history with polled := qp.history.polled ++ [completion] } } := by
  unfold RcEndpoint.pollQp at h
  split at h
  · cases h
  · rename_i hpop
    cases h
    exact ⟨_, Ring.pop_eq_some.mp hpop, rfl⟩

/-- **Every step keeps the reservations balanced.** -/
theorem QpStep.balanced (h : QpStep memory qp event copies qp' reply) (hb : Balanced qp) :
    Balanced qp' := by
  have hreserved := hb.reserved
  have hroom := hb.room
  cases hcall : event.isQueueCall with
  | false =>
    obtain ⟨sent, received, reports, hsettles⟩ := h.settles hb hcall
    exact hsettles.balanced hb
  | true =>
    cases h with
    | start | sent | readSent | request | response | timeout
    | rnrExpired | transition | reconfigure => cases hcall
    | postWork hstate hqueue hspace hvalid hlease =>
      refine ⟨?_, ?_⟩
      · rw [sendPending_workPosted hqueue, List.length_append]
        change qp.completionReservations + _ = _ + qp.receivePending.length
        omega
      · change qp.completionQueue.items.length + (qp.completionReservations + _) ≤ _
        rw [List.length_map, ← Nat.add_assoc]
        exact hspace
    | postReceive hstate hqueue hspace hvalid hlease =>
      refine ⟨?_, ?_⟩
      · rw [receivePending_receivePosted hqueue, List.length_append]
        change qp.completionReservations + _ = qp.sendPending.length + _
        omega
      · change qp.completionQueue.items.length + (qp.completionReservations + _) ≤ _
        rw [List.length_map, ← Nat.add_assoc]
        exact hspace
    | poll hpoll =>
      obtain ⟨queue, hitems, rfl⟩ := pollQp_eq_some hpoll
      refine ⟨hreserved, ?_⟩
      rw [hitems, List.length_cons] at hroom
      change queue.items.length + qp.completionReservations ≤ CQ
      omega

/-! ## The ledger -/

/-- Everything that was ever posted has ended and been reported or is pending. -/
structure Ledger (ordered : Prop) (qp : QpTransport MRS SQ RQ CQ) : Prop where
  /-- Send-queue requests end in the order in which they were posted. -/
  sends : ∃ sent : List (Outcome WorkRequest),
    qp.history.sends = sent.map (fun o ↦ o.work) ++ qp.sendPending ∧
      qp.generated.filter isSend = sent.filterMap sendReport ∧
      unflushed (sent.map Outcome.result) = unflushed (qp.retired.map RetiredRequest.result)
  /-- Receive requests end once each, in the order of posting if `ordered`. -/
  receives : ∃ received : List (Outcome RecvWorkRequest),
    Lists ordered qp.history.receives (received.map (fun o ↦ o.work) ++ qp.receivePending) ∧
      qp.generated.filter isReceive = received.map receiveReport

theorem Settles.ledger {before : Prop} {sent : List (Outcome WorkRequest)}
    {received : List (Outcome RecvWorkRequest)} {reports : List Completion}
    (h : Settles ordered qp qp' sent received reports) (hledger : Ledger before qp) :
    Ledger (before ∧ ordered) qp' := by
  have hgenerated := h.generated
  constructor
  · obtain ⟨old, hposted, hreported, hretired⟩ := hledger.sends
    refine ⟨old ++ sent, ?_, ?_, ?_⟩
    · rw [h.history, hposted, h.sends, List.map_append, List.append_assoc]
    · rw [hgenerated, List.filter_append, List.filterMap_append, hreported, h.sendReports]
    · rw [List.map_append, unflushed_append, hretired, h.retired]
  · obtain ⟨old, hposted, hreported⟩ := hledger.receives
    refine ⟨old ++ received, ?_, ?_⟩
    · rw [h.history, List.map_append, List.append_assoc]
      exact hposted.append h.receives
    · rw [hgenerated, List.filter_append, List.map_append, hreported, h.receiveReports]

/-- **Every step keeps the ledger.** -/
theorem QpStep.ledger {before : Prop} (h : QpStep memory qp event copies qp' reply)
    (hb : Balanced qp) (hledger : Ledger before qp) :
    Ledger (before ∧ event.KeepsOrder qp memory) qp' := by
  cases hcall : event.isQueueCall with
  | false =>
    obtain ⟨sent, received, reports, hsettles⟩ := h.settles hb hcall
    exact hsettles.ledger hledger
  | true =>
    obtain ⟨sent, hsends, hsent⟩ := hledger.sends
    obtain ⟨received, hreceives, hreceived⟩ := hledger.receives
    cases h with
    | start | sent | readSent | request | response | timeout
    | rnrExpired | transition | reconfigure => cases hcall
    | postWork hstate hqueue hspace hvalid hlease =>
      refine ⟨⟨sent, ?_, hsent⟩, ⟨received, hreceives.mono And.left, hreceived⟩⟩
      rw [sendPending_workPosted hqueue, ← List.append_assoc, ← hsends]
      rfl
    | postReceive hstate hqueue hspace hvalid hlease =>
      refine ⟨⟨sent, hsends, hsent⟩, ⟨received, ?_, hreceived⟩⟩
      rw [receivePending_receivePosted hqueue, ← List.append_assoc]
      exact (hreceives.mono And.left).append_right _
    | poll hpoll =>
      rename_i completion
      obtain ⟨queue, hitems, rfl⟩ := pollQp_eq_some hpoll
      -- a polled completion moves from the queue to the history
      have hgenerated : qp.history.polled ++ qp.completionQueue.items =
          (qp.history.polled ++ [completion]) ++ queue.items := by
        rw [hitems, List.append_assoc, List.singleton_append]
      rw [generated, hgenerated] at hsent hreceived
      exact ⟨⟨sent, hsends, hsent⟩, ⟨received, hreceives.mono And.left, hreceived⟩⟩

end Steps

end Rocev2.Rc
