import Rocev2.Rc.Progress
import Rocev2.Rc.ResponseEffect

/-!
# The steps of a queue pair

Everything that can happen to the transport state of one queue pair, as a labelled transition
relation.  An event is a packet, an expired timer, an emission or a call of the application;
`QpStep memory qp event copies qp' reply` says that `event` may take `qp` to `qp'` while `memory`
receives `copies` and the peer is owed `reply`.

The scheduler of the endpoint decides when an event happens and is not part of the relation.
The lemmas below read each function of the engine that is not a packet handler as such a step;
the packet handlers have `RequestEffect` and `ResponseEffect`.
-/

namespace Rocev2.Rc

open Rocev2.Core Rocev2.Wire Rocev2.Memory Rocev2.Lib

variable {MRS SQ RQ CQ : ℕ}

/-- An event of a queue pair. -/
inductive QpEvent where
  /-- The head of the send queue becomes the active request. -/
  | start (ticksPerSecond : ℕ)
  /-- A packet of the active request is transmitted. -/
  | sent (now timeoutTicks : ℕ)
  /-- A READ response packet is transmitted. -/
  | readSent
  /-- A request packet arrives. -/
  | request (packet : PacketRef)
  /-- A response packet arrives. -/
  | response (packet : PacketRef) (now ticksPerSecond : ℕ)
  /-- The ACK timer of the active request expires. -/
  | timeout (now : ℕ)
  /-- The receiver-not-ready delay of the active request is over. -/
  | rnrExpired (now : ℕ)
  /-- The application moves the state machine. -/
  | transition (destination : QpState)
  /-- The application replaces the configuration. -/
  | reconfigure (config : RcQpConfig)
  /-- The application posts send-queue work. -/
  | postWork (works : List WorkRequest)
  /-- The application posts receive work. -/
  | postReceive (works : List RecvWorkRequest)
  /-- The application polls a completion. -/
  | poll

namespace QpTransport

variable (qp : QpTransport MRS SQ RQ CQ)

def readAdvanced : QpTransport MRS SQ RQ CQ :=
  match qp.readResponse with
  | none => qp
  | some active =>
    if active.nextPacket + 1 = active.packetCount then (qp.setRead none).setReadMemory none
    else qp.setRead (some { active with nextPacket := active.nextPacket + 1 })

def moved (destination : QpState) : QpTransport MRS SQ RQ CQ :=
  let qp := qp.setMachine { qp.machine with state := destination }
  match destination with
  | .error => qp.flushed
  | .reset => qp.flushed.resetTransportState
  | .init | .rtr | .rts | .sqd | .sqe => qp

/-- Replace the configuration and restart both sequence spaces. -/
def reconfigured (machine : QpStateMachine)
    (config : RcQpConfig) : QpTransport MRS SQ RQ CQ :=
  { qp with
    machine := machine
    path := config.path
    rnrNakTimer := config.rnrNakTimer }.resetTransportState

/-- No work is pending and no responder state is held. -/
structure Idle (qp : QpTransport MRS SQ RQ CQ) : Prop where
  active : qp.activeRequest = none
  inbound : qp.inboundMessage = none
  read : qp.readResponse = none
  sends : qp.sendQueue.items = []
  receives : qp.receiveQueue.items = []

end QpTransport

/-- Every outcome of starting the next request. -/
inductive StartEffect (qp : QpTransport MRS SQ RQ CQ) (ticksPerSecond : ℕ) :
    QpTransport MRS SQ RQ CQ → Prop where
  /-- A request is active already, or none can be started. -/
  | waits : StartEffect qp ticksPerSecond qp
  /-- The head of the send queue reserves its PSNs and becomes active. -/
  | starts {posted queue window firstPsn policy} (hactive : qp.activeRequest = none)
      (hready : qp.machine.canSend = true) (hpop : qp.sendQueue.pop = some (posted, queue))
      (hreserve : qp.sendWindow.reserveMany (packetCount posted.work.sge.length qp.mtu) =
        (window, some firstPsn))
      (hpolicy : RetryPolicy.new qp.machine.config.retryCount qp.machine.config.rnrRetryCount
        (timeoutOrMax qp.machine.config ticksPerSecond) = some policy) :
      StartEffect qp ticksPerSecond
        ((((qp.setWindow window).setSends queue).setActiveMemory posted.lease).setActive
          (some (.start posted.work firstPsn (packetCount posted.work.sge.length qp.mtu) policy)))

/-- **The steps of a queue pair.** -/
inductive QpStep (memory : MemoryRegistry MRS) (qp : QpTransport MRS SQ RQ CQ) :
    QpEvent → List (ℕ × List UInt8) → QpTransport MRS SQ RQ CQ → Option ControlReply → Prop where
  | start {ticksPerSecond qp'} (heffect : StartEffect qp ticksPerSecond qp') :
      QpStep memory qp (.start ticksPerSecond) [] qp' none
  | sent (now timeoutTicks : ℕ)
      (hphase : ∀ active, qp.activeRequest = some active → active.phase = .sending) :
      QpStep memory qp (.sent now timeoutTicks) [] (markRequestPacketSent qp now timeoutTicks) none
  | readSent : QpStep memory qp .readSent [] qp.readAdvanced none
  | request {packet copies qp' reply} (hready : qp.machine.canReceive = true)
      (heffect : RequestEffect qp memory packet copies qp' reply) :
      QpStep memory qp (.request packet) copies qp' reply
  | response {packet now ticksPerSecond copies qp'} (hready : qp.machine.canReceive = true)
      (heffect : ResponseEffect qp memory packet now ticksPerSecond copies qp') :
      QpStep memory qp (.response packet now ticksPerSecond) copies qp' none
  | timeout {qp' active now deadline} (hretry : RetryEffect qp qp')
      (hactive : qp.activeRequest = some active) (hphase : active.phase = .waiting)
      (harmed : active.timer.deadline = some deadline) (hdue : deadline ≤ now) :
      QpStep memory qp (.timeout now) [] qp' none
  | rnrExpired {active now deadline} (hactive : qp.activeRequest = some active)
      (hphase : active.phase = .rnrWait) (harmed : active.timer.deadline = some deadline)
      (hdue : deadline ≤ now) :
      QpStep memory qp (.rnrExpired now) [] (qp.setActive (some active.resetForRetry)) none
  | transition {destination} (hlegal : isLegalTransition qp.machine.state destination = true) :
      QpStep memory qp (.transition destination) [] (qp.moved destination) none
  | reconfigure {config machine} (hidle : qp.Idle)
      (hmachine : qp.machine.reconfigure config.transport = .ok machine) :
      QpStep memory qp (.reconfigure config) [] (qp.reconfigured machine config) none
  | postWork {posted queue} (hstate : qp.machine.state = .rts)
      (hqueue : queue.items = qp.sendQueue.items ++ posted)
      (hroom : qp.completionQueue.len + qp.completionReservations + posted.length ≤ CQ)
      (hvalid : ∀ entry ∈ posted,
        RcEndpoint.validatePostedWork memory entry.work qp.mtu = .ok ())
      (hlease : ∀ entry ∈ posted, LeaseOn memory .loc entry.work.sge.lkey entry.lease) :
      QpStep memory qp (.postWork (posted.map fun entry ↦ entry.work)) []
        (qp.workPosted queue (posted.map fun entry ↦ entry.work)) none
  | postReceive {posted queue} (hstate : RcEndpoint.canPostReceive qp.machine.state = true)
      (hqueue : queue.items = qp.receiveQueue.items ++ posted)
      (hroom : qp.completionQueue.len + qp.completionReservations + posted.length ≤ CQ)
      (hvalid : ∀ entry ∈ posted, memory.validateLocalWrite entry.work.sge.lkey
        entry.work.sge.address entry.work.sge.length.toNat = .ok ())
      (hlease : ∀ entry ∈ posted, LeaseOn memory .loc entry.work.sge.lkey entry.lease) :
      QpStep memory qp (.postReceive (posted.map fun entry ↦ entry.work)) []
        (qp.receivePosted queue (posted.map fun entry ↦ entry.work)) none
  | poll {completion qp'} (hpoll : RcEndpoint.pollQp qp = some (completion, qp')) :
      QpStep memory qp .poll [] qp' none

/-! ## Emission and state changes -/

section Functions

variable {ctx : QpContext MRS SQ RQ CQ} {others : Multiset (RegionLease MRS)}
  {qp : QpTransport MRS SQ RQ CQ}

theorem startNextRequest_effect (hvalid : qp.machine.config.Valid) (ticksPerSecond : ℕ) :
    StartEffect qp ticksPerSecond (startNextRequest qp ticksPerSecond) := by
  obtain ⟨policy, hpolicy⟩ : ∃ policy, RetryPolicy.new qp.machine.config.retryCount
      qp.machine.config.rnrRetryCount (timeoutOrMax qp.machine.config ticksPerSecond) =
        some policy :=
    ⟨_, if_pos ⟨hvalid.retryCount_le, hvalid.rnrRetryCount_le⟩⟩
  unfold startNextRequest
  split
  · exact .waits
  rename_i hidle
  obtain ⟨hactive, hready⟩ := not_or.mp hidle
  split
  · exact .waits
  rename_i front hfront
  dsimp only
  split
  · exact .waits
  rename_i window firstPsn hreserve
  rw [hpolicy]
  dsimp only
  cases hpop : qp.sendQueue.pop with
  | none =>
    rw [Ring.front, Ring.pop_eq_none.mp hpop] at hfront
    cases hfront
  | some head =>
    obtain ⟨posted, queue⟩ := head
    have hhead : front = posted := by
      rw [Ring.front, Ring.pop_eq_some.mp hpop] at hfront
      exact (Option.some.inj hfront).symm
    subst hhead
    have hpop' : (qp.setWindow window).sendQueue.pop = some (front, queue) := hpop
    have hnone : qp.activeRequest = none := by simpa using hactive
    rw [hpop']
    dsimp only
    exact .starts hnone (Bool.eq_true_of_not_eq_false hready) hpop hreserve hpolicy

theorem StartEffect.leases {qp' : QpTransport MRS SQ RQ CQ} {ticksPerSecond : ℕ}
    (h : StartEffect qp ticksPerSecond qp') (htidy : Tidy qp) : qp'.leases = qp.leases := by
  cases h with
  | waits => rfl
  | starts hactive hready hpop hreserve hpolicy =>
    have hnone : qp.activeMemory = none := by
      have htidy := htidy.active
      rw [hactive] at htidy
      exact Option.isNone_iff_eq_none.mp (Option.isSome_eq_false_iff.mp htidy)
    rw [QpTransport.leases_of_sendQueue (Ring.pop_eq_some.mp hpop)]
    simp only [QpTransport.leases, QpTransport.setActive, QpTransport.setActiveMemory,
      QpTransport.setSends, QpTransport.setWindow, hnone, held_none, zero_add, add_assoc]

theorem leases_markRequestPacketSent (qp : QpTransport MRS SQ RQ CQ) (now timeoutTicks : ℕ) :
    (markRequestPacketSent qp now timeoutTicks).leases = qp.leases := by
  unfold markRequestPacketSent
  split <;> rfl

theorem advanceReadContext_spec (h : Counted ctx.memory.refs (ctx.qp.leases + others)) :
    (advanceReadContext ctx).qp = ctx.qp.readAdvanced ∧
      QpContext.Keeps ctx.memory [] others (advanceReadContext ctx) := by
  unfold advanceReadContext QpTransport.readAdvanced
  cases ctx.qp.readResponse with
  | none => exact ⟨rfl, Copied.refl _, h⟩
  | some active =>
    by_cases hlast : active.nextPacket + 1 = active.packetCount
    · simp only [hlast, if_true]
      exact QpContext.releaseRead_spec (ctx.setQp (ctx.qp.setRead none)) h
    · simp only [hlast, if_false]
      exact ⟨rfl, Copied.refl _, h⟩

theorem leases_resetTransportState (qp : QpTransport MRS SQ RQ CQ) :
    qp.resetTransportState.leases = qp.leases := rfl

theorem transitionContext_spec {destination : QpState} {ctx' : QpContext MRS SQ RQ CQ}
    {completions : ℕ}
    (htransition : RcEndpoint.transitionContext ctx destination = .ok (ctx', completions))
    (h : Counted ctx.memory.refs (ctx.qp.leases + others)) :
    isLegalTransition ctx.qp.machine.state destination = true ∧
      ctx'.qp = ctx.qp.moved destination ∧ QpContext.Keeps ctx.memory [] others ctx' := by
  unfold RcEndpoint.transitionContext QpStateMachine.transition at htransition
  by_cases hlegal : isLegalTransition ctx.qp.machine.state destination = true
  · refine ⟨hlegal, ?_⟩
    rw [if_pos hlegal] at htransition
    obtain ⟨hqp, hkeeps⟩ := QpContext.flushPending_spec
      (ctx.setQp (ctx.qp.setMachine { ctx.qp.machine with state := destination })) h
    dsimp only at htransition
    rcases hflush : (ctx.setQp
      (ctx.qp.setMachine { ctx.qp.machine with state := destination })).flushPending
      with ⟨flushed, generated⟩
    rw [hflush] at hqp hkeeps
    cases destination with
    | error =>
      simp only [hflush, Except.ok.injEq, Prod.mk.injEq] at htransition
      obtain ⟨rfl, rfl⟩ := htransition
      exact ⟨hqp, hkeeps⟩
    | reset =>
      simp only [hflush, Except.ok.injEq, Prod.mk.injEq] at htransition
      obtain ⟨rfl, rfl⟩ := htransition
      refine ⟨?_, hkeeps.memory, ?_⟩
      · rw [QpContext.setQp_qp, hqp]
        rfl
      · rw [QpContext.setQp_qp, leases_resetTransportState]
        exact hkeeps.counted
    | init | rtr | rts | sqd | sqe =>
      cases htransition
      exact ⟨rfl, Copied.refl _, h⟩
  · rw [if_neg hlegal] at htransition
    cases htransition

end Functions

end Rocev2.Rc
