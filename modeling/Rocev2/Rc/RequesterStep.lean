import Rocev2.Rc.Invariant

/-!
# The requester half of a queue pair

The invariants of the requester (the send window, the retry budget, what was transmitted) depend
on a few fields of a queue pair.  `QpTransport.requester` collects them, and `RequesterStep` says
what an event can do to them.  **Every step of a queue pair is a step of its requester half**
(`QpStep.requester`), so an invariant of the requester is proved over the constructors of
`RequesterStep`, each of which is one clause of the source.
-/

namespace Rocev2.Rc

open Rocev2.Core Rocev2.Wire Rocev2.Memory

variable {MRS SQ RQ CQ : ℕ}

/-- The requester half of a queue pair. -/
structure Requester where
  state : QpState
  config : QpConfig
  window : SendWindow
  active : Option ActiveRequest
  retired : List RetiredRequest

def QpTransport.requester (qp : QpTransport MRS SQ RQ CQ) : Requester :=
  ⟨qp.machine.state, qp.machine.config, qp.sendWindow, qp.activeRequest, qp.retired⟩

def Requester.stop (r : Requester) (status : CompletionStatus) : Requester :=
  { r with
    state := .error
    active := none
    retired := r.retired ++ (r.active.map fun active ↦ active.retired status).toList }

def Requester.setActive (r : Requester) (active : ActiveRequest) : Requester :=
  { r with active := some active }

def Requester.succeed (r : Requester) (active : ActiveRequest) (window : SendWindow) : Requester :=
  { r with
    window := window
    active := none
    retired := r.retired ++ [active.retired .success] }

def Requester.restart (r : Requester) (config : QpConfig) : Requester where
  state := .reset
  config := config
  window := .new config.sendPsn
  active := none
  retired := r.retired ++ (r.active.map fun active ↦ active.retired .flushed).toList

def PacketRef.SequenceNak (packet : PacketRef) : Prop :=
  ∃ aeth, packet.aeth = some aeth ∧ aeth.classify = .nak .psnSequenceError

/-- What charges the retry budget: a sequence NAK, or the expired timer of a waiting request. -/
inductive Charges (active : ActiveRequest) : QpEvent → Prop
  | nak {packet now ticksPerSecond} (hnak : PacketRef.SequenceNak packet) :
      Charges active (.response packet now ticksPerSecond)
  | timeout {now deadline} (hphase : active.phase = .waiting)
      (harmed : active.timer.deadline = some deadline) (hdue : deadline ≤ now) :
      Charges active (.timeout now)

/-- **What an event can do to the requester half.** -/
inductive RequesterStep (r : Requester) : QpEvent → Requester → Prop
  /-- The event does not concern the requester. -/
  | keep {event} : RequesterStep r event r
  /-- The head of the send queue becomes active. -/
  | start {work window firstPsn policy ticksPerSecond} (hactive : r.active = none)
      (hready : r.state = .rts)
      (hreserve : r.window.reserveMany (packetCount work.sge.length r.config.pathMtu.bytes) =
        (window, some firstPsn))
      (hpolicy : RetryPolicy.new r.config.retryCount r.config.rnrRetryCount
        (timeoutOrMax r.config ticksPerSecond) = some policy) :
      RequesterStep r (.start ticksPerSecond)
        { r with
          window := window
          active := some (.start work firstPsn
            (packetCount work.sge.length r.config.pathMtu.bytes) policy) }
  /-- The backend accepts a packet of the active request. -/
  | sent {active} (now timeoutTicks : ℕ) (hactive : r.active = some active)
      (hphase : active.phase = .sending) :
      RequesterStep r (.sent now timeoutTicks) (r.setActive (active.packetSent now timeoutTicks))
  /-- The queue pair fails. -/
  | stop {event} (status : CompletionStatus) (hstatus : status ≠ .success)
      (hretry : status ≠ .retryExceeded) : RequesterStep r event (r.stop status)
  /-- A retry is granted. -/
  | retried {event active budget delay} (hactive : r.active = some active)
      (hcharges : Charges active event)
      (hbudget : active.retryBudget.onFailure .timeout 0 = (budget, .retry delay)) :
      RequesterStep r event (r.setActive { active with
        retryBudget := budget
        retried := active.retried + 1 }.resetForRetry)
  /-- The retry budget is exhausted. -/
  | exhausted {event active budget reason} (hactive : r.active = some active)
      (hcharges : Charges active event)
      (hbudget : active.retryBudget.onFailure .timeout 0 = (budget, .exhausted reason)) :
      RequesterStep r event (r.stop .retryExceeded)
  /-- A receiver-not-ready NAK delays the active request. -/
  | delayed {active packet aeth code budget delay now ticksPerSecond}
      (hactive : r.active = some active) (haeth : packet.aeth = some aeth)
      (hclass : aeth.classify = .rnrNak code)
      (hbudget : active.retryBudget.onFailure .receiverNotReady
        ((rnrTimerTicks code.toNat ticksPerSecond).getD (2 ^ 64 - 1)) = (budget, .retry delay)) :
      RequesterStep r (.response packet now ticksPerSecond) (r.setActive { active with
        retryBudget := budget
        phase := .rnrWait
        timer := .arm now delay
        delays := active.delays ++ [(active.sent.length,
          now + (rnrTimerTicks code.toNat ticksPerSecond).getD (2 ^ 64 - 1))] })
  /-- An ACK covers a part of the active request. -/
  | acked {active packet window packets next now ticksPerSecond} (hactive : r.active = some active)
      (hacks : AcksSent active packet)
      (hack : r.window.acknowledge packet.bth.psn = (window, .advanced packets next))
      (hpart : window.oldestUnacknowledged ≠ active.lastPsn.next) :
      RequesterStep r (.response packet now ticksPerSecond)
        ({ r with window := window }.setActive { active with
          retryBudget := active.retryBudget.reset
          timer := .arm now (timeoutOrMax r.config ticksPerSecond)
          retried := 0 })
  /-- An ACK covers the rest of the active request. -/
  | ackCompleted {active packet window packets next now ticksPerSecond}
      (hactive : r.active = some active)
      (hacks : AcksSent active packet)
      (hack : r.window.acknowledge packet.bth.psn = (window, .advanced packets next))
      (hall : window.oldestUnacknowledged = active.lastPsn.next) :
      RequesterStep r (.response packet now ticksPerSecond) (r.succeed active window)
  /-- A READ response is written, and more are to come. -/
  | read {active packet bytesReceived now ticksPerSecond} (hactive : r.active = some active)
      (hanswers : AnswersRead active packet)
      (hpart : active.readPacketsReceived + 1 ≠ active.packetCount) :
      RequesterStep r (.response packet now ticksPerSecond)
        ({ r with window := (r.window.acknowledge packet.bth.psn).1 }.setActive { active with
          readPacketsReceived := active.readPacketsReceived + 1
          bytesReceived := bytesReceived
          retryBudget := active.retryBudget.reset
          timer := .arm now (timeoutOrMax r.config ticksPerSecond)
          retried := if (r.window.acknowledge packet.bth.psn).1 = r.window
            then active.retried else 0 })
  /-- The last READ response is written. -/
  | readCompleted {active packet now ticksPerSecond} (hactive : r.active = some active)
      (hanswers : AnswersRead active packet)
      (hall : active.readPacketsReceived + 1 = active.packetCount) :
      RequesterStep r (.response packet now ticksPerSecond)
        (r.succeed active (r.window.acknowledge packet.bth.psn).1)
  /-- The receiver-not-ready delay is over. -/
  | resume {active now deadline} (hactive : r.active = some active)
      (hphase : active.phase = .rnrWait) (harmed : active.timer.deadline = some deadline)
      (hdue : deadline ≤ now) :
      RequesterStep r (.rnrExpired now) (r.setActive active.resetForRetry)
  /-- The state machine moves between states that keep the work. -/
  | move {destination} (hlegal : isLegalTransition r.state destination = true)
      (herror : destination ≠ .error) (hreset : destination ≠ .reset) :
      RequesterStep r (.transition destination) { r with state := destination }
  /-- The queue pair is reset or reconfigured. -/
  | restart {event} (config : QpConfig) : RequesterStep r event (r.restart config)

/-! ## Steps -/

section Steps

variable {qp qp' : QpTransport MRS SQ RQ CQ} {memory : MemoryRegistry MRS} {packet : PacketRef}
  {copies : List (ℕ × List UInt8)} {reply : Option ControlReply} {event : QpEvent}
  {active : ActiveRequest}

open QpTransport

theorem requester_failed (qp : QpTransport MRS SQ RQ CQ) :
    qp.failed.requester = qp.requester.stop .flushed := rfl

theorem requester_activeFailed (hactive : qp.activeRequest = some active)
    (status : CompletionStatus) (byteLen : ℕ) :
    (qp.activeFinished status byteLen).failed.requester = qp.requester.stop status := by
  have hfinished : (qp.activeFinished status byteLen).requester =
      ⟨qp.machine.state, qp.machine.config, qp.sendWindow, none,
        qp.retired ++ [active.retired status]⟩ := by
    simp only [requester, activeFinished, hactive, resolved, retire, setActiveMemory]
  rw [requester_failed, hfinished]
  simp only [Requester.stop, requester, hactive, Option.map_none, Option.map_some,
    Option.toList_none, Option.toList_some, List.append_nil]

theorem requester_activeSucceeded (hactive : qp.activeRequest = some active) (window : SendWindow)
    (byteLen : ℕ) :
    ((qp.setWindow window).activeFinished .success byteLen).requester =
      qp.requester.succeed active window := by
  simp only [Requester.succeed, requester, activeFinished, setWindow, hactive, resolved, retire,
    setActiveMemory]

theorem SameRequester.requester_eq (h : SameRequester qp qp') : qp'.requester = qp.requester := by
  simp only [requester, h.machine, h.sendWindow, h.active, h.retired]

theorem RequestEffect.requester (h : RequestEffect qp memory packet copies qp' reply)
    (event : QpEvent) : RequesterStep qp.requester event qp'.requester := by
  have hkeep : qp'.requester = qp.requester → RequesterStep qp.requester event qp'.requester := by
    intro heq
    rw [heq]
    exact .keep
  cases h with
  | future | duplicate | replayNotReady | sendNotReady | readNotReady | replay | read =>
    exact .keep
  | replayFatal | fatal => exact .stop .flushed (by decide) (by decide)
  | sendRejected | receiveFailed => exact .stop .flushed (by decide) (by decide)
  | send hpsn hop hload =>
    exact hkeep (hload.sameRequester.sendWritten _ _ _ _).requester_eq
  | write hpsn hop hload =>
    exact hkeep (hload.sameRequester.writeWritten _ _ _ _ _ _).requester_eq

theorem RetryEffect.requester (h : RetryEffect qp qp') (hactive : qp.activeRequest = some active)
    (hcharges : Charges active event) :
    RequesterStep qp.requester event qp'.requester := by
  cases h with
  | idle => exact .keep
  | retried hactive' hbudget =>
    obtain rfl := Option.some.inj (hactive.symm.trans hactive')
    exact .retried hactive hcharges hbudget
  | exhausted hactive' hbudget =>
    obtain rfl := Option.some.inj (hactive.symm.trans hactive')
    rw [requester_activeFailed hactive]
    exact .exhausted hactive hcharges hbudget

theorem ResponseEffect.requester {now ticksPerSecond : ℕ}
    (h : ResponseEffect qp memory packet now ticksPerSecond copies qp') :
    RequesterStep qp.requester (.response packet now ticksPerSecond) qp'.requester := by
  cases h with
  | ignored => exact .keep
  | failed status hactive hstatus =>
    rw [requester_activeFailed hactive]
    refine .stop status ?_ ?_
    · rintro rfl
      exact hstatus
    · rintro rfl
      exact hstatus
  | retry haeth hclass hretry =>
    cases hcase : qp.activeRequest with
    | none =>
      cases hretry with
      | idle => exact .keep
      | retried hactive | exhausted hactive =>
        rw [hcase] at hactive
        cases hactive
    | some active => exact hretry.requester hcase (.nak ⟨_, haeth, hclass⟩)
  | delayed hactive haeth hclass hbudget => exact .delayed hactive haeth hclass hbudget
  | acked active hactive hacks hack hpart => exact .acked hactive hacks hack hpart
  | ackCompleted hactive hacks hack hall =>
    rw [requester_activeSucceeded hactive]
    exact .ackCompleted hactive hacks hack hall
  | read active hactive hlands hpart => exact .read hactive hlands.toAnswersRead hpart
  | readCompleted hactive hlands hall =>
    rw [requester_activeSucceeded hactive]
    exact .readCompleted hactive hlands.toAnswersRead hall

/-- **Every step of a queue pair is a step of its requester half.** -/
theorem QpStep.requester (h : QpStep memory qp event copies qp' reply) :
    RequesterStep qp.requester event qp'.requester := by
  cases h with
  | start heffect =>
    cases heffect with
    | waits => exact .keep
    | starts hactive hready hpop hreserve hpolicy =>
      exact .start hactive (of_decide_eq_true hready) hreserve hpolicy
  | sent now timeoutTicks hphase =>
    unfold markRequestPacketSent
    cases hactive : qp.activeRequest with
    | none => exact .keep
    | some active => exact .sent now timeoutTicks hactive (hphase active hactive)
  | readSent =>
    unfold readAdvanced
    split
    · exact .keep
    · split <;> exact .keep
  | request hready heffect => exact heffect.requester _
  | response hready heffect => exact heffect.requester
  | timeout hretry hactive hphase harmed hdue =>
    exact hretry.requester hactive (.timeout hphase harmed hdue)
  | rnrExpired hactive hphase harmed hdue => exact .resume hactive hphase harmed hdue
  | @transition destination hlegal =>
    cases destination with
    | error => exact .stop .flushed (by decide) (by decide)
    | reset => exact .restart qp.machine.config
    | init | rtr | rts | sqd | sqe => exact .move hlegal (by decide) (by decide)
  | @reconfigure config machine hidle hmachine =>
    obtain ⟨rfl, -⟩ := QpStateMachine.reconfigure_eq_ok hmachine
    have hrestart : (qp.reconfigured ⟨.reset, config.transport⟩ config).requester =
        qp.requester.restart config.transport := by
      simp only [Requester.restart, QpTransport.requester, hidle.active, Option.map_none,
        Option.toList_none, List.append_nil]
      rfl
    rw [hrestart]
    exact .restart _
  | postWork | postReceive => exact .keep
  | poll hpoll =>
    obtain ⟨queue, -, rfl⟩ := pollQp_eq_some hpoll
    exact .keep

end Steps

end Rocev2.Rc
