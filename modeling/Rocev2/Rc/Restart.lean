import Rocev2.Rc.Resources

/-!
# Resetting and reconfiguring a queue pair

A reset flushes the pending work, gives back the leases and restarts the sequence spaces; a
reconfiguration of an idle queue pair replaces the configuration and restarts the sequence spaces.
Neither writes every field of the slot.  The fields that they leave are those that the invariant of
the engine settles: completions are reserved exactly for pending work, leases are held exactly for
it, and the schedulers agree with the slot.  So the slot is as good as new.

What survives a reset is the completion queue, which the application still has to poll, and the arm
sequence of the timer.
-/

namespace Rocev2.Rc

open Rocev2.Core

variable {QPS MRS SQ RQ CQ IDX : ℕ} {slot : RcQpSlot MRS SQ RQ CQ} {config : RcQpConfig}
  {qp : QpTransport MRS SQ RQ CQ} {ep : RcEndpoint QPS MRS SQ RQ CQ IDX}

/-- The transport state of a new queue pair, with completions that are left to poll. -/
structure AsNew (config : RcQpConfig) (qp : QpTransport MRS SQ RQ CQ) : Prop where
  machine : qp.machine = ⟨.reset, config.transport⟩
  path : qp.path = config.path
  rnrNakTimer : qp.rnrNakTimer = config.rnrNakTimer
  sendWindow : qp.sendWindow = .new config.transport.sendPsn
  receivePsn : qp.receivePsn = ⟨config.transport.receivePsn⟩
  sendQueue : qp.sendQueue = .new
  receiveQueue : qp.receiveQueue = .new
  completionReservations : qp.completionReservations = 0
  activeRequest : qp.activeRequest = none
  activeMemory : qp.activeMemory = none
  inboundMemory : qp.inboundMemory = none
  readMemory : qp.readMemory = none
  inboundMessage : qp.inboundMessage = none
  readResponse : qp.readResponse = none
  readReplay : qp.readReplay = none
  messageSequenceNumber : qp.messageSequenceNumber = .zero

/-- **A reset makes the transport state as new.** -/
theorem QpTransport.moved_reset_asNew (h : QpInv qp) :
    AsNew qp.config (qp.moved .reset) := by
  refine ⟨rfl, rfl, rfl, rfl, rfl, rfl, rfl, ?_, rfl, rfl, rfl, rfl, rfl, rfl, rfl, rfl⟩
  change qp.completionReservations - qp.flushCompletions.length = 0
  rw [h.balanced.reserved, length_flushCompletions, Nat.sub_self]

/-- **A reconfiguration of an idle queue pair makes its transport state as new.** -/
theorem RcQpSlot.reconfigured_asNew (h : QpInv slot.toQpTransport) (hbusy : slot.isBusy = false)
    {machine : QpStateMachine}
    (hmachine : slot.machine.reconfigure config.transport = .ok machine) :
    AsNew config (slot.toQpTransport.reconfigured machine config) ∧
      slot.completionQueue = .new := by
  obtain ⟨hidle, hcompletions, hreserved⟩ := Holds.idle_of_not_busy hbusy
  obtain ⟨rfl, -⟩ := QpStateMachine.reconfigure_eq_ok hmachine
  have hlease : ∀ {α β : Type} {lease : Option α} {work : Option β}, lease.isSome = work.isSome →
      work = none → lease = none := by
    rintro α β lease work hsame rfl
    exact Option.isNone_iff_eq_none.mp (Option.isSome_eq_false_iff.mp hsame)
  exact ⟨⟨rfl, rfl, rfl, rfl, rfl, Core.Ring.ext hidle.sends, Core.Ring.ext hidle.receives,
    hreserved, rfl, hlease h.tidy.active hidle.active, hlease h.tidy.inbound hidle.inbound,
    hlease h.tidy.read hidle.read, rfl, rfl, rfl, rfl⟩, Core.Ring.ext hcompletions⟩

theorem AsNew.eq_new (h : AsNew config slot.toQpTransport) (hvalid : config.transport.Valid)
    (hrequester : slot.requesterScheduled = false) (hresponder : slot.responderScheduled = false) :
    ∃ fresh : RcQpSlot MRS SQ RQ CQ, RcQpSlot.new slot.generation config = .ok fresh ∧
      slot = { fresh with
        completionQueue := slot.completionQueue
        history := slot.history
        retired := slot.retired
        timerSequence := slot.timerSequence } := by
  unfold RcQpSlot.new QpStateMachine.new
  rw [QpConfig.validate_eq_ok.mpr hvalid]
  refine ⟨_, rfl, ?_⟩
  obtain ⟨qp, generation, requesterScheduled, responderScheduled, timerSequence⟩ := slot
  dsimp only at h hrequester hresponder ⊢
  rw [hrequester, hresponder, RcQpSlot.mk.injEq]
  exact ⟨QpTransport.ext h.machine h.path h.rnrNakTimer h.sendWindow h.receivePsn h.sendQueue
    h.receiveQueue rfl h.completionReservations h.activeRequest h.activeMemory h.inboundMemory
    h.readMemory h.inboundMessage h.readResponse h.readReplay h.messageSequenceNumber rfl rfl,
    rfl, rfl, rfl, rfl⟩

theorem RcQpSlot.completionQueue_new {generation : ℕ} {fresh : RcQpSlot MRS SQ RQ CQ}
    (h : RcQpSlot.new generation config = .ok fresh) :
    fresh.completionQueue = .new := by
  unfold RcQpSlot.new at h
  split at h
  · cases h
  · cases h
    rfl

/-- No scheduler knows the slot. -/
structure RcEndpoint.Unscheduled (ep : RcEndpoint QPS MRS SQ RQ CQ IDX) (index : Fin QPS) :
    Prop where
  requester : index ∉ ep.requesterReady.slots
  responder : index ∉ ep.responderReady.slots
  timer : ep.timerScheduler.get index = none

/-- A queue pair that is as new is in no scheduler, and its slot says so. -/
theorem AsNew.unscheduled (hreachable : ep.Reachable) {index : Fin QPS}
    (hslot : ep.qps index = some slot) (h : AsNew config slot.toQpTransport) :
    ep.Unscheduled index ∧ slot.requesterScheduled = false ∧ slot.responderScheduled = false := by
  have hcoherent : ∀ c, ep.CoherentAt c index := fun c ↦
    (hreachable.here fun _ ↦ True).coherent c index (Set.notMem_empty _)
  have hidle : ∀ kind, slot.isRunnable kind = false := by
    intro kind
    cases kind with
    | requester =>
      change slot.toQpTransport.requesterIsRunnable = false
      simp [QpTransport.requesterIsRunnable, h.activeRequest, h.machine, QpStateMachine.canSend]
    | responder =>
      change slot.toQpTransport.responderIsRunnable = false
      simp [QpTransport.responderIsRunnable, h.readResponse]
  have hqueue : ∀ kind, index ∉ (ep.ready kind).slots := by
    intro kind hmem
    obtain ⟨current, hcurrent, hrunnable⟩ := (hcoherent (.ready kind)).runnable hmem
    cases hslot.symm.trans hcurrent
    rw [hidle kind] at hrunnable
    cases hrunnable
  have hflag : ∀ kind, slot.isScheduled kind = false := fun kind ↦ Bool.eq_false_iff.mpr fun hset ↦
    hqueue kind (((hcoherent (.ready kind)).flag slot hslot).mp hset)
  refine ⟨⟨hqueue .requester, hqueue .responder, ?_⟩, hflag .requester, hflag .responder⟩
  have htimer : ep.timerScheduler.get index =
      (ep.qps index).bind (RcEndpoint.timerEntry index) := hcoherent .timer
  rw [htimer, hslot, Option.bind_some, RcEndpoint.timerEntry, QpTransport.timerDeadline,
    h.activeRequest]
  rfl

/-- **A slot whose transport state is as new is a new slot**, once the call has synchronized it. -/
theorem AsNew.restarted (hreachable : ep.Reachable) {index : Fin QPS} {generation : ℕ}
    (hqps : (ep.qps index).map (fun slot ↦ (slot.toQpTransport, slot.generation)) =
      some (qp, generation)) (h : AsNew config qp) (hvalid : config.transport.Valid) :
    ∃ fresh slot' : RcQpSlot MRS SQ RQ CQ, RcQpSlot.new generation config = .ok fresh ∧
      ep.qps index = some slot' ∧ slot'.completionQueue = qp.completionQueue ∧
      slot' = { fresh with
        completionQueue := slot'.completionQueue
        history := slot'.history
        retired := slot'.retired
        timerSequence := slot'.timerSequence } ∧
      ep.Unscheduled index := by
  obtain ⟨slot, hslot, heq⟩ := Option.map_eq_some_iff.mp hqps
  obtain ⟨rfl, rfl⟩ := Prod.mk.inj heq
  obtain ⟨hunscheduled, hrequester, hresponder⟩ := h.unscheduled hreachable hslot
  obtain ⟨fresh, hnew, hfields⟩ := h.eq_new hvalid hrequester hresponder
  exact ⟨fresh, slot, hnew, hslot, rfl, hfields, hunscheduled⟩

/-! ## The two calls -/

/-- **Reset and reconfiguration fully reinitialise a queue pair.**  After a successful reset the
slot is the new slot of its generation and its configuration in every field but the completion queue
and the arm sequence of the timer; after a successful reconfiguration it is the new slot of the new
configuration in every field but the arm sequence.  No scheduler knows the slot.  (The history
variables are not fields of the source.) -/
theorem reset_and_reconfigure_reinitialise {handle : QpHandle} {index : Fin QPS}
    (h : ep.Reachable) (hlive : ep.qpIndex handle = some (index, slot)) :
    (∀ ep', ep.transitionQp handle .reset = (ep', .ok ()) →
      ∃ fresh slot' : RcQpSlot MRS SQ RQ CQ, RcQpSlot.new slot.generation slot.config = .ok fresh ∧
        ep'.qps index = some slot' ∧
        slot' = { fresh with
          completionQueue := slot'.completionQueue
          history := slot'.history
          retired := slot'.retired
          timerSequence := slot'.timerSequence } ∧
        ep'.Unscheduled index) ∧
    ∀ config ep', ep.reconfigureQp handle config = (ep', .ok ()) →
      ∃ fresh slot' : RcQpSlot MRS SQ RQ CQ, RcQpSlot.new slot.generation config = .ok fresh ∧
        ep'.qps index = some slot' ∧
        slot' = { fresh with
          history := slot'.history
          retired := slot'.retired
          timerSequence := slot'.timerSequence } ∧
        ep'.Unscheduled index := by
  obtain ⟨hslot, -, -⟩ := QpHandle.find_eq_some.mp hlive
  have hinv : QpInv slot.toQpTransport := (h.here fun _ ↦ True).qpInv hslot
  refine ⟨fun ep' hreset ↦ ?_, fun config ep' hreconfigure ↦ ?_⟩
  · have hreachable : ep'.Reachable :=
      (congrArg (fun result ↦ result.1.Reachable) hreset).mp (h.step (.transitionQp handle .reset))
    rcases ep.transitionQp_cases handle .reset with
      ⟨e, hrefused, -⟩ | ⟨_, _, ctx, generated, hindex, htransition, hmoved⟩
    · cases hreset.symm.trans hrefused
    cases hlive.symm.trans hindex
    cases hreset.symm.trans hmoved
    obtain ⟨-, hqp, -⟩ := transitionContext_spec htransition ((h.here fun _ ↦ True).counted hslot)
    have hasNew : AsNew slot.config ctx.qp := hqp ▸ QpTransport.moved_reset_asNew hinv
    have hqps := RcEndpoint.qps_synchronizeQp (ep.restore index slot ctx) index index
    have hself := Function.update_self index (some { slot with toQpTransport := ctx.qp }) ep.qps
    obtain ⟨fresh, slot', hnew, hslot', -, hfields, hunscheduled⟩ :=
      hasNew.restarted hreachable (hqps.trans (congrArg (Option.map _) hself)) hinv.config
    exact ⟨fresh, slot', hnew, hslot', hfields, hunscheduled⟩
  · have hreachable : ep'.Reachable :=
      (congrArg (fun result ↦ result.1.Reachable) hreconfigure).mp
        (h.step (.reconfigureQp handle config))
    rcases (h.here fun _ ↦ True).tabled.reconfigureQp_cases handle config with
      ⟨e, hrefused, -⟩ | ⟨_, _, machine, table, -, hindex, hidle, hmachine, -, hdone⟩
    · cases hreconfigure.symm.trans hrefused
    cases hlive.symm.trans hindex
    cases hreconfigure.symm.trans hdone
    obtain ⟨hasNew, hcompletions⟩ := RcQpSlot.reconfigured_asNew hinv hidle hmachine
    have hqps := RcEndpoint.qps_synchronizeQp ({ ep with qpnIndex := table }.setSlot index
      { slot with toQpTransport := slot.toQpTransport.reconfigured machine config }) index index
    have hself := Function.update_self index
      (some { slot with toQpTransport := slot.toQpTransport.reconfigured machine config }) ep.qps
    obtain ⟨fresh, slot', hnew, hslot', hqueue, hfields, hunscheduled⟩ :=
      hasNew.restarted hreachable (hqps.trans (congrArg (Option.map _) hself))
        (QpStateMachine.reconfigure_eq_ok hmachine).2
    refine ⟨fresh, slot', hnew, hslot', ?_, hunscheduled⟩
    have hfresh : fresh.completionQueue = slot'.completionQueue := by
      rw [RcQpSlot.completionQueue_new hnew, hqueue]
      exact hcompletions.symm
    rwa [← hfresh] at hfields

/-- A queue pair with a pending SEND is reset, and one that was just created is reconfigured. -/
theorem reset_and_reconfigure_reinitialise_posted :
    (∃ ep', (Sample.single.steps posted).transitionQp Sample.handle .reset = (ep', .ok ()) ∧
      ep'.Unscheduled 0) ∧
    ∃ ep', (Sample.single.steps ((Sample.ready 1 1).take 2)).reconfigureQp Sample.handle
      ⟨Sample.transport 5 1 1, Sample.path, 2⟩ = (ep', .ok ()) ∧ ep'.Unscheduled 0 := by
  constructor
  · have hok : ((Sample.single.steps posted).transitionQp Sample.handle .reset).2 = .ok () := by
      decide +kernel
    obtain ⟨⟨index, slot⟩, hlive⟩ := Option.isSome_iff_exists.mp (by decide +kernel :
      ((Sample.single.steps posted).qpIndex Sample.handle).isSome = true)
    rcases hreset : (Sample.single.steps posted).transitionQp Sample.handle .reset with
      ⟨ep', result⟩
    rw [hreset] at hok
    cases hok
    obtain ⟨-, -, -, -, -, hunscheduled⟩ :=
      (reset_and_reconfigure_reinitialise (Sample.single_reachable _) hlive).1 ep' hreset
    exact ⟨ep', rfl, Subsingleton.elim index 0 ▸ hunscheduled⟩
  · have hok : ((Sample.single.steps ((Sample.ready 1 1).take 2)).reconfigureQp Sample.handle
        ⟨Sample.transport 5 1 1, Sample.path, 2⟩).2 = .ok () := by
      decide +kernel
    obtain ⟨⟨index, slot⟩, hlive⟩ := Option.isSome_iff_exists.mp (by decide +kernel :
      ((Sample.single.steps ((Sample.ready 1 1).take 2)).qpIndex Sample.handle).isSome = true)
    rcases hreconfigure : (Sample.single.steps ((Sample.ready 1 1).take 2)).reconfigureQp
      Sample.handle ⟨Sample.transport 5 1 1, Sample.path, 2⟩ with ⟨ep', result⟩
    rw [hreconfigure] at hok
    cases hok
    obtain ⟨-, -, -, -, -, hunscheduled⟩ := (reset_and_reconfigure_reinitialise
      (Sample.single_reachable _) hlive).2 _ ep' hreconfigure
    exact ⟨ep', rfl, Subsingleton.elim index 0 ▸ hunscheduled⟩

end Rocev2.Rc
