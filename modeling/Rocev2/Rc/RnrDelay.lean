import Rocev2.Rc.Reachable

/-!
# The receiver-not-ready delay

A receiver-not-ready NAK asks the requester to wait.  The property that no packet of the request is
transmitted before the time is over is one about the times of the progress calls, so the runs of
this module are *timed*: the times that the application passes never decrease.

The requester leaves the wait early on a sequence NAK, and a partial ACK, a READ response or another
receiver-not-ready NAK arms its timer anew, perhaps with an earlier deadline.  In runs in which no
such packet reaches a waiting request, and in which the clock never shows its largest value, at
which saturated deadlines lie, **the delay is never shortened**.
-/

namespace Rocev2.Rc

open Rocev2.Core Rocev2.Wire

variable {QPS MRS SQ RQ CQ IDX : ℕ}

/-! ## Timed runs -/

def QpEvent.time : QpEvent → Option ℕ
  | .sent now _ | .response _ now _ | .timeout now | .rnrExpired now => some now
  | .start _ | .readSent | .request _ | .transition _
  | .reconfigure _ | .postWork _ | .postReceive _ | .poll => none

theorem Op.Causes.time_eq {op : Op} {i : Fin QPS} {event : QpEvent}
    (h : op.Causes (.qp i event)) {t : ℕ} (htime : event.time = some t) : op.time = some t := by
  cases h with
  | reconfigure | transition | postWork | postWorkBatch | postReceive | postReceiveBatch
  | pollCompletion | pollCompletions => cases htime
  | packet index ticksPerSecond hdelivers hnow =>
    unfold packetEvent at htime
    split at htime
    · cases htime
    · cases htime
      exact hnow
  | internal hnow hevent =>
    rw [hnow]
    cases event with
    | sent | timeout | rnrExpired =>
      cases htime
      exact congrArg some hevent.symm
    | response => exact hevent.elim
    | _ => cases htime

/-- An endpoint that is reached by calls whose times do not decrease; `clock` is the last time. -/
inductive RcEndpoint.ReachableAt : RcEndpoint QPS MRS SQ RQ CQ IDX → ℕ → Prop
  | /-- A new endpoint. -/
    initial {ep} (h : ep.Initial) : ReachableAt ep 0
  | /-- One more call. -/
    step {ep clock} (h : ReachableAt ep clock) (op : Op)
      (htime : ∀ now, op.time = some now → clock ≤ now) :
      ReachableAt (ep.step op) (op.time.getD clock)

namespace RcEndpoint.ReachableAt

variable {ep : RcEndpoint QPS MRS SQ RQ CQ IDX} {clock : ℕ}

theorem reachable (h : ep.ReachableAt clock) : ep.Reachable := by
  induction h with
  | initial h => exact ⟨_, h, .refl⟩
  | step _ op _ ih => exact ih.step op

/-- **The rule for properties that depend on the clock.** -/
theorem stable {C : Arrival MRS SQ RQ CQ → Prop}
    {P : ℕ → Fin QPS → QpTransport MRS SQ RQ CQ → Prop}
    (hmono : ∀ {clock clock' i qp}, clock ≤ clock' → P clock i qp → P clock' i qp)
    (hstable : ∀ clock, Stable (fun event ↦ ∀ t, event.time = some t → t = clock) C (P clock))
    (h : ep.ReachableAt clock) {i : Fin QPS}
    (harrivals : ∀ arrival ∈ ep.arrivals, arrival.slot = i.val → C arrival) :
    ∀ qp, ep.engine.qps i = some qp → P clock i qp := by
  induction h with
  | initial h =>
    intro qp hqp
    rw [h.qps_eq_none] at hqp
    cases hqp
  | @step ep clock h op htime ih =>
    have hrun := h.reachable.engine_run op
    have hle : clock ≤ op.time.getD clock := by
      cases hop : op.time with
      | none => exact Nat.le_refl _
      | some now => exact htime now hop
    refine hrun.stable (hstable _) ?_ h.reachable.inv ?_ harrivals
    · intro i event hcauses t ht
      rw [hcauses.time_eq ht]
      rfl
    · intro hbefore qp hqp
      exact hmono hle (ih hbefore qp hqp)

theorem steps {ops : List Op} (h : ep.ReachableAt clock)
    (htimes : (clock :: ops.filterMap Op.time).Pairwise (· ≤ ·)) :
    (ep.steps ops).ReachableAt ((ops.filterMap Op.time).getLastD clock) := by
  induction ops generalizing ep clock with
  | nil => exact h
  | cons op ops ih =>
    cases htime : op.time with
    | none =>
      have hstep := h.step op fun now hnow ↦ nomatch htime.symm.trans hnow
      rw [List.filterMap_cons_none htime] at htimes ⊢
      rw [htime] at hstep
      exact ih hstep htimes
    | some now =>
      rw [List.filterMap_cons_some htime] at htimes ⊢
      have hle := (List.pairwise_cons.mp htimes).1 now List.mem_cons_self
      have hstep := h.step op fun now' hnow ↦ Option.some.inj (htime.symm.trans hnow) ▸ hle
      rw [htime] at hstep
      rw [List.getLastD_cons]
      exact ih hstep (List.pairwise_cons.mp htimes).2

end RcEndpoint.ReachableAt

/-! ## The invariant -/

/-- The packet does not disturb a request that waits for the receiver: it is not a sequence NAK or
another receiver-not-ready NAK, and it does not acknowledge a part of the request. -/
def Patient (r : Requester) (packet : PacketRef) : Prop :=
  ∀ active, r.active = some active → active.phase = .rnrWait →
    ¬PacketRef.SequenceNak packet ∧
    (∀ aeth code, packet.aeth = some aeth → aeth.classify ≠ .rnrNak code) ∧
    (∀ window packets next, packet.bth.opcode = .acknowledge →
      r.window.acknowledge packet.bth.psn = (window, .advanced packets next) →
      window.oldestUnacknowledged = active.lastPsn.next) ∧
    (packet.bth.opcode =
        segmentedOpcode .readResponse active.readPacketsReceived active.packetCount →
      packet.bth.psn = active.firstPsn.wrappingAdd active.readPacketsReceived →
      active.readPacketsReceived + 1 = active.packetCount)

/-- No packet accepted after the receiver asked for a delay was accepted before its end. -/
def DelaysKept (sent delays : List (ℕ × ℕ)) : Prop :=
  ∀ delay ∈ delays, ∀ emission ∈ sent.drop delay.1, delay.2 ≤ emission.2

def Awaits (active : ActiveRequest) (time : ℕ) : Prop :=
  active.phase = .rnrWait ∧ ∃ deadline, active.timer.deadline = some deadline ∧
    (time ≤ deadline ∨ 2 ^ 64 - 1 ≤ deadline)

/-- The delays of the active request are kept, and each is over or being waited for. -/
structure Delayed (clock : ℕ) (active : ActiveRequest) : Prop where
  counted : ∀ delay ∈ active.delays, delay.1 ≤ active.sent.length
  kept : DelaysKept active.sent active.delays
  passed : ∀ delay ∈ active.delays, delay.2 ≤ clock ∨ Awaits active delay.2

/-- The delays of all requests of the requester are kept. -/
structure Requester.Delayed (clock : ℕ) (r : Requester) : Prop where
  active : ∀ active, r.active = some active → Rc.Delayed clock active
  retired : ∀ request ∈ r.retired, DelaysKept request.sent request.delays

variable {r r' : Requester} {event : QpEvent} {active active' : ActiveRequest} {clock clock' : ℕ}

theorem ActiveRequest.sent_packetSent (active : ActiveRequest) (now timeoutTicks : ℕ) :
    (active.packetSent now timeoutTicks).sent = active.sent ++ [(active.nextPacket, now)] := by
  unfold packetSent
  split
  · rfl
  all_goals
    dsimp only
    split <;> rfl

theorem ActiveRequest.delays_packetSent (active : ActiveRequest) (now timeoutTicks : ℕ) :
    (active.packetSent now timeoutTicks).delays = active.delays := by
  unfold packetSent
  split
  · rfl
  all_goals
    dsimp only
    split <;> rfl

namespace Delayed

theorem mono (hle : clock ≤ clock') (h : Delayed clock active) : Delayed clock' active :=
  ⟨h.counted, h.kept, fun delay hmem ↦ (h.passed delay hmem).imp_left fun hover ↦ hover.trans hle⟩

theorem over_of_ne (h : Delayed clock active) (hphase : active.phase ≠ .rnrWait) :
    ∀ delay ∈ active.delays, delay.2 ≤ clock :=
  fun delay hmem ↦ (h.passed delay hmem).resolve_right fun hawaits ↦ hphase hawaits.1

theorem of_over (h : Delayed clock active) (hover : ∀ delay ∈ active.delays, delay.2 ≤ clock)
    (hdelays : active'.delays = active.delays) (hsent : active'.sent = active.sent) :
    Delayed clock active' := by
  obtain ⟨hcounted, hkept, -⟩ := h
  rw [← hdelays, ← hsent] at hkept
  rw [← hdelays] at hover
  rw [← hdelays, ← hsent] at hcounted
  exact ⟨hcounted, hkept, fun delay hmem ↦ .inl (hover delay hmem)⟩

theorem packetSent (h : Delayed clock active) (hphase : active.phase = .sending)
    (timeoutTicks : ℕ) : Delayed clock (active.packetSent clock timeoutTicks) := by
  have hover := h.over_of_ne (fun hwait ↦ nomatch hphase.symm.trans hwait)
  have hdelays := active.delays_packetSent clock timeoutTicks
  have hsent := active.sent_packetSent clock timeoutTicks
  refine ⟨fun delay hmem ↦ ?_, fun delay hmem emission hemission ↦ ?_, fun delay hmem ↦ ?_⟩ <;>
    rw [hdelays] at hmem
  · rw [hsent, List.length_append]
    exact (h.counted delay hmem).trans (Nat.le_add_right _ _)
  · rw [hsent, List.drop_append_of_le_length (h.counted delay hmem), List.mem_append] at hemission
    rcases hemission with hold | hnew
    · exact h.kept delay hmem emission hold
    · rw [List.mem_singleton.mp hnew]
      exact hover delay hmem
  · exact .inl (hover delay hmem)

/-- The receiver asks for another delay after the earlier ones are over. -/
theorem delayed (h : Delayed clock active) (hphase : active.phase ≠ .rnrWait) (ticks : ℕ)
    (hdelays : active'.delays = active.delays ++ [(active.sent.length, clock + ticks)])
    (hsent : active'.sent = active.sent) (hwaits : active'.phase = .rnrWait)
    (htimer : active'.timer = .arm clock ticks) : Delayed clock active' := by
  have hcases : ∀ delay ∈ active'.delays,
      delay ∈ active.delays ∨ delay = (active.sent.length, clock + ticks) := by
    intro delay hmem
    rwa [hdelays, List.mem_append, List.mem_singleton] at hmem
  refine ⟨fun delay hmem ↦ ?_, fun delay hmem emission hemission ↦ ?_, fun delay hmem ↦ ?_⟩ <;>
    rcases hcases delay hmem with hold | rfl
  · exact hsent ▸ h.counted delay hold
  · exact Nat.le_of_eq (congrArg _ hsent.symm)
  · rw [hsent] at hemission
    exact h.kept delay hold emission hemission
  · rw [hsent, List.drop_length] at hemission
    cases hemission
  · exact .inl (h.over_of_ne hphase delay hold)
  · refine .inr ⟨hwaits, saturatingAdd clock ticks, ?_, ?_⟩
    · rw [htimer]
      rfl
    · unfold saturatingAdd
      omega

theorem resume (h : Delayed clock active) {deadline : ℕ}
    (harmed : active.timer.deadline = some deadline) (hdue : deadline ≤ clock)
    (hclock : clock < 2 ^ 64 - 1) : ∀ delay ∈ active.delays, delay.2 ≤ clock := by
  intro delay hmem
  rcases h.passed delay hmem with hover | ⟨-, deadline', hdeadline, hlate⟩
  · exact hover
  · cases harmed.symm.trans hdeadline
    omega

end Delayed

theorem Requester.Delayed.finished (h : r.Delayed clock) (status : CompletionStatus)
    (hnone : r'.active = none)
    (hretired : r'.retired = r.retired ++ (r.active.map fun a ↦ a.retired status).toList) :
    r'.Delayed clock := by
  refine ⟨fun active hsome ↦ (nomatch hnone.symm.trans hsome), fun request hmem ↦ ?_⟩
  rw [hretired, List.mem_append, Option.mem_toList, Option.map_eq_some_iff] at hmem
  rcases hmem with hold | ⟨active, hactive, rfl⟩
  · exact h.retired request hold
  · exact (h.active active hactive).kept

theorem Requester.Delayed.update (h : r.Delayed clock) (hsome : r'.active = some active)
    (hretired : r'.retired = r.retired) (hactive : Rc.Delayed clock active) : r'.Delayed clock := by
  refine ⟨fun other hother ↦ ?_, hretired ▸ h.retired⟩
  cases hsome.symm.trans hother
  exact hactive

theorem RequesterStep.keepsDelays (h : RequesterStep r event r')
    (htime : ∀ t, event.time = some t → t = clock) (hclock : clock < 2 ^ 64 - 1)
    (hpatient : ∀ packet now ticksPerSecond, event = .response packet now ticksPerSecond →
      Patient r packet) (hdelayed : r.Delayed clock) : r'.Delayed clock := by
  cases h with
  | keep => exact hdelayed
  | start =>
    exact hdelayed.update rfl rfl ⟨fun _ hmem ↦ (nomatch hmem), fun _ hmem ↦ (nomatch hmem),
      fun _ hmem ↦ (nomatch hmem)⟩
  | sent now timeoutTicks hsome hphase =>
    cases htime now rfl
    exact hdelayed.update rfl rfl ((hdelayed.active _ hsome).packetSent hphase timeoutTicks)
  | stop status => exact hdelayed.finished status rfl rfl
  | exhausted => exact hdelayed.finished .retryExceeded rfl rfl
  | restart => exact hdelayed.finished .flushed rfl rfl
  | @retried _ active _ _ hsome hcharges hbudget =>
    have hphase : active.phase ≠ .rnrWait := by
      intro hwait
      cases hcharges with
      | nak hnak => exact (hpatient _ _ _ rfl _ hsome hwait).1 hnak
      | timeout hwaiting => exact nomatch hwaiting.symm.trans hwait
    have hactive := hdelayed.active _ hsome
    exact hdelayed.update rfl rfl (hactive.of_over (hactive.over_of_ne hphase) rfl rfl)
  | delayed hsome haeth hclass hbudget =>
    cases htime _ rfl
    obtain ⟨rfl, -⟩ := RetryBudget.retry_of_receiverNotReady hbudget
    have hactive := hdelayed.active _ hsome
    refine hdelayed.update rfl rfl (hactive.delayed (fun hwait ↦ ?_) _ rfl rfl rfl rfl)
    exact (hpatient _ _ _ rfl _ hsome hwait).2.1 _ _ haeth hclass
  | acked hsome hacks hack hpart =>
    have hactive := hdelayed.active _ hsome
    refine hdelayed.update rfl rfl (hactive.of_over (hactive.over_of_ne fun hwait ↦ ?_) rfl rfl)
    exact hpart ((hpatient _ _ _ rfl _ hsome hwait).2.2.1 _ _ _ hacks.op hack)
  | read hsome hanswers hpart =>
    have hactive := hdelayed.active _ hsome
    refine hdelayed.update rfl rfl (hactive.of_over (hactive.over_of_ne fun hwait ↦ ?_) rfl rfl)
    exact hpart ((hpatient _ _ _ rfl _ hsome hwait).2.2.2 hanswers.op hanswers.psn)
  | ackCompleted hsome =>
    refine hdelayed.finished .success rfl ?_
    rw [hsome]
    rfl
  | readCompleted hsome =>
    refine hdelayed.finished .success rfl ?_
    rw [hsome]
    rfl
  | resume hsome hphase harmed hdue =>
    cases htime _ rfl
    have hactive := hdelayed.active _ hsome
    exact hdelayed.update rfl rfl (hactive.of_over (hactive.resume harmed hdue hclock) rfl rfl)
  | move => exact ⟨hdelayed.active, hdelayed.retired⟩

def KeepsDelays (clock : ℕ) (qp : QpTransport MRS SQ RQ CQ) : Prop :=
  clock < 2 ^ 64 - 1 → qp.requester.Delayed clock

theorem KeepsDelays.mono {qp : QpTransport MRS SQ RQ CQ} (hle : clock ≤ clock')
    (h : KeepsDelays clock qp) : KeepsDelays clock' qp := by
  intro hlt
  obtain ⟨hactive, hretired⟩ := h (Nat.lt_of_le_of_lt hle hlt)
  exact ⟨fun active hsome ↦ (hactive active hsome).mono hle, hretired⟩

/-- The delays are kept, as long as the clock is not at its end and packets leave waiting requests
alone. -/
theorem delayed_stable (clock : ℕ) :
    Stable (fun event ↦ ∀ t, event.time = some t → t = clock) (Arrival.Meets Patient)
      (fun (_ : Fin QPS) (qp : QpTransport MRS SQ RQ CQ) ↦ KeepsDelays clock qp) := by
  refine requester_stable (P := fun r ↦ clock < 2 ^ 64 - 1 → r.Delayed clock)
    (fun r hactive hretired _ ↦ ⟨fun active hsome ↦ ?_, fun request hmem ↦ ?_⟩)
    fun htime hstep hpatient _ hdelayed hclock ↦
      hstep.keepsDelays htime hclock hpatient (hdelayed hclock)
  · rw [hactive] at hsome
    cases hsome
  · rw [hretired] at hmem
    cases hmem

/-! ## The delay is never shortened -/

/-- No packet of a request was accepted during a delay that the receiver asked for. -/
def DelaysRespected (qp : QpTransport MRS SQ RQ CQ) : Prop :=
  (∀ active, qp.activeRequest = some active → DelaysKept active.sent active.delays) ∧
    ∀ request ∈ qp.retired, DelaysKept request.sent request.delays

/-- **The delay that the receiver asks for is never shortened**, in every run in which no packet
disturbs a waiting request of the queue pair. -/
theorem rnr_delay_respected {ep : RcEndpoint QPS MRS SQ RQ CQ IDX} {clock : ℕ}
    (h : ep.ReachableAt clock) (hclock : clock < 2 ^ 64 - 1) {i : Fin QPS}
    (hpatient : ∀ arrival ∈ ep.arrivals, arrival.slot = i.val → Arrival.Meets Patient arrival)
    {slot : RcQpSlot MRS SQ RQ CQ} (hslot : ep.qps i = some slot) :
    DelaysRespected slot.toQpTransport := by
  have hdelayed := h.stable (P := fun clock _ qp ↦ KeepsDelays clock qp)
    KeepsDelays.mono delayed_stable hpatient _ (Holds.engine_qps hslot)
  obtain ⟨hactive, hretired⟩ := hdelayed hclock
  exact ⟨fun active hsome ↦ (hactive active hsome).kept, hretired⟩

theorem Sample.single_reachableAt (ops : List Op)
    (htimes : (0 :: ops.filterMap Op.time).Pairwise (· ≤ ·)) :
    (single.steps ops).ReachableAt ((ops.filterMap Op.time).getLastD 0) :=
  (RcEndpoint.ReachableAt.initial (endpoint_initial (by decide) (by decide))).steps htimes

def delayedSend : List Op :=
  Sample.ready 1 1 ++
    [.postWork Sample.handle ⟨1, .send, Sample.sge 200, true⟩, Sample.polls 0 true,
      Sample.receives 1 (Sample.packet .acknowledge 0 none (some (.rnrNak 0 31)) []),
      Sample.polls 100 true, Sample.polls 500 true]

/-- The repeated packet of the run is accepted at time 500, after the end of the delay at 493. -/
theorem rnr_delay_respected_repeated :
    ∃ slot, (Sample.single.steps delayedSend).qps 0 = some slot ∧
      slot.activeRequest.map (fun active ↦ (active.sent, active.delays)) =
        some ([(0, 0), (0, 500)], [(1, 493)]) ∧
      DelaysRespected slot.toQpTransport := by
  have hlive : ((Sample.single.steps delayedSend).qps 0).bind (fun slot ↦
      slot.activeRequest.map fun active ↦ (active.sent, active.delays)) =
        some ([(0, 0), (0, 500)], [(1, 493)]) := by
    decide +kernel
  have hwaiting : ∀ arrival ∈ (Sample.single.steps delayedSend).arrivals,
      arrival.qp.activeRequest.map (·.phase) = some .waiting := by
    decide +kernel
  obtain ⟨slot, hslot, hrecords⟩ := Option.bind_eq_some_iff.mp hlive
  have hrun := Sample.single_reachableAt delayedSend (by decide)
  refine ⟨slot, hslot, hrecords, rnr_delay_respected hrun (by decide) ?_ hslot⟩
  intro arrival hmem _ active hactive hphase
  have hphases := hwaiting arrival hmem
  rw [show arrival.qp.activeRequest = some active from hactive, Option.map_some, hphase] at hphases
  cases hphases

/-- A SEND of three packets: the receiver delays the first, and answers the second with a sequence
NAK. -/
def disturbedSend : List Op :=
  Sample.sendStarted ++
    [Sample.polls 0 true, Sample.polls 0 true,
      Sample.receives 1 (Sample.packet .acknowledge 0 none (some (.rnrNak 0 31)) []),
      Sample.receives 1 (Sample.packet .acknowledge 0 none (some (.psnNak 0)) [])]

/-- **The first packet is repeated at time 1, although the receiver asked for a delay until
493.** -/
theorem rnr_delay_shortened : ∃ (ep : RcEndpoint 1 1 2 2 4 2) (clock : ℕ)
    (slot : RcQpSlot 1 2 2 4), ep.ReachableAt clock ∧ clock < 2 ^ 64 - 1 ∧ ep.qps 0 = some slot ∧
      ¬DelaysRespected slot.toQpTransport := by
  have hlive : ((Sample.single.steps disturbedSend).qps 0).bind (fun slot ↦
      slot.activeRequest.map fun active ↦ (active.sent, active.delays)) =
        some ([(0, 0), (1, 0), (2, 0), (0, 1)], [(3, 493)]) := by
    decide +kernel
  obtain ⟨slot, hslot, hrecords⟩ := Option.bind_eq_some_iff.mp hlive
  obtain ⟨active, hactive, hpair⟩ := Option.map_eq_some_iff.mp hrecords
  obtain ⟨hsent, hdelays⟩ := Prod.mk.inj hpair
  refine ⟨_, _, slot, Sample.single_reachableAt disturbedSend (by decide), by decide, hslot, ?_⟩
  intro hrespected
  have hkept := hrespected.1 active hactive
  rw [hsent, hdelays] at hkept
  exact absurd (hkept (3, 493) (by decide) (0, 1) (by decide)) (by decide)

end Rocev2.Rc
