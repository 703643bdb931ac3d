import Rocev2.Rc.Completions
import Rocev2.Rc.StaleResponse

/-!
# What a request has to do before it succeeds

Two properties of the active request over whole runs, both about the records that it keeps:

* a request succeeds only after all of its packets were accepted by the backend;
* between two advances of the send window, at most as many retries are granted as the retry count
  of the queue pair allows.

The READ path of the source breaks both.  A READ response is accepted before the READ request has
been transmitted, and a response that repeats acknowledged data refills the retry budget although
the window does not advance.  The properties hold in every run without such responses.
-/

namespace Rocev2.Rc

open Rocev2.Core Rocev2.Wire

variable {QPS MRS SQ RQ CQ IDX : ℕ} {active : ActiveRequest} {r : Requester} {config : QpConfig}

/-! ## Success implies transmission -/

def RetiredRequest.requestPackets (request : RetiredRequest) : ℕ :=
  if request.work.kind.isRead then 1 else request.packetCount

def RetiredRequest.AllSent (request : RetiredRequest) : Prop :=
  ∀ k < request.requestPackets, ∃ time, (k, time) ∈ request.sent

/-- The packets that count as transmitted were accepted by the backend. -/
structure Transmitted (active : ActiveRequest) : Prop where
  covered : ∀ k < active.transmittedPackets, ∃ time, (k, time) ∈ active.sent
  read : active.work.kind.isRead = true → active.nextPacket = 0

def Solicited (r : Requester) (packet : PacketRef) : Prop :=
  ∀ active, r.active = some active → active.work.kind.isRead = true →
    packet.bth.opcode.operation = .readResponse → active.transmittedPackets ≠ 0

/-- The records of the requester agree with what was transmitted. -/
structure Requester.Honest (r : Requester) : Prop where
  active : ∀ active, r.active = some active → Transmitted active
  retired : ∀ request ∈ r.retired, request.status = .success → request.AllSent

theorem operation_segmentedOpcode_readResponse (index count : ℕ) :
    (segmentedOpcode .readResponse index count).operation = .readResponse := by
  unfold segmentedOpcode
  split <;> first | rfl | contradiction

theorem Transmitted.packetSent (h : Transmitted active)
    (hnext : active.nextPacket ≤ active.transmittedPackets) (now timeoutTicks : ℕ) :
    Transmitted (active.packetSent now timeoutTicks) := by
  have hcovered : ∀ k < max active.transmittedPackets (active.nextPacket + 1),
      ∃ time, (k, time) ∈ active.sent ++ [(active.nextPacket, now)] := by
    intro k hk
    rcases Nat.lt_or_ge k active.transmittedPackets with hlt | hge
    · obtain ⟨time, hmem⟩ := h.covered k hlt
      exact ⟨time, List.mem_append_left _ hmem⟩
    · obtain rfl : k = active.nextPacket := by omega
      exact ⟨now, List.mem_append_right _ (List.mem_singleton_self _)⟩
  unfold ActiveRequest.packetSent
  split
  · rename_i hkind
    have hzero : active.nextPacket = 0 := h.read (by rw [hkind]; rfl)
    rw [hzero] at hcovered
    refine ⟨?_, fun _ ↦ hzero⟩
    simpa only [hzero] using hcovered
  all_goals
    rename_i hkind
    have hsend : active.work.kind.isRead = false := by rw [hkind]; rfl
    dsimp only
    split
    all_goals exact ⟨hcovered, fun hread ↦ nomatch hsend.symm.trans hread⟩

theorem allSent_of_acknowledged {window window' : SendWindow} {mtu acked packets : ℕ} {next : Psn}
    {packet : PacketRef} (h : Transmitted active) (hwindow : WindowedAt active window mtu acked)
    (hacks : AcksSent active packet)
    (hack : window.acknowledge packet.bth.psn = (window', .advanced packets next))
    (hall : window'.oldestUnacknowledged = active.lastPsn.next) :
    (active.retired .success).AllSent := by
  obtain ⟨k, -, hreached, hlt, -, rfl⟩ := hwindow.acked_part hacks.sent hacks.psn hack
  have hcount : k + 1 = active.packetCount := by
    have hbound := hwindow.bound
    have hmax : maxOutstandingPackets < 2 ^ 23 := by decide
    rw [hwindow.lastPsn_next] at hall
    have hinj := (Psn.newTruncated_inj (a := active.firstPsn.value + (k + 1))
      (b := active.firstPsn.value + active.packetCount) (by omega) (by omega)).mp hall
    omega
  intro j hj
  unfold RetiredRequest.requestPackets ActiveRequest.retired at hj
  dsimp only at hj
  rw [hacks.kind, if_neg Bool.false_ne_true] at hj
  exact h.covered j (by omega)

theorem Requester.Honest.stopped (h : r.Honest) {status : CompletionStatus}
    (hstatus : status ≠ .success) {state : QpState} {window : SendWindow} :
    Requester.Honest ⟨state, config, window, none,
      r.retired ++ (r.active.map fun active ↦ active.retired status).toList⟩ := by
  refine ⟨nofun, fun request hmem hsuccess ↦ ?_⟩
  rcases List.mem_append.mp hmem with hold | hnew
  · exact h.retired request hold hsuccess
  · obtain ⟨active, -, rfl⟩ := Option.map_eq_some_iff.mp (Option.mem_toList.mp hnew)
    exact absurd hsuccess hstatus

theorem Requester.Honest.succeed (h : r.Honest) (window : SendWindow)
    (hsent : (active.retired .success).AllSent) :
    (r.succeed active window).Honest := by
  refine ⟨nofun, fun request hmem hsuccess ↦ ?_⟩
  rcases List.mem_append.mp hmem with hold | hnew
  · exact h.retired request hold hsuccess
  · rw [List.mem_singleton.mp hnew]
    exact hsent

/-- **Every step keeps the records honest**, as long as READ responses are solicited. -/
theorem RequesterStep.honest {r' : Requester} {event : QpEvent} (h : RequesterStep r event r')
    (hsolicited : ∀ packet now ticksPerSecond, event = .response packet now ticksPerSecond →
      Solicited r packet) (hspans : r.Spans) (hhonest : r.Honest) : r'.Honest := by
  -- an active request whose transmission records are those of the old one
  have hupdate : ∀ {window : SendWindow} {current : ActiveRequest}, Transmitted current →
      Requester.Honest ({ r with window := window }.setActive current) := by
    intro window current hcurrent
    refine ⟨fun active hactive ↦ ?_, hhonest.retired⟩
    cases hactive
    exact hcurrent
  cases h with
  | keep => exact hhonest
  | start =>
    refine ⟨fun active hactive ↦ ?_, hhonest.retired⟩
    cases hactive
    exact ⟨fun k hk ↦ absurd hk (Nat.not_lt_zero k), fun _ ↦ rfl⟩
  | sent now timeoutTicks hactive hphase =>
    obtain ⟨acked, hwindow⟩ := hspans.windowed hactive
    exact hupdate ((hhonest.active _ hactive).packetSent hwindow.next now timeoutTicks)
  | stop status hstatus => exact hhonest.stopped hstatus
  | exhausted => exact hhonest.stopped (by decide)
  | retried hactive | resume hactive =>
    exact hupdate ⟨(hhonest.active _ hactive).covered, fun _ ↦ rfl⟩
  | delayed hactive | acked hactive | read hactive =>
    exact hupdate ⟨(hhonest.active _ hactive).covered, (hhonest.active _ hactive).read⟩
  | ackCompleted hactive hacks hack hall =>
    obtain ⟨acked, hwindow⟩ := hspans.windowed hactive
    exact hhonest.succeed _
      (allSent_of_acknowledged (hhonest.active _ hactive) hwindow hacks hack hall)
  | @readCompleted active packet now ticksPerSecond hactive hanswers hall =>
    have hsent := hsolicited packet now ticksPerSecond rfl active hactive hanswers.kind
      (by rw [hanswers.op]; exact operation_segmentedOpcode_readResponse _ _)
    refine hhonest.succeed _ fun k hk ↦ ?_
    unfold RetiredRequest.requestPackets ActiveRequest.retired at hk
    dsimp only at hk
    rw [hanswers.kind, if_pos rfl] at hk
    exact (hhonest.active _ hactive).covered k (by omega)
  | move => exact ⟨hhonest.active, hhonest.retired⟩
  | restart config => exact hhonest.stopped (by decide)

theorem honest_stable : Stable (fun _ ↦ True) (Arrival.Meets Solicited)
    (fun (_ : Fin QPS) (qp : QpTransport MRS SQ RQ CQ) ↦ qp.requester.Honest) := by
  refine requester_stable (fun r hactive hretired ↦ ⟨fun active hsome ↦ ?_, fun request hmem ↦ ?_⟩)
    fun _ hstep hsolicited hspans hhonest ↦ hstep.honest hsolicited hspans hhonest
  · rw [hactive] at hsome
    cases hsome
  · rw [hretired] at hmem
    cases hmem

def SentBeforeSuccess (qp : QpTransport MRS SQ RQ CQ) : Prop :=
  (∀ request ∈ qp.retired, request.status = .success → request.AllSent) ∧
  ∀ completion ∈ (qp.history.polled ++ qp.completionQueue.items).filter isSend,
    completion.status = .success → ∃ request ∈ qp.retired, request.status = .success ∧
      request.work.id = completion.workRequestId ∧ request.AllSent

/-- **Success implies that the request was sent**, in every run in which no READ response arrives
before the READ has been transmitted. -/
theorem success_implies_sent {ep : RcEndpoint QPS MRS SQ RQ CQ IDX} (h : ep.Reachable)
    {i : Fin QPS} (hsolicited : ∀ arrival ∈ ep.arrivals, arrival.slot = i.val →
      Arrival.Meets Solicited arrival)
    {slot : RcQpSlot MRS SQ RQ CQ} (hslot : ep.qps i = some slot) :
    SentBeforeSuccess slot.toQpTransport := by
  have hhonest := h.stable honest_stable hsolicited hslot
  have hledger : Ledger False slot.toQpTransport :=
    h.stable ledger_stable (fun _ _ _ ↦ trivial) hslot
  refine ⟨hhonest.retired, fun completion hmem hsuccess ↦ ?_⟩
  obtain ⟨request, hrequest, hstatus, hid⟩ :=
    hledger.exists_retired hmem (by rw [hsuccess]; decide)
  rw [hsuccess] at hstatus
  exact ⟨request, hrequest, hstatus, hid, hhonest.retired request hrequest hstatus⟩

theorem success_implies_sent_acknowledged :
    ∃ slot, (Sample.single.steps secondSent).qps 0 = some slot ∧
      SentBeforeSuccess slot.toQpTransport := by
  have hlive : ((Sample.single.steps secondSent).qps 0).isSome = true := by decide +kernel
  have hpackets : ∀ arrival ∈ (Sample.single.steps secondSent).arrivals,
      arrival.packet.bth.opcode.operation = .acknowledge := by
    decide +kernel
  obtain ⟨slot, hslot⟩ := Option.isSome_iff_exists.mp hlive
  refine ⟨slot, hslot, success_implies_sent (Sample.single_reachable _) ?_ hslot⟩
  intro arrival hmem _ active _ _ hread
  rw [hpackets arrival hmem] at hread
  cases hread

def unsentRead : List Op :=
  Sample.ready 1 1 ++
    [.postWork Sample.handle ⟨1, .rdmaRead 8192 7, Sample.sge 4, true⟩, Sample.polls 0 false,
      Sample.receives 0
        (Sample.packet .rdmaReadResponseOnly 0 none (some (.ack 1)) (List.replicate 4 0))]

/-- **A READ succeeds although its request packet was never accepted.** -/
theorem success_unsent : ∃ (ep : RcEndpoint 1 1 2 2 4 2) (slot : RcQpSlot 1 2 2 4),
    ep.Reachable ∧ ep.qps 0 = some slot ∧ ¬ SentBeforeSuccess slot.toQpTransport := by
  have hretired : ((Sample.single.steps unsentRead).qps 0).map (fun slot ↦
      slot.retired.map fun request ↦ (request.status, request.requestPackets, request.sent)) =
      some [(.success, 1, [])] := by
    decide +kernel
  obtain ⟨slot, hslot, heq⟩ := Option.map_eq_some_iff.mp hretired
  refine ⟨_, slot, Sample.single_reachable unsentRead, hslot, fun hsent ↦ ?_⟩
  obtain ⟨request, hrequests, hrequest⟩ := List.map_eq_singleton_iff.mp heq
  simp only [Prod.mk.injEq] at hrequest
  obtain ⟨hstatus, hpackets, hnone⟩ := hrequest
  obtain ⟨time, hmem⟩ := hsent.1 request (by rw [hrequests]; exact List.mem_singleton_self _)
    hstatus 0 (by rw [hpackets]; exact Nat.one_pos)
  rw [hnone] at hmem
  cases hmem

/-! ## Retries between two advances of the window -/

/-- The retries granted since the last advance and the retries that are left make up the retry
count of the queue pair. -/
structure Budgeted (config : QpConfig) (active : ActiveRequest) : Prop where
  policy : active.retryBudget.policy.retryCount = config.retryCount
  spent : config.retryCount ≠ unlimitedRetryCode →
    active.retried + active.retryBudget.remainingTimeout = config.retryCount

def Advances (r : Requester) (packet : PacketRef) : Prop :=
  ∀ active, r.active = some active → active.work.kind.isRead = true →
    packet.bth.opcode.operation = .readResponse →
    packet.bth.psn = active.firstPsn.wrappingAdd active.readPacketsReceived →
    (r.window.acknowledge packet.bth.psn).1 ≠ r.window

theorem Budgeted.packetSent (h : Budgeted config active) (now timeoutTicks : ℕ) :
    Budgeted config (active.packetSent now timeoutTicks) := by
  unfold ActiveRequest.packetSent
  split
  · exact ⟨h.policy, h.spent⟩
  all_goals
    dsimp only
    split
    all_goals exact ⟨h.policy, h.spent⟩

theorem Budgeted.full (hpolicy : active.retryBudget.policy.retryCount = config.retryCount)
    (hremaining : active.retryBudget.remainingTimeout = active.retryBudget.policy.retryCount)
    (hretried : active.retried = 0) : Budgeted config active := by
  refine ⟨hpolicy, fun _ ↦ ?_⟩
  rw [hretried, Nat.zero_add, hremaining, hpolicy]

def Requester.Budgeted (r : Requester) : Prop :=
  ∀ active, r.active = some active → Rc.Budgeted r.config active

/-- **Every step keeps the budget**, as long as READ responses advance the window. -/
theorem RequesterStep.budgeted {r' : Requester} {event : QpEvent} (h : RequesterStep r event r')
    (hadvances : ∀ packet now ticksPerSecond, event = .response packet now ticksPerSecond →
      Advances r packet) (hbudgeted : r.Budgeted) : r'.Budgeted := by
  have hupdate : ∀ {window : SendWindow} {current : ActiveRequest}, Budgeted r.config current →
      Requester.Budgeted ({ r with window := window }.setActive current) := by
    rintro window current hcurrent active ⟨⟩
    exact hcurrent
  cases h with
  | keep => exact hbudgeted
  | start hactive hready hreserve hpolicy =>
    rintro active ⟨⟩
    unfold RetryPolicy.new at hpolicy
    split at hpolicy
    · cases hpolicy
      exact .full rfl rfl rfl
    · cases hpolicy
  | sent now timeoutTicks hactive => exact hupdate ((hbudgeted _ hactive).packetSent _ _)
  | stop | exhausted => rintro active ⟨⟩
  | @retried event active budget delay hactive hcharges hbudget =>
    obtain ⟨hpolicy, hspent⟩ := hbudgeted _ hactive
    refine hupdate ⟨?_, fun hlimited ↦ ?_⟩
    · change budget.policy.retryCount = _
      rw [← hpolicy, ← active.retryBudget.onFailure_policy .timeout 0, hbudget]
    · have hold := hspent hlimited
      rcases RetryBudget.retry_of_timeout hbudget with ⟨hunlimited, -⟩ | ⟨-, hpos, rfl⟩
      · exact absurd (hpolicy.symm.trans hunlimited) hlimited
      · change active.retried + 1 + (active.retryBudget.remainingTimeout - 1) = _
        omega
  | @delayed active packet aeth code budget delay now ticksPerSecond hactive haeth hclass hbudget =>
    obtain ⟨hpolicy, hspent⟩ := hbudgeted _ hactive
    obtain ⟨-, ⟨-, rfl⟩ | ⟨-, -, rfl⟩⟩ := RetryBudget.retry_of_receiverNotReady hbudget
    · exact hupdate ⟨hpolicy, hspent⟩
    · exact hupdate ⟨hpolicy, hspent⟩
  | acked hactive => exact hupdate (.full (hbudgeted _ hactive).policy rfl rfl)
  | @read active packet bytesReceived now ticksPerSecond hactive hanswers hpart =>
    have hnew := hadvances packet now ticksPerSecond rfl active hactive hanswers.kind
      (by rw [hanswers.op]; exact operation_segmentedOpcode_readResponse _ _) hanswers.psn
    exact hupdate (.full (hbudgeted _ hactive).policy rfl (if_neg hnew))
  | ackCompleted | readCompleted => rintro active ⟨⟩
  | resume hactive =>
    exact hupdate ⟨(hbudgeted _ hactive).policy, (hbudgeted _ hactive).spent⟩
  | move => exact hbudgeted
  | restart => rintro active ⟨⟩

theorem budgeted_stable : Stable (fun _ ↦ True) (Arrival.Meets Advances)
    (fun (_ : Fin QPS) (qp : QpTransport MRS SQ RQ CQ) ↦ qp.requester.Budgeted) := by
  refine requester_stable (fun r hactive _ active hsome ↦ ?_)
    fun _ hstep hadvances _ hbudgeted ↦ hstep.budgeted hadvances hbudgeted
  rw [hactive] at hsome
  cases hsome

/-- At most the retry count of retries have been granted since the window last advanced, and the
next timeout or sequence NAK after that many ends the request. -/
structure RetriesBounded (ctx : QpContext MRS SQ RQ CQ) (active : ActiveRequest) : Prop where
  granted : active.retried ≤ ctx.qp.machine.config.retryCount
  next : active.retried = ctx.qp.machine.config.retryCount →
    (scheduleTransportRetry ctx).1.qp = (ctx.qp.activeFinished .retryExceeded 0).failed

/-- **Retry budgets refill only on forward progress**, in every run in which every READ response
that is accepted advances the window. -/
theorem retries_bounded {ep : RcEndpoint QPS MRS SQ RQ CQ IDX} (h : ep.Reachable)
    {i : Fin QPS} (hadvances : ∀ arrival ∈ ep.arrivals, arrival.slot = i.val →
      Arrival.Meets Advances arrival)
    {slot : RcQpSlot MRS SQ RQ CQ} (hslot : ep.qps i = some slot) {active : ActiveRequest}
    (hactive : slot.activeRequest = some active) (hlimited : slot.machine.config.retryCount < 7) :
    RetriesBounded (ep.context slot) active := by
  have hbudgeted := h.stable budgeted_stable hadvances hslot
  obtain ⟨ep₀, -, hholds⟩ := h.holds
  obtain ⟨hpolicy, hspent⟩ := hbudgeted active hactive
  have hspent : active.retried + active.retryBudget.remainingTimeout =
      slot.machine.config.retryCount := hspent (Nat.ne_of_lt hlimited)
  refine ⟨hspent ▸ Nat.le_add_right _ _, fun hall ↦ ?_⟩
  obtain ⟨_, ⟨-, heffect⟩, -⟩ := scheduleTransportRetry_effect (hholds.counted hslot)
  generalize (scheduleTransportRetry (ep.context slot)).1.qp = qp' at heffect ⊢
  cases heffect with
  | idle hnone => exact nomatch hnone.symm.trans hactive
  | @retried other _ _ hsome hbudget =>
    obtain rfl : active = other := Option.some.inj (hactive.symm.trans hsome)
    rcases RetryBudget.retry_of_timeout hbudget with ⟨hunlimited, -⟩ | ⟨-, hpos, -⟩
    · exact absurd (hpolicy.symm.trans hunlimited) (Nat.ne_of_lt hlimited)
    · change active.retried = slot.machine.config.retryCount at hall
      omega
  | exhausted => rfl

/-- The READ has been retried once, and its first response has advanced the window. -/
theorem retries_bounded_retried :
    ∃ slot active, (Sample.single.steps Sample.retriedRead).qps 0 = some slot ∧
      slot.activeRequest = some active ∧ active.work.kind.isRead = true ∧ active.retried = 1 ∧
      RetriesBounded ((Sample.single.steps Sample.retriedRead).context slot) active := by
  have hlive : ((Sample.single.steps Sample.retriedRead).qps 0).bind (fun slot ↦
      slot.activeRequest.map fun active ↦ (active.work.kind.isRead, active.retried,
        slot.machine.config.retryCount)) = some (true, 1, 1) := by
    decide +kernel
  have hmoved : ∀ arrival ∈ (Sample.single.steps Sample.retriedRead).arrivals,
      (arrival.qp.sendWindow.acknowledge arrival.packet.bth.psn).1 ≠ arrival.qp.sendWindow := by
    decide +kernel
  obtain ⟨slot, hslot, hmap⟩ := Option.bind_eq_some_iff.mp hlive
  obtain ⟨active, hactive, heq⟩ := Option.map_eq_some_iff.mp hmap
  simp only [Prod.mk.injEq] at heq
  obtain ⟨hkind, hretried, hcount⟩ := heq
  exact ⟨slot, active, hslot, hactive, hkind, hretried,
    retries_bounded (Sample.single_reachable _) (fun arrival hmem _ _ _ _ _ _ ↦ hmoved arrival hmem)
      hslot hactive (by rw [hcount]; decide)⟩

def stuckRead : List Op :=
  Sample.retriedRead ++ [Sample.receives 200 Sample.readFirst, Sample.polls 300 true]

/-- **Two retries are granted although the retry count is one and the window has not advanced.** -/
theorem retries_unbounded : ∃ (ep : RcEndpoint 1 1 2 2 4 2) (slot : RcQpSlot 1 2 2 4)
    (active : ActiveRequest), ep.Reachable ∧ ep.qps 0 = some slot ∧
      slot.activeRequest = some active ∧ slot.machine.config.retryCount < 7 ∧
      ¬ RetriesBounded (ep.context slot) active := by
  have hlive : ((Sample.single.steps stuckRead).qps 0).bind (fun slot ↦
      slot.activeRequest.map fun active ↦
        (active.retried, slot.machine.config.retryCount)) = some (2, 1) := by
    decide +kernel
  obtain ⟨slot, hslot, hmap⟩ := Option.bind_eq_some_iff.mp hlive
  obtain ⟨active, hactive, heq⟩ := Option.map_eq_some_iff.mp hmap
  obtain ⟨hretried, hcount⟩ := Prod.mk.inj heq
  refine ⟨_, slot, active, Sample.single_reachable stuckRead, hslot, hactive,
    by rw [hcount]; decide, fun hbounded ↦ ?_⟩
  have hgranted : active.retried ≤ slot.machine.config.retryCount := hbounded.granted
  rw [hretried, hcount] at hgranted
  exact absurd hgranted (by decide)

end Rocev2.Rc
