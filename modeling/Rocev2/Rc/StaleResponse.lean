import Rocev2.Rc.Reachable

/-!
# Responses to an earlier request

A response may arrive late, or twice, when the request that it answers is no longer active.  Such a
response names a PSN before the first one of the active request.  The requester compares PSNs in
the branches for positive ACKs and for READ responses, but not for NAKs, and it does not expect
that an ACK belongs to anything but a SEND or WRITE of which a packet has been transmitted.
`Harmless` is what is left: **a stale response changes nothing exactly when it is harmless**.
-/

namespace Rocev2.Rc

open Rocev2.Core Rocev2.Wire Rocev2.Memory Rocev2.Lib

variable {QPS MRS SQ RQ CQ IDX : ℕ}

/-! ## What a stale response changes -/

variable (active : ActiveRequest)

def ActiveRequest.erased : ActiveRequest :=
  { active with sent := [], delays := [], retried := 0 }

def QpTransport.erased (qp : QpTransport MRS SQ RQ CQ) : QpTransport MRS SQ RQ CQ :=
  { qp with
    activeRequest := qp.activeRequest.map ActiveRequest.erased
    retired := []
    history := {} }

/-- The request is about to send its first packet, and nothing of it has been answered. -/
structure Rewound (active : ActiveRequest) : Prop where
  phase : active.phase = .sending
  next : active.nextPacket = 0
  received : active.readPacketsReceived = 0
  bytes : active.bytesReceived = 0
  timer : active.timer = .new

/-- A negative acknowledgement that leaves the request as it is: a retry that costs nothing of a
request that has just been rewound, or a delay that costs nothing and ends with the one that runs.
-/
def HarmlessNak (now ticksPerSecond : ℕ) : AethClass → Prop
  | .nak .psnSequenceError =>
    active.retryBudget.policy.retryCount = unlimitedRetryCode ∧ Rewound active
  | .rnrNak code =>
    active.retryBudget.policy.rnrRetryCount = unlimitedRetryCode ∧ active.phase = .rnrWait ∧
      active.timer = .arm now ((rnrTimerTicks code.toNat ticksPerSecond).getD (2 ^ 64 - 1))
  | _ => False

/-- A response to an earlier request that changes nothing. -/
def Harmless (packet : PacketRef) (now ticksPerSecond : ℕ) : Prop :=
  match packet.bth.opcode, packet.aeth with
  | .acknowledge, none => False
  | .acknowledge, some aeth =>
    match aeth.classify with
    | .ack _ => active.work.kind.isRead = false ∧ active.transmittedPackets ≠ 0
    | negative => HarmlessNak active now ticksPerSecond negative
  | _, aeth =>
    -- a READ response; one with a positive AETH, or with none, is compared with the request
    active.work.kind.isRead = true ∧
      match negativeAeth aeth with
      | none => True
      | some aeth => HarmlessNak active now ticksPerSecond aeth.classify

section Stale

variable {ctx : QpContext MRS SQ RQ CQ} {others : Multiset (RegionLease MRS)}
  {active : ActiveRequest} {packet : PacketRef} {now ticksPerSecond : ℕ}
  {qp : QpTransport MRS SQ RQ CQ}

theorem erased_ne_of_active {qp' : QpTransport MRS SQ RQ CQ}
    (hactive : qp.activeRequest = some active) (hnone : qp'.activeRequest = none) :
    qp'.erased ≠ qp.erased := by
  intro heq
  have hrequest := congrArg QpTransport.activeRequest heq
  simp only [QpTransport.erased, hactive, hnone] at hrequest
  cases hrequest

theorem active_failActive (status : CompletionStatus)
    (h : Counted ctx.memory.refs (ctx.qp.leases + others)) :
    (failActiveAndEnterError ctx status).1.qp.activeRequest = none := by
  have hends : Ends (fun _ qp ↦ qp.activeRequest = none) ctx.memory others
      (failActiveAndError ctx status).1 := ends_failActiveAndError rfl rfl h
  obtain ⟨_, hnone, -⟩ := hends
  exact hnone

theorem erased_setActive_iff {current : ActiveRequest} (hactive : qp.activeRequest = some active) :
    (qp.setActive (some current)).erased = qp.erased ↔ current.erased = active.erased := by
  constructor
  · intro heq
    have hrequest := congrArg QpTransport.activeRequest heq
    simp only [QpTransport.erased, QpTransport.setActive, hactive, Option.map_some,
      Option.some.injEq] at hrequest
    exact hrequest
  · intro heq
    simp only [QpTransport.erased, QpTransport.setActive, hactive, Option.map_some, heq]

theorem erased_resetForRetry_iff {budget : RetryBudget} {retried : ℕ} :
    { active with retryBudget := budget, retried := retried }.resetForRetry.erased =
        active.erased ↔ budget = active.retryBudget ∧ Rewound active := by
  constructor
  · intro heq
    exact ⟨congrArg ActiveRequest.retryBudget heq, (congrArg ActiveRequest.phase heq).symm,
      (congrArg ActiveRequest.nextPacket heq).symm,
      (congrArg ActiveRequest.readPacketsReceived heq).symm,
      (congrArg ActiveRequest.bytesReceived heq).symm, (congrArg ActiveRequest.timer heq).symm⟩
  · rintro ⟨rfl, hphase, hnext, hreceived, hbytes, htimer⟩
    simp only [ActiveRequest.erased, ActiveRequest.resetForRetry, hphase, hnext, hreceived, hbytes,
      htimer]

theorem erased_delayed_iff {budget : RetryBudget} {timer : Timer} {delays : List (ℕ × ℕ)} :
    { active with
      retryBudget := budget
      phase := .rnrWait
      timer := timer
      delays := delays }.erased = active.erased ↔
      budget = active.retryBudget ∧ active.phase = .rnrWait ∧ active.timer = timer := by
  constructor
  · intro heq
    exact ⟨congrArg ActiveRequest.retryBudget heq, (congrArg ActiveRequest.phase heq).symm,
      (congrArg ActiveRequest.timer heq).symm⟩
  · rintro ⟨rfl, hphase, htimer⟩
    simp only [ActiveRequest.erased, hphase, htimer]

/-- A charged retry is without effect exactly when it is harmless. -/
theorem erased_scheduleTransportRetry (hactive : ctx.qp.activeRequest = some active)
    (h : Counted ctx.memory.refs (ctx.qp.leases + others)) :
    (scheduleTransportRetry ctx).1.qp.erased = ctx.qp.erased ↔
      HarmlessNak active now ticksPerSecond (.nak .psnSequenceError) := by
  unfold scheduleTransportRetry HarmlessNak
  rw [hactive]
  dsimp only
  split
  · rename_i budget delay hbudget
    change (ctx.qp.setActive _).erased = ctx.qp.erased ↔ _
    rw [erased_setActive_iff hactive, erased_resetForRetry_iff]
    refine and_congr_left fun _ ↦ ?_
    rcases RetryBudget.retry_of_timeout hbudget with ⟨hunlimited, rfl⟩ | ⟨hlimited, hpos, rfl⟩
    · exact iff_of_true rfl hunlimited
    · refine iff_of_false (fun heq ↦ ?_) hlimited
      have hremaining := congrArg RetryBudget.remainingTimeout heq
      dsimp only at hremaining
      omega
  · rename_i budget reason hbudget
    obtain ⟨hlimited, -⟩ := RetryBudget.exhausted_of_timeout hbudget
    refine iff_of_false (erased_ne_of_active hactive (active_failActive _ h)) ?_
    exact fun hharmless ↦ hlimited hharmless.1

/-- A delay is without effect exactly when it is harmless. -/
theorem erased_scheduleRnrRetry {code : UInt8} (hactive : ctx.qp.activeRequest = some active)
    (h : Counted ctx.memory.refs (ctx.qp.leases + others)) :
    (scheduleRnrRetry ctx code.toNat now ticksPerSecond).1.qp.erased = ctx.qp.erased ↔
      HarmlessNak active now ticksPerSecond (.rnrNak code) := by
  unfold scheduleRnrRetry HarmlessNak
  rw [hactive]
  dsimp only
  split
  · rename_i budget delay hbudget
    change (ctx.qp.setActive _).erased = ctx.qp.erased ↔ _
    rw [erased_setActive_iff hactive, erased_delayed_iff]
    obtain ⟨rfl, hcases⟩ := RetryBudget.retry_of_receiverNotReady hbudget
    refine and_congr_left fun _ ↦ ?_
    rcases hcases with ⟨hunlimited, rfl⟩ | ⟨hlimited, hpos, rfl⟩
    · exact iff_of_true rfl hunlimited
    · refine iff_of_false (fun heq ↦ ?_) hlimited
      have hremaining := congrArg RetryBudget.remainingRnr heq
      dsimp only at hremaining
      omega
  · rename_i budget reason hbudget
    obtain ⟨hlimited, -⟩ := RetryBudget.exhausted_of_receiverNotReady hbudget
    refine iff_of_false (erased_ne_of_active hactive (active_failActive _ h)) ?_
    exact fun hharmless ↦ hlimited hharmless.1

theorem erased_handleNak {aeth : Aeth} {psn : Psn} (hactive : ctx.qp.activeRequest = some active)
    (hnegative : ∀ credit, aeth.classify ≠ .ack credit)
    (h : Counted ctx.memory.refs (ctx.qp.leases + others)) :
    (handleAethResponse ctx aeth psn now ticksPerSecond).1.qp.erased = ctx.qp.erased ↔
      HarmlessNak active now ticksPerSecond aeth.classify := by
  have hfails : ∀ status, (failActiveAndEnterError ctx status).1.qp.erased ≠ ctx.qp.erased :=
    fun status ↦ erased_ne_of_active hactive (active_failActive status h)
  unfold handleAethResponse
  cases hclass : aeth.classify with
  | ack credit => exact absurd hclass (hnegative credit)
  | rnrNak code => exact erased_scheduleRnrRetry hactive h
  | reserved code => exact iff_of_false (hfails _) id
  | nak code =>
    cases code with
    | psnSequenceError => exact erased_scheduleTransportRetry hactive h
    | _ => exact iff_of_false (hfails _) id

/-- A PSN before the active request. -/
structure Stale (active : ActiveRequest) (psn : Psn) (k : ℕ) : Prop where
  psn_eq : psn.wrappingAdd k = active.firstPsn
  pos : 1 ≤ k
  le : k ≤ 2 ^ 23 - active.packetCount

namespace Stale

variable {psn : Psn} {k : ℕ}

theorem packet_eq (h : Stale active psn k) (n : ℕ) :
    active.firstPsn.wrappingAdd n = .newTruncated (psn.value + (k + n)) := by
  rw [← h.psn_eq, Psn.wrappingAdd_wrappingAdd]
  rfl

theorem compare_before (h : Stale active psn k) {n : ℕ} (hlt : n < active.packetCount) :
    psn.compare (active.firstPsn.wrappingAdd n) = .before := by
  have hpos := h.pos
  have hle := h.le
  rw [h.packet_eq]
  nth_rewrite 1 [← Psn.newTruncated_self psn]
  rw [Psn.compare_newTruncated (by omega) (by omega), if_pos (by omega)]

theorem acknowledge {mtu acked : ℕ} {window : SendWindow} (h : Stale active psn k)
    (hwindow : WindowedAt active window mtu acked) :
    window.acknowledge psn = (window, .duplicate) := by
  have hbefore := h.compare_before hwindow.acked_lt
  rw [hwindow.window_eq, SendWindow.acknowledge]
  exact if_pos hbefore

end Stale

/-- A stale ACK is without effect exactly when the active request is a SEND or WRITE of which a
packet has been transmitted. -/
theorem erased_handleAck {psn : Psn} {k : ℕ} (hactive : ctx.qp.activeRequest = some active)
    (hstale : Stale active psn k) (hwindow : Windowed active ctx.qp.sendWindow ctx.qp.mtu)
    (h : Counted ctx.memory.refs (ctx.qp.leases + others)) :
    (handleAck ctx psn now ticksPerSecond).1.qp.erased = ctx.qp.erased ↔
      active.work.kind.isRead = false ∧ active.transmittedPackets ≠ 0 := by
  obtain ⟨acked, hwindow⟩ := hwindow
  have hfails : (failActiveTransport ctx).1.qp.erased ≠ ctx.qp.erased :=
    erased_ne_of_active hactive (active_failActive _ h)
  unfold handleAck
  rw [hactive]
  dsimp only
  split
  · rename_i hread
    exact iff_of_false hfails fun hsend ↦ nomatch hread.symm.trans hsend.1
  rename_i hkind
  have hkind := Bool.eq_false_of_not_eq_true hkind
  by_cases hsent : active.transmittedPackets = 0
  · rw [if_pos (.inl hsent)]
    exact iff_of_false hfails fun hsend ↦ hsend.2 hsent
  · have hbefore := hstale.compare_before (n := active.transmittedPackets - 1)
      (by have := hwindow.sent; omega)
    rw [if_neg (by rw [hbefore]; simp [hsent]), hstale.acknowledge hwindow]
    exact iff_of_true rfl ⟨hkind, hsent⟩

/-- A stale READ response is without effect exactly when the active request is a READ and the
response is not a harmful NAK. -/
theorem erased_handleReadResponse {k : ℕ} (hactive : ctx.qp.activeRequest = some active)
    (hstale : Stale active packet.bth.psn k)
    (hwindow : Windowed active ctx.qp.sendWindow ctx.qp.mtu)
    (h : Counted ctx.memory.refs (ctx.qp.leases + others)) :
    (handleReadResponse ctx packet now ticksPerSecond).1.qp.erased = ctx.qp.erased ↔
      active.work.kind.isRead = true ∧
        match negativeAeth packet.aeth with
        | none => True
        | some aeth => HarmlessNak active now ticksPerSecond aeth.classify := by
  obtain ⟨acked, hwindow⟩ := hwindow
  unfold handleReadResponse
  rw [hactive]
  dsimp only
  split
  · rename_i hkind
    refine iff_of_false (erased_ne_of_active hactive (active_failActive _ h)) fun hread ↦ ?_
    exact nomatch hkind.symm.trans hread.1
  rename_i hkind
  have hkind := Bool.eq_true_of_not_eq_false hkind
  cases hnegative : negativeAeth packet.aeth with
  | none =>
    have hbefore := hstale.compare_before (Nat.lt_of_le_of_lt hwindow.received hwindow.acked_lt)
    dsimp only
    rw [if_pos (by rw [hbefore]; decide)]
    exact iff_of_true rfl ⟨hkind, trivial⟩
  | some aeth =>
    obtain ⟨-, hclass⟩ := Option.filter_eq_some_iff.mp hnegative
    dsimp only
    rw [erased_handleNak hactive (fun credit hack ↦ by rw [hack] at hclass; cases hclass) h]
    exact ⟨fun hharmless ↦ ⟨hkind, hharmless⟩, fun hharmless ↦ hharmless.2⟩

end Stale

/-- **A response that belongs to an earlier request is ignored exactly when it is harmless.** -/
theorem stale_response_ignored {ep : RcEndpoint QPS MRS SQ RQ CQ IDX} (h : ep.Reachable)
    {i : Fin QPS} {slot : RcQpSlot MRS SQ RQ CQ} (hslot : ep.qps i = some slot)
    {active : ActiveRequest} (hactive : slot.activeRequest = some active) {packet : PacketRef}
    (hresponse : packet.bth.opcode.isRequest = false) {k : ℕ}
    (hstale : Stale active packet.bth.psn k) (now ticksPerSecond : ℕ) :
    (handleResponsePacket (ep.context slot) packet now ticksPerSecond).1.qp.erased =
        slot.toQpTransport.erased ↔ Harmless active packet now ticksPerSecond := by
  obtain ⟨ep₀, -, hholds⟩ := h.holds
  have hcounted := hholds.counted hslot
  have hwindow := h.windowed hslot hactive
  have hactive' : (ep.context slot).qp.activeRequest = some active := hactive
  unfold handleResponsePacket Harmless
  rw [hactive', if_neg (by simp)]
  cases hop : packet.bth.opcode <;> rw [hop] at hresponse
  case acknowledge =>
    dsimp only
    cases haeth : packet.aeth with
    | none =>
      exact iff_of_false (erased_ne_of_active hactive' (active_failActive _ hcounted)) id
    | some aeth =>
      dsimp only
      cases hclass : aeth.classify with
      | ack credit =>
        unfold handleAethResponse
        rw [hclass]
        exact erased_handleAck hactive' hstale hwindow hcounted
      | rnrNak code | reserved code | nak code =>
        have hnak : (handleAethResponse (ep.context slot) aeth packet.bth.psn now
            ticksPerSecond).1.qp.erased = (ep.context slot).qp.erased ↔
              HarmlessNak active now ticksPerSecond aeth.classify :=
          erased_handleNak hactive' (fun credit hack ↦ by rw [hclass] at hack; cases hack) hcounted
        rw [hclass] at hnak
        exact hnak
  case rdmaReadResponseFirst | rdmaReadResponseMiddle | rdmaReadResponseLast
      | rdmaReadResponseOnly =>
    exact erased_handleReadResponse hactive' hstale hwindow hcounted
  all_goals cases hresponse

/-! ## A late sequence NAK -/

def secondSent : List Op :=
  Sample.ready 1 1 ++
    [.postWork Sample.handle ⟨1, .send, Sample.sge 4, true⟩, Sample.polls 0 true,
      Sample.receives 0 (Sample.packet .acknowledge 0 none (some (.ack 1)) []),
      .postWork Sample.handle ⟨2, .send, Sample.sge 4, true⟩, Sample.polls 0 true]

/-- A response to the first SEND. -/
def lateResponse (aeth : Aeth) : PacketRef :=
  ⟨Bth.new .acknowledge 2 .zero, none, some aeth, [], .refl false, .refl true, fun _ ↦ rfl⟩

theorem secondSent_active : ∃ slot active,
    (Sample.single.steps secondSent).qps 0 = some slot ∧ slot.activeRequest = some active ∧
      active.phase = .waiting ∧ active.work.kind.isRead = false ∧
      active.transmittedPackets ≠ 0 ∧ ∀ aeth, Stale active (lateResponse aeth).bth.psn 1 := by
  have hlive : ((Sample.single.steps secondSent).qps 0).bind (fun slot ↦
      slot.activeRequest.map fun active ↦ (active.phase, active.work.kind.isRead,
        active.transmittedPackets, active.firstPsn, active.packetCount)) =
      some (.waiting, false, 1, .newTruncated 1, 1) := by
    decide +kernel
  obtain ⟨slot, hslot, hmap⟩ := Option.bind_eq_some_iff.mp hlive
  obtain ⟨active, hactive, heq⟩ := Option.map_eq_some_iff.mp hmap
  simp only [Prod.mk.injEq] at heq
  obtain ⟨hphase, hkind, hsent, hfirst, hcount⟩ := heq
  refine ⟨slot, active, hslot, hactive, hphase, hkind, by rw [hsent]; decide, fun aeth ↦ ?_⟩
  refine ⟨?_, Nat.le_refl 1, ?_⟩
  · rw [hfirst]
    rfl
  · rw [hcount]
    decide

theorem stale_response_ignored_ack :
    ∃ slot, (Sample.single.steps secondSent).qps 0 = some slot ∧
      (handleResponsePacket ((Sample.single.steps secondSent).context slot)
        (lateResponse (.ack 1)) 0 1000).1.qp.erased = slot.toQpTransport.erased := by
  obtain ⟨slot, active, hslot, hactive, -, hkind, hsent, hstale⟩ := secondSent_active
  refine ⟨slot, hslot, (stale_response_ignored (Sample.single_reachable _) hslot hactive rfl
    (hstale (.ack 1)) 0 1000).mpr ?_⟩
  exact ⟨hkind, hsent⟩

/-- **A late sequence NAK of the first SEND restarts the second one.** -/
theorem stale_response_harmful :
    ∃ (ep : RcEndpoint 1 1 2 2 4 2) (slot : RcQpSlot 1 2 2 4) (active : ActiveRequest)
      (packet : PacketRef) (k : ℕ), ep.Reachable ∧ ep.qps 0 = some slot ∧
      slot.activeRequest = some active ∧ packet.bth.opcode.isRequest = false ∧
      Stale active packet.bth.psn k ∧
      (handleResponsePacket (ep.context slot) packet 0 1000).1.qp.erased ≠
        slot.toQpTransport.erased := by
  obtain ⟨slot, active, hslot, hactive, hphase, -, -, hstale⟩ := secondSent_active
  refine ⟨_, slot, active, lateResponse (.psnNak 1), 1, Sample.single_reachable secondSent, hslot,
    hactive, rfl, hstale _, fun heq ↦ ?_⟩
  have hrestarted : ((Sample.single.steps secondSent).qps 0).map (fun slot ↦
      (handleResponsePacket ((Sample.single.steps secondSent).context slot)
        (lateResponse (.psnNak 1)) 0 1000).1.qp.activeRequest.map ActiveRequest.phase) =
      some (some .sending) := by
    decide +kernel
  rw [hslot] at hrestarted
  have hphases := congrArg (fun qp ↦ qp.activeRequest.map ActiveRequest.phase) heq
  simp only [QpTransport.erased, Option.map_map, Function.comp_def, ActiveRequest.erased, hactive,
    Option.map_some, hphase] at hphases
  exact nomatch (Option.some.inj hrestarted).symm.trans hphases

end Rocev2.Rc
