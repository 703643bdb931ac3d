import Rocev2.Rc.Reachable

/-!
# Cumulative acknowledgements

A positive ACK names the last packet that the peer has received.  The requester compares its PSN
with the last packet transmitted so far, and then with both ends of the send window.  After a
restart these disagree: the window has moved, while the next packet is the first one again.

`cumulative_ack_exact` says that the comparisons meet without a gap: an ACK of a transmitted packet
that is not acknowledged yet moves the window behind it, an older one changes nothing, and an ACK of
a packet that was not transmitted fails the request.
-/

namespace Rocev2.Rc

open Rocev2.Core Rocev2.Wire Rocev2.Memory Rocev2.Lib

variable {QPS MRS SQ RQ CQ IDX : ℕ}

/-! ## The end of a request -/

/-- The active request of `qp` has ended in `qp'` and is reported; after a failure, everything else
that is pending is flushed behind it. -/
structure Finishes (active : ActiveRequest) (status : CompletionStatus) (byteLen : ℕ)
    (qp qp' : QpTransport MRS SQ RQ CQ) : Prop where
  ended : qp'.activeRequest = none
  retired : qp'.retired = qp.retired ++ [active.retired status]
  reported : ∃ flushes, qp'.completionQueue.items = qp.completionQueue.items ++
    (QpContext.workCompletion active.work status byteLen).toList ++ flushes
  alone : status = .success → qp'.completionQueue.items = qp.completionQueue.items ++
    (QpContext.workCompletion active.work status byteLen).toList

section Finishes

variable {qp : QpTransport MRS SQ RQ CQ} {active : ActiveRequest}

theorem activeFinished_eq (hactive : qp.activeRequest = some active) (status : CompletionStatus)
    (byteLen : ℕ) : (qp.activeFinished status byteLen).activeRequest = none ∧
      (qp.activeFinished status byteLen).retired = qp.retired ++ [active.retired status] := by
  unfold QpTransport.activeFinished
  rw [hactive]
  exact ⟨rfl, rfl⟩

theorem retired_failed (hactive : qp.activeRequest = some active) (status : CompletionStatus) :
    (qp.activeFinished status 0).failed.retired = qp.retired ++ [active.retired status] := by
  obtain ⟨hnone, hretired⟩ := activeFinished_eq hactive status 0
  change (qp.activeFinished status 0).retired ++ _ = _
  rw [QpTransport.setMachine, hnone, hretired]
  exact List.append_nil _

theorem finishes_activeFinished (hb : Balanced qp) (hactive : qp.activeRequest = some active)
    (status : CompletionStatus) (byteLen : ℕ) :
    Finishes active status byteLen qp (qp.activeFinished status byteLen) := by
  obtain ⟨hnone, hretired⟩ := activeFinished_eq hactive status byteLen
  have hsettles : Settles True qp _ _ _ _ := settles_activeFinished hb hactive status byteLen
  have hqueue := hsettles.queue
  exact ⟨hnone, hretired, ⟨[], hqueue.trans (List.append_nil _).symm⟩, fun _ ↦ hqueue⟩

theorem finishes_failed (hb : Balanced qp) (hactive : qp.activeRequest = some active)
    {status : CompletionStatus} (hstatus : status ≠ .success) :
    Finishes active status 0 qp (qp.activeFinished status 0).failed := by
  have hsettles : Settles True qp _ _ _ _ := settles_activeFinished hb hactive status 0
  have hfailed : Settles True (qp.activeFinished status 0) _ _ _ _ :=
    settles_failed (hsettles.balanced hb)
  refine ⟨rfl, retired_failed hactive status, ⟨(qp.activeFinished status 0).flushCompletions, ?_⟩,
    fun hsuccess ↦ absurd hsuccess hstatus⟩
  rw [hfailed.queue, hsettles.queue]

end Finishes

/-! ## Positive ACKs -/

def IsAck (packet : PacketRef) : Prop :=
  packet.bth.opcode = .acknowledge ∧
    ∃ aeth credits, packet.aeth = some aeth ∧ aeth.classify = .ack credits

/-- The active request after an ACK that covers a part of it. -/
def ActiveRequest.refilled (active : ActiveRequest) (now timeoutTicks : ℕ) : ActiveRequest :=
  { active with
    retryBudget := active.retryBudget.reset
    timer := .arm now timeoutTicks
    retried := 0 }

section Ack

variable {ctx : QpContext MRS SQ RQ CQ} {others : Multiset (RegionLease MRS)}
  {active : ActiveRequest} {acked : ℕ}

theorem handleResponsePacket_ack {packet : PacketRef} (hack : IsAck packet)
    (hactive : ctx.qp.activeRequest = some active) (now ticksPerSecond : ℕ) :
    handleResponsePacket ctx packet now ticksPerSecond =
      handleAck ctx packet.bth.psn now ticksPerSecond := by
  obtain ⟨hop, aeth, credits, haeth, hclass⟩ := hack
  unfold handleResponsePacket handleAethResponse
  rw [hactive, hop]
  dsimp only
  rw [haeth]
  dsimp only
  rw [hclass]
  rfl

theorem WindowedAt.compare_sent (h : WindowedAt active ctx.qp.sendWindow ctx.qp.mtu acked)
    (hsent : active.transmittedPackets ≠ 0) {k : ℕ}
    (hk : k + 1 < active.transmittedPackets + 2 ^ 23) :
    (active.firstPsn.wrappingAdd k).compare
      (active.firstPsn.wrappingAdd (active.transmittedPackets - 1)) = .after ↔
      active.transmittedPackets ≤ k := by
  have hbound := h.bound
  have hmax : maxOutstandingPackets < 2 ^ 23 := by decide
  have hcount := h.sent
  unfold Psn.wrappingAdd
  rw [Psn.compare_newTruncated (by omega) (by omega)]
  constructor
  · intro hafter
    by_contra hlt
    split at hafter
    · cases hafter
    · rw [if_pos (by omega)] at hafter
      cases hafter
  · intro hle
    rw [if_neg (by omega), if_neg (by omega)]

/-- **An ACK of an outstanding packet.** -/
theorem handleAck_covered (h : WindowedAt active ctx.qp.sendWindow ctx.qp.mtu acked)
    (hcounted : Counted ctx.memory.refs (ctx.qp.leases + others)) (hb : Balanced ctx.qp)
    (hactive : ctx.qp.activeRequest = some active) (hkind : active.work.kind.isRead = false)
    {k : ℕ} (hle : acked ≤ k) (hlt : k < active.transmittedPackets) (now ticksPerSecond : ℕ) :
    let qp' := (handleAck ctx (active.firstPsn.wrappingAdd k) now ticksPerSecond).1.qp
    qp'.sendWindow = .ofPackets active.firstPsn (k + 1) active.packetCount ∧
      (k + 1 = active.packetCount →
        Finishes active .success active.work.sge.length.toNat ctx.qp qp') ∧
      (k + 1 ≠ active.packetCount →
        qp' = (ctx.qp.setWindow (.ofPackets active.firstPsn (k + 1) active.packetCount)).setActive
          (some (active.refilled now (timeoutOrMax ctx.qp.machine.config ticksPerSecond)))) := by
  have hbound := h.bound
  have hmax : maxOutstandingPackets < 2 ^ 23 := by decide
  have hcount := h.sent
  obtain ⟨packets, next, hadvanced⟩ :
      ∃ packets next, (SendWindow.ofPackets active.firstPsn acked active.packetCount).acknowledge
        (active.firstPsn.wrappingAdd k) =
          (.ofPackets active.firstPsn (k + 1) active.packetCount, .advanced packets next) :=
    SendWindow.acknowledge_ofPackets_mem hle (Nat.lt_of_lt_of_le hlt hcount) hbound
  have hsent : ¬(active.transmittedPackets = 0 ∨ (active.firstPsn.wrappingAdd k).compare
      (active.firstPsn.wrappingAdd (active.transmittedPackets - 1)) = .after) := by
    rw [h.compare_sent (by omega) (by omega)]
    omega
  have hlast : (SendWindow.ofPackets active.firstPsn (k + 1)
      active.packetCount).oldestUnacknowledged = active.lastPsn.next ↔
        k + 1 = active.packetCount := by
    rw [h.lastPsn_next, SendWindow.ofPackets, Psn.wrappingAdd, Psn.wrappingAdd,
      Psn.newTruncated_inj (by omega) (by omega)]
    omega
  unfold handleAck
  rw [hactive]
  dsimp only
  rw [if_neg (by rw [hkind]; decide), if_neg hsent, h.window_eq, hadvanced]
  dsimp only
  by_cases hall : k + 1 = active.packetCount
  · rw [if_pos (hlast.mpr hall)]
    have hwindow : (ctx.qp.setWindow (.ofPackets active.firstPsn (k + 1)
        active.packetCount)).activeRequest = some active := hactive
    have hcurrent : ((ctx.qp.setWindow (.ofPackets active.firstPsn (k + 1)
        active.packetCount)).setActive (some { active with
          retryBudget := active.retryBudget.reset, retried := 0 })).activeFinished .success
            active.work.sge.length.toNat =
        (ctx.qp.setWindow (.ofPackets active.firstPsn (k + 1) active.packetCount)).activeFinished
          .success active.work.sge.length.toNat :=
      QpTransport.activeFinished_setActive hwindow rfl
    obtain ⟨hqp, -⟩ := QpContext.finishActive_spec (ctx.setQp ((ctx.qp.setWindow
      (.ofPackets active.firstPsn (k + 1) active.packetCount)).setActive (some { active with
        retryBudget := active.retryBudget.reset, retried := 0 }))) hcounted .success
          active.work.sge.length.toNat
    rw [QpContext.setQp_qp, hcurrent] at hqp
    have hfinishes := finishes_activeFinished (show Balanced (ctx.qp.setWindow
      (.ofPackets active.firstPsn (k + 1) active.packetCount)) from ⟨hb.reserved, hb.room⟩)
        hwindow .success active.work.sge.length.toNat
    unfold completeActive
    dsimp only
    rw [hqp]
    refine ⟨?_, fun _ ↦ ⟨hfinishes.ended, hfinishes.retired, hfinishes.reported, hfinishes.alone⟩,
      fun hpart ↦ absurd hall hpart⟩
    unfold QpTransport.activeFinished
    rw [hwindow]
    rfl
  · rw [if_neg (fun hend ↦ hall (hlast.mp hend))]
    exact ⟨rfl, fun hend ↦ absurd hend hall, fun _ ↦ rfl⟩

/-- **An ACK of a packet that is acknowledged already**, however old it is within half of the
space. -/
theorem handleAck_duplicate (h : WindowedAt active ctx.qp.sendWindow ctx.qp.mtu acked)
    (hactive : ctx.qp.activeRequest = some active) (hkind : active.work.kind.isRead = false)
    (hsent : active.transmittedPackets ≠ 0) {psn : Psn} {k : ℕ} (hpos : 1 ≤ k)
    (hle : k + active.packetCount ≤ 2 ^ 23)
    (hpsn : psn.wrappingAdd k = ctx.qp.sendWindow.oldestUnacknowledged) (now ticksPerSecond : ℕ) :
    handleAck ctx psn now ticksPerSecond = (ctx, {}) := by
  have hcount := h.sent
  have hacked := h.acked_lt
  have hreached := h.reached hkind
  have hwindow := h.window_eq
  -- all indices are taken relative to that of the ACK
  obtain ⟨index, rfl⟩ : ∃ index, psn = .newTruncated index := ⟨_, psn.newTruncated_self.symm⟩
  rw [Psn.wrappingAdd_newTruncated] at hpsn
  have holdest : active.firstPsn.wrappingAdd acked = .newTruncated (index + k) :=
    (congrArg SendWindow.oldestUnacknowledged hwindow).symm.trans hpsn.symm
  have hfar := fun l ↦ Psn.wrappingAdd_eq_newTruncated holdest (l := l)
  have hwindow' : ctx.qp.sendWindow =
      .ofIndex (index + k) (index + k + active.packetCount - acked) := by
    rw [hwindow, SendWindow.ofPackets, SendWindow.ofIndex, holdest, hfar _ (by omega)]
  have hcompare : ¬(active.transmittedPackets = 0 ∨ (Psn.newTruncated index).compare
      (active.firstPsn.wrappingAdd (active.transmittedPackets - 1)) = .after) := by
    rintro (hzero | hafter)
    · exact hsent hzero
    · rw [hfar _ (by omega), Psn.compare_newTruncated (by omega) (by omega)] at hafter
      split at hafter
      · cases hafter
      · rw [if_pos (by omega)] at hafter
        cases hafter
  have hack : ctx.qp.sendWindow.acknowledge (.newTruncated index) =
      (ctx.qp.sendWindow, .duplicate) := by
    rw [hwindow']
    exact SendWindow.acknowledge_ofIndex_lt (by omega) (by omega)
  unfold handleAck
  rw [hactive]
  dsimp only
  rw [if_neg (by rw [hkind]; decide), if_neg hcompare, hack]
  rfl

/-- **An ACK of a packet that was not transmitted.** -/
theorem handleAck_unsent (h : WindowedAt active ctx.qp.sendWindow ctx.qp.mtu acked)
    (hcounted : Counted ctx.memory.refs (ctx.qp.leases + others)) (hb : Balanced ctx.qp)
    (hactive : ctx.qp.activeRequest = some active) (hkind : active.work.kind.isRead = false)
    (hsent : active.transmittedPackets ≠ 0) {j : ℕ} (hj : j ≤ 2 ^ 23 - 2)
    (now ticksPerSecond : ℕ) :
    let qp' := (handleAck ctx (active.firstPsn.wrappingAdd (active.transmittedPackets + j)) now
      ticksPerSecond).1.qp
    Finishes active .transportError 0 ctx.qp qp' ∧ qp'.machine.state = .error := by
  have hafter := (h.compare_sent hsent (k := active.transmittedPackets + j) (by omega)).mpr
    (Nat.le_add_right _ _)
  unfold handleAck
  rw [hactive]
  dsimp only
  rw [if_neg (by rw [hkind]; decide), if_pos (.inr hafter)]
  obtain ⟨copies, hqp, -⟩ : Rc.Ends (fun _ qp ↦
      qp = (ctx.qp.activeFinished .transportError 0).failed) ctx.memory others
        (failActiveAndError ctx .transportError).1 := ends_failActiveAndError rfl rfl hcounted
  unfold failActiveTransport failActiveAndEnterError
  dsimp only
  rw [hqp]
  exact ⟨finishes_failed hb hactive (by decide), rfl⟩

end Ack

/-- **Cumulative ACK processing is exact.**  `acked` of the transmitted packets of a SEND or WRITE
are acknowledged.  An ACK of a later transmitted packet moves the window behind it and refills the
retry budget, and completes the request exactly when the packet is the last one; an ACK of an
earlier packet changes nothing; an ACK of a packet that was not transmitted fails the request. -/
theorem cumulative_ack_exact {ep : RcEndpoint QPS MRS SQ RQ CQ IDX} (h : ep.Reachable)
    {i : Fin QPS} {slot : RcQpSlot MRS SQ RQ CQ} (hslot : ep.qps i = some slot)
    {active : ActiveRequest} (hactive : slot.activeRequest = some active)
    (hkind : active.work.kind.isRead = false) (hsent : 1 ≤ active.transmittedPackets)
    {packet : PacketRef} (hack : IsAck packet) (now ticksPerSecond : ℕ) :
    let outcome := handleResponsePacket (ep.context slot) packet now ticksPerSecond
    let qp' := outcome.1.qp
    ∃ acked ≤ active.transmittedPackets,
      slot.sendWindow.oldestUnacknowledged = active.firstPsn.wrappingAdd acked ∧
      (∀ k, acked ≤ k → k < active.transmittedPackets →
        packet.bth.psn = active.firstPsn.wrappingAdd k →
        qp'.sendWindow = ⟨packet.bth.psn.next, slot.sendWindow.nextToSend⟩ ∧
        (Finishes active .success active.work.sge.length.toNat slot.toQpTransport qp' ↔
          packet.bth.psn = active.lastPsn) ∧
        (packet.bth.psn ≠ active.lastPsn → qp'.activeRequest =
          some (active.refilled now (timeoutOrMax slot.machine.config ticksPerSecond)))) ∧
      (∀ k, 1 ≤ k → k ≤ 2 ^ 23 - active.packetCount →
        packet.bth.psn.wrappingAdd k = slot.sendWindow.oldestUnacknowledged →
        outcome = (ep.context slot, {})) ∧
      ∀ j ≤ 2 ^ 23 - 2,
        packet.bth.psn = active.firstPsn.wrappingAdd (active.transmittedPackets + j) →
        Finishes active .transportError 0 slot.toQpTransport qp' ∧ qp'.machine.state = .error := by
  obtain ⟨acked, hwindow⟩ := h.windowed hslot hactive
  have hcounted := (h.here fun _ ↦ True).counted hslot
  have hb : Balanced slot.toQpTransport := (h.inv.qp i _ (Holds.engine_qps hslot)).balanced
  have hwindow' : WindowedAt active (ep.context slot).qp.sendWindow (ep.context slot).qp.mtu
      acked := hwindow
  have hbound := hwindow.bound
  have hmax : maxOutstandingPackets < 2 ^ 23 := by decide
  dsimp only
  rw [handleResponsePacket_ack hack hactive]
  refine ⟨acked, hwindow.reached hkind, by rw [hwindow.window_eq]; rfl, ?_, ?_, ?_⟩
  · intro k hle hlt hpsn
    have hsentLe := hwindow.sent
    obtain ⟨hadvanced, hall, hpart⟩ :=
      handleAck_covered hwindow' hcounted hb hactive hkind hle hlt now ticksPerSecond
    have hlast : packet.bth.psn = active.lastPsn ↔ k + 1 = active.packetCount := by
      rw [hpsn, hwindow.last, Psn.wrappingAdd, Psn.wrappingAdd,
        Psn.newTruncated_inj (by omega) (by omega)]
      omega
    rw [hpsn] at hlast ⊢
    refine ⟨?_, ⟨fun hfinishes ↦ ?_, fun heq ↦ hall (hlast.mp heq)⟩, fun hne ↦ ?_⟩
    · rw [hadvanced, hwindow.window_eq, Psn.next_wrappingAdd]
      rfl
    · by_contra hne
      have hended := hfinishes.ended
      rw [hpart fun heq ↦ hne (hlast.mpr heq)] at hended
      cases hended
    · rw [hpart fun heq ↦ hne (hlast.mpr heq)]
      rfl
  · intro k hpos hle hpsn
    exact handleAck_duplicate hwindow' hactive hkind (by omega) hpos (by omega) hpsn now
      ticksPerSecond
  · intro j hj hpsn
    rw [hpsn]
    exact handleAck_unsent hwindow' hcounted hb hactive hkind (by omega) hj now ticksPerSecond

/-- A SEND of three packets, of which two are transmitted. -/
def twoSent : List Op :=
  Sample.sendStarted ++ [Sample.polls 0 true]

def ackOfThird : PacketRef :=
  ⟨Bth.new .acknowledge 2 (.newTruncated 2), none, some (.ack 1), [], .refl false, .refl true,
    fun _ ↦ rfl⟩

theorem cumulative_ack_exact_unsent : ∃ slot active,
    (Sample.single.steps twoSent).qps 0 = some slot ∧ slot.activeRequest = some active ∧
      Finishes active .transportError 0 slot.toQpTransport (handleResponsePacket
        ((Sample.single.steps twoSent).context slot) ackOfThird 0 1000).1.qp := by
  have hlive : ((Sample.single.steps twoSent).qps 0).bind (fun slot ↦
      slot.activeRequest.map fun active ↦ (active.work.kind.isRead,
        active.transmittedPackets, active.firstPsn)) = some (false, 2, .zero) := by
    decide +kernel
  obtain ⟨slot, hslot, hmap⟩ := Option.bind_eq_some_iff.mp hlive
  obtain ⟨active, hactive, heq⟩ := Option.map_eq_some_iff.mp hmap
  simp only [Prod.mk.injEq] at heq
  obtain ⟨hkind, hsent, hfirst⟩ := heq
  obtain ⟨-, -, -, -, -, hunsent⟩ := cumulative_ack_exact (Sample.single_reachable twoSent) hslot
    hactive hkind (by rw [hsent]; decide)
    (show IsAck ackOfThird from ⟨rfl, _, _, rfl, rfl⟩) 0 1000
  refine ⟨slot, active, hslot, hactive, (hunsent 0 (Nat.zero_le _) ?_).1⟩
  rw [hsent, hfirst]
  rfl

end Rocev2.Rc
