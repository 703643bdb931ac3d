import Rocev2.Rc.RequesterStep

/-!
# The send window of the active request

While a request is active, the send window spans exactly its packets: the window ends behind the
last one, and starts at the first one that has not been acknowledged.  A queue pair without an
active request that has not failed has an empty window, so the next request can always reserve its
PSNs.  `Windowed` says this of an active request, together with the bounds of its counters, and
`RequesterStep.spans` proves that every step keeps it.
-/

namespace Rocev2.Rc

open Rocev2.Core

/-- The window and the counters of an active request of which `acked` packets are acknowledged. -/
structure WindowedAt (active : ActiveRequest) (window : SendWindow) (mtu acked : ℕ) : Prop where
  count : active.packetCount = packetCount active.work.sge.length mtu
  last : active.lastPsn = active.firstPsn.wrappingAdd (active.packetCount - 1)
  bound : active.packetCount ≤ maxOutstandingPackets
  window_eq : window = .ofPackets active.firstPsn acked active.packetCount
  acked_lt : acked < active.packetCount
  /-- A READ counts its responses from the start again after a retry. -/
  received : active.readPacketsReceived ≤ acked
  /-- Only transmitted packets are acknowledged; a READ transmits one packet only. -/
  reached : active.work.kind.isRead = false → acked ≤ active.transmittedPackets
  next : active.nextPacket ≤ active.transmittedPackets
  sent : active.transmittedPackets ≤ active.packetCount
  sending : active.phase = .sending → active.nextPacket < active.packetCount
  /-- The request of a READ is a single packet. -/
  single : active.work.kind.isRead = true → active.nextPacket = 0

def Windowed (active : ActiveRequest) (window : SendWindow) (mtu : ℕ) : Prop :=
  ∃ acked, WindowedAt active window mtu acked

def Requester.Spans (r : Requester) : Prop :=
  match r.active with
  | none => r.state ≠ .error → r.window.oldestUnacknowledged = r.window.nextToSend
  | some active => Windowed active r.window r.config.pathMtu.bytes

theorem Requester.Spans.windowed {r : Requester} (h : r.Spans) {active : ActiveRequest}
    (hactive : r.active = some active) : Windowed active r.window r.config.pathMtu.bytes := by
  unfold Requester.Spans at h
  rw [hactive] at h
  exact h

namespace WindowedAt

variable {active : ActiveRequest} {window window' : SendWindow} {mtu acked : ℕ}

theorem start {work : WorkRequest} {first : Psn} {policy : RetryPolicy}
    (hempty : window.oldestUnacknowledged = window.nextToSend)
    (hreserve : window.reserveMany (packetCount work.sge.length mtu) = (window', some first)) :
    WindowedAt (.start work first (packetCount work.sge.length mtu) policy) window' mtu 0 := by
  obtain ⟨rfl, hpos, hbound⟩ := SendWindow.of_reserveMany hempty hreserve
  exact ⟨rfl, rfl, hbound, rfl, hpos, Nat.zero_le _, fun _ ↦ Nat.zero_le _, Nat.zero_le _,
    Nat.zero_le _, fun _ ↦ hpos, fun _ ↦ rfl⟩

theorem packetSent (h : WindowedAt active window mtu acked) (hphase : active.phase = .sending)
    (now timeoutTicks : ℕ) : WindowedAt (active.packetSent now timeoutTicks) window mtu acked := by
  obtain ⟨hcount, hlast, hbound, hwindow, hacked, hreceived, hreached, hnext, hsent, hsending,
    hsingle⟩ := h
  have hlt := hsending hphase
  unfold ActiveRequest.packetSent
  split
  · refine ⟨hcount, hlast, hbound, hwindow, hacked, hreceived, ?_, ?_, ?_, nofun, hsingle⟩
    · exact fun hkind ↦ (hreached hkind).trans (Nat.le_max_left _ _)
    · exact hnext.trans (Nat.le_max_left _ _)
    · exact Nat.max_le.mpr ⟨hsent, Nat.zero_lt_of_lt hacked⟩
  all_goals
    rename_i hwork
    have hkind : active.work.kind.isRead = false := by rw [hwork]; rfl
    have hnone : active.work.kind.isRead = true → active.nextPacket + 1 = 0 :=
      fun hread ↦ nomatch hkind.symm.trans hread
    dsimp only
    split
    · refine ⟨hcount, hlast, hbound, hwindow, hacked, hreceived, ?_, ?_, ?_, nofun, hnone⟩
      · exact fun hkind ↦ (hreached hkind).trans (Nat.le_max_left _ _)
      · exact Nat.le_max_right _ _
      · exact Nat.max_le.mpr ⟨hsent, hlt⟩
    · rename_i hpart
      refine ⟨hcount, hlast, hbound, hwindow, hacked, hreceived, ?_, ?_, ?_, fun _ ↦ ?_, hnone⟩
      · exact fun hkind ↦ (hreached hkind).trans (Nat.le_max_left _ _)
      · exact Nat.le_max_right _ _
      · exact Nat.max_le.mpr ⟨hsent, hlt⟩
      · exact Nat.lt_of_le_of_ne hlt hpart

theorem resetForRetry (h : WindowedAt active window mtu acked) :
    WindowedAt active.resetForRetry window mtu acked :=
  ⟨h.count, h.last, h.bound, h.window_eq, h.acked_lt, Nat.zero_le _, h.reached, Nat.zero_le _,
    h.sent, fun _ ↦ Nat.zero_lt_of_lt h.acked_lt, fun _ ↦ rfl⟩

/-- An ACK that does not cover the whole request. -/
theorem acked_part {psn next : Psn} {packets : ℕ} (h : WindowedAt active window mtu acked)
    (hsent : active.transmittedPackets ≠ 0)
    (hpsn : psn.compare (active.firstPsn.wrappingAdd (active.transmittedPackets - 1)) ≠ .after)
    (hack : window.acknowledge psn = (window', .advanced packets next)) :
    ∃ k, acked ≤ k ∧ k < active.transmittedPackets ∧ k < active.packetCount ∧
      psn = active.firstPsn.wrappingAdd k ∧
      window' = .ofPackets active.firstPsn (k + 1) active.packetCount := by
  rw [h.window_eq] at hack
  obtain ⟨k, hle, hlt, rfl, hwindow⟩ :=
    SendWindow.exists_of_acknowledge_advanced (Nat.le_of_lt h.acked_lt) hack
  refine ⟨k, hle, ?_, hlt, rfl, hwindow⟩
  by_contra hge
  -- a packet behind the last transmitted one compares after it
  obtain ⟨d, hd⟩ := Nat.exists_eq_add_of_le (Nat.le_of_not_lt hge)
  have hbound := h.bound
  have hmax : maxOutstandingPackets < 2 ^ 23 := by decide
  have hsplit : active.firstPsn.wrappingAdd k =
      (active.firstPsn.wrappingAdd (active.transmittedPackets - 1)).wrappingAdd (d + 1) := by
    rw [Psn.wrappingAdd_wrappingAdd]
    congr 1
    omega
  refine hpsn ?_
  rw [hsplit, Psn.compare_wrappingAdd _ (by omega), if_neg (by omega), if_neg (by omega)]

theorem lastPsn_next (h : WindowedAt active window mtu acked) :
    active.lastPsn.next = active.firstPsn.wrappingAdd active.packetCount := by
  rw [h.last, Psn.next_wrappingAdd, Nat.sub_add_cancel (Nat.zero_lt_of_lt h.acked_lt)]

/-- Where a READ response leaves the window: a repeated one leaves it alone, the next one advances
it by one packet. -/
theorem acknowledge_read (h : WindowedAt active window mtu acked) :
    (window.acknowledge (active.firstPsn.wrappingAdd active.readPacketsReceived)).1 =
      .ofPackets active.firstPsn (max acked (active.readPacketsReceived + 1))
        active.packetCount := by
  rw [h.window_eq]
  rcases Nat.lt_or_eq_of_le h.received with hlt | heq
  · rw [SendWindow.acknowledge_ofPackets_lt hlt (Nat.le_of_lt h.acked_lt) h.bound,
      Nat.max_eq_left hlt]
  · obtain ⟨packets, next, hack⟩ :
        ∃ packets next, (SendWindow.ofPackets active.firstPsn acked active.packetCount).acknowledge
          (active.firstPsn.wrappingAdd active.readPacketsReceived) =
            (_, .advanced packets next) :=
      SendWindow.acknowledge_ofPackets_mem (Nat.le_of_eq heq.symm) (heq ▸ h.acked_lt) h.bound
    rw [hack, Nat.max_eq_right (by omega)]

end WindowedAt

/-- **Every step of the requester keeps the window.** -/
theorem RequesterStep.spans {r r' : Requester} {event : QpEvent} (h : RequesterStep r event r')
    (hspans : r.Spans) : r'.Spans := by
  have hidle : r.active = none → r.state ≠ .error →
      r.window.oldestUnacknowledged = r.window.nextToSend := by
    intro heq
    unfold Requester.Spans at hspans
    rw [heq] at hspans
    exact hspans
  cases h with
  | keep => exact hspans
  | start hnone hready hreserve hpolicy =>
    refine ⟨0, WindowedAt.start (hidle hnone ?_) hreserve⟩
    rw [hready]
    decide
  | sent now timeoutTicks hsome hphase =>
    obtain ⟨acked, hwindow⟩ := hspans.windowed hsome
    exact ⟨acked, hwindow.packetSent hphase now timeoutTicks⟩
  | stop | exhausted => exact fun herror ↦ absurd rfl herror
  | retried hsome hcharges hbudget =>
    obtain ⟨acked, hwindow⟩ := hspans.windowed hsome
    exact ⟨acked, hwindow.count, hwindow.last, hwindow.bound, hwindow.window_eq, hwindow.acked_lt,
      Nat.zero_le _, hwindow.reached, Nat.zero_le _, hwindow.sent,
      fun _ ↦ Nat.zero_lt_of_lt hwindow.acked_lt, fun _ ↦ rfl⟩
  | delayed hsome haeth hclass hbudget =>
    obtain ⟨acked, hwindow⟩ := hspans.windowed hsome
    exact ⟨acked, hwindow.count, hwindow.last, hwindow.bound, hwindow.window_eq, hwindow.acked_lt,
      hwindow.received, hwindow.reached, hwindow.next, hwindow.sent, nofun, hwindow.single⟩
  | @acked active _ _ _ _ _ _ hsome hacks hack hpart =>
    obtain ⟨acked, hwindow⟩ := hspans.windowed hsome
    obtain ⟨k, hle, hreached, hlt, -, rfl⟩ := hwindow.acked_part hacks.sent hacks.psn hack
    have hmore : k + 1 ≠ active.packetCount := by
      intro heq
      refine hpart ?_
      rw [hwindow.lastPsn_next, ← heq]
      rfl
    exact ⟨k + 1, hwindow.count, hwindow.last, hwindow.bound, rfl, Nat.lt_of_le_of_ne hlt hmore,
      hwindow.received.trans (by omega), fun _ ↦ hreached, hwindow.next, hwindow.sent,
      hwindow.sending, hwindow.single⟩
  | ackCompleted hsome hacks hack hall =>
    obtain ⟨acked, hwindow⟩ := hspans.windowed hsome
    obtain ⟨k, hle, hreached, hlt, -, rfl⟩ := hwindow.acked_part hacks.sent hacks.psn hack
    intro _
    exact hall.trans hwindow.lastPsn_next
  | @read active _ _ _ _ hsome hanswers hpart =>
    obtain ⟨acked, hwindow⟩ := hspans.windowed hsome
    have hnew := hwindow.acknowledge_read
    rw [← hanswers.psn] at hnew
    have hmore : max acked (active.readPacketsReceived + 1) < active.packetCount := by
      have hreceived := hwindow.received
      have hlt := hwindow.acked_lt
      omega
    exact ⟨_, hwindow.count, hwindow.last, hwindow.bound, hnew, hmore, Nat.le_max_right _ _,
      fun hsend ↦ (nomatch hanswers.kind.symm.trans hsend), hwindow.next, hwindow.sent,
      hwindow.sending, hwindow.single⟩
  | readCompleted hsome hanswers hall =>
    obtain ⟨acked, hwindow⟩ := hspans.windowed hsome
    have hnew := hwindow.acknowledge_read
    have hlt := hwindow.acked_lt
    rw [← hanswers.psn, hall, Nat.max_eq_right (Nat.le_of_lt hlt)] at hnew
    intro _
    change (r.window.acknowledge _).1.oldestUnacknowledged = (r.window.acknowledge _).1.nextToSend
    rw [hnew]
    rfl
  | resume hsome hphase harmed hdue =>
    obtain ⟨acked, hwindow⟩ := hspans.windowed hsome
    exact ⟨acked, hwindow.resetForRetry⟩
  | @move destination hlegal herror hreset =>
    have hstate : r.state ≠ .error := by
      intro heq
      rw [heq] at hlegal
      cases destination <;> simp_all [isLegalTransition]
    unfold Requester.Spans at hspans ⊢
    dsimp only
    split at hspans
    · exact fun _ ↦ hspans hstate
    · exact hspans
  | restart config => exact fun _ ↦ rfl

end Rocev2.Rc
