import Rocev2.Core.TimerHeap.Container
import Rocev2.Lib.Loop
import Rocev2.Rc.Loops
import Rocev2.Rc.Resources

/-!
# Termination of a progress call

The loops over the ready queues end because a slot that is taken and yields no packet is not
runnable, and so is not put back: a queue pair that is ready to send and has no active request has
an empty send window, and the head of its send queue can be started.  This needs `Operable`, the
part of the engine's invariant that concerns one queue pair.

The loop over the timers ends because every entry of a coherent timer heap belongs to a request that
waits, and the request that is tried again, or given up, has no deadline.
-/

namespace Rocev2.Rc

open Rocev2.Core Rocev2.Memory Rocev2.Lib

variable {QPS MRS SQ RQ CQ IDX : ℕ} {qp : QpTransport MRS SQ RQ CQ}

theorem RetryEffect.timerDeadline {qp' : QpTransport MRS SQ RQ CQ} (h : RetryEffect qp qp') :
    qp'.timerDeadline = none := by
  cases h with
  | idle hactive => rw [QpTransport.timerDeadline, hactive]
  | retried => rfl
  | exhausted => rfl

/-! ## Slots that are not put back -/

/-- **The requester of a queue pair can be served.** -/
structure Operable (memory : MemoryRegistry MRS) (qp : QpTransport MRS SQ RQ CQ) : Prop where
  inv : QpInv qp
  granted : Granted memory qp
  spans : qp.requester.Spans

namespace Operable

variable {memory : MemoryRegistry MRS} {qp : QpTransport MRS SQ RQ CQ}

theorem start (h : Operable memory qp) (ticksPerSecond : ℕ) :
    Operable memory (startNextRequest qp ticksPerSecond) := by
  have hstep : QpStep memory qp (.start ticksPerSecond) [] (startNextRequest qp ticksPerSecond)
      none := .start (startNextRequest_effect h.inv.config ticksPerSecond)
  exact ⟨hstep.inv h.inv, hstep.granted h.inv.tidy h.granted, hstep.requester.spans h.spans⟩

/-- **A queue pair without an active request has an empty send window**, unless it has failed. -/
theorem window_empty (h : Operable memory qp) (hactive : qp.activeRequest = none)
    (hstate : qp.machine.state ≠ .error) :
    qp.sendWindow.oldestUnacknowledged = qp.sendWindow.nextToSend := by
  have hspans := h.spans
  unfold Requester.Spans at hspans
  rw [show qp.requester.active = none from hactive] at hspans
  exact hspans hstate

end Operable

theorem startNextRequest_of_not_runnable (h : qp.requesterIsRunnable = false) (ticksPerSecond : ℕ) :
    startNextRequest qp ticksPerSecond = qp := by
  unfold startNextRequest
  split
  · rfl
  rename_i hidle
  obtain ⟨hactive, hready⟩ := not_or.mp hidle
  split
  · rfl
  rename_i front hfront
  exfalso
  have hnone : qp.activeRequest = none := by simpa using hactive
  unfold QpTransport.requesterIsRunnable at h
  rw [hnone] at h
  have hqueue : qp.sendQueue.items = [] := by simpa [hready, Ring.isEmpty] using h
  rw [Ring.front, hqueue] at hfront
  cases hfront

namespace RcEndpoint

variable {entry : TimerEntry} {timers : TimerScheduler QPS}

/-- All queue pairs can be served. -/
def AllOperable (ep : RcEndpoint QPS MRS SQ RQ CQ IDX) : Prop :=
  ∀ index slot, ep.qps index = some slot → Operable ep.memory slot.toQpTransport

variable {ep ep' : RcEndpoint QPS MRS SQ RQ CQ IDX} {index : Fin QPS}

theorem AllOperable.congr (h : ep.AllOperable) (hmemory : ep'.memory = ep.memory)
    (hqps : ∀ i, (ep'.qps i).map (fun slot ↦ slot.toQpTransport) =
      (ep.qps i).map fun slot ↦ slot.toQpTransport) : ep'.AllOperable := by
  intro i slot hslot
  have hi := hqps i
  rw [hslot] at hi
  obtain ⟨slot', hslot', heq⟩ := Option.map_eq_some_iff.mp hi.symm
  have hsame : slot'.toQpTransport = slot.toQpTransport := heq
  rw [hmemory, ← hsame]
  exact h i slot' hslot'

theorem AllOperable.synchronizeQp (h : ep.AllOperable) (index : Fin QPS) :
    (ep.synchronizeQp index).AllOperable := by
  refine h.congr (frame_synchronizeQp ep index).2.1 fun i ↦ ?_
  have hsame := congrArg (Option.map Prod.fst) (qps_synchronizeQp ep index i)
  rwa [Option.map_map, Option.map_map] at hsame

/-- A slot that is written back as it was taken. -/
theorem AllOperable.update (h : ep.AllOperable) {slot slot' : RcQpSlot MRS SQ RQ CQ}
    (hslot : ep.qps index = some slot) (hsame : slot'.toQpTransport = slot.toQpTransport)
    (hmemory : ep'.memory = ep.memory)
    (hqps : ep'.qps = Function.update ep.qps index (some slot')) : ep'.AllOperable := by
  refine h.congr hmemory fun i ↦ ?_
  rw [hqps]
  by_cases hi : i = index
  · subst hi
    rw [Function.update_self, hslot]
    exact congrArg some hsame
  · rw [Function.update_of_ne hi]

/-- A slot that is taken and is not runnable leaves the queue. -/
theorem AllOperable.skip (kind : DataTxClass) {queue : ReadyQueue QPS} (h : ep'.AllOperable)
    (hpop : (ep.ready kind).pop = some (index, queue)) (hqueue : ep'.ready kind = queue)
    (hidle : (ep'.qps index).any (fun slot ↦ slot.isRunnable kind) = false) :
    (ep'.synchronizeQp index).AllOperable ∧
      ((ep'.synchronizeQp index).ready kind).len < (ep.ready kind).len := by
  refine ⟨h.synchronizeQp index, ?_⟩
  rw [ready_synchronizeQp, hidle, hqueue, ReadyQueue.len_of_pop hpop]
  exact Nat.lt_succ_of_le List.length_erase_le

section Requester

variable {ρ : Type} {exit : RcEndpoint QPS MRS SQ RQ CQ IDX → ℕ → ρ}
  {late : RcEndpoint QPS MRS SQ RQ CQ IDX → ρ}
  {send : RcEndpoint QPS MRS SQ RQ CQ IDX → Fin QPS → RcQpSlot MRS SQ RQ CQ → ActiveRequest →
    ℕ → ℕ → ρ ⊕ RcEndpoint QPS MRS SQ RQ CQ IDX × ℕ}

variable (hsend : ∀ (ep : RcEndpoint QPS MRS SQ RQ CQ IDX) index slot active timeoutTicks generated,
  Operable ep.memory slot.toQpTransport → slot.activeRequest = some active →
  active.phase = .sending → ∀ t, send ep index slot active timeoutTicks generated ≠ .inr t)

include hsend

/-- **An iteration of a requester loop that does not return drops a slot that is not runnable.** -/
theorem requesterBody_continues
    (s t : RcEndpoint QPS MRS SQ RQ CQ IDX × ℕ) (hs : s.1.AllOperable)
    (h : requesterBody exit late send s = .inr t) :
    t.1.AllOperable ∧ t.1.requesterReady.len < s.1.requesterReady.len := by
  obtain ⟨ep, generated⟩ := s
  unfold requesterBody at h
  dsimp only at h
  split at h
  · cases h
  rename_i index queue hpop
  split at h
  · cases h
    refine ⟨hs, ?_⟩
    rw [ReadyQueue.len_of_pop hpop]
    exact Nat.lt_succ_self _
  rename_i slot hslot
  have hoperable : Operable ep.memory slot.toQpTransport := hs index slot hslot
  cases hrunnable : slot.requesterIsRunnable with
  | true =>
    -- A runnable slot has a packet to send.
    obtain ⟨active, hactive, hphase⟩ := exists_sending_of_runnable hoperable.inv.config
      hoperable.granted.toRequesterGranted hoperable.spans hrunnable ep.config.ticksPerSecond
    have hactive' : (slot.requesting ep.config.ticksPerSecond).activeRequest = some active :=
      hactive
    split at h
    · rename_i hnone
      cases hactive'.symm.trans hnone
    rename_i request hrequest
    cases hactive'.symm.trans hrequest
    rw [if_neg (not_not.mpr hphase)] at h
    split at h
    · cases h
    · exact absurd h (hsend _ _ _ _ _ _ (hoperable.start _) hactive' hphase _)
  | false =>
    have hsame : (slot.requesting ep.config.ticksPerSecond).toQpTransport = slot.toQpTransport :=
      startNextRequest_of_not_runnable hrunnable _
    have hskipped : ∀ base : RcEndpoint QPS MRS SQ RQ CQ IDX, base.memory = ep.memory →
        base.requesterReady = queue →
        base.qps = Function.update ep.qps index (some (slot.requesting ep.config.ticksPerSecond)) →
        (base.synchronizeQp index).AllOperable ∧
          (base.synchronizeQp index).requesterReady.len < ep.requesterReady.len := by
      intro base hmemory hqueue hqps
      refine (hs.update hslot hsame hmemory hqps).skip .requester hpop hqueue ?_
      rw [hqps, Function.update_self]
      change (slot.requesting ep.config.ticksPerSecond).toQpTransport.requesterIsRunnable = false
      rw [hsame, hrunnable]
    split at h
    · cases h
      exact hskipped _ rfl rfl rfl
    rename_i active hactive
    split at h
    · cases h
      exact hskipped _ rfl rfl rfl
    · rename_i hphase
      have hactive' : slot.activeRequest = some active := hsame ▸ hactive
      rw [QpTransport.requesterIsRunnable, hactive'] at hrunnable
      exact absurd (not_not.mp hphase) (of_decide_eq_false hrunnable)

theorem requesterLoop_terminates (h : ep.AllOperable)
    (loop : ℕ → RcEndpoint QPS MRS SQ RQ CQ IDX × ℕ → ρ)
    (hzero : ∀ s, loop 0 s = exit s.1 s.2)
    (hsucc : ∀ fuel s, loop (fuel + 1) s = (requesterBody exit late send s).elim id (loop fuel)) :
    Loop.Terminates (requesterBody exit late send) (fun s ↦ s.1.requesterReady.len) (ep, 0)
      (loop ep.requesterReady.len (ep, 0)) := by
  refine Loop.Terminates.of_fuel loop (fun s ↦ s.1.AllOperable) (fun s _ hempty ↦ ?_) hsucc
    (requesterBody_continues hsend) (s := (ep, 0)) h le_rfl
  obtain ⟨ep, generated⟩ := s
  rw [hzero, requesterBody]
  dsimp only
  rw [ReadyQueue.pop_eq_none.mpr (List.length_eq_zero_iff.mp hempty)]

end Requester

/-- **An iteration of `dequeue_read_response` that does not return drops a slot that is not
runnable.** -/
theorem dequeueBody_continues (hs : ep.AllOperable) (h : dequeueBody ep = .inr ep') :
    ep'.AllOperable ∧ ep'.responderReady.len < ep.responderReady.len := by
  unfold dequeueBody at h
  split at h
  · cases h
  rename_i index queue hpop
  dsimp only at h
  split at h
  · rename_i hnone
    cases h
    refine AllOperable.skip .responder hs hpop rfl ?_
    change (ep.qps index).any _ = false
    rw [show ep.qps index = none from hnone]
    rfl
  rename_i slot hslot
  split at h
  · cases h
  · rename_i hnot
    cases h
    have hsame : slot.responding.toQpTransport = slot.toQpTransport := rfl
    refine AllOperable.skip .responder (AllOperable.update hs hslot hsame rfl rfl) hpop rfl ?_
    change (Function.update ep.qps index (some slot.responding) index).any _ = false
    rw [Function.update_self]
    change slot.responding.responderIsRunnable = false
    -- A runnable responder has a READ to answer.
    cases hrunnable : slot.responding.responderIsRunnable with
    | false => rfl
    | true =>
      obtain ⟨response, hresponse⟩ :=
        Option.isSome_iff_exists.mp (Bool.and_eq_true_iff.mp hrunnable).2
      exact (hnot response hresponse hrunnable).elim

/-- What `dequeue_read_response` finds belongs to a live slot. -/
theorem dequeueReadResponse_found {fuel : ℕ} {ready : ReadyReadResponse QPS} (hs : ep.AllOperable)
    (h : dequeueReadResponse fuel ep = (ep', some ready)) :
    ∃ qp : QpTransport MRS SQ RQ CQ, Operable ep'.memory qp ∧
      qp.readResponse = some ready.response ∧ qp.mtu = ready.mtu := by
  induction fuel generalizing ep with
  | zero => cases h
  | succ fuel ih =>
    rw [dequeueReadResponse_succ] at h
    cases hbody : dequeueBody ep with
    | inr next =>
      rw [hbody] at h
      exact ih (dequeueBody_continues hs hbody).1 h
    | inl result =>
      rw [hbody] at h
      cases (show result = (ep', some ready) from h)
      unfold dequeueBody at hbody
      split at hbody
      · cases hbody
      rename_i index queue hpop
      dsimp only at hbody
      split at hbody
      · cases hbody
      rename_i slot hslot
      split at hbody
      · rename_i response hresponse _
        cases hbody
        exact ⟨slot.toQpTransport, hs index slot hslot, hresponse, rfl⟩
      · cases hbody

/-- **`prepare_read_response_batch` returns after one iteration.** -/
theorem prepareReadResponseBody_continues (nextClass : DataTxClass)
    (s t : RcEndpoint QPS MRS SQ RQ CQ IDX × ℕ) (hs : s.1.AllOperable) :
    prepareReadResponseBody nextClass s ≠ .inr t := by
  obtain ⟨ep, generated⟩ := s
  unfold prepareReadResponseBody
  dsimp only
  split
  · nofun
  rename_i ep' ready hdequeue
  obtain ⟨qp, hoperable, hresponse, hmtu⟩ := dequeueReadResponse_found hs hdequeue
  obtain ⟨address, length, hsegment, -, hvalid, -⟩ :=
    exists_readResponseSegment hoperable.granted.toResponderGranted hresponse
  rw [← hmtu, hsegment]
  dsimp only
  rw [hvalid]
  nofun

/-! ## Expired timers -/

def expiredTimers (ep : RcEndpoint QPS MRS SQ RQ CQ IDX) (now : ℕ) : Finset (Fin QPS) :=
  Finset.univ.filter fun i ↦ (ep.timerScheduler.get i).any (fun entry ↦ entry.deadline ≤ now) = true

theorem mem_expiredTimers {now : ℕ} {i : Fin QPS} :
    i ∈ ep.expiredTimers now ↔ ∃ entry, ep.timerScheduler.get i = some entry ∧
      entry.deadline ≤ now := by
  simp [expiredTimers, Option.any_eq_true]

theorem card_expiredTimers_le (now : ℕ) : (ep.expiredTimers now).card ≤ ep.timerScheduler.len := by
  have hsubset : ep.expiredTimers now ⊆
      ((List.finRange QPS).filter fun i ↦ (ep.timerScheduler.entries i).isSome).toFinset := by
    intro i hi
    obtain ⟨entry, hentry, -⟩ := mem_expiredTimers.mp hi
    rw [List.mem_toFinset, List.mem_filter]
    exact ⟨List.mem_finRange i, Option.isSome_iff_exists.mpr ⟨entry, hentry⟩⟩
  unfold TimerScheduler.len
  rw [List.countP_eq_length_filter]
  exact (Finset.card_le_card hsubset).trans (List.toFinset_card_le _)

theorem get_of_popExpired {now : ℕ}
    (h : ep.timerScheduler.popExpired now = some (index, entry, timers)) :
    ep.timerScheduler.get index = some entry ∧ entry.deadline ≤ now := by
  have hleast := ep.timerScheduler.leastAmong_peek
  unfold TimerScheduler.popExpired at h
  split at h
  · rename_i hpeek
    rw [hpeek] at hleast
    split at h
    · rename_i hdue
      cases h
      exact ⟨hleast.1, hdue⟩
    · cases h
  · cases h

variable {allowed : EngineEvent QPS → Prop} {start : Engine QPS MRS SQ RQ CQ}
  {books : Books QPS MRS SQ RQ CQ} {now : ℕ}

/-- **An entry of a coherent timer heap is current**: it belongs to a request that waits. -/
theorem exists_timerAction (h : Holds allowed start books ∅ ep)
    (hpop : ep.timerScheduler.popExpired now = some (index, entry, timers)) :
    ∃ slot active, RcEndpoint.timerAction { ep with timerScheduler := timers } index entry now =
      some (slot, active) := by
  obtain ⟨hget, hdue⟩ := get_of_popExpired hpop
  have hcoherent : ep.timerScheduler.get index = (ep.qps index).bind (timerEntry index) :=
    h.coherent .timer index (Set.notMem_empty _)
  rw [hget] at hcoherent
  obtain ⟨slot, hslot, hentry⟩ := Option.bind_eq_some_iff.mp hcoherent.symm
  obtain ⟨deadline, hdeadline, rfl⟩ := Option.map_eq_some_iff.mp hentry
  have hwaits : ∃ active, slot.activeRequest = some active ∧
      active.timer.deadline = some deadline := by
    unfold QpTransport.timerDeadline at hdeadline
    split at hdeadline
    · cases hdeadline
    rename_i active hactive
    refine ⟨active, hactive, ?_⟩
    split at hdeadline
    · exact hdeadline
    · exact hdeadline
    · cases hdeadline
  obtain ⟨active, hactive, harmed⟩ := hwaits
  refine ⟨slot, active, ?_⟩
  unfold RcEndpoint.timerAction
  dsimp only at hdue ⊢
  rw [hslot]
  dsimp only
  rw [if_neg (by simp), hactive]
  dsimp only
  rw [if_neg]
  simp [hdeadline, Timer.expired, harmed, hdue]

theorem timerDeadline_expireTimer {dirty : Set (Component × Fin QPS)}
    (h : Holds allowed start books dirty ep) {slot : RcQpSlot MRS SQ RQ CQ} {active : ActiveRequest}
    (haction : ep.timerAction index entry now = some (slot, active)) :
    (∀ i, i ≠ index → (ep.expireTimer index slot active).1.qps i = ep.qps i) ∧
    ∃ slot', (ep.expireTimer index slot active).1.qps index = some slot' ∧
      slot'.timerDeadline = none := by
  obtain ⟨hslot, hactive, hdeadline, hexpired⟩ := Holds.timerAction_eq_some haction
  unfold expireTimer
  cases active.phase with
  | waiting =>
    have hcounted := (h.withStats { ep.stats with
      timeoutEvents := saturatingAdd ep.stats.timeoutEvents 1 }).counted hslot
    obtain ⟨copies, ⟨-, hretry⟩, -⟩ := scheduleTransportRetry_effect hcounted
    exact ⟨fun i hi ↦ Function.update_of_ne hi .., _, Function.update_self .., hretry.timerDeadline⟩
  | rnrWait =>
    exact ⟨fun i hi ↦ Function.update_of_ne hi .., _, Function.update_self .., rfl⟩
  | sending =>
    refine ⟨fun i hi ↦ Function.update_of_ne hi .., _, Function.update_self .., ?_⟩
    simp only [QpTransport.timerDeadline]

theorem qps_synchronizeQp_of_ne {i : Fin QPS} (hne : i ≠ index) :
    (ep.synchronizeQp index).qps i = ep.qps i := by
  cases hslot : ep.qps index with
  | none => rw [synchronizeQp_of_none hslot]
  | some slot =>
    rw [synchronizeQp_of_some hslot]
    exact Function.update_of_ne hne ..

/-- **An iteration of `service_timers` that does not return services an expired timer.** -/
theorem serviceTimersBody_continues (hint : Internal allowed now)
    (s t : RcEndpoint QPS MRS SQ RQ CQ IDX × ℕ × HandlerResult)
    (hs : Holds allowed start books ∅ s.1) (h : serviceTimersBody now s = .inr t) :
    Holds allowed start books ∅ t.1 ∧
      (t.1.expiredTimers now).card < (s.1.expiredTimers now).card := by
  obtain ⟨ep, budget, result⟩ := s
  cases budget with
  | zero => cases h
  | succ budget =>
    unfold serviceTimersBody at h
    dsimp only at h
    split at h
    · cases h
    rename_i index entry timers hpop
    obtain ⟨slot, active, haction⟩ := exists_timerAction hs hpop
    obtain ⟨hget, hdue⟩ := get_of_popExpired hpop
    rw [haction] at h
    cases h
    have hpopped := hs.popTimer hpop
    have hholds : Holds allowed start books ∅ _ :=
      (hpopped.expireTimer hint haction).mono (insert_diff_allOf ..)
    obtain ⟨hothers, slot', hslot', hnone⟩ := timerDeadline_expireTimer hpopped haction
    have hunarmed : index ∉ RcEndpoint.expiredTimers
        ((expireTimer { ep with timerScheduler := timers } index slot active).1.synchronizeQp
          index) now := by
      intro hmem
      obtain ⟨current, hcurrent, -⟩ := mem_expiredTimers.mp hmem
      rw [hholds.coherent .timer index (Set.notMem_empty _)] at hcurrent
      obtain ⟨live, hlive, hentry⟩ := Option.bind_eq_some_iff.mp hcurrent
      obtain ⟨deadline, hdeadline, -⟩ := Option.map_eq_some_iff.mp hentry
      have hsame := congrArg (Option.map fun pair ↦ pair.1.timerDeadline)
        (qps_synchronizeQp (expireTimer { ep with timerScheduler := timers } index slot active).1
          index index)
      rw [hlive, hslot'] at hsame
      have hboth : live.timerDeadline = slot'.timerDeadline := Option.some.inj hsame
      rw [hdeadline, hnone] at hboth
      cases hboth
    refine ⟨hholds, Finset.card_lt_card ⟨fun i hi ↦ ?_, fun hsub ↦ ?_⟩⟩
    · have hne : i ≠ index := fun heq ↦ hunarmed (heq ▸ hi)
      obtain ⟨current, hcurrent, hlate⟩ := mem_expiredTimers.mp hi
      refine mem_expiredTimers.mpr ⟨current, ?_, hlate⟩
      rw [hholds.coherent .timer i (Set.notMem_empty _), qps_synchronizeQp_of_ne hne,
        hothers i hne] at hcurrent
      exact (hs.coherent .timer i (Set.notMem_empty _)).trans hcurrent
    · exact hunarmed (hsub (mem_expiredTimers.mpr ⟨entry, hget, hdue⟩))

end RcEndpoint

theorem Engine.Inv.allOperable {ep : RcEndpoint QPS MRS SQ RQ CQ IDX} (h : ep.engine.Inv) :
    ep.AllOperable := by
  intro index slot hslot
  have hqp := Holds.engine_qps hslot
  exact ⟨h.qp index _ hqp, h.granted index _ hqp, h.spans index _ hqp⟩

/-! ## The loops -/

section Loops

open RcEndpoint

variable {ep : RcEndpoint QPS MRS SQ RQ CQ IDX}

theorem emitRequester_terminates (h : ep.AllOperable) (now : ℕ) (io : PollIo) :
    Loop.Terminates (emitRequesterBody now io) (fun s ↦ s.1.requesterReady.len) (ep, 0)
      (ep.emitRequester now io) := by
  refine requesterLoop_terminates (fun ep index slot active _ _ hoperable hactive hphase t ↦ ?_) h
    (fun fuel s ↦ emitRequesterLoop now io fuel s.1 s.2) (fun _ ↦ rfl)
    (emitRequesterLoop_succ now io)
  obtain ⟨packet, hbuild⟩ := exists_buildRequestPacket hoperable.granted.toRequesterGranted
    hoperable.spans hactive hphase
  rw [hbuild]
  dsimp only
  split
  · nofun
  · nofun

theorem prepareRequesterBatch_terminates (h : ep.AllOperable) (nextClass : DataTxClass) :
    Loop.Terminates (prepareRequesterBody nextClass) (fun s ↦ s.1.requesterReady.len) (ep, 0)
      (prepareRequesterBatch nextClass ep.requesterReady.len ep 0) := by
  refine requesterLoop_terminates (fun ep index slot active _ _ hoperable hactive hphase t ↦ ?_) h
    (fun fuel s ↦ prepareRequesterBatch nextClass fuel s.1 s.2) (fun _ ↦ rfl)
    (prepareRequesterBatch_succ nextClass)
  obtain ⟨wire, -, hprepare, -⟩ := exists_prepareRequestBatchPacket
    hoperable.granted.toRequesterGranted hoperable.spans hactive hphase
  rw [hprepare]
  nofun

theorem dequeueReadResponse_terminates (h : ep.AllOperable) :
    Loop.Terminates dequeueBody (fun s ↦ s.responderReady.len) ep
      (dequeueReadResponse ep.responderReady.len ep) := by
  refine Loop.Terminates.of_fuel dequeueReadResponse AllOperable (fun s _ hzero ↦ ?_)
    dequeueReadResponse_succ (fun _ _ ↦ dequeueBody_continues) h le_rfl
  unfold dequeueBody
  rw [ReadyQueue.pop_eq_none.mpr (List.length_eq_zero_iff.mp hzero)]
  rfl

theorem prepareReadResponseBatch_terminates (h : ep.AllOperable) (nextClass : DataTxClass) :
    Loop.Terminates (prepareReadResponseBody nextClass) (fun s ↦ s.1.responderReady.len) (ep, 0)
      (prepareReadResponseBatch nextClass (ep.responderReady.len + 1) ep 0) := by
  refine Loop.Terminates.of_fuel
    (fun fuel (s : RcEndpoint QPS MRS SQ RQ CQ IDX × ℕ) ↦
      prepareReadResponseBatch nextClass fuel s.1 s.2)
    (fun s ↦ s.1.AllOperable) (fun s _ hzero ↦ ?_) (prepareReadResponseBatch_succ nextClass)
    (fun s t hs hbody ↦ absurd hbody (prepareReadResponseBody_continues nextClass s t hs))
    (s := (ep, 0)) h (Nat.le_succ _)
  obtain ⟨ep, generated⟩ := s
  unfold prepareReadResponseBody
  dsimp only
  rw [dequeueReadResponse_of_empty (List.length_eq_zero_iff.mp hzero)]
  rfl

theorem serviceTimers_terminates (h : ep.Reachable) (now budget : ℕ) :
    Loop.Terminates (serviceTimersBody now) (fun s ↦ (s.1.expiredTimers now).card)
      (ep, budget, {}) (serviceTimersLoop now (budget + ep.timerScheduler.len) budget ep {}) := by
  have hint : Internal (fun _ : EngineEvent QPS ↦ True) now := fun _ _ ↦ trivial
  refine Loop.Terminates.of_fuel
    (fun fuel (s : RcEndpoint QPS MRS SQ RQ CQ IDX × ℕ × HandlerResult) ↦
      serviceTimersLoop now fuel s.2.1 s.1 s.2.2)
    (fun s ↦ Holds (fun _ ↦ True) ep.engine ep.books ∅ s.1) (fun s _ hzero ↦ ?_)
    (serviceTimersLoop_succ now) (serviceTimersBody_continues hint) (s := (ep, budget, {}))
    (h.here _) ((card_expiredTimers_le now).trans (Nat.le_add_left ..))
  obtain ⟨ep, budget, result⟩ := s
  cases budget with
  | zero => rfl
  | succ budget =>
    unfold serviceTimersBody
    dsimp only
    split
    · rfl
    · rename_i hpop
      have hmem := mem_expiredTimers.mpr ⟨_, get_of_popExpired hpop⟩
      rw [Finset.card_eq_zero.mp hzero] at hmem
      cases hmem

end Loops

/-- **The loops of the progress calls end.**  Let `moment` be an endpoint at any moment of a call on
a reachable endpoint: its queue pairs have taken steps of the engine since, and its ready queues
hold any slots.  Each of the four loops over the ready queues returns what the model says, and every
iteration that does not return leaves fewer slots in the queue.  The loop over the timers, with
which a call begins, does so with the expired timers.  A queue pair in RTS without an active request
has an empty send window, and the head of its send queue can be started. -/
theorem progress_loops_terminate {ep moment : RcEndpoint QPS MRS SQ RQ CQ IDX} (h : ep.Reachable)
    (hmoment : Engine.Run (fun _ ↦ True) ep.engine moment.engine) (now budget : ℕ) (io : PollIo)
    (nextClass : DataTxClass) :
    Loop.Terminates (RcEndpoint.emitRequesterBody now io) (fun s ↦ s.1.requesterReady.len)
      (moment, 0) (moment.emitRequester now io) ∧
    Loop.Terminates (RcEndpoint.prepareRequesterBody nextClass) (fun s ↦ s.1.requesterReady.len)
      (moment, 0) (RcEndpoint.prepareRequesterBatch nextClass moment.requesterReady.len moment 0) ∧
    Loop.Terminates RcEndpoint.dequeueBody (fun s ↦ s.responderReady.len) moment
      (RcEndpoint.dequeueReadResponse moment.responderReady.len moment) ∧
    Loop.Terminates (RcEndpoint.prepareReadResponseBody nextClass)
      (fun s ↦ s.1.responderReady.len) (moment, 0)
      (RcEndpoint.prepareReadResponseBatch nextClass (moment.responderReady.len + 1) moment 0) ∧
    Loop.Terminates (RcEndpoint.serviceTimersBody now) (fun s ↦ (s.1.expiredTimers now).card)
      (ep, budget, {})
      (RcEndpoint.serviceTimersLoop now (budget + ep.timerScheduler.len) budget ep {}) ∧
    ∀ index slot, moment.qps index = some slot → slot.machine.state = .rts →
      slot.activeRequest = none → slot.sendWindow.outstanding = 0 ∧
        (slot.sendQueue.items ≠ [] → ∃ active,
          (startNextRequest slot.toQpTransport moment.config.ticksPerSecond).activeRequest =
            some active ∧ active.phase = .sending) := by
  have hoperable := (hmoment.inv h.inv).allOperable
  refine ⟨emitRequester_terminates hoperable now io,
    prepareRequesterBatch_terminates hoperable nextClass,
    dequeueReadResponse_terminates hoperable,
    prepareReadResponseBatch_terminates hoperable nextClass,
    serviceTimers_terminates h now budget, fun index slot hslot hstate hactive ↦ ⟨?_, ?_⟩⟩
  · have hempty := (hoperable index slot hslot).window_empty hactive (by rw [hstate]; decide)
    rw [SendWindow.outstanding, hempty]
    simpa using Psn.forwardDistanceFrom_newTruncated
      (Nat.le_refl slot.sendWindow.nextToSend.value) (by omega)
  · intro hqueue
    have hslotOperable := hoperable index slot hslot
    refine exists_sending_of_runnable hslotOperable.inv.config
      hslotOperable.granted.toRequesterGranted hslotOperable.spans ?_ _
    simp [QpTransport.requesterIsRunnable, hactive, QpStateMachine.canSend, hstate, Ring.isEmpty,
      hqueue]

theorem progress_loops_terminate_posted :
    ∃ sent, Loop.Returns (RcEndpoint.emitRequesterBody 0 ⟨1500, 1500, .empty, true⟩)
        (Sample.single.steps posted, 0) sent ∧
      sent.2.toOption.map (·.transmitted) = some true := by
  refine ⟨_, (progress_loops_terminate (Sample.single_reachable posted) .refl 0 1
    ⟨1500, 1500, .empty, true⟩ .requester).1.returns, ?_⟩
  decide +kernel

end Rocev2.Rc
