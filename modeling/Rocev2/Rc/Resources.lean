import Rocev2.Rc.Reachable

/-!
# Leases and schedulers of reachable endpoints

Two kinds of bookkeeping are spread over the whole engine: the references to memory regions, which
move between queues and handlers, and the entries of the schedulers, which are popped before the
work they stand for is attempted.  Both are part of the assertion that every operation keeps; here
they are stated for the endpoints that an application can meet.
-/

namespace Rocev2.Rc

open Rocev2.Core Rocev2.Memory

variable {QPS MRS SQ RQ CQ IDX : ℕ}

/-! ## Leases -/

/-- A queue pair that holds no work, no lease and no reservation. -/
structure Released (qp : QpTransport MRS SQ RQ CQ) : Prop where
  idle : qp.Idle
  leases : qp.leases = 0
  reserved : qp.completionReservations = 0

theorem QpInv.released {qp : QpTransport MRS SQ RQ CQ} (h : QpInv qp) (hidle : qp.Idle) :
    Released qp := by
  refine ⟨hidle, h.tidy.leases_eq_zero hidle, ?_⟩
  rw [h.balanced.reserved]
  simp [QpTransport.sendPending, QpTransport.receivePending, QpTransport.inboundWork,
    hidle.active, hidle.inbound, hidle.sends, hidle.receives]

section Leases

variable {ep : RcEndpoint QPS MRS SQ RQ CQ IDX}

theorem mem_heldByAll {lease : RegionLease MRS} :
    lease ∈ heldByAll ep.engine.qps ↔ ∃ i slot, ep.qps i = some slot ∧ lease ∈ slot.leases := by
  constructor
  · intro hmem
    obtain ⟨i, -, hi⟩ := Multiset.mem_sum.mp hmem
    cases hqp : ep.engine.qps i with
    | none =>
      rw [hqp] at hi
      exact absurd hi (Multiset.notMem_zero lease)
    | some qp =>
      rw [hqp] at hi
      obtain ⟨slot, hslot, rfl⟩ := Holds.engine_qps_eq_some hqp
      exact ⟨i, slot, hslot, hi⟩
  · rintro ⟨i, slot, hslot, hmem⟩
    exact Multiset.mem_of_le (leases_le_heldByAll (Holds.engine_qps hslot)) hmem

def Names (handle : RegionHandle) (index : Fin MRS) (region : MemorySlot) : Prop :=
  handle.slot = index.val ∧ region.generation = handle.generation ∧ region.lkey = handle.lkey ∧
    region.rkey = handle.rkey ∧ region.address = handle.address ∧ region.length = handle.length

theorem deregisterMemory_busy {handle : RegionHandle} {index : Fin MRS} {region : MemorySlot}
    (hregion : ep.memory.slots index = some region) (hnames : Names handle index region) :
    (ep.deregisterMemory handle).2 = .error (.memory .regionBusy) ↔ region.references ≠ 0 := by
  obtain ⟨hslot, hgeneration, hlkey, hrkey, haddress, hlength⟩ := hnames
  have hlt : handle.slot < MRS := hslot ▸ index.isLt
  have hindex : (⟨handle.slot, hlt⟩ : Fin MRS) = index := Fin.ext hslot
  unfold RcEndpoint.deregisterMemory MemoryRegistry.deregister
  rw [dif_pos hlt, hindex, hregion]
  dsimp only
  rw [if_neg (by simp [hgeneration, hlkey, hrkey, haddress, hlength])]
  by_cases hbusy : region.references = 0
  · simp [hbusy]
  · simp [hbusy]

end Leases

/-- **Memory lease accounting.**  In every reachable endpoint:
the references of a live region are the leases on it that queue pairs hold;
a queue pair holds a lease exactly for each piece of work that it has;
a queue pair in the reset, init or error state holds nothing;
a lease that is held can be given back;
a region is busy exactly while a queue pair holds a lease on it;
a queue pair that is removed holds nothing. -/
theorem lease_accounting {ep : RcEndpoint QPS MRS SQ RQ CQ IDX} (h : ep.Reachable) :
    (∀ index region, ep.memory.slots index = some region →
      region.references =
        (heldByAll ep.engine.qps).count (ep.memory.leaseOf index region)) ∧
    (∀ i slot, ep.qps i = some slot →
      slot.activeMemory.isSome = slot.activeRequest.isSome ∧
      slot.readMemory.isSome = slot.readResponse.isSome ∧
      slot.inboundMemory.isSome = slot.inboundMessage.isSome ∧
      (slot.machine.state = .reset ∨ slot.machine.state = .init ∨ slot.machine.state = .error →
        Released slot.toQpTransport) ∧
      ∀ lease ∈ slot.leases, (ep.memory.release (some lease)).2 = (none, .ok ())) ∧
    (∀ index region handle, ep.memory.slots index = some region → Names handle index region →
      ((ep.deregisterMemory handle).2 = .error (.memory .regionBusy) ↔
        ∃ i slot, ep.qps i = some slot ∧ ep.memory.leaseOf index region ∈ slot.leases)) ∧
    ∀ handle config, (ep.removeQp handle).2 = .ok config →
      ∃ i slot, ep.qps i = some slot ∧ i.val = handle.slot ∧ Released slot.toQpTransport := by
  have hcounted := h.inv.counted
  have hrefs : ∀ index region, ep.memory.slots index = some region →
      ep.memory.refs (ep.memory.leaseOf index region) = region.references :=
    fun index region hregion ↦ MemoryRegistry.refs_leaseOf hregion
  refine ⟨?_, ?_, ?_, ?_⟩
  · intro index region hregion
    rw [hcounted, ← hrefs index region hregion]
    rfl
  · intro i slot hslot
    have hinv := h.inv.qp i _ (Holds.engine_qps hslot)
    refine ⟨hinv.tidy.active, hinv.tidy.read, hinv.tidy.inbound, fun hstate ↦ ?_,
      fun lease hlease ↦ ?_⟩
    · have hquiet : slot.machine.canReceive = false := by
        rcases hstate with hstate | hstate | hstate
        all_goals simp [QpStateMachine.canReceive, hstate]
      exact hinv.released (hinv.quiet hquiet)
    · have hpos : 0 < ep.memory.refs lease :=
        hcounted.pos (mem_heldByAll.mpr ⟨i, slot, hslot, hlease⟩)
      obtain ⟨_, -, -, hrelease⟩ := MemoryRegistry.release_of_refs_pos hpos
      rw [hrelease]
  · intro index region handle hregion hnames
    rw [deregisterMemory_busy hregion hnames, ← hrefs index region hregion, ← mem_heldByAll,
      ← Nat.pos_iff_ne_zero]
    exact ⟨hcounted.mem, hcounted.pos⟩
  · intro handle config hremoved
    obtain ⟨i, slot, hindex, hbusy, -⟩ := RcEndpoint.exists_of_removeQp hremoved
    obtain ⟨hslot, hnumber, -⟩ := QpHandle.find_eq_some.mp hindex
    have hidle := (Holds.idle_of_not_busy hbusy).1
    exact ⟨i, slot, hslot, hnumber, (h.inv.qp i _ (Holds.engine_qps hslot)).released hidle⟩

/-- A queue pair with a posted SEND, and the handle of the region it is sent from. -/
def posted : List Op :=
  Sample.ready 1 1 ++ [.postWork Sample.handle ⟨1, .send, Sample.sge 4, true⟩]

theorem lease_accounting_posted :
    (∃ region, (Sample.single.steps posted).memory.slots 0 = some region ∧
      region.references = (heldByAll (Sample.single.steps posted).engine.qps).count
        ((Sample.single.steps posted).memory.leaseOf 0 region)) := by
  have hlive : ((Sample.single.steps posted).memory.slots 0).isSome = true := by decide +kernel
  obtain ⟨region, hregion⟩ := Option.isSome_iff_exists.mp hlive
  exact ⟨region, hregion, (lease_accounting (Sample.single_reachable posted)).1 0 region hregion⟩

/-! ## Schedulers -/

/-- **Scheduler coherence.**  In every reachable endpoint whose ACK timeouts are representable,
the ready queues hold exactly the runnable slots, the flags of a slot say whether it is queued, and
the timer of a slot is armed exactly when the slot has a deadline, with that deadline and the
current generation and arm sequence. -/
theorem scheduler_coherence {ep : RcEndpoint QPS MRS SQ RQ CQ IDX} (h : ep.Reachable)
    (htimed : ∀ i slot, ep.qps i = some slot →
      (ackTimeoutTicks slot.machine.config.timeout ep.config.ticksPerSecond).isSome = true)
    (i : Fin QPS) :
    (i ∈ ep.requesterReady.slots ↔
      ∃ slot, ep.qps i = some slot ∧ slot.requesterIsRunnable = true) ∧
    (i ∈ ep.responderReady.slots ↔
      ∃ slot, ep.qps i = some slot ∧ slot.responderIsRunnable = true) ∧
    (∀ slot, ep.qps i = some slot →
      (slot.requesterScheduled = true ↔ i ∈ ep.requesterReady.slots) ∧
      (slot.responderScheduled = true ↔ i ∈ ep.responderReady.slots)) ∧
    ep.timerScheduler.get i = (ep.qps i).bind fun slot ↦ slot.timerDeadline.map fun deadline ↦
      ⟨deadline, i.val, slot.generation, slot.timerSequence⟩ := by
  have hcoherent : ∀ c, ep.CoherentAt c i :=
    fun c ↦ (h.here fun _ ↦ True).coherent c i (Set.notMem_empty _)
  have hready : ∀ kind, i ∈ (ep.ready kind).slots ↔
      ∃ slot, ep.qps i = some slot ∧ slot.isRunnable kind = true := fun kind ↦
    ⟨(hcoherent (.ready kind)).runnable, fun ⟨slot, hslot, hrunnable⟩ ↦
      (hcoherent (.ready kind)).queued (fun _ ↦ htimed i) slot hslot hrunnable⟩
  exact ⟨hready .requester, hready .responder, fun slot hslot ↦
    ⟨(hcoherent (.ready .requester)).flag slot hslot,
      (hcoherent (.ready .responder)).flag slot hslot⟩, hcoherent .timer⟩

theorem scheduler_coherence_posted :
    (0 ∈ (Sample.single.steps posted).requesterReady.slots ↔
      ∃ slot, (Sample.single.steps posted).qps 0 = some slot ∧
        slot.requesterIsRunnable = true) := by
  have htimed : ∀ i, ((Sample.single.steps posted).qps i).all (fun slot ↦
      (ackTimeoutTicks slot.machine.config.timeout
        (Sample.single.steps posted).config.ticksPerSecond).isSome) = true := by
    decide +kernel
  refine (scheduler_coherence (Sample.single_reachable posted) (fun i slot hslot ↦ ?_) 0).1
  have hi := htimed i
  rw [hslot] at hi
  exact hi

end Rocev2.Rc
