import Mathlib.Algebra.Order.Group.Multiset
import Rocev2.Memory.Access
import Rocev2.Rc.Slot

/-!
# Completions and leases of a slot

The slot functions that resolve completions and give leases back, read as pure functions of the
transport state.

While every lease that the slot holds is counted by the registry, each release succeeds.  Then
the effect of `finishActive`, `finishReceive`, `flushPending` and `enterError` on the transport
state does not depend on the registry any more: it is `resolved`, `flushed` and `failed` below.
The registry changes by the returned references and by nothing else.
-/

namespace Rocev2.Rc

open Rocev2.Core Rocev2.Memory Rocev2.Lib

variable {MRS SQ RQ CQ : ℕ}

/-! ## Leases -/

def held (lease : Option (RegionLease MRS)) : Multiset (RegionLease MRS) :=
  (lease.toList : Multiset _)

@[simp]
theorem held_none : held (none : Option (RegionLease MRS)) = 0 := rfl

@[simp]
theorem held_some (lease : RegionLease MRS) : held (some lease) = {lease} := rfl

def heldBy {α : Type} (posted : List (PostedWork α MRS)) : Multiset (RegionLease MRS) :=
  (posted.map fun work ↦ held work.lease).sum

@[simp]
theorem heldBy_nil {α : Type} : heldBy ([] : List (PostedWork α MRS)) = 0 := rfl

@[simp]
theorem heldBy_cons {α : Type} (work : PostedWork α MRS) (posted : List (PostedWork α MRS)) :
    heldBy (work :: posted) = held work.lease + heldBy posted := rfl

@[simp]
theorem heldBy_append {α : Type} (posted posted' : List (PostedWork α MRS)) :
    heldBy (posted ++ posted') = heldBy posted + heldBy posted' := by
  induction posted with
  | nil => simp
  | cons work posted ih => simp [ih, add_assoc]

/-- Giving back a counted lease succeeds. -/
theorem releaseLease_spec {memory : MemoryRegistry MRS} {lease : Option (RegionLease MRS)}
    {others : Multiset (RegionLease MRS)} (h : Counted memory.refs (held lease + others)) :
    (releaseLease memory lease).2 = none ∧ Copied memory [] (releaseLease memory lease).1 ∧
      Counted (releaseLease memory lease).1.refs others := by
  cases lease with
  | none =>
    refine ⟨rfl, Copied.refl memory, ?_⟩
    rwa [held_none, zero_add] at h
  | some token =>
    rw [held_some, Multiset.singleton_add] at h
    obtain ⟨slot, hslot, hlease, hrelease⟩ :=
      MemoryRegistry.release_of_refs_pos (h.pos (Multiset.mem_cons_self token others))
    have hrefs : slot.references = memory.refs token := by
      rw [← hlease]
      exact (MemoryRegistry.refs_leaseOf hslot).symm
    simp only [releaseLease, hrelease]
    refine ⟨trivial, MemoryRegistry.copied_setReferences hslot, ?_⟩
    rw [MemoryRegistry.refs_setReferences hslot, hlease, hrefs]
    exact h.release

/-! ## Pure readings of the slot functions -/

theorem QpContext.workCompletion_of_ne (work : WorkRequest) {status : CompletionStatus}
    (h : status ≠ .success) (byteLen : ℕ) :
    QpContext.workCompletion work status byteLen =
      some (.failure work.id (completionOpcode work.kind) status) := by
  simp [QpContext.workCompletion, h]

namespace QpTransport

variable (qp : QpTransport MRS SQ RQ CQ)

def leases : Multiset (RegionLease MRS) :=
  held qp.activeMemory + held qp.inboundMemory + held qp.readMemory +
    heldBy qp.sendQueue.items + heldBy qp.receiveQueue.items

/-- The send-queue work that has not been completed, oldest first. -/
def sendPending : List WorkRequest :=
  (qp.activeRequest.map fun active ↦ active.work).toList ++
    qp.sendQueue.items.map fun posted ↦ posted.work

/-- The receive work request being filled. -/
def inboundWork : List RecvWorkRequest :=
  match qp.inboundMessage with
  | some (.send work _) => [work]
  | some (.write _ _ _ _) | none => []

/-- The receive work that has not been completed, oldest first. -/
def receivePending : List RecvWorkRequest :=
  qp.inboundWork ++ qp.receiveQueue.items.map fun posted ↦ posted.work

def generated : List Completion :=
  qp.history.polled ++ qp.completionQueue.items

def resolved (count : ℕ) (completions : List Completion) :
    QpTransport MRS SQ RQ CQ :=
  { qp with
    completionReservations := qp.completionReservations - count
    completionQueue := qp.completionQueue.pushAll completions }

def activeFinished (status : CompletionStatus) (byteLen : ℕ) :
    QpTransport MRS SQ RQ CQ :=
  match qp.activeRequest with
  | none => qp.setActiveMemory none
  | some active =>
    ((qp.setActiveMemory none).retire active status).resolved 1
      (QpContext.workCompletion active.work status byteLen).toList

def receiveFinished (work : RecvWorkRequest)
    (status : CompletionStatus) (byteLen : ℕ) : QpTransport MRS SQ RQ CQ :=
  (qp.setInboundMemory none).resolved 1 [QpContext.receiveCompletion work status byteLen]

def flushedSend (work : WorkRequest) : Completion :=
  .failure work.id (completionOpcode work.kind) .flushed

def flushedReceive (work : RecvWorkRequest) : Completion := .failure work.id .receive .flushed

/-- The completions of a flush: the active request, the message being reassembled and both
queues, in this order. -/
def flushCompletions : List Completion :=
  (qp.activeRequest.map fun active ↦ flushedSend active.work).toList ++
    qp.inboundWork.map flushedReceive ++
    (qp.sendQueue.items.map fun posted ↦ flushedSend posted.work) ++
    qp.receiveQueue.items.map fun posted ↦ flushedReceive posted.work

/-- Drop every pending work request and the responder state. -/
def emptied : QpTransport MRS SQ RQ CQ :=
  { qp with
    activeRequest := none
    retired := qp.retired ++ (qp.activeRequest.map fun active ↦ active.retired .flushed).toList
    activeMemory := none
    inboundMessage := none
    inboundMemory := none
    readMemory := none
    readResponse := none
    readReplay := none
    sendQueue := .new
    receiveQueue := .new }

/-- Flush every pending work request. -/
def flushed : QpTransport MRS SQ RQ CQ :=
  qp.emptied.resolved qp.flushCompletions.length qp.flushCompletions

def failed : QpTransport MRS SQ RQ CQ :=
  (qp.setMachine { qp.machine with state := .error }).flushed

/-- Finish the message being reassembled. -/
def inboundFinished (status : CompletionStatus) :
    QpTransport MRS SQ RQ CQ :=
  ((qp.setInbound none).setInboundMemory none).resolved qp.inboundWork.length
    (qp.inboundWork.map fun work ↦ QpContext.receiveCompletion work status 0)

def sendsFlushed : QpTransport MRS SQ RQ CQ :=
  (qp.setSends .new).resolved qp.sendQueue.items.length
    (qp.sendQueue.items.map fun posted ↦ flushedSend posted.work)

def receivesFlushed : QpTransport MRS SQ RQ CQ :=
  (qp.setReceives .new).resolved qp.receiveQueue.items.length
    (qp.receiveQueue.items.map fun posted ↦ flushedReceive posted.work)

theorem resolved_resolved (m n : ℕ) (cs cs' : List Completion) :
    (qp.resolved m cs).resolved n cs' = qp.resolved (m + n) (cs ++ cs') := by
  simp only [resolved, Ring.pushAll_append]
  rw [Nat.sub_sub]

section Leases

variable {qp : QpTransport MRS SQ RQ CQ}

theorem leases_activeMemory (qp : QpTransport MRS SQ RQ CQ) :
    qp.leases = held qp.activeMemory + (qp.setActiveMemory none).leases := by
  simp only [leases, setActiveMemory, held_none, zero_add, add_assoc]

theorem leases_inboundMemory (qp : QpTransport MRS SQ RQ CQ) :
    qp.leases = held qp.inboundMemory + (qp.setInboundMemory none).leases := by
  simp only [leases, setInboundMemory, held_none, add_zero, add_assoc]
  exact add_left_comm _ _ _

theorem leases_readMemory (qp : QpTransport MRS SQ RQ CQ) :
    qp.leases = held qp.readMemory + (qp.setReadMemory none).leases := by
  simp only [leases, setReadMemory, held_none, add_zero, add_assoc]
  rw [add_left_comm (held qp.inboundMemory), add_left_comm (held qp.activeMemory)]

theorem leases_of_sendQueue {posted : PostedWork WorkRequest MRS}
    {queue : Ring (PostedWork WorkRequest MRS) SQ}
    (h : qp.sendQueue.items = posted :: queue.items) :
    qp.leases = held posted.lease + (qp.setSends queue).leases := by
  simp only [leases, setSends, h, heldBy_cons, add_assoc]
  rw [add_left_comm (held qp.readMemory), add_left_comm (held qp.inboundMemory),
    add_left_comm (held qp.activeMemory)]

theorem leases_of_receiveQueue {posted : PostedWork RecvWorkRequest MRS}
    {queue : Ring (PostedWork RecvWorkRequest MRS) RQ}
    (h : qp.receiveQueue.items = posted :: queue.items) :
    qp.leases = held posted.lease + (qp.setReceives queue).leases := by
  simp only [leases, setReceives, h, heldBy_cons]
  exact add_left_comm _ _ _

end Leases

section Queues

variable {qp : QpTransport MRS SQ RQ CQ}

theorem sendsFlushed_of_nil (h : qp.sendQueue.items = []) : qp.sendsFlushed = qp := by
  have hnew : qp.sendQueue = .new := Core.Ring.ext h
  rw [sendsFlushed, h, ← hnew]
  rfl

theorem sendsFlushed_of_cons {posted : PostedWork WorkRequest MRS}
    {queue : Ring (PostedWork WorkRequest MRS) SQ}
    (h : qp.sendQueue.items = posted :: queue.items) :
    qp.sendsFlushed =
      ((qp.setSends queue).resolved 1 [flushedSend posted.work]).sendsFlushed := by
  have hsplit := resolved_resolved (qp.setSends .new) 1 queue.items.length
    [flushedSend posted.work] (queue.items.map fun posted ↦ flushedSend posted.work)
  rw [sendsFlushed, h, List.length_cons, List.map_cons, Nat.add_comm]
  exact hsplit.symm

theorem receivesFlushed_of_nil (h : qp.receiveQueue.items = []) : qp.receivesFlushed = qp := by
  have hnew : qp.receiveQueue = .new := Core.Ring.ext h
  rw [receivesFlushed, h, ← hnew]
  rfl

theorem receivesFlushed_of_cons {posted : PostedWork RecvWorkRequest MRS}
    {queue : Ring (PostedWork RecvWorkRequest MRS) RQ}
    (h : qp.receiveQueue.items = posted :: queue.items) :
    qp.receivesFlushed =
      ((qp.setReceives queue).resolved 1 [flushedReceive posted.work]).receivesFlushed := by
  have hsplit := resolved_resolved (qp.setReceives .new) 1 queue.items.length
    [flushedReceive posted.work] (queue.items.map fun posted ↦ flushedReceive posted.work)
  rw [receivesFlushed, h, List.length_cons, List.map_cons, Nat.add_comm]
  exact hsplit.symm

theorem receiveFinished_of_none (h : qp.inboundMemory = none) (work : RecvWorkRequest)
    (status : CompletionStatus) (byteLen : ℕ) :
    qp.receiveFinished work status byteLen =
      qp.resolved 1 [QpContext.receiveCompletion work status byteLen] := by
  rw [receiveFinished, ← h]
  rfl

/-- The flush, in the order in which the source takes its parts. -/
theorem flushed_eq (qp : QpTransport MRS SQ RQ CQ) :
    (((((qp.activeFinished .flushed 0).inboundFinished .flushed).setReadMemory none).setRead
      none).setReplay none).sendsFlushed.receivesFlushed = qp.flushed := by
  cases hactive : qp.activeRequest with
  | none =>
    simp only [activeFinished, hactive, inboundFinished, sendsFlushed, receivesFlushed, flushed,
      emptied, flushCompletions, resolved, setSends, setReceives, setActiveMemory, setInbound,
      setInboundMemory, setReadMemory, setRead, setReplay, inboundWork, Option.map_none,
      Option.toList_none, List.nil_append, List.append_nil, Ring.pushAll_append,
      List.length_append, List.length_map, Nat.sub_sub]
    rfl
  | some active =>
    have hflush := QpContext.workCompletion_of_ne active.work
      (by decide : CompletionStatus.flushed ≠ .success) 0
    simp only [activeFinished, hactive, hflush, inboundFinished, sendsFlushed, receivesFlushed,
      flushed, emptied, flushCompletions, resolved, setSends, setReceives, retire, setActiveMemory,
      setInbound, setInboundMemory, setReadMemory, setRead, setReplay, inboundWork,
      Option.map_some, Option.toList_some, Ring.pushAll_append, List.length_append,
      List.length_map, List.length_singleton, Nat.sub_sub]
    rfl

end Queues

end QpTransport

/-! ## The slot functions -/

namespace QpContext

open QpTransport

variable (ctx : QpContext MRS SQ RQ CQ)

theorem resolve_fst (completion : Option Completion) :
    (ctx.resolve completion).1 = ctx.setQp (ctx.qp.resolved 1 completion.toList) := by
  cases completion with
  | none => rfl
  | some completion =>
    simp only [resolve, resolveReservedCompletion, resolved, Option.toList_some, Ring.pushAll,
      List.foldl_cons, List.foldl_nil, Ring.pushed]
    cases ctx.qp.completionQueue.push completion <;> rfl

/-- A handler made `copies` and left the reference counts right. -/
structure Keeps (memory : MemoryRegistry MRS) (copies : List (ℕ × List UInt8))
    (others : Multiset (RegionLease MRS)) (ctx' : QpContext MRS SQ RQ CQ) : Prop where
  /-- The registry differs by the copies and its reference counts. -/
  memory : Copied memory copies ctx'.memory
  /-- The counts are right for the leases that are left. -/
  counted : Counted ctx'.memory.refs (ctx'.qp.leases + others)

variable {others : Multiset (RegionLease MRS)}

theorem releaseActive_spec (h : Counted ctx.memory.refs (ctx.qp.leases + others)) :
    ctx.releaseActive.qp = ctx.qp.setActiveMemory none ∧
      Keeps ctx.memory [] others ctx.releaseActive := by
  rw [leases_activeMemory, add_assoc] at h
  obtain ⟨hnone, hdata, hcounted⟩ := releaseLease_spec h
  have hqp : ctx.releaseActive.qp = ctx.qp.setActiveMemory none := by
    simp only [releaseActive, hnone, setQp_qp]
  exact ⟨hqp, hdata, by rw [hqp]; exact hcounted⟩

theorem releaseInbound_spec (h : Counted ctx.memory.refs (ctx.qp.leases + others)) :
    ctx.releaseInbound.qp = ctx.qp.setInboundMemory none ∧
      Keeps ctx.memory [] others ctx.releaseInbound := by
  rw [leases_inboundMemory, add_assoc] at h
  obtain ⟨hnone, hdata, hcounted⟩ := releaseLease_spec h
  have hqp : ctx.releaseInbound.qp = ctx.qp.setInboundMemory none := by
    simp only [releaseInbound, hnone, setQp_qp]
  exact ⟨hqp, hdata, by rw [hqp]; exact hcounted⟩

theorem releaseRead_spec (h : Counted ctx.memory.refs (ctx.qp.leases + others)) :
    ctx.releaseRead.qp = ctx.qp.setReadMemory none ∧
      Keeps ctx.memory [] others ctx.releaseRead := by
  rw [leases_readMemory, add_assoc] at h
  obtain ⟨hnone, hdata, hcounted⟩ := releaseLease_spec h
  have hqp : ctx.releaseRead.qp = ctx.qp.setReadMemory none := by
    simp only [releaseRead, hnone, setQp_qp]
  exact ⟨hqp, hdata, by rw [hqp]; exact hcounted⟩

theorem finishActive_spec (h : Counted ctx.memory.refs (ctx.qp.leases + others))
    (status : CompletionStatus) (byteLen : ℕ) :
    (ctx.finishActive status byteLen).1.qp = ctx.qp.activeFinished status byteLen ∧
      Keeps ctx.memory [] others (ctx.finishActive status byteLen).1 := by
  obtain ⟨hqp, hkeeps⟩ := releaseActive_spec _ h
  have hactive : ctx.releaseActive.qp.activeRequest = ctx.qp.activeRequest := by
    rw [hqp]
    rfl
  have hcounted := hkeeps.counted
  unfold finishActive activeFinished
  cases hcase : ctx.qp.activeRequest with
  | none =>
    simp only [hactive, hcase]
    exact ⟨hqp, hkeeps⟩
  | some active =>
    simp only [hactive, hcase, resolve_fst, setQp_qp]
    refine ⟨by rw [hqp], hkeeps.memory, ?_⟩
    rw [hqp] at hcounted ⊢
    exact hcounted

theorem finishReceive_spec (h : Counted ctx.memory.refs (ctx.qp.leases + others))
    (work : RecvWorkRequest) (status : CompletionStatus) (byteLen : ℕ) :
    (ctx.finishReceive work status byteLen).1.qp = ctx.qp.receiveFinished work status byteLen ∧
      Keeps ctx.memory [] others (ctx.finishReceive work status byteLen).1 := by
  obtain ⟨hqp, hkeeps⟩ := releaseInbound_spec _ h
  have hcounted := hkeeps.counted
  simp only [finishReceive, resolve_fst, setQp_qp]
  refine ⟨by rw [hqp]; rfl, hkeeps.memory, ?_⟩
  rw [hqp] at hcounted ⊢
  exact hcounted

theorem flushSendQueue_spec (fuel : ℕ) (hfuel : ctx.qp.sendQueue.items.length ≤ fuel)
    (h : Counted ctx.memory.refs (ctx.qp.leases + others)) :
    (flushSendQueue fuel ctx).1.qp = ctx.qp.sendsFlushed ∧
      Keeps ctx.memory [] others (flushSendQueue fuel ctx).1 := by
  induction fuel generalizing ctx with
  | zero =>
    rw [flushSendQueue, sendsFlushed_of_nil (List.length_eq_zero_iff.mp (by omega))]
    exact ⟨rfl, Copied.refl _, h⟩
  | succ fuel ih =>
    unfold flushSendQueue
    cases hpop : ctx.qp.sendQueue.pop with
    | none =>
      rw [sendsFlushed_of_nil (Ring.pop_eq_none.mp hpop)]
      exact ⟨rfl, Copied.refl _, h⟩
    | some head =>
      obtain ⟨posted, queue⟩ := head
      have hitems := Ring.pop_eq_some.mp hpop
      rw [leases_of_sendQueue hitems, add_assoc] at h
      obtain ⟨-, hdata, hcounted⟩ := releaseLease_spec h
      rw [hitems, List.length_cons] at hfuel
      simp only [resolve_fst, setMemory_qp, setQp_qp]
      rw [sendsFlushed_of_cons hitems]
      have hrest := ih (((ctx.setQp (ctx.qp.setSends queue)).setMemory
        (releaseLease ctx.memory posted.lease).1).setQp
          ((ctx.qp.setSends queue).resolved 1 [flushedSend posted.work]))
        (Nat.le_of_succ_le_succ hfuel) hcounted
      exact ⟨hrest.1, hdata.trans hrest.2.memory, hrest.2.counted⟩

theorem flushReceiveQueue_spec (fuel : ℕ) (hfuel : ctx.qp.receiveQueue.items.length ≤ fuel)
    (hinbound : ctx.qp.inboundMemory = none)
    (h : Counted ctx.memory.refs (ctx.qp.leases + others)) :
    (flushReceiveQueue fuel ctx).1.qp = ctx.qp.receivesFlushed ∧
      Keeps ctx.memory [] others (flushReceiveQueue fuel ctx).1 := by
  induction fuel generalizing ctx with
  | zero =>
    rw [flushReceiveQueue, receivesFlushed_of_nil (List.length_eq_zero_iff.mp (by omega))]
    exact ⟨rfl, Copied.refl _, h⟩
  | succ fuel ih =>
    unfold flushReceiveQueue
    cases hpop : ctx.qp.receiveQueue.pop with
    | none =>
      rw [receivesFlushed_of_nil (Ring.pop_eq_none.mp hpop)]
      exact ⟨rfl, Copied.refl _, h⟩
    | some head =>
      obtain ⟨posted, queue⟩ := head
      have hitems := Ring.pop_eq_some.mp hpop
      rw [leases_of_receiveQueue hitems, add_assoc] at h
      obtain ⟨-, hdata, hcounted⟩ := releaseLease_spec h
      rw [hitems, List.length_cons] at hfuel
      -- The head leaves the queue and its lease before it is completed.
      obtain ⟨hqp, hkeeps⟩ := finishReceive_spec ((ctx.setQp (ctx.qp.setReceives queue)).setMemory
        (releaseLease ctx.memory posted.lease).1) hcounted posted.work .flushed 0
      rw [setMemory_qp, setQp_qp, receiveFinished_of_none (by exact hinbound)] at hqp
      obtain ⟨hrest, krest⟩ := ih _ (by rw [hqp]; exact Nat.le_of_succ_le_succ hfuel)
        (by rw [hqp]; exact hinbound) hkeeps.counted
      rw [receivesFlushed_of_cons hitems]
      refine ⟨?_, (hdata.trans hkeeps.memory).trans krest.memory, krest.counted⟩
      rw [hqp] at hrest
      exact hrest

/-- Finishing the message being reassembled and giving its lease back. -/
theorem finishInbound_spec (h : Counted ctx.memory.refs (ctx.qp.leases + others))
    (status : CompletionStatus) :
    (ctx.finishInbound status).1.releaseInbound.qp = ctx.qp.inboundFinished status ∧
      Keeps ctx.memory [] others (ctx.finishInbound status).1.releaseInbound := by
  have htaken : Counted (ctx.setQp (ctx.qp.setInbound none)).memory.refs
      ((ctx.setQp (ctx.qp.setInbound none)).qp.leases + others) := h
  have hplain : ctx.qp.inboundWork = [] →
      (ctx.finishInbound status).1 = ctx.setQp (ctx.qp.setInbound none) →
      (ctx.finishInbound status).1.releaseInbound.qp = ctx.qp.inboundFinished status ∧
        Keeps ctx.memory [] others (ctx.finishInbound status).1.releaseInbound := by
    intro hwork hfinish
    obtain ⟨hqp, hkeeps⟩ := releaseInbound_spec _ htaken
    rw [hfinish, hqp, inboundFinished, hwork]
    exact ⟨rfl, hkeeps⟩
  cases hinbound : ctx.qp.inboundMessage with
  | none => exact hplain (by simp [inboundWork, hinbound]) (by simp [finishInbound, hinbound])
  | some message =>
    cases message with
    | write address rkey totalLength bytesWritten =>
      exact hplain (by simp [inboundWork, hinbound]) (by simp [finishInbound, hinbound])
    | send work bytesWritten =>
      obtain ⟨hqp, hkeeps⟩ := finishReceive_spec _ htaken work status 0
      obtain ⟨hqp', hkeeps'⟩ := releaseInbound_spec _ hkeeps.counted
      have hwork : ctx.qp.inboundWork = [work] := by simp [inboundWork, hinbound]
      have hfinish : ctx.finishInbound status =
          (ctx.setQp (ctx.qp.setInbound none)).finishReceive work status 0 := by
        simp [finishInbound, hinbound]
      rw [hfinish, hqp', hqp, inboundFinished, hwork]
      exact ⟨rfl, hkeeps.memory.trans hkeeps'.memory, hkeeps'.counted⟩

theorem flushQueues_spec (hinbound : ctx.qp.inboundMemory = none)
    (h : Counted ctx.memory.refs (ctx.qp.leases + others)) :
    ctx.flushQueues.1.qp = ctx.qp.sendsFlushed.receivesFlushed ∧
      Keeps ctx.memory [] others ctx.flushQueues.1 := by
  obtain ⟨hsend, ksend⟩ := flushSendQueue_spec _ _ (Nat.le_refl _) h
  obtain ⟨hreceive, kreceive⟩ := flushReceiveQueue_spec _ _ (Nat.le_refl _)
    (by rw [hsend]; exact hinbound) ksend.counted
  refine ⟨Eq.trans hreceive ?_, ksend.memory.trans kreceive.memory, kreceive.counted⟩
  rw [hsend]

theorem dropRead_spec (h : Counted ctx.memory.refs (ctx.qp.leases + others)) :
    ctx.dropRead.qp = ((ctx.qp.setReadMemory none).setRead none).setReplay none ∧
      Keeps ctx.memory [] others ctx.dropRead := by
  obtain ⟨hqp, hkeeps⟩ := releaseRead_spec _ h
  have hcounted := hkeeps.counted
  simp only [dropRead, setQp_qp, hqp]
  refine ⟨trivial, hkeeps.memory, ?_⟩
  rw [hqp] at hcounted
  exact hcounted

/-- **Flushing every pending work request.** -/
theorem flushPending_spec (h : Counted ctx.memory.refs (ctx.qp.leases + others)) :
    ctx.flushPending.1.qp = ctx.qp.flushed ∧ Keeps ctx.memory [] others ctx.flushPending.1 := by
  obtain ⟨hactive, kactive⟩ := finishActive_spec _ h .flushed 0
  obtain ⟨hinbound, kinbound⟩ := finishInbound_spec _ kactive.counted .flushed
  obtain ⟨hread, kread⟩ := dropRead_spec _ kinbound.counted
  obtain ⟨hqueues, kqueues⟩ := flushQueues_spec _ (by rw [hread, hinbound]; rfl) kread.counted
  simp only [flushPending]
  refine ⟨?_, ((kactive.memory.trans kinbound.memory).trans kread.memory).trans kqueues.memory,
    kqueues.counted⟩
  rw [hqueues, hread, hinbound, hactive]
  exact ctx.qp.flushed_eq

/-- **Entering the error state.** -/
theorem enterError_spec (h : Counted ctx.memory.refs (ctx.qp.leases + others)) :
    ctx.enterError.1.qp = ctx.qp.failed ∧ Keeps ctx.memory [] others ctx.enterError.1 := by
  have henter : ctx.enterError =
      (ctx.setQp (ctx.qp.setMachine { ctx.qp.machine with state := .error })).flushPending := by
    unfold enterError
    split
    · rename_i hstate
      rw [← hstate]
      rfl
    · rw [QpStateMachine.transition_error]
  rw [henter]
  exact flushPending_spec
    (ctx.setQp (ctx.qp.setMachine { ctx.qp.machine with state := .error })) h

end QpContext

end Rocev2.Rc
