import Rocev2.Rc.Refinement

/-!
# Queues that take posted work

`post_work_batch` checks the capacity of the queues first, then validates every request, then takes
every lease; `post_work` does all three for one request.  Both are described by one relation: a list
of requests is *admitted* by a queue pair when it fits, every request is valid and every lease can
be taken in order.

The send queue and the receive queue differ in the states that accept work, the validation, the ring
and in whether the schedulers have to be told; a `PostQueue` collects these.  The two functions that
post are stated for such a queue, and the four functions of the endpoint are instances of them.
-/

namespace Rocev2.Rc

open Rocev2.Core Rocev2.Memory Rocev2.Lib

variable {QPS MRS SQ RQ CQ IDX : ℕ} {ep : RcEndpoint QPS MRS SQ RQ CQ IDX}
  {slot : RcQpSlot MRS SQ RQ CQ}

theorem RcEndpoint.setSlot_self {index : Fin QPS} (hslot : ep.qps index = some slot) :
    ep.setSlot index slot = ep := by
  rw [setSlot, ← hslot, Function.update_eq_self]

namespace RcEndpoint

def load (ep : RcEndpoint QPS MRS SQ RQ CQ IDX) (index : Fin QPS) (memory : MemoryRegistry MRS)
    (qp : QpTransport MRS SQ RQ CQ) : RcEndpoint QPS MRS SQ RQ CQ IDX :=
  { ep with
    memory := memory
    qps := Function.update ep.qps index
      ((ep.qps index).map fun slot ↦ { slot with toQpTransport := qp }) }

theorem load_of_some {index : Fin QPS} (h : ep.qps index = some slot) (memory : MemoryRegistry MRS)
    (qp : QpTransport MRS SQ RQ CQ) :
    ep.load index memory qp =
      { ep with memory := memory }.setSlot index { slot with toQpTransport := qp } := by
  rw [load, h]
  rfl

def countWork (ep : RcEndpoint QPS MRS SQ RQ CQ IDX) (count : ℕ) :
    RcEndpoint QPS MRS SQ RQ CQ IDX :=
  { ep with stats := { ep.stats with
    postedWorkRequests := saturatingAdd ep.stats.postedWorkRequests count } }

def countReceive (ep : RcEndpoint QPS MRS SQ RQ CQ IDX) (count : ℕ) :
    RcEndpoint QPS MRS SQ RQ CQ IDX :=
  { ep with stats := { ep.stats with
    postedReceiveRequests := saturatingAdd ep.stats.postedReceiveRequests count } }

end RcEndpoint

theorem items_pushAll_entries {α : Type} {N : ℕ} {ring : Ring (PostedWork α MRS) N} {works : List α}
    {leases : List (RegionLease MRS)} (hlength : leases.length = works.length)
    (hroom : works.length ≤ ring.remainingCapacity) :
    (ring.pushAll (entries works leases)).items = ring.items ++ entries works leases ∧
      (entries works leases).length = works.length := by
  have hentries : (entries works leases).length = works.length := by
    rw [entries, List.length_zipWith, hlength, Nat.min_self]
  refine ⟨Ring.items_pushAll _ _ ?_, hentries⟩
  have hbound := ring.length_le
  unfold Ring.remainingCapacity at hroom
  omega

/-! ## A queue that takes posted work -/

theorem findSome_errorOf {α ε : Type} {works : List α} {check : α → Except ε Unit} :
    works.findSome? (fun work ↦ RcEndpoint.errorOf (check work)) = none ↔
      ∀ work ∈ works, check work = .ok () := by
  rw [List.findSome?_eq_none_iff]
  refine forall₂_congr fun work _ ↦ ?_
  cases check work with
  | ok => exact ⟨fun _ ↦ rfl, fun _ ↦ rfl⟩
  | error => exact ⟨nofun, nofun⟩

/-- What distinguishes posting to the send queue from posting to the receive queue. -/
structure PostQueue (α : Type) (QPS MRS SQ RQ CQ IDX : ℕ) where
  /-- The name of the queue. -/
  kind : QueueKind
  /-- The states in which work is accepted. -/
  ready : QpState → Bool
  /-- The free entries of the ring. -/
  room : QpTransport MRS SQ RQ CQ → ℕ
  /-- The validation of a request, under a path MTU. -/
  check : MemoryRegistry MRS → ℕ → α → Except ApiError Unit
  /-- The key of the scatter entry of a request. -/
  key : α → UInt32
  /-- Put leased requests into the ring and reserve their completions. -/
  put : QpTransport MRS SQ RQ CQ → List α → List (RegionLease MRS) → QpTransport MRS SQ RQ CQ
  /-- Tell the schedulers and count the requests. -/
  finish : RcEndpoint QPS MRS SQ RQ CQ IDX → Fin QPS → ℕ → RcEndpoint QPS MRS SQ RQ CQ IDX

namespace PostQueue

variable {α : Type} {queue : PostQueue α QPS MRS SQ RQ CQ IDX}
  {memory memory' : MemoryRegistry MRS} {qp : QpTransport MRS SQ RQ CQ} {works : List α}
  {leases : List (RegionLease MRS)} {ep ep' : RcEndpoint QPS MRS SQ RQ CQ IDX}
  {handle : QpHandle} {work : α}

/-- The queue pair takes the requests with these leases. -/
structure Admits (queue : PostQueue α QPS MRS SQ RQ CQ IDX) (memory : MemoryRegistry MRS)
    (qp : QpTransport MRS SQ RQ CQ) (works : List α) (leases : List (RegionLease MRS))
    (memory' : MemoryRegistry MRS) : Prop where
  ready : queue.ready qp.machine.state = true
  room : works.length ≤ queue.room qp
  completions : qp.completionQueue.len + qp.completionReservations + works.length ≤ CQ
  valid : ∀ work ∈ works, queue.check memory qp.mtu work = .ok ()
  retains : Retains memory (works.map queue.key) leases memory'

def Posts (queue : PostQueue α QPS MRS SQ RQ CQ IDX) (ep : RcEndpoint QPS MRS SQ RQ CQ IDX)
    (handle : QpHandle) (works : List α) (ep' : RcEndpoint QPS MRS SQ RQ CQ IDX) : Prop :=
  ∃ index slot leases memory', ep.qpIndex handle = some (index, slot) ∧
    queue.Admits ep.memory slot.toQpTransport works leases memory' ∧
    ep' = queue.finish (ep.load index memory' (queue.put slot.toQpTransport works leases)) index
      works.length

theorem Admits.length_eq (h : queue.Admits memory qp works leases memory') :
    leases.length = works.length := by
  rw [h.retains.length_eq, List.length_map]

/-- Post one request. -/
def post (queue : PostQueue α QPS MRS SQ RQ CQ IDX) (ep : RcEndpoint QPS MRS SQ RQ CQ IDX)
    (handle : QpHandle) (work : α) : RcEndpoint QPS MRS SQ RQ CQ IDX × Except ApiError Unit :=
  match ep.qpIndex handle with
  | none => (ep, .error .invalidQpHandle)
  | some (index, slot) =>
    if queue.ready slot.machine.state = false then (ep, .error (.qpNotReady slot.machine.state))
    else
      match queue.check ep.memory slot.mtu work with
      | .error e => (ep, .error e)
      | .ok () =>
        if queue.room slot.toQpTransport < 1 then (ep, .error (.queueFull queue.kind))
        else if slot.canReserveCompletion = false then (ep, .error (.queueFull .completion))
        else
          match ep.memory.retainLocal (queue.key work) with
          | .error e => (ep, .error (.memory e))
          | .ok (lease, memory) =>
            (queue.finish ({ ep with memory := memory }.setSlot index
              { slot with toQpTransport := queue.put slot.toQpTransport [work] [lease] }) index 1,
              .ok ())

/-- **A request is posted, or it is refused and changes nothing.** -/
theorem post_cases (queue : PostQueue α QPS MRS SQ RQ CQ IDX)
    (ep : RcEndpoint QPS MRS SQ RQ CQ IDX) (handle : QpHandle) (work : α) :
    (∃ e, queue.post ep handle work = (ep, .error e)) ∨
      ∃ ep', queue.post ep handle work = (ep', .ok ()) ∧ queue.Posts ep handle [work] ep' := by
  unfold post
  split
  · exact .inl ⟨_, rfl⟩
  rename_i index slot hlive
  obtain ⟨hslot, -, -⟩ := QpHandle.find_eq_some.mp hlive
  split
  · exact .inl ⟨_, rfl⟩
  rename_i hready
  split
  · exact .inl ⟨_, rfl⟩
  rename_i hvalid
  split
  · exact .inl ⟨_, rfl⟩
  rename_i hroom
  split
  · exact .inl ⟨_, rfl⟩
  rename_i hreserve
  split
  · exact .inl ⟨_, rfl⟩
  rename_i lease memory hretain
  refine .inr ⟨_, rfl, index, slot, [lease], memory, hlive, ⟨Bool.eq_true_of_not_eq_false hready,
    Nat.not_lt.mp hroom, ?_, ?_, .cons hretain (.nil _)⟩, ?_⟩
  · exact of_decide_eq_true (Bool.eq_true_of_not_eq_false hreserve)
  · exact List.forall_mem_singleton.mpr hvalid
  · rw [RcEndpoint.load_of_some hslot]
    rfl

/-- **One request is posted.** -/
theorem post_eq_ok :
    queue.post ep handle work = (ep', .ok ()) ↔ queue.Posts ep handle [work] ep' := by
  constructor
  · intro h
    rcases queue.post_cases ep handle work with ⟨e, herror⟩ | ⟨ep₁, hok, hposts⟩
    · cases h.symm.trans herror
    · cases h.symm.trans hok
      exact hposts
  · rintro ⟨index, slot, leases, memory, hlive, hadmits, rfl⟩
    obtain ⟨hslot, -, -⟩ := QpHandle.find_eq_some.mp hlive
    obtain ⟨lease, rfl, hretain⟩ := hadmits.retains.singleton
    have hroom : 1 ≤ queue.room slot.toQpTransport := hadmits.room
    have hreserve : slot.canReserveCompletion = true := decide_eq_true hadmits.completions
    rw [post, hlive]
    dsimp only
    rw [if_neg (Bool.eq_false_iff.not_left.mpr hadmits.ready),
      hadmits.valid work List.mem_cons_self]
    dsimp only
    rw [if_neg (Nat.not_lt.mpr hroom), if_neg (Bool.eq_false_iff.not_left.mpr hreserve), hretain,
      RcEndpoint.load_of_some hslot]
    rfl

/-- Post a batch of requests atomically. -/
def postBatch (queue : PostQueue α QPS MRS SQ RQ CQ IDX) (ep : RcEndpoint QPS MRS SQ RQ CQ IDX)
    (handle : QpHandle) (works : List α) :
    RcEndpoint QPS MRS SQ RQ CQ IDX × Except ApiError ℕ :=
  if works = [] then (ep, .ok 0)
  else
    match ep.qpIndex handle with
    | none => (ep, .error .invalidQpHandle)
    | some (index, slot) =>
      if queue.ready slot.machine.state = false then
        (ep, .error (.qpNotReady slot.machine.state))
      else if queue.room slot.toQpTransport < works.length then
        (ep, .error (.queueFull queue.kind))
      else if CQ - (slot.completionQueue.len + slot.completionReservations) < works.length then
        (ep, .error (.queueFull .completion))
      else
        match works.findSome? (fun work ↦
            RcEndpoint.errorOf (queue.check ep.memory slot.mtu work)) with
        | some e => (ep, .error e)
        | none =>
          match RcEndpoint.retainBatch ep.memory (works.map queue.key) [] with
          | (memory, .error e) => ({ ep with memory := memory }, .error (.memory e))
          | (memory, .ok leases) =>
            (queue.finish ({ ep with memory := memory }.setSlot index
              { slot with toQpTransport := queue.put slot.toQpTransport works leases }) index
                works.length, .ok works.length)

/-- **A batch is posted, or it is refused and changes nothing.** -/
theorem postBatch_cases (queue : PostQueue α QPS MRS SQ RQ CQ IDX) (handle : QpHandle)
    (hne : works ≠ []) (hcounted : ∃ held, Counted ep.memory.refs held) :
    (∃ e, queue.postBatch ep handle works = (ep, .error e)) ∨
      ∃ ep', queue.postBatch ep handle works = (ep', .ok works.length) ∧
        queue.Posts ep handle works ep' := by
  unfold postBatch
  rw [if_neg hne]
  split
  · exact .inl ⟨_, rfl⟩
  rename_i index slot hlive
  obtain ⟨hslot, -, -⟩ := QpHandle.find_eq_some.mp hlive
  split
  · exact .inl ⟨_, rfl⟩
  rename_i hready
  split
  · exact .inl ⟨_, rfl⟩
  rename_i hfits
  split
  · exact .inl ⟨_, rfl⟩
  rename_i hroom
  split
  · exact .inl ⟨_, rfl⟩
  rename_i hvalid
  split
  · rename_i memory e hretain
    obtain ⟨held, hcounted⟩ := hcounted
    rw [retainBatch_restores hcounted hretain]
    exact .inl ⟨_, rfl⟩
  rename_i memory leases hretain
  obtain ⟨_, rfl, hretains⟩ := retainBatch_eq_ok.mp hretain
  refine .inr ⟨_, rfl, index, slot, leases, memory, hlive, ⟨Bool.eq_true_of_not_eq_false hready,
    Nat.not_lt.mp hfits, ?_, findSome_errorOf.mp hvalid, hretains⟩, ?_⟩
  · have hpos := List.length_pos_iff.mpr hne
    change slot.completionQueue.len + slot.completionReservations + works.length ≤ CQ
    omega
  · rw [RcEndpoint.load_of_some hslot]

/-- **The batch function accepts requests that the queue pair can take.** -/
theorem postBatch_of_posts (hne : works ≠ []) (h : queue.Posts ep handle works ep') :
    queue.postBatch ep handle works = (ep', .ok works.length) := by
  obtain ⟨index, slot, leases, memory, hlive, hadmits, rfl⟩ := h
  obtain ⟨hslot, -, -⟩ := QpHandle.find_eq_some.mp hlive
  have hcompletions : slot.completionQueue.len + slot.completionReservations +
      works.length ≤ CQ := hadmits.completions
  have hretain := retainBatch_eq_ok.mpr ⟨leases, (List.nil_append _).symm, hadmits.retains⟩
  rw [postBatch, if_neg hne, hlive]
  dsimp only
  rw [if_neg (Bool.eq_false_iff.not_left.mpr hadmits.ready), if_neg (Nat.not_lt.mpr hadmits.room),
    if_neg (by omega), findSome_errorOf.mpr hadmits.valid]
  dsimp only
  rw [hretain, RcEndpoint.load_of_some hslot]

/-! ## The two queues -/

def send : PostQueue WorkRequest QPS MRS SQ RQ CQ IDX where
  kind := .send
  ready state := state = .rts
  room qp := qp.sendQueue.remainingCapacity
  check memory mtu work := RcEndpoint.validatePostedWork memory work mtu
  key work := work.sge.lkey
  put qp works leases := qp.workPosted (qp.sendQueue.pushAll (entries works leases)) works
  finish ep index count := (ep.synchronizeQp index).countWork count

/-- The receive queue. -/
def receive : PostQueue RecvWorkRequest QPS MRS SQ RQ CQ IDX where
  kind := .receive
  ready := RcEndpoint.canPostReceive
  room qp := qp.receiveQueue.remainingCapacity
  check memory _ work :=
    (memory.validateLocalWrite work.sge.lkey work.sge.address work.sge.length.toNat).mapError
      .memory
  key work := work.sge.lkey
  put qp works leases := qp.receivePosted (qp.receiveQueue.pushAll (entries works leases)) works
  finish ep _ count := ep.countReceive count

theorem mapError_eq_ok {ε ε' : Type} {check : Except ε Unit} {f : ε → ε'} :
    check.mapError f = .ok () ↔ check = .ok () := by
  cases check with
  | ok => simp [Except.mapError]
  | error => simp [Except.mapError]

/-- **Requests that the send queue takes are a step of the queue pair.** -/
theorem Admits.send_step {works : List WorkRequest} {held : Multiset (RegionLease MRS)}
    (h : (send : PostQueue _ QPS MRS SQ RQ CQ IDX).Admits memory qp works leases memory')
    (hcounted : Counted memory.refs (qp.leases + held)) :
    QpStep memory qp (.postWork works) []
        (qp.workPosted (qp.sendQueue.pushAll (entries works leases)) works) none ∧
      Copied memory [] memory' ∧ Counted memory'.refs
        ((qp.workPosted (qp.sendQueue.pushAll (entries works leases)) works).leases + held) := by
  obtain ⟨hleases, hcopy, hcounted'⟩ := h.retains.counted hcounted
  obtain ⟨hqueue, hlength⟩ := items_pushAll_entries h.length_eq h.room
  obtain ⟨hheld, hworks, hleased⟩ := entries_spec _ hleases
  refine ⟨?_, hcopy, ?_⟩
  · have hstep := QpStep.postWork (of_decide_eq_true h.ready) hqueue (hlength ▸ h.completions)
      (fun entry hmem ↦ h.valid entry.work ?_) hleased
    · rwa [hworks] at hstep
    · rw [← hworks]
      exact List.mem_map_of_mem hmem
  · rw [leases_workPosted hqueue, hheld, add_assoc]
    exact hcounted'

/-- **Requests that the receive queue takes are a step of the queue pair.** -/
theorem Admits.receive_step {works : List RecvWorkRequest} {held : Multiset (RegionLease MRS)}
    (h : (receive : PostQueue _ QPS MRS SQ RQ CQ IDX).Admits memory qp works leases memory')
    (hcounted : Counted memory.refs (qp.leases + held)) :
    QpStep memory qp (.postReceive works) []
        (qp.receivePosted (qp.receiveQueue.pushAll (entries works leases)) works) none ∧
      Copied memory [] memory' ∧ Counted memory'.refs
        ((qp.receivePosted (qp.receiveQueue.pushAll (entries works leases)) works).leases +
          held) := by
  obtain ⟨hleases, hcopy, hcounted'⟩ := h.retains.counted hcounted
  obtain ⟨hqueue, hlength⟩ := items_pushAll_entries h.length_eq h.room
  obtain ⟨hheld, hworks, hleased⟩ := entries_spec _ hleases
  refine ⟨?_, hcopy, ?_⟩
  · have hstep := QpStep.postReceive h.ready hqueue (hlength ▸ h.completions)
      (fun entry hmem ↦ mapError_eq_ok.mp (h.valid entry.work ?_)) hleased
    · rwa [hworks] at hstep
    · rw [← hworks]
      exact List.mem_map_of_mem hmem
  · rw [leases_receivePosted hqueue, hheld, add_assoc]
    exact hcounted'

end PostQueue

/-! ## The functions of the endpoint -/

section Functions

variable {handle : QpHandle}

theorem isFull_iff {α : Type} {N : ℕ} {ring : Ring α N} :
    ring.isFull = true ↔ ring.remainingCapacity < 1 := by
  unfold Ring.isFull Ring.remainingCapacity
  rw [decide_eq_true_iff]
  have hbound := ring.length_le
  omega

/-- `post_work` posts one request to the send queue. -/
theorem postWork_eq (work : WorkRequest) :
    ep.postWork handle work = PostQueue.send.post ep handle work := by
  unfold RcEndpoint.postWork PostQueue.post RcEndpoint.acceptWork
  cases hlive : ep.qpIndex handle with
  | none => rfl
  | some live =>
    obtain ⟨index, slot⟩ := live
    have hsame := RcEndpoint.setSlot_self (QpHandle.find_eq_some.mp hlive).1
    dsimp only [PostQueue.send, RcEndpoint.context]
    by_cases hstate : slot.machine.state = .rts
    swap
    · simp [hstate]
    simp only [hstate, ne_eq, not_true_eq_false, decide_true, Bool.true_eq_false, ↓reduceIte]
    cases RcEndpoint.validatePostedWork ep.memory work slot.mtu with
    | error e => rfl
    | ok =>
      dsimp only
      by_cases hroom : slot.sendQueue.remainingCapacity < 1
      · simp only [isFull_iff, hroom, ↓reduceIte]
        exact Prod.ext hsame rfl
      by_cases hreserve : slot.canReserveCompletion = false
      · simp only [isFull_iff, hroom, hreserve, ↓reduceIte]
        exact Prod.ext hsame rfl
      simp only [isFull_iff, hroom, hreserve, ↓reduceIte]
      cases ep.memory.retainLocal work.sge.lkey with
      | error e => exact Prod.ext hsame rfl
      | ok result =>
        dsimp only
        rw [Ring.push_eq_ok_pushAll.mpr ⟨Nat.not_lt.mp hroom, rfl⟩]
        rfl

/-- `post_receive` posts one request to the receive queue. -/
theorem postReceive_eq (work : RecvWorkRequest) :
    ep.postReceive handle work = PostQueue.receive.post ep handle work := by
  unfold RcEndpoint.postReceive PostQueue.post RcEndpoint.acceptReceive
  cases hlive : ep.qpIndex handle with
  | none => rfl
  | some live =>
    obtain ⟨index, slot⟩ := live
    have hsame := RcEndpoint.setSlot_self (QpHandle.find_eq_some.mp hlive).1
    dsimp only [PostQueue.receive, RcEndpoint.context]
    by_cases hstate : RcEndpoint.canPostReceive slot.machine.state = false
    · simp only [hstate, ↓reduceIte]
    simp only [hstate]
    cases ep.memory.validateLocalWrite work.sge.lkey work.sge.address work.sge.length.toNat with
    | error e => rfl
    | ok =>
      dsimp only [Except.mapError]
      by_cases hroom : slot.receiveQueue.remainingCapacity < 1
      · simp only [isFull_iff, hroom, ↓reduceIte]
        exact Prod.ext hsame rfl
      by_cases hreserve : slot.canReserveCompletion = false
      · simp only [isFull_iff, hroom, hreserve, ↓reduceIte]
        exact Prod.ext hsame rfl
      simp only [isFull_iff, hroom, hreserve, ↓reduceIte]
      cases ep.memory.retainLocal work.sge.lkey with
      | error e => exact Prod.ext hsame rfl
      | ok result =>
        dsimp only
        rw [Ring.push_eq_ok_pushAll.mpr ⟨Nat.not_lt.mp hroom, rfl⟩]
        rfl

theorem postWorkBatch_eq (works : List WorkRequest) :
    ep.postWorkBatch handle works = PostQueue.send.postBatch ep handle works := by
  unfold RcEndpoint.postWorkBatch PostQueue.postBatch
  by_cases hne : works = []
  · rw [if_pos hne, if_pos hne]
  rw [if_neg hne, if_neg hne]
  cases hlive : ep.qpIndex handle with
  | none => rfl
  | some result =>
    obtain ⟨index, slot⟩ := result
    dsimp only
    by_cases hstate : slot.machine.state = .rts
    · have hready : (PostQueue.send : PostQueue WorkRequest QPS MRS SQ RQ CQ IDX).ready
          slot.machine.state = true := decide_eq_true hstate
      rw [if_neg (not_not.mpr hstate), if_neg (Bool.eq_false_iff.not_left.mpr hready)]
      rfl
    · have hready : (PostQueue.send : PostQueue WorkRequest QPS MRS SQ RQ CQ IDX).ready
          slot.machine.state = false := decide_eq_false hstate
      rw [if_pos hstate, if_pos hready]

theorem findSome_mapError {α ε ε' : Type} (works : List α) (check : α → Except ε Unit)
    (f : ε → ε') :
    works.findSome? (fun work ↦ RcEndpoint.errorOf ((check work).mapError f)) =
      (works.findSome? fun work ↦ RcEndpoint.errorOf (check work)).map f := by
  rw [List.map_findSome?]
  congr 1
  funext work
  cases hcheck : check work with
  | ok => simp [RcEndpoint.errorOf, Except.mapError, hcheck]
  | error => simp [RcEndpoint.errorOf, Except.mapError, hcheck]

theorem postReceiveBatch_eq (works : List RecvWorkRequest) :
    ep.postReceiveBatch handle works = PostQueue.receive.postBatch ep handle works := by
  unfold RcEndpoint.postReceiveBatch PostQueue.postBatch
  dsimp only [PostQueue.receive]
  by_cases hne : works = []
  · rw [if_pos hne, if_pos hne]
  rw [if_neg hne, if_neg hne]
  cases hlive : ep.qpIndex handle with
  | none => rfl
  | some result =>
    obtain ⟨index, slot⟩ := result
    dsimp only
    rw [findSome_mapError]
    cases works.findSome? fun work ↦ RcEndpoint.errorOf (ep.memory.validateLocalWrite work.sge.lkey
      work.sge.address work.sge.length.toNat) with
    | some e => rfl
    | none => rfl

end Functions

end Rocev2.Rc
