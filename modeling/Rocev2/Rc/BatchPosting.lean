import Rocev2.Rc.PostSequence

/-!
# Posting a batch is posting its requests one by one

The send queue and the receive queue are lawful.  A batch is accepted exactly when its requests are
accepted one by one, and the endpoint is then the same; a batch that is refused changes nothing.
-/

namespace Rocev2.Rc

open Rocev2.Core Rocev2.Memory

variable {QPS MRS SQ RQ CQ IDX : ℕ} {leases : List (RegionLease MRS)}

theorem saturatingAdd_add (a b c : ℕ) :
    saturatingAdd (saturatingAdd a b) c = saturatingAdd a (b + c) := by
  unfold saturatingAdd
  omega

theorem pushAll_entries {α : Type} {N : ℕ} (ring : Ring (PostedWork α MRS) N) {works : List α}
    (works' : List α) (leases' : List (RegionLease MRS)) (hlength : leases.length = works.length) :
    (ring.pushAll (entries works leases)).pushAll (entries works' leases') =
      ring.pushAll (entries (works ++ works') (leases ++ leases')) := by
  rw [← Ring.pushAll_append, entries, entries, entries,
    List.zipWith_append hlength.symm]

theorem remainingCapacity_pushAll {α : Type} {N : ℕ} {ring : Ring (PostedWork α MRS) N}
    {works : List α} (hlength : leases.length = works.length)
    (hroom : works.length ≤ ring.remainingCapacity) :
    (ring.pushAll (entries works leases)).remainingCapacity + works.length =
      ring.remainingCapacity := by
  obtain ⟨hitems, hentries⟩ := items_pushAll_entries hlength hroom
  have hbound := ring.length_le
  unfold Ring.remainingCapacity at hroom ⊢
  rw [hitems, List.length_append]
  omega

namespace RcEndpoint

section Count

variable {ep ep' : RcEndpoint QPS MRS SQ RQ CQ IDX}

theorem countWork_countWork (a b : ℕ) : (ep.countWork a).countWork b = ep.countWork (a + b) := by
  unfold countWork
  dsimp only
  rw [saturatingAdd_add]

theorem countReceive_countReceive (a b : ℕ) :
    (ep.countReceive a).countReceive b = ep.countReceive (a + b) := by
  unfold countReceive
  dsimp only
  rw [saturatingAdd_add]

theorem synchronizeQp_countWork (index : Fin QPS) (count : ℕ) :
    (ep.countWork count).synchronizeQp index = (ep.synchronizeQp index).countWork count := by
  cases hslot : ep.qps index with
  | none =>
    have hcounted : (ep.countWork count).qps index = none := hslot
    rw [synchronizeQp_of_none hslot, synchronizeQp_of_none hcounted]
    rfl
  | some slot =>
    have hcounted : (ep.countWork count).qps index = some slot := hslot
    rw [synchronizeQp_of_some hslot, synchronizeQp_of_some hcounted]
    rfl

theorem SameState.countWork (h : SameState ep ep') (count : ℕ) :
    SameState (ep.countWork count) (ep'.countWork count) := by
  rw [SameState, h]
  rfl

end Count

end RcEndpoint

namespace PostQueue

variable {memory memory' : MemoryRegistry MRS} {qp : QpTransport MRS SQ RQ CQ}
  {works : List WorkRequest}

theorem validate_congr (hsame : SameRegions memory memory') (kind : KeyKind)
    (required : AccessFlags) (key : UInt32) (address : UInt64) (length : ℕ) :
    memory'.validate kind required key address length = .ok () ↔
      memory.validate kind required key address length = .ok () := by
  rw [MemoryRegistry.validate_eq_ok, MemoryRegistry.validate_eq_ok]
  constructor
  · rintro ⟨index, slot, h⟩
    obtain ⟨slot', -, h'⟩ := h.congr hsame.symm
    exact ⟨index, slot', h'⟩
  · rintro ⟨index, slot, h⟩
    obtain ⟨slot', -, h'⟩ := h.congr hsame
    exact ⟨index, slot', h'⟩

theorem validatePostedWork_of_sameRegions (hsame : SameRegions memory memory') {work : WorkRequest}
    {mtu : ℕ} (h : RcEndpoint.validatePostedWork memory work mtu = .ok ()) :
    RcEndpoint.validatePostedWork memory' work mtu = .ok () := by
  unfold RcEndpoint.validatePostedWork at h ⊢
  dsimp only at h ⊢
  split at h
  · cases h
  rename_i hcount
  rw [if_neg hcount]
  cases hkind : work.kind with
  | send =>
    rw [hkind] at h
    dsimp only at h ⊢
    split at h
    · cases h
    · rename_i hread
      rw [MemoryRegistry.validateLocalRead, (validate_congr hsame ..).mpr hread]
  | rdmaWrite remoteAddress rkey =>
    rw [hkind] at h
    dsimp only at h ⊢
    split at h
    · cases h
    · rename_i hread
      rw [MemoryRegistry.validateLocalRead, (validate_congr hsame ..).mpr hread]
      exact h
  | rdmaRead remoteAddress rkey =>
    rw [hkind] at h
    dsimp only at h ⊢
    split at h
    · cases h
    · rename_i hwrite
      rw [MemoryRegistry.validateLocalWrite, (validate_congr hsame ..).mpr hwrite]
      exact h

theorem requesterIsRunnable_workPosted (hne : works ≠ []) (hlength : leases.length = works.length)
    (hroom : works.length ≤ qp.sendQueue.remainingCapacity) :
    (qp.workPosted (qp.sendQueue.pushAll (entries works leases)) works).requesterIsRunnable =
      match qp.activeRequest with
      | some active => decide (active.phase = .sending)
      | none => qp.machine.canSend := by
  obtain ⟨hitems, hentries⟩ := items_pushAll_entries hlength hroom
  have hsome : (qp.sendQueue.pushAll (entries works leases)).isEmpty = false := by
    rw [Ring.isEmpty, hitems, List.isEmpty_eq_false_iff, ← List.length_pos_iff, List.length_append]
    have hpos := List.length_pos_iff.mpr hne
    omega
  change (match qp.activeRequest with
    | some active => decide (active.phase = RequestPhase.sending)
    | none => qp.machine.canSend && !(qp.sendQueue.pushAll (entries works leases)).isEmpty) = _
  rw [hsome, Bool.not_false, Bool.and_true]

theorem sameDemand_workPosted {works' : List WorkRequest} {leases' : List (RegionLease MRS)}
    (hne : works ≠ []) (hfirst : leases.length = works.length)
    (hlength : (leases ++ leases').length = (works ++ works').length)
    (hroom : (works ++ works').length ≤ qp.sendQueue.remainingCapacity) :
    RcEndpoint.SameDemand (qp.workPosted (qp.sendQueue.pushAll (entries works leases)) works)
      (qp.workPosted (qp.sendQueue.pushAll (entries (works ++ works') (leases ++ leases')))
        (works ++ works')) := by
  refine ⟨?_, rfl, rfl⟩
  have hall := List.append_ne_nil_of_left_ne_nil hne works'
  have hpart : works.length ≤ qp.sendQueue.remainingCapacity := by
    rw [List.length_append] at hroom
    omega
  rw [requesterIsRunnable_workPosted hall hlength hroom,
    requesterIsRunnable_workPosted hne hfirst hpart]

theorem send_lawful : (send : PostQueue WorkRequest QPS MRS SQ RQ CQ IDX).Lawful where
  check_congr hsame mtu work :=
    ⟨validatePostedWork_of_sameRegions hsame.symm, validatePostedWork_of_sameRegions hsame⟩
  machine_put _ _ _ := rfl
  reserved_put _ _ _ := ⟨rfl, rfl⟩
  room_put := remainingCapacity_pushAll
  put_put qp works works' leases leases' hlength := by
    dsimp only [send, QpTransport.workPosted]
    rw [pushAll_entries _ _ _ hlength, Nat.add_assoc, ← List.length_append, List.append_assoc]
  frame_finish {ep index slot} hslot count := by
    obtain ⟨-, hmemory, -⟩ := RcEndpoint.frame_synchronizeQp ep index
    have hqps := RcEndpoint.qps_synchronizeQp ep index index
    rw [hslot] at hqps
    obtain ⟨slot', hslot', heq⟩ := Option.map_eq_some_iff.mp hqps
    exact ⟨hmemory, slot', hslot', congrArg Prod.fst heq, congrArg Prod.snd heq⟩
  finish_finish {ep index slot works works' leases leases'} hslot hlen hne hfirst hlength hroom
      memory memory' := by
    have hload := RcEndpoint.qps_load hslot memory
      (slot.workPosted (slot.sendQueue.pushAll (entries works leases)) works)
    have hload' := RcEndpoint.qps_load hslot memory'
      (slot.workPosted (slot.sendQueue.pushAll (entries (works ++ works') (leases ++ leases')))
        (works ++ works'))
    have hdemand := sameDemand_workPosted hne hfirst hlength hroom
    dsimp only [send]
    change RcEndpoint.SameState (((((ep.load index memory _).synchronizeQp index).load index memory'
      _).countWork works.length).synchronizeQp index |>.countWork works'.length)
      (((ep.load index memory' _).synchronizeQp index).countWork (works ++ works').length)
    rw [RcEndpoint.synchronizeQp_countWork, RcEndpoint.countWork_countWork,
      RcEndpoint.synchronizeQp_load hload hdemand, RcEndpoint.load_load hslot, List.length_append]
    exact (RcEndpoint.synchronizeQp_idem hload' hlen).countWork _

theorem receive_lawful : (receive : PostQueue RecvWorkRequest QPS MRS SQ RQ CQ IDX).Lawful where
  check_congr hsame mtu work := mapError_eq_ok.trans ((validate_congr hsame ..).trans
    mapError_eq_ok.symm)
  machine_put _ _ _ := rfl
  reserved_put _ _ _ := ⟨rfl, rfl⟩
  room_put := remainingCapacity_pushAll
  put_put qp works works' leases leases' hlength := by
    dsimp only [receive, QpTransport.receivePosted]
    rw [pushAll_entries _ _ _ hlength, Nat.add_assoc, ← List.length_append, List.append_assoc]
  frame_finish hslot count := ⟨rfl, _, hslot, rfl, rfl⟩
  finish_finish {ep index slot works works' leases leases'} hslot hlen hne hfirst hlength hroom
      memory memory' := by
    change RcEndpoint.SameState ((((ep.load index memory _).load index memory'
      _).countReceive works.length).countReceive works'.length)
      ((ep.load index memory' _).countReceive (works ++ works').length)
    rw [RcEndpoint.countReceive_countReceive, RcEndpoint.load_load hslot, List.length_append]
    exact .refl _

end PostQueue

/-! ## Batches and sequences -/

/-- A batch function and a function for one request that agree. -/
structure BatchAgrees {α : Type} (ep : RcEndpoint QPS MRS SQ RQ CQ IDX)
    (batch : List α → RcEndpoint QPS MRS SQ RQ CQ IDX × Except ApiError ℕ)
    (post : RcEndpoint QPS MRS SQ RQ CQ IDX → α →
      RcEndpoint QPS MRS SQ RQ CQ IDX × Except ApiError Unit) (works : List α) : Prop where
  /-- The batch succeeds exactly when the requests succeed one by one. -/
  succeeds : (∃ count, (batch works).2 = .ok count) ↔ (postOneByOne post ep works).2 = .ok ()
  /-- A batch that succeeds leaves the endpoint that the requests leave one by one. -/
  state : ∀ count, (batch works).2 = .ok count →
    RcEndpoint.SameState (postOneByOne post ep works).1 (batch works).1
  /-- A batch that fails changes nothing. -/
  atomic : ∀ e, (batch works).2 = .error e → (batch works).1 = ep

theorem PostQueue.Lawful.batchAgrees {α : Type} {queue : PostQueue α QPS MRS SQ RQ CQ IDX}
    (hlaws : queue.Lawful) {handle : QpHandle}
    {post : RcEndpoint QPS MRS SQ RQ CQ IDX → α →
      RcEndpoint QPS MRS SQ RQ CQ IDX × Except ApiError Unit}
    (hpost : ∀ ep work ep', post ep work = (ep', .ok ()) ↔ queue.Posts ep handle [work] ep')
    (hreachable : ∀ ep work, ep.Reachable → (post ep work).1.Reachable)
    {ep : RcEndpoint QPS MRS SQ RQ CQ IDX} (h : ep.Reachable) (works : List α) :
    BatchAgrees ep (queue.postBatch ep handle) post works := by
  by_cases hne : works = []
  · subst hne
    have hempty : queue.postBatch ep handle [] = (ep, .ok 0) := if_pos rfl
    refine ⟨⟨fun _ ↦ rfl, fun _ ↦ ⟨0, ?_⟩⟩, fun count hok ↦ ?_, fun e herror ↦ ?_⟩
    · rw [hempty]
    · rw [hempty]
      exact .refl _
    · rw [hempty]
  rcases queue.postBatch_cases handle hne ⟨_, h.inv.counted⟩ with
    ⟨e, hbatch⟩ | ⟨whole, hbatch, hposts⟩
  · refine ⟨⟨?_, fun hall ↦ ?_⟩, fun count hok ↦ ?_, fun e herror ↦ ?_⟩
    · rintro ⟨count, hok⟩
      rw [hbatch] at hok
      cases hok
    · obtain ⟨whole, hposts, -⟩ := posts_of_oneByOne hlaws hpost hreachable hne h
        (Prod.ext rfl hall : postOneByOne post ep works = (_, .ok ()))
      cases hbatch.symm.trans (postBatch_of_posts hne hposts)
    · rw [hbatch] at hok
      cases hok
    · rw [hbatch]
  · obtain ⟨ep', hall, hsame⟩ := oneByOne_of_posts hlaws hpost hreachable hne h hposts
    refine ⟨⟨fun _ ↦ ?_, fun _ ↦ ⟨_, congrArg Prod.snd hbatch⟩⟩, fun count _ ↦ ?_,
      fun e herror ↦ ?_⟩
    · rw [hall]
    · rw [hbatch, hall]
      exact hsame
    · rw [hbatch] at herror
      cases herror

/-- **Posting a batch is posting its requests one by one, and is atomic**, for the send queue and
for the receive queue of every reachable endpoint. -/
theorem batch_posting_is_sequential {ep : RcEndpoint QPS MRS SQ RQ CQ IDX} (h : ep.Reachable)
    (handle : QpHandle) :
    (∀ works, BatchAgrees ep (ep.postWorkBatch handle) (fun ep work ↦ ep.postWork handle work)
      works) ∧
    ∀ works, BatchAgrees ep (ep.postReceiveBatch handle)
      (fun ep work ↦ ep.postReceive handle work) works := by
  refine ⟨fun works ↦ ?_, fun works ↦ ?_⟩
  · have hbatch : ep.postWorkBatch handle = PostQueue.send.postBatch ep handle :=
      funext fun works ↦ postWorkBatch_eq works
    rw [hbatch]
    exact PostQueue.send_lawful.batchAgrees (fun _ _ _ ↦ by rw [postWork_eq, PostQueue.post_eq_ok])
      (fun ep work h ↦ h.step (.postWork handle work)) h works
  · have hbatch : ep.postReceiveBatch handle = PostQueue.receive.postBatch ep handle :=
      funext fun works ↦ postReceiveBatch_eq works
    rw [hbatch]
    exact PostQueue.receive_lawful.batchAgrees
      (fun _ _ _ ↦ by rw [postReceive_eq, PostQueue.post_eq_ok])
      (fun ep work h ↦ h.step (.postReceive handle work)) h works

theorem batch_posting_is_sequential_ready :
    ((Sample.single.steps (Sample.ready 1 1)).postWorkBatch Sample.handle
      [⟨1, .send, Sample.sge 4, true⟩, ⟨2, .send, Sample.sge 8, true⟩]).2 = .ok 2 ∧
    (postOneByOne (fun ep work ↦ ep.postWork Sample.handle work)
      (Sample.single.steps (Sample.ready 1 1))
      [⟨1, .send, Sample.sge 4, true⟩, ⟨2, .send, Sample.sge 8, true⟩]).2 = .ok () := by
  have hbatch : ((Sample.single.steps (Sample.ready 1 1)).postWorkBatch Sample.handle
      [⟨1, .send, Sample.sge 4, true⟩, ⟨2, .send, Sample.sge 8, true⟩]).2 = .ok 2 := by
    decide +kernel
  exact ⟨hbatch, ((batch_posting_is_sequential (Sample.single_reachable _) Sample.handle).1
    _).succeeds.mp ⟨2, hbatch⟩⟩

end Rocev2.Rc
