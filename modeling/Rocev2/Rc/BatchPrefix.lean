import Rocev2.Rc.Reachable

/-!
# A batch commits the accepted prefix

The backend may accept any prefix of the packets that a batched progress call has staged.
`RcEndpoint.staging` follows such a call until the packets are staged, and `PrefixCommitted` says
what the rest of the call does with them: the accepted packets advance their queue pairs, and the
others leave no trace.

An accepted SEND or WRITE packet moves the request to its next packet.  A READ request is a single
packet that is answered by many, so it does not move on: it waits for its responses.
-/

namespace Rocev2.Rc

open Rocev2.Core Rocev2.Wire

variable {QPS MRS SQ RQ CQ IDX : ℕ}

/-! ## Advancing a queue pair -/

section Advance

variable {index : Fin QPS} {accepted : List (PreparedTx QPS × ℕ)} {qp : QpTransport MRS SQ RQ CQ}
  {nextClass : DataTxClass} {response : ReadResponseState}

theorem advanceAll_append (accepted accepted' : List (PreparedTx QPS × ℕ)) (now : ℕ)
    (index : Fin QPS) (qp : QpTransport MRS SQ RQ CQ) :
    advanceAll (accepted ++ accepted') now index qp =
      advanceAll accepted' now index (advanceAll accepted now index qp) :=
  List.foldl_append

theorem half_advanceAll {kind : DataTxClass} (h : index ∉ slotsOf kind accepted) (now : ℕ)
    (qp : QpTransport MRS SQ RQ CQ) :
    (advanceAll accepted now index qp).half kind = qp.half kind := by
  induction accepted generalizing qp with
  | nil => rfl
  | cons prepared accepted ih =>
    have hrest : index ∉ slotsOf kind accepted := by
      intro hmem
      obtain ⟨other, hother, hslot⟩ := List.mem_filterMap.mp hmem
      exact h (List.mem_filterMap.mpr ⟨other, List.mem_cons_of_mem _ hother, hslot⟩)
    have hfirst : prepared.1.slotIn kind ≠ some index := fun hslot ↦
      h (List.mem_filterMap.mpr ⟨prepared, List.mem_cons_self, hslot⟩)
    exact (ih hrest _).trans (half_advance hfirst now qp)

theorem notMem_of_nodup {kind : DataTxClass} {prepared : PreparedTx QPS × ℕ}
    {before after : List (PreparedTx QPS × ℕ)}
    (hnodup : (slotsOf kind (before ++ prepared :: after)).Nodup)
    (hslot : prepared.1.slotIn kind = some index) :
    index ∉ slotsOf kind before ∧ index ∉ slotsOf kind after := by
  have hself : slotsOf kind (prepared :: after) = index :: slotsOf kind after :=
    List.filterMap_cons_some hslot
  rw [slotsOf_append, hself] at hnodup
  obtain ⟨-, hafter, hapart⟩ := List.nodup_append.mp hnodup
  exact ⟨fun hmem ↦ hapart index hmem index List.mem_cons_self rfl, (List.nodup_cons.mp hafter).1⟩

/-- **An accepted requester packet is accounted for once.** -/
theorem activeRequest_advanceAll_mem {now timeoutTicks length : ℕ}
    (hnodup : (slotsOf .requester accepted).Nodup)
    (hmem : (.requester index timeoutTicks nextClass, length) ∈ accepted) {active : ActiveRequest}
    (hactive : qp.activeRequest = some active) :
    (advanceAll accepted now index qp).activeRequest =
      some (active.packetSent now timeoutTicks) := by
  obtain ⟨before, after, rfl⟩ := List.append_of_mem hmem
  obtain ⟨hbefore, hafter⟩ := notMem_of_nodup hnodup rfl
  have hkept := (Sum.inl.inj (half_advanceAll hbefore now qp)).trans hactive
  rw [advanceAll_append]
  refine (Sum.inl.inj (half_advanceAll hafter now _)).trans ?_
  dsimp only [PreparedTx.advance]
  rw [if_pos rfl, markRequestPacketSent, hkept]
  rfl

theorem readResponse_readAdvanced (h : qp.readResponse = some response) :
    qp.readAdvanced.readResponse =
      if response.nextPacket + 1 = response.packetCount then none
      else some { response with nextPacket := response.nextPacket + 1 } := by
  unfold QpTransport.readAdvanced
  rw [h]
  dsimp only
  split <;> rfl

/-- **An accepted READ response packet is accounted for once.** -/
theorem readResponse_advanceAll_mem {now length : ℕ} (hnodup : (slotsOf .responder accepted).Nodup)
    (hmem : (.responder index nextClass, length) ∈ accepted)
    (hresponse : qp.readResponse = some response) :
    (advanceAll accepted now index qp).readResponse =
      if response.nextPacket + 1 = response.packetCount then none
      else some { response with nextPacket := response.nextPacket + 1 } := by
  obtain ⟨before, after, rfl⟩ := List.append_of_mem hmem
  obtain ⟨hbefore, hafter⟩ := notMem_of_nodup hnodup rfl
  have hkept := (Sum.inr.inj (half_advanceAll hbefore now qp)).trans hresponse
  rw [advanceAll_append]
  refine (Sum.inr.inj (half_advanceAll hafter now _)).trans ?_
  dsimp only [PreparedTx.advance]
  rw [if_pos rfl, readResponse_readAdvanced hkept]

theorem ActiveRequest.packetSent_advances (active : ActiveRequest) (now timeoutTicks : ℕ) :
    (active.packetSent now timeoutTicks).nextPacket =
        (if active.work.kind.isRead then active.nextPacket else active.nextPacket + 1) ∧
      (active.work.kind.isRead = true →
        (active.packetSent now timeoutTicks).phase = .waiting) := by
  unfold ActiveRequest.packetSent
  cases active.work.kind with
  | send | rdmaWrite =>
    refine ⟨?_, nofun⟩
    dsimp only [WorkRequestKind.isRead]
    split <;> rfl
  | rdmaRead => exact ⟨rfl, fun _ ↦ rfl⟩

end Advance

/-! ## The batch of a call -/

/-- **What becomes of a staged batch.**  The endpoint is `mid` before the packets are staged,
`loaded` when they are submitted, and `final` at the end of the call. -/
structure PrefixCommitted (now accepted : ℕ) (mid loaded final : RcEndpoint QPS MRS SQ RQ CQ IDX)
    (staged : List (PreparedTx QPS × ℕ)) (progress : RcProgress) : Prop where
  /-- Staging starts requests and does nothing else to the queue pairs. -/
  starts : Starts mid loaded
  /-- A queue pair contributes at most one packet of each class. -/
  once : ∀ kind, (slotsOf kind staged).Nodup
  /-- Every staged packet is handed to the backend, and an accepted one is the next packet of its
  queue pair in the state that it is committed against. -/
  carries : ∃ packets, loaded.offered = mid.offered ++ packets ∧ packets.length = staged.length ∧
    ∀ j prepared packet, j < accepted → staged[j]? = some prepared → packets[j]? = some packet →
      Carries (RcEndpoint.commitAcceptedBatch now (staged.take j) loaded progress none).1.engine.qps
        prepared.1 packet
  /-- No commit fails. -/
  silent : (RcEndpoint.commitAcceptedBatch now (staged.take accepted) loaded progress none).2.2 =
    none
  /-- An accepted requester packet advances the request: a SEND or WRITE by one packet, a READ to
  the phase in which it waits for responses. -/
  requested : ∀ index timeoutTicks nextClass length,
    (.requester index timeoutTicks nextClass, length) ∈ staged.take accepted →
    ∃ qp active qp' active', loaded.engine.qps index = some qp ∧ qp.activeRequest = some active ∧
      final.engine.qps index = some qp' ∧ qp'.activeRequest = some active' ∧
      active' = active.packetSent now timeoutTicks ∧
      active'.nextPacket =
        (if active.work.kind.isRead then active.nextPacket else active.nextPacket + 1) ∧
      (active.work.kind.isRead = true → active'.phase = .waiting)
  /-- Every other request is as it was when the packets were submitted. -/
  unrequested : ∀ index, index ∉ slotsOf .requester (staged.take accepted) →
    (final.engine.qps index).map QpTransport.activeRequest =
      (loaded.engine.qps index).map QpTransport.activeRequest
  /-- An accepted READ response packet advances the response by one packet. -/
  responded : ∀ index nextClass length,
    (.responder index nextClass, length) ∈ staged.take accepted →
    ∃ qp response qp', loaded.engine.qps index = some qp ∧ qp.readResponse = some response ∧
      final.engine.qps index = some qp' ∧ qp'.readResponse =
        if response.nextPacket + 1 = response.packetCount then none
        else some { response with nextPacket := response.nextPacket + 1 }
  /-- Every other READ response is as it was. -/
  unresponded : ∀ index, index ∉ slotsOf .responder (staged.take accepted) →
    (final.engine.qps index).map QpTransport.readResponse =
      (loaded.engine.qps index).map QpTransport.readResponse
  /-- The accepted replies, and no others, leave the head of the queue. -/
  replies : repliesOf (staged.take accepted) ++ final.pendingControl.items =
    mid.pendingControl.items

section Prefix

variable {allowed : EngineEvent QPS → Prop} {start : Engine QPS MRS SQ RQ CQ}
  {turns : List (Activity QPS MRS SQ RQ CQ)} {next : DataTxClass}
  {staged : List (PreparedTx QPS × ℕ)} {packets : List WirePacket}
  {mid loaded final : RcEndpoint QPS MRS SQ RQ CQ IDX} {now accepted : ℕ}

theorem repliesOf_take_of_le (staged : List (PreparedTx QPS × ℕ)) (k : ℕ) :
    repliesOf (staged.take k) <+: repliesOf staged := by
  refine ⟨repliesOf (staged.drop k), ?_⟩
  rw [← repliesOf_append, List.take_append_drop]

/-- **Commits advance what was accepted.** -/
theorem Owed.prefixCommitted (hint : Internal allowed now)
    (h : Owed allowed start turns next staged packets loaded) (hstarts : Starts mid loaded)
    (hoffered : loaded.offered = mid.offered ++ packets) (progress : RcProgress)
    (hfinal : Committed now (staged.take accepted) loaded final) :
    PrefixCommitted now accepted mid loaded final staged progress := by
  have hnodup : ∀ kind, (slotsOf kind (staged.take accepted)).Nodup := by
    intro kind
    have hsub : (slotsOf kind (staged.take accepted)).Sublist (slotsOf kind staged) :=
      (List.take_sublist _ _).filterMap _
    exact hsub.nodup (h.nodup kind)
  have hsplit : ∀ k, Owed allowed start turns next (staged.take k ++ staged.drop k) packets
      loaded := by
    intro k
    rw [List.take_append_drop]
    exact h
  -- a packet that is accepted is carried by a queue pair of the loaded endpoint
  have hcarried : ∀ prepared ∈ staged.take accepted, ∃ packet,
      Carries loaded.engine.qps prepared.1 packet := by
    intro prepared hmem
    obtain ⟨hlength, hall⟩ := List.forall₂_iff_zip.mp h.carries
    obtain ⟨j, hj, hget⟩ := List.getElem_of_mem (List.mem_of_mem_take hmem)
    have hzip : (prepared, packets[j]) ∈ staged.zip packets :=
      List.mem_iff_getElem.mpr ⟨j, by simp [hj, ← hlength], by simp [hget]⟩
    exact ⟨_, hall hzip⟩
  refine ⟨hstarts, h.nodup, ⟨packets, hoffered, h.carries.length_eq.symm, ?_⟩, ?_, ?_, ?_, ?_, ?_,
    ?_⟩
  · intro j prepared packet _ hprepared hpacket
    obtain ⟨⟨turns', next', howed, -⟩, -, -⟩ :=
      commitAcceptedBatch_commits hint (staged.drop j) (staged.take j) progress (hsplit j)
    have hj : j < staged.length := (List.getElem?_eq_some_iff.mp hprepared).1
    have htake : (staged.take j).length = j := List.length_take_of_le (Nat.le_of_lt hj)
    have hcarries := howed.carries
    rw [htake] at hcarries
    have hdrop : staged.drop j = prepared :: staged.drop (j + 1) := by
      rw [List.drop_eq_getElem_cons hj, (List.getElem?_eq_some_iff.mp hprepared).2]
    have hdrop' : packets.drop j = packet :: packets.drop (j + 1) := by
      obtain ⟨hlt, hget⟩ := List.getElem?_eq_some_iff.mp hpacket
      rw [List.drop_eq_getElem_cons hlt, hget]
    rw [hdrop, hdrop'] at hcarries
    exact (List.forall₂_cons.mp hcarries).1
  · exact (commitAcceptedBatch_commits hint (staged.drop accepted) (staged.take accepted) progress
      (hsplit accepted)).2.1
  · intro index timeoutTicks nextClass length hmem
    obtain ⟨packet, qp, active, hqp, hactive, -, -⟩ := hcarried _ hmem
    have hqp' := hfinal.qps index
    rw [hqp, Option.map_some] at hqp'
    obtain ⟨hnext, hphase⟩ := active.packetSent_advances now timeoutTicks
    exact ⟨qp, active, _, _, hqp, hactive, hqp',
      activeRequest_advanceAll_mem (hnodup .requester) hmem hactive, rfl, hnext, hphase⟩
  · intro index hother
    rw [hfinal.qps index, Option.map_map]
    exact congrFun (congrArg Option.map
      (funext fun qp ↦ Sum.inl.inj (half_advanceAll hother now qp))) _
  · intro index nextClass length hmem
    obtain ⟨packet, qp, response, hqp, hresponse, -⟩ := hcarried _ hmem
    have hqp' := hfinal.qps index
    rw [hqp, Option.map_some] at hqp'
    exact ⟨qp, response, _, hqp, hresponse, hqp',
      readResponse_advanceAll_mem (hnodup .responder) hmem hresponse⟩
  · intro index hother
    rw [hfinal.qps index, Option.map_map]
    exact congrFun (congrArg Option.map
      (funext fun qp ↦ Sum.inr.inj (half_advanceAll hother now qp))) _
  · have hprefix := (repliesOf_take_of_le staged accepted).trans h.replies
    rw [hfinal.pending, ← hstarts.pending]
    exact List.prefix_iff_eq_append.mp hprefix

end Prefix

theorem RcEndpoint.progressBatch_of_staging {ep mid loaded : RcEndpoint QPS MRS SQ RQ CQ IDX}
    {now budget : ℕ} {io : BatchIo} {staged : List (PreparedTx QPS × ℕ)} {progress : RcProgress}
    (h : ep.staging now budget io = some (mid, loaded, staged, progress)) :
    ∃ (frames : List (Option TxFrame)) (staging : Staging) (progress₀ : RcProgress)
      (preparationError : Option PollError), io.acquire = some frames ∧
      ep.beforeTransmit now budget io = (mid, .ok progress₀) ∧
      stageBatchPackets (frames.filterMap id) mid ⟨0, mid.nextDataTxClass, progress₀⟩ [] =
        (loaded, staging, staged, preparationError) ∧
      (ep.progressBatch now budget io).1 =
        (loaded.submitStagedBatch now io staged progress preparationError).1 := by
  unfold staging at h
  split at h
  · cases h
  rename_i hstart
  obtain ⟨hbudget, hreap⟩ := not_or.mp hstart
  split at h
  · rename_i mid' progress₀ frames hbefore hacquire
    split at h
    · cases h
    rename_i hframes
    split at h
    · cases h
    · rename_i loaded' staging prepared rest preparationError hstage
      cases h
      refine ⟨frames, staging, progress₀, preparationError, hacquire, hbefore, hstage, ?_⟩
      have hne : frames ≠ [] := by
        rintro rfl
        unfold stageBatchPackets at hstage
        cases hstage
      unfold beforeTransmit at hbefore
      dsimp only at hbefore
      unfold progressBatch
      dsimp only
      rw [if_neg hbudget, if_neg hreap, hbefore]
      dsimp only
      unfold transmitBatchPhase
      rw [hacquire]
      dsimp only
      rw [if_neg hframes, if_neg hne, hstage]
  · cases h

/-- **A batched transmit commits exactly the accepted prefix.**  From every reachable endpoint, for
every budget and every number of staged packets that the backend accepts, the first packets advance
and the others do not, as `PrefixCommitted` says. -/
theorem batch_commits_prefix {ep mid loaded : RcEndpoint QPS MRS SQ RQ CQ IDX} (h : ep.Reachable)
    {now budget : ℕ} {io : BatchIo} {staged : List (PreparedTx QPS × ℕ)} {progress : RcProgress}
    (hstaging : ep.staging now budget io = some (mid, loaded, staged, progress))
    (haccepted : io.accepted ≤ staged.length) (howned : io.ownershipOk = true) :
    PrefixCommitted now io.accepted mid loaded (ep.progressBatch now budget io).1 staged
      progress := by
  obtain ⟨frames, staging, progress₀, preparationError, hacquire, hbefore, hstage, hcall⟩ :=
    RcEndpoint.progressBatch_of_staging hstaging
  have hint : Internal (fun event : EngineEvent QPS ↦
      (Op.progressBatch now budget io).Causes event) now := fun event hevent ↦ .internal rfl hevent
  have hmid := (((h.here _).serviceTimers hint (min budget maxBatchPackets)).receiveBatchPhase
    (fun decoded hdelivers index ticksPerSecond ↦ .packet index ticksPerSecond hdelivers rfl)
    (min budget maxBatchPackets)
    { completions := (ep.serviceTimers now (min budget maxBatchPackets)).2.completions,
      retransmissions := (ep.serviceTimers now (min budget maxBatchPackets)).2.retransmissions }).1
  have hmid' : Holds _ ep.engine ep.books ∅ (ep.beforeTransmit now budget io).1 := hmid
  rw [hbefore] at hmid'
  have hstages := stageBatchPackets_stages hint (frames.filterMap id)
    ⟨0, mid.nextDataTxClass, progress₀⟩ hmid'.noneStaged rfl (List.append_nil _).symm
  rw [hstage] at hstages
  obtain ⟨⟨turns', packets, howed, hoffered, -⟩, hstarts, hexcused⟩ := hstages
  have hexcuse : ∀ e, preparationError = some e →
      BatchExcuse _ ep.engine io budget 0 staged.length e :=
    fun e herror ↦ (hexcused e herror).batch hacquire
  have hcommitted :=
    (howed.submitStagedBatch hint progress hexcuse
      (id : _ ∧ _ ∧ (Unreturned ep.turns → _) → _)).2 haccepted howned
  rw [← hcall] at hcommitted
  exact howed.prefixCommitted hint hstarts hoffered progress hcommitted

/-- A backend that lends two frames and accepts one packet. -/
def acceptsOne : BatchIo :=
  ⟨true, some [], true, some [some (.buffer 1500), some (.buffer 1500)], 1, false, true, true⟩

/-- Two queue pairs, each with a posted SEND of three packets. -/
def rivals : List Op :=
  Sample.ready 1 1 ++
    [.createQp ⟨Sample.transport 3 1 1, Sample.path, 2⟩, .transitionQp Sample.second .init,
      .transitionQp Sample.second .rtr, .transitionQp Sample.second .rts,
      .postWork Sample.handle ⟨1, .send, Sample.sge 600, true⟩,
      .postWork Sample.second ⟨2, .send, Sample.sge 600, true⟩]

def nextPacketAt (ep : RcEndpoint QPS MRS SQ RQ CQ IDX) (index : Fin QPS) : Option ℕ :=
  ((ep.qps index).bind fun slot ↦ slot.activeRequest).map fun active ↦ active.nextPacket

theorem batch_commits_prefix_rivals : ∃ mid loaded staged progress,
    (Sample.pair.steps rivals).staging 0 2 acceptsOne = some (mid, loaded, staged, progress) ∧
    slotsOf .requester staged = [0, 1] ∧
    PrefixCommitted 0 1 mid loaded ((Sample.pair.steps rivals).progressBatch 0 2 acceptsOne).1
      staged progress ∧
    nextPacketAt ((Sample.pair.steps rivals).progressBatch 0 2 acceptsOne).1 0 = some 1 ∧
    nextPacketAt ((Sample.pair.steps rivals).progressBatch 0 2 acceptsOne).1 1 = some 0 := by
  have htwo : ((Sample.pair.steps rivals).staging 0 2 acceptsOne).map (fun batch ↦
      (batch.2.2.1.length, slotsOf .requester batch.2.2.1)) = some (2, [0, 1]) := by
    decide +kernel
  obtain ⟨⟨mid, loaded, staged, progress⟩, hstaging, hstaged⟩ := Option.map_eq_some_iff.mp htwo
  obtain ⟨hlength, hslots⟩ := Prod.mk.inj hstaged
  have haccepted : acceptsOne.accepted ≤ staged.length := Nat.le_trans (by decide) hlength.ge
  exact ⟨mid, loaded, staged, progress, hstaging, hslots,
    batch_commits_prefix (RcEndpoint.reachable_steps Sample.pair_initial _) hstaging haccepted rfl,
    by decide +kernel, by decide +kernel⟩

/-- A queue pair with a posted request for 600 bytes. -/
def requested (kind : WorkRequestKind) : RcEndpoint 1 1 2 2 4 2 :=
  Sample.single.steps (Sample.ready 1 1 ++
    [.postWork Sample.handle ⟨1, kind, Sample.sge 600, true⟩])

/-- **An accepted READ request does not move on.**  The only packet of the batch is accepted, and
the next packet of the request is the first one before and after. -/
theorem read_request_not_advanced : ∃ (ep : RcEndpoint 1 1 2 2 4 2) (io : BatchIo),
    ep.Reachable ∧ ∃ mid loaded staged progress,
      ep.staging 0 2 io = some (mid, loaded, staged, progress) ∧
      io.accepted = staged.length ∧ slotsOf .requester staged = [0] ∧
      nextPacketAt loaded 0 = some 0 ∧ nextPacketAt (ep.progressBatch 0 2 io).1 0 = some 0 := by
  refine ⟨requested (.rdmaRead 0 1), acceptsOne, Sample.single_reachable _, ?_⟩
  have hbatch : ((requested (.rdmaRead 0 1)).staging 0 2 acceptsOne).map (fun batch ↦
      (batch.2.2.1.length, slotsOf .requester batch.2.2.1, nextPacketAt batch.2.1 0)) =
        some (1, [0], some 0) := by
    decide +kernel
  obtain ⟨⟨mid, loaded, staged, progress⟩, hstaging, hstaged⟩ := Option.map_eq_some_iff.mp hbatch
  rw [Prod.mk.injEq, Prod.mk.injEq] at hstaged
  obtain ⟨hlength, hslots, hnext⟩ := hstaged
  exact ⟨mid, loaded, staged, progress, hstaging, hlength.symm, hslots, hnext, by decide +kernel⟩

end Rocev2.Rc
