import Rocev2.Rc.BatchCommit

/-!
# Batched progress refines the engine

Staging, submission and reception of a batch, from the steps of `Rocev2.Rc.BatchRefinement` and
`Rocev2.Rc.BatchCommit`.  `Stages` is the outcome of staging, `Submits` that of submitting what was
staged, and `BatchExcuse` lists what makes a batched progress call fail: the backend fails, breaks
its contract or lends a buffer that is too small, or an ACK timeout is not representable.
-/

namespace Rocev2.Rc

open Rocev2.Core Rocev2.Wire

variable {QPS MRS SQ RQ CQ IDX : ℕ}

section Batch

variable {allowed : EngineEvent QPS → Prop} {start : Engine QPS MRS SQ RQ CQ}
  {turns : List (Activity QPS MRS SQ RQ CQ)} {next : DataTxClass}
  {staged : List (PreparedTx QPS × ℕ)} {packets : List WirePacket}
  {ep ep' : RcEndpoint QPS MRS SQ RQ CQ IDX} {now : ℕ} {packet : WirePacket} {io : BatchIo}
  {wire : PreparedWirePacket} {e : PollError} {offered : List WirePacket} {budget room : ℕ}
  {errors : List (Option PollError)} {clean : Prop}

/-! ## Staging -/

/-- Why a packet was not staged. -/
inductive StageExcuse (allowed : EngineEvent QPS → Prop) (start : Engine QPS MRS SQ RQ CQ)
    (frames : List TxFrame) : PollError → Prop
  | /-- The backend does not lend its buffer. -/
    refused (hmem : .ioError ∈ frames) : StageExcuse allowed start frames .io
  | /-- An ACK timeout is not representable. -/
    late (h : ¬Punctual allowed start) :
      StageExcuse allowed start frames (.api .invalidTicksPerSecond)
  | /-- A frame is too small. -/
    short {length error} (hmem : .buffer length ∈ frames)
      (hlength : length < start.config.maximumPacketSize)
      (herror : error ≠ .invalidTicksPerSecond) : StageExcuse allowed start frames (.api error)

theorem Holds.encodeBatchPacket {books : Books QPS MRS SQ RQ CQ} {dirty : Set (Component × Fin QPS)}
    {sender : Option (DataTxClass × Fin QPS)} (hint : Internal allowed now)
    (h : Holds allowed start books dirty ep) (frame : TxFrame)
    (hpacket : RcEndpoint.preparedPacket ep.memory wire = .ok packet)
    (hemits : Emits ep.engine sender packet) :
    (∃ length, ep.encodeBatchPacket frame wire =
        ({ ep with offered := ep.offered ++ [packet] }, .ok length) ∧
      Holds allowed start books dirty { ep with offered := ep.offered ++ [packet] }) ∨
    ∃ stats e, ep.encodeBatchPacket frame wire = ({ ep with stats := stats }, .error e) ∧
      StageExcuse allowed start [frame] e := by
  have hoffer := h.offer (hint (.offer packet) trivial) hemits
  unfold RcEndpoint.encodeBatchPacket
  rw [hpacket]
  dsimp only
  cases frame with
  | ioError => exact .inr ⟨_, _, rfl, .refused List.mem_cons_self⟩
  | buffer output =>
    by_cases hroom : ep.config.maximumPacketSize ≤ output
    · obtain ⟨hencode, hfits⟩ := h.encodes hemits hroom
      dsimp only
      rw [hencode]
      dsimp only
      rw [if_neg (Nat.not_lt.mpr hfits)]
      exact .inl ⟨_, rfl, hoffer⟩
    · have hshort : output < start.config.maximumPacketSize := by
        rw [← h.config_eq]
        exact Nat.lt_of_not_le hroom
      dsimp only
      split
      · rename_i hencode
        exact .inr ⟨ep.stats, _, rfl,
          .short List.mem_cons_self hshort (encodeIpv4Packet_ne_ticks hencode)⟩
      split
      · exact .inr ⟨ep.stats, _, rfl, .short List.mem_cons_self hshort (by nofun)⟩
      · exact .inl ⟨_, rfl, hoffer⟩

theorem Owed.rollbackLast {tx : PreparedTx QPS} {length : ℕ}
    (h : Owed allowed start turns next (staged ++ [(tx, length)]) (packets ++ [packet]) ep) :
    ∃ turns', Owed allowed start turns' next staged packets (ep.rollbackPreparedTx tx) := by
  obtain ⟨hengine, hpending⟩ := rollbackPreparedTx_frame ep tx
  have hcarries : List.Forall₂ (fun prepared packet ↦
      Carries (ep.rollbackPreparedTx tx).engine.qps prepared.1 packet) staged packets := by
    have hlength : staged.length = packets.length := by
      have hboth := h.carries.length_eq
      simpa using hboth
    have htake := List.forall₂_take staged.length h.carries
    rw [List.take_left, List.take_left' hlength.symm] at htake
    rw [hengine]
    exact htake
  have hreplies : repliesOf staged <+: (ep.rollbackPreparedTx tx).pendingControl.items := by
    have hboth := h.replies
    rw [repliesOf_append] at hboth
    rw [hpending]
    exact (List.prefix_append _ _).trans hboth
  have hnodup : ∀ kind, (slotsOf kind staged).Nodup := by
    intro kind
    have hboth := h.nodup kind
    rw [slotsOf_append] at hboth
    exact (List.nodup_append.mp hboth).1
  suffices hholds : ∃ turns', Holds allowed start (booksOf turns' next staged) (dirtyOf staged)
      (ep.rollbackPreparedTx tx) by
    obtain ⟨turns', hholds⟩ := hholds
    exact ⟨turns', hholds, hnodup, hcarries, hreplies⟩
  cases htx : tx.qpIndex with
  | none =>
    have hslots : ∀ kind, slotsOf kind (staged ++ [(tx, length)]) = slotsOf kind staged := by
      intro kind
      rw [slotsOf_append, slotsOf_cons_none htx, slotsOf_nil, List.append_nil]
    obtain ⟨hbooks, hdirty⟩ := booksOf_congr turns next hslots
    have hholds := h.toHolds
    rw [hbooks, hdirty] at hholds
    refine ⟨turns, ?_⟩
    unfold RcEndpoint.rollbackPreparedTx
    rw [htx]
    exact hholds
  | some data =>
    obtain ⟨kind, index⟩ := data
    refine ⟨turns ++ [.returned kind index], ?_⟩
    unfold RcEndpoint.rollbackPreparedTx
    rw [htx]
    exact ((h.giveBackLast htx).sync index).mono (insert_diff_allOf ..)

/-- **The outcome of staging a batch.** -/
structure Stages (allowed : EngineEvent QPS → Prop) (start : Engine QPS MRS SQ RQ CQ)
    (turns : List (Activity QPS MRS SQ RQ CQ)) (next : DataTxClass) (offered : List WirePacket)
    (frames : List TxFrame) (ep : RcEndpoint QPS MRS SQ RQ CQ IDX)
    (out : RcEndpoint QPS MRS SQ RQ CQ IDX × RcEndpoint.Staging × List (PreparedTx QPS × ℕ) ×
      Option PollError) : Prop where
  /-- The staged packets can be committed, and they are the ones handed to the backend. -/
  owed : ∃ turns' packets, Owed allowed start turns' next out.2.2.1 packets out.1 ∧
    out.1.offered = offered ++ packets ∧
    (out.2.2.2 = none → Unreturned turns → Unreturned turns')
  /-- The queue pairs start requests only. -/
  starts : Starts ep out.1
  /-- A failure has an excuse. -/
  excused : ∀ e, out.2.2.2 = some e → StageExcuse allowed start frames e

theorem StageExcuse.mono {frames frames' : List TxFrame} (h : StageExcuse allowed start frames e)
    (hsub : frames ⊆ frames') : StageExcuse allowed start frames' e := by
  cases h with
  | refused hmem => exact .refused (hsub hmem)
  | late hlate => exact .late hlate
  | short hmem hlength herror => exact .short (hsub hmem) hlength herror

theorem starts_rollbackPreparedTx (ep : RcEndpoint QPS MRS SQ RQ CQ IDX) (tx : PreparedTx QPS) :
    Starts ep (ep.rollbackPreparedTx tx) := by
  obtain ⟨hengine, hpending⟩ := rollbackPreparedTx_frame ep tx
  exact ⟨congrArg Engine.config hengine,
    fun i ↦ .inl (congrFun (congrArg Engine.qps hengine) i), hpending⟩

theorem Stages.encoded (hint : Internal allowed now) {turns' : List (Activity QPS MRS SQ RQ CQ)}
    {frame : TxFrame} {frames : List TxFrame} {tx : PreparedTx QPS} {staging : RcEndpoint.Staging}
    (hinv : ep.engine.Inv) (hstarts : Starts ep ep') (hoffered : ep'.offered = offered ++ packets)
    (hstaged : ∀ length, Staged allowed start turns' next (staged ++ [(tx, length)])
      (packets ++ [packet]) ep') (hpacket : RcEndpoint.preparedPacket ep'.memory wire = .ok packet)
    (hemits : Emits ep'.engine tx.qpIndex packet) (hturns : Unreturned turns → Unreturned turns')
    (hnext : ∀ length (ep'' : RcEndpoint QPS MRS SQ RQ CQ IDX),
      Staged allowed start turns' next (staged ++ [(tx, length)]) (packets ++ [packet]) ep'' →
      ep''.offered = offered ++ (packets ++ [packet]) →
      Stages allowed start turns' next offered frames ep''
        (RcEndpoint.stageBatchPackets frames ep'' staging (staged ++ [(tx, length)]))) :
    Stages allowed start turns next offered (frame :: frames) ep
      (match ep'.encodeBatchPacket frame wire with
        | (ep, .error e) => (ep.rollbackPreparedTx tx, staging, staged, some e)
        | (ep, .ok length) => RcEndpoint.stageBatchPackets frames ep staging
          (staged ++ [(tx, length)])) := by
  rcases (hstaged 0).toHolds.encodeBatchPacket hint frame hpacket hemits with
    ⟨length, hencode, -⟩ | ⟨stats, e, hencode, hexcuse⟩
  · rw [hencode]
    have hoffer : Staged allowed start turns' next (staged ++ [(tx, length)])
        (packets ++ [packet]) { ep' with offered := ep'.offered ++ [packet] } := by
      have hlast := hstaged length
      exact ⟨⟨hlast.toHolds.offer (hint (.offer packet) trivial) hemits, hlast.nodup,
        hlast.carries, hlast.replies⟩, hlast.unscheduled⟩
    have hrest := hnext length _ hoffer (by
      change ep'.offered ++ [packet] = _
      rw [hoffered, List.append_assoc])
    obtain ⟨⟨turns'', packets', howed, hpackets, hturns'⟩, hstarts', hexcused⟩ := hrest
    refine ⟨⟨turns'', packets', howed, hpackets, fun hnone ↦ hturns' hnone ∘ hturns⟩,
      hstarts.trans ⟨hstarts'.config, hstarts'.qps, hstarts'.pending⟩ hinv,
      fun e herror ↦ (hexcused e herror).mono (List.subset_cons_self ..)⟩
  · rw [hencode]
    obtain ⟨turns'', howed⟩ := ((hstaged 0).toOwed.withStats stats).rollbackLast
    have hback := starts_rollbackPreparedTx { ep' with stats := stats } tx
    have hoffers := congrArg Engine.offered
      (rollbackPreparedTx_frame { ep' with stats := stats } tx).1
    refine ⟨⟨turns'', packets, howed, hoffers.trans hoffered, nofun⟩,
      hstarts.trans ⟨hback.config, hback.qps, hback.pending⟩ hinv, fun e' herror ↦ ?_⟩
    cases herror
    exact hexcuse.mono (List.cons_subset_cons _ (List.nil_subset _))

/-- **Staging a batch.** -/
theorem stageBatchPackets_stages (hint : Internal allowed now) (frames : List TxFrame) :
    ∀ {ep : RcEndpoint QPS MRS SQ RQ CQ IDX} {turns : List (Activity QPS MRS SQ RQ CQ)}
      (staging : RcEndpoint.Staging) {staged : List (PreparedTx QPS × ℕ)}
      {packets : List WirePacket}, Staged allowed start turns next staged packets ep →
      staging.controlOffset = (repliesOf staged).length → ep.offered = offered ++ packets →
      Stages allowed start turns next offered frames ep
        (RcEndpoint.stageBatchPackets frames ep staging staged) := by
  induction frames with
  | nil =>
    intro ep turns staging staged packets h _ hoffered
    exact ⟨⟨turns, packets, h.toOwed, hoffered, fun _ ↦ id⟩, .refl ep, nofun⟩
  | cons frame frames ih =>
    intro ep turns staging staged packets h hoffset hoffered
    unfold RcEndpoint.stageBatchPackets
    rcases prepareNextBatchTx_cases hint h staging with
      ⟨reply, hreply, hnext⟩ | ⟨hprepares, hsame⟩
    · rw [hnext]
      rw [hoffset] at hreply
      obtain ⟨arrival, harrival, hcaused⟩ :=
        h.logged.arrival_of_pending (List.mem_of_getElem? hreply)
      refine Stages.encoded hint h.inv (.refl ep) hoffered (fun length ↦ h.stageControl hreply) rfl
        (.control harrival hcaused) id fun length ep'' hstaged hoffered' ↦
          ih _ hstaged ?_ hoffered'
      rw [repliesOf_append, List.length_append, ← hoffset]
      rfl
    · rcases hnext : ep.prepareNextBatchTx staging with ⟨ep', staging', result⟩
      rw [hnext] at hprepares hsame
      cases hprepares with
      | failed hstarts hoffered' hlate howed =>
        refine ⟨⟨_, packets, howed, hoffered'.trans hoffered, nofun⟩, hstarts, fun e herror ↦ ?_⟩
        cases herror
        exact .late hlate
      | idle stats =>
        exact ⟨⟨turns, packets, h.toOwed.withStats stats, hoffered, fun _ ↦ id⟩,
          ⟨rfl, fun _ ↦ .inl rfl, rfl⟩, nofun⟩
      | ready hstarts hoffered' htx hstaged hpacket hemits =>
        refine Stages.encoded hint h.inv hstarts (hoffered'.trans hoffered) hstaged hpacket hemits
          (fun hturns ↦ hturns.snoc nofun) fun length ep'' hstaged' hoffered'' ↦
            ih _ hstaged' ?_ hoffered''
        rw [repliesOf_append, repliesOf_cons htx, List.length_append, hsame, hoffset]
        rfl

/-! ## Submission -/

/-- Why a batched progress call fails.  It asked for at most `room` received packets and `budget`
frames, and staged `count` packets. -/
inductive BatchExcuse (allowed : EngineEvent QPS → Prop) (start : Engine QPS MRS SQ RQ CQ)
    (io : BatchIo) (budget room count : ℕ) : PollError → Prop
  | /-- The backend fails. -/
    failed : BatchExcuse allowed start io budget room count .io
  | /-- An ACK timeout is not representable. -/
    late (h : ¬Punctual allowed start) :
      BatchExcuse allowed start io budget room count (.api .invalidTicksPerSecond)
  | /-- The backend returns received packets that it was not asked for. -/
    received {frames error} (h : io.receive = some frames)
      (hframes : room < frames.length ∨ none ∈ frames)
      (herror : error ≠ .invalidTicksPerSecond) :
      BatchExcuse allowed start io budget room count (.api error)
  | /-- The backend returns frames that it was not asked for, or that are too small. -/
    acquired {frames error} (h : io.acquire = some frames)
      (hframes : budget < frames.length ∨ none ∈ frames ∨
        ∃ length < start.config.maximumPacketSize, some (.buffer length) ∈ frames)
      (herror : error ≠ .invalidTicksPerSecond) :
      BatchExcuse allowed start io budget room count (.api error)
  | /-- The backend accepts packets that it was not given. -/
    submitted {error} (h : count < io.accepted ∨ io.ownershipOk = false)
      (herror : error ≠ .invalidTicksPerSecond) :
      BatchExcuse allowed start io budget room count (.api error)

/-- **What a part of a batched progress call leaves behind.** -/
structure Batched (allowed : EngineEvent QPS → Prop) (start : Engine QPS MRS SQ RQ CQ)
    (turns : List (Activity QPS MRS SQ RQ CQ)) (io : BatchIo) (budget room count : ℕ)
    (clean : Prop) (out : RcEndpoint QPS MRS SQ RQ CQ IDX × Except PollError RcProgress) :
    Prop where
  /-- The assertion holds again; in a clean call, every turn ended with a packet. -/
  holds : ∃ turns' next', Holds allowed start (.settled turns' next') ∅ out.1 ∧
    (clean → Unreturned turns → Unreturned turns')
  /-- A failure has an excuse. -/
  excused : ∀ e, out.2 = .error e → BatchExcuse allowed start io budget room count e

theorem Holds.batched {count : ℕ} (h : Holds allowed start (.settled turns next) ∅ ep)
    {result : Except PollError RcProgress}
    (hexcused : ∀ e, result = .error e → BatchExcuse allowed start io budget room count e) :
    Batched allowed start turns io budget room count clean (ep, result) :=
  ⟨⟨turns, next, h, fun _ ↦ id⟩, hexcused⟩

theorem firstError_eq_error {progress : RcProgress}
    (h : RcEndpoint.firstError errors progress = .error e) : some e ∈ errors := by
  unfold RcEndpoint.firstError at h
  split at h
  · rename_i e' hfind
    cases h
    obtain ⟨entry, hmem, hentry⟩ := List.exists_of_findSome?_eq_some hfind
    exact hentry ▸ hmem
  · cases h

/-- **Submitting the staged packets**: the accepted ones are committed, the others are rolled
back. -/
theorem Owed.submitStagedBatch (hint : Internal allowed now)
    (h : Owed allowed start turns next staged packets ep) (progress : RcProgress)
    {preparationError : Option PollError} (hexcused : ∀ e, preparationError = some e →
      BatchExcuse allowed start io budget room staged.length e)
    {turns₀ : List (Activity QPS MRS SQ RQ CQ)}
    (hturns : clean → io.ownershipOk = true ∧ io.accepted = staged.length ∧
      (Unreturned turns₀ → Unreturned turns)) :
    Batched allowed start turns₀ io budget room staged.length clean
        (ep.submitStagedBatch now io staged progress preparationError) ∧
      (io.accepted ≤ staged.length → io.ownershipOk = true →
        Committed now (staged.take io.accepted) ep
          (ep.submitStagedBatch now io staged progress preparationError).1) := by
  unfold RcEndpoint.submitStagedBatch
  split
  · rename_i hviolated
    have hkept : io.accepted ≤ staged.length → io.ownershipOk = true → False := by
      intro haccepted howned
      rcases hviolated with hmore | hnone
      · exact absurd haccepted (Nat.not_le.mpr hmore)
      · exact nomatch howned.symm.trans hnone
    obtain ⟨⟨turns', hrolled, -⟩, -⟩ := rollbackAll_holds staged h.toHolds h.nodup
    refine ⟨⟨⟨turns', next, hrolled, fun hclean ↦ ?_⟩, fun e herror ↦ ?_⟩,
      fun haccepted howned ↦ (hkept haccepted howned).elim⟩
    · obtain ⟨howned, hall, -⟩ := hturns hclean
      exact (hkept (Nat.le_of_eq hall) howned).elim
    · cases herror
      exact .submitted hviolated nofun
  rename_i hvalid
  have hsplit := h
  rw [← List.take_append_drop io.accepted staged] at hsplit
  obtain ⟨⟨turns', next', howed, hkept⟩, hnone, hcommitted⟩ :=
    commitAcceptedBatch_commits hint (staged.drop io.accepted) (staged.take io.accepted) progress
      hsplit
  obtain ⟨⟨turns'', hrolled, hempty⟩, hengine, hpending⟩ :=
    rollbackAll_holds _ howed.toHolds howed.nodup
  have hfinal : Committed now (staged.take io.accepted) ep
      ((RcEndpoint.commitAcceptedBatch now (staged.take io.accepted) ep progress none).1.rollbackAll
        (staged.drop io.accepted)) := by
    refine ⟨fun i ↦ ?_, ?_⟩
    · rw [hengine]
      exact hcommitted.qps i
    · rw [hpending]
      exact hcommitted.pending
  have hunreturned : clean → Unreturned turns₀ → Unreturned turns'' := by
    intro hclean
    obtain ⟨-, hall, hstaged⟩ := hturns hclean
    rw [hempty (List.drop_of_length_le (Nat.le_of_eq hall.symm))]
    exact hkept ∘ hstaged
  dsimp only
  split
  · refine ⟨⟨⟨turns'', next', hrolled.withStats _, hunreturned⟩, fun e herror ↦ ?_⟩,
      fun _ _ ↦ ⟨hfinal.qps, hfinal.pending⟩⟩
    cases herror
    exact .failed
  rw [hnone]
  refine ⟨⟨⟨turns'', next', ?_, hunreturned⟩, fun e herror ↦ ?_⟩, fun _ _ ↦ ?_⟩
  · split
    · exact hrolled.withStats _
    · exact hrolled
  · have hmem := firstError_eq_error herror
    rw [List.mem_cons, List.mem_cons, List.mem_singleton] at hmem
    rcases hmem with hsubmit | hcommit | hprepare
    · split at hsubmit
      · cases hsubmit
        exact .failed
      · cases hsubmit
    · cases hcommit
    · exact hexcused e hprepare.symm
  · split
    · exact ⟨hfinal.qps, hfinal.pending⟩
    · exact hfinal

theorem StageExcuse.batch {count : ℕ} {frames : List (Option TxFrame)}
    (hframes : io.acquire = some frames) (h : StageExcuse allowed start (frames.filterMap id) e) :
    BatchExcuse allowed start io budget room count e := by
  cases h with
  | refused hmem => exact .failed
  | late hlate => exact .late hlate
  | short hmem hlength herror =>
    exact .acquired hframes (.inr (.inr ⟨_, hlength, by simpa using hmem⟩)) herror

/-- The frame can hold a packet of the given size. -/
def TxFrame.holds (size : ℕ) : TxFrame → Bool
  | .ioError => false
  | .buffer length => decide (size ≤ length)

/-- Every frame that the backend lends can hold a packet of the given size. -/
def BatchIo.lends (io : BatchIo) (size : ℕ) : Bool :=
  io.acquire.all fun frames ↦ frames.all fun frame ↦ frame.all (TxFrame.holds size)

theorem StageExcuse.not_lends {frames : List (Option TxFrame)} (hframes : io.acquire = some frames)
    (h : StageExcuse allowed start (frames.filterMap id) e) (hpunctual : Punctual allowed start) :
    io.lends start.config.maximumPacketSize = false := by
  unfold BatchIo.lends
  rw [hframes, Option.all_some, List.all_eq_false]
  cases h with
  | refused hmem => exact ⟨some .ioError, by simpa using hmem, Bool.false_ne_true⟩
  | late hlate => exact absurd hpunctual hlate
  | @short length _ hmem hlength _ =>
    refine ⟨some (.buffer length), by simpa using hmem, ?_⟩
    simpa [TxFrame.holds] using hlength

def RcEndpoint.stagedIn (ep : RcEndpoint QPS MRS SQ RQ CQ IDX) (io : BatchIo)
    (progress : RcProgress) : List (PreparedTx QPS × ℕ) :=
  match io.acquire with
  | none => []
  | some frames =>
    (stageBatchPackets (frames.filterMap id) ep ⟨0, ep.nextDataTxClass, progress⟩ []).2.2.1

/-- **Transmitting a burst of packets.** -/
theorem Holds.transmitBatchPhase (hint : Internal allowed now)
    (h : Holds allowed start (.settled turns next) ∅ ep) (budget : ℕ) (io : BatchIo) (room : ℕ)
    (progress : RcProgress) (hclean : clean → Punctual allowed start ∧
      io.lends start.config.maximumPacketSize = true ∧ io.ownershipOk = true ∧
      ∀ frames, io.acquire = some frames → ¬(budget < frames.length ∨ frames.any Option.isNone) →
        ep.stagedIn io progress ≠ [] → io.accepted = (ep.stagedIn io progress).length) :
    Batched allowed start turns io budget room (ep.stagedIn io progress).length clean
      (ep.transmitBatchPhase now budget io progress) := by
  unfold RcEndpoint.transmitBatchPhase
  split
  · refine (h.withStats _).batched fun e herror ↦ ?_
    cases herror
    exact .failed
  rename_i frames hframes
  split
  · rename_i hbad
    refine h.batched fun e herror ↦ ?_
    cases herror
    refine .acquired hframes (hbad.imp_right fun hany ↦ .inl ?_) nofun
    obtain ⟨frame, hmem, hnone⟩ := List.any_eq_true.mp hany
    exact (Option.isNone_iff_eq_none.mp hnone) ▸ hmem
  rename_i hgood
  split
  · exact h.batched nofun
  have hstages := stageBatchPackets_stages hint (frames.filterMap id)
    ⟨0, ep.nextDataTxClass, progress⟩ h.noneStaged rfl (List.append_nil _).symm
  have hcount : ep.stagedIn io progress = (RcEndpoint.stageBatchPackets (frames.filterMap id) ep
      ⟨0, ep.nextDataTxClass, progress⟩ []).2.2.1 := by
    unfold RcEndpoint.stagedIn
    rw [hframes]
  rw [hcount] at hclean ⊢
  obtain ⟨⟨turns', packets, howed, -, hturns⟩, -, hexcused⟩ := hstages
  -- in a clean call, there is no reason for which a packet is not staged
  have hstaged : clean → Unreturned turns → Unreturned turns' := by
    intro hc
    obtain ⟨hpunctual, hlends, -⟩ := hclean hc
    refine hturns (Option.eq_none_iff_forall_ne_some.mpr fun e herror ↦ ?_)
    exact nomatch hlends.symm.trans ((hexcused e herror).not_lends hframes hpunctual)
  split
  · rename_i heq
    rw [heq] at howed hexcused ⊢
    have hholds := howed.toHolds
    rw [booksOf_nil, dirtyOf_nil] at hholds
    split
    · refine ⟨⟨turns', next, hholds.withStats _, hstaged⟩, fun e herror ↦ ?_⟩
      cases herror
      exact .failed
    · refine ⟨⟨turns', next, hholds, hstaged⟩, fun e herror ↦ ?_⟩
      have hmem := List.mem_singleton.mp (firstError_eq_error herror)
      exact (hexcused e hmem.symm).batch hframes
  · rename_i heq
    rw [heq] at howed hexcused hclean ⊢
    refine (howed.submitStagedBatch hint _
      (fun e herror ↦ (hexcused e herror).batch hframes) fun hc ↦ ?_).1
    obtain ⟨-, -, howned, haccepted⟩ := hclean hc
    exact ⟨howned, haccepted frames hframes hgood nofun, hstaged hc⟩

/-! ## Reception -/

def BatchIo.Delivers (io : BatchIo) (decoded : DecodedPacket) : Prop :=
  ∃ frames length, io.receive = some frames ∧
    some (.datagram length (some decoded)) ∈ frames

/-- **Processing received frames.**  There is room for a reply to each of them. -/
theorem receiveFrames_holds (frames : List RxFrame) :
    ∀ {ep : RcEndpoint QPS MRS SQ RQ CQ IDX} (progress : RcProgress),
      (∀ length decoded, RxFrame.datagram length (some decoded) ∈ frames →
        Arrives allowed now decoded.transport) →
      frames.length + ep.pendingControl.items.length ≤ maxBatchPackets →
      Holds allowed start (.settled turns next) ∅ ep →
      Holds allowed start (.settled turns next) ∅
          (RcEndpoint.receiveFrames now frames ep progress).1 ∧
        ∀ e, (RcEndpoint.receiveFrames now frames ep progress).2.2 = some e → e = .io := by
  induction frames with
  | nil =>
    intro ep progress _ _ h
    exact ⟨h, nofun⟩
  | cons frame frames ih =>
    intro ep progress hallowed hroom h
    have hrest : ∀ length decoded, RxFrame.datagram length (some decoded) ∈ frames →
        Arrives allowed now decoded.transport :=
      fun length decoded hmem ↦ hallowed length decoded (List.mem_cons_of_mem _ hmem)
    have hroom' : frames.length + ep.pendingControl.items.length ≤ maxBatchPackets := by
      rw [List.length_cons] at hroom
      omega
    cases frame with
    | ioError =>
      refine ⟨h.withStats _, fun e herror ↦ ?_⟩
      cases herror
      rfl
    | datagram length decoded =>
      unfold RcEndpoint.receiveFrames
      dsimp only
      split
      · exact ih _ hrest hroom' (h.withStats _)
      cases decoded with
      | none => exact ih _ hrest hroom' (h.withStats _)
      | some decoded =>
        have hreceived : Holds allowed start (.settled turns next) ∅ (ep.recordReceive length) :=
          h.withStats _
        obtain ⟨reply, hprocess, hpending, hresult⟩ :=
          hreceived.processIncoming (hallowed length decoded List.mem_cons_self)
        dsimp only
        rcases hincoming : (ep.recordReceive length).processIncoming now decoded with
          ⟨ep', result⟩
        rw [hincoming] at hprocess hpending hresult
        have hpending' : ep'.pendingControl = ep.pendingControl := hpending
        rcases hresult with ⟨hresult, rfl⟩ | ⟨handled, hresult, rfl⟩
        all_goals
          dsimp only at hresult
          subst hresult
        · rw [Books.owe_none] at hprocess
          exact ih _ hrest (hpending'.symm ▸ hroom') hprocess
        · dsimp only
          cases hreply : handled.reply with
          | none =>
            rw [hreply, Books.owe_none] at hprocess
            exact ih _ hrest (hpending'.symm ▸ hroom') hprocess
          | some reply =>
            rw [hreply] at hprocess
            cases hpush : ep'.pendingControl.push reply with
            | error full =>
              have hfull := Ring.push_eq_error hpush
              rw [hpending'] at hfull
              rw [List.length_cons] at hroom
              exact absurd hfull (by omega)
            | ok ring =>
              dsimp only at hprocess ⊢
              rw [hpush]
              refine ih _ hrest ?_ (hprocess.queueOwed hpush)
              change frames.length + ring.items.length ≤ maxBatchPackets
              rw [(Ring.push_eq_ok.mp hpush).2, hpending', List.length_append]
              rw [List.length_cons] at hroom
              exact Nat.le_trans (by simp; omega) hroom

/-- **Receiving a burst of packets.** -/
theorem Holds.receiveBatchPhase (h : Holds allowed start (.settled turns next) ∅ ep)
    (hallowed : ∀ decoded, io.Delivers decoded → Arrives allowed now decoded.transport) (budget : ℕ)
    (progress : RcProgress) :
    Holds allowed start (.settled turns next) ∅ (ep.receiveBatchPhase now budget io progress).1 ∧
      ∀ e, (ep.receiveBatchPhase now budget io progress).2 = .error e → ∀ count,
        BatchExcuse allowed start io budget (min budget ep.pendingControl.remainingCapacity) count
          e := by
  unfold RcEndpoint.receiveBatchPhase
  dsimp only
  split
  · exact ⟨h, nofun⟩
  split
  · refine ⟨h.withStats _, fun e herror count ↦ ?_⟩
    cases herror
    exact .failed
  rename_i frames hframes
  split
  · rename_i hbad
    refine ⟨h, fun e herror count ↦ ?_⟩
    cases herror
    refine .received hframes (hbad.imp_right fun hany ↦ ?_) nofun
    obtain ⟨frame, hmem, hnone⟩ := List.any_eq_true.mp hany
    exact (Option.isNone_iff_eq_none.mp hnone) ▸ hmem
  rename_i hgood
  have hroom : (frames.filterMap id).length + ep.pendingControl.items.length ≤ maxBatchPackets := by
    have hle := List.length_filterMap_le id frames
    have hlength := ep.pendingControl.length_le
    have hbudget := not_or.mp hgood
    have hframes' := Nat.le_of_not_lt hbudget.1
    unfold Ring.remainingCapacity at hframes'
    omega
  obtain ⟨hreceived, hio⟩ := receiveFrames_holds (frames.filterMap id) progress
    (fun length decoded hmem ↦ hallowed decoded ⟨frames, length, hframes, by simpa using hmem⟩)
    hroom h
  split
  · refine ⟨hreceived.withStats _, fun e herror count ↦ ?_⟩
    cases herror
    exact .failed
  · refine ⟨hreceived, fun e herror count ↦ ?_⟩
    have hmem := List.mem_singleton.mp (firstError_eq_error herror)
    rw [hio e hmem.symm]
    exact .failed

/-! ## One call -/

/-- The state of a batched progress call before it transmits, if it gets so far. -/
def RcEndpoint.beforeTransmit (ep : RcEndpoint QPS MRS SQ RQ CQ IDX) (now budget : ℕ)
    (io : BatchIo) : RcEndpoint QPS MRS SQ RQ CQ IDX × Except PollError RcProgress :=
  let timers := ep.serviceTimers now (min budget maxBatchPackets)
  timers.1.receiveBatchPhase now (min budget maxBatchPackets) io
    { completions := timers.2.completions, retransmissions := timers.2.retransmissions }

def RcEndpoint.stagedBy (ep : RcEndpoint QPS MRS SQ RQ CQ IDX) (now budget : ℕ) (io : BatchIo) :
    List (PreparedTx QPS × ℕ) :=
  match ep.beforeTransmit now budget io with
  | (_, .error _) => []
  | (ep, .ok progress) => ep.stagedIn io progress

/-- A batched progress call until its packets are staged: the endpoint before and after the staging,
the staged packets and the work done so far.  A call that stages nothing has none. -/
def RcEndpoint.staging (ep : RcEndpoint QPS MRS SQ RQ CQ IDX) (now budget : ℕ) (io : BatchIo) :
    Option (RcEndpoint QPS MRS SQ RQ CQ IDX × RcEndpoint QPS MRS SQ RQ CQ IDX ×
      List (PreparedTx QPS × ℕ) × RcProgress) :=
  if min budget maxBatchPackets = 0 ∨ io.reapOk = false then none
  else
    match ep.beforeTransmit now budget io, io.acquire with
    | (mid, .ok progress), some frames =>
      if min budget maxBatchPackets < frames.length ∨ frames.any Option.isNone then none
      else
        match stageBatchPackets (frames.filterMap id) mid ⟨0, mid.nextDataTxClass, progress⟩ [] with
        | (_, _, [], _) => none
        | (loaded, staging, prepared :: staged, _) =>
          some (mid, loaded, prepared :: staged, staging.progress)
    | _, _ => none

/-- The backend lends frames that can hold every packet, and accepts all packets that it is
given. -/
def RcEndpoint.takesAll (ep : RcEndpoint QPS MRS SQ RQ CQ IDX) (now budget : ℕ) (io : BatchIo) :
    Bool :=
  io.lends ep.config.maximumPacketSize && io.ownershipOk &&
    (ep.staging now budget io).all fun batch ↦ io.accepted == batch.2.2.1.length

/-- A call that gets to the transmission stages what `staging` says. -/
theorem RcEndpoint.accepted_of_takesAll {mid : RcEndpoint QPS MRS SQ RQ CQ IDX}
    {progress : RcProgress} {frames : List (Option TxFrame)}
    (hall : ep.takesAll now budget io = true)
    (hstart : ¬(min budget maxBatchPackets = 0 ∨ io.reapOk = false))
    (hbefore : ep.beforeTransmit now budget io = (mid, .ok progress))
    (hacquire : io.acquire = some frames)
    (hframes : ¬(min budget maxBatchPackets < frames.length ∨ frames.any Option.isNone))
    (hsome : mid.stagedIn io progress ≠ []) :
    io.accepted = (mid.stagedIn io progress).length := by
  have haccepted := (Bool.and_eq_true_iff.mp hall).2
  unfold staging at haccepted
  unfold stagedIn at hsome ⊢
  rw [if_neg hstart, hbefore, hacquire] at haccepted
  rw [hacquire] at hsome ⊢
  dsimp only at haccepted hsome ⊢
  rw [if_neg hframes] at haccepted
  rcases hstage : stageBatchPackets (frames.filterMap id) mid
    ⟨0, mid.nextDataTxClass, progress⟩ [] with
    ⟨loaded, staging, _ | ⟨prepared, staged⟩, preparationError⟩
  all_goals rw [hstage] at haccepted hsome
  · exact absurd rfl hsome
  · exact eq_of_beq haccepted

/-- The number of packets that a batched progress call asks for. -/
def RcEndpoint.receiveRoom (ep : RcEndpoint QPS MRS SQ RQ CQ IDX) (now budget : ℕ) : ℕ :=
  min (min budget maxBatchPackets)
    (ep.serviceTimers now (min budget maxBatchPackets)).1.pendingControl.remainingCapacity

/-- **Batched progress refines the engine.**  Besides internal events, it delivers the packets
that the backend returns. -/
theorem Holds.progressBatch (hint : Internal allowed now)
    (h : Holds allowed start (.settled turns next) ∅ ep)
    (hallowed : ∀ decoded, io.Delivers decoded → Arrives allowed now decoded.transport)
    (budget : ℕ) :
    Batched allowed start turns io (min budget maxBatchPackets) (ep.receiveRoom now budget)
      (ep.stagedBy now budget io).length
      (Punctual allowed start ∧ ep.takesAll now budget io = true)
      (ep.progressBatch now budget io) := by
  unfold RcEndpoint.progressBatch
  dsimp only
  split
  · exact h.batched nofun
  rename_i hbudget
  split
  · refine (h.withStats _).batched fun e herror ↦ ?_
    cases herror
    exact .failed
  rename_i hreap
  obtain ⟨hreceived, hexcused⟩ :=
    (h.serviceTimers hint (min budget maxBatchPackets)).receiveBatchPhase hallowed
    (min budget maxBatchPackets)
    { completions := (ep.serviceTimers now (min budget maxBatchPackets)).2.completions,
      retransmissions := (ep.serviceTimers now (min budget maxBatchPackets)).2.retransmissions }
  unfold RcEndpoint.stagedBy RcEndpoint.beforeTransmit
  dsimp only
  rcases hphase : (ep.serviceTimers now (min budget maxBatchPackets)).1.receiveBatchPhase now
    (min budget maxBatchPackets) io
    { completions := (ep.serviceTimers now (min budget maxBatchPackets)).2.completions,
      retransmissions := (ep.serviceTimers now (min budget maxBatchPackets)).2.retransmissions }
    with ⟨ep', e | progress⟩
  all_goals rw [hphase] at hreceived hexcused
  · refine hreceived.batched fun e' herror ↦ ?_
    cases herror
    exact hexcused _ rfl _
  · refine hreceived.transmitBatchPhase hint _ io _ _ fun ⟨hpunctual, hall⟩ ↦ ?_
    obtain ⟨hlends, howned⟩ := Bool.and_eq_true_iff.mp (Bool.and_eq_true_iff.mp hall).1
    rw [h.config_eq] at hlends
    exact ⟨hpunctual, hlends, howned, fun frames ↦
      RcEndpoint.accepted_of_takesAll hall (not_or.mpr ⟨hbudget, hreap⟩) hphase⟩

end Batch

end Rocev2.Rc
