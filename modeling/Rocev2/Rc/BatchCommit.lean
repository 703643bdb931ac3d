import Rocev2.Rc.BatchRefinement

/-!
# Commit and rollback of a batch

The packets of a batch that the backend accepts are committed in order, the others are rolled
back.  `Owed` for the list of what is staged is the invariant of both loops: committing or rolling
back the first packet leaves `Owed` for the rest, so a batch that started with coherent schedulers
ends with coherent schedulers, whatever the backend accepts and whatever fails on the way.

`Committed` says what the commits change besides: every accepted packet advances its queue pair by
one packet, and the accepted replies leave the queue of those that wait.
-/

namespace Rocev2.Rc

open Rocev2.Core Rocev2.Wire

variable {QPS MRS SQ RQ CQ IDX : ℕ}

/-- No turn ended without a packet. -/
def Unreturned (turns : List (Activity QPS MRS SQ RQ CQ)) : Prop :=
  ∀ kind index, Activity.returned kind index ∉ turns

theorem Unreturned.snoc {turns : List (Activity QPS MRS SQ RQ CQ)}
    {event : Activity QPS MRS SQ RQ CQ} (h : Unreturned turns)
    (hevent : ∀ kind index, event ≠ .returned kind index) : Unreturned (turns ++ [event]) := by
  intro kind index hmem
  rcases List.mem_append.mp hmem with hold | hnew
  · exact h kind index hold
  · exact hevent kind index (List.mem_singleton.mp hnew).symm

/-- The effect of an accepted packet on a queue pair. -/
def PreparedTx.advance (tx : PreparedTx QPS) (now : ℕ) (index : Fin QPS)
    (qp : QpTransport MRS SQ RQ CQ) : QpTransport MRS SQ RQ CQ :=
  match tx with
  | .control _ => qp
  | .requester current timeoutTicks _ =>
    if current = index then markRequestPacketSent qp now timeoutTicks else qp
  | .responder current _ => if current = index then qp.readAdvanced else qp

/-- The effect of several accepted packets on a queue pair. -/
def advanceAll (accepted : List (PreparedTx QPS × ℕ)) (now : ℕ) (index : Fin QPS)
    (qp : QpTransport MRS SQ RQ CQ) : QpTransport MRS SQ RQ CQ :=
  accepted.foldl (fun qp prepared ↦ prepared.1.advance now index qp) qp

/-- **What committing packets changes.** -/
structure Committed (now : ℕ) (accepted : List (PreparedTx QPS × ℕ))
    (ep ep' : RcEndpoint QPS MRS SQ RQ CQ IDX) : Prop where
  /-- Every packet advances its queue pair. -/
  qps : ∀ i, ep'.engine.qps i = (ep.engine.qps i).map (advanceAll accepted now i)
  /-- The replies are removed from the head of the queue. -/
  pending : ep'.pendingControl.items = ep.pendingControl.items.drop (repliesOf accepted).length

theorem activeRequest_readAdvanced (qp : QpTransport MRS SQ RQ CQ) :
    qp.readAdvanced.activeRequest = qp.activeRequest := by
  unfold QpTransport.readAdvanced
  split
  · rfl
  · split <;> rfl

theorem readResponse_markRequestPacketSent (qp : QpTransport MRS SQ RQ CQ)
    (now timeoutTicks : ℕ) :
    (markRequestPacketSent qp now timeoutTicks).readResponse = qp.readResponse := by
  unfold markRequestPacketSent
  split <;> rfl

/-- The packets of the other class and of the other slots leave a half of a queue pair alone. -/
theorem half_advance {tx : PreparedTx QPS} {kind : DataTxClass} {index : Fin QPS}
    (h : tx.slotIn kind ≠ some index) (now : ℕ) (qp : QpTransport MRS SQ RQ CQ) :
    (tx.advance now index qp).half kind = qp.half kind := by
  cases tx with
  | control reply => rfl
  | requester current timeoutTicks nextClass =>
    rw [PreparedTx.advance]
    split
    · rename_i hcurrent
      cases kind with
      | requester => exact absurd (congrArg some hcurrent) h
      | responder => exact congrArg _ (readResponse_markRequestPacketSent qp now timeoutTicks)
    · rfl
  | responder current nextClass =>
    rw [PreparedTx.advance]
    split
    · rename_i hcurrent
      cases kind with
      | requester => exact congrArg _ (activeRequest_readAdvanced qp)
      | responder => exact absurd (congrArg some hcurrent) h
    · rfl

section Batch

variable {allowed : EngineEvent QPS → Prop} {start : Engine QPS MRS SQ RQ CQ}
  {turns : List (Activity QPS MRS SQ RQ CQ)} {next : DataTxClass}
  {staged : List (PreparedTx QPS × ℕ)} {packets : List WirePacket}
  {ep ep' : RcEndpoint QPS MRS SQ RQ CQ IDX} {kind : DataTxClass} {index : Fin QPS}
  {tx : PreparedTx QPS} {length now : ℕ} {packet : WirePacket} {slot : RcQpSlot MRS SQ RQ CQ}
  {nextClass : DataTxClass} {prepared : PreparedTx QPS × ℕ}

/-! ## Commit -/

theorem dirtyOf_cons (h : tx.qpIndex = some (kind, index)) :
    dirtyOf ((tx, length) :: staged) \ AllOf index ⊆ dirtyOf staged := by
  rintro x ⟨⟨current, hx, hmem⟩, hother⟩
  refine ⟨current, hx, ?_⟩
  by_cases hcurrent : current = kind
  · subst hcurrent
    rw [slotsOf_cons_self h] at hmem
    exact (List.mem_cons.mp hmem).resolve_left hother
  · rw [slotsOf_cons_of_ne h hcurrent] at hmem
    exact hmem

theorem Owed.settle (now : ℕ) {turns' : List (Activity QPS MRS SQ RQ CQ)} {next' : DataTxClass}
    (h : Owed allowed start turns next ((tx, length) :: staged) (packet :: packets) ep)
    (htx : tx.qpIndex = some (kind, index))
    (hholds : Holds allowed start (booksOf turns' next' staged)
      (dirtyOf ((tx, length) :: staged) \ AllOf index) ep')
    (hqps : ∀ i, ep'.engine.qps i = (ep.engine.qps i).map (tx.advance now i) ∨
      ep'.engine.qps i = ep.engine.qps i) (hpending : ep'.pendingControl = ep.pendingControl) :
    Owed allowed start turns' next' staged packets ep' := by
  refine ⟨hholds.mono (dirtyOf_cons htx), fun current ↦ ?_, ?_, ?_⟩
  · have hnodup := h.nodup current
    by_cases hcurrent : current = kind
    · subst hcurrent
      rw [slotsOf_cons_self htx] at hnodup
      exact (List.nodup_cons.mp hnodup).2
    · rw [slotsOf_cons_of_ne htx hcurrent] at hnodup
      exact hnodup
  · obtain ⟨-, hcarries⟩ := List.forall₂_cons.mp h.carries
    refine carries_imp hcarries fun prepared hmem packet' hold ↦ ?_
    -- another packet of the same class belongs to another slot
    have hother : ∀ i, prepared.1.slotIn kind = some i → tx.slotIn kind ≠ some i := by
      intro i hi heq
      have hnodup := h.nodup kind
      rw [slotsOf_cons_self htx] at hnodup
      refine (List.nodup_cons.mp hnodup).1 (List.mem_filterMap.mpr ⟨prepared, hmem, ?_⟩)
      rw [hi, ← heq]
      exact slotIn_self htx
    have hne : ∀ current i, prepared.1.slotIn current = some i → tx.slotIn current ≠ some i := by
      intro current i hi
      by_cases hcurrent : current = kind
      · subst hcurrent
        exact hother i hi
      · rw [slotIn_of_ne htx hcurrent]
        exact nofun
    refine hold.congr fun current i hi ↦ ?_
    rcases hqps i with heq | heq
    · rw [heq, Option.map_map]
      refine congrFun (congrArg Option.map (funext fun qp ↦ ?_)) _
      exact half_advance (hne current i hi) now qp
    · rw [heq]
  · have hreplies := h.replies
    rw [repliesOf_cons htx] at hreplies
    rw [hpending]
    exact hreplies

theorem PreparedTx.advance_of_ne (htx : tx.qpIndex = some (kind, index)) {i : Fin QPS}
    (hi : i ≠ index) (qp : QpTransport MRS SQ RQ CQ) : tx.advance now i qp = qp := by
  cases tx with
  | control => cases htx
  | requester =>
    cases htx
    exact if_neg (Ne.symm hi)
  | responder =>
    cases htx
    exact if_neg (Ne.symm hi)

theorem engine_qps_advance (htx : tx.qpIndex = some (kind, index))
    (hslot : ep.qps index = some slot) (hqps : ep'.qps = Function.update ep.qps index
      (some { slot with toQpTransport := tx.advance now index slot.toQpTransport })) (i : Fin QPS) :
    ep'.engine.qps i = (ep.engine.qps i).map (tx.advance now i) := by
  by_cases hi : i = index
  · subst hi
    rw [Holds.engine_qps ((congrFun hqps i).trans (Function.update_self ..)),
      Holds.engine_qps hslot, Option.map_some]
  · rw [Holds.engine_qps_congr ((congrFun hqps i).trans (Function.update_of_ne hi ..)),
      funext (PreparedTx.advance_of_ne htx hi), Option.map_id']

theorem Owed.accept (hint : Internal allowed now)
    (h : Owed allowed start turns next ((tx, length) :: staged) packets ep)
    (htx : tx.qpIndex = some (kind, index)) (hslot : ep.qps index = some slot)
    (hpacket : slot.HasPacket kind) :
    Holds allowed start
      (booksOf (turns ++ [.accepted kind index slot.toQpTransport]) next staged)
      (dirtyOf ((tx, length) :: staged)) (ep.log (.accepted kind index slot.toQpTransport)) := by
  have hkind : (booksOf turns next ((tx, length) :: staged) : Books QPS MRS SQ RQ CQ).flight kind =
      index :: slotsOf kind staged := slotsOf_cons_self htx
  have haccepted := h.toHolds.accept hslot (hint (.accept kind index) trivial) hpacket hkind
  rw [booksOf_fly turns next _ rfl fun other hne ↦ slotsOf_cons_of_ne htx hne] at haccepted
  exact haccepted

def Commits (allowed : EngineEvent QPS → Prop) (start : Engine QPS MRS SQ RQ CQ)
    (turns : List (Activity QPS MRS SQ RQ CQ)) (staged : List (PreparedTx QPS × ℕ))
    (packets : List WirePacket) (now : ℕ) (prepared : PreparedTx QPS × ℕ)
    (ep : RcEndpoint QPS MRS SQ RQ CQ IDX) : Prop :=
  ∃ turns' next', Owed allowed start turns' next' staged packets
      (ep.commitPreparedTx prepared.1 now).1 ∧
    (ep.commitPreparedTx prepared.1 now).2 = .ok () ∧ (Unreturned turns → Unreturned turns') ∧
    Committed now [prepared] ep (ep.commitPreparedTx prepared.1 now).1

theorem Owed.commitControl {reply : ControlReply}
    (h : Owed allowed start turns next ((.control reply, length) :: staged) (packet :: packets) ep)
    (now : ℕ) : Commits allowed start turns staged packets now (.control reply, length) ep := by
  obtain ⟨rest, hrest⟩ := h.replies
  have hitems : ep.pendingControl.items = reply :: (repliesOf staged ++ rest) := hrest.symm
  cases hpop : ep.pendingControl.pop with
  | none =>
    rw [Ring.pop_eq_none.mp hpop] at hitems
    cases hitems
  | some head =>
    obtain ⟨actual, ring⟩ := head
    have hhead := Ring.pop_eq_some.mp hpop
    rw [hitems, List.cons.injEq] at hhead
    obtain ⟨rfl, hring⟩ := hhead
    have haccepted := h.toHolds.acceptReply hpop
    obtain ⟨stats, hstats⟩ :=
      Holds.recordControlTransmit_eq { ep with pendingControl := ring } reply
    have hcommit : ep.commitPreparedTx (.control reply) now =
        (RcEndpoint.log { ep with pendingControl := ring, stats := stats } (.replied reply),
          .ok ()) := by
      unfold RcEndpoint.commitPreparedTx
      rw [hpop]
      dsimp only
      rw [if_neg (not_not.mpr rfl), hstats]
    unfold Commits
    rw [hcommit]
    refine ⟨turns, next, ⟨haccepted.withStats stats, h.nodup,
      (List.forall₂_cons.mp h.carries).2, rest, hring⟩, rfl, id, fun i ↦ ?_, ?_⟩
    · exact Option.map_id'.symm
    · rw [hitems]
      exact hring.symm

/-- A data packet is committed: its queue pair moves on, and is synchronized. -/
theorem Owed.commitData {mid : RcEndpoint QPS MRS SQ RQ CQ IDX} {next' : DataTxClass}
    (h : Owed allowed start turns next ((tx, length) :: staged) (packet :: packets) ep)
    (htx : tx.qpIndex = some (kind, index)) (hslot : ep.qps index = some slot)
    (hcommit : ep.commitPreparedTx tx now = (mid.synchronizeQp index, .ok ()))
    (hholds : Holds allowed start
      (booksOf (turns ++ [.accepted kind index slot.toQpTransport]) next' staged)
      (dirtyOf ((tx, length) :: staged) \ AllOf index) (mid.synchronizeQp index))
    (hqps : mid.qps = Function.update ep.qps index
      (some { slot with toQpTransport := tx.advance now index slot.toQpTransport }))
    (hpending : mid.pendingControl = ep.pendingControl) :
    Commits allowed start turns staged packets now (tx, length) ep := by
  obtain ⟨-, -, -, -, hframe, -⟩ := RcEndpoint.frame_synchronizeQp mid index
  have hqps' : ∀ i, (mid.synchronizeQp index).engine.qps i =
      (ep.engine.qps i).map (tx.advance now i) := by
    intro i
    rw [Holds.engine_synchronizeQp]
    exact engine_qps_advance htx hslot hqps i
  unfold Commits
  rw [hcommit]
  refine ⟨_, _, h.settle now htx hholds (fun i ↦ .inl (hqps' i)) (hframe.trans hpending), rfl,
    fun hturns ↦ hturns.snoc nofun, hqps', ?_⟩
  rw [hframe, hpending, repliesOf_cons htx]
  rfl

theorem Owed.commitRequester (hint : Internal allowed now) {timeoutTicks : ℕ}
    (h : Owed allowed start turns next ((.requester index timeoutTicks nextClass, length) :: staged)
      (packet :: packets) ep) :
    Commits allowed start turns staged packets now
      (.requester index timeoutTicks nextClass, length) ep := by
  obtain ⟨⟨qp, active, hqp, hactive, hphase, -⟩, -⟩ := List.forall₂_cons.mp h.carries
  obtain ⟨slot, hslot, rfl⟩ := Holds.engine_qps_eq_some hqp
  have hsending : ∀ current, slot.activeRequest = some current → current.phase = .sending := by
    intro current hcurrent
    cases hactive.symm.trans hcurrent
    exact hphase
  have haccepted := h.accept hint rfl hslot ⟨active, hactive⟩
  refine h.commitData rfl hslot ?_
    ((haccepted.withClass nextClass).sent hint hslot hsending timeoutTicks) ?_ rfl
  · unfold RcEndpoint.commitPreparedTx
    dsimp only
    rw [hslot]
    rfl
  · rw [PreparedTx.advance, if_pos rfl]
    rfl

theorem Owed.commitResponder (hint : Internal allowed now)
    (h : Owed allowed start turns next ((.responder index nextClass, length) :: staged)
      (packet :: packets) ep) :
    Commits allowed start turns staged packets now (.responder index nextClass, length) ep := by
  obtain ⟨⟨qp, response, hqp, hresponse, -⟩, -⟩ := List.forall₂_cons.mp h.carries
  obtain ⟨slot, hslot, rfl⟩ := Holds.engine_qps_eq_some hqp
  have haccepted := (h.accept hint rfl hslot ⟨response, hresponse⟩).withClass nextClass
  have hslot' : RcEndpoint.qps { ep with nextDataTxClass := nextClass } index = some slot := hslot
  refine h.commitData rfl hslot (RcEndpoint.advanceReadResponse_eq hslot')
    (haccepted.advanced hint hslot) ?_ rfl
  rw [PreparedTx.advance, if_pos rfl]
  exact congrArg (fun qp ↦ Function.update ep.qps index (some { slot with toQpTransport := qp }))
    (advanceReadContext_spec (haccepted.counted hslot)).1

/-- **Committing the first staged packet.** -/
theorem Owed.commitPreparedTx (hint : Internal allowed now)
    (h : Owed allowed start turns next (prepared :: staged) (packet :: packets) ep) :
    Commits allowed start turns staged packets now prepared ep := by
  obtain ⟨tx, length⟩ := prepared
  cases tx with
  | control reply => exact h.commitControl now
  | requester index timeoutTicks nextClass => exact h.commitRequester hint
  | responder index nextClass => exact h.commitResponder hint

namespace Committed

variable {now : ℕ}

theorem refl (ep : RcEndpoint QPS MRS SQ RQ CQ IDX) : Committed now [] ep ep :=
  ⟨fun _ ↦ Option.map_id'.symm, rfl⟩

theorem cons {prepared : PreparedTx QPS × ℕ} {accepted : List (PreparedTx QPS × ℕ)}
    {ep'' : RcEndpoint QPS MRS SQ RQ CQ IDX} (h : Committed now [prepared] ep ep')
    (h' : Committed now accepted ep' ep'') : Committed now (prepared :: accepted) ep ep'' := by
  refine ⟨fun i ↦ ?_, ?_⟩
  · rw [h'.qps, h.qps, Option.map_map]
    rfl
  · rw [h'.pending, h.pending, List.drop_drop, ← List.length_append, ← repliesOf_append]
    rfl

end Committed

/-- **Committing the accepted packets of a batch.**  No commit fails. -/
theorem commitAcceptedBatch_commits (hint : Internal allowed now)
    (rest accepted : List (PreparedTx QPS × ℕ)) :
    ∀ {ep : RcEndpoint QPS MRS SQ RQ CQ IDX} {turns : List (Activity QPS MRS SQ RQ CQ)}
      {next : DataTxClass} {packets : List WirePacket} (progress : RcProgress),
      Owed allowed start turns next (accepted ++ rest) packets ep →
      (∃ turns' next', Owed allowed start turns' next' rest (packets.drop accepted.length)
          (RcEndpoint.commitAcceptedBatch now accepted ep progress none).1 ∧
        (Unreturned turns → Unreturned turns')) ∧
      (RcEndpoint.commitAcceptedBatch now accepted ep progress none).2.2 = none ∧
      Committed now accepted ep
        (RcEndpoint.commitAcceptedBatch now accepted ep progress none).1 := by
  induction accepted with
  | nil =>
    intro ep turns next packets progress h
    exact ⟨⟨turns, next, h, id⟩, rfl, .refl ep⟩
  | cons prepared accepted ih =>
    intro ep turns next packets progress h
    cases packets with
    | nil => exact nomatch h.carries
    | cons packet packets =>
      obtain ⟨turns', next', howed, hok, hturns, hcommitted⟩ := Owed.commitPreparedTx hint h
      have hrecorded : Owed allowed start turns' next' (accepted ++ rest) packets
          ((ep.commitPreparedTx prepared.1 now).1.recordTransmit prepared.2) := howed.withStats _
      obtain ⟨⟨turns'', next'', howed', hturns'⟩, herror, hcommitted'⟩ :=
        ih { progress with transmittedPackets := progress.transmittedPackets + 1 } hrecorded
      unfold RcEndpoint.commitAcceptedBatch
      dsimp only
      rw [hok]
      exact ⟨⟨turns'', next'', howed', hturns' ∘ hturns⟩, herror,
        hcommitted.cons ⟨hcommitted'.qps, hcommitted'.pending⟩⟩

/-! ## Rollback -/

theorem rollbackPreparedTx_frame (ep : RcEndpoint QPS MRS SQ RQ CQ IDX) (tx : PreparedTx QPS) :
    (ep.rollbackPreparedTx tx).engine = ep.engine ∧
      (ep.rollbackPreparedTx tx).pendingControl = ep.pendingControl := by
  unfold RcEndpoint.rollbackPreparedTx
  split
  · rename_i kind index _
    obtain ⟨-, -, -, -, hpending, -⟩ :=
      RcEndpoint.frame_synchronizeQp (ep.log (.returned kind index)) index
    rw [Holds.engine_synchronizeQp, Holds.engine_log _ _ rfl]
    exact ⟨rfl, hpending⟩
  · exact ⟨rfl, rfl⟩

/-- Rolling back the first staged packet. -/
theorem Holds.rollbackPreparedTx (h : Holds allowed start (booksOf turns next (prepared :: staged))
      (dirtyOf (prepared :: staged)) ep)
    (hnodup : ∀ kind, (slotsOf kind (prepared :: staged)).Nodup) :
    (∃ turns', Holds allowed start (booksOf turns' next staged) (dirtyOf staged)
      (ep.rollbackPreparedTx prepared.1)) ∧ ∀ kind, (slotsOf kind staged).Nodup := by
  obtain ⟨tx, length⟩ := prepared
  unfold RcEndpoint.rollbackPreparedTx
  cases htx : tx.qpIndex with
  | none =>
    have hslots := slotsOf_cons_none htx length staged
    obtain ⟨hbooks, hdirty⟩ := booksOf_congr turns next hslots
    rw [hbooks, hdirty] at h
    exact ⟨⟨turns, h⟩, fun kind ↦ hslots kind ▸ hnodup kind⟩
  | some data =>
    obtain ⟨kind, index⟩ := data
    have hrest : ∀ current, (slotsOf current staged).Nodup := by
      intro current
      have hcurrent := hnodup current
      by_cases heq : current = kind
      · subst heq
        rw [slotsOf_cons_self htx] at hcurrent
        exact (List.nodup_cons.mp hcurrent).2
      · rw [slotsOf_cons_of_ne htx heq] at hcurrent
        exact hcurrent
    have hgiven := h.giveBack kind index
    have hslots : ((booksOf turns next ((tx, length) :: staged) :
        Books QPS MRS SQ RQ CQ).flight kind).filter (· ≠ index) = slotsOf kind staged := by
      have hself := hnodup kind
      change (slotsOf kind ((tx, length) :: staged)).filter _ = _
      rw [slotsOf_cons_self htx] at hself ⊢
      rw [List.filter_cons_of_neg (by simp), List.filter_eq_self]
      intro i hi
      exact decide_eq_true fun heq ↦ (List.nodup_cons.mp hself).1 (heq ▸ hi)
    rw [booksOf_fly turns next _ hslots fun other hne ↦ slotsOf_cons_of_ne htx hne] at hgiven
    exact ⟨⟨_, (hgiven.sync index).mono (dirtyOf_cons htx)⟩, hrest⟩

/-- **Rolling back every staged packet.** -/
theorem rollbackAll_holds (staged : List (PreparedTx QPS × ℕ)) :
    ∀ {ep : RcEndpoint QPS MRS SQ RQ CQ IDX} {turns : List (Activity QPS MRS SQ RQ CQ)},
      Holds allowed start (booksOf turns next staged) (dirtyOf staged) ep →
      (∀ kind, (slotsOf kind staged).Nodup) →
      (∃ turns', Holds allowed start (.settled turns' next) ∅ (ep.rollbackAll staged) ∧
        (staged = [] → turns' = turns)) ∧
      (ep.rollbackAll staged).engine = ep.engine ∧
      (ep.rollbackAll staged).pendingControl = ep.pendingControl := by
  induction staged with
  | nil =>
    intro ep turns h _
    rw [booksOf_nil, dirtyOf_nil] at h
    exact ⟨⟨turns, h, fun _ ↦ rfl⟩, rfl, rfl⟩
  | cons prepared staged ih =>
    intro ep turns h hnodup
    obtain ⟨⟨turns', hholds⟩, hrest⟩ := h.rollbackPreparedTx hnodup
    obtain ⟨⟨turns'', hholds', -⟩, hengine, hpending⟩ := ih hholds hrest
    obtain ⟨hengine', hpending'⟩ := rollbackPreparedTx_frame ep prepared.1
    exact ⟨⟨turns'', hholds', nofun⟩, hengine.trans hengine', hpending.trans hpending'⟩

end Batch

end Rocev2.Rc
