import Mathlib.Data.List.Chain
import Rocev2.Rc.AcceptedWork
import Rocev2.Rc.BatchPrefix

/-!
# Fairness of the data path

Each class of data packets, those of requesters and READ responses, has a ready queue; its history
is the log of a round-robin queue (`Rocev2.Lib.RoundRobin`), in which a slot is taken when its
packet is built and served when the backend accepts the packet.  Such a log is fair unless a slot
that was taken is returned.

* `scalar_fairness` — a scalar progress call returns a slot only when the backend refuses its
  packet or an ACK timeout is not representable.  Otherwise both queues are fair, and the classes
  take turns as long as both have something to send.
* `batch_round_robin` — a batched call returns no slot either when the backend lends frames that can
  hold every packet and accepts all that it is given, and the ACK timeouts are representable.
* `batch_round_robin_unfair` — but a batch of which a part is accepted does: the slots that are
  committed rejoin the queue before those that are rolled back, so the same slot is the head of the
  next batch, and the others may starve.
-/

namespace Rocev2.Rc

open Rocev2.Lib

variable {QPS MRS SQ RQ CQ IDX : ℕ} {ep : RcEndpoint QPS MRS SQ RQ CQ IDX}

/-- The history of a ready queue. -/
def RcEndpoint.trace (ep : RcEndpoint QPS MRS SQ RQ CQ IDX) (kind : DataTxClass) :
    List (RoundRobin.Event (Fin QPS)) :=
  ep.activity.filterMap (Activity.turn kind)

theorem RcEndpoint.Reachable.fair (h : ep.Reachable) (hturns : Unreturned ep.turns)
    (kind : DataTxClass) : RoundRobin.Fair (ep.trace kind) := by
  have hlogged := (h.here fun _ ↦ True).logged
  refine (hlogged.traced kind).fair fun index hmem ↦ ?_
  obtain ⟨event, hevent, hreturned⟩ := List.mem_filterMap.mp hmem
  cases event with
  | returned current i =>
    exact hturns current i (List.mem_filter.mpr ⟨hevent, rfl⟩)
  | faulted current i => exact nomatch hlogged.faultless _ hevent
  | ready current i | idle current i | taken current i | accepted current i =>
    simp only [Activity.turn] at hreturned
    split at hreturned <;> cases hreturned
  | replied => cases hreturned

theorem RcEndpoint.RunWhile.reachable {C : RcEndpoint QPS MRS SQ RQ CQ IDX → Op → Prop}
    {ep₀ : RcEndpoint QPS MRS SQ RQ CQ IDX} (hinitial : ep₀.Initial) (h : RunWhile C ep₀ ep) :
    ep.Reachable := by
  induction h with
  | refl => exact ⟨ep₀, hinitial, .refl⟩
  | tail hrun _ hstep ih =>
    obtain ⟨-, rfl⟩ := hstep
    exact ih.step _

theorem RcEndpoint.Reachable.turned (h : ep.Reachable) (op : Op) :
    op.Turned (fun event ↦ op.Causes event) ep.engine ep (ep.step op) :=
  ((h.here _).step fun _ hcauses ↦ hcauses).2

theorem RcEndpoint.Initial.turns (h : ep.Initial) :
    ep.turns = [] := by
  obtain ⟨⟨config, identity, bytes, rfl⟩, -⟩ := h.eq_empty
  rfl

/-! ## Scalar calls -/

/-- The backend accepts the packet that it is given, if any, and no packets are batched. -/
def Op.transmits : Op → Bool
  | .progress _ io => io.transmitOk
  | .progressBatch _ _ _ => false
  | _ => true

/-- An operation of a scalar run, in which the ACK timeouts are representable. -/
abbrev ScalarOp (ep : RcEndpoint QPS MRS SQ RQ CQ IDX) (op : Op) : Prop :=
  (∀ i, ep.Timed i) ∧ op.transmits = true

/-- A data packet that was sent, with what waited in its own class and what was runnable in the
other one when its slot was taken. -/
structure Round (QPS MRS SQ RQ CQ : ℕ) where
  kind : DataTxClass
  index : Fin QPS
  waiting : List (Fin QPS)
  others : List (Fin QPS)
  qp : QpTransport MRS SQ RQ CQ

def Round.entries (round : Round QPS MRS SQ RQ CQ) : List (Activity QPS MRS SQ RQ CQ) :=
  [.taken round.kind round.index round.waiting round.others,
    .accepted round.kind round.index round.qp]

/-- **The classes take turns**: all turns are rounds, and a class that sends twice in a row does so
because the other one had no runnable slot. -/
structure Alternates (turns : List (Activity QPS MRS SQ RQ CQ)) (next : DataTxClass)
    (rounds : List (Round QPS MRS SQ RQ CQ)) : Prop where
  turns : turns = rounds.flatMap Round.entries
  chain : rounds.IsChain fun round round' ↦ round.kind = round'.kind → round'.others = []
  next : ∀ round ∈ rounds.getLast?, next = round.kind.other

theorem Alternates.unreturned {turns : List (Activity QPS MRS SQ RQ CQ)} {next : DataTxClass}
    {rounds : List (Round QPS MRS SQ RQ CQ)} (h : Alternates turns next rounds) :
    Unreturned turns := by
  intro kind index hmem
  rw [h.turns] at hmem
  obtain ⟨round, -, hround⟩ := List.mem_flatMap.mp hmem
  simp [Round.entries] at hround

theorem Alternates.snoc {turns : List (Activity QPS MRS SQ RQ CQ)} {next : DataTxClass}
    {rounds : List (Round QPS MRS SQ RQ CQ)} (h : Alternates turns next rounds)
    (round : Round QPS MRS SQ RQ CQ) (hturn : round.kind = next ∨ round.others = []) :
    Alternates (turns ++ round.entries) round.kind.other (rounds ++ [round]) where
  turns := by
    rw [List.flatMap_append, ← h.turns]
    simp
  chain := by
    refine List.isChain_append.mpr
      ⟨h.chain, .singleton _, fun last hlast current hcurrent hsame ↦ ?_⟩
    cases hcurrent
    refine hturn.resolve_left fun hnext ↦ ?_
    rw [h.next last hlast, hsame] at hnext
    cases hkind : round.kind <;> rw [hkind] at hnext <;> cases hnext
  next := by simp

theorem alternates_step (h : ep.Reachable) {op : Op} (hop : ScalarOp ep op)
    (hold : ∃ rounds, Alternates ep.turns ep.nextDataTxClass rounds) :
    ∃ rounds, Alternates (ep.step op).turns (ep.step op).nextDataTxClass rounds := by
  obtain ⟨htimed, hcall⟩ := hop
  have hturned := h.turned op
  have hother : (ep.step op).turns = ep.turns ∧
      (ep.step op).nextDataTxClass = ep.nextDataTxClass →
      ∃ rounds, Alternates (ep.step op).turns (ep.step op).nextDataTxClass rounds := by
    rintro ⟨hturns, hnext⟩
    rw [hturns, hnext]
    exact hold
  cases op with
  | progress now io =>
    by_cases hshort : io.transmitBuffer < ep.config.maximumPacketSize
    · -- the call returns before it does anything
      have hsame : ep.step (.progress now io) = ep := by
        change (ep.progress now io).1 = ep
        unfold RcEndpoint.progress
        split <;> rfl
      rw [hsame]
      exact hold
    have hpunctual := RcEndpoint.punctual_of_timed (.progress now io) rfl htimed
    obtain ⟨rounds, halternates⟩ := hold
    change Turns _ _ _ _ _ _ _ at hturned
    generalize (ep.step (.progress now io)).turns = turns',
      (ep.step (.progress now io)).nextDataTxClass = next' at hturned ⊢
    cases hturned with
    | idle => exact ⟨rounds, halternates⟩
    | @sent kind index waiting others qp next' hok hnext hturn =>
      subst hnext
      exact ⟨_, halternates.snoc ⟨kind, index, waiting, others, qp⟩
        (hturn.imp_right fun hothers ↦ hothers hpunctual)⟩
    | failed hexcuse =>
      cases hexcuse with
      | refused hrefused => exact nomatch hrefused.symm.trans hcall
      | late hlate => exact absurd hpunctual hlate
      | short hlength => exact absurd hlength hshort
  | progressBatch => cases hcall
  | registerMemory | deregisterMemory | writeMemory | createQp | removeQp | reconfigureQp
  | transitionQp | postWork | postWorkBatch | postReceive | postReceiveBatch | pollCompletion
  | pollCompletions => exact hother hturned

/-- **Scalar transmit fairness.**  In every run in which the ACK timeouts are representable and the
backend accepts what it is given: (a) all data packets, in order, are such that a class sends twice
in a row only when the other one had no runnable slot at the second packet; (b) both ready queues
are fair. -/
theorem scalar_fairness {ep₀ ep : RcEndpoint QPS MRS SQ RQ CQ IDX} (hinitial : ep₀.Initial)
    (hrun : RcEndpoint.RunWhile ScalarOp ep₀ ep) :
    (∃ rounds : List (Round QPS MRS SQ RQ CQ), ep.turns = rounds.flatMap Round.entries ∧
      rounds.IsChain fun round round' ↦ round.kind = round'.kind → round'.others = []) ∧
    ∀ kind, RoundRobin.Fair (ep.trace kind) := by
  have hreachable := RcEndpoint.RunWhile.reachable hinitial hrun
  obtain ⟨rounds, halternates⟩ : ∃ rounds, Alternates ep.turns ep.nextDataTxClass rounds := by
    induction hrun with
    | refl => exact ⟨[], hinitial.turns, .nil, fun _ hlast ↦ nomatch hlast⟩
    | tail hrun _ hstep ih =>
      obtain ⟨hop, rfl⟩ := hstep
      have hbefore := RcEndpoint.RunWhile.reachable hinitial hrun
      exact alternates_step hbefore hop (ih hbefore)
  exact ⟨⟨rounds, halternates.turns, halternates.chain⟩,
    hreachable.fair halternates.unreturned⟩

/-! ## Batches -/

/-- The number of packets that a batched call submits. -/
def RcEndpoint.staged (ep : RcEndpoint QPS MRS SQ RQ CQ IDX) (now budget : ℕ) (io : BatchIo) : ℕ :=
  ((ep.staging now budget io).map fun batch ↦ batch.2.2.1.length).getD 0

/-- The backend takes every packet that it is given, and packets are sent in batches only. -/
def Op.takesAll (ep : RcEndpoint QPS MRS SQ RQ CQ IDX) : Op → Bool
  | .progress _ _ => false
  | .progressBatch now budget io => ep.takesAll now budget io
  | _ => true

/-- An operation of a batched run, in which the ACK timeouts are representable. -/
abbrev WholeBatchOp (ep : RcEndpoint QPS MRS SQ RQ CQ IDX) (op : Op) : Prop :=
  (∀ i, ep.Timed i) ∧ op.takesAll ep = true

/-- **Batched round-robin fairness**, in every run in which the ACK timeouts are representable and
the backend takes every packet that it is given. -/
theorem batch_round_robin {ep₀ ep : RcEndpoint QPS MRS SQ RQ CQ IDX} (hinitial : ep₀.Initial)
    (hrun : RcEndpoint.RunWhile WholeBatchOp ep₀ ep) :
    RoundRobin.Fair (ep.trace .requester) := by
  refine (RcEndpoint.RunWhile.reachable hinitial hrun).fair ?_ .requester
  induction hrun with
  | refl =>
    rw [hinitial.turns]
    exact fun _ _ ↦ List.not_mem_nil
  | @tail ep ep' op hrun _ hstep ih =>
    obtain ⟨⟨htimed, hall⟩, rfl⟩ := hstep
    have hturned := (RcEndpoint.RunWhile.reachable hinitial hrun).turned op
    cases op with
    | progressBatch now budget io =>
      exact hturned (RcEndpoint.punctual_of_timed (.progressBatch now budget io) rfl htimed) hall ih
    | progress => cases hall
    | registerMemory | deregisterMemory | writeMemory | createQp | removeQp | reconfigureQp
    | transitionQp | postWork | postWorkBatch | postReceive | postReceiveBatch | pollCompletion
    | pollCompletions => exact hturned.1 ▸ ih

theorem scalar_fairness_rivals :
    ((Sample.pair.steps (rivals ++ List.replicate 5 (Sample.polls 0 true))).turns.length = 10) ∧
    ∀ kind, RoundRobin.Fair
      ((Sample.pair.steps (rivals ++ List.replicate 5 (Sample.polls 0 true))).trace kind) := by
  refine ⟨by decide +kernel, (scalar_fairness Sample.pair_initial ?_).2⟩
  exact RcEndpoint.Meets.runWhile (by decide +kernel)

theorem batch_round_robin_rivals :
    ((Sample.pair.steps (rivals ++ List.replicate 2
      (.progressBatch 0 2 { acceptsOne with accepted := 2 }))).turns.length = 8) ∧
    RoundRobin.Fair ((Sample.pair.steps (rivals ++ List.replicate 2
      (.progressBatch 0 2 { acceptsOne with accepted := 2 }))).trace .requester) := by
  refine ⟨by decide +kernel, batch_round_robin Sample.pair_initial ?_⟩
  exact RcEndpoint.Meets.runWhile (by decide +kernel)

/-- An operation of a run of batched calls of which a nonempty prefix is accepted. -/
def PrefixBatchOp (ep : RcEndpoint QPS MRS SQ RQ CQ IDX) : Op → Bool
  | .progressBatch now budget io =>
    (ep.progressBatch now budget io).2.isOk && decide (0 < io.accepted) &&
      decide (io.accepted ≤ ep.staged now budget io)
  | .progress _ _ => false
  | _ => true

/-- **Partial acceptance starves a queue pair.**  Both batches stage a packet of each queue pair,
and the backend accepts the first one.  The second queue pair waits when the first one is taken, it
never becomes idle, and yet the two packets that are accepted are both of the first. -/
theorem batch_round_robin_unfair : ∃ ep₀ ep : RcEndpoint 2 1 2 2 4 4, ep₀.Initial ∧
    RcEndpoint.RunWhile (fun ep op ↦ PrefixBatchOp ep op = true) ep₀ ep ∧
    ¬RoundRobin.Fair (ep.trace .requester) := by
  refine ⟨Sample.pair,
    Sample.pair.steps (rivals ++ List.replicate 2 (.progressBatch 0 2 acceptsOne)),
    Sample.pair_initial, RcEndpoint.Meets.runWhile (by decide +kernel), fun hfair ↦ ?_⟩
  have htrace : (Sample.pair.steps (rivals ++
      List.replicate 2 (.progressBatch 0 2 acceptsOne))).trace .requester =
        [.idle 0, .idle 0, .idle 0, .idle 1, .idle 1, .idle 1, .ready 0, .ready 1] ++
        .taken 0 [1] :: ([.taken 1 []] ++
        .served 0 :: ([.ready 0, .returned 1, .ready 1, .taken 0 [1], .taken 1 []] ++
        .served 0 :: [.ready 0, .returned 1, .ready 1])) := by
    decide +kernel
  have hserved := hfair _ _ _ _ 0 1 [1] htrace (by simp [RoundRobin.Event.IsTurn]) (by decide)
    (by decide) (by decide)
  exact absurd hserved (by decide)

end Rocev2.Rc
