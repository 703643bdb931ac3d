import Rocev2.Endpoint.Table
import Rocev2.Rc.Reachable

/-!
# The queue-pair table, its index and its handles

Both endpoints keep a table of queue pairs, an open-addressed index from queue-pair numbers to
slots, and a generation for each slot.  In every reachable state the index maps exactly the numbers
of the live queue pairs, which are distinct; an operation that fails changes none of the three; and
the index is never full.

The handle of a queue pair that was removed is refused until its slot has been reused so often that
the generations repeat.  There is one exception in the posted-work endpoint: posting an empty batch
succeeds without looking at the handle (`stale_handle_empty_batch`).
-/

namespace Rocev2.Rc

open Rocev2.Core Rocev2.Lib

variable {QPS MRS SQ RQ CQ IDX : ℕ}

/-! ## New queue pairs -/

/-- Without a new queue pair the generations stay, and no free slot is filled. -/
theorem Engine.Run.generations {allowed : EngineEvent QPS → Prop} {e e' : Engine QPS MRS SQ RQ CQ}
    (hallowed : ∀ index config, ¬allowed (.create index config)) (h : Engine.Run allowed e e') :
    e'.generations = e.generations ∧
      ∀ i, (e'.qps i).isSome = true → (e.qps i).isSome = true := by
  refine Lib.Run.invariant (I := fun e' : Engine QPS MRS SQ RQ CQ ↦
    e'.generations = e.generations ∧ ∀ i, (e'.qps i).isSome = true → (e.qps i).isSome = true)
    ?_ h ⟨rfl, fun _ hlive ↦ hlive⟩
  intro s t event hevent hstep hold
  obtain ⟨hgenerations, hlive⟩ := hold
  cases hstep with
  | @qp index _ _ _ _ _ _ hqp =>
    refine ⟨hgenerations, fun i hi ↦ hlive i ?_⟩
    by_cases hindex : i = index
    · simp [hindex, hqp]
    · simpa [hindex] using hi
  | create => exact absurd hevent (hallowed _ _)
  | @remove index =>
    refine ⟨hgenerations, fun i hi ↦ hlive i ?_⟩
    by_cases hindex : i = index
    · simp [hindex] at hi
    · simpa [hindex] using hi
  | _ => exact ⟨hgenerations, hlive⟩

namespace RcEndpoint

/-- The slot that an operation gives to a new queue pair. -/
def created (ep : RcEndpoint QPS MRS SQ RQ CQ IDX) : Op → Option (Fin QPS)
  | .createQp config =>
    match (ep.createQp config).2 with
    | .ok handle => if h : handle.slot < QPS then some ⟨handle.slot, h⟩ else none
    | .error _ => none
  | _ => none

/-- The slots that a sequence of operations gives to new queue pairs, the last one first. -/
def creations (ep : RcEndpoint QPS MRS SQ RQ CQ IDX) : List Op → List (Fin QPS)
  | [] => []
  | op :: ops => creations (ep.step op) ops ++ (ep.created op).toList

/-- The slots as a table of generations. -/
def tenants (ep : RcEndpoint QPS MRS SQ RQ CQ IDX) : Generations.State (Fin QPS) :=
  ⟨ep.generations, fun i ↦ (ep.engine.qps i).isSome = true⟩

/-! ## Every run -/

section Runs

variable {ep : RcEndpoint QPS MRS SQ RQ CQ IDX}

theorem Reachable.tabled (h : ep.Reachable) : ep.Tabled := by
  obtain ⟨_, -, hholds⟩ := h.holds
  exact hholds.tabled

/-- An operation gives at most the slot that it reports to a new queue pair. -/
theorem Reachable.tenants_step (h : ep.Reachable) (op : Op) :
    Generations.Steps (2 ^ 32) ep.tenants (ep.created op).toList (ep.step op).tenants := by
  by_cases hop : ∃ config, op = .createQp config
  · obtain ⟨config, rfl⟩ := hop
    change Generations.Steps (2 ^ 32) ep.tenants _ (ep.createQp config).1.tenants
    rcases h.tabled.createQp_cases config with ⟨e, heq, -⟩ | ⟨index, slot, table, -, -, -, -, heq⟩
    · simp only [created, heq, Option.toList_none]
      exact .refl
    · simp only [created, heq, index.isLt, dif_pos, Option.toList_some]
      refine .reuse .refl rfl fun i hlive ↦ ?_
      by_cases hi : i = index
      · exact .inl hi
      · refine .inr ?_
        simpa [tenants, engine, hi] using hlive
  · have hcreated : ep.created op = none := by
      cases op with
      | createQp config => exact absurd ⟨config, rfl⟩ hop
      | _ => rfl
    rw [hcreated, Option.toList_none]
    have hevent : ∀ (index : Fin QPS) config, ¬op.Causes (.create index config) := by
      intro index config hcauses
      cases hcauses with
      | create => exact hop ⟨_, rfl⟩
      | internal _ hinternal => exact hinternal
    obtain ⟨hcurrent, hlive⟩ := (h.engine_run op).generations hevent
    exact .lapse .refl hcurrent hlive

theorem Reachable.tenants_steps (h : ep.Reachable) (ops : List Op) :
    Generations.Steps (2 ^ 32) ep.tenants (ep.creations ops) (ep.steps ops).tenants := by
  induction ops generalizing ep with
  | nil => exact .refl
  | cons op ops ih => exact (h.tenants_step op).trans (ih (h.step op))

theorem Reachable.generation_bounds (h : ep.Reachable) {i : Fin QPS} {slot : RcQpSlot MRS SQ RQ CQ}
    (hslot : ep.qps i = some slot) : 0 < slot.generation ∧ slot.generation < 2 ^ 32 := by
  rw [h.tabled.aged i slot hslot]
  obtain ⟨ep₀, hinitial, hrun⟩ := h
  obtain ⟨-, log, hsteps⟩ := Lib.Run.invariant (I := fun ep : RcEndpoint QPS MRS SQ RQ CQ IDX ↦
    ep.Reachable ∧ ∃ log, Generations.Steps (2 ^ 32) ep₀.tenants log ep.tenants)
    (by
      rintro s t op - rfl ⟨hreachable, log, hsteps⟩
      exact ⟨hreachable.step op, _, hsteps.trans (hreachable.tenants_step op)⟩)
    hrun ⟨⟨ep₀, hinitial, .refl⟩, [], .refl⟩
  exact hsteps.current_bounds (i := i) (by decide)
    (by simp [tenants, hinitial.qps_eq_none]) (by simp [tenants, Holds.engine_qps hslot])

end Runs

/-! ## Handles -/

/-- Every operation refuses the handle and changes nothing; an empty batch is not looked at. -/
structure Rejects (ep : RcEndpoint QPS MRS SQ RQ CQ IDX) (handle : QpHandle) : Prop where
  removeQp : ep.removeQp handle = (ep, .error .invalidQpHandle)
  qpState : ep.qpState handle = .error .invalidQpHandle
  qpConfig : ep.qpConfig handle = .error .invalidQpHandle
  reconfigureQp : ∀ config, ∃ e, ep.reconfigureQp handle config = (ep, .error e)
  transitionQp : ∀ destination, ep.transitionQp handle destination = (ep, .error .invalidQpHandle)
  postWork : ∀ work, ep.postWork handle work = (ep, .error .invalidQpHandle)
  postWorkBatch : ∀ works, works ≠ [] →
    ep.postWorkBatch handle works = (ep, .error .invalidQpHandle)
  postReceive : ∀ work, ep.postReceive handle work = (ep, .error .invalidQpHandle)
  postReceiveBatch : ∀ works, works ≠ [] →
    ep.postReceiveBatch handle works = (ep, .error .invalidQpHandle)
  pollCompletion : ep.pollCompletion handle = (ep, .error .invalidQpHandle)
  pollCompletions : ∀ count, ep.pollCompletions handle count = (ep, .error .invalidQpHandle)
  completionLen : ep.completionLen handle = .error .invalidQpHandle

section Handles

variable {ep : RcEndpoint QPS MRS SQ RQ CQ IDX} {handle : QpHandle}

theorem rejects_of_qpIndex (h : ep.qpIndex handle = none) : ep.Rejects handle where
  removeQp := by simp [RcEndpoint.removeQp, h]
  qpState := by simp [RcEndpoint.qpState, h]
  qpConfig := by simp [RcEndpoint.qpConfig, h]
  reconfigureQp config := by
    unfold RcEndpoint.reconfigureQp
    split
    · exact ⟨_, rfl⟩
    · rw [h]
      exact ⟨_, rfl⟩
  transitionQp destination := by simp [RcEndpoint.transitionQp, h]
  postWork work := by simp [RcEndpoint.postWork, h]
  postWorkBatch works hne := by simp [RcEndpoint.postWorkBatch, h, hne]
  postReceive work := by simp [RcEndpoint.postReceive, h]
  postReceiveBatch works hne := by simp [RcEndpoint.postReceiveBatch, h, hne]
  pollCompletion := by simp [RcEndpoint.pollCompletion, h]
  pollCompletions count := by simp [RcEndpoint.pollCompletions, h]
  completionLen := by simp [RcEndpoint.completionLen, h]

/-- The handle of a removed queue pair is refused until the generations of its slot repeat. -/
theorem Reachable.stale_rejected (h : ep.Reachable) {config : RcQpConfig}
    (hremoved : (ep.removeQp handle).2 = .ok config) (ops : List Op)
    (hcount : ((ep.removeQp handle).1.creations ops).countP (fun i ↦ i.val = handle.slot) <
      2 ^ 32 - 1) : ((ep.removeQp handle).1.steps ops).Rejects handle := by
  have hreachable : (ep.removeQp handle).1.Reachable := h.step (.removeQp handle)
  have hgenerations : (ep.removeQp handle).1.generations = ep.generations := by
    refine ((h.engine_run (.removeQp handle)).generations fun index config hcauses ↦ ?_).1
    cases hcauses with
    | internal _ hinternal => exact hinternal
  -- The slot of the handle was occupied, and is free after the removal.
  obtain ⟨index, slot, hindex, -, hresult⟩ := exists_of_removeQp hremoved
  obtain ⟨hslot, hnumber, hgeneration⟩ := QpHandle.find_eq_some.mp hindex
  have hfree : (ep.removeQp handle).1.engine.qps index = none := by
    rw [hresult, Holds.engine_synchronizeQp]
    simp [engine]
  have hbounds := h.generation_bounds hslot
  refine rejects_of_qpIndex (Endpoint.find_stale (hreachable.tenants_steps ops)
    (fun j slot hslot ↦ ⟨by simp [tenants, Holds.engine_qps hslot],
      (hreachable.steps ops).tabled.aged j slot hslot⟩)
    (by simp [tenants, hfree]) ?_ (hgeneration ▸ hbounds) hcount hnumber)
  rw [← hgeneration, h.tabled.aged index slot hslot, ← hgenerations]
  rfl

end Handles

/-- The table, its index and its handles agree. -/
structure TableAgrees (ep : RcEndpoint QPS MRS SQ RQ CQ IDX) : Prop where
  /-- The index maps exactly the numbers of the live queue pairs. -/
  indexed : ∀ qpn slot, ep.qpnIndex.get qpn = some slot ↔
    ∃ i qp, slot = i.val ∧ ep.qps i = some qp ∧ qp.machine.config.localQpn = qpn
  /-- No two live queue pairs have the same number. -/
  distinct : ∀ i j qp qp', ep.qps i = some qp → ep.qps j = some qp' →
    qp.machine.config.localQpn = qp'.machine.config.localQpn → i = j
  /-- A call that fails changes nothing, and does not fail because the index is full. -/
  create : ∀ config e, (ep.createQp config).2 = .error e →
    (ep.createQp config).1 = ep ∧ e ≠ .qpnIndexFull
  remove : ∀ handle e, (ep.removeQp handle).2 = .error e →
    (ep.removeQp handle).1 = ep ∧ e ≠ .qpnIndexFull
  reconfigure : ∀ handle config e, (ep.reconfigureQp handle config).2 = .error e →
    (ep.reconfigureQp handle config).1 = ep ∧ e ≠ .qpnIndexFull
  transition : ∀ handle destination e, (ep.transitionQp handle destination).2 = .error e →
    (ep.transitionQp handle destination).1 = ep ∧ e ≠ .qpnIndexFull
  /-- The handle of a removed queue pair is refused. -/
  stale : ∀ handle config, (ep.removeQp handle).2 = .ok config → ∀ ops,
    ((ep.removeQp handle).1.creations ops).countP (fun i ↦ i.val = handle.slot) < 2 ^ 32 - 1 →
      ((ep.removeQp handle).1.steps ops).Rejects handle

theorem refusal_of_cases {α : Type} {ep : RcEndpoint QPS MRS SQ RQ CQ IDX}
    {result : RcEndpoint QPS MRS SQ RQ CQ IDX × Except ApiError α}
    (h : (∃ e, result = (ep, .error e) ∧ e ≠ .qpnIndexFull) ∨ ∃ value, result.2 = .ok value)
    (e : ApiError) (herror : result.2 = .error e) : result.1 = ep ∧ e ≠ .qpnIndexFull := by
  rcases h with ⟨e', rfl, hfull⟩ | ⟨value, heq⟩
  · cases herror
    exact ⟨rfl, hfull⟩
  · cases heq.symm.trans herror

theorem Reachable.tableAgrees {ep : RcEndpoint QPS MRS SQ RQ CQ IDX} (h : ep.Reachable) :
    ep.TableAgrees := by
  obtain ⟨hindexed, hdistinct⟩ := h.tabled.indexed.entries
  refine ⟨hindexed, hdistinct, ?_, ?_, ?_, ?_, ?_⟩
  · exact fun config ↦ refusal_of_cases ((h.tabled.createQp_cases config).imp_right
      fun ⟨_, _, _, _, _, _, _, heq⟩ ↦ ⟨_, congrArg Prod.snd heq⟩)
  · exact fun handle ↦ refusal_of_cases ((ep.removeQp_cases handle).imp_right
      fun ⟨_, _, _, _, heq⟩ ↦ ⟨_, congrArg Prod.snd heq⟩)
  · exact fun handle config ↦ refusal_of_cases
      ((h.tabled.reconfigureQp_cases handle config).imp_right
        fun ⟨_, _, _, _, _, _, _, _, _, heq⟩ ↦ ⟨_, congrArg Prod.snd heq⟩)
  · exact fun handle destination ↦ refusal_of_cases
      ((ep.transitionQp_cases handle destination).imp_right
        fun ⟨_, _, _, _, _, _, heq⟩ ↦ ⟨_, congrArg Prod.snd heq⟩)
  · intro handle config hremoved ops hcount
    exact h.stale_rejected hremoved ops hcount

end RcEndpoint

/-- **The queue-pair table, its index and its handles agree** in every reachable state of either
endpoint. -/
theorem qp_table_agrees :
    (∀ (QPS MRS SQ RQ CQ IDX : ℕ) (ep : RcEndpoint QPS MRS SQ RQ CQ IDX), ep.Reachable →
      ep.TableAgrees) ∧
    ∀ (QPS IDX : ℕ) (config : EndpointConfig) (maxIpv4Packet : ℕ) (start : Endpoint QPS IDX),
      Endpoint.new QPS IDX config maxIpv4Packet = .ok start → ∀ script,
        (start.calls script).TableAgrees :=
  ⟨fun _ _ _ _ _ _ _ h ↦ h.tableAgrees, fun _ _ _ _ _ hnew script ↦
    Endpoint.tableAgrees_calls hnew script⟩

/-- Two queue pairs, of which the first is removed. -/
theorem qp_table_agrees_removed :
    let ep := Sample.pair.steps [.createQp ⟨Sample.transport 2 1 1, Sample.path, 1⟩,
      .createQp ⟨Sample.transport 3 1 1, Sample.path, 2⟩, .removeQp Sample.handle]
    ep.qpnIndex.get 2 = none ∧ ep.qpnIndex.get 3 = some 1 ∧ ep.TableAgrees ∧
      ((⟨⟨1500⟩, fun _ ↦ none, fun _ ↦ 0, .new⟩ : Endpoint 2 4).calls
        [.createQp (Sample.transport 2 1 1), .createQp (Sample.transport 3 1 1),
          .removeQp Sample.handle]).TableAgrees :=
  ⟨by decide +kernel, by decide +kernel,
    qp_table_agrees.1 2 1 2 2 4 4 _ (RcEndpoint.reachable_steps Sample.pair_initial _),
    qp_table_agrees.2 2 4 ⟨1500⟩ 1500 _ rfl _⟩

/-- **An empty batch is accepted for the handle of a removed queue pair.** -/
theorem stale_handle_empty_batch :
    ((Sample.single.steps [.createQp ⟨Sample.transport 2 1 1, Sample.path, 1⟩]).removeQp
        Sample.handle).2 = .ok ⟨Sample.transport 2 1 1, Sample.path, 1⟩ ∧
      ((Sample.single.steps [.createQp ⟨Sample.transport 2 1 1, Sample.path, 1⟩,
        .removeQp Sample.handle]).postWorkBatch Sample.handle []).2 = .ok 0 := by
  refine ⟨rfl, rfl⟩

end Rocev2.Rc
