import Rocev2.Endpoint
import Rocev2.Lib.Generations

/-!
# The table of the packet endpoint

`CallEffect` lists what a call can do to the table.  It follows that the number index and the table
agree along every run, that the index is never full, that a call that fails changes nothing, and
that the handle of a queue pair that was removed is refused until the generations of its slot
repeat.
-/

namespace Rocev2

/-! ## The number index -/

namespace Core.QpnTable

open Rc

variable {QPS IDX : ℕ} {table table' : QpnTable IDX} {numbers : Fin QPS → Option ℕ} {qpn : ℕ}
  {index : Fin QPS}

theorem insert_of_insertQpn {slot : ℕ} (h : RcEndpoint.insertQpn table qpn slot = .ok table') :
    table.insert qpn slot = .ok table' := by
  unfold RcEndpoint.insertQpn at h
  split at h
  · cases h
  split at h
  · rename_i hinsert
    cases h
    exact hinsert
  all_goals cases h

theorem Lists.insertQpn_ne_full (h : table.Lists numbers) (index : Fin QPS) (qpn : ℕ) :
    RcEndpoint.insertQpn table qpn index.val ≠ .error .qpnIndexFull := by
  intro hinsert
  unfold RcEndpoint.insertQpn at hinsert
  split at hinsert
  · cases hinsert
  split at hinsert
  · cases hinsert
  · cases hinsert
  · cases hinsert
  · rename_i hfull
    exact h.insert_ne_full index qpn hfull

theorem Lists.renumberQpn_ne_full (h : table.Lists numbers) (index : Fin QPS) (previous qpn : ℕ) :
    RcEndpoint.renumberQpn table previous qpn index.val ≠ .error .qpnIndexFull := by
  intro hrenumber
  unfold RcEndpoint.renumberQpn at hrenumber
  split at hrenumber
  · split at hrenumber
    · rename_i hinsert
      cases hrenumber
      exact h.insertQpn_ne_full index _ hinsert
    · cases hrenumber
  · cases hrenumber

theorem Lists.renumberQpn {previous : ℕ} (h : table.Lists numbers)
    (hnumber : numbers index = some previous)
    (hrenumber : RcEndpoint.renumberQpn table previous qpn index.val = .ok table') :
    table'.Lists (Function.update numbers index (some qpn)) := by
  unfold RcEndpoint.renumberQpn at hrenumber
  split at hrenumber
  · rename_i hne
    split at hrenumber
    · cases hrenumber
    · rename_i hinsert
      cases hrenumber
      exact (h.renumber hnumber hne (insert_of_insertQpn hinsert)).1
  · rename_i heq
    cases hrenumber
    rw [← not_not.mp heq, ← hnumber, Function.update_eq_self]
    exact h

end Core.QpnTable

namespace Endpoint

open Rocev2.Core Rc Lib

variable {QPS IDX : ℕ}

/-! ## What a call does -/

/-- The queue-pair numbers of the table. -/
def numbers (ep : Endpoint QPS IDX) (i : Fin QPS) : Option ℕ :=
  (ep.qps i).map fun slot ↦ slot.machine.config.localQpn

/-- The index lists the table, and live queue pairs have the current generation of their slot. -/
structure Inv (ep : Endpoint QPS IDX) : Prop where
  indexed : ep.qpnIndex.Lists ep.numbers
  aged : ∀ i slot, ep.qps i = some slot → slot.generation = ep.generations i

/-- What a call does; the label is the slot that is given to a new queue pair. -/
inductive CallEffect (ep : Endpoint QPS IDX) :
    Option (Fin QPS) → Endpoint QPS IDX × Except ApiError Unit → Prop
  | /-- The call fails. -/
    refused {e} (hfull : e ≠ .qpnIndexFull) : CallEffect ep none (ep, .error e)
  | /-- A queue pair is created in a free slot. -/
    created {index slot table} (hfree : ep.qps index = none)
      (hinsert : ep.qpnIndex.insert slot.machine.config.localQpn index.val = .ok table)
      (hgeneration : slot.generation = nextGeneration (ep.generations index)) :
      CallEffect ep (some index) ({ ep with
        qpnIndex := table
        generations := Function.update ep.generations index (nextGeneration (ep.generations index))
        qps := Function.update ep.qps index (some slot) }, .ok ())
  | /-- A queue pair is removed. -/
    removed {index slot} (hslot : ep.qps index = some slot) :
      CallEffect ep none ({ ep with
        qps := Function.update ep.qps index none
        qpnIndex := (ep.qpnIndex.remove slot.machine.config.localQpn).1 }, .ok ())
  | /-- A queue pair changes, perhaps its number too. -/
    replaced {index slot slot' table} (hslot : ep.qps index = some slot)
      (hgeneration : slot'.generation = slot.generation)
      (hrenumber : RcEndpoint.renumberQpn ep.qpnIndex slot.machine.config.localQpn
        slot'.machine.config.localQpn index.val = .ok table) :
      CallEffect ep none ({ ep with qpnIndex := table }.setSlot index slot', .ok ())

section Effects

variable {ep : Endpoint QPS IDX} {handle : QpHandle} {index : Fin QPS} {slot slot' : QpSlot}

theorem CallEffect.changed (hslot : ep.qps index = some slot)
    (hgeneration : slot'.generation = slot.generation)
    (hconfig : slot'.machine.config = slot.machine.config) :
    CallEffect ep none (ep.setSlot index slot', .ok ()) := by
  have hrenumber : RcEndpoint.renumberQpn ep.qpnIndex slot.machine.config.localQpn
      slot'.machine.config.localQpn index.val = .ok ep.qpnIndex := by
    simp [RcEndpoint.renumberQpn, hconfig]
  exact .replaced hslot hgeneration hrenumber

/-- The two outcomes of a creation. -/
theorem createQp_cases (h : ep.Inv) (config : QpConfig) :
    (∃ e, ep.createQp config = (ep, .error e) ∧ e ≠ .qpnIndexFull) ∨
      ∃ index slot table, ep.qps index = none ∧
        ep.qpnIndex.insert slot.machine.config.localQpn index.val = .ok table ∧
        slot.generation = nextGeneration (ep.generations index) ∧
        ep.createQp config = ({ ep with
          qpnIndex := table
          generations :=
            Function.update ep.generations index (nextGeneration (ep.generations index))
          qps := Function.update ep.qps index (some slot) },
          .ok ⟨index.val, nextGeneration (ep.generations index)⟩) := by
  unfold createQp
  split
  · exact .inl ⟨_, rfl, nofun⟩
  split
  · exact .inl ⟨_, rfl, nofun⟩
  rename_i machine hmachine
  obtain rfl : machine.config = config := by
    unfold QpStateMachine.new at hmachine
    split at hmachine
    · cases hmachine
      rfl
    · cases hmachine
  split
  · exact .inl ⟨_, rfl, nofun⟩
  rename_i index hfree
  have hnone := List.find?_some (p := fun i ↦ (ep.qps i).isNone) hfree
  split
  · rename_i e hinsert
    refine .inl ⟨e, rfl, ?_⟩
    rintro rfl
    exact h.indexed.insertQpn_ne_full index _ hinsert
  · rename_i table hinsert
    exact .inr ⟨index, ⟨_, machine, .new machine.config.sendPsn, ⟨machine.config.receivePsn⟩⟩,
      table, Option.isNone_iff_eq_none.mp hnone, QpnTable.insert_of_insertQpn hinsert, rfl, rfl⟩

theorem callEffect_reconfigureQp (h : ep.Inv) (handle : QpHandle) (config : QpConfig) :
    CallEffect ep none (ep.reconfigureQp handle config) := by
  unfold reconfigureQp
  split
  · exact .refused nofun
  rename_i index slot hindex
  obtain ⟨hslot, -, -⟩ := QpHandle.find_eq_some.mp hindex
  split
  · exact .refused nofun
  split
  · exact .refused nofun
  rename_i machine hmachine
  obtain rfl : machine.config = config :=
    congrArg QpStateMachine.config (QpStateMachine.reconfigure_eq_ok hmachine).1
  split
  · rename_i e hrenumber
    refine .refused ?_
    rintro rfl
    exact h.indexed.renumberQpn_ne_full index _ _ hrenumber
  · rename_i table hrenumber
    exact .replaced hslot rfl hrenumber

theorem callEffect_transitionQp (handle : QpHandle) (destination : QpState) :
    CallEffect ep none (ep.transitionQp handle destination) := by
  unfold transitionQp
  split
  · exact .refused nofun
  rename_i index slot hindex
  obtain ⟨hslot, -, -⟩ := QpHandle.find_eq_some.mp hindex
  split
  · exact .refused nofun
  rename_i machine hmachine
  have hconfig : machine.config = slot.machine.config := by
    unfold QpStateMachine.transition at hmachine
    split at hmachine
    · cases hmachine
      rfl
    · cases hmachine
  dsimp only
  split
  · exact .changed hslot rfl hconfig
  · exact .changed hslot rfl hconfig

/-- **The effects of a call.** -/
theorem call_effect (h : ep.Inv) (call : Call) :
    CallEffect ep (ep.created call) (ep.call call) := by
  cases call with
  | createQp config =>
    rcases createQp_cases h config with ⟨e, heq, hfull⟩ |
      ⟨index, slot, table, hfree, hinsert, hgeneration, heq⟩
    · have hcreated : ep.created (.createQp config) = none := by simp only [created, heq]
      have hcall : ep.call (.createQp config) = (ep, .error e) := by
        simp only [Endpoint.call, heq, Prod.map, id, Except.map]
      rw [hcreated, hcall]
      exact .refused hfull
    · have hcreated : ep.created (.createQp config) = some index := by
        simp only [created, heq, index.isLt, dif_pos]
      rw [hcreated]
      simp only [Endpoint.call, heq, Prod.map, id, Except.map]
      exact .created hfree hinsert hgeneration
  | removeQp handle =>
    dsimp only [created, Endpoint.call]
    unfold removeQp
    split
    · exact .refused nofun
    · rename_i hindex
      exact .removed (QpHandle.find_eq_some.mp hindex).1
  | transitionQp handle destination => exact callEffect_transitionQp handle destination
  | reconfigureQp handle config => exact callEffect_reconfigureQp h handle config
  | reserveSendPsn handle =>
    dsimp only [created, Endpoint.call]
    unfold reserveSendPsn
    split
    · exact .refused nofun
    rename_i slot hindex
    split
    · rcases slot.sendWindow.reserveMany 1 with ⟨window, psn⟩
      exact .changed (QpHandle.find_eq_some.mp hindex).1 rfl rfl
    · exact .refused nofun
  | acknowledgeSend handle acknowledged =>
    dsimp only [created, Endpoint.call]
    unfold acknowledgeSend
    split
    · exact .refused nofun
    · rename_i slot hindex
      rcases slot.sendWindow.acknowledge acknowledged with ⟨window, advance⟩
      exact .changed (QpHandle.find_eq_some.mp hindex).1 rfl rfl
  | observeReceivePsn handle received =>
    dsimp only [created, Endpoint.call]
    unfold observeReceivePsn
    split
    · exact .refused nofun
    rename_i slot hindex
    split
    · rcases slot.receivePsn.observe received with ⟨receivePsn, disposition⟩
      exact .changed (QpHandle.find_eq_some.mp hindex).1 rfl rfl
    · exact .refused nofun

end Effects

/-! ## Every run -/

section Runs

variable {ep : Endpoint QPS IDX} {label : Option (Fin QPS)}
  {result : Endpoint QPS IDX × Except ApiError Unit}

theorem numbers_update (ep : Endpoint QPS IDX) (index : Fin QPS) (entry : Option QpSlot) :
    numbers { ep with qps := Function.update ep.qps index entry } =
      Function.update ep.numbers index (entry.map fun slot ↦ slot.machine.config.localQpn) := by
  funext i
  exact Function.apply_update
    (fun _ ↦ Option.map fun slot : QpSlot ↦ slot.machine.config.localQpn) ..

/-- **The invariant is kept by every call.** -/
theorem CallEffect.inv (heffect : CallEffect ep label result) (h : ep.Inv) : result.1.Inv := by
  cases heffect with
  | refused => exact h
  | @created index slot table hfree hinsert hgeneration =>
    have hnumber : ep.numbers index = none := by simp [numbers, hfree]
    constructor
    · have hnumbers := numbers_update ep index (some slot)
      have hlists := h.indexed.insert hnumber hinsert
      rw [Option.map_some] at hnumbers
      rw [← hnumbers] at hlists
      exact hlists
    · intro i slot' hslot'
      dsimp only at hslot' ⊢
      by_cases hi : i = index
      · subst hi
        rw [Function.update_self] at hslot' ⊢
        cases hslot'
        exact hgeneration
      · rw [Function.update_of_ne hi] at hslot' ⊢
        exact h.aged i slot' hslot'
  | @removed index slot hslot =>
    have hnumber : ep.numbers index = some slot.machine.config.localQpn := by
      simp [numbers, hslot]
    constructor
    · have hnumbers := numbers_update ep index none
      have hlists := (h.indexed.remove hnumber).1
      rw [← Option.map_none, ← hnumbers] at hlists
      exact hlists
    · intro i slot' hslot'
      dsimp only at hslot' ⊢
      by_cases hi : i = index
      · subst hi
        rw [Function.update_self] at hslot'
        cases hslot'
      · rw [Function.update_of_ne hi] at hslot'
        exact h.aged i slot' hslot'
  | @replaced index slot slot' table hslot hgeneration hrenumber =>
    constructor
    · have hnumbers := numbers_update ep index (some slot')
      have hnumber : ep.numbers index = some slot.machine.config.localQpn := by
        simp [numbers, hslot]
      have hlists := h.indexed.renumberQpn hnumber hrenumber
      rw [Option.map_some] at hnumbers
      rw [← hnumbers] at hlists
      exact hlists
    · intro i slot'' hslot''
      dsimp only [setSlot] at hslot'' ⊢
      by_cases hi : i = index
      · subst hi
        rw [Function.update_self] at hslot''
        cases hslot''
        rw [hgeneration]
        exact h.aged i slot hslot
      · rw [Function.update_of_ne hi] at hslot''
        exact h.aged i slot'' hslot''

theorem CallEffect.error (heffect : CallEffect ep label result) {e : ApiError}
    (herror : result.2 = .error e) :
    result.1 = ep ∧ e ≠ .qpnIndexFull := by
  cases heffect with
  | refused hfull =>
    cases herror
    exact ⟨rfl, hfull⟩
  | created => cases herror
  | removed => cases herror
  | replaced => cases herror

/-- The slots as a table of generations. -/
def tenants (ep : Endpoint QPS IDX) : Generations.State (Fin QPS) :=
  ⟨ep.generations, fun i ↦ (ep.qps i).isSome = true⟩

/-- A call gives at most the labelled slot to a new queue pair. -/
theorem CallEffect.tenants (heffect : CallEffect ep label result) :
    Generations.Steps (2 ^ 32) ep.tenants label.toList result.1.tenants := by
  cases heffect with
  | refused => exact .refl
  | @created index slot table hfree hinsert hgeneration =>
    refine .reuse .refl rfl fun i hlive ↦ ?_
    by_cases hi : i = index
    · exact .inl hi
    · refine .inr ?_
      simpa [Endpoint.tenants, hi] using hlive
  | @removed index slot hslot =>
    refine .lapse .refl rfl fun i hlive ↦ ?_
    by_cases hi : i = index
    · simp [Endpoint.tenants, hi] at hlive
    · simpa [Endpoint.tenants, hi] using hlive
  | @replaced index slot slot' table hslot hgeneration hrenumber =>
    refine .lapse .refl rfl fun i hlive ↦ ?_
    by_cases hi : i = index
    · simp [Endpoint.tenants, hi, hslot]
    · simpa [Endpoint.tenants, setSlot, hi] using hlive

/-- **Every run keeps the invariant** and counts the queue pairs of each slot. -/
theorem Inv.calls (h : ep.Inv) (script : List Call) :
    (ep.calls script).Inv ∧
      Generations.Steps (2 ^ 32) ep.tenants (ep.creations script) (ep.calls script).tenants := by
  induction script generalizing ep with
  | nil => exact ⟨h, .refl⟩
  | cons call script ih =>
    have heffect := call_effect h call
    obtain ⟨hinv, hsteps⟩ := ih (heffect.inv h)
    exact ⟨hinv, heffect.tenants.trans hsteps⟩

theorem inv_of_new {config : EndpointConfig} {maxIpv4Packet : ℕ}
    (h : Endpoint.new QPS IDX config maxIpv4Packet = .ok ep) :
    ep.Inv ∧ ∀ i, ep.qps i = none := by
  unfold Endpoint.new at h
  split at h
  · cases h
  split at h
  · cases h
  split at h
  · cases h
  · rename_i hsupports
    cases h
    exact ⟨⟨QpnTable.lists_new (Bool.of_not_eq_false hsupports), nofun⟩, fun _ ↦ rfl⟩

end Runs

/-! ## Handles -/

/-- The handle of a slot that was freed is not found until the generations of the slot repeat. -/
theorem find_stale {α : Type} {tenants tenants' : Generations.State (Fin QPS)}
    {log : List (Fin QPS)} (h : Generations.Steps (2 ^ 32) tenants log tenants')
    {generation : α → ℕ} {qps : Fin QPS → Option α} {i : Fin QPS} {handle : QpHandle}
    (hslots : ∀ j slot, qps j = some slot → tenants'.live j ∧ generation slot = tenants'.current j)
    (hfree : ¬tenants.live i) (hcurrent : tenants.current i = handle.generation)
    (hbounds : 0 < handle.generation ∧ handle.generation < 2 ^ 32)
    (hcount : log.countP (fun j ↦ j.val = handle.slot) < 2 ^ 32 - 1) (hi : i.val = handle.slot) :
    handle.find generation qps = none := by
  have hcount' : log.count i < 2 ^ 32 - 1 := by
    refine Nat.lt_of_le_of_lt (List.countP_mono_left fun j _ hj ↦ ?_) hcount
    rw [beq_iff_eq.mp hj, decide_eq_true_eq]
    exact hi
  rw [Option.eq_none_iff_forall_ne_some]
  rintro ⟨index, slot⟩ hindex
  obtain ⟨hslot, hnumber, hgeneration⟩ := QpHandle.find_eq_some.mp hindex
  obtain rfl : index = i := Fin.ext (hnumber.trans hi.symm)
  obtain ⟨hlive, hcurrent'⟩ := hslots index slot hslot
  rw [← hcurrent] at hbounds hgeneration
  exact h.stale hfree hbounds.1 hbounds.2 hcount' ⟨hlive, hcurrent'.symm.trans hgeneration⟩

section Handles

variable {ep : Endpoint QPS IDX} {handle : QpHandle}

/-- Every operation refuses the handle and changes nothing. -/
structure Rejects (ep : Endpoint QPS IDX) (handle : QpHandle) : Prop where
  removeQp : ep.removeQp handle = (ep, .error .invalidQpHandle)
  qpState : ep.qpState handle = .error .invalidQpHandle
  qpConfig : ep.qpConfig handle = .error .invalidQpHandle
  transitionQp : ∀ destination, ep.transitionQp handle destination = (ep, .error .invalidQpHandle)
  reconfigureQp : ∀ config, ep.reconfigureQp handle config = (ep, .error .invalidQpHandle)
  reserveSendPsn : ep.reserveSendPsn handle = (ep, .error .invalidQpHandle)
  acknowledgeSend : ∀ psn, ep.acknowledgeSend handle psn = (ep, .error .invalidQpHandle)
  observeReceivePsn : ∀ psn, ep.observeReceivePsn handle psn = (ep, .error .invalidQpHandle)

theorem rejects_of_qpIndex (h : ep.qpIndex handle = none) :
    ep.Rejects handle := by
  constructor
  all_goals
    intros
    simp [Endpoint.removeQp, Endpoint.qpState, Endpoint.qpConfig, Endpoint.transitionQp,
      Endpoint.reconfigureQp, Endpoint.reserveSendPsn, Endpoint.acknowledgeSend,
      Endpoint.observeReceivePsn, h]

/-- **The handle of a removed queue pair is refused** until the generations of its slot repeat. -/
theorem stale_rejected {start : Endpoint QPS IDX} (hstart : start.Inv)
    (hempty : ∀ i, start.qps i = none) (script script' : List Call) {config : QpConfig}
    (hremoved : ((start.calls script).removeQp handle).2 = .ok config)
    (hcount : (((start.calls script).removeQp handle).1.creations script').countP
      (fun i ↦ i.val = handle.slot) < 2 ^ 32 - 1) :
    (((start.calls script).removeQp handle).1.calls script').Rejects handle := by
  obtain ⟨hinv, hsteps⟩ := hstart.calls script
  generalize start.calls script = ep at *
  -- The slot of the handle was occupied, and is free after the removal.
  obtain ⟨index, slot, hslot, hnumber, hgeneration, hfree, hkeep⟩ :
      ∃ index slot, ep.qps index = some slot ∧ index.val = handle.slot ∧
        slot.generation = handle.generation ∧ (ep.removeQp handle).1.qps index = none ∧
        (ep.removeQp handle).1.generations = ep.generations := by
    unfold removeQp at *
    split at hremoved
    · cases hremoved
    · rename_i index slot hindex
      obtain ⟨hslot, hnumber, hgeneration⟩ := QpHandle.find_eq_some.mp hindex
      exact ⟨index, slot, hslot, hnumber, hgeneration, Function.update_self .., rfl⟩
  have hinv' : (ep.removeQp handle).1.Inv := (call_effect hinv (.removeQp handle)).inv hinv
  have hbounds : 0 < ep.generations index ∧ ep.generations index < 2 ^ 32 :=
    hsteps.current_bounds (by decide) (by simp [tenants, hempty]) (by simp [tenants, hslot])
  obtain ⟨hinv'', hsteps'⟩ := hinv'.calls script'
  rw [← hinv.aged index slot hslot, hgeneration] at hbounds
  refine rejects_of_qpIndex (find_stale hsteps' (fun j slot hslot ↦ ⟨by simp [tenants, hslot],
    hinv''.aged j slot hslot⟩) (by simp [tenants, hfree]) ?_ hbounds hcount hnumber)
  rw [← hgeneration, hinv.aged index slot hslot, ← hkeep]
  rfl

end Handles

/-- The table, its index and its handles agree. -/
structure TableAgrees (ep : Endpoint QPS IDX) : Prop where
  /-- The index maps exactly the numbers of the live queue pairs. -/
  indexed : ∀ qpn slot, ep.qpnIndex.get qpn = some slot ↔
    ∃ i qp, slot = i.val ∧ ep.qps i = some qp ∧ qp.machine.config.localQpn = qpn
  /-- No two live queue pairs have the same number. -/
  distinct : ∀ i j qp qp', ep.qps i = some qp → ep.qps j = some qp' →
    qp.machine.config.localQpn = qp'.machine.config.localQpn → i = j
  /-- A call that fails changes nothing, and does not fail because the index is full. -/
  atomic : ∀ call e, (ep.call call).2 = .error e → (ep.call call).1 = ep ∧ e ≠ .qpnIndexFull
  /-- The handle of a removed queue pair is refused. -/
  stale : ∀ handle config, (ep.removeQp handle).2 = .ok config → ∀ script,
    ((ep.removeQp handle).1.creations script).countP (fun i ↦ i.val = handle.slot) < 2 ^ 32 - 1 →
      ((ep.removeQp handle).1.calls script).Rejects handle

theorem tableAgrees_calls {config : EndpointConfig} {maxIpv4Packet : ℕ} {start : Endpoint QPS IDX}
    (hnew : Endpoint.new QPS IDX config maxIpv4Packet = .ok start) (script : List Call) :
    (start.calls script).TableAgrees := by
  obtain ⟨hstart, hempty⟩ := inv_of_new hnew
  have hinv := (hstart.calls script).1
  obtain ⟨hindexed, hdistinct⟩ := hinv.indexed.entries
  refine ⟨hindexed, hdistinct, ?_, ?_⟩
  · intro call e herror
    exact (call_effect hinv call).error herror
  · intro handle removed hremoved script' hcount
    exact stale_rejected hstart hempty script script' hremoved hcount

end Endpoint

end Rocev2
