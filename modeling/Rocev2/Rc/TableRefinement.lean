import Rocev2.Endpoint.Table
import Rocev2.Rc.BatchProgress
import Rocev2.Rc.PostRefinement

/-!
# The tables refine the engine

Registration of memory and the life cycle of queue pairs.  A queue pair is created in the first
free slot, so that the slots in use are a bounded prefix of the table with holes: their queue-pair
numbers are distinct, and there are fewer than `2 ^ 24` of them.
-/

namespace Rocev2.Rc

open Rocev2.Core Rocev2.Memory Rocev2.Lib

variable {QPS MRS SQ RQ CQ IDX : ℕ}

/-! ## The outcomes of the calls -/

namespace RcEndpoint

variable {ep : RcEndpoint QPS MRS SQ RQ CQ IDX}

theorem checkQpConfig_ne_full (config : RcQpConfig) :
    ep.checkQpConfig config ≠ .error .qpnIndexFull := by
  unfold checkQpConfig
  split
  · nofun
  dsimp only
  split
  · nofun
  · nofun

/-- **The two outcomes of a creation.**  A free slot is filled, or nothing changes. -/
theorem Tabled.createQp_cases (h : ep.Tabled) (config : RcQpConfig) :
    (∃ e, ep.createQp config = (ep, .error e) ∧ e ≠ .qpnIndexFull) ∨
      ∃ index slot table, ep.checkQpConfig config = .ok () ∧ ep.freeSlot = some index ∧
        RcQpSlot.new (nextGeneration (ep.generations index)) config = .ok slot ∧
        insertQpn ep.qpnIndex config.transport.localQpn index.val = .ok table ∧
        ep.createQp config = ({ ep with
          qpnIndex := table
          generations :=
            Function.update ep.generations index (nextGeneration (ep.generations index))
          qps := Function.update ep.qps index (some slot) },
          .ok ⟨index.val, nextGeneration (ep.generations index)⟩) := by
  unfold createQp
  split
  · exact .inl ⟨_, rfl, nofun⟩
  split
  · exact .inl ⟨_, rfl, nofun⟩
  split
  · rename_i e hcheck
    refine .inl ⟨e, rfl, ?_⟩
    rintro rfl
    exact checkQpConfig_ne_full config hcheck
  rename_i hcheck
  split
  · exact .inl ⟨_, rfl, nofun⟩
  rename_i index hfree
  dsimp only
  split
  · exact .inl ⟨_, rfl, nofun⟩
  rename_i slot hnew
  split
  · rename_i e hinsert
    refine .inl ⟨e, rfl, ?_⟩
    rintro rfl
    exact h.indexed.insertQpn_ne_full index _ hinsert
  · rename_i table hinsert
    exact .inr ⟨index, slot, table, hcheck, hfree, hnew, hinsert, rfl⟩

/-- **The two outcomes of a removal.**  The slot is freed and synchronized, or nothing changes. -/
theorem removeQp_cases (ep : RcEndpoint QPS MRS SQ RQ CQ IDX) (handle : QpHandle) :
    (∃ e, ep.removeQp handle = (ep, .error e) ∧ e ≠ .qpnIndexFull) ∨
      ∃ index slot, ep.qpIndex handle = some (index, slot) ∧ slot.isBusy = false ∧
        ep.removeQp handle = (synchronizeQp { ep with
          qps := Function.update ep.qps index none
          qpnIndex := (ep.qpnIndex.remove slot.machine.config.localQpn).1 } index,
          .ok slot.config) := by
  unfold removeQp
  split
  · exact .inl ⟨_, rfl, nofun⟩
  rename_i index slot hindex
  split
  · exact .inl ⟨_, rfl, nofun⟩
  rename_i hbusy
  refine .inr ⟨index, slot, hindex, Bool.eq_false_of_not_eq_true hbusy, ?_⟩
  rw [synchronizeQp_of_none (Function.update_self ..), descheduleQp]
  dsimp only
  rw [(QpHandle.find_eq_some.mp hindex).1]
  dsimp only [setSlot]
  rw [Function.update_idem]

theorem exists_of_removeQp {handle : QpHandle} {config : RcQpConfig}
    (h : (ep.removeQp handle).2 = .ok config) :
    ∃ index slot, ep.qpIndex handle = some (index, slot) ∧ slot.isBusy = false ∧
      (ep.removeQp handle).1 = synchronizeQp { ep with
        qps := Function.update ep.qps index none
        qpnIndex := (ep.qpnIndex.remove slot.machine.config.localQpn).1 } index := by
  rcases ep.removeQp_cases handle with ⟨e, hrefused, -⟩ | ⟨index, slot, hindex, hbusy, hremoved⟩
  · rw [hrefused] at h
    cases h
  · exact ⟨index, slot, hindex, hbusy, congrArg Prod.fst hremoved⟩

/-- **The two outcomes of a reconfiguration.** -/
theorem Tabled.reconfigureQp_cases (h : ep.Tabled) (handle : QpHandle) (config : RcQpConfig) :
    (∃ e, ep.reconfigureQp handle config = (ep, .error e) ∧ e ≠ .qpnIndexFull) ∨
      ∃ index slot machine table, ep.checkQpConfig config = .ok () ∧
        ep.qpIndex handle = some (index, slot) ∧ slot.isBusy = false ∧
        slot.machine.reconfigure config.transport = .ok machine ∧
        renumberQpn ep.qpnIndex slot.machine.config.localQpn config.transport.localQpn index.val =
          .ok table ∧
        ep.reconfigureQp handle config = (({ ep with qpnIndex := table }.setSlot index { slot with
          toQpTransport := slot.toQpTransport.reconfigured machine config }).synchronizeQp index,
          .ok ()) := by
  unfold reconfigureQp
  split
  · rename_i e hcheck
    refine .inl ⟨e, rfl, ?_⟩
    rintro rfl
    exact checkQpConfig_ne_full config hcheck
  rename_i hcheck
  split
  · exact .inl ⟨_, rfl, nofun⟩
  rename_i index slot hindex
  split
  · exact .inl ⟨_, rfl, nofun⟩
  split
  · exact .inl ⟨_, rfl, nofun⟩
  rename_i hbusy
  split
  · exact .inl ⟨_, rfl, nofun⟩
  rename_i machine hmachine
  split
  · rename_i e hrenumber
    refine .inl ⟨e, rfl, ?_⟩
    rintro rfl
    exact h.indexed.renumberQpn_ne_full index _ _ hrenumber
  · rename_i table hrenumber
    exact .inr ⟨index, slot, machine, table, hcheck, hindex, Bool.eq_false_of_not_eq_true hbusy,
      hmachine, hrenumber, rfl⟩

end RcEndpoint

namespace Holds

variable {allowed : EngineEvent QPS → Prop} {start : Engine QPS MRS SQ RQ CQ}
  {books : Books QPS MRS SQ RQ CQ} {dirty : Set (Component × Fin QPS)}
  {ep : RcEndpoint QPS MRS SQ RQ CQ IDX} {index : Fin QPS} {slot : RcQpSlot MRS SQ RQ CQ}
  {config : RcQpConfig} {generation : ℕ}

/-! ## Memory -/

theorem withMemory (h : Holds allowed start books dirty ep) {event : EngineEvent QPS}
    {memory : MemoryRegistry MRS} (hallowed : allowed event)
    (hstep : EngineStep ep.engine event { ep.engine with memory := memory }) :
    Holds allowed start books dirty { ep with memory := memory } :=
  ⟨.tail h.run hallowed hstep, hstep.inv h.inv,
    h.coherent.congr rfl rfl (fun kind ↦ by cases kind <;> rfl) rfl,
    h.tabled.congr rfl rfl rfl rfl rfl rfl,
    h.logged.congr rfl (fun kind ↦ by cases kind <;> rfl) rfl rfl rfl⟩

theorem registerMemory (h : Holds allowed start books dirty ep) {buffer : Buffer}
    {access : AccessFlags} {generator : Option KeyGenerator}
    (hallowed : allowed (.register buffer access generator)) :
    Holds allowed start books dirty (ep.registerMemory buffer access generator).1 := by
  have hregistered := h.withMemory hallowed .register
  unfold RcEndpoint.registerMemory
  split
  all_goals
    rename_i heq
    have hmemory := congrArg Prod.fst heq
    dsimp only at hmemory ⊢
    rw [← hmemory]
    exact hregistered

theorem deregisterMemory (h : Holds allowed start books dirty ep) {handle : RegionHandle}
    (hallowed : allowed (.deregister handle)) :
    Holds allowed start books dirty (ep.deregisterMemory handle).1 := by
  have hremoved := h.withMemory hallowed .deregister
  unfold RcEndpoint.deregisterMemory
  split
  all_goals
    rename_i heq
    have hmemory := congrArg Prod.fst heq
    dsimp only at hmemory ⊢
    rw [← hmemory]
    exact hremoved

theorem writeMemory (h : Holds allowed start books dirty ep) {kind : KeyKind} {key : UInt32}
    {address : UInt64} {input : List UInt8} (hallowed : allowed (.write kind key address input)) :
    Holds allowed start books dirty (ep.writeMemory kind key address input).1 := by
  unfold RcEndpoint.writeMemory
  dsimp only
  split
  · rename_i memory hwrite
    cases kind with
    | loc => exact h.withMemory hallowed (.write hwrite)
    | remote => exact h.withMemory hallowed (.write hwrite)
  · exact h

/-! ## Creation -/

theorem freeSlot_eq_some (hfree : ep.freeSlot = some index) :
    ep.qps index = none ∧ ∀ i, i < index → (ep.qps i).isSome := by
  unfold RcEndpoint.freeSlot at hfree
  obtain ⟨hnone, position, hposition, hget, hbefore⟩ := List.find?_eq_some_iff_getElem.mp hfree
  refine ⟨Option.isNone_iff_eq_none.mp hnone, fun i hi ↦ ?_⟩
  have hi' : i.val < position := by
    rw [List.getElem_finRange] at hget
    have hval := congrArg Fin.val hget
    simp only [Fin.val_cast] at hval
    omega
  have hlive := hbefore i.val hi'
  rw [List.getElem_finRange] at hlive
  simpa using hlive

def shiftedNumber (ep : RcEndpoint QPS MRS SQ RQ CQ IDX) (i : Fin QPS) : ℕ :=
  ((ep.qps i).map fun slot ↦ slot.machine.config.localQpn - minApplicationQpn).getD 0

theorem freeSlot_lt (h : Holds allowed start books dirty ep) (hfree : ep.freeSlot = some index) :
    index.val < 2 ^ 24 := by
  have hlive := (freeSlot_eq_some hfree).2
  have hnumber : ∀ i, i < index → ∃ slot, ep.qps i = some slot ∧
      minApplicationQpn ≤ slot.machine.config.localQpn ∧ slot.machine.config.localQpn ≤ maxQpn := by
    intro i hi
    obtain ⟨slot, hslot⟩ := Option.isSome_iff_exists.mp (hlive i hi)
    have hvalid := (h.qpInv hslot).config
    exact ⟨slot, hslot, hvalid.local_ge, hvalid.local_le⟩
  have hbound : ∀ i, i < index → shiftedNumber ep i < 2 ^ 24 - 2 := by
    intro i hi
    obtain ⟨slot, hslot, hge, hle⟩ := hnumber i hi
    simp only [shiftedNumber, hslot, Option.map_some, Option.getD_some]
    unfold minApplicationQpn maxQpn at *
    omega
  have hinj : ∀ i j, i < index → j < index → shiftedNumber ep i = shiftedNumber ep j → i = j := by
    intro i j hi hj heq
    obtain ⟨slot, hslot, hge, -⟩ := hnumber i hi
    obtain ⟨slot', hslot', hge', -⟩ := hnumber j hj
    simp only [shiftedNumber, hslot, hslot', Option.map_some, Option.getD_some] at heq
    have hsame : slot.machine.config.localQpn = slot'.machine.config.localQpn := by omega
    have hfind := h.tabled.number i slot hslot
    rw [hsame, h.tabled.number j slot' hslot'] at hfind
    exact (Fin.ext (Option.some.inj hfind)).symm
  have hcard : index.val ≤ 2 ^ 24 - 2 := by
    have hle := Fintype.card_le_of_injective
      (fun i : Fin index.val ↦ (⟨shiftedNumber ep ⟨i.val, i.isLt.trans index.isLt⟩,
        hbound _ i.isLt⟩ : Fin (2 ^ 24 - 2)))
      (fun i j heq ↦ Fin.ext (Fin.mk.inj (hinj _ _ i.isLt j.isLt (congrArg Fin.val heq))))
    rwa [Fintype.card_fin, Fintype.card_fin] at hle
  omega

/-- An entry of the table changes, with its number; the slot is dirty until it is synchronized. -/
theorem replaceQp (h : Holds allowed start books ∅ ep) {event : EngineEvent QPS}
    (entry : Option (RcQpSlot MRS SQ RQ CQ)) (generations : Fin QPS → ℕ) {table : QpnTable IDX}
    (hallowed : allowed event)
    (hstep : EngineStep ep.engine event { ep.engine with
      qps := Function.update ep.engine.qps index (entry.map fun slot ↦ slot.toQpTransport)
      generations := generations })
    (hlists : table.Lists (Function.update ep.numbers index
      (entry.map fun slot ↦ slot.machine.config.localQpn)))
    (hgenerations : ∀ i, i ≠ index → generations i = ep.generations i)
    (hentry : ∀ slot, entry = some slot → index.val < 2 ^ 24 ∧
      maximumPacketForMtu slot.machine.config.pathMtu.bytes ≤ ep.config.maximumPacketSize ∧
      slot.generation = generations index) :
    Holds allowed start books (AllOf index) { ep with
      qps := Function.update ep.qps index entry
      qpnIndex := table
      generations := generations } := by
  have hentries : ∀ i slot, Function.update ep.qps index entry i = some slot → i.val < 2 ^ 24 ∧
      maximumPacketForMtu slot.machine.config.pathMtu.bytes ≤ ep.config.maximumPacketSize ∧
      slot.generation = generations i := by
    intro i slot hslot
    by_cases hi : i = index
    · subst hi
      rw [Function.update_self] at hslot
      exact hentry slot hslot
    · have hold : ep.qps i = some slot := (Function.update_of_ne hi ..).symm.trans hslot
      exact ⟨h.tabled.bound i slot hold, h.tabled.sized i slot hold,
        (h.tabled.aged i slot hold).trans (hgenerations i hi).symm⟩
  have hengine : RcEndpoint.engine { ep with
      qps := Function.update ep.qps index entry
      qpnIndex := table
      generations := generations } = { ep.engine with
      qps := Function.update ep.engine.qps index (entry.map fun slot ↦ slot.toQpTransport)
      generations := generations } := by
    simp only [RcEndpoint.engine, Engine.mk.injEq, true_and, and_true]
    funext i
    exact Function.apply_update (fun _ ↦ Option.map fun slot : RcQpSlot MRS SQ RQ CQ ↦
      slot.toQpTransport) ..
  refine ⟨hengine ▸ .tail h.run hallowed hstep, hengine ▸ hstep.inv h.inv, fun c i hclean ↦ ?_,
    ⟨?_, fun i slot hslot ↦ (hentries i slot hslot).1, h.tabled.armed,
      fun i slot hslot ↦ (hentries i slot hslot).2.1, h.tabled.met,
      fun i slot hslot ↦ (hentries i slot hslot).2.2⟩,
    h.logged.congr rfl (fun kind ↦ by cases kind <;> rfl) rfl rfl rfl⟩
  · have hi : i ≠ index := hclean
    exact RcEndpoint.coherentAt_congr (h.coherent c i (Set.notMem_empty _))
      (Function.update_of_ne hi ..) rfl (fun kind ↦ by cases kind <;> exact Iff.rfl) rfl
  · rw [← RcEndpoint.numbers_update ep index entry] at hlists
    exact hlists

/-- A queue pair that was synchronized after it was replaced. -/
theorem synced (h : Holds allowed start books (AllOf index) ep) :
    Holds allowed start books ∅ (ep.synchronizeQp index) := by
  refine (h.sync index).mono ?_
  rintro x ⟨hmem, hother⟩
  exact absurd hmem hother

theorem scheduling_of_new (h : RcQpSlot.new generation config = .ok slot) :
    slot.requesterIsRunnable = false ∧ slot.responderIsRunnable = false ∧
      slot.timerDeadline = none ∧ slot.requesterScheduled = false ∧
      slot.responderScheduled = false := by
  unfold RcQpSlot.new QpStateMachine.new at h
  split at h
  · cases h
  · rename_i machine hmachine
    split at hmachine
    · cases hmachine
      cases h
      exact ⟨rfl, rfl, rfl, rfl, rfl⟩
    · cases hmachine

theorem coherentAt_create {ep' : RcEndpoint QPS MRS SQ RQ CQ IDX} {c : Component}
    (h : ep.CoherentAt c index) (hnew : RcQpSlot.new generation config = .ok slot)
    (hfree : ep.qps index = none) (hslot : ep'.qps index = some slot)
    (hready : ∀ kind, ep'.ready kind = ep.ready kind)
    (htimers : ep'.timerScheduler = ep.timerScheduler) : ep'.CoherentAt c index := by
  obtain ⟨hrequests, hresponds, hdeadline, hflag, hflag'⟩ := scheduling_of_new hnew
  cases c with
  | ready kind =>
    have hidle : slot.isRunnable kind = false ∧ slot.isScheduled kind = false := by
      cases kind with
      | requester => exact ⟨hrequests, hflag⟩
      | responder => exact ⟨hresponds, hflag'⟩
    have hqueue : index ∉ (ep'.ready kind).slots := by
      intro hmem
      rw [hready] at hmem
      obtain ⟨current, hcurrent, -⟩ := h.runnable hmem
      cases hfree.symm.trans hcurrent
    refine ⟨fun hmem ↦ absurd hmem hqueue, fun _ current hcurrent hrunnable ↦ ?_,
      fun current hcurrent ↦ ?_⟩
    · cases hslot.symm.trans hcurrent
      exact nomatch hidle.1.symm.trans hrunnable
    · cases hslot.symm.trans hcurrent
      rw [hidle.2]
      exact ⟨nofun, fun hmem ↦ absurd hmem hqueue⟩
  | timer =>
    simp only [RcEndpoint.CoherentAt, hfree, hslot, htimers, Option.bind_none, Option.bind_some,
      RcEndpoint.timerEntry, hdeadline, Option.map_none] at h ⊢
    exact h

theorem sized_of_checkQpConfig (h : ep.checkQpConfig config = .ok ()) :
    maximumPacketForMtu config.transport.pathMtu.bytes ≤ ep.config.maximumPacketSize := by
  unfold RcEndpoint.checkQpConfig at h
  split at h
  · cases h
  dsimp only at h
  split at h
  · cases h
  · rename_i hle
    exact Nat.le_of_not_lt hle

theorem generation_of_new (h : RcQpSlot.new generation config = .ok slot) :
    slot.generation = generation := by
  unfold RcQpSlot.new at h
  split at h
  · cases h
  · cases h
    rfl

/-- Creating a queue pair. -/
theorem createQp (h : Holds allowed start books ∅ ep)
    (hallowed : ∀ index, allowed (.create index config)) :
    Holds allowed start books ∅ (ep.createQp config).1 := by
  rcases h.tabled.createQp_cases config with
    ⟨e, hrefused, -⟩ | ⟨index, slot, table, hcheck, hindex, hnew, hinsert, hcreated⟩
  · rw [hrefused]
    exact h
  rw [hcreated]
  have hsized := sized_of_checkQpConfig hcheck
  obtain ⟨hfree, -⟩ := freeSlot_eq_some hindex
  have hlt := h.freeSlot_lt hindex
  have hfresh := fresh_of_new hnew
  have hengine_free : ep.engine.qps index = none := by
    simp [RcEndpoint.engine, hfree]
  have hstep : EngineStep ep.engine (.create index config) _ := .create hengine_free hnew
  have hfree' : ep.numbers index = none := by
    rw [RcEndpoint.numbers, hfree, Option.map_none]
  have hlists := h.tabled.indexed.insert hfree' (QpnTable.insert_of_insertQpn hinsert)
  have hconfig : slot.machine.config = config.transport := by rw [hfresh.machine]
  rw [← hconfig] at hlists hsized
  have hdirty := h.replaceQp (some slot)
    (Function.update ep.generations index (nextGeneration (ep.generations index))) (hallowed index)
    hstep hlists (fun i hi ↦ Function.update_of_ne hi ..) (by
      rintro _ ⟨⟩
      rw [Function.update_self]
      exact ⟨hlt, hsized, generation_of_new hnew⟩)
  refine ⟨hdirty.run, hdirty.inv, fun c i _ ↦ ?_, hdirty.tabled, hdirty.logged⟩
  by_cases hi : i = index
  · subst hi
    exact coherentAt_create (h.coherent c i (Set.notMem_empty _)) hnew hfree
      (Function.update_self ..) (fun kind ↦ by cases kind <;> rfl) rfl
  · exact hdirty.coherent c i hi

/-! ## Removal -/

theorem idle_of_not_busy (h : slot.isBusy = false) : slot.toQpTransport.Idle ∧
    slot.completionQueue.items = [] ∧ slot.completionReservations = 0 := by
  simp only [RcQpSlot.isBusy, Bool.or_eq_false_iff, Option.isSome_eq_false_iff,
    Option.isNone_iff_eq_none, Bool.not_eq_false', Ring.isEmpty, List.isEmpty_iff,
    bne_eq_false_iff_eq] at h
  obtain ⟨⟨⟨⟨⟨⟨⟨⟨hactive, hinbound⟩, hread⟩, hsends⟩, hreceives⟩, hcompletions⟩, hreserved⟩, -⟩,
    -⟩ := h
  exact ⟨⟨hactive, hinbound, hread, hsends, hreceives⟩, hcompletions, hreserved⟩

/-- Removing a queue pair. -/
theorem removeQp (h : Holds allowed start books ∅ ep) {handle : QpHandle}
    (hallowed : ∀ index : Fin QPS, index.val = handle.slot → allowed (.remove index)) :
    Holds allowed start books ∅ (ep.removeQp handle).1 := by
  rcases ep.removeQp_cases handle with ⟨e, hrefused, -⟩ | ⟨index, slot, hindex, hbusy, hremoved⟩
  · rw [hrefused]
    exact h
  obtain ⟨hslot, hnumber, -⟩ := QpHandle.find_eq_some.mp hindex
  obtain ⟨hidle, hcompletions, hreserved⟩ := idle_of_not_busy hbusy
  have hstep : EngineStep ep.engine (.remove index) _ :=
    .remove (engine_qps hslot) hidle hcompletions hreserved
  have hnumber' : ep.numbers index = some slot.machine.config.localQpn := by
    rw [RcEndpoint.numbers, hslot, Option.map_some]
  rw [hremoved]
  exact (h.replaceQp none ep.generations (hallowed index hnumber) hstep
    (h.tabled.indexed.remove hnumber').1 (fun _ _ ↦ rfl) fun _ hsome ↦ by cases hsome).synced

/-! ## Reconfiguration -/

/-- Reconfiguring a queue pair. -/
theorem reconfigureQp (h : Holds allowed start books ∅ ep) {handle : QpHandle}
    (hallowed : ∀ index : Fin QPS, index.val = handle.slot →
      allowed (.qp index (.reconfigure config))) :
    Holds allowed start books ∅ (ep.reconfigureQp handle config).1 := by
  rcases h.tabled.reconfigureQp_cases handle config with ⟨e, hrefused, -⟩ |
    ⟨index, slot, machine, table, hcheck, hindex, hbusy, hmachine, htable, hdone⟩
  · rw [hrefused]
    exact h
  rw [hdone]
  have hsized := sized_of_checkQpConfig hcheck
  obtain ⟨hslot, hnumber, -⟩ := QpHandle.find_eq_some.mp hindex
  obtain ⟨hidle, -, -⟩ := idle_of_not_busy hbusy
  have hnumber' : ep.numbers index = some slot.machine.config.localQpn := by
    rw [RcEndpoint.numbers, hslot, Option.map_some]
  have hqp : QpStep ep.memory slot.toQpTransport (.reconfigure config) []
      (slot.toQpTransport.reconfigured machine config) none := .reconfigure hidle hmachine
  have hstep : EngineStep ep.engine (.qp index (.reconfigure config)) _ :=
    .qp (engine_qps hslot) hqp (Copied.refl _) (h.counted hslot)
  have hmachine' : machine.config = config.transport :=
    congrArg QpStateMachine.config (QpStateMachine.reconfigure_eq_ok hmachine).1
  let slot' : RcQpSlot MRS SQ RQ CQ :=
    { slot with toQpTransport := slot.toQpTransport.reconfigured machine config }
  have hlists := h.tabled.indexed.renumberQpn hnumber' htable
  rw [← hmachine'] at hlists hsized
  refine (h.replaceQp (some slot') ep.generations (hallowed index hnumber) hstep hlists
    (fun _ _ ↦ rfl) ?_).synced
  rintro _ ⟨⟩
  exact ⟨h.tabled.bound index slot hslot, hsized, h.tabled.aged index slot hslot⟩

end Holds

end Rocev2.Rc
