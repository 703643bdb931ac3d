import Mathlib.Data.Set.Basic
import Rocev2.Rc.Engine
import Rocev2.Rc.History

/-!
# Following the endpoint

`Holds allowed start books dirty ep` is what the functions of the endpoint maintain: the engine
inside `ep` is reached from `start` by allowed events, the engine invariant holds, the schedulers
are coherent outside `dirty`, and the histories agree with `books`.  The rules below say
how each primitive update of the endpoint changes the assertion.  A function is then verified by
applying the rules of its updates in order, once for all parts of the assertion together.
-/

namespace Rocev2.Rc

open Rocev2.Core Rocev2.Wire Rocev2.Memory Rocev2.Lib

variable {QPS MRS SQ RQ CQ IDX : ℕ}

def RcEndpoint.engine (ep : RcEndpoint QPS MRS SQ RQ CQ IDX) : Engine QPS MRS SQ RQ CQ where
  config := ep.config
  memory := ep.memory
  qps i := (ep.qps i).map fun slot ↦ slot.toQpTransport
  generations := ep.generations
  offered := ep.offered
  arrivals := ep.arrivals
  accepted := ep.activity.filterMap Activity.acceptance

/-- Replace a slot and what its step changes besides. -/
def RcEndpoint.replace (ep : RcEndpoint QPS MRS SQ RQ CQ IDX) (index : Fin QPS)
    (slot : RcQpSlot MRS SQ RQ CQ) (memory : MemoryRegistry MRS) (stats : RcEndpointStats)
    (arrivals : List (Arrival MRS SQ RQ CQ)) : RcEndpoint QPS MRS SQ RQ CQ IDX :=
  { ep with
    qps := Function.update ep.qps index (some slot)
    memory := memory
    stats := stats
    arrivals := arrivals }

/-- The assertion that the functions of the endpoint maintain. -/
structure Holds (allowed : EngineEvent QPS → Prop) (start : Engine QPS MRS SQ RQ CQ)
    (books : Books QPS MRS SQ RQ CQ) (dirty : Set (Component × Fin QPS))
    (ep : RcEndpoint QPS MRS SQ RQ CQ IDX) : Prop where
  /-- The engine got here by allowed events. -/
  run : Engine.Run allowed start ep.engine
  /-- Its invariant holds. -/
  inv : ep.engine.Inv
  /-- The schedulers agree with the slots that are not dirty. -/
  coherent : ep.Coherent dirty
  /-- The table agrees with the number index. -/
  tabled : ep.Tabled
  /-- The histories agree with the books. -/
  logged : Logged books ep

/-- A slot, in every respect. -/
def AllOf (index : Fin QPS) : Set (Component × Fin QPS) := { x | x.2 = index }

theorem insert_diff_allOf (dirty : Set (Component × Fin QPS)) (c : Component) (index : Fin QPS) :
    insert (c, index) dirty \ AllOf index ⊆ dirty := by
  rintro x ⟨hmem, hother⟩
  exact hmem.resolve_left fun heq ↦ hother (congrArg Prod.snd heq)

theorem filterMap_reply_record {memory : MemoryRegistry MRS} {qp qp' : QpTransport MRS SQ RQ CQ}
    {event : QpEvent} {copies : List (ℕ × List UInt8)} {reply : Option ControlReply}
    (h : QpStep memory qp event copies qp' reply) (slot : ℕ)
    (arrivals : List (Arrival MRS SQ RQ CQ)) :
    (event.record slot qp reply arrivals).filterMap (fun arrival ↦ arrival.reply) =
      arrivals.filterMap (fun arrival ↦ arrival.reply) ++ reply.toList := by
  cases h with
  | request | response =>
    rw [QpEvent.record, List.filterMap_append]
    rfl
  | start | sent | readSent | timeout | rnrExpired | transition | reconfigure | postWork
  | postReceive | poll => exact (List.append_nil _).symm

namespace Holds

variable {allowed : EngineEvent QPS → Prop} {start : Engine QPS MRS SQ RQ CQ}
  {books : Books QPS MRS SQ RQ CQ} {dirty dirty' : Set (Component × Fin QPS)}
  {ep ep' : RcEndpoint QPS MRS SQ RQ CQ IDX} {index : Fin QPS}
  {slot slot' : RcQpSlot MRS SQ RQ CQ} {copies : List (ℕ × List UInt8)}
  {ctx' : QpContext MRS SQ RQ CQ}

/-! ## Updates that the assertion does not see -/

theorem withStats (h : Holds allowed start books dirty ep) (stats : RcEndpointStats) :
    Holds allowed start books dirty { ep with stats := stats } where
  run := h.run
  inv := h.inv
  coherent := h.coherent.congr rfl rfl (fun kind ↦ by cases kind <;> rfl) rfl
  tabled := h.tabled.congr rfl rfl rfl rfl rfl rfl
  logged := h.logged.congr rfl (fun kind ↦ by cases kind <;> rfl) rfl rfl rfl

theorem withClass (h : Holds allowed start books dirty ep) (kind : DataTxClass) :
    Holds allowed start { books with next := kind } dirty { ep with nextDataTxClass := kind } where
  run := h.run
  inv := h.inv
  coherent := h.coherent.congr rfl rfl (fun kind ↦ by cases kind <;> rfl) rfl
  tabled := h.tabled.congr rfl rfl rfl rfl rfl rfl
  logged := by
    refine ⟨h.logged.faultless, fun kind ↦ ?_, h.logged.replies, h.logged.turns, rfl⟩
    cases kind
    · exact h.logged.traced .requester
    · exact h.logged.traced .responder

theorem mono (h : Holds allowed start books dirty ep) (hsub : dirty ⊆ dirty') :
    Holds allowed start books dirty' ep :=
  ⟨h.run, h.inv, fun c i hclean ↦ h.coherent c i fun hmem ↦ hclean (hsub hmem), h.tabled, h.logged⟩

theorem engine_qps (hslot : ep.qps index = some slot) :
    ep.engine.qps index = some slot.toQpTransport := by
  simp [RcEndpoint.engine, hslot]

theorem engine_qps_congr {i : Fin QPS} (h : ep'.qps i = ep.qps i) :
    ep'.engine.qps i = ep.engine.qps i :=
  congrArg (Option.map RcQpSlot.toQpTransport) h

theorem engine_qps_eq_some {qp : QpTransport MRS SQ RQ CQ} (h : ep.engine.qps index = some qp) :
    ∃ slot, ep.qps index = some slot ∧ slot.toQpTransport = qp := by
  simpa [RcEndpoint.engine] using h

theorem qpInv (h : Holds allowed start books dirty ep) (hslot : ep.qps index = some slot) :
    QpInv slot.toQpTransport :=
  h.inv.qp index _ (engine_qps hslot)

theorem granted (h : Holds allowed start books dirty ep) (hslot : ep.qps index = some slot) :
    Granted ep.memory slot.toQpTransport :=
  h.inv.granted index _ (engine_qps hslot)

theorem spans (h : Holds allowed start books dirty ep) (hslot : ep.qps index = some slot) :
    slot.requester.Spans :=
  h.inv.spans index _ (engine_qps hslot)

theorem counted (h : Holds allowed start books dirty ep) (hslot : ep.qps index = some slot) :
    Counted (ep.context slot).memory.refs
      ((ep.context slot).qp.leases + heldByOthers ep.engine.qps index) := by
  have hcounted := h.inv.counted
  rw [heldByAll_eq _ index, engine_qps hslot] at hcounted
  exact hcounted

/-! ## Replacing a slot -/

section Replace

variable {memory : MemoryRegistry MRS} {stats : RcEndpointStats}
  {arrivals : List (Arrival MRS SQ RQ CQ)} {copies : List (ℕ × List UInt8)}
  {reply : Option ControlReply}

theorem qps_replace_self :
    (ep.replace index slot' memory stats arrivals).qps index = some slot' :=
  Function.update_self ..

theorem qps_replace_of_ne {i : Fin QPS} (h : i ≠ index) :
    (ep.replace index slot' memory stats arrivals).qps i = ep.qps i :=
  Function.update_of_ne h ..

theorem ready_replace (kind : DataTxClass) :
    (ep.replace index slot' memory stats arrivals).ready kind = ep.ready kind := by
  cases kind <;> rfl

theorem engine_replace :
    (ep.replace index slot' memory stats arrivals).engine =
    { ep.engine with
      memory := memory
      qps := Function.update ep.engine.qps index (some slot'.toQpTransport)
      arrivals := arrivals } := by
  simp only [RcEndpoint.engine, RcEndpoint.replace, Engine.mk.injEq, true_and, and_true]
  funext i
  by_cases hi : i = index
  · subst hi
    simp
  · simp [hi]

theorem tabled_replace (htabled : ep.Tabled) (hslot : ep.qps index = some slot)
    (hconfig : slot'.machine.config = slot.machine.config)
    (hgeneration : slot'.generation = slot.generation)
    (hmet : ∀ arrival ∈ arrivals, arrival ∈ ep.arrivals ∨ arrival.qp = slot.toQpTransport) :
    (ep.replace index slot' memory stats arrivals).Tabled := by
  refine ⟨?_, fun i s hs ↦ ?_, htabled.armed, fun i s hs ↦ ?_, fun arrival harrival ↦ ?_,
    fun i s hs ↦ ?_⟩
  · have hnumbers : (ep.replace index slot' memory stats arrivals).numbers = ep.numbers := by
      refine (RcEndpoint.numbers_update ep index (some slot')).trans ?_
      rw [Option.map_some, hconfig, Function.update_eq_self_iff, RcEndpoint.numbers, hslot,
        Option.map_some]
    rw [hnumbers]
    exact htabled.indexed
  · by_cases hi : i = index
    · subst hi
      exact htabled.bound i slot hslot
    · rw [qps_replace_of_ne hi] at hs
      exact htabled.bound i s hs
  · by_cases hi : i = index
    · subst hi
      rw [qps_replace_self] at hs
      cases hs
      rw [hconfig]
      exact htabled.sized i slot hslot
    · rw [qps_replace_of_ne hi] at hs
      exact htabled.sized i s hs
  · rcases hmet arrival harrival with hold | hnew
    · exact htabled.met arrival hold
    · rw [hnew]
      exact htabled.sized index slot hslot
  · by_cases hi : i = index
    · subst hi
      rw [qps_replace_self] at hs
      cases hs
      rw [hgeneration]
      exact htabled.aged i slot hslot
    · rw [qps_replace_of_ne hi] at hs
      exact htabled.aged i s hs

theorem coherent_replace (hcoherent : ep.Coherent dirty)
    (hself : ∀ c, (c, index) ∉ dirty' → (c, index) ∉ dirty ∧
      (ep.CoherentAt c index → (ep.replace index slot' memory stats arrivals).CoherentAt c index))
    (hothers : ∀ c i, i ≠ index → (c, i) ∉ dirty' → (c, i) ∉ dirty) :
    (ep.replace index slot' memory stats arrivals).Coherent dirty' := by
  intro c i hclean
  by_cases hi : i = index
  · subst hi
    obtain ⟨hclean', hkeep⟩ := hself c hclean
    exact hkeep (hcoherent c i hclean')
  · refine RcEndpoint.coherentAt_congr (hcoherent c i (hothers c i hi hclean))
      (qps_replace_of_ne hi) rfl (fun kind ↦ ?_) rfl
    rw [ready_replace]

variable {event : QpEvent} (h : Holds allowed start books dirty ep)
  (hslot : ep.qps index = some slot) (hallowed : allowed (.qp index event))
  (hevent : ∀ config, event ≠ .reconfigure config)
  (hstep : QpStep ep.memory slot.toQpTransport event copies slot'.toQpTransport reply)
  (hmemory : Copied ep.memory copies memory) (hcounted : Counted memory.refs
    (slot'.toQpTransport.leases + heldByOthers ep.engine.qps index))
  (harrivals : arrivals = event.record index.val slot.toQpTransport reply ep.arrivals)
  (hgeneration : slot'.generation = slot.generation)

include h hslot hallowed hevent hstep hmemory hcounted harrivals hgeneration

/-- **A queue pair takes a step.**  Its slot becomes dirty in the respects that `hself` does not
cover, and the reply of a packet is owed. -/
theorem act
    (hself : ∀ c, (c, index) ∉ dirty' → (c, index) ∉ dirty ∧
      (ep.CoherentAt c index → (ep.replace index slot' memory stats arrivals).CoherentAt c index))
    (hothers : ∀ c i, i ≠ index → (c, i) ∉ dirty' → (c, i) ∉ dirty) :
    Holds allowed start (books.owe reply) dirty'
      (ep.replace index slot' memory stats arrivals) := by
  have hconfig := congrArg (fun config ↦ config.transport) (hstep.config hevent)
  change slot'.machine.config = slot.machine.config at hconfig
  have hengine : EngineStep ep.engine (.qp index event) _ :=
    .qp (engine_qps hslot) hstep hmemory hcounted
  refine ⟨?_, ?_, ?_, ?_, h.logged.faultless, fun kind ↦ ?_, ?_, h.logged.turns, h.logged.next⟩
  · rw [engine_replace, harrivals]
    exact .tail h.run hallowed hengine
  · rw [engine_replace, harrivals]
    exact hengine.inv h.inv
  · exact coherent_replace h.coherent hself hothers
  · refine tabled_replace h.tabled hslot hconfig hgeneration fun arrival harrival ↦ ?_
    rw [harrivals] at harrival
    exact (event.mem_record harrival).imp_right fun hnew ↦ hnew.2.1
  · rw [ready_replace]
    exact h.logged.traced kind
  · change arrivals.filterMap (fun arrival ↦ arrival.reply) =
      ep.activity.filterMap Activity.reply ++ ep.pendingControl.items ++
        (books.owed ++ reply.toList)
    rw [harrivals, filterMap_reply_record hstep, h.logged.replies, List.append_assoc]

theorem actAll :
    Holds allowed start (books.owe reply) (dirty ∪ AllOf index)
      (ep.replace index slot' memory stats arrivals) :=
  h.act hslot hallowed hevent hstep hmemory hcounted harrivals hgeneration
    (fun _ hclean ↦ absurd (Or.inr rfl) hclean) (fun _ _ _ hclean hmem ↦ hclean (Or.inl hmem))

end Replace

/-! ## Schedulers -/

theorem engine_synchronizeQp (ep : RcEndpoint QPS MRS SQ RQ CQ IDX) (index : Fin QPS) :
    (ep.synchronizeQp index).engine = ep.engine := by
  obtain ⟨hconfig, hmemory, hoffered, harrivals, -, -, -, hgenerations⟩ :=
    RcEndpoint.frame_synchronizeQp ep index
  have hqps : (ep.synchronizeQp index).engine.qps = ep.engine.qps := by
    funext i
    have hmap := congrArg (Option.map Prod.fst) (RcEndpoint.qps_synchronizeQp ep index i)
    rw [Option.map_map, Option.map_map] at hmap
    exact hmap
  have haccepted : (ep.synchronizeQp index).engine.accepted = ep.engine.accepted := by
    simp only [RcEndpoint.engine, RcEndpoint.activity_synchronizeQp, List.filterMap_append,
      List.filterMap_cons, Activity.acceptance_observed, List.filterMap_nil, List.append_nil]
  simp only [RcEndpoint.engine, Engine.mk.injEq, hconfig, hmemory, hoffered, harrivals,
    hgenerations, true_and]
  exact ⟨hqps, haccepted⟩

/-- **Synchronizing a slot cleans it.** -/
theorem sync (h : Holds allowed start books dirty ep) (index : Fin QPS) :
    Holds allowed start books (dirty \ AllOf index) (ep.synchronizeQp index) := by
  refine ⟨?_, ?_, fun c i hclean ↦ ?_, h.tabled.synchronizeQp index,
    h.logged.synchronizeQp h.tabled index⟩
  · rw [engine_synchronizeQp]
    exact h.run
  · rw [engine_synchronizeQp]
    exact h.inv
  · by_cases hi : i = index
    · subst hi
      exact RcEndpoint.coherentAt_synchronizeQp h.tabled c
    · exact RcEndpoint.coherentAt_synchronizeQp_of_ne hi
        (h.coherent c i fun hmem ↦ hclean ⟨hmem, hi⟩)

theorem engine_log (ep : RcEndpoint QPS MRS SQ RQ CQ IDX) (event : Activity QPS MRS SQ RQ CQ)
    (hevent : event.acceptance = none) : (ep.log event).engine = ep.engine := by
  simp [RcEndpoint.engine, RcEndpoint.log, hevent]

theorem ready_setReady (ep : RcEndpoint QPS MRS SQ RQ CQ IDX) (kind : DataTxClass)
    (queue : ReadyQueue QPS) : (ep.setReady kind queue).ready kind = queue := by
  cases kind <;> rfl

theorem ready_setReady_of_ne (ep : RcEndpoint QPS MRS SQ RQ CQ IDX) {kind other : DataTxClass}
    (queue : ReadyQueue QPS) (h : other ≠ kind) :
    (ep.setReady kind queue).ready other = ep.ready other := by
  cases kind <;> cases other <;> first | rfl | exact absurd rfl h

/-- **A slot is taken from the head of its ready queue**, which makes it dirty there. -/
theorem take (h : Holds allowed start books dirty ep) (kind : DataTxClass)
    {queue : ReadyQueue QPS} (others : List (Fin QPS))
    (hpop : (ep.ready kind).pop = some (index, queue))
    (hnew : index ∉ books.flight kind) :
    Holds allowed start (books.fly kind (books.flight kind ++ [index])
        (.taken kind index queue.slots others)) (insert (.ready kind, index) dirty)
      ((ep.setReady kind queue).log (.taken kind index queue.slots others)) := by
  have hslots := ReadyQueue.pop_eq_some.mp hpop
  have hsame : (ep.setReady kind queue).engine = ep.engine := by cases kind <;> rfl
  have hengine := (engine_log (ep.setReady kind queue)
    (.taken kind index queue.slots others) rfl).trans hsame
  have hready : ∀ other, (((ep.setReady kind queue).log
      (.taken kind index queue.slots others)).ready other) =
      (ep.setReady kind queue).ready other := fun other ↦ by cases other <;> rfl
  refine ⟨?_, ?_, fun c i hclean ↦ ?_, ?_, ?_⟩
  · rw [hengine]
    exact h.run
  · rw [hengine]
    exact h.inv
  · have hold := h.coherent c i fun hmem ↦ hclean (Set.mem_insert_of_mem _ hmem)
    cases c with
    | ready current =>
      refine RcEndpoint.Agrees.congr hold ?_ ?_ ?_
      · cases kind <;> rfl
      · cases kind <;> rfl
      · rw [hready]
        by_cases hcurrent : current = kind
        · subst hcurrent
          have hne : i ≠ index := fun heq ↦ hclean (heq ▸ Set.mem_insert _ _)
          rw [ready_setReady, hslots, List.mem_cons]
          exact ⟨Or.inr, fun hmem ↦ hmem.resolve_left hne⟩
        · rw [ready_setReady_of_ne ep queue hcurrent]
    | timer => cases kind <;> exact hold
  · cases kind <;> exact h.tabled.congr rfl rfl rfl rfl rfl rfl
  · refine h.logged.log (.taken kind index queue.slots others) (.taken index queue.slots) rfl rfl
      rfl (if_pos rfl) (fun other hne ↦ if_neg hne.symm) ?_ ?_ (fun other hne ↦ ?_) ?_ ?_ ?_
    · cases kind <;> rfl
    · rw [hready, ready_setReady, hslots]
      exact .taken hnew
    · rw [hready, ready_setReady_of_ne ep queue hne]
    · cases kind <;> rfl
    · cases kind <;> rfl
    · cases kind <;> rfl

/-- **A slot that was taken sends nothing.** -/
theorem giveBack (h : Holds allowed start books dirty ep) (kind : DataTxClass)
    (index : Fin QPS) :
    Holds allowed start (books.fly kind ((books.flight kind).filter (· ≠ index))
      (.returned kind index)) dirty (ep.log (.returned kind index)) := by
  have hengine := engine_log ep (.returned kind index) rfl
  have hready : ∀ other, (ep.log (.returned kind index)).ready other = ep.ready other :=
    fun other ↦ by cases other <;> rfl
  refine ⟨?_, ?_, h.coherent.congr rfl rfl hready rfl, h.tabled.congr rfl rfl rfl rfl rfl rfl, ?_⟩
  · rw [hengine]
    exact h.run
  · rw [hengine]
    exact h.inv
  · refine h.logged.log (.returned kind index) (.returned index) rfl rfl rfl (if_pos rfl)
      (fun other hne ↦ if_neg hne.symm) rfl ?_ (fun other _ ↦ hready other) rfl rfl rfl
    rw [hready]
    exact .returned index

/-- **The backend accepts the data packet of a slot that was taken.** -/
theorem accept (h : Holds allowed start books dirty ep) (hslot : ep.qps index = some slot)
    {kind : DataTxClass} {younger : List (Fin QPS)} (hallowed : allowed (.accept kind index))
    (hpacket : slot.HasPacket kind) (hkind : books.flight kind = index :: younger) :
    Holds allowed start (books.fly kind younger (.accepted kind index slot.toQpTransport)) dirty
      (ep.log (.accepted kind index slot.toQpTransport)) := by
  have hengine : EngineStep ep.engine (.accept kind index)
      (ep.log (.accepted kind index slot.toQpTransport)).engine := by
    have hlog : (ep.log (.accepted kind index slot.toQpTransport)).engine =
        { ep.engine with
          accepted := ep.engine.accepted ++ [(kind, index, slot.toQpTransport)] } := by
      simp [RcEndpoint.engine, RcEndpoint.log, Activity.acceptance]
    rw [hlog]
    exact .accept (engine_qps hslot) hpacket
  have hready : ∀ other, (ep.log (.accepted kind index slot.toQpTransport)).ready other =
      ep.ready other := fun other ↦ by cases other <;> rfl
  refine ⟨.tail h.run hallowed hengine, hengine.inv h.inv, h.coherent.congr rfl rfl hready rfl,
    h.tabled.congr rfl rfl rfl rfl rfl rfl, ?_⟩
  refine h.logged.log (.accepted kind index slot.toQpTransport) (.served index) rfl rfl rfl
    (if_pos rfl) (fun other hne ↦ if_neg hne.symm) rfl ?_ (fun other _ ↦ hready other) rfl rfl rfl
  rw [hready, hkind]
  exact .served

theorem popTimer (h : Holds allowed start books dirty ep) {now : ℕ} {entry : TimerEntry}
    {timers : TimerScheduler QPS}
    (hpop : ep.timerScheduler.popExpired now = some (index, entry, timers)) :
    Holds allowed start books (insert (.timer, index) dirty)
      { ep with timerScheduler := timers } := by
  have hcancel := TimerScheduler.timers_of_popExpired hpop
  subst hcancel
  refine ⟨h.run, h.inv, fun c i hclean ↦ ?_,
    ⟨h.tabled.indexed, h.tabled.bound, fun i entry hget ↦ ?_, h.tabled.sized, h.tabled.met,
      h.tabled.aged⟩,
    h.logged.congr rfl (fun kind ↦ by cases kind <;> rfl) rfl rfl rfl⟩
  · have hold := h.coherent c i fun hmem ↦ hclean (Set.mem_insert_of_mem _ hmem)
    cases c with
    | timer =>
      have hne : i ≠ index := fun heq ↦ hclean (heq ▸ Set.mem_insert _ _)
      exact (TimerScheduler.get_cancel_of_ne _ hne).trans hold
    | ready kind => exact RcEndpoint.Agrees.congr hold rfl rfl (by cases kind <;> exact Iff.rfl)
  · by_cases hi : i = index
    · subst hi
      exact nomatch (TimerScheduler.get_cancel_self ep.timerScheduler i).symm.trans hget
    · exact h.tabled.armed i entry ((TimerScheduler.get_cancel_of_ne _ hi).symm.trans hget)

/-- Changing the scheduling fields of a slot does not touch the engine. -/
theorem reslot (h : Holds allowed start books dirty ep) (hslot : ep.qps index = some slot)
    (hqp : slot'.toQpTransport = slot.toQpTransport)
    (hgeneration : slot'.generation = slot.generation)
    (hself : ∀ c, (c, index) ∉ dirty → ep.CoherentAt c index →
      (ep.setSlot index slot').CoherentAt c index) :
    Holds allowed start books dirty (ep.setSlot index slot') := by
  have hreplace : ep.setSlot index slot' =
      ep.replace index slot' ep.memory ep.stats ep.arrivals := rfl
  have hengine : (ep.setSlot index slot').engine = ep.engine := by
    rw [hreplace, engine_replace, hqp, ← engine_qps hslot, Function.update_eq_self]
    rfl
  have hconfig : slot'.machine.config = slot.machine.config := by rw [hqp]
  refine ⟨?_, ?_, ?_, ?_, h.logged.congr rfl (fun kind ↦ by cases kind <;> rfl) rfl rfl rfl⟩
  · rw [hengine]
    exact h.run
  · rw [hengine]
    exact h.inv
  · exact coherent_replace h.coherent (fun c hclean ↦ ⟨hclean, hself c hclean⟩)
      (fun _ _ _ hclean ↦ hclean)
  · exact tabled_replace h.tabled hslot hconfig hgeneration fun _ harrival ↦ .inl harrival

/-! ## Handlers -/

/-- **A handler runs on a slot, which is synchronized afterwards.** -/
theorem recorded (h : Holds allowed start books dirty ep) (hslot : ep.qps index = some slot)
    {event : QpEvent} {reply : Option ControlReply} {arrivals : List (Arrival MRS SQ RQ CQ)}
    (hallowed : allowed (.qp index event)) (hevent : ∀ config, event ≠ .reconfigure config)
    (hstep : QpStep ep.memory slot.toQpTransport event copies ctx'.qp reply)
    (hkeeps : QpContext.Keeps ep.memory copies (heldByOthers ep.engine.qps index) ctx')
    (harrivals : arrivals = event.record index.val slot.toQpTransport reply ep.arrivals) :
    Holds allowed start (books.owe reply) (dirty \ AllOf index)
      (RcEndpoint.synchronizeQp { ep.restore index slot ctx' with arrivals := arrivals }
        index) := by
  have hact : Holds allowed start (books.owe reply) (dirty ∪ AllOf index) (ep.replace index
      { slot with toQpTransport := ctx'.qp } ctx'.memory ctx'.stats arrivals) :=
    h.actAll hslot hallowed hevent hstep hkeeps.memory hkeeps.counted harrivals rfl
  refine (hact.sync index).mono ?_
  rintro x ⟨hmem, hother⟩
  exact ⟨hmem.resolve_right hother, hother⟩

theorem handled (h : Holds allowed start books dirty ep) (hslot : ep.qps index = some slot)
    {event : QpEvent} (hallowed : allowed (.qp index event))
    (hevent : ∀ config, event ≠ .reconfigure config)
    (hstep : QpStep ep.memory slot.toQpTransport event copies ctx'.qp none)
    (hkeeps : QpContext.Keeps ep.memory copies (heldByOthers ep.engine.qps index) ctx')
    (hrecord : event.record index.val slot.toQpTransport none ep.arrivals = ep.arrivals) :
    Holds allowed start books (dirty \ AllOf index)
      ((ep.restore index slot ctx').synchronizeQp index) := by
  have hrecorded := h.recorded hslot hallowed hevent hstep hkeeps hrecord.symm
  rw [Books.owe_none] at hrecorded
  exact hrecorded

/-! ## Packets -/

/-- **A packet is handed to the backend.** -/
theorem offer (h : Holds allowed start books dirty ep) {packet : WirePacket}
    {sender : Option (DataTxClass × Fin QPS)} (hallowed : allowed (.offer packet))
    (hemits : Emits ep.engine sender packet) :
    Holds allowed start books dirty { ep with offered := ep.offered ++ [packet] } := by
  have hengine : EngineStep ep.engine (.offer packet) _ := .offer hemits
  exact ⟨.tail h.run hallowed hengine, hengine.inv h.inv,
    h.coherent.congr rfl rfl (fun kind ↦ by cases kind <;> rfl) rfl,
    h.tabled.congr rfl rfl rfl rfl rfl rfl,
    h.logged.congr rfl (fun kind ↦ by cases kind <;> rfl) rfl rfl rfl⟩

/-- **The backend accepts the oldest reply that waits.** -/
theorem acceptReply (h : Holds allowed start books dirty ep) {reply : ControlReply}
    {rest : Ring ControlReply maxBatchPackets}
    (hpop : ep.pendingControl.pop = some (reply, rest)) :
    Holds allowed start books dirty
      (RcEndpoint.log { ep with pendingControl := rest } (.replied reply)) := by
  have hready : ∀ kind, (RcEndpoint.log { ep with pendingControl := rest }
      (.replied reply)).ready kind = ep.ready kind := fun kind ↦ by cases kind <;> rfl
  have hengine := engine_log { ep with pendingControl := rest } (.replied reply) rfl
  refine ⟨?_, ?_, h.coherent.congr rfl rfl hready rfl, h.tabled.congr rfl rfl rfl rfl rfl rfl,
    fun entry hmem ↦ ?_, fun kind ↦ ?_, ?_, ?_, h.logged.next⟩
  · rw [hengine]
    exact h.run
  · rw [hengine]
    exact h.inv
  · rcases List.mem_append.mp hmem with hold | hnew
    · exact h.logged.faultless entry hold
    · rw [List.mem_singleton.mp hnew]
      rfl
  · have hturns : (RcEndpoint.log { ep with pendingControl := rest }
        (.replied reply)).activity.filterMap (Activity.turn kind) =
          ep.activity.filterMap (Activity.turn kind) := by
      simp [RcEndpoint.log, Activity.turn]
    rw [hturns, hready]
    exact h.logged.traced kind
  · have hreplies := h.logged.replies
    rw [Ring.pop_eq_some.mp hpop] at hreplies
    simp [RcEndpoint.log, Activity.reply, hreplies]
  · rw [← h.logged.turns]
    simp [RcEndpoint.log, Activity.isTurn]

theorem queueOwed {turns : List (Activity QPS MRS SQ RQ CQ)} {next : DataTxClass}
    {reply : ControlReply} (h : Holds allowed start ((Books.settled turns next).owe reply) dirty ep)
    {ring : Ring ControlReply maxBatchPackets} (hring : ep.pendingControl.push reply = .ok ring) :
    Holds allowed start (.settled turns next) dirty { ep with pendingControl := ring } := by
  refine ⟨h.run, h.inv, h.coherent.congr rfl rfl (fun kind ↦ by cases kind <;> rfl) rfl,
    h.tabled.congr rfl rfl rfl rfl rfl rfl, h.logged.faultless, fun kind ↦ ?_, ?_, h.logged.turns,
    h.logged.next⟩
  · cases kind
    · exact h.logged.traced .requester
    · exact h.logged.traced .responder
  · have hreplies := h.logged.replies
    change ep.arrivals.filterMap (fun arrival ↦ arrival.reply) =
      ep.activity.filterMap Activity.reply ++ ring.items ++ []
    rw [hreplies, (Ring.push_eq_ok.mp hring).2]
    simp [Books.owe, Books.settled]

end Holds

end Rocev2.Rc
