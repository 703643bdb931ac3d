import Rocev2.Rc.PostQueue
import Rocev2.Rc.ProgressRefinement

/-!
# Posting, polling and state changes refine the engine

The calls of the application on one queue pair.  A call that is refused leaves the endpoint as it
was, and requests that are posted are one step of the engine, be it one request or a batch.
-/

namespace Rocev2.Rc

open Rocev2.Core Rocev2.Memory Rocev2.Lib

variable {QPS MRS SQ RQ CQ IDX : ℕ} {ep : RcEndpoint QPS MRS SQ RQ CQ IDX}
  {slot : RcQpSlot MRS SQ RQ CQ}

/-- **The two outcomes of a state change.** -/
theorem RcEndpoint.transitionQp_cases (ep : RcEndpoint QPS MRS SQ RQ CQ IDX) (handle : QpHandle)
    (destination : QpState) :
    (∃ e, ep.transitionQp handle destination = (ep, .error e) ∧ e ≠ .qpnIndexFull) ∨
      ∃ index slot ctx generated, ep.qpIndex handle = some (index, slot) ∧
        transitionContext (ep.context slot) destination = .ok (ctx, generated) ∧
        ep.transitionQp handle destination =
          (((ep.restore index slot ctx).synchronizeQp index).countCompletions generated,
            .ok ()) := by
  unfold transitionQp
  split
  · exact .inl ⟨_, rfl, nofun⟩
  rename_i index slot hindex
  split
  · exact .inl ⟨_, rfl, nofun⟩
  · rename_i ctx generated htransition
    exact .inr ⟨index, slot, ctx, generated, hindex, htransition, rfl⟩

namespace Holds

variable {allowed : EngineEvent QPS → Prop} {start : Engine QPS MRS SQ RQ CQ}
  {books : Books QPS MRS SQ RQ CQ} {dirty : Set (Component × Fin QPS)}
  {ep ep' : RcEndpoint QPS MRS SQ RQ CQ IDX} {index : Fin QPS} {slot : RcQpSlot MRS SQ RQ CQ}
  {qp' : QpTransport MRS SQ RQ CQ} {handle : QpHandle} {memory : MemoryRegistry MRS}
  {completion : Completion}

/-- **A step that the schedulers do not see.** -/
theorem silent (h : Holds allowed start books dirty ep) (hslot : ep.qps index = some slot)
    {event : QpEvent} (stats : RcEndpointStats) (hallowed : allowed (.qp index event))
    (hevent : ∀ config, event ≠ .reconfigure config)
    (hstep : QpStep ep.memory slot.toQpTransport event [] qp' none)
    (hmemory : Copied ep.memory [] memory)
    (hcounted : Counted memory.refs (qp'.leases + heldByOthers ep.engine.qps index))
    (hrecord : event.record index.val slot.toQpTransport none ep.arrivals = ep.arrivals)
    (hrequester : qp'.requesterIsRunnable = slot.requesterIsRunnable)
    (hresponder : qp'.responderIsRunnable = slot.responderIsRunnable)
    (hdeadline : qp'.timerDeadline = slot.timerDeadline) :
    Holds allowed start books dirty
      (ep.replace index { slot with toQpTransport := qp' } memory stats ep.arrivals) := by
  have htimeout := congrArg (fun config ↦ config.transport.timeout) (hstep.config hevent)
  rw [← books.owe_none]
  refine h.act hslot hallowed hevent hstep hmemory hcounted hrecord.symm rfl
    (fun c hclean ↦ ⟨hclean, fun hold ↦ ?_⟩) (fun _ _ _ hclean ↦ hclean)
  cases c with
  | ready kind =>
    refine RcEndpoint.Agrees.of_slot hold hslot qps_replace_self rfl htimeout ?_ ?_
      (ready_replace kind)
    · cases kind with
      | requester => exact hrequester
      | responder => exact hresponder
    · cases kind <;> rfl
  | timer =>
    refine RcEndpoint.coherentAt_timer_of_slot hold hslot qps_replace_self ?_ rfl
    simp only [RcEndpoint.timerEntry, hdeadline]

/-! ## State changes -/

theorem transitionQp (h : Holds allowed start books dirty ep) {destination : QpState}
    (hallowed : ∀ index : Fin QPS, index.val = handle.slot →
      allowed (.qp index (.transition destination))) :
    Holds allowed start books dirty (ep.transitionQp handle destination).1 := by
  rcases ep.transitionQp_cases handle destination with
    ⟨e, hrefused, -⟩ | ⟨index, slot, ctx, generated, hindex, htransition, hmoved⟩
  · rw [hrefused]
    exact h
  obtain ⟨hslot, hnumber, -⟩ := QpHandle.find_eq_some.mp hindex
  rw [hmoved]
  obtain ⟨hlegal, hqp, hkeeps⟩ := transitionContext_spec htransition (h.counted hslot)
  have hstep : QpStep ep.memory slot.toQpTransport (.transition destination) [] ctx.qp none := by
    rw [hqp]
    exact .transition hlegal
  exact ((h.handled hslot (hallowed index hnumber) (fun _ h ↦ nomatch h) hstep hkeeps rfl).withStats
    _).mono Set.sdiff_subset

/-! ## Posted work -/

/-- **Requests that are posted to the send queue are a step.** -/
theorem workPosted (h : Holds allowed start books dirty ep) {works : List WorkRequest}
    (hposts : PostQueue.send.Posts ep handle works ep')
    (hallowed : ∀ index : Fin QPS, index.val = handle.slot →
      allowed (.qp index (.postWork works))) : Holds allowed start books dirty ep' := by
  obtain ⟨index, slot, leases, memory, hlive, hadmits, rfl⟩ := hposts
  obtain ⟨hslot, hnumber, -⟩ := QpHandle.find_eq_some.mp hlive
  obtain ⟨hstep, hcopy, hposted⟩ := hadmits.send_step (h.counted hslot)
  have hkeeps : QpContext.Keeps ep.memory [] (heldByOthers ep.engine.qps index)
      ⟨_, memory, ep.stats⟩ := ⟨hcopy, hposted⟩
  rw [RcEndpoint.load_of_some hslot]
  exact ((h.handled hslot (hallowed index hnumber) (fun _ h ↦ nomatch h) hstep hkeeps
    rfl).withStats _).mono Set.sdiff_subset

/-- **Requests that are posted to the receive queue are a step.** -/
theorem receivePosted (h : Holds allowed start books dirty ep) {works : List RecvWorkRequest}
    (hposts : PostQueue.receive.Posts ep handle works ep')
    (hallowed : ∀ index : Fin QPS, index.val = handle.slot →
      allowed (.qp index (.postReceive works))) : Holds allowed start books dirty ep' := by
  obtain ⟨index, slot, leases, memory, hlive, hadmits, rfl⟩ := hposts
  obtain ⟨hslot, hnumber, -⟩ := QpHandle.find_eq_some.mp hlive
  obtain ⟨hstep, hcopy, hposted⟩ := hadmits.receive_step (h.counted hslot)
  rw [RcEndpoint.load_of_some hslot]
  exact (h.silent hslot ep.stats (hallowed index hnumber) (fun _ h ↦ nomatch h) hstep hcopy hposted
    rfl rfl rfl rfl).withStats _

theorem postWork (h : Holds allowed start books dirty ep) {work : WorkRequest}
    (hallowed : ∀ index : Fin QPS, index.val = handle.slot →
      allowed (.qp index (.postWork [work]))) :
    Holds allowed start books dirty (ep.postWork handle work).1 := by
  rw [postWork_eq]
  rcases PostQueue.send.post_cases ep handle work with ⟨e, hpost⟩ | ⟨ep', hpost, hposts⟩
  · rw [hpost]
    exact h
  · rw [hpost]
    exact h.workPosted hposts hallowed

theorem postReceive (h : Holds allowed start books dirty ep) {work : RecvWorkRequest}
    (hallowed : ∀ index : Fin QPS, index.val = handle.slot →
      allowed (.qp index (.postReceive [work]))) :
    Holds allowed start books dirty (ep.postReceive handle work).1 := by
  rw [postReceive_eq]
  rcases PostQueue.receive.post_cases ep handle work with ⟨e, hpost⟩ | ⟨ep', hpost, hposts⟩
  · rw [hpost]
    exact h
  · rw [hpost]
    exact h.receivePosted hposts hallowed

/-- A batch that is accepted posts its requests; any other leaves the endpoint as it was. -/
theorem postBatch {α : Type} {queue : PostQueue α QPS MRS SQ RQ CQ IDX} {works : List α}
    (h : Holds allowed start books dirty ep)
    (hposts : ∀ ep', queue.Posts ep handle works ep' → Holds allowed start books dirty ep') :
    Holds allowed start books dirty (queue.postBatch ep handle works).1 := by
  by_cases hne : works = []
  · rw [PostQueue.postBatch, if_pos hne]
    exact h
  rcases queue.postBatch_cases handle hne ⟨_, h.inv.counted⟩ with ⟨e, hbatch⟩ | ⟨ep', hbatch, hall⟩
  · rw [hbatch]
    exact h
  · rw [hbatch]
    exact hposts ep' hall

theorem postWorkBatch (h : Holds allowed start books dirty ep) {works : List WorkRequest}
    (hallowed : ∀ (index : Fin QPS) (posted : List WorkRequest),
      index.val = handle.slot → posted = works ∨ posted = [] →
      allowed (.qp index (.postWork posted))) :
    Holds allowed start books dirty (ep.postWorkBatch handle works).1 := by
  rw [postWorkBatch_eq]
  exact h.postBatch fun ep' hposts ↦
    h.workPosted hposts fun index hnumber ↦ hallowed index works hnumber (.inl rfl)

theorem postReceiveBatch (h : Holds allowed start books dirty ep) {works : List RecvWorkRequest}
    (hallowed : ∀ (index : Fin QPS) (posted : List RecvWorkRequest),
      index.val = handle.slot → posted = works ∨ posted = [] →
      allowed (.qp index (.postReceive posted))) :
    Holds allowed start books dirty (ep.postReceiveBatch handle works).1 := by
  rw [postReceiveBatch_eq]
  exact h.postBatch fun ep' hposts ↦
    h.receivePosted hposts fun index hnumber ↦ hallowed index works hnumber (.inl rfl)

/-! ## Polling -/

theorem pollQp_frame {qp : QpTransport MRS SQ RQ CQ}
    (h : RcEndpoint.pollQp qp = some (completion, qp')) :
    qp'.leases = qp.leases ∧ qp'.requesterIsRunnable = qp.requesterIsRunnable ∧
      qp'.responderIsRunnable = qp.responderIsRunnable ∧ qp'.timerDeadline = qp.timerDeadline := by
  unfold RcEndpoint.pollQp at h
  split at h
  · cases h
  · cases h
    exact ⟨rfl, rfl, rfl, rfl⟩

theorem polled (h : Holds allowed start books dirty ep) (hslot : ep.qps index = some slot)
    (hallowed : allowed (.qp index .poll))
    (hpoll : RcEndpoint.pollQp slot.toQpTransport = some (completion, qp')) :
    Holds allowed start books dirty (ep.setSlot index { slot with toQpTransport := qp' }) := by
  obtain ⟨hleases, hrequester, hresponder, hdeadline⟩ := pollQp_frame hpoll
  have hcounted : Counted ep.memory.refs (qp'.leases + heldByOthers ep.engine.qps index) := by
    rw [hleases]
    exact h.counted hslot
  exact h.silent hslot ep.stats hallowed (fun _ h ↦ nomatch h) (.poll hpoll) (Copied.refl _)
    hcounted rfl hrequester hresponder hdeadline

theorem pollCompletion (h : Holds allowed start books dirty ep)
    (hallowed : ∀ index : Fin QPS, index.val = handle.slot → allowed (.qp index .poll)) :
    Holds allowed start books dirty (ep.pollCompletion handle).1 := by
  unfold RcEndpoint.pollCompletion
  split
  · exact h
  rename_i index slot hindex
  obtain ⟨hslot, hnumber, -⟩ := QpHandle.find_eq_some.mp hindex
  split
  · exact h
  · rename_i completion qp hpoll
    exact h.polled hslot (hallowed index hnumber) hpoll

theorem pollMany (count : ℕ) (hallowed : allowed (.qp index .poll)) :
    ∀ {ep : RcEndpoint QPS MRS SQ RQ CQ IDX} {slot : RcQpSlot MRS SQ RQ CQ},
      Holds allowed start books dirty ep → ep.qps index = some slot →
      Holds allowed start books dirty (ep.setSlot index
        { slot with toQpTransport := (RcEndpoint.pollMany count slot.toQpTransport).1 }) := by
  induction count with
  | zero =>
    intro ep slot h hslot
    rw [RcEndpoint.pollMany, RcEndpoint.setSlot_self hslot]
    exact h
  | succ count ih =>
    intro ep slot h hslot
    unfold RcEndpoint.pollMany
    split
    · rw [RcEndpoint.setSlot_self hslot]
      exact h
    · rename_i completion qp hpoll
      have hone := h.polled hslot hallowed hpoll
      have hrest := ih hone (Function.update_self ..)
      unfold RcEndpoint.setSlot at hrest ⊢
      rw [Function.update_idem] at hrest
      exact hrest

theorem pollCompletions (h : Holds allowed start books dirty ep) (count : ℕ)
    (hallowed : ∀ index : Fin QPS, index.val = handle.slot → allowed (.qp index .poll)) :
    Holds allowed start books dirty (ep.pollCompletions handle count).1 := by
  unfold RcEndpoint.pollCompletions
  split
  · exact h
  rename_i index slot hindex
  obtain ⟨hslot, hnumber, -⟩ := QpHandle.find_eq_some.mp hindex
  exact pollMany count (hallowed index hnumber) h hslot

end Holds

end Rocev2.Rc
