import Rocev2.Rc.Resources

/-!
# Posting one list after the other

Admission of a concatenation is admission of its parts one after the other, and so is what the
endpoint makes of it, because synchronizing a slot twice is synchronizing it once.  The laws of a
`PostQueue` say what makes a batch the sequence of its requests.
-/

namespace Rocev2.Rc

open Rocev2.Core Rocev2.Memory

variable {QPS MRS SQ RQ CQ IDX : ℕ}

/-! ## Synchronizing twice -/

namespace RcEndpoint

variable {ep ep' ep'' : RcEndpoint QPS MRS SQ RQ CQ IDX} {index : Fin QPS}
  {slot : RcQpSlot MRS SQ RQ CQ}

/-- The same endpoint, up to the history of the schedulers. -/
def SameState (ep ep' : RcEndpoint QPS MRS SQ RQ CQ IDX) : Prop :=
  ep' = { ep with activity := ep'.activity }

theorem SameState.refl (ep : RcEndpoint QPS MRS SQ RQ CQ IDX) : SameState ep ep := rfl

theorem SameState.trans (h : SameState ep ep') (h' : SameState ep' ep'') : SameState ep ep'' := by
  rw [SameState, h', h]

theorem qps_load (h : ep.qps index = some slot) (memory : MemoryRegistry MRS)
    (qp : QpTransport MRS SQ RQ CQ) :
    (ep.load index memory qp).qps index = some { slot with toQpTransport := qp } := by
  rw [load, h]
  exact Function.update_self ..

theorem load_load (h : ep.qps index = some slot) (memory memory' : MemoryRegistry MRS)
    (qp qp' : QpTransport MRS SQ RQ CQ) :
    (ep.load index memory qp).load index memory' qp' = ep.load index memory' qp' := by
  rw [load_of_some (qps_load h memory qp), load_of_some h, load_of_some h]
  simp only [setSlot, Function.update_idem]

theorem Reachable.timers_lt (h : ep.Reachable) : ep.timerScheduler.len < 2 ^ 32 - 1 :=
  (h.here fun _ ↦ True).tabled.len_lt

/-- What synchronization reads of a transport state. -/
structure SameDemand (qp qp' : QpTransport MRS SQ RQ CQ) : Prop where
  requester : qp'.requesterIsRunnable = qp.requesterIsRunnable
  responder : qp'.responderIsRunnable = qp.responderIsRunnable
  deadline : qp'.timerDeadline = qp.timerDeadline

theorem synchronizeQp_load (h : ep.qps index = some slot)
    {qp : QpTransport MRS SQ RQ CQ} (hdemand : SameDemand slot.toQpTransport qp)
    (memory : MemoryRegistry MRS) :
    (ep.synchronizeQp index).load index memory qp =
      (ep.load index memory qp).synchronizeQp index := by
  rw [synchronizeQp_of_some h, synchronizeQp_of_some (qps_load h memory qp)]
  unfold load synchronizedSlot synchronizeTimer
  dsimp only
  rw [hdemand.requester, hdemand.responder, hdemand.deadline]
  simp only [h, Option.map_some, Function.update_self, Function.update_idem]

theorem reschedule_idem (queue : ReadyQueue QPS) (index : Fin QPS) (runnable : Bool) :
    (if runnable then (if runnable then queue.schedule index else queue.cancel index).schedule index
      else (if runnable then queue.schedule index else queue.cancel index).cancel index) =
      if runnable then queue.schedule index else queue.cancel index := by
  cases runnable with
  | true => exact queue.schedule_schedule index
  | false =>
    refine ReadyQueue.ext (List.erase_of_not_mem fun hmem ↦ ?_)
    exact (ReadyQueue.mem_cancel.mp hmem).1 rfl

theorem synchronizeTimer_idem {timers : TimerScheduler QPS} {slot' : RcQpSlot MRS SQ RQ CQ}
    (hlen : timers.len < 2 ^ 32 - 1) (hdeadline : slot'.timerDeadline = slot.timerDeadline)
    (hgeneration : slot'.generation = slot.generation)
    (hsequence : slot'.timerSequence = (synchronizeTimer timers index slot).2) :
    synchronizeTimer (synchronizeTimer timers index slot).1 index slot' =
      synchronizeTimer timers index slot := by
  unfold synchronizeTimer at hsequence ⊢
  by_cases hindex : index.val < 2 ^ 32
  · simp only [if_pos hindex] at hsequence ⊢
    rw [hdeadline, hgeneration]
    revert hsequence
    cases slot.timerDeadline with
    | none =>
      by_cases harmed : (timers.get index).isSome = true
      · simp [harmed]
      · simp [harmed]
    | some deadline =>
      dsimp only
      split
      · rename_i hcurrent
        intro hsequence
        dsimp only at hsequence ⊢
        rw [hsequence, if_pos hcurrent]
      · intro hsequence
        dsimp only at hsequence ⊢
        rw [TimerScheduler.get_schedule_self hlen, if_pos (by simp [hsequence]), hsequence]
  · simp only [if_neg hindex] at hsequence ⊢
    rw [hsequence]

/-- **Synchronizing a slot twice is synchronizing it once.** -/
theorem synchronizeQp_idem (h : ep.qps index = some slot)
    (hlen : ep.timerScheduler.len < 2 ^ 32 - 1) :
    SameState ((ep.synchronizeQp index).synchronizeQp index) (ep.synchronizeQp index) := by
  have hself : (ep.synchronizeQp index).qps index = some (ep.synchronizedSlot index slot) := by
    rw [synchronizeQp_of_some h]
    exact Function.update_self ..
  have hrequester : (if (ep.synchronizedSlot index slot).requesterIsRunnable then
      (ep.synchronizeQp index).requesterReady.schedule index
      else (ep.synchronizeQp index).requesterReady.cancel index) =
      (ep.synchronizeQp index).requesterReady := by
    rw [synchronizeQp_of_some h]
    exact reschedule_idem ep.requesterReady index slot.requesterIsRunnable
  have hresponder : (if (ep.synchronizedSlot index slot).responderIsRunnable then
      (ep.synchronizeQp index).responderReady.schedule index
      else (ep.synchronizeQp index).responderReady.cancel index) =
      (ep.synchronizeQp index).responderReady := by
    rw [synchronizeQp_of_some h]
    exact reschedule_idem ep.responderReady index slot.responderIsRunnable
  have htimer : synchronizeTimer (ep.synchronizeQp index).timerScheduler index
      (ep.synchronizedSlot index slot) = ((ep.synchronizeQp index).timerScheduler,
        (ep.synchronizedSlot index slot).timerSequence) := by
    rw [synchronizeQp_of_some h]
    exact synchronizeTimer_idem hlen rfl rfl rfl
  have hslot : (ep.synchronizeQp index).synchronizedSlot index (ep.synchronizedSlot index slot) =
      ep.synchronizedSlot index slot := by
    rw [synchronizedSlot, hrequester, hresponder, htimer]
    rw [synchronizeQp_of_some h]
    rfl
  have hqps : Function.update (ep.synchronizeQp index).qps index
      (some (ep.synchronizedSlot index slot)) = (ep.synchronizeQp index).qps := by
    rw [← hself, Function.update_eq_self]
  rw [SameState, synchronizeQp_of_some hself, hrequester, hresponder, htimer, hslot, hqps]

end RcEndpoint

/-! ## Lawful queues -/

namespace PostQueue

variable {α : Type} {queue : PostQueue α QPS MRS SQ RQ CQ IDX}
  {memory memory' : MemoryRegistry MRS} {qp : QpTransport MRS SQ RQ CQ} {works works' : List α}
  {leases : List (RegionLease MRS)} {ep ep' ep'' : RcEndpoint QPS MRS SQ RQ CQ IDX}
  {handle : QpHandle} {index : Fin QPS} {slot : RcQpSlot MRS SQ RQ CQ}

/-- The laws that make a batch the sequence of its requests. -/
structure Lawful (queue : PostQueue α QPS MRS SQ RQ CQ IDX) : Prop where
  /-- The validation reads the regions only. -/
  check_congr {memory memory' : MemoryRegistry MRS} (hsame : SameRegions memory memory') (mtu : ℕ)
    (work : α) : queue.check memory' mtu work = .ok () ↔ queue.check memory mtu work = .ok ()
  /-- Putting requests into the ring keeps the state and the configuration. -/
  machine_put (qp : QpTransport MRS SQ RQ CQ) (works : List α)
    (leases : List (RegionLease MRS)) : (queue.put qp works leases).machine = qp.machine
  /-- Putting requests into the ring reserves their completions. -/
  reserved_put (qp : QpTransport MRS SQ RQ CQ) (works : List α)
    (leases : List (RegionLease MRS)) :
    (queue.put qp works leases).completionQueue = qp.completionQueue ∧
      (queue.put qp works leases).completionReservations =
        qp.completionReservations + works.length
  /-- Putting requests into the ring takes its room. -/
  room_put {qp : QpTransport MRS SQ RQ CQ} {works : List α} {leases : List (RegionLease MRS)}
    (hlength : leases.length = works.length) (hroom : works.length ≤ queue.room qp) :
    queue.room (queue.put qp works leases) + works.length = queue.room qp
  /-- Requests are put one list after the other. -/
  put_put (qp : QpTransport MRS SQ RQ CQ) {works : List α} (works' : List α)
    {leases : List (RegionLease MRS)} (leases' : List (RegionLease MRS))
    (hlength : leases.length = works.length) :
    queue.put (queue.put qp works leases) works' leases' =
      queue.put qp (works ++ works') (leases ++ leases')
  /-- Finishing touches neither the registry nor the transport state. -/
  frame_finish {ep : RcEndpoint QPS MRS SQ RQ CQ IDX} {index : Fin QPS}
    {slot : RcQpSlot MRS SQ RQ CQ} (hslot : ep.qps index = some slot) (count : ℕ) :
    (queue.finish ep index count).memory = ep.memory ∧
      ∃ slot', (queue.finish ep index count).qps index = some slot' ∧
        slot'.toQpTransport = slot.toQpTransport ∧ slot'.generation = slot.generation
  /-- Finishing after each part is finishing once. -/
  finish_finish {ep : RcEndpoint QPS MRS SQ RQ CQ IDX} {index : Fin QPS}
    {slot : RcQpSlot MRS SQ RQ CQ} {works works' : List α} {leases leases' : List (RegionLease MRS)}
    (hslot : ep.qps index = some slot) (hlen : ep.timerScheduler.len < 2 ^ 32 - 1)
    (hne : works ≠ []) (hfirst : leases.length = works.length)
    (hlength : (leases ++ leases').length = (works ++ works').length)
    (hroom : (works ++ works').length ≤ queue.room slot.toQpTransport)
    (memory memory' : MemoryRegistry MRS) :
    RcEndpoint.SameState
      (queue.finish ((queue.finish (ep.load index memory
        (queue.put slot.toQpTransport works leases)) index works.length).load index memory'
          (queue.put slot.toQpTransport (works ++ works') (leases ++ leases'))) index works'.length)
      (queue.finish (ep.load index memory'
        (queue.put slot.toQpTransport (works ++ works') (leases ++ leases'))) index
          (works ++ works').length)

/-- **Requests are admitted one list after the other.** -/
theorem Lawful.admits_append (hlaws : queue.Lawful) :
    queue.Admits memory qp (works ++ works') leases memory' ↔
      ∃ first second memory₁, leases = first ++ second ∧
        queue.Admits memory qp works first memory₁ ∧
        queue.Admits memory₁ (queue.put qp works first) works' second memory' := by
  constructor
  · intro h
    have hretains := h.retains
    rw [List.map_append] at hretains
    obtain ⟨first, second, memory₁, rfl, hfirst, hsecond⟩ := hretains.split
    have hlength : first.length = works.length := by rw [hfirst.length_eq, List.length_map]
    obtain ⟨hqueue, hreserved⟩ := hlaws.reserved_put qp works first
    have hcompletions := h.completions
    have hroom := h.room
    rw [List.length_append] at hcompletions hroom
    have htaken := hlaws.room_put hlength (Nat.le_trans (Nat.le_add_right _ _) hroom)
    refine ⟨first, second, memory₁, rfl, ⟨h.ready, by omega, by omega, ?_, hfirst⟩,
      ⟨?_, by omega, ?_, ?_, hsecond⟩⟩
    · exact fun work hmem ↦ h.valid work (List.mem_append_left _ hmem)
    · rw [hlaws.machine_put]
      exact h.ready
    · rw [hqueue, hreserved]
      omega
    · intro work hmem
      rw [QpTransport.mtu, hlaws.machine_put, hlaws.check_congr hfirst.sameRegions]
      exact h.valid work (List.mem_append_right _ hmem)
  · rintro ⟨first, second, memory₁, rfl, hfirst, hsecond⟩
    obtain ⟨hqueue, hreserved⟩ := hlaws.reserved_put qp works first
    have hcompletions := hsecond.completions
    rw [hqueue, hreserved] at hcompletions
    have hroom := hsecond.room
    have htaken := hlaws.room_put hfirst.length_eq hfirst.room
    refine ⟨hfirst.ready, ?_, ?_, ?_, ?_⟩
    · rw [List.length_append]
      omega
    · rw [List.length_append]
      omega
    · intro work hmem
      rcases List.mem_append.mp hmem with hmem | hmem
      · exact hfirst.valid work hmem
      · have hvalid := hsecond.valid work hmem
        rwa [QpTransport.mtu, hlaws.machine_put,
          hlaws.check_congr hfirst.retains.sameRegions] at hvalid
    · rw [List.map_append]
      exact hfirst.retains.append hsecond.retains

theorem Lawful.qpIndex_finish (hlaws : queue.Lawful)
    (hlive : ep.qpIndex handle = some (index, slot)) (memory : MemoryRegistry MRS)
    (qp : QpTransport MRS SQ RQ CQ) (count : ℕ) :
    (queue.finish (ep.load index memory qp) index count).memory = memory ∧
      ∃ slot', (queue.finish (ep.load index memory qp) index count).qpIndex handle =
        some (index, slot') ∧ slot'.toQpTransport = qp := by
  obtain ⟨hslot, hindex, hgeneration⟩ := QpHandle.find_eq_some.mp hlive
  obtain ⟨hmemory, slot', hslot', hqp, hsame⟩ :=
    hlaws.frame_finish (RcEndpoint.qps_load hslot memory qp) count
  exact ⟨hmemory, slot', QpHandle.find_eq_some.mpr
    ⟨hslot', hindex, hsame.trans hgeneration⟩, hqp⟩

/-- **Parts that are posted one after the other are posted as a whole.** -/
theorem Posts.append (hlaws : queue.Lawful) (hlen : ep.timerScheduler.len < 2 ^ 32 - 1)
    (hne : works ≠ []) (h : queue.Posts ep handle works ep')
    (h' : queue.Posts ep' handle works' ep'') :
    ∃ whole, queue.Posts ep handle (works ++ works') whole ∧ RcEndpoint.SameState ep'' whole := by
  obtain ⟨index, slot, first, memory₁, hlive, hfirst, rfl⟩ := h
  obtain ⟨hmemory, slot₁, hlive₁, hqp⟩ := hlaws.qpIndex_finish hlive memory₁
    (queue.put slot.toQpTransport works first) works.length
  obtain ⟨index', slot', second, memory', hlive', hsecond, rfl⟩ := h'
  cases hlive₁.symm.trans hlive'
  rw [hmemory, hqp] at hsecond
  obtain ⟨hslot, -, -⟩ := QpHandle.find_eq_some.mp hlive
  have hadmits := hlaws.admits_append.mpr ⟨first, second, memory₁, rfl, hfirst, hsecond⟩
  refine ⟨_, ⟨index, slot, first ++ second, memory', hlive, hadmits, rfl⟩, ?_⟩
  rw [hqp, hlaws.put_put _ _ _ hfirst.length_eq]
  exact hlaws.finish_finish hslot hlen hne hfirst.length_eq hadmits.length_eq hadmits.room _ _

/-- **A posted concatenation is posted part by part.** -/
theorem Posts.split (hlaws : queue.Lawful) (hlen : ep.timerScheduler.len < 2 ^ 32 - 1)
    (hne : works ≠ []) (h : queue.Posts ep handle (works ++ works') ep'') :
    ∃ ep' last, queue.Posts ep handle works ep' ∧ queue.Posts ep' handle works' last ∧
      RcEndpoint.SameState last ep'' := by
  obtain ⟨index, slot, leases, memory', hlive, hadmits, rfl⟩ := h
  obtain ⟨first, second, memory₁, rfl, hfirst, hsecond⟩ := hlaws.admits_append.mp hadmits
  obtain ⟨hmemory, slot₁, hlive₁, hqp⟩ := hlaws.qpIndex_finish hlive memory₁
    (queue.put slot.toQpTransport works first) works.length
  obtain ⟨hslot, -, -⟩ := QpHandle.find_eq_some.mp hlive
  refine ⟨_, _, ⟨index, slot, first, memory₁, hlive, hfirst, rfl⟩,
    ⟨index, slot₁, second, memory', hlive₁, ?_, rfl⟩, ?_⟩
  · rwa [hmemory, hqp]
  · rw [hqp, hlaws.put_put _ _ _ hfirst.length_eq]
    exact hlaws.finish_finish hslot hlen hne hfirst.length_eq hadmits.length_eq hadmits.room _ _

end PostQueue

/-! ## One by one -/

/-- Post the requests of a list one by one, until one is refused. -/
def postOneByOne {α : Type}
    (post : RcEndpoint QPS MRS SQ RQ CQ IDX → α →
      RcEndpoint QPS MRS SQ RQ CQ IDX × Except ApiError Unit) :
    RcEndpoint QPS MRS SQ RQ CQ IDX → List α →
      RcEndpoint QPS MRS SQ RQ CQ IDX × Except ApiError Unit
  | ep, [] => (ep, .ok ())
  | ep, work :: works =>
    match post ep work with
    | (ep, .ok ()) => postOneByOne post ep works
    | (ep, .error e) => (ep, .error e)

section OneByOne

variable {α : Type} {queue : PostQueue α QPS MRS SQ RQ CQ IDX} {handle : QpHandle}
  {post : RcEndpoint QPS MRS SQ RQ CQ IDX → α →
    RcEndpoint QPS MRS SQ RQ CQ IDX × Except ApiError Unit}

/-- **Requests that are accepted one by one are accepted as a batch**, with the same result. -/
theorem posts_of_oneByOne (hlaws : queue.Lawful)
    (hpost : ∀ ep work ep', post ep work = (ep', .ok ()) ↔ queue.Posts ep handle [work] ep')
    (hreachable : ∀ ep work, ep.Reachable → (post ep work).1.Reachable) {works : List α}
    (hne : works ≠ []) {ep ep' : RcEndpoint QPS MRS SQ RQ CQ IDX} (h : ep.Reachable)
    (hall : postOneByOne post ep works = (ep', .ok ())) :
    ∃ whole, queue.Posts ep handle works whole ∧ RcEndpoint.SameState ep' whole := by
  induction works generalizing ep with
  | nil => exact absurd rfl hne
  | cons work works ih =>
    unfold postOneByOne at hall
    split at hall
    · rename_i ep₁ hone
      have hposts := (hpost ep work ep₁).mp hone
      have hreachable₁ : ep₁.Reachable :=
        (congrArg (fun result ↦ result.1.Reachable) hone).mp (hreachable ep work h)
      cases works with
      | nil =>
        cases hall
        exact ⟨ep', hposts, .refl _⟩
      | cons next works =>
        obtain ⟨rest, hrest, hsame⟩ := ih (List.cons_ne_nil _ _) hreachable₁ hall
        obtain ⟨whole, hwhole, hsame'⟩ :=
          hposts.append hlaws h.timers_lt (List.cons_ne_nil _ _) hrest
        exact ⟨whole, hwhole, hsame.trans hsame'⟩
    · cases hall

/-- **Requests that are accepted as a batch are accepted one by one**, with the same result. -/
theorem oneByOne_of_posts (hlaws : queue.Lawful)
    (hpost : ∀ ep work ep', post ep work = (ep', .ok ()) ↔ queue.Posts ep handle [work] ep')
    (hreachable : ∀ ep work, ep.Reachable → (post ep work).1.Reachable) {works : List α}
    (hne : works ≠ []) {ep whole : RcEndpoint QPS MRS SQ RQ CQ IDX} (h : ep.Reachable)
    (hposts : queue.Posts ep handle works whole) :
    ∃ ep', postOneByOne post ep works = (ep', .ok ()) ∧ RcEndpoint.SameState ep' whole := by
  induction works generalizing ep whole with
  | nil => exact absurd rfl hne
  | cons work works ih =>
    unfold postOneByOne
    cases works with
    | nil =>
      rw [(hpost ep work whole).mpr hposts]
      exact ⟨whole, rfl, .refl _⟩
    | cons next works =>
      obtain ⟨ep₁, last, hone, hrest, hsame⟩ :=
        PostQueue.Posts.split hlaws h.timers_lt (List.cons_ne_nil work []) hposts
      have hone' := (hpost ep work ep₁).mpr hone
      have hreachable₁ : ep₁.Reachable :=
        (congrArg (fun result ↦ result.1.Reachable) hone').mp (hreachable ep work h)
      obtain ⟨ep', hall, hsame'⟩ := ih (List.cons_ne_nil _ _) hreachable₁ hrest
      rw [hone']
      exact ⟨ep', hall, hsame'.trans hsame⟩

end OneByOne

end Rocev2.Rc
