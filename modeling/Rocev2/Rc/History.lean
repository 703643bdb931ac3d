import Rocev2.Lib.RoundRobin
import Rocev2.Rc.Coherence

/-!
# The histories of the endpoint

The endpoint records what its schedulers do and which packets the backend accepts (`Activity`).
`Logged books ep` says what these records amount to: no memory fault is recorded, each ready queue
is a round-robin queue whose log is the history, and the replies that the backend accepted and the
replies that wait are those that packets caused, in the same order.

The *books* hold what the code keeps in local variables.  In the middle of a call a slot may be
taken from its ready queue and not yet be settled, and a reply may be caused and not yet be queued.
They also list the turns taken so far and the class that is tried first next, so that an assertion
about the books before and after a function says which turns the function has taken.
-/

namespace Rocev2.Rc

open Rocev2.Core Rocev2.Lib

variable {QPS MRS SQ RQ CQ IDX : ℕ}

namespace Activity

/-- The accepted data packet that an entry records. -/
def acceptance : Activity QPS MRS SQ RQ CQ →
    Option (DataTxClass × Fin QPS × QpTransport MRS SQ RQ CQ)
  | .accepted kind index qp => some (kind, index, qp)
  | .ready _ _ | .idle _ _ | .taken _ _ _ _ | .returned _ _ | .faulted _ _ | .replied _ => none

def reply : Activity QPS MRS SQ RQ CQ → Option ControlReply
  | .replied reply => some reply
  | .ready _ _ | .idle _ _ | .taken _ _ _ _ | .returned _ _ | .faulted _ _ | .accepted _ _ _ => none

/-- Whether an entry records a memory fault. -/
def isFault : Activity QPS MRS SQ RQ CQ → Bool
  | .faulted _ _ => true
  | .ready _ _ | .idle _ _ | .taken _ _ _ _ | .returned _ _ | .accepted _ _ _ | .replied _ => false

/-- Whether an entry belongs to the turn of a slot. -/
def isTurn : Activity QPS MRS SQ RQ CQ → Bool
  | .taken _ _ _ _ | .returned _ _ | .faulted _ _ | .accepted _ _ _ => true
  | .ready _ _ | .idle _ _ | .replied _ => false

/-- What an entry says about the ready queue of a class. -/
def turn (kind : DataTxClass) : Activity QPS MRS SQ RQ CQ → Option (RoundRobin.Event (Fin QPS))
  | .ready current index => if current = kind then some (.ready index) else none
  | .idle current index => if current = kind then some (.idle index) else none
  | .taken current index waiting _ =>
    if current = kind then some (.taken index waiting) else none
  | .returned current index | .faulted current index =>
    if current = kind then some (.returned index) else none
  | .accepted current index _ => if current = kind then some (.served index) else none
  | .replied _ => none

section Observed

variable (kind : DataTxClass) (index : Fin QPS) (runnable : Bool)

theorem acceptance_observed :
    (observed kind index runnable : Activity QPS MRS SQ RQ CQ).acceptance = none := by
  cases runnable <;> rfl

theorem reply_observed :
    (observed kind index runnable : Activity QPS MRS SQ RQ CQ).reply = none := by
  cases runnable <;> rfl

theorem isFault_observed :
    (observed kind index runnable : Activity QPS MRS SQ RQ CQ).isFault = false := by
  cases runnable <;> rfl

theorem isTurn_observed :
    (observed kind index runnable : Activity QPS MRS SQ RQ CQ).isTurn = false := by
  cases runnable <;> rfl

theorem turn_observed (current : DataTxClass) :
    (observed current index runnable : Activity QPS MRS SQ RQ CQ).turn kind =
      if current = kind then some (if runnable then .ready index else .idle index) else none := by
  cases runnable <;> rfl

end Observed

end Activity

/-- What the endpoint keeps track of during a call. -/
@[ext]
structure Books (QPS MRS SQ RQ CQ : ℕ) where
  /-- The slots of each class that are taken from their ready queue, oldest first. -/
  flight : DataTxClass → List (Fin QPS)
  /-- The replies that are caused and not queued. -/
  owed : List ControlReply
  /-- The turns so far. -/
  turns : List (Activity QPS MRS SQ RQ CQ)
  /-- The class that is tried first. -/
  next : DataTxClass

namespace Books

/-- Nothing is in flight and nothing is owed. -/
def settled (turns : List (Activity QPS MRS SQ RQ CQ)) (next : DataTxClass) :
    Books QPS MRS SQ RQ CQ :=
  ⟨fun _ ↦ [], [], turns, next⟩

variable (books : Books QPS MRS SQ RQ CQ)

def fly (kind : DataTxClass) (slots : List (Fin QPS))
    (event : Activity QPS MRS SQ RQ CQ) : Books QPS MRS SQ RQ CQ :=
  { books with
    flight := fun current ↦ if current = kind then slots else books.flight current
    turns := books.turns ++ [event] }

/-- A reply may be caused. -/
def owe (reply : Option ControlReply) : Books QPS MRS SQ RQ CQ :=
  { books with owed := books.owed ++ reply.toList }

theorem owe_none : books.owe none = books := by
  rw [owe, Option.toList_none, List.append_nil]

theorem flight_fly (kind : DataTxClass) (slots : List (Fin QPS))
    (event : Activity QPS MRS SQ RQ CQ) : (books.fly kind slots event).flight kind = slots :=
  if_pos rfl

theorem fly_fly_settled (turns : List (Activity QPS MRS SQ RQ CQ)) (next kind : DataTxClass)
    (slots : List (Fin QPS)) (event event' : Activity QPS MRS SQ RQ CQ) :
    ((settled turns next).fly kind slots event).fly kind [] event' =
      settled (turns ++ [event, event']) next := by
  refine Books.ext ?_ rfl ?_ rfl
  · funext current
    by_cases h : current = kind <;> simp [fly, settled, h]
  · simp [fly, settled]

end Books

/-- The histories of the endpoint. -/
structure Logged (books : Books QPS MRS SQ RQ CQ) (ep : RcEndpoint QPS MRS SQ RQ CQ IDX) :
    Prop where
  /-- No memory fault is recorded. -/
  faultless : ∀ event ∈ ep.activity, event.isFault = false
  /-- The history leads to the current ready queues. -/
  traced : ∀ kind, RoundRobin.Steps .empty (ep.activity.filterMap (Activity.turn kind))
    ⟨books.flight kind, (ep.ready kind).slots⟩
  /-- Replies are accepted in the order in which they are caused. -/
  replies : ep.arrivals.filterMap (fun arrival ↦ arrival.reply) =
    ep.activity.filterMap Activity.reply ++ ep.pendingControl.items ++ books.owed
  /-- The turns are those of the books. -/
  turns : ep.activity.filter Activity.isTurn = books.turns
  /-- The class to try first is that of the books. -/
  next : ep.nextDataTxClass = books.next

namespace Logged

variable {books : Books QPS MRS SQ RQ CQ} {ep ep' : RcEndpoint QPS MRS SQ RQ CQ IDX}
  {kind : DataTxClass}

theorem congr (h : Logged books ep) (hactivity : ep'.activity = ep.activity)
    (hready : ∀ kind, ep'.ready kind = ep.ready kind)
    (hpending : ep'.pendingControl = ep.pendingControl) (harrivals : ep'.arrivals = ep.arrivals)
    (hnext : ep'.nextDataTxClass = ep.nextDataTxClass) : Logged books ep' := by
  refine ⟨?_, fun kind ↦ ?_, ?_, ?_, hnext.trans h.next⟩
  · rw [hactivity]
    exact h.faultless
  · rw [hactivity, hready]
    exact h.traced kind
  · rw [hactivity, hpending, harrivals]
    exact h.replies
  · rw [hactivity]
    exact h.turns

theorem arrival_of_pending (h : Logged books ep) {reply : ControlReply}
    (hmem : reply ∈ ep.pendingControl.items) :
    ∃ arrival ∈ ep.arrivals, arrival.reply = some reply := by
  have hcaused : reply ∈ ep.arrivals.filterMap fun arrival ↦ arrival.reply := by
    rw [h.replies]
    exact List.mem_append_left _ (List.mem_append_right _ hmem)
  exact List.mem_filterMap.mp hcaused

/-- An entry of a turn in one class. -/
theorem log (h : Logged books ep) (event : Activity QPS MRS SQ RQ CQ)
    (turn : RoundRobin.Event (Fin QPS)) {slots : List (Fin QPS)} (hfault : event.isFault = false)
    (hreply : event.reply = none) (hisTurn : event.isTurn = true)
    (hturn : event.turn kind = some turn) (hother : ∀ other ≠ kind, event.turn other = none)
    (hactivity : ep'.activity = ep.activity ++ [event])
    (hstep : RoundRobin.Step ⟨books.flight kind, (ep.ready kind).slots⟩ turn
      ⟨slots, (ep'.ready kind).slots⟩)
    (hready : ∀ other ≠ kind, ep'.ready other = ep.ready other)
    (hpending : ep'.pendingControl = ep.pendingControl) (harrivals : ep'.arrivals = ep.arrivals)
    (hnext : ep'.nextDataTxClass = ep.nextDataTxClass) :
    Logged (books.fly kind slots event) ep' := by
  refine ⟨?_, fun current ↦ ?_, ?_, ?_, hnext.trans h.next⟩
  · rw [hactivity]
    intro entry hmem
    rcases List.mem_append.mp hmem with hold | hnew
    · exact h.faultless entry hold
    · rw [List.mem_singleton.mp hnew]
      exact hfault
  · rw [hactivity, List.filterMap_append]
    dsimp only [Books.fly]
    by_cases hcurrent : current = kind
    · subst hcurrent
      rw [List.filterMap_cons_some hturn, if_pos rfl]
      exact (h.traced current).snoc hstep
    · rw [List.filterMap_cons_none (hother current hcurrent), List.filterMap_nil, List.append_nil,
        if_neg hcurrent, hready current hcurrent]
      exact h.traced current
  · rw [hactivity, List.filterMap_append, List.filterMap_cons_none hreply, List.filterMap_nil,
      List.append_nil, hpending, harrivals]
    exact h.replies
  · rw [hactivity, List.filter_append, List.filter_cons_of_pos hisTurn, h.turns]
    rfl

/-- Synchronization records what it does to the ready queues. -/
theorem synchronizeQp (h : Logged books ep) (htabled : ep.Tabled) (index : Fin QPS) :
    Logged books (ep.synchronizeQp index) := by
  obtain ⟨-, -, -, harrivals, hpending, -, hnext, -⟩ := ep.frame_synchronizeQp index
  have hactivity := ep.activity_synchronizeQp index
  refine ⟨?_, fun kind ↦ ?_, ?_, ?_, hnext.trans h.next⟩
  · rw [hactivity]
    intro entry hmem
    rcases List.mem_append.mp hmem with hold | hnew
    · exact h.faultless entry hold
    · rcases List.mem_cons.mp hnew with rfl | hnew
      · exact Activity.isFault_observed ..
      · rw [List.mem_singleton.mp hnew]
        exact Activity.isFault_observed ..
  · have hturns : (ep.synchronizeQp index).activity.filterMap (Activity.turn kind) =
        ep.activity.filterMap (Activity.turn kind) ++
          [if (ep.qps index).any fun slot ↦ slot.isRunnable kind then .ready index
            else .idle index] := by
      rw [hactivity, List.filterMap_append]
      cases kind <;> simp [Activity.turn_observed]
    rw [hturns, ep.ready_synchronizeQp]
    refine (h.traced kind).snoc ?_
    cases hrunnable : (ep.qps index).any fun slot ↦ slot.isRunnable kind with
    | true =>
      obtain ⟨slot, hslot⟩ : ∃ slot, ep.qps index = some slot := by
        cases hslot : ep.qps index with
        | none => simp [hslot] at hrunnable
        | some slot => exact ⟨slot, rfl⟩
      have hbound := htabled.bound index slot hslot
      rw [if_pos rfl, if_pos rfl, ReadyQueue.slots_schedule (by omega)]
      exact .ready index
    | false =>
      rw [if_neg Bool.false_ne_true, if_neg Bool.false_ne_true, ReadyQueue.slots_cancel]
      exact .idle index
  · rw [hactivity, hpending, harrivals]
    simp only [List.filterMap_append, List.filterMap_cons, Activity.reply_observed,
      List.filterMap_nil, List.append_nil]
    exact h.replies
  · rw [hactivity, ← h.turns]
    simp [Activity.isTurn_observed]

end Logged

end Rocev2.Rc
