import Mathlib.Data.List.Basic
import Mathlib.Data.List.Nodup

/-!
# Round-robin queues

A queue of the clients that want a turn.  A client joins at the tail when it becomes ready and
leaves when it becomes idle.  The head is *taken*; it is then in flight until it is *served* or
*returned* without being served.  Several clients may be in flight, and they are served in the
order in which they were taken.

`served_between` is the fairness of such a queue, read off the log of what happened: between two
turns of one client, every client that was waiting when the first turn was taken has been served,
unless it became idle or was returned in between.  A returned client loses its place; this is the
only way in which a client that stays ready can be passed over.
-/

namespace Rocev2.Lib.RoundRobin

universe u

variable {α : Type u}

/-- An entry of the log. -/
inductive Event (α : Type u) where
  /-- The client joins the queue, unless it is waiting already. -/
  | ready (a : α)
  /-- The client leaves the queue. -/
  | idle (a : α)
  /-- The head of the queue is taken; `waiting` is what is left. -/
  | taken (a : α) (waiting : List α)
  /-- The oldest client in flight is served. -/
  | served (a : α)
  /-- A client in flight is returned without being served. -/
  | returned (a : α)
deriving DecidableEq

/-- The event ends or begins a turn of a client. -/
def Event.IsTurn (a : α) : Event α → Prop
  | .taken b _ | .served b | .returned b => b = a
  | .ready _ | .idle _ => False

/-- The clients in flight and the clients that wait, oldest first. -/
structure State (α : Type u) where
  flight : List α
  queue : List α

/-! ## Who comes first -/

def Ahead (j i : α) (order : List α) : Prop :=
  ∃ before after, order = before ++ j :: after ∧ i ∉ before

section Ahead

variable {i j : α} {order order' : List α} {p : α → Bool}

theorem ahead_append :
    Ahead j i (order ++ order') ↔ Ahead j i order ∨ i ∉ order ∧ Ahead j i order' := by
  constructor
  · rintro ⟨before, after, heq, hbefore⟩
    rcases List.append_eq_append_iff.mp heq with ⟨middle, hb, ho⟩ | ⟨middle, hb, ho⟩
    · subst hb
      rw [List.mem_append, not_or] at hbefore
      exact .inr ⟨hbefore.1, middle, after, ho, hbefore.2⟩
    · cases middle with
      | nil =>
        rw [List.append_nil] at hb
        rw [hb]
        exact .inr ⟨hbefore, [], after, ho.symm, List.not_mem_nil⟩
      | cons head middle =>
        rw [List.cons_append] at ho
        obtain ⟨rfl, rfl⟩ := List.cons.inj ho
        exact .inl ⟨before, middle, hb, hbefore⟩
  · rintro (⟨before, after, rfl, hbefore⟩ | ⟨hi, before, after, rfl, hbefore⟩)
    · exact ⟨before, after ++ order', by simp, hbefore⟩
    · exact ⟨order ++ before, after, by simp, by simp [hi, hbefore]⟩

theorem Ahead.filter (hp : p j = true) (h : Ahead j i order) :
    Ahead j i (order.filter p) := by
  obtain ⟨before, after, rfl, hbefore⟩ := h
  refine ⟨before.filter p, after.filter p, ?_, fun hmem ↦ hbefore (List.mem_of_mem_filter hmem)⟩
  rw [List.filter_append, List.filter_cons_of_pos hp]

theorem Ahead.filter_left (hp : p j = true) (h : Ahead j i (order ++ order')) :
    Ahead j i (order.filter p ++ order') := by
  rcases ahead_append.mp h with hfront | ⟨hi, hback⟩
  · exact ahead_append.mpr (.inl (hfront.filter hp))
  · exact ahead_append.mpr (.inr ⟨fun hmem ↦ hi (List.mem_of_mem_filter hmem), hback⟩)

theorem Ahead.filter_right (hp : p j = true) (h : Ahead j i (order ++ order')) :
    Ahead j i (order ++ order'.filter p) := by
  rcases ahead_append.mp h with hfront | ⟨hi, hback⟩
  · exact ahead_append.mpr (.inl hfront)
  · exact ahead_append.mpr (.inr ⟨hi, hback.filter hp⟩)

theorem ahead_of_mem (hj : j ∈ order) (hi : i ∉ order) : Ahead j i order := by
  obtain ⟨before, after, rfl⟩ := List.append_of_mem hj
  exact ⟨before, after, rfl, fun hmem ↦ hi (List.mem_append_left _ hmem)⟩

theorem Ahead.tail {head : α} (h : Ahead j i (head :: order)) (hne : head ≠ j) :
    head ≠ i ∧ Ahead j i order := by
  obtain ⟨before, after, heq, hbefore⟩ := h
  cases before with
  | nil => exact absurd (List.cons.inj heq).1 hne
  | cons first before =>
    obtain ⟨rfl, rfl⟩ := List.cons.inj heq
    rw [List.mem_cons, not_or] at hbefore
    exact ⟨Ne.symm hbefore.1, before, after, rfl, hbefore.2⟩

end Ahead

/-! ## The log -/

variable [DecidableEq α]

/-- What an event does to the queue. -/
inductive Step : State α → Event α → State α → Prop
  | ready {flight queue : List α} (a : α) :
      Step ⟨flight, queue⟩ (.ready a) ⟨flight, if a ∈ queue then queue else queue ++ [a]⟩
  | idle {flight queue : List α} (a : α) :
      Step ⟨flight, queue⟩ (.idle a) ⟨flight, queue.filter (· ≠ a)⟩
  | taken {flight queue : List α} {a : α} (hnew : a ∉ flight) :
      Step ⟨flight, a :: queue⟩ (.taken a queue) ⟨flight ++ [a], queue⟩
  | served {flight queue : List α} {a : α} :
      Step ⟨a :: flight, queue⟩ (.served a) ⟨flight, queue⟩
  | returned {flight queue : List α} (a : α) :
      Step ⟨flight, queue⟩ (.returned a) ⟨flight.filter (· ≠ a), queue⟩

def Steps : State α → List (Event α) → State α → Prop
  | s, [], t => s = t
  | s, e :: log, u => ∃ t, Step s e t ∧ Steps t log u

/-- Nobody waits and nobody is in flight. -/
def State.empty : State α := ⟨[], []⟩

variable {s : State α} {log : List (Event α)}

variable {u : State α}

theorem steps_append {log' : List (Event α)} :
    Steps s (log ++ log') u ↔ ∃ t, Steps s log t ∧ Steps t log' u := by
  induction log generalizing s with
  | nil => exact ⟨fun h ↦ ⟨s, rfl, h⟩, fun ⟨_, hs, h⟩ ↦ hs ▸ h⟩
  | cons e log ih =>
    constructor
    · rintro ⟨t, hstep, hsteps⟩
      obtain ⟨m, hfirst, hsecond⟩ := ih.mp hsteps
      exact ⟨m, ⟨t, hstep, hfirst⟩, hsecond⟩
    · rintro ⟨m, ⟨t, hstep, hfirst⟩, hsecond⟩
      exact ⟨t, hstep, ih.mpr ⟨m, hfirst, hsecond⟩⟩

theorem Steps.snoc {t : State α} {e : Event α} (h : Steps s log t) (hstep : Step t e u) :
    Steps s (log ++ [e]) u :=
  steps_append.mpr ⟨t, h, u, hstep, rfl⟩

theorem Steps.invariant {I : State α → Prop}
    (hkeep : ∀ {s t : State α} {e : Event α}, e ∈ log → Step s e t → I s → I t) (h : Steps s log u)
    (hs : I s) : I u := by
  induction log generalizing s with
  | nil => exact h ▸ hs
  | cons e log ih =>
    obtain ⟨t, hstep, hsteps⟩ := h
    exact ih (fun hmem ↦ hkeep (List.mem_cons_of_mem _ hmem)) hsteps
      (hkeep List.mem_cons_self hstep hs)

theorem Steps.nodup_queue (h : Steps State.empty log s) :
    s.queue.Nodup := by
  refine h.invariant (I := fun s ↦ s.queue.Nodup) (fun _ hstep hnodup ↦ ?_) List.nodup_nil
  cases hstep with
  | ready a =>
    dsimp only
    split
    · exact hnodup
    · rename_i hmem
      exact List.nodup_append.mpr ⟨hnodup, List.nodup_singleton _, fun b hb c hc heq ↦
        hmem (List.mem_singleton.mp hc ▸ heq ▸ hb)⟩
  | idle a => exact hnodup.filter _
  | taken => exact (List.nodup_cons.mp hnodup).2
  | served | returned => exact hnodup

/-! ## Fairness -/

theorem Ahead.ready {i j : α} {order queue : List α} (a : α) (h : Ahead j i (order ++ queue)) :
    Ahead j i (order ++ if a ∈ queue then queue else queue ++ [a]) := by
  split
  · exact h
  · rw [← List.append_assoc]
    exact ahead_append.mpr (.inl h)

section Fairness

variable {i j : α} {s t : State α} {e : Event α}

def Follows (j i : α) (s : State α) : Prop :=
  ∃ older younger, s.flight = older ++ i :: younger ∧ i ∉ older ∧ Ahead j i (younger ++ s.queue)

/-- While the turn of `i` lasts, `j` stays ahead of the next one. -/
theorem Step.follows (h : Step s e t) (hturn : ¬e.IsTurn i) (hidle : e ≠ .idle j)
    (hreturned : e ≠ .returned j) (hs : Follows j i s) : Follows j i t := by
  obtain ⟨older, younger, hflight, holder, hahead⟩ := hs
  cases h with
  | ready a => exact ⟨older, younger, hflight, holder, hahead.ready a⟩
  | idle a =>
    refine ⟨older, younger, hflight, holder, hahead.filter_right ?_⟩
    exact decide_eq_true fun heq ↦ hidle (heq ▸ rfl)
  | @taken flight queue a hnew =>
    dsimp only at hflight hahead
    subst hflight
    refine ⟨older, younger ++ [a], by simp, holder, ?_⟩
    rw [List.append_assoc]
    exact hahead
  | @served flight queue a =>
    dsimp only at hflight hahead
    cases older with
    | nil => exact absurd (List.cons.inj hflight).1 hturn
    | cons first older =>
      obtain ⟨rfl, rfl⟩ := List.cons.inj hflight
      exact ⟨older, younger, rfl, fun hmem ↦ holder (List.mem_cons_of_mem _ hmem), hahead⟩
  | returned a =>
    dsimp only at hflight hahead
    subst hflight
    have hkeep : decide (i ≠ a) = true := decide_eq_true fun heq ↦ hturn heq.symm
    refine ⟨older.filter (· ≠ a), younger.filter (· ≠ a), ?_, ?_, ?_⟩
    · exact (List.filter_append ..).trans (congrArg _ (List.filter_cons_of_pos hkeep))
    · exact fun hmem ↦ holder (List.mem_of_mem_filter hmem)
    · exact hahead.filter_left (decide_eq_true fun heq ↦ hreturned (heq ▸ rfl))

theorem Step.ahead_of_served (h : Step s (.served i) t) (hs : Follows j i s) :
    Ahead j i (t.flight ++ t.queue) := by
  obtain ⟨older, younger, hflight, holder, hahead⟩ := hs
  cases h with
  | served =>
    dsimp only at hflight hahead ⊢
    cases older with
    | nil => exact (List.cons.inj hflight).2 ▸ hahead
    | cons first older =>
      exact absurd ((List.cons.inj hflight).1 ▸ List.mem_cons_self) holder

theorem Step.ahead (h : Step s e t) (hidle : e ≠ .idle j) (hreturned : e ≠ .returned j)
    (hserved : e ≠ .served j) (hs : Ahead j i (s.flight ++ s.queue)) :
    e ≠ .served i ∧ Ahead j i (t.flight ++ t.queue) := by
  cases h with
  | ready a => exact ⟨nofun, hs.ready a⟩
  | idle a => exact ⟨nofun, hs.filter_right (decide_eq_true fun heq ↦ hidle (heq ▸ rfl))⟩
  | taken =>
    refine ⟨nofun, ?_⟩
    rw [List.append_assoc]
    exact hs
  | @served flight queue a =>
    rw [List.cons_append] at hs
    obtain ⟨hne, htail⟩ := hs.tail fun heq ↦ hserved (heq ▸ rfl)
    exact ⟨fun heq ↦ hne (Event.served.inj heq), htail⟩
  | returned a =>
    exact ⟨nofun, hs.filter_left (decide_eq_true fun heq ↦ hreturned (heq ▸ rfl))⟩

/-- **Fairness.**  Between two turns of `i`, a client `j` that was waiting when the first one was
taken is served, unless it became idle or was returned meanwhile. -/
theorem served_between {pre turn between post : List (Event α)} {waiting : List α}
    (h : Steps State.empty (pre ++ .taken i waiting ::
      (turn ++ .served i :: (between ++ .served i :: post))) s)
    (hne : j ≠ i) (hwaiting : j ∈ waiting) (hturn : ∀ e ∈ turn, ¬e.IsTurn i)
    (hstays : ∀ e ∈ turn ++ between, e ≠ .idle j ∧ e ≠ .returned j) :
    .served j ∈ between := by
  obtain ⟨s₀, hpre, s₁, htaken, h⟩ := steps_append.mp h
  obtain ⟨s₂, hturns, s₃, hserved, h⟩ := steps_append.mp h
  obtain ⟨s₄, hbetween, s₅, hserved', -⟩ := steps_append.mp h
  have hfollows : Follows j i s₁ := by
    have hnodup := hpre.nodup_queue
    cases htaken with
    | taken hnew =>
      refine ⟨_, [], rfl, hnew, ahead_of_mem hwaiting ?_⟩
      exact (List.nodup_cons.mp hnodup).1
  have hfollows' : Follows j i s₂ := by
    refine hturns.invariant (fun hmem hstep ↦ ?_) hfollows
    obtain ⟨hidle, hreturned⟩ := hstays _ (List.mem_append_left _ hmem)
    exact hstep.follows (hturn _ hmem) hidle hreturned
  by_contra hnone
  have hahead : Ahead j i (s₄.flight ++ s₄.queue) := by
    refine hbetween.invariant (I := fun s ↦ Ahead j i (s.flight ++ s.queue))
      (fun hmem hstep hs ↦ ?_) (hserved.ahead_of_served hfollows')
    obtain ⟨hidle, hreturned⟩ := hstays _ (List.mem_append_right _ hmem)
    exact (hstep.ahead hidle hreturned (fun heq ↦ hnone (heq ▸ hmem)) hs).2
  exact (hserved'.ahead nofun nofun (fun heq ↦ hne (Event.served.inj heq).symm) hahead).1 rfl

/-- A log is fair: between two turns of `i`, every client that was waiting when the first one was
taken and has not become idle since is served. -/
def Fair (log : List (Event α)) : Prop :=
  ∀ (pre turn between post : List (Event α)) (i j : α) (waiting : List α),
    log = pre ++ .taken i waiting :: (turn ++ .served i :: (between ++ .served i :: post)) →
    (∀ e ∈ turn, ¬e.IsTurn i) → j ≠ i → j ∈ waiting → (∀ e ∈ turn ++ between, e ≠ .idle j) →
    .served j ∈ between

/-- **A queue from which nobody is returned is fair.** -/
theorem Steps.fair (h : Steps State.empty log s) (hreturned : ∀ a, .returned a ∉ log) :
    Fair log := by
  rintro pre turn between post i j waiting rfl hturn hne hwaiting hidle
  refine served_between h hne hwaiting hturn fun e he ↦ ⟨hidle e he, ?_⟩
  rintro rfl
  refine hreturned j (List.mem_append_right _ (List.mem_cons_of_mem _ ?_))
  rcases List.mem_append.mp he with hmem | hmem
  · exact List.mem_append_left _ hmem
  · exact List.mem_append_right _ (List.mem_cons_of_mem _ (List.mem_append_left _ hmem))

end Fairness

end Rocev2.Lib.RoundRobin
