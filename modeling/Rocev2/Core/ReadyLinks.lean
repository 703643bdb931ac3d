import Rocev2.Core.Containers
import Rocev2.Lib.Calls
import Rocev2.Lib.Chain
import Rocev2.Lib.Loop

/-!
# The links behind a ready queue

`rocev2-core/src/scheduler.rs`: a ready queue has one link for each slot, with the slots before and
behind it, and the first and the last slot of the queue.  The endpoint works with the queue as a
list without repetitions (`ReadyQueue`); here the links are shown to be an implementation of it.

In the links an index is a 32-bit number with one value for no slot; the ends of the queue are
64-bit numbers with a value of their own.  Read without these codes, the links form one doubly
linked chain over the slots of the queue (`Linked`).
-/

namespace Rocev2.Core

open Rocev2.Lib

/-- No slot, as an end of a queue. -/
def noneIndex : ℕ := 2 ^ 64 - 1

def noneLink : ℕ := 2 ^ 32 - 1

/-- The link of a slot. -/
structure ReadyLink where
  previous : ℕ
  next : ℕ
  queued : Bool
deriving DecidableEq, Repr

/-- The link of a slot that is not scheduled. -/
def ReadyLink.empty : ReadyLink := ⟨noneLink, noneLink, false⟩

def decodeLink (link : ℕ) : Option ℕ := if link ≠ noneLink then some link else none

/-- The links of `N` slots, the ends of the queue and the number of scheduled slots. -/
structure ReadyLinks (N : ℕ) where
  links : ℕ → ReadyLink
  head : ℕ
  tail : ℕ
  len : ℕ

namespace ReadyLinks

variable {N : ℕ}

def new : ReadyLinks N := ⟨fun _ ↦ .empty, noneIndex, noneIndex, 0⟩

variable (queue : ReadyLinks N)

def isScheduled (slot : ℕ) : Bool := slot < N && (queue.links slot).queued

def setNext (links : ℕ → ReadyLink) (slot next : ℕ) : ℕ → ReadyLink :=
  Function.update links slot { links slot with next := next }

def setPrevious (links : ℕ → ReadyLink) (slot previous : ℕ) : ℕ → ReadyLink :=
  Function.update links slot { links slot with previous := previous }

/-- Add `slot` to the tail if it is valid and not already scheduled. -/
def schedule (slot : ℕ) : Bool × ReadyLinks N :=
  if 2 ^ 32 ≤ slot then (false, queue)
  else if slot = noneLink then (false, queue)
  else if N ≤ slot then (false, queue)
  else if (queue.links slot).queued then (false, queue)
  else if queue.tail = noneIndex then
    (true,
      { links := Function.update queue.links slot ⟨noneLink, noneLink, true⟩
        head := slot
        tail := slot
        len := queue.len + 1 })
  else if 2 ^ 32 ≤ queue.tail then (false, queue)
  else
    (true,
      { links := setNext (Function.update queue.links slot ⟨queue.tail, noneLink, true⟩)
          queue.tail slot
        head := queue.head
        tail := slot
        len := queue.len + 1 })

/-- The queue without a slot with the given link. -/
def unlink (slot : ℕ) (link : ReadyLink) : ReadyLinks N :=
  let links := match decodeLink link.previous with
    | some previous => setNext queue.links previous link.next
    | none => queue.links
  let head := match decodeLink link.previous with
    | some _ => queue.head
    | none => (decodeLink link.next).getD noneIndex
  let links' := match decodeLink link.next with
    | some next => setPrevious links next link.previous
    | none => links
  let tail := match decodeLink link.next with
    | some _ => queue.tail
    | none => (decodeLink link.previous).getD noneIndex
  { links := Function.update links' slot .empty
    head := head
    tail := tail
    len := queue.len - 1 }

/-- Remove `slot`, preserving the order of all other entries. -/
def cancel (slot : ℕ) : Bool × ReadyLinks N :=
  if N ≤ slot then (false, queue)
  else if (queue.links slot).queued then (true, queue.unlink slot (queue.links slot))
  else (false, queue)

/-- Remove and return the oldest runnable slot. -/
def pop : Option ℕ × ReadyLinks N :=
  if queue.head ≠ noneIndex then (some queue.head, (queue.cancel queue.head).2)
  else (none, queue)

/-- One iteration of the loop that removes every slot. -/
def clearBody : ReadyLinks N ⊕ ReadyLinks N :=
  match queue.pop with
  | (none, queue') => .inl queue'
  | (some _, queue') => .inr queue'

/-- At most `fuel` iterations of the loop. -/
def clearFrom : ℕ → ReadyLinks N → ReadyLinks N
  | 0, queue => queue
  | fuel + 1, queue =>
    match queue.pop with
    | (none, queue') => queue'
    | (some _, queue') => clearFrom fuel queue'

/-- Remove every scheduled slot. -/
def clear : ReadyLinks N := clearFrom queue.len queue

end ReadyLinks

/-! ## The links after an operation -/

theorem decodeLink_of_lt {slot : ℕ} (h : slot < noneLink) : decodeLink slot = some slot :=
  if_pos h.ne

theorem decodeLink_noneLink : decodeLink noneLink = none := if_neg fun h ↦ h rfl

namespace ReadyLinks

variable {N : ℕ} {queue : ReadyLinks N} {l : List ℕ} {slot other : ℕ}

variable (links : ℕ → ReadyLink)

theorem setNext_self (slot next : ℕ) :
    setNext links slot next slot = { links slot with next := next } := Function.update_self ..

theorem setNext_of_ne (next : ℕ) (h : other ≠ slot) :
    setNext links slot next other = links other := Function.update_of_ne h ..

theorem setPrevious_self (slot previous : ℕ) :
    setPrevious links slot previous slot = { links slot with previous := previous } :=
  Function.update_self ..

theorem setPrevious_of_ne (previous : ℕ) (h : other ≠ slot) :
    setPrevious links slot previous other = links other := Function.update_of_ne h ..

theorem links_unlink_self (queue : ReadyLinks N) (slot : ℕ) (link : ReadyLink) :
    (queue.unlink slot link).links slot = .empty := Function.update_self ..

/-- Taking out a slot changes the links of its neighbours. -/
theorem links_unlink (queue : ReadyLinks N) (link : ReadyLink) (h : other ≠ slot) :
    (queue.unlink slot link).links other =
      { previous := if decodeLink link.next = some other then link.previous
          else (queue.links other).previous
        next := if decodeLink link.previous = some other then link.next
          else (queue.links other).next
        queued := (queue.links other).queued } := by
  have hfirst : ∀ o : Option ℕ,
      (match o with
        | some previous => setNext queue.links previous link.next
        | none => queue.links) other =
      { queue.links other with
        next := if o = some other then link.next else (queue.links other).next } := by
    rintro (_ | previous)
    · rfl
    · by_cases heq : other = previous
      · rw [heq, if_pos rfl]
        exact setNext_self ..
      · rw [if_neg fun hsome ↦ heq (Option.some.inj hsome).symm]
        exact setNext_of_ne _ _ heq
  unfold unlink
  dsimp only
  rw [Function.update_of_ne h]
  cases decodeLink link.next with
  | none => exact hfirst _
  | some next =>
    dsimp only
    by_cases heq : other = next
    · subst heq
      rw [setPrevious_self, hfirst, if_pos rfl]
    · rw [setPrevious_of_ne _ _ heq, hfirst, if_neg fun hsome ↦ heq (Option.some.inj hsome).symm]

/-! ## The chain of a queue -/

/-- The links form a doubly linked chain over the slots of a list. -/
structure Linked (queue : ReadyLinks N) (l : List ℕ) : Prop where
  nodup : l.Nodup
  lt : ∀ slot ∈ l, slot < N
  lt_noneLink : ∀ slot ∈ l, slot < noneLink
  head_eq : queue.head = l.head?.getD noneIndex
  tail_eq : queue.tail = l.getLast?.getD noneIndex
  len_eq : queue.len = l.length
  queued_iff : ∀ slot < N, (queue.links slot).queued = true ↔ slot ∈ l
  chain : Chain (fun slot ↦ decodeLink (queue.links slot).previous)
    (fun slot ↦ decodeLink (queue.links slot).next) l

theorem linked_new : (new : ReadyLinks N).Linked [] where
  nodup := List.nodup_nil
  lt _ h := absurd h List.not_mem_nil
  lt_noneLink _ h := absurd h List.not_mem_nil
  head_eq := rfl
  tail_eq := rfl
  len_eq := rfl
  queued_iff _ _ := ⟨fun h ↦ Bool.noConfusion h, fun h ↦ absurd h List.not_mem_nil⟩
  chain := .nil _ _

namespace Linked

theorem ne_noneIndex (h : queue.Linked l) (hslot : slot ∈ l) : slot ≠ noneIndex := by
  have hlt := h.lt_noneLink slot hslot
  unfold noneLink at hlt
  unfold noneIndex
  omega

theorem schedule_eq (h : queue.Linked l)
    (hslot : ¬(slot < noneLink ∧ slot < N ∧ slot ∉ l)) :
    queue.schedule slot = (false, queue) := by
  unfold ReadyLinks.schedule
  by_cases hwide : 2 ^ 32 ≤ slot
  · rw [if_pos hwide]
  rw [if_neg hwide]
  by_cases hcode : slot = noneLink
  · rw [if_pos hcode]
  rw [if_neg hcode]
  by_cases hN : N ≤ slot
  · rw [if_pos hN]
  have hlt : slot < noneLink := by
    unfold noneLink at hcode ⊢
    omega
  have hmem : slot ∈ l := by
    by_contra hmem
    exact hslot ⟨hlt, Nat.lt_of_not_le hN, hmem⟩
  rw [if_neg hN, if_pos ((h.queued_iff slot (Nat.lt_of_not_le hN)).mpr hmem)]

theorem concat (h : queue.Linked l) (hlt : slot < noneLink) (hN : slot < N) (hslot : slot ∉ l)
    {queue' : ReadyLinks N} {previous : ℕ} (hprevious : decodeLink previous = l.getLast?)
    (hself : queue'.links slot = ⟨previous, noneLink, true⟩)
    (hlinks : ∀ other, other ≠ slot → queue'.links other =
      if l.getLast? = some other then { queue.links other with next := slot }
      else queue.links other)
    (hhead : queue'.head = (l ++ [slot]).head?.getD noneIndex) (htail : queue'.tail = slot)
    (hlen : queue'.len = queue.len + 1) : queue'.Linked (l ++ [slot]) := by
  have hnodup : (l ++ [slot]).Nodup := by
    rw [List.nodup_append]
    refine ⟨h.nodup, List.nodup_singleton slot, fun x hx y hy ↦ ?_⟩
    rintro rfl
    exact hslot (List.mem_singleton.mp hy ▸ hx)
  have hne {other : ℕ} (hother : other ∈ l) : other ≠ slot := by
    rintro rfl
    exact hslot hother
  refine ⟨hnodup, ?_, ?_, hhead, ?_, ?_, ?_, ?_⟩
  · simpa only [List.forall_mem_append, List.forall_mem_singleton] using ⟨h.lt, hN⟩
  · simpa only [List.forall_mem_append, List.forall_mem_singleton] using ⟨h.lt_noneLink, hlt⟩
  · rw [htail, List.getLast?_concat, Option.getD_some]
  · rw [hlen, h.len_eq, List.length_append, List.length_singleton]
  · intro other hother
    rw [List.mem_append, List.mem_singleton]
    by_cases heq : other = slot
    · subst heq
      rw [hself]
      exact ⟨fun _ ↦ .inr rfl, fun _ ↦ rfl⟩
    · rw [hlinks other heq, or_iff_left heq, ← h.queued_iff other hother]
      split <;> rfl
  · refine h.chain.concat hnodup ?_ ?_ (fun y hy ↦ ?_) (fun y hy ↦ ?_) fun y hy hlast ↦ ?_
    · rw [hself, hprevious]
    · rw [hself]
      exact decodeLink_noneLink
    · rw [hlinks y (hne hy)]
      split <;> rfl
    · rw [hlinks y (hne (List.mem_of_getLast? hy)), if_pos hy]
      exact decodeLink_of_lt hlt
    · rw [hlinks y (hne hy), if_neg hlast]

/-- **A slot is scheduled behind the others.** -/
theorem schedule (h : queue.Linked l) (hlt : slot < noneLink) (hN : slot < N) (hslot : slot ∉ l) :
    (queue.schedule slot).1 = true ∧ (ReadyLinks.schedule queue slot).2.Linked (l ++ [slot]) := by
  have hfree : ¬(queue.links slot).queued = true := fun hqueued ↦
    hslot ((h.queued_iff slot hN).mp hqueued)
  have hwide : ¬2 ^ 32 ≤ slot := by
    unfold noneLink at hlt
    omega
  unfold ReadyLinks.schedule
  rw [if_neg hwide, if_neg hlt.ne, if_neg (Nat.not_le.mpr hN), if_neg hfree]
  cases hlast : l.getLast? with
  | none =>
    have htail : queue.tail = noneIndex := by rw [h.tail_eq, hlast, Option.getD_none]
    rw [if_pos htail]
    refine ⟨rfl, h.concat hlt hN hslot (decodeLink_noneLink.trans hlast.symm)
      (Function.update_self ..) (fun other hother ↦ ?_) ?_ rfl rfl⟩
    · rw [hlast, if_neg (Option.some_ne_none other).symm]
      exact Function.update_of_ne hother ..
    · rw [List.getLast?_eq_none_iff.mp hlast]
      rfl
  | some last =>
    have hmem : last ∈ l := List.mem_of_getLast? hlast
    have hlast_lt := h.lt_noneLink last hmem
    have htail : queue.tail = last := by rw [h.tail_eq, hlast, Option.getD_some]
    have hne : slot ≠ last := by
      rintro rfl
      exact hslot hmem
    have hfits : ¬2 ^ 32 ≤ last := by
      unfold noneLink at hlast_lt
      omega
    rw [htail, if_neg (h.ne_noneIndex hmem), if_neg hfits]
    refine ⟨rfl, h.concat hlt hN hslot ((decodeLink_of_lt hlast_lt).trans hlast.symm)
      ((setNext_of_ne _ _ hne).trans (Function.update_self ..)) (fun other hother ↦ ?_) ?_ rfl rfl⟩
    · rw [hlast]
      dsimp only
      by_cases heq : other = last
      · subst heq
        rw [setNext_self, Function.update_of_ne hother, if_pos rfl]
      · rw [setNext_of_ne _ _ heq, Function.update_of_ne hother,
          if_neg fun hsome ↦ heq (Option.some.inj hsome).symm]
    · dsimp only
      rw [h.head_eq]
      cases l with
      | nil => exact absurd hmem List.not_mem_nil
      | cons first l => rfl

/-- **A slot is taken out.** -/
theorem unlink {a b : List ℕ} (h : queue.Linked (a ++ slot :: b)) :
    (queue.unlink slot (queue.links slot)).Linked (a ++ b) := by
  obtain ⟨hprevious, hnext⟩ := h.chain a slot b rfl
  dsimp only at hprevious hnext
  have hnodup := List.nodup_cons.mp (List.nodup_middle.mp h.nodup)
  have hne {other : ℕ} (hother : other ∈ a ++ b) : other ≠ slot := by
    rintro rfl
    exact hnodup.1 hother
  have hsub : ∀ other ∈ a ++ b, other ∈ a ++ slot :: b := fun other hother ↦
    List.mem_append.mpr ((List.mem_append.mp hother).imp_right (List.mem_cons_of_mem slot))
  refine ⟨hnodup.2, fun other hother ↦ h.lt other (hsub other hother),
    fun other hother ↦ h.lt_noneLink other (hsub other hother), ?_, ?_, ?_, ?_, ?_⟩
  · unfold ReadyLinks.unlink
    dsimp only
    rw [hprevious, hnext]
    cases hlast : a.getLast? with
    | none =>
      rw [List.getLast?_eq_none_iff.mp hlast]
      rfl
    | some last =>
      have hnil := List.ne_nil_of_mem (List.mem_of_getLast? hlast)
      dsimp only
      rw [h.head_eq, List.head?_append_of_ne_nil a hnil, List.head?_append_of_ne_nil a hnil]
  · unfold ReadyLinks.unlink
    dsimp only
    rw [hprevious, hnext]
    cases hfirst : b.head? with
    | none =>
      rw [List.head?_eq_none_iff.mp hfirst, List.append_nil]
    | some first =>
      obtain ⟨b', rfl⟩ := List.head?_eq_some_iff.mp hfirst
      dsimp only
      rw [h.tail_eq, List.getLast?_append_of_ne_nil a (List.cons_ne_nil slot _),
        List.getLast?_cons_cons, List.getLast?_append_of_ne_nil a (List.cons_ne_nil first _)]
  · change queue.len - 1 = _
    rw [h.len_eq, List.length_append, List.length_append, List.length_cons]
    rfl
  · intro other hother
    by_cases heq : other = slot
    · subst heq
      rw [links_unlink_self]
      exact ⟨fun hqueued ↦ Bool.noConfusion hqueued, fun hmem ↦ absurd rfl (hne hmem)⟩
    · rw [links_unlink _ _ heq]
      dsimp only
      rw [h.queued_iff other hother]
      simp [heq]
  · refine h.chain.remove h.nodup (fun y hy ↦ ?_) (fun y hy hfirst ↦ ?_) (fun y hy ↦ ?_)
      fun y hy hlast ↦ ?_
    · rw [links_unlink _ _ (hne (List.mem_append_right a (List.mem_of_head? hy)))]
      dsimp only
      rw [hnext, if_pos hy, hprevious]
    · rw [links_unlink _ _ (hne hy)]
      dsimp only
      rw [hnext, if_neg hfirst]
    · rw [links_unlink _ _ (hne (List.mem_append_left b (List.mem_of_getLast? hy)))]
      dsimp only
      rw [hprevious, if_pos hy, hnext]
    · rw [links_unlink _ _ (hne hy)]
      dsimp only
      rw [hprevious, if_neg hlast]

/-- **A slot is cancelled.** -/
theorem cancel (h : queue.Linked l) (slot : ℕ) :
    (queue.cancel slot).1 = decide (slot ∈ l) ∧
      (ReadyLinks.cancel queue slot).2.Linked (l.erase slot) := by
  unfold ReadyLinks.cancel
  by_cases hmem : slot ∈ l
  · have hN := h.lt slot hmem
    rw [if_neg (Nat.not_le.mpr hN), if_pos ((h.queued_iff slot hN).mpr hmem)]
    obtain ⟨a, b, hslot, rfl, herase⟩ := List.exists_erase_eq hmem
    rw [herase]
    exact ⟨(decide_eq_true hmem).symm, h.unlink⟩
  · rw [List.erase_of_not_mem hmem, decide_eq_false hmem]
    split_ifs with hN hqueued
    · exact ⟨rfl, h⟩
    · exact absurd ((h.queued_iff slot (Nat.lt_of_not_le hN)).mp hqueued) hmem
    · exact ⟨rfl, h⟩

/-- **The oldest slot is taken out.** -/
theorem pop (h : queue.Linked l) :
    queue.pop.1 = l.head? ∧ (ReadyLinks.pop queue).2.Linked l.tail := by
  unfold ReadyLinks.pop
  cases l with
  | nil =>
    rw [if_neg fun hne ↦ hne h.head_eq]
    exact ⟨rfl, h⟩
  | cons slot l =>
    have hhead : queue.head = slot := h.head_eq
    rw [hhead, if_pos (h.ne_noneIndex List.mem_cons_self)]
    have hcancel := (h.cancel slot).2
    rw [List.erase_cons_head] at hcancel
    exact ⟨rfl, hcancel⟩

/-- **Every slot is taken out.** -/
theorem clear (h : queue.Linked l) : queue.clear.Linked [] := by
  unfold ReadyLinks.clear
  rw [h.len_eq]
  induction l generalizing queue with
  | nil => exact h
  | cons slot l ih =>
    obtain ⟨hslot, h'⟩ := h.pop
    rw [List.length_cons, clearFrom]
    cases hpop : ReadyLinks.pop queue with
    | mk popped queue' =>
      rw [hpop] at hslot h'
      obtain rfl : popped = some slot := hslot
      exact ih h'

/-- **The loop that takes out every slot ends.** -/
theorem terminates_clear (h : queue.Linked l) :
    Loop.Terminates clearBody (·.len) queue queue.clear := by
  refine Loop.Terminates.of_fuel clearFrom (fun queue ↦ ∃ l, queue.Linked l) ?_ ?_ ?_ ⟨l, h⟩
    (Nat.le_refl _)
  · rintro queue ⟨l, h⟩ hlen
    obtain rfl := List.eq_nil_of_length_eq_zero (h.len_eq.symm.trans hlen)
    have hpop : ReadyLinks.pop queue = (none, queue) := if_neg fun hne ↦ hne h.head_eq
    rw [clearBody, hpop, clearFrom]
  · intro fuel queue
    rw [clearFrom, clearBody]
    rcases ReadyLinks.pop queue with ⟨_ | slot, queue'⟩ <;> rfl
  · rintro queue queue' ⟨l, h⟩ hbody
    obtain ⟨hslot, h'⟩ := h.pop
    unfold clearBody at hbody
    split at hbody
    · cases hbody
    · rename_i slot popped hpop
      cases hbody
      rw [hpop] at hslot h'
      obtain ⟨l', rfl⟩ := List.head?_eq_some_iff.mp hslot.symm
      refine ⟨⟨l', h'⟩, ?_⟩
      have hlen := h.len_eq
      have hlen' := h'.len_eq
      rw [List.length_cons] at hlen
      dsimp only [List.tail_cons] at hlen'
      omega

end Linked

end ReadyLinks

/-! ## Calls -/

/-- A call of a ready queue. -/
inductive ReadyCall where
  | schedule (slot : ℕ)
  | cancel (slot : ℕ)
  | pop
  | clear
  | isScheduled (slot : ℕ)
  | len

/-- A reply of a ready queue. -/
inductive ReadyReply where
  /-- Whether a slot was added or removed, or is scheduled. -/
  | flag (value : Bool)
  | slot (slot : Option ℕ)
  | cleared
  | count (len : ℕ)

def ReadyLinks.call {N : ℕ} (queue : ReadyLinks N) : ReadyCall → ReadyReply × ReadyLinks N
  | .schedule slot => (.flag (queue.schedule slot).1, (queue.schedule slot).2)
  | .cancel slot => (.flag (queue.cancel slot).1, (queue.cancel slot).2)
  | .pop => (.slot queue.pop.1, queue.pop.2)
  | .clear => (.cleared, queue.clear)
  | .isScheduled slot => (.flag (queue.isScheduled slot), queue)
  | .len => (.count queue.len, queue)

/-- A list without repetitions answers a call. -/
def ReadyQueue.call {N : ℕ} (queue : ReadyQueue N) : ReadyCall → ReadyReply × ReadyQueue N
  | .schedule slot =>
    if h : slot < N then
      (.flag (decide (slot < 2 ^ 32 - 1) && !queue.isScheduled ⟨slot, h⟩), queue.schedule ⟨slot, h⟩)
    else (.flag false, queue)
  | .cancel slot =>
    if h : slot < N then (.flag (queue.isScheduled ⟨slot, h⟩), queue.cancel ⟨slot, h⟩)
    else (.flag false, queue)
  | .pop =>
    match queue.pop with
    | some (slot, queue) => (.slot (some slot), queue)
    | none => (.slot none, queue)
  | .clear => (.cleared, new)
  | .isScheduled slot =>
    (.flag (if h : slot < N then queue.isScheduled ⟨slot, h⟩ else false), queue)
  | .len => (.count queue.len, queue)

/-! ## The refinement -/

namespace ReadyLinks

variable {N : ℕ} {queue : ReadyLinks N} {fifo : ReadyQueue N}

/-- The links form the chain of a list without repetitions. -/
def Represents (queue : ReadyLinks N) (fifo : ReadyQueue N) : Prop :=
  queue.Linked (fifo.slots.map Fin.val)

theorem represents_new : (new : ReadyLinks N).Represents ReadyQueue.new := linked_new

namespace Represents

theorem isScheduled_eq (h : queue.Represents fifo) (slot : Fin N) :
    queue.isScheduled slot = fifo.isScheduled slot := by
  have hqueued := h.queued_iff slot slot.isLt
  rw [List.mem_map_of_injective Fin.val_injective] at hqueued
  rw [ReadyLinks.isScheduled, decide_eq_true slot.isLt, Bool.true_and, Bool.eq_iff_iff, hqueued,
    ReadyQueue.isScheduled, decide_eq_true_iff]

/-- **A slot is scheduled.** -/
theorem schedule (h : queue.Represents fifo) (slot : Fin N) :
    (queue.schedule slot).1 = (decide (slot.val < 2 ^ 32 - 1) && !fifo.isScheduled slot) ∧
      (ReadyLinks.schedule queue slot).2.Represents (fifo.schedule slot) := by
  have hmem := List.mem_map_of_injective (l := fifo.slots) (a := slot) Fin.val_injective
  by_cases hscheduled : slot ∈ fifo.slots
  · rw [Linked.schedule_eq h fun hfree ↦ hfree.2.2 (hmem.mpr hscheduled), ReadyQueue.schedule,
      dif_pos hscheduled, ReadyQueue.isScheduled, decide_eq_true hscheduled]
    exact ⟨(Bool.and_false _).symm, h⟩
  · rw [ReadyQueue.isScheduled, decide_eq_false hscheduled, Bool.not_false, Bool.and_true]
    by_cases hlt : slot.val < 2 ^ 32 - 1
    · obtain ⟨hflag, h'⟩ := Linked.schedule h hlt slot.isLt (hmem.not.mpr hscheduled)
      refine ⟨hflag.trans (decide_eq_true hlt).symm, ?_⟩
      rwa [Represents, ReadyQueue.slots_schedule hlt, if_neg hscheduled, List.map_append]
    · rw [Linked.schedule_eq h fun hfree ↦ hlt hfree.1, ReadyQueue.schedule, dif_neg hscheduled,
        if_neg hlt]
      exact ⟨(decide_eq_false hlt).symm, h⟩

/-- **A slot is cancelled.** -/
theorem cancel (h : queue.Represents fifo) (slot : Fin N) :
    (queue.cancel slot).1 = fifo.isScheduled slot ∧
      (ReadyLinks.cancel queue slot).2.Represents (fifo.cancel slot) := by
  obtain ⟨hflag, h'⟩ := Linked.cancel h slot
  refine ⟨?_, ?_⟩
  · rw [hflag, ReadyQueue.isScheduled, decide_eq_decide,
      List.mem_map_of_injective Fin.val_injective]
  · rwa [Represents, ReadyQueue.cancel, List.map_erase Fin.val_injective]

/-- **One call.** -/
theorem call (h : queue.Represents fifo) (next : ReadyCall) :
    (queue.call next).1 = (fifo.call next).1 ∧
      (ReadyLinks.call queue next).2.Represents (fifo.call next).2 := by
  unfold ReadyLinks.call ReadyQueue.call
  cases next with
  | schedule slot =>
    by_cases hN : slot < N
    · obtain ⟨hflag, h'⟩ := h.schedule ⟨slot, hN⟩
      simp only [dif_pos hN]
      exact ⟨congrArg ReadyReply.flag hflag, h'⟩
    · simp only [dif_neg hN, Linked.schedule_eq h fun hfree ↦ hN hfree.2.1]
      exact ⟨trivial, h⟩
  | cancel slot =>
    by_cases hN : slot < N
    · obtain ⟨hflag, h'⟩ := h.cancel ⟨slot, hN⟩
      simp only [dif_pos hN]
      exact ⟨congrArg ReadyReply.flag hflag, h'⟩
    · have hcancel : queue.cancel slot = (false, queue) := if_pos (Nat.le_of_not_lt hN)
      simp only [dif_neg hN, hcancel]
      exact ⟨trivial, h⟩
  | pop =>
    obtain ⟨hslot, h'⟩ := Linked.pop h
    dsimp only
    cases hpop : fifo.pop with
    | none =>
      have hslots := ReadyQueue.pop_eq_none.mp hpop
      rw [hslots] at hslot h'
      refine ⟨congrArg ReadyReply.slot hslot, ?_⟩
      rwa [Represents, hslots]
    | some popped =>
      rw [ReadyQueue.pop_eq_some.mp hpop] at hslot h'
      exact ⟨congrArg ReadyReply.slot hslot, h'⟩
  | clear => exact ⟨rfl, Linked.clear h⟩
  | isScheduled slot =>
    by_cases hN : slot < N
    · simp only [dif_pos hN]
      exact ⟨congrArg ReadyReply.flag (h.isScheduled_eq ⟨slot, hN⟩), h⟩
    · have hfalse : queue.isScheduled slot = false := by
        rw [ReadyLinks.isScheduled, decide_eq_false hN, Bool.false_and]
      simp only [dif_neg hN, hfalse]
      exact ⟨trivial, h⟩
  | len =>
    refine ⟨congrArg ReadyReply.count ?_, h⟩
    rw [h.len_eq, List.length_map, ReadyQueue.len]

end Represents

end ReadyLinks

/-- **The ready queue refines a FIFO without repetitions.**  For every number of slots and after
every sequence of calls the replies are those of a list of slots without repetitions, the links,
the head and the tail form one doubly linked chain over exactly the slots that are scheduled, and
the loop that removes every slot ends. -/
theorem ready_queue_refines_fifo (N : ℕ) (calls : List ReadyCall) :
    ∃ (replies : List ReadyReply) (queue : ReadyLinks N) (fifo : ReadyQueue N),
      answers ReadyLinks.call ReadyLinks.new calls = (replies, queue) ∧
      answers ReadyQueue.call ReadyQueue.new calls = (replies, fifo) ∧
      queue.Linked (fifo.slots.map Fin.val) ∧
      Loop.Terminates ReadyLinks.clearBody (·.len) queue queue.clear := by
  obtain ⟨hreplies, h⟩ := answers_refine (R := ReadyLinks.Represents)
    (fun _ _ next h ↦ h.call next) (ReadyLinks.represents_new (N := N)) calls
  exact ⟨_, _, _, rfl, Prod.ext hreplies.symm rfl, h, h.terminates_clear⟩

end Rocev2.Core
