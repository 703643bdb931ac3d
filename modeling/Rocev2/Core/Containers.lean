import Mathlib.Data.List.FinRange
import Rocev2.Core.Qp

/-!
# Bounded containers

The fixed-capacity containers of `rocev2-core`: the work rings (`ring.rs`), the intrusive queue of
runnable slots and the indexed timer heap (`scheduler.rs`).

Each container is modelled by what it holds: a ring is a bounded list, a ready queue a list
without repetitions, and the timer heap at most one entry per slot with the least entry popped
first.  Array positions and links are not observable through the operations below and are left to a
refinement.  Every operation returns what the source returns, including its failures.
-/

namespace Rocev2.Core

/-! ## Rings -/

/-- A fixed-capacity FIFO ring. -/
@[ext]
structure Ring (α : Type*) (N : ℕ) where
  /-- The queued items, oldest first. -/
  items : List α
  /-- The ring holds at most `N` items. -/
  length_le : items.length ≤ N

namespace Ring

variable {α : Type*} {N : ℕ} {ring ring' : Ring α N} {item : α}

def new : Ring α N := ⟨[], Nat.zero_le N⟩

/-- The number of occupied entries. -/
def len (ring : Ring α N) : ℕ := ring.items.length

/-- Whether the ring contains no entries. -/
def isEmpty (ring : Ring α N) : Bool := ring.items.isEmpty

/-- Whether the ring is at capacity. -/
def isFull (ring : Ring α N) : Bool := ring.items.length = N

/-- The number of additional elements that can be queued. -/
def remainingCapacity (ring : Ring α N) : ℕ := N - ring.items.length

def front (ring : Ring α N) : Option α := ring.items.head?

/-- Insert an item at the producer end, or give it back when the ring is full. -/
def push (ring : Ring α N) (item : α) : Except α (Ring α N) :=
  if h : ring.items.length < N then
    .ok ⟨ring.items ++ [item], by rw [List.length_append]; exact h⟩
  else .error item

def pushed (ring : Ring α N) (item : α) : Ring α N :=
  match ring.push item with
  | .ok ring => ring
  | .error _ => ring

/-- Insert every item of a list; a full ring drops the rest. -/
def pushAll (ring : Ring α N) (items : List α) : Ring α N := items.foldl pushed ring

/-- Remove the oldest item. -/
def pop (ring : Ring α N) : Option (α × Ring α N) :=
  match ring with
  | ⟨[], _⟩ => none
  | ⟨item :: items, h⟩ => some (item, ⟨items, Nat.le_of_succ_le h⟩)

theorem push_eq_ok :
    ring.push item = .ok ring' ↔
      ring.items.length < N ∧ ring'.items = ring.items ++ [item] := by
  unfold push
  split
  · rename_i h
    constructor
    · rintro ⟨⟩
      exact ⟨h, rfl⟩
    · rintro ⟨-, hitems⟩
      exact congrArg Except.ok (Ring.ext hitems.symm)
  · rename_i h
    constructor
    · rintro ⟨⟩
    · rintro ⟨hlt, -⟩
      exact absurd hlt h

theorem push_eq_error {item' : α} (h : ring.push item = .error item') :
    ring.items.length = N := by
  unfold push at h
  split at h
  · cases h
  · have := ring.length_le
    omega

theorem items_pushed (ring : Ring α N) (item : α) (h : ring.items.length < N) :
    (ring.pushed item).items = ring.items ++ [item] := by
  simp [pushed, push, h]

theorem items_pushAll (ring : Ring α N) (items : List α)
    (h : ring.items.length + items.length ≤ N) :
    (ring.pushAll items).items = ring.items ++ items := by
  induction items generalizing ring with
  | nil => simp [pushAll]
  | cons item items ih =>
    rw [List.length_cons] at h
    have hitem := items_pushed ring item (by omega)
    have hrest := ih (ring.pushed item) (by rw [hitem]; simp; omega)
    rw [pushAll, List.foldl_cons, ← pushAll, hrest, hitem, List.append_assoc, List.singleton_append]

theorem pushAll_append (ring : Ring α N) (items items' : List α) :
    ring.pushAll (items ++ items') = (ring.pushAll items).pushAll items' :=
  List.foldl_append

theorem push_eq_ok_pushAll :
    ring.push item = .ok ring' ↔ 1 ≤ ring.remainingCapacity ∧ ring' = ring.pushAll [item] := by
  have hbound := ring.length_le
  rw [push_eq_ok, remainingCapacity]
  constructor
  · rintro ⟨hroom, hitems⟩
    exact ⟨by omega, Ring.ext (hitems.trans (items_pushed ring item hroom).symm)⟩
  · rintro ⟨hroom, rfl⟩
    exact ⟨by omega, items_pushed ring item (by omega)⟩

theorem pop_eq_some :
    ring.pop = some (item, ring') ↔ ring.items = item :: ring'.items := by
  obtain ⟨items, hle⟩ := ring
  cases items with
  | nil => simp [pop]
  | cons head tail =>
    simp only [pop, Option.some.injEq, Prod.mk.injEq, List.cons.injEq, and_congr_right_iff]
    intro _
    exact ⟨fun h ↦ by rw [← h], fun h ↦ Ring.ext h⟩

theorem pop_eq_none : ring.pop = none ↔ ring.items = [] := by
  obtain ⟨items, hle⟩ := ring
  cases items <;> simp [pop]

end Ring

/-! ## Ready queues -/

/-- A FIFO of runnable slots; a slot occupies at most one entry. -/
@[ext]
structure ReadyQueue (N : ℕ) where
  /-- The scheduled slots, oldest first. -/
  slots : List (Fin N)
  /-- No slot is scheduled twice. -/
  nodup : slots.Nodup

namespace ReadyQueue

variable {N : ℕ} {queue : ReadyQueue N} {slot : Fin N} {other : Fin N}

def new : ReadyQueue N := ⟨[], List.nodup_nil⟩

/-- The number of scheduled slots. -/
def len (queue : ReadyQueue N) : ℕ := queue.slots.length

def isScheduled (queue : ReadyQueue N) (slot : Fin N) : Bool := slot ∈ queue.slots

/-- Add `slot` to the tail; the link sentinel of the source is not a valid slot. -/
def schedule (queue : ReadyQueue N) (slot : Fin N) : ReadyQueue N :=
  if h : slot ∈ queue.slots then queue
  else if slot.val < 2 ^ 32 - 1 then
    ⟨queue.slots ++ [slot], by
      rw [List.nodup_append]
      refine ⟨queue.nodup, List.nodup_singleton slot, fun a ha b hb ↦ ?_⟩
      rw [List.mem_singleton] at hb
      rintro rfl
      exact h (hb ▸ ha)⟩
  else queue

/-- Remove `slot`, preserving the order of all other entries. -/
def cancel (queue : ReadyQueue N) (slot : Fin N) : ReadyQueue N :=
  ⟨queue.slots.erase slot, queue.nodup.erase slot⟩

/-- Remove the oldest runnable slot. -/
def pop (queue : ReadyQueue N) : Option (Fin N × ReadyQueue N) :=
  match queue with
  | ⟨[], _⟩ => none
  | ⟨slot :: slots, h⟩ => some (slot, ⟨slots, (List.nodup_cons.mp h).2⟩)

theorem mem_schedule (h : slot.val < 2 ^ 32 - 1) :
    other ∈ (queue.schedule slot).slots ↔ other = slot ∨ other ∈ queue.slots := by
  unfold schedule
  split
  · rename_i hmem
    constructor
    · exact Or.inr
    · rintro (rfl | hother)
      · exact hmem
      · exact hother
  · rw [List.mem_append, List.mem_singleton, or_comm]

theorem mem_schedule_of_ne (hne : other ≠ slot) :
    other ∈ (queue.schedule slot).slots ↔ other ∈ queue.slots := by
  unfold schedule
  split
  · rfl
  · split
    · simp [hne]
    · rfl

theorem slots_schedule (h : slot.val < 2 ^ 32 - 1) :
    (queue.schedule slot).slots =
      if slot ∈ queue.slots then queue.slots else queue.slots ++ [slot] := by
  unfold schedule
  split <;> rfl

theorem schedule_schedule (queue : ReadyQueue N) (slot : Fin N) :
    (queue.schedule slot).schedule slot = queue.schedule slot := by
  by_cases hmem : slot ∈ queue.slots
  · have hkept : queue.schedule slot = queue := dif_pos hmem
    rw [hkept, hkept]
  · by_cases hslot : slot.val < 2 ^ 32 - 1
    · have hnow : slot ∈ (queue.schedule slot).slots := by
        rw [schedule, dif_neg hmem, if_pos hslot]
        exact List.mem_append_right _ (List.mem_singleton_self slot)
      exact dif_pos hnow
    · have hkept : queue.schedule slot = queue := by rw [schedule, dif_neg hmem, if_neg hslot]
      rw [hkept, hkept]

theorem slots_cancel (queue : ReadyQueue N) (slot : Fin N) :
    (queue.cancel slot).slots = queue.slots.filter (· ≠ slot) := by
  refine (queue.nodup.erase_eq_filter slot).trans (List.filter_congr fun other _ ↦ ?_)
  rw [Bool.eq_iff_iff, bne_iff_ne, decide_eq_true_iff]

theorem mem_cancel :
    other ∈ (queue.cancel slot).slots ↔ other ≠ slot ∧ other ∈ queue.slots :=
  queue.nodup.mem_erase_iff

theorem pop_eq_some {queue' : ReadyQueue N} :
    queue.pop = some (slot, queue') ↔ queue.slots = slot :: queue'.slots := by
  obtain ⟨slots, hnodup⟩ := queue
  cases slots with
  | nil => simp [pop]
  | cons head tail =>
    simp only [pop, Option.some.injEq, Prod.mk.injEq, List.cons.injEq, and_congr_right_iff]
    intro _
    exact ⟨fun h ↦ by rw [← h], fun h ↦ ReadyQueue.ext h⟩

theorem len_of_pop {queue' : ReadyQueue N} (h : queue.pop = some (slot, queue')) :
    queue.len = queue'.len + 1 :=
  congrArg List.length (pop_eq_some.mp h)

theorem pop_eq_none : queue.pop = none ↔ queue.slots = [] := by
  obtain ⟨slots, hnodup⟩ := queue
  cases slots with
  | nil => exact ⟨fun _ ↦ rfl, fun _ ↦ rfl⟩
  | cons slot slots => exact ⟨nofun, nofun⟩

theorem not_mem_of_pop {queue' : ReadyQueue N} (h : queue.pop = some (slot, queue')) :
    slot ∉ queue'.slots := by
  have hnodup := queue.nodup
  rw [pop_eq_some.mp h] at hnodup
  exact (List.nodup_cons.mp hnodup).1

end ReadyQueue

/-! ## The timer scheduler -/

/-- One absolute deadline with the identity fields that reject stale events. -/
structure TimerEntry where
  /-- The absolute deadline. -/
  deadline : ℕ
  /-- The owning slot. -/
  qpSlot : ℕ
  /-- The generation captured when the timer was armed. -/
  qpGeneration : ℕ
  /-- The per-slot arm sequence. -/
  sequence : ℕ
deriving DecidableEq, Repr

/-- The order in which the heap releases its entries. -/
def TimerEntry.precedes (left right : TimerEntry) : Bool :=
  if left.deadline ≠ right.deadline then left.deadline < right.deadline
  else if left.qpSlot ≠ right.qpSlot then left.qpSlot < right.qpSlot
  else if left.qpGeneration ≠ right.qpGeneration then left.qpGeneration < right.qpGeneration
  else left.sequence < right.sequence

/-- An indexed scheduler of deadlines with at most one entry per slot. -/
@[ext]
structure TimerScheduler (N : ℕ) where
  /-- The armed entry of each slot. -/
  entries : Fin N → Option TimerEntry

namespace TimerScheduler

variable {N : ℕ} {slot : Fin N}

def new : TimerScheduler N := ⟨fun _ ↦ none⟩

variable (timers : TimerScheduler N)

def get (slot : Fin N) : Option TimerEntry := timers.entries slot

/-- The number of armed timers. -/
def len : ℕ :=
  (List.finRange N).countP fun slot ↦ (timers.entries slot).isSome

/-- Insert or replace the timer of a slot.  A new entry needs a position below the sentinel. -/
def schedule (slot : Fin N) (entry : TimerEntry) : TimerScheduler N :=
  if (timers.entries slot).isSome || decide (timers.len < 2 ^ 32 - 1) then
    ⟨Function.update timers.entries slot (some entry)⟩
  else timers

def cancel (slot : Fin N) : TimerScheduler N :=
  ⟨Function.update timers.entries slot none⟩

/-- The slot whose entry precedes every other. -/
def peek : Option (Fin N × TimerEntry) :=
  (List.finRange N).foldl
    (fun least slot ↦
      match timers.entries slot, least with
      | none, least => least
      | some entry, none => some (slot, entry)
      | some entry, some (other, best) =>
        if entry.precedes best then some (slot, entry) else some (other, best))
    none

def popExpired (now : ℕ) :
    Option (Fin N × TimerEntry × TimerScheduler N) :=
  match timers.peek with
  | some (slot, entry) =>
    if entry.deadline ≤ now then some (slot, entry, timers.cancel slot) else none
  | none => none

@[simp]
theorem get_cancel_self (slot : Fin N) :
    (timers.cancel slot).get slot = none := by
  simp [get, cancel]

theorem get_cancel_of_ne {other : Fin N} (h : other ≠ slot) :
    (timers.cancel slot).get other = timers.get other := by
  simp [get, cancel, h]

theorem get_schedule_of_ne {other : Fin N} (entry : TimerEntry) (h : other ≠ slot) :
    (timers.schedule slot entry).get other = timers.get other := by
  unfold schedule
  split
  · simp [get, h]
  · rfl

theorem get_schedule_self {timers : TimerScheduler N} {entry : TimerEntry}
    (h : timers.len < 2 ^ 32 - 1) : (timers.schedule slot entry).get slot = some entry := by
  rw [schedule, decide_eq_true h, Bool.or_true, if_pos rfl]
  exact Function.update_self ..

theorem timers_of_popExpired {timers timers' : TimerScheduler N} {now : ℕ} {entry : TimerEntry}
    (h : timers.popExpired now = some (slot, entry, timers')) :
    timers' = timers.cancel slot := by
  unfold popExpired at h
  split at h
  · split at h
    · cases h
      rfl
    · cases h
  · cases h

theorem len_le_of_armed_lt {timers : TimerScheduler N} {bound : ℕ}
    (h : ∀ slot, (timers.get slot).isSome → slot.val < bound) : timers.len ≤ bound := by
  have hmono : timers.len ≤ (List.finRange N).countP fun slot ↦ decide (slot.val < bound) := by
    refine List.countP_mono_left fun slot _ hsome ↦ ?_
    exact decide_eq_true (h slot hsome)
  refine hmono.trans ?_
  rw [List.countP_eq_length_filter]
  have hnodup : ((List.finRange N).filter fun slot ↦ decide (slot.val < bound)).Nodup :=
    (List.nodup_finRange N).filter _
  have hmap := hnodup.map Fin.val_injective
  have hsub : (((List.finRange N).filter fun slot ↦ decide (slot.val < bound)).map Fin.val) ⊆
      List.range bound := by
    intro n hn
    obtain ⟨slot, hslot, rfl⟩ := List.mem_map.mp hn
    exact List.mem_range.mpr (of_decide_eq_true (List.mem_filter.mp hslot).2)
  have hle := (List.subperm_of_subset hmap hsub).length_le
  rwa [List.length_map, List.length_range] at hle

end TimerScheduler

end Rocev2.Core
