import Rocev2.Core.Containers
import Rocev2.Lib.Calls
import Rocev2.Lib.Circular

/-!
# The cells behind a ring

`rocev2-core/src/ring.rs`: a ring is an array of `N` optional items with the positions of its two
ends and the number of its items.  The engine works with the ring as a bounded list (`Ring`); here
the array is shown to be an implementation of it.

Read from `head` on, the array is the list of the items followed by empty cells, a full circle of
`N` cells (`Ring.circle`).  A push writes the first empty cell, a pop empties the first cell and
turns the circle by one.
-/

namespace Rocev2.Core

open Rocev2.Lib

universe u

variable {α : Type u} {N : ℕ}

/-- A fixed-capacity ring: its cells, indexed below `N`, the positions at which it is read and
written, and the number of its items. -/
structure RingBuffer (α : Type u) (N : ℕ) where
  slots : ℕ → Option α
  head : ℕ
  tail : ℕ
  len : ℕ

namespace RingBuffer

def new : RingBuffer α N := ⟨fun _ ↦ none, 0, 0, 0⟩

/-- Whether the ring contains no entries. -/
def isEmpty (ring : RingBuffer α N) : Bool := ring.len = 0

/-- Whether the ring is at capacity. -/
def isFull (ring : RingBuffer α N) : Bool := ring.len = N

/-- The element at `offset` relative to the current head. -/
def get (ring : RingBuffer α N) (offset : ℕ) : Option α :=
  if ring.len ≤ offset ∨ N = 0 then none else ring.slots ((ring.head + offset) % N)

/-- Insert an item at the producer end, or give it back when the ring is full. -/
def push (ring : RingBuffer α N) (item : α) : Except α (RingBuffer α N) :=
  if ring.isFull then .error item
  else .ok
    { slots := Function.update ring.slots ring.tail (some item)
      head := ring.head
      tail := (ring.tail + 1) % N
      len := ring.len + 1 }

/-- Remove and return the oldest item. -/
def pop (ring : RingBuffer α N) : Option α × RingBuffer α N :=
  if ring.isEmpty then (none, ring)
  else (ring.slots ring.head,
    { slots := Function.update ring.slots ring.head none
      head := (ring.head + 1) % N
      tail := ring.tail
      len := ring.len - 1 })

/-- The oldest item. -/
def front (ring : RingBuffer α N) : Option α :=
  if ring.isEmpty then none else ring.slots ring.head

/-- Lend the oldest item to a caller that replaces it by `f`. -/
def frontMut (ring : RingBuffer α N) (f : α → α) : Option α × RingBuffer α N :=
  if ring.isEmpty then (none, ring)
  else (ring.slots ring.head,
    { ring with slots := Function.update ring.slots ring.head ((ring.slots ring.head).map f) })

theorem len_pop_lt {ring : RingBuffer α N} {item : α} {ring' : RingBuffer α N}
    (h : ring.pop = (some item, ring')) : ring'.len < ring.len := by
  unfold pop at h
  split at h
  · cases h
  · rename_i hempty
    have hlen : ring.len ≠ 0 := fun hzero ↦ hempty (decide_eq_true hzero)
    obtain rfl := (Prod.mk.inj h).2
    exact Nat.sub_one_lt hlen

/-- Remove all entries in FIFO order. -/
def clear (ring : RingBuffer α N) : RingBuffer α N :=
  match h : ring.pop with
  | (none, ring') => ring'
  | (some _, ring') =>
    have := len_pop_lt h
    ring'.clear
termination_by ring.len

end RingBuffer

/-! ## Calls -/

/-- A call of a ring. -/
inductive RingCall (α : Type u) where
  | push (item : α)
  | pop
  | front
  /-- The oldest item is borrowed and replaced. -/
  | frontMut (f : α → α)
  | get (offset : ℕ)
  | clear
  | len

/-- A reply of a ring. -/
inductive RingReply (α : Type u) where
  /-- The item was taken or is given back. -/
  | pushed (result : Except α Unit)
  | item (item : Option α)
  | cleared
  | count (len : ℕ)

/-- The array answers a call. -/
def RingBuffer.call (ring : RingBuffer α N) : RingCall α → RingReply α × RingBuffer α N
  | .push item =>
    match ring.push item with
    | .ok ring => (.pushed (.ok ()), ring)
    | .error item => (.pushed (.error item), ring)
  | .pop => (.item ring.pop.1, ring.pop.2)
  | .front => (.item ring.front, ring)
  | .frontMut f => (.item (ring.frontMut f).1, (ring.frontMut f).2)
  | .get offset => (.item (ring.get offset), ring)
  | .clear => (.cleared, ring.clear)
  | .len => (.count ring.len, ring)

namespace Ring

/-- Replace the oldest item. -/
def modifyFront (ring : Ring α N) (f : α → α) : Ring α N :=
  ⟨ring.items.modifyHead f, by rw [List.length_modifyHead]; exact ring.length_le⟩

/-- A bounded list answers a call. -/
def call (ring : Ring α N) : RingCall α → RingReply α × Ring α N
  | .push item =>
    match ring.push item with
    | .ok ring => (.pushed (.ok ()), ring)
    | .error item => (.pushed (.error item), ring)
  | .pop =>
    match ring.pop with
    | some (item, ring) => (.item (some item), ring)
    | none => (.item none, ring)
  | .front => (.item ring.front, ring)
  | .frontMut f => (.item ring.front, ring.modifyFront f)
  | .get offset => (.item ring.items[offset]?, ring)
  | .clear => (.cleared, new)
  | .len => (.count ring.len, ring)

/-- The items followed by empty cells. -/
def circle (ring : Ring α N) : List (Option α) :=
  ring.items.map some ++ List.replicate (N - ring.items.length) none

theorem length_circle (ring : Ring α N) : ring.circle.length = N := by
  have hle := ring.length_le
  simp only [circle, List.length_append, List.length_map, List.length_replicate]
  omega

theorem getElem?_circle (ring : Ring α N) {k : ℕ} (hk : k < N) :
    ring.circle[k]? = some ring.items[k]? := by
  unfold circle
  by_cases hlt : k < ring.items.length
  · rw [List.getElem?_append_left (by rwa [List.length_map]), List.getElem?_map,
      List.getElem?_eq_getElem hlt, Option.map_some]
  · have hle := Nat.le_of_not_lt hlt
    rw [List.getElem?_append_right (by rwa [List.length_map]), List.length_map,
      List.getElem?_replicate, if_pos (by omega), List.getElem?_eq_none hle]

theorem circle_push {ring ring' : Ring α N} {item : α} (h : ring.push item = .ok ring') :
    ring'.circle = ring.circle.set ring.items.length (some item) := by
  obtain ⟨hlt, hitems⟩ := push_eq_ok.mp h
  unfold circle
  rw [hitems, List.set_append_right _ _ (by rw [List.length_map]), List.length_map, Nat.sub_self,
    List.length_append, List.length_singleton,
    show N - ring.items.length = N - (ring.items.length + 1) + 1 by omega, List.replicate_succ,
    List.set_cons_zero, List.map_append, List.append_assoc]
  rfl

theorem circle_pop {ring ring' : Ring α N} {item : α} (h : ring.pop = some (item, ring')) :
    ∃ rest, ring.circle = some item :: rest ∧ ring'.circle = rest ++ [none] := by
  have hitems := pop_eq_some.mp h
  have hle := ring.length_le
  rw [hitems, List.length_cons] at hle
  refine ⟨ring'.items.map some ++ List.replicate (N - ring.items.length) none, ?_, ?_⟩
  · unfold circle
    rw [hitems]
    rfl
  · unfold circle
    rw [hitems, List.append_assoc, ← List.replicate_succ', List.length_cons,
      show N - ring'.items.length = N - (ring'.items.length + 1) + 1 by omega]

theorem circle_modifyFront (ring : Ring α N) (f : α → α) (h : ring.items ≠ []) :
    (ring.modifyFront f).circle = ring.circle.set 0 (ring.front.map f) := by
  change (ring.items.modifyHead f).map some ++
    List.replicate (N - (ring.items.modifyHead f).length) none = _
  unfold circle front
  cases hitems : ring.items with
  | nil => exact absurd hitems h
  | cons item items => simp

end Ring

/-! ## The refinement -/

namespace RingBuffer

variable {ring : RingBuffer α N} {fifo : Ring α N}

/-- The array holds the items of a bounded list. -/
structure Represents (ring : RingBuffer α N) (fifo : Ring α N) : Prop where
  len_eq : ring.len = fifo.items.length
  /-- The cell that is read is a cell of the array. -/
  head_lt : 0 < N → ring.head < N
  tail_eq : ring.tail = (ring.head + ring.len) % N
  cells : Circular.Holds N ring.slots ring.head fifo.circle

theorem represents_new : (new : RingBuffer α N).Represents Ring.new := by
  refine ⟨rfl, id, (Nat.zero_mod N).symm, fun k item hk ↦ ?_⟩
  have hlt := (List.getElem?_eq_some_iff.mp hk).1
  rw [Ring.length_circle] at hlt
  rw [Ring.getElem?_circle _ hlt] at hk
  exact Option.some.inj hk

namespace Represents

theorem slots_eq (h : ring.Represents fifo) {k : ℕ} (hk : k < N) :
    ring.slots ((ring.head + k) % N) = fifo.items[k]? :=
  h.cells k _ (fifo.getElem?_circle hk)

theorem slots_head (h : ring.Represents fifo) (hN : 0 < N) :
    ring.slots ring.head = fifo.items.head? := by
  have hcell := h.slots_eq hN
  rw [Nat.add_zero, Nat.mod_eq_of_lt (h.head_lt hN)] at hcell
  rw [hcell, List.head?_eq_getElem?]

theorem pos_of_not_isEmpty (h : ring.Represents fifo) (hempty : ¬ring.isEmpty = true) : 0 < N := by
  have hlen : ring.len ≠ 0 := fun hzero ↦ hempty (decide_eq_true hzero)
  have hle := fifo.length_le
  have heq := h.len_eq
  omega

theorem items_of_isEmpty (h : ring.Represents fifo) (hempty : ring.isEmpty = true) :
    fifo.items = [] := by
  have hlen : ring.len = 0 := of_decide_eq_true hempty
  exact List.eq_nil_of_length_eq_zero (h.len_eq.symm.trans hlen)

theorem items_ne_nil (h : ring.Represents fifo) (hempty : ¬ring.isEmpty = true) :
    fifo.items ≠ [] := by
  intro hitems
  refine hempty (decide_eq_true ?_)
  rw [h.len_eq, hitems, List.length_nil]

/-- **The occupied cells** are the cells of the items. -/
theorem isSome_slots (h : ring.Represents fifo) {i : ℕ} (hi : i < N) :
    (ring.slots i).isSome ↔ ∃ k < ring.len, i = (ring.head + k) % N := by
  have hle := fifo.length_le
  have hlen := h.len_eq
  obtain ⟨k, hk, rfl⟩ := Circular.exists_offset ring.head hi
  rw [h.slots_eq hk, isSome_getElem?, ← hlen]
  constructor
  · intro hlt
    exact ⟨k, hlt, rfl⟩
  · rintro ⟨j, hj, heq⟩
    obtain rfl := Circular.offset_injective hk (by omega) heq
    exact hj

theorem get_eq (h : ring.Represents fifo) (offset : ℕ) : ring.get offset = fifo.items[offset]? := by
  have hle := fifo.length_le
  have hlen := h.len_eq
  unfold get
  split
  · rename_i hnone
    rw [List.getElem?_eq_none (by omega)]
  · exact h.slots_eq (by omega)

theorem front_eq (h : ring.Represents fifo) : ring.front = fifo.front := by
  unfold front
  split
  · rename_i hempty
    rw [Ring.front, h.items_of_isEmpty hempty, List.head?_nil]
  · rename_i hempty
    exact h.slots_head (h.pos_of_not_isEmpty hempty)

/-- **A push.** -/
theorem push (h : ring.Represents fifo) (item : α) :
    match ring.push item, fifo.push item with
    | .ok ring', .ok fifo' => ring'.Represents fifo'
    | .error item', .error item'' => item' = item''
    | _, _ => False := by
  have hle := fifo.length_le
  have hlen := h.len_eq
  unfold RingBuffer.push
  by_cases hfull : ring.isFull = true
  · have hN : ring.len = N := of_decide_eq_true hfull
    rw [if_pos hfull, Ring.push, dif_neg (by omega)]
  · have hN : ring.len ≠ N := fun heq ↦ hfull (decide_eq_true heq)
    have hlt : fifo.items.length < N := by omega
    rw [if_neg hfull]
    cases hpush : fifo.push item with
    | error item' => exact absurd (Ring.push_eq_error hpush) hlt.ne
    | ok fifo' =>
      obtain ⟨-, hitems⟩ := Ring.push_eq_ok.mp hpush
      refine ⟨?_, h.head_lt, ?_, ?_⟩
      · rw [hitems, List.length_append, List.length_singleton, hlen]
      · rw [h.tail_eq, Nat.mod_add_mod, Nat.add_assoc]
      · dsimp only
        rw [Ring.circle_push hpush, h.tail_eq, hlen]
        exact h.cells.set (fifo.length_circle).le (by rw [fifo.length_circle]; exact hlt) _

/-- **A pop.** -/
theorem pop (h : ring.Represents fifo) :
    match fifo.pop with
    | some (item, fifo') => ring.pop.1 = some item ∧ ring.pop.2.Represents fifo'
    | none => ring.pop = (none, ring) := by
  unfold RingBuffer.pop
  by_cases hempty : ring.isEmpty = true
  · rw [if_pos hempty, Ring.pop_eq_none.mpr (h.items_of_isEmpty hempty)]
  · rw [if_neg hempty]
    have hN := h.pos_of_not_isEmpty hempty
    have hhead := Nat.mod_eq_of_lt (h.head_lt hN)
    cases hpop : fifo.pop with
    | none => exact absurd (Ring.pop_eq_none.mp hpop) (h.items_ne_nil hempty)
    | some popped =>
      obtain ⟨item, fifo'⟩ := popped
      have hitems := Ring.pop_eq_some.mp hpop
      have heq := h.len_eq
      rw [hitems, List.length_cons] at heq
      obtain ⟨rest, hcircle, hcircle'⟩ := Ring.circle_pop hpop
      have hfull := fifo.length_circle
      rw [hcircle, List.length_cons] at hfull
      refine ⟨?_, ?_, fun _ ↦ Nat.mod_lt _ hN, ?_, ?_⟩
      · dsimp only
        rw [h.slots_head hN, hitems, List.head?_cons]
      · dsimp only
        omega
      · dsimp only
        rw [h.tail_eq, Nat.mod_add_mod]
        congr 1
        omega
      · -- The first cell is emptied and becomes the last one.
        have hset := h.cells.set (fifo.length_circle).le (by rw [fifo.length_circle]; exact hN) none
        rw [Nat.add_zero, hhead, hcircle, List.set_cons_zero] at hset
        dsimp only
        rw [hcircle', Circular.Holds.mod_head]
        exact hset.rotate hfull

/-- **A change of the oldest item.** -/
theorem frontMut (h : ring.Represents fifo) (f : α → α) :
    (ring.frontMut f).1 = fifo.front ∧
      (RingBuffer.frontMut ring f).2.Represents (fifo.modifyFront f) := by
  unfold RingBuffer.frontMut
  by_cases hempty : ring.isEmpty = true
  · have hitems := h.items_of_isEmpty hempty
    have hfifo : fifo.modifyFront f = fifo := by
      refine Ring.ext ?_
      change fifo.items.modifyHead f = fifo.items
      rw [hitems, List.modifyHead_nil]
    rw [if_pos hempty, hfifo, Ring.front, hitems, List.head?_nil]
    exact ⟨rfl, h⟩
  · rw [if_neg hempty]
    have hN := h.pos_of_not_isEmpty hempty
    have hslot : ring.slots ring.head = fifo.front := h.slots_head hN
    have hset := h.cells.set (fifo.length_circle).le (by rw [fifo.length_circle]; exact hN)
      (fifo.front.map f)
    rw [Nat.add_zero, Nat.mod_eq_of_lt (h.head_lt hN),
      ← fifo.circle_modifyFront f (h.items_ne_nil hempty), ← hslot] at hset
    exact ⟨hslot, h.len_eq.trans (List.length_modifyHead).symm, h.head_lt, h.tail_eq, hset⟩

/-- **A clear**: the loop pops until the ring is empty. -/
theorem clear (ring : RingBuffer α N) (fifo : Ring α N) (h : ring.Represents fifo) :
    ring.clear.Represents Ring.new := by
  fun_induction RingBuffer.clear ring generalizing fifo with
  | case1 ring ring' hpop =>
    have hpopped := h.pop
    cases hfifo : fifo.pop with
    | none =>
      rw [hfifo] at hpopped
      rw [hpopped] at hpop
      obtain rfl := (Prod.mk.inj hpop).2
      rwa [show fifo = Ring.new from Ring.ext (Ring.pop_eq_none.mp hfifo)] at h
    | some popped =>
      rw [hfifo] at hpopped
      rw [hpop] at hpopped
      cases hpopped.1
  | case2 ring item ring' hpop _ ih =>
    have hpopped := h.pop
    cases hfifo : fifo.pop with
    | none =>
      rw [hfifo] at hpopped
      rw [hpopped] at hpop
      cases hpop
    | some popped =>
      rw [hfifo] at hpopped
      rw [hpop] at hpopped
      exact ih _ hpopped.2

/-- **One call.** -/
theorem call (h : ring.Represents fifo) (next : RingCall α) :
    (ring.call next).1 = (fifo.call next).1 ∧
      (RingBuffer.call ring next).2.Represents (fifo.call next).2 := by
  cases next with
  | push item =>
    have hpush := h.push item
    unfold RingBuffer.call Ring.call
    dsimp only
    cases hring : RingBuffer.push ring item with
    | ok ring' =>
      cases hfifo : fifo.push item with
      | ok fifo' =>
        rw [hring, hfifo] at hpush
        exact ⟨rfl, hpush⟩
      | error item' =>
        rw [hring, hfifo] at hpush
        exact hpush.elim
    | error item' =>
      cases hfifo : fifo.push item with
      | ok fifo' =>
        rw [hring, hfifo] at hpush
        exact hpush.elim
      | error item'' =>
        rw [hring, hfifo] at hpush
        obtain rfl : item' = item'' := hpush
        exact ⟨rfl, h⟩
  | pop =>
    have hpop := h.pop
    unfold RingBuffer.call Ring.call
    dsimp only
    cases hfifo : fifo.pop with
    | none =>
      rw [hfifo] at hpop
      rw [hpop]
      exact ⟨rfl, h⟩
    | some popped =>
      rw [hfifo] at hpop
      exact ⟨congrArg _ hpop.1, hpop.2⟩
  | front => exact ⟨congrArg _ h.front_eq, h⟩
  | frontMut f => exact ⟨congrArg _ (h.frontMut f).1, (h.frontMut f).2⟩
  | get offset => exact ⟨congrArg _ (h.get_eq offset), h⟩
  | clear => exact ⟨rfl, Represents.clear ring fifo h⟩
  | len => exact ⟨congrArg _ h.len_eq, h⟩

theorem pop_ne_none (h : ring.Represents fifo) (hlen : ring.len ≠ 0) : ring.pop.1 ≠ none := by
  have hpop := h.pop
  cases hfifo : fifo.pop with
  | none =>
    rw [h.len_eq, Ring.pop_eq_none.mp hfifo] at hlen
    exact absurd rfl hlen
  | some popped =>
    rw [hfifo] at hpop
    rw [hpop.1]
    exact Option.some_ne_none _

end Represents

end RingBuffer

/-- **The ring refines a bounded FIFO.**  For every element type and capacity and after every
sequence of calls the replies are those of a list of at most `N` items, the occupied cells are the
`len` cells from `head` on, the next push writes behind them, and a pop of a ring with items returns
one. -/
theorem ring_refines_fifo (α : Type u) (N : ℕ) (calls : List (RingCall α)) :
    ∃ (replies : List (RingReply α)) (ring : RingBuffer α N) (fifo : Ring α N),
      answers RingBuffer.call RingBuffer.new calls = (replies, ring) ∧
      answers Ring.call Ring.new calls = (replies, fifo) ∧
      ring.len = fifo.items.length ∧ (0 < N → ring.head < N) ∧
      ring.tail = (ring.head + ring.len) % N ∧
      (∀ k < N, ring.slots ((ring.head + k) % N) = fifo.items[k]?) ∧
      (∀ i < N, (ring.slots i).isSome ↔ ∃ k < ring.len, i = (ring.head + k) % N) ∧
      (ring.len ≠ 0 → ring.pop.1 ≠ none) := by
  obtain ⟨hreplies, h⟩ := answers_refine (R := RingBuffer.Represents) (fun _ _ next h ↦ h.call next)
    (RingBuffer.represents_new (α := α) (N := N)) calls
  exact ⟨_, _, _, rfl, Prod.ext hreplies.symm rfl, h.len_eq, h.head_lt, h.tail_eq,
    fun k hk ↦ h.slots_eq hk, fun i hi ↦ h.isSome_slots hi, h.pop_ne_none⟩

end Rocev2.Core
