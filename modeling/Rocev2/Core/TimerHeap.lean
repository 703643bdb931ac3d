import Mathlib.Data.Prod.Lex
import Mathlib.Data.Finset.Card
import Rocev2.Core.Containers
import Rocev2.Lib.BinaryHeap

/-!
# The timer heap

The timer scheduler of `scheduler.rs` as it is stored: a binary heap of entries in an array, the
position of each slot's entry in a second array, and the number of entries.

An entry is moved by exchanges, and every exchange writes both positions.  The invariant is that the
positions are the inverse of the slots of the heap (`Indexed`) and that the heap is ordered
(`Lib.BinaryHeap.Ordered`).  Every operation keeps both and has the effect on the map of armed
entries that its name says.
-/

namespace Rocev2.Core

open Lib

/-! ## Order of entries -/

namespace TimerEntry

/-- The entry of an unused heap position. -/
def empty : TimerEntry := ⟨0, 0, 0, 0⟩

/-- The fields in the order in which they are compared. -/
def rank (entry : TimerEntry) : ℕ ×ₗ ℕ ×ₗ ℕ ×ₗ ℕ :=
  toLex (entry.deadline, toLex (entry.qpSlot, toLex (entry.qpGeneration, entry.sequence)))

theorem rank_injective : Function.Injective rank := by
  rintro ⟨d, q, g, s⟩ ⟨d', q', g', s'⟩ h
  simpa [rank] using h

/-- Entries are ordered by deadline, slot, generation and sequence. -/
instance : LinearOrder TimerEntry := LinearOrder.lift' rank rank_injective

theorem precedes_iff {left right : TimerEntry} : left.precedes right = true ↔ left < right := by
  change _ ↔ left.rank < right.rank
  rw [rank, rank, Prod.Lex.toLex_lt_toLex, Prod.Lex.toLex_lt_toLex, Prod.Lex.toLex_lt_toLex,
    precedes]
  split_ifs with h₁ h₂ h₃ <;> simp_all

end TimerEntry

/-! ## Storage and operations -/

/-- The sentinel of an unarmed slot. -/
def nonePosition : ℕ := 2 ^ 32 - 1

/-- An indexed, fixed-capacity binary min-heap of deadlines.  The arrays have `N` elements. -/
structure TimerHeap (N : ℕ) where
  /-- The entries; those at `len` and above are unused. -/
  heap : ℕ → TimerEntry
  /-- The heap position of each slot's entry. -/
  positions : ℕ → ℕ
  /-- The number of armed timers. -/
  len : ℕ

namespace TimerHeap

variable {N : ℕ}

/-- An empty deadline scheduler. -/
def new : TimerHeap N := ⟨fun _ ↦ .empty, fun _ ↦ nonePosition, 0⟩

def get (timers : TimerHeap N) (qpSlot : ℕ) : Option TimerEntry :=
  if qpSlot < N then
    let position := timers.positions qpSlot
    if position = nonePosition then none
    else if position < timers.len then some (timers.heap position)
    else none
  else none

def setPosition (timers : TimerHeap N) (entry : TimerEntry) (position : ℕ) : TimerHeap N :=
  if 2 ^ 32 ≤ position then timers
  else if position = nonePosition then timers
  else if entry.qpSlot < N then
    { timers with positions := Function.update timers.positions entry.qpSlot position }
  else timers

def swapEntries (timers : TimerHeap N) (left right : ℕ) : TimerHeap N :=
  let timers : TimerHeap N := { timers with heap := BinaryHeap.exchange timers.heap left right }
  let timers := timers.setPosition (timers.heap left) left
  timers.setPosition (timers.heap right) right

/-- Whether one position's entry precedes another's. -/
def entryPrecedes (timers : TimerHeap N) (left right : ℕ) : Bool :=
  (timers.heap left).precedes (timers.heap right)

@[simp]
theorem len_setPosition (timers : TimerHeap N) (entry : TimerEntry) (position : ℕ) :
    (timers.setPosition entry position).len = timers.len := by
  unfold setPosition
  split_ifs <;> rfl

@[simp]
theorem heap_setPosition (timers : TimerHeap N) (entry : TimerEntry) (position : ℕ) :
    (timers.setPosition entry position).heap = timers.heap := by
  unfold setPosition
  split_ifs <;> rfl

@[simp]
theorem len_swapEntries (timers : TimerHeap N) (left right : ℕ) :
    (timers.swapEntries left right).len = timers.len := by
  simp [swapEntries]

@[simp]
theorem heap_swapEntries (timers : TimerHeap N) (left right : ℕ) :
    (timers.swapEntries left right).heap = BinaryHeap.exchange timers.heap left right := by
  simp [swapEntries]

def siftUp (timers : TimerHeap N) (position : ℕ) : TimerHeap N :=
  if _hpos : position = 0 then timers
  else
    let parent := (position - 1) / 2
    if !timers.entryPrecedes position parent then timers
    else (timers.swapEntries position parent).siftUp parent
termination_by position
decreasing_by omega

def leastChild (timers : TimerHeap N) (position : ℕ) : ℕ :=
  let left := 2 * position + 1
  let right := left + 1
  if right < timers.len && timers.entryPrecedes right left then right else left

theorem leastChild_bounds {timers : TimerHeap N} {position : ℕ}
    (h : ¬ 2 * position + 1 ≥ timers.len) :
    BinaryHeap.parent (timers.leastChild position) = position ∧
      position < timers.leastChild position ∧ timers.leastChild position < timers.len := by
  unfold leastChild BinaryHeap.parent
  dsimp only
  split_ifs with hright
  · have hlt := of_decide_eq_true (Bool.and_eq_true_iff.mp hright).1
    omega
  · omega

/-- Move an entry towards the leaves while its least child precedes it.  (An array has fewer than
`2 ^ 63` elements, so the saturating index arithmetic does not saturate.) -/
def siftDown (timers : TimerHeap N) (position : ℕ) : TimerHeap N :=
  if _hleft : 2 * position + 1 ≥ timers.len then timers
  else
    let child := timers.leastChild position
    if !timers.entryPrecedes child position then timers
    else (timers.swapEntries position child).siftDown child
termination_by timers.len - position
decreasing_by
  have hbounds := leastChild_bounds _hleft
  rw [len_swapEntries]
  omega

@[simp]
theorem len_siftUp (timers : TimerHeap N) (position : ℕ) :
    (timers.siftUp position).len = timers.len := by
  fun_induction siftUp timers position with
  | case1 => rfl
  | case2 => rfl
  | case3 timers position _ _ _ ih => rw [ih, len_swapEntries]

@[simp]
theorem len_siftDown (timers : TimerHeap N) (position : ℕ) :
    (timers.siftDown position).len = timers.len := by
  fun_induction siftDown timers position with
  | case1 => rfl
  | case2 => rfl
  | case3 timers position _ _ _ ih => rw [ih, len_swapEntries]

/-- Insert or replace one timer; the result says whether the entry was accepted. -/
def schedule (timers : TimerHeap N) (entry : TimerEntry) : Bool × TimerHeap N :=
  if entry.qpSlot < N then
    let position := timers.positions entry.qpSlot
    if position ≠ nonePosition then
      if position ≥ timers.len then (false, timers)
      else
        let previous := timers.heap position
        let timers : TimerHeap N :=
          { timers with heap := Function.update timers.heap position entry }
        if entry.precedes previous then (true, timers.siftUp position)
        else if previous.precedes entry then (true, timers.siftDown position)
        else (true, timers)
    else if timers.len = N then (false, timers)
    else if 2 ^ 32 ≤ timers.len then (false, timers)
    else if timers.len = nonePosition then (false, timers)
    else
      let timers : TimerHeap N :=
        { heap := Function.update timers.heap timers.len entry
          positions := Function.update timers.positions entry.qpSlot timers.len
          len := timers.len + 1 }
      (true, timers.siftUp (timers.len - 1))
  else (false, timers)

/-- Remove the entry at a heap position: the last entry takes its place. -/
def removeAt (timers : TimerHeap N) (position : ℕ) : Option TimerEntry × TimerHeap N :=
  if position ≥ timers.len then (none, timers)
  else
    let removed := timers.heap position
    if removed.qpSlot < N then
      let last := timers.len - 1
      let timers : TimerHeap N :=
        { timers with
          positions := Function.update timers.positions removed.qpSlot nonePosition
          len := last }
      if position = last then
        (some removed, { timers with heap := Function.update timers.heap last .empty })
      else
        let moved := timers.heap last
        let timers : TimerHeap N :=
          { timers with
            heap := Function.update (Function.update timers.heap last .empty) position moved }
        let timers := timers.setPosition moved position
        if position ≠ 0 ∧ timers.entryPrecedes position ((position - 1) / 2) = true then
          (some removed, timers.siftUp position)
        else (some removed, timers.siftDown position)
    else (none, timers)

theorem len_removeAt {timers : TimerHeap N} {position : ℕ} {entry : TimerEntry}
    (h : (timers.removeAt position).1 = some entry) :
    (timers.removeAt position).2.len + 1 = timers.len := by
  unfold removeAt at h ⊢
  dsimp only at h ⊢
  split_ifs at h ⊢ <;> simp only [len_siftUp, len_siftDown, len_setPosition] <;> omega

def cancel (timers : TimerHeap N) (qpSlot : ℕ) : Option TimerEntry × TimerHeap N :=
  if qpSlot < N then
    let position := timers.positions qpSlot
    if position = nonePosition then (none, timers) else timers.removeAt position
  else (none, timers)

/-- The earliest scheduled entry. -/
def peek (timers : TimerHeap N) : Option TimerEntry :=
  if timers.len = 0 then none else some (timers.heap 0)

def pop (timers : TimerHeap N) : Option TimerEntry × TimerHeap N :=
  if timers.len ≠ 0 then timers.removeAt 0 else (none, timers)

def popExpired (timers : TimerHeap N) (now : ℕ) : Option TimerEntry × TimerHeap N :=
  match timers.peek with
  | some entry => if entry.deadline ≤ now then timers.pop else (none, timers)
  | none => (none, timers)

/-- Cancel every timer. -/
def clear (timers : TimerHeap N) : TimerHeap N :=
  match _hpop : timers.pop with
  | (some _, timers') => timers'.clear
  | (none, timers') => timers'
termination_by timers.len
decreasing_by
  unfold pop at _hpop
  split_ifs at _hpop
  · have hlen := len_removeAt (congrArg Prod.fst _hpop)
    rw [_hpop] at hlen
    dsimp only at hlen
    omega
  · cases congrArg Prod.fst _hpop

end TimerHeap

end Rocev2.Core
