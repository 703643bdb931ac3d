import Mathlib.Data.List.Induction
import Rocev2.Core.TimerHeap.Operations

/-!
# The timer heap is a map with a minimum

The root of a valid heap is the least entry of its map, so that popping removes the least entry.  A
sequence of calls is answered as by the abstract scheduler (`MapStep`), which is nothing but a map.
-/

namespace Rocev2.Core.TimerHeap

variable {N : ℕ} {timers timers' : TimerHeap N}

/-! ## The minimum -/

def LeastOf (map : ℕ → Option TimerEntry) : Option TimerEntry → Prop
  | none => ∀ slot, map slot = none
  | some entry => map entry.qpSlot = some entry ∧
      ∀ slot other, map slot = some other → entry.rank ≤ other.rank

def without (map : ℕ → Option TimerEntry) : Option TimerEntry → ℕ → Option TimerEntry
  | none => map
  | some entry => Function.update map entry.qpSlot none

/-- **The root is the least entry of the map.** -/
theorem Valid.peek (h : timers.Valid) (hN : N ≤ nonePosition) :
    LeastOf timers.get timers.peek := by
  unfold TimerHeap.peek
  split_ifs with hempty
  · refine fun slot ↦ Option.eq_none_iff_forall_ne_some.mpr fun entry hget ↦ ?_
    obtain ⟨p, hp, -⟩ := (h.indexed.get_eq_some hN).mp hget
    omega
  · refine ⟨(h.indexed.get_eq_some hN).mpr ⟨0, Nat.pos_of_ne_zero hempty, rfl, rfl⟩, ?_⟩
    intro slot other hget
    obtain ⟨p, hp, rfl, -⟩ := (h.indexed.get_eq_some hN).mp hget
    exact h.ordered.root_le hp

/-- **Popping** returns the least entry and removes it. -/
theorem Valid.pop (h : timers.Valid) (hN : N ≤ nonePosition) :
    timers.pop.1 = timers.peek ∧ timers.pop.2.Holds (without timers.get timers.peek) := by
  unfold TimerHeap.pop TimerHeap.peek
  by_cases hempty : timers.len = 0
  · rw [if_neg (not_not.mpr hempty), if_pos hempty]
    exact ⟨rfl, h.holds⟩
  · rw [if_pos hempty, if_neg hempty]
    exact h.removeAt hN (Nat.pos_of_ne_zero hempty)

/-- **Clearing** removes every entry. -/
theorem Valid.clear (hN : N ≤ nonePosition) (timers : TimerHeap N) (h : timers.Valid) :
    timers.clear.Holds fun _ ↦ none := by
  fun_induction TimerHeap.clear timers with
  | case1 timers entry timers' hpop ih =>
    have hvalid := (h.pop hN).2.valid
    rw [hpop] at hvalid
    exact ih hvalid
  | case2 timers timers' hpop =>
    obtain ⟨hpeek, hholds⟩ := h.pop hN
    have hleast := h.peek hN
    rw [hpop] at hpeek hholds
    rw [← hpeek] at hleast hholds
    refine ⟨hholds.valid, hholds.get.trans (funext hleast)⟩

theorem Valid.len_eq (h : timers.Valid) (hN : N ≤ nonePosition) :
    timers.len = ((Finset.range N).filter fun slot ↦ (timers.get slot).isSome).card := by
  have himage : (Finset.range timers.len).image (fun p ↦ (timers.heap p).qpSlot) =
      (Finset.range N).filter fun slot ↦ (timers.get slot).isSome := by
    ext slot
    simp only [Finset.mem_image, Finset.mem_range, Finset.mem_filter, Option.isSome_iff_exists,
      h.indexed.get_eq_some hN]
    constructor
    · rintro ⟨p, hp, rfl⟩
      exact ⟨h.indexed.slot_lt p hp, _, p, hp, rfl, rfl⟩
    · rintro ⟨-, entry, p, hp, rfl, hslot⟩
      exact ⟨p, hp, hslot⟩
  rw [← himage, Finset.card_image_of_injOn, Finset.card_range]
  intro p hp q hq heq
  exact h.indexed.slot_injective (Finset.mem_range.mp hp) (Finset.mem_range.mp hq) heq

/-! ## Runs -/

/-- A call to the timer scheduler. -/
inductive TimerCall where
  | schedule (entry : TimerEntry)
  | cancel (qpSlot : ℕ)
  | pop
  | popExpired (now : ℕ)
  | clear
  | get (qpSlot : ℕ)
  | peek
  | len
deriving DecidableEq, Repr

/-- What a call returns. -/
inductive TimerReply where
  | accepted (accepted : Bool)
  | entry (entry : Option TimerEntry)
  | count (n : ℕ)
  | done
deriving DecidableEq, Repr

/-- Make a call. -/
def call (timers : TimerHeap N) : TimerCall → TimerReply × TimerHeap N
  | .schedule entry => (timers.schedule entry).map .accepted id
  | .cancel qpSlot => (timers.cancel qpSlot).map .entry id
  | .pop => timers.pop.map .entry id
  | .popExpired now => (timers.popExpired now).map .entry id
  | .clear => (.done, timers.clear)
  | .get qpSlot => (.entry (timers.get qpSlot), timers)
  | .peek => (.entry timers.peek, timers)
  | .len => (.count timers.len, timers)

/-- Make calls one after the other, from an empty scheduler. -/
def run (N : ℕ) (calls : List TimerCall) : List TimerReply × TimerHeap N :=
  calls.foldl
    (fun (replies, timers) next ↦
      let (reply, timers) := timers.call next
      (replies ++ [reply], timers))
    ([], new)

/-- **The abstract scheduler**: what a call returns and does to a map from the slots below `N` to
entries. -/
def MapStep (N : ℕ) (map : ℕ → Option TimerEntry) :
    TimerCall → TimerReply → (ℕ → Option TimerEntry) → Prop
  | .schedule entry, reply, map' =>
    reply = .accepted (decide (entry.qpSlot < N)) ∧
      map' = if entry.qpSlot < N then Function.update map entry.qpSlot (some entry) else map
  | .cancel qpSlot, reply, map' =>
    reply = .entry (map qpSlot) ∧ map' = Function.update map qpSlot none
  | .pop, reply, map' =>
    ∃ least, LeastOf map least ∧ reply = .entry least ∧ map' = without map least
  | .popExpired now, reply, map' =>
    ∃ least, LeastOf map least ∧
      if least.any (·.deadline ≤ now) then reply = .entry least ∧ map' = without map least
      else reply = .entry none ∧ map' = map
  | .clear, reply, map' => reply = .done ∧ map' = fun _ ↦ none
  | .get qpSlot, reply, map' => reply = .entry (map qpSlot) ∧ map' = map
  | .peek, reply, map' => ∃ least, LeastOf map least ∧ reply = .entry least ∧ map' = map
  | .len, reply, map' =>
    reply = .count ((Finset.range N).filter fun slot ↦ (map slot).isSome).card ∧ map' = map

/-- The abstract scheduler may answer the calls with these replies, from the empty map. -/
inductive MapRun (N : ℕ) : List TimerCall → List TimerReply → (ℕ → Option TimerEntry) → Prop
  | /-- Nothing is armed. -/
    nil : MapRun N [] [] fun _ ↦ none
  | /-- One more call. -/
    snoc {calls : List TimerCall} {replies : List TimerReply} {map map' : ℕ → Option TimerEntry}
      {next : TimerCall} {reply : TimerReply} (hrun : MapRun N calls replies map)
      (hstep : MapStep N map next reply map') : MapRun N (calls ++ [next]) (replies ++ [reply]) map'

/-- **One call refines the abstract scheduler.** -/
theorem Valid.call (h : timers.Valid) (hN : N ≤ nonePosition) (next : TimerCall) :
    (timers.call next).2.Valid ∧
      MapStep N timers.get next (timers.call next).1 (timers.call next).2.get := by
  cases next with
  | schedule entry =>
    obtain ⟨haccepted, hholds⟩ := h.schedule hN entry
    exact ⟨hholds.valid, congrArg _ haccepted, hholds.get⟩
  | cancel qpSlot =>
    obtain ⟨hentry, hholds⟩ := h.cancel hN qpSlot
    exact ⟨hholds.valid, congrArg _ hentry, hholds.get⟩
  | pop =>
    obtain ⟨hentry, hholds⟩ := h.pop hN
    exact ⟨hholds.valid, timers.peek, h.peek hN, congrArg _ hentry, hholds.get⟩
  | popExpired now =>
    have hleast := h.peek hN
    obtain ⟨hentry, hholds⟩ := h.pop hN
    simp only [MapStep, TimerHeap.call, popExpired]
    cases hpeek : timers.peek with
    | none =>
      rw [hpeek] at hleast
      exact ⟨h, none, hleast, rfl, rfl⟩
    | some entry =>
      rw [hpeek] at hleast hentry hholds
      dsimp only
      split_ifs with hexpired
      · refine ⟨hholds.valid, some entry, hleast, ?_⟩
        rw [Option.any_some, if_pos (decide_eq_true hexpired)]
        exact ⟨congrArg _ hentry, hholds.get⟩
      · refine ⟨h, some entry, hleast, ?_⟩
        rw [Option.any_some, if_neg (by simpa using hexpired)]
        exact ⟨rfl, rfl⟩
  | clear =>
    have hholds := Valid.clear hN timers h
    exact ⟨hholds.valid, rfl, hholds.get⟩
  | get qpSlot => exact ⟨h, rfl, rfl⟩
  | peek => exact ⟨h, timers.peek, h.peek hN, rfl, rfl⟩
  | len => exact ⟨h, congrArg _ (h.len_eq hN), rfl⟩

/-- **The timer heap refines a map with a minimum**: with at most `2 ^ 32 - 1` slots, after every
sequence of calls the heap is ordered and indexed, and its replies and the entries it holds are
those of the abstract scheduler. -/
theorem timer_heap_refines_map (hN : N ≤ 2 ^ 32 - 1) (calls : List TimerCall) :
    (run N calls).2.Valid ∧ MapRun N calls (run N calls).1 (run N calls).2.get := by
  induction calls using List.reverseRecOn with
  | nil => exact ⟨Valid.new.valid, Valid.new.get ▸ .nil⟩
  | append_singleton calls next ih =>
    obtain ⟨hvalid, hrun⟩ := ih
    obtain ⟨hvalid', hstep⟩ := hvalid.call hN next
    have hlast : run N (calls ++ [next]) =
        ((run N calls).1 ++ [((run N calls).2.call next).1], ((run N calls).2.call next).2) := by
      rw [run, List.foldl_concat]
      rfl
    rw [hlast]
    exact ⟨hvalid', .snoc hrun hstep⟩

theorem timer_heap_refines_map_two_slots :
    (2 : ℕ) ≤ 2 ^ 32 - 1 ∧
      MapRun 2 [.schedule ⟨9, 0, 0, 0⟩, .schedule ⟨5, 1, 0, 0⟩, .pop]
        [.accepted true, .accepted true, .entry (some ⟨5, 1, 0, 0⟩)]
        (run 2 [.schedule ⟨9, 0, 0, 0⟩, .schedule ⟨5, 1, 0, 0⟩, .pop]).2.get := by
  refine ⟨by decide, ?_⟩
  have hrun := (timer_heap_refines_map (by decide : (2 : ℕ) ≤ 2 ^ 32 - 1)
    [.schedule ⟨9, 0, 0, 0⟩, .schedule ⟨5, 1, 0, 0⟩, .pop]).2
  have hreplies : (run 2 [.schedule ⟨9, 0, 0, 0⟩, .schedule ⟨5, 1, 0, 0⟩, .pop]).1 =
      [.accepted true, .accepted true, .entry (some ⟨5, 1, 0, 0⟩)] := by
    decide +kernel
  rwa [hreplies] at hrun

end Rocev2.Core.TimerHeap
