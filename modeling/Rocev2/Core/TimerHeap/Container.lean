import Rocev2.Core.TimerHeap.Refinement

/-!
# The timer heap behind the timer container

The endpoint works with the timer scheduler as a container of at most one entry per slot
(`TimerScheduler`).  The heap is an implementation of it: scheduling, cancelling and popping expired
entries commute with the map of the heap (`toMap`).
-/

namespace Rocev2.Core

/-! ## The least entry of the container -/

namespace TimerScheduler

variable {N : ℕ} {timers : TimerScheduler N}

def LeastAmong (timers : TimerScheduler N) (slots : List (Fin N)) :
    Option (Fin N × TimerEntry) → Prop
  | none => ∀ slot ∈ slots, timers.entries slot = none
  | some (slot, entry) => timers.entries slot = some entry ∧
      ∀ other ∈ slots, ∀ found, timers.entries other = some found → entry ≤ found

/-- **`peek` finds the least entry.** -/
theorem leastAmong_peek (timers : TimerScheduler N) :
    timers.LeastAmong (List.finRange N) timers.peek := by
  unfold peek
  -- by induction on the slots that were visited
  induction List.finRange N using List.reverseRecOn with
  | nil => exact fun _ hslot ↦ absurd hslot List.not_mem_nil
  | append_singleton slots slot ih =>
    rw [List.foldl_concat]
    revert ih
    generalize slots.foldl _ none = least
    intro ih
    -- what the new slot holds decides whether the least entry so far stays
    have hextend {best : Fin N × TimerEntry} (hbest : timers.entries best.1 = some best.2)
        (hold : ∀ other ∈ slots, ∀ found, timers.entries other = some found → best.2 ≤ found)
        (hnew : ∀ found, timers.entries slot = some found → best.2 ≤ found) :
        timers.LeastAmong (slots ++ [slot]) (some best) := by
      refine ⟨hbest, fun other hother ↦ ?_⟩
      rcases List.mem_append.mp hother with hmem | hmem
      · exact hold other hmem
      · rw [List.mem_singleton.mp hmem]
        exact hnew
    cases hslot : timers.entries slot with
    | none =>
      cases least with
      | none => exact List.forall_mem_append.mpr ⟨ih, List.forall_mem_singleton.mpr hslot⟩
      | some best => exact hextend ih.1 ih.2 fun _ hfound ↦ nomatch hslot.symm.trans hfound
    | some entry =>
      cases least with
      | none =>
        refine hextend hslot (fun other hmem _ hfound ↦ ?_) fun _ hfound ↦ ?_
        · exact nomatch (ih other hmem).symm.trans hfound
        · exact (Option.some.inj (hslot.symm.trans hfound)).le
      | some best =>
        obtain ⟨bestSlot, bestEntry⟩ := best
        dsimp only
        split_ifs with hprecedes
        · have hlt := TimerEntry.precedes_iff.mp hprecedes
          refine hextend hslot (fun other hmem found hfound ↦ ?_) fun _ hfound ↦ ?_
          · exact hlt.le.trans (ih.2 other hmem found hfound)
          · exact (Option.some.inj (hslot.symm.trans hfound)).le
        · refine hextend ih.1 ih.2 fun found hfound ↦ ?_
          rw [← Option.some.inj (hslot.symm.trans hfound)]
          exact not_lt.mp fun hlt ↦ hprecedes (TimerEntry.precedes_iff.mpr hlt)

theorem len_lt {slot : Fin N} (h : timers.entries slot = none) : timers.len < N := by
  have hle : timers.len ≤ (List.finRange N).length := List.countP_le_length
  have hne : timers.len ≠ (List.finRange N).length := by
    intro heq
    have hsome := List.countP_eq_length.mp heq slot (List.mem_finRange slot)
    rw [h] at hsome
    cases hsome
  rw [List.length_finRange] at hle hne
  omega

end TimerScheduler

/-! ## The container of a heap -/

namespace TimerHeap

variable {N : ℕ} {timers : TimerHeap N}

/-- The container that a heap implements. -/
def toMap (timers : TimerHeap N) : TimerScheduler N := ⟨fun slot ↦ timers.get slot⟩

theorem Holds.toMap_eq {map : ℕ → Option TimerEntry} (h : timers.Holds map) :
    timers.toMap = ⟨fun slot ↦ map slot⟩ := by
  rw [toMap, h.get]

theorem toMap_update (slot : Fin N) (value : Option TimerEntry) :
    (⟨fun other ↦ Function.update timers.get slot value other⟩ : TimerScheduler N) =
      ⟨Function.update timers.toMap.entries slot value⟩ := by
  refine TimerScheduler.ext (funext fun other ↦ ?_)
  dsimp only
  rcases eq_or_ne other slot with rfl | hne
  · rw [Function.update_self, Function.update_self]
  · rw [Function.update_of_ne hne, Function.update_of_ne (Fin.val_injective.ne hne)]
    rfl

/-- **Scheduling** in the heap is scheduling in the container. -/
theorem Valid.toMap_schedule (h : timers.Valid) (hN : N ≤ nonePosition) (slot : Fin N)
    {entry : TimerEntry} (hslot : entry.qpSlot = slot) :
    (timers.schedule entry).2.toMap = timers.toMap.schedule slot entry := by
  have hholds := (h.schedule hN entry).2
  rw [hslot, if_pos slot.isLt] at hholds
  have hroom : ((timers.toMap.entries slot).isSome ||
      decide (timers.toMap.len < 2 ^ 32 - 1)) = true := by
    cases hentry : timers.toMap.entries slot with
    | none => exact decide_eq_true ((TimerScheduler.len_lt hentry).trans_le hN)
    | some => rfl
  rw [hholds.toMap_eq, toMap_update, TimerScheduler.schedule, if_pos hroom]

/-- **Cancelling** in the heap is cancelling in the container. -/
theorem Valid.toMap_cancel (h : timers.Valid) (hN : N ≤ nonePosition) (slot : Fin N) :
    (timers.cancel slot).2.toMap = timers.toMap.cancel slot := by
  rw [(h.cancel hN slot).2.toMap_eq, toMap_update, TimerScheduler.cancel]

/-- The root of the heap is what the container peeks at. -/
theorem Valid.toMap_peek (h : timers.Valid) (hN : N ≤ nonePosition) :
    timers.toMap.peek.map Prod.snd = timers.peek ∧
      ∀ slot entry, timers.toMap.peek = some (slot, entry) → entry.qpSlot = slot := by
  have hleast := h.peek hN
  have hpeek := timers.toMap.leastAmong_peek
  have hlt {entry : TimerEntry} (hget : timers.get entry.qpSlot = some entry) :
      entry.qpSlot < N := by
    obtain ⟨p, hp, hp', -⟩ := (h.indexed.get_eq_some hN).mp hget
    exact hp' ▸ h.indexed.slot_lt p hp
  refine ⟨?_, fun slot entry hfound ↦ ?_⟩
  · cases hfound : timers.toMap.peek with
    | none =>
      rw [hfound] at hpeek
      cases hroot : timers.peek with
      | none => rfl
      | some root =>
        rw [hroot] at hleast
        have hnone : timers.get root.qpSlot = none :=
          hpeek ⟨root.qpSlot, hlt hleast.1⟩ (List.mem_finRange _)
        exact nomatch hnone.symm.trans hleast.1
    | some found =>
      rw [hfound] at hpeek
      cases hroot : timers.peek with
      | none =>
        rw [hroot] at hleast
        exact nomatch hpeek.1.symm.trans (hleast found.1)
      | some root =>
        rw [hroot] at hleast
        have hge : found.2 ≤ root :=
          hpeek.2 ⟨root.qpSlot, hlt hleast.1⟩ (List.mem_finRange _) root hleast.1
        exact congrArg some (le_antisymm hge (hleast.2 found.1 found.2 hpeek.1))
  · rw [hfound] at hpeek
    obtain ⟨_, _, -, hslot⟩ := (h.indexed.get_eq_some hN).mp hpeek.1
    exact hslot

/-- **Popping an expired entry** from the heap is popping it from the container. -/
theorem Valid.toMap_popExpired (h : timers.Valid) (hN : N ≤ nonePosition) (now : ℕ) :
    match timers.toMap.popExpired now with
    | some (slot, entry, timers') =>
      (timers.popExpired now).1 = some entry ∧ entry.qpSlot = slot ∧
        (timers.popExpired now).2.toMap = timers'
    | none => timers.popExpired now = (none, timers) := by
  obtain ⟨hpeek, hslots⟩ := h.toMap_peek hN
  obtain ⟨hentry, hholds⟩ := h.pop hN
  unfold TimerScheduler.popExpired popExpired
  cases hfound : timers.toMap.peek with
  | none =>
    rw [hfound] at hpeek
    rw [← hpeek]
    rfl
  | some found =>
    obtain ⟨slot, entry⟩ := found
    rw [hfound] at hpeek
    rw [← hpeek] at hentry hholds ⊢
    dsimp only [Option.map_some]
    split_ifs with hexpired
    · have hslot := hslots slot entry hfound
      refine ⟨hentry, hslot, ?_⟩
      rw [hholds.toMap_eq, Option.map_some, without, hslot, toMap_update, TimerScheduler.cancel]
    · rfl

end TimerHeap

end Rocev2.Core
