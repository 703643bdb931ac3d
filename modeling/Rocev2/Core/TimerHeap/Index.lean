import Rocev2.Core.TimerHeap

/-!
# The position index of the timer heap

The positions are the inverse of the slots of the heap (`Indexed`), which makes the array a map from
slots to entries (`get_eq_some`).  An exchange of two entries keeps the index and the map, so the
two sifts rearrange the heap (`Rearranges`) until it is ordered.
-/

namespace Rocev2.Core.TimerHeap

open Lib

variable {N : ℕ} {timers timers' : TimerHeap N}

/-! ## The position index -/

/-- The positions are the inverse of the slots of the heap. -/
structure Indexed (timers : TimerHeap N) : Prop where
  /-- The heap fits the array. -/
  len_le : timers.len ≤ N
  /-- Every entry is that of a slot. -/
  slot_lt : ∀ p < timers.len, (timers.heap p).qpSlot < N
  /-- The position of an entry's slot is that of the entry. -/
  position : ∀ p < timers.len, timers.positions (timers.heap p).qpSlot = p
  /-- The other slots have no position. -/
  unarmed : ∀ slot < N, (∀ p < timers.len, (timers.heap p).qpSlot ≠ slot) →
    timers.positions slot = nonePosition

theorem Indexed.slot_injective (h : timers.Indexed) {p q : ℕ} (hp : p < timers.len)
    (hq : q < timers.len) (heq : (timers.heap p).qpSlot = (timers.heap q).qpSlot) : p = q := by
  rw [← h.position p hp, heq, h.position q hq]

theorem Indexed.armed (h : timers.Indexed) {slot : ℕ} (hslot : slot < N)
    (hposition : timers.positions slot ≠ nonePosition) :
    timers.positions slot < timers.len ∧ (timers.heap (timers.positions slot)).qpSlot = slot := by
  obtain ⟨p, hp, rfl⟩ : ∃ p < timers.len, (timers.heap p).qpSlot = slot := by
    by_contra hno
    exact hposition (h.unarmed slot hslot fun p hp heq ↦ hno ⟨p, hp, heq⟩)
  rw [h.position p hp]
  exact ⟨hp, rfl⟩

/-- **What a slot holds** is what stands in the heap. -/
theorem Indexed.get_eq_some (h : timers.Indexed) (hN : N ≤ nonePosition) {slot : ℕ}
    {entry : TimerEntry} :
    timers.get slot = some entry ↔
      ∃ p < timers.len, timers.heap p = entry ∧ entry.qpSlot = slot := by
  have hlen := h.len_le
  constructor
  · intro hget
    unfold get at hget
    dsimp only at hget
    split_ifs at hget with hslot hnone hpos
    have hentry := Option.some.inj hget
    exact ⟨_, hpos, hentry, hentry ▸ (h.armed hslot hnone).2⟩
  · rintro ⟨p, hp, rfl, rfl⟩
    have hposition := h.position p hp
    unfold get
    dsimp only
    rw [if_pos (h.slot_lt p hp), hposition, if_neg (by omega), if_pos hp]

theorem Indexed.get_congr (h : timers.Indexed) (h' : timers'.Indexed) (hN : N ≤ nonePosition)
    (hsame : ∀ entry, (∃ p < timers'.len, timers'.heap p = entry) ↔
      ∃ p < timers.len, timers.heap p = entry) (slot : ℕ) :
    timers'.get slot = timers.get slot := by
  refine Option.ext fun entry ↦ ?_
  rw [h'.get_eq_some hN, h.get_eq_some hN]
  constructor
  · rintro ⟨p, hp, hentry, hslot⟩
    obtain ⟨q, hq, hq'⟩ := (hsame entry).mp ⟨p, hp, hentry⟩
    exact ⟨q, hq, hq', hslot⟩
  · rintro ⟨p, hp, hentry, hslot⟩
    obtain ⟨q, hq, hq'⟩ := (hsame entry).mpr ⟨p, hp, hentry⟩
    exact ⟨q, hq, hq', hslot⟩

/-! ## Rearranging the heap -/

/-- The entries were moved within the heap. -/
structure Rearranges (timers timers' : TimerHeap N) : Prop where
  indexed : timers'.Indexed
  len : timers'.len = timers.len
  get : ∀ slot, timers'.get slot = timers.get slot

theorem Rearranges.trans {timers'' : TimerHeap N} (h : timers.Rearranges timers')
    (h' : timers'.Rearranges timers'') : timers.Rearranges timers'' :=
  ⟨h'.indexed, h'.len.trans h.len, fun slot ↦ (h'.get slot).trans (h.get slot)⟩

theorem positions_setPosition {entry : TimerEntry} {position : ℕ}
    (hposition : position < nonePosition) (hslot : entry.qpSlot < N) :
    (timers.setPosition entry position).positions =
      Function.update timers.positions entry.qpSlot position := by
  have hnone : nonePosition = 2 ^ 32 - 1 := rfl
  rw [setPosition, if_neg (by omega), if_neg hposition.ne, if_pos hslot]

theorem Indexed.positions_swapEntries (h : timers.Indexed) (hN : N ≤ nonePosition) {i j : ℕ}
    (hi : i < timers.len) (hj : j < timers.len) :
    (timers.swapEntries i j).positions =
      Function.update (Function.update timers.positions (timers.heap j).qpSlot i)
        (timers.heap i).qpSlot j := by
  have hlen := h.len_le
  rw [swapEntries]
  dsimp only
  rw [positions_setPosition (by omega), positions_setPosition (by omega)]
  · simp only [heap_setPosition, BinaryHeap.exchange_left, BinaryHeap.exchange_right]
  · rw [BinaryHeap.exchange_left]
    exact h.slot_lt j hj
  · simp only [heap_setPosition, BinaryHeap.exchange_right]
    exact h.slot_lt i hi

theorem swap_lt {n i j p : ℕ} (hi : i < n) (hj : j < n) (hp : p < n) : Equiv.swap i j p < n := by
  rw [Equiv.swap_apply_def]
  split_ifs
  · exact hj
  · exact hi
  · exact hp

/-- **An exchange rearranges the heap.** -/
theorem Indexed.swapEntries (h : timers.Indexed) (hN : N ≤ nonePosition) {i j : ℕ}
    (hi : i < timers.len) (hj : j < timers.len) :
    timers.Rearranges (timers.swapEntries i j) := by
  have hindexed : (timers.swapEntries i j).Indexed := by
    constructor
    · rw [len_swapEntries]
      exact h.len_le
    · intro p hp
      rw [len_swapEntries] at hp
      rw [heap_swapEntries]
      exact h.slot_lt _ (swap_lt hi hj hp)
    · intro p hp
      rw [len_swapEntries] at hp
      rw [heap_swapEntries, h.positions_swapEntries hN hi hj]
      rcases eq_or_ne p j with rfl | hpj
      · rw [BinaryHeap.exchange_right, Function.update_self]
      rcases eq_or_ne p i with rfl | hpi
      · have hne : (timers.heap j).qpSlot ≠ (timers.heap p).qpSlot :=
          fun heq ↦ hpj (h.slot_injective hj hp heq).symm
        rw [BinaryHeap.exchange_left, Function.update_of_ne hne, Function.update_self]
      · rw [BinaryHeap.exchange_of_ne _ hpi hpj,
          Function.update_of_ne fun heq ↦ hpi (h.slot_injective hp hi heq),
          Function.update_of_ne fun heq ↦ hpj (h.slot_injective hp hj heq)]
        exact h.position p hp
    · intro slot hslot hnone
      rw [len_swapEntries, heap_swapEntries] at hnone
      have hold : ∀ p < timers.len, (timers.heap p).qpSlot ≠ slot := by
        intro p hp heq
        refine hnone (Equiv.swap i j p) (swap_lt hi hj hp) ?_
        rw [BinaryHeap.exchange, Equiv.swap_apply_self]
        exact heq
      rw [h.positions_swapEntries hN hi hj, Function.update_of_ne (hold i hi).symm,
        Function.update_of_ne (hold j hj).symm]
      exact h.unarmed slot hslot hold
  refine ⟨hindexed, len_swapEntries _ _ _, h.get_congr hindexed hN fun entry ↦ ?_⟩
  rw [len_swapEntries, heap_swapEntries]
  constructor
  · rintro ⟨p, hp, hentry⟩
    exact ⟨_, swap_lt hi hj hp, hentry⟩
  · rintro ⟨p, hp, hentry⟩
    refine ⟨Equiv.swap i j p, swap_lt hi hj hp, ?_⟩
    rw [BinaryHeap.exchange, Equiv.swap_apply_self]
    exact hentry

/-! ## The sifts -/

theorem entryPrecedes_iff {left right : ℕ} :
    timers.entryPrecedes left right = true ↔ timers.heap left < timers.heap right :=
  TimerEntry.precedes_iff

/-- **Sifting up repairs the order** towards the root. -/
theorem Indexed.siftUp (hN : N ≤ nonePosition) (timers : TimerHeap N) (position : ℕ)
    (h : timers.Indexed) (hposition : position < timers.len)
    (horder : BinaryHeap.UpOrder timers.heap timers.len position) :
    timers.Rearranges (timers.siftUp position) ∧
      BinaryHeap.Ordered (timers.siftUp position).heap timers.len := by
  fun_induction TimerHeap.siftUp timers position with
  | case1 timers =>
    exact ⟨⟨h, rfl, fun _ ↦ rfl⟩, horder.finish fun hpos ↦ absurd hpos (lt_irrefl 0)⟩
  | case2 timers position hpos parent hstop =>
    refine ⟨⟨h, rfl, fun _ ↦ rfl⟩, horder.finish fun _ hlt ↦ ?_⟩
    rw [Bool.not_eq_true'] at hstop
    exact Bool.noConfusion (hstop.symm.trans (entryPrecedes_iff.mpr hlt))
  | case3 timers position hpos parent hprecedes ih =>
    have hlt : timers.heap position < timers.heap (BinaryHeap.parent position) := by
      rw [Bool.not_eq_true, Bool.not_eq_false'] at hprecedes
      exact entryPrecedes_iff.mp hprecedes
    have hpos' : 0 < position := Nat.pos_of_ne_zero hpos
    have hparent : parent < timers.len := (BinaryHeap.parent_lt hpos').trans hposition
    have hswap := h.swapEntries hN hposition hparent
    have horder' := horder.step hpos' hposition hlt
    obtain ⟨hrearranges, hordered⟩ := ih hswap.indexed (hswap.len.symm ▸ hparent) (by
      rw [heap_swapEntries, len_swapEntries]
      exact horder')
    rw [len_swapEntries] at hordered
    exact ⟨hswap.trans hrearranges, hordered⟩

theorem leastChild_le {position : ℕ} (i : ℕ) (hi : 0 < i) (hin : i < timers.len)
    (hchild : BinaryHeap.parent i = position) :
    timers.heap (timers.leastChild position) ≤ timers.heap i := by
  unfold leastChild
  dsimp only
  rcases BinaryHeap.eq_child_of_parent hi hchild with rfl | rfl
  · split_ifs with hright
    · exact (entryPrecedes_iff.mp (Bool.and_eq_true_iff.mp hright).2).le
    · exact le_rfl
  · split_ifs with hright
    · exact le_rfl
    · refine not_lt.mp fun hlt ↦ hright ?_
      exact Bool.and_eq_true_iff.mpr ⟨decide_eq_true hin, entryPrecedes_iff.mpr hlt⟩

/-- **Sifting down repairs the order** towards the leaves. -/
theorem Indexed.siftDown (hN : N ≤ nonePosition) (timers : TimerHeap N) (position : ℕ)
    (h : timers.Indexed) (hposition : position < timers.len)
    (horder : BinaryHeap.DownOrder timers.heap timers.len position) :
    timers.Rearranges (timers.siftDown position) ∧
      BinaryHeap.Ordered (timers.siftDown position).heap timers.len := by
  fun_induction TimerHeap.siftDown timers position with
  | case1 timers position hleft =>
    refine ⟨⟨h, rfl, fun _ ↦ rfl⟩, horder.finish fun i hi hin hchild ↦ ?_⟩
    have := BinaryHeap.eq_child_of_parent hi hchild
    omega
  | case2 timers position hleft child hstop =>
    refine ⟨⟨h, rfl, fun _ ↦ rfl⟩, horder.finish fun i hi hin hchild ↦ ?_⟩
    refine le_trans (not_lt.mp fun hlt ↦ ?_) (leastChild_le i hi hin hchild)
    rw [Bool.not_eq_true'] at hstop
    exact Bool.noConfusion (hstop.symm.trans (entryPrecedes_iff.mpr hlt))
  | case3 timers position hleft child hprecedes ih =>
    have hlt : timers.heap child < timers.heap position := by
      rw [Bool.not_eq_true, Bool.not_eq_false'] at hprecedes
      exact entryPrecedes_iff.mp hprecedes
    obtain ⟨hparent, hbehind, hchild⟩ := leastChild_bounds hleft
    have hswap := h.swapEntries hN hposition hchild
    have horder' := horder.step (Nat.zero_lt_of_lt hbehind) hchild hparent leastChild_le hlt
    obtain ⟨hrearranges, hordered⟩ := ih hswap.indexed (hswap.len.symm ▸ hchild) (by
      rw [heap_swapEntries, len_swapEntries]
      exact horder')
    rw [len_swapEntries] at hordered
    exact ⟨hswap.trans hrearranges, hordered⟩

end Rocev2.Core.TimerHeap
