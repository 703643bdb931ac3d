import Rocev2.Core.TimerHeap.Index

/-!
# Updates of the timer heap

`schedule`, `removeAt` and `cancel` keep the positions and the order of the timer heap (`Valid`) and
change the map of armed entries at one slot.  Each breaks the order at one position, by replacing
the entry there, and lets a sift repair it.
-/

namespace Rocev2.Core.TimerHeap

open Lib

variable {N : ℕ} {timers timers' : TimerHeap N} {p : ℕ}

/-! ## Validity -/

/-- The invariant of the timer heap. -/
structure Valid (timers : TimerHeap N) : Prop where
  /-- The positions are the inverse of the slots. -/
  indexed : timers.Indexed
  /-- The heap is ordered. -/
  ordered : BinaryHeap.Ordered timers.heap timers.len

/-- The heap is valid and holds the map. -/
structure Holds (timers : TimerHeap N) (map : ℕ → Option TimerEntry) : Prop where
  valid : timers.Valid
  get : timers.get = map

theorem Valid.holds (h : timers.Valid) : timers.Holds timers.get := ⟨h, rfl⟩

theorem Valid.new : (new : TimerHeap N).Holds fun _ ↦ none := by
  refine ⟨⟨⟨Nat.zero_le N, nofun, nofun, fun _ _ _ ↦ rfl⟩, nofun⟩, ?_⟩
  funext slot
  unfold TimerHeap.get
  split_ifs
  · rfl
  · rfl

theorem Rearranges.holds (h : timers.Rearranges timers')
    (hordered : BinaryHeap.Ordered timers'.heap timers.len) : timers'.Holds timers.get :=
  ⟨⟨h.indexed, h.len.symm ▸ hordered⟩, funext h.get⟩

theorem Indexed.len_lt (h : timers.Indexed) {slot : ℕ} (hslot : slot < N)
    (hfree : ∀ p < timers.len, (timers.heap p).qpSlot ≠ slot) : timers.len < N := by
  have hmaps : Set.MapsTo (fun p ↦ (timers.heap p).qpSlot) (Finset.range timers.len)
      ((Finset.range N).erase slot) := by
    intro p hp
    have hp' := Finset.mem_range.mp hp
    exact Finset.mem_erase.mpr ⟨hfree p hp', Finset.mem_range.mpr (h.slot_lt p hp')⟩
  have hinj : Set.InjOn (fun p ↦ (timers.heap p).qpSlot) (Finset.range timers.len) :=
    fun p hp q hq heq ↦
      h.slot_injective (Finset.mem_range.mp hp) (Finset.mem_range.mp hq) heq
  have hcard := Finset.card_le_card_of_injOn _ hmaps hinj
  rw [Finset.card_range, Finset.card_erase_of_mem (Finset.mem_range.mpr hslot),
    Finset.card_range] at hcard
  omega

/-! ## Scheduling -/

/-- A heap that differs from another in the entry of one slot holds the updated map. -/
theorem Indexed.get_update (h : timers.Indexed) (h' : timers'.Indexed) (hN : N ≤ nonePosition)
    {slot : ℕ} {value : Option TimerEntry} (hself : timers'.get slot = value)
    (hothers : ∀ found : TimerEntry, found.qpSlot ≠ slot →
      ((∃ q < timers'.len, timers'.heap q = found) ↔ ∃ q < timers.len, timers.heap q = found)) :
    timers'.get = Function.update timers.get slot value := by
  refine (Function.update_eq_iff.mpr ⟨hself.symm, fun other hne ↦ Option.ext fun found ↦ ?_⟩).symm
  rw [h'.get_eq_some hN, h.get_eq_some hN]
  constructor
  · rintro ⟨q, hq, hfound, rfl⟩
    obtain ⟨r, hr, hr'⟩ := (hothers found hne).mpr ⟨q, hq, hfound⟩
    exact ⟨r, hr, hr', rfl⟩
  · rintro ⟨q, hq, hfound, rfl⟩
    obtain ⟨r, hr, hr'⟩ := (hothers found hne).mp ⟨q, hq, hfound⟩
    exact ⟨r, hr, hr', rfl⟩

theorem Indexed.replace (h : timers.Indexed) (hN : N ≤ nonePosition) (hp : p < timers.len)
    {entry : TimerEntry} (hslot : (timers.heap p).qpSlot = entry.qpSlot) :
    ({ timers with heap := Function.update timers.heap p entry } : TimerHeap N).Indexed ∧
      ({ timers with heap := Function.update timers.heap p entry } : TimerHeap N).get =
        Function.update timers.get entry.qpSlot (some entry) := by
  have hslots (q : ℕ) :
      (Function.update timers.heap p entry q).qpSlot = (timers.heap q).qpSlot := by
    rcases eq_or_ne q p with rfl | hq
    · rw [Function.update_self, hslot]
    · rw [Function.update_of_ne hq]
  have hindexed : ({ timers with heap := Function.update timers.heap p entry } :
      TimerHeap N).Indexed := by
    refine ⟨h.len_le, ?_, ?_, ?_⟩
    · intro q hq
      rw [hslots]
      exact h.slot_lt q hq
    · intro q hq
      rw [hslots]
      exact h.position q hq
    · intro slot hlt hnone
      exact h.unarmed slot hlt fun q hq ↦ hslots q ▸ hnone q hq
  refine ⟨hindexed, h.get_update hindexed hN ((hindexed.get_eq_some hN).mpr
    ⟨p, hp, Function.update_self p entry timers.heap, rfl⟩) fun found hne ↦ ⟨?_, ?_⟩⟩
  · rintro ⟨q, hq, rfl⟩
    have hqp : q ≠ p := by
      rintro rfl
      exact hne (congrArg _ (Function.update_self q entry timers.heap))
    exact ⟨q, hq, (Function.update_of_ne hqp entry timers.heap).symm⟩
  · rintro ⟨q, hq, rfl⟩
    have hqp : q ≠ p := by
      rintro rfl
      exact hne hslot
    exact ⟨q, hq, Function.update_of_ne hqp entry timers.heap⟩

theorem Indexed.append (h : timers.Indexed) (hN : N ≤ nonePosition) {entry : TimerEntry}
    (hslot : entry.qpSlot < N)
    (hfree : ∀ p < timers.len, (timers.heap p).qpSlot ≠ entry.qpSlot) :
    (⟨Function.update timers.heap timers.len entry,
        Function.update timers.positions entry.qpSlot timers.len, timers.len + 1⟩ :
        TimerHeap N).Indexed ∧
      (⟨Function.update timers.heap timers.len entry,
        Function.update timers.positions entry.qpSlot timers.len, timers.len + 1⟩ :
        TimerHeap N).get = Function.update timers.get entry.qpSlot (some entry) := by
  have hold (q : ℕ) (hq : q < timers.len) :
      Function.update timers.heap timers.len entry q = timers.heap q :=
    Function.update_of_ne hq.ne _ _
  have hindexed : (⟨Function.update timers.heap timers.len entry,
      Function.update timers.positions entry.qpSlot timers.len, timers.len + 1⟩ :
      TimerHeap N).Indexed := by
    refine ⟨h.len_lt hslot hfree, ?_, ?_, ?_⟩
    · intro q hq
      dsimp only
      rcases Nat.lt_succ_iff_lt_or_eq.mp hq with hlt | rfl
      · rw [hold q hlt]
        exact h.slot_lt q hlt
      · rw [Function.update_self]
        exact hslot
    · intro q hq
      dsimp only
      rcases Nat.lt_succ_iff_lt_or_eq.mp hq with hlt | rfl
      · rw [hold q hlt, Function.update_of_ne (hfree q hlt)]
        exact h.position q hlt
      · rw [Function.update_self, Function.update_self]
    · intro slot hlt hnone
      dsimp only at hnone ⊢
      have hne : slot ≠ entry.qpSlot := by
        have := hnone timers.len (Nat.lt_succ_self _)
        rw [Function.update_self] at this
        exact this.symm
      rw [Function.update_of_ne hne]
      exact h.unarmed slot hlt fun q hq ↦ hold q hq ▸ hnone q (hq.trans (Nat.lt_succ_self _))
  refine ⟨hindexed, h.get_update hindexed hN ((hindexed.get_eq_some hN).mpr
    ⟨timers.len, Nat.lt_succ_self _, Function.update_self .., rfl⟩) fun found hne ↦ ⟨?_, ?_⟩⟩
  · rintro ⟨q, hq, hfound⟩
    rcases Nat.lt_succ_iff_lt_or_eq.mp hq with hlt | rfl
    · exact ⟨q, hlt, (hold q hlt).symm.trans hfound⟩
    · have hentry := Function.update_self timers.len entry timers.heap
      exact absurd (congrArg _ (hfound.symm.trans hentry)) hne
  · rintro ⟨q, hq, hfound⟩
    exact ⟨q, hq.trans (Nat.lt_succ_self _), (hold q hq).trans hfound⟩

/-- **Scheduling inserts or replaces**, and succeeds for every slot. -/
theorem Valid.schedule (h : timers.Valid) (hN : N ≤ nonePosition) (entry : TimerEntry) :
    (timers.schedule entry).1 = decide (entry.qpSlot < N) ∧
      (timers.schedule entry).2.Holds
        (if entry.qpSlot < N then Function.update timers.get entry.qpSlot (some entry)
          else timers.get) := by
  unfold TimerHeap.schedule
  by_cases hslot : entry.qpSlot < N
  · rw [if_pos hslot, if_pos hslot, decide_eq_true hslot]
    dsimp only
    by_cases harmed : timers.positions entry.qpSlot ≠ nonePosition
    · obtain ⟨hposition, hentry⟩ := h.indexed.armed hslot harmed
      obtain ⟨hindexed, hget⟩ := h.indexed.replace hN hposition hentry
      rw [if_pos harmed, if_neg (Nat.not_le.mpr hposition), ← hget]
      split_ifs with hbefore hafter
      · have hup := h.ordered.update_up (TimerEntry.precedes_iff.mp hbefore).le
        obtain ⟨hrearranges, hordered⟩ := Indexed.siftUp hN _ _ hindexed hposition hup
        exact ⟨rfl, hrearranges.holds hordered⟩
      · have hdown : BinaryHeap.DownOrder _ timers.len _ := h.ordered.update_down fun hpos ↦
          (h.ordered _ hpos hposition).trans (TimerEntry.precedes_iff.mp hafter).le
        obtain ⟨hrearranges, hordered⟩ := Indexed.siftDown hN _ _ hindexed hposition hdown
        exact ⟨rfl, hrearranges.holds hordered⟩
      · -- the entry is the one it replaces
        have hsame : entry = timers.heap (timers.positions entry.qpSlot) := by
          rw [TimerEntry.precedes_iff] at hbefore hafter
          exact le_antisymm (not_lt.mp hafter) (not_lt.mp hbefore)
        refine ⟨rfl, ⟨hindexed, ?_⟩, rfl⟩
        have hheap : Function.update timers.heap (timers.positions entry.qpSlot) entry =
            timers.heap :=
          Function.update_eq_self_iff.mpr hsame
        exact hheap.symm ▸ h.ordered
    · rw [not_not] at harmed
      have hnone : nonePosition = 2 ^ 32 - 1 := rfl
      have hlen := h.indexed.len_le
      have hfree : ∀ p < timers.len, (timers.heap p).qpSlot ≠ entry.qpSlot := by
        intro p hp heq
        have hposition := h.indexed.position p hp
        rw [heq, harmed] at hposition
        omega
      have hroom := h.indexed.len_lt hslot hfree
      obtain ⟨hindexed, hget⟩ := h.indexed.append hN hslot hfree
      rw [if_neg (not_not.mpr harmed), if_neg hroom.ne, if_neg (by omega), if_neg (by omega),
        ← hget, Nat.add_sub_cancel]
      obtain ⟨hrearranges, hordered⟩ :=
        Indexed.siftUp hN _ _ hindexed (Nat.lt_succ_self _) (h.ordered.append entry)
      exact ⟨rfl, hrearranges.holds hordered⟩
  · rw [if_neg hslot, if_neg hslot, decide_eq_false hslot]
    exact ⟨rfl, h.holds⟩

/-! ## Removal -/

/-- The heap before its order is repaired: the last entry stands at the position of the removed
one, which has no position any more. -/
def detach (timers : TimerHeap N) (position : ℕ) : TimerHeap N :=
  { heap := Function.update (Function.update timers.heap (timers.len - 1) .empty) position
      (timers.heap (timers.len - 1))
    positions := Function.update
      (Function.update timers.positions (timers.heap position).qpSlot nonePosition)
      (timers.heap (timers.len - 1)).qpSlot position
    len := timers.len - 1 }

theorem heap_detach {position q : ℕ} (hq : q < timers.len - 1) :
    (timers.detach position).heap q =
      if q = position then timers.heap (timers.len - 1) else timers.heap q := by
  rw [detach]
  dsimp only
  split_ifs with heq
  · rw [heq, Function.update_self]
  · rw [Function.update_of_ne heq, Function.update_of_ne hq.ne]

/-- A heap with all entries but one holds the map without that entry's slot. -/
theorem Indexed.get_remove (h : timers.Indexed) (h' : timers'.Indexed) (hN : N ≤ nonePosition)
    (hp : p < timers.len) (hsame : ∀ entry, (∃ q < timers'.len, timers'.heap q = entry) ↔
      ∃ q < timers.len, q ≠ p ∧ timers.heap q = entry) :
    timers'.get = Function.update timers.get (timers.heap p).qpSlot none := by
  refine h.get_update h' hN ?_ fun found hne ↦ (hsame found).trans ⟨?_, ?_⟩
  · rw [Option.eq_none_iff_forall_ne_some]
    intro found hfound
    obtain ⟨q, hq, hentry, hslot⟩ := (h'.get_eq_some hN).mp hfound
    obtain ⟨r, hr, hrp, rfl⟩ := (hsame found).mp ⟨q, hq, hentry⟩
    exact hrp (h.slot_injective hr hp hslot)
  · rintro ⟨q, hq, -, hentry⟩
    exact ⟨q, hq, hentry⟩
  · rintro ⟨q, hq, rfl⟩
    exact ⟨q, hq, fun heq ↦ hne (by rw [heq]), rfl⟩

theorem Valid.removeLast (h : timers.Valid) (hN : N ≤ nonePosition) (hp : p + 1 = timers.len) :
    (⟨Function.update timers.heap p .empty,
      Function.update timers.positions (timers.heap p).qpSlot nonePosition, p⟩ :
      TimerHeap N).Holds (Function.update timers.get (timers.heap p).qpSlot none) := by
  have hold (q : ℕ) (hq : q < p) : Function.update timers.heap p .empty q = timers.heap q :=
    Function.update_of_ne hq.ne _ _
  have hlen := h.indexed.len_le
  have hindexed : (⟨Function.update timers.heap p .empty,
      Function.update timers.positions (timers.heap p).qpSlot nonePosition, p⟩ :
      TimerHeap N).Indexed := by
    refine ⟨by dsimp only; omega, ?_, ?_, ?_⟩
    · intro q hq
      dsimp only at hq ⊢
      rw [hold q hq]
      exact h.indexed.slot_lt q (by omega)
    · intro q hq
      dsimp only at hq ⊢
      have hne : (timers.heap q).qpSlot ≠ (timers.heap p).qpSlot := fun heq ↦
        hq.ne (h.indexed.slot_injective (by omega) (by omega) heq)
      rw [hold q hq, Function.update_of_ne hne]
      exact h.indexed.position q (by omega)
    · intro slot hslot hnone
      dsimp only at hnone ⊢
      rcases eq_or_ne slot (timers.heap p).qpSlot with rfl | hne
      · rw [Function.update_self]
      · rw [Function.update_of_ne hne]
        refine h.indexed.unarmed slot hslot fun q hq ↦ ?_
        rcases Nat.lt_or_eq_of_le (by omega : q ≤ p) with hlt | rfl
        · exact hold q hlt ▸ hnone q hlt
        · exact hne.symm
  refine ⟨⟨hindexed, (h.ordered.mono (by change p ≤ timers.len; omega)).congr hold⟩,
    h.indexed.get_remove hindexed hN (by omega) fun entry ↦ ?_⟩
  constructor
  · rintro ⟨q, hq, hentry⟩
    exact ⟨q, by dsimp only at hq; omega, hq.ne, hold q hq ▸ hentry⟩
  · rintro ⟨q, hq, hqp, hentry⟩
    have hlt : q < p := by omega
    exact ⟨q, hlt, (hold q hlt).trans hentry⟩

/-- The last entry takes the place of the removed one. -/
theorem Indexed.detach (h : timers.Indexed) (hN : N ≤ nonePosition) (hp : p < timers.len - 1) :
    (timers.detach p).Indexed ∧
      (timers.detach p).get = Function.update timers.get (timers.heap p).qpSlot none := by
  have hlen := h.len_le
  have hlast : timers.len - 1 < timers.len := by omega
  have hpositions : (timers.detach p).positions = Function.update
      (Function.update timers.positions (timers.heap p).qpSlot nonePosition)
      (timers.heap (timers.len - 1)).qpSlot p := rfl
  have hindexed : (timers.detach p).Indexed := by
    refine ⟨by change timers.len - 1 ≤ N; omega, ?_, ?_, ?_⟩
    · intro q hq
      rw [heap_detach hq]
      split_ifs
      · exact h.slot_lt _ hlast
      · exact h.slot_lt q (Nat.lt_of_lt_pred hq)
    · intro q hq
      have hq' : q < timers.len := Nat.lt_of_lt_pred hq
      rw [heap_detach hq, hpositions]
      split_ifs with heq
      · rw [Function.update_self, heq]
      · have hmoved : (timers.heap q).qpSlot ≠ (timers.heap (timers.len - 1)).qpSlot := fun hs ↦
          (Nat.ne_of_lt hq) (h.slot_injective hq' hlast hs)
        have hremoved : (timers.heap q).qpSlot ≠ (timers.heap p).qpSlot := fun hs ↦
          heq (h.slot_injective hq' (by omega) hs)
        rw [Function.update_of_ne hmoved, Function.update_of_ne hremoved]
        exact h.position q hq'
    · intro slot hslot hnone
      have hmoved : slot ≠ (timers.heap (timers.len - 1)).qpSlot := by
        have := hnone p hp
        rw [heap_detach hp, if_pos rfl] at this
        exact this.symm
      rw [hpositions, Function.update_of_ne hmoved]
      rcases eq_or_ne slot (timers.heap p).qpSlot with rfl | hne
      · rw [Function.update_self]
      · rw [Function.update_of_ne hne]
        refine h.unarmed slot hslot fun q hq ↦ ?_
        rcases Nat.lt_or_eq_of_le (by omega : q ≤ timers.len - 1) with hlt | rfl
        · rcases eq_or_ne q p with rfl | hqp
          · exact hne.symm
          · have := hnone q hlt
            rwa [heap_detach hlt, if_neg hqp] at this
        · exact hmoved.symm
  refine ⟨hindexed, h.get_remove hindexed hN (by omega) fun entry ↦ ?_⟩
  constructor
  · rintro ⟨q, hq, hentry⟩
    rw [heap_detach hq] at hentry
    split_ifs at hentry with heq
    · exact ⟨_, hlast, by omega, hentry⟩
    · exact ⟨q, Nat.lt_of_lt_pred hq, heq, hentry⟩
  · rintro ⟨q, hq, hqp, hentry⟩
    rcases Nat.lt_or_eq_of_le (by omega : q ≤ timers.len - 1) with hlt | rfl
    · exact ⟨q, hlt, by rw [heap_detach hlt, if_neg hqp, hentry]⟩
    · exact ⟨p, hp, by rw [heap_detach hp, if_pos rfl, hentry]⟩

/-- **Removal at any position** returns the entry there and removes its slot from the map. -/
theorem Valid.removeAt (h : timers.Valid) (hN : N ≤ nonePosition) (hp : p < timers.len) :
    (timers.removeAt p).1 = some (timers.heap p) ∧
      (timers.removeAt p).2.Holds
        (Function.update timers.get (timers.heap p).qpSlot none) := by
  have hslot := h.indexed.slot_lt p hp
  have hlen := h.indexed.len_le
  unfold TimerHeap.removeAt
  rw [if_neg (Nat.not_le.mpr hp)]
  dsimp only
  rw [if_pos hslot]
  by_cases hlast : p = timers.len - 1
  · rw [if_pos hlast]
    refine ⟨rfl, ?_⟩
    have hremove := h.removeLast hN (by omega : p + 1 = timers.len)
    rw [← hlast]
    exact hremove
  · have hp' : p < timers.len - 1 := by omega
    obtain ⟨hindexed, hget⟩ := h.indexed.detach hN hp'
    have hdetach : (⟨Function.update (Function.update timers.heap (timers.len - 1) .empty) p
          (timers.heap (timers.len - 1)),
        Function.update timers.positions (timers.heap p).qpSlot nonePosition, timers.len - 1⟩ :
        TimerHeap N).setPosition (timers.heap (timers.len - 1)) p = timers.detach p := by
      have hnone : nonePosition = 2 ^ 32 - 1 := rfl
      rw [setPosition, if_neg (by omega), if_neg (by omega),
        if_pos (h.indexed.slot_lt _ (by omega))]
      rfl
    have hordered : BinaryHeap.Ordered
        (Function.update timers.heap (timers.len - 1) .empty) (timers.len - 1) :=
      (h.ordered.mono (Nat.sub_le _ _)).congr fun q hq ↦ Function.update_of_ne hq.ne _ _
    have hheap : (timers.detach p).heap =
        Function.update (Function.update timers.heap (timers.len - 1) .empty) p
          (timers.heap (timers.len - 1)) := rfl
    have hsmaller (hpos : 0 < p) : (timers.detach p).entryPrecedes p ((p - 1) / 2) = true ↔
        timers.heap (timers.len - 1) <
          Function.update timers.heap (timers.len - 1) .empty (BinaryHeap.parent p) := by
      change (timers.detach p).entryPrecedes p (BinaryHeap.parent p) = true ↔ _
      rw [entryPrecedes_iff, hheap, Function.update_self,
        Function.update_of_ne (BinaryHeap.parent_lt hpos).ne]
    rw [if_neg hlast, hdetach, ← hget]
    split_ifs with hup
    · -- the moved entry precedes the parent of the removed one
      have hpos := Nat.pos_of_ne_zero hup.1
      have horder := hordered.update_up
        (((hsmaller hpos).mp hup.2).le.trans (hordered p hpos hp'))
      obtain ⟨hrearranges, hsorted⟩ := Indexed.siftUp hN _ p hindexed hp' horder
      exact ⟨rfl, hrearranges.holds hsorted⟩
    · have horder := hordered.update_down fun hpos ↦
        not_lt.mp fun hlt ↦ hup ⟨hpos.ne', (hsmaller hpos).mpr hlt⟩
      obtain ⟨hrearranges, hsorted⟩ := Indexed.siftDown hN _ p hindexed hp' horder
      exact ⟨rfl, hrearranges.holds hsorted⟩

/-- **Cancelling** returns the entry of the slot and removes it. -/
theorem Valid.cancel (h : timers.Valid) (hN : N ≤ nonePosition) (slot : ℕ) :
    (timers.cancel slot).1 = timers.get slot ∧
      (timers.cancel slot).2.Holds (Function.update timers.get slot none) := by
  have hunarmed (hget : timers.get slot = none) :
      timers.Holds (Function.update timers.get slot none) :=
    ⟨h, (Function.update_eq_self_iff.mpr hget.symm).symm⟩
  unfold TimerHeap.cancel
  dsimp only
  split_ifs with hslot hnone
  · have hget : timers.get slot = none := by
      rw [TimerHeap.get, if_pos hslot]
      exact if_pos hnone
    exact ⟨hget.symm, hunarmed hget⟩
  · obtain ⟨hposition, hentry⟩ := h.indexed.armed hslot hnone
    have hremove := h.removeAt hN hposition
    rw [hentry] at hremove
    refine ⟨hremove.1.trans ?_, hremove.2⟩
    exact ((h.indexed.get_eq_some hN).mpr ⟨_, hposition, rfl, hentry⟩).symm
  · have hget : timers.get slot = none := by
      rw [TimerHeap.get, if_neg hslot]
    exact ⟨hget.symm, hunarmed hget⟩

end Rocev2.Core.TimerHeap
