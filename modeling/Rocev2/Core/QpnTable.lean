import Mathlib.Data.Fintype.Option
import Rocev2.Core.Qp
import Rocev2.Lib.LinearProbing.Removal

/-!
# The queue-pair number index

`rocev2-core/src/qpn.rs`: an open-addressed map from the queue-pair numbers to the slots of their
queue pairs, with removal by backward shifting.  An empty bucket, which the source marks by a number
that no packet can carry, is `none`.

`Lists` relates the index to a table of slots that have numbers: the index maps exactly the numbers
in use, each to its slot, and its capacity is one that the endpoints accept.  There is always an
empty bucket then, except that a table of two buckets is filled for a moment when its only queue
pair is given another number; shifting needs only that no walk passes the bucket filled last.
-/

namespace Rocev2.Core

open Rocev2.Lib

/-- Failure of an insertion into the index. -/
inductive QpnInsertError where
  | invalidQpn (qpn : ℕ)
  | duplicate (qpn : ℕ)
  | full
deriving DecidableEq, Repr

/-- The buckets of the index. -/
abbrev QpnTable (N : ℕ) := LinearProbing.Table N ℕ ℕ

namespace QpnTable

variable {N : ℕ}

def new : QpnTable N := LinearProbing.empty

/-- Whether the capacity keeps the load factor at or below one half. -/
def supportsEntries (N maximumEntries : ℕ) : Bool :=
  maximumEntries = 0 || (decide (N ≠ 0 ∧ N &&& (N - 1) = 0) && maximumEntries ≤ N / 2)

/-- The mixer of the index. -/
def mixQpn (value : UInt32) : UInt32 :=
  let value := value ^^^ (value >>> 16)
  let value := value * 0x7feb352d
  let value := value ^^^ (value >>> 15)
  let value := value * 0x846ca68b
  value ^^^ (value >>> 16)

/-- The bucket at which the search for a number starts. -/
def bucket (h : 0 < N) (qpn : ℕ) : Fin N :=
  let hash := (mixQpn (UInt32.ofNat qpn)).toNat
  if N &&& (N - 1) = 0 then
    ⟨hash &&& (N - 1), Nat.lt_of_le_of_lt Nat.and_le_right (Nat.sub_one_lt_of_lt h)⟩
  else ⟨hash % N, Nat.mod_lt _ h⟩

variable (table : QpnTable N)

def findIndex (qpn : ℕ) : Option (Fin N) :=
  if h : qpn ≤ maxQpn ∧ 0 < N then LinearProbing.find (bucket h.2) table qpn else none

/-- Look up the slot owning `qpn`. -/
def get (qpn : ℕ) : Option ℕ :=
  match table.findIndex qpn with
  | none => none
  | some index => (table index).map Prod.snd

def insert (qpn slot : ℕ) : Except QpnInsertError (QpnTable N) :=
  if maxQpn < qpn then .error (.invalidQpn qpn)
  else if h : 0 < N then
    match LinearProbing.insert (bucket h) table qpn slot with
    | .ok table => .ok table
    | .error .duplicate => .error (.duplicate qpn)
    | .error .full => .error .full
  else .error .full

/-- Remove a mapping and return its slot. -/
def remove (qpn : ℕ) : QpnTable N × Option ℕ :=
  match table.findIndex qpn with
  | none => (table, none)
  | some hole =>
    (LinearProbing.shiftOut (bucket hole.pos) table hole, (table hole).map Prod.snd)

/-- No walk to a number is cut off, and every number fits its field. -/
structure WellFormed (table : QpnTable N) : Prop where
  probed : ∀ h : 0 < N, LinearProbing.WellProbed (bucket h) table
  valid : ∀ ⦃qpn slot⦄, LinearProbing.Maps table qpn slot → qpn ≤ maxQpn

theorem wellFormed_new : (new : QpnTable N).WellFormed :=
  ⟨fun _ ↦ LinearProbing.wellProbed_empty _, nofun⟩

namespace WellFormed

variable {table table' : QpnTable N} {qpn slot : ℕ}

theorem findIndex_eq_some (h : table.WellFormed) {index : Fin N} :
    table.findIndex qpn = some index ↔ ∃ slot, table index = some (qpn, slot) := by
  unfold findIndex
  by_cases hpos : qpn ≤ maxQpn ∧ 0 < N
  · rw [dif_pos hpos]
    exact (h.probed hpos.2).find_eq_some
  · rw [dif_neg hpos]
    constructor
    · nofun
    · rintro ⟨slot, hindex⟩
      exact absurd ⟨h.valid ⟨index, hindex⟩, index.pos⟩ hpos

/-- **A lookup finds what the table maps.** -/
theorem get_eq_some (h : table.WellFormed) :
    table.get qpn = some slot ↔ LinearProbing.Maps table qpn slot := by
  unfold get
  constructor
  · intro hget
    split at hget
    · cases hget
    · rename_i index hfind
      obtain ⟨slot', hindex⟩ := h.findIndex_eq_some.mp hfind
      rw [hindex] at hget
      cases hget
      exact ⟨index, hindex⟩
  · rintro ⟨index, hindex⟩
    rw [h.findIndex_eq_some.mpr ⟨slot, hindex⟩]
    dsimp only
    rw [hindex]
    rfl

/-- **An insertion adds a new number.** -/
theorem insert (h : table.WellFormed) (hinsert : table.insert qpn slot = .ok table') :
    table'.WellFormed ∧ (∀ h, ∃ e, LinearProbing.Seam (bucket h) table' e) ∧
      (∀ slot', ¬LinearProbing.Maps table qpn slot') ∧
      ∀ other slot', LinearProbing.Maps table' other slot' ↔
        LinearProbing.Maps table other slot' ∨ other = qpn ∧ slot' = slot := by
  unfold QpnTable.insert at hinsert
  split at hinsert
  · cases hinsert
  rename_i hvalid
  split at hinsert
  · rename_i hpos
    split at hinsert
    · rename_i hok
      cases hinsert
      obtain ⟨hprobed, hseam, habsent, hmaps⟩ := (h.probed hpos).insert_ok hok
      refine ⟨⟨fun _ ↦ hprobed, fun other slot' hother ↦ ?_⟩, fun _ ↦ hseam, habsent, hmaps⟩
      rcases (hmaps other slot').mp hother with hother | ⟨rfl, -⟩
      · exact h.valid hother
      · exact Nat.le_of_not_lt hvalid
    all_goals cases hinsert
  · cases hinsert

/-- An insertion into a table with an empty bucket fails only on a number that is too wide or
present. -/
theorem insert_ne_full (hroom : ∃ e, table e = none) : table.insert qpn slot ≠ .error .full := by
  intro hinsert
  unfold QpnTable.insert at hinsert
  split at hinsert
  · cases hinsert
  split at hinsert
  · split at hinsert
    · cases hinsert
    · cases hinsert
    · rename_i hfull
      exact nomatch (LinearProbing.WellProbed.insert_error hroom hfull).1
  · exact absurd hroom.choose.pos ‹_›

/-- **A removal returns the slot of a number and forgets it.** -/
theorem remove (h : table.WellFormed) (hseam : ∀ h, ∃ e, LinearProbing.Seam (bucket h) table e)
    (hmaps : LinearProbing.Maps table qpn slot) :
    (table.remove qpn).1.WellFormed ∧ (QpnTable.remove table qpn).2 = some slot ∧
      ∀ other slot', LinearProbing.Maps (QpnTable.remove table qpn).1 other slot' ↔
        LinearProbing.Maps table other slot' ∧ other ≠ qpn := by
  obtain ⟨hole, hhole⟩ := hmaps
  unfold QpnTable.remove
  rw [h.findIndex_eq_some.mpr ⟨slot, hhole⟩]
  dsimp only
  obtain ⟨hprobed, -, hmaps⟩ := (h.probed hole.pos).shiftOut (hseam hole.pos) hhole
  refine ⟨⟨fun _ ↦ hprobed, fun other slot' hother ↦ ?_⟩, ?_, hmaps⟩
  · exact h.valid ((hmaps other slot').mp hother).1
  · rw [hhole]
    rfl

end WellFormed

/-! ### Slots and their numbers -/

/-- The table maps exactly the numbers in use, each to the slot that has it. -/
structure Lists {QPS : ℕ} (table : QpnTable N) (numbers : Fin QPS → Option ℕ) : Prop where
  /-- The capacity is accepted for the number of slots. -/
  supports : supportsEntries N QPS = true
  wellFormed : table.WellFormed
  maps : ∀ qpn slot, LinearProbing.Maps table qpn slot ↔
    ∃ i : Fin QPS, slot = i.val ∧ numbers i = some qpn

section Lists

variable {QPS : ℕ} {table table' : QpnTable N} {numbers : Fin QPS → Option ℕ} {i : Fin QPS}
  {qpn : ℕ}

theorem lists_new (h : supportsEntries N QPS = true) :
    (new : QpnTable N).Lists fun _ : Fin QPS ↦ none :=
  ⟨h, wellFormed_new, fun _ _ ↦ ⟨nofun, nofun⟩⟩

/-- **The index finds the slot that has a number.** -/
theorem Lists.get_eq_some (h : table.Lists numbers) {slot : ℕ} :
    table.get qpn = some slot ↔ ∃ i : Fin QPS, slot = i.val ∧ numbers i = some qpn :=
  h.wellFormed.get_eq_some.trans (h.maps qpn slot)

theorem Lists.get_eq (h : table.Lists numbers) (hi : numbers i = some qpn) :
    table.get qpn = some i.val :=
  h.get_eq_some.mpr ⟨i, rfl, hi⟩

theorem Lists.eq_of_number {j : Fin QPS} (h : table.Lists numbers) (hi : numbers i = some qpn)
    (hj : numbers j = some qpn) : i = j :=
  Fin.ext (Option.some.inj ((h.get_eq hi).symm.trans (h.get_eq hj)))

theorem two_mul_le_of_supportsEntries (h : supportsEntries N QPS = true) : 2 * QPS ≤ N := by
  unfold supportsEntries at h
  simp only [Bool.or_eq_true, decide_eq_true_eq, Bool.and_eq_true] at h
  omega

/-- A slot number as an index of the table. -/
def slotLabel (hpos : 0 < QPS) (slot : ℕ) : Fin QPS := ⟨slot % QPS, Nat.mod_lt _ hpos⟩

theorem slotLabel_val (hpos : 0 < QPS) (i : Fin QPS) : slotLabel hpos i.val = i :=
  Fin.ext (Nat.mod_eq_of_lt i.isLt)

/-- **The index has an empty bucket.** -/
theorem Lists.exists_none (h : table.Lists numbers) (hpos : 0 < QPS) : ∃ e, table e = none := by
  have hcapacity := two_mul_le_of_supportsEntries h.supports
  refine LinearProbing.exists_none (fun entry ↦ slotLabel hpos entry.2)
    (fun j k entry entry' hj hk heq ↦ ?_) (by rw [Fintype.card_fin]; omega)
  obtain ⟨qpn, slot⟩ := entry
  obtain ⟨qpn', slot'⟩ := entry'
  obtain ⟨i, rfl, hi⟩ := (h.maps qpn slot).mp ⟨j, hj⟩
  obtain ⟨i', rfl, hi'⟩ := (h.maps qpn' slot').mp ⟨k, hk⟩
  dsimp only at heq
  rw [slotLabel_val, slotLabel_val] at heq
  subst heq
  obtain rfl := Option.some.inj (hi.symm.trans hi')
  exact (h.wellFormed.probed j.pos).distinct hj hk

/-- **The index is never full.** -/
theorem Lists.insert_ne_full (h : table.Lists numbers) (i : Fin QPS) (qpn : ℕ) :
    table.insert qpn i.val ≠ .error .full :=
  WellFormed.insert_ne_full (h.exists_none i.pos)

theorem Lists.number_ne (h : table.Lists numbers)
    (hnone : ∀ slot, ¬LinearProbing.Maps table qpn slot) (j : Fin QPS) : numbers j ≠ some qpn :=
  fun hj ↦ hnone j.val ((h.maps qpn j.val).mpr ⟨j, rfl, hj⟩)

/-- The entries after the slot `i` has given up the number `previous`, if it had one, and has
taken the number `next`, if any. -/
theorem Lists.update {previous next : Option ℕ} (h : table.Lists numbers)
    (hprevious : numbers i = previous)
    (hfresh : ∀ qpn, next = some qpn → ∀ j, j ≠ i → numbers j ≠ some qpn)
    (hwell : table'.WellFormed)
    (hmaps : ∀ other slot, LinearProbing.Maps table' other slot ↔
      next = some other ∧ slot = i.val ∨
        next ≠ some other ∧ previous ≠ some other ∧ LinearProbing.Maps table other slot) :
    table'.Lists (Function.update numbers i next) := by
  refine ⟨h.supports, hwell, fun qpn slot ↦ ?_⟩
  rw [hmaps, h.maps]
  constructor
  · rintro (⟨hnext, rfl⟩ | ⟨-, hkeep, j, rfl, hj⟩)
    · exact ⟨i, rfl, (Function.update_self ..).trans hnext⟩
    · have hji : j ≠ i := by
        rintro rfl
        exact hkeep (hprevious.symm.trans hj)
      exact ⟨j, rfl, (Function.update_of_ne hji ..).trans hj⟩
  · rintro ⟨j, rfl, hj⟩
    by_cases hji : j = i
    · subst hji
      rw [Function.update_self] at hj
      exact .inl ⟨hj, rfl⟩
    · rw [Function.update_of_ne hji] at hj
      refine .inr ⟨fun hnext ↦ hfresh qpn hnext j hji hj, fun heq ↦ hji ?_, j, rfl, hj⟩
      exact h.eq_of_number hj (hprevious.trans heq)

theorem Lists.insert (h : table.Lists numbers) (hfree : numbers i = none)
    (hinsert : table.insert qpn i.val = .ok table') :
    table'.Lists (Function.update numbers i (some qpn)) := by
  obtain ⟨hwell, -, habsent, hmaps⟩ := h.wellFormed.insert hinsert
  refine h.update hfree ?_ hwell fun other slot ↦ ?_
  · rintro _ ⟨⟩ j -
    exact h.number_ne habsent j
  · rw [hmaps]
    constructor
    · rintro (hold | ⟨rfl, rfl⟩)
      · refine .inr ⟨?_, nofun, hold⟩
        rintro ⟨⟩
        exact habsent slot hold
      · exact .inl ⟨rfl, rfl⟩
    · rintro (⟨hnext, rfl⟩ | ⟨-, -, hold⟩)
      · cases hnext
        exact .inr ⟨rfl, rfl⟩
      · exact .inl hold

theorem Lists.remove (h : table.Lists numbers) (hi : numbers i = some qpn) :
    (table.remove qpn).1.Lists (Function.update numbers i none) ∧
      (QpnTable.remove table qpn).2 = some i.val := by
  obtain ⟨e, he⟩ := h.exists_none i.pos
  obtain ⟨hwell, hslot, hmaps⟩ := h.wellFormed.remove
    (fun hpos ↦ ⟨e, (h.wellFormed.probed hpos).seam he⟩) ((h.maps qpn i.val).mpr ⟨i, rfl, hi⟩)
  refine ⟨h.update hi nofun hwell fun other slot ↦ ?_, hslot⟩
  rw [hmaps]
  constructor
  · rintro ⟨hold, hne⟩
    exact .inr ⟨nofun, fun heq ↦ hne (Option.some.inj heq).symm, hold⟩
  · rintro (⟨hnext, -⟩ | ⟨-, hne, hold⟩)
    · cases hnext
    · exact ⟨hold, fun heq ↦ hne (congrArg some heq.symm)⟩

/-- A slot changes its number: the new one is inserted before the old one is removed. -/
theorem Lists.renumber {previous : ℕ} (h : table.Lists numbers) (hi : numbers i = some previous)
    (hne : previous ≠ qpn) (hinsert : table.insert qpn i.val = .ok table') :
    (table'.remove previous).1.Lists (Function.update numbers i (some qpn)) ∧
      (QpnTable.remove table' previous).2 = some i.val := by
  obtain ⟨hwell, hseam, habsent, hmaps⟩ := h.wellFormed.insert hinsert
  obtain ⟨hwell', hslot, hmaps'⟩ := hwell.remove hseam
    ((hmaps previous i.val).mpr (.inl ((h.maps previous i.val).mpr ⟨i, rfl, hi⟩)))
  refine ⟨h.update hi ?_ hwell' fun other slot ↦ ?_, hslot⟩
  · rintro _ ⟨⟩ j -
    exact h.number_ne habsent j
  · rw [hmaps', hmaps]
    constructor
    · rintro ⟨hold | ⟨rfl, rfl⟩, hother⟩
      · refine .inr ⟨?_, fun heq ↦ hother (Option.some.inj heq).symm, hold⟩
        rintro ⟨⟩
        exact habsent slot hold
      · exact .inl ⟨rfl, rfl⟩
    · rintro (⟨hnext, rfl⟩ | ⟨-, hother, hold⟩)
      · cases hnext
        exact ⟨.inr ⟨rfl, rfl⟩, Ne.symm hne⟩
      · exact ⟨.inl hold, fun heq ↦ hother (congrArg some heq.symm)⟩

/-- The index of a table of entries that have numbers: it finds exactly the entries, and no two of
them have the same number. -/
theorem Lists.entries {α : Type} {entries : Fin QPS → Option α} {number : α → ℕ}
    (h : table.Lists fun i ↦ (entries i).map number) :
    (∀ qpn slot, table.get qpn = some slot ↔
      ∃ i entry, slot = i.val ∧ entries i = some entry ∧ number entry = qpn) ∧
    ∀ i j entry entry', entries i = some entry → entries j = some entry' →
      number entry = number entry' → i = j := by
  constructor
  · intro qpn slot
    simp only [h.get_eq_some, Option.map_eq_some_iff, exists_and_left]
  · intro i j entry entry' hi hj heq
    exact h.eq_of_number (Option.map_eq_some_iff.mpr ⟨entry, hi, heq⟩)
      (Option.map_eq_some_iff.mpr ⟨entry', hj, rfl⟩)

end Lists

end QpnTable

end Rocev2.Core
