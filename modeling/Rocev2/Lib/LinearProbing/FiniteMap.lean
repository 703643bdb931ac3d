import Mathlib.Data.Finmap
import Rocev2.Lib.LinearProbing.Removal

/-!
# Open addressing as a finite map

`Represents home table map` says that the buckets hold exactly the mappings of a finite map, each
within reach of its home.  Lookup, insertion and both kinds of removal commute with it at every
load, so a table of `n` buckets is a finite map of at most `n` keys that refuses a key only if it is
present or if there are `n` of them.

The home of a key is asked for only if there are buckets.
-/

namespace Rocev2.Lib

universe u v

section Keys

variable {α : Type u} {β : α → Type v} [DecidableEq α] {map : Finmap β} {a : α}

theorem card_keys_insert (h : a ∉ map) (b : β a) :
    (map.insert a b).keys.card = map.keys.card + 1 := by
  have hkeys : (map.insert a b).keys = Insert.insert a map.keys := by
    ext a'
    rw [Finmap.mem_keys, Finmap.mem_insert, Finset.mem_insert, Finmap.mem_keys]
  rw [hkeys, Finset.card_insert_of_notMem (Finmap.mem_keys.not.mpr h)]

theorem card_keys_erase (h : a ∈ map) : (map.erase a).keys.card + 1 = map.keys.card := by
  rw [Finmap.keys_erase, Finset.card_erase_add_one (Finmap.mem_keys.mpr h)]

theorem erase_of_notMem (h : a ∉ map) : map.erase a = map := by
  refine Finmap.ext_lookup fun a' ↦ ?_
  by_cases heq : a' = a
  · subst heq
    rw [Finmap.lookup_erase, Finmap.lookup_eq_none.mpr h]
  · exact Finmap.lookup_erase_ne heq

end Keys

namespace LinearProbing

variable {α : Type u} {β : Type v} {n : ℕ} [DecidableEq α]

/-- The table holds the mappings of a finite map, and a bucket is no bucket that a walk passes. -/
structure Represents (home : 0 < n → α → Fin n) (table : Table n α β)
    (map : Finmap fun _ : α ↦ β) : Prop where
  probed : ∀ h, WellProbed (home h) table
  seam : ∀ h, ∃ e, Seam (home h) table e
  lookup_eq_some : ∀ key value, map.lookup key = some value ↔ Maps table key value

namespace Represents

variable {home : 0 < n → α → Fin n} {table : Table n α β} {map : Finmap fun _ : α ↦ β} {key : α}
  {value : β}

theorem empty (home : 0 < n → α → Fin n) :
    Represents home (empty : Table n α β) (∅ : Finmap fun _ : α ↦ β) := by
  refine ⟨fun _ ↦ wellProbed_empty _, fun h ↦ ⟨⟨0, h⟩, (wellProbed_empty _).seam rfl⟩, ?_⟩
  intro key value
  rw [Finmap.lookup_empty]
  constructor
  · rintro ⟨⟩
  · rintro ⟨_, ⟨⟩⟩

theorem mem_iff (h : Represents home table map) : key ∈ map ↔ ∃ value, Maps table key value := by
  rw [Finmap.mem_iff]
  exact exists_congr (h.lookup_eq_some key)

theorem distinct (h : Represents home table map) : Distinct table :=
  fun i _ _ _ _ hi hj ↦ (h.probed i.pos).distinct hi hj

/-! ### The number of keys -/

/-- There are as many keys as occupied buckets. -/
theorem card_keys (h : Represents home table map) :
    map.keys.card = (Finset.univ.filter fun i ↦ (table i).isSome).card := by
  symm
  refine Finset.card_bij (fun i hi ↦ ((table i).get (Finset.mem_filter.mp hi).2).1) ?_ ?_ ?_
  · intro i hi
    obtain ⟨entry, hentry⟩ := Option.isSome_iff_exists.mp (Finset.mem_filter.mp hi).2
    simp only [hentry, Option.get_some]
    exact Finmap.mem_keys.mpr (h.mem_iff.mpr ⟨entry.2, i, hentry⟩)
  · intro i hi j hj heq
    obtain ⟨entry, hentry⟩ := Option.isSome_iff_exists.mp (Finset.mem_filter.mp hi).2
    obtain ⟨entry', hentry'⟩ := Option.isSome_iff_exists.mp (Finset.mem_filter.mp hj).2
    simp only [hentry, hentry', Option.get_some] at heq
    obtain ⟨key, value⟩ := entry
    obtain ⟨key', value'⟩ := entry'
    obtain rfl : key = key' := heq
    exact h.distinct hentry hentry'
  · intro key hkey
    obtain ⟨value, i, hi⟩ := h.mem_iff.mp (Finmap.mem_keys.mp hkey)
    refine ⟨i, Finset.mem_filter.mpr ⟨Finset.mem_univ i, Option.isSome_of_eq_some hi⟩, ?_⟩
    simp only [hi, Option.get_some]

theorem card_le (h : Represents home table map) : map.keys.card ≤ n := by
  rw [h.card_keys]
  exact (Finset.card_le_univ _).trans_eq (Fintype.card_fin n)

theorem card_eq_iff (h : Represents home table map) :
    map.keys.card = n ↔ ∀ i, table i ≠ none := by
  have huniv := Finset.card_eq_iff_eq_univ (Finset.univ.filter fun i ↦ (table i).isSome)
  rw [Fintype.card_fin] at huniv
  rw [h.card_keys, huniv, Finset.filter_eq_self]
  simp only [Finset.mem_univ, forall_const, Option.isSome_iff_ne_none]

/-! ### The operations -/

/-- **Insertion.** -/
theorem insert (h : Represents home table map) (hn : 0 < n) (key : α) (value : β) :
    match insert (home hn) table key value with
    | .ok table' =>
      key ∉ map ∧ map.keys.card < n ∧ Represents home table' (map.insert key value)
    | .error .duplicate => key ∈ map
    | .error .full => key ∉ map ∧ map.keys.card = n := by
  have hinserted := inserted_insert (home hn) table key value
  cases houtcome : LinearProbing.insert (home hn) table key value with
  | ok table' =>
    obtain ⟨hprobed, hseam, habsent, hmaps⟩ := (h.probed hn).insert_ok houtcome
    have hnew : key ∉ map := fun hmem ↦ (h.mem_iff.mp hmem).elim habsent
    rw [houtcome] at hinserted
    cases hinserted with
    | stored hfree =>
      refine ⟨hnew, h.card_le.lt_of_ne fun hfull ↦ h.card_eq_iff.mp hfull _ hfree,
        fun _ ↦ hprobed, fun _ ↦ hseam, fun key' value' ↦ ?_⟩
      rw [hmaps, ← h.lookup_eq_some]
      by_cases hkey : key' = key
      · subst hkey
        rw [Finmap.lookup_insert, Finmap.lookup_eq_none.mpr hnew]
        simp [eq_comm]
      · rw [Finmap.lookup_insert_of_ne _ hkey]
        simp [hkey]
  | error e =>
    rw [houtcome] at hinserted
    cases hinserted with
    | found hfound => exact h.mem_iff.mpr ⟨_, _, hfound⟩
    | full hpassed =>
      refine ⟨fun hmem ↦ ?_, h.card_eq_iff.mpr fun i hnone ↦ ?_⟩
      · obtain ⟨value', i, hi⟩ := h.mem_iff.mp hmem
        obtain ⟨entry, hentry, hne⟩ := hpassed i
        rw [hi] at hentry
        cases hentry
        exact hne rfl
      · obtain ⟨entry, hentry, -⟩ := hpassed i
        rw [hnone] at hentry
        cases hentry

theorem erase (h : Represents home table map) {table' : Table n α β} (hn : 0 < n)
    (hforgets : WellProbed (home hn) table' ∧ (∃ e, Seam (home hn) table' e) ∧
      ∀ key' value', Maps table' key' value' ↔ Maps table key' value' ∧ key' ≠ key) :
    Represents home table' (map.erase key) := by
  obtain ⟨hprobed, hseam, hmaps⟩ := hforgets
  refine ⟨fun _ ↦ hprobed, fun _ ↦ hseam, fun key' value' ↦ ?_⟩
  rw [hmaps, ← h.lookup_eq_some]
  by_cases hkey : key' = key
  · subst hkey
    simp
  · rw [Finmap.lookup_erase_ne hkey]
    simp [hkey]

/-- **Removal by shifting.** -/
theorem shiftOut (h : Represents home table map) (hn : 0 < n) {i : Fin n}
    (hi : table i = some (key, value)) :
    Represents home (shiftOut (home hn) table i) (map.erase key) :=
  h.erase hn ((h.probed hn).shiftOut (h.seam hn) hi)

/-- **Removal by reinsertion.** -/
theorem removeReinsert (h : Represents home table map) (hn : 0 < n) (key : α) :
    Represents home (removeReinsert (home hn) table key) (map.erase key) :=
  h.erase hn ((h.probed hn).removeReinsert (h.seam hn) key)

end Represents

end LinearProbing

end Rocev2.Lib
