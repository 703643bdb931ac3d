import Rocev2.Lib.Calls
import Rocev2.Lib.LinearProbing.FiniteMap
import Rocev2.Memory.KeyTable

/-!
# The protection keys as a finite map

The registry fills at most half of its key table.  Here `rocev2-memory/src/keys.rs` is taken as it
stands, at every load up to a full table: against a finite map from nonzero keys to slots and kinds
(`mapCall`) it gives the same replies to every sequence of calls, and whenever a key is removed,
every key of the cluster behind it finds a bucket again (`key_table_refines_map`).
-/

namespace Rocev2.Memory.KeyTable

open Rocev2.Lib

variable {N : ℕ} {σ : Type}

/-! ## Calls -/

/-- A call of the key table. -/
inductive Call (σ : Type) where
  | insert (key : UInt32) (slot : σ) (kind : KeyKind)
  | remove (key : UInt32)
  | get (key : UInt32) (kind : KeyKind)
  | contains (key : UInt32)

/-- A reply of the key table. -/
inductive Reply (σ : Type) where
  /-- Whether the key was inserted. -/
  | inserted (success : Bool)
  | removed
  /-- The slot of a key of the kind that was asked for. -/
  | slot (slot : Option σ)
  /-- Whether the key is present. -/
  | present (contained : Bool)

def call (keys : KeyTable N σ) : Call σ → Reply σ × KeyTable N σ
  | .insert key slot kind =>
    match keys.insert key slot kind with
    | some keys => (.inserted true, keys)
    | none => (.inserted false, keys)
  | .remove key => (.removed, keys.remove key)
  | .get key kind => (.slot (keys.get key kind), keys)
  | .contains key => (.present (keys.contains key), keys)

/-- A finite map of at most `4 * N` nonzero keys answers a call. -/
def mapCall (N : ℕ) (map : Finmap fun _ : UInt32 ↦ σ × KeyKind) :
    Call σ → Reply σ × Finmap fun _ : UInt32 ↦ σ × KeyKind
  | .insert key slot kind =>
    if key ≠ 0 ∧ key ∉ map ∧ map.keys.card < 4 * N then
      (.inserted true, map.insert key (slot, kind))
    else (.inserted false, map)
  | .remove key => (.removed, map.erase key)
  | .get key kind =>
    (.slot ((map.lookup key).bind fun entry ↦ if entry.2 = kind then some entry.1 else none), map)
  | .contains key => (.present (key ∈ map), map)

/-! ## The refinement -/

/-- The table holds a finite map of nonzero keys. -/
structure Represents (keys : KeyTable N σ) (map : Finmap fun _ : UInt32 ↦ σ × KeyKind) : Prop where
  entries : LinearProbing.Represents bucket keys map
  nonzero : ∀ key ∈ map, key ≠ 0

theorem represents_new : (new : KeyTable N σ).Represents ∅ :=
  ⟨.empty bucket, fun _ hmem ↦ absurd hmem Finmap.notMem_empty⟩

namespace Represents

variable {keys : KeyTable N σ} {map : Finmap fun _ : UInt32 ↦ σ × KeyKind} {key : UInt32}

theorem wellFormed (h : keys.Represents map) : keys.WellFormed :=
  ⟨h.entries.probed, fun key _ _ hmaps ↦ h.nonzero key (h.entries.mem_iff.mpr ⟨_, hmaps⟩)⟩

theorem pos_of_mem (h : keys.Represents map) (hmem : key ∈ map) : 0 < 4 * N := by
  obtain ⟨_, i, -⟩ := h.entries.mem_iff.mp hmem
  exact i.pos

/-- **A lookup is a lookup in the map.** -/
theorem get_eq (h : keys.Represents map) (key : UInt32) (kind : KeyKind) :
    keys.get key kind =
      (map.lookup key).bind fun entry ↦ if entry.2 = kind then some entry.1 else none := by
  refine Option.ext fun slot ↦ ?_
  rw [h.wellFormed.get_eq_some, Option.bind_eq_some_iff]
  constructor
  · intro hholds
    exact ⟨(slot, kind), (h.entries.lookup_eq_some key _).mpr hholds, if_pos rfl⟩
  · rintro ⟨⟨slot', kind'⟩, hlookup, hkind⟩
    split_ifs at hkind with heq
    cases hkind
    subst heq
    exact (h.entries.lookup_eq_some key _).mp hlookup

theorem contains_eq (h : keys.Represents map) (key : UInt32) :
    keys.contains key = decide (key ∈ map) := by
  rw [Bool.eq_iff_iff, h.wellFormed.contains_eq_true, decide_eq_true_iff, h.entries.mem_iff]
  constructor
  · rintro ⟨kind, slot, hholds⟩
    exact ⟨(slot, kind), hholds⟩
  · rintro ⟨⟨slot, kind⟩, hmaps⟩
    exact ⟨kind, slot, hmaps⟩

/-- **An insertion succeeds exactly where the map takes the key.** -/
theorem insert (h : keys.Represents map) (key : UInt32) (slot : σ) (kind : KeyKind) :
    match keys.insert key slot kind with
    | some keys' => (key ≠ 0 ∧ key ∉ map ∧ map.keys.card < 4 * N) ∧
        keys'.Represents (map.insert key (slot, kind))
    | none => ¬(key ≠ 0 ∧ key ∉ map ∧ map.keys.card < 4 * N) := by
  unfold KeyTable.insert
  by_cases hpos : 0 < 4 * N ∧ key ≠ 0
  · rw [dif_pos hpos]
    have hinsert := h.entries.insert hpos.1 key (slot, kind)
    cases houtcome : LinearProbing.insert (bucket hpos.1) keys key (slot, kind) with
    | ok keys' =>
      rw [houtcome] at hinsert
      obtain ⟨habsent, hroom, hentries⟩ := hinsert
      refine ⟨⟨hpos.2, habsent, hroom⟩, hentries, fun other hother ↦ ?_⟩
      rcases Finmap.mem_insert.mp hother with rfl | hold
      · exact hpos.2
      · exact h.nonzero other hold
    | error e =>
      rw [houtcome] at hinsert
      rintro ⟨-, habsent, hroom⟩
      cases e with
      | duplicate => exact habsent hinsert
      | full => exact hroom.ne hinsert.2
  · rw [dif_neg hpos]
    rintro ⟨hzero, -, hroom⟩
    exact hpos ⟨Nat.zero_lt_of_lt hroom, hzero⟩

/-- **A removal forgets the key.** -/
theorem remove (h : keys.Represents map) (key : UInt32) :
    (keys.remove key).Represents (map.erase key) := by
  have hnonzero : ∀ other ∈ map.erase key, other ≠ 0 := fun other hother ↦
    h.nonzero other (Finmap.mem_erase.mp hother).2
  refine ⟨?_, hnonzero⟩
  unfold KeyTable.remove
  by_cases hpos : 0 < 4 * N ∧ key ≠ 0
  · rw [dif_pos hpos]
    exact h.entries.removeReinsert hpos.1 key
  · rw [dif_neg hpos, erase_of_notMem fun hmem ↦ hpos ⟨h.pos_of_mem hmem, h.nonzero key hmem⟩]
    exact h.entries

/-- **One call.** -/
theorem call (h : keys.Represents map) (next : Call σ) :
    (keys.call next).1 = (mapCall N map next).1 ∧
      (KeyTable.call keys next).2.Represents (mapCall N map next).2 := by
  cases next with
  | insert key slot kind =>
    have hinsert := h.insert key slot kind
    unfold KeyTable.call mapCall
    dsimp only
    cases houtcome : KeyTable.insert keys key slot kind with
    | some keys' =>
      rw [houtcome] at hinsert
      rw [if_pos hinsert.1]
      exact ⟨rfl, hinsert.2⟩
    | none =>
      rw [houtcome] at hinsert
      rw [if_neg hinsert]
      exact ⟨rfl, h⟩
  | remove key => exact ⟨rfl, h.remove key⟩
  | get key kind => exact ⟨congrArg Reply.slot (h.get_eq key kind), h⟩
  | contains key => exact ⟨congrArg Reply.present (h.contains_eq key), h⟩

end Represents

/-- **The key table refines a finite map.**  For every number of slots and after every sequence of
calls the replies are those of a map of at most `4 * N` nonzero keys, every key is found with its
slot and kind, and the removal of any key finds a bucket for every key of the cluster behind it. -/
theorem key_table_refines_map (N : ℕ) (σ : Type) (calls : List (Call σ)) :
    ∃ (replies : List (Reply σ)) (keys : KeyTable N σ)
      (map : Finmap fun _ : UInt32 ↦ σ × KeyKind),
      answers call new calls = (replies, keys) ∧
      answers (mapCall N) ∅ calls = (replies, map) ∧
      map.keys.card ≤ 4 * N ∧ (∀ key ∈ map, key ≠ 0) ∧
      (∀ key kind slot, keys.get key kind = some slot ↔ map.lookup key = some (slot, kind)) ∧
      ∀ h key index, keys.position key = some index →
        LinearProbing.Reinserts (bucket h) (4 * N) index (Function.update keys index none) := by
  obtain ⟨hreplies, h⟩ := answers_refine (R := Represents) (fun _ _ next h ↦ h.call next)
    (represents_new (N := N) (σ := σ)) calls
  refine ⟨_, _, _, rfl, Prod.ext hreplies.symm rfl, h.entries.card_le, h.nonzero,
    fun key kind slot ↦ ?_, fun hpos _ index _ ↦ ?_⟩
  · rw [h.wellFormed.get_eq_some, h.entries.lookup_eq_some]
    rfl
  · exact (h.entries.probed hpos).reinserts (h.entries.seam hpos) index

end Rocev2.Memory.KeyTable
