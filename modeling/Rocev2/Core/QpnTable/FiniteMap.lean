import Rocev2.Core.QpnTable
import Rocev2.Lib.Calls
import Rocev2.Lib.LinearProbing.FiniteMap

/-!
# The queue-pair number index as a finite map

`rocev2-core/src/qpn.rs` keeps the number of mappings beside the buckets (`Counted`).  The endpoints
ask for an index that is at most half full; here nothing is asked of the capacity or of the load.
Against a finite map from queue-pair numbers to slots (`mapCall`) the index gives the same replies
to every sequence of calls, in a table that may fill up completely, for every capacity, powers of
two or not, zero included: `qpn_table_refines_map`.
-/

namespace Rocev2.Core.QpnTable

open Rocev2.Lib

/-! ## The index with its count -/

/-- The buckets and the number of live mappings. -/
structure Counted (N : ℕ) where
  entries : QpnTable N
  len : ℕ

namespace Counted

variable {N : ℕ}

def new : Counted N := ⟨QpnTable.new, 0⟩

/-- Look up the slot owning `qpn`. -/
def get (table : Counted N) (qpn : ℕ) : Option ℕ := table.entries.get qpn

def insert (table : Counted N) (qpn slot : ℕ) : Except QpnInsertError (Counted N) :=
  match table.entries.insert qpn slot with
  | .ok entries => .ok ⟨entries, table.len + 1⟩
  | .error e => .error e

/-- Remove a mapping and return its slot. -/
def remove (table : Counted N) (qpn : ℕ) : Counted N × Option ℕ :=
  match table.entries.findIndex qpn with
  | none => (table, none)
  | some hole =>
    (⟨(table.entries.remove qpn).1, table.len - 1⟩, (table.entries hole).map Prod.snd)

/-- Remove every mapping. -/
def clear (_ : Counted N) : Counted N := ⟨fun _ ↦ none, 0⟩

end Counted

/-! ## Calls -/

/-- A call of the index. -/
inductive Call where
  | insert (qpn slot : ℕ)
  | remove (qpn : ℕ)
  | get (qpn : ℕ)
  | clear
  | len

/-- A reply of the index. -/
inductive Reply where
  /-- Whether the mapping was inserted. -/
  | inserted (result : Except QpnInsertError Unit)
  /-- The slot of a number. -/
  | slot (slot : Option ℕ)
  | cleared
  | count (len : ℕ)

/-- The index answers a call. -/
def Counted.call {N : ℕ} (table : Counted N) : Call → Reply × Counted N
  | .insert qpn slot =>
    match table.insert qpn slot with
    | .ok table => (.inserted (.ok ()), table)
    | .error e => (.inserted (.error e), table)
  | .remove qpn => (.slot (table.remove qpn).2, (table.remove qpn).1)
  | .get qpn => (.slot (table.get qpn), table)
  | .clear => (.cleared, table.clear)
  | .len => (.count table.len, table)

/-- A finite map of at most `N` numbers answers a call. -/
def mapCall (N : ℕ) (map : Finmap fun _ : ℕ ↦ ℕ) : Call → Reply × Finmap fun _ : ℕ ↦ ℕ
  | .insert qpn slot =>
    if maxQpn < qpn then (.inserted (.error (.invalidQpn qpn)), map)
    else if qpn ∈ map then (.inserted (.error (.duplicate qpn)), map)
    else if map.keys.card = N then (.inserted (.error .full), map)
    else (.inserted (.ok ()), map.insert qpn slot)
  | .remove qpn => (.slot (map.lookup qpn), map.erase qpn)
  | .get qpn => (.slot (map.lookup qpn), map)
  | .clear => (.cleared, ∅)
  | .len => (.count map.keys.card, map)

/-! ## The refinement -/

namespace Counted

variable {N : ℕ} {table : Counted N} {map : Finmap fun _ : ℕ ↦ ℕ} {qpn slot : ℕ}

/-- The index holds a finite map and counts its numbers. -/
structure Represents (table : Counted N) (map : Finmap fun _ : ℕ ↦ ℕ) : Prop where
  entries : LinearProbing.Represents bucket table.entries map
  valid : ∀ qpn ∈ map, qpn ≤ maxQpn
  len_eq : table.len = map.keys.card

theorem represents_new : (new : Counted N).Represents ∅ :=
  ⟨.empty bucket, fun _ hmem ↦ absurd hmem Finmap.notMem_empty, rfl⟩

namespace Represents

theorem wellFormed (h : table.Represents map) : table.entries.WellFormed :=
  ⟨h.entries.probed, fun qpn _ hmaps ↦ h.valid qpn (h.entries.mem_iff.mpr ⟨_, hmaps⟩)⟩

/-- **A lookup is a lookup in the map.** -/
theorem get_eq (h : table.Represents map) (qpn : ℕ) : table.get qpn = map.lookup qpn := by
  refine Option.ext fun slot ↦ ?_
  rw [Counted.get, h.wellFormed.get_eq_some, h.entries.lookup_eq_some]

/-- **An insertion fails exactly where the map refuses the number.** -/
theorem insert (h : table.Represents map) (qpn slot : ℕ) :
    match table.insert qpn slot with
    | .ok table' => qpn ≤ maxQpn ∧ qpn ∉ map ∧ map.keys.card ≠ N ∧
        table'.Represents (map.insert qpn slot)
    | .error (.invalidQpn number) => maxQpn < qpn ∧ number = qpn
    | .error (.duplicate number) => qpn ≤ maxQpn ∧ qpn ∈ map ∧ number = qpn
    | .error .full => qpn ≤ maxQpn ∧ qpn ∉ map ∧ map.keys.card = N := by
  unfold Counted.insert QpnTable.insert
  by_cases hvalid : maxQpn < qpn
  · rw [if_pos hvalid]
    exact ⟨hvalid, rfl⟩
  rw [if_neg hvalid]
  have hle := Nat.le_of_not_lt hvalid
  by_cases hpos : 0 < N
  · rw [dif_pos hpos]
    have hinsert := h.entries.insert hpos qpn slot
    cases houtcome : LinearProbing.insert (bucket hpos) table.entries qpn slot with
    | ok entries =>
      rw [houtcome] at hinsert
      obtain ⟨habsent, hroom, hentries⟩ := hinsert
      refine ⟨hle, habsent, hroom.ne, hentries, fun other hother ↦ ?_, ?_⟩
      · rcases Finmap.mem_insert.mp hother with rfl | hold
        · exact hle
        · exact h.valid other hold
      · rw [card_keys_insert habsent, h.len_eq]
    | error e =>
      rw [houtcome] at hinsert
      cases e with
      | duplicate => exact ⟨hle, hinsert, rfl⟩
      | full => exact ⟨hle, hinsert⟩
  · -- Without buckets there is no number.
    rw [dif_neg hpos]
    refine ⟨hle, fun hmem ↦ ?_, ?_⟩
    · obtain ⟨_, i, -⟩ := h.entries.mem_iff.mp hmem
      exact hpos i.pos
    · have hcard := h.entries.card_le
      omega

/-- **A removal returns the slot of the number and forgets it.** -/
theorem remove (h : table.Represents map) (qpn : ℕ) :
    (table.remove qpn).2 = map.lookup qpn ∧
      (Counted.remove table qpn).1.Represents (map.erase qpn) := by
  unfold Counted.remove
  cases hfind : table.entries.findIndex qpn with
  | none =>
    have habsent : qpn ∉ map := by
      intro hmem
      obtain ⟨slot, i, hi⟩ := h.entries.mem_iff.mp hmem
      rw [h.wellFormed.findIndex_eq_some.mpr ⟨slot, hi⟩] at hfind
      cases hfind
    rw [erase_of_notMem habsent, Finmap.lookup_eq_none.mpr habsent]
    exact ⟨rfl, h⟩
  | some hole =>
    obtain ⟨slot, hhole⟩ := h.wellFormed.findIndex_eq_some.mp hfind
    have hlookup := (h.entries.lookup_eq_some qpn slot).mpr ⟨hole, hhole⟩
    have hmem := Finmap.mem_of_lookup_eq_some hlookup
    have hcard := card_keys_erase hmem
    have hentries := h.entries.shiftOut hole.pos hhole
    unfold QpnTable.remove
    rw [hfind]
    dsimp only
    rw [hhole, hlookup]
    refine ⟨rfl, hentries, fun other hother ↦ h.valid other (Finmap.mem_erase.mp hother).2, ?_⟩
    have hlen := h.len_eq
    dsimp only
    omega

/-- **One call.** -/
theorem call (h : table.Represents map) (next : Call) :
    (table.call next).1 = (mapCall N map next).1 ∧
      (Counted.call table next).2.Represents (mapCall N map next).2 := by
  cases next with
  | insert qpn slot =>
    have hinsert := h.insert qpn slot
    unfold Counted.call mapCall
    dsimp only
    cases houtcome : Counted.insert table qpn slot with
    | ok table' =>
      rw [houtcome] at hinsert
      obtain ⟨hle, habsent, hroom, h'⟩ := hinsert
      rw [if_neg (Nat.not_lt.mpr hle), if_neg habsent, if_neg hroom]
      exact ⟨rfl, h'⟩
    | error e =>
      rw [houtcome] at hinsert
      cases e with
      | invalidQpn number =>
        obtain ⟨hlt, rfl⟩ := hinsert
        rw [if_pos hlt]
        exact ⟨rfl, h⟩
      | duplicate number =>
        obtain ⟨hle, hmem, rfl⟩ := hinsert
        rw [if_neg (Nat.not_lt.mpr hle), if_pos hmem]
        exact ⟨rfl, h⟩
      | full =>
        obtain ⟨hle, habsent, hfull⟩ := hinsert
        rw [if_neg (Nat.not_lt.mpr hle), if_neg habsent, if_pos hfull]
        exact ⟨rfl, h⟩
  | remove qpn =>
    obtain ⟨hslot, h'⟩ := h.remove qpn
    exact ⟨congrArg Reply.slot hslot, h'⟩
  | get qpn => exact ⟨congrArg Reply.slot (h.get_eq qpn), h⟩
  | clear => exact ⟨rfl, represents_new⟩
  | len => exact ⟨congrArg Reply.count h.len_eq, h⟩

end Represents

end Counted

/-- **The index refines a finite map.**  For every capacity and after every sequence of calls the
replies are those of a map of at most `N` numbers, the count is the number of its keys, and every
number is found with the slot it is mapped to. -/
theorem qpn_table_refines_map (N : ℕ) (calls : List Call) :
    ∃ (replies : List Reply) (table : Counted N) (map : Finmap fun _ : ℕ ↦ ℕ),
      answers Counted.call Counted.new calls = (replies, table) ∧
      answers (mapCall N) ∅ calls = (replies, map) ∧
      map.keys.card ≤ N ∧ (∀ qpn ∈ map, qpn ≤ maxQpn) ∧
      table.len = map.keys.card ∧ ∀ qpn, table.get qpn = map.lookup qpn := by
  obtain ⟨hreplies, h⟩ := answers_refine (R := Counted.Represents)
    (fun _ _ next h ↦ h.call next) (Counted.represents_new (N := N)) calls
  exact ⟨_, _, _, rfl, Prod.ext hreplies.symm rfl, h.entries.card_le, h.valid, h.len_eq, h.get_eq⟩

end Rocev2.Core.QpnTable
