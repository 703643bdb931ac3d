import Mathlib.Data.Fintype.Prod
import Rocev2.Lib.LinearProbing.Removal

/-!
# The protection keys

`rocev2-memory/src/keys.rs`: an open-addressed table from the protection keys to the slots of their
regions, with four buckets for each slot.  An empty bucket, which the source marks by the key zero,
is `none`; the zero key is never inserted.  Removal inserts the cluster behind the removed key
again.

A table in use is `WellFormed`, and `WellFormed.get_eq_some`, `.insert`, `.insert_isSome` and
`.remove` are what the registry needs to know about it.  The table itself stores any slot number;
in the registry of `N` slots each slot owns at most one key of each kind (`Owned`), which keeps the
table half empty.
-/

namespace Rocev2.Memory

open Rocev2.Lib

/-- Whether a key is a local or a remote one. -/
inductive KeyKind where
  | loc
  | remote
deriving DecidableEq, Repr

/-- The bijective mixer of the key sequence and of the key table. -/
def mix32 (value : UInt32) : UInt32 :=
  let value := value ^^^ (value >>> 16)
  let value := value * 0x7feb352d
  let value := value ^^^ (value >>> 15)
  let value := value * 0x846ca68b
  value ^^^ (value >>> 16)

abbrev KeyTable (N : ℕ) (σ : Type) := LinearProbing.Table (4 * N) UInt32 (σ × KeyKind)

namespace KeyTable

variable {N : ℕ} {σ : Type}

def new : KeyTable N σ := LinearProbing.empty

def bucket (h : 0 < 4 * N) (key : UInt32) : Fin (4 * N) :=
  ⟨(mix32 key).toNat % (4 * N), Nat.mod_lt _ h⟩

variable (keys : KeyTable N σ)

def position (key : UInt32) : Option (Fin (4 * N)) :=
  if h : 0 < 4 * N ∧ key ≠ 0 then LinearProbing.find (bucket h.1) keys key else none

/-- Whether a key is present. -/
def contains (key : UInt32) : Bool := (keys.position key).isSome

def get (key : UInt32) (kind : KeyKind) : Option σ :=
  match keys.position key with
  | none => none
  | some index =>
    match keys index with
    | none => none
    | some (_, slot, kind') => if kind' = kind then some slot else none

/-- Insert a key, failing when it is zero or present or when the table is full. -/
def insert (key : UInt32) (slot : σ) (kind : KeyKind) :
    Option (KeyTable N σ) :=
  if h : 0 < 4 * N ∧ key ≠ 0 then
    match LinearProbing.insert (bucket h.1) keys key (slot, kind) with
    | .ok inserted => some inserted
    | .error _ => none
  else none

def remove (key : UInt32) : KeyTable N σ :=
  if h : 0 < 4 * N ∧ key ≠ 0 then LinearProbing.removeReinsert (bucket h.1) keys key else keys

def Holds (key : UInt32) (kind : KeyKind) (slot : σ) : Prop :=
  LinearProbing.Maps keys key (slot, kind)

/-- No walk to a key is cut off, and no key is zero. -/
structure WellFormed (keys : KeyTable N σ) : Prop where
  probed : ∀ h : 0 < 4 * N, LinearProbing.WellProbed (bucket h) keys
  nonzero : ∀ ⦃key kind slot⦄, keys.Holds key kind slot → key ≠ 0

def Owned : Prop :=
  ∀ ⦃key key' kind slot⦄, keys.Holds key kind slot → keys.Holds key' kind slot → key = key'

theorem wellFormed_new : (new : KeyTable N σ).WellFormed :=
  ⟨fun _ ↦ LinearProbing.wellProbed_empty _, nofun⟩

theorem get_unique {keys : KeyTable N σ} {key : UInt32} {kind kind' : KeyKind} {index index' : σ}
    (h : get keys key kind = some index) (h' : get keys key kind' = some index') :
    kind = kind' ∧ index = index' := by
  unfold get at h h'
  cases hposition : keys.position key with
  | none =>
    rw [hposition] at h
    cases h
  | some bucket =>
    rw [hposition] at h h'
    dsimp only at h h'
    split at h
    · cases h
    · rename_i slot found hentry
      rw [hentry] at h'
      dsimp only at h'
      split at h
      · rename_i hkind
        split at h'
        · rename_i hkind'
          exact ⟨hkind.symm.trans hkind', Option.some.inj (h.symm.trans h')⟩
        · cases h'
      · cases h

namespace WellFormed

variable {keys keys' : KeyTable N σ} {key other : UInt32} {kind : KeyKind} {slot : σ}

/-- **A lookup finds what the table holds.** -/
theorem get_eq_some (h : keys.WellFormed) :
    keys.get key kind = some slot ↔ keys.Holds key kind slot := by
  unfold get position
  by_cases hpos : 0 < 4 * N ∧ key ≠ 0
  · rw [dif_pos hpos]
    constructor
    · intro hget
      split at hget
      · cases hget
      · rename_i index hfind
        obtain ⟨⟨slot', kind'⟩, hindex⟩ := (h.probed hpos.1).find_eq_some.mp hfind
        rw [hindex] at hget
        dsimp only at hget
        split at hget
        · rename_i hkind
          cases hget
          subst hkind
          exact ⟨index, hindex⟩
        · cases hget
    · rintro ⟨index, hindex⟩
      rw [(h.probed hpos.1).find_eq_some.mpr ⟨_, hindex⟩]
      dsimp only
      rw [hindex]
      exact if_pos rfl
  · rw [dif_neg hpos]
    constructor
    · nofun
    · intro hholds
      exact absurd ⟨hholds.choose.pos, h.nonzero hholds⟩ hpos

theorem contains_eq_true (h : keys.WellFormed) :
    keys.contains key = true ↔ ∃ kind slot, keys.Holds key kind slot := by
  unfold contains position
  by_cases hpos : 0 < 4 * N ∧ key ≠ 0
  · rw [dif_pos hpos, Option.isSome_iff_exists]
    constructor
    · rintro ⟨index, hfind⟩
      obtain ⟨⟨slot, kind⟩, hindex⟩ := (h.probed hpos.1).find_eq_some.mp hfind
      exact ⟨kind, slot, index, hindex⟩
    · rintro ⟨kind, slot, index, hindex⟩
      exact ⟨index, (h.probed hpos.1).find_eq_some.mpr ⟨_, hindex⟩⟩
  · rw [dif_neg hpos]
    constructor
    · nofun
    · rintro ⟨kind, slot, hholds⟩
      exact absurd ⟨hholds.choose.pos, h.nonzero hholds⟩ hpos

theorem unique (h : keys.WellFormed) {kind' : KeyKind} {slot' : σ}
    (hholds : keys.Holds key kind slot) (hholds' : keys.Holds key kind' slot') :
    kind = kind' ∧ slot = slot' := by
  have hpos := hholds.choose.pos
  cases (h.probed hpos).distinct.maps_unique hholds hholds'
  exact ⟨rfl, rfl⟩

/-- **The table is never full**: it has two buckets for each key. -/
theorem exists_none {keys : KeyTable N (Fin N)} (h : keys.WellFormed) (howned : keys.Owned)
    (hpos : 0 < 4 * N) :
    ∃ e, keys e = none := by
  refine LinearProbing.exists_none (fun entry ↦ (entry.2.1, decide (entry.2.2 = .loc)))
    (fun i j entry entry' hi hj heq ↦ ?_) ?_
  · obtain ⟨key, slot, kind⟩ := entry
    obtain ⟨key', slot', kind'⟩ := entry'
    obtain ⟨rfl, hkind⟩ : slot = slot' ∧ decide (kind = .loc) = decide (kind' = .loc) := by
      simpa only [Prod.mk.injEq] using heq
    obtain rfl : kind = kind' := by
      cases kind <;> cases kind' <;> first | rfl | cases hkind
    obtain rfl : key = key' := howned ⟨i, hi⟩ ⟨j, hj⟩
    exact (h.probed hpos).distinct hi hj
  · rw [Fintype.card_prod, Fintype.card_fin, Fintype.card_bool]
    omega

theorem exists_seam {keys : KeyTable N (Fin N)} (h : keys.WellFormed) (howned : keys.Owned)
    (hpos : 0 < 4 * N) : ∃ e, LinearProbing.Seam (bucket hpos) keys e := by
  obtain ⟨e, he⟩ := h.exists_none howned hpos
  exact ⟨e, (h.probed hpos).seam he⟩

/-- **An insertion adds a new key.** -/
theorem insert (h : keys.WellFormed) (hinsert : keys.insert key slot kind = some keys') :
    keys'.WellFormed ∧ (∀ h, ∃ e, LinearProbing.Seam (bucket h) keys' e) ∧
      (∀ kind' slot', ¬keys.Holds key kind' slot') ∧ ∀ other kind' slot',
      keys'.Holds other kind' slot' ↔
        keys.Holds other kind' slot' ∨ other = key ∧ kind' = kind ∧ slot' = slot := by
  unfold KeyTable.insert at hinsert
  split at hinsert
  · rename_i hpos
    split at hinsert
    · rename_i inserted hok
      cases hinsert
      obtain ⟨hprobed, hseam, habsent, hmaps⟩ := (h.probed hpos.1).insert_ok hok
      have hholds : ∀ other kind' slot', keys'.Holds other kind' slot' ↔
          keys.Holds other kind' slot' ∨ other = key ∧ kind' = kind ∧ slot' = slot := by
        intro other kind' slot'
        refine (hmaps other (slot', kind')).trans (or_congr_right (and_congr_right fun _ ↦ ?_))
        rw [Prod.mk.injEq, and_comm]
      refine ⟨⟨fun _ ↦ hprobed, fun other kind' slot' hother ↦ ?_⟩,
        fun _ ↦ hseam, fun kind' slot' ↦ habsent (slot', kind'), hholds⟩
      rcases (hholds other kind' slot').mp hother with hother | ⟨rfl, -, -⟩
      · exact h.nonzero hother
      · exact hpos.2
    · cases hinsert
  · cases hinsert

/-- **The insertion of a new key succeeds.** -/
theorem insert_isSome {keys : KeyTable N (Fin N)} (h : keys.WellFormed) (howned : keys.Owned)
    (hkey : key ≠ 0)
    (habsent : ∀ kind' slot', ¬keys.Holds key kind' slot') (slot : Fin N) (kind : KeyKind) :
    ∃ keys', keys.insert key slot kind = some keys' := by
  have hpos : 0 < 4 * N := Nat.mul_pos (by decide) slot.pos
  unfold KeyTable.insert
  rw [dif_pos ⟨hpos, hkey⟩]
  cases hinsert : LinearProbing.insert (bucket hpos) keys key (slot, kind) with
  | ok inserted => exact ⟨inserted, rfl⟩
  | error e =>
    obtain ⟨-, ⟨slot', kind'⟩, hmaps⟩ :=
      LinearProbing.WellProbed.insert_error (h.exists_none howned hpos) hinsert
    exact absurd hmaps (habsent kind' slot')

/-- **A removal forgets one key.** -/
theorem remove (h : keys.WellFormed) (hseam : ∀ h, ∃ e, LinearProbing.Seam (bucket h) keys e)
    (key : UInt32) :
    (keys.remove key).WellFormed ∧ ∀ other kind slot,
      (KeyTable.remove keys key).Holds other kind slot ↔
        keys.Holds other kind slot ∧ other ≠ key := by
  unfold KeyTable.remove
  split
  · rename_i hpos
    obtain ⟨hprobed, -, hmaps⟩ := (h.probed hpos.1).removeReinsert (hseam hpos.1) key
    refine ⟨⟨fun _ ↦ hprobed, fun other kind slot hholds ↦ ?_⟩,
      fun other kind slot ↦ hmaps other (slot, kind)⟩
    exact h.nonzero ((hmaps other (slot, kind)).mp hholds).1
  · rename_i hpos
    refine ⟨h, fun other kind slot ↦ ⟨fun hholds ↦ ⟨hholds, ?_⟩, And.left⟩⟩
    rintro rfl
    exact hpos ⟨hholds.choose.pos, h.nonzero hholds⟩

end WellFormed

end KeyTable

end Rocev2.Memory
