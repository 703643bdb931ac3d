import Rocev2.Memory.Registry

/-!
# Access to registered memory

What the operations of the registry do, stated once for the engine.

* `Grants` is the abstract reading of `resolve`: a live region of the right kind contains the
  requested range and carries the required right.
* `SameRegions` relates registries with the same keys and regions; they grant the same accesses.
  Reference counts, bytes and the history may differ.
* A copy changes bytes inside its own range only.
* `refs` counts the references to the region a lease names; `retain` and `release` move that
  count by one, which is what `Lib.Counted` needs.
-/

namespace Rocev2.Memory

open Rocev2.Lib

variable {N : ℕ}

/-! ## Copies -/

theorem copyToRegistered_of_not_mem {bytes : ℕ → UInt8} {address a : ℕ} {input : List UInt8}
    (h : ¬(address ≤ a ∧ a < address + input.length)) :
    copyToRegistered bytes address input a = bytes a := by
  unfold copyToRegistered
  split
  · rename_i hle
    have hlen : input.length ≤ a - address := by omega
    rw [List.getD_eq_getElem?_getD, List.getElem?_eq_none hlen, Option.getD_none]
  · rfl

@[simp]
theorem length_copyFromRegistered (bytes : ℕ → UInt8) (address length : ℕ) :
    (copyFromRegistered bytes address length).length = length := by
  simp [copyFromRegistered]

/-! ## Regions -/

def MemorySlot.region (slot : MemorySlot) : MemorySlot := { slot with references := 0 }

/-- Two registries with the same keys and the same regions. -/
structure SameRegions (memory memory' : MemoryRegistry N) : Prop where
  identity : memory'.identity = memory.identity
  keys : memory'.keys = memory.keys
  regions : ∀ i, (memory'.slots i).map MemorySlot.region = (memory.slots i).map MemorySlot.region

namespace SameRegions

variable {memory memory' memory'' : MemoryRegistry N}

theorem refl (memory : MemoryRegistry N) : SameRegions memory memory := ⟨rfl, rfl, fun _ ↦ rfl⟩

theorem symm (h : SameRegions memory memory') : SameRegions memory' memory :=
  ⟨h.identity.symm, h.keys.symm, fun i ↦ (h.regions i).symm⟩

theorem trans (h : SameRegions memory memory') (h' : SameRegions memory' memory'') :
    SameRegions memory memory'' :=
  ⟨h'.identity.trans h.identity, h'.keys.trans h.keys,
    fun i ↦ (h'.regions i).trans (h.regions i)⟩

theorem slot (h : SameRegions memory memory') {i : Fin N} {slot : MemorySlot}
    (hslot : memory.slots i = some slot) :
    ∃ slot', memory'.slots i = some slot' ∧ slot'.region = slot.region := by
  have hi := h.regions i
  rw [hslot, Option.map_some, Option.map_eq_some_iff] at hi
  exact hi

end SameRegions

def copyAll (bytes : ℕ → UInt8) (copies : List (ℕ × List UInt8)) : ℕ → UInt8 :=
  copies.foldl (fun bytes copy ↦ copyToRegistered bytes copy.1 copy.2) bytes

theorem copyAll_of_not_mem {bytes : ℕ → UInt8} {copies : List (ℕ × List UInt8)} {a : ℕ}
    (h : ∀ copy ∈ copies, ¬(copy.1 ≤ a ∧ a < copy.1 + copy.2.length)) :
    copyAll bytes copies a = bytes a := by
  induction copies generalizing bytes with
  | nil => rfl
  | cons copy copies ih =>
    rw [copyAll, List.foldl_cons, ← copyAll, ih fun c hc ↦ h c (List.mem_cons_of_mem _ hc),
      copyToRegistered_of_not_mem (h copy List.mem_cons_self)]

/-- The registry after a sequence of copies; reference counts may differ as well. -/
structure Copied (memory : MemoryRegistry N) (copies : List (ℕ × List UInt8))
    (memory' : MemoryRegistry N) : Prop extends SameRegions memory memory' where
  bytes : memory'.bytes = copyAll memory.bytes copies
  copies : memory'.copies = memory.copies ++ copies

namespace Copied

variable {memory memory' memory'' : MemoryRegistry N} {copies copies' : List (ℕ × List UInt8)}

theorem refl (memory : MemoryRegistry N) : Copied memory [] memory :=
  ⟨SameRegions.refl memory, rfl, (List.append_nil _).symm⟩

theorem trans (h : Copied memory copies memory') (h' : Copied memory' copies' memory'') :
    Copied memory (copies ++ copies') memory'' := by
  refine ⟨h.toSameRegions.trans h'.toSameRegions, ?_, ?_⟩
  · rw [h'.bytes, h.bytes]
    exact List.foldl_append.symm
  · rw [h'.copies, h.copies, List.append_assoc]

end Copied

/-- A live region grants access to a range. -/
structure Grants (memory : MemoryRegistry N) (kind : KeyKind) (required : AccessFlags)
    (key : UInt32) (address length : ℕ) (index : Fin N) (slot : MemorySlot) : Prop where
  key_eq : KeyTable.get memory.keys key kind = some index
  slot_eq : memory.slots index = some slot
  owner : key = slot.keyOf kind
  access : slot.access.contains required = true
  lower : slot.address.toNat ≤ address
  upper : address + length ≤ slot.address.toNat + slot.length
  bound : slot.address.toNat + slot.length < 2 ^ 64

namespace Grants

variable {memory memory' : MemoryRegistry N} {kind : KeyKind} {required : AccessFlags}
  {key : UInt32} {address length : ℕ} {index : Fin N} {slot : MemorySlot}

theorem mono (h : Grants memory kind required key address length index slot) {address' length' : ℕ}
    (hlower : address ≤ address') (hupper : address' + length' ≤ address + length) :
    Grants memory kind required key address' length' index slot :=
  ⟨h.key_eq, h.slot_eq, h.owner, h.access, h.lower.trans hlower, hupper.trans h.upper, h.bound⟩

theorem congr (hsame : SameRegions memory memory')
    (h : Grants memory kind required key address length index slot) :
    ∃ slot', slot'.region = slot.region ∧
      Grants memory' kind required key address length index slot' := by
  obtain ⟨slot', hslot', hregion⟩ := hsame.slot h.slot_eq
  have hkey : slot'.keyOf kind = slot.keyOf kind := congrArg (fun s ↦ s.keyOf kind) hregion
  have haccess : slot'.access = slot.access := congrArg (fun s ↦ s.access) hregion
  have haddress : slot'.address = slot.address := congrArg (fun s ↦ s.address) hregion
  have hlength : slot'.length = slot.length := congrArg (fun s ↦ s.length) hregion
  refine ⟨slot', hregion, ?_, hslot', ?_, ?_, ?_, ?_, ?_⟩
  · rw [hsame.keys]
    exact h.key_eq
  · rw [hkey]
    exact h.owner
  · rw [haccess]
    exact h.access
  · rw [haddress]
    exact h.lower
  · rw [haddress, hlength]
    exact h.upper
  · rw [haddress, hlength]
    exact h.bound

end Grants

namespace MemoryRegistry

variable {memory memory' : MemoryRegistry N} {kind : KeyKind} {required : AccessFlags}
  {key : UInt32} {address : UInt64} {length : ℕ} {input : List UInt8} {slot : MemorySlot}
  {lease : RegionLease N} {index : Fin N}

/-- Resolution succeeds exactly when a live region grants the range. -/
theorem resolve_eq_ok {place : ℕ} :
    memory.resolve key kind required address length = .ok place ↔
      place = address.toNat ∧
        ∃ index slot, Grants memory kind required key address.toNat length index slot := by
  constructor
  · intro h
    unfold resolve at h
    split at h
    · cases h
    · rename_i index hkey
      split at h
      · cases h
      · rename_i slot hslot
        split at h
        · cases h
        split at h
        · cases h
        split at h
        · cases h
        split at h
        · cases h
        split at h
        · cases h
        rename_i howner haccess _ hbound hrange
        cases h
        have howner' := not_not.mp howner
        have haccess' : slot.access.contains required = true := by simpa using haccess
        refine ⟨by omega, index, slot, hkey, hslot, howner', haccess', ?_, ?_, ?_⟩ <;> omega
  · rintro ⟨rfl, index, slot, h⟩
    have h₁ := h.lower
    have h₂ := h.upper
    have h₃ := h.bound
    have howner := h.owner
    unfold resolve
    rw [h.key_eq]
    simp only [h.slot_eq]
    rw [if_neg (not_not.mpr howner), h.access, if_neg (by simp), if_neg (by omega),
      if_neg (by omega), if_neg (by omega)]
    congr 1
    omega

theorem validate_eq_ok :
    memory.validate kind required key address length = .ok () ↔
      ∃ index slot, Grants memory kind required key address.toNat length index slot := by
  unfold validate
  constructor
  · intro h
    split at h
    · exact (resolve_eq_ok.mp ‹_›).2
    · cases h
  · intro h
    rw [resolve_eq_ok.mpr ⟨rfl, h⟩]

theorem not_grants_of_validate_error {e : MemoryError}
    (h : memory.validate kind required key address length = .error e) :
    ¬∃ index slot, Grants memory kind required key address.toNat length index slot := by
  intro hgrants
  rw [validate_eq_ok.mpr hgrants] at h
  cases h

theorem read_eq_ok {output : List UInt8} :
    memory.read kind required key address length = .ok output ↔
      output = copyFromRegistered memory.bytes address.toNat length ∧
        ∃ index slot, Grants memory kind required key address.toNat length index slot := by
  unfold read
  constructor
  · intro h
    split at h
    · rename_i place hplace
      obtain ⟨rfl, hgrants⟩ := resolve_eq_ok.mp hplace
      cases h
      exact ⟨rfl, hgrants⟩
    · cases h
  · rintro ⟨rfl, hgrants⟩
    rw [resolve_eq_ok.mpr ⟨rfl, hgrants⟩]

/-- A successful write copies into a granted range and changes nothing else. -/
theorem write_eq_ok :
    memory.write kind required key address input = .ok memory' ↔
      memory' = { memory with
          bytes := copyToRegistered memory.bytes address.toNat input
          copies := memory.copies ++ [(address.toNat, input)] } ∧
        ∃ index slot, Grants memory kind required key address.toNat input.length index slot := by
  unfold write
  constructor
  · intro h
    split at h
    · rename_i place hplace
      obtain ⟨rfl, hgrants⟩ := resolve_eq_ok.mp hplace
      cases h
      exact ⟨rfl, hgrants⟩
    · cases h
  · rintro ⟨rfl, hgrants⟩
    rw [resolve_eq_ok.mpr ⟨rfl, hgrants⟩]

/-! ## Reference counts -/

def refs (memory : MemoryRegistry N) (lease : RegionLease N) : ℕ :=
  if lease.registry = memory.identity then
    match memory.slots lease.slot with
    | some slot => if slot.generation = lease.generation then slot.references else 0
    | none => 0
  else 0

def leaseOf (memory : MemoryRegistry N) (index : Fin N) (slot : MemorySlot) : RegionLease N :=
  ⟨memory.identity, index, slot.generation⟩

theorem refs_leaseOf (h : memory.slots index = some slot) :
    memory.refs (memory.leaseOf index slot) = slot.references := by
  simp [refs, leaseOf, h]

theorem copied_of_write (h : memory.write kind required key address input = .ok memory') :
    Copied memory [(address.toNat, input)] memory' := by
  obtain ⟨rfl, -⟩ := write_eq_ok.mp h
  exact ⟨⟨rfl, rfl, fun _ ↦ rfl⟩, rfl, rfl⟩

theorem refs_of_write (h : memory.write kind required key address input = .ok memory') :
    memory'.refs = memory.refs := by
  obtain ⟨rfl, -⟩ := write_eq_ok.mp h
  rfl

theorem slot_of_refs_pos (h : 0 < memory.refs lease) :
    lease.registry = memory.identity ∧
      ∃ slot, memory.slots lease.slot = some slot ∧ slot.generation = lease.generation ∧
        0 < slot.references := by
  unfold refs at h
  split at h
  · refine ⟨‹_›, ?_⟩
    split at h
    · rename_i slot hslot
      split at h
      · exact ⟨slot, hslot, ‹_›, h⟩
      · exact absurd h (Nat.lt_irrefl 0)
    · exact absurd h (Nat.lt_irrefl 0)
  · exact absurd h (Nat.lt_irrefl 0)

def setReferences (memory : MemoryRegistry N) (index : Fin N) (slot : MemorySlot)
    (references : ℕ) : MemoryRegistry N :=
  { memory with
    slots := Function.update memory.slots index (some { slot with references := references }) }

theorem copied_setReferences {references : ℕ} (hslot : memory.slots index = some slot) :
    Copied memory [] (memory.setReferences index slot references) := by
  refine ⟨⟨rfl, rfl, fun i ↦ ?_⟩, rfl, (List.append_nil _).symm⟩
  by_cases hi : i = index
  · subst hi
    simp [setReferences, hslot, MemorySlot.region]
  · simp [setReferences, hi]

/-- Changing the reference count of a live slot changes the count of its lease only. -/
theorem refs_setReferences {references : ℕ} (hslot : memory.slots index = some slot) :
    (memory.setReferences index slot references).refs =
      Function.update memory.refs (memory.leaseOf index slot) references := by
  funext lease
  by_cases hlease : lease = memory.leaseOf index slot
  · subst hlease
    simp [refs, leaseOf, setReferences]
  · rw [Function.update_of_ne hlease]
    by_cases hindex : lease.slot = index
    · have hstale : ¬(lease.registry = memory.identity ∧ slot.generation = lease.generation) := by
        rintro ⟨hreg, hgen⟩
        refine hlease ?_
        obtain ⟨registry, index', generation⟩ := lease
        simp_all [leaseOf]
      by_cases hreg : lease.registry = memory.identity
      · have hgen : slot.generation ≠ lease.generation := fun hgen ↦ hstale ⟨hreg, hgen⟩
        simp [refs, setReferences, hindex, hslot, hgen]
      · simp [refs, setReferences, hreg]
    · simp [refs, setReferences, hindex]

theorem retain_eq_ok :
    memory.retain key kind = .ok (lease, memory') ↔
      ∃ index slot, KeyTable.get memory.keys key kind = some index ∧
        memory.slots index = some slot ∧ slot.references + 1 < 2 ^ 32 ∧
        lease = memory.leaseOf index slot ∧
        memory' = memory.setReferences index slot (slot.references + 1) := by
  unfold retain
  constructor
  · intro h
    split at h
    · cases h
    · rename_i index hkey
      split at h
      · cases h
      · rename_i slot hslot
        split at h
        · cases h
        · cases h
          exact ⟨index, slot, hkey, hslot, by omega, rfl, rfl⟩
  · rintro ⟨index, slot, hkey, hslot, hlt, rfl, rfl⟩
    simp only [hkey, hslot]
    rw [if_neg (by omega)]
    rfl

theorem counted_of_retain {held : Multiset (RegionLease N)}
    (hretain : memory.retain key kind = .ok (lease, memory')) (h : Counted memory.refs held) :
    Copied memory [] memory' ∧ Counted memory'.refs (lease ::ₘ held) := by
  obtain ⟨index, slot, -, hslot, -, rfl, rfl⟩ := retain_eq_ok.mp hretain
  refine ⟨copied_setReferences hslot, ?_⟩
  rw [refs_setReferences hslot, ← refs_leaseOf hslot]
  exact h.retain _

/-- Taking a reference fails only on an unknown key or a saturated counter. -/
theorem retain_eq_error {e : MemoryError} (h : memory.retain key kind = .error e) :
    (e = .invalidKey ∧ ∀ index, KeyTable.get memory.keys key kind = some index →
      memory.slots index = none) ∨
    (e = .referenceOverflow ∧ ∃ index slot, KeyTable.get memory.keys key kind = some index ∧
      memory.slots index = some slot ∧ 2 ^ 32 ≤ slot.references + 1) := by
  unfold retain at h
  split at h
  · rename_i hkey
    cases h
    exact .inl ⟨rfl, fun index hindex ↦ by rw [hkey] at hindex; cases hindex⟩
  · rename_i index hkey
    split at h
    · rename_i hslot
      cases h
      refine .inl ⟨rfl, fun index' hindex ↦ ?_⟩
      rw [hkey] at hindex
      cases hindex
      exact hslot
    · rename_i slot hslot
      split at h
      · rename_i hle
        cases h
        exact .inr ⟨rfl, index, slot, hkey, hslot, hle⟩
      · cases h

theorem release_of_refs_pos (h : 0 < memory.refs lease) :
    ∃ slot, memory.slots lease.slot = some slot ∧ memory.leaseOf lease.slot slot = lease ∧
      memory.release (some lease) =
        (memory.setReferences lease.slot slot (slot.references - 1), none, .ok ()) := by
  obtain ⟨hreg, slot, hslot, hgen, hpos⟩ := slot_of_refs_pos h
  refine ⟨slot, hslot, ?_, ?_⟩
  · obtain ⟨registry, index, generation⟩ := lease
    simp_all [leaseOf]
  · simp only [release]
    rw [if_neg (not_not.mpr hreg)]
    simp only [hslot]
    rw [if_neg (by omega)]
    rfl

end MemoryRegistry

end Rocev2.Memory
