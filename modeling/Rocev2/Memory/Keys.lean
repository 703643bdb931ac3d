import Rocev2.Memory.Access

/-!
# Registration and the keys of live regions

A live region owns its two keys: `Keyed` says that the key table holds exactly the keys of the live
regions, each for the slot and under the kind it belongs to.  Registration and deregistration keep
this, and neither disturbs a region that stays.  Together with the reference counts it follows that
a region in use keeps granting what it granted when the work was posted.

Because every slot owns at most two keys, a table in this state is half empty, and the insertion of
new keys cannot fail: `RegisterEffect` leaves those branches of a registration out.
-/

namespace Rocev2.Memory

variable {N : ℕ}

/-- The key table holds exactly the keys of the live regions. -/
structure Keyed (memory : MemoryRegistry N) : Prop where
  wellFormed : memory.keys.WellFormed
  holds : ∀ key kind index, memory.keys.Holds key kind index ↔
    ∃ slot, memory.slots index = some slot ∧ slot.keyOf kind = key

namespace Keyed

variable {memory memory' : MemoryRegistry N} {index : Fin N} {slot : MemorySlot}

theorem owned (h : Keyed memory) : memory.keys.Owned := by
  intro key key' kind index hkey hkey'
  obtain ⟨slot, hslot, rfl⟩ := (h.holds _ _ _).mp hkey
  obtain ⟨slot', hslot', rfl⟩ := (h.holds _ _ _).mp hkey'
  rw [Option.some.inj (hslot.symm.trans hslot')]

/-- **A lookup finds the live region that has the key.** -/
theorem get_eq_some (h : Keyed memory) {key : UInt32} {kind : KeyKind} :
    memory.keys.get key kind = some index ↔
      ∃ slot, memory.slots index = some slot ∧ slot.keyOf kind = key :=
  h.wellFormed.get_eq_some.trans (h.holds key kind index)

theorem keyOf_injective (h : Keyed memory) {index' : Fin N} {slot' : MemorySlot}
    {kind kind' : KeyKind} (hslot : memory.slots index = some slot)
    (hslot' : memory.slots index' = some slot') (heq : slot.keyOf kind = slot'.keyOf kind') :
    kind = kind' ∧ index = index' :=
  h.wellFormed.unique ((h.holds _ _ _).mpr ⟨slot, hslot, rfl⟩)
    ((h.holds _ _ _).mpr ⟨slot', hslot', heq.symm⟩)

theorem congr (hsame : SameRegions memory memory') (h : Keyed memory) : Keyed memory' := by
  rw [show Keyed memory' ↔ _ from ⟨fun h ↦ And.intro h.wellFormed h.holds, fun h ↦ ⟨h.1, h.2⟩⟩,
    hsame.keys]
  refine ⟨h.wellFormed, fun key kind index ↦ (h.holds key kind index).trans ⟨?_, ?_⟩⟩
  · rintro ⟨slot, hslot, hkey⟩
    obtain ⟨slot', hslot', hregion⟩ := hsame.slot hslot
    exact ⟨slot', hslot', (congrArg (fun s ↦ s.keyOf kind) hregion).trans hkey⟩
  · rintro ⟨slot', hslot', hkey⟩
    obtain ⟨slot, hslot, hregion⟩ := hsame.symm.slot hslot'
    exact ⟨slot, hslot, (congrArg (fun s ↦ s.keyOf kind) hregion).trans hkey⟩

end Keyed

theorem keyed_empty (seed : UInt32) (identity : ℕ) (bytes : ℕ → UInt8) :
    Keyed (.empty seed identity bytes : MemoryRegistry N) :=
  ⟨KeyTable.wellFormed_new, fun _ _ _ ↦ ⟨nofun, nofun⟩⟩

/-- `memory'` still has every region and key of `memory`. -/
structure Extends (memory memory' : MemoryRegistry N) : Prop where
  identity : memory'.identity = memory.identity
  slots : ∀ index slot, memory.slots index = some slot → memory'.slots index = some slot
  keys : ∀ key kind index, KeyTable.get memory.keys key kind = some index →
    KeyTable.get memory'.keys key kind = some index

namespace Extends

variable {memory memory' : MemoryRegistry N}

theorem grants (h : Extends memory memory') {kind : KeyKind} {required : AccessFlags}
    {key : UInt32} {address length : ℕ} {index : Fin N} {slot : MemorySlot}
    (hgrants : Grants memory kind required key address length index slot) :
    Grants memory' kind required key address length index slot :=
  ⟨h.keys _ _ _ hgrants.key_eq, h.slots _ _ hgrants.slot_eq, hgrants.owner, hgrants.access,
    hgrants.lower, hgrants.upper, hgrants.bound⟩

end Extends

namespace MemoryRegistry

variable {memory memory' : MemoryRegistry N} {index : Fin N}

/-! ## Registration -/

theorem usableKey_eq_true (hkeyed : Keyed memory) {key other : UInt32}
    (h : memory.usableKey key other = true) :
    key ≠ 0 ∧ key ≠ other ∧ ∀ kind index, ¬memory.keys.Holds key kind index := by
  unfold usableKey at h
  simp only [Bool.and_eq_true, bne_iff_ne, Bool.not_eq_true'] at h
  refine ⟨h.1.1, h.1.2, fun kind index hholds ↦ ?_⟩
  rw [hkeyed.wellFormed.contains_eq_true.mpr ⟨kind, index, hholds⟩] at h
  cases h.2

theorem nextKeyLoop_spec {other : UInt32} {generator : Option KeyGenerator} {attempts calls : ℕ}
    {result : MemoryRegistry N × ℕ × Except MemoryError UInt32}
    (h : nextKeyLoop other generator attempts memory calls = result) :
    (∃ sequence, result.1 = { memory with sequence := sequence }) ∧
      ∀ key, result.2.2 = .ok key → memory.usableKey key other = true := by
  induction attempts generalizing memory calls with
  | zero =>
    rw [← h]
    exact ⟨⟨memory.sequence, rfl⟩, nofun⟩
  | succ attempts ih =>
    unfold nextKeyLoop at h
    split at h
    · split at h
      · rw [← h]
        exact ⟨⟨memory.sequence, rfl⟩, nofun⟩
      · split at h
        · rename_i key _ husable
          rw [← h]
          refine ⟨⟨memory.sequence, rfl⟩, ?_⟩
          rintro _ ⟨⟩
          exact husable
        · exact ih h
    · split at h
      · dsimp only at h
        split at h
        · rename_i husable
          rw [← h]
          refine ⟨⟨memory.sequence + 1, rfl⟩, ?_⟩
          rintro _ ⟨⟩
          exact husable
        · obtain ⟨⟨sequence, hresult⟩, husable⟩ := ih h
          exact ⟨⟨sequence, hresult⟩, husable⟩
      · rw [← h]
        exact ⟨⟨memory.sequence, rfl⟩, nofun⟩

theorem slots_of_freeSlot (h : memory.freeSlot = some index) :
    memory.slots index = none := by
  have hnone := List.find?_some (p := fun i ↦ (memory.slots i).isNone) h
  exact Option.isNone_iff_eq_none.mp hnone

/-- The registry with a new region. -/
def added (memory : MemoryRegistry N) (index : Fin N) (slot : MemorySlot)
    (keys : KeyTable N (Fin N)) (sequence : ℕ) (bytes : ℕ → UInt8) : MemoryRegistry N :=
  { memory with
    sequence := sequence
    generations := Function.update memory.generations index slot.generation
    slots := Function.update memory.slots index (some slot)
    keys := keys
    registered := memory.registered + 1
    bytes := bytes }

/-- **The two keys of a new region are inserted**: the table has room for them. -/
theorem insert_keys (hkeyed : Keyed memory) (hfree : memory.slots index = none) {lkey rkey : UInt32}
    (hlkey : memory.usableKey lkey 0 = true) (hrkey : memory.usableKey rkey lkey = true) :
    ∃ keys₁ keys₂, memory.keys.insert lkey index .loc = some keys₁ ∧
      keys₁.insert rkey index .remote = some keys₂ ∧ keys₂.WellFormed ∧
      ∀ key kind i, keys₂.Holds key kind i ↔ memory.keys.Holds key kind i ∨
        i = index ∧ (key = lkey ∧ kind = .loc ∨ key = rkey ∧ kind = .remote) := by
  have hunowned : ∀ key kind, ¬memory.keys.Holds key kind index := by
    intro key kind hholds
    obtain ⟨slot, hslot, -⟩ := (hkeyed.holds key kind index).mp hholds
    rw [hfree] at hslot
    cases hslot
  obtain ⟨hlzero, -, hlabsent⟩ := usableKey_eq_true hkeyed hlkey
  obtain ⟨hrzero, hne, hrabsent⟩ := usableKey_eq_true hkeyed hrkey
  obtain ⟨keys₁, hinsert₁⟩ :=
    hkeyed.wellFormed.insert_isSome hkeyed.owned hlzero hlabsent index .loc
  obtain ⟨hwell₁, -, -, hholds₁⟩ := hkeyed.wellFormed.insert hinsert₁
  have howned₁ : keys₁.Owned := by
    intro key key' kind i hkey hkey'
    rcases (hholds₁ _ _ _).mp hkey with hold | ⟨rfl, rfl, rfl⟩
    · rcases (hholds₁ _ _ _).mp hkey' with hold' | ⟨rfl, rfl, rfl⟩
      · exact hkeyed.owned hold hold'
      · exact absurd hold (hunowned _ _)
    · rcases (hholds₁ _ _ _).mp hkey' with hold' | ⟨rfl, -, -⟩
      · exact absurd hold' (hunowned _ _)
      · rfl
  have hrabsent₁ : ∀ kind i, ¬keys₁.Holds rkey kind i := by
    intro kind i hholds
    rcases (hholds₁ _ _ _).mp hholds with hold | ⟨heq, -, -⟩
    · exact hrabsent kind i hold
    · exact hne heq
  obtain ⟨keys₂, hinsert₂⟩ := hwell₁.insert_isSome howned₁ hrzero hrabsent₁ index .remote
  obtain ⟨hwell₂, -, -, hholds₂⟩ := hwell₁.insert hinsert₂
  refine ⟨keys₁, keys₂, hinsert₁, hinsert₂, hwell₂, fun key kind i ↦ ?_⟩
  rw [hholds₂, hholds₁]
  tauto

/-- What an attempt to register a buffer does. -/
inductive RegisterEffect (memory : MemoryRegistry N) (buffer : Buffer) :
    MemoryRegistry N × Except MemoryError RegionHandle → Prop
  /-- It is refused; the key sequence may have advanced. -/
  | refused {sequence e} :
      RegisterEffect memory buffer ({ memory with sequence := sequence }, .error e)
  /-- A region is added. -/
  | added {index slot keys sequence bytes handle} (hfree : memory.slots index = none)
      (hwell : keys.WellFormed)
      (hholds : ∀ key kind i, keys.Holds key kind i ↔
        memory.keys.Holds key kind i ∨ i = index ∧ slot.keyOf kind = key)
      (hgeneration : slot.generation = memory.generations index + 1)
      (hreferences : slot.references = 0) (hbound : slot.address.toNat + slot.length < 2 ^ 64)
      (hrange : slot.address = buffer.address ∧ slot.length = buffer.data.length)
      (hbytes : bytes = copyToRegistered memory.bytes buffer.address.toNat buffer.data) :
      RegisterEffect memory buffer (memory.added index slot keys sequence bytes, .ok handle)

/-- **The effects of a registration.** -/
theorem registerInner_effect (hkeyed : Keyed memory) (buffer : Buffer) (access : AccessFlags)
    (generator : Option KeyGenerator) :
    RegisterEffect memory buffer (memory.registerInner buffer access generator) := by
  unfold registerInner
  split
  · exact .refused
  split
  · exact .refused
  split
  · exact .refused
  rename_i index hfree
  split
  · exact .refused
  rename_i hbound
  split
  · exact .refused
  split
  · rename_i hlkey
    obtain ⟨⟨sequence, rfl⟩, -⟩ := nextKeyLoop_spec hlkey
    exact .refused
  rename_i memory₁ calls lkey hlkey
  obtain ⟨⟨sequence₁, rfl⟩, husable₁⟩ := nextKeyLoop_spec hlkey
  split
  · rename_i hrkey
    obtain ⟨⟨sequence₂, rfl⟩, -⟩ := nextKeyLoop_spec hrkey
    exact .refused
  rename_i memory₂ _ rkey hrkey
  obtain ⟨⟨sequence₂, rfl⟩, husable₂⟩ := nextKeyLoop_spec hrkey
  obtain ⟨keys₁, keys₂, hinsert₁, hinsert₂, hwell, hholds⟩ :=
    insert_keys hkeyed (slots_of_freeSlot hfree) (husable₁ lkey rfl) (husable₂ rkey rfl)
  dsimp only
  rw [hinsert₁]
  dsimp only
  rw [hinsert₂]
  refine .added (slots_of_freeSlot hfree) hwell (fun key kind i ↦ ?_) rfl rfl
    (Nat.lt_of_not_le hbound) ⟨rfl, rfl⟩ rfl
  rw [hholds]
  cases kind
  all_goals simp [MemorySlot.keyOf, eq_comm]

theorem added_slots {i : Fin N} {slot slot' : MemorySlot} {keys : KeyTable N (Fin N)} {sequence : ℕ}
    {bytes : ℕ → UInt8} (h : (memory.added index slot keys sequence bytes).slots i = some slot') :
    i = index ∧ slot' = slot ∨ i ≠ index ∧ memory.slots i = some slot' := by
  change Function.update memory.slots index (some slot) i = some slot' at h
  by_cases hi : i = index
  · subst hi
    rw [Function.update_self] at h
    exact .inl ⟨rfl, (Option.some.inj h).symm⟩
  · rw [Function.update_of_ne hi] at h
    exact .inr ⟨hi, h⟩

/-- The registry after an attempted registration. -/
structure Registered (memory memory' : MemoryRegistry N) : Prop extends Extends memory memory' where
  refs : memory'.refs = memory.refs
  keyed : Keyed memory'
  copies : memory'.copies = memory.copies

/-- **Registration disturbs nothing that is registered.** -/
theorem RegisterEffect.registered {result : MemoryRegistry N × Except MemoryError RegionHandle}
    {buffer : Buffer} (hkeyed : Keyed memory) (h : RegisterEffect memory buffer result) :
    Registered memory result.1 := by
  cases h with
  | refused =>
    exact ⟨⟨rfl, fun _ _ h ↦ h, fun _ _ _ h ↦ h⟩, rfl, ⟨hkeyed.wellFormed, hkeyed.holds⟩, rfl⟩
  | @added index slot keys sequence bytes _ hfree hwell hholds _ hreferences _ =>
    have hne : ∀ i s, memory.slots i = some s → i ≠ index := by
      rintro i s hs rfl
      rw [hfree] at hs
      cases hs
    refine ⟨⟨rfl, fun i s hs ↦ ?_, fun key kind i hi ↦ ?_⟩, ?_, ⟨hwell, fun key kind i ↦ ?_⟩, rfl⟩
    · exact (Function.update_of_ne (hne i s hs) _ _).trans hs
    · rw [hkeyed.wellFormed.get_eq_some] at hi
      exact hwell.get_eq_some.mpr ((hholds key kind i).mpr (.inl hi))
    · -- The new region has no reference, as the empty slot had none.
      funext lease
      unfold refs MemoryRegistry.added
      by_cases hindex : lease.slot = index
      · simp [hindex, hfree, hreferences]
      · simp [hindex]
    · change keys.Holds key kind i ↔ _
      rw [hholds, hkeyed.holds]
      constructor
      · rintro (⟨s, hs, hkey⟩ | ⟨rfl, hkey⟩)
        · exact ⟨s, (Function.update_of_ne (hne i s hs) _ _).trans hs, hkey⟩
        · exact ⟨slot, Function.update_self .., hkey⟩
      · rintro ⟨s, hs, hkey⟩
        rcases added_slots hs with ⟨rfl, rfl⟩ | ⟨-, hs⟩
        · exact .inr ⟨rfl, hkey⟩
        · exact .inl ⟨s, hs, hkey⟩

/-! ## Deregistration -/

def removed (memory : MemoryRegistry N) (index : Fin N) (slot : MemorySlot) : MemoryRegistry N :=
  { memory with
    slots := Function.update memory.slots index none
    keys := KeyTable.remove (KeyTable.remove memory.keys slot.lkey) slot.rkey
    registered := memory.registered - 1 }

theorem deregister_spec (memory : MemoryRegistry N) (handle : RegionHandle) :
    (∃ e, memory.deregister handle = (memory, .error e)) ∨
      ∃ index slot data, index.val = handle.slot ∧ memory.slots index = some slot ∧
        slot.references = 0 ∧ memory.deregister handle = (memory.removed index slot, .ok data) := by
  unfold deregister
  split
  · split
    · exact .inl ⟨_, rfl⟩
    · rename_i slot hslot
      split
      · exact .inl ⟨_, rfl⟩
      split
      · exact .inl ⟨_, rfl⟩
      · rename_i hreferences
        exact .inr ⟨_, slot, _, rfl, hslot, not_not.mp hreferences, rfl⟩
  · exact .inl ⟨_, rfl⟩

section Removed

variable {index : Fin N} {slot : MemorySlot}

theorem refs_removed (hslot : memory.slots index = some slot) (hreferences : slot.references = 0) :
    (memory.removed index slot).refs = memory.refs := by
  funext lease
  unfold refs removed
  by_cases hindex : lease.slot = index
  · simp [hindex, hslot, hreferences]
  · simp [hindex]

/-- Removing a region forgets its two keys. -/
theorem holds_removed (hkeyed : Keyed memory) (hslot : memory.slots index = some slot)
    (key : UInt32) (kind : KeyKind) (i : Fin N) :
    (memory.removed index slot).keys.WellFormed ∧
      ((memory.removed index slot).keys.Holds key kind i ↔
        memory.keys.Holds key kind i ∧ i ≠ index) := by
  obtain ⟨hwell₁, hholds₁⟩ :=
    hkeyed.wellFormed.remove (hkeyed.wellFormed.exists_seam hkeyed.owned) slot.lkey
  have howned₁ : (memory.keys.remove slot.lkey).Owned := fun _ _ _ _ h h' ↦
    hkeyed.owned ((hholds₁ _ _ _).mp h).1 ((hholds₁ _ _ _).mp h').1
  obtain ⟨hwell₂, hholds₂⟩ := hwell₁.remove (hwell₁.exists_seam howned₁) slot.rkey
  refine ⟨hwell₂, ?_⟩
  change ((memory.keys.remove slot.lkey).remove slot.rkey).Holds key kind i ↔ _
  rw [hholds₂, hholds₁, and_assoc, and_congr_right_iff, hkeyed.holds]
  rintro ⟨slot', hslot', rfl⟩
  constructor
  · rintro ⟨hlkey, hrkey⟩ rfl
    cases Option.some.inj (hslot.symm.trans hslot')
    cases kind
    · exact hlkey rfl
    · exact hrkey rfl
  · intro hne
    have hother : ∀ kind', slot'.keyOf kind ≠ slot.keyOf kind' := fun kind' heq ↦
      hne (hkeyed.keyOf_injective hslot' hslot heq).2
    exact ⟨hother .loc, hother .remote⟩

theorem removed_slots {i : Fin N} {slot' : MemorySlot}
    (h : (memory.removed index slot).slots i = some slot') :
    i ≠ index ∧ memory.slots i = some slot' := by
  change Function.update memory.slots index none i = some slot' at h
  by_cases hi : i = index
  · subst hi
    rw [Function.update_self] at h
    cases h
  · rw [Function.update_of_ne hi] at h
    exact ⟨hi, h⟩

theorem keyed_removed (hkeyed : Keyed memory) (hslot : memory.slots index = some slot) :
    Keyed (memory.removed index slot) := by
  refine ⟨(holds_removed hkeyed hslot 0 .loc index).1, fun key kind i ↦ ?_⟩
  rw [(holds_removed hkeyed hslot key kind i).2, hkeyed.holds]
  constructor
  · rintro ⟨⟨slot', hslot', hkey⟩, hne⟩
    exact ⟨slot', (Function.update_of_ne hne _ _).trans hslot', hkey⟩
  · rintro ⟨slot', hslot', hkey⟩
    obtain ⟨hne, hslot'⟩ := removed_slots hslot'
    exact ⟨⟨slot', hslot', hkey⟩, hne⟩

theorem grants_removed (hkeyed : Keyed memory) (hslot : memory.slots index = some slot)
    {kind : KeyKind} {required : AccessFlags} {key : UInt32} {address length : ℕ} {index' : Fin N}
    {slot' : MemorySlot} (hne : index' ≠ index)
    (h : Grants memory kind required key address length index' slot') :
    Grants (memory.removed index slot) kind required key address length index' slot' := by
  have hslot' := (Function.update_of_ne hne none memory.slots).trans h.slot_eq
  refine ⟨?_, hslot', h.owner, h.access, h.lower, h.upper, h.bound⟩
  exact (keyed_removed hkeyed hslot).get_eq_some.mpr ⟨slot', hslot', h.owner.symm⟩

end Removed

end MemoryRegistry

end Rocev2.Memory
