import Rocev2.Memory.Keys

/-!
# Runs of the registered-memory table

The registry by itself, under every sequence of registrations, deregistrations, retained and
released references, with any key source.  `CallEffect` lists what a call can do; from it, `Sound`
is kept by every call and holds along every run: the slots and the open-addressed key table
correspond exactly, the number of registrations is counted, and no region wraps around the address
space.

`registry_correct` reads off from `Sound` what a caller relies on.
-/

namespace Rocev2.Memory

variable {N : ℕ}

/-- A call of the registry. -/
inductive RegistryCall (N : ℕ) where
  /-- Register a buffer with keys of the deterministic sequence. -/
  | register (buffer : Buffer) (access : AccessFlags)
  /-- Register a buffer with keys of a caller's source. -/
  | registerWithKeyGenerator (buffer : Buffer) (access : AccessFlags) (generator : KeyGenerator)
  /-- Remove a region. -/
  | deregister (handle : RegionHandle)
  /-- Take a reference by a local key. -/
  | retainLocal (lkey : UInt32)
  /-- Take a reference by a remote key. -/
  | retainRemote (rkey : UInt32)
  /-- Give a reference back. -/
  | release (lease : Option (RegionLease N))

namespace MemoryRegistry

variable {result : MemoryRegistry N × Except MemoryError Unit} {slot : MemorySlot}

/-- The registry after a call, and whether the call failed. -/
def call (memory : MemoryRegistry N) : RegistryCall N → MemoryRegistry N × Except MemoryError Unit
  | .register buffer access =>
    let (memory, result) := memory.registerInner buffer access none
    (memory, result.map fun _ ↦ ())
  | .registerWithKeyGenerator buffer access generator =>
    let (memory, result) := memory.registerInner buffer access (some generator)
    (memory, result.map fun _ ↦ ())
  | .deregister handle =>
    let (memory, result) := memory.deregister handle
    (memory, result.map fun _ ↦ ())
  | .retainLocal lkey =>
    match memory.retainLocal lkey with
    | .ok (_, memory) => (memory, .ok ())
    | .error e => (memory, .error e)
  | .retainRemote rkey =>
    match memory.retainRemote rkey with
    | .ok (_, memory) => (memory, .ok ())
    | .error e => (memory, .error e)
  | .release lease =>
    let (memory, _, result) := memory.release lease
    (memory, result)

def calls (memory : MemoryRegistry N) (script : List (RegistryCall N)) : MemoryRegistry N :=
  script.foldl (fun memory next ↦ (memory.call next).1) memory

def live (memory : MemoryRegistry N) : Finset (Fin N) :=
  Finset.univ.filter fun i ↦ (memory.slots i).isSome

/-- A call that failed left the regions with their reference counts, the keys, the generations and
the bytes as they were. -/
structure Untouched (memory memory' : MemoryRegistry N) : Prop where
  slots : memory'.slots = memory.slots
  keys : memory'.keys = memory.keys
  generations : memory'.generations = memory.generations
  registered : memory'.registered = memory.registered
  bytes : memory'.bytes = memory.bytes

/-! ## One call -/

variable {memory : MemoryRegistry N}

/-- What a call does. -/
inductive CallEffect (memory : MemoryRegistry N) :
    MemoryRegistry N × Except MemoryError Unit → Prop
  /-- It fails; the key sequence may have advanced. -/
  | refused {sequence e} : CallEffect memory ({ memory with sequence := sequence }, .error e)
  /-- There is nothing to do. -/
  | unchanged : CallEffect memory (memory, .ok ())
  /-- A region is added. -/
  | added {buffer memory' handle} (h : RegisterEffect memory buffer (memory', .ok handle)) :
      CallEffect memory (memory', .ok ())
  /-- A region is removed. -/
  | removed {index slot} (hslot : memory.slots index = some slot) :
      CallEffect memory (memory.removed index slot, .ok ())
  /-- A reference count changes. -/
  | counted {index slot references} (hslot : memory.slots index = some slot) :
      CallEffect memory (memory.setReferences index slot references, .ok ())

theorem RegisterEffect.call {result : MemoryRegistry N × Except MemoryError RegionHandle}
    {buffer : Buffer} (h : RegisterEffect memory buffer result) :
    CallEffect memory (result.1, result.2.map fun _ ↦ ()) := by
  obtain ⟨memory', outcome⟩ := result
  cases outcome with
  | error e =>
    cases h
    exact .refused
  | ok handle => exact .added h

theorem callEffect_retain (key : UInt32) (kind : KeyKind) :
    CallEffect memory (match memory.retain key kind with
      | .ok (_, memory) => (memory, .ok ())
      | .error e => (memory, .error e)) := by
  split
  · rename_i hretain
    obtain ⟨index, slot, -, hslot, -, -, rfl⟩ := retain_eq_ok.mp hretain
    exact .counted hslot
  · exact .refused

theorem callEffect_release (lease : Option (RegionLease N)) :
    CallEffect memory ((memory.release lease).1, (memory.release lease).2.2) := by
  unfold release
  split
  · exact .unchanged
  split
  · exact .refused
  split
  · exact .refused
  rename_i slot hslot
  split
  · exact .refused
  · exact .counted hslot

theorem callEffect_deregister (handle : RegionHandle) :
    CallEffect memory ((memory.deregister handle).1,
      (memory.deregister handle).2.map fun _ ↦ ()) := by
  rcases deregister_spec memory handle with ⟨e, herror⟩ | ⟨index, slot, data, -, hslot, -, hok⟩
  · rw [herror]
    exact .refused
  · rw [hok]
    exact .removed hslot

/-- **The effects of a call.** -/
theorem call_effect (hkeyed : Keyed memory) (next : RegistryCall N) :
    CallEffect memory (memory.call next) := by
  cases next with
  | register buffer access => exact (registerInner_effect hkeyed buffer access none).call
  | registerWithKeyGenerator buffer access generator =>
    exact (registerInner_effect hkeyed buffer access (some generator)).call
  | deregister handle => exact callEffect_deregister handle
  | retainLocal lkey => exact callEffect_retain lkey .loc
  | retainRemote rkey => exact callEffect_retain rkey .remote
  | release lease => exact callEffect_release lease

theorem CallEffect.untouched (h : CallEffect memory result) {e : MemoryError}
    (herror : result.2 = .error e) :
    Untouched memory result.1 := by
  cases h with
  | refused => exact ⟨rfl, rfl, rfl, rfl, rfl⟩
  | unchanged => cases herror
  | added => cases herror
  | removed => cases herror
  | counted => cases herror

theorem CallEffect.keyed (hkeyed : Keyed memory) (h : CallEffect memory result) :
    Keyed result.1 := by
  cases h with
  | refused => exact ⟨hkeyed.wellFormed, hkeyed.holds⟩
  | unchanged => exact hkeyed
  | added hadded => exact (hadded.registered hkeyed).keyed
  | removed hslot => exact keyed_removed hkeyed hslot
  | counted hslot => exact hkeyed.congr (copied_setReferences hslot).toSameRegions

/-! ## Every run -/

/-- The slots and the key table correspond, the regions are counted, and none wraps around. -/
structure Sound (memory : MemoryRegistry N) : Prop where
  keyed : Keyed memory
  registered : memory.registered = memory.live.card
  bounded : ∀ index slot, memory.slots index = some slot →
    slot.address.toNat + slot.length < 2 ^ 64

@[simp]
theorem mem_live {i : Fin N} : i ∈ memory.live ↔ (memory.slots i).isSome = true := by
  simp [live]

theorem live_added {index : Fin N} {keys : KeyTable N (Fin N)} {sequence : ℕ} {bytes : ℕ → UInt8} :
    (memory.added index slot keys sequence bytes).live = insert index memory.live := by
  ext i
  rw [mem_live, Finset.mem_insert, mem_live]
  by_cases hi : i = index
  · simp [hi, added]
  · simp [hi, added]

theorem live_removed {index : Fin N} :
    (memory.removed index slot).live = memory.live.erase index := by
  ext i
  rw [mem_live, Finset.mem_erase, mem_live]
  by_cases hi : i = index
  · simp [hi, removed]
  · simp [hi, removed]

/-- Reference counts do not matter. -/
theorem Sound.setReferences (h : Sound memory) {index : Fin N}
    (hslot : memory.slots index = some slot) (references : ℕ) :
    Sound (memory.setReferences index slot references) := by
  have hcopied : Copied memory [] (memory.setReferences index slot references) :=
    copied_setReferences hslot
  have hsame := hcopied.toSameRegions
  refine ⟨h.keyed.congr hsame, ?_, fun i s hs ↦ ?_⟩
  · have hlive : (memory.setReferences index slot references).live = memory.live := by
      ext i
      have hi := congrArg Option.isSome (hsame.regions i)
      rw [Option.isSome_map, Option.isSome_map] at hi
      rw [mem_live, mem_live, hi]
    rw [hlive]
    exact h.registered
  · obtain ⟨s', hs', hregion⟩ := hsame.symm.slot hs
    have haddress : s'.address = s.address := congrArg (fun s ↦ s.address) hregion
    have hlength : s'.length = s.length := congrArg (fun s ↦ s.length) hregion
    rw [← haddress, ← hlength]
    exact h.bounded i s' hs'

/-- **One call.** -/
theorem Sound.step (h : Sound memory) (heffect : CallEffect memory result) : Sound result.1 := by
  have hkeyed := heffect.keyed h.keyed
  cases heffect with
  | refused => exact ⟨hkeyed, h.registered, h.bounded⟩
  | unchanged => exact h
  | added hadded =>
    cases hadded with
    | added hfree _ _ _ _ hbound =>
      refine ⟨hkeyed, ?_, fun i s hs ↦ ?_⟩
      · rw [live_added, Finset.card_insert_of_notMem (by simp [hfree]), ← h.registered]
        rfl
      · rcases added_slots hs with ⟨-, rfl⟩ | ⟨-, hs⟩
        · exact hbound
        · exact h.bounded i s hs
  | removed hslot =>
    refine ⟨hkeyed, ?_, fun i s hs ↦ h.bounded i s (removed_slots hs).2⟩
    rw [live_removed, Finset.card_erase_of_mem (by simp [hslot]), ← h.registered]
    rfl
  | counted hslot => exact h.setReferences hslot _

/-- **Every run.** -/
theorem Sound.calls (h : Sound memory) (script : List (RegistryCall N)) :
    Sound (memory.calls script) := by
  induction script generalizing memory with
  | nil => exact h
  | cons next script ih => exact ih (h.step (call_effect h.keyed next))

theorem sound_of_new {seed : UInt32} {identity : ℕ} {bytes : ℕ → UInt8}
    (hnew : MemoryRegistry.new N seed identity bytes = .ok memory) : Sound memory := by
  unfold MemoryRegistry.new at hnew
  split at hnew
  · cases hnew
  · cases hnew
    exact ⟨keyed_empty seed identity bytes, by simp [live, empty], nofun⟩

/-! ## What a caller relies on -/

/-- A live region has the key and grants the rights on the range, without wrapping around. -/
structure Serves (slot : MemorySlot) (key : UInt32) (kind : KeyKind) (required : AccessFlags)
    (address length : ℕ) : Prop where
  owner : slot.keyOf kind = key
  access : slot.access.contains required = true
  lower : slot.address.toNat ≤ address
  upper : address + length ≤ slot.address.toNat + slot.length
  requested : address + length < 2 ^ 64
  region : slot.address.toNat + slot.length < 2 ^ 64

theorem Sound.resolve_eq_ok (h : Sound memory) {key : UInt32} {kind : KeyKind}
    {required : AccessFlags} {address : UInt64} {length place : ℕ} :
    memory.resolve key kind required address length = .ok place ↔
      ∃ index slot, memory.slots index = some slot ∧
        Serves slot key kind required address.toNat length ∧
        place = slot.address.toNat + (address.toNat - slot.address.toNat) := by
  rw [MemoryRegistry.resolve_eq_ok]
  constructor
  · rintro ⟨rfl, index, slot, hgrants⟩
    have hlower := hgrants.lower
    exact ⟨index, slot, hgrants.slot_eq,
      ⟨hgrants.owner.symm, hgrants.access, hlower, hgrants.upper,
        hgrants.upper.trans_lt hgrants.bound, hgrants.bound⟩, by omega⟩
  · rintro ⟨index, slot, hslot, hserves, rfl⟩
    have hlower := hserves.lower
    exact ⟨by omega, index, slot, h.keyed.get_eq_some.mpr ⟨slot, hslot, hserves.owner⟩, hslot,
      hserves.owner.symm, hserves.access, hlower, hserves.upper, hserves.region⟩

/-- **The registry is correct after every sequence of calls.**  The key table holds exactly the keys
of the live regions, each in one bucket and found by a lookup; the live keys are distinct and not
zero; the regions are counted; a failing call touches nothing; there is room for the keys of a new
region whenever two were chosen; and resolution finds exactly the range that a live region
serves. -/
theorem registry_correct {start : MemoryRegistry N} {seed : UInt32} {identity : ℕ}
    {bytes : ℕ → UInt8} (hnew : MemoryRegistry.new N seed identity bytes = .ok start)
    (script : List (RegistryCall N)) (memory : MemoryRegistry N)
    (hrun : memory = start.calls script) :
    (Lib.LinearProbing.Distinct memory.keys ∧
      (∀ key kind index, memory.keys.Holds key kind index ↔
        ∃ slot, memory.slots index = some slot ∧ slot.keyOf kind = key) ∧
      ∀ key kind index, memory.keys.get key kind = some index ↔
        memory.keys.Holds key kind index) ∧
    (∀ index slot kind, memory.slots index = some slot → slot.keyOf kind ≠ 0) ∧
    (∀ index index' slot slot' kind kind', memory.slots index = some slot →
      memory.slots index' = some slot' → slot.keyOf kind = slot'.keyOf kind' →
        index = index' ∧ kind = kind') ∧
    memory.registered = memory.live.card ∧
    (∀ next e, (memory.call next).2 = .error e → Untouched memory (memory.call next).1) ∧
    (∀ index generator memory₁ memory₂ calls calls' lkey rkey, memory.freeSlot = some index →
      memory.nextKey generator 0 0 = (memory₁, calls, .ok lkey) →
      memory₁.nextKey generator calls lkey = (memory₂, calls', .ok rkey) →
      ∃ keys₁ keys₂, memory₂.keys.insert lkey index .loc = some keys₁ ∧
        keys₁.insert rkey index .remote = some keys₂) ∧
    ∀ key kind required (address : UInt64) length place,
      memory.resolve key kind required address length = .ok place ↔
        ∃ index slot, memory.slots index = some slot ∧
          Serves slot key kind required address.toNat length ∧
          place = slot.address.toNat + (address.toNat - slot.address.toNat) := by
  subst hrun
  have hsound := (sound_of_new hnew).calls script
  generalize start.calls script = memory at hsound
  have hkeyed := hsound.keyed
  refine ⟨⟨?_, hkeyed.holds, fun _ _ _ ↦ hkeyed.wellFormed.get_eq_some⟩, ?_, ?_,
    hsound.registered, fun next e ↦ (call_effect hkeyed next).untouched, ?_,
    fun _ _ _ _ _ _ ↦ hsound.resolve_eq_ok⟩
  · intro i
    exact (hkeyed.wellFormed.probed i.pos).distinct (i := i)
  · intro index slot kind hslot
    exact hkeyed.wellFormed.nonzero ((hkeyed.holds _ _ _).mpr ⟨slot, hslot, rfl⟩)
  · intro index index' slot slot' kind kind' hslot hslot' heq
    exact (hkeyed.keyOf_injective hslot hslot' heq).symm
  · intro index generator memory₁ memory₂ calls calls' lkey rkey hfree hlkey hrkey
    obtain ⟨⟨sequence₁, rfl⟩, husable₁⟩ := nextKeyLoop_spec hlkey
    obtain ⟨⟨sequence₂, rfl⟩, husable₂⟩ := nextKeyLoop_spec hrkey
    obtain ⟨keys₁, keys₂, hinsert₁, hinsert₂, -⟩ :=
      insert_keys hkeyed (slots_of_freeSlot hfree) (husable₁ lkey rfl) (husable₂ rkey rfl)
    exact ⟨keys₁, keys₂, hinsert₁, hinsert₂⟩

theorem registry_correct_one :
    ((MemoryRegistry.empty 7 0 fun _ ↦ 0 : MemoryRegistry 2).calls
      [.register ⟨4096, [1, 2, 3]⟩ ⟨true, true, true⟩,
        .registerWithKeyGenerator ⟨8192, [4]⟩ .none fun _ ↦ .ok 5]).live.card = 1 := by
  obtain ⟨-, -, -, hcounted, -⟩ := registry_correct (rfl :
    MemoryRegistry.new 2 7 0 (fun _ ↦ 0) = .ok (.empty 7 0 fun _ ↦ 0))
    [.register ⟨4096, [1, 2, 3]⟩ ⟨true, true, true⟩,
      .registerWithKeyGenerator ⟨8192, [4]⟩ .none fun _ ↦ .ok 5] _ rfl
  rw [← hcounted]
  decide +kernel

end MemoryRegistry

end Rocev2.Memory
