import Rocev2.Lib.Bits
import Rocev2.Memory.RegistryRun

/-!
# The deterministic key sequence

A registry without a key source of the caller draws its keys from one counter: the candidate at a
position is the mixed sum of the position and the seed.  Mixing loses nothing, so distinct positions
have distinct candidates, and only one position has the candidate zero.

`Advance` follows a run: the keys handed out on the way are the candidates at increasing positions
that the counter passed, and every live region has one of them or had its key before.  Calls advance
the registry and advances compose.  From this it follows that no key is handed out twice, that the
search for a key always ends at its second candidate, and that a key whose region is gone stays
unknown for the rest of the run, also when the counter has reached its end.
-/

namespace Rocev2.Memory

open Rocev2.Lib

variable {N : ℕ}

/-! ## Candidates -/

/-- **Mixing is injective**: it is made of shifts that can be undone and of odd factors. -/
theorem mix32_injective : Function.Injective mix32 := by
  have hshift₁₆ : Function.Injective fun word : UInt32 ↦ word ^^^ (word >>> 16) :=
    Bits.xorShift_injective (by decide)
  have hshift₁₅ : Function.Injective fun word : UInt32 ↦ word ^^^ (word >>> 15) :=
    Bits.xorShift_injective (by decide)
  have hfirst : Function.Injective fun word : UInt32 ↦ word * 0x7feb352d :=
    Bits.mul_injective (show (0x7feb352d : UInt32) * 0x1d69e2a5 = 1 by decide)
  have hsecond : Function.Injective fun word : UInt32 ↦ word * 0x846ca68b :=
    Bits.mul_injective (show (0x846ca68b : UInt32) * 0x43021123 = 1 by decide)
  exact hshift₁₆.comp (hsecond.comp (hshift₁₅.comp (hfirst.comp hshift₁₆)))

def candidate (seed : UInt32) (position : ℕ) : UInt32 := mix32 (UInt32.ofNat position + seed)

theorem candidate_inj {seed : UInt32} {p q : ℕ} (hp : p < 2 ^ 32) (hq : q < 2 ^ 32)
    (heq : candidate seed p = candidate seed q) : p = q := by
  have hsum : UInt32.ofNat p + seed = UInt32.ofNat q + seed := mix32_injective heq
  have hword : (UInt32.ofNat p).toNat = (UInt32.ofNat q).toNat :=
    congrArg UInt32.toNat ((UInt32.add_left_inj seed).mp hsum)
  rwa [UInt32.toNat_ofNat_of_lt' hp, UInt32.toNat_ofNat_of_lt' hq] at hword

def RegionHandle.keys (handle : RegionHandle) : List UInt32 := [handle.lkey, handle.rkey]

def RegistryCall.Deterministic : RegistryCall N → Prop
  | .registerWithKeyGenerator _ _ _ => False
  | _ => True

namespace MemoryRegistry

variable {memory memory' : MemoryRegistry N} {key : UInt32}

def Spent (memory : MemoryRegistry N) (key : UInt32) : Prop :=
  ∃ position ≤ memory.sequence, 0 < position ∧ candidate memory.seed position = key

/-- The keys of the live regions were drawn from the sequence. -/
structure Drawing (memory : MemoryRegistry N) : Prop where
  keyed : Keyed memory
  bound : memory.sequence < 2 ^ 32
  spent : ∀ index slot kind, memory.slots index = some slot → memory.Spent (slot.keyOf kind)

theorem Drawing.moved (h : Drawing memory) {sequence : ℕ} (hle : memory.sequence ≤ sequence)
    (hbound : sequence < 2 ^ 32) : Drawing { memory with sequence := sequence } := by
  refine ⟨⟨h.keyed.wellFormed, h.keyed.holds⟩, hbound, fun index slot kind hslot ↦ ?_⟩
  obtain ⟨position, hposition, hpos, hkey⟩ := h.spent index slot kind hslot
  exact ⟨position, hposition.trans hle, hpos, hkey⟩

theorem not_spent_candidate {position : ℕ} (hlt : memory.sequence < position)
    (hbound : position < 2 ^ 32) : ¬memory.Spent (candidate memory.seed position) := by
  rintro ⟨earlier, hle, -, heq⟩
  have := candidate_inj (by omega) hbound heq
  omega

/-- **A key that has not been drawn is usable** unless it is zero. -/
theorem Drawing.usableKey (h : Drawing memory) {other : UInt32} (hfresh : ¬memory.Spent key)
    (hother : other = 0 ∨ memory.Spent other) (hzero : key ≠ 0) :
    memory.usableKey key other = true := by
  have hne : key ≠ other := by
    rintro rfl
    exact hother.elim hzero hfresh
  have habsent : ¬memory.keys.contains key = true := by
    rw [h.keyed.wellFormed.contains_eq_true]
    rintro ⟨kind, index, hholds⟩
    obtain ⟨slot, hslot, rfl⟩ := (h.keyed.holds _ _ _).mp hholds
    exact hfresh (h.spent index slot kind hslot)
  simp [MemoryRegistry.usableKey, hzero, hne, habsent]

/-- What the search for a deterministic key finds. -/
inductive Drawn (memory : MemoryRegistry N) :
    MemoryRegistry N × ℕ × Except MemoryError UInt32 → Prop
  /-- The candidate at the counter's new position. -/
  | key {position calls} (hlt : memory.sequence < position) (hbound : position < 2 ^ 32)
      (hzero : candidate memory.seed position ≠ 0) :
      Drawn memory ({ memory with sequence := position }, calls,
        .ok (candidate memory.seed position))
  /-- The counter is at its end. -/
  | exhausted {position calls} (hle : memory.sequence ≤ position) (hbound : position < 2 ^ 32) :
      Drawn memory ({ memory with sequence := position }, calls, .error .keySpaceExhausted)

theorem Drawn.later {position : ℕ} {result : MemoryRegistry N × ℕ × Except MemoryError UInt32}
    (hle : memory.sequence ≤ position)
    (h : Drawn { memory with sequence := position } result) : Drawn memory result := by
  cases h with
  | key hlt hbound hzero => exact .key (lt_of_le_of_lt hle hlt) hbound hzero
  | exhausted hle' hbound => exact .exhausted (hle.trans hle') hbound

/-- **The search does not run out of attempts.**  Only the candidate zero is skipped, and it is met
once: two attempts are enough, and one is when zero has been passed. -/
theorem nextKeyLoop_drawn {other : UInt32} {attempts calls : ℕ} (h : Drawing memory)
    (hother : other = 0 ∨ memory.Spent other)
    (hattempts : 2 ≤ attempts ∨ 1 ≤ attempts ∧ memory.Spent 0) :
    Drawn memory (nextKeyLoop other none attempts memory calls) := by
  induction attempts generalizing memory with
  | zero => omega
  | succ attempts ih =>
    unfold nextKeyLoop
    dsimp only
    split
    · rename_i hbound
      have hfresh := not_spent_candidate (Nat.lt_succ_self memory.sequence) hbound
      have hmoved := h.moved (Nat.le_succ memory.sequence) hbound
      split
      · rename_i husable
        exact .key (Nat.lt_succ_self _) hbound (usableKey_eq_true hmoved.keyed husable).1
      · rename_i hunusable
        have hzero : candidate memory.seed (memory.sequence + 1) = 0 := by
          by_contra hne
          exact hunusable (h.usableKey hfresh hother hne)
        have hone : 1 ≤ attempts := by
          rcases hattempts with htwo | ⟨-, hspent⟩
          · omega
          · exact absurd (hzero ▸ hspent) hfresh
        have hother' : other = 0 ∨
            ({ memory with sequence := memory.sequence + 1 } : MemoryRegistry N).Spent other := by
          refine hother.imp_right ?_
          rintro ⟨position, hle, hpos, hkey⟩
          exact ⟨position, hle.trans (Nat.le_succ _), hpos, hkey⟩
        exact (ih hmoved hother'
          (.inr ⟨hone, memory.sequence + 1, le_rfl, Nat.succ_pos _, hzero⟩)).later (Nat.le_succ _)
    · exact .exhausted le_rfl h.bound

/-! ## Advances -/

/-- From `memory` to `memory'` the keys at the given positions were handed out. -/
structure Advance (memory memory' : MemoryRegistry N) (positions : List ℕ) : Prop where
  seed : memory'.seed = memory.seed
  le : memory.sequence ≤ memory'.sequence
  bound : memory'.sequence < 2 ^ 32
  increasing : positions.Pairwise (· < ·)
  range : ∀ p ∈ positions, memory.sequence < p ∧ p ≤ memory'.sequence
  nonzero : ∀ p ∈ positions, candidate memory.seed p ≠ 0
  slots : ∀ index slot kind, memory'.slots index = some slot →
    slot.keyOf kind ∈ positions.map (candidate memory.seed) ∨
      ∃ slot', memory.slots index = some slot' ∧ slot'.keyOf kind = slot.keyOf kind

namespace Advance

variable {memory'' : MemoryRegistry N} {positions positions' : List ℕ}

theorem idle (hseed : memory'.seed = memory.seed) (hle : memory.sequence ≤ memory'.sequence)
    (hbound : memory'.sequence < 2 ^ 32)
    (hslots : ∀ index slot kind, memory'.slots index = some slot →
      ∃ slot', memory.slots index = some slot' ∧ slot'.keyOf kind = slot.keyOf kind) :
    Advance memory memory' [] :=
  ⟨hseed, hle, hbound, .nil, fun _ h ↦ absurd h List.not_mem_nil,
    fun _ h ↦ absurd h List.not_mem_nil, fun _ _ kind h ↦ .inr (hslots _ _ kind h)⟩

theorem moved {sequence : ℕ} (hle : memory.sequence ≤ sequence) (hbound : sequence < 2 ^ 32) :
    Advance memory { memory with sequence := sequence } [] :=
  idle rfl hle hbound fun _ slot _ hslot ↦ ⟨slot, hslot, rfl⟩

theorem refl (hbound : memory.sequence < 2 ^ 32) : Advance memory memory [] := moved le_rfl hbound

/-- **Advances compose.** -/
theorem trans (h : Advance memory memory' positions) (h' : Advance memory' memory'' positions') :
    Advance memory memory'' (positions ++ positions') := by
  refine ⟨h'.seed.trans h.seed, h.le.trans h'.le, h'.bound, ?_, fun p hp ↦ ?_, fun p hp ↦ ?_,
    fun index slot kind hslot ↦ ?_⟩
  · refine List.pairwise_append.mpr ⟨h.increasing, h'.increasing, fun p hp q hq ↦ ?_⟩
    exact (h.range p hp).2.trans_lt (h'.range q hq).1
  · rcases List.mem_append.mp hp with hp | hp
    · exact ⟨(h.range p hp).1, (h.range p hp).2.trans h'.le⟩
    · exact ⟨h.le.trans_lt (h'.range p hp).1, (h'.range p hp).2⟩
  · rcases List.mem_append.mp hp with hp | hp
    · exact h.nonzero p hp
    · exact h.seed ▸ h'.nonzero p hp
  · rw [List.map_append, List.mem_append]
    rcases h'.slots index slot kind hslot with hnew | ⟨slot', hslot', hkey⟩
    · exact .inl (.inr (h.seed ▸ hnew))
    · rw [← hkey]
      exact (h.slots index slot' kind hslot').imp_left .inl

theorem nodup (h : Advance memory memory' positions) :
    (positions.map (candidate memory.seed)).Nodup := by
  refine List.pairwise_map.mpr (h.increasing.imp_of_mem fun {p q} hp hq hlt heq ↦ hlt.ne ?_)
  have hbound := h.bound
  exact candidate_inj ((h.range p hp).2.trans_lt hbound) ((h.range q hq).2.trans_lt hbound) heq

theorem spent (h : Advance memory memory' positions) (hspent : memory.Spent key) :
    memory'.Spent key := by
  obtain ⟨position, hle, hpos, hkey⟩ := hspent
  exact ⟨position, hle.trans h.le, hpos, h.seed ▸ hkey⟩

theorem drawing (h : Advance memory memory' positions) (hdrawing : Drawing memory)
    (hkeyed : Keyed memory') : Drawing memory' := by
  refine ⟨hkeyed, h.bound, fun index slot kind hslot ↦ ?_⟩
  rcases h.slots index slot kind hslot with hnew | ⟨slot', hslot', hkey⟩
  · obtain ⟨position, hposition, hkey⟩ := List.mem_map.mp hnew
    obtain ⟨hlt, hle⟩ := h.range position hposition
    exact ⟨position, hle, by omega, h.seed ▸ hkey⟩
  · exact hkey ▸ h.spent (hdrawing.spent index slot' kind hslot')

end Advance

/-! ## One call -/

/-- **A deterministic registration** hands out the keys at two new positions or none, and never
gives up for collisions. -/
theorem registerInner_advance (h : Drawing memory) (buffer : Buffer) (access : AccessFlags)
    {result : MemoryRegistry N × Except MemoryError RegionHandle}
    (hresult : memory.registerInner buffer access none = result) :
    result.2 ≠ .error .keyCollisionLimit ∧ ∃ positions, Advance memory result.1 positions ∧
      result.2.toOption.toList.flatMap RegionHandle.keys =
        positions.map (candidate memory.seed) := by
  subst hresult
  have hrefl : Advance memory memory [] := .refl h.bound
  unfold registerInner
  split
  · exact ⟨nofun, [], hrefl, rfl⟩
  split
  · exact ⟨nofun, [], hrefl, rfl⟩
  split
  · exact ⟨nofun, [], hrefl, rfl⟩
  rename_i index hfree
  split
  · exact ⟨nofun, [], hrefl, rfl⟩
  split
  · exact ⟨nofun, [], hrefl, rfl⟩
  have hlkey : Drawn memory (memory.nextKey none 0 0) :=
    nextKeyLoop_drawn h (.inl rfl) (.inl (by decide))
  generalize memory.nextKey none 0 0 = drawn at hlkey
  cases hlkey with
  | exhausted hle hbound => exact ⟨nofun, [], .moved hle hbound, rfl⟩
  | @key p calls hp hpbound hpzero =>
    have hmoved := h.moved hp.le hpbound
    have hrkey : Drawn { memory with sequence := p } (nextKey { memory with sequence := p } none
        calls (candidate memory.seed p)) :=
      nextKeyLoop_drawn hmoved (.inr ⟨p, le_rfl, by omega, rfl⟩) (.inl (by decide))
    dsimp only
    generalize nextKey { memory with sequence := p } none calls (candidate memory.seed p) = drawn
      at hrkey
    cases hrkey with
    | exhausted hle hbound => exact ⟨nofun, [], .moved (hp.le.trans hle) hbound, rfl⟩
    | @key q calls' hq hqbound hqzero =>
      dsimp only at hq hqzero ⊢
      have hpq : memory.sequence ≤ q := (hp.trans hq).le
      split
      · exact ⟨nofun, [], .moved hpq hqbound, rfl⟩
      split
      · refine ⟨nofun, [], .idle rfl hpq hqbound ?_, rfl⟩
        exact fun _ slot _ hslot ↦ ⟨slot, hslot, rfl⟩
      · refine ⟨nofun, [p, q], ⟨rfl, hpq, hqbound, ?_, ?_, ?_, ?_⟩, rfl⟩
        · simpa using hq
        · simp only [List.mem_cons, List.not_mem_nil, or_false, forall_eq_or_imp, forall_eq]
          omega
        · simpa using ⟨hpzero, hqzero⟩
        · intro i slot kind hslot
          dsimp only at hslot
          by_cases hi : i = index
          · subst hi
            rw [Function.update_self] at hslot
            cases hslot
            cases kind
            all_goals simp [MemorySlot.keyOf]
          · rw [Function.update_of_ne hi] at hslot
            exact .inr ⟨slot, hslot, rfl⟩

theorem advance_setReferences (hbound : memory.sequence < 2 ^ 32) {index : Fin N}
    {slot : MemorySlot} (hslot : memory.slots index = some slot) (references : ℕ) :
    Advance memory (memory.setReferences index slot references) [] := by
  refine .idle rfl le_rfl hbound fun i slot' kind hslot' ↦ ?_
  change Function.update memory.slots index (some { slot with references := references }) i =
    some slot' at hslot'
  by_cases hi : i = index
  · subst hi
    rw [Function.update_self] at hslot'
    cases hslot'
    exact ⟨slot, hslot, by cases kind <;> rfl⟩
  · rw [Function.update_of_ne hi] at hslot'
    exact ⟨slot', hslot', rfl⟩

theorem retain_advance (hbound : memory.sequence < 2 ^ 32) (key : UInt32) (kind : KeyKind) :
    Advance memory (match memory.retain key kind with
      | .ok (_, memory) => (memory, Except.ok ())
      | .error e => (memory, .error e) : MemoryRegistry N × Except MemoryError Unit).1 [] := by
  split
  · rename_i hretain
    obtain ⟨index, slot, -, hslot, -, -, rfl⟩ := retain_eq_ok.mp hretain
    exact advance_setReferences hbound hslot _
  · exact .refl hbound

theorem release_advance (hbound : memory.sequence < 2 ^ 32) (lease : Option (RegionLease N)) :
    Advance memory (memory.release lease).1 [] := by
  unfold release
  split
  · exact .refl hbound
  split
  · exact .refl hbound
  split
  · exact .refl hbound
  rename_i slot hslot
  split
  · exact .refl hbound
  · exact advance_setReferences hbound hslot _

theorem deregister_advance (hbound : memory.sequence < 2 ^ 32) (handle : RegionHandle) :
    Advance memory (memory.deregister handle).1 [] := by
  rcases deregister_spec memory handle with ⟨e, hsame⟩ | ⟨index, slot, data, -, -, -, hremoved⟩
  · rw [hsame]
    exact .refl hbound
  · rw [hremoved]
    exact .idle rfl le_rfl hbound fun _ slot' _ hslot' ↦ ⟨slot', (removed_slots hslot').2, rfl⟩

def handedOut (memory : MemoryRegistry N) : RegistryCall N → Option RegionHandle
  | .register buffer access => (memory.registerInner buffer access none).2.toOption
  | .registerWithKeyGenerator buffer access generator =>
    (memory.registerInner buffer access (some generator)).2.toOption
  | _ => none

/-- **Every deterministic call advances the registry.** -/
theorem call_advance (h : Drawing memory) {next : RegistryCall N} (hnext : next.Deterministic) :
    ∃ positions, Advance memory (memory.call next).1 positions ∧
      (memory.handedOut next).toList.flatMap RegionHandle.keys =
        positions.map (candidate memory.seed) := by
  cases next with
  | register buffer access => exact (registerInner_advance h buffer access rfl).2
  | registerWithKeyGenerator => cases hnext
  | deregister handle => exact ⟨[], deregister_advance h.bound handle, rfl⟩
  | retainLocal lkey => exact ⟨[], retain_advance h.bound lkey .loc, rfl⟩
  | retainRemote rkey => exact ⟨[], retain_advance h.bound rkey .remote, rfl⟩
  | release lease => exact ⟨[], release_advance h.bound lease, rfl⟩

/-! ## Every run -/

def issued (memory : MemoryRegistry N) : List (RegistryCall N) → List RegionHandle
  | [] => []
  | next :: script => (memory.handedOut next).toList ++ issued (memory.call next).1 script

/-- **Every run advances the registry.** -/
theorem calls_advance (h : Drawing memory) {script : List (RegistryCall N)}
    (hscript : ∀ next ∈ script, next.Deterministic) :
    Drawing (memory.calls script) ∧ ∃ positions, Advance memory (memory.calls script) positions ∧
      (memory.issued script).flatMap RegionHandle.keys =
        positions.map (candidate memory.seed) := by
  induction script generalizing memory with
  | nil => exact ⟨h, [], .refl h.bound, rfl⟩
  | cons next script ih =>
    obtain ⟨hnext, hscript⟩ := List.forall_mem_cons.mp hscript
    obtain ⟨positions, hadvance, hkeys⟩ := call_advance h hnext
    have hkeyed := (call_effect h.keyed next).keyed h.keyed
    obtain ⟨hdrawing, positions', hadvance', hkeys'⟩ := ih (hadvance.drawing h hkeyed) hscript
    refine ⟨hdrawing, positions ++ positions', hadvance.trans hadvance', ?_⟩
    rw [issued, List.flatMap_append, hkeys, hkeys', List.map_append, hadvance.seed]

def Gone (memory : MemoryRegistry N) (key : UInt32) : Prop :=
  ∀ index slot kind, memory.slots index = some slot → slot.keyOf kind ≠ key

/-- **A key that is gone stays gone**: only keys at later positions come into use. -/
theorem Gone.advance {positions : List ℕ} (h : Gone memory key) (hspent : memory.Spent key)
    (hadvance : Advance memory memory' positions) :
    Gone memory' key := by
  intro index slot kind hslot hkey
  rcases hadvance.slots index slot kind hslot with hnew | ⟨slot', hslot', heq⟩
  · obtain ⟨position, hposition, hdrawn⟩ := List.mem_map.mp hnew
    obtain ⟨hlt, hle⟩ := hadvance.range position hposition
    refine not_spent_candidate hlt (hle.trans_lt hadvance.bound) ?_
    rwa [hdrawn, hkey]
  · exact h index slot' kind hslot' (heq.trans hkey)

/-- **A region that is removed takes its keys with it.** -/
theorem gone_of_deregister (h : Drawing memory) {handle : RegionHandle} {data : List UInt8}
    (hderegister : (memory.deregister handle).2 = .ok data) (hkey : key ∈ handle.keys) :
    Gone (memory.deregister handle).1 key ∧ memory.Spent key := by
  unfold deregister at hderegister ⊢
  split at hderegister
  · rename_i hindex
    rw [dif_pos hindex]
    split at hderegister
    · cases hderegister
    rename_i slot hslot
    split at hderegister
    · cases hderegister
    rename_i hsame
    rw [if_neg hsame]
    split at hderegister
    · cases hderegister
    rename_i hreferences
    rw [if_neg hreferences]
    -- The handle names the keys of the slot, and live keys have one owner.
    have hkind : ∃ kind, slot.keyOf kind = key := by
      simp only [not_or, ne_eq, not_not] at hsame
      simp only [RegionHandle.keys, List.mem_cons, List.not_mem_nil, or_false] at hkey
      rcases hkey with rfl | rfl
      · exact ⟨.loc, hsame.2.1⟩
      · exact ⟨.remote, hsame.2.2.1⟩
    obtain ⟨kind, rfl⟩ := hkind
    refine ⟨fun i slot' kind' hslot' heq ↦ ?_, h.spent _ slot kind hslot⟩
    obtain ⟨hne, hlive⟩ := removed_slots hslot'
    exact hne (h.keyed.keyOf_injective hlive hslot heq).2
  · cases hderegister

/-- No access, no reference and no deregistration goes through with the key. -/
structure Refuses (memory : MemoryRegistry N) (key : UInt32) : Prop where
  validate : ∀ kind required address length,
    memory.validate kind required key address length = .error .invalidKey
  read : ∀ kind required address length,
    memory.read kind required key address length = .error .invalidKey
  write : ∀ kind required address input,
    memory.write kind required key address input = .error .invalidKey
  retain : ∀ kind, memory.retain key kind = .error .invalidKey
  deregister : ∀ handle : RegionHandle, key ∈ handle.keys →
    memory.deregister handle = (memory, .error .invalidHandle)

theorem Gone.refuses (h : Gone memory key) (hkeyed : Keyed memory) :
    memory.Refuses key := by
  have hget : ∀ kind, memory.keys.get key kind = none := by
    intro kind
    refine Option.eq_none_iff_forall_ne_some.mpr fun index hindex ↦ ?_
    obtain ⟨slot, hslot, hkey⟩ := hkeyed.get_eq_some.mp hindex
    exact h index slot kind hslot hkey
  have hresolve : ∀ kind required address length,
      memory.resolve key kind required address length = .error .invalidKey := by
    intro kind required address length
    rw [resolve, hget]
  refine ⟨fun kind required address length ↦ ?_, fun kind required address length ↦ ?_,
    fun kind required address input ↦ ?_, fun kind ↦ ?_, fun handle hhandle ↦ ?_⟩
  · rw [MemoryRegistry.validate, hresolve]
  · rw [MemoryRegistry.read, hresolve]
  · rw [MemoryRegistry.write, hresolve]
  · rw [MemoryRegistry.retain, hget]
  · unfold MemoryRegistry.deregister
    split
    · split
      · rfl
      rename_i slot hslot
      refine if_pos ?_
      simp only [RegionHandle.keys, List.mem_cons, List.not_mem_nil, or_false] at hhandle
      rcases hhandle with rfl | rfl
      · exact .inr (.inl (h _ slot .loc hslot))
      · exact .inr (.inr (.inl (h _ slot .remote hslot)))
    · rfl

theorem drawing_of_new {seed : UInt32} {identity : ℕ} {bytes : ℕ → UInt8}
    (hnew : MemoryRegistry.new N seed identity bytes = .ok memory) : Drawing memory := by
  have hkeyed := (sound_of_new hnew).keyed
  unfold MemoryRegistry.new at hnew
  split at hnew
  · cases hnew
  · cases hnew
    exact ⟨hkeyed, Nat.two_pow_pos 32, nofun⟩

theorem calls_append (script script' : List (RegistryCall N)) :
    memory.calls (script ++ script') = (memory.calls script).calls script' :=
  List.foldl_append

/-- **Deterministic keys are never reissued.**  In every run without a key source of the caller, all
keys handed out are distinct and not zero, a registration never gives up for collisions, and the
keys of a region that was removed are refused for the rest of the run. -/
theorem deterministic_keys_never_reissued {start : MemoryRegistry N} {seed : UInt32} {identity : ℕ}
    {bytes : ℕ → UInt8} (hnew : MemoryRegistry.new N seed identity bytes = .ok start)
    (script : List (RegistryCall N)) (hscript : ∀ next ∈ script, next.Deterministic) :
    ((start.issued script).flatMap RegionHandle.keys).Nodup ∧
    (∀ key ∈ (start.issued script).flatMap RegionHandle.keys, key ≠ 0) ∧
    (∀ buffer access, ((start.calls script).registerInner buffer access none).2 ≠
      .error .keyCollisionLimit) ∧
    ∀ before handle after data, script = before ++ .deregister handle :: after →
      ((start.calls before).deregister handle).2 = .ok data →
      ∀ key ∈ handle.keys, (start.calls script).Refuses key := by
  have hstart := drawing_of_new hnew
  obtain ⟨hdrawing, positions, hadvance, hkeys⟩ := calls_advance hstart hscript
  refine ⟨hkeys ▸ hadvance.nodup, ?_, ?_, ?_⟩
  · rw [hkeys]
    intro key hkey
    obtain ⟨position, hposition, rfl⟩ := List.mem_map.mp hkey
    exact hadvance.nonzero position hposition
  · exact fun buffer access ↦ (registerInner_advance hdrawing buffer access rfl).1
  · rintro before handle after data rfl hderegister key hkey
    rw [List.forall_mem_append, List.forall_mem_cons] at hscript
    obtain ⟨hbefore, -⟩ := calls_advance hstart hscript.1
    obtain ⟨hgone, hspent⟩ := gone_of_deregister hbefore hderegister hkey
    have hremoved := deregister_advance hbefore.bound handle
    have hkeyed := (callEffect_deregister handle).keyed hbefore.keyed
    obtain ⟨hafter, _, hlater, -⟩ :=
      calls_advance (hremoved.drawing hbefore hkeyed) hscript.2.2
    rw [calls_append]
    exact (hgone.advance (hremoved.spent hspent) hlater).refuses hafter.keyed

theorem deterministic_keys_never_reissued_one_slot :
    ((MemoryRegistry.empty 7 0 fun _ ↦ 0 : MemoryRegistry 1).calls
      [.register ⟨4096, [1]⟩ .none, .deregister ⟨4096, 1, candidate 7 1, candidate 7 2, 0, 1⟩,
        .register ⟨4096, [1]⟩ .none]).Refuses (candidate 7 1) := by
  refine (deterministic_keys_never_reissued (rfl :
    MemoryRegistry.new 1 7 0 (fun _ ↦ 0) = .ok (.empty 7 0 fun _ ↦ 0)) _ ?_).2.2.2
    [.register ⟨4096, [1]⟩ .none] _ _ [1] rfl ?_ _ ?_
  · simp [RegistryCall.Deterministic]
  · decide +kernel
  · simp [RegionHandle.keys]

end MemoryRegistry

end Rocev2.Memory
