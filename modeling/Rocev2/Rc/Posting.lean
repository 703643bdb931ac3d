import Rocev2.Rc.Event

/-!
# Posting work

The leases of posted work.  A work request is accepted together with a lease on the region of its
scatter entry; a request that is not accepted leaves the queue pair and the reference counts as
they were.  A batch takes the leases of all its requests or of none.
-/

namespace Rocev2.Rc

open Rocev2.Core Rocev2.Memory Rocev2.Lib

variable {MRS SQ RQ CQ : ℕ} {memory memory' : MemoryRegistry MRS} {keys : List UInt32}
  {leases : List (RegionLease MRS)} {held : Multiset (RegionLease MRS)}
  {qp : QpTransport MRS SQ RQ CQ}

/-! ## Leases -/

theorem LeaseOn.congr {kind : KeyKind} {key : UInt32} {lease : Option (RegionLease MRS)}
    (hsame : SameRegions memory memory') (h : LeaseOn memory kind key lease) :
    LeaseOn memory' kind key lease := by
  obtain ⟨index, slot, hkey, hslot, hlease⟩ := h
  obtain ⟨slot', hslot', hregion⟩ := hsame.slot hslot
  refine ⟨index, slot', by rw [hsame.keys]; exact hkey, hslot', ?_⟩
  have hgeneration : slot'.generation = slot.generation :=
    congrArg (fun s ↦ s.generation) hregion
  rw [hlease, MemoryRegistry.leaseOf, MemoryRegistry.leaseOf, hsame.identity, hgeneration]

/-! ## Batches -/

def entries {α : Type} (works : List α) (leases : List (RegionLease MRS)) :
    List (PostedWork α MRS) :=
  works.zipWith (fun work lease ↦ ⟨work, some lease⟩) leases

/-- The leases of a batch are the ones it was given, each on the region of its request. -/
theorem entries_spec {α : Type} {works : List α} (key : α → UInt32)
    (h : List.Forall₂ (fun key lease ↦ LeaseOn memory .loc key (some lease)) (works.map key)
      leases) :
    heldBy (entries works leases) = (leases : Multiset (RegionLease MRS)) ∧
      (entries works leases).map (fun entry ↦ entry.work) = works ∧
      ∀ entry ∈ entries works leases, LeaseOn memory .loc (key entry.work) entry.lease := by
  induction works generalizing leases with
  | nil =>
    cases h
    exact ⟨rfl, rfl, nofun⟩
  | cons work works ih =>
    cases h with
    | @cons _ lease _ leases hlease hrest =>
      obtain ⟨hheld, hworks, hleased⟩ := ih hrest
      refine ⟨?_, congrArg (List.cons work) hworks, List.forall_mem_cons.mpr ⟨hlease, hleased⟩⟩
      calc heldBy (entries (work :: works) (lease :: leases))
          = {lease} + heldBy (entries works leases) := rfl
        _ = ((lease :: leases : List _) : Multiset _) := by
          rw [hheld, Multiset.singleton_add, Multiset.cons_coe]

theorem releaseAll_spec (h : Counted memory.refs (leases + held)) :
    Copied memory []
        (leases.foldl (fun memory lease ↦ (releaseLease memory (some lease)).1) memory) ∧
      Counted (leases.foldl (fun memory lease ↦ (releaseLease memory (some lease)).1)
        memory).refs held := by
  induction leases generalizing memory with
  | nil => exact ⟨Copied.refl _, by simpa using h⟩
  | cons lease leases ih =>
    have hcons : Counted memory.refs (Rc.held (some lease) + (leases + held)) := by
      rwa [held_some, Multiset.singleton_add, ← Multiset.cons_add, Multiset.cons_coe]
    obtain ⟨-, hcopy, hcounted⟩ := releaseLease_spec hcons
    obtain ⟨hcopy', hcounted'⟩ := ih hcounted
    exact ⟨hcopy.trans hcopy', hcounted'⟩

/-- A batch that cannot take all its references takes none. -/
theorem retainBatch_error {e : MemoryError}
    (h : RcEndpoint.retainBatch memory keys leases = (memory', .error e))
    (hcounted : Counted memory.refs (leases + held)) :
    Copied memory [] memory' ∧ Counted memory'.refs held := by
  induction keys generalizing memory leases with
  | nil => cases h
  | cons key keys ih =>
    unfold RcEndpoint.retainBatch at h
    split at h
    · rename_i lease memory₁ hretain
      obtain ⟨hcopy, hcounted₁⟩ := MemoryRegistry.counted_of_retain hretain hcounted
      have happend : Counted memory₁.refs ((leases ++ [lease] : List _) + held) := by
        rw [← Multiset.coe_add, Multiset.coe_singleton, add_right_comm,
          add_comm ((leases : Multiset (RegionLease MRS)) + held), Multiset.singleton_add]
        exact hcounted₁
      obtain ⟨hcopy', hcounted'⟩ := ih h happend
      exact ⟨hcopy.trans hcopy', hcounted'⟩
    · cases h
      exact releaseAll_spec hcounted

/-! ## References taken in order -/

/-- `Retains memory keys leases memory'`: taking a reference for each key, in order. -/
inductive Retains : MemoryRegistry MRS → List UInt32 → List (RegionLease MRS) →
    MemoryRegistry MRS → Prop
  | /-- Nothing to take. -/
    nil (memory : MemoryRegistry MRS) : Retains memory [] [] memory
  | /-- One more reference. -/
    cons {memory memory₁ memory' : MemoryRegistry MRS} {key : UInt32} {keys : List UInt32}
      {lease : RegionLease MRS} {leases : List (RegionLease MRS)}
      (hretain : memory.retainLocal key = .ok (lease, memory₁))
      (hrest : Retains memory₁ keys leases memory') :
      Retains memory (key :: keys) (lease :: leases) memory'

namespace Retains

variable {memory memory₁ memory' : MemoryRegistry MRS} {keys keys' : List UInt32}
  {leases leases' : List (RegionLease MRS)}

theorem length_eq (h : Retains memory keys leases memory') : leases.length = keys.length := by
  induction h with
  | nil => rfl
  | cons _ _ ih => exact congrArg Nat.succ ih

theorem sameRegions (h : Retains memory keys leases memory') : SameRegions memory memory' := by
  induction h with
  | nil => exact .refl _
  | cons hretain _ ih =>
    obtain ⟨index, slot, -, hslot, -, -, rfl⟩ := MemoryRegistry.retain_eq_ok.mp hretain
    exact (MemoryRegistry.copied_setReferences hslot).toSameRegions.trans ih

/-- Taking references changes nothing but the counts. -/
theorem counted (h : Retains memory keys leases memory') {held : Multiset (RegionLease MRS)}
    (hcounted : Counted memory.refs held) :
    List.Forall₂ (fun key lease ↦ LeaseOn memory .loc key (some lease)) keys leases ∧
      Copied memory [] memory' ∧ Counted memory'.refs (leases + held) := by
  induction h generalizing held with
  | nil => exact ⟨.nil, Copied.refl _, by simpa using hcounted⟩
  | cons hretain _ ih =>
    obtain ⟨hcopy, hcounted₁⟩ := MemoryRegistry.counted_of_retain hretain hcounted
    obtain ⟨hall, hcopy', hcounted'⟩ := ih hcounted₁
    refine ⟨.cons (leaseOn_of_retain hretain) ?_, hcopy.trans hcopy', ?_⟩
    · exact hall.imp fun key lease hlease ↦ hlease.congr hcopy.toSameRegions.symm
    · rwa [← Multiset.cons_coe, Multiset.cons_add, ← Multiset.add_cons]

theorem append (h : Retains memory keys leases memory₁)
    (h' : Retains memory₁ keys' leases' memory') :
    Retains memory (keys ++ keys') (leases ++ leases') memory' := by
  induction h with
  | nil => exact h'
  | cons hretain _ ih => exact .cons hretain (ih h')

theorem split (h : Retains memory (keys ++ keys') leases memory') :
    ∃ first second memory₁, leases = first ++ second ∧ Retains memory keys first memory₁ ∧
      Retains memory₁ keys' second memory' := by
  induction keys generalizing memory leases with
  | nil => exact ⟨[], leases, memory, rfl, .nil memory, h⟩
  | cons key keys ih =>
    cases h with
    | cons hretain hrest =>
      obtain ⟨first, second, memory₁, rfl, hfirst, hsecond⟩ := ih hrest
      exact ⟨_ :: first, second, memory₁, rfl, .cons hretain hfirst, hsecond⟩

theorem singleton {key : UInt32} (h : Retains memory [key] leases memory') :
    ∃ lease, leases = [lease] ∧ memory.retainLocal key = .ok (lease, memory') := by
  cases h with
  | cons hretain hrest =>
    cases hrest
    exact ⟨_, rfl, hretain⟩

end Retains

/-- **A batch takes its leases exactly when they can be taken in order.** -/
theorem retainBatch_eq_ok {held : List (RegionLease MRS)} :
    RcEndpoint.retainBatch memory keys held = (memory', .ok leases) ↔
      ∃ taken, leases = held ++ taken ∧ Retains memory keys taken memory' := by
  induction keys generalizing memory held with
  | nil =>
    constructor
    · intro h
      cases h
      exact ⟨[], (List.append_nil _).symm, .nil _⟩
    · rintro ⟨taken, rfl, htaken⟩
      cases htaken
      rw [List.append_nil]
      rfl
  | cons key keys ih =>
    unfold RcEndpoint.retainBatch
    cases hretain : memory.retainLocal key with
    | error e =>
      constructor
      · intro h
        cases h
      · rintro ⟨taken, -, htaken⟩
        cases htaken with
        | cons hretain' _ => cases hretain.symm.trans hretain'
    | ok result =>
      obtain ⟨lease, memory₁⟩ := result
      refine ih.trans ⟨?_, ?_⟩
      · rintro ⟨taken, rfl, htaken⟩
        exact ⟨lease :: taken, List.append_assoc _ _ _, .cons hretain htaken⟩
      · rintro ⟨taken, rfl, htaken⟩
        cases htaken with
        | cons hretain' hrest =>
          cases hretain.symm.trans hretain'
          exact ⟨_, List.append_cons _ _ _, hrest⟩

/-- Giving back references changes the slots only. -/
theorem releaseAll_frame (memory : MemoryRegistry MRS) (leases : List (RegionLease MRS)) :
    ∃ slots, leases.foldl (fun memory lease ↦ (releaseLease memory (some lease)).1) memory =
      { memory with slots := slots } := by
  induction leases generalizing memory with
  | nil => exact ⟨memory.slots, rfl⟩
  | cons lease leases ih =>
    obtain ⟨slots, hslots⟩ := ih (releaseLease memory (some lease)).1
    obtain ⟨slots₁, hone⟩ : ∃ slots₁, (releaseLease memory (some lease)).1 =
        { memory with slots := slots₁ } := by
      unfold releaseLease MemoryRegistry.release
      dsimp only
      split
      · exact ⟨memory.slots, rfl⟩
      split
      · exact ⟨memory.slots, rfl⟩
      split
      · exact ⟨memory.slots, rfl⟩
      · exact ⟨_, rfl⟩
    rw [hone] at hslots
    exact ⟨slots, by rw [List.foldl_cons, hone, hslots]⟩

theorem retainBatch_frame (memory : MemoryRegistry MRS) (keys : List UInt32)
    (held : List (RegionLease MRS)) :
    ∃ slots, (RcEndpoint.retainBatch memory keys held).1 = { memory with slots := slots } := by
  induction keys generalizing memory held with
  | nil => exact ⟨memory.slots, rfl⟩
  | cons key keys ih =>
    unfold RcEndpoint.retainBatch
    split
    · rename_i lease memory₁ hretain
      obtain ⟨index, slot, -, -, -, -, rfl⟩ := MemoryRegistry.retain_eq_ok.mp hretain
      exact ih _ _
    · exact releaseAll_frame memory held

/-- **A batch that cannot take all its leases leaves the registry as it was.** -/
theorem retainBatch_restores {e : MemoryError} (hcounted : Counted memory.refs held)
    (h : RcEndpoint.retainBatch memory keys [] = (memory', .error e)) : memory' = memory := by
  obtain ⟨hcopied, hcounted'⟩ := retainBatch_error h (by simpa using hcounted)
  obtain ⟨slots, hframe⟩ := retainBatch_frame memory keys []
  rw [h] at hframe
  dsimp only at hframe
  subst hframe
  -- The regions are the same, and equal counts leave the same number of references.
  have hslots : slots = memory.slots := by
    funext i
    have hregion : (slots i).map MemorySlot.region = (memory.slots i).map MemorySlot.region :=
      hcopied.regions i
    cases hold : memory.slots i with
    | none =>
      rw [hold] at hregion
      exact Option.map_eq_none_iff.mp hregion
    | some old =>
      rw [hold] at hregion
      obtain ⟨new, hnew, heq⟩ := Option.map_eq_some_iff.mp hregion
      have hgeneration : new.generation = old.generation :=
        congrArg (fun slot ↦ slot.generation) heq
      have hlease : MemoryRegistry.leaseOf { memory with slots := slots } i new =
          memory.leaseOf i old := by
        rw [MemoryRegistry.leaseOf, MemoryRegistry.leaseOf, hgeneration]
      have hreferences : new.references = old.references := by
        have hcount := MemoryRegistry.refs_leaseOf
          (show MemoryRegistry.slots { memory with slots := slots } i = some new from hnew)
        rw [← hcounted', hlease, hcounted, MemoryRegistry.refs_leaseOf hold] at hcount
        exact hcount.symm
      calc slots i = some { new.region with references := new.references } := hnew
        _ = some { old.region with references := old.references } := by rw [heq, hreferences]
  rw [hslots]

/-! ## Leases of the queues -/

theorem leases_workPosted {queue : Ring (PostedWork WorkRequest MRS) SQ}
    {posted : List (PostedWork WorkRequest MRS)}
    (hqueue : queue.items = qp.sendQueue.items ++ posted) (works : List WorkRequest) :
    (qp.workPosted queue works).leases = heldBy posted + qp.leases := by
  simp only [QpTransport.leases, QpTransport.workPosted, hqueue, heldBy_append, ← add_assoc]
  rw [add_right_comm, add_comm _ (heldBy posted)]
  simp only [← add_assoc]

theorem leases_receivePosted {queue : Ring (PostedWork RecvWorkRequest MRS) RQ}
    {posted : List (PostedWork RecvWorkRequest MRS)}
    (hqueue : queue.items = qp.receiveQueue.items ++ posted) (works : List RecvWorkRequest) :
    (qp.receivePosted queue works).leases = heldBy posted + qp.leases := by
  simp only [QpTransport.leases, QpTransport.receivePosted, hqueue, heldBy_append, ← add_assoc]
  rw [add_comm _ (heldBy posted)]
  simp only [← add_assoc]

end Rocev2.Rc
