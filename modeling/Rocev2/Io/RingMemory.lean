import Mathlib.Data.Nat.ModEq
import Mathlib.Data.UInt

/-!
# Rings in shared memory

`rocev2-io/src/afxdp.rs`, `RingMemory` with the operations of `ProducerRing` and `ConsumerRing`.
The two indices count freely modulo `2 ^ 32` and their low bits select the descriptor.  Because the
size is a power of two it divides `2 ^ 32`, so an index keeps its descriptor when it wraps
(`descriptorSlot_add`); and as long as the indices are at most the size apart, their distance counts
the entries between them (`used_eq`).
-/

namespace Rocev2.Io

variable {T : Type}

/-- Failures of the rings. -/
inductive AfxdpError where
  /-- The indices are further apart than the ring is long. -/
  | corruptRing
deriving DecidableEq, Repr

/-- A ring in shared memory. -/
structure RingMemory (T : Type) where
  /-- The index of the next entry to publish. -/
  producer : UInt32
  /-- The index of the next entry to release. -/
  consumer : UInt32
  descriptors : ℕ → T
  size : UInt32
  mask : UInt32
  isPowerOfTwo : size.toNat.isPowerOfTwo
  mask_eq : mask = size - 1

namespace RingMemory

variable (memory : RingMemory T)

def descriptorSlot (index : UInt32) : ℕ := (index &&& memory.mask).toNat

/-! ### The producing side -/

/-- Reserve up to `requested` descriptors: the first index and the number granted. -/
def reserve (requested : UInt32) : Except AfxdpError (UInt32 × UInt32) :=
  let used := memory.producer - memory.consumer
  if memory.size < used then .error .corruptRing
  else
    let available := memory.size - used
    .ok (memory.producer, min requested available)

def write (index : UInt32) (value : T) : RingMemory T :=
  { memory with
    descriptors := Function.update memory.descriptors (memory.descriptorSlot index) value }

/-- Publish the first `count` descriptors of a reservation. -/
def submit (start count : UInt32) : RingMemory T :=
  if count = 0 then memory else { memory with producer := start + count }

/-! ### The consuming side -/

/-- Look for up to `requested` published descriptors. -/
def peek (requested : UInt32) : Except AfxdpError (UInt32 × UInt32) :=
  let available := memory.producer - memory.consumer
  if memory.size < available then .error .corruptRing
  else .ok (memory.consumer, min requested available)

def read (index : UInt32) : T := memory.descriptors (memory.descriptorSlot index)

/-- Hand back the first `count` descriptors. -/
def release (start count : UInt32) : RingMemory T :=
  if count = 0 then memory else { memory with consumer := start + count }

/-! ### Slots -/

variable {memory}

theorem size_pos : 0 < memory.size.toNat := by
  obtain ⟨n, hn⟩ := memory.isPowerOfTwo
  rw [hn]
  exact Nat.two_pow_pos n

theorem descriptorSlot_eq (index : UInt32) :
    memory.descriptorSlot index = index.toNat % memory.size.toNat := by
  have hone : (1 : UInt32) ≤ memory.size := UInt32.le_iff_toNat_le.mpr memory.size_pos
  obtain ⟨n, hn⟩ := memory.isPowerOfTwo
  rw [descriptorSlot, memory.mask_eq, UInt32.toNat_and, UInt32.toNat_sub_of_le _ _ hone, hn]
  exact Nat.and_two_pow_sub_one_eq_mod ..

theorem size_dvd : memory.size.toNat ∣ 2 ^ 32 := by
  obtain ⟨n, hn⟩ := memory.isPowerOfTwo
  have hlt := memory.size.toNat_lt
  rw [hn] at hlt ⊢
  exact Nat.pow_dvd_pow 2 ((Nat.pow_lt_pow_iff_right (by decide)).mp hlt).le

/-- **Indices keep their slots when they wrap.** -/
theorem descriptorSlot_add (index : UInt32) (k : ℕ) :
    memory.descriptorSlot (index + UInt32.ofNat k) = (index.toNat + k) % memory.size.toNat := by
  rw [descriptorSlot_eq, UInt32.toNat_add, UInt32.toNat_ofNat', Nat.mod_mod_of_dvd _ size_dvd,
    Nat.add_mod, Nat.mod_mod_of_dvd _ size_dvd, ← Nat.add_mod]

theorem submit_eq (count : UInt32) : memory.submit memory.producer count =
    { memory with producer := memory.producer + count } := by
  unfold submit
  split_ifs with hzero
  · rw [hzero, UInt32.add_zero]
  · rfl

theorem release_eq (count : UInt32) : memory.release memory.consumer count =
    { memory with consumer := memory.consumer + count } := by
  unfold release
  split_ifs with hzero
  · rw [hzero, UInt32.add_zero]
  · rfl

/-! ### Occupancy -/

theorem used_eq {n : ℕ} (hproducer : memory.producer = memory.consumer + UInt32.ofNat n)
    (hn : n ≤ memory.size.toNat) : (memory.producer - memory.consumer).toNat = n := by
  have hlt := memory.size.toNat_lt
  rw [hproducer, UInt32.add_comm, UInt32.add_sub_cancel]
  exact UInt32.toNat_ofNat_of_lt' (hn.trans_lt hlt)

/-- **A reservation fits** into what the unreleased entries leave. -/
theorem reserve_eq {n : ℕ} (hproducer : memory.producer = memory.consumer + UInt32.ofNat n)
    (hn : n ≤ memory.size.toNat) (requested : UInt32) :
    ∃ count, memory.reserve requested = .ok (memory.producer, count) ∧
      count.toNat = min requested.toNat (memory.size.toNat - n) := by
  have hused := used_eq hproducer hn
  have hle : memory.producer - memory.consumer ≤ memory.size := by
    rw [UInt32.le_iff_toNat_le, hused]
    exact hn
  refine ⟨_, if_neg (UInt32.not_lt.mpr hle), ?_⟩
  rw [UInt32.toNat_min, UInt32.toNat_sub_of_le _ _ hle, hused]

/-- **A look sees the published entries.** -/
theorem peek_eq {n : ℕ} (hproducer : memory.producer = memory.consumer + UInt32.ofNat n)
    (hn : n ≤ memory.size.toNat) (requested : UInt32) :
    ∃ count, memory.peek requested = .ok (memory.consumer, count) ∧
      count.toNat = min requested.toNat n := by
  have hused := used_eq hproducer hn
  have hle : memory.producer - memory.consumer ≤ memory.size := by
    rw [UInt32.le_iff_toNat_le, hused]
    exact hn
  refine ⟨_, if_neg (UInt32.not_lt.mpr hle), ?_⟩
  rw [UInt32.toNat_min, hused]

end RingMemory

end Rocev2.Io
