import Rocev2.Io.RingMemory
import Rocev2.Lib.Circular
import Rocev2.Lib.Run

/-!
# Descriptor rings

One side of a ring reserves descriptors, writes them and publishes them by moving the producer
index; the other peeks at what is published, reads it and hands it back by moving the consumer
index.

`Sides` is a ring with what each side knows: its own grant, and what it has written or read under
it.  An operation touches only one word that the other side stores, so the interleavings of the two
sides are the runs of `Sides.step`.  The entries that are published and not released, followed by
those already written, stand in the descriptors from the consumer index on (`Holding`), in every
state of every run in which both sides follow the protocol.
-/

namespace Rocev2.Io

open Lib Lib.Circular

variable {T : Type}

/-- What one side knows of its share of the ring. -/
structure Grant (T : Type) where
  start : UInt32
  count : UInt32
  /-- The values written, or read, from `start` on. -/
  values : List T

namespace Grant

/-- The index that is written, or read, next. -/
def next (grant : Grant T) : UInt32 := grant.start + UInt32.ofNat grant.values.length

def push (grant : Grant T) (value : T) : Grant T :=
  { grant with values := grant.values ++ [value] }

/-- The rest of a grant after its first `count` entries were handed over. -/
def advance (grant : Grant T) (count : UInt32) : Grant T :=
  ⟨grant.start + count, grant.count - count, grant.values.drop count.toNat⟩

end Grant

/-- A ring with its producer and its consumer. -/
structure Sides (T : Type) where
  memory : RingMemory T
  /-- The reservation of the producer. -/
  reserved : Grant T
  /-- What the consumer peeked at. -/
  peeked : Grant T
  /-- The values published so far, those that were in the ring at the start included. -/
  published : List T
  /-- The values the consumer read and released so far. -/
  released : List T

/-- The operations of the two sides. -/
inductive Action (T : Type) where
  | reserve (requested : UInt32)
  /-- Write the next reserved descriptor. -/
  | write (value : T)
  | submit (count : UInt32)
  | peek (requested : UInt32)
  /-- Read the next descriptor that was peeked at. -/
  | read
  | release (count : UInt32)

namespace Sides

def start (memory : RingMemory T) : Sides T where
  memory := memory
  reserved := ⟨memory.producer, 0, []⟩
  peeked := ⟨memory.consumer, 0, []⟩
  published := (List.range (memory.producer - memory.consumer).toNat).map fun k ↦
    memory.read (memory.consumer + UInt32.ofNat k)
  released := []

/-- The protocol: a side writes or reads within its grant, publishes what it has written and
releases what it has read. -/
def Follows (s : Sides T) : Action T → Prop
  | .reserve _ | .peek _ => True
  | .write _ => s.reserved.values.length < s.reserved.count.toNat
  | .submit count => count.toNat ≤ s.reserved.values.length
  | .read => s.peeked.values.length < s.peeked.count.toNat
  | .release count => count.toNat ≤ s.peeked.values.length

instance (s : Sides T) : DecidablePred s.Follows
  | .reserve _ | .peek _ => isTrue trivial
  | .write _ => inferInstanceAs (Decidable (_ < _))
  | .submit _ => inferInstanceAs (Decidable (_ ≤ _))
  | .read => inferInstanceAs (Decidable (_ < _))
  | .release _ => inferInstanceAs (Decidable (_ ≤ _))

/-- One operation.  A side may go on with the rest of a grant after it handed over a part of it, and
may ask for a new grant at any time. -/
def step (s : Sides T) : Action T → Except AfxdpError (Sides T)
  | .reserve requested => do
    let (start, count) ← s.memory.reserve requested
    return { s with reserved := ⟨start, count, []⟩ }
  | .write value =>
    .ok { s with
      memory := s.memory.write s.reserved.next value
      reserved := s.reserved.push value }
  | .submit count =>
    .ok { s with
      memory := s.memory.submit s.reserved.start count
      reserved := s.reserved.advance count
      published := s.published ++ s.reserved.values.take count.toNat }
  | .peek requested => do
    let (start, count) ← s.memory.peek requested
    return { s with peeked := ⟨start, count, []⟩ }
  | .read => .ok { s with peeked := s.peeked.push (s.memory.read s.peeked.next) }
  | .release count =>
    .ok { s with
      memory := s.memory.release s.peeked.start count
      peeked := s.peeked.advance count
      released := s.released ++ s.peeked.values.take count.toNat }

def Step (s : Sides T) (action : Action T) (s' : Sides T) : Prop :=
  s.Follows action ∧ s.step action = .ok s'

def unreleased (s : Sides T) : List T := s.published.drop s.released.length

/-! ### The invariant -/

/-- The ring holds `entries`, published and not released, and each side has its share. -/
structure Holding (s : Sides T) (entries : List T) : Prop where
  published : s.published = s.released ++ entries
  producer : s.memory.producer = s.memory.consumer + UInt32.ofNat entries.length
  /-- The consumer only makes room, so a reservation stays good. -/
  room : entries.length + s.reserved.count.toNat ≤ s.memory.size.toNat
  reserved : s.reserved.start = s.memory.producer
  written : s.reserved.values.length ≤ s.reserved.count.toNat
  peeked : s.peeked.start = s.memory.consumer
  /-- The producer only publishes more, so what was seen stays there. -/
  seen : s.peeked.count.toNat ≤ entries.length
  taken : s.peeked.values.length ≤ s.peeked.count.toNat
  read : s.peeked.values <+: entries
  holds : Holds s.memory.size.toNat s.memory.descriptors s.memory.consumer.toNat
    (entries ++ s.reserved.values)

namespace Holding

variable {s s' : Sides T} {entries : List T}

theorem unreleased_eq (h : s.Holding entries) : s.unreleased = entries := by
  rw [unreleased, h.published, List.drop_left]

theorem le_size (h : s.Holding entries) : entries.length ≤ s.memory.size.toNat :=
  (Nat.le_add_right ..).trans h.room

theorem read_eq (h : s.Holding entries) {k : ℕ} {value : T} (hk : entries[k]? = some value) :
    s.memory.read (s.memory.consumer + UInt32.ofNat k) = value := by
  rw [RingMemory.read, RingMemory.descriptorSlot_add]
  apply h.holds
  rw [List.getElem?_append_left (List.getElem?_eq_some_iff.mp hk).1, hk]

theorem slot_reserved (h : s.Holding entries) (k : ℕ) :
    s.memory.descriptorSlot (s.reserved.start + UInt32.ofNat k) =
      (s.memory.consumer.toNat + (entries.length + k)) % s.memory.size.toNat := by
  rw [h.reserved, h.producer, UInt32.add_assoc, ← UInt32.ofNat_add, RingMemory.descriptorSlot_add]

/-- **A reservation** changes nothing but what the producer knows. -/
theorem reserve (h : s.Holding entries) (requested : UInt32) :
    ∃ s', s.step (.reserve requested) = .ok s' ∧ s'.Holding entries := by
  obtain ⟨count, hreserve, hcount⟩ := RingMemory.reserve_eq h.producer h.le_size requested
  have hle := h.le_size
  refine ⟨{ s with reserved := ⟨s.memory.producer, count, []⟩ }, by rw [step, hreserve]; rfl, ?_⟩
  exact
    { h with
      room := by
        dsimp only
        omega
      reserved := rfl
      written := Nat.zero_le _
      holds := by
        rw [List.append_nil]
        simpa using h.holds.take entries.length }

/-- **A write** puts the value behind everything that is in the ring. -/
theorem write (h : s.Holding entries) {value : T} (hfollows : s.Follows (.write value)) :
    ∃ s', s.step (.write value) = .ok s' ∧ s'.Holding entries := by
  have hroom := h.room
  have hlt : s.reserved.values.length < s.reserved.count.toNat := hfollows
  have hholds := h.holds.append (by rw [List.length_append]; omega) value
  refine ⟨_, rfl, ?_⟩
  exact
    { h with
      written := by
        rw [Grant.push, List.length_append, List.length_singleton]
        exact hlt
      holds := by
        rw [List.length_append, List.append_assoc, ← h.slot_reserved] at hholds
        exact hholds }

/-- **A submission** publishes the first values that were written. -/
theorem submit (h : s.Holding entries) {count : UInt32} (hfollows : s.Follows (.submit count)) :
    ∃ s', s.step (.submit count) = .ok s' ∧
      s'.Holding (entries ++ s.reserved.values.take count.toNat) := by
  have hroom := h.room
  have hwritten := h.written
  have hle : count.toNat ≤ s.reserved.values.length := hfollows
  have htake : (s.reserved.values.take count.toNat).length = count.toNat :=
    List.length_take_of_le hle
  have hcount : (s.reserved.count - count).toNat = s.reserved.count.toNat - count.toNat :=
    UInt32.toNat_sub_of_le _ _ (UInt32.le_iff_toNat_le.mpr (hle.trans hwritten))
  have hmemory : s.memory.submit s.reserved.start count =
      { s.memory with producer := s.memory.producer + count } := by
    rw [h.reserved]
    exact RingMemory.submit_eq count
  refine ⟨_, rfl, ?_⟩
  rw [hmemory]
  exact
    { published := by rw [h.published, List.append_assoc]
      producer := by
        rw [List.length_append, htake, UInt32.ofNat_add, UInt32.ofNat_toNat, ← UInt32.add_assoc,
          ← h.producer]
      room := by
        rw [List.length_append, htake, Grant.advance, hcount]
        dsimp only
        omega
      reserved := by rw [Grant.advance, h.reserved]
      written := by
        rw [Grant.advance, hcount, List.length_drop]
        omega
      peeked := h.peeked
      seen := by
        rw [List.length_append]
        exact h.seen.trans (Nat.le_add_right ..)
      taken := h.taken
      read := h.read.trans (List.prefix_append ..)
      holds := by
        rw [Grant.advance, List.append_assoc, List.take_append_drop]
        exact h.holds }

/-- **A look** changes nothing but what the consumer knows. -/
theorem peek (h : s.Holding entries) (requested : UInt32) :
    ∃ s', s.step (.peek requested) = .ok s' ∧ s'.Holding entries := by
  obtain ⟨count, hpeek, hcount⟩ := RingMemory.peek_eq h.producer h.le_size requested
  refine ⟨{ s with peeked := ⟨s.memory.consumer, count, []⟩ }, by rw [step, hpeek]; rfl, ?_⟩
  exact
    { h with
      peeked := rfl
      seen := hcount.trans_le (Nat.min_le_right ..)
      taken := Nat.zero_le _
      read := List.nil_prefix }

/-- **A read** takes the next entry. -/
theorem read_next (h : s.Holding entries) (hfollows : s.Follows .read) :
    ∃ s', s.step .read = .ok s' ∧ s'.Holding entries := by
  have hlt : s.peeked.values.length < s.peeked.count.toNat := hfollows
  obtain ⟨rest, hrest⟩ := h.read
  cases rest with
  | nil =>
    have hseen := h.seen
    rw [← hrest, List.append_nil] at hseen
    omega
  | cons value rest =>
    have hvalue : s.memory.read s.peeked.next = value := by
      rw [Grant.next, h.peeked]
      exact h.read_eq (by simp [← hrest])
    refine ⟨_, rfl, ?_⟩
    rw [hvalue]
    exact
      { h with
        taken := by
          rw [Grant.push, List.length_append, List.length_singleton]
          exact hlt
        read := ⟨rest, by rw [← hrest, Grant.push, List.append_assoc]; rfl⟩ }

/-- **A release** makes room for the first values that were read. -/
theorem release (h : s.Holding entries) {count : UInt32} (hfollows : s.Follows (.release count)) :
    ∃ s', s.step (.release count) = .ok s' ∧ s'.Holding (entries.drop count.toNat) := by
  have hroom := h.room
  have hseen := h.seen
  have htaken := h.taken
  have hle : count.toNat ≤ s.peeked.values.length := hfollows
  have hcount : (s.peeked.count - count).toNat = s.peeked.count.toNat - count.toNat :=
    UInt32.toNat_sub_of_le _ _ (UInt32.le_iff_toNat_le.mpr (hle.trans htaken))
  have hmemory : s.memory.release s.peeked.start count =
      { s.memory with consumer := s.memory.consumer + count } := by
    rw [h.peeked]
    exact RingMemory.release_eq count
  have hfirst : s.peeked.values.take count.toNat = entries.take count.toNat := by
    rw [List.prefix_iff_eq_take.mp h.read, List.take_take, Nat.min_eq_left hle]
  refine ⟨_, rfl, ?_⟩
  rw [hmemory]
  exact
    { published := by
        rw [hfirst, List.append_assoc, List.take_append_drop]
        exact h.published
      producer := by
        have hsplit : entries.length = count.toNat + (entries.length - count.toNat) := by omega
        have hadd : count + UInt32.ofNat (entries.length - count.toNat) =
            UInt32.ofNat entries.length := by
          rw [hsplit, UInt32.ofNat_add, UInt32.ofNat_toNat, Nat.add_sub_cancel_left]
        rw [List.length_drop, UInt32.add_assoc, hadd]
        exact h.producer
      room := by
        rw [List.length_drop]
        dsimp only
        omega
      reserved := h.reserved
      written := h.written
      peeked := by rw [Grant.advance, h.peeked]
      seen := by
        rw [Grant.advance, hcount, List.length_drop]
        omega
      taken := by
        rw [Grant.advance, hcount, List.length_drop]
        omega
      read := by
        obtain ⟨rest, hrest⟩ := h.read
        exact ⟨rest, by rw [← hrest, List.drop_append_of_le_length hle]; rfl⟩
      holds := by
        have hholds := h.holds.drop count.toNat
        rw [List.drop_append_of_le_length (by omega)] at hholds
        dsimp only
        rw [← Holds.mod_head, UInt32.toNat_add, Nat.mod_mod_of_dvd _ RingMemory.size_dvd,
          Holds.mod_head]
        exact hholds }

/-- **Every operation that follows the protocol succeeds** and keeps the invariant. -/
theorem step (h : s.Holding entries) {action : Action T} (hfollows : s.Follows action) :
    ∃ s', s.step action = .ok s' ∧ ∃ entries', s'.Holding entries' := by
  cases action with
  | reserve requested =>
    obtain ⟨s', hstep, h'⟩ := h.reserve requested
    exact ⟨s', hstep, _, h'⟩
  | write value =>
    obtain ⟨s', hstep, h'⟩ := h.write hfollows
    exact ⟨s', hstep, _, h'⟩
  | submit count =>
    obtain ⟨s', hstep, h'⟩ := h.submit hfollows
    exact ⟨s', hstep, _, h'⟩
  | peek requested =>
    obtain ⟨s', hstep, h'⟩ := h.peek requested
    exact ⟨s', hstep, _, h'⟩
  | read =>
    obtain ⟨s', hstep, h'⟩ := h.read_next hfollows
    exact ⟨s', hstep, _, h'⟩
  | release count =>
    obtain ⟨s', hstep, h'⟩ := h.release hfollows
    exact ⟨s', hstep, _, h'⟩

end Holding

theorem holding_start {memory : RingMemory T}
    (hstart : memory.producer - memory.consumer ≤ memory.size) :
    (start memory).Holding (start memory).published where
  published := rfl
  producer := by
    rw [start, List.length_map, List.length_range, UInt32.ofNat_toNat, UInt32.add_comm,
      UInt32.sub_add_cancel]
  room := by
    rw [start, List.length_map, List.length_range]
    exact UInt32.le_iff_toNat_le.mp hstart
  reserved := rfl
  written := Nat.zero_le _
  peeked := rfl
  seen := Nat.zero_le _
  taken := Nat.zero_le _
  read := List.nil_prefix
  holds := by
    intro k value hk
    rw [start, List.append_nil, List.getElem?_map, Option.map_eq_some_iff] at hk
    obtain ⟨k', hk', rfl⟩ := hk
    obtain ⟨hlt, hget⟩ := List.getElem?_eq_some_iff.mp hk'
    rw [List.getElem_range] at hget
    rw [← hget, RingMemory.read, RingMemory.descriptorSlot_add]
    rfl

/-- **Every state of every run** keeps the invariant. -/
theorem holding_of_run {memory : RingMemory T}
    (hstart : memory.producer - memory.consumer ≤ memory.size) {s : Sides T}
    (hrun : Run Step (fun _ ↦ True) (start memory) s) : ∃ entries, s.Holding entries := by
  refine hrun.invariant (I := fun s ↦ ∃ entries, s.Holding entries) ?_ ⟨_, holding_start hstart⟩
  rintro s s' action - ⟨hfollows, hstep⟩ ⟨entries, h⟩
  obtain ⟨s'', hstep', h'⟩ := h.step hfollows
  obtain rfl := Except.ok.inj (hstep.symm.trans hstep')
  exact h'

/-! ### What each side can rely on -/

/-- The ring is a bounded queue without loss. -/
structure Lossless (s : Sides T) : Prop where
  /-- Nothing was lost or repeated: the values were released in the order in which they were
  published, and the others are still in the ring. -/
  published : s.published = s.released ++ s.unreleased
  /-- What the consumer has read under its grant continues the values it released. -/
  read : s.released ++ s.peeked.values <+: s.published
  /-- A reservation grants what is asked for, up to the room the unreleased entries leave. -/
  reserve : ∀ requested, ∃ count, s.memory.reserve requested = .ok (s.memory.producer, count) ∧
    count.toNat = min requested.toNat (s.memory.size.toNat - s.unreleased.length)
  /-- The unreleased entries and the reserved ones have different descriptors. -/
  distinct : ((List.range s.unreleased.length).map (fun k ↦
      s.memory.descriptorSlot (s.memory.consumer + UInt32.ofNat k)) ++
    (List.range s.reserved.count.toNat).map (fun k ↦
      s.memory.descriptorSlot (s.reserved.start + UInt32.ofNat k))).Nodup
  /-- A look shows the unreleased entries from the first on, up to what is asked for. -/
  peek : ∀ requested, ∃ count, s.memory.peek requested = .ok (s.memory.consumer, count) ∧
    count.toNat = min requested.toNat s.unreleased.length
  /-- Their descriptors hold the values that were published. -/
  values : (List.range s.unreleased.length).map (fun k ↦
    s.memory.read (s.memory.consumer + UInt32.ofNat k)) = s.unreleased
  /-- A side that follows the protocol is never told that the ring is corrupt. -/
  follows : ∀ action, s.Follows action → ∃ s', s.step action = .ok s'
  /-- The assertions of `submit` and `release`. -/
  starts : s.reserved.start = s.memory.producer ∧ s.peeked.start = s.memory.consumer

theorem Holding.lossless {s : Sides T} {entries : List T} (h : s.Holding entries) :
    s.Lossless := by
  have hunreleased := h.unreleased_eq
  constructor
  case published => rw [hunreleased, h.published]
  case read =>
    rw [h.published]
    exact (List.prefix_append_right_inj _).mpr h.read
  case reserve =>
    rw [hunreleased]
    exact RingMemory.reserve_eq h.producer h.le_size
  case distinct =>
    simp only [hunreleased, h.slot_reserved, RingMemory.descriptorSlot_add]
    have hslots := nodup_offsets s.memory.consumer.toNat h.room
    rw [List.range_add, List.map_append, List.map_map] at hslots
    exact hslots
  case peek =>
    rw [hunreleased]
    exact RingMemory.peek_eq h.producer h.le_size
  case values =>
    simp only [hunreleased, RingMemory.read, RingMemory.descriptorSlot_add]
    have hholds := h.holds.take entries.length
    rw [List.take_left] at hholds
    exact hholds.map_range
  case follows =>
    intro action hfollows
    obtain ⟨s', hstep, -⟩ := h.step hfollows
    exact ⟨s', hstep⟩
  case starts => exact ⟨h.reserved, h.peeked⟩

/-- **The rings are bounded queues without loss, across the wrap of their indices.**  From every
ring whose indices are at most its size apart, in every interleaving of a producer and a consumer
that follow the protocol. -/
theorem descriptor_ring_lossless (memory : RingMemory T)
    (hstart : memory.producer - memory.consumer ≤ memory.size) (s : Sides T)
    (hrun : Run Step (fun _ ↦ True) (start memory) s) : s.Lossless := by
  obtain ⟨entries, h⟩ := holding_of_run hstart hrun
  exact h.lossless

def aboutToWrap : RingMemory UInt64 where
  producer := 0xffffffff
  consumer := 0xffffffff
  descriptors := fun _ ↦ 0
  size := 4
  mask := 3
  isPowerOfTwo := ⟨2, rfl⟩
  mask_eq := rfl

theorem descriptor_ring_lossless_across_wrap :
    aboutToWrap.producer - aboutToWrap.consumer ≤ aboutToWrap.size ∧
      ∃ s, Run Step (fun _ ↦ True) (start aboutToWrap) s ∧ s.Lossless ∧ s.released = [7, 8] ∧
        s.memory.producer = 1 ∧ s.memory.consumer = 1 := by
  have hstart : aboutToWrap.producer - aboutToWrap.consumer ≤ aboutToWrap.size := by decide
  have hreserve : Step (start aboutToWrap) (.reserve 9) _ := ⟨trivial, rfl⟩
  have hrun : Run Step (fun _ ↦ True) (start aboutToWrap) _ := .single trivial hreserve
  have hrun := hrun.tail (e := .write 7) trivial ⟨by decide, rfl⟩
  have hrun := hrun.tail (e := .write 8) trivial ⟨by decide, rfl⟩
  have hrun := hrun.tail (e := .submit 2) trivial ⟨by decide, rfl⟩
  have hrun := hrun.tail (e := .peek 3) trivial ⟨by decide, rfl⟩
  have hrun := hrun.tail (e := .read) trivial ⟨by decide, rfl⟩
  have hrun := hrun.tail (e := .read) trivial ⟨by decide, rfl⟩
  have hrun := hrun.tail (e := .release 2) trivial ⟨by decide, rfl⟩
  exact ⟨hstart, _, hrun, descriptor_ring_lossless aboutToWrap hstart _ hrun, rfl, rfl, rfl⟩

end Sides

end Rocev2.Io
