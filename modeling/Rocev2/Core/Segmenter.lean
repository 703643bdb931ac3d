import Rocev2.Core.Retry
import Rocev2.Lib.Checked
import Rocev2.Wire.Packet

/-!
# The segmenter

`rocev2-core/src/segment.rs`: an iterator that cuts a payload into packets.  Its state after any
number of calls has a closed form (`Fresh.advance`), from which the `i`-th segment is read
(`Fresh.nth`).

The iterator also reports how many segments are left.  It computes the number from the bytes that
are left, and when none are left of a payload that had some, the subtraction underflows: the report
is exact until the iterator is exhausted and not afterwards (`remaining_exact_iff`).
-/

namespace Rocev2.Core

open Lib Lib.Bytes Lib.Checked Wire

/-- Logical transfer whose payload is split into packets. -/
inductive TransferKind where
  | send
  | write
  | readResponse
deriving DecidableEq, Repr

/-- Segmentation setup failure. -/
inductive SegmentError where
  | zeroPayloadCapacity
deriving DecidableEq, Repr

/-- One payload segment and its opcode. -/
structure Segment where
  opcode : Opcode
  /-- The byte offset in the complete transfer. -/
  offset : ℕ
  payload : List UInt8
deriving DecidableEq

/-- The opcode of a segment at the given position. -/
def opcodeFor (kind : TransferKind) (first last : Bool) : Opcode :=
  match kind, first, last with
  | .send, true, true => .sendOnly
  | .send, true, false => .sendFirst
  | .send, false, true => .sendLast
  | .send, false, false => .sendMiddle
  | .write, true, true => .rdmaWriteOnly
  | .write, true, false => .rdmaWriteFirst
  | .write, false, true => .rdmaWriteLast
  | .write, false, false => .rdmaWriteMiddle
  | .readResponse, true, true => .rdmaReadResponseOnly
  | .readResponse, true, false => .rdmaReadResponseFirst
  | .readResponse, false, true => .rdmaReadResponseLast
  | .readResponse, false, false => .rdmaReadResponseMiddle

/-- The iterator that partitions a transfer. -/
structure Segmenter where
  kind : TransferKind
  payload : List UInt8
  maxPayload : ℕ
  offset : ℕ
  emittedEmpty : Bool

namespace Segmenter

/-- Create a segmenter with a maximum payload byte count per packet. -/
def new (kind : TransferKind) (payload : List UInt8) (maxPayload : ℕ) :
    Except SegmentError Segmenter :=
  if maxPayload = 0 then .error .zeroPayloadCapacity
  else .ok ⟨kind, payload, maxPayload, 0, false⟩

/-- The total number of segments that will be produced. -/
def totalSegments (segmenter : Segmenter) : ℕ :=
  if segmenter.payload.isEmpty then 1
  else 1 + (segmenter.payload.length - 1) / segmenter.maxPayload

/-- The number of segments not yet emitted; its subtractions may underflow. -/
def remainingSegments (segmenter : Segmenter) : Checked Empty ℕ :=
  if segmenter.payload.isEmpty then
    if segmenter.emittedEmpty then .ok 0 else .ok 1
  else do
    let remaining ← sub segmenter.payload.length segmenter.offset
    let behind ← sub remaining 1
    .ok (1 + behind / segmenter.maxPayload)

/-- The next segment. -/
def next (segmenter : Segmenter) : Option Segment × Segmenter :=
  if segmenter.payload.isEmpty then
    if segmenter.emittedEmpty then (none, segmenter)
    else (some ⟨opcodeFor segmenter.kind true true, 0, []⟩, { segmenter with emittedEmpty := true })
  else if segmenter.offset = segmenter.payload.length then (none, segmenter)
  else
    let start := segmenter.offset
    let stop := min (saturatingAdd start segmenter.maxPayload) segmenter.payload.length
    let first := decide (start = 0)
    let last := decide (stop = segmenter.payload.length)
    (some ⟨opcodeFor segmenter.kind first last, start, slice segmenter.payload start stop⟩,
      { segmenter with offset := stop })

/-- The bounds on the number of segments that are left. -/
def sizeHint (segmenter : Segmenter) : Checked Empty (ℕ × Option ℕ) := do
  let remaining ← segmenter.remainingSegments
  .ok (remaining, some remaining)

/-- The exact number of segments that are left. -/
def len (segmenter : Segmenter) : Checked Empty ℕ := segmenter.remainingSegments

/-- The iterator after a number of calls. -/
def advance (segmenter : Segmenter) : ℕ → Segmenter
  | 0 => segmenter
  | n + 1 => (segmenter.advance n).next.2

/-- What the call after `n` others returns. -/
def nth (segmenter : Segmenter) (n : ℕ) : Option Segment := (segmenter.advance n).next.1

def Yields (segmenter : Segmenter) (count : ℕ) : Prop :=
  ∀ i, (segmenter.nth i).isSome ↔ i < count

/-- Every report of the number of segments that are left is right. -/
def Exact (segmenter : Segmenter) : Prop :=
  ∃ count, segmenter.Yields count ∧ segmenter.remainingSegments = .ok count ∧
    segmenter.len = .ok count ∧ segmenter.sizeHint = .ok (count, some count)

/-! ## The state after some calls -/

theorem advance_add (segmenter : Segmenter) (m n : ℕ) :
    (segmenter.advance m).advance n = segmenter.advance (m + n) := by
  induction n with
  | zero => rfl
  | succ n ih => exact congrArg (fun s ↦ s.next.2) ih

theorem nth_advance (segmenter : Segmenter) (m n : ℕ) :
    (segmenter.advance m).nth n = segmenter.nth (m + n) := by
  rw [nth, advance_add, nth]

/-- A new iterator over a slice. -/
structure Fresh (segmenter : Segmenter) : Prop where
  capacity : 0 < segmenter.maxPayload
  offset_eq : segmenter.offset = 0
  emitted_eq : segmenter.emittedEmpty = false
  /-- A slice has fewer than `2 ^ 64` bytes. -/
  fits : segmenter.payload.length < 2 ^ 64

def segment (segmenter : Segmenter) (i : ℕ) : Segment :=
  { opcode := opcodeFor segmenter.kind (decide (i = 0))
      (decide (segmenter.payload.length ≤ (i + 1) * segmenter.maxPayload))
    offset := i * segmenter.maxPayload
    payload := slice segmenter.payload (i * segmenter.maxPayload)
      (min ((i + 1) * segmenter.maxPayload) segmenter.payload.length) }

variable {segmenter : Segmenter} {kind : TransferKind} {payload : List UInt8} {maxPayload : ℕ}

theorem fresh_new (h : new kind payload maxPayload = .ok segmenter)
    (hfits : payload.length < 2 ^ 64) : segmenter.Fresh := by
  unfold new at h
  split at h
  · cases h
  · rename_i hcapacity
    cases h
    exact ⟨Nat.pos_of_ne_zero hcapacity, rfl, rfl, hfits⟩

namespace Fresh

theorem next_eq (h : segmenter.Fresh) (hne : segmenter.payload.isEmpty = false) (n : ℕ) :
    { segmenter with
      offset := min (n * segmenter.maxPayload) segmenter.payload.length : Segmenter }.next =
      (if n * segmenter.maxPayload < segmenter.payload.length then some (segmenter.segment n)
        else none,
        { segmenter with
          offset := min ((n + 1) * segmenter.maxPayload) segmenter.payload.length }) := by
  have hcapacity := h.capacity
  have hfits := h.fits
  have hsucc : (n + 1) * segmenter.maxPayload = n * segmenter.maxPayload + segmenter.maxPayload :=
    Nat.succ_mul n segmenter.maxPayload
  unfold next
  dsimp only
  rw [hne, if_neg Bool.false_ne_true]
  by_cases hlt : n * segmenter.maxPayload < segmenter.payload.length
  · have hstop : min (saturatingAdd (min (n * segmenter.maxPayload) segmenter.payload.length)
        segmenter.maxPayload) segmenter.payload.length =
        min ((n + 1) * segmenter.maxPayload) segmenter.payload.length := by
      unfold saturatingAdd
      omega
    rw [if_neg (by omega), if_pos hlt, hstop, Nat.min_eq_left hlt.le]
    have hfirst : decide (n * segmenter.maxPayload = 0) = decide (n = 0) := by
      rw [decide_eq_decide, Nat.mul_eq_zero]
      omega
    have hlast : decide (min ((n + 1) * segmenter.maxPayload) segmenter.payload.length =
        segmenter.payload.length) =
        decide (segmenter.payload.length ≤ (n + 1) * segmenter.maxPayload) := by
      rw [decide_eq_decide]
      omega
    rw [hfirst, hlast]
    rfl
  · rw [if_pos (by omega), if_neg hlt, Nat.min_eq_right (by omega), Nat.min_eq_right (by omega)]

/-- **The state after `n` calls.** -/
theorem advance (h : segmenter.Fresh) (hne : segmenter.payload.isEmpty = false) (n : ℕ) :
    segmenter.advance n = { segmenter with
      offset := min (n * segmenter.maxPayload) segmenter.payload.length } := by
  induction n with
  | zero =>
    rw [Nat.zero_mul, Nat.zero_min]
    change segmenter = _
    rw [← h.offset_eq]
  | succ n ih => rw [Segmenter.advance, ih, h.next_eq hne]

theorem advance_of_isEmpty (h : segmenter.Fresh) (hempty : segmenter.payload.isEmpty = true)
    (n : ℕ) : segmenter.advance n = { segmenter with emittedEmpty := decide (n ≠ 0) } := by
  induction n with
  | zero =>
    change segmenter = { segmenter with emittedEmpty := false }
    rw [← h.emitted_eq]
  | succ n ih =>
    rw [Segmenter.advance, ih, decide_eq_true n.succ_ne_zero]
    unfold next
    dsimp only
    rw [if_pos hempty]
    split_ifs with hn
    · rw [hn]
    · rfl

theorem lt_totalSegments (h : segmenter.Fresh) (hne : segmenter.payload.isEmpty = false) {n : ℕ} :
    n < segmenter.totalSegments ↔ n * segmenter.maxPayload < segmenter.payload.length := by
  have hpos : 0 < segmenter.payload.length :=
    List.length_pos_iff.mpr (List.isEmpty_eq_false_iff.mp hne)
  rw [totalSegments, hne, if_neg Bool.false_ne_true, Nat.add_comm, Nat.lt_succ_iff,
    Nat.le_div_iff_mul_le h.capacity]
  omega

/-- **The `n`-th segment.** -/
theorem nth (h : segmenter.Fresh) (n : ℕ) :
    segmenter.nth n =
      if n < segmenter.totalSegments then some (segmenter.segment n) else none := by
  cases hempty : segmenter.payload.isEmpty with
  | false =>
    rw [Segmenter.nth, h.advance hempty, h.next_eq hempty]
    simp only [h.lt_totalSegments hempty]
  | true =>
    have hnil := List.isEmpty_iff.mp hempty
    rw [Segmenter.nth, h.advance_of_isEmpty hempty, totalSegments, if_pos hempty]
    unfold next
    dsimp only
    rw [if_pos hempty]
    cases n with
    | zero =>
      rw [if_pos Nat.one_pos]
      simp [segment, hnil, slice]
    | succ n => simp

theorem nth_eq_getElem? (h : segmenter.Fresh) (n : ℕ) :
    segmenter.nth n =
      ((List.range segmenter.totalSegments).map segmenter.segment)[n]? := by
  rw [h.nth, List.getElem?_map]
  split_ifs with hlt
  · rw [List.getElem?_range hlt, Option.map_some]
  · rw [List.getElem?_eq_none (by rw [List.length_range]; omega), Option.map_none]

/-! ## The number of segments that are left -/

theorem yields (h : segmenter.Fresh) (n : ℕ) :
    (segmenter.advance n).Yields (segmenter.totalSegments - n) := by
  intro i
  rw [nth_advance, h.nth]
  split_ifs with hlt
  · exact ⟨fun _ ↦ by omega, fun _ ↦ rfl⟩
  · exact ⟨fun hsome ↦ Bool.noConfusion hsome, fun hi ↦ absurd hi (by omega)⟩

/-- **The report is right** until the last segment of a payload has been emitted. -/
theorem remainingSegments_eq (h : segmenter.Fresh) {n : ℕ}
    (hn : segmenter.payload.isEmpty = true ∨ n < segmenter.totalSegments) :
    (segmenter.advance n).remainingSegments = .ok (segmenter.totalSegments - n) := by
  cases hempty : segmenter.payload.isEmpty with
  | true =>
    rw [h.advance_of_isEmpty hempty, remainingSegments, totalSegments, if_pos hempty, if_pos hempty]
    cases n with
    | zero => rfl
    | succ n => simp
  | false =>
    have hlt := hn.resolve_left (by rw [hempty]; exact Bool.false_ne_true)
    have hstart := (h.lt_totalSegments hempty).mp hlt
    rw [h.advance hempty, remainingSegments]
    dsimp only
    rw [hempty, if_neg Bool.false_ne_true, sub_eq (Nat.min_le_right ..), ok_bind,
      Nat.min_eq_left hstart.le, sub_eq (by omega), ok_bind, totalSegments, hempty,
      if_neg Bool.false_ne_true]
    have hle : n ≤ (segmenter.payload.length - 1) / segmenter.maxPayload := by
      rw [Nat.le_div_iff_mul_le h.capacity]
      omega
    rw [Nat.sub_right_comm, Nat.mul_comm n, Nat.sub_mul_div]
    congr 1
    omega

/-- **The report underflows** once the segments of a payload have been emitted. -/
theorem remainingSegments_panics (h : segmenter.Fresh) {n : ℕ}
    (hne : segmenter.payload.isEmpty = false) (hn : segmenter.totalSegments ≤ n) :
    (segmenter.advance n).remainingSegments = .error .panicked := by
  have hend := (h.lt_totalSegments hne).not.mp (Nat.not_lt.mpr hn)
  rw [h.advance hne, remainingSegments]
  dsimp only
  rw [hne, if_neg Bool.false_ne_true, sub_eq (Nat.min_le_right ..), ok_bind,
    Nat.min_eq_right (Nat.le_of_not_lt hend), Nat.sub_self]
  rfl

end Fresh

/-- **The reports are exact as long as segments are left.**  After any number of calls the iterator
reports the number of further segments, without underflow, if and only if the payload is empty or
not every segment has been emitted. -/
theorem remaining_exact_iff (kind : TransferKind) (payload : List UInt8) (maxPayload : ℕ)
    (segmenter : Segmenter) (hnew : new kind payload maxPayload = .ok segmenter)
    (hslice : payload.length < 2 ^ 64) (n : ℕ) :
    (segmenter.advance n).Exact ↔ payload = [] ∨ n < segmenter.totalSegments := by
  have h := fresh_new hnew hslice
  have hpayload : segmenter.payload = payload := by
    unfold new at hnew
    split at hnew
    · cases hnew
    · cases hnew
      rfl
  rw [← hpayload, ← List.isEmpty_iff]
  constructor
  · rintro ⟨count, -, hcount, -⟩
    by_contra hexhausted
    rw [not_or, Bool.not_eq_true] at hexhausted
    rw [h.remainingSegments_panics hexhausted.1 (Nat.le_of_not_lt hexhausted.2)] at hcount
    cases hcount
  · intro hleft
    have hcount := h.remainingSegments_eq hleft
    refine ⟨_, h.yields n, hcount, hcount, ?_⟩
    rw [sizeHint, hcount]
    rfl

theorem remaining_exact_iff_two_segments :
    (new .send [1, 2, 3] 2 = .ok ⟨.send, [1, 2, 3], 2, 0, false⟩ ∧ [1, 2, 3].length < 2 ^ 64) ∧
      ((⟨.send, [1, 2, 3], 2, 0, false⟩ : Segmenter).advance 1).Exact :=
  ⟨⟨rfl, by decide⟩, (remaining_exact_iff .send [1, 2, 3] 2 _ rfl (by decide) 1).mpr
    (.inr (by decide))⟩

theorem remaining_underflows :
    (⟨.send, [1], 8, 0, false⟩ : Segmenter).nth 1 = none ∧
      ((⟨.send, [1], 8, 0, false⟩ : Segmenter).advance 1).remainingSegments = .error .panicked ∧
      ¬((⟨.send, [1], 8, 0, false⟩ : Segmenter).advance 1).Exact := by
  have hpanics : ((⟨.send, [1], 8, 0, false⟩ : Segmenter).advance 1).remainingSegments =
      .error .panicked := rfl
  refine ⟨rfl, hpanics, ?_⟩
  rintro ⟨count, -, hcount, -⟩
  rw [hpanics] at hcount
  cases hcount

end Segmenter

end Rocev2.Core
