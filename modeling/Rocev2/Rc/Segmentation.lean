import Rocev2.Core.Segmenter
import Rocev2.Rc.Segment

/-!
# The engine and the segmenter

The engine (`rocev2/src/rc.rs`) computes the bounds and the opcode of each packet on its own,
without the iterator of `rocev2-core/src/segment.rs`.  Both cut a transfer the same way, packet by
packet, and the packets tile it: `segmentation_agrees`.
-/

namespace Rocev2.Rc

open Rocev2.Core Lib.Bytes

/-- What the segmenter calls a direction. -/
def TransferDirection.kind : TransferDirection → TransferKind
  | .send => .send
  | .write => .write
  | .readResponse => .readResponse

theorem segmentedOpcode_eq (direction : TransferDirection) (index count : ℕ) :
    segmentedOpcode direction index count =
      opcodeFor direction.kind (decide (index = 0)) (decide (index + 1 = count)) := by
  unfold segmentedOpcode
  generalize decide (index = 0) = first
  generalize decide (index + 1 = count) = last
  cases direction <;> cases first <;> cases last <;> rfl

/-! ## A list of segments -/

/-- The opcodes of `count` segments are one for a single segment, or one for the first, one for
each in the middle and one for the last. -/
theorem map_opcodeFor (kind : TransferKind) {count : ℕ} (hcount : 0 < count) :
    (List.range count).map
        (fun i ↦ opcodeFor kind (decide (i = 0)) (decide (i + 1 = count))) =
      [opcodeFor kind true true] ∨
    ∃ middle, (List.range count).map
        (fun i ↦ opcodeFor kind (decide (i = 0)) (decide (i + 1 = count))) =
      opcodeFor kind true false ::
        (List.replicate middle (opcodeFor kind false false) ++ [opcodeFor kind false true]) := by
  match count with
  | 1 => exact .inl rfl
  | middle + 2 =>
    refine .inr ⟨middle, ?_⟩
    rw [List.range_succ, List.range_succ_eq_map, List.map_append, List.map_cons, List.cons_append]
    congr 2
    · rw [List.map_map]
      refine List.eq_replicate_iff.mpr ⟨by rw [List.length_map, List.length_range], ?_⟩
      intro opcode hopcode
      obtain ⟨i, hi, rfl⟩ := List.mem_map.mp hopcode
      have hlt := List.mem_range.mp hi
      simp only [Function.comp_apply, Nat.succ_ne_zero, decide_false]
      rw [decide_eq_false (by omega)]
    · simp

theorem flatten_slices {α : Type} (payload : List α) (size n : ℕ) :
    ((List.range n).map fun i ↦
      slice payload (i * size) (min ((i + 1) * size) payload.length)).flatten =
      payload.take (n * size) := by
  induction n with
  | zero => simp
  | succ n ih =>
    rw [List.range_succ, List.map_append, List.flatten_append, ih, List.map_singleton,
      List.flatten_singleton, slice, ← List.take_eq_take_min]
    have hle : n * size ≤ (n + 1) * size := Nat.mul_le_mul_right size n.le_succ
    have hfront : payload.take (n * size) = (payload.take ((n + 1) * size)).take (n * size) := by
      rw [List.take_take, Nat.min_eq_left hle]
    rw [hfront, List.take_append_drop]

/-! ## The agreement -/

/-- A new segmenter for a transfer of the engine. -/
structure Cuts (segmenter : Segmenter) (direction : TransferDirection) (payload : List UInt8)
    (length : UInt32) (mtu : ℕ) : Prop where
  fresh : segmenter.Fresh
  kind_eq : segmenter.kind = direction.kind
  payload_eq : segmenter.payload = payload
  maxPayload_eq : segmenter.maxPayload = mtu
  length_eq : payload.length = length.toNat

namespace Cuts

variable {segmenter : Segmenter} {direction : TransferDirection} {payload : List UInt8}
  {length : UInt32} {mtu i : ℕ}

theorem pos (h : Cuts segmenter direction payload length mtu) : 0 < mtu :=
  h.maxPayload_eq ▸ h.fresh.capacity

theorem payload_eq_nil (h : Cuts segmenter direction payload length mtu) (hzero : length = 0) :
    payload = [] := by
  refine List.eq_nil_of_length_eq_zero ?_
  rw [h.length_eq, hzero]
  rfl

theorem totalSegments_eq (h : Cuts segmenter direction payload length mtu) :
    segmenter.totalSegments = packetCount length mtu := by
  unfold Segmenter.totalSegments packetCount
  rw [h.payload_eq, h.maxPayload_eq, h.length_eq]
  by_cases hzero : length = 0
  · rw [if_pos hzero, h.payload_eq_nil hzero]
    rfl
  · have hne : length.toNat ≠ 0 := fun heq ↦ hzero (UInt32.toNat_inj.mp heq)
    have hempty : payload.isEmpty = false := by
      rw [List.isEmpty_eq_false_iff, ← List.length_pos_iff, h.length_eq]
      omega
    rw [if_neg hzero, hempty, if_neg Bool.false_ne_true,
      show length.toNat + mtu - 1 = length.toNat - 1 + mtu by omega, Nat.add_div_right _ h.pos,
      Nat.add_comm]

theorem offset_segment (h : Cuts segmenter direction payload length mtu) (i : ℕ) :
    (segmenter.segment i).offset = i * mtu := by
  unfold Segmenter.segment
  rw [h.maxPayload_eq]

/-- **A segment of the segmenter has the bounds that the engine computes.** -/
theorem segmentBounds_eq_some (h : Cuts segmenter direction payload length mtu)
    (hi : i < packetCount length mtu) :
    segmentBounds length mtu i =
      some ((segmenter.segment i).offset, (segmenter.segment i).payload.length) := by
  have hsize : (segmenter.segment i).payload.length =
      min ((i + 1) * mtu) length.toNat - i * mtu := by
    unfold Segmenter.segment
    rw [length_slice _ (Nat.min_le_right ..), h.payload_eq, h.maxPayload_eq, h.length_eq]
  rw [hsize, h.offset_segment]
  have hsucc : (i + 1) * mtu = i * mtu + mtu := Nat.succ_mul i mtu
  unfold segmentBounds
  by_cases hzero : length.toNat = 0
  · rw [packetCount, if_pos (UInt32.toNat_inj.mp hzero)] at hi
    obtain rfl : i = 0 := by omega
    rw [if_pos hzero, if_pos rfl, hzero]
    simp
  · have hlt := mul_lt_of_lt_packetCount h.pos hzero hi
    rw [if_neg hzero, if_neg (Nat.not_le.mpr hlt)]
    congr 2
    omega

theorem segmentBounds_eq_none (h : Cuts segmenter direction payload length mtu)
    (hi : packetCount length mtu ≤ i) : segmentBounds length mtu i = none := by
  unfold segmentBounds
  by_cases hzero : length.toNat = 0
  · rw [packetCount, if_pos (UInt32.toNat_inj.mp hzero)] at hi
    rw [if_pos hzero, if_neg (by omega)]
  · rw [if_neg hzero, if_pos ((le_packetCount_mul h.pos hzero).trans (Nat.mul_le_mul_right mtu hi))]

/-- The last segment is the one behind which no other starts. -/
theorem opcode_segment (h : Cuts segmenter direction payload length mtu)
    (hi : i < packetCount length mtu) :
    (segmenter.segment i).opcode =
      opcodeFor direction.kind (decide (i = 0)) (decide (i + 1 = packetCount length mtu)) := by
  have hlast : segmenter.payload.length ≤ (i + 1) * segmenter.maxPayload ↔
      i + 1 = packetCount length mtu := by
    rw [h.payload_eq, h.maxPayload_eq, h.length_eq]
    by_cases hzero : length.toNat = 0
    · rw [packetCount, if_pos (UInt32.toNat_inj.mp hzero)] at hi ⊢
      omega
    · constructor
      · intro hle
        by_contra hne
        have hstarts := mul_lt_of_lt_packetCount h.pos hzero
          (by omega : i + 1 < packetCount length mtu)
        omega
      · intro heq
        rw [heq]
        exact le_packetCount_mul h.pos hzero
  unfold Segmenter.segment
  simp only [hlast, h.kind_eq]

/-- **The segments tile the transfer.** -/
theorem tile (h : Cuts segmenter direction payload length mtu) (hi : i < packetCount length mtu) :
    (i + 1 < packetCount length mtu → (segmenter.segment i).payload.length = mtu) ∧
      (i + 1 = packetCount length mtu →
        (segmenter.segment i).offset + (segmenter.segment i).payload.length = length.toNat ∧
        (length ≠ 0 → (segmenter.segment i).payload ≠ [])) := by
  have htile := segmentBounds_tile h.pos (h.segmentBounds_eq_some hi) hi
  have hoffset := h.offset_segment i
  have hsucc : (i + 1) * mtu = i * mtu + mtu := Nat.succ_mul i mtu
  constructor
  · intro hmore
    rw [if_neg hmore.ne] at htile
    omega
  · intro hlast
    rw [if_pos hlast] at htile
    refine ⟨htile, fun hlength hnil ↦ ?_⟩
    have hlt := mul_lt_of_lt_packetCount h.pos (fun heq ↦ hlength (UInt32.toNat_inj.mp heq)) hi
    rw [hnil, List.length_nil] at htile
    omega

theorem flatten_payload (h : Cuts segmenter direction payload length mtu) :
    (((List.range (packetCount length mtu)).map segmenter.segment).map Segment.payload).flatten =
      payload := by
  have hpayload : Segment.payload ∘ segmenter.segment = fun i ↦
      slice payload (i * mtu) (min ((i + 1) * mtu) payload.length) := by
    funext i
    rw [Function.comp_apply, Segmenter.segment, h.payload_eq, h.maxPayload_eq]
  rw [List.map_map, hpayload, flatten_slices]
  refine List.take_of_length_le ?_
  rw [h.length_eq]
  by_cases hzero : length.toNat = 0
  · omega
  · exact le_packetCount_mul h.pos hzero

theorem map_opcode (h : Cuts segmenter direction payload length mtu) :
    ((List.range (packetCount length mtu)).map segmenter.segment).map Segment.opcode =
      (List.range (packetCount length mtu)).map fun i ↦
        opcodeFor direction.kind (decide (i = 0)) (decide (i + 1 = packetCount length mtu)) := by
  rw [List.map_map]
  refine List.map_congr_left fun i hi ↦ ?_
  exact h.opcode_segment (List.mem_range.mp hi)

end Cuts

/-- **The engine and the segmenter agree, and the packets tile the transfer.**  For every length,
MTU and direction the iterator yields a list of as many segments as the engine counts, with the
bounds and opcodes that the engine computes, and the engine has no bounds for a larger index.  The
segments stand back to back, all but the last one are full, the last one ends with the transfer and
is empty only if the transfer is, and the opcodes are those of one single packet or of a first one,
any number in the middle and a last one. -/
theorem segmentation_agrees (direction : TransferDirection) (payload : List UInt8)
    (length : UInt32) (mtu : ℕ) (hlength : payload.length = length.toNat) (hmtu : 0 < mtu) :
    ∃ (segmenter : Segmenter) (segments : List Segment),
      Segmenter.new direction.kind payload mtu = .ok segmenter ∧
      (∀ i, segmenter.nth i = segments[i]?) ∧
      segments.length = packetCount length mtu ∧
      segmenter.totalSegments = packetCount length mtu ∧
      (∀ i, segmentBounds length mtu i =
        segments[i]?.map fun segment ↦ (segment.offset, segment.payload.length)) ∧
      (∀ i segment, segments[i]? = some segment →
        segment.opcode = segmentedOpcode direction i (packetCount length mtu) ∧
        segment.offset = i * mtu ∧
        (i + 1 < packetCount length mtu → segment.payload.length = mtu) ∧
        (i + 1 = packetCount length mtu →
          segment.offset + segment.payload.length = length.toNat ∧
          (length ≠ 0 → segment.payload ≠ []))) ∧
      (segments.map Segment.payload).flatten = payload ∧
      (segments.map Segment.opcode = [opcodeFor direction.kind true true] ∨
        ∃ middle, segments.map Segment.opcode =
          opcodeFor direction.kind true false ::
            (List.replicate middle (opcodeFor direction.kind false false) ++
              [opcodeFor direction.kind false true])) := by
  have hnew : Segmenter.new direction.kind payload mtu =
      .ok ⟨direction.kind, payload, mtu, 0, false⟩ := if_neg hmtu.ne'
  have hfits : payload.length < 2 ^ 64 := by
    rw [hlength]
    exact length.toNat_lt.trans (by decide)
  have h : Cuts ⟨direction.kind, payload, mtu, 0, false⟩ direction payload length mtu :=
    ⟨Segmenter.fresh_new hnew hfits, rfl, rfl, rfl, hlength⟩
  refine ⟨_, (List.range (packetCount length mtu)).map (Segmenter.segment _), hnew, fun i ↦ ?_,
    by rw [List.length_map, List.length_range], h.totalSegments_eq, fun i ↦ ?_,
    fun i segment hsegment ↦ ?_, h.flatten_payload, ?_⟩
  · rw [h.fresh.nth_eq_getElem?, h.totalSegments_eq]
  · rw [List.getElem?_map]
    by_cases hi : i < packetCount length mtu
    · rw [h.segmentBounds_eq_some hi, List.getElem?_range hi]
      rfl
    · have hle := Nat.le_of_not_lt hi
      rw [h.segmentBounds_eq_none hle, List.getElem?_eq_none (by rwa [List.length_range])]
      rfl
  · rw [List.getElem?_map, Option.map_eq_some_iff] at hsegment
    obtain ⟨j, hj, rfl⟩ := hsegment
    obtain ⟨hi, rfl⟩ := List.getElem?_eq_some_iff.mp hj
    rw [List.length_range] at hi
    rw [List.getElem_range, segmentedOpcode_eq]
    exact ⟨h.opcode_segment hi, h.offset_segment i, h.tile hi⟩
  · rw [h.map_opcode]
    exact map_opcodeFor direction.kind (packetCount_pos length hmtu)

theorem segmentation_agrees_ten_bytes :
    ((List.replicate 10 (7 : UInt8)).length = (10 : UInt32).toNat ∧ 0 < 4) ∧
      ∃ (segmenter : Segmenter) (segments : List Segment),
        Segmenter.new .write (List.replicate 10 7) 4 = .ok segmenter ∧
        (∀ i, segmenter.nth i = segments[i]?) ∧ segments.length = 3 := by
  refine ⟨⟨by decide, by decide⟩, ?_⟩
  obtain ⟨segmenter, segments, hnew, hnth, hcount, -⟩ :=
    segmentation_agrees .write (List.replicate 10 7) 10 4 (by decide) (by decide)
  exact ⟨segmenter, segments, hnew, hnth, hcount.trans (by decide)⟩

end Rocev2.Rc
