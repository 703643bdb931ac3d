import Rocev2.Core.Qp
import Rocev2.Wire.Packet

/-!
# Segmentation

The arithmetic by which the engine (`rocev2/src/rc.rs`) cuts a message of up to `2 ^ 32 - 1`
bytes into packets of at most one path MTU: the number of packets, the bounds of each segment and
its opcode.  The bounds of all segments tile the message.
-/

namespace Rocev2.Rc

open Rocev2.Wire

variable {mtu offset index : ℕ} {length : UInt32} {address : UInt64} {size : ℕ}

/-- Add an offset to an address, failing when the sum leaves the 64-bit address space. -/
def checkedAdd (address : UInt64) (offset : ℕ) : Option UInt64 :=
  if address.toNat + offset < 2 ^ 64 then some (address + UInt64.ofNat offset) else none

/-- The number of packets of a message; an empty message takes one. -/
def packetCount (length : UInt32) (mtu : ℕ) : ℕ :=
  if length = 0 then 1 else (length.toNat + mtu - 1) / mtu

/-- The largest complete packet that a path MTU can require. -/
def maximumPacketForMtu (mtu : ℕ) : ℕ := 20 + 8 + 12 + max 16 4 + mtu + 3 + 4

def segmentBounds (length : UInt32) (mtu index : ℕ) : Option (ℕ × ℕ) :=
  if length.toNat = 0 then
    if index = 0 then some (0, 0) else none
  else if length.toNat ≤ index * mtu then none
  else some (index * mtu, min (length.toNat - index * mtu) mtu)

/-- What a segmented transfer carries. -/
inductive TransferDirection where
  | send
  | write
  | readResponse
deriving DecidableEq, Repr

/-- The opcode of segment `index` out of `count`. -/
def segmentedOpcode (direction : TransferDirection) (index count : ℕ) : Opcode :=
  match direction, decide (index = 0), decide (index + 1 = count) with
  | .send, true, true => .sendOnly
  | .send, true, false => .sendFirst
  | .send, false, true => .sendLast
  | .send, false, false => .sendMiddle
  | .write, true, true => .rdmaWriteOnly
  | .write, true, false => .rdmaWriteFirst
  | .write, false, true => .rdmaWriteLast
  | .write, false, false => .rdmaWriteMiddle
  | .readResponse, true, true => .rdmaReadResponseOnly
  | .readResponse, true, false => .rdmaReadResponseFirst
  | .readResponse, false, true => .rdmaReadResponseLast
  | .readResponse, false, false => .rdmaReadResponseMiddle

/-! ## Opcodes -/

section Opcodes

variable (direction : TransferDirection) (index count : ℕ)

theorem hasReth_segmentedOpcode : (segmentedOpcode direction index count).hasReth =
    (decide (direction = .write) && decide (index = 0)) := by
  unfold segmentedOpcode
  generalize decide (index = 0) = first
  generalize decide (index + 1 = count) = last
  cases direction <;> cases first <;> cases last <;> rfl

theorem hasAeth_segmentedOpcode (h : direction ≠ .readResponse) :
    (segmentedOpcode direction index count).hasAeth = false := by
  unfold segmentedOpcode
  generalize decide (index = 0) = first
  generalize decide (index + 1 = count) = last
  cases direction <;> cases first <;> cases last <;> first | rfl | exact absurd rfl h

theorem payload_segmentedOpcode : (segmentedOpcode direction index count).allowsPayload = true ∧
    (segmentedOpcode direction index count).hasImmediate = false := by
  unfold segmentedOpcode
  generalize decide (index = 0) = first
  generalize decide (index + 1 = count) = last
  cases direction <;> cases first <;> cases last <;> exact ⟨rfl, rfl⟩

end Opcodes

theorem encodedLength_le {packet : WirePacket} (h : packet.payload.length ≤ mtu) :
    packet.encodedLength ≤ maximumPacketForMtu mtu := by
  have hheaders : (if packet.bth.opcode.hasReth then 16 else 0) +
      (if packet.bth.opcode.hasAeth then 4 else 0) ≤ 16 := by
    cases packet.bth.opcode <;> decide
  unfold WirePacket.encodedLength maximumPacketForMtu
  omega

/-! ## Checked addresses -/

theorem toNat_of_checkedAdd {sum : UInt64} (h : checkedAdd address offset = some sum) :
    sum.toNat = address.toNat + offset := by
  unfold checkedAdd at h
  split at h
  · cases h
    rw [UInt64.toNat_add, UInt64.toNat_ofNat']
    omega
  · cases h

theorem checkedAdd_isSome :
    (checkedAdd address offset).isSome ↔ address.toNat + offset < 2 ^ 64 := by
  unfold checkedAdd
  split <;> simp_all

theorem exists_checkedAdd (h : address.toNat + offset < 2 ^ 64) :
    ∃ sum, checkedAdd address offset = some sum ∧ sum.toNat = address.toNat + offset := by
  obtain ⟨sum, hsum⟩ := Option.isSome_iff_exists.mp (checkedAdd_isSome.mpr h)
  exact ⟨sum, hsum, toNat_of_checkedAdd hsum⟩

/-! ## Packet counts -/

theorem packetCount_pos (length : UInt32) (hmtu : 0 < mtu) :
    0 < packetCount length mtu := by
  unfold packetCount
  split
  · exact Nat.one_pos
  · rename_i h
    have hlen : 0 < length.toNat := by
      rcases Nat.eq_zero_or_pos length.toNat with h0 | hpos
      · exact absurd (UInt32.toNat_inj.mp h0) h
      · exact hpos
    exact Nat.div_pos (by omega) hmtu

theorem mul_lt_of_lt_packetCount (hmtu : 0 < mtu) (hlen : length.toNat ≠ 0)
    (h : index < packetCount length mtu) :
    index * mtu < length.toNat := by
  have hne : length ≠ 0 := fun h0 ↦ hlen (by rw [h0]; rfl)
  rw [packetCount, if_neg hne, Nat.lt_iff_add_one_le, Nat.le_div_iff_mul_le hmtu,
    Nat.add_mul] at h
  omega

theorem le_packetCount_mul (hmtu : 0 < mtu) (hlen : length.toNat ≠ 0) :
    length.toNat ≤ packetCount length mtu * mtu := by
  have hne : length ≠ 0 := fun h0 ↦ hlen (by rw [h0]; rfl)
  rw [packetCount, if_neg hne]
  have hdiv := Nat.div_add_mod (length.toNat + mtu - 1) mtu
  have hmod := Nat.mod_lt (length.toNat + mtu - 1) hmtu
  rw [Nat.mul_comm] at hdiv
  omega

theorem exists_segmentBounds (hmtu : 0 < mtu) (h : index < packetCount length mtu) :
    ∃ size, segmentBounds length mtu index = some (index * mtu, size) ∧
      index * mtu + size ≤ length.toNat ∧ size ≤ mtu := by
  unfold segmentBounds
  by_cases hlen : length.toNat = 0
  · have hzero : length = 0 := UInt32.toNat_inj.mp hlen
    rw [packetCount, if_pos hzero] at h
    obtain rfl : index = 0 := by omega
    refine ⟨0, ?_, by omega, by omega⟩
    rw [if_pos hlen, if_pos rfl, Nat.zero_mul]
  · have hlt := mul_lt_of_lt_packetCount hmtu hlen h
    refine ⟨min (length.toNat - index * mtu) mtu, ?_, by omega, by omega⟩
    rw [if_neg hlen, if_neg (by omega)]

theorem segmentBounds_le (h : segmentBounds length mtu index = some (offset, size)) :
    offset + size ≤ length.toNat ∧ size ≤ mtu := by
  unfold segmentBounds at h
  split at h
  · split at h
    · cases h
      omega
    · cases h
  · split at h
    · cases h
    · cases h
      omega

theorem offset_of_segmentBounds (h : segmentBounds length mtu index = some (offset, size)) :
    offset = index * mtu := by
  unfold segmentBounds at h
  split at h
  · split at h
    · rename_i hzero
      cases h
      rw [hzero, Nat.zero_mul]
    · cases h
  · split at h
    · cases h
    · cases h
      rfl

/-- **The segments tile the message**: a segment ends where the next one starts, and the last one
ends with the message. -/
theorem segmentBounds_tile (hmtu : 0 < mtu)
    (h : segmentBounds length mtu index = some (offset, size))
    (hindex : index < packetCount length mtu) :
    offset + size = if index + 1 = packetCount length mtu then length.toNat
      else (index + 1) * mtu := by
  have hoffset := offset_of_segmentBounds h
  unfold segmentBounds at h
  split at h
  · rename_i hzero
    have hlength : length = 0 := UInt32.toNat_inj.mp hzero
    have hone : packetCount length mtu = 1 := by rw [packetCount, if_pos hlength]
    split at h
    · rename_i hfirst
      cases h
      rw [hone, hfirst, if_pos rfl, hzero]
    · cases h
  · rename_i hlength
    split at h
    · cases h
    cases h
    have hlast := le_packetCount_mul hmtu hlength
    split
    · rename_i hend
      rw [← hend, Nat.succ_mul] at hlast
      omega
    · have hnext := mul_lt_of_lt_packetCount hmtu hlength
        (Nat.lt_of_le_of_ne hindex ‹_› : index + 1 < packetCount length mtu)
      rw [Nat.succ_mul] at hnext ⊢
      omega

end Rocev2.Rc
