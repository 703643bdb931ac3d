import Mathlib.Data.List.GetD
import Rocev2.Wire.Codec.Datagram

/-!
# Ethernet frames

`rocev2-io/src/ethernet.rs`: the IPv4 packet in a frame that a backend below IPv4 has received.  The
padding behind the packet is cut off, so that the decoder of the transport sees the packet alone.

A frame is read by its octets (`octet`) and its words in network order (`half`); the fields of the
headers that the decoder accepts are such words (`Ipv4Fields.of_decode`, `UdpFields.of_decode`).
-/

namespace Rocev2.Io

open Lib Lib.Bytes Wire

/-! ## The packet in a frame -/

/-- Ethernet II header length without VLAN tags. -/
def ethernetHeaderLen : ℕ := 14

def ethertypeIpv4 : UInt16 := 0x0800

def ethertypeVlan : UInt16 := 0x8100

def ethertypeQinq : UInt16 := 0x88a8

/-- Why a frame has no packet. -/
inductive EthernetFrameError where
  | truncated
  | vlanUnsupported
  | nonIpv4
  | invalidIpv4
deriving DecidableEq, Repr

variable (frame : List UInt8)

/-- The IPv4 packet of a frame. -/
def ipv4Payload : Except EthernetFrameError (List UInt8) :=
  if frame.length < ethernetHeaderLen + Codec.ipv4HeaderLen then .error .truncated
  else
    let ethertype := u16FromBe [frame.getD 12 0, frame.getD 13 0]
    if ethertype = ethertypeVlan ∨ ethertype = ethertypeQinq then .error .vlanUnsupported
    else if ethertype ≠ ethertypeIpv4 then .error .nonIpv4
    else
      let ipv4 := frame.drop ethernetHeaderLen
      if ipv4.getD 0 0 >>> 4 ≠ 4 then .error .invalidIpv4
      else
        let headerLength := (ipv4.getD 0 0 &&& 0x0f).toNat * 4
        if headerLength < Codec.ipv4HeaderLen ∨ ipv4.length < headerLength then
          .error .invalidIpv4
        else
          let totalLength := (u16FromBe [ipv4.getD 2 0, ipv4.getD 3 0]).toNat
          if totalLength < headerLength ∨ ipv4.length < totalLength then .error .invalidIpv4
          else .ok (ipv4.take totalLength)

/-! ## Octets and words -/

def octet (i : ℕ) : ℕ := (frame.getD i 0).toNat

/-- Two octets of a frame, in network order. -/
def half (i : ℕ) : ℕ := 256 * octet frame i + octet frame (i + 1)

section Octets

variable {frame : List UInt8} {i : ℕ}

theorem octet_lt (frame : List UInt8) (i : ℕ) : octet frame i < 256 := (frame.getD i 0).toNat_lt

theorem half_lt (frame : List UInt8) (i : ℕ) : half frame i < 2 ^ 16 := by
  have h := octet_lt frame i
  have h' := octet_lt frame (i + 1)
  unfold half
  omega

theorem toNat_u16FromBe_pair (a b : UInt8) :
    (u16FromBe [a, b]).toNat = 256 * a.toNat + b.toNat := by
  rw [u16FromBe, UInt16.toNat_ofNat_of_lt' (ofBe_lt_of_length (n := 2) rfl),
    show [a, b] = [a] ++ [b] from rfl, ofBe_concat]
  simp [ofBe, Nat.mul_comm]

theorem octet_drop (frame : List UInt8) (n i : ℕ) :
    octet (frame.drop n) i = octet frame (n + i) := by
  simp [octet, List.getD_eq_getElem?_getD]

theorem octet_take {n : ℕ} (h : i < n) : octet (frame.take n) i = octet frame i := by
  simp [octet, List.getD_eq_getElem?_getD, h]

theorem octet_append_left {rest : List UInt8} (h : i < frame.length) :
    octet (frame ++ rest) i = octet frame i := by
  rw [octet, octet, List.getD_append _ _ _ _ h]

theorem octet_append_right {rest : List UInt8} {n : ℕ} (h : frame.length = n) (i : ℕ) :
    octet (frame ++ rest) (n + i) = octet rest i := by
  rw [octet, octet, List.getD_append_right _ _ _ _ (by omega), h, Nat.add_sub_cancel_left]

end Octets

/-! ## The packet and its headers -/

/-- **The packet stands behind the Ethernet header, and is cut to its total length.** -/
theorem ipv4Payload_eq_ok {frame packet : List UInt8} (h : ipv4Payload frame = .ok packet) :
    half frame 12 = 0x0800 ∧ half frame 16 ≤ frame.length - 14 ∧
      packet = (frame.drop 14).take (half frame 16) := by
  have htotal : (u16FromBe [(frame.drop 14).getD 2 0, (frame.drop 14).getD 3 0]).toNat =
      half frame 16 := by
    rw [toNat_u16FromBe_pair]
    change 256 * octet (frame.drop 14) 2 + octet (frame.drop 14) 3 = _
    rw [octet_drop, octet_drop]
    rfl
  simp only [ipv4Payload, guard_eq_ok, ethernetHeaderLen, htotal, List.length_drop, not_or,
    not_not, Except.ok.injEq] at h
  obtain ⟨-, -, htype, -, -, ⟨-, hcomplete⟩, rfl⟩ := h
  refine ⟨?_, Nat.le_of_not_lt hcomplete, rfl⟩
  exact (toNat_u16FromBe_pair _ _).symm.trans (congrArg UInt16.toNat htype)

/-- The fields of an IPv4 header that is accepted. -/
structure Ipv4Fields (bytes : List UInt8) (header : Codec.Ipv4Header) : Prop where
  version : octet bytes 0 = 0x45
  totalLength : half bytes 2 = header.totalLength.toNat
  moreFragments : header.moreFragments = false → half bytes 6 / 2 ^ 13 % 2 = 0
  fragmentOffset : header.fragmentOffset = 0 → half bytes 6 % 2 ^ 13 = 0
  protocol : octet bytes 9 = header.protocol.toNat

theorem Ipv4Fields.of_decode {bytes : List UInt8} {header : Codec.Ipv4Header}
    (h : Codec.Ipv4Header.decode bytes = .ok header) : Ipv4Fields bytes header := by
  have hversion := Codec.Ipv4Header.getD_of_decode h
  unfold Codec.Ipv4Header.decode at h
  split at h
  · rename_i b₀ b₁ b₂ b₃ b₄ b₅ b₆ b₇ b₈ b₉ _ _ _ _ _ _ _ _ _ _ _
    simp only [guard_eq_ok, Except.ok.injEq] at h
    obtain ⟨-, -, -, rfl⟩ := h
    have hflags := toNat_u16FromBe_pair b₆ b₇
    constructor
    · exact congrArg UInt8.toNat hversion
    · exact (toNat_u16FromBe_pair b₂ b₃).symm
    · intro hmore
      have hzero : u16FromBe [b₆, b₇] &&& 0x2000 = 0 := by simpa using hmore
      have hbit := congrArg (·.toNat / 2 ^ 13) hzero
      rw [UInt16.toNat_and, hflags, Nat.and_div_two_pow,
        show (0x2000 : UInt16).toNat / 2 ^ 13 = 2 ^ 1 - 1 from rfl,
        Nat.and_two_pow_sub_one_eq_mod] at hbit
      exact hbit
    · intro hoffset
      have hzero := congrArg UInt16.toNat hoffset
      dsimp only at hzero
      rw [UInt16.toNat_and, show (0x1fff : UInt16).toNat = 2 ^ 13 - 1 from rfl,
        Nat.and_two_pow_sub_one_eq_mod, hflags] at hzero
      exact hzero
    · rfl
  · cases h

/-- The fields of a UDP header. -/
structure UdpFields (bytes : List UInt8) (header : Codec.UdpHeader) : Prop where
  destinationPort : half bytes 2 = header.destinationPort.toNat
  length : half bytes 4 = header.length.toNat

theorem UdpFields.of_decode {bytes : List UInt8} {header : Codec.UdpHeader}
    (h : Codec.UdpHeader.decode bytes = .ok header) : UdpFields bytes header := by
  unfold Codec.UdpHeader.decode at h
  split at h
  · rename_i b₀ b₁ b₂ b₃ b₄ b₅ b₆ b₇ _
    obtain rfl := Except.ok.inj h
    exact ⟨(toNat_u16FromBe_pair b₂ b₃).symm, (toNat_u16FromBe_pair b₄ b₅).symm⟩
  · cases h

end Rocev2.Io
