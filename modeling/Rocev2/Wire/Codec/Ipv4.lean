import Rocev2.Lib.OnesComplement
import Rocev2.Wire.Codec.Header

/-!
# IPv4 and UDP headers as bytes

The codecs of `ipv4.rs`: the fixed-size IPv4 header with its checksum, and the UDP header.

The IPv4 decoder recomputes the checksum over the whole header.  A header that the encoder wrote
passes, since its checksum field holds the complement of the sum of the other words
(`checksum_bytes`).
-/

namespace Rocev2.Wire.Codec

open Lib Lib.Bytes Lib.OnesComplement

def ipv4HeaderLen : ℕ := 20

def udpHeaderLen : ℕ := 8

def ipProtocolUdp : UInt8 := 17

/-- UDP destination port of RoCEv2. -/
def roceV2UdpPort : UInt16 := 4791

/-- The Internet checksum.  The sum of a header of twenty bytes stays far below `2 ^ 32`. -/
def internetChecksum (bytes : List UInt8) : UInt16 := checksum bytes

/-! ## IPv4 -/

/-- An IPv4 header without options. -/
structure Ipv4Header where
  /-- DSCP and ECN octet. -/
  dscpEcn : UInt8
  /-- Total IPv4 packet length. -/
  totalLength : UInt16
  /-- Identification field. -/
  identification : UInt16
  /-- Do-not-fragment flag. -/
  dontFragment : Bool
  /-- More-fragments flag. -/
  moreFragments : Bool
  /-- Fragment offset in eight-byte units. -/
  fragmentOffset : UInt16
  /-- Time to live. -/
  ttl : UInt8
  /-- Protocol number. -/
  protocol : UInt8
  /-- Source address. -/
  source : Ipv4Addr
  /-- Destination address. -/
  destination : Ipv4Addr
deriving DecidableEq

namespace Ipv4Header

/-- A non-fragmented UDP header. -/
def udp (source destination : Ipv4Addr) (totalLength : UInt16) : Ipv4Header where
  dscpEcn := 0
  totalLength := totalLength
  identification := 0
  dontFragment := true
  moreFragments := false
  fragmentOffset := 0
  ttl := 64
  protocol := ipProtocolUdp
  source := source
  destination := destination

/-- Decode a fixed-size header and validate its checksum. -/
def decode (input : List UInt8) : Except WireError Ipv4Header :=
  match input with
  | b₀ :: b₁ :: b₂ :: b₃ :: b₄ :: b₅ :: b₆ :: b₇ :: b₈ :: b₉ :: _ :: _ :: b₁₂ :: b₁₃ :: b₁₄ ::
      b₁₅ :: b₁₆ :: b₁₇ :: b₁₈ :: b₁₉ :: _ =>
    if b₀ >>> 4 ≠ 4 then .error .invalidIpv4Header
    else if b₀ &&& 0x0f ≠ 5 then .error .unsupportedIpv4Options
    else if internetChecksum (input.take ipv4HeaderLen) ≠ 0 then .error .invalidIpv4Header
    else
      let flagsFragment := u16FromBe [b₆, b₇]
      .ok
        { dscpEcn := b₁
          totalLength := u16FromBe [b₂, b₃]
          identification := u16FromBe [b₄, b₅]
          dontFragment := flagsFragment &&& 0x4000 != 0
          moreFragments := flagsFragment &&& 0x2000 != 0
          fragmentOffset := flagsFragment &&& 0x1fff
          ttl := b₈
          protocol := b₉
          source := .octets b₁₂ b₁₃ b₁₄ b₁₅
          destination := .octets b₁₆ b₁₇ b₁₈ b₁₉ }
  | _ => .error (.bufferTooShort ipv4HeaderLen input.length)

variable (header : Ipv4Header)

def flagsFragment : UInt16 :=
  (if header.dontFragment then 0x4000 else 0) ||| (if header.moreFragments then 0x2000 else 0) |||
    header.fragmentOffset

def bytesWith (checksum : UInt16) : List UInt8 :=
  [0x45, header.dscpEcn] ++ toBe 2 header.totalLength.toNat ++
    toBe 2 header.identification.toNat ++ toBe 2 header.flagsFragment.toNat ++
    [header.ttl, header.protocol] ++ toBe 2 checksum.toNat ++ header.source.toList ++
    header.destination.toList

def bytes : List UInt8 :=
  header.bytesWith (internetChecksum (header.bytesWith 0))

/-- Encode a fixed-size header and calculate its checksum. -/
def encode (output : List UInt8) : Except WireError (List UInt8) :=
  if output.length < ipv4HeaderLen then .error (.bufferTooShort ipv4HeaderLen output.length)
  else if header.fragmentOffset > 0x1fff then
    .error (.valueOutOfRange "fragment_offset" header.fragmentOffset.toNat)
  else .ok (splice output 0 header.bytes)

def layout : Layout Ipv4Header where
  size := ipv4HeaderLen
  Valid := fun header ↦ header.fragmentOffset ≤ 0x1fff
  bytes := bytes
  length_bytes := fun header ↦ by simp [bytes, bytesWith, ipv4HeaderLen]

theorem length_bytes : header.bytes.length = ipv4HeaderLen :=
  layout.length_bytes header

theorem writes_encode : layout.Writes encode := by
  intro header output hroom written
  have hlength : ¬ output.length < ipv4HeaderLen := Nat.not_lt.mpr hroom
  simp only [encode, guard_eq_ok, splice_zero, Except.ok.injEq]
  exact ⟨fun h ↦ ⟨UInt16.not_lt.mp h.2.1, h.2.2.symm⟩,
    fun h ↦ ⟨hlength, UInt16.not_lt.mpr h.1, h.2.symm⟩⟩

theorem wordSum_bytesWith (checksum : UInt16) :
    wordSum (header.bytesWith checksum) =
      (u16FromBe [0x45, header.dscpEcn]).toNat + header.totalLength.toNat +
        header.identification.toNat + header.flagsFragment.toNat +
        (u16FromBe [header.ttl, header.protocol]).toNat + checksum.toNat +
        wordSum (header.source.toList ++ header.destination.toList) := by
  simp only [bytesWith, List.append_assoc, wordSum_pair, wordSum_toBe]
  omega

theorem wordSum_bytesWith_eq (checksum : UInt16) :
    wordSum (header.bytesWith checksum) = wordSum (header.bytesWith 0) + checksum.toNat := by
  rw [wordSum_bytesWith, wordSum_bytesWith, UInt16.toNat_zero]
  omega

theorem wordSum_bytesWith_pos : 0 < wordSum (header.bytesWith 0) := by
  have hversion : 0 < (u16FromBe [0x45, header.dscpEcn]).toNat := by
    rw [u16FromBe, UInt16.toNat_ofNat_of_lt' (ofBe_lt_of_length (n := 2) rfl)]
    simp [ofBe]
  rw [wordSum_bytesWith]
  omega

/-- **A header that the encoder wrote passes the checksum.** -/
theorem checksum_bytes : internetChecksum header.bytes = 0 := by
  apply checksum_eq_zero
  rw [bytes, wordSum_bytesWith_eq, internetChecksum, toNat_checksum]
  exact foldCarries_add (wordSum_bytesWith_pos header)

theorem exists_eq_address (address : Ipv4Addr) : ∃ a b c d, address = .octets a b c d := by
  obtain ⟨⟨octets⟩, hsize⟩ := address
  match octets, hsize with
  | [a, b, c, d], _ => exact ⟨a, b, c, d, rfl⟩

/-- **A non-fragmented header is decoded to itself.** -/
theorem decode_bytes {header : Ipv4Header} (hmore : header.moreFragments = false)
    (hoffset : header.fragmentOffset = 0) : decode header.bytes = .ok header := by
  have htake : header.bytes.take ipv4HeaderLen = header.bytes :=
    List.take_of_length_le (layout.length_bytes header).le
  have hchecksum : ¬ internetChecksum (header.bytes.take ipv4HeaderLen) ≠ 0 := by
    rw [htake, not_not, checksum_bytes]
  have hflags : header.flagsFragment = if header.dontFragment then 0x4000 else 0 := by
    rw [flagsFragment, hmore, hoffset]
    cases header.dontFragment <;> rfl
  obtain ⟨s₀, s₁, s₂, s₃, hsource⟩ := exists_eq_address header.source
  obtain ⟨d₀, d₁, d₂, d₃, hdestination⟩ := exists_eq_address header.destination
  have hbytes : header.bytes =
      [0x45, header.dscpEcn] ++ toBe 2 header.totalLength.toNat ++
        toBe 2 header.identification.toNat ++ toBe 2 header.flagsFragment.toNat ++
        [header.ttl, header.protocol] ++
        toBe 2 (internetChecksum (header.bytesWith 0)).toNat ++ [s₀, s₁, s₂, s₃] ++
        [d₀, d₁, d₂, d₃] := by
    rw [bytes, bytesWith, hsource, hdestination]
    rfl
  have hdecode : decode header.bytes =
      if internetChecksum (header.bytes.take ipv4HeaderLen) ≠ 0 then .error .invalidIpv4Header
      else
        .ok ⟨header.dscpEcn, u16FromBe (toBe 2 header.totalLength.toNat),
          u16FromBe (toBe 2 header.identification.toNat),
          u16FromBe (toBe 2 header.flagsFragment.toNat) &&& 0x4000 != 0,
          u16FromBe (toBe 2 header.flagsFragment.toNat) &&& 0x2000 != 0,
          u16FromBe (toBe 2 header.flagsFragment.toNat) &&& 0x1fff, header.ttl, header.protocol,
          .octets s₀ s₁ s₂ s₃, .octets d₀ d₁ d₂ d₃⟩ := by
    rw [hbytes]
    rfl
  have hdont : (header.flagsFragment &&& 0x4000 != 0) = header.dontFragment := by
    rw [hflags]
    cases header.dontFragment <;> rfl
  have hmore' : (header.flagsFragment &&& 0x2000 != 0) = header.moreFragments := by
    rw [hflags, hmore]
    cases header.dontFragment <;> rfl
  have hoffset' : header.flagsFragment &&& 0x1fff = header.fragmentOffset := by
    rw [hflags, hoffset]
    cases header.dontFragment <;> rfl
  rw [hdecode, if_neg hchecksum, ← hsource, ← hdestination]
  simp only [u16FromBe_toBe, hdont, hmore', hoffset']

end Ipv4Header

/-! ## UDP -/

/-- UDP header. -/
structure UdpHeader where
  /-- Source port. -/
  sourcePort : UInt16
  /-- Destination port. -/
  destinationPort : UInt16
  /-- Datagram length, including this header. -/
  length : UInt16
  /-- Checksum. -/
  checksum : UInt16
deriving DecidableEq, Repr

namespace UdpHeader

def decode (input : List UInt8) : Except WireError UdpHeader :=
  match input with
  | b₀ :: b₁ :: b₂ :: b₃ :: b₄ :: b₅ :: b₆ :: b₇ :: _ =>
    .ok ⟨u16FromBe [b₀, b₁], u16FromBe [b₂, b₃], u16FromBe [b₄, b₅], u16FromBe [b₆, b₇]⟩
  | _ => .error (.bufferTooShort udpHeaderLen input.length)

variable (header : UdpHeader)

def bytes : List UInt8 :=
  toBe 2 header.sourcePort.toNat ++ toBe 2 header.destinationPort.toNat ++
    toBe 2 header.length.toNat ++ toBe 2 header.checksum.toNat

def encode (output : List UInt8) : Except WireError (List UInt8) :=
  if output.length < udpHeaderLen then .error (.bufferTooShort udpHeaderLen output.length)
  else .ok (splice output 0 header.bytes)

def layout : Layout UdpHeader where
  size := udpHeaderLen
  Valid := fun _ ↦ True
  bytes := bytes
  length_bytes := fun header ↦ by simp [bytes, udpHeaderLen]

theorem length_bytes : header.bytes.length = udpHeaderLen :=
  layout.length_bytes header

theorem writes_encode : layout.Writes encode := by
  intro header output hroom written
  have hlength : ¬ output.length < udpHeaderLen := Nat.not_lt.mpr hroom
  simp only [encode, guard_eq_ok, splice_zero, Except.ok.injEq]
  exact ⟨fun h ↦ ⟨trivial, h.2.symm⟩, fun h ↦ ⟨hlength, h.2.symm⟩⟩

theorem decode_bytes : decode header.bytes = .ok header := by
  have hdecode : decode header.bytes =
      .ok ⟨u16FromBe (toBe 2 header.sourcePort.toNat),
        u16FromBe (toBe 2 header.destinationPort.toNat), u16FromBe (toBe 2 header.length.toNat),
        u16FromBe (toBe 2 header.checksum.toNat)⟩ := rfl
  simp only [hdecode, u16FromBe_toBe]

end UdpHeader

end Rocev2.Wire.Codec
