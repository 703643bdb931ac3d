import Rocev2.Wire.Codec.Encode
import Rocev2.Wire.Codec.Icrc
import Rocev2.Wire.Codec.Ipv4

/-!
# Complete packets

`packet.rs` of the endpoint crate: an IPv4 packet with its UDP header and the transport packet up
to the ICRC, encoded into a caller's buffer and decoded with every length, port and checksum
validated.

The decoder accepts the bytes of a non-fragmented RoCEv2 header pair in front of a well-formed
transport packet whose ICRC matches (`decode_bytes`), and the encoder writes such bytes
(`encodeIpv4Packet_eq_ok`), so that every encoded packet is decoded to what was encoded.
-/

namespace Rocev2.Wire.Codec

open Lib Lib.Bytes

variable {input : List UInt8}

/-- The errors of the public API that the packet codec returns. -/
inductive ApiError where
  | wire (error : WireError)
  | bufferTooShort (needed actual : ℕ)
  | packetTooLarge (length maximum : ℕ)
  | invalidIpv4Protocol (protocol : UInt8)
  | fragmentedIpv4
  | invalidRoceDestinationPort (port : UInt16)
  | invalidUdpLength (declared actual : ℕ)
  | arithmeticOverflow
deriving DecidableEq, Repr

def ofWire {α : Type} (result : Except WireError α) : Except ApiError α :=
  result.mapError ApiError.wire

theorem ofWire_eq_ok {α : Type} {result : Except WireError α} {value : α} :
    ofWire result = .ok value ↔ result = .ok value := by
  cases result with
  | error error => exact ⟨fun h ↦ (by cases h), fun h ↦ (by cases h)⟩
  | ok a =>
    change Except.ok a = Except.ok value ↔ Except.ok a = Except.ok value
    rw [Except.ok.injEq, Except.ok.injEq]

/-- Minimum complete IPv4 packet: base header and ICRC. -/
def minRoceIpv4Packet : ℕ := ipv4HeaderLen + udpHeaderLen + 12 + 4

/-! ## ICRC of a transport packet -/

variable (packet : PacketRef)

def PacketRef.verifyIcrc (fullTransport ipv4Header udpHeader : List UInt8) :
    Except WireError Unit :=
  if fullTransport.length < icrcLen then
    .error (.bufferTooShort icrcLen fullTransport.length)
  else do
    let computed ← Icrc.computeIpv4 ipv4Header udpHeader
      (fullTransport.take (fullTransport.length - icrcLen))
    if computed ≠ packet.icrc then .error (.icrcMismatch packet.icrc computed) else .ok ()

def PacketSpec.encodeWithIcrc (spec : PacketSpec) (ipv4Header udpHeader output : List UInt8) :
    Except WireError (ℕ × List UInt8) := do
  let (icrcOffset, output) ← spec.encodeWithoutIcrc output
  let icrc ← Icrc.computeIpv4 ipv4Header udpHeader (output.take icrcOffset)
  .ok (icrcOffset + icrcLen, splice output icrcOffset (toLe 4 icrc.toNat))

/-! ## Decoder and encoder -/

/-- A validated complete packet. -/
structure DecodedPacket where
  /-- Validated fixed-size IPv4 header. -/
  ipv4 : Ipv4Header
  /-- UDP header. -/
  udp : UdpHeader
  /-- Transport headers and operation payload. -/
  transport : PacketRef
deriving DecidableEq

/-- Decode and validate a complete IPv4 packet. -/
def decodeIpv4Packet (input : List UInt8) : Except ApiError DecodedPacket :=
  if input.length < minRoceIpv4Packet then
    .error (.bufferTooShort minRoceIpv4Packet input.length)
  else do
    let ipv4Bytes := slice input 0 ipv4HeaderLen
    let ipv4 ← ofWire (Ipv4Header.decode ipv4Bytes)
    if ipv4.protocol ≠ ipProtocolUdp then .error (.invalidIpv4Protocol ipv4.protocol)
    else if ipv4.moreFragments = true ∨ ipv4.fragmentOffset ≠ 0 then .error .fragmentedIpv4
    else
      let ipv4Length := ipv4.totalLength.toNat
      if ipv4Length ≠ input.length then .error (.wire (.lengthMismatch ipv4Length input.length))
      else
        let udpStart := ipv4HeaderLen
        let transportStart := udpStart + udpHeaderLen
        let udpBytes := slice input udpStart transportStart
        let udp ← ofWire (UdpHeader.decode udpBytes)
        if udp.destinationPort ≠ roceV2UdpPort then
          .error (.invalidRoceDestinationPort udp.destinationPort)
        else if ipv4Length < ipv4HeaderLen then .error .arithmeticOverflow
        else
          let actualUdpLength := ipv4Length - ipv4HeaderLen
          let declaredUdpLength := udp.length.toNat
          if declaredUdpLength < udpHeaderLen ∨ declaredUdpLength ≠ actualUdpLength then
            .error (.invalidUdpLength declaredUdpLength actualUdpLength)
          else
            let transportBytes := slice input transportStart ipv4Length
            let transport ← ofWire (PacketRef.parse transportBytes .strict)
            ofWire (transport.verifyIcrc transportBytes ipv4Bytes udpBytes)
            .ok ⟨ipv4, udp, transport⟩

def ipv4HeaderOf (path : Ipv4Path) (totalLength : UInt16) : Ipv4Header :=
  { Ipv4Header.udp path.source path.destination totalLength with
    ttl := path.ttl
    dscpEcn := path.dscpEcn }

def udpHeaderOf (path : Ipv4Path) (length : UInt16) : UdpHeader :=
  ⟨path.sourcePort, roceV2UdpPort, length, 0⟩

/-- Encode a complete packet into caller-owned storage; the result is its length and the buffer. -/
def encodeIpv4Packet (path : Ipv4Path) (transport : PacketSpec) (output : List UInt8) :
    Except ApiError (ℕ × List UInt8) := do
  let transportLength ← ofWire transport.encodedLen
  let udpLength := udpHeaderLen + transportLength
  let totalLength := ipv4HeaderLen + udpLength
  if 2 ^ 64 ≤ totalLength then .error .arithmeticOverflow
  else if 2 ^ 16 ≤ udpLength then .error (.packetTooLarge totalLength 65535)
  else if 2 ^ 16 ≤ totalLength then .error (.packetTooLarge totalLength 65535)
  else if output.length < totalLength then .error (.bufferTooShort totalLength output.length)
  else
    let ipv4 := ipv4HeaderOf path (UInt16.ofNat totalLength)
    let udp := udpHeaderOf path (UInt16.ofNat udpLength)
    let ipv4Bytes ← ofWire (ipv4.encode (List.replicate ipv4HeaderLen 0))
    let udpBytes ← ofWire (udp.encode (List.replicate udpHeaderLen 0))
    let output := splice output 0 ipv4Bytes
    let output := splice output ipv4HeaderLen udpBytes
    let start := ipv4HeaderLen + udpHeaderLen
    let (_, window) ← ofWire (transport.encodeWithIcrc ipv4Bytes udpBytes
      (slice output start totalLength))
    .ok (totalLength, splice output start window)

/-! ## What the decoder accepts -/

def PacketRef.body : List UInt8 :=
  headerBytes packet.bth packet.reth packet.aeth packet.immediateData ++ packet.payload ++
    packet.padding

theorem PacketRef.bytes_eq :
    packet.bytes = packet.body ++ toLe 4 packet.icrc.toNat :=
  rfl

theorem PacketRef.bthLen_le_body : bthLen ≤ packet.body.length := by
  have hbth : packet.bth.bytes.length = bthLen := Bth.layout.length_bytes _
  simp only [body, headerBytes, List.length_append, hbth]
  omega

/-- The ICRC of a packet: the CRC of the masked packet. -/
def icrcOf (ipv4Bytes udpBytes body : List UInt8) : UInt32 :=
  Icrc.finalize (Icrc.run Icrc.icrcSeed
    (Icrc.mask Icrc.variantOffsets (ipv4Bytes ++ udpBytes ++ body)))

def IcrcMatches (input : List UInt8) : Prop :=
  Icrc.run Icrc.icrcSeed (Icrc.mask Icrc.variantOffsets input) = Icrc.residue

theorem icrcMatches_iff {packet : PacketRef} {ipv4Bytes udpBytes : List UInt8}
    (hipv4 : ipv4Bytes.length = 20) (hudp : udpBytes.length = 8) :
    IcrcMatches (ipv4Bytes ++ udpBytes ++ packet.bytes) ↔
      icrcOf ipv4Bytes udpBytes packet.body = packet.icrc := by
  have hbody := packet.bthLen_le_body
  have hoffsets : ∀ offset ∈ Icrc.variantOffsets,
      offset < (ipv4Bytes ++ udpBytes ++ packet.body).length := by
    have hbth : bthLen = 12 := rfl
    simp only [Icrc.variantOffsets, List.length_append, List.forall_mem_cons, hipv4, hudp]
    refine ⟨?_, ?_, ?_, ?_, ?_, ?_, ?_, nofun⟩ <;> omega
  rw [icrcOf, Icrc.finalize_eq_iff, IcrcMatches, packet.bytes_eq, ← List.append_assoc,
    Icrc.mask_append _ hoffsets, Icrc.run, Icrc.run, Icrc.run, Crc.run_append]

/-- The version byte of a header that is accepted. -/
theorem Ipv4Header.getD_of_decode {header : Ipv4Header} (h : Ipv4Header.decode input = .ok header) :
    input.getD 0 0 = 0x45 := by
  unfold Ipv4Header.decode at h
  split at h
  · rename_i b₀ _ _ _ _ _ _ _ _ _ _ _ _ _ _ _ _ _ _ _ _
    obtain ⟨hversion, hlength, -⟩ : ¬ b₀ >>> 4 ≠ 4 ∧ ¬ b₀ &&& 0x0f ≠ 5 ∧ _ := by
      simpa only [guard_eq_ok] using h
    rw [not_not] at hversion hlength
    have hhigh : b₀.toNat / 16 = 4 := by
      have := congrArg UInt8.toNat hversion
      rwa [UInt8.toNat_shiftRight, Nat.shiftRight_eq_div_pow] at this
    have hlow : b₀.toNat % 16 = 5 := by
      have := congrArg UInt8.toNat hlength
      rwa [UInt8.toNat_and, show (0x0f : UInt8).toNat = 2 ^ 4 - 1 from rfl,
        Nat.and_two_pow_sub_one_eq_mod] at this
    refine UInt8.toNat_inj.mp ?_
    change b₀.toNat = 69
    omega
  · cases h

/-- **A packet verifies when its ICRC matches.** -/
theorem PacketRef.verifyIcrc_eq_ok {packet : PacketRef} {ipv4Bytes udpBytes : List UInt8} {u : Unit}
    (hipv4 : ipv4Bytes.length = 20) (hversion : ipv4Bytes.getD 0 0 = 0x45)
    (hudp : udpBytes.length = 8) :
    packet.verifyIcrc packet.bytes ipv4Bytes udpBytes = .ok u ↔
      IcrcMatches (ipv4Bytes ++ udpBytes ++ packet.bytes) := by
  have hicrc : icrcLen = 4 := rfl
  have hbody := packet.bthLen_le_body
  have hlength : packet.bytes.length = packet.body.length + icrcLen := by
    rw [bytes_eq, List.length_append, length_toLe]
    rfl
  have htake : packet.bytes.take (packet.bytes.length - icrcLen) = packet.body := by
    rw [hlength, Nat.add_sub_cancel, bytes_eq, List.take_left]
  rw [verifyIcrc, if_neg (by omega), htake, Icrc.computeIpv4_eq hipv4 hversion hudp hbody,
    icrcMatches_iff hipv4 hudp]
  change (if _ then _ else _) = _ ↔ _
  rw [guard_eq_ok, not_not]
  exact ⟨And.left, fun h ↦ ⟨h, rfl⟩⟩

/-- The packets that the decoder accepts: the headers that stand in front of the transport packet,
and what is required of them. -/
structure DecodedPacket.Framed (decoded : DecodedPacket) (ipv4Bytes udpBytes : List UInt8) :
    Prop where
  ipv4Length : ipv4Bytes.length = ipv4HeaderLen
  udpLength : udpBytes.length = udpHeaderLen
  ipv4 : Ipv4Header.decode ipv4Bytes = .ok decoded.ipv4
  protocol : decoded.ipv4.protocol = ipProtocolUdp
  moreFragments : decoded.ipv4.moreFragments = false
  fragmentOffset : decoded.ipv4.fragmentOffset = 0
  totalLength : decoded.ipv4.totalLength.toNat =
    ipv4HeaderLen + udpHeaderLen + decoded.transport.bytes.length
  udp : UdpHeader.decode udpBytes = .ok decoded.udp
  destinationPort : decoded.udp.destinationPort = roceV2UdpPort
  length : decoded.udp.length.toNat = udpHeaderLen + decoded.transport.bytes.length
  transport : decoded.transport.WellFormed
  icrc : IcrcMatches (ipv4Bytes ++ udpBytes ++ decoded.transport.bytes)

theorem windows_eq {udpStart transportStart : ℕ} (hudp : udpStart ≤ transportStart)
    (htransport : transportStart ≤ input.length) :
    slice input 0 udpStart ++ slice input udpStart transportStart ++
        slice input transportStart input.length = input ∧
      (slice input 0 udpStart).length = udpStart ∧
      (slice input udpStart transportStart).length = transportStart - udpStart := by
  refine ⟨?_, length_slice 0 (hudp.trans htransport), length_slice udpStart htransport⟩
  have hsplit : slice input 0 udpStart = (input.take transportStart).take udpStart := by
    rw [slice, List.drop_zero, List.take_take, Nat.min_eq_left hudp]
  rw [hsplit, slice, slice, List.take_append_drop, List.take_length, List.take_append_drop]

/-- **The decoder accepts exactly the framed packets**: a header pair in front of a well-formed
transport packet whose ICRC matches. -/
theorem decodeIpv4Packet_eq_ok {decoded : DecodedPacket} :
    decodeIpv4Packet input = .ok decoded ↔
      ∃ ipv4Bytes udpBytes, decoded.Framed ipv4Bytes udpBytes ∧
        input = ipv4Bytes ++ udpBytes ++ decoded.transport.bytes := by
  have hipv4Len : ipv4HeaderLen = 20 := rfl
  have hudpLen : udpHeaderLen = 8 := rfl
  simp only [decodeIpv4Packet, guard_eq_ok, bind_eq_ok, ofWire_eq_ok, parse_eq_ok,
    Except.ok.injEq, not_or, not_not, Nat.not_lt, Bool.not_eq_true]
  constructor
  · rintro ⟨hroom, ipv4, hipv4, hprotocol, ⟨hmore, hoffset⟩, htotal, udp, hudp, hport, -,
      ⟨-, hlength⟩, transport, ⟨hwf, htransport⟩, _, hverify, rfl⟩
    rw [minRoceIpv4Packet] at hroom
    obtain ⟨hinput, hipv4Length, hudpLength⟩ :
        slice input 0 ipv4HeaderLen ++ slice input ipv4HeaderLen (ipv4HeaderLen + udpHeaderLen) ++
            slice input (ipv4HeaderLen + udpHeaderLen) input.length = input ∧ _ ∧ _ :=
      windows_eq (Nat.le_add_right _ _) (by omega)
    rw [Nat.add_sub_cancel_left] at hudpLength
    rw [htotal] at htransport
    rw [htotal, htransport,
      PacketRef.verifyIcrc_eq_ok hipv4Length (Ipv4Header.getD_of_decode hipv4) hudpLength]
      at hverify
    rw [htransport] at hinput
    have hwhole : input.length = ipv4HeaderLen + udpHeaderLen + transport.bytes.length := by
      conv_lhs => rw [← hinput]
      rw [List.length_append, List.length_append, hipv4Length, hudpLength]
    exact ⟨_, _, ⟨hipv4Length, hudpLength, hipv4, hprotocol, hmore, hoffset, htotal.trans hwhole,
      hudp, hport, by dsimp only; omega, hwf, hverify⟩, hinput.symm⟩
  · rintro ⟨ipv4Bytes, udpBytes, h, rfl⟩
    have hlength : (ipv4Bytes ++ udpBytes ++ decoded.transport.bytes).length =
        ipv4HeaderLen + udpHeaderLen + decoded.transport.bytes.length := by
      rw [List.length_append, List.length_append, h.ipv4Length, h.udpLength]
    have hbody : decoded.transport.bytes.length = decoded.transport.body.length + 4 := by
      rw [PacketRef.bytes_eq, List.length_append, length_toLe]
    have hbth := decoded.transport.bthLen_le_body
    have hbthLen : bthLen = 12 := rfl
    have htotal := h.totalLength
    have hudpLength := h.length
    -- the three windows of the decoder
    have hfirst : slice (ipv4Bytes ++ udpBytes ++ decoded.transport.bytes) 0 ipv4HeaderLen =
        ipv4Bytes := by
      have hfront : ipv4Bytes ++ udpBytes ++ decoded.transport.bytes =
          [] ++ ipv4Bytes ++ (udpBytes ++ decoded.transport.bytes) := by simp
      exact slice_middle hfront rfl (by rw [h.ipv4Length, Nat.zero_add])
    have hsecond : slice (ipv4Bytes ++ udpBytes ++ decoded.transport.bytes) ipv4HeaderLen
        (ipv4HeaderLen + udpHeaderLen) = udpBytes :=
      slice_middle rfl h.ipv4Length.symm (by rw [h.udpLength])
    have hthird : slice (ipv4Bytes ++ udpBytes ++ decoded.transport.bytes)
        (ipv4HeaderLen + udpHeaderLen) decoded.ipv4.totalLength.toNat = decoded.transport.bytes :=
      slice_middle (List.append_nil _).symm
        (by rw [List.length_append, h.ipv4Length, h.udpLength]) h.totalLength
    rw [hfirst, hsecond, hlength, minRoceIpv4Packet]
    refine ⟨by omega, decoded.ipv4, h.ipv4, h.protocol, ⟨h.moreFragments, h.fragmentOffset⟩, htotal,
      decoded.udp, h.udp, h.destinationPort, by omega, ⟨by omega, by omega⟩, decoded.transport,
      ⟨h.transport, hthird⟩, (), ?_, rfl⟩
    rw [hthird, PacketRef.verifyIcrc_eq_ok h.ipv4Length (Ipv4Header.getD_of_decode h.ipv4)
      h.udpLength]
    exact h.icrc

/-! ## What the encoder writes -/

theorem PacketSpec.bthLen_le_body (spec : PacketSpec) : bthLen ≤ spec.body.length := by
  have hbth : spec.encodedBth.bytes.length = bthLen := Bth.layout.length_bytes _
  simp only [body, headers, headerBytes, List.length_append, hbth]
  omega

/-- **The ICRC is written behind the body.** -/
theorem PacketSpec.encodeWithIcrc_eq_ok {spec : PacketSpec} {ipv4 : Ipv4Header} {udp : UdpHeader}
    {output written : List UInt8} {n : ℕ} :
    spec.encodeWithIcrc ipv4.bytes udp.bytes output = .ok (n, written) ↔
      spec.Encodable ∧ spec.length < 2 ^ 64 ∧ spec.length ≤ output.length ∧ n = spec.length ∧
        written = fill output
          (spec.body ++ toLe 4 (icrcOf ipv4.bytes udp.bytes spec.body).toNat) := by
  have hcompute : Icrc.computeIpv4 ipv4.bytes udp.bytes spec.body =
      .ok (icrcOf ipv4.bytes udp.bytes spec.body) :=
    Icrc.computeIpv4_eq ipv4.length_bytes rfl udp.length_bytes spec.bthLen_le_body
  have htake : (fill output (spec.body ++ List.replicate icrcLen 0)).take spec.body.length =
      spec.body := by
    rw [fill, List.append_assoc, List.take_left]
  have hsplice (icrc : UInt32) :
      splice (fill output (spec.body ++ List.replicate icrcLen 0)) spec.body.length
        (toLe 4 icrc.toNat) = fill output (spec.body ++ toLe 4 icrc.toNat) :=
    splice_overwrite output spec.body rfl (by rw [length_toLe, List.length_replicate]; rfl)
  simp only [encodeWithIcrc, bind_eq_ok, Prod.exists, encodeWithoutIcrc_eq_ok, Except.ok.injEq,
    Prod.mk.injEq]
  constructor
  · rintro ⟨_, _, ⟨hencodable, hsmall, hroom, rfl, rfl⟩, icrc, hicrc, rfl, rfl⟩
    rw [htake, hcompute, Except.ok.injEq] at hicrc
    rw [hsplice, hicrc]
    exact ⟨hencodable, hsmall, hroom,
      length_body hencodable.reth hencodable.aeth hencodable.immediateData, rfl⟩
  · rintro ⟨hencodable, hsmall, hroom, rfl, rfl⟩
    exact ⟨_, _, ⟨hencodable, hsmall, hroom, rfl, rfl⟩, _, htake.symm ▸ hcompute,
      length_body hencodable.reth hencodable.aeth hencodable.immediateData, hsplice _⟩

def totalLengthOf (spec : PacketSpec) : ℕ := ipv4HeaderLen + (udpHeaderLen + spec.length)

def headersOf (path : Ipv4Path) (spec : PacketSpec) : Ipv4Header × UdpHeader :=
  (ipv4HeaderOf path (UInt16.ofNat (totalLengthOf spec)),
    udpHeaderOf path (UInt16.ofNat (udpHeaderLen + spec.length)))

/-- The transport packet that is written, as the decoder returns it. -/
def packetOf (path : Ipv4Path) (spec : PacketSpec) : PacketRef :=
  ⟨spec.encodedBth, spec.reth, spec.aeth, spec.immediateData, spec.payload,
    List.replicate spec.padCount 0,
    icrcOf (headersOf path spec).1.bytes (headersOf path spec).2.bytes spec.body⟩

def packetBytes (path : Ipv4Path) (spec : PacketSpec) : List UInt8 :=
  (headersOf path spec).1.bytes ++ (headersOf path spec).2.bytes ++ (packetOf path spec).bytes

/-- **The encoder accepts exactly the encodable specifications** whose packet has a 16-bit length
and fits the buffer, and fills its front with the packet. -/
theorem encodeIpv4Packet_eq_ok {path : Ipv4Path} {spec : PacketSpec} {output written : List UInt8}
    {n : ℕ} :
    encodeIpv4Packet path spec output = .ok (n, written) ↔
      spec.Encodable ∧ totalLengthOf spec < 2 ^ 16 ∧ totalLengthOf spec ≤ output.length ∧
        n = totalLengthOf spec ∧ written = fill output (packetBytes path spec) := by
  have hipv4Len : ipv4HeaderLen = 20 := rfl
  have hudpLen : udpHeaderLen = 8 := rfl
  have htotal : totalLengthOf spec = ipv4HeaderLen + (udpHeaderLen + spec.length) := rfl
  obtain ⟨ipv4, udp, hheaders⟩ : ∃ ipv4 udp, headersOf path spec = (ipv4, udp) := ⟨_, _, rfl⟩
  obtain ⟨hipv4, hudp⟩ := Prod.mk.inj hheaders
  have hipv4Encode : ipv4.encode (List.replicate ipv4HeaderLen 0) = .ok ipv4.bytes :=
    Ipv4Header.writes_encode.fresh (by rw [← hipv4]; exact UInt16.zero_le) List.length_replicate
  have hudpEncode : udp.encode (List.replicate udpHeaderLen 0) = .ok udp.bytes :=
    UdpHeader.writes_encode.fresh trivial List.length_replicate
  have hbefore : ipv4HeaderLen + udpHeaderLen = (ipv4.bytes ++ udp.bytes).length := by
    rw [List.length_append, ipv4.length_bytes, udp.length_bytes]
  have hfill : splice (splice output 0 ipv4.bytes) ipv4HeaderLen udp.bytes =
      fill output (ipv4.bytes ++ udp.bytes) := by
    rw [splice_zero, splice_fill _ _ _ ipv4.length_bytes.symm]
  -- the window of the transport packet has its length, and is overwritten
  have hwindow (hencodable : spec.Encodable) (hroom : totalLengthOf spec ≤ output.length) :
      ((output.drop (ipv4HeaderLen + udpHeaderLen)).take
          (totalLengthOf spec - (ipv4HeaderLen + udpHeaderLen))).length = spec.length ∧
        (packetOf path spec).bytes.length = spec.length := by
    refine ⟨?_, ?_⟩
    · simp only [List.length_take, List.length_drop]
      omega
    · rw [PacketRef.bytes_eq, List.length_append, length_toLe, ← PacketSpec.length_body
        hencodable.reth hencodable.aeth hencodable.immediateData]
      rfl
  have hbytes : (packetOf path spec).bytes =
      spec.body ++ toLe 4 (icrcOf ipv4.bytes udp.bytes spec.body).toNat := by
    rw [PacketRef.bytes_eq, packetOf, hheaders]
    rfl
  simp only [encodeIpv4Packet, bind_eq_ok, ofWire_eq_ok, PacketSpec.encodedLen_eq_ok, guard_eq_ok,
    Prod.exists, Except.ok.injEq, Prod.mk.injEq, Nat.not_le, Nat.not_lt]
  constructor
  · rintro ⟨_, ⟨hsmall, rfl⟩, -, -, htotalSmall, hroom, ipv4Bytes, hi, udpBytes, hu, _, window,
      hencode, rfl, rfl⟩
    rw [← htotal] at htotalSmall hroom hi hencode ⊢
    rw [hipv4, hipv4Encode, Except.ok.injEq] at hi
    rw [hudp, hudpEncode, Except.ok.injEq] at hu
    subst hi hu
    rw [hfill, slice_fill _ _ hbefore, PacketSpec.encodeWithIcrc_eq_ok] at hencode
    obtain ⟨hencodable, -, -, -, rfl⟩ := hencode
    obtain ⟨hlength, hpacket⟩ := hwindow hencodable hroom
    refine ⟨hencodable, htotalSmall, hroom, rfl, ?_⟩
    rw [← hbytes, fill_of_length_le (hlength.trans hpacket.symm).le, hfill,
      splice_fill _ _ _ hbefore, packetBytes, hheaders]
  · rintro ⟨hencodable, htotalSmall, hroom, rfl, rfl⟩
    obtain ⟨hlength, hpacket⟩ := hwindow hencodable hroom
    have hencode : spec.encodeWithIcrc ipv4.bytes udp.bytes
        (slice (fill output (ipv4.bytes ++ udp.bytes)) (ipv4HeaderLen + udpHeaderLen)
          (totalLengthOf spec)) = .ok (spec.length, (packetOf path spec).bytes) := by
      rw [slice_fill _ _ hbefore, PacketSpec.encodeWithIcrc_eq_ok, ← hbytes]
      exact ⟨hencodable, by omega, hlength.ge, rfl,
        (fill_of_length_le (hlength.trans hpacket.symm).le).symm⟩
    refine ⟨spec.length, ⟨by omega, rfl⟩, ?_⟩
    rw [← htotal, hipv4, hudp]
    refine ⟨by omega, by omega, by omega, hroom, ipv4.bytes, hipv4Encode, udp.bytes, hudpEncode, _,
      _, hfill.symm ▸ hencode, rfl, ?_⟩
    rw [hfill, splice_fill _ _ _ hbefore, packetBytes, hheaders]

end Rocev2.Wire.Codec
