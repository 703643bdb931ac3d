import Rocev2.Wire.Codec.Datagram

/-!
# Packets on their way

What happens to an encoded packet between the encoder and the decoder.  A packet that arrives as it
was sent is decoded to what was encoded.  Routers rewrite some of its fields, none of which enters
the ICRC, so the packet is still accepted.  A burst of errors elsewhere is found by the ICRC, since
the CRC is injective on windows of four bytes.
-/

namespace Rocev2.Wire.Codec

open Lib Lib.Bytes

variable {decoded : DecodedPacket}

/-! ## Encoded packets are accepted -/

/-- Headers in the layout of the encoder are read back. -/
theorem framed_bytes {ipv4 : Ipv4Header} {udp : UdpHeader} {transport : PacketRef}
    (hprotocol : ipv4.protocol = ipProtocolUdp) (hmore : ipv4.moreFragments = false)
    (hoffset : ipv4.fragmentOffset = 0)
    (htotal : ipv4.totalLength.toNat = ipv4HeaderLen + udpHeaderLen + transport.bytes.length)
    (hport : udp.destinationPort = roceV2UdpPort)
    (hlength : udp.length.toNat = udpHeaderLen + transport.bytes.length)
    (hwf : transport.WellFormed)
    (hicrc : IcrcMatches (ipv4.bytes ++ udp.bytes ++ transport.bytes)) :
    DecodedPacket.Framed ⟨ipv4, udp, transport⟩ ipv4.bytes udp.bytes where
  ipv4Length := ipv4.length_bytes
  udpLength := udp.length_bytes
  ipv4 := Ipv4Header.decode_bytes hmore hoffset
  protocol := hprotocol
  moreFragments := hmore
  fragmentOffset := hoffset
  totalLength := htotal
  udp := UdpHeader.decode_bytes udp
  destinationPort := hport
  length := hlength
  transport := hwf
  icrc := hicrc

variable {path : Ipv4Path} {spec : PacketSpec} {output written : List UInt8} {n : ℕ}

def decodedOf (path : Ipv4Path) (spec : PacketSpec) : DecodedPacket :=
  ⟨(headersOf path spec).1, (headersOf path spec).2, packetOf path spec⟩

theorem length_packetOf (path : Ipv4Path) (h : spec.Encodable) :
    (packetOf path spec).bytes.length = spec.length := by
  rw [PacketRef.bytes_eq, List.length_append, length_toLe,
    ← PacketSpec.length_body h.reth h.aeth h.immediateData]
  rfl

theorem wellFormed_packetOf (h : spec.Encodable) : (packetOf path spec).WellFormed where
  bth := h.bth
  reth := h.reth
  aeth := h.aeth
  aethValid := h.aethValid
  immediateData := h.immediateData
  payload := h.payload
  padding := by
    change (List.replicate spec.padCount 0).length = spec.encodedBth.padCount.toNat
    rw [spec.toNat_padCount, List.length_replicate]
  zeros _ hmem := List.eq_of_mem_replicate hmem

/-- **The encoder frames its packets.** -/
theorem framed_encoded (h : spec.Encodable) (hsmall : totalLengthOf spec < 2 ^ 16) :
    (decodedOf path spec).Framed (headersOf path spec).1.bytes (headersOf path spec).2.bytes := by
  have hlength := length_packetOf path h
  have htotal : totalLengthOf spec = ipv4HeaderLen + (udpHeaderLen + spec.length) := rfl
  refine framed_bytes rfl rfl rfl ?_ rfl ?_ (wellFormed_packetOf h) ?_
  · change (UInt16.ofNat (totalLengthOf spec)).toNat = _
    rw [UInt16.toNat_ofNat_of_lt' hsmall, hlength]
    omega
  · change (UInt16.ofNat (udpHeaderLen + spec.length)).toNat = _
    rw [UInt16.toNat_ofNat_of_lt' (Nat.lt_of_le_of_lt (by omega) hsmall), hlength]
  · rw [icrcMatches_iff (Ipv4Header.length_bytes _) (UdpHeader.length_bytes _)]
    rfl

theorem take_written (h : encodeIpv4Packet path spec output = .ok (n, written)) :
    written.take n = packetBytes path spec ∧ (written.take n).length = n ∧ spec.Encodable ∧
      totalLengthOf spec < 2 ^ 16 := by
  obtain ⟨hencodable, hsmall, -, rfl, rfl⟩ := encodeIpv4Packet_eq_ok.mp h
  have hlength : (packetBytes path spec).length = totalLengthOf spec := by
    rw [packetBytes, List.length_append, List.length_append, Ipv4Header.length_bytes,
      UdpHeader.length_bytes, length_packetOf path hencodable]
    exact Nat.add_assoc _ _ _
  have htake : (fill output (packetBytes path spec)).take (totalLengthOf spec) =
      packetBytes path spec := by
    rw [fill, ← hlength, List.take_left]
  exact ⟨htake, htake.symm ▸ hlength, hencodable, hsmall⟩

theorem decode_encoded (h : encodeIpv4Packet path spec output = .ok (n, written)) :
    decodeIpv4Packet (written.take n) = .ok (decodedOf path spec) := by
  obtain ⟨htake, -, hencodable, hsmall⟩ := take_written h
  rw [htake]
  exact decodeIpv4Packet_eq_ok.mpr ⟨_, _, framed_encoded hencodable hsmall, rfl⟩

/-- **Whole-packet round trip**: what was encoded is decoded to the addresses, the octets and the
port of the path, the headers and the payload of the specification, and the zeros that align it. -/
theorem whole_packet_round_trip (h : encodeIpv4Packet path spec output = .ok (n, written)) :
    ∃ decoded, decodeIpv4Packet (written.take n) = .ok decoded ∧
      decoded.ipv4.source = path.source ∧ decoded.ipv4.destination = path.destination ∧
      decoded.ipv4.ttl = path.ttl ∧ decoded.ipv4.dscpEcn = path.dscpEcn ∧
      decoded.udp.sourcePort = path.sourcePort ∧ decoded.udp.destinationPort = 4791 ∧
      decoded.transport.bth = { spec.bth with padCount := decoded.transport.bth.padCount } ∧
      (decoded.transport.bth.padCount.toNat : ℤ) = -(spec.payload.length : ℤ) % 4 ∧
      decoded.transport.reth = spec.reth ∧ decoded.transport.aeth = spec.aeth ∧
      decoded.transport.immediateData = spec.immediateData ∧
      decoded.transport.payload = spec.payload ∧
      decoded.transport.padding = List.replicate decoded.transport.bth.padCount.toNat 0 := by
  obtain ⟨-, -, hencodable, -⟩ := take_written h
  refine ⟨decodedOf path spec, decode_encoded h, rfl, rfl, rfl, rfl, rfl, rfl, rfl, ?_, rfl, rfl,
    rfl, rfl, (wellFormed_packetOf hencodable).padding_eq⟩
  change (spec.encodedBth.padCount.toNat : ℤ) = _
  rw [spec.toNat_padCount, spec.padCount_eq]
  omega

namespace Sample

/-- A path between two hosts. -/
def route : Ipv4Path := ⟨.octets 10 0 0 1, .octets 10 0 0 2, 49152, 64, 0⟩

def send : PacketSpec :=
  ⟨⟨.sendOnly, false, false, 0, 0, 0xffff, false, false, 2, false, 7⟩, none, none, none, [0xaa]⟩

theorem encodable_send : send.Encodable :=
  ⟨⟨by decide, by decide, by decide, rfl⟩, rfl, rfl, nofun, rfl, nofun⟩

theorem encode_send : encodeIpv4Packet route send (List.replicate 64 0) =
    .ok (48, fill (List.replicate 64 0) (packetBytes route send)) :=
  encodeIpv4Packet_eq_ok.mpr ⟨encodable_send, by decide, by decide, rfl, rfl⟩

end Sample

theorem whole_packet_round_trip_sample :
    ∃ decoded, decodeIpv4Packet ((fill (List.replicate 64 0)
        (packetBytes Sample.route Sample.send)).take 48) = .ok decoded ∧
      decoded.ipv4.source = #v[10, 0, 0, 1] ∧ decoded.transport.payload = [0xaa] := by
  obtain ⟨decoded, hdecode, hsource, -, -, -, -, -, -, -, -, -, -, hpayload, -⟩ :=
    whole_packet_round_trip Sample.encode_send
  exact ⟨decoded, hdecode, hsource, hpayload⟩

/-! ## Fields that the network rewrites -/

/-- The FECN and BECN bits as they stand in the fifth byte of the base header. -/
def congestionBits (fecn becn : Bool) : UInt8 :=
  (if fecn then 0x80 else 0) ||| (if becn then 0x40 else 0)

/-- A packet whose variant fields were rewritten on the way: DSCP and ECN, time to live with the
IPv4 checksum recomputed, UDP checksum, FECN and BECN. -/
def rewriteVariant (ttl dscpEcn : UInt8) (checksum : UInt16) (fecn becn : Bool)
    (packet : List UInt8) : List UInt8 :=
  let packet := (packet.set 1 dscpEcn).set 8 ttl
  let packet := splice packet 10 [0, 0]
  let packet := splice packet 10 (toBe 2 (internetChecksum (packet.take ipv4HeaderLen)).toNat)
  let packet := splice packet 26 (toBe 2 checksum.toNat)
  packet.set 32 (congestionBits fecn becn ||| (packet.getD 32 0 &&& 0x3f))

theorem toBe_qpnWord {bth : Bth} (h : bth.Valid) :
    toBe 4 bth.qpnWord.toNat =
      congestionBits bth.fecn bth.becn :: toBe 3 bth.destinationQpn.toNat := by
  have hqpn : bth.destinationQpn.toNat < 2 ^ 24 :=
    Nat.lt_succ_of_le (UInt32.le_iff_toNat_le.mp h.destinationQpn)
  have hflags : (Bits.flag fecnMask bth.fecn ||| Bits.flag becnMask bth.becn).toNat =
      (congestionBits bth.fecn bth.becn).toNat <<< 24 := by
    cases bth.fecn <;> cases bth.becn <;> rfl
  have hword : bth.qpnWord.toNat =
      (congestionBits bth.fecn bth.becn).toNat * 256 ^ 3 + bth.destinationQpn.toNat := by
    rw [Bth.qpnWord, UInt32.toNat_or, hflags, ← Nat.shiftLeft_add_eq_or_of_lt hqpn,
      Nat.shiftLeft_eq]
    rfl
  rw [hword, toBe_succ_add _ hqpn, UInt8.ofNat_toNat]

/-- The bytes of a packet that do not change on its way. -/
structure FixedBytes where
  version : UInt8
  /-- Total length, identification and fragment word. -/
  lengths : List UInt8
  protocol : UInt8
  addresses : List UInt8
  /-- Ports and UDP length. -/
  ports : List UInt8
  /-- The base header up to its fifth byte. -/
  transport : List UInt8
  /-- Everything behind the fifth byte of the base header. -/
  rest : List UInt8
  length_lengths : lengths.length = 6
  length_addresses : addresses.length = 8
  length_ports : ports.length = 6
  length_transport : transport.length = 4

namespace FixedBytes

variable (fixed : FixedBytes) (dscpEcn ttl : UInt8) (checksum udpChecksum : UInt16) (fifth : UInt8)

/-- The IPv4 header around the fixed bytes. -/
def header : List UInt8 :=
  [fixed.version, dscpEcn] ++ fixed.lengths ++ [ttl, fixed.protocol] ++ toBe 2 checksum.toNat ++
    fixed.addresses

def packet : List UInt8 :=
  fixed.header dscpEcn ttl checksum ++ (fixed.ports ++ toBe 2 udpChecksum.toNat) ++
    (fixed.transport ++ fifth :: fixed.rest)

theorem toBe_two (word : UInt16) :
    toBe 2 word.toNat = [UInt8.ofNat (word.toNat / 256), UInt8.ofNat word.toNat] :=
  rfl

/-- **The mask covers all that is variable.** -/
theorem mask_packet :
    Icrc.mask Icrc.variantOffsets (fixed.packet dscpEcn ttl checksum udpChecksum fifth) =
      fixed.packet 0xff 0xff 0xffff 0xffff 0xff := by
  have hones : toBe 2 (0xffff : UInt16).toNat = [0xff, 0xff] := rfl
  obtain ⟨version, lengths, protocol, addresses, ports, transport, rest, h₁, h₂, h₃, h₄⟩ := fixed
  match lengths, h₁, addresses, h₂, ports, h₃, transport, h₄ with
  | [_, _, _, _, _, _], _, [_, _, _, _, _, _, _, _], _, [_, _, _, _, _, _], _, [_, _, _, _], _ =>
    simp only [Icrc.mask, Icrc.variantOffsets, packet, header, hones, toBe_two, List.foldl_cons,
      List.foldl_nil, List.cons_append, List.nil_append, List.set_cons_succ, List.set_cons_zero]

/-- **Rewriting writes the variable bytes only.** -/
theorem rewriteVariant_packet (ttl' dscpEcn' : UInt8) (checksum' : UInt16) (fecn becn : Bool) :
    rewriteVariant ttl' dscpEcn' checksum' fecn becn
        (fixed.packet dscpEcn ttl checksum udpChecksum fifth) =
      fixed.packet dscpEcn' ttl' (internetChecksum (fixed.header dscpEcn' ttl' 0)) checksum'
        (congestionBits fecn becn ||| (fifth &&& 0x3f)) := by
  have hzero : toBe 2 (0 : UInt16).toNat = [0, 0] := rfl
  obtain ⟨version, lengths, protocol, addresses, ports, transport, rest, h₁, h₂, h₃, h₄⟩ := fixed
  match lengths, h₁, addresses, h₂, ports, h₃, transport, h₄ with
  | [_, _, _, _, _, _], _, [_, _, _, _, _, _, _, _], _, [_, _, _, _, _, _], _, [_, _, _, _], _ =>
    simp only [rewriteVariant, packet, header, hzero, toBe_two, splice, ipv4HeaderLen,
      List.cons_append, List.nil_append, List.set_cons_succ, List.set_cons_zero,
      List.take_succ_cons, List.take_zero, List.drop_succ_cons, List.drop_zero, List.length_cons,
      List.length_nil, List.getD_cons_succ, List.getD_cons_zero, Nat.reduceAdd]

end FixedBytes

/-- The fixed bytes of a packet. -/
def fixedBytes (ipv4 : Ipv4Header) (udp : UdpHeader) (bth : Bth) (rest : List UInt8) :
    FixedBytes where
  version := 0x45
  lengths := toBe 2 ipv4.totalLength.toNat ++ toBe 2 ipv4.identification.toNat ++
    toBe 2 ipv4.flagsFragment.toNat
  protocol := ipv4.protocol
  addresses := ipv4.source.toList ++ ipv4.destination.toList
  ports := toBe 2 udp.sourcePort.toNat ++ toBe 2 udp.destinationPort.toNat ++
    toBe 2 udp.length.toNat
  transport := [bth.opcode.asU8, bth.flagsByte] ++ toBe 2 bth.partitionKey.toNat
  rest := toBe 3 bth.destinationQpn.toNat ++ toBe 4 bth.apsnWord.toNat ++ rest
  length_lengths := rfl
  length_addresses := by simp
  length_ports := rfl
  length_transport := rfl

variable (ipv4 : Ipv4Header) (udp : UdpHeader) {bth : Bth}

theorem header_fixedBytes (bth : Bth) (checksum : UInt16) (rest : List UInt8) :
    (fixedBytes ipv4 udp bth rest).header ipv4.dscpEcn ipv4.ttl checksum =
      ipv4.bytesWith checksum := by
  simp only [FixedBytes.header, fixedBytes, Ipv4Header.bytesWith, List.append_assoc]

theorem packet_fixedBytes (hbth : bth.Valid) (rest : List UInt8) :
    (fixedBytes ipv4 udp bth rest).packet ipv4.dscpEcn ipv4.ttl
        (internetChecksum (ipv4.bytesWith 0)) udp.checksum (congestionBits bth.fecn bth.becn) =
      ipv4.bytes ++ udp.bytes ++ (bth.bytes ++ rest) := by
  rw [FixedBytes.packet, header_fixedBytes, ← Ipv4Header.bytes, Bth.bytes, toBe_qpnWord hbth]
  simp only [fixedBytes, UdpHeader.bytes, List.append_assoc, List.cons_append]

/-- The headers after the variant fields were rewritten. -/
def DecodedPacket.rewrite (decoded : DecodedPacket) (ttl dscpEcn : UInt8) (checksum : UInt16)
    (fecn becn : Bool) : DecodedPacket where
  ipv4 := { decoded.ipv4 with ttl := ttl, dscpEcn := dscpEcn }
  udp := { decoded.udp with checksum := checksum }
  transport :=
    { decoded.transport with bth := { decoded.transport.bth with fecn := fecn, becn := becn } }

/-- The layout of a packet with headers in the layout of the encoder. -/
def DecodedPacket.bytes (decoded : DecodedPacket) : List UInt8 :=
  decoded.ipv4.bytes ++ decoded.udp.bytes ++ decoded.transport.bytes

/-- **Rewriting the variant fields** changes these fields of the headers, and does not change the
masked packet. -/
theorem rewriteVariant_bytes (hbth : decoded.transport.bth.Valid) (ttl dscpEcn : UInt8)
    (checksum : UInt16) (fecn becn : Bool) :
    rewriteVariant ttl dscpEcn checksum fecn becn decoded.bytes =
        (decoded.rewrite ttl dscpEcn checksum fecn becn).bytes ∧
      Icrc.mask Icrc.variantOffsets (decoded.rewrite ttl dscpEcn checksum fecn becn).bytes =
        Icrc.mask Icrc.variantOffsets decoded.bytes := by
  obtain ⟨ipv4, udp, ⟨bth, reth, aeth, immediateData, payload, padding, icrc⟩⟩ := decoded
  have hbth' : { bth with fecn := fecn, becn := becn }.Valid :=
    ⟨hbth.destinationQpn, hbth.psn, hbth.padCount, hbth.transportVersion⟩
  have hbits : congestionBits fecn becn ||| (congestionBits bth.fecn bth.becn &&& 0x3f) =
      congestionBits fecn becn := by
    cases fecn <;> cases becn <;> cases bth.fecn <;> cases bth.becn <;> rfl
  -- both packets are laid out around the same fixed bytes
  obtain ⟨rest, hrest⟩ : ∃ rest, ∀ b : Bth, (⟨b, reth, aeth, immediateData, payload, padding,
      icrc⟩ : PacketRef).bytes = b.bytes ++ rest :=
    ⟨_, fun b ↦ by simp only [PacketRef.bytes, headerBytes, List.append_assoc]; rfl⟩
  have hheader := header_fixedBytes { ipv4 with ttl := ttl, dscpEcn := dscpEcn } udp bth 0 rest
  have hfixed := packet_fixedBytes ipv4 udp hbth rest
  have hfixed' := packet_fixedBytes { ipv4 with ttl := ttl, dscpEcn := dscpEcn }
    { udp with checksum := checksum } hbth' rest
  simp only [DecodedPacket.bytes, DecodedPacket.rewrite, hrest]
  rw [← hfixed, ← hfixed', FixedBytes.mask_packet, FixedBytes.mask_packet,
    FixedBytes.rewriteVariant_packet, hbits, ← hheader]
  exact ⟨rfl, rfl⟩

theorem DecodedPacket.Framed.rewrite (h : decoded.Framed decoded.ipv4.bytes decoded.udp.bytes)
    (ttl dscpEcn : UInt8) (checksum : UInt16) (fecn becn : Bool) :
    (decoded.rewrite ttl dscpEcn checksum fecn becn).Framed
      (decoded.rewrite ttl dscpEcn checksum fecn becn).ipv4.bytes
      (decoded.rewrite ttl dscpEcn checksum fecn becn).udp.bytes := by
  obtain ⟨-, hmask⟩ := rewriteVariant_bytes h.transport.bth ttl dscpEcn checksum fecn becn
  have hlength : (decoded.rewrite ttl dscpEcn checksum fecn becn).transport.bytes.length =
      decoded.transport.bytes.length := by
    simp only [PacketRef.bytes, headerBytes, List.length_append]
    rfl
  have hwf := h.transport
  refine framed_bytes h.protocol h.moreFragments h.fragmentOffset
    (h.totalLength.trans (congrArg _ hlength.symm)) h.destinationPort
    (h.length.trans (congrArg _ hlength.symm)) ?_ ?_
  · exact ⟨⟨⟨hwf.bth.destinationQpn, hwf.bth.psn, hwf.bth.padCount, hwf.bth.transportVersion⟩,
      hwf.reth, hwf.aeth, hwf.aethValid, hwf.immediateData, hwf.padding⟩, hwf.payload, hwf.zeros⟩
  · have hicrc := h.icrc
    rw [IcrcMatches] at hicrc ⊢
    rw [← hicrc]
    exact congrArg (Icrc.run Icrc.icrcSeed) hmask

/-- **In-network rewriting is transparent**: an encoded packet whose time to live, DSCP and ECN, UDP
checksum and congestion bits were replaced, with the IPv4 checksum recomputed, is accepted, and
decoded as before but for these fields. -/
theorem variant_rewriting_transparent
    (h : encodeIpv4Packet path spec output = .ok (n, written)) (ttl dscpEcn : UInt8)
    (checksum : UInt16) (fecn becn : Bool) :
    ∃ decoded, decodeIpv4Packet (written.take n) = .ok decoded ∧
      decodeIpv4Packet (rewriteVariant ttl dscpEcn checksum fecn becn (written.take n)) =
        .ok
          { ipv4 := { decoded.ipv4 with ttl := ttl, dscpEcn := dscpEcn }
            udp := { decoded.udp with checksum := checksum }
            transport := { decoded.transport with
              bth := { decoded.transport.bth with fecn := fecn, becn := becn } } } := by
  refine ⟨decodedOf path spec, decode_encoded h, ?_⟩
  obtain ⟨htake, -, hencodable, hsmall⟩ := take_written h
  have hframed : (decodedOf path spec).Framed _ _ := framed_encoded hencodable hsmall
  obtain ⟨hrewrite, -⟩ :=
    rewriteVariant_bytes hframed.transport.bth ttl dscpEcn checksum fecn becn
  have hbytes : packetBytes path spec = (decodedOf path spec).bytes := rfl
  rw [htake, hbytes, hrewrite]
  exact decodeIpv4Packet_eq_ok.mpr ⟨_, _, hframed.rewrite ttl dscpEcn checksum fecn becn, rfl⟩

theorem variant_rewriting_transparent_sample :
    ∃ decoded, decodeIpv4Packet (rewriteVariant 63 3 0xbeef true false
        ((fill (List.replicate 64 0) (packetBytes Sample.route Sample.send)).take 48)) =
          .ok decoded ∧ decoded.ipv4.ttl = 63 ∧ decoded.transport.bth.fecn = true := by
  obtain ⟨decoded, -, hdecode⟩ :=
    variant_rewriting_transparent Sample.encode_send 63 3 0xbeef true false
  exact ⟨_, hdecode, rfl, rfl⟩

/-! ## Errors that the ICRC detects -/

theorem mask_injective {offsets : List ℕ} {p q : List UInt8}
    (hagree : ∀ i ∈ offsets, p[i]? = q[i]?) (h : Icrc.mask offsets p = Icrc.mask offsets q) :
    p = q := by
  refine List.ext_getElem? fun i ↦ ?_
  by_cases hi : i ∈ offsets
  · exact hagree i hi
  · rw [← Icrc.getElem?_mask hi, h, Icrc.getElem?_mask hi]

theorem getElem?_mask_congr {offsets : List ℕ} {p q : List UInt8} {i : ℕ}
    (hlength : p.length = q.length) (h : p[i]? = q[i]?) :
    (Icrc.mask offsets p)[i]? = (Icrc.mask offsets q)[i]? := by
  induction offsets generalizing p q with
  | nil => exact h
  | cons offset offsets ih =>
    refine ih (by simpa using hlength) ?_
    rw [List.getElem?_set, List.getElem?_set, hlength, h]

theorem icrcMatches_of_decode {input : List UInt8} (h : decodeIpv4Packet input = .ok decoded) :
    IcrcMatches input := by
  obtain ⟨_, _, hframed, rfl⟩ := decodeIpv4Packet_eq_ok.mp h
  exact hframed.icrc

/-- **Burst corruption is detected**: a packet that differs from an encoded one, within four
consecutive bytes of its transport part and not in the fifth byte of the base header, is
rejected. -/
theorem burst_corruption_detected (h : encodeIpv4Packet path spec output = .ok (n, written))
    {received : List UInt8} (hlength : received.length = n) (hne : received ≠ written.take n)
    (start : ℕ) (hstart : 28 ≤ start)
    (hagree : ∀ i, i < start ∨ start + 4 ≤ i → received[i]? = (written.take n)[i]?)
    (hfifth : received[32]? = (written.take n)[32]?) :
    ∃ error, decodeIpv4Packet received = .error error := by
  cases hdecode : decodeIpv4Packet received with
  | error error => exact ⟨error, rfl⟩
  | ok decoded =>
    refine absurd ?_ hne
    obtain ⟨-, hsentLength, -⟩ := take_written h
    have hsent := icrcMatches_of_decode (decode_encoded h)
    have hreceived := icrcMatches_of_decode hdecode
    have hlengths : received.length = (written.take n).length := hlength.trans hsentLength.symm
    -- the masked packets differ within the window only, and leave the same state
    have hmask : Icrc.mask Icrc.variantOffsets received =
        Icrc.mask Icrc.variantOffsets (written.take n) :=
      Crc.run_burst Icrc.polynomial_top Icrc.icrcSeed (by simpa using hlengths) start
        (fun i hi ↦ getElem?_mask_congr hlengths (hagree i hi)) (hreceived.trans hsent.symm)
    refine mask_injective ?_ hmask
    simp only [Icrc.variantOffsets, List.forall_mem_cons]
    exact ⟨hagree 1 (by omega), hagree 8 (by omega), hagree 10 (by omega), hagree 11 (by omega),
      hagree 26 (by omega), hagree 27 (by omega), hfifth,
      fun _ hmem ↦ absurd hmem List.not_mem_nil⟩

theorem burst_corruption_detected_sample :
    ∃ error, decodeIpv4Packet
      (((fill (List.replicate 64 0) (packetBytes Sample.route Sample.send)).take 48).set 40 0xab) =
        .error error := by
  obtain ⟨-, hlength, -⟩ := take_written Sample.encode_send
  have hpayload : ((fill (List.replicate 64 0)
      (packetBytes Sample.route Sample.send)).take 48)[40]? = some 0xaa := rfl
  refine burst_corruption_detected Sample.encode_send (by rw [List.length_set, hlength]) ?_ 40
    (by decide) (fun i hi ↦ List.getElem?_set_ne (by omega)) (List.getElem?_set_ne (by decide))
  intro heq
  rw [← heq, List.getElem?_set_self (by rw [hlength]; decide)] at hpayload
  exact absurd hpayload (by decide)

end Rocev2.Wire.Codec
