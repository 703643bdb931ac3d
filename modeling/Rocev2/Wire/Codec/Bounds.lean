import Rocev2.Lib.Checked
import Rocev2.Wire.Codec.Datagram

/-!
# Accesses of the decoders

The decoders once more, with every index, range and subtraction as the source writes it and checked
against the slice it reads (`Checked`).  Each of them is the lifting of the decoder that the rest of
the development works with (`*_eq_lift`), so none of them panics, on any input.

The blocks that the CRC and the Internet checksum walk over are cut to a fixed length by
`chunks_exact`, and a table of 256 entries is indexed by a byte; these accesses are in range by
their types and are not written out.
-/

namespace Rocev2.Wire

open Lib Lib.Bytes Lib.Checked

/-! ## Headers -/

namespace Codec

/-- `Bth::decode` with checked accesses. -/
def Bth.decodeChecked (input : List UInt8) : Checked WireError Bth :=
  if input.length < bthLen then fail (.bufferTooShort bthLen input.length)
  else do
    let opcode ← lift (Opcode.fromU8 (← index input 0))
    let flags ← index input 1
    let transportVersion := flags &&& tverMask
    if transportVersion ≠ 0 then fail (.invalidTransportVersion transportVersion)
    else
      let qpnWord := u32FromBe (← octets input 4 4)
      let qpnReserved := qpnWord &&& qpnReservedMask
      if qpnReserved ≠ 0 then fail (.reservedBitsSet "BTH.qpn" qpnReserved)
      else
        let apsnWord := u32FromBe (← octets input 8 4)
        let apsnReserved := apsnWord &&& apsnReservedMask
        if apsnReserved ≠ 0 then fail (.reservedBitsSet "BTH.apsn" apsnReserved)
        else
          let partitionKey := u16FromBe (← octets input 2 2)
          .ok
            { opcode := opcode
              solicitedEvent := flags &&& seMask != 0
              migrationRequest := flags &&& migMask != 0
              padCount := (flags &&& padMask) >>> 4
              transportVersion := transportVersion
              partitionKey := partitionKey
              fecn := qpnWord &&& fecnMask != 0
              becn := qpnWord &&& becnMask != 0
              destinationQpn := qpnWord &&& qpnMask
              ackRequest := apsnWord &&& ackMask != 0
              psn := apsnWord &&& psnMask }

theorem Bth.decodeChecked_eq_lift : ∀ input, decodeChecked input = lift (decode input) := by
  refine eq_lift_of_front bthLen (fun input h ↦ ?_) fun front rest hfront h ↦ ?_
  · rw [decodeChecked, if_pos h]
    unfold decode
    split
    · simp only [List.length_cons, bthLen] at h
      omega
    · rfl
  · rw [decodeChecked, if_neg h]
    match front, hfront with
    | [b₀, flags, b₂, b₃, b₄, b₅, b₆, b₇, b₈, b₉, b₁₀, b₁₁], _ =>
      change (lift (Opcode.fromU8 b₀) >>= fun opcode ↦ _) = lift (decodeWords _ _ _ _ _)
      unfold decodeWords
      cases Opcode.fromU8 b₀ with
      | error error => rfl
      | ok opcode =>
        simp only [lift_ite]
        rfl

end Codec

def Reth.decodeChecked (input : List UInt8) : Checked WireError Reth :=
  if input.length < Codec.rethLen then fail (.bufferTooShort Codec.rethLen input.length)
  else do
    let virtualAddress := u64FromBe (← octets input 0 8)
    let remoteKey := u32FromBe (← octets input 8 4)
    let dmaLength := u32FromBe (← octets input 12 4)
    .ok ⟨virtualAddress, remoteKey, dmaLength⟩

theorem Reth.decodeChecked_eq_lift : ∀ input, decodeChecked input = lift (decode input) := by
  refine eq_lift_of_front Codec.rethLen (fun input h ↦ ?_) fun front rest hfront h ↦ ?_
  · rw [decodeChecked, if_pos h]
    unfold decode
    split
    · simp only [List.length_cons, Codec.rethLen] at h
      omega
    · rfl
  · rw [decodeChecked, if_neg h]
    match front, hfront with
    | [_, _, _, _, _, _, _, _, _, _, _, _, _, _, _, _], _ => rfl

def Aeth.decodeChecked (input : List UInt8) : Checked WireError Aeth :=
  if input.length < Codec.aethLen then fail (.bufferTooShort Codec.aethLen input.length)
  else do
    let raw := u32FromBe (← octets input 0 4)
    .ok ⟨(raw >>> 24).toUInt8, (raw &&& Codec.psnMask).toNat⟩

theorem Aeth.decodeChecked_eq_lift : ∀ input, decodeChecked input = lift (decode input) := by
  refine eq_lift_of_front Codec.aethLen (fun input h ↦ ?_) fun front rest hfront h ↦ ?_
  · rw [decodeChecked, if_pos h]
    unfold decode
    split
    · simp only [List.length_cons, Codec.aethLen] at h
      omega
    · rfl
  · rw [decodeChecked, if_neg h]
    match front, hfront with
    | [_, _, _, _], _ => rfl

namespace Codec

variable (input : List UInt8)

/-- `Ipv4Header::decode` with checked accesses. -/
def Ipv4Header.decodeChecked : Checked WireError Ipv4Header :=
  if input.length < ipv4HeaderLen then fail (.bufferTooShort ipv4HeaderLen input.length)
  else do
    if (← index input 0) >>> 4 ≠ 4 then fail .invalidIpv4Header
    else if (← index input 0) &&& 0x0f ≠ 5 then fail .unsupportedIpv4Options
    else if internetChecksum (← window input 0 ipv4HeaderLen) ≠ 0 then fail .invalidIpv4Header
    else
      let flagsFragment := u16FromBe (← octets input 6 2)
      .ok
        { dscpEcn := ← index input 1
          totalLength := u16FromBe (← octets input 2 2)
          identification := u16FromBe (← octets input 4 2)
          dontFragment := flagsFragment &&& 0x4000 != 0
          moreFragments := flagsFragment &&& 0x2000 != 0
          fragmentOffset := flagsFragment &&& 0x1fff
          ttl := ← index input 8
          protocol := ← index input 9
          source :=
            .octets (← index input 12) (← index input 13) (← index input 14) (← index input 15)
          destination :=
            .octets (← index input 16) (← index input 17) (← index input 18) (← index input 19) }

theorem Ipv4Header.decodeChecked_eq_lift : ∀ input, decodeChecked input = lift (decode input) := by
  refine eq_lift_of_front ipv4HeaderLen (fun input h ↦ ?_) fun front rest hfront h ↦ ?_
  · rw [decodeChecked, if_pos h]
    unfold decode
    split
    · simp only [List.length_cons, ipv4HeaderLen] at h
      omega
    · rfl
  · rw [decodeChecked, if_neg h, window_eq (Nat.zero_le _) (Nat.not_lt.mp h)]
    match front, hfront with
    | [b₀, b₁, b₂, b₃, b₄, b₅, b₆, b₇, b₈, b₉, _, _, b₁₂, b₁₃, b₁₄, b₁₅, b₁₆, b₁₇, b₁₈, b₁₉], _ =>
      simp only [decode, List.cons_append, lift_ite]
      rfl

def UdpHeader.decodeChecked : Checked WireError UdpHeader :=
  if input.length < udpHeaderLen then fail (.bufferTooShort udpHeaderLen input.length)
  else do
    .ok ⟨u16FromBe (← octets input 0 2), u16FromBe (← octets input 2 2),
      u16FromBe (← octets input 4 2), u16FromBe (← octets input 6 2)⟩

theorem UdpHeader.decodeChecked_eq_lift : ∀ input, decodeChecked input = lift (decode input) := by
  refine eq_lift_of_front udpHeaderLen (fun input h ↦ ?_) fun front rest hfront h ↦ ?_
  · rw [decodeChecked, if_pos h]
    unfold decode
    split
    · simp only [List.length_cons, udpHeaderLen] at h
      omega
    · rfl
  · rw [decodeChecked, if_neg h]
    match front, hfront with
    | [_, _, _, _, _, _, _, _], _ => rfl

/-! ## Transport packets -/

/-- The parser's step for an optional header with checked accesses. -/
def optionalHeaderChecked {α : Type} (present : Bool) (input : List UInt8) (cursor size : ℕ)
    (decode : ℕ → ℕ → Checked WireError α) : Checked WireError (Option α × ℕ) :=
  if present then do
    let stop ← lift (checkedAdd cursor size)
    if stop > input.length then fail (.bufferTooShort stop input.length)
    else
      let value ← decode cursor stop
      .ok (some value, stop)
  else .ok (none, cursor)

theorem optionalHeaderChecked_eq_lift {α : Type} {present : Bool} {input : List UInt8}
    {cursor size : ℕ} {decode : ℕ → ℕ → Checked WireError α}
    {decode' : List UInt8 → Except WireError α}
    (h : cursor + size ≤ input.length →
      decode cursor (cursor + size) = lift (decode' (slice input cursor (cursor + size)))) :
    optionalHeaderChecked present input cursor size decode =
      lift (optionalHeader present input cursor size decode') := by
  cases present with
  | false => rfl
  | true =>
    rw [optionalHeaderChecked, optionalHeader, if_pos rfl, if_pos rfl, lift_bind]
    unfold checkedAdd
    split
    · simp only [lift_ok, ok_bind, lift_ite, lift_bind, lift_error]
      split
      · rfl
      · rw [h (by omega)]
    · rfl

/-- The end of `PacketRef::parse` with checked accesses. -/
def parsePayloadChecked (options : ParseOptions) (bth : Bth)
    (reth : Option Reth) (aeth : Option Aeth) (immediateData : Option UInt32) (cursor : ℕ) :
    Checked WireError PacketRef := do
  let trailer ← lift (checkedAdd bth.padCount.toNat icrcLen)
  if input.length < cursor + trailer then
    fail (.lengthMismatch (cursor + trailer) input.length)
  else
    let payloadEnd ← sub input.length trailer
    let paddingEnd ← sub input.length icrcLen
    let payload ← window input cursor payloadEnd
    let padding ← window input payloadEnd paddingEnd
    if options.rejectUnexpectedPayload && !bth.opcode.allowsPayload && !payload.isEmpty then
      fail (.headerMismatch bth.opcode.asU8 "no payload")
    else if options.requireZeroPadding && padding.any (· != 0) then fail .nonZeroPadding
    else
      let icrc := u32FromLe (← octets input paddingEnd 4)
      .ok ⟨bth, reth, aeth, immediateData, payload, padding, icrc⟩

theorem parsePayloadChecked_eq_lift (options : ParseOptions) (bth : Bth)
    (reth : Option Reth) (aeth : Option Aeth) (immediateData : Option UInt32) (cursor : ℕ) :
    parsePayloadChecked input options bth reth aeth immediateData cursor =
      lift (parsePayload input options bth reth aeth immediateData cursor) := by
  have hpad := bth.padCount.toNat_lt
  have hicrc : icrcLen = 4 := rfl
  have htrailer : checkedAdd bth.padCount.toNat icrcLen = .ok (bth.padCount.toNat + icrcLen) :=
    if_pos (by omega)
  rw [parsePayloadChecked, parsePayload, htrailer, lift_ok, ok_bind, lift_bind, lift_ok, ok_bind,
    lift_ite]
  refine ite_congr rfl (fun _ ↦ rfl) fun h ↦ ?_
  rw [Nat.not_lt] at h
  rw [sub_eq (by omega), ok_bind, sub_eq (by omega), ok_bind, window_eq (by omega) (by omega),
    ok_bind, window_eq (by omega) (by omega), ok_bind, octets_eq (by omega), lift_ite, lift_ite]
  rfl

/-- `PacketRef::parse` with checked accesses. -/
def PacketRef.parseChecked (options : ParseOptions) :
    Checked WireError PacketRef :=
  if input.length < bthLen + icrcLen then
    fail (.bufferTooShort (bthLen + icrcLen) input.length)
  else do
    let bth ← Bth.decodeChecked input
    let (reth, cursor) ← optionalHeaderChecked bth.opcode.hasReth input bthLen rethLen
      fun cursor stop ↦ do Reth.decodeChecked (← window input cursor stop)
    let (aeth, cursor) ← optionalHeaderChecked bth.opcode.hasAeth input cursor aethLen
      fun cursor stop ↦ do Aeth.decodeChecked (← window input cursor stop)
    let (immediateData, cursor) ← optionalHeaderChecked bth.opcode.hasImmediate input cursor 4
      fun cursor _ ↦ do .ok (u32FromBe (← octets input cursor 4))
    parsePayloadChecked input options bth reth aeth immediateData cursor

/-- **The parser accesses its input within bounds.** -/
theorem PacketRef.parseChecked_eq_lift (options : ParseOptions) :
    parseChecked input options = lift (parse input options) := by
  have hreth (present : Bool) (cursor : ℕ) :
      optionalHeaderChecked present input cursor rethLen
          (fun cursor stop ↦ do Reth.decodeChecked (← window input cursor stop)) =
        lift (optionalHeader present input cursor rethLen Reth.decode) :=
    optionalHeaderChecked_eq_lift fun h ↦ by
      rw [window_eq (Nat.le_add_right _ _) h, ok_bind, Reth.decodeChecked_eq_lift]
  have haeth (present : Bool) (cursor : ℕ) :
      optionalHeaderChecked present input cursor aethLen
          (fun cursor stop ↦ do Aeth.decodeChecked (← window input cursor stop)) =
        lift (optionalHeader present input cursor aethLen Aeth.decode) :=
    optionalHeaderChecked_eq_lift fun h ↦ by
      rw [window_eq (Nat.le_add_right _ _) h, ok_bind, Aeth.decodeChecked_eq_lift]
  have himm (present : Bool) (cursor : ℕ) :
      optionalHeaderChecked present input cursor 4
          (fun cursor _ ↦ do .ok (u32FromBe (← octets input cursor 4))) =
        lift (optionalHeader present input cursor 4 decodeImmediate) :=
    optionalHeaderChecked_eq_lift fun h ↦ by
      rw [octets_eq h, ok_bind]
      rfl
  rw [parseChecked, parse, lift_ite]
  refine ite_congr rfl (fun _ ↦ rfl) fun _ ↦ ?_
  simp only [lift_bind, Bth.decodeChecked_eq_lift, hreth, haeth, himm, parsePayloadChecked_eq_lift]

/-! ## Complete packets -/

/-- `Icrc::compute_ipv4` with checked accesses. -/
def Icrc.computeIpv4Checked (ipv4Header udpHeader transport : List UInt8) :
    Checked WireError UInt32 := do
  -- the second operand of `||` is evaluated behind the first
  if ipv4Header.length < 20 then fail .invalidIpv4Header
  else if (← index ipv4Header 0) >>> 4 ≠ 4 then fail .invalidIpv4Header
  else
    let ihl := ((← index ipv4Header 0) &&& 0x0f).toNat * 4
    if ¬ (20 ≤ ihl ∧ ihl ≤ 60) ∨ ipv4Header.length < ihl then fail .invalidIpv4Header
    else if udpHeader.length < 8 then fail (.bufferTooShort 8 udpHeader.length)
    else if transport.length < bthLen then fail (.bufferTooShort bthLen transport.length)
    else
      let bthOffset := ihl + 8
      let headerLength := bthOffset + bthLen
      let headers := List.replicate (60 + 8 + bthLen) 0
      let headers ← copy headers 0 ihl (← window ipv4Header 0 ihl)
      let headers ← copy headers ihl bthOffset (← window udpHeader 0 8)
      let headers ← copy headers bthOffset headerLength (← window transport 0 bthLen)
      let headers ← store headers 1 0xff
      let headers ← store headers 8 0xff
      let headers ← copy headers 10 12 [0xff, 0xff]
      let headers ← copy headers (ihl + 6) (ihl + 8) [0xff, 0xff]
      let headers ← store headers (bthOffset + 4) 0xff
      let crc := update icrcSeed (← window headers 0 headerLength)
      .ok (finalize (update crc (← window transport bthLen transport.length)))

theorem Icrc.computeIpv4Checked_eq_lift (ipv4Header udpHeader transport : List UInt8) :
    computeIpv4Checked ipv4Header udpHeader transport =
      lift (computeIpv4 ipv4Header udpHeader transport) := by
  have hbth : bthLen = 12 := rfl
  unfold computeIpv4Checked computeIpv4
  by_cases hshort : ipv4Header.length < 20
  · rw [if_pos hshort]
    dsimp only
    rw [if_pos (.inl hshort)]
    rfl
  · obtain ⟨version, rest, rfl⟩ := List.exists_cons_of_length_pos (by omega : 0 < ipv4Header.length)
    have hindex : (index (version :: rest) 0 : Checked WireError UInt8) = .ok version := rfl
    rw [if_neg hshort, hindex, ok_bind]
    simp only [hshort, false_or, List.getD_cons_zero, ok_bind, lift_ite]
    generalize (version &&& 0x0f).toNat * 4 = ihl
    refine ite_congr rfl (fun _ ↦ rfl) fun _ ↦ ite_congr rfl (fun _ ↦ rfl) fun hihl ↦
      ite_congr rfl (fun _ ↦ rfl) fun hudp ↦ ite_congr rfl (fun _ ↦ rfl) fun htransport ↦ ?_
    obtain ⟨⟨hmin, hmax⟩, hheader⟩ : (20 ≤ ihl ∧ ihl ≤ 60) ∧ ihl ≤ (version :: rest).length := by
      rw [not_or, not_not, Nat.not_lt] at hihl
      exact hihl
    have hwindow : (window transport bthLen transport.length : Checked WireError _) =
        .ok (transport.drop bthLen) := by
      rw [window_eq (by omega) le_rfl, slice, List.take_length]
    rw [window_eq (Nat.zero_le _) hheader, window_eq (Nat.zero_le _) (Nat.not_lt.mp hudp),
      window_eq (Nat.zero_le _) (Nat.not_lt.mp htransport), hwindow]
    simp only [ok_bind]
    -- the copy keeps its eighty bytes through every write
    have hlength₀ : (List.replicate 80 (0 : UInt8)).length = 80 := List.length_replicate
    obtain ⟨h₁, hlength₁⟩ := copy_eq WireError hlength₀ (Nat.zero_le ihl) (by omega)
      (length_slice 0 hheader)
    obtain ⟨h₂, hlength₂⟩ := copy_eq WireError hlength₁ (Nat.le_add_right ihl 8) (by omega)
      ((length_slice 0 (Nat.not_lt.mp hudp)).trans (by omega))
    obtain ⟨h₃, hlength₃⟩ := copy_eq WireError hlength₂ (Nat.le_add_right (ihl + 8) bthLen)
      (by omega) ((length_slice 0 (Nat.not_lt.mp htransport)).trans (by omega))
    obtain ⟨h₄, hlength₄⟩ := store_eq WireError 0xff hlength₃ (by decide : 1 < 80)
    obtain ⟨h₅, hlength₅⟩ := store_eq WireError 0xff hlength₄ (by decide : 8 < 80)
    obtain ⟨h₆, hlength₆⟩ := copy_eq WireError hlength₅ (by decide : 10 ≤ 12) (by decide)
      (by rfl : [(0xff : UInt8), 0xff].length = 12 - 10)
    obtain ⟨h₇, hlength₇⟩ := copy_eq WireError hlength₆ (by omega : ihl + 6 ≤ ihl + 8) (by omega)
      (by simp : [(0xff : UInt8), 0xff].length = ihl + 8 - (ihl + 6))
    obtain ⟨h₈, hlength₈⟩ := store_eq WireError 0xff hlength₇ (by omega : ihl + 8 + 4 < 80)
    simp only [show 60 + 8 + bthLen = 80 from rfl, h₁, h₂, h₃, h₄, h₅, h₆, h₇, h₈, ok_bind]
    rw [window_eq (Nat.zero_le _) (by omega), ok_bind]
    rfl

def PacketRef.verifyIcrcChecked (packet : PacketRef)
    (fullTransport ipv4Header udpHeader : List UInt8) : Checked WireError Unit :=
  if fullTransport.length < icrcLen then
    fail (.bufferTooShort icrcLen fullTransport.length)
  else do
    let stop ← sub fullTransport.length icrcLen
    let computed ← Icrc.computeIpv4Checked ipv4Header udpHeader (← window fullTransport 0 stop)
    if computed ≠ packet.icrc then fail (.icrcMismatch packet.icrc computed) else .ok ()

theorem PacketRef.verifyIcrcChecked_eq_lift (packet : PacketRef)
    (fullTransport ipv4Header udpHeader : List UInt8) :
    packet.verifyIcrcChecked fullTransport ipv4Header udpHeader =
      lift (packet.verifyIcrc fullTransport ipv4Header udpHeader) := by
  rw [verifyIcrcChecked, verifyIcrc, lift_ite]
  refine ite_congr rfl (fun _ ↦ rfl) fun h ↦ ?_
  rw [sub_eq (Nat.not_lt.mp h), ok_bind, window_eq (Nat.zero_le _) (Nat.sub_le _ _), ok_bind,
    Icrc.computeIpv4Checked_eq_lift, lift_bind]
  simp only [lift_ite]
  rfl

/-- `decode_ipv4_packet` with checked accesses. -/
def decodeIpv4PacketChecked : Checked ApiError DecodedPacket :=
  if input.length < minRoceIpv4Packet then
    fail (.bufferTooShort minRoceIpv4Packet input.length)
  else do
    let ipv4Bytes ← window input 0 ipv4HeaderLen
    let ipv4 ← convert .wire (Ipv4Header.decodeChecked ipv4Bytes)
    if ipv4.protocol ≠ ipProtocolUdp then fail (.invalidIpv4Protocol ipv4.protocol)
    else if ipv4.moreFragments = true ∨ ipv4.fragmentOffset ≠ 0 then fail .fragmentedIpv4
    else
      let ipv4Length := ipv4.totalLength.toNat
      if ipv4Length ≠ input.length then fail (.wire (.lengthMismatch ipv4Length input.length))
      else
        let udpStart := ipv4HeaderLen
        let transportStart := udpStart + udpHeaderLen
        let udpBytes ← window input udpStart transportStart
        let udp ← convert .wire (UdpHeader.decodeChecked udpBytes)
        if udp.destinationPort ≠ roceV2UdpPort then
          fail (.invalidRoceDestinationPort udp.destinationPort)
        else if ipv4Length < ipv4HeaderLen then fail .arithmeticOverflow
        else
          let actualUdpLength := ipv4Length - ipv4HeaderLen
          let declaredUdpLength := udp.length.toNat
          if declaredUdpLength < udpHeaderLen ∨ declaredUdpLength ≠ actualUdpLength then
            fail (.invalidUdpLength declaredUdpLength actualUdpLength)
          else
            let transportBytes ← window input transportStart ipv4Length
            let transport ← convert .wire (PacketRef.parseChecked transportBytes .strict)
            convert .wire (transport.verifyIcrcChecked transportBytes ipv4Bytes udpBytes)
            .ok ⟨ipv4, udp, transport⟩

/-- **The decoder accesses its input within bounds.** -/
theorem decodeIpv4PacketChecked_eq_lift :
    decodeIpv4PacketChecked input = lift (decodeIpv4Packet input) := by
  have hipv4Len : ipv4HeaderLen = 20 := rfl
  have hudpLen : udpHeaderLen = 8 := rfl
  rw [decodeIpv4PacketChecked, decodeIpv4Packet, lift_ite]
  refine ite_congr rfl (fun _ ↦ rfl) fun hroom ↦ ?_
  rw [minRoceIpv4Packet, Nat.not_lt] at hroom
  rw [window_eq (Nat.zero_le _) (by omega), ok_bind]
  simp only [lift_bind, lift_ite, Ipv4Header.decodeChecked_eq_lift,
    UdpHeader.decodeChecked_eq_lift, PacketRef.parseChecked_eq_lift,
    PacketRef.verifyIcrcChecked_eq_lift, convert_lift]
  refine bind_congr fun ipv4 ↦ ite_congr rfl (fun _ ↦ rfl) fun _ ↦ ite_congr rfl (fun _ ↦ rfl)
    fun _ ↦ ite_congr rfl (fun _ ↦ rfl) fun htotal ↦ ?_
  rw [window_eq (Nat.le_add_right _ _) (by omega), ok_bind]
  refine bind_congr fun udp ↦ ite_congr rfl (fun _ ↦ rfl) fun _ ↦ ite_congr rfl (fun _ ↦ rfl)
    fun _ ↦ ite_congr rfl (fun _ ↦ rfl) fun _ ↦ ?_
  -- the transport bytes end where the header says, which is where the input ends
  rw [window_eq (by omega) (by omega), ok_bind]
  rfl

/-- The parts of a transport packet, as bytes. -/
structure PacketParts where
  bth : List UInt8
  reth : List UInt8
  aeth : List UInt8
  immediateData : List UInt8
  payload : List UInt8
  padding : List UInt8
  icrc : List UInt8

def PacketParts.concat (parts : PacketParts) : List UInt8 :=
  parts.bth ++ parts.reth ++ parts.aeth ++ parts.immediateData ++ parts.payload ++ parts.padding ++
    parts.icrc

/-- The parts have the sizes that the opcode and the pad count give them, and every field of the
packet is the value of its part. -/
structure PacketParts.Of (parts : PacketParts) (packet : PacketRef) : Prop where
  bth : parts.bth.length = 12 ∧ packet.bth.Valid ∧ parts.bth = packet.bth.bytes
  reth : parts.reth.length = if packet.bth.opcode.hasReth then 16 else 0
  rethValue : packet.reth =
    if packet.bth.opcode.hasReth then
      some ⟨u64FromBe (slice parts.reth 0 8), u32FromBe (slice parts.reth 8 12),
        u32FromBe (slice parts.reth 12 16)⟩
    else none
  aeth : parts.aeth.length = if packet.bth.opcode.hasAeth then 4 else 0
  aethValue : packet.aeth =
    if packet.bth.opcode.hasAeth then
      some ⟨(u32FromBe parts.aeth >>> 24).toUInt8, (u32FromBe parts.aeth &&& psnMask).toNat⟩
    else none
  immediateData : parts.immediateData.length = if packet.bth.opcode.hasImmediate then 4 else 0
  immediateValue : packet.immediateData =
    if packet.bth.opcode.hasImmediate then some (u32FromBe parts.immediateData) else none
  payload : parts.payload = packet.payload
  padding : parts.padding = packet.padding ∧ packet.padding.length = packet.bth.padCount.toNat
  icrc : parts.icrc.length = 4 ∧ packet.icrc = u32FromLe parts.icrc

theorem PacketRef.Framed.parts {packet : PacketRef} (h : packet.Framed) :
    ∃ parts : PacketParts, parts.Of packet ∧ packet.bytes = parts.concat := by
  refine ⟨⟨packet.bth.bytes, optionalBytes Reth.layout packet.reth,
    optionalBytes Aeth.layout packet.aeth, optionalBytes immediateLayout packet.immediateData,
    packet.payload, packet.padding, toLe 4 packet.icrc.toNat⟩, ?_, rfl⟩
  have hreth := h.reth
  have haeth := h.aeth
  have himm := h.immediateData
  constructor
  case bth => exact ⟨Bth.layout.length_bytes _, h.bth, rfl⟩
  case reth => rw [length_optionalBytes, h.reth]; rfl
  case rethValue =>
    cases hvalue : packet.reth with
    | none => rw [hvalue] at hreth; rw [← hreth]; rfl
    | some reth =>
      rw [hvalue] at hreth
      rw [← hreth]
      have hdecode : Reth.decode reth.bytes = .ok reth :=
        (Reth.reads_decode.window (Reth.layout.length_bytes reth) reth).mpr ⟨trivial, rfl⟩
      exact congrArg some (Except.ok.inj hdecode).symm
  case aeth => rw [length_optionalBytes, h.aeth]; rfl
  case aethValue =>
    cases hvalue : packet.aeth with
    | none => rw [hvalue] at haeth; rw [← haeth]; rfl
    | some aeth =>
      rw [hvalue] at haeth
      rw [← haeth]
      have hdecode : Aeth.decode aeth.bytes = .ok aeth :=
        (Aeth.reads_decode.window (Aeth.layout.length_bytes aeth) aeth).mpr
          ⟨h.aethValid aeth hvalue, rfl⟩
      exact congrArg some (Except.ok.inj hdecode).symm
  case immediateData => rw [length_optionalBytes, h.immediateData]; rfl
  case immediateValue =>
    cases hvalue : packet.immediateData with
    | none => rw [hvalue] at himm; rw [← himm]; rfl
    | some value =>
      rw [hvalue] at himm
      rw [← himm]
      exact congrArg some (u32FromBe_toBe value).symm
  case payload => rfl
  case padding => exact ⟨rfl, h.padding⟩
  case icrc => exact ⟨length_toLe 4 _, (u32FromLe_toLe packet.icrc).symm⟩

/-- **Parsing is total and partitions the input.**  No access of the parser lies outside its input,
whatever the options, and an accepted input is the concatenation of the parts of the packet that is
returned.  No access of the decoder lies outside its input either, and the input it accepts is as
long as the IPv4 header and the UDP header say. -/
theorem parsing_total_and_partitions (input : List UInt8) :
    (∀ options, PacketRef.parseChecked input options ≠ .error .panicked ∧
      ∀ packet, PacketRef.parseChecked input options = .ok packet →
        ∃ parts : PacketParts, parts.Of packet ∧ input = parts.concat) ∧
      decodeIpv4PacketChecked input ≠ .error .panicked ∧
      ∀ decoded, decodeIpv4PacketChecked input = .ok decoded →
        input.length = decoded.ipv4.totalLength.toNat ∧
          input.length = decoded.udp.length.toNat + 20 := by
  refine ⟨fun options ↦ ⟨?_, fun packet hparse ↦ ?_⟩, ?_, fun decoded hdecode ↦ ?_⟩
  · rw [PacketRef.parseChecked_eq_lift]
    exact lift_ne_panic _
  · rw [PacketRef.parseChecked_eq_lift, lift_eq_ok, parse_eq_ok_iff] at hparse
    obtain ⟨hframed, -, rfl⟩ := hparse
    exact hframed.parts
  · rw [decodeIpv4PacketChecked_eq_lift]
    exact lift_ne_panic _
  · rw [decodeIpv4PacketChecked_eq_lift, lift_eq_ok, decodeIpv4Packet_eq_ok] at hdecode
    obtain ⟨ipv4Bytes, udpBytes, h, rfl⟩ := hdecode
    have hipv4Len : ipv4HeaderLen = 20 := rfl
    have htotal := h.totalLength
    have hlength := h.length
    rw [List.length_append, List.length_append, h.ipv4Length, h.udpLength]
    omega

end Codec

end Rocev2.Wire
