import Rocev2.Rc.Reachable
import Rocev2.Wire.Codec.Datagram

/-!
# The bytes of outgoing packets

The engine builds every data packet twice in `rocev2/src/rc.rs`: the scalar functions copy the
payload through a scratch buffer of the endpoint, the batched ones borrow it from registered memory
when the packet is encoded.  This module embeds both at the level of the codec's `PacketSpec`, each
function by itself, and shows that each yields the one packet of the engine's model
(`buildRequestPacket_eq`, `prepareRequestBatchPacket_eq` and the same for READ responses).  What is
put on the wire is therefore the same, byte for byte.
-/

namespace Rocev2.Wire.Codec

/-- Construct a conventional RC header. -/
def Bth.new (opcode : Opcode) (destinationQpn psn : UInt32) : Bth where
  opcode := opcode
  solicitedEvent := false
  migrationRequest := false
  padCount := 0
  transportVersion := 0
  partitionKey := 0xffff
  fecn := false
  becn := false
  destinationQpn := destinationQpn
  ackRequest := false
  psn := psn

end Rocev2.Wire.Codec

namespace Rocev2.Rc

open Rocev2.Core Rocev2.Memory Lib Lib.Bytes Wire Wire.Codec

variable {QPS MRS SQ RQ CQ IDX : ℕ}

namespace Bytes

variable {payloadScratch payload : List UInt8} {length : ℕ} {memory : MemoryRegistry MRS}

/-! ## The scalar functions -/

/-- The size of the scratch buffer. -/
def maxMtuBytes : ℕ := 4096

def readLocalSegment (memory : MemoryRegistry MRS) (work : WorkRequest) (offset : ℕ)
    (output : List UInt8) : Except MemoryError (List UInt8) :=
  match checkedAdd work.sge.address offset with
  | none => .error .addressOverflow
  | some address => memory.readLocal work.sge.lkey address output.length

/-- The rest of `build_request_packet` for a SEND or WRITE: the payload stands in the scratch
buffer. -/
def buildSegmentedPacket (memory : MemoryRegistry MRS) (payloadScratch : List UInt8)
    (active : ActiveRequest) (mtu : ℕ) (remoteQpn : UInt32) (direction : TransferDirection)
    (remote : Option (UInt64 × UInt32)) : Except RequestPacketError PacketSpec :=
  match segmentBounds active.work.sge.length mtu active.nextPacket with
  | none => .error .arithmeticOverflow
  | some (offset, length) =>
    match within payloadScratch 0 length (readLocalSegment memory active.work offset) with
    | .error _ => .error .localProtection
    | .ok payloadScratch =>
      let opcode := segmentedOpcode direction active.nextPacket active.packetCount
      let bth := Codec.Bth.new opcode remoteQpn
        (UInt32.ofNat (active.firstPsn.wrappingAdd active.nextPacket).value)
      let bth := { bth with ackRequest := decide (active.nextPacket + 1 = active.packetCount) }
      let reth := remote.bind fun (remoteAddress, rkey) ↦
        if active.nextPacket = 0 then some ⟨remoteAddress, rkey, active.work.sge.length⟩ else none
      .ok ⟨bth, reth, none, none, slice payloadScratch 0 length⟩

/-- Build the next packet of the active request. -/
def buildRequestPacket (memory : MemoryRegistry MRS) (payloadScratch : List UInt8)
    (active : ActiveRequest) (mtu : ℕ) (remoteQpn : UInt32) :
    Except RequestPacketError PacketSpec :=
  match active.work.kind with
  | .send => buildSegmentedPacket memory payloadScratch active mtu remoteQpn .send none
  | .rdmaWrite remoteAddress rkey =>
    buildSegmentedPacket memory payloadScratch active mtu remoteQpn .write
      (some (remoteAddress, rkey))
  | .rdmaRead remoteAddress rkey =>
    let bth := Codec.Bth.new .rdmaReadRequest remoteQpn (UInt32.ofNat active.firstPsn.value)
    let bth := { bth with ackRequest := true }
    .ok ⟨bth, some ⟨remoteAddress, rkey, active.work.sge.length⟩, none, none, []⟩

/-- The packet of `emit_read_response`; `none` when the source cannot be read. -/
def readResponsePacket (memory : MemoryRegistry MRS) (payloadScratch : List UInt8)
    (ready : ReadyReadResponse QPS) : Except ApiError (Option PacketSpec) :=
  match readResponseSegment ready.response ready.mtu with
  | .error e => .error e
  | .ok (address, payloadLength) =>
    match within payloadScratch 0 payloadLength
        (fun output ↦ memory.readRemote ready.response.rkey address output.length) with
    | .error _ => .ok none
    | .ok payloadScratch =>
      let opcode :=
        segmentedOpcode .readResponse ready.response.nextPacket ready.response.packetCount
      let bth := Codec.Bth.new opcode (UInt32.ofNat ready.remoteQpn) (UInt32.ofNat
        (ready.response.requestPsn.wrappingAdd ready.response.nextPacket).value)
      let aeth := if opcode.hasAeth then some (.ack ready.messageSequenceNumber.value) else none
      .ok (some ⟨bth, none, aeth, none, slice payloadScratch 0 payloadLength⟩)

/-- The bytes that `transmit_packet` hands to the backend. -/
def transmitPacket (maximumPacketSize : ℕ) (path : Ipv4Path) (packet : PacketSpec)
    (output : List UInt8) : Except Codec.ApiError (List UInt8) := do
  let (length, output) ← Codec.encodeIpv4Packet path packet output
  if maximumPacketSize < length then .error (.packetTooLarge length maximumPacketSize)
  else .ok (slice output 0 length)

/-! ## The batched functions -/

/-- A packet whose payload has been validated but not yet read. -/
structure PreparedWirePacket where
  path : Ipv4Path
  bth : Codec.Bth
  reth : Option Reth
  aeth : Option Aeth
  payload : PreparedPayload

/-- Prepare the next packet of a SEND or WRITE. -/
def prepareSegmentedBatchPacket (memory : MemoryRegistry MRS) (active : ActiveRequest) (mtu : ℕ)
    (remoteQpn : UInt32) (path : Ipv4Path) (direction : TransferDirection)
    (remote : Option (UInt64 × UInt32)) : Except RequestPacketError PreparedWirePacket :=
  match segmentBounds active.work.sge.length mtu active.nextPacket with
  | none => .error .arithmeticOverflow
  | some (offset, length) =>
    match checkedAdd active.work.sge.address offset with
    | none => .error .arithmeticOverflow
    | some address =>
      match memory.validateLocalRead active.work.sge.lkey address length with
      | .error _ => .error .localProtection
      | .ok () =>
        let opcode := segmentedOpcode direction active.nextPacket active.packetCount
        let bth := Codec.Bth.new opcode remoteQpn
          (UInt32.ofNat (active.firstPsn.wrappingAdd active.nextPacket).value)
        let bth := { bth with ackRequest := decide (active.nextPacket + 1 = active.packetCount) }
        let reth := remote.bind fun (remoteAddress, rkey) ↦
          if active.nextPacket = 0 then some ⟨remoteAddress, rkey, active.work.sge.length⟩
          else none
        .ok ⟨path, bth, reth, none, .loc active.work.sge.lkey address length⟩

/-- Prepare the next packet of the active request. -/
def prepareRequestBatchPacket (memory : MemoryRegistry MRS) (active : ActiveRequest) (mtu : ℕ)
    (remoteQpn : UInt32) (path : Ipv4Path) : Except RequestPacketError PreparedWirePacket :=
  match active.work.kind with
  | .send => prepareSegmentedBatchPacket memory active mtu remoteQpn path .send none
  | .rdmaWrite remoteAddress rkey =>
    prepareSegmentedBatchPacket memory active mtu remoteQpn path .write
      (some (remoteAddress, rkey))
  | .rdmaRead remoteAddress rkey =>
    let bth := Codec.Bth.new .rdmaReadRequest remoteQpn (UInt32.ofNat active.firstPsn.value)
    let bth := { bth with ackRequest := true }
    .ok ⟨path, bth, some ⟨remoteAddress, rkey, active.work.sge.length⟩, none, .empty⟩

/-- The packet of `prepare_read_response_batch`; `none` when the source cannot be read. -/
def prepareReadResponse (memory : MemoryRegistry MRS) (ready : ReadyReadResponse QPS) :
    Except ApiError (Option PreparedWirePacket) :=
  match readResponseSegment ready.response ready.mtu with
  | .error e => .error e
  | .ok (address, payloadLength) =>
    match memory.validateRemoteRead ready.response.rkey address payloadLength with
    | .error _ => .ok none
    | .ok () =>
      let opcode :=
        segmentedOpcode .readResponse ready.response.nextPacket ready.response.packetCount
      let bth := Codec.Bth.new opcode (UInt32.ofNat ready.remoteQpn) (UInt32.ofNat
        (ready.response.requestPsn.wrappingAdd ready.response.nextPacket).value)
      let aeth := if opcode.hasAeth then some (.ack ready.messageSequenceNumber.value) else none
      .ok (some ⟨ready.path, bth, none, aeth, .remote ready.response.rkey address payloadLength⟩)

/-- Failure to encode a prepared packet. -/
inductive EncodeError where
  | memory (error : MemoryError)
  | api (error : Codec.ApiError)
deriving DecidableEq, Repr

def borrowedPayload (memory : MemoryRegistry MRS) :
    PreparedPayload → Except MemoryError (List UInt8)
  | .empty => .ok []
  | .loc lkey address length => memory.readLocal lkey address length
  | .remote rkey address length => memory.readRemote rkey address length

/-- Encode a prepared packet into the buffer of a frame; the result is what the frame transmits. -/
def encodeBatchPacket (memory : MemoryRegistry MRS) (maximumPacketSize : ℕ)
    (prepared : PreparedWirePacket) (output : List UInt8) : Except EncodeError (List UInt8) := do
  let payload ← (borrowedPayload memory prepared.payload).mapError .memory
  let (length, output) ← (Codec.encodeIpv4Packet prepared.path
    ⟨prepared.bth, prepared.reth, prepared.aeth, none, payload⟩ output).mapError .api
  if maximumPacketSize < length then .error (.api (.packetTooLarge length maximumPacketSize))
  else .ok (slice output 0 length)

/-! ## The packets of the engine -/

/-- A packet of the engine's model, with every header field of the wire. -/
def specOf (packet : WirePacket) : PacketSpec where
  bth :=
    { Codec.Bth.new packet.bth.opcode (UInt32.ofNat packet.bth.destinationQpn)
        (UInt32.ofNat packet.bth.psn.value) with
      partitionKey := packet.bth.partitionKey
      ackRequest := packet.bth.ackRequest }
  reth := packet.reth
  aeth := packet.aeth
  immediateData := none
  payload := packet.payload

/-- A prepared packet of the engine's model. -/
def preparedOf (prepared : Rc.PreparedWirePacket) : PreparedWirePacket :=
  ⟨prepared.header.path, (specOf prepared.header).bth, prepared.header.reth, prepared.header.aeth,
    prepared.payload⟩

theorem within_scratch {ε : Type} {read : List UInt8 → Except ε (List UInt8)}
    {result : Except ε (List UInt8)} (hroom : length ≤ payloadScratch.length)
    (hread : ∀ output, output.length = length → read output = result) :
    within payloadScratch 0 length read = result.map (splice payloadScratch 0) := by
  have hwindow : (slice payloadScratch 0 (0 + length)).length = length := by
    rw [Nat.zero_add, length_slice 0 hroom, Nat.sub_zero]
  rw [within, hread _ hwindow]
  cases result <;> rfl

theorem slice_scratch (h : payload.length = length) :
    slice (splice payloadScratch 0 payload) 0 length = payload :=
  slice_middle (by rw [splice_zero, fill, List.nil_append]) rfl (by rw [h, Nat.zero_add])

theorem length_of_read {kind : KeyKind} {required : AccessFlags} {key : UInt32} {address : UInt64}
    (h : memory.read kind required key address length = .ok payload) : payload.length = length := by
  rw [(MemoryRegistry.read_eq_ok.mp h).1, length_copyFromRegistered]

theorem length_of_readLocalSegment {work : WorkRequest} {offset : ℕ}
    (h : Rc.readLocalSegment memory work offset length = .ok payload) :
    payload.length = length := by
  unfold Rc.readLocalSegment at h
  split at h
  · cases h
  · exact length_of_read h

theorem within_readLocalSegment {work : WorkRequest} {offset : ℕ}
    (hroom : length ≤ payloadScratch.length) :
    within payloadScratch 0 length (readLocalSegment memory work offset) =
      (Rc.readLocalSegment memory work offset length).map (splice payloadScratch 0) := by
  refine within_scratch hroom fun output houtput ↦ ?_
  subst houtput
  unfold readLocalSegment Rc.readLocalSegment
  cases checkedAdd work.sge.address offset <;> rfl

section Request

variable {memory : MemoryRegistry MRS} {payloadScratch : List UInt8} {active : ActiveRequest}
  {mtu remoteQpn : ℕ} {path : Ipv4Path}

/-- **The scalar functions build the packet of the engine**, whatever the scratch buffer held. -/
theorem buildRequestPacket_eq (hroom : mtu ≤ payloadScratch.length) (path : Ipv4Path) :
    buildRequestPacket memory payloadScratch active mtu (UInt32.ofNat remoteQpn) =
      (Rc.buildRequestPacket memory active mtu remoteQpn path).map specOf := by
  have hsegmented (direction : TransferDirection) (remote : Option (UInt64 × UInt32)) :
      buildSegmentedPacket memory payloadScratch active mtu (UInt32.ofNat remoteQpn) direction
          remote =
        match segmentBounds active.work.sge.length mtu active.nextPacket with
        | none => .error .arithmeticOverflow
        | some (offset, length) =>
          match Rc.readLocalSegment memory active.work offset length with
          | .error _ => .error .localProtection
          | .ok payload =>
            .ok (specOf (segmentPacket active direction remote remoteQpn path payload)) := by
    unfold buildSegmentedPacket
    cases hbounds : segmentBounds active.work.sge.length mtu active.nextPacket with
    | none => rfl
    | some bounds =>
      obtain ⟨offset, length⟩ := bounds
      dsimp only
      rw [within_readLocalSegment ((segmentBounds_le hbounds).2.trans hroom)]
      cases hread : Rc.readLocalSegment memory active.work offset length with
      | error e => rfl
      | ok payload =>
        dsimp only [Except.map]
        rw [slice_scratch (length_of_readLocalSegment hread)]
        cases remote <;> rfl
  unfold buildRequestPacket Rc.buildRequestPacket
  cases hkind : active.work.kind with
  | rdmaRead remoteAddress rkey => rfl
  | send | rdmaWrite =>
    dsimp only [transferOf]
    rw [hsegmented]
    cases segmentBounds active.work.sge.length mtu active.nextPacket with
    | none => rfl
    | some bounds =>
      dsimp only
      cases Rc.readLocalSegment memory active.work bounds.1 bounds.2 <;> rfl

/-- **The batched functions prepare the packet of the engine.** -/
theorem prepareRequestBatchPacket_eq :
    prepareRequestBatchPacket memory active mtu (UInt32.ofNat remoteQpn) path =
      (Rc.prepareRequestBatchPacket memory active mtu remoteQpn path).map preparedOf := by
  have hsegmented (direction : TransferDirection) (remote : Option (UInt64 × UInt32)) :
      prepareSegmentedBatchPacket memory active mtu (UInt32.ofNat remoteQpn) path direction
          remote =
        (Rc.prepareSegmentedBatchPacket memory active mtu remoteQpn path direction remote).map
          preparedOf := by
    unfold prepareSegmentedBatchPacket Rc.prepareSegmentedBatchPacket
    cases segmentBounds active.work.sge.length mtu active.nextPacket with
    | none => rfl
    | some bounds =>
      dsimp only
      cases checkedAdd active.work.sge.address bounds.1 with
      | none => rfl
      | some address =>
        dsimp only
        cases memory.validateLocalRead active.work.sge.lkey address bounds.2 with
        | error e => rfl
        | ok => cases remote <;> rfl
  unfold prepareRequestBatchPacket Rc.prepareRequestBatchPacket
  cases active.work.kind with
  | rdmaRead remoteAddress rkey => rfl
  | send | rdmaWrite => exact hsegmented _ _

end Request

section Response

variable {memory : MemoryRegistry MRS} {payloadScratch : List UInt8}
  {ready : ReadyReadResponse QPS} {address : UInt64} {length : ℕ}

theorem readResponsePacket_eq (hroom : length ≤ payloadScratch.length)
    (hsegment : readResponseSegment ready.response ready.mtu = .ok (address, length))
    (hread : memory.readRemote ready.response.rkey address length = .ok payload) :
    readResponsePacket memory payloadScratch ready =
      .ok (some (specOf (Rc.readResponsePacket ready payload))) := by
  unfold readResponsePacket
  rw [hsegment]
  dsimp only
  have hcopy : within payloadScratch 0 length
      (fun output ↦ memory.readRemote ready.response.rkey address output.length) =
        (.ok payload : Except MemoryError _).map (splice payloadScratch 0) :=
    within_scratch hroom fun output houtput ↦ houtput ▸ hread
  rw [hcopy]
  dsimp only [Except.map]
  rw [slice_scratch (length_of_read hread)]
  rfl

theorem prepareReadResponse_eq
    (hsegment : readResponseSegment ready.response ready.mtu = .ok (address, length))
    (hvalid : memory.validateRemoteRead ready.response.rkey address length = .ok ()) :
    prepareReadResponse memory ready =
      .ok (some (preparedOf ⟨Rc.readResponsePacket ready [],
        .remote ready.response.rkey address length⟩)) := by
  unfold prepareReadResponse
  rw [hsegment]
  dsimp only
  rw [hvalid]
  rfl

end Response

/-! ## Encoding -/

section Encoding

variable {memory : MemoryRegistry MRS} {maximumPacketSize : ℕ} {packet : WirePacket}
  {output bytes : List UInt8} {prepared : Rc.PreparedWirePacket}

theorem mapError_eq_ok {ε ε' α : Type} {f : ε → ε'} {result : Except ε α} {value : α} :
    result.mapError f = .ok value ↔ result = .ok value := by
  cases result with
  | error e => exact ⟨fun h ↦ (by cases h), fun h ↦ (by cases h)⟩
  | ok a => exact ⟨fun h ↦ congrArg _ (Except.ok.inj h), fun h ↦ congrArg _ (Except.ok.inj h)⟩

theorem borrowedPayload_eq (hblank : prepared.header.payload = [])
    (hpacket : RcEndpoint.preparedPacket memory prepared = .ok packet) :
    borrowedPayload memory prepared.payload = .ok packet.payload ∧
      packet = { prepared.header with payload := packet.payload } := by
  unfold RcEndpoint.preparedPacket at hpacket
  unfold borrowedPayload
  cases hpayload : prepared.payload with
  | empty =>
    rw [hpayload] at hpacket
    cases hpacket
    exact ⟨by rw [hblank], rfl⟩
  | loc lkey address length =>
    rw [hpayload] at hpacket
    dsimp only at hpacket ⊢
    split at hpacket
    · cases hpacket
    · rename_i payload hread
      cases hpacket
      exact ⟨hread, rfl⟩
  | remote rkey address length =>
    rw [hpayload] at hpacket
    dsimp only at hpacket ⊢
    split at hpacket
    · cases hpacket
    · rename_i payload hread
      cases hpacket
      exact ⟨hread, rfl⟩

/-- **Encoding a prepared packet is encoding the packet it is read as.** -/
theorem encodeBatchPacket_eq_ok (hblank : prepared.header.payload = [])
    (hpacket : RcEndpoint.preparedPacket memory prepared = .ok packet) :
    encodeBatchPacket memory maximumPacketSize (preparedOf prepared) output = .ok bytes ↔
      transmitPacket maximumPacketSize packet.path (specOf packet) output = .ok bytes := by
  obtain ⟨hborrowed, hheader⟩ := borrowedPayload_eq hblank hpacket
  have hspec : (⟨(preparedOf prepared).bth, (preparedOf prepared).reth, (preparedOf prepared).aeth,
      none, packet.payload⟩ : PacketSpec) = specOf packet := by
    rw [hheader]
    rfl
  have hpath : (preparedOf prepared).path = packet.path := by
    rw [hheader]
    rfl
  simp only [encodeBatchPacket, transmitPacket, bind_eq_ok, mapError_eq_ok, guard_eq_ok, hpath]
  constructor
  · rintro ⟨payload, hpayload, written, hencode, hsize, hbytes⟩
    obtain rfl := Except.ok.inj (hpayload.symm.trans hborrowed)
    rw [hspec] at hencode
    exact ⟨written, hencode, hsize, congrArg _ (Except.ok.inj hbytes)⟩
  · rintro ⟨written, hencode, hsize, hbytes⟩
    rw [← hspec] at hencode
    exact ⟨_, hborrowed, written, hencode, hsize, congrArg _ (Except.ok.inj hbytes)⟩

theorem encodable_specOf (h : packet.validHeaders = true)
    (hdestination : packet.bth.destinationQpn ≤ maxQpn)
    (haeth : ∀ aeth ∈ packet.aeth, aeth.messageSequenceNumber < 2 ^ 24) :
    (specOf packet).Encodable := by
  have hqpn : qpnMask.toNat = maxQpn := by decide
  have hpsn : psnMask.toNat = 2 ^ 24 - 1 := by decide
  have hmax : maxQpn < 2 ^ 32 := by decide
  have hvalue := packet.bth.psn.isLt
  simp only [WirePacket.validHeaders, Bool.and_eq_true, beq_iff_eq, Bool.not_eq_true',
    Bool.or_eq_true, List.isEmpty_iff] at h
  obtain ⟨⟨⟨hreth, haethSome⟩, himmediate⟩, hpayload⟩ := h
  refine ⟨⟨?_, ?_, ?_, rfl⟩, hreth, haethSome, fun aeth hmem ↦ ?_, himmediate.symm, fun hno ↦ ?_⟩
  · change UInt32.ofNat packet.bth.destinationQpn ≤ qpnMask
    rw [UInt32.le_iff_toNat_le, UInt32.toNat_ofNat_of_lt' (hdestination.trans_lt hmax), hqpn]
    exact hdestination
  · change UInt32.ofNat packet.bth.psn.value ≤ psnMask
    rw [UInt32.le_iff_toNat_le, UInt32.toNat_ofNat_of_lt' (hvalue.trans (by decide)), hpsn]
    omega
  · rw [UInt8.le_iff_toNat_le, PacketSpec.toNat_padCount]
    exact Nat.le_of_lt_succ (PacketSpec.padCount_lt _)
  · have hlt := haeth aeth hmem
    change aeth.messageSequenceNumber ≤ psnMask.toNat
    omega
  · rcases hpayload with hallows | hempty
    · cases hallows.symm.trans hno
    · exact hempty

theorem totalLengthOf_specOf (h : packet.bth.opcode.hasImmediate = false) :
    totalLengthOf (specOf packet) = packet.encodedLength := by
  have hpad := (specOf packet).padCount_eq
  have himmediate : (specOf packet).bth.opcode.hasImmediate = false := h
  have hreth : (specOf packet).bth.opcode.hasReth = packet.bth.opcode.hasReth := rfl
  have haeth : (specOf packet).bth.opcode.hasAeth = packet.bth.opcode.hasAeth := rfl
  have hpayload : (specOf packet).payload = packet.payload := rfl
  rw [hpayload] at hpad
  simp only [totalLengthOf, PacketSpec.length, WirePacket.encodedLength, himmediate, hreth, haeth,
    hpayload, hpad, ipv4HeaderLen, udpHeaderLen, bthLen, rethLen, aethLen, icrcLen]
  simp only [Bool.false_eq_true, if_false]
  omega

/-- **What the engine's encoder accepts has the bytes of the codec**, and its length. -/
theorem encodeIpv4Packet_specOf {n : ℕ}
    (haeth : ∀ aeth ∈ packet.aeth, aeth.messageSequenceNumber < 2 ^ 24)
    (h : Rc.encodeIpv4Packet packet output.length = .ok n) :
    Codec.encodeIpv4Packet packet.path (specOf packet) output =
      .ok (n, fill output (packetBytes packet.path (specOf packet))) := by
  simp only [Rc.encodeIpv4Packet, guard_eq_ok, not_or, Bool.not_eq_false, Nat.not_lt] at h
  obtain ⟨hsmall, hroom, ⟨hheaders, hdestination⟩, hlength⟩ := h
  have himmediate : packet.bth.opcode.hasImmediate = false := by
    simp only [WirePacket.validHeaders, Bool.and_eq_true, Bool.not_eq_true'] at hheaders
    exact hheaders.1.2
  rw [← totalLengthOf_specOf himmediate] at hsmall hroom hlength
  exact encodeIpv4Packet_eq_ok.mpr ⟨encodable_specOf hheaders hdestination haeth, by omega, hroom,
    (Except.ok.inj hlength).symm, rfl⟩

theorem exists_transmitPacket {mtu : PathMtu} (h : Encodable mtu.bytes packet)
    (haeth : ∀ aeth ∈ packet.aeth, aeth.messageSequenceNumber < 2 ^ 24)
    (hmaximum : maximumPacketForMtu mtu.bytes ≤ maximumPacketSize)
    (houtput : maximumPacketSize ≤ output.length) :
    ∃ bytes, transmitPacket maximumPacketSize packet.path (specOf packet) output = .ok bytes := by
  have hencode := encodeIpv4Packet_specOf haeth (h.encode (hmaximum.trans houtput))
  rw [transmitPacket, hencode]
  exact ⟨_, if_neg (Nat.not_lt.mpr (h.length.trans hmaximum))⟩

end Encoding

/-! ## Both paths -/

/-- A packet description and a prepared packet that are the same on the wire: they are transmitted
as the same bytes from every buffer, and are transmitted from every buffer of the packet size. -/
def SameOnWire (memory : MemoryRegistry MRS) (maximumPacketSize : ℕ) (path : Ipv4Path)
    (spec : PacketSpec) (prepared : PreparedWirePacket) : Prop :=
  (∀ output bytes, transmitPacket maximumPacketSize path spec output = .ok bytes ↔
    encodeBatchPacket memory maximumPacketSize prepared output = .ok bytes) ∧
  ∀ output, maximumPacketSize ≤ output.length →
    ∃ bytes, transmitPacket maximumPacketSize path spec output = .ok bytes

variable {prepared : Rc.PreparedWirePacket}

theorem sameOnWire {maximumPacketSize : ℕ} {packet : WirePacket} {mtu : PathMtu}
    (hblank : prepared.header.payload = [])
    (hpacket : RcEndpoint.preparedPacket memory prepared = .ok packet)
    (h : Encodable mtu.bytes packet)
    (haeth : ∀ aeth ∈ packet.aeth, aeth.messageSequenceNumber < 2 ^ 24)
    (hmaximum : maximumPacketForMtu mtu.bytes ≤ maximumPacketSize) :
    SameOnWire memory maximumPacketSize packet.path (specOf packet) (preparedOf prepared) :=
  ⟨fun _ _ ↦ (encodeBatchPacket_eq_ok hblank hpacket).symm,
    fun _ houtput ↦ exists_transmitPacket h haeth hmaximum houtput⟩

theorem blank_of_prepareRequestBatchPacket {active : ActiveRequest} {mtu remoteQpn : ℕ}
    {path : Ipv4Path}
    (h : Rc.prepareRequestBatchPacket memory active mtu remoteQpn path = .ok prepared) :
    prepared.header.payload = [] ∧ prepared.header.aeth = none ∧ prepared.header.path = path := by
  have hsegmented {direction : TransferDirection} {remote : Option (UInt64 × UInt32)}
      (h : Rc.prepareSegmentedBatchPacket memory active mtu remoteQpn path direction remote =
        .ok prepared) :
      prepared.header.payload = [] ∧ prepared.header.aeth = none ∧
        prepared.header.path = path := by
    unfold Rc.prepareSegmentedBatchPacket at h
    split at h
    · cases h
    split at h
    · cases h
    split at h
    · cases h
    · cases h
      exact ⟨rfl, rfl, rfl⟩
  unfold Rc.prepareRequestBatchPacket at h
  split at h
  · exact hsegmented h
  · exact hsegmented h
  · cases h
    exact ⟨rfl, rfl, rfl⟩

theorem aeth_of_readResponsePacket {ready : ReadyReadResponse QPS} {aeth : Aeth}
    (h : aeth ∈ (Rc.readResponsePacket ready payload).aeth) :
    aeth = .ack ready.messageSequenceNumber.value := by
  unfold Rc.readResponsePacket at h
  dsimp only at h
  split at h
  · exact (Option.some.inj h).symm
  · cases h

/-- **The scalar and the batched path put the same bytes on the wire.**  In every reachable
endpoint, for the next packet of every request that is being sent and of every pending READ
response, whatever the scratch buffer holds. -/
theorem scalar_batch_same_bytes {ep : RcEndpoint QPS MRS SQ RQ CQ IDX} (hreachable : ep.Reachable)
    {index : Fin QPS} {slot : RcQpSlot MRS SQ RQ CQ} (hslot : ep.qps index = some slot)
    {payloadScratch : List UInt8} (hscratch : payloadScratch.length = maxMtuBytes) :
    (∀ active, slot.activeRequest = some active → active.phase = .sending →
      ∃ spec prepared,
        buildRequestPacket ep.memory payloadScratch active slot.machine.config.pathMtu.bytes
          (UInt32.ofNat slot.machine.config.remoteQpn) = .ok spec ∧
        prepareRequestBatchPacket ep.memory active slot.machine.config.pathMtu.bytes
          (UInt32.ofNat slot.machine.config.remoteQpn) slot.path = .ok prepared ∧
        SameOnWire ep.memory ep.config.maximumPacketSize slot.path spec prepared) ∧
    ∀ response, slot.readResponse = some response →
      ∃ spec prepared,
        readResponsePacket ep.memory payloadScratch (slot.readyResponse index response) =
          .ok (some spec) ∧
        prepareReadResponse ep.memory (slot.readyResponse index response) = .ok (some prepared) ∧
        SameOnWire ep.memory ep.config.maximumPacketSize slot.path spec prepared := by
  have hqp := Holds.engine_qps hslot
  have hgranted : Granted ep.memory slot.toQpTransport := hreachable.inv.granted index _ hqp
  have hvalid := (hreachable.inv.qp index _ hqp).config
  obtain ⟨_, -, hholds⟩ := hreachable.holds
  have hsized := hholds.tabled.sized index slot hslot
  have hroom : slot.machine.config.pathMtu.bytes ≤ payloadScratch.length := by
    rw [hscratch]
    exact slot.machine.config.pathMtu.bytes_bounds.2
  constructor
  · intro active hactive hphase
    obtain ⟨wire, packet, hprepare, hpacket⟩ := exists_prepareRequestBatchPacket
      hgranted.toRequesterGranted (hreachable.inv.spans index _ hqp) hactive hphase
    have hbuild := buildRequestPacket_of_prepare hprepare hpacket
    obtain ⟨hblank, haeth, hpath⟩ := blank_of_prepareRequestBatchPacket hprepare
    obtain ⟨-, hheader⟩ := borrowedPayload_eq hblank hpacket
    have hsame := sameOnWire hblank hpacket (encodable_of_buildRequestPacket hvalid hbuild)
      (by rw [hheader, haeth]; exact fun _ h ↦ Option.noConfusion rfl (heq_of_eq h)) hsized
    rw [show packet.path = slot.path by rw [hheader]; exact hpath] at hsame
    refine ⟨_, _, ?_, ?_, hsame⟩
    · rw [buildRequestPacket_eq hroom slot.path, hbuild]
      rfl
    · rw [prepareRequestBatchPacket_eq, hprepare]
      rfl
  · intro response hresponse
    obtain ⟨address, length, hsegment, hlength, hreadable, hread⟩ :=
      exists_readResponseSegment hgranted.toResponderGranted hresponse
    have hpacket : RcEndpoint.preparedPacket ep.memory
        ⟨Rc.readResponsePacket (slot.readyResponse index response) [],
          .remote response.rkey address length⟩ =
        .ok (Rc.readResponsePacket (slot.readyResponse index response)
          (copyFromRegistered ep.memory.bytes address.toNat length)) := by
      unfold RcEndpoint.preparedPacket
      dsimp only
      rw [hread]
      rfl
    refine ⟨_, _, readResponsePacket_eq (hlength.trans hroom) hsegment hread,
      prepareReadResponse_eq hsegment hreadable, sameOnWire rfl hpacket
        (encodable_readResponsePacket hvalid.remote_le ((length_of_read hread).le.trans hlength))
        (fun aeth haeth ↦ ?_) hsized⟩
    rw [(aeth_of_readResponsePacket haeth)]
    exact slot.messageSequenceNumber.isLt

/-- In the middle of a SEND of three packets. -/
def firstOfThree : RcEndpoint 1 1 2 2 4 2 := Sample.single.steps Sample.sendStarted

theorem scalar_batch_same_bytes_second_packet :
    firstOfThree.Reachable ∧ ∃ slot active spec prepared, firstOfThree.qps 0 = some slot ∧
      slot.activeRequest = some active ∧ active.nextPacket = 1 ∧
      buildRequestPacket firstOfThree.memory (List.replicate maxMtuBytes 0) active
        slot.machine.config.pathMtu.bytes (UInt32.ofNat slot.machine.config.remoteQpn) = .ok spec ∧
      prepareRequestBatchPacket firstOfThree.memory active slot.machine.config.pathMtu.bytes
        (UInt32.ofNat slot.machine.config.remoteQpn) slot.path = .ok prepared ∧
      SameOnWire firstOfThree.memory firstOfThree.config.maximumPacketSize slot.path spec
        prepared := by
  have hreachable : firstOfThree.Reachable := Sample.single_reachable _
  have hsending : ((firstOfThree.qps 0).bind fun slot ↦ slot.activeRequest).any
      (fun active ↦ active.nextPacket = 1 ∧ active.phase = .sending) = true := by decide +kernel
  cases hslot : firstOfThree.qps 0 with
  | none =>
    rw [hslot] at hsending
    cases hsending
  | some slot =>
    rw [hslot, Option.bind_some] at hsending
    cases hactive : slot.activeRequest with
    | none =>
      rw [hactive] at hsending
      cases hsending
    | some active =>
      rw [hactive, Option.any_some, decide_eq_true_eq] at hsending
      obtain ⟨spec, prepared, hbuild, hprepare, hsame⟩ := (scalar_batch_same_bytes hreachable hslot
        List.length_replicate).1 active hactive hsending.2
      exact ⟨hreachable, slot, active, spec, prepared, rfl, hactive, hsending.1, hbuild, hprepare,
        hsame⟩

end Bytes

end Rocev2.Rc
