import Rocev2.Lib.Bits
import Rocev2.Lib.Layout
import Rocev2.Wire.Packet

/-!
# Transport headers as bytes

The codecs of `opcode.rs`, `bth.rs`, `reth.rs` and `aeth.rs`: bit-packed big-endian headers, with
every reserved bit and every range the decoders and encoders check.

The base header here has all the fields of the wire; the engine's `Wire.Bth` is its part that the
engine reads and writes.  Each header gets a `Layout`, and its decoder and encoder are shown to
read and to write it.  For the base header this says that the decoder leaves no bit free that the
encoder does not set: what is accepted is the encoding of what is returned.
-/

namespace Rocev2.Wire

open Lib Lib.Bytes Lib.Bits

/-- Error of decoding or encoding a wire object. -/
inductive WireError where
  | bufferTooShort (needed actual : ℕ)
  | unsupportedOpcode (value : UInt8)
  | invalidTransportVersion (version : UInt8)
  | valueOutOfRange (field : String) (value : ℕ)
  | reservedBitsSet (field : String) (value : UInt32)
  | headerMismatch (opcode : UInt8) (expected : String)
  | lengthMismatch (expected actual : ℕ)
  | nonZeroPadding
  | icrcMismatch (wire computed : UInt32)
  | invalidIpv4Header
  | unsupportedIpv4Options
  | arithmeticOverflow
deriving DecidableEq, Repr

/-! ## Opcodes -/

namespace Opcode

/-- Numeric wire value. -/
def asU8 : Opcode → UInt8
  | sendFirst => 0x00
  | sendMiddle => 0x01
  | sendLast => 0x02
  | sendLastWithImmediate => 0x03
  | sendOnly => 0x04
  | sendOnlyWithImmediate => 0x05
  | rdmaWriteFirst => 0x06
  | rdmaWriteMiddle => 0x07
  | rdmaWriteLast => 0x08
  | rdmaWriteLastWithImmediate => 0x09
  | rdmaWriteOnly => 0x0a
  | rdmaWriteOnlyWithImmediate => 0x0b
  | rdmaReadRequest => 0x0c
  | rdmaReadResponseFirst => 0x0d
  | rdmaReadResponseMiddle => 0x0e
  | rdmaReadResponseLast => 0x0f
  | rdmaReadResponseOnly => 0x10
  | acknowledge => 0x11

/-- Decode a numeric opcode. -/
def fromU8 (value : UInt8) : Except WireError Opcode :=
  match value with
  | 0x00 => .ok sendFirst
  | 0x01 => .ok sendMiddle
  | 0x02 => .ok sendLast
  | 0x03 => .ok sendLastWithImmediate
  | 0x04 => .ok sendOnly
  | 0x05 => .ok sendOnlyWithImmediate
  | 0x06 => .ok rdmaWriteFirst
  | 0x07 => .ok rdmaWriteMiddle
  | 0x08 => .ok rdmaWriteLast
  | 0x09 => .ok rdmaWriteLastWithImmediate
  | 0x0a => .ok rdmaWriteOnly
  | 0x0b => .ok rdmaWriteOnlyWithImmediate
  | 0x0c => .ok rdmaReadRequest
  | 0x0d => .ok rdmaReadResponseFirst
  | 0x0e => .ok rdmaReadResponseMiddle
  | 0x0f => .ok rdmaReadResponseLast
  | 0x10 => .ok rdmaReadResponseOnly
  | 0x11 => .ok acknowledge
  | _ => .error (.unsupportedOpcode value)

theorem fromU8_eq_ok {value : UInt8} {opcode : Opcode} :
    fromU8 value = .ok opcode ↔ value = opcode.asU8 := by
  constructor
  · intro h
    unfold fromU8 at h
    split at h
    all_goals first | (cases h; rfl) | cases h
  · rintro rfl
    cases opcode <;> rfl

end Opcode

namespace Codec

/-! ## Lengths and masks -/

/-- Base transport header length in bytes. -/
def bthLen : ℕ := 12

/-- RDMA extended transport header length in bytes. -/
def rethLen : ℕ := 16

/-- ACK extended transport header length in bytes. -/
def aethLen : ℕ := 4

/-- ICRC field length. -/
def icrcLen : ℕ := 4

/-- Mask of the 24-bit packet sequence number. -/
def psnMask : UInt32 := 0x00ffffff

/-- Mask of the 24-bit queue-pair number. -/
def qpnMask : UInt32 := 0x00ffffff

def seMask : UInt8 := 0x80
def migMask : UInt8 := 0x40
def padMask : UInt8 := 0x30
def tverMask : UInt8 := 0x0f
def fecnMask : UInt32 := 0x80000000
def becnMask : UInt32 := 0x40000000
def qpnReservedMask : UInt32 := 0x3f000000
def ackMask : UInt32 := 0x80000000
def apsnReservedMask : UInt32 := 0x7f000000

/-! ## Base transport header -/

/-- The base transport header, with every field of the wire. -/
structure Bth where
  /-- RC operation opcode. -/
  opcode : Opcode
  /-- Solicited event flag. -/
  solicitedEvent : Bool
  /-- Migration request flag. -/
  migrationRequest : Bool
  /-- Number of zero pad bytes before the ICRC. -/
  padCount : UInt8
  /-- Transport header version. -/
  transportVersion : UInt8
  /-- Partition key. -/
  partitionKey : UInt16
  /-- Forward ECN bit. -/
  fecn : Bool
  /-- Backward ECN bit. -/
  becn : Bool
  /-- Destination queue-pair number. -/
  destinationQpn : UInt32
  /-- Request an ACK for this packet. -/
  ackRequest : Bool
  /-- Packet sequence number. -/
  psn : UInt32
deriving DecidableEq, Repr

namespace Bth

variable {bth : Bth}

/-- The checks of the decoder on the words of a header, in its order. -/
def decodeWords (b₀ flags : UInt8) (partitionKey : UInt16) (qpnWord apsnWord : UInt32) :
    Except WireError Bth :=
  match Opcode.fromU8 b₀ with
  | .error error => .error error
  | .ok opcode =>
    let transportVersion := flags &&& tverMask
    let qpnReserved := qpnWord &&& qpnReservedMask
    let apsnReserved := apsnWord &&& apsnReservedMask
    if transportVersion ≠ 0 then .error (.invalidTransportVersion transportVersion)
    else if qpnReserved ≠ 0 then .error (.reservedBitsSet "BTH.qpn" qpnReserved)
    else if apsnReserved ≠ 0 then .error (.reservedBitsSet "BTH.apsn" apsnReserved)
    else
      .ok
        { opcode := opcode
          solicitedEvent := flags &&& seMask != 0
          migrationRequest := flags &&& migMask != 0
          padCount := (flags &&& padMask) >>> 4
          transportVersion := transportVersion
          partitionKey := partitionKey
          fecn := qpnWord &&& fecnMask != 0
          becn := qpnWord &&& becnMask != 0
          destinationQpn := qpnWord &&& qpnMask
          ackRequest := apsnWord &&& ackMask != 0
          psn := apsnWord &&& psnMask }

/-- Decode a header and reject non-zero reserved bits. -/
def decode (input : List UInt8) : Except WireError Bth :=
  match input with
  | b₀ :: flags :: b₂ :: b₃ :: b₄ :: b₅ :: b₆ :: b₇ :: b₈ :: b₉ :: b₁₀ :: b₁₁ :: _ =>
    decodeWords b₀ flags (u16FromBe [b₂, b₃]) (u32FromBe [b₄, b₅, b₆, b₇])
      (u32FromBe [b₈, b₉, b₁₀, b₁₁])
  | _ => .error (.bufferTooShort bthLen input.length)

def flagsByte (bth : Bth) : UInt8 :=
  (if bth.solicitedEvent then seMask else 0) ||| (if bth.migrationRequest then migMask else 0) |||
    ((bth.padCount <<< 4) &&& padMask) ||| (bth.transportVersion &&& tverMask)

/-- The word of the queue-pair number. -/
def qpnWord (bth : Bth) : UInt32 :=
  flag fecnMask bth.fecn ||| flag becnMask bth.becn ||| bth.destinationQpn

/-- The word of the sequence number. -/
def apsnWord (bth : Bth) : UInt32 := flag ackMask bth.ackRequest ||| bth.psn

/-- The twelve bytes the encoder writes. -/
def bytes (bth : Bth) : List UInt8 :=
  [bth.opcode.asU8, bth.flagsByte] ++ toBe 2 bth.partitionKey.toNat ++
    toBe 4 bth.qpnWord.toNat ++ toBe 4 bth.apsnWord.toNat

/-- Encode the header into the beginning of `output`. -/
def encode (bth : Bth) (output : List UInt8) : Except WireError (List UInt8) :=
  if output.length < bthLen then .error (.bufferTooShort bthLen output.length)
  else if bth.destinationQpn > qpnMask then
    .error (.valueOutOfRange "destination_qpn" bth.destinationQpn.toNat)
  else if bth.psn > psnMask then .error (.valueOutOfRange "psn" bth.psn.toNat)
  else if bth.padCount > 3 then .error (.valueOutOfRange "pad_count" bth.padCount.toNat)
  else if bth.transportVersion ≠ 0 then
    .error (.invalidTransportVersion bth.transportVersion)
  else .ok (splice output 0 bth.bytes)

/-- The headers that fit the wire. -/
structure Valid (bth : Bth) : Prop where
  /-- The queue-pair number has 24 bits. -/
  destinationQpn : bth.destinationQpn ≤ qpnMask
  /-- The sequence number has 24 bits. -/
  psn : bth.psn ≤ psnMask
  /-- The pad count has two bits. -/
  padCount : bth.padCount ≤ 3
  /-- The version is zero. -/
  transportVersion : bth.transportVersion = 0

/-- The layout of the base transport header. -/
def layout : Layout Bth where
  size := bthLen
  Valid := Valid
  bytes := bytes
  length_bytes := fun bth ↦ by simp [bytes, bthLen]

/-! ### Bit packing -/

theorem flagsByte_fields (h : bth.Valid) :
    bth.flagsByte &&& tverMask = 0 ∧ (bth.flagsByte &&& seMask != 0) = bth.solicitedEvent ∧
      (bth.flagsByte &&& migMask != 0) = bth.migrationRequest ∧
      (bth.flagsByte &&& padMask) >>> 4 = bth.padCount := by
  have hall : ∀ (se mig : Bool) (pad : BitVec 8), (⟨pad⟩ : UInt8) ≤ 3 →
      let byte : UInt8 := (if se then seMask else 0) ||| (if mig then migMask else 0) |||
        (((⟨pad⟩ : UInt8) <<< 4) &&& padMask) ||| ((0 : UInt8) &&& tverMask)
      byte &&& tverMask = 0 ∧ (byte &&& seMask != 0) = se ∧ (byte &&& migMask != 0) = mig ∧
        (byte &&& padMask) >>> 4 = ⟨pad⟩ := by
    decide
  rw [flagsByte, h.transportVersion]
  exact hall _ _ bth.padCount.toBitVec h.padCount

theorem flags_canonical {flags : UInt8} (h : flags &&& tverMask = 0) :
    (if flags &&& seMask != 0 then seMask else 0) |||
        (if flags &&& migMask != 0 then migMask else 0) |||
        (((flags &&& padMask) >>> 4 <<< 4) &&& padMask) ||| ((flags &&& tverMask) &&& tverMask) =
      flags ∧ (flags &&& padMask) >>> 4 ≤ 3 := by
  obtain ⟨flags⟩ := flags
  revert flags
  decide

theorem isBit_fecnMask : IsBit fecnMask := ⟨31, by decide, by decide⟩

theorem isBit_becnMask : IsBit becnMask := ⟨30, by decide, by decide⟩

theorem isBit_ackMask : IsBit ackMask := ⟨31, by decide, by decide⟩

/-- The word of the queue-pair number is taken apart into what it was assembled from. -/
theorem qpnWord_fields (h : bth.Valid) :
    bth.qpnWord &&& qpnReservedMask = 0 ∧ (bth.qpnWord &&& fecnMask != 0) = bth.fecn ∧
      (bth.qpnWord &&& becnMask != 0) = bth.becn ∧
      bth.qpnWord &&& qpnMask = bth.destinationQpn := by
  have hqpn : bth.destinationQpn &&& qpnMask = bth.destinationQpn :=
    and_of_le (n := 24) (by decide) h.destinationQpn
  have hword (mask : UInt32) : bth.qpnWord &&& mask =
      (flag fecnMask bth.fecn &&& mask) ||| (flag becnMask bth.becn &&& mask) |||
        (bth.destinationQpn &&& mask) := by
    rw [qpnWord, or_and, or_and]
  have hfecn {mask : UInt32} (hmask : fecnMask &&& mask = 0) := flag_and_of_disjoint hmask bth.fecn
  have hbecn {mask : UInt32} (hmask : becnMask &&& mask = 0) := flag_and_of_disjoint hmask bth.becn
  refine ⟨?_, ?_, ?_, ?_⟩
  · rw [hword, hfecn (by decide), hbecn (by decide), and_of_disjoint hqpn (by decide)]
    decide
  · rw [hword, flag_and_self, hbecn (by decide), and_of_disjoint hqpn (by decide), UInt32.or_zero,
      UInt32.or_zero, flag_bne_zero isBit_fecnMask.ne_zero]
  · rw [hword, hfecn (by decide), flag_and_self, and_of_disjoint hqpn (by decide), UInt32.or_zero,
      UInt32.zero_or, flag_bne_zero isBit_becnMask.ne_zero]
  · rw [hword, hfecn (by decide), hbecn (by decide), hqpn, UInt32.or_zero, UInt32.zero_or]

theorem qpnWord_canonical {word : UInt32} (h : word &&& qpnReservedMask = 0) :
    flag fecnMask (word &&& fecnMask != 0) ||| flag becnMask (word &&& becnMask != 0) |||
      (word &&& qpnMask) = word := by
  rw [isBit_fecnMask.flag_and, isBit_becnMask.flag_and, ← and_or, ← and_or]
  calc word &&& (fecnMask ||| becnMask ||| qpnMask)
      = (word &&& (fecnMask ||| becnMask ||| qpnMask)) ||| (word &&& qpnReservedMask) := by
        rw [h, UInt32.or_zero]
    _ = word &&& (fecnMask ||| becnMask ||| qpnMask ||| qpnReservedMask) := (and_or _ _ _).symm
    _ = word := and_allOnes word

theorem apsnWord_fields (h : bth.Valid) :
    bth.apsnWord &&& apsnReservedMask = 0 ∧ (bth.apsnWord &&& ackMask != 0) = bth.ackRequest ∧
      bth.apsnWord &&& psnMask = bth.psn := by
  have hpsn : bth.psn &&& psnMask = bth.psn := and_of_le (n := 24) (by decide) h.psn
  have hword (mask : UInt32) : bth.apsnWord &&& mask =
      (flag ackMask bth.ackRequest &&& mask) ||| (bth.psn &&& mask) := by
    rw [apsnWord, or_and]
  have hack {mask : UInt32} (hmask : ackMask &&& mask = 0) :=
    flag_and_of_disjoint hmask bth.ackRequest
  refine ⟨?_, ?_, ?_⟩
  · rw [hword, hack (by decide), and_of_disjoint hpsn (by decide), UInt32.or_zero]
  · rw [hword, flag_and_self, and_of_disjoint hpsn (by decide), UInt32.or_zero,
      flag_bne_zero isBit_ackMask.ne_zero]
  · rw [hword, hack (by decide), hpsn, UInt32.zero_or]

theorem apsnWord_canonical {word : UInt32} (h : word &&& apsnReservedMask = 0) :
    flag ackMask (word &&& ackMask != 0) ||| (word &&& psnMask) = word := by
  rw [isBit_ackMask.flag_and, ← and_or]
  calc word &&& (ackMask ||| psnMask)
      = (word &&& (ackMask ||| psnMask)) ||| (word &&& apsnReservedMask) := by
        rw [h, UInt32.or_zero]
    _ = word &&& (ackMask ||| psnMask ||| apsnReservedMask) := (and_or _ _ _).symm
    _ = word := and_allOnes word

/-! ### Decoder and encoder -/

/-- **The decoder accepts exactly the words of a valid header.** -/
theorem decodeWords_eq_ok {b₀ flags : UInt8} {partitionKey : UInt16} {qpnWord apsnWord : UInt32} :
    decodeWords b₀ flags partitionKey qpnWord apsnWord = .ok bth ↔
      bth.Valid ∧ b₀ = bth.opcode.asU8 ∧ flags = bth.flagsByte ∧
        partitionKey = bth.partitionKey ∧ qpnWord = bth.qpnWord ∧ apsnWord = bth.apsnWord := by
  constructor
  · intro h
    unfold decodeWords at h
    split at h
    · cases h
    · rename_i opcode hopcode
      dsimp only at h
      split_ifs at h with hversion hqpn hapsn
      rw [ne_eq, not_not] at hversion hqpn hapsn
      obtain ⟨hflags, hpad⟩ := flags_canonical hversion
      cases h
      exact ⟨⟨and_le _ _, and_le _ _, hpad, hversion⟩, Opcode.fromU8_eq_ok.mp hopcode,
        hflags.symm, rfl, (qpnWord_canonical hqpn).symm, (apsnWord_canonical hapsn).symm⟩
  · rintro ⟨hvalid, rfl, rfl, rfl, rfl, rfl⟩
    obtain ⟨hversion, hse, hmig, hpad⟩ := flagsByte_fields hvalid
    obtain ⟨hqpnReserved, hfecn, hbecn, hqpn⟩ := qpnWord_fields hvalid
    obtain ⟨hapsnReserved, hack, hpsn⟩ := apsnWord_fields hvalid
    have hopcode : Opcode.fromU8 bth.opcode.asU8 = .ok bth.opcode := Opcode.fromU8_eq_ok.mpr rfl
    unfold decodeWords
    rw [hopcode]
    dsimp only
    rw [hversion, hse, hmig, hpad, hqpnReserved, hfecn, hbecn, hqpn, hapsnReserved, hack, hpsn]
    simp only [ne_eq, not_true_eq_false, if_false]
    rw [← hvalid.transportVersion]

theorem reads_decode : layout.Reads decode := by
  intro input bth
  constructor
  · intro h
    unfold decode at h
    split at h
    · rename_i b₀ flags b₂ b₃ b₄ b₅ b₆ b₇ b₈ b₉ b₁₀ b₁₁ rest
      obtain ⟨hvalid, rfl, rfl, hkey, hqpn, hapsn⟩ := decodeWords_eq_ok.mp h
      refine ⟨hvalid, rest, ?_⟩
      change _ = bth.bytes ++ rest
      rw [bytes, ← hkey, ← hqpn, ← hapsn, toBe_u16FromBe rfl, toBe_u32FromBe rfl,
        toBe_u32FromBe rfl]
      rfl
    · cases h
  · rintro ⟨hvalid, rest, rfl⟩
    have hdecode : decode (bth.bytes ++ rest) =
        decodeWords bth.opcode.asU8 bth.flagsByte (u16FromBe (toBe 2 bth.partitionKey.toNat))
          (u32FromBe (toBe 4 bth.qpnWord.toNat)) (u32FromBe (toBe 4 bth.apsnWord.toNat)) := rfl
    change decode (bth.bytes ++ rest) = .ok bth
    rw [hdecode, u16FromBe_toBe, u32FromBe_toBe, u32FromBe_toBe]
    exact decodeWords_eq_ok.mpr ⟨hvalid, rfl, rfl, rfl, rfl, rfl⟩

theorem writes_encode : layout.Writes encode := by
  intro bth output hroom written
  have hlength : ¬ output.length < bthLen := Nat.not_lt.mpr hroom
  simp only [encode, guard_eq_ok, splice_zero, Except.ok.injEq]
  constructor
  · rintro ⟨-, hqpn, hpsn, hpad, hversion, rfl⟩
    exact ⟨⟨UInt32.not_lt.mp hqpn, UInt32.not_lt.mp hpsn, UInt8.not_lt.mp hpad,
      not_not.mp hversion⟩, rfl⟩
  · rintro ⟨h, rfl⟩
    exact ⟨hlength, UInt32.not_lt.mpr h.destinationQpn, UInt32.not_lt.mpr h.psn,
      UInt8.not_lt.mpr h.padCount, not_not.mpr h.transportVersion, rfl⟩

end Bth

/-! ## Extended headers -/

end Codec

/-- Decode a RETH. -/
def Reth.decode (input : List UInt8) : Except WireError Reth :=
  match input with
  | b₀ :: b₁ :: b₂ :: b₃ :: b₄ :: b₅ :: b₆ :: b₇ :: b₈ :: b₉ :: b₁₀ :: b₁₁ :: b₁₂ :: b₁₃ :: b₁₄ ::
      b₁₅ :: _ =>
    .ok
      { virtualAddress := u64FromBe [b₀, b₁, b₂, b₃, b₄, b₅, b₆, b₇]
        remoteKey := u32FromBe [b₈, b₉, b₁₀, b₁₁]
        dmaLength := u32FromBe [b₁₂, b₁₃, b₁₄, b₁₅] }
  | _ => .error (.bufferTooShort Codec.rethLen input.length)

def Reth.bytes (reth : Reth) : List UInt8 :=
  toBe 8 reth.virtualAddress.toNat ++ toBe 4 reth.remoteKey.toNat ++ toBe 4 reth.dmaLength.toNat

def Reth.encode (reth : Reth) (output : List UInt8) : Except WireError (List UInt8) :=
  if output.length < Codec.rethLen then .error (.bufferTooShort Codec.rethLen output.length)
  else .ok (splice output 0 reth.bytes)

/-- The layout of the RDMA extended transport header: every value has a representation. -/
def Reth.layout : Layout Reth where
  size := Codec.rethLen
  Valid := fun _ ↦ True
  bytes := Reth.bytes
  length_bytes := fun reth ↦ by simp [Reth.bytes, Codec.rethLen]

theorem Reth.reads_decode : Reth.layout.Reads Reth.decode := by
  intro input reth
  constructor
  · intro h
    unfold Reth.decode at h
    split at h
    · rename_i rest
      cases h
      refine ⟨trivial, rest, ?_⟩
      change _ = Reth.bytes _ ++ rest
      rw [Reth.bytes, toBe_u64FromBe rfl, toBe_u32FromBe rfl, toBe_u32FromBe rfl]
      rfl
    · cases h
  · rintro ⟨-, rest, rfl⟩
    have hdecode : Reth.decode (reth.bytes ++ rest) =
        .ok ⟨u64FromBe (toBe 8 reth.virtualAddress.toNat), u32FromBe (toBe 4 reth.remoteKey.toNat),
          u32FromBe (toBe 4 reth.dmaLength.toNat)⟩ := rfl
    change Reth.decode (reth.bytes ++ rest) = .ok reth
    rw [hdecode, u64FromBe_toBe, u32FromBe_toBe, u32FromBe_toBe]

theorem Reth.writes_encode : Reth.layout.Writes Reth.encode := by
  intro reth output hroom written
  have hlength : ¬ output.length < Codec.rethLen := Nat.not_lt.mpr hroom
  simp only [Reth.encode, guard_eq_ok, splice_zero, Except.ok.injEq]
  exact ⟨fun h ↦ ⟨trivial, h.2.symm⟩, fun h ↦ ⟨hlength, h.2.symm⟩⟩

def Aeth.decode (input : List UInt8) : Except WireError Aeth :=
  match input with
  | b₀ :: b₁ :: b₂ :: b₃ :: _ =>
    let raw := u32FromBe [b₀, b₁, b₂, b₃]
    .ok ⟨(raw >>> 24).toUInt8, (raw &&& Codec.psnMask).toNat⟩
  | _ => .error (.bufferTooShort Codec.aethLen input.length)

def Aeth.raw (aeth : Aeth) : UInt32 :=
  (aeth.syndrome.toUInt32 <<< 24) ||| UInt32.ofNat aeth.messageSequenceNumber

def Aeth.bytes (aeth : Aeth) : List UInt8 := toBe 4 aeth.raw.toNat

def Aeth.encode (aeth : Aeth) (output : List UInt8) : Except WireError (List UInt8) :=
  if output.length < Codec.aethLen then .error (.bufferTooShort Codec.aethLen output.length)
  else if aeth.messageSequenceNumber > Codec.psnMask.toNat then
    .error (.valueOutOfRange "message_sequence_number" aeth.messageSequenceNumber)
  else .ok (splice output 0 aeth.bytes)

/-- The layout of the ACK extended transport header: the message sequence number has 24 bits. -/
def Aeth.layout : Layout Aeth where
  size := Codec.aethLen
  Valid := fun aeth ↦ aeth.messageSequenceNumber ≤ Codec.psnMask.toNat
  bytes := Aeth.bytes
  length_bytes := fun aeth ↦ by simp [Aeth.bytes, Codec.aethLen]

theorem Codec.and_psnMask_toNat (word : UInt32) :
    (word &&& Codec.psnMask).toNat = word.toNat % 2 ^ 24 := by
  have hmask : Codec.psnMask.toNat = 2 ^ 24 - 1 := by decide
  rw [UInt32.toNat_and, hmask, Nat.and_two_pow_sub_one_eq_mod]

theorem Codec.upperByte_toNat (word : UInt32) :
    (word >>> 24).toUInt8.toNat = word.toNat / 2 ^ 24 := by
  have hword := word.toNat_lt
  rw [UInt32.toNat_toUInt8, UInt32.toNat_shiftRight, Nat.shiftRight_eq_div_pow]
  change word.toNat / 2 ^ 24 % 2 ^ 8 = _
  omega

theorem Aeth.toNat_raw {aeth : Aeth} (h : aeth.messageSequenceNumber ≤ Codec.psnMask.toNat) :
    aeth.raw.toNat = aeth.syndrome.toNat * 2 ^ 24 + aeth.messageSequenceNumber := by
  have hmsn : aeth.messageSequenceNumber < 2 ^ 24 := Nat.lt_succ_of_le h
  have hsyndrome := aeth.syndrome.toNat_lt
  have hshift : (aeth.syndrome.toUInt32 <<< 24).toNat = aeth.syndrome.toNat <<< 24 := by
    rw [UInt32.toNat_shiftLeft, UInt8.toNat_toUInt32]
    change aeth.syndrome.toNat <<< 24 % 2 ^ 32 = _
    rw [Nat.shiftLeft_eq]
    omega
  rw [Aeth.raw, UInt32.toNat_or, hshift, UInt32.toNat_ofNat', Nat.mod_eq_of_lt (by omega),
    ← Nat.shiftLeft_add_eq_or_of_lt hmsn, Nat.shiftLeft_eq]

theorem Aeth.raw_fields {aeth : Aeth} (h : aeth.messageSequenceNumber ≤ Codec.psnMask.toNat) :
    (aeth.raw >>> 24).toUInt8 = aeth.syndrome ∧
      (aeth.raw &&& Codec.psnMask).toNat = aeth.messageSequenceNumber := by
  have hmsn : aeth.messageSequenceNumber < 2 ^ 24 := Nat.lt_succ_of_le h
  constructor
  · apply UInt8.toNat_inj.mp
    rw [Codec.upperByte_toNat, Aeth.toNat_raw h]
    omega
  · rw [Codec.and_psnMask_toNat, Aeth.toNat_raw h]
    omega

theorem Aeth.raw_canonical (word : UInt32) :
    Aeth.raw ⟨(word >>> 24).toUInt8, (word &&& Codec.psnMask).toNat⟩ = word := by
  apply UInt32.toNat_inj.mp
  rw [Aeth.toNat_raw (UInt32.le_iff_toNat_le.mp (and_le _ _))]
  dsimp only
  rw [Codec.upperByte_toNat, Codec.and_psnMask_toNat]
  omega

theorem Aeth.reads_decode : Aeth.layout.Reads Aeth.decode := by
  intro input aeth
  constructor
  · intro h
    unfold Aeth.decode at h
    split at h
    · rename_i rest
      cases h
      refine ⟨UInt32.le_iff_toNat_le.mp (and_le _ _), rest, ?_⟩
      change _ = Aeth.bytes _ ++ rest
      rw [Aeth.bytes, Aeth.raw_canonical, toBe_u32FromBe rfl]
      rfl
    · cases h
  · rintro ⟨hvalid, rest, rfl⟩
    obtain ⟨hsyndrome, hmsn⟩ := Aeth.raw_fields hvalid
    have hdecode : Aeth.decode (aeth.bytes ++ rest) =
        .ok ⟨(u32FromBe (toBe 4 aeth.raw.toNat) >>> 24).toUInt8,
          (u32FromBe (toBe 4 aeth.raw.toNat) &&& Codec.psnMask).toNat⟩ := rfl
    change Aeth.decode (aeth.bytes ++ rest) = .ok aeth
    rw [hdecode, u32FromBe_toBe, hsyndrome, hmsn]

theorem Aeth.writes_encode : Aeth.layout.Writes Aeth.encode := by
  intro aeth output hroom written
  have hlength : ¬ output.length < Codec.aethLen := Nat.not_lt.mpr hroom
  simp only [Aeth.encode, guard_eq_ok, splice_zero, Except.ok.injEq]
  exact ⟨fun h ↦ ⟨Nat.not_lt.mp h.2.1, h.2.2.symm⟩,
    fun h ↦ ⟨hlength, Nat.not_lt.mpr h.1, h.2.symm⟩⟩

end Rocev2.Wire
