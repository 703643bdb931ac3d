import Rocev2.Wire.Codec.Parse

/-!
# Encoding transport packets

The encoder of `packet.rs`, up to the ICRC: it fills the front of its buffer with the headers, the
payload and the padding of a specification (`encodeWithoutIcrc_eq_ok`).

Encoder and strict parser agree on every field of a packet but one.  The encoder derives the pad
count from the payload length, so its packets are aligned to four bytes; the parser takes the pad
count it is given and does not check the alignment.  Strict parsing is therefore canonical exactly
on inputs whose length is a multiple of four.
-/

namespace Rocev2.Wire.Codec

open Lib Lib.Bytes

variable {packet : PacketRef}

/-! ## Encoder -/

/-- Packet description used by the encoder. -/
structure PacketSpec where
  /-- Base transport header; the encoder overwrites the pad count. -/
  bth : Bth
  /-- RETH for opcodes that require one. -/
  reth : Option Reth
  /-- AETH for opcodes that require one. -/
  aeth : Option Aeth
  /-- Immediate data for opcodes that require it. -/
  immediateData : Option UInt32
  /-- Payload bytes. -/
  payload : List UInt8
deriving DecidableEq, Repr

namespace PacketSpec

variable {spec : PacketSpec} {output written : List UInt8}

/-- Number of pad bytes required by the four-byte alignment rule. -/
def padCount (spec : PacketSpec) : ℕ := (4 - (spec.payload.length &&& 3)) &&& 3

/-- Encoded length from the base header through the ICRC. -/
def encodedLen (spec : PacketSpec) : Except WireError ℕ := do
  let length := bthLen
  let length ← if spec.bth.opcode.hasReth then checkedAdd length rethLen else .ok length
  let length ← if spec.bth.opcode.hasAeth then checkedAdd length aethLen else .ok length
  let length ← if spec.bth.opcode.hasImmediate then checkedAdd length 4 else .ok length
  let length ← checkedAdd length spec.payload.length
  let length ← checkedAdd length spec.padCount
  checkedAdd length icrcLen

/-- The headers and the payload match the opcode. -/
def validateHeaders (spec : PacketSpec) : Except WireError Unit :=
  let opcode := spec.bth.opcode
  if opcode.hasReth ≠ spec.reth.isSome then
    .error (.headerMismatch opcode.asU8 (if opcode.hasReth then "RETH" else "no RETH"))
  else if opcode.hasAeth ≠ spec.aeth.isSome then
    .error (.headerMismatch opcode.asU8 (if opcode.hasAeth then "AETH" else "no AETH"))
  else if opcode.hasImmediate ≠ spec.immediateData.isSome then
    .error (.headerMismatch opcode.asU8
      (if opcode.hasImmediate then "immediate data" else "no immediate data"))
  else if opcode.allowsPayload = false ∧ spec.payload ≠ [] then
    .error (.headerMismatch opcode.asU8 "no payload")
  else .ok ()

/-- Encode a header when it is present, and move the cursor behind it. -/
def encodeOptional {α : Type} (value : Option α) (size : ℕ)
    (encode : α → List UInt8 → Except WireError (List UInt8)) (output : List UInt8)
    (cursor : ℕ) : Except WireError (List UInt8 × ℕ) :=
  match value with
  | some v => do
    let output ← within output cursor size (encode v)
    .ok (output, cursor + size)
  | none => .ok (output, cursor)

/-- The base header the encoder writes: the pad count is that of the payload. -/
def encodedBth (spec : PacketSpec) : Bth :=
  { spec.bth with padCount := UInt8.ofNat spec.padCount }

def encodeHeaders (spec : PacketSpec) (output : List UInt8) :
    Except WireError (List UInt8 × ℕ) := do
  let output ← within output 0 bthLen spec.encodedBth.encode
  let cursor := bthLen
  let (output, cursor) ← encodeOptional spec.reth rethLen Reth.encode output cursor
  let (output, cursor) ← encodeOptional spec.aeth aethLen Aeth.encode output cursor
  encodeOptional spec.immediateData 4
    (fun value window ↦ .ok (splice window 0 (toBe 4 value.toNat))) output cursor

/-- Encode headers, payload and padding, leaving the final ICRC blank; the result is the number of
bytes before the ICRC field and the buffer. -/
def encodeWithoutIcrc (spec : PacketSpec) (output : List UInt8) :
    Except WireError (ℕ × List UInt8) := do
  spec.validateHeaders
  let total ← spec.encodedLen
  if output.length < total then .error (.bufferTooShort total output.length)
  else
    let (output, cursor) ← spec.encodeHeaders output
    let output := splice output cursor spec.payload
    let cursor := cursor + spec.payload.length
    let output := splice output cursor (List.replicate spec.padCount 0)
    let cursor := cursor + spec.padCount
    let output := splice output cursor (List.replicate icrcLen 0)
    .ok (cursor, output)

/-! ### Specification -/

def headers (spec : PacketSpec) : List UInt8 :=
  headerBytes spec.encodedBth spec.reth spec.aeth spec.immediateData

/-- The bytes the encoder writes before the ICRC. -/
def body (spec : PacketSpec) : List UInt8 :=
  spec.headers ++ spec.payload ++ List.replicate spec.padCount 0

/-- The specifications that have an encoding. -/
structure Encodable (spec : PacketSpec) : Prop where
  /-- The base header fits the wire. -/
  bth : spec.encodedBth.Valid
  /-- A RETH is given exactly when the opcode carries one. -/
  reth : spec.reth.isSome = spec.bth.opcode.hasReth
  /-- An AETH is given exactly when the opcode carries one. -/
  aeth : spec.aeth.isSome = spec.bth.opcode.hasAeth
  /-- The AETH fits the wire. -/
  aethValid : ∀ aeth ∈ spec.aeth, Aeth.layout.Valid aeth
  /-- Immediate data is given exactly when the opcode carries it. -/
  immediateData : spec.immediateData.isSome = spec.bth.opcode.hasImmediate
  /-- Only opcodes that allow a payload have one. -/
  payload : spec.bth.opcode.allowsPayload = false → spec.payload = []

def length (spec : PacketSpec) : ℕ :=
  bthLen + (if spec.bth.opcode.hasReth then rethLen else 0) +
    (if spec.bth.opcode.hasAeth then aethLen else 0) +
    (if spec.bth.opcode.hasImmediate then 4 else 0) + spec.payload.length + spec.padCount + icrcLen

theorem encodedLen_eq_ok {n : ℕ} :
    spec.encodedLen = .ok n ↔ spec.length < 2 ^ 64 ∧ n = spec.length := by
  -- the headers are too short for an overflow
  have hheaders : spec.encodedLen = (do
      let length ← checkedAdd (bthLen + (if spec.bth.opcode.hasReth then rethLen else 0) +
        (if spec.bth.opcode.hasAeth then aethLen else 0) +
        (if spec.bth.opcode.hasImmediate then 4 else 0)) spec.payload.length
      let length ← checkedAdd length spec.padCount
      checkedAdd length icrcLen) := by
    unfold encodedLen
    cases spec.bth.opcode.hasReth <;> cases spec.bth.opcode.hasAeth <;>
      cases spec.bth.opcode.hasImmediate <;> rfl
  rw [hheaders]
  simp only [bind_eq_ok, checkedAdd_eq_ok]
  constructor
  · rintro ⟨_, ⟨-, rfl⟩, _, ⟨-, rfl⟩, hsmall, rfl⟩
    exact ⟨hsmall, rfl⟩
  · rintro ⟨hsmall, rfl⟩
    unfold length at hsmall ⊢
    exact ⟨_, ⟨by omega, rfl⟩, _, ⟨by omega, rfl⟩, hsmall, rfl⟩

theorem padCount_lt (spec : PacketSpec) : spec.padCount < 4 := by
  rw [padCount, show (3 : ℕ) = 2 ^ 2 - 1 from rfl, Nat.and_two_pow_sub_one_eq_mod]
  omega

/-- **The encoder aligns to four bytes.** -/
theorem padCount_eq (spec : PacketSpec) :
    spec.padCount = (4 - spec.payload.length % 4) % 4 := by
  rw [padCount, show (3 : ℕ) = 2 ^ 2 - 1 from rfl, Nat.and_two_pow_sub_one_eq_mod,
    Nat.and_two_pow_sub_one_eq_mod]

theorem toNat_padCount (spec : PacketSpec) : spec.encodedBth.padCount.toNat = spec.padCount :=
  UInt8.toNat_ofNat_of_lt' (spec.padCount_lt.trans (by decide))

theorem validateHeaders_eq_ok {u : Unit} :
    spec.validateHeaders = .ok u ↔
      spec.reth.isSome = spec.bth.opcode.hasReth ∧ spec.aeth.isSome = spec.bth.opcode.hasAeth ∧
        spec.immediateData.isSome = spec.bth.opcode.hasImmediate ∧
        (spec.bth.opcode.allowsPayload = false → spec.payload = []) := by
  simp only [validateHeaders, guard_eq_ok, ne_eq, not_not, not_and]
  simp only [eq_comm, and_true]

theorem length_body (hreth : spec.reth.isSome = spec.bth.opcode.hasReth)
    (haeth : spec.aeth.isSome = spec.bth.opcode.hasAeth)
    (himm : spec.immediateData.isSome = spec.bth.opcode.hasImmediate) :
    spec.body.length + icrcLen = spec.length := by
  have hbth : spec.encodedBth.bytes.length = bthLen := Bth.layout.length_bytes _
  simp only [body, headers, headerBytes, List.length_append, length_optionalBytes, hreth, haeth,
    himm, hbth, List.length_replicate]
  rfl

/-- **An optional header extends the filled part** by its bytes. -/
theorem encodeOptional_eq_ok {α : Type} (layout : Layout α)
    {encode : α → List UInt8 → Except WireError (List UInt8)} (hencode : layout.Writes encode)
    {value : Option α} {before : List UInt8} {cursor size stop : ℕ}
    (hcursor : cursor = before.length) (hsize : size = layout.size)
    (hroom : (before ++ optionalBytes layout value).length ≤ output.length) :
    encodeOptional value size encode (fill output before) cursor = .ok (written, stop) ↔
      (∀ v ∈ value, layout.Valid v) ∧ stop = (before ++ optionalBytes layout value).length ∧
        written = fill output (before ++ optionalBytes layout value) := by
  cases value with
  | none =>
    rw [encodeOptional, Except.ok.injEq, Prod.mk.injEq]
    simp [optionalBytes, hcursor, eq_comm, and_comm]
  | some v =>
    have hstop : (before ++ optionalBytes layout (some v)).length = cursor + size := by
      rw [List.length_append, hcursor, hsize]
      exact congrArg _ (layout.length_bytes v)
    simp only [encodeOptional, bind_eq_ok, hencode.within hcursor hsize hroom, Except.ok.injEq,
      Prod.mk.injEq, hstop]
    constructor
    · rintro ⟨_, ⟨hvalid, rfl⟩, rfl, rfl⟩
      refine ⟨?_, rfl, rfl⟩
      rintro _ ⟨⟩
      exact hvalid
    · rintro ⟨hvalid, rfl, rfl⟩
      exact ⟨_, ⟨hvalid v rfl, rfl⟩, rfl, rfl⟩

theorem writes_immediate : immediateLayout.Writes
    (fun value window ↦ (.ok (splice window 0 (toBe 4 value.toNat)) :
      Except WireError (List UInt8))) := by
  intro value output _ written
  simp only [splice_zero, Except.ok.injEq]
  exact ⟨fun h ↦ ⟨trivial, h.symm⟩, fun h ↦ h.2.symm⟩

theorem encodeHeaders_eq_ok {cursor : ℕ} (hroom : spec.headers.length ≤ output.length) :
    spec.encodeHeaders output = .ok (written, cursor) ↔
      spec.encodedBth.Valid ∧ (∀ aeth ∈ spec.aeth, Aeth.layout.Valid aeth) ∧
        cursor = spec.headers.length ∧ written = fill output spec.headers := by
  have hbth : bthLen = spec.encodedBth.bytes.length := (Bth.layout.length_bytes _).symm
  have hroom₂ := (List.prefix_append _ _).length_le.trans hroom
  have hroom₁ := (List.prefix_append _ _).length_le.trans hroom₂
  have hroom₀ := (List.prefix_append _ _).length_le.trans hroom₁
  have hfront := fun written ↦ (Bth.writes_encode.within rfl rfl hroom₀ :
    within (fill output []) 0 bthLen spec.encodedBth.encode = .ok written ↔ _)
  rw [fill_nil] at hfront
  simp only [encodeHeaders, bind_eq_ok, Prod.exists, hfront]
  constructor
  · rintro ⟨_, ⟨hvalid, rfl⟩, _, _, hreth, _, _, haeth, himm⟩
    obtain ⟨-, rfl, rfl⟩ :=
      (encodeOptional_eq_ok Reth.layout Reth.writes_encode hbth rfl hroom₁).mp hreth
    obtain ⟨haethValid, rfl, rfl⟩ :=
      (encodeOptional_eq_ok Aeth.layout Aeth.writes_encode rfl rfl hroom₂).mp haeth
    obtain ⟨-, rfl, rfl⟩ :=
      (encodeOptional_eq_ok immediateLayout writes_immediate rfl rfl hroom).mp himm
    exact ⟨hvalid, haethValid, rfl, rfl⟩
  · rintro ⟨hvalid, haethValid, rfl, rfl⟩
    exact ⟨_, ⟨hvalid, rfl⟩, _, _,
      (encodeOptional_eq_ok Reth.layout Reth.writes_encode hbth rfl hroom₁).mpr
        ⟨fun _ _ ↦ trivial, rfl, rfl⟩, _, _,
      (encodeOptional_eq_ok Aeth.layout Aeth.writes_encode rfl rfl hroom₂).mpr
        ⟨haethValid, rfl, rfl⟩,
      (encodeOptional_eq_ok immediateLayout writes_immediate rfl rfl hroom).mpr
        ⟨fun _ _ ↦ trivial, rfl, rfl⟩⟩

/-- **The encoder accepts exactly the encodable specifications** that fit the buffer, and fills its
front with their body and a blank ICRC. -/
theorem encodeWithoutIcrc_eq_ok {n : ℕ} :
    spec.encodeWithoutIcrc output = .ok (n, written) ↔
      spec.Encodable ∧ spec.length < 2 ^ 64 ∧ spec.length ≤ output.length ∧
        n = spec.body.length ∧ written = fill output (spec.body ++ List.replicate icrcLen 0) := by
  simp only [encodeWithoutIcrc, bind_eq_ok, validateHeaders_eq_ok, encodedLen_eq_ok, guard_eq_ok,
    Prod.exists, Except.ok.injEq, Prod.mk.injEq, exists_const, Nat.not_lt]
  have hcursor : spec.headers.length + spec.payload.length + spec.padCount = spec.body.length := by
    rw [body, List.length_append, List.length_append, List.length_replicate]
  have hfill : splice (splice (splice (fill output spec.headers) spec.headers.length spec.payload)
        (spec.headers.length + spec.payload.length) (List.replicate spec.padCount 0))
        (spec.headers.length + spec.payload.length + spec.padCount) (List.replicate icrcLen 0) =
      fill output (spec.body ++ List.replicate icrcLen 0) := by
    rw [splice_fill _ _ _ rfl, splice_fill _ _ _ (by rw [List.length_append]), ← body,
      splice_fill _ _ _ hcursor]
  constructor
  · rintro ⟨⟨hreth, haeth, himm, hpayload⟩, _, ⟨hsmall, rfl⟩, hroom, _, _, hheaders, rfl, rfl⟩
    have hheadersRoom : spec.headers.length ≤ output.length := by
      have hlength := length_body hreth haeth himm
      omega
    obtain ⟨hvalid, haethValid, rfl, rfl⟩ := (encodeHeaders_eq_ok hheadersRoom).mp hheaders
    exact ⟨⟨hvalid, hreth, haeth, haethValid, himm, hpayload⟩, hsmall, hroom, hcursor, hfill⟩
  · rintro ⟨h, hsmall, hroom, rfl, rfl⟩
    have hheadersRoom : spec.headers.length ≤ output.length := by
      have hlength := length_body h.reth h.aeth h.immediateData
      omega
    exact ⟨⟨h.reth, h.aeth, h.immediateData, h.payload⟩, _, ⟨hsmall, rfl⟩, hroom, _, _,
      (encodeHeaders_eq_ok hheadersRoom).mpr ⟨h.bth, h.aethValid, rfl, rfl⟩, hcursor, hfill⟩

end PacketSpec

/-! ## Canonicity -/

def PacketRef.spec (packet : PacketRef) : PacketSpec :=
  ⟨packet.bth, packet.reth, packet.aeth, packet.immediateData, packet.payload⟩

/-- Re-encoding the packet into a buffer with room for it succeeds and reproduces the input before
the ICRC. -/
def PacketRef.Reproduces (packet : PacketRef) (input : List UInt8) : Prop :=
  ∀ output : List UInt8, packet.spec.length ≤ output.length →
    ∃ n written, packet.spec.encodeWithoutIcrc output = .ok (n, written) ∧
      written.take n = input.take (input.length - icrcLen)

/-- The payload and its padding are aligned to four bytes. -/
def PacketRef.Aligned (packet : PacketRef) : Prop :=
  (packet.payload.length + packet.bth.padCount.toNat) % 4 = 0

instance (packet : PacketRef) : Decidable packet.Aligned :=
  inferInstanceAs (Decidable ((packet.payload.length + packet.bth.padCount.toNat) % 4 = 0))

theorem PacketRef.WellFormed.aligned_iff (h : packet.WellFormed) :
    packet.Aligned ↔ packet.bytes.length % 4 = 0 := by
  have hbth : packet.bth.bytes.length = 12 := Bth.layout.length_bytes _
  have hreth : Reth.layout.size = 16 := rfl
  have haeth : Aeth.layout.size = 4 := rfl
  have himm : immediateLayout.size = 4 := rfl
  simp only [Aligned, bytes, headerBytes, List.length_append, length_optionalBytes, length_toLe,
    h.padding, hbth, hreth, haeth, himm]
  split_ifs <;> omega

theorem PacketRef.WellFormed.encodedBth_eq (h : packet.WellFormed) (haligned : packet.Aligned) :
    packet.spec.padCount = packet.bth.padCount.toNat ∧ packet.spec.encodedBth = packet.bth := by
  have hle : packet.bth.padCount.toNat ≤ 3 := UInt8.le_iff_toNat_le.mp h.bth.padCount
  have hpad : packet.spec.padCount = packet.bth.padCount.toNat := by
    unfold Aligned at haligned
    rw [PacketSpec.padCount_eq]
    change (4 - packet.payload.length % 4) % 4 = _
    omega
  refine ⟨hpad, ?_⟩
  rw [PacketSpec.encodedBth, hpad, UInt8.ofNat_toNat]
  rfl

/-- What was parsed can be encoded again when it is aligned. -/
theorem PacketRef.WellFormed.reproduces (h : packet.WellFormed) (haligned : packet.Aligned)
    (hsmall : packet.bytes.length < 2 ^ 63) :
    packet.Reproduces packet.bytes := by
  obtain ⟨hpad, hbth⟩ := h.encodedBth_eq haligned
  have hencodable : packet.spec.Encodable :=
    ⟨hbth ▸ h.bth, h.reth, h.aeth, h.aethValid, h.immediateData, h.payload⟩
  have hbody : packet.bytes = packet.spec.body ++ toLe 4 packet.icrc.toNat := by
    rw [bytes, PacketSpec.body, PacketSpec.headers, hbth, hpad, h.padding_eq]
    rfl
  have hlength : packet.spec.body.length + icrcLen = packet.spec.length :=
    PacketSpec.length_body h.reth h.aeth h.immediateData
  have htotal : packet.bytes.length = packet.spec.body.length + icrcLen := by
    rw [hbody, List.length_append, length_toLe]
    rfl
  intro output hroom
  refine ⟨_, _, PacketSpec.encodeWithoutIcrc_eq_ok.mpr ⟨hencodable, by omega, hroom, rfl, rfl⟩, ?_⟩
  rw [htotal, Nat.add_sub_cancel, hbody, fill, List.append_assoc, List.take_left, List.take_left]

/-- **Strict parsing is canonical exactly on aligned inputs**: an accepted byte string is
reproduced by re-encoding what was parsed, and obeys the alignment rule, if and only if its length
is a multiple of four.  (A slice is shorter than `2 ^ 63` bytes.) -/
theorem strict_parsing_canonical {input : List UInt8} {packet : PacketRef}
    (hslice : input.length < 2 ^ 63) (h : PacketRef.parse input .strict = .ok packet) :
    (packet.Aligned ∧ packet.Reproduces input) ↔ input.length % 4 = 0 := by
  obtain ⟨hwf, rfl⟩ := parse_eq_ok.mp h
  rw [← hwf.aligned_iff]
  exact ⟨And.left, fun haligned ↦ ⟨haligned, hwf.reproduces haligned hslice⟩⟩

namespace Sample

/-- A SEND ONLY of one payload byte whose header counts no pad bytes. -/
def unaligned : List UInt8 :=
  [0x04, 0x00, 0xff, 0xff, 0x00, 0x00, 0x00, 0x02, 0x00, 0x00, 0x00, 0x07, 0xaa, 0, 0, 0, 0]

/-- The same packet with its three pad bytes. -/
def aligned : List UInt8 :=
  [0x04, 0x30, 0xff, 0xff, 0x00, 0x00, 0x00, 0x02, 0x00, 0x00, 0x00, 0x07, 0xaa, 0, 0, 0, 0, 0, 0,
    0]

/-- The parsed header of a sample. -/
def parsed (padCount : UInt8) (padding : List UInt8) : PacketRef :=
  ⟨⟨.sendOnly, false, false, padCount, 0, 0xffff, false, false, 2, false, 7⟩, none, none, none,
    [0xaa], padding, 0⟩

end Sample

theorem strict_parsing_canonical_sample :
    PacketRef.parse Sample.aligned .strict = .ok (Sample.parsed 3 [0, 0, 0]) ∧
      (Sample.parsed 3 [0, 0, 0]).Reproduces Sample.aligned := by
  have hparse : PacketRef.parse Sample.aligned .strict = .ok (Sample.parsed 3 [0, 0, 0]) := by
    decide
  exact ⟨hparse, ((strict_parsing_canonical (by decide) hparse).mpr rfl).2⟩

/-- **A packet that is not aligned is accepted**: the parser takes the pad count it is given, and
the encoder writes sixteen bytes before the ICRC where there were thirteen. -/
theorem unaligned_packet_accepted :
    PacketRef.parse Sample.unaligned .strict = .ok (Sample.parsed 0 []) ∧
      ¬ (Sample.parsed 0 []).Aligned ∧ ¬ (Sample.parsed 0 []).Reproduces Sample.unaligned := by
  refine ⟨by decide, by decide, ?_⟩
  intro h
  obtain ⟨n, written, hencode, hwritten⟩ := h (List.replicate 20 0) (by decide)
  have hsixteen : (Sample.parsed 0 []).spec.encodeWithoutIcrc (List.replicate 20 0) =
      .ok (16, [0x04, 0x30, 0xff, 0xff, 0, 0, 0, 2, 0, 0, 0, 7, 0xaa, 0, 0, 0, 0, 0, 0, 0]) := by
    decide
  rw [hsixteen, Except.ok.injEq, Prod.mk.injEq] at hencode
  obtain ⟨rfl, rfl⟩ := hencode
  exact absurd hwritten (by decide)

end Rocev2.Wire.Codec
