import Rocev2.Wire.Codec.Header

/-!
# Parsing transport packets

The parser of `packet.rs`: a UDP payload from the base header through the ICRC, with the extended
headers its opcode calls for.

`PacketRef.bytes` lays a packet out with the pad count its header names.  The parser accepts exactly
the layouts of framed packets that its options admit and returns the packet that is laid out
(`parse_eq_ok_iff`); for strict parsing these are the well-formed packets (`parse_eq_ok`).
-/

namespace Rocev2.Wire.Codec

open Lib Lib.Bytes

variable {input before : List UInt8} {cursor : ℕ}

/-- Addition of machine-word lengths. -/
def checkedAdd (a b : ℕ) : Except WireError ℕ :=
  if a + b < 2 ^ 64 then .ok (a + b) else .error .arithmeticOverflow

theorem checkedAdd_eq_ok {a b c : ℕ} : checkedAdd a b = .ok c ↔ a + b < 2 ^ 64 ∧ c = a + b := by
  unfold checkedAdd
  split_ifs with h
  · exact ⟨fun heq ↦ ⟨h, (Except.ok.inj heq).symm⟩, fun heq ↦ heq.2 ▸ rfl⟩
  · exact ⟨fun heq ↦ (by cases heq), fun heq ↦ absurd heq.1 h⟩

/-! ## Parser -/

/-- Parser strictness controls. -/
structure ParseOptions where
  /-- Reject non-zero pad bytes. -/
  requireZeroPadding : Bool
  /-- Reject payload on opcodes that must not carry one. -/
  rejectUnexpectedPayload : Bool
deriving DecidableEq, Repr

def ParseOptions.strict : ParseOptions := ⟨true, true⟩

/-- A decoded transport packet. -/
structure PacketRef where
  /-- Base transport header. -/
  bth : Bth
  /-- Optional RDMA extended transport header. -/
  reth : Option Reth
  /-- Optional ACK extended transport header. -/
  aeth : Option Aeth
  /-- Immediate data, when the opcode carries it. -/
  immediateData : Option UInt32
  /-- Operation payload. -/
  payload : List UInt8
  /-- Trailing pad bytes. -/
  padding : List UInt8
  /-- ICRC value. -/
  icrc : UInt32
deriving DecidableEq, Repr

def immediateLayout : Layout UInt32 where
  size := 4
  Valid := fun _ ↦ True
  bytes := fun value ↦ toBe 4 value.toNat
  length_bytes := fun value ↦ length_toBe 4 value.toNat

def decodeImmediate (window : List UInt8) : Except WireError UInt32 := .ok (u32FromBe window)

/-- Decode the header of `size` bytes at the cursor when the opcode has one, and move the cursor
behind it. -/
def optionalHeader {α : Type} (present : Bool) (input : List UInt8) (cursor size : ℕ)
    (decode : List UInt8 → Except WireError α) : Except WireError (Option α × ℕ) :=
  if present then do
    let stop ← checkedAdd cursor size
    if stop > input.length then .error (.bufferTooShort stop input.length)
    else
      let value ← decode (slice input cursor stop)
      .ok (some value, stop)
  else .ok (none, cursor)

/-- The part of the parser behind the headers: payload, padding and ICRC. -/
def parsePayload (input : List UInt8) (options : ParseOptions) (bth : Bth) (reth : Option Reth)
    (aeth : Option Aeth) (immediateData : Option UInt32) (cursor : ℕ) :
    Except WireError PacketRef := do
  let trailer ← checkedAdd bth.padCount.toNat icrcLen
  if input.length < cursor + trailer then
    .error (.lengthMismatch (cursor + trailer) input.length)
  else
    let payloadEnd := input.length - trailer
    let paddingEnd := input.length - icrcLen
    let payload := slice input cursor payloadEnd
    let padding := slice input payloadEnd paddingEnd
    if options.rejectUnexpectedPayload && !bth.opcode.allowsPayload && !payload.isEmpty then
      .error (.headerMismatch bth.opcode.asU8 "no payload")
    else if options.requireZeroPadding && padding.any (· != 0) then .error .nonZeroPadding
    else
      .ok ⟨bth, reth, aeth, immediateData, payload, padding,
        u32FromLe (slice input paddingEnd (paddingEnd + 4))⟩

/-- Parse a UDP payload that starts with the base header and ends with the ICRC. -/
def PacketRef.parse (input : List UInt8) (options : ParseOptions) : Except WireError PacketRef :=
  if input.length < bthLen + icrcLen then
    .error (.bufferTooShort (bthLen + icrcLen) input.length)
  else do
    let bth ← Bth.decode input
    let (reth, cursor) ← optionalHeader bth.opcode.hasReth input bthLen rethLen Reth.decode
    let (aeth, cursor) ← optionalHeader bth.opcode.hasAeth input cursor aethLen Aeth.decode
    let (immediateData, cursor) ←
      optionalHeader bth.opcode.hasImmediate input cursor 4 decodeImmediate
    parsePayload input options bth reth aeth immediateData cursor

/-! ## Layout of a packet -/

def optionalBytes {α : Type} (layout : Layout α) (value : Option α) : List UInt8 :=
  value.elim [] layout.bytes

/-- The packets that any parsing returns: the opcode decides which headers are present, the pad
count how many pad bytes there are. -/
structure PacketRef.Framed (packet : PacketRef) : Prop where
  /-- The base header fits the wire. -/
  bth : packet.bth.Valid
  /-- A RETH is present exactly when the opcode carries one. -/
  reth : packet.reth.isSome = packet.bth.opcode.hasReth
  /-- An AETH is present exactly when the opcode carries one. -/
  aeth : packet.aeth.isSome = packet.bth.opcode.hasAeth
  /-- The AETH fits the wire. -/
  aethValid : ∀ aeth ∈ packet.aeth, Aeth.layout.Valid aeth
  /-- Immediate data is present exactly when the opcode carries it. -/
  immediateData : packet.immediateData.isSome = packet.bth.opcode.hasImmediate
  /-- The header counts the pad bytes. -/
  padding : packet.padding.length = packet.bth.padCount.toNat

/-- The packets that strict parsing returns. -/
structure PacketRef.WellFormed (packet : PacketRef) : Prop extends packet.Framed where
  /-- Only opcodes that allow a payload have one. -/
  payload : packet.bth.opcode.allowsPayload = false → packet.payload = []
  /-- The pad bytes are zeros. -/
  zeros : ∀ byte ∈ packet.padding, byte = 0

/-- What the options demand of a packet beyond its framing. -/
structure ParseOptions.Admits (options : ParseOptions) (packet : PacketRef) : Prop where
  payload : options.rejectUnexpectedPayload = true → packet.bth.opcode.allowsPayload = false →
    packet.payload = []
  padding : options.requireZeroPadding = true → ∀ byte ∈ packet.padding, byte = 0

variable {packet : PacketRef}

theorem PacketRef.wellFormed_iff :
    packet.WellFormed ↔ packet.Framed ∧ ParseOptions.strict.Admits packet := by
  constructor
  · exact fun h ↦ ⟨h.toFramed, fun _ ↦ h.payload, fun _ ↦ h.zeros⟩
  · exact fun ⟨hframed, hadmits⟩ ↦ ⟨hframed, hadmits.payload rfl, hadmits.padding rfl⟩

theorem PacketRef.WellFormed.padding_eq (h : packet.WellFormed) :
    packet.padding = List.replicate packet.bth.padCount.toNat 0 :=
  List.eq_replicate_iff.mpr ⟨h.padding, h.zeros⟩

/-- The transport headers of a packet. -/
def headerBytes (bth : Bth) (reth : Option Reth) (aeth : Option Aeth)
    (immediateData : Option UInt32) : List UInt8 :=
  bth.bytes ++ optionalBytes Reth.layout reth ++ optionalBytes Aeth.layout aeth ++
    optionalBytes immediateLayout immediateData

def PacketRef.bytes (packet : PacketRef) : List UInt8 :=
  headerBytes packet.bth packet.reth packet.aeth packet.immediateData ++ packet.payload ++
    packet.padding ++ toLe 4 packet.icrc.toNat

/-! ## What the parser accepts -/

/-- **An optional header is read at the cursor** when its bytes stand there. -/
theorem optionalHeader_eq_ok {α : Type} (layout : Layout α)
    {decode : List UInt8 → Except WireError α}
    (hdecode : ∀ window : List UInt8, window.length = layout.size → ∀ value,
      decode window = .ok value ↔ layout.Valid value ∧ window = layout.bytes value) {present : Bool}
    {size stop : ℕ} {value : Option α} (hbefore : before <+: input)
    (hcursor : cursor = before.length) (hsize : size = layout.size)
    (hsmall : cursor + size < 2 ^ 64) :
    optionalHeader present input cursor size decode = .ok (value, stop) ↔
      value.isSome = present ∧ (∀ v ∈ value, layout.Valid v) ∧
        stop = (before ++ optionalBytes layout value).length ∧
        before ++ optionalBytes layout value <+: input := by
  subst hcursor hsize
  obtain ⟨rest, rfl⟩ := hbefore
  rw [List.prefix_append_right_inj]
  cases present with
  | false =>
    rw [optionalHeader, if_neg Bool.false_ne_true, Except.ok.injEq, Prod.mk.injEq]
    constructor
    · rintro ⟨rfl, rfl⟩
      simp [optionalBytes]
    · rintro ⟨hnone, -, rfl, -⟩
      rw [Option.isSome_eq_false_iff, Option.isNone_iff_eq_none] at hnone
      simp [hnone, optionalBytes]
  | true =>
    have hslice : slice (before ++ rest) before.length (before.length + layout.size) =
        rest.take layout.size := by
      rw [slice_append before rest rfl, Nat.add_sub_cancel_left]
    simp only [optionalHeader, if_true, bind_eq_ok, checkedAdd_eq_ok, guard_eq_ok,
      Except.ok.injEq, Prod.mk.injEq]
    constructor
    · rintro ⟨_, ⟨-, rfl⟩, hroom, v, hv, rfl, rfl⟩
      have hroom' : layout.size ≤ rest.length := by
        rw [List.length_append] at hroom
        omega
      rw [hslice] at hv
      obtain ⟨hvalid, hbytes⟩ := (hdecode _ (by simp [hroom']) v).mp hv
      refine ⟨rfl, ?_, ?_, rest.drop layout.size, ?_⟩
      · rintro _ ⟨⟩
        exact hvalid
      · simp [optionalBytes, layout.length_bytes]
      · rw [optionalBytes, Option.elim_some, ← hbytes, List.take_append_drop]
    · rintro ⟨hsome, hvalid, rfl, behind, rfl⟩
      obtain ⟨v, rfl⟩ := Option.isSome_iff_exists.mp hsome
      have hlength : (optionalBytes layout (some v)).length = layout.size := layout.length_bytes v
      have htake : (optionalBytes layout (some v) ++ behind).take layout.size =
          layout.bytes v := by
        rw [← hlength, List.take_left]
        rfl
      refine ⟨_, ⟨hsmall, rfl⟩, ?_, v, ?_, rfl, ?_⟩
      · simp only [List.length_append, hlength]
        omega
      · rw [hslice, htake]
        exact (hdecode _ (layout.length_bytes v) v).mpr ⟨hvalid v rfl, rfl⟩
      · rw [List.length_append, hlength]

theorem decodeImmediate_eq_ok {window : List UInt8} (hlength : window.length = 4)
    (value : UInt32) :
    decodeImmediate window = .ok value ↔
      immediateLayout.Valid value ∧ window = immediateLayout.bytes value := by
  rw [decodeImmediate, Except.ok.injEq]
  constructor
  · rintro rfl
    exact ⟨trivial, (toBe_u32FromBe hlength).symm⟩
  · rintro ⟨-, rfl⟩
    exact u32FromBe_toBe value

/-- The windows of the parser behind the headers. -/
theorem slice_trailer {payload padding tail : List UInt8} {trailer : ℕ}
    (hinput : input = before ++ (payload ++ padding ++ tail)) (hcursor : cursor = before.length)
    (htrailer : trailer = padding.length + icrcLen) (htail : tail.length = icrcLen) :
    slice input cursor (input.length - trailer) = payload ∧
      slice input (input.length - trailer) (input.length - icrcLen) = padding ∧
      slice input (input.length - icrcLen) (input.length - icrcLen + 4) = tail := by
  have hicrc : icrcLen = 4 := rfl
  have hlength : input.length = before.length + payload.length + padding.length + icrcLen := by
    rw [hinput]
    simp only [List.length_append, htail]
    omega
  have h₁ : input = before ++ payload ++ (padding ++ tail) := by simp [hinput]
  have h₂ : input = (before ++ payload) ++ padding ++ tail := by simp [hinput]
  have h₃ : input = (before ++ payload ++ padding) ++ tail ++ [] := by simp [hinput]
  refine ⟨slice_middle h₁ hcursor (by omega), slice_middle h₂ ?_ (by omega),
    slice_middle h₃ ?_ (by omega)⟩
  · rw [List.length_append]
    omega
  · simp only [List.length_append]
    omega

variable {options : ParseOptions}

/-- **The end of a packet is split by the pad count**: pad bytes and ICRC from behind, the payload
is what remains. -/
theorem parsePayload_eq_ok {bth : Bth} {reth : Option Reth} {aeth : Option Aeth}
    {immediateData : Option UInt32} (hbefore : before <+: input)
    (hcursor : cursor = before.length) :
    parsePayload input options bth reth aeth immediateData cursor = .ok packet ↔
      packet.bth = bth ∧ packet.reth = reth ∧ packet.aeth = aeth ∧
        packet.immediateData = immediateData ∧ options.Admits packet ∧
        packet.padding.length = bth.padCount.toNat ∧
        input = before ++ (packet.payload ++ packet.padding ++ toLe 4 packet.icrc.toNat) := by
  obtain ⟨rest, rfl⟩ := hbefore
  rw [List.append_right_inj]
  have hpad := bth.padCount.toNat_lt
  have hicrc : icrcLen = 4 := rfl
  simp only [parsePayload, bind_eq_ok, checkedAdd_eq_ok, guard_eq_ok, Except.ok.injEq]
  constructor
  · rintro ⟨_, ⟨-, rfl⟩, hroom, hpayload, hpadding, rfl⟩
    rw [List.length_append] at hroom
    -- cut the rest at the pad count and the ICRC
    obtain ⟨payload, padding, tail, rfl, hpaddingLength, htail⟩ : ∃ payload padding tail,
        rest = payload ++ padding ++ tail ∧ padding.length = bth.padCount.toNat ∧
          tail.length = icrcLen := by
      refine ⟨rest.take (rest.length - (bth.padCount.toNat + icrcLen)),
        (rest.drop (rest.length - (bth.padCount.toNat + icrcLen))).take bth.padCount.toNat,
        (rest.drop (rest.length - (bth.padCount.toNat + icrcLen))).drop bth.padCount.toNat,
        ?_, ?_, ?_⟩
      · rw [List.append_assoc, List.take_append_drop, List.take_append_drop]
      · simp only [List.length_take, List.length_drop]
        omega
      · simp only [List.length_drop]
        omega
    obtain ⟨h₁, h₂, h₃⟩ := slice_trailer rfl hcursor
      (congrArg (· + icrcLen) hpaddingLength.symm) htail
    rw [h₁] at hpayload
    rw [h₂] at hpadding
    rw [h₁, h₂, h₃]
    refine ⟨rfl, rfl, rfl, rfl, ⟨?_, ?_⟩, hpaddingLength, ?_⟩
    · intro hreject hallows
      simpa [hreject, hallows] using hpayload
    · intro hzero
      simpa [hzero] using hpadding
    · rw [toLe_u32FromLe htail]
  · rintro ⟨rfl, rfl, rfl, rfl, hadmits, hpaddingLength, rfl⟩
    obtain ⟨h₁, h₂, h₃⟩ := slice_trailer rfl hcursor
      (congrArg (· + icrcLen) hpaddingLength.symm) (length_toLe 4 packet.icrc.toNat)
    refine ⟨_, ⟨by omega, rfl⟩, ?_, ?_, ?_, ?_⟩
    · simp only [List.length_append, hpaddingLength, length_toLe]
      omega
    · rw [h₁]
      simpa using hadmits.payload
    · rw [h₂]
      simpa using hadmits.padding
    · rw [h₁, h₂, h₃, u32FromLe_toLe]

theorem length_optionalBytes {α : Type} (layout : Layout α) (value : Option α) :
    (optionalBytes layout value).length = if value.isSome then layout.size else 0 := by
  cases value with
  | none => rfl
  | some v => exact layout.length_bytes v

theorem length_optionalBytes_le {α : Type} (layout : Layout α) (value : Option α) :
    (optionalBytes layout value).length ≤ layout.size := by
  rw [length_optionalBytes]
  split
  · exact le_rfl
  · exact Nat.zero_le _

theorem length_headers (bth : Bth) (reth : Option Reth) (aeth : Option Aeth) :
    bth.bytes.length = bthLen ∧
      (bth.bytes ++ optionalBytes Reth.layout reth).length + aethLen < 2 ^ 64 ∧
      (bth.bytes ++ optionalBytes Reth.layout reth ++ optionalBytes Aeth.layout aeth).length + 4 <
        2 ^ 64 := by
  have hbth : bth.bytes.length = bthLen := Bth.layout.length_bytes bth
  have hreth : _ ≤ rethLen := length_optionalBytes_le Reth.layout reth
  have haeth : _ ≤ aethLen := length_optionalBytes_le Aeth.layout aeth
  refine ⟨hbth, ?_, ?_⟩
  · simp only [List.length_append, hbth, bthLen, rethLen, aethLen] at hreth ⊢
    omega
  · simp only [List.length_append, hbth, bthLen, rethLen, aethLen] at hreth haeth ⊢
    omega

/-- **The parser accepts exactly the layouts of framed packets** that its options admit, and returns
the packet that is laid out. -/
theorem parse_eq_ok_iff :
    PacketRef.parse input options = .ok packet ↔
      packet.Framed ∧ options.Admits packet ∧ input = packet.bytes := by
  have hreadReth {window : List UInt8} (h : window.length = Reth.layout.size) (value : Reth) :=
    Reth.reads_decode.window h value
  have hreadAeth {window : List UInt8} (h : window.length = Aeth.layout.size) (value : Aeth) :=
    Aeth.reads_decode.window h value
  simp only [PacketRef.parse, guard_eq_ok, bind_eq_ok, Prod.exists]
  constructor
  · rintro ⟨-, bth, hbth, reth, c₁, hreth, aeth, c₂, haeth, imm, c₃, himm, hpayload⟩
    obtain ⟨hvalid, rest, hrest⟩ := (Bth.reads_decode _ _).mp hbth
    obtain ⟨hlength, hsmall₁, hsmall₂⟩ := length_headers bth reth aeth
    obtain ⟨hrethSome, -, rfl, hbefore₁⟩ :=
      (optionalHeader_eq_ok Reth.layout (fun _ ↦ hreadReth) ⟨rest, hrest.symm⟩ hlength.symm rfl
        (by decide)).mp hreth
    obtain ⟨haethSome, haethValid, rfl, hbefore₂⟩ :=
      (optionalHeader_eq_ok Aeth.layout (fun _ ↦ hreadAeth) hbefore₁ rfl rfl hsmall₁).mp haeth
    obtain ⟨himmSome, -, rfl, hbefore₃⟩ :=
      (optionalHeader_eq_ok immediateLayout (fun _ ↦ decodeImmediate_eq_ok) hbefore₂ rfl rfl
        hsmall₂).mp himm
    obtain ⟨rfl, rfl, rfl, rfl, hadmits, hpadding, rfl⟩ :=
      (parsePayload_eq_ok hbefore₃ rfl).mp hpayload
    refine ⟨⟨hvalid, hrethSome, haethSome, haethValid, himmSome, hpadding⟩, hadmits, ?_⟩
    simp only [PacketRef.bytes, headerBytes, List.append_assoc]
    rfl
  · rintro ⟨h, hadmits, rfl⟩
    obtain ⟨hlength, hsmall₁, hsmall₂⟩ := length_headers packet.bth packet.reth packet.aeth
    have hbytes : packet.bytes = headerBytes packet.bth packet.reth packet.aeth
        packet.immediateData ++ (packet.payload ++ packet.padding ++ toLe 4 packet.icrc.toNat) := by
      simp only [PacketRef.bytes, List.append_assoc]
    -- the headers stand in front of the packet, one behind the other
    have hbefore₃ : headerBytes packet.bth packet.reth packet.aeth packet.immediateData <+:
        packet.bytes := ⟨_, hbytes.symm⟩
    have hbefore₂ := (List.prefix_append _ _).trans hbefore₃
    have hbefore₁ := (List.prefix_append _ _).trans hbefore₂
    have hbefore₀ := (List.prefix_append _ _).trans hbefore₁
    have hroom : ¬ packet.bytes.length < bthLen + icrcLen := by
      rw [hbytes]
      simp only [headerBytes, List.length_append, length_toLe, hlength, icrcLen]
      omega
    have hbth : Bth.decode packet.bytes = .ok packet.bth :=
      (Bth.reads_decode _ _).mpr ⟨h.bth, hbefore₀.imp fun _ ↦ Eq.symm⟩
    exact ⟨hroom, packet.bth, hbth, packet.reth, _,
      (optionalHeader_eq_ok Reth.layout (fun _ ↦ hreadReth) hbefore₀ hlength.symm rfl
        (by decide)).mpr ⟨h.reth, fun _ _ ↦ trivial, rfl, hbefore₁⟩, packet.aeth, _,
      (optionalHeader_eq_ok Aeth.layout (fun _ ↦ hreadAeth) hbefore₁ rfl rfl hsmall₁).mpr
        ⟨h.aeth, h.aethValid, rfl, hbefore₂⟩, packet.immediateData, _,
      (optionalHeader_eq_ok immediateLayout (fun _ ↦ decodeImmediate_eq_ok) hbefore₂ rfl rfl
        hsmall₂).mpr ⟨h.immediateData, fun _ _ ↦ trivial, rfl, hbefore₃⟩,
      (parsePayload_eq_ok hbefore₃ rfl).mpr
        ⟨rfl, rfl, rfl, rfl, hadmits, h.padding, hbytes⟩⟩

/-- **Strict parsing accepts exactly the layouts of well-formed packets**, and returns the packet
that is laid out. -/
theorem parse_eq_ok :
    PacketRef.parse input .strict = .ok packet ↔
      packet.WellFormed ∧ input = packet.bytes := by
  rw [parse_eq_ok_iff, PacketRef.wellFormed_iff, and_assoc]

end Rocev2.Wire.Codec
