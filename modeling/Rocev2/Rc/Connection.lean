import Rocev2.Lib.Layout
import Rocev2.Rc.Slot

/-!
# Connection records

`rocev2/src/connection.rs`: the record by which two peers tell each other their parameters, and
the queue-pair configuration a side derives from its own record and the other's.

The encoder copies the fields to fixed offsets of a blank buffer and the decoder reads them at
offsets of its own.  Both are compared with one description of the record, the list of its parts in
the order in which they stand (`parts`): the encoder leaves their concatenation (`encode_eq_ok`),
and the windows the decoder reads are the parts one by one (`decode_eq_ok`).  What a record
negotiates is then symmetric in the two peers (`qpConfig_eq_ok`).
-/

namespace Rocev2.Rc

open Lib Lib.Bytes Rocev2.Core Wire

/-- Encoded version-one connection record size. -/
def rcConnectionInfoLen : ℕ := 64

/-- Explicit connection parameters for an IPv4 RC peer. -/
structure RcConnectionInfo where
  /-- Local unicast IPv4 address. -/
  ipv4 : Ipv4Addr
  /-- Local MAC, or all zeroes when the backend resolves Ethernet itself. -/
  mac : Vector UInt8 6
  /-- Local application queue-pair number. -/
  qpn : UInt32
  /-- Initial local requester PSN. -/
  psn : UInt32
  /-- Path MTU in payload bytes. -/
  mtu : UInt16
  /-- Exported remote key. -/
  rkey : UInt32
  /-- Exported memory base address. -/
  remoteAddress : UInt64
  /-- Exported memory extent. -/
  remoteLength : UInt64
  /-- Local transport retry code. -/
  retryCount : UInt8
  /-- Local RNR retry code. -/
  rnrRetryCount : UInt8
  /-- Local ACK timeout code. -/
  timeout : UInt8
  /-- Advertised requester READ depth; version one supports exactly one. -/
  maxRdAtomic : UInt8
  /-- Advertised responder READ depth; version one supports exactly one. -/
  maxDestRdAtomic : UInt8
  /-- Local responder RNR timer code. -/
  rnrNakTimer : UInt8
  /-- UDP source port used by this requester. -/
  udpSourcePort : UInt16
deriving DecidableEq

/-- Invalid out-of-band connection metadata. -/
inductive ConnectionInfoError where
  /-- The record does not have the exact encoded size. -/
  | length
  /-- Magic or version is unsupported. -/
  | version
  /-- A reserved byte is nonzero. -/
  | reserved
  /-- A field lies outside the supported protocol subset. -/
  | field (name : String)
deriving DecidableEq, Repr

namespace RcConnectionInfo

variable {info : RcConnectionInfo} {input : List UInt8}

/-- Validate widths, unicast address, memory bounds, and depth-one limits. -/
def validate (info : RcConnectionInfo) : Except ConnectionInfoError Unit :=
  if info.ipv4.get 0 = 0 ∨ 224 ≤ info.ipv4.get 0 then .error (.field "ipv4")
  else if ¬(2 ≤ info.qpn ∧ info.qpn ≤ 0x00ffffff) then .error (.field "qpn")
  else if 0x00ffffff < info.psn then .error (.field "psn")
  else if (PathMtu.fromBytes info.mtu.toNat).isNone then .error (.field "mtu")
  else if 2 ^ 64 ≤ info.remoteAddress.toNat + info.remoteLength.toNat then
    .error (.field "remote range")
  else if 7 < info.retryCount ∨ 7 < info.rnrRetryCount ∨ 31 < info.timeout ∨
      31 < info.rnrNakTimer then
    .error (.field "retry policy")
  else if info.maxRdAtomic ≠ 1 ∨ info.maxDestRdAtomic ≠ 1 then .error (.field "READ depth")
  else if info.udpSourcePort < 49152 then .error (.field "UDP source port")
  else .ok ()

/-- `b"RCV2"`. -/
def magic : List UInt8 := [0x52, 0x43, 0x56, 0x32]

/-- The one-byte fields, in the order of the record. -/
def codes (info : RcConnectionInfo) : List UInt8 :=
  [info.retryCount, info.rnrRetryCount, info.timeout, info.maxRdAtomic, info.maxDestRdAtomic,
    info.rnrNakTimer]

/-- Copy the fields of a record into a blank buffer. -/
def write (info : RcConnectionInfo) : List UInt8 :=
  let out := List.replicate rcConnectionInfoLen 0
  let out := splice out 0 magic
  let out := splice out 4 (toBe 2 (1 : UInt16).toNat)
  let out := splice out 6 (toBe 2 (64 : UInt16).toNat)
  let out := splice out 8 info.ipv4.toList
  let out := splice out 12 info.mac.toList
  let out := splice out 18 (toBe 2 info.mtu.toNat)
  let out := splice out 20 (toBe 4 info.qpn.toNat)
  let out := splice out 24 (toBe 4 info.psn.toNat)
  let out := splice out 28 (toBe 4 info.rkey.toNat)
  let out := splice out 32 (toBe 8 info.remoteAddress.toNat)
  let out := splice out 40 (toBe 8 info.remoteLength.toNat)
  let out := splice out 48 info.codes
  splice out 54 (toBe 2 info.udpSourcePort.toNat)

/-- Encode a fixed-size version-one record. -/
def encode (info : RcConnectionInfo) : Except ConnectionInfoError (List UInt8) := do
  info.validate
  return info.write

/-- Read the fields of a record of 64 bytes; no index is behind its end. -/
def read (bytes : List UInt8) : RcConnectionInfo :=
  let word := fun offset ↦ u32FromBe (arrayAt 0 bytes offset 4).toList
  let wide := fun offset ↦ u64FromBe (arrayAt 0 bytes offset 8).toList
  { ipv4 := arrayAt 0 bytes 8 4
    mac := arrayAt 0 bytes 12 6
    mtu := u16FromBe [bytes.getD 18 0, bytes.getD 19 0]
    qpn := word 20
    psn := word 24
    rkey := word 28
    remoteAddress := wide 32
    remoteLength := wide 40
    retryCount := bytes.getD 48 0
    rnrRetryCount := bytes.getD 49 0
    timeout := bytes.getD 50 0
    maxRdAtomic := bytes.getD 51 0
    maxDestRdAtomic := bytes.getD 52 0
    rnrNakTimer := bytes.getD 53 0
    udpSourcePort := u16FromBe [bytes.getD 54 0, bytes.getD 55 0] }

/-- Decode one exact version-one record; truncated or extended input is rejected. -/
def decode (input : List UInt8) : Except ConnectionInfoError RcConnectionInfo :=
  if input.length ≠ rcConnectionInfoLen then .error .length
  else if slice input 0 4 ≠ magic ∨ slice input 4 6 ≠ [0, 1] then .error .version
  else if slice input 6 8 ≠ [0, 64] then .error .length
  else if (slice input 56 64).any (· != 0) then .error .reserved
  else do
    (read input).validate
    return read input

/-- The configuration of a side, once the MTU is negotiated. -/
def configWith (info remote : RcConnectionInfo) (pathMtu : PathMtu) : RcQpConfig where
  transport := {
    localQpn := info.qpn.toNat
    remoteQpn := remote.qpn.toNat
    sendPsn := .newTruncated info.psn.toNat
    receivePsn := .newTruncated remote.psn.toNat
    pathMtu := pathMtu
    retryCount := info.retryCount.toNat
    rnrRetryCount := info.rnrRetryCount.toNat
    timeout := info.timeout.toNat }
  path := .new info.ipv4 remote.ipv4 info.udpSourcePort
  rnrNakTimer := info.rnrNakTimer

/-- Build local queue-pair configuration after validating both peers and choosing the smaller
MTU. -/
def qpConfig (info remote : RcConnectionInfo) : Except ConnectionInfoError RcQpConfig := do
  info.validate
  remote.validate
  match PathMtu.fromBytes (min info.mtu.toNat remote.mtu.toNat) with
  | none => .error (.field "mtu")
  | some pathMtu => return info.configWith remote pathMtu

/-! ## Validation -/

/-- What validation guarantees. -/
structure Valid (info : RcConnectionInfo) : Prop where
  unicast : ¬(info.ipv4.get 0 = 0 ∨ 224 ≤ info.ipv4.get 0)
  qpn : 2 ≤ info.qpn ∧ info.qpn ≤ 0x00ffffff
  psn : info.psn ≤ 0x00ffffff
  mtu : (PathMtu.fromBytes info.mtu.toNat).isSome
  range : info.remoteAddress.toNat + info.remoteLength.toNat < 2 ^ 64
  retryCount : info.retryCount ≤ 7
  rnrRetryCount : info.rnrRetryCount ≤ 7
  timeout : info.timeout ≤ 31
  rnrNakTimer : info.rnrNakTimer ≤ 31
  depth : info.maxRdAtomic = 1 ∧ info.maxDestRdAtomic = 1
  port : 49152 ≤ info.udpSourcePort

theorem validate_eq_ok : info.validate = .ok () ↔ info.Valid := by
  simp only [validate, guard_eq_ok, not_not, not_or, and_true, UInt8.not_lt, UInt16.not_lt,
    UInt32.not_lt, Nat.not_le, ← Option.not_isSome, Bool.not_eq_true', Bool.not_eq_false]
  constructor
  · rintro ⟨hunicast, hqpn, hpsn, hmtu, hrange, ⟨hretry, hrnr, htimeout, hnak⟩, hdepth, hport⟩
    exact ⟨not_or.mpr hunicast, hqpn, hpsn, hmtu, hrange, hretry, hrnr, htimeout, hnak, hdepth,
      hport⟩
  · intro h
    exact ⟨not_or.mp h.unicast, h.qpn, h.psn, h.mtu, h.range,
      ⟨h.retryCount, h.rnrRetryCount, h.timeout, h.rnrNakTimer⟩, h.depth, h.port⟩

/-! ## The parts of a record -/

/-- The parts of a record, in the order in which they stand. -/
def parts (info : RcConnectionInfo) : List (List UInt8) :=
  [magic, toBe 2 1, toBe 2 64, info.ipv4.toList, info.mac.toList, toBe 2 info.mtu.toNat,
    toBe 4 info.qpn.toNat, toBe 4 info.psn.toNat, toBe 4 info.rkey.toNat,
    toBe 8 info.remoteAddress.toNat, toBe 8 info.remoteLength.toNat, info.codes,
    toBe 2 info.udpSourcePort.toNat, List.replicate 8 0]

/-- The windows of a record, in the order in which they stand. -/
def windows (input : List UInt8) : List (List UInt8) :=
  [slice input 0 4, slice input 4 6, slice input 6 8, slice input 8 12, slice input 12 18,
    slice input 18 20, slice input 20 24, slice input 24 28, slice input 28 32, slice input 32 40,
    slice input 40 48, slice input 48 54, slice input 54 56, slice input 56 64]

theorem flatten_windows (h : input.length = rcConnectionInfoLen) :
    (windows input).flatten = input := by
  have hwhole : slice input 0 64 = input := by
    rw [show 64 = input.length from h.symm, slice_zero_length]
  simp (disch := decide) only [windows, List.flatten_cons, List.flatten_nil, List.append_nil,
    slice_append_slice]
  exact hwhole

theorem length_parts (h : input.length = rcConnectionInfoLen) (info : RcConnectionInfo) :
    (windows input).map List.length = info.parts.map List.length := by
  rw [rcConnectionInfoLen] at h
  simp [windows, parts, codes, magic, length_slice, h]

/-- **The windows of a record are its parts**, whatever the record. -/
theorem windows_eq_parts_iff (h : input.length = rcConnectionInfoLen) (info : RcConnectionInfo) :
    windows input = info.parts ↔ input = info.parts.flatten := by
  rw [List.eq_iff_flatten_eq, flatten_windows h]
  exact and_iff_left (length_parts h info)

/-- The parts determine the record. -/
theorem parts_injective : Function.Injective parts := by
  intro a b h
  simp only [parts, codes, List.cons.injEq, Vector.toList_inj] at h
  obtain ⟨-, -, -, hipv4, hmac, hmtu, hqpn, hpsn, hrkey, haddress, hlength, hcodes, hport, -⟩ := h
  obtain ⟨hretry, hrnr, htimeout, hread, hdest, hnak, -⟩ := hcodes
  have hmtu : a.mtu = b.mtu := by simpa using congrArg u16FromBe hmtu
  have hqpn : a.qpn = b.qpn := by simpa using congrArg u32FromBe hqpn
  have hpsn : a.psn = b.psn := by simpa using congrArg u32FromBe hpsn
  have hrkey : a.rkey = b.rkey := by simpa using congrArg u32FromBe hrkey
  have haddress : a.remoteAddress = b.remoteAddress := by simpa using congrArg u64FromBe haddress
  have hlength : a.remoteLength = b.remoteLength := by simpa using congrArg u64FromBe hlength
  have hport : a.udpSourcePort = b.udpSourcePort := by simpa using congrArg u16FromBe hport
  cases a
  cases b
  simp only [mk.injEq]
  exact ⟨hipv4, hmac, hqpn, hpsn, hmtu, hrkey, haddress, hlength, hretry, hrnr, htimeout, hread,
    hdest, hnak, hport⟩

/-- What the decoder checks before it reads the fields. -/
structure Headed (input : List UInt8) : Prop where
  length : input.length = rcConnectionInfoLen
  magic : slice input 0 4 = magic
  version : slice input 4 6 = toBe 2 1
  size : slice input 6 8 = toBe 2 64
  reserved : slice input 56 64 = List.replicate 8 0

theorem Headed.windows_eq (h : Headed input) :
    windows input = (read input).parts := by
  have hlength : input.length = 64 := h.length
  have harray (start n : ℕ) (hle : start + n ≤ 64) :
      (arrayAt 0 input start n).toList = slice input start (start + n) :=
    toList_arrayAt 0 (hle.trans hlength.ge)
  have hmtu : [input.getD 18 0, input.getD 19 0] = slice input 18 20 := harray 18 2 (by decide)
  have hport : [input.getD 54 0, input.getD 55 0] = slice input 54 56 := harray 54 2 (by decide)
  have hcodes : (read input).codes = slice input 48 54 := harray 48 6 (by decide)
  have hsize (start stop : ℕ) (hle : stop ≤ 64) :
      (slice input start stop).length = stop - start :=
    length_slice start (hle.trans hlength.ge)
  rw [parts, hcodes, ← h.magic, ← h.version, ← h.size, ← h.reserved]
  simp only [read, hmtu, hport, harray, Nat.reduceAdd, Nat.reduceLeDiff]
  rw [toBe_u16FromBe (hsize 18 20 (by decide)), toBe_u32FromBe (hsize 20 24 (by decide)),
    toBe_u32FromBe (hsize 24 28 (by decide)), toBe_u32FromBe (hsize 28 32 (by decide)),
    toBe_u64FromBe (hsize 32 40 (by decide)), toBe_u64FromBe (hsize 40 48 (by decide)),
    toBe_u16FromBe (hsize 54 56 (by decide))]
  rfl

theorem headed_of_windows (hlength : input.length = rcConnectionInfoLen)
    (h : windows input = info.parts) :
    Headed input := by
  simp only [windows, parts, List.cons.injEq] at h
  obtain ⟨hmagic, hversion, hsize, -, -, -, -, -, -, -, -, -, -, hreserved, -⟩ := h
  exact ⟨hlength, hmagic, hversion, hsize, hreserved⟩

/-! ## Encoder and decoder -/

/-- **The encoder leaves the parts** one behind the other: every offset is where the part before
it ends. -/
theorem write_eq (info : RcConnectionInfo) : info.write = info.parts.flatten := by
  simp (disch := simp [magic, codes]) only [write, splice_zero, splice_fill]
  simp [fill, parts, magic, codes, rcConnectionInfoLen]

theorem encode_eq_ok {out : List UInt8} :
    info.encode = .ok out ↔ info.Valid ∧ out = info.parts.flatten := by
  rw [encode, bind_eq_ok, write_eq, ← validate_eq_ok]
  constructor
  · rintro ⟨⟨⟩, hvalid, hout⟩
    exact ⟨hvalid, (Except.ok.inj hout).symm⟩
  · rintro ⟨hvalid, rfl⟩
    exact ⟨(), hvalid, rfl⟩

theorem decode_eq_ok_iff_read :
    decode input = .ok info ↔ Headed input ∧ info.Valid ∧ read input = info := by
  have hzero : (slice input 56 64).any (· != 0) = false ↔ ∀ byte ∈ slice input 56 64, byte = 0 := by
    simp
  simp only [decode, guard_eq_ok, bind_eq_ok, not_not, not_or, Bool.not_eq_true, hzero]
  constructor
  · rintro ⟨hlength, ⟨hmagic, hversion⟩, hsize, hreserved, ⟨⟩, hvalid, hinfo⟩
    obtain rfl := Except.ok.inj hinfo
    refine ⟨⟨hlength, hmagic, hversion, hsize, ?_⟩, validate_eq_ok.mp hvalid, rfl⟩
    exact List.eq_replicate_iff.mpr ⟨length_slice 56 hlength.ge, hreserved⟩
  · rintro ⟨h, hvalid, rfl⟩
    refine ⟨h.length, ⟨h.magic, h.version⟩, h.size, ?_, (), validate_eq_ok.mpr hvalid, rfl⟩
    rw [h.reserved]
    exact fun byte hbyte ↦ List.eq_of_mem_replicate hbyte

theorem length_flatten_parts (info : RcConnectionInfo) :
    info.parts.flatten.length = rcConnectionInfoLen := by
  simp [parts, magic, codes, rcConnectionInfoLen]

/-- **The decoder accepts the concatenated parts of the valid records**, and nothing else. -/
theorem decode_eq_ok :
    decode input = .ok info ↔ info.Valid ∧ input = info.parts.flatten := by
  rw [decode_eq_ok_iff_read]
  constructor
  · rintro ⟨h, hvalid, rfl⟩
    exact ⟨hvalid, (windows_eq_parts_iff h.length _).mp h.windows_eq⟩
  · rintro ⟨hvalid, hinput⟩
    have hlength : input.length = rcConnectionInfoLen := by rw [hinput, length_flatten_parts]
    have hwindows := (windows_eq_parts_iff hlength info).mpr hinput
    have h := headed_of_windows hlength hwindows
    exact ⟨h, hvalid, parts_injective (h.windows_eq.symm.trans hwindows)⟩

/-! ## Negotiation -/

end RcConnectionInfo

/-- The configurations of the two ends of one connection. -/
structure RcQpConfig.Mirrored (a b : RcQpConfig) : Prop where
  pathMtu : a.transport.pathMtu = b.transport.pathMtu
  localQpn : a.transport.localQpn = b.transport.remoteQpn
  remoteQpn : a.transport.remoteQpn = b.transport.localQpn
  source : a.path.source = b.path.destination
  destination : a.path.destination = b.path.source
  sendPsn : a.transport.sendPsn = b.transport.receivePsn
  receivePsn : a.transport.receivePsn = b.transport.sendPsn

namespace RcConnectionInfo

variable {info remote : RcConnectionInfo}

theorem Valid.exists_pathMtu (h : info.Valid) (hremote : remote.Valid) :
    ∃ pathMtu, PathMtu.fromBytes (min info.mtu.toNat remote.mtu.toNat) = some pathMtu := by
  apply Option.isSome_iff_exists.mp
  rcases Nat.le_total info.mtu.toNat remote.mtu.toNat with hle | hle
  · rw [Nat.min_eq_left hle]
    exact h.mtu
  · rw [Nat.min_eq_right hle]
    exact hremote.mtu

theorem Valid.qpConfig_eq (h : info.Valid) (hremote : remote.Valid) {pathMtu : PathMtu}
    (hmtu : PathMtu.fromBytes (min info.mtu.toNat remote.mtu.toNat) = some pathMtu) :
    info.qpConfig remote = .ok (info.configWith remote pathMtu) := by
  rw [qpConfig, validate_eq_ok.mpr h, validate_eq_ok.mpr hremote, hmtu]
  rfl

theorem Valid.configWith (h : info.Valid) (hremote : remote.Valid) (pathMtu : PathMtu) :
    (info.configWith remote pathMtu).transport.validate = .ok () :=
  QpConfig.validate_eq_ok.mpr
    { local_ge := UInt32.le_iff_toNat_le.mp h.qpn.1
      local_le := UInt32.le_iff_toNat_le.mp h.qpn.2
      remote_ge := UInt32.le_iff_toNat_le.mp hremote.qpn.1
      remote_le := UInt32.le_iff_toNat_le.mp hremote.qpn.2
      retryCount_le := UInt8.le_iff_toNat_le.mp h.retryCount
      rnrRetryCount_le := UInt8.le_iff_toNat_le.mp h.rnrRetryCount
      timeout_le := UInt8.le_iff_toNat_le.mp h.timeout }

theorem configWith_mirrored (a b : RcConnectionInfo) (pathMtu : PathMtu) :
    (a.configWith b pathMtu).Mirrored (b.configWith a pathMtu) :=
  ⟨rfl, rfl, rfl, rfl, rfl, rfl, rfl⟩

/-- **Connection records are canonical, and what they negotiate is mirrored.**  The encoder accepts
exactly the valid records and the decoder returns what was encoded; every input the decoder accepts
is the encoding of its result; and two valid records give each side a valid configuration, mirrored
in that of the other. -/
theorem connection_records_canonical :
    (∀ info : RcConnectionInfo, (∃ out, info.encode = .ok out) ↔ info.validate = .ok ()) ∧
      (∀ (info : RcConnectionInfo) out, info.encode = .ok out → decode out = .ok info) ∧
      (∀ input info, decode input = .ok info → info.encode = .ok input) ∧
      ∀ a b : RcConnectionInfo, a.validate = .ok () → b.validate = .ok () →
        ∃ config config', a.qpConfig b = .ok config ∧ b.qpConfig a = .ok config' ∧
          config.transport.validate = .ok () ∧ config'.transport.validate = .ok () ∧
          config.Mirrored config' := by
  refine ⟨fun info ↦ ?_, fun info out h ↦ ?_, fun input info h ↦ ?_, fun a b ha hb ↦ ?_⟩
  · rw [validate_eq_ok]
    exact ⟨fun ⟨_, h⟩ ↦ (encode_eq_ok.mp h).1, fun h ↦ ⟨_, encode_eq_ok.mpr ⟨h, rfl⟩⟩⟩
  · exact decode_eq_ok.mpr (encode_eq_ok.mp h)
  · exact encode_eq_ok.mpr (decode_eq_ok.mp h)
  · rw [validate_eq_ok] at ha hb
    obtain ⟨pathMtu, hmtu⟩ := ha.exists_pathMtu hb
    have hmtu' := hmtu
    rw [Nat.min_comm] at hmtu'
    exact ⟨_, _, ha.qpConfig_eq hb hmtu, hb.qpConfig_eq ha hmtu', ha.configWith hb pathMtu,
      hb.configWith ha pathMtu, configWith_mirrored a b pathMtu⟩

/-- A peer with the given host octet, queue-pair number, initial PSN and MTU. -/
def peer (host : UInt8) (qpn psn : UInt32) (mtu : UInt16) : RcConnectionInfo where
  ipv4 := .octets 192 0 2 host
  mac := .replicate 6 0
  qpn := qpn
  psn := psn
  mtu := mtu
  rkey := 0x12345678
  remoteAddress := 0x0102030405060708
  remoteLength := 4096
  retryCount := 6
  rnrRetryCount := 6
  timeout := 14
  maxRdAtomic := 1
  maxDestRdAtomic := 1
  rnrNakTimer := 1
  udpSourcePort := 49152

theorem connection_records_canonical_peers :
    (peer 2 2 0x00fffff0 256).validate = .ok () ∧ (peer 3 7 5 1024).validate = .ok () ∧
      ∃ config config', (peer 2 2 0x00fffff0 256).qpConfig (peer 3 7 5 1024) = .ok config ∧
        (peer 3 7 5 1024).qpConfig (peer 2 2 0x00fffff0 256) = .ok config' ∧
        config.Mirrored config' := by
  have ha : (peer 2 2 0x00fffff0 256).validate = .ok () := by decide
  have hb : (peer 3 7 5 1024).validate = .ok () := by decide
  obtain ⟨config, config', hconfig, hconfig', -, -, hmirrored⟩ :=
    connection_records_canonical.2.2.2 _ _ ha hb
  exact ⟨ha, hb, config, config', hconfig, hconfig', hmirrored⟩

end RcConnectionInfo

end Rocev2.Rc
