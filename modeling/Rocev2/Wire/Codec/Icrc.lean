import Rocev2.Lib.Crc
import Rocev2.Wire.Codec.Header

/-!
# The invariant CRC

`icrc.rs`: a reflected CRC-32 computed eight bytes at a time from tables, over a copy of the IPv4,
UDP and base transport headers with the variant fields set to ones, and the rest of the transport
packet.

The table-driven update is the bytewise CRC (`update_eq_run`), and on headers without IPv4 options
the computation is the CRC of the whole packet with seven masked bytes (`computeIpv4_eq`).  A
packet with a matching ICRC at its end leaves a fixed residue (`finalize_eq_iff`), which turns the
check of the field into a property of the packet as a whole.
-/

namespace Rocev2.Wire.Codec

open Lib Lib.Bytes

namespace Icrc

/-- Seed after the synthetic all-ones LRH contribution. -/
def icrcSeed : BitVec 32 := 0xdebb20e3#32

def crc32PolynomialReflected : BitVec 32 := 0xedb88320#32

def firstTable (index : UInt8) : BitVec 32 :=
  (Crc.bitStep crc32PolynomialReflected)^[8] (Crc.lowByte index)

/-- The tables: each row advances the one before by one more byte. -/
def table : ℕ → UInt8 → BitVec 32
  | 0, index => firstTable index
  | row + 1, index =>
    let previous := table row index
    (previous >>> 8) ^^^ firstTable ⟨previous.setWidth 8⟩

/-- Add bytes, eight at a time and the remainder one by one. -/
def update (crc : BitVec 32) : List UInt8 → BitVec 32
  | c₀ :: c₁ :: c₂ :: c₃ :: c₄ :: c₅ :: c₆ :: c₇ :: rest =>
    let head := crc ^^^ Crc.leWord [c₀, c₁, c₂, c₃]
    let octets := toLe 4 head.toNat
    update
      (table 7 (octets.getD 0 0) ^^^ table 6 (octets.getD 1 0) ^^^ table 5 (octets.getD 2 0) ^^^
        table 4 (octets.getD 3 0) ^^^ table 3 c₄ ^^^ table 2 c₅ ^^^ table 1 c₆ ^^^ table 0 c₇) rest
  | remainder =>
    remainder.foldl (fun crc byte ↦ (crc >>> 8) ^^^ table 0 (⟨crc.setWidth 8⟩ ^^^ byte)) crc

/-- Finish by complementing the running state. -/
def finalize (state : BitVec 32) : UInt32 := ⟨~~~ state⟩

/-- Compute the ICRC over IPv4, UDP and transport bytes; the transport bytes exclude the ICRC
field. -/
def computeIpv4 (ipv4Header udpHeader transport : List UInt8) : Except WireError UInt32 :=
  let versionIhl := ipv4Header.getD 0 0
  let ihl := (versionIhl &&& 0x0f).toNat * 4
  if ipv4Header.length < 20 ∨ versionIhl >>> 4 ≠ 4 then .error .invalidIpv4Header
  else if ¬ (20 ≤ ihl ∧ ihl ≤ 60) ∨ ipv4Header.length < ihl then .error .invalidIpv4Header
  else if udpHeader.length < 8 then .error (.bufferTooShort 8 udpHeader.length)
  else if transport.length < bthLen then .error (.bufferTooShort bthLen transport.length)
  else
    let bthOffset := ihl + 8
    let headerLength := bthOffset + bthLen
    let headers := List.replicate (60 + 8 + bthLen) 0
    let headers := splice headers 0 (ipv4Header.take ihl)
    let headers := splice headers ihl (udpHeader.take 8)
    let headers := splice headers bthOffset (transport.take bthLen)
    -- the variant IPv4 and UDP fields, and the whole resv8a octet of the base header
    let headers := headers.set 1 0xff
    let headers := headers.set 8 0xff
    let headers := splice headers 10 [0xff, 0xff]
    let headers := splice headers (ihl + 6) [0xff, 0xff]
    let headers := headers.set (bthOffset + 4) 0xff
    let crc := update icrcSeed (headers.take headerLength)
    .ok (finalize (update crc (transport.drop bthLen)))

/-! ## Tables -/

/-- The reference computation. -/
abbrev run (crc : BitVec 32) (bytes : List UInt8) : BitVec 32 :=
  Crc.run crc32PolynomialReflected crc bytes

theorem table_eq (row : ℕ) (index : UInt8) :
    table row index =
      (Crc.shiftByte crc32PolynomialReflected)^[row + 1] (Crc.lowByte index) := by
  induction row with
  | zero => rfl
  | succ row ih =>
    have hstep := Crc.byteStep_eq crc32PolynomialReflected (table row index) 0
    have hzero : Crc.lowByte 0 = 0#32 := by decide
    rw [Crc.byteStep, hzero, BitVec.xor_zero, UInt8.xor_zero] at hstep
    rw [Function.iterate_succ_apply', ← ih, hstep]
    rfl

theorem byte_step (crc : BitVec 32) (byte : UInt8) :
    (crc >>> 8) ^^^ table 0 (⟨crc.setWidth 8⟩ ^^^ byte) =
      Crc.byteStep crc32PolynomialReflected crc byte :=
  (Crc.byteStep_eq crc32PolynomialReflected crc byte).symm

/-- **One block by the tables**: eight bytes at once are eight bytes one by one. -/
theorem block_step (crc : BitVec 32) (c₀ c₁ c₂ c₃ c₄ c₅ c₆ c₇ : UInt8) :
    let octets := toLe 4 (crc ^^^ Crc.leWord [c₀, c₁, c₂, c₃]).toNat
    table 7 (octets.getD 0 0) ^^^ table 6 (octets.getD 1 0) ^^^ table 5 (octets.getD 2 0) ^^^
        table 4 (octets.getD 3 0) ^^^ table 3 c₄ ^^^ table 2 c₅ ^^^ table 1 c₆ ^^^ table 0 c₇ =
      run crc [c₀, c₁, c₂, c₃, c₄, c₅, c₆, c₇] := by
  intro octets
  have hfour : [c₀, c₁, c₂, c₃].length ≤ 4 := le_rfl
  -- the first four bytes enter the state as one word, whose octets are looked up
  have hhead : run crc [c₀, c₁, c₂, c₃] = Crc.tableSum crc32PolynomialReflected octets := by
    have hword : Crc.leWord octets = crc ^^^ Crc.leWord [c₀, c₁, c₂, c₃] := Crc.leWord_toLe _
    have hlength : octets.length = 4 := length_toLe _ _
    rw [run, Crc.run_eq_shiftByte crc hfour, ← hword,
      ← Crc.shiftByte_iterate_leWord hlength.le, hlength]
    rfl
  have hsplit : run crc [c₀, c₁, c₂, c₃, c₄, c₅, c₆, c₇] =
      (Crc.shiftByte crc32PolynomialReflected)^[4]
        (Crc.tableSum crc32PolynomialReflected octets) ^^^
        Crc.tableSum crc32PolynomialReflected [c₄, c₅, c₆, c₇] := by
    rw [← hhead]
    exact (Crc.run_append _ crc [c₀, c₁, c₂, c₃] [c₄, c₅, c₆, c₇]).trans
      (Crc.run_eq_tableSum _ [c₄, c₅, c₆, c₇])
  obtain ⟨o₀, o₁, o₂, o₃, hoctets⟩ : ∃ o₀ o₁ o₂ o₃, octets = [o₀, o₁, o₂, o₃] :=
    ⟨_, _, _, _, rfl⟩
  rw [hsplit, hoctets]
  simp only [List.getD_cons_zero, List.getD_cons_succ, table_eq, Crc.tableSum, List.length_cons,
    List.length_nil, Crc.iterate_xor (Crc.shiftByte_xor _), ← Function.iterate_add_apply,
    BitVec.xor_zero, BitVec.xor_assoc]

/-- **The table-driven update is the bytewise CRC.** -/
theorem update_eq_run (crc : BitVec 32) (bytes : List UInt8) :
    update crc bytes = run crc bytes := by
  fun_induction update crc bytes with
  | case1 crc c₀ c₁ c₂ c₃ c₄ c₅ c₆ c₇ rest head octets ih =>
    rw [ih, block_step]
    exact (Crc.run_append _ crc [c₀, c₁, c₂, c₃, c₄, c₅, c₆, c₇] rest).symm
  | case2 crc remainder _ =>
    simp only [byte_step]
    rfl

/-- The CRC one bit at a time, as the tests of the source state it. -/
def reference (crc : BitVec 32) (bytes : List UInt8) : BitVec 32 :=
  bytes.foldl
    (fun crc byte ↦
      (fun crc : BitVec 32 ↦
          (crc >>> 1) ^^^ (crc32PolynomialReflected &&& (0#32 - (crc &&& 1#32))))^[8]
        (crc ^^^ byte.toBitVec.setWidth 32))
    crc

/-- **Slicing by eight is the bitwise CRC, and is incremental**: from every seed, the table-driven
update of every byte list yields the state of the CRC that is divided bit by bit, and a list may be
added in any two pieces. -/
theorem slicing_matches_bitwise (seed : BitVec 32) :
    (∀ bytes, update seed bytes = reference seed bytes) ∧
      ∀ a b, update seed (a ++ b) = update (update seed a) b := by
  refine ⟨fun bytes ↦ update_eq_run seed bytes, fun a b ↦ ?_⟩
  rw [update_eq_run, update_eq_run, update_eq_run, run, Crc.run_append]

/-- The standard check value. -/
example : ~~~ update 0xffffffff#32 [0x31, 0x32, 0x33, 0x34, 0x35, 0x36, 0x37, 0x38, 0x39] =
    0xcbf43926#32 := by
  decide +kernel

/-! ## The masked packet -/

/-- The offsets of the variant bytes of a packet without IPv4 options: DSCP and ECN, time to live,
IPv4 checksum, UDP checksum, and the fifth byte of the base header. -/
def variantOffsets : List ℕ := [1, 8, 10, 11, 26, 27, 32]

def mask (offsets : List ℕ) (packet : List UInt8) : List UInt8 :=
  offsets.foldl (fun bytes offset ↦ bytes.set offset 0xff) packet

@[simp]
theorem length_mask (offsets : List ℕ) (packet : List UInt8) :
    (mask offsets packet).length = packet.length := by
  induction offsets generalizing packet with
  | nil => rfl
  | cons offset offsets ih =>
    calc (mask (offset :: offsets) packet).length
        = (mask offsets (packet.set offset 0xff)).length := rfl
      _ = packet.length := by rw [ih, List.length_set]

theorem getElem?_mask {offsets : List ℕ} {packet : List UInt8} {i : ℕ} (h : i ∉ offsets) :
    (mask offsets packet)[i]? = packet[i]? := by
  induction offsets generalizing packet with
  | nil => rfl
  | cons offset offsets ih =>
    rw [List.mem_cons, not_or] at h
    calc (mask (offset :: offsets) packet)[i]?
        = (mask offsets (packet.set offset 0xff))[i]? := rfl
      _ = packet[i]? := by rw [ih h.2, List.getElem?_set_ne (Ne.symm h.1)]

theorem mask_append {offsets : List ℕ} {front : List UInt8} (rest : List UInt8)
    (h : ∀ offset ∈ offsets, offset < front.length) :
    mask offsets (front ++ rest) = mask offsets front ++ rest := by
  induction offsets generalizing front with
  | nil => rfl
  | cons offset offsets ih =>
    rw [List.forall_mem_cons] at h
    calc mask (offset :: offsets) (front ++ rest)
        = mask offsets ((front ++ rest).set offset 0xff) := rfl
      _ = mask offsets (front.set offset 0xff ++ rest) := by
          rw [List.set_append_left _ _ h.1]
      _ = mask offsets (front.set offset 0xff) ++ rest := ih (by simpa using h.2)

theorem take_mask (offsets : List ℕ) (packet : List UInt8) (n : ℕ) :
    (mask offsets packet).take n = mask offsets (packet.take n) := by
  induction offsets generalizing packet with
  | nil => rfl
  | cons offset offsets ih =>
    calc (mask (offset :: offsets) packet).take n
        = (mask offsets (packet.set offset 0xff)).take n := rfl
      _ = mask offsets ((packet.take n).set offset 0xff) := by rw [ih, List.take_set]

theorem splice_pair {buffer : List UInt8} {start : ℕ} (a b : UInt8)
    (h : start + 2 ≤ buffer.length) :
    splice buffer start [a, b] = (buffer.set start a).set (start + 1) b := by
  obtain ⟨front, rest, rfl, rfl⟩ : ∃ front rest, buffer = front ++ rest ∧ front.length = start :=
    ⟨buffer.take start, buffer.drop start, (List.take_append_drop _ _).symm, by
      rw [List.length_take]
      omega⟩
  match rest with
  | [] | [_] => simp at h
  | x :: y :: rest =>
    rw [splice, List.take_left, List.drop_append, List.set_append_right _ _ le_rfl,
      List.set_append_right _ _ (Nat.le_succ _)]
    simp

theorem masked_headers {front rest : List UInt8} (hfront : front.length = 40) :
    (((splice (splice (((front ++ rest).set 1 0xff).set 8 0xff) 10 [0xff, 0xff]) 26
        [0xff, 0xff]).set 32 0xff).take 40) = mask variantOffsets front := by
  have hlength : 40 ≤ (front ++ rest).length := by
    rw [List.length_append]
    omega
  have hinner : 10 + 2 ≤ (((front ++ rest).set 1 0xff).set 8 0xff).length := by
    simp only [List.length_set]
    omega
  have houter :
      26 + 2 ≤ (((((front ++ rest).set 1 0xff).set 8 0xff).set 10 0xff).set 11 0xff).length := by
    simp only [List.length_set]
    omega
  rw [splice_pair _ _ hinner, splice_pair _ _ houter]
  change (mask variantOffsets (front ++ rest)).take 40 = _
  rw [take_mask, ← hfront, List.take_left]

/-- **The ICRC is the CRC of the masked packet**, for headers without IPv4 options. -/
theorem computeIpv4_eq {ipv4Header udpHeader transport : List UInt8}
    (hipv4 : ipv4Header.length = 20) (hversion : ipv4Header.getD 0 0 = 0x45)
    (hudp : udpHeader.length = 8) (htransport : bthLen ≤ transport.length) :
    computeIpv4 ipv4Header udpHeader transport =
      .ok (finalize (run icrcSeed
        (mask variantOffsets (ipv4Header ++ udpHeader ++ transport)))) := by
  have hihl : ((0x45 : UInt8) &&& 0x0f).toNat * 4 = 20 := by decide
  have hnibble : (0x45 : UInt8) >>> 4 = 4 := by decide
  have hbth : (transport.take bthLen).length = bthLen := by rw [List.length_take]; omega
  -- the copy of the headers, before it is masked
  have hcopy : splice (splice (splice (List.replicate (60 + 8 + bthLen) 0) 0
        (ipv4Header.take 20)) 20 (udpHeader.take 8)) (20 + 8) (transport.take bthLen) =
      fill (List.replicate (60 + 8 + bthLen) 0)
        (ipv4Header ++ udpHeader ++ transport.take bthLen) := by
    rw [List.take_of_length_le hipv4.le, List.take_of_length_le hudp.le]
    rw [splice_zero, splice_fill _ _ _ hipv4.symm, splice_fill]
    rw [List.length_append, hipv4, hudp]
  have hfront : (ipv4Header ++ udpHeader ++ transport.take bthLen).length = 40 := by
    rw [List.length_append, List.length_append, hipv4, hudp, hbth]
    rfl
  have hoffsets : ∀ offset ∈ variantOffsets,
      offset < (ipv4Header ++ udpHeader ++ transport.take bthLen).length := by
    rw [hfront]
    decide
  have hwhole : ipv4Header ++ udpHeader ++ transport =
      ipv4Header ++ udpHeader ++ transport.take bthLen ++ transport.drop bthLen := by
    rw [List.append_assoc _ (transport.take bthLen), List.take_append_drop]
  unfold computeIpv4
  rw [hversion]
  dsimp only
  rw [hihl, hipv4, hudp, if_neg (by simp [hnibble]), if_neg (by omega), if_neg (by omega),
    if_neg (by omega), hcopy, fill, show 20 + 8 + bthLen = 40 from rfl, masked_headers hfront,
    update_eq_run, update_eq_run, hwhole, mask_append _ hoffsets]
  rw [run, run, run, Crc.run_append]

/-- The state that a packet with a matching ICRC leaves. -/
def residue : BitVec 32 := (Crc.shiftByte crc32PolynomialReflected)^[4] (BitVec.allOnes 32)

theorem polynomial_top : crc32PolynomialReflected.getLsbD 31 = true := by decide

/-- **An ICRC matches when it leaves the residue.** -/
theorem finalize_eq_iff (state : BitVec 32) (icrc : UInt32) :
    finalize state = icrc ↔ run state (toLe 4 icrc.toNat) = residue := by
  have hlength : (toLe 4 icrc.toNat).length = 4 := length_toLe _ _
  have hword : Crc.leWord (toLe 4 icrc.toNat) = icrc.toBitVec := Crc.leWord_toLe icrc.toBitVec
  rw [run, Crc.run_eq_shiftByte state hlength.le, hlength, hword, residue,
    ((Crc.shiftByte_injective polynomial_top).iterate 4).eq_iff, ← UInt32.toBitVec_inj]
  change ~~~ state = icrc.toBitVec ↔ _
  constructor
  · intro h
    rw [← h, ← BitVec.xor_allOnes, ← BitVec.xor_assoc, BitVec.xor_self, BitVec.zero_xor]
  · intro h
    rw [← BitVec.xor_allOnes, ← h, ← BitVec.xor_assoc, BitVec.xor_self, BitVec.zero_xor]

end Icrc

end Rocev2.Wire.Codec
