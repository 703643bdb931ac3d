import Mathlib.Logic.Function.Iterate
import Rocev2.Lib.Bytes

/-!
# Reflected 32-bit cyclic redundancy checks

A message is divided, bit by bit and lowest bit first, by a fixed polynomial; the 32-bit remainder
is the state.  One bit is `bitStep`, eight bits without input are `shiftByte`, and a byte is added
by `byteStep`.

The state space is a vector space over the two-element field with exclusive or as addition.
`bitStep` is linear, so the contribution of every byte can be tabulated (`shiftByte_iterate_leWord`
is the slicing identity behind such tables), and it is injective when the polynomial has its
highest coefficient.  Both together give the error detection that a CRC is used for: messages of
the same length that differ only within four consecutive bytes leave different states
(`run_burst`).
-/

namespace Rocev2.Lib.Crc

open Bytes

variable {bytes : List UInt8} {xs ys : List UInt8}

def bitStep (poly crc : BitVec 32) : BitVec 32 :=
  (crc >>> 1) ^^^ (poly &&& (0#32 - (crc &&& 1#32)))

/-- Divide eight bits. -/
def shiftByte (poly crc : BitVec 32) : BitVec 32 := (bitStep poly)^[8] crc

def lowByte (byte : UInt8) : BitVec 32 := byte.toBitVec.setWidth 32

def byteStep (poly crc : BitVec 32) (byte : UInt8) : BitVec 32 :=
  shiftByte poly (crc ^^^ lowByte byte)

/-- Add a message. -/
def run (poly crc : BitVec 32) (bytes : List UInt8) : BitVec 32 := bytes.foldl (byteStep poly) crc

/-- Up to four bytes as a word, the first byte lowest. -/
def leWord (bytes : List UInt8) : BitVec 32 := BitVec.ofNat 32 (ofLe bytes)

variable {poly : BitVec 32}

theorem run_append (poly crc : BitVec 32) (xs ys : List UInt8) :
    run poly crc (xs ++ ys) = run poly (run poly crc xs) ys :=
  List.foldl_append

/-! ## Linearity -/

theorem bitStep_eq (poly crc : BitVec 32) :
    bitStep poly crc = (crc >>> 1) ^^^ (if crc.getLsbD 0 then poly else 0#32) := by
  have hmask : 0#32 - (crc &&& 1#32) = if crc.getLsbD 0 then BitVec.allOnes 32 else 0#32 := by
    rw [BitVec.and_one_eq_setWidth_ofBool_getLsbD]
    cases crc.getLsbD 0 <;> rfl
  rw [bitStep, hmask]
  cases crc.getLsbD 0
  · simp
  · rw [if_pos rfl, if_pos rfl, BitVec.and_allOnes]

theorem bitStep_xor (poly x y : BitVec 32) :
    bitStep poly (x ^^^ y) = bitStep poly x ^^^ bitStep poly y := by
  simp only [bitStep_eq, BitVec.getLsbD_xor, BitVec.ushiftRight_xor_distrib]
  have hcancel : x >>> 1 ^^^ y >>> 1 = x >>> 1 ^^^ poly ^^^ (y >>> 1 ^^^ poly) := by
    rw [BitVec.xor_assoc (x >>> 1) poly, ← BitVec.xor_assoc poly, BitVec.xor_comm poly (y >>> 1),
      BitVec.xor_assoc (y >>> 1), BitVec.xor_self, BitVec.xor_zero]
  cases x.getLsbD 0 <;> cases y.getLsbD 0
  · simp
  · simp [BitVec.xor_assoc]
  · simp only [Bool.xor_false, if_true, Bool.false_eq_true, if_false, BitVec.xor_zero]
    rw [BitVec.xor_assoc, BitVec.xor_comm (y >>> 1), ← BitVec.xor_assoc]
  · simpa using hcancel

theorem iterate_xor {f : BitVec 32 → BitVec 32} (hf : ∀ x y, f (x ^^^ y) = f x ^^^ f y) (n : ℕ)
    (x y : BitVec 32) : f^[n] (x ^^^ y) = f^[n] x ^^^ f^[n] y := by
  induction n generalizing x y with
  | zero => rfl
  | succ n ih => rw [Function.iterate_succ_apply, hf, ih, ← Function.iterate_succ_apply,
      ← Function.iterate_succ_apply]

theorem shiftByte_xor (poly x y : BitVec 32) :
    shiftByte poly (x ^^^ y) = shiftByte poly x ^^^ shiftByte poly y :=
  iterate_xor (bitStep_xor poly) 8 x y

theorem bitStep_iterate_of_low {crc : BitVec 32} {n : ℕ} (h : ∀ i < n, crc.getLsbD i = false) :
    (bitStep poly)^[n] crc = crc >>> n := by
  induction n with
  | zero => simp
  | succ n ih =>
    have hbit : (crc >>> n).getLsbD 0 = false := by simpa using h n (Nat.lt_succ_self n)
    rw [Function.iterate_succ_apply', ih fun i hi ↦ h i (Nat.lt_succ_of_lt hi), bitStep_eq, hbit]
    simp [BitVec.shiftRight_add]

/-- **Three bytes moved up come back**: a word below `2 ^ 24` survives a shift in and out. -/
theorem shiftByte_shiftLeft {x : BitVec 32} (h : x.toNat < 2 ^ 24) :
    shiftByte poly (x <<< 8) = x := by
  have hlow : ∀ i < 8, (x <<< 8).getLsbD i = false := by
    intro i hi
    simp [hi]
  rw [shiftByte, bitStep_iterate_of_low hlow]
  apply BitVec.eq_of_toNat_eq
  rw [BitVec.toNat_ushiftRight, BitVec.toNat_shiftLeft, Nat.shiftLeft_eq, Nat.shiftRight_eq_div_pow]
  omega

theorem byteStep_eq (poly crc : BitVec 32) (byte : UInt8) :
    byteStep poly crc byte =
      (crc >>> 8) ^^^ shiftByte poly (lowByte (⟨crc.setWidth 8⟩ ^^^ byte)) := by
  -- the state is its upper part, moved up again, and its lowest byte
  have hsplit : crc ^^^ lowByte byte =
      ((crc >>> 8) <<< 8) ^^^ lowByte (⟨crc.setWidth 8⟩ ^^^ byte) := by
    ext i hi
    simp only [lowByte, UInt8.toBitVec_xor, BitVec.getElem_xor, BitVec.getElem_setWidth,
      BitVec.getElem_shiftLeft, BitVec.getLsbD_xor, BitVec.getLsbD_setWidth,
      BitVec.getElem_ushiftRight]
    by_cases h : i < 8
    · simp [h, BitVec.getLsbD_eq_getElem hi]
    · have hi' : 8 + (i - 8) = i := by omega
      simp [h, hi', BitVec.getLsbD_eq_getElem hi]
  have hupper : (crc >>> 8).toNat < 2 ^ 24 := by
    have hcrc := crc.isLt
    rw [BitVec.toNat_ushiftRight, Nat.shiftRight_eq_div_pow]
    omega
  rw [byteStep, hsplit, shiftByte_xor, shiftByte_shiftLeft hupper]

/-! ## Blocks -/

theorem leWord_cons (byte : UInt8) (bytes : List UInt8) :
    leWord (byte :: bytes) = lowByte byte ^^^ (leWord bytes <<< 8) := by
  have hbyte : byte.toNat < 2 ^ 8 := byte.toNat_lt
  apply BitVec.eq_of_getLsbD_eq
  intro i hi
  rw [leWord, ofLe_cons, BitVec.getLsbD_ofNat, show (256 : ℕ) = 2 ^ 8 from rfl,
    Nat.testBit_two_pow_mul_add _ hbyte]
  simp only [leWord, lowByte, BitVec.getLsbD_xor, BitVec.getLsbD_setWidth,
    BitVec.getLsbD_shiftLeft, BitVec.getLsbD_ofNat]
  by_cases h : i < 8
  · simp [h, BitVec.getLsbD]
  · simp [h]
    grind

theorem toNat_leWord_lt (h : bytes.length ≤ 3) :
    (leWord bytes).toNat < 2 ^ 24 := by
  have hlt := ofLe_lt bytes
  have hpow : 256 ^ bytes.length ≤ 256 ^ 3 := Nat.pow_le_pow_right (by decide) h
  rw [leWord, BitVec.toNat_ofNat]
  omega

theorem leWord_injective (hlength : xs.length = ys.length) (hfour : xs.length ≤ 4)
    (h : leWord xs = leWord ys) : xs = ys := by
  have hpow : 256 ^ xs.length ≤ 256 ^ 4 := Nat.pow_le_pow_right (by decide) hfour
  have hxs := ofLe_lt xs
  have hys := ofLe_lt ys
  rw [← hlength] at hys
  have hvalue : ofLe xs = ofLe ys := by
    have htoNat := congrArg BitVec.toNat h
    simp only [leWord, BitVec.toNat_ofNat] at htoNat
    omega
  rw [← toLe_ofLe xs, ← toLe_ofLe ys, hvalue, hlength]

theorem leWord_toLe (crc : BitVec 32) : leWord (toLe 4 crc.toNat) = crc := by
  rw [leWord, ofLe_toLe crc.isLt, BitVec.ofNat_toNat, BitVec.setWidth_eq]

/-- **Up to four bytes at once**: the bytes enter the state as one word, and the state is divided
by all of them. -/
theorem run_eq_shiftByte (crc : BitVec 32) (h : bytes.length ≤ 4) :
    run poly crc bytes = (shiftByte poly)^[bytes.length] (crc ^^^ leWord bytes) := by
  induction bytes generalizing crc with
  | nil => simp [run, leWord, ofLe, ofBe]
  | cons byte bytes ih =>
    have hthree : bytes.length ≤ 3 := Nat.le_of_succ_le_succ h
    have hword : shiftByte poly (leWord bytes <<< 8) = leWord bytes :=
      shiftByte_shiftLeft (toNat_leWord_lt hthree)
    calc run poly crc (byte :: bytes)
        = run poly (byteStep poly crc byte) bytes := rfl
      _ = (shiftByte poly)^[bytes.length] (byteStep poly crc byte ^^^ leWord bytes) :=
          ih _ (Nat.le_succ_of_le hthree)
      _ = (shiftByte poly)^[bytes.length]
            (shiftByte poly (crc ^^^ (lowByte byte ^^^ leWord bytes <<< 8))) := by
          rw [← BitVec.xor_assoc, shiftByte_xor, hword, byteStep]
      _ = (shiftByte poly)^[(byte :: bytes).length] (crc ^^^ leWord (byte :: bytes)) := by
          rw [← leWord_cons, ← Function.iterate_succ_apply, List.length_cons]

/-- The sum of the tabulated contributions of the bytes of a message: a byte with `n` bytes behind
it contributes its `n + 1` shifts. -/
def tableSum (poly : BitVec 32) : List UInt8 → BitVec 32
  | [] => 0#32
  | byte :: bytes => (shiftByte poly)^[bytes.length + 1] (lowByte byte) ^^^ tableSum poly bytes

theorem run_eq_tableSum (crc : BitVec 32) (bytes : List UInt8) :
    run poly crc bytes = (shiftByte poly)^[bytes.length] crc ^^^ tableSum poly bytes := by
  induction bytes generalizing crc with
  | nil => simp [run, tableSum]
  | cons byte bytes ih =>
    calc run poly crc (byte :: bytes)
        = run poly (byteStep poly crc byte) bytes := rfl
      _ = (shiftByte poly)^[bytes.length] (shiftByte poly (crc ^^^ lowByte byte)) ^^^
            tableSum poly bytes := ih _
      _ = _ := by
          rw [← Function.iterate_succ_apply, iterate_xor (shiftByte_xor poly), BitVec.xor_assoc]
          rfl

/-- **The slicing identity**: the shifts of a word are the contributions of its bytes. -/
theorem shiftByte_iterate_leWord (h : bytes.length ≤ 4) :
    (shiftByte poly)^[bytes.length] (leWord bytes) = tableSum poly bytes := by
  have hzero : (shiftByte poly)^[bytes.length] 0#32 = 0#32 := by
    have hxor := iterate_xor (shiftByte_xor poly) bytes.length 0#32 0#32
    rw [BitVec.xor_self] at hxor
    rw [hxor, BitVec.xor_self]
  have hrun : run poly 0#32 bytes = _ := run_eq_shiftByte 0#32 h
  rw [run_eq_tableSum, hzero, BitVec.zero_xor, BitVec.zero_xor] at hrun
  exact hrun.symm

/-! ## Detection -/

theorem bitStep_injective (hpoly : poly.getLsbD 31 = true) :
    Function.Injective (bitStep poly) := by
  intro x y h
  rw [bitStep_eq, bitStep_eq] at h
  have hbit : x.getLsbD 0 = y.getLsbD 0 := by
    have htop := congrArg (·.getLsbD 31) h
    simp only [BitVec.getLsbD_xor, BitVec.getLsbD_ushiftRight] at htop
    cases hx : x.getLsbD 0 <;> cases hy : y.getLsbD 0 <;> simp_all
  rw [hbit, BitVec.xor_left_inj] at h
  apply BitVec.eq_of_getLsbD_eq
  intro i hi
  cases i with
  | zero => exact hbit
  | succ i =>
    have hshift := congrArg (·.getLsbD i) h
    simpa [BitVec.getLsbD_ushiftRight, Nat.add_comm] using hshift

theorem shiftByte_injective (hpoly : poly.getLsbD 31 = true) :
    Function.Injective (shiftByte poly) :=
  (bitStep_injective hpoly).iterate 8

theorem run_injective (hpoly : poly.getLsbD 31 = true) (bytes : List UInt8) :
    Function.Injective fun crc ↦ run poly crc bytes := by
  induction bytes with
  | nil => exact fun _ _ h ↦ h
  | cons byte bytes ih =>
    intro x y h
    have hstep : byteStep poly x byte = byteStep poly y byte := ih h
    exact (BitVec.xor_left_inj _).mp (shiftByte_injective hpoly hstep)

theorem run_window (hpoly : poly.getLsbD 31 = true) (crc : BitVec 32) {before behind : List UInt8}
    (hlength : xs.length = ys.length) (hfour : xs.length ≤ 4)
    (hrun : run poly crc (before ++ (xs ++ behind)) = run poly crc (before ++ (ys ++ behind))) :
    xs = ys := by
  simp only [run_append] at hrun
  have hwindow := run_injective hpoly behind hrun
  have hys (state : BitVec 32) :
      run poly state ys = (shiftByte poly)^[ys.length] (state ^^^ leWord ys) :=
    run_eq_shiftByte state (hlength ▸ hfour)
  rw [run_eq_shiftByte _ hfour, hys, hlength] at hwindow
  have hword := (BitVec.xor_right_inj _).mp ((shiftByte_injective hpoly).iterate _ hwindow)
  exact leWord_injective hlength hfour hword

/-- **A burst of up to four bytes is detected**: messages of equal length that agree outside four
consecutive bytes and leave the same state are equal. -/
theorem run_burst (hpoly : poly.getLsbD 31 = true) (crc : BitVec 32)
    (hlength : xs.length = ys.length) (start : ℕ)
    (hagree : ∀ i, i < start ∨ start + 4 ≤ i → xs[i]? = ys[i]?)
    (hrun : run poly crc xs = run poly crc ys) : xs = ys := by
  have hbefore : xs.take start = ys.take start := by
    apply List.ext_getElem?
    intro i
    rw [List.getElem?_take, List.getElem?_take]
    split
    · exact hagree i (.inl ‹_›)
    · rfl
  have hbehind : (xs.drop start).drop 4 = (ys.drop start).drop 4 := by
    apply List.ext_getElem?
    intro i
    rw [List.getElem?_drop, List.getElem?_drop, List.getElem?_drop, List.getElem?_drop]
    exact hagree _ (.inr (by omega))
  have hsplit : ∀ zs : List UInt8,
      zs = zs.take start ++ ((zs.drop start).take 4 ++ (zs.drop start).drop 4) := by
    intro zs
    rw [List.take_append_drop, List.take_append_drop]
  have hwindow : (xs.drop start).take 4 = (ys.drop start).take 4 := by
    rw [hsplit xs, hsplit ys, hbefore, hbehind] at hrun
    exact run_window hpoly crc (by simp [hlength]) (List.length_take_le 4 _) hrun
  rw [hsplit xs, hsplit ys, hbefore, hbehind, hwindow]

end Rocev2.Lib.Crc
