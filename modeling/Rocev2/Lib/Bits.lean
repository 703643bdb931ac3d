import Mathlib.Algebra.Ring.Nat

/-!
# Words assembled from bit fields

A 32-bit word is often a few one-bit flags in front of a number.  `flag mask b` is a flag as it
stands in the word; the lemmas say how masks take such a word apart and that the parts give the
word back.
-/

namespace Rocev2.Lib.Bits

def flag (mask : UInt32) (b : Bool) : UInt32 := if b then mask else 0

def IsBit (mask : UInt32) : Prop := ∃ i < 32, mask.toBitVec = BitVec.twoPow 32 i

variable {word mask : UInt32}

theorem and_or (a b c : UInt32) : a &&& (b ||| c) = (a &&& b) ||| (a &&& c) := by
  apply UInt32.toBitVec_inj.mp
  simp only [UInt32.toBitVec_and, UInt32.toBitVec_or, BitVec.and_or_distrib_left]

theorem or_and (a b c : UInt32) : (a ||| b) &&& c = (a &&& c) ||| (b &&& c) := by
  rw [UInt32.and_comm, and_or, UInt32.and_comm c a, UInt32.and_comm c b]

theorem and_allOnes (word : UInt32) : word &&& 0xffffffff = word := by
  apply UInt32.toBitVec_inj.mp
  rw [UInt32.toBitVec_and]
  exact BitVec.and_allOnes

theorem IsBit.and_eq (h : IsBit mask) (word : UInt32) :
    word &&& mask = 0 ∨ word &&& mask = mask := by
  obtain ⟨i, -, hmask⟩ := h
  have hand : (word &&& mask).toBitVec =
      if word.toBitVec.getLsbD i then mask.toBitVec else 0#32 := by
    rw [UInt32.toBitVec_and, hmask, BitVec.and_twoPow]
  cases hbit : word.toBitVec.getLsbD i
  · rw [hbit] at hand
    exact .inl (UInt32.toBitVec_inj.mp hand)
  · rw [hbit] at hand
    exact .inr (UInt32.toBitVec_inj.mp hand)

theorem IsBit.ne_zero (h : IsBit mask) : mask ≠ 0 := by
  obtain ⟨i, hi, hmask⟩ := h
  rintro rfl
  have hbit := congrArg (·.getLsbD i) hmask
  simp [hi] at hbit

/-- **A flag that is read and written again** is the bit it was read from. -/
theorem IsBit.flag_and (h : IsBit mask) (word : UInt32) :
    flag mask (word &&& mask != 0) = word &&& mask := by
  rcases h.and_eq word with hclear | hset
  · rw [hclear]
    rfl
  · have hne : (mask != 0) = true := bne_iff_ne.mpr h.ne_zero
    rw [hset, hne]
    rfl

theorem flag_and_self (mask : UInt32) (b : Bool) : flag mask b &&& mask = flag mask b := by
  cases b
  · exact UInt32.zero_and
  · exact UInt32.and_self

theorem flag_and_of_disjoint {other : UInt32} (h : mask &&& other = 0) (b : Bool) :
    flag mask b &&& other = 0 := by
  cases b
  · exact UInt32.zero_and
  · exact h

theorem flag_bne_zero (h : mask ≠ 0) (b : Bool) : (flag mask b != 0) = b := by
  cases b
  · rfl
  · exact bne_iff_ne.mpr h

theorem and_of_le {n : ℕ} (hmask : mask.toNat = 2 ^ n - 1) (h : word ≤ mask) :
    word &&& mask = word := by
  have hle : word.toNat ≤ 2 ^ n - 1 := hmask ▸ UInt32.le_iff_toNat_le.mp h
  have hpos := Nat.two_pow_pos n
  apply UInt32.toNat_inj.mp
  rw [UInt32.toNat_and, hmask, Nat.and_two_pow_sub_one_of_lt_two_pow (by omega)]

theorem and_of_disjoint {other : UInt32} (hword : word &&& mask = word)
    (h : mask &&& other = 0) : word &&& other = 0 := by
  rw [← hword, UInt32.and_assoc, h, UInt32.and_zero]

theorem and_le (word mask : UInt32) : word &&& mask ≤ mask := by
  rw [UInt32.le_iff_toNat_le, UInt32.toNat_and]
  exact Nat.and_le_right

/-! ## Mixing -/

/-- **A word and its own shift can be told apart again**: the difference of two words with the same
image is fixed by the shift, so it is zero. -/
theorem xorShift_injective {shift : UInt32} (h : 0 < shift.toNat % 32) :
    Function.Injective fun word : UInt32 ↦ word ^^^ (word >>> shift) := by
  intro a b hab
  have hxor : a.toBitVec ^^^ (a.toBitVec >>> (shift.toNat % 32)) =
      b.toBitVec ^^^ (b.toBitVec >>> (shift.toNat % 32)) := by
    simpa using congrArg UInt32.toBitVec hab
  generalize shift.toNat % 32 = n at h hxor
  have hfixed : (a.toBitVec ^^^ b.toBitVec) >>> n = a.toBitVec ^^^ b.toBitVec := by
    rw [BitVec.ushiftRight_xor_distrib]
    calc a.toBitVec >>> n ^^^ b.toBitVec >>> n
        = a.toBitVec ^^^ (a.toBitVec ^^^ a.toBitVec >>> n) ^^^ b.toBitVec >>> n := by
          rw [← BitVec.xor_assoc a.toBitVec, BitVec.xor_self, BitVec.zero_xor]
      _ = a.toBitVec ^^^ (b.toBitVec ^^^ b.toBitVec >>> n) ^^^ b.toBitVec >>> n := by rw [hxor]
      _ = a.toBitVec ^^^ b.toBitVec := by
          rw [BitVec.xor_assoc, BitVec.xor_assoc, BitVec.xor_self, BitVec.xor_zero]
  have hdiv := congrArg BitVec.toNat hfixed
  rw [BitVec.toNat_ushiftRight, Nat.shiftRight_eq_div_pow] at hdiv
  have hzero : (a.toBitVec ^^^ b.toBitVec).toNat = 0 := by
    refine Nat.eq_zero_of_not_pos fun hpos ↦ ?_
    exact Nat.ne_of_lt (Nat.div_lt_self hpos (Nat.one_lt_two_pow (Nat.ne_of_gt h))) hdiv
  exact UInt32.toBitVec_inj.mp (BitVec.xor_eq_zero_iff.mp (BitVec.eq_of_toNat_eq hzero))

theorem mul_injective {factor inverse : UInt32} (h : factor * inverse = 1) :
    Function.Injective fun word : UInt32 ↦ word * factor := by
  intro a b hab
  have hmul := congrArg (· * inverse) hab
  simpa only [UInt32.mul_assoc, h, UInt32.mul_one] using hmul

end Rocev2.Lib.Bits
