import Rocev2.Lib.Bytes

/-!
# One's-complement sums

The Internet checksum adds 16-bit words and folds every carry back into the sum, which is addition
modulo `2 ^ 16 - 1` with two representations of zero.  A message whose checksum field holds the
complement of the sum of the rest adds up to the all-ones representation (`foldCarries_add`), so a
receiver that complements the whole sum finds zero.
-/

namespace Rocev2.Lib.OnesComplement

open Bytes

/-- Fold the carries of a sum back into its low sixteen bits. -/
def foldCarries (sum : ℕ) : ℕ :=
  if _hcarry : sum >>> 16 ≠ 0 then foldCarries ((sum &&& 0xffff) + (sum >>> 16)) else sum
termination_by sum
decreasing_by
  rw [Nat.shiftRight_eq_div_pow] at _hcarry ⊢
  rw [show sum &&& 0xffff = sum % 2 ^ 16 from Nat.and_two_pow_sub_one_eq_mod sum 16]
  omega

/-- The sum of the big-endian 16-bit words of a message; an odd last byte is a high byte. -/
def wordSum : List UInt8 → ℕ
  | high :: low :: rest => (u16FromBe [high, low]).toNat + wordSum rest
  | [last] => last.toNat <<< 8
  | [] => 0

def checksum (bytes : List UInt8) : UInt16 := ~~~ UInt16.ofNat (foldCarries (wordSum bytes))

/-- Folding keeps a sum modulo `2 ^ 16 - 1`, and keeps it positive. -/
theorem foldCarries_spec (sum : ℕ) :
    foldCarries sum < 2 ^ 16 ∧ foldCarries sum % 65535 = sum % 65535 ∧
      (0 < sum → 0 < foldCarries sum) := by
  induction sum using Nat.strongRecOn with
  | ind sum ih =>
    rw [foldCarries]
    split
    · rename_i h
      have hdiv : sum >>> 16 = sum / 2 ^ 16 := Nat.shiftRight_eq_div_pow sum 16
      have hmod : sum &&& 0xffff = sum % 2 ^ 16 := Nat.and_two_pow_sub_one_eq_mod sum 16
      obtain ⟨hlt, heq, hpos⟩ := ih ((sum &&& 0xffff) + (sum >>> 16)) (by omega)
      refine ⟨hlt, ?_, fun _ ↦ hpos (by omega)⟩
      rw [heq, hdiv, hmod]
      omega
    · rename_i h
      rw [not_not, Nat.shiftRight_eq_div_pow] at h
      exact ⟨by omega, rfl, id⟩

/-- **A sum and the complement of its fold** fold to the all-ones word. -/
theorem foldCarries_add {sum : ℕ} (h : 0 < sum) :
    foldCarries (sum + (65535 - foldCarries sum)) = 65535 := by
  obtain ⟨hlt, heq, hpos⟩ := foldCarries_spec sum
  obtain ⟨hlt', heq', hpos'⟩ := foldCarries_spec (sum + (65535 - foldCarries sum))
  have hpos₁ := hpos h
  have hpos₂ := hpos' (by omega)
  omega

theorem toNat_checksum (bytes : List UInt8) :
    (checksum bytes).toNat = 65535 - foldCarries (wordSum bytes) := by
  have hlt := (foldCarries_spec (wordSum bytes)).1
  rw [checksum, UInt16.toNat_not, UInt16.toNat_ofNat_of_lt' hlt]
  rfl

theorem wordSum_toBe (word : UInt16) (rest : List UInt8) :
    wordSum (toBe 2 word.toNat ++ rest) = word.toNat + wordSum rest := by
  have hcons : wordSum (toBe 2 word.toNat ++ rest) =
      (u16FromBe (toBe 2 word.toNat)).toNat + wordSum rest := rfl
  rw [hcons, u16FromBe_toBe]

theorem wordSum_pair (high low : UInt8) (rest : List UInt8) :
    wordSum ([high, low] ++ rest) = (u16FromBe [high, low]).toNat + wordSum rest :=
  rfl

/-- **A message that adds up to all ones** has checksum zero. -/
theorem checksum_eq_zero {bytes : List UInt8} (h : foldCarries (wordSum bytes) = 65535) :
    checksum bytes = 0 := by
  apply UInt16.toNat_inj.mp
  rw [toNat_checksum, h]
  rfl

end Rocev2.Lib.OnesComplement
