import Rocev2.Core.Qp
import Rocev2.Lib.Checked

/-!
# Sharding of the queue-pair numbers

`rocev2-core/src/shard.rs`: independent owners share the queue-pair numbers without talking to each
other.  The owner of a number is its residue modulo the number of shards, and an owner counts its
numbers from the first one that is not reserved.

Every number that an application may have belongs to exactly one owner and has exactly one ordinal
there (`qpn_sharding_bijective`); the sums, differences and products stay within 32 bits
(`qpnChecked_eq`).
-/

namespace Rocev2.Core

open Rocev2.Lib

/-- A partition of the queue-pair numbers: a power of two of owners. -/
structure QpnShardPlan where
  shards : ℕ
  isPowerOfTwo : shards.isPowerOfTwo
  le : shards ≤ 2 ^ 16

namespace QpnShardPlan

/-- Create a power-of-two partition of the 24-bit application numbers. -/
def new (shards : ℕ) : Option QpnShardPlan :=
  if h : shards ≠ 0 ∧ shards.isPowerOfTwo ∧ shards ≤ 2 ^ 16 then some ⟨shards, h.2.1, h.2.2⟩
  else none

variable (plan : QpnShardPlan)

/-- The stable owner of a valid application number. -/
def owner (qpn : ℕ) : Option ℕ :=
  if qpn < 2 ∨ maxQpn < qpn then none else some (qpn &&& (plan.shards - 1))

/-- The first number of an owner; the numbers 0 and 1 are reserved. -/
def first (owner : ℕ) : ℕ :=
  if plan.shards = 1 then 2 else if owner < 2 then owner + plan.shards else owner

/-- Assign the zero-based local ordinal to one owner without wrapping. -/
def qpn (owner ordinal : ℕ) : Option ℕ :=
  if plan.shards ≤ owner then none
  else if (maxQpn - plan.first owner) / plan.shards < ordinal then none
  else some (plan.first owner + ordinal * plan.shards)

/-! ## The numbers of an owner -/

section Numbers

variable {plan} {o k q : ℕ}

theorem pos (plan : QpnShardPlan) : 0 < plan.shards := by
  obtain ⟨n, hn⟩ := plan.isPowerOfTwo
  rw [hn]
  exact Nat.two_pow_pos n

theorem new_shards (plan : QpnShardPlan) : new plan.shards = some plan :=
  dif_pos ⟨plan.pos.ne', plan.isPowerOfTwo, plan.le⟩

theorem and_shards (q : ℕ) : q &&& (plan.shards - 1) = q % plan.shards := by
  obtain ⟨n, hn⟩ := plan.isPowerOfTwo
  rw [hn, Nat.and_two_pow_sub_one_eq_mod]

theorem owner_eq (hlow : 2 ≤ q) (hhigh : q ≤ maxQpn) : plan.owner q = some (q % plan.shards) := by
  rw [owner, if_neg (by omega), and_shards]

theorem first_spec (ho : o < plan.shards) :
    plan.first o % plan.shards = o ∧ 2 ≤ plan.first o ∧ plan.first o < 2 + plan.shards := by
  unfold first
  split_ifs with hone hlow
  · have hzero : o = 0 := by omega
    rw [hone, hzero]
    exact ⟨rfl, Nat.le_refl 2, by omega⟩
  · rw [Nat.add_mod_right, Nat.mod_eq_of_lt ho]
    exact ⟨rfl, by omega, by omega⟩
  · exact ⟨Nat.mod_eq_of_lt ho, by omega, by omega⟩

theorem first_le_maxQpn (ho : o < plan.shards) : plan.first o ≤ maxQpn := by
  have hfirst := (first_spec ho).2.2
  have hle := plan.le
  unfold maxQpn
  omega

/-- **A number is assigned** to an owner and an ordinal. -/
theorem qpn_eq_some :
    plan.qpn o k = some q ↔
      o < plan.shards ∧ plan.first o + k * plan.shards = q ∧ q ≤ maxQpn := by
  unfold qpn
  by_cases ho : plan.shards ≤ o
  · rw [if_pos ho]
    exact ⟨fun h ↦ Option.noConfusion rfl (heq_of_eq h), fun h ↦ absurd h.1 (Nat.not_lt.mpr ho)⟩
  rw [if_neg ho]
  have hlt := Nat.lt_of_not_le ho
  have hfirst := first_le_maxQpn hlt
  have hordinal : (maxQpn - plan.first o) / plan.shards < k ↔
      maxQpn < plan.first o + k * plan.shards := by
    rw [Nat.div_lt_iff_lt_mul plan.pos]
    omega
  by_cases hk : (maxQpn - plan.first o) / plan.shards < k
  · rw [if_pos hk]
    have hbeyond := hordinal.mp hk
    constructor
    · rintro ⟨⟩
    · rintro ⟨-, rfl, hle⟩
      omega
  · rw [if_neg hk]
    have hwithin := Nat.le_of_not_lt (hordinal.not.mp hk)
    constructor
    · rintro ⟨⟩
      exact ⟨hlt, rfl, hwithin⟩
    · rintro ⟨-, rfl, -⟩
      rfl

theorem first_add_mod (ho : o < plan.shards) (k : ℕ) :
    (plan.first o + k * plan.shards) % plan.shards = o := by
  rw [Nat.add_mul_mod_self_right, (first_spec ho).1]

theorem exists_ordinal (plan : QpnShardPlan) (hlow : 2 ≤ q) :
    ∃ k, plan.first (q % plan.shards) + k * plan.shards = q := by
  obtain ⟨hmod, -, hlt⟩ := first_spec (Nat.mod_lt q plan.pos)
  have hle : plan.first (q % plan.shards) ≤ q := by
    by_contra hgt
    have hdvd := Nat.dvd_of_mod_eq_zero (Nat.sub_mod_eq_zero_of_mod_eq hmod)
    have hstep := Nat.le_of_dvd (by omega) hdvd
    omega
  obtain ⟨k, hk⟩ := Nat.dvd_of_mod_eq_zero (Nat.sub_mod_eq_zero_of_mod_eq hmod.symm)
  refine ⟨k, ?_⟩
  rw [Nat.mul_comm k, ← hk]
  omega

end Numbers

/-! ## Overflow -/

section Overflow

open Checked

def ownerChecked (qpn : ℕ) : Checked Empty (Option ℕ) :=
  if qpn < 2 ∨ maxQpn < qpn then .ok none
  else do
    let mask ← sub plan.shards 1
    .ok (some (qpn &&& mask))

/-- `first` with a checked sum of 32-bit words. -/
def firstChecked (owner : ℕ) : Checked Empty ℕ :=
  if plan.shards = 1 then .ok 2
  else if owner < 2 then add 32 owner plan.shards
  else .ok owner

/-- `qpn` with checked sums, differences and products of 32-bit words. -/
def qpnChecked (owner ordinal : ℕ) : Checked Empty (Option ℕ) :=
  if plan.shards ≤ owner then .ok none
  else do
    let first ← plan.firstChecked owner
    let room ← sub maxQpn first
    if room / plan.shards < ordinal then .ok none
    else
      let offset ← mul 32 ordinal plan.shards
      let qpn ← add 32 first offset
      .ok (some qpn)

variable {plan} {o k : ℕ}

theorem ownerChecked_eq (q : ℕ) : plan.ownerChecked q = .ok (plan.owner q) := by
  unfold ownerChecked owner
  split_ifs
  · rfl
  · rw [sub_eq (Nat.succ_le_of_lt plan.pos)]
    rfl

/-- **No sum, difference or product of `qpn` leaves 32 bits.** -/
theorem qpnChecked_eq (o k : ℕ) : plan.qpnChecked o k = .ok (plan.qpn o k) := by
  unfold qpnChecked qpn
  by_cases ho : plan.shards ≤ o
  · rw [if_pos ho, if_pos ho]
  rw [if_neg ho, if_neg ho]
  have hlt := Nat.lt_of_not_le ho
  have hshards := plan.le
  have hfirst : plan.firstChecked o = .ok (plan.first o) := by
    unfold firstChecked first
    split_ifs with hone hlow
    · rfl
    · exact add_eq (by omega)
    · rfl
  have hle := first_le_maxQpn hlt
  rw [hfirst, ok_bind, sub_eq hle, ok_bind]
  by_cases hk : (maxQpn - plan.first o) / plan.shards < k
  · rw [if_pos hk, if_pos hk]
  · rw [if_neg hk, if_neg hk]
    have hwithin : k * plan.shards ≤ maxQpn - plan.first o :=
      (Nat.le_div_iff_mul_le plan.pos).mp (Nat.le_of_not_lt hk)
    have hmax : maxQpn < 2 ^ 32 := by decide
    rw [mul_eq (by omega), ok_bind, add_eq (by omega)]
    rfl

end Overflow

/-- **The numbers of the owners partition the application numbers.**  For every accepted plan each
number from 2 to `2 ^ 24 - 1` is assigned to exactly one owner and ordinal, and only these numbers
are; the owner of a number is the one it is assigned to; the ordinals of an owner are those up to a
last one; and no computation leaves 32 bits. -/
theorem qpn_sharding_bijective (plan : QpnShardPlan) :
    new plan.shards = some plan ∧
      (∀ o k q, plan.qpn o k = some q → 2 ≤ q ∧ q ≤ maxQpn ∧ plan.owner q = some o) ∧
      (∀ q, 2 ≤ q → q ≤ maxQpn → ∃! pair : ℕ × ℕ, plan.qpn pair.1 pair.2 = some q) ∧
      (∀ o < plan.shards, ∃ last, ∀ k, (plan.qpn o k).isSome ↔ k ≤ last) ∧
      (∀ q, plan.ownerChecked q = .ok (plan.owner q)) ∧
      ∀ o k, plan.qpnChecked o k = .ok (plan.qpn o k) := by
  refine ⟨new_shards plan, fun o k q h ↦ ?_, fun q hlow hhigh ↦ ?_, fun o ho ↦ ?_, ownerChecked_eq,
    qpnChecked_eq⟩
  · obtain ⟨ho, rfl, hle⟩ := qpn_eq_some.mp h
    have hlow := (first_spec ho).2.1
    refine ⟨by omega, hle, ?_⟩
    rw [owner_eq (by omega) hle, first_add_mod ho]
  · obtain ⟨k, hk⟩ := plan.exists_ordinal hlow
    refine ⟨(q % plan.shards, k), qpn_eq_some.mpr ⟨Nat.mod_lt q plan.pos, hk, hhigh⟩, ?_⟩
    rintro ⟨o, k'⟩ h
    obtain ⟨ho, hq, -⟩ := qpn_eq_some.mp h
    dsimp only at ho hq
    obtain rfl : o = q % plan.shards := by rw [← hq, first_add_mod ho]
    have hmul : k' * plan.shards = k * plan.shards := by omega
    rw [Nat.eq_of_mul_eq_mul_right plan.pos hmul]
  · refine ⟨(maxQpn - plan.first o) / plan.shards, fun k ↦ ?_⟩
    rw [qpn, if_neg (Nat.not_le.mpr ho)]
    split_ifs with hk
    · exact ⟨fun h ↦ Bool.noConfusion h, fun h ↦ absurd hk (Nat.not_lt.mpr h)⟩
    · exact ⟨fun _ ↦ Nat.le_of_not_lt hk, fun _ ↦ rfl⟩

end QpnShardPlan

end Rocev2.Core
