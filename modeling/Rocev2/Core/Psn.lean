import Rocev2.Lib.Serial

/-!
# Packet sequence numbers

The 24-bit serial space of the Reliable Connected transport (`rocev2-core/src/psn.rs`).

A sequence number carries its width as a field, so a value wider than 24 bits cannot be built.
Ordering is relative to a nearby reference: half of the space lies before it, the rest after it.
The lemmas below read every operation off an unbounded packet index, `newTruncated index`, which
is how the invariants of the transport are stated.
-/

namespace Rocev2.Core

/-- Relative ordering of two packet sequence numbers. -/
inductive PsnOrdering where
  /-- The left-hand PSN is before the reference. -/
  | before
  /-- Both PSNs are equal. -/
  | equal
  /-- The left-hand PSN is after the reference. -/
  | after
deriving DecidableEq, Repr

/-- A validated 24-bit packet sequence number. -/
@[ext]
structure Psn where
  /-- The numeric value. -/
  value : ℕ
  /-- The value fits in 24 bits. -/
  isLt : value < 2 ^ 24
deriving DecidableEq, Repr

namespace Psn

/-- The first PSN of the space. -/
def zero : Psn := ⟨0, by decide⟩

/-- Construct a PSN by retaining the low 24 bits. -/
def newTruncated (value : ℕ) : Psn := ⟨value % 2 ^ 24, Nat.mod_lt _ (by decide)⟩

def wrappingAdd (psn : Psn) (increment : ℕ) : Psn := newTruncated (psn.value + increment)

def next (psn : Psn) : Psn := psn.wrappingAdd 1

def forwardDistanceFrom (psn older : Psn) : ℕ := Lib.Serial.distance (2 ^ 24) psn.value older.value

/-- Compare with a nearby reference.  Exactly half of the space counts as before. -/
def compare (psn reference : Psn) : PsnOrdering :=
  if psn.value = reference.value then .equal
  -- bit 23 of the difference, which the source shifts into the sign bit of a 32-bit word
  else if 2 ^ 23 ≤ psn.forwardDistanceFrom reference then .before
  else .after

/-! ## Unbounded indices -/

@[simp]
theorem newTruncated_value (n : ℕ) : (newTruncated n).value = n % 2 ^ 24 := rfl

@[simp]
theorem newTruncated_self (psn : Psn) : newTruncated psn.value = psn := by
  ext
  exact Nat.mod_eq_of_lt psn.isLt

@[simp]
theorem wrappingAdd_newTruncated (n increment : ℕ) :
    (newTruncated n).wrappingAdd increment = newTruncated (n + increment) := by
  ext
  simp [wrappingAdd]

theorem wrappingAdd_wrappingAdd (psn : Psn) (m n : ℕ) :
    (psn.wrappingAdd m).wrappingAdd n = psn.wrappingAdd (m + n) := by
  calc (psn.wrappingAdd m).wrappingAdd n
      = newTruncated (psn.value + m + n) := wrappingAdd_newTruncated _ n
    _ = psn.wrappingAdd (m + n) := by rw [Nat.add_assoc, wrappingAdd]

@[simp]
theorem wrappingAdd_zero (psn : Psn) : psn.wrappingAdd 0 = psn := by
  simp [wrappingAdd]

theorem wrappingAdd_eq_newTruncated {first : Psn} {k index : ℕ}
    (h : first.wrappingAdd k = newTruncated index) {l : ℕ} (hle : k ≤ index + l) :
    first.wrappingAdd l = newTruncated (index + l - k) := by
  have hvalue := congrArg value h
  ext
  simp only [wrappingAdd, newTruncated_value] at hvalue ⊢
  omega

@[simp]
theorem next_newTruncated (n : ℕ) : (newTruncated n).next = newTruncated (n + 1) :=
  wrappingAdd_newTruncated n 1

theorem next_wrappingAdd (psn : Psn) (n : ℕ) :
    (psn.wrappingAdd n).next = psn.wrappingAdd (n + 1) :=
  wrappingAdd_wrappingAdd psn n 1

theorem forwardDistanceFrom_newTruncated {a b : ℕ} (hba : b ≤ a) (hlt : a < b + 2 ^ 24) :
    (newTruncated a).forwardDistanceFrom (newTruncated b) = a - b :=
  Lib.Serial.distance_of_le hba hlt

theorem forwardDistanceFrom_lt (psn older : Psn) : psn.forwardDistanceFrom older < 2 ^ 24 :=
  Lib.Serial.distance_lt (by decide) _ _

theorem newTruncated_inj {a b : ℕ} (hab : a < b + 2 ^ 23) (hba : b ≤ a + 2 ^ 23) :
    newTruncated a = newTruncated b ↔ a = b := by
  constructor
  · intro h
    exact Lib.Serial.mod_inj (h := 2 ^ 23) hab hba (by decide) (congrArg value h)
  · rintro rfl
    rfl

theorem compare_newTruncated {a b : ℕ} (hab : a < b + 2 ^ 23) (hba : b ≤ a + 2 ^ 23) :
    (newTruncated a).compare (newTruncated b) =
      if a < b then .before else if a = b then .equal else .after := by
  have hhalf : 2 ^ 23 ≤ (newTruncated a).forwardDistanceFrom (newTruncated b) ↔ a < b :=
    Lib.Serial.half_le_distance_iff hab hba
  have heq : (newTruncated a).value = (newTruncated b).value ↔ a = b := by
    rw [← newTruncated_inj hab hba]
    exact ⟨fun h ↦ Psn.ext h, congrArg value⟩
  unfold compare
  rcases Nat.lt_trichotomy a b with h | h | h
  · rw [if_neg (by omega), if_pos (hhalf.mpr h), if_pos h]
  · rw [if_pos (heq.mpr h), if_neg (by omega), if_pos h]
  · rw [if_neg (by omega), if_neg (fun hd ↦ by have := hhalf.mp hd; omega), if_neg (by omega),
      if_neg (by omega)]

theorem compare_eq_equal {psn reference : Psn} :
    psn.compare reference = .equal ↔ psn = reference := by
  unfold compare
  constructor
  · intro h
    split at h
    · exact Psn.ext ‹_›
    · split at h <;> cases h
  · rintro rfl
    simp

theorem exists_eq_wrappingAdd (psn reference : Psn) :
    ∃ d < 2 ^ 24, psn = reference.wrappingAdd d := by
  refine ⟨psn.forwardDistanceFrom reference, forwardDistanceFrom_lt _ _, ?_⟩
  ext
  have h₁ := psn.isLt
  have h₂ := reference.isLt
  simp only [wrappingAdd, newTruncated_value, forwardDistanceFrom, Lib.Serial.distance]
  omega

theorem compare_wrappingAdd (reference : Psn) {d : ℕ} (hd : d < 2 ^ 24) :
    (reference.wrappingAdd d).compare reference =
      if d = 0 then .equal else if 2 ^ 23 ≤ d then .before else .after := by
  have hlt := reference.isLt
  have hdist : (reference.wrappingAdd d).forwardDistanceFrom reference = d := by
    simp only [wrappingAdd, newTruncated_value, forwardDistanceFrom, Lib.Serial.distance]
    omega
  have hval : (reference.wrappingAdd d).value = reference.value ↔ d = 0 := by
    simp only [wrappingAdd, newTruncated_value]
    omega
  unfold compare
  simp only [hval, hdist]

end Psn

end Rocev2.Core
