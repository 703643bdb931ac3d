import Mathlib.Algebra.Ring.Nat
import Mathlib.Tactic.Common

/-!
# Serial numbers

Counters that wrap are compared by the *forward distance* between their residues: the number of
steps from the older value to the newer one around a circle of `m` points.  As long as two
unbounded counters are close, that distance determines which of them is ahead, and by how much.

Every statement is about unbounded counters and their residues modulo an arbitrary `m`, so the
lemmas apply to any width of sequence number.
-/

namespace Rocev2.Lib.Serial

variable {m b a : ℕ}

def distance (m newer older : ℕ) : ℕ := (newer + m - older) % m

theorem distance_lt (hm : 0 < m) (newer older : ℕ) : distance m newer older < m :=
  Nat.mod_lt _ hm

theorem add_mod_eq {d : ℕ} (hd : d < m) :
    (b + d) % m = if b % m + d < m then b % m + d else b % m + d - m := by
  have hr : b % m < m := Nat.mod_lt _ (Nat.zero_lt_of_lt hd)
  rw [Nat.add_mod, Nat.mod_eq_of_lt hd]
  split
  · exact Nat.mod_eq_of_lt ‹_›
  · rw [Nat.mod_eq_sub_mod (by omega), Nat.mod_eq_of_lt (by omega)]

theorem distance_of_le (hba : b ≤ a) (hlt : a < b + m) :
    distance m (a % m) (b % m) = a - b := by
  obtain ⟨d, rfl⟩ := Nat.exists_eq_add_of_le hba
  have hd : d < m := by omega
  have hr : b % m < m := Nat.mod_lt _ (by omega)
  rw [distance, add_mod_eq hd]
  split
  · rw [show b % m + d + m - b % m = d + m by omega, Nat.add_mod_right, Nat.mod_eq_of_lt hd]
    omega
  · rw [show b % m + d - m + m - b % m = d by omega, Nat.mod_eq_of_lt hd]
    omega

theorem distance_of_lt (hab : a < b) (hle : b < a + m) :
    distance m (a % m) (b % m) = m - (b - a) := by
  -- advancing `a` by one whole turn does not change its residue
  have h := distance_of_le (m := m) (a := a + m) (b := b) (by omega) (by omega)
  rw [Nat.add_mod_right] at h
  rw [h]
  omega

theorem half_le_distance_iff {h : ℕ} (hab : a < b + h) (hba : b ≤ a + h) :
    h ≤ distance (2 * h) (a % (2 * h)) (b % (2 * h)) ↔ a < b := by
  rcases Nat.lt_or_ge a b with hlt | hge
  · rw [distance_of_lt hlt (by omega)]
    omega
  · rw [distance_of_le hge (by omega)]
    omega

theorem mod_inj {h : ℕ} (hab : a < b + h) (hba : b ≤ a + h) (h0 : 0 < h)
    (he : a % (2 * h) = b % (2 * h)) : a = b := by
  have hself : distance (2 * h) (b % (2 * h)) (b % (2 * h)) = 0 := by
    rw [distance_of_le (Nat.le_refl b) (by omega)]
    omega
  rcases Nat.lt_or_ge a b with hlt | hge
  · have := distance_of_lt (m := 2 * h) hlt (by omega)
    rw [he, hself] at this
    omega
  · have := distance_of_le (m := 2 * h) hge (by omega)
    rw [he, hself] at this
    omega

end Rocev2.Lib.Serial
