import Mathlib.Data.Nat.Notation
import Mathlib.Logic.Function.Iterate

/-!
# Generation-checked handles

A table of slots gives every new tenant of a slot the next *generation*, counted modulo `m` with
zero left out, and a handle names a slot together with a generation.  After `m - 1` further tenants
the generations of a slot repeat; until then, a handle of a tenant that has left is refused
(`Steps.stale`).

A state records the current generation of each slot and whether the slot is occupied, and
`Steps m s log t` is a run from `s` to `t` in which the slots of `log` were given to new tenants.
-/

namespace Rocev2.Lib.Generations

universe u

/-! ## The counter -/

def next (m g : ℕ) : ℕ := max ((g + 1) % m) 1

section Counter

variable {m g : ℕ}

theorem next_of_lt (h : g + 1 < m) : next m g = g + 1 := by
  simp [next, Nat.mod_eq_of_lt h]

theorem next_last (m : ℕ) : next (m + 1) m = 1 := by
  simp [next]

theorem iterate_next (hpos : 0 < g) (hlt : g < m) (k : ℕ) :
    (next m)^[k] g = (g - 1 + k) % (m - 1) + 1 := by
  induction k with
  | zero =>
    rw [Function.iterate_zero_apply, Nat.add_zero, Nat.mod_eq_of_lt (by omega)]
    omega
  | succ k ih =>
    have hbound := Nat.mod_lt (g - 1 + k) (by omega : 0 < m - 1)
    rw [Function.iterate_succ_apply', ih, ← Nat.add_assoc, Nat.add_mod (g - 1 + k) 1]
    generalize (g - 1 + k) % (m - 1) = r at hbound
    rcases Nat.lt_or_eq_of_le (Nat.succ_le_of_lt hbound) with hsucc | hlast
    · have hone : 1 % (m - 1) = 1 := Nat.mod_eq_of_lt (by omega)
      rw [next_of_lt (by omega), hone, Nat.mod_eq_of_lt hsucc]
    · obtain rfl : m = r + 1 + 1 := by omega
      rw [next_last]
      simp

theorem iterate_next_ne (hpos : 0 < g) (hlt : g < m) {k : ℕ} (hk : 0 < k) (hsmall : k < m - 1) :
    (next m)^[k] g ≠ g := by
  rw [iterate_next hpos hlt]
  intro heq
  have hrest : (g - 1 + k) % (m - 1) = g - 1 := by omega
  rcases Nat.lt_or_ge (g - 1 + k) (m - 1) with hbelow | habove
  · rw [Nat.mod_eq_of_lt hbelow] at hrest
    omega
  · rw [Nat.mod_eq_sub_mod habove, Nat.mod_eq_of_lt (by omega)] at hrest
    omega

theorem next_pos (m g : ℕ) : 0 < next m g := Nat.lt_of_lt_of_le Nat.one_pos (Nat.le_max_right ..)

theorem next_lt (h : 1 < m) : next m g < m :=
  Nat.max_lt.mpr ⟨Nat.mod_lt _ (Nat.lt_of_succ_lt h), h⟩

end Counter

/-! ## Slots -/

/-- The slots of a table. -/
structure State (ι : Type u) where
  /-- The last generation that each slot has given out. -/
  current : ι → ℕ
  /-- The occupied slots. -/
  live : ι → Prop

variable {ι : Type u} [DecidableEq ι] {m : ℕ}

/-- Runs of a table; the log lists the slots that were given to new tenants. -/
inductive Steps (m : ℕ) (s : State ι) : List ι → State ι → Prop
  | /-- Nothing has happened. -/
    refl : Steps m s [] s
  | /-- Some tenants leave. -/
    lapse {log t t'} (h : Steps m s log t) (hcurrent : t'.current = t.current)
      (hlive : ∀ i, t'.live i → t.live i) : Steps m s log t'
  | /-- A slot is given to a new tenant. -/
    reuse {log t t' i} (h : Steps m s log t)
      (hcurrent : t'.current = Function.update t.current i (next m (t.current i)))
      (hlive : ∀ j, t'.live j → j = i ∨ t.live j) : Steps m s (i :: log) t'

namespace Steps

variable {s t u : State ι} {log log' : List ι} {i : ι}

theorem trans (h : Steps m s log t) (h' : Steps m t log' u) : Steps m s (log' ++ log) u := by
  induction h' with
  | refl => exact h
  | lapse _ hcurrent hlive ih => exact .lapse ih hcurrent hlive
  | reuse _ hcurrent hlive ih => exact .reuse ih hcurrent hlive

theorem current_eq (h : Steps m s log t) :
    t.current i = (next m)^[log.count i] (s.current i) := by
  induction h with
  | refl => simp
  | lapse _ hcurrent _ ih => rw [hcurrent, ih]
  | @reuse log t t' j _ hcurrent _ ih =>
    rw [hcurrent]
    by_cases hij : i = j
    · subst hij
      rw [Function.update_self, List.count_cons_self, Function.iterate_succ_apply', ih]
    · rw [Function.update_of_ne hij, ih, List.count_cons_of_ne (Ne.symm hij)]

theorem count_pos (h : Steps m s log t) (hempty : ¬s.live i) (hlive : t.live i) :
    0 < log.count i := by
  induction h with
  | refl => exact absurd hlive hempty
  | lapse _ _ hkeep ih => exact ih (hkeep i hlive)
  | @reuse log t t' j _ _ hkeep ih =>
    rcases hkeep i hlive with rfl | hold
    · simp
    · exact Nat.lt_of_lt_of_le (ih hold) List.count_le_count_cons

theorem current_bounds (h : Steps m s log t) (hm : 1 < m) (hempty : ¬s.live i) (hlive : t.live i) :
    0 < t.current i ∧ t.current i < m := by
  obtain ⟨k, hk⟩ := Nat.exists_eq_succ_of_ne_zero (Nat.ne_of_gt (h.count_pos hempty hlive))
  rw [h.current_eq, hk, Function.iterate_succ_apply']
  exact ⟨next_pos m _, next_lt hm⟩

/-- **A handle of a tenant that has left stays refused** until the generations repeat. -/
theorem stale (h : Steps m s log t) (hempty : ¬s.live i) (hpos : 0 < s.current i)
    (hlt : s.current i < m) (hcount : log.count i < m - 1) :
    ¬(t.live i ∧ t.current i = s.current i) := by
  rintro ⟨hlive, heq⟩
  rw [h.current_eq] at heq
  exact iterate_next_ne hpos hlt (h.count_pos hempty hlive) hcount heq

end Steps

end Rocev2.Lib.Generations
