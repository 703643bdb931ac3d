import Mathlib.Data.List.Nodup

/-!
# Doubly linked chains

`Chain previous next l` says that two maps link the members of a list in its order: the first member
has no predecessor, the last one no successor, and every other link leads to the neighbour in the
list.  Nothing is said about elements that are not in the list.

A member can be added behind the last one and taken out anywhere by changing the links of its
neighbours only (`Chain.concat`, `Chain.remove`).
-/

namespace Rocev2.Lib

universe u

variable {α : Type u} {previous next previous' next' : α → Option α} {l a b : List α} {x y : α}

/-- The maps link the members of the list with their neighbours. -/
def Chain (previous next : α → Option α) (l : List α) : Prop :=
  ∀ a x b, l = a ++ x :: b → previous x = a.getLast? ∧ next x = b.head?

namespace Chain

theorem nil (previous next : α → Option α) : Chain previous next [] := by
  intro a x b h
  exact absurd h.symm (List.append_ne_nil_of_right_ne_nil a (List.cons_ne_nil x b))

theorem concat_split {z : α} (h : l ++ [z] = a ++ x :: b) :
    a = l ∧ x = z ∧ b = [] ∨ ∃ c, b = c ++ [z] ∧ l = a ++ x :: c := by
  rcases List.eq_nil_or_concat b with rfl | ⟨c, w, rfl⟩
  · obtain ⟨hl, hx⟩ := List.append_inj' h rfl
    exact .inl ⟨hl.symm, (List.cons.inj hx).1.symm, rfl⟩
  · rw [List.concat_eq_append, ← List.cons_append, ← List.append_assoc] at h
    obtain ⟨hl, hz⟩ := List.append_inj' h rfl
    rw [(List.cons.inj hz).1]
    exact .inr ⟨c, List.concat_eq_append, hl⟩

theorem append_split {c d : List α} (h : a ++ b = c ++ x :: d) :
    (∃ e, a = c ++ x :: e ∧ d = e ++ b) ∨ ∃ e, b = e ++ x :: d ∧ c = a ++ e := by
  rcases List.append_eq_append_iff.mp h with ⟨e, rfl, rfl⟩ | ⟨e, rfl, he⟩
  · exact .inr ⟨e, rfl, rfl⟩
  · cases e with
    | nil => exact .inr ⟨[], he.symm, by rw [List.append_nil, List.append_nil]⟩
    | cons y e =>
      obtain ⟨rfl, rfl⟩ := List.cons.inj he
      exact .inl ⟨e, rfl, rfl⟩

theorem getLast?_ne_of_nodup (h : (a ++ x :: y :: b).Nodup) :
    (a ++ x :: y :: b).getLast? ≠ some x := by
  intro hlast
  rw [List.getLast?_append_of_ne_nil a (List.cons_ne_nil x _), List.getLast?_cons_cons] at hlast
  exact (List.nodup_cons.mp (List.nodup_append.mp h).2.1).1 (List.mem_of_getLast? hlast)

/-- **A member behind the last one.** -/
theorem concat (h : Chain previous next l) (hnodup : (l ++ [x]).Nodup)
    (hprevious : previous' x = l.getLast?) (hnext : next' x = none)
    (hprevious' : ∀ y ∈ l, previous' y = previous y)
    (hlast : ∀ y, l.getLast? = some y → next' y = some x)
    (hnext' : ∀ y ∈ l, l.getLast? ≠ some y → next' y = next y) :
    Chain previous' next' (l ++ [x]) := by
  intro a y b hsplit
  rcases concat_split hsplit with ⟨rfl, rfl, rfl⟩ | ⟨c, rfl, rfl⟩
  · exact ⟨hprevious, hnext⟩
  · obtain ⟨hp, hn⟩ := h a y c rfl
    have hmem : y ∈ a ++ y :: c := List.mem_append_right a List.mem_cons_self
    refine ⟨(hprevious' y hmem).trans hp, ?_⟩
    cases c with
    | nil => exact hlast y List.getLast?_concat
    | cons z c =>
      rw [hnext' y hmem (getLast?_ne_of_nodup (List.nodup_append.mp hnodup).1), hn]
      rfl

/-- **A member taken out.** -/
theorem remove (h : Chain previous next (a ++ x :: b)) (hnodup : (a ++ x :: b).Nodup)
    (hfirst : ∀ y, b.head? = some y → previous' y = a.getLast?)
    (hprevious : ∀ y ∈ a ++ b, b.head? ≠ some y → previous' y = previous y)
    (hlast : ∀ y, a.getLast? = some y → next' y = b.head?)
    (hnext : ∀ y ∈ a ++ b, a.getLast? ≠ some y → next' y = next y) :
    Chain previous' next' (a ++ b) := by
  obtain ⟨-, hbehind, hdisjoint⟩ := List.nodup_append.mp hnodup
  intro c y d hsplit
  have hmem : y ∈ a ++ b := hsplit ▸ List.mem_append_right c List.mem_cons_self
  rcases append_split hsplit with ⟨e, rfl, rfl⟩ | ⟨e, rfl, rfl⟩
  · -- `y` stands before the member that is taken out
    obtain ⟨hp, hn⟩ := h c y (e ++ x :: b) (by simp)
    have hbefore : y ∈ c ++ y :: e := List.mem_append_right c List.mem_cons_self
    refine ⟨(hprevious y hmem fun hy ↦ ?_).trans hp, ?_⟩
    · exact hdisjoint y hbefore y (List.mem_cons_of_mem x (List.mem_of_head? hy)) rfl
    · cases e with
      | nil => exact hlast y List.getLast?_concat
      | cons z e =>
        rw [hnext y hmem (getLast?_ne_of_nodup (List.nodup_append.mp hnodup).1), hn]
        rfl
  · -- `y` stands behind the member that is taken out
    obtain ⟨hp, hn⟩ := h (a ++ x :: e) y d (by simp)
    refine ⟨?_, (hnext y hmem fun hy ↦ ?_).trans hn⟩
    · cases e with
      | nil =>
        rw [List.append_nil]
        exact hfirst y rfl
      | cons z e =>
        rw [hprevious y hmem ?_, hp]
        · rw [List.getLast?_append_of_ne_nil a (List.cons_ne_nil x _), List.getLast?_cons_cons,
            List.getLast?_append_of_ne_nil a (List.cons_ne_nil z _)]
        · intro hy
          obtain rfl : z = y := Option.some.inj hy
          exact (List.nodup_cons.mp (List.nodup_cons.mp hbehind).2).1
            (List.mem_append_right e List.mem_cons_self)
    · exact hdisjoint y (List.mem_of_getLast? hy) y
        (List.mem_cons_of_mem x (List.mem_append_right e List.mem_cons_self)) rfl

end Chain

end Rocev2.Lib
