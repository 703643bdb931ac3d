import Mathlib.Data.Multiset.Count

/-!
# Reference counts

A reference count is right when it equals the number of references held.  `Counted refs held`
says so for every key at once; it is kept by taking a reference and by giving one back, and it
makes giving back a held reference always possible.
-/

namespace Rocev2.Lib

variable {κ : Type*} [DecidableEq κ]

def Counted (refs : κ → ℕ) (held : Multiset κ) : Prop := ∀ key, held.count key = refs key

namespace Counted

variable {refs : κ → ℕ} {held : Multiset κ} {key : κ}

theorem pos (h : Counted refs held) (hmem : key ∈ held) : 0 < refs key := by
  rw [← h key]
  exact Multiset.count_pos.mpr hmem

theorem mem (h : Counted refs held) (hpos : 0 < refs key) : key ∈ held := by
  rw [← h key] at hpos
  exact Multiset.count_pos.mp hpos

theorem retain (h : Counted refs held) (key : κ) :
    Counted (Function.update refs key (refs key + 1)) (key ::ₘ held) := by
  intro other
  by_cases heq : other = key
  · subst heq
    rw [Multiset.count_cons_self, Function.update_self, h other]
  · rw [Multiset.count_cons_of_ne heq, Function.update_of_ne heq, h other]

theorem release (h : Counted refs (key ::ₘ held)) :
    Counted (Function.update refs key (refs key - 1)) held := by
  intro other
  by_cases heq : other = key
  · subst heq
    rw [Function.update_self, ← h other, Multiset.count_cons_self, Nat.add_sub_cancel]
  · rw [Function.update_of_ne heq, ← h other, Multiset.count_cons_of_ne heq]

end Counted

end Rocev2.Lib
