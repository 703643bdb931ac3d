import Mathlib.Init

/-!
# Runs of a labelled transition system

`Run step allowed s t` says that `t` is reached from `s` by steps whose labels are all `allowed`.
The rules at the end are how runs are used: an assertion that every allowed step keeps holds after
every run, each entry of a log that grows was added by a step from the state whose log was what
stands before the entry, and what differs at the end was changed by some step.
-/

namespace Rocev2.Lib

universe u v w

variable {σ : Type u} {ε : Type v} {step : σ → ε → σ → Prop} {allowed : ε → Prop}

/-- `t` is reached from `s` by allowed steps. -/
inductive Run (step : σ → ε → σ → Prop) (allowed : ε → Prop) (s : σ) : σ → Prop
  | /-- No step. -/
    refl : Run step allowed s s
  | /-- One more step. -/
    tail {t u : σ} {e : ε} (hrun : Run step allowed s t) (hallowed : allowed e)
      (hstep : step t e u) : Run step allowed s u

namespace Run

variable {s t u : σ} {e : ε}

theorem single (hallowed : allowed e) (hstep : step s e t) : Run step allowed s t :=
  .tail .refl hallowed hstep

theorem trans (h : Run step allowed s t) (h' : Run step allowed t u) : Run step allowed s u := by
  induction h' with
  | refl => exact h
  | tail _ hallowed hstep ih => exact .tail ih hallowed hstep

/-- **The invariant rule.** -/
theorem invariant {I : σ → Prop} (hkeep : ∀ {s t : σ} {e : ε}, allowed e → step s e t → I s → I t)
    (h : Run step allowed s t) (hs : I s) : I t := by
  induction h with
  | refl => exact hs
  | tail _ hallowed hstep ih => exact hkeep hallowed hstep ih

/-- **The log rule**: a log that grows by single entries keeps its beginning, and each later entry
was added by a step from the state whose log was what stands before the entry. -/
theorem log_append {α : Type w} (log : σ → List α) (adds : σ → α → σ → Prop)
    (hgrow : ∀ {s t : σ} {e : ε}, allowed e → step s e t →
      log t = log s ∨ ∃ x, log t = log s ++ [x] ∧ adds s x t)
    (h : Run step allowed s t) : log s <+: log t ∧
      ∀ i x, (log s).length ≤ i → (log t)[i]? = some x → ∃ m m', Run step allowed s m ∧
        log m = (log t).take i ∧ adds m x m' ∧ Run step allowed m' t := by
  induction h with
  | refl =>
    refine ⟨List.prefix_rfl, fun i x hi hx ↦ ?_⟩
    exact absurd (List.getElem?_eq_some_iff.mp hx).1 (Nat.not_lt.mpr hi)
  | @tail t u e hrun hallowed hstep ih =>
    obtain ⟨hgrows, hentries⟩ := ih
    have hold : ∀ i x, (log s).length ≤ i → (log t)[i]? = some x → ∃ m m', Run step allowed s m ∧
        log m = (log t).take i ∧ adds m x m' ∧ Run step allowed m' u := by
      intro i x hi hx
      obtain ⟨m, m', hbefore, hlog, hadds, hafter⟩ := hentries i x hi hx
      exact ⟨m, m', hbefore, hlog, hadds, .tail hafter hallowed hstep⟩
    rcases hgrow hallowed hstep with hsame | ⟨y, hlog, hadds⟩
    · rw [hsame]
      exact ⟨hgrows, hold⟩
    · rw [hlog]
      refine ⟨hgrows.trans (List.prefix_append _ _), fun i x hi hx ↦ ?_⟩
      rcases Nat.lt_or_ge i (log t).length with hlt | hge
      · rw [List.getElem?_append_left hlt] at hx
        rw [List.take_append_of_le_length (Nat.le_of_lt hlt)]
        exact hold i x hi hx
      · rw [List.getElem?_append_right hge, List.getElem?_singleton] at hx
        split at hx
        · rename_i hzero
          cases hx
          obtain rfl : i = (log t).length := by omega
          exact ⟨t, u, hrun, List.take_left.symm, hadds, .refl⟩
        · cases hx

/-- **The change rule.** -/
theorem exists_change {α : Type w} (f : σ → α) (h : Run step allowed s t) (hne : f t ≠ f s) :
    ∃ m e m', Run step allowed s m ∧ allowed e ∧ step m e m' ∧ f m' ≠ f m := by
  induction h with
  | refl => exact absurd rfl hne
  | @tail t u e hrun hallowed hstep ih =>
    by_cases hsame : f t = f s
    · exact ⟨t, e, u, hrun, hallowed, hstep, fun heq ↦ hne (heq.trans hsame)⟩
    · exact ih hsame

end Run

end Rocev2.Lib
