import Mathlib.Data.Nat.Notation

/-!
# Loops

A loop is given by its body: `Sum.inl` is a returned value, `Sum.inr` the state in which the next
iteration starts.  `Returns body s r` says that the loop that starts in `s` returns `r`, and
`Visits body s t` that an iteration of it starts in `t`.

A function with fuel that unrolls the loop computes its value, and the loop ends, as soon as a
measure that every iteration decreases is bounded by the fuel: `Terminates.of_fuel`.
-/

namespace Rocev2.Lib.Loop

universe u v

variable {σ : Type u} {ρ : Type v}

/-- The loop that starts in `s` returns `r`. -/
inductive Returns (body : σ → ρ ⊕ σ) : σ → ρ → Prop
  | /-- The body returns. -/
    here {s : σ} {r : ρ} (h : body s = .inl r) : Returns body s r
  | /-- The body asks for another iteration. -/
    later {s t : σ} {r : ρ} (h : body s = .inr t) (hrest : Returns body t r) : Returns body s r

/-- The loop that starts in `s` has an iteration that starts in `t`. -/
inductive Visits (body : σ → ρ ⊕ σ) (s : σ) : σ → Prop
  | /-- The first iteration. -/
    start : Visits body s s
  | /-- The iteration after another one. -/
    next {t u : σ} (hvisits : Visits body s t) (h : body t = .inr u) : Visits body s u

/-- **The loop ends with `r`, and every iteration on the way that does not return decreases the
measure.** -/
structure Terminates (body : σ → ρ ⊕ σ) (measure : σ → ℕ) (s : σ) (r : ρ) : Prop where
  decreases : ∀ t u, Visits body s t → body t = .inr u → measure u < measure t
  returns : Returns body s r

variable {body : σ → ρ ⊕ σ}

theorem Visits.invariant {I : σ → Prop} (hkeep : ∀ s t, I s → body s = .inr t → I t) {s t : σ}
    (h : Visits body s t) (hs : I s) : I t := by
  induction h with
  | start => exact hs
  | next _ hbody ih => exact hkeep _ _ ih hbody

/-- **The fuel rule.**  A function that unrolls the loop is its value when the fuel covers a measure
that every iteration decreases, and the body returns where the measure is zero. -/
theorem Terminates.of_fuel (loop : ℕ → σ → ρ) (I : σ → Prop) {measure : σ → ℕ}
    (hzero : ∀ s, I s → measure s = 0 → body s = .inl (loop 0 s))
    (hsucc : ∀ fuel s, loop (fuel + 1) s = (body s).elim id (loop fuel))
    (hkeep : ∀ s t, I s → body s = .inr t → I t ∧ measure t < measure s)
    {s : σ} (hs : I s) {fuel : ℕ} (hfuel : measure s ≤ fuel) :
    Terminates body measure s (loop fuel s) := by
  have hinvariant : ∀ t, Visits body s t → I t := fun t hvisits ↦
    hvisits.invariant (fun s t hs hbody ↦ (hkeep s t hs hbody).1) hs
  refine ⟨fun t u hvisits hbody ↦ (hkeep t u (hinvariant t hvisits) hbody).2, ?_⟩
  clear hinvariant
  induction fuel generalizing s with
  | zero => exact .here (hzero s hs (Nat.eq_zero_of_le_zero hfuel))
  | succ fuel ih =>
    rw [hsucc]
    cases hbody : body s with
    | inl r => exact .here hbody
    | inr t =>
      obtain ⟨ht, hless⟩ := hkeep s t hs hbody
      exact .later hbody (ih ht (Nat.le_of_lt_succ (Nat.lt_of_lt_of_le hless hfuel)))

end Rocev2.Lib.Loop
