import Mathlib.Init

/-!
# Objects that answer calls

An object is a state together with a function that answers a call and moves to the next state.
`answers call s calls` are the replies to a sequence of calls and the state behind the last one.

One object *refines* another one if a relation between their states is kept by every call, with the
same reply on both sides; then it is kept by every sequence of calls, with the same replies
(`answers_refine`).
-/

namespace Rocev2.Lib

universe u v w x

variable {σ : Type u} {τ : Type v} {κ : Type w} {ρ : Type x}

/-- The replies to a sequence of calls and the last state. -/
def answers (call : σ → κ → ρ × σ) : σ → List κ → List ρ × σ
  | s, [] => ([], s)
  | s, next :: calls =>
    let answer := call s next
    let rest := answers call answer.2 calls
    (answer.1 :: rest.1, rest.2)

/-- **The refinement rule.** -/
theorem answers_refine {call : σ → κ → ρ × σ} {call' : τ → κ → ρ × τ} {R : σ → τ → Prop}
    (hstep : ∀ s t next, R s t →
      (call s next).1 = (call' t next).1 ∧ R (call s next).2 (call' t next).2)
    {s : σ} {t : τ} (h : R s t) (calls : List κ) :
    (answers call s calls).1 = (answers call' t calls).1 ∧
      R (answers call s calls).2 (answers call' t calls).2 := by
  induction calls generalizing s t with
  | nil => exact ⟨rfl, h⟩
  | cons next calls ih =>
    obtain ⟨hreply, h'⟩ := hstep s t next h
    obtain ⟨hreplies, hlast⟩ := ih h'
    refine ⟨?_, hlast⟩
    change _ :: _ = _ :: _
    rw [hreply, hreplies]

end Rocev2.Lib
