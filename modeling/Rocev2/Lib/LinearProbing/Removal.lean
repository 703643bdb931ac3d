import Rocev2.Lib.LinearProbing

/-!
# Removal from an open-addressed table

A removed key leaves a hole, which may cut off keys behind it.  Two ways of repairing the table are
treated: `shiftOut` moves entries of the cluster behind the hole back into it; `removeReinsert`
takes out every entry of the cluster and inserts it again.

Both loops carry one invariant (`Shifting`), since an entry that is inserted again goes to the hole
exactly if the shift would move it there.  The invariant says that a walk can only be cut off at the
hole, on the way to a key that the loop has not reached.  What keeps an entry from being moved in
front of its home is a seam of the table that the hole has not passed.
-/

namespace Rocev2.Lib.LinearProbing

universe u v

variable {α : Type u} {β : Type v} {n : ℕ}

/-- Go forward with `scan` for at most `fuel` buckets and move every entry whose walk passes the
hole into it; the bucket it leaves is the new hole. -/
def shiftFrom (home : α → Fin n) : ℕ → Fin n → Fin n → Table n α β → Table n α β × Fin n
  | 0, hole, _, table => (table, hole)
  | fuel + 1, hole, scan, table =>
    match table scan with
    | none => (table, hole)
    | some (key, value) =>
      if dist (home key) hole < dist (home key) scan then
        shiftFrom home fuel scan (next scan) (Function.update table hole (some (key, value)))
      else shiftFrom home fuel hole (next scan) table

/-- Clear the bucket `i` after shifting the cluster behind it. -/
def shiftOut (home : α → Fin n) (table : Table n α β) (i : Fin n) : Table n α β :=
  let shifted := shiftFrom home (n - 1) i (next i) table
  Function.update shifted.1 shifted.2 none

/-! ## The invariant -/

/-- The invariant of a removal when the buckets within `t` steps from the removed key are done, over
the table in which the hole is empty: a walk is cut off only at the hole, and only for keys that are
not done. -/
structure Shifting (home : α → Fin n) (start hole : Fin n) (t : ℕ) (table : Table n α β) :
    Prop where
  distinct : Distinct table
  hole_done : dist start hole < t
  hole_none : table hole = none
  cut : ∀ ⦃i key value⦄, table i = some (key, value) →
    ∀ q, dist (home key) q < dist (home key) i → table q = none → q = hole ∧ t ≤ dist start i
  ends : ∃ e, Seam home table e ∧ dist start hole ≤ dist start e

section Shift

variable {table : Table n α β} {key : α} {value : β} {home : α → Fin n} {start hole scan : Fin n}
  {t : ℕ}

theorem WellProbed.shifting (h : WellProbed home table) {e : Fin n} (hseam : Seam home table e) :
    Shifting home start start 1 (Function.update table start none) := by
  have hstart := dist_self start
  refine ⟨h.distinct.clear start, by omega, Function.update_self .., ?_, e, ?_, by omega⟩
  · intro i key value hi q hlt hq
    rcases update_eq_some hi with ⟨-, hnone⟩ | ⟨hne, hi'⟩
    · cases hnone
    refine ⟨?_, dist_pos (Ne.symm hne)⟩
    by_contra hqs
    rw [Function.update_of_ne hqs] at hq
    exact h.reached hi' q hlt hq
  · intro i key value hi
    rcases update_eq_some hi with ⟨-, hnone⟩ | ⟨-, hi'⟩
    · cases hnone
    · exact hseam hi'

namespace Shifting

theorem ne_hole (h : Shifting home start hole t table) (hscan : dist start scan = t) :
    scan ≠ hole := by
  rintro rfl
  have := h.hole_done
  omega

theorem wellProbed (h : Shifting home start hole t table) (ht : n ≤ t) :
    WellProbed home table := by
  refine ⟨h.distinct, fun i key value hi q hlt hq ↦ ?_⟩
  have hle := (h.cut hi q hlt hq).2
  have := dist_lt start i
  omega

/-- An empty bucket that is not done ends the cluster. -/
theorem wellProbed_of_none (h : Shifting home start hole t table) (hscan : dist start scan = t)
    (hnone : table scan = none) : WellProbed home table := by
  refine ⟨h.distinct, fun i key value hi q hlt hq ↦ ?_⟩
  obtain ⟨rfl, hle⟩ := h.cut hi q hlt hq
  have hdone := h.hole_done
  have hne : dist start i ≠ dist start scan := by
    intro heq
    rw [eq_of_dist_eq heq, hnone] at hi
    cases hi
  have hpass : dist (home key) scan < dist (home key) i := by
    refine dist_lt_of_between hlt ?_
    have h₁ := dist_spec q scan
    have h₂ := dist_spec q i
    have h₃ := dist_spec start q
    have h₄ := dist_spec start scan
    have h₅ := dist_spec start i
    have hlt₁ := q.isLt
    have hlt₂ := start.isLt
    omega
  exact h.ne_hole hscan (h.cut hi scan hpass hnone).1

theorem keep (h : Shifting home start hole t table) (hscan : dist start scan = t)
    (hentry : table scan = some (key, value))
    (hstays : ¬dist (home key) hole < dist (home key) scan) :
    Shifting home start hole (t + 1) table := by
  refine ⟨h.distinct, Nat.lt_succ_of_lt h.hole_done, h.hole_none, ?_, h.ends⟩
  intro i key' value' hi q hlt hq
  obtain ⟨rfl, hle⟩ := h.cut hi q hlt hq
  have hne : dist start i ≠ dist start scan := by
    intro heq
    rw [eq_of_dist_eq heq, hentry] at hi
    cases hi
    rw [eq_of_dist_eq heq] at hlt
    exact hstays hlt
  exact ⟨rfl, by omega⟩

theorem le_seam (hmoves : dist (home key) hole < dist (home key) scan)
    (hscan : dist start scan = t) (hdone : dist start hole < t) {e : Fin n}
    (hpass : ¬dist (home key) e < dist (home key) scan) (hle : dist start hole ≤ dist start e) :
    t ≤ dist start e := by
  have h₁ := dist_spec (home key) hole
  have h₂ := dist_spec (home key) scan
  have h₃ := dist_spec (home key) e
  have h₄ := dist_spec start hole
  have h₅ := dist_spec start scan
  have h₆ := dist_spec start e
  have hlt₁ := (home key).isLt
  have hlt₂ := start.isLt
  have hlt₃ := e.isLt
  have hlt₄ := scan.isLt
  omega

theorem move (h : Shifting home start hole t table) (hscan : dist start scan = t)
    (hentry : table scan = some (key, value))
    (hmoves : dist (home key) hole < dist (home key) scan) :
    Shifting home start scan (t + 1)
      (Function.update (Function.update table scan none) hole (some (key, value))) := by
  have hdone := h.hole_done
  have hne := h.ne_hole hscan
  obtain ⟨e, hseam, hle⟩ := h.ends
  have hbehind := le_seam hmoves hscan hdone (hseam hentry) hle
  refine ⟨(h.distinct.clear scan).store (h.distinct.absent_clear hentry) hole value, by omega,
    ?_, ?_, e, ?_, by omega⟩
  · rw [Function.update_of_ne hne, Function.update_self]
  · intro i key' value' hi q hlt hq
    obtain ⟨hqh, hempty⟩ := restore_eq_none hq
    rcases update_eq_some hi with ⟨rfl, heq⟩ | ⟨-, hcleared'⟩
    · -- The moved entry is reached, since it was reached up to the hole.
      cases heq
      rcases hempty with rfl | hnone
      · omega
      · exact absurd (h.cut hentry q (hlt.trans hmoves) hnone).1 hqh
    · rcases update_eq_some hcleared' with ⟨-, hnone⟩ | ⟨his, hi'⟩
      · cases hnone
      have hne' : dist start i ≠ dist start scan := fun heq ↦ his (eq_of_dist_eq heq)
      rcases hempty with rfl | hnone
      · refine ⟨rfl, ?_⟩
        by_contra hdone'
        -- The walk to a key that is done and that passes `q` would pass the seam.
        refine hseam hi' (dist_lt_of_between hlt ?_)
        have h₁ := dist_spec q e
        have h₂ := dist_spec q i
        have h₃ := dist_spec start q
        have h₄ := dist_spec start e
        have h₅ := dist_spec start i
        have hlt₁ := q.isLt
        have hlt₂ := start.isLt
        omega
      · exact absurd (h.cut hi' q hlt hnone).1 hqh
  · intro i key' value' hi hlt
    rcases update_eq_some hi with ⟨rfl, heq⟩ | ⟨-, hcleared'⟩
    · cases heq
      exact hseam hentry (hlt.trans hmoves)
    · rcases update_eq_some hcleared' with ⟨-, hnone⟩ | ⟨-, hi'⟩
      · cases hnone
      · exact hseam hi' hlt

end Shifting

end Shift

/-! ## Removal by shifting -/

section ShiftOut

variable {table : Table n α β} {key : α} {value : β} {home : α → Fin n} {start hole scan : Fin n}
  {t : ℕ}

/-- **The whole shift.** -/
theorem Shifting.run {fuel : ℕ} (h : Shifting home start hole t (Function.update table hole none))
    (hsteps : t + fuel = n) (hscan : t < n → dist start scan = t) :
    WellProbed home (Function.update (shiftFrom home fuel hole scan table).1
      (shiftFrom home fuel hole scan table).2 none) ∧
    ∀ key value, Maps (Function.update (shiftFrom home fuel hole scan table).1
      (shiftFrom home fuel hole scan table).2 none) key value ↔
        Maps (Function.update table hole none) key value := by
  induction fuel generalizing t hole scan table with
  | zero => exact ⟨h.wellProbed (Nat.le_of_eq hsteps.symm), fun _ _ ↦ Iff.rfl⟩
  | succ fuel ih =>
    have hdist := hscan (by omega)
    have hne := h.ne_hole hdist
    have hnext : t + 1 < n → dist start (next scan) = t + 1 := fun hlt ↦ by
      rw [dist_next (by omega), hdist]
    unfold shiftFrom
    split
    · rename_i hnone
      exact ⟨h.wellProbed_of_none hdist ((Function.update_of_ne hne _ _).trans hnone),
        fun _ _ ↦ Iff.rfl⟩
    · rename_i key value hentry
      have hentry' := (Function.update_of_ne hne none table).trans hentry
      split
      · rename_i hmoves
        have hmoved := h.move hdist hentry' hmoves
        rw [Function.update_comm hne, Function.update_idem] at hmoved
        obtain ⟨hprobed, hmaps⟩ := ih hmoved (by omega) hnext
        refine ⟨hprobed, fun key' value' ↦ (hmaps key' value').trans ?_⟩
        rw [← h.distinct.maps_restore hentry'
          ((Function.update_of_ne hne.symm _ _).trans h.hole_none), Function.update_comm hne,
          Function.update_idem]
      · rename_i hstays
        exact ih (h.keep hdist hentry' hstays) (by omega) hnext

/-- **Removal by shifting forgets exactly the key.** -/
theorem WellProbed.shiftOut (h : WellProbed home table) (hseam : ∃ e, Seam home table e)
    (hstart : table start = some (key, value)) :
    WellProbed home (shiftOut home table start) ∧
      (∃ e, Seam home (LinearProbing.shiftOut home table start) e) ∧
      ∀ key' value', Maps (LinearProbing.shiftOut home table start) key' value' ↔
        Maps table key' value' ∧ key' ≠ key := by
  obtain ⟨e, he⟩ := hseam
  have hpos := start.pos
  have hnext : 1 < n → dist start (next start) = 1 := fun hlt ↦ by
    rw [dist_next (by rw [dist_self]; omega), dist_self]
  obtain ⟨hprobed, hmaps⟩ := (h.shifting he).run (by omega : 1 + (n - 1) = n) hnext
  exact ⟨hprobed, ⟨_, hprobed.seam (Function.update_self ..)⟩, fun key' value' ↦
    (hmaps key' value').trans (h.distinct.maps_clear hstart)⟩

end ShiftOut

/-! ## Removal by reinsertion -/

variable [DecidableEq α]

/-- Go forward from the hole for at most `fuel` buckets, taking out every entry and inserting it
again, until an empty bucket ends the cluster. -/
def reinsertFrom (home : α → Fin n) : ℕ → Fin n → Table n α β → Table n α β
  | 0, _, table => table
  | fuel + 1, i, table =>
    match table (next i) with
    | none => table
    | some (key, value) =>
      let cleared := Function.update table (next i) none
      reinsertFrom home fuel (next i)
        (match insert home cleared key value with
          | .ok inserted => inserted
          | .error _ => cleared)

/-- Remove a key and insert the cluster behind it again. -/
def removeReinsert (home : α → Fin n) (table : Table n α β) (key : α) : Table n α β :=
  match find home table key with
  | none => table
  | some i => reinsertFrom home n i (Function.update table i none)

/-- Every insertion of the cluster behind `i` succeeds. -/
def Reinserts (home : α → Fin n) : ℕ → Fin n → Table n α β → Prop
  | 0, _, _ => True
  | fuel + 1, i, table =>
    match table (next i) with
    | none => True
    | some (key, value) =>
      ∃ inserted, insert home (Function.update table (next i) none) key value = .ok inserted ∧
        Reinserts home fuel (next i) inserted

section Reinsertion

variable {table : Table n α β} {key : α} {value : β} {home : α → Fin n} {start hole scan i : Fin n}
  {t : ℕ}

/-- An entry that was taken out is stored in the first empty bucket on its walk. -/
theorem Distinct.insert_restore (h : Distinct table) (hi : table i = some (key, value)) {j : Fin n}
    (hfree : Function.update table i none j = none)
    (hpassed : ∀ q, dist (home key) q < dist (home key) j → Function.update table i none q ≠ none) :
    insert home (Function.update table i none) key value =
      .ok (Function.update (Function.update table i none) j (some (key, value))) := by
  have hinserted := inserted_insert home (Function.update table i none) key value
  generalize insert home (Function.update table i none) key value = outcome at hinserted
  cases hinserted with
  | found hfound => exact absurd hfound (h.absent_clear hi _ _)
  | full hfull =>
    obtain ⟨entry, hsome, -⟩ := hfull i
    rw [Function.update_self] at hsome
    cases hsome
  | @stored j' hfree' hpassed' =>
    rcases Nat.lt_trichotomy (dist (home key) j') (dist (home key) j) with hlt | heq | hgt
    · exact absurd hfree' (hpassed j' hlt)
    · rw [eq_of_dist_eq heq]
    · obtain ⟨entry, hsome, -⟩ := hpassed' j hgt
      rw [hfree] at hsome
      cases hsome

theorem Distinct.insert_back (h : Distinct table) (hi : table i = some (key, value))
    (hreached : ∀ q, dist (home key) q < dist (home key) i → table q ≠ none) :
    insert home (Function.update table i none) key value = .ok table := by
  rw [h.insert_restore hi (Function.update_self ..) fun q hlt ↦ ?_, Function.update_idem, ← hi,
    Function.update_eq_self]
  have hne : q ≠ i := by
    rintro rfl
    exact absurd hlt (Nat.lt_irrefl _)
  rw [Function.update_of_ne hne]
  exact hreached q hlt

namespace Shifting

theorem insert_keep (h : Shifting home start hole t table)
    (hentry : table scan = some (key, value))
    (hstays : ¬dist (home key) hole < dist (home key) scan) :
    insert home (Function.update table scan none) key value = .ok table := by
  refine h.distinct.insert_back hentry fun q hlt hq ↦ ?_
  obtain ⟨rfl, -⟩ := h.cut hentry q hlt hq
  exact hstays hlt

theorem insert_move (h : Shifting home start hole t table) (hscan : dist start scan = t)
    (hentry : table scan = some (key, value))
    (hmoves : dist (home key) hole < dist (home key) scan) :
    insert home (Function.update table scan none) key value =
      .ok (Function.update (Function.update table scan none) hole (some (key, value))) := by
  refine h.distinct.insert_restore hentry
    ((Function.update_of_ne (h.ne_hole hscan).symm _ _).trans h.hole_none) fun q hlt ↦ ?_
  have hne : q ≠ scan := by
    rintro rfl
    omega
  rw [Function.update_of_ne hne]
  intro hq
  obtain ⟨rfl, -⟩ := h.cut hentry q (hlt.trans hmoves) hq
  exact absurd hlt (Nat.lt_irrefl _)

/-- **One reinsertion.** -/
theorem reinsert (h : Shifting home start hole t table) (hscan : dist start scan = t)
    (hentry : table scan = some (key, value)) :
    ∃ table' hole', insert home (Function.update table scan none) key value = .ok table' ∧
      Shifting home start hole' (t + 1) table' ∧
      ∀ key' value', Maps table' key' value' ↔ Maps table key' value' := by
  by_cases hmoves : dist (home key) hole < dist (home key) scan
  · exact ⟨_, scan, h.insert_move hscan hentry hmoves, h.move hscan hentry hmoves, fun _ _ ↦
      h.distinct.maps_restore hentry
        ((Function.update_of_ne (h.ne_hole hscan).symm _ _).trans h.hole_none)⟩
  · exact ⟨table, hole, h.insert_keep hentry hmoves, h.keep hscan hentry hmoves, fun _ _ ↦ Iff.rfl⟩

/-- **The whole reinsertion.**  The last of the `n` iterations is back at the removed key, when
every other bucket is done. -/
theorem reinsert_run {fuel : ℕ} (h : Shifting home start hole t table) (ht : t ≤ n)
    (hsteps : t + fuel = n + 1) (hi : dist start i + 1 = t) :
    Reinserts home fuel i table ∧ WellProbed home (reinsertFrom home fuel i table) ∧
      (∃ e, reinsertFrom home fuel i table e = none) ∧
      ∀ key value, Maps (reinsertFrom home fuel i table) key value ↔ Maps table key value := by
  induction fuel generalizing t i hole table with
  | zero => omega
  | succ fuel ih =>
    unfold reinsertFrom Reinserts
    rcases Nat.lt_or_eq_of_le ht with hlt | rfl
    · have hnext : dist start (next i) = t := by rw [dist_next (by omega), hi]
      cases hentry : table (next i) with
      | none =>
        exact ⟨trivial, h.wellProbed_of_none hnext hentry, ⟨hole, h.hole_none⟩, fun _ _ ↦ Iff.rfl⟩
      | some entry =>
        obtain ⟨table', hole', hinsert, h', hmaps⟩ := h.reinsert hnext hentry
        obtain ⟨hall, hprobed, hnone, hmaps'⟩ := ih h' hlt (by omega) (congrArg (· + 1) hnext)
        dsimp only
        rw [hinsert]
        exact ⟨⟨table', rfl, hall⟩, hprobed, hnone, fun key value ↦
          (hmaps' key value).trans (hmaps key value)⟩
    · obtain rfl : fuel = 0 := by omega
      have hprobed := h.wellProbed (Nat.le_refl t)
      cases hentry : table (next i) with
      | none => exact ⟨trivial, hprobed, ⟨hole, h.hole_none⟩, fun _ _ ↦ Iff.rfl⟩
      | some entry =>
        dsimp only
        rw [hprobed.distinct.insert_back hentry (hprobed.reached hentry)]
        exact ⟨⟨table, rfl, trivial⟩, hprobed, ⟨hole, h.hole_none⟩, fun _ _ ↦ Iff.rfl⟩

end Shifting

theorem WellProbed.reinserts (h : WellProbed home table) (hseam : ∃ e, Seam home table e)
    (start : Fin n) : Reinserts home n start (Function.update table start none) := by
  obtain ⟨e, he⟩ := hseam
  exact ((h.shifting he).reinsert_run start.pos (Nat.add_comm 1 n)
    (congrArg (· + 1) (dist_self start))).1

/-- **Removal by reinsertion forgets exactly the key.** -/
theorem WellProbed.removeReinsert (h : WellProbed home table) (hseam : ∃ e, Seam home table e)
    (key : α) : WellProbed home (removeReinsert home table key) ∧
      (∃ e, Seam home (LinearProbing.removeReinsert home table key) e) ∧
      ∀ key' value', Maps (LinearProbing.removeReinsert home table key) key' value' ↔
        Maps table key' value' ∧ key' ≠ key := by
  unfold LinearProbing.removeReinsert
  split
  · rename_i hfind
    refine ⟨h, hseam, fun key' value' ↦ ⟨fun hmaps ↦ ⟨hmaps, ?_⟩, And.left⟩⟩
    rintro rfl
    obtain ⟨i, hi⟩ := hmaps
    rw [h.find_eq_some.mpr ⟨_, hi⟩] at hfind
    cases hfind
  · rename_i start hfind
    obtain ⟨value, hstart⟩ := h.find_eq_some.mp hfind
    obtain ⟨e, he⟩ := hseam
    obtain ⟨-, hprobed, ⟨e', hnone⟩, hmaps⟩ := (h.shifting he).reinsert_run start.pos
      (Nat.add_comm 1 n) (congrArg (· + 1) (dist_self start))
    exact ⟨hprobed, ⟨e', hprobed.seam hnone⟩,
      fun key' value' ↦ (hmaps key' value').trans (h.distinct.maps_clear hstart)⟩

end Reinsertion

end Rocev2.Lib.LinearProbing
