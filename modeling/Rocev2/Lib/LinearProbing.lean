import Mathlib.Data.Fintype.Card

/-!
# Open addressing with linear probing

A table of `n` buckets maps keys to values.  A key is stored in the first bucket that was free when
it was inserted, going forward from its *home* bucket, and it is looked up by walking forward from
there until it or an empty bucket is found.

The invariant (`WellProbed`) is that no two buckets hold the same key and that no bucket between the
home of a stored key and the key itself is empty.  Under it a lookup finds exactly the keys that are
stored, and insertion keeps it.

A bucket that no walk to a stored key passes is a *seam* of the table (`Seam`).  Every empty bucket
is one, and so is the bucket that was filled last: a full table that was filled by insertions has a
seam, which is all that removal needs.
-/

namespace Rocev2.Lib.LinearProbing

universe u v

variable {α : Type u} {β : Type v} {n : ℕ} {home : α → Fin n}

/-! ## Buckets -/

/-- The bucket behind a bucket. -/
def next (i : Fin n) : Fin n := ⟨(i.val + 1) % n, Nat.mod_lt _ i.pos⟩

/-- The number of steps from a bucket forward to another one. -/
def dist (i j : Fin n) : ℕ := if i.val ≤ j.val then j.val - i.val else n - i.val + j.val

section Buckets

variable {i j k : Fin n}

theorem dist_spec (i j : Fin n) :
    i.val ≤ j.val ∧ i.val + dist i j = j.val ∨ j.val < i.val ∧ i.val + dist i j = n + j.val := by
  have hi := i.isLt
  unfold dist
  split <;> omega

@[simp]
theorem dist_self (i : Fin n) : dist i i = 0 := by simp [dist]

theorem dist_lt (i j : Fin n) : dist i j < n := by
  have := dist_spec i j
  omega

theorem eq_of_dist_eq (h : dist i j = dist i k) : j = k := by
  have hj := dist_spec i j
  have hk := dist_spec i k
  have hlt := j.isLt
  have hlt' := k.isLt
  refine Fin.ext ?_
  omega

theorem next_val (i : Fin n) : i.val + 1 < n ∧ (next i).val = i.val + 1 ∨
    i.val + 1 = n ∧ (next i).val = 0 := by
  have hi := i.isLt
  rcases Nat.lt_or_eq_of_le (Nat.succ_le_of_lt hi) with hlt | heq
  · exact .inl ⟨hlt, Nat.mod_eq_of_lt hlt⟩
  · refine .inr ⟨heq, ?_⟩
    change (i.val + 1) % n = 0
    rw [show i.val + 1 = n from heq, Nat.mod_self]

theorem dist_pos (h : i ≠ j) : 0 < dist i j := by
  refine Nat.pos_of_ne_zero fun hzero ↦ h (eq_of_dist_eq (i := i) ?_)
  rw [dist_self, hzero]

theorem dist_next (h : dist i j + 1 < n) : dist i (next j) = dist i j + 1 := by
  have hj := dist_spec i j
  have hn := dist_spec i (next j)
  have hnext := next_val j
  have hlt := i.isLt
  omega

theorem forall_dist_lt_succ {P : Fin n → Prop} {m : ℕ} (hpassed : ∀ q, dist i q < m → P q)
    (hj : dist i j = m) (h : P j) : ∀ q, dist i q < m + 1 → P q := by
  intro q hq
  rcases Nat.lt_or_eq_of_le (Nat.le_of_lt_succ hq) with hlt | heq
  · exact hpassed q hlt
  · rw [eq_of_dist_eq (heq.trans hj.symm)]
    exact h

theorem dist_lt_of_between {l : Fin n} (hpass : dist l j < dist l k)
    (hbetween : dist j i < dist j k) : dist l i < dist l k := by
  have h₁ := dist_spec l j
  have h₂ := dist_spec l k
  have h₃ := dist_spec j i
  have h₄ := dist_spec j k
  have h₅ := dist_spec l i
  have hi := i.isLt
  have hj := j.isLt
  have hk := k.isLt
  have hl := l.isLt
  omega

end Buckets

/-! ## Tables -/

abbrev Table (n : ℕ) (α : Type u) (β : Type v) := Fin n → Option (α × β)

def empty : Table n α β := fun _ ↦ none

/-- The table holds a mapping. -/
def Maps (table : Table n α β) (key : α) (value : β) : Prop := ∃ i, table i = some (key, value)

/-- No two buckets hold the same key. -/
def Distinct (table : Table n α β) : Prop :=
  ∀ ⦃i j key value value'⦄, table i = some (key, value) → table j = some (key, value') → i = j

/-- The bucket of a stored key can be reached from its home. -/
structure WellProbed (home : α → Fin n) (table : Table n α β) : Prop where
  distinct : Distinct table
  reached : ∀ ⦃i key value⦄, table i = some (key, value) →
    ∀ q, dist (home key) q < dist (home key) i → table q ≠ none

/-- No walk to a stored key passes the bucket. -/
def Seam (home : α → Fin n) (table : Table n α β) (e : Fin n) : Prop :=
  ∀ ⦃i key value⦄, table i = some (key, value) → ¬dist (home key) e < dist (home key) i

/-- The bucket holds another key. -/
def Other (table : Table n α β) (key : α) (i : Fin n) : Prop :=
  ∃ entry, table i = some entry ∧ entry.1 ≠ key

section Updates

variable {table : Table n α β} {i : Fin n} {key key' : α} {value value' : β}

theorem Distinct.maps_unique (h : Distinct table) (hmaps : Maps table key value)
    (hmaps' : Maps table key value') : value = value' := by
  obtain ⟨i, hi⟩ := hmaps
  obtain ⟨j, hj⟩ := hmaps'
  obtain rfl := h hi hj
  rw [hi] at hj
  cases hj
  rfl

theorem update_eq_some {entry : Option (α × β)} {j : Fin n}
    (h : Function.update table i entry j = some (key, value)) :
    j = i ∧ entry = some (key, value) ∨ j ≠ i ∧ table j = some (key, value) := by
  by_cases hji : j = i
  · subst hji
    rw [Function.update_self] at h
    exact .inl ⟨rfl, h⟩
  · rw [Function.update_of_ne hji] at h
    exact .inr ⟨hji, h⟩

theorem Distinct.clear (h : Distinct table) (i : Fin n) :
    Distinct (Function.update table i none) := by
  intro j k key value value' hj hk
  rcases update_eq_some hj with ⟨-, hnone⟩ | ⟨-, hj⟩
  · cases hnone
  rcases update_eq_some hk with ⟨-, hnone⟩ | ⟨-, hk⟩
  · cases hnone
  exact h hj hk

theorem Distinct.maps_clear (h : Distinct table) (hi : table i = some (key, value)) :
    Maps (Function.update table i none) key' value' ↔ Maps table key' value' ∧ key' ≠ key := by
  constructor
  · rintro ⟨j, hj⟩
    rcases update_eq_some hj with ⟨-, hnone⟩ | ⟨hne, hj⟩
    · cases hnone
    · refine ⟨⟨j, hj⟩, ?_⟩
      rintro rfl
      exact hne (h hj hi)
  · rintro ⟨⟨j, hj⟩, hne⟩
    refine ⟨j, (Function.update_of_ne ?_ _ _).trans hj⟩
    rintro rfl
    rw [hi] at hj
    cases hj
    exact hne rfl

theorem Distinct.store (h : Distinct table) (hnew : ∀ j value, table j ≠ some (key, value))
    (i : Fin n) (value : β) : Distinct (Function.update table i (some (key, value))) := by
  intro j k key' v w hj hk
  rcases update_eq_some hj with ⟨rfl, heq⟩ | ⟨-, hj'⟩
  · cases heq
    rcases update_eq_some hk with ⟨rfl, -⟩ | ⟨-, hk'⟩
    · rfl
    · exact absurd hk' (hnew k w)
  · rcases update_eq_some hk with ⟨rfl, heq⟩ | ⟨-, hk'⟩
    · cases heq
      exact absurd hj' (hnew j v)
    · exact h hj' hk'

theorem maps_store (hi : table i = none) :
    Maps (Function.update table i (some (key, value))) key' value' ↔
      Maps table key' value' ∨ key' = key ∧ value' = value := by
  constructor
  · rintro ⟨j, hj⟩
    rcases update_eq_some hj with ⟨-, heq⟩ | ⟨-, hj⟩
    · cases heq
      exact .inr ⟨rfl, rfl⟩
    · exact .inl ⟨j, hj⟩
  · rintro (⟨j, hj⟩ | ⟨rfl, rfl⟩)
    · refine ⟨j, (Function.update_of_ne ?_ _ _).trans hj⟩
      rintro rfl
      rw [hi] at hj
      cases hj
    · exact ⟨i, Function.update_self ..⟩

theorem Distinct.absent_clear (h : Distinct table) (hi : table i = some (key, value)) (j : Fin n)
    (value' : β) : Function.update table i none j ≠ some (key, value') := by
  intro hj
  rcases update_eq_some hj with ⟨-, hnone⟩ | ⟨hne, hj'⟩
  · cases hnone
  · exact hne (h hj' hi)

theorem restore_eq_none {entry : α × β} {j q : Fin n}
    (h : Function.update (Function.update table i none) j (some entry) q = none) :
    q ≠ j ∧ (q = i ∨ table q = none) := by
  have hqj : q ≠ j := by
    rintro rfl
    rw [Function.update_self] at h
    cases h
  rw [Function.update_of_ne hqj] at h
  by_cases hqi : q = i
  · exact ⟨hqj, .inl hqi⟩
  · rw [Function.update_of_ne hqi] at h
    exact ⟨hqj, .inr h⟩

theorem Distinct.maps_restore (h : Distinct table) (hi : table i = some (key, value)) {j : Fin n}
    (hfree : Function.update table i none j = none) :
    Maps (Function.update (Function.update table i none) j (some (key, value))) key' value' ↔
      Maps table key' value' := by
  rw [maps_store hfree, h.maps_clear hi]
  constructor
  · rintro (⟨hmaps, -⟩ | ⟨rfl, rfl⟩)
    · exact hmaps
    · exact ⟨i, hi⟩
  · intro hmaps
    by_cases hkey : key' = key
    · subst hkey
      exact .inr ⟨rfl, h.maps_unique hmaps ⟨i, hi⟩⟩
    · exact .inl ⟨hmaps, hkey⟩

end Updates

variable {table : Table n α β}

theorem WellProbed.absent {key : α} (h : WellProbed home table) {j : Fin n} (hfree : table j = none)
    (hpassed : ∀ q, dist (home key) q < dist (home key) j → Other table key q) :
    ∀ i value, table i ≠ some (key, value) := by
  intro i value hi
  rcases Nat.lt_trichotomy (dist (home key) i) (dist (home key) j) with hlt | heq | hgt
  · obtain ⟨entry, hentry, hne⟩ := hpassed i hlt
    rw [hi] at hentry
    cases hentry
    exact hne rfl
  · rw [eq_of_dist_eq heq, hfree] at hi
    cases hi
  · exact h.reached hi j hgt hfree

theorem wellProbed_empty (home : α → Fin n) : WellProbed home (empty : Table n α β) :=
  ⟨nofun, nofun⟩

theorem WellProbed.seam (h : WellProbed home table) {e : Fin n} (he : table e = none) :
    Seam home table e :=
  fun _ _ _ hi hlt ↦ h.reached hi e hlt he

theorem WellProbed.seam_store (h : WellProbed home table) {j : Fin n} (hfree : table j = none)
    (entry : α × β) :
    Seam home (Function.update table j (some entry)) j := by
  intro i key value hi hlt
  rcases update_eq_some hi with ⟨rfl, -⟩ | ⟨-, hi'⟩
  · exact absurd hlt (Nat.lt_irrefl _)
  · exact h.seam hfree hi' hlt

theorem exists_none {γ : Type*} [Fintype γ] (label : α × β → γ)
    (hlabel : ∀ i j entry entry', table i = some entry → table j = some entry' →
      label entry = label entry' → i = j) (hcard : Fintype.card γ < n) : ∃ e, table e = none := by
  by_contra hfull
  have hsome : ∀ i, ∃ entry, table i = some entry := fun i ↦
    Option.ne_none_iff_exists'.mp fun hnone ↦ hfull ⟨i, hnone⟩
  choose entry hentry using hsome
  have hinjective : Function.Injective fun i ↦ label (entry i) := fun i j heq ↦
    hlabel i j _ _ (hentry i) (hentry j) heq
  have hle := Fintype.card_le_of_injective _ hinjective
  rw [Fintype.card_fin] at hle
  exact Nat.not_lt_of_le hle hcard

/-! ## Lookup -/

variable [DecidableEq α]

/-- Walk forward for at most `fuel` buckets in search of a key. -/
def findFrom (table : Table n α β) (key : α) : ℕ → Fin n → Option (Fin n)
  | 0, _ => none
  | fuel + 1, i =>
    match table i with
    | none => none
    | some entry => if entry.1 = key then some i else findFrom table key fuel (next i)

def find (home : α → Fin n) (table : Table n α β) (key : α) : Option (Fin n) :=
  findFrom table key n (home key)

section Lookup

variable {table : Table n α β} {key : α} {value : β} {home : α → Fin n}

theorem exists_of_findFrom {fuel : ℕ} {i j : Fin n} (h : findFrom table key fuel i = some j) :
    ∃ value, table j = some (key, value) := by
  induction fuel generalizing i with
  | zero => cases h
  | succ fuel ih =>
    unfold findFrom at h
    split at h
    · cases h
    · rename_i entry hentry
      split at h
      · rename_i hkey
        cases h
        subst hkey
        exact ⟨entry.2, hentry⟩
      · exact ih h

/-- If nothing is found, every bucket of the key lies behind an empty one. -/
theorem findFrom_eq_none {start i : Fin n} {m fuel : ℕ} (hsteps : m + fuel = n)
    (hi : m < n → dist start i = m) (hpassed : ∀ q, dist start q < m → Other table key q)
    (h : findFrom table key fuel i = none) {j : Fin n} (hj : table j = some (key, value)) :
    ∃ q, dist start q < dist start j ∧ table q = none := by
  have hother : ¬Other table key j := by
    rintro ⟨entry, hentry, hne⟩
    rw [hj] at hentry
    cases hentry
    exact hne rfl
  induction fuel generalizing m i with
  | zero => exact absurd (hpassed j (by have := dist_lt start j; omega)) hother
  | succ fuel ih =>
    have hdist := hi (by omega)
    unfold findFrom at h
    split at h
    · rename_i hnone
      refine ⟨i, ?_, hnone⟩
      by_contra hle
      rcases Nat.lt_or_eq_of_le (Nat.le_of_not_lt hle) with hlt | heq
      · exact hother (hpassed j (by omega))
      · rw [eq_of_dist_eq heq, hnone] at hj
        cases hj
    · rename_i entry hentry
      split at h
      · cases h
      · rename_i hne
        refine ih (by omega : m + 1 + fuel = n) (fun hlt ↦ ?_)
          (forall_dist_lt_succ hpassed hdist ⟨entry, hentry, hne⟩) h
        rw [dist_next (by omega), hdist]

theorem find_eq_none (h : find home table key = none) {j : Fin n}
    (hj : table j = some (key, value)) :
    ∃ q, dist (home key) q < dist (home key) j ∧ table q = none :=
  findFrom_eq_none (Nat.zero_add n) (fun _ ↦ dist_self _)
    (fun _ hlt ↦ absurd hlt (Nat.not_lt_zero _)) h hj

/-- **A lookup finds the bucket of a key.** -/
theorem WellProbed.find_eq_some (h : WellProbed home table) {i : Fin n} :
    find home table key = some i ↔ ∃ value, table i = some (key, value) := by
  constructor
  · exact exists_of_findFrom
  · rintro ⟨value, hi⟩
    cases hfind : find home table key with
    | none =>
      obtain ⟨q, hlt, hnone⟩ := find_eq_none hfind hi
      exact absurd hnone (h.reached hi q hlt)
    | some j =>
      obtain ⟨value', hj⟩ := exists_of_findFrom hfind
      rw [h.distinct hi hj]

end Lookup

/-! ## Insertion -/

/-- Why a key is not inserted. -/
inductive InsertError where
  /-- The key is present. -/
  | duplicate
  /-- No bucket is empty. -/
  | full
deriving DecidableEq, Repr

/-- Walk forward for at most `fuel` buckets and store a key in the first empty one. -/
def insertFrom (table : Table n α β) (key : α) (value : β) :
    ℕ → Fin n → Except InsertError (Table n α β)
  | 0, _ => .error .full
  | fuel + 1, i =>
    match table i with
    | none => .ok (Function.update table i (some (key, value)))
    | some entry =>
      if entry.1 = key then .error .duplicate else insertFrom table key value fuel (next i)

def insert (home : α → Fin n) (table : Table n α β) (key : α) (value : β) :
    Except InsertError (Table n α β) :=
  insertFrom table key value n (home key)

section Insertion

variable {table table' : Table n α β} {key : α} {value : β} {home : α → Fin n}

/-- Every outcome of an insertion. -/
inductive Inserted (start : Fin n) (table : Table n α β) (key : α) (value : β) :
    Except InsertError (Table n α β) → Prop
  /-- The key is stored in the first empty bucket. -/
  | stored {j} (hfree : table j = none)
      (hpassed : ∀ q, dist start q < dist start j → Other table key q) :
      Inserted start table key value (.ok (Function.update table j (some (key, value))))
  /-- The key is found. -/
  | found {j value'} (hj : table j = some (key, value')) :
      Inserted start table key value (.error .duplicate)
  /-- No bucket is empty. -/
  | full (hpassed : ∀ q, Other table key q) : Inserted start table key value (.error .full)

theorem inserted_insertFrom {start i : Fin n} {m fuel : ℕ} (hsteps : m + fuel = n)
    (hi : m < n → dist start i = m) (hpassed : ∀ q, dist start q < m → Other table key q) :
    Inserted start table key value (insertFrom table key value fuel i) := by
  induction fuel generalizing m i with
  | zero => exact .full fun q ↦ hpassed q (by have := dist_lt start q; omega)
  | succ fuel ih =>
    have hdist := hi (by omega)
    unfold insertFrom
    split
    · rename_i hnone
      exact .stored hnone (by rw [hdist]; exact hpassed)
    · rename_i entry hentry
      split
      · rename_i hkey
        subst hkey
        exact .found hentry
      · rename_i hne
        refine ih (by omega : m + 1 + fuel = n) (fun hlt ↦ ?_)
          (forall_dist_lt_succ hpassed hdist ⟨entry, hentry, hne⟩)
        rw [dist_next (by omega), hdist]

theorem inserted_insert (home : α → Fin n) (table : Table n α β) (key : α) (value : β) :
    Inserted (home key) table key value (insert home table key value) :=
  inserted_insertFrom (Nat.zero_add n) (fun _ ↦ dist_self _)
    fun _ hlt ↦ absurd hlt (Nat.not_lt_zero _)

/-- **A successful insertion adds the mapping of a new key.** -/
theorem WellProbed.insert_ok (h : WellProbed home table)
    (hinsert : insert home table key value = .ok table') :
    WellProbed home table' ∧ (∃ e, Seam home table' e) ∧ (∀ value, ¬Maps table key value) ∧
      ∀ key' value',
        Maps table' key' value' ↔ Maps table key' value' ∨ key' = key ∧ value' = value := by
  have hinserted := inserted_insert home table key value
  rw [hinsert] at hinserted
  cases hinserted with
  | @stored j hfree hpassed =>
    have habsent := h.absent hfree hpassed
    refine ⟨⟨h.distinct.store habsent j value, ?_⟩, ⟨j, h.seam_store hfree _⟩, ?_,
      fun _ _ ↦ maps_store hfree⟩
    · intro i key' value' hi q hlt hq
      by_cases hqj : q = j
      · rw [hqj, Function.update_self] at hq
        cases hq
      rw [Function.update_of_ne hqj] at hq
      rcases update_eq_some hi with ⟨rfl, heq⟩ | ⟨-, hi⟩
      · cases heq
        obtain ⟨entry, hentry, -⟩ := hpassed q hlt
        rw [hq] at hentry
        cases hentry
      · exact h.reached hi q hlt hq
    · rintro value' ⟨i, hi⟩
      exact habsent i value' hi

theorem WellProbed.insert_error {e : InsertError} (hroom : ∃ i, table i = none)
    (hinsert : insert home table key value = .error e) :
    e = .duplicate ∧ ∃ value, Maps table key value := by
  have hinserted := inserted_insert home table key value
  rw [hinsert] at hinserted
  cases hinserted with
  | found hj => exact ⟨rfl, _, _, hj⟩
  | full hpassed =>
    obtain ⟨i, hi⟩ := hroom
    obtain ⟨entry, hentry, -⟩ := hpassed i
    rw [hi] at hentry
    cases hentry

end Insertion

end Rocev2.Lib.LinearProbing
