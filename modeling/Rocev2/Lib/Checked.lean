import Rocev2.Lib.Layout

/-!
# Slice accesses that can panic

A second reading of code that works on slices: every index, every range and every sum, difference
and product of machine words is checked, and a violation stops the computation as a panic, which is
kept apart from the errors the code returns.  A function whose checked reading is the lifting of a
function into `Except` never panics (`lift_ne_panic`).
-/

namespace Rocev2.Lib

open Bytes

universe u

/-- Why a computation ends without a result: it returns an error, or it panics. -/
inductive Stop (ε : Type*) where
  | failed (error : ε)
  | panicked
deriving DecidableEq, Repr

/-- Computations that may panic. -/
abbrev Checked (ε : Type*) := Except (Stop ε)

namespace Checked

variable {ε : Type*} {α β : Type u}

/-- A computation that does not access slices. -/
def lift (x : Except ε α) : Checked ε α := x.mapError .failed

def fail (error : ε) : Checked ε α := .error (.failed error)

@[simp]
theorem lift_ok (a : α) : lift (.ok a : Except ε α) = .ok a := rfl

@[simp]
theorem lift_error (error : ε) : lift (.error error : Except ε α) = fail error := rfl

theorem lift_ne_panic (x : Except ε α) : lift x ≠ .error .panicked := by
  cases x with
  | error error => exact fun h ↦ by cases h
  | ok a => exact fun h ↦ by cases h

theorem lift_eq_ok {x : Except ε α} {a : α} : lift x = .ok a ↔ x = .ok a := by
  cases x with
  | error error => exact ⟨fun h ↦ (by cases h), fun h ↦ (by cases h)⟩
  | ok b => rw [lift_ok, Except.ok.injEq, Except.ok.injEq]

theorem lift_bind (x : Except ε α) (f : α → Except ε β) :
    lift (x >>= f) = lift x >>= fun a ↦ lift (f a) := by
  cases x <;> rfl

theorem lift_ite {p : Prop} [Decidable p] (x y : Except ε α) :
    lift (if p then x else y) = if p then lift x else lift y := by
  split <;> rfl

theorem ok_bind (a : α) (f : α → Checked ε β) : (Except.ok a : Checked ε α) >>= f = f a := rfl

def convert {δ : Type*} (f : ε → δ) (x : Checked ε α) : Checked δ α :=
  x.mapError fun
    | .failed error => .failed (f error)
    | .panicked => .panicked

theorem convert_lift {δ : Type*} (f : ε → δ) (x : Except ε α) :
    convert f (lift x) = lift (x.mapError f) := by
  cases x <;> rfl

/-! ## Accesses -/

def index (buffer : List α) (i : ℕ) : Checked ε α := buffer[i]?.elim (.error .panicked) .ok

def window (buffer : List α) (start stop : ℕ) : Checked ε (List α) :=
  if start ≤ stop ∧ stop ≤ buffer.length then .ok (slice buffer start stop) else .error .panicked

/-- `buffer[i]` at `n` consecutive indices. -/
def octets (buffer : List α) (start : ℕ) : ℕ → Checked ε (List α)
  | 0 => .ok []
  | n + 1 => do
    let a ← index buffer start
    let rest ← octets buffer (start + 1) n
    .ok (a :: rest)

def store (buffer : List α) (i : ℕ) (a : α) : Checked ε (List α) :=
  if i < buffer.length then .ok (buffer.set i a) else .error .panicked

def copy (buffer : List α) (start stop : ℕ) (source : List α) : Checked ε (List α) :=
  if start ≤ stop ∧ stop ≤ buffer.length ∧ source.length = stop - start then
    .ok (splice buffer start source)
  else .error .panicked

/-- A subtraction of lengths. -/
def sub (a b : ℕ) : Checked ε ℕ := if b ≤ a then .ok (a - b) else .error .panicked

/-- A sum of words of `w` bits. -/
def add (w a b : ℕ) : Checked ε ℕ := if a + b < 2 ^ w then .ok (a + b) else .error .panicked

/-- A product of words of `w` bits. -/
def mul (w a b : ℕ) : Checked ε ℕ := if a * b < 2 ^ w then .ok (a * b) else .error .panicked

section Accesses

variable {buffer : List α} {start : ℕ}

theorem window_eq {stop : ℕ} (hle : start ≤ stop) (hstop : stop ≤ buffer.length) :
    (window buffer start stop : Checked ε _) = .ok (slice buffer start stop) :=
  if_pos ⟨hle, hstop⟩

theorem octets_eq {n : ℕ} (h : start + n ≤ buffer.length) :
    (octets buffer start n : Checked ε _) = .ok (slice buffer start (start + n)) := by
  induction n generalizing start with
  | zero => simp [octets, slice]
  | succ n ih =>
    have hlt : start < buffer.length := by omega
    have hslice : slice buffer start (start + (n + 1)) =
        buffer[start] :: slice buffer (start + 1) (start + 1 + n) := by
      rw [slice_eq_cons hlt (by omega), Nat.add_right_comm start 1 n, Nat.add_assoc start n 1]
    rw [octets, index, List.getElem?_eq_getElem hlt, ih (by omega), hslice]
    rfl

theorem store_eq (ε : Type*) {i size : ℕ} (a : α) (hbuffer : buffer.length = size) (hi : i < size) :
    (store buffer i a : Checked ε _) = .ok (buffer.set i a) ∧ (buffer.set i a).length = size :=
  ⟨if_pos (hi.trans_eq hbuffer.symm), List.length_set.trans hbuffer⟩

theorem copy_eq (ε : Type*) {stop size : ℕ} {source : List α} (hbuffer : buffer.length = size)
    (hle : start ≤ stop) (hstop : stop ≤ size) (hlength : source.length = stop - start) :
    (copy buffer start stop source : Checked ε _) = .ok (splice buffer start source) ∧
      (splice buffer start source).length = size :=
  ⟨if_pos ⟨hle, hstop.trans hbuffer.ge, hlength⟩, (length_splice (by omega)).trans hbuffer⟩

theorem sub_eq {a b : ℕ} (h : b ≤ a) : (sub a b : Checked ε _) = .ok (a - b) :=
  if_pos h

theorem add_eq {w a b : ℕ} (h : a + b < 2 ^ w) : (add w a b : Checked ε _) = .ok (a + b) :=
  if_pos h

theorem mul_eq {w a b : ℕ} (h : a * b < 2 ^ w) : (mul w a b : Checked ε _) = .ok (a * b) :=
  if_pos h

end Accesses

/-- A decoder of `n` bytes may be checked on inputs that are too short and on those that start with
`n` bytes. -/
theorem eq_lift_of_front {f : List α → Checked ε β} {g : List α → Except ε β} (n : ℕ)
    (hshort : ∀ buffer, buffer.length < n → f buffer = lift (g buffer))
    (hlong : ∀ front rest, front.length = n → ¬ (front ++ rest).length < n →
      f (front ++ rest) = lift (g (front ++ rest)))
    (buffer : List α) : f buffer = lift (g buffer) := by
  by_cases h : buffer.length < n
  · exact hshort buffer h
  · have hfront : (buffer.take n).length = n := by
      rw [List.length_take]
      omega
    have heq := hlong (buffer.take n) (buffer.drop n) hfront
    rw [List.take_append_drop] at heq
    exact heq h

end Checked

end Rocev2.Lib
