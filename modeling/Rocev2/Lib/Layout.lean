import Rocev2.Lib.Bytes

/-!
# Fixed-size layouts

A layout says which values have a representation and how their bytes stand.  A decoder *reads* a
layout when it accepts exactly the inputs that start with the bytes of a valid value, and returns
that value; an encoder *writes* it when it accepts exactly the valid values and puts their bytes at
the front of its buffer.

A decoder that reads and an encoder that writes the same layout are inverse to each other, in both
directions, whatever code they are.
-/

namespace Rocev2.Lib

universe u

open Bytes

/-! ## Fallible steps -/

section Fallible

variable {ε : Type*} {α β : Type u}

theorem bind_eq_ok {x : Except ε α} {f : α → Except ε β} {b : β} :
    x >>= f = .ok b ↔ ∃ a, x = .ok a ∧ f a = .ok b := by
  cases x with
  | error error => exact ⟨fun h ↦ (by cases h), fun ⟨_, h, _⟩ ↦ (by cases h)⟩
  | ok a => exact ⟨fun h ↦ ⟨a, rfl, h⟩, fun ⟨_, h, hf⟩ ↦ Except.ok.inj h ▸ hf⟩

theorem guard_eq_ok {p : Prop} [Decidable p] {error : ε} {x : Except ε α} {a : α} :
    (if p then .error error else x) = .ok a ↔ ¬ p ∧ x = .ok a := by
  split_ifs with h
  · exact ⟨fun heq ↦ (by cases heq), fun heq ↦ absurd h heq.1⟩
  · exact ⟨fun heq ↦ ⟨h, heq⟩, fun heq ↦ heq.2⟩

end Fallible

/-! ## Layouts -/

/-- Values represented by a fixed number of bytes. -/
structure Layout (α : Type*) where
  /-- The number of bytes. -/
  size : ℕ
  /-- The values that have a representation. -/
  Valid : α → Prop
  /-- Their bytes. -/
  bytes : α → List UInt8
  /-- Every value takes the same number of bytes. -/
  length_bytes : ∀ value, (bytes value).length = size

namespace Layout

variable {α ε : Type*} (layout : Layout α) {encode : α → List UInt8 → Except ε (List UInt8)}

/-- The decoder accepts exactly the representations of valid values, whatever follows them. -/
def Reads (decode : List UInt8 → Except ε α) : Prop :=
  ∀ input value, decode input = .ok value ↔
    layout.Valid value ∧ ∃ rest, input = layout.bytes value ++ rest

def Writes (encode : α → List UInt8 → Except ε (List UInt8)) : Prop :=
  ∀ value output, layout.size ≤ output.length → ∀ written, encode value output = .ok written ↔
    layout.Valid value ∧ written = fill output (layout.bytes value)

variable {layout}

theorem Reads.window {decode : List UInt8 → Except ε α} (h : layout.Reads decode)
    {window : List UInt8} (hlength : window.length = layout.size) (value : α) :
    decode window = .ok value ↔ layout.Valid value ∧ window = layout.bytes value := by
  rw [h]
  refine and_congr_right fun _ ↦ ⟨?_, fun heq ↦ ⟨[], by rw [heq, List.append_nil]⟩⟩
  rintro ⟨rest, rfl⟩
  have hrest : rest = [] := by
    rw [List.length_append, layout.length_bytes] at hlength
    exact List.eq_nil_of_length_eq_zero (by omega)
  rw [hrest, List.append_nil]

theorem Writes.fresh (h : layout.Writes encode) {value : α} {output : List UInt8}
    (hvalid : layout.Valid value) (hlength : output.length = layout.size) :
    encode value output = .ok (layout.bytes value) :=
  (h value output hlength.ge _).mpr
    ⟨hvalid, (fill_of_length_le (by rw [hlength, layout.length_bytes])).symm⟩

/-- **A nested encoder extends the filled part** by the bytes of its value. -/
theorem Writes.within (h : layout.Writes encode) {value : α} {output before written : List UInt8}
    {cursor size : ℕ} (hcursor : cursor = before.length) (hsize : size = layout.size)
    (hroom : (before ++ layout.bytes value).length ≤ output.length) :
    within (fill output before) cursor size (encode value) = .ok written ↔
      layout.Valid value ∧ written = fill output (before ++ layout.bytes value) := by
  subst hsize
  rw [List.length_append, layout.length_bytes] at hroom
  have hlength : ((output.drop cursor).take layout.size).length = layout.size := by
    simp only [List.length_take, List.length_drop]
    omega
  have hwrites := h value _ hlength.ge
  have hwindow : fill ((output.drop cursor).take layout.size) (layout.bytes value) =
      layout.bytes value :=
    fill_of_length_le (by rw [hlength, layout.length_bytes])
  rw [hwindow] at hwrites
  simp only [Bytes.within, bind_eq_ok, slice_fill output before hcursor, Nat.add_sub_cancel_left,
    hwrites]
  constructor
  · rintro ⟨_, ⟨hvalid, rfl⟩, hwritten⟩
    refine ⟨hvalid, ?_⟩
    rw [← splice_fill output before _ hcursor]
    exact (Except.ok.inj hwritten).symm
  · rintro ⟨hvalid, rfl⟩
    refine ⟨_, ⟨hvalid, rfl⟩, ?_⟩
    rw [splice_fill output before _ hcursor]
    rfl

end Layout

end Rocev2.Lib
