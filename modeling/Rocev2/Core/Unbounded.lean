import Mathlib.Algebra.Ring.Int.Defs
import Mathlib.Data.List.Forall2
import Rocev2.Core.Ack

/-!
# Unbounded counters

The send window and the receive tracker keep 24 bits of every packet index.  What they are for is
easier to say with indices that never wrap: a window is a pair of natural numbers, reserving moves
the upper one, and acknowledging moves the lower one.  `Counters` is that window.  It is our own
statement of the purpose; `SendWindow` is what the source computes.

* `Counters.reserveMany_window` and `Counters.acknowledge_window` — one operation on the residues
  is the residue of one operation on the counters.  An acknowledged PSN stands for the index next
  to the window that has this residue, and every PSN stands for one.
* `serial_window_refines` — hence every run of the window is the residue of a run of the counters.
-/

namespace Rocev2.Core

def Psn.IsResidue (psn : Psn) (index : ℤ) : Prop := (psn.value : ℤ) = index % 2 ^ 24

namespace Psn

theorem isResidue_newTruncated (n : ℕ) : (newTruncated n).IsResidue n := by
  simp [IsResidue]

theorem newTruncated_add_turn (n : ℕ) : newTruncated (n + 2 ^ 24) = newTruncated n := by
  ext
  simp

theorem IsResidue.eq_newTruncated {psn : Psn} {index : ℤ} (h : psn.IsResidue index) {n : ℕ}
    (hn : (n : ℤ) = index + 2 ^ 24) : psn = newTruncated n := by
  ext
  unfold IsResidue at h
  rw [newTruncated_value]
  omega

/-- **Every PSN stands for an index close to a given one.** -/
theorem exists_isResidue (psn : Psn) (base : ℕ) :
    ∃ index : ℤ, psn.IsResidue index ∧ (base : ℤ) - 2 ^ 23 ≤ index ∧ index < base + 2 ^ 23 := by
  obtain ⟨d, hd, rfl⟩ := psn.exists_eq_wrappingAdd (newTruncated base)
  rw [wrappingAdd_newTruncated]
  rcases Nat.lt_or_ge d (2 ^ 23) with hnear | hfar
  · exact ⟨base + d, by simpa using isResidue_newTruncated (base + d), by omega, by omega⟩
  · refine ⟨base + d - 2 ^ 24, ?_, by omega, by omega⟩
    simp only [IsResidue, newTruncated_value]
    omega

end Psn

/-! ## The receive tracker -/

theorem ReceivePsn.classify_isResidue {receive : ReceivePsn} {received : Psn} {expected index : ℤ}
    (hexpected : receive.expected.IsResidue expected) (hreceived : received.IsResidue index)
    (hge : expected - 2 ^ 23 ≤ index) (hlt : index < expected + 2 ^ 23) :
    receive.classify received =
      if index < expected then .duplicate else if index = expected then .expected else .future := by
  -- both indices, seen from a common origin below them
  obtain ⟨e, he⟩ : ∃ e : ℕ, (e : ℤ) = expected % 2 ^ 24 + 2 ^ 24 :=
    ⟨_, Int.toNat_of_nonneg (by omega)⟩
  obtain ⟨r, hr⟩ : ∃ r : ℕ, (r : ℤ) = e + (index - expected) := ⟨_, Int.toNat_of_nonneg (by omega)⟩
  have hreceive : receive = ⟨.newTruncated e⟩ := by
    ext
    simp only [Psn.IsResidue] at hexpected
    rw [Psn.newTruncated_value]
    omega
  have hpsn : received = .newTruncated r := by
    ext
    simp only [Psn.IsResidue] at hreceived
    rw [Psn.newTruncated_value]
    omega
  rw [hreceive, hpsn, classify_newTruncated (by omega) (by omega)]
  have h₁ : r < e ↔ index < expected := by omega
  have h₂ : r = e ↔ index = expected := by omega
  simp only [h₁, h₂]

/-! ## The send window -/

/-- An operation on a window, with acknowledged packets named by `ι`. -/
inductive WindowOp (ι : Type) where
  | reserveMany (packets : ℕ)
  | acknowledge (packet : ι)

def SendWindow.step (window : SendWindow) : WindowOp Psn → SendWindow
  | .reserveMany packets => (window.reserveMany packets).1
  | .acknowledge psn => (window.acknowledge psn).1

/-- A send window that does not wrap. -/
structure Counters where
  /-- The first packet that has not been acknowledged. -/
  base : ℕ
  /-- The next packet to be sent. -/
  next : ℕ
  ordered : base ≤ next
  bounded : next - base ≤ maxOutstandingPackets

namespace Counters

/-- No packet is outstanding. -/
def new (initial : ℕ) : Counters := ⟨initial, initial, Nat.le_refl _, by omega⟩

/-- The window that keeps the low bits. -/
def window (c : Counters) : SendWindow := .ofIndex c.base c.next

def reserveMany (c : Counters) (packets : ℕ) : Counters × Option ℕ :=
  if h : 1 ≤ packets ∧ c.next - c.base + packets ≤ maxOutstandingPackets then
    have hordered := c.ordered
    (⟨c.base, c.next + packets, by omega, by omega⟩, some c.next)
  else (c, none)

def acknowledge (c : Counters) (index : ℤ) : Counters × AckAdvance :=
  if h : c.base ≤ index ∧ index < c.next then
    have hbounded := c.bounded
    (⟨index.toNat + 1, c.next, by omega, by omega⟩,
      .advanced (index.toNat + 1 - c.base) (.newTruncated (index.toNat + 1)))
  else (c, if index < c.base then .duplicate else .invalid)

def step (c : Counters) : WindowOp ℤ → Counters
  | .reserveMany packets => (c.reserveMany packets).1
  | .acknowledge index => (c.acknowledge index).1

variable {c : Counters}

theorem outstanding_window (c : Counters) : c.window.outstanding = c.next - c.base := by
  have hbounded := c.bounded
  have hmax : maxOutstandingPackets < 2 ^ 24 := by decide
  exact Psn.forwardDistanceFrom_newTruncated c.ordered (by omega)

theorem window_add_turn (c : Counters) :
    c.window = .ofIndex (c.base + 2 ^ 24) (c.next + 2 ^ 24) := by
  simp only [window, SendWindow.ofIndex, Psn.newTruncated_add_turn]

/-- **Reserving commutes with truncation.** -/
theorem reserveMany_window (c : Counters) (packets : ℕ) :
    c.window.reserveMany packets =
      ((c.reserveMany packets).1.window, (c.reserveMany packets).2.map .newTruncated) := by
  unfold SendWindow.reserveMany reserveMany
  rw [outstanding_window]
  by_cases hroom : 1 ≤ packets ∧ c.next - c.base + packets ≤ maxOutstandingPackets
  · rw [if_neg (by omega), dif_pos hroom]
    simp [window, SendWindow.ofIndex]
  · rw [if_pos (by omega), dif_neg hroom]
    rfl

/-- **Acknowledging commutes with truncation**, for the indices near the window. -/
theorem acknowledge_window {psn : Psn} {index : ℤ} (hpsn : psn.IsResidue index)
    (hge : (c.base : ℤ) - 2 ^ 23 ≤ index) (hlt : index < c.base + 2 ^ 23) :
    c.window.acknowledge psn =
      ((c.acknowledge index).1.window, (c.acknowledge index).2) := by
  have hordered := c.ordered
  have hbounded := c.bounded
  have hmax : maxOutstandingPackets < 2 ^ 23 := by decide
  -- all indices are natural numbers one turn later
  obtain ⟨n, hn⟩ : ∃ n : ℕ, (n : ℤ) = index + 2 ^ 24 := ⟨_, Int.toNat_of_nonneg (by omega)⟩
  rw [hpsn.eq_newTruncated hn, acknowledge, window_add_turn c]
  by_cases hmem : c.base ≤ index ∧ index < c.next
  · rw [dif_pos hmem, SendWindow.acknowledge_ofIndex_mem (by omega) (by omega) (by omega)]
    have hindex : n + 1 = index.toNat + 1 + 2 ^ 24 := by omega
    have hcount : n - (c.base + 2 ^ 24) + 1 = index.toNat + 1 - c.base := by omega
    rw [hindex, hcount, Psn.newTruncated_add_turn, window_add_turn]
  · rw [dif_neg hmem]
    by_cases hbelow : index < c.base
    · rw [if_pos hbelow, SendWindow.acknowledge_ofIndex_lt (by omega) (by omega), window_add_turn]
    · rw [if_neg hbelow, SendWindow.acknowledge_ofIndex_ge (by omega) (by omega) (by omega),
        window_add_turn]

/-- Two operations on the same packets. -/
def Matches (op : WindowOp Psn) (op' : WindowOp ℤ) : Prop :=
  match op, op' with
  | .reserveMany packets, .reserveMany packets' => packets = packets'
  | .acknowledge psn, .acknowledge index => psn.IsResidue index
  | _, _ => False

theorem exists_step (c : Counters) (op : WindowOp Psn) :
    ∃ op', Matches op op' ∧ c.window.step op = (c.step op').window := by
  cases op with
  | reserveMany packets =>
    exact ⟨.reserveMany packets, rfl, congrArg Prod.fst (reserveMany_window c packets)⟩
  | acknowledge psn =>
    obtain ⟨index, hpsn, hge, hlt⟩ := psn.exists_isResidue c.base
    exact ⟨.acknowledge index, hpsn, congrArg Prod.fst (acknowledge_window hpsn hge hlt)⟩

/-- **Every run on the residues is a run on the counters.** -/
theorem exists_run (c : Counters) (ops : List (WindowOp Psn)) :
    ∃ indices, List.Forall₂ Matches ops indices ∧
      ops.foldl SendWindow.step c.window = (indices.foldl step c).window := by
  induction ops generalizing c with
  | nil => exact ⟨[], .nil, rfl⟩
  | cons op ops ih =>
    obtain ⟨op', hop, hstep⟩ := c.exists_step op
    obtain ⟨indices, hmatch, hrun⟩ := ih (c.step op')
    refine ⟨op' :: indices, .cons hop hmatch, ?_⟩
    rw [List.foldl_cons, List.foldl_cons, hstep, hrun]

end Counters

/-- **The serial-number window refines an unbounded one.**  The window after any run holds the
residues of two counters, which a run of the same operations on counters leads to.  On these
counters it is plain what the next operation does: a reservation succeeds exactly when it fits, and
leaves the window alone otherwise; an ACK near the window is a duplicate, advances the window, or is
invalid, exactly as its index compares with the counters, and only in the second case the window
changes.  Likewise, the receive tracker compares indices. -/
theorem serial_window_refines (initial : Psn) (ops : List (WindowOp Psn)) :
    (∃ c : Counters,
      (∃ indices, List.Forall₂ Counters.Matches ops indices ∧
        c = indices.foldl Counters.step (.new initial.value)) ∧
      ops.foldl SendWindow.step (.new initial) = c.window ∧
      (∀ packets,
        ((c.window.reserveMany packets).2.isSome = true ↔
          1 ≤ packets ∧ c.next - c.base + packets ≤ maxOutstandingPackets) ∧
        ((c.window.reserveMany packets).2 = none → (c.window.reserveMany packets).1 = c.window)) ∧
      ∀ (psn : Psn) (index : ℤ), psn.IsResidue index →
        (c.base : ℤ) - 2 ^ 23 ≤ index → index < c.base + 2 ^ 23 →
        ((c.window.acknowledge psn).2 = .duplicate ↔ index < c.base) ∧
        ((∃ packets : ℕ, ∃ next, (c.window.acknowledge psn).2 = .advanced packets next ∧
          (packets : ℤ) = index + 1 - c.base) ↔ c.base ≤ index ∧ index < c.next) ∧
        ((c.window.acknowledge psn).2 = .invalid ↔ c.next ≤ index) ∧
        ((c.window.acknowledge psn).1 ≠ c.window →
          ∃ packets next, (c.window.acknowledge psn).2 = .advanced packets next)) ∧
    ∀ (receive : ReceivePsn) (received : Psn) (expected index : ℤ),
      receive.expected.IsResidue expected → received.IsResidue index →
      expected - 2 ^ 23 ≤ index → index < expected + 2 ^ 23 →
      (receive.classify received = .duplicate ↔ index < expected) ∧
      (receive.classify received = .expected ↔ index = expected) ∧
      (receive.classify received = .future ↔ expected < index) := by
  have hnew : (SendWindow.new initial) = (Counters.new initial.value).window := by
    simp [SendWindow.new, Counters.window, Counters.new, SendWindow.ofIndex]
  obtain ⟨indices, hmatch, hrun⟩ := (Counters.new initial.value).exists_run ops
  refine ⟨⟨_, ⟨indices, hmatch, rfl⟩, by rw [hnew, hrun], fun packets ↦ ?_, ?_⟩, ?_⟩
  · rw [Counters.reserveMany_window]
    unfold Counters.reserveMany
    split
    · rename_i hroom
      exact ⟨⟨fun _ ↦ hroom, fun _ ↦ rfl⟩, by rintro ⟨⟩⟩
    · rename_i hroom
      exact ⟨⟨by rintro ⟨⟩, fun h ↦ absurd h hroom⟩, fun _ ↦ rfl⟩
  · intro psn index hpsn hge hlt
    generalize indices.foldl Counters.step (.new initial.value) = c at hge hlt ⊢
    have hordered := c.ordered
    rw [Counters.acknowledge_window hpsn hge hlt]
    unfold Counters.acknowledge
    split
    · rename_i hmem
      refine ⟨⟨by rintro ⟨⟩, fun h ↦ by omega⟩,
        ⟨fun _ ↦ hmem, fun _ ↦ ⟨_, _, rfl, by omega⟩⟩,
        ⟨by rintro ⟨⟩, fun h ↦ by omega⟩, fun _ ↦ ⟨_, _, rfl⟩⟩
    · rename_i hmem
      dsimp only
      by_cases hbelow : index < c.base
      · rw [if_pos hbelow]
        refine ⟨⟨fun _ ↦ hbelow, fun _ ↦ rfl⟩, ⟨by rintro ⟨_, _, ⟨⟩, _⟩, fun h ↦ by omega⟩,
          ⟨by rintro ⟨⟩, fun h ↦ by omega⟩, fun h ↦ absurd rfl h⟩
      · rw [if_neg hbelow]
        refine ⟨⟨by rintro ⟨⟩, fun h ↦ by omega⟩,
          ⟨by rintro ⟨_, _, ⟨⟩, _⟩, fun h ↦ by omega⟩,
          ⟨fun _ ↦ by omega, fun _ ↦ rfl⟩, fun h ↦ absurd rfl h⟩
  · intro receive received expected index hexpected hreceived hge hlt
    rw [ReceivePsn.classify_isResidue hexpected hreceived hge hlt]
    split
    · rename_i hbelow
      exact ⟨⟨fun _ ↦ hbelow, fun _ ↦ rfl⟩, ⟨by rintro ⟨⟩, fun h ↦ by omega⟩,
        ⟨by rintro ⟨⟩, fun h ↦ by omega⟩⟩
    split
    · rename_i hsame
      exact ⟨⟨by rintro ⟨⟩, fun h ↦ by omega⟩, ⟨fun _ ↦ hsame, fun _ ↦ rfl⟩,
        ⟨by rintro ⟨⟩, fun h ↦ by omega⟩⟩
    · exact ⟨⟨by rintro ⟨⟩, fun h ↦ by omega⟩, ⟨by rintro ⟨⟩, fun h ↦ by omega⟩,
        ⟨fun _ ↦ by omega, fun _ ↦ rfl⟩⟩

end Rocev2.Core
