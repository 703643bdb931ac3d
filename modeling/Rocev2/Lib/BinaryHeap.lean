import Mathlib.Logic.Equiv.Basic
import Mathlib.Order.Lattice

/-!
# Order of a binary heap

A binary heap is the first `n` values of a sequence in which no value is less than the one at its
parent position.  A heap operation breaks this order at one position and repairs it by exchanges
along a path.

`UpOrder` and `DownOrder` say what holds while a value travels towards the root and towards the
leaves: the order off the position of the value, and the order between its neighbours.  For each
direction, one lemma says that an exchange moves the position (`step`) and one that a value which
need not move leaves a heap (`finish`).
-/

namespace Rocev2.Lib.BinaryHeap

variable {α : Type*}

def parent (i : ℕ) : ℕ := (i - 1) / 2

theorem parent_lt {i : ℕ} (h : 0 < i) : parent i < i := by
  unfold parent
  omega

theorem eq_child_of_parent {i p : ℕ} (hi : 0 < i) (h : parent i = p) :
    i = 2 * p + 1 ∨ i = 2 * p + 2 := by
  unfold parent at h
  omega

/-- The sequence with two values exchanged. -/
def exchange (f : ℕ → α) (i j : ℕ) : ℕ → α := fun k ↦ f (Equiv.swap i j k)

@[simp]
theorem exchange_left (f : ℕ → α) (i j : ℕ) : exchange f i j i = f j := by
  rw [exchange, Equiv.swap_apply_left]

@[simp]
theorem exchange_right (f : ℕ → α) (i j : ℕ) : exchange f i j j = f i := by
  rw [exchange, Equiv.swap_apply_right]

theorem exchange_of_ne (f : ℕ → α) {i j k : ℕ} (hi : k ≠ i) (hj : k ≠ j) :
    exchange f i j k = f k := by
  rw [exchange, Equiv.swap_apply_of_ne_of_ne hi hj]

section Order

variable [LinearOrder α] {f g : ℕ → α} {n p : ℕ}

/-- No value is less than its parent's. -/
def Ordered (f : ℕ → α) (n : ℕ) : Prop := ∀ i, 0 < i → i < n → f (parent i) ≤ f i

/-- Ordered but for the value at `p`, which may be less than its parent's. -/
structure UpOrder (f : ℕ → α) (n p : ℕ) : Prop where
  /-- The other values are in order with their parents. -/
  off : ∀ i, 0 < i → i < n → i ≠ p → f (parent i) ≤ f i
  /-- The children are in order with the parent. -/
  bridge : 0 < p → ∀ i, 0 < i → i < n → parent i = p → f (parent p) ≤ f i

/-- Ordered but for the value at `p`, which may be greater than its children's. -/
structure DownOrder (f : ℕ → α) (n p : ℕ) : Prop where
  /-- The values that are not children of `p` are in order with their parents. -/
  off : ∀ i, 0 < i → i < n → parent i ≠ p → f (parent i) ≤ f i
  /-- The children are in order with the parent. -/
  bridge : 0 < p → ∀ i, 0 < i → i < n → parent i = p → f (parent p) ≤ f i

theorem Ordered.congr (h : Ordered f n) (heq : ∀ i < n, g i = f i) : Ordered g n := by
  intro i hi hn
  have hparent := parent_lt hi
  rw [heq i hn, heq (parent i) (by omega)]
  exact h i hi hn

theorem Ordered.mono {m : ℕ} (h : Ordered f n) (hm : m ≤ n) : Ordered f m :=
  fun i hi him ↦ h i hi (him.trans_le hm)

/-- **The root is least.** -/
theorem Ordered.root_le (h : Ordered f n) {i : ℕ} (hi : i < n) : f 0 ≤ f i := by
  induction i using Nat.strongRecOn with
  | _ i ih =>
    rcases Nat.eq_zero_or_pos i with rfl | hpos
    · exact le_rfl
    · have hparent := parent_lt hpos
      exact (ih (parent i) hparent (hparent.trans hi)).trans (h i hpos hi)

/-! ## Towards the root -/

/-- **A value that precedes its parent moves up.** -/
theorem UpOrder.step (h : UpOrder f n p) (hp : 0 < p) (hn : p < n) (hlt : f p < f (parent p)) :
    UpOrder (exchange f p (parent p)) n (parent p) := by
  have hq := parent_lt hp
  constructor
  · intro i hi hin hiq
    rcases eq_or_ne i p with rfl | hip
    · rw [exchange_left, exchange_right]
      exact hlt.le
    · rw [exchange_of_ne f hip hiq]
      rcases eq_or_ne (parent i) p with hchild | hchild
      · rw [hchild, exchange_left]
        exact h.bridge hp i hi hin hchild
      rcases eq_or_ne (parent i) (parent p) with hsibling | hsibling
      · rw [hsibling, exchange_right]
        exact hlt.le.trans (hsibling ▸ h.off i hi hin hip)
      · rw [exchange_of_ne f hchild hsibling]
        exact h.off i hi hin hip
  · intro hqpos i hi hin hchild
    have hqq := parent_lt hqpos
    have hup : f (parent (parent p)) ≤ f (parent p) :=
      h.off (parent p) hqpos (hq.trans hn) hq.ne
    rw [exchange_of_ne f (by omega) (by omega)]
    rcases eq_or_ne i p with rfl | hip
    · rw [exchange_left]
      exact hup
    · have hiq : i ≠ parent p := by
        have := parent_lt hi
        omega
      rw [exchange_of_ne f hip hiq]
      exact hup.trans (hchild ▸ h.off i hi hin hip)

theorem UpOrder.finish (h : UpOrder f n p) (hstop : 0 < p → ¬ f p < f (parent p)) :
    Ordered f n := by
  intro i hi hin
  rcases eq_or_ne i p with rfl | hip
  · exact not_lt.mp (hstop hi)
  · exact h.off i hi hin hip

/-! ## Towards the leaves -/

/-- **A value that its least child precedes moves down.** -/
theorem DownOrder.step (h : DownOrder f n p) {c : ℕ} (hc : 0 < c) (hcn : c < n)
    (hchild : parent c = p) (hmin : ∀ i, 0 < i → i < n → parent i = p → f c ≤ f i)
    (hlt : f c < f p) : DownOrder (exchange f p c) n c := by
  have hpc := parent_lt hc
  rw [hchild] at hpc
  constructor
  · intro i hi hin hparent
    rcases eq_or_ne i c with rfl | hic
    · rw [hchild, exchange_left, exchange_right]
      exact hlt.le
    rcases eq_or_ne i p with rfl | hip
    · have hup := parent_lt hi
      rw [exchange_left, exchange_of_ne f (by omega) hparent]
      exact h.bridge hi c hc hcn hchild
    · rw [exchange_of_ne f hip hic]
      rcases eq_or_ne (parent i) p with hsibling | hsibling
      · rw [hsibling, exchange_left]
        exact hmin i hi hin hsibling
      · rw [exchange_of_ne f hsibling hparent]
        exact h.off i hi hin hsibling
  · intro _ i hi hin hparent
    have hci := parent_lt hi
    rw [hchild, exchange_left, exchange_of_ne f (by omega) (by omega)]
    exact hparent ▸ h.off i hi hin (by omega)

theorem DownOrder.finish (h : DownOrder f n p)
    (hstop : ∀ i, 0 < i → i < n → parent i = p → f p ≤ f i) : Ordered f n := by
  intro i hi hin
  rcases eq_or_ne (parent i) p with hchild | hchild
  · rw [hchild]
    exact hstop i hi hin hchild
  · exact h.off i hi hin hchild

/-! ## Where the order breaks -/

theorem Ordered.update_grandparent (h : Ordered f n) (a : α) {i : ℕ} (hp : 0 < p) (hi : 0 < i)
    (hin : i < n) (hchild : parent i = p) :
    Function.update f p a (parent p) ≤ Function.update f p a i := by
  have hpi := parent_lt hi
  have hpp := parent_lt hp
  rw [Function.update_of_ne (by omega), Function.update_of_ne (by omega)]
  exact (h p hp (by omega)).trans (hchild ▸ h i hi hin)

theorem Ordered.update_up (h : Ordered f n) {a : α} (hle : a ≤ f p) :
    UpOrder (Function.update f p a) n p := by
  constructor
  · intro i hi hin hip
    rw [Function.update_of_ne hip]
    rcases eq_or_ne (parent i) p with hchild | hchild
    · rw [hchild, Function.update_self]
      exact hle.trans (hchild ▸ h i hi hin)
    · rw [Function.update_of_ne hchild]
      exact h i hi hin
  · intro hp i hi hin hchild
    exact h.update_grandparent a hp hi hin hchild

theorem Ordered.update_down (h : Ordered f n) {a : α} (hle : 0 < p → f (parent p) ≤ a) :
    DownOrder (Function.update f p a) n p := by
  constructor
  · intro i hi hin hchild
    rw [Function.update_of_ne hchild]
    rcases eq_or_ne i p with rfl | hip
    · rw [Function.update_self]
      exact hle hi
    · rw [Function.update_of_ne hip]
      exact h i hi hin
  · intro hp i hi hin hchild
    exact h.update_grandparent a hp hi hin hchild

theorem Ordered.append (h : Ordered f n) (a : α) : UpOrder (Function.update f n a) (n + 1) n := by
  constructor
  · intro i hi hin hne
    have hparent := parent_lt hi
    rw [Function.update_of_ne hne, Function.update_of_ne (by omega)]
    exact h i hi (by omega)
  · intro _ i hi hin hchild
    have hparent := parent_lt hi
    omega

end Order

end Rocev2.Lib.BinaryHeap
