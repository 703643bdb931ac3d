import Mathlib.Data.List.Nodup
import Mathlib.Data.Nat.ModEq

/-!
# Circular buffers

`Holds N cells head items` says that a circle of `N` cells holds a list of items from the cell
`head` on, both taken modulo `N`.  The rules say how a list changes when a cell is written, when an
item is appended, when items are dropped at the head and when the circle is turned by one cell.
-/

namespace Rocev2.Lib.Circular

universe u

variable {α : Type u} {N head : ℕ} {cells : ℕ → α} {items : List α}

/-! ## Offsets -/

theorem offset_injective {j k : ℕ} (hj : j < N) (hk : k < N)
    (h : (head + j) % N = (head + k) % N) : j = k :=
  (Nat.ModEq.add_left_cancel' head h).eq_of_lt_of_lt hj hk

theorem exists_offset (head : ℕ) {i : ℕ} (hi : i < N) : ∃ k < N, (head + k) % N = i := by
  have hpos := Nat.zero_lt_of_lt hi
  refine ⟨(i + (N - head % N)) % N, Nat.mod_lt _ hpos, ?_⟩
  have hlt := Nat.mod_lt head hpos
  rw [Nat.add_mod_mod, ← Nat.mod_add_mod,
    show head % N + (i + (N - head % N)) = i + N by omega, Nat.add_mod_right, Nat.mod_eq_of_lt hi]

theorem nodup_offsets (head : ℕ) {n : ℕ} (hn : n ≤ N) :
    ((List.range n).map fun k ↦ (head + k) % N).Nodup := by
  refine List.Nodup.map_on (fun j hj k hk h ↦ ?_) List.nodup_range
  rw [List.mem_range] at hj hk
  exact offset_injective (hj.trans_le hn) (hk.trans_le hn) h

/-! ## Contents -/

def Holds (N : ℕ) (cells : ℕ → α) (head : ℕ) (items : List α) : Prop :=
  ∀ k item, items[k]? = some item → cells ((head + k) % N) = item

namespace Holds

theorem mod_head : Holds N cells (head % N) items ↔ Holds N cells head items := by
  simp only [Holds, Nat.mod_add_mod]

theorem head_eq {item : α} (h : Holds N cells head (item :: items)) : cells (head % N) = item :=
  h 0 item rfl

/-- **Writing a cell** changes one item. -/
theorem set (h : Holds N cells head items) (hle : items.length ≤ N) {k : ℕ}
    (hk : k < items.length) (item : α) :
    Holds N (Function.update cells ((head + k) % N) item) head (items.set k item) := by
  intro j item' hj
  by_cases hjk : j = k
  · subst hjk
    rw [List.getElem?_set_self hk] at hj
    rw [Function.update_self]
    exact Option.some.inj hj
  · rw [List.getElem?_set_ne (Ne.symm hjk)] at hj
    have hlt := (List.getElem?_eq_some_iff.mp hj).1
    have hne : (head + j) % N ≠ (head + k) % N := fun heq ↦
      hjk (offset_injective (hlt.trans_le hle) (hk.trans_le hle) heq)
    rw [Function.update_of_ne hne]
    exact h j item' hj

/-- **Appending** an item while there is room. -/
theorem append (h : Holds N cells head items) (hlt : items.length < N) (item : α) :
    Holds N (Function.update cells ((head + items.length) % N) item) head (items ++ [item]) := by
  intro j item' hj
  by_cases hlast : j < items.length
  · rw [List.getElem?_append_left hlast] at hj
    have hne : (head + j) % N ≠ (head + items.length) % N := fun heq ↦
      hlast.ne (offset_injective (hlast.trans hlt) hlt heq)
    rw [Function.update_of_ne hne]
    exact h j item' hj
  · rw [List.getElem?_append_right (Nat.le_of_not_lt hlast)] at hj
    obtain ⟨hzero, hitem⟩ := List.getElem?_eq_some_iff.mp hj
    obtain rfl : j = items.length := by
      rw [List.length_singleton] at hzero
      omega
    rw [Function.update_self, ← hitem]
    simp

/-- **Dropping** items at the head. -/
theorem drop (h : Holds N cells head items) (count : ℕ) :
    Holds N cells (head + count) (items.drop count) := by
  intro k item hk
  rw [List.getElem?_drop] at hk
  rw [Nat.add_assoc]
  exact h (count + k) item hk

theorem take (h : Holds N cells head items) (count : ℕ) :
    Holds N cells head (items.take count) := by
  intro k item hk
  rw [List.getElem?_take] at hk
  split at hk
  · exact h k item hk
  · cases hk

theorem map_range (h : Holds N cells head items) :
    ((List.range items.length).map fun k ↦ cells ((head + k) % N)) = items := by
  apply List.ext_getElem
  · rw [List.length_map, List.length_range]
  · intro k _ hk
    rw [List.getElem_map, List.getElem_range]
    exact h k _ (List.getElem?_eq_getElem hk)

/-- **Turning** a full circle by one cell. -/
theorem rotate {item : α} (h : Holds N cells head (item :: items))
    (hfull : items.length + 1 = N) : Holds N cells (head + 1) (items ++ [item]) := by
  intro k item' hk
  by_cases hlast : k < items.length
  · rw [List.getElem?_append_left hlast] at hk
    rw [Nat.add_right_comm, Nat.add_assoc]
    exact h (k + 1) item' hk
  · rw [List.getElem?_append_right (Nat.le_of_not_lt hlast)] at hk
    obtain ⟨hzero, hitem⟩ := List.getElem?_eq_some_iff.mp hk
    obtain rfl : k = items.length := by
      rw [List.length_singleton] at hzero
      omega
    rw [Nat.add_assoc, Nat.add_comm 1, hfull, Nat.add_mod_right, h.head_eq, ← hitem]
    simp

end Holds

end Rocev2.Lib.Circular
