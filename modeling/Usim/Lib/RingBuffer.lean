import Mathlib.Data.Nat.ModEq
import Mathlib.Logic.Function.Basic

/-!
# Queues in a ring

A queue kept in a ring of `n` cells, given by the cell of its oldest entry. The next
entry goes to the cell behind the last one, cyclically.
-/

namespace Lib

variable {α : Type*}

/-- The ring of `n` cells holds the entries `l`, the oldest in the cell `read`. -/
structure RingHolds (n : ℕ) (cell : ℕ → α) (read : ℕ) (l : List α) : Prop where
  read_lt : read < n
  length_le : l.length ≤ n
  entry : ∀ i a, l[i]? = some a → cell ((read + i) % n) = a

variable {n read : ℕ} {cell : ℕ → α} {l : List α} {a : α}

/-- An empty queue. -/
theorem ringHolds_nil (h : read < n) : RingHolds n cell read [] :=
  ⟨h, Nat.zero_le n, by simp⟩

/-- Different entries lie in different cells. -/
theorem ring_cell_ne {i j : ℕ} (hi : i < n) (hj : j < n) (hij : i ≠ j) :
    (read + i) % n ≠ (read + j) % n := by
  intro h
  have hmod : i ≡ j [MOD n] := Nat.ModEq.add_left_cancel' read h
  exact hij (Nat.ModEq.eq_of_lt_of_lt hmod hi hj)

/-- A new entry is stored behind the last one, if there is a cell. -/
theorem RingHolds.push (h : RingHolds n cell read l) (hroom : l.length < n) :
    RingHolds n (Function.update cell ((read + l.length) % n) a) read (l ++ [a]) where
  read_lt := h.read_lt
  length_le := by
    rw [List.length_append, List.length_singleton]
    exact hroom
  entry := by
    intro i b hb
    rcases Nat.lt_trichotomy i l.length with hi | rfl | hi
    · rw [List.getElem?_append_left hi] at hb
      rw [Function.update_of_ne (ring_cell_ne (hi.trans hroom) hroom hi.ne)]
      exact h.entry i b hb
    · rw [List.getElem?_append_right (Nat.le_refl _), Nat.sub_self] at hb
      rw [Function.update_self]
      exact Option.some.inj hb
    · have hlen : (l ++ [a]).length ≤ i := by
        rw [List.length_append, List.length_singleton]
        exact hi
      rw [List.getElem?_eq_none hlen] at hb
      cases hb

/-- The oldest entry. -/
theorem RingHolds.head (h : RingHolds n cell read (a :: l)) : cell read = a := by
  simpa [Nat.mod_eq_of_lt h.read_lt] using h.entry 0 a rfl

/-- The queue without it. -/
theorem RingHolds.pop (h : RingHolds n cell read (a :: l)) :
    RingHolds n cell ((read + 1) % n) l where
  read_lt := Nat.mod_lt _ (Nat.zero_lt_of_lt h.read_lt)
  length_le := Nat.le_of_succ_le h.length_le
  entry := by
    intro i b hb
    rw [Nat.mod_add_mod, Nat.add_assoc, Nat.add_comm 1 i]
    exact h.entry (i + 1) b hb

end Lib
