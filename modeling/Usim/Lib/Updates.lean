import Mathlib.Data.List.Range
import Mathlib.Logic.Function.Basic

/-!
# Updates of a function in turn

A list of updates is applied one after the other, and the last one at an argument
wins. A loop stores a stretch of an array.
-/

namespace Lib

variable {α β : Type*} [DecidableEq α]

/-- Apply the updates in turn. -/
def updates (f : α → β) (l : List (α × β)) : α → β :=
  l.foldl (fun f w => Function.update f w.1 w.2) f

variable {f : α → β} {l : List (α × β)} {a : α}

/-- No update. -/
@[simp] theorem updates_nil : updates f [] = f := rfl

/-- One update before others. -/
@[simp] theorem updates_cons (w : α × β) :
    updates f (w :: l) = updates (Function.update f w.1 w.2) l := rfl

/-- An argument that is not updated keeps its value. -/
theorem updates_of_notMem (h : ∀ w ∈ l, w.1 ≠ a) : updates f l a = f a := by
  induction l generalizing f with
  | nil => rfl
  | cons w l ih =>
    rw [updates_cons, ih fun w' hw' => h w' (List.mem_cons_of_mem _ hw')]
    exact Function.update_of_ne (h w List.mem_cons_self).symm _ _

/-- The last update at an argument wins. -/
theorem updates_last {l₁ l₂ : List (α × β)} {b : β} (h : ∀ w ∈ l₂, w.1 ≠ a) :
    updates f (l₁ ++ (a, b) :: l₂) a = b := by
  unfold updates
  rw [List.foldl_append, List.foldl_cons]
  refine (updates_of_notMem h).trans ?_
  exact Function.update_self _ _ _

/-- The updates for the numbers below `n`, in their order. -/
theorem updates_range_last {at' : ℕ → α} {b : ℕ → β} {n i : ℕ} (hi : i < n)
    (hlast : ∀ j, i < j → j < n → at' j ≠ at' i) :
    updates f ((List.range n).map fun j => (at' j, b j)) (at' i) = b i := by
  have hsplit : List.range n = List.range i ++ i :: List.range' (i + 1) (n - (i + 1)) := by
    have happend := @List.range'_append_1 0 i (n - (i + 1) + 1)
    rw [Nat.zero_add, List.range'_succ] at happend
    rw [List.range_eq_range', List.range_eq_range', happend]
    congr 1
    omega
  rw [hsplit, List.map_append, List.map_cons]
  refine updates_last ?_
  intro w hw
  obtain ⟨j, hj, rfl⟩ := List.mem_map.mp hw
  rw [List.mem_range'_1] at hj
  exact hlast j (by omega) (by omega)

omit [DecidableEq α] in
/-- Among the numbers below `n` with the same argument there is a last one. -/
theorem exists_last (at' : ℕ → α) {n i : ℕ} (hi : i < n) :
    ∃ j < n, at' j = at' i ∧ ∀ k, j < k → k < n → at' k ≠ at' j := by
  induction hd : n - i using Nat.strongRecOn generalizing i with
  | ind d ih =>
    by_cases hlast : ∀ k, i < k → k < n → at' k ≠ at' i
    · exact ⟨i, hi, rfl, hlast⟩
    · push Not at hlast
      obtain ⟨k, hik, hk, heq⟩ := hlast
      obtain ⟨j, hj, hji, hlast⟩ := ih (n - k) (by omega) hk rfl
      exact ⟨j, hj, hji.trans heq, hlast⟩

/-- An argument that none of the numbers below `n` updates. -/
theorem updates_range_of_ne {at' : ℕ → α} {b : ℕ → β} {n : ℕ} (h : ∀ i < n, at' i ≠ a) :
    updates f ((List.range n).map fun j => (at' j, b j)) a = f a := by
  refine updates_of_notMem fun w hw => ?_
  obtain ⟨i, hi, rfl⟩ := List.mem_map.mp hw
  exact h i (List.mem_range.mp hi)

/-- A stretch of an array is stored if its first element is, and then those behind it. -/
theorem stretch_update {γ : Type*} {m a b : ℕ} (f : Fin m → γ) (g : ℕ → γ) {i : Fin m}
    (hi : i.val = a) (hab : a < b) :
    (fun k : Fin m => if a + 1 ≤ k ∧ k < b then g k else Function.update f i (g a) k) =
      fun k : Fin m => if a ≤ k ∧ k < b then g k else f k := by
  funext k
  by_cases hk : k = i
  · rw [hk, hi, if_neg (by omega), if_pos (by omega), Function.update_self]
  · have hne : k.val ≠ a := fun h => hk (Fin.ext (h.trans hi.symm))
    rw [Function.update_of_ne hk]
    by_cases hlater : a + 1 ≤ k.val ∧ k.val < b
    · rw [if_pos hlater, if_pos (by omega)]
    · rw [if_neg hlater, if_neg (by omega)]

end Lib
