import Mathlib.Data.List.Basic
import Mathlib.Tactic.Common

/-!
# Items kept and items lost

Items are numbered from 0 on in order of arrival. Those kept are listed in that order,
whatever places they pass through, and every other item is lost.
-/

namespace Lib

/-- Of `n` items those in `kept` are in order, and the others are those in `lost`. -/
structure Accounted (n : ℕ) (kept lost : List ℕ) : Prop where
  inOrder : kept.Pairwise (· < ·)
  complete : ∀ k < n, k ∈ kept ∨ k ∈ lost
  kept_lt : ∀ k ∈ kept, k < n
  lost_lt : ∀ k ∈ lost, k < n
  disjoint : ∀ k ∈ kept, k ∉ lost

variable {n : ℕ} {kept lost : List ℕ}

/-- At first there are no items. -/
theorem accounted_zero : Accounted 0 [] [] where
  inOrder := .nil
  complete := fun k hk => absurd hk (Nat.not_lt_zero k)
  kept_lt := fun _ hk => absurd hk List.not_mem_nil
  lost_lt := fun _ hk => absurd hk List.not_mem_nil
  disjoint := fun _ hk => absurd hk List.not_mem_nil

/-- A further item is kept. -/
theorem Accounted.keep (h : Accounted n kept lost) : Accounted (n + 1) (kept ++ [n]) lost where
  inOrder := List.pairwise_append.mpr
    ⟨h.inOrder, List.pairwise_singleton _ _, fun a ha b hb => by
      rw [List.mem_singleton.mp hb]
      exact h.kept_lt a ha⟩
  complete := by
    intro k hk
    rcases Nat.lt_succ_iff_lt_or_eq.mp hk with hk | rfl
    · exact (h.complete k hk).imp_left (List.mem_append_left _)
    · exact .inl (List.mem_append_right _ (List.mem_singleton_self k))
  kept_lt := by
    intro k hk
    rcases List.mem_append.mp hk with hk | hk
    · exact Nat.lt_succ_of_lt (h.kept_lt k hk)
    · rw [List.mem_singleton.mp hk]
      exact Nat.lt_succ_self n
  lost_lt := fun k hk => Nat.lt_succ_of_lt (h.lost_lt k hk)
  disjoint := by
    intro k hk hlost
    rcases List.mem_append.mp hk with hk | hk
    · exact h.disjoint k hk hlost
    · exact Nat.ne_of_lt (h.lost_lt k hlost) (List.mem_singleton.mp hk)

/-- A further item is lost. -/
theorem Accounted.refuse (h : Accounted n kept lost) : Accounted (n + 1) kept (lost ++ [n]) where
  inOrder := h.inOrder
  complete := by
    intro k hk
    rcases Nat.lt_succ_iff_lt_or_eq.mp hk with hk | rfl
    · exact (h.complete k hk).imp_right (List.mem_append_left _)
    · exact .inr (List.mem_append_right _ (List.mem_singleton_self k))
  kept_lt := fun k hk => Nat.lt_succ_of_lt (h.kept_lt k hk)
  lost_lt := by
    intro k hk
    rcases List.mem_append.mp hk with hk | hk
    · exact Nat.lt_succ_of_lt (h.lost_lt k hk)
    · rw [List.mem_singleton.mp hk]
      exact Nat.lt_succ_self n
  disjoint := by
    intro k hk hlost
    rcases List.mem_append.mp hlost with hlost | hlost
    · exact h.disjoint k hk hlost
    · exact Nat.ne_of_lt (h.kept_lt k hk) (List.mem_singleton.mp hlost)

variable {a b : List ℕ} {q : ℕ}

/-- An item kept is not listed twice. -/
theorem Accounted.not_mem (h : Accounted n (a ++ q :: b) lost) : q ∉ a ++ b := by
  obtain ⟨-, hb, hab⟩ := List.pairwise_append.mp h.inOrder
  intro hq
  rcases List.mem_append.mp hq with hq | hq
  · exact Nat.lt_irrefl q (hab q hq q List.mem_cons_self)
  · exact Nat.lt_irrefl q (List.rel_of_pairwise_cons hb hq)

/-- An item that was kept is lost. -/
theorem Accounted.drop (h : Accounted n (a ++ q :: b) lost) :
    Accounted n (a ++ b) (lost ++ [q]) where
  inOrder := h.inOrder.sublist (List.Sublist.append_left (List.sublist_cons_self q b) a)
  complete := by
    intro k hk
    rcases h.complete k hk with hk | hk
    · rcases List.mem_append.mp hk with hk | hk
      · exact .inl (List.mem_append_left _ hk)
      · rcases List.mem_cons.mp hk with rfl | hk
        · exact .inr (List.mem_append_right _ (List.mem_singleton_self k))
        · exact .inl (List.mem_append_right _ hk)
    · exact .inr (List.mem_append_left _ hk)
  kept_lt := by
    intro k hk
    refine h.kept_lt k ?_
    rcases List.mem_append.mp hk with hk | hk
    · exact List.mem_append_left _ hk
    · exact List.mem_append_right _ (List.mem_cons_of_mem _ hk)
  lost_lt := by
    intro k hk
    rcases List.mem_append.mp hk with hk | hk
    · exact h.lost_lt k hk
    · rw [List.mem_singleton.mp hk]
      exact h.kept_lt q (List.mem_append_right _ List.mem_cons_self)
  disjoint := by
    intro k hk hlost
    rcases List.mem_append.mp hlost with hlost | hlost
    · refine h.disjoint k ?_ hlost
      rcases List.mem_append.mp hk with hk | hk
      · exact List.mem_append_left _ hk
      · exact List.mem_append_right _ (List.mem_cons_of_mem _ hk)
    · exact h.not_mem (List.mem_singleton.mp hlost ▸ hk)

/-- An item kept is not forgotten without being lost. -/
theorem Accounted.not_complete (h : Accounted n (a ++ q :: b) lost) :
    ¬∀ k < n, k ∈ a ++ b ∨ k ∈ lost := by
  have hmem : q ∈ a ++ q :: b := List.mem_append_right _ List.mem_cons_self
  intro hall
  rcases hall q (h.kept_lt q hmem) with hq | hq
  · exact h.not_mem hq
  · exact h.disjoint q hmem hq

end Lib
