import Mathlib.Data.Set.Card
import Mathlib.Logic.Relation

/-!
# Loops

A loop by its turn, which takes a state to the next one or leaves the loop with a
result. How many turns it takes, and the states that it comes to.
-/

namespace Lib

variable {σ ρ : Type*} (turn : σ → σ ⊕ ρ)

/-- From `s` the loop goes on for `n` turns, and is then left with `r`. -/
inductive EndsAfter : ℕ → σ → ρ → Prop
  /-- The loop is left. -/
  | left {s : σ} {r : ρ} (h : turn s = .inr r) : EndsAfter 0 s r
  /-- The loop goes on. -/
  | next {n : ℕ} {s s' : σ} {r : ρ} (h : turn s = .inl s') (rest : EndsAfter n s' r) :
    EndsAfter (n + 1) s r

/-- From `s` the loop comes to `t`. -/
def Visits : σ → σ → Prop := Relation.ReflTransGen fun s s' => turn s = .inl s'

variable {turn} {s t : σ} {r : ρ} {n : ℕ}

/-- A loop whose turns lower a measure of the states that keep an invariant is left after at
most as many turns. -/
theorem exists_endsAfter {I : σ → Prop} {μ : σ → ℕ}
    (hturn : ∀ s s', I s → turn s = .inl s' → I s' ∧ μ s' < μ s) (hs : I s) :
    ∃ n ≤ μ s, ∃ r, EndsAfter turn n s r := by
  induction hμ : μ s using Nat.strongRecOn generalizing s with
  | ind k ih =>
    subst hμ
    cases h : turn s with
    | inl s' =>
      obtain ⟨hs', hlt⟩ := hturn s s' hs h
      obtain ⟨n, hn, r, hrest⟩ := ih (μ s') hlt hs' rfl
      exact ⟨n + 1, by omega, r, .next h hrest⟩
    | inr r => exact ⟨0, Nat.zero_le _, r, .left h⟩

/-- A loop that comes to a state where it is left. -/
theorem Visits.exists_endsAfter (h : Visits turn s t) (hleft : turn t = .inr r) :
    ∃ n, EndsAfter turn n s r := by
  induction h using Relation.ReflTransGen.head_induction_on with
  | refl => exact ⟨0, .left hleft⟩
  | head hturn rest ih =>
    obtain ⟨n, hn⟩ := ih
    exact ⟨n + 1, .next hturn hn⟩

/-- What every turn keeps holds of every state that the loop comes to. -/
theorem Visits.of_turn {I : σ → Prop} (h : Visits turn s t)
    (hturn : ∀ s s', I s → turn s = .inl s' → I s') (hs : I s) : I t := by
  induction h with
  | refl => exact hs
  | tail rest h ih => exact hturn _ _ ih h

/-- What every turn keeps, and leaves where the loop is left, holds of the result. -/
theorem EndsAfter.of_turn {I : σ → Prop} {Q : ρ → Prop} (h : EndsAfter turn n s r)
    (hturn : ∀ s s', I s → turn s = .inl s' → I s')
    (hleft : ∀ s r, I s → turn s = .inr r → Q r) (hs : I s) : Q r := by
  induction h with
  | left h => exact hleft _ _ hs h
  | next h rest ih => exact ih (hturn _ _ hs h)

/-- A loop is left in one way only. -/
theorem EndsAfter.unique {n' : ℕ} {r' : ρ} (h : EndsAfter turn n s r)
    (h' : EndsAfter turn n' s r') : n = n' ∧ r = r' := by
  induction h generalizing n' with
  | left h =>
    cases h' with
    | left h' => exact ⟨rfl, Sum.inr.inj (h.symm.trans h')⟩
    | next h' _ => exact nomatch h.symm.trans h'
  | next h _ ih =>
    cases h' with
    | left h' => exact nomatch h.symm.trans h'
    | next h' rest' =>
      obtain rfl := Sum.inl.inj (h.symm.trans h')
      obtain ⟨rfl, rfl⟩ := ih rest'
      exact ⟨rfl, rfl⟩

/-- Fewer turns are left from a state that the loop comes to later. -/
theorem EndsAfter.of_visits (h : EndsAfter turn n s r) (hst : Visits turn s t) :
    ∃ m ≤ n, EndsAfter turn m t r := by
  induction hst with
  | refl => exact ⟨n, Nat.le_refl n, h⟩
  | tail _ hturn ih =>
    obtain ⟨m, hm, hrest⟩ := ih
    cases hrest with
    | left h => exact nomatch h.symm.trans hturn
    | next h rest =>
      obtain rfl := Sum.inl.inj (h.symm.trans hturn)
      exact ⟨_, by omega, rest⟩

/-- A loop that goes on from finitely many states only is left if and only if it never comes
back to a state. -/
theorem exists_endsAfter_iff (hfinite : {s | ∃ s', turn s = .inl s'}.Finite) :
    (∃ n r, EndsAfter turn n s r) ↔
      ∀ t, Visits turn s t → ¬Relation.TransGen (fun s s' => turn s = .inl s') t t := by
  constructor
  · rintro ⟨n, r, h⟩ t hst hback
    obtain ⟨m, -, hm⟩ := h.of_visits hst
    obtain ⟨t', hturn, hback⟩ := Relation.TransGen.head'_iff.mp hback
    cases hm with
    | left h => exact nomatch h.symm.trans hturn
    | next h rest =>
      obtain rfl := Sum.inl.inj (h.symm.trans hturn)
      obtain ⟨m', hm', hm''⟩ := rest.of_visits hback
      have hsame := (hm''.unique (.next h rest)).1
      omega
  · intro hnever
    -- the states that are still ahead get fewer
    have hahead (s) : ({t | Visits turn s t ∧ ∃ t', turn t = .inl t'}).Finite :=
      hfinite.subset fun t ht => ht.2
    have hturn (s s') (hs : ∀ t, Visits turn s t →
        ¬Relation.TransGen (fun s s' => turn s = .inl s') t t) (hturn : turn s = .inl s') :
        (∀ t, Visits turn s' t → ¬Relation.TransGen (fun s s' => turn s = .inl s') t t) ∧
          Set.ncard {t | Visits turn s' t ∧ ∃ t', turn t = .inl t'} <
            Set.ncard {t | Visits turn s t ∧ ∃ t', turn t = .inl t'} := by
      refine ⟨fun t ht => hs t (.head hturn ht), Set.ncard_lt_ncard ?_ (hahead s)⟩
      refine ⟨fun t ht => ⟨.head hturn ht.1, ht.2⟩, fun hsub => ?_⟩
      have hback := (hsub ⟨.refl, s', hturn⟩).1
      exact hs s .refl (.head' hturn hback)
    obtain ⟨n, -, r, h⟩ := exists_endsAfter hturn hnever
    exact ⟨n, r, h⟩

end Lib
