import Mathlib.Logic.Basic
import Mathlib.Tactic.TypeStar

/-!
# The latest entry of a history

A history lists operations, the newest first. What an operation contributes
may depend on the operations before it, so a contribution is computed from the
history that ends with the operation.
-/

namespace Lib

variable {ω ν : Type*}

/-- The contribution of the newest operation that makes one, and `d` when none does. -/
def latest (f : ω → List ω → Option ν) (d : ν) : List ω → ν
  | [] => d
  | o :: h => (f o h).getD (latest f d h)

variable {f : ω → List ω → Option ν} {d : ν} {o : ω} {h : List ω}

/-- Before all operations there is only the default. -/
@[simp] theorem latest_nil : latest f d [] = d := rfl

/-- The newest operation counts when it contributes. -/
theorem latest_cons_some {v : ν} (hv : f o h = some v) : latest f d (o :: h) = v := by
  rw [latest, hv, Option.getD_some]

/-- An operation that contributes nothing leaves the latest entry. -/
theorem latest_cons_none (hv : f o h = none) : latest f d (o :: h) = latest f d h := by
  rw [latest, hv, Option.getD_none]

/-- A conditional contribution replaces the latest entry under its condition. -/
theorem latest_cons_ite {c : Prop} [Decidable c] {v : ν} (hv : f o h = if c then some v else none) :
    latest f d (o :: h) = if c then v else latest f d h := by
  by_cases hc : c
  · rw [if_pos hc] at hv ⊢
    exact latest_cons_some hv
  · rw [if_neg hc] at hv ⊢
    exact latest_cons_none hv

end Lib
