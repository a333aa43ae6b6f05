import Mathlib.Algebra.Group.Fin.Basic
import Mathlib.Algebra.GroupWithZero.Nat
import Mathlib.Logic.Function.Basic

/-!
# Stacks in a ring

A stack kept in a ring of `n` cells never overflows: a push beyond the last
cell overwrites the oldest entry. Its pushes and pops behave as those of a
stack as long as they are balanced and nested less deeply than the ring is long.
-/

namespace Lib

/-- A stack in a ring of `n` cells. -/
structure RingStack (n : ℕ) (α : Type) where
  /-- The cell of the last entry. -/
  ptr : Fin n
  /-- The cells. -/
  cell : Fin n → α

/-- An operation on a stack. -/
inductive StackOp (α : Type)
  | push (a : α)
  | pop

namespace RingStack

variable {n : ℕ} [NeZero n] {α : Type}

/-- The last entry. -/
def top (r : RingStack n α) : α := r.cell r.ptr

/-- The ring after a push. -/
def push (r : RingStack n α) (a : α) : RingStack n α :=
  ⟨r.ptr + 1, Function.update r.cell (r.ptr + 1) a⟩

/-- The ring after a pop. -/
def pop (r : RingStack n α) : RingStack n α := ⟨r.ptr - 1, r.cell⟩

/-- The ring after an operation. -/
def apply (r : RingStack n α) : StackOp α → RingStack n α
  | .push a => r.push a
  | .pop => r.pop

/-- The ring after a list of operations. -/
def run (r : RingStack n α) (ops : List (StackOp α)) : RingStack n α := ops.foldl apply r

@[simp] theorem run_nil (r : RingStack n α) : r.run [] = r := rfl

@[simp] theorem run_cons (r : RingStack n α) (op : StackOp α) (ops : List (StackOp α)) :
    r.run (op :: ops) = (r.apply op).run ops := rfl

/-- Running one list of operations after another. -/
theorem run_append (r : RingStack n α) (ops ops' : List (StackOp α)) :
    r.run (ops ++ ops') = (r.run ops).run ops' := List.foldl_append

/-- What was pushed is on top. -/
theorem top_push (r : RingStack n α) (a : α) : (r.push a).top = a := Function.update_self _ _ _

end RingStack

variable {α : Type}

/-- How deep a list of operations leads from the depth `d`, if it never pops
below the start and never nests more than `limit` entries. -/
def depthAfter (limit : ℕ) : ℕ → List (StackOp α) → Option ℕ
  | d, [] => some d
  | d, .push _ :: ops => if d < limit then depthAfter limit (d + 1) ops else none
  | 0, .pop :: _ => none
  | d + 1, .pop :: ops => depthAfter limit d ops

/-- A list of operations that nests at most `limit` entries and pops all of them. -/
def BalancedWithin (limit : ℕ) (ops : List (StackOp α)) : Prop := depthAfter limit 0 ops = some 0

instance (limit : ℕ) (ops : List (StackOp α)) : Decidable (BalancedWithin limit ops) :=
  inferInstanceAs (Decidable (_ = _))

namespace RingStack

variable {n : ℕ} [NeZero n]

/-- The number of a cell one above another. -/
theorem ofNat_succ (d : ℕ) : Fin.ofNat n (d + 1) = Fin.ofNat n d + 1 := by
  apply Fin.ext
  rw [Fin.val_add]
  show (d + 1) % n = (d % n + 1 % n) % n
  exact Nat.add_mod d 1 n

/-- A cell above the base, less than a round away, is not the base. -/
theorem add_ofNat_ne {base : Fin n} {d : ℕ} (hpos : 0 < d) (hlt : d < n) :
    base + Fin.ofNat n d ≠ base := by
  intro h
  have hzero : Fin.ofNat n d = 0 := add_eq_left.mp h
  have hval : d % n = 0 := congrArg Fin.val hzero
  rw [Nat.mod_eq_of_lt hlt] at hval
  omega

/-- Operations that stay above a base, less than a round away, leave its cell
and move the pointer as they nest. -/
theorem run_above {limit : ℕ} (hlimit : limit < n) {base : Fin n} (ops : List (StackOp α)) :
    ∀ {d d' : ℕ} {r : RingStack n α}, depthAfter limit d ops = some d' →
      r.ptr = base + Fin.ofNat n d →
      (r.run ops).ptr = base + Fin.ofNat n d' ∧ (r.run ops).cell base = r.cell base := by
  induction ops with
  | nil =>
    intro d d' r hdepth hptr
    obtain rfl := Option.some.inj hdepth
    exact ⟨hptr, rfl⟩
  | cons op ops ih =>
    intro d d' r hdepth hptr
    cases op with
    | push a =>
      rw [depthAfter] at hdepth
      split at hdepth
      · rename_i hroom
        have habove : r.ptr + 1 = base + Fin.ofNat n (d + 1) := by
          rw [hptr, ofNat_succ, add_assoc]
        obtain ⟨hptr', hcell⟩ := ih (r := r.push a) hdepth habove
        refine ⟨hptr', hcell.trans ?_⟩
        have hne : base ≠ r.ptr + 1 := by
          rw [habove]
          exact (add_ofNat_ne (Nat.succ_pos d) (by omega)).symm
        exact Function.update_of_ne hne _ _
      · cases hdepth
    | pop =>
      cases d with
      | zero => cases hdepth
      | succ d =>
        have hbelow : r.ptr - 1 = base + Fin.ofNat n d := by
          rw [hptr, ofNat_succ, ← add_assoc, add_sub_cancel_right]
        exact ih (r := r.pop) hdepth hbelow

/-- After balanced operations the top is what it was. -/
theorem top_run_balanced {limit : ℕ} (hlimit : limit < n) {ops : List (StackOp α)}
    (h : BalancedWithin limit ops) (r : RingStack n α) : (r.run ops).top = r.top := by
  have hbase : r.ptr = r.ptr + Fin.ofNat n 0 := (add_zero r.ptr).symm
  obtain ⟨hptr, hcell⟩ := run_above hlimit ops h hbase
  rw [top, hptr, ← hbase]
  exact hcell

end RingStack

end Lib
