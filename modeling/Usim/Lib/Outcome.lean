import Mathlib.Logic.Basic
import Mathlib.Tactic.TypeStar

/-!
# Postconditions of stateful computations that can fail

A computation in `EStateM ε σ` keeps its state when it fails, so a failure can
still be inspected. `Post` is the weakest precondition of such a computation
for two postconditions, one for a returned value and one for a failure, and
the rules below unfold it along the structure of a program.
-/

namespace Lib

variable {ε σ α β : Type}

/-- Started in `s`, the computation `m` meets `Q` when it returns and `E` when
it fails. It is irreducible so that a statement about a computation on a
concrete state is not evaluated. -/
@[irreducible] def Post (m : EStateM ε σ α) (s : σ) (Q : α → σ → Prop) (E : ε → σ → Prop) : Prop :=
  match m s with
  | .ok a s' => Q a s'
  | .error e s' => E e s'

variable {Q : α → σ → Prop} {E : ε → σ → Prop} {s : σ}

/-- Returning a value establishes the postcondition on it. -/
@[simp] theorem post_pure (a : α) : Post (pure a) s Q E ↔ Q a s := by
  unfold Post
  exact Iff.rfl

/-- A sequence establishes `R` when its head leads to states from which the tail does. -/
@[simp] theorem post_bind {m : EStateM ε σ α} {f : α → EStateM ε σ β} {R : β → σ → Prop} :
    Post (m >>= f) s R E ↔ Post m s (fun a s' => Post (f a) s' R E) E := by
  unfold Post
  simp only [bind, EStateM.bind]
  cases m s <;> rfl

/-- Reading the state returns it and leaves it. -/
@[simp] theorem post_get {Q : σ → σ → Prop} :
    Post (get : EStateM ε σ σ) s Q E ↔ Q s s := by
  unfold Post
  exact Iff.rfl

/-- Updating the state establishes the postcondition on the updated state. -/
@[simp] theorem post_modify {f : σ → σ} {Q : Unit → σ → Prop} :
    Post (modify f : EStateM ε σ Unit) s Q E ↔ Q () (f s) := by
  unfold Post
  exact Iff.rfl

/-- Failing establishes the failure postcondition. -/
@[simp] theorem post_throw (e : ε) : Post (throw e : EStateM ε σ α) s Q E ↔ E e s := by
  unfold Post
  exact Iff.rfl

/-- A conditional establishes what the selected branch does. -/
theorem post_ite {c : Prop} [Decidable c] {m n : EStateM ε σ α} :
    Post (if c then m else n) s Q E ↔ (c → Post m s Q E) ∧ (¬c → Post n s Q E) := by
  split <;> simp_all

/-- Postconditions may be weakened. -/
theorem Post.mono {m : EStateM ε σ α} {Q' : α → σ → Prop} {E' : ε → σ → Prop}
    (h : Post m s Q E) (hQ : ∀ a s', Q a s' → Q' a s') (hE : ∀ e s', E e s' → E' e s') :
    Post m s Q' E' := by
  unfold Post at h ⊢
  cases hm : m s with
  | ok a s' => simp only [hm] at h; exact hQ a s' h
  | error e s' => simp only [hm] at h; exact hE e s' h

/-- Two postconditions of one computation hold together. -/
theorem Post.and {m : EStateM ε σ α} {Q' : α → σ → Prop} {E' : ε → σ → Prop}
    (h : Post m s Q E) (h' : Post m s Q' E') :
    Post m s (fun a t => Q a t ∧ Q' a t) (fun e t => E e t ∧ E' e t) := by
  unfold Post at h h' ⊢
  cases hm : m s <;> simp only [hm] at h h' ⊢ <;> exact ⟨h, h'⟩

/-- A sequence is established by a specification of its head and a proof about
its tail from every state the head can return in. -/
theorem Post.bind {m : EStateM ε σ α} {f : α → EStateM ε σ β} {R : β → σ → Prop}
    (h : Post m s Q E) (hf : ∀ a s', Q a s' → Post (f a) s' R E) : Post (m >>= f) s R E :=
  post_bind.mpr (h.mono hf fun _ _ h => h)

/-- The postcondition holds of the value and state of a computation that returned. -/
theorem Post.ok {m : EStateM ε σ α} (h : Post m s Q E) {a : α} {s' : σ} (hm : m s = .ok a s') :
    Q a s' := by
  unfold Post at h
  simpa only [hm] using h

/-- The failure postcondition holds of a computation that failed. -/
theorem Post.error {m : EStateM ε σ α} (h : Post m s Q E) {e : ε} {s' : σ}
    (hm : m s = .error e s') : E e s' := by
  unfold Post at h
  simpa only [hm] using h

/-- A computation meets every postcondition that its outcomes meet. -/
theorem post_iff {m : EStateM ε σ α} :
    Post m s Q E ↔ (∀ a s', m s = .ok a s' → Q a s') ∧ ∀ e s', m s = .error e s' → E e s' := by
  constructor
  · intro h
    exact ⟨fun _ _ hm => h.ok hm, fun _ _ hm => h.error hm⟩
  · rintro ⟨hQ, hE⟩
    unfold Post
    cases hm : m s with
    | ok a s' => exact hQ a s' hm
    | error e s' => exact hE e s' hm

/-- A computation meets postconditions that hold of everything. -/
theorem Post.always {m : EStateM ε σ α} (hQ : ∀ a s', Q a s') (hE : ∀ e s', E e s') :
    Post m s Q E :=
  post_iff.mpr ⟨fun a s' _ => hQ a s', fun e s' _ => hE e s'⟩

/-- A computation has the outcome that it has. -/
theorem Post.self (m : EStateM ε σ α) (s : σ) :
    Post m s (fun a t => m s = .ok a t) fun e t => m s = .error e t :=
  post_iff.mpr ⟨fun _ _ h => h, fun _ _ h => h⟩

/-- A computation that can only return one value in one state returns them. -/
theorem Post.eq_ok {m : EStateM ε σ α} {a : α} {t : σ}
    (h : Post m s (fun a' t' => a' = a ∧ t' = t) fun _ _ => False) : m s = .ok a t := by
  unfold Post at h
  cases hm : m s with
  | ok a' t' =>
    simp only [hm] at h
    rw [h.1, h.2]
  | error e t' =>
    simp only [hm] at h

/-- What `f` reads in the state in which a computation returns. -/
def returned {γ : Type} (f : σ → γ) : EStateM.Result ε σ α → Option γ
  | .ok _ s => some (f s)
  | .error _ _ => none

/-- A value is read in the state in which the computation returns. -/
theorem exists_of_returned {γ : Type} {f : σ → γ} {r : EStateM.Result ε σ α} {v : γ}
    (h : returned f r = some v) : ∃ a s, r = .ok a s ∧ f s = v := by
  cases r with
  | ok a s => exact ⟨a, s, rfl, Option.some.inj h⟩
  | error e s => cases h

/-- Lift a pure computation that can fail. -/
def fromExcept : Except ε α → EStateM ε σ α
  | .ok a => pure a
  | .error e => throw e

/-- A lifted value is returned. -/
@[simp] theorem fromExcept_ok (a : α) : (fromExcept (.ok a) : EStateM ε σ α) = pure a := rfl

/-- A lifted failure is thrown. -/
@[simp] theorem fromExcept_error (e : ε) :
    (fromExcept (.error e) : EStateM ε σ α) = throw e := rfl

/-- A lifted computation meets the postcondition of its own outcome, in an unchanged state. -/
@[simp] theorem post_fromExcept {x : Except ε α} :
    Post (fromExcept x) s Q E ↔ (∀ a, x = .ok a → Q a s) ∧ ∀ e, x = .error e → E e s := by
  cases x <;> simp [fromExcept]

/-- Run `m` only when `c` holds. -/
def doWhen (c : Prop) [Decidable c] (m : EStateM ε σ Unit) : EStateM ε σ Unit :=
  if c then m else pure ()

/-- A conditional command meets `Q` when both its outcomes do. -/
@[simp] theorem post_doWhen {c : Prop} [Decidable c] {m : EStateM ε σ Unit}
    {Q : Unit → σ → Prop} :
    Post (doWhen c m) s Q E ↔ (c → Post m s Q E) ∧ (¬c → Q () s) := by
  unfold doWhen
  rw [post_ite, post_pure]

end Lib
