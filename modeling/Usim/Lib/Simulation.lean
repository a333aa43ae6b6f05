import Mathlib.Order.Defs.Unbundled
import Usim.Lib.Outcome

/-!
# Two programs in step

Two stateful computations that can fail, on two kinds of states, agree when
they return the same value in related states or fail together. Some failures of
the first are excused: the second may then do anything. The rules below prove
agreement along the structure of two programs, and allow the first to do more,
on the condition that its final state is calm.
-/

namespace Lib

variable {ε δ σ τ α β : Type}

/-- The state in which a computation ends. -/
def finalState : EStateM.Result ε σ α → σ
  | .ok _ s => s
  | .error _ s => s

/-- Two outcomes agree: the same value in related states, or two failures. An
excused failure of the first agrees with everything. -/
def Agrees (R : σ → τ → Prop) (excused : ε → Prop) :
    EStateM.Result ε σ α → EStateM.Result δ τ α → Prop
  | .ok a s, .ok b t => a = b ∧ R s t
  | .ok _ _, .error _ _ => False
  | .error e _, .ok _ _ => excused e
  | .error _ _, .error _ _ => True

/-- From `s` and `t` the two computations agree, if the first ends calmly. -/
def Mirrors (R : σ → τ → Prop) (excused : ε → Prop) (calm : σ → Prop) (m : EStateM ε σ α)
    (m' : EStateM δ τ α) (s : σ) (t : τ) : Prop :=
  calm (finalState (m s)) → Agrees R excused (m s) (m' t)

variable {R : σ → τ → Prop} {excused : ε → Prop} {calm : σ → Prop} {s : σ} {t : τ}

/-- Returning the same value. -/
theorem mirrors_pure (a : α) (h : R s t) :
    Mirrors R excused calm (pure a) (pure a : EStateM δ τ α) s t :=
  fun _ => ⟨rfl, h⟩

/-- Returning equal values. -/
theorem mirrors_pure_eq {a b : α} (hab : a = b) (h : R s t) :
    Mirrors R excused calm (pure a) (pure b : EStateM δ τ α) s t :=
  fun _ => ⟨hab, h⟩

/-- Failing together. -/
theorem mirrors_throw (e : ε) (d : δ) :
    Mirrors R excused calm (throw e : EStateM ε σ α) (throw d : EStateM δ τ α) s t :=
  fun _ => trivial

/-- An excused failure. -/
theorem mirrors_excused {e : ε} (he : excused e) (m' : EStateM δ τ α) :
    Mirrors R excused calm (throw e : EStateM ε σ α) m' s t := by
  intro _
  show Agrees R excused (.error e s) (m' t)
  cases m' t with
  | ok => exact he
  | error => trivial

/-- The calm of the whole may be used in the proof of agreement. -/
theorem mirrors_of_calm {m : EStateM ε σ α} {m' : EStateM δ τ α}
    (h : calm (finalState (m s)) → Mirrors R excused calm m m' s t) :
    Mirrors R excused calm m m' s t :=
  fun hend => h hend hend

/-- Both read their states. -/
theorem mirrors_get {f : σ → EStateM ε σ α} {g : τ → EStateM δ τ α}
    (h : Mirrors R excused calm (f s) (g t) s t) :
    Mirrors R excused calm (get >>= f) (get >>= g) s t := h

/-- Both update their states. -/
theorem mirrors_modify {f : σ → σ} {g : τ → τ} (h : R (f s) (g t)) :
    Mirrors R excused calm (modify f) (modify g : EStateM δ τ Unit) s t :=
  fun _ => ⟨rfl, h⟩

/-- The first does something on its own. -/
theorem mirrors_left {m : EStateM ε σ β} {f : β → EStateM ε σ α} {m' : EStateM δ τ α} {b : β}
    {s' : σ} (hm : m s = .ok b s') (h : Mirrors R excused calm (f b) m' s' t) :
    Mirrors R excused calm (m >>= f) m' s t := by
  have hbind : (m >>= f) s = f b s' := by
    simp only [bind, EStateM.bind, hm]
  unfold Mirrors at h ⊢
  rwa [hbind]

/-- The second does something on its own. -/
theorem mirrors_right {m : EStateM ε σ α} {m' : EStateM δ τ β} {f : β → EStateM δ τ α} {b : β}
    {t' : τ} (hm : m' t = .ok b t') (h : Mirrors R excused calm m (f b) s t') :
    Mirrors R excused calm m (m' >>= f) s t := by
  have hbind : (m' >>= f) t = f b t' := by
    simp only [bind, EStateM.bind, hm]
  unfold Mirrors at h ⊢
  rwa [hbind]

/-- Both update their states and go on. -/
theorem mirrors_modify_bind {f : σ → σ} {g : τ → τ} {k : Unit → EStateM ε σ α}
    {k' : Unit → EStateM δ τ α} (h : Mirrors R excused calm (k ()) (k' ()) (f s) (g t)) :
    Mirrors R excused calm (modify f >>= k) (modify g >>= k') s t := h

/-- One after the other, if the first part ends as calmly as it needs to
whenever the whole ends calmly. -/
theorem mirrors_bind_of {calm₀ : σ → Prop} {m : EStateM ε σ β} {m' : EStateM δ τ β}
    {f : β → EStateM ε σ α} {f' : β → EStateM δ τ α} (hm : Mirrors R excused calm₀ m m' s t)
    (hok : ∀ b s', m s = .ok b s' → calm (finalState (f b s')) → calm₀ s')
    (herror : ∀ e s', m s = .error e s' → calm s' → calm₀ s')
    (hf : ∀ b s' t', m s = .ok b s' → R s' t' → Mirrors R excused calm (f b) (f' b) s' t') :
    Mirrors R excused calm (m >>= f) (m' >>= f') s t := by
  unfold Mirrors at hm ⊢
  simp only [bind, EStateM.bind]
  cases hs : m s with
  | ok b s' =>
    intro hend
    rw [hs] at hm
    have hfirst := hm (hok b s' hs hend)
    cases ht : m' t with
    | ok b' t' =>
      rw [ht] at hfirst
      obtain ⟨rfl, hR⟩ := hfirst
      exact hf b s' t' hs hR hend
    | error d t' =>
      rw [ht] at hfirst
      exact hfirst.elim
  | error e s' =>
    intro hend
    rw [hs] at hm
    have hfirst := hm (herror e s' hs hend)
    cases ht : m' t with
    | ok b' t' =>
      rw [ht] at hfirst
      show Agrees R excused (.error e s') (f' b' t')
      cases f' b' t' with
      | ok => exact hfirst
      | error => trivial
    | error d t' => trivial

/-- One after the other, when the first part agrees in any case and returns. -/
theorem mirrors_bind_ok {m : EStateM ε σ β} {m' : EStateM δ τ β} {f : β → EStateM ε σ α}
    {f' : β → EStateM δ τ α} (hm : Mirrors R excused (fun _ => True) m m' s t)
    (hf : ∀ b s' t', m s = .ok b s' → R s' t' → Mirrors R excused calm (f b) (f' b) s' t') :
    Mirrors R excused calm (m >>= f) (m' >>= f') s t :=
  mirrors_bind_of hm (fun _ _ _ _ => trivial) (fun _ _ _ _ => trivial) hf

/-- One after the other, when the first part agrees in any case. -/
theorem mirrors_bind_calm {m : EStateM ε σ β} {m' : EStateM δ τ β} {f : β → EStateM ε σ α}
    {f' : β → EStateM δ τ α} (hm : Mirrors R excused (fun _ => True) m m' s t)
    (hf : ∀ b s' t', R s' t' → Mirrors R excused calm (f b) (f' b) s' t') :
    Mirrors R excused calm (m >>= f) (m' >>= f') s t :=
  mirrors_bind_ok hm fun b s' t' _ => hf b s' t'

/-- The same condition selects the branch. -/
theorem mirrors_ite {c c' : Prop} [Decidable c] [Decidable c'] {m n : EStateM ε σ α}
    {m' n' : EStateM δ τ α} (hc : c ↔ c') (hm : c → Mirrors R excused calm m m' s t)
    (hn : ¬c → Mirrors R excused calm n n' s t) :
    Mirrors R excused calm (if c then m else n) (if c' then m' else n') s t := by
  by_cases h : c
  · rw [if_pos h, if_pos (hc.mp h)]
    exact hm h
  · rw [if_neg h, if_neg (fun h' => h (hc.mpr h'))]
    exact hn h

/-- The same condition selects a command. -/
theorem mirrors_doWhen {c c' : Prop} [Decidable c] [Decidable c'] {m : EStateM ε σ Unit}
    {m' : EStateM δ τ Unit} (hc : c ↔ c') (hm : c → Mirrors R excused calm m m' s t)
    (hR : R s t) : Mirrors R excused calm (doWhen c m) (doWhen c' m') s t :=
  mirrors_ite hc hm fun _ => mirrors_pure () hR

/-- The same condition selects an update, before both go on. -/
theorem mirrors_doWhen_modify_bind {c c' : Prop} [Decidable c] [Decidable c'] {f : σ → σ}
    {g : τ → τ} {k : Unit → EStateM ε σ α} {k' : Unit → EStateM δ τ α} (hc : c ↔ c')
    (h : ∀ s' t', s' = f s ∧ t' = g t ∨ s' = s ∧ t' = t →
      Mirrors R excused calm (k ()) (k' ()) s' t') :
    Mirrors R excused calm (doWhen c (modify f) >>= k) (doWhen c' (modify g) >>= k') s t := by
  unfold doWhen
  by_cases hcond : c
  · rw [if_pos hcond, if_pos (hc.mp hcond)]
    exact h _ _ (.inl ⟨rfl, rfl⟩)
  · rw [if_neg hcond, if_neg (fun h' => hcond (hc.mpr h'))]
    exact h _ _ (.inr ⟨rfl, rfl⟩)

/-- An update of the first is a conditional update of the second. -/
theorem mirrors_modify_doWhen {c' : Prop} [Decidable c'] {f : σ → σ} {g : τ → τ}
    (h : c' → R (f s) (g t)) (h' : ¬c' → R (f s) t) :
    Mirrors R excused calm (modify f) (doWhen c' (modify g) : EStateM δ τ Unit) s t := by
  unfold doWhen
  by_cases hcond : c'
  · rw [if_pos hcond]
    exact mirrors_modify (h hcond)
  · rw [if_neg hcond]
    exact fun _ => ⟨rfl, h' hcond⟩

/-- The state only moves on along `L`, whether the computation returns or fails. -/
def Along (L : σ → σ → Prop) (m : EStateM ε σ α) : Prop := ∀ s, L s (finalState (m s))

/-- The state in which a computation returns. -/
theorem Along.of_ok {L : σ → σ → Prop} {m : EStateM ε σ α} (h : Along L m) {a : α} {s' : σ}
    (hm : m s = .ok a s') : L s s' := by
  have hfinal := h s
  rwa [hm] at hfinal

/-- One after the other, if what follows the first part only moves on, and what
ends calmly was calm before. -/
theorem mirrors_bind_along {L : σ → σ → Prop} {m : EStateM ε σ β} {m' : EStateM δ τ β}
    {f : β → EStateM ε σ α} {f' : β → EStateM δ τ α} (hm : Mirrors R excused calm m m' s t)
    (hcalm : ∀ s s', L s s' → calm s' → calm s) (halong : ∀ b, Along L (f b))
    (hf : ∀ b s' t', m s = .ok b s' → R s' t' → Mirrors R excused calm (f b) (f' b) s' t') :
    Mirrors R excused calm (m >>= f) (m' >>= f') s t :=
  mirrors_bind_of hm (fun b s' _ hend => hcalm s' _ (halong b s') hend) (fun _ _ _ h => h) hf

variable {L : σ → σ → Prop}

/-- Reading the state. -/
theorem along_get {f : σ → EStateM ε σ α} (h : ∀ s, Along L (f s)) : Along L (get >>= f) :=
  fun s => h s s

/-- Updating the state. -/
theorem along_modify {f : σ → σ} (h : ∀ s, L s (f s)) :
    Along L (modify f : EStateM ε σ Unit) := h

/-- A conditional. -/
theorem along_ite {c : Prop} [Decidable c] {m n : EStateM ε σ α} (hm : Along L m)
    (hn : Along L n) : Along L (if c then m else n) := by
  split
  · exact hm
  · exact hn

variable [IsPreorder σ L]

/-- Returning a value. -/
theorem along_pure (a : α) : Along L (pure a : EStateM ε σ α) := fun s => refl_of L s

/-- Failing. -/
theorem along_throw (e : ε) : Along L (throw e : EStateM ε σ α) := fun s => refl_of L s

/-- Lifting a pure computation. -/
theorem along_fromExcept (x : Except ε α) : Along L (fromExcept x : EStateM ε σ α) := by
  cases x with
  | ok a => exact along_pure a
  | error e => exact along_throw e

/-- One after the other. -/
theorem along_bind {m : EStateM ε σ β} {f : β → EStateM ε σ α} (hm : Along L m)
    (hf : ∀ b, Along L (f b)) : Along L (m >>= f) := by
  intro s
  have hfirst := hm s
  simp only [bind, EStateM.bind]
  cases hs : m s with
  | ok b s' =>
    rw [hs] at hfirst
    exact trans_of L hfirst (hf b s')
  | error e s' =>
    rw [hs] at hfirst
    exact hfirst

/-- Running a command under a condition. -/
theorem along_doWhen {c : Prop} [Decidable c] {m : EStateM ε σ Unit} (h : Along L m) :
    Along L (doWhen c m) :=
  along_ite h (along_pure ())

/-- Two outcomes of pure computations agree: related values, or two failures. -/
def AgreesUpTo {γ : Type} (S : α → γ → Prop) : Except ε α → Except δ γ → Prop
  | .ok a, .ok c => S a c
  | .error _, .error _ => True
  | _, _ => False

/-- The two ways to agree. -/
theorem AgreesUpTo.cases {γ : Type} {S : α → γ → Prop} {x : Except ε α} {y : Except δ γ}
    (h : AgreesUpTo S x y) :
    (∃ a c, x = .ok a ∧ y = .ok c ∧ S a c) ∨ ∃ e d, x = .error e ∧ y = .error d := by
  cases x with
  | ok a =>
    cases y with
    | ok c => exact .inl ⟨a, c, rfl, rfl, h⟩
    | error d => exact h.elim
  | error e =>
    cases y with
    | ok c => exact h.elim
    | error d => exact .inr ⟨e, d, rfl, rfl⟩

/-- What the two computations return may be mapped. -/
theorem agreesUpTo_map {γ α' γ' : Type} {S : α' → γ' → Prop} {f : α → α'} {g : γ → γ'}
    {x : Except ε α} {y : Except δ γ} :
    AgreesUpTo S (x.map f) (y.map g) ↔ AgreesUpTo (fun a c => S (f a) (g c)) x y := by
  cases x <;> cases y <;> exact Iff.rfl

/-- The relation may be weakened. -/
theorem AgreesUpTo.mono {γ : Type} {S T : α → γ → Prop} {x : Except ε α} {y : Except δ γ}
    (h : AgreesUpTo S x y) (hST : ∀ a c, S a c → T a c) : AgreesUpTo T x y := by
  rcases h.cases with ⟨a, c, rfl, rfl, hS⟩ | ⟨e, d, rfl, rfl⟩
  · exact hST a c hS
  · trivial

end Lib
