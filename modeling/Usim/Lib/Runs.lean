import Mathlib.Logic.Basic
import Mathlib.Tactic.TypeStar

/-!
# Runs over a list of events

An event takes a state to the next one, or fails, which ends the run. A property
of all states of a run is compared with a condition on its steps.
-/

namespace Lib

variable {ε ω σ : Type*} (step : ω → σ → Except ε σ)

/-- `P` holds in every state of the run from `s`. -/
def Always (P : σ → Prop) : List ω → σ → Prop
  | [], s => P s
  | e :: es, s => P s ∧ ∀ s', step e s = .ok s' → Always P es s'

/-- Every step of the run from `s` that does not fail meets `C`, a condition on
the event and the state before it. -/
def EveryStep (C : ω → σ → Prop) : List ω → σ → Prop
  | [], _ => True
  | e :: es, s => ∀ s', step e s = .ok s' → C e s ∧ EveryStep C es s'

/-- No step of the run from `s` fails. -/
def Completes : List ω → σ → Prop
  | [], _ => True
  | e :: es, s => ∃ s', step e s = .ok s' ∧ Completes es s'

/-- Every step that the run from `s` comes to meets `C`, the one that fails included. -/
def EveryAttempt (C : ω → σ → Prop) : List ω → σ → Prop
  | [], _ => True
  | e :: es, s => C e s ∧ ∀ s', step e s = .ok s' → EveryAttempt C es s'

/-- Every step that the runs from `s` come to meets `C`, the ones that fail included. A step is
given a value that neither the event nor the state determines, and may be given another one
each time. -/
def EveryOutcome {γ : Type*} (step : γ → ω → σ → Except ε σ) (C : γ → ω → σ → Prop) :
    List ω → σ → Prop
  | [], _ => True
  | e :: es, s => ∀ g, C g e s ∧ ∀ s', step g e s = .ok s' → EveryOutcome step C es s'

variable {step} {P Q : σ → Prop} {C : ω → σ → Prop} {es : List ω} {s : σ}

/-- A mapped computation that returns. -/
theorem exists_of_map_eq_ok {α β : Type*} {x : Except ε α} {f : α → β} {r : β}
    (h : x.map f = .ok r) : ∃ a, x = .ok a ∧ r = f a := by
  cases x with
  | ok a => exact ⟨a, rfl, (Except.ok.inj h).symm⟩
  | error e => cases h

/-- Two computations that both return. -/
theorem exists_of_bind_eq_ok {α β : Type _} {x : Except ε α} {f : α → Except ε β} {r : β}
    (h : x >>= f = .ok r) : ∃ a, x = .ok a ∧ f a = .ok r := by
  cases x with
  | ok a => exact ⟨a, rfl, h⟩
  | error e => cases h

/-- A computation that goes on from one that returns. -/
theorem bind_eq_ok {α β : Type _} {x : Except ε α} {f : α → Except ε β} {a : α} {r : β}
    (h : x = .ok a) (hf : f a = .ok r) : x >>= f = .ok r := by
  rw [h]
  exact hf

/-- What every turn of a loop keeps holds after the loop. -/
theorem of_foldlM_eq_ok {f : σ → ω → Except ε σ}
    (hstep : ∀ e ∈ es, ∀ s s', P s → f s e = .ok s' → P s') (hs : P s) {s' : σ}
    (h : es.foldlM f s = .ok s') : P s' := by
  induction es generalizing s with
  | nil => cases h; exact hs
  | cons e es ih =>
    rw [List.foldlM_cons] at h
    obtain ⟨s₁, hs₁, hrest⟩ := exists_of_bind_eq_ok h
    exact ih (fun e' he' => hstep e' (List.mem_cons_of_mem e he'))
      (hstep e List.mem_cons_self s s₁ hs hs₁) hrest

/-- The property holds at the start. -/
theorem Always.head (h : Always step P es s) : P s := by
  cases es with
  | nil => exact h
  | cons e es => exact h.1

/-- A weaker property holds too. -/
theorem Always.mono (h : Always step P es s) (hPQ : ∀ s, P s → Q s) : Always step Q es s := by
  induction es generalizing s with
  | nil => exact hPQ s h
  | cons e es ih => exact ⟨hPQ s h.1, fun s' he => ih (h.2 s' he)⟩

/-- A condition that a kept invariant implies is met by every step. -/
theorem everyStep_of_step {I : σ → Prop} (hstep : ∀ e s s', I s → step e s = .ok s' → I s')
    (hC : ∀ e s s', I s → step e s = .ok s' → C e s) (hs : I s) : EveryStep step C es s := by
  induction es generalizing s with
  | nil => trivial
  | cons e es ih => exact fun s' he => ⟨hC e s s' hs he, ih (hstep e s s' hs he)⟩

/-- A condition that always holds. -/
theorem everyAttempt_of_forall (h : ∀ e s, C e s) : EveryAttempt step C es s := by
  induction es generalizing s with
  | nil => trivial
  | cons e es ih => exact ⟨h e s, fun _ _ => ih⟩

/-- A condition on the events alone. -/
theorem everyAttempt_of_forall_mem {E : ω → Prop} (h : ∀ e ∈ es, E e) :
    EveryAttempt step (fun e _ => E e) es s := by
  induction es generalizing s with
  | nil => trivial
  | cons e es ih =>
    exact ⟨h e List.mem_cons_self, fun _ _ => ih fun e he => h e (List.mem_cons_of_mem _ he)⟩

/-- Every step meets a second condition, which follows from the first one where an invariant
holds that this keeps. -/
theorem EveryStep.of_step {I : σ → Prop} {D : ω → σ → Prop} (h : EveryStep step C es s)
    (hkeep : ∀ e s s', I s → step e s = .ok s' → C e s → I s')
    (hCD : ∀ e s s', I s → step e s = .ok s' → C e s → D e s) (hs : I s) :
    EveryStep step D es s := by
  induction es generalizing s with
  | nil => trivial
  | cons e es ih =>
    intro s' he
    obtain ⟨hC, htail⟩ := h s' he
    exact ⟨hCD e s s' hs he hC, ih htail (hkeep e s s' hs he hC)⟩

/-- A property that every step with `E` keeps holds in every state of the runs whose steps all
meet `E`. -/
theorem always_of_everyAttempt {E : ω → σ → Prop}
    (hstep : ∀ e s s', E e s → P s → step e s = .ok s' → P s') (hE : EveryAttempt step E es s)
    (hs : P s) : Always step P es s := by
  induction es generalizing s with
  | nil => exact hs
  | cons e es ih => exact ⟨hs, fun s' he => ih (hE.2 s' he) (hstep e s s' hE.1 hs he)⟩

/-- A property that every step keeps holds in every state. -/
theorem always_of_step (hstep : ∀ e s s', P s → step e s = .ok s' → P s') (hs : P s) :
    Always step P es s :=
  always_of_everyAttempt (E := fun _ _ => True) (fun e s s' _ => hstep e s s')
    (everyAttempt_of_forall fun _ _ => trivial) hs

/-- Among the runs whose steps all meet `E`, a property holds in every state of exactly those
whose steps all meet `C`, if `C` keeps an invariant that implies it, and no other step leads
to it. -/
theorem always_iff_everyStep_of_everyAttempt {I : σ → Prop} {E : ω → σ → Prop}
    (hI : ∀ s, I s → P s)
    (hkeep : ∀ e s s', E e s → I s → step e s = .ok s' → C e s → I s')
    (hbreak : ∀ e s s', E e s → I s → step e s = .ok s' → P s' → C e s)
    (hE : EveryAttempt step E es s) (hs : I s) :
    Always step P es s ↔ EveryStep step C es s := by
  induction es generalizing s with
  | nil => exact ⟨fun _ => trivial, fun _ => hI s hs⟩
  | cons e es ih =>
    constructor
    · intro h s' he
      have hC := hbreak e s s' hE.1 hs he (h.2 s' he).head
      exact ⟨hC, (ih (hE.2 s' he) (hkeep e s s' hE.1 hs he hC)).mp (h.2 s' he)⟩
    · intro h
      refine ⟨hI s hs, fun s' he => ?_⟩
      obtain ⟨hC, htail⟩ := h s' he
      exact (ih (hE.2 s' he) (hkeep e s s' hE.1 hs he hC)).mpr htail

/-- A property holds in every state of exactly those runs whose steps all meet `C`,
if `C` keeps an invariant that implies it, and no other step leads to it. -/
theorem always_iff_everyStep {I : σ → Prop} (hI : ∀ s, I s → P s)
    (hkeep : ∀ e s s', I s → step e s = .ok s' → C e s → I s')
    (hbreak : ∀ e s s', I s → step e s = .ok s' → P s' → C e s) (hs : I s) :
    Always step P es s ↔ EveryStep step C es s :=
  always_iff_everyStep_of_everyAttempt hI (fun e s s' _ => hkeep e s s')
    (fun e s s' _ => hbreak e s s')
    (everyAttempt_of_forall (C := fun _ _ => True) fun _ _ => trivial) hs

/-- Two conditions are met by all steps of the same runs over events of a kind, if they agree
on the states of an invariant that one of them keeps. -/
theorem everyStep_iff_of_forall {E : ω → Prop} {I : σ → Prop} {D : ω → σ → Prop}
    (hDC : ∀ e s s', E e → I s → step e s = .ok s' → (D e s ↔ C e s))
    (hkeep : ∀ e s s', E e → I s → step e s = .ok s' → C e s → I s') (hes : ∀ e ∈ es, E e)
    (hs : I s) : EveryStep step D es s ↔ EveryStep step C es s := by
  induction es generalizing s with
  | nil => exact Iff.rfl
  | cons e es ih =>
    have hE := hes e List.mem_cons_self
    have hrest : ∀ e ∈ es, E e := fun e' he' => hes e' (List.mem_cons_of_mem e he')
    constructor
    · intro h s' he
      obtain ⟨hD, htail⟩ := h s' he
      have hC := (hDC e s s' hE hs he).mp hD
      exact ⟨hC, (ih hrest (hkeep e s s' hE hs he hC)).mp htail⟩
    · intro h s' he
      obtain ⟨hC, htail⟩ := h s' he
      exact ⟨(hDC e s s' hE hs he).mpr hC, (ih hrest (hkeep e s s' hE hs he hC)).mpr htail⟩

/-- Two conditions are met by all steps of the same runs, if they agree on the states of an
invariant that one of them keeps. -/
theorem everyStep_iff {I : σ → Prop} {D : ω → σ → Prop}
    (hDC : ∀ e s s', I s → step e s = .ok s' → (D e s ↔ C e s))
    (hkeep : ∀ e s s', I s → step e s = .ok s' → C e s → I s') (hs : I s) :
    EveryStep step D es s ↔ EveryStep step C es s :=
  everyStep_iff_of_forall (E := fun _ => True) (fun e s s' _ => hDC e s s')
    (fun e s s' _ => hkeep e s s') (fun _ _ => trivial) hs

/-- A condition on the values that are not determined is met by all steps of the same runs as one
on the events and the states, if they agree on the states of an invariant that this keeps. -/
theorem everyOutcome_iff {γ : Type*} [Nonempty γ] {step : γ → ω → σ → Except ε σ} {I : σ → Prop}
    {D : γ → ω → σ → Prop} (hDC : ∀ e s, I s → ((∀ g, D g e s) ↔ C e s))
    (hkeep : ∀ g e s s', I s → step g e s = .ok s' → C e s → I s') (hs : I s) :
    EveryOutcome step D es s ↔ EveryOutcome step (fun _ => C) es s := by
  induction es generalizing s with
  | nil => exact Iff.rfl
  | cons e es ih =>
    constructor
    · intro h g
      have hC := (hDC e s hs).mp fun g => (h g).1
      exact ⟨hC, fun s' he => (ih (hkeep g e s s' hs he hC)).mp ((h g).2 s' he)⟩
    · intro h g
      have hC := (h g).1
      refine ⟨(hDC e s hs).mpr hC g, fun s' he => ?_⟩
      exact (ih (hkeep g e s s' hs he hC)).mpr ((h g).2 s' he)

/-- A condition on the events alone, where no step fails. -/
theorem everyStep_iff_forall_mem {E : ω → Prop} (htotal : ∀ e s, ∃ s', step e s = .ok s') :
    EveryStep step (fun e _ => E e) es s ↔ ∀ e ∈ es, E e := by
  induction es generalizing s with
  | nil => exact ⟨fun _ _ he => (nomatch he), fun _ => trivial⟩
  | cons e es ih =>
    rw [List.forall_mem_cons]
    constructor
    · intro h
      obtain ⟨s', hs'⟩ := htotal e s
      exact ⟨(h s' hs').1, ih.mp (h s' hs').2⟩
    · exact fun h s' hs' => ⟨h.1, ih.mpr h.2⟩

/-- A run completes if and only if every step it comes to meets the condition under which
a step does not fail. -/
theorem completes_iff_everyAttempt (h : ∀ e s, (∃ s', step e s = .ok s') ↔ C e s) :
    Completes step es s ↔ EveryAttempt step C es s := by
  induction es generalizing s with
  | nil => exact Iff.rfl
  | cons e es ih =>
    constructor
    · rintro ⟨s', hs', hc⟩
      refine ⟨(h e s).mp ⟨s', hs'⟩, fun s'' hs'' => ?_⟩
      obtain rfl := Except.ok.inj (hs'.symm.trans hs'')
      exact ih.mp hc
    · rintro ⟨hC, hall⟩
      obtain ⟨s', hs'⟩ := (h e s).mpr hC
      exact ⟨s', hs', ih.mpr (hall s' hs')⟩

end Lib
