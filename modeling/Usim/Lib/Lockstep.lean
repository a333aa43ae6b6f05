import Usim.Lib.Runs
import Usim.Lib.Simulation

/-!
# Two devices under the same requests

A request takes a device to an answer and its next state, or fails. Two devices
stay in lockstep if they answer every request alike, fail together, and are in
related states all the time.
-/

namespace Lib

variable {ε δ ρ σ τ : Type} {ω : Type*} (step : ω → σ → Except ε (ρ × σ))
  (step' : ω → τ → Except δ (ρ × τ)) (R : σ → τ → Prop)

/-- The two devices answer `e` alike and are in related states afterwards. -/
def AgreeOn (e : ω) (s : σ) (t : τ) : Prop :=
  AgreesUpTo (fun r r' => r.1 = r'.1 ∧ R r.2 r'.2) (step e s) (step' e t)

/-- The two devices are in lockstep on a list of requests. -/
def Lockstep : List ω → σ → τ → Prop
  | [], s, t => R s t
  | e :: es, s, t => R s t ∧
      AgreesUpTo (fun r r' => r.1 = r'.1 ∧ Lockstep es r.2 r'.2) (step e s) (step' e t)

variable {step step' R} {C : ω → σ → Prop} {es : List ω} {s : σ} {t : τ}

/-- The states are related at the start. -/
theorem Lockstep.head (h : Lockstep step step' R es s t) : R s t := by
  cases es with
  | nil => exact h
  | cons e es => exact h.1

/-- The devices are in lockstep on exactly those lists whose requests all meet `C`,
if related devices agree on exactly the requests that meet `C`, where the first
device does not fail. -/
theorem lockstep_iff_everyStep
    (hagree : ∀ e s t, R s t → (AgreeOn step step' R e s t ↔ ∀ r, step e s = .ok r → C e s))
    (h : R s t) :
    Lockstep step step' R es s t ↔ EveryStep (fun e s => (step e s).map Prod.snd) C es s := by
  induction es generalizing s t with
  | nil => exact ⟨fun _ => trivial, fun _ => h⟩
  | cons e es ih =>
    constructor
    · rintro ⟨-, hstep⟩ s' he
      replace he : (step e s).map Prod.snd = .ok s' := he
      have hfirst := (hagree e s t h).mp (hstep.mono fun _ _ hr => ⟨hr.1, hr.2.head⟩)
      rcases hstep.cases with ⟨r, r', hr, -, -, htail⟩ | ⟨_, _, hr, -⟩
      · rw [hr] at he
        cases he
        exact ⟨hfirst r hr, (ih htail.head).mp htail⟩
      · rw [hr] at he
        cases he
    · intro hsteps
      have hfirst : AgreeOn step step' R e s t :=
        (hagree e s t h).mpr fun r hr => (hsteps r.2 (congrArg (Except.map Prod.snd) hr)).1
      rcases hfirst.cases with ⟨r, r', hr, hr', hvalue, hR⟩ | ⟨_, _, hr, hr'⟩
      · have htail := (hsteps r.2 (congrArg (Except.map Prod.snd) hr)).2
        refine ⟨h, ?_⟩
        rw [hr, hr']
        exact ⟨hvalue, (ih hR).mpr htail⟩
      · refine ⟨h, ?_⟩
        rw [hr, hr']
        trivial

/-- The devices are in lockstep on every list whose requests meet `C`, if related devices
agree on these. -/
theorem lockstep_of_everyAttempt (hagree : ∀ e s t, R s t → C e s → AgreeOn step step' R e s t)
    (h : R s t) (hall : EveryAttempt (fun e s => (step e s).map Prod.snd) C es s) :
    Lockstep step step' R es s t := by
  induction es generalizing s t with
  | nil => exact h
  | cons e es ih =>
    refine ⟨h, ?_⟩
    rcases (hagree e s t h hall.1).cases with ⟨r, r', hr, hr', hvalue, hR⟩ | ⟨_, _, hr, hr'⟩
    · rw [hr, hr']
      exact ⟨hvalue, ih hR (hall.2 r.2 (congrArg (Except.map Prod.snd) hr))⟩
    · rw [hr, hr']
      trivial

end Lib
