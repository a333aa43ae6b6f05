import Usim.MachineControl
import Usim.Uexec.Fetch

/-!
# Invariants of runs

A property of the core that a fetch and each effect of a microinstruction keep
holds in every state that the machine reaches.
-/

namespace Usim

open Lib

variable {β : Type} {port : VmPort β} {P : Core → Prop}

/-- Effects in sequence keep what each of them keeps. -/
theorem reflTransGen_keeps {R : Core → Core → Prop} (hR : ∀ c c', R c c' → P c → P c') {c c' : Core}
    (h : Relation.ReflTransGen R c c') (hc : P c) : P c' := by
  induction h with
  | refl => exact hc
  | tail _ hr ih => exact hR _ _ hr ih

/-- A computation keeps what its effects keep, and fails on a core that has it. -/
theorem Moves.keeps {R : Core → Core → Prop} {α : Type} {s : Engine β} {m : Micro β α}
    (hm : Moves port R s m) (hR : ∀ c c', R c c' → P c → P c') (hs : P s.core) :
    Post m s (fun _ t => P t.core) fun e _ => ∃ c, P c ∧ Blame port e c := by
  refine Post.mono hm (fun _ t ht => reflTransGen_keeps hR ht hs) ?_
  rintro e _ ⟨c, hc, hblame⟩
  exact ⟨c, reflTransGen_keeps hR hc hs, hblame⟩

/-- An effect keeps what register effects keep, if it is not about the micro PC
and does not depend on returns. -/
theorem Effect.keeps (hregister : ∀ c c', RegisterEffect c c' → P c → P c')
    (hresume : ∀ c w, P c → P (c.observe (.resume w)))
    (hnpc : ∀ (c : Core) npc, P c → P { c with npc := npc }) {c c' : Core} (h : Effect c c')
    (hc : P c) : P c' := by
  cases h with
  | decrement => exact hnpc c _ hc
  | transfer h =>
    cases h with
    | register h => exact hregister c c' h hc
    | resume w => exact hresume c w hc
    | transfer => exact hnpc c _ hc

/-- A step keeps what a fetch and the effects keep. It fails in the fetch, or
on a core that still has the property. -/
theorem post_uexecStep_core (hfetch : ∀ c p0, P c → P (c.fetched p0))
    (heffect : ∀ c c', Effect c c' → P c → P c') {s : Engine β} (hs : P s.core) :
    Post (uexecStep port) s (fun _ t => P t.core)
      (fun e _ => s.nextWord = .error e ∨ ∃ c, P c ∧ Blame port e c) := by
  refine post_uexecStep.mpr ⟨fun p1 _ => ?_, fun e he => .inl he⟩
  cases s.inhibit with
  | true =>
    show P (s.skipped p1).core
    rw [s.core_skipped]
    exact hfetch _ _ hs
  | false =>
    have hissued : P (s.issued p1).core := by
      rw [s.core_issued]
      exact hfetch _ _ hs
    exact (moves_execute.keeps heffect hissued).mono (fun _ _ h => h) fun _ _ h => .inr h

/-- What power-on establishes and a fetch, the effects and a boot keep holds in
every reached state. -/
theorem Reached.core_induction {guard : Engine β → Prop} {t : Engine β}
    (ht : Reached port guard t)
    (hinit : ∀ prom imem (dev : β), P (machineControlBoot (powerOn prom imem dev)).core)
    (hboot : ∀ c, P c → P { c with npc := 0 })
    (hfetch : ∀ c p0, P c → P (c.fetched p0))
    (heffect : ∀ c c', Effect c c' → P c → P c') : P t.core :=
  ht.induction hinit (fun _ _ hs _ h => (post_uexecStep_core hfetch heffect hs).ok h)
    (fun s hs => hboot s.core hs) (fun _ _ hs => hs)

end Usim
