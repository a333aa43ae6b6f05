import Usim.Invariants
import Usim.Lib.RingStack

/-!
# The micro stack

The micro stack is a stack in a ring of 32 cells: its pushes and pops are those
that a run observes, and what a run pops is what is on top.
-/

namespace Usim

open Lib

variable {β : Type} {port : VmPort β}

/-- The micro stack as a stack in a ring. -/
def Core.stack (c : Core) : RingStack 32 Word := ⟨ringIndex c.spcptr, c.spc⟩

/-- The operation on the micro stack that an observation reports. -/
def Event.stackOp? : Event → Option (StackOp Word)
  | .push w => some (.push w)
  | .pop _ => some .pop
  | _ => none

/-- The operations on the micro stack that a list of observations reports. -/
def stackOps (events : List Event) : List (StackOp Word) := events.filterMap Event.stackOp?

/-- Operations of observations one after another. -/
theorem stackOps_append (events events' : List Event) :
    stackOps (events ++ events') = stackOps events ++ stackOps events' := List.filterMap_append

/-- Each pop that is observed from a stack on pops its top. -/
def PopsTop (r : RingStack 32 Word) (events : List Event) : Prop :=
  ∀ before v rest, events = before ++ .pop v :: rest → v = (r.run (stackOps before)).top

/-- The later core continues the observations of the earlier one, its micro
stack is what they make of the earlier one, and they popped what was on top. -/
def Follows (c c' : Core) : Prop :=
  ∃ events, c'.trace = c.trace ++ events ∧ c'.stack = c.stack.run (stackOps events) ∧
    PopsTop c.stack events

/-- Nothing happened to the micro stack. -/
theorem Follows.of_eq {c c' : Core} (htrace : c'.trace = c.trace) (hstack : c'.stack = c.stack) :
    Follows c c' := by
  refine ⟨[], ?_, hstack, fun before v rest h => ?_⟩
  · rw [htrace, List.append_nil]
  · cases before <;> cases h

/-- One observation that is no pop. -/
theorem Follows.of_event {c c' : Core} {e : Event} (htrace : c'.trace = c.trace ++ [e])
    (hstack : c'.stack = c.stack.run (stackOps [e])) (hpop : ∀ v, e = .pop v → v = c.stack.top) :
    Follows c c' := by
  refine ⟨[e], htrace, hstack, fun before v rest h => ?_⟩
  cases before with
  | nil => exact hpop v (List.cons.inj h).1
  | cons e' before => cases before <;> cases (List.cons.inj h).2

/-- What follows what follows. -/
theorem Follows.trans {c c' c'' : Core} (h : Follows c c') (h' : Follows c' c'') :
    Follows c c'' := by
  obtain ⟨events, htrace, hstack, hpops⟩ := h
  obtain ⟨events', htrace', hstack', hpops'⟩ := h'
  refine ⟨events ++ events', ?_, ?_, fun before v rest heq => ?_⟩
  · rw [htrace', htrace, List.append_assoc]
  · rw [hstack', hstack, stackOps_append, RingStack.run_append]
  · rcases List.append_eq_append_iff.mp heq with ⟨mid, hbefore, hrest⟩ | ⟨mid, hevents, hrest⟩
    · rw [hstack] at hpops'
      rw [hbefore, stackOps_append, RingStack.run_append]
      exact hpops' mid v rest hrest
    · cases mid with
      | nil =>
        have hbefore : before = events := by rw [hevents, List.append_nil]
        rw [hstack, ← hbefore] at hpops'
        exact hpops' [] v rest hrest.symm
      | cons e mid =>
        obtain ⟨rfl, -⟩ := List.cons.inj hrest
        exact hpops before v mid hevents

/-- The cell above the top. -/
theorem ringIndex_add_one (w : Word) : ringIndex (w + 1) = ringIndex w + 1 := by
  apply Fin.ext
  have hadd : (w + 1).toNat = (w.toNat + 1) % 2 ^ 32 := BitVec.toNat_add w 1
  have hone : ((1 : Fin 32) : ℕ) = 1 := rfl
  rw [Fin.val_add, ringIndex_val, ringIndex_val, hadd, hone]
  omega

/-- The cell below the top. -/
theorem ringIndex_sub_one (w : Word) : ringIndex (w - 1) = ringIndex w - 1 := by
  have h := ringIndex_add_one (w - 1)
  rw [sub_add_cancel] at h
  rw [h, add_sub_cancel_right]

/-- A masked pointer selects the same cell. -/
theorem ringIndex_mask (w : Word) : ringIndex (w &&& 0o37) = ringIndex w := by
  apply Fin.ext
  rw [ringIndex_val, ringIndex_val, toNat_and_mask _ _ (n := 5) rfl, Nat.mod_mod]

/-- Register effects act on the micro stack as they are observed. -/
theorem RegisterEffect.follows {c c' : Core} (h : RegisterEffect c c') : Follows c c' := by
  cases h with
  | push w =>
    refine .of_event rfl ?_ fun v hv => Event.noConfusion hv
    show RingStack.mk (ringIndex ((c.spcptr + 1) &&& 0o37))
      (Function.update c.spc (ringIndex (c.spcptr + 1)) w) = c.stack.push w
    rw [ringIndex_mask, ringIndex_add_one]
    rfl
  | pop =>
    refine .of_event rfl ?_ fun v hv => (Event.pop.inj hv).symm
    show RingStack.mk (ringIndex ((c.spcptr - 1) &&& 0o37)) c.spc = c.stack.pop
    rw [ringIndex_mask, ringIndex_sub_one]
    rfl
  | startRead => exact .of_event rfl rfl fun v hv => Event.noConfusion hv
  | advance =>
    have hobserved : Follows c (c.observe (.advance c.lc c.interruptControl)) :=
      .of_event rfl rfl fun v hv => Event.noConfusion hv
    refine hobserved.trans ?_
    by_cases hfetch : needFetch c.lc c.interruptControl = true
    · refine .of_event (e := .read ((c.lc &&& 0o377777777) >>> 2)) ?_ rfl
        fun v hv => Event.noConfusion hv
      simp only [Core.advance, Core.observe, hfetch, if_true, List.append_assoc, List.cons_append,
        List.nil_append]
    · refine .of_eq ?_ rfl
      simp only [Core.advance, Core.observe, if_neg hfetch]
  | _ => exact .of_eq rfl rfl

/-- Effects act on the micro stack as they are observed. -/
theorem Effect.follows {c c' : Core} (h : Effect c c') : Follows c c' := by
  cases h with
  | decrement => exact .of_eq rfl rfl
  | transfer h =>
    cases h with
    | register h => exact h.follows
    | resume w => exact .of_event rfl rfl fun v hv => Event.noConfusion hv
    | transfer => exact .of_eq rfl rfl

/-- A core follows itself. -/
theorem Follows.refl (c : Core) : Follows c c := .of_eq rfl rfl

/-- A step acts on the micro stack as it is observed. -/
theorem follows_of_uexecStep {s t : Engine β} (h : uexecStep port s = .ok () t) :
    Follows s.core t.core :=
  (post_uexecStep_core (P := Follows s.core) (fun _ _ hc => hc.trans (.of_eq rfl rfl))
    (fun _ _ heffect hc => hc.trans heffect.follows) (.refl s.core)).ok h

/-- So does a run. -/
theorem Run.follows {guard : Engine β → Prop} {s t : Engine β} (h : Run port guard s t) :
    Follows s.core t.core := by
  induction h with
  | refl => exact .refl s.core
  | tail _ htick ih =>
    refine ih.trans ?_
    cases htick with
    | step _ hstep => exact follows_of_uexecStep hstep
    | boot => exact .of_eq rfl rfl
    | device => exact .of_eq rfl rfl

/-- What was on top is popped after operations that are balanced and nest at
most 31 entries. -/
theorem Follows.pop_eq_top {c c' : Core} (h : Follows c c') {between rest : List Event} {v : Word}
    (htrace : c'.trace = c.trace ++ between ++ .pop v :: rest)
    (hbalanced : BalancedWithin 31 (stackOps between)) : v = c.stack.top := by
  obtain ⟨events, hevents, -, hpops⟩ := h
  rw [hevents, List.append_assoc] at htrace
  have hsplit : events = between ++ .pop v :: rest := List.append_cancel_left htrace
  rw [hpops between v rest hsplit]
  exact RingStack.top_run_balanced (by decide) hbalanced _

/-- What was pushed last is on top. -/
theorem Follows.top_eq_push {c c' : Core} (h : Follows c c') {events : List Event} {w : Word}
    (htrace : c'.trace = c.trace ++ events ++ [.push w]) : c'.stack.top = w := by
  obtain ⟨events', hevents, hstack, -⟩ := h
  rw [hevents, List.append_assoc] at htrace
  have hsplit : events' = events ++ [.push w] := List.append_cancel_left htrace
  rw [hstack, hsplit, stackOps_append, RingStack.run_append]
  exact RingStack.top_push _ _

end Usim
