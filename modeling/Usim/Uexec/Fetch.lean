import Usim.Uexec.Effects

/-!
# Fetching a microinstruction

The first part of `uexec_step` as functions on states: the pipeline moves, the
memory read in progress ticks, and the OA registers are merged unless the
microinstruction is inhibited.
-/

namespace Usim

open Lib

variable {β : Type}

/-- The word that `incNPC` fetches from the selected control store. -/
def Engine.nextWord (s : Engine β) : Except Fault (BitVec 64) :=
  if s.promdisabled then subscript .imem s.imem s.npc else subscript .prom s.prom s.npc

/-- The micro PC after `npc`. -/
def nextPc (npc : Word) : Word := if npc = 0o37777 then 0 else npc + 1

/-- The state after `incNPC` has fetched `p1`. -/
def Engine.incremented (s : Engine β) (p1 : BitVec 64) : Engine β :=
  { s with
    p0Imem := s.p1Imem
    p0 := s.p1
    p0Pc := s.p1Pc
    p1Imem := s.promdisabled
    p1 := p1
    p1Pc := s.npc
    npc := nextPc s.npc
    opc := s.p1Pc }

/-- The state after a cycle of the memory read in progress. -/
def Engine.ticked (s : Engine β) : Engine β :=
  if s.newMdDelay = 0 then s
  else { s with
    newMdDelay := s.newMdDelay - 1
    mdReg := if s.newMdDelay - 1 = 0 then s.newMd else s.mdReg }

/-- The microinstruction with the armed OA registers merged. -/
def Engine.mergedWord (s : Engine β) : BitVec 64 :=
  let p0 := if s.oal then s.p0 ||| s.oaRegLow.setWidth 64 else s.p0
  if s.oah then p0 ||| (s.oaRegHigh.setWidth 64 <<< 26) else p0

/-- The state after the merge of the OA registers. -/
def Engine.merged (s : Engine β) : Engine β :=
  { s with oal := false, oah := false, p0 := s.mergedWord }

/-- The state in which the microinstruction fetched with `p1` is executed. -/
def Engine.issued (s : Engine β) (p1 : BitVec 64) : Engine β :=
  (s.incremented p1).ticked.merged

/-- The microinstruction that a step from `s` executes, unless it is inhibited. -/
def Engine.executedWord (s : Engine β) : BitVec 64 := { s with p0 := s.p1 }.mergedWord

/-- The state after fetching an inhibited microinstruction with `p1`. -/
def Engine.skipped (s : Engine β) (p1 : BitVec 64) : Engine β :=
  { (s.incremented p1).ticked with inhibit := false }

/-- Merging the OA registers. -/
theorem post_mergeOa {s : Engine β} {Q : Unit → Engine β → Prop} {E : Fault → Engine β → Prop} :
    Post mergeOa s Q E ↔ Q () s.merged := by
  simp only [mergeOa, post_bind, post_modify, Engine.merged, Engine.mergedWord]

/-- The tick of the memory read in progress. -/
theorem post_tickDelay {s : Engine β} {Q : Unit → Engine β → Prop}
    {E : Fault → Engine β → Prop} : Post tickDelay s Q E ↔ Q () s.ticked := by
  simp only [tickDelay, post_bind, post_get, post_doWhen, post_modify, Engine.ticked]
  by_cases h : s.newMdDelay = 0
  · simp only [h, ne_eq, not_true_eq_false, false_implies, not_false_eq_true, true_implies,
      true_and, if_true]
  · simp only [h, ne_eq, not_false_eq_true, true_implies, not_true_eq_false, false_implies,
      and_true, if_false]

/-- The move of the pipeline. -/
theorem post_incNPC {s : Engine β} {Q : Unit → Engine β → Prop} {E : Fault → Engine β → Prop} :
    Post incNPC s Q E ↔ (∀ p1, s.nextWord = .ok p1 → Q () (s.incremented p1)) ∧
      ∀ e, s.nextWord = .error e → E e s := by
  simp only [incNPC, post_bind, post_get, post_fromExcept, post_modify]
  rfl

/-- Fetching a microinstruction. -/
theorem post_fetch {s : Engine β} {Q : Bool → Engine β → Prop} {E : Fault → Engine β → Prop} :
    Post fetch s Q E ↔
      (∀ p1, s.nextWord = .ok p1 →
        if s.inhibit then Q false (s.skipped p1) else Q true (s.issued p1)) ∧
      ∀ e, s.nextWord = .error e → E e s := by
  have hinhibit (p1 : BitVec 64) : (s.incremented p1).ticked.inhibit = s.inhibit := by
    unfold Engine.ticked
    split <;> rfl
  simp only [fetch, post_bind, post_incNPC, post_tickDelay, post_get, post_ite, post_modify,
    post_pure, post_mergeOa, hinhibit]
  refine and_congr_left fun _ => forall_congr' fun p1 => imp_congr_right fun _ => ?_
  cases s.inhibit <;> simp [Engine.skipped, Engine.issued]

/-- Fetching an inhibited microinstruction. -/
theorem fetch_skipped {s : Engine β} {p1 : BitVec 64} (hnext : s.nextWord = .ok p1)
    (hinhibit : s.inhibit = true) : fetch s = .ok false (s.skipped p1) := by
  refine Post.eq_ok (post_fetch.mpr ⟨fun w hw => ?_, fun e he => ?_⟩)
  · obtain rfl := Except.ok.inj (hnext.symm.trans hw)
    rw [if_pos hinhibit]
    exact ⟨rfl, rfl⟩
  · rw [hnext] at he
    cases he

/-- Fetching a microinstruction that is executed. -/
theorem fetch_issued {s : Engine β} {p1 : BitVec 64} (hnext : s.nextWord = .ok p1)
    (hinhibit : s.inhibit = false) : fetch s = .ok true (s.issued p1) := by
  refine Post.eq_ok (post_fetch.mpr ⟨fun w hw => ?_, fun e he => ?_⟩)
  · obtain rfl := Except.ok.inj (hnext.symm.trans hw)
    rw [hinhibit, if_neg Bool.false_ne_true]
    exact ⟨rfl, rfl⟩
  · rw [hnext] at he
    cases he

/-- A step goes on from the fetch. -/
theorem uexecStep_of_fetch {port : VmPort β} {s t : Engine β} {go : Bool}
    (h : fetch s = .ok go t) : uexecStep port s = doWhen go (execute port) t := by
  show (fetch >>= fun go => doWhen go (execute port)) s = _
  simp only [bind, EStateM.bind, h]

/-- A step fetches a microinstruction, and executes it unless it is inhibited. -/
theorem post_uexecStep {port : VmPort β} {s : Engine β} {Q : Unit → Engine β → Prop}
    {E : Fault → Engine β → Prop} :
    Post (uexecStep port) s Q E ↔
      (∀ p1, s.nextWord = .ok p1 →
        if s.inhibit then Q () (s.skipped p1) else Post (execute port) (s.issued p1) Q E) ∧
      ∀ e, s.nextWord = .error e → E e s := by
  simp only [uexecStep, post_bind, post_fetch, post_doWhen]
  refine and_congr_left fun _ => forall_congr' fun p1 => imp_congr_right fun _ => ?_
  cases s.inhibit <;> simp

/-- The cycles that a memory read in progress takes after another one. -/
def tickedDelay (delay : Word) : Word := if delay = 0 then 0 else delay - 1

/-- MD after a cycle of the memory read in progress. -/
def Engine.tickedMd (s : Engine β) : Word := if s.newMdDelay = 1 then s.newMd else s.mdReg

/-- A tick only moves the delay, and fills MD when it runs out. -/
theorem Engine.ticked_eq (s : Engine β) :
    s.ticked = { s with newMdDelay := tickedDelay s.newMdDelay, mdReg := s.tickedMd } := by
  have hone : s.newMdDelay - 1 = 0 ↔ s.newMdDelay = 1 := sub_eq_zero
  unfold ticked tickedDelay tickedMd
  by_cases h : s.newMdDelay = 0
  · have hne : ¬ s.newMdDelay = 1 := by
      rw [h]
      decide
    rw [if_pos h, if_pos h, if_neg hne, ← h]
  · rw [if_neg h, if_neg h]
    by_cases hlast : s.newMdDelay = 1
    · rw [if_pos hlast, if_pos (hone.mpr hlast)]
    · rw [if_neg hlast, if_neg (fun hzero => hlast (hone.mp hzero))]

/-- The microinstruction in the state in which it is executed. -/
theorem Engine.p0_issued (s : Engine β) (p1 : BitVec 64) : (s.issued p1).p0 = s.executedWord := by
  rw [issued, ticked_eq]
  rfl

/-- The core after a fetch that leaves `p0` to be executed or skipped. -/
def Core.fetched (c : Core) (p0 : BitVec 64) : Core :=
  { c with p0 := p0, npc := nextPc c.npc, newMdDelay := tickedDelay c.newMdDelay }

/-- A tick only moves the delay of the core. -/
theorem Engine.core_ticked (s : Engine β) :
    s.ticked.core = { s.core with newMdDelay := tickedDelay s.newMdDelay } := by
  rw [ticked_eq]
  rfl

/-- The core of the state in which a microinstruction is executed. -/
theorem Engine.core_issued (s : Engine β) (p1 : BitVec 64) :
    (s.issued p1).core = s.core.fetched s.executedWord := by
  have hp0 := s.p0_issued p1
  have h := (s.incremented p1).core_ticked
  have hcore : (s.issued p1).core =
      { (s.incremented p1).ticked.core with p0 := (s.issued p1).p0 } := rfl
  rw [hcore, h, hp0]
  rfl

/-- The core of the state after an inhibited microinstruction. -/
theorem Engine.core_skipped (s : Engine β) (p1 : BitVec 64) :
    (s.skipped p1).core = s.core.fetched s.p1 := by
  have h := (s.incremented p1).core_ticked
  have hp0 : (s.skipped p1).core = (s.incremented p1).ticked.core := rfl
  rw [hp0, h]
  rfl

end Usim
