import Usim.MicroPc
import Usim.MicroStack

/-!
# Calls and returns of microcode

A JUMP with P pushes the address at which control resumes after the delay slot,
or with N that of the delay slot itself. If the stack operations in between are
balanced, a return pops this word, and control resumes there without advancing
the location counter, since bit 14 of the word is clear.
-/

namespace Usim

open Lib

variable {β : Type} {port : VmPort β}

/-- The JUMP decoded in `t` is taken. -/
def JumpTaken (t : Engine β) : Prop :=
  ∃ cond u, checkJcond (if ir t.p0 10 2 = 1 then { t with halted := true } else t) = .ok cond u ∧
    (cond != decide (ir t.p0 6 1 ≠ 0)) = true

/-- The step from `s` executes a taken JUMP with P set and R clear that was
fetched at `x`, and `n` is its N bit. -/
structure CallsAt (s : Engine β) (x : ℕ) (n : Bool) : Prop where
  /-- The microinstruction is executed. -/
  executed : s.inhibit = false
  /-- It was fetched at `x`. -/
  address : s.p1Pc.toNat = x
  /-- `IR<44:43>`: it is a JUMP. -/
  jump : ir s.executedWord 43 2 = 1
  /-- `IR<8>`: the P bit. -/
  p : ir s.executedWord 8 1 ≠ 0
  /-- `IR<9>`: the R bit. -/
  r : ir s.executedWord 9 1 = 0
  /-- `IR<7>`: the N bit. -/
  n : n = decide (ir s.executedWord 7 1 ≠ 0)
  /-- The condition holds. -/
  taken : ∀ p1 t, s.nextWord = .ok p1 → decode (s.issued p1) = .ok () t → JumpTaken t

/-- The word that a call pushes when the micro PC is `npc`. -/
def returnWord (npc : Word) (n : Bool) : Word := if n then npc - 1 else npc

/-- Computations without effects leave the core. -/
theorem Moves.core_eq {α : Type} {s : Engine β} {m : Micro β α}
    (hm : Moves port (fun _ _ => False) s m) :
    Post m s (fun _ t => t.core = s.core) fun _ _ => True :=
  (hm.keeps (P := fun c => c = s.core) (fun _ _ h => h.elim) rfl).mono (fun _ _ h => h)
    fun _ _ _ => trivial

/-- The push of a call. -/
theorem post_pushReturn {s : Engine β} (n : Bool) :
    Post (pushReturn n) s (fun _ t => t.core = s.core.push (returnWord s.npc n))
      fun _ _ => False :=
  post_bind.mpr (post_get.mpr (post_pushSPC _))


/-- The transfer of a taken JUMP with P set and R clear pushes the return word. -/
theorem post_jumpTransfer_call {t : Engine β} (hp : ir t.p0 8 1 ≠ 0) (hr : ir t.p0 9 1 = 0) :
    Post (jumpTransfer port true) t (fun _ u =>
      u.trace = t.trace ++ [.push (returnWord t.npc (decide (ir t.p0 7 1 ≠ 0)))] ∧
      u.popj = false) fun _ _ => True := by
  have hnoreturn : ¬ (ir t.p0 9 1 ≠ 0 ∧ true = true) := fun h => h.1 hr
  refine post_bind.mpr (post_get.mpr (post_bind.mpr (post_doWhen.mpr ⟨fun _ => ?_, fun h => ?_⟩)))
  · refine (post_pushReturn _).mono (fun _ u hu => ?_) fun _ _ h => h.elim
    have htrace : u.trace = _ := congrArg Core.trace hu
    refine post_bind.mpr (post_ite.mpr ⟨fun h => absurd h hnoreturn, fun _ => ?_⟩)
    refine (post_pure _).mpr (post_doWhen.mpr ⟨fun _ => ?_, fun h => absurd rfl h⟩)
    simp only [post_bind, post_doWhen, post_modify]
    exact ⟨fun _ => ⟨htrace, trivial⟩, fun _ => ⟨htrace, trivial⟩⟩
  · exact absurd ⟨hp, rfl⟩ h

/-- A taken JUMP with P set and R clear pushes the return word last. -/
theorem post_jmp_call {t : Engine β} {n : Bool} (hp : ir t.p0 8 1 ≠ 0) (hr : ir t.p0 9 1 = 0)
    (hn : n = decide (ir t.p0 7 1 ≠ 0)) (htaken : JumpTaken t) :
    Post (jmp port) t (fun _ u => u.trace = t.trace ++ [.push (returnWord t.npc n)] ∧
      u.popj = false) fun _ _ => True := by
  obtain ⟨cond, u, hcond, htrue⟩ := htaken
  refine post_bind.mpr (post_get.mpr ?_)
  refine Post.bind (Q := fun _ t' =>
    t' = if ir t.p0 10 2 = 1 then { t with halted := true } else t) ?_ ?_
  · refine post_doWhen.mpr ⟨fun h => post_modify.mpr ?_, fun h => ?_⟩
    · rw [if_pos h]
    · rw [if_neg h]
  · rintro _ t' ht'
    have hcore : t'.core = t.core := by
      rw [ht']
      split <;> rfl
    rw [← ht'] at hcond
    refine post_ite.mpr ⟨fun h => absurd hr h.2, fun _ => ?_⟩
    have hpost := (Post.self checkJcond t').and
      (Moves.core_eq (moves_checkJcond : Moves port _ t' checkJcond))
    refine Post.bind (hpost.mono (fun _ _ h => h) fun _ _ _ => trivial)
      fun cond' u' ⟨hok, hu'⟩ => ?_
    obtain ⟨rfl, -⟩ := EStateM.Result.ok.inj (hcond.symm.trans hok)
    have hp0 : u'.p0 = t.p0 := congrArg Core.p0 (hu'.trans hcore)
    have hnpc : u'.npc = t.npc := congrArg Core.npc (hu'.trans hcore)
    have htrace : u'.trace = t.trace := congrArg Core.trace (hu'.trans hcore)
    rw [htrue, hn, ← hp0, ← hnpc, ← htrace]
    refine post_jumpTransfer_call ?_ ?_
    · rw [hp0]
      exact hp
    · rw [hp0]
      exact hr

/-- Decoding acts on the micro stack as it is observed, and leaves the micro PC
and the microinstruction. -/
theorem post_decode_follows (port : VmPort β) (s : Engine β) :
    Post decode s (fun _ t => decode s = .ok () t ∧ t.op = ir t.p0 43 2 ∧
      Follows s.core t.core ∧ t.npc = s.npc ∧ t.p0 = s.p0) fun _ _ => True := by
  have hkeeps := (moves_decode : Moves port _ s decode).keeps
    (P := fun c => Follows s.core c ∧ c.npc = s.npc ∧ c.p0 = s.p0)
    (fun _ _ h hc => ⟨hc.1.trans h.follows, h.npc_eq.trans hc.2.1,
      (Effect.transfer (.register h)).p0_eq.trans hc.2.2⟩) ⟨.refl s.core, rfl, rfl⟩
  exact ((Post.self decode s).and (post_decode_op.and hkeeps)).mono (fun _ _ h => h)
    fun _ _ _ => trivial

/-- A call pushes the return word last. -/
theorem post_call {s : Engine β} {x : ℕ} {n : Bool} (h : CallsAt s x n) :
    Post (uexecStep port) s (fun _ t => ∃ events,
      t.trace = s.trace ++ events ++ [.push (returnWord (nextPc s.npc) n)]) fun _ _ => True := by
  refine post_uexecStep.mpr ⟨fun p1 hp1 => ?_, fun _ _ => trivial⟩
  rw [h.executed, if_neg Bool.false_ne_true]
  refine (post_decode_follows port (s.issued p1)).bind fun _ t ⟨hok, hop, hfollows, hnpc, hp0⟩ => ?_
  obtain ⟨events, hevents, -, -⟩ := hfollows
  have hissued := s.core_issued p1
  have hword : t.p0 = s.executedWord := hp0.trans (s.p0_issued p1)
  have hnext : t.npc = nextPc s.npc := hnpc.trans (congrArg Core.npc hissued)
  have htrace : t.trace = s.trace ++ events := by
    have hstart : (s.issued p1).core.trace = s.trace := congrArg Core.trace hissued
    rw [hstart] at hevents
    exact hevents
  have hjump : t.op.toNat = 1 := by
    rw [hop, hword, h.jump]
    rfl
  have hjmp : Post (operate port) t (fun _ u =>
      u.trace = t.trace ++ [.push (returnWord t.npc n)] ∧ u.popj = false) fun _ _ => True := by
    refine post_bind.mpr (post_get.mpr ?_)
    rw [hjump]
    refine post_jmp_call ?_ ?_ ?_ (h.taken p1 t hp1 hok)
    · rw [hword]
      exact h.p
    · rw [hword]
      exact h.r
    · rw [hword]
      exact h.n
  refine hjmp.bind fun _ u ⟨hpush, hpopj⟩ => ?_
  refine post_bind.mpr (post_get.mpr (post_doWhen.mpr ⟨fun hp => ?_, fun _ => ?_⟩))
  · rw [hpopj] at hp
    exact absurd hp Bool.false_ne_true
  · exact ⟨events, by rw [hpush, htrace, hnext]⟩

/-- No return is among the observations. -/
def NoResume (events : List Event) : Prop := ∀ v, .resume v ∉ events

/-- From `s` to `t` a return without bit 14 is the last thing that happens, and
leaves the micro PC at the word popped. -/
def ResumesLast (s t : Engine β) : Prop :=
  ∃ events, t.trace = s.trace ++ events ∧ ∀ before v rest, events = before ++ .resume v :: rest →
    v.getLsbD 14 = false → rest = [] ∧ t.npc = v &&& 0o37777

/-- From `s` to `t` nothing returns. -/
def Stays (s t : Engine β) : Prop := ∃ events, t.trace = s.trace ++ events ∧ NoResume events

/-- Where nothing returns, no return has anything after it. -/
theorem Stays.resumesLast {s t : Engine β} (h : Stays s t) : ResumesLast s t := by
  obtain ⟨events, htrace, hno⟩ := h
  refine ⟨events, htrace, fun before v rest heq => ?_⟩
  refine absurd ?_ (hno v)
  rw [heq]
  exact List.mem_append_right _ List.mem_cons_self

/-- Nothing returns without observations. -/
theorem Stays.of_eq {s t : Engine β} (h : t.trace = s.trace) : Stays s t :=
  ⟨[], by rw [h, List.append_nil], fun _ => List.not_mem_nil⟩

/-- Nothing returns in a part that is followed by a part in which nothing returns. -/
theorem Stays.trans {s t u : Engine β} (h : Stays s t) (h' : Stays t u) : Stays s u := by
  obtain ⟨events, htrace, hno⟩ := h
  obtain ⟨events', htrace', hno'⟩ := h'
  refine ⟨events ++ events', by rw [htrace', htrace, List.append_assoc], fun v hmem => ?_⟩
  rcases List.mem_append.mp hmem with hmem | hmem
  · exact hno v hmem
  · exact hno' v hmem

/-- A part in which nothing returns may come first. -/
theorem Stays.trans_resumesLast {s t u : Engine β} (h : Stays s t) (h' : ResumesLast t u) :
    ResumesLast s u := by
  obtain ⟨events, htrace, hno⟩ := h
  obtain ⟨events', htrace', hlast⟩ := h'
  refine ⟨events ++ events', by rw [htrace', htrace, List.append_assoc], ?_⟩
  intro before v rest heq
  rcases List.append_eq_append_iff.mp heq with ⟨mid, -, hrest⟩ | ⟨mid, hevents, hrest⟩
  · exact hlast mid v rest hrest
  · cases mid with
    | nil => exact hlast [] v rest hrest.symm
    | cons e mid =>
      obtain ⟨rfl, -⟩ := List.cons.inj hrest
      refine absurd ?_ (hno v)
      rw [hevents]
      exact List.mem_append_right _ List.mem_cons_self

/-- Nothing returns in register effects. -/
theorem RegisterEffect.noResume {c c' : Core} (h : RegisterEffect c c') :
    ∃ events, c'.trace = c.trace ++ events ∧ NoResume events := by
  cases h with
  | push w => exact ⟨[.push w], rfl, fun v h => by cases List.mem_singleton.mp h⟩
  | pop => exact ⟨[.pop _], rfl, fun v h => by cases List.mem_singleton.mp h⟩
  | startRead vaddr => exact ⟨[.read vaddr], rfl, fun v h => by cases List.mem_singleton.mp h⟩
  | advance =>
    refine ⟨_, rfl, fun v h => ?_⟩
    rcases List.mem_cons.mp h with h | h
    · cases h
    · split at h
      · cases List.mem_singleton.mp h
      · exact List.not_mem_nil h
  | _ => exact ⟨[], (List.append_nil _).symm, fun v h => List.not_mem_nil h⟩

/-- Nothing returns in computations with register effects. -/
theorem Moves.stays {α : Type} {s : Engine β} {m : Micro β α}
    (hm : Moves port RegisterEffect s m) : Post m s (fun _ t => Stays s t) fun _ _ => True := by
  refine (hm.keeps (P := fun c => ∃ events, c.trace = s.trace ++ events ∧ NoResume events) ?_
    ⟨[], (List.append_nil _).symm, fun v h => List.not_mem_nil h⟩).mono (fun _ _ h => h)
    fun _ _ _ => trivial
  rintro c c' h ⟨events, htrace, hno⟩
  obtain ⟨events', htrace', hno'⟩ := h.noResume
  refine ⟨events ++ events', by rw [htrace', htrace, List.append_assoc], fun v hmem => ?_⟩
  rcases List.mem_append.mp hmem with hmem | hmem
  · exact hno v hmem
  · exact hno' v hmem

/-- From `s` to `t` one word is popped and becomes the target `w`, and nothing
happens after it when its bit 14 is clear. -/
def Returns (s : Engine β) (w : Word) (t : Engine β) : Prop :=
  ∃ v events, t.trace = s.trace ++ .pop v :: .resume v :: events ∧ NoResume events ∧
    (v.getLsbD 14 = false → events = [] ∧ w = v &&& 0o37777)

/-- A transfer to the target of a return resumes there, and last. -/
theorem Returns.resumesLast {s t u : Engine β} {w : Word} (h : Returns s w t)
    (htrace : u.trace = t.trace) (hnpc : u.npc = w) : ResumesLast s u := by
  obtain ⟨v, events, hevents, hno, hlast⟩ := h
  refine ⟨_, htrace.trans hevents, fun before v' rest heq hbit => ?_⟩
  cases before with
  | nil => cases (List.cons.inj heq).1
  | cons e before =>
    have htail := (List.cons.inj heq).2
    cases before with
    | nil =>
      obtain ⟨hv, rfl⟩ := List.cons.inj htail
      obtain rfl := Event.resume.inj hv
      obtain ⟨hnil, hw⟩ := hlast hbit
      exact ⟨hnil, hnpc.trans hw⟩
    | cons e' before =>
      refine absurd ?_ (hno v')
      rw [(List.cons.inj htail).2]
      exact List.mem_append_right _ List.mem_cons_self

/-- The pop of a return target. -/
theorem post_popTarget {s : Engine β} :
    Post (popTarget port) s (fun w t => Returns s w t) fun _ _ => True := by
  have hpop : Post popSPC s (fun v t => t.trace = s.trace ++ [.pop v]) fun _ _ => True := by
    refine Post.mono (E := fun e _ => Blame port e s.core) post_popSPC (fun v t ht => ?_)
      fun _ _ _ => trivial
    rw [ht.2.1]
    exact congrArg Core.trace ht.1
  refine hpop.bind fun v t ht => ?_
  refine post_bind.mpr (post_modify.mpr (post_bind.mpr (post_ite.mpr ⟨fun hbit => ?_,
    fun hbit => ?_⟩)))
  · refine (moves_advanceLC v).stays.mono (fun w u ⟨events, hevents, hno⟩ => ?_) fun _ _ h => h
    refine (post_pure _).mpr ⟨v, events, ?_, hno, fun hclear => ?_⟩
    · rw [hevents, ht, List.append_assoc, List.append_assoc]
      rfl
    · rw [hclear] at hbit
      exact absurd hbit Bool.false_ne_true
  · refine (post_pure _).mpr ((post_pure _).mpr ⟨v, [], ?_, fun _ => List.not_mem_nil,
      fun _ => ⟨rfl, rfl⟩⟩)
    rw [ht, List.append_assoc]
    rfl

/-- POPJ resumes at the word popped, and last. -/
theorem post_finishPopj {s : Engine β} :
    Post (finishPopj port) s (fun _ t => ResumesLast s t) fun _ _ => True := by
  refine post_bind.mpr (post_get.mpr (post_doWhen.mpr ⟨fun _ => ?_, fun _ => ?_⟩))
  · exact post_popTarget.bind fun w t ht => post_modify.mpr (ht.resumesLast rfl rfl)
  · exact (Stays.of_eq rfl).resumesLast

/-- What an operation has done before POPJ: nothing has returned, or the return
was last and POPJ is off. -/
def ReturnsOnce (s t : Engine β) : Prop := Stays s t ∨ (ResumesLast s t ∧ t.popj = false)

/-- An operation after a part in which nothing returns. -/
theorem Stays.trans_returnsOnce {s t u : Engine β} (h : Stays s t) (h' : ReturnsOnce t u) :
    ReturnsOnce s u := by
  rcases h' with h' | ⟨h', hpopj⟩
  · exact .inl (h.trans h')
  · exact .inr ⟨h.trans_resumesLast h', hpopj⟩

/-- The transfer of a JUMP returns at most once. -/
theorem post_jumpTransfer {s : Engine β} (cond : Bool) :
    Post (jumpTransfer port cond) s (fun _ t => ReturnsOnce s t) fun _ _ => True := by
  refine post_bind.mpr (post_get.mpr ?_)
  have hpush : Post (doWhen (ir s.p0 8 1 ≠ 0 ∧ cond = true)
      (pushReturn (decide (ir s.p0 7 1 ≠ 0)))) s (fun _ t => Stays s t) fun _ _ => True :=
    (show Moves port _ s _ from moves_doWhen fun _ => moves_pushReturn _).stays
  refine hpush.bind fun _ t hst => post_bind.mpr (post_ite.mpr ⟨fun hr => ?_, fun _ => ?_⟩)
  · refine post_popTarget.mono (fun w u hu => ?_) fun _ _ h => h
    refine post_doWhen.mpr ⟨fun _ => ?_, fun hcond => absurd hr.2 hcond⟩
    simp only [post_bind, post_doWhen, post_modify]
    exact ⟨fun _ => .inr ⟨hst.trans_resumesLast (hu.resumesLast rfl rfl), rfl⟩,
      fun _ => .inr ⟨hst.trans_resumesLast (hu.resumesLast rfl rfl), rfl⟩⟩
  · refine (post_pure _).mpr (post_doWhen.mpr ⟨fun _ => ?_, fun _ => .inl hst⟩)
    simp only [post_bind, post_doWhen, post_modify]
    exact ⟨fun _ => .inl hst, fun _ => .inl hst⟩

/-- JUMP returns at most once. -/
theorem post_jmp {s : Engine β} :
    Post (jmp port) s (fun _ t => ReturnsOnce s t) fun _ _ => True := by
  refine post_bind.mpr (post_get.mpr ?_)
  have hhalt : Post (doWhen (ir s.p0 10 2 = 1) (modify fun s => { s with halted := true })) s
      (fun _ t => Stays s t) fun _ _ => True :=
    (show Moves port _ s _ from moves_doWhen fun _ => moves_modify rfl).stays
  refine hhalt.bind fun _ t hst => post_ite.mpr ⟨fun _ => ?_, fun _ => ?_⟩
  · refine post_bind.mpr (post_fromExcept.mpr ⟨fun imem _ => post_modify.mpr (.inl hst),
      fun _ _ => trivial⟩)
  · refine (moves_checkJcond : Moves port _ t checkJcond).stays.bind fun cond u htu => ?_
    refine (post_jumpTransfer _).mono (fun _ v huv => ?_) fun _ _ h => h
    exact (hst.trans htu).trans_returnsOnce huv

/-- The transfer at the end of a DISPATCH returns at most once. -/
theorem post_dispatch_resume {s : Engine β} {p n : Bool} {r : Prop} [Decidable r] {word : Word} :
    Post (do
      doWhen p (pushReturn n)
      let target ← (if r then popTarget port else pure (word &&& 0o37777))
      modify fun s => { s with npc := target, popj := false }) s
      (fun _ t => ReturnsOnce s t) fun _ _ => True := by
  have hpush : Post (doWhen p (pushReturn n)) s (fun _ t => Stays s t) fun _ _ => True :=
    (show Moves port _ s _ from moves_doWhen fun _ => moves_pushReturn n).stays
  refine hpush.bind fun _ t hst => post_bind.mpr (post_ite.mpr ⟨fun _ => ?_, fun _ => ?_⟩)
  · refine post_popTarget.mono (fun w u hu => post_modify.mpr ?_) fun _ _ h => h
    exact .inr ⟨hst.trans_resumesLast (hu.resumesLast rfl rfl), rfl⟩
  · exact (post_pure _).mpr (post_modify.mpr (.inl hst))

/-- The second half of a DISPATCH returns at most once. -/
theorem post_dispatchTransfer {s : Engine β} (word : Word) :
    Post (dispatchTransfer port word) s (fun _ t => ReturnsOnce s t) fun _ _ => True := by
  refine post_bind.mpr (post_get.mpr ?_)
  refine Post.bind (Q := fun _ t => Stays s t) ?_ fun _ t hst => ?_
  · exact post_doWhen.mpr ⟨fun _ => post_modify.mpr (.of_eq rfl), fun _ => .of_eq rfl⟩
  have hadvance : Post (doWhen (ir s.p0 24 1 ≠ 0) (do let _ ← advanceLC port 0)) t
      (fun _ u => Stays t u) fun _ _ => True :=
    (moves_doWhen fun _ => (moves_advanceLC 0).bind fun _ _ => moves_pure _).stays
  refine hadvance.bind fun _ u htu => ?_
  refine Post.bind (Q := fun _ v => Stays u v) ?_ fun _ v huv => ?_
  · exact post_doWhen.mpr ⟨fun _ => post_modify.mpr (.of_eq rfl), fun _ => .of_eq rfl⟩
  have hsv := (hst.trans htu).trans huv
  refine post_doWhen.mpr ⟨fun _ => ?_, fun _ => .inl hsv⟩
  exact post_dispatch_resume.mono (fun _ w hvw => hsv.trans_returnsOnce hvw) fun _ _ h => h

/-- DISPATCH returns at most once. -/
theorem post_dsp {s : Engine β} :
    Post (dsp port) s (fun _ t => ReturnsOnce s t) fun _ _ => True := by
  refine post_bind.mpr (post_get.mpr (post_ite.mpr ⟨fun _ => ?_, fun _ => ?_⟩))
  · exact post_bind.mpr (post_fromExcept.mpr ⟨fun dmem _ => post_modify.mpr (.inl (.of_eq rfl)),
      fun _ _ => trivial⟩)
  · refine (moves_dispatchWord : Moves port _ s dispatchWord).stays.bind fun word t hst => ?_
    exact (post_dispatchTransfer word).mono (fun _ u htu => hst.trans_returnsOnce htu)
      fun _ _ h => h

/-- Every operation returns at most once. -/
theorem post_operate {s : Engine β} (hop : s.op = ir s.p0 43 2) :
    Post (operate port) s (fun _ t => ReturnsOnce s t) fun _ _ => True := by
  refine post_bind.mpr (post_get.mpr ?_)
  split
  case h_1 h =>
    exact (moves_alu (opcode_eq hop h)).stays.mono (fun _ _ ht => .inl ht) fun _ _ h => h
  case h_2 => exact post_jmp
  case h_3 => exact post_dsp
  case h_4 h =>
    exact (moves_byt (opcode_eq hop h)).stays.mono (fun _ _ ht => .inl ht) fun _ _ h => h
  case h_5 => exact (post_pure _).mpr (.inl (.of_eq rfl))

/-- In every step a return without bit 14 comes last, and control resumes at
the word popped. -/
theorem post_uexecStep_resumesLast {s : Engine β} :
    Post (uexecStep port) s (fun _ t => ResumesLast s t) fun _ _ => True := by
  refine post_uexecStep.mpr ⟨fun p1 _ => ?_, fun _ _ => trivial⟩
  have hskipped : (s.skipped p1).trace = s.trace := congrArg Core.trace (s.core_skipped p1)
  have hissued : (s.issued p1).trace = s.trace := congrArg Core.trace (s.core_issued p1)
  cases s.inhibit with
  | true => exact (Stays.of_eq hskipped).resumesLast
  | false =>
    have hdecode : Post decode (s.issued p1) (fun _ t => t.op = ir t.p0 43 2 ∧
        Stays (s.issued p1) t) fun _ _ => True :=
      (post_decode_op.and (moves_decode : Moves port _ (s.issued p1) decode).stays).mono
        (fun _ _ h => h) fun _ _ _ => trivial
    refine hdecode.bind fun _ t ⟨hop, ht⟩ => ?_
    have hst : Stays s t := (Stays.of_eq hissued).trans ht
    refine (post_operate hop).bind fun _ u hu => ?_
    rcases hst.trans_returnsOnce hu with hsu | ⟨hsu, hpopj⟩
    · exact post_finishPopj.mono (fun _ v huv => hsu.trans_resumesLast huv) fun _ _ h => h
    · refine post_bind.mpr (post_get.mpr (post_doWhen.mpr ⟨fun hp => ?_, fun _ => hsu⟩))
      rw [hpopj] at hp
      exact absurd hp Bool.false_ne_true

/-- The word that a call in sequence pushes. -/
theorem toNat_returnWord {npc : Word} {x : ℕ} {n : Bool} (hx : x < 2 ^ 14)
    (hnpc : npc.toNat = (x + 1) % 2 ^ 14) (hslip : ¬ (n = true ∧ x = 0o37776)) :
    (returnWord (nextPc npc) n).toNat = (x + if n then 1 else 2) % 2 ^ 14 := by
  have hlt : npc.toNat < 2 ^ 14 := by
    rw [hnpc]
    exact Nat.mod_lt _ (by decide)
  cases n with
  | false =>
    show (nextPc npc).toNat = _
    rw [toNat_nextPc hlt, hnpc]
    simp only [Bool.false_eq_true, if_false]
    omega
  | true =>
    have hne : ¬ npc = 0o37777 := by
      rintro rfl
      have hlast : 0o37777 = (x + 1) % 2 ^ 14 := hnpc
      exact hslip ⟨rfl, by omega⟩
    have hsame : returnWord (nextPc npc) true = npc := by
      show nextPc npc - 1 = npc
      rw [nextPc, if_neg hne, add_sub_cancel_right]
    rw [hsame, hnpc, if_pos rfl]

/-- In every run in which no DISPATCH steps the micro PC back from 0 without a
transfer, the micro PC is an address of the control memory. A taken JUMP at
`x` with P set and R clear that executes in sequence, and is not the one at
037776 with N, pushes `x + 2`, or `x + 1` with N. If the stack operations that
follow are balanced and nest at most 31 entries more, the next return pops this
word, control resumes there, and the location counter is not advanced. -/
theorem call_return :
    (∀ s : Engine β, Reached port (fun s => ¬ DispatchUnderflows s) s → s.npc.toNat < 2 ^ 14) ∧
    ∀ (s s' : Engine β) (x : ℕ) (n : Bool), x < 2 ^ 14 → CallsAt s x n →
      s.npc.toNat = (x + 1) % 2 ^ 14 → ¬ (n = true ∧ x = 0o37776) →
      uexecStep port s = .ok () s' →
      ∃ w : Word, w.toNat = (x + if n then 1 else 2) % 2 ^ 14 ∧
        (∃ events, s'.trace = s.trace ++ events ++ [.push w]) ∧
        ∀ (u u' : Engine β) (before between rest : List Event) (v : Word),
          Run port (fun _ => True) s' u → uexecStep port u = .ok () u' →
          u'.trace = u.trace ++ before ++ .pop v :: .resume v :: rest →
          u.trace ++ before = s'.trace ++ between → BalancedWithin 31 (stackOps between) →
          v = w ∧ rest = [] ∧ u'.npc = w := by
  refine ⟨fun s hs => hs.npc_lt fun _ h => h, fun s s' x n hx hcall hseq hslip hstep => ?_⟩
  have hword := toNat_returnWord hx hseq hslip
  obtain ⟨events, hpush⟩ := (post_call hcall).ok hstep
  refine ⟨returnWord (nextPc s.npc) n, hword, ⟨events, hpush⟩, ?_⟩
  intro u u' before between rest v hrun hreturn htrace hbetween hbalanced
  have htop : s'.core.stack.top = returnWord (nextPc s.npc) n :=
    (follows_of_uexecStep hstep).top_eq_push hpush
  have hfollows : Follows s'.core u'.core := hrun.follows.trans (follows_of_uexecStep hreturn)
  have hv : v = returnWord (nextPc s.npc) n := by
    rw [← htop]
    have hpopped : u'.trace = s'.trace ++ between ++ .pop v :: .resume v :: rest := by
      rw [htrace, hbetween]
    exact hfollows.pop_eq_top hpopped hbalanced
  have hsmall : v.toNat < 2 ^ 14 := by
    rw [hv, hword]
    exact Nat.mod_lt _ (by decide)
  have hbit : v.getLsbD 14 = false := Nat.testBit_lt_two_pow hsmall
  obtain ⟨events', hevents, hlast⟩ := post_uexecStep_resumesLast.ok hreturn
  rw [htrace, List.append_assoc] at hevents
  have hsplit : events' = (before ++ [.pop v]) ++ .resume v :: rest := by
    rw [← List.append_cancel_left hevents, List.append_assoc]
    rfl
  obtain ⟨hrest, hnpc⟩ := hlast _ v rest hsplit hbit
  have hmask : v &&& 0o37777 = v := by
    apply BitVec.eq_of_toNat_eq
    rw [toNat_and_mask _ _ (n := 14) rfl, Nat.mod_eq_of_lt hsmall]
  exact ⟨hv, hrest, by rw [hnpc, hmask, hv]⟩

/-- A JUMP that is always taken: the target, and the R, P and N bits. -/
def jumpAlways (target : ℕ) (r p n : Bool) : BitVec 64 :=
  BitVec.ofNat 64 (2 ^ 43 + target * 2 ^ 12 + r.toNat * 2 ^ 9 + p.toNat * 2 ^ 8 + n.toNat * 2 ^ 7 +
    2 ^ 5 + 7)

/-- The condition 7 is always met. -/
theorem checkJcond_always {t : Engine β} (hfixed : ir t.p0 5 1 ≠ 0)
    (hcode : (ir t.p0 0 4).toNat = 7) : checkJcond t = .ok true t := by
  refine Post.eq_ok (post_bind.mpr (post_get.mpr (post_ite.mpr ⟨fun h => absurd h hfixed,
    fun _ => ?_⟩)))
  dsimp only
  rw [hcode]
  exact (post_pure _).mpr ⟨rfl, rfl⟩

/-- A JUMP with the condition 7 is always taken. -/
theorem jumpTaken_always {t : Engine β} (hfixed : ir t.p0 5 1 ≠ 0) (hcode : (ir t.p0 0 4).toNat = 7)
    (hsense : ir t.p0 6 1 = 0) : JumpTaken t := by
  refine ⟨true, _, checkJcond_always ?_ ?_, ?_⟩
  · split <;> exact hfixed
  · split <;> exact hcode
  · rw [hsense]
    rfl

/-- A call that is always taken. -/
theorem callsAt_always (port : VmPort β) {s : Engine β} {x : ℕ} {n : Bool}
    (hexecuted : s.inhibit = false)
    (haddress : s.p1Pc.toNat = x) {w : BitVec 64} (hword : s.executedWord = w)
    (hjump : ir w 43 2 = 1) (hp : ir w 8 1 ≠ 0) (hr : ir w 9 1 = 0)
    (hn : n = decide (ir w 7 1 ≠ 0)) (hfixed : ir w 5 1 ≠ 0) (hcode : (ir w 0 4).toNat = 7)
    (hsense : ir w 6 1 = 0) : CallsAt s x n := by
  subst hword
  refine ⟨hexecuted, haddress, hjump, hp, hr, hn, fun p1 t _ hdecode => ?_⟩
  obtain ⟨-, -, -, -, hp0⟩ := (post_decode_follows port (s.issued p1)).ok hdecode
  have hp0' : t.p0 = s.executedWord := hp0.trans (s.p0_issued p1)
  rw [← hp0'] at hfixed hcode hsense
  exact jumpTaken_always hfixed hcode hsense

/-- A PROM with a call at 1 in the delay slot of a JUMP to 3, and a return at 5. -/
def delaySlotProm : Fin 512 → BitVec 64 :=
  promOf [jumpAlways 3 false false false, jumpAlways 5 false true false, 0, 0, 0,
    jumpAlways 0 true false false]

/-- A call in a delay slot returns to the address after the target of the
transfer before it, not to the one after its own delay slot. -/
theorem call_in_delay_slot :
    ∃ s s' u u' : Engine Unit, Reached noBus (fun s => ¬ DispatchUnderflows s) s ∧
      CallsAt s 1 false ∧ uexecStep noBus s = .ok () s' ∧
      s'.trace = s.trace ++ [.push 4] ∧ Run noBus (fun _ => True) s' u ∧
      uexecStep noBus u = .ok () u' ∧ u'.trace = s'.trace ++ [.pop 4, .resume 4] ∧
      u'.npc.toNat ≠ (1 + 2) % 2 ^ 14 := by
  have hrun : ((act noBus .step (machineControlBoot (powerOn delaySlotProm
      (fun _ => 0) ()))).bind fun r => (act noBus .step r).bind fun s =>
      (act noBus .step s).bind fun s' => (act noBus .step s').bind fun u =>
      (act noBus .step u).map fun u' => ([r.inhibit, s.inhibit], [r.npc, s.p1Pc, u'.npc],
        s.executedWord, [s.trace, s'.trace, u'.trace])) =
      some ([false, false], [1, 1, 4], jumpAlways 5 false true false,
        [[], [.push 4], [.push 4, .pop 4, .resume 4]]) := by
    decide
  obtain ⟨r, hr, hrun⟩ := Option.bind_eq_some_iff.mp hrun
  obtain ⟨s, hs, hrun⟩ := Option.bind_eq_some_iff.mp hrun
  obtain ⟨s', hs', hrun⟩ := Option.bind_eq_some_iff.mp hrun
  obtain ⟨u, hu, hrun⟩ := Option.bind_eq_some_iff.mp hrun
  obtain ⟨u', hu', hrun⟩ := Option.map_eq_some_iff.mp hrun
  simp only [Prod.mk.injEq, List.cons.injEq, and_true] at hrun
  obtain ⟨⟨-, hinhibit⟩, ⟨hnpc, hpc, hnpc'⟩, hword, htrace, htrace', htrace''⟩ := hrun
  have hreached : Reached noBus (fun s => ¬ DispatchUnderflows s) s := by
    refine ⟨delaySlotProm, fun _ => 0, (), .tail (.single (.step ?_ (uexecStep_of_act hr)))
      (.step ?_ (uexecStep_of_act hs))⟩
    · exact fun h => Bool.noConfusion h.1
    · intro h
      have hlast := h.2.1
      rw [hnpc] at hlast
      exact absurd hlast (by decide)
  have hcall : CallsAt s 1 false := callsAt_always noBus hinhibit (by rw [hpc]; rfl) hword
    (by decide) (by decide) (by decide) (by decide) (by decide) (by decide) (by decide)
  refine ⟨s, s', u, u', hreached, hcall, uexecStep_of_act hs', ?_,
    .single (tick_of_act hu), uexecStep_of_act hu', ?_, ?_⟩
  · rw [htrace, htrace']
    rfl
  · rw [htrace', htrace'']
    rfl
  · rw [hnpc']
    decide

/-- A PROM with a call at 0 whose delay slot is not executed, and a return at 2. -/
def callingProm : Fin 512 → BitVec 64 :=
  promOf [jumpAlways 2 false true true, 0, jumpAlways 0 true false false]

/-- A call at 0 with N returns to 1. -/
theorem call_return_from_zero :
    ∃ s s' u u' : Engine Unit, CallsAt s 0 true ∧ uexecStep noBus s = .ok () s' ∧
      Run noBus (fun _ => True) s' u ∧ uexecStep noBus u = .ok () u' ∧ u'.npc.toNat = 1 := by
  have hrun : ((act noBus .step (machineControlBoot (powerOn callingProm
      (fun _ => 0) ()))).bind fun s => (act noBus .step s).bind fun s' =>
      (act noBus .step s').bind fun u => (act noBus .step u).map fun u' =>
      (s.inhibit, [s.npc, s.p1Pc], s.executedWord, [s'.trace, u.trace, u'.trace])) =
      some (false, [1, 0], jumpAlways 2 false true true,
        [[.push 1], [.push 1], [.push 1, .pop 1, .resume 1]]) := by
    decide
  obtain ⟨s, hs, hrun⟩ := Option.bind_eq_some_iff.mp hrun
  obtain ⟨s', hs', hrun⟩ := Option.bind_eq_some_iff.mp hrun
  obtain ⟨u, hu, hrun⟩ := Option.bind_eq_some_iff.mp hrun
  obtain ⟨u', hu', hrun⟩ := Option.map_eq_some_iff.mp hrun
  simp only [Prod.mk.injEq, List.cons.injEq, and_true] at hrun
  obtain ⟨hinhibit, ⟨hnpc, hpc⟩, hword, htrace, htrace', htrace''⟩ := hrun
  have hcall : CallsAt s 0 true := callsAt_always noBus hinhibit (by rw [hpc]; rfl) hword
    (by decide) (by decide) (by decide) (by decide) (by decide) (by decide) (by decide)
  have hnext : s.npc.toNat = (0 + 1) % 2 ^ 14 := by
    rw [hnpc]
    decide
  obtain ⟨w, hw, -, hreturn⟩ := call_return.2 s s' 0 true (by decide) hcall hnext (by decide)
    (uexecStep_of_act hs')
  obtain ⟨-, -, hresumed⟩ := hreturn u u' [] [] [] 1 (.single (tick_of_act hu))
    (uexecStep_of_act hu') (by rw [htrace'', htrace']; rfl) (by rw [htrace, htrace']) (by decide)
  refine ⟨s, s', u, u', hcall, uexecStep_of_act hs', .single (tick_of_act hu),
    uexecStep_of_act hu', ?_⟩
  rw [hresumed, hw]
  decide

end Usim
