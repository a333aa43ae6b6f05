import Usim.CSharp.Transfer
import Usim.MicroStack
import Usim.Uexec.Fetch

/-!
# One step of the two engines

`Alu`, `Byt`, the fetch and the decoding of the port follow those of the C
engine, and with the transfers of control the whole of `Step` does.
-/

namespace Usim

open Lib

variable {β : Type} {port : VmPort β} {calm : Engine β → Prop} {s : Engine β} {u : UCode β}

/-- `Alu`. -/
theorem tracks_alu (h : Corresponds s u) : Tracks calm (alu port) (UCode.alu port) s u := by
  obtain ⟨p, hp, hoa, rfl⟩ := h.exists_word
  have hresult : UCode.aluResult ((UCode.ir p 3 6).setWidth 32) s.mdata s.adata
      (UCode.ir p 2 1 ≠ 0) s.q s.aluOut =
      aluResult (ir s.p0 3 6) s.mdata s.adata (ir s.p0 2 1 ≠ 0) s.q s.aluOut := by
    rw [UCode.ir_cast hp 3 6 (by decide) (by decide), UCode.aluResult_eq,
      decide_eq_decide.mpr (flag_iff hp 2 (by decide)).symm]
  refine mirrors_get ?_
  refine mirrors_bind_calm (mirrors_modify ⟨hp, ?_, hoa⟩) fun _ t w h => ?_
  · exact congrArg (fun r => { s.mirror p with aluOut := r.1, aluCarry := r.2 }) hresult
  obtain ⟨p', hp', hoa, rfl⟩ := h.exists_word
  refine mirrors_bind_calm (mirrors_modify ⟨hp', ?_, hoa⟩) fun _ t w h => ?_
  · exact congrArg (fun q => { t.mirror p' with oldQ := t.q, q := q })
      (UCode.nextQ_eq hp' t.aluOut t.q)
  obtain ⟨p', hp', hoa, rfl⟩ := h.exists_word
  refine mirrors_bind_calm (mirrors_modify ⟨hp', ?_, hoa⟩) fun _ t w h => ?_
  · exact congrArg (fun out => { t.mirror p' with out := out })
      (UCode.nextOut_eq hp' t.mdata t.aluOut t.aluCarry t.oldQ t.out)
  have hdest : (UCode.ir (s.mirror p).p0 14 12).setWidth 32 = ir s.p0 14 12 :=
    UCode.ir_cast hp 14 12 (by decide) (by decide)
  rw [hdest]
  exact tracks_writeDest h _

/-- `Byt`. -/
theorem tracks_byt (h : Corresponds s u) : Tracks calm (byt port) (UCode.byt port) s u := by
  obtain ⟨p, hp, hoa, rfl⟩ := h.exists_word
  have hbits : (ir s.p0 12 2).toNat < 4 := ir_lt s.p0 12 (by decide)
  refine mirrors_get ?_
  dsimp only
  rw [s.p0_mirror p, UCode.position_eq hp, UCode.msk_eq hp,
    UCode.ir_cast hp 14 12 (by decide) (by decide), UCode.ir_cast hp 12 2 (by decide) (by decide)]
  simp only [UCode.rol32_eq]
  generalize ir s.p0 12 2 = bits at hbits ⊢
  have hcases : bits = 0 ∨ bits = 1 ∨ bits = 2 ∨ bits = 3 := by
    simp only [← BitVec.toNat_inj]
    show bits.toNat = 0 ∨ bits.toNat = 1 ∨ bits.toNat = 2 ∨ bits.toNat = 3
    omega
  rcases hcases with rfl | rfl | rfl | rfl
  · refine mirrors_bind_calm (mirrors_modify ?_) fun _ _ _ h => tracks_writeDest h _
    exact ⟨hp, rfl, hoa⟩
  · refine mirrors_right rfl ?_
    refine mirrors_bind_calm (mirrors_modify ?_) fun _ _ _ h => tracks_writeDest h _
    exact ⟨hp, rfl, hoa⟩
  · refine mirrors_bind_calm (mirrors_modify ?_) fun _ _ _ h => tracks_writeDest h _
    exact ⟨hp, rfl, hoa⟩
  · refine mirrors_right rfl ?_
    refine mirrors_bind_calm (mirrors_modify ?_) fun _ _ _ h => tracks_writeDest h _
    exact ⟨hp, rfl, hoa⟩

/-- The move of the pipeline. -/
theorem tracks_incNPC (h : Corresponds s u) : Tracks calm incNPC UCode.incNpc s u := by
  obtain ⟨p, hp, hoa, rfl⟩ := h.exists_word
  have hfetch : (if s.promdisabled then UCode.item s.imem s.npc else UCode.item s.prom s.npc) =
      (if s.promdisabled then subscript .imem s.imem s.npc
        else subscript .prom s.prom s.npc).mapError UCode.thrown := by
    rw [UCode.mapError_ite, UCode.item_eq .imem, UCode.item_eq .prom]
  refine mirrors_left rfl ?_
  refine mirrors_right rfl (mirrors_right rfl (mirrors_right rfl ?_))
  refine tracks_fromExcept_bind hfetch fun p1 _ => ?_
  refine mirrors_right rfl (mirrors_right rfl (mirrors_modify ?_))
  exact ⟨rfl, rfl, hoa⟩

/-- The tick of the memory read in progress. -/
theorem tracks_tickDelay (h : Corresponds s u) :
    Tracks calm tickDelay (doWhen (u.newMdDelay ≠ 0) (do
      modify fun u => { u with newMdDelay := u.newMdDelay - 1 }
      let u ← get
      doWhen (u.newMdDelay = 0) (modify fun u => { u with mdReg := u.newMd }))) s u := by
  obtain ⟨p, hp, hoa, rfl⟩ := h.exists_word
  refine mirrors_left rfl (mirrors_doWhen Iff.rfl (fun _ => ?_) h)
  refine mirrors_right rfl (mirrors_right rfl ?_)
  refine mirrors_modify_doWhen (fun hdue => ⟨hp, ?_, hoa⟩) fun hdue => ⟨hp, ?_, hoa⟩
  · exact congrArg (fun md => { s.mirror p with newMdDelay := s.newMdDelay - 1, mdReg := md })
      (if_pos hdue).symm
  · exact congrArg (fun md => { s.mirror p with newMdDelay := s.newMdDelay - 1, mdReg := md })
      (if_neg hdue).symm

/-- The merge of OA-REG-LO keeps bits 47-0 the same. -/
theorem SameWord.mergeLow {p q : BitVec 64} (h : SameWord p q) {oa : Word}
    (hoa : oa.toNat < 2 ^ 26) :
    SameWord (p ||| (oa &&& 0x03FFFFFF).setWidth 64) (q ||| oa.setWidth 64) := by
  have hmask : oa &&& 0x03FFFFFF = oa := by
    apply BitVec.eq_of_toNat_eq
    rw [toNat_and_mask oa _ (n := 26) rfl, Nat.mod_eq_of_lt hoa]
  unfold SameWord at h ⊢
  rw [hmask, BitVec.setWidth_or, BitVec.setWidth_or, h]

/-- The merge of OA-REG-HI keeps bits 47-0 the same. -/
theorem SameWord.mergeHigh {p q : BitVec 64} (h : SameWord p q) (oa : Word) :
    SameWord (p ||| ((oa &&& 0x003FFFFF).setWidth 64 <<< 26)) (q ||| (oa.setWidth 64 <<< 26)) := by
  have hlow : ((oa &&& 0x003FFFFF).setWidth 64 <<< 26 : BitVec 64).setWidth 48 =
      (oa.setWidth 64 <<< 26 : BitVec 64).setWidth 48 := by
    apply BitVec.eq_of_getLsbD_eq
    intro i hi
    simp only [BitVec.getLsbD_setWidth, BitVec.getLsbD_shiftLeft, BitVec.getLsbD_and, hi]
    by_cases hlow : i < 26
    · simp only [hlow, decide_true, Bool.not_true, Bool.and_false, Bool.false_and]
    · have hmask : (0x003FFFFF : Word).getLsbD (i - 26) = true := by
        show Nat.testBit (2 ^ 22 - 1) (i - 26) = true
        rw [Nat.testBit_two_pow_sub_one, decide_eq_true_eq]
        omega
      simp only [hmask, Bool.and_true]
  unfold SameWord at h ⊢
  rw [BitVec.setWidth_or, BitVec.setWidth_or, h, hlow]

/-- The fetch. -/
theorem tracks_fetch (h : Corresponds s u) : Tracks calm fetch UCode.fetch s u := by
  refine mirrors_bind_calm (tracks_incNPC h) fun _ t w h => ?_
  obtain ⟨p, hp, hoa, rfl⟩ := h.exists_word
  refine mirrors_right rfl ?_
  refine mirrors_bind_calm (tracks_tickDelay h) fun _ t w h => ?_
  obtain ⟨p, hp, hoa, rfl⟩ := h.exists_word
  refine mirrors_get (mirrors_ite Iff.rfl (fun _ => ?_) fun _ => ?_)
  · refine mirrors_modify_bind (mirrors_pure false ?_)
    exact ⟨hp, rfl, hoa⟩
  · simp only [mergeOa, bind_assoc]
    refine mirrors_bind_ok (mirrors_modify_doWhen (fun harmed => ⟨?_, rfl, hoa⟩)
      fun hidle => ⟨?_, ?_, hoa⟩) fun _ t' w hmerge h => ?_
    · show SameWord (p ||| _) (if t.oal = true then _ else _)
      rw [if_pos (show t.oal = true from harmed)]
      exact hp.mergeLow hoa
    · show SameWord p (if t.oal = true then _ else _)
      rw [if_neg (show ¬ t.oal = true from hidle)]
      exact hp
    · exact congrArg (fun b => { t.mirror p with oal := b }) (Bool.eq_false_of_not_eq_true hidle)
    have hoah : t'.oah = t.oah := by
      cases hmerge
      rfl
    obtain ⟨p', hp', hoa', rfl⟩ := h.exists_word
    refine mirrors_bind_calm (mirrors_modify_doWhen (fun harmed => ⟨?_, rfl, hoa'⟩)
      fun hidle => ⟨?_, ?_, hoa'⟩) fun _ _ _ h => mirrors_pure true h
    · show SameWord (p' ||| _) (if t'.oah = true then _ else _)
      rw [if_pos (hoah.trans harmed)]
      exact hp'.mergeHigh t'.oaRegHigh
    · show SameWord p' (if t'.oah = true then _ else _)
      rw [if_neg (fun harmed => hidle (hoah.symm.trans harmed))]
      exact hp'
    · exact congrArg (fun b => { t'.mirror p' with oah := b })
        (hoah.trans (Bool.eq_false_of_not_eq_true hidle))

/-- Reading a functional source leaves the A operand. -/
theorem post_mfread_aMemory (addr : Word) :
    Post (mfread addr) s (fun _ t => t.amem = s.amem ∧ t.aaddr = s.aaddr) fun _ _ => True := by
  refine post_bind.mpr (post_get.mpr ?_)
  split <;>
  simp only [popSPC, observe, err, post_bind, post_get, post_modify, post_pure, post_throw,
    post_fromExcept, implies_true, and_self]

/-- The decoding. -/
theorem tracks_decode (h : Corresponds s u) : Tracks calm decode UCode.decode s u := by
  obtain ⟨p, hp, hoa, rfl⟩ := h.exists_word
  have hpopj : decide (UCode.ir p 42 1 = 1) = decide (ir s.p0 42 1 = 1) :=
    decide_eq_decide.mpr (UCode.ir_eq_iff hp 42 1 (by decide) (by decide) (by decide))
  refine mirrors_bind_calm (mirrors_modify ⟨hp, ?_, hoa⟩) fun _ t w h => ?_
  · show { s.mirror p with
      op := (UCode.ir p 43 2).setWidth 32
      popj := decide (UCode.ir p 42 1 = 1)
      aAddr := (UCode.ir p 32 10).setWidth 32
      mAddr := (UCode.ir p 26 5).setWidth 32 } = _
    rw [hpopj, UCode.ir_cast hp 43 2 (by decide) (by decide),
      UCode.ir_cast hp 32 10 (by decide) (by decide), UCode.ir_cast hp 26 5 (by decide) (by decide)]
    rfl
  obtain ⟨p, hp, hoa, rfl⟩ := h.exists_word
  refine mirrors_get ?_
  refine mirrors_bind_ok (mirrors_ite
    (UCode.ir_eq_iff hp 31 1 (by decide) (by decide) (by decide)).symm
    (fun _ => tracks_fromExcept (UCode.item_eq .mmem _ _) h) fun _ => tracks_mfread h _) ?_
  intro mdata t' w hread h
  have hoperand : t'.amem = t.amem ∧ t'.aaddr = t.aaddr := by
    refine Post.ok (Q := fun _ t' => t'.amem = t.amem ∧ t'.aaddr = t.aaddr)
      (E := fun _ _ => True) (post_ite.mpr ⟨fun _ => ?_, fun _ => ?_⟩) hread
    · exact post_fromExcept.mpr ⟨fun _ _ => ⟨rfl, rfl⟩, fun _ _ => trivial⟩
    · exact post_mfread_aMemory _
  obtain ⟨p, hp, hoa, rfl⟩ := h.exists_word
  refine mirrors_right rfl (mirrors_right rfl ?_)
  rw [← hoperand.1, ← hoperand.2]
  refine tracks_fromExcept_bind (UCode.item_eq .amem _ _) fun adata _ => ?_
  refine mirrors_right rfl ?_
  refine mirrors_modify ?_
  exact ⟨hp, rfl, hoa⟩

/-- The operation that the opcode selects. -/
theorem tracks_operate {n : ℕ} (h : Corresponds s u) (hn : n ≤ s.trace.length) :
    Tracks (QuietHistory port n) (operate port) (UCode.operate port) s u := by
  have hop : u.op = s.op := congrArg UCode.op h.rest
  refine mirrors_get ?_
  rw [hop]
  generalize s.op.toNat = op
  match op with
  | 0 => exact tracks_alu h
  | 1 => exact tracks_jmp h hn
  | 2 => exact tracks_dsp h hn
  | 3 => exact tracks_byt h
  | _ + 4 => exact mirrors_pure () h

/-- POPJ. -/
theorem tracks_finishPopj {n : ℕ} (h : Corresponds s u) (hn : n ≤ s.trace.length) :
    Tracks (QuietHistory port n) (finishPopj port) (UCode.finishPopj port) s u := by
  have hpopj : s.popj = true ↔ u.popj = true := by rw [h.rest]; rfl
  refine mirrors_get (mirrors_doWhen hpopj (fun _ => ?_) h)
  refine mirrors_bind_along (tracks_popTarget h hn) QuietHistory.of_later
    (fun _ => along_update (fun _ => rfl) fun _ => rfl) fun target t w _ h => ?_
  obtain ⟨p, hp, hoa, rfl⟩ := h.exists_word
  exact mirrors_modify ⟨hp, rfl, hoa⟩

/-- POPJ. -/
theorem along_finishPopj : Along Later (finishPopj port) := by
  refine along_get fun s => along_doWhen (along_bind along_popTarget fun target => ?_)
  exact along_update (fun _ => rfl) fun _ => rfl

/-- The observations after effects continue those before. -/
theorem Moves.extends_trace {R : Core → Core → Prop} {α : Type} {m : Micro β α}
    (hm : Moves port R s m) (hR : ∀ c c', R c c' → Follows c c') {a : α} {t : Engine β}
    (h : m s = .ok a t) : s.trace <+: t.trace := by
  refine (hm.keeps (P := fun c => s.trace <+: c.trace) (fun c c' hr hc => ?_)
    List.prefix_rfl).ok h
  obtain ⟨events, htrace, -⟩ := hR c c' hr
  rw [htrace]
  exact hc.trans (List.prefix_append _ _)

/-- The fetch observes nothing. -/
theorem trace_of_fetch {go : Bool} {t : Engine β} (h : fetch s = .ok go t) :
    t.trace = s.trace := by
  have hpost : Post fetch s (fun _ t => t.trace = s.trace) fun _ _ => True := by
    refine post_fetch.mpr ⟨fun p1 _ => ?_, fun _ _ => trivial⟩
    split
    · exact congrArg Core.trace (s.core_skipped p1)
    · exact congrArg Core.trace (s.core_issued p1)
  exact hpost.ok h

/-- `Step`. -/
theorem tracks_step (h : Corresponds s u) :
    Tracks (QuietHistory port s.trace.length) (uexecStep port) (UCode.step port) s u := by
  refine mirrors_bind_ok (tracks_fetch h) fun go t w hfetch h => ?_
  have hn : s.trace.length ≤ t.trace.length := by rw [trace_of_fetch hfetch]
  refine mirrors_doWhen Iff.rfl (fun _ => ?_) h
  refine mirrors_bind_ok (tracks_decode h) fun _ t' w' hdecode h' => ?_
  have hdecoded : t.trace <+: t'.trace :=
    (moves_decode : Moves port _ t decode).extends_trace (fun _ _ h => h.follows) hdecode
  have hn' : s.trace.length ≤ t'.trace.length := hn.trans hdecoded.length_le
  refine mirrors_bind_along (tracks_operate h' hn') QuietHistory.of_later
    (fun _ => along_finishPopj) fun _ t'' w'' hoperate h'' => ?_
  have hop : t'.op = ir t'.p0 43 2 := post_decode_op.ok hdecode
  have hoperated : t'.trace <+: t''.trace :=
    (moves_operate hop).extends_trace (fun _ _ h => h.follows) hoperate
  exact tracks_finishPopj h'' (hn'.trans hoperated.length_le)

/-- One step of the C engine and one of the port, from corresponding states and
with the same bus, end in corresponding states, or the C engine calls `err` and
the port throws. The subscripts of the step are in bounds, and the reads for the
LC history, which only the C engine makes, do nothing. -/
theorem step_equivalence (h : Corresponds s u)
    (hbounds : ∀ array index t, uexecStep port s ≠ .error (.subscript array index) t)
    (hquiet : QuietHistory port s.trace.length (finalState (uexecStep port s))) :
    (∃ s' u', uexecStep port s = .ok () s' ∧ UCode.step port u = .ok () u' ∧
      Corresponds s' u') ∨
    ∃ call s' e u', uexecStep port s = .error (.err call) s' ∧ UCode.step port u = .error e u' := by
  have hagree := tracks_step h hquiet
  cases hs : uexecStep port s with
  | ok _ s' =>
    cases hu : UCode.step port u with
    | ok _ u' =>
      rw [hs, hu] at hagree
      exact .inl ⟨s', u', rfl, rfl, hagree.2⟩
    | error e u' =>
      rw [hs, hu] at hagree
      exact hagree.elim
  | error fault s' =>
    cases fault with
    | subscript array index => exact absurd hs (hbounds array index s')
    | err call =>
      cases hu : UCode.step port u with
      | ok _ u' =>
        rw [hs, hu] at hagree
        exact hagree.elim
      | error e u' => exact .inr ⟨call, s', e, u', rfl, rfl⟩

/-- The power-on state about to execute a DISPATCH with IR<24>, with NEED-FETCH
set. -/
def fetchingState {β : Type} (dev : β) : Engine β :=
  { powerOn (fun _ => 0) (fun _ => 0) dev with
    p1 := (2#64 <<< 43) ||| (1#64 <<< 24)
    lc := 1#32 <<< 31 }

/-- On a machine without a bus the two steps agree. -/
theorem step_equivalence_of_fetch :
    (∃ s' u', uexecStep noBus (fetchingState ()) = .ok () s' ∧
      UCode.step noBus ((fetchingState ()).mirror 0) = .ok () u' ∧ Corresponds s' u') ∨
    ∃ call s' e u', uexecStep noBus (fetchingState ()) = .error (.err call) s' ∧
      UCode.step noBus ((fetchingState ()).mirror 0) = .error e u' := by
  have hreturned : returned Engine.lc (uexecStep noBus (fetchingState ())) = some 2 := by
    decide
  obtain ⟨_, s', hs, -⟩ := exists_of_returned hreturned
  refine step_equivalence ⟨rfl, rfl, by decide⟩ (fun array index t ht => ?_) ?_
  · rw [hs] at ht
    cases ht
  · exact fun _ _ _ b => ⟨0, true, rfl⟩

/-- A bus each of whose cycles reads the number of the cycles before. -/
def countingBus : VmPort ℕ where
  vm := fun _ _ _ _ b => .ok (BitVec.ofNat 32 b.dev, { b with vmaok := true, dev := b.dev + 1 })
  busReset := fun b => (b.interruptPendingFlag, b.dev)

/-- On a bus that notices reads the two steps differ: the pending MD of the C
engine comes from its second read. -/
theorem step_differs_on_counting_bus :
    ∃ (s s' : Engine ℕ) (u u' : UCode ℕ), Corresponds s u ∧
      uexecStep countingBus s = .ok () s' ∧ UCode.step countingBus u = .ok () u' ∧
      s'.newMd ≠ u'.newMd := by
  have hengine : returned Engine.newMd (uexecStep countingBus (fetchingState 0)) = some 1 := by
    decide
  have hport : returned UCode.newMd (UCode.step countingBus ((fetchingState 0).mirror 0)) =
      some 0 := by
    decide
  obtain ⟨_, s', hs, hmd⟩ := exists_of_returned hengine
  obtain ⟨_, u', hu, hmd'⟩ := exists_of_returned hport
  have hstart : Corresponds (fetchingState 0) ((fetchingState 0).mirror 0) :=
    ⟨rfl, rfl, Nat.two_pow_pos 26⟩
  refine ⟨_, s', _, u', hstart, hs, hu, ?_⟩
  rw [hmd, hmd']
  decide

end Usim
