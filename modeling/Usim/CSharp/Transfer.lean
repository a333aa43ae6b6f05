import Usim.CSharp.Registers
import Usim.Uexec.Effects

/-!
# Transfers of control in the port

`AdvanceLc` differs from `advanceLC` in one thing: it keeps no history of the
location counter, so it does not read the word for it. Where that read is quiet
the two agree, and with them `Jmp`, `Dsp` and the pop of a return target.
-/

namespace Usim

open Lib

variable {β : Type} {port : VmPort β} {s : Engine β} {u : UCode β}

/-- A read of this virtual address under these maps does nothing but return a
word and set `vmaok`. -/
def QuietRead (port : VmPort β) (maps : Maps) (vaddr : Word) : Prop :=
  ∀ b : BusState β, ∃ (v : Word) (ok : Bool),
    port.vm false vaddr 0 maps b = .ok (v, { b with vmaok := ok })

/-- The words that the LC history reads for the advances observed after the
first `n` observations are quiet. -/
def QuietHistory (port : VmPort β) (n : ℕ) (t : Engine β) : Prop :=
  ∀ lc interruptControl, Event.advance lc interruptControl ∈ t.trace.drop n →
    QuietRead port t.toMaps (lc >>> 2)

/-- The observations of `t` continue those of `s`, and the maps are the same. -/
structure Later (s t : Engine β) : Prop where
  /-- The observations. -/
  trace : s.trace <+: t.trace
  /-- The maps. -/
  maps : t.toMaps = s.toMaps

/-- Later than later is later. -/
instance : IsPreorder (Engine β) Later where
  refl _ := ⟨List.prefix_rfl, rfl⟩
  trans _ _ _ h h' := ⟨h.trace.trans h'.trace, h'.maps.trans h.maps⟩

/-- What is quiet later was quiet before. -/
theorem QuietHistory.of_later {n : ℕ} (s t : Engine β) (h : Later s t)
    (ht : QuietHistory port n t) : QuietHistory port n s := by
  intro lc ic hmem
  have hquiet := ht lc ic ((h.trace.drop n).subset hmem)
  rwa [h.maps] at hquiet

/-- An observation. -/
theorem along_observe (e : Event) : Along Later (observe e : Micro β Unit) :=
  along_modify fun _ => ⟨List.prefix_append _ _, rfl⟩

/-- An update of anything but the observations and the maps. -/
theorem along_update {f : Engine β → Engine β} (htrace : ∀ s, (f s).trace = s.trace)
    (hmaps : ∀ s, (f s).toMaps = s.toMaps) : Along Later (modify f : Micro β Unit) :=
  along_modify fun s => ⟨htrace s ▸ List.prefix_rfl, hmaps s⟩

/-- A memory cycle. -/
theorem along_vmCycle (write : Bool) (vaddr v : Word) :
    Along Later (vmCycle port write vaddr v) := by
  refine along_get fun s => along_bind (along_fromExcept _) ?_
  rintro ⟨w, b⟩
  exact along_bind (along_update (fun _ => rfl) fun _ => rfl) fun _ => along_pure w

/-- The start of a memory read. -/
theorem along_startRead (vaddr : Word) : Along Later (startRead port vaddr) := by
  refine along_bind (along_observe _) fun _ => along_bind (along_vmCycle _ _ _) fun v => ?_
  exact along_update (fun _ => rfl) fun _ => rfl

/-- The read for the LC history. -/
theorem along_recordLcHistory : Along Later (recordLcHistory port) := by
  refine along_get fun s => along_bind (along_vmCycle _ _ _) fun v => ?_
  exact along_update (fun _ => rfl) fun _ => rfl

/-- A push. -/
theorem along_pushSPC (pc : Word) : Along Later (pushSPC pc : Micro β Unit) := by
  refine along_bind (along_update (fun _ => rfl) fun _ => rfl) fun _ => along_get fun s => ?_
  refine along_bind (along_fromExcept _) fun spc => ?_
  exact along_bind (along_update (fun _ => rfl) fun _ => rfl) fun _ => along_observe _

/-- The push of a return address. -/
theorem along_pushReturn (n : Bool) : Along Later (pushReturn n : Micro β Unit) :=
  along_get fun _ => along_pushSPC _

/-- A pop. -/
theorem along_popSPC : Along Later (popSPC : Micro β Word) := by
  refine along_get fun s => along_bind (along_fromExcept _) fun v => ?_
  refine along_bind (along_update (fun _ => rfl) fun _ => rfl) fun _ => ?_
  exact along_bind (along_observe _) fun _ => along_pure v

/-- `advanceLC` after its first observation. -/
theorem later_advanceLC (s : Engine β) (ppc : Word) :
    Later { s with trace := s.trace ++ [.advance s.lc s.interruptControl] }
      (finalState (advanceLC port ppc s)) := by
  show Later _ (finalState ((recordLcHistory port >>= _) _))
  refine along_bind along_recordLcHistory (fun _ => ?_) _
  refine along_bind (along_update (fun _ => rfl) fun _ => rfl) fun _ => along_get fun t => ?_
  refine along_bind (along_ite ?_ (along_pure _)) fun ppc => along_get fun w => ?_
  · refine along_bind (along_update (fun _ => rfl) fun _ => rfl) fun _ => ?_
    exact along_bind (along_startRead _) fun _ => along_pure ppc
  · refine along_bind (along_doWhen (along_update (fun _ => rfl) fun _ => rfl)) fun _ => ?_
    exact along_pure ppc

/-- `advanceLC`. -/
theorem along_advanceLC (ppc : Word) : Along Later (advanceLC port ppc) :=
  fun s => trans_of Later (along_observe _ s) (later_advanceLC s ppc)

/-- The pop of a target. -/
theorem along_popTarget : Along Later (popTarget port) := by
  refine along_bind along_popSPC fun target => along_bind (along_observe _) fun _ => ?_
  exact along_bind (along_ite (along_advanceLC target) (along_pure target)) fun _ => along_pure _

/-- The read for the LC history changes nothing when it is quiet. -/
theorem recordLcHistory_quiet (h : QuietRead port s.toMaps (s.lc >>> 2)) :
    recordLcHistory port s = .ok () s := by
  obtain ⟨v, ok, hread⟩ := h s.toBusState
  have hcycle : vmRead port (s.lc >>> 2) s = .ok v { s with vmaok := ok } := by
    show (fromExcept (port.vm false (s.lc >>> 2) 0 s.toMaps s.toBusState) >>= _) s = _
    rw [hread]
    rfl
  show (vmRead port (s.lc >>> 2) >>= _) s = _
  simp only [bind, EStateM.bind, hcycle]
  rfl

/-- `AdvanceLc`. -/
theorem tracks_advanceLC {n : ℕ} (h : Corresponds s u) (hn : n ≤ s.trace.length) (ppc : Word) :
    Tracks (QuietHistory port n) (advanceLC port ppc) (UCode.advanceLc port ppc) s u := by
  refine mirrors_of_calm fun hend => ?_
  have hquiet : QuietRead port s.toMaps (s.lc >>> 2) := by
    refine QuietHistory.of_later _ _ (later_advanceLC s ppc) hend s.lc s.interruptControl ?_
    show _ ∈ (s.trace ++ [Event.advance s.lc s.interruptControl]).drop n
    rw [List.drop_append_of_le_length hn]
    exact List.mem_append_right _ (List.mem_singleton_self _)
  obtain ⟨p, hp, hoa, rfl⟩ := h.exists_word
  refine mirrors_get ?_
  refine tracks_observe ?_
  refine mirrors_left (recordLcHistory_quiet hquiet) ?_
  refine mirrors_modify_bind ?_
  refine mirrors_get ?_
  refine mirrors_bind_calm (mirrors_ite Iff.rfl (fun _ => ?_) fun _ => ?_) ?_
  · refine mirrors_modify_bind ?_
    refine mirrors_bind_calm (tracks_startRead ?_ _) fun _ _ _ h => mirrors_pure ppc h
    exact ⟨hp, rfl, hoa⟩
  · exact mirrors_pure _ ⟨hp, rfl, hoa⟩
  intro ppc t w h
  obtain ⟨p, hp, hoa, rfl⟩ := h.exists_word
  refine mirrors_get ?_
  refine mirrors_bind_calm (mirrors_doWhen Iff.rfl (fun _ => mirrors_modify ?_) ?_) ?_
  · exact ⟨hp, rfl, hoa⟩
  · exact ⟨hp, rfl, hoa⟩
  · exact fun _ _ _ h => mirrors_pure ppc h

/-- The pop of a target. -/
theorem tracks_popTarget {n : ℕ} (h : Corresponds s u) (hn : n ≤ s.trace.length) :
    Tracks (QuietHistory port n) (popTarget port) (UCode.popTarget port) s u := by
  refine mirrors_bind_ok (tracks_popSPC h) fun target t w hpop h => ?_
  have hmore : n ≤ (t.trace ++ [Event.resume target]).length := by
    have hlength := (along_popSPC.of_ok hpop).trace.length_le
    rw [List.length_append]
    omega
  obtain ⟨p, hp, hoa, rfl⟩ := h.exists_word
  refine tracks_observe ?_
  refine mirrors_bind_along (mirrors_ite (UCode.shift_and_one_ne_zero _ _).symm (fun _ => ?_)
    fun _ => ?_) QuietHistory.of_later (fun _ => along_pure _) ?_
  · refine tracks_advanceLC ?_ hmore target
    exact ⟨hp, rfl, hoa⟩
  · exact mirrors_pure _ ⟨hp, rfl, hoa⟩
  · exact fun _ _ _ _ h => mirrors_pure _ h

/-- The push of a return address. -/
theorem tracks_pushReturn {calm : Engine β → Prop} (h : Corresponds s u) (n : Bool) :
    Tracks calm (pushReturn n) (UCode.pushReturn n) s u := by
  obtain ⟨p, hp, hoa, rfl⟩ := h.exists_word
  refine mirrors_get ?_
  cases n with
  | true => exact tracks_pushSPC h _
  | false => exact tracks_pushSPC h _

/-- `CheckJumpCondition`. -/
theorem tracks_checkJcond {calm : Engine β → Prop} (h : Corresponds s u) :
    Tracks calm checkJcond UCode.checkJumpCondition s u := by
  obtain ⟨p, hp, hoa, rfl⟩ := h.exists_word
  have hpure (b : Bool) : Tracks calm (pure b) (pure b) s (s.mirror p) :=
    mirrors_pure b ⟨hp, rfl, hoa⟩
  have hthrow (k : ℕ) : Tracks calm (err "unknown jump (%llo) condition" [k])
      (throw (.invalidOperation "unknown jump condition %d" k) : Sharp β Bool) s (s.mirror p) :=
    mirrors_throw _ _
  have hcode : (UCode.ir (s.mirror p).p0 0 4).toNat = (ir s.p0 0 4).toNat :=
    UCode.toNat_ir_eq hp 0 4 (by decide) (by decide)
  have hrotation : UCode.rol32 (s.mirror p).mData (UCode.ir (s.mirror p).p0 0 5).toNat =
      rol32 s.mdata (ir s.p0 0 5).toNat := by
    rw [UCode.rol32_eq]
    exact congrArg _ (UCode.toNat_ir_eq hp 0 5 (by decide) (by decide))
  refine mirrors_get ?_
  simp only [hcode, hrotation]
  refine mirrors_ite (UCode.ir_eq_iff hp 5 1 (by decide) (by decide) (by decide)).symm
    (fun _ => ?_) fun _ => ?_
  · refine mirrors_modify_bind ?_
    refine mirrors_pure _ ?_
    exact ⟨hp, rfl, hoa⟩
  · generalize (ir s.p0 0 4).toNat = condition
    rcases condition with _ | _ | _ | _ | _ | _ | _ | _ | k
    · exact hthrow 0
    · exact hpure _
    · exact hpure _
    · exact hpure _
    · exact hpure _
    · exact hpure _
    · exact hpure _
    · exact hpure _
    · exact hthrow (k + 8)

/-- What moves the core by no effect at all leaves it. -/
theorem core_eq_of_moves (port : VmPort β) {α : Type} {m : Micro β α}
    (hm : ∀ R, Moves port R s m) {a : α}
    {t : Engine β} (h : m s = .ok a t) : t.core = s.core := by
  have hmoves := (hm fun _ _ => False).ok h
  rcases hmoves.cases_tail with heq | ⟨c, _, hfalse⟩
  · exact heq
  · exact hfalse.elim

/-- A flag of the microinstruction. -/
theorem flag_iff {p q : BitVec 64} (h : SameWord p q) (pos : ℕ) (hpos : pos + 1 ≤ 48) :
    ir q pos 1 ≠ 0 ↔ UCode.ir p pos 1 ≠ 0 :=
  (not_congr (UCode.ir_eq_iff h pos 1 (by decide) hpos (by decide))).symm

/-- `Jmp` once its condition is known. -/
theorem tracks_jumpTransfer {n : ℕ} (h : Corresponds s u) (hn : n ≤ s.trace.length)
    (cond : Bool) :
    Tracks (QuietHistory port n) (jumpTransfer port cond) (UCode.jumpTransfer port cond) s u := by
  have hfield := flag_iff h.p0
  have hinhibit : decide (UCode.ir u.p0 7 1 ≠ 0) = decide (ir s.p0 7 1 ≠ 0) :=
    decide_eq_decide.mpr (hfield 7 (by decide)).symm
  refine mirrors_get ?_
  dsimp only
  rw [hinhibit]
  refine mirrors_bind_ok (mirrors_doWhen (and_congr_left' (hfield 8 (by decide)))
    (fun _ => tracks_pushReturn h _) h) ?_
  intro _ t w hpush h'
  have hmore : n ≤ t.trace.length :=
    hn.trans (Along.of_ok (along_doWhen (along_pushReturn _)) hpush).trace.length_le
  refine mirrors_bind_along (mirrors_ite (and_congr_left' (hfield 9 (by decide)))
    (fun _ => tracks_popTarget h' hmore)
    fun _ => mirrors_pure_eq (UCode.ir_cast h.p0 12 14 (by decide) (by decide)).symm h')
    QuietHistory.of_later (fun target => ?_) ?_
  · refine along_doWhen (along_bind (along_doWhen ?_) fun _ => ?_)
    · exact along_update (fun _ => rfl) fun _ => rfl
    · exact along_update (fun _ => rfl) fun _ => rfl
  intro target t w _ h
  refine mirrors_doWhen Iff.rfl (fun _ => ?_) h
  obtain ⟨p, hp, hoa, rfl⟩ := h.exists_word
  refine mirrors_doWhen_modify_bind (hfield 7 (by decide)) ?_
  rintro _ _ (⟨rfl, rfl⟩ | ⟨rfl, rfl⟩)
  · exact mirrors_modify ⟨hp, rfl, hoa⟩
  · exact mirrors_modify ⟨hp, rfl, hoa⟩

/-- `Jmp`. -/
theorem tracks_jmp {n : ℕ} (h : Corresponds s u) (hn : n ≤ s.trace.length) :
    Tracks (QuietHistory port n) (jmp port) (UCode.jmp port) s u := by
  have hfield := flag_iff h.p0
  refine mirrors_get ?_
  refine mirrors_doWhen_modify_bind
    (UCode.ir_eq_iff h.p0 10 2 (by decide) (by decide) (by decide)).symm ?_
  intro t w ht
  have hsame : t.trace = s.trace ∧ Corresponds t w := by
    obtain ⟨p, hp, hoa, rfl⟩ := h.exists_word
    rcases ht with ⟨rfl, rfl⟩ | ⟨rfl, rfl⟩
    · exact ⟨rfl, hp, rfl, hoa⟩
    · exact ⟨rfl, h⟩
  obtain ⟨htrace, h'⟩ := hsame
  refine mirrors_ite (and_congr (hfield 8 (by decide)) (hfield 9 (by decide))) (fun _ => ?_)
    fun _ => ?_
  · rw [UCode.ir_cast h.p0 12 14 (by decide) (by decide)]
    have hstore : u.iMem = s.imem ∧ u.iwr = s.iwr := by
      rw [h.rest]
      exact ⟨rfl, rfl⟩
    rw [hstore.1, hstore.2]
    refine tracks_fromExcept_bind (UCode.setItem_eq .imem _ _ _) fun imem _ => ?_
    obtain ⟨p, hp, hoa, rfl⟩ := h'.exists_word
    exact mirrors_modify ⟨hp, rfl, hoa⟩
  · refine mirrors_bind_ok (tracks_checkJcond h') ?_
    intro cond t' w' hcheck h''
    have hmore : n ≤ t'.trace.length := by
      have hcore : t'.trace = t.trace :=
        congrArg Core.trace (core_eq_of_moves port (fun _ => moves_checkJcond) hcheck)
      rwa [hcore, htrace]
    have hsense : (if UCode.ir u.p0 6 1 ≠ 0 then !cond else cond) =
        (cond != decide (ir s.p0 6 1 ≠ 0)) := by
      by_cases hinvert : ir s.p0 6 1 ≠ 0
      · rw [if_pos ((hfield 6 (by decide)).mp hinvert), decide_eq_true hinvert, Bool.bne_true]
      · rw [if_neg (fun hne => hinvert ((hfield 6 (by decide)).mpr hne)),
          decide_eq_false hinvert, Bool.bne_false]
    rw [hsense]
    exact tracks_jumpTransfer h'' hmore _

/-- `Dsp` up to the selection of the dispatch word. -/
theorem tracks_dispatchWord {calm : Engine β → Prop} (h : Corresponds s u) :
    Tracks calm dispatchWord UCode.dispatchWord s u := by
  obtain ⟨p, hp, hoa, rfl⟩ := h.exists_word
  refine mirrors_get ?_
  dsimp only
  rw [s.p0_mirror p, UCode.position_eq hp]
  simp only [UCode.rol32_eq, UCode.dispatchMask_eq, UCode.dispatchMapBits_eq hp,
    UCode.ir_cast hp 12 11 (by decide) (by decide), UCode.ir_cast hp 5 3 (by decide) (by decide)]
  refine mirrors_modify_bind ?_
  refine mirrors_bind_calm (mirrors_ite
    (not_congr (UCode.ir_eq_iff hp 8 2 (by decide) (by decide) (by decide)).symm) (fun _ => ?_)
    fun _ => ?_) ?_
  · refine tracks_fromExcept_bind (UCode.vtop_eq _ _) fun t _ => ?_
    refine mirrors_pure _ ?_
    exact ⟨hp, rfl, hoa⟩
  · refine mirrors_pure _ ?_
    exact ⟨hp, rfl, hoa⟩
  intro bits t w h
  obtain ⟨p, hp, hoa, rfl⟩ := h.exists_word
  refine tracks_fromExcept_bind (UCode.item_eq .dmem _ _) fun word _ => ?_
  have hconstant : (UCode.ir p 32 10).setWidth 32 = ir t.p0 32 10 :=
    UCode.ir_cast hp 32 10 (by decide) (by decide)
  refine mirrors_modify_bind (mirrors_pure word ⟨hp, ?_, hoa⟩)
  exact congrArg (fun w => { t.mirror p with dispatchConstant := w }) hconstant

/-- `Dsp` from the dispatch word on. -/
theorem tracks_dispatchTransfer {n : ℕ} (h : Corresponds s u) (hn : n ≤ s.trace.length)
    (word : Word) : Tracks (QuietHistory port n) (dispatchTransfer port word)
      (UCode.dispatchTransfer port word) s u := by
  have hbit (k : ℕ) : word.getLsbD k = true ↔ (word >>> k) &&& 1 ≠ 0 :=
    (UCode.shift_and_one_ne_zero word k).symm
  have hinhibit : decide ((word >>> 14) &&& 1 ≠ 0) = word.getLsbD 14 := by
    rw [decide_eq_decide.mpr (hbit 14).symm, Bool.decide_coe]
  have hrest (p n r : Prop) [Decidable p] [Decidable n] [Decidable r] (b : Bool) :
      Along Later (do
        doWhen n (modify fun s => { s with inhibit := true })
        doWhen (¬ (p ∧ r)) (do
          doWhen p (pushReturn b)
          let target ← (if r then popTarget port else pure (word &&& 0o37777))
          modify fun s => { s with npc := target, popj := false }) : Micro β Unit) := by
    refine along_bind (along_doWhen (along_update (fun _ => rfl) fun _ => rfl)) fun _ => ?_
    refine along_doWhen (along_bind (along_doWhen (along_pushReturn b)) fun _ => ?_)
    refine along_bind (along_ite along_popTarget (along_pure _)) fun target => ?_
    exact along_update (fun _ => rfl) fun _ => rfl
  refine mirrors_get ?_
  dsimp only
  rw [hinhibit]
  refine mirrors_doWhen_modify_bind (and_congr (flag_iff h.p0 25 (by decide)) (hbit 14)) ?_
  intro t w ht
  have hsame : t.trace = s.trace ∧ Corresponds t w := by
    obtain ⟨p, hp, hoa, rfl⟩ := h.exists_word
    rcases ht with ⟨rfl, rfl⟩ | ⟨rfl, rfl⟩
    · exact ⟨rfl, hp, rfl, hoa⟩
    · exact ⟨rfl, h⟩
  obtain ⟨htrace, ht'⟩ := hsame
  refine mirrors_bind_along (mirrors_doWhen (flag_iff h.p0 24 (by decide)) (fun _ => ?_) ht')
    QuietHistory.of_later (fun _ => hrest _ _ _ _) ?_
  · exact mirrors_bind_along (tracks_advanceLC ht' (htrace ▸ hn) 0) QuietHistory.of_later
      (fun _ => along_pure ()) fun _ _ _ _ h => mirrors_pure () h
  intro _ t' w' hadvance h'
  have hmore : n ≤ t'.trace.length := by
    have hlater := (Along.of_ok (along_doWhen (along_bind (along_advanceLC 0)
      fun _ => along_pure ())) hadvance).trace.length_le
    rw [htrace] at hlater
    exact hn.trans hlater
  refine mirrors_doWhen_modify_bind (hbit 14) ?_
  intro t w ht
  have hsame : t.trace = t'.trace ∧ Corresponds t w := by
    obtain ⟨p, hp, hoa, rfl⟩ := h'.exists_word
    rcases ht with ⟨rfl, rfl⟩ | ⟨rfl, rfl⟩
    · exact ⟨rfl, hp, rfl, hoa⟩
    · exact ⟨rfl, h'⟩
  obtain ⟨htrace', ht'⟩ := hsame
  refine mirrors_doWhen (not_congr (and_congr (hbit 15) (hbit 16))) (fun _ => ?_) ht'
  refine mirrors_bind_ok (mirrors_doWhen (hbit 15) (fun _ => tracks_pushReturn ht' _) ht') ?_
  intro _ t'' w'' hpush h''
  have hmore' : n ≤ t''.trace.length := by
    have hlater := (Along.of_ok (along_doWhen (along_pushReturn _)) hpush).trace.length_le
    rw [htrace'] at hlater
    exact hmore.trans hlater
  refine mirrors_bind_along (mirrors_ite (hbit 16) (fun _ => tracks_popTarget h'' hmore')
    fun _ => mirrors_pure _ h'') QuietHistory.of_later
    (fun _ => along_update (fun _ => rfl) fun _ => rfl) ?_
  intro target t w _ h
  obtain ⟨p, hp, hoa, rfl⟩ := h.exists_word
  exact mirrors_modify ⟨hp, rfl, hoa⟩

/-- `Dsp`. -/
theorem tracks_dsp {n : ℕ} (h : Corresponds s u) (hn : n ≤ s.trace.length) :
    Tracks (QuietHistory port n) (dsp port) (UCode.dsp port) s u := by
  obtain ⟨p, hp, hoa, rfl⟩ := h.exists_word
  refine mirrors_get ?_
  refine mirrors_ite (UCode.ir_eq_iff hp 10 2 (by decide) (by decide) (by decide)).symm
    (fun _ => ?_) fun _ => ?_
  · simp only [Engine.p0_mirror, UCode.ir_cast hp 12 11 (by decide) (by decide)]
    refine tracks_fromExcept_bind (UCode.setItem_eq .dmem _ _ _) fun dmem _ => ?_
    exact mirrors_modify ⟨hp, rfl, hoa⟩
  · refine mirrors_bind_ok (tracks_dispatchWord h) fun word t w hword h' => ?_
    have hcore : t.trace = s.trace :=
      congrArg Core.trace (core_eq_of_moves port (fun _ => moves_dispatchWord) hword)
    exact tracks_dispatchTransfer h' (hcore ▸ hn) word

end Usim
