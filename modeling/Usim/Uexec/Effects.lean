import Mathlib.Logic.Relation
import Usim.Translation
import Usim.Uexec.Step

/-!
# What a microinstruction can change

The invariants of the machine are about a small part of its state: the micro
stack, the location counter, the maps, and a few registers. Everything that
the execution of a microinstruction does to this core is a sequence of the
effects below, so an invariant is checked once for each effect.
-/

namespace Usim

open Lib

/-- The part of the state that the invariants are about. -/
structure Core where
  /-- The microinstruction being executed. -/
  p0 : BitVec 64
  /-- The next micro PC. -/
  npc : Word
  /-- The address maps. -/
  maps : Maps
  /-- The micro stack. -/
  spc : Fin 32 → Word
  /-- The micro stack pointer. -/
  spcptr : Word
  /-- The PDL pointer. -/
  pdlPointer : Word
  /-- The PDL index. -/
  pdlIndex : Word
  /-- The location counter. -/
  lc : Word
  /-- The interrupt control register. -/
  interruptControl : Word
  /-- How many cycles the read in progress still takes. -/
  newMdDelay : Word
  /-- The low modifier of the next microinstruction. -/
  oaRegLow : Word
  /-- The observations of the run. -/
  trace : List Event

variable {β : Type}

/-- The core of a state. -/
def Engine.core (s : Engine β) : Core where
  p0 := s.p0
  npc := s.npc
  maps := s.toMaps
  spc := s.spc
  spcptr := s.spcptr
  pdlPointer := s.pdlPointer
  pdlIndex := s.pdlIndex
  lc := s.lc
  interruptControl := s.interruptControl
  newMdDelay := s.newMdDelay
  oaRegLow := s.oaRegLow
  trace := s.trace

/-- The element of the micro stack that a masked pointer selects. -/
def ringIndex (w : Word) : Fin 32 :=
  ⟨(w &&& 0o37).toNat, by
    rw [toNat_and_mask _ _ (n := 5) rfl]
    exact Nat.mod_lt _ (by decide)⟩

/-- The number of the element that a masked pointer selects. -/
theorem ringIndex_val (w : Word) : (ringIndex w).val = w.toNat % 2 ^ 5 :=
  toNat_and_mask _ _ rfl

/-- The location counter after its increment. -/
def incrementedLc (lc interruptControl : Word) : Word :=
  if interruptControl.getLsbD 29 then lc + 1 else lc + 2

/-- `advanceLC` fetches a word when NEED-FETCH is set after the increment. -/
def needFetch (lc interruptControl : Word) : Bool :=
  (incrementedLc lc interruptControl).getLsbD 31

/-- The incremented location counter without NEED-FETCH, set again when the
last byte of a word comes next. -/
def advancedLc (lc interruptControl : Word) : Word :=
  let next := if needFetch lc interruptControl then
      incrementedLc lc interruptControl &&& ~~~(1#32 <<< 31)
    else incrementedLc lc interruptControl
  if !(interruptControl.getLsbD 29 && next.getLsbD 0) && !next.getLsbD 1 then
    next ||| (1#32 <<< 31)
  else next

namespace Core

/-- The core after an observation. -/
def observe (c : Core) (e : Event) : Core := { c with trace := c.trace ++ [e] }

/-- The core after a push. -/
def push (c : Core) (w : Word) : Core :=
  { c with
    spcptr := (c.spcptr + 1) &&& 0o37
    spc := Function.update c.spc (ringIndex (c.spcptr + 1)) w
    trace := c.trace ++ [.push w] }

/-- The core after a pop. -/
def pop (c : Core) : Core :=
  { c with
    spcptr := (c.spcptr - 1) &&& 0o37
    trace := c.trace ++ [.pop (c.spc (ringIndex c.spcptr))] }

/-- The core after starting a memory read. -/
def startRead (c : Core) (vaddr : Word) : Core :=
  { c with newMdDelay := 2, trace := c.trace ++ [.read vaddr] }

/-- The core after advancing the location counter. -/
def advance (c : Core) : Core :=
  { c with
    lc := advancedLc c.lc c.interruptControl
    newMdDelay := if needFetch c.lc c.interruptControl then 2 else c.newMdDelay
    trace := c.trace ++ .advance c.lc c.interruptControl ::
      (if needFetch c.lc c.interruptControl then [.read ((c.lc &&& 0o377777777) >>> 2)] else []) }

/-- The core after a write of the location counter. -/
def writeLc (c : Core) (data : Word) : Core :=
  let lc := (c.lc &&& ~~~0o377777777#32) ||| (data &&& 0o377777777)
  let lc := if c.interruptControl.getLsbD 29 then lc else lc &&& ~~~1#32
  { c with lc := lc ||| (1#32 <<< 31) }

/-- The core after a write of the interrupt control register. -/
def writeInterruptControl (c : Core) (data : Word) : Core :=
  { c with
    interruptControl := data
    lc := (c.lc &&& ~~~(0o17#32 <<< 26)) ||| (data &&& (0o17#32 <<< 26)) }

end Core

/-- An effect of a microinstruction on registers and memories. -/
inductive RegisterEffect : Core → Core → Prop
  | push (c : Core) (w : Word) : RegisterEffect c (c.push w)
  | pop (c : Core) (h : c.spcptr.toNat < 32) : RegisterEffect c c.pop
  | startRead (c : Core) (vaddr : Word) : RegisterEffect c (c.startRead vaddr)
  | advance (c : Core) : RegisterEffect c c.advance
  | writeLc (c : Core) (data : Word) : RegisterEffect c (c.writeLc data)
  | writeInterruptControl (c : Core) (data : Word) : RegisterEffect c (c.writeInterruptControl data)
  | setPdlPointer (c : Core) (w : Word) :
      RegisterEffect c { c with pdlPointer := w &&& 0o1777 }
  | setPdlIndex (c : Core) (w : Word) : RegisterEffect c { c with pdlIndex := w &&& 0o1777 }
  | writeMap (c : Core) {vma md : Word} {maps : Maps} (h : uvmemWriteMap c.maps vma md = .ok maps) :
      RegisterEffect c { c with maps := maps }
  | setOaRegLow (c : Core) (data : Word) :
      RegisterEffect c { c with oaRegLow := data &&& 0o377777777 }

/-- An effect of a microinstruction other than DISPATCH, transfers of control included. -/
inductive TransferEffect : Core → Core → Prop
  | register {c c' : Core} (h : RegisterEffect c c') : TransferEffect c c'
  | resume (c : Core) (w : Word) : TransferEffect c (c.observe (.resume w))
  | transfer (c : Core) {target : Word} (h : target.toNat < 2 ^ 14) :
      TransferEffect c { c with npc := target }

/-- An effect of a microinstruction. Only DISPATCH steps the micro PC back. -/
inductive Effect : Core → Core → Prop
  | transfer {c c' : Core} (h : TransferEffect c c') : Effect c c'
  | decrement (c : Core) : Effect c { c with npc := c.npc - 1 }

variable (port : VmPort β)

/-- Why a microinstruction fails. -/
inductive Blame : Fault → Core → Prop
  | err (call : ErrCall) (c : Core) : Blame (.err call) c
  | port {write : Bool} {vaddr v : Word} {maps : Maps} {b : BusState β} {e : Fault}
      (h : port.vm write vaddr v maps b = .error e) (c : Core) : Blame e c
  | spc {c : Core} (h : 32 ≤ c.spcptr.toNat) : Blame (.subscript .spc c.spcptr.toNat) c
  | pdlPointer {c : Core} (h : 1024 ≤ c.pdlPointer.toNat) :
      Blame (.subscript .pdl c.pdlPointer.toNat) c
  | pdlIndex {c : Core} (h : 1024 ≤ c.pdlIndex.toNat) : Blame (.subscript .pdl c.pdlIndex.toNat) c
  | map {c : Core} {vma md : Word} {e : Fault} (h : uvmemWriteMap c.maps vma md = .error e) :
      Blame e c
  | amem {c : Core} (hop : ir c.p0 43 2 = 0 ∨ ir c.p0 43 2 = 3)
      (hselect : ir c.p0 14 12 &&& 0o4000 ≠ 0)
      (h : 1024 ≤ (ir c.p0 14 12 &&& 0o3777).toNat) :
      Blame (.subscript .amem (ir c.p0 14 12 &&& 0o3777).toNat) c

/-- From `s`, the computation changes the core by a sequence of the effects
`R`, and a failure is to blame on a core on the way. -/
def Moves {α : Type} (R : Core → Core → Prop) (s : Engine β) (m : Micro β α) : Prop :=
  Post m s (fun _ t => Relation.ReflTransGen R s.core t.core)
    (fun e _ => ∃ c, Relation.ReflTransGen R s.core c ∧ Blame port e c)

variable {port} {R : Core → Core → Prop} {α γ : Type} {s : Engine β}

/-- Returning a value has no effect. -/
theorem moves_pure (a : α) : Moves port R s (pure a) :=
  (post_pure a).mpr Relation.ReflTransGen.refl

/-- The effects of a sequence are those of its parts. -/
theorem Moves.bind {m : Micro β α} {f : α → Micro β γ} (hm : Moves port R s m)
    (hf : ∀ a t, Moves port R t (f a)) : Moves port R s (m >>= f) := by
  refine post_bind.mpr (hm.mono (fun a t hst => ?_) (fun _ _ h => h))
  refine (hf a t).mono (fun _ _ htu => hst.trans htu) ?_
  rintro e _ ⟨c, htc, hblame⟩
  exact ⟨c, hst.trans htc, hblame⟩

/-- Reading the state has no effect, and gives the state. -/
theorem moves_get {f : Engine β → Micro β α} (hf : Moves port R s (f s)) :
    Moves port R s (get >>= f) :=
  post_bind.mpr (post_get.mpr hf)

/-- The effects of a sequence whose head returns values with a property. -/
theorem Moves.bind_of {V : α → Prop} {m : Micro β α} {f : α → Micro β γ} (hm : Moves port R s m)
    (hV : Post m s (fun a _ => V a) fun _ _ => True) (hf : ∀ a t, V a → Moves port R t (f a)) :
    Moves port R s (m >>= f) := by
  refine post_bind.mpr ((hm.and hV).mono (fun a t ⟨hst, ha⟩ => ?_) fun _ _ h => h.1)
  refine (hf a t ha).mono (fun _ _ htu => hst.trans htu) ?_
  rintro e _ ⟨c, htc, hblame⟩
  exact ⟨c, hst.trans htc, hblame⟩

/-- An update of registers outside the core has no effect. -/
theorem moves_modify {f : Engine β → Engine β} (h : (f s).core = s.core) :
    Moves port R s (modify f) :=
  post_modify.mpr (h ▸ Relation.ReflTransGen.refl)

/-- An update of registers outside the core, and a continuation from the updated state. -/
theorem moves_modify_bind {f : Engine β → Engine β} {k : Unit → Micro β α}
    (h : (f s).core = s.core) (hk : Moves port R (f s) (k ())) :
    Moves port R s (modify f >>= k) := by
  refine post_bind.mpr (post_modify.mpr ?_)
  unfold Moves at hk
  rwa [h] at hk

/-- An update with one effect. -/
theorem moves_effect {f : Engine β → Engine β} (h : R s.core (f s).core) :
    Moves port R s (modify f) :=
  post_modify.mpr (Relation.ReflTransGen.single h)

/-- A failure that is to blame on the state. -/
theorem moves_throw {e : Fault} (h : Blame port e s.core) :
    Moves port R s (throw e : Micro β α) :=
  (post_throw e).mpr ⟨s.core, Relation.ReflTransGen.refl, h⟩

/-- A pure computation, whose failures are to blame on the state, and a continuation. -/
theorem moves_fromExcept {x : Except Fault γ} {f : γ → Micro β α}
    (hok : ∀ a, x = .ok a → Moves port R s (f a))
    (herror : ∀ e, x = .error e → Blame port e s.core) :
    Moves port R s (fromExcept x >>= f) := by
  cases x with
  | ok a => exact hok a rfl
  | error e =>
    rw [fromExcept_error]
    exact post_bind.mpr ((post_throw e).mpr ⟨s.core, Relation.ReflTransGen.refl, herror e rfl⟩)

/-- A conditional command has the effects of the command. -/
theorem moves_doWhen {c : Prop} [Decidable c] {m : Micro β Unit} (h : c → Moves port R s m) :
    Moves port R s (doWhen c m) :=
  post_doWhen.mpr ⟨h, fun _ => Relation.ReflTransGen.refl⟩

/-- A conditional has the effects of the selected branch. -/
theorem moves_ite {c : Prop} [Decidable c] {m n : Micro β α} (hm : c → Moves port R s m)
    (hn : ¬c → Moves port R s n) : Moves port R s (if c then m else n) :=
  post_ite.mpr ⟨hm, hn⟩

/-- More effects are allowed. -/
theorem Moves.weaken {R' : Core → Core → Prop} {m : Micro β α} (hm : Moves port R s m)
    (h : ∀ c c', R c c' → R' c c') : Moves port R' s m := by
  refine Post.mono hm (fun _ _ hst => Relation.ReflTransGen.mono h _ _ hst) ?_
  rintro e _ ⟨c, hsc, hblame⟩
  exact ⟨c, Relation.ReflTransGen.mono h _ _ hsc, hblame⟩

/-- A bus cycle changes nothing of the core. -/
theorem moves_vmCycle (write : Bool) (vaddr v : Word) :
    Moves port R s (vmCycle port write vaddr v) := by
  refine moves_get (moves_fromExcept (fun r _ => ?_) fun e he => .port he s.core)
  exact (moves_modify rfl).bind fun _ _ => moves_pure _

/-- A write of the processor. -/
theorem moves_vmWrite (vaddr v : Word) : Moves port R s (vmWrite port vaddr v) :=
  (moves_vmCycle _ _ _).bind fun _ _ => moves_pure _

/-- A read started for MD is one effect. -/
theorem moves_startRead (vaddr : Word) :
    Moves port RegisterEffect s (startRead port vaddr) := by
  unfold startRead Usim.observe vmRead vmCycle
  simp only [Moves, post_bind, post_modify, post_get, post_pure, post_fromExcept]
  refine ⟨fun r hr => ?_, fun e he => ?_⟩
  · exact Relation.ReflTransGen.single (.startRead s.core vaddr)
  · exact ⟨s.core, Relation.ReflTransGen.refl, .port he s.core⟩

/-- A push changes the core as it should, and always succeeds. -/
theorem post_pushSPC (w : Word) :
    Post (pushSPC w) s (fun _ t => t.core = s.core.push w) fun _ _ => False := by
  have hassign : assign .spc s.spc ((s.spcptr + 1) &&& 0o37) w =
      .ok (Function.update s.spc (ringIndex (s.spcptr + 1)) w) := assign_fin rfl
  unfold pushSPC Usim.observe
  simp only [post_bind, post_modify, post_get, hassign, fromExcept_ok, post_pure]
  rfl

/-- A push is one effect. -/
theorem moves_pushSPC (w : Word) : Moves port RegisterEffect s (pushSPC w) := by
  refine (post_pushSPC w).mono (fun _ t ht => ?_) fun _ _ h => h.elim
  rw [ht]
  exact Relation.ReflTransGen.single (.push s.core w)

/-- A pop changes the core as it should, and returns the top. -/
theorem post_popSPC :
    Post popSPC s (fun v t => t.core = s.core.pop ∧ v = s.spc (ringIndex s.spcptr) ∧
      s.spcptr.toNat < 32) fun e _ => Blame port e s.core := by
  refine post_bind.mpr (post_get.mpr (post_bind.mpr (post_fromExcept.mpr
    ⟨fun v hv => ?_, fun e he => ?_⟩)))
  · have hlt : s.spcptr.toNat < 32 := by
      by_contra hge
      rw [subscript, dif_neg hge] at hv
      cases hv
    have hindex : s.spcptr.toNat = ringIndex s.spcptr := by
      rw [ringIndex_val]
      exact (Nat.mod_eq_of_lt hlt).symm
    rw [subscript_fin hindex] at hv
    obtain rfl := Except.ok.inj hv
    unfold Usim.observe
    simp only [post_bind, post_modify, post_pure]
    exact ⟨rfl, trivial, hlt⟩
  · obtain ⟨rfl, hge⟩ := subscript_error he
    exact Blame.spc (c := s.core) hge

/-- A pop is one effect. -/
theorem moves_popSPC : Moves port RegisterEffect s popSPC := by
  refine post_popSPC.mono (fun v t ht => ?_) fun e _ h => ⟨s.core, Relation.ReflTransGen.refl, h⟩
  rw [ht.1]
  exact Relation.ReflTransGen.single (.pop s.core ht.2.2)

/-- What `advanceLC` returns: its argument, with bit 1 set unless it fetches. -/
def advancedPc (lc interruptControl ppc : Word) : Word :=
  if needFetch lc interruptControl then ppc else ppc ||| 2

/-- `advanceLC` advances the core once, and tells through its result whether it
fetches. -/
theorem post_advanceLC (ppc : Word) :
    Post (advanceLC port ppc) s
      (fun v t => t.core = s.core.advance ∧ v = advancedPc s.lc s.interruptControl ppc)
      (fun e _ => Blame port e s.core) := by
  have hinc : (if s.interruptControl.getLsbD 29 then s.lc + 1 else s.lc + 2) =
      incrementedLc s.lc s.interruptControl := rfl
  have hneed : (incrementedLc s.lc s.interruptControl).getLsbD 31 =
      needFetch s.lc s.interruptControl := rfl
  unfold advanceLC recordLcHistory startRead Usim.observe vmRead vmCycle
  simp only [post_bind, post_modify, post_get, post_pure, post_fromExcept, post_doWhen, post_ite,
    hinc, hneed]
  refine ⟨fun r _ => ⟨fun hfetch => ⟨fun r' _ => ⟨fun hlast => ?_, fun hlast => ?_⟩,
    fun e he => .port he s.core⟩, fun hfetch => ⟨fun hlast => ?_, fun hlast => ?_⟩⟩,
    fun e he => .port he s.core⟩ <;>
  simp only [Engine.core, Core.advance, advancedLc, advancedPc, hfetch, hlast, if_true, if_false,
    Bool.false_eq_true, and_self, List.append_assoc, List.cons_append, List.nil_append]

/-- Advancing the location counter is one effect. -/
theorem moves_advanceLC (ppc : Word) :
    Moves port RegisterEffect s (advanceLC port ppc) := by
  refine (post_advanceLC ppc).mono (fun v t ht => ?_) ?_
  · rw [ht.1]
    exact Relation.ReflTransGen.single (.advance s.core)
  · exact fun e _ h => ⟨s.core, Relation.ReflTransGen.refl, h⟩

/-- Reading the PDL at a pointer that is to blame for a failure. -/
theorem moves_readPdl {i : Word}
    (h : 1024 ≤ i.toNat → Blame port (.subscript .pdl i.toNat) s.core) :
    Moves port R s (fromExcept (subscript .pdl s.pdl i)) := by
  refine post_fromExcept.mpr ⟨fun _ _ => Relation.ReflTransGen.refl, fun e he => ?_⟩
  obtain ⟨rfl, hge⟩ := subscript_error he
  exact ⟨s.core, Relation.ReflTransGen.refl, h hge⟩

/-- Reading a functional source pops the micro stack, moves the PDL pointer, or
changes nothing. -/
theorem moves_mfread (addr : Word) : Moves port RegisterEffect s (mfread addr) := by
  refine moves_get ?_
  split
  case h_2 =>
    refine moves_fromExcept (fun v _ => moves_pure _) fun e he => ?_
    obtain ⟨rfl, hge⟩ := subscript_error he
    exact Blame.spc (c := s.core) hge
  case h_5 => exact moves_readPdl fun hge => .pdlIndex (c := s.core) hge
  case h_9 =>
    rw [uvmemVtop_eq]
    exact moves_pure _
  case h_12 => exact moves_popSPC.bind fun _ _ => moves_pure _
  case h_14 =>
    refine (moves_readPdl fun hge => .pdlPointer (c := s.core) hge).bind fun v t => ?_
    refine (moves_effect ?_).bind fun _ _ => moves_pure _
    exact RegisterEffect.setPdlPointer t.core (t.pdlPointer - 1)
  case h_15 => exact moves_readPdl fun hge => .pdlPointer (c := s.core) hge
  case h_17 => exact moves_throw (.err _ _)
  all_goals exact moves_pure _

/-- A write of the PDL at a pointer that is to blame for a failure. -/
theorem moves_writePdl {i : Word} (data : Word)
    (h : 1024 ≤ i.toNat → Blame port (.subscript .pdl i.toNat) s.core) :
    Moves port R s (writePdl i data) := by
  refine moves_get (moves_fromExcept (fun pdl _ => moves_modify rfl) fun e he => ?_)
  obtain ⟨rfl, hge⟩ := assign_error he
  exact h hge

/-- A write of the maps is one effect. -/
theorem moves_writeMap (vma md : Word) :
    Moves port RegisterEffect s (writeMap vma md) :=
  moves_get (moves_fromExcept (fun _ h => moves_effect (.writeMap s.core h)) fun _ h => .map h)

/-- A write of the location counter is one effect. -/
theorem moves_writeLc (data : Word) :
    Moves port RegisterEffect s (writeLc data) :=
  moves_effect (RegisterEffect.writeLc s.core data)

/-- A write of the interrupt control register is one effect. -/
theorem moves_writeInterruptControl (data : Word) :
    Moves port RegisterEffect s (writeInterruptControl port data) := by
  unfold writeInterruptControl
  simp only [Moves, post_bind, post_modify, post_doWhen]
  refine ⟨fun _ => ?_, fun _ => ?_⟩ <;>
  exact Relation.ReflTransGen.single (.writeInterruptControl s.core data)

/-- Writing a functional destination. -/
theorem moves_mfwrite (dest data : Word) :
    Moves port RegisterEffect s (mfwrite port dest data) := by
  refine moves_get ?_
  split
  case h_2 => exact moves_writeLc data
  case h_3 => exact moves_writeInterruptControl data
  case h_4 => exact moves_writePdl data fun hge => .pdlPointer (c := s.core) hge
  case h_5 =>
    have heffect : RegisterEffect s.core
        { s with pdlPointer := (s.pdlPointer + 1) &&& 0o1777 : Engine β }.core :=
      RegisterEffect.setPdlPointer s.core (s.pdlPointer + 1)
    refine (moves_effect heffect).bind fun _ t => ?_
    refine moves_writePdl data fun hge => ?_
    rw [toNat_and_mask _ _ (n := 10) rfl] at hge
    have hlt : (s.pdlPointer + 1).toNat % 2 ^ 10 < 2 ^ 10 := Nat.mod_lt _ (by decide)
    omega
  case h_6 => exact moves_writePdl data fun hge => .pdlIndex (c := s.core) hge
  case h_7 => exact moves_effect (RegisterEffect.setPdlIndex s.core data)
  case h_8 => exact moves_effect (RegisterEffect.setPdlPointer s.core data)
  case h_9 => exact moves_pushSPC data
  case h_10 => exact moves_effect (RegisterEffect.setOaRegLow s.core data)
  case h_11 => exact moves_modify rfl
  case h_12 => exact moves_modify rfl
  case h_13 => exact moves_modify_bind rfl (moves_startRead data)
  case h_14 => exact moves_modify_bind rfl (moves_vmWrite data s.mdReg)
  case h_15 => exact moves_modify_bind rfl (moves_writeMap data s.mdReg)
  case h_16 => exact moves_modify rfl
  case h_17 => exact moves_modify_bind rfl (moves_startRead s.vmaReg)
  case h_18 => exact moves_modify_bind rfl (moves_vmWrite s.vmaReg data)
  case h_19 => exact moves_modify_bind rfl (moves_writeMap s.vmaReg data)
  all_goals exact moves_pure _

/-- Writing the destination of a microinstruction fails only at an A memory
address beyond the A memory. -/
theorem moves_writeDest {dest : Word}
    (hamem : dest &&& 0o4000 ≠ 0 → 1024 ≤ (dest &&& 0o3777).toNat →
      Blame port (.subscript .amem (dest &&& 0o3777).toNat) s.core) :
    Moves port RegisterEffect s (writeDest port dest) := by
  have hlow : (dest &&& 0o37).toNat < 32 := by
    rw [toNat_and_mask _ _ (n := 5) rfl]
    exact Nat.mod_lt _ (by decide)
  refine moves_ite (fun hselect => ?_) fun _ => ?_
  · refine moves_get (moves_fromExcept (fun amem _ => moves_modify rfl) fun e he => ?_)
    obtain ⟨rfl, hge⟩ := assign_error he
    exact hamem hselect hge
  · refine moves_get ((moves_mfwrite dest s.out).bind fun _ t => moves_get ?_)
    rw [assign_eq (by omega), assign_eq hlow]
    exact moves_modify rfl

/-- Writing the destination of an ALU or BYTE instruction. -/
theorem moves_writeDest_ir (hop : ir s.p0 43 2 = 0 ∨ ir s.p0 43 2 = 3) :
    Moves port RegisterEffect s (writeDest port (ir s.p0 14 12)) :=
  moves_writeDest fun hselect hge => Blame.amem (c := s.core) hop hselect hge

/-- The ALU instruction. -/
theorem moves_alu (hop : ir s.p0 43 2 = 0) : Moves port RegisterEffect s (alu port) := by
  refine moves_get (moves_modify_bind rfl (moves_modify_bind rfl (moves_modify_bind rfl ?_)))
  exact moves_writeDest_ir (.inl hop)

/-- The BYTE instruction. -/
theorem moves_byt (hop : ir s.p0 43 2 = 3) : Moves port RegisterEffect s (byt port) := by
  refine moves_get (moves_modify_bind rfl ?_)
  exact moves_writeDest_ir (.inr hop)

/-- Decoding reads the operands and finds the opcode. -/
theorem moves_decode : Moves port RegisterEffect s decode := by
  have haddr (w : BitVec 64) : (ir w 26 5).toNat < 32 := ir_lt w 26 (by decide)
  have haaddr (w : BitVec 64) : (ir w 32 10).toNat < 1024 := ir_lt w 32 (by decide)
  unfold decode
  refine moves_modify_bind rfl (moves_get (Moves.bind ?_ fun mdata t => ?_))
  · refine moves_ite (fun _ => ?_) fun _ => moves_mfread _
    rw [subscript_eq (haddr s.p0)]
    exact moves_pure _
  · refine moves_fromExcept (fun _ _ => moves_modify rfl) fun e he => ?_
    obtain ⟨rfl, hge⟩ := subscript_error he
    exact absurd (haaddr s.p0) (Nat.not_lt.mpr hge)

/-- The push of a call. -/
theorem moves_pushReturn (n : Bool) : Moves port RegisterEffect s (pushReturn n) :=
  moves_get (moves_pushSPC _)

/-- The test of a JUMP. -/
theorem moves_checkJcond : Moves port R s checkJcond := by
  refine moves_get (moves_ite (fun _ => moves_modify_bind rfl (moves_pure _)) fun _ => ?_)
  split
  case h_8 => exact moves_throw (.err _ _)
  all_goals exact moves_pure _

/-- The first half of a DISPATCH. -/
theorem moves_dispatchWord : Moves port R s dispatchWord := by
  have hmask (i : Word) : (i &&& 0o3777).toNat < 2048 := by
    rw [toNat_and_mask _ _ (n := 11) rfl]
    exact Nat.mod_lt _ (by decide)
  refine moves_get (moves_modify_bind rfl (Moves.bind ?_ fun bits t => ?_))
  · refine moves_ite (fun _ => ?_) fun _ => moves_pure _
    rw [uvmemVtop_eq]
    exact moves_pure _
  · rw [subscript_eq (hmask _), fromExcept_ok, pure_bind]
    exact moves_modify_bind rfl (moves_pure _)

/-- Effects on registers are effects of a transfer. -/
theorem Moves.register {m : Micro β α} (hm : Moves port RegisterEffect s m) :
    Moves port TransferEffect s m :=
  hm.weaken fun _ _ => .register

/-- Effects of a transfer are effects. -/
theorem Moves.effect {m : Micro β α} (hm : Moves port TransferEffect s m) :
    Moves port Effect s m :=
  hm.weaken fun _ _ => .transfer

/-- The pop of a return target, with the advance that bit 14 asks for. -/
theorem moves_popTarget : Moves port TransferEffect s (popTarget port) := by
  refine moves_popSPC.register.bind fun w t => ?_
  refine Moves.bind (moves_effect (TransferEffect.resume t.core w)) fun _ t => ?_
  refine Moves.bind (moves_ite (fun _ => ?_) fun _ => moves_pure _) fun _ t => moves_pure _
  exact (moves_advanceLC w).register

/-- Masking with 037777 leaves a target of 14 bits. -/
theorem toNat_and_037777_lt (w : Word) : (w &&& 0o37777).toNat < 2 ^ 14 := by
  rw [toNat_and_mask _ _ (n := 14) rfl]
  exact Nat.mod_lt _ (by decide)

/-- The popped target has 14 bits. -/
theorem post_popTarget_lt :
    Post (popTarget port) s (fun w _ => w.toNat < 2 ^ 14) fun _ _ => True := by
  refine post_bind.mpr (Post.always (fun w t => ?_) fun _ _ => trivial)
  refine post_bind.mpr (Post.always (fun _ t => ?_) fun _ _ => trivial)
  refine post_bind.mpr (Post.always (fun w t => ?_) fun _ _ => trivial)
  exact (post_pure _).mpr (toNat_and_037777_lt w)

/-- A transfer to the popped target or to a target of 14 bits. -/
theorem moves_transfer {c : Prop} [Decidable c] {target : Word} (htarget : target.toNat < 2 ^ 14)
    {f : Word → Micro β α}
    (hf : ∀ w t, w.toNat < 2 ^ 14 → Moves port TransferEffect t (f w)) :
    Moves port TransferEffect s ((if c then popTarget port else pure target) >>= f) := by
  refine Moves.bind_of (moves_ite (fun _ => moves_popTarget) fun _ => moves_pure _) ?_ hf
  exact post_ite.mpr ⟨fun _ => post_popTarget_lt, fun _ => (post_pure _).mpr htarget⟩

/-- The second half of a DISPATCH. -/
theorem moves_dispatchTransfer (word : Word) :
    Moves port Effect s (dispatchTransfer port word) := by
  refine moves_get ?_
  refine (moves_doWhen fun _ => moves_effect (Effect.decrement s.core)).bind fun _ t => ?_
  refine (moves_doWhen fun _ => ?_).bind fun _ t => ?_
  · exact (moves_advanceLC 0).register.effect.bind fun _ _ => moves_pure _
  refine (moves_doWhen fun _ => moves_modify rfl).bind fun _ t => ?_
  refine moves_doWhen fun _ => Moves.effect ?_
  refine (moves_doWhen fun _ => (moves_pushReturn _).register).bind fun _ t => ?_
  refine moves_transfer (toNat_and_037777_lt word) fun w t hw => ?_
  exact moves_effect (TransferEffect.transfer t.core hw)

/-- The DISPATCH instruction. -/
theorem moves_dsp : Moves port Effect s (dsp port) := by
  have haddr (w : BitVec 64) : (ir w 12 11).toNat < 2048 := ir_lt w 12 (by decide)
  refine moves_get (moves_ite (fun _ => ?_) fun _ => ?_)
  · rw [assign_eq (haddr s.p0)]
    exact moves_modify rfl
  · exact moves_dispatchWord.bind fun word t => moves_dispatchTransfer word

/-- The transfer of a JUMP. -/
theorem moves_jumpTransfer (cond : Bool) :
    Moves port TransferEffect s (jumpTransfer port cond) := by
  refine moves_get ((moves_doWhen fun _ => (moves_pushReturn _).register).bind fun _ t => ?_)
  refine moves_transfer (ir_lt s.p0 12 (by decide)) fun w t hw => ?_
  refine moves_doWhen fun _ => (moves_doWhen fun _ => moves_modify rfl).bind fun _ t => ?_
  exact moves_effect (TransferEffect.transfer t.core hw)

/-- The JUMP instruction. -/
theorem moves_jmp : Moves port TransferEffect s (jmp port) := by
  have haddr (w : BitVec 64) : (ir w 12 14).toNat < 16384 := ir_lt w 12 (by decide)
  refine moves_get ((moves_doWhen fun _ => moves_modify rfl).bind fun _ t => ?_)
  refine moves_ite (fun _ => ?_) fun _ => ?_
  · rw [assign_eq (haddr s.p0)]
    exact moves_modify rfl
  · exact moves_checkJcond.bind fun cond t => moves_jumpTransfer _

/-- Reading a functional source leaves the microinstruction and its opcode. -/
theorem post_mfread_op (addr : Word) :
    Post (mfread addr) s (fun _ t => t.op = s.op ∧ t.p0 = s.p0) fun _ _ => True := by
  refine post_bind.mpr (post_get.mpr ?_)
  split <;>
  simp only [popSPC, Usim.observe, err, post_bind, post_get, post_modify, post_pure, post_throw,
    post_fromExcept, implies_true, and_self]

/-- Decoding leaves the opcode of the microinstruction in `op`. -/
theorem post_decode_op : Post decode s (fun _ t => t.op = ir t.p0 43 2) fun _ _ => True := by
  unfold decode
  refine post_bind.mpr (post_modify.mpr (post_bind.mpr (post_get.mpr (post_bind.mpr ?_))))
  have hread : Post (if ir s.p0 31 1 = 0 then fromExcept (subscript .mmem s.mmem (ir s.p0 26 5))
      else mfread (ir s.p0 26 5)) { s with
        op := ir s.p0 43 2
        popj := ir s.p0 42 1 = 1
        aaddr := ir s.p0 32 10
        maddr := ir s.p0 26 5 } (fun _ t => t.op = ir t.p0 43 2) fun _ _ => True := by
    refine post_ite.mpr ⟨fun _ => ?_, fun _ => ?_⟩
    · exact post_fromExcept.mpr ⟨fun _ _ => rfl, fun _ _ => trivial⟩
    · refine (post_mfread_op _).mono (fun _ t ht => ?_) fun _ _ h => h
      rw [ht.1, ht.2]
  refine hread.mono (fun _ t ht => ?_) fun _ _ h => h
  simp only [post_bind, post_fromExcept, post_modify, ht, implies_true, and_self]

/-- The opcode field of a decoded microinstruction. -/
theorem opcode_eq (hop : s.op = ir s.p0 43 2) {k : ℕ} (h : s.op.toNat = k) :
    ir s.p0 43 2 = BitVec.ofNat 32 k := by
  rw [← hop, ← h, BitVec.ofNat_toNat, BitVec.setWidth_eq]

/-- The operation that the opcode selects, if it is not DISPATCH. -/
theorem moves_operate_of_ne (hop : s.op = ir s.p0 43 2) (hdsp : s.op.toNat ≠ 2) :
    Moves port TransferEffect s (operate port) := by
  refine moves_get ?_
  split
  case h_1 h => exact (moves_alu (opcode_eq hop h)).register
  case h_2 => exact moves_jmp
  case h_3 h => exact absurd h hdsp
  case h_4 h => exact (moves_byt (opcode_eq hop h)).register
  case h_5 => exact moves_pure _

/-- The operation that the opcode selects. -/
theorem moves_operate (hop : s.op = ir s.p0 43 2) : Moves port Effect s (operate port) := by
  by_cases hdsp : s.op.toNat = 2
  · refine moves_get ?_
    rw [hdsp]
    exact moves_dsp
  · exact (moves_operate_of_ne hop hdsp).effect

/-- The pop of POPJ. -/
theorem moves_finishPopj : Moves port TransferEffect s (finishPopj port) := by
  refine moves_get (moves_doWhen fun _ => ?_)
  refine Moves.bind_of moves_popTarget post_popTarget_lt fun w t hw => ?_
  exact moves_effect (TransferEffect.transfer t.core hw)

/-- Executing a microinstruction changes the core by a sequence of effects. -/
theorem moves_execute : Moves port Effect s (execute port) := by
  refine post_bind.mpr ((moves_decode.register.effect.and post_decode_op).mono ?_ fun _ _ h => h.1)
  intro _ t ⟨hst, hop⟩
  have hrest : Moves port Effect t (do operate port; finishPopj port) :=
    (moves_operate hop).bind fun _ _ => moves_finishPopj.effect
  refine Post.mono hrest (fun _ _ htu => hst.trans htu) ?_
  rintro e _ ⟨c, htc, hblame⟩
  exact ⟨c, hst.trans htc, hblame⟩

end Usim
