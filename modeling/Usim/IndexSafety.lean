import Usim.MicroPc
import Usim.PhysicalAddress

/-!
# Array subscripts

Every array subscript of the micro engine is below the size of its array, but
for three: the PROM has 512 words and is read at the unmasked micro PC, the
decoder of A memory destinations passes 11 bits to an array of 1024 words, and
a DISPATCH can step the micro PC back from 0. The pointers and the maps stay in
range without any condition.
-/

namespace Usim

open Lib

variable {β : Type} {port : VmPort β}

/-- The pointers and the entries of the maps are below the sizes of the arrays they index. -/
structure Core.Indexed (c : Core) : Prop where
  /-- The micro stack pointer. -/
  spcptr : c.spcptr.toNat < 32
  /-- The PDL pointer. -/
  pdlPointer : c.pdlPointer.toNat < 1024
  /-- The PDL index. -/
  pdlIndex : c.pdlIndex.toNat < 1024
  /-- The level-1 entries, of five bits. -/
  maps : c.maps.WellFormed

/-- Masking with 01777 leaves an index of the PDL. -/
theorem toNat_and_01777_lt (w : Word) : (w &&& 0o1777).toNat < 1024 := by
  rw [toNat_and_mask _ _ (n := 10) rfl]
  exact Nat.mod_lt _ (by decide)

/-- Masking with 037 leaves an index of the micro stack. -/
theorem toNat_and_037_lt (w : Word) : (w &&& 0o37).toNat < 32 := by
  rw [toNat_and_mask _ _ (n := 5) rfl]
  exact Nat.mod_lt _ (by decide)

/-- Register effects keep the pointers and the maps in range. -/
theorem RegisterEffect.indexed {c c' : Core} (h : RegisterEffect c c') (hc : c.Indexed) :
    c'.Indexed := by
  cases h with
  | push => exact ⟨toNat_and_037_lt _, hc.pdlPointer, hc.pdlIndex, hc.maps⟩
  | pop => exact ⟨toNat_and_037_lt _, hc.pdlPointer, hc.pdlIndex, hc.maps⟩
  | setPdlPointer w => exact ⟨hc.spcptr, toNat_and_01777_lt w, hc.pdlIndex, hc.maps⟩
  | setPdlIndex w => exact ⟨hc.spcptr, hc.pdlPointer, toNat_and_01777_lt w, hc.maps⟩
  | writeMap hmaps =>
    rw [uvmemWriteMap_eq hc.maps.l1_lt] at hmaps
    obtain rfl := Except.ok.inj hmaps
    exact ⟨hc.spcptr, hc.pdlPointer, hc.pdlIndex, hc.maps.write _ _⟩
  | startRead => exact ⟨hc.spcptr, hc.pdlPointer, hc.pdlIndex, hc.maps⟩
  | advance => exact ⟨hc.spcptr, hc.pdlPointer, hc.pdlIndex, hc.maps⟩
  | writeLc => exact ⟨hc.spcptr, hc.pdlPointer, hc.pdlIndex, hc.maps⟩
  | writeInterruptControl => exact ⟨hc.spcptr, hc.pdlPointer, hc.pdlIndex, hc.maps⟩
  | setOaRegLow => exact ⟨hc.spcptr, hc.pdlPointer, hc.pdlIndex, hc.maps⟩

/-- Effects keep the pointers and the maps in range. -/
theorem Effect.indexed {c c' : Core} (h : Effect c c') (hc : c.Indexed) : c'.Indexed :=
  h.keeps (fun _ _ h hc => h.indexed hc)
    (fun _ _ hc => ⟨hc.spcptr, hc.pdlPointer, hc.pdlIndex, hc.maps⟩)
    (fun _ _ hc => ⟨hc.spcptr, hc.pdlPointer, hc.pdlIndex, hc.maps⟩) hc

/-- The pointers and the maps are in range in every state reached, without any condition. -/
theorem Reached.indexed {guard : Engine β → Prop} {s : Engine β} (hs : Reached port guard s) :
    s.core.Indexed := by
  have hzero : ∀ (v : Word), v = 0 → v.toNat < 2 ^ 5 ∧ v.toNat < 2 ^ 24 := by
    rintro _ rfl
    decide
  refine hs.core_induction (fun _ _ _ => ⟨Nat.zero_lt_succ _, Nat.zero_lt_succ _,
    Nat.zero_lt_succ _, fun _ => (hzero _ rfl).1, fun _ _ => (hzero _ rfl).2⟩) (fun c hc => ?_)
    (fun c p0 hc => ?_) fun _ _ h hc => h.indexed hc
  · exact ⟨hc.spcptr, hc.pdlPointer, hc.pdlIndex, hc.maps⟩
  · exact ⟨hc.spcptr, hc.pdlPointer, hc.pdlIndex, hc.maps⟩

/-- The offset of an A memory page is an index of the A memory. -/
theorem amemOffset_lt {page : BitVec 14} (h : IsAMemoryPage page) (vaddr : Word) :
    (((page.setWidth 32 - 0o35774) <<< 8) + ((vaddr &&& 0x00FFFFFF) &&& 0xFF) : Word).toNat <
      1024 := by
  have hlow : ((vaddr &&& 0x00FFFFFF) &&& 0xFF : Word).toNat < 2 ^ 8 := by
    rw [toNat_and_mask _ _ (n := 8) rfl]
    exact Nat.mod_lt _ (by decide)
  have hfirst : 0o35774 ≤ page.toNat := BitVec.le_def.mp h.1
  have hlast : page.toNat ≤ 0o35777 := BitVec.le_def.mp h.2
  have hsub : (page.setWidth 32 - 0o35774 : Word).toNat = page.toNat - 0o35774 := by
    have hle : (0o35774 : Word) ≤ page.setWidth 32 := by
      rw [BitVec.le_def, toNat_page]
      exact hfirst
    rw [BitVec.toNat_sub_of_le hle, toNat_page]
    rfl
  rw [BitVec.toNat_add, BitVec.toNat_shiftLeft, Nat.shiftLeft_eq, hsub]
  omega

/-- The virtual memory never exceeds an array. -/
theorem vm_not_subscript {busAdaptorRw : BusRw β} {write : Bool} {vaddr v : Word} {m : Maps}
    {b : BusState β} {e : Fault} (h : vm busAdaptorRw write vaddr v m b = .error e) :
    ¬ e.IsSubscript := by
  rw [vm_eq] at h
  split at h
  · cases h
  · split at h
    · rename_i hpage
      have hoffset := amemOffset_lt hpage vaddr
      dsimp only at h
      rw [assign_eq hoffset, subscript_eq hoffset] at h
      split at h <;> cases h
    · unfold busResult at h
      split at h
      · cases h
      · cases h
        exact id

/-- The destination that `writeDest` decodes as an A memory address beyond the
A memory. -/
theorem dest_beyond_amem {w : BitVec 64} (hselect : ir w 14 12 &&& 0o4000 ≠ 0)
    (hbeyond : 1024 ≤ (ir w 14 12 &&& 0o3777).toNat) :
    w.getLsbD 25 = true ∧ w.getLsbD 24 = true := by
  have hfield : (ir w 14 12).toNat = w.toNat / 2 ^ 14 % 2 ^ 12 := ir_toNat w 14 (by decide)
  have hselected : (ir w 14 12).getLsbD 11 = true := by
    by_contra hclear
    refine hselect ?_
    have hbit : (0o4000 : Word) = BitVec.twoPow 32 11 := by decide
    rw [hbit, BitVec.and_twoPow, if_neg hclear]
    rfl
  have hlow : (ir w 14 12 &&& 0o3777).toNat = (ir w 14 12).toNat % 2 ^ 11 :=
    toNat_and_mask _ _ rfl
  have hbit (i : ℕ) : w.getLsbD i = decide (w.toNat / 2 ^ i % 2 = 1) :=
    Nat.testBit_eq_decide_div_mod_eq
  have hbit' : (ir w 14 12).getLsbD 11 = decide ((ir w 14 12).toNat / 2 ^ 11 % 2 = 1) :=
    Nat.testBit_eq_decide_div_mod_eq
  rw [hbit', decide_eq_true_iff, hfield] at hselected
  rw [hlow, hfield] at hbeyond
  rw [hbit, hbit, decide_eq_true_iff, decide_eq_true_iff]
  omega

/-- The step from `s` stays within the arrays: the PROM is not selected beyond
its 512 words, no ALU or BYTE instruction with `IR<25>` and `IR<24>` set is
executed, and no DISPATCH steps the micro PC back from 0 without a transfer. -/
structure WithinArrays (s : Engine β) : Prop where
  /-- The PROM. -/
  prom : s.promdisabled = false → s.npc.toNat < 512
  /-- The destination. -/
  dest : s.inhibit = false → ir s.executedWord 43 2 = 0 ∨ ir s.executedWord 43 2 = 3 →
    ¬ (s.executedWord.getLsbD 25 = true ∧ s.executedWord.getLsbD 24 = true)
  /-- The micro PC. -/
  dispatch : ¬ DispatchUnderflows s

/-- A failure of a microinstruction that is not executed beyond the A memory is no subscript. -/
theorem Blame.not_subscript {busAdaptorRw : BusRw β} {busReset : BusState β → Bool × β} {e : Fault}
    {c : Core} (h : Blame (uvmemPort busAdaptorRw busReset) e c) (hc : c.Indexed)
    (hdest : ir c.p0 43 2 = 0 ∨ ir c.p0 43 2 = 3 →
      ¬ (c.p0.getLsbD 25 = true ∧ c.p0.getLsbD 24 = true)) : ¬ e.IsSubscript := by
  cases h with
  | err => exact id
  | port h => exact vm_not_subscript h
  | spc h => exact absurd hc.spcptr (Nat.not_lt.mpr h)
  | pdlPointer h => exact absurd hc.pdlPointer (Nat.not_lt.mpr h)
  | pdlIndex h => exact absurd hc.pdlIndex (Nat.not_lt.mpr h)
  | map h =>
    rw [uvmemWriteMap_eq hc.maps.l1_lt] at h
    cases h
  | amem hop hselect hbeyond => exact absurd (dest_beyond_amem hselect hbeyond) (hdest hop)

/-- The fetch from the selected control store succeeds. -/
theorem nextWord_ok {s : Engine β} (hnpc : s.npc.toNat < 2 ^ 14)
    (hprom : s.promdisabled = false → s.npc.toNat < 512) : ∃ w, s.nextWord = .ok w := by
  unfold Engine.nextWord
  cases hsel : s.promdisabled with
  | true =>
    rw [if_pos rfl, subscript_eq hnpc]
    exact ⟨_, rfl⟩
  | false =>
    rw [if_neg Bool.false_ne_true, subscript_eq (hprom hsel)]
    exact ⟨_, rfl⟩

/-- In every run whose microinstructions stay within the arrays, the micro PC,
the pointers and the maps are in range in every state reached, and the next
microinstruction evaluates no subscript at or beyond the size of its array if
it stays within them too. -/
theorem subscripts_within_arrays {busAdaptorRw : BusRw β} {busReset : BusState β → Bool × β}
    {s : Engine β} (hs : Reached (uvmemPort busAdaptorRw busReset) WithinArrays s) :
    s.npc.toNat < 2 ^ 14 ∧ s.spcptr.toNat < 32 ∧ s.pdlPointer.toNat < 1024 ∧
    s.pdlIndex.toNat < 1024 ∧ (∀ i, (s.l1Map i).toNat < 32) ∧
    (WithinArrays s → ∀ e t, uexecStep (uvmemPort busAdaptorRw busReset) s = .error e t →
      ¬ e.IsSubscript) := by
  have hnpc := hs.npc_lt fun _ h => h.dispatch
  have hindexed := hs.indexed
  refine ⟨hnpc, hindexed.spcptr, hindexed.pdlPointer, hindexed.pdlIndex,
    fun i => hindexed.maps.l1_lt (BitVec.ofFin i), fun hnext e t hstep => ?_⟩
  obtain ⟨p1, hp1⟩ := nextWord_ok hnpc hnext.prom
  have hpost : Post (uexecStep (uvmemPort busAdaptorRw busReset)) s (fun _ _ => True)
      fun e _ => ¬ e.IsSubscript := by
    refine post_uexecStep.mpr ⟨fun w _ => ?_, fun e he => ?_⟩
    · cases hinhibit : s.inhibit with
      | true => trivial
      | false =>
        have hcore : (s.issued w).core.Indexed ∧ (s.issued w).core.p0 = s.executedWord := by
          rw [s.core_issued]
          exact ⟨⟨hindexed.spcptr, hindexed.pdlPointer, hindexed.pdlIndex, hindexed.maps⟩, rfl⟩
        have hmoves : Moves (uvmemPort busAdaptorRw busReset) Effect (s.issued w) (execute _) :=
          moves_execute
        have hexecute := hmoves.keeps
          (P := fun c => c.Indexed ∧ c.p0 = s.executedWord)
          (fun _ _ h hc => ⟨h.indexed hc.1, h.p0_eq.trans hc.2⟩) hcore
        refine hexecute.mono (fun _ _ _ => trivial) ?_
        rintro e _ ⟨c, ⟨hc, hp0⟩, hblame⟩
        refine hblame.not_subscript hc ?_
        rw [hp0]
        exact hnext.dest hinhibit
    · rw [hp1] at he
      cases he
  exact hpost.error hstep

/-- A bus on which every access succeeds and reads 0. -/
def idleBus : BusRw Unit := fun _ _ _ b => .ok (0, b)

/-- The virtual memory over the bus on which nothing happens. -/
def idlePort : VmPort Unit := uvmemPort idleBus fun b => (b.interruptPendingFlag, ())

/-- How the next microinstruction fails, if it does. -/
def nextFault (s : Engine Unit) : Option Fault :=
  match uexecStep idlePort s with
  | .ok _ _ => none
  | .error e _ => some e

/-- A PROM whose first microinstruction has an A memory destination with `IR<24>` set. -/
def beyondAmemProm : Fin 512 → BitVec 64 :=
  promOf [(0o6000#64 <<< 14) ||| (1#64 <<< 12) ||| (0o17#64 <<< 3)]

/-- The first microinstruction of a PROM can write beyond the A memory. -/
theorem subscript_beyond_amem :
    ∃ s e t, Reached idlePort (fun _ => True) s ∧ uexecStep idlePort s = .error e t ∧
      e.IsSubscript := by
  have hrun : (perform idlePort [.step]
      (machineControlBoot (powerOn beyondAmemProm (fun _ => 0) ()))).map nextFault =
      some (some (.subscript .amem 1024)) := by
    decide
  obtain ⟨s, hs, hfault⟩ := reached_of_perform hrun
  unfold nextFault at hfault
  split at hfault
  · cases hfault
  · rename_i e t hstep
    obtain rfl := Option.some.inj hfault
    exact ⟨s, _, t, hs, hstep, trivial⟩

/-- The first step after power-on stays within the arrays. -/
theorem first_step_within_arrays :
    ∃ s : Engine Unit, Reached idlePort WithinArrays s ∧ WithinArrays s ∧
      ∀ e t, uexecStep idlePort s = .error e t → ¬ e.IsSubscript := by
  have hboot : Reached idlePort WithinArrays
      (machineControlBoot (powerOn beyondAmemProm (fun _ => 0) ())) := ⟨_, _, _, .refl⟩
  have hwithin : WithinArrays (machineControlBoot (powerOn beyondAmemProm (fun _ => 0) ())) :=
    ⟨fun _ => by decide, fun h => Bool.noConfusion h, fun h => Bool.noConfusion h.1⟩
  obtain ⟨-, -, -, -, -, hstep⟩ := subscripts_within_arrays hboot
  exact ⟨_, hboot, hwithin, hstep hwithin⟩

end Usim
