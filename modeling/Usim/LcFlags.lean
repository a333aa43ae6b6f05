import Usim.Invariants

/-!
# The mirrored flags of the location counter

Bits 29-26 of the location counter mirror those of the interrupt control
register. The increment in `advanceLC` is not masked, so the mirror holds as
long as no increment carries out of the 26-bit count.
-/

namespace Usim

open Lib

/-- The 26-bit count of the location counter. -/
def lcCount (lc : Word) : BitVec 26 := lc.setWidth 26

/-- Bits 29-26 of the location counter or of the interrupt control register. -/
def lcFlags (w : Word) : BitVec 4 := w.extractLsb' 26 4

/-- How far `advanceLC` moves the location counter: a byte, or two. -/
def lcStep (interruptControl : Word) : ℕ := if interruptControl.getLsbD 29 then 1 else 2

/-- The step of the location counter carries out of its count. -/
def LcWraps (lc interruptControl : Word) : Prop :=
  2 ^ 26 ≤ (lcCount lc).toNat + lcStep interruptControl

instance (lc interruptControl : Word) : Decidable (LcWraps lc interruptControl) :=
  inferInstanceAs (Decidable (_ ≤ _))

/-- Setting NEED-FETCH leaves the count. -/
theorem lcCount_or_needFetch (lc : Word) : lcCount (lc ||| (1#32 <<< 31)) = lcCount lc := by
  have hbit : (1#32 <<< 31).setWidth 26 = 0#26 := by decide
  rw [lcCount, BitVec.setWidth_or, hbit, BitVec.or_zero, lcCount]

/-- Clearing NEED-FETCH leaves the count. -/
theorem lcCount_and_needFetch (lc : Word) :
    lcCount (lc &&& ~~~(1#32 <<< 31)) = lcCount lc := by
  have hbit : (~~~(1#32 <<< 31)).setWidth 26 = BitVec.allOnes 26 := by decide
  rw [lcCount, BitVec.setWidth_and, hbit, BitVec.and_allOnes, lcCount]

/-- Setting NEED-FETCH leaves the flags. -/
theorem lcFlags_or_needFetch (lc : Word) : lcFlags (lc ||| (1#32 <<< 31)) = lcFlags lc := by
  have hbit : (1#32 <<< 31).extractLsb' 26 4 = 0#4 := by decide
  rw [lcFlags, BitVec.extractLsb'_or, hbit, BitVec.or_zero, lcFlags]

/-- Clearing NEED-FETCH leaves the flags. -/
theorem lcFlags_and_needFetch (lc : Word) :
    lcFlags (lc &&& ~~~(1#32 <<< 31)) = lcFlags lc := by
  have hbit : (~~~(1#32 <<< 31)).extractLsb' 26 4 = BitVec.allOnes 4 := by decide
  rw [lcFlags, BitVec.extractLsb'_and, hbit, BitVec.and_allOnes, lcFlags]

/-- The increment of a location counter. -/
theorem incrementedLc_eq (lc interruptControl : Word) :
    incrementedLc lc interruptControl = lc + BitVec.ofNat 32 (lcStep interruptControl) := by
  unfold incrementedLc lcStep
  split <;> rfl

/-- Advancing moves the count as its increment does. -/
theorem lcCount_advancedLc (lc interruptControl : Word) :
    lcCount (advancedLc lc interruptControl) = lcCount (incrementedLc lc interruptControl) := by
  unfold advancedLc
  dsimp only
  split <;> split <;> simp only [lcCount_or_needFetch, lcCount_and_needFetch]

/-- Advancing changes the flags as its increment does. -/
theorem lcFlags_advancedLc (lc interruptControl : Word) :
    lcFlags (advancedLc lc interruptControl) = lcFlags (incrementedLc lc interruptControl) := by
  unfold advancedLc
  dsimp only
  split <;> split <;> simp only [lcFlags_or_needFetch, lcFlags_and_needFetch]

/-- The step is one or two. -/
theorem lcStep_cases (interruptControl : Word) :
    lcStep interruptControl = 1 ∨ lcStep interruptControl = 2 := by
  unfold lcStep
  split
  · exact .inl rfl
  · exact .inr rfl

/-- Advancing leaves the flags exactly when the count does not wrap. -/
theorem lcFlags_advancedLc_iff (lc interruptControl : Word) :
    lcFlags (advancedLc lc interruptControl) = lcFlags lc ↔ ¬ LcWraps lc interruptControl := by
  have hlc := lc.isLt
  have hstep := lcStep_cases interruptControl
  rw [lcFlags_advancedLc, incrementedLc_eq, ← BitVec.toNat_inj]
  simp only [lcFlags, LcWraps, lcCount, BitVec.extractLsb'_toNat, Nat.shiftRight_eq_div_pow,
    BitVec.toNat_add, BitVec.toNat_ofNat, BitVec.toNat_setWidth]
  omega

/-- A write of the location counter leaves the flags. -/
theorem lcFlags_writeLc (c : Core) (data : Word) : lcFlags (c.writeLc data).lc = lcFlags c.lc := by
  have hkeep : (~~~0o377777777#32).extractLsb' 26 4 = BitVec.allOnes 4 := by decide
  have hdrop : (0o377777777#32).extractLsb' 26 4 = 0#4 := by decide
  have hlow : (~~~1#32).extractLsb' 26 4 = BitVec.allOnes 4 := by decide
  have hcount : lcFlags ((c.lc &&& ~~~0o377777777#32) ||| (data &&& 0o377777777#32)) =
      lcFlags c.lc := by
    rw [lcFlags, BitVec.extractLsb'_or, BitVec.extractLsb'_and, BitVec.extractLsb'_and, hkeep,
      hdrop, BitVec.and_allOnes, BitVec.and_zero, BitVec.or_zero, lcFlags]
  have heven (lc : Word) : lcFlags (lc &&& ~~~1#32) = lcFlags lc := by
    rw [lcFlags, BitVec.extractLsb'_and, hlow, BitVec.and_allOnes, lcFlags]
  unfold Core.writeLc
  dsimp only
  rw [lcFlags_or_needFetch]
  split
  · exact hcount
  · rw [heven]
    exact hcount

/-- A write of the interrupt control register sets the flags. -/
theorem lcFlags_writeInterruptControl (c : Core) (data : Word) :
    lcFlags (c.writeInterruptControl data).lc = lcFlags data := by
  have hdrop : (~~~(0o17#32 <<< 26)).extractLsb' 26 4 = 0#4 := by decide
  have hkeep : (0o17#32 <<< 26).extractLsb' 26 4 = BitVec.allOnes 4 := by decide
  unfold Core.writeInterruptControl
  dsimp only
  rw [lcFlags, BitVec.extractLsb'_or, BitVec.extractLsb'_and, BitVec.extractLsb'_and, hdrop, hkeep,
    BitVec.and_allOnes, BitVec.and_zero, BitVec.zero_or, lcFlags]

/-- No advance that was observed wrapped. -/
def NoWrap (trace : List Event) : Prop :=
  ∀ lc interruptControl, .advance lc interruptControl ∈ trace → ¬ LcWraps lc interruptControl

/-- The flags are mirrored unless an advance has wrapped. -/
def FlagsMirrored (c : Core) : Prop :=
  NoWrap c.trace → lcFlags c.lc = lcFlags c.interruptControl

/-- A longer trace has no fewer wraps. -/
theorem NoWrap.of_append {trace rest : List Event} (h : NoWrap (trace ++ rest)) : NoWrap trace :=
  fun lc ic hmem => h lc ic (List.mem_append_left rest hmem)

/-- Register effects keep the mirror. -/
theorem RegisterEffect.flagsMirrored {c c' : Core} (h : RegisterEffect c c')
    (hc : FlagsMirrored c) : FlagsMirrored c' := by
  cases h with
  | push => exact fun hwrap => hc hwrap.of_append
  | pop => exact fun hwrap => hc hwrap.of_append
  | startRead => exact fun hwrap => hc hwrap.of_append
  | advance =>
    intro hwrap
    have hmem : .advance c.lc c.interruptControl ∈ c.advance.trace :=
      List.mem_append_right _ List.mem_cons_self
    exact ((lcFlags_advancedLc_iff _ _).mpr (hwrap _ _ hmem)).trans (hc hwrap.of_append)
  | writeLc data => exact fun hwrap => (lcFlags_writeLc c data).trans (hc hwrap)
  | writeInterruptControl data => exact fun _ => lcFlags_writeInterruptControl c data
  | setPdlPointer => exact hc
  | setPdlIndex => exact hc
  | writeMap => exact hc
  | setOaRegLow => exact hc

/-- In every state reached from power-on, bits 29-26 of the location counter
equal those of the interrupt control register, if no advance of the location
counter carried out of its 26-bit count. -/
theorem lc_flags_mirrored {β : Type} {port : VmPort β} {s : Engine β}
    (hs : Reached port (fun _ => True) s) (hwrap : NoWrap s.trace) :
    lcFlags s.lc = lcFlags s.interruptControl := by
  have hcore : FlagsMirrored s.core := hs.core_induction (fun _ _ _ _ => rfl) (fun _ hc => hc)
    (fun _ _ hc => hc) fun _ _ => Effect.keeps (fun _ _ h hc => h.flagsMirrored hc)
      (fun _ _ hc hwrap => hc hwrap.of_append) fun _ _ hc => hc
  exact hcore hwrap

/-- A PROM that sets all bits of the interrupt control register and then
advances the location counter. -/
def advancingProm : Fin 512 → BitVec 64 :=
  promOf [(0o100#64 <<< 14) ||| (1#64 <<< 12) ||| (0o17#64 <<< 3), (2#64 <<< 43) ||| (1#64 <<< 24)]

/-- The flags are mirrored after the first advance in byte mode. -/
theorem lc_flags_mirrored_byte_mode :
    ∃ s : Engine Unit, Reached noBus (fun _ => True) s ∧
      s.trace = [.advance 0x3c000000 0xffffffff] ∧
      lcFlags s.lc = lcFlags s.interruptControl := by
  have hrun : (perform noBus [.step, .step, .step]
      (machineControlBoot (powerOn advancingProm (fun _ => 0) ()))).map (fun s => s.trace) =
      some [.advance 0x3c000000 0xffffffff] := by
    decide
  obtain ⟨s, hs, htrace⟩ := reached_of_perform hrun
  refine ⟨s, hs, htrace, lc_flags_mirrored hs fun lc ic hmem => ?_⟩
  rw [htrace, List.mem_singleton] at hmem
  obtain ⟨rfl, rfl⟩ := Event.advance.inj hmem
  decide

/-- A PROM that writes the last even count to the location counter, with the
ALU operation SETO and functional destination 1, and then advances it with the
DISPATCH that `IR<24>` marks. -/
def wrappingProm : Fin 512 → BitVec 64 :=
  promOf [(0o40#64 <<< 14) ||| (1#64 <<< 12) ||| (0o17#64 <<< 3), (2#64 <<< 43) ||| (1#64 <<< 24)]

/-- The increment carries out of the last even count into the flags. -/
theorem lc_flags_not_mirrored_at_wrap :
    ∃ s : Engine Unit, Reached noBus (fun _ => True) s ∧
      lcFlags s.lc ≠ lcFlags s.interruptControl := by
  have hrun : (perform noBus [.step, .step, .step]
      (machineControlBoot (powerOn wrappingProm (fun _ => 0) ()))).map
      (fun s => (lcFlags s.lc, lcFlags s.interruptControl)) = some (1#4, 0#4) := by
    decide
  obtain ⟨s, hs, hflags⟩ := reached_of_perform hrun
  obtain ⟨hlc, hic⟩ := Prod.mk.inj hflags
  exact ⟨s, hs, by rw [hlc, hic]; decide⟩

end Usim
