import Usim.CSharp.Operations
import Usim.Lib.Simulation

/-!
# States of the two engines that correspond

The C# state that mirrors a state of the C engine, and the rules by which a
method of the port is compared with a function of the C engine.
-/

namespace Usim

open Lib

variable {β : Type}

/-- The state of the port with the contents of `s`, and with `p0` as the
microinstruction being executed. -/
def Engine.mirror (s : Engine β) (p0 : BitVec 64) : UCode β where
  promDisabled := s.promdisabled
  interruptPendingFlag := s.interruptPendingFlag
  prom := s.prom
  iMem := s.imem
  aMem := s.amem
  mMem := s.mmem
  dMem := s.dmem
  pdl := s.pdl
  spc := s.spc
  spcPtr := s.spcptr
  dispatchConstant := s.dispatchConstant
  pdlPointer := s.pdlPointer
  pdlIndex := s.pdlIndex
  vmaReg := s.vmaReg
  mdReg := s.mdReg
  lc := s.lc
  oaRegHigh := s.oaRegHigh
  oaRegLow := s.oaRegLow
  opc := s.opc
  q := s.q
  oldQ := s.oldQ
  interruptControl := s.interruptControl
  p0 := p0
  p0Pc := s.p0Pc
  p0Imem := s.p0Imem
  p1 := s.p1
  p1Pc := s.p1Pc
  p1Imem := s.p1Imem
  iwr := s.iwr
  npc := s.npc
  aAddr := s.aaddr
  aData := s.adata
  mAddr := s.maddr
  mData := s.mdata
  out := s.out
  inhibit := s.inhibit
  op := s.op
  popj := s.popj
  newMd := s.newMd
  newMdDelay := s.newMdDelay
  aluCarry := s.aluCarry
  aluOut := s.aluOut
  oal := s.oal
  oah := s.oah
  vmaOk := s.vmaok
  halted := s.halted
  uvmem := s.toMaps
  dev := s.dev

/-- The microinstruction being executed in a mirror. -/
theorem Engine.p0_mirror (s : Engine β) (p : BitVec 64) : (s.mirror p).p0 = p := rfl

/-- A state of the C engine and one of the port correspond: every global equals
its field, the microinstruction being executed up to bit 47, and OA-REG-LO has
26 bits. -/
structure Corresponds (s : Engine β) (u : UCode β) : Prop where
  /-- Bits 47-0 of the microinstruction being executed. -/
  p0 : SameWord u.p0 s.p0
  /-- Everything else. -/
  rest : u = s.mirror u.p0
  /-- OA-REG-LO as every write leaves it. -/
  oaRegLow : s.oaRegLow.toNat < 2 ^ 26

/-- A corresponding state is a mirror. -/
theorem Corresponds.exists_word {s : Engine β} {u : UCode β} (h : Corresponds s u) :
    ∃ p, SameWord p s.p0 ∧ s.oaRegLow.toNat < 2 ^ 26 ∧ u = s.mirror p :=
  ⟨u.p0, h.p0, h.oaRegLow, h.rest⟩

/-- The method of the port does what the function of the C engine does, if this
ends calmly. A subscript out of bounds is excused. -/
abbrev Tracks {α : Type} (calm : Engine β → Prop) (m : Micro β α) (m' : Sharp β α)
    (s : Engine β) (u : UCode β) : Prop :=
  Mirrors Corresponds Fault.IsSubscript calm m m' s u

variable {α γ : Type} {calm : Engine β → Prop} {s : Engine β} {u : UCode β}

/-- A pure operation that fails on both sides or on neither. -/
theorem tracks_fromExcept_bind {x : Except Fault γ} {y : Except Thrown γ} {g : Fault → Thrown}
    (hxy : y = x.mapError g) {f : γ → Micro β α} {f' : γ → Sharp β α}
    (h : ∀ a, x = .ok a → Tracks calm (f a) (f' a) s u) :
    Tracks calm (fromExcept x >>= f) (fromExcept y >>= f') s u := by
  subst hxy
  cases x with
  | ok a => exact h a rfl
  | error e => exact fun _ => trivial

/-- A pure operation whose value is returned. -/
theorem tracks_fromExcept {x : Except Fault α} {y : Except Thrown α} {g : Fault → Thrown}
    (hxy : y = x.mapError g) (h : Corresponds s u) :
    Tracks calm (fromExcept x) (fromExcept y) s u := by
  subst hxy
  cases x with
  | ok a => exact mirrors_pure a h
  | error e => exact fun _ => trivial

/-- An observation, which the port does not make. -/
theorem tracks_observe {e : Event} {f : Unit → Micro β α} {m' : Sharp β α}
    (h : Tracks calm (f ()) m' { s with trace := s.trace ++ [e] } u) :
    Tracks calm (observe e >>= f) m' s u :=
  mirrors_left rfl h

end Usim
