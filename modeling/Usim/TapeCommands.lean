import Usim.TapeController

/-!
# Commands of the tape controller

The processor writes the registers, and the thread of the controller takes its
turn.
-/

namespace Usim

/-- The values that the processor writes into the registers for a command. -/
structure TapeCommand where
  /-- The value for MTBRC. -/
  mtbrc : HalfWord
  /-- The value for MTCMA. -/
  mtcma : HalfWord
  /-- The value for MTC. -/
  mtc : HalfWord
  deriving DecidableEq, Repr

namespace TapeCommand

/-- The selected drive. -/
def slt (c : TapeCommand) : Fin 8 := Fin.ofNat 8 (c.mtc >>> 8).toNat

/-- The command itself. -/
def function (c : TapeCommand) : Fin 8 := Fin.ofNat 8 (c.mtc >>> 1).toNat

/-- The extended address. -/
def ea (c : TapeCommand) : Word := ((c.mtc >>> 4) &&& 0b11).setWidth 32

/-- The density. -/
def bpi (c : TapeCommand) : Word := if c.mtc.getLsbD 14 then 800 else 1600

/-- The command register while the command is executed. -/
def register (c : TapeCommand) : Mtc where
  den8 := c.mtc.getLsbD 14
  den5 := c.mtc.getLsbD 13
  pevn := c.mtc.getLsbD 11
  slt := c.slt
  cur := false
  intEnb := c.mtc.getLsbD 6
  function := c.function

/-- The command is started: GO is set, and power clear is not. -/
def Goes (c : TapeCommand) : Prop := c.mtc.getLsbD 0 = true ∧ c.mtc.getLsbD 12 = false

instance (c : TapeCommand) : Decidable c.Goes := inferInstanceAs (Decidable (_ ∧ _))

end TapeCommand

namespace TapeSystem

variable {δ : Type} (dev : BusDevices δ)

/-- The three writes, and the turn of the thread if the last one broadcasts `go`. -/
def issue (c : TapeCommand) (s : TapeSystem δ) : Except ErrCall (TapeSystem δ) := do
  let (_, s) ← s.unibusWrite 0o772524 c.mtbrc
  let (_, s) ← s.unibusWrite 0o772526 c.mtcma
  let (go, s) ← s.unibusWrite 0o772522 c.mtc
  if go then s.run dev else .ok s

/-- A drive, with the status register. -/
def unitOf (s : TapeSystem δ) (slt : Fin 8) : TapeUnit :=
  ⟨s.controller.drives slt, s.controller.mts⟩

/-- What a command finds. -/
def found (c : TapeCommand) (s : TapeSystem δ) : TapeState δ where
  unit := TapeUnit.setBpi c.bpi ⟨{ s.controller.drives c.slt with ready := false },
    ⟨false, false, false, false, false, false, true⟩⟩
  mtbrc := c.mtbrc.toInt
  mtcma := c.mtcma.setWidth 32 ||| (c.ea <<< 16)
  bus := s.bus

/-- What is left after a command. -/
def left (c : TapeCommand) (s : TapeSystem δ) (t : TapeState δ) : TapeSystem δ where
  controller := { s.controller with
    mts := t.unit.mts
    mtc := { c.register with cur := true }
    mtbrc := t.mtbrc
    mtcma := t.mtcma
    drives := Function.update s.controller.drives c.slt { t.unit.drive with ready := true } }
  bus := tapeAssertUnibusInterrupt (c.mtc.getLsbD 6) t.bus

/-- The low half of MTCMA stays when the bits above it are replaced. -/
theorem mtcma_and_or (m : Word) (v : HalfWord) :
    ((m &&& (0xFFFF0000 : Word)) ||| v.setWidth 32) &&& 0x0000FFFF = v.setWidth 32 := by
  rw [Lib.and_lowHalf]
  apply BitVec.eq_of_getLsbD_eq
  intro i hi
  simp only [BitVec.getLsbD_setWidth, BitVec.getLsbD_or, BitVec.getLsbD_and,
    Lib.getLsbD_highHalf hi]
  by_cases hlow : i < 16
  · simp [hi, hlow]
  · simp [hlow, BitVec.getLsbD_of_ge v i (Nat.le_of_not_lt hlow)]

/-- The controller when GO has been written. -/
def going (c : TapeCommand) (s : TapeSystem δ) : TapeSystem δ :=
  s.onController fun k =>
    { k with
      mts.selr := (s.controller.drives c.slt).online
      mtc := { c.register with cur := k.mtc.cur }
      mtbrc := c.mtbrc.toInt
      mtcma := c.mtcma.setWidth 32 ||| (c.ea <<< 16) }

/-- The writes of the registers. -/
theorem issue_writes {c : TapeCommand} {s : TapeSystem δ} (hgo : c.Goes) :
    s.issue dev c = (s.going c).run dev := by
  have hmtbrc : s.unibusWrite 0o772524 c.mtbrc =
      .ok (false, s.onController ({ · with mtbrc := c.mtbrc.toInt })) := rfl
  have hmtcma (s' : TapeSystem δ) : s'.unibusWrite 0o772526 c.mtcma =
      .ok (false, s'.onController fun k =>
        { k with mtcma := (k.mtcma &&& (0xFFFF0000 : Word)) ||| c.mtcma.setWidth 32 }) := rfl
  have hmtc (s' : TapeSystem δ) : s'.unibusWrite 0o772522 c.mtc = .ok (s'.updateMtc c.mtc) := rfl
  have hlow := mtcma_and_or s.controller.mtcma c.mtcma
  have hgoing : (((s.onController ({ · with mtbrc := c.mtbrc.toInt })).onController fun k =>
      { k with mtcma := (k.mtcma &&& (0xFFFF0000 : Word)) ||| c.mtcma.setWidth 32 }).updateMtc
        c.mtc) = (true, s.going c) := by
    unfold updateMtc going
    simp only [hgo.1, hgo.2, onController, hlow]
    rfl
  unfold issue
  rw [hmtbrc]
  simp only [bind, Except.bind, hmtcma, hmtc, hgoing, if_true]

/-- The controller is not ready, and the errors of the last command are reset. -/
def busy (s : TapeSystem δ) : TapeSystem δ :=
  s.onController fun k => { k with mtc.cur := false, mts := k.mts.resetMtcErr }

/-- The thread executes a command for an online drive, if the controller is ready. -/
theorem run_eq {s : TapeSystem δ} (hcur : s.controller.mtc.cur = true)
    (hselr : s.controller.mts.selr = true) :
    s.run dev = (s.busy.start.command dev s.busy.controller.mtc).map fun t =>
      ((s.busy.finish t).onController fun k => { k with mtc.cur := true }).assertInterrupt := by
  have hgo : go dev (s.onController fun k => { k with mtc.cur := false }) =
      (s.busy.start.command dev s.busy.controller.mtc).map s.busy.finish := by
    have hselr' : s.busy.controller.mts.selr = true := hselr
    unfold go
    change (if (!s.busy.controller.mts.selr) = true then _ else _) = _
    rw [hselr', if_neg (by decide)]
    rfl
  unfold run
  rw [hcur, if_neg (by decide), hgo]
  generalize s.busy.start.command dev _ = x
  cases x <;> rfl

/-- What a command finds when GO has been written. -/
theorem start_busy_going {c : TapeCommand} {s : TapeSystem δ}
    (honline : (s.controller.drives c.slt).online = true) :
    (s.going c).busy.start = s.found c := by
  have hmts : (s.going c).busy.controller.mts =
      ⟨false, false, false, false, false, false, true⟩ := by
    unfold busy going onController Mts.resetMtcErr
    simp only [honline]
  unfold start
  rw [hmts]
  rfl

/-- A command for an online drive, issued to a ready controller, is executed. -/
theorem issue_eq {c : TapeCommand} {s : TapeSystem δ} (hgo : c.Goes)
    (hcur : s.controller.mtc.cur = true) (honline : (s.controller.drives c.slt).online = true) :
    s.issue dev c = ((s.found c).command dev c.register).map (s.left c) := by
  rw [issue_writes dev hgo, run_eq dev (s := s.going c) hcur honline, start_busy_going honline]
  rfl

/-- The selected drive after a command. -/
theorem drives_left (c : TapeCommand) (s : TapeSystem δ) (t : TapeState δ) :
    (s.left c t).controller.drives c.slt = { t.unit.drive with ready := true } :=
  Function.update_self c.slt _ _

end TapeSystem

end Usim
