import Usim.Lib.Masks
import Usim.M32

/-!
# The interrupt status register

The register that the Unibus and the Xbus devices share, and its operations
from `ucode.c`.
-/

namespace Usim

/-- A half word, the unit of the Unibus. -/
abbrev HalfWord := BitVec 16

/-- The two interrupt globals of `ucode.c`. -/
structure Interrupts where
  /-- `interrupt_status_reg`, a C `int`. -/
  statusReg : Word
  /-- `interrupt_pending_flag`. -/
  pendingFlag : Bool
  deriving DecidableEq, Repr

/-- `set_interrupt_status_reg`. -/
def setInterruptStatusReg (new : Word) : Interrupts :=
  ⟨new, decide (new &&& 0o140000 ≠ 0)⟩

/-- `assert_unibus_interrupt`: accept an interrupt, if they are enabled. -/
def assertUnibusInterrupt (vector : Word) (i : Interrupts) : Interrupts :=
  if i.statusReg &&& 0o2000 ≠ 0 then
    setInterruptStatusReg ((i.statusReg &&& ~~~0o1774) ||| 0o100000 ||| (vector &&& 0o1774))
  else i

/-- `deassert_unibus_interrupt`. -/
def deassertUnibusInterrupt (i : Interrupts) : Interrupts :=
  if i.statusReg &&& 0o100000 ≠ 0 then
    setInterruptStatusReg (i.statusReg &&& ~~~(0o1774 ||| 0o100000))
  else i

/-- `assert_xbus_interrupt`. -/
def assertXbusInterrupt (i : Interrupts) : Interrupts :=
  setInterruptStatusReg (i.statusReg ||| 0o40000)

/-- `deassert_xbus_interrupt`. -/
def deassertXbusInterrupt (i : Interrupts) : Interrupts :=
  if i.statusReg &&& 0o40000 ≠ 0 then setInterruptStatusReg (i.statusReg &&& ~~~0o40000) else i

/-- A register write of the bus interface changes the bits of `mask` only. -/
def writeInterruptStatusReg (mask v : Word) (i : Interrupts) : Interrupts :=
  setInterruptStatusReg ((i.statusReg &&& ~~~mask) ||| (v &&& mask))

namespace Interrupts

/-- Bit 15, a Unibus interrupt awaits processing. -/
def unibus (i : Interrupts) : Bool := i.statusReg.getLsbD 15

/-- Bit 14, the interrupt request line of the Xbus. -/
def xbus (i : Interrupts) : Bool := i.statusReg.getLsbD 14

/-- Bit 10, Unibus interrupts are accepted. -/
def enabled (i : Interrupts) : Bool := i.statusReg.getLsbD 10

/-- Bits 9-2, the vector of the last Unibus interrupt, at their places. -/
def vector (i : Interrupts) : Word := i.statusReg &&& 0o1774

/-- The pending flag tells whether an interrupt is requested on one of the busses. -/
def Consistent (i : Interrupts) : Prop := i.pendingFlag = (i.unibus || i.xbus)

end Interrupts

open Lib

/-- Every value stored leaves a consistent flag. -/
theorem consistent_setInterruptStatusReg (new : Word) :
    (setInterruptStatusReg new).Consistent := by
  unfold Interrupts.Consistent setInterruptStatusReg Interrupts.unibus Interrupts.xbus
  have hmask : (0o140000 : Word) = BitVec.twoPow 32 15 ||| BitVec.twoPow 32 14 := rfl
  have hsplit : new &&& 0o140000 =
      (new &&& BitVec.twoPow 32 15) ||| (new &&& BitVec.twoPow 32 14) := by
    rw [hmask, BitVec.and_or_distrib_left]
  have hor (x y : Word) : x ||| y = 0 ↔ x = 0 ∧ y = 0 := BitVec.or_eq_zero_iff
  rw [Bool.eq_iff_iff, decide_eq_true_iff, Bool.or_eq_true, hsplit,
    ← and_twoPow_ne_zero new (k := 15) (by decide), ← and_twoPow_ne_zero new (k := 14) (by decide),
    ne_eq, hor, not_and_or]

/-- The request line of the Xbus after `assert_xbus_interrupt`. -/
@[simp] theorem xbus_assertXbusInterrupt (i : Interrupts) :
    (assertXbusInterrupt i).xbus = true := by
  have hbit : (0o40000 : Word).getLsbD 14 = true := by decide
  simp only [assertXbusInterrupt, setInterruptStatusReg, Interrupts.xbus, BitVec.getLsbD_or, hbit,
    Bool.or_true]

/-- The request line of the Xbus after `deassert_xbus_interrupt`. -/
@[simp] theorem xbus_deassertXbusInterrupt (i : Interrupts) :
    (deassertXbusInterrupt i).xbus = false := by
  have hbit : (0o40000 : Word).getLsbD 14 = true := by decide
  unfold deassertXbusInterrupt
  split
  · simp only [setInterruptStatusReg, Interrupts.xbus, BitVec.getLsbD_and, BitVec.getLsbD_not, hbit,
      Bool.not_true, Bool.and_false]
  · rename_i h
    rw [not_ne_iff] at h
    have hnot := (and_mask_ne_zero i.statusReg 0o40000 14 (by decide) rfl).not
    rw [not_ne_iff] at hnot
    simpa [Interrupts.xbus] using hnot.mp h

/-- An Xbus interrupt leaves the Unibus interrupt. -/
@[simp] theorem unibus_assertXbusInterrupt (i : Interrupts) :
    (assertXbusInterrupt i).unibus = i.unibus := by
  have hbit : (0o40000 : Word).getLsbD 15 = false := by decide
  simp only [assertXbusInterrupt, setInterruptStatusReg, Interrupts.unibus, BitVec.getLsbD_or, hbit,
    Bool.or_false]

/-- An Xbus interrupt is consistent. -/
theorem consistent_assertXbusInterrupt (i : Interrupts) : (assertXbusInterrupt i).Consistent :=
  consistent_setInterruptStatusReg _

/-- Lowering the line keeps the flag consistent. -/
theorem Interrupts.Consistent.deassertXbusInterrupt {i : Interrupts} (h : i.Consistent) :
    (deassertXbusInterrupt i).Consistent := by
  unfold Usim.deassertXbusInterrupt
  split
  · exact consistent_setInterruptStatusReg _
  · exact h

/-- Raising the line twice is raising it once. -/
theorem assertXbusInterrupt_idem (i : Interrupts) :
    assertXbusInterrupt (assertXbusInterrupt i) = assertXbusInterrupt i := by
  simp only [assertXbusInterrupt, setInterruptStatusReg, BitVec.or_assoc, BitVec.or_self]

end Usim
