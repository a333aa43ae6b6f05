import Usim.TapeController

/-!
# The two transfers of the tape controller

READ and WRITE in parts: what comes before the loop, the loop, and what comes
after it.
-/

namespace Usim

open Lib

variable {δ : Type}

namespace TapeState

/-- The first word of the record ahead, as READ takes it. -/
def preamble (s : TapeState δ) : Word := s.unit.readUint32.1.getD 0

/-- READ after it has read the preamble. -/
def reading (s : TapeState δ) : TapeState δ :=
  { s with
    unit := s.unit.readUint32.2
    bus := s.bus.onInterface BusInterface.resetBusErrorStatus }

/-- READ after its loop. -/
def readEnd (r : Word × TapeState δ) : TapeState δ :=
  if r.2.unit.mts.nxm then r.2
  else if r.1 > 0 then r.2.onMts ({ · with rle := true })
  else
    let word := r.2.unit.readUint32.2.readUint32
    if word.1.getD 0 = tapeFileMark then
      { r.2 with unit := word.2.onMts ({ · with eof := true }) }
    else { r.2 with unit := word.2.seek (-4) .cur }

/-- READ is its preamble, its loop and its end. -/
theorem read_eq (dev : BusDevices δ) (s : TapeState δ) :
    s.read dev =
      if s.preamble = tapeFileMark then .ok (s.reading.onMts ({ · with eof := true }))
      else (s.reading.readLoop dev (-s.mtbrc).toNat s.preamble).map readEnd := by
  by_cases hmark : s.preamble = tapeFileMark
  · rw [if_pos hmark]
    exact if_pos hmark
  rw [if_neg hmark]
  refine (if_neg hmark).trans ?_
  dsimp only
  split
  · rename_i e hloop
    have hloop' : s.reading.readLoop dev (-s.mtbrc).toNat s.preamble = .error e := hloop
    rw [hloop']
    rfl
  · rename_i recordLength t hloop
    have hloop' : s.reading.readLoop dev (-s.mtbrc).toNat s.preamble = .ok (recordLength, t) :=
      hloop
    rw [hloop']
    change _ = Except.ok (readEnd (recordLength, t))
    unfold readEnd
    simp only
    split_ifs <;> rfl

end TapeState

/-- The length of a record that WRITE writes: a positive number of words. -/
def WritesRecord (mtbrc : ℤ) : Prop := 4 ≤ -mtbrc ∧ -mtbrc % 4 = 0

instance (mtbrc : ℤ) : Decidable (WritesRecord mtbrc) := inferInstanceAs (Decidable (_ ∧ _))

/-- WRITE checks the count: the tape is protected, the count is 0, or it is not of words. -/
def TapeDrive.RejectsWrite (p : TapeDrive) (mtbrc : ℤ) : Prop :=
  p.readOnly = true ∨ mtbrc = 0 ∨ mtbrc % 4 ≠ 0

instance (p : TapeDrive) (mtbrc : ℤ) : Decidable (p.RejectsWrite mtbrc) :=
  inferInstanceAs (Decidable (_ ∨ _))

/-- The number of bytes as a `size_t`, of which the two checks let positive numbers pass too. -/
theorem sizeT_rejects_iff {mtbrc : ℤ} (hlower : -2 ^ 15 ≤ mtbrc) (hupper : mtbrc < 2 ^ 15) :
    (BitVec.ofInt 64 (-mtbrc) < 4 ∨ BitVec.ofInt 64 (-mtbrc) &&& 0x3 ≠ 0) ↔
      mtbrc = 0 ∨ mtbrc % 4 ≠ 0 := by
  have hmod : (BitVec.ofInt 64 (-mtbrc) &&& 0x3).toNat = (BitVec.ofInt 64 (-mtbrc)).toNat % 4 := by
    rw [BitVec.toNat_and, show BitVec.toNat (0x3 : BitVec 64) = 2 ^ 2 - 1 from rfl,
      Nat.and_two_pow_sub_one_eq_mod]
  have hand : BitVec.ofInt 64 (-mtbrc) &&& 0x3 ≠ 0 ↔ (BitVec.ofInt 64 (-mtbrc)).toNat % 4 ≠ 0 := by
    rw [← hmod, not_iff_not, ← BitVec.toNat_inj]
    rfl
  rw [hand, BitVec.lt_def, BitVec.toNat_ofInt]
  change ((-mtbrc) % (2 ^ 64 : ℕ)).toNat < 4 ∨ _ ↔ _
  omega

namespace TapeState

/-- WRITE after it has written the preamble. -/
def writing (s : TapeState δ) : TapeState δ :=
  { s with
    unit := (s.unit.writeUint32 (BitVec.ofInt 32 (-s.mtbrc))).2
    bus := s.bus.onInterface BusInterface.resetBusErrorStatus }

/-- WRITE after its loop. -/
def writeEnd (recordLength : Word) (s : TapeState δ) : TapeState δ :=
  if s.unit.mts.nxm then s
  else if s.mtbrc = 0 then { s with unit := (s.unit.writeUint32 recordLength).2 }
  else s

variable {s : TapeState δ}

/-- WRITE is illegal, and does nothing. -/
theorem write_of_rejects (dev : BusDevices δ) (hlower : -2 ^ 15 ≤ s.mtbrc)
    (hupper : s.mtbrc < 2 ^ 15) (h : s.unit.drive.RejectsWrite s.mtbrc) :
    s.write dev = .ok (s.onMts ({ · with ilc := true })) := by
  have hcount := sizeT_rejects_iff hlower hupper
  unfold write
  simp only
  rcases h with hreadOnly | hrejected
  · rw [if_pos hreadOnly]
  · obtain hshort | hwords := hcount.mpr hrejected
    · rw [if_pos hshort, ite_self]
    · rw [if_pos hwords, ite_self, ite_self]

/-- WRITE is its preamble, its loop and its end, if it is legal. -/
theorem write_of_not_rejects (dev : BusDevices δ) (hlower : -2 ^ 15 ≤ s.mtbrc)
    (hupper : s.mtbrc < 2 ^ 15) (h : ¬s.unit.drive.RejectsWrite s.mtbrc) :
    s.write dev = (s.writing.writeLoop dev (-s.mtbrc).toNat).map
      (writeEnd (BitVec.ofInt 32 (-s.mtbrc))) := by
  obtain ⟨hreadOnly, hrejected⟩ := not_or.mp h
  obtain ⟨hshort, hwords⟩ := not_or.mp (mt (sizeT_rejects_iff hlower hupper).mp hrejected)
  have hlength : (BitVec.ofInt 64 (-s.mtbrc)).setWidth 32 = BitVec.ofInt 32 (-s.mtbrc) := by
    apply BitVec.eq_of_toNat_eq
    rw [BitVec.toNat_setWidth, BitVec.toNat_ofInt, BitVec.toNat_ofInt]
    omega
  unfold write TapeUnit.writeRecordLength
  simp only [hlength]
  rw [if_neg hreadOnly, if_neg hshort, if_neg hwords]
  split
  · rename_i e hloop
    have hloop' : s.writing.writeLoop dev (-s.mtbrc).toNat = .error e := hloop
    rw [hloop']
    rfl
  · rename_i t hloop
    have hloop' : s.writing.writeLoop dev (-s.mtbrc).toNat = .ok t := hloop
    rw [hloop']
    change _ = Except.ok (writeEnd _ t)
    unfold writeEnd
    split_ifs <;> rfl

/-- WRITE is its checks, its preamble, its loop and its end. -/
theorem write_eq (dev : BusDevices δ) (hlower : -2 ^ 15 ≤ s.mtbrc) (hupper : s.mtbrc < 2 ^ 15)
    (hpositive : s.unit.drive.readOnly = false → ¬(0 < s.mtbrc ∧ s.mtbrc % 4 = 0)) :
    s.write dev =
      if s.unit.drive.readOnly = false ∧ WritesRecord s.mtbrc then
        (s.writing.writeLoop dev (-s.mtbrc).toNat).map (writeEnd (BitVec.ofInt 32 (-s.mtbrc)))
      else .ok (s.onMts ({ · with ilc := true })) := by
  by_cases hreject : s.unit.drive.RejectsWrite s.mtbrc
  · have hchecks : ¬(s.unit.drive.readOnly = false ∧ WritesRecord s.mtbrc) := by
      rintro ⟨hwritable, hshort, hwords⟩
      rcases hreject with hreadOnly | hrejected
      · exact Bool.false_ne_true (hwritable.symm.trans hreadOnly)
      · omega
    rw [write_of_rejects dev hlower hupper hreject, if_neg hchecks]
  · obtain ⟨hreadOnly, hcount⟩ := not_or.mp hreject
    have hwritable := Bool.eq_false_iff.mpr hreadOnly
    have hnegative := hpositive hwritable
    rw [write_of_not_rejects dev hlower hupper hreject,
      if_pos ⟨hwritable, show 4 ≤ -s.mtbrc ∧ -s.mtbrc % 4 = 0 by omega⟩]

end TapeState

end Usim
