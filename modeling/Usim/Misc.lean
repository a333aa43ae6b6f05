import Usim.Lib.Bytes
import Usim.Lib.Fields
import Usim.Lib.Masks
import Usim.State

/-!
# Words in files, characters and byte fields

The functions of `misc.c` that read words from a file, pack characters into a word and take fields
out of words. A read takes as many bytes as there are. A shift of an `int` by 32 or more is
undefined.
-/

namespace Usim

open Lib

namespace Misc

/-- `read16le`. -/
def read16le : List Byte → Except ErrCall (BitVec 16 × List Byte)
  | b0 :: b1 :: fd => .ok ((b1.setWidth 16 <<< 8) ||| b0.setWidth 16, fd)
  | fd => .error ⟨"read16le: read error; ret %d, size %d", [fd.length, 2]⟩

/-- `read32pdp`. -/
def read32pdp : List Byte → Except ErrCall (Word × List Byte)
  | b0 :: b1 :: b2 :: b3 :: fd =>
    .ok ((b1.setWidth 32 <<< 24) ||| (b0.setWidth 32 <<< 16) ||| (b3.setWidth 32 <<< 8) |||
      (b2.setWidth 32 <<< 0), fd)
  | fd => .error ⟨"read32pdp: read error; ret %d, size %d", [fd.length, 4]⟩

/-- `str4`, whose characters have signs. -/
def str4 (s : Fin 4 → Byte) : BitVec 64 :=
  (((s 3).signExtend 32 <<< 24) ||| ((s 2).signExtend 32 <<< 16) ||| ((s 1).signExtend 32 <<< 8) |||
    (s 0).signExtend 32).signExtend 64

/-- `unstr4`, without the 0 behind the characters. -/
def unstr4 (s : BitVec 64) : List Byte :=
  [s.setWidth 8, (s >>> 8).setWidth 8, (s >>> 16).setWidth 8, (s >>> 24).setWidth 8]

/-- `load_byte`. -/
def loadByte (w : BitVec 64) (p s : ℕ) : Option (BitVec 64) :=
  if s < 32 then some (w >>> p &&& ((1#32 <<< s) - 1#32).signExtend 64) else none

/-- `deposit_byte`. -/
def depositByte (w : BitVec 64) (p s : ℕ) (v : BitVec 64) : Option (BitVec 64) :=
  if s < 32 ∧ p < 32 then
    let m := (((1#32 <<< s) - 1#32) <<< p).signExtend 64
    some ((w &&& ~~~m) ||| (v <<< p &&& m))
  else none

/-- `ppss >> 6 & 077`. -/
def fieldPos (ppss : Word) : ℕ := (ppss.sshiftRight 6 &&& 0o77).toNat

/-- `ppss & 077`. -/
def fieldSize (ppss : Word) : ℕ := (ppss &&& 0o77).toNat

/-- `ldb`. -/
def ldb (ppss w : Word) : Option Word :=
  (loadByte (w.setWidth 64) (fieldPos ppss) (fieldSize ppss)).map (BitVec.setWidth 32)

/-- `dpb`. -/
def dpb (v ppss w : Word) : Option Word :=
  (depositByte (w.setWidth 64) (fieldPos ppss) (fieldSize ppss) (v.setWidth 64)).map
    (BitVec.setWidth 32)

variable {ppss v w r : Word}

/-- A word at the start of a file. -/
theorem read32pdp_cons (b0 b1 b2 b3 : Byte) (fd : List Byte) :
    read32pdp (b0 :: b1 :: b2 :: b3 :: fd) = .ok (b1 ++ b0 ++ b3 ++ b2, fd) := by
  rw [read32pdp, or_shiftLeft_eq_append]

/-- `ldb` takes out a field. -/
theorem ldb_of_lt (h : fieldSize ppss < 32) :
    ldb ppss w = some (field (fieldPos ppss) (fieldSize ppss) w) := by
  rw [ldb, loadByte, if_pos h, shiftLeft_sub_one h, Option.map_some, Option.some.injEq]
  apply BitVec.eq_of_getLsbD_eq
  intro i hi
  rw [getLsbD_field _ hi, BitVec.getLsbD_setWidth, BitVec.getLsbD_and, BitVec.getLsbD_ushiftRight,
    BitVec.getLsbD_setWidth, BitVec.getLsbD_signExtend, if_pos hi, getLsbD_lowMask hi]
  by_cases hplace : fieldPos ppss + i < 64
  · simp [hi, hplace, show i < 64 by omega, Bool.and_comm]
  · simp [hi, hplace, BitVec.getLsbD_of_ge w _ (show 32 ≤ fieldPos ppss + i by omega)]

/-- `dpb` replaces a field. -/
theorem dpb_of_lt (hsize : fieldSize ppss < 32) (hpos : fieldPos ppss < 32) :
    dpb v ppss w = some (setField (fieldPos ppss) (fieldSize ppss) v w) := by
  rw [dpb, depositByte, if_pos ⟨hsize, hpos⟩, shiftLeft_sub_one hsize]
  dsimp only
  rw [Option.map_some, Option.some.injEq]
  apply BitVec.eq_of_getLsbD_eq
  intro i hi
  simp only [setField, BitVec.getLsbD_setWidth, BitVec.getLsbD_or, BitVec.getLsbD_and,
    BitVec.getLsbD_not, BitVec.getLsbD_shiftLeft, BitVec.getLsbD_signExtend, hi, if_true,
    show i < 64 by omega, show i - fieldPos ppss < 64 by omega, decide_true, Bool.true_and]
  by_cases hlow : i < fieldPos ppss
  · simp [hlow]
  · simp [hlow]

/-- `ldb` is undefined for a field of 32 bits. -/
theorem ldb_of_eq (h : fieldSize ppss = 32) : ldb ppss w = none := by
  rw [ldb, loadByte, h]
  rfl

/-- `dpb` is defined for less than 32 bits that do not begin behind the word. -/
theorem lt_of_dpb_eq_some (h : dpb v ppss w = some r) :
    fieldSize ppss < 32 ∧ fieldPos ppss < 32 := by
  by_contra hlarge
  rw [dpb, depositByte, if_neg hlarge] at h
  cases h

end Misc

end Usim
