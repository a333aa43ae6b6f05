import Usim.Lib.Bytes
import Usim.State

/-!
# The tape drives

`tape-drive.c`: a drive, the position of its tape, and the operations that the
controller uses. The medium is the mapped image file. The fields of an image
that is not loaded, and the messages, are left out.
-/

namespace Usim

open Lib

/-- `TAPE_FILE_MARK`. -/
def tapeFileMark : Word := 0xFFFFFFFF

/-- `EOT_OFFSET_FT`. -/
def eotOffsetFt : ℤ := 4

/-- The status register `mts` of the controller, which the drives change too. -/
structure Mts where
  /-- Illegal command. -/
  ilc : Bool
  /-- End of file. -/
  eof : Bool
  /-- End of tape. -/
  eot : Bool
  /-- Record length error. -/
  rle : Bool
  /-- Bad tape error. -/
  bte : Bool
  /-- Nonexistent memory. -/
  nxm : Bool
  /-- The selected drive is online. -/
  selr : Bool
  deriving DecidableEq, Repr

/-- `struct tape_drive_s`. -/
structure TapeDrive where
  /-- `unit`. -/
  unit : Word
  /-- `length_ft`. -/
  lengthFt : ℤ
  /-- `read_only`. -/
  readOnly : Bool
  /-- `mm`, the bytes of the image. -/
  mm : Medium
  /-- `mmsz`, the size of the image. -/
  mmsz : ℕ
  /-- `online`. -/
  online : Bool
  /-- `bpi`. -/
  bpi : Word
  /-- `eotpos`. -/
  eotpos : ℤ
  /-- `pos`. -/
  pos : ℕ
  /-- `bot`. -/
  bot : Bool
  /-- `rws`. -/
  rws : Bool
  /-- `ready`. -/
  ready : Bool
  /-- The tape never leaves its image. -/
  pos_le : pos ≤ mmsz
  /-- Only position 0 is the load point. -/
  pos_of_bot : bot = true → pos = 0
  /-- A drive goes online only with an image that holds the whole tape. -/
  size_le : online = true → lengthFt * 12 * 1600 ≤ mmsz

/-- A drive that is not configured. -/
def TapeDrive.unconfigured (unit : Word) : TapeDrive where
  unit := unit
  lengthFt := 0
  readOnly := false
  mm := fun _ => 0
  mmsz := 0
  online := false
  bpi := 0
  eotpos := 0
  pos := 0
  bot := false
  rws := false
  ready := false
  pos_le := le_rfl
  pos_of_bot := Bool.noConfusion
  size_le := Bool.noConfusion

/-- `SEEK_SET` and `SEEK_CUR`. -/
inductive Whence
  | set | cur
  deriving DecidableEq, Repr

/-- What the operations of a drive change: the drive, and the status register. -/
structure TapeUnit where
  /-- The drive. -/
  drive : TapeDrive
  /-- The status register. -/
  mts : Mts

namespace TapeUnit

/-- Change the status register. -/
def onMts (f : Mts → Mts) (t : TapeUnit) : TapeUnit := { t with mts := f t.mts }

/-- `tape_controller_set_mts_eof`. -/
def setMtsEof (t : TapeUnit) : TapeUnit := t.onMts ({ · with eof := true })

/-- `tape_drive_set_bpi`. -/
def setBpi (bpi : Word) (t : TapeUnit) : TapeUnit :=
  { t with drive.bpi := bpi, drive.eotpos := (t.drive.lengthFt - eotOffsetFt) * 12 * bpi.toNat }

/-- The position, kept inside the image. -/
def clampPos (mmsz : ℕ) (pos : ℤ) : ℕ :=
  if pos < 0 then 0 else if pos > mmsz then mmsz else pos.toNat

/-- A clamped position lies inside the image. -/
theorem clampPos_le (mmsz : ℕ) (pos : ℤ) : clampPos mmsz pos ≤ mmsz := by
  unfold clampPos
  split_ifs <;> omega

/-- `tape_drive_seek`. -/
def seek (offset : ℤ) (whence : Whence) (t : TapeUnit) : TapeUnit :=
  let pos : ℤ :=
    match whence with
    | .set => offset
    | .cur => t.drive.pos + offset
  let pos := clampPos t.drive.mmsz pos
  { drive := { t.drive with
      pos := pos
      bot := pos = 0
      pos_le := clampPos_le _ _
      pos_of_bot := of_decide_eq_true }
    mts := { t.mts with eot := decide ((pos : ℤ) ≥ t.drive.eotpos) } }

/-- `tape_drive_rewind_ex`. -/
def rewindEx (t : TapeUnit) : TapeUnit :=
  let t := { t with drive.rws := true }
  let t := t.seek 0 .set
  let t := { t with drive.rws := false }
  t.onMts ({ · with eot := false })

/-- `tape_drive_rewind_and_offline`. -/
def rewindAndOffline (t : TapeUnit) : TapeUnit :=
  let t := t.rewindEx
  { t with drive.online := false, drive.size_le := Bool.noConfusion }

/-- `tape_drive_rewind`. -/
def rewind (t : TapeUnit) : TapeUnit := t.rewindEx

/-- `tape_drive_read_uint8`: the byte, if there is one. -/
def readUint8 (t : TapeUnit) : Option Byte × TapeUnit :=
  if t.drive.pos = t.drive.mmsz then (none, t)
  else (some (t.drive.mm t.drive.pos), t.seek 1 .cur)

/-- `tape_drive_read_uint32`: the word, if there are four bytes. -/
def readUint32 (t : TapeUnit) : Option Word × TapeUnit :=
  match t.readUint8 with
  | (none, t) => (none, t)
  | (some v1, t) =>
    match t.readUint8 with
    | (none, t) => (none, t)
    | (some v2, t) =>
      match t.readUint8 with
      | (none, t) => (none, t)
      | (some v3, t) =>
        match t.readUint8 with
        | (none, t) => (none, t)
        | (some v4, t) =>
          (some ((v4.setWidth 32 <<< 24) ||| (v3.setWidth 32 <<< 16) ||| (v2.setWidth 32 <<< 8) |||
            (v1.setWidth 32 <<< 0)), t)

/-- `tape_drive_write_uint8`: whether there is room for the byte. -/
def writeUint8 (v : Byte) (t : TapeUnit) : Bool × TapeUnit :=
  if t.drive.pos = t.drive.mmsz then (false, t)
  else (true, { t with drive.mm := Function.update t.drive.mm t.drive.pos v }.seek 1 .cur)

/-- `tape_drive_write_uint32`. -/
def writeUint32 (v : Word) (t : TapeUnit) : Bool × TapeUnit :=
  match t.writeUint8 (((v >>> 0) &&& 0xFF).setWidth 8) with
  | (false, t) => (false, t)
  | (true, t) =>
    match t.writeUint8 (((v >>> 8) &&& 0xFF).setWidth 8) with
    | (false, t) => (false, t)
    | (true, t) =>
      match t.writeUint8 (((v >>> 16) &&& 0xFF).setWidth 8) with
      | (false, t) => (false, t)
      | (true, t) => t.writeUint8 (((v >>> 24) &&& 0xFF).setWidth 8)

/-- `tape_drive_write_record_length`. -/
def writeRecordLength (recordLength : BitVec 64) (t : TapeUnit) : Bool × TapeUnit :=
  t.writeUint32 (recordLength.setWidth 32)

/-- `tape_drive_write_file_mark`. -/
def writeFileMark (t : TapeUnit) : Bool × TapeUnit := t.writeUint32 tapeFileMark

/-- `tape_drive_space_forward`. The two variables are not initialised; 0 stands for the
contents that a read at the end of the image leaves. -/
def spaceForward (t : TapeUnit) : TapeUnit :=
  let (preamble, t) := t.readUint32
  let recordLength := preamble.getD 0
  -- the sum is unsigned
  let t := t.seek ((recordLength + 4).toNat) .cur
  let (maybeFilemark, t) := t.readUint32
  if maybeFilemark.getD 0 = tapeFileMark then t.setMtsEof else t.seek (-4) .cur

/-- `tape_drive_space_reverse`. -/
def spaceReverse (stopAtFilemark : Bool) (t : TapeUnit) : TapeUnit :=
  let t := t.seek (-4) .cur
  let (postamble, t) := t.readUint32
  if postamble.getD 0 = tapeFileMark ∧ stopAtFilemark then t.setMtsEof
  else
    let (postamble, t) :=
      if postamble.getD 0 = tapeFileMark then
        let (again, t) := (t.seek (-8) .cur).readUint32
        -- a read that fails leaves the mark in the variable
        (again.getD tapeFileMark, t)
      else (postamble.getD 0, t)
    let lastPos := t.drive.pos
    let t := t.seek (-((postamble.toNat : ℤ) + 8)) .cur
    if (lastPos : ℤ) ≥ t.drive.eotpos ∧ (t.drive.pos : ℤ) < t.drive.eotpos then
      t.onMts ({ · with eot := false })
    else t

/-! ### Moves of the tape -/

/-- The tape at a position of the image, with the flags that depend on it. -/
def moveTo (q : ℕ) (t : TapeUnit) : TapeUnit where
  drive := { t.drive with
    pos := min q t.drive.mmsz
    bot := min q t.drive.mmsz = 0
    pos_le := min_le_right _ _
    pos_of_bot := of_decide_eq_true }
  mts := { t.mts with eot := decide (((min q t.drive.mmsz : ℕ) : ℤ) ≥ t.drive.eotpos) }

/-- The medium with a string stored on it. -/
def setBytes (pos : ℕ) (bs : List Byte) (t : TapeUnit) : TapeUnit :=
  { t with drive.mm := store t.drive.mm pos bs }

variable {t : TapeUnit} {q q' : ℕ}

/-- The clamped position. -/
theorem clampPos_eq (mmsz : ℕ) (pos : ℤ) : clampPos mmsz pos = min pos.toNat mmsz := by
  unfold clampPos
  split_ifs <;> omega

/-- Every seek from the current position is a move. -/
theorem seek_cur (offset : ℤ) : t.seek offset .cur = t.moveTo (t.drive.pos + offset).toNat := by
  unfold seek moveTo
  simp only [clampPos_eq]

/-- The last move decides. -/
@[simp] theorem moveTo_moveTo : (t.moveTo q).moveTo q' = t.moveTo q' := rfl

/-- A move beyond the image goes to its end. -/
theorem moveTo_min : t.moveTo (min q t.drive.mmsz) = t.moveTo q := by
  unfold moveTo
  simp only [min_assoc, min_self]

/-- The position after a move inside the image. -/
theorem pos_moveTo (h : q ≤ t.drive.mmsz) : (t.moveTo q).drive.pos = q := min_eq_left h

/-- A move leaves the bytes. -/
@[simp] theorem mm_moveTo : (t.moveTo q).drive.mm = t.drive.mm := rfl

/-- A move leaves the size of the image. -/
@[simp] theorem mmsz_moveTo : (t.moveTo q).drive.mmsz = t.drive.mmsz := rfl

/-- A move leaves the end-of-tape marker. -/
@[simp] theorem eotpos_moveTo : (t.moveTo q).drive.eotpos = t.drive.eotpos := rfl

/-- A move leaves the end-of-file bit. -/
@[simp] theorem eof_moveTo : (t.moveTo q).mts.eof = t.mts.eof := rfl

/-- The end-of-tape bit tells whether the marker was reached. -/
theorem eot_moveTo (h : q ≤ t.drive.mmsz) :
    (t.moveTo q).mts.eot = decide ((q : ℤ) ≥ t.drive.eotpos) := by
  unfold moveTo
  simp only [min_eq_left h]

/-- The load point, after a move. -/
theorem bot_moveTo (h : q ≤ t.drive.mmsz) : (t.moveTo q).drive.bot = decide (q = 0) := by
  unfold moveTo
  simp only [min_eq_left h]

/-- A move back after a move. -/
theorem seek_moveTo (h : q ≤ t.drive.mmsz) (offset : ℤ) :
    (t.moveTo q).seek offset .cur = t.moveTo (q + offset).toNat := by
  rw [seek_cur, pos_moveTo h, moveTo_moveTo]

/-- A byte inside the image is read, and the tape moves over it. -/
theorem readUint8_of_lt (h : t.drive.pos < t.drive.mmsz) :
    t.readUint8 = (some (t.drive.mm t.drive.pos), t.moveTo (t.drive.pos + 1)) := by
  unfold readUint8
  rw [if_neg (Nat.ne_of_lt h), seek_cur]
  rfl

/-- A byte is read where the tape was moved to. -/
theorem readUint8_moveTo (h : q < t.drive.mmsz) :
    (t.moveTo q).readUint8 = (some (t.drive.mm q), t.moveTo (q + 1)) := by
  have hpos := pos_moveTo (t := t) h.le
  rw [readUint8_of_lt (by rwa [hpos]), hpos]
  rfl

/-- At the end of the image nothing is read. -/
theorem readUint8_of_eq (h : t.drive.pos = t.drive.mmsz) : t.readUint8 = (none, t) := if_pos h

/-- A word inside the image is read, and the tape moves over it. -/
theorem readUint32_of_le (h : t.drive.pos + 4 ≤ t.drive.mmsz) :
    t.readUint32 = (some (wordAt t.drive.mm t.drive.pos), t.moveTo (t.drive.pos + 4)) := by
  unfold readUint32
  rw [readUint8_of_lt (by omega)]
  dsimp only
  rw [readUint8_moveTo (by omega)]
  dsimp only
  rw [readUint8_moveTo (by omega)]
  dsimp only
  rw [readUint8_moveTo (by omega)]
  dsimp only
  rw [or_shiftLeft_eq_append]
  rfl

/-- A word is read where the tape was moved to. -/
theorem readUint32_moveTo (h : q + 4 ≤ t.drive.mmsz) :
    (t.moveTo q).readUint32 = (some (wordAt t.drive.mm q), t.moveTo (q + 4)) := by
  have hpos := pos_moveTo (t := t) (q := q) (by omega)
  rw [readUint32_of_le (by rwa [hpos]), hpos]
  rfl

/-- Less than a word before the end of the image, the tape moves to the end. -/
theorem readUint32_moveTo_short (hq : q ≤ t.drive.mmsz) (h : t.drive.mmsz < q + 4) :
    (t.moveTo q).readUint32 = (none, t.moveTo t.drive.mmsz) := by
  have hend : (t.moveTo t.drive.mmsz).readUint8 = (none, t.moveTo t.drive.mmsz) :=
    readUint8_of_eq (min_self _)
  have hread {k : ℕ} (hk : k < t.drive.mmsz) := readUint8_moveTo (t := t) hk
  unfold readUint32
  rcases hq.eq_or_lt with rfl | h0
  · rw [hend]
  rw [hread h0]
  dsimp only
  rcases (Nat.succ_le_of_lt h0).eq_or_lt with h1 | h1
  · rw [Nat.succ_eq_add_one] at h1
    rw [h1, hend]
  rw [hread h1]
  dsimp only
  rcases (Nat.succ_le_of_lt h1).eq_or_lt with h2 | h2
  · rw [Nat.succ_eq_add_one] at h2
    rw [h2, hend]
  rw [hread h2]
  dsimp only
  have h3 : q + 1 + 1 + 1 = t.drive.mmsz := by omega
  rw [h3, hend]

/-- A string stored leaves the size of the image. -/
@[simp] theorem mmsz_setBytes {pos : ℕ} {bs : List Byte} :
    (t.setBytes pos bs).drive.mmsz = t.drive.mmsz := rfl

/-- Two strings stored, one after the other. -/
theorem setBytes_setBytes {pos : ℕ} (bs bs' : List Byte) (hq : q = pos + bs.length) :
    (t.setBytes pos bs).setBytes q bs' = t.setBytes pos (bs ++ bs') := by
  unfold setBytes
  simp only [store_append, hq]

/-- A byte is written inside the image, and the tape moves over it. -/
theorem writeUint8_of_lt (h : t.drive.pos < t.drive.mmsz) (v : Byte) :
    t.writeUint8 v = (true, (t.setBytes t.drive.pos [v]).moveTo (t.drive.pos + 1)) := by
  unfold writeUint8
  rw [if_neg (Nat.ne_of_lt h), seek_cur]
  rfl

/-- A byte is written where the tape was moved to. -/
theorem writeUint8_moveTo (h : q < t.drive.mmsz) (v : Byte) :
    (t.moveTo q).writeUint8 v = (true, (t.setBytes q [v]).moveTo (q + 1)) := by
  have hpos := pos_moveTo (t := t) h.le
  rw [writeUint8_of_lt (by rwa [hpos]), hpos]
  rfl

/-- A word is written inside the image, and the tape moves over it. -/
theorem writeUint32_of_le (h : t.drive.pos + 4 ≤ t.drive.mmsz) (v : Word) :
    t.writeUint32 v = (true, (t.setBytes t.drive.pos (le32 v)).moveTo (t.drive.pos + 4)) := by
  have hbyte (k : ℕ) : ((v >>> k) &&& 0xFF).setWidth 8 = (v >>> k).setWidth 8 := by
    apply BitVec.eq_of_toNat_eq
    rw [BitVec.toNat_setWidth, BitVec.toNat_setWidth, toNat_and_mask _ _ (n := 8) rfl,
      Nat.mod_mod]
  unfold writeUint32
  rw [writeUint8_of_lt (by omega)]
  dsimp only
  rw [writeUint8_moveTo (by rw [mmsz_setBytes]; omega)]
  dsimp only
  rw [writeUint8_moveTo (by rw [mmsz_setBytes, mmsz_setBytes]; omega)]
  dsimp only
  rw [writeUint8_moveTo (by rw [mmsz_setBytes, mmsz_setBytes, mmsz_setBytes]; omega)]
  simp only [hbyte]
  rfl

/-- A word is written where the tape was moved to. -/
theorem writeUint32_moveTo (h : q + 4 ≤ t.drive.mmsz) (v : Word) :
    (t.moveTo q).writeUint32 v = (true, (t.setBytes q (le32 v)).moveTo (q + 4)) := by
  have hpos := pos_moveTo (t := t) (q := q) (by omega)
  rw [writeUint32_of_le (by rwa [hpos]), hpos]
  rfl

/-- Spacing forward, by the word at the tape and the word at the position it leads to:
a mark there is passed, and at the end of the image the tape comes to stand four
bytes before it. -/
theorem spaceForward_eq (h : t.drive.pos + 4 ≤ t.drive.mmsz)
    (hq : q = min (t.drive.pos + 4 + (wordAt t.drive.mm t.drive.pos + 4).toNat) t.drive.mmsz) :
    t.spaceForward =
      if q + 4 ≤ t.drive.mmsz then
        if wordAt t.drive.mm q = tapeFileMark then (t.moveTo (q + 4)).setMtsEof else t.moveTo q
      else t.moveTo (t.drive.mmsz - 4) := by
  have hle : q ≤ t.drive.mmsz := hq ▸ min_le_right _ _
  have hseek : (t.moveTo (t.drive.pos + 4)).seek
      ((wordAt t.drive.mm t.drive.pos + 4).toNat) .cur = t.moveTo q := by
    rw [seek_moveTo h, hq, moveTo_min, ← Nat.cast_add, Int.toNat_natCast]
  have hmark : (0 : Word) ≠ tapeFileMark := by decide
  unfold spaceForward
  rw [readUint32_of_le h]
  simp only [Option.getD_some, hseek]
  by_cases hword : q + 4 ≤ t.drive.mmsz
  · have hback : (((q + 4 : ℕ) : ℤ) + -4).toNat = q := by omega
    simp only [readUint32_moveTo hword, Option.getD_some, seek_moveTo hword, hback, if_pos hword]
  · have hback : ((t.drive.mmsz : ℤ) + -4).toNat = t.drive.mmsz - 4 := by omega
    have hshort := readUint32_moveTo_short hle (Nat.lt_of_not_le hword)
    simp only [hshort, Option.getD_none, seek_moveTo le_rfl, hback, if_neg hmark, if_neg hword]

/-- A move back over a record. The end-of-tape bit is reset by the move already. -/
theorem seek_reset_eot (hq : q ≤ t.drive.mmsz) (postamble : Word) :
    (let u := (t.moveTo q).seek (-((postamble.toNat : ℤ) + 8)) .cur
    if ((t.moveTo q).drive.pos : ℤ) ≥ u.drive.eotpos ∧ (u.drive.pos : ℤ) < u.drive.eotpos then
      u.onMts ({ · with eot := false })
    else u) = t.moveTo (q - (postamble.toNat + 8)) := by
  have hpos : ((q : ℤ) + -((postamble.toNat : ℤ) + 8)).toNat = q - (postamble.toNat + 8) := by
    omega
  simp only [seek_moveTo hq, hpos]
  split
  · rename_i hpassed
    have heot := decide_eq_false (not_le.mpr hpassed.2)
    simp only [onMts, moveTo, TapeUnit.mk.injEq, true_and, Mts.mk.injEq, and_true]
    exact heot.symm
  · rfl

/-- Spacing reverse, by the word before the tape and, if that is a mark, the word
before the mark. -/
theorem spaceReverse_eq (stopAtFilemark : Bool) (h : t.drive.pos - 4 + 4 ≤ t.drive.mmsz)
    (hq : q = t.drive.pos - 4) :
    t.spaceReverse stopAtFilemark =
      if wordAt t.drive.mm q = tapeFileMark then
        if stopAtFilemark then (t.moveTo (q + 4)).setMtsEof
        else t.moveTo (q - 4 + 4 - ((wordAt t.drive.mm (q - 4)).toNat + 8))
      else t.moveTo (q + 4 - ((wordAt t.drive.mm q).toNat + 8)) := by
  have hseek : t.seek (-4) .cur = t.moveTo q := by
    rw [seek_cur]
    congr 1
    omega
  have hread : (t.moveTo q).readUint32 = (some (wordAt t.drive.mm q), t.moveTo (q + 4)) :=
    readUint32_moveTo (hq ▸ h)
  unfold spaceReverse
  simp only [hseek, hread]
  simp only [Option.getD_some]
  by_cases hmark : wordAt t.drive.mm q = tapeFileMark
  · have hback : (((q + 4 : ℕ) : ℤ) + -8).toNat = q - 4 := by omega
    cases stopAtFilemark with
    | true => simp only [hmark, and_self, if_true]
    | false =>
      have hagain : (t.moveTo (q - 4)).readUint32 =
          (some (wordAt t.drive.mm (q - 4)), t.moveTo (q - 4 + 4)) := readUint32_moveTo (by omega)
      simp only [hmark, Bool.false_eq_true, and_false, if_true, if_false, seek_moveTo (hq ▸ h),
        hback, hagain, Option.getD_some]
      exact seek_reset_eot (by omega) _
  · simp only [hmark, false_and, if_false]
    exact seek_reset_eot (hq ▸ h) _

end TapeUnit

end Usim
