import Usim.CSharp.TapeController

/-!
# The two tape drives

What the operations of a tape drive do in the C program and in the port. The port
has a flag for the end of the tape in every drive, which is what the C program
keeps in the status register, once the tape has moved.
-/

namespace Usim

open Lib

namespace TapeUnit

/-- The drive of the port that is like an open drive of the C program. -/
def sharp (t : TapeUnit) : SharpTapeDrive where
  online := t.drive.online
  readOnly := t.drive.readOnly
  bot := t.drive.bot
  eot := t.mts.eot
  rws := t.drive.rws
  pos := t.drive.pos
  lengthFt := t.drive.lengthFt
  fileSize := t.drive.mmsz
  eotPos := t.drive.eotpos
  opened := true
  image := t.drive.mm

/-- The same before the tape moves, with any flags for its two ends. -/
def standing (t : TapeUnit) (bot eot : Bool) : SharpTapeDrive :=
  { t.sharp with bot := bot, eot := eot }

variable {t : TapeUnit}

@[simp] theorem standing_self (t : TapeUnit) : t.standing t.drive.bot t.mts.eot = t.sharp := rfl

/-- A move sets both flags. -/
theorem seekRelative_standing (t : TapeUnit) (bot eot : Bool) (delta : ℤ) :
    (t.standing bot eot).seekRelative delta = (t.seek delta .cur).sharp := rfl

theorem seekRelative_sharp (t : TapeUnit) (delta : ℤ) :
    t.sharp.seekRelative delta = (t.seek delta .cur).sharp :=
  seekRelative_standing t t.drive.bot t.mts.eot delta

/-- A byte inside the image is read alike. -/
theorem readByte_standing (bot eot : Bool) (h : t.drive.pos < t.drive.mmsz) :
    (t.standing bot eot).readByte = (t.readUint8.1, t.readUint8.2.sharp) := by
  unfold SharpTapeDrive.readByte readUint8
  rw [if_neg (Nat.ne_of_lt h), if_neg]
  · rfl
  · rintro (hclosed | hend)
    · cases hclosed
    · exact absurd h (Nat.not_lt.mpr hend)

/-- After a move a byte is read alike at the end of the image, too. -/
theorem readByte_sharp (t : TapeUnit) :
    t.sharp.readByte = (t.readUint8.1, t.readUint8.2.sharp) := by
  rcases t.drive.pos_le.lt_or_eq with h | h
  · exact readByte_standing _ _ h
  · unfold SharpTapeDrive.readByte readUint8
    rw [if_pos h, if_pos (.inr h.ge)]

/-- One turn of the loop of `ReadUInt32`. -/
theorem readBytes_standing (bot eot : Bool) (n i : ℕ) (value : Word)
    (h : t.drive.pos < t.drive.mmsz) :
    SharpTapeDrive.readBytes (n + 1) i value (t.standing bot eot) =
      SharpTapeDrive.readBytes n (i + 1)
        (value ||| ((t.drive.mm t.drive.pos).setWidth 32 <<< (i * 8)))
        (t.moveTo (t.drive.pos + 1)).sharp := by
  rw [SharpTapeDrive.readBytes, readByte_standing bot eot h, readUint8_of_lt h]

theorem readBytes_moveTo {q : ℕ} (n i : ℕ) (value : Word) (h : q < t.drive.mmsz) :
    SharpTapeDrive.readBytes (n + 1) i value (t.moveTo q).sharp =
      SharpTapeDrive.readBytes n (i + 1) (value ||| ((t.drive.mm q).setWidth 32 <<< (i * 8)))
        (t.moveTo (q + 1)).sharp := by
  rw [SharpTapeDrive.readBytes, readByte_sharp, readUint8_moveTo h]

/-- The bytes of a word, put together one by one. -/
theorem or_bytes (v₁ v₂ v₃ v₄ : Byte) :
    (0 : Word) ||| (v₁.setWidth 32 <<< (0 * 8)) ||| (v₂.setWidth 32 <<< ((0 + 1) * 8)) |||
        (v₃.setWidth 32 <<< ((0 + 1 + 1) * 8)) ||| (v₄.setWidth 32 <<< ((0 + 1 + 1 + 1) * 8)) =
      v₄ ++ v₃ ++ v₂ ++ v₁ := by
  have hfirst : (0 : Word) ||| (v₁.setWidth 32 <<< (0 * 8)) = v₁.setWidth 32 <<< 0 :=
    BitVec.zero_or
  rw [← or_shiftLeft_eq_append, hfirst]
  change v₁.setWidth 32 <<< 0 ||| v₂.setWidth 32 <<< 8 ||| v₃.setWidth 32 <<< 16 |||
    v₄.setWidth 32 <<< 24 = _
  generalize v₁.setWidth 32 <<< 0 = a, v₂.setWidth 32 <<< 8 = b, v₃.setWidth 32 <<< 16 = c,
    v₄.setWidth 32 <<< 24 = d
  rw [BitVec.or_comm (a ||| b ||| c) d, BitVec.or_comm (a ||| b) c, BitVec.or_comm a b,
    BitVec.or_assoc, BitVec.or_assoc]

/-- A word inside the image is read alike. -/
theorem readUInt32_standing (bot eot : Bool) (h : t.drive.pos + 4 ≤ t.drive.mmsz) :
    (t.standing bot eot).readUInt32 =
      (wordAt t.drive.mm t.drive.pos, (t.moveTo (t.drive.pos + 4)).sharp) := by
  unfold SharpTapeDrive.readUInt32
  rw [readBytes_standing bot eot _ _ _ (by omega), readBytes_moveTo _ _ _ (by omega),
    readBytes_moveTo _ _ _ (by omega), readBytes_moveTo _ _ _ (by omega),
    SharpTapeDrive.readBytes]
  exact Prod.ext (or_bytes _ _ _ _) rfl

theorem readUInt32_sharp (h : t.drive.pos + 4 ≤ t.drive.mmsz) :
    t.sharp.readUInt32 =
      (wordAt t.drive.mm t.drive.pos, (t.moveTo (t.drive.pos + 4)).sharp) :=
  readUInt32_standing t.drive.bot t.mts.eot h

/-- A byte is written alike inside the image. -/
theorem writeByte_standing (bot eot : Bool) (hwrite : t.drive.readOnly = false)
    (h : t.drive.pos < t.drive.mmsz) (value : Byte) :
    (t.standing bot eot).writeByte value =
      ((t.writeUint8 value).1, (t.writeUint8 value).2.sharp) := by
  unfold SharpTapeDrive.writeByte writeUint8
  rw [if_neg (Nat.ne_of_lt h), if_neg]
  · rfl
  · rintro (hclosed | hreadOnly | hend)
    · cases hclosed
    · exact Bool.false_ne_true (hwrite.symm.trans hreadOnly)
    · exact absurd h (Nat.not_lt.mpr hend)

/-- At its end nothing is written. -/
theorem writeByte_standing_end (bot eot : Bool) (h : t.drive.pos = t.drive.mmsz) (value : Byte) :
    (t.standing bot eot).writeByte value = (false, t.standing bot eot) :=
  if_pos (.inr (.inr h.ge))

theorem writeByte_sharp (hwrite : t.drive.readOnly = false) (value : Byte) :
    t.sharp.writeByte value = ((t.writeUint8 value).1, (t.writeUint8 value).2.sharp) := by
  rcases t.drive.pos_le.lt_or_eq with h | h
  · exact writeByte_standing _ _ hwrite h value
  · unfold writeUint8
    rw [if_pos h]
    exact writeByte_standing_end t.drive.bot t.mts.eot h value

/-- What moves over bytes leave of a drive: its rewind flag, its protection and the size of its
image; and everything in the status register except the flag for the end of the tape. -/
structure SameReel (t t' : TapeUnit) : Prop where
  rws : t'.drive.rws = t.drive.rws
  readOnly : t'.drive.readOnly = t.drive.readOnly
  mmsz : t'.drive.mmsz = t.drive.mmsz
  mts : ∀ eot : Bool, { t'.mts with eot := eot } = { t.mts with eot := eot }

theorem SameReel.trans {t t' t'' : TapeUnit} (h : SameReel t t') (h' : SameReel t' t'') :
    SameReel t t'' :=
  ⟨h'.rws.trans h.rws, h'.readOnly.trans h.readOnly, h'.mmsz.trans h.mmsz,
    fun eot => (h'.mts eot).trans (h.mts eot)⟩

theorem sameReel_moveTo (q : ℕ) (t : TapeUnit) : SameReel t (t.moveTo q) :=
  ⟨rfl, rfl, rfl, fun _ => rfl⟩

theorem sameReel_readUint8 (t : TapeUnit) : SameReel t t.readUint8.2 := by
  unfold readUint8
  split <;> exact ⟨rfl, rfl, rfl, fun _ => rfl⟩

theorem sameReel_writeUint8 (value : Byte) (t : TapeUnit) : SameReel t (t.writeUint8 value).2 := by
  unfold writeUint8
  split <;> exact ⟨rfl, rfl, rfl, fun _ => rfl⟩

/-- The bytes of a word, in both programs. -/
theorem and_setWidth_byte (value : Word) : (value &&& 0xFF).setWidth 8 = value.setWidth 8 :=
  Lib.setWidth_and_lowBits value 0xFF rfl (by decide)

/-- One turn of the loop of `WriteUInt32`. -/
theorem writeBytes_sharp (hwrite : t.drive.readOnly = false) (n i : ℕ) (value : Word) :
    SharpTapeDrive.writeBytes (n + 1) i value t.sharp =
      if (t.writeUint8 ((value >>> (i * 8)).setWidth 8)).1 then
        SharpTapeDrive.writeBytes n (i + 1) value
          (t.writeUint8 ((value >>> (i * 8)).setWidth 8)).2.sharp
      else (t.writeUint8 ((value >>> (i * 8)).setWidth 8)).2.sharp := by
  rw [SharpTapeDrive.writeBytes, writeByte_sharp hwrite]
  cases t.writeUint8 ((value >>> (i * 8)).setWidth 8) with
  | mk ok t' => cases ok <;> rfl

/-- What is kept by writing a byte is kept by writing a word. -/
theorem writeUint32_keeps {P : TapeUnit → Prop} (hP : ∀ v t, P t → P (t.writeUint8 v).2)
    (value : Word) (h : P t) : P (t.writeUint32 value).2 := by
  unfold writeUint32
  simp only [and_setWidth_byte]
  have h1 := hP ((value >>> 0).setWidth 8) t h
  rcases h1' : t.writeUint8 ((value >>> 0).setWidth 8) with ⟨ok1, t1⟩
  rw [h1'] at h1
  cases ok1 with
  | false => exact h1
  | true =>
    have h2 := hP ((value >>> 8).setWidth 8) t1 h1
    rcases h2' : t1.writeUint8 ((value >>> 8).setWidth 8) with ⟨ok2, t2⟩
    rw [h2'] at h2
    cases ok2 with
    | false => simpa only [h2'] using h2
    | true =>
      have h3 := hP ((value >>> 16).setWidth 8) t2 h2
      rcases h3' : t2.writeUint8 ((value >>> 16).setWidth 8) with ⟨ok3, t3⟩
      rw [h3'] at h3
      cases ok3 with
      | false => simpa only [h2', h3'] using h3
      | true => simpa only [h2', h3'] using hP ((value >>> 24).setWidth 8) t3 h3

theorem sameReel_writeUint32 (value : Word) (t : TapeUnit) : SameReel t (t.writeUint32 value).2 :=
  writeUint32_keeps (P := SameReel t) (fun v t' h => h.trans (sameReel_writeUint8 v t')) value
    ⟨rfl, rfl, rfl, fun _ => rfl⟩

/-- A word is written alike after a move. -/
theorem writeUInt32_sharp (hwrite : t.drive.readOnly = false) (value : Word) :
    t.sharp.writeUInt32 value = (t.writeUint32 value).2.sharp := by
  have hkept {t t' : TapeUnit} {ok : Bool} {v : Byte} (h : t.writeUint8 v = (ok, t'))
      (hwrite : t.drive.readOnly = false) : t'.drive.readOnly = false := by
    have hreel := sameReel_writeUint8 v t
    rw [h] at hreel
    exact hreel.readOnly.trans hwrite
  unfold SharpTapeDrive.writeUInt32 writeUint32
  simp only [and_setWidth_byte]
  rw [writeBytes_sharp hwrite]
  change (if (t.writeUint8 ((value >>> 0).setWidth 8)).1 = true then _ else _) = _
  rcases h1 : t.writeUint8 ((value >>> 0).setWidth 8) with ⟨ok1, t1⟩
  cases ok1 with
  | false => rfl
  | true =>
    have hwrite1 := hkept h1 hwrite
    rw [if_pos rfl, writeBytes_sharp hwrite1]
    change (if (t1.writeUint8 ((value >>> 8).setWidth 8)).1 = true then _ else _) = _
    rcases h2 : t1.writeUint8 ((value >>> 8).setWidth 8) with ⟨ok2, t2⟩
    cases ok2 with
    | false => simp only [h2, Bool.false_eq_true, if_false]
    | true =>
      have hwrite2 := hkept h2 hwrite1
      rw [if_pos rfl, writeBytes_sharp hwrite2]
      change (if (t2.writeUint8 ((value >>> 16).setWidth 8)).1 = true then _ else _) = _
      rcases h3 : t2.writeUint8 ((value >>> 16).setWidth 8) with ⟨ok3, t3⟩
      cases ok3 with
      | false => simp only [h2, h3, Bool.false_eq_true, if_false]
      | true =>
        rw [if_pos rfl, writeBytes_sharp (hkept h3 hwrite2)]
        simp only [h2, h3, SharpTapeDrive.writeBytes, ite_self]

/-- So is one that begins inside the image. -/
theorem writeUInt32_standing (bot eot : Bool) (hwrite : t.drive.readOnly = false)
    (h : t.drive.pos < t.drive.mmsz) (value : Word) :
    (t.standing bot eot).writeUInt32 value = (t.writeUint32 value).2.sharp := by
  rw [← writeUInt32_sharp hwrite]
  unfold SharpTapeDrive.writeUInt32 SharpTapeDrive.writeBytes
  rw [writeByte_standing bot eot hwrite h, writeByte_sharp hwrite]

end TapeUnit

end Usim
