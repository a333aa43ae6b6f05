import Usim.CSharp.TapeTransfer
import Usim.TapeFormat

/-!
# The commands that move the tape

SPACE FORWARD, SPACE REVERSE, REWIND and OFFLINE, and what every command of the two
programs leaves.
-/

namespace Usim

open Lib

variable {δ : Type} {dev : BusDevices δ} {dev' : SharpDevices δ} {s : TapeState δ}
  {s' : SharpTapeState δ} {eot : Bool}

/-- A unit in place of that of the state, after a move. -/
theorem TapesAlike.onUnit (h : TapesAlike s s') {unit : TapeUnit}
    (hreel : TapeUnit.SameReel s.unit unit) :
    Alike { s with unit := unit } (SharpTapeState.syncEot { s' with drive := unit.sharp }) := by
  obtain ⟨bot, eot, -, hstate⟩ := h.state
  have hbus := h.bus
  have hsound := h.sound
  generalize s'.bus = bus' at hstate hbus
  subst hstate
  exact (alikeUpTo_mk (hreel.mts s.unit.mts.eot) hbus ⟨hreel.rws.trans hsound.rws,
    hreel.mmsz ▸ hsound.size, hsound.lower, hsound.upper⟩).syncEot

/-- The mark is noted in both. -/
theorem Alike.setMtsEof (h : Alike s s') :
    Alike { s with unit := s.unit.setMtsEof } (s'.onMts ({ · with eof := true })).syncEot := by
  obtain ⟨hstate, hbus, hsound⟩ := h
  generalize s'.bus = bus' at hstate hbus
  subst hstate
  exact ⟨rfl, hbus, hsound.rws, hsound.size, hsound.lower, hsound.upper⟩

/-- Spacing over a record reads no word past the end of the image. -/
def TapeUnit.SpaceInside (t : TapeUnit) : Prop :=
  t.drive.pos + 4 ≤ t.drive.mmsz ∧
    (t.readUint32.2.seek ((t.readUint32.1.getD 0 + 4).toNat) .cur).drive.pos + 4 ≤ t.drive.mmsz

/-- Spacing forward over one record. -/
theorem spaceForwardOneRecord_alike (h : TapesAlike s s') (hinside : s.unit.SpaceInside) :
    Alike { s with unit := s.unit.spaceForward } s'.spaceForwardOneRecord := by
  obtain ⟨bot, eot, -, hstate⟩ := h.state
  obtain ⟨hpreamble, hnext⟩ := hinside
  have hword := TapeUnit.readUint32_of_le hpreamble
  have hword' : s'.drive.readUInt32 =
      (wordAt s.unit.drive.mm s.unit.drive.pos, (s.unit.moveTo (s.unit.drive.pos + 4)).sharp) := by
    rw [hstate]
    exact TapeUnit.readUInt32_standing bot eot hpreamble
  rw [hword] at hnext
  simp only [Option.getD_some] at hnext
  have hreel : TapeUnit.SameReel s.unit ((s.unit.moveTo (s.unit.drive.pos + 4)).seek
      ((wordAt s.unit.drive.mm s.unit.drive.pos + 4).toNat) .cur) := by
    rw [TapeUnit.seek_cur]
    exact TapeUnit.sameReel_moveTo _ _
  unfold SharpTapeState.spaceForwardOneRecord TapeUnit.spaceForward
  simp only [hword, hword', TapeUnit.seekRelative_sharp, Option.getD_some]
  generalize hunit : (s.unit.moveTo (s.unit.drive.pos + 4)).seek
    ((wordAt s.unit.drive.mm s.unit.drive.pos + 4).toNat) .cur = unit at hnext hreel ⊢
  rw [← hreel.mmsz] at hnext
  simp only [TapeUnit.readUint32_of_le hnext, TapeUnit.readUInt32_sharp hnext, Option.getD_some,
    TapeUnit.seekRelative_sharp]
  have hmoved := hreel.trans (TapeUnit.sameReel_moveTo (unit.drive.pos + 4) unit)
  by_cases hmark : wordAt unit.drive.mm unit.drive.pos = tapeFileMark
  · rw [if_pos hmark, if_pos (show _ = (0xFFFFFFFF : Word) from hmark)]
    exact (h.onUnit hmoved).setMtsEof
  · rw [if_neg hmark, if_neg (show ¬_ = (0xFFFFFFFF : Word) from hmark)]
    have hback := hmoved.trans
      (TapeUnit.sameReel_moveTo (((unit.drive.pos + 4 : ℕ) : ℤ) + -4).toNat _)
    rw [TapeUnit.seek_moveTo hnext]
    exact h.onUnit hback

/-- Spacing over as many records, or to the next mark or the end-of-tape marker, reads no word
past the end of the image. -/
def TapeUnit.SpacesInside : ℕ → TapeUnit → Prop
  | 0, _ => True
  | n + 1, t => t.SpaceInside ∧
      ((t.spaceForward.mts.eof || t.spaceForward.mts.eot) = false → SpacesInside n t.spaceForward)

/-- A record is counted in both. -/
theorem TapesAlike.setMtbrc (h : TapesAlike s s') (mtbrc : ℤ) {mtbrc' : ℤ} (heq : mtbrc' = mtbrc)
    (hlower : -2 ^ 15 ≤ mtbrc) (hupper : mtbrc < 2 ^ 15) :
    TapesAlike { s with mtbrc := mtbrc } { s' with mtbrc := mtbrc' } :=
  ⟨h.drive, h.mts, heq, h.mtcma, h.bus, h.sound.rws, h.sound.size, hlower, hupper⟩

/-- The loops over records. -/
theorem spaceForwardLoop_alike {n : ℕ} (h : TapesAlike s s') (hcount : s.mtbrc + n ≤ 0 ∨ n = 0)
    (hinside : s.unit.SpacesInside n) :
    TapesAlike (s.spaceForwardLoop n) (s'.spaceForwardLoop n) := by
  induction n generalizing s s' with
  | zero => exact h
  | succ n ih =>
    obtain ⟨hrecord, hrest⟩ := hinside
    have hstep := (spaceForwardOneRecord_alike h hrecord).tapesAlike
    have hlower := h.sound.lower
    have hmts : (s'.spaceForwardOneRecord.mts.eof || s'.spaceForwardOneRecord.mts.eot) =
        (s.unit.spaceForward.mts.eof || s.unit.spaceForward.mts.eot) := by rw [hstep.mts]
    unfold TapeState.spaceForwardLoop SharpTapeState.spaceForwardLoop
    simp only [hmts]
    cases hstop : s.unit.spaceForward.mts.eof || s.unit.spaceForward.mts.eot with
    | true =>
      rw [if_pos rfl, if_pos rfl]
      exact hstep
    | false =>
      rw [if_neg Bool.false_ne_true, if_neg Bool.false_ne_true]
      have hnext := hstep.setMtbrc (s.mtbrc + 1) (congrArg (· + 1) hstep.mtbrc)
        (by omega) (by omega)
      replace hrest := hrest hstop
      generalize s.unit.spaceForward = unit at hnext hrest ⊢
      exact ih hnext (by simp only; omega) hrest

/-- The loops over a file. -/
theorem spaceForwardFile_alike {fuel : ℕ} (h : TapesAlike s s')
    (hinside : (s.unit.mts.eof || s.unit.mts.eot) = false → s.unit.SpacesInside fuel) :
    TapesAlike (s.spaceForwardFile fuel) (s'.spaceForwardFile fuel) := by
  induction fuel generalizing s s' with
  | zero => exact h
  | succ fuel ih =>
    unfold TapeState.spaceForwardFile SharpTapeState.spaceForwardFile
    rw [h.mts]
    cases hstop : s.unit.mts.eof || s.unit.mts.eot with
    | true =>
      rw [if_pos rfl, if_pos rfl]
      exact h
    | false =>
      rw [if_neg Bool.false_ne_true, if_neg Bool.false_ne_true]
      obtain ⟨hrecord, hrest⟩ := hinside hstop
      have hnext := (spaceForwardOneRecord_alike h hrecord).tapesAlike
      generalize s.unit.spaceForward = unit at hnext hrest ⊢
      exact ih hnext hrest

/-- The records that SPACE FORWARD may pass over: all up to a mark for a count of 0. -/
def TapeState.recordsAhead (s : TapeState δ) : ℕ :=
  if s.mtbrc = 0 then s.unit.drive.mmsz + 1 else (-s.mtbrc).toNat

/-- The two SPACE FORWARDs. -/
theorem spaceForward_alike (h : TapesAlike s s') (hinside : s.unit.SpacesInside s.recordsAhead) :
    TapesAlike s.spaceForward s'.spaceForward := by
  obtain ⟨bot, eot, -, hdrive⟩ := h.state
  have hsize : s'.drive.fileSize = s.unit.drive.mmsz := by
    rw [hdrive]
    rfl
  unfold TapeState.recordsAhead at hinside
  unfold TapeState.spaceForward SharpTapeState.spaceForward
  rw [h.mts, h.mtbrc, hsize]
  split
  · exact h
  split
  · rename_i hzero
    rw [if_pos hzero] at hinside
    exact spaceForwardFile_alike h fun _ => hinside
  · rename_i hcount
    rw [if_neg hcount] at hinside
    exact spaceForwardLoop_alike h (by omega) hinside

/-- Spacing back over one record always stays inside the image. -/
theorem spaceReverseOneRecord_alike (stopAtFilemark : Bool) (h : TapesAlike s s') :
    Alike { s with unit := s.unit.spaceReverse stopAtFilemark }
      (s'.spaceReverseOneRecord stopAtFilemark) := by
  obtain ⟨bot, eot, -, hstate⟩ := h.state
  have hsize := h.sound.size
  have hpos := s.unit.drive.pos_le
  obtain ⟨q, hq⟩ : ∃ q, q = s.unit.drive.pos - 4 := ⟨_, rfl⟩
  have hinside : q + 4 ≤ s.unit.drive.mmsz := by omega
  have hdrive : s'.drive.seekRelative (-4) = (s.unit.moveTo q).sharp := by
    have hback : ((s.unit.drive.pos : ℤ) + -4).toNat = q := by omega
    rw [hstate, ← hback, ← TapeUnit.seek_cur]
    exact TapeUnit.seekRelative_standing s.unit bot eot (-4)
  have hreadAt {p : ℕ} (hp : p + 4 ≤ s.unit.drive.mmsz) : (s.unit.moveTo p).sharp.readUInt32 =
      (wordAt s.unit.drive.mm p, (s.unit.moveTo (p + 4)).sharp) := by
    rw [TapeUnit.readUInt32_sharp (by rwa [TapeUnit.pos_moveTo (by omega)]),
      TapeUnit.pos_moveTo (by omega)]
    rfl
  have hover {p : ℕ} (hp : p ≤ s.unit.drive.mmsz) (recordLength : Word) :
      (s.unit.moveTo p).sharp.seekRelative (-((recordLength.toNat : ℤ) + 8)) =
        (s.unit.moveTo (p - (recordLength.toNat + 8))).sharp := by
    have hback : ((p : ℤ) + -((recordLength.toNat : ℤ) + 8)).toNat =
        p - (recordLength.toNat + 8) := by omega
    rw [TapeUnit.seekRelative_sharp, TapeUnit.seek_moveTo hp, hback]
  rw [TapeUnit.spaceReverse_eq stopAtFilemark (by omega) hq]
  unfold SharpTapeState.spaceReverseOneRecord
  simp only [hdrive, hreadAt hinside]
  by_cases hmark : wordAt s.unit.drive.mm q = tapeFileMark
  · rw [if_pos hmark]
    have hmark' : wordAt s.unit.drive.mm q = 0xFFFFFFFF := hmark
    cases stopAtFilemark with
    | true =>
      rw [if_pos rfl, if_pos ⟨hmark', rfl⟩]
      exact (h.onUnit (TapeUnit.sameReel_moveTo (q + 4) s.unit)).setMtsEof
    | false =>
      have hback : (((q + 4 : ℕ) : ℤ) + -8).toNat = q - 4 := by omega
      simp only [hmark', Bool.false_eq_true, and_false, if_false, if_true,
        TapeUnit.seekRelative_sharp, TapeUnit.seek_moveTo hinside, hback,
        hreadAt (p := q - 4) (by omega)]
      rw [← TapeUnit.seekRelative_sharp, hover (by omega)]
      exact h.onUnit (TapeUnit.sameReel_moveTo _ s.unit)
  · have hmark' : ¬wordAt s.unit.drive.mm q = 0xFFFFFFFF := hmark
    simp only [hmark, hmark', false_and, if_false, hover hinside]
    exact h.onUnit (TapeUnit.sameReel_moveTo _ s.unit)

/-- The flag for the load point is that of the drive. -/
theorem Alike.bot (h : Alike s s') : s'.drive.bot = s.unit.drive.bot := by
  rw [h.state]
  rfl

/-- The loops over records, back. -/
theorem spaceReverseLoop_alike {n : ℕ} (h : TapesAlike s s') (hcount : s.mtbrc + n ≤ 0 ∨ n = 0) :
    TapesAlike (s.spaceReverseLoop n) (s'.spaceReverseLoop n) := by
  induction n generalizing s s' with
  | zero => exact h
  | succ n ih =>
    have hrecord := spaceReverseOneRecord_alike true h
    have hstep := hrecord.tapesAlike
    have hlower := h.sound.lower
    have hstops : ((s'.spaceReverseOneRecord true).mts.eof ||
          (s'.spaceReverseOneRecord true).drive.bot) =
        ((s.unit.spaceReverse true).mts.eof || (s.unit.spaceReverse true).drive.bot) := by
      rw [hstep.mts, hrecord.bot]
    unfold TapeState.spaceReverseLoop SharpTapeState.spaceReverseLoop
    simp only [hstops]
    generalize s.unit.spaceReverse true = unit at hstep ⊢
    cases unit.mts.eof || unit.drive.bot with
    | true =>
      rw [if_pos rfl, if_pos rfl]
      exact hstep
    | false =>
      rw [if_neg Bool.false_ne_true, if_neg Bool.false_ne_true]
      have hnext := hstep.setMtbrc (s.mtbrc + 1) (congrArg (· + 1) hstep.mtbrc)
        (by omega) (by omega)
      exact ih hnext (by simp only; omega)

/-- The loops over a file, back. -/
theorem spaceReverseFile_alike {fuel : ℕ} (h : Alike s s') :
    Alike (s.spaceReverseFile fuel) (s'.spaceReverseFile fuel) := by
  induction fuel generalizing s s' with
  | zero => exact h
  | succ fuel ih =>
    unfold TapeState.spaceReverseFile SharpTapeState.spaceReverseFile
    rw [h.tapesAlike.mts, h.bot]
    have hnext := spaceReverseOneRecord_alike true h.tapesAlike
    generalize s.unit.spaceReverse true = unit at hnext ⊢
    cases s.unit.mts.eof || s.unit.drive.bot with
    | true =>
      rw [if_pos rfl, if_pos rfl]
      exact h
    | false =>
      rw [if_neg Bool.false_ne_true, if_neg Bool.false_ne_true]
      exact ih hnext

/-- SPACE REVERSE finds the tape where the C program knows it: moved since it was loaded. Only
a count of 0 makes no difference, and only if the marker lies behind the load point. -/
def TapeState.KnowsLoadPoint (s : TapeState δ) : Prop :=
  s.unit.drive.pos = 0 → s.unit.drive.bot = false → s.mtbrc = 0 ∧ 0 < s.unit.drive.eotpos

/-- SPACE REVERSE from the load point, where the C program does not know it. -/
theorem spaceReverse_unmoved (hpos : s.unit.drive.pos = 0) (hbot : s.unit.drive.bot = false)
    (hcount : s.mtbrc = 0) : s.spaceReverse = { s with unit := s.unit.moveTo 0 } := by
  have hstop : (s.unit.moveTo 0).drive.bot = true := TapeUnit.bot_moveTo (Nat.zero_le _)
  unfold TapeState.spaceReverse
  rw [hbot, if_neg Bool.false_ne_true]
  simp only [if_pos hcount, TapeUnit.spaceReverse_load_point hpos]
  unfold TapeState.spaceReverseFile
  simp only [hstop, Bool.or_true, if_true]

/-- The two SPACE REVERSEs. -/
theorem spaceReverse_alike (h : TapesAlike s s') (heot : s.unit.mts.eot = false)
    (hknows : s.KnowsLoadPoint) : TapesAlike s.spaceReverse s'.spaceReverse := by
  obtain ⟨bot, eot, hbot, hstate⟩ := h.state
  have hsize : s'.drive.fileSize = s.unit.drive.mmsz := by
    rw [hstate]
    rfl
  have hbot' : s'.drive.bot = bot := by
    rw [hstate]
    rfl
  rcases hbot with rfl | ⟨hunmoved, hpos, rfl⟩
  · have hrecord := spaceReverseOneRecord_alike false h
    unfold TapeState.spaceReverse SharpTapeState.spaceReverse
    simp only [hbot', hsize, h.mtbrc, hrecord.tapesAlike.mtbrc, hrecord.bot]
    generalize s.unit.spaceReverse false = unit at hrecord ⊢
    split
    · exact h
    split
    · exact (spaceReverseFile_alike hrecord).tapesAlike
    · have hlower : -2 ^ 15 ≤ Int.bmod (s.mtbrc + 1) (2 ^ 16) := Int.le_bmod (by decide)
      have hupper : Int.bmod (s.mtbrc + 1) (2 ^ 16) < 2 ^ 15 := Int.bmod_lt (by decide)
      have hcounted := hrecord.tapesAlike.setMtbrc _ rfl hlower hupper
      split
      · exact hcounted
      · exact spaceReverseLoop_alike hcounted (by simp only; omega)
  · obtain ⟨hcount, hmarker⟩ := hknows hpos hunmoved
    rw [spaceReverse_unmoved hpos hunmoved hcount]
    unfold SharpTapeState.spaceReverse
    rw [hbot', if_pos rfl]
    have hdrive : s'.drive = (s.unit.moveTo 0).standing true eot := by
      rw [hstate]
      unfold TapeUnit.standing TapeUnit.sharp
      simp only [TapeUnit.pos_moveTo (t := s.unit) (Nat.zero_le _), hpos]
      rfl
    have hmts : s'.mts = (s.unit.moveTo 0).mts := by
      have hbefore : decide (((0 : ℕ) : ℤ) ≥ s.unit.drive.eotpos) = false :=
        decide_eq_false (not_le.mpr hmarker)
      rw [h.mts]
      unfold TapeUnit.moveTo
      simp only [Nat.zero_min, hbefore, ← heot]
    exact ⟨⟨true, eot, hdrive, .inl (TapeUnit.bot_moveTo (Nat.zero_le _)).symm⟩, hmts, h.mtbrc,
      h.mtcma, h.bus, h.sound.rws, h.sound.size, h.sound.lower, h.sound.upper⟩

/-! ### The other commands -/

/-- The interrupt at the end of a command. -/
theorem Ported.tapeInterruptIfEnabled {b : BusGlobals δ} {b' : SharpGlobals δ} (h : Ported b b')
    (intEnb : Bool) :
    Ported (tapeAssertUnibusInterrupt intEnb b) (b'.tapeInterruptIfEnabled intEnb) := by
  obtain ⟨rfl, hstatus, hdebuggee⟩ := h
  unfold tapeAssertUnibusInterrupt SharpGlobals.tapeInterruptIfEnabled
    SharpGlobals.assertUnibusInterrupt BusState.onInterrupts assertUnibusInterrupt
  split
  · change Ported _ (if b.interrupts.statusReg &&& 0o2000 ≠ 0 then _ else _)
    split
    · refine ⟨rfl, ?_, hdebuggee⟩
      change ((b.interrupts.statusReg &&& ~~~0o1774) ||| 0o100000 |||
        (tapeInterruptVector &&& 0o1774)).toNat < 2 ^ 16
      rw [BitVec.toNat_or, BitVec.toNat_or, BitVec.toNat_and]
      refine Nat.or_lt_two_pow (Nat.or_lt_two_pow ?_ (by decide)) (by decide)
      exact Nat.lt_of_le_of_lt Nat.and_le_left hstatus
    · exact ⟨rfl, hstatus, hdebuggee⟩
  · exact ⟨rfl, hstatus, hdebuggee⟩

/-- The two REWINDs. -/
theorem rewind_alike (intEnb : Bool) (h : TapesAlike s s') :
    TapesAlike (s.rewind intEnb) (s'.rewind intEnb) := by
  obtain ⟨bot, eot, -, hstate⟩ := h.state
  have hbus := h.bus.tapeInterruptIfEnabled intEnb
  have hsound := h.sound
  generalize s'.bus = bus' at hstate hbus
  subst hstate
  have hdrive : (s.unit.standing bot eot).seekAbsolute 0 =
      s.unit.rewind.standing true (s.unit.seek 0 .set).mts.eot := by
    have hrws : (s.unit.standing bot eot).rws = s.unit.rewind.drive.rws := hsound.rws
    unfold SharpTapeDrive.seekAbsolute SharpTapeDrive.seek
    rw [hrws]
    rfl
  exact ⟨⟨true, _, hdrive, .inl rfl⟩, rfl, rfl, rfl, hbus, rfl, hsound.size, hsound.lower,
    hsound.upper⟩

/-- A drive of the port that is like one of the C program between two commands. -/
structure SameTapeDrive (p : TapeDrive) (p' : SharpTapeDrive) : Prop where
  online : p'.online = p.online
  readOnly : p'.readOnly = p.readOnly
  /-- The port knows that a tape that was never moved is at the load point. -/
  bot : p'.bot = p.bot ∨ p.ready = true ∧ p.pos = 0 ∧ p.bot = false ∧ p'.bot = true
  rws : p.rws = false ∧ p'.rws = false
  pos : p'.pos = p.pos
  /-- The bytes of the tape. -/
  image : p'.image = p.mm
  /-- An online drive is open. -/
  opened : p.online = true →
    p'.opened = true ∧ p'.lengthFt = p.lengthFt ∧ p'.fileSize = p.mmsz ∧ 4 ≤ p.mmsz

/-- What a command leaves, in both. -/
structure LeftAlike (s : TapeState δ) (s' : SharpTapeState δ) : Prop where
  drive : SameTapeDrive { s.unit.drive with ready := true } s'.drive
  mts : s'.mts = s.unit.mts
  mtbrc : s'.mtbrc = s.mtbrc
  mtcma : s'.mtcma = s.mtcma
  bus : Ported s.bus s'.bus
  lower : -2 ^ 15 ≤ s.mtbrc
  upper : s.mtbrc < 2 ^ 15

/-- An open drive is left open. -/
theorem TapesAlike.leftAlike (h : TapesAlike s s') : LeftAlike s s' := by
  obtain ⟨⟨bot, eot, hdrive, hbot⟩, hmts, hmtbrc, hmtcma, hbus, hsound⟩ := h
  refine ⟨?_, hmts, hmtbrc, hmtcma, hbus, hsound.lower, hsound.upper⟩
  rw [hdrive]
  refine ⟨rfl, rfl, hbot.imp id fun h => ⟨rfl, h.2.1, h.1, h.2.2⟩, ⟨hsound.rws, hsound.rws⟩, rfl,
    rfl, fun _ => ⟨rfl, rfl, rfl, hsound.size⟩⟩

/-- The two OFFLINEs. -/
theorem offline_alike (h : TapesAlike s s') :
    LeftAlike { s with unit := s.unit.rewindAndOffline } s'.offline := by
  obtain ⟨bot, eot, -, hstate⟩ := h.state
  have hbus := h.bus
  have hsound := h.sound
  generalize s'.bus = bus' at hstate hbus
  subst hstate
  exact ⟨⟨rfl, rfl, .inl rfl, ⟨rfl, rfl⟩, rfl, rfl, fun honline => nomatch honline⟩, rfl, rfl, rfl,
    hbus, hsound.lower, hsound.upper⟩

/-- A command reads no word past the end of the image. -/
def TapeState.CommandInside (dev : BusDevices δ) (mtc : Mtc) (s : TapeState δ) : Prop :=
  (mtc.function = 1 → s.ReadInside dev) ∧
    (mtc.function = 4 → s.unit.SpacesInside s.recordsAhead)

/-- READ stores no half word where the busses of the two programs differ; nor does WRITE fetch
one there, write behind the last byte of the image, or take a positive count for a length; WRITE
EOF does not write there either; and SPACE REVERSE is told that the tape is at the load point. -/
structure TapeState.CommandPortable (dev : BusDevices δ) (mtc : Mtc) (s : TapeState δ) : Prop where
  read : mtc.function = 1 → s.reading.ReadLoopPortable dev (-s.mtbrc).toNat s.preamble
  write : mtc.function = 2 ∨ mtc.function = 6 → s.unit.drive.readOnly = false →
    ¬(0 < s.mtbrc ∧ s.mtbrc % 4 = 0) ∧ (WritesRecord s.mtbrc →
      s.unit.drive.pos < s.unit.drive.mmsz ∧ s.writing.WriteLoopPortable dev (-s.mtbrc).toNat)
  writeEof : mtc.function = 3 → s.unit.drive.readOnly = false →
    s.unit.drive.pos < s.unit.drive.mmsz
  spaceReverse : mtc.function = 5 → s.KnowsLoadPoint

/-- The two `switch`es. -/
theorem command_alike (hdev : AttachedIdentically dev dev')
    (hmode : OnlyModeDisablesProm dev'.diagnosticInterface) (mtc : Mtc) (h : TapesAlike s s')
    (heot : s.unit.mts.eot = false) (hinside : s.CommandInside dev mtc)
    (hportable : s.CommandPortable dev mtc) :
    AgreesUpTo LeftAlike (s.command dev mtc) (s'.command dev' mtc) := by
  obtain ⟨hread, hforward⟩ := hinside
  obtain ⟨hstores, hwrites, hmarks, hknows⟩ := hportable
  unfold TapeState.command SharpTapeState.command
  generalize mtc.function = function at hread hforward hstores hwrites hmarks hknows ⊢
  have hleft {t : TapeState δ} {t' : SharpTapeState δ} : TapesAlike t t' → LeftAlike t t' :=
    TapesAlike.leftAlike
  have hwrite (h26 : function = 2 ∨ function = 6) :
      AgreesUpTo LeftAlike (s.write dev) (s'.writeCommand dev') :=
    (write_alike hdev h (fun hro => (hwrites h26 hro).1) (fun hro hrec =>
      ((hwrites h26 hro).2 hrec).1) fun hro hrec => ((hwrites h26 hro).2 hrec).2).mono
      fun _ _ => hleft
  match function with
  | 0 => exact offline_alike h
  | 1 => exact (read_alike hdev hmode h (hread rfl) (hstores rfl)).mono fun _ _ => hleft
  | 2 => exact hwrite (.inl rfl)
  | 3 => exact (writeEof_alike h (hmarks rfl)).leftAlike
  | 4 => exact (spaceForward_alike h (hforward rfl)).leftAlike
  | 5 => exact (spaceReverse_alike h heot (hknows rfl)).leftAlike
  | 6 => exact hwrite (.inr rfl)
  | 7 => exact (rewind_alike mtc.intEnb h).leftAlike

end Usim
