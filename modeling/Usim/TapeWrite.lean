import Usim.TapeLoops
import Usim.TapeRoundTrip

/-!
# WRITE of one record

WRITE is to put a whole record on the tape or to leave it alone, whatever the count and
the address in the registers are. It takes a positive count for the length of a record
of which it writes the preamble only, and stops inside the record where the memory does
not respond or the image ends.
-/

namespace Usim

open Lib

variable {δ : Type}

/-- `n` half words can be read from an address on. No device ends the program, and no error is
reported. -/
def Fetches (dev : BusDevices δ) : ℕ → Word → BusGlobals δ → Prop
  | 0, _, _ => True
  | n + 1, uaddr, b => ∃ data b', busAdaptorUnibusRw dev false uaddr 0 b = .ok (data, b') ∧
      TapeState.busError b' = false ∧ Fetches dev n (uaddr + 2) b'

/-- The words of a buffer in the memory can be read. -/
theorem TapeBuffer.fetches {n : ℕ} {uaddr : Word} {b : BusGlobals δ}
    (h : TapeBuffer b uaddr (4 * n)) (hquiet : TapeState.busError b = false)
    (dev : BusDevices δ) : Fetches dev (2 * n) uaddr b := by
  induction n generalizing uaddr b with
  | zero => exact trivial
  | succ n ih =>
    have hword := h.first
    have hnext : TapeBuffer (b.setBuffer uaddr (half true (b.memory.word (b.mapped uaddr))))
        (uaddr + 4) (4 * n) := h.tail.congr rfl rfl
    have hrest := ih hnext hquiet
    have haddr : uaddr + 2 + 2 = uaddr + 4 := by
      rw [BitVec.add_assoc]
      rfl
    rw [← haddr] at hrest
    exact ⟨_, _, hword.read_low dev, hquiet, _, _, hword.read_high dev _, hquiet, hrest⟩

namespace TapeUnit

/-- Where a byte has no room, nothing is written. -/
theorem writeUint8_of_failed {t t' : TapeUnit} {v : Byte} (h : t.writeUint8 v = (false, t'))
    (v' : Byte) : (t'.writeUint8 v').2 = t' := by
  unfold writeUint8 at h
  split at h
  · rename_i hend
    cases h
    exact congrArg Prod.snd (if_pos hend)
  · cases h

/-- The four bytes of a word, one after the other. -/
theorem writeUint32_eq (t : TapeUnit) (v : Word) : (t.writeUint32 v).2 =
    ((((t.writeUint8 (((v >>> 0) &&& 0xFF).setWidth 8)).2.writeUint8
      (((v >>> 8) &&& 0xFF).setWidth 8)).2.writeUint8
        (((v >>> 16) &&& 0xFF).setWidth 8)).2.writeUint8 (((v >>> 24) &&& 0xFF).setWidth 8)).2 := by
  unfold writeUint32
  split
  · rename_i h
    simp only [h, writeUint8_of_failed h]
  · rename_i h
    simp only [h]
    split
    · rename_i h
      simp only [h, writeUint8_of_failed h]
    · rename_i h
      simp only [h]
      split
      · rename_i h
        simp only [h, writeUint8_of_failed h]
      · rename_i h
        simp only [h]

/-- A word is written, or as much of it as the image has room for. -/
theorem ahead_writeUint32 (t : TapeUnit) (v : Word) : Ahead 4 t (t.writeUint32 v).2 := by
  rw [writeUint32_eq]
  exact (((ahead_writeUint8 t _).trans (ahead_writeUint8 _ _)).trans (ahead_writeUint8 _ _)).trans
    (ahead_writeUint8 _ _)

end TapeUnit

namespace TapeState

variable {dev : BusDevices δ} {n m : ℕ} {s s' : TapeState δ}

/-! ### The loop of WRITE -/

/-- What the loop of WRITE leaves: the transfer stopped before the last half word, or all of
them were read. -/
inductive WriteLeft (dev : BusDevices δ) (m : ℕ) (s s' : TapeState δ) : Prop
  /-- A half word was not read. -/
  | stopped (k : ℕ) (before : k < m) (nxm : s'.unit.mts.nxm = true)
    (ilc : s'.unit.mts.ilc = s.unit.mts.ilc) (mmsz : s'.unit.drive.mmsz = s.unit.drive.mmsz)
    (pos : s'.unit.drive.pos = min (s.unit.drive.pos + 2 * k) s.unit.drive.mmsz)
  /-- All were read. -/
  | done (fetches : Fetches dev m s.mtcma s.bus) (mtbrc : s'.mtbrc = 0)
    (ahead : TapeUnit.Ahead (2 * m) s.unit s'.unit)

/-- One half word more. -/
theorem WriteLeft.next {data : HalfWord} {b : BusGlobals δ} {s₁ : TapeState δ}
    (h : WriteLeft dev m s₁ s')
    (haccess : busAdaptorUnibusRw dev false s.mtcma 0 s.bus = .ok (data, b))
    (hquiet : busError b = false) (hahead : TapeUnit.Ahead 2 s.unit s₁.unit)
    (haddress : s₁.mtcma = s.mtcma + 2) (hbus : s₁.bus = b) : WriteLeft dev (m + 1) s s' := by
  cases h with
  | stopped k before nxm ilc mmsz pos =>
    refine .stopped (k + 1) (Nat.succ_lt_succ before) nxm ?_ (mmsz.trans hahead.mmsz) ?_
    · rw [ilc, hahead.mts]
    · rw [pos, hahead.pos, hahead.mmsz]
      omega
  | done fetches mtbrc ahead =>
    rw [haddress, hbus] at fetches
    refine .done ⟨data, b, haccess, hquiet, fetches⟩ mtbrc ?_
    have htotal := hahead.trans ahead
    rwa [show 2 + 2 * m = 2 * (m + 1) by omega] at htotal

/-- What the loop of WRITE leaves of an even count. -/
theorem writeLeft_of_endsAfter (h : EndsAfter (writeTurn dev) n s (.ok s'))
    (hcount : s.mtbrc = -((2 * m : ℕ) : ℤ)) : WriteLeft dev m s s' := by
  generalize hr : Except.ok s' = r at h
  induction h generalizing m with
  | @left s r h =>
    cases hr
    cases writeTurnCases dev s with
    | leaves hover hturn =>
      cases hturn.symm.trans h
      obtain rfl : m = 0 := by omega
      exact .done trivial hcount (.refl _)
    | failed hgoes e haccess hturn => cases hturn.symm.trans h
    | nxm hgoes data bus haccess herror hturn =>
      cases hturn.symm.trans h
      refine .stopped 0 (by omega) rfl rfl rfl ?_
      exact (min_eq_left s.unit.drive.pos_le).symm
    | next hgoes data bus haccess hquiet hturn => cases hturn.symm.trans h
  | @next n s s₁ r h rest ih =>
    cases writeTurnCases dev s with
    | leaves hover hturn => cases hturn.symm.trans h
    | failed hgoes e haccess hturn => cases hturn.symm.trans h
    | nxm hgoes data bus haccess herror hturn => cases hturn.symm.trans h
    | next hgoes data bus haccess hquiet hturn =>
      cases hturn.symm.trans h
      obtain ⟨m, rfl⟩ : ∃ k, m = k + 1 := ⟨m - 1, by omega⟩
      have hrest := ih (m := m) (by simp only; omega) hr
      exact hrest.next haccess hquiet
        ((TapeUnit.ahead_writeUint8 _ _).trans (TapeUnit.ahead_writeUint8 _ _)) rfl rfl

/-- Half words that can be read are all written, if the image has room. -/
theorem writeLoop_fetches {t : TapeUnit} {q fuel : ℕ} {uaddr : Word} {b : BusGlobals δ}
    (h : Fetches dev m uaddr b) (hroom : q + 2 * m ≤ t.drive.mmsz) :
    ∃ bytes b', bytes.length = 2 * m ∧
      writeLoop dev (m + fuel) ⟨t.moveTo q, -((2 * m : ℕ) : ℤ), uaddr, b⟩ =
        .ok ⟨(t.setBytes q bytes).moveTo (q + 2 * m), 0, uaddr + BitVec.ofNat 32 (2 * m), b'⟩ := by
  induction m generalizing t q uaddr b with
  | zero =>
    refine ⟨[], b, rfl, ?_⟩
    have haddr : uaddr + BitVec.ofNat 32 (2 * 0) = uaddr := BitVec.add_zero uaddr
    rw [haddr]
    cases fuel <;> rfl
  | succ m ih =>
    obtain ⟨data, b₁, haccess, hquiet, hrest⟩ := h
    obtain ⟨bytes, b', hlength, hloop⟩ := ih (q := q + 2)
      (t := t.setBytes q [(data &&& 0xFF).setWidth 8, ((data >>> 8) &&& 0xFF).setWidth 8]) hrest
      (by rw [TapeUnit.mmsz_setBytes]; omega)
    have hfuel : m + 1 + fuel = (m + fuel) + 1 := by omega
    have hcount : -((2 * (m + 1) : ℕ) : ℤ) + 1 + 1 = -((2 * m : ℕ) : ℤ) := by omega
    have hpos : q + 2 + 2 * m = q + 2 * (m + 1) := by omega
    refine ⟨(data &&& 0xFF).setWidth 8 :: ((data >>> 8) &&& 0xFF).setWidth 8 :: bytes, b', ?_, ?_⟩
    · rw [List.length_cons, List.length_cons, hlength]
      omega
    · rw [hfuel, writeLoop_turn (by simp only; omega) haccess hquiet]
      simp only
      rw [TapeUnit.writeUint8_writeUint8 (by omega), hcount, hloop,
        TapeUnit.setBytes_setBytes (q := q + 2) _ _ rfl, hpos, halfAddress_succ]
      rfl

/-! ### The command -/

/-- WRITE with a positive count of words writes the preamble. -/
theorem write_of_positive (dev : BusDevices δ) (hlegal : ¬s.unit.drive.RejectsWrite s.mtbrc)
    (hpositive : 0 ≤ s.mtbrc) (hupper : s.mtbrc < 2 ^ 15) : s.write dev = .ok s.writing := by
  have hfuel : (-s.mtbrc).toNat = 0 := by omega
  have hcount : ¬s.mtbrc = 0 := fun hzero => hlegal (Or.inr (Or.inl hzero))
  rw [write_of_not_rejects dev (by omega) hupper hlegal, hfuel]
  change Except.ok (if s.writing.unit.mts.nxm then s.writing
    else if s.mtbrc = 0 then _ else s.writing) = _
  rw [if_neg hcount, ite_self]

/-- A record that WRITE takes is on the tape only where all half words were read and have room. -/
theorem write_fetches (hlegal : ¬s.unit.drive.RejectsWrite s.mtbrc)
    (hlower : -2 ^ 15 ≤ s.mtbrc) (hcount : s.mtbrc = -((2 * m : ℕ) : ℤ))
    (hnxm : s.unit.mts.nxm = false) (hwrite : s.write dev = .ok s') :
    s'.unit.mts.ilc = s.unit.mts.ilc ∧
      (s'.unit.drive.pos = s.unit.drive.pos + 2 * m + 8 →
        Fetches dev m s.mtcma (s.bus.onInterface BusInterface.resetBusErrorStatus) ∧
          s.unit.drive.pos + 2 * m + 8 ≤ s.unit.drive.mmsz) := by
  rw [write_of_not_rejects dev hlower (by omega) hlegal] at hwrite
  obtain ⟨n, -, hends⟩ := exists_endsAfter_writeTurn dev s.writing
  change EndsAfter (writeTurn dev) n s.writing (s.writing.writeLoop dev (-s.mtbrc).toNat) at hends
  have hpreamble : TapeUnit.Ahead 4 s.unit s.writing.unit := TapeUnit.ahead_writeUint32 _ _
  have hpos := hpreamble.pos
  have hle := s.unit.drive.pos_le
  cases hloop : s.writing.writeLoop dev (-s.mtbrc).toNat with
  | error e =>
    rw [hloop] at hwrite
    cases hwrite
  | ok t =>
    rw [hloop] at hends hwrite
    cases hwrite
    cases writeLeft_of_endsAfter hends hcount with
    | stopped k before nxm ilc mmsz pos =>
      have hended : t.writeEnd (BitVec.ofInt 32 (-s.mtbrc)) = t := if_pos nxm
      rw [hended]
      refine ⟨by rw [ilc, hpreamble.mts], fun hwhole => ?_⟩
      omega
    | done fetches mtbrc ahead =>
      have hquiet : t.unit.mts.nxm = false := by rw [ahead.mts, hpreamble.mts, hnxm]
      rw [writeEnd_complete hquiet mtbrc]
      have hmoved := (hpreamble.trans ahead).trans
        (TapeUnit.ahead_writeUint32 t.unit (BitVec.ofInt 32 (-s.mtbrc)))
      refine ⟨by rw [hmoved.mts], fun hwhole => ⟨fetches, ?_⟩⟩
      have hend := hmoved.pos.symm.trans hwhole
      omega

end TapeState

/-- The length that MTBRC asks for: its two's complement, 65536 for 0. -/
def TapeCommand.length (c : TapeCommand) : ℕ := 2 ^ 16 - c.mtbrc.toNat

/-- The length and the signed count. -/
theorem TapeCommand.length_cases (c : TapeCommand) :
    (c.mtbrc.toInt < 0 ∧ c.mtbrc.toInt = -(c.length : ℤ) ∧ c.length ≤ 2 ^ 15) ∨
      (0 ≤ c.mtbrc.toInt ∧ c.mtbrc.toInt < 2 ^ 15 ∧ 2 ^ 15 < c.length) := by
  have hlt := c.mtbrc.isLt
  have htoInt := BitVec.toInt_eq_toNat_cond c.mtbrc
  unfold TapeCommand.length
  split at htoInt <;> omega

/-- WRITE was rejected and left the tape alone, or there is a whole record more on it. -/
inductive RecordOrNothing (slt : Fin 8) (len : ℕ) (s s' : TapeSystem δ) : Prop
  /-- The command was illegal. -/
  | rejected (ilc : s'.controller.mts.ilc = true)
    (mm : (s'.controller.drives slt).mm = (s.controller.drives slt).mm)
    (pos : (s'.controller.drives slt).pos = (s.controller.drives slt).pos)
  /-- The record was written behind what is on the tape. -/
  | record (data : List Byte) (length : data.length = len)
    (bytes : BytesAt (s'.controller.drives slt).mm (s.controller.drives slt).pos
      (le32 (BitVec.ofNat 32 len) ++ (data ++ le32 (BitVec.ofNat 32 len))))
    (before : ∀ i < (s.controller.drives slt).pos,
      (s'.controller.drives slt).mm i = (s.controller.drives slt).mm i)
    (pos : (s'.controller.drives slt).pos = (s.controller.drives slt).pos + len + 8)

/-- WRITE is issued to a ready controller, for an online drive. -/
structure WriteIssued (c : TapeCommand) (s : TapeSystem δ) : Prop where
  goes : c.Goes
  function : c.function = 2 ∨ c.function = 6
  ready : s.controller.mtc.cur = true
  online : (s.controller.drives c.slt).online = true

/-- All words of a negative count can be read, and the image has room for the record. -/
structure WritesWhole (dev : BusDevices δ) (c : TapeCommand) (s : TapeSystem δ) : Prop where
  negative : c.mtbrc.toInt < 0
  fetches : Fetches dev (c.length / 2) c.address
    (s.bus.onInterface BusInterface.resetBusErrorStatus)
  room : (s.controller.drives c.slt).pos + c.length + 8 ≤ (s.controller.drives c.slt).mmsz

namespace WriteIssued

variable {dev : BusDevices δ} {c : TapeCommand} {s s' : TapeSystem δ} (h : WriteIssued c s)
include h

/-- The command is executed. -/
theorem issue_eq_write (dev : BusDevices δ) :
    s.issue dev c = ((s.found c).write dev).map (s.left c) := by
  have hcommand : (s.found c).command dev c.register = (s.found c).write dev := by
    unfold TapeState.command
    rcases h.function with hfunction | hfunction
    · rw [show c.register.function = 2 from hfunction]
    · rw [show c.register.function = 6 from hfunction]
  rw [TapeSystem.issue_eq dev h.goes h.ready h.online, hcommand]

/-- A count that is rejected. -/
theorem issue_rejected (hreject : (s.controller.drives c.slt).RejectsWrite c.mtbrc.toInt) :
    ∃ s', s.issue dev c = .ok s' ∧ RecordOrNothing c.slt c.length s s' := by
  have hwrite := TapeState.write_of_rejects dev (s := s.found c) (BitVec.le_toInt c.mtbrc)
    (BitVec.toInt_lt (x := c.mtbrc)) hreject
  refine ⟨_, (h.issue_eq_write dev).trans (congrArg (Except.map (s.left c)) hwrite),
    .rejected rfl ?_ ?_⟩
  · rw [TapeSystem.drives_left]
    rfl
  · rw [TapeSystem.drives_left]
    rfl

/-- A count of words, all of which can be read and have room. -/
theorem issue_whole (hwhole : WritesWhole dev c s)
    (hreject : ¬(s.controller.drives c.slt).RejectsWrite c.mtbrc.toInt) :
    ∃ s', s.issue dev c = .ok s' ∧ RecordOrNothing c.slt c.length s s' := by
  obtain ⟨hnegative, hfetches, hroom⟩ := hwhole
  obtain ⟨-, hcount, hlength⟩ | ⟨hcount, -⟩ := c.length_cases
  swap
  · omega
  obtain ⟨-, -, hwords⟩ := not_or.mp hreject |>.imp_right not_or.mp
  obtain ⟨m, hm⟩ : ∃ m, c.length = 2 * m := ⟨c.length / 2, by omega⟩
  have hfuel : (-c.mtbrc.toInt).toNat = m + m := by omega
  have hword : BitVec.ofInt 32 (-c.mtbrc.toInt) = BitVec.ofNat 32 c.length := by
    rw [hcount, neg_neg, BitVec.ofInt_natCast]
  rw [hm, Nat.mul_div_cancel_left m two_pos] at hfetches
  have hwriting : (s.found c).writing =
      ⟨((s.found c).unit.setBytes (s.controller.drives c.slt).pos
          (le32 (BitVec.ofNat 32 c.length))).moveTo ((s.controller.drives c.slt).pos + 4),
        -((2 * m : ℕ) : ℤ), c.address, s.bus.onInterface BusInterface.resetBusErrorStatus⟩ := by
    have hmtbrc : (s.found c).mtbrc = -((2 * m : ℕ) : ℤ) := by
      rw [← hm]
      exact hcount
    have hword' : BitVec.ofInt 32 (-(s.found c).mtbrc) = BitVec.ofNat 32 c.length := hword
    unfold TapeState.writing
    have hpreamble : (s.controller.drives c.slt).pos + 4 ≤ (s.controller.drives c.slt).mmsz := by
      omega
    rw [hword', TapeUnit.writeUint32_of_le hpreamble, hmtbrc]
    rfl
  obtain ⟨bytes, b', hbytes, hloop⟩ := @TapeState.writeLoop_fetches _ dev m
    ((s.found c).unit.setBytes (s.controller.drives c.slt).pos (le32 (BitVec.ofNat 32 c.length)))
    ((s.controller.drives c.slt).pos + 4) m _ _ hfetches
    (show (s.controller.drives c.slt).pos + 4 + 2 * m ≤ (s.controller.drives c.slt).mmsz by omega)
  have hwrite := TapeState.write_of_not_rejects dev (s := s.found c) (BitVec.le_toInt c.mtbrc)
    (BitVec.toInt_lt (x := c.mtbrc)) hreject
  rw [hwriting, show (-(s.found c).mtbrc).toNat = m + m from hfuel,
    hloop] at hwrite
  have hwrite' : (s.found c).write dev = .ok (TapeState.writeEnd (BitVec.ofInt 32 (-c.mtbrc.toInt))
      ⟨(((s.found c).unit.setBytes (s.controller.drives c.slt).pos
          (le32 (BitVec.ofNat 32 c.length))).setBytes ((s.controller.drives c.slt).pos + 4)
            bytes).moveTo ((s.controller.drives c.slt).pos + 4 + 2 * m), 0,
        c.address + BitVec.ofNat 32 (2 * m), b'⟩) := hwrite
  rw [TapeState.writeEnd_complete rfl rfl] at hwrite'
  simp only at hwrite'
  rw [TapeUnit.writeUint32_moveTo (by
      rw [TapeUnit.mmsz_setBytes, TapeUnit.mmsz_setBytes]
      change (s.controller.drives c.slt).pos + 4 + 2 * m + 4 ≤ (s.controller.drives c.slt).mmsz
      omega), hword,
    TapeUnit.setBytes_setBytes (q := (s.controller.drives c.slt).pos + 4 + 2 * m) _ _
      (by rw [hbytes]),
    TapeUnit.setBytes_setBytes (q := (s.controller.drives c.slt).pos + 4) _ _ rfl] at hwrite'
  refine ⟨_, (h.issue_eq_write dev).trans (congrArg (Except.map (s.left c)) hwrite'),
    .record bytes (hbytes.trans hm.symm) ?_ ?_ ?_⟩
  · rw [TapeSystem.drives_left]
    exact bytesAt_store _
  · intro i hi
    rw [TapeSystem.drives_left]
    exact store_of_notMem (Or.inl hi)
  · rw [TapeSystem.drives_left]
    refine (TapeUnit.pos_moveTo ?_).trans ?_
    · change (s.controller.drives c.slt).pos + 4 + 2 * m + 4 ≤ (s.controller.drives c.slt).mmsz
      omega
    · omega

/-- A positive count of words leaves neither. -/
theorem not_recordOrNothing_of_positive (hissue : s.issue dev c = .ok s')
    (hreject : ¬(s.controller.drives c.slt).RejectsWrite c.mtbrc.toInt)
    (hcount : 0 ≤ c.mtbrc.toInt) (hupper : c.mtbrc.toInt < 2 ^ 15) (hlength : 2 ^ 15 < c.length) :
    ¬RecordOrNothing c.slt c.length s s' := by
  have hpreamble : TapeUnit.Ahead 4 (s.found c).unit (s.found c).writing.unit :=
    TapeUnit.ahead_writeUint32 _ _
  rw [h.issue_eq_write dev, TapeState.write_of_positive dev (s := s.found c) hreject hcount hupper]
    at hissue
  cases hissue
  rintro (⟨hrejected, -, -⟩ | ⟨-, -, -, -, hrecord⟩)
  · have hilc : (s.found c).writing.unit.mts.ilc = false := by
      rw [hpreamble.mts]
      rfl
    exact Bool.false_ne_true (hilc.symm.trans hrejected)
  · rw [TapeSystem.drives_left] at hrecord
    have hend := hpreamble.pos.symm.trans hrecord
    have hfound : (s.found c).unit.drive.pos = (s.controller.drives c.slt).pos := rfl
    omega

/-- A negative count leaves a record only where all words are read and have room. -/
theorem writesWhole_of_recordOrNothing (hissue : s.issue dev c = .ok s')
    (hreject : ¬(s.controller.drives c.slt).RejectsWrite c.mtbrc.toInt)
    (hcount : c.mtbrc.toInt < 0) (hlength : c.mtbrc.toInt = -(c.length : ℤ))
    (hresult : RecordOrNothing c.slt c.length s s') : WritesWhole dev c s := by
  obtain ⟨-, -, hwords⟩ := not_or.mp hreject |>.imp_right not_or.mp
  obtain ⟨m, hm⟩ : ∃ m, c.length = 2 * m := ⟨c.length / 2, by omega⟩
  rw [h.issue_eq_write dev] at hissue
  cases hwrite : (s.found c).write dev with
  | error e =>
    rw [hwrite] at hissue
    cases hissue
  | ok t =>
    rw [hwrite] at hissue
    cases hissue
    obtain ⟨hilc, hwhole⟩ := TapeState.write_fetches hreject (BitVec.le_toInt c.mtbrc)
      (show c.mtbrc.toInt = -((2 * m : ℕ) : ℤ) by rw [hlength, hm]) rfl hwrite
    rcases hresult with ⟨hrejected, -, -⟩ | ⟨-, -, -, -, hrecord⟩
    · exact absurd (hilc.symm.trans hrejected) Bool.false_ne_true
    · rw [TapeSystem.drives_left, hm] at hrecord
      obtain ⟨hfetches, hroom⟩ := hwhole hrecord
      refine ⟨hcount, ?_, ?_⟩
      · rw [hm, Nat.mul_div_cancel_left m two_pos]
        exact hfetches
      · rw [hm]
        exact hroom

end WriteIssued

/-- WRITE leaves a whole record or nothing if and only if it rejects the count, or the count is
negative, all its words can be read and the image has room. -/
theorem tape_write_record (dev : BusDevices δ) {c : TapeCommand} {s : TapeSystem δ}
    (h : WriteIssued c s) :
    (∃ s', s.issue dev c = .ok s' ∧ RecordOrNothing c.slt c.length s s') ↔
      (s.controller.drives c.slt).RejectsWrite c.mtbrc.toInt ∨ WritesWhole dev c s := by
  constructor
  · rintro ⟨s', hissue, hresult⟩
    by_cases hreject : (s.controller.drives c.slt).RejectsWrite c.mtbrc.toInt
    · exact Or.inl hreject
    obtain ⟨hcount, hlength, -⟩ | ⟨hcount, hupper, hlength⟩ := c.length_cases
    · exact Or.inr (h.writesWhole_of_recordOrNothing hissue hreject hcount hlength hresult)
    · exact absurd hresult
        (h.not_recordOrNothing_of_positive hissue hreject hcount hupper hlength)
  · intro hcondition
    by_cases hreject : (s.controller.drives c.slt).RejectsWrite c.mtbrc.toInt
    · exact h.issue_rejected hreject
    · exact h.issue_whole (hcondition.resolve_left hreject) hreject

/-- Two words of the first page are written on a blank tape. -/
theorem tape_write_record_two_words :
    ∃ s', TapeHandshake.blankTapes.issue bareDevices ⟨0xFFF8, 0o140000, 0o5⟩ = .ok s' ∧
      RecordOrNothing 0 8 TapeHandshake.blankTapes s' := by
  have hissued : WriteIssued ⟨0xFFF8, 0o140000, 0o5⟩ TapeHandshake.blankTapes :=
    ⟨by decide, by decide, rfl, rfl⟩
  have hfetches : Fetches bareDevices 4 0o140000
      (TapeHandshake.blankTapes.bus.onInterface BusInterface.resetBusErrorStatus) :=
    @TapeBuffer.fetches _ 2 _ _ (tapeBuffer_firstPage.congr rfl rfl) rfl bareDevices
  exact (tape_write_record bareDevices hissued).mpr (Or.inr ⟨by decide, hfetches, by decide⟩)

/-- Eight bytes from address 0 of the Unibus, where nothing responds: the preamble is written. -/
theorem not_tape_write_record :
    ¬∃ s', TapeHandshake.blankTapes.issue bareDevices ⟨0xFFF8, 0, 0o5⟩ = .ok s' ∧
      RecordOrNothing 0 8 TapeHandshake.blankTapes s' := by
  rintro ⟨s', hissue, hresult⟩
  have hissued : WriteIssued ⟨0xFFF8, 0, 0o5⟩ TapeHandshake.blankTapes :=
    ⟨by decide, by decide, rfl, rfl⟩
  have hreject : ¬(TapeHandshake.blankTapes.controller.drives 0).RejectsWrite (-8) := by decide
  obtain ⟨-, ⟨data, b', haccess, hquiet, -⟩, -⟩ :=
    hissued.writesWhole_of_recordOrNothing hissue hreject (by decide) rfl hresult
  cases haccess
  exact Bool.false_ne_true hquiet.symm

end Usim
