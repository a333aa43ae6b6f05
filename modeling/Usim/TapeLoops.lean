import Usim.Lib.Loop
import Usim.TapeTransfers

/-!
# The loops of the tape controller

READ, WRITE, SPACE FORWARD and SPACE REVERSE, turn by turn, as the source has their
loops: without a bound on the turns. The loops are left, and the commands have their
results.
-/

namespace Usim

open Lib

variable {δ : Type}

/-! ### The tape under the loops -/

/-- The tape was moved on by `k` bytes, or to its end, and nothing before it was written. -/
structure TapeUnit.Ahead (k : ℕ) (t t' : TapeUnit) : Prop where
  mmsz : t'.drive.mmsz = t.drive.mmsz
  eotpos : t'.drive.eotpos = t.drive.eotpos
  pos : t'.drive.pos = min (t.drive.pos + k) t.drive.mmsz
  before : ∀ i < t.drive.pos, t'.drive.mm i = t.drive.mm i
  mts : t'.mts = { t.mts with eot := t'.mts.eot }

namespace TapeUnit

variable {t t' t'' : TapeUnit} {j k : ℕ}

/-- The tape stays. -/
theorem Ahead.refl (t : TapeUnit) : Ahead 0 t t :=
  ⟨rfl, rfl, (min_eq_left t.drive.pos_le).symm, fun _ _ => rfl, rfl⟩

/-- The tape is moved on twice. -/
theorem Ahead.trans (h : Ahead j t t') (h' : Ahead k t' t'') : Ahead (j + k) t t'' where
  mmsz := h'.mmsz.trans h.mmsz
  eotpos := h'.eotpos.trans h.eotpos
  pos := by
    rw [h'.pos, h.pos, h.mmsz]
    omega
  before := fun i hi => by
    have hle := t.drive.pos_le
    have hpos := h.pos
    rw [h'.before i (by omega), h.before i hi]
  mts := by
    rw [h'.mts, h.mts]

/-- A byte is read, or there is none. -/
theorem ahead_readUint8 (t : TapeUnit) : Ahead 1 t t.readUint8.2 := by
  have hle := t.drive.pos_le
  by_cases hend : t.drive.pos = t.drive.mmsz
  · rw [readUint8_of_eq hend]
    have hpos : t.drive.pos = min (t.drive.pos + 1) t.drive.mmsz := by omega
    exact ⟨rfl, rfl, hpos, fun _ _ => rfl, rfl⟩
  · rw [readUint8_of_lt (by omega)]
    exact ⟨rfl, rfl, rfl, fun _ _ => rfl, rfl⟩

/-- A byte is written, or there is no room. -/
theorem ahead_writeUint8 (t : TapeUnit) (v : Byte) : Ahead 1 t (t.writeUint8 v).2 := by
  have hle := t.drive.pos_le
  by_cases hend : t.drive.pos = t.drive.mmsz
  · have hfull : t.writeUint8 v = (false, t) := if_pos hend
    rw [hfull]
    have hpos : t.drive.pos = min (t.drive.pos + 1) t.drive.mmsz := by omega
    exact ⟨rfl, rfl, hpos, fun _ _ => rfl, rfl⟩
  · rw [writeUint8_of_lt (by omega)]
    refine ⟨rfl, rfl, rfl, fun i hi => ?_, rfl⟩
    exact store_of_notMem (Or.inl hi)

/-- Where there is no byte to read, the tape stays. -/
theorem readUint8_of_none {t t' : TapeUnit} (h : t.readUint8 = (none, t')) :
    t'.readUint8.2 = t' := by
  unfold readUint8 at h
  split at h
  · rename_i hend
    cases h
    exact congrArg Prod.snd (if_pos hend)
  · cases h

/-- Reading a word moves the tape as four bytes do. -/
theorem readUint32_eq (t : TapeUnit) :
    t.readUint32.2 = t.readUint8.2.readUint8.2.readUint8.2.readUint8.2 := by
  unfold readUint32
  split
  · rename_i h
    simp only [h, readUint8_of_none h]
  · rename_i h
    simp only [h]
    split
    · rename_i h
      simp only [h, readUint8_of_none h]
    · rename_i h
      simp only [h]
      split
      · rename_i h
        simp only [h, readUint8_of_none h]
      · rename_i h
        simp only [h]
        split <;> (rename_i h; rw [h])

/-- A word is read, or the tape moves to its end. -/
theorem ahead_readUint32 (t : TapeUnit) : Ahead 4 t t.readUint32.2 := by
  rw [readUint32_eq]
  exact (((ahead_readUint8 t).trans (ahead_readUint8 _)).trans (ahead_readUint8 _)).trans
    (ahead_readUint8 _)

/-- Reading leaves the bytes. -/
@[simp] theorem mm_readUint8 (t : TapeUnit) : t.readUint8.2.drive.mm = t.drive.mm := by
  unfold readUint8
  split <;> rfl

end TapeUnit

/-! ### Turns -/

namespace TapeState

variable (dev : BusDevices δ)

/-- A turn of the loop of `tape_controller_read`. -/
def readTurn (x : Word × TapeState δ) :
    (Word × TapeState δ) ⊕ Except ErrCall (Word × TapeState δ) :=
  let s := x.2
  if s.mtbrc < 0 ∧ x.1 > 0 then
    let r1 := s.unit.readUint8
    let r2 := r1.2.readUint8
    let recordLength := x.1 - 1 - 1
    let data : HalfWord := ((r2.1.getD 0).setWidth 16 <<< 8) ||| (r1.1.getD 0).setWidth 16
    match busAdaptorUnibusRw dev true s.mtcma data s.bus with
    | .error e => .inr (.error e)
    | .ok (_, bus) =>
      let s := { s with unit := r2.2, mtbrc := s.mtbrc + 1 + 1, bus := bus }
      if busError bus then .inr (.ok (recordLength, s.onMts ({ · with nxm := true })))
      else .inl (recordLength, { s with mtcma := s.mtcma + 2 })
  else .inr (.ok x)

/-- A turn of the loop of `tape_controller_write`. -/
def writeTurn (s : TapeState δ) : TapeState δ ⊕ Except ErrCall (TapeState δ) :=
  if s.mtbrc < 0 then
    match busAdaptorUnibusRw dev false s.mtcma 0 s.bus with
    | .error e => .inr (.error e)
    | .ok (data, bus) =>
      let s := { s with bus := bus }
      if busError bus then .inr (.ok (s.onMts ({ · with nxm := true })))
      else
        let v1 : Byte := (data &&& 0xFF).setWidth 8
        let v2 : Byte := ((data >>> 8) &&& 0xFF).setWidth 8
        .inl { s with
          unit := ((s.unit.writeUint8 v1).2.writeUint8 v2).2
          mtbrc := s.mtbrc + 1 + 1
          mtcma := s.mtcma + 2 }
  else .inr (.ok s)

/-- A turn of a loop over records, while `mtbrc` is negative. -/
def recordsTurn (space : TapeUnit → TapeUnit) (stops : TapeUnit → Bool) (s : TapeState δ) :
    TapeState δ ⊕ TapeState δ :=
  if s.mtbrc < 0 then
    let unit := space s.unit
    if stops unit then .inr { s with unit := unit }
    else .inl { s with unit := unit, mtbrc := s.mtbrc + 1 }
  else .inr s

/-- A turn of a loop over a file. -/
def fileTurn (space : TapeUnit → TapeUnit) (stops : TapeUnit → Bool) (s : TapeState δ) :
    TapeState δ ⊕ TapeState δ :=
  if stops s.unit then .inr s else .inl { s with unit := space s.unit }

end TapeState

/-- What stops SPACE FORWARD. -/
def TapeUnit.stopsForward (t : TapeUnit) : Bool := t.mts.eof || t.mts.eot

/-- The next half word. -/
theorem halfAddress_succ (uaddr : Word) (i : ℕ) :
    uaddr + 2 + BitVec.ofNat 32 (2 * i) = uaddr + BitVec.ofNat 32 (2 * (i + 1)) := by
  rw [Nat.mul_add, BitVec.add_assoc, BitVec.ofNat_add, BitVec.add_comm (BitVec.ofNat 32 (2 * i))]
  rfl

/-- What stops SPACE REVERSE. -/
def TapeUnit.stopsReverse (t : TapeUnit) : Bool := t.mts.eof || t.drive.bot

namespace TapeState

/-! ### What a turn can do -/

/-- The half word that a turn of READ stores. -/
def readData (s : TapeState δ) : HalfWord :=
  ((s.unit.readUint8.2.readUint8.1.getD 0).setWidth 16 <<< 8) |||
    (s.unit.readUint8.1.getD 0).setWidth 16

/-- The cases of a turn of READ. -/
inductive ReadTurnCases (dev : BusDevices δ) (l : Word) (s : TapeState δ) : Prop
  /-- The loop is over. -/
  | leaves (ended : ¬(s.mtbrc < 0 ∧ l > 0)) (turn : readTurn dev (l, s) = .inr (.ok (l, s)))
  /-- A device ended the program. -/
  | failed (goes : s.mtbrc < 0 ∧ l > 0) (e : ErrCall)
    (access : busAdaptorUnibusRw dev true s.mtcma s.readData s.bus = .error e)
    (turn : readTurn dev (l, s) = .inr (.error e))
  /-- The half word was not stored. -/
  | nxm (goes : s.mtbrc < 0 ∧ l > 0) (pv : HalfWord) (bus : BusGlobals δ)
    (access : busAdaptorUnibusRw dev true s.mtcma s.readData s.bus = .ok (pv, bus))
    (error : busError bus = true)
    (turn : readTurn dev (l, s) = .inr (.ok (l - 1 - 1,
      { unit := s.unit.readUint8.2.readUint8.2.onMts ({ · with nxm := true })
        mtbrc := s.mtbrc + 1 + 1, mtcma := s.mtcma, bus := bus })))
  /-- The loop goes on. -/
  | next (goes : s.mtbrc < 0 ∧ l > 0) (pv : HalfWord) (bus : BusGlobals δ)
    (access : busAdaptorUnibusRw dev true s.mtcma s.readData s.bus = .ok (pv, bus))
    (quiet : busError bus = false)
    (turn : readTurn dev (l, s) = .inl (l - 1 - 1,
      { unit := s.unit.readUint8.2.readUint8.2
        mtbrc := s.mtbrc + 1 + 1, mtcma := s.mtcma + 2, bus := bus }))

/-- What a turn of READ can do. -/
theorem readTurnCases (dev : BusDevices δ) (l : Word) (s : TapeState δ) :
    ReadTurnCases dev l s := by
  by_cases hgoes : s.mtbrc < 0 ∧ l > 0
  · cases haccess : busAdaptorUnibusRw dev true s.mtcma s.readData s.bus with
    | error e =>
      refine .failed hgoes e haccess ?_
      simp only [readData] at haccess
      simp only [readTurn, if_pos hgoes, haccess]
    | ok r =>
      obtain ⟨pv, bus⟩ := r
      have haccess' := haccess
      simp only [readData] at haccess'
      cases hbus : busError bus with
      | true =>
        refine .nxm hgoes pv bus haccess hbus ?_
        simp only [readTurn, if_pos hgoes, haccess', hbus, if_true]
        rfl
      | false =>
        refine .next hgoes pv bus haccess hbus ?_
        simp only [readTurn, if_pos hgoes, haccess', hbus, Bool.false_eq_true, if_false]
  · exact .leaves hgoes (if_neg hgoes)

/-- The cases of a turn of WRITE. -/
inductive WriteTurnCases (dev : BusDevices δ) (s : TapeState δ) : Prop
  /-- The loop is over. -/
  | leaves (ended : ¬s.mtbrc < 0) (turn : writeTurn dev s = .inr (.ok s))
  /-- A device ended the program. -/
  | failed (goes : s.mtbrc < 0) (e : ErrCall)
    (access : busAdaptorUnibusRw dev false s.mtcma 0 s.bus = .error e)
    (turn : writeTurn dev s = .inr (.error e))
  /-- The half word was not read. -/
  | nxm (goes : s.mtbrc < 0) (data : HalfWord) (bus : BusGlobals δ)
    (access : busAdaptorUnibusRw dev false s.mtcma 0 s.bus = .ok (data, bus))
    (error : busError bus = true)
    (turn : writeTurn dev s = .inr (.ok ({ s with bus := bus }.onMts ({ · with nxm := true }))))
  /-- The loop goes on. -/
  | next (goes : s.mtbrc < 0) (data : HalfWord) (bus : BusGlobals δ)
    (access : busAdaptorUnibusRw dev false s.mtcma 0 s.bus = .ok (data, bus))
    (quiet : busError bus = false)
    (turn : writeTurn dev s = .inl
      { unit := ((s.unit.writeUint8 ((data &&& 0xFF).setWidth 8)).2.writeUint8
          (((data >>> 8) &&& 0xFF).setWidth 8)).2
        mtbrc := s.mtbrc + 1 + 1, mtcma := s.mtcma + 2, bus := bus })

/-- What a turn of WRITE can do. -/
theorem writeTurnCases (dev : BusDevices δ) (s : TapeState δ) : WriteTurnCases dev s := by
  by_cases hgoes : s.mtbrc < 0
  · cases haccess : busAdaptorUnibusRw dev false s.mtcma 0 s.bus with
    | error e =>
      refine .failed hgoes e haccess ?_
      simp only [writeTurn, if_pos hgoes, haccess]
    | ok r =>
      obtain ⟨data, bus⟩ := r
      cases hbus : busError bus with
      | true =>
        refine .nxm hgoes data bus haccess hbus ?_
        simp only [writeTurn, if_pos hgoes, haccess, hbus, if_true]
      | false =>
        refine .next hgoes data bus haccess hbus ?_
        simp only [writeTurn, if_pos hgoes, haccess, hbus, Bool.false_eq_true, if_false]
  · exact .leaves hgoes (if_neg hgoes)

/-! ### The loops -/

variable {dev : BusDevices δ} {fuel n : ℕ} {s s' : TapeState δ} {l : Word}

/-- The loop of READ by its first turn. -/
theorem readLoop_succ (dev : BusDevices δ) (fuel : ℕ) (l : Word) (s : TapeState δ) :
    readLoop dev (fuel + 1) l s =
      match readTurn dev (l, s) with
      | .inl x => readLoop dev fuel x.1 x.2
      | .inr r => r := by
  cases readTurnCases dev l s with
  | leaves hover hturn =>
    rw [hturn]
    exact if_neg hover
  | failed hgoes e haccess hturn =>
    simp only [readData] at haccess
    rw [hturn, readLoop, if_pos hgoes]
    simp only [haccess]
  | nxm hgoes pv bus haccess herror hturn =>
    simp only [readData] at haccess
    rw [hturn, readLoop, if_pos hgoes]
    simp only [haccess, herror, if_true]
    rfl
  | next hgoes pv bus haccess hquiet hturn =>
    simp only [readData] at haccess
    rw [hturn, readLoop, if_pos hgoes]
    simp only [haccess, hquiet, Bool.false_eq_true, if_false]

/-- The loop of WRITE by its first turn. -/
theorem writeLoop_succ (dev : BusDevices δ) (fuel : ℕ) (s : TapeState δ) :
    writeLoop dev (fuel + 1) s =
      match writeTurn dev s with
      | .inl s' => writeLoop dev fuel s'
      | .inr r => r := by
  cases writeTurnCases dev s with
  | leaves hover hturn =>
    rw [hturn]
    exact if_neg hover
  | failed hgoes e haccess hturn =>
    rw [hturn, writeLoop, if_pos hgoes]
    simp only [haccess]
  | nxm hgoes data bus haccess herror hturn =>
    rw [hturn, writeLoop, if_pos hgoes]
    simp only [haccess, herror, if_true]
  | next hgoes data bus haccess hquiet hturn =>
    rw [hturn, writeLoop, if_pos hgoes]
    simp only [haccess, hquiet, Bool.false_eq_true, if_false]

/-- A turn of READ that goes on has counted two bytes. -/
theorem mtbrc_readTurn {x x' : Word × TapeState δ} (h : readTurn dev x = .inl x') :
    x.2.mtbrc < 0 ∧ x'.2.mtbrc = x.2.mtbrc + 1 + 1 := by
  cases readTurnCases dev x.1 x.2 with
  | leaves hover hturn => cases hturn.symm.trans h
  | failed hgoes e haccess hturn => cases hturn.symm.trans h
  | nxm hgoes pv bus haccess herror hturn => cases hturn.symm.trans h
  | next hgoes pv bus haccess hquiet hturn =>
    cases hturn.symm.trans h
    exact ⟨hgoes.1, rfl⟩

/-- A turn of WRITE that goes on has counted two bytes. -/
theorem mtbrc_writeTurn (h : writeTurn dev s = .inl s') :
    s.mtbrc < 0 ∧ s'.mtbrc = s.mtbrc + 1 + 1 := by
  cases writeTurnCases dev s with
  | leaves hover hturn => cases hturn.symm.trans h
  | failed hgoes e haccess hturn => cases hturn.symm.trans h
  | nxm hgoes data bus haccess herror hturn => cases hturn.symm.trans h
  | next hgoes data bus haccess hquiet hturn =>
    cases hturn.symm.trans h
    exact ⟨hgoes, rfl⟩

/-- The loop of READ has the result of its turns. -/
theorem readLoop_of_endsAfter {x : Word × TapeState δ}
    {r : Except ErrCall (Word × TapeState δ)} (h : EndsAfter (readTurn dev) n x r)
    (hfuel : (-x.2.mtbrc).toNat ≤ fuel) : readLoop dev fuel x.1 x.2 = r := by
  induction h generalizing fuel with
  | @left x r h =>
    cases fuel with
    | zero =>
      have hover : ¬(x.2.mtbrc < 0 ∧ x.1 > 0) := fun hgoes => by omega
      have hturn : readTurn dev x = .inr (.ok x) := if_neg hover
      exact Sum.inr.inj (hturn.symm.trans h)
    | succ fuel => rw [readLoop_succ, h]
  | @next n x x' r h rest ih =>
    obtain ⟨hgoes, hcount⟩ := mtbrc_readTurn h
    obtain ⟨fuel, rfl⟩ : ∃ k, fuel = k + 1 := ⟨fuel - 1, by omega⟩
    rw [readLoop_succ, h]
    exact ih (by omega)

/-- The loop of WRITE has the result of its turns. -/
theorem writeLoop_of_endsAfter {r : Except ErrCall (TapeState δ)}
    (h : EndsAfter (writeTurn dev) n s r) (hfuel : (-s.mtbrc).toNat ≤ fuel) :
    writeLoop dev fuel s = r := by
  induction h generalizing fuel with
  | @left s r h =>
    cases fuel with
    | zero =>
      have hturn : writeTurn dev s = .inr (.ok s) := if_neg (by omega)
      exact Sum.inr.inj (hturn.symm.trans h)
    | succ fuel => rw [writeLoop_succ, h]
  | @next n s s' r h rest ih =>
    obtain ⟨hgoes, hcount⟩ := mtbrc_writeTurn h
    obtain ⟨fuel, rfl⟩ : ∃ k, fuel = k + 1 := ⟨fuel - 1, by omega⟩
    rw [writeLoop_succ, h]
    exact ih (by omega)

/-- The loop of READ is left after at most one turn for each byte asked for. -/
theorem exists_endsAfter_readTurn (dev : BusDevices δ) (l : Word) (s : TapeState δ) :
    ∃ n ≤ (-s.mtbrc).toNat, EndsAfter (readTurn dev) n (l, s)
      (readLoop dev (-s.mtbrc).toNat l s) := by
  have hmeasure (x x' : Word × TapeState δ) (_ : True) (hturn : readTurn dev x = .inl x') :
      True ∧ (-x'.2.mtbrc).toNat < (-x.2.mtbrc).toNat := by
    obtain ⟨hgoes, hcount⟩ := mtbrc_readTurn hturn
    exact ⟨trivial, by omega⟩
  obtain ⟨n, hn, r, h⟩ := exists_endsAfter (s := (l, s)) hmeasure trivial
  rw [readLoop_of_endsAfter (x := (l, s)) h le_rfl]
  exact ⟨n, hn, h⟩

/-- The loop of WRITE is left after at most one turn for each byte asked for. -/
theorem exists_endsAfter_writeTurn (dev : BusDevices δ) (s : TapeState δ) :
    ∃ n ≤ (-s.mtbrc).toNat, EndsAfter (writeTurn dev) n s
      (writeLoop dev (-s.mtbrc).toNat s) := by
  have hmeasure (s s' : TapeState δ) (_ : True) (hturn : writeTurn dev s = .inl s') :
      True ∧ (-s'.mtbrc).toNat < (-s.mtbrc).toNat := by
    obtain ⟨hgoes, hcount⟩ := mtbrc_writeTurn hturn
    exact ⟨trivial, by omega⟩
  obtain ⟨n, hn, r, h⟩ := exists_endsAfter hmeasure trivial
  rw [writeLoop_of_endsAfter h le_rfl]
  exact ⟨n, hn, h⟩

/-- READ has taken `k` half words off the tape. -/
structure ReadOn (k : ℕ) (l : Word) (s : TapeState δ) (x' : Word × TapeState δ) : Prop where
  length : x'.1 = l - BitVec.ofNat 32 (2 * k)
  mtbrc : x'.2.mtbrc = s.mtbrc + (2 * k : ℕ)
  mmsz : x'.2.unit.drive.mmsz = s.unit.drive.mmsz
  mm : x'.2.unit.drive.mm = s.unit.drive.mm
  pos : x'.2.unit.drive.pos = min (s.unit.drive.pos + 2 * k) s.unit.drive.mmsz

/-- One half word more. -/
theorem ReadOn.next {k : ℕ} {x' : Word × TapeState δ} (h : ReadOn k (l - 1 - 1) s' x')
    (hunit : s'.unit.drive = s.unit.readUint8.2.readUint8.2.drive)
    (hcount : s'.mtbrc = s.mtbrc + 1 + 1) : ReadOn (k + 1) l s x' := by
  have hahead := (TapeUnit.ahead_readUint8 s.unit).trans (TapeUnit.ahead_readUint8 _)
  refine ⟨?_, ?_, ?_, ?_, ?_⟩
  · have htwo : l - BitVec.ofNat 32 (2 * (k + 1)) = l - 1 - 1 - BitVec.ofNat 32 (2 * k) := by
      rw [BitVec.sub_sub, BitVec.sub_sub, ← BitVec.add_assoc, Nat.mul_add, BitVec.ofNat_add,
        BitVec.add_comm]
      rfl
    rw [h.length, htwo]
  · have hmtbrc := h.mtbrc
    omega
  · rw [h.mmsz, hunit, hahead.mmsz]
  · rw [h.mm, hunit, TapeUnit.mm_readUint8, TapeUnit.mm_readUint8]
  · have hpos := h.pos
    rw [hunit, hahead.pos, hahead.mmsz] at hpos
    omega

/-- Nothing is taken. -/
theorem ReadOn.zero (l : Word) (s : TapeState δ) : ReadOn 0 l s (l, s) where
  length := (BitVec.sub_zero l).symm
  mtbrc := (Int.add_zero _).symm
  mmsz := rfl
  mm := rfl
  pos := (min_eq_left s.unit.drive.pos_le).symm

/-- The loop of READ takes whole half words. -/
theorem readOn_of_endsAfter {x x' : Word × TapeState δ}
    (h : EndsAfter (readTurn dev) n x (.ok x')) : ∃ k, ReadOn k x.1 x.2 x' := by
  generalize hr : Except.ok x' = r at h
  induction h with
  | @left x r h =>
    cases hr
    cases readTurnCases dev x.1 x.2 with
    | leaves hover hturn =>
      cases hturn.symm.trans h
      exact ⟨0, .zero _ _⟩
    | failed hgoes e haccess hturn => cases hturn.symm.trans h
    | nxm hgoes pv bus haccess herror hturn =>
      cases hturn.symm.trans h
      exact ⟨1, .next (.zero _ _) rfl rfl⟩
    | next hgoes pv bus haccess hquiet hturn => cases hturn.symm.trans h
  | @next n x s' r h rest ih =>
    obtain ⟨k, hk⟩ := ih hr
    cases readTurnCases dev x.1 x.2 with
    | leaves hover hturn => cases hturn.symm.trans h
    | failed hgoes e haccess hturn => cases hturn.symm.trans h
    | nxm hgoes pv bus haccess herror hturn => cases hturn.symm.trans h
    | next hgoes pv bus haccess hquiet hturn =>
      cases hturn.symm.trans h
      exact ⟨k + 1, hk.next rfl rfl⟩

end TapeState

end Usim
