import Usim.TapeRead
import Usim.TapeTermination

/-!
# Values that were not read

The readers of the drive tell whether the image had the byte, and no caller looks at that.
Which of the values that READ, SPACE FORWARD and SPACE REVERSE act on were read, by where
the tape is on its image.
-/

namespace Usim

open Lib

variable {δ : Type}

/-! ### The values -/

namespace TapeUnit

/-- Both bytes of a half word are read. -/
def BytesRead (t : TapeUnit) : Prop :=
  t.readUint8.1.isSome = true ∧ t.readUint8.2.readUint8.1.isSome = true

/-- The preamble that SPACE FORWARD seeks by and the word that it looks for a mark in are read. -/
def ForwardReads (t : TapeUnit) : Prop :=
  t.readUint32.1.isSome = true ∧
    (t.readUint32.2.seek ((t.readUint32.1.getD 0 + 4).toNat) .cur).readUint32.1.isSome = true

/-- The postamble that SPACE REVERSE looks for a mark in is read, and the one before the mark. -/
def ReverseReads (stopAtFilemark : Bool) (t : TapeUnit) : Prop :=
  (t.seek (-4) .cur).readUint32.1.isSome = true ∧
    ((t.seek (-4) .cur).readUint32.1.getD 0 = tapeFileMark → stopAtFilemark = false →
      ((t.seek (-4) .cur).readUint32.2.seek (-8) .cur).readUint32.1.isSome = true)

end TapeUnit

namespace TapeState

/-- Whatever READ acts on was read: the preamble, the bytes that it stores in each turn of its
loop, and the word behind the record. -/
structure ReadActsOnRead (dev : BusDevices δ) (s : TapeState δ) : Prop where
  preamble : s.unit.readUint32.1.isSome = true
  data : s.preamble ≠ tapeFileMark → ∀ l s₁,
    Visits (readTurn dev) (s.preamble, s.reading) (l, s₁) → s₁.mtbrc < 0 ∧ l > 0 →
      s₁.unit.BytesRead
  look : s.preamble ≠ tapeFileMark → ∀ n l s₁,
    EndsAfter (readTurn dev) n (s.preamble, s.reading) (.ok (l, s₁)) →
      s₁.unit.mts.nxm = false → ¬l > 0 → s₁.unit.readUint32.2.readUint32.1.isSome = true

/-- Whatever SPACE FORWARD acts on was read, in each turn of its loop. -/
structure ForwardActsOnRead (s : TapeState δ) : Prop where
  file : s.unit.mts.eot = false → s.mtbrc = 0 → ∀ s₁,
    Visits (fileTurn TapeUnit.spaceForward TapeUnit.stopsForward) s s₁ →
      s₁.unit.stopsForward = false → s₁.unit.ForwardReads
  records : s.unit.mts.eot = false → s.mtbrc ≠ 0 → ∀ s₁,
    Visits (recordsTurn TapeUnit.spaceForward TapeUnit.stopsForward) s s₁ → s₁.mtbrc < 0 →
      s₁.unit.ForwardReads

/-- Whatever SPACE REVERSE acts on was read, over the first record and in each turn of its loop. -/
structure ReverseActsOnRead (s : TapeState δ) : Prop where
  first : s.unit.drive.bot = false → s.unit.ReverseReads false
  file : s.unit.drive.bot = false → s.mtbrc = 0 → ∀ s₁,
    Visits (fileTurn (TapeUnit.spaceReverse true) TapeUnit.stopsReverse)
      { s with unit := s.unit.spaceReverse false } s₁ →
        s₁.unit.stopsReverse = false → s₁.unit.ReverseReads true
  records : s.unit.drive.bot = false → s.mtbrc ≠ 0 → (s.unit.spaceReverse false).drive.bot = false →
    ∀ s₁, Visits (recordsTurn (TapeUnit.spaceReverse true) TapeUnit.stopsReverse)
      { s with unit := s.unit.spaceReverse false, mtbrc := Int.bmod (s.mtbrc + 1) (2 ^ 16) } s₁ →
        s₁.mtbrc < 0 → s₁.unit.ReverseReads true

/-- Whatever a command acts on was read. The other commands read nothing. -/
def ActsOnRead (dev : BusDevices δ) (function : Fin 8) (s : TapeState δ) : Prop :=
  match function with
  | 1 => s.ReadActsOnRead dev
  | 4 => s.ForwardActsOnRead
  | 5 => s.ReverseActsOnRead
  | _ => True

end TapeState

/-! ### The image -/

/-- `k` half words of the image can be stored from an address on, with this bus afterwards. -/
inductive StoresTo (dev : BusDevices δ) (mm : Medium) (q : ℕ) (uaddr : Word) (b : BusGlobals δ) :
    ℕ → BusGlobals δ → Prop
  /-- Nothing is stored. -/
  | nil : StoresTo dev mm q uaddr b 0 b
  /-- One half word more. -/
  | next {k : ℕ} {b' b'' : BusGlobals δ} {pv : HalfWord} (stored : StoresTo dev mm q uaddr b k b')
    (access : busAdaptorUnibusRw dev true (uaddr + BitVec.ofNat 32 (2 * k))
      (mm (q + 2 * k + 1) ++ mm (q + 2 * k)) b' = .ok (pv, b''))
    (quiet : TapeState.busError b'' = false) : StoresTo dev mm q uaddr b (k + 1) b''

/-- The records that SPACE FORWARD passes from a position on, `n` at most, lie on the image with
their lengths, and a word behind each. -/
def ForwardInside (mm : Medium) (mmsz : ℕ) (eotpos : ℤ) : ℕ → ℕ → Prop
  | 0, _ => True
  | n + 1, pos =>
    let q := min (pos + 4 + (wordAt mm pos + 4).toNat) mmsz
    pos + 4 ≤ mmsz ∧ q + 4 ≤ mmsz ∧
      (wordAt mm q ≠ tapeFileMark → (q : ℤ) < eotpos → ForwardInside mm mmsz eotpos n q)

/-- The records ahead of the tape, `n` at most, lie on the image. -/
def TapeUnit.ForwardAhead (n : ℕ) (t : TapeUnit) : Prop :=
  ForwardInside t.drive.mm t.drive.mmsz t.drive.eotpos n t.drive.pos

namespace TapeState

/-- The length of the record ahead, as the image has it. -/
def aheadLength (s : TapeState δ) : Word := wordAt s.unit.drive.mm s.unit.drive.pos

/-- A turn of READ comes after `k` turns, if all half words before it are stored: the count is not
exhausted, and neither is the length, which an odd number never is. -/
def TurnAhead (s : TapeState δ) (k : ℕ) : Prop :=
  (2 * k : ℤ) < -s.mtbrc ∧ (s.aheadLength.toNat % 2 = 0 → 2 * k < s.aheadLength.toNat)

/-- What READ takes off the tape lies on the image. -/
structure RecordInside (dev : BusDevices δ) (s : TapeState δ) : Prop where
  preamble : s.unit.drive.pos + 4 ≤ s.unit.drive.mmsz
  data : s.aheadLength ≠ tapeFileMark → ∀ k b', s.TurnAhead k →
    StoresTo dev s.unit.drive.mm (s.unit.drive.pos + 4) s.mtcma
      (s.bus.onInterface BusInterface.resetBusErrorStatus) k b' →
        s.unit.drive.pos + 4 + 2 * k + 2 ≤ s.unit.drive.mmsz
  look : s.aheadLength ≠ tapeFileMark → ∀ k b', s.aheadLength.toNat = 2 * k →
    (∀ j < k, s.TurnAhead j) →
      StoresTo dev s.unit.drive.mm (s.unit.drive.pos + 4) s.mtcma
        (s.bus.onInterface BusInterface.resetBusErrorStatus) k b' →
          s.unit.drive.pos + 4 + 2 * k + 8 ≤ s.unit.drive.mmsz

/-- What a command takes off the tape lies on the image. -/
def Inside (dev : BusDevices δ) (function : Fin 8) (s : TapeState δ) : Prop :=
  match function with
  | 1 => s.RecordInside dev
  | 4 => (s.mtbrc = 0 → ∀ n, s.unit.ForwardAhead n) ∧ s.unit.ForwardAhead (-s.mtbrc).toNat
  | 5 => s.unit.drive.bot = true ∨ 4 ≤ s.unit.drive.mmsz
  | _ => True

end TapeState

/-! ### What is read where -/

namespace TapeUnit

variable {t : TapeUnit} {q : ℕ}

/-- A byte is read inside the image. -/
theorem isSome_readUint8 : t.readUint8.1.isSome = true ↔ t.drive.pos < t.drive.mmsz := by
  have hle := t.drive.pos_le
  constructor
  · intro h
    by_contra hend
    rw [readUint8_of_eq (by omega)] at h
    cases h
  · intro h
    rw [readUint8_of_lt h]
    rfl

/-- A word is read if all four bytes are. -/
theorem isSome_readUint32 : t.readUint32.1.isSome = true ↔ t.drive.pos + 4 ≤ t.drive.mmsz := by
  constructor
  · intro h
    by_contra hend
    rw [(readUint32_short (Nat.lt_of_not_le hend)).1] at h
    cases h
  · intro h
    rw [readUint32_of_le h]
    rfl

/-- Both bytes of a half word are. -/
theorem bytesRead_iff : t.BytesRead ↔ t.drive.pos + 2 ≤ t.drive.mmsz := by
  have hahead := ahead_readUint8 t
  have hpos := hahead.pos
  unfold BytesRead
  rw [isSome_readUint8, isSome_readUint8, hahead.mmsz]
  omega

/-- The second of two words. -/
theorem isSome_readUint32_readUint32 :
    t.readUint32.2.readUint32.1.isSome = true ↔ t.drive.pos + 8 ≤ t.drive.mmsz := by
  have hahead := ahead_readUint32 t
  have hpos := hahead.pos
  rw [isSome_readUint32, hahead.mmsz]
  omega

/-- The two words of SPACE FORWARD. -/
theorem forwardReads_iff
    (hq : q = min (t.drive.pos + 4 + (wordAt t.drive.mm t.drive.pos + 4).toNat) t.drive.mmsz) :
    t.ForwardReads ↔ t.drive.pos + 4 ≤ t.drive.mmsz ∧ q + 4 ≤ t.drive.mmsz := by
  unfold ForwardReads
  rw [isSome_readUint32]
  refine and_congr_right fun h => ?_
  have hseek : (t.moveTo (t.drive.pos + 4)).seek
      ((wordAt t.drive.mm t.drive.pos + 4).toNat) .cur = t.moveTo q := by
    rw [seek_moveTo h, hq, moveTo_min, ← Nat.cast_add, Int.toNat_natCast]
  have hpos : (t.moveTo q).drive.pos = q := pos_moveTo (hq ▸ min_le_right _ _)
  rw [readUint32_of_le h]
  simp only [Option.getD_some]
  rw [hseek, isSome_readUint32, hpos]
  rfl

/-- The words of SPACE REVERSE lie on any image that has a word. -/
theorem reverseReads_of_le (h : 4 ≤ t.drive.mmsz) (stopAtFilemark : Bool) :
    t.ReverseReads stopAtFilemark := by
  have hle := t.drive.pos_le
  have hback (t : TapeUnit) (ht : 4 ≤ t.drive.mmsz) (k : ℕ) (hk : 4 ≤ k) :
      (t.seek (-(k : ℤ)) .cur).readUint32.1.isSome = true := by
    have hpos := t.drive.pos_le
    have hmoved : (t.moveTo (t.drive.pos + -(k : ℤ)).toNat).drive.pos =
        (t.drive.pos + -(k : ℤ)).toNat := pos_moveTo (by omega)
    rw [seek_cur, isSome_readUint32, hmoved, mmsz_moveTo]
    omega
  have hfirst := hback t h 4 le_rfl
  refine ⟨hfirst, fun _ _ => ?_⟩
  have hmmsz : (t.seek (-4) .cur).readUint32.2.drive.mmsz = t.drive.mmsz := by
    rw [(ahead_readUint32 _).mmsz, seek_cur, mmsz_moveTo]
  exact hback _ (by rwa [hmmsz]) 8 (by decide)

/-- On a smaller image no postamble is read. -/
theorem le_of_reverseReads {stopAtFilemark : Bool} (h : t.ReverseReads stopAtFilemark) :
    4 ≤ t.drive.mmsz := by
  have hread := h.1
  rw [isSome_readUint32, seek_cur, mmsz_moveTo] at hread
  exact (Nat.le_add_left 4 _).trans hread

end TapeUnit

/-! ### READ -/

namespace TapeState

variable {dev : BusDevices δ} {s : TapeState δ} {k : ℕ} {b b' : BusGlobals δ}

/-- READ after `k` turns. -/
def readAt (s : TapeState δ) (k : ℕ) (b : BusGlobals δ) : Word × TapeState δ :=
  (s.aheadLength - BitVec.ofNat 32 (2 * k),
    ⟨s.unit.moveTo (s.unit.drive.pos + 4 + 2 * k), s.mtbrc + (2 * k : ℕ),
      s.mtcma + BitVec.ofNat 32 (2 * k), b⟩)

/-- The first `k` half words are stored. -/
def Stores (dev : BusDevices δ) (s : TapeState δ) (k : ℕ) (b : BusGlobals δ) : Prop :=
  StoresTo dev s.unit.drive.mm (s.unit.drive.pos + 4) s.mtcma
    (s.bus.onInterface BusInterface.resetBusErrorStatus) k b

/-- READ before its loop. -/
theorem reading_eq (h : s.unit.drive.pos + 4 ≤ s.unit.drive.mmsz) :
    s.preamble = s.aheadLength ∧ (s.aheadLength, s.reading) =
      s.readAt 0 (s.bus.onInterface BusInterface.resetBusErrorStatus) := by
  have hread := TapeUnit.readUint32_of_le h
  unfold preamble reading readAt
  rw [hread]
  refine ⟨rfl, ?_⟩
  rw [Nat.mul_zero, BitVec.sub_zero, BitVec.add_zero, Nat.cast_zero, Int.add_zero]

/-- What is left of the length after the turns that the count allows. -/
theorem length_readAt (hlower : -2 ^ 15 ≤ s.mtbrc) (hk : ∀ j < k, s.TurnAhead j) :
    (s.readAt k b).1 > 0 ↔ s.aheadLength.toNat ≠ 2 * k := by
  have hlt := s.aheadLength.isLt
  have hsmall : 2 * k ≤ 2 ^ 15 + 2 := by
    rcases Nat.eq_zero_or_pos k with rfl | hpos
    · omega
    · have hcount := (hk (k - 1) (by omega)).1
      omega
  change 0 < (s.aheadLength - BitVec.ofNat 32 (2 * k)).toNat ↔ _
  rw [BitVec.toNat_sub, BitVec.toNat_ofNat]
  omega

/-- Another turn comes, unless the count or the length is exhausted. -/
theorem goes_readAt_iff (hlower : -2 ^ 15 ≤ s.mtbrc) (hk : ∀ j < k, s.TurnAhead j) :
    ((s.readAt k b).2.mtbrc < 0 ∧ (s.readAt k b).1 > 0) ↔ s.TurnAhead k := by
  rw [length_readAt hlower hk]
  change s.mtbrc + (2 * k : ℕ) < 0 ∧ _ ↔ _
  unfold TurnAhead
  constructor
  · rintro ⟨hcount, hlength⟩
    refine ⟨by omega, fun heven => ?_⟩
    rcases Nat.eq_zero_or_pos k with rfl | hpos
    · omega
    · have hbefore := (hk (k - 1) (by omega)).2 heven
      omega
  · rintro ⟨hcount, hlength⟩
    exact ⟨by omega, by omega⟩

/-- The two bytes of a turn that lie on the image. -/
theorem readUint8_readAt (b : BusGlobals δ)
    (hroom : s.unit.drive.pos + 4 + 2 * k + 2 ≤ s.unit.drive.mmsz) :
    (s.readAt k b).2.readData = s.unit.drive.mm (s.unit.drive.pos + 4 + 2 * k + 1) ++
        s.unit.drive.mm (s.unit.drive.pos + 4 + 2 * k) ∧
      (s.readAt k b).2.unit.readUint8.2.readUint8.2 =
        s.unit.moveTo (s.unit.drive.pos + 4 + 2 * (k + 1)) := by
  have hfirst : (s.readAt k b).2.unit.readUint8 =
      (some (s.unit.drive.mm (s.unit.drive.pos + 4 + 2 * k)),
        s.unit.moveTo (s.unit.drive.pos + 4 + 2 * k + 1)) :=
    TapeUnit.readUint8_moveTo (by omega)
  have hsecond : (s.unit.moveTo (s.unit.drive.pos + 4 + 2 * k + 1)).readUint8 =
      (some (s.unit.drive.mm (s.unit.drive.pos + 4 + 2 * k + 1)),
        s.unit.moveTo (s.unit.drive.pos + 4 + 2 * (k + 1))) :=
    TapeUnit.readUint8_moveTo (by omega)
  unfold readData
  simp only [hfirst, hsecond, Option.getD_some, shiftLeft_or_setWidth, and_self]

/-- The state after a turn that stores the half word. -/
theorem readAt_succ (b' : BusGlobals δ)
    (hroom : s.unit.drive.pos + 4 + 2 * k + 2 ≤ s.unit.drive.mmsz) :
    ((s.readAt k b).1 - 1 - 1,
      ({ unit := (s.readAt k b).2.unit.readUint8.2.readUint8.2
         mtbrc := (s.readAt k b).2.mtbrc + 1 + 1
         mtcma := (s.readAt k b).2.mtcma + 2
         bus := b' } : TapeState δ)) = s.readAt (k + 1) b' := by
  have hlength : s.aheadLength - BitVec.ofNat 32 (2 * k) - 1 - 1 =
      s.aheadLength - BitVec.ofNat 32 (2 * (k + 1)) := by
    rw [BitVec.sub_sub, BitVec.sub_sub, Nat.mul_add, BitVec.ofNat_add]
    rfl
  have hcount : s.mtbrc + (2 * k : ℕ) + 1 + 1 = s.mtbrc + (2 * (k + 1) : ℕ) := by omega
  have haddr : s.mtcma + BitVec.ofNat 32 (2 * k) + 2 =
      s.mtcma + BitVec.ofNat 32 (2 * (k + 1)) := by
    rw [← halfAddress_succ, BitVec.add_assoc, BitVec.add_assoc, BitVec.add_comm 2]
  rw [(readUint8_readAt b hroom).2]
  unfold readAt
  simp only [hlength, hcount, haddr]

/-- A turn that stores the half word goes on. -/
theorem readTurn_of_stores (hlower : -2 ^ 15 ≤ s.mtbrc) (hk : ∀ j < k, s.TurnAhead j)
    (hturn : s.TurnAhead k) (hroom : s.unit.drive.pos + 4 + 2 * k + 2 ≤ s.unit.drive.mmsz)
    {pv : HalfWord}
    (haccess : busAdaptorUnibusRw dev true (s.mtcma + BitVec.ofNat 32 (2 * k))
      (s.unit.drive.mm (s.unit.drive.pos + 4 + 2 * k + 1) ++
        s.unit.drive.mm (s.unit.drive.pos + 4 + 2 * k)) b = .ok (pv, b'))
    (hquiet : busError b' = false) :
    readTurn dev (s.readAt k b) = .inl (s.readAt (k + 1) b') := by
  have hgoes' := (goes_readAt_iff (b := b) hlower hk).mpr hturn
  have hdata := (readUint8_readAt b hroom).1
  have hsame {pv' : HalfWord} {bus : BusGlobals δ}
      (h : busAdaptorUnibusRw dev true (s.readAt k b).2.mtcma (s.readAt k b).2.readData
        (s.readAt k b).2.bus = .ok (pv', bus)) : bus = b' := by
    rw [hdata] at h
    have heq := h.symm.trans haccess
    rw [Except.ok.injEq, Prod.mk.injEq] at heq
    exact heq.2
  cases readTurnCases dev (s.readAt k b).1 (s.readAt k b).2 with
  | leaves hover hturn' => exact absurd hgoes' hover
  | failed hgoes e haccess' hturn' =>
    rw [hdata] at haccess'
    cases haccess'.symm.trans haccess
  | nxm hgoes pv' bus haccess' herror hturn' =>
    obtain rfl := hsame haccess'
    exact absurd (hquiet.symm.trans herror) Bool.false_ne_true
  | next hgoes pv' bus haccess' hquiet' hturn' =>
    obtain rfl := hsame haccess'
    rw [← readAt_succ bus hroom]
    exact hturn'

/-- A turn that goes on has stored the half word. -/
theorem stores_of_readTurn
    (hroom : s.unit.drive.pos + 4 + 2 * k + 2 ≤ s.unit.drive.mmsz) {x : Word × TapeState δ}
    (h : readTurn dev (s.readAt k b) = .inl x) (hstored : s.Stores dev k b) :
    ∃ b', s.Stores dev (k + 1) b' ∧ x = s.readAt (k + 1) b' := by
  cases readTurnCases dev (s.readAt k b).1 (s.readAt k b).2 with
  | leaves hover hturn' => cases hturn'.symm.trans h
  | failed hgoes e haccess hturn' => cases hturn'.symm.trans h
  | nxm hgoes pv' bus haccess herror hturn' => cases hturn'.symm.trans h
  | next hgoes pv' bus haccess hquiet hturn' =>
    rw [(readUint8_readAt b hroom).1] at haccess
    refine ⟨bus, .next hstored haccess hquiet, ?_⟩
    rw [← readAt_succ bus hroom]
    exact (Sum.inl.inj (hturn'.symm.trans h)).symm

/-- Where READ acts on bytes that were read, they lie on the image. -/
theorem ReadActsOnRead.room_of_visits (h : s.ReadActsOnRead dev) (hlower : -2 ^ 15 ≤ s.mtbrc)
    (hrecord : s.preamble ≠ tapeFileMark) (hk : ∀ j < k, s.TurnAhead j) (hturn : s.TurnAhead k)
    (hvisits : Visits (readTurn dev) (s.preamble, s.reading) (s.readAt k b)) :
    s.unit.drive.pos + 4 + 2 * k + 2 ≤ s.unit.drive.mmsz := by
  have hle : min (s.unit.drive.pos + 4 + 2 * k) s.unit.drive.mmsz + 2 ≤ s.unit.drive.mmsz :=
    TapeUnit.bytesRead_iff.mp
      (h.data hrecord _ _ hvisits ((goes_readAt_iff hlower hk).mpr hturn))
  omega

/-- READ comes to the turn after half words that are stored. -/
theorem ReadActsOnRead.visits (h : s.ReadActsOnRead dev) (hlower : -2 ^ 15 ≤ s.mtbrc)
    (hrecord : s.preamble ≠ tapeFileMark) (hstored : s.Stores dev k b)
    (hk : ∀ j < k, s.TurnAhead j) :
    Visits (readTurn dev) (s.preamble, s.reading) (s.readAt k b) := by
  obtain ⟨hlength, hstart⟩ := reading_eq (TapeUnit.isSome_readUint32.mp h.preamble)
  induction hstored with
  | nil =>
    rw [hlength, hstart]
    exact .refl
  | @next k b' b'' pv stored access quiet ih =>
    have hbefore : ∀ j < k, s.TurnAhead j := fun j hj => hk j (Nat.lt_succ_of_lt hj)
    have hturn := hk k (Nat.lt_succ_self k)
    have hvisits := ih hbefore
    exact hvisits.tail (readTurn_of_stores hlower hbefore hturn
      (h.room_of_visits hlower hrecord hbefore hturn hvisits) access quiet)

/-- What READ acts on was read, and lies on the image. -/
theorem ReadActsOnRead.inside (h : s.ReadActsOnRead dev) (hlower : -2 ^ 15 ≤ s.mtbrc)
    (hnxm : s.unit.mts.nxm = false) : s.RecordInside dev := by
  have hpreamble := TapeUnit.isSome_readUint32.mp h.preamble
  obtain ⟨hlength, -⟩ := reading_eq hpreamble
  have hbefore {k j : ℕ} (hk : s.TurnAhead k) (hj : j < k) : s.TurnAhead j := by
    obtain ⟨hcount, heven⟩ := hk
    exact ⟨by omega, fun h => (Nat.mul_lt_mul_of_pos_left hj two_pos).trans (heven h)⟩
  refine ⟨hpreamble, fun hrecord k b' hturn hstored => ?_, fun hrecord k b' hk hall hstored => ?_⟩
  · rw [← hlength] at hrecord
    have hk (j : ℕ) (hj : j < k) := hbefore hturn hj
    exact h.room_of_visits hlower hrecord hk hturn (h.visits hlower hrecord hstored hk)
  · rw [← hlength] at hrecord
    have hover : ¬(s.readAt k b').1 > 0 := fun hgoes =>
      (length_readAt hlower hall).mp hgoes hk
    have hleft : readTurn dev (s.readAt k b') = .inr (.ok (s.readAt k b')) :=
      if_neg fun hgoes => hover hgoes.2
    obtain ⟨n, hends⟩ := (h.visits hlower hrecord hstored hall).exists_endsAfter hleft
    have hlook : min (s.unit.drive.pos + 4 + 2 * k) s.unit.drive.mmsz + 8 ≤ s.unit.drive.mmsz :=
      TapeUnit.isSome_readUint32_readUint32.mp (h.look hrecord n _ _ hends hnxm hover)
    omega

/-- READ on the image has stored what it has passed. -/
def Passed (dev : BusDevices δ) (s : TapeState δ) (x : Word × TapeState δ) : Prop :=
  ∃ k b, x = s.readAt k b ∧ s.Stores dev k b ∧ ∀ j < k, s.TurnAhead j

/-- A turn passes one half word more. -/
theorem RecordInside.passed_succ (h : s.RecordInside dev) (hlower : -2 ^ 15 ≤ s.mtbrc)
    (hrecord : s.aheadLength ≠ tapeFileMark) {x x' : Word × TapeState δ} (hx : s.Passed dev x)
    (hturn : readTurn dev x = .inl x') : s.Passed dev x' := by
  obtain ⟨k, b, rfl, hstored, hk⟩ := hx
  have hgoes : (s.readAt k b).2.mtbrc < 0 ∧ (s.readAt k b).1 > 0 := by
    cases readTurnCases dev (s.readAt k b).1 (s.readAt k b).2 with
    | leaves hover hturn' => cases hturn'.symm.trans hturn
    | failed hgoes e haccess hturn' => exact hgoes
    | nxm hgoes pv bus haccess herror hturn' => exact hgoes
    | next hgoes pv bus haccess hquiet hturn' => exact hgoes
  have hahead := (goes_readAt_iff hlower hk).mp hgoes
  obtain ⟨b', hstored', rfl⟩ :=
    stores_of_readTurn (h.data hrecord k b hahead hstored) hturn hstored
  refine ⟨k + 1, b', rfl, hstored', fun j hj => ?_⟩
  rcases Nat.lt_succ_iff_lt_or_eq.mp hj with hj | rfl
  · exact hk j hj
  · exact hahead

/-- READ on the image acts on what was read. -/
theorem RecordInside.actsOnRead (h : s.RecordInside dev) (hlower : -2 ^ 15 ≤ s.mtbrc) :
    s.ReadActsOnRead dev := by
  obtain ⟨hlength, hstart⟩ := reading_eq h.preamble
  have hfirst : s.Passed dev (s.preamble, s.reading) := by
    rw [hlength, hstart]
    exact ⟨0, _, rfl, .nil, fun j hj => absurd hj (Nat.not_lt_zero j)⟩
  refine ⟨TapeUnit.isSome_readUint32.mpr h.preamble, ?_, ?_⟩
  · intro hrecord l s₁ hvisits hgoes
    rw [hlength] at hrecord
    obtain ⟨k, b, hx, hstored, hk⟩ := hvisits.of_turn
      (fun x x' hx hturn => h.passed_succ hlower hrecord hx hturn) hfirst
    cases hx
    have hroom := h.data hrecord k b ((goes_readAt_iff hlower hk).mp hgoes) hstored
    refine TapeUnit.bytesRead_iff.mpr ?_
    change min (s.unit.drive.pos + 4 + 2 * k) s.unit.drive.mmsz + 2 ≤ s.unit.drive.mmsz
    omega
  · intro hrecord n l s₁ hends
    rw [hlength] at hrecord
    have hleft := hends.of_turn (I := s.Passed dev)
      (Q := fun r => ∀ x, r = .ok x → x.2.unit.mts.nxm = false → s.Passed dev x)
      (fun x x' hx hturn => h.passed_succ hlower hrecord hx hturn) ?_ hfirst _ rfl
    · intro hnxm hover
      obtain ⟨k, b, hx, hstored, hk⟩ := hleft hnxm
      cases hx
      have hlen : s.aheadLength.toNat = 2 * k :=
        not_not.mp fun hne => hover ((length_readAt (b := b) hlower hk).mpr hne)
      have hroom := h.look hrecord k b hlen hk hstored
      refine TapeUnit.isSome_readUint32_readUint32.mpr ?_
      change min (s.unit.drive.pos + 4 + 2 * k) s.unit.drive.mmsz + 8 ≤ s.unit.drive.mmsz
      omega
    · rintro x r hx hturn x' rfl hnxm
      cases readTurnCases dev x.1 x.2 with
      | leaves hover hturn' =>
        cases hturn'.symm.trans hturn
        exact hx
      | failed hgoes e haccess hturn' => cases hturn'.symm.trans hturn
      | nxm hgoes pv bus haccess herror hturn' =>
        cases hturn'.symm.trans hturn
        cases hnxm
      | next hgoes pv bus haccess hquiet hturn' => cases hturn'.symm.trans hturn

end TapeState

/-! ### The spacing commands -/

namespace TapeUnit

variable {t : TapeUnit} {n q : ℕ}

/-- A record ahead that SPACE FORWARD passes without stopping. -/
theorem spaceForward_goes (hpos : t.drive.pos + 4 ≤ t.drive.mmsz)
    (hq : q = min (t.drive.pos + 4 + (wordAt t.drive.mm t.drive.pos + 4).toNat) t.drive.mmsz)
    (hroom : q + 4 ≤ t.drive.mmsz) (heof : t.mts.eof = false) :
    (t.spaceForward.stopsForward = false ↔
        wordAt t.drive.mm q ≠ tapeFileMark ∧ (q : ℤ) < t.drive.eotpos) ∧
      (wordAt t.drive.mm q ≠ tapeFileMark → t.spaceForward = t.moveTo q) := by
  have hspace := spaceForward_eq hpos hq
  rw [if_pos hroom] at hspace
  by_cases hmark : wordAt t.drive.mm q = tapeFileMark
  · rw [if_pos hmark] at hspace
    refine ⟨?_, fun hne => absurd hmark hne⟩
    rw [hspace]
    exact iff_of_false Bool.noConfusion fun h => h.1 hmark
  · rw [if_neg hmark] at hspace
    refine ⟨?_, fun _ => hspace⟩
    unfold stopsForward
    rw [hspace, eof_moveTo, heof, Bool.false_or, eot_moveTo (by omega), decide_eq_false_iff_not,
      not_le, and_iff_right hmark]

/-- The words of the first record ahead are read. -/
theorem ForwardAhead.forwardReads (h : t.ForwardAhead (n + 1)) : t.ForwardReads :=
  (forwardReads_iff rfl).mpr ⟨h.1, h.2.1⟩

/-- Behind the first record there are the others. -/
theorem ForwardAhead.next (h : t.ForwardAhead (n + 1)) (heof : t.mts.eof = false)
    (hgoes : t.spaceForward.stopsForward = false) : t.spaceForward.ForwardAhead n := by
  obtain ⟨hpos, hroom, hrest⟩ := h
  obtain ⟨hiff, hmoved⟩ := spaceForward_goes hpos rfl hroom heof
  obtain ⟨hmark, hmarker⟩ := hiff.mp hgoes
  rw [hmoved hmark]
  have hahead := hrest hmark hmarker
  unfold ForwardAhead
  rwa [pos_moveTo (by omega)]

/-- The first record and the others. -/
theorem ForwardReads.forwardAhead (h : t.ForwardReads) (heof : t.mts.eof = false)
    (hrest : t.spaceForward.stopsForward = false → t.spaceForward.ForwardAhead n) :
    t.ForwardAhead (n + 1) := by
  obtain ⟨hpos, hroom⟩ := (forwardReads_iff rfl).mp h
  obtain ⟨hiff, hmoved⟩ := spaceForward_goes hpos rfl hroom heof
  refine ⟨hpos, hroom, fun hmark hmarker => ?_⟩
  have hahead := hrest (hiff.mpr ⟨hmark, hmarker⟩)
  rw [hmoved hmark] at hahead
  unfold ForwardAhead at hahead
  rwa [pos_moveTo (by omega)] at hahead

/-- No end-of-file bit, if nothing stops SPACE FORWARD. -/
theorem eof_of_stopsForward (h : t.stopsForward = false) : t.mts.eof = false :=
  (Bool.or_eq_false_iff.mp h).1

end TapeUnit

namespace TapeState

variable {dev : BusDevices δ} {s s' : TapeState δ}

/-- Where a loop over a file acts on what was read, the records ahead lie on the image. -/
theorem forwardAhead_of_file (n : ℕ) (h : ∀ s₁,
      Visits (fileTurn TapeUnit.spaceForward TapeUnit.stopsForward) s s₁ →
        s₁.unit.stopsForward = false → s₁.unit.ForwardReads)
    (hgoes : s.unit.stopsForward = false) : s.unit.ForwardAhead n := by
  induction n generalizing s with
  | zero => exact trivial
  | succ n ih =>
    refine (h s .refl hgoes).forwardAhead (TapeUnit.eof_of_stopsForward hgoes) fun hgoes' => ?_
    have hturn : fileTurn TapeUnit.spaceForward TapeUnit.stopsForward s =
        .inl { s with unit := s.unit.spaceForward } := by
      unfold fileTurn
      rw [hgoes, if_neg Bool.false_ne_true]
    generalize s.unit.spaceForward = u at hgoes' hturn ⊢
    exact ih (s := { s with unit := u }) (fun s₁ hvisits => h s₁ (.head hturn hvisits)) hgoes'

/-- Where a loop over records acts on what was read, as many records lie on the image. -/
theorem forwardAhead_of_records {n : ℕ} (hn : (-s.mtbrc).toNat = n) (h : ∀ s₁,
      Visits (recordsTurn TapeUnit.spaceForward TapeUnit.stopsForward) s s₁ → s₁.mtbrc < 0 →
        s₁.unit.ForwardReads)
    (heof : s.unit.mts.eof = false) : s.unit.ForwardAhead n := by
  induction n generalizing s with
  | zero => exact trivial
  | succ n ih =>
    have hcount : s.mtbrc < 0 := by omega
    refine (h s .refl hcount).forwardAhead heof fun hgoes => ?_
    have hturn : recordsTurn TapeUnit.spaceForward TapeUnit.stopsForward s =
        .inl { s with unit := s.unit.spaceForward, mtbrc := s.mtbrc + 1 } := by
      unfold recordsTurn
      simp only [if_pos hcount, hgoes, Bool.false_eq_true, if_false]
    generalize s.unit.spaceForward = u at hgoes hturn ⊢
    exact ih (s := { s with unit := u, mtbrc := s.mtbrc + 1 })
      (by simp only; omega) (fun s₁ hvisits => h s₁ (.head hturn hvisits))
      (TapeUnit.eof_of_stopsForward hgoes)

/-- A loop over records that lie on the image acts on what was read. -/
theorem forwardReads_of_records (h : s.unit.ForwardAhead (-s.mtbrc).toNat)
    (heof : s.unit.mts.eof = false)
    (hvisits : Visits (recordsTurn TapeUnit.spaceForward TapeUnit.stopsForward) s s')
    (hcount : s'.mtbrc < 0) : s'.unit.ForwardReads := by
  have hfuel {s : TapeState δ} (hcount : s.mtbrc < 0) :
      (-s.mtbrc).toNat = (-(s.mtbrc + 1)).toNat + 1 := by omega
  have hkept := hvisits.of_turn
    (I := fun s => s.unit.mts.eof = false ∧ s.unit.ForwardAhead (-s.mtbrc).toNat)
    (fun s s' hs hturn => by
      unfold recordsTurn at hturn
      simp only at hturn
      split_ifs at hturn with hcount hstop
      have hgoes := Bool.eq_false_iff.mpr hstop
      have hahead := hs.2
      rw [hfuel hcount] at hahead
      have hrest := hahead.next hs.1 hgoes
      generalize s.unit.spaceForward = u at hturn hgoes hrest
      cases hturn
      exact ⟨TapeUnit.eof_of_stopsForward hgoes, hrest⟩) ⟨heof, h⟩
  have hahead := hkept.2
  rw [hfuel hcount] at hahead
  exact hahead.forwardReads

/-- A loop over a file that lies on the image acts on what was read. -/
theorem forwardReads_of_file (h : ∀ n, s.unit.ForwardAhead n)
    (hvisits : Visits (fileTurn TapeUnit.spaceForward TapeUnit.stopsForward) s s')
    (hgoes : s'.unit.stopsForward = false) : s'.unit.ForwardReads := by
  have hkept := hvisits.of_turn
    (I := fun s => s.unit.stopsForward = false → ∀ n, s.unit.ForwardAhead n)
    (fun s s' hs hturn hgoes n => by
      unfold fileTurn at hturn
      split_ifs at hturn with hstop
      have hgoes' := Bool.eq_false_iff.mpr hstop
      have hrest := (hs hgoes' (n + 1)).next (TapeUnit.eof_of_stopsForward hgoes')
      generalize s.unit.spaceForward = u at hturn hrest
      cases hturn
      exact hrest hgoes) (fun _ => h)
  exact (hkept hgoes 1).forwardReads

/-- The images that the loops of SPACE REVERSE come to. -/
theorem mmsz_of_visits {turn : TapeState δ → TapeState δ ⊕ TapeState δ} {m : ℕ}
    (hvisits : Visits turn s s')
    (hturn : ∀ s s', turn s = .inl s' → s'.unit = s.unit.spaceReverse true)
    (hs : s.unit.drive.mmsz = m) : s'.unit.drive.mmsz = m :=
  hvisits.of_turn (I := fun s => s.unit.drive.mmsz = m)
    (fun s s' hs h => by
      rw [hturn s s' h, (TapeUnit.spaced_spaceReverse s.unit true).mmsz, hs]) hs

/-- SPACE FORWARD acts on what was read if and only if the records ahead lie on the image. -/
theorem forwardActsOnRead_iff (heof : s.unit.mts.eof = false) (heot : s.unit.mts.eot = false) :
    s.ForwardActsOnRead ↔ s.Inside dev 4 := by
  have hgoes : s.unit.stopsForward = false := by
    unfold TapeUnit.stopsForward
    rw [heof, heot, Bool.or_false]
  constructor
  · intro h
    refine ⟨fun hzero n => forwardAhead_of_file n (h.file heot hzero) hgoes, ?_⟩
    by_cases hcount : s.mtbrc = 0
    · rw [hcount]
      exact trivial
    · exact forwardAhead_of_records rfl (h.records heot hcount) heof
  · rintro ⟨hfile, hrecords⟩
    exact ⟨fun _ hzero s₁ hvisits => forwardReads_of_file (hfile hzero) hvisits,
      fun _ _ s₁ hvisits => forwardReads_of_records hrecords heof hvisits⟩

/-- SPACE REVERSE acts on what was read if and only if the image has a word. -/
theorem reverseActsOnRead_iff : s.ReverseActsOnRead ↔ s.Inside dev 5 := by
  constructor
  · intro h
    cases hbot : s.unit.drive.bot with
    | true => exact Or.inl hbot
    | false => exact Or.inr (TapeUnit.le_of_reverseReads (h.first hbot))
  · intro h
    have hword (hbot : s.unit.drive.bot = false) : 4 ≤ s.unit.drive.mmsz :=
      h.resolve_left (hbot ▸ Bool.false_ne_true)
    have hfirst := (TapeUnit.spaced_spaceReverse s.unit false).mmsz
    refine ⟨fun hbot => TapeUnit.reverseReads_of_le (hword hbot) false, ?_, ?_⟩
    · intro hbot _ s₁ hvisits _
      have hmmsz := mmsz_of_visits hvisits (fun s s' hturn => by
        unfold fileTurn at hturn
        split_ifs at hturn
        cases hturn
        rfl) hfirst
      exact TapeUnit.reverseReads_of_le (hmmsz ▸ hword hbot) true
    · intro hbot _ _ s₁ hvisits _
      have hmmsz := mmsz_of_visits hvisits (fun s s' hturn => by
        unfold recordsTurn at hturn
        simp only at hturn
        split_ifs at hturn
        cases hturn
        rfl) hfirst
      exact TapeUnit.reverseReads_of_le (hmmsz ▸ hword hbot) true

end TapeState

/-- A command acts on nothing that was not read if and only if what it takes off the tape lies on
the image. -/
theorem tape_acts_on_read (dev : BusDevices δ) (c : TapeCommand) (s : TapeSystem δ) :
    (s.found c).ActsOnRead dev c.function ↔ (s.found c).Inside dev c.function := by
  have hlower : -2 ^ 15 ≤ (s.found c).mtbrc := BitVec.le_toInt c.mtbrc
  have hmts : (s.found c).unit.mts = ⟨false, false, false, false, false, false, true⟩ := rfl
  generalize s.found c = t at hlower hmts ⊢
  generalize c.function = function
  match function with
  | 1 => exact ⟨fun h => h.inside hlower (by rw [hmts]), fun h => h.actsOnRead hlower⟩
  | 4 => exact TapeState.forwardActsOnRead_iff (by rw [hmts]) (by rw [hmts])
  | 5 => exact TapeState.reverseActsOnRead_iff
  | 0 | 2 | 3 | 6 | 7 => exact Iff.rfl

/-- Blank tapes at the end of their images. -/
def exhaustedTapes : TapeSystem XbusDevices :=
  { TapeHandshake.blankTapes with controller.drives := fun d =>
      { TapeHandshake.blankTapes.controller.drives d with
        pos := 192000, bot := false, pos_le := le_refl 192000, pos_of_bot := Bool.noConfusion } }

/-- READ at the end of the image acts on a preamble that was not read. -/
theorem not_tape_acts_on_read :
    ¬(exhaustedTapes.found ⟨0xFFF8, 0o140000, 0o3⟩).ActsOnRead bareDevices 1 := by
  intro h
  have hpreamble : (exhaustedTapes.found ⟨0xFFF8, 0o140000, 0o3⟩).unit.drive.pos + 4 ≤
      (exhaustedTapes.found ⟨0xFFF8, 0o140000, 0o3⟩).unit.drive.mmsz :=
    TapeUnit.isSome_readUint32.mp (TapeState.ReadActsOnRead.preamble h)
  exact absurd hpreamble (by decide)

end Usim
