import Usim.CSharp.BusEquivalence
import Usim.CSharp.TapeDrives
import Usim.TapeTransfers

/-!
# The commands of the two tape controllers

What a tape command does in the C program and in the port, for a drive that is open.
The port copies the flag for the end of the tape when a command ends, so that its
status register lags behind in the middle of one.
-/

namespace Usim

open Lib

variable {δ : Type}

/-- What a command of the port has changed, where the C program has come to `s`. -/
def TapeState.sharp (eot : Bool) (s : TapeState δ) (bus : SharpGlobals δ) : SharpTapeState δ where
  drive := s.unit.sharp
  mts := { s.unit.mts with eot := eot }
  mtbrc := s.mtbrc
  mtcma := s.mtcma
  bus := bus

/-- A drive that is not rewinding, with an image of a word at least, and an `int16_t`. -/
structure TapeState.Sound (s : TapeState δ) : Prop where
  rws : s.unit.drive.rws = false
  size : 4 ≤ s.unit.drive.mmsz
  lower : -2 ^ 15 ≤ s.mtbrc
  upper : s.mtbrc < 2 ^ 15

/-- The port has come to the same state, up to its copy of the flag for the end of the tape. -/
structure AlikeUpTo (eot : Bool) (s : TapeState δ) (s' : SharpTapeState δ) : Prop where
  state : s' = s.sharp eot s'.bus
  bus : Ported s.bus s'.bus
  sound : s.Sound

/-- The port has come to the same state. -/
def Alike (s : TapeState δ) (s' : SharpTapeState δ) : Prop := AlikeUpTo s.unit.mts.eot s s'

variable {s : TapeState δ} {s' : SharpTapeState δ} {eot : Bool}

/-- Two bytes that a loop moves. -/
theorem TapeState.Sound.next (h : s.Sound) {unit : TapeUnit} (hreel : TapeUnit.SameReel s.unit unit)
    (hcount : s.mtbrc < 0) (mtcma : Word) (bus : BusGlobals δ) :
    TapeState.Sound ⟨unit, s.mtbrc + 1 + 1, mtcma, bus⟩ where
  rws := hreel.rws.trans h.rws
  size := hreel.mmsz ▸ h.size
  lower := by have := h.lower; simp only; omega
  upper := by simp only; omega

/-- States of a unit that is like the drive of the port. -/
theorem alikeUpTo_mk {unit : TapeUnit} {mts : Mts} {mtbrc : ℤ} {mtcma : Word} {bus : BusGlobals δ}
    {bus' : SharpGlobals δ} (hmts : { unit.mts with eot := eot } = mts) (hbus : Ported bus bus')
    (hsound : TapeState.Sound ⟨unit, mtbrc, mtcma, bus⟩) :
    AlikeUpTo eot ⟨unit, mtbrc, mtcma, bus⟩ ⟨unit.sharp, mts, mtbrc, mtcma, bus'⟩ := by
  subst hmts
  exact ⟨rfl, hbus, hsound⟩

/-- The copy is made. -/
theorem AlikeUpTo.syncEot (h : AlikeUpTo eot s s') : Alike s s'.syncEot := by
  obtain ⟨hstate, hbus, hsound⟩ := h
  refine ⟨?_, hbus, hsound⟩
  rw [hstate]
  rfl

/-- The same errors of the bus. -/
theorem Ported.busError {b : BusGlobals δ} {b' : SharpGlobals δ} (h : Ported b b') :
    SharpTapeState.busError b' = TapeState.busError b := by
  rw [h.mirror]
  rfl

/-! ### Transfers -/

/-- The word of the Xbus that the port takes for a register. -/
def MapReachesOverrun (b : BusGlobals δ) (write : Bool) (uaddr : Word) : Prop :=
  0o140000 ≤ uaddr ∧ uaddr ≤ 0o177777 ∧ MapReaches b write uaddr 0o17377400

/-- A half word of a READ may be stored at this address: the map does not lead it to the word
that the port takes for a register, and it is not the mode register of the diagnostic interface. -/
def PortableStore (b : BusGlobals δ) (uaddr : Word) : Prop :=
  ¬MapReachesOverrun b true uaddr ∧ uaddr ≠ 0o766012

variable {dev : BusDevices δ} {dev' : SharpDevices δ}

/-- The mode register is the only register of the diagnostic interface for the PROM. -/
def OnlyModeDisablesProm (port : SharpPort 16 δ) : Prop :=
  ∀ uaddr v b b', port.write uaddr v b = .ok b' → uaddr ≠ 0o766012 →
    b'.promdisabled = b.promdisabled

/-- Other registers may be written with a local variable for `promDisabled`. -/
theorem keepingProm_write {port : SharpPort 16 δ} (hmode : OnlyModeDisablesProm port) {uaddr : Word}
    (h : uaddr ≠ 0o766012) (v : HalfWord) (b : SharpGlobals δ) :
    port.keepingProm.write uaddr v b = port.write uaddr v b := by
  unfold SharpPort.keepingProm
  simp only
  cases hwrite : port.write uaddr v b with
  | error e => rfl
  | ok b' =>
    have hprom := hmode uaddr v b b' hwrite h
    change Except.ok { b' with promdisabled := b.promdisabled } = Except.ok b'
    rw [← hprom]

/-- A half word that a READ stores. -/
theorem writeUnibus_alike (hdev : AttachedIdentically dev dev')
    (hmode : OnlyModeDisablesProm dev'.diagnosticInterface) {b : BusGlobals δ}
    {b' : SharpGlobals δ} (hb : Ported b b') {uaddr : Word} (h : PortableStore b uaddr)
    (data : HalfWord) :
    AgreesUpTo (fun r => Ported r.2) (busAdaptorUnibusRw dev true uaddr data b)
      (SharpBusAdaptor.writeUnibus
        { dev' with diagnosticInterface := dev'.diagnosticInterface.keepingProm }
        uaddr (data.setWidth 32) b') := by
  have hwrite := writeUnibus_ported hdev hb uaddr
    (fun hlo hhi hreach => h.1 ⟨hlo, hhi, hreach⟩) (data.setWidth 32)
  have hsame : SharpBusAdaptor.writeUnibus
      { dev' with diagnosticInterface := dev'.diagnosticInterface.keepingProm } uaddr
        (data.setWidth 32) b' =
      SharpBusAdaptor.writeUnibus dev' uaddr (data.setWidth 32) b' := by
    unfold SharpBusAdaptor.writeUnibus
    split
    · exact keepingProm_write hmode h.2 _ b'
    · rfl
  rw [hsame]
  rwa [BitVec.setWidth_setWidth_of_le _ (by decide), BitVec.setWidth_eq] at hwrite

/-- A half word that a WRITE fetches. -/
theorem readUnibus_alike (hdev : AttachedIdentically dev dev') {b : BusGlobals δ}
    {b' : SharpGlobals δ} (hb : Ported b b') {uaddr : Word}
    (h : ¬MapReachesOverrun b false uaddr) :
    AgreesUpTo (fun r r' => r'.1.setWidth 16 = r.1 ∧ Ported r.2 r'.2)
      (busAdaptorUnibusRw dev false uaddr 0 b) (SharpBusAdaptor.readUnibus dev' uaddr b') := by
  refine (readUnibus_ported hdev hb uaddr (fun hlo hhi hreach => h ⟨hlo, hhi, hreach⟩) 0).mono ?_
  rintro r r' ⟨hvalue, hported⟩
  refine ⟨?_, hported⟩
  rw [← hvalue (.inl rfl), BitVec.setWidth_setWidth_of_le _ (by decide), BitVec.setWidth_eq]

namespace TapeState

/-- Every half word of a READ is stored at an address where the busses are alike. -/
def ReadLoopPortable (dev : BusDevices δ) : ℕ → Word → TapeState δ → Prop
  | 0, _, _ => True
  | fuel + 1, recordLength, s =>
    s.mtbrc < 0 ∧ recordLength > 0 →
      PortableStore s.bus s.mtcma ∧
        ∀ bus : BusGlobals δ,
          (busAdaptorUnibusRw dev true s.mtcma
            (((s.unit.readUint8.2.readUint8.1.getD 0).setWidth 16 <<< 8) |||
              (s.unit.readUint8.1.getD 0).setWidth 16) s.bus).map Prod.snd = .ok bus →
          busError bus = false →
          ReadLoopPortable dev fuel (recordLength - 1 - 1)
            { s with
              unit := s.unit.readUint8.2.readUint8.2
              mtbrc := s.mtbrc + 1 + 1
              bus := bus
              mtcma := s.mtcma + 2 }

/-- Every half word of a WRITE is fetched at an address where the busses are alike. -/
def WriteLoopPortable (dev : BusDevices δ) : ℕ → TapeState δ → Prop
  | 0, _ => True
  | fuel + 1, s =>
    s.mtbrc < 0 →
      ¬MapReachesOverrun s.bus false s.mtcma ∧
        ∀ (data : HalfWord) (bus : BusGlobals δ),
          busAdaptorUnibusRw dev false s.mtcma 0 s.bus = .ok (data, bus) →
          busError bus = false →
          WriteLoopPortable dev fuel
            { s with
              unit := ((s.unit.writeUint8 ((data &&& 0xFF).setWidth 8)).2.writeUint8
                (((data >>> 8) &&& 0xFF).setWidth 8)).2
              mtbrc := s.mtbrc + 1 + 1
              bus := bus
              mtcma := s.mtcma + 2 }

end TapeState

/-- The loops of the two READs. -/
theorem readLoop_alike (hdev : AttachedIdentically dev dev')
    (hmode : OnlyModeDisablesProm dev'.diagnosticInterface) {fuel : ℕ} {recordLength : Word}
    (h : AlikeUpTo eot s s') (hportable : s.ReadLoopPortable dev fuel recordLength) :
    AgreesUpTo (fun r r' => r'.1 = r.1 ∧ AlikeUpTo eot r.2 r'.2)
      (s.readLoop dev fuel recordLength) (s'.readLoop dev' fuel recordLength) := by
  induction fuel generalizing recordLength s s' with
  | zero => exact ⟨rfl, h⟩
  | succ fuel ih =>
    obtain ⟨hstate, hbus, hsound⟩ := h
    generalize s'.bus = bus' at hstate hbus
    subst hstate
    unfold TapeState.readLoop SharpTapeState.readLoop
    change AgreesUpTo _ _ (if s.mtbrc < 0 ∧ recordLength > 0 then _ else _)
    by_cases hgo : s.mtbrc < 0 ∧ recordLength > 0
    · rw [if_pos hgo, if_pos hgo]
      obtain ⟨hstore, hrest⟩ := hportable hgo
      have hdrive : (s.sharp eot bus').drive = s.unit.sharp := rfl
      simp only [hdrive, TapeUnit.readByte_sharp]
      have haccess := writeUnibus_alike hdev hmode hbus hstore
        (((s.unit.readUint8.2.readUint8.1.getD 0).setWidth 16 <<< 8) |||
          (s.unit.readUint8.1.getD 0).setWidth 16)
      rcases haccess.cases with ⟨r, b, hr, hr', hported⟩ | ⟨e, d, hr, hr'⟩
      · simp only [TapeState.sharp, hr, hr', hported.busError]
        have hreel := (TapeUnit.sameReel_readUint8 s.unit).trans
          (TapeUnit.sameReel_readUint8 s.unit.readUint8.2)
        have hmts := hreel.mts eot
        cases herror : TapeState.busError r.2 with
        | true =>
          have hnext := hsound.next hreel hgo.1 s.mtcma r.2
          exact ⟨rfl, alikeUpTo_mk (congrArg ({ · with nxm := true }) hmts) hported
            ⟨hnext.rws, hnext.size, hnext.lower, hnext.upper⟩⟩
        | false =>
          exact ih (alikeUpTo_mk hmts hported (hsound.next hreel hgo.1 _ _))
            (hrest r.2 (congrArg (Except.map Prod.snd) hr) herror)
      · simp only [TapeState.sharp, hr, hr']
        trivial
    · rw [if_neg hgo, if_neg hgo]
      exact ⟨rfl, rfl, hbus, hsound⟩

/-- The loops of the two WRITEs. -/
theorem writeLoop_alike (hdev : AttachedIdentically dev dev') {fuel : ℕ}
    (hwrite : s.unit.drive.readOnly = false) (h : AlikeUpTo eot s s')
    (hportable : s.WriteLoopPortable dev fuel) :
    AgreesUpTo (fun t t' => t.unit.drive.readOnly = false ∧ AlikeUpTo eot t t')
      (s.writeLoop dev fuel) (s'.writeLoop dev' fuel) := by
  induction fuel generalizing s s' with
  | zero => exact ⟨hwrite, h⟩
  | succ fuel ih =>
    obtain ⟨hstate, hbus, hsound⟩ := h
    generalize s'.bus = bus' at hstate hbus
    subst hstate
    unfold TapeState.writeLoop SharpTapeState.writeLoop
    change AgreesUpTo _ _ (if s.mtbrc < 0 then _ else _)
    by_cases hgo : s.mtbrc < 0
    · rw [if_pos hgo, if_pos hgo]
      obtain ⟨hfetch, hrest⟩ := hportable hgo
      have haccess := readUnibus_alike hdev hbus hfetch
      rcases haccess.cases with ⟨r, r', hr, hr', hvalue, hported⟩ | ⟨e, d, hr, hr'⟩
      · have hfirst := TapeUnit.sameReel_writeUint8 ((r.1 &&& 0xFF).setWidth 8) s.unit
        have hreel := hfirst.trans (TapeUnit.sameReel_writeUint8
          (((r.1 >>> 8) &&& 0xFF).setWidth 8) (s.unit.writeUint8 ((r.1 &&& 0xFF).setWidth 8)).2)
        simp only [TapeState.sharp, hr, hr', hported.busError, hvalue,
          TapeUnit.writeByte_sharp hwrite,
          TapeUnit.writeByte_sharp (hfirst.readOnly.trans hwrite)]
        cases herror : TapeState.busError r.2 with
        | true =>
          exact ⟨hwrite, rfl, hported, hsound.rws, hsound.size, hsound.lower, hsound.upper⟩
        | false =>
          exact ih (hreel.readOnly.trans hwrite)
            (alikeUpTo_mk (hreel.mts eot) hported (hsound.next hreel hgo _ _))
            (hrest r.1 r.2 hr herror)
      · simp only [TapeState.sharp, hr, hr']
        trivial
    · rw [if_neg hgo, if_neg hgo]
      exact ⟨hwrite, rfl, hbus, hsound⟩

/-! ### READ and WRITE -/

/-- The states between the steps of a command, and before and after it: the flags of the drive
for the two ends of the tape may differ, as long as the tape stands where it was loaded. -/
structure TapesAlike (s : TapeState δ) (s' : SharpTapeState δ) : Prop where
  drive : ∃ bot eot, s'.drive = s.unit.standing bot eot ∧
    (bot = s.unit.drive.bot ∨ s.unit.drive.bot = false ∧ s.unit.drive.pos = 0 ∧ bot = true)
  mts : s'.mts = s.unit.mts
  mtbrc : s'.mtbrc = s.mtbrc
  mtcma : s'.mtcma = s.mtcma
  bus : Ported s.bus s'.bus
  sound : s.Sound

/-- The state of the port, by that of the C program. -/
theorem TapesAlike.state (h : TapesAlike s s') :
    ∃ bot eot, (bot = s.unit.drive.bot ∨
        s.unit.drive.bot = false ∧ s.unit.drive.pos = 0 ∧ bot = true) ∧
      s' = ⟨s.unit.standing bot eot, s.unit.mts, s.mtbrc, s.mtcma, s'.bus⟩ := by
  obtain ⟨⟨bot, eot, hdrive, hbot⟩, hmts, hmtbrc, hmtcma, -, -⟩ := h
  refine ⟨bot, eot, hbot, ?_⟩
  rw [← hdrive, ← hmts, ← hmtbrc, ← hmtcma]

theorem Alike.tapesAlike (h : Alike s s') : TapesAlike s s' := by
  obtain ⟨hstate, hbus, hsound⟩ := h
  generalize s'.bus = bus' at hstate hbus
  subst hstate
  exact ⟨⟨s.unit.drive.bot, s.unit.mts.eot, rfl, .inl rfl⟩, rfl, rfl, rfl, hbus, hsound⟩

/-- The error status is reset on both sides. -/
theorem Ported.resetBusErrorStatus {b : BusGlobals δ} {b' : SharpGlobals δ} (h : Ported b b') :
    Ported (b.onInterface BusInterface.resetBusErrorStatus)
      (SharpBusInterface.update ({ · with busErrorStatus := 0 }) b') :=
  h.onInterface (f := BusInterface.resetBusErrorStatus)
    (g := ({ · with busErrorStatus := 0 })) (fun _ => rfl) h.debuggee

namespace TapeState

/-- READ reads no word past the end of the image: neither the preamble nor the postamble nor
the word behind it. -/
structure ReadInside (dev : BusDevices δ) (s : TapeState δ) : Prop where
  preamble : s.unit.drive.pos + 4 ≤ s.unit.drive.mmsz
  postamble : ∀ t, s.reading.readLoop dev (-s.mtbrc).toNat s.preamble = .ok (0, t) →
    t.unit.mts.nxm = false → t.unit.drive.pos + 8 ≤ t.unit.drive.mmsz

end TapeState

namespace SharpTapeState

/-- `Read(TapeDrive)` after it has read the preamble. -/
def reading (s : SharpTapeState δ) : SharpTapeState δ :=
  { s.resetBusErrorStatus with drive := s.drive.readUInt32.2 }

/-- `Read(TapeDrive)` after its loop. -/
def readEnd (r : Word × SharpTapeState δ) : SharpTapeState δ :=
  if r.2.mts.nxm then r.2.syncEot
  else if r.1 > 0 then (r.2.onMts ({ · with rle := true })).syncEot
  else
    let word := r.2.drive.readUInt32.2.readUInt32
    if word.1 = 0xFFFFFFFF then
      ({ r.2 with drive := word.2 }.onMts ({ · with eof := true })).syncEot
    else { r.2 with drive := word.2.seekRelative (-4) }.syncEot

/-- `Read(TapeDrive)` is its preamble, its loop and its end. -/
theorem read_eq (dev : SharpDevices δ) (s : SharpTapeState δ) :
    s.read dev =
      if s.drive.readUInt32.1 = 0xFFFFFFFF then
        .ok (s.reading.onMts ({ · with eof := true })).syncEot
      else (s.reading.readLoop dev (-s.mtbrc).toNat s.drive.readUInt32.1).map readEnd := by
  by_cases hmark : s.drive.readUInt32.1 = 0xFFFFFFFF
  · rw [if_pos hmark]
    exact if_pos hmark
  rw [if_neg hmark]
  refine (if_neg hmark).trans ?_
  dsimp only
  split
  · rename_i e hloop
    have hloop' : s.reading.readLoop dev (-s.mtbrc).toNat s.drive.readUInt32.1 = .error e := hloop
    rw [hloop']
    rfl
  · rename_i recordLength t hloop
    have hloop' : s.reading.readLoop dev (-s.mtbrc).toNat s.drive.readUInt32.1 =
        .ok (recordLength, t) := hloop
    rw [hloop']
    change _ = Except.ok (readEnd (recordLength, t))
    unfold readEnd
    simp only
    split_ifs <;> rfl

end SharpTapeState

/-- The end of the two READs, once a record has been moved. -/
theorem readEnd_alike {recordLength : Word} (h : AlikeUpTo eot s s')
    (hinside : recordLength = 0 → s.unit.mts.nxm = false →
      s.unit.drive.pos + 8 ≤ s.unit.drive.mmsz) :
    Alike (TapeState.readEnd (recordLength, s)) (SharpTapeState.readEnd (recordLength, s')) := by
  unfold TapeState.readEnd SharpTapeState.readEnd
  obtain ⟨hstate, hbus, hsound⟩ := h
  generalize s'.bus = bus' at hstate hbus
  subst hstate
  have hnxm : (s.sharp eot bus').mts.nxm = s.unit.mts.nxm := rfl
  rw [hnxm]
  cases herror : s.unit.mts.nxm with
  | true =>
    rw [if_pos rfl, if_pos rfl]
    exact AlikeUpTo.syncEot ⟨rfl, hbus, hsound⟩
  | false =>
    rw [if_neg Bool.false_ne_true, if_neg Bool.false_ne_true]
    by_cases hlong : recordLength > 0
    · rw [if_pos hlong, if_pos hlong]
      exact AlikeUpTo.syncEot ⟨rfl, hbus, hsound.rws, hsound.size, hsound.lower, hsound.upper⟩
    rw [if_neg hlong, if_neg hlong]
    have hzero : recordLength = 0 := by bv_omega
    have hpos := hinside hzero herror
    have hdrive : (s.sharp eot bus').drive = s.unit.sharp := rfl
    have hfirst := TapeUnit.readUint32_of_le (t := s.unit) (by omega)
    have hsecond := TapeUnit.readUint32_moveTo (t := s.unit) (q := s.unit.drive.pos + 4) (by omega)
    have hfirst' := TapeUnit.readUInt32_sharp (t := s.unit) (by omega)
    have hsecond' := TapeUnit.readUInt32_sharp (t := s.unit.moveTo (s.unit.drive.pos + 4))
      (by rw [TapeUnit.pos_moveTo (by omega)]; exact hpos)
    rw [TapeUnit.pos_moveTo (by omega)] at hsecond'
    simp only [hdrive, hfirst, hsecond, hfirst', hsecond', Option.getD_some,
      TapeUnit.mm_moveTo, TapeUnit.moveTo_moveTo, TapeUnit.seekRelative_sharp]
    change Alike (if wordAt s.unit.drive.mm (s.unit.drive.pos + 4) = tapeFileMark then _ else _)
      (if wordAt s.unit.drive.mm (s.unit.drive.pos + 4) = tapeFileMark then _ else _)
    split
    · exact AlikeUpTo.syncEot ⟨rfl, hbus, hsound.rws, hsound.size, hsound.lower, hsound.upper⟩
    · exact AlikeUpTo.syncEot ⟨rfl, hbus, hsound.rws, hsound.size, hsound.lower, hsound.upper⟩

/-- The two READs. -/
theorem read_alike (hdev : AttachedIdentically dev dev')
    (hmode : OnlyModeDisablesProm dev'.diagnosticInterface) (h : TapesAlike s s')
    (hinside : s.ReadInside dev)
    (hportable : s.reading.ReadLoopPortable dev (-s.mtbrc).toNat s.preamble) :
    AgreesUpTo TapesAlike (s.read dev) (s'.read dev') := by
  obtain ⟨bot, eot, -, hstate⟩ := h.state
  have hbus := h.bus.resetBusErrorStatus
  have hsound := h.sound
  generalize s'.bus = bus' at hstate hbus
  subst hstate
  have hword := TapeUnit.readUint32_of_le hinside.preamble
  have hword' := TapeUnit.readUInt32_standing bot eot hinside.preamble
  have hpreamble : s.preamble = wordAt s.unit.drive.mm s.unit.drive.pos := by
    rw [TapeState.preamble, hword]
    rfl
  have hreading : AlikeUpTo s.unit.mts.eot s.reading (SharpTapeState.reading
      ⟨s.unit.standing bot eot, s.unit.mts, s.mtbrc, s.mtcma, bus'⟩) := by
    unfold TapeState.reading SharpTapeState.reading
    simp only [hword, hword']
    exact alikeUpTo_mk rfl hbus ⟨hsound.rws, hsound.size, hsound.lower, hsound.upper⟩
  rw [TapeState.read_eq, SharpTapeState.read_eq]
  simp only [hword', ← hpreamble]
  by_cases hmark : s.preamble = tapeFileMark
  · rw [if_pos hmark, if_pos (show s.preamble = 0xFFFFFFFF from hmark)]
    obtain ⟨hstate, hbus, hsound⟩ := hreading
    have hmarked : AlikeUpTo s.unit.mts.eot (s.reading.onMts ({ · with eof := true }))
        (SharpTapeState.onMts ({ · with eof := true }) (SharpTapeState.reading
          ⟨s.unit.standing bot eot, s.unit.mts, s.mtbrc, s.mtcma, bus'⟩)) := by
      refine ⟨?_, hbus, hsound.rws, hsound.size, hsound.lower, hsound.upper⟩
      rw [hstate]
      rfl
    exact hmarked.syncEot.tapesAlike
  rw [if_neg hmark, if_neg (show ¬s.preamble = 0xFFFFFFFF from hmark)]
  have hloop := readLoop_alike hdev hmode hreading hportable
  rcases hloop.cases with ⟨r, r', hr, hr', hlength, halike⟩ | ⟨e, d, hr, hr'⟩
  · rw [hr, hr']
    obtain ⟨recordLength, t⟩ := r
    obtain ⟨recordLength', t'⟩ := r'
    cases hlength
    exact (readEnd_alike halike fun hzero hnxm =>
      hinside.postamble t (hzero ▸ hr) hnxm).tapesAlike
  · rw [hr, hr']
    trivial

namespace SharpTapeState

/-- `WriteCommand` after it has written the preamble. -/
def writing (s : SharpTapeState δ) : SharpTapeState δ :=
  { s.resetBusErrorStatus.resetBusErrorStatus with
    drive := s.drive.writeUInt32 (BitVec.ofInt 32 (-s.mtbrc)) }

/-- `WriteCommand` after its loop. -/
def writeEnd (recordLength : Word) (s : SharpTapeState δ) : SharpTapeState δ :=
  if s.mts.nxm then s.syncEot
  else if s.mtbrc = 0 then { s with drive := s.drive.writeUInt32 recordLength }.syncEot
  else s.syncEot

/-- `WriteCommand` is its checks, its preamble, its loop and its end. -/
theorem writeCommand_eq (dev : SharpDevices δ) (s : SharpTapeState δ) :
    s.writeCommand dev =
      if s.drive.readOnly = false ∧ WritesRecord s.mtbrc then
        (s.writing.writeLoop dev (-s.mtbrc).toNat).map (writeEnd (BitVec.ofInt 32 (-s.mtbrc)))
      else .ok (s.onMts ({ · with ilc := true })) := by
  unfold writeCommand SharpTapeDrive.writeRecordLength
  cases hwrite : s.drive.readOnly with
  | true =>
    rw [if_pos rfl, if_neg (by simp)]
  | false =>
    rw [if_neg Bool.false_ne_true]
    simp only
    by_cases hshort : -s.mtbrc < 4
    · rw [if_pos hshort, if_neg fun h : _ ∧ WritesRecord _ => absurd h.2.1 (not_le.mpr hshort)]
    rw [if_neg hshort]
    by_cases hwords : -s.mtbrc % 4 ≠ 0
    · rw [if_pos hwords, if_neg fun h : _ ∧ WritesRecord _ => hwords h.2.2]
    rw [if_neg hwords, if_pos ⟨trivial, not_lt.mp hshort, not_not.mp hwords⟩]
    split
    · rename_i e hloop
      have hloop' : s.writing.writeLoop dev (-s.mtbrc).toNat = .error e := hloop
      rw [hloop']
      rfl
    · rename_i t hloop
      have hloop' : s.writing.writeLoop dev (-s.mtbrc).toNat = .ok t := hloop
      rw [hloop']
      change _ = Except.ok (writeEnd _ t)
      unfold writeEnd
      split_ifs <;> rfl

end SharpTapeState

/-- The end of the two WRITEs. -/
theorem writeEnd_alike (recordLength : Word) (hwrite : s.unit.drive.readOnly = false)
    (h : AlikeUpTo eot s s') : Alike (s.writeEnd recordLength) (s'.writeEnd recordLength) := by
  obtain ⟨hstate, hbus, hsound⟩ := h
  generalize s'.bus = bus' at hstate hbus
  subst hstate
  unfold TapeState.writeEnd SharpTapeState.writeEnd
  change Alike (if s.unit.mts.nxm = true then _ else if s.mtbrc = 0 then _ else _)
    (if s.unit.mts.nxm = true then _ else if s.mtbrc = 0 then _ else _)
  split
  · exact AlikeUpTo.syncEot ⟨rfl, hbus, hsound⟩
  split
  · have hreel := TapeUnit.sameReel_writeUint32 recordLength s.unit
    have hdrive : (s.sharp eot bus').drive.writeUInt32 recordLength =
        (s.unit.writeUint32 recordLength).2.sharp := TapeUnit.writeUInt32_sharp hwrite recordLength
    simp only [hdrive]
    exact (alikeUpTo_mk (hreel.mts eot) hbus ⟨hreel.rws.trans hsound.rws, hreel.mmsz ▸ hsound.size,
      hsound.lower, hsound.upper⟩).syncEot
  · exact AlikeUpTo.syncEot ⟨rfl, hbus, hsound⟩

/-- The two WRITEs, unless the count is positive or the tape is at the end of its image. -/
theorem write_alike (hdev : AttachedIdentically dev dev') (h : TapesAlike s s')
    (hpositive : s.unit.drive.readOnly = false → ¬(0 < s.mtbrc ∧ s.mtbrc % 4 = 0))
    (hinside : s.unit.drive.readOnly = false → WritesRecord s.mtbrc →
      s.unit.drive.pos < s.unit.drive.mmsz)
    (hportable : s.unit.drive.readOnly = false → WritesRecord s.mtbrc →
      s.writing.WriteLoopPortable dev (-s.mtbrc).toNat) :
    AgreesUpTo TapesAlike (s.write dev) (s'.writeCommand dev') := by
  obtain ⟨bot, eot, hbot, hstate⟩ := h.state
  have hbus := h.bus
  have hsound := h.sound
  generalize s'.bus = bus' at hstate hbus
  subst hstate
  rw [TapeState.write_eq dev hsound.lower hsound.upper hpositive, SharpTapeState.writeCommand_eq]
  change AgreesUpTo TapesAlike
    (if s.unit.drive.readOnly = false ∧ WritesRecord s.mtbrc then _ else _)
    (if s.unit.drive.readOnly = false ∧ WritesRecord s.mtbrc then _ else _)
  split
  · rename_i hrecord
    obtain ⟨hwrite, hlength⟩ := hrecord
    have hreel := TapeUnit.sameReel_writeUint32 (BitVec.ofInt 32 (-s.mtbrc)) s.unit
    have hwriting : AlikeUpTo s.unit.mts.eot s.writing (SharpTapeState.writing
        ⟨s.unit.standing bot eot, s.unit.mts, s.mtbrc, s.mtcma, bus'⟩) := by
      unfold TapeState.writing SharpTapeState.writing
      simp only [TapeUnit.writeUInt32_standing bot eot hwrite (hinside hwrite hlength)]
      exact alikeUpTo_mk (hreel.mts _) hbus.resetBusErrorStatus.resetBusErrorStatus
        ⟨hreel.rws.trans hsound.rws, hreel.mmsz ▸ hsound.size, hsound.lower, hsound.upper⟩
    have hloop := writeLoop_alike hdev (hreel.readOnly.trans hwrite) hwriting
      (hportable hwrite hlength)
    exact agreesUpTo_map.mpr (hloop.mono fun t t' ht =>
      (writeEnd_alike _ ht.1 ht.2).tapesAlike)
  · exact ⟨⟨bot, eot, rfl, hbot⟩, rfl, rfl, rfl, hbus, hsound.rws, hsound.size, hsound.lower,
      hsound.upper⟩

/-- The two WRITE EOFs, unless the tape is at the end of its image. -/
theorem writeEof_alike (h : TapesAlike s s')
    (hinside : s.unit.drive.readOnly = false → s.unit.drive.pos < s.unit.drive.mmsz) :
    TapesAlike s.writeEof s'.writeEof := by
  obtain ⟨bot, eot, hbot, hstate⟩ := h.state
  have hbus := h.bus
  have hsound := h.sound
  generalize s'.bus = bus' at hstate hbus
  subst hstate
  unfold TapeState.writeEof SharpTapeState.writeEof
  change TapesAlike (if s.unit.drive.readOnly = true then _ else _)
    (if s.unit.drive.readOnly = true then _ else _)
  cases hwrite : s.unit.drive.readOnly with
  | true =>
    exact ⟨⟨bot, eot, rfl, hbot⟩, rfl, rfl, rfl, hbus, hsound.rws, hsound.size, hsound.lower,
      hsound.upper⟩
  | false =>
    rw [if_neg Bool.false_ne_true, if_neg Bool.false_ne_true]
    have hreel := TapeUnit.sameReel_writeUint32 tapeFileMark s.unit
    have hdrive : (s.unit.standing bot eot).writeFileMark = s.unit.writeFileMark.2.sharp :=
      TapeUnit.writeUInt32_standing bot eot hwrite (hinside hwrite) tapeFileMark
    have hmark : Alike { s with unit := s.unit.writeFileMark.2 } (SharpTapeState.syncEot
        ⟨s.unit.writeFileMark.2.sharp, s.unit.mts, s.mtbrc, s.mtcma, bus'⟩) :=
      (alikeUpTo_mk (hreel.mts s.unit.mts.eot) hbus ⟨hreel.rws.trans hsound.rws,
        hreel.mmsz ▸ hsound.size, hsound.lower, hsound.upper⟩).syncEot
    simp only [hdrive]
    obtain ⟨hstate, hbus, hsound⟩ := hmark
    refine Alike.tapesAlike ⟨?_, hbus, hsound.rws, hsound.size, hsound.lower, hsound.upper⟩
    rw [hstate]
    rfl

end Usim
