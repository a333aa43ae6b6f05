import Usim.TapeDrive
import Usim.Unibus

/-!
# The tape controller

`tape-controller.c`: the registers on the Unibus, the commands, and the turn of
the thread that executes one. A command moves its data through the bus adaptor.
The thread and the processor share the registers; here a turn of the thread is
one step, and the data of a command does not go to the registers of the
controller itself.
-/

namespace Usim

open Lib

/-- The command register `mtc`. -/
structure Mtc where
  /-- Density. -/
  den8 : Bool
  /-- Density. -/
  den5 : Bool
  /-- Lateral parity. -/
  pevn : Bool
  /-- The selected drive. -/
  slt : Fin 8
  /-- The controller is ready. -/
  cur : Bool
  /-- Interrupt enable. -/
  intEnb : Bool
  /-- `fun`, the command. -/
  function : Fin 8
  deriving DecidableEq, Repr

/-- The globals of `tape-controller.c`, and the drives. -/
structure TapeController where
  /-- `mts`. -/
  mts : Mts
  /-- `mtc`. -/
  mtc : Mtc
  /-- `mtbrc`, an `int16_t`. -/
  mtbrc : ℤ
  /-- `mtcma`. -/
  mtcma : Word
  /-- `mtd`. -/
  mtd : HalfWord
  /-- `mtrd`. -/
  mtrd : HalfWord
  /-- `tape_drives[NUMBER_OF_TAPE_DRIVES]`. -/
  drives : Fin 8 → TapeDrive

/-- The tape controller and the busses. -/
structure TapeSystem (δ : Type) where
  /-- The controller. -/
  controller : TapeController
  /-- The busses. -/
  bus : BusGlobals δ

/-- What a command changes: the selected drive with the status register, the two
counters, and the busses. -/
structure TapeState (δ : Type) where
  /-- The selected drive, and the status register. -/
  unit : TapeUnit
  /-- `mtbrc`. -/
  mtbrc : ℤ
  /-- `mtcma`. -/
  mtcma : Word
  /-- The busses. -/
  bus : BusGlobals δ

/-- `UNIBUS_INTERRUPT_VECTOR`. -/
def tapeInterruptVector : Word := 0o224

namespace Mts

/-- `tape_controller_is_mtc_err`. -/
def isMtcErr (m : Mts) : Bool := m.ilc || m.eof || m.eot || m.rle || m.bte || m.nxm

/-- `tape_controller_reset_mtc_err`. -/
def resetMtcErr (m : Mts) : Mts :=
  { m with ilc := false, eof := false, eot := false, rle := false, bte := false, nxm := false }

end Mts

/-- A bit of a register. -/
def flagBit (b : Bool) (k : ℕ) : HalfWord := if b then 1 <<< k else 0

namespace TapeController

/-- `SELECTED_DRIVE()`. -/
def selectedDrive (c : TapeController) : TapeDrive := c.drives c.mtc.slt

/-- `tape_controller_encode_mts`. The bits that are always 0 are left out. -/
def encodeMts (c : TapeController) : HalfWord :=
  let p := c.selectedDrive
  flagBit c.mts.ilc 15 ||| flagBit c.mts.eof 14 ||| flagBit c.mts.eot 10 ||| flagBit c.mts.rle 9 |||
    flagBit c.mts.bte 8 ||| flagBit c.mts.nxm 7 ||| flagBit c.mts.selr 6 ||| flagBit p.bot 5 |||
    flagBit p.readOnly 2 ||| flagBit p.rws 1 ||| flagBit p.ready 0

/-- `tape_controller_encode_mtc`. -/
def encodeMtc (c : TapeController) : HalfWord :=
  flagBit c.mts.isMtcErr 15 ||| flagBit c.mtc.den8 14 ||| flagBit c.mtc.den5 13 |||
    flagBit c.mtc.pevn 11 ||| (BitVec.ofNat 16 c.mtc.slt <<< 8) ||| flagBit c.mtc.cur 7 |||
    flagBit c.mtc.intEnb 6 ||| (((c.mtcma >>> 16) &&& 0b11) <<< 4).setWidth 16 |||
    (BitVec.ofNat 16 c.mtc.function <<< 1)

/-- `tape_controller_bus_reset`. -/
def busReset (c : TapeController) : TapeController :=
  { c with
    mts := ⟨false, false, false, false, false, false, false⟩
    mtc := ⟨false, false, false, 0, true, false, 0⟩
    mtbrc := 0 }

end TapeController

/-- `tape_controller_assert_unibus_interrupt`. -/
def tapeAssertUnibusInterrupt {δ : Type} (intEnb : Bool) (b : BusGlobals δ) : BusGlobals δ :=
  if intEnb then b.onInterrupts (assertUnibusInterrupt tapeInterruptVector) else b

namespace TapeState

variable {δ : Type} (dev : BusDevices δ)

/-- Change the status register. -/
def onMts (f : Mts → Mts) (s : TapeState δ) : TapeState δ := { s with unit := s.unit.onMts f }

/-- An error of the bus, for which a transfer stops. -/
def busError (b : BusGlobals δ) : Bool := b.interface.isUnibusMapError || b.interface.isUnibusNxm

/-- The loop of `tape_controller_read`, with the length still to be read. A byte that the
image does not have is 0 here; the variables are not initialised. -/
def readLoop : ℕ → Word → TapeState δ → Except ErrCall (Word × TapeState δ)
  | 0, recordLength, s => .ok (recordLength, s)
  | fuel + 1, recordLength, s =>
    if s.mtbrc < 0 ∧ recordLength > 0 then
      let r1 := s.unit.readUint8
      let r2 := r1.2.readUint8
      let recordLength := recordLength - 1 - 1
      let data : HalfWord := ((r2.1.getD 0).setWidth 16 <<< 8) ||| (r1.1.getD 0).setWidth 16
      match busAdaptorUnibusRw dev true s.mtcma data s.bus with
      | .error e => .error e
      | .ok (_, bus) =>
        let s := { s with unit := r2.2, mtbrc := s.mtbrc + 1 + 1, bus := bus }
        if busError bus then .ok (recordLength, s.onMts ({ · with nxm := true }))
        else readLoop fuel recordLength { s with mtcma := s.mtcma + 2 }
    else .ok (recordLength, s)

/-- `tape_controller_read`. -/
def read (s : TapeState δ) : Except ErrCall (TapeState δ) :=
  let s := { s with bus := s.bus.onInterface BusInterface.resetBusErrorStatus }
  let r := s.unit.readUint32
  let s := { s with unit := r.2 }
  let preamble := r.1.getD 0
  if preamble = tapeFileMark then .ok (s.onMts ({ · with eof := true }))
  else
    -- every turn counts `mtbrc` up, so that there are no more turns than this
    match readLoop dev (-s.mtbrc).toNat preamble s with
    | .error e => .error e
    | .ok (recordLength, s) =>
      if s.unit.mts.nxm then .ok s
      else if recordLength > 0 then .ok (s.onMts ({ · with rle := true }))
      else
        let r := s.unit.readUint32.2.readUint32
        if r.1.getD 0 = tapeFileMark then
          .ok { s with unit := r.2.onMts ({ · with eof := true }) }
        else .ok { s with unit := r.2.seek (-4) .cur }

/-- The loop of `tape_controller_write`. -/
def writeLoop : ℕ → TapeState δ → Except ErrCall (TapeState δ)
  | 0, s => .ok s
  | fuel + 1, s =>
    if s.mtbrc < 0 then
      match busAdaptorUnibusRw dev false s.mtcma 0 s.bus with
      | .error e => .error e
      | .ok (data, bus) =>
        let s := { s with bus := bus }
        if busError bus then .ok (s.onMts ({ · with nxm := true }))
        else
          let v1 : Byte := (data &&& 0xFF).setWidth 8
          let v2 : Byte := ((data >>> 8) &&& 0xFF).setWidth 8
          writeLoop fuel { s with
            unit := ((s.unit.writeUint8 v1).2.writeUint8 v2).2
            mtbrc := s.mtbrc + 1 + 1
            mtcma := s.mtcma + 2 }
    else .ok s

/-- `tape_controller_write`. -/
def write (s : TapeState δ) : Except ErrCall (TapeState δ) :=
  if s.unit.drive.readOnly then .ok (s.onMts ({ · with ilc := true }))
  else
    -- a `size_t`
    let recordLength : BitVec 64 := BitVec.ofInt 64 (-s.mtbrc)
    if recordLength < 4 then .ok (s.onMts ({ · with ilc := true }))
    else if recordLength &&& 0x3 ≠ 0 then .ok (s.onMts ({ · with ilc := true }))
    else
      let s := { s with
        unit := (s.unit.writeRecordLength recordLength).2
        bus := s.bus.onInterface BusInterface.resetBusErrorStatus }
      match writeLoop dev (-s.mtbrc).toNat s with
      | .error e => .error e
      | .ok s =>
        if s.unit.mts.nxm then .ok s
        else if s.mtbrc = 0 then
          .ok { s with unit := (s.unit.writeRecordLength recordLength).2 }
        else .ok s

/-- `tape_controller_write_eof`. -/
def writeEof (s : TapeState δ) : TapeState δ :=
  if s.unit.drive.readOnly then s.onMts ({ · with ilc := true })
  else { s with unit := s.unit.writeFileMark.2.onMts ({ · with eof := true }) }

/-- The loop of `tape_controller_space_forward` while `mtbrc` is negative: as many turns as
records are asked for. -/
def spaceForwardLoop : ℕ → TapeState δ → TapeState δ
  | 0, s => s
  | n + 1, s =>
    let unit := s.unit.spaceForward
    if unit.mts.eof || unit.mts.eot then { s with unit := unit }
    else spaceForwardLoop n { s with unit := unit, mtbrc := s.mtbrc + 1 }

/-- The loop of `tape_controller_space_forward` over a file. -/
def spaceForwardFile : ℕ → TapeState δ → TapeState δ
  | 0, s => s
  | fuel + 1, s =>
    if s.unit.mts.eof || s.unit.mts.eot then s
    else spaceForwardFile fuel { s with unit := s.unit.spaceForward }

/-- `tape_controller_space_forward`. -/
def spaceForward (s : TapeState δ) : TapeState δ :=
  if s.unit.mts.eot then s
  else if s.mtbrc = 0 then spaceForwardFile (s.unit.drive.mmsz + 1) s
  else spaceForwardLoop (-s.mtbrc).toNat s

/-- The loop of `tape_controller_space_reverse` while `mtbrc` is negative. -/
def spaceReverseLoop : ℕ → TapeState δ → TapeState δ
  | 0, s => s
  | n + 1, s =>
    let unit := s.unit.spaceReverse true
    if unit.mts.eof || unit.drive.bot then { s with unit := unit }
    else spaceReverseLoop n { s with unit := unit, mtbrc := s.mtbrc + 1 }

/-- The loop of `tape_controller_space_reverse` over a file. -/
def spaceReverseFile : ℕ → TapeState δ → TapeState δ
  | 0, s => s
  | fuel + 1, s =>
    if s.unit.mts.eof || s.unit.drive.bot then s
    else spaceReverseFile fuel { s with unit := s.unit.spaceReverse true }

/-- `tape_controller_space_reverse`. -/
def spaceReverse (s : TapeState δ) : TapeState δ :=
  if s.unit.drive.bot then s
  else
    let unit := s.unit.spaceReverse false
    if s.mtbrc = 0 then spaceReverseFile (s.unit.drive.mmsz + 1) { s with unit := unit }
    else
      -- an `int16_t`
      let mtbrc := Int.bmod (s.mtbrc + 1) (2 ^ 16)
      if unit.drive.bot then { s with unit := unit, mtbrc := mtbrc }
      else spaceReverseLoop (-mtbrc).toNat { s with unit := unit, mtbrc := mtbrc }

/-- `tape_controller_rewind`. -/
def rewind (intEnb : Bool) (s : TapeState δ) : TapeState δ :=
  let unit := s.unit.rewind
  if unit.drive.bot then
    { s with unit := unit, bus := tapeAssertUnibusInterrupt intEnb s.bus }
  else { s with unit := unit }

/-- The `switch` of `tape_controller_go`. -/
def command (mtc : Mtc) (s : TapeState δ) : Except ErrCall (TapeState δ) :=
  match mtc.function with
  | 0 => .ok { s with unit := s.unit.rewindAndOffline }
  | 1 => s.read dev
  | 2 | 6 => s.write dev
  | 3 => .ok s.writeEof
  | 4 => .ok s.spaceForward
  | 5 => .ok s.spaceReverse
  | 7 => .ok (s.rewind mtc.intEnb)

end TapeState

namespace TapeSystem

variable {δ : Type} (dev : BusDevices δ)

/-- Change the controller. -/
def onController (f : TapeController → TapeController) (s : TapeSystem δ) : TapeSystem δ :=
  { s with controller := f s.controller }

/-- `tape_controller_assert_unibus_interrupt`. -/
def assertInterrupt (s : TapeSystem δ) : TapeSystem δ :=
  { s with bus := tapeAssertUnibusInterrupt s.controller.mtc.intEnb s.bus }

/-- What a command finds: the selected drive, not ready and with its density set. -/
def start (s : TapeSystem δ) : TapeState δ where
  unit := TapeUnit.setBpi (if s.controller.mtc.den8 then 800 else 1600)
    ⟨{ s.controller.selectedDrive with ready := false }, s.controller.mts⟩
  mtbrc := s.controller.mtbrc
  mtcma := s.controller.mtcma
  bus := s.bus

/-- What a command leaves: the selected drive, ready again. -/
def finish (s : TapeSystem δ) (t : TapeState δ) : TapeSystem δ where
  controller := { s.controller with
    mts := t.unit.mts
    mtbrc := t.mtbrc
    mtcma := t.mtcma
    drives := Function.update s.controller.drives s.controller.mtc.slt
      { t.unit.drive with ready := true } }
  bus := t.bus

/-- `tape_controller_go`. -/
def go (s : TapeSystem δ) : Except ErrCall (TapeSystem δ) :=
  let s := s.onController fun c => { c with mts := c.mts.resetMtcErr }
  if !s.controller.mts.selr then
    .ok (s.onController fun c => { c with mts.ilc := true })
  else (s.start.command dev s.controller.mtc).map s.finish

/-- A turn of `tape_controller_run`, after the broadcast of `go`. -/
def run (s : TapeSystem δ) : Except ErrCall (TapeSystem δ) :=
  if !s.controller.mtc.cur then
    .ok (s.onController fun c => { c with mts.ilc := true }).assertInterrupt
  else
    (go dev (s.onController fun c => { c with mtc.cur := false })).map fun s =>
      (s.onController fun c => { c with mtc.cur := true }).assertInterrupt

/-- `tape_controller_update_mtc`, and whether it broadcasts `go`. -/
def updateMtc (v : HalfWord) (s : TapeSystem δ) : Bool × TapeSystem δ :=
  let powerClear := v.getLsbD 12
  let ea : Word := ((v >>> 4) &&& 0b11).setWidth 32
  let go := v.getLsbD 0
  let s := s.onController fun c =>
    { c with
      mtc := { c.mtc with
        den8 := v.getLsbD 14
        den5 := v.getLsbD 13
        pevn := v.getLsbD 11
        slt := Fin.ofNat 8 (v >>> 8).toNat
        intEnb := v.getLsbD 6
        function := Fin.ofNat 8 (v >>> 1).toNat }
      mtcma := (c.mtcma &&& (0x0000FFFF : Word)) ||| (ea <<< 16) }
  let s := s.onController fun c => { c with mts.selr := c.selectedDrive.online }
  if powerClear then (false, s.onController TapeController.busReset)
  else if go then (true, s)
  else (false, s.assertInterrupt)

/-- `tape_controller_unibus_read`. -/
def unibusRead (uaddr : Word) (s : TapeSystem δ) : Except ErrCall HalfWord :=
  let c := s.controller
  if uaddr = 0o772520 then .ok c.encodeMts
  else if uaddr = 0o772522 then .ok c.encodeMtc
  else if uaddr = 0o772524 then .ok (BitVec.ofInt 16 c.mtbrc)
  else if uaddr = 0o772526 then .ok ((c.mtcma &&& (0x0000FFFF : Word)).setWidth 16)
  else if uaddr = 0o772530 then .ok c.mtd
  else if uaddr = 0o772532 then .ok c.mtrd
  else .error ⟨"tape: unknown read uaddr=%06o\n", [uaddr.toNat]⟩

/-- `tape_controller_unibus_write`, and whether it broadcasts `go`. -/
def unibusWrite (uaddr : Word) (v : HalfWord) (s : TapeSystem δ) :
    Except ErrCall (Bool × TapeSystem δ) :=
  if uaddr = 0o772522 then .ok (s.updateMtc v)
  else if uaddr = 0o772524 then .ok (false, s.onController ({ · with mtbrc := v.toInt }))
  else if uaddr = 0o772526 then
    .ok (false, s.onController fun c =>
      { c with mtcma := (c.mtcma &&& (0xFFFF0000 : Word)) ||| v.setWidth 32 })
  else if uaddr = 0o772532 then .ok (false, s.onController ({ · with mtrd := v }))
  else .error ⟨"tape: unknown write uaddr=%06o\n", [uaddr.toNat]⟩

end TapeSystem

end Usim
