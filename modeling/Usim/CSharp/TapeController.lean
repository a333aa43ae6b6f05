import Usim.CSharp.BusAdaptor
import Usim.TapeController

/-!
# The tape controller of the C# port

The classes `TapeDrive` and `TapeController`, in which a command is executed by the
write that gives it. The records for the status and the command register are those
of the C program, as the fields are the same.
-/

namespace Usim

open Lib

/-- The class `TapeDrive`. A drive is known by its number. -/
structure SharpTapeDrive where
  /-- `Online`. -/
  online : Bool
  /-- `ReadOnly`. -/
  readOnly : Bool
  /-- `Bot`. -/
  bot : Bool
  /-- `Eot`. -/
  eot : Bool
  /-- `Rws`. -/
  rws : Bool
  /-- `Pos`. -/
  pos : ℕ
  /-- `_lengthFt`. -/
  lengthFt : ℤ
  /-- `_fileSize`. -/
  fileSize : ℕ
  /-- `_eotPos`. -/
  eotPos : ℤ
  /-- `_file` is not null. -/
  opened : Bool
  /-- The bytes of the file. -/
  image : Medium

/-- The arguments of `Configure`: the length, whether the mode is "ro", and the file with its
size. -/
structure TapeConfig where
  lengthFt : ℤ
  readOnly : Bool
  mmsz : ℕ
  image : Medium

namespace SharpTapeDrive

/-- `SetBpi`. -/
def setBpi (bpi : Word) (p : SharpTapeDrive) : SharpTapeDrive :=
  { p with eotPos := (p.lengthFt - 4) * 12 * bpi.toNat }

/-- `Seek`. -/
def seek (value : ℤ) (relative : Bool) (p : SharpTapeDrive) : SharpTapeDrive :=
  let pos : ℤ := if relative then p.pos + value else value
  let pos : ℕ := if pos < 0 then 0 else if pos > p.fileSize then p.fileSize else pos.toNat
  { p with
    pos := pos
    bot := pos = 0
    eot := decide ((pos : ℤ) ≥ p.eotPos) }

/-- `SeekAbsolute`. -/
def seekAbsolute (pos : ℤ) (p : SharpTapeDrive) : SharpTapeDrive := p.seek pos false

/-- `SeekRelative`. -/
def seekRelative (delta : ℤ) (p : SharpTapeDrive) : SharpTapeDrive := p.seek delta true

/-- `new TapeDrive(unit)`. -/
def init : SharpTapeDrive where
  online := false
  readOnly := false
  bot := false
  eot := false
  rws := false
  pos := 0
  lengthFt := 0
  fileSize := 0
  eotPos := 0
  opened := false
  image := fun _ => 0

/-- `Configure`, with a mode that is "ro" or "rw" and a file that can be opened. -/
def configure (config : TapeConfig) (p : SharpTapeDrive) : SharpTapeDrive :=
  let p := { p with online := false }
  if config.lengthFt ≤ 0 then p
  else
    let p := { p with lengthFt := config.lengthFt, readOnly := config.readOnly }
    if (config.mmsz : ℤ) < p.lengthFt * 12 * 1600 then p
    else
      { setBpi 1600 { p with opened := true, image := config.image, fileSize := config.mmsz } with
        pos := 0
        bot := true
        online := true }

/-- `ReadByte`. -/
def readByte (p : SharpTapeDrive) : Option Byte × SharpTapeDrive :=
  if !p.opened ∨ p.pos ≥ p.fileSize then (none, p)
  else (some (p.image p.pos), p.seekRelative 1)

/-- `WriteByte`. -/
def writeByte (value : Byte) (p : SharpTapeDrive) : Bool × SharpTapeDrive :=
  if !p.opened ∨ p.readOnly ∨ p.pos ≥ p.fileSize then (false, p)
  else (true, { p with image := Function.update p.image p.pos value }.seekRelative 1)

/-- The loop of `ReadUInt32`, with the bytes still to be read. -/
def readBytes : ℕ → ℕ → Word → SharpTapeDrive → Word × SharpTapeDrive
  | 0, _, value, p => (value, p)
  | n + 1, i, value, p =>
    match p.readByte with
    | (none, p) => (value, p)
    | (some b, p) => readBytes n (i + 1) (value ||| (b.setWidth 32 <<< (i * 8))) p

/-- `ReadUInt32`: the value, as far as it could be read. No caller looks at the result. -/
def readUInt32 (p : SharpTapeDrive) : Word × SharpTapeDrive := readBytes 4 0 0 p

/-- The loop of `WriteUInt32`. -/
def writeBytes : ℕ → ℕ → Word → SharpTapeDrive → SharpTapeDrive
  | 0, _, _, p => p
  | n + 1, i, value, p =>
    match p.writeByte ((value >>> (i * 8)).setWidth 8) with
    | (false, p) => p
    | (true, p) => writeBytes n (i + 1) value p

/-- `WriteUInt32`. No caller looks at the result. -/
def writeUInt32 (value : Word) (p : SharpTapeDrive) : SharpTapeDrive := writeBytes 4 0 value p

/-- `WriteRecordLength`. -/
def writeRecordLength (length : Word) (p : SharpTapeDrive) : SharpTapeDrive := p.writeUInt32 length

/-- `WriteFileMark`. -/
def writeFileMark (p : SharpTapeDrive) : SharpTapeDrive := p.writeUInt32 0xFFFFFFFF

/-- `RewindAndOffline`. -/
def rewindAndOffline (p : SharpTapeDrive) : SharpTapeDrive :=
  let p := { p with rws := true }
  let p := p.seekAbsolute 0
  { p with rws := false, eot := false, opened := false, online := false }

end SharpTapeDrive

/-- The class `TapeController`. -/
structure SharpTapeController where
  /-- `_ilc`, `_eof`, `_eot`, `_rle`, `_bte`, `_nxm`, `_selr`. -/
  mts : Mts
  /-- `_den8`, `_den5`, `_pevn`, `_slt`, `_cur`, `_intEnb`, `_fun`. -/
  mtc : Mtc
  /-- `_mtbrc`, a `short`. -/
  mtbrc : ℤ
  /-- `_mtcma`. -/
  mtcma : Word
  /-- `_mtd`. -/
  mtd : HalfWord
  /-- `_mtrd`. -/
  mtrd : HalfWord
  /-- `_units`. -/
  units : Fin 8 → SharpTapeDrive
  /-- `_ready`. -/
  ready : Fin 8 → Bool

/-- The tape controller of the port and the objects behind its bus adaptor. -/
structure SharpTapeSystem (δ : Type) where
  controller : SharpTapeController
  bus : SharpGlobals δ

/-- What a command of the port changes. -/
structure SharpTapeState (δ : Type) where
  /-- The selected drive. -/
  drive : SharpTapeDrive
  /-- The status register. -/
  mts : Mts
  /-- `_mtbrc`. -/
  mtbrc : ℤ
  /-- `_mtcma`. -/
  mtcma : Word
  /-- The objects behind the bus adaptor. -/
  bus : SharpGlobals δ

namespace SharpTapeController

/-- `SelectedDrive`. -/
def selectedDrive (c : SharpTapeController) : SharpTapeDrive := c.units c.mtc.slt

/-- `EncodeMts`. -/
def encodeMts (c : SharpTapeController) : HalfWord :=
  let p := c.selectedDrive
  flagBit c.mts.ilc 15 ||| flagBit c.mts.eof 14 ||| flagBit c.mts.eot 10 ||| flagBit c.mts.rle 9 |||
    flagBit c.mts.bte 8 ||| flagBit c.mts.nxm 7 ||| flagBit c.mts.selr 6 ||| flagBit p.bot 5 |||
    flagBit p.readOnly 2 ||| flagBit p.rws 1 ||| flagBit (c.ready c.mtc.slt) 0

/-- `EncodeMtc`. -/
def encodeMtc (c : SharpTapeController) : HalfWord :=
  flagBit c.mts.isMtcErr 15 ||| flagBit c.mtc.den8 14 ||| flagBit c.mtc.den5 13 |||
    flagBit c.mtc.pevn 11 ||| (BitVec.ofNat 16 c.mtc.slt <<< 8) ||| flagBit c.mtc.cur 7 |||
    flagBit c.mtc.intEnb 6 ||| (((c.mtcma >>> 16) &&& 0x3) <<< 4).setWidth 16 |||
    (BitVec.ofNat 16 c.mtc.function <<< 1)

/-- `BusReset`. -/
def busReset (c : SharpTapeController) : SharpTapeController :=
  { c with
    mts := ⟨false, false, false, false, false, false, false⟩
    mtc := ⟨false, false, false, 0, true, false, 0⟩
    mtbrc := 0 }

end SharpTapeController

/-- `AssertUnibusInterrupt`. -/
def SharpGlobals.assertUnibusInterrupt {δ : Type} (vector : Word) (b : SharpGlobals δ) :
    SharpGlobals δ :=
  if b.dev.interruptStatusReg &&& 0x400 ≠ 0 then
    b.setInterruptStatusReg
      ((b.dev.interruptStatusReg &&& ~~~0x3FC) ||| 0x8000 ||| (vector &&& 0x3FC))
  else b

/-- `AssertInterruptIfEnabled`. -/
def SharpGlobals.tapeInterruptIfEnabled {δ : Type} (intEnb : Bool) (b : SharpGlobals δ) :
    SharpGlobals δ :=
  if intEnb then b.assertUnibusInterrupt 0x94 else b

/-- A diagnostic interface called with a local variable for `promDisabled`. -/
def SharpPort.keepingProm {w : ℕ} {δ : Type} (port : SharpPort w δ) : SharpPort w δ where
  read := port.read
  write := fun register v b =>
    (port.write register v b).map ({ · with promdisabled := b.promdisabled })

namespace SharpTapeState

variable {δ : Type} (dev : SharpDevices δ)

/-- Change the status register. -/
def onMts (f : Mts → Mts) (s : SharpTapeState δ) : SharpTapeState δ := { s with mts := f s.mts }

/-- `_eot = p.Eot`. -/
def syncEot (s : SharpTapeState δ) : SharpTapeState δ := { s with mts.eot := s.drive.eot }

/-- `ResetBusErrorStatus`. -/
def resetBusErrorStatus (s : SharpTapeState δ) : SharpTapeState δ :=
  { s with bus := SharpBusInterface.update ({ · with busErrorStatus := 0 }) s.bus }

/-- `IsUnibusMapError` or `IsUnibusNxm`. -/
def busError (b : SharpGlobals δ) : Bool :=
  decide (b.dev.busInterface.busErrorStatus &&& 0x20 ≠ 0) ||
    decide (b.dev.busInterface.busErrorStatus &&& 0x8 ≠ 0)

/-- The loop of `Read(TapeDrive)`. -/
def readLoop : ℕ → Word → SharpTapeState δ → Except Thrown (Word × SharpTapeState δ)
  | 0, recordLength, s => .ok (recordLength, s)
  | fuel + 1, recordLength, s =>
    if s.mtbrc < 0 ∧ recordLength > 0 then
      let r1 := s.drive.readByte
      let r2 := r1.2.readByte
      let recordLength := recordLength - 1 - 1
      let data : HalfWord := ((r2.1.getD 0).setWidth 16 <<< 8) ||| (r1.1.getD 0).setWidth 16
      match SharpBusAdaptor.writeUnibus
          { dev with diagnosticInterface := dev.diagnosticInterface.keepingProm }
          s.mtcma (data.setWidth 32) s.bus with
      | .error e => .error e
      | .ok bus =>
        let s := { s with drive := r2.2, mtbrc := s.mtbrc + 1 + 1, bus := bus }
        if busError bus then .ok (recordLength, s.onMts ({ · with nxm := true }))
        else readLoop fuel recordLength { s with mtcma := s.mtcma + 2 }
    else .ok (recordLength, s)

/-- `Read(TapeDrive)`. -/
def read (s : SharpTapeState δ) : Except Thrown (SharpTapeState δ) :=
  let s := s.resetBusErrorStatus
  let r := s.drive.readUInt32
  let s := { s with drive := r.2 }
  let preamble := r.1
  if preamble = 0xFFFFFFFF then .ok (s.onMts ({ · with eof := true })).syncEot
  else
    match readLoop dev (-s.mtbrc).toNat preamble s with
    | .error e => .error e
    | .ok (recordLength, s) =>
      if s.mts.nxm then .ok s.syncEot
      else if recordLength > 0 then .ok (s.onMts ({ · with rle := true })).syncEot
      else
        let r := s.drive.readUInt32.2.readUInt32
        if r.1 = 0xFFFFFFFF then
          .ok ({ s with drive := r.2 }.onMts ({ · with eof := true })).syncEot
        else .ok { s with drive := r.2.seekRelative (-4) }.syncEot

/-- The loop of `WriteCommand`. -/
def writeLoop : ℕ → SharpTapeState δ → Except Thrown (SharpTapeState δ)
  | 0, s => .ok s
  | fuel + 1, s =>
    if s.mtbrc < 0 then
      match SharpBusAdaptor.readUnibus dev s.mtcma s.bus with
      | .error e => .error e
      | .ok (data32, bus) =>
        let data : HalfWord := data32.setWidth 16
        let s := { s with bus := bus }
        if busError bus then .ok (s.onMts ({ · with nxm := true }))
        else
          let v1 : Byte := (data &&& 0xFF).setWidth 8
          let v2 : Byte := ((data >>> 8) &&& 0xFF).setWidth 8
          writeLoop fuel { s with
            drive := ((s.drive.writeByte v1).2.writeByte v2).2
            mtbrc := s.mtbrc + 1 + 1
            mtcma := s.mtcma + 2 }
    else .ok s

/-- `WriteCommand`. -/
def writeCommand (s : SharpTapeState δ) : Except Thrown (SharpTapeState δ) :=
  if s.drive.readOnly then .ok (s.onMts ({ · with ilc := true }))
  else
    let recordLength : ℤ := -s.mtbrc
    if recordLength < 4 then .ok (s.onMts ({ · with ilc := true }))
    else if recordLength % 4 ≠ 0 then .ok (s.onMts ({ · with ilc := true }))
    else
      let s := s.resetBusErrorStatus
      let s := { s with drive := s.drive.writeRecordLength (BitVec.ofInt 32 recordLength) }
      let s := s.resetBusErrorStatus
      match writeLoop dev (-s.mtbrc).toNat s with
      | .error e => .error e
      | .ok s =>
        if s.mts.nxm then .ok s.syncEot
        else if s.mtbrc = 0 then
          .ok { s with drive := s.drive.writeRecordLength (BitVec.ofInt 32 recordLength) }.syncEot
        else .ok s.syncEot

/-- `WriteEof`. -/
def writeEof (s : SharpTapeState δ) : SharpTapeState δ :=
  if s.drive.readOnly then s.onMts ({ · with ilc := true })
  else ({ s with drive := s.drive.writeFileMark }.syncEot).onMts ({ · with eof := true })

/-- `SpaceForwardOneRecord`. -/
def spaceForwardOneRecord (s : SharpTapeState δ) : SharpTapeState δ :=
  let r := s.drive.readUInt32
  let seekAmount := r.1 + 4
  let r := (r.2.seekRelative seekAmount.toNat).readUInt32
  if r.1 = 0xFFFFFFFF then ({ s with drive := r.2 }.onMts ({ · with eof := true })).syncEot
  else { s with drive := r.2.seekRelative (-4) }.syncEot

/-- The loop of `SpaceForward` while `_mtbrc` is negative. -/
def spaceForwardLoop : ℕ → SharpTapeState δ → SharpTapeState δ
  | 0, s => s
  | n + 1, s =>
    let s := s.spaceForwardOneRecord
    if s.mts.eof || s.mts.eot then s else spaceForwardLoop n { s with mtbrc := s.mtbrc + 1 }

/-- The loop of `SpaceForward` over a file. -/
def spaceForwardFile : ℕ → SharpTapeState δ → SharpTapeState δ
  | 0, s => s
  | fuel + 1, s =>
    if s.mts.eof || s.mts.eot then s else spaceForwardFile fuel s.spaceForwardOneRecord

/-- `SpaceForward`. -/
def spaceForward (s : SharpTapeState δ) : SharpTapeState δ :=
  if s.mts.eot then s
  else if s.mtbrc = 0 then spaceForwardFile (s.drive.fileSize + 1) s
  else spaceForwardLoop (-s.mtbrc).toNat s

/-- `SpaceReverseOneRecord`. -/
def spaceReverseOneRecord (stopAtFilemark : Bool) (s : SharpTapeState δ) : SharpTapeState δ :=
  let r := (s.drive.seekRelative (-4)).readUInt32
  if r.1 = 0xFFFFFFFF ∧ stopAtFilemark then
    ({ s with drive := r.2 }.onMts ({ · with eof := true })).syncEot
  else
    let r := if r.1 = 0xFFFFFFFF then (r.2.seekRelative (-8)).readUInt32 else r
    let recordLength := r.1
    { s with drive := r.2.seekRelative (-((recordLength.toNat : ℤ) + 8)) }.syncEot

/-- The loop of `SpaceReverse` while `_mtbrc` is negative. -/
def spaceReverseLoop : ℕ → SharpTapeState δ → SharpTapeState δ
  | 0, s => s
  | n + 1, s =>
    let s := s.spaceReverseOneRecord true
    if s.mts.eof || s.drive.bot then s else spaceReverseLoop n { s with mtbrc := s.mtbrc + 1 }

/-- The loop of `SpaceReverse` over a file. -/
def spaceReverseFile : ℕ → SharpTapeState δ → SharpTapeState δ
  | 0, s => s
  | fuel + 1, s =>
    if s.mts.eof || s.drive.bot then s else spaceReverseFile fuel (s.spaceReverseOneRecord true)

/-- `SpaceReverse`. -/
def spaceReverse (s : SharpTapeState δ) : SharpTapeState δ :=
  if s.drive.bot then s
  else if s.mtbrc = 0 then
    spaceReverseFile (s.drive.fileSize + 1) (s.spaceReverseOneRecord false)
  else
    let s := s.spaceReverseOneRecord false
    -- a `short`
    let s := { s with mtbrc := Int.bmod (s.mtbrc + 1) (2 ^ 16) }
    if s.drive.bot then s else spaceReverseLoop (-s.mtbrc).toNat s

/-- `Rewind`. -/
def rewind (intEnb : Bool) (s : SharpTapeState δ) : SharpTapeState δ :=
  let s := { s with drive := s.drive.seekAbsolute 0, mts.eot := false }
  if s.drive.bot then { s with bus := s.bus.tapeInterruptIfEnabled intEnb } else s

/-- `Offline`. -/
def offline (s : SharpTapeState δ) : SharpTapeState δ :=
  { s with drive := s.drive.rewindAndOffline }.syncEot

/-- The `switch` of `Go`. -/
def command (mtc : Mtc) (s : SharpTapeState δ) : Except Thrown (SharpTapeState δ) :=
  match mtc.function with
  | 0 => .ok s.offline
  | 1 => s.read dev
  | 2 | 6 => s.writeCommand dev
  | 3 => .ok s.writeEof
  | 4 => .ok s.spaceForward
  | 5 => .ok s.spaceReverse
  | 7 => .ok (s.rewind mtc.intEnb)

end SharpTapeState

namespace SharpTapeSystem

variable {δ : Type} (dev : SharpDevices δ)

/-- Change the controller. -/
def onController (f : SharpTapeController → SharpTapeController) (s : SharpTapeSystem δ) :
    SharpTapeSystem δ :=
  { s with controller := f s.controller }

/-- `AssertInterruptIfEnabled`. -/
def assertInterrupt (s : SharpTapeSystem δ) : SharpTapeSystem δ :=
  { s with bus := s.bus.tapeInterruptIfEnabled s.controller.mtc.intEnb }

/-- What a command finds. The drive is not ready meanwhile, which nothing looks at. -/
def start (s : SharpTapeSystem δ) : SharpTapeState δ where
  drive := s.controller.selectedDrive.setBpi (if s.controller.mtc.den8 then 800 else 1600)
  mts := s.controller.mts
  mtbrc := s.controller.mtbrc
  mtcma := s.controller.mtcma
  bus := s.bus

/-- What a command leaves. -/
def finish (s : SharpTapeSystem δ) (t : SharpTapeState δ) : SharpTapeSystem δ where
  controller := { s.controller with
    mts := t.mts
    mtbrc := t.mtbrc
    mtcma := t.mtcma
    units := Function.update s.controller.units s.controller.mtc.slt t.drive
    ready := Function.update s.controller.ready s.controller.mtc.slt true }
  bus := t.bus

/-- `Go`. -/
def go (s : SharpTapeSystem δ) : Except Thrown (SharpTapeSystem δ) :=
  let s := s.onController fun c => { c with mts := c.mts.resetMtcErr }
  if !s.controller.mts.selr then
    .ok (s.onController fun c => { c with mts.ilc := true })
  else (s.start.command dev s.controller.mtc).map s.finish

/-- `UpdateMtc`. -/
def updateMtc (v : HalfWord) (s : SharpTapeSystem δ) : Except Thrown (SharpTapeSystem δ) :=
  let powerClear := v.getLsbD 12
  let ea : Word := ((v >>> 4) &&& 0x3).setWidth 32
  let go := v.getLsbD 0
  let s := s.onController fun c =>
    { c with
      mtc := { c.mtc with
        den8 := v.getLsbD 14
        den5 := v.getLsbD 13
        pevn := v.getLsbD 11
        slt := Fin.ofNat 8 (v >>> 8).toNat
        intEnb := v.getLsbD 6
        function := Fin.ofNat 8 (v >>> 1).toNat }
      mtcma := (c.mtcma &&& (0x0000FFFF : Word)) ||| (ea <<< 16) }
  let s := s.onController fun c => { c with mts.selr := c.selectedDrive.online }
  if powerClear then .ok (s.onController SharpTapeController.busReset)
  else if go then
    if !s.controller.mtc.cur then
      .ok (s.onController fun c => { c with mts.ilc := true }).assertInterrupt
    else
      (SharpTapeSystem.go dev (s.onController fun c => { c with mtc.cur := false })).map fun s =>
        (s.onController fun c => { c with mtc.cur := true }).assertInterrupt
  else .ok s.assertInterrupt

/-- `Read(uint, out ushort)`. -/
def read (offset : Word) (s : SharpTapeSystem δ) : Except Thrown HalfWord :=
  let c := s.controller
  if offset = 0 then .ok c.encodeMts
  else if offset = 2 then .ok c.encodeMtc
  else if offset = 4 then .ok (BitVec.ofInt 16 c.mtbrc)
  else if offset = 6 then .ok ((c.mtcma &&& 0xFFFF).setWidth 16)
  else if offset = 8 then .ok c.mtd
  else if offset = 10 then .ok c.mtrd
  else .error (.invalidOperation "tape-controller: unknown read offset " offset.toNat)

/-- `Write(uint, ushort)`. -/
def write (offset : Word) (value : HalfWord) (s : SharpTapeSystem δ) :
    Except Thrown (SharpTapeSystem δ) :=
  if offset = 2 then s.updateMtc dev value
  else if offset = 4 then .ok (s.onController ({ · with mtbrc := value.toInt }))
  else if offset = 6 then
    .ok (s.onController fun c =>
      { c with mtcma := (c.mtcma &&& (0xFFFF0000 : Word)) ||| value.setWidth 32 })
  else if offset = 10 then .ok (s.onController ({ · with mtrd := value }))
  else .error (.invalidOperation "tape-controller: unknown write offset " offset.toNat)

end SharpTapeSystem

end Usim
