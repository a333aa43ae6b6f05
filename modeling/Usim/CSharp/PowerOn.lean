import Usim.CSharp.BusAdaptor
import Usim.CSharp.DiskController
import Usim.CSharp.Displays
import Usim.CSharp.Keyboard
import Usim.CSharp.TapeController

/-!
# Power-on and reset of the C# port

`PowerOn(Cold)` and `Reset` of `MachineControl.cs`, on the registers and memories of all the
components. The counts of the memory, the keyboard and the mouse, what the mouse remembers of the
cursor and of the symbols, the stopwatch, `PowerState` and the symbol tables are left out.
-/

namespace Usim

open Lib

/-- `ReadByte` of a stream, which is -1 at the end. -/
def readStreamByte : List Byte → Word × List Byte
  | [] => (0xFFFFFFFF, [])
  | b :: bs => (b.setWidth 32, bs)

/-- `ReadU16Le`. -/
def readU16Le (bs : List Byte) : BitVec 64 × List Byte :=
  let (b0, bs) := readStreamByte bs
  let (b1, bs) := readStreamByte bs
  ((((b1 &&& 0xFF) <<< 8) ||| (b0 &&& 0xFF)).setWidth 64, bs)

/-- `ReadU32Pdp`. -/
def readU32Pdp (bs : List Byte) : Word × List Byte :=
  let (b0, bs) := readStreamByte bs
  let (b1, bs) := readStreamByte bs
  let (b2, bs) := readStreamByte bs
  let (b3, bs) := readStreamByte bs
  (((b1 &&& 0xFF) <<< 24) ||| ((b0 &&& 0xFF) <<< 16) ||| ((b3 &&& 0xFF) <<< 8) ||| (b2 &&& 0xFF),
    bs)

/-- The loop of `LoadPromFromFile` with `n` turns to go, at turn `i`. -/
def loadPromWords (start : Word) :
    ℕ → Word → List Byte → (Fin 512 → BitVec 64) → Fin 512 → BitVec 64
  | 0, _, _, prom => prom
  | n + 1, i, bs, prom =>
    if bs.length < 8 then prom
    else
      let (w1, bs) := readU16Le bs
      let (w2, bs) := readU16Le bs
      let (w3, bs) := readU16Le bs
      let (w4, bs) := readU16Le bs
      let word := (w1 <<< 48) ||| (w2 <<< 32) ||| (w3 <<< 16) ||| w4
      let loc := start + i
      loadPromWords start n (i + 1) bs
        (if h : loc.toNat < 512 then Function.update prom ⟨loc.toNat, h⟩ word else prom)

/-- `LoadPromFromFile`, on `Prom`. -/
def loadPromFromFile (file : List Byte) (prom : Fin 512 → BitVec 64) : Fin 512 → BitVec 64 :=
  let (_, bs) := readU32Pdp file
  let (start, bs) := readU32Pdp bs
  let (size, bs) := readU32Pdp bs
  loadPromWords start size.toNat 0 bs prom

/-- `Init`, on the fields of `UCode` that a step uses; `VmaOk` and the maps are not among those
that it clears. -/
def UCode.init {β : Type} (u : UCode β) : UCode β where
  promDisabled := false
  interruptPendingFlag := false
  prom := fun _ => 0
  iMem := fun _ => 0
  aMem := fun _ => 0
  mMem := fun _ => 0
  dMem := fun _ => 0
  pdl := fun _ => 0
  spc := fun _ => 0
  spcPtr := 0
  dispatchConstant := 0
  pdlPointer := 0
  pdlIndex := 0
  vmaReg := 0
  mdReg := 0
  lc := 0
  oaRegHigh := 0
  oaRegLow := 0
  opc := 0
  q := 0
  oldQ := 0
  interruptControl := 0
  p0 := 0
  p0Pc := 0
  p0Imem := false
  p1 := 0
  p1Pc := 0
  p1Imem := false
  iwr := 0
  npc := 0
  aAddr := 0
  aData := 0
  mAddr := 0
  mData := 0
  out := 0
  inhibit := false
  op := 0
  popj := false
  newMd := 0
  newMdDelay := 0
  aluCarry := 0
  aluOut := 0
  oal := false
  oah := false
  vmaOk := u.vmaOk
  halted := false
  uvmem := u.uvmem
  dev := u.dev

/-- The fields of `UCode` at the start; `VmaOk` is initialised to true. -/
def UCode.new : UCode Unit where
  promDisabled := false
  interruptPendingFlag := false
  prom := fun _ => 0
  iMem := fun _ => 0
  aMem := fun _ => 0
  mMem := fun _ => 0
  dMem := fun _ => 0
  pdl := fun _ => 0
  spc := fun _ => 0
  spcPtr := 0
  dispatchConstant := 0
  pdlPointer := 0
  pdlIndex := 0
  vmaReg := 0
  mdReg := 0
  lc := 0
  oaRegHigh := 0
  oaRegLow := 0
  opc := 0
  q := 0
  oldQ := 0
  interruptControl := 0
  p0 := 0
  p0Pc := 0
  p0Imem := false
  p1 := 0
  p1Pc := 0
  p1Imem := false
  iwr := 0
  npc := 0
  aAddr := 0
  aData := 0
  mAddr := 0
  mData := 0
  out := 0
  inhibit := false
  op := 0
  popj := false
  newMd := 0
  newMdDelay := 0
  aluCarry := 0
  aluOut := 0
  oal := false
  oah := false
  vmaOk := true
  halted := false
  uvmem := ⟨fun _ => 0, fun _ => 0⟩
  dev := ()

/-- The registers of the class `DiskController`, with its units. -/
structure SharpDiskRegisters where
  /-- `_cmd`. -/
  cmd : Word
  /-- `_clp`. -/
  clp : Word
  /-- `_da`. -/
  da : Word
  /-- `_resetCondition`. -/
  resetCondition : Bool
  /-- `_readCompareDifference`. -/
  readCompareDifference : Bool
  /-- `_ccwCycle`. -/
  ccwCycle : Bool
  /-- `_nonexistentMemoryError`. -/
  nonexistentMemoryError : Bool
  /-- `_interruptRequest`. -/
  interruptRequest : Bool
  /-- `_notActive`. -/
  notActive : Bool
  /-- `_doneInterruptEnable`. -/
  doneInterruptEnable : Bool
  /-- `_attentionInterruptEnable`. -/
  attentionInterruptEnable : Bool
  /-- `_units`. -/
  units : Fin 8 → SharpDiskUnit

/-- A disk unit that `Configure` accepts: its type and its pack, if it has one. With any other
configuration the machine does not power on. -/
structure DiskConfig where
  type : DiskUnitType
  pack : Option (Word → Page)

/-- `new DiskUnit(unit)`. -/
def SharpDiskUnit.new (unit : Fin 8) : SharpDiskUnit where
  unit := BitVec.ofNat 32 unit
  cylinders := 0
  heads := 0
  blocksPerTrack := 0
  blocksPerCylinder := 0
  online := false
  readOnly := false
  seekError := false
  hasFault := false
  attention := false
  lastMemoryAddress := 0
  cylinder := 0
  head := 0
  sector := 0
  lba := 0
  file := none
  fileSize := 0

/-- `Configure` of a disk unit. -/
def SharpDiskUnit.configure (config : DiskConfig) (p : SharpDiskUnit) : SharpDiskUnit :=
  let blocksPerCylinder := config.type.nheads * config.type.nblocksPerTrack
  let p := { p with
    online := false
    cylinders := config.type.ncylinders
    heads := config.type.nheads
    blocksPerTrack := config.type.nblocksPerTrack
    blocksPerCylinder := blocksPerCylinder }
  match config.pack with
  | none => p
  | some blocks =>
    { p with
      file := some blocks
      fileSize := config.type.ncylinders.toNat * blocksPerCylinder.toNat * 1024
      cylinder := 0
      head := 0
      sector := 0
      lba := 0
      online := true }

namespace SharpDiskRegisters

/-- The constructor of `DiskController`. -/
def new : SharpDiskRegisters :=
  ⟨0, 0, 0, false, false, false, false, false, true, false, false, SharpDiskUnit.new⟩

/-- `ConfigureUnit`. -/
def configureUnit (d : SharpDiskRegisters) (unit : Fin 8 × DiskConfig) : SharpDiskRegisters :=
  { d with units := Function.update d.units unit.1 ((d.units unit.1).configure unit.2) }

/-- The disks without their contents. -/
def withoutPacks (d : SharpDiskRegisters) : SharpDiskRegisters :=
  { d with units := fun i => { d.units i with file := none } }

end SharpDiskRegisters

namespace SharpTapeController

/-- The constructor. -/
def new : SharpTapeController :=
  busReset
    ⟨⟨false, false, false, false, false, false, false⟩,
      ⟨false, false, false, 0, false, false, 0⟩, 0, 0, 0, 0, fun _ => .init, fun _ => false⟩

/-- `ConfigureUnit`. -/
def configureUnit (c : SharpTapeController) (unit : Fin 8 × TapeConfig) : SharpTapeController :=
  let p := (c.units unit.1).configure unit.2
  { c with
    units := Function.update c.units unit.1 p
    ready := Function.update c.ready unit.1 p.online }

/-- The tapes without their contents. -/
def withoutImages (c : SharpTapeController) : SharpTapeController :=
  { c with units := fun i => { c.units i with image := fun _ => 0 } }

end SharpTapeController

/-- The fields of the class `Idle` that change. -/
structure SharpIdle where
  /-- `_isIdle`. -/
  isIdle : Bool
  /-- `_lastWork`. -/
  lastWork : BitVec 64
  /-- `IdleCount`. -/
  idleCount : BitVec 64

/-- The position and the buttons of the class `Mouse`. -/
structure SharpPointer where
  /-- `X`. -/
  x : ℕ
  /-- `Y`. -/
  y : ℕ
  /-- `_lastX`. -/
  lastX : ℕ
  /-- `_lastY`. -/
  lastY : ℕ
  /-- `Buttons`. -/
  buttons : Word
  /-- `_lastButtons`. -/
  lastButtons : Word

/-- `Mouse.Initialize`, where `MaxX` and `MaxY` are the size of the display. -/
def SharpPointer.mouseInitialize (monitor : Monitor) : SharpPointer :=
  ⟨monitor.width / 2, monitor.height / 2, monitor.width / 2, monitor.height / 2, 0, 0⟩

/-- The registers of the class `Iob`. -/
structure SharpIobRegisters where
  /-- `_csr`. -/
  csr : Word
  /-- `_scancode`. -/
  scancode : Word
  /-- `_mouseX`. -/
  mouseX : Word
  /-- `_mouseY`. -/
  mouseY : Word
  /-- `_the60CycleClock`. -/
  the60CycleClock : HalfWord
  /-- `_intervalTimerTicksRemaining`. -/
  intervalTimerTicksRemaining : Word
  /-- `_usecStarted`. -/
  usecStarted : Bool
  /-- `_usecLatched`. -/
  usecLatched : Word

namespace SharpIobRegisters

/-- The constructor. -/
def new : SharpIobRegisters := ⟨0, 0, 0, 0, 0, 0, false, 0⟩

/-- `Reset`, which is empty. -/
def reset (i : SharpIobRegisters) : SharpIobRegisters := i

end SharpIobRegisters

/-- The components of the class `MachineControl`. -/
structure SharpMachine where
  /-- The fields of `UCode` that a step uses, without the bus. -/
  ucode : UCode Unit
  /-- `MachineCycles`. -/
  machineCycles : BitVec 64
  /-- `PromEnabledFlag`. -/
  promEnabledFlag : Bool
  /-- `UExecHasRunOnce`. -/
  uExecHasRunOnce : Bool
  /-- `InterruptStatusReg`. -/
  interruptStatusReg : Word
  /-- `_physicalMemory`. -/
  physicalMemory : Fin 4194304 → Word
  busInterface : SharpBusInterface
  unibusMapping : UnibusMapping
  /-- `DebugIr` of the diagnostic interface. -/
  debugIr : BitVec 64
  disk : SharpDiskRegisters
  tape : SharpTapeController
  keyboard : SharpKeyboard
  idle : SharpIdle
  mouse : SharpPointer
  tv : SharpTv
  colorTv : SharpColorTv
  iob : SharpIobRegisters

/-- The configuration, with the files that it names. -/
structure MachineConfig where
  monitor : Monitor
  /-- `prom.prom`, if it exists. -/
  prom : Option (List Byte)
  diskUnits : List (Fin 8 × DiskConfig)
  tapeUnits : List (Fin 8 × TapeConfig)

namespace SharpMachine

/-- The constructor. -/
def new (config : MachineConfig) : SharpMachine where
  ucode := .new
  machineCycles := 0
  promEnabledFlag := false
  uExecHasRunOnce := false
  interruptStatusReg := 0
  physicalMemory := fun _ => 0
  busInterface := ⟨0, false, false, 0⟩
  unibusMapping := ⟨fun _ => 0, fun _ => 0⟩
  debugIr := 0
  disk := .new
  tape := .new
  keyboard := ⟨[], -1⟩
  idle := ⟨false, 0, 0⟩
  mouse := .mouseInitialize .other
  tv := .new config.monitor
  colorTv := .new
  iob := .new

/-- `UCode.Init`. -/
def ucodeInit (m : SharpMachine) : SharpMachine :=
  { m with
    ucode := m.ucode.init
    machineCycles := 0
    promEnabledFlag := false
    uExecHasRunOnce := false
    interruptStatusReg := 0 }

/-- `Memory.Initialize`. -/
def memoryInitialize (m : SharpMachine) : SharpMachine := { m with physicalMemory := fun _ => 0 }

/-- `Keyboard.Initialize`. -/
def keyboardInitialize (m : SharpMachine) : SharpMachine := { m with keyboard := ⟨[], -1⟩ }

/-- `Idle.Init`. -/
def idleInit (m : SharpMachine) : SharpMachine := { m with idle := ⟨false, 0, 0⟩ }

/-- `Mouse.Initialize`. -/
def mouseInitialize (m : SharpMachine) : SharpMachine :=
  { m with mouse := .mouseInitialize m.tv.monitor }

/-- `Tv.Reset`. -/
def tvReset (m : SharpMachine) : SharpMachine := { m with tv := m.tv.reset }

/-- `ColorTv.Reset`. -/
def colorTvReset (m : SharpMachine) : SharpMachine := { m with colorTv := m.colorTv.reset }

/-- `Iob.Reset`. -/
def iobReset (m : SharpMachine) : SharpMachine := { m with iob := m.iob.reset }

/-- `Reset`. -/
def reset (m : SharpMachine) : SharpMachine :=
  let m := m.ucodeInit
  let m := m.memoryInitialize
  let m := m.keyboardInitialize
  let m := m.idleInit
  let m := m.mouseInitialize
  let m := m.tvReset
  let m := m.colorTvReset
  m.iobReset

/-- `InitializeComponents`. -/
def initializeComponents (m : SharpMachine) : SharpMachine :=
  let m := m.ucodeInit
  let m := m.memoryInitialize
  let m := m.keyboardInitialize
  let m := m.idleInit
  let m := m.mouseInitialize
  let m := m.tvReset
  let m := m.colorTvReset
  m.iobReset

/-- `BusInterface.BusReset`, with the tape controller wired. -/
def busReset (m : SharpMachine) : SharpMachine :=
  { m with busInterface := ⟨0, false, false, 0⟩, tape := m.tape.busReset }

/-- `UCode.LoadPromFromFile`. -/
def loadProm (file : List Byte) (m : SharpMachine) : SharpMachine :=
  { m with
    ucode := { m.ucode with prom := loadPromFromFile file m.ucode.prom }
    promEnabledFlag := true }

/-- `LoadSystemFiles`. -/
def loadSystemFiles (config : MachineConfig) (m : SharpMachine) : SharpMachine :=
  let m := match config.prom with
    | some file => m.loadProm file
    | none => m
  { m with
    disk := config.diskUnits.foldl SharpDiskRegisters.configureUnit m.disk
    tape := config.tapeUnits.foldl SharpTapeController.configureUnit m.tape }

/-- `PowerOn(Cold)` on a new machine. -/
def powerOn (config : MachineConfig) : SharpMachine :=
  ((new config).initializeComponents.busReset).loadSystemFiles config

/-- Two machines agree in the processor, its memories and maps, the main memory, the bus and
interrupt status and the registers of all devices; the contents of disks and tapes may differ. -/
structure Same (m m' : SharpMachine) : Prop where
  ucode : m.ucode = m'.ucode
  machineCycles : m.machineCycles = m'.machineCycles
  promEnabledFlag : m.promEnabledFlag = m'.promEnabledFlag
  uExecHasRunOnce : m.uExecHasRunOnce = m'.uExecHasRunOnce
  interruptStatusReg : m.interruptStatusReg = m'.interruptStatusReg
  physicalMemory : m.physicalMemory = m'.physicalMemory
  busInterface : m.busInterface = m'.busInterface
  unibusMapping : m.unibusMapping = m'.unibusMapping
  debugIr : m.debugIr = m'.debugIr
  disk : m.disk.withoutPacks = m'.disk.withoutPacks
  tape : m.tape.withoutImages = m'.tape.withoutImages
  keyboard : m.keyboard = m'.keyboard
  idle : m.idle = m'.idle
  mouse : m.mouse = m'.mouse
  tv : m.tv = m'.tv
  colorTv : m.colorTv = m'.colorTv
  iob : m.iob = m'.iob

/-- There is no boot PROM, and everything that no call in `Reset` touches still has the value that
power-on with the configuration gives it. -/
structure Untouched (config : MachineConfig) (m : SharpMachine) : Prop where
  prom : config.prom = none
  vmaOk : m.ucode.vmaOk = true
  maps : m.ucode.uvmem = ⟨fun _ => 0, fun _ => 0⟩
  busInterface : m.busInterface = ⟨0, false, false, 0⟩
  unibusMapping : m.unibusMapping = ⟨fun _ => 0, fun _ => 0⟩
  debugIr : m.debugIr = 0
  disk : m.disk.withoutPacks =
    (config.diskUnits.foldl SharpDiskRegisters.configureUnit .new).withoutPacks
  tape : m.tape.withoutImages =
    (config.tapeUnits.foldl SharpTapeController.configureUnit .new).withoutImages
  /-- The registers of the TV for its sync, and the monitor, which is not a register. -/
  tv : m.tv.monitor = config.monitor ∧ m.tv.syncRam = (fun _ => 0) ∧ m.tv.syncPtr = 0 ∧
    m.tv.vertSpacing = 0
  colorTv : m.colorTv = .new
  iob : m.iob = .new

variable {config : MachineConfig} {m : SharpMachine}

/-- What `Init` leaves is all that is left. -/
theorem init_eq_new (hvmaOk : m.ucode.vmaOk = true)
    (hmaps : m.ucode.uvmem = ⟨fun _ => 0, fun _ => 0⟩) : m.ucode.init = .new := by
  unfold UCode.init
  rw [hvmaOk, hmaps]
  rfl

/-- Power-on without a boot PROM changes nothing but the units. -/
theorem powerOn_of_none (hprom : config.prom = none) :
    powerOn config = { (new config).initializeComponents.busReset with
      disk := config.diskUnits.foldl SharpDiskRegisters.configureUnit .new
      tape := config.tapeUnits.foldl SharpTapeController.configureUnit .new } := by
  unfold powerOn loadSystemFiles
  rw [hprom]
  rfl

/-- Power-on with a boot PROM enables it. -/
theorem promEnabledFlag_powerOn : (powerOn config).promEnabledFlag = config.prom.isSome := by
  unfold powerOn loadSystemFiles
  cases config.prom with
  | none => rfl
  | some file => rfl

/-- `Reset` leaves the machine as power-on with the same configuration does if and only if there
is no boot PROM and nothing that it does not touch has changed since. -/
theorem same_reset_powerOn_iff (config : MachineConfig) (m : SharpMachine) :
    m.reset.Same (powerOn config) ↔ m.Untouched config := by
  constructor
  · intro h
    have hprom : config.prom = none := by
      have hflag := h.promEnabledFlag
      rw [promEnabledFlag_powerOn] at hflag
      exact Option.isNone_iff_eq_none.mp (Option.isSome_eq_false_iff.mp hflag.symm)
    rw [powerOn_of_none hprom] at h
    refine ⟨hprom, ?_, ?_, h.busInterface, h.unibusMapping, h.debugIr, h.disk, h.tape, ?_,
      h.colorTv, h.iob⟩
    · exact congrArg UCode.vmaOk h.ucode
    · exact congrArg UCode.uvmem h.ucode
    · exact ⟨congrArg SharpTv.monitor h.tv, congrArg SharpTv.syncRam h.tv,
        congrArg SharpTv.syncPtr h.tv, congrArg SharpTv.vertSpacing h.tv⟩
  · intro h
    obtain ⟨hmonitor, hsyncRam, hsyncPtr, hvertSpacing⟩ := h.tv
    rw [powerOn_of_none h.prom]
    refine ⟨?_, rfl, rfl, rfl, rfl, rfl, h.busInterface, h.unibusMapping, h.debugIr, h.disk, h.tape,
      rfl, rfl, ?_, ?_, h.colorTv, h.iob⟩
    · exact init_eq_new h.vmaOk h.maps
    · exact congrArg SharpPointer.mouseInitialize hmonitor
    · show m.tv.reset = (SharpTv.new config.monitor).reset
      unfold SharpTv.reset
      rw [hmonitor, hsyncRam, hsyncPtr, hvertSpacing]
      rfl

/-- A machine with a boot PROM of one word. -/
def onePromWord : MachineConfig where
  monitor := .other
  prom := some [0, 0, 1, 0, 0, 0, 0, 0, 0, 0, 1, 0, 1, 0, 0, 0, 0, 0, 0, 0]
  diskUnits := []
  tapeUnits := []

/-- Its PROM after power-on and reset. -/
theorem not_same_reset_powerOn :
    (powerOn onePromWord).ucode.prom 0 = 1 <<< 48 ∧
      (powerOn onePromWord).reset.ucode.prom 0 = 0 ∧
      ¬(powerOn onePromWord).reset.Same (powerOn onePromWord) := by
  have hloaded : (powerOn onePromWord).ucode.prom 0 = 1 <<< 48 := by decide
  have hcleared : (powerOn onePromWord).reset.ucode.prom 0 = 0 := rfl
  refine ⟨hloaded, hcleared, fun h => ?_⟩
  have hprom := congrFun (congrArg UCode.prom h.ucode) 0
  rw [hloaded, hcleared] at hprom
  revert hprom
  decide

end SharpMachine

end Usim
