import Usim.CSharp.MainMemory
import Usim.CSharp.UCode
import Usim.Unibus

/-!
# The bus adaptor of the C# port

The classes `BusAdaptor`, `BusInterface` and `UnibusMapping`. The devices wired
to the bus adaptor and its diagnostic interface are parameters. What happens
when no device is wired is modelled; its log message is not.
-/

namespace Usim

/-- The class `BusInterface`. -/
structure SharpBusInterface where
  /-- `_busErrorStatus`. -/
  busErrorStatus : HalfWord
  /-- `_nxmInhibited`. -/
  nxmInhibited : Bool
  /-- `_addr17`. -/
  addr17 : Bool
  /-- `_addr`. -/
  addr : HalfWord
  deriving DecidableEq, Repr

/-- The objects behind `Vm` of the port. -/
structure SharpSide (δ : Type) where
  /-- `MainMemory`. -/
  mainMemory : SharpMemory
  /-- `InterruptStatusReg`, an `int` of `UCode`. -/
  interruptStatusReg : Word
  /-- `BusInterface`. -/
  busInterface : SharpBusInterface
  /-- The arrays `_registers` and `_buffers` of `UnibusMapping`. -/
  unibusMapping : UnibusMapping
  /-- The devices. -/
  devices : δ

/-- What an access through the bus adaptor of the port reads and changes. -/
abbrev SharpGlobals (δ : Type) := BusState (SharpSide δ)

/-- An access of the port: its value and the objects afterwards. -/
abbrev SharpOutcome (δ α : Type) := Except Thrown (α × SharpGlobals δ)

/-- `SetInterruptStatusReg`. -/
def SharpGlobals.setInterruptStatusReg {δ : Type} (newValue : Word) (b : SharpGlobals δ) :
    SharpGlobals δ :=
  { b with
    interruptPendingFlag := decide (newValue &&& 0xC000 ≠ 0)
    dev.interruptStatusReg := newValue }

namespace SharpBusInterface

variable {δ : Type}

/-- `SetXbusNxm`. -/
def setXbusNxm (i : SharpBusInterface) : SharpBusInterface :=
  if i.nxmInhibited then i else { i with busErrorStatus := i.busErrorStatus ||| 0x1 }

/-- `SetUnibusNxm`. -/
def setUnibusNxm (i : SharpBusInterface) : SharpBusInterface :=
  if i.nxmInhibited then i else { i with busErrorStatus := i.busErrorStatus ||| 0x8 }

/-- `SetUnibusMapError`. -/
def setUnibusMapError (i : SharpBusInterface) : SharpBusInterface :=
  { i with busErrorStatus := i.busErrorStatus ||| 0x20 }

/-- Change the bus interface. -/
def update (f : SharpBusInterface → SharpBusInterface) (b : SharpGlobals δ) : SharpGlobals δ :=
  { b with dev.busInterface := f b.dev.busInterface }

/-- `BusInterface.Read`. -/
def read (uaddr : Word) (b : SharpGlobals δ) : Word × SharpGlobals δ :=
  if uaddr = 0x3EC20 then (b.dev.interruptStatusReg, b)
  else if uaddr = 0x3EC24 then (b.dev.busInterface.busErrorStatus.setWidth 32, b)
  else if uaddr = 0x3EC40 then (0, b)
  else if uaddr = 0x3EC44 then (0, b)
  else (0, update setUnibusNxm b)

/-- `BusInterface.Write`. -/
def write (uaddr v : Word) (b : SharpGlobals δ) : SharpGlobals δ :=
  if uaddr = 0x3EC20 then
    b.setInterruptStatusReg ((b.dev.interruptStatusReg &&& ~~~0x3C01) ||| (v &&& 0x3C01))
  else if uaddr = 0x3EC22 then
    b.setInterruptStatusReg ((b.dev.interruptStatusReg &&& ~~~0x83FC) ||| (v &&& 0x83FC))
  else if uaddr = 0x3EC24 then update ({ · with busErrorStatus := 0 }) b
  else if uaddr = 0x3EC40 then b
  else if uaddr = 0x3EC42 then b
  else if uaddr = 0x3EC48 then update ({ · with addr17 := decide (v &&& 0x1 ≠ 0) }) b
  else if uaddr = 0x3EC4A then b
  else if uaddr = 0x3EC4C then update ({ · with addr := v.setWidth 16 }) b
  else update setUnibusNxm b

end SharpBusInterface

/-- The read and the write method of a device of the port. -/
structure SharpPort (w : ℕ) (δ : Type) where
  /-- Read a register. -/
  read : Word → SharpGlobals δ → SharpOutcome δ (BitVec w)
  /-- Write a register. -/
  write : Word → BitVec w → SharpGlobals δ → Except Thrown (SharpGlobals δ)

/-- The fields of the class `BusAdaptor` that hold devices. -/
structure SharpDevices (δ : Type) where
  /-- `UsimState.ColorTvEnabled`. -/
  colorTvEnabled : Bool
  /-- `_tv.ScreenRead`, `_tv.ScreenWrite`. -/
  tvScreen : Option (SharpPort 32 δ)
  /-- `_tv.ControlRead`, `_tv.ControlWrite`. -/
  tvControl : Option (SharpPort 32 δ)
  /-- `_colorTv.ScreenRead`, `_colorTv.ScreenWrite`. -/
  colorTvScreen : Option (SharpPort 32 δ)
  /-- `_colorTv.ControlRead`, `_colorTv.ControlWrite`. -/
  colorTvControl : Option (SharpPort 32 δ)
  /-- `_diskController`. -/
  diskController : Option (SharpPort 32 δ)
  /-- `_iob`, whose registers are numbered from `IobLo`. -/
  iob : Option (SharpPort 16 δ)
  /-- `_diagnosticInterface`, which takes Unibus addresses. -/
  diagnosticInterface : SharpPort 16 δ
  /-- `_tapeController`, whose registers are numbered from `TapeControllerLo`. -/
  tapeController : Option (SharpPort 16 δ)

namespace SharpPort

variable {w : ℕ} {δ : Type}

/-- Read a wired device; without one the value is 0. -/
def readWired (port : Option (SharpPort w δ)) (offset : Word) (b : SharpGlobals δ) :
    SharpOutcome δ Word :=
  match port with
  | none => .ok (0, b)
  | some port =>
    match port.read offset b with
    | .ok (v, b) => .ok (v.setWidth 32, b)
    | .error e => .error e

/-- Write a wired device; without one nothing happens. -/
def writeWired (port : Option (SharpPort w δ)) (offset : Word) (v : BitVec w)
    (b : SharpGlobals δ) : Except Thrown (SharpGlobals δ) :=
  match port with
  | none => .ok b
  | some port => port.write offset v b

end SharpPort

namespace SharpBusAdaptor

open SharpPort

variable {δ : Type} (dev : SharpDevices δ)

/-- `ReadXbusIo`. -/
def readXbusIo (paddr : Word) (b : SharpGlobals δ) : SharpOutcome δ Word :=
  if 0x3DFFFC ≤ paddr ∧ paddr ≤ 0x3DFFFF then
    readWired dev.diskController (paddr - 0x3DFFFC) b
  else if 0x3C0000 ≤ paddr ∧ paddr ≤ 0x3C7FFF then readWired dev.tvScreen (paddr - 0x3C0000) b
  else if 0x3DFFF0 ≤ paddr ∧ paddr ≤ 0x3DFFF7 then readWired dev.tvControl (paddr - 0x3DFFF0) b
  else if dev.colorTvEnabled ∧ 0x3D0000 ≤ paddr ∧ paddr ≤ 0x3D7FFF then
    readWired dev.colorTvScreen (paddr - 0x3D0000) b
  else if dev.colorTvEnabled ∧ 0x3DFFE8 ≤ paddr ∧ paddr ≤ 0x3DFFEF then
    readWired dev.colorTvControl (paddr - 0x3DFFE8) b
  else if paddr = 0x3DFF00 then .ok (0, b)
  else .ok (0, SharpBusInterface.update SharpBusInterface.setXbusNxm b)

/-- `WriteXbusIo`. -/
def writeXbusIo (paddr v : Word) (b : SharpGlobals δ) : Except Thrown (SharpGlobals δ) :=
  if 0x3DFFFC ≤ paddr ∧ paddr ≤ 0x3DFFFF then
    writeWired dev.diskController (paddr - 0x3DFFFC) v b
  else if 0x3C0000 ≤ paddr ∧ paddr ≤ 0x3C7FFF then writeWired dev.tvScreen (paddr - 0x3C0000) v b
  else if 0x3DFFF0 ≤ paddr ∧ paddr ≤ 0x3DFFF7 then
    writeWired dev.tvControl (paddr - 0x3DFFF0) v b
  else if dev.colorTvEnabled ∧ 0x3D0000 ≤ paddr ∧ paddr ≤ 0x3D7FFF then
    writeWired dev.colorTvScreen (paddr - 0x3D0000) v b
  else if dev.colorTvEnabled ∧ 0x3DFFE8 ≤ paddr ∧ paddr ≤ 0x3DFFEF then
    writeWired dev.colorTvControl (paddr - 0x3DFFE8) v b
  else if paddr = 0x3DFF00 then .ok b
  else .ok (SharpBusInterface.update SharpBusInterface.setXbusNxm b)

/-- `XbusRead`. -/
def xbusRead (paddr : Word) (b : SharpGlobals δ) : SharpOutcome δ Word :=
  let pn := (paddr >>> 8) &&& 0x3FFF
  if pn ≤ 0x3BFB then .ok (b.dev.mainMemory.readPhysical paddr, b)
  else if 0x3C00 ≤ pn ∧ pn ≤ 0x3DFF then readXbusIo dev paddr b
  else .ok (0, SharpBusInterface.update SharpBusInterface.setXbusNxm b)

/-- `XbusWrite`. -/
def xbusWrite (paddr v : Word) (b : SharpGlobals δ) : Except Thrown (SharpGlobals δ) :=
  let pn := (paddr >>> 8) &&& 0x3FFF
  if pn ≤ 0x3BFB then
    .ok { b with dev := { b.dev with mainMemory := b.dev.mainMemory.writePhysical paddr v } }
  else if 0x3C00 ≤ pn ∧ pn ≤ 0x3DFF then writeXbusIo dev paddr v b
  else .ok (SharpBusInterface.update SharpBusInterface.setXbusNxm b)

/-- `_unibusMapping.SetBuffer`. -/
def setBuffer (pageNo : Fin 16) (value : HalfWord) (b : SharpGlobals δ) : SharpGlobals δ :=
  { b with dev.unibusMapping.buffers := Function.update b.dev.unibusMapping.buffers pageNo value }

/-- The page `(uaddr - UnibusMapLo) / 0x400`. -/
def mapPage (uaddr : Word) : Fin 16 := Fin.ofNat 16 ((uaddr - 0xC000) / 0x400).toNat

/-- `UnibusMapDmaRead`. -/
def unibusMapDmaRead (uaddr : Word) (b : SharpGlobals δ) : SharpOutcome δ Word :=
  let pageNo := mapPage uaddr
  let mappingRegister := b.dev.unibusMapping.registers pageNo
  let mapValid := decide (mappingRegister &&& 0x8000 ≠ 0)
  let xbusPageNumber : Word := (mappingRegister &&& 0x3FFF).setWidth 32
  let paddr := (xbusPageNumber <<< 8) ||| ((uaddr >>> 2) &&& 0xFF)
  if !mapValid then .ok (0, SharpBusInterface.update SharpBusInterface.setUnibusMapError b)
  else
    let hiword := decide ((uaddr >>> 1) &&& 1 ≠ 0)
    if 0x3E00 ≤ xbusPageNumber then
      .ok (if hiword then (b.mdReg >>> 16) &&& 0xFFFF else b.mdReg &&& 0xFFFF, b)
    else if hiword then .ok ((b.dev.unibusMapping.buffers pageNo).setWidth 32, b)
    else
      match xbusRead dev paddr b with
      | .ok (v32, b) =>
        .ok (v32 &&& 0xFFFF, setBuffer pageNo (((v32 >>> 16) &&& 0xFFFF).setWidth 16) b)
      | .error e => .error e

/-- `UnibusMapDmaWrite`. -/
def unibusMapDmaWrite (uaddr v : Word) (b : SharpGlobals δ) : Except Thrown (SharpGlobals δ) :=
  let pageNo := mapPage uaddr
  let mappingRegister := b.dev.unibusMapping.registers pageNo
  let mapValid := decide (mappingRegister &&& 0x8000 ≠ 0)
  let writePermit := decide (mappingRegister &&& 0x4000 ≠ 0)
  let xbusPageNumber : Word := (mappingRegister &&& 0x3FFF).setWidth 32
  let paddr := (xbusPageNumber <<< 8) ||| ((uaddr >>> 2) &&& 0xFF)
  if !mapValid then .ok (SharpBusInterface.update SharpBusInterface.setUnibusMapError b)
  else if !writePermit then
    .ok (SharpBusInterface.update SharpBusInterface.setUnibusMapError b)
  else
    let hiword := decide ((uaddr >>> 1) &&& 1 ≠ 0)
    if 0x3E00 ≤ xbusPageNumber then
      let v32 :=
        if hiword then (b.mdReg &&& (0x0000FFFF : Word)) ||| ((v <<< 16) &&& (0xFFFF0000 : Word))
        else (b.mdReg &&& 0xFFFF0000) ||| (v &&& 0x0000FFFF)
      .ok { b with mdReg := v32 }
    else if hiword then
      let cachedLo := b.dev.unibusMapping.buffers pageNo
      xbusWrite dev paddr (((v <<< 16) &&& (0xFFFF0000 : Word)) ||| cachedLo.setWidth 32) b
    else .ok (setBuffer pageNo (v.setWidth 16) b)

/-- `UnibusMapping.Read`. -/
def unibusMappingRead (uaddr : Word) (b : SharpGlobals δ) : Word × SharpGlobals δ :=
  if 0x3EC60 ≤ uaddr ∧ uaddr ≤ 0x3EC7E ∧ uaddr &&& 1 = 0 then
    let pageNo := Fin.ofNat 16 ((uaddr - 0x3EC60) / 2).toNat
    ((b.dev.unibusMapping.registers pageNo).setWidth 32, b)
  else (0, SharpBusInterface.update SharpBusInterface.setUnibusNxm b)

/-- `UnibusMapping.Write`. -/
def unibusMappingWrite (uaddr v : Word) (b : SharpGlobals δ) : SharpGlobals δ :=
  if 0x3EC60 ≤ uaddr ∧ uaddr ≤ 0x3EC7E ∧ uaddr &&& 1 = 0 then
    let pageNo := Fin.ofNat 16 ((uaddr - 0x3EC60) / 2).toNat
    { b with dev.unibusMapping.registers :=
        Function.update b.dev.unibusMapping.registers pageNo (v.setWidth 16) }
  else SharpBusInterface.update SharpBusInterface.setUnibusNxm b

/-- `ReadUnibus`. -/
def readUnibus (uaddr : Word) (b : SharpGlobals δ) : SharpOutcome δ Word :=
  if 0x3EC00 ≤ uaddr ∧ uaddr ≤ 0x3EC1E then readWired (some dev.diagnosticInterface) uaddr b
  else if 0x3EC20 ≤ uaddr ∧ uaddr ≤ 0x3EC5E then .ok (SharpBusInterface.read uaddr b)
  else if 0x3EC60 ≤ uaddr ∧ uaddr ≤ 0x3EC7E then .ok (unibusMappingRead uaddr b)
  else if 0xC000 ≤ uaddr ∧ uaddr ≤ 0xFFFF then unibusMapDmaRead dev uaddr b
  else if 0x3E800 ≤ uaddr ∧ uaddr ≤ 0x3E87E then readWired dev.iob (uaddr - 0x3E800) b
  else if 0x3F550 ≤ uaddr ∧ uaddr ≤ 0x3F55A then
    readWired dev.tapeController (uaddr - 0x3F550) b
  else .ok (0, SharpBusInterface.update SharpBusInterface.setUnibusNxm b)

/-- `WriteUnibus`. -/
def writeUnibus (uaddr v : Word) (b : SharpGlobals δ) : Except Thrown (SharpGlobals δ) :=
  if 0x3EC00 ≤ uaddr ∧ uaddr ≤ 0x3EC1E then dev.diagnosticInterface.write uaddr (v.setWidth 16) b
  else if 0x3EC20 ≤ uaddr ∧ uaddr ≤ 0x3EC5E then .ok (SharpBusInterface.write uaddr v b)
  else if 0x3EC60 ≤ uaddr ∧ uaddr ≤ 0x3EC7E then .ok (unibusMappingWrite uaddr v b)
  else if 0xC000 ≤ uaddr ∧ uaddr ≤ 0xFFFF then unibusMapDmaWrite dev uaddr v b
  else if 0x3E800 ≤ uaddr ∧ uaddr ≤ 0x3E87E then
    writeWired dev.iob (uaddr - 0x3E800) (v.setWidth 16) b
  else if 0x3F550 ≤ uaddr ∧ uaddr ≤ 0x3F55A then
    writeWired dev.tapeController (uaddr - 0x3F550) (v.setWidth 16) b
  else .ok (SharpBusInterface.update SharpBusInterface.setUnibusNxm b)

/-- The Unibus address of a physical address above the Xbus. -/
def unibusAddress (paddr : Word) : Word :=
  (((((paddr >>> 8) &&& 0x3FFF) - 0x3E00) <<< 8) ||| (paddr &&& (0xFF : Word))) <<< 1

/-- `BusAdaptor.Read`. -/
def read (paddr : Word) (b : SharpGlobals δ) : SharpOutcome δ Word :=
  if (paddr >>> 8) &&& 0x3FFF ≤ 0x3DFF then readXbusIo dev paddr b
  else readUnibus dev (unibusAddress paddr) b

/-- `BusAdaptor.Write`. -/
def write (paddr v : Word) (b : SharpGlobals δ) : Except Thrown (SharpGlobals δ) :=
  if (paddr >>> 8) &&& 0x3FFF ≤ 0x3DFF then writeXbusIo dev paddr v b
  else writeUnibus dev (unibusAddress paddr) v b

end SharpBusAdaptor

end Usim
