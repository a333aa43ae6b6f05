import Usim.BusInterface

/-!
# The windows of the bus adaptor

`bus_adaptor_xbusio_rw` and `bus_adaptor_unibus_rw` of `bus-adaptor.c`: which
device an address selects, and the Unibus map. The registers behind the
windows are ports, so that the routing is the same for every device.
-/

namespace Usim

/-- The read and the write routine of a device with registers of `w` bits. -/
structure Port (w : ℕ) (δ : Type) where
  /-- Read a register into a variable, whose old contents are given. -/
  read : Word → BitVec w → BusGlobals δ → Except ErrCall (BitVec w × BusGlobals δ)
  /-- Write a register. -/
  write : Word → BitVec w → BusGlobals δ → Except ErrCall (BusGlobals δ)

/-- `if (write) device_write(register, *pv); else device_read(register, pv);` -/
def Port.rw {w : ℕ} {δ : Type} (port : Port w δ) (write : Bool) (register : Word) (v : BitVec w)
    (b : BusGlobals δ) : Except ErrCall (BitVec w × BusGlobals δ) :=
  if write then
    match port.write register v b with
    | .ok b => .ok (v, b)
    | .error e => .error e
  else port.read register v b

/-- The devices behind the bus adaptor. -/
structure BusDevices (δ : Type) where
  /-- `colortv_enabled`. -/
  colortvEnabled : Bool
  /-- `tv_screen_read`, `tv_screen_write`. -/
  tvScreen : Port 32 δ
  /-- `tv_control_read`, `tv_control_write`. -/
  tvControl : Port 32 δ
  /-- `colortv_screen_read`, `colortv_screen_write`. -/
  colortvScreen : Port 32 δ
  /-- `colortv_control_read`, `colortv_control_write`. -/
  colortvControl : Port 32 δ
  /-- `disk_controller_read`, `disk_controller_write`. -/
  diskController : Port 32 δ
  /-- `iob_unibus_read`, `iob_unibus_write`, which take Unibus addresses. -/
  iobUnibus : Port 16 δ
  /-- `diagnostic_interface_read`, `diagnostic_interface_write`, with Unibus addresses. -/
  diagnosticInterface : Port 16 δ
  /-- `tape_controller_unibus_read`, `tape_controller_unibus_write`, with Unibus addresses. -/
  tapeControllerUnibus : Port 16 δ
  /-- The second machine. -/
  lashup : Lashup δ

variable {δ : Type} (dev : BusDevices δ)

/-- `bus_adaptor_xbusio_rw`. -/
def busAdaptorXbusioRw (write : Bool) (paddr v : Word) (b : BusGlobals δ) :
    Except ErrCall (Word × BusGlobals δ) :=
  if 0o17000000 ≤ paddr ∧ paddr ≤ 0o17077777 then
    dev.tvScreen.rw write (paddr - 0o17000000) v b
  else if dev.colortvEnabled ∧ 0o17200000 ≤ paddr ∧ paddr ≤ 0o17277777 then
    dev.colortvScreen.rw write (paddr - 0o17200000) v b
  else if dev.colortvEnabled ∧ 0o17377750 ≤ paddr ∧ paddr ≤ 0o17377757 then
    dev.colortvControl.rw write (paddr - 0o17377750) v b
  else if 0o17377760 ≤ paddr ∧ paddr ≤ 0o17377767 then
    dev.tvControl.rw write (paddr - 0o17377760) v b
  else if 0o17377774 ≤ paddr ∧ paddr ≤ 0o17377777 then
    dev.diskController.rw write (paddr - 0o17377774) v b
  else .ok (if write then v else 0, b.onInterface BusInterface.setXbusNxm)

/-- What `bus_adaptor_xbus_rw` calls. It never reaches the Unibus. -/
def xbusRoutines : BusRoutines (BusSide δ) where
  xbusioRw := busAdaptorXbusioRw dev
  unibusRw := fun _ _ v b => .ok (v, b)
  setXbusNxm := BusState.onInterface BusInterface.setXbusNxm

/-- The page of the Unibus map that an address lies in, `(uaddr - 0140000) / 02000`. -/
def unibusMapPage (uaddr : Word) : Fin 16 := Fin.ofNat 16 ((uaddr - 0o140000) / 0o2000).toNat

/-- Bit 15 of a mapping register. -/
def mapValid (mappingRegister : HalfWord) : Bool := mappingRegister.getLsbD 15

/-- Bit 14 of a mapping register. -/
def writePermit (mappingRegister : HalfWord) : Bool := mappingRegister.getLsbD 14

/-- Bits 13-0 of a mapping register. -/
def xbusPageNumber (mappingRegister : HalfWord) : HalfWord := mappingRegister &&& 0o37777

/-- A page number of the Xbus has 14 bits. -/
theorem toNat_xbusPageNumber_lt (mappingRegister : HalfWord) :
    (xbusPageNumber mappingRegister).toNat < 16384 := by
  rw [xbusPageNumber, BitVec.toNat_and,
    show BitVec.toNat (0o37777 : HalfWord) = 2 ^ 14 - 1 from rfl, Nat.and_two_pow_sub_one_eq_mod]
  omega

/-- The mapped Xbus address. -/
def mappedPaddr (mappingRegister : HalfWord) (uaddr : Word) : Word :=
  ((xbusPageNumber mappingRegister).setWidth 32 <<< 8) ||| ((uaddr >>> 2) &&& 0o377)

/-- An address names the high half of its word. -/
def hiword (uaddr : Word) : Bool := uaddr.getLsbD 1

/-- A word with its high or its low half replaced. -/
def replaceHalf (hi : Bool) (w : Word) (v : HalfWord) : Word :=
  if hi then (w &&& (0x0000FFFF : Word)) ||| (v.setWidth 32 <<< 16)
  else (w &&& (0xFFFF0000 : Word)) ||| v.setWidth 32

/-- The high or the low half of a word. -/
def half (hi : Bool) (w : Word) : HalfWord := if hi then (w >>> 16).setWidth 16 else w.setWidth 16

/-- `bus_adaptor_unibus_rw` in the window 0140000-0177777, the Unibus map. -/
def unibusMapRw (write : Bool) (uaddr : Word) (pv : HalfWord) (b : BusGlobals δ) :
    Except ErrCall (HalfWord × BusGlobals δ) :=
  let pageNo := unibusMapPage uaddr
  let mappingRegister := b.mapping.registers pageNo
  let paddr := mappedPaddr mappingRegister uaddr
  if !mapValid mappingRegister then
    .ok (if write then pv else 0, b.onInterface BusInterface.setUnibusMapError)
  else if write && !writePermit mappingRegister then
    .ok (pv, b.onInterface BusInterface.setUnibusMapError)
  else if xbusPageNumber mappingRegister ≥ 0o37000 then
    if write then .ok (pv, { b with mdReg := replaceHalf (hiword uaddr) b.mdReg pv })
    else .ok (half (hiword uaddr) b.mdReg, b)
  else if write then
    if hiword uaddr then
      let v32 := (pv.setWidth 32 <<< 16) ||| (b.mapping.buffers pageNo).setWidth 32
      match busAdaptorXbusRw (xbusRoutines dev) true paddr v32 b with
      | .ok (_, b) => .ok (pv, b)
      | .error e => .error e
    else
      .ok (pv, b.onMapping fun m => { m with buffers := Function.update m.buffers pageNo pv })
  else if hiword uaddr then .ok (b.mapping.buffers pageNo, b)
  else
    -- `v32` is not initialised; 0 stands for its contents
    match busAdaptorXbusRw (xbusRoutines dev) false paddr 0 b with
    | .ok (v32, b) =>
      .ok (half false v32, b.onMapping fun m =>
        { m with buffers := Function.update m.buffers pageNo (half true v32) })
    | .error e => .error e

/-- `bus_adaptor_unibus_rw`. -/
def busAdaptorUnibusRw (write : Bool) (uaddr : Word) (pv : HalfWord) (b : BusGlobals δ) :
    Except ErrCall (HalfWord × BusGlobals δ) :=
  if 0o140000 ≤ uaddr ∧ uaddr ≤ 0o177777 then unibusMapRw dev write uaddr pv b
  else if 0o764000 ≤ uaddr ∧ uaddr ≤ 0o764176 then dev.iobUnibus.rw write uaddr pv b
  else if 0o766000 ≤ uaddr ∧ uaddr ≤ 0o766036 then dev.diagnosticInterface.rw write uaddr pv b
  else if 0o766040 ≤ uaddr ∧ uaddr ≤ 0o766136 then
    if write then .ok (pv, busInterfaceWrite dev.lashup uaddr pv b)
    else .ok (busInterfaceRead dev.lashup uaddr pv b)
  else if 0o766140 ≤ uaddr ∧ uaddr ≤ 0o766176 then .ok (unibusMappingRw write uaddr pv b)
  else if 0o772520 ≤ uaddr ∧ uaddr ≤ 0o772532 then
    dev.tapeControllerUnibus.rw write uaddr pv b
  else .ok (if write then pv else 0, b.onInterface BusInterface.setUnibusNxm)

/-- The bus adaptor with all its windows. -/
def busRoutines : BusRoutines (BusSide δ) :=
  { xbusRoutines dev with unibusRw := busAdaptorUnibusRw dev }

/-- The Xbus half of the bus adaptor is the one that the Unibus map uses. -/
theorem busAdaptorXbusRw_busRoutines (write : Bool) (paddr v : Word) (b : BusGlobals δ) :
    busAdaptorXbusRw (busRoutines dev) write paddr v b =
      busAdaptorXbusRw (xbusRoutines dev) write paddr v b := rfl

end Usim
