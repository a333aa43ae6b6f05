import Usim.BusAdaptor
import Usim.Interrupts

/-!
# The bus interface

`bus-interface.c` with the part of `lashup-debugger.c` that it calls, and the
registers of `unibus-mapping.c`. The datagram sent to another machine is a
parameter.
-/

namespace Usim

/-- The globals of `bus-interface.c`. -/
structure BusInterface where
  /-- `bus_error_status`. -/
  busErrorStatus : HalfWord
  /-- `nxm_inhibited`. -/
  nxmInhibited : Bool
  /-- `modifier_reset`. -/
  modifierReset : Bool
  /-- `debuggee_bus_error_status`. -/
  debuggeeBusErrorStatus : HalfWord
  /-- `addr17`. -/
  addr17 : Bool
  /-- `addr`. -/
  addr : HalfWord
  deriving DecidableEq, Repr

/-- The globals of `unibus-mapping.c`. -/
structure UnibusMapping where
  /-- `unibus_mapping_registers[16]`. -/
  registers : Fin 16 → HalfWord
  /-- `unibus_mapping_buffers[16]`. -/
  buffers : Fin 16 → HalfWord

/-- What is behind the bus adaptor besides the main memory. -/
structure BusSide (δ : Type) where
  /-- `interrupt_status_reg`; its flag is a field of the bus state. -/
  interruptStatusReg : Word
  /-- The bus interface. -/
  busInterface : BusInterface
  /-- The Unibus map. -/
  unibusMapping : UnibusMapping
  /-- The devices. -/
  devices : δ

/-- The globals that an access through the bus adaptor reads and changes. -/
abbrev BusGlobals (δ : Type) := BusState (Bus (BusSide δ))

namespace BusInterface

/-- `bus_interface_set_xbus_nxm`. -/
def setXbusNxm (i : BusInterface) : BusInterface :=
  if i.nxmInhibited then i else { i with busErrorStatus := i.busErrorStatus ||| 0o1 }

/-- `bus_interface_set_unibus_nxm`. -/
def setUnibusNxm (i : BusInterface) : BusInterface :=
  if i.nxmInhibited then i else { i with busErrorStatus := i.busErrorStatus ||| 0o10 }

/-- `bus_interface_set_unibus_map_error`. It is not inhibited. -/
def setUnibusMapError (i : BusInterface) : BusInterface :=
  { i with busErrorStatus := i.busErrorStatus ||| 0o40 }

/-- `bus_interface_is_unibus_nxm`. -/
def isUnibusNxm (i : BusInterface) : Bool := decide (i.busErrorStatus &&& 0o10 ≠ 0)

/-- `bus_interface_is_unibus_map_error`. -/
def isUnibusMapError (i : BusInterface) : Bool := decide (i.busErrorStatus &&& 0o40 ≠ 0)

/-- `bus_interface_reset_bus_error_status`. -/
def resetBusErrorStatus (i : BusInterface) : BusInterface := { i with busErrorStatus := 0 }

/-- `bus_interface_get_debuggee_uaddr`. -/
def getDebuggeeUaddr (i : BusInterface) : Word :=
  ((if i.addr17 then (1 : Word) else 0) <<< 17) ||| (i.addr.setWidth 32 <<< 1)

end BusInterface

namespace BusState

variable {δ : Type}

/-- The bus interface. -/
def interface (b : BusGlobals δ) : BusInterface := b.dev.devices.busInterface

/-- The Unibus map. -/
def mapping (b : BusGlobals δ) : UnibusMapping := b.dev.devices.unibusMapping

/-- The main memory. -/
def memory (b : BusGlobals δ) : MainMemory := b.dev.mainMemory

/-- The interrupt globals. -/
def interrupts (b : BusGlobals δ) : Interrupts :=
  ⟨b.dev.devices.interruptStatusReg, b.interruptPendingFlag⟩

/-- Change the bus interface. -/
def onInterface (f : BusInterface → BusInterface) (b : BusGlobals δ) : BusGlobals δ :=
  { b with dev.devices.busInterface := f b.interface }

/-- Change the Unibus map. -/
def onMapping (f : UnibusMapping → UnibusMapping) (b : BusGlobals δ) : BusGlobals δ :=
  { b with dev.devices.unibusMapping := f b.mapping }

/-- Change the interrupt globals. -/
def onInterrupts (f : Interrupts → Interrupts) (b : BusGlobals δ) : BusGlobals δ :=
  { b with
    interruptPendingFlag := (f b.interrupts).pendingFlag
    dev.devices.interruptStatusReg := (f b.interrupts).statusReg }

end BusState

/-- `struct lashup_request_s`. -/
structure LashupRequest where
  /-- The command. -/
  command : Char
  /-- The Unibus address. -/
  uaddr : Word
  /-- The data. -/
  data : HalfWord
  deriving DecidableEq, Repr

/-- `struct lashup_reply_s`. -/
structure LashupReply where
  /-- The bus error status of the debuggee. -/
  busErrorStatus : HalfWord
  /-- The data. -/
  data : HalfWord
  deriving DecidableEq, Repr

/-- The link to a second machine. -/
structure Lashup (δ : Type) where
  /-- `lashup_target_port`, which is 0 without a second machine. -/
  targetPort : ℕ
  /-- The exchange over the socket: the reply, if one arrives in time. -/
  exchange : LashupRequest → δ → Option LashupReply × δ

variable {δ : Type} (lashup : Lashup δ)

/-- `lashup_debugger_xmt`: the reply, if the command was executed. -/
def lashupDebuggerXmt (request : LashupRequest) (b : BusGlobals δ) :
    Option LashupReply × BusGlobals δ :=
  if lashup.targetPort = 0 then (none, b)
  else
    let r := lashup.exchange request b.dev.devices.devices
    let b := { b with dev.devices.devices := r.2 }
    match r.1 with
    | some reply =>
      (some reply, b.onInterface ({ · with debuggeeBusErrorStatus := reply.busErrorStatus }))
    | none => (none, b.onInterface ({ · with debuggeeBusErrorStatus := 0o10 }))

/-- `lashup_debugger_read`: the data, or 0 when the command was not executed. -/
def lashupDebuggerRead (uaddr : Word) (b : BusGlobals δ) : HalfWord × BusGlobals δ :=
  let r := lashupDebuggerXmt lashup ⟨'r', uaddr, 0⟩ b
  ((r.1.map (·.data)).getD 0, r.2)

/-- `bus_interface_read`. An address without a register leaves `*pv`. -/
def busInterfaceRead (uaddr : Word) (pv : HalfWord) (b : BusGlobals δ) :
    HalfWord × BusGlobals δ :=
  if uaddr = 0o766040 then (b.interrupts.statusReg.setWidth 16, b)
  else if uaddr = 0o766044 then (b.interface.busErrorStatus, b)
  else if uaddr = 0o766100 then lashupDebuggerRead lashup b.interface.getDebuggeeUaddr b
  else if uaddr = 0o766104 then (b.interface.debuggeeBusErrorStatus, b)
  else (pv, b.onInterface BusInterface.setUnibusNxm)

/-- `bus_interface_write`, the modifier bits in 0766110. -/
def busInterfaceWriteModifier (v : HalfWord) (b : BusGlobals δ) : BusGlobals δ :=
  let b := b.onInterface ({ · with addr17 := v.getLsbD 0 })
  let reset := v.getLsbD 1
  let timeoutInhibit := v.getLsbD 2
  let debuggeeMark := v.getLsbD 3
  let debuggerMark := v.getLsbD 4
  let ping := v.getLsbD 5
  let markSymbol := (v >>> 8) &&& 0o377
  let b := if debuggeeMark then (lashupDebuggerXmt lashup ⟨'e', 0, markSymbol⟩ b).2 else b
  if debuggerMark || debuggeeMark then b
  else if ping then (lashupDebuggerXmt lashup ⟨'p', 0, 0⟩ b).2
  else
    let b :=
      if b.interface.modifierReset && !reset then (lashupDebuggerXmt lashup ⟨'s', 0, 0⟩ b).2
      else b
    let b := b.onInterface ({ · with modifierReset := reset })
    (lashupDebuggerXmt lashup ⟨'t', 0, if timeoutInhibit then 1 else 0⟩ b).2

/-- `bus_interface_write`. -/
def busInterfaceWrite (uaddr : Word) (v : HalfWord) (b : BusGlobals δ) : BusGlobals δ :=
  if uaddr = 0o766040 then b.onInterrupts (writeInterruptStatusReg 0o36001 (v.setWidth 32))
  else if uaddr = 0o766042 then b.onInterrupts (writeInterruptStatusReg 0o101774 (v.setWidth 32))
  else if uaddr = 0o766044 then
    b.onInterface ({ · with busErrorStatus := 0, debuggeeBusErrorStatus := 0 })
  else if uaddr = 0o766100 then
    let debuggeeUaddr := b.interface.getDebuggeeUaddr
    let r := lashupDebuggerXmt lashup ⟨'w', debuggeeUaddr, v⟩ b
    if r.1.isSome ∧ debuggeeUaddr = 0o766044 then
      r.2.onInterface ({ · with debuggeeBusErrorStatus := 0 })
    else r.2
  else if uaddr = 0o766102 then (lashupDebuggerXmt lashup ⟨'u', 0, v⟩ b).2
  else if uaddr = 0o766110 then busInterfaceWriteModifier lashup v b
  else if uaddr = 0o766112 then b
  else if uaddr = 0o766114 then b.onInterface ({ · with addr := v })
  else b.onInterface BusInterface.setUnibusNxm

/-- The page number behind the mapping register at `uaddr`, `(uaddr - 0766140) / 2`. -/
def mappingPage (uaddr : Word) : Fin 16 := Fin.ofNat 16 ((uaddr - 0o766140) / 2).toNat

/-- One of the sixteen addresses of the mapping registers. -/
def IsMappingRegister (uaddr : Word) : Prop :=
  0o766140 ≤ uaddr ∧ uaddr ≤ 0o766176 ∧ uaddr &&& 1 = 0

instance (uaddr : Word) : Decidable (IsMappingRegister uaddr) :=
  inferInstanceAs (Decidable (_ ∧ _ ∧ _))

/-- `unibus_mapping_rw`. -/
def unibusMappingRw (write : Bool) (uaddr : Word) (pv : HalfWord) (b : BusGlobals δ) :
    HalfWord × BusGlobals δ :=
  if IsMappingRegister uaddr then
    let pageNo := mappingPage uaddr
    if write then
      (pv, b.onMapping fun m => { m with registers := Function.update m.registers pageNo pv })
    else (b.mapping.registers pageNo, b)
  else (pv, b.onInterface BusInterface.setUnibusNxm)

end Usim
