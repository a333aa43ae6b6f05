import Usim.CSharp.BusAdaptor
import Usim.Lib.Masks
import Usim.Lib.Simulation

/-!
# The bus adaptors of the C program and of the port

With the same devices attached and no second machine, an access through the
bus adaptor of the port returns what the C program stores, and leaves the
objects that mirror the globals of the C program.
-/

namespace Usim

open Lib

variable {δ : Type}

/-- The bus interface of the port with the contents of the C globals. -/
def BusInterface.mirror (i : BusInterface) : SharpBusInterface where
  busErrorStatus := i.busErrorStatus
  nxmInhibited := i.nxmInhibited
  addr17 := i.addr17
  addr := i.addr

/-- The objects of the port with the contents of the C globals. -/
def BusState.mirror (b : BusGlobals δ) : SharpGlobals δ :=
  { b with dev := {
      mainMemory := b.memory.flat
      interruptStatusReg := b.interrupts.statusReg
      busInterface := b.interface.mirror
      unibusMapping := b.mapping
      devices := b.dev.devices.devices } }

/-- The port is in the state of the C program. The interrupt status register
has 16 bits, as every write leaves it, and no second machine has reported errors. -/
structure Ported (b : BusGlobals δ) (b' : SharpGlobals δ) : Prop where
  /-- Every object has the contents of its globals. -/
  mirror : b' = b.mirror
  /-- The interrupt status register. -/
  statusReg : b.interrupts.statusReg.toNat < 2 ^ 16
  /-- The error status of the second machine. -/
  debuggee : b.interface.debuggeeBusErrorStatus = 0

/-- The same value, with the port in the state of the C program. -/
def PortedValue {α : Type} (r : α × BusGlobals δ) (r' : α × SharpGlobals δ) : Prop :=
  r.1 = r'.1 ∧ Ported r.2 r'.2

/-- A device of the C program and one of the port are the same device, with the
registers of the port numbered from `base`. -/
structure SameDevice {w : ℕ} (port : Port w δ) (base : Word) (port' : SharpPort w δ) : Prop where
  /-- The same register is read. -/
  read : ∀ offset pv b b', Ported b b' →
    AgreesUpTo PortedValue (port.read (base + offset) pv b) (port'.read offset b')
  /-- The same register is written. -/
  write : ∀ offset v b b', Ported b b' →
    AgreesUpTo Ported (port.write (base + offset) v b) (port'.write offset v b')

/-- The same devices are attached on both sides, and no second machine. -/
structure AttachedIdentically (dev : BusDevices δ) (dev' : SharpDevices δ) : Prop where
  /-- The colour TV is enabled on both sides or on neither. -/
  colortvEnabled : dev.colortvEnabled = dev'.colorTvEnabled
  /-- The screen of the main TV. -/
  tvScreen : ∃ p, dev'.tvScreen = some p ∧ SameDevice dev.tvScreen 0 p
  /-- The control registers of the main TV. -/
  tvControl : ∃ p, dev'.tvControl = some p ∧ SameDevice dev.tvControl 0 p
  /-- The screen of the colour TV. -/
  colortvScreen : ∃ p, dev'.colorTvScreen = some p ∧ SameDevice dev.colortvScreen 0 p
  /-- The control registers of the colour TV. -/
  colortvControl : ∃ p, dev'.colorTvControl = some p ∧ SameDevice dev.colortvControl 0 p
  /-- The disk controller. -/
  diskController : ∃ p, dev'.diskController = some p ∧ SameDevice dev.diskController 0 p
  /-- The IOB, whose first register is 0764000. -/
  iob : ∃ p, dev'.iob = some p ∧ SameDevice dev.iobUnibus 0o764000 p
  /-- The diagnostic interface. -/
  diagnosticInterface : SameDevice dev.diagnosticInterface 0 dev'.diagnosticInterface
  /-- The tape controller, whose first register is 0772520. -/
  tapeController :
    ∃ p, dev'.tapeController = some p ∧ SameDevice dev.tapeControllerUnibus 0o772520 p
  /-- No second machine is attached. -/
  lashup : dev.lashup.targetPort = 0

section Updates

variable {b : BusGlobals δ} {b' : SharpGlobals δ}

/-- The same change of both bus interfaces. -/
theorem Ported.onInterface (h : Ported b b') {f : BusInterface → BusInterface}
    {g : SharpBusInterface → SharpBusInterface} (hfg : ∀ i, (f i).mirror = g i.mirror)
    (hf : (f b.interface).debuggeeBusErrorStatus = 0) :
    Ported (b.onInterface f) (SharpBusInterface.update g b') := by
  obtain ⟨rfl, hstatus, hdebuggee⟩ := h
  refine ⟨?_, hstatus, hf⟩
  unfold SharpBusInterface.update
  rw [show b.mirror.dev.busInterface = b.interface.mirror from rfl, ← hfg]
  rfl

/-- Setting Xbus NXM. -/
theorem Ported.setXbusNxm (h : Ported b b') : Ported (b.onInterface BusInterface.setXbusNxm)
    (SharpBusInterface.update SharpBusInterface.setXbusNxm b') := by
  apply h.onInterface
  · intro i
    unfold BusInterface.setXbusNxm SharpBusInterface.setXbusNxm
    rw [show i.mirror.nxmInhibited = i.nxmInhibited from rfl]
    split <;> rfl
  · unfold BusInterface.setXbusNxm
    split <;> exact h.debuggee

/-- Setting Unibus NXM. -/
theorem Ported.setUnibusNxm (h : Ported b b') :
    Ported (b.onInterface BusInterface.setUnibusNxm)
      (SharpBusInterface.update SharpBusInterface.setUnibusNxm b') := by
  apply h.onInterface
  · intro i
    unfold BusInterface.setUnibusNxm SharpBusInterface.setUnibusNxm
    rw [show i.mirror.nxmInhibited = i.nxmInhibited from rfl]
    split <;> rfl
  · unfold BusInterface.setUnibusNxm
    split <;> exact h.debuggee

/-- Setting the map error. -/
theorem Ported.setUnibusMapError (h : Ported b b') :
    Ported (b.onInterface BusInterface.setUnibusMapError)
      (SharpBusInterface.update SharpBusInterface.setUnibusMapError b') :=
  h.onInterface (fun _ => rfl) h.debuggee

/-- Setting a buffer of the Unibus map. -/
theorem Ported.setBuffer (h : Ported b b') (pageNo : Fin 16) (v : HalfWord) :
    Ported (b.onMapping fun m => { m with buffers := Function.update m.buffers pageNo v })
      (SharpBusAdaptor.setBuffer pageNo v b') := by
  obtain ⟨rfl, hstatus, hdebuggee⟩ := h
  exact ⟨rfl, hstatus, hdebuggee⟩

/-- Setting the MD register. -/
theorem Ported.setMd (h : Ported b b') (v : Word) :
    Ported { b with mdReg := v } { b' with mdReg := v } := by
  obtain ⟨rfl, hstatus, hdebuggee⟩ := h
  exact ⟨rfl, hstatus, hdebuggee⟩

/-- A register write that leaves the interrupt status register in 16 bits. -/
theorem Ported.writeInterruptStatusReg (h : Ported b b') (mask v : Word)
    (hmask : mask.toNat < 2 ^ 16) :
    Ported (b.onInterrupts (Usim.writeInterruptStatusReg mask ((v.setWidth 16).setWidth 32)))
      (b'.setInterruptStatusReg
        ((b'.dev.interruptStatusReg &&& ~~~mask) ||| (v &&& mask))) := by
  obtain ⟨rfl, hstatus, hdebuggee⟩ := h
  have hv : (v.setWidth 16).setWidth 32 &&& mask = v &&& mask := by
    apply BitVec.eq_of_getLsbD_eq
    intro i hi
    by_cases hlow : i < 16
    · simp [hlow, hi]
    · have hbound : mask.toNat < 2 ^ i :=
        Nat.lt_of_lt_of_le hmask (Nat.pow_le_pow_right (by decide) (by omega))
      have hzero : mask.getLsbD i = false := Nat.testBit_lt_two_pow hbound
      simp [hzero]
  refine ⟨?_, ?_, hdebuggee⟩
  · unfold BusState.onInterrupts Usim.writeInterruptStatusReg SharpGlobals.setInterruptStatusReg
    rw [hv]
    rfl
  · show (((b.interrupts.statusReg &&& ~~~mask) |||
      ((v.setWidth 16).setWidth 32 &&& mask))).toNat < 2 ^ 16
    rw [BitVec.toNat_or, BitVec.toNat_and, BitVec.toNat_and]
    apply Nat.or_lt_two_pow
    · exact Nat.lt_of_le_of_lt Nat.and_le_left hstatus
    · exact Nat.lt_of_le_of_lt Nat.and_le_right hmask

end Updates

section Windows

variable {dev : BusDevices δ} {dev' : SharpDevices δ} {b : BusGlobals δ} {b' : SharpGlobals δ}

/-- Reading a register of the same device. -/
theorem SameDevice.readWired {w : ℕ} {port : Port w δ} {base : Word} {port' : SharpPort w δ}
    (h : SameDevice port base port') (hb : Ported b b') (offset : Word) (v : BitVec w) :
    AgreesUpTo (fun r r' => r.1.setWidth 32 = r'.1 ∧ Ported r.2 r'.2)
      (port.rw false (base + offset) v b) (SharpPort.readWired (some port') offset b') := by
  have hread := h.read offset v b b' hb
  rcases hread.cases with ⟨r, r', hr, hr', hvalue, hported⟩ | ⟨e, d, hr, hr'⟩
  · simp only [Port.rw, SharpPort.readWired, Bool.false_eq_true, if_false, hr, hr']
    exact ⟨congrArg _ hvalue, hported⟩
  · simp only [Port.rw, SharpPort.readWired, Bool.false_eq_true, if_false, hr, hr']
    trivial

/-- Writing a register of the same device. -/
theorem SameDevice.writeWired {w : ℕ} {port : Port w δ} {base : Word} {port' : SharpPort w δ}
    (h : SameDevice port base port') (hb : Ported b b') (offset : Word) (v : BitVec w) :
    AgreesUpTo (fun r => Ported r.2)
      (port.rw true (base + offset) v b) (SharpPort.writeWired (some port') offset v b') := by
  have hwrite := h.write offset v b b' hb
  rcases hwrite.cases with ⟨r, r', hr, hr', hported⟩ | ⟨e, d, hr, hr'⟩
  · simp only [Port.rw, SharpPort.writeWired, if_true, hr, hr']
    exact hported
  · simp only [Port.rw, SharpPort.writeWired, if_true, hr, hr']
    trivial

/-- The windows of the Xbus are disjoint, so the order of their tests does not matter. -/
theorem xbusWindows_comm {α : Type} (color : Bool) (paddr : Word)
    (tv colortv colortvControl tvControl disk unknown : α) :
    (if 0x3DFFFC ≤ paddr ∧ paddr ≤ 0x3DFFFF then disk
      else if 0x3C0000 ≤ paddr ∧ paddr ≤ 0x3C7FFF then tv
      else if 0x3DFFF0 ≤ paddr ∧ paddr ≤ 0x3DFFF7 then tvControl
      else if color ∧ 0x3D0000 ≤ paddr ∧ paddr ≤ 0x3D7FFF then colortv
      else if color ∧ 0x3DFFE8 ≤ paddr ∧ paddr ≤ 0x3DFFEF then colortvControl
      else unknown) =
    (if 0o17000000 ≤ paddr ∧ paddr ≤ 0o17077777 then tv
      else if color ∧ 0o17200000 ≤ paddr ∧ paddr ≤ 0o17277777 then colortv
      else if color ∧ 0o17377750 ≤ paddr ∧ paddr ≤ 0o17377757 then colortvControl
      else if 0o17377760 ≤ paddr ∧ paddr ≤ 0o17377767 then tvControl
      else if 0o17377774 ≤ paddr ∧ paddr ≤ 0o17377777 then disk
      else unknown) := by
  split_ifs <;> first | rfl | (exfalso; bv_omega)

/-- The windows of the Unibus are disjoint, so the order of their tests does not matter. -/
theorem unibusWindows_comm {α : Type} (uaddr : Word)
    (map iob diagnostic interface mapping tape unknown : α) :
    (if 0x3EC00 ≤ uaddr ∧ uaddr ≤ 0x3EC1E then diagnostic
      else if 0x3EC20 ≤ uaddr ∧ uaddr ≤ 0x3EC5E then interface
      else if 0x3EC60 ≤ uaddr ∧ uaddr ≤ 0x3EC7E then mapping
      else if 0xC000 ≤ uaddr ∧ uaddr ≤ 0xFFFF then map
      else if 0x3E800 ≤ uaddr ∧ uaddr ≤ 0x3E87E then iob
      else if 0x3F550 ≤ uaddr ∧ uaddr ≤ 0x3F55A then tape
      else unknown) =
    (if 0o140000 ≤ uaddr ∧ uaddr ≤ 0o177777 then map
      else if 0o764000 ≤ uaddr ∧ uaddr ≤ 0o764176 then iob
      else if 0o766000 ≤ uaddr ∧ uaddr ≤ 0o766036 then diagnostic
      else if 0o766040 ≤ uaddr ∧ uaddr ≤ 0o766136 then interface
      else if 0o766140 ≤ uaddr ∧ uaddr ≤ 0o766176 then mapping
      else if 0o772520 ≤ uaddr ∧ uaddr ≤ 0o772532 then tape
      else unknown) := by
  split_ifs <;> first | rfl | (exfalso; bv_omega)

/-- A register of 32 bits of the same device, read. -/
theorem SameDevice.readWord {port : Port 32 δ} {port' : SharpPort 32 δ}
    (h : SameDevice port 0 port') (hb : Ported b b') (offset v : Word) :
    AgreesUpTo PortedValue (port.rw false offset v b)
      (SharpPort.readWired (some port') offset b') := by
  have hread := h.readWired hb offset v
  rw [zero_add] at hread
  refine hread.mono fun r r' hr => ⟨?_, hr.2⟩
  rw [← hr.1, BitVec.setWidth_eq]

/-- A register of 32 bits of the same device, written. -/
theorem SameDevice.writeWord {port : Port 32 δ} {port' : SharpPort 32 δ}
    (h : SameDevice port 0 port') (hb : Ported b b') (offset v : Word) :
    AgreesUpTo (fun r => Ported r.2) (port.rw true offset v b)
      (SharpPort.writeWired (some port') offset v b') := by
  have hwrite := h.writeWired hb offset v
  rwa [zero_add] at hwrite

/-- The Xbus windows, read. -/
theorem readXbusIo_ported (hdev : AttachedIdentically dev dev') (hb : Ported b b') {paddr : Word}
    (hpaddr : paddr ≠ 0o17377400) (v : Word) :
    AgreesUpTo PortedValue (busAdaptorXbusioRw dev false paddr v b)
      (SharpBusAdaptor.readXbusIo dev' paddr b') := by
  obtain ⟨tv, htv, hsametv⟩ := hdev.tvScreen
  obtain ⟨tvc, htvc, hsametvc⟩ := hdev.tvControl
  obtain ⟨ctv, hctv, hsamectv⟩ := hdev.colortvScreen
  obtain ⟨ctvc, hctvc, hsamectvc⟩ := hdev.colortvControl
  obtain ⟨disk, hdisk, hsamedisk⟩ := hdev.diskController
  unfold busAdaptorXbusioRw SharpBusAdaptor.readXbusIo
  rw [htv, htvc, hctv, hctvc, hdisk, hdev.colortvEnabled, if_neg hpaddr, xbusWindows_comm]
  simp only [Bool.false_eq_true, if_false]
  split_ifs
  · exact hsametv.readWord hb _ v
  · exact hsamectv.readWord hb _ v
  · exact hsamectvc.readWord hb _ v
  · exact hsametvc.readWord hb _ v
  · exact hsamedisk.readWord hb _ v
  · exact ⟨rfl, hb.setXbusNxm⟩

/-- The Xbus windows, written. -/
theorem writeXbusIo_ported (hdev : AttachedIdentically dev dev') (hb : Ported b b')
    {paddr : Word} (hpaddr : paddr ≠ 0o17377400) (v : Word) :
    AgreesUpTo (fun r => Ported r.2) (busAdaptorXbusioRw dev true paddr v b)
      (SharpBusAdaptor.writeXbusIo dev' paddr v b') := by
  obtain ⟨tv, htv, hsametv⟩ := hdev.tvScreen
  obtain ⟨tvc, htvc, hsametvc⟩ := hdev.tvControl
  obtain ⟨ctv, hctv, hsamectv⟩ := hdev.colortvScreen
  obtain ⟨ctvc, hctvc, hsamectvc⟩ := hdev.colortvControl
  obtain ⟨disk, hdisk, hsamedisk⟩ := hdev.diskController
  unfold busAdaptorXbusioRw SharpBusAdaptor.writeXbusIo
  rw [htv, htvc, hctv, hctvc, hdisk, hdev.colortvEnabled, if_neg hpaddr, xbusWindows_comm]
  simp only [if_true]
  split_ifs
  · exact hsametv.writeWord hb _ v
  · exact hsamectv.writeWord hb _ v
  · exact hsamectvc.writeWord hb _ v
  · exact hsametvc.writeWord hb _ v
  · exact hsamedisk.writeWord hb _ v
  · exact hb.setXbusNxm

/-- A cycle of the Unibus map on the Xbus, read. -/
theorem xbusRead_ported (hdev : AttachedIdentically dev dev') (hb : Ported b b') {paddr : Word}
    (hlt : paddr.toNat < 4194304) (hpaddr : paddr ≠ 0o17377400) (v : Word) :
    AgreesUpTo PortedValue (busAdaptorXbusRw (xbusRoutines dev) false paddr v b)
      (SharpBusAdaptor.xbusRead dev' paddr b') := by
  unfold busAdaptorXbusRw SharpBusAdaptor.xbusRead
  rw [show (paddr >>> 8) &&& 0x3FFF = pageNumber paddr from rfl]
  simp only [Bool.false_eq_true, if_false]
  split_ifs
  · refine ⟨?_, hb⟩
    rw [hb.mirror, show b.mirror.dev.mainMemory = b.memory.flat from rfl,
      SharpMemory.readPhysical_eq, b.memory.flat_tryReadWord hlt]
    rfl
  · exact readXbusIo_ported hdev hb hpaddr v
  · exact ⟨rfl, hb.setXbusNxm⟩

/-- A cycle of the Unibus map on the Xbus, written. -/
theorem xbusWrite_ported (hdev : AttachedIdentically dev dev') (hb : Ported b b') {paddr : Word}
    (hlt : paddr.toNat < 4194304) (hpaddr : paddr ≠ 0o17377400) (v : Word) :
    AgreesUpTo (fun r => Ported r.2) (busAdaptorXbusRw (xbusRoutines dev) true paddr v b)
      (SharpBusAdaptor.xbusWrite dev' paddr v b') := by
  unfold busAdaptorXbusRw SharpBusAdaptor.xbusWrite
  rw [show (paddr >>> 8) &&& 0x3FFF = pageNumber paddr from rfl]
  simp only [if_true]
  split_ifs
  · obtain ⟨rfl, hstatus, hdebuggee⟩ := hb
    refine ⟨?_, hstatus, hdebuggee⟩
    rw [show b.mirror.dev.mainMemory = b.memory.flat from rfl, b.memory.flat_writePhysical v hlt]
    rfl
  · exact writeXbusIo_ported hdev hb hpaddr v
  · exact hb.setXbusNxm

/-- The word that an access through the Unibus map reaches on the Xbus is the
word 017377400: the mapping is valid and permits the access, which is the half
that starts a cycle. -/
def MapReaches (b : BusGlobals δ) (write : Bool) (uaddr paddr : Word) : Prop :=
  let mappingRegister := b.mapping.registers (unibusMapPage uaddr)
  mapValid mappingRegister ∧ (write → writePermit mappingRegister) ∧ write = hiword uaddr ∧
    mappedPaddr mappingRegister uaddr = paddr

/-- A mapped address has 22 bits. -/
theorem mappedPaddr_lt (mappingRegister : HalfWord) (uaddr : Word) :
    (mappedPaddr mappingRegister uaddr).toNat < 4194304 := by
  have hpage : ((xbusPageNumber mappingRegister).setWidth 32).toNat < 16384 := by
    have hnumber := toNat_xbusPageNumber_lt mappingRegister
    rw [BitVec.toNat_setWidth]
    omega
  have hoffset : ((uaddr >>> 2) &&& 0o377).toNat < 2 ^ 8 := by
    rw [toNat_and_mask _ 0o377 (n := 8) rfl]
    omega
  rw [mappedPaddr, toNat_shiftLeft_or _ _ hoffset (by omega)]
  omega

/-- The half that an address names. -/
theorem decide_hiword (uaddr : Word) : decide ((uaddr >>> 1) &&& 1 ≠ 0) = hiword uaddr := by
  rw [decide_and_eq_getLsbD (uaddr >>> 1) 1 0 (by decide) rfl, BitVec.getLsbD_ushiftRight]
  rfl

/-- The pages above the Xbus, in 16 and in 32 bits. -/
theorem pageAboveXbus_iff (mappingRegister : HalfWord) :
    0x3E00 ≤ (mappingRegister &&& 0x3FFF).setWidth 32 ↔
      xbusPageNumber mappingRegister ≥ 0o37000 := by
  unfold xbusPageNumber
  simp only [BitVec.le_def, BitVec.toNat_setWidth]
  have hlt := (mappingRegister &&& 0x3FFF).isLt
  rw [Nat.mod_eq_of_lt (by omega)]
  rfl

/-- The low half of a word as the port returns it. -/
theorem setWidth_half_false (w : Word) : (half false w).setWidth 32 = w &&& 0xFFFF := by
  rw [and_lowHalf]
  rfl

/-- The high half of a word as the port returns it. -/
theorem setWidth_half_true (w : Word) : (half true w).setWidth 32 = (w >>> 16) &&& 0xFFFF := by
  rw [and_lowHalf]
  rfl

/-- A half that is masked before it is stored. -/
theorem setWidth_and_lowHalf (w : Word) : ((w >>> 16) &&& 0xFFFF).setWidth 16 = half true w := by
  rw [← setWidth_half_true, BitVec.setWidth_setWidth_of_le _ (by decide), BitVec.setWidth_eq]

/-- The Unibus map, read. -/
theorem unibusMapDmaRead_ported (hdev : AttachedIdentically dev dev') (hb : Ported b b')
    {uaddr : Word} (hslip : ¬MapReaches b false uaddr 0o17377400) (pv : HalfWord) :
    AgreesUpTo (fun r r' => r.1.setWidth 32 = r'.1 ∧ Ported r.2 r'.2)
      (unibusMapRw dev false uaddr pv b) (SharpBusAdaptor.unibusMapDmaRead dev' uaddr b') := by
  have hmap : b'.dev.unibusMapping = b.mapping := by
    rw [hb.mirror]
    rfl
  have hmd : b'.mdReg = b.mdReg := by
    rw [hb.mirror]
    rfl
  unfold unibusMapRw SharpBusAdaptor.unibusMapDmaRead
  rw [hmap, hmd, show SharpBusAdaptor.mapPage uaddr = unibusMapPage uaddr from rfl]
  unfold MapReaches at hslip
  obtain ⟨reg, hreg⟩ : ∃ reg, b.mapping.registers (unibusMapPage uaddr) = reg := ⟨_, rfl⟩
  rw [hreg] at hslip
  simp only [hreg, decide_and_eq_getLsbD reg 0x8000 15 (by decide) rfl, decide_hiword,
    show reg.getLsbD 15 = mapValid reg from rfl, pageAboveXbus_iff,
    show ((reg &&& 0x3FFF).setWidth 32 <<< 8) ||| ((uaddr >>> 2) &&& 0xFF) =
      mappedPaddr reg uaddr from rfl, Bool.false_eq_true, if_false, Bool.false_and]
  by_cases hvalid : mapValid reg = true
  · rw [hvalid]
    simp only [Bool.not_true, Bool.false_eq_true, if_false]
    by_cases hmdpage : xbusPageNumber reg ≥ 0o37000
    · rw [if_pos hmdpage, if_pos hmdpage]
      refine ⟨?_, hb⟩
      by_cases hhi : hiword uaddr = true
      · rw [hhi, if_pos rfl, setWidth_half_true]
      · rw [Bool.not_eq_true] at hhi
        rw [hhi, if_neg (by decide), setWidth_half_false]
    · rw [if_neg hmdpage, if_neg hmdpage]
      by_cases hhi : hiword uaddr = true
      · rw [if_pos hhi, if_pos hhi]
        exact ⟨rfl, hb⟩
      · rw [if_neg hhi, if_neg hhi]
        have hpaddr : mappedPaddr reg uaddr ≠ 0o17377400 := fun heq =>
          hslip ⟨hvalid, by simp, by simpa using hhi, heq⟩
        have hread := xbusRead_ported hdev hb (mappedPaddr_lt reg uaddr) hpaddr 0
        rcases hread.cases with ⟨r, r', hr, hr', hvalue, hported⟩ | ⟨e, d, hr, hr'⟩
        · simp only [hr, hr']
          refine ⟨?_, ?_⟩
          · rw [setWidth_half_false, hvalue]
          · rw [setWidth_and_lowHalf, ← hvalue]
            exact hported.setBuffer _ _
        · simp only [hr, hr']
          trivial
  · rw [Bool.not_eq_true] at hvalid
    rw [hvalid]
    exact ⟨rfl, hb.setUnibusMapError⟩

/-- The Unibus map, written. -/
theorem unibusMapDmaWrite_ported (hdev : AttachedIdentically dev dev') (hb : Ported b b')
    {uaddr : Word} (hslip : ¬MapReaches b true uaddr 0o17377400) (v : Word) :
    AgreesUpTo (fun r => Ported r.2) (unibusMapRw dev true uaddr (v.setWidth 16) b)
      (SharpBusAdaptor.unibusMapDmaWrite dev' uaddr v b') := by
  have hmap : b'.dev.unibusMapping = b.mapping := by
    rw [hb.mirror]
    rfl
  have hmd : b'.mdReg = b.mdReg := by
    rw [hb.mirror]
    rfl
  unfold unibusMapRw SharpBusAdaptor.unibusMapDmaWrite
  rw [hmap, hmd, show SharpBusAdaptor.mapPage uaddr = unibusMapPage uaddr from rfl]
  unfold MapReaches at hslip
  obtain ⟨reg, hreg⟩ : ∃ reg, b.mapping.registers (unibusMapPage uaddr) = reg := ⟨_, rfl⟩
  rw [hreg] at hslip
  simp only [hreg, decide_and_eq_getLsbD reg 0x8000 15 (by decide) rfl,
    decide_and_eq_getLsbD reg 0x4000 14 (by decide) rfl, decide_hiword,
    show reg.getLsbD 15 = mapValid reg from rfl, show reg.getLsbD 14 = writePermit reg from rfl,
    pageAboveXbus_iff, shiftLeft_and_highHalf, and_lowHalf v, setWidth_shiftLeft,
    show ((reg &&& 0x3FFF).setWidth 32 <<< 8) ||| ((uaddr >>> 2) &&& 0xFF) =
      mappedPaddr reg uaddr from rfl, if_true, Bool.true_and]
  by_cases hvalid : mapValid reg = true
  · rw [hvalid]
    simp only [Bool.not_true, Bool.false_eq_true, if_false]
    by_cases hpermit : writePermit reg = true
    · rw [hpermit]
      simp only [Bool.not_true, Bool.false_eq_true, if_false]
      by_cases hmdpage : xbusPageNumber reg ≥ 0o37000
      · rw [if_pos hmdpage, if_pos hmdpage]
        unfold replaceHalf
        rw [setWidth_shiftLeft]
        exact hb.setMd _
      · rw [if_neg hmdpage, if_neg hmdpage]
        by_cases hhi : hiword uaddr = true
        · rw [if_pos hhi, if_pos hhi]
          have hpaddr : mappedPaddr reg uaddr ≠ 0o17377400 := fun heq =>
            hslip ⟨hvalid, fun _ => hpermit, hhi.symm, heq⟩
          have hwrite := xbusWrite_ported hdev hb (mappedPaddr_lt reg uaddr) hpaddr
            ((v <<< 16) ||| (b.mapping.buffers (unibusMapPage uaddr)).setWidth 32)
          rcases hwrite.cases with ⟨r, r', hr, hr', hported⟩ | ⟨e, d, hr, hr'⟩
          · simp only [hr, hr']
            exact hported
          · simp only [hr, hr']
            trivial
        · rw [if_neg hhi, if_neg hhi]
          exact hb.setBuffer _ _
    · rw [Bool.not_eq_true] at hpermit
      rw [hpermit]
      exact hb.setUnibusMapError
  · rw [Bool.not_eq_true] at hvalid
    rw [hvalid]
    exact hb.setUnibusMapError

/-- Without a second machine no command is executed. -/
theorem lashupDebuggerXmt_detached {lashup : Lashup δ} (h : lashup.targetPort = 0)
    (request : LashupRequest) : lashupDebuggerXmt lashup request b = (none, b) :=
  if_pos h

/-- The registers of the bus interface that can be read. -/
def IsReadable (uaddr : Word) : Prop :=
  uaddr = 0o766040 ∨ uaddr = 0o766044 ∨ uaddr = 0o766100 ∨ uaddr = 0o766104

/-- The bus interface, read. -/
theorem busInterfaceRead_ported {lashup : Lashup δ} (hlashup : lashup.targetPort = 0)
    (hb : Ported b b') (uaddr : Word) (pv : HalfWord) :
    (pv = 0 ∨ IsReadable uaddr → (busInterfaceRead lashup uaddr pv b).1.setWidth 32 =
      (SharpBusInterface.read uaddr b').1) ∧
    Ported (busInterfaceRead lashup uaddr pv b).2 (SharpBusInterface.read uaddr b').2 := by
  unfold busInterfaceRead SharpBusInterface.read
  by_cases hstatus : uaddr = 0o766040
  · rw [if_pos hstatus, if_pos hstatus]
    refine ⟨fun _ => ?_, hb⟩
    rw [hb.mirror]
    exact setWidth_setWidth_of_lt hb.statusReg
  rw [if_neg hstatus, if_neg hstatus]
  by_cases herror : uaddr = 0o766044
  · rw [if_pos herror, if_pos herror, hb.mirror]
    exact ⟨fun _ => rfl, hb.mirror ▸ hb⟩
  rw [if_neg herror, if_neg herror]
  by_cases hdata : uaddr = 0o766100
  · rw [if_pos hdata, if_pos hdata, lashupDebuggerRead, lashupDebuggerXmt_detached hlashup]
    exact ⟨fun _ => rfl, hb⟩
  rw [if_neg hdata, if_neg hdata]
  by_cases hdebuggee : uaddr = 0o766104
  · rw [if_pos hdebuggee, if_pos hdebuggee, hb.debuggee]
    exact ⟨fun _ => rfl, hb⟩
  rw [if_neg hdebuggee, if_neg hdebuggee]
  refine ⟨fun hread => ?_, hb.setUnibusNxm⟩
  rcases hread with rfl | h | h | h | h
  · rfl
  all_goals contradiction

/-- The modifier bits, of which the port keeps bit 0. -/
theorem busInterfaceWriteModifier_ported {lashup : Lashup δ} (hlashup : lashup.targetPort = 0)
    (hb : Ported b b') (v : Word) :
    Ported (busInterfaceWriteModifier lashup (v.setWidth 16) b)
      (SharpBusInterface.update ({ · with addr17 := decide (v &&& 0x1 ≠ 0) }) b') := by
  have hbit : (v.setWidth 16).getLsbD 0 = decide (v &&& 0x1 ≠ 0) := by
    rw [decide_and_eq_getLsbD v 1 0 (by decide) rfl, BitVec.getLsbD_setWidth]
    rfl
  have haddr17 : Ported (b.onInterface ({ · with addr17 := (v.setWidth 16).getLsbD 0 }))
      (SharpBusInterface.update ({ · with addr17 := decide (v &&& 0x1 ≠ 0) }) b') := by
    rw [hbit]
    exact hb.onInterface (fun _ => rfl) hb.debuggee
  unfold busInterfaceWriteModifier
  simp only [lashupDebuggerXmt_detached hlashup, ite_self]
  split_ifs
  · exact haddr17
  · exact haddr17
  · obtain ⟨hmirror, hstatus, hdebuggee⟩ := haddr17
    exact ⟨hmirror, hstatus, hdebuggee⟩

/-- The bus interface, written. -/
theorem busInterfaceWrite_ported {lashup : Lashup δ} (hlashup : lashup.targetPort = 0)
    (hb : Ported b b') (uaddr v : Word) :
    Ported (busInterfaceWrite lashup uaddr (v.setWidth 16) b)
      (SharpBusInterface.write uaddr v b') := by
  unfold busInterfaceWrite SharpBusInterface.write
  by_cases hclear : uaddr = 0o766040
  · rw [if_pos hclear, if_pos hclear]
    exact hb.writeInterruptStatusReg _ v (by decide)
  rw [if_neg hclear, if_neg hclear]
  by_cases hset : uaddr = 0o766042
  · rw [if_pos hset, if_pos hset]
    exact hb.writeInterruptStatusReg _ v (by decide)
  rw [if_neg hset, if_neg hset]
  by_cases herror : uaddr = 0o766044
  · rw [if_pos herror, if_pos herror]
    exact hb.onInterface (fun _ => rfl) rfl
  rw [if_neg herror, if_neg herror]
  by_cases hdata : uaddr = 0o766100
  · rw [if_pos hdata, if_pos hdata]
    simp only [lashupDebuggerXmt_detached hlashup, Option.isSome_none, Bool.false_eq_true,
      false_and, if_false]
    exact hb
  rw [if_neg hdata, if_neg hdata]
  by_cases hunibus : uaddr = 0o766102
  · rw [if_pos hunibus, if_pos hunibus]
    rw [lashupDebuggerXmt_detached hlashup]
    exact hb
  rw [if_neg hunibus, if_neg hunibus]
  by_cases hmodifier : uaddr = 0o766110
  · rw [if_pos hmodifier, if_pos hmodifier]
    exact busInterfaceWriteModifier_ported hlashup hb v
  rw [if_neg hmodifier, if_neg hmodifier]
  by_cases hunused : uaddr = 0o766112
  · rw [if_pos hunused, if_pos hunused]
    exact hb
  rw [if_neg hunused, if_neg hunused]
  by_cases haddr : uaddr = 0o766114
  · rw [if_pos haddr, if_pos haddr]
    exact hb.onInterface (fun _ => rfl) hb.debuggee
  · rw [if_neg haddr, if_neg haddr]
    exact hb.setUnibusNxm

/-- The window of the mapping registers, read. -/
theorem unibusMappingRead_ported (hb : Ported b b') (uaddr : Word) (pv : HalfWord) :
    (pv = 0 ∨ IsMappingRegister uaddr → (unibusMappingRw false uaddr pv b).1.setWidth 32 =
        (SharpBusAdaptor.unibusMappingRead uaddr b').1) ∧
      Ported (unibusMappingRw false uaddr pv b).2
        (SharpBusAdaptor.unibusMappingRead uaddr b').2 := by
  unfold unibusMappingRw SharpBusAdaptor.unibusMappingRead
  by_cases hregister : IsMappingRegister uaddr
  · simp only [if_pos hregister, if_pos (show _ ∧ _ ∧ _ from hregister), Bool.false_eq_true,
      if_false]
    refine ⟨fun _ => ?_, hb⟩
    rw [hb.mirror]
    rfl
  · simp only [if_neg hregister, if_neg (show ¬(_ ∧ _ ∧ _) from hregister)]
    refine ⟨fun h => ?_, hb.setUnibusNxm⟩
    rcases h with rfl | h
    · rfl
    · exact absurd h hregister

/-- The window of the mapping registers, written. -/
theorem unibusMappingWrite_ported (hb : Ported b b') (uaddr v : Word) :
    Ported (unibusMappingRw true uaddr (v.setWidth 16) b).2
      (SharpBusAdaptor.unibusMappingWrite uaddr v b') := by
  unfold unibusMappingRw SharpBusAdaptor.unibusMappingWrite
  by_cases hregister : IsMappingRegister uaddr
  · simp only [if_pos hregister, if_pos (show _ ∧ _ ∧ _ from hregister), if_true]
    obtain ⟨rfl, hstatus, hdebuggee⟩ := hb
    exact ⟨rfl, hstatus, hdebuggee⟩
  · simp only [if_neg hregister, if_neg (show ¬(_ ∧ _ ∧ _) from hregister)]
    exact hb.setUnibusNxm

/-- An address whose read assigns no value in the C program: it lies in the
window of the bus interface and none of its registers that can be read is there. -/
def IsUnassigned (uaddr : Word) : Prop :=
  0o766040 ≤ uaddr ∧ uaddr ≤ 0o766136 ∧ ¬IsReadable uaddr

/-- The Unibus, read. -/
theorem readUnibus_ported (hdev : AttachedIdentically dev dev') (hb : Ported b b')
    (uaddr : Word)
    (hslip : 0o140000 ≤ uaddr → uaddr ≤ 0o177777 → ¬MapReaches b false uaddr 0o17377400)
    (pv : HalfWord) :
    AgreesUpTo (fun r r' =>
        (pv = 0 ∨ ¬IsUnassigned uaddr ∧ uaddr &&& 1 = 0 → r.1.setWidth 32 = r'.1) ∧
          Ported r.2 r'.2)
      (busAdaptorUnibusRw dev false uaddr pv b) (SharpBusAdaptor.readUnibus dev' uaddr b') := by
  obtain ⟨iob, hiob, hsameiob⟩ := hdev.iob
  obtain ⟨tape, htape, hsametape⟩ := hdev.tapeController
  unfold busAdaptorUnibusRw SharpBusAdaptor.readUnibus
  rw [hiob, htape, unibusWindows_comm]
  simp only [Bool.false_eq_true, if_false]
  by_cases hmap : 0o140000 ≤ uaddr ∧ uaddr ≤ 0o177777
  · rw [if_pos hmap, if_pos hmap]
    exact (unibusMapDmaRead_ported hdev hb (hslip hmap.1 hmap.2) pv).mono
      fun _ _ h => ⟨fun _ => h.1, h.2⟩
  rw [if_neg hmap, if_neg hmap]
  by_cases hiobw : 0o764000 ≤ uaddr ∧ uaddr ≤ 0o764176
  · rw [if_pos hiobw, if_pos hiobw]
    have hread := hsameiob.readWired hb (uaddr - 0x3E800) pv
    rw [add_sub_cancel] at hread
    exact hread.mono fun _ _ h => ⟨fun _ => h.1, h.2⟩
  rw [if_neg hiobw, if_neg hiobw]
  by_cases hdiag : 0o766000 ≤ uaddr ∧ uaddr ≤ 0o766036
  · rw [if_pos hdiag, if_pos hdiag]
    have hread := hdev.diagnosticInterface.readWired hb uaddr pv
    rw [zero_add] at hread
    exact hread.mono fun _ _ h => ⟨fun _ => h.1, h.2⟩
  rw [if_neg hdiag, if_neg hdiag]
  by_cases hinterface : 0o766040 ≤ uaddr ∧ uaddr ≤ 0o766136
  · rw [if_pos hinterface, if_pos hinterface]
    have hread := busInterfaceRead_ported hdev.lashup hb uaddr pv
    refine ⟨fun hassigned => hread.1 (hassigned.imp_right fun h => ?_), hread.2⟩
    by_contra hnot
    exact h.1 ⟨hinterface.1, hinterface.2, hnot⟩
  rw [if_neg hinterface, if_neg hinterface]
  by_cases hmapping : 0o766140 ≤ uaddr ∧ uaddr ≤ 0o766176
  · rw [if_pos hmapping, if_pos hmapping]
    have hread := unibusMappingRead_ported hb uaddr pv
    exact ⟨fun h => hread.1 (h.imp_right fun h => ⟨hmapping.1, hmapping.2, h.2⟩), hread.2⟩
  rw [if_neg hmapping, if_neg hmapping]
  by_cases htapew : 0o772520 ≤ uaddr ∧ uaddr ≤ 0o772532
  · rw [if_pos htapew, if_pos htapew]
    have hread := hsametape.readWired hb (uaddr - 0x3F550) pv
    rw [add_sub_cancel] at hread
    exact hread.mono fun _ _ h => ⟨fun _ => h.1, h.2⟩
  · rw [if_neg htapew, if_neg htapew]
    exact ⟨fun _ => rfl, hb.setUnibusNxm⟩

/-- The Unibus, written. -/
theorem writeUnibus_ported (hdev : AttachedIdentically dev dev') (hb : Ported b b')
    (uaddr : Word)
    (hslip : 0o140000 ≤ uaddr → uaddr ≤ 0o177777 → ¬MapReaches b true uaddr 0o17377400)
    (v : Word) :
    AgreesUpTo (fun r => Ported r.2) (busAdaptorUnibusRw dev true uaddr (v.setWidth 16) b)
      (SharpBusAdaptor.writeUnibus dev' uaddr v b') := by
  obtain ⟨iob, hiob, hsameiob⟩ := hdev.iob
  obtain ⟨tape, htape, hsametape⟩ := hdev.tapeController
  unfold busAdaptorUnibusRw SharpBusAdaptor.writeUnibus
  rw [hiob, htape, unibusWindows_comm]
  simp only [if_true]
  by_cases hmap : 0o140000 ≤ uaddr ∧ uaddr ≤ 0o177777
  · rw [if_pos hmap, if_pos hmap]
    exact unibusMapDmaWrite_ported hdev hb (hslip hmap.1 hmap.2) v
  rw [if_neg hmap, if_neg hmap]
  by_cases hiobw : 0o764000 ≤ uaddr ∧ uaddr ≤ 0o764176
  · rw [if_pos hiobw, if_pos hiobw]
    have hwrite := hsameiob.writeWired hb (uaddr - 0x3E800) (v.setWidth 16)
    rwa [add_sub_cancel] at hwrite
  rw [if_neg hiobw, if_neg hiobw]
  by_cases hdiag : 0o766000 ≤ uaddr ∧ uaddr ≤ 0o766036
  · rw [if_pos hdiag, if_pos hdiag]
    have hwrite := hdev.diagnosticInterface.writeWired hb uaddr (v.setWidth 16)
    rwa [zero_add] at hwrite
  rw [if_neg hdiag, if_neg hdiag]
  by_cases hinterface : 0o766040 ≤ uaddr ∧ uaddr ≤ 0o766136
  · rw [if_pos hinterface, if_pos hinterface]
    exact busInterfaceWrite_ported hdev.lashup hb uaddr v
  rw [if_neg hinterface, if_neg hinterface]
  by_cases hmapping : 0o766140 ≤ uaddr ∧ uaddr ≤ 0o766176
  · rw [if_pos hmapping, if_pos hmapping]
    exact unibusMappingWrite_ported hb uaddr v
  rw [if_neg hmapping, if_neg hmapping]
  by_cases htapew : 0o772520 ≤ uaddr ∧ uaddr ≤ 0o772532
  · rw [if_pos htapew, if_pos htapew]
    have hwrite := hsametape.writeWired hb (uaddr - 0x3F550) (v.setWidth 16)
    rwa [add_sub_cancel] at hwrite
  · rw [if_neg htapew, if_neg htapew]
    exact hb.setUnibusNxm

end Windows

end Usim
