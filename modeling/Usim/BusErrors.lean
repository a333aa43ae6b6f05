import Usim.Lib.Runs
import Usim.TapeController
import Usim.UnibusMap

/-!
# The error bits of the bus interface

Which accesses fail and why, and runs of accesses by the processor, the tape
controller and a debugger on the Unibus. The devices on the Unibus are any that
leave the bus interface alone; the diagnostic interface does not have all the
registers of its window.
-/

namespace Usim

/-- The error bits that are used: bits 0, 3 and 5 of `bus_error_status`. -/
structure BusErrors where
  xbusNxm : Bool
  unibusNxm : Bool
  unibusMapError : Bool
  deriving DecidableEq, Repr

/-- No bit is set. -/
def BusErrors.clear : BusErrors := ⟨false, false, false⟩

/-- The bits that are set in one or the other. -/
def BusErrors.or (e e' : BusErrors) : BusErrors :=
  ⟨e.xbusNxm || e'.xbusNxm, e.unibusNxm || e'.unibusNxm, e.unibusMapError || e'.unibusMapError⟩

/-- The error bits as the processor reads them. -/
def BusInterface.errors (i : BusInterface) : BusErrors :=
  ⟨i.busErrorStatus.getLsbD 0, i.busErrorStatus.getLsbD 3, i.busErrorStatus.getLsbD 5⟩

/-- Why an access failed. -/
inductive BusFailure
  /-- The page of the main memory is not populated. -/
  | unpopulated
  /-- No device on the Xbus has the address. -/
  | xbusNxm
  /-- No device on the Unibus has the address. -/
  | unibusNxm
  /-- The Unibus map refused the access. -/
  | unibusMapError
  deriving DecidableEq, Repr

/-- The bit for a failure. -/
def BusFailure.bit : BusFailure → BusErrors
  | .unpopulated | .xbusNxm => ⟨true, false, false⟩
  | .unibusNxm => ⟨false, true, false⟩
  | .unibusMapError => ⟨false, false, true⟩

/-- A port whose device leaves the bus interface alone. -/
def Port.leavingInterface {w : ℕ} {δ : Type} (port : Port w δ) : Port w δ where
  read := fun register pv b =>
    (port.read register pv b).map fun r => (r.1, r.2.onInterface fun _ => b.interface)
  write := fun register v b =>
    (port.write register v b).map fun b' => b'.onInterface fun _ => b.interface

/-- The registers of the diagnostic interface; a debugging build has four more to write. -/
def DiagnosticRegister (debug write : Bool) (uaddr : Word) : Prop :=
  uaddr &&& 1 = 0 ∧ (write = false ∨ uaddr ≤ 0o766016 ∨ (debug ∧ uaddr ≤ 0o766026))

instance (debug write : Bool) (uaddr : Word) : Decidable (DiagnosticRegister debug write uaddr) :=
  inferInstanceAs (Decidable (_ ∧ (_ ∨ _ ∨ (_ ∧ _))))

/-- `diagnostic_interface_read`, `diagnostic_interface_write`, up to what the registers do. -/
def diagnosticPort {δ : Type} (debug : Bool) (registers : Port 16 δ) : Port 16 δ where
  read := fun uaddr pv b =>
    if DiagnosticRegister debug false uaddr then registers.leavingInterface.read uaddr pv b
    else .ok (pv, b.onInterface BusInterface.setUnibusNxm)
  write := fun uaddr v b =>
    if DiagnosticRegister debug true uaddr then registers.leavingInterface.write uaddr v b
    else .ok (b.onInterface BusInterface.setUnibusNxm)

/-- The bus with these devices on the Xbus, and devices on the Unibus that leave the bus
interface alone. -/
def BusDevices.attached (dev : BusDevices XbusDevices) (blocking colortvEnabled debug : Bool) :
    BusDevices XbusDevices :=
  { dev.withXbus blocking colortvEnabled with
    iobUnibus := dev.iobUnibus.leavingInterface
    diagnosticInterface := diagnosticPort debug dev.diagnosticInterface
    tapeControllerUnibus := dev.tapeControllerUnibus.leavingInterface }

/-! ### Which accesses fail -/

/-- The addresses of the devices on the Xbus. The control registers of the TVs have more
addresses to write than to read. -/
def XbusDevice (colortvEnabled write : Bool) (paddr : Word) : Prop :=
  (0o36000 ≤ pageNumber paddr ∧ pageNumber paddr ≤ 0o36777) ∧
    ((0o17000000 ≤ paddr ∧ paddr ≤ 0o17077777) ∨
      (colortvEnabled ∧ 0o17200000 ≤ paddr ∧ paddr ≤ 0o17277777) ∨
      (colortvEnabled ∧ 0o17377750 ≤ paddr ∧
        paddr ≤ if write then 0o17377754 else 0o17377751) ∨
      (0o17377760 ≤ paddr ∧ paddr ≤ if write then 0o17377763 else 0o17377761) ∨
      (0o17377774 ≤ paddr ∧ paddr ≤ 0o17377777))

instance (colortvEnabled write : Bool) (paddr : Word) :
    Decidable (XbusDevice colortvEnabled write paddr) :=
  inferInstanceAs (Decidable ((_ ∧ _) ∧ (_ ∨ _ ∨ _ ∨ _ ∨ _)))

/-- The registers of the bus interface. -/
def BusInterfaceRegister (write : Bool) (uaddr : Word) : Prop :=
  if write then
    uaddr ∈ [0o766040, 0o766042, 0o766044, 0o766100, 0o766102, 0o766110, 0o766112, 0o766114]
  else uaddr ∈ [0o766040, 0o766044, 0o766100, 0o766104]

instance (write : Bool) (uaddr : Word) : Decidable (BusInterfaceRegister write uaddr) :=
  inferInstanceAs (Decidable (if write then _ else _))

/-- The registers on the Unibus. An address in the window of the IOB or the tape controller
without a register stops the program. -/
def UnibusRegister (debug write : Bool) (uaddr : Word) : Prop :=
  (0o764000 ≤ uaddr ∧ uaddr ≤ 0o764176) ∨
    (0o766000 ≤ uaddr ∧ uaddr ≤ 0o766036 ∧ DiagnosticRegister debug write uaddr) ∨
    BusInterfaceRegister write uaddr ∨ IsMappingRegister uaddr ∨
    (0o772520 ≤ uaddr ∧ uaddr ≤ 0o772532)

instance (debug write : Bool) (uaddr : Word) : Decidable (UnibusRegister debug write uaddr) :=
  inferInstanceAs (Decidable (_ ∨ _ ∨ _ ∨ _ ∨ _))

/-- Why an access of the Xbus fails. -/
def xbusFailure (colortvEnabled write : Bool) (paddr : Word) (b : BusGlobals XbusDevices) :
    Option BusFailure :=
  if pageNumber paddr ≤ 0o35773 then
    if (pageNumber paddr).toNat < b.memory.npages then none else some .unpopulated
  else if XbusDevice colortvEnabled write paddr then none
  else some .xbusNxm

instance (b : BusGlobals XbusDevices) (uaddr : Word) : Decidable (b.OnXbus uaddr) :=
  inferInstanceAs (Decidable (_ < _))

/-- Why an access of the Unibus fails. Through the map, the low half of a read and the high half
of a write make an access of the Xbus. -/
def unibusFailure (colortvEnabled debug write : Bool) (uaddr : Word)
    (b : BusGlobals XbusDevices) : Option BusFailure :=
  if 0o140000 ≤ uaddr ∧ uaddr ≤ 0o177777 then
    if !b.responds write uaddr then some .unibusMapError
    else if b.OnXbus uaddr ∧ write = hiword uaddr then
      xbusFailure colortvEnabled write (b.mapped uaddr) b
    else none
  else if UnibusRegister debug write uaddr then none
  else some .unibusNxm

/-- The Unibus address that the processor names by a physical address. -/
def processorUaddr (paddr : Word) : Word :=
  (((pageNumber paddr - 0o37000) <<< 8) + (paddr &&& 0xFF)) <<< 1

/-- Why an access of the processor fails. -/
def processorFailure (colortvEnabled debug write : Bool) (paddr : Word)
    (b : BusGlobals XbusDevices) : Option BusFailure :=
  if pageNumber paddr ≤ 0o36777 then xbusFailure colortvEnabled write paddr b
  else unibusFailure colortvEnabled debug write (processorUaddr paddr) b

/-- What happens on the busses. -/
inductive BusEvent
  /-- The processor accesses the bus adaptor. -/
  | processor (write : Bool) (paddr v : Word)
  /-- The tape controller or a debugger accesses the Unibus. -/
  | unibus (write : Bool) (uaddr : Word) (pv : HalfWord)
  /-- The tape controller begins to transfer a record. -/
  | tapeTransfer
  /-- A debugger inhibits timeouts, or permits them. -/
  | inhibitNxm (inhibit : Bool)
  /-- The busses are reset, which leaves the devices as given. -/
  | busReset (b : BusGlobals XbusDevices)
  /-- Anything else, which leaves the bus interface. -/
  | elsewhere (b : BusGlobals XbusDevices)

variable (blocking colortvEnabled debug : Bool) (dev : BusDevices XbusDevices)

/-- One event on the busses. -/
def busStep (e : BusEvent) (b : BusGlobals XbusDevices) :
    Except ErrCall (BusGlobals XbusDevices) :=
  match e with
  | .processor write paddr v =>
    (busAdaptorRw (busRoutines (dev.attached blocking colortvEnabled debug)) write paddr v b).map
      Prod.snd
  | .unibus write uaddr pv =>
    (busAdaptorUnibusRw (dev.attached blocking colortvEnabled debug) write uaddr pv b).map Prod.snd
  | .tapeTransfer => .ok (b.onInterface BusInterface.resetBusErrorStatus)
  | .inhibitNxm inhibit => .ok (b.onInterface ({ · with nxmInhibited := inhibit }))
  | .busReset b' => .ok (b'.onInterface fun _ => ⟨0, false, false, 0, false, 0⟩)
  | .elsewhere b' => .ok (b'.onInterface fun _ => b.interface)

/-- The event writes 0766044. -/
def BusEvent.clears : BusEvent → Bool
  | .processor write paddr _ => write && decide (0o36777 < pageNumber paddr) &&
      decide (processorUaddr paddr = 0o766044)
  | .unibus write uaddr _ => write && decide (uaddr = 0o766044)
  | _ => false

/-- Why the event fails. -/
def BusEvent.failure (colortvEnabled debug : Bool) (e : BusEvent) (b : BusGlobals XbusDevices) :
    Option BusFailure :=
  match e with
  | .processor write paddr _ => processorFailure colortvEnabled debug write paddr b
  | .unibus write uaddr _ => unibusFailure colortvEnabled debug write uaddr b
  | _ => none

/-- The busses, and the bits for the failures since the last one was cleared. -/
structure BusRecord where
  bus : BusGlobals XbusDevices
  failures : BusErrors

namespace BusRecord

/-- The failures after an event: those that are not inhibited are added, and a write of 0766044
or a bus reset clears them. -/
def record (e : BusEvent) (s : BusRecord) : BusErrors :=
  match e with
  | .busReset _ => .clear
  | e =>
    if e.clears then .clear
    else if s.bus.interface.nxmInhibited then s.failures
    else s.failures.or (((e.failure colortvEnabled debug s.bus).map BusFailure.bit).getD .clear)

/-- One event. -/
def step (e : BusEvent) (s : BusRecord) : Except ErrCall BusRecord :=
  (busStep blocking colortvEnabled debug dev e s.bus).map fun bus =>
    ⟨bus, s.record colortvEnabled debug e⟩

/-- The error bits are the failures. -/
def Accurate (s : BusRecord) : Prop := s.bus.interface.errors = s.failures

/-- The tape controller begins a transfer only while no bit is set; an unpopulated page of
memory is accessed only with timeouts inhibited or Xbus NXM set; and the Unibus map refuses
an access only with timeouts permitted or the map error set. -/
def Recorded : BusEvent → BusRecord → Prop
  | .tapeTransfer, s => s.failures = .clear
  | e, s =>
    (e.failure colortvEnabled debug s.bus = some .unpopulated →
        s.bus.interface.nxmInhibited ∨ s.failures.xbusNxm) ∧
      (e.failure colortvEnabled debug s.bus = some .unibusMapError →
        ¬s.bus.interface.nxmInhibited ∨ s.failures.unibusMapError)

end BusRecord

/-! ### What an access sets -/

/-- The bit that the bus interface sets for a failure. -/
def BusFailure.raised (inhibited : Bool) : BusFailure → BusErrors
  | .unpopulated => .clear
  | .xbusNxm => if inhibited then .clear else ⟨true, false, false⟩
  | .unibusNxm => if inhibited then .clear else ⟨false, true, false⟩
  | .unibusMapError => ⟨false, false, true⟩

/-- What an access that fails, or does not, does to the error bits. -/
structure Raises (failure : Option BusFailure) (b b' : BusGlobals XbusDevices) : Prop where
  errors : b'.interface.errors = b.interface.errors.or
    ((failure.map (BusFailure.raised b.interface.nxmInhibited)).getD .clear)
  inhibited : b'.interface.nxmInhibited = b.interface.nxmInhibited

variable {blocking colortvEnabled debug dev} {b : BusGlobals XbusDevices}

@[simp] theorem BusErrors.or_clear (e : BusErrors) : e.or .clear = e := by
  simp [BusErrors.or, BusErrors.clear]

/-- No bit is set when the status is 0. -/
theorem BusInterface.errors_clear {i : BusInterface} (h : i.busErrorStatus = 0) :
    i.errors = .clear := by
  unfold errors
  rw [h]
  rfl

/-- The bus interface is left alone. -/
theorem raises_none {b' : BusGlobals XbusDevices} (h : b'.interface = b.interface) :
    Raises none b b' :=
  ⟨by rw [h]; exact (BusErrors.or_clear _).symm, by rw [h]⟩

/-- An unpopulated page does not show. -/
theorem raises_unpopulated {b' : BusGlobals XbusDevices} (h : b'.interface = b.interface) :
    Raises (some .unpopulated) b b' :=
  ⟨by rw [h]; exact (BusErrors.or_clear _).symm, by rw [h]⟩

/-- A setter of the bus interface that sets the bit of a failure. -/
theorem raises_onInterface {failure : BusFailure} {f : BusInterface → BusInterface}
    (h : ∀ i, (f i).errors = i.errors.or (failure.raised i.nxmInhibited) ∧
      (f i).nxmInhibited = i.nxmInhibited) (b : BusGlobals XbusDevices) :
    Raises (some failure) b (b.onInterface f) :=
  ⟨(h b.interface).1, (h b.interface).2⟩

/-- `bus_interface_set_xbus_nxm` sets its bit, unless it is inhibited. -/
theorem raises_setXbusNxm (b : BusGlobals XbusDevices) :
    Raises (some .xbusNxm) b (b.onInterface BusInterface.setXbusNxm) := by
  refine raises_onInterface (fun i => ?_) b
  unfold BusInterface.setXbusNxm BusFailure.raised
  cases hi : i.nxmInhibited
  · exact ⟨by simp [BusInterface.errors, BusErrors.or], rfl⟩
  · exact ⟨by simp, hi⟩

/-- So does `bus_interface_set_unibus_nxm`. -/
theorem raises_setUnibusNxm (b : BusGlobals XbusDevices) :
    Raises (some .unibusNxm) b (b.onInterface BusInterface.setUnibusNxm) := by
  refine raises_onInterface (fun i => ?_) b
  unfold BusInterface.setUnibusNxm BusFailure.raised
  cases hi : i.nxmInhibited
  · exact ⟨by simp [BusInterface.errors, BusErrors.or], rfl⟩
  · exact ⟨by simp, hi⟩

/-- `bus_interface_set_unibus_map_error` sets its bit in any case. -/
theorem raises_setUnibusMapError (b : BusGlobals XbusDevices) :
    Raises (some .unibusMapError) b (b.onInterface BusInterface.setUnibusMapError) := by
  refine raises_onInterface (f := BusInterface.setUnibusMapError) (fun i => ⟨?_, rfl⟩) b
  simp [BusInterface.setUnibusMapError, BusFailure.raised, BusInterface.errors, BusErrors.or]

/-- An access of a port that leaves the bus interface. -/
theorem raises_port {w : ℕ} {port : Port w XbusDevices} {write : Bool} {register : Word}
    {v : BitVec w} {r : BitVec w × BusGlobals XbusDevices}
    (hread : ∀ r, port.read register v b = .ok r → r.2.interface = b.interface)
    (hwrite : ∀ b', port.write register v b = .ok b' → b'.interface = b.interface)
    (h : port.rw write register v b = .ok r) : Raises none b r.2 := by
  unfold Port.rw at h
  cases write with
  | false => exact raises_none (hread r h)
  | true =>
    rw [if_pos rfl] at h
    cases hw : port.write register v b with
    | ok b' =>
      rw [hw] at h
      cases h
      exact raises_none (hwrite b' hw)
    | error e =>
      rw [hw] at h
      cases h

/-- A port that leaves the bus interface by definition. -/
theorem raises_leavingInterface {w : ℕ} {port : Port w XbusDevices} {write : Bool}
    {register : Word} {v : BitVec w} {r : BitVec w × BusGlobals XbusDevices}
    (h : port.leavingInterface.rw write register v b = .ok r) : Raises none b r.2 := by
  refine raises_port (fun r hr => ?_) (fun b' hb' => ?_) h
  · obtain ⟨r', -, rfl⟩ := Lib.exists_of_map_eq_ok hr
    rfl
  · obtain ⟨b'', -, rfl⟩ := Lib.exists_of_map_eq_ok hb'
    rfl

/-- The registers of the monochrome TV that can be read. -/
theorem Tv.controlRead_isSome (t : Tv) (offset : Word) :
    (t.controlRead offset).isSome ↔ offset ≤ 1 := by
  unfold Tv.controlRead
  split_ifs <;> simp <;> bv_omega

/-- The registers that can be written. -/
theorem Tv.controlWrite_isSome (t : Tv) (offset v : Word) :
    (t.controlWrite offset v).isSome ↔ offset ≤ 3 := by
  unfold Tv.controlWrite
  split_ifs <;> simp <;> bv_omega

/-- The registers of the colour TV that can be read. -/
theorem ColorTv.controlRead_isSome (t : ColorTv) (offset : Word) :
    (t.controlRead offset).isSome ↔ offset ≤ 1 := by
  unfold ColorTv.controlRead
  split_ifs <;> simp <;> bv_omega

/-- The registers that can be written. -/
theorem ColorTv.controlWrite_isSome {t : ColorTv} {offset v : Word} {o : RegisterAccess ColorTv}
    (h : t.controlWrite offset v = .ok o) : o.isSome ↔ offset ≤ 4 := by
  unfold ColorTv.controlWrite at h
  by_cases h4 : offset = 4
  · subst h4
    obtain ⟨t', -, rfl⟩ := Lib.exists_of_map_eq_ok (x := t.writeColorMap v) h
    exact iff_of_true rfl (by decide)
  · simp only [h4, if_false] at h
    split_ifs at h <;> cases h <;> simp <;> bv_omega

/-- The control registers of the monochrome TV: four to write, two to read. -/
theorem raises_tvControlPort {write : Bool} {offset v : Word}
    {r : Word × BusGlobals XbusDevices} (h : tvControlPort.rw write offset v b = .ok r) :
    Raises (if offset ≤ if write then 3 else 1 then none else some .xbusNxm) b r.2 := by
  unfold Port.rw tvControlPort at h
  cases write with
  | false =>
    simp only [Bool.false_eq_true, if_false] at h ⊢
    have hregister := b.xbusDevices.tv.controlRead_isSome offset
    cases hread : b.xbusDevices.tv.controlRead offset with
    | none =>
      rw [hread] at h hregister
      cases h
      rw [if_neg (hregister.not.mp (by decide))]
      exact raises_setXbusNxm b
    | some v' =>
      rw [hread] at h hregister
      cases h
      rw [if_pos (hregister.mp rfl)]
      exact raises_none rfl
  | true =>
    simp only [if_true] at h ⊢
    have hregister := b.xbusDevices.tv.controlWrite_isSome offset v
    cases hwrite : b.xbusDevices.tv.controlWrite offset v with
    | none =>
      rw [hwrite] at h hregister
      cases h
      rw [if_neg (hregister.not.mp (by decide))]
      exact raises_setXbusNxm b
    | some tv =>
      rw [hwrite] at h hregister
      cases h
      rw [if_pos (hregister.mp rfl)]
      exact raises_none rfl

/-- The control registers of the colour TV: five to write, two to read. -/
theorem raises_colorTvControlPort {write : Bool} {offset v : Word}
    {r : Word × BusGlobals XbusDevices} (h : colorTvControlPort.rw write offset v b = .ok r) :
    Raises (if offset ≤ if write then 4 else 1 then none else some .xbusNxm) b r.2 := by
  unfold Port.rw colorTvControlPort at h
  cases write with
  | false =>
    simp only [Bool.false_eq_true, if_false] at h ⊢
    have hregister := b.xbusDevices.colorTv.controlRead_isSome offset
    cases hread : b.xbusDevices.colorTv.controlRead offset with
    | none =>
      rw [hread] at h hregister
      cases h
      rw [if_neg (hregister.not.mp (by decide))]
      exact raises_setXbusNxm b
    | some v' =>
      rw [hread] at h hregister
      cases h
      rw [if_pos (hregister.mp rfl)]
      exact raises_none rfl
  | true =>
    simp only [if_true] at h ⊢
    cases hwrite : b.xbusDevices.colorTv.controlWrite offset v with
    | error e =>
      rw [hwrite] at h
      cases h
    | ok tv =>
      have hregister := ColorTv.controlWrite_isSome hwrite
      rw [hwrite] at h
      cases tv with
      | none =>
        cases h
        rw [if_neg (hregister.not.mp (by decide))]
        exact raises_setXbusNxm b
      | some tv =>
        cases h
        rw [if_pos (hregister.mp rfl)]
        exact raises_none rfl

/-- An access of the disk controller leaves the bus interface. -/
theorem raises_diskPort {write : Bool} {offset v : Word} {r : Word × BusGlobals XbusDevices}
    (h : (diskPort blocking).rw write offset v b = .ok r) : Raises none b r.2 := by
  refine raises_port (fun r hr => ?_) (fun b' hb' => ?_) h
  · obtain ⟨v', -, rfl⟩ := Lib.exists_of_map_eq_ok hr
    rfl
  · obtain ⟨g, -, rfl⟩ := Lib.exists_of_map_eq_ok hb'
    rfl

/-- A TV screen leaves it, too. -/
theorem raises_tvScreenPort {write : Bool} {offset v : Word} {r : Word × BusGlobals XbusDevices}
    (h : tvScreenPort.rw write offset v b = .ok r) : Raises none b r.2 := by
  refine raises_port (fun r hr => ?_) (fun b' hb' => ?_) h
  · cases hr
    rfl
  · cases hb'
    rfl

theorem raises_colorTvScreenPort {write : Bool} {offset v : Word}
    {r : Word × BusGlobals XbusDevices} (h : colorTvScreenPort.rw write offset v b = .ok r) :
    Raises none b r.2 := by
  refine raises_port (fun r hr => ?_) (fun b' hb' => ?_) h
  · cases hr
    rfl
  · cases hb'
    rfl

/-- The window of the control registers of the colour TV holds five registers. -/
theorem xbusDevice_colorTvControl {write : Bool} {paddr : Word}
    (hio : 0o36000 ≤ pageNumber paddr ∧ pageNumber paddr ≤ 0o36777)
    (h : colortvEnabled ∧ 0o17377750 ≤ paddr ∧ paddr ≤ 0o17377757) :
    XbusDevice colortvEnabled write paddr ↔
      paddr - 0o17377750 ≤ if write then 4 else 1 := by
  unfold XbusDevice
  simp only [hio, h.1, and_self, true_and]
  cases write <;> simp only [Bool.false_eq_true, if_true, if_false] <;> bv_omega

/-- The window of those of the monochrome TV holds four. -/
theorem xbusDevice_tvControl {write : Bool} {paddr : Word}
    (hio : 0o36000 ≤ pageNumber paddr ∧ pageNumber paddr ≤ 0o36777)
    (h : 0o17377760 ≤ paddr ∧ paddr ≤ 0o17377767) :
    XbusDevice colortvEnabled write paddr ↔
      paddr - 0o17377760 ≤ if write then 3 else 1 := by
  unfold XbusDevice
  simp only [hio, and_self, true_and]
  cases write <;> simp only [Bool.false_eq_true, if_true, if_false] <;> bv_omega

/-- An access in the window of the devices sets Xbus NXM if there is none. -/
theorem raises_busAdaptorXbusioRw {write : Bool} {paddr v : Word}
    {r : Word × BusGlobals XbusDevices}
    (hio : 0o36000 ≤ pageNumber paddr ∧ pageNumber paddr ≤ 0o36777)
    (h : busAdaptorXbusioRw (dev.attached blocking colortvEnabled debug) write paddr v b = .ok r) :
    Raises (if XbusDevice colortvEnabled write paddr then none else some .xbusNxm) b r.2 := by
  unfold busAdaptorXbusioRw at h
  have hcolor : (dev.attached blocking colortvEnabled debug).colortvEnabled = colortvEnabled := rfl
  rw [hcolor] at h
  split_ifs at h with h1 h2 h3 h4 h5
  · rw [if_pos (show XbusDevice _ _ _ from ⟨hio, .inl h1⟩)]
    exact raises_tvScreenPort h
  · rw [if_pos (show XbusDevice _ _ _ from ⟨hio, .inr (.inl h2)⟩)]
    exact raises_colorTvScreenPort h
  · simp only [xbusDevice_colorTvControl hio h3]
    exact raises_colorTvControlPort h
  · simp only [xbusDevice_tvControl hio h4]
    exact raises_tvControlPort h
  · rw [if_pos (show XbusDevice _ _ _ from ⟨hio, .inr (.inr (.inr (.inr h5)))⟩)]
    exact raises_diskPort h
  all_goals
    have hdevice : ¬XbusDevice colortvEnabled write paddr := by
      rintro ⟨-, hw | hw | ⟨hc, hw, hw'⟩ | ⟨hw, hw'⟩ | hw⟩
      · exact h1 hw
      · exact h2 hw
      · refine h3 ⟨hc, hw, ?_⟩
        split at hw' <;> bv_omega
      · refine h4 ⟨hw, ?_⟩
        split at hw' <;> bv_omega
      · exact h5 hw
    rw [if_neg hdevice]
    cases h
    exact raises_setXbusNxm b

/-- An access of the Xbus sets Xbus NXM if no device has the address. -/
theorem raises_busAdaptorXbusRw {write : Bool} {paddr v : Word} {r : Word × BusGlobals XbusDevices}
    (h : busAdaptorXbusRw (xbusRoutines (dev.attached blocking colortvEnabled debug)) write paddr v
      b = .ok r) : Raises (xbusFailure colortvEnabled write paddr b) b r.2 := by
  unfold busAdaptorXbusRw at h
  simp only at h
  unfold xbusFailure
  by_cases hmemory : pageNumber paddr ≤ 0o35773
  · rw [if_pos hmemory] at h ⊢
    have hsame : r.2.interface = b.interface := by
      split at h <;> cases h <;> rfl
    split
    · exact raises_none hsame
    · exact raises_unpopulated hsame
  rw [if_neg hmemory] at h ⊢
  by_cases hio : 0o36000 ≤ pageNumber paddr ∧ pageNumber paddr ≤ 0o36777
  · rw [if_pos hio] at h
    exact raises_busAdaptorXbusioRw hio h
  · rw [if_neg hio] at h
    rw [if_neg fun hdevice : XbusDevice colortvEnabled write paddr => hio hdevice.1]
    cases h
    exact raises_setXbusNxm b

/-- An access through the Unibus map: the map refuses it, or the half that accesses the Xbus
fails there. -/
theorem raises_unibusMapRw {write : Bool} {uaddr : Word} {pv : HalfWord}
    {r : HalfWord × BusGlobals XbusDevices}
    (h : unibusMapRw (dev.attached blocking colortvEnabled debug) write uaddr pv b = .ok r) :
    Raises (if !b.responds write uaddr then some .unibusMapError
      else if b.OnXbus uaddr ∧ write = hiword uaddr then
        xbusFailure colortvEnabled write (b.mapped uaddr) b
      else none) b r.2 := by
  cases hresponds : b.responds write uaddr with
  | false =>
    rw [unibusMapRw_refused _ pv hresponds] at h
    cases h
    exact raises_setUnibusMapError b
  | true =>
    rw [if_neg (by decide)]
    by_cases hxbus : b.OnXbus uaddr
    · rw [unibusMapRw_onXbus _ pv hresponds hxbus] at h
      simp only [hxbus, true_and]
      cases write with
      | false =>
        rw [if_neg Bool.false_ne_true] at h
        cases hhigh : hiword uaddr with
        | true =>
          rw [hhigh, if_pos rfl] at h
          cases h
          exact raises_none rfl
        | false =>
          rw [hhigh, if_neg Bool.false_ne_true] at h
          obtain ⟨r', hr', rfl⟩ := Lib.exists_of_map_eq_ok h
          have hraises := raises_busAdaptorXbusRw hr'
          exact ⟨hraises.errors, hraises.inhibited⟩
      | true =>
        rw [if_pos rfl] at h
        cases hhigh : hiword uaddr with
        | true =>
          rw [hhigh, if_pos rfl] at h
          obtain ⟨r', hr', rfl⟩ := Lib.exists_of_map_eq_ok h
          have hraises := raises_busAdaptorXbusRw hr'
          exact ⟨hraises.errors, hraises.inhibited⟩
        | false =>
          rw [hhigh, if_neg Bool.false_ne_true] at h
          cases h
          exact raises_none rfl
    · rw [if_neg fun hboth => hxbus hboth.1]
      rw [unibusMapRw_onMd _ pv hresponds hxbus] at h
      cases write with
      | false =>
        cases h
        exact raises_none rfl
      | true =>
        cases h
        exact raises_none rfl

/-! ### The registers of the bus interface -/

/-- A change that leaves the error bits. -/
theorem raises_kept {b' : BusGlobals XbusDevices}
    (hstatus : b'.interface.busErrorStatus = b.interface.busErrorStatus)
    (hinhibited : b'.interface.nxmInhibited = b.interface.nxmInhibited) : Raises none b b' := by
  refine ⟨?_, hinhibited⟩
  have herrors : b'.interface.errors = b.interface.errors := by
    unfold BusInterface.errors
    rw [hstatus]
  rw [herrors]
  exact (BusErrors.or_clear _).symm

theorem Raises.trans {b b' b'' : BusGlobals XbusDevices} (h : Raises none b b')
    (h' : Raises none b' b'') : Raises none b b'' := by
  refine ⟨?_, h'.inhibited.trans h.inhibited⟩
  have herrors := h.errors
  have herrors' := h'.errors
  simp only [Option.map_none, Option.getD_none, BusErrors.or_clear] at herrors herrors' ⊢
  rw [herrors', herrors]

/-- A request to the second machine leaves the error bits of this one. -/
theorem raises_lashupDebuggerXmt (lashup : Lashup XbusDevices) (request : LashupRequest)
    (b : BusGlobals XbusDevices) : Raises none b (lashupDebuggerXmt lashup request b).2 := by
  unfold lashupDebuggerXmt
  simp only
  split_ifs
  · exact raises_none rfl
  · cases (lashup.exchange request b.dev.devices.devices).1 with
    | none => exact raises_kept rfl rfl
    | some reply => exact raises_kept rfl rfl

/-- So do the modifier bits. -/
theorem raises_busInterfaceWriteModifier (lashup : Lashup XbusDevices) (v : HalfWord)
    (b : BusGlobals XbusDevices) : Raises none b (busInterfaceWriteModifier lashup v b) := by
  have hrequest (c : Prop) [Decidable c] (request : LashupRequest) (b : BusGlobals XbusDevices) :
      Raises none b (if c then (lashupDebuggerXmt lashup request b).2 else b) := by
    split_ifs
    · exact raises_lashupDebuggerXmt lashup request b
    · exact raises_none rfl
  unfold busInterfaceWriteModifier
  extract_lets b₁ reset timeoutInhibit debuggeeMark debuggerMark ping markSymbol b₂ b₃ b₄
  have haddr : Raises none b b₁ := raises_kept rfl rfl
  have hmark : Raises none b₁ b₂ := hrequest _ _ _
  have hreset : Raises none b₂ b₃ := hrequest _ _ _
  have hmodifier : Raises none b₃ b₄ := raises_kept rfl rfl
  split
  · exact haddr.trans hmark
  split
  · exact (haddr.trans hmark).trans (raises_lashupDebuggerXmt lashup _ _)
  · exact (((haddr.trans hmark).trans hreset).trans hmodifier).trans
      (raises_lashupDebuggerXmt lashup _ _)

/-- A read of the registers sets Unibus NXM if there is no such register. -/
theorem raises_busInterfaceRead (lashup : Lashup XbusDevices) (uaddr : Word) (pv : HalfWord)
    (b : BusGlobals XbusDevices) :
    Raises (if BusInterfaceRegister false uaddr then none else some .unibusNxm) b
      (busInterfaceRead lashup uaddr pv b).2 := by
  have hregister : BusInterfaceRegister false uaddr ↔
      uaddr = 0o766040 ∨ uaddr = 0o766044 ∨ uaddr = 0o766100 ∨ uaddr = 0o766104 := by
    simp [BusInterfaceRegister]
  unfold busInterfaceRead lashupDebuggerRead
  by_cases hknown : BusInterfaceRegister false uaddr
  · rw [if_pos hknown]
    rw [hregister] at hknown
    rcases hknown with rfl | rfl | rfl | rfl
    · exact raises_none rfl
    · exact raises_none rfl
    · exact raises_lashupDebuggerXmt lashup _ b
    · exact raises_none rfl
  · rw [if_neg hknown]
    rw [hregister] at hknown
    simp only [not_or] at hknown
    obtain ⟨h40, h44, h100, h104⟩ := hknown
    rw [if_neg h40, if_neg h44, if_neg h100, if_neg h104]
    exact raises_setUnibusNxm b

/-- So does a write, except in 0766044. -/
theorem raises_busInterfaceWrite (lashup : Lashup XbusDevices) {uaddr : Word} (v : HalfWord)
    (b : BusGlobals XbusDevices) (hstatus : uaddr ≠ 0o766044) :
    Raises (if BusInterfaceRegister true uaddr then none else some .unibusNxm) b
      (busInterfaceWrite lashup uaddr v b) := by
  have hregister : BusInterfaceRegister true uaddr ↔
      uaddr = 0o766040 ∨ uaddr = 0o766042 ∨ uaddr = 0o766044 ∨ uaddr = 0o766100 ∨
        uaddr = 0o766102 ∨ uaddr = 0o766110 ∨ uaddr = 0o766112 ∨ uaddr = 0o766114 := by
    simp [BusInterfaceRegister]
  have hforget (c : Prop) [Decidable c] (b' : BusGlobals XbusDevices) (hb' : Raises none b b') :
      Raises none b
        (if c then b'.onInterface ({ · with debuggeeBusErrorStatus := 0 }) else b') := by
    split_ifs
    · exact hb'.trans (raises_kept rfl rfl)
    · exact hb'
  by_cases hknown : BusInterfaceRegister true uaddr
  · rw [if_pos hknown]
    rw [hregister] at hknown
    rcases hknown with rfl | rfl | rfl | rfl | rfl | rfl | rfl | rfl
    · exact raises_none rfl
    · exact raises_none rfl
    · exact absurd rfl hstatus
    · exact hforget _ _ (raises_lashupDebuggerXmt lashup _ b)
    · exact raises_lashupDebuggerXmt lashup _ b
    · exact raises_busInterfaceWriteModifier lashup v b
    · exact raises_none rfl
    · exact raises_kept rfl rfl
  · rw [if_neg hknown]
    rw [hregister] at hknown
    simp only [not_or] at hknown
    obtain ⟨h40, h42, h44, h100, h102, h110, h112, h114⟩ := hknown
    unfold busInterfaceWrite
    rw [if_neg h40, if_neg h42, if_neg h44, if_neg h100, if_neg h102, if_neg h110, if_neg h112,
      if_neg h114]
    exact raises_setUnibusNxm b

/-- A mapping register leaves the error bits. -/
theorem raises_unibusMappingRw (write : Bool) (uaddr : Word) (pv : HalfWord)
    (b : BusGlobals XbusDevices) :
    Raises (if IsMappingRegister uaddr then none else some .unibusNxm) b
      (unibusMappingRw write uaddr pv b).2 := by
  unfold unibusMappingRw
  split
  · cases write <;> exact raises_none rfl
  · exact raises_setUnibusNxm b

/-- An access of the diagnostic interface. -/
theorem raises_diagnosticPort {registers : Port 16 XbusDevices} {write : Bool} {uaddr : Word}
    {v : HalfWord} {r : HalfWord × BusGlobals XbusDevices}
    (h : (diagnosticPort debug registers).rw write uaddr v b = .ok r) :
    Raises (if DiagnosticRegister debug write uaddr then none else some .unibusNxm) b r.2 := by
  have hport : (diagnosticPort debug registers).rw write uaddr v b =
      if DiagnosticRegister debug write uaddr then registers.leavingInterface.rw write uaddr v b
      else .ok (v, b.onInterface BusInterface.setUnibusNxm) := by
    unfold diagnosticPort Port.rw
    cases write with
    | false =>
      simp only [Bool.false_eq_true, if_false]
    | true =>
      simp only [if_true]
      split_ifs <;> rfl
  rw [hport] at h
  split_ifs at h ⊢
  · exact raises_leavingInterface h
  · cases h
    exact raises_setUnibusNxm b

/-! ### The whole bus -/

/-- The registers of the bus interface lie in its window. -/
theorem BusInterfaceRegister.window {write : Bool} {uaddr : Word}
    (h : BusInterfaceRegister write uaddr) : 0o766040 ≤ uaddr ∧ uaddr ≤ 0o766136 := by
  unfold BusInterfaceRegister at h
  split at h <;> simp only [List.mem_cons, List.not_mem_nil, or_false] at h
  · rcases h with rfl | rfl | rfl | rfl | rfl | rfl | rfl | rfl <;> decide
  · rcases h with rfl | rfl | rfl | rfl <;> decide

/-- The window of the diagnostic interface. -/
theorem unibusRegister_diagnostic {write : Bool} {uaddr : Word}
    (hwindow : 0o766000 ≤ uaddr ∧ uaddr ≤ 0o766036) :
    UnibusRegister debug write uaddr ↔ DiagnosticRegister debug write uaddr := by
  have hinterface := @BusInterfaceRegister.window write uaddr
  unfold UnibusRegister IsMappingRegister
  constructor
  · rintro (hw | hw | hw | hw | hw)
    · bv_omega
    · exact hw.2.2
    · have := hinterface hw
      bv_omega
    · bv_omega
    · bv_omega
  · exact fun hw => .inr (.inl ⟨hwindow.1, hwindow.2, hw⟩)

/-- The window of the bus interface. -/
theorem unibusRegister_busInterface {write : Bool} {uaddr : Word}
    (hwindow : 0o766040 ≤ uaddr ∧ uaddr ≤ 0o766136) :
    UnibusRegister debug write uaddr ↔ BusInterfaceRegister write uaddr := by
  unfold UnibusRegister IsMappingRegister
  constructor
  · rintro (hw | hw | hw | hw | hw)
    · bv_omega
    · bv_omega
    · exact hw
    · bv_omega
    · bv_omega
  · exact fun hw => .inr (.inr (.inl hw))

/-- Outside these windows and those of the IOB and the tape controller there are only the
mapping registers. -/
theorem unibusRegister_elsewhere {write : Bool} {uaddr : Word}
    (hiob : ¬(0o764000 ≤ uaddr ∧ uaddr ≤ 0o764176))
    (hdiagnostic : ¬(0o766000 ≤ uaddr ∧ uaddr ≤ 0o766036))
    (hinterface : ¬(0o766040 ≤ uaddr ∧ uaddr ≤ 0o766136))
    (htape : ¬(0o772520 ≤ uaddr ∧ uaddr ≤ 0o772532)) :
    UnibusRegister debug write uaddr ↔ IsMappingRegister uaddr := by
  constructor
  · rintro (hw | hw | hw | hw | hw)
    · exact absurd hw hiob
    · exact absurd ⟨hw.1, hw.2.1⟩ hdiagnostic
    · exact absurd hw.window hinterface
    · exact hw
    · exact absurd hw htape
  · exact fun hw => .inr (.inr (.inr (.inl hw)))

/-- An access of the Unibus other than a write of 0766044. -/
theorem raises_busAdaptorUnibusRw {write : Bool} {uaddr : Word} {pv : HalfWord}
    {r : HalfWord × BusGlobals XbusDevices}
    (h : busAdaptorUnibusRw (dev.attached blocking colortvEnabled debug) write uaddr pv b = .ok r)
    (hclears : ¬(write = true ∧ uaddr = 0o766044)) :
    Raises (unibusFailure colortvEnabled debug write uaddr b) b r.2 := by
  unfold unibusFailure
  unfold busAdaptorUnibusRw at h
  by_cases hmap : 0o140000 ≤ uaddr ∧ uaddr ≤ 0o177777
  · rw [if_pos hmap] at h ⊢
    exact raises_unibusMapRw h
  rw [if_neg hmap] at h ⊢
  by_cases hiob : 0o764000 ≤ uaddr ∧ uaddr ≤ 0o764176
  · rw [if_pos hiob] at h
    rw [if_pos (show UnibusRegister debug write uaddr from .inl hiob)]
    exact raises_leavingInterface h
  rw [if_neg hiob] at h
  by_cases hdiagnostic : 0o766000 ≤ uaddr ∧ uaddr ≤ 0o766036
  · rw [if_pos hdiagnostic] at h
    simp only [unibusRegister_diagnostic hdiagnostic]
    exact raises_diagnosticPort h
  rw [if_neg hdiagnostic] at h
  by_cases hinterface : 0o766040 ≤ uaddr ∧ uaddr ≤ 0o766136
  · rw [if_pos hinterface] at h
    simp only [unibusRegister_busInterface hinterface]
    cases write with
    | false =>
      cases h
      exact raises_busInterfaceRead _ uaddr pv b
    | true =>
      cases h
      exact raises_busInterfaceWrite _ pv b fun hstatus => hclears ⟨rfl, hstatus⟩
  rw [if_neg hinterface] at h
  by_cases htape : 0o772520 ≤ uaddr ∧ uaddr ≤ 0o772532
  · rw [if_pos (show UnibusRegister debug write uaddr from .inr (.inr (.inr (.inr htape))))]
    rw [if_neg (by bv_omega), if_pos htape] at h
    exact raises_leavingInterface h
  simp only [unibusRegister_elsewhere hiob hdiagnostic hinterface htape]
  rw [if_neg htape] at h
  by_cases hmapping : 0o766140 ≤ uaddr ∧ uaddr ≤ 0o766176
  · rw [if_pos hmapping] at h
    cases h
    exact raises_unibusMappingRw write uaddr pv b
  · rw [if_neg hmapping] at h
    cases h
    rw [if_neg fun hw : IsMappingRegister uaddr => hmapping ⟨hw.1, hw.2.1⟩]
    exact raises_setUnibusNxm b

/-- A write of 0766044 clears the error bits. -/
theorem busAdaptorUnibusRw_clears {pv : HalfWord} {r : HalfWord × BusGlobals XbusDevices}
    (h : busAdaptorUnibusRw (dev.attached blocking colortvEnabled debug) true 0o766044 pv b =
      .ok r) :
    r.2.interface.errors = .clear ∧ r.2.interface.nxmInhibited = b.interface.nxmInhibited := by
  cases h
  exact ⟨BusInterface.errors_clear rfl, rfl⟩

/-- An access of the processor is one of the Xbus or one of the Unibus. -/
theorem busAdaptorRw_cases {δ : Type} {dev : BusDevices δ} {write : Bool} {paddr v : Word}
    {b : BusGlobals δ} {r : Word × BusGlobals δ}
    (h : busAdaptorRw (busRoutines dev) write paddr v b = .ok r) :
    (pageNumber paddr ≤ 0o36777 ∧
        busAdaptorXbusRw (xbusRoutines dev) write paddr v b = .ok r) ∨
      (0o36777 < pageNumber paddr ∧ ∃ pv,
        busAdaptorUnibusRw dev write (processorUaddr paddr) (v.setWidth 16) b = .ok (pv, r.2)) := by
  have hunibus : (busRoutines dev).unibusRw write
      ((((pageNumber paddr - 0o37000) <<< 8) + (paddr &&& 0xFF)) <<< 1) (v.setWidth 16) b =
      busAdaptorUnibusRw dev write (processorUaddr paddr) (v.setWidth 16) b := rfl
  unfold busAdaptorRw at h
  simp only [hunibus] at h
  by_cases hmemory : pageNumber paddr ≤ 0o35773
  · rw [if_pos hmemory] at h
    exact .inl ⟨by bv_omega, h⟩
  rw [if_neg hmemory] at h
  by_cases hio : 0o36000 ≤ pageNumber paddr ∧ pageNumber paddr ≤ 0o36777
  · rw [if_pos hio] at h
    exact .inl ⟨hio.2, h⟩
  rw [if_neg hio] at h
  by_cases hwindow : 0o37000 ≤ pageNumber paddr ∧ pageNumber paddr ≤ 0o37777
  · rw [if_pos hwindow] at h
    refine .inr ⟨by bv_omega, ?_⟩
    cases hr : busAdaptorUnibusRw dev write (processorUaddr paddr) (v.setWidth 16) b with
    | error e =>
      rw [hr] at h
      cases h
    | ok r' =>
      rw [hr] at h
      cases h
      exact ⟨r'.1, rfl⟩
  · rw [if_neg hwindow] at h
    cases h

/-! ### Runs -/

/-- 0766044 is a register, so the access that clears the error bits does not fail. -/
theorem unibusFailure_busErrorStatus :
    unibusFailure colortvEnabled debug true 0o766044 b = none := by
  unfold unibusFailure
  rw [if_neg (by decide), if_pos]
  exact .inr (.inr (.inl (by decide)))

/-- The processor writes 0766044 through the Unibus window. -/
theorem BusEvent.processor_clears {write : Bool} {paddr v : Word}
    (h : (BusEvent.processor write paddr v).clears = true) :
    write = true ∧ 0o36777 < pageNumber paddr ∧ processorUaddr paddr = 0o766044 := by
  simpa [BusEvent.clears, and_assoc] using h

/-- An event that clears the error bits, and does not fail. -/
theorem busStep_clears {e : BusEvent} {b' : BusGlobals XbusDevices}
    (h : busStep blocking colortvEnabled debug dev e b = .ok b') (hclears : e.clears = true) :
    b'.interface.errors = .clear ∧ e.failure colortvEnabled debug b = none := by
  cases e with
  | processor write paddr v =>
    obtain ⟨rfl, hpage, huaddr⟩ := BusEvent.processor_clears hclears
    obtain ⟨r, hr, rfl⟩ := Lib.exists_of_map_eq_ok h
    rcases busAdaptorRw_cases hr with ⟨hpage', -⟩ | ⟨-, pv, hunibus⟩
    · exact absurd hpage (BitVec.not_lt.mpr hpage')
    · rw [huaddr] at hunibus
      refine ⟨(busAdaptorUnibusRw_clears hunibus).1, ?_⟩
      change processorFailure colortvEnabled debug true paddr b = none
      unfold processorFailure
      rw [if_neg (BitVec.not_le.mpr hpage), huaddr]
      exact unibusFailure_busErrorStatus
  | unibus write uaddr pv =>
    obtain ⟨r, hr, rfl⟩ := Lib.exists_of_map_eq_ok h
    obtain ⟨rfl, rfl⟩ : write = true ∧ uaddr = 0o766044 := by
      simpa [BusEvent.clears] using hclears
    exact ⟨(busAdaptorUnibusRw_clears hr).1, unibusFailure_busErrorStatus⟩
  | tapeTransfer | inhibitNxm _ | busReset _ | elsewhere _ => cases hclears

/-- An access that does not clear the error bits. -/
theorem busStep_raises {e : BusEvent} {b' : BusGlobals XbusDevices}
    (h : busStep blocking colortvEnabled debug dev e b = .ok b') (hclears : e.clears = false)
    (htape : e ≠ .tapeTransfer) (hreset : ∀ b'', e ≠ .busReset b'') :
    b'.interface.errors = b.interface.errors.or
      (((e.failure colortvEnabled debug b).map
        (BusFailure.raised b.interface.nxmInhibited)).getD .clear) := by
  cases e with
  | processor write paddr v =>
    obtain ⟨r, hr, rfl⟩ := Lib.exists_of_map_eq_ok h
    change r.2.interface.errors = b.interface.errors.or
      (((processorFailure colortvEnabled debug write paddr b).map _).getD .clear)
    unfold processorFailure
    rcases busAdaptorRw_cases hr with ⟨hpage, hxbus⟩ | ⟨hpage, pv, hunibus⟩
    · rw [if_pos hpage]
      exact (raises_busAdaptorXbusRw hxbus).errors
    · rw [if_neg (BitVec.not_le.mpr hpage)]
      refine (raises_busAdaptorUnibusRw hunibus ?_).errors
      rintro ⟨rfl, huaddr⟩
      have hcleared : (BusEvent.processor true paddr v).clears = true := by
        simpa [BusEvent.clears, huaddr] using hpage
      rw [hcleared] at hclears
      cases hclears
  | unibus write uaddr pv =>
    obtain ⟨r, hr, rfl⟩ := Lib.exists_of_map_eq_ok h
    refine (raises_busAdaptorUnibusRw hr ?_).errors
    rintro ⟨rfl, rfl⟩
    cases hclears
  | tapeTransfer => exact absurd rfl htape
  | busReset b'' => exact absurd rfl (hreset b'')
  | inhibitNxm inhibit =>
    cases h
    exact (BusErrors.or_clear _).symm
  | elsewhere b'' =>
    cases h
    exact (BusErrors.or_clear _).symm

/-- The bits that are set are those of the failure, except for an unpopulated page and a
refused access while timeouts are inhibited. -/
theorem BusErrors.or_raised_iff (e : BusErrors) (failure : Option BusFailure) (inhibited : Bool) :
    e.or ((failure.map (BusFailure.raised inhibited)).getD .clear) =
        (if inhibited = true then e else e.or ((failure.map BusFailure.bit).getD .clear)) ↔
      (failure = some .unpopulated → inhibited = true ∨ e.xbusNxm = true) ∧
        (failure = some .unibusMapError → ¬inhibited = true ∨ e.unibusMapError = true) := by
  obtain ⟨xbusNxm, unibusNxm, unibusMapError⟩ := e
  cases failure with
  | none => cases inhibited <;> simp
  | some failure =>
    cases failure <;> cases inhibited <;>
      simp [BusFailure.raised, BusFailure.bit, BusErrors.or, BusErrors.clear]

namespace BusRecord

/-- One event keeps the error bits accurate if and only if its failure is recorded. -/
theorem accurate_step {e : BusEvent} {s s' : BusRecord} (hs : s.Accurate)
    (h : step blocking colortvEnabled debug dev e s = .ok s') :
    s'.Accurate ↔ Recorded colortvEnabled debug e s := by
  obtain ⟨bus, hbus, rfl⟩ := Lib.exists_of_map_eq_ok h
  unfold Accurate at hs ⊢
  by_cases htape : e = .tapeTransfer
  · subst htape
    cases hbus
    have herrors : (s.bus.onInterface BusInterface.resetBusErrorStatus).interface.errors = .clear :=
      BusInterface.errors_clear rfl
    have hrecord : s.record colortvEnabled debug .tapeTransfer = s.failures := by
      change (if s.bus.interface.nxmInhibited = true then s.failures else s.failures.or .clear) = _
      rw [BusErrors.or_clear, ite_self]
    simp only [herrors, hrecord]
    exact eq_comm
  by_cases hreset : ∃ b, e = .busReset b
  · obtain ⟨b, rfl⟩ := hreset
    cases hbus
    exact iff_of_true (BusInterface.errors_clear rfl)
      ⟨fun hno => (nomatch hno), fun hno => (nomatch hno)⟩
  have hrecord : s.record colortvEnabled debug e =
      if e.clears then .clear
      else if s.bus.interface.nxmInhibited then s.failures
      else s.failures.or
        (((e.failure colortvEnabled debug s.bus).map BusFailure.bit).getD .clear) := by
    unfold record
    split
    · exact absurd ⟨_, rfl⟩ hreset
    · rfl
  have hrecorded : Recorded colortvEnabled debug e s ↔
      (e.failure colortvEnabled debug s.bus = some .unpopulated →
          s.bus.interface.nxmInhibited ∨ s.failures.xbusNxm) ∧
        (e.failure colortvEnabled debug s.bus = some .unibusMapError →
          ¬s.bus.interface.nxmInhibited ∨ s.failures.unibusMapError) := by
    unfold Recorded
    split
    · exact absurd rfl htape
    · exact Iff.rfl
  rw [hrecorded]
  simp only [hrecord]
  cases hclears : e.clears with
  | true =>
    obtain ⟨herrors, hfailure⟩ := busStep_clears hbus hclears
    rw [herrors, hfailure, if_pos rfl]
    exact iff_of_true rfl ⟨fun hno => (nomatch hno), fun hno => (nomatch hno)⟩
  | false =>
    rw [busStep_raises hbus hclears htape fun b hb => hreset ⟨b, hb⟩, hs, if_neg (by decide)]
    exact BusErrors.or_raised_iff _ _ _

/-- In every run of accesses by the processor, through the Unibus map, by the tape
controller and by a debugger, the error bits are in every state the failures since they were
last cleared, if and only if every step is recorded. -/
theorem bus_errors_sticky (es : List BusEvent) (b : BusGlobals XbusDevices) :
    Lib.Always (step blocking colortvEnabled debug dev) Accurate es ⟨b, b.interface.errors⟩ ↔
      Lib.EveryStep (step blocking colortvEnabled debug dev) (Recorded colortvEnabled debug) es
        ⟨b, b.interface.errors⟩ :=
  Lib.always_iff_everyStep (I := Accurate) (fun _ hs => hs)
    (fun _ _ _ hs h hrecorded => (accurate_step hs h).mpr hrecorded)
    (fun _ _ _ hs h haccurate => (accurate_step hs h).mp haccurate) rfl

/-- The processor probes a Unibus address without a device, and the tape controller then
begins a transfer: the bit is gone. -/
theorem bus_errors_lost :
    ¬Lib.Always (step true false false bareDevices) Accurate
      [.processor false 0o17777777 0, .tapeTransfer] ⟨mappedBus firstPages, .clear⟩ := by
  intro h
  have hlost := congrArg BusErrors.unibusNxm ((h.2 _ rfl).2 _ rfl)
  exact absurd hlost (by decide)

end BusRecord

/-! ### The tape controller on the busses -/

/-- The events that a tape command is made of. -/
def BusEvent.OfTape : BusEvent → Prop
  | .tapeTransfer | .unibus _ _ _ | .elsewhere _ => True
  | .processor _ _ _ | .inhibitNxm _ | .busReset _ => False

/-- Events of the tape controller lead from one state of the busses to another. -/
def TapeRun (blocking colortvEnabled debug : Bool) (dev : BusDevices XbusDevices)
    (b b' : BusGlobals XbusDevices) : Prop :=
  ∃ es : List BusEvent, (∀ e ∈ es, e.OfTape) ∧
    es.foldlM (fun b e => busStep blocking colortvEnabled debug dev e b) b = .ok b'

theorem TapeRun.refl (b : BusGlobals XbusDevices) :
    TapeRun blocking colortvEnabled debug dev b b :=
  ⟨[], by simp, rfl⟩

theorem TapeRun.cons {e : BusEvent} {b b' b'' : BusGlobals XbusDevices} (he : e.OfTape)
    (h : busStep blocking colortvEnabled debug dev e b = .ok b')
    (h' : TapeRun blocking colortvEnabled debug dev b' b'') :
    TapeRun blocking colortvEnabled debug dev b b'' := by
  obtain ⟨es, hes, hrun⟩ := h'
  refine ⟨e :: es, ?_, ?_⟩
  · simpa using ⟨he, hes⟩
  · rw [List.foldlM_cons, h]
    exact hrun

namespace TapeState

/-- The loop of a READ writes the Unibus, once for every two bytes. -/
theorem tapeRun_readLoop {fuel : ℕ} {recordLength : Word} {s : TapeState XbusDevices}
    {r : Word × TapeState XbusDevices}
    (h : readLoop (dev.attached blocking colortvEnabled debug) fuel recordLength s = .ok r) :
    TapeRun blocking colortvEnabled debug dev s.bus r.2.bus := by
  induction fuel generalizing recordLength s with
  | zero =>
    cases h
    exact .refl _
  | succ fuel ih =>
    unfold readLoop at h
    simp only at h
    split at h
    swap
    · cases h
      exact .refl _
    split at h
    · cases h
    rename_i pv bus haccess
    refine .cons (e := .unibus true s.mtcma _) trivial (congrArg (Except.map Prod.snd) haccess) ?_
    split at h
    · cases h
      exact .refl _
    · exact ih h

/-- The loop of a WRITE reads the Unibus. -/
theorem tapeRun_writeLoop {fuel : ℕ} {s s' : TapeState XbusDevices}
    (h : writeLoop (dev.attached blocking colortvEnabled debug) fuel s = .ok s') :
    TapeRun blocking colortvEnabled debug dev s.bus s'.bus := by
  induction fuel generalizing s with
  | zero =>
    cases h
    exact .refl _
  | succ fuel ih =>
    unfold writeLoop at h
    simp only at h
    split at h
    swap
    · cases h
      exact .refl _
    split at h
    · cases h
    rename_i data bus haccess
    refine .cons (e := .unibus false s.mtcma 0) trivial (congrArg (Except.map Prod.snd) haccess) ?_
    split at h
    · cases h
      exact .refl _
    · exact ih h

/-- READ begins its transfer, and then runs its loop. -/
theorem tapeRun_read {s s' : TapeState XbusDevices}
    (h : s.read (dev.attached blocking colortvEnabled debug) = .ok s') :
    TapeRun blocking colortvEnabled debug dev s.bus s'.bus := by
  unfold read at h
  simp only at h
  refine .cons (e := .tapeTransfer) trivial rfl ?_
  split at h
  · cases h
    exact .refl _
  split at h
  · cases h
  rename_i recordLength t hloop
  have hrun := tapeRun_readLoop hloop
  split at h
  · cases h
    exact hrun
  split at h
  · cases h
    exact hrun
  split at h
  · cases h
    exact hrun
  · cases h
    exact hrun

/-- So does WRITE, if the tape is writable and the length is a number of words. -/
theorem tapeRun_write {s s' : TapeState XbusDevices}
    (h : s.write (dev.attached blocking colortvEnabled debug) = .ok s') :
    TapeRun blocking colortvEnabled debug dev s.bus s'.bus := by
  unfold write at h
  simp only at h
  split at h
  · cases h
    exact .refl _
  split at h
  · cases h
    exact .refl _
  split at h
  · cases h
    exact .refl _
  refine .cons (e := .tapeTransfer) trivial rfl ?_
  split at h
  · cases h
  rename_i t hloop
  have hrun := tapeRun_writeLoop hloop
  split at h
  · cases h
    exact hrun
  split at h
  · cases h
    exact hrun
  · cases h
    exact hrun

/-- The spacing commands leave the busses. -/
theorem bus_spaceForwardLoop {δ : Type} (n : ℕ) (s : TapeState δ) :
    (spaceForwardLoop n s).bus = s.bus := by
  induction n generalizing s with
  | zero => rfl
  | succ n ih =>
    unfold spaceForwardLoop
    simp only
    split
    · rfl
    · exact ih _

theorem bus_spaceForwardFile {δ : Type} (fuel : ℕ) (s : TapeState δ) :
    (spaceForwardFile fuel s).bus = s.bus := by
  induction fuel generalizing s with
  | zero => rfl
  | succ fuel ih =>
    unfold spaceForwardFile
    split
    · rfl
    · exact ih _

theorem bus_spaceReverseLoop {δ : Type} (n : ℕ) (s : TapeState δ) :
    (spaceReverseLoop n s).bus = s.bus := by
  induction n generalizing s with
  | zero => rfl
  | succ n ih =>
    unfold spaceReverseLoop
    simp only
    split
    · rfl
    · exact ih _

theorem bus_spaceReverseFile {δ : Type} (fuel : ℕ) (s : TapeState δ) :
    (spaceReverseFile fuel s).bus = s.bus := by
  induction fuel generalizing s with
  | zero => rfl
  | succ fuel ih =>
    unfold spaceReverseFile
    split
    · rfl
    · exact ih _

/-- A tape command is a run of events: READ and WRITE begin a transfer, REWIND asserts an
interrupt, and the other commands leave the busses. -/
theorem tapeRun_command {mtc : Mtc} {s s' : TapeState XbusDevices}
    (h : s.command (dev.attached blocking colortvEnabled debug) mtc = .ok s') :
    TapeRun blocking colortvEnabled debug dev s.bus s'.bus := by
  have hbus {t : TapeState XbusDevices} (ht : t.bus = s.bus) :
      TapeRun blocking colortvEnabled debug dev s.bus t.bus := by
    rw [ht]
    exact .refl _
  unfold command at h
  split at h
  · cases h
    exact .refl _
  · exact tapeRun_read h
  · exact tapeRun_write h
  · exact tapeRun_write h
  · cases h
    refine hbus ?_
    unfold writeEof
    split <;> rfl
  · cases h
    refine hbus ?_
    unfold spaceForward
    split
    · rfl
    split
    · exact bus_spaceForwardFile _ s
    · exact bus_spaceForwardLoop _ s
  · cases h
    refine hbus ?_
    unfold spaceReverse
    simp only
    split
    · rfl
    split
    · exact bus_spaceReverseFile _ _
    split
    · rfl
    · exact bus_spaceReverseLoop _ _
  · cases h
    unfold rewind
    simp only
    split
    · refine .cons (e := .elsewhere (tapeAssertUnibusInterrupt mtc.intEnb s.bus)) trivial ?_
        (.refl _)
      unfold tapeAssertUnibusInterrupt
      split <;> rfl
    · exact .refl _

end TapeState

end Usim
