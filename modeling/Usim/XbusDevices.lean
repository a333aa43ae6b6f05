import Usim.DiskEffects
import Usim.Tv
import Usim.Unibus

/-!
# The devices on the Xbus

The disk controller and the two TV interfaces behind the bus adaptor. The main
memory and the interrupts are those of the bus: the copies in the globals of the
disk controller are replaced for every access.
-/

namespace Usim

/-- The state of the devices on the Xbus. -/
structure XbusDevices where
  /-- The disk controller. -/
  disk : DiskGlobals
  /-- The monochrome TV. -/
  tv : Tv
  /-- The colour TV. -/
  colorTv : ColorTv

namespace BusState

/-- The devices. -/
def xbusDevices (b : BusGlobals XbusDevices) : XbusDevices := b.dev.devices.devices

/-- Change the devices. -/
def setXbusDevices (d : XbusDevices) (b : BusGlobals XbusDevices) : BusGlobals XbusDevices :=
  { b with dev.devices.devices := d }

/-- The disk controller with the memory and the interrupts of the bus. -/
def disk (b : BusGlobals XbusDevices) : DiskGlobals :=
  { b.xbusDevices.disk with
    memory := b.memory
    interrupts := b.interrupts }

/-- The bus after a change of the disk controller. -/
def setDisk (g : DiskGlobals) (b : BusGlobals XbusDevices) : BusGlobals XbusDevices :=
  { (b.setXbusDevices { b.xbusDevices with disk := g }).onInterrupts fun _ => g.interrupts with
    dev.mainMemory := g.memory }

/-- A register that a device does not have. -/
def setNxm (b : BusGlobals XbusDevices) : BusGlobals XbusDevices :=
  b.onInterface BusInterface.setXbusNxm

end BusState

/-- The registers of the disk controller. -/
def diskPort (blocking : Bool) : Port 32 XbusDevices where
  read := fun offset _ b => (b.disk.read offset).map fun v => (v, b)
  write := fun offset v b => (b.disk.write blocking offset v).map fun g => b.setDisk g

/-- The screen of the monochrome TV. -/
def tvScreenPort : Port 32 XbusDevices where
  read := fun offset _ b => .ok (b.xbusDevices.tv.screenRead (Fin.ofNat _ offset.toNat), b)
  write := fun offset v b => .ok (b.setXbusDevices { b.xbusDevices with
    tv := b.xbusDevices.tv.screenWrite (Fin.ofNat _ offset.toNat) v })

/-- The control registers of the monochrome TV. -/
def tvControlPort : Port 32 XbusDevices where
  read := fun offset pv b =>
    match b.xbusDevices.tv.controlRead offset with
    | some v => .ok (v, b)
    | none => .ok (pv, b.setNxm)
  write := fun offset v b =>
    match b.xbusDevices.tv.controlWrite offset v with
    | some tv => .ok (b.setXbusDevices { b.xbusDevices with tv := tv })
    | none => .ok b.setNxm

/-- The screen of the colour TV. -/
def colorTvScreenPort : Port 32 XbusDevices where
  read := fun offset _ b => .ok (b.xbusDevices.colorTv.screenRead (Fin.ofNat _ offset.toNat), b)
  write := fun offset v b => .ok (b.setXbusDevices { b.xbusDevices with
    colorTv := b.xbusDevices.colorTv.screenWrite (Fin.ofNat _ offset.toNat) v })

/-- The control registers of the colour TV. -/
def colorTvControlPort : Port 32 XbusDevices where
  read := fun offset pv b =>
    match b.xbusDevices.colorTv.controlRead offset with
    | some v => .ok (v, b)
    | none => .ok (pv, b.setNxm)
  write := fun offset v b =>
    (b.xbusDevices.colorTv.controlWrite offset v).map fun colorTv =>
      match colorTv with
      | some colorTv => b.setXbusDevices { b.xbusDevices with colorTv := colorTv }
      | none => b.setNxm

/-- The bus with these devices on the Xbus, and any on the Unibus. -/
def BusDevices.withXbus (blocking colortvEnabled : Bool) (dev : BusDevices XbusDevices) :
    BusDevices XbusDevices :=
  { dev with
    colortvEnabled := colortvEnabled
    tvScreen := tvScreenPort
    tvControl := tvControlPort
    colortvScreen := colorTvScreenPort
    colortvControl := colorTvControlPort
    diskController := diskPort blocking }

/-! ### What the devices leave -/

namespace DiskGlobals

/-- Becoming idle leaves the memory. -/
theorem memory_setStatusNotActive (g : DiskGlobals) : g.setStatusNotActive.memory = g.memory := by
  unfold setStatusNotActive
  dsimp only
  split <;> rfl

/-- A transfer leaves the size of the memory. -/
theorem npages_doXfer (g : DiskGlobals) : g.doXfer.memory.npages = g.memory.npages := by
  unfold doXfer
  dsimp only
  split
  · rw [memory_setStatusNotActive]
    split
    · exact (performXferLoop_frame _ _ _ _ _).2.2.2
    · rfl
  · rfl

/-- The command 005 leaves the memory. -/
theorem memory_startAtEaseCommand (g : DiskGlobals) : g.startAtEaseCommand.memory = g.memory := by
  have hclear (g : DiskGlobals) : g.startFaultClear.memory = g.memory :=
    memory_setStatusNotActive _
  have hrecalibrate (g : DiskGlobals) : g.startRecalibrate.memory = g.memory := by
    rw [startRecalibrate_eq]
    exact memory_setStatusNotActive _
  have hease : g.startAtEase.memory = g.memory := memory_setStatusNotActive _
  unfold startAtEaseCommand
  dsimp only
  split_ifs
  · rw [hclear, hrecalibrate, hease]
  · rw [hrecalibrate, hease]
  · rw [hclear, hease]
  · exact hease

/-- START leaves the size of the memory. -/
theorem npages_start {blocking : Bool} {g g' : DiskGlobals} (h : g.start blocking = .ok g') :
    g'.memory.npages = g.memory.npages := by
  have hxfer (read compare : Bool) : (g.submitXfer blocking read compare).memory.npages =
      g.memory.npages := by
    unfold submitXfer
    dsimp only
    split
    · exact npages_doXfer _
    · rfl
  cases started_of_start h with
  | offline => rfl
  | read => exact hxfer true false
  | compare => exact hxfer true true
  | write =>
    unfold startWrite
    split
    · rfl
    · exact hxfer false false
  | seek =>
    rw [startSeek_eq, memory_setStatusNotActive]
    rfl
  | atEase => rw [memory_startAtEaseCommand]
  | offsetClear =>
    rw [startOffsetClear, memory_setStatusNotActive]
    rfl

/-- A register write leaves the size of the memory. -/
theorem npages_write {blocking : Bool} {offset v : Word} {g g' : DiskGlobals}
    (h : g.write blocking offset v = .ok g') : g'.memory.npages = g.memory.npages := by
  unfold write at h
  split_ifs at h
  · cases h
    rcases writeCmd_cases g v with ⟨-, hcmd⟩ | ⟨-, hcmd⟩ | ⟨-, -, -, hcmd⟩ | ⟨-, -, -, hcmd⟩
    · rw [hcmd]
    · rw [hcmd]
      exact congrArg MainMemory.npages (memory_setStatusNotActive _)
    · rw [hcmd]
    · rw [hcmd]
      unfold storeCmd
      dsimp only
      split <;> rfl
  · cases h
    rfl
  · cases h
    rfl
  · cases h
    rfl
  · cases h
    rfl
  · cases h
    rfl
  · exact npages_start h

end DiskGlobals

/-- What an access of a device on the Xbus leaves: the Unibus map, MD, and the size of
the memory. -/
structure XbusFrame (b b' : BusGlobals XbusDevices) : Prop where
  /-- The Unibus map. -/
  mapping : b'.mapping = b.mapping
  /-- MD. -/
  mdReg : b'.mdReg = b.mdReg
  /-- The size of the memory. -/
  npages : b'.memory.npages = b.memory.npages

/-- Nothing is changed. -/
theorem XbusFrame.refl (b : BusGlobals XbusDevices) : XbusFrame b b := ⟨rfl, rfl, rfl⟩

/-- A port keeps the frame, for reads and writes. -/
structure PortFrame {w : ℕ} (port : Port w XbusDevices) : Prop where
  /-- Reads. -/
  read : ∀ offset pv b r, port.read offset pv b = .ok r → XbusFrame b r.2
  /-- Writes. -/
  write : ∀ offset v b b', port.write offset v b = .ok b' → XbusFrame b b'

/-- An access of a port keeps its frame. -/
theorem PortFrame.rw {w : ℕ} {port : Port w XbusDevices} (h : PortFrame port) {write : Bool}
    {register : Word} {v : BitVec w} {b : BusGlobals XbusDevices}
    {r : BitVec w × BusGlobals XbusDevices} (hrw : port.rw write register v b = .ok r) :
    XbusFrame b r.2 := by
  unfold Port.rw at hrw
  cases write with
  | false => exact h.read _ _ _ _ hrw
  | true =>
    rw [if_pos rfl] at hrw
    cases hwrite : port.write register v b with
    | ok b' =>
      rw [hwrite] at hrw
      cases hrw
      exact h.write _ _ _ _ hwrite
    | error e =>
      rw [hwrite] at hrw
      cases hrw

/-- The disk controller keeps the frame. -/
theorem portFrame_diskPort (blocking : Bool) : PortFrame (diskPort blocking) where
  read := by
    intro offset pv b r h
    simp only [diskPort] at h
    cases hread : b.disk.read offset with
    | ok v =>
      rw [hread] at h
      cases h
      exact .refl b
    | error e =>
      rw [hread] at h
      cases h
  write := by
    intro offset v b b' h
    simp only [diskPort] at h
    cases hwrite : b.disk.write blocking offset v with
    | ok g =>
      rw [hwrite] at h
      cases h
      exact ⟨rfl, rfl, DiskGlobals.npages_write hwrite⟩
    | error e =>
      rw [hwrite] at h
      cases h

/-- The screen of the monochrome TV keeps the frame. -/
theorem portFrame_tvScreenPort : PortFrame tvScreenPort where
  read := by
    rintro offset pv b r ⟨⟩
    exact .refl b
  write := by
    rintro offset v b b' ⟨⟩
    exact ⟨rfl, rfl, rfl⟩

/-- The control registers of the monochrome TV keep the frame. -/
theorem portFrame_tvControlPort : PortFrame tvControlPort where
  read := by
    intro offset pv b r h
    simp only [tvControlPort] at h
    split at h <;> cases h
    · exact .refl b
    · exact ⟨rfl, rfl, rfl⟩
  write := by
    intro offset v b b' h
    simp only [tvControlPort] at h
    split at h <;> cases h <;> exact ⟨rfl, rfl, rfl⟩

/-- The screen of the colour TV keeps the frame. -/
theorem portFrame_colorTvScreenPort : PortFrame colorTvScreenPort where
  read := by
    rintro offset pv b r ⟨⟩
    exact .refl b
  write := by
    rintro offset v b b' ⟨⟩
    exact ⟨rfl, rfl, rfl⟩

/-- The control registers of the colour TV keep the frame. -/
theorem portFrame_colorTvControlPort : PortFrame colorTvControlPort where
  read := by
    intro offset pv b r h
    simp only [colorTvControlPort] at h
    split at h <;> cases h
    · exact .refl b
    · exact ⟨rfl, rfl, rfl⟩
  write := by
    intro offset v b b' h
    simp only [colorTvControlPort] at h
    cases hwrite : b.xbusDevices.colorTv.controlWrite offset v with
    | ok colorTv =>
      rw [hwrite] at h
      cases h
      cases colorTv <;> exact ⟨rfl, rfl, rfl⟩
    | error e =>
      rw [hwrite] at h
      cases h

/-- An access of the Xbus keeps the frame. -/
theorem xbusFrame_busAdaptorXbusRw {blocking colortvEnabled : Bool} {dev : BusDevices XbusDevices}
    {write : Bool} {paddr v : Word} {b : BusGlobals XbusDevices}
    {r : Word × BusGlobals XbusDevices}
    (h : busAdaptorXbusRw (xbusRoutines (dev.withXbus blocking colortvEnabled)) write paddr v b =
      .ok r) : XbusFrame b r.2 := by
  unfold busAdaptorXbusRw at h
  dsimp only at h
  split_ifs at h
  · cases h
    exact ⟨rfl, rfl, mainMemoryWrite_npages _ _ _⟩
  · cases h
    exact .refl b
  · simp only [xbusRoutines, busAdaptorXbusioRw] at h
    split_ifs at h
    · exact portFrame_tvScreenPort.rw h
    · exact portFrame_colorTvScreenPort.rw h
    · exact portFrame_colorTvControlPort.rw h
    · exact portFrame_tvControlPort.rw h
    · exact (portFrame_diskPort blocking).rw h
    · cases h
      exact ⟨rfl, rfl, rfl⟩
    · cases h
      exact ⟨rfl, rfl, rfl⟩
  · cases h
    exact ⟨rfl, rfl, rfl⟩
  · cases h
    exact ⟨rfl, rfl, rfl⟩

end Usim
