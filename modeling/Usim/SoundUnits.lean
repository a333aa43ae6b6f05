import Usim.DiskPosition

/-!
# The units that the controller works on

The online units have the sizes of the drives that the program knows, their own
numbers and no write protection, and their positions agree. Every register write
keeps it so.
-/

namespace Usim

/-- What the program makes of an online unit: its number, a known size, no write
protection, and agreeing positions. -/
structure SoundUnit (unit : Fin 8) (p : DiskUnit) : Prop extends Drive p where
  /-- The number. -/
  unit : p.unit = BitVec.ofNat 32 unit.val
  /-- The write protection. -/
  readOnly : p.readOnly = false
  /-- The positions. -/
  positioned : p.Positioned

/-- A unit that `disk_unit_init` brings online is sound. -/
theorem soundUnit_diskUnitInit {type : DiskUnitType} (htype : type ∈ diskUnitTypes)
    (unit : Fin 8) (mm : Word → Page) :
    SoundUnit unit (diskUnitInit (BitVec.ofNat 32 unit.val) type mm) :=
  ⟨drive_diskUnitInit htype _ mm, rfl, rfl, positioned_diskUnitInit htype _ mm⟩

/-- A change of a unit that leaves an online unit online and sound. -/
structure KeepsUnit (p p' : DiskUnit) : Prop where
  /-- The disk pack. -/
  online : p'.online = p.online
  /-- Soundness. -/
  sound : ∀ unit, SoundUnit unit p → SoundUnit unit p'

namespace KeepsUnit

/-- No change. -/
theorem refl (p : DiskUnit) : KeepsUnit p p := ⟨rfl, fun _ h => h⟩

/-- Two changes. -/
theorem trans {p p' p'' : DiskUnit} (h : KeepsUnit p p') (h' : KeepsUnit p' p'') :
    KeepsUnit p p'' :=
  ⟨h'.online.trans h.online, fun unit hp => h'.sound unit (h.sound unit hp)⟩

/-- A change within the same drive that keeps the positions in step. -/
theorem of_sameDrive {p p' : DiskUnit} (h : SameDrive p p')
    (hp : Drive p → p.Positioned → p'.Positioned) : KeepsUnit p p' :=
  ⟨h.online, fun _ hsound => ⟨h.drive hsound.toDrive, h.unit.trans hsound.unit,
    h.readOnly.trans hsound.readOnly, hp hsound.toDrive hsound.positioned⟩⟩

/-- Changes of the conditions of a unit. -/
theorem conditions (p : DiskUnit) (seekError hasFault attention : Bool) : KeepsUnit p { p with
    seekError := seekError
    hasFault := hasFault
    attention := attention } :=
  ⟨rfl, fun _ h => ⟨⟨h.nblocksPerCylinder, h.mmsz, h.capacity_lt, h.one_lt_nblocksPerTrack,
    h.ncylinders_le, h.nheads_le, h.nblocksPerTrack_le⟩, h.unit, h.readOnly,
    ⟨⟨h.positioned.inRange.cylinder, h.positioned.inRange.head, h.positioned.inRange.sector⟩,
      h.positioned.lba⟩⟩⟩

/-- A seek. -/
theorem seek (p : DiskUnit) (cylinder head sector : Word) :
    KeepsUnit p (diskUnitSeek p cylinder head sector).2 :=
  .of_sameDrive (sameDrive_diskUnitSeek p cylinder head sector) fun hdrive hp =>
    hdrive.positioned_diskUnitSeek hp cylinder head sector

/-- A transfer. -/
theorem xfer (read compare : Bool) (clp : Word) (x : Xfer) :
    KeepsUnit x.p (performXfer read compare clp x).2.p := by
  unfold performXfer
  generalize hstart : ({ x with status := { x.status with
    readCompareDifference := false
    ccwCycle := false
    nonexistentMemoryError := false } } : Xfer) = x'
  have hp : x.p = x'.p := by rw [← hstart]
  rw [hp]
  exact .of_sameDrive (performXferLoop_frame read compare clp 0 x').1 fun hdrive hp =>
    positioned_performXferLoop read compare clp 0 x' hdrive hp

end KeepsUnit

namespace DiskGlobals

/-- Every online unit is sound. -/
def SoundUnits (g : DiskGlobals) : Prop :=
  ∀ unit, (g.diskUnits unit).online = true → SoundUnit unit (g.diskUnits unit)

/-- Units that are changed soundly stay sound. -/
theorem SoundUnits.of_keepsUnit {g g' : DiskGlobals} (h : g.SoundUnits)
    (hkeep : ∀ unit, KeepsUnit (g.diskUnits unit) (g'.diskUnits unit)) : g'.SoundUnits :=
  fun unit honline => (hkeep unit).sound unit (h unit ((hkeep unit).online ▸ honline))

/-- One unit is changed soundly. -/
theorem SoundUnits.setUnit {g : DiskGlobals} (h : g.SoundUnits) {unit : Fin 8} {p : DiskUnit}
    (hkeep : KeepsUnit (g.diskUnits unit) p) : (g.setUnit unit p).SoundUnits := by
  refine h.of_keepsUnit fun i => ?_
  show KeepsUnit (g.diskUnits i) (Function.update g.diskUnits unit p i)
  by_cases hi : i = unit
  · subst i
    rw [Function.update_self]
    exact hkeep
  · rw [Function.update_of_ne hi]
    exact .refl _

/-- A change of other globals. -/
theorem SoundUnits.of_diskUnits {g g' : DiskGlobals} (h : g.SoundUnits)
    (heq : g'.diskUnits = g.diskUnits) : g'.SoundUnits := by
  intro unit honline
  rw [heq] at honline ⊢
  exact h unit honline

/-- Becoming idle leaves the units. -/
theorem SoundUnits.setStatusNotActive {g : DiskGlobals} (h : g.SoundUnits) :
    g.setStatusNotActive.SoundUnits :=
  h.of_diskUnits (diskUnits_setStatusNotActive g)

/-- The selected unit is changed soundly. -/
theorem SoundUnits.onSelectedUnit {g : DiskGlobals} (h : g.SoundUnits) {f : DiskUnit → DiskUnit}
    (hkeep : ∀ p, KeepsUnit p (f p)) : (g.onSelectedUnit f).SoundUnits :=
  h.setUnit (hkeep _)

/-- A transfer leaves sound units. -/
theorem SoundUnits.doXfer {g : DiskGlobals} (h : g.SoundUnits) : g.doXfer.SoundUnits := by
  have hseek := KeepsUnit.seek (g.diskUnits g.xferReq.p) g.xferReq.cylinder g.xferReq.head
    g.xferReq.block
  unfold DiskGlobals.doXfer
  dsimp only
  split
  · split
    · have hxfer := KeepsUnit.xfer g.xferReq.read g.xferReq.compare g.xferReq.clp
        ⟨(diskUnitSeek (g.diskUnits g.xferReq.p) g.xferReq.cylinder g.xferReq.head
          g.xferReq.block).2, g.status, g.memory⟩
      exact SoundUnits.setStatusNotActive (h.setUnit (hseek.trans hxfer))
    · exact SoundUnits.setStatusNotActive (h.setUnit hseek)
  · exact h

/-- A recalibration leaves sound units. -/
theorem SoundUnits.startRecalibrate {g : DiskGlobals} (h : g.SoundUnits) :
    g.startRecalibrate.SoundUnits := by
  rw [startRecalibrate_eq]
  exact (h.onSelectedUnit fun p => (KeepsUnit.seek p 0 0 0).trans (.conditions _ _ _ _))
    |>.setStatusNotActive

/-- The command 005 leaves sound units. -/
theorem SoundUnits.startAtEaseCommand {g : DiskGlobals} (h : g.SoundUnits) :
    g.startAtEaseCommand.SoundUnits := by
  have hease : g.startAtEase.SoundUnits :=
    (h.onSelectedUnit fun p => KeepsUnit.conditions p _ _ _).setStatusNotActive
  have hclear {g' : DiskGlobals} (h' : g'.SoundUnits) : g'.startFaultClear.SoundUnits :=
    (h'.onSelectedUnit fun p => KeepsUnit.conditions p _ _ _).setStatusNotActive
  unfold DiskGlobals.startAtEaseCommand
  dsimp only
  split_ifs
  · exact hclear hease.startRecalibrate
  · exact hease.startRecalibrate
  · exact hclear hease
  · exact hease

/-- START leaves sound units. -/
theorem SoundUnits.start {blocking : Bool} {g g' : DiskGlobals} (h : g.SoundUnits)
    (hstart : g.start blocking = .ok g') : g'.SoundUnits := by
  have hsubmit (read compare : Bool) : (g.submitXfer blocking read compare).SoundUnits := by
    have hrequest : (g.requestXfer read compare).SoundUnits := h
    unfold submitXfer
    dsimp only
    split
    · exact hrequest.doXfer
    · exact hrequest
  cases started_of_start hstart with
  | offline => exact h
  | read => exact hsubmit true false
  | compare => exact hsubmit true true
  | write =>
    unfold startWrite
    split
    · exact h.onSelectedUnit fun p => KeepsUnit.conditions p _ _ _
    · exact hsubmit false false
  | seek =>
    rw [startSeek_eq]
    exact (h.onSelectedUnit fun p => (KeepsUnit.seek p _ _ _).trans (.conditions _ _ _ _))
      |>.setStatusNotActive
  | atEase => exact h.startAtEaseCommand
  | offsetClear => exact SoundUnits.setStatusNotActive h

/-- Every write of a register leaves sound units. -/
theorem SoundUnits.write {blocking : Bool} {offset v : Word} {g g' : DiskGlobals}
    (h : g.SoundUnits) (hwrite : g.write blocking offset v = .ok g') : g'.SoundUnits := by
  unfold DiskGlobals.write at hwrite
  split_ifs at hwrite
  · cases hwrite
    refine h.of_diskUnits ?_
    rcases g.writeCmd_cases v with ⟨-, hcmd⟩ | ⟨-, hcmd⟩ | ⟨-, -, -, hcmd⟩ | ⟨-, -, -, hcmd⟩
    · rw [hcmd]
    · rw [hcmd]
      rfl
    · rw [hcmd]
    · rw [hcmd, (g.status_storeCmd v).2.1]
  · cases hwrite
    exact h
  · cases hwrite
    exact h
  · cases hwrite
    exact h
  · cases hwrite
    exact h
  · cases hwrite
    exact h
  · exact h.start hwrite

end DiskGlobals

end Usim
