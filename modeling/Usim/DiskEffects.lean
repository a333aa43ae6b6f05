import Usim.DiskController

/-!
# What the disk controller does to its interrupt

The commands of the controller as changes of the selected unit, and their effect
on the interrupt request and on the request line of the Xbus.
-/

namespace Usim

/-- One bit of the status word. -/
theorem getLsbD_statusBit (c : Bool) {n k : ℕ} (hk : k < 32) :
    (if c then (1 : Word) <<< n else 0).getLsbD k = (c && decide (k = n)) := by
  cases c with
  | false => simp
  | true =>
    rw [if_pos rfl, BitVec.getLsbD_shiftLeft, decide_eq_true hk]
    by_cases h : k = n
    · subst k
      simp
    · simp [h]
      omega

/-- The error bits of the status word. -/
structure StatusErrors where
  /-- Bit 22. -/
  readCompareDifference : Bool
  /-- Bit 21. -/
  ccwCycle : Bool
  /-- Bit 20. -/
  nonexistentMemoryError : Bool
  /-- Bit 10. -/
  seekError : Bool
  /-- Bit 9. -/
  offline : Bool
  /-- Bit 6. -/
  fault : Bool
  deriving DecidableEq, Repr

/-- The error bits of a status word. -/
def statusErrors (v : Word) : StatusErrors :=
  ⟨v.getLsbD 22, v.getLsbD 21, v.getLsbD 20, v.getLsbD 10, v.getLsbD 9, v.getLsbD 6⟩

namespace DiskGlobals

/-- The errors that the status word reports. -/
theorem statusErrors_encodeStatus (g : DiskGlobals) : statusErrors g.encodeStatus =
    ⟨g.status.readCompareDifference, g.status.ccwCycle, g.status.nonexistentMemoryError,
      g.selectedUnit.seekError, !g.selectedUnit.online, g.selectedUnit.hasFault⟩ := by
  unfold encodeStatus statusErrors
  simp only [BitVec.getLsbD_or, getLsbD_statusBit _ (by decide : 22 < 32),
    getLsbD_statusBit _ (by decide : 21 < 32), getLsbD_statusBit _ (by decide : 20 < 32),
    getLsbD_statusBit _ (by decide : 10 < 32), getLsbD_statusBit _ (by decide : 9 < 32),
    getLsbD_statusBit _ (by decide : 6 < 32)]
  simp

/-- Bit 3 of the status word is the interrupt request. -/
theorem encodeStatus_interruptRequest (g : DiskGlobals) :
    g.encodeStatus.getLsbD 3 = g.status.interruptRequest := by
  unfold encodeStatus
  simp only [BitVec.getLsbD_or, getLsbD_statusBit _ (by decide : 3 < 32)]
  simp

/-- A controller that becomes idle may as well have been active before. -/
theorem setStatusNotActive_setStatusActive (g : DiskGlobals) :
    g.setStatusActive.setStatusNotActive = g.setStatusNotActive := rfl

/-- No attention interrupt while the controller is active. -/
theorem getAttention_of_active {g : DiskGlobals} (h : g.status.notActive = false) :
    g.getAttention = g := by
  unfold getAttention
  rw [h, Bool.false_and, if_neg (by decide)]

/-- Attention raised by a command, at the end of a change of the selected unit. -/
theorem raiseAttention_onSelectedUnit (g : DiskGlobals) (f : DiskUnit → DiskUnit) :
    setStatusNotActive ((g.setStatusActive.onSelectedUnit f).raiseAttention (unitNumber g.da)) =
      setStatusNotActive (g.onSelectedUnit fun p => { f p with attention := true }) := by
  have hunits : (g.setStatusActive.onSelectedUnit f).setUnit (unitNumber g.da)
      { (g.setStatusActive.onSelectedUnit f).diskUnits (unitNumber g.da) with attention := true } =
      (g.onSelectedUnit fun p => { f p with attention := true }).setStatusActive := by
    simp only [onSelectedUnit, setUnit, selectedUnit, setStatusActive, Function.update_self,
      Function.update_idem]
  unfold raiseAttention
  rw [getAttention_of_active rfl, hunits, setStatusNotActive_setStatusActive]

/-- Seek: the selected unit seeks and gets attention. -/
theorem startSeek_eq (g : DiskGlobals) : g.startSeek =
    setStatusNotActive (g.onSelectedUnit fun p =>
      { (diskUnitSeek p (decodeDa g.da).1 (decodeDa g.da).2.1 (decodeDa g.da).2.2).2 with
        attention := true }) :=
  raiseAttention_onSelectedUnit g _

/-- Recalibrate: the selected unit seeks to the start, without errors, and gets attention. -/
theorem startRecalibrate_eq (g : DiskGlobals) : g.startRecalibrate =
    setStatusNotActive (g.onSelectedUnit fun p =>
      { (diskUnitSeek p 0 0 0).2 with
        hasFault := false
        seekError := false
        attention := true }) :=
  raiseAttention_onSelectedUnit g _

/-- Fault clear: the selected unit loses its fault. -/
theorem startFaultClear_eq (g : DiskGlobals) : g.startFaultClear =
    setStatusNotActive (g.onSelectedUnit ({ · with hasFault := false })) := rfl

/-- At ease: the selected unit loses its attention. -/
theorem startAtEase_eq (g : DiskGlobals) : g.startAtEase =
    setStatusNotActive (g.onSelectedUnit ({ · with attention := false })) := rfl

/-- What a command leaves of the interrupt: the enables and the reset condition
stay, and the request and its line are left or, with the done interrupt enabled,
raised together. -/
structure LineEffect (g g' : DiskGlobals) : Prop where
  /-- The done interrupt enable. -/
  done : g'.doneInterruptEnable = g.doneInterruptEnable
  /-- The attention interrupt enable. -/
  attentionEnable : g'.attentionInterruptEnable = g.attentionInterruptEnable
  /-- The reset condition. -/
  reset : g'.resetCondition = g.resetCondition
  /-- The request and its line. -/
  line : g'.status.interruptRequest = g.status.interruptRequest ∧ g'.interrupts = g.interrupts ∨
    g.doneInterruptEnable = true ∧ g'.status.interruptRequest = true ∧
      g'.interrupts = assertXbusInterrupt g.interrupts

/-- A change of other globals. -/
theorem LineEffect.of_eq {g g' : DiskGlobals}
    (hdone : g'.doneInterruptEnable = g.doneInterruptEnable)
    (hattention : g'.attentionInterruptEnable = g.attentionInterruptEnable)
    (hreset : g'.resetCondition = g.resetCondition)
    (hrequest : g'.status.interruptRequest = g.status.interruptRequest)
    (hinterrupts : g'.interrupts = g.interrupts) : LineEffect g g' :=
  ⟨hdone, hattention, hreset, .inl ⟨hrequest, hinterrupts⟩⟩

/-- No change. -/
theorem LineEffect.refl (g : DiskGlobals) : LineEffect g g := .of_eq rfl rfl rfl rfl rfl

/-- Two changes. -/
theorem LineEffect.trans {g g' g'' : DiskGlobals} (h : LineEffect g g') (h' : LineEffect g' g'') :
    LineEffect g g'' := by
  refine ⟨h'.done.trans h.done, h'.attentionEnable.trans h.attentionEnable,
    h'.reset.trans h.reset, ?_⟩
  rcases h.line with ⟨hr, hi⟩ | ⟨hdone, hr, hi⟩
  · rcases h'.line with ⟨hr', hi'⟩ | ⟨hdone', hr', hi'⟩
    · exact .inl ⟨hr'.trans hr, hi'.trans hi⟩
    · exact .inr ⟨h.done ▸ hdone', hr', by rw [hi', hi]⟩
  · rcases h'.line with ⟨hr', hi'⟩ | ⟨-, hr', hi'⟩
    · exact .inr ⟨hdone, hr'.trans hr, hi'.trans hi⟩
    · exact .inr ⟨hdone, hr', by rw [hi', hi, assertXbusInterrupt_idem]⟩

/-- The controller became idle: with the done interrupt enabled, it raises its
request and the line. -/
structure Idled (g g' : DiskGlobals) : Prop where
  /-- It is idle. -/
  notActive : g'.status.notActive = true
  /-- The request. -/
  request : g'.status.interruptRequest = (g.doneInterruptEnable || g.status.interruptRequest)
  /-- The line. -/
  interrupts : g'.interrupts =
    if g.doneInterruptEnable then assertXbusInterrupt g.interrupts else g.interrupts
  /-- The done interrupt enable. -/
  done : g'.doneInterruptEnable = g.doneInterruptEnable
  /-- The attention interrupt enable. -/
  attentionEnable : g'.attentionInterruptEnable = g.attentionInterruptEnable
  /-- The reset condition. -/
  reset : g'.resetCondition = g.resetCondition

/-- Becoming idle after a change of other globals. -/
theorem idled_setStatusNotActive {g g' : DiskGlobals}
    (hdone : g'.doneInterruptEnable = g.doneInterruptEnable)
    (hattention : g'.attentionInterruptEnable = g.attentionInterruptEnable)
    (hreset : g'.resetCondition = g.resetCondition)
    (hrequest : g'.status.interruptRequest = g.status.interruptRequest)
    (hinterrupts : g'.interrupts = g.interrupts) : Idled g g'.setStatusNotActive := by
  unfold setStatusNotActive
  dsimp only
  split
  · rename_i henabled
    have hg := hdone.symm.trans henabled
    exact ⟨rfl, by rw [hg]; rfl, by rw [if_pos hg, ← hinterrupts]; rfl, hdone, hattention, hreset⟩
  · rename_i henabled
    have hg : g.doneInterruptEnable = false := by simpa [hdone] using henabled
    exact ⟨rfl, by rw [hg, ← hrequest]; rfl, by rw [hg, ← hinterrupts]; rfl, hdone, hattention,
      hreset⟩

/-- Becoming idle twice. -/
theorem Idled.trans {g g' g'' : DiskGlobals} (h : Idled g g') (h' : Idled g' g'') :
    Idled g g'' where
  notActive := h'.notActive
  request := by rw [h'.request, h.request, h.done, ← Bool.or_assoc, Bool.or_self]
  interrupts := by
    rw [h'.interrupts, h.interrupts, h.done]
    split
    · exact assertXbusInterrupt_idem _
    · rfl
  done := h'.done.trans h.done
  attentionEnable := h'.attentionEnable.trans h.attentionEnable
  reset := h'.reset.trans h.reset

/-- Becoming idle raises the request and the line together, or neither. -/
theorem Idled.lineEffect {g g' : DiskGlobals} (h : Idled g g') : LineEffect g g' := by
  refine ⟨h.done, h.attentionEnable, h.reset, ?_⟩
  have hrequest := h.request
  have hinterrupts := h.interrupts
  cases hdone : g.doneInterruptEnable with
  | false =>
    rw [hdone] at hrequest hinterrupts
    exact .inl ⟨hrequest, hinterrupts⟩
  | true =>
    rw [hdone] at hrequest hinterrupts
    exact .inr ⟨rfl, hrequest, hinterrupts⟩

/-- Becoming idle leaves the units. -/
theorem diskUnits_setStatusNotActive (g : DiskGlobals) :
    g.setStatusNotActive.diskUnits = g.diskUnits := by
  unfold setStatusNotActive
  dsimp only
  split <;> rfl

/-- A change of the selected unit before becoming idle. -/
theorem idled_onSelectedUnit (g : DiskGlobals) (f : DiskUnit → DiskUnit) :
    Idled g (g.onSelectedUnit f).setStatusNotActive :=
  idled_setStatusNotActive rfl rfl rfl rfl rfl

/-- A unit other than this one has attention. -/
def othersAttention (g : DiskGlobals) (unit : Fin 8) : Bool :=
  decide (∃ i, i ≠ unit ∧ (g.diskUnits i).attention = true)

/-- The attention of this unit, and of the others. -/
theorem anyAttention_eq (g : DiskGlobals) (unit : Fin 8) :
    g.anyAttention = ((g.diskUnits unit).attention || g.othersAttention unit) := by
  rw [anyAttention, othersAttention, Bool.eq_iff_iff, Bool.or_eq_true, decide_eq_true_iff,
    decide_eq_true_iff]
  constructor
  · rintro ⟨i, hi⟩
    by_cases hunit : i = unit
    · subst i
      exact .inl hi
    · exact .inr ⟨i, hunit, hi⟩
  · rintro (hunit | ⟨i, -, hi⟩)
    · exact ⟨unit, hunit⟩
    · exact ⟨i, hi⟩

/-- The attention after a change of this unit. -/
theorem anyAttention_setUnit (g : DiskGlobals) (unit : Fin 8) (p : DiskUnit) :
    (g.setUnit unit p).anyAttention = (p.attention || g.othersAttention unit) := by
  have hothers : (g.setUnit unit p).othersAttention unit = g.othersAttention unit := by
    rw [othersAttention, othersAttention, decide_eq_decide]
    constructor
    · rintro ⟨i, hi, hattention⟩
      exact ⟨i, hi, by simpa [setUnit, hi] using hattention⟩
    · rintro ⟨i, hi, hattention⟩
      exact ⟨i, hi, by simpa [setUnit, hi] using hattention⟩
  have hself : (g.setUnit unit p).diskUnits unit = p := Function.update_self _ _ _
  rw [anyAttention_eq _ unit, hothers, hself]

/-- The attention after a change of the selected unit. -/
theorem anyAttention_onSelectedUnit (g : DiskGlobals) (f : DiskUnit → DiskUnit) :
    (g.onSelectedUnit f).setStatusNotActive.anyAttention =
      ((f g.selectedUnit).attention || g.othersAttention (unitNumber g.da)) := by
  rw [anyAttention, diskUnits_setStatusNotActive]
  exact anyAttention_setUnit g (unitNumber g.da) (f g.selectedUnit)

end DiskGlobals

/-- A transfer leaves the interrupt request, the activity and the attention. -/
theorem performXferLoop_frame (read compare : Bool) (clp : Word) (clpOffset : HalfWord) (x : Xfer) :
    SameDrive x.p (performXferLoop read compare clp clpOffset x).2.p ∧
      (performXferLoop read compare clp clpOffset x).2.status.interruptRequest =
        x.status.interruptRequest ∧
      (performXferLoop read compare clp clpOffset x).2.status.notActive = x.status.notActive ∧
      (performXferLoop read compare clp clpOffset x).2.memory.npages = x.memory.npages := by
  fun_induction performXferLoop read compare clp clpOffset x with
  | case1 clpOffset x r hr =>
    have h := blockFrame_xferCcw read compare (clp + clpOffset.setWidth 32) x
    exact ⟨h.place.toSameDrive, h.interruptRequest, h.notActive, h.npages⟩
  | case2 clpOffset x r ccw hr hlast =>
    have h := blockFrame_xferCcw read compare (clp + clpOffset.setWidth 32) x
    exact ⟨h.place.toSameDrive, h.interruptRequest, h.notActive, h.npages⟩
  | case3 clpOffset x r ccw hr hlast hseek ih =>
    have h := blockFrame_xferCcw read compare (clp + clpOffset.setWidth 32) x
    have hnext := sameDrive_diskUnitSeek r.2.p (nextPosition r.2.p).1 (nextPosition r.2.p).2.1
      (nextPosition r.2.p).2.2
    obtain ⟨hp, hrequest, hactive, hnpages⟩ := ih
    exact ⟨(h.place.toSameDrive.trans hnext).trans hp, hrequest.trans h.interruptRequest,
      hactive.trans h.notActive, hnpages.trans h.npages⟩
  | case4 clpOffset x r ccw hr hlast hseek =>
    have h := blockFrame_xferCcw read compare (clp + clpOffset.setWidth 32) x
    have hnext := sameDrive_diskUnitSeek r.2.p (nextPosition r.2.p).1 (nextPosition r.2.p).2.1
      (nextPosition r.2.p).2.2
    exact ⟨h.place.toSameDrive.trans hnext, h.interruptRequest, h.notActive, h.npages⟩

namespace DiskGlobals

/-- A completed transfer. -/
theorem idled_doXfer {g : DiskGlobals} (hready : g.xferReq.ready = true) : Idled g g.doXfer := by
  unfold doXfer
  dsimp only
  rw [if_pos hready]
  split
  · have hframe := performXferLoop_frame g.xferReq.read g.xferReq.compare g.xferReq.clp 0
      ⟨(diskUnitSeek (g.diskUnits g.xferReq.p) g.xferReq.cylinder g.xferReq.head
        g.xferReq.block).2, { g.status with
          readCompareDifference := false
          ccwCycle := false
          nonexistentMemoryError := false }, g.memory⟩
    exact idled_setStatusNotActive rfl rfl rfl hframe.2.1 rfl
  · exact idled_setStatusNotActive rfl rfl rfl rfl rfl

/-- A transfer leaves the attention. -/
theorem anyAttention_doXfer (g : DiskGlobals) : g.doXfer.anyAttention = g.anyAttention := by
  have hseek := sameDrive_diskUnitSeek (g.diskUnits g.xferReq.p) g.xferReq.cylinder g.xferReq.head
    g.xferReq.block
  unfold doXfer
  dsimp only
  split
  · split
    · have hframe := performXferLoop_frame g.xferReq.read g.xferReq.compare g.xferReq.clp 0
        ⟨(diskUnitSeek (g.diskUnits g.xferReq.p) g.xferReq.cylinder g.xferReq.head
          g.xferReq.block).2, { g.status with
            readCompareDifference := false
            ccwCycle := false
            nonexistentMemoryError := false }, g.memory⟩
      rw [anyAttention, diskUnits_setStatusNotActive, anyAttention_eq g g.xferReq.p]
      refine (anyAttention_setUnit g g.xferReq.p _).trans ?_
      rw [performXfer, (hseek.trans hframe.1).attention]
    · rw [anyAttention, diskUnits_setStatusNotActive, anyAttention_eq g g.xferReq.p]
      refine (anyAttention_setUnit g g.xferReq.p _).trans ?_
      rw [hseek.attention]
  · rfl

/-- A completed transfer, or a turn without one. -/
theorem lineEffect_doXfer (g : DiskGlobals) : LineEffect g g.doXfer := by
  cases hready : g.xferReq.ready with
  | true => exact (idled_doXfer hready).lineEffect
  | false =>
    unfold doXfer
    dsimp only
    rw [hready]
    exact .refl g

/-- The command 005. -/
theorem idled_startAtEaseCommand (g : DiskGlobals) : Idled g g.startAtEaseCommand := by
  have hease : Idled g g.startAtEase := by
    rw [startAtEase_eq]
    exact idled_onSelectedUnit g _
  have hclear (g' : DiskGlobals) (h : Idled g g') : Idled g g'.startFaultClear := by
    rw [startFaultClear_eq]
    exact h.trans (idled_onSelectedUnit g' _)
  have hrecalibrate : Idled g g.startAtEase.startRecalibrate := by
    rw [startRecalibrate_eq]
    exact hease.trans (idled_onSelectedUnit _ _)
  unfold startAtEaseCommand
  dsimp only
  split_ifs
  · exact hclear _ hrecalibrate
  · exact hrecalibrate
  · exact hclear _ hease
  · exact hease

/-- Becoming idle leaves the command word. -/
theorem cmd_setStatusNotActive (g : DiskGlobals) : g.setStatusNotActive.cmd = g.cmd := by
  unfold setStatusNotActive
  dsimp only
  split <;> rfl

/-- A seek leaves its unit with attention. -/
theorem anyAttention_startSeek (g : DiskGlobals) : g.startSeek.anyAttention = true := by
  rw [startSeek_eq, anyAttention_onSelectedUnit]
  exact Bool.true_or _

/-- A recalibration leaves its unit with attention. -/
theorem anyAttention_startRecalibrate (g : DiskGlobals) :
    g.startRecalibrate.anyAttention = true := by
  rw [startRecalibrate_eq, anyAttention_onSelectedUnit]
  exact Bool.true_or _

/-- At ease leaves the attention of the other units. -/
theorem anyAttention_startAtEase (g : DiskGlobals) :
    g.startAtEase.anyAttention = g.othersAttention (unitNumber g.da) := by
  rw [startAtEase_eq, anyAttention_onSelectedUnit]
  exact Bool.false_or _

/-- Clearing a fault leaves the attention. -/
theorem anyAttention_startFaultClear (g : DiskGlobals) :
    g.startFaultClear.anyAttention = g.anyAttention := by
  rw [startFaultClear_eq, anyAttention_onSelectedUnit, anyAttention_eq g (unitNumber g.da)]
  rfl

/-- The attention after the command 005: that of the selected unit is raised by
the recalibration only. -/
theorem anyAttention_startAtEaseCommand (g : DiskGlobals) :
    g.startAtEaseCommand.anyAttention =
      (decide (g.cmd &&& 0o1000 ≠ 0) || g.othersAttention (unitNumber g.da)) := by
  have hcmd : g.startAtEase.cmd = g.cmd := by
    rw [startAtEase_eq, cmd_setStatusNotActive]
    rfl
  unfold startAtEaseCommand
  dsimp only
  rw [hcmd]
  split_ifs with hrecalibrate hclear hclear
  · rw [anyAttention_startFaultClear, anyAttention_startRecalibrate, decide_eq_true hrecalibrate,
      Bool.true_or]
  · rw [anyAttention_startRecalibrate, decide_eq_true hrecalibrate, Bool.true_or]
  · rw [anyAttention_startFaultClear, anyAttention_startAtEase, decide_eq_false hrecalibrate,
      Bool.false_or]
  · rw [anyAttention_startAtEase, decide_eq_false hrecalibrate, Bool.false_or]

/-- What START does: nothing, a transfer, or a command that ends at once. -/
inductive StartKind where
  /-- The unit is offline, or write-protected and to be written. -/
  | ignored
  /-- A transfer. -/
  | transfer
  /-- Another command. -/
  | command
  deriving DecidableEq, Repr

/-- What START does, by the command word and the selected unit. -/
def startKind (g : DiskGlobals) : StartKind :=
  if ¬g.selectedUnit.online then .ignored
  else if g.cmd &&& 0o17 = 0 ∨ g.cmd &&& 0o17 = 0o10 then .transfer
  else if g.cmd &&& 0o17 = 0o11 then if g.selectedUnit.readOnly then .ignored else .transfer
  else .command

/-- Some unit has attention after a command that is not a transfer: a seek raises it
on the selected unit, at ease clears it there, and a recalibration raises it again. -/
def attentionAfterStart (g : DiskGlobals) : Bool :=
  if g.cmd &&& 0o17 = 0o4 then true
  else if g.cmd &&& 0o17 = 0o5 then
    decide (g.cmd &&& 0o1000 ≠ 0) || g.othersAttention (unitNumber g.da)
  else g.anyAttention

/-- A START that is ignored leaves all but the fault of the selected unit. -/
structure StartIgnored (g g' : DiskGlobals) : Prop where
  /-- The enables, the request and the line. -/
  effect : LineEffect g g'
  /-- The status. -/
  status : g'.status = g.status
  /-- The line. -/
  interrupts : g'.interrupts = g.interrupts
  /-- The attention. -/
  attention : g'.anyAttention = g.anyAttention

/-- A command of an online unit. -/
theorem startKind_of_cmd {g : DiskGlobals} {command : Word} (honline : g.selectedUnit.online = true)
    (hcommand : g.cmd &&& 0o17 = command) : g.startKind =
      if command = 0 ∨ command = 0o10 then .transfer
      else if command = 0o11 then if g.selectedUnit.readOnly then .ignored else .transfer
      else .command := by
  rw [startKind, if_neg (not_not.mpr honline), hcommand]

/-- START, by its kind. -/
theorem start_cases {blocking : Bool} {g g' : DiskGlobals} (h : g.start blocking = .ok g') :
    g.startKind = .ignored ∧ StartIgnored g g' ∨
    g.startKind = .transfer ∧ (∃ read compare, g' = g.submitXfer blocking read compare) ∨
    g.startKind = .command ∧ Idled g g' ∧ g'.anyAttention = g.attentionAfterStart := by
  cases started_of_start h with
  | offline honline =>
    refine .inl ⟨?_, .refl g, rfl, rfl, rfl⟩
    rw [startKind, if_pos honline]
  | read honline hcommand => exact .inr (.inl ⟨startKind_of_cmd honline hcommand, true, false, rfl⟩)
  | compare honline hcommand =>
    exact .inr (.inl ⟨startKind_of_cmd honline hcommand, true, true, rfl⟩)
  | write honline hcommand =>
    have hkind : g.startKind = if g.selectedUnit.readOnly then .ignored else .transfer :=
      startKind_of_cmd honline hcommand
    rw [hkind]
    unfold startWrite
    split
    · refine .inl ⟨rfl, .of_eq rfl rfl rfl rfl rfl, rfl, rfl, ?_⟩
      refine (anyAttention_setUnit g (unitNumber g.da) _).trans ?_
      rw [anyAttention_eq g (unitNumber g.da)]
      rfl
    · exact .inr (.inl ⟨rfl, false, false, rfl⟩)
  | seek honline hcommand =>
    rw [attentionAfterStart, if_pos hcommand]
    refine .inr (.inr ⟨startKind_of_cmd honline hcommand, ?_, anyAttention_startSeek g⟩)
    rw [startSeek_eq]
    exact idled_onSelectedUnit _ _
  | atEase honline hcommand =>
    have hseek : ¬g.cmd &&& 0o17 = 0o4 := by
      rw [hcommand]
      decide
    rw [attentionAfterStart, if_neg hseek, if_pos hcommand]
    exact .inr (.inr ⟨startKind_of_cmd honline hcommand, idled_startAtEaseCommand g,
      anyAttention_startAtEaseCommand g⟩)
  | offsetClear honline hcommand =>
    have hother : ¬g.cmd &&& 0o17 = 0o4 ∧ ¬g.cmd &&& 0o17 = 0o5 := by
      rw [hcommand]
      decide
    rw [attentionAfterStart, if_neg hother.1, if_neg hother.2]
    refine .inr (.inr ⟨startKind_of_cmd honline hcommand,
      idled_setStatusNotActive rfl rfl rfl rfl rfl, ?_⟩)
    rw [startOffsetClear, anyAttention, diskUnits_setStatusNotActive]
    rfl

/-- START raises the request and the line together. -/
theorem lineEffect_start {blocking : Bool} {g g' : DiskGlobals} (h : g.start blocking = .ok g') :
    LineEffect g g' := by
  rcases start_cases h with ⟨-, hignored⟩ | ⟨-, read, compare, rfl⟩ | ⟨-, hidle, -⟩
  · exact hignored.effect
  · have hrequest : LineEffect g (g.requestXfer read compare) := .of_eq rfl rfl rfl rfl rfl
    unfold submitXfer
    dsimp only
    split
    · exact hrequest.trans (lineEffect_doXfer _)
    · exact hrequest
  · exact hidle.lineEffect

/-- A write of a register other than the command register. -/
theorem lineEffect_write {blocking : Bool} {offset v : Word} {g g' : DiskGlobals}
    (hoffset : offset ≠ 0) (h : g.write blocking offset v = .ok g') : LineEffect g g' := by
  unfold write at h
  rw [if_neg hoffset] at h
  split_ifs at h
  · cases h
    exact .refl g
  · cases h
    exact .of_eq rfl rfl rfl rfl rfl
  · cases h
    exact .refl g
  · cases h
    exact .of_eq rfl rfl rfl rfl rfl
  · cases h
    exact .refl g
  · exact lineEffect_start h

/-- A stored command leaves the status, the units and the reset condition. -/
theorem status_storeCmd (g : DiskGlobals) (v : Word) :
    (g.storeCmd v).status = g.status ∧ (g.storeCmd v).diskUnits = g.diskUnits ∧
      (g.storeCmd v).resetCondition = g.resetCondition := by
  unfold storeCmd
  dsimp only
  split
  · exact ⟨rfl, rfl, rfl⟩
  · exact ⟨rfl, rfl, rfl⟩

/-- The line after a stored command: one without either enable lowers it. -/
theorem interrupts_storeCmd (g : DiskGlobals) (v : Word) :
    (g.storeCmd v).interrupts =
      if v.getLsbD 11 = false ∧ v.getLsbD 10 = false then deassertXbusInterrupt g.interrupts
      else g.interrupts := by
  unfold storeCmd
  dsimp only
  generalize v.getLsbD 11 = done, v.getLsbD 10 = attention
  cases done <;> cases attention <;> simp [deassertInterrupt]

/-- The interrupt request and the line after a reset. -/
theorem line_reset (g : DiskGlobals) :
    g.reset.status.interruptRequest = false ∧ g.reset.interrupts = g.interrupts := ⟨rfl, rfl⟩

/-- What a write of the command register does. -/
theorem writeCmd_cases (g : DiskGlobals) (v : Word) :
    v = 0 ∧ g.writeCmd v = { g with cmd := 0, resetCondition := false } ∨
    v = 0o16 ∧ g.writeCmd v = { g.reset with resetCondition := true } ∨
    v ≠ 0 ∧ v ≠ 0o16 ∧ g.resetCondition = true ∧ g.writeCmd v = g ∨
    v ≠ 0 ∧ v ≠ 0o16 ∧ g.resetCondition = false ∧ g.writeCmd v = g.storeCmd v := by
  unfold writeCmd
  split_ifs with h0 hreset hcondition
  · exact .inl ⟨h0, rfl⟩
  · exact .inr (.inl ⟨hreset, rfl⟩)
  · exact .inr (.inr (.inl ⟨h0, hreset, hcondition, rfl⟩))
  · exact .inr (.inr (.inr ⟨h0, hreset, by simpa using hcondition, rfl⟩))

end DiskGlobals

end Usim
