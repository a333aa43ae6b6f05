import Usim.CSharp.DiskEquivalence

/-!
# The registers of the two disk controllers

A list of register accesses finds the two controllers in lockstep exactly as long
as no transfer fetches a populated command word above 2^22.
-/

namespace Usim

open Lib

/-- The controller of the port that is like `g`. The request of the transfer is a
parameter there. -/
def DiskGlobals.sharp (g : DiskGlobals) : SharpDiskController where
  cmd := g.cmd
  clp := g.clp
  da := g.da
  resetCondition := g.resetCondition
  readCompareDifference := g.status.readCompareDifference
  ccwCycle := g.status.ccwCycle
  nonexistentMemoryError := g.status.nonexistentMemoryError
  interruptRequest := g.status.interruptRequest
  notActive := g.status.notActive
  doneInterruptEnable := g.doneInterruptEnable
  attentionInterruptEnable := g.attentionInterruptEnable
  units := fun i => (g.diskUnits i).sharp
  mainMemory := g.memory.flat
  ucode := g.interrupts

namespace DiskGlobals

/-- The two number the units alike. -/
theorem unitIndex_eq (da : Word) : SharpDiskController.unitIndex da = unitNumber da := by
  unfold SharpDiskController.unitIndex unitNumber
  apply Fin.ext
  simp only [Fin.ofNat, toNat_and_mask _ 0x7 (n := 3) rfl]
  omega

/-- The two select the same unit. -/
theorem sharp_selectedUnit (g : DiskGlobals) :
    g.sharp.selectedUnit = g.selectedUnit.sharp := by
  unfold SharpDiskController.selectedUnit
  rw [unitIndex_eq]
  rfl

/-- A unit changed. -/
theorem sharp_setUnit (g : DiskGlobals) (unit : Fin 8) (p : DiskUnit) :
    (g.setUnit unit p).sharp = g.sharp.setUnit unit p.sharp := by
  have hunits : (fun i => (Function.update g.diskUnits unit p i).sharp) =
      Function.update (fun i => (g.diskUnits i).sharp) unit p.sharp := by
    funext i
    exact Function.apply_update (fun _ => DiskUnit.sharp) g.diskUnits unit p i
  exact congrArg (fun units => { g.sharp with units := units }) hunits

/-- The selected unit changed. -/
theorem sharp_onSelectedUnit (g : DiskGlobals) {f : DiskUnit → DiskUnit}
    {f' : SharpDiskUnit → SharpDiskUnit} (h : (f g.selectedUnit).sharp = f' g.selectedUnit.sharp) :
    (g.onSelectedUnit f).sharp = g.sharp.onSelectedUnit f' := by
  unfold onSelectedUnit SharpDiskController.onSelectedUnit
  rw [sharp_setUnit, h, ← sharp_selectedUnit, ← unitIndex_eq]
  rfl

/-- The two withdraw the request alike. -/
theorem sharp_deassertInterrupt (g : DiskGlobals) :
    g.deassertInterrupt.sharp = g.sharp.deassertInterrupt := by
  unfold deassertInterrupt deassertXbusInterrupt SharpDiskController.deassertInterrupt
  by_cases h : g.interrupts.statusReg &&& 0o40000 ≠ 0
  · rw [if_pos h]
    exact (if_pos h).symm
  · rw [if_neg h]
    exact (if_neg h).symm

/-- The two become idle alike. -/
theorem sharp_setStatusNotActive (g : DiskGlobals) :
    g.setStatusNotActive.sharp = g.sharp.setStatusNotActive := by
  unfold setStatusNotActive SharpDiskController.setStatusNotActive
  cases hdone : g.doneInterruptEnable with
  | false =>
    have hdone' : g.sharp.doneInterruptEnable = false := hdone
    simp only [hdone']
    rfl
  | true =>
    have hdone' : g.sharp.doneInterruptEnable = true := hdone
    simp only [hdone']
    rfl

/-- The two are reset alike. -/
theorem sharp_reset (g : DiskGlobals) : g.reset.sharp = g.sharp.reset := by
  unfold reset resetStatus SharpDiskController.reset SharpDiskController.resetStatus
  have h := sharp_setStatusNotActive { g with
    doneInterruptEnable := false
    attentionInterruptEnable := false
    status := { g.status with
      readCompareDifference := false
      ccwCycle := false
      nonexistentMemoryError := false
      interruptRequest := false } }
  exact congrArg (fun c : SharpDiskController => { c with cmd := 0, clp := 0, da := 0 }) h

/-- The two encode the status alike. -/
theorem sharp_encodeStatus (g : DiskGlobals) : g.sharp.encodeStatus = g.encodeStatus := by
  unfold SharpDiskController.encodeStatus encodeStatus
  rw [sharp_selectedUnit]
  rfl

/-- The port reports no attention while it is active. -/
theorem onDiskUnitAttention_of_active {c : SharpDiskController} (h : c.notActive = false) :
    c.onDiskUnitAttention = c := by
  unfold SharpDiskController.onDiskUnitAttention
  rw [h, Bool.false_and, if_neg (by decide)]

/-- `start_seek`. -/
theorem sharp_startSeek (g : DiskGlobals) : g.startSeek.sharp = g.sharp.startSeek := by
  have hseek := g.selectedUnit.sharp_seek (decodeDa g.da).1 (decodeDa g.da).2.1 (decodeDa g.da).2.2
  have hunit : (g.onSelectedUnit fun p =>
      { (diskUnitSeek p (decodeDa g.da).1 (decodeDa g.da).2.1 (decodeDa g.da).2.2).2 with
        attention := true }).sharp =
      g.sharp.onSelectedUnit fun p =>
        (p.seek (decodeDa g.da).1 (decodeDa g.da).2.1 (decodeDa g.da).2.2).2.raiseAttention := by
    apply sharp_onSelectedUnit
    rw [hseek]
    rfl
  rw [startSeek_eq, sharp_setStatusNotActive, hunit]
  unfold SharpDiskController.startSeek
  dsimp only
  rw [onDiskUnitAttention_of_active rfl]
  rfl

/-- `start_recalibrate`. -/
theorem sharp_startRecalibrate (g : DiskGlobals) :
    g.startRecalibrate.sharp = g.sharp.startRecalibrate := by
  have hseek := g.selectedUnit.sharp_seek 0 0 0
  have hunit : (g.onSelectedUnit fun p =>
      { (diskUnitSeek p 0 0 0).2 with
        hasFault := false
        seekError := false
        attention := true }).sharp =
      g.sharp.onSelectedUnit fun p =>
        SharpDiskUnit.raiseAttention { (p.seek 0 0 0).2 with
          hasFault := false
          seekError := false } := by
    apply sharp_onSelectedUnit
    rw [hseek]
    rfl
  rw [startRecalibrate_eq, sharp_setStatusNotActive, hunit]
  unfold SharpDiskController.startRecalibrate
  dsimp only
  rw [onDiskUnitAttention_of_active rfl]
  rfl

/-- `start_fault_clear`. -/
theorem sharp_startFaultClear (g : DiskGlobals) :
    g.startFaultClear.sharp = g.sharp.startFaultClear := by
  unfold startFaultClear SharpDiskController.startFaultClear
  rw [sharp_setStatusNotActive]
  exact congrArg SharpDiskController.setStatusNotActive (sharp_onSelectedUnit g.setStatusActive rfl)

/-- `start_at_ease`. -/
theorem sharp_startAtEase (g : DiskGlobals) : g.startAtEase.sharp = g.sharp.startAtEase := by
  unfold startAtEase SharpDiskController.startAtEase
  rw [sharp_setStatusNotActive]
  exact congrArg SharpDiskController.setStatusNotActive (sharp_onSelectedUnit g.setStatusActive rfl)

/-- `start_offset_clear`. -/
theorem sharp_startOffsetClear (g : DiskGlobals) :
    g.startOffsetClear.sharp = g.sharp.startOffsetClear :=
  sharp_setStatusNotActive g.setStatusActive

/-- The command 005. -/
theorem sharp_startAtEaseCommand (g : DiskGlobals) :
    g.startAtEaseCommand.sharp = g.sharp.startAtEaseCommand := by
  unfold startAtEaseCommand SharpDiskController.startAtEaseCommand
  dsimp only
  rw [← sharp_startAtEase]
  have hrecalibrate : (if g.startAtEase.cmd &&& 0o1000 ≠ 0 then g.startAtEase.startRecalibrate
        else g.startAtEase).sharp =
      if g.startAtEase.sharp.cmd &&& 0x200 ≠ 0 then g.startAtEase.sharp.startRecalibrate
        else g.startAtEase.sharp := by
    rw [apply_ite sharp, sharp_startRecalibrate]
    rfl
  rw [← hrecalibrate, apply_ite sharp, sharp_startFaultClear]
  rfl

/-- The transfer that START begins: whether it reads and whether it compares. -/
def transferStarted (g : DiskGlobals) : Option (Bool × Bool) :=
  if g.resetCondition ∨ ¬g.selectedUnit.online then none
  else if g.cmd &&& 0o17 = 0 then some (true, false)
  else if g.cmd &&& 0o17 = 0o10 then some (true, true)
  else if g.cmd &&& 0o17 = 0o11 ∧ ¬g.selectedUnit.readOnly then some (false, false)
  else none

/-- The seek of a transfer succeeds. -/
def seekStarted (g : DiskGlobals) : Bool :=
  (diskUnitSeek g.selectedUnit (decodeDa g.da).1 (decodeDa g.da).2.1 (decodeDa g.da).2.2).1

/-- What a transfer starts with. -/
def xferStarted (g : DiskGlobals) : Xfer :=
  ⟨(diskUnitSeek g.selectedUnit (decodeDa g.da).1 (decodeDa g.da).2.1 (decodeDa g.da).2.2).2,
    { g.status with
      readCompareDifference := false
      ccwCycle := false
      nonexistentMemoryError := false
      notActive := false }, g.memory⟩

/-- The addresses of the command words that START makes the controller fetch. -/
def ccwsStarted (g : DiskGlobals) : List Word :=
  match g.transferStarted with
  | none => []
  | some (read, compare) =>
    if g.seekStarted then ccwAddresses read compare g.clp 0 g.xferStarted else []

/-- What a transfer that ended with `x` leaves, before the controller becomes idle. -/
def xferDone (g : DiskGlobals) (x : Xfer) : DiskGlobals :=
  { g.setUnit (unitNumber g.da) x.p with
    status := x.status
    memory := x.memory
    da := diskUnitDa x.p }

/-- `submit_xfer`, for the port. -/
theorem sharp_submitXfer (read compare : Bool) (g : DiskGlobals) :
    (g.submitXfer true read compare).sharp =
      if g.seekStarted then
        (g.xferDone (performXferLoop read compare g.clp 0 g.xferStarted).2).sharp.setStatusNotActive
      else (g.setUnit (unitNumber g.da) g.xferStarted.p).sharp.setStatusNotActive := by
  unfold submitXfer requestXfer doXfer
  dsimp only
  rw [if_pos rfl, if_pos rfl, sharp_setStatusNotActive]
  by_cases hseek : g.seekStarted = true
  · have hseek' : (diskUnitSeek (g.setStatusActive.diskUnits (unitNumber g.setStatusActive.da))
        (decodeDa g.setStatusActive.da).1 (decodeDa g.setStatusActive.da).2.1
        (decodeDa g.setStatusActive.da).2.2).1 = true := hseek
    rw [if_pos hseek, if_pos hseek']
    rfl
  · have hseek' : ¬(diskUnitSeek (g.setStatusActive.diskUnits (unitNumber g.setStatusActive.da))
        (decodeDa g.setStatusActive.da).1 (decodeDa g.setStatusActive.da).2.1
        (decodeDa g.setStatusActive.da).2.2).1 = true := hseek
    rw [if_neg hseek, if_neg hseek']
    rfl

/-- What a transfer of the port that ended with `x` leaves. -/
def sharpXferDone (g : DiskGlobals) (x : SharpXfer) : SharpDiskController :=
  { g.sharp.setUnit (unitNumber g.da) x.p with
    readCompareDifference := x.readCompareDifference
    ccwCycle := x.ccwCycle
    nonexistentMemoryError := x.nonexistentMemoryError
    mainMemory := x.mainMemory
    da := x.p.da }

/-- `SubmitXfer`, in terms of the C program. -/
theorem submitXfer_sharp (read compare : Bool) (g : DiskGlobals) :
    g.sharp.submitXfer read compare =
      if g.seekStarted then
        (g.sharpXferDone (SharpXfer.performXferLoop read compare g.clp 0
          g.xferStarted.sharp).2).setStatusNotActive
      else (g.setUnit (unitNumber g.da) g.xferStarted.p).sharp.setStatusNotActive := by
  have hseek : g.selectedUnit.sharp.seek (decodeDa g.da).1 (decodeDa g.da).2.1 (decodeDa g.da).2.2 =
      (g.seekStarted, g.xferStarted.p.sharp) :=
    g.selectedUnit.sharp_seek _ _ _
  have hseek' : (g.sharp.setStatusActive.units (unitNumber g.sharp.setStatusActive.da)).seek
      ((g.sharp.setStatusActive.da >>> 16) &&& 0xFFF) ((g.sharp.setStatusActive.da >>> 8) &&& 0xFF)
      (g.sharp.setStatusActive.da &&& 0xFF) = (g.seekStarted, g.xferStarted.p.sharp) := hseek
  unfold SharpDiskController.submitXfer SharpDiskController.decodeDa
  dsimp only
  rw [unitIndex_eq, hseek']
  by_cases hstarted : g.seekStarted = true
  · rw [if_pos hstarted, if_pos hstarted]
    rfl
  · rw [if_neg hstarted, if_neg hstarted, sharp_setUnit]
    rfl

/-- What two like transfers leave is alike once the controllers are idle. -/
theorem setStatusNotActive_xferDone {g : DiskGlobals} {x : Xfer}
    (h : x.status.interruptRequest = g.status.interruptRequest) :
    (g.xferDone x).sharp.setStatusNotActive =
      (g.sharpXferDone x.sharp).setStatusNotActive := by
  have hunit : x.sharp.p = x.p.sharp := rfl
  have hidle : (g.xferDone x).sharp.setStatusActive =
      (g.sharpXferDone x.sharp).setStatusActive := by
    unfold sharpXferDone
    rw [hunit, ← sharp_setUnit]
    unfold SharpDiskController.setStatusActive sharp xferDone setUnit
    simp only [h]
    rfl
  calc (g.xferDone x).sharp.setStatusNotActive
      = (g.xferDone x).sharp.setStatusActive.setStatusNotActive := rfl
    _ = (g.sharpXferDone x.sharp).setStatusActive.setStatusNotActive :=
      congrArg SharpDiskController.setStatusNotActive hidle
    _ = (g.sharpXferDone x.sharp).setStatusNotActive := rfl

/-- `submit_xfer`: the two transfer alike. -/
theorem sharp_submitXfer_of_below {g : DiskGlobals} (read compare : Bool)
    (honline : g.selectedUnit.online = true)
    (hbelow : g.seekStarted = true →
      FetchesBelow g.memory (ccwAddresses read compare g.clp 0 g.xferStarted)) :
    (g.submitXfer true read compare).sharp = g.sharp.submitXfer read compare := by
  rw [sharp_submitXfer, submitXfer_sharp]
  by_cases hseek : g.seekStarted = true
  · rw [if_pos hseek, if_pos hseek]
    have hsame := sameDrive_diskUnitSeek g.selectedUnit (decodeDa g.da).1 (decodeDa g.da).2.1
      (decodeDa g.da).2.2
    rw [sharp_performXferLoop read compare g.clp 0 g.xferStarted (hsame.online.trans honline)
      (hbelow hseek)]
    exact setStatusNotActive_xferDone (performXferLoop_frame read compare g.clp 0 _).2.1
  · rw [if_neg hseek, if_neg hseek]

end DiskGlobals

/-- The controller stopped at a populated command word of the unit. -/
def SharpDiskController.StoppedAtCcw (unit : Fin 8) (c : SharpDiskController) : Prop :=
  c.ccwCycle = true ∧ (pageNumber (c.units unit).lastMemoryAddress).toNat < c.mainMemory.npages

/-- Becoming idle does not matter. -/
theorem stoppedAtCcw_setStatusNotActive (unit : Fin 8) (c : SharpDiskController) :
    c.setStatusNotActive.StoppedAtCcw unit ↔ c.StoppedAtCcw unit := by
  unfold SharpDiskController.setStatusNotActive
  dsimp only
  split <;> exact Iff.rfl

namespace DiskGlobals

/-- `submit_xfer`: the port stops at a command word that the C program reads. -/
theorem sharp_submitXfer_ne {g : DiskGlobals} (read compare : Bool)
    (honline : g.selectedUnit.online = true) (hseek : g.seekStarted = true)
    (habove : ¬FetchesBelow g.memory (ccwAddresses read compare g.clp 0 g.xferStarted)) :
    (g.submitXfer true read compare).sharp ≠ g.sharp.submitXfer read compare := by
  have hsame := sameDrive_diskUnitSeek g.selectedUnit (decodeDa g.da).1 (decodeDa g.da).2.1
    (decodeDa g.da).2.2
  have hstopped := sharp_performXferLoop_stopped read compare g.clp 0 g.xferStarted
    (hsame.online.trans honline) habove
  have hnot := performXferLoop_not_stopped read compare g.clp 0 g.xferStarted
  rw [sharp_submitXfer, submitXfer_sharp, if_pos hseek, if_pos hseek]
  generalize performXferLoop read compare g.clp 0 g.xferStarted = r at hnot
  generalize SharpXfer.performXferLoop read compare g.clp 0 g.xferStarted.sharp = r' at hstopped
  have hport : (g.sharpXferDone r'.2).StoppedAtCcw (unitNumber g.da) := by
    unfold SharpDiskController.StoppedAtCcw sharpXferDone SharpDiskController.setUnit
    simp only [Function.update_self]
    exact hstopped
  have hprogram : ¬(g.xferDone r.2).sharp.StoppedAtCcw (unitNumber g.da) := by
    unfold SharpDiskController.StoppedAtCcw xferDone setUnit sharp
    simp only [Function.update_self]
    exact hnot
  intro heq
  have hidle := (stoppedAtCcw_setStatusNotActive _ _).mpr hport
  rw [← heq] at hidle
  exact hprogram ((stoppedAtCcw_setStatusNotActive _ _).mp hidle)

/-- The states after a START of the two programs are alike, under the condition on
the command words. -/
def AgreesBelow (g : DiskGlobals) (x : Except ErrCall DiskGlobals)
    (y : Except Thrown SharpDiskController) : Prop :=
  AgreesUpTo (fun g' c => g'.sharp = c) x y ↔
    ∀ g', x = .ok g' → FetchesBelow g.memory g.ccwsStarted

/-- Both abort. -/
theorem agreesBelow_error (g : DiskGlobals) (e : ErrCall) (d : Thrown) :
    g.AgreesBelow (.error e) (.error d) :=
  ⟨fun _ _ h => (nomatch h), fun _ => trivial⟩

/-- A command without a transfer. -/
theorem agreesBelow_of_none {g g' : DiskGlobals} {c : SharpDiskController}
    (h : g.transferStarted = none) (hsharp : g'.sharp = c) : g.AgreesBelow (.ok g') (.ok c) := by
  refine ⟨fun _ _ _ paddr hpaddr => ?_, fun _ => hsharp⟩
  rw [ccwsStarted, h] at hpaddr
  cases hpaddr

/-- A transfer. -/
theorem agreesBelow_submitXfer {g : DiskGlobals} {read compare : Bool}
    (honline : g.selectedUnit.online = true)
    (h : g.transferStarted = some (read, compare)) :
    g.AgreesBelow (.ok (g.submitXfer true read compare))
      (.ok (g.sharp.submitXfer read compare)) := by
  have hccws : g.ccwsStarted =
      if g.seekStarted then ccwAddresses read compare g.clp 0 g.xferStarted else [] := by
    rw [ccwsStarted, h]
  constructor
  · intro hagree g' hg'
    rw [hccws]
    by_contra habove
    by_cases hseek : g.seekStarted = true
    · rw [if_pos hseek] at habove
      exact sharp_submitXfer_ne read compare honline hseek habove hagree
    · rw [if_neg hseek] at habove
      exact habove fun _ hpaddr => (nomatch hpaddr)
  · intro hbelow
    refine sharp_submitXfer_of_below read compare honline fun hseek => ?_
    have hall := hbelow _ rfl
    rwa [hccws, if_pos hseek] at hall

/-- `start_write`. -/
theorem agreesBelow_startWrite {g : DiskGlobals} (honline : g.selectedUnit.online = true)
    (h : g.transferStarted =
      if ¬g.selectedUnit.readOnly then some (false, false) else none) :
    g.AgreesBelow (.ok (g.startWrite true)) (.ok g.sharp.startWrite) := by
  have hreadOnly : g.sharp.selectedUnit.readOnly = g.selectedUnit.readOnly :=
    congrArg SharpDiskUnit.readOnly g.sharp_selectedUnit
  unfold startWrite SharpDiskController.startWrite
  rw [hreadOnly]
  cases hprotected : g.selectedUnit.readOnly with
  | false =>
    rw [hprotected] at h
    exact agreesBelow_submitXfer honline h
  | true =>
    rw [hprotected] at h
    exact agreesBelow_of_none h (@sharp_onSelectedUnit g ({ · with hasFault := true })
      ({ · with hasFault := true }) rfl)

/-- `start`: the two do the same exactly if no populated command word above 2^22 is
fetched. -/
theorem agreesBelow_start {g : DiskGlobals} (hreset : g.resetCondition = false) :
    g.AgreesBelow (g.start true) g.sharp.start := by
  have hselected := g.sharp_selectedUnit
  unfold start SharpDiskController.start
  dsimp only
  rw [hselected]
  by_cases honline : g.selectedUnit.online = true
  · have honline' : g.selectedUnit.sharp.online = true := honline
    have hcommand : g.sharp.cmd &&& 0xF = g.cmd &&& 0o17 := rfl
    have hstarted : g.transferStarted =
        if g.cmd &&& 0o17 = 0 then some (true, false)
        else if g.cmd &&& 0o17 = 0o10 then some (true, true)
        else if g.cmd &&& 0o17 = 0o11 ∧ ¬g.selectedUnit.readOnly then some (false, false)
        else none := by
      refine if_neg fun h => ?_
      rcases h with h | h
      · exact Bool.false_ne_true (hreset.symm.trans h)
      · exact h honline
    rw [if_neg (not_not_intro honline), if_neg (not_not_intro honline'), hcommand]
    by_cases hread : g.cmd &&& 0o17 = 0
    · rw [if_pos hread, if_pos hread]
      exact agreesBelow_submitXfer honline (hstarted.trans (if_pos hread))
    rw [if_neg hread] at hstarted
    rw [if_neg hread, if_neg hread]
    by_cases hcompare : g.cmd &&& 0o17 = 0o10
    · rw [if_pos hcompare, if_pos hcompare]
      exact agreesBelow_submitXfer honline (hstarted.trans (if_pos hcompare))
    rw [if_neg hcompare] at hstarted
    rw [if_neg hcompare, if_neg hcompare]
    by_cases hwrite : g.cmd &&& 0o17 = 0o11
    · rw [if_pos hwrite, if_pos hwrite]
      exact agreesBelow_startWrite honline (hstarted.trans (by simp only [hwrite, true_and]))
    rw [if_neg fun h => hwrite h.1] at hstarted
    rw [if_neg hwrite, if_neg hwrite]
    by_cases hreadAll : g.cmd &&& 0o17 = 0o2
    · rw [if_pos hreadAll, if_pos hreadAll]
      exact agreesBelow_error _ _ _
    rw [if_neg hreadAll, if_neg hreadAll]
    by_cases hwriteAll : g.cmd &&& 0o17 = 0o13
    · rw [if_pos hwriteAll, if_pos hwriteAll]
      exact agreesBelow_error _ _ _
    rw [if_neg hwriteAll, if_neg hwriteAll]
    by_cases hseek : g.cmd &&& 0o17 = 0o4
    · rw [if_pos hseek, if_pos hseek]
      exact agreesBelow_of_none hstarted g.sharp_startSeek
    rw [if_neg hseek, if_neg hseek]
    by_cases hease : g.cmd &&& 0o17 = 0o5
    · rw [if_pos hease, if_pos hease]
      exact agreesBelow_of_none hstarted g.sharp_startAtEaseCommand
    rw [if_neg hease, if_neg hease]
    by_cases hoffset : g.cmd &&& 0o17 = 0o6
    · rw [if_pos hoffset, if_pos hoffset]
      exact agreesBelow_of_none hstarted g.sharp_startOffsetClear
    rw [if_neg hoffset, if_neg hoffset]
    exact agreesBelow_error _ _ _
  · have honline' : ¬g.selectedUnit.sharp.online = true := honline
    rw [if_pos honline, if_pos honline']
    exact agreesBelow_of_none (if_pos (.inr honline)) rfl

/-- The request withdrawn under a condition. -/
theorem sharp_deassertInterrupt_if (c : Bool) (g : DiskGlobals) :
    (if c then g.deassertInterrupt else g).sharp =
      if c then g.sharp.deassertInterrupt else g.sharp := by
  cases c with
  | false => rfl
  | true => exact g.sharp_deassertInterrupt

/-- A command stored. -/
theorem sharp_storeCmd (v : Word) (g : DiskGlobals) :
    (g.storeCmd v).sharp = g.sharp.storeCmd v := by
  have hdone : decide (v &&& 0x800 ≠ 0) = v.getLsbD 11 :=
    decide_and_eq_getLsbD v 0x800 11 (by decide) rfl
  have hattention : decide (v &&& 0x400 ≠ 0) = v.getLsbD 10 :=
    decide_and_eq_getLsbD v 0x400 10 (by decide) rfl
  unfold storeCmd SharpDiskController.storeCmd
  rw [hdone, hattention]
  exact sharp_deassertInterrupt_if (!v.getLsbD 11 && !v.getLsbD 10) { g with
    cmd := v
    doneInterruptEnable := v.getLsbD 11
    attentionInterruptEnable := v.getLsbD 10 }

/-- `disk_controller_write`, the command register. -/
theorem sharp_writeCmd (v : Word) (g : DiskGlobals) :
    g.sharp.write 0 v = .ok (g.writeCmd v).sharp := by
  unfold SharpDiskController.write writeCmd
  rw [if_pos rfl]
  by_cases hzero : v = 0
  · rw [if_pos hzero, if_pos hzero]
    rfl
  rw [if_neg hzero, if_neg hzero]
  by_cases hreset : v = 0o16
  · have hreset' : v = 0xE := hreset
    rw [if_pos hreset, if_pos hreset', ← sharp_reset]
    rfl
  have hreset' : ¬v = 0xE := hreset
  rw [if_neg hreset, if_neg hreset', ← sharp_storeCmd]
  cases hcondition : g.resetCondition with
  | false =>
    have hcondition' : g.sharp.resetCondition = false := hcondition
    rw [hcondition']
    rfl
  | true =>
    have hcondition' : g.sharp.resetCondition = true := hcondition
    rw [hcondition']
    rfl

/-- `disk_controller_read`. -/
theorem sharp_read (offset : Word) (g : DiskGlobals) :
    AgreesUpTo (· = ·) (g.read offset) (g.sharp.read offset) := by
  have hlast : g.sharp.selectedUnit.lastMemoryAddress = g.selectedUnit.lastMemoryAddress :=
    congrArg SharpDiskUnit.lastMemoryAddress g.sharp_selectedUnit
  have hreset : g.sharp.resetCondition = g.resetCondition := rfl
  unfold read SharpDiskController.read
  rw [sharp_encodeStatus, hlast, hreset]
  split_ifs <;> first | rfl | exact trivial

end DiskGlobals

/-- A register access of the processor. -/
inductive DiskAccess where
  /-- Read a register. -/
  | read (offset : Word)
  /-- Write a register. -/
  | write (offset v : Word)
  deriving DecidableEq, Repr

/-- An access to the blocking controller of the C program: the value read, if any, and
the state afterwards. -/
def DiskGlobals.access : DiskAccess → DiskGlobals → Except ErrCall (Option Word × DiskGlobals)
  | .read offset, g => (g.read offset).map fun v => (some v, g)
  | .write offset v, g => (g.write true offset v).map fun g' => (none, g')

/-- An access to the controller of the port. -/
def SharpDiskController.access :
    DiskAccess → SharpDiskController → Except Thrown (Option Word × SharpDiskController)
  | .read offset, c => (c.read offset).map fun v => (some v, c)
  | .write offset v, c => (c.write offset v).map fun c' => (none, c')

/-- The access is no START of a transfer that fetches a populated command word
above 2^22. -/
def CommandsBelow (e : DiskAccess) (g : DiskGlobals) : Prop :=
  ∀ v, e = .write 3 v → FetchesBelow g.memory g.ccwsStarted

/-- During the reset condition no transfer starts. -/
theorem ccwsStarted_of_reset {g : DiskGlobals} (h : g.resetCondition = true) :
    g.ccwsStarted = [] := by
  have hnone : g.transferStarted = none := if_pos (.inl h)
  rw [DiskGlobals.ccwsStarted, hnone]

/-- A change that the reset condition prevents. -/
theorem DiskGlobals.sharp_unlessReset (g g' : DiskGlobals) :
    (if g.resetCondition then g else g').sharp =
      if g.sharp.resetCondition then g.sharp else g'.sharp :=
  apply_ite DiskGlobals.sharp _ _ _

/-- The first command word is fetched. -/
theorem clp_mem_ccwAddresses (read compare : Bool) (clp : Word) (clpOffset : HalfWord) (x : Xfer) :
    clp + clpOffset.setWidth 32 ∈ ccwAddresses read compare clp clpOffset x := by
  rw [ccwAddresses]
  dsimp only
  split
  · exact List.mem_cons_self
  · split_ifs <;> exact List.mem_cons_self

/-- A write finds the two alike exactly if it starts no transfer that fetches a
populated command word above 2^22. -/
theorem agreesUpTo_write (offset v : Word) (g : DiskGlobals) :
    AgreesUpTo (fun g' c => g'.sharp = c) (g.write true offset v) (g.sharp.write offset v) ↔
      ∀ g', g.write true offset v = .ok g' → CommandsBelow (.write offset v) g := by
  have hother (h : ¬offset = 3) : CommandsBelow (.write offset v) g := by
    intro v' he
    cases he
    exact absurd rfl h
  by_cases hcmd : offset = 0
  · subst hcmd
    refine iff_of_true ?_ fun _ _ => hother (by decide)
    rw [g.sharp_writeCmd v]
    exact rfl
  by_cases hclp : offset = 1
  · subst hclp
    refine iff_of_true ?_ fun _ _ => hother (by decide)
    exact g.sharp_unlessReset { g with clp := v }
  by_cases hda : offset = 2
  · subst hda
    refine iff_of_true ?_ fun _ _ => hother (by decide)
    exact g.sharp_unlessReset { g with da := v }
  by_cases hstart : offset = 3
  · subst hstart
    have hbelow : CommandsBelow (.write 3 v) g ↔ FetchesBelow g.memory g.ccwsStarted :=
      ⟨fun h => h v rfl, fun h _ _ => h⟩
    rw [hbelow]
    cases hreset : g.resetCondition with
    | false =>
      have hwrite : g.write true 3 v = g.start true :=
        if_neg (fun h => Bool.false_ne_true (hreset.symm.trans h))
      have hwrite' : g.sharp.write 3 v = g.sharp.start :=
        if_neg (fun h : g.sharp.resetCondition = true => Bool.false_ne_true (hreset.symm.trans h))
      rw [hwrite, hwrite']
      exact DiskGlobals.agreesBelow_start hreset
    | true =>
      have hwrite : g.write true 3 v = .ok g := if_pos hreset
      have hwrite' : g.sharp.write 3 v = .ok g.sharp :=
        if_pos (show g.sharp.resetCondition = true from hreset)
      rw [hwrite, hwrite', ccwsStarted_of_reset hreset]
      exact iff_of_true rfl fun _ _ _ hpaddr => (nomatch hpaddr)
  · refine iff_of_true ?_ fun _ _ => hother hstart
    unfold DiskGlobals.write SharpDiskController.write
    simp only [if_neg hcmd, if_neg hclp, if_neg hda, if_neg hstart]
    exact trivial

/-- Every access finds two like controllers alike exactly under the condition on the
command words. -/
theorem agreeOn_access (e : DiskAccess) (g : DiskGlobals) (c : SharpDiskController)
    (h : g.sharp = c) :
    AgreeOn DiskGlobals.access SharpDiskController.access (fun g c => g.sharp = c) e g c ↔
      ∀ r, g.access e = .ok r → CommandsBelow e g := by
  subst h
  cases e with
  | read offset =>
    refine iff_of_true ?_ fun _ _ _ he => nomatch he
    exact agreesUpTo_map.mpr ((g.sharp_read offset).mono fun v v' hv => ⟨congrArg some hv, rfl⟩)
  | write offset v =>
    have hagree : AgreeOn DiskGlobals.access SharpDiskController.access (fun g c => g.sharp = c)
        (.write offset v) g g.sharp ↔
        AgreesUpTo (fun g' c => g'.sharp = c) (g.write true offset v) (g.sharp.write offset v) := by
      refine agreesUpTo_map.trans ?_
      simp only [true_and]
    rw [hagree, agreesUpTo_write]
    constructor
    · intro h r hr
      cases hwrite : g.write true offset v with
      | ok g' => exact h g' hwrite
      | error e =>
        rw [DiskGlobals.access, hwrite] at hr
        cases hr
    · intro h g' hwrite
      exact h (none, g') (congrArg (Except.map fun g' => (none, g')) hwrite)

/-- The controllers stay in lockstep exactly on the accesses that start no transfer that
fetches a populated command word above 2^22. -/
theorem lockstep_disk (es : List DiskAccess) (g : DiskGlobals) :
    Lockstep DiskGlobals.access SharpDiskController.access (fun g c => g.sharp = c) es g g.sharp ↔
      EveryStep (fun e g => (g.access e).map Prod.snd) CommandsBelow es g :=
  lockstep_iff_everyStep agreeOn_access rfl

/-- The constructor of `DiskController`. -/
def SharpDiskController.init (units : Fin 8 → SharpDiskUnit) (mainMemory : SharpMemory) :
    SharpDiskController :=
  reset {
    cmd := 0
    clp := 0
    da := 0
    resetCondition := false
    readCompareDifference := false
    ccwCycle := false
    nonexistentMemoryError := false
    interruptRequest := false
    notActive := false
    doneInterruptEnable := false
    attentionInterruptEnable := false
    units := units
    mainMemory := mainMemory
    ucode := ⟨0, false⟩ }

/-- The two controllers start alike. -/
theorem sharp_init (diskUnits : Fin 8 → DiskUnit) (memory : MainMemory) :
    (DiskGlobals.init diskUnits memory).sharp =
      SharpDiskController.init (fun i => (diskUnits i).sharp) memory.flat :=
  DiskGlobals.sharp_reset _

/-- From the start on the two controllers return the same values and leave the same
state for every list of register accesses, with any units and any memory, exactly if
no access starts a transfer that fetches a populated command word above 2^22. -/
theorem disk_port (diskUnits : Fin 8 → DiskUnit) (memory : MainMemory) (es : List DiskAccess) :
    Lockstep DiskGlobals.access SharpDiskController.access (fun g c => g.sharp = c) es
        (DiskGlobals.init diskUnits memory)
        (SharpDiskController.init (fun i => (diskUnits i).sharp) memory.flat) ↔
      EveryStep (fun e g => (g.access e).map Prod.snd) CommandsBelow es
        (DiskGlobals.init diskUnits memory) := by
  rw [← sharp_init]
  exact lockstep_disk es _

/-- With the command list pointer 2^22 a machine with one page of memory reads its
command words at address 0, and the port none. -/
theorem disk_port_above_memory :
    ¬∀ es : List DiskAccess, Lockstep DiskGlobals.access SharpDiskController.access
        (fun g c => g.sharp = c) es
        (DiskGlobals.init (fun unit => if unit = 0 then
            diskUnitInit 0 ⟨"Trident T-80", "T-80", 815, 5, 17⟩ fun _ _ => 0
          else offlineUnit (BitVec.ofNat 32 unit)) ⟨1, fun _ _ => 0⟩)
        (SharpDiskController.init (fun unit => DiskUnit.sharp (if unit = 0 then
            diskUnitInit 0 ⟨"Trident T-80", "T-80", 815, 5, 17⟩ fun _ _ => 0
          else offlineUnit (BitVec.ofNat 32 unit))) (MainMemory.flat ⟨1, fun _ _ => 0⟩)) := by
  intro h
  have hlist := h [.write 1 0x400000, .write 3 0]
  rw [← sharp_init, lockstep_disk] at hlist
  obtain ⟨-, htail⟩ := hlist _ rfl
  obtain ⟨hbelow, -⟩ := htail _ rfl
  have hfetched := hbelow 0 rfl 0x400000 (clp_mem_ccwAddresses true false 0x400000 0 _)
  exact hfetched (by decide)

end Usim
