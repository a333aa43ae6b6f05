import Usim.DiskEffects
import Usim.Lib.Runs
import Usim.Tv

/-!
# The interrupt line of the Xbus

The disk controller and the two TV interfaces request interrupts on one line,
bit 14 of the interrupt status register. The line is meant as a wired OR.
-/

namespace Usim

open Lib

/-- The devices of the Xbus, with a record of the retrace requests of the TVs. -/
structure XbusSystem where
  /-- The disk controller, with the interrupts. -/
  disk : DiskGlobals
  /-- The monochrome TV. -/
  tv : Tv
  /-- The colour TV. -/
  colorTv : ColorTv
  /-- The monochrome TV has raised a request, not cleared since. -/
  tvRequest : Bool
  /-- The colour TV has raised a request, not cleared since. -/
  colorTvRequest : Bool

/-- What happens to the devices. -/
inductive XbusEvent where
  /-- A write of a disk register. -/
  | diskWrite (offset v : Word)
  /-- A turn of the disk thread. -/
  | diskTurn
  /-- A write of a control register of the monochrome TV. -/
  | tvControlWrite (offset v : Word)
  /-- A write of a control register of the colour TV. -/
  | colorTvControlWrite (offset v : Word)
  /-- A tick of the 60 Hz clock. -/
  | clock
  deriving DecidableEq, Repr

namespace XbusSystem

/-- The interrupts. -/
def interrupts (s : XbusSystem) : Interrupts := s.disk.interrupts

/-- Change the interrupts. -/
def setInterrupts (s : XbusSystem) (i : Interrupts) : XbusSystem :=
  { s with disk := { s.disk with interrupts := i } }

/-- A control register of the monochrome TV was written. Storing the mode without
the request bit clears the request. -/
def afterTvControlWrite (s : XbusSystem) (offset v : Word) (t : Tv) : XbusSystem :=
  { s with
    tv := t
    tvRequest := s.tvRequest && (offset ≠ 0 || v.getLsbD 4) }

/-- A control register of the colour TV was written. -/
def afterColorTvControlWrite (s : XbusSystem) (offset v : Word) (t : ColorTv) : XbusSystem :=
  { s with
    colorTv := t
    colorTvRequest := s.colorTvRequest && (offset ≠ 0 || v.getLsbD 4) }

/-- `tv_assert_interrupt`. -/
def tvAssertInterrupt (s : XbusSystem) : XbusSystem :=
  let r := s.tv.assertInterrupt s.interrupts
  { s.setInterrupts r.2 with
    tv := r.1
    tvRequest := s.tvRequest || s.tv.isInterruptEnabled }

/-- `colortv_assert_interrupt`. -/
def colorTvAssertInterrupt (s : XbusSystem) : XbusSystem :=
  let r := s.colorTv.assertInterrupt s.interrupts
  { s.setInterrupts r.2 with
    colorTv := r.1
    colorTvRequest := s.colorTvRequest || s.colorTv.isInterruptEnabled }

/-- `run_at_60hz`, the interrupts. -/
def runAt60hz (colortvEnabled : Bool) (s : XbusSystem) : XbusSystem :=
  let s := s.tvAssertInterrupt
  if colortvEnabled then s.colorTvAssertInterrupt else s

/-- One event. Only the other build has a disk thread, and a write of a register
that the TV does not have is left to the bus interface. -/
def step (blocking colortvEnabled : Bool) : XbusEvent → XbusSystem → Except ErrCall XbusSystem
  | .diskWrite offset v, s => do
    let disk ← s.disk.write blocking offset v
    return { s with disk := disk }
  | .diskTurn, s => .ok (if blocking then s else { s with disk := s.disk.threadTurn })
  | .tvControlWrite offset v, s =>
    match s.tv.controlWrite offset v with
    | some t => .ok (s.afterTvControlWrite offset v t)
    | none => .ok s
  | .colorTvControlWrite offset v, s => do
    match ← s.colorTv.controlWrite offset v with
    | some t => return s.afterColorTvControlWrite offset v t
    | none => return s
  | .clock, s => .ok (s.runAt60hz colortvEnabled)

/-- The devices at the start, for any contents of disks, memory and screens. -/
def init (diskUnits : Fin 8 → DiskUnit) (memory : MainMemory) (tv : Tv) (colorTv : ColorTv) :
    XbusSystem :=
  ⟨.init diskUnits memory, tv, colorTv, false, false⟩

/-- Some device requests an interrupt. -/
def Requests (s : XbusSystem) : Prop :=
  s.disk.status.interruptRequest = true ∨ s.tvRequest = true ∨ s.colorTvRequest = true

/-- The line is the wired OR of the requests, and the pending flag tells whether
the Unibus or the Xbus interrupts. -/
structure WiredOr (s : XbusSystem) : Prop where
  /-- The line. -/
  line : s.interrupts.xbus = true ↔ s.Requests
  /-- The flag. -/
  flag : s.interrupts.Consistent

/-- The event does not lower the line under a request, and clears no request that
is the only one. A command without either enable lowers the line and clears no
request; a reset and a stored TV mode clear a request and leave the line. -/
def KeepsLine (s : XbusSystem) : XbusEvent → Prop
  | .diskWrite offset v => offset = 0 →
    (v = 0o16 → s.disk.status.interruptRequest = true →
      s.tvRequest = true ∨ s.colorTvRequest = true) ∧
    (v ≠ 0 → v ≠ 0o16 → s.disk.resetCondition = false → v.getLsbD 11 = false →
      v.getLsbD 10 = false → ¬s.Requests)
  | .tvControlWrite offset v => offset = 0 → v.getLsbD 4 = false → s.tvRequest = true →
    s.disk.status.interruptRequest = true ∨ s.colorTvRequest = true
  | .colorTvControlWrite offset v => offset = 0 → v.getLsbD 4 = false → s.colorTvRequest = true →
    s.disk.status.interruptRequest = true ∨ s.tvRequest = true
  | .diskTurn => True
  | .clock => True

variable {s : XbusSystem}

/-- A command of the disk raises the request and the line together. -/
theorem WiredOr.of_lineEffect {disk : DiskGlobals} (h : s.WiredOr)
    (heffect : DiskGlobals.LineEffect s.disk disk) : WiredOr { s with disk := disk } := by
  rcases heffect.line with ⟨hrequest, hinterrupts⟩ | ⟨-, hrequest, hinterrupts⟩
  · constructor
    · rw [interrupts, Requests, hrequest, hinterrupts]
      exact h.line
    · rw [interrupts, hinterrupts]
      exact h.flag
  · constructor
    · rw [interrupts, Requests, hrequest, hinterrupts]
      simp
    · rw [interrupts, hinterrupts]
      exact consistent_assertXbusInterrupt _

/-- Requests and a line that are as before. -/
theorem WiredOr.of_eq {s' : XbusSystem} (h : s.WiredOr) (hrequests : s'.Requests ↔ s.Requests)
    (hinterrupts : s'.interrupts = s.interrupts) : s'.WiredOr := by
  constructor
  · rw [hrequests, hinterrupts]
    exact h.line
  · rw [hinterrupts]
    exact h.flag

/-- Where the line stays, the wired OR stays exactly if the requests do. -/
theorem wiredOr_iff_requests (h : s.WiredOr) (s' : XbusSystem)
    (hinterrupts : s'.interrupts = s.interrupts) :
    s'.WiredOr ↔ (s'.Requests ↔ s.Requests) := by
  constructor
  · intro h'
    rw [← h.line, ← h'.line, hinterrupts]
  · intro hrequests
    exact h.of_eq hrequests hinterrupts

/-- Where the line is lowered, nothing may request. -/
theorem wiredOr_iff_not_requests (h : s.WiredOr) (s' : XbusSystem)
    (hinterrupts : s'.interrupts = deassertXbusInterrupt s.interrupts) :
    s'.WiredOr ↔ ¬s'.Requests := by
  constructor
  · intro h'
    rw [← h'.line, hinterrupts]
    simp
  · intro hnone
    constructor
    · rw [hinterrupts]
      simp [hnone]
    · rw [hinterrupts]
      exact h.flag.deassertXbusInterrupt

/-- A write of the command register of the disk. -/
theorem wiredOr_writeCmd (h : s.WiredOr) (v : Word) :
    WiredOr { s with disk := s.disk.writeCmd v } ↔ s.KeepsLine (.diskWrite 0 v) := by
  rcases s.disk.writeCmd_cases v with ⟨rfl, hwrite⟩ | ⟨rfl, hwrite⟩ |
    ⟨h0, hreset, hcondition, hwrite⟩ | ⟨h0, hreset, hcondition, hwrite⟩
  · rw [hwrite]
    refine Iff.trans (wiredOr_iff_requests h _ rfl) ?_
    simp [KeepsLine, Requests]
  · obtain ⟨hrequest, hinterrupts⟩ := s.disk.line_reset
    rw [hwrite]
    refine Iff.trans (wiredOr_iff_requests h _ hinterrupts) ?_
    -- the reset takes back the request of the disk and no other
    simp only [Requests, hrequest, Bool.false_eq_true, false_or]
    constructor
    · intro hsame _
      exact ⟨fun _ hdisk => hsame.mpr (.inl hdisk), fun _ hne => absurd rfl hne⟩
    · intro hkeeps
      exact ⟨.inr, fun hrequests => hrequests.elim ((hkeeps rfl).1 rfl) id⟩
  · rw [hwrite]
    refine iff_of_true h fun _ => ⟨fun hv => absurd hv hreset, fun _ _ hfree => ?_⟩
    rw [hcondition] at hfree
    cases hfree
  · have hrequest := congrArg DiskStatus.interruptRequest (s.disk.status_storeCmd v).1
    have hinterrupts := s.disk.interrupts_storeCmd v
    have hsame : Requests { s with disk := s.disk.storeCmd v } ↔ s.Requests := by
      unfold Requests
      rw [hrequest]
    rw [hwrite]
    split_ifs at hinterrupts with henables
    · refine Iff.trans (wiredOr_iff_not_requests h _ hinterrupts) ((not_congr hsame).trans ?_)
      constructor
      · intro hnone _
        exact ⟨fun hv => absurd hv hreset, fun _ _ _ _ _ => hnone⟩
      · intro hkeeps
        exact (hkeeps rfl).2 h0 hreset hcondition henables.1 henables.2
    · refine Iff.trans (wiredOr_iff_requests h _ hinterrupts) (iff_of_true hsame fun _ => ?_)
      exact ⟨fun hv => absurd hv hreset, fun _ _ _ hdone hattention =>
        absurd ⟨hdone, hattention⟩ henables⟩

/-- A write of a control register of the monochrome TV. -/
theorem wiredOr_afterTvControlWrite (h : s.WiredOr) (offset v : Word) (t : Tv) :
    (s.afterTvControlWrite offset v t).WiredOr ↔ s.KeepsLine (.tvControlWrite offset v) := by
  refine Iff.trans (wiredOr_iff_requests h _ rfl) ?_
  simp only [KeepsLine, Requests, afterTvControlWrite]
  by_cases hoffset : offset = 0#32 <;> generalize v.getLsbD 4 = bit <;> cases bit <;>
    cases s.tvRequest <;> simp [hoffset]

/-- A write of a control register of the colour TV. -/
theorem wiredOr_afterColorTvControlWrite (h : s.WiredOr) (offset v : Word) (t : ColorTv) :
    (s.afterColorTvControlWrite offset v t).WiredOr ↔
      s.KeepsLine (.colorTvControlWrite offset v) := by
  refine Iff.trans (wiredOr_iff_requests h _ rfl) ?_
  simp only [KeepsLine, Requests, afterColorTvControlWrite]
  by_cases hoffset : offset = 0#32 <;> generalize v.getLsbD 4 = bit <;> cases bit <;>
    cases s.colorTvRequest <;> simp [hoffset]

/-- The retrace of the monochrome TV raises its request and the line together. -/
theorem WiredOr.tvAssertInterrupt (h : s.WiredOr) : s.tvAssertInterrupt.WiredOr := by
  unfold XbusSystem.tvAssertInterrupt Tv.assertInterrupt
  dsimp only
  split
  · rename_i henabled
    constructor
    · simp [interrupts, setInterrupts, Requests, henabled]
    · exact consistent_assertXbusInterrupt _
  · rename_i henabled
    refine h.of_eq ?_ rfl
    simp [Requests, setInterrupts, henabled]

/-- The retrace of the colour TV raises its request and the line together. -/
theorem WiredOr.colorTvAssertInterrupt (h : s.WiredOr) : s.colorTvAssertInterrupt.WiredOr := by
  unfold XbusSystem.colorTvAssertInterrupt ColorTv.assertInterrupt
  dsimp only
  split
  · rename_i henabled
    constructor
    · simp [interrupts, setInterrupts, Requests, henabled]
    · exact consistent_assertXbusInterrupt _
  · rename_i henabled
    refine h.of_eq ?_ rfl
    simp [Requests, setInterrupts, henabled]

/-- A tick of the clock keeps the wired OR. -/
theorem WiredOr.runAt60hz (h : s.WiredOr) (colortvEnabled : Bool) :
    (s.runAt60hz colortvEnabled).WiredOr := by
  unfold XbusSystem.runAt60hz
  dsimp only
  split
  · exact h.tvAssertInterrupt.colorTvAssertInterrupt
  · exact h.tvAssertInterrupt

/-- A turn of the disk thread raises the request of the disk with the line. -/
theorem wiredOr_threadTurn (h : s.WiredOr) : WiredOr { s with disk := s.disk.threadTurn } := by
  have heffect := s.disk.lineEffect_doXfer
  exact h.of_lineEffect ⟨heffect.done, heffect.attentionEnable, heffect.reset, heffect.line⟩

/-- An event keeps the wired OR exactly if it keeps the line with the requests. -/
theorem wiredOr_step {blocking colortvEnabled : Bool} {e : XbusEvent} {s s' : XbusSystem}
    (h : s.WiredOr) (he : step blocking colortvEnabled e s = .ok s') :
    s'.WiredOr ↔ s.KeepsLine e := by
  cases e with
  | diskWrite offset v =>
    simp only [step, bind, Except.bind] at he
    cases hwrite : s.disk.write blocking offset v with
    | error err =>
      rw [hwrite] at he
      cases he
    | ok disk =>
      rw [hwrite] at he
      cases he
      by_cases hoffset : offset = 0
      · subst offset
        cases hwrite
        exact wiredOr_writeCmd h v
      · have heffect := DiskGlobals.lineEffect_write hoffset hwrite
        exact ⟨fun _ hzero => absurd hzero hoffset, fun _ => h.of_lineEffect heffect⟩
  | diskTurn =>
    cases he
    refine ⟨fun _ => trivial, fun _ => ?_⟩
    split
    · exact h
    · exact wiredOr_threadTurn h
  | tvControlWrite offset v =>
    simp only [step] at he
    cases hwrite : s.tv.controlWrite offset v with
    | some t =>
      rw [hwrite] at he
      cases he
      exact wiredOr_afterTvControlWrite h offset v t
    | none =>
      rw [hwrite] at he
      cases he
      exact ⟨fun _ hzero => absurd hzero (Tv.ne_zero_of_controlWrite hwrite), fun _ => h⟩
  | colorTvControlWrite offset v =>
    simp only [step, bind, Except.bind] at he
    rcases hwrite : s.colorTv.controlWrite offset v with err | _ | t
    · rw [hwrite] at he
      cases he
    · rw [hwrite] at he
      cases he
      exact ⟨fun _ hzero => absurd hzero (ColorTv.ne_zero_of_controlWrite hwrite), fun _ => h⟩
    · rw [hwrite] at he
      cases he
      exact wiredOr_afterColorTvControlWrite h offset v t
  | clock =>
    cases he
    exact ⟨fun _ => trivial, fun _ => h.runAt60hz colortvEnabled⟩

/-- The line is low at the start and nothing requests. -/
theorem wiredOr_init (diskUnits : Fin 8 → DiskUnit) (memory : MainMemory) (tv : Tv)
    (colorTv : ColorTv) : (init diskUnits memory tv colorTv).WiredOr := by
  have hinterrupts : (init diskUnits memory tv colorTv).interrupts = ⟨0, false⟩ := rfl
  constructor
  · rw [hinterrupts]
    simp [Requests, init, DiskGlobals.init, Interrupts.xbus]
    rfl
  · rw [hinterrupts]
    rfl

end XbusSystem

open XbusSystem in
/-- The line of the Xbus is the wired OR of the requests in every state of a run
exactly if no step lowers it under a request, or clears the only request without
lowering it. -/
theorem xbus_interrupt_wired_or (blocking colortvEnabled : Bool) (diskUnits : Fin 8 → DiskUnit)
    (memory : MainMemory) (tv : Tv) (colorTv : ColorTv) (events : List XbusEvent) :
    Always (step blocking colortvEnabled) WiredOr events (init diskUnits memory tv colorTv) ↔
      EveryStep (step blocking colortvEnabled) (fun e s => s.KeepsLine e) events
        (init diskUnits memory tv colorTv) :=
  always_iff_everyStep (fun _ h => h) (fun _ _ _ h he => (wiredOr_step h he).mpr)
    (fun _ _ _ h he => (wiredOr_step h he).mp) (wiredOr_init diskUnits memory tv colorTv)

open XbusSystem in
/-- A seek command of the disk, stored with both enables off, takes the retrace
request of the TV off the line. -/
theorem disk_command_removes_tv_request :
    ¬∀ events : List XbusEvent, Always (step true true) WiredOr events
      (init (fun i => offlineUnit i.val) ⟨0, fun _ _ => 0⟩ .init .init) := by
  intro h
  have hrun := h [.tvControlWrite 0 0o10, .clock, .diskWrite 0 0o4]
  have hfinal := ((hrun.2 _ rfl).2 _ rfl).2 _ rfl
  exact absurd (hfinal.line.mpr (.inr (.inl rfl))) (by decide)

end Usim
