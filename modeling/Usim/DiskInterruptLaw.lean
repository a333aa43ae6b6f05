import Usim.DiskEffects
import Usim.Lib.Runs

/-!
# When the disk controller requests an interrupt

The documentation of the controller has a level: an interrupt is requested while the
controller is idle and enabled to interrupt for that, or for attention. The code
raises the request at some edges. A run follows both.
-/

namespace Usim

open Lib

/-- The disk controller, with the interrupt enables of the last command stored. -/
structure CommandedDisk where
  /-- The controller. -/
  disk : DiskGlobals
  /-- Bit 11 of the last command word stored. -/
  doneEnable : Bool
  /-- Bit 10 of the last command word stored. -/
  attentionEnable : Bool

/-- What happens to the controller. -/
inductive DiskEvent where
  /-- A write of a register. -/
  | write (offset v : Word)
  /-- A turn of the thread. -/
  | turn
  deriving DecidableEq, Repr

namespace CommandedDisk

/-- The enables after a command was stored. In the reset condition only zero is. -/
def enablesAfter (s : CommandedDisk) (v : Word) : Bool × Bool :=
  if s.disk.resetCondition = true ∧ v ≠ 0 then (s.doneEnable, s.attentionEnable)
  else (v.getLsbD 11, v.getLsbD 10)

/-- A register was written. -/
def afterWrite (s : CommandedDisk) (offset v : Word) (disk : DiskGlobals) : CommandedDisk :=
  let enables := if offset = 0 then s.enablesAfter v else (s.doneEnable, s.attentionEnable)
  ⟨disk, enables.1, enables.2⟩

/-- One event. Only the other build has a thread. -/
def step (blocking : Bool) : DiskEvent → CommandedDisk → Except ErrCall CommandedDisk
  | .write offset v, s => do
    let disk ← s.disk.write blocking offset v
    return s.afterWrite offset v disk
  | .turn, s => .ok (if blocking then s else { s with disk := s.disk.threadTurn })

/-- The controller at the start. -/
def init (diskUnits : Fin 8 → DiskUnit) (memory : MainMemory) : CommandedDisk :=
  ⟨.init diskUnits memory, false, false⟩

/-- An interrupt is due: the controller is idle and may interrupt for that, or some
unit has attention and the controller may interrupt for that. -/
def interruptDue (s : CommandedDisk) : Bool :=
  s.disk.status.notActive && (s.doneEnable || s.attentionEnable && s.disk.anyAttention)

/-- The request line, and the request in the status word, are high while an interrupt
is due. -/
structure InterruptLaw (s : CommandedDisk) : Prop where
  /-- The line. -/
  line : s.disk.interrupts.xbus = s.interruptDue
  /-- The status word. -/
  status : s.disk.encodeStatus.getLsbD 3 = s.interruptDue

/-- The controller becomes idle with such an attention: the done interrupt enable of
the code, or a request that is already high, is what an interrupt is due for. -/
def IdlesRightly (s : CommandedDisk) (attention : Bool) : Prop :=
  (s.disk.doneInterruptEnable || s.interruptDue) =
    (s.doneEnable || s.attentionEnable && attention)

/-- START keeps the law. A transfer of the other build leaves the request of an idle
controller high. -/
def KeepsLawAtStart (blocking : Bool) (s : CommandedDisk) : Prop :=
  match s.disk.startKind with
  | .ignored => True
  | .transfer => if blocking then s.IdlesRightly s.disk.anyAttention else s.interruptDue = false
  | .command => s.IdlesRightly s.disk.attentionAfterStart

/-- A stored command keeps the law: one without enables is stored while no interrupt
is due, and one with enables while its own say the same as those before. -/
def KeepsLawAtCommand (s : CommandedDisk) (v : Word) : Prop :=
  if v = 0 ∨ v = 0o16 then s.interruptDue = false
  else s.disk.resetCondition = false →
    if v.getLsbD 11 = false ∧ v.getLsbD 10 = false then s.interruptDue = false
    else (s.disk.status.notActive &&
      (v.getLsbD 11 || v.getLsbD 10 && s.disk.anyAttention)) = s.interruptDue

/-- The event keeps the law. -/
def KeepsLaw (blocking : Bool) (s : CommandedDisk) : DiskEvent → Prop
  | .write offset v =>
    (offset = 0 → s.KeepsLawAtCommand v) ∧
      (offset = 3 → s.disk.resetCondition = false → s.KeepsLawAtStart blocking)
  | .turn => blocking = false → s.disk.xferReq.ready = true → s.IdlesRightly s.disk.anyAttention

/-- The law, and no enables while the controller is in the reset condition. -/
structure Lawful (s : CommandedDisk) : Prop extends InterruptLaw s where
  /-- A reset clears the enables. -/
  reset : s.disk.resetCondition = true → s.doneEnable = false ∧ s.attentionEnable = false

end CommandedDisk

namespace CommandedDisk

variable {s s' : CommandedDisk}

/-- The law is about the line and the request. -/
theorem interruptLaw_iff : s.InterruptLaw ↔
    s.disk.interrupts.xbus = s.interruptDue ∧ s.disk.status.interruptRequest = s.interruptDue := by
  constructor
  · intro h
    rw [← DiskGlobals.encodeStatus_interruptRequest]
    exact ⟨h.line, h.status⟩
  · rintro ⟨hline, hstatus⟩
    rw [← DiskGlobals.encodeStatus_interruptRequest] at hstatus
    exact ⟨hline, hstatus⟩

/-- Where the line and the request stay, the law stays exactly if the same is due. -/
theorem interruptLaw_of_same (h : s.InterruptLaw)
    (hrequest : s'.disk.status.interruptRequest = s.disk.status.interruptRequest)
    (hline : s'.disk.interrupts.xbus = s.disk.interrupts.xbus) :
    s'.InterruptLaw ↔ s'.interruptDue = s.interruptDue := by
  obtain ⟨hline', hrequest'⟩ := interruptLaw_iff.mp h
  rw [interruptLaw_iff, hrequest, hline, hrequest', hline', and_self, eq_comm]

/-- Where the controller becomes idle. -/
theorem interruptLaw_of_idled (h : s.InterruptLaw) (hidle : DiskGlobals.Idled s.disk s'.disk)
    (hdone : s'.doneEnable = s.doneEnable) (hattention : s'.attentionEnable = s.attentionEnable) :
    s'.InterruptLaw ↔ s.IdlesRightly s'.disk.anyAttention := by
  obtain ⟨hline, hrequest⟩ := interruptLaw_iff.mp h
  have hxbus : s'.disk.interrupts.xbus =
      (s.disk.doneInterruptEnable || s.disk.interrupts.xbus) := by
    rw [hidle.interrupts]
    cases s.disk.doneInterruptEnable with
    | false => rfl
    | true => exact xbus_assertXbusInterrupt _
  have hdue : s'.interruptDue =
      (s.doneEnable || s.attentionEnable && s'.disk.anyAttention) := by
    rw [interruptDue, hidle.notActive, hdone, hattention, Bool.true_and]
  rw [interruptLaw_iff, hxbus, hidle.request, hline, hrequest, hdue, and_self]
  exact Iff.rfl

/-- A reset stores no enables. -/
theorem enablesAfter_reset (h : s.Lawful) : s.enablesAfter 0o16 = (false, false) := by
  unfold enablesAfter
  split
  · rename_i hcondition
    obtain ⟨hdone, hattention⟩ := h.reset hcondition.1
    rw [hdone, hattention]
  · rfl

/-- A write of the command register. -/
theorem interruptLaw_writeCmd (h : s.Lawful) (v : Word) :
    (s.afterWrite 0 v (s.disk.writeCmd v)).InterruptLaw ↔ s.KeepsLawAtCommand v := by
  obtain ⟨hline, hrequest⟩ := interruptLaw_iff.mp h.toInterruptLaw
  rcases s.disk.writeCmd_cases v with ⟨rfl, hwrite⟩ | ⟨rfl, hwrite⟩ |
    ⟨h0, hreset, hcondition, hwrite⟩ | ⟨h0, hreset, hcondition, hwrite⟩
  · have hdue : (s.afterWrite 0 0 (s.disk.writeCmd 0)).interruptDue = false := by
      simp [interruptDue, afterWrite, enablesAfter]
    rw [KeepsLawAtCommand, if_pos (.inl rfl), interruptLaw_iff, hdue, hwrite]
    simp [afterWrite, hline, hrequest]
  · have henables := enablesAfter_reset h
    have hdue : (s.afterWrite 0 0o16 (s.disk.writeCmd 0o16)).interruptDue = false := by
      simp only [interruptDue, afterWrite, if_true, henables, Bool.false_and, Bool.or_false,
        Bool.and_false]
    obtain ⟨hrequest', hinterrupts⟩ := s.disk.line_reset
    rw [KeepsLawAtCommand, if_pos (.inr rfl), interruptLaw_iff, hdue, hwrite]
    simp [afterWrite, hrequest', hinterrupts, hline]
  · have henables : s.enablesAfter v = (s.doneEnable, s.attentionEnable) :=
      if_pos ⟨hcondition, h0⟩
    have hsame : s.afterWrite 0 v (s.disk.writeCmd v) = s := by
      simp [afterWrite, henables, hwrite]
    rw [hsame, KeepsLawAtCommand, if_neg (not_or.mpr ⟨h0, hreset⟩), hcondition]
    exact ⟨fun _ hfalse => absurd hfalse (by decide), fun _ => h.toInterruptLaw⟩
  · have henables : s.enablesAfter v = (v.getLsbD 11, v.getLsbD 10) :=
      if_neg fun hreset => absurd hcondition (by rw [hreset.1]; decide)
    obtain ⟨hstatus, hunits, -⟩ := s.disk.status_storeCmd v
    have hinterrupts := s.disk.interrupts_storeCmd v
    have hdue : (s.afterWrite 0 v (s.disk.writeCmd v)).interruptDue =
        (s.disk.status.notActive && (v.getLsbD 11 || v.getLsbD 10 && s.disk.anyAttention)) := by
      simp only [interruptDue, afterWrite, if_pos, henables, hwrite, hstatus,
        DiskGlobals.anyAttention, hunits]
    rw [KeepsLawAtCommand, if_neg (not_or.mpr ⟨h0, hreset⟩), interruptLaw_iff, hdue]
    simp only [afterWrite, hwrite, hstatus, hrequest, hcondition, forall_const]
    split_ifs at hinterrupts ⊢ with hnone
    · rw [hinterrupts, xbus_deassertXbusInterrupt, hnone.1, hnone.2]
      simp
    · rw [hinterrupts, hline, and_self, eq_comm]

/-- The turn of the thread that completes a transfer. -/
theorem idled_threadTurn {g : DiskGlobals} (hready : g.xferReq.ready = true) :
    g.Idled g.threadTurn := by
  have h := DiskGlobals.idled_doXfer hready
  exact ⟨h.notActive, h.request, h.interrupts, h.done, h.attentionEnable, h.reset⟩

/-- A turn of the thread leaves the attention. -/
theorem anyAttention_threadTurn (g : DiskGlobals) :
    g.threadTurn.anyAttention = g.anyAttention := by
  refine Eq.trans ?_ (DiskGlobals.anyAttention_doXfer g)
  rw [DiskGlobals.anyAttention, DiskGlobals.anyAttention, decide_eq_decide]
  refine exists_congr fun i => ?_
  unfold DiskGlobals.threadTurn
  dsimp only
  split <;> rfl

/-- A turn of the thread. -/
theorem interruptLaw_threadTurn (h : s.InterruptLaw) :
    CommandedDisk.InterruptLaw { s with disk := s.disk.threadTurn } ↔
      (s.disk.xferReq.ready = true → s.IdlesRightly s.disk.anyAttention) := by
  cases hready : s.disk.xferReq.ready with
  | true =>
    refine Iff.trans (interruptLaw_of_idled h (idled_threadTurn hready) rfl rfl) ?_
    rw [anyAttention_threadTurn]
    exact ⟨fun hidle _ => hidle, fun hidle => hidle rfl⟩
  | false =>
    have hdisk : s.disk.doXfer = s.disk := by
      unfold DiskGlobals.doXfer
      dsimp only
      rw [hready]
      rfl
    refine Iff.trans (interruptLaw_of_same h ?_ ?_) ?_
    · show s.disk.doXfer.status.interruptRequest = _
      rw [hdisk]
    · show s.disk.doXfer.interrupts.xbus = _
      rw [hdisk]
    · rw [interruptDue, interruptDue, anyAttention_threadTurn]
      show (s.disk.doXfer.status.notActive && _) = _ ↔ _
      rw [hdisk]
      simp

/-- A transfer that START completes. -/
theorem idled_submitXfer (g : DiskGlobals) (read compare : Bool) :
    g.Idled (g.submitXfer true read compare) := by
  have h : (g.requestXfer read compare).Idled (g.requestXfer read compare).doXfer :=
    DiskGlobals.idled_doXfer rfl
  exact ⟨h.notActive, h.request, h.interrupts, h.done, h.attentionEnable, h.reset⟩

/-- START. -/
theorem interruptLaw_start {blocking : Bool} (h : s.InterruptLaw) {v : Word} {disk : DiskGlobals}
    (hstart : s.disk.start blocking = .ok disk) :
    (s.afterWrite 3 v disk).InterruptLaw ↔ s.KeepsLawAtStart blocking := by
  rcases DiskGlobals.start_cases hstart with ⟨hkind, hignored⟩ | ⟨hkind, read, compare, rfl⟩ |
    ⟨hkind, hidle, hattention⟩
  · rw [KeepsLawAtStart, hkind]
    refine Iff.trans (interruptLaw_of_same h ?_ ?_) ?_
    · exact congrArg DiskStatus.interruptRequest hignored.status
    · exact congrArg Interrupts.xbus hignored.interrupts
    · refine iff_of_true ?_ trivial
      simp [interruptDue, afterWrite, hignored.status, hignored.attention]
  · rw [KeepsLawAtStart, hkind]
    cases blocking with
    | true =>
      refine Iff.trans (interruptLaw_of_idled h (idled_submitXfer _ _ _) rfl rfl) ?_
      have hattention : (s.disk.submitXfer true read compare).anyAttention =
          s.disk.anyAttention :=
        DiskGlobals.anyAttention_doXfer (s.disk.requestXfer read compare)
      show s.IdlesRightly (s.disk.submitXfer true read compare).anyAttention ↔ _
      rw [hattention]
      exact Iff.rfl
    | false =>
      refine Iff.trans (interruptLaw_of_same h rfl rfl) ?_
      have hdue : (s.afterWrite 3 v (s.disk.submitXfer false read compare)).interruptDue =
          false := rfl
      rw [hdue, eq_comm]
      exact Iff.rfl
  · rw [KeepsLawAtStart, hkind]
    refine Iff.trans (interruptLaw_of_idled h hidle rfl rfl) ?_
    show s.IdlesRightly disk.anyAttention ↔ _
    rw [hattention]

/-- A register written is the command register, START, or one that leaves what the
law is about. -/
theorem write_other {blocking : Bool} {offset v : Word} {g g' : DiskGlobals}
    (hcmd : offset ≠ 0) (hstart : offset = 3 → g.resetCondition = true)
    (h : g.write blocking offset v = .ok g') :
    g'.status = g.status ∧ g'.interrupts = g.interrupts ∧ g'.diskUnits = g.diskUnits ∧
      g'.resetCondition = g.resetCondition := by
  unfold DiskGlobals.write at h
  rw [if_neg hcmd] at h
  split_ifs at h with hclp hreset hda hreset hstart' hreset
  · cases h
    exact ⟨rfl, rfl, rfl, rfl⟩
  · cases h
    exact ⟨rfl, rfl, rfl, rfl⟩
  · cases h
    exact ⟨rfl, rfl, rfl, rfl⟩
  · cases h
    exact ⟨rfl, rfl, rfl, rfl⟩
  · cases h
    exact ⟨rfl, rfl, rfl, rfl⟩
  · exact absurd (hstart hstart') hreset

/-- A write keeps the law exactly if it meets the condition. -/
theorem interruptLaw_write {blocking : Bool} {offset v : Word} (h : s.Lawful)
    {disk : DiskGlobals} (hwrite : s.disk.write blocking offset v = .ok disk) :
    (s.afterWrite offset v disk).InterruptLaw ↔ s.KeepsLaw blocking (.write offset v) := by
  by_cases hcmd : offset = 0
  · subst offset
    cases hwrite
    refine (interruptLaw_writeCmd h v).trans ?_
    exact ⟨fun hkeep => ⟨fun _ => hkeep, fun hfalse => absurd hfalse (by decide)⟩,
      fun hkeep => hkeep.1 rfl⟩
  · by_cases hstart : offset = 3 ∧ s.disk.resetCondition = false
    · obtain ⟨rfl, hreset⟩ := hstart
      have hstart' : s.disk.start blocking = .ok disk := by
        unfold DiskGlobals.write at hwrite
        simpa [hreset] using hwrite
      refine (interruptLaw_start h.toInterruptLaw hstart').trans ?_
      exact ⟨fun hkeep => ⟨fun hfalse => absurd hfalse hcmd, fun _ _ => hkeep⟩,
        fun hkeep => hkeep.2 rfl hreset⟩
    · have hother : offset = 3 → s.disk.resetCondition = true := fun hoffset => by
        simpa [hoffset] using hstart
      obtain ⟨hstatus, hinterrupts, hunits, -⟩ := write_other hcmd hother hwrite
      refine iff_of_true ?_ ⟨fun hfalse => absurd hfalse hcmd, fun hoffset hreset => ?_⟩
      · refine (interruptLaw_of_same h.toInterruptLaw ?_ ?_).mpr ?_
        · exact congrArg DiskStatus.interruptRequest hstatus
        · exact congrArg Interrupts.xbus hinterrupts
        · simp only [interruptDue, afterWrite, if_neg hcmd, hstatus, DiskGlobals.anyAttention,
            hunits]
      · exact absurd ⟨hoffset, hreset⟩ hstart

/-- A controller in the reset condition has no enables. -/
theorem reset_write {blocking : Bool} {offset v : Word} (h : s.Lawful)
    {disk : DiskGlobals} (hwrite : s.disk.write blocking offset v = .ok disk)
    (hreset : disk.resetCondition = true) :
    (s.afterWrite offset v disk).doneEnable = false ∧
      (s.afterWrite offset v disk).attentionEnable = false := by
  by_cases hcmd : offset = 0
  · subst offset
    cases hwrite
    have henables : s.enablesAfter v = (false, false) := by
      rcases s.disk.writeCmd_cases v with ⟨rfl, hwrite⟩ | ⟨rfl, hwrite⟩ |
        ⟨h0, -, hcondition, -⟩ | ⟨-, -, hcondition, hwrite⟩
      · rw [hwrite] at hreset
        cases hreset
      · exact enablesAfter_reset h
      · rw [enablesAfter, if_pos ⟨hcondition, h0⟩, (h.reset hcondition).1, (h.reset hcondition).2]
      · rw [hwrite, (s.disk.status_storeCmd v).2.2, hcondition] at hreset
        cases hreset
    simp only [afterWrite, if_true, henables, and_self]
  · have hbefore := (DiskGlobals.lineEffect_write hcmd hwrite).reset
    simp only [afterWrite, if_neg hcmd]
    exact h.reset (hbefore ▸ hreset)

/-- An event keeps the law exactly if it meets the condition. -/
theorem lawful_step {blocking : Bool} {e : DiskEvent} (h : s.Lawful)
    (he : step blocking e s = .ok s') :
    (s'.InterruptLaw ↔ s.KeepsLaw blocking e) ∧
      (s'.disk.resetCondition = true → s'.doneEnable = false ∧ s'.attentionEnable = false) := by
  cases e with
  | write offset v =>
    simp only [step, bind, Except.bind] at he
    cases hwrite : s.disk.write blocking offset v with
    | error err =>
      rw [hwrite] at he
      cases he
    | ok disk =>
      rw [hwrite] at he
      cases he
      exact ⟨interruptLaw_write h hwrite, reset_write h hwrite⟩
  | turn =>
    cases he
    cases blocking with
    | true => exact ⟨iff_of_true h.toInterruptLaw fun hfalse => absurd hfalse (by decide), h.reset⟩
    | false =>
      refine ⟨(interruptLaw_threadTurn h.toInterruptLaw).trans ?_, ?_⟩
      · exact ⟨fun hkeep _ => hkeep, fun hkeep => hkeep rfl⟩
      · intro hreset
        exact h.reset (s.disk.lineEffect_doXfer.reset ▸ hreset)

/-- Nothing is due at the start. -/
theorem lawful_init (diskUnits : Fin 8 → DiskUnit) (memory : MainMemory) :
    (init diskUnits memory).Lawful := by
  have hdue : (init diskUnits memory).interruptDue = false := by
    simp [interruptDue, init]
  have hinterrupts : (init diskUnits memory).disk.interrupts = ⟨0, false⟩ := rfl
  have hline : (init diskUnits memory).disk.interrupts.xbus = false := by
    rw [hinterrupts]
    rfl
  exact ⟨interruptLaw_iff.mpr ⟨hline.trans hdue.symm, hdue.symm⟩, fun _ => ⟨rfl, rfl⟩⟩

end CommandedDisk

open CommandedDisk in
/-- The controller requests an interrupt exactly while one is due, in every state of a
run, exactly if every step of the run keeps the law. -/
theorem disk_interrupt_law (blocking : Bool) (diskUnits : Fin 8 → DiskUnit) (memory : MainMemory)
    (events : List DiskEvent) :
    Always (step blocking) InterruptLaw events (init diskUnits memory) ↔
      EveryStep (step blocking) (fun e s => s.KeepsLaw blocking e) events
        (init diskUnits memory) :=
  always_iff_everyStep (fun _ h => h.toInterruptLaw)
    (fun _ _ _ h he hkeep => ⟨(lawful_step h he).1.mpr hkeep, (lawful_step h he).2⟩)
    (fun _ _ _ h he => (lawful_step h he).1.mp) (lawful_init diskUnits memory)

open CommandedDisk in
/-- Storing a command with the done interrupt enabled requests no interrupt, although
the controller is idle. -/
theorem disk_idle_without_interrupt :
    ¬∀ events : List DiskEvent, Always (step true) InterruptLaw events
      (init (fun i => offlineUnit i.val) ⟨0, fun _ _ => 0⟩) := by
  intro h
  have hrun := h [.write 0 0o4000]
  have hfinal := hrun.2 _ rfl
  exact absurd hfinal.line (by decide)

end Usim
