import Usim.Lib.Runs
import Usim.TapeController
import Usim.UnibusMap

/-!
# The GO handshake of the tape controller

The processor, which writes the registers of the controller, and the thread of
`tape_controller_run` take turns in any order. A broadcast wakes the thread only
while it waits on the condition variable. The state records which commands were
asked for and which were executed.
-/

namespace Usim

/-- Where the thread of `tape_controller_run` is. -/
inductive TapePhase
  /-- Before `pthread_cond_wait`. -/
  | starting
  /-- In `pthread_cond_wait`. -/
  | waiting
  /-- Before the test of `mtc.cur`. -/
  | woken
  /-- Before `tape_controller_go`. -/
  | executing
  /-- Before `mtc.cur` is set again. -/
  | executed
  /-- Before the interrupt. -/
  | finished
  deriving DecidableEq, Repr

/-- A command, and whether its drive is online. -/
structure TapeRequest where
  function : Fin 8
  drive : Fin 8
  online : Bool
  deriving DecidableEq, Repr

/-- What happens to the controller. -/
inductive TapeEvent (δ : Type)
  /-- The next step of the thread. -/
  | thread
  /-- `pthread_cond_wait` returns without a broadcast. -/
  | spuriousWakeup
  /-- The processor reads MTC. -/
  | readMtc
  /-- The processor writes a register. -/
  | write (uaddr : Word) (v : HalfWord)
  | busReset
  /-- Any other access of the processor, which leaves the busses as given. -/
  | access (bus : BusGlobals δ)

/-- The controller, the place of its thread, and a record of the commands. -/
structure TapeHandshake (δ : Type) where
  system : TapeSystem δ
  phase : TapePhase
  /-- The last read of MTC, since the last GO, found the controller ready. -/
  sawReady : Bool
  /-- The commands written with GO by a processor that found the controller ready. -/
  requests : List TapeRequest
  /-- The commands executed. -/
  executed : List TapeRequest
  /-- How many GO were written while the controller was not ready. -/
  busyGos : ℕ
  /-- How often the thread set ILC instead of executing a command. -/
  refused : ℕ

namespace TapeHandshake

variable {δ : Type} (dev : BusDevices δ)

/-- The thread has not reached `pthread_cond_wait` yet. -/
def start (system : TapeSystem δ) : TapeHandshake δ :=
  { system := system, phase := .starting, sawReady := false, requests := [], executed := []
    busyGos := 0, refused := 0 }

/-- `mtc.cur`. -/
def cur (s : TapeHandshake δ) : Bool := s.system.controller.mtc.cur

/-- The command in the registers. -/
def current (s : TapeHandshake δ) : TapeRequest :=
  ⟨s.system.controller.mtc.function, s.system.controller.mtc.slt, s.system.controller.mts.selr⟩

/-- The function field of a word for MTC. -/
def functionOf (v : HalfWord) : Fin 8 := Fin.ofNat 8 (v >>> 1).toNat

/-- The drive select field. -/
def driveOf (v : HalfWord) : Fin 8 := Fin.ofNat 8 (v >>> 8).toNat

/-- The command that a word for MTC asks for. -/
def requestOf (v : HalfWord) (s : TapeHandshake δ) : TapeRequest :=
  ⟨functionOf v, driveOf v, (s.system.controller.drives (driveOf v)).online⟩

/-- GO is written, and power clear is not. -/
def IsGo (uaddr : Word) (v : HalfWord) : Prop :=
  uaddr = 0o772522 ∧ v.getLsbD 0 = true ∧ v.getLsbD 12 = false

instance (uaddr : Word) (v : HalfWord) : Decidable (IsGo uaddr v) :=
  inferInstanceAs (Decidable (_ ∧ _ ∧ _))

/-- A step of `tape_controller_run`. -/
def thread (s : TapeHandshake δ) : Except ErrCall (TapeHandshake δ) :=
  match s.phase with
  | .starting => .ok { s with phase := .waiting }
  | .waiting => .ok s
  | .woken =>
    if !s.cur then
      .ok { s with
        system := s.system.onController fun c => { c with mts.ilc := true }
        phase := .finished
        refused := s.refused + 1 }
    else
      .ok { s with
        system := s.system.onController fun c => { c with mtc.cur := false }
        phase := .executing }
  | .executing =>
    (s.system.go dev).map fun system =>
      { s with system := system, phase := .executed, executed := s.executed ++ [s.current] }
  | .executed =>
    .ok { s with
      system := s.system.onController fun c => { c with mtc.cur := true }
      phase := .finished }
  | .finished => .ok { s with system := s.system.assertInterrupt, phase := .starting }

/-- A GO is recorded. -/
def noteGo (v : HalfWord) (s : TapeHandshake δ) : TapeHandshake δ :=
  { s with
    sawReady := false
    requests := if s.cur || s.sawReady then s.requests ++ [s.requestOf v] else s.requests
    busyGos := if s.cur then s.busyGos else s.busyGos + 1 }

/-- The thread leaves `pthread_cond_wait` if it is there. -/
def wake (s : TapeHandshake δ) : TapeHandshake δ :=
  if s.phase = .waiting then { s with phase := .woken } else s

/-- One event. -/
def step (e : TapeEvent δ) (s : TapeHandshake δ) : Except ErrCall (TapeHandshake δ) :=
  match e with
  | .thread => s.thread dev
  | .spuriousWakeup => .ok s.wake
  | .readMtc => .ok { s with sawReady := s.system.controller.encodeMtc.getLsbD 7 }
  | .write uaddr v =>
    (s.system.unibusWrite uaddr v).map fun (go, system) =>
      let s := { (if IsGo uaddr v then s.noteGo v else s) with system := system }
      if go then s.wake else s
  | .busReset => .ok { s with system := s.system.onController TapeController.busReset }
  | .access bus => .ok { s with system := { s.system with bus := bus } }

/-- The command that the thread is going to execute. -/
def pending (s : TapeHandshake δ) : Option TapeRequest :=
  if s.phase = .executing ∨ (s.phase = .woken ∧ s.cur) then some s.current else none

/-- The thread is going to set ILC. -/
def refuses (s : TapeHandshake δ) : Bool := s.phase = .woken && !s.cur

/-- Each command written with GO by a processor that found the controller ready is executed
once, as it was written, or is the one that the thread is going to execute; and each GO
written while the controller was not ready sets ILC. What the thread is going to do it
does within two steps. -/
structure Answered (s : TapeHandshake δ) : Prop where
  once : s.executed ++ s.pending.toList = s.requests
  ilc : s.refused + s.refuses.toNat = s.busyGos
  soon : ∀ s₁ s₂, s.thread dev = .ok s₁ → s₁.thread dev = .ok s₂ →
    s₂.executed = s.executed ++ s.pending.toList ∧ s₂.refused = s.refused + s.refuses.toNat

/-- A GO is written only while the thread waits. Before the thread has begun to execute a command
or to set ILC, a word without GO that is written to MTC has the function and the drive of
the command, and neither a power clear nor a bus reset changes what the thread is going to
do. The thread is woken by nothing else. -/
def Orderly : TapeEvent δ → TapeHandshake δ → Prop
  | .write uaddr v, s =>
    if IsGo uaddr v then s.phase = .waiting
    else uaddr = 0o772522 →
      if v.getLsbD 12 then ¬s.refuses ∧ ∀ r ∈ s.pending, r = ⟨0, 0, false⟩
      else ∀ r ∈ s.pending, r.function = functionOf v ∧ r.drive = driveOf v
  | .busReset, s => ¬s.refuses ∧ ∀ r ∈ s.pending, r = ⟨0, 0, false⟩
  | .spuriousWakeup, s => s.phase ≠ .waiting
  | _, _ => True

end TapeHandshake

namespace TapeSystem

variable {δ : Type} {dev : BusDevices δ} {s t : TapeSystem δ}

/-- What the thread and the processor have in common: the command in the registers and the
drives. -/
structure SameCommand (t s : TapeSystem δ) : Prop where
  mtc : t.controller.mtc = s.controller.mtc
  selr : t.controller.mts.selr = s.controller.mts.selr
  drives : t.controller.drives = s.controller.drives

/-- A power clear resets the registers. -/
theorem updateMtc_powerClear {v : HalfWord} (h : v.getLsbD 12 = true) :
    (s.updateMtc v).1 = false ∧ (s.updateMtc v).2.controller.mtc.cur = true ∧
      (s.updateMtc v).2.controller.mtc.function = 0 ∧ (s.updateMtc v).2.controller.mtc.slt = 0 ∧
      (s.updateMtc v).2.controller.mts.selr = false ∧
      (s.updateMtc v).2.controller.drives = s.controller.drives := by
  unfold updateMtc
  simp only [if_pos h]
  exact ⟨trivial, rfl, rfl, rfl, rfl, rfl⟩

/-- Any other word is stored, and GO broadcasts. -/
theorem updateMtc_stores {v : HalfWord} (h : v.getLsbD 12 = false) :
    (s.updateMtc v).1 = v.getLsbD 0 ∧
      (s.updateMtc v).2.controller.mtc.cur = s.controller.mtc.cur ∧
      (s.updateMtc v).2.controller.mtc.function = TapeHandshake.functionOf v ∧
      (s.updateMtc v).2.controller.mtc.slt = TapeHandshake.driveOf v ∧
      (s.updateMtc v).2.controller.mts.selr =
        (s.controller.drives (TapeHandshake.driveOf v)).online ∧
      (s.updateMtc v).2.controller.drives = s.controller.drives := by
  unfold updateMtc
  rw [h]
  simp only [Bool.false_eq_true, if_false]
  cases v.getLsbD 0
  · exact ⟨rfl, rfl, rfl, rfl, rfl, rfl⟩
  · exact ⟨rfl, rfl, rfl, rfl, rfl, rfl⟩

/-- The other registers are not part of the command. -/
theorem unibusWrite_other {uaddr : Word} {v : HalfWord} {go : Bool} (h : uaddr ≠ 0o772522)
    (hw : s.unibusWrite uaddr v = .ok (go, t)) : go = false ∧ SameCommand t s := by
  unfold unibusWrite at hw
  rw [if_neg h] at hw
  split at hw
  · cases hw
    exact ⟨rfl, rfl, rfl, rfl⟩
  · split at hw
    · cases hw
      exact ⟨rfl, rfl, rfl, rfl⟩
    · split at hw
      · cases hw
        exact ⟨rfl, rfl, rfl, rfl⟩
      · cases hw

end TapeSystem

/-- A bit of a register, read back. -/
theorem flagBit_getLsbD (b : Bool) (k : ℕ) {i : ℕ} (hi : i < 16) :
    (flagBit b k).getLsbD i = (b && decide (i = k)) := by
  cases b
  · simp [flagBit]
  · rw [flagBit, if_pos rfl, Bool.true_and]
    change (BitVec.ofNat 16 (1 <<< k)).getLsbD i = _
    rw [BitVec.getLsbD_ofNat, Nat.one_shiftLeft, Nat.testBit_two_pow, decide_eq_true hi,
      Bool.true_and]
    exact decide_eq_decide.mpr eq_comm

/-- Bit 7 of MTC shows that the controller is ready. -/
theorem TapeController.encodeMtc_cur (c : TapeController) :
    c.encodeMtc.getLsbD 7 = c.mtc.cur := by
  have hslt : (BitVec.ofNat 16 c.mtc.slt <<< 8).getLsbD 7 = false := by simp
  have hea : ((((c.mtcma >>> 16) &&& 0b11) <<< 4).setWidth 16).getLsbD 7 = false := by simp
  have hfunction : (BitVec.ofNat 16 c.mtc.function <<< 1).getLsbD 7 = false := by
    rw [BitVec.getLsbD_shiftLeft, BitVec.getLsbD_ofNat,
      Nat.testBit_lt_two_pow (lt_of_lt_of_le c.mtc.function.isLt (by decide))]
    rfl
  rw [TapeController.encodeMtc]
  simp only [BitVec.getLsbD_or, flagBit_getLsbD _ _ (show 7 < 16 by decide), hslt, hea, hfunction]
  simp

namespace TapeHandshake

variable {δ : Type} {dev : BusDevices δ} {s : TapeHandshake δ}

/-- A thread that is elsewhere is not going to do anything. -/
theorem pending_of_idle (hw : s.phase ≠ .woken) (he : s.phase ≠ .executing) :
    s.pending = none ∧ s.refuses = false := by
  simp [pending, refuses, hw, he]

/-- A thread that has been woken executes the command or sets ILC. -/
theorem pending_of_woken (hw : s.phase = .woken) :
    s.pending = (if s.cur then some s.current else none) ∧ s.refuses = !s.cur := by
  simp [pending, refuses, hw]

/-- A thread that has found the controller ready executes the command. -/
theorem pending_of_executing (he : s.phase = .executing) :
    s.pending = some s.current ∧ s.refuses = false := by
  simp [pending, refuses, he]

/-- What the thread is going to do depends on the command in the registers. -/
theorem pending_congr {s' : TapeHandshake δ} (hphase : s'.phase = s.phase) (hcur : s'.cur = s.cur)
    (hcurrent : s.pending.isSome → s'.current = s.current) :
    s'.pending = s.pending ∧ s'.refuses = s.refuses := by
  refine ⟨?_, by simp only [refuses, hphase, hcur]⟩
  unfold pending at hcurrent ⊢
  rw [hphase, hcur]
  split
  · rw [hcurrent (by rw [if_pos ‹_›]; rfl)]
  · rfl

/-- The commands that were asked for are those executed and the one that the thread is going to
execute. -/
structure Inv (s : TapeHandshake δ) : Prop where
  once : s.executed ++ s.pending.toList = s.requests
  ilc : s.refused + s.refuses.toNat = s.busyGos
  online : ∀ r ∈ s.pending, r.online = (s.system.controller.drives r.drive).online
  ready : s.sawReady → s.cur ∨ s.phase = .executing ∨ s.phase = .executed

/-- Nothing was asked for at the start. -/
theorem inv_start (system : TapeSystem δ) : Inv (start system) where
  once := rfl
  ilc := rfl
  online := fun _ h => by simp [pending, start] at h
  ready := fun h => nomatch h

/-- A thread that is elsewhere, and stays so, does nothing. -/
theorem records_of_idle {s' : TapeHandshake δ} (hw : s.phase ≠ .woken) (he : s.phase ≠ .executing)
    (hw' : s'.phase ≠ .woken) (he' : s'.phase ≠ .executing) (hexecuted : s'.executed = s.executed)
    (hrefused : s'.refused = s.refused) :
    s'.executed ++ s'.pending.toList = s.executed ++ s.pending.toList ∧
      s'.refused + s'.refuses.toNat = s.refused + s.refuses.toNat := by
  obtain ⟨hpending, hrefuses⟩ := pending_of_idle hw he
  obtain ⟨hpending', hrefuses'⟩ := pending_of_idle hw' he'
  rw [hpending, hpending', hrefuses, hrefuses', hexecuted, hrefused]
  exact ⟨rfl, rfl⟩

/-- A step of the thread does what it was going to do, or nothing. -/
theorem thread_records {s' : TapeHandshake δ} (h : s.thread dev = .ok s') :
    s'.executed ++ s'.pending.toList = s.executed ++ s.pending.toList ∧
      s'.refused + s'.refuses.toNat = s.refused + s.refuses.toNat := by
  unfold thread at h
  cases hp : s.phase with
  | starting =>
    rw [hp] at h
    cases h
    exact records_of_idle (by simp [hp]) (by simp [hp]) (by simp) (by simp) rfl rfl
  | waiting =>
    rw [hp] at h
    cases h
    exact ⟨rfl, rfl⟩
  | woken =>
    rw [hp] at h
    obtain ⟨hpending, hrefuses⟩ := pending_of_woken hp
    cases hcur : s.cur with
    | false =>
      rw [hcur] at h hpending hrefuses
      cases h
      obtain ⟨hpending', hrefuses'⟩ := pending_of_idle (s := { s with
        system := s.system.onController fun c => { c with mts.ilc := true }
        phase := .finished
        refused := s.refused + 1 }) (by simp) (by simp)
      rw [hpending, hrefuses, hpending', hrefuses']
      exact ⟨rfl, rfl⟩
    | true =>
      rw [hcur] at h hpending hrefuses
      cases h
      obtain ⟨hpending', hrefuses'⟩ := pending_of_executing (s := { s with
        system := s.system.onController fun c => { c with mtc.cur := false }
        phase := .executing }) rfl
      rw [hpending, hrefuses, hpending', hrefuses']
      exact ⟨rfl, rfl⟩
  | executing =>
    rw [hp] at h
    obtain ⟨system, -, rfl⟩ := Lib.exists_of_map_eq_ok h
    obtain ⟨hpending, hrefuses⟩ := pending_of_executing hp
    obtain ⟨hpending', hrefuses'⟩ := pending_of_idle (s := { s with
      system := system, phase := .executed, executed := s.executed ++ [s.current] })
      (by simp) (by simp)
    rw [hpending, hrefuses, hpending', hrefuses']
    exact ⟨List.append_nil _, rfl⟩
  | executed =>
    rw [hp] at h
    cases h
    exact records_of_idle (by simp [hp]) (by simp [hp]) (by simp) (by simp) rfl rfl
  | finished =>
    rw [hp] at h
    cases h
    exact records_of_idle (by simp [hp]) (by simp [hp]) (by simp) (by simp) rfl rfl

/-- A thread that is going to do something has begun it after a step, and done it after two. -/
theorem thread_thread_idle {s₁ s₂ : TapeHandshake δ} (h₁ : s.thread dev = .ok s₁)
    (h₂ : s₁.thread dev = .ok s₂) : s₂.phase ≠ .woken ∧ s₂.phase ≠ .executing := by
  unfold thread at h₁ h₂
  cases hp : s.phase with
  | starting =>
    rw [hp] at h₁
    cases h₁
    cases h₂
    exact ⟨by simp, by simp⟩
  | waiting =>
    rw [hp] at h₁
    cases h₁
    rw [hp] at h₂
    cases h₂
    exact ⟨by simp [hp], by simp [hp]⟩
  | woken =>
    rw [hp] at h₁
    simp only at h₁
    split at h₁
    · cases h₁
      cases h₂
      exact ⟨by simp, by simp⟩
    · cases h₁
      obtain ⟨system, -, rfl⟩ := Lib.exists_of_map_eq_ok h₂
      exact ⟨by simp, by simp⟩
  | executing =>
    rw [hp] at h₁
    obtain ⟨system, -, rfl⟩ := Lib.exists_of_map_eq_ok h₁
    cases h₂
    exact ⟨by simp, by simp⟩
  | executed =>
    rw [hp] at h₁
    cases h₁
    cases h₂
    exact ⟨by simp, by simp⟩
  | finished =>
    rw [hp] at h₁
    cases h₁
    cases h₂
    exact ⟨by simp, by simp⟩

/-- What the thread is going to do it does within two steps. -/
theorem thread_soon {s₁ s₂ : TapeHandshake δ} (h₁ : s.thread dev = .ok s₁)
    (h₂ : s₁.thread dev = .ok s₂) :
    s₂.executed = s.executed ++ s.pending.toList ∧ s₂.refused = s.refused + s.refuses.toNat := by
  obtain ⟨hexecuted₁, hrefused₁⟩ := thread_records h₁
  obtain ⟨hexecuted₂, hrefused₂⟩ := thread_records h₂
  obtain ⟨hw, he⟩ := thread_thread_idle h₁ h₂
  obtain ⟨hpending, hrefuses⟩ := pending_of_idle hw he
  rw [hpending, Option.toList_none, List.append_nil, hexecuted₁] at hexecuted₂
  rw [hrefuses, Bool.toNat_false, Nat.add_zero, hrefused₁] at hrefused₂
  exact ⟨hexecuted₂, hrefused₂⟩

/-- Four steps of a thread that has been woken and finds the controller ready are its turn. -/
theorem thread_turn (hw : s.phase = .woken) (hcur : s.cur = true) :
    (do (← (← (← s.thread dev).thread dev).thread dev).thread dev) =
      (s.system.run dev).map fun system =>
        { s with system := system, phase := .starting, executed := s.executed ++ [s.current] } := by
  have hwoken : s.thread dev = .ok { s with
      system := s.system.onController fun c => { c with mtc.cur := false }
      phase := .executing } := by
    rw [thread, hw, hcur]
    rfl
  have hcur' : s.system.controller.mtc.cur = true := hcur
  rw [hwoken, TapeSystem.run, hcur']
  change ((TapeSystem.go dev (s.system.onController fun c => { c with mtc.cur := false })).map _ >>=
    _) = _
  generalize TapeSystem.go dev (s.system.onController fun c => { c with mtc.cur := false }) = x
  cases x <;> rfl

/-- The invariant says that everything asked for is answered. -/
theorem Inv.answered (h : Inv s) : Answered dev s where
  once := h.once
  ilc := h.ilc
  soon := fun _ _ h₁ h₂ => thread_soon h₁ h₂

/-- The thread neither asks for commands nor forgets that they were asked for. -/
theorem thread_requests {s' : TapeHandshake δ} (h : s.thread dev = .ok s') :
    s'.requests = s.requests ∧ s'.busyGos = s.busyGos ∧ s'.sawReady = s.sawReady := by
  unfold thread at h
  split at h
  case h_3 =>
    split at h <;> cases h <;> exact ⟨rfl, rfl, rfl⟩
  case h_4 =>
    obtain ⟨system, -, rfl⟩ := Lib.exists_of_map_eq_ok h
    exact ⟨rfl, rfl, rfl⟩
  all_goals
    cases h
    exact ⟨rfl, rfl, rfl⟩

/-- The invariant is kept by the thread. -/
theorem Inv.thread (h : Inv s) {s' : TapeHandshake δ} (hstep : s.thread dev = .ok s') :
    Inv s' := by
  obtain ⟨hrequests, hbusy, hsaw⟩ := thread_requests hstep
  obtain ⟨honce, hilc⟩ := thread_records hstep
  suffices hrest : (∀ r ∈ s'.pending, r.online = (s'.system.controller.drives r.drive).online) ∧
      (s'.sawReady → s'.cur ∨ s'.phase = .executing ∨ s'.phase = .executed) by
    exact ⟨honce.trans (h.once.trans hrequests.symm), hilc.trans (h.ilc.trans hbusy.symm),
      hrest.1, hrest.2⟩
  have hready := h.ready
  rw [← hsaw] at hready
  have hidle {t : TapeHandshake δ} (hw : t.phase ≠ .woken) (he : t.phase ≠ .executing) :
      ∀ r ∈ t.pending, r.online = (t.system.controller.drives r.drive).online := by
    rw [(pending_of_idle hw he).1]
    exact fun _ hr => nomatch hr
  unfold TapeHandshake.thread at hstep
  cases hp : s.phase with
  | starting =>
    rw [hp] at hstep hready
    cases hstep
    refine ⟨hidle (by simp) (by simp), fun hs => .inl ?_⟩
    exact (hready hs).resolve_right (by simp)
  | waiting =>
    rw [hp] at hstep
    cases hstep
    exact ⟨h.online, h.ready⟩
  | woken =>
    rw [hp] at hstep hready
    have hcur : s'.sawReady → s.cur := fun hs => (hready hs).resolve_right (by simp)
    simp only at hstep
    split at hstep
    · rename_i hnot
      cases hstep
      refine ⟨hidle (by simp) (by simp), fun hs => ?_⟩
      rw [hcur hs] at hnot
      cases hnot
    · rename_i hready'
      cases hstep
      refine ⟨?_, fun _ => .inr (.inl rfl)⟩
      rw [(pending_of_executing rfl).1]
      rintro r ⟨⟩
      refine h.online s.current ?_
      rw [(pending_of_woken hp).1, if_pos (by simpa using hready')]
      rfl
  | executing =>
    rw [hp] at hstep
    obtain ⟨system, -, rfl⟩ := Lib.exists_of_map_eq_ok hstep
    exact ⟨hidle (by simp) (by simp), fun _ => .inr (.inr rfl)⟩
  | executed =>
    rw [hp] at hstep
    cases hstep
    exact ⟨hidle (by simp) (by simp), fun _ => .inl rfl⟩
  | finished =>
    rw [hp] at hstep hready
    cases hstep
    refine ⟨hidle (by simp) (by simp), fun hs => .inl ?_⟩
    exact (hready hs).resolve_right (by simp)

/-- A reset of the registers changes nothing that the thread is going to do if it was going to
execute the command that the reset leaves there. -/
theorem pending_of_reset {s' : TapeHandshake δ} (hphase : s'.phase = s.phase)
    (hcur : s'.cur = true) (hcurrent : s'.current = ⟨0, 0, false⟩) :
    (s'.pending = s.pending ∧ s'.refuses = s.refuses) ↔
      (¬s.refuses ∧ ∀ r ∈ s.pending, r = ⟨0, 0, false⟩) := by
  by_cases hw : s.phase = .woken
  · obtain ⟨hpending, hrefuses⟩ := pending_of_woken hw
    obtain ⟨hpending', hrefuses'⟩ := pending_of_woken (hphase.trans hw)
    rw [hpending, hpending', hrefuses, hrefuses', hcur, hcurrent]
    cases s.cur with
    | false => simp
    | true => simp [eq_comm]
  by_cases he : s.phase = .executing
  · obtain ⟨hpending, hrefuses⟩ := pending_of_executing he
    obtain ⟨hpending', hrefuses'⟩ := pending_of_executing (hphase.trans he)
    rw [hpending, hpending', hrefuses, hrefuses', hcurrent]
    simp [eq_comm]
  · obtain ⟨hpending, hrefuses⟩ := pending_of_idle hw he
    obtain ⟨hpending', hrefuses'⟩ := pending_of_idle (hphase ▸ hw) (hphase ▸ he)
    rw [hpending, hpending', hrefuses, hrefuses']
    simp

/-- What the thread is going to do is known from the record. -/
theorem Inv.same_of_answered (h : Inv s) {s' : TapeHandshake δ} (ha : Answered dev s')
    (hexecuted : s'.executed = s.executed) (hrequests : s'.requests = s.requests)
    (hrefused : s'.refused = s.refused) (hbusy : s'.busyGos = s.busyGos) :
    s'.pending = s.pending ∧ s'.refuses = s.refuses := by
  have honce := ha.once.trans (hrequests.trans h.once.symm)
  have hilc := ha.ilc.trans (hbusy.trans h.ilc.symm)
  rw [hexecuted] at honce
  rw [hrefused] at hilc
  refine ⟨?_, ?_⟩
  · have hlist := List.append_cancel_left honce
    cases hs' : s'.pending <;> cases hs : s.pending <;> simp_all
  · have hnat := Nat.add_left_cancel hilc
    cases hs' : s'.refuses <;> cases hs : s.refuses <;> simp_all

/-- A word with GO is stored, and wakes the thread if it waits. -/
theorem step_write_go {v : HalfWord} {uaddr : Word} (hgo : IsGo uaddr v) :
    step dev (.write uaddr v) s =
      .ok { s.noteGo v with system := (s.system.updateMtc v).2 }.wake := by
  obtain ⟨rfl, hbit, hclear⟩ := hgo
  have hwrite : s.system.unibusWrite 0o772522 v =
      .ok (true, (s.system.updateMtc v).2) := by
    rw [← hbit, ← (TapeSystem.updateMtc_stores (s := s.system) hclear).1]
    rfl
  simp only [step, hwrite, Except.map, if_true,
    if_pos (show IsGo 0o772522 v from ⟨rfl, hbit, hclear⟩)]

/-- A word without GO, or with power clear, does not wake it. -/
theorem step_write_mtc {v : HalfWord} (hgo : ¬IsGo 0o772522 v) :
    step dev (.write 0o772522 v) s = .ok { s with system := (s.system.updateMtc v).2 } := by
  have hwrite : s.system.unibusWrite 0o772522 v =
      .ok (false, (s.system.updateMtc v).2) := by
    have hfalse : (s.system.updateMtc v).1 = false := by
      cases hclear : v.getLsbD 12 with
      | true => exact (TapeSystem.updateMtc_powerClear hclear).1
      | false =>
        rw [(TapeSystem.updateMtc_stores hclear).1]
        exact Bool.eq_false_iff.mpr fun hbit => hgo ⟨rfl, hbit, hclear⟩
    rw [← hfalse]
    rfl
  simp only [step, hwrite, Except.map, Bool.false_eq_true, if_false, if_neg hgo]

/-- A write of another register leaves the command. -/
theorem step_write_other {v : HalfWord} {uaddr : Word} (hu : uaddr ≠ 0o772522)
    {s' : TapeHandshake δ} (h : step dev (.write uaddr v) s = .ok s') :
    ∃ system, TapeSystem.SameCommand system s.system ∧ s' = { s with system := system } := by
  obtain ⟨⟨go, system⟩, hwrite, rfl⟩ := Lib.exists_of_map_eq_ok h
  obtain ⟨rfl, hsame⟩ := TapeSystem.unibusWrite_other hu hwrite
  refine ⟨system, hsame, ?_⟩
  simp only [Bool.false_eq_true, if_false, if_neg fun hgo : IsGo uaddr v => hu hgo.1]

/-- The thread is going to execute one command at most. -/
theorem length_pending (s : TapeHandshake δ) : s.pending.toList.length =
    if s.phase = .executing ∨ (s.phase = .woken ∧ s.cur) then 1 else 0 := by
  unfold pending
  split <;> rfl

/-- The thread is going to execute the command in the registers. -/
theorem eq_current_of_pending {r : TapeRequest} (hr : r ∈ s.pending) : r = s.current := by
  unfold pending at hr
  split at hr
  · exact (Option.some.inj hr).symm
  · cases hr

/-- The invariant of a state in which the same commands are asked for and answered. -/
theorem Inv.of_same (h : Inv s) {system : TapeSystem δ}
    (hdrives : system.controller.drives = s.system.controller.drives)
    (hcur : s.sawReady → system.controller.mtc.cur ∨ s.phase = .executing ∨ s.phase = .executed)
    (hpending : pending { s with system := system } = s.pending)
    (hrefuses : refuses { s with system := system } = s.refuses) :
    Inv { s with system := system } where
  once := by
    rw [hpending]
    exact h.once
  ilc := by
    rw [hrefuses]
    exact h.ilc
  online r hr := by
    rw [hpending] at hr
    exact (h.online r hr).trans (by rw [hdrives])
  ready := hcur

/-- A word without GO changes nothing that the thread is going to do if it has the same function
and drive. -/
theorem Inv.pending_of_stores (h : Inv s) {v : HalfWord} (hclear : v.getLsbD 12 = false) :
    (pending { s with system := (s.system.updateMtc v).2 } = s.pending ∧
        refuses { s with system := (s.system.updateMtc v).2 } = s.refuses) ↔
      ∀ r ∈ s.pending, r.function = functionOf v ∧ r.drive = driveOf v := by
  obtain ⟨-, hcur, hfunction, hslt, hselr, -⟩ :=
    TapeSystem.updateMtc_stores (s := s.system) hclear
  have hcurrent : current { s with system := (s.system.updateMtc v).2 } = s.requestOf v := by
    rw [current, hfunction, hslt, hselr]
    rfl
  constructor
  · rintro ⟨hpending, -⟩ r hr
    rw [← hpending] at hr
    obtain rfl : r = s.requestOf v := (eq_current_of_pending hr).trans hcurrent
    exact ⟨rfl, rfl⟩
  · intro hsame
    refine pending_congr rfl hcur fun hsome => hcurrent.trans ?_
    obtain ⟨r, hr⟩ := Option.isSome_iff_exists.mp hsome
    obtain ⟨hfun, hdrive⟩ := hsame r hr
    have honline := h.online r hr
    rw [hdrive] at honline
    rw [← eq_current_of_pending hr, requestOf, ← honline, ← hfun, ← hdrive]

/-- A GO that is written while the thread waits is answered. -/
theorem Inv.writeGo (h : Inv s) {v : HalfWord} (hclear : v.getLsbD 12 = false)
    (hw : s.phase = .waiting) :
    Inv { s.noteGo v with system := (s.system.updateMtc v).2 }.wake := by
  obtain ⟨-, hcur, hfunction, hslt, hselr, hdrives⟩ :=
    TapeSystem.updateMtc_stores (s := s.system) hclear
  obtain ⟨hpending, hrefuses⟩ := pending_of_idle (s := s) (by simp [hw]) (by simp [hw])
  have hsaw : s.sawReady → s.cur := fun hs => (h.ready hs).resolve_right (by simp [hw])
  have hwoken : { s.noteGo v with system := (s.system.updateMtc v).2 }.wake =
      { s.noteGo v with system := (s.system.updateMtc v).2, phase := .woken } := if_pos hw
  rw [hwoken]
  obtain ⟨hpending', hrefuses'⟩ := pending_of_woken (s := { s.noteGo v with
    system := (s.system.updateMtc v).2, phase := .woken }) rfl
  have hcur' :
      cur { s.noteGo v with system := (s.system.updateMtc v).2, phase := .woken } = s.cur :=
    hcur
  have hcurrent : current { s.noteGo v with
      system := (s.system.updateMtc v).2, phase := .woken } = s.requestOf v := by
    rw [current, hfunction, hslt, hselr]
    rfl
  rw [hcur', hcurrent] at hpending'
  rw [hcur'] at hrefuses'
  have honce := h.once
  have hilc := h.ilc
  rw [hpending, Option.toList_none, List.append_nil] at honce
  rw [hrefuses, Bool.toNat_false, Nat.add_zero] at hilc
  constructor
  case once =>
    rw [hpending']
    change s.executed ++ _ =
      if s.cur || s.sawReady then s.requests ++ [s.requestOf v] else s.requests
    rw [honce]
    cases hc : s.cur with
    | true => rfl
    | false =>
      have hs : s.sawReady = false := Bool.eq_false_iff.mpr fun hs => by simp [hsaw hs] at hc
      rw [hs]
      exact List.append_nil _
  case ilc =>
    rw [hrefuses']
    change s.refused + _ = if s.cur then s.busyGos else s.busyGos + 1
    rw [hilc]
    cases s.cur <;> rfl
  case online =>
    rw [hpending']
    intro r hr
    split at hr
    · cases hr
      change _ = ((s.system.updateMtc v).2.controller.drives _).online
      rw [hdrives]
      rfl
    · cases hr
  case ready => exact fun hs => nomatch hs

/-- An orderly event keeps the invariant. -/
theorem Inv.step (h : Inv s) {e : TapeEvent δ} {s' : TapeHandshake δ}
    (hstep : TapeHandshake.step dev e s = .ok s') (he : Orderly e s) : Inv s' := by
  cases e with
  | thread => exact h.thread hstep
  | spuriousWakeup =>
    cases hstep
    rw [wake, if_neg he]
    exact h
  | readMtc =>
    cases hstep
    exact { h with ready := fun hs => .inl ((TapeController.encodeMtc_cur _).symm.trans hs) }
  | write uaddr v =>
    by_cases hu : uaddr = 0o772522
    · subst hu
      by_cases hgo : IsGo 0o772522 v
      · rw [step_write_go hgo] at hstep
        cases hstep
        rw [Orderly, if_pos hgo] at he
        exact h.writeGo hgo.2.2 he
      · rw [step_write_mtc hgo] at hstep
        cases hstep
        rw [Orderly, if_neg hgo] at he
        have he' := he rfl
        cases hclear : v.getLsbD 12 with
        | true =>
          rw [if_pos hclear] at he'
          obtain ⟨-, hcur, hfunction, hslt, hselr, hdrives⟩ :=
            TapeSystem.updateMtc_powerClear (s := s.system) hclear
          obtain ⟨hpending, hrefuses⟩ := (@pending_of_reset _ s { s with
            system := (s.system.updateMtc v).2 } rfl hcur
            (by rw [current, hfunction, hslt, hselr])).mpr he'
          exact h.of_same hdrives (fun _ => .inl hcur) hpending hrefuses
        | false =>
          rw [hclear, if_neg (by decide)] at he'
          obtain ⟨-, hcur, -, -, -, hdrives⟩ := TapeSystem.updateMtc_stores (s := s.system) hclear
          obtain ⟨hpending, hrefuses⟩ := (h.pending_of_stores hclear).mpr he'
          exact h.of_same hdrives (fun hs => hcur ▸ h.ready hs) hpending hrefuses
    · obtain ⟨system, hsame, rfl⟩ := step_write_other hu hstep
      obtain ⟨hpending, hrefuses⟩ := @pending_congr _ s { s with system := system } rfl
        (congrArg Mtc.cur hsame.mtc) fun _ => by rw [current, hsame.mtc, hsame.selr]; rfl
      exact h.of_same hsame.drives (fun hs => hsame.mtc ▸ h.ready hs) hpending hrefuses
  | busReset =>
    cases hstep
    obtain ⟨hpending, hrefuses⟩ := (@pending_of_reset _ s { s with
      system := s.system.onController TapeController.busReset } rfl rfl rfl).mpr he
    exact h.of_same rfl (fun _ => .inl rfl) hpending hrefuses
  | access bus =>
    cases hstep
    exact h.of_same rfl h.ready rfl rfl

/-- A GO that is written while the thread does not wait is lost. -/
theorem Inv.not_answered_writeGo (h : Inv s) {v : HalfWord} (hclear : v.getLsbD 12 = false)
    (hw : s.phase ≠ .waiting)
    (ha : Answered dev { s.noteGo v with system := (s.system.updateMtc v).2 }.wake) : False := by
  have hcur : cur { s.noteGo v with system := (s.system.updateMtc v).2 } = s.cur :=
    (TapeSystem.updateMtc_stores (s := s.system) hclear).2.1
  have hasleep : { s.noteGo v with system := (s.system.updateMtc v).2 }.wake =
      { s.noteGo v with system := (s.system.updateMtc v).2 } := if_neg hw
  rw [hasleep] at ha
  have hrefuses : refuses { s.noteGo v with system := (s.system.updateMtc v).2 } = s.refuses := by
    rw [refuses, hcur]
    rfl
  have hlength : (pending { s.noteGo v with system := (s.system.updateMtc v).2 }).toList.length =
      s.pending.toList.length := by
    rw [length_pending, length_pending, hcur]
    rfl
  have honce := congrArg List.length ha.once
  have honce' := congrArg List.length h.once
  have hilc := ha.ilc
  have hilc' := h.ilc
  rw [List.length_append, hlength] at honce
  rw [List.length_append] at honce'
  rw [hrefuses] at hilc
  cases hc : s.cur with
  | true =>
    simp only [noteGo, hc, Bool.true_or, if_true, List.length_append,
      List.length_singleton] at honce
    omega
  | false =>
    simp only [noteGo, hc, Bool.false_eq_true, if_false] at hilc
    omega

/-- After an event that is not orderly something asked for is not answered. -/
theorem Inv.orderly (h : Inv s) {e : TapeEvent δ} {s' : TapeHandshake δ}
    (hstep : TapeHandshake.step dev e s = .ok s') (ha : Answered dev s') : Orderly e s := by
  cases e with
  | thread => trivial
  | spuriousWakeup =>
    intro hw
    cases hstep
    rw [wake, if_pos hw] at ha
    obtain ⟨hpending, hrefuses⟩ := h.same_of_answered ha rfl rfl rfl rfl
    obtain ⟨hnone, hnot⟩ := pending_of_idle (s := s) (by simp [hw]) (by simp [hw])
    obtain ⟨hpending', hrefuses'⟩ := pending_of_woken (s := { s with phase := .woken }) rfl
    rw [hnone, hpending'] at hpending
    rw [hnot, hrefuses'] at hrefuses
    change (!s.cur) = false at hrefuses
    change (if s.cur then _ else _) = _ at hpending
    rw [Bool.not_eq_eq_eq_not.mp hrefuses] at hpending
    cases hpending
  | readMtc => trivial
  | write uaddr v =>
    by_cases hgo : IsGo uaddr v
    · rw [Orderly, if_pos hgo]
      by_contra hw
      rw [step_write_go hgo] at hstep
      cases hstep
      exact h.not_answered_writeGo hgo.2.2 hw ha
    · rw [Orderly, if_neg hgo]
      rintro rfl
      rw [step_write_mtc hgo] at hstep
      cases hstep
      have hsame := h.same_of_answered ha rfl rfl rfl rfl
      cases hclear : v.getLsbD 12 with
      | true =>
        rw [if_pos rfl]
        obtain ⟨-, hcur, hfunction, hslt, hselr, -⟩ :=
          TapeSystem.updateMtc_powerClear (s := s.system) hclear
        exact (@pending_of_reset _ s { s with system := (s.system.updateMtc v).2 } rfl
          hcur (by rw [current, hfunction, hslt, hselr])).mp hsame
      | false =>
        rw [if_neg (by decide)]
        exact (h.pending_of_stores hclear).mp hsame
  | busReset =>
    cases hstep
    exact (@pending_of_reset _ s { s with
      system := s.system.onController TapeController.busReset } rfl rfl rfl).mp
      (h.same_of_answered ha rfl rfl rfl rfl)
  | access bus => trivial

/-- In every run of the processor and the thread, each GO is answered in every state if and only if
every event is orderly. -/
theorem tape_go_handshake (dev : BusDevices δ) (system : TapeSystem δ) (es : List (TapeEvent δ)) :
    Lib.Always (TapeHandshake.step dev) (Answered dev) es (start system) ↔
      Lib.EveryStep (TapeHandshake.step dev) Orderly es (start system) :=
  Lib.always_iff_everyStep (fun _ h => h.answered) (fun _ _ _ h hstep he => h.step hstep he)
    (fun _ _ _ h hstep ha => h.orderly hstep ha) (inv_start system)

/-- A ready controller with blank tapes at the load point. -/
def blankTapes : TapeSystem XbusDevices where
  controller := {
    mts := ⟨false, false, false, false, false, false, false⟩
    mtc := ⟨false, false, false, 0, true, false, 0⟩
    mtbrc := 0
    mtcma := 0
    mtd := 0
    mtrd := 0
    drives := fun _ => {
      unit := 0, lengthFt := 10, readOnly := false, mm := fun _ => 0, mmsz := 192000
      online := true, bpi := 1600, eotpos := 115200, pos := 0, bot := true, rws := false
      ready := true, pos_le := by omega, pos_of_bot := fun _ => rfl,
      size_le := fun _ => by omega } }
  bus := mappedBus firstPages

/-- From the start: the thread waits, REWIND is written with GO, and the thread executes it and
requests the interrupt. The processor reads MTC, finds the controller ready and writes
REWIND with GO again, before the thread waits again. -/
theorem tape_go_lost : ¬Lib.Always (TapeHandshake.step bareDevices) (Answered bareDevices)
    [.thread, .write 0o772522 0o117, .thread, .thread, .thread, .thread, .readMtc,
      .write 0o772522 0o117] (start blankTapes) := by
  rintro ⟨-, h⟩
  have hlost := (((((((h _ rfl).2 _ rfl).2 _ rfl).2 _ rfl).2 _ rfl).2 _ rfl).2 _ rfl).2 _ rfl
  exact absurd (congrArg List.length (Lib.Always.head hlost).once) (by decide)

end TapeHandshake

end Usim
