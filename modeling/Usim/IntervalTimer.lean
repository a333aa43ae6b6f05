import Usim.XbusInterrupts

/-!
# The 60 Hz clock and the interval timer

With SDL3, `usim.c` and `iob.c` share the signal handler of SIGALRM and the timer ITIMER_REAL
of the process. Times are in microseconds. The window title, which `run_at_60hz` updates once
a second, is left out.
-/

namespace Usim

/-- The functions that are set as handlers of SIGALRM. -/
inductive SigalrmHandler
  /-- `interval_timer_over` of `iob.c`. -/
  | intervalTimerOver
  /-- `sigalrm_handler` of `usim.c`. -/
  | sigalrmHandler
  deriving DecidableEq

/-- `struct itimerval`. A value of 0 disarms the timer. -/
structure Itimerval where
  interval : ℕ
  value : ℕ

/-- The handler and the timer of the process, with what they act on, and a record. -/
structure AlarmState where
  /-- The handler of SIGALRM. -/
  handler : Option SigalrmHandler
  /-- ITIMER_REAL. -/
  itimer : Itimerval
  /-- `interval_timer`. -/
  intervalTimer : Itimerval
  /-- `the_60_cycle_clock`. -/
  the60CycleClock : HalfWord
  /-- The TVs and the interrupts. -/
  xbus : XbusSystem
  /-- The time since the initialisation. -/
  time : ℕ
  /-- The number of calls of `tv_assert_interrupt`. -/
  retraces : ℕ
  /-- The timer was last set by a write of 0764124. -/
  written : Bool
  /-- The number of expiries of the timer that such writes caused. -/
  expiries : ℕ
  /-- The number of interrupts with vector 0274. -/
  timerInterrupts : ℕ

/-- What happens to the timer. -/
inductive AlarmEvent
  /-- A microsecond passes. -/
  | microsecond
  /-- `iob_unibus_write` of 0764124. -/
  | write (v : HalfWord)
  /-- Any other access, which leaves the devices as given. -/
  | access (xbus : XbusSystem)

namespace AlarmState

variable {s : AlarmState} {colortvEnabled : Bool} {es : List AlarmEvent} {n d : ℕ}

/-- The SIGALRM part of `iob_init`. -/
def iobInit (s : AlarmState) : AlarmState :=
  { s with handler := some .intervalTimerOver, intervalTimer.interval := 0 }

/-- `usim_post_init`. -/
def usimPostInit (s : AlarmState) : AlarmState :=
  { s with handler := some .sigalrmHandler, itimer := { interval := 16666, value := 16666 } }

/-- The start of the process: `usim_init` calls `iob_init`, and `SDL_AppInit` calls
`usim_post_init` after that. -/
def start (xbus : XbusSystem) : AlarmState :=
  { handler := none, itimer := ⟨0, 0⟩, intervalTimer := ⟨0, 0⟩, the60CycleClock := 0, xbus := xbus
    time := 0, retraces := 0, written := false, expiries := 0, timerInterrupts := 0 : AlarmState }
    |>.iobInit.usimPostInit

/-- `iob_unibus_write` of 0764124. The unit is 16 microseconds. -/
def writeIntervalTimer (v : HalfWord) (s : AlarmState) : AlarmState :=
  let intervalTimer := { s.intervalTimer with value := 16 * v.toNat }
  { s with intervalTimer := intervalTimer, itimer := intervalTimer, written := true }

/-- `run_at_60hz`. -/
def runAt60hz (colortvEnabled : Bool) (s : AlarmState) : AlarmState :=
  { s with
    xbus := s.xbus.runAt60hz colortvEnabled
    the60CycleClock := s.the60CycleClock + 1
    retraces := s.retraces + 1 }

/-- `interval_timer_over`. -/
def intervalTimerOver (s : AlarmState) : AlarmState :=
  { s with
    xbus := s.xbus.setInterrupts (assertUnibusInterrupt 0o274 s.xbus.interrupts)
    timerInterrupts := s.timerInterrupts + 1 }

/-- SIGALRM is delivered. -/
def sigalrm (colortvEnabled : Bool) (s : AlarmState) : AlarmState :=
  match s.handler with
  | some .intervalTimerOver => s.intervalTimerOver
  | some .sigalrmHandler => s.runAt60hz colortvEnabled
  | none => s

/-- The timer expires, and is armed again with its interval. -/
def expire (colortvEnabled : Bool) (s : AlarmState) : AlarmState :=
  { s with
    itimer.value := s.itimer.interval
    expiries := if s.written then s.expiries + 1 else s.expiries }
    |>.sigalrm colortvEnabled

/-- A microsecond passes. -/
def microsecond (colortvEnabled : Bool) (s : AlarmState) : AlarmState :=
  let s := { s with time := s.time + 1 }
  if s.itimer.value = 0 then s
  else if s.itimer.value = 1 then s.expire colortvEnabled
  else { s with itimer.value := s.itimer.value - 1 }

/-- Time passes, and nothing else happens. -/
def elapse (colortvEnabled : Bool) (d : ℕ) (s : AlarmState) : AlarmState :=
  (microsecond colortvEnabled)^[d] s

/-- One event, as a step of a run. -/
def step (colortvEnabled : Bool) (e : AlarmEvent) (s : AlarmState) : Except Empty AlarmState :=
  .ok (match e with
    | .microsecond => s.microsecond colortvEnabled
    | .write v => s.writeIntervalTimer v
    | .access xbus => { s with xbus := xbus })

/-- The timer is armed, the 60 cycle clock and the retrace requests have advanced once in every
period, and every expiry that a write caused has given one interrupt. -/
structure OnTime (s : AlarmState) : Prop where
  armed : s.itimer.value ≠ 0
  clock : s.the60CycleClock = BitVec.ofNat 16 (s.time / 16666)
  retraces : s.retraces = s.time / 16666
  answered : s.timerInterrupts = s.expiries

/-- So it is now, and goes on however much time passes. -/
def Coexist (colortvEnabled : Bool) (s : AlarmState) : Prop :=
  ∀ d, OnTime (s.elapse colortvEnabled d)

/-- The state of a process whose timer was never written. -/
structure Unwritten (s : AlarmState) : Prop where
  handler : s.handler = some .sigalrmHandler
  interval : s.itimer.interval = 16666
  oneShot : s.intervalTimer.interval = 0
  armed : 0 < s.itimer.value
  written : s.written = false
  due : s.time + s.itimer.value = 16666 * (s.retraces + 1)
  early : s.itimer.value ≤ 16666
  clock : s.the60CycleClock = BitVec.ofNat 16 s.retraces
  expiries : s.expiries = 0
  timerInterrupts : s.timerInterrupts = 0

theorem unwritten_start (xbus : XbusSystem) : Unwritten (start xbus) :=
  ⟨rfl, rfl, rfl, Nat.succ_pos 16665, rfl, rfl, le_refl _, rfl, rfl, rfl⟩

/-- The expiry of a microsecond is the next tick of the clock. -/
theorem Unwritten.microsecond (h : Unwritten s) : Unwritten (s.microsecond colortvEnabled) := by
  have hdue := h.due
  have hearly := h.early
  have harmed := h.armed
  unfold AlarmState.microsecond
  simp only
  rw [if_neg harmed.ne']
  split
  case isTrue hone =>
    have hclock : BitVec.ofNat 16 (s.retraces + 1) = s.the60CycleClock + 1 := by
      rw [h.clock, BitVec.ofNat_add]
      rfl
    unfold expire sigalrm
    simp only [h.handler, h.written, Bool.false_eq_true, if_false, h.interval]
    exact ⟨rfl, rfl, h.oneShot, Nat.succ_pos 16665, rfl, by dsimp only [runAt60hz]; omega,
      le_refl _, hclock.symm, h.expiries, h.timerInterrupts⟩
  case isFalse hone =>
    exact ⟨h.handler, h.interval, h.oneShot, by dsimp only; omega, h.written,
      by dsimp only; omega, by dsimp only; omega, h.clock, h.expiries, h.timerInterrupts⟩

theorem Unwritten.onTime (h : Unwritten s) : OnTime s := by
  have hdue := h.due
  have hearly := h.early
  have harmed := h.armed
  have hretraces : s.retraces = s.time / 16666 := by omega
  exact ⟨harmed.ne', by rw [← hretraces]; exact h.clock, hretraces,
    h.timerInterrupts.trans h.expiries.symm⟩

theorem Unwritten.coexist (h : Unwritten s) : Coexist colortvEnabled s := by
  intro d
  refine Unwritten.onTime ?_
  induction d generalizing s with
  | zero => exact h
  | succ d ih => exact ih h.microsecond

/-- A timer that is not armed stays so. -/
theorem elapse_of_disarmed (h : s.itimer.value = 0) :
    (s.elapse colortvEnabled d).itimer.value = 0 := by
  induction d generalizing s with
  | zero => exact h
  | succ d ih =>
    refine ih ?_
    unfold microsecond
    simp only
    rw [if_pos h]
    exact h

/-- The timer runs down, and is armed with its interval. -/
theorem elapse_value (h : s.itimer.value = n) (hinterval : s.itimer.interval = 0) :
    (s.elapse colortvEnabled n).itimer.value = 0 := by
  induction n generalizing s with
  | zero => exact h
  | succ n ih =>
    change ((s.microsecond colortvEnabled).elapse colortvEnabled n).itimer.value = 0
    unfold microsecond
    simp only
    rw [if_neg (by omega)]
    split
    case isTrue hone =>
      refine elapse_of_disarmed ?_
      unfold expire sigalrm
      cases s.handler with
      | none => exact hinterval
      | some handler => cases handler <;> exact hinterval
    case isFalse hone => exact ih (by dsimp only; omega) hinterval

/-- A write stops the timer, at once or when its time is over. -/
theorem not_coexist_write (h : s.intervalTimer.interval = 0) (v : HalfWord) :
    ¬Coexist colortvEnabled (s.writeIntervalTimer v) := by
  intro hcoexist
  exact (hcoexist (16 * v.toNat)).armed (elapse_value rfl h)

/-- In every run from the initialisation on, the clock and the interval timer coexist in every
state if and only if the interval timer is never written. -/
theorem interval_timer_coexists (xbus : XbusSystem) :
    Lib.Always (step colortvEnabled) (Coexist colortvEnabled) es (start xbus) ↔
      ∀ v, AlarmEvent.write v ∉ es := by
  have hwrites : Lib.EveryStep (step colortvEnabled) (fun e _ => ∀ v, e ≠ .write v) es
      (start xbus) ↔ ∀ v, AlarmEvent.write v ∉ es :=
    (Lib.everyStep_iff_forall_mem fun e s => ⟨_, rfl⟩).trans
      ⟨fun h v hv => h _ hv v rfl, fun h e he v hv => h v (hv ▸ he)⟩
  rw [← hwrites]
  refine Lib.always_iff_everyStep (fun s hs => Unwritten.coexist hs) ?_ ?_ (unwritten_start xbus)
  · rintro e s s' hs ⟨⟩ hnot
    cases e with
    | microsecond => exact hs.microsecond
    | write v => exact absurd rfl (hnot v)
    | access xbus =>
      exact ⟨hs.handler, hs.interval, hs.oneShot, hs.armed, hs.written, hs.due, hs.early, hs.clock,
        hs.expiries, hs.timerInterrupts⟩
  · rintro e s s' hs ⟨⟩ hcoexist v rfl
    exact not_coexist_write hs.oneShot v hcoexist

/-- `usim_post_init` has replaced the handler of the interval timer for good, so that no expiry
gives an interrupt. -/
theorem no_timer_interrupt (xbus : XbusSystem) : Lib.Always (step colortvEnabled)
    (fun s => s.handler = some .sigalrmHandler ∧ s.timerInterrupts = 0) es (start xbus) := by
  refine Lib.always_of_step ?_ ⟨rfl, rfl⟩
  rintro e s s' ⟨hhandler, hnone⟩ ⟨⟩
  cases e with
  | write v => exact ⟨hhandler, hnone⟩
  | access xbus => exact ⟨hhandler, hnone⟩
  | microsecond =>
    dsimp only
    unfold microsecond
    simp only
    split_ifs
    · exact ⟨hhandler, hnone⟩
    · unfold expire sigalrm
      simp only [hhandler]
      exact ⟨rfl, hnone⟩
    · exact ⟨hhandler, hnone⟩

/-- The timer is set for 16 microseconds. When it expires, no interrupt is requested, and the
clock has stopped. -/
theorem interval_timer_stops_clock : ¬Lib.Always (step false) (Coexist false) [.write 1]
    (start (.init (fun i => offlineUnit i.val) ⟨0, fun _ _ => 0⟩ .init .init)) := by
  intro h
  exact not_coexist_write rfl 1 (h.2 _ rfl).head

end AlarmState

end Usim
