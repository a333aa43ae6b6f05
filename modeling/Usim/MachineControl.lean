import Mathlib.Logic.Relation
import Usim.Uexec.Step

/-!
# Power, boot and runs

`machine-control.c` and the main loop of `ucode.c`: the state at power-on, the
boot sequence, and the runs of the machine, in which devices and other threads
act between two microinstructions.
-/

namespace Usim

variable {β : Type} (port : VmPort β)

/-- `machine_control_reset`. -/
def machineControlReset (s : Engine β) : Engine β :=
  { s with halted := false, vmaok := false, promdisabled := false }

/-- `machine_control_boot`. -/
def machineControlBoot (s : Engine β) : Engine β :=
  { machineControlReset s with promdisabled := false, npc := 0, inhibit := true }

/-- The globals when the process starts: all zero but for the loaded PROM. The
control memory is arbitrary. -/
def powerOn (prom : Fin 512 → BitVec 64) (imem : Fin 16384 → BitVec 64) (dev : β) : Engine β where
  amem := fun _ => 0
  mdReg := 0
  vmaok := false
  promdisabled := false
  interruptPendingFlag := false
  dev := dev
  l1Map := fun _ => 0
  l2Map := fun _ => 0
  p0 := 0
  p0Pc := 0
  p0Imem := false
  p1 := 0
  p1Pc := 0
  p1Imem := false
  npc := 0
  iwr := 0
  prom := prom
  imem := imem
  aaddr := 0
  adata := 0
  mmem := fun _ => 0
  maddr := 0
  mdata := 0
  dmem := fun _ => 0
  pdl := fun _ => 0
  spc := fun _ => 0
  spcptr := 0
  dispatchConstant := 0
  pdlPointer := 0
  pdlIndex := 0
  vmaReg := 0
  lc := 0
  oaRegLow := 0
  oaRegHigh := 0
  opc := 0
  q := 0
  oldQ := 0
  interruptControl := 0
  inhibit := false
  op := 0
  popj := false
  newMd := 0
  newMdDelay := 0
  aluCarry := 0
  aluOut := 0
  oal := false
  oah := false
  out := 0
  halted := false
  trace := []

/-- What happens between two observations of the machine. -/
inductive Action (β : Type)
  /-- The main loop executes a microinstruction. -/
  | step
  /-- The machine is booted, as the keyboard does. -/
  | boot
  /-- Devices and other threads change what a bus cycle can change. -/
  | device (b : BusState β)

/-- The state after an action, if the action completes. -/
def act : Action β → Engine β → Option (Engine β)
  | .step, s => match uexecStep port s with
    | .ok _ s' => some s'
    | .error _ _ => none
  | .boot, s => some (machineControlBoot s)
  | .device b, s => some { s with toBusState := b }

/-- The state after a sequence of actions. -/
def perform : List (Action β) → Engine β → Option (Engine β)
  | [], s => some s
  | a :: as, s => (act port a s).bind (perform as)

/-- One action of a run in which every microinstruction starts in a state that meets `guard`. -/
inductive Tick (guard : Engine β → Prop) : Engine β → Engine β → Prop
  | step {s s' : Engine β} (hg : guard s) (h : uexecStep port s = .ok () s') : Tick guard s s'
  | boot (s : Engine β) : Tick guard s (machineControlBoot s)
  | device (s : Engine β) (b : BusState β) : Tick guard s { s with toBusState := b }

/-- `t` is reached from `s` in a run whose microinstructions meet `guard`. -/
abbrev Run (guard : Engine β → Prop) : Engine β → Engine β → Prop :=
  Relation.ReflTransGen (Tick port guard)

/-- A state of the machine some time after it was powered on and booted, every
microinstruction having met `guard`. -/
def Reached (guard : Engine β → Prop) (t : Engine β) : Prop :=
  ∃ prom imem dev, Run port guard (machineControlBoot (powerOn prom imem dev)) t

/-- A property that holds after booting a machine just powered on, and that
microinstructions, boots and devices keep, holds of every state reached. -/
theorem Reached.induction {port : VmPort β} {guard P : Engine β → Prop} {t : Engine β}
    (ht : Reached port guard t)
    (hinit : ∀ prom imem dev, P (machineControlBoot (powerOn prom imem dev)))
    (hstep : ∀ s s', P s → guard s → uexecStep port s = .ok () s' → P s')
    (hboot : ∀ s, P s → P (machineControlBoot s))
    (hdevice : ∀ (s : Engine β) b, P s → P { s with toBusState := b }) : P t := by
  obtain ⟨prom, imem, dev, hrun⟩ := ht
  induction hrun with
  | refl => exact hinit prom imem dev
  | tail _ htick ih =>
    cases htick with
    | step hg h => exact hstep _ _ ih hg h
    | boot => exact hboot _ ih
    | device b => exact hdevice _ b ih

/-- A PROM that starts with the words of a list and is zero beyond them. -/
def promOf (words : List (BitVec 64)) : Fin 512 → BitVec 64 := fun i => words.getD i 0

/-- A step that completes returns. -/
theorem uexecStep_of_act {port : VmPort β} {s t : Engine β} (h : act port .step s = some t) :
    uexecStep port s = .ok () t := by
  cases hstep : uexecStep port s with
  | ok u s' =>
    simp only [act, hstep, Option.some.injEq] at h
    rw [h]
  | error e s' =>
    simp only [act, hstep, reduceCtorEq] at h

/-- An action that completes is one of a run. -/
theorem tick_of_act {port : VmPort β} {a : Action β} {s t : Engine β} (h : act port a s = some t) :
    Tick port (fun _ => True) s t := by
  cases a with
  | step => exact .step trivial (uexecStep_of_act h)
  | boot =>
    cases h
    exact .boot s
  | device b =>
    cases h
    exact .device s b

/-- Actions that complete are a run. -/
theorem run_of_perform {port : VmPort β} {as : List (Action β)} {s t : Engine β}
    (h : perform port as s = some t) : Run port (fun _ => True) s t := by
  induction as generalizing s with
  | nil =>
    cases h
    exact .refl
  | cons a as ih =>
    obtain ⟨s', hs', hrest⟩ := Option.bind_eq_some_iff.mp h
    exact .head (tick_of_act hs') (ih hrest)

/-- What is computed from the state after actions on a machine just booted is
computed from a reached state. -/
theorem reached_of_perform {port : VmPort β} {as : List (Action β)}
    {prom : Fin 512 → BitVec 64} {imem : Fin 16384 → BitVec 64} {dev : β} {γ : Type}
    {f : Engine β → γ} {v : γ}
    (h : (perform port as (machineControlBoot (powerOn prom imem dev))).map f = some v) :
    ∃ t, Reached port (fun _ => True) t ∧ f t = v := by
  obtain ⟨t, ht, hv⟩ := Option.map_eq_some_iff.mp h
  exact ⟨t, ⟨prom, imem, dev, run_of_perform ht⟩, hv⟩

end Usim
