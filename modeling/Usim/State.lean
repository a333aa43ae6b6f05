import Mathlib.Logic.Function.Basic
import Usim.Lib.Outcome
import Usim.M32

/-!
# The processor's globals

The global variables of `uexec.c`, `uvmem.c` and `machine-control.c` as one
state, and the ways a microinstruction can go wrong: an array subscript that
is not below the array's size, or a call of `err`. The bus behind the virtual
memory is a parameter, so that a result about the processor holds for every
behaviour of the devices.
-/

namespace Usim

/-- The arrays of the processor and of its address maps. -/
inductive ArrayName
  | prom | imem | amem | mmem | dmem | pdl | spc | l1Map | l2Map
  deriving DecidableEq, Repr

/-- A call of `err` or `errx`: its format and the values printed with it. -/
structure ErrCall where
  /-- The format text. -/
  format : String
  /-- The printed values. -/
  args : List ℕ
  deriving DecidableEq, Repr

/-- What ends a microinstruction before its last statement. -/
inductive Fault
  /-- A subscript at or beyond the size of its array, which C leaves undefined. -/
  | subscript (array : ArrayName) (index : ℕ)
  /-- A call that ends the process. -/
  | err (call : ErrCall)
  deriving DecidableEq, Repr

/-- The failure is an array subscript out of bounds. -/
def Fault.IsSubscript : Fault → Prop
  | .subscript _ _ => True
  | .err _ => False

/-- Observations of a run that no statement of the source reads: the operations
on the micro stack, the advances of the location counter and the memory reads
that the processor starts. They only serve to state properties of runs. -/
inductive Event
  /-- A word was pushed on the micro stack. -/
  | push (w : Word)
  /-- A word was popped from the micro stack. -/
  | pop (w : Word)
  /-- The word just popped became the target of a transfer. -/
  | resume (w : Word)
  /-- `advanceLC` was called with this location counter and interrupt control. -/
  | advance (lc interruptControl : Word)
  /-- A read of this virtual address was started. -/
  | read (vaddr : Word)
  deriving DecidableEq, Repr

/-- The two levels of the address map, `l1_map` and `l2_map`. -/
structure Maps where
  /-- `l1_map[2048]`, indexed by `vaddr<23:13>`. -/
  l1Map : Fin 2048 → Word
  /-- `l2_map[1024]`, indexed by the level-1 entry and `vaddr<12:8>`. -/
  l2Map : Fin 1024 → Word

/-- The globals that a bus cycle, or a device between two microinstructions,
can change. -/
structure BusState (β : Type) where
  /-- `amem[1024]`. -/
  amem : Fin 1024 → Word
  /-- `md_reg`, which the Unibus map can write. -/
  mdReg : Word
  /-- `machine_state.vmaok`. -/
  vmaok : Bool
  /-- `machine_state.promdisabled`, a bit of the mode register. -/
  promdisabled : Bool
  /-- `interrupt_pending_flag`. -/
  interruptPendingFlag : Bool
  /-- Everything behind the bus. -/
  dev : β

/-- The virtual memory as the processor uses it. -/
structure VmPort (β : Type) where
  /-- `vm`: the direction, the virtual address and the word written; the word
  read is returned. -/
  vm : Bool → Word → Word → Maps → BusState β → Except Fault (Word × BusState β)
  /-- `bus_interface_bus_reset`, which acts on the devices and their interrupts. -/
  busReset : BusState β → Bool × β

/-- A machine to whose bus nothing is attached: every cycle succeeds and reads 0. -/
def noBus : VmPort Unit where
  vm := fun _ _ _ _ b => .ok (0, { b with vmaok := true })
  busReset := fun b => (b.interruptPendingFlag, ())

/-- The globals of the micro engine. -/
structure Engine (β : Type) extends BusState β, Maps where
  /-- The microinstruction being executed. -/
  p0 : BitVec 64
  /-- Where `p0` was fetched. -/
  p0Pc : Word
  /-- Whether `p0` was fetched from the control memory. -/
  p0Imem : Bool
  /-- The prefetched microinstruction. -/
  p1 : BitVec 64
  /-- Where `p1` was fetched. -/
  p1Pc : Word
  /-- Whether `p1` was fetched from the control memory. -/
  p1Imem : Bool
  /-- The next micro PC. -/
  npc : Word
  /-- The word a control-memory write stores. -/
  iwr : BitVec 64
  /-- `prom[512]`. -/
  prom : Fin 512 → BitVec 64
  /-- `imem[16 * 1024]`. -/
  imem : Fin 16384 → BitVec 64
  /-- The A-memory source address. -/
  aaddr : Word
  /-- The A operand, a C `int`. -/
  adata : Word
  /-- `mmem[32]`. -/
  mmem : Fin 32 → Word
  /-- The M source address. -/
  maddr : Word
  /-- The M operand, a C `int`. -/
  mdata : Word
  /-- `dmem[2048]`. -/
  dmem : Fin 2048 → Word
  /-- `pdl[1024]`. -/
  pdl : Fin 1024 → Word
  /-- `spc[32]`, the micro stack. -/
  spc : Fin 32 → Word
  /-- The micro stack pointer. -/
  spcptr : Word
  /-- The dispatch constant. -/
  dispatchConstant : Word
  /-- The PDL pointer. -/
  pdlPointer : Word
  /-- The PDL index. -/
  pdlIndex : Word
  /-- The VMA register. -/
  vmaReg : Word
  /-- The location counter, with its flags in bits 29-26 and NEED-FETCH in bit 31. -/
  lc : Word
  /-- The low modifier of the next microinstruction. -/
  oaRegLow : Word
  /-- The high modifier of the next microinstruction. -/
  oaRegHigh : Word
  /-- The PC of the last microinstruction. -/
  opc : Word
  /-- The Q register. -/
  q : Word
  /-- Q before the last Q control. -/
  oldQ : Word
  /-- The interrupt control register. -/
  interruptControl : Word
  /-- The next microinstruction is not to be executed. -/
  inhibit : Bool
  /-- The opcode. -/
  op : Word
  /-- The microinstruction pops the micro PC. -/
  popj : Bool
  /-- The word of the memory read in progress. -/
  newMd : Word
  /-- How many cycles the read in progress still takes. -/
  newMdDelay : Word
  /-- The carry of the ALU. -/
  aluCarry : Word
  /-- The output of the ALU. -/
  aluOut : Word
  /-- `oaRegLow` is to be merged. -/
  oal : Bool
  /-- `oaRegHigh` is to be merged. -/
  oah : Bool
  /-- The output bus. -/
  out : Word
  /-- `machine_state.halted`. -/
  halted : Bool
  /-- The observations of the run so far. -/
  trace : List Event

/-- A statement of the micro engine. -/
abbrev Micro (β : Type) := EStateM Fault (Engine β)

/-- The array element `a[i]`. -/
def subscript {n : ℕ} {α : Type} (name : ArrayName) (a : Fin n → α) (i : Word) :
    Except Fault α :=
  if h : i.toNat < n then .ok (a ⟨i.toNat, h⟩) else .error (.subscript name i.toNat)

/-- The array `a` after the assignment `a[i] = v`. -/
def assign {n : ℕ} {α : Type} (name : ArrayName) (a : Fin n → α) (i : Word) (v : α) :
    Except Fault (Fin n → α) :=
  if h : i.toNat < n then .ok (Function.update a ⟨i.toNat, h⟩ v)
  else .error (.subscript name i.toNat)

/-- A subscript below the size reads the element. -/
theorem subscript_eq {n : ℕ} {α : Type} {name : ArrayName} {a : Fin n → α} {i : Word}
    (h : i.toNat < n) : subscript name a i = .ok (a ⟨i.toNat, h⟩) := dif_pos h

/-- An assignment below the size updates the element. -/
theorem assign_eq {n : ℕ} {α : Type} {name : ArrayName} {a : Fin n → α} {i : Word} {v : α}
    (h : i.toNat < n) : assign name a i v = .ok (Function.update a ⟨i.toNat, h⟩ v) := dif_pos h

/-- A subscript that is the number of an element reads it. -/
theorem subscript_fin {n : ℕ} {α : Type} {name : ArrayName} {a : Fin n → α} {i : Word}
    {k : Fin n} (h : i.toNat = k) : subscript name a i = .ok (a k) := by
  rw [subscript_eq (h ▸ k.isLt)]
  exact congrArg (fun j => Except.ok (a j)) (Fin.ext h)

/-- An assignment to the number of an element updates it. -/
theorem assign_fin {n : ℕ} {α : Type} {name : ArrayName} {a : Fin n → α} {i : Word} {v : α}
    {k : Fin n} (h : i.toNat = k) : assign name a i v = .ok (Function.update a k v) := by
  rw [assign_eq (h ▸ k.isLt)]
  exact congrArg (fun j => Except.ok (Function.update a j v)) (Fin.ext h)

/-- A subscript fails in one way only. -/
theorem subscript_error {n : ℕ} {α : Type} {name : ArrayName} {a : Fin n → α} {i : Word}
    {e : Fault} (h : subscript name a i = .error e) :
    e = .subscript name i.toNat ∧ n ≤ i.toNat := by
  unfold subscript at h
  split at h
  · cases h
  · cases h
    exact ⟨rfl, by omega⟩

/-- An assignment fails in one way only. -/
theorem assign_error {n : ℕ} {α : Type} {name : ArrayName} {a : Fin n → α} {i : Word} {v : α}
    {e : Fault} (h : assign name a i v = .error e) :
    e = .subscript name i.toNat ∧ n ≤ i.toNat := by
  unfold assign at h
  split at h
  · cases h
  · cases h
    exact ⟨rfl, by omega⟩

variable {β : Type}

/-- Record an observation. -/
def observe (e : Event) : Micro β Unit :=
  modify fun s => { s with trace := s.trace ++ [e] }

/-- End the process. -/
def err {α : Type} (format : String) (args : List ℕ) : Micro β α :=
  throw (.err ⟨format, args⟩)

end Usim
