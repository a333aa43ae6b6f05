import Usim.Uexec.Alu
import Usim.Uexec.Control

/-!
# One step of the micro engine

`uexec_step` in three parts: fetch with the merge of the OA registers, decode
of the common fields, and execution with POPJ. The PC history, which is only
printed, is left out.
-/

namespace Usim

open Lib

variable {β : Type} (port : VmPort β)

/-- `incNPC`: advance the pipeline. -/
def incNPC : Micro β Unit := do
  let s ← get
  let p1 ← fromExcept (if s.promdisabled then subscript .imem s.imem s.npc
    else subscript .prom s.prom s.npc)
  modify fun s => { s with
    p0Imem := s.p1Imem
    p0 := s.p1
    p0Pc := s.p1Pc
    p1Imem := s.promdisabled
    p1 := p1
    p1Pc := s.npc
    npc := if s.npc = 0o37777 then 0 else s.npc + 1
    opc := s.p1Pc }

/-- The memory read in progress: its word reaches MD when the delay runs out. -/
def tickDelay : Micro β Unit := do
  let s ← get
  doWhen (s.newMdDelay ≠ 0) (modify fun s => { s with
    newMdDelay := s.newMdDelay - 1
    mdReg := if s.newMdDelay - 1 = 0 then s.newMd else s.mdReg })

/-- The merge of the OA registers into the microinstruction. -/
def mergeOa : Micro β Unit := do
  modify fun s => { s with
    oal := false
    p0 := if s.oal then s.p0 ||| s.oaRegLow.setWidth 64 else s.p0 }
  modify fun s => { s with
    oah := false
    p0 := if s.oah then s.p0 ||| (s.oaRegHigh.setWidth 64 <<< 26) else s.p0 }

/-- Fetch a microinstruction; the result tells whether it is to be executed. -/
def fetch : Micro β Bool := do
  incNPC
  tickDelay
  let s ← get
  if s.inhibit then
    modify fun s => { s with inhibit := false }
    return false
  else
    mergeOa
    return true

/-- Decode the common fields and read the operands. -/
def decode : Micro β Unit := do
  modify fun s => { s with
    op := ir s.p0 43 2
    popj := ir s.p0 42 1 = 1
    aaddr := ir s.p0 32 10
    maddr := ir s.p0 26 5 }
  let s ← get
  let mdata ← (if ir s.p0 31 1 = 0 then fromExcept (subscript .mmem s.mmem s.maddr)
    else mfread s.maddr)
  let adata ← fromExcept (subscript .amem s.amem s.aaddr)
  modify fun s => { s with
    mdata := mdata
    adata := adata
    iwr := ((adata &&& 0o177777).setWidth 64 <<< 32) ||| mdata.setWidth 64 }

/-- The operation that the opcode selects. -/
def operate : Micro β Unit := do
  let s ← get
  match s.op.toNat with
  | 0 => alu port
  | 1 => jmp port
  | 2 => dsp port
  | 3 => byt port
  | _ => return

/-- The pop of the micro PC after an operation that did not transfer. -/
def finishPopj : Micro β Unit := do
  let s ← get
  doWhen s.popj (do
    let npc ← popTarget port
    modify fun s => { s with npc := npc })

/-- Execute the microinstruction in `p0`. -/
def execute : Micro β Unit := do
  decode
  operate port
  finishPopj port

/-- `uexec_step`. -/
def uexecStep : Micro β Unit := do
  let go ← fetch
  doWhen go (execute port)

end Usim
