import Usim.State

/-!
# Virtual memory

The two-level address map and the access path of `uvmem.c`, as compiled
without assertions. The bus adaptor is a parameter.
-/

namespace Usim

/-- What `uvmem_vtop` reports about a virtual address. -/
structure Translation where
  /-- The returned physical address. -/
  paddr : Word
  /-- The level-1 entry. -/
  l1Data : Word
  /-- The level-2 entry. -/
  l2Data : Word
  /-- Bits 13-0 of the level-2 entry. -/
  physicalPageNumber : Word
  /-- Bit 22 of the level-2 entry. -/
  writePermission : Bool
  /-- Bit 23 of the level-2 entry. -/
  accessPermission : Bool
  deriving DecidableEq

/-- `uvmem_vtop`: resolve a virtual address. -/
def uvmemVtop (m : Maps) (vaddr : Word) : Except Fault Translation := do
  let vaddr := vaddr &&& 0x00FFFFFF
  let l1Index := (vaddr >>> 13) &&& 0o3777
  let l1Data := (← subscript .l1Map m.l1Map l1Index) &&& 0o37
  let l2Index := (l1Data <<< 5) ||| ((vaddr >>> 8) &&& 0o37)
  let l2Data ← subscript .l2Map m.l2Map l2Index
  let physicalPageNumber := l2Data &&& 0x3FFF
  return {
    paddr := (physicalPageNumber <<< 8) ||| (vaddr &&& 0xFF)
    l1Data := l1Data
    l2Data := l2Data
    physicalPageNumber := physicalPageNumber
    writePermission := l2Data.getLsbD 22
    accessPermission := l2Data.getLsbD 23 }

/-- `uvmem_write_map`: update a level-1 entry, a level-2 entry, or both in this order. -/
def uvmemWriteMap (m : Maps) (vma md : Word) : Except Fault Maps := do
  let l1Index := (md >>> 13) &&& 0o3777
  let m ← (if vma.getLsbD 26 then do
      let l1Map ← assign .l1Map m.l1Map l1Index ((vma >>> 27) &&& 0o37)
      pure { m with l1Map := l1Map }
    else pure m)
  (if vma.getLsbD 25 then do
      let l1Data ← subscript .l1Map m.l1Map l1Index
      let l2Index := (l1Data <<< 5) ||| ((md >>> 8) &&& 0o37)
      let l2Map ← assign .l2Map m.l2Map l2Index (vma &&& 0o77777777)
      pure { m with l2Map := l2Map }
    else pure m)

/-- `bus_adaptor_read` and `bus_adaptor_write` as the virtual memory uses them:
the direction, the physical address and the word written; the word read is returned. -/
abbrev BusRw (β : Type) :=
  Bool → Word → Word → BusState β → Except ErrCall (Word × BusState β)

/-- `vm`: read or write virtual memory. A faulting access returns 0. -/
def vm {β : Type} (busAdaptorRw : BusRw β) (write : Bool) (vaddr v : Word) (m : Maps)
    (b : BusState β) : Except Fault (Word × BusState β) := do
  let vaddr := vaddr &&& 0x00FFFFFF
  let t ← uvmemVtop m vaddr
  let pn := t.physicalPageNumber
  let vmaok := if write then t.accessPermission && t.writePermission else t.accessPermission
  let b := { b with vmaok := vmaok }
  if ¬ vmaok then
    return (0, b)
  else if 0o35774 ≤ pn ∧ pn ≤ 0o35777 then
    let offset := ((pn - 0o35774) <<< 8) + (vaddr &&& 0xFF)
    if write then
      return (v, { b with amem := ← assign .amem b.amem offset v })
    else
      return (← subscript .amem b.amem offset, b)
  else if pn ≤ 0o37777 then
    let paddr := if pn = 0o36000 then 0o17000000 ||| (vaddr &&& 0o77777) else t.paddr
    match busAdaptorRw write paddr v b with
    | .ok r => return r
    | .error e => throw (.err e)
  else
    throw (.err ⟨"vm: " ++ (if write then "write" else "read") ++
      " impossible vaddr:#o%08o pn:#o%08o", [vaddr.toNat, pn.toNat]⟩)

/-- The virtual memory of `uvmem.c` over a bus. -/
def uvmemPort {β : Type} (busAdaptorRw : BusRw β) (busReset : BusState β → Bool × β) :
    VmPort β where
  vm := vm busAdaptorRw
  busReset := busReset

end Usim
