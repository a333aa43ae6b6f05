import Usim.MainMemory
import Usim.Uvmem

/-!
# The bus adaptor

The routing of `bus-adaptor.c` for accesses of the processor. The devices on
the Xbus and on the Unibus are parameters.
-/

namespace Usim

/-- What is behind the bus adaptor: the main memory and everything else. -/
structure Bus (δ : Type) where
  /-- The main memory. -/
  mainMemory : MainMemory
  /-- The devices. -/
  devices : δ

/-- The other routines that the bus adaptor calls. -/
structure BusRoutines (δ : Type) where
  /-- `bus_adaptor_xbusio_rw`: the direction, the physical address, and the word written. -/
  xbusioRw : Bool → Word → Word → BusState (Bus δ) → Except ErrCall (Word × BusState (Bus δ))
  /-- `bus_adaptor_unibus_rw`: the direction, the Unibus address, and the half word written. -/
  unibusRw : Bool → Word → BitVec 16 → BusState (Bus δ) →
    Except ErrCall (BitVec 16 × BusState (Bus δ))
  /-- `bus_interface_set_xbus_nxm`. -/
  setXbusNxm : BusState (Bus δ) → BusState (Bus δ)

variable {δ : Type} (routines : BusRoutines δ)

/-- `bus_adaptor_xbus_rw`. The success reported by the main memory is ignored. -/
def busAdaptorXbusRw : BusRw (Bus δ) := fun write paddr v b =>
  let pn := pageNumber paddr
  if pn ≤ 0o35773 then
    if write then
      let mm := (mainMemoryWrite b.dev.mainMemory paddr v).2
      .ok (v, { b with dev := { b.dev with mainMemory := mm } })
    else .ok ((mainMemoryRead b.dev.mainMemory paddr).2, b)
  else if 0o36000 ≤ pn ∧ pn ≤ 0o36777 then routines.xbusioRw write paddr v b
  else .ok (if write then v else 0, routines.setXbusNxm b)

/-- `bus_adaptor_rw`, the body of `bus_adaptor_read` and `bus_adaptor_write`. -/
def busAdaptorRw : BusRw (Bus δ) := fun write paddr v b =>
  let pn := pageNumber paddr
  if pn ≤ 0o35773 then busAdaptorXbusRw routines write paddr v b
  else if 0o36000 ≤ pn ∧ pn ≤ 0o36777 then busAdaptorXbusRw routines write paddr v b
  else if 0o37000 ≤ pn ∧ pn ≤ 0o37777 then
    let uaddr := (((pn - 0o37000) <<< 8) + (paddr &&& 0xFF)) <<< 1
    match routines.unibusRw write uaddr (v.setWidth 16) b with
    | .ok (pv16, b) => .ok (if write then v else pv16.setWidth 32, b)
    | .error e => .error e
  else
    .error ⟨"vm: " ++ (if write then "write" else "read") ++
      " impossible paddr:#o%08o pn:#o%08o", [paddr.toNat, pn.toNat]⟩

/-- A read of a main memory page. -/
theorem busAdaptorRw_read {paddr v : Word} {b : BusState (Bus δ)}
    (h : (pageNumber paddr).toNat < 0o35774) :
    busAdaptorRw routines false paddr v b = .ok ((mainMemoryRead b.dev.mainMemory paddr).2, b) := by
  have hpn : pageNumber paddr ≤ 0o35773 := Nat.le_of_lt_succ h
  simp only [busAdaptorRw, busAdaptorXbusRw, hpn, if_true, Bool.false_eq_true, if_false]

/-- A write of a main memory page. -/
theorem busAdaptorRw_write {paddr v : Word} {b : BusState (Bus δ)}
    (h : (pageNumber paddr).toNat < 0o35774) :
    busAdaptorRw routines true paddr v b =
      .ok (v, { b with dev := { b.dev with
        mainMemory := (mainMemoryWrite b.dev.mainMemory paddr v).2 } }) := by
  have hpn : pageNumber paddr ≤ 0o35773 := Nat.le_of_lt_succ h
  simp only [busAdaptorRw, busAdaptorXbusRw, hpn, if_true]

end Usim
