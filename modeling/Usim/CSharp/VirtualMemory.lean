import Usim.BusAdaptor
import Usim.CSharp.MainMemory
import Usim.CSharp.Operations
import Usim.Lib.Lockstep
import Usim.PhysicalAddress

/-!
# The virtual memory of the C# port

`Vm` of `UCode.cs`, which calls `MainMemory` itself, against `vm` of `uvmem.c` over the main
memory part of `bus-adaptor.c`. What is on the busses above main memory is an environment
that both sides share. It answers requests, and may read and store words of main memory.
-/

namespace Usim

open Lib

/-- A request for a word above main memory. -/
structure BusRequest where
  write : Bool
  paddr : Word
  /-- The word written. -/
  datum : Option Word
  deriving DecidableEq

/-- What comes of a request. -/
structure BusAnswer (ε : Type) where
  /-- The word read. -/
  value : Word
  environment : ε
  /-- The words that devices store in main memory. -/
  stores : List (BitVec 22 × Word)

/-- The busses above main memory. -/
abbrev BusEnvironment (ε : Type) :=
  BusRequest → (BitVec 22 → Bool × Word) → ε → Except ErrCall (BusAnswer ε)

/-- The environment, and the requests forwarded to it. -/
structure Forwarded (ε : Type) where
  environment : ε
  requests : List BusRequest

/-- The request of an access. -/
def busRequest (write : Bool) (paddr v : Word) : BusRequest :=
  ⟨write, paddr, if write then some v else none⟩

/-! ### The C program -/

variable {ε δ : Type}

/-- `bus_adaptor_rw`, with the part above main memory given. -/
def overMainMemory (above : BusRw (Bus δ)) : BusRw (Bus δ) := fun write paddr v b =>
  if pageNumber paddr ≤ 0o35773 then
    if write then
      .ok (v, { b with dev.mainMemory := (mainMemoryWrite b.dev.mainMemory paddr v).2 })
    else .ok ((mainMemoryRead b.dev.mainMemory paddr).2, b)
  else above write paddr v b

/-- The bus adaptor is of this form. -/
theorem overMainMemory_busAdaptorRw (routines : BusRoutines δ) :
    overMainMemory (busAdaptorRw routines) = busAdaptorRw routines := by
  funext write paddr v b
  unfold overMainMemory
  split
  case isTrue hpage =>
    have hlt : (pageNumber paddr).toNat < 0o35774 := Nat.lt_succ_of_le hpage
    cases write with
    | true => exact (busAdaptorRw_write routines hlt).symm
    | false => exact (busAdaptorRw_read routines hlt).symm
  · rfl

/-- The environment behind `bus_adaptor_rw`. -/
def forwardRw (serve : BusEnvironment ε) : BusRw (Bus (Forwarded ε)) := fun write paddr v b =>
  let request := busRequest write paddr v
  match serve request (fun a => mainMemoryRead b.dev.mainMemory (a.setWidth 32))
    b.dev.devices.environment with
  | .error e => .error e
  | .ok answer =>
    .ok (if write then v else answer.value, { b with
      dev.mainMemory := answer.stores.foldl
        (fun mm w => (mainMemoryWrite mm (w.1.setWidth 32) w.2).2) b.dev.mainMemory
      dev.devices := ⟨answer.environment, b.dev.devices.requests ++ [request]⟩ })

/-- The maps of `uvmem.c`, and what is on the bus. -/
structure VirtualMemory (ε : Type) where
  maps : Maps
  bus : BusState (Bus (Forwarded ε))

/-- What the processor does with the virtual memory. -/
inductive VmEvent
  | translate (vaddr : Word)
  | writeMap (vma md : Word)
  /-- A read or a write of `v`. -/
  | access (write : Bool) (vaddr v : Word)
  deriving DecidableEq

/-- What it gets back. -/
inductive VmAnswer
  | translation (t : Translation)
  | done
  /-- The page fault flag, and the word. -/
  | word (vmaok : Bool) (w : Word)
  deriving DecidableEq

/-- One event in the C program. -/
def VirtualMemory.step (serve : BusEnvironment ε) (e : VmEvent) (s : VirtualMemory ε) :
    Except Fault (VmAnswer × VirtualMemory ε) :=
  match e with
  | .translate vaddr => do
    let t ← uvmemVtop s.maps vaddr
    return (.translation t, s)
  | .writeMap vma md => do
    let maps ← uvmemWriteMap s.maps vma md
    return (.done, { s with maps := maps })
  | .access write vaddr v => do
    let (w, b) ← vm (overMainMemory (forwardRw serve)) write vaddr v s.maps s.bus
    return (.word b.vmaok w, { s with bus := b })

/-! ### The port -/

/-- The objects behind `Vm`. -/
structure SharpVirtualMemory (ε : Type) where
  /-- The arrays of `Uvmem`. -/
  uvmem : Maps
  /-- `_mainMemory`. -/
  mainMemory : SharpMemory
  /-- `VmaOk`. -/
  vmaOk : Bool
  /-- `BusAdaptor`. -/
  busAdaptor : Forwarded ε

namespace SharpVirtualMemory

/-- `BusAdaptor.Read` and `BusAdaptor.Write`. -/
def busAdaptorRw (serve : BusEnvironment ε) (write : Bool) (paddr v : Word)
    (s : SharpVirtualMemory ε) : Except Thrown (Word × SharpVirtualMemory ε) :=
  let request := busRequest write paddr v
  match serve request (fun a => s.mainMemory.tryReadWord (a.setWidth 32))
    s.busAdaptor.environment with
  | .error e => .error (.bus (.err e))
  | .ok answer =>
    .ok (if write then v else answer.value, { s with
      mainMemory := answer.stores.foldl (fun m w => m.writePhysical (w.1.setWidth 32) w.2)
        s.mainMemory
      busAdaptor := ⟨answer.environment, s.busAdaptor.requests ++ [request]⟩ })

/-- `Vm`. The page 0x3C00 has an address of its own. -/
def vm (serve : BusEnvironment ε) (write : Bool) (vaddr v : Word) (s : SharpVirtualMemory ε) :
    Except Thrown (Word × SharpVirtualMemory ε) := do
  let vaddr := vaddr &&& 0x00FFFFFF
  let t ← UCode.vtop s.uvmem vaddr
  let s := { s with
    vmaOk := if write then t.accessPermission && t.writePermission else t.accessPermission }
  if !s.vmaOk then return (0, s)
  else
    let paddr := if t.physicalPageNumber = 0x3C00 then 0x3C0000 ||| (vaddr &&& 0x7FFF) else t.paddr
    let dispatchPn := (paddr >>> 8) &&& 0x3FFF
    if dispatchPn ≤ 0x3BFB then
      if write then return (v, { s with mainMemory := s.mainMemory.writePhysical paddr v })
      else return (s.mainMemory.readPhysical paddr, s)
    else s.busAdaptorRw serve write paddr v

/-- One event in the port. -/
def step (serve : BusEnvironment ε) (e : VmEvent) (s : SharpVirtualMemory ε) :
    Except Thrown (VmAnswer × SharpVirtualMemory ε) :=
  match e with
  | .translate vaddr => do
    let t ← UCode.vtop s.uvmem vaddr
    return (.translation t, s)
  | .writeMap vma md => do
    let maps ← UCode.writeMap s.uvmem vma md
    return (.done, { s with uvmem := maps })
  | .access write vaddr v => do
    let (w, s) ← s.vm serve write vaddr v
    return (.word s.vmaOk w, s)

end SharpVirtualMemory

/-! ### The correspondence -/

/-- Equal maps, equal memories with the same number of populated pages, the same page fault
flag, and the same requests. -/
structure SameMemory (s : VirtualMemory ε) (t : SharpVirtualMemory ε) : Prop where
  maps : t.uvmem = s.maps
  mainMemory : t.mainMemory = s.bus.dev.mainMemory.flat
  vmaok : t.vmaOk = s.bus.vmaok
  forwarded : t.busAdaptor = s.bus.dev.devices

/-- The event is no access that translates to the pages 035774-035777. -/
def OutsideAMemory : VmEvent → VirtualMemory ε → Prop
  | .access _ vaddr _, s => ¬IsAMemoryPage (s.maps.page vaddr)
  | _, _ => True

/-- A bus address has 22 bits. -/
theorem Maps.busAddress_lt (m : Maps) (vaddr : Word) : (m.busAddress vaddr).toNat < 4194304 := by
  by_cases hpage : m.page vaddr = 0o36000#14
  · rw [m.busAddress_tv hpage, BitVec.toNat_setWidth]
    have hlt := (0o170#7 ++ (vaddr.setWidth 15 : BitVec 15)).isLt
    omega
  · rw [m.busAddress_of_ne hpage, BitVec.toNat_setWidth]
    have hlt := (m.page vaddr ++ offsetField vaddr).isLt
    omega

/-- The words that devices store. -/
theorem flat_foldl_stores (stores : List (BitVec 22 × Word)) (mm : MainMemory) :
    stores.foldl (fun m w => m.writePhysical (w.1.setWidth 32) w.2) mm.flat =
      (stores.foldl (fun mm w => (mainMemoryWrite mm (w.1.setWidth 32) w.2).2) mm).flat := by
  induction stores generalizing mm with
  | nil => rfl
  | cons w stores ih =>
    have hlt : (w.1.setWidth 32 : Word).toNat < 4194304 := by
      rw [BitVec.toNat_setWidth]
      have hw := w.1.isLt
      omega
    rw [List.foldl_cons, List.foldl_cons, mm.flat_writePhysical w.2 hlt]
    exact ih _

/-- `Vm` in terms of the translation. -/
theorem SharpVirtualMemory.vm_eq (serve : BusEnvironment ε) (write : Bool) (vaddr v : Word)
    (s : SharpVirtualMemory ε) :
    s.vm serve write vaddr v =
      if s.uvmem.permits write vaddr = false then .ok (0, { s with vmaOk := false })
      else if pageNumber (s.uvmem.busAddress vaddr) ≤ 0o35773 then
        if write then .ok (v, { s with
          vmaOk := true
          mainMemory := s.mainMemory.writePhysical (s.uvmem.busAddress vaddr) v })
        else .ok (s.mainMemory.readPhysical (s.uvmem.busAddress vaddr), { s with vmaOk := true })
      else { s with vmaOk := true }.busAdaptorRw serve write (s.uvmem.busAddress vaddr) v := by
  have htv : (vaddr &&& 0x00FFFFFF) &&& 0x7FFF = vaddr &&& 0o77777 := by
    rw [BitVec.and_assoc]
    rfl
  have hok : (if write then (s.uvmem.l2Entry vaddr).getLsbD 23 && (s.uvmem.l2Entry vaddr).getLsbD 22
      else (s.uvmem.l2Entry vaddr).getLsbD 23) = s.uvmem.permits write vaddr := rfl
  have hpaddr : (if ((s.uvmem.page vaddr).setWidth 32 : Word) = 0x3C00 then
      0x3C0000 ||| (vaddr &&& 0o77777) else (s.uvmem.physical vaddr).setWidth 32) =
      s.uvmem.busAddress vaddr := by
    unfold Maps.busAddress
    by_cases htvPage : s.uvmem.page vaddr = 0o36000#14
    · rw [if_pos htvPage, if_pos ((page_eq_iff _).mpr htvPage)]
    · rw [if_neg htvPage, if_neg fun h => htvPage ((page_eq_iff _).mp h)]
  have hpage : (s.uvmem.busAddress vaddr >>> 8) &&& 0x3FFF =
    pageNumber (s.uvmem.busAddress vaddr) := rfl
  simp only [vm, UCode.vtop_eq, uvmemVtop_eq, Maps.l2Entry_mask, Maps.page_mask, Maps.physical_mask,
    Except.mapError, bind, Except.bind, hok, pure, Except.pure, htv, hpaddr, hpage]
  cases s.uvmem.permits write vaddr with
  | false => rfl
  | true =>
    simp only [Bool.not_true, Bool.false_eq_true, if_false, Bool.true_eq_false]

variable {serve : BusEnvironment ε} {s : VirtualMemory ε} {t : SharpVirtualMemory ε}

/-- The environment answers both sides alike. -/
theorem forwardRw_agrees {b : BusState (Bus (Forwarded ε))} (hmaps : t.uvmem = s.maps)
    (hmemory : t.mainMemory = b.dev.mainMemory.flat) (hok : t.vmaOk = b.vmaok)
    (hforwarded : t.busAdaptor = b.dev.devices) (write : Bool) (paddr v : Word) :
    AgreesUpTo (fun r r' => r.1 = r'.1 ∧ SameMemory { s with bus := r.2 } r'.2)
      (forwardRw serve write paddr v b) (t.busAdaptorRw serve write paddr v) := by
  have hreads : (fun a : BitVec 22 => t.mainMemory.tryReadWord (a.setWidth 32)) =
      fun a => mainMemoryRead b.dev.mainMemory (a.setWidth 32) := by
    funext a
    rw [hmemory]
    refine b.dev.mainMemory.flat_tryReadWord ?_
    rw [BitVec.toNat_setWidth]
    have ha := a.isLt
    omega
  simp only [forwardRw, SharpVirtualMemory.busAdaptorRw, hreads, hforwarded]
  cases serve (busRequest write paddr v)
      (fun a => mainMemoryRead b.dev.mainMemory (a.setWidth 32)) b.dev.devices.environment with
  | error e => trivial
  | ok answer =>
    refine ⟨rfl, hmaps, ?_, hok, rfl⟩
    change answer.stores.foldl _ t.mainMemory = _
    rw [hmemory]
    exact flat_foldl_stores answer.stores b.dev.mainMemory

/-- An access outside the pages of the A memory. -/
theorem SameMemory.access (h : SameMemory s t) {vaddr : Word}
    (hpage : ¬IsAMemoryPage (s.maps.page vaddr)) (write : Bool) (v : Word) :
    AgreesUpTo (fun r r' => r.1 = r'.1 ∧ SameMemory { s with bus := r.2 } r'.2)
      (vm (overMainMemory (forwardRw serve)) write vaddr v s.maps s.bus)
      (t.vm serve write vaddr v) := by
  rw [SharpVirtualMemory.vm_eq, h.maps]
  cases hpermits : s.maps.permits write vaddr with
  | false =>
    rw [vm_fault hpermits, if_pos rfl]
    exact ⟨rfl, rfl, h.mainMemory, rfl, h.forwarded⟩
  | true =>
    have hlt := s.maps.busAddress_lt vaddr
    rw [vm_bus hpermits hpage, if_neg (by decide)]
    unfold busResult overMainMemory
    by_cases hmain : pageNumber (s.maps.busAddress vaddr) ≤ 0o35773
    · rw [if_pos hmain, if_pos hmain]
      cases write with
      | true =>
        simp only [if_true]
        refine ⟨rfl, rfl, ?_, rfl, h.forwarded⟩
        change t.mainMemory.writePhysical _ _ = _
        rw [h.mainMemory]
        exact s.bus.dev.mainMemory.flat_writePhysical v hlt
      | false =>
        simp only [Bool.false_eq_true, if_false]
        refine ⟨?_, rfl, h.mainMemory, rfl, h.forwarded⟩
        rw [SharpMemory.readPhysical_eq, h.mainMemory, s.bus.dev.mainMemory.flat_tryReadWord hlt]
    · rw [if_neg hmain, if_neg hmain]
      have hagrees := @forwardRw_agrees _ serve s
        { t with vmaOk := true, uvmem := s.maps } { s.bus with vmaok := true }
        rfl h.mainMemory rfl h.forwarded write (s.maps.busAddress vaddr) v
      rcases hagrees.cases with ⟨r, r', hr, hr', hvalue⟩ | ⟨e, d, hr, hr'⟩
      · rw [hr, hr']
        exact hvalue
      · rw [hr, hr']
        trivial

/-- The two sides agree on every event. -/
theorem agreeOn_vmEvent {e : VmEvent} (h : SameMemory s t) (he : OutsideAMemory e s) :
    AgreeOn (VirtualMemory.step serve) (SharpVirtualMemory.step serve) SameMemory e s t := by
  unfold AgreeOn VirtualMemory.step SharpVirtualMemory.step
  cases e with
  | translate vaddr =>
    dsimp only
    rw [h.maps, UCode.vtop_eq, uvmemVtop_eq]
    exact ⟨rfl, h⟩
  | writeMap vma md =>
    dsimp only
    rw [h.maps, UCode.writeMap_eq]
    cases uvmemWriteMap s.maps vma md with
    | error e => trivial
    | ok maps => exact ⟨rfl, rfl, h.mainMemory, h.vmaok, h.forwarded⟩
  | access write vaddr v =>
    rcases (@SameMemory.access _ serve _ _ h _ he write v).cases with
      ⟨r, r', hr, hr', hvalue, hsame⟩ | ⟨e, d, hr, hr'⟩
    · dsimp only
      rw [hr, hr']
      refine ⟨?_, hsame⟩
      change VmAnswer.word r.2.vmaok r.1 = VmAnswer.word r'.2.vmaOk r'.1
      rw [hvalue, hsame.vmaok]
    · dsimp only
      rw [hr, hr']
      trivial

/-- From the same maps and memories, with any environment, the C program and the port answer
every list of translations, map writes and accesses outside the pages 035774-035777 alike and
forward the same requests. -/
theorem virtual_memory_port {es : List VmEvent} (h : SameMemory s t)
    (hall : EveryAttempt (fun e s => (VirtualMemory.step serve e s).map Prod.snd) OutsideAMemory
      es s) :
    Lockstep (VirtualMemory.step serve) (SharpVirtualMemory.step serve) SameMemory es s t :=
  lockstep_of_everyAttempt (fun _ _ _ hst he => agreeOn_vmEvent hst he) h hall

/-- A bus on which every word reads as its own address. -/
def echoEnvironment : BusEnvironment Unit := fun request _ _ => .ok ⟨request.paddr, (), []⟩

/-- Every virtual page is on physical page 5, of 8. -/
def fivePages : VirtualMemory Unit where
  maps := onePageMap 5
  bus :=
    { amem := fun _ => 0, mdReg := 0, vmaok := false, promdisabled := false
      interruptPendingFlag := false, dev := ⟨⟨8, fun _ _ => 0⟩, ⟨(), []⟩⟩ }

/-- An access leaves the maps. -/
theorem maps_access {write : Bool} {vaddr v : Word} {s' : VirtualMemory ε}
    (h : (s.step serve (.access write vaddr v)).map Prod.snd = .ok s') : s'.maps = s.maps := by
  simp only [VirtualMemory.step, bind, Except.bind] at h
  cases hvm : vm (overMainMemory (forwardRw serve)) write vaddr v s.maps s.bus with
  | error e =>
    rw [hvm] at h
    cases h
  | ok r =>
    rw [hvm] at h
    cases h
    rfl

/-- A word is written and read on physical page 5. -/
theorem virtual_memory_port_page_five :
    Lockstep (VirtualMemory.step echoEnvironment) (SharpVirtualMemory.step echoEnvironment)
      SameMemory [.access true 3 0o42, .access false 0o403 0] fivePages
      ⟨fivePages.maps, fivePages.bus.dev.mainMemory.flat, false, ⟨(), []⟩⟩ := by
  have hpage : ∀ vaddr, ¬IsAMemoryPage (fivePages.maps.page vaddr) := by
    intro vaddr
    have hfive : fivePages.maps.page vaddr = 5#14 := by
      change pageField (0o60000000 ||| (5 : BitVec 14).setWidth 32) = _
      decide
    rw [hfive]
    decide
  refine virtual_memory_port ⟨rfl, rfl, rfl, rfl⟩ ⟨hpage 3, fun s' hs' => ⟨?_, fun _ _ => trivial⟩⟩
  change ¬IsAMemoryPage (s'.maps.page 0o403)
  rw [maps_access hs']
  exact hpage 0o403

end Usim
