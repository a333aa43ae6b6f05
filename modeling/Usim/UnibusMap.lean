import Usim.Lib.Runs
import Usim.XbusDevices

/-!
# Transfers through the Unibus map

A word of the Xbus takes two accesses of the Unibus, the low half first. Between
the two, the other pages of the map may be used, and the memory written.
-/

namespace Usim

open Lib

/-- An address in the window of the Unibus map. -/
abbrev MapAddress := { uaddr : Word // 0o140000 ≤ uaddr ∧ uaddr ≤ 0o177777 }

/-- What happens on the busses: an access through the Unibus map, and a write of the
main memory. -/
inductive MapEvent where
  /-- An access through the Unibus map. -/
  | access (write : Bool) (uaddr : MapAddress) (pv : HalfWord)
  /-- A write of the main memory. -/
  | memoryWrite (paddr v : Word)

/-- The page of the map that is used. -/
def MapEvent.page : MapEvent → Option (Fin 16)
  | .access _ uaddr _ => some (unibusMapPage uaddr)
  | .memoryWrite _ _ => none

/-- Two accesses of one location, the low half and the high half, and what happens
in between: nothing through the same page. -/
structure Pair (low high : MapAddress) (mid : List MapEvent) : Prop where
  /-- The first accesses the low half. -/
  lowHalf : hiword low = false
  /-- The second accesses the high half. -/
  highHalf : hiword high = true
  /-- They access one location. -/
  location : low.val >>> 2 = high.val >>> 2
  /-- The page is not used otherwise. -/
  alone : ∀ e ∈ mid, e.page ≠ some (unibusMapPage low)

namespace BusState

variable {δ : Type}

/-- The mapping register of an address. -/
def mappingRegister (b : BusGlobals δ) (uaddr : Word) : HalfWord :=
  b.mapping.registers (unibusMapPage uaddr)

/-- The mapped address. -/
def mapped (b : BusGlobals δ) (uaddr : Word) : Word :=
  mappedPaddr (b.mappingRegister uaddr) uaddr

/-- The page of the map responds to an access. -/
def responds (b : BusGlobals δ) (write : Bool) (uaddr : Word) : Bool :=
  mapValid (b.mappingRegister uaddr) && (!write || writePermit (b.mappingRegister uaddr))

/-- The page of the map leads to the Xbus, and not to MD. -/
def OnXbus (b : BusGlobals δ) (uaddr : Word) : Prop :=
  xbusPageNumber (b.mappingRegister uaddr) < 0o37000

/-- The mapped address is a word of the populated main memory. -/
def Populated (b : BusGlobals δ) (uaddr : Word) : Prop :=
  (pageNumber (b.mapped uaddr)).toNat ≤ 0o35773 ∧
    (pageNumber (b.mapped uaddr)).toNat < b.memory.npages

/-- Load the buffer of a page. -/
def setBuffer (uaddr : Word) (v : HalfWord) (b : BusGlobals δ) : BusGlobals δ :=
  b.onMapping fun m => { m with buffers := Function.update m.buffers (unibusMapPage uaddr) v }

/-- Store a word in the main memory. -/
def setMemory (mm : MainMemory) (b : BusGlobals δ) : BusGlobals δ := { b with dev.mainMemory := mm }

end BusState

/-- The two addresses of a pair lie in one page of the map. -/
theorem Pair.page {low high : MapAddress} {mid : List MapEvent} (h : Pair low high mid) :
    unibusMapPage high = unibusMapPage low := by
  have hlocation := congrArg BitVec.toNat h.location
  rw [toNat_shiftRight, toNat_shiftRight] at hlocation
  have hpage (uaddr : MapAddress) : ((uaddr.val - 0o140000) / 0o2000).toNat =
      (uaddr.val.toNat - 0o140000) / 0o2000 := by
    rw [BitVec.toNat_udiv, BitVec.toNat_sub_of_le uaddr.2.1]
    rfl
  have hsame : (high.val.toNat - 0o140000) / 0o2000 = (low.val.toNat - 0o140000) / 0o2000 := by
    have hlow := low.2.1
    have hhigh := high.2.1
    rw [BitVec.le_def] at hlow hhigh
    have hbase : (0o140000 : Word).toNat = 0o140000 := rfl
    omega
  unfold unibusMapPage
  rw [hpage, hpage, hsame]

/-- The two addresses of a pair are mapped alike. -/
theorem Pair.mapped {low high : MapAddress} {mid : List MapEvent} (h : Pair low high mid)
    {δ : Type} (b : BusGlobals δ) : b.mapped high = b.mapped low := by
  unfold BusState.mapped BusState.mappingRegister mappedPaddr
  rw [h.page, h.location]

section

variable {δ : Type} (dev : BusDevices δ)

/-- The Unibus map responds to an address in its window. -/
theorem busAdaptorUnibusRw_window (write : Bool) (uaddr : MapAddress) (pv : HalfWord)
    (b : BusGlobals δ) :
    busAdaptorUnibusRw dev write uaddr pv b = unibusMapRw dev write uaddr pv b :=
  if_pos uaddr.2

/-- An access that a page does not respond to sets the map error, and a read then
reads 0. -/
theorem unibusMapRw_refused {write : Bool} {uaddr : Word} (pv : HalfWord) {b : BusGlobals δ}
    (h : b.responds write uaddr = false) :
    unibusMapRw dev write uaddr pv b =
      .ok (if write then pv else 0, b.onInterface BusInterface.setUnibusMapError) := by
  unfold BusState.responds BusState.mappingRegister at h
  unfold unibusMapRw
  dsimp only
  cases hvalid : mapValid (b.mapping.registers (unibusMapPage uaddr)) with
  | false =>
    rw [if_pos (by decide)]
  | true =>
    rw [hvalid, Bool.true_and] at h
    cases write with
    | false => cases h
    | true =>
      rw [Bool.not_true, Bool.false_or] at h
      rw [h, if_neg (by decide), if_pos (by decide), if_pos rfl]

/-- An access through a page that responds and leads to the Xbus. -/
theorem unibusMapRw_onXbus {write : Bool} {uaddr : Word} (pv : HalfWord) {b : BusGlobals δ}
    (h : b.responds write uaddr = true) (hxbus : b.OnXbus uaddr) :
    unibusMapRw dev write uaddr pv b =
      if write then
        if hiword uaddr then
          (busAdaptorXbusRw (xbusRoutines dev) true (b.mapped uaddr)
            (pv ++ b.mapping.buffers (unibusMapPage uaddr)) b).map fun r => (pv, r.2)
        else .ok (pv, b.setBuffer uaddr pv)
      else if hiword uaddr then .ok (b.mapping.buffers (unibusMapPage uaddr), b)
      else
        (busAdaptorXbusRw (xbusRoutines dev) false (b.mapped uaddr) 0 b).map fun r =>
          (half false r.1, r.2.setBuffer uaddr (half true r.1)) := by
  unfold BusState.responds BusState.mappingRegister at h
  have hpage : ¬xbusPageNumber (b.mapping.registers (unibusMapPage uaddr)) ≥ 0o37000 :=
    BitVec.not_le.mpr hxbus
  have hword : (pv ++ b.mapping.buffers (unibusMapPage uaddr) : Word) =
      (pv.setWidth 32 <<< 16) ||| (b.mapping.buffers (unibusMapPage uaddr)).setWidth 32 := by
    rw [← BitVec.setWidth_append_eq_shiftLeft_setWidth_or, BitVec.setWidth_eq]
  have hmapped : b.mapped uaddr =
      mappedPaddr (b.mapping.registers (unibusMapPage uaddr)) uaddr := rfl
  rw [Bool.and_eq_true] at h
  unfold unibusMapRw
  dsimp only
  rw [h.1, if_neg (by decide), if_neg hpage, hword]
  cases write with
  | false =>
    rw [Bool.false_and, if_neg Bool.false_ne_true, if_neg Bool.false_ne_true,
      if_neg Bool.false_ne_true]
    split
    · rfl
    · rw [hmapped]
      generalize busAdaptorXbusRw (xbusRoutines dev) false _ 0 b = x
      cases x <;> rfl
  | true =>
    rw [Bool.not_true, Bool.false_or] at h
    rw [h.2, if_neg (by decide), if_pos rfl, if_pos rfl]
    split
    · rw [hmapped]
      generalize busAdaptorXbusRw (xbusRoutines dev) true _ _ b = x
      cases x <;> rfl
    · rfl

/-- An access through a page that responds and leads to MD. -/
theorem unibusMapRw_onMd {write : Bool} {uaddr : Word} (pv : HalfWord) {b : BusGlobals δ}
    (h : b.responds write uaddr = true) (hmd : ¬b.OnXbus uaddr) :
    unibusMapRw dev write uaddr pv b =
      if write then .ok (pv, { b with mdReg := replaceHalf (hiword uaddr) b.mdReg pv })
      else .ok (half (hiword uaddr) b.mdReg, b) := by
  unfold BusState.responds BusState.mappingRegister at h
  have hpage : xbusPageNumber (b.mapping.registers (unibusMapPage uaddr)) ≥ 0o37000 :=
    BitVec.not_lt.mp hmd
  rw [Bool.and_eq_true] at h
  unfold unibusMapRw
  dsimp only
  rw [h.1, if_neg (by decide), if_pos hpage]
  cases write with
  | false => rfl
  | true =>
    rw [Bool.not_true, Bool.false_or] at h
    rw [h.2]
    rfl

end

/-- An event that is not an access through a page leaves the buffer of the page, all the
mapping registers and the size of the memory. -/
structure PageFrame (page : Fin 16) (b b' : BusGlobals XbusDevices) : Prop where
  /-- The mapping registers. -/
  registers : b'.mapping.registers = b.mapping.registers
  /-- The buffer of the page. -/
  buffer : b'.mapping.buffers page = b.mapping.buffers page
  /-- The size of the memory. -/
  npages : b'.memory.npages = b.memory.npages

variable (blocking colortvEnabled : Bool) (dev : BusDevices XbusDevices)

/-- One event, and the half word that an access reads or writes. -/
def mapStep : MapEvent → BusGlobals XbusDevices → Except ErrCall (HalfWord × BusGlobals XbusDevices)
  | .access write uaddr pv, b =>
    busAdaptorUnibusRw (dev.withXbus blocking colortvEnabled) write uaddr pv b
  | .memoryWrite paddr v, b => .ok (0, b.setMemory (mainMemoryWrite b.memory paddr v).2)

/-- Events one after the other. -/
def mapRun : List MapEvent → BusGlobals XbusDevices → Except ErrCall (BusGlobals XbusDevices)
  | [], b => .ok b
  | e :: es, b =>
    match mapStep blocking colortvEnabled dev e b with
    | .ok r => mapRun es r.2
    | .error err => .error err

variable {blocking colortvEnabled dev}

/-- An event that does not use a page keeps its frame. -/
theorem pageFrame_mapStep {e : MapEvent} {b : BusGlobals XbusDevices}
    {r : HalfWord × BusGlobals XbusDevices} {page : Fin 16} (hpage : e.page ≠ some page)
    (h : mapStep blocking colortvEnabled dev e b = .ok r) : PageFrame page b r.2 := by
  cases e with
  | memoryWrite paddr v =>
    cases h
    exact ⟨rfl, rfl, mainMemoryWrite_npages _ _ _⟩
  | access write uaddr pv =>
    have hne : page ≠ unibusMapPage uaddr := fun heq => hpage (congrArg some heq.symm)
    rw [mapStep, busAdaptorUnibusRw_window] at h
    cases hresponds : b.responds write uaddr with
    | false =>
      rw [unibusMapRw_refused _ pv hresponds] at h
      cases h
      exact ⟨rfl, rfl, rfl⟩
    | true =>
      by_cases hxbus : b.OnXbus uaddr
      · rw [unibusMapRw_onXbus _ pv hresponds hxbus] at h
        cases write with
        | false =>
          rw [if_neg Bool.false_ne_true] at h
          split at h
          · cases h
            exact ⟨rfl, rfl, rfl⟩
          · obtain ⟨r', hr', rfl⟩ := exists_of_map_eq_ok h
            have hframe := xbusFrame_busAdaptorXbusRw hr'
            have hregisters : r'.2.mapping.registers = b.mapping.registers :=
              congrArg UnibusMapping.registers hframe.mapping
            refine ⟨hregisters, (Function.update_of_ne hne _ _).trans ?_, hframe.npages⟩
            exact congrFun (congrArg UnibusMapping.buffers hframe.mapping) page
        | true =>
          rw [if_pos rfl] at h
          split at h
          · obtain ⟨r', hr', rfl⟩ := exists_of_map_eq_ok h
            have hframe := xbusFrame_busAdaptorXbusRw hr'
            have hregisters : r'.2.mapping.registers = b.mapping.registers :=
              congrArg UnibusMapping.registers hframe.mapping
            have hbuffers : r'.2.mapping.buffers = b.mapping.buffers :=
              congrArg UnibusMapping.buffers hframe.mapping
            exact ⟨hregisters, congrFun hbuffers page, hframe.npages⟩
          · cases h
            exact ⟨rfl, Function.update_of_ne hne _ _, rfl⟩
      · rw [unibusMapRw_onMd _ pv hresponds hxbus] at h
        split at h <;> cases h <;> exact ⟨rfl, rfl, rfl⟩

/-- Events that do not use a page keep its frame. -/
theorem pageFrame_mapRun {es : List MapEvent} {b b' : BusGlobals XbusDevices} {page : Fin 16}
    (halone : ∀ e ∈ es, e.page ≠ some page)
    (h : mapRun blocking colortvEnabled dev es b = .ok b') : PageFrame page b b' := by
  induction es generalizing b with
  | nil =>
    cases h
    exact ⟨rfl, rfl, rfl⟩
  | cons e es ih =>
    rw [mapRun] at h
    cases hstep : mapStep blocking colortvEnabled dev e b with
    | ok r =>
      rw [hstep] at h
      have hfirst := pageFrame_mapStep (halone e List.mem_cons_self) hstep
      have hrest := ih (fun e' he' => halone e' (List.mem_cons_of_mem e he')) h
      exact ⟨hrest.registers.trans hfirst.registers, hrest.buffer.trans hfirst.buffer,
        hrest.npages.trans hfirst.npages⟩
    | error err =>
      rw [hstep] at h
      cases h

/-- The page of a pair, after the events in between: the same register, the same
buffer, and a memory of the same size. -/
theorem Pair.frame {low high : MapAddress} {mid : List MapEvent} (hpair : Pair low high mid)
    {b b' : BusGlobals XbusDevices} (h : mapRun blocking colortvEnabled dev mid b = .ok b') :
    b'.mapping.buffers (unibusMapPage low) = b.mapping.buffers (unibusMapPage low) ∧
      b'.mappingRegister low = b.mappingRegister low ∧ b'.memory.npages = b.memory.npages := by
  have hframe := pageFrame_mapRun hpair.alone h
  exact ⟨hframe.buffer, congrFun hframe.registers _, hframe.npages⟩

/-- A page responds alike to both halves, and to the same ones later. -/
theorem Pair.responds {low high : MapAddress} {mid : List MapEvent} (hpair : Pair low high mid)
    {δ : Type} {b b' : BusGlobals δ} (write : Bool)
    (h : b'.mappingRegister low = b.mappingRegister low) :
    b'.responds write high = b.responds write low ∧ (b'.OnXbus high ↔ b.OnXbus low) ∧
      b'.mapped high = b.mapped low := by
  have hhigh : b'.mappingRegister high = b.mappingRegister low := by
    rw [← h]
    exact congrArg b'.mapping.registers hpair.page
  unfold BusState.responds BusState.OnXbus BusState.mapped
  rw [hhigh]
  unfold mappedPaddr
  rw [hpair.location]
  exact ⟨rfl, Iff.rfl, rfl⟩

/-- A write pair makes one access of the Xbus, with the whole word. -/
theorem mapStep_write_pair {low high : MapAddress} {mid : List MapEvent} (lo hi : HalfWord)
    {b b₂ : BusGlobals XbusDevices} {r : HalfWord × BusGlobals XbusDevices}
    (hpair : Pair low high mid) (hresponds : b.responds true low = true) (hxbus : b.OnXbus low)
    (hlow : mapStep blocking colortvEnabled dev (.access true low lo) b = .ok r)
    (hmid : mapRun blocking colortvEnabled dev mid r.2 = .ok b₂) :
    r.2 = b.setBuffer low lo ∧
      mapStep blocking colortvEnabled dev (.access true high hi) b₂ =
        (busAdaptorXbusRw (xbusRoutines (dev.withXbus blocking colortvEnabled)) true
          (b.mapped low) (hi ++ lo) b₂).map fun r => (hi, r.2) := by
  rw [mapStep, busAdaptorUnibusRw_window, unibusMapRw_onXbus _ lo hresponds hxbus, if_pos rfl,
    if_neg (hpair.lowHalf ▸ Bool.false_ne_true)] at hlow
  cases hlow
  obtain ⟨hbuffer, hregister, -⟩ := hpair.frame hmid
  obtain ⟨hresponds', hxbus', hmapped⟩ := hpair.responds true hregister
  refine ⟨rfl, ?_⟩
  rw [mapStep, busAdaptorUnibusRw_window,
    unibusMapRw_onXbus _ hi (hresponds'.trans hresponds) (hxbus'.mpr hxbus), if_pos rfl,
    if_pos hpair.highHalf, hpair.page, hbuffer, hmapped]
  have hlo : (b.setBuffer low lo).mapping.buffers (unibusMapPage low) = lo :=
    Function.update_self _ _ _
  rw [hlo]
  rfl

/-- A read pair makes one access of the Xbus and returns the halves of the word. -/
theorem mapStep_read_pair {low high : MapAddress} {mid : List MapEvent} {pv pv' : HalfWord}
    {b b₂ : BusGlobals XbusDevices} {r : HalfWord × BusGlobals XbusDevices}
    (hpair : Pair low high mid) (hresponds : b.responds false low = true) (hxbus : b.OnXbus low)
    (hlow : mapStep blocking colortvEnabled dev (.access false low pv) b = .ok r)
    (hmid : mapRun blocking colortvEnabled dev mid r.2 = .ok b₂) :
    ∃ v32 b₁, busAdaptorXbusRw (xbusRoutines (dev.withXbus blocking colortvEnabled)) false
        (b.mapped low) 0 b = .ok (v32, b₁) ∧
      r = (half false v32, b₁.setBuffer low (half true v32)) ∧
      mapStep blocking colortvEnabled dev (.access false high pv') b₂ =
        .ok (half true v32, b₂) := by
  rw [mapStep, busAdaptorUnibusRw_window, unibusMapRw_onXbus _ pv hresponds hxbus,
    if_neg Bool.false_ne_true, if_neg (hpair.lowHalf ▸ Bool.false_ne_true)] at hlow
  obtain ⟨⟨v32, b₁⟩, hread, rfl⟩ := exists_of_map_eq_ok hlow
  have hkept := xbusFrame_busAdaptorXbusRw hread
  obtain ⟨hbuffer, hregister, -⟩ := hpair.frame hmid
  have hregister' : b₂.mappingRegister low = b.mappingRegister low :=
    hregister.trans (congrFun (congrArg UnibusMapping.registers hkept.mapping) _)
  obtain ⟨hresponds', hxbus', -⟩ := hpair.responds false hregister'
  have hhi : b₂.mapping.buffers (unibusMapPage high) = half true v32 := by
    rw [hpair.page, hbuffer]
    exact Function.update_self _ _ _
  refine ⟨v32, b₁, hread, rfl, ?_⟩
  rw [mapStep, busAdaptorUnibusRw_window,
    unibusMapRw_onXbus _ pv' (hresponds'.trans hresponds) (hxbus'.mpr hxbus),
    if_neg Bool.false_ne_true, if_pos hpair.highHalf, hhi]

/-- The second memory is the first with one word replaced. -/
structure StoresOnly (paddr v : Word) (mm mm' : MainMemory) : Prop where
  /-- The size. -/
  npages : mm'.npages = mm.npages
  /-- The words. -/
  word : ∀ paddr', mm'.word paddr' =
    if pageNumber paddr' = pageNumber paddr ∧ pageOffset paddr' = pageOffset paddr then v
    else mm.word paddr'

/-- A write of a populated word. -/
theorem busAdaptorXbusRw_write_populated {δ : Type} (routines : BusRoutines (BusSide δ))
    {paddr : Word} (v : Word) {b : BusGlobals δ} (hpage : (pageNumber paddr).toNat ≤ 0o35773)
    (hpopulated : (pageNumber paddr).toNat < b.memory.npages) :
    ∃ mm, busAdaptorXbusRw routines true paddr v b = .ok (v, b.setMemory mm) ∧
      StoresOnly paddr v b.memory mm := by
  have hpn : pageNumber paddr ≤ 0o35773 := hpage
  refine ⟨(mainMemoryWrite b.memory paddr v).2, ?_, mainMemoryWrite_npages _ _ _,
    mainMemoryWrite_word v hpopulated⟩
  unfold busAdaptorXbusRw
  dsimp only
  rw [if_pos hpn, if_pos rfl]
  rfl

/-- A read of a populated word. -/
theorem busAdaptorXbusRw_read_populated {δ : Type} (routines : BusRoutines (BusSide δ))
    {paddr : Word} (v : Word) {b : BusGlobals δ} (hpage : (pageNumber paddr).toNat ≤ 0o35773)
    (hpopulated : (pageNumber paddr).toNat < b.memory.npages) :
    busAdaptorXbusRw routines false paddr v b = .ok (b.memory.word paddr, b) := by
  have hpn : pageNumber paddr ≤ 0o35773 := hpage
  have hread : mainMemoryRead b.dev.mainMemory paddr = (true, b.memory.word paddr) :=
    mainMemoryRead_eq hpopulated
  unfold busAdaptorXbusRw
  dsimp only
  rw [if_pos hpn, if_neg Bool.false_ne_true, hread]

variable (blocking colortvEnabled dev)

/-- Transfers through the Unibus map, in any state of the busses and with anything else
happening between the two halves. -/
structure WordAtomic : Prop where
  /-- A write pair loads the buffer of its page, and then makes one access of the Xbus with
  the whole word, whose halves are `hi` and `lo`. -/
  write : ∀ {low high : MapAddress} {mid : List MapEvent} (lo hi : HalfWord)
    {b b₂ : BusGlobals XbusDevices} {r : HalfWord × BusGlobals XbusDevices},
    Pair low high mid → b.responds true low = true → b.OnXbus low →
    mapStep blocking colortvEnabled dev (.access true low lo) b = .ok r →
    mapRun blocking colortvEnabled dev mid r.2 = .ok b₂ →
    r.2 = b.setBuffer low lo ∧
      mapStep blocking colortvEnabled dev (.access true high hi) b₂ =
        (busAdaptorXbusRw (xbusRoutines (dev.withXbus blocking colortvEnabled)) true
          (b.mapped low) (hi ++ lo) b₂).map fun r => (hi, r.2)
  /-- If the mapped word is populated, exactly that word is stored. -/
  writeMemory : ∀ {low high : MapAddress} {mid : List MapEvent} (lo hi : HalfWord)
    {b b₂ : BusGlobals XbusDevices} {r : HalfWord × BusGlobals XbusDevices},
    Pair low high mid → b.responds true low = true → b.OnXbus low → b.Populated low →
    mapStep blocking colortvEnabled dev (.access true low lo) b = .ok r →
    mapRun blocking colortvEnabled dev mid r.2 = .ok b₂ →
    r.2.memory = b.memory ∧ ∃ mm,
      mapStep blocking colortvEnabled dev (.access true high hi) b₂ = .ok (hi, b₂.setMemory mm) ∧
        StoresOnly (b.mapped low) (hi ++ lo) b₂.memory mm
  /-- A read pair makes one access of the Xbus, at the low half, and returns the two
  halves of the word read. -/
  read : ∀ {low high : MapAddress} {mid : List MapEvent} {pv pv' : HalfWord}
    {b b₂ : BusGlobals XbusDevices} {r : HalfWord × BusGlobals XbusDevices},
    Pair low high mid → b.responds false low = true → b.OnXbus low →
    mapStep blocking colortvEnabled dev (.access false low pv) b = .ok r →
    mapRun blocking colortvEnabled dev mid r.2 = .ok b₂ →
    ∃ v32 b₁, busAdaptorXbusRw (xbusRoutines (dev.withXbus blocking colortvEnabled)) false
        (b.mapped low) 0 b = .ok (v32, b₁) ∧
      r = (half false v32, b₁.setBuffer low (half true v32)) ∧
      mapStep blocking colortvEnabled dev (.access false high pv') b₂ = .ok (half true v32, b₂)
  /-- If the mapped word is populated, the halves are those of the word at the time of
  the low read. -/
  readMemory : ∀ {low high : MapAddress} {mid : List MapEvent} {pv pv' : HalfWord}
    {b b₂ : BusGlobals XbusDevices} {r : HalfWord × BusGlobals XbusDevices},
    Pair low high mid → b.responds false low = true → b.OnXbus low → b.Populated low →
    mapStep blocking colortvEnabled dev (.access false low pv) b = .ok r →
    mapRun blocking colortvEnabled dev mid r.2 = .ok b₂ →
    r = (half false (b.memory.word (b.mapped low)),
        b.setBuffer low (half true (b.memory.word (b.mapped low)))) ∧
      mapStep blocking colortvEnabled dev (.access false high pv') b₂ =
        .ok (half true (b.memory.word (b.mapped low)), b₂)
  /-- An access that a page does not respond to sets the map error and changes nothing else. -/
  refused : ∀ {write : Bool} {uaddr : MapAddress} {pv : HalfWord} {b : BusGlobals XbusDevices},
    b.responds write uaddr = false →
    mapStep blocking colortvEnabled dev (.access write uaddr pv) b =
      .ok (if write then pv else 0, b.onInterface BusInterface.setUnibusMapError)
  /-- An access through a page that leads to MD accesses a half of MD at once. -/
  md : ∀ {write : Bool} {uaddr : MapAddress} {pv : HalfWord} {b : BusGlobals XbusDevices},
    b.responds write uaddr = true → ¬b.OnXbus uaddr →
    mapStep blocking colortvEnabled dev (.access write uaddr pv) b =
      if write then .ok (pv, { b with mdReg := replaceHalf (hiword uaddr) b.mdReg pv })
      else .ok (half (hiword uaddr) b.mdReg, b)

/-- Transfers through the Unibus map are atomic, apart from those of MD. -/
theorem unibus_map_word_atomic : WordAtomic blocking colortvEnabled dev where
  write := mapStep_write_pair
  writeMemory := by
    intro low high mid lo hi b b₂ r hpair hresponds hxbus hpopulated hlow hmid
    obtain ⟨hbuffer, hhigh⟩ := mapStep_write_pair lo hi hpair hresponds hxbus hlow hmid
    have hnpages : b₂.memory.npages = b.memory.npages := by
      rw [(hpair.frame hmid).2.2, hbuffer]
      rfl
    obtain ⟨mm, hwrite, hstores⟩ := busAdaptorXbusRw_write_populated
      (xbusRoutines (dev.withXbus blocking colortvEnabled)) (hi ++ lo) hpopulated.1
      (hnpages ▸ hpopulated.2)
    have hmemory : r.2.memory = b.memory := by
      rw [hbuffer]
      rfl
    refine ⟨hmemory, mm, ?_, hstores⟩
    rw [hhigh, hwrite]
    rfl
  read := mapStep_read_pair
  readMemory := by
    intro low high mid pv pv' b b₂ r hpair hresponds hxbus hpopulated hlow hmid
    obtain ⟨v32, b₁, hread, hr, hhigh⟩ := mapStep_read_pair hpair hresponds hxbus hlow hmid
    rw [busAdaptorXbusRw_read_populated _ 0 hpopulated.1 hpopulated.2] at hread
    cases hread
    exact ⟨hr, hhigh⟩
  refused := by
    intro write uaddr pv b h
    rw [mapStep, busAdaptorUnibusRw_window]
    exact unibusMapRw_refused _ pv h
  md := by
    intro write uaddr pv b h hmd
    rw [mapStep, busAdaptorUnibusRw_window]
    exact unibusMapRw_onMd _ pv h hmd

/-- A port without a device. -/
def emptyPort (w : ℕ) : Port w XbusDevices := ⟨fun _ pv b => .ok (pv, b), fun _ _ b => .ok b⟩

/-- A bus without devices on the Unibus. -/
def bareDevices : BusDevices XbusDevices where
  colortvEnabled := false
  tvScreen := emptyPort 32
  tvControl := emptyPort 32
  colortvScreen := emptyPort 32
  colortvControl := emptyPort 32
  diskController := emptyPort 32
  iobUnibus := emptyPort 16
  diagnosticInterface := emptyPort 16
  tapeControllerUnibus := emptyPort 16
  lashup := ⟨0, fun _ d => (none, d)⟩

/-- The busses at the start, with two pages of memory and these mapping registers. -/
def mappedBus (registers : Fin 16 → HalfWord) : BusGlobals XbusDevices where
  amem := fun _ => 0
  mdReg := 0
  vmaok := true
  promdisabled := false
  interruptPendingFlag := false
  dev := {
    mainMemory := ⟨2, fun _ _ => 0⟩
    devices := {
      interruptStatusReg := 0
      busInterface := ⟨0, false, false, 0, false, 0⟩
      unibusMapping := ⟨registers, fun _ => 0⟩
      devices := ⟨.init (fun i => offlineUnit (BitVec.ofNat 32 i)) ⟨0, fun _ _ => 0⟩, .init,
        .init⟩ } }

/-- The map that leads page by page to the first pages of the memory, writable. -/
def firstPages : Fin 16 → HalfWord := fun page => 0o140000 ||| BitVec.ofNat 16 page

/-- The word at address 0 is written through page 0 of the map, between the halves the
word at address 256 through page 1, and the word at address 0 by the processor. -/
theorem unibus_map_word_atomic_interleaved :
    ∃ b₂ mm, mapRun true false bareDevices [.access true ⟨0o142000, by decide⟩ 2, .memoryWrite 0 7]
        ((mappedBus firstPages).setBuffer 0o140000 1) = .ok b₂ ∧
      mapStep true false bareDevices (.access true ⟨0o140002, by decide⟩ 3) b₂ =
        .ok (3, b₂.setMemory mm) ∧ mm.word 0 = 0x00030001 := by
  have hpair : Pair ⟨0o140000, by decide⟩ ⟨0o140002, by decide⟩
      [.access true ⟨0o142000, by decide⟩ 2, .memoryWrite 0 7] :=
    ⟨rfl, rfl, rfl, by decide⟩
  have hxbus : (mappedBus firstPages).OnXbus 0o140000 := by
    unfold BusState.OnXbus
    decide
  have hlow : mapStep true false bareDevices (.access true ⟨0o140000, by decide⟩ 1)
      (mappedBus firstPages) = .ok (1, (mappedBus firstPages).setBuffer 0o140000 1) := rfl
  have hhigh := (unibus_map_word_atomic true false bareDevices).writeMemory 1 3 hpair (by decide)
    hxbus ⟨by decide, by decide⟩ hlow rfl
  obtain ⟨-, mm, hstep, hstores⟩ := hhigh
  exact ⟨_, mm, rfl, hstep, hstores.word 0⟩

/-- With two pages of the map that lead to MD, what one writes between the two halves
of the other stays in MD; and a pair for a word that is not populated stores nothing. -/
theorem unibus_map_not_word_atomic :
    (¬∀ (low high : MapAddress) (mid : List MapEvent) (lo hi : HalfWord)
      (b b₂ : BusGlobals XbusDevices) (r r' : HalfWord × BusGlobals XbusDevices),
      Pair low high mid → b.responds true low = true → ¬b.OnXbus low →
      mapStep true false bareDevices (.access true low lo) b = .ok r →
      mapRun true false bareDevices mid r.2 = .ok b₂ →
      mapStep true false bareDevices (.access true high hi) b₂ = .ok r' →
      r'.2.mdReg = hi ++ lo) ∧
    ¬∀ (low high : MapAddress) (mid : List MapEvent) (lo hi : HalfWord)
      (b b₂ : BusGlobals XbusDevices) (r r' : HalfWord × BusGlobals XbusDevices),
      Pair low high mid → b.responds true low = true → b.OnXbus low →
      mapStep true false bareDevices (.access true low lo) b = .ok r →
      mapRun true false bareDevices mid r.2 = .ok b₂ →
      mapStep true false bareDevices (.access true high hi) b₂ = .ok r' →
      (mainMemoryRead r'.2.memory (b.mapped low)).2 = hi ++ lo := by
  constructor
  · intro h
    have hmd : ¬(mappedBus fun _ => 0o177777).OnXbus 0o140000 := by
      unfold BusState.OnXbus
      decide
    have htorn := h ⟨0o140000, by decide⟩ ⟨0o140002, by decide⟩
      [.access true ⟨0o142000, by decide⟩ 2] 1 3 _ _ _ _ ⟨rfl, rfl, rfl, by decide⟩ (by decide) hmd
      rfl rfl rfl
    exact absurd htorn (by decide)
  · intro h
    have hxbus : (mappedBus fun _ => 0o140002).OnXbus 0o140000 := by
      unfold BusState.OnXbus
      decide
    have hlost := h ⟨0o140000, by decide⟩ ⟨0o140002, by decide⟩ [] 1 3 _ _ _ _
      ⟨rfl, rfl, rfl, by decide⟩ (by decide) hxbus rfl rfl rfl
    exact absurd hlost (by decide)

end Usim
