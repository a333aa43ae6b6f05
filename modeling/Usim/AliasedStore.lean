import Usim.BusAdaptor
import Usim.Lib.History
import Usim.PhysicalAddress
import Usim.Uexec.Registers

/-!
# Virtual memory as an aliased store

A run of map writes and accesses is compared with a reference store that is
computed from the history of the calls alone: the latest level-1 write for a
block, the latest level-2 write under a level-1 entry, and the latest
permitted write to a physical address.
-/

namespace Usim

open Lib

/-- A call of `uvmem_write_map` or of `vm`. -/
inductive StoreCall
  /-- `uvmem_write_map(vma, md)`. -/
  | writeMap (vma md : Word)
  /-- `vm(write, vaddr, v)`. -/
  | access (write : Bool) (vaddr v : Word)
  deriving DecidableEq, Repr

/-- The reference store before the first call. -/
structure Reference where
  /-- The level-1 map. -/
  l1 : BitVec 11 → BitVec 5
  /-- The level-2 map. -/
  l2 : BitVec 5 → BitVec 5 → BitVec 24
  /-- The words of the physical address space. -/
  word : BitVec 22 → Word

namespace Reference

variable (ref : Reference)

/-- The level-1 entry of the latest level-1 write for the block `i`. -/
def l1After (i : BitVec 11) : List StoreCall → BitVec 5 :=
  latest (fun call _ => match call with
    | .writeMap vma md =>
      if vma.getLsbD 26 ∧ l1Field md = i then some (vma.extractLsb' 27 5) else none
    | .access _ _ _ => none) (ref.l1 i)

/-- The level-2 entry of the latest level-2 write under the level-1 entry `e`
for the page `j` of its block. -/
def l2After (e j : BitVec 5) : List StoreCall → BitVec 24 :=
  latest (fun call h => match call with
    | .writeMap vma md =>
      if vma.getLsbD 25 ∧ ref.l1After (l1Field md) (call :: h) = e ∧ l2Field md = j then
        some (vma.setWidth 24) else none
    | .access _ _ _ => none) (ref.l2 e j)

/-- The level-1 entry for a virtual address. -/
def l1Entry (h : List StoreCall) (vaddr : Word) : BitVec 5 := ref.l1After (l1Field vaddr) h

/-- The level-2 entry for a virtual address. -/
def entry (h : List StoreCall) (vaddr : Word) : BitVec 24 :=
  ref.l2After (ref.l1Entry h vaddr) (l2Field vaddr) h

/-- The physical page for a virtual address. -/
def page (h : List StoreCall) (vaddr : Word) : BitVec 14 := (ref.entry h vaddr).setWidth 14

/-- The physical address for a virtual address. -/
def physical (h : List StoreCall) (vaddr : Word) : BitVec 22 :=
  ref.page h vaddr ++ offsetField vaddr

/-- A read needs bit 23 of the level-2 entry, a write bits 23 and 22. -/
def permits (h : List StoreCall) (write : Bool) (vaddr : Word) : Bool :=
  if write then (ref.entry h vaddr).getLsbD 23 && (ref.entry h vaddr).getLsbD 22
  else (ref.entry h vaddr).getLsbD 23

/-- The value of the latest permitted write to the physical address `p`. -/
def wordAfter (p : BitVec 22) : List StoreCall → Word :=
  latest (fun call h => match call with
    | .access write vaddr v =>
      if write ∧ ref.permits h true vaddr ∧ ref.physical h vaddr = p then some v else none
    | .writeMap _ _ => none) (ref.word p)

/-- Every permitted access of the history is to one of the first `npages` pages. -/
def Populated (npages : ℕ) : List StoreCall → Prop
  | [] => True
  | .writeMap _ _ :: h => Populated npages h
  | .access write vaddr _ :: h =>
    (ref.permits h write vaddr → (ref.page h vaddr).toNat < npages) ∧ Populated npages h

end Reference

/-- The maps and what is behind the bus. -/
structure StoreState (δ : Type) where
  /-- The maps. -/
  maps : Maps
  /-- Everything that a bus cycle can change. -/
  bus : BusState (Bus δ)

variable {δ : Type} (routines : BusRoutines δ)

/-- Execute a call; an access returns the word read. -/
def StoreState.call (s : StoreState δ) : StoreCall → Except Fault (Word × StoreState δ)
  | .writeMap vma md => do
    let maps ← uvmemWriteMap s.maps vma md
    return (0, { s with maps := maps })
  | .access write vaddr v => do
    let (w, bus) ← vm (busAdaptorRw routines) write vaddr v s.maps s.bus
    return (w, { s with bus := bus })

/-- Execute a history, whose oldest call is the last in the list. -/
def StoreState.callAll (s : StoreState δ) : List StoreCall → Except Fault (StoreState δ)
  | [] => .ok s
  | call :: h => do
    let t ← s.callAll h
    let (_, u) ← t.call routines call
    return u

/-- The reference store that agrees with a state. -/
def StoreState.reference (s : StoreState δ) : Reference where
  l1 := fun i => (s.maps.l1 i).setWidth 5
  l2 := fun e j => (s.maps.l2 e j).setWidth 24
  word := fun p => s.bus.dev.mainMemory.word (p.setWidth 32)

/-- The state `t` agrees with the reference store after the history `h`. -/
structure StoreState.Agrees (t : StoreState δ) (ref : Reference) (npages : ℕ)
    (h : List StoreCall) : Prop where
  /-- The level-1 map. -/
  l1 : ∀ i, t.maps.l1 i = (ref.l1After i h).setWidth 32
  /-- The level-2 map. -/
  l2 : ∀ e j, t.maps.l2 e j = (ref.l2After e j h).setWidth 32
  /-- The number of populated pages. -/
  npages : t.bus.dev.mainMemory.npages = npages
  /-- The words. -/
  word : ∀ p : BitVec 22, t.bus.dev.mainMemory.word (p.setWidth 32) = ref.wordAfter p h

variable {s t : StoreState δ} {ref : Reference} {npages : ℕ} {h : List StoreCall}

/-- A state agrees with its own reference store before the first call. -/
theorem StoreState.agrees_reference (hs : s.maps.WellFormed) :
    s.Agrees s.reference s.bus.dev.mainMemory.npages [] where
  l1 := fun i => (setWidth_setWidth_of_lt (hs.l1_lt i)).symm
  l2 := fun e j => (setWidth_setWidth_of_lt (hs.l2_lt e j)).symm
  npages := rfl
  word := fun _ => rfl

namespace StoreState.Agrees

/-- The level-1 entries of an agreeing state are those of the reference store. -/
theorem l1Entry (ht : t.Agrees ref npages h) (vaddr : Word) :
    t.maps.l1Entry vaddr = ref.l1Entry h vaddr := by
  rw [Maps.l1Entry, ht.l1, Reference.l1Entry, BitVec.setWidth_setWidth_of_le _ (by decide),
    BitVec.setWidth_eq]

/-- The level-2 entries of an agreeing state are those of the reference store. -/
theorem l2Entry (ht : t.Agrees ref npages h) (vaddr : Word) :
    t.maps.l2Entry vaddr = (ref.entry h vaddr).setWidth 32 := by
  rw [Maps.l2Entry, ht.l1Entry, ht.l2, Reference.entry]

/-- The pages of an agreeing state are those of the reference store. -/
theorem page (ht : t.Agrees ref npages h) (vaddr : Word) :
    t.maps.page vaddr = ref.page h vaddr := by
  rw [Maps.page, ht.l2Entry, Reference.page, pageField,
    BitVec.setWidth_setWidth_of_le _ (by decide)]

/-- The permissions of an agreeing state are those of the reference store. -/
theorem permits (ht : t.Agrees ref npages h) (write : Bool) (vaddr : Word) :
    t.maps.permits write vaddr = ref.permits h write vaddr := by
  have hbit (i : ℕ) (hi : i < 24) :
      ((ref.entry h vaddr).setWidth 32 : Word).getLsbD i = (ref.entry h vaddr).getLsbD i := by
    rw [BitVec.getLsbD_setWidth]
    simp only [show i < 32 by omega, decide_true, Bool.true_and]
  rw [Maps.permits, ht.l2Entry, Reference.permits, hbit 23 (by decide), hbit 22 (by decide)]

/-- The physical addresses of an agreeing state are those of the reference store. -/
theorem physical (ht : t.Agrees ref npages h) (vaddr : Word) :
    t.maps.physical vaddr = ref.physical h vaddr := by
  rw [Maps.physical, ht.page, Reference.physical]

/-- The maps of an agreeing state are well formed. -/
theorem wellFormed (ht : t.Agrees ref npages h) : t.maps.WellFormed where
  l1_lt := fun i => by
    have := (ref.l1After i h).isLt
    rw [ht.l1, BitVec.toNat_setWidth]
    omega
  l2_lt := fun e j => by
    have := (ref.l2After e j h).isLt
    rw [ht.l2, BitVec.toNat_setWidth]
    omega

/-- A map write keeps a state in agreement with the reference store. -/
theorem writeMap (ht : t.Agrees ref npages h) (vma md : Word) :
    t.call routines (.writeMap vma md) = .ok (0, { t with maps := t.maps.write vma md }) ∧
      ({ t with maps := t.maps.write vma md } : StoreState δ).Agrees ref npages
        (.writeMap vma md :: h) := by
  have hl1 (i : BitVec 11) : (t.maps.write vma md).l1 i =
      (ref.l1After i (.writeMap vma md :: h)).setWidth 32 := by
    rw [Maps.l1_write, Reference.l1After, latest_cons_ite rfl, ht.l1, Reference.l1After]
    split <;> rfl
  have hentry : (t.maps.write vma md).l1Entry md =
      ref.l1After (l1Field md) (.writeMap vma md :: h) := by
    rw [Maps.l1Entry, hl1, BitVec.setWidth_setWidth_of_le _ (by decide), BitVec.setWidth_eq]
  refine ⟨?_, hl1, fun e j => ?_, ht.npages, fun p => ?_⟩
  · simp only [call, uvmemWriteMap_eq ht.wellFormed.l1_lt, bind, Except.bind]
    rfl
  · rw [Maps.l2_write, hentry, Reference.l2After, latest_cons_ite rfl, ht.l2, Reference.l2After]
    split <;> rfl
  · rw [Reference.wordAfter, latest_cons_none rfl]
    exact ht.word p

/-- An access that the map does not permit only clears `vmaok`, and reads 0. -/
theorem fault (ht : t.Agrees ref npages h) {write : Bool} {vaddr : Word}
    (hp : ref.permits h write vaddr = false) (v : Word) :
    t.call routines (.access write vaddr v) =
      .ok (0, { t with bus := { t.bus with vmaok := false } }) := by
  rw [← ht.permits] at hp
  simp only [call, vm_fault hp, bind, Except.bind]
  rfl

/-- A permitted access to populated memory is one bus cycle at the physical address. -/
theorem access (ht : t.Agrees ref npages h) (hnpages : npages ≤ 0o35774) {write : Bool}
    {vaddr : Word} (hp : ref.permits h write vaddr = true)
    (hpage : (ref.page h vaddr).toNat < npages) (v : Word) :
    t.call routines (.access write vaddr v) =
      (busResult (busAdaptorRw routines) write ((ref.physical h vaddr).setWidth 32) v
        { t.bus with vmaok := true }).map fun r => (r.1, { t with bus := r.2 }) := by
  rw [← ht.permits] at hp
  have hmemory : ¬ IsAMemoryPage (t.maps.page vaddr) := by
    rw [ht.page]
    intro hA
    have hlo : 0o35774 ≤ (ref.page h vaddr).toNat := hA.1
    omega
  have htv : t.maps.page vaddr ≠ 0o36000#14 := by
    rw [ht.page]
    intro heq
    rw [heq] at hpage
    have : (0o36000#14).toNat = 0o36000 := rfl
    omega
  have haddress : t.maps.busAddress vaddr = (ref.physical h vaddr).setWidth 32 := by
    rw [Maps.busAddress, if_neg htv, ht.physical]
  rw [← haddress]
  simp only [call, vm_bus hp hmemory]
  cases busResult (busAdaptorRw routines) write (t.maps.busAddress vaddr) v
    { t.bus with vmaok := true } <;> rfl

/-- A permitted read of populated memory returns the latest value written to
the physical address. -/
theorem read (ht : t.Agrees ref npages h) (hnpages : npages ≤ 0o35774) {vaddr : Word}
    (hp : ref.permits h false vaddr = true) (hpage : (ref.page h vaddr).toNat < npages)
    (v : Word) :
    t.call routines (.access false vaddr v) =
      .ok (ref.wordAfter (ref.physical h vaddr) h,
        { t with bus := { t.bus with vmaok := true } }) := by
  have hnumber := toNat_pageNumber (ref.page h vaddr) (offsetField vaddr)
  have hmm : (pageNumber ((ref.physical h vaddr).setWidth 32)).toNat <
      t.bus.dev.mainMemory.npages := by
    rw [Reference.physical, hnumber, ht.npages]
    exact hpage
  rw [ht.access routines hnpages hp hpage, busResult, busAdaptorRw_read _ (by
    rw [Reference.physical, hnumber]
    omega)]
  simp only [Except.map, mainMemoryRead_eq hmm, ht.word]

/-- A permitted write to populated memory keeps a state in agreement with the
reference store. -/
theorem write (ht : t.Agrees ref npages h) (hnpages : npages ≤ 0o35774) {vaddr : Word}
    (hp : ref.permits h true vaddr = true) (hpage : (ref.page h vaddr).toNat < npages)
    (v : Word) :
    ∃ u, t.call routines (.access true vaddr v) = .ok (v, u) ∧ u.maps = t.maps ∧
      u.bus.vmaok = true ∧ u.Agrees ref npages (.access true vaddr v :: h) := by
  have hnumber := toNat_pageNumber (ref.page h vaddr) (offsetField vaddr)
  have hmm : (pageNumber ((ref.physical h vaddr).setWidth 32)).toNat <
      t.bus.dev.mainMemory.npages := by
    rw [Reference.physical, hnumber, ht.npages]
    exact hpage
  rw [ht.access routines hnpages hp hpage, busResult, busAdaptorRw_write _ (by
    rw [Reference.physical, hnumber]
    omega)]
  refine ⟨_, rfl, rfl, rfl, fun i => ?_, fun e j => ?_, ?_, fun p => ?_⟩
  · rw [Reference.l1After, latest_cons_none rfl]
    exact ht.l1 i
  · rw [Reference.l2After, latest_cons_none rfl]
    exact ht.l2 e j
  · exact (mainMemoryWrite_npages _ _ _).trans ht.npages
  · have hsame := pageNumber_pageOffset_iff p (ref.physical h vaddr)
    rw [Reference.wordAfter, latest_cons_ite rfl]
    refine (mainMemoryWrite_word v hmm (p.setWidth 32)).trans ?_
    simp only [hsame, hp, true_and, ht.word, eq_comm (a := p)]
    rfl

/-- An access that changes no word keeps a state in agreement with the reference store. -/
theorem vmaok (ht : t.Agrees ref npages h) (ok : Bool) {write : Bool} {vaddr v : Word}
    (hw : write = true → ref.permits h true vaddr = false) :
    ({ t with bus := { t.bus with vmaok := ok } } : StoreState δ).Agrees ref npages
      (.access write vaddr v :: h) where
  l1 := fun i => by
    rw [Reference.l1After, latest_cons_none rfl]
    exact ht.l1 i
  l2 := fun e j => by
    rw [Reference.l2After, latest_cons_none rfl]
    exact ht.l2 e j
  npages := ht.npages
  word := fun p => by
    rw [Reference.wordAfter, latest_cons_none]
    · exact ht.word p
    · refine if_neg fun hc => ?_
      rw [hw hc.1] at hc
      exact absurd hc.2.1 Bool.false_ne_true

end StoreState.Agrees

/-- A history with populated accesses runs, and leads to a state in agreement
with the reference store. -/
theorem StoreState.callAll_agrees (hs : s.Agrees ref npages []) (hnpages : npages ≤ 0o35774)
    (hpop : ref.Populated npages h) :
    ∃ t, s.callAll routines h = .ok t ∧ t.Agrees ref npages h := by
  induction h with
  | nil => exact ⟨s, rfl, hs⟩
  | cons call h ih =>
    cases call with
    | writeMap vma md =>
      obtain ⟨t, hrun, ht⟩ := ih hpop
      obtain ⟨hcall, hagrees⟩ := ht.writeMap routines vma md
      refine ⟨_, ?_, hagrees⟩
      simp only [callAll, hrun, hcall, bind, Except.bind]
      rfl
    | access write vaddr v =>
      obtain ⟨hpage, hrest⟩ := hpop
      obtain ⟨t, hrun, ht⟩ := ih hrest
      cases hp : ref.permits h write vaddr with
      | false =>
        refine ⟨_, ?_, ht.vmaok (v := v) false fun hw => hw ▸ hp⟩
        simp only [callAll, hrun, ht.fault routines hp, bind, Except.bind]
        rfl
      | true =>
        cases write with
        | false =>
          refine ⟨_, ?_, ht.vmaok (v := v) true fun hw => absurd hw Bool.false_ne_true⟩
          simp only [callAll, hrun, ht.read routines hnpages hp (hpage hp), bind, Except.bind]
          rfl
        | true =>
          obtain ⟨u, hcall, -, -, hu⟩ := ht.write routines hnpages hp (hpage hp) v
          refine ⟨u, ?_, hu⟩
          simp only [callAll, hrun, hcall, bind, Except.bind]
          rfl

/-- The word that MEMORY-MAP-DATA reports for a level-1 and a level-2 entry:
the complemented permissions, a constant bit, and the two entries. -/
def mapDataWord (l1 : BitVec 5) (entry : BitVec 24) : Word :=
  BitVec.ofBool (!entry.getLsbD 22) ++ BitVec.ofBool (!entry.getLsbD 23) ++ 1#1 ++ l1 ++ entry

/-- The permission bits and the constant bit as one field. -/
private theorem mapFlags_eq (w a : Bool) (x : Word) :
    (if w then 0#32 else 1#32 <<< 31) |||
        ((if a then 0#32 else 1#32 <<< 30) ||| (1#32 <<< 29 ||| x)) =
      ((BitVec.ofBool (!w) ++ BitVec.ofBool (!a) ++ 1#1).setWidth 32 : Word) <<< 29 ||| x := by
  rw [← BitVec.or_assoc, ← BitVec.or_assoc]
  refine congrArg (· ||| x) ?_
  cases w <;> cases a <;> decide

/-- The three fields of the word that MEMORY-MAP-DATA reports. -/
private theorem toNat_mapFields (k : BitVec 3) (l1 : BitVec 5) (entry : BitVec 24) :
    (((k.setWidth 32 : Word) <<< 29) |||
        (((l1.setWidth 32 : Word) <<< 24) ||| entry.setWidth 32)).toNat =
      k.toNat * 2 ^ 29 + (l1.toNat * 2 ^ 24 + entry.toNat) := by
  have hk := k.isLt
  have hl1 := l1.isLt
  have hentry := entry.isLt
  have hkw : (k.setWidth 32 : Word).toNat = k.toNat := by
    rw [BitVec.toNat_setWidth]
    omega
  have hl1w : (l1.setWidth 32 : Word).toNat = l1.toNat := by
    rw [BitVec.toNat_setWidth]
    omega
  have hentryw : (entry.setWidth 32 : Word).toNat = entry.toNat := by
    rw [BitVec.toNat_setWidth]
    omega
  have hlow : (((l1.setWidth 32 : Word) <<< 24) ||| entry.setWidth 32).toNat =
      l1.toNat * 2 ^ 24 + entry.toNat := by
    rw [toNat_shiftLeft_or _ _ (by omega) (by omega), hl1w, hentryw]
  rw [toNat_shiftLeft_or _ _ (by omega) (by omega), hlow, hkw]

/-- The functional source MEMORY-MAP-DATA reports the entries that the address in MD selects. -/
theorem mfread_memoryMapData {β : Type} (e : Engine β) {l1 : BitVec 5} {entry : BitVec 24}
    (h1 : e.toMaps.l1Entry e.mdReg = l1) (h2 : e.toMaps.l2Entry e.mdReg = entry.setWidth 32) :
    mfread 0o11 e = .ok (mapDataWord l1 entry) e := by
  have hl1 := l1.isLt
  have hentry := entry.isLt
  have hbit (i : ℕ) (hi : i < 32) : (entry.setWidth 32 : Word).getLsbD i = entry.getLsbD i := by
    rw [BitVec.getLsbD_setWidth, decide_eq_true hi, Bool.true_and]
  have h1w : (l1.setWidth 32 : Word) &&& 0o37 = l1.setWidth 32 := by
    rw [and_037, setWidth_setWidth_of_lt (by rw [BitVec.toNat_setWidth]; omega)]
  have h2w : (entry.setWidth 32 : Word) &&& 0o77777777 = entry.setWidth 32 := by
    rw [and_077777777, setWidth_setWidth_of_lt (by rw [BitVec.toNat_setWidth]; omega)]
  change (do
    let t ← fromExcept (uvmemVtop e.toMaps e.mdReg)
    return (if t.writePermission then 0#32 else 1#32 <<< 31) |||
      (if t.accessPermission then 0#32 else 1#32 <<< 30) ||| (1#32 <<< 29) |||
      ((t.l1Data &&& 0o37) <<< 24) ||| (t.l2Data &&& 0o77777777) : Micro β Word) e = _
  rw [uvmemVtop_eq]
  simp only [fromExcept_ok, pure_bind, h1, h2, hbit 22 (by decide), hbit 23 (by decide), h1w,
    h2w, BitVec.or_assoc, mapFlags_eq]
  refine congrArg (fun w => EStateM.Result.ok w e) (BitVec.eq_of_toNat_eq ?_)
  unfold mapDataWord
  generalize BitVec.ofBool (!entry.getLsbD 22) ++ BitVec.ofBool (!entry.getLsbD 23) ++ 1#1 = k
  rw [toNat_mapFields, toNat_append, toNat_append]
  omega

/-- Virtual memory is an aliased store. After any history of map writes and
accesses whose permitted accesses are to populated main memory, the maps and
the words are those of the reference store. A map write with both enable bits
files the level-2 entry under the level-1 entry it has just written. The next
access succeeds exactly with the permissions of the entry that the reference
store selects; a permitted read returns the latest value whose permitted write
had the same physical address, and a faulting access changes nothing but
`vmaok`. MEMORY-MAP-DATA reports the entry that the next access uses. -/
theorem virtual_memory_aliased_store {β : Type} (s : StoreState δ) (hs : s.maps.WellFormed)
    (hnpages : s.bus.dev.mainMemory.npages ≤ 0o35774) (h : List StoreCall)
    (hpop : s.reference.Populated s.bus.dev.mainMemory.npages h) :
    ∃ t, s.callAll routines h = .ok t ∧
      t.Agrees s.reference s.bus.dev.mainMemory.npages h ∧
      (∀ vma md, vma.getLsbD 26 → vma.getLsbD 25 →
        ∃ u, t.call routines (.writeMap vma md) = .ok (0, u) ∧ u.bus = t.bus ∧
          u.maps.l1 (l1Field md) = (vma.extractLsb' 27 5).setWidth 32 ∧
          u.maps.l2 (vma.extractLsb' 27 5) (l2Field md) =
            (vma.setWidth 24 : BitVec 24).setWidth 32) ∧
      (∀ write vaddr v,
        (s.reference.permits h write vaddr →
          (s.reference.page h vaddr).toNat < s.bus.dev.mainMemory.npages) →
        ∃ w u, t.call routines (.access write vaddr v) = .ok (w, u) ∧
          u.bus.vmaok = ((s.reference.entry h vaddr).getLsbD 23 &&
            (!write || (s.reference.entry h vaddr).getLsbD 22)) ∧
          (u.bus.vmaok = true → write = false →
            w = s.reference.wordAfter (s.reference.physical h vaddr) h) ∧
          (u.bus.vmaok = false → u = { t with bus := { t.bus with vmaok := false } })) ∧
      (∀ e : Engine β, e.toMaps = t.maps → mfread 0o11 e =
        .ok (mapDataWord (s.reference.l1Entry h e.mdReg) (s.reference.entry h e.mdReg)) e) := by
  obtain ⟨t, hrun, ht⟩ := StoreState.callAll_agrees routines
    (StoreState.agrees_reference hs) hnpages hpop
  refine ⟨t, hrun, ht, fun vma md h26 h25 => ?_, fun write vaddr v hpage => ?_,
    fun e he => mfread_memoryMapData e ?_ ?_⟩
  · have hl1 : (t.maps.write vma md).l1 (l1Field md) = (vma.extractLsb' 27 5).setWidth 32 := by
      rw [Maps.l1_write, if_pos ⟨h26, rfl⟩]
    have hentry : (t.maps.write vma md).l1Entry md = vma.extractLsb' 27 5 := by
      rw [Maps.l1Entry, hl1, BitVec.setWidth_setWidth_of_le _ (by decide), BitVec.setWidth_eq]
    refine ⟨_, (ht.writeMap routines vma md).1, rfl, hl1, ?_⟩
    exact (Maps.l2_write t.maps vma md _ _).trans (if_pos ⟨h25, hentry, rfl⟩)
  · have hpermits : s.reference.permits h write vaddr =
        ((s.reference.entry h vaddr).getLsbD 23 &&
          (!write || (s.reference.entry h vaddr).getLsbD 22)) := by
      unfold Reference.permits
      cases write <;> simp
    rw [← hpermits]
    cases hp : s.reference.permits h write vaddr with
    | false =>
      exact ⟨0, _, ht.fault routines hp v, rfl, fun h' => absurd h' Bool.false_ne_true,
        fun _ => rfl⟩
    | true =>
      cases write with
      | false =>
        exact ⟨_, _, ht.read routines hnpages hp (hpage hp) v, rfl, fun _ _ => rfl,
          fun h' => absurd h'.symm Bool.false_ne_true⟩
      | true =>
        obtain ⟨u, hcall, -, hvmaok, -⟩ := ht.write routines hnpages hp (hpage hp) v
        exact ⟨v, u, hcall, hvmaok, fun _ h' => absurd h'.symm Bool.false_ne_true,
          fun h' => absurd (h'.symm.trans hvmaok) Bool.false_ne_true⟩
  · rw [he]
    exact ht.l1Entry e.mdReg
  · rw [he]
    exact ht.l2Entry e.mdReg

/-- A bus without devices. -/
def noRoutines : BusRoutines Unit where
  xbusioRw := fun _ _ _ b => .ok (0, b)
  unibusRw := fun _ _ _ b => .ok (0, b)
  setXbusNxm := id

/-- Zero maps and four populated pages of zeros. -/
def blankStore : StoreState Unit where
  maps := ⟨fun _ => 0, fun _ => 0⟩
  bus := {
    amem := fun _ => 0
    mdReg := 0
    vmaok := false
    promdisabled := false
    interruptPendingFlag := false
    dev := ⟨⟨4, fun _ _ => 0⟩, ()⟩ }

/-- The newest first: write 7 to the address 1, give block 1 the level-1 entry
of block 0, and map the first page of block 0 to page 2 under a level-1 entry
written by the same call. -/
def aliasHistory : List StoreCall :=
  [.access true 1 7, .writeMap 0x0C000000 0o20000, .writeMap 0x0EC00002 0]

/-- The word written at the address 1 is read through the alias at 020001. -/
theorem virtual_memory_aliased_read :
    ∃ t u, blankStore.callAll noRoutines aliasHistory = .ok t ∧
      t.call noRoutines (.access false 0o20001 0) = .ok (7, u) := by
  obtain ⟨t, hrun, -, -, hnext, -⟩ := virtual_memory_aliased_store noRoutines
    (β := Unit) blankStore ⟨by decide, by decide⟩ (by decide) aliasHistory
    ⟨by decide, trivial⟩
  obtain ⟨w, u, hcall, hok, hread, -⟩ := hnext false 0o20001 0 (by decide)
  have hvalue : w = 7 := by
    rw [hread (by rw [hok]; decide) rfl]
    decide
  rw [hvalue] at hcall
  exact ⟨t, u, hrun, hcall⟩

end Usim
