import Mathlib.Data.Set.Lattice
import Mathlib.Order.CompletePartialOrder
import Usim.Translation

/-!
# Physical addresses on the bus

What `vm` does with a translated address: it faults, accesses the A memory, or
makes one bus cycle. The address of the bus cycle is the translated one but
for the page 036000, the first page of the TV screen, where 15 bits of the
virtual address replace it.
-/

namespace Usim

variable {β : Type}

/-- The pages that stand for the A memory. -/
def IsAMemoryPage (page : BitVec 14) : Prop := 0o35774#14 ≤ page ∧ page ≤ 0o35777#14

instance (page : BitVec 14) : Decidable (IsAMemoryPage page) :=
  inferInstanceAs (Decidable (_ ∧ _))

/-- The physical address that `vm` puts on the bus. -/
def Maps.busAddress (m : Maps) (vaddr : Word) : Word :=
  if m.page vaddr = 0o36000#14 then 0o17000000 ||| (vaddr &&& 0o77777)
  else (m.physical vaddr).setWidth 32

/-- What a bus cycle makes of an access. -/
def busResult (busAdaptorRw : BusRw β) (write : Bool) (paddr v : Word) (b : BusState β) :
    Except Fault (Word × BusState β) :=
  match busAdaptorRw write paddr v b with
  | .ok r => .ok r
  | .error e => .error (.err e)

variable {busAdaptorRw : BusRw β} {write : Bool} {vaddr v : Word} {m : Maps} {b : BusState β}

/-- The A memory pages as `vm` recognizes them. -/
theorem isAMemoryPage_iff (page : BitVec 14) :
    (0o35774 ≤ (page.setWidth 32 : Word) ∧ (page.setWidth 32 : Word) ≤ 0o35777) ↔
      IsAMemoryPage page := by
  simp only [IsAMemoryPage, BitVec.le_def, toNat_page]
  exact Iff.rfl

/-- Every page number is in the range that `vm` passes to the bus. -/
theorem page_le (page : BitVec 14) : (page.setWidth 32 : Word) ≤ 0o37777 := by
  have hpage := page.isLt
  rw [BitVec.le_def, toNat_page]
  exact Nat.le_of_lt_succ hpage

/-- The first TV page as `vm` recognizes it. -/
theorem page_eq_iff (page : BitVec 14) :
    (page.setWidth 32 : Word) = 0o36000 ↔ page = 0o36000#14 := by
  rw [← BitVec.toNat_inj, ← BitVec.toNat_inj, toNat_page]
  rfl

/-- `vm` in terms of the translation. -/
theorem vm_eq (busAdaptorRw : BusRw β) (write : Bool) (vaddr v : Word) (m : Maps)
    (b : BusState β) :
    vm busAdaptorRw write vaddr v m b =
      if m.permits write vaddr = false then .ok (0, { b with vmaok := false })
      else if IsAMemoryPage (m.page vaddr) then
        let offset := (((m.page vaddr).setWidth 32 - 0o35774) <<< 8) +
          ((vaddr &&& 0x00FFFFFF) &&& 0xFF)
        if write then do
          let amem ← assign .amem b.amem offset v
          pure (v, { b with vmaok := true, amem := amem })
        else do
          let w ← subscript .amem b.amem offset
          pure (w, { b with vmaok := true })
      else busResult busAdaptorRw write (m.busAddress vaddr) v { b with vmaok := true } := by
  have htv : (vaddr &&& 0x00FFFFFF) &&& 0o77777 = vaddr &&& 0o77777 := by
    rw [BitVec.and_assoc]
    rfl
  have hok : (if write then (m.l2Entry vaddr).getLsbD 23 && (m.l2Entry vaddr).getLsbD 22
      else (m.l2Entry vaddr).getLsbD 23) = m.permits write vaddr := rfl
  simp only [vm, uvmemVtop_eq, Maps.l2Entry_mask, Maps.page_mask, Maps.physical_mask, bind,
    Except.bind, hok, pure, Except.pure, isAMemoryPage_iff, page_le, page_eq_iff, if_true, htv]
  cases hp : m.permits write vaddr with
  | false => simp
  | true =>
    simp only [not_true_eq_false, if_false, Bool.true_eq_false]
    rfl

variable {busAdaptorRw : BusRw β} {write : Bool} {vaddr v : Word} {m : Maps} {b : BusState β}

/-- An access that the map does not permit only clears `vmaok`. -/
theorem vm_fault (h : m.permits write vaddr = false) :
    vm busAdaptorRw write vaddr v m b = .ok (0, { b with vmaok := false }) := by
  rw [vm_eq, if_pos h]

/-- A permitted access outside the A memory is one bus cycle. -/
theorem vm_bus (h : m.permits write vaddr = true) (hpage : ¬ IsAMemoryPage (m.page vaddr)) :
    vm busAdaptorRw write vaddr v m b =
      busResult busAdaptorRw write (m.busAddress vaddr) v { b with vmaok := true } := by
  rw [vm_eq, if_neg (by simp [h]), if_neg hpage]

/-- `vaddr<23:8>`, the virtual page number. -/
def virtualPage (vaddr : Word) : BitVec 16 := vaddr.extractLsb' 8 16

/-- The bus addresses that the words of a virtual page denote. -/
def Maps.locations (m : Maps) (page : BitVec 16) : Set Word :=
  {paddr | ∃ vaddr, virtualPage vaddr = page ∧ m.busAddress vaddr = paddr}

/-- Outside the first TV page the bus address is the translated one. -/
theorem Maps.busAddress_of_ne {m : Maps} {vaddr : Word} (h : m.page vaddr ≠ 0o36000#14) :
    m.busAddress vaddr = (m.page vaddr ++ offsetField vaddr).setWidth 32 := by
  rw [busAddress, if_neg h, physical]

/-- On the first TV page 15 bits of the virtual address are the low bits of the bus address. -/
theorem Maps.busAddress_tv {m : Maps} {vaddr : Word} (h : m.page vaddr = 0o36000#14) :
    m.busAddress vaddr = (0o170#7 ++ (vaddr.setWidth 15 : BitVec 15)).setWidth 32 := by
  rw [busAddress, if_pos h]
  apply BitVec.eq_of_toNat_eq
  have hlow : (vaddr &&& 0o77777).toNat = vaddr.toNat % 2 ^ 15 := toNat_and_mask _ _ (n := 15) rfl
  have hhigh : (0o17000000 : Word) = 0o170#32 <<< 15 := by decide
  rw [hhigh, toNat_shiftLeft_or _ _ (by rw [hlow]; exact Nat.mod_lt _ (by decide)) (by decide),
    hlow, BitVec.toNat_setWidth, toNat_append, BitVec.toNat_setWidth]
  have hconst : BitVec.toNat 0o170#32 = BitVec.toNat 0o170#7 := by decide
  have hsmall : BitVec.toNat 0o170#7 < 2 ^ 7 := by decide
  rw [hconst]
  omega

/-- The page a virtual address is mapped to depends on its virtual page alone. -/
theorem Maps.page_congr {m : Maps} {vaddr vaddr' : Word}
    (h : virtualPage vaddr = virtualPage vaddr') : m.page vaddr = m.page vaddr' := by
  have hnat := congrArg BitVec.toNat h
  simp only [virtualPage, BitVec.extractLsb'_toNat, Nat.shiftRight_eq_div_pow] at hnat
  have h1 : l1Field vaddr = l1Field vaddr' := by
    apply BitVec.eq_of_toNat_eq
    simp only [l1Field, BitVec.extractLsb'_toNat, Nat.shiftRight_eq_div_pow]
    omega
  have h2 : l2Field vaddr = l2Field vaddr' := by
    apply BitVec.eq_of_toNat_eq
    simp only [l2Field, BitVec.extractLsb'_toNat, Nat.shiftRight_eq_div_pow]
    omega
  rw [page, page, l2Entry, l2Entry, l1Entry, l1Entry, h1, h2]

/-- A virtual page outside the first TV page denotes the 256 words of its physical page. -/
theorem Maps.locations_eq {m : Maps} {vaddr : Word} (h : m.page vaddr ≠ 0o36000#14) :
    m.locations (virtualPage vaddr) =
      Set.range fun offset : BitVec 8 => (m.page vaddr ++ offset).setWidth 32 := by
  ext paddr
  constructor
  · rintro ⟨vaddr', hpage, rfl⟩
    have hcongr := m.page_congr hpage
    refine ⟨offsetField vaddr', ?_⟩
    rw [busAddress_of_ne (hcongr ▸ h), hcongr]
  · rintro ⟨offset, rfl⟩
    obtain ⟨vaddr', hpage, hoffset⟩ : ∃ vaddr', virtualPage vaddr' = virtualPage vaddr ∧
        offsetField vaddr' = offset := by
      refine ⟨(virtualPage vaddr ++ offset).setWidth 32, ?_, ?_⟩ <;>
      · apply BitVec.eq_of_toNat_eq
        have hp := (virtualPage vaddr).isLt
        have ho := offset.isLt
        simp only [virtualPage, offsetField, BitVec.extractLsb'_toNat, BitVec.toNat_setWidth,
          toNat_append, Nat.shiftRight_eq_div_pow] at hp ⊢
        omega
    have hcongr := m.page_congr hpage
    refine ⟨vaddr', hpage, ?_⟩
    rw [busAddress_of_ne (hcongr ▸ h), hcongr, hoffset]

/-- A word is on one physical page only. -/
theorem page_offset_inj {page page' : BitVec 14} {offset offset' : BitVec 8}
    (h : ((page ++ offset).setWidth 32 : Word) = (page' ++ offset').setWidth 32) :
    page = page' ∧ offset = offset' := by
  have hnat := congrArg BitVec.toNat h
  have hp := page.isLt
  have hp' := page'.isLt
  have ho := offset.isLt
  have ho' := offset'.isLt
  simp only [BitVec.toNat_setWidth, toNat_append] at hnat
  refine ⟨BitVec.eq_of_toNat_eq ?_, BitVec.eq_of_toNat_eq ?_⟩ <;> omega

/-- A permitted access outside the A memory is one bus cycle at an address that
is the physical page number above `vaddr<7:0>`, but on the first TV page, whose
accesses go to 017000000 with `vaddr<14:0>` below. Two virtual pages mapped to
one physical page other than the first TV page denote the same 256 words, and
pages mapped to two such physical pages denote disjoint ones. -/
theorem vm_physical_address (m : Maps) :
    (∀ (busAdaptorRw : BusRw β) (write : Bool) (vaddr v : Word) (b : BusState β),
      m.permits write vaddr = true → ¬ IsAMemoryPage (m.page vaddr) →
      vm busAdaptorRw write vaddr v m b =
        busResult busAdaptorRw write (m.busAddress vaddr) v { b with vmaok := true }) ∧
    (∀ vaddr, m.busAddress vaddr =
      if m.page vaddr = 0o36000#14 then (0o170#7 ++ (vaddr.setWidth 15 : BitVec 15)).setWidth 32
      else (m.page vaddr ++ (vaddr.setWidth 8 : BitVec 8)).setWidth 32) ∧
    (∀ vaddr vaddr', m.page vaddr ≠ 0o36000#14 → m.page vaddr' = m.page vaddr →
      m.locations (virtualPage vaddr) =
          Set.range (fun offset : BitVec 8 => (m.page vaddr ++ offset).setWidth 32) ∧
        m.locations (virtualPage vaddr') = m.locations (virtualPage vaddr)) ∧
    (∀ vaddr vaddr', m.page vaddr ≠ 0o36000#14 → m.page vaddr' ≠ 0o36000#14 →
      m.page vaddr' ≠ m.page vaddr →
      Disjoint (m.locations (virtualPage vaddr')) (m.locations (virtualPage vaddr))) := by
  refine ⟨fun busAdaptorRw write vaddr v b h hpage => vm_bus h hpage, fun vaddr => ?_,
    fun vaddr vaddr' h hsame => ?_, fun vaddr vaddr' h h' hdiffer => ?_⟩
  · split
    · rename_i h
      exact m.busAddress_tv h
    · rename_i h
      exact m.busAddress_of_ne h
  · refine ⟨m.locations_eq h, ?_⟩
    rw [m.locations_eq h, m.locations_eq (hsame ▸ h), hsame]
  · rw [m.locations_eq h, m.locations_eq h', Set.disjoint_left]
    rintro _ ⟨offset', rfl⟩ ⟨offset, heq⟩
    exact hdiffer (page_offset_inj heq).1.symm

/-- A bus on which every word reads as its own address. -/
def echoBus : BusRw Unit := fun _ paddr _ b => .ok (paddr, b)

/-- A map with full permission from every virtual page to one physical page. -/
def onePageMap (page : BitVec 14) : Maps where
  l1Map := fun _ => 0
  l2Map := fun _ => 0o60000000 ||| page.setWidth 32

/-- A bus state to run examples on. -/
def blankBus : BusState Unit where
  amem := fun _ => 0
  mdReg := 0
  vmaok := false
  promdisabled := false
  interruptPendingFlag := false
  dev := ()

/-- The words of physical page 5 under the addresses 3 and 0403. -/
theorem vm_physical_address_page_five :
    vm echoBus false 0o403 0 (onePageMap 5) blankBus =
        .ok (0o2403, { blankBus with vmaok := true }) ∧
      (onePageMap 5).locations (virtualPage 0o403) = (onePageMap 5).locations (virtualPage 3) ∧
      (onePageMap 5).locations (virtualPage 3) = Set.range
        fun offset : BitVec 8 => ((onePageMap 5).page 3 ++ offset).setWidth 32 := by
  obtain ⟨haccess, -, hsame, -⟩ := vm_physical_address (β := Unit) (onePageMap 5)
  refine ⟨?_, (hsame 3 0o403 (by decide) (by decide)).2, (hsame 3 0o403 (by decide) (by decide)).1⟩
  rw [haccess echoBus false 0o403 0 blankBus (by decide) (by decide)]
  rfl

/-- Two virtual pages mapped to the first TV page with full permission denote
different locations: the second is read at 017000400, where the page number
above the offset is 017000000. -/
theorem vm_tv_page_not_concatenated :
    (onePageMap 0o36000).permits false 0o400 = true ∧
      ¬ IsAMemoryPage ((onePageMap 0o36000).page 0o400) ∧
      vm echoBus false 0o400 0 (onePageMap 0o36000) blankBus =
        .ok (0o17000400, { blankBus with vmaok := true }) ∧
      (((onePageMap 0o36000).page 0o400 ++ ((0o400 : Word).setWidth 8 : BitVec 8)).setWidth 32 :
        Word) = 0o17000000 ∧
      (onePageMap 0o36000).page 0 = (onePageMap 0o36000).page 0o400 ∧
      vm echoBus false 0 0 (onePageMap 0o36000) blankBus =
        .ok (0o17000000, { blankBus with vmaok := true }) := by
  refine ⟨by decide, by decide, ?_, by decide, by decide, ?_⟩
  · rw [vm_bus (by decide) (by decide)]
    rfl
  · rw [vm_bus (by decide) (by decide)]
    rfl

end Usim
