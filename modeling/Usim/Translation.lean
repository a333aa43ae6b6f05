import Usim.Uvmem

/-!
# Address translation

The two-level map of `uvmem_vtop` as a total function on bit fields: the
level-1 entry and two fields of the virtual address select the level-2 entry,
whose page number and the offset make the physical address.
-/

namespace Usim

/-- `vaddr<23:13>`, the index of the level-1 map. -/
def l1Field (vaddr : Word) : BitVec 11 := vaddr.extractLsb' 13 11

/-- `vaddr<12:8>`, the low part of the index of the level-2 map. -/
def l2Field (vaddr : Word) : BitVec 5 := vaddr.extractLsb' 8 5

/-- `vaddr<7:0>`, the offset in a page. -/
def offsetField (vaddr : Word) : BitVec 8 := vaddr.setWidth 8

/-- The level-1 entry number `i`. -/
def Maps.l1 (m : Maps) (i : BitVec 11) : Word := m.l1Map ⟨i.toNat, i.isLt⟩

/-- The level-2 entry under the level-1 entry `e`. -/
def Maps.l2 (m : Maps) (e j : BitVec 5) : Word := m.l2Map ⟨(e ++ j).toNat, (e ++ j).isLt⟩

/-- The five bits of the level-1 entry that a virtual address selects. -/
def Maps.l1Entry (m : Maps) (vaddr : Word) : BitVec 5 := (m.l1 (l1Field vaddr)).setWidth 5

/-- The level-2 entry that a virtual address selects. -/
def Maps.l2Entry (m : Maps) (vaddr : Word) : Word := m.l2 (m.l1Entry vaddr) (l2Field vaddr)

/-- The physical page number in a level-2 entry. -/
def pageField (entry : Word) : BitVec 14 := entry.setWidth 14

/-- The physical page that a virtual address is mapped to. -/
def Maps.page (m : Maps) (vaddr : Word) : BitVec 14 := pageField (m.l2Entry vaddr)

/-- The physical address that a virtual address is mapped to: the page number
above the offset. -/
def Maps.physical (m : Maps) (vaddr : Word) : BitVec 22 := m.page vaddr ++ offsetField vaddr

/-- Reads need bit 23 of the level-2 entry, writes bits 23 and 22. -/
def Maps.permits (m : Maps) (write : Bool) (vaddr : Word) : Bool :=
  if write then (m.l2Entry vaddr).getLsbD 23 && (m.l2Entry vaddr).getLsbD 22
  else (m.l2Entry vaddr).getLsbD 23

/-- The upper 8 bits of a virtual address do not select the level-1 entry. -/
@[simp] theorem l1Field_mask (vaddr : Word) :
    l1Field (vaddr &&& 0x00FFFFFF) = l1Field vaddr := by
  apply BitVec.eq_of_toNat_eq
  simp only [l1Field, BitVec.extractLsb'_toNat, Nat.shiftRight_eq_div_pow,
    toNat_and_mask vaddr 0x00FFFFFF (n := 24) rfl]
  omega

/-- The upper 8 bits of a virtual address do not select the level-2 entry. -/
@[simp] theorem l2Field_mask (vaddr : Word) :
    l2Field (vaddr &&& 0x00FFFFFF) = l2Field vaddr := by
  apply BitVec.eq_of_toNat_eq
  simp only [l2Field, BitVec.extractLsb'_toNat, Nat.shiftRight_eq_div_pow,
    toNat_and_mask vaddr 0x00FFFFFF (n := 24) rfl]
  omega

/-- The upper 8 bits of a virtual address are not part of the offset. -/
@[simp] theorem offsetField_mask (vaddr : Word) :
    offsetField (vaddr &&& 0x00FFFFFF) = offsetField vaddr := by
  apply BitVec.eq_of_toNat_eq
  simp only [offsetField, BitVec.toNat_setWidth, toNat_and_mask vaddr 0x00FFFFFF (n := 24) rfl]
  omega

/-- The upper 8 bits of a virtual address are not translated. -/
@[simp] theorem Maps.l1Entry_mask (m : Maps) (vaddr : Word) :
    m.l1Entry (vaddr &&& 0x00FFFFFF) = m.l1Entry vaddr := by
  rw [l1Entry, l1Field_mask, l1Entry]

/-- The upper 8 bits of a virtual address are not translated. -/
@[simp] theorem Maps.l2Entry_mask (m : Maps) (vaddr : Word) :
    m.l2Entry (vaddr &&& 0x00FFFFFF) = m.l2Entry vaddr := by
  rw [l2Entry, l1Entry_mask, l2Field_mask, l2Entry]

/-- The upper 8 bits of a virtual address are not translated. -/
@[simp] theorem Maps.page_mask (m : Maps) (vaddr : Word) :
    m.page (vaddr &&& 0x00FFFFFF) = m.page vaddr := by
  rw [page, l2Entry_mask, page]

/-- The upper 8 bits of a virtual address are not translated. -/
@[simp] theorem Maps.physical_mask (m : Maps) (vaddr : Word) :
    m.physical (vaddr &&& 0x00FFFFFF) = m.physical vaddr := by
  rw [physical, page_mask, offsetField_mask, physical]

/-- The level-1 index of the source is the field `vaddr<23:13>`. -/
theorem toNat_l1Index (vaddr : Word) :
    ((vaddr >>> 13) &&& 0o3777).toNat = (l1Field vaddr).toNat := by
  rw [toNat_and_mask _ _ (n := 11) rfl, toNat_shiftRight, l1Field, BitVec.extractLsb'_toNat,
    Nat.shiftRight_eq_div_pow]

/-- The level-2 index of the source is the level-1 entry above the field `vaddr<12:8>`. -/
theorem toNat_l2Index (e : BitVec 5) (vaddr : Word) :
    ((e.setWidth 32 <<< 5) ||| ((vaddr >>> 8) &&& 0o37)).toNat = (e ++ l2Field vaddr).toNat := by
  have he := e.isLt
  have hfield : ((vaddr >>> 8) &&& 0o37).toNat = (l2Field vaddr).toNat := by
    rw [toNat_and_mask _ _ (n := 5) rfl, toNat_shiftRight, l2Field, BitVec.extractLsb'_toNat,
      Nat.shiftRight_eq_div_pow]
  have hwide : (e.setWidth 32).toNat = e.toNat := by
    rw [BitVec.toNat_setWidth]
    omega
  have hlt := (l2Field vaddr).isLt
  rw [toNat_shiftLeft_or _ _ (by rw [hfield]; exact hlt) (by rw [hwide]; omega), hfield, hwide,
    toNat_append]

/-- Reading the level-1 entry of a virtual address. -/
theorem subscript_l1Map (m : Maps) (vaddr : Word) :
    subscript .l1Map m.l1Map ((vaddr >>> 13) &&& 0o3777) = .ok (m.l1 (l1Field vaddr)) :=
  subscript_fin (k := ⟨(l1Field vaddr).toNat, (l1Field vaddr).isLt⟩) (toNat_l1Index vaddr)

/-- Reading the level-2 entry of a virtual address. -/
theorem subscript_l2Map (m : Maps) (e : BitVec 5) (vaddr : Word) :
    subscript .l2Map m.l2Map ((e.setWidth 32 <<< 5) ||| ((vaddr >>> 8) &&& 0o37)) =
      .ok (m.l2 e (l2Field vaddr)) :=
  subscript_fin (k := ⟨_, (e ++ l2Field vaddr).isLt⟩) (toNat_l2Index e vaddr)

/-- Masking with 037 keeps five bits. -/
theorem and_037 (x : Word) : x &&& 0o37 = (x.setWidth 5).setWidth 32 := by
  apply BitVec.eq_of_toNat_eq
  rw [toNat_and_mask _ _ (n := 5) rfl, BitVec.toNat_setWidth, BitVec.toNat_setWidth]
  omega

/-- Masking with 037777 keeps fourteen bits. -/
theorem and_037777 (x : Word) : x &&& 0x3FFF = (x.setWidth 14).setWidth 32 := by
  apply BitVec.eq_of_toNat_eq
  rw [toNat_and_mask _ _ (n := 14) rfl, BitVec.toNat_setWidth, BitVec.toNat_setWidth]
  omega

/-- The physical address of the source is the page number above the offset. -/
theorem physical_eq (page : BitVec 14) (vaddr : Word) :
    (page.setWidth 32 <<< 8) ||| ((vaddr &&& 0x00FFFFFF) &&& 0xFF) =
      (page ++ offsetField vaddr).setWidth 32 := by
  have hpage := page.isLt
  have hfield : ((vaddr &&& 0x00FFFFFF) &&& 0xFF).toNat = (offsetField vaddr).toNat := by
    rw [toNat_and_mask _ _ (n := 8) rfl, toNat_and_mask _ _ (n := 24) rfl, offsetField,
      BitVec.toNat_setWidth]
    omega
  have hlt := (offsetField vaddr).isLt
  have hwide : (page.setWidth 32).toNat = page.toNat := by
    rw [BitVec.toNat_setWidth]
    omega
  apply BitVec.eq_of_toNat_eq
  rw [toNat_shiftLeft_or _ _ (by rw [hfield]; exact hlt) (by rw [hwide]; omega), hfield, hwide,
    BitVec.toNat_setWidth, toNat_append]
  omega

/-- A page number as a word. -/
theorem toNat_page (page : BitVec 14) : (page.setWidth 32 : Word).toNat = page.toNat := by
  have := page.isLt
  rw [BitVec.toNat_setWidth]
  omega

/-- Resolving a virtual address always succeeds, and reports the entries that
the address selects. -/
theorem uvmemVtop_eq (m : Maps) (vaddr : Word) :
    uvmemVtop m vaddr = .ok {
      paddr := (m.physical vaddr).setWidth 32
      l1Data := (m.l1Entry vaddr).setWidth 32
      l2Data := m.l2Entry vaddr
      physicalPageNumber := (m.page vaddr).setWidth 32
      writePermission := (m.l2Entry vaddr).getLsbD 22
      accessPermission := (m.l2Entry vaddr).getLsbD 23 } := by
  have hmask : m.l1 (l1Field vaddr) &&& 0o37 = (m.l1Entry vaddr).setWidth 32 := and_037 _
  have hpage : m.l2 (m.l1Entry vaddr) (l2Field vaddr) &&& 0x3FFF =
      (m.page vaddr).setWidth 32 := and_037777 _
  simp only [uvmemVtop, subscript_l1Map, l1Field_mask, bind, Except.bind, hmask, subscript_l2Map,
    l2Field_mask, hpage, physical_eq, pure, Except.pure]
  rfl

/-- The maps after an assignment to the level-1 entry `i`. -/
def Maps.setL1 (m : Maps) (i : BitVec 11) (v : Word) : Maps :=
  { m with l1Map := Function.update m.l1Map ⟨i.toNat, i.isLt⟩ v }

/-- The maps after an assignment to the level-2 entry under `e`. -/
def Maps.setL2 (m : Maps) (e j : BitVec 5) (v : Word) : Maps :=
  { m with l2Map := Function.update m.l2Map ⟨(e ++ j).toNat, (e ++ j).isLt⟩ v }

/-- A level-1 assignment changes one level-1 entry. -/
@[simp] theorem Maps.l1_setL1 (m : Maps) (i i' : BitVec 11) (v : Word) :
    (m.setL1 i v).l1 i' = if i = i' then v else m.l1 i' := by
  unfold setL1 l1
  by_cases h : i = i'
  · subst h
    simp only [if_true, Function.update_self]
  · rw [if_neg h]
    refine Function.update_of_ne (fun heq => h ?_) _ _
    exact (BitVec.eq_of_toNat_eq (Fin.mk.inj_iff.mp heq)).symm

/-- A level-1 assignment leaves the level-2 map. -/
@[simp] theorem Maps.l2_setL1 (m : Maps) (i : BitVec 11) (e j : BitVec 5) (v : Word) :
    (m.setL1 i v).l2 e j = m.l2 e j := rfl

/-- A level-2 assignment leaves the level-1 map. -/
@[simp] theorem Maps.l1_setL2 (m : Maps) (e j : BitVec 5) (i : BitVec 11) (v : Word) :
    (m.setL2 e j v).l1 i = m.l1 i := rfl

/-- A level-2 assignment changes one level-2 entry. -/
@[simp] theorem Maps.l2_setL2 (m : Maps) (e j e' j' : BitVec 5) (v : Word) :
    (m.setL2 e j v).l2 e' j' = if e = e' ∧ j = j' then v else m.l2 e' j' := by
  unfold setL2 l2
  by_cases h : e = e' ∧ j = j'
  · obtain ⟨rfl, rfl⟩ := h
    simp only [and_self, if_true, Function.update_self]
  · rw [if_neg h]
    refine Function.update_of_ne (fun heq => h ?_) _ _
    have hnat : (e' ++ j').toNat = (e ++ j).toNat := Fin.mk.inj_iff.mp heq
    rw [toNat_append, toNat_append] at hnat
    have hj := j.isLt
    have hj' := j'.isLt
    refine ⟨BitVec.eq_of_toNat_eq ?_, BitVec.eq_of_toNat_eq ?_⟩ <;> omega

/-- Every level-1 entry has five bits and every level-2 entry 24, as
`uvmem_write_map` writes them. -/
structure Maps.WellFormed (m : Maps) : Prop where
  /-- The level-1 entries. -/
  l1_lt : ∀ i, (m.l1 i).toNat < 2 ^ 5
  /-- The level-2 entries. -/
  l2_lt : ∀ e j, (m.l2 e j).toNat < 2 ^ 24

/-- The maps after `uvmem_write_map`: the level-2 entry is filed under the
level-1 entry just written. -/
def Maps.write (m : Maps) (vma md : Word) : Maps :=
  let m := if vma.getLsbD 26 then
    m.setL1 (l1Field md) ((vma.extractLsb' 27 5).setWidth 32) else m
  if vma.getLsbD 25 then
    m.setL2 (m.l1Entry md) (l2Field md) ((vma.setWidth 24 : BitVec 24).setWidth 32) else m

/-- Assigning the level-1 entry of a virtual address. -/
theorem assign_l1Map (m : Maps) (md v : Word) :
    assign .l1Map m.l1Map ((md >>> 13) &&& 0o3777) v = .ok (m.setL1 (l1Field md) v).l1Map :=
  assign_fin (k := ⟨(l1Field md).toNat, (l1Field md).isLt⟩) (toNat_l1Index md)

/-- Assigning the level-2 entry of a virtual address. -/
theorem assign_l2Map (m : Maps) (e : BitVec 5) (md v : Word) :
    assign .l2Map m.l2Map ((e.setWidth 32 <<< 5) ||| ((md >>> 8) &&& 0o37)) v =
      .ok (m.setL2 e (l2Field md) v).l2Map :=
  assign_fin (k := ⟨_, (e ++ l2Field md).isLt⟩) (toNat_l2Index e md)

/-- The level-1 entry that a map write stores. -/
theorem and_037_shiftRight (vma : Word) :
    (vma >>> 27) &&& 0o37 = (vma.extractLsb' 27 5).setWidth 32 := by
  apply BitVec.eq_of_toNat_eq
  have hvma := vma.isLt
  rw [toNat_and_mask _ _ (n := 5) rfl, toNat_shiftRight, BitVec.toNat_setWidth,
    BitVec.extractLsb'_toNat, Nat.shiftRight_eq_div_pow]
  omega

/-- The level-2 entry that a map write stores. -/
theorem and_077777777 (vma : Word) :
    vma &&& 0o77777777 = (vma.setWidth 24 : BitVec 24).setWidth 32 := by
  apply BitVec.eq_of_toNat_eq
  rw [toNat_and_mask _ _ (n := 24) rfl, BitVec.toNat_setWidth, BitVec.toNat_setWidth]
  omega

/-- The level-2 half of `uvmem_write_map`. -/
private theorem write_l2 {m : Maps} (hm : ∀ i, (m.l1 i).toNat < 2 ^ 5) (vma md : Word) :
    (do
      let l1Data ← subscript .l1Map m.l1Map ((md >>> 13) &&& 0o3777)
      let l2Map ← assign .l2Map m.l2Map ((l1Data <<< 5) ||| ((md >>> 8) &&& 0o37))
        (vma &&& 0o77777777)
      pure { m with l2Map := l2Map } : Except Fault Maps) =
      .ok (m.setL2 (m.l1Entry md) (l2Field md)
        ((vma.setWidth 24 : BitVec 24).setWidth 32)) := by
  have hentry : m.l1 (l1Field md) = (m.l1Entry md).setWidth 32 :=
    (setWidth_setWidth_of_lt (hm _)).symm
  rw [subscript_l1Map, hentry, and_077777777]
  simp only [bind, Except.bind, assign_l2Map]
  rfl

/-- A level-1 write stores five bits. -/
theorem Maps.l1_lt_setL1 {m : Maps} (hm : ∀ i, (m.l1 i).toNat < 2 ^ 5) (i : BitVec 11)
    (e : BitVec 5) (i' : BitVec 11) : ((m.setL1 i (e.setWidth 32)).l1 i').toNat < 2 ^ 5 := by
  have he := e.isLt
  rw [l1_setL1]
  split
  · rw [BitVec.toNat_setWidth]
    omega
  · exact hm i'

/-- Writing the maps always succeeds when the level-1 entries are well formed. -/
theorem uvmemWriteMap_eq {m : Maps} (hm : ∀ i, (m.l1 i).toNat < 2 ^ 5) (vma md : Word) :
    uvmemWriteMap m vma md = .ok (m.write vma md) := by
  unfold uvmemWriteMap Maps.write
  cases vma.getLsbD 26
  · simp only [Bool.false_eq_true, if_false, pure_bind]
    split
    · exact write_l2 hm vma md
    · rfl
  · simp only [if_true, assign_l1Map, and_037_shiftRight]
    split
    · exact write_l2 (m.l1_lt_setL1 hm _ _) vma md
    · rfl

/-- The level-1 entries after a map write. -/
theorem Maps.l1_write (m : Maps) (vma md : Word) (i : BitVec 11) :
    (m.write vma md).l1 i =
      if vma.getLsbD 26 ∧ l1Field md = i then (vma.extractLsb' 27 5).setWidth 32 else m.l1 i := by
  unfold write
  cases vma.getLsbD 26 <;> cases vma.getLsbD 25 <;> simp

/-- The level-2 entries after a map write. -/
theorem Maps.l2_write (m : Maps) (vma md : Word) (e j : BitVec 5) :
    (m.write vma md).l2 e j =
      if vma.getLsbD 25 ∧ (m.write vma md).l1Entry md = e ∧ l2Field md = j then
        (vma.setWidth 24 : BitVec 24).setWidth 32 else m.l2 e j := by
  have hentry (m : Maps) (e j : BitVec 5) (v : Word) :
      (m.setL2 e j v).l1Entry md = m.l1Entry md := rfl
  unfold write
  cases vma.getLsbD 26 <;> cases vma.getLsbD 25 <;> simp [hentry]

/-- Writing the maps keeps them well formed. -/
theorem Maps.WellFormed.write {m : Maps} (hm : m.WellFormed) (vma md : Word) :
    (m.write vma md).WellFormed := by
  have hset {m : Maps} (hm : m.WellFormed) (e j : BitVec 5) :
      (m.setL2 e j ((vma.setWidth 24 : BitVec 24).setWidth 32)).WellFormed := by
    refine ⟨hm.l1_lt, fun e' j' => ?_⟩
    have hv := (vma.setWidth 24 : BitVec 24).isLt
    rw [l2_setL2]
    split
    · rw [BitVec.toNat_setWidth]
      omega
    · exact hm.l2_lt e' j'
  have hset1 : (m.setL1 (l1Field md) ((vma.extractLsb' 27 5).setWidth 32)).WellFormed :=
    ⟨m.l1_lt_setL1 hm.l1_lt _ _, hm.l2_lt⟩
  unfold Maps.write
  cases vma.getLsbD 26 <;> cases vma.getLsbD 25 <;>
    simp only [Bool.false_eq_true, if_false, if_true] <;>
    first | exact hm | exact hset1 | exact hset hm _ _ | exact hset hset1 _ _

end Usim
