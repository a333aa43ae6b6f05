import Usim.State

/-!
# Main memory

`main-memory.c`: the page array and its populated part. The log messages are
left out.
-/

namespace Usim

/-- The page array of `main-memory.c`, allocated for every page number. -/
structure MainMemory where
  /-- `main_memory_npages`, how many pages are populated. -/
  npages : ℕ
  /-- `pages[16384][256]`. -/
  pages : Fin 16384 → Fin 256 → Word

/-- The page number of a physical address, `(paddr >> 8) & 0x3FFF`. -/
def pageNumber (paddr : Word) : Word := (paddr >>> 8) &&& 0x3FFF

/-- A page number is below the number of allocated pages. -/
theorem pageNumber_lt (paddr : Word) : (pageNumber paddr).toNat < 16384 := by
  rw [pageNumber, toNat_and_mask _ _ (n := 14) rfl]
  exact Nat.mod_lt _ (by decide)

/-- The offset of a physical address in its page, `paddr & 0xFF`. -/
def pageOffset (paddr : Word) : Word := paddr &&& 0xFF

/-- An offset is below the size of a page. -/
theorem pageOffset_lt (paddr : Word) : (pageOffset paddr).toNat < 256 := by
  rw [pageOffset, toNat_and_mask _ _ (n := 8) rfl]
  exact Nat.mod_lt _ (by decide)

/-- The page number of a physical address is the field above the offset. -/
theorem toNat_pageNumber (page : BitVec 14) (offset : BitVec 8) :
    (pageNumber ((page ++ offset).setWidth 32)).toNat = page.toNat := by
  have hpage := page.isLt
  have hoffset := offset.isLt
  rw [pageNumber, toNat_and_mask _ _ (n := 14) rfl, toNat_shiftRight, BitVec.toNat_setWidth,
    toNat_append]
  omega

/-- A physical address is determined by its page number and its offset. -/
theorem pageNumber_pageOffset_iff (p p' : BitVec 22) :
    (pageNumber (p.setWidth 32) = pageNumber (p'.setWidth 32) ∧
      pageOffset (p.setWidth 32) = pageOffset (p'.setWidth 32)) ↔ p = p' := by
  have hp := p.isLt
  have hp' := p'.isLt
  simp only [← BitVec.toNat_inj, pageNumber, pageOffset, toNat_and_mask _ 0x3FFF (n := 14) rfl,
    toNat_and_mask _ 0xFF (n := 8) rfl, toNat_shiftRight, BitVec.toNat_setWidth]
  omega

/-- The word at a physical address. -/
def MainMemory.word (mm : MainMemory) (paddr : Word) : Word :=
  mm.pages ⟨_, pageNumber_lt paddr⟩ ⟨_, pageOffset_lt paddr⟩

/-- `main_memory_read`: whether the page is populated, and the word read. -/
def mainMemoryRead (mm : MainMemory) (paddr : Word) : Bool × Word :=
  if (pageNumber paddr).toNat < mm.npages then (true, mm.word paddr) else (false, 0xffffffff)

/-- `main_memory_write`: whether the page is populated, and the memory afterwards. -/
def mainMemoryWrite (mm : MainMemory) (paddr v : Word) : Bool × MainMemory :=
  if (pageNumber paddr).toNat < mm.npages then
    let page := Function.update (mm.pages ⟨_, pageNumber_lt paddr⟩) ⟨_, pageOffset_lt paddr⟩ v
    (true, { mm with pages := Function.update mm.pages ⟨_, pageNumber_lt paddr⟩ page })
  else (false, mm)

/-- The words of a page, and of a disk block. -/
abbrev Page := Fin 256 → Word

/-- `main_memory_read_page`: the page, if it is populated. -/
def mainMemoryReadPage (mm : MainMemory) (paddr : Word) : Option Page :=
  if (pageNumber paddr).toNat < mm.npages then some (mm.pages ⟨_, pageNumber_lt paddr⟩) else none

/-- `main_memory_write_page`: the memory afterwards, if the page is populated. -/
def mainMemoryWritePage (mm : MainMemory) (paddr : Word) (buffer : Page) : Option MainMemory :=
  if (pageNumber paddr).toNat < mm.npages then
    some { mm with pages := Function.update mm.pages ⟨_, pageNumber_lt paddr⟩ buffer }
  else none

/-- A populated word reads what it holds. -/
theorem mainMemoryRead_eq {mm : MainMemory} {paddr : Word}
    (h : (pageNumber paddr).toNat < mm.npages) : mainMemoryRead mm paddr = (true, mm.word paddr) :=
  if_pos h

/-- A write leaves the number of populated pages. -/
@[simp] theorem mainMemoryWrite_npages (mm : MainMemory) (paddr v : Word) :
    (mainMemoryWrite mm paddr v).2.npages = mm.npages := by
  unfold mainMemoryWrite
  split <;> rfl

/-- A write to a populated page changes the word at its own page and offset only. -/
theorem mainMemoryWrite_word {mm : MainMemory} {paddr : Word} (v : Word)
    (h : (pageNumber paddr).toNat < mm.npages) (paddr' : Word) :
    (mainMemoryWrite mm paddr v).2.word paddr' =
      if pageNumber paddr' = pageNumber paddr ∧ pageOffset paddr' = pageOffset paddr then v
      else mm.word paddr' := by
  unfold mainMemoryWrite MainMemory.word
  rw [if_pos h]
  by_cases hpage : pageNumber paddr' = pageNumber paddr
  · simp only [hpage, true_and, Function.update_self]
    by_cases hoffset : pageOffset paddr' = pageOffset paddr
    · simp only [hoffset, if_true, Function.update_self]
    · rw [if_neg hoffset, Function.update_of_ne]
      intro heq
      exact hoffset (BitVec.eq_of_toNat_eq (Fin.mk.inj_iff.mp heq))
  · dsimp only
    rw [if_neg (fun h' => hpage h'.1), Function.update_of_ne]
    intro heq
    exact hpage (BitVec.eq_of_toNat_eq (Fin.mk.inj_iff.mp heq))

end Usim
