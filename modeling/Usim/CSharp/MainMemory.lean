import Usim.MainMemory

/-!
# The main memory of the C# port

The class `MainMemory`, one flat array instead of an array of pages. Its
counters and its log messages are left out.
-/

namespace Usim

/-- The class `MainMemory`. -/
structure SharpMemory where
  /-- `_npages`. -/
  npages : ℕ
  /-- `_physicalMemory`, of `PHYSICAL_MEM_SIZE` words. -/
  physicalMemory : Fin 4194304 → Word

namespace SharpMemory

/-- `TryReadWord`: whether the word is populated, and the word. -/
def tryReadWord (m : SharpMemory) (physicalAddress : Word) : Bool × Word :=
  if h : (pageNumber physicalAddress).toNat < m.npages ∧ physicalAddress.toNat < 4194304 then
    (true, m.physicalMemory ⟨physicalAddress.toNat, h.2⟩)
  else (false, 0xFFFFFFFF)

/-- `ReadPhysical`. -/
def readPhysical (m : SharpMemory) (physicalAddress : Word) : Word :=
  if h : (pageNumber physicalAddress).toNat < m.npages ∧ physicalAddress.toNat < 4194304 then
    m.physicalMemory ⟨physicalAddress.toNat, h.2⟩
  else 0xFFFFFFFF

/-- `WritePhysical`. -/
def writePhysical (m : SharpMemory) (physicalAddress value : Word) : SharpMemory :=
  if h : (pageNumber physicalAddress).toNat < m.npages ∧ physicalAddress.toNat < 4194304 then
    { m with physicalMemory := Function.update m.physicalMemory ⟨physicalAddress.toNat, h.2⟩ value }
  else m

end SharpMemory

/-- The place of a word in the flat array. -/
def flatIndex (page : Fin 16384) (offset : Fin 256) : Fin 4194304 :=
  ⟨page * 256 + offset, by omega⟩

namespace SharpMemory

/-- `ReadPage`: the page, if it is populated. -/
def readPage (m : SharpMemory) (physicalAddress : Word) : Option Page :=
  if (pageNumber physicalAddress).toNat < m.npages then
    some fun offset => m.physicalMemory (flatIndex ⟨_, pageNumber_lt physicalAddress⟩ offset)
  else none

/-- `Array.Copy` of a page into the array, from the word `pn * PAGE_SIZE` on. -/
def copyPage (physicalMemory : Fin 4194304 → Word) (pn : ℕ) (buffer : Page) :
    Fin 4194304 → Word := fun i =>
  if i.val / 256 = pn then buffer ⟨i.val % 256, Nat.mod_lt _ (by decide)⟩ else physicalMemory i

/-- `WritePage`: the memory afterwards, if the page is populated. -/
def writePage (m : SharpMemory) (physicalAddress : Word) (buffer : Page) : Option SharpMemory :=
  if (pageNumber physicalAddress).toNat < m.npages then
    some { m with
      physicalMemory := copyPage m.physicalMemory (pageNumber physicalAddress).toNat buffer }
  else none

end SharpMemory

/-- The main memory of the port with the contents of `mm`. -/
def MainMemory.flat (mm : MainMemory) : SharpMemory where
  npages := mm.npages
  physicalMemory := fun i => mm.pages ⟨i / 256, by omega⟩ ⟨i % 256, by omega⟩

/-- A flat memory holds the word of page and offset at their place. -/
theorem MainMemory.flat_flatIndex (mm : MainMemory) (page : Fin 16384) (offset : Fin 256) :
    mm.flat.physicalMemory (flatIndex page offset) = mm.pages page offset := by
  have hpage : (page.val * 256 + offset.val) / 256 = page := by omega
  have hoffset : (page.val * 256 + offset.val) % 256 = offset := by omega
  simp only [flat, flatIndex, hpage, hoffset]

/-- The place of the word at a physical address of 22 bits. -/
theorem flatIndex_of_lt {paddr : Word} (h : paddr.toNat < 4194304) :
    flatIndex ⟨_, pageNumber_lt paddr⟩ ⟨_, pageOffset_lt paddr⟩ = ⟨paddr.toNat, h⟩ := by
  apply Fin.ext
  simp only [flatIndex, pageNumber, pageOffset, toNat_and_mask _ 0x3FFF (n := 14) rfl,
    toNat_and_mask _ 0xFF (n := 8) rfl, toNat_shiftRight]
  omega

/-- A read of a 22-bit address is the read of the C program. -/
theorem MainMemory.flat_tryReadWord (mm : MainMemory) {paddr : Word}
    (h : paddr.toNat < 4194304) : mm.flat.tryReadWord paddr = mainMemoryRead mm paddr := by
  unfold SharpMemory.tryReadWord mainMemoryRead
  by_cases hpn : (pageNumber paddr).toNat < mm.npages
  · rw [dif_pos ⟨hpn, h⟩, if_pos hpn, ← flatIndex_of_lt h, MainMemory.flat_flatIndex]
    rfl
  · rw [dif_neg (fun h' => hpn h'.1), if_neg hpn]

/-- `ReadPhysical` is the word of `TryReadWord`. -/
theorem SharpMemory.readPhysical_eq (m : SharpMemory) (paddr : Word) :
    m.readPhysical paddr = (m.tryReadWord paddr).2 := by
  unfold readPhysical tryReadWord
  split <;> rfl

/-- A write of a 22-bit address is the write of the C program. -/
theorem MainMemory.flat_writePhysical (mm : MainMemory) {paddr : Word} (v : Word)
    (h : paddr.toNat < 4194304) :
    mm.flat.writePhysical paddr v = (mainMemoryWrite mm paddr v).2.flat := by
  unfold SharpMemory.writePhysical mainMemoryWrite
  by_cases hpn : (pageNumber paddr).toNat < mm.npages
  · rw [dif_pos ⟨hpn, h⟩, if_pos hpn]
    unfold flat
    congr 1
    funext i
    have hplace := flatIndex_of_lt h
    by_cases hi : i = ⟨paddr.toNat, h⟩
    · subst hi
      have hval := congrArg Fin.val hplace
      simp only [flatIndex] at hval
      have hlo := pageOffset_lt paddr
      have hpage : paddr.toNat / 256 = (pageNumber paddr).toNat := by omega
      have hoff : paddr.toNat % 256 = (pageOffset paddr).toNat := by omega
      simp only [Function.update_self, hpage, hoff]
    · rw [Function.update_of_ne hi]
      have hne : i.val ≠ paddr.toNat := fun heq => hi (Fin.ext heq)
      have hval := congrArg Fin.val hplace
      simp only [flatIndex] at hval
      have hlo := pageOffset_lt paddr
      by_cases hp : i.val / 256 = (pageNumber paddr).toNat
      · have ho : i.val % 256 ≠ (pageOffset paddr).toNat := by omega
        simp only [hp, Function.update_self]
        rw [Function.update_of_ne (fun heq => ho (Fin.mk.inj_iff.mp heq))]
      · simp only
        rw [Function.update_of_ne (fun heq => hp (Fin.mk.inj_iff.mp heq))]
  · rw [dif_neg (fun h' => hpn h'.1), if_neg hpn]

/-- A page read is one of the C program. -/
theorem MainMemory.flat_readPage (mm : MainMemory) (paddr : Word) :
    mm.flat.readPage paddr = mainMemoryReadPage mm paddr := by
  unfold SharpMemory.readPage mainMemoryReadPage
  by_cases hpn : (pageNumber paddr).toNat < mm.npages
  · rw [if_pos hpn]
    refine (if_pos hpn).trans (congrArg some (funext fun offset => ?_))
    exact mm.flat_flatIndex _ offset
  · rw [if_neg hpn]
    exact if_neg hpn

/-- A page write is one of the C program. -/
theorem MainMemory.flat_writePage (mm : MainMemory) (paddr : Word) (buffer : Page) :
    mm.flat.writePage paddr buffer = (mainMemoryWritePage mm paddr buffer).map MainMemory.flat := by
  unfold SharpMemory.writePage mainMemoryWritePage
  by_cases hpn : (pageNumber paddr).toNat < mm.npages
  · rw [if_pos hpn]
    refine (if_pos hpn).trans ?_
    simp only [Option.map_some, flat, Option.some.injEq, SharpMemory.mk.injEq, true_and]
    funext i
    unfold SharpMemory.copyPage
    split
    · rename_i hi
      simp only [hi, Function.update_self]
    · rename_i hi
      rw [Function.update_of_ne fun heq => hi (Fin.mk.inj_iff.mp heq)]
  · rw [if_neg hpn]
    exact if_neg hpn

end Usim
