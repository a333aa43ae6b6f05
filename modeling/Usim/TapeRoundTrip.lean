import Usim.Lib.Segments
import Usim.TapeCommands
import Usim.TapeHandshake
import Usim.TapeTransfers

/-!
# Records through the buffer

WRITE takes the words of a buffer in the window of the Unibus map to the tape, SPACE
REVERSE returns to the record, and READ stores it again. A word of the memory is two
half words of the Unibus and four bytes of the tape.
-/

namespace Usim

open Lib

variable {δ : Type}

/-! ### Words of the buffer -/

/-- The two physical addresses are of one word. -/
def SamePhysicalWord (paddr paddr' : Word) : Prop :=
  pageNumber paddr' = pageNumber paddr ∧ pageOffset paddr' = pageOffset paddr

/-- A word in the window of the Unibus map, through a valid and writable register to a
populated page. -/
structure BufferWord (b : BusGlobals δ) (uaddr : Word) : Prop where
  aligned : uaddr.toNat % 4 = 0
  lower : 0o140000 ≤ uaddr.toNat
  upper : uaddr.toNat + 4 ≤ 0o200000
  responds : b.responds true uaddr = true
  populated : b.Populated uaddr

/-- The value of a mapped address. -/
theorem toNat_mappedPaddr (mappingRegister : HalfWord) (uaddr : Word) :
    (mappedPaddr mappingRegister uaddr).toNat =
      (xbusPageNumber mappingRegister).toNat * 256 + uaddr.toNat / 4 % 256 := by
  have hpage := toNat_xbusPageNumber_lt mappingRegister
  have hoffset : ((uaddr >>> 2) &&& 0o377).toNat = uaddr.toNat / 4 % 256 := by
    rw [toNat_and_mask _ 0o377 (n := 8) rfl, toNat_shiftRight]
    rfl
  have hwide : ((xbusPageNumber mappingRegister).setWidth 32).toNat =
      (xbusPageNumber mappingRegister).toNat := by
    rw [BitVec.toNat_setWidth]
    omega
  rw [mappedPaddr, toNat_shiftLeft_or _ _ (by rw [hoffset]; omega) (by rw [hwide]; omega), hwide,
    hoffset]
  rfl

/-- The page of a mapped address. -/
theorem toNat_pageNumber_mapped (b : BusGlobals δ) (uaddr : Word) :
    (pageNumber (b.mapped uaddr)).toNat = (xbusPageNumber (b.mappingRegister uaddr)).toNat := by
  have hpage := toNat_xbusPageNumber_lt (b.mappingRegister uaddr)
  rw [pageNumber, toNat_and_mask _ _ (n := 14) rfl, toNat_shiftRight, BusState.mapped,
    toNat_mappedPaddr]
  omega

/-- The offset of a mapped address. -/
theorem toNat_pageOffset_mapped (b : BusGlobals δ) (uaddr : Word) :
    (pageOffset (b.mapped uaddr)).toNat = uaddr.toNat / 4 % 256 := by
  rw [pageOffset, toNat_and_mask _ _ (n := 8) rfl, BusState.mapped, toNat_mappedPaddr]
  omega

/-- The page of a populated address leads to the Xbus. -/
theorem BusState.Populated.onXbus {b : BusGlobals δ} {u : Word} (h : b.Populated u) :
    b.OnXbus u := by
  have hpage := h.1
  rw [toNat_pageNumber_mapped] at hpage
  unfold BusState.OnXbus
  rw [BitVec.lt_def, show (0o37000 : HalfWord).toNat = 0o37000 from rfl]
  omega

namespace BufferWord

variable {b b' : BusGlobals δ} {uaddr : Word} (h : BufferWord b uaddr)
include h

/-- The value of the address of the high half. -/
theorem toNat_high : (uaddr + 2).toNat = uaddr.toNat + 2 := by
  have hupper := h.upper
  rw [BitVec.toNat_add, show (2 : Word).toNat = 2 from rfl]
  omega

/-- The low half of the word. -/
theorem low_mem : 0o140000 ≤ uaddr ∧ uaddr ≤ 0o177777 := by
  have hlower := h.lower
  have hupper := h.upper
  simp only [BitVec.le_def, show (0o140000 : Word).toNat = 0o140000 from rfl,
    show (0o177777 : Word).toNat = 0o177777 from rfl]
  omega

/-- The high half of the word. -/
theorem high_mem : 0o140000 ≤ uaddr + 2 ∧ uaddr + 2 ≤ 0o177777 := by
  have hlower := h.lower
  have hupper := h.upper
  simp only [BitVec.le_def, h.toNat_high, show (0o140000 : Word).toNat = 0o140000 from rfl,
    show (0o177777 : Word).toNat = 0o177777 from rfl]
  omega

/-- The two halves of the word. -/
theorem pair : Pair ⟨uaddr, h.low_mem⟩ ⟨uaddr + 2, h.high_mem⟩ [] where
  lowHalf := by
    have haligned := h.aligned
    change uaddr.getLsbD 1 = false
    rw [BitVec.getLsbD, Nat.testBit_eq_decide_div_mod_eq]
    exact decide_eq_false (by omega)
  highHalf := by
    have haligned := h.aligned
    change (uaddr + 2).getLsbD 1 = true
    rw [BitVec.getLsbD, Nat.testBit_eq_decide_div_mod_eq, h.toNat_high]
    exact decide_eq_true (by omega)
  location := by
    have haligned := h.aligned
    change uaddr >>> 2 = (uaddr + 2) >>> 2
    apply BitVec.eq_of_toNat_eq
    rw [toNat_shiftRight, toNat_shiftRight, h.toNat_high]
    omega
  alone := fun _ he => nomatch he

/-- The page responds to reads too. -/
theorem responds_read : b.responds false uaddr = true := by
  have hresponds := h.responds
  unfold BusState.responds at hresponds ⊢
  rw [Bool.and_eq_true] at hresponds
  rw [hresponds.1]
  rfl

/-- The low half is read, and the high half goes to the buffer. -/
theorem read_low (dev : BusDevices δ) : busAdaptorUnibusRw dev false uaddr 0 b =
    .ok (half false (b.memory.word (b.mapped uaddr)),
      b.setBuffer uaddr (half true (b.memory.word (b.mapped uaddr)))) := by
  have hread := busAdaptorXbusRw_read_populated (xbusRoutines dev) 0 h.populated.1 h.populated.2
  rw [busAdaptorUnibusRw_window dev false ⟨uaddr, h.low_mem⟩,
    unibusMapRw_onXbus dev 0 h.responds_read h.populated.onXbus, if_neg Bool.false_ne_true,
    if_neg (h.pair.lowHalf ▸ Bool.false_ne_true), hread]
  rfl

/-- The high half is read from the buffer. -/
theorem read_high (dev : BusDevices δ) (v : HalfWord) :
    busAdaptorUnibusRw dev false (uaddr + 2) 0 (b.setBuffer uaddr v) =
      .ok (v, b.setBuffer uaddr v) := by
  obtain ⟨hresponds, hxbus, -⟩ := @Pair.responds _ _ _ h.pair _ b (b.setBuffer uaddr v) false rfl
  have hbuffer : (b.setBuffer uaddr v).mapping.buffers (unibusMapPage (uaddr + 2)) = v := by
    rw [show unibusMapPage (uaddr + 2) = unibusMapPage uaddr from h.pair.page]
    exact Function.update_self _ _ _
  rw [busAdaptorUnibusRw_window dev false ⟨uaddr + 2, h.high_mem⟩,
    unibusMapRw_onXbus dev 0 (hresponds.trans h.responds_read) (hxbus.mpr h.populated.onXbus),
    if_neg Bool.false_ne_true, if_pos h.pair.highHalf, hbuffer]

/-- The low half is written to the buffer. -/
theorem write_low (dev : BusDevices δ) (lo : HalfWord) :
    busAdaptorUnibusRw dev true uaddr lo b = .ok (lo, b.setBuffer uaddr lo) := by
  rw [busAdaptorUnibusRw_window dev true ⟨uaddr, h.low_mem⟩,
    unibusMapRw_onXbus dev lo h.responds h.populated.onXbus, if_pos rfl,
    if_neg (h.pair.lowHalf ▸ Bool.false_ne_true)]

/-- With the high half the word is written. -/
theorem write_high (dev : BusDevices δ) (lo hi : HalfWord) :
    ∃ mm, busAdaptorUnibusRw dev true (uaddr + 2) hi (b.setBuffer uaddr lo) =
        .ok (hi, (b.setBuffer uaddr lo).setMemory mm) ∧
      StoresOnly (b.mapped uaddr) (hi ++ lo) b.memory mm := by
  obtain ⟨hresponds, hxbus, hmapped⟩ := @Pair.responds _ _ _ h.pair _ b (b.setBuffer uaddr lo) true
    rfl
  have hbuffer : (b.setBuffer uaddr lo).mapping.buffers (unibusMapPage (uaddr + 2)) = lo := by
    rw [show unibusMapPage (uaddr + 2) = unibusMapPage uaddr from h.pair.page]
    exact Function.update_self _ _ _
  obtain ⟨mm, hwrite, hstores⟩ := busAdaptorXbusRw_write_populated (xbusRoutines dev)
    (b := b.setBuffer uaddr lo) (hi ++ lo) h.populated.1 h.populated.2
  have hmapped' : (b.setBuffer uaddr lo).mapped (uaddr + 2) = b.mapped uaddr := hmapped
  refine ⟨mm, ?_, hstores⟩
  rw [busAdaptorUnibusRw_window dev true ⟨uaddr + 2, h.high_mem⟩,
    unibusMapRw_onXbus dev hi (hresponds.trans h.responds) (hxbus.mpr h.populated.onXbus),
    if_pos rfl, if_pos h.pair.highHalf, hbuffer, hmapped', hwrite]
  rfl

end BufferWord

/-! ### The buffer -/

/-- A buffer of `len` bytes in the window of the Unibus map: its registers are valid and
writable, and lead to distinct populated pages. -/
structure TapeBuffer (b : BusGlobals δ) (uaddr : Word) (len : ℕ) : Prop where
  aligned : uaddr.toNat % 4 = 0
  lower : 0o140000 ≤ uaddr.toNat
  upper : uaddr.toNat + len ≤ 0o200000
  responds : ∀ u : Word, uaddr.toNat ≤ u.toNat → u.toNat < uaddr.toNat + len →
    b.responds true u = true
  populated : ∀ u : Word, uaddr.toNat ≤ u.toNat → u.toNat < uaddr.toNat + len → b.Populated u
  distinct : ∀ u u' : Word, uaddr.toNat ≤ u.toNat → u.toNat < uaddr.toNat + len →
    uaddr.toNat ≤ u'.toNat → u'.toNat < uaddr.toNat + len → unibusMapPage u ≠ unibusMapPage u' →
    xbusPageNumber (b.mappingRegister u) ≠ xbusPageNumber (b.mappingRegister u')

/-- The words of a buffer, from an address on. -/
def bufferWords (b : BusGlobals δ) : Word → ℕ → List Word
  | _, 0 => []
  | uaddr, n + 1 => b.memory.word (b.mapped uaddr) :: bufferWords b (uaddr + 4) n

/-- The page of the map, as a number. -/
theorem val_unibusMapPage {uaddr : Word} (hlower : 0o140000 ≤ uaddr.toNat)
    (hupper : uaddr.toNat < 0o200000) :
    (unibusMapPage uaddr).val = (uaddr.toNat - 0o140000) / 0o2000 := by
  have hle : (0o140000 : Word) ≤ uaddr := hlower
  have hvalue : ((uaddr - 0o140000) / 0o2000).toNat = (uaddr.toNat - 0o140000) / 0o2000 := by
    rw [BitVec.toNat_udiv, BitVec.toNat_sub_of_le hle]
    rfl
  change ((uaddr - 0o140000) / 0o2000).toNat % 16 = _
  rw [hvalue]
  omega

/-- The address of the next word. -/
theorem toNat_add_four {uaddr : Word} (hupper : uaddr.toNat + 4 ≤ 0o200000) :
    (uaddr + 4).toNat = uaddr.toNat + 4 := by
  rw [BitVec.toNat_add, show (4 : Word).toNat = 4 from rfl]
  omega

namespace TapeBuffer

variable {b b' : BusGlobals δ} {uaddr : Word} {len n : ℕ}

/-- The buffer depends on the mapping registers and the size of the memory. -/
theorem congr (h : TapeBuffer b uaddr len)
    (hregisters : b'.mapping.registers = b.mapping.registers)
    (hnpages : b'.memory.npages = b.memory.npages) : TapeBuffer b' uaddr len := by
  obtain ⟨haligned, hlower, hupper, hresponds, hpopulated, hdistinct⟩ := h
  refine ⟨haligned, hlower, hupper, ?_, ?_, ?_⟩
  · unfold BusState.responds BusState.mappingRegister at hresponds ⊢
    rwa [hregisters]
  · unfold BusState.Populated BusState.mapped BusState.mappingRegister at hpopulated ⊢
    rwa [hregisters, hnpages]
  · unfold BusState.mappingRegister at hdistinct ⊢
    rwa [hregisters]

/-- The first word of the buffer. -/
theorem first (h : TapeBuffer b uaddr (4 * (n + 1))) : BufferWord b uaddr where
  aligned := h.aligned
  lower := h.lower
  upper := by have := h.upper; omega
  responds := h.responds uaddr le_rfl (by omega)
  populated := h.populated uaddr le_rfl (by omega)

/-- The buffer without its first word. -/
theorem tail (h : TapeBuffer b uaddr (4 * (n + 1))) : TapeBuffer b (uaddr + 4) (4 * n) := by
  have hfour := toNat_add_four h.first.upper
  have hlower := h.lower
  have hupper := h.upper
  have haligned := h.aligned
  refine ⟨by omega, by omega, by omega, ?_, ?_, ?_⟩
  · exact fun u hu hu' => h.responds u (by omega) (by omega)
  · exact fun u hu hu' => h.populated u (by omega) (by omega)
  · exact fun u u' hu hu' hv hv' => h.distinct u u' (by omega) (by omega) (by omega) (by omega)

/-- Different words of the buffer are different words of the memory. -/
theorem injective (h : TapeBuffer b uaddr len) {u u' : Word} (hu : u.toNat % 4 = 0)
    (hlower : uaddr.toNat ≤ u.toNat) (hupper : u.toNat < uaddr.toNat + len)
    (hu' : u'.toNat % 4 = 0) (hlower' : uaddr.toNat ≤ u'.toNat)
    (hupper' : u'.toNat < uaddr.toNat + len) (hsame : SamePhysicalWord (b.mapped u) (b.mapped u')) :
    u = u' := by
  have hwindow := h.lower
  have hwindow' := h.upper
  have hpage : unibusMapPage u = unibusMapPage u' := by
    by_contra hne
    apply h.distinct u u' hlower hupper hlower' hupper' hne
    apply BitVec.eq_of_toNat_eq
    rw [← toNat_pageNumber_mapped, ← toNat_pageNumber_mapped, hsame.1]
  have hoffset := congrArg BitVec.toNat hsame.2
  rw [toNat_pageOffset_mapped, toNat_pageOffset_mapped] at hoffset
  have hvalue := congrArg Fin.val hpage
  rw [val_unibusMapPage (by omega) (by omega), val_unibusMapPage (by omega) (by omega)] at hvalue
  apply BitVec.eq_of_toNat_eq
  omega

end TapeBuffer

/-- The words depend on the mapping registers and the memory. -/
theorem bufferWords_congr {b b' : BusGlobals δ} {uaddr : Word} {n : ℕ}
    (hregisters : b'.mapping.registers = b.mapping.registers) (hmemory : b'.memory = b.memory) :
    bufferWords b' uaddr n = bufferWords b uaddr n := by
  induction n generalizing uaddr with
  | zero => rfl
  | succ n ih =>
    rw [bufferWords, bufferWords, ih, hmemory]
    unfold BusState.mapped BusState.mappingRegister
    rw [hregisters]

/-- Addresses in one word are mapped alike. -/
theorem mapped_eq (b : BusGlobals δ) {u u' : Word} (hlower : 0o140000 ≤ u.toNat)
    (hupper : u.toNat < 0o200000) (hlower' : 0o140000 ≤ u'.toNat) (hupper' : u'.toNat < 0o200000)
    (h : u.toNat / 4 = u'.toNat / 4) : b.mapped u = b.mapped u' := by
  have hpage : unibusMapPage u = unibusMapPage u' := by
    apply Fin.ext
    rw [val_unibusMapPage hlower hupper, val_unibusMapPage hlower' hupper']
    omega
  have hlocation : u >>> 2 = u' >>> 2 := by
    apply BitVec.eq_of_toNat_eq
    rw [toNat_shiftRight, toNat_shiftRight]
    omega
  unfold BusState.mapped BusState.mappingRegister mappedPaddr
  rw [hpage, hlocation]

/-- Buffers with the same words have the same word at every address. -/
theorem word_of_bufferWords {b b' : BusGlobals δ} {uaddr : Word} {n : ℕ}
    (haligned : uaddr.toNat % 4 = 0) (hlower : 0o140000 ≤ uaddr.toNat)
    (hupper : uaddr.toNat + 4 * n ≤ 0o200000)
    (hregisters : b'.mapping.registers = b.mapping.registers)
    (h : bufferWords b' uaddr n = bufferWords b uaddr n) {u : Word} (hu : uaddr.toNat ≤ u.toNat)
    (hu' : u.toNat < uaddr.toNat + 4 * n) :
    b'.memory.word (b.mapped u) = b.memory.word (b.mapped u) := by
  induction n generalizing uaddr with
  | zero => omega
  | succ n ih =>
    have hfour := @toNat_add_four uaddr (by omega)
    rw [bufferWords, bufferWords, List.cons.injEq] at h
    by_cases hfirst : u.toNat < uaddr.toNat + 4
    · have hmapped : b'.mapped uaddr = b.mapped uaddr := by
        unfold BusState.mapped BusState.mappingRegister
        rw [hregisters]
      rw [@mapped_eq _ b u uaddr (by omega) (by omega) hlower (by omega) (by omega),
        ← h.1, hmapped]
    · exact ih (by omega) (by omega) (by omega) h.2 (by omega) (by omega)

/-- As many words as asked for. -/
theorem length_bufferWords (b : BusGlobals δ) (uaddr : Word) (n : ℕ) :
    (bufferWords b uaddr n).length = n := by
  induction n generalizing uaddr with
  | zero => rfl
  | succ n ih => rw [bufferWords, List.length_cons, ih]

/-- Four bytes a word. -/
theorem length_flatMap_le32 (ws : List Word) : (ws.flatMap le32).length = 4 * ws.length :=
  length_flatMap_const fun w _ => length_le32 w

/-! ### The loop of WRITE -/

/-- The low byte of a half word. -/
theorem setWidth_and_byte (x : HalfWord) : (x &&& 0xFF).setWidth 8 = x.setWidth 8 :=
  Lib.setWidth_and_lowBits x 0xFF rfl (by decide)

/-- The bytes of the two halves of a word, as WRITE takes them. -/
theorem bytes_halves (w : Word) :
    [((half false w) &&& 0xFF).setWidth 8, ((half false w >>> 8) &&& 0xFF).setWidth 8,
      ((half true w) &&& 0xFF).setWidth 8, ((half true w >>> 8) &&& 0xFF).setWidth 8] = le32 w := by
  have hw := w.isLt
  have hbyte {x : HalfWord} {y : Word} (h : x.toNat % 256 = y.toNat % 256) :
      (x &&& 0xFF).setWidth 8 = y.setWidth 8 := by
    rw [setWidth_and_byte]
    apply BitVec.eq_of_toNat_eq
    rwa [BitVec.toNat_setWidth, BitVec.toNat_setWidth]
  unfold le32
  congr 1
  · apply hbyte
    simp only [half, Bool.false_eq_true, if_false, BitVec.toNat_setWidth]
    omega
  congr 1
  · apply hbyte
    simp only [half, Bool.false_eq_true, if_false, BitVec.toNat_setWidth,
      BitVec.toNat_ushiftRight, Nat.shiftRight_eq_div_pow]
    omega
  congr 1
  · apply hbyte
    simp only [half, if_true, BitVec.toNat_setWidth, BitVec.toNat_ushiftRight,
      Nat.shiftRight_eq_div_pow]
    omega
  congr 1
  · apply hbyte
    simp only [half, if_true, BitVec.toNat_setWidth, BitVec.toNat_ushiftRight,
      Nat.shiftRight_eq_div_pow]
    omega

/-- Two bytes are written one after the other. -/
theorem TapeUnit.writeUint8_writeUint8 {t : TapeUnit} {q : ℕ} (h : q + 2 ≤ t.drive.mmsz)
    (v₁ v₂ : Byte) :
    (((t.moveTo q).writeUint8 v₁).2.writeUint8 v₂).2 =
      (t.setBytes q [v₁, v₂]).moveTo (q + 2) := by
  rw [writeUint8_moveTo (by omega)]
  simp only
  rw [writeUint8_moveTo (by rw [mmsz_setBytes]; omega)]
  rfl

namespace TapeState

variable {dev : BusDevices δ} {fuel : ℕ} {s : TapeState δ}

/-- A turn of the loop that reads a half word. -/
theorem writeLoop_turn (hcount : s.mtbrc < 0) {data : HalfWord} {bus : BusGlobals δ}
    (hread : busAdaptorUnibusRw dev false s.mtcma 0 s.bus = .ok (data, bus))
    (hquiet : busError bus = false) :
    s.writeLoop dev (fuel + 1) = writeLoop dev fuel
      { unit := ((s.unit.writeUint8 ((data &&& 0xFF).setWidth 8)).2.writeUint8
          (((data >>> 8) &&& 0xFF).setWidth 8)).2
        mtbrc := s.mtbrc + 1 + 1
        mtcma := s.mtcma + 2
        bus := bus } := by
  rw [writeLoop, if_pos hcount, hread]
  simp only [hquiet, Bool.false_eq_true, if_false]

/-- Two turns write a word. -/
theorem writeLoop_word {t : TapeUnit} {q : ℕ} {mtbrc : ℤ} {uaddr : Word} {b : BusGlobals δ}
    (hword : BufferWord b uaddr) (hquiet : busError b = false) (hroom : q + 4 ≤ t.drive.mmsz)
    (hcount : mtbrc ≤ -4) :
    writeLoop dev (fuel + 2) ⟨t.moveTo q, mtbrc, uaddr, b⟩ = writeLoop dev fuel
      ⟨(t.setBytes q (le32 (b.memory.word (b.mapped uaddr)))).moveTo (q + 4), mtbrc + 4, uaddr + 4,
        b.setBuffer uaddr (half true (b.memory.word (b.mapped uaddr)))⟩ := by
  generalize hw : b.memory.word (b.mapped uaddr) = w
  have hlow := hword.read_low dev
  rw [hw] at hlow
  have hhigh := hword.read_high dev (half true w)
  have hquiet' : busError (b.setBuffer uaddr (half true w)) = false := hquiet
  have hcount₁ : mtbrc < 0 := by omega
  have hcount₂ : mtbrc + 1 + 1 < 0 := by omega
  rw [show fuel + 2 = fuel + 1 + 1 from rfl, writeLoop_turn hcount₁ hlow hquiet']
  simp only
  rw [TapeUnit.writeUint8_writeUint8 (by omega), writeLoop_turn hcount₂ hhigh hquiet']
  simp only
  rw [TapeUnit.writeUint8_writeUint8 (by rw [TapeUnit.mmsz_setBytes]; omega),
    TapeUnit.setBytes_setBytes (q := q + 2) _ _ rfl, List.cons_append, List.cons_append,
    List.nil_append, bytes_halves]
  have hcount' : mtbrc + 1 + 1 + 1 + 1 = mtbrc + 4 := by omega
  have haddr : uaddr + 2 + 2 = uaddr + 4 := by
    rw [BitVec.add_assoc]
    rfl
  rw [hcount', haddr]

/-- The loop writes the words of the buffer. -/
theorem writeLoop_buffer {n : ℕ} {t : TapeUnit} {q : ℕ} {uaddr : Word} {b : BusGlobals δ}
    (hbuffer : TapeBuffer b uaddr (4 * n)) (hquiet : busError b = false)
    (hroom : q + 4 * n ≤ t.drive.mmsz) :
    ∃ buffers, writeLoop dev (2 * n + fuel) ⟨t.moveTo q, -(4 * n : ℕ), uaddr, b⟩ =
      .ok ⟨(t.setBytes q ((bufferWords b uaddr n).flatMap le32)).moveTo (q + 4 * n), 0,
        uaddr + BitVec.ofNat 32 (4 * n), b.onMapping ({ · with buffers := buffers })⟩ := by
  induction n generalizing t q uaddr b with
  | zero =>
    refine ⟨b.mapping.buffers, ?_⟩
    have haddr : uaddr + BitVec.ofNat 32 (4 * 0) = uaddr := BitVec.add_zero uaddr
    rw [haddr]
    cases fuel <;> rfl
  | succ n ih =>
    have hword := hbuffer.first
    have hnext : TapeBuffer
        (b.setBuffer uaddr (half true (b.memory.word (b.mapped uaddr)))) (uaddr + 4) (4 * n) :=
      hbuffer.tail.congr rfl rfl
    obtain ⟨buffers, hrest⟩ := ih
      (t := t.setBytes q (le32 (b.memory.word (b.mapped uaddr)))) (q := q + 4) hnext hquiet
      (by rw [TapeUnit.mmsz_setBytes]; omega)
    refine ⟨buffers, ?_⟩
    have hfuel : 2 * (n + 1) + fuel = (2 * n + fuel) + 2 := by omega
    have hcount : -((4 * (n + 1) : ℕ) : ℤ) + 4 = -((4 * n : ℕ) : ℤ) := by omega
    have hwords : bufferWords (b.setBuffer uaddr (half true (b.memory.word (b.mapped uaddr))))
        (uaddr + 4) n = bufferWords b (uaddr + 4) n := bufferWords_congr rfl rfl
    rw [hfuel, writeLoop_word hword hquiet (by omega) (by omega), hcount, hrest, hwords,
      TapeUnit.setBytes_setBytes (q := q + 4) _ _ rfl]
    have hpos : q + 4 + 4 * n = q + 4 * (n + 1) := by omega
    have haddr : uaddr + 4 + BitVec.ofNat 32 (4 * n) = uaddr + BitVec.ofNat 32 (4 * (n + 1)) := by
      rw [show 4 * (n + 1) = 4 + 4 * n by omega, BitVec.ofNat_add, BitVec.add_assoc]
      rfl
    rw [hpos, haddr]
    rfl

/-! ### The loop of READ -/

/-- A turn of the loop that stores a half word. -/
theorem readLoop_turn {t : TapeUnit} {q : ℕ} {mtbrc : ℤ} {uaddr : Word} {b bus : BusGlobals δ}
    {recordLength : Word} {pv : HalfWord} (hroom : q + 2 ≤ t.drive.mmsz) (hcount : mtbrc < 0)
    (hlength : 0 < recordLength.toNat)
    (hwrite : busAdaptorUnibusRw dev true uaddr (t.drive.mm (q + 1) ++ t.drive.mm q) b =
      .ok (pv, bus))
    (hquiet : busError bus = false) :
    readLoop dev (fuel + 1) recordLength ⟨t.moveTo q, mtbrc, uaddr, b⟩ =
      readLoop dev fuel (recordLength - 1 - 1)
        ⟨t.moveTo (q + 2), mtbrc + 1 + 1, uaddr + 2, bus⟩ := by
  have hfirst : (t.moveTo q).readUint8 = (some (t.drive.mm q), t.moveTo (q + 1)) :=
    TapeUnit.readUint8_moveTo (by omega)
  have hsecond : (t.moveTo (q + 1)).readUint8 = (some (t.drive.mm (q + 1)), t.moveTo (q + 2)) :=
    TapeUnit.readUint8_moveTo (by omega)
  have hgo : mtbrc < 0 ∧ recordLength > 0 := ⟨hcount, hlength⟩
  rw [readLoop, if_pos hgo]
  simp only [hfirst, hsecond, Option.getD_some, shiftLeft_or_setWidth, hwrite, hquiet,
    Bool.false_eq_true, if_false]

/-- Two turns store a word. -/
theorem readLoop_word {t : TapeUnit} {q : ℕ} {mtbrc : ℤ} {uaddr : Word} {b : BusGlobals δ}
    {recordLength : Word} (hword : BufferWord b uaddr) (hquiet : busError b = false)
    (hroom : q + 4 ≤ t.drive.mmsz) (hcount : mtbrc ≤ -4) (hlength : 4 ≤ recordLength.toNat) :
    ∃ lo mm, readLoop dev (fuel + 2) recordLength ⟨t.moveTo q, mtbrc, uaddr, b⟩ =
        readLoop dev fuel (recordLength - 4)
          ⟨t.moveTo (q + 4), mtbrc + 4, uaddr + 4, (b.setBuffer uaddr lo).setMemory mm⟩ ∧
      StoresOnly (b.mapped uaddr) (wordAt t.drive.mm q) b.memory mm := by
  generalize hlo : t.drive.mm (q + 1) ++ t.drive.mm q = lo
  generalize hhi : t.drive.mm (q + 3) ++ t.drive.mm (q + 2) = hi
  have hlow : busAdaptorUnibusRw dev true uaddr (t.drive.mm (q + 1) ++ t.drive.mm q) b =
      .ok (lo, b.setBuffer uaddr lo) := by
    rw [hlo]
    exact hword.write_low dev lo
  obtain ⟨mm, hwrite, hstores⟩ := hword.write_high dev lo hi
  have hhigh : busAdaptorUnibusRw dev true (uaddr + 2)
      (t.drive.mm (q + 2 + 1) ++ t.drive.mm (q + 2)) (b.setBuffer uaddr lo) =
        .ok (hi, (b.setBuffer uaddr lo).setMemory mm) := by
    rw [show t.drive.mm (q + 2 + 1) ++ t.drive.mm (q + 2) = hi from hhi]
    exact hwrite
  have hquiet₁ : busError (b.setBuffer uaddr lo) = false := hquiet
  have hquiet₂ : busError ((b.setBuffer uaddr lo).setMemory mm) = false := hquiet
  have htwo : (recordLength - 1 - 1).toNat = recordLength.toNat - 2 := by
    rw [show recordLength - 1 - 1 = recordLength - 2 by rw [BitVec.sub_sub]; rfl,
      BitVec.toNat_sub_of_le]
    · rfl
    · simp only [BitVec.le_def, show (2 : Word).toNat = 2 from rfl]
      omega
  refine ⟨lo, mm, ?_, ?_⟩
  · have hcount' : mtbrc + 1 + 1 + 1 + 1 = mtbrc + 4 := by omega
    have haddr : uaddr + 2 + 2 = uaddr + 4 := by
      rw [BitVec.add_assoc]
      rfl
    have hrest : recordLength - 1 - 1 - 1 - 1 = recordLength - 4 := by
      simp only [BitVec.sub_sub]
      rfl
    rw [show fuel + 2 = fuel + 1 + 1 from rfl,
      readLoop_turn (by omega) (by omega) (by omega) hlow hquiet₁,
      readLoop_turn (by omega) (by omega) (by omega) hhigh hquiet₂, hcount', haddr, hrest]
  · rwa [← hlo, ← hhi, append_append_append] at hstores

end TapeState

/-- The words of a string stand in the buffer of the second state. Nothing else of the memory
has changed. -/
structure BufferStored (uaddr : Word) (ws : List Word) (b b' : BusGlobals δ) : Prop where
  registers : b'.mapping.registers = b.mapping.registers
  npages : b'.memory.npages = b.memory.npages
  interface : b'.interface = b.interface
  words : bufferWords b' uaddr ws.length = ws
  others : ∀ paddr, (∀ u : Word, u.toNat % 4 = 0 → uaddr.toNat ≤ u.toNat →
      u.toNat < uaddr.toNat + 4 * ws.length → ¬SamePhysicalWord (b.mapped u) paddr) →
    b'.memory.word paddr = b.memory.word paddr

/-- A word is stored, and then the rest. -/
theorem BufferStored.cons {b b' : BusGlobals δ} {uaddr w : Word} {ws : List Word} {lo : HalfWord}
    {mm : MainMemory} (hbuffer : TapeBuffer b uaddr (4 * (ws.length + 1)))
    (hstores : StoresOnly (b.mapped uaddr) w b.memory mm)
    (h : BufferStored (uaddr + 4) ws ((b.setBuffer uaddr lo).setMemory mm) b') :
    BufferStored uaddr (w :: ws) b b' := by
  have hfour := toNat_add_four hbuffer.first.upper
  have haligned := hbuffer.aligned
  refine ⟨h.registers, h.npages.trans hstores.npages, h.interface, ?_, ?_⟩
  · have hmapped : b'.mapped uaddr = b.mapped uaddr := by
      unfold BusState.mapped BusState.mappingRegister
      rw [h.registers]
      rfl
    have hkept := h.others (b.mapped uaddr) fun u hu hlower hupper hsame => by
      have heq := @TapeBuffer.injective _ _ _ _ hbuffer u uaddr hu (by omega) (by omega) haligned
        le_rfl (by omega) hsame
      rw [heq] at hlower
      omega
    have hword : ((b.setBuffer uaddr lo).setMemory mm).memory.word (b.mapped uaddr) = w :=
      (hstores.word _).trans (if_pos ⟨rfl, rfl⟩)
    rw [List.length_cons, bufferWords, hmapped, hkept, hword, h.words]
  · intro paddr hother
    rw [List.length_cons] at hother
    have hkept := h.others paddr fun u hu hlower hupper =>
      hother u hu (by omega) (by omega)
    have hword := (hstores.word paddr).trans
      (if_neg (hother uaddr haligned le_rfl (by omega)))
    exact hkept.trans hword

/-- The loop stores the words of the record in the buffer. -/
theorem TapeState.readLoop_buffer {dev : BusDevices δ} {fuel : ℕ} {ws : List Word} {t : TapeUnit}
    {q : ℕ} {uaddr : Word} {b : BusGlobals δ} (hbuffer : TapeBuffer b uaddr (4 * ws.length))
    (hquiet : busError b = false) (hroom : q + 4 * ws.length ≤ t.drive.mmsz)
    (hbytes : BytesAt t.drive.mm q (ws.flatMap le32)) :
    ∃ b', readLoop dev (2 * ws.length + fuel) (BitVec.ofNat 32 (4 * ws.length))
        ⟨t.moveTo q, -(4 * ws.length : ℕ), uaddr, b⟩ =
      .ok (0, ⟨t.moveTo (q + 4 * ws.length), 0, uaddr + BitVec.ofNat 32 (4 * ws.length), b'⟩) ∧
      BufferStored uaddr ws b b' := by
  induction ws generalizing q uaddr b with
  | nil =>
    refine ⟨b, ?_, rfl, rfl, rfl, rfl, fun _ _ => rfl⟩
    have haddr : uaddr + BitVec.ofNat 32 (4 * 0) = uaddr := BitVec.add_zero uaddr
    rw [List.length_nil, haddr]
    cases fuel <;> rfl
  | cons w ws ih =>
    rw [List.length_cons] at hbuffer hroom ⊢
    rw [List.flatMap_cons, bytesAt_append] at hbytes
    have hupper := hbuffer.upper
    obtain ⟨lo, mm, hword, hstores⟩ := @readLoop_word _ dev (2 * ws.length + fuel) t q
      (-(4 * (ws.length + 1) : ℕ)) uaddr b (BitVec.ofNat 32 (4 * (ws.length + 1)))
      hbuffer.first hquiet (show q + 4 ≤ t.drive.mmsz by omega) (by omega)
      (by rw [BitVec.toNat_ofNat]; omega)
    rw [wordAt_of_bytesAt hbytes.1] at hstores
    obtain ⟨b', hrest, hstored⟩ := ih (b := (b.setBuffer uaddr lo).setMemory mm)
      (hbuffer.tail.congr rfl hstores.npages) hquiet (q := q + 4) (by omega) hbytes.2
    refine ⟨b', ?_, hstored.cons hbuffer hstores⟩
    have hfuel : 2 * (ws.length + 1) + fuel = (2 * ws.length + fuel) + 2 := by omega
    have hcount : -((4 * (ws.length + 1) : ℕ) : ℤ) + 4 = -((4 * ws.length : ℕ) : ℤ) := by omega
    have hlength : BitVec.ofNat 32 (4 * (ws.length + 1)) - 4 = BitVec.ofNat 32 (4 * ws.length) := by
      rw [show 4 * (ws.length + 1) = 4 * ws.length + 4 by omega, BitVec.ofNat_add]
      exact BitVec.add_sub_cancel _ _
    have hpos : q + 4 + 4 * ws.length = q + 4 * (ws.length + 1) := by omega
    have haddr : uaddr + 4 + BitVec.ofNat 32 (4 * ws.length) =
        uaddr + BitVec.ofNat 32 (4 * (ws.length + 1)) := by
      rw [show 4 * (ws.length + 1) = 4 + 4 * ws.length by omega, BitVec.ofNat_add,
        BitVec.add_assoc]
      rfl
    rw [hfuel, hword, hcount, hlength, hrest, hpos, haddr]

/-! ### The commands -/

/-- A record of whole words, with its length before and after them. -/
def wordRecord (ws : List Word) : List Byte :=
  le32 (BitVec.ofNat 32 (4 * ws.length)) ++
    (ws.flatMap le32 ++ le32 (BitVec.ofNat 32 (4 * ws.length)))

/-- The size of the record. -/
theorem length_wordRecord (ws : List Word) : (wordRecord ws).length = 4 * ws.length + 8 := by
  unfold wordRecord
  rw [List.length_append, List.length_append, length_le32, length_flatMap_le32]
  omega

namespace TapeState

variable {dev : BusDevices δ} {t : TapeUnit} {uaddr : Word} {b : BusGlobals δ}

/-- After its reset the error status reports nothing. -/
theorem busError_resetBusErrorStatus (b : BusGlobals δ) :
    busError (b.onInterface BusInterface.resetBusErrorStatus) = false := by
  change (decide ((0 : HalfWord) &&& 0o40 ≠ 0) || decide ((0 : HalfWord) &&& 0o10 ≠ 0)) = false
  decide

/-- After the last half word WRITE writes the postamble. -/
theorem writeEnd_complete {s : TapeState δ} (hnxm : s.unit.mts.nxm = false) (hcount : s.mtbrc = 0)
    (recordLength : Word) :
    s.writeEnd recordLength = { s with unit := (s.unit.writeUint32 recordLength).2 } := by
  unfold writeEnd
  rw [hnxm, if_neg Bool.false_ne_true, if_pos hcount]

/-- After the last half word READ passes the postamble, and a mark behind it. -/
theorem readEnd_complete {t : TapeUnit} {q : ℕ} (hnxm : t.mts.nxm = false)
    (hroom : q + 8 ≤ t.drive.mmsz) (mtcma : Word) (b : BusGlobals δ) :
    readEnd (0, ⟨t.moveTo q, 0, mtcma, b⟩) =
      ⟨if wordAt t.drive.mm (q + 4) = tapeFileMark then (t.moveTo (q + 8)).setMtsEof
        else t.moveTo (q + 4), 0, mtcma, b⟩ := by
  have hpostamble : (t.moveTo q).readUint32 = (some (wordAt t.drive.mm q), t.moveTo (q + 4)) :=
    TapeUnit.readUint32_moveTo (by omega)
  have hnext : (t.moveTo (q + 4)).readUint32 =
      (some (wordAt t.drive.mm (q + 4)), t.moveTo (q + 8)) :=
    TapeUnit.readUint32_moveTo (by omega)
  have hback : (((q + 8 : ℕ) : ℤ) + -4).toNat = q + 4 := by omega
  have hnxm' : (t.moveTo q).mts.nxm = false := hnxm
  have hdone : ¬(0 : Word) > 0 := by decide
  unfold readEnd
  simp only [hnxm', hdone, Bool.false_eq_true, if_false, hpostamble, hnext, Option.getD_some,
    TapeUnit.seek_moveTo hroom, hback]
  by_cases hmark : wordAt t.drive.mm (q + 4) = tapeFileMark
  · rw [if_pos hmark, if_pos hmark]
    rfl
  · rw [if_neg hmark, if_neg hmark]

/-- WRITE writes the words of the buffer as a record. -/
theorem write_buffer {n : ℕ} (hn : 0 < n) (hbuffer : TapeBuffer b uaddr (4 * n))
    (hwrite : t.drive.readOnly = false) (hnxm : t.mts.nxm = false)
    (hroom : t.drive.pos + 4 * n + 8 ≤ t.drive.mmsz) :
    ∃ buffers, write dev ⟨t, -(4 * n : ℕ), uaddr, b⟩ =
      .ok ⟨(t.setBytes t.drive.pos (wordRecord (bufferWords b uaddr n))).moveTo
          (t.drive.pos + 4 * n + 8), 0, uaddr + BitVec.ofNat 32 (4 * n),
        (b.onInterface BusInterface.resetBusErrorStatus).onMapping
          ({ · with buffers := buffers })⟩ := by
  have hlower := hbuffer.lower
  have hupper := hbuffer.upper
  have hrecord : WritesRecord (-(4 * n : ℕ)) := ⟨by omega, by omega⟩
  have hlength : BitVec.ofInt 32 (-(-((4 * n : ℕ) : ℤ))) = BitVec.ofNat 32 (4 * n) := by
    rw [neg_neg, BitVec.ofInt_natCast]
  have hwriting : writing ⟨t, -(4 * n : ℕ), uaddr, b⟩ =
      ⟨(t.setBytes t.drive.pos (le32 (BitVec.ofNat 32 (4 * n)))).moveTo (t.drive.pos + 4),
        -(4 * n : ℕ), uaddr, b.onInterface BusInterface.resetBusErrorStatus⟩ := by
    unfold writing
    simp only [hlength]
    rw [TapeUnit.writeUint32_of_le (by omega)]
  obtain ⟨buffers, hloop⟩ := @writeLoop_buffer _ dev (2 * n) n
    (t.setBytes t.drive.pos (le32 (BitVec.ofNat 32 (4 * n)))) (t.drive.pos + 4) uaddr
    (b.onInterface BusInterface.resetBusErrorStatus) (hbuffer.congr rfl rfl)
    (busError_resetBusErrorStatus b) (by rw [TapeUnit.mmsz_setBytes]; omega)
  have hwords : bufferWords (b.onInterface BusInterface.resetBusErrorStatus) uaddr n =
      bufferWords b uaddr n := bufferWords_congr rfl rfl
  have hfuel : (-(-((4 * n : ℕ) : ℤ))).toNat = 2 * n + 2 * n := by omega
  have hpos : t.drive.pos + 4 + 4 * n + 4 = t.drive.pos + 4 * n + 8 := by omega
  refine ⟨buffers, ?_⟩
  rw [write_eq dev (by simp only; omega) (by simp only; omega) (fun _ => by simp only; omega),
    if_pos ⟨hwrite, hrecord⟩, hwriting, hfuel, hloop, hwords, hlength]
  change Except.ok (writeEnd _ _) = _
  rw [writeEnd_complete hnxm rfl]
  simp only
  rw [TapeUnit.writeUint32_moveTo (by simp only [TapeUnit.mmsz_setBytes]; omega), hpos,
    TapeUnit.setBytes_setBytes (q := t.drive.pos + 4 + 4 * n) _ _
      (by rw [length_flatMap_le32, length_bufferWords]),
    TapeUnit.setBytes_setBytes (q := t.drive.pos + 4) _ _ rfl]
  unfold wordRecord
  rw [length_bufferWords]

/-- SPACE REVERSE returns to the beginning of a record. -/
theorem spaceReverse_wordRecord {ws : List Word} {q : ℕ} {mtcma : Word}
    (hlength : 4 * ws.length < 2 ^ 31) (hbytes : BytesAt t.drive.mm q (wordRecord ws))
    (hpos : t.drive.pos = q + 4 * ws.length + 8) (hbot : t.drive.bot = false) :
    spaceReverse ⟨t, -1, mtcma, b⟩ = ⟨t.moveTo q, 0, mtcma, b⟩ := by
  have hroom := t.drive.pos_le
  have hlast : wordAt t.drive.mm (q + 4 * ws.length + 4) = BitVec.ofNat 32 (4 * ws.length) := by
    have hpostamble := wordAt_of_bytesAt (bytesAt_append.mp (bytesAt_append.mp hbytes).2).2
    rw [length_le32, length_flatMap_le32] at hpostamble
    rwa [show q + 4 * ws.length + 4 = q + 4 + 4 * ws.length by omega]
  have hvalue : (BitVec.ofNat 32 (4 * ws.length)).toNat = 4 * ws.length := by
    rw [BitVec.toNat_ofNat]
    omega
  have hmark : wordAt t.drive.mm (q + 4 * ws.length + 4) ≠ tapeFileMark := by
    intro heq
    have hnat := congrArg BitVec.toNat heq
    rw [hlast, hvalue, show tapeFileMark.toNat = 2 ^ 32 - 1 from rfl] at hnat
    omega
  have hspace : t.spaceReverse false = t.moveTo q := by
    rw [TapeUnit.spaceReverse_eq (q := q + 4 * ws.length + 4) false (by omega) (by omega),
      if_neg hmark, hlast, hvalue]
    congr 1
    omega
  unfold spaceReverse
  simp only [hbot, Bool.false_eq_true, if_false, hspace]
  rw [if_neg (by decide), show Int.bmod (-1 + 1) (2 ^ 16) = 0 from rfl]
  simp only [neg_zero, Int.toNat_zero, spaceReverseLoop, ite_self]

/-- READ stores the words of a record in the buffer. -/
theorem read_wordRecord {ws : List Word} (hlength : 4 * ws.length < 2 ^ 31)
    (hbuffer : TapeBuffer b uaddr (4 * ws.length)) (hnxm : t.mts.nxm = false)
    (hbytes : BytesAt t.drive.mm t.drive.pos (wordRecord ws))
    (hroom : t.drive.pos + 4 * ws.length + 12 ≤ t.drive.mmsz) :
    ∃ b', read dev ⟨t, -(4 * ws.length : ℕ), uaddr, b⟩ =
      .ok ⟨if wordAt t.drive.mm (t.drive.pos + 4 * ws.length + 8) = tapeFileMark then
          (t.moveTo (t.drive.pos + 4 * ws.length + 12)).setMtsEof
        else t.moveTo (t.drive.pos + 4 * ws.length + 8), 0,
        uaddr + BitVec.ofNat 32 (4 * ws.length), b'⟩ ∧
      BufferStored uaddr ws (b.onInterface BusInterface.resetBusErrorStatus) b' := by
  have hlower := hbuffer.lower
  have hupper := hbuffer.upper
  have hvalue : (BitVec.ofNat 32 (4 * ws.length)).toNat = 4 * ws.length := by
    rw [BitVec.toNat_ofNat]
    omega
  have hfirst : t.readUint32 =
      (some (BitVec.ofNat 32 (4 * ws.length)), t.moveTo (t.drive.pos + 4)) := by
    rw [TapeUnit.readUint32_of_le (by omega), wordAt_of_bytesAt (bytesAt_append.mp hbytes).1]
  have hpreamble : preamble ⟨t, -(4 * ws.length : ℕ), uaddr, b⟩ =
      BitVec.ofNat 32 (4 * ws.length) := by
    unfold preamble
    rw [hfirst]
    rfl
  have hreading : reading ⟨t, -(4 * ws.length : ℕ), uaddr, b⟩ =
      ⟨t.moveTo (t.drive.pos + 4), -(4 * ws.length : ℕ), uaddr,
        b.onInterface BusInterface.resetBusErrorStatus⟩ := by
    unfold reading
    rw [hfirst]
  have hmark : BitVec.ofNat 32 (4 * ws.length) ≠ tapeFileMark := by
    intro heq
    have hnat := congrArg BitVec.toNat heq
    rw [hvalue, show tapeFileMark.toNat = 2 ^ 32 - 1 from rfl] at hnat
    omega
  have hdata := (bytesAt_append.mp (bytesAt_append.mp hbytes).2).1
  rw [length_le32] at hdata
  obtain ⟨b', hloop, hstored⟩ := @readLoop_buffer _ dev (2 * ws.length) ws t _ uaddr
    (b.onInterface BusInterface.resetBusErrorStatus) (hbuffer.congr rfl rfl)
    (busError_resetBusErrorStatus b) (show t.drive.pos + 4 + 4 * ws.length ≤ t.drive.mmsz by omega)
    hdata
  have hfuel : (-(-((4 * ws.length : ℕ) : ℤ))).toNat = 2 * ws.length + 2 * ws.length := by omega
  refine ⟨b', ?_, hstored⟩
  rw [read_eq, hpreamble, if_neg hmark, hreading, hfuel, hloop]
  change Except.ok (readEnd _) = _
  rw [readEnd_complete hnxm (by omega),
    show t.drive.pos + 4 + 4 * ws.length + 4 = t.drive.pos + 4 * ws.length + 8 by omega,
    show t.drive.pos + 4 + 4 * ws.length + 8 = t.drive.pos + 4 * ws.length + 12 by omega]

end TapeState

/-! ### The round trip -/

/-- The bus address in MTCMA. -/
def TapeCommand.address (c : TapeCommand) : Word := c.mtcma.setWidth 32 ||| (c.ea <<< 16)

/-- No error of a transfer is reported. -/
def Mts.Clean (m : Mts) : Prop := m.ilc = false ∧ m.rle = false ∧ m.nxm = false

/-- WRITE of `len` bytes, SPACE REVERSE over one record, and READ of `len` bytes to the same
buffer, for one drive. -/
structure RecordCommands (write reverse read : TapeCommand) (len : ℕ) : Prop where
  goes : write.Goes ∧ reverse.Goes ∧ read.Goes
  function : write.function = 2 ∧ reverse.function = 5 ∧ read.function = 1
  drive : reverse.slt = write.slt ∧ read.slt = write.slt
  count : write.mtbrc.toInt = -len ∧ reverse.mtbrc.toInt = -1 ∧ read.mtbrc.toInt = -len
  address : read.address = write.address
  words : len % 4 = 0
  nonempty : 4 ≤ len

/-- The controller is ready, the drive is online with a writable tape that has room for the
record and a word more, and the buffer is mapped. -/
structure ReadyToWrite (s : TapeSystem δ) (write : TapeCommand) (len : ℕ) : Prop where
  ready : s.controller.mtc.cur = true
  online : (s.controller.drives write.slt).online = true
  writable : (s.controller.drives write.slt).readOnly = false
  room : (s.controller.drives write.slt).pos + len + 12 ≤ (s.controller.drives write.slt).mmsz
  buffer : TapeBuffer s.bus write.address len

/-- The record was written in the first step, and the tape stands before it after the second.
The memory is as it was. -/
structure RecordWritten (slt : Fin 8) (s s₁ s₂ : TapeSystem δ) : Prop where
  position : (s₂.controller.drives slt).pos = (s.controller.drives slt).pos
  registers : s₂.bus.mapping.registers = s.bus.mapping.registers
  memory : s₂.bus.memory = s.bus.memory
  mtbrc : s₂.controller.mtbrc = 0
  written : s₁.controller.mts.Clean
  spaced : s₂.controller.mts.Clean

/-- The record was read back. -/
structure RecordRestored (slt : Fin 8) (uaddr : Word) (len : ℕ) (s : TapeSystem δ)
    (overwritten : BusGlobals δ) (s' : TapeSystem δ) : Prop where
  /-- The buffer has the words that were written. -/
  words : ∀ u : Word, uaddr.toNat ≤ u.toNat → u.toNat < uaddr.toNat + len →
    s'.bus.memory.word (s.bus.mapped u) = s.bus.memory.word (s.bus.mapped u)
  /-- The other words are those found by READ. -/
  others : ∀ paddr, (∀ u : Word, uaddr.toNat ≤ u.toNat → u.toNat < uaddr.toNat + len →
      ¬SamePhysicalWord (s.bus.mapped u) paddr) →
    s'.bus.memory.word paddr = overwritten.memory.word paddr
  mtbrc : s'.controller.mtbrc = 0
  mtcma : s'.controller.mtcma = uaddr + BitVec.ofNat 32 len
  clean : s'.controller.mts.Clean
  /-- A mark that follows the record is passed and reported. -/
  eof : s'.controller.mts.eof = decide (wordAt (s.controller.drives slt).mm
    ((s.controller.drives slt).pos + len + 8) = tapeFileMark)
  position : (s'.controller.drives slt).pos = (s.controller.drives slt).pos + len + 8 +
    if wordAt (s.controller.drives slt).mm ((s.controller.drives slt).pos + len + 8) = tapeFileMark
    then 4 else 0
  /-- The other bytes of the tape are as before. -/
  tape : ∀ i, i < (s.controller.drives slt).pos ∨ (s.controller.drives slt).pos + len + 8 ≤ i →
    (s'.controller.drives slt).mm i = (s.controller.drives slt).mm i
  /-- So are the other drives. -/
  drives : ∀ d, d ≠ slt → s'.controller.drives d = s.controller.drives d

namespace TapeSystem

variable {dev : BusDevices δ} {s : TapeSystem δ}

/-- What a command finds, for a drive and a count. -/
theorem found_eq {c : TapeCommand} {k : ℤ} (hcount : c.mtbrc.toInt = k) :
    s.found c = ⟨(s.found c).unit, k, c.address, s.bus⟩ := by
  rw [← hcount]
  rfl

/-- A command that ends, issued to a ready controller. -/
theorem issue_of_command {c : TapeCommand} {t : TapeState δ} (hgo : c.Goes)
    (hcur : s.controller.mtc.cur = true) (honline : (s.controller.drives c.slt).online = true)
    (hrun : (s.found c).command dev c.register = .ok t) : s.issue dev c = .ok (s.left c t) := by
  rw [issue_eq dev hgo hcur honline, hrun]
  rfl

/-- A command that ended without an error has moved one tape and counted MTBRC to 0. -/
structure Moved (slt : Fin 8) (mm : Medium) (q : ℕ) (s s' : TapeSystem δ) : Prop where
  ready : s'.controller.mtc.cur = true
  online : (s'.controller.drives slt).online = (s.controller.drives slt).online
  mmsz : (s'.controller.drives slt).mmsz = (s.controller.drives slt).mmsz
  mm : (s'.controller.drives slt).mm = mm
  pos : (s'.controller.drives slt).pos = q
  bot : (s'.controller.drives slt).bot = decide (q = 0)
  drives : ∀ d, d ≠ slt → s'.controller.drives d = s.controller.drives d
  mtbrc : s'.controller.mtbrc = 0
  clean : s'.controller.mts.Clean

/-- What is left of a command that has moved the tape. -/
theorem moved_left {c : TapeCommand} {t : TapeState δ} {u : TapeUnit} {q : ℕ}
    (hdrive : t.unit.drive = (u.moveTo q).drive)
    (honline : u.drive.online = (s.controller.drives c.slt).online)
    (hmmsz : u.drive.mmsz = (s.controller.drives c.slt).mmsz) (hq : q ≤ u.drive.mmsz)
    (hmtbrc : t.mtbrc = 0) (hclean : t.unit.mts.Clean) :
    Moved c.slt u.drive.mm q s (s.left c t) := by
  have hself : (s.left c t).controller.drives c.slt =
      { (u.moveTo q).drive with ready := true } := by
    rw [TapeSystem.drives_left, hdrive]
  refine ⟨rfl, ?_, ?_, ?_, ?_, ?_, fun d hd => Function.update_of_ne hd _ _, hmtbrc, hclean⟩
  · rw [hself]
    exact honline
  · rw [hself]
    exact hmmsz
  · rw [hself]
    rfl
  · rw [hself]
    exact TapeUnit.pos_moveTo hq
  · rw [hself]
    exact TapeUnit.bot_moveTo hq

/-- The interrupt at the end of a command leaves the memory and its map. -/
theorem left_bus (c : TapeCommand) (t : TapeState δ) :
    (s.left c t).bus.mapping = t.bus.mapping ∧ (s.left c t).bus.memory = t.bus.memory := by
  unfold left tapeAssertUnibusInterrupt
  split <;> exact ⟨rfl, rfl⟩

/-- WRITE, issued to a ready controller. -/
theorem issue_write {c : TapeCommand} {n : ℕ} (hgo : c.Goes) (hfunction : c.function = 2)
    (hn : 0 < n) (hcount : c.mtbrc.toInt = -(4 * n : ℕ)) (hs : ReadyToWrite s c (4 * n)) :
    ∃ s', s.issue dev c = .ok s' ∧
      Moved c.slt (store (s.controller.drives c.slt).mm (s.controller.drives c.slt).pos
          (wordRecord (bufferWords s.bus c.address n)))
        ((s.controller.drives c.slt).pos + 4 * n + 8) s s' ∧
      s'.bus.mapping.registers = s.bus.mapping.registers ∧ s'.bus.memory = s.bus.memory := by
  have hroom := hs.room
  obtain ⟨buffers, hwrite⟩ := @TapeState.write_buffer _ dev (s.found c).unit _ _ _ hn
    hs.buffer hs.writable rfl (show (s.controller.drives c.slt).pos + 4 * n + 8 ≤
      (s.controller.drives c.slt).mmsz by omega)
  have hcommand : (s.found c).command dev c.register = (s.found c).write dev := by
    unfold TapeState.command
    rw [show c.register.function = 2 from hfunction]
  rw [← found_eq hcount] at hwrite
  refine ⟨_, issue_of_command hgo hs.ready hs.online (hcommand.trans hwrite), ?_, ?_, ?_⟩
  · exact moved_left (u := (s.found c).unit.setBytes (s.controller.drives c.slt).pos
      (wordRecord (bufferWords s.bus c.address n))) rfl rfl rfl
      (show (s.controller.drives c.slt).pos + 4 * n + 8 ≤ (s.controller.drives c.slt).mmsz by omega)
      rfl ⟨rfl, rfl, rfl⟩
  · rw [(left_bus c _).1]
    rfl
  · rw [(left_bus c _).2]
    rfl

/-- SPACE REVERSE over one record of words. -/
theorem issue_spaceReverse_wordRecord {c : TapeCommand} {ws : List Word} {q : ℕ} (hgo : c.Goes)
    (hfunction : c.function = 5) (hcount : c.mtbrc.toInt = -1)
    (hcur : s.controller.mtc.cur = true) (honline : (s.controller.drives c.slt).online = true)
    (hlength : 4 * ws.length < 2 ^ 31)
    (hbytes : BytesAt (s.controller.drives c.slt).mm q (wordRecord ws))
    (hpos : (s.controller.drives c.slt).pos = q + 4 * ws.length + 8)
    (hbot : (s.controller.drives c.slt).bot = false) :
    ∃ s', s.issue dev c = .ok s' ∧ Moved c.slt (s.controller.drives c.slt).mm q s s' ∧
      s'.bus.mapping.registers = s.bus.mapping.registers ∧ s'.bus.memory = s.bus.memory := by
  have hspace := @TapeState.spaceReverse_wordRecord _ (s.found c).unit s.bus _ _ c.address
    hlength hbytes hpos hbot
  have hle := (s.controller.drives c.slt).pos_le
  have hcommand : (s.found c).command dev c.register = .ok (s.found c).spaceReverse := by
    unfold TapeState.command
    rw [show c.register.function = 5 from hfunction]
  rw [found_eq hcount, hspace] at hcommand
  rw [← found_eq hcount] at hcommand
  refine ⟨_, issue_of_command hgo hcur honline hcommand, ?_, ?_, ?_⟩
  · exact moved_left (u := (s.found c).unit) rfl rfl rfl
      (show q ≤ (s.controller.drives c.slt).mmsz by omega) rfl ⟨rfl, rfl, rfl⟩
  · rw [(left_bus c _).1]
  · rw [(left_bus c _).2]

/-- READ of a record of words. -/
theorem issue_read {c : TapeCommand} {ws : List Word} {q : ℕ} (hgo : c.Goes)
    (hfunction : c.function = 1) (hcount : c.mtbrc.toInt = -(4 * ws.length : ℕ))
    (hcur : s.controller.mtc.cur = true) (honline : (s.controller.drives c.slt).online = true)
    (hlength : 4 * ws.length < 2 ^ 31) (hbuffer : TapeBuffer s.bus c.address (4 * ws.length))
    (hbytes : BytesAt (s.controller.drives c.slt).mm q (wordRecord ws))
    (hpos : (s.controller.drives c.slt).pos = q)
    (hroom : q + 4 * ws.length + 12 ≤ (s.controller.drives c.slt).mmsz) :
    ∃ s', s.issue dev c = .ok s' ∧
      Moved c.slt (s.controller.drives c.slt).mm (q + 4 * ws.length + 8 +
        if wordAt (s.controller.drives c.slt).mm (q + 4 * ws.length + 8) = tapeFileMark then 4
        else 0) s s' ∧
      s'.controller.mts.eof = decide (wordAt (s.controller.drives c.slt).mm
        (q + 4 * ws.length + 8) = tapeFileMark) ∧
      s'.controller.mtcma = c.address + BitVec.ofNat 32 (4 * ws.length) ∧
      ∃ b, s'.bus.memory = b.memory ∧
        BufferStored c.address ws (s.bus.onInterface BusInterface.resetBusErrorStatus) b := by
  obtain ⟨b, hread, hstored⟩ := @TapeState.read_wordRecord _ dev (s.found c).unit _ _ _
    hlength hbuffer rfl (hpos.symm ▸ hbytes) (hpos.symm ▸ hroom)
  have hcommand : (s.found c).command dev c.register = (s.found c).read dev := by
    unfold TapeState.command
    rw [show c.register.function = 1 from hfunction]
  rw [← found_eq hcount] at hread
  have hissue := issue_of_command hgo hcur honline (hcommand.trans hread)
  have hu : (s.found c).unit.drive.pos = q := hpos
  have hmm : (s.found c).unit.drive.mm = (s.controller.drives c.slt).mm := rfl
  rw [hu, hmm] at hissue
  by_cases hmark : wordAt (s.controller.drives c.slt).mm (q + 4 * ws.length + 8) = tapeFileMark
  · rw [if_pos hmark] at hissue
    refine ⟨_, hissue, ?_, (decide_eq_true hmark).symm, rfl, b, (left_bus c _).2, hstored⟩
    rw [if_pos hmark]
    exact moved_left (u := (s.found c).unit) rfl rfl rfl hroom rfl ⟨rfl, rfl, rfl⟩
  · rw [if_neg hmark] at hissue
    refine ⟨_, hissue, ?_, (decide_eq_false hmark).symm, rfl, b, (left_bus c _).2, hstored⟩
    rw [if_neg hmark]
    exact moved_left (u := (s.found c).unit) rfl rfl rfl
      (show q + 4 * ws.length + 8 ≤ (s.controller.drives c.slt).mmsz by omega) rfl ⟨rfl, rfl, rfl⟩

end TapeSystem

/-- A record written from a buffer, spaced over and read back restores the buffer, whatever the
memory held in between, and leaves the rest of the tape. -/
theorem tape_record_round_trip (dev : BusDevices δ) {write reverse read : TapeCommand} {len : ℕ}
    (hcommands : RecordCommands write reverse read len) {s : TapeSystem δ}
    (hs : ReadyToWrite s write len) :
    ∃ s₁ s₂, s.issue dev write = .ok s₁ ∧ s₁.issue dev reverse = .ok s₂ ∧
      RecordWritten write.slt s s₁ s₂ ∧
      ∀ overwritten : BusGlobals δ,
        overwritten.mapping.registers = s₂.bus.mapping.registers →
        overwritten.memory.npages = s₂.bus.memory.npages →
        ∃ s₃, TapeSystem.issue dev read { s₂ with bus := overwritten } = .ok s₃ ∧
          RecordRestored write.slt write.address len s overwritten s₃ := by
  obtain ⟨⟨hgo, hgo', hgo''⟩, ⟨hfun, hfun', hfun''⟩, ⟨hslt', hslt''⟩, ⟨hcount, hcount', hcount''⟩,
    haddr, hfour, hnonempty⟩ := hcommands
  obtain ⟨n, rfl⟩ : ∃ n, len = 4 * n := ⟨len / 4, by omega⟩
  have hupper := hs.buffer.upper
  have hlower := hs.buffer.lower
  generalize hws : bufferWords s.bus write.address n = ws
  have hn : ws.length = n := by rw [← hws, length_bufferWords]
  subst hn
  -- WRITE
  obtain ⟨s₁, hissue₁, hmoved₁, hregisters₁, hmemory₁⟩ :=
    @TapeSystem.issue_write _ dev _ _ _ hgo hfun (by omega) hcount hs
  rw [hws] at hmoved₁
  -- SPACE REVERSE
  have honline₁ : (s₁.controller.drives reverse.slt).online = true := by
    rw [hslt', hmoved₁.online]
    exact hs.online
  have hbytes₁ : BytesAt (s₁.controller.drives reverse.slt).mm
      (s.controller.drives write.slt).pos (wordRecord ws) := by
    rw [hslt', hmoved₁.mm]
    exact bytesAt_store _
  have hbot₁ : (s₁.controller.drives reverse.slt).bot = false := by
    rw [hslt', hmoved₁.bot]
    exact decide_eq_false (by omega)
  obtain ⟨s₂, hissue₂, hmoved₂, hregisters₂, hmemory₂⟩ :=
    @TapeSystem.issue_spaceReverse_wordRecord _ dev _ _ _ _ hgo' hfun' hcount' hmoved₁.ready
      honline₁ (by omega) hbytes₁ (by rw [hslt', hmoved₁.pos]) hbot₁
  rw [hslt'] at hmoved₂
  refine ⟨s₁, s₂, hissue₁, hissue₂, ?_, ?_⟩
  · exact ⟨hmoved₂.pos, hregisters₂.trans hregisters₁, hmemory₂.trans hmemory₁, hmoved₂.mtbrc,
      hmoved₁.clean, hmoved₂.clean⟩
  intro overwritten hregisters hnpages
  -- READ
  have hmm₂ : (s₂.controller.drives write.slt).mm = store (s.controller.drives write.slt).mm
      (s.controller.drives write.slt).pos (wordRecord ws) :=
    hmoved₂.mm.trans hmoved₁.mm
  have hmmsz₂ : (s₂.controller.drives write.slt).mmsz = (s.controller.drives write.slt).mmsz :=
    hmoved₂.mmsz.trans hmoved₁.mmsz
  have honline₂ : (s₂.controller.drives write.slt).online = true :=
    (hmoved₂.online.trans hmoved₁.online).trans hs.online
  have hregisters' : overwritten.mapping.registers = s.bus.mapping.registers :=
    hregisters.trans (hregisters₂.trans hregisters₁)
  have hnpages' : overwritten.memory.npages = s.bus.memory.npages := by
    rw [hnpages, hmemory₂, hmemory₁]
  obtain ⟨s₃, hissue₃, hmoved₃, heof, hmtcma, b, hmemory₃, hstored⟩ :=
    @TapeSystem.issue_read _ dev { s₂ with bus := overwritten } read ws
      (s.controller.drives write.slt).pos hgo'' hfun'' hcount'' hmoved₂.ready
      (by rwa [hslt'']) (by omega) (by rw [haddr]; exact hs.buffer.congr hregisters' hnpages')
      (by rw [hslt'', hmm₂]; exact bytesAt_store _) (by rw [hslt'']; exact hmoved₂.pos)
      (by rw [hslt'', hmmsz₂]; exact hs.room)
  have hnext : wordAt (s₂.controller.drives write.slt).mm
      ((s.controller.drives write.slt).pos + 4 * ws.length + 8) =
        wordAt (s.controller.drives write.slt).mm
          ((s.controller.drives write.slt).pos + 4 * ws.length + 8) := by
    rw [hmm₂]
    exact wordAt_store (by rw [length_wordRecord]; omega)
  rw [hslt''] at hmoved₃ heof
  simp only [hnext] at hmoved₃ heof
  rw [haddr] at hmtcma hstored
  refine ⟨s₃, hissue₃, ?_⟩
  refine ⟨?_, ?_, hmoved₃.mtbrc, hmtcma, hmoved₃.clean, heof, hmoved₃.pos, ?_, ?_⟩
  · intro u hu hu'
    have hwords : bufferWords b write.address ws.length =
        bufferWords s.bus write.address ws.length := by
      rw [hstored.words, hws]
    rw [hmemory₃]
    exact word_of_bufferWords hs.buffer.aligned hlower hupper
      (hstored.registers.trans hregisters') hwords hu hu'
  · intro paddr hother
    rw [hmemory₃]
    refine hstored.others paddr fun u _ hu hu' => ?_
    have hmapped : BusState.mapped (overwritten.onInterface BusInterface.resetBusErrorStatus) u =
        s.bus.mapped u := by
      unfold BusState.mapped BusState.mappingRegister
      rw [← hregisters']
      rfl
    rw [hmapped]
    exact hother u hu hu'
  · intro i hi
    rw [hmoved₃.mm, hmm₂]
    exact store_of_notMem (by rw [length_wordRecord]; omega)
  · intro d hd
    rw [hmoved₃.drives d hd, hmoved₂.drives d hd, hmoved₁.drives d hd]

/-- The first page of the map leads to the first page of the memory. -/
theorem tapeBuffer_firstPage : TapeBuffer (mappedBus firstPages) 0o140000 8 := by
  have hpage {u : Word} (hu : 0o140000 ≤ u.toNat) (hu' : u.toNat < 0o140010) :
      unibusMapPage u = 0 := by
    apply Fin.ext
    rw [val_unibusMapPage hu (by omega)]
    change (u.toNat - 0o140000) / 0o2000 = 0
    omega
  refine ⟨rfl, le_rfl, by decide, ?_, ?_, ?_⟩
  · intro u hu hu'
    unfold BusState.responds BusState.mappingRegister
    rw [hpage hu hu']
    decide
  · intro u hu hu'
    have hzero : (xbusPageNumber ((mappedBus firstPages).mappingRegister u)).toNat = 0 := by
      unfold BusState.mappingRegister
      rw [hpage hu hu']
      decide
    unfold BusState.Populated
    rw [toNat_pageNumber_mapped, hzero]
    decide
  · intro u u' hu hu' hv hv' hne
    exact absurd ((hpage hu hu').trans (hpage hv hv').symm) hne

/-- Two words are written, the first page of the memory is overwritten, and the words are back. -/
theorem tape_record_round_trip_two_words :
    ∃ s₁ s₂, TapeHandshake.blankTapes.issue bareDevices ⟨0xFFF8, 0o140000, 0o5⟩ = .ok s₁ ∧
      s₁.issue bareDevices ⟨0xFFFF, 0, 0o13⟩ = .ok s₂ ∧
      ∃ s₃, TapeSystem.issue bareDevices ⟨0xFFF8, 0o140000, 0o3⟩
          { s₂ with bus := s₂.bus.setMemory ⟨s₂.bus.memory.npages, fun _ _ => 7⟩ } = .ok s₃ ∧
        s₃.bus.memory.word 0 = 0 ∧ s₃.bus.memory.word 1 = 0 := by
  have hcommands : RecordCommands ⟨0xFFF8, 0o140000, 0o5⟩ ⟨0xFFFF, 0, 0o13⟩ ⟨0xFFF8, 0o140000, 0o3⟩
      8 :=
    ⟨by decide, by decide, by decide, by decide, by decide, by decide, by decide⟩
  have hready : ReadyToWrite TapeHandshake.blankTapes ⟨0xFFF8, 0o140000, 0o5⟩ 8 :=
    ⟨rfl, rfl, rfl, by decide, tapeBuffer_firstPage⟩
  obtain ⟨s₁, s₂, hissue₁, hissue₂, -, hread⟩ :=
    tape_record_round_trip bareDevices hcommands hready
  obtain ⟨s₃, hissue₃, hrestored⟩ := hread
    (s₂.bus.setMemory ⟨s₂.bus.memory.npages, fun _ _ => 7⟩) rfl rfl
  have hword (u : Word) (hu : 0o140000 ≤ u.toNat) (hu' : u.toNat < 0o140010) :=
    hrestored.words u hu hu'
  exact ⟨s₁, s₂, hissue₁, hissue₂, s₃, hissue₃, hword 0o140000 (by decide) (by decide),
    hword 0o140004 (by decide) (by decide)⟩

end Usim
