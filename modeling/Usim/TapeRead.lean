import Mathlib.Tactic.IntervalCases
import Usim.TapeLoops
import Usim.TapeRoundTrip

/-!
# READ of one record

READ moves half words through the window of the Unibus map, of which the low ones wait
in the buffer of their page until a high one comes. What it leaves in the memory and on
the tape, against the bytes of the record, for records and counts of any length.
-/

namespace Usim

open Lib

variable {δ : Type}

/-! ### Half words in the window -/

/-- A destination of `len` bytes in the window of the Unibus map, at any address: its registers
are valid and writable, and lead to distinct populated pages. -/
structure MappedBytes (b : BusGlobals δ) (uaddr : Word) (len : ℕ) : Prop where
  lower : 0o140000 ≤ uaddr.toNat
  upper : uaddr.toNat + len ≤ 0o200000
  responds : ∀ u : Word, uaddr.toNat ≤ u.toNat → u.toNat < uaddr.toNat + len →
    b.responds true u = true
  populated : ∀ u : Word, uaddr.toNat ≤ u.toNat → u.toNat < uaddr.toNat + len → b.Populated u
  distinct : ∀ u u' : Word, uaddr.toNat ≤ u.toNat → u.toNat < uaddr.toNat + len →
    uaddr.toNat ≤ u'.toNat → u'.toNat < uaddr.toNat + len → unibusMapPage u ≠ unibusMapPage u' →
    xbusPageNumber (b.mappingRegister u) ≠ xbusPageNumber (b.mappingRegister u')

/-- An address in the window. -/
theorem mem_window {u : Word} (hlower : 0o140000 ≤ u.toNat) (hupper : u.toNat < 0o200000) :
    0o140000 ≤ u ∧ u ≤ 0o177777 := by
  simp only [BitVec.le_def, show (0o140000 : Word).toNat = 0o140000 from rfl,
    show (0o177777 : Word).toNat = 0o177777 from rfl]
  omega

/-- The high half words are those with bit 1 of the address. -/
theorem hiword_eq (u : Word) : hiword u = decide (2 ≤ u.toNat % 4) := by
  unfold hiword
  rw [BitVec.getLsbD, Nat.testBit_eq_decide_div_mod_eq, decide_eq_decide]
  omega

namespace MappedBytes

variable {b b' : BusGlobals δ} {uaddr : Word} {len n : ℕ}

/-- The destination depends on the mapping registers and the size of the memory. -/
theorem congr (h : MappedBytes b uaddr len)
    (hregisters : b'.mapping.registers = b.mapping.registers)
    (hnpages : b'.memory.npages = b.memory.npages) : MappedBytes b' uaddr len := by
  obtain ⟨hlower, hupper, hresponds, hpopulated, hdistinct⟩ := h
  refine ⟨hlower, hupper, ?_, ?_, ?_⟩
  · unfold BusState.responds BusState.mappingRegister at hresponds ⊢
    rwa [hregisters]
  · unfold BusState.Populated BusState.mapped BusState.mappingRegister at hpopulated ⊢
    rwa [hregisters, hnpages]
  · unfold BusState.mappingRegister at hdistinct ⊢
    rwa [hregisters]

/-- The destination without its first half word. -/
theorem tail (h : MappedBytes b uaddr (2 * (n + 1))) : MappedBytes b (uaddr + 2) (2 * n) := by
  have hlower := h.lower
  have hupper := h.upper
  have htwo : (uaddr + 2).toNat = uaddr.toNat + 2 := by
    rw [BitVec.toNat_add, show (2 : Word).toNat = 2 from rfl]
    omega
  refine ⟨by omega, by omega, ?_, ?_, ?_⟩
  · exact fun u hu hu' => h.responds u (by omega) (by omega)
  · exact fun u hu hu' => h.populated u (by omega) (by omega)
  · exact fun u u' hu hu' hv hv' => h.distinct u u' (by omega) (by omega) (by omega) (by omega)

/-- Addresses of one word of the memory lie in one word of the window. -/
theorem injective (h : MappedBytes b uaddr len) {u u' : Word} (hlower : uaddr.toNat ≤ u.toNat)
    (hupper : u.toNat < uaddr.toNat + len) (hlower' : uaddr.toNat ≤ u'.toNat)
    (hupper' : u'.toNat < uaddr.toNat + len) (hsame : SamePhysicalWord (b.mapped u) (b.mapped u')) :
    u.toNat / 4 = u'.toNat / 4 := by
  have hwindow := h.lower
  have hwindow' := h.upper
  have hpage : unibusMapPage u = unibusMapPage u' := by
    by_contra hne
    apply h.distinct u u' hlower hupper hlower' hupper' hne
    apply BitVec.eq_of_toNat_eq
    rw [← toNat_pageNumber_mapped, ← toNat_pageNumber_mapped, hsame.1]
  have hoffset := congrArg BitVec.toNat hsame.2
  rw [toNat_pageOffset_mapped, toNat_pageOffset_mapped] at hoffset
  have hvalue := congrArg Fin.val hpage
  rw [val_unibusMapPage (by omega) (by omega), val_unibusMapPage (by omega) (by omega)] at hvalue
  omega

/-- A low half word goes to the buffer of its page. -/
theorem write_low (h : MappedBytes b uaddr len) (hlen : 0 < len) (hlow : hiword uaddr = false)
    (dev : BusDevices δ) (v : HalfWord) :
    busAdaptorUnibusRw dev true uaddr v b = .ok (v, b.setBuffer uaddr v) := by
  have hupper := h.upper
  have hresponds := h.responds uaddr le_rfl (by omega)
  have hxbus := (h.populated uaddr le_rfl (by omega)).onXbus
  rw [busAdaptorUnibusRw_window dev true ⟨uaddr, mem_window h.lower (by omega)⟩,
    unibusMapRw_onXbus dev v hresponds hxbus, if_pos rfl, if_neg (hlow ▸ Bool.false_ne_true)]

/-- With a high half word and the buffer a word is stored. -/
theorem write_high (h : MappedBytes b uaddr len) (hlen : 0 < len) (hhigh : hiword uaddr = true)
    (dev : BusDevices δ) (v : HalfWord) :
    ∃ mm, busAdaptorUnibusRw dev true uaddr v b = .ok (v, b.setMemory mm) ∧
      StoresOnly (b.mapped uaddr) (v ++ b.mapping.buffers (unibusMapPage uaddr)) b.memory mm := by
  have hupper := h.upper
  have hresponds := h.responds uaddr le_rfl (by omega)
  have hpopulated := h.populated uaddr le_rfl (by omega)
  obtain ⟨mm, hwrite, hstores⟩ := busAdaptorXbusRw_write_populated (xbusRoutines dev) (b := b)
    (v ++ b.mapping.buffers (unibusMapPage uaddr)) hpopulated.1 hpopulated.2
  refine ⟨mm, ?_, hstores⟩
  rw [busAdaptorUnibusRw_window dev true ⟨uaddr, mem_window h.lower (by omega)⟩,
    unibusMapRw_onXbus dev v hresponds hpopulated.onXbus, if_pos rfl, if_pos hhigh, hwrite]
  rfl

end MappedBytes

/-- The half words of the tape from a position on. -/
def tapeHalves (mm : Medium) : ℕ → ℕ → List HalfWord
  | _, 0 => []
  | q, n + 1 => (mm (q + 1) ++ mm q) :: tapeHalves mm (q + 2) n

/-- As many half words as asked for. -/
@[simp] theorem length_tapeHalves (mm : Medium) (q n : ℕ) : (tapeHalves mm q n).length = n := by
  induction n generalizing q with
  | zero => rfl
  | succ n ih => rw [tapeHalves, List.length_cons, ih]

/-- A half word of the tape. -/
theorem getElem?_tapeHalves (mm : Medium) {q n i : ℕ} (h : i < n) :
    (tapeHalves mm q n)[i]? = some (mm (q + 2 * i + 1) ++ mm (q + 2 * i)) := by
  induction n generalizing q i with
  | zero => omega
  | succ n ih =>
    cases i with
    | zero => rfl
    | succ i =>
      rw [tapeHalves, List.getElem?_cons_succ, ih (by omega),
        show q + 2 + 2 * i = q + 2 * (i + 1) by omega]

/-- Half words were stored from an address on, each high one with the low one before it, or
with the buffer if there is none. Nothing else of the memory has changed. -/
structure HalvesStored (uaddr : Word) (hs : List HalfWord) (b b' : BusGlobals δ) : Prop where
  registers : b'.mapping.registers = b.mapping.registers
  npages : b'.memory.npages = b.memory.npages
  interface : b'.interface = b.interface
  words : ∀ (i : ℕ) (hi lo : HalfWord), hs[i]? = some hi →
    (b.mapping.buffers (unibusMapPage uaddr) :: hs)[i]? = some lo →
    hiword (uaddr + BitVec.ofNat 32 (2 * i)) = true →
    b'.memory.word (b.mapped (uaddr + BitVec.ofNat 32 (2 * i))) = hi ++ lo
  others : ∀ paddr, (∀ i < hs.length, hiword (uaddr + BitVec.ofNat 32 (2 * i)) = true →
      ¬SamePhysicalWord (b.mapped (uaddr + BitVec.ofNat 32 (2 * i))) paddr) →
    b'.memory.word paddr = b.memory.word paddr

/-- The address of a half word. -/
theorem toNat_halfAddress {b : BusGlobals δ} {uaddr : Word} {len i : ℕ}
    (h : MappedBytes b uaddr len) (hi : 2 * i < len) :
    (uaddr + BitVec.ofNat 32 (2 * i)).toNat = uaddr.toNat + 2 * i := by
  have hupper := h.upper
  rw [BitVec.toNat_add, BitVec.toNat_ofNat]
  omega

/-- Nothing is stored. -/
theorem HalvesStored.nil (uaddr : Word) (b : BusGlobals δ) : HalvesStored uaddr [] b b :=
  ⟨rfl, rfl, rfl, fun _ _ _ h => (nomatch h), fun _ _ => rfl⟩

/-- A low half word goes to the buffer, and then the rest is stored. -/
theorem HalvesStored.cons_low {b b' : BusGlobals δ} {uaddr : Word} {h : HalfWord}
    {hs : List HalfWord} (hmapped : MappedBytes b uaddr (2 * (hs.length + 1)))
    (hlow : hiword uaddr = false)
    (hrest : HalvesStored (uaddr + 2) hs (b.setBuffer uaddr h) b') :
    HalvesStored uaddr (h :: hs) b b' := by
  have hlower := hmapped.lower
  have hupper := hmapped.upper
  refine ⟨hrest.registers, hrest.npages, hrest.interface, ?_, ?_⟩
  · intro i hi lo hhi hlo hhigh
    cases i with
    | zero =>
      rw [show uaddr + BitVec.ofNat 32 (2 * 0) = uaddr from BitVec.add_zero uaddr, hlow] at hhigh
      cases hhigh
    | succ i =>
      rw [List.getElem?_cons_succ] at hhi hlo
      rw [← halfAddress_succ] at hhigh ⊢
      refine hrest.words i hi lo hhi ?_ hhigh
      cases i with
      | zero =>
        have hpage : unibusMapPage (uaddr + 2) = unibusMapPage uaddr := by
          obtain ⟨hlt, -⟩ := List.getElem?_eq_some_iff.mp hhi
          have htwo := toNat_halfAddress (i := 1) hmapped (by omega)
          have hlow' : ¬2 ≤ uaddr.toNat % 4 := of_decide_eq_false (hiword_eq uaddr ▸ hlow)
          apply Fin.ext
          rw [val_unibusMapPage hlower (by omega), val_unibusMapPage]
          · change ((uaddr + BitVec.ofNat 32 (2 * 1)).toNat - 0o140000) / 0o2000 = _
            omega
          · change 0o140000 ≤ (uaddr + BitVec.ofNat 32 (2 * 1)).toNat
            omega
          · change (uaddr + BitVec.ofNat 32 (2 * 1)).toNat < 0o200000
            omega
        cases hlo
        rw [hpage]
        exact congrArg some (Function.update_self _ _ _)
      | succ i => exact hlo
  · intro paddr hother
    refine hrest.others paddr fun i hi hhigh => ?_
    rw [halfAddress_succ] at hhigh ⊢
    exact hother (i + 1) (Nat.succ_lt_succ hi) hhigh

/-- A high half word is stored with the buffer, and then the rest is stored. -/
theorem HalvesStored.cons_high {b b' : BusGlobals δ} {uaddr : Word} {h : HalfWord}
    {hs : List HalfWord} {mm : MainMemory}
    (hmapped : MappedBytes b uaddr (2 * (hs.length + 1))) (hhigh : hiword uaddr = true)
    (hstores : StoresOnly (b.mapped uaddr) (h ++ b.mapping.buffers (unibusMapPage uaddr))
      b.memory mm)
    (hrest : HalvesStored (uaddr + 2) hs (b.setMemory mm) b') :
    HalvesStored uaddr (h :: hs) b b' := by
  have hlower := hmapped.lower
  have hupper := hmapped.upper
  have hhigh' : 2 ≤ uaddr.toNat % 4 := of_decide_eq_true (hiword_eq uaddr ▸ hhigh)
  have hzero : uaddr + BitVec.ofNat 32 (2 * 0) = uaddr := BitVec.add_zero uaddr
  refine ⟨hrest.registers, hrest.npages.trans hstores.npages, hrest.interface, ?_, ?_⟩
  · intro i hi lo hhi hlo hhigh''
    cases i with
    | zero =>
      cases hhi
      cases hlo
      have hkept := hrest.others (b.mapped uaddr) fun i hi hhigh hsame => by
        rw [halfAddress_succ] at hhigh hsame
        have haddr := toNat_halfAddress (i := i + 1) hmapped (by omega)
        have hword := hmapped.injective (by omega) (by omega) le_rfl (by omega) hsame
        omega
      rw [hzero, hkept]
      exact (hstores.word _).trans (if_pos ⟨rfl, rfl⟩)
    | succ i =>
      rw [List.getElem?_cons_succ] at hhi hlo
      rw [← halfAddress_succ] at hhigh'' ⊢
      refine hrest.words i hi lo hhi ?_ hhigh''
      cases i with
      | zero =>
        -- the half word behind a high one is low
        obtain ⟨hlt, -⟩ := List.getElem?_eq_some_iff.mp hhi
        have htwo := toNat_halfAddress (i := 0 + 1) hmapped (by omega)
        rw [halfAddress_succ, hiword_eq, decide_eq_true_eq] at hhigh''
        omega
      | succ i => exact hlo
  · intro paddr hother
    have hkept := hrest.others paddr fun i hi hhigh => by
      rw [halfAddress_succ] at hhigh ⊢
      exact hother (i + 1) (Nat.succ_lt_succ hi) hhigh
    have hfirst := hother 0 (Nat.succ_pos _) (hzero.symm ▸ hhigh)
    rw [hzero] at hfirst
    rw [hkept]
    exact (hstores.word paddr).trans (if_neg hfirst)

/-! ### The loop of READ -/

/-- Half words that lie on the tape and are mapped are all stored, if the count asks for them. -/
theorem TapeState.readLoop_halves {dev : BusDevices δ} {fuel m k : ℕ} {t : TapeUnit} {q : ℕ}
    {uaddr : Word} {b : BusGlobals δ} (hmapped : MappedBytes b uaddr (2 * m))
    (hquiet : busError b = false) (hroom : q + 2 * m ≤ t.drive.mmsz) (hcount : 2 * m ≤ k) :
    ∃ b', readLoop dev (m + fuel) (BitVec.ofNat 32 (2 * m)) ⟨t.moveTo q, -(k : ℤ), uaddr, b⟩ =
        .ok (0, ⟨t.moveTo (q + 2 * m), -((k - 2 * m : ℕ) : ℤ),
          uaddr + BitVec.ofNat 32 (2 * m), b'⟩) ∧
      HalvesStored uaddr (tapeHalves t.drive.mm q m) b b' := by
  induction m generalizing q uaddr b k with
  | zero =>
    refine ⟨b, ?_, .nil uaddr b⟩
    have haddr : uaddr + BitVec.ofNat 32 (2 * 0) = uaddr := BitVec.add_zero uaddr
    have hover (s : TapeState δ) : ¬(s.mtbrc < 0 ∧ (0 : Word) > 0) :=
      fun h => absurd h.2 (by decide)
    rw [haddr]
    cases fuel with
    | zero => rfl
    | succ fuel => exact if_neg (hover _)
  | succ m ih =>
    have hupper := hmapped.upper
    have hlower := hmapped.lower
    have htail := hmapped.tail
    have hlength : (tapeHalves t.drive.mm (q + 2) m).length = m := length_tapeHalves _ _ _
    have hfuel : m + 1 + fuel = (m + fuel) + 1 := by omega
    have hlen : -(k : ℤ) + 1 + 1 = -((k - 2 : ℕ) : ℤ) := by omega
    have hleft : BitVec.ofNat 32 (2 * (m + 1)) - 1 - 1 = BitVec.ofNat 32 (2 * m) := by
      rw [Nat.mul_add, BitVec.ofNat_add, BitVec.sub_sub]
      exact BitVec.add_sub_cancel _ _
    have hpos : q + 2 + 2 * m = q + 2 * (m + 1) := by omega
    have hcount' : k - 2 - 2 * m = k - 2 * (m + 1) := by omega
    have hpositive : 0 < (BitVec.ofNat 32 (2 * (m + 1))).toNat := by
      rw [BitVec.toNat_ofNat]
      omega
    cases hhalf : hiword uaddr with
    | false =>
      have hwrite := hmapped.write_low (by omega) hhalf dev (t.drive.mm (q + 1) ++ t.drive.mm q)
      have hquiet' : busError (b.setBuffer uaddr (t.drive.mm (q + 1) ++ t.drive.mm q)) = false :=
        hquiet
      obtain ⟨b', hrest, hstored⟩ := ih (k := k - 2) (q := q + 2)
        (b := b.setBuffer uaddr (t.drive.mm (q + 1) ++ t.drive.mm q)) (htail.congr rfl rfl) hquiet'
        (by omega) (by omega)
      refine ⟨b', ?_, .cons_low (by rwa [hlength]) hhalf hstored⟩
      rw [hfuel, readLoop_turn (by omega) (by omega) hpositive hwrite hquiet', hlen, hleft, hrest,
        hpos, hcount', halfAddress_succ]
    | true =>
      obtain ⟨mm, hwrite, hstores⟩ := hmapped.write_high (by omega) hhalf dev
        (t.drive.mm (q + 1) ++ t.drive.mm q)
      have hquiet' : busError (b.setMemory mm) = false := hquiet
      obtain ⟨b', hrest, hstored⟩ := ih (k := k - 2) (q := q + 2) (b := b.setMemory mm)
        (htail.congr rfl hstores.npages) hquiet' (by omega) (by omega)
      refine ⟨b', ?_, .cons_high (by rwa [hlength]) hhalf hstores hstored⟩
      rw [hfuel, readLoop_turn (by omega) (by omega) hpositive hwrite hquiet', hlen, hleft, hrest,
        hpos, hcount', halfAddress_succ]

/-! ### The tape and the count after READ -/

/-- The tape stands before a record of these bytes, with its length before and behind it. -/
structure TapeDrive.RecordAhead (p : TapeDrive) (data : List Byte) : Prop where
  nonempty : 1 ≤ data.length
  length_lt : data.length < 2 ^ 32 - 1
  bytes : BytesAt p.mm p.pos (le32 (BitVec.ofNat 32 data.length) ++
    (data ++ le32 (BitVec.ofNat 32 data.length)))
  size_le : p.pos + data.length + 8 ≤ p.mmsz

namespace TapeDrive.RecordAhead

variable {p : TapeDrive} {data : List Byte} (h : p.RecordAhead data)
include h

/-- The word before the data. -/
theorem preamble : wordAt p.mm p.pos = BitVec.ofNat 32 data.length :=
  wordAt_of_bytesAt (bytesAt_append.mp h.bytes).1

/-- The length as a number. -/
theorem toNat_length : (BitVec.ofNat 32 data.length).toNat = data.length := by
  have hlt := h.length_lt
  rw [BitVec.toNat_ofNat]
  omega

/-- The length is not that of a mark. -/
theorem length_ne : BitVec.ofNat 32 data.length ≠ tapeFileMark := by
  have hlt := h.length_lt
  intro heq
  have hnat := congrArg BitVec.toNat heq
  rw [h.toNat_length, show tapeFileMark.toNat = 2 ^ 32 - 1 from rfl] at hnat
  omega

end TapeDrive.RecordAhead

namespace TapeState

variable {dev : BusDevices δ} {t : TapeUnit} {uaddr : Word} {b : BusGlobals δ} {data : List Byte}
  {count : ℕ} {s' : TapeState δ}

/-- READ of a record is its loop and its end. -/
theorem read_record (h : t.drive.RecordAhead data) (mtbrc : ℤ) :
    read dev ⟨t, mtbrc, uaddr, b⟩ =
      (readLoop dev (-mtbrc).toNat (BitVec.ofNat 32 data.length)
        ⟨t.moveTo (t.drive.pos + 4), mtbrc, uaddr,
          b.onInterface BusInterface.resetBusErrorStatus⟩).map readEnd := by
  have hroom := h.size_le
  have hfirst : t.readUint32 =
      (some (BitVec.ofNat 32 data.length), t.moveTo (t.drive.pos + 4)) := by
    rw [TapeUnit.readUint32_of_le (by omega), h.preamble]
  have hpreamble : preamble ⟨t, mtbrc, uaddr, b⟩ = BitVec.ofNat 32 data.length := by
    unfold preamble
    rw [hfirst]
    rfl
  have hreading : reading ⟨t, mtbrc, uaddr, b⟩ = ⟨t.moveTo (t.drive.pos + 4), mtbrc, uaddr,
      b.onInterface BusInterface.resetBusErrorStatus⟩ := by
    unfold reading
    rw [hfirst]
  rw [read_eq, hpreamble, if_neg h.length_ne, hreading]

/-- After a record that was moved completely, READ looks at what follows. -/
theorem readEnd_over {s : TapeState δ} (hnxm : ¬s.unit.mts.nxm = true) :
    readEnd (0, s) = { s with
      unit :=
        if s.unit.readUint32.2.readUint32.1.getD 0 = tapeFileMark then
          s.unit.readUint32.2.readUint32.2.setMtsEof
        else s.unit.readUint32.2.readUint32.2.seek (-4) .cur } := by
  have hover : ¬(0 : Word) > 0 := by decide
  unfold readEnd
  simp only
  rw [if_neg hnxm, if_neg hover]
  split <;> rfl

/-- READ that counts the bytes it moved and stops behind the record has moved an even number of
bytes, all that the record has, and what follows is no mark but a word. -/
theorem even_of_read (h : t.drive.RecordAhead data)
    (hread : read dev ⟨t, -(count : ℤ), uaddr, b⟩ = .ok s')
    (hmtbrc : s'.mtbrc = -((count - min data.length count : ℕ) : ℤ))
    (hpos : s'.unit.drive.pos = t.drive.pos + data.length + 8) :
    data.length % 2 = 0 ∧ data.length ≤ count ∧
      t.drive.pos + data.length + 12 ≤ t.drive.mmsz ∧
      wordAt t.drive.mm (t.drive.pos + data.length + 8) ≠ tapeFileMark := by
  have hroom := h.size_le
  have hlt := h.length_lt
  rw [read_record h] at hread
  obtain ⟨n, -, hloop⟩ := exists_endsAfter_readTurn dev (BitVec.ofNat 32 data.length)
    ⟨t.moveTo (t.drive.pos + 4), -(count : ℤ), uaddr,
      b.onInterface BusInterface.resetBusErrorStatus⟩
  obtain ⟨⟨l, s₁⟩, hend, rfl⟩ := exists_of_map_eq_ok hread
  rw [hend] at hloop
  obtain ⟨k, hlength, hcount, hmmsz, hmm, hstart⟩ := readOn_of_endsAfter hloop
  simp only at hlength hcount hmmsz hmm hstart
  rw [TapeUnit.pos_moveTo (by omega)] at hstart
  rw [TapeUnit.mmsz_moveTo] at hmmsz hstart
  rw [TapeUnit.mm_moveTo] at hmm
  -- where the loop stops before the end of the record, the tape stays there
  have hshort : s₁.mtbrc = -((count - min data.length count : ℕ) : ℤ) →
      s₁.unit.drive.pos ≠ t.drive.pos + data.length + 8 := by
    intro hs₁
    omega
  by_cases hnxm : s₁.unit.mts.nxm = true
  · have hsame : readEnd (l, s₁) = s₁ := if_pos hnxm
    rw [hsame] at hmtbrc hpos
    exact absurd hpos (hshort hmtbrc)
  by_cases hleft : l > 0
  · have hsame : readEnd (l, s₁) = s₁.onMts ({ · with rle := true }) :=
      (if_neg hnxm).trans (if_pos hleft)
    rw [hsame] at hmtbrc hpos
    exact absurd hpos (hshort hmtbrc)
  obtain rfl : l = 0 := BitVec.le_zero_iff.mp (BitVec.not_lt.mp hleft)
  rw [readEnd_over hnxm] at hmtbrc hpos
  simp only at hmtbrc hpos
  have hl : (BitVec.ofNat 32 data.length).toNat = (BitVec.ofNat 32 (2 * k)).toNat := by
    have hsum := congrArg (· + BitVec.ofNat 32 (2 * k)) hlength
    simp only [BitVec.sub_add_cancel] at hsum
    exact congrArg BitVec.toNat (hsum.symm.trans (BitVec.zero_add _))
  have heven : data.length = 2 * k := by
    have hupper := h.toNat_length
    rw [hl, BitVec.toNat_ofNat] at hupper
    omega
  have hstart' : s₁.unit.drive.pos = t.drive.pos + 4 + data.length := by omega
  have hnext : t.drive.pos + 4 + data.length + 4 = t.drive.pos + data.length + 8 := by omega
  have hpostamble : s₁.unit.readUint32.2 = s₁.unit.moveTo (t.drive.pos + data.length + 8) := by
    rw [TapeUnit.readUint32_of_le (by omega), hstart', hnext]
  rw [hpostamble] at hpos
  by_cases hword : t.drive.pos + data.length + 12 ≤ t.drive.mmsz
  · refine ⟨by omega, by omega, hword, fun hmark => ?_⟩
    rw [TapeUnit.readUint32_moveTo (by omega), hmm, Option.getD_some, if_pos hmark] at hpos
    have hpos' := TapeUnit.pos_moveTo (t := s₁.unit)
      (q := t.drive.pos + data.length + 8 + 4) (by omega)
    have heq := hpos'.symm.trans hpos
    omega
  · have hmark : ¬(0 : Word) = tapeFileMark := by decide
    rw [TapeUnit.readUint32_moveTo_short (by omega) (by omega), Option.getD_none, if_neg hmark,
      TapeUnit.seek_moveTo le_rfl] at hpos
    have hpos' := TapeUnit.pos_moveTo (t := s₁.unit)
      (q := ((s₁.unit.drive.mmsz : ℤ) + -4).toNat) (by omega)
    have heq := hpos'.symm.trans hpos
    omega

/-- READ of whole half words to a mapped destination, with room for them in the count and no mark
behind them, stores them all and stops behind the record. -/
theorem read_halves {m : ℕ} (h : t.drive.RecordAhead data) (hm : data.length = 2 * m)
    (hmapped : MappedBytes b uaddr (2 * m)) (hnxm : t.mts.nxm = false)
    (hcount : data.length ≤ count) (hroom : t.drive.pos + data.length + 12 ≤ t.drive.mmsz)
    (hmark : wordAt t.drive.mm (t.drive.pos + data.length + 8) ≠ tapeFileMark) :
    ∃ b', read dev ⟨t, -(count : ℤ), uaddr, b⟩ =
        .ok ⟨t.moveTo (t.drive.pos + data.length + 8), -((count - data.length : ℕ) : ℤ),
          uaddr + BitVec.ofNat 32 data.length, b'⟩ ∧
      HalvesStored uaddr (tapeHalves t.drive.mm (t.drive.pos + 4) m)
        (b.onInterface BusInterface.resetBusErrorStatus) b' := by
  obtain ⟨b', hloop, hstored⟩ := @readLoop_halves _ dev (count - m) m count t (t.drive.pos + 4)
    uaddr (b.onInterface BusInterface.resetBusErrorStatus) (hmapped.congr rfl rfl)
    (busError_resetBusErrorStatus b) (by omega) (by omega)
  have hfuel : (-(-(count : ℤ))).toNat = m + (count - m) := by omega
  have hnxm' : ¬(t.moveTo (t.drive.pos + 4 + 2 * m)).mts.nxm = true :=
    Bool.eq_false_iff.mp hnxm
  have hend : t.drive.pos + 4 + 2 * m + 4 = t.drive.pos + data.length + 8 := by omega
  have hback : (((t.drive.pos + data.length + 8 + 4 : ℕ) : ℤ) + -4).toNat =
      t.drive.pos + data.length + 8 := by omega
  refine ⟨b', ?_, hstored⟩
  rw [read_record h, hfuel, hm, hloop]
  change Except.ok (readEnd _) = _
  rw [readEnd_over hnxm']
  simp only
  rw [TapeUnit.readUint32_moveTo (by omega), hend]
  simp only
  rw [TapeUnit.readUint32_moveTo (by omega), Option.getD_some, if_neg hmark,
    TapeUnit.seek_moveTo (by omega), hback, hm]

end TapeState

/-! ### The bytes of the memory -/

/-- A byte of a word. -/
def wordByte (w : Word) (k : ℕ) : Byte := (w >>> (8 * k)).setWidth 8

/-- The bytes of two half words. -/
theorem wordByte_halves (f : ℕ → Byte) {k : ℕ} (hk : k < 4) :
    wordByte ((f 3 ++ f 2) ++ (f 1 ++ f 0)) k = f k := by
  have h0 := (f 0).isLt
  have h1 := (f 1).isLt
  have h2 := (f 2).isLt
  apply BitVec.eq_of_toNat_eq
  unfold wordByte
  rw [BitVec.toNat_setWidth, BitVec.toNat_ushiftRight, Nat.shiftRight_eq_div_pow]
  simp only [toNat_append_eq]
  interval_cases k <;> omega

/-- Bytes stand in the memory of the second state, at the places that the window gives to the
addresses from `uaddr` on. No other byte of the memory has changed. -/
structure BytesStored (uaddr : Word) (bytes : List Byte) (b b' : BusGlobals δ) : Prop where
  stored : ∀ (j : ℕ) (v : Byte), bytes[j]? = some v →
    wordByte (b'.memory.word (b.mapped (uaddr + BitVec.ofNat 32 j))) ((uaddr.toNat + j) % 4) = v
  others : ∀ paddr k, k < 4 → (∀ j < bytes.length,
      SamePhysicalWord (b.mapped (uaddr + BitVec.ofNat 32 j)) paddr → (uaddr.toNat + j) % 4 ≠ k) →
    wordByte (b'.memory.word paddr) k = wordByte (b.memory.word paddr) k

/-- A byte of a string on the tape. -/
theorem getElem?_of_bytesAt {mm : Medium} {q : ℕ} {bs : List Byte} (h : BytesAt mm q bs) {j : ℕ}
    {v : Byte} (hj : bs[j]? = some v) : mm (q + j) = v := by
  induction bs generalizing q j with
  | nil => cases hj
  | cons b bs ih =>
    cases j with
    | zero =>
      cases hj
      exact h.1
    | succ j =>
      rw [show q + (j + 1) = q + 1 + j by omega]
      exact ih h.2 hj

/-- The address of a byte. -/
theorem toNat_byteAddress {b : BusGlobals δ} {uaddr : Word} {len j : ℕ}
    (h : MappedBytes b uaddr len) (hj : j < len) :
    (uaddr + BitVec.ofNat 32 j).toNat = uaddr.toNat + j := by
  have hupper := h.upper
  rw [BitVec.toNat_add, BitVec.toNat_ofNat]
  omega

/-- Whole words that are stored at a word address put the bytes of the tape into the memory. -/
theorem HalvesStored.bytesStored {b b' : BusGlobals δ} {uaddr : Word} {mm : Medium} {q m : ℕ}
    {bytes : List Byte} (h : HalvesStored uaddr (tapeHalves mm q m) b b')
    (hmapped : MappedBytes b uaddr (2 * m)) (hlength : bytes.length = 2 * m)
    (hbytes : BytesAt mm q bytes) (haligned : uaddr.toNat % 4 = 0) (hwords : 2 * m % 4 = 0) :
    BytesStored uaddr bytes b b' := by
  have hlower := hmapped.lower
  have hupper := hmapped.upper
  -- the word of an address in the destination
  have hword {j : ℕ} (hj : j < 2 * m) :
      b'.memory.word (b.mapped (uaddr + BitVec.ofNat 32 j)) =
        (mm (q + 4 * (j / 4) + 3) ++ mm (q + 4 * (j / 4) + 2)) ++
          (mm (q + 4 * (j / 4) + 1) ++ mm (q + 4 * (j / 4) + 0)) := by
    have hhalf := toNat_halfAddress (i := 2 * (j / 4) + 1) hmapped (by omega)
    have haddr := toNat_byteAddress hmapped hj
    have hhigh : hiword (uaddr + BitVec.ofNat 32 (2 * (2 * (j / 4) + 1))) = true := by
      rw [hiword_eq, hhalf, decide_eq_true_eq]
      omega
    have hstored := h.words (2 * (j / 4) + 1) _ _ (getElem?_tapeHalves mm (by omega))
      ((List.getElem?_cons_succ).trans (getElem?_tapeHalves mm (by omega))) hhigh
    rw [mapped_eq b (by omega) (by omega) (by omega) (by omega)
      (show (uaddr + BitVec.ofNat 32 j).toNat / 4 =
        (uaddr + BitVec.ofNat 32 (2 * (2 * (j / 4) + 1))).toNat / 4 by omega), hstored]
    congr 2
    · congr 1
      omega
    · congr 1
      omega
    · congr 2
      omega
    · congr 1
      omega
  constructor
  · intro j v hv
    obtain ⟨hj, -⟩ := List.getElem?_eq_some_iff.mp hv
    rw [hword (by omega), wordByte_halves (k := (uaddr.toNat + j) % 4)
        (fun k => mm (q + 4 * (j / 4) + k)) (by omega),
      ← getElem?_of_bytesAt hbytes hv]
    congr 1
    omega
  · intro paddr k hk hother
    refine congrArg (wordByte · k) (h.others paddr fun i hi hhigh hsame => ?_)
    rw [length_tapeHalves] at hi
    have hhalf := toNat_halfAddress (i := i) hmapped (by omega)
    have haddr := toNat_byteAddress (j := 4 * (i / 2) + k) hmapped (by omega)
    refine hother (4 * (i / 2) + k) (by omega) ?_ (by omega)
    rwa [mapped_eq b (by omega) (by omega) (by omega) (by omega)
      (show (uaddr + BitVec.ofNat 32 (4 * (i / 2) + k)).toNat / 4 =
        (uaddr + BitVec.ofNat 32 (2 * i)).toNat / 4 by omega)]

/-- The low byte of two half words. -/
theorem wordByte_append (hi lo : HalfWord) : wordByte (hi ++ lo) 0 = lo.setWidth 8 := by
  apply BitVec.eq_of_toNat_eq
  unfold wordByte
  rw [BitVec.toNat_setWidth, BitVec.toNat_ushiftRight, toNat_append_eq, BitVec.toNat_setWidth,
    Nat.mul_zero, Nat.shiftRight_zero]
  omega

/-- A low half word of the tape has the byte at its position. -/
theorem setWidth_append (v₁ v₀ : Byte) : (v₁ ++ v₀).setWidth 8 = v₀ := by
  have h0 := v₀.isLt
  apply BitVec.eq_of_toNat_eq
  rw [BitVec.toNat_setWidth, toNat_append_eq]
  omega

/-- Another memory of the same size, and other buffers. -/
def BusState.refill (pages : Fin 16384 → Page) (buffers : Fin 16 → HalfWord) (b : BusGlobals δ) :
    BusGlobals δ :=
  (b.setMemory ⟨b.memory.npages, pages⟩).onMapping ({ · with buffers := buffers })

section

variable {b b' : BusGlobals δ} {uaddr : Word} {mm : Medium} {q m : ℕ} {bytes : List Byte}
  (hmapped : MappedBytes b uaddr (2 * m)) (hlength : bytes.length = 2 * m)
include hmapped hlength

/-- A high half word at the beginning brings the buffer into the memory. -/
theorem HalvesStored.not_hiword (hm : 0 < m)
    (h : HalvesStored uaddr (tapeHalves mm q m) (b.refill (fun _ _ => 0) fun _ => 1) b')
    (hbytes : BytesStored uaddr bytes (b.refill (fun _ _ => 0) fun _ => 1) b') :
    hiword uaddr = false := by
  have hzero : uaddr + BitVec.ofNat 32 (2 * 0) = uaddr := BitVec.add_zero uaddr
  by_contra hlow
  have hhigh : hiword uaddr = true := Bool.eq_true_of_not_eq_false hlow
  have hhigh' : 2 ≤ uaddr.toNat % 4 := of_decide_eq_true (hiword_eq uaddr ▸ hhigh)
  have hword := h.words 0 _ 1 (getElem?_tapeHalves mm hm) rfl (hzero.symm ▸ hhigh)
  have hkept := hbytes.others (b.mapped uaddr) 0 (by omega) fun j hj hsame => by
    have haddr := toNat_byteAddress (j := j) hmapped (by omega)
    have hinside := hmapped.injective (by omega) (by omega) le_rfl (by omega) hsame
    omega
  rw [hzero] at hword
  have hbyte := (congrArg (wordByte · 0) hword).symm.trans hkept
  rw [wordByte_append] at hbyte
  have hbytes' : (1 : HalfWord).setWidth 8 = wordByte (0 : Word) 0 := hbyte
  exact absurd hbytes' (by decide)

/-- An odd address is taken for the even one below it. -/
theorem HalvesStored.even_address {c v : Byte} (hfirst : mm q = v) (hne : c ≠ v) (hm : 0 < m)
    (hlow : hiword uaddr = false) (hbyte : bytes[0]? = some v) (buffers : Fin 16 → HalfWord)
    (h : HalvesStored uaddr (tapeHalves mm q m)
      (b.refill (fun _ _ => (c ++ c) ++ (c ++ c)) buffers) b')
    (hbytes : BytesStored uaddr bytes
      (b.refill (fun _ _ => (c ++ c) ++ (c ++ c)) buffers) b') :
    uaddr.toNat % 4 = 0 := by
  have hlow' : ¬2 ≤ uaddr.toNat % 4 := of_decide_eq_false (hiword_eq uaddr ▸ hlow)
  have hlower := hmapped.lower
  have hupper := hmapped.upper
  have hfill (k : ℕ) (hk : k < 4) : wordByte ((c ++ c) ++ (c ++ c)) k = c :=
    wordByte_halves (fun _ => c) hk
  by_contra hodd
  by_cases hone : m = 1
  · -- nothing is stored
    have hkept := h.others (b.mapped (uaddr + BitVec.ofNat 32 0)) fun i hi hhigh => by
      rw [length_tapeHalves] at hi
      obtain rfl : i = 0 := by omega
      rw [show uaddr + BitVec.ofNat 32 (2 * 0) = uaddr from BitVec.add_zero uaddr, hlow] at hhigh
      cases hhigh
    have hstored := hbytes.stored 0 v hbyte
    have hsame := (congrArg (wordByte · ((uaddr.toNat + 0) % 4)) hkept).symm.trans hstored
    exact hne ((hfill _ (by omega)).symm.trans hsame)
  · have hhalf := toNat_halfAddress (i := 1) hmapped (by omega)
    have hhigh : hiword (uaddr + BitVec.ofNat 32 (2 * 1)) = true := by
      rw [hiword_eq, hhalf, decide_eq_true_eq]
      omega
    have hword := h.words 1 _ _ (getElem?_tapeHalves mm (by omega))
      ((List.getElem?_cons_succ).trans (getElem?_tapeHalves mm hm)) hhigh
    have hkept := hbytes.others (b.mapped (uaddr + BitVec.ofNat 32 (2 * 1))) 0 (by omega)
      fun j hj hsame => by
        have haddr := toNat_byteAddress (j := j) hmapped (by omega)
        have hinside := hmapped.injective (by omega) (by omega) (by omega) (by omega) hsame
        omega
    have hlowest := (congrArg (wordByte · 0) hword).symm.trans hkept
    rw [wordByte_append, setWidth_append, show q + 2 * 0 = q from rfl, hfirst] at hlowest
    exact hne (hlowest.trans (hfill 0 (by omega))).symm

omit hlength in
/-- A low half word at the end stays in the buffer. -/
theorem HalvesStored.whole_words {c v : Byte} (hne : c ≠ v) (hm : 0 < m)
    (haligned : uaddr.toNat % 4 = 0) (hbyte : bytes[2 * (m - 1)]? = some v)
    (buffers : Fin 16 → HalfWord)
    (h : HalvesStored uaddr (tapeHalves mm q m)
      (b.refill (fun _ _ => (c ++ c) ++ (c ++ c)) buffers) b')
    (hbytes : BytesStored uaddr bytes
      (b.refill (fun _ _ => (c ++ c) ++ (c ++ c)) buffers) b') :
    2 * m % 4 = 0 := by
  have hlower := hmapped.lower
  have hupper := hmapped.upper
  have hfill (k : ℕ) (hk : k < 4) : wordByte ((c ++ c) ++ (c ++ c)) k = c :=
    wordByte_halves (fun _ => c) hk
  by_contra hhalf
  have hlast := toNat_byteAddress (j := 2 * (m - 1)) hmapped (by omega)
  have hkept := h.others (b.mapped (uaddr + BitVec.ofNat 32 (2 * (m - 1))))
    fun i hi hhigh hsame => by
      rw [length_tapeHalves] at hi
      have haddr := toNat_halfAddress (i := i) hmapped (by omega)
      have hinside := hmapped.injective (by omega) (by omega) (by omega) (by omega) hsame
      rw [hiword_eq, haddr, decide_eq_true_eq] at hhigh
      omega
  have hstored := hbytes.stored _ v hbyte
  have hsame := (congrArg (wordByte · ((uaddr.toNat + 2 * (m - 1)) % 4)) hkept).symm.trans hstored
  exact hne ((hfill _ (by omega)).symm.trans hsame)

end

/-- Half words that put the bytes of the tape into every memory are whole words at a word
address. -/
theorem HalvesStored.aligned {b : BusGlobals δ} {uaddr : Word} {mm : Medium} {q m : ℕ}
    {bytes : List Byte} (hmapped : MappedBytes b uaddr (2 * m)) (hlength : bytes.length = 2 * m)
    (hm : 0 < m) (hbytes : BytesAt mm q bytes)
    (h : ∀ pages buffers, ∃ b',
      HalvesStored uaddr (tapeHalves mm q m) (b.refill pages buffers) b' ∧
        BytesStored uaddr bytes (b.refill pages buffers) b') :
    uaddr.toNat % 4 = 0 ∧ 2 * m % 4 = 0 := by
  have hother (v : Byte) : ∃ c : Byte, c ≠ v := by
    refine ⟨v + 1, ?_⟩
    revert v
    decide
  obtain ⟨b₁, hhalves₁, hbytes₁⟩ := h (fun _ _ => 0) fun _ => 1
  have hlow := hhalves₁.not_hiword hmapped hlength hm hbytes₁
  have hfirst : bytes[0]? = some bytes[0] := List.getElem?_eq_getElem _
  obtain ⟨c, hc⟩ := hother bytes[0]
  obtain ⟨b₂, hhalves₂, hbytes₂⟩ := h (fun _ _ => (c ++ c) ++ (c ++ c)) fun _ => 0
  have haligned := hhalves₂.even_address hmapped hlength (getElem?_of_bytesAt hbytes hfirst)
    hc hm hlow hfirst _ hbytes₂
  have hlast : bytes[2 * (m - 1)]? = some bytes[2 * (m - 1)] := List.getElem?_eq_getElem _
  obtain ⟨c', hc'⟩ := hother bytes[2 * (m - 1)]
  obtain ⟨b₃, hhalves₃, hbytes₃⟩ := h (fun _ _ => (c' ++ c') ++ (c' ++ c')) fun _ => 0
  exact ⟨haligned, hhalves₃.whole_words hmapped hc' hm haligned hlast _ hbytes₃⟩

/-! ### The command -/

/-- READ of `count` bytes is issued to a ready controller, for an online drive whose tape stands
before a record, and the bytes that it is to move have a mapped destination. -/
structure ReadyToRead (c : TapeCommand) (s : TapeSystem δ) (data : List Byte) (count : ℕ) :
    Prop where
  goes : c.Goes
  function : c.function = 1
  mtbrc : c.mtbrc.toInt = -(count : ℤ)
  ready : s.controller.mtc.cur = true
  online : (s.controller.drives c.slt).online = true
  record : (s.controller.drives c.slt).RecordAhead data
  mapped : MappedBytes s.bus c.address (min data.length count)

/-- The bytes asked for, as far as the record has them, are in the memory. The length error tells
whether it has more, the count is what is left of it, and the tape stands behind the record. -/
structure RecordRead (slt : Fin 8) (uaddr : Word) (data : List Byte) (count : ℕ)
    (s s' : TapeSystem δ) : Prop where
  bytes : BytesStored uaddr (data.take count) s.bus s'.bus
  rle : s'.controller.mts.rle = true ↔ count < data.length
  mtbrc : s'.controller.mtbrc = -((count - min data.length count : ℕ) : ℤ)
  position : (s'.controller.drives slt).pos = (s.controller.drives slt).pos + data.length + 8

/-- The machine with another memory of the same size, and other buffers. -/
def TapeSystem.refill (pages : Fin 16384 → Page) (buffers : Fin 16 → HalfWord)
    (s : TapeSystem δ) : TapeSystem δ :=
  { s with bus := s.bus.refill pages buffers }

/-- The bytes stored depend on the memory and the mapping registers. The error status of the
busses does not matter. -/
theorem BytesStored.congr {b b' b'' : BusGlobals δ} {uaddr : Word} {bytes : List Byte}
    (h : BytesStored uaddr bytes (b.onInterface BusInterface.resetBusErrorStatus) b')
    (hmemory : b''.memory = b'.memory) : BytesStored uaddr bytes b b'' := by
  refine ⟨?_, ?_⟩
  · rw [hmemory]
    exact h.stored
  · rw [hmemory]
    exact h.others

namespace ReadyToRead

variable {c : TapeCommand} {s : TapeSystem δ} {data : List Byte} {count : ℕ}
  (h : ReadyToRead c s data count)
include h

/-- Another memory does not matter. -/
theorem refill (pages : Fin 16384 → Page) (buffers : Fin 16 → HalfWord) :
    ReadyToRead c (s.refill pages buffers) data count :=
  ⟨h.goes, h.function, h.mtbrc, h.ready, h.online, h.record, h.mapped.congr rfl rfl⟩

/-- The record that the command finds. -/
theorem record_found : (s.found c).unit.drive.RecordAhead data :=
  ⟨h.record.nonempty, h.record.length_lt, h.record.bytes, h.record.size_le⟩

/-- The command is executed. -/
theorem issue_eq_read (dev : BusDevices δ) : s.issue dev c =
    (TapeState.read dev ⟨(s.found c).unit, -(count : ℤ), c.address, s.bus⟩).map (s.left c) := by
  have hcommand : (s.found c).command dev c.register = (s.found c).read dev := by
    unfold TapeState.command
    rw [show c.register.function = 1 from h.function]
  rw [TapeSystem.issue_eq dev h.goes h.ready h.online, hcommand, ← TapeSystem.found_eq h.mtbrc]

/-- READ that does what is asked for has moved an even number of bytes, all that the record has,
and what follows is no mark but a word. -/
theorem even_of_recordRead {dev : BusDevices δ} {s' : TapeSystem δ}
    (hissue : s.issue dev c = .ok s') (hread : RecordRead c.slt c.address data count s s') :
    data.length % 2 = 0 ∧ data.length ≤ count ∧
      (s.controller.drives c.slt).pos + data.length + 12 ≤ (s.controller.drives c.slt).mmsz ∧
      wordAt (s.controller.drives c.slt).mm ((s.controller.drives c.slt).pos + data.length + 8) ≠
        tapeFileMark := by
  rw [h.issue_eq_read dev] at hissue
  obtain ⟨t, ht, rfl⟩ := exists_of_map_eq_ok hissue
  have hposition := hread.position
  have hself : ((s.left c t).controller.drives c.slt).pos = t.unit.drive.pos := by
    unfold TapeSystem.left
    simp only [Function.update_self]
  rw [hself] at hposition
  exact TapeState.even_of_read h.record_found ht hread.mtbrc hposition

/-- READ of half words that fit. -/
theorem issue_halves (dev : BusDevices δ) {m : ℕ} (hm : data.length = 2 * m)
    (hle : data.length ≤ count)
    (hroom : (s.controller.drives c.slt).pos + data.length + 12 ≤
      (s.controller.drives c.slt).mmsz)
    (hmark : wordAt (s.controller.drives c.slt).mm
      ((s.controller.drives c.slt).pos + data.length + 8) ≠ tapeFileMark) :
    ∃ s' b', s.issue dev c = .ok s' ∧ s'.bus.memory = b'.memory ∧
      HalvesStored c.address
        (tapeHalves (s.controller.drives c.slt).mm ((s.controller.drives c.slt).pos + 4) m)
        (s.bus.onInterface BusInterface.resetBusErrorStatus) b' ∧
      s'.controller.mts.rle = false ∧
      s'.controller.mtbrc = -((count - data.length : ℕ) : ℤ) ∧
      (s'.controller.drives c.slt).pos = (s.controller.drives c.slt).pos + data.length + 8 := by
  have hmapped := h.mapped
  rw [min_eq_left hle, hm] at hmapped
  obtain ⟨b', hread, hstored⟩ := @TapeState.read_halves _ dev _ _ s.bus _ _ _ h.record_found hm
    hmapped rfl hle hroom hmark
  have hissue := (h.issue_eq_read dev).trans (congrArg (Except.map (s.left c)) hread)
  refine ⟨_, b', hissue, (TapeSystem.left_bus c _).2, hstored, rfl, rfl, ?_⟩
  unfold TapeSystem.left
  simp only [Function.update_self]
  exact TapeUnit.pos_moveTo (show (s.controller.drives c.slt).pos + data.length + 8 ≤
    (s.controller.drives c.slt).mmsz by omega)

end ReadyToRead

/-- READ moves a record, counts it, and stops behind it, whatever the memory held before, if and
only if the record and the address are of whole words, the count is large enough, and a word that
is no mark follows. -/
theorem tape_read_record (dev : BusDevices δ) {c : TapeCommand} {s : TapeSystem δ}
    {data : List Byte} {count : ℕ} (h : ReadyToRead c s data count) :
    (∀ pages buffers, ∃ s', (s.refill pages buffers).issue dev c = .ok s' ∧
        RecordRead c.slt c.address data count (s.refill pages buffers) s') ↔
      data.length % 4 = 0 ∧ c.address.toNat % 4 = 0 ∧ data.length ≤ count ∧
        (s.controller.drives c.slt).pos + data.length + 12 ≤ (s.controller.drives c.slt).mmsz ∧
        wordAt (s.controller.drives c.slt).mm ((s.controller.drives c.slt).pos + data.length + 8) ≠
          tapeFileMark := by
  have hdata := (bytesAt_append.mp (bytesAt_append.mp h.record.bytes).2).1
  rw [length_le32] at hdata
  have hnonempty := h.record.nonempty
  constructor
  · intro hread
    obtain ⟨s', hissue, hrecord⟩ := hread (fun _ _ => 0) fun _ => 0
    obtain ⟨heven, hle, hroom, hmark⟩ := (h.refill _ _).even_of_recordRead hissue hrecord
    obtain ⟨m, hm⟩ : ∃ m, data.length = 2 * m := ⟨data.length / 2, by omega⟩
    have hmapped := h.mapped
    rw [min_eq_left hle, hm] at hmapped
    obtain ⟨haddress, hwords⟩ := HalvesStored.aligned (q := (s.controller.drives c.slt).pos + 4)
      (b := s.bus.onInterface BusInterface.resetBusErrorStatus) (hmapped.congr rfl rfl) hm
      (by omega) hdata fun pages buffers => by
        obtain ⟨s', b', hissue, hmemory, hstored, -⟩ :=
          (h.refill pages buffers).issue_halves dev hm hle hroom hmark
        obtain ⟨s'', hissue', hrecord⟩ := hread pages buffers
        obtain rfl := Except.ok.inj (hissue.symm.trans hissue')
        obtain ⟨hstored', hothers⟩ := hrecord.bytes
        rw [List.take_of_length_le hle, hmemory] at hstored' hothers
        exact ⟨b', hstored, hstored', hothers⟩
    exact ⟨hm ▸ hwords, haddress, hle, hroom, hmark⟩
  · rintro ⟨hwords, haddress, hle, hroom, hmark⟩ pages buffers
    obtain ⟨m, hm⟩ : ∃ m, data.length = 2 * m := ⟨data.length / 2, by omega⟩
    have hmapped := h.mapped
    rw [min_eq_left hle, hm] at hmapped
    obtain ⟨s', b', hissue, hmemory, hstored, hrle, hmtbrc, hposition⟩ :=
      (h.refill pages buffers).issue_halves dev hm hle hroom hmark
    refine ⟨s', hissue, ?_, ?_, ?_, hposition⟩
    · rw [List.take_of_length_le hle]
      exact (hstored.bytesStored (hmapped.congr rfl rfl) hm hdata haddress (hm ▸ hwords)).congr
        hmemory
    · rw [hrle]
      exact iff_of_false Bool.false_ne_true (by omega)
    · rw [hmtbrc, min_eq_left hle]

/-- A buffer of words is a destination of bytes. -/
theorem TapeBuffer.mappedBytes {b : BusGlobals δ} {uaddr : Word} {len n : ℕ}
    (h : TapeBuffer b uaddr len) (hle : n ≤ len) : MappedBytes b uaddr n := by
  obtain ⟨-, hlower, hupper, hresponds, hpopulated, hdistinct⟩ := h
  refine ⟨hlower, by omega, ?_, ?_, ?_⟩
  · exact fun u hu hu' => hresponds u hu (by omega)
  · exact fun u hu hu' => hpopulated u hu (by omega)
  · exact fun u u' hu hu' hv hv' => hdistinct u u' hu (by omega) hv (by omega)

/-- Tapes that stand before a record. -/
def recordTapes (data : List Byte) : TapeSystem XbusDevices :=
  TapeHandshake.blankTapes.onController fun k => { k with
    drives := fun d => { k.drives d with
      mm := store (fun _ => 0) 0 (le32 (BitVec.ofNat 32 data.length) ++
        (data ++ le32 (BitVec.ofNat 32 data.length))) } }

/-- READ of 8 bytes to the first page of the map can start there, for a short record. -/
theorem readyToRead_recordTapes {data : List Byte} (hnonempty : 1 ≤ data.length)
    (hshort : data.length ≤ 8) :
    ReadyToRead ⟨0xFFF8, 0o140000, 0o3⟩ (recordTapes data) data 8 := by
  refine ⟨by decide, rfl, rfl, rfl, rfl, ⟨hnonempty, by omega, bytesAt_store _, ?_⟩, ?_⟩
  · change 0 + data.length + 8 ≤ 192000
    omega
  · exact tapeBuffer_firstPage.mappedBytes (min_le_right _ _)

/-- A record of one word is read into a memory of sevens. -/
theorem tape_read_record_word : ∃ s',
    ((recordTapes [1, 2, 3, 4]).refill (fun _ _ => 7) fun _ => 7).issue bareDevices
        ⟨0xFFF8, 0o140000, 0o3⟩ = .ok s' ∧
      RecordRead 0 0o140000 [1, 2, 3, 4] 8
        ((recordTapes [1, 2, 3, 4]).refill (fun _ _ => 7) fun _ => 7) s' :=
  (tape_read_record bareDevices (@readyToRead_recordTapes [1, 2, 3, 4] (by decide)
    (by decide))).mpr ⟨by decide, by decide, by decide, by decide, by decide⟩ _ _

/-- Of a record of five bytes READ takes eight off the tape. -/
theorem not_tape_read_record : ¬∃ s',
    (recordTapes [1, 2, 3, 4, 5]).issue bareDevices ⟨0xFFF8, 0o140000, 0o3⟩ = .ok s' ∧
      RecordRead 0 0o140000 [1, 2, 3, 4, 5] 8 (recordTapes [1, 2, 3, 4, 5]) s' := by
  rintro ⟨s', hissue, hread⟩
  have hready := @readyToRead_recordTapes [1, 2, 3, 4, 5] (by decide) (by decide)
  obtain ⟨heven, -⟩ := hready.even_of_recordRead hissue hread
  exact absurd heven (by decide)

end Usim
