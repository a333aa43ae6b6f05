import Mathlib.Algebra.Group.Nat.Even
import Usim.LcFlags

/-!
# The stream of macro-instructions

In 16-bit mode the location counter walks over the halfwords of the virtual
memory. NEED-FETCH in bit 31, the count, and the rotation of `lcbytemode` stay
in phase from the write that starts the stream: each word is fetched once, when
its first halfword comes up, and the rotation selects the halfword that the
location counter has just passed.
-/

namespace Usim

open Lib

variable {β : Type}

/-- A read that an observation reports. -/
def Event.read? : Event → Option Word
  | .read vaddr => some vaddr
  | _ => none

/-- The reads started between two states of a run. -/
def startedReads (s t : Engine β) : List Word :=
  (t.trace.drop s.trace.length).filterMap Event.read?

/-- Between two states a read of one virtual address, and no other, was started. -/
structure StartsRead (port : VmPort β) (vaddr : Word) (s t : Engine β) : Prop where
  /-- The read that was started. -/
  reads : startedReads s t = [vaddr]
  /-- VMA holds the address. -/
  vma : t.vmaReg = vaddr
  /-- The word reaches MD two cycles later. -/
  delay : t.newMdDelay = 2
  /-- It is the word on the bus. -/
  word : ∃ b, port.vm false vaddr 0 s.toMaps b = .ok (t.newMd, t.toBusState)

/-- Between two states no read was started. -/
structure StartsNoRead (s t : Engine β) : Prop where
  /-- No read was started. -/
  reads : startedReads s t = []
  /-- VMA is the same. -/
  vma : t.vmaReg = s.vmaReg
  /-- The delay of a read in progress is the same. -/
  delay : t.newMdDelay = s.newMdDelay
  /-- The word of a read in progress is the same. -/
  word : t.newMd = s.newMd

/-- The word that `advanceLC` fetches. -/
def fetchAddress (lc : Word) : Word := (lc &&& 0o377777777) >>> 2

/-- `advanceLC` starts a read exactly when NEED-FETCH is set after the increment. -/
theorem post_advanceLC_reads {port : VmPort β} {s : Engine β} (ppc : Word) :
    Post (advanceLC port ppc) s
      (fun _ t => if needFetch s.lc s.interruptControl then
        StartsRead port (fetchAddress s.lc) s t else StartsNoRead s t) fun _ _ => True := by
  have hinc : (if s.interruptControl.getLsbD 29 then s.lc + 1 else s.lc + 2) =
      incrementedLc s.lc s.interruptControl := rfl
  have hneed : (incrementedLc s.lc s.interruptControl).getLsbD 31 =
      needFetch s.lc s.interruptControl := rfl
  have hread {t : Engine β} {a b : Word} (h : t.trace = s.trace ++ [.advance a b] ++
      [.read (fetchAddress s.lc)]) : startedReads s t = [fetchAddress s.lc] := by
    rw [startedReads, h, List.append_assoc, List.drop_left]
    rfl
  have hnone {t : Engine β} {a b : Word} (h : t.trace = s.trace ++ [.advance a b]) :
      startedReads s t = [] := by
    rw [startedReads, h, List.drop_left]
    rfl
  unfold advanceLC recordLcHistory startRead Usim.observe vmRead vmCycle
  simp only [post_bind, post_modify, post_get, post_pure, post_fromExcept, post_doWhen, post_ite,
    hinc, hneed]
  refine ⟨fun r _ => ⟨fun hfetch => ⟨fun r' hr' => ⟨fun _ => ?_, fun _ => ?_⟩, fun _ _ => trivial⟩,
    fun hfetch => ⟨fun _ => ?_, fun _ => ?_⟩⟩, fun _ _ => trivial⟩
  · rw [if_pos hfetch]
    exact ⟨hread rfl, rfl, rfl, _, hr'⟩
  · rw [if_pos hfetch]
    exact ⟨hread rfl, rfl, rfl, _, hr'⟩
  · rw [if_neg hfetch]
    exact ⟨hnone rfl, rfl, rfl, rfl⟩
  · rw [if_neg hfetch]
    exact ⟨hnone rfl, rfl, rfl, rfl⟩

/-- The machine after the count `x` was written to the location counter in
16-bit mode and advanced `k` times, with nothing else written to the location
counter or the interrupt control register. The list holds the words whose reads
the advances started. -/
inductive MacroStream (port : VmPort β) (x : ℕ) : ℕ → List Word → Engine β → Prop
  /-- The functional destination 1 is written. -/
  | written {dest data : Word} {s t : Engine β} (hdest : (dest >>> 5).toNat = 1)
      (hmode : s.interruptControl.getLsbD 29 = false) (hdata : (lcCount data).toNat = x)
      (h : mfwrite port dest data s = .ok () t) : MacroStream port x 0 [] t
  /-- The location counter is advanced. -/
  | advanced {k : ℕ} {words : List Word} {ppc v : Word} {s t : Engine β}
      (hs : MacroStream port x k words s) (h : advanceLC port ppc s = .ok v t) :
      MacroStream port x (k + 1) (words ++ startedReads s t) t
  /-- Anything else happens. -/
  | other {k : ℕ} {words : List Word} {s t : Engine β} (hs : MacroStream port x k words s)
      (hlc : t.lc = s.lc) (hic : t.interruptControl = s.interruptControl) :
      MacroStream port x k words t

/-- The advance number `k` of a stream from `x` needs a word that has not been fetched. -/
def FetchesWord (x k : ℕ) : Prop := k = 1 ∨ 4 ∣ x + 2 * (k - 1)

instance (x k : ℕ) : Decidable (FetchesWord x k) := inferInstanceAs (Decidable (_ ∨ _))

/-- The phase of a stream: the count, the mode, and NEED-FETCH. -/
structure InPhase (x k : ℕ) (s : Engine β) : Prop where
  /-- The location counter has moved two bytes with each advance. -/
  count : (lcCount s.lc).toNat = x + 2 * k
  /-- The mode is that of 16-bit instructions. -/
  mode : s.interruptControl.getLsbD 29 = false
  /-- NEED-FETCH tells whether the next advance needs a new word. -/
  needFetch : s.lc.getLsbD 31 = decide (FetchesWord x (k + 1))

/-- The words that the first `k` advances of a stream from `x` fetch: one after
another, from the word of `x` to the word that the last advance passes. -/
def fetchedWords (x : ℕ) : ℕ → List Word
  | 0 => []
  | k + 1 => (List.range' (x / 4) ((x + 2 * k) / 4 - x / 4 + 1)).map (BitVec.ofNat 32)

/-- An advance that fetches adds the next word. -/
theorem fetchedWords_succ {x : ℕ} (hx : Even x) (k : ℕ) :
    fetchedWords x (k + 1) = fetchedWords x k ++
      if FetchesWord x (k + 1) then [BitVec.ofNat 32 ((x + 2 * k) / 4)] else [] := by
  have hparity : x % 2 = 0 := Nat.even_iff.mp hx
  cases k with
  | zero => simp [fetchedWords, FetchesWord, List.range'_one]
  | succ j =>
    by_cases hfetch : FetchesWord x (j + 1 + 1)
    · have hword : 4 ∣ x + 2 * (j + 1) := hfetch.resolve_left (by omega)
      have hlen : (x + 2 * (j + 1)) / 4 - x / 4 + 1 = ((x + 2 * j) / 4 - x / 4 + 1) + 1 := by omega
      have hlast : x / 4 + ((x + 2 * j) / 4 - x / 4 + 1) = (x + 2 * (j + 1)) / 4 := by omega
      rw [if_pos hfetch, fetchedWords, fetchedWords, hlen, List.range'_1_concat, List.map_append,
        List.map_singleton, hlast]
    · have hword : ¬ 4 ∣ x + 2 * (j + 1) := fun h => hfetch (.inr h)
      have hlen : (x + 2 * (j + 1)) / 4 = (x + 2 * j) / 4 := by omega
      rw [if_neg hfetch, fetchedWords, fetchedWords, hlen, List.append_nil]

/-- The low halfword of a word, or the high one. -/
def halfword (w : Word) (high : Bool) : BitVec 16 := w.extractLsb' (if high then 16 else 0) 16

/-- The halfword that bit 4 of a rotation brings to the low end, before bits
3-0 select the byte or field in it. -/
def selectedHalf (w pos : Word) : BitVec 16 := (rol32 w (pos &&& 0o20).toNat).setWidth 16

/-- Bit 4 of a rotation. -/
theorem and_bit_four (pos : Word) : pos &&& 0o20 = if pos.getLsbD 4 then 0o20 else 0 := by
  have h16 : (0o20 : Word) = BitVec.twoPow 32 4 := by decide
  rw [h16, BitVec.and_twoPow]
  split <;> rfl

/-- Rotating by nothing. -/
theorem rol32_zero (w : Word) : rol32 w 0 = w := by
  rw [rol32_eq_rotateLeft w (by decide), BitVec.rotateLeft_def, Nat.zero_mod, BitVec.shiftLeft_zero,
    BitVec.ushiftRight_eq_zero (by decide), BitVec.or_zero]

/-- Rotating by a halfword and then within it. -/
theorem rol32_halfword (w : Word) {j : ℕ} (hj : j < 16) :
    rol32 w (16 + j) = rol32 (rol32 w 16) j := by
  rw [rol32_eq_rotateLeft w (by omega), rol32_eq_rotateLeft w (by decide),
    rol32_eq_rotateLeft _ (by omega)]
  apply BitVec.eq_of_getLsbD_eq
  intro i hi
  rw [BitVec.getLsbD_rotateLeft_of_le (by omega), BitVec.getLsbD_rotateLeft_of_le (by omega),
    BitVec.getLsbD_rotateLeft_of_le (by decide), BitVec.getLsbD_rotateLeft_of_le (by decide)]
  by_cases hlow : i < j
  · have h1 : i < 16 + j := by omega
    have h2 : ¬ 32 - j + i < 16 := by omega
    have h3 : 32 - (16 + j) + i = 32 - j + i - 16 := by omega
    have h4 : 32 - j + i < 32 := by omega
    simp [hlow, h1, h2, h3, h4]
  · by_cases hmid : i < 16 + j
    · have h2 : i - j < 16 := by omega
      have h3 : 32 - (16 + j) + i = 32 - 16 + (i - j) := by omega
      simp [hlow, hmid, h2, h3, hi]
    · have h2 : ¬ i - j < 16 := by omega
      have h3 : i - (16 + j) = i - j - 16 := by omega
      have h4 : i - j < 32 := by omega
      simp [hlow, hmid, h2, h3, h4, hi]

/-- A rotation is the one by bits 3-0 after the one by bit 4. -/
theorem rol32_split (w : Word) {pos : Word} (hpos : pos.toNat < 32) :
    rol32 w pos.toNat = rol32 (rol32 w (pos &&& 0o20).toNat) (pos &&& 0o17).toNat := by
  have hlow : (pos &&& 0o17).toNat = pos.toNat % 2 ^ 4 := toNat_and_mask _ _ rfl
  have hbit : pos.getLsbD 4 = decide (pos.toNat / 2 ^ 4 % 2 = 1) := Nat.testBit_eq_decide_div_mod_eq
  rw [and_bit_four, hbit, hlow]
  by_cases hhigh : pos.toNat / 2 ^ 4 % 2 = 1
  · have hsum : pos.toNat = 16 + pos.toNat % 2 ^ 4 := by omega
    rw [decide_eq_true hhigh, if_pos rfl]
    conv_lhs => rw [hsum]
    exact rol32_halfword w (by omega)
  · have hsame : pos.toNat % 2 ^ 4 = pos.toNat := by omega
    rw [decide_eq_false hhigh, if_neg Bool.false_ne_true, hsame]
    exact congrArg (rol32 · _) (rol32_zero w).symm

/-- Bit 4 of the rotation selects the halfword. -/
theorem selectedHalf_eq (w pos : Word) : selectedHalf w pos = halfword w (pos.getLsbD 4) := by
  have hhigh : (rol32 w 16).setWidth 16 = w.extractLsb' 16 16 := by
    rw [rol32_eq_rotateLeft w (by decide)]
    apply BitVec.eq_of_getLsbD_eq
    intro i hi
    rw [BitVec.getLsbD_setWidth, BitVec.getLsbD_rotateLeft_of_le (by decide),
      BitVec.getLsbD_extractLsb']
    simp [hi]
  rw [selectedHalf, and_bit_four, halfword]
  cases pos.getLsbD 4 with
  | true => exact hhigh
  | false =>
    exact (congrArg (BitVec.setWidth 16) (rol32_zero w)).trans
      (BitVec.setWidth_eq_extractLsb' (by decide))

/-- In 16-bit mode the increment is two. -/
theorem incrementedLc_word {lc ic : Word} (hmode : ic.getLsbD 29 = false) :
    incrementedLc lc ic = lc + 2 := by
  rw [incrementedLc, hmode, if_neg Bool.false_ne_true]

/-- A bit of a word as an arithmetic condition. -/
theorem getLsbD_eq_decide (w : Word) (i : ℕ) :
    w.getLsbD i = decide (w.toNat / 2 ^ i % 2 = 1) := Nat.testBit_eq_decide_div_mod_eq

/-- The sum with two, as a number. -/
theorem toNat_add_two (w : Word) : (w + 2).toNat = (w.toNat + 2) % 2 ^ 32 := BitVec.toNat_add w 2

/-- In 16-bit mode, below the end of the count, advancing moves the count by two. -/
theorem lcCount_advancedLc_word {lc ic : Word} (hmode : ic.getLsbD 29 = false)
    (hcount : (lcCount lc).toNat + 2 < 2 ^ 26) :
    (lcCount (advancedLc lc ic)).toNat = (lcCount lc).toNat + 2 := by
  have hlc := lc.isLt
  rw [lcCount_advancedLc, incrementedLc_word hmode]
  simp only [lcCount, BitVec.toNat_setWidth, toNat_add_two] at hcount ⊢
  omega

/-- In 16-bit mode, below the end of the count, NEED-FETCH survives the increment. -/
theorem needFetch_word {lc ic : Word} (hmode : ic.getLsbD 29 = false)
    (hcount : (lcCount lc).toNat + 2 < 2 ^ 26) : needFetch lc ic = lc.getLsbD 31 := by
  have hlc := lc.isLt
  have hbit : (lc + 2).toNat / 2 ^ 31 % 2 = lc.toNat / 2 ^ 31 % 2 := by
    simp only [lcCount, BitVec.toNat_setWidth] at hcount
    rw [toNat_add_two]
    omega
  rw [needFetch, incrementedLc_word hmode, getLsbD_eq_decide, getLsbD_eq_decide, hbit]

/-- In 16-bit mode advancing sets NEED-FETCH again at the end of a word. -/
theorem needFetch_advancedLc_word {lc ic : Word} (hmode : ic.getLsbD 29 = false) :
    (advancedLc lc ic).getLsbD 31 = !(lc + 2).getLsbD 1 := by
  have hset : (1#32 <<< 31).getLsbD 31 = true := by decide
  have hother : (~~~(1#32 <<< 31)).getLsbD 1 = true := by decide
  have hclear : (~~~(1#32 <<< 31)).getLsbD 31 = false := by decide
  unfold advancedLc needFetch
  rw [incrementedLc_word hmode, hmode]
  dsimp only
  rw [Bool.false_and, Bool.not_false, Bool.true_and]
  cases hneed : (lc + 2).getLsbD 31 with
  | true =>
    rw [if_pos rfl, BitVec.getLsbD_and, hother, Bool.and_true]
    cases (lc + 2).getLsbD 1 with
    | true => rw [if_neg (by decide), BitVec.getLsbD_and, hclear, Bool.and_false]; rfl
    | false => rw [if_pos (by decide), BitVec.getLsbD_or, hset, Bool.or_true]; rfl
  | false =>
    rw [if_neg Bool.false_ne_true]
    cases (lc + 2).getLsbD 1 with
    | true => rw [if_neg (by decide), hneed]; rfl
    | false => rw [if_pos (by decide), BitVec.getLsbD_or, hset, Bool.or_true]; rfl

/-- A count in the low bits. -/
theorem toNat_mod_of_lcCount {lc : Word} {n : ℕ} (h : (lcCount lc).toNat = n) :
    lc.toNat % 2 ^ 26 = n := by
  rwa [lcCount, BitVec.toNat_setWidth] at h

/-- The effect of an advance on a state in phase. -/
theorem InPhase.advance {port : VmPort β} {x k : ℕ} {s t : Engine β} {ppc v : Word}
    (hs : InPhase x k s) (hx : Even x) (hbound : x + 2 * (k + 1) < 2 ^ 26)
    (h : advanceLC port ppc s = .ok v t) : InPhase x (k + 1) t := by
  obtain ⟨hcore, -⟩ := (post_advanceLC ppc).ok h
  have hlc : t.lc = advancedLc s.lc s.interruptControl := congrArg Core.lc hcore
  have hic : t.interruptControl = s.interruptControl := congrArg Core.interruptControl hcore
  have hroom : (lcCount s.lc).toNat + 2 < 2 ^ 26 := by
    rw [hs.count]
    omega
  refine ⟨?_, ?_, ?_⟩
  · rw [hlc, lcCount_advancedLc_word hs.mode hroom, hs.count]
    omega
  · rw [hic]
    exact hs.mode
  · have hlow := toNat_mod_of_lcCount hs.count
    have hparity : x % 2 = 0 := Nat.even_iff.mp hx
    have hlt := s.lc.isLt
    have hbit : (s.lc + 2).getLsbD 1 = decide ((x + 2 * (k + 1)) / 2 % 2 = 1) := by
      rw [getLsbD_eq_decide, toNat_add_two]
      exact decide_eq_decide.mpr (by omega)
    rw [hlc, needFetch_advancedLc_word hs.mode, hbit, ← decide_not]
    refine decide_eq_decide.mpr ⟨fun hhigh => .inr ?_, fun hfetch => ?_⟩
    · show 4 ∣ x + 2 * (k + 1)
      omega
    · have hword : 4 ∣ x + 2 * (k + 1) := hfetch.resolve_left (by omega)
      omega

/-- Clearing the low bit of an even count. -/
theorem and_not_one_of_even {c : BitVec 26} (h : Even c.toNat) : c &&& ~~~1#26 = c := by
  apply BitVec.eq_of_getLsbD_eq
  intro i hi
  rw [BitVec.getLsbD_and, BitVec.getLsbD_not, BitVec.getLsbD_one, decide_eq_true hi, Bool.true_and]
  rcases Nat.eq_zero_or_pos i with rfl | hpos
  · have heven : c.getLsbD 0 = false := by
      rw [BitVec.getLsbD, Nat.testBit_zero, decide_eq_false_iff_not, Nat.even_iff.mp h]
      decide
    rw [heven, Bool.false_and]
  · have hne : (decide (0 < 26) && decide (i = 0)) = false := by
      rw [decide_eq_false (Nat.pos_iff_ne_zero.mp hpos), Bool.and_false]
    rw [hne, Bool.not_false, Bool.and_true]

/-- A write of the location counter in 16-bit mode stores an even count. -/
theorem lcCount_writeLc {c : Core} {data : Word} (hmode : c.interruptControl.getLsbD 29 = false)
    (heven : Even (lcCount data).toNat) : lcCount (c.writeLc data).lc = lcCount data := by
  have hdrop : (~~~0o377777777#32).setWidth 26 = 0#26 := by decide
  have hkeep : (0o377777777 : Word).setWidth 26 = BitVec.allOnes 26 := by decide
  have hlow : (~~~1#32).setWidth 26 = ~~~1#26 := by decide
  unfold Core.writeLc
  dsimp only
  rw [lcCount_or_needFetch, hmode, if_neg Bool.false_ne_true, lcCount, BitVec.setWidth_and,
    BitVec.setWidth_or, BitVec.setWidth_and, BitVec.setWidth_and, hdrop, hkeep, hlow,
    BitVec.and_zero, BitVec.zero_or, BitVec.and_allOnes]
  exact and_not_one_of_even heven

/-- A write of the location counter in 16-bit mode starts a stream in phase. -/
theorem InPhase.written {port : VmPort β} {x : ℕ} {s t : Engine β} {dest data : Word} (hx : Even x)
    (hdest : (dest >>> 5).toNat = 1) (hmode : s.interruptControl.getLsbD 29 = false)
    (hdata : (lcCount data).toNat = x) (h : mfwrite port dest data s = .ok () t) :
    InPhase x 0 t := by
  have hpost : Post (mfwrite port dest data) s (fun _ t => t.core = s.core.writeLc data)
      fun _ _ => True := by
    unfold mfwrite writeLc
    simp only [hdest, post_bind, post_get, post_modify]
    rfl
  have hcore : t.core = s.core.writeLc data := hpost.ok h
  have hlc : t.lc = (s.core.writeLc data).lc := congrArg Core.lc hcore
  have hic : t.interruptControl = s.interruptControl := congrArg Core.interruptControl hcore
  have hset : (1#32 <<< 31).getLsbD 31 = true := by decide
  have hfetch : decide (FetchesWord x (0 + 1)) = true := decide_eq_true (.inl rfl)
  refine ⟨?_, by rw [hic]; exact hmode, ?_⟩
  · have heven : Even (lcCount data).toNat := by
      rw [hdata]
      exact hx
    have hcount : lcCount (s.core.writeLc data).lc = lcCount data := lcCount_writeLc hmode heven
    rw [hlc, hcount, hdata, Nat.mul_zero, Nat.add_zero]
  · rw [hlc, hfetch]
    unfold Core.writeLc
    dsimp only
    rw [BitVec.getLsbD_or, hset, Bool.or_true]
/-- The word that an advance of a stream fetches. -/
theorem InPhase.fetchAddress_eq {x k : ℕ} {s : Engine β} (hs : InPhase x k s) :
    fetchAddress s.lc = BitVec.ofNat 32 ((x + 2 * k) / 4) := by
  have hlow := toNat_mod_of_lcCount hs.count
  have hlt := s.lc.isLt
  apply BitVec.eq_of_toNat_eq
  rw [fetchAddress, toNat_shiftRight, toNat_and_mask _ _ (n := 26) rfl, hlow, BitVec.toNat_ofNat]
  omega

/-- An advance of a stream needs a word exactly when NEED-FETCH is set. -/
theorem InPhase.needFetch_eq {x k : ℕ} {s : Engine β} (hs : InPhase x k s)
    (hbound : x + 2 * (k + 1) < 2 ^ 26) :
    Usim.needFetch s.lc s.interruptControl = decide (FetchesWord x (k + 1)) := by
  have hroom : (lcCount s.lc).toNat + 2 < 2 ^ 26 := by
    rw [hs.count]
    omega
  rw [needFetch_word hs.mode hroom, hs.needFetch]

/-- An advance of a stream starts the read of a new word, or none. -/
theorem InPhase.reads {port : VmPort β} {x k : ℕ} {s t : Engine β} {ppc v : Word}
    (hs : InPhase x k s) (hbound : x + 2 * (k + 1) < 2 ^ 26) (h : advanceLC port ppc s = .ok v t) :
    if FetchesWord x (k + 1) then
      StartsRead port (BitVec.ofNat 32 ((x + 2 * k) / 4)) s t ∧ v = ppc
    else StartsNoRead s t ∧ v = ppc ||| 2 := by
  have hreads := (post_advanceLC_reads ppc).ok h
  obtain ⟨-, hv⟩ := (post_advanceLC ppc).ok h
  rw [hs.needFetch_eq hbound, hs.fetchAddress_eq] at hreads
  rw [advancedPc, hs.needFetch_eq hbound] at hv
  by_cases hfetch : FetchesWord x (k + 1)
  · rw [decide_eq_true hfetch, if_pos rfl] at hreads hv
    rw [if_pos hfetch]
    exact ⟨hreads, hv⟩
  · rw [decide_eq_false hfetch, if_neg Bool.false_ne_true] at hreads hv
    rw [if_neg hfetch]
    exact ⟨hreads, hv⟩

/-- The words fetched before an advance of a stream and by it. -/
theorem InPhase.fetched {port : VmPort β} {x k : ℕ} {s t : Engine β} {ppc v : Word}
    (hs : InPhase x k s) (hx : Even x) (hbound : x + 2 * (k + 1) < 2 ^ 26)
    (h : advanceLC port ppc s = .ok v t) :
    fetchedWords x k ++ startedReads s t = fetchedWords x (k + 1) := by
  have hreads := hs.reads hbound h
  rw [fetchedWords_succ hx]
  split at hreads
  · rename_i hfetch
    rw [if_pos hfetch, hreads.1.reads]
  · rename_i hfetch
    rw [if_neg hfetch, hreads.1.reads]

/-- Every state of a stream is in phase, and the words fetched so far are those
of the counts passed so far, in order and each once. -/
theorem MacroStream.invariant {port : VmPort β} {x k : ℕ} {words : List Word} {s : Engine β}
    (hs : MacroStream port x k words s) (hx : Even x) (hbound : x + 2 * k < 2 ^ 26) :
    InPhase x k s ∧ words = fetchedWords x k := by
  induction hs with
  | written hdest hmode hdata h => exact ⟨.written hx hdest hmode hdata h, rfl⟩
  | @advanced k words ppc v s t _ h ih =>
    obtain ⟨hphase, hwords⟩ := ih (by omega)
    refine ⟨hphase.advance hx hbound h, ?_⟩
    rw [hwords]
    exact hphase.fetched hx hbound h
  | @other k words s t _ hlc hic ih =>
    obtain ⟨⟨hcount, hmode, hneed⟩, hwords⟩ := ih hbound
    exact ⟨⟨hlc ▸ hcount, hic ▸ hmode, hlc ▸ hneed⟩, hwords⟩

/-- In 16-bit mode the rotation of an instruction with `IR<4>` clear has bit 4
set unless bit 1 of the location counter is. -/
theorem lcbytemode_bit_four {p0 : BitVec 64} {lc ic : Word} (hmode : ic.getLsbD 29 = false)
    (hp0 : p0.getLsbD 4 = false) : (lcbytemode p0 lc ic).getLsbD 4 = !lc.getLsbD 1 := by
  have hir4 : ((p0 >>> 4) &&& 1).setWidth 32 = 0#32 := by
    apply BitVec.eq_of_getLsbD_eq
    intro i hi
    rw [BitVec.getLsbD_setWidth, BitVec.getLsbD_and, BitVec.getLsbD_ushiftRight]
    rcases Nat.eq_zero_or_pos i with rfl | hpos
    · rw [hp0]
      rfl
    · have hone : (1 : BitVec 64).getLsbD i = false := by
        rw [show (1 : BitVec 64) = 1#64 from rfl, BitVec.getLsbD_one,
          decide_eq_false (Nat.pos_iff_ne_zero.mp hpos), Bool.and_false]
      rw [hone, Bool.and_false, Bool.and_false, BitVec.getLsbD_zero]
  have hlow : ((p0 &&& 0o17).setWidth 32 : Word).getLsbD 4 = false := by
    rw [BitVec.getLsbD_setWidth, BitVec.getLsbD_and, hp0, Bool.false_and, Bool.and_false]
  have hlc1 : (lc >>> 1) &&& 1 ≠ 0 ↔ lc.getLsbD 1 = true := by
    rw [and_one_ne_zero, toNat_shiftRight, getLsbD_eq_decide, decide_eq_true_iff]
  rw [lcbytemode]
  dsimp only
  rw [hmode, if_neg Bool.false_ne_true, hir4, BitVec.getLsbD_or, hlow, Bool.false_or,
    BitVec.zero_xor]
  cases hbit : lc.getLsbD 1 with
  | true => rw [if_pos (hlc1.mpr hbit)]; rfl
  | false =>
    rw [if_neg (fun h => Bool.false_ne_true (hbit.symm.trans (hlc1.mp h)))]
    rfl

/-- In a stream from an even count `x` in 16-bit mode, the advance after `k`
others leaves the count `x + 2 * (k + 1)`. If it is the first, or the count
`x + 2 * k` is that of a word, then it starts the read of that word and returns
its argument; otherwise it starts no read and sets bit 1 of its argument. All
words so far are fetched in order and each once. After it, the rotation of an
instruction with `IR<4>` clear selects the low halfword exactly when
`x / 2 + k` is even. -/
theorem macro_stream_advance {port : VmPort β} {x k : ℕ} {words : List Word} {s t : Engine β}
    {ppc v : Word} (hs : MacroStream port x k words s) (hx : Even x)
    (hbound : x + 2 * (k + 1) < 2 ^ 26) (h : advanceLC port ppc s = .ok v t) :
    (lcCount t.lc).toNat = x + 2 * (k + 1) ∧
    (if FetchesWord x (k + 1) then
      StartsRead port (BitVec.ofNat 32 ((x + 2 * k) / 4)) s t ∧ v = ppc
    else StartsNoRead s t ∧ v = ppc ||| 2) ∧
    words ++ startedReads s t = fetchedWords x (k + 1) ∧
    ∀ (p0 : BitVec 64) (w : Word), p0.getLsbD 4 = false →
      selectedHalf w (lcbytemode p0 t.lc t.interruptControl) =
        halfword w (decide ¬Even (x / 2 + k)) := by
  obtain ⟨hphase, hwords⟩ := hs.invariant hx (by omega)
  have hnext := hphase.advance hx hbound h
  refine ⟨hnext.count, hphase.reads hbound h, ?_, fun p0 w hp0 => ?_⟩
  · rw [hwords]
    exact hphase.fetched hx hbound h
  · have hlow := toNat_mod_of_lcCount hnext.count
    have hparity : x % 2 = 0 := Nat.even_iff.mp hx
    have hhigh : t.lc.toNat / 2 ^ 1 % 2 = 1 ↔ Even (x / 2 + k) := by
      rw [Nat.even_iff]
      omega
    have hbit : t.lc.getLsbD 1 = decide (Even (x / 2 + k)) :=
      (getLsbD_eq_decide _ _).trans (decide_eq_decide.mpr hhigh)
    rw [selectedHalf_eq, lcbytemode_bit_four hnext.mode hp0, hbit, decide_not]

/-- A machine whose location counter was written with 4. -/
def streamAtFour : Engine Unit := { powerOn (fun _ => 0) (fun _ => 0) () with lc := 0x80000004 }

/-- The second advance from the count 4 passes the high halfword of word 1: it
starts no read, and the rotation selects that halfword. -/
theorem macro_stream_advance_from_four :
    ∃ (s t : Engine Unit) (v : Word), MacroStream noBus 4 1 [1] s ∧
      advanceLC noBus 0o100 s = .ok v t ∧ (lcCount t.lc).toNat = 8 ∧ StartsNoRead s t ∧
      v = 0o102 ∧
      selectedHalf 0x12345678 (lcbytemode 0 t.lc t.interruptControl) = 0x1234 := by
  have hwritten : mfwrite noBus 0o40 4 (powerOn (fun _ => 0) (fun _ => 0) ()) =
      .ok () streamAtFour := rfl
  have hadvances : ∃ s t v w, advanceLC noBus 0 streamAtFour = .ok v s ∧
      startedReads streamAtFour s = [1] ∧ advanceLC noBus 0o100 s = .ok w t :=
    ⟨_, _, _, _, rfl, by decide, rfl⟩
  obtain ⟨s, t, v, w, hfirst, hreads, hsecond⟩ := hadvances
  have hstream : MacroStream noBus 4 1 ([] ++ startedReads streamAtFour s) s :=
    .advanced (.written (by decide) rfl (by decide) hwritten) hfirst
  rw [hreads] at hstream
  obtain ⟨hcount, hno, -, hhalf⟩ :=
    macro_stream_advance hstream (by decide) (by decide) hsecond
  rw [if_neg (by decide)] at hno
  exact ⟨s, t, w, hstream, hsecond, hcount, hno.1, hno.2,
    (hhalf 0 0x12345678 rfl).trans (by decide)⟩

end Usim
