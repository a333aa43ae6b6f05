import Usim.Lib.CText
import Usim.Lib.Runs
import Usim.Lib.Updates
import Usim.Misc

/-!
# The disassembly of a function

`disassemble_fef` of `lod.c`. The words of the band are a parameter, and so is
`disassemble_instruction`, which gives the text of a halfword or ends the process. Of a line its
address, its halfword and its text are kept.
-/

namespace Usim

open Lib

/-- `LISPM_SYSTEM`. -/
inductive LispmSystem
  | system78 | system98 | system99 | system300
  deriving DecidableEq, Repr

namespace LispmSystem

/-- `FEFH_PC_`. -/
def fefhPc : LispmSystem → Word
  | system78 => 0o00020
  | _ => 0o00017

/-- `Q_POINTER_`. -/
def qPointer : LispmSystem → Word
  | system78 => 0o00030
  | _ => 0o00031

/-- `Q_DATA_TYPE_`. -/
def qDataType : LispmSystem → Word
  | system78 => 0o03005
  | _ => 0o03105

/-- `DTP_FIX`. -/
def dtpFix : Word := 5

/-- `DTP_HEADER`. -/
def dtpHeader : Word := 7

/-- `FEFHI_STORAGE_LENGTH`. -/
def fefhiStorageLength : Word := 1

end LispmSystem

/-- What ends `disassemble_fef`, or leaves it undefined. -/
inductive FefFault
  /-- A call of `errx`. -/
  | err (call : ErrCall)
  /-- `assert(DATA_TYPE(length) == DTP_FIX)` fails. -/
  | assert
  /-- A subscript of `ib` at or beyond its size. -/
  | subscript (i : ℕ)
  deriving DecidableEq

/-- A line that `disassemble_fef` prints. -/
structure FefLine where
  loc : Word
  wd : BitVec 16
  text : List Byte

/-- A load band and how its instructions are disassembled. -/
structure LoadBand where
  system : LispmSystem
  /-- The word at an address of 24 bits. -/
  word : BitVec 24 → Word
  /-- `disassemble_instruction`. -/
  disassembleInstruction (fef pc wd secondWord : Word) : Except ErrCall (List Byte)

namespace LoadBand

/-- `read_virt`. -/
def readVirt (band : LoadBand) (addr : Word) : Word := band.word (addr.setWidth 24)

/-- `ldb`, with a constant descriptor. -/
def ldb (ppss w : Word) : Word := (Misc.ldb ppss w).getD 0

/-- `DATA_TYPE`. -/
def dataType (band : LoadBand) (w : Word) : Word := ldb band.system.qDataType w

/-- The instruction buffer `ib[512]` after the assignment of an element. -/
def setHalf (ib : Fin 512 → BitVec 16) (j : ℕ) (v : BitVec 16) :
    Except FefFault (Fin 512 → BitVec 16) :=
  if h : j < 512 then .ok (Function.update ib ⟨j, h⟩ v) else .error (.subscript j)

/-- The loop that fills the buffer, with `n` turns to go. -/
def fill (band : LoadBand) (fef : Word) :
    ℕ → Word → ℕ → (Fin 512 → BitVec 16) → Except FefFault (Fin 512 → BitVec 16)
  | 0, _, _, ib => .ok ib
  | n + 1, i, j, ib => do
    let inst := band.readVirt (fef + i)
    let ib ← setHalf ib j (inst.setWidth 16)
    let ib ← setHalf ib (j + 1) ((inst >>> 16).setWidth 16)
    band.fill fef n (i + 1) (j + 2) ib

/-- The loop that prints, from a halfword on. -/
def print (band : LoadBand) (fef : Word) (ib : Fin 512 → BitVec 16) (bound i : Word) :
    Except FefFault (List FefLine) :=
  if hlt : i < bound then
    if hi : i.toNat < 512 then
      match band.disassembleInstruction fef (fef + i / 2) ((ib ⟨i.toNat, hi⟩).setWidth 32) 0 with
      | .error call => .error (.err call)
      | .ok text =>
        (band.print fef ib bound (i + 1)).map (⟨fef + i / 2, ib ⟨i.toNat, hi⟩, text⟩ :: ·)
    else .error (.subscript i.toNat)
  else .ok []
termination_by bound.toNat - i.toNat
decreasing_by
  have hnat : i.toNat < bound.toNat := BitVec.lt_def.mp hlt
  have hone : (1 : Word).toNat = 1 := rfl
  rw [BitVec.toNat_add, hone]
  omega

/-- `disassemble_fef`. What the stack holds in the place of the buffer is a parameter. -/
def disassembleFef (band : LoadBand) (stack : Fin 512 → BitVec 16) (fef : Word) :
    Except FefFault (List FefLine) := do
  let header := band.readVirt fef
  if band.dataType header ≠ LispmSystem.dtpHeader then
    throw (.err ⟨"%011o: address does not point (%011o) to a DTP-HEADER",
      [fef.toNat, header.toNat]⟩)
  let length := band.readVirt (fef + LispmSystem.fefhiStorageLength)
  if band.dataType length ≠ LispmSystem.dtpFix then
    throw .assert
  let o := ldb band.system.fefhPc header
  let max := ldb band.system.qPointer length
  let ib ← band.fill fef max.toNat 0 0 stack
  let icount := (max - o / 2) * 2
  band.print fef ib (o + (icount - 1)) o

/-- The first halfword of the instructions. -/
def firstHalf (band : LoadBand) (fef : Word) : Word :=
  ldb band.system.fefhPc (band.readVirt fef)

/-- The words of the function. -/
def storageLength (band : LoadBand) (fef : Word) : Word :=
  ldb band.system.qPointer (band.readVirt (fef + LispmSystem.fefhiStorageLength))

/-- A halfword of the function. -/
def half (band : LoadBand) (fef : Word) (k : ℕ) : BitVec 16 :=
  if k % 2 = 0 then (band.readVirt (fef + BitVec.ofNat 32 (k / 2))).setWidth 16
  else (band.readVirt (fef + BitVec.ofNat 32 (k / 2)) >>> 16).setWidth 16

/-- The address points to a header, with a fixnum storage length behind it and instructions that
begin in the function. -/
structure IsFef (band : LoadBand) (fef : Word) : Prop where
  header : band.dataType (band.readVirt fef) = LispmSystem.dtpHeader
  fixnum : band.dataType (band.readVirt (fef + LispmSystem.fefhiStorageLength)) = LispmSystem.dtpFix
  first : (band.firstHalf fef).toNat ≤ 2 * (band.storageLength fef).toNat

/-- The halfwords of the instructions are printed, each once, and the buffer is used within its
bounds. -/
def PrintsCode (band : LoadBand) (stack : Fin 512 → BitVec 16) (fef : Word) : Prop :=
  ∃ lines, band.disassembleFef stack fef = .ok lines ∧
    lines.map (fun l => (l.loc, l.wd)) = (List.range' (band.firstHalf fef).toNat
      (2 * (band.storageLength fef).toNat - (band.firstHalf fef).toNat)).map fun k =>
        (fef + BitVec.ofNat 32 (k / 2), band.half fef k)

/-- The disassembly of every instruction returns. -/
def Disassembles (band : LoadBand) (fef : Word) : Prop :=
  ∀ k, (band.firstHalf fef).toNat ≤ k → k < 2 * (band.storageLength fef).toNat →
    ∃ text, band.disassembleInstruction fef (fef + BitVec.ofNat 32 (k / 2))
      ((band.half fef k).setWidth 32) 0 = .ok text

/-- The function fits in the buffer. Its instructions begin in the high half of a word, and all of
them can be disassembled, or it has none. -/
def CodeFits (band : LoadBand) (fef : Word) : Prop :=
  (band.storageLength fef).toNat ≤ 256 ∧
    ((band.firstHalf fef).toNat % 2 = 1 ∧ band.Disassembles fef ∨
      (band.firstHalf fef).toNat = 2 * (band.storageLength fef).toNat ∧
        0 < (band.storageLength fef).toNat)

variable {band : LoadBand} {stack ib : Fin 512 → BitVec 16} {fef bound i : Word} {m n : ℕ}
  {lines : List FefLine}

/-! ### The buffer -/

/-- An element within the buffer. -/
theorem setHalf_of_lt {j : ℕ} (h : j < 512) (v : BitVec 16) :
    setHalf ib j v = .ok (Function.update ib ⟨j, h⟩ v) := dif_pos h

/-- The next word of the band goes to two elements within the buffer. -/
theorem fill_succ (h : m < 256) :
    band.fill fef (n + 1) (BitVec.ofNat 32 m) (2 * m) ib =
      band.fill fef n (BitVec.ofNat 32 (m + 1)) (2 * (m + 1))
        (Function.update (Function.update ib ⟨2 * m, by omega⟩ (band.half fef (2 * m)))
          ⟨2 * m + 1, by omega⟩ (band.half fef (2 * m + 1))) := by
  have hlow : band.half fef (2 * m) =
      (band.readVirt (fef + BitVec.ofNat 32 m)).setWidth 16 := by
    rw [half, if_pos (Nat.mul_mod_right 2 m), Nat.mul_div_cancel_left m (by decide)]
  have hhigh : band.half fef (2 * m + 1) =
      (band.readVirt (fef + BitVec.ofNat 32 m) >>> 16).setWidth 16 := by
    have hdiv : (2 * m + 1) / 2 = m := by omega
    rw [half, if_neg (by omega), hdiv]
  have hfirst : 2 * m < 512 := by omega
  have hsecond : 2 * m + 1 < 512 := by omega
  have hnext : BitVec.ofNat 32 m + 1 = BitVec.ofNat 32 (m + 1) := (BitVec.ofNat_add m 1).symm
  simp only [fill, bind, Except.bind, setHalf_of_lt hfirst, setHalf_of_lt hsecond]
  rw [hlow, hhigh, hnext, Nat.mul_succ]

/-- The buffer gets the halfwords of the function. -/
theorem fill_eq (h : m + n ≤ 256) :
    band.fill fef n (BitVec.ofNat 32 m) (2 * m) ib =
      .ok fun k => if 2 * m ≤ k ∧ k < 2 * (m + n) then band.half fef k else ib k := by
  induction n generalizing m ib with
  | zero =>
    rw [fill]
    congr 1
    funext k
    rw [if_neg (by omega)]
  | succ n ih =>
    rw [fill_succ (by omega), ih (by omega), Nat.add_right_comm m 1 n, Nat.add_assoc m n 1]
    congr 1
    have hlow : (⟨2 * m, by omega⟩ : Fin 512).val = 2 * m := rfl
    have hhigh : (⟨2 * m + 1, by omega⟩ : Fin 512).val = 2 * m + 1 := rfl
    exact (stretch_update _ (band.half fef) hhigh (by omega)).trans
      (stretch_update ib (band.half fef) hlow (by omega))

/-- A function of more than 256 words does not fit in the buffer. -/
theorem fill_eq_error (hm : m ≤ 256) (h : 256 < m + n) :
    band.fill fef n (BitVec.ofNat 32 m) (2 * m) ib = .error (.subscript 512) := by
  induction n generalizing m ib with
  | zero => omega
  | succ n ih =>
    by_cases hlast : m = 256
    · rw [hlast]
      rfl
    · rw [fill_succ (by omega)]
      exact ih (by omega) (by omega)

/-! ### The lines -/

/-- The word of a halfword. -/
theorem ofNat_half (i : Word) : BitVec.ofNat 32 (i.toNat / 2) = i / 2 := by
  have hi := i.isLt
  have htwo : (2 : Word).toNat = 2 := rfl
  apply BitVec.eq_of_toNat_eq
  rw [BitVec.toNat_ofNat, BitVec.toNat_udiv, htwo]
  omega

/-- The next halfword. -/
theorem toNat_next (h : i < bound) : (i + 1).toNat = i.toNat + 1 := by
  have hlt : i.toNat < bound.toNat := BitVec.lt_def.mp h
  have hone : (1 : Word).toNat = 1 := rfl
  rw [BitVec.toNat_add, hone]
  omega

/-- The lines that are printed: each element of the buffer is disassembled. -/
theorem print_eq_ok (h : band.print fef ib bound i = .ok lines) :
    lines.length = bound.toNat - i.toNat ∧ (i < bound → bound.toNat ≤ 512) ∧
      ∀ k (hk : k < 512), i.toNat ≤ k → k < bound.toNat →
        ∃ text, band.disassembleInstruction fef (fef + BitVec.ofNat 32 (k / 2))
          ((ib ⟨k, hk⟩).setWidth 32) 0 = .ok text := by
  revert h
  fun_induction print band fef ib bound i generalizing lines with
  | case1 => nofun
  | case2 i hlt hi text htext ih =>
    intro h
    obtain ⟨rest, hrest, rfl⟩ := exists_of_map_eq_ok h
    obtain ⟨hlength, hbound, hall⟩ := ih hrest
    have hlt' : i.toNat < bound.toNat := BitVec.lt_def.mp hlt
    rw [toNat_next hlt] at hlength hall
    refine ⟨?_, fun _ => ?_, fun k hk hik hkb => ?_⟩
    · rw [List.length_cons, hlength]
      omega
    · by_cases hlast : i.toNat + 1 < bound.toNat
      · exact hbound (BitVec.lt_def.mpr (by rwa [toNat_next hlt]))
      · omega
    · rcases Nat.eq_or_lt_of_le hik with rfl | hlater
      · exact ⟨text, by rw [ofNat_half]; exact htext⟩
      · exact hall k hk hlater hkb
  | case3 => nofun
  | case4 i hge =>
    intro h
    cases h
    have hge' : bound.toNat ≤ i.toNat := BitVec.le_def.mp (BitVec.not_lt.mp hge)
    exact ⟨(Nat.sub_eq_zero_of_le hge').symm, fun hlt => absurd hlt hge, fun k _ hik hkb =>
      absurd hkb (by omega)⟩

/-- The elements of the buffer are printed if each of them can be disassembled. -/
theorem exists_print_eq_ok (hbound : bound.toNat ≤ 512)
    (hhalf : ∀ k (hk : k < 512), k < bound.toNat → ib ⟨k, hk⟩ = band.half fef k)
    (h : ∀ k, i.toNat ≤ k → k < bound.toNat →
      ∃ text, band.disassembleInstruction fef (fef + BitVec.ofNat 32 (k / 2))
        ((band.half fef k).setWidth 32) 0 = .ok text) :
    ∃ lines, band.print fef ib bound i = .ok lines ∧
      lines.map (fun l => (l.loc, l.wd)) = (List.range' i.toNat (bound.toNat - i.toNat)).map
        fun k => (fef + BitVec.ofNat 32 (k / 2), band.half fef k) := by
  fun_induction print band fef ib bound i with
  | case1 i hlt hi call hcall =>
    have hlt' : i.toNat < bound.toNat := BitVec.lt_def.mp hlt
    obtain ⟨text, htext⟩ := h i.toNat (Nat.le_refl _) hlt'
    rw [ofNat_half, ← hhalf i.toNat hi hlt'] at htext
    cases hcall.symm.trans htext
  | case2 i hlt hi text htext ih =>
    have hlt' : i.toNat < bound.toNat := BitVec.lt_def.mp hlt
    rw [toNat_next hlt] at ih
    obtain ⟨lines, hlines, hmap⟩ := ih fun k hk => h k (by omega)
    have hrange : List.range' i.toNat (bound.toNat - i.toNat) =
        i.toNat :: List.range' (i.toNat + 1) (bound.toNat - (i.toNat + 1)) := by
      have hcount : bound.toNat - i.toNat = bound.toNat - (i.toNat + 1) + 1 := by omega
      rw [hcount, List.range'_succ]
    refine ⟨⟨fef + i / 2, ib ⟨i.toNat, hi⟩, text⟩ :: lines, by rw [hlines]; rfl, ?_⟩
    rw [hrange, List.map_cons, List.map_cons, hmap, ofNat_half, hhalf i.toNat hi hlt']
  | case3 i hlt hi =>
    have hlt' : i.toNat < bound.toNat := BitVec.lt_def.mp hlt
    omega
  | case4 i hge =>
    have hge' : bound.toNat ≤ i.toNat := BitVec.le_def.mp (BitVec.not_lt.mp hge)
    exact ⟨[], rfl, by rw [Nat.sub_eq_zero_of_le hge']; rfl⟩

/-! ### The whole function -/

/-- A field is less than the power of its size. -/
theorem toNat_ldb_lt {ppss : Word} (h : Misc.fieldSize ppss < 32) (w : Word) :
    (ldb ppss w).toNat < 2 ^ Misc.fieldSize ppss := by
  rw [ldb, Misc.ldb_of_lt h, Option.getD_some, toNat_field]
  exact Nat.mod_lt _ (Nat.two_pow_pos _)

/-- The first halfword has at most 16 bits. -/
theorem firstHalf_lt (band : LoadBand) (fef : Word) : (band.firstHalf fef).toNat < 2 ^ 16 := by
  have hsize : Misc.fieldSize band.system.fefhPc ≤ 16 := by
    cases band.system <;> decide
  exact Nat.lt_of_lt_of_le (toNat_ldb_lt (by omega) _) (Nat.pow_le_pow_right (by decide) hsize)

/-- The number of words has at most 25 bits. -/
theorem storageLength_lt (band : LoadBand) (fef : Word) :
    (band.storageLength fef).toNat < 2 ^ 25 := by
  have hsize : Misc.fieldSize band.system.qPointer ≤ 25 := by
    cases band.system <;> decide
  exact Nat.lt_of_lt_of_le (toNat_ldb_lt (by omega) _) (Nat.pow_le_pow_right (by decide) hsize)

/-- Where the loop that prints ends. -/
def printEnd (band : LoadBand) (fef : Word) : Word :=
  band.firstHalf fef + ((band.storageLength fef - band.firstHalf fef / 2) * 2 - 1)

/-- Where the loop ends: at the end of the function if the instructions begin in the high half of a
word, and else a halfword before it. -/
theorem toNat_printEnd (h : band.IsFef fef) :
    (band.printEnd fef).toNat = (2 * (band.storageLength fef).toNat +
      (band.firstHalf fef).toNat % 2 + 4294967295) % 4294967296 := by
  have hfirst := h.first
  have ho := band.firstHalf_lt fef
  have hmax := band.storageLength_lt fef
  have hone : (1 : Word).toNat = 1 := rfl
  have htwo : (2 : Word).toNat = 2 := rfl
  rw [printEnd, BitVec.toNat_add, BitVec.toNat_sub, BitVec.toNat_mul, BitVec.toNat_sub,
    BitVec.toNat_udiv, hone, htwo]
  omega

/-- A function is read into the buffer and printed. -/
theorem disassembleFef_eq (h : band.IsFef fef) :
    band.disassembleFef stack fef = band.fill fef (band.storageLength fef).toNat 0 0 stack >>=
      fun ib => band.print fef ib (band.printEnd fef) (band.firstHalf fef) := by
  unfold disassembleFef
  simp only [h.header, h.fixnum, ne_eq, not_true_eq_false, if_false]
  rfl

/-- A function that is longer than the buffer overflows it. -/
theorem disassembleFef_eq_error (h : band.IsFef fef)
    (hlong : 256 < (band.storageLength fef).toNat) :
    band.disassembleFef stack fef = .error (.subscript 512) := by
  rw [disassembleFef_eq h]
  have hfill : band.fill fef (band.storageLength fef).toNat 0 0 stack = .error (.subscript 512) :=
    fill_eq_error (m := 0) (by decide) (by omega)
  rw [hfill]
  rfl

/-- The buffer of a function that fits in it. -/
def buffer (band : LoadBand) (stack : Fin 512 → BitVec 16) (fef : Word) : Fin 512 → BitVec 16 :=
  fun k => if k < 2 * (band.storageLength fef).toNat then band.half fef k else stack k

/-- A function that fits in the buffer is printed from it. -/
theorem disassembleFef_of_le (h : band.IsFef fef)
    (hshort : (band.storageLength fef).toNat ≤ 256) :
    band.disassembleFef stack fef =
      band.print fef (band.buffer stack fef) (band.printEnd fef) (band.firstHalf fef) := by
  have hfill : band.fill fef (band.storageLength fef).toNat 0 0 stack =
      .ok (band.buffer stack fef) := by
    have hbuffer : band.buffer stack fef = fun k : Fin 512 =>
        if 2 * 0 ≤ k.val ∧ k.val < 2 * (0 + (band.storageLength fef).toNat) then band.half fef k
        else stack k := by
      funext k
      rw [Nat.zero_add, buffer]
      simp
    rw [hbuffer]
    exact fill_eq (m := 0) (by omega)
  rw [disassembleFef_eq h, hfill]
  rfl

/-- A function whose instructions are all printed. -/
theorem codeFits_of_printsCode (h : band.IsFef fef) (hprints : band.PrintsCode stack fef) :
    band.CodeFits fef := by
  have hend := toNat_printEnd h
  have hfirst := h.first
  have hwords := band.storageLength_lt fef
  obtain ⟨lines, hlines, hmap⟩ := hprints
  have hshort : (band.storageLength fef).toNat ≤ 256 := by
    by_contra hlong
    rw [disassembleFef_eq_error h (by omega)] at hlines
    cases hlines
  rw [disassembleFef_of_le h hshort] at hlines
  obtain ⟨hlength, hbound, hall⟩ := print_eq_ok hlines
  have hcount := congrArg List.length hmap
  rw [List.length_map, List.length_map, List.length_range', hlength] at hcount
  refine ⟨hshort, ?_⟩
  by_cases hodd : (band.firstHalf fef).toNat % 2 = 1
  · refine .inl ⟨hodd, fun k hok hk => ?_⟩
    obtain ⟨text, htext⟩ := hall k (by omega) hok (by omega)
    have helement : band.buffer stack fef ⟨k, by omega⟩ = band.half fef k := if_pos hk
    exact ⟨text, by rw [← helement]; exact htext⟩
  · right
    by_cases hempty : (band.storageLength fef).toNat = 0
    · -- the loop runs on to the largest number
      have hlt : band.firstHalf fef < band.printEnd fef := BitVec.lt_def.mpr (by omega)
      have hsmall := hbound hlt
      omega
    · omega

/-- The instructions of a function that fits are printed. -/
theorem CodeFits.printsCode (hfits : band.CodeFits fef) (h : band.IsFef fef) :
    band.PrintsCode stack fef := by
  have hend := toNat_printEnd h
  obtain ⟨hshort, hcases⟩ := hfits
  have hbuffer (k : ℕ) (hk : k < 512) (hkw : k < 2 * (band.storageLength fef).toNat) :
      band.buffer stack fef ⟨k, hk⟩ = band.half fef k := if_pos hkw
  unfold PrintsCode
  rw [disassembleFef_of_le h hshort]
  rcases hcases with ⟨hodd, hdisassembles⟩ | ⟨hlast, hpos⟩
  · have heq : (band.printEnd fef).toNat = 2 * (band.storageLength fef).toNat := by omega
    rw [← heq]
    exact exists_print_eq_ok (by omega) (fun k hk hkb => hbuffer k hk (by omega))
      fun k hok hk => hdisassembles k hok (by omega)
  · refine ⟨[], ?_, ?_⟩
    · have hge : ¬band.firstHalf fef < band.printEnd fef := by
        rw [BitVec.lt_def]
        omega
      rw [print, dif_neg hge]
    · rw [hlast, Nat.sub_self]
      rfl

/-- The instructions of a function are printed, each once and within the buffer, if and only if it
fits in the buffer and they begin in the high half of a word, or there are none. -/
theorem printsCode_iff (band : LoadBand) (stack : Fin 512 → BitVec 16) (fef : Word)
    (h : band.IsFef fef) : band.PrintsCode stack fef ↔ band.CodeFits fef :=
  ⟨codeFits_of_printsCode h, fun hfits => hfits.printsCode h⟩

/-- A band of System 300 with a function of three words at 0. The last halfword is 0. -/
def smallBand (o : Word) : LoadBand where
  system := .system300
  word addr := if addr = 0 then 0x0E000000 ||| o else if addr = 1 then 0x0A000003 else 0
  disassembleInstruction _ _ _ _ := .ok (chars "00000000002 000000 0")

/-- Its last halfword is its only instruction. -/
theorem printsCode_smallBand : (smallBand 5).PrintsCode (fun _ => 0) 0 :=
  (printsCode_iff (smallBand 5) (fun _ => 0) 0 ⟨by decide, by decide, by decide⟩).mpr
    ⟨by decide, .inl ⟨by decide, fun _ _ _ => ⟨_, rfl⟩⟩⟩

/-- Its last two halfwords are instructions: the last one is not printed. -/
theorem not_printsCode_smallBand :
    (smallBand 4).IsFef 0 ∧ ¬(smallBand 4).PrintsCode (fun _ => 0) 0 := by
  have hfef : (smallBand 4).IsFef 0 := ⟨by decide, by decide, by decide⟩
  refine ⟨hfef, fun h => ?_⟩
  obtain ⟨-, ⟨hodd, -⟩ | ⟨hlast, -⟩⟩ := codeFits_of_printsCode hfef h
  · exact absurd hodd (by decide)
  · exact absurd hlast (by decide)

end LoadBand

end Usim
