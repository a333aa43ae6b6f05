import Usim.Lib.Runs
import Usim.Lib.Updates
import Usim.Misc

/-!
# Loading the PROM

`ucode_load_prom_from_file` of `ucode.c`. The file is opened, and the log message is left out.
-/

namespace Usim

open Lib

/-- What ends `ucode_load_prom_from_file`, or leaves it undefined. -/
inductive PromFault
  /-- A call of `errx`. -/
  | err (call : ErrCall)
  /-- A subscript of `prom` that is negative, or at or beyond its size. -/
  | subscript (loc : Word)
  deriving DecidableEq

/-- The loop of `ucode_load_prom_from_file` with `n` turns to go. -/
def ucodeLoadPromLoop : ℕ → Word → List Byte → (Fin 512 → BitVec 64) →
    Except PromFault (Fin 512 → BitVec 64)
  | 0, _, _, prom => .ok prom
  | n + 1, loc, fd, prom => do
    let (w1, fd) ← (Misc.read16le fd).mapError .err
    let (w2, fd) ← (Misc.read16le fd).mapError .err
    let (w3, fd) ← (Misc.read16le fd).mapError .err
    let (w4, fd) ← (Misc.read16le fd).mapError .err
    -- `loc` is an `int`
    if h : loc.toNat < 512 then
      ucodeLoadPromLoop n (loc + 1) fd (Function.update prom ⟨loc.toNat, h⟩
        ((w1.setWidth 64 <<< 48) ||| (w2.setWidth 64 <<< 32) ||| (w3.setWidth 64 <<< 16) |||
          (w4.setWidth 64 <<< 0)))
    else throw (.subscript loc)

/-- `ucode_load_prom_from_file`, on `prom`. -/
def ucodeLoadPromFromFile (file : List Byte) (prom : Fin 512 → BitVec 64) :
    Except PromFault (Fin 512 → BitVec 64) := do
  let (_, fd) ← (Misc.read32pdp file).mapError .err
  let (start, fd) ← (Misc.read32pdp fd).mapError .err
  let (size, fd) ← (Misc.read32pdp fd).mapError .err
  ucodeLoadPromLoop size.toNat start fd prom

namespace PromFile

/-- The byte at a position. -/
def byte (file : List Byte) (p : ℕ) : Byte := (file[p]?).getD 0

/-- The half word at a position, the low byte first. -/
def half (file : List Byte) (p : ℕ) : BitVec 16 := byte file (p + 1) ++ byte file p

/-- The word at a position, the high half first. -/
def word (file : List Byte) (p : ℕ) : Word := half file p ++ half file (p + 2)

/-- The location of the first word, from the header. -/
def start (file : List Byte) : Word := word file 4

/-- The number of words, from the header. -/
def size (file : List Byte) : Word := word file 8

/-- A microinstruction of the body, the most significant half word first. -/
def instruction (file : List Byte) (i : ℕ) : BitVec 64 :=
  half file (12 + 8 * i) ++ half file (12 + 8 * i + 2) ++ half file (12 + 8 * i + 4) ++
    half file (12 + 8 * i + 6)

/-- The file has all words that its header announces. -/
def Complete (file : List Byte) : Prop := 12 + 8 * (size file).toNat ≤ file.length

instance (file : List Byte) : Decidable (Complete file) := inferInstanceAs (Decidable (_ ≤ _))

/-- The PROM with the words of a file. -/
def loaded (file : List Byte) (prom : Fin 512 → BitVec 64) : Fin 512 → BitVec 64 := fun k =>
  if (start file).toNat ≤ k ∧ k < (start file).toNat + (size file).toNat then
    instruction file (k - (start file).toNat)
  else prom k

variable {file : List Byte} {p n : ℕ} {loc : Word} {prom : Fin 512 → BitVec 64}

/-! ### Half words and words -/

/-- What is left of a file from a position on begins with the byte there. -/
theorem drop_eq_cons (h : p < file.length) : file.drop p = byte file p :: file.drop (p + 1) := by
  rw [List.drop_eq_getElem_cons h, byte, List.getElem?_eq_getElem h, Option.getD_some]

/-- A half word that is read. -/
theorem read16le_drop (h : p + 2 ≤ file.length) :
    Misc.read16le (file.drop p) = .ok (half file p, file.drop (p + 2)) := by
  rw [drop_eq_cons (by omega), drop_eq_cons (by omega), Misc.read16le, shiftLeft_or_setWidth]
  rfl

/-- A word that is read. -/
theorem read32pdp_drop (h : p + 4 ≤ file.length) :
    Misc.read32pdp (file.drop p) = .ok (word file p, file.drop (p + 4)) := by
  rw [drop_eq_cons (by omega), drop_eq_cons (by omega), drop_eq_cons (by omega),
    drop_eq_cons (by omega), Misc.read32pdp_cons, ← append_append_append]
  rfl

/-- Four half words put together with shifts. -/
theorem or_shiftLeft_eq_append_half (w1 w2 w3 w4 : BitVec 16) :
    (w1.setWidth 64 <<< 48) ||| (w2.setWidth 64 <<< 32) ||| (w3.setWidth 64 <<< 16) |||
        (w4.setWidth 64 <<< 0) = w1 ++ w2 ++ w3 ++ w4 := by
  apply BitVec.eq_of_getLsbD_eq
  intro i hi
  simp only [BitVec.getLsbD_or, BitVec.getLsbD_shiftLeft, BitVec.getLsbD_setWidth,
    BitVec.getLsbD_append]
  grind

/-! ### The loop -/

/-- A turn of the loop for which there are eight bytes. -/
theorem ucodeLoadPromLoop_succ (h : p + 8 ≤ file.length) :
    ucodeLoadPromLoop (n + 1) loc (file.drop p) prom =
      if hloc : loc.toNat < 512 then
        ucodeLoadPromLoop n (loc + 1) (file.drop (p + 8)) (Function.update prom ⟨loc.toNat, hloc⟩
          (half file p ++ half file (p + 2) ++ half file (p + 4) ++ half file (p + 6)))
      else .error (.subscript loc) := by
  have hread (q : ℕ) (hq : q + 2 ≤ file.length) :
      (Misc.read16le (file.drop q)).mapError PromFault.err =
        .ok (half file q, file.drop (q + 2)) := by
    rw [read16le_drop hq]
    rfl
  simp only [ucodeLoadPromLoop, bind, Except.bind, hread p (by omega), hread (p + 2) (by omega),
    hread (p + 2 + 2) (by omega), hread (p + 2 + 2 + 2) (by omega), or_shiftLeft_eq_append_half]
  rfl

/-- The words that there are are stored, as long as there is a place for them. -/
theorem ucodeLoadPromLoop_eq {s i : ℕ} (hbody : 12 + 8 * (i + n) ≤ file.length)
    (hloc : loc.toNat = s + i) (hin : s + i + n ≤ 512) :
    ucodeLoadPromLoop n loc (file.drop (12 + 8 * i)) prom =
      .ok fun k => if s + i ≤ k ∧ k < s + i + n then instruction file (k - s) else prom k := by
  induction n generalizing i loc prom with
  | zero =>
    rw [ucodeLoadPromLoop]
    congr 1
    funext k
    rw [if_neg (by omega)]
  | succ n ih =>
    have hplace : loc.toNat < 512 := by omega
    have hone : (1 : Word).toNat = 1 := rfl
    have hnext : (loc + 1).toNat = s + (i + 1) := by
      rw [BitVec.toNat_add, hone]
      omega
    have hturn : half file (12 + 8 * i) ++ half file (12 + 8 * i + 2) ++
        half file (12 + 8 * i + 4) ++ half file (12 + 8 * i + 6) =
          instruction file (s + i - s) := by
      rw [Nat.add_sub_cancel_left, instruction]
    rw [ucodeLoadPromLoop_succ (by omega), dif_pos hplace, Nat.add_assoc 12, ← Nat.mul_succ,
      ih (by omega) hnext (by omega), hturn, ← Nat.add_assoc s, Nat.add_right_comm (s + i) 1]
    congr 1
    exact stretch_update prom (fun k => instruction file (k - s)) hloc (by omega)

/-- A word is stored beside the PROM if there is one without a place. -/
theorem ucodeLoadPromLoop_eq_error {i : ℕ} (hbody : 12 + 8 * (i + n) ≤ file.length) (hn : n ≠ 0)
    (hout : 512 < loc.toNat + n) :
    ∃ loc', ucodeLoadPromLoop n loc (file.drop (12 + 8 * i)) prom = .error (.subscript loc') := by
  induction n generalizing i loc prom with
  | zero => exact absurd rfl hn
  | succ n ih =>
    rw [ucodeLoadPromLoop_succ (by omega)]
    by_cases hplace : loc.toNat < 512
    · have hone : (1 : Word).toNat = 1 := rfl
      have hnext : (loc + 1).toNat = loc.toNat + 1 := by
        rw [BitVec.toNat_add, hone]
        omega
      rw [dif_pos hplace, Nat.add_assoc 12, ← Nat.mul_succ]
      exact ih (by omega) (by omega) (by omega)
    · exact ⟨loc, dif_neg hplace⟩

/-! ### The whole file -/

/-- The header is read. -/
theorem ucodeLoadPromFromFile_eq (h : 12 ≤ file.length) :
    ucodeLoadPromFromFile file prom =
      ucodeLoadPromLoop (size file).toNat (start file) (file.drop 12) prom := by
  have hread (q : ℕ) (hq : q + 4 ≤ file.length) :
      (Misc.read32pdp (file.drop q)).mapError PromFault.err =
        .ok (word file q, file.drop (q + 4)) := by
    rw [read32pdp_drop hq]
    rfl
  have hcode := hread 0 (by omega)
  rw [List.drop_zero] at hcode
  simp only [ucodeLoadPromFromFile, bind, Except.bind, hcode, hread (0 + 4) (by omega),
    hread (0 + 4 + 4) (by omega)]
  rfl

/-- A complete file whose words have their places in the PROM is loaded. -/
theorem ucodeLoadPromFromFile_of_complete (h : Complete file)
    (hin : (start file).toNat + (size file).toNat ≤ 512) :
    ucodeLoadPromFromFile file prom = .ok (loaded file prom) := by
  unfold Complete at h
  rw [ucodeLoadPromFromFile_eq (by omega)]
  exact ucodeLoadPromLoop_eq (s := (start file).toNat) (i := 0) (by omega) rfl (by omega)

/-- A complete file with a word that has no place in the PROM overwrites what is beside it. -/
theorem ucodeLoadPromFromFile_of_out (h : Complete file) (hsize : (size file).toNat ≠ 0)
    (hout : 512 < (start file).toNat + (size file).toNat) (prom : Fin 512 → BitVec 64) :
    ∃ loc, ucodeLoadPromFromFile file prom = .error (.subscript loc) := by
  unfold Complete at h
  rw [ucodeLoadPromFromFile_eq (by omega)]
  exact ucodeLoadPromLoop_eq_error (i := 0) (by omega) hsize hout

/-- A complete file without words changes nothing. -/
theorem ucodeLoadPromFromFile_of_size_eq_zero (h : Complete file) (hsize : size file = 0) :
    ucodeLoadPromFromFile file prom = .ok prom := by
  unfold Complete at h
  rw [ucodeLoadPromFromFile_eq (by omega), hsize]
  rfl

/-- A half word takes two bytes. -/
theorem length_of_read16le {fd fd' : List Byte} {w : BitVec 16}
    (h : (Misc.read16le fd).mapError PromFault.err = .ok (w, fd')) :
    fd.length = fd'.length + 2 := by
  match fd, h with
  | [], h => cases h
  | [_], h => cases h
  | _ :: _ :: _, h =>
    cases h
    rfl

/-- A word takes four. -/
theorem length_of_read32pdp {fd fd' : List Byte} {w : Word}
    (h : (Misc.read32pdp fd).mapError PromFault.err = .ok (w, fd')) :
    fd.length = fd'.length + 4 := by
  match fd, h with
  | [], h => cases h
  | [_], h => cases h
  | [_, _], h => cases h
  | [_, _, _], h => cases h
  | _ :: _ :: _ :: _ :: _, h =>
    cases h
    rfl

/-- The loop returns only if there are all words. -/
theorem le_length_of_loop {fd : List Byte} {prom' : Fin 512 → BitVec 64}
    (h : ucodeLoadPromLoop n loc fd prom = .ok prom') : 8 * n ≤ fd.length := by
  induction n generalizing loc fd prom with
  | zero => exact Nat.zero_le _
  | succ n ih =>
    rw [ucodeLoadPromLoop] at h
    obtain ⟨⟨w1, fd1⟩, h1, h⟩ := exists_of_bind_eq_ok h
    obtain ⟨⟨w2, fd2⟩, h2, h⟩ := exists_of_bind_eq_ok h
    obtain ⟨⟨w3, fd3⟩, h3, h⟩ := exists_of_bind_eq_ok h
    obtain ⟨⟨w4, fd4⟩, h4, h⟩ := exists_of_bind_eq_ok h
    have hlength1 := length_of_read16le h1
    have hlength2 := length_of_read16le h2
    have hlength3 := length_of_read16le h3
    have hlength4 := length_of_read16le h4
    dsimp only at h
    by_cases hplace : loc.toNat < 512
    · rw [dif_pos hplace] at h
      have hrest := ih h
      omega
    · rw [dif_neg hplace] at h
      cases h

/-- A file that is shorter than its header announces is not loaded. -/
theorem complete_of_eq_ok {prom' : Fin 512 → BitVec 64}
    (h : ucodeLoadPromFromFile file prom = .ok prom') : Complete file := by
  have hheader : 12 ≤ file.length := by
    obtain ⟨⟨code, fd1⟩, h1, h⟩ := exists_of_bind_eq_ok h
    obtain ⟨⟨start, fd2⟩, h2, h⟩ := exists_of_bind_eq_ok h
    obtain ⟨⟨size, fd3⟩, h3, h⟩ := exists_of_bind_eq_ok h
    have hlength1 := length_of_read32pdp h1
    have hlength2 := length_of_read32pdp h2
    have hlength3 := length_of_read32pdp h3
    omega
  rw [ucodeLoadPromFromFile_eq hheader] at h
  have hbody := le_length_of_loop h
  rw [List.length_drop] at hbody
  unfold Complete
  omega

end PromFile

end Usim
