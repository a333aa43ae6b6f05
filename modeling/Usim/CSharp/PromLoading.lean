import Usim.CSharp.PowerOn
import Usim.PromFile

/-!
# The two loaders of the PROM

`LoadPromFromFile` of `UCode.cs` beside `ucode_load_prom_from_file`: where they store words, what
they do with a file that is too short, and what they load.
-/

namespace Usim

open Lib

/-- `LoadPromFromFile`, on `Prom` and `PromEnabledFlag`. It always returns. -/
def UCode.loadPromFromFile (file : List Byte) (prom : Fin 512 → BitVec 64) :
    Except PromFault ((Fin 512 → BitVec 64) × Bool) :=
  .ok (Usim.loadPromFromFile file prom, true)

namespace PromFile

/-- What is asked of the two loaders for a file: no word is stored beside the PROM, a file that is
too short is rejected, and one whose words have their places is loaded. The port stores a word only
if it has a place. -/
structure LoadsProm (file : List Byte) : Prop where
  inside : ∀ prom loc, ucodeLoadPromFromFile file prom ≠ .error (.subscript loc)
  short : ¬Complete file → ∀ prom, (∃ call, ucodeLoadPromFromFile file prom = .error (.err call)) ∧
    ∃ fault, UCode.loadPromFromFile file prom = .error fault
  loads : Complete file → (start file).toNat + (size file).toNat ≤ 512 → ∀ prom,
    ucodeLoadPromFromFile file prom = .ok (loaded file prom) ∧
      UCode.loadPromFromFile file prom = .ok (loaded file prom, true)

variable {file : List Byte} {p n : ℕ} {prom : Fin 512 → BitVec 64}

/-! ### The loader of the port -/

/-- A byte keeps its bits. -/
theorem setWidth_and_0xFF (b : Byte) : (b.setWidth 32 : Word) &&& 0xFF = b.setWidth 32 := by
  have hlow : (b.setWidth 32 : Word) &&& 0xFF = ((b.setWidth 32).setWidth 8).setWidth 32 :=
    and_lowBits _ 0xFF rfl
  rw [hlow, BitVec.setWidth_setWidth_of_le b (by decide), BitVec.setWidth_eq]

/-- A half word that is read. -/
theorem readU16Le_drop (h : p + 2 ≤ file.length) :
    readU16Le (file.drop p) = ((half file p).setWidth 64, file.drop (p + 2)) := by
  have hword (b1 b0 : Byte) : ((b1.setWidth 32 <<< 8 ||| b0.setWidth 32 : Word)).setWidth 64 =
      (b1 ++ b0 : BitVec 16).setWidth 64 := by
    apply BitVec.eq_of_getLsbD_eq
    intro i hi
    simp only [BitVec.getLsbD_or, BitVec.getLsbD_shiftLeft, BitVec.getLsbD_setWidth,
      BitVec.getLsbD_append]
    grind
  rw [drop_eq_cons (by omega), drop_eq_cons (by omega)]
  simp only [readU16Le, readStreamByte, setWidth_and_0xFF, hword]
  rfl

/-- A word that is read. -/
theorem readU32Pdp_drop (h : p + 4 ≤ file.length) :
    readU32Pdp (file.drop p) = (word file p, file.drop (p + 4)) := by
  have hword (b1 b0 b3 b2 : Byte) : (b1.setWidth 32 <<< 24) ||| (b0.setWidth 32 <<< 16) |||
      (b3.setWidth 32 <<< 8) ||| b2.setWidth 32 = b1 ++ b0 ++ (b3 ++ b2) := by
    rw [append_append_append, ← or_shiftLeft_eq_append, BitVec.shiftLeft_zero]
  rw [drop_eq_cons (by omega), drop_eq_cons (by omega), drop_eq_cons (by omega),
    drop_eq_cons (by omega)]
  simp only [readU32Pdp, readStreamByte, setWidth_and_0xFF, hword]
  rfl

/-- A turn of the loop for which there are eight bytes. -/
theorem loadPromWords_succ {s i : Word} (h : p + 8 ≤ file.length) :
    loadPromWords s (n + 1) i (file.drop p) prom =
      loadPromWords s n (i + 1) (file.drop (p + 8))
        (if hloc : (s + i).toNat < 512 then
          Function.update prom ⟨(s + i).toNat, hloc⟩
            (half file p ++ half file (p + 2) ++ half file (p + 4) ++ half file (p + 6))
        else prom) := by
  have henough : ¬(file.drop p).length < 8 := by
    rw [List.length_drop]
    omega
  have hword := or_shiftLeft_eq_append_half (half file p) (half file (p + 2)) (half file (p + 4))
    (half file (p + 6))
  rw [BitVec.shiftLeft_zero] at hword
  have hread (q : ℕ) (hq : q + 2 ≤ file.length) :
      readU16Le (file.drop q) = ((half file q).setWidth 64, file.drop (q + 2)) := readU16Le_drop hq
  rw [loadPromWords, if_neg henough]
  simp only [hread p (by omega), hread (p + 2) (by omega), hread (p + 2 + 2) (by omega),
    hread (p + 2 + 2 + 2) (by omega)]
  rw [← hword]

/-- The words that there are are stored, as long as there is a place for them. -/
theorem loadPromWords_eq {s i : Word} (hbody : 12 + 8 * (i.toNat + n) ≤ file.length)
    (hin : s.toNat + i.toNat + n ≤ 512) :
    loadPromWords s n i (file.drop (12 + 8 * i.toNat)) prom = fun k : Fin 512 =>
      if s.toNat + i.toNat ≤ k ∧ k < s.toNat + i.toNat + n then instruction file (k - s.toNat)
      else prom k := by
  induction n generalizing i prom with
  | zero =>
    rw [loadPromWords]
    funext k
    rw [if_neg (by omega)]
  | succ n ih =>
    have hplace : (s + i).toNat < 512 := by
      rw [BitVec.toNat_add]
      omega
    have hloc : (s + i).toNat = s.toNat + i.toNat := by
      rw [BitVec.toNat_add]
      omega
    have hone : (1 : Word).toNat = 1 := rfl
    have hnext : (i + 1).toNat = i.toNat + 1 := by
      rw [BitVec.toNat_add, hone]
      omega
    have hrest : file.drop (12 + 8 * i.toNat + 8) = file.drop (12 + 8 * (i + 1).toNat) := by
      rw [hnext]
      rfl
    have hturn : half file (12 + 8 * i.toNat) ++ half file (12 + 8 * i.toNat + 2) ++
        half file (12 + 8 * i.toNat + 4) ++ half file (12 + 8 * i.toNat + 6) =
          instruction file (s.toNat + i.toNat - s.toNat) := by
      rw [Nat.add_sub_cancel_left, instruction]
    rw [loadPromWords_succ (by omega), dif_pos hplace, hrest, ih (by omega) (by omega), hnext,
      hturn, ← Nat.add_assoc s.toNat, Nat.add_right_comm (s.toNat + i.toNat) 1]
    exact stretch_update prom (fun k => instruction file (k - s.toNat)) hloc (by omega)

/-- The port loads a complete file whose words have their places. -/
theorem loadPromFromFile_of_complete (h : Complete file)
    (hin : (start file).toNat + (size file).toNat ≤ 512) :
    UCode.loadPromFromFile file prom = .ok (loaded file prom, true) := by
  unfold Complete at h
  have hread (q : ℕ) (hq : q + 4 ≤ file.length) :
      readU32Pdp (file.drop q) = (word file q, file.drop (q + 4)) := readU32Pdp_drop hq
  have hcode := hread 0 (by omega)
  rw [List.drop_zero] at hcode
  have hzero : (0 : Word).toNat = 0 := rfl
  have hloop : loadPromWords (start file) (size file).toNat 0
      (file.drop (12 + 8 * (0 : Word).toNat)) prom = loaded file prom :=
    loadPromWords_eq (s := start file) (i := 0) (n := (size file).toNat) (by omega) (by omega)
  rw [UCode.loadPromFromFile, Usim.loadPromFromFile]
  simp only [hcode, hread (0 + 4) (by omega), hread (0 + 4 + 4) (by omega)]
  exact congrArg (fun prom => Except.ok (prom, true)) hloop

/-- The loaders do what is asked of them for the files that have all their words and no word
without a place. -/
theorem loadsProm_iff (file : List Byte) :
    LoadsProm file ↔
      Complete file ∧ (size file = 0 ∨ (start file).toNat + (size file).toNat ≤ 512) := by
  constructor
  · intro h
    have hcomplete : Complete file := by
      by_contra hshort
      obtain ⟨-, fault, hrejected⟩ := h.short hshort fun _ => 0
      cases hrejected
    refine ⟨hcomplete, ?_⟩
    by_contra hout
    rw [not_or] at hout
    have hsize : (size file).toNat ≠ 0 := fun hzero => hout.1 (BitVec.eq_of_toNat_eq hzero)
    obtain ⟨loc, hfault⟩ := ucodeLoadPromFromFile_of_out hcomplete hsize (by omega) fun _ => 0
    exact h.inside _ loc hfault
  · rintro ⟨hcomplete, hplaces⟩
    refine ⟨fun prom loc hfault => ?_, fun hshort => absurd hcomplete hshort, fun _ hin prom =>
      ⟨ucodeLoadPromFromFile_of_complete hcomplete hin,
        loadPromFromFile_of_complete hcomplete hin⟩⟩
    rcases hplaces with hsize | hin
    · rw [ucodeLoadPromFromFile_of_size_eq_zero hcomplete hsize] at hfault
      cases hfault
    · rw [ucodeLoadPromFromFile_of_complete hcomplete hin] at hfault
      cases hfault

/-- A header that announces a word, and no word. -/
theorem not_loadsProm : ¬LoadsProm [0, 0, 1, 0, 0, 0, 0, 0, 0, 0, 1, 0] := by
  intro h
  obtain ⟨-, fault, hrejected⟩ := h.short (by decide) fun _ => 0
  cases hrejected

end PromFile

end Usim
