import Mathlib.Data.BitVec
import Mathlib.Logic.Function.Basic

/-!
# Strings of bytes on a medium

A medium holds a byte at every position. Strings are found on it and stored one
byte after the other, and a word of four bytes is stored with its low byte first.
-/

namespace Lib

/-- A byte. -/
abbrev Byte := BitVec 8

/-- The bytes at all positions. -/
abbrev Medium := ℕ → Byte

/-- A string stands on the medium from a position on. -/
def BytesAt (mm : Medium) : ℕ → List Byte → Prop
  | _, [] => True
  | pos, b :: bs => mm pos = b ∧ BytesAt mm (pos + 1) bs

/-- The medium with a string stored from a position on. -/
def store (mm : Medium) : ℕ → List Byte → Medium
  | _, [] => mm
  | pos, b :: bs => store (Function.update mm pos b) (pos + 1) bs

/-- The bytes of a word, the low byte first. -/
def le32 (w : BitVec 32) : List Byte :=
  [w.setWidth 8, (w >>> 8).setWidth 8, (w >>> 16).setWidth 8, (w >>> 24).setWidth 8]

/-- The bytes of half a word, the low byte first. -/
def le16 (w : BitVec 16) : List Byte := [w.setWidth 8, (w >>> 8).setWidth 8]

/-- The word at a position. -/
def wordAt (mm : Medium) (pos : ℕ) : BitVec 32 :=
  mm (pos + 3) ++ mm (pos + 2) ++ mm (pos + 1) ++ mm pos

variable {mm mm' : Medium} {pos : ℕ}

/-- A byte put above another. -/
theorem shiftLeft_or_setWidth (v₂ v₁ : Byte) :
    (v₂.setWidth 16 <<< 8) ||| v₁.setWidth 16 = v₂ ++ v₁ := by
  rw [← BitVec.setWidth_append_eq_shiftLeft_setWidth_or, BitVec.setWidth_eq]

/-- The four bytes of a word. -/
@[simp] theorem length_le32 (w : BitVec 32) : (le32 w).length = 4 := rfl

/-- The value of two bit vectors side by side. -/
theorem toNat_append_eq {n k : ℕ} (x : BitVec n) (y : BitVec k) :
    (x ++ y).toNat = x.toNat * 2 ^ k + y.toNat := by
  rw [BitVec.toNat_append, Nat.shiftLeft_eq, Nat.mul_comm, ← Nat.two_pow_add_eq_or_of_lt y.isLt]

/-- Half a word is put together from its bytes. -/
theorem append_le16 (w : BitVec 16) : ((w >>> 8).setWidth 8 ++ w.setWidth 8 : BitVec 16) = w := by
  apply BitVec.eq_of_toNat_eq
  have hw := w.isLt
  simp only [toNat_append_eq, BitVec.toNat_setWidth, BitVec.toNat_ushiftRight,
    Nat.shiftRight_eq_div_pow]
  omega

/-- The bytes of half a word that was put together from two. -/
theorem le16_append (b₁ b₀ : Byte) : le16 (b₁ ++ b₀) = [b₀, b₁] := by
  have h₀ := b₀.isLt
  have h₁ := b₁.isLt
  simp only [le16, List.cons.injEq, ← BitVec.toNat_inj, toNat_append_eq, BitVec.toNat_setWidth,
    BitVec.toNat_ushiftRight, Nat.shiftRight_eq_div_pow, and_true]
  omega

/-- A word is put together from its bytes. -/
theorem append_le32 (w : BitVec 32) :
    ((w >>> 24).setWidth 8 ++ (w >>> 16).setWidth 8 ++ (w >>> 8).setWidth 8 ++ w.setWidth 8 :
      BitVec 32) = w := by
  apply BitVec.eq_of_toNat_eq
  have hw := w.isLt
  simp only [toNat_append_eq, BitVec.toNat_setWidth, BitVec.toNat_ushiftRight,
    Nat.shiftRight_eq_div_pow]
  omega

/-- The bytes of a word that was put together from four. -/
theorem le32_append (b₃ b₂ b₁ b₀ : Byte) : le32 (b₃ ++ b₂ ++ b₁ ++ b₀) = [b₀, b₁, b₂, b₃] := by
  have h₀ := b₀.isLt
  have h₁ := b₁.isLt
  have h₂ := b₂.isLt
  have h₃ := b₃.isLt
  simp only [le32, List.cons.injEq, ← BitVec.toNat_inj, toNat_append_eq, BitVec.toNat_setWidth,
    BitVec.toNat_ushiftRight, Nat.shiftRight_eq_div_pow, and_true]
  omega

/-- Four bytes put together with shifts. -/
theorem or_shiftLeft_eq_append (v₄ v₃ v₂ v₁ : Byte) :
    (v₄.setWidth 32 <<< 24) ||| (v₃.setWidth 32 <<< 16) ||| (v₂.setWidth 32 <<< 8) |||
        (v₁.setWidth 32 <<< 0) = v₄ ++ v₃ ++ v₂ ++ v₁ := by
  apply BitVec.eq_of_getLsbD_eq
  intro i hi
  simp only [BitVec.getLsbD_or, BitVec.getLsbD_shiftLeft, BitVec.getLsbD_setWidth,
    BitVec.getLsbD_append]
  grind

/-- Two pairs of bytes. -/
theorem append_append_append (v₄ v₃ v₂ v₁ : Byte) :
    (v₄ ++ v₃) ++ (v₂ ++ v₁) = v₄ ++ v₃ ++ v₂ ++ v₁ := by
  apply BitVec.eq_of_toNat_eq
  simp only [toNat_append_eq]
  omega

/-- The word that stands at a position. -/
theorem wordAt_of_bytesAt {w : BitVec 32} (h : BytesAt mm pos (le32 w)) : wordAt mm pos = w := by
  obtain ⟨h0, h1, h2, h3, -⟩ := h
  unfold wordAt
  rw [h0, h1, h2, h3]
  exact append_le32 w

/-- Two strings, one after the other. -/
theorem bytesAt_append {bs bs' : List Byte} :
    BytesAt mm pos (bs ++ bs') ↔ BytesAt mm pos bs ∧ BytesAt mm (pos + bs.length) bs' := by
  induction bs generalizing pos with
  | nil => exact (true_and _).symm.to_iff
  | cons b bs ih =>
    rw [List.cons_append, BytesAt, BytesAt, ih, and_assoc, List.length_cons, Nat.add_right_comm,
      Nat.add_assoc]

/-- Storing two strings, one after the other. -/
theorem store_append (bs bs' : List Byte) :
    store mm pos (bs ++ bs') = store (store mm pos bs) (pos + bs.length) bs' := by
  induction bs generalizing mm pos with
  | nil => rfl
  | cons b bs ih =>
    rw [List.cons_append, store, store, ih, List.length_cons, Nat.add_right_comm, Nat.add_assoc]

/-- The bytes outside a stored string stay. -/
theorem store_of_notMem {bs : List Byte} {i : ℕ} (h : i < pos ∨ pos + bs.length ≤ i) :
    store mm pos bs i = mm i := by
  induction bs generalizing mm pos with
  | nil => rfl
  | cons b bs ih =>
    rw [List.length_cons] at h
    rw [store, ih (by omega), Function.update_of_ne (by omega)]

/-- A word behind a stored string stays. -/
theorem wordAt_store {bs : List Byte} {q : ℕ} (h : pos + bs.length ≤ q) :
    wordAt (store mm pos bs) q = wordAt mm q := by
  have hbyte (i : ℕ) (hi : q ≤ i) : store mm pos bs i = mm i :=
    store_of_notMem (Or.inr (h.trans hi))
  unfold wordAt
  rw [hbyte q le_rfl, hbyte (q + 1) (by omega), hbyte (q + 2) (by omega), hbyte (q + 3) (by omega)]

/-- A stored string stands on the medium. -/
theorem bytesAt_store (bs : List Byte) : BytesAt (store mm pos bs) pos bs := by
  induction bs generalizing mm pos with
  | nil => trivial
  | cons b bs ih =>
    refine ⟨?_, ih⟩
    rw [store, store_of_notMem (Or.inl (Nat.lt_succ_self pos)), Function.update_self]

/-- A string still stands on a medium that agrees at its positions. -/
theorem BytesAt.congr {bs : List Byte} (h : BytesAt mm pos bs)
    (hagree : ∀ i, pos ≤ i → i < pos + bs.length → mm' i = mm i) : BytesAt mm' pos bs := by
  induction bs generalizing pos with
  | nil => trivial
  | cons b bs ih =>
    rw [List.length_cons] at hagree
    refine ⟨(hagree pos le_rfl (by omega)).trans h.1, ih h.2 fun i hi hi' => ?_⟩
    exact hagree i (by omega) (by omega)

end Lib
