import Usim.Lib.Segments

/-!
# The bytes of a file

A file is a list of bytes. A write replaces the bytes from a position on, and what stands on a
part of a medium is a list of bytes, too.
-/

namespace Lib

/-- A write at a position of a file. A gap in front of the bytes is filled with zeros. -/
def overwrite (file : List Byte) (pos : ℕ) (bs : List Byte) : List Byte :=
  file.take pos ++ List.replicate (pos - file.length) 0 ++ bs ++ file.drop (pos + bs.length)

/-- The bytes of a medium from a position on. -/
def slice (mm : Medium) (pos n : ℕ) : List Byte := (List.range n).map fun k => mm (pos + k)

/-- A file as a medium. -/
def fileMedium (file : List Byte) : Medium := fun p => file.getD p 0

variable {file bs : List Byte} {mm mm' : Medium} {pos n : ℕ}

/-! ### Writes -/

/-- A write within a file keeps its length. -/
theorem length_overwrite (h : pos + bs.length ≤ file.length) :
    (overwrite file pos bs).length = file.length := by
  simp only [overwrite, List.length_append, List.length_take, List.length_replicate,
    List.length_drop]
  omega

/-- What is in a file behind a write. -/
theorem getElem?_overwrite (h : pos + bs.length ≤ file.length) (p : ℕ) :
    (overwrite file pos bs)[p]? =
      if pos ≤ p ∧ p < pos + bs.length then bs[p - pos]? else file[p]? := by
  have hnogap : pos - file.length = 0 := by omega
  have hpos : (file.take pos).length = pos := by
    rw [List.length_take]
    omega
  rw [overwrite, hnogap, List.replicate_zero, List.append_nil, List.append_assoc]
  by_cases hfront : p < pos
  · rw [List.getElem?_append_left (by omega), List.getElem?_take, if_pos hfront,
      if_neg (by omega)]
  rw [List.getElem?_append_right (by omega), hpos]
  by_cases hinside : p < pos + bs.length
  · rw [List.getElem?_append_left (by omega), if_pos ⟨by omega, hinside⟩]
  · rw [List.getElem?_append_right (by omega), List.getElem?_drop, if_neg (by omega)]
    congr 1
    omega

/-- The bytes that are written are there. -/
theorem getElem?_overwrite_add (h : pos + bs.length ≤ file.length) (hn : n < bs.length) :
    (overwrite file pos bs)[pos + n]? = bs[n]? := by
  rw [getElem?_overwrite h, if_pos ⟨by omega, by omega⟩, Nat.add_sub_cancel_left]

/-- The other bytes stay. -/
theorem getElem?_overwrite_of_notMem (h : pos + bs.length ≤ file.length)
    (hn : n < pos ∨ pos + bs.length ≤ n) : (overwrite file pos bs)[n]? = file[n]? := by
  rw [getElem?_overwrite h, if_neg (by omega)]

/-- Nothing is written. -/
theorem overwrite_nil (h : pos ≤ file.length) : overwrite file pos [] = file := by
  apply List.ext_getElem?
  intro p
  rw [getElem?_overwrite_of_notMem (by simpa using h)]
  simp only [List.length_nil]
  omega

/-- Two writes, one behind the other. -/
theorem overwrite_overwrite {bs' : List Byte} (h : pos + bs.length + bs'.length ≤ file.length) :
    overwrite (overwrite file pos bs) (pos + bs.length) bs' = overwrite file pos (bs ++ bs') := by
  have hfirst : pos + bs.length ≤ file.length := by omega
  have hboth : pos + (bs ++ bs').length ≤ file.length := by
    rw [List.length_append]
    omega
  have hsecond : pos + bs.length + bs'.length ≤ (overwrite file pos bs).length := by
    rw [length_overwrite hfirst]
    exact h
  apply List.ext_getElem?
  intro p
  rw [getElem?_overwrite hsecond, getElem?_overwrite hfirst, getElem?_overwrite hboth,
    List.length_append]
  by_cases hfirst' : pos ≤ p ∧ p < pos + bs.length
  · rw [if_neg (by omega), if_pos hfirst', if_pos (by omega), List.getElem?_append_left (by omega)]
  rw [if_neg hfirst']
  by_cases hsecond' : pos + bs.length ≤ p ∧ p < pos + bs.length + bs'.length
  · rw [if_pos hsecond', if_pos (by omega), List.getElem?_append_right (by omega)]
    congr 1
    omega
  · rw [if_neg hsecond', if_neg (by omega)]

/-! ### Parts of a medium -/

@[simp] theorem length_slice (mm : Medium) (pos n : ℕ) : (slice mm pos n).length = n := by
  rw [slice, List.length_map, List.length_range]

theorem getElem?_slice {k : ℕ} (h : k < n) : (slice mm pos n)[k]? = some (mm (pos + k)) := by
  rw [slice, List.getElem?_map, List.getElem?_range h]
  rfl

/-- A part, and the part behind it. -/
theorem slice_append (mm : Medium) (pos n k : ℕ) :
    slice mm pos n ++ slice mm (pos + n) k = slice mm pos (n + k) := by
  rw [slice, slice, slice, List.range_add, List.map_append, List.map_map]
  congr 1
  apply List.map_congr_left
  intro i _
  rw [Function.comp_apply, Nat.add_assoc]

/-- The bytes of a word on a medium. -/
theorem le32_wordAt (mm : Medium) (pos : ℕ) : le32 (wordAt mm pos) = slice mm pos 4 := by
  rw [wordAt, le32_append]
  rfl

/-- The bytes of an array. -/
theorem ofFn_eq_slice (mm : Medium) (pos n : ℕ) :
    (List.ofFn fun k : Fin n => mm (pos + k)) = slice mm pos n := by
  apply List.ext_getElem?
  intro k
  by_cases hk : k < n
  · rw [getElem?_slice hk, List.getElem?_ofFn, dif_pos hk]
  · rw [List.getElem?_eq_none (by rw [List.length_ofFn]; omega),
      List.getElem?_eq_none (by rw [length_slice]; omega)]

/-- The bytes of an array of values that all take as many bytes. -/
theorem flatMap_ofFn_eq_slice {α : Type*} {m : ℕ} (f : Fin m → α) (write : α → List Byte)
    (h : ∀ k, write (f k) = slice mm (pos + n * k) n) :
    (List.ofFn f).flatMap write = slice mm pos (n * m) := by
  induction m with
  | zero => rfl
  | succ m ih =>
    rw [List.ofFn_succ', List.concat_eq_append, List.flatMap_append,
      ih (fun k => f k.castSucc) fun k => h k.castSucc]
    rw [List.flatMap_singleton, h (Fin.last m), Fin.val_last, slice_append, Nat.mul_succ]

/-- The bytes of a file stand on its medium. -/
theorem bytesAt_fileMedium (h : ∀ k < bs.length, file[pos + k]? = bs[k]?) :
    BytesAt (fileMedium file) pos bs := by
  induction bs generalizing pos with
  | nil => trivial
  | cons b bs ih =>
    constructor
    · have hfirst := h 0 (by rw [List.length_cons]; omega)
      rw [Nat.add_zero, List.getElem?_cons_zero] at hfirst
      rw [fileMedium, List.getD_eq_getElem?_getD, hfirst, Option.getD_some]
    · apply ih
      intro k hk
      have hnext := h (k + 1) (by rw [List.length_cons]; omega)
      rwa [List.getElem?_cons_succ, Nat.add_comm k 1, ← Nat.add_assoc] at hnext

/-- The bytes of a value in an array. -/
theorem BytesAt.ofFn {α : Type} {m : ℕ} {f : Fin m → α} {write : α → List Byte}
    (hwrite : ∀ a, (write a).length = n) (h : BytesAt mm pos ((List.ofFn f).flatMap write))
    (k : Fin m) : BytesAt mm (pos + n * k) (write (f k)) := by
  induction m with
  | zero => exact k.elim0
  | succ m ih =>
    rw [List.ofFn_succ', List.concat_eq_append, List.flatMap_append, bytesAt_append,
      length_flatMap_const fun a _ => hwrite a, List.length_ofFn, List.flatMap_singleton] at h
    induction k using Fin.lastCases with
    | last => exact h.2
    | cast k => exact ih h.1 k

/-- A byte in an array. -/
theorem BytesAt.byte {m : ℕ} {f : Fin m → Byte} (h : BytesAt mm pos (List.ofFn f)) (k : Fin m) :
    mm (pos + k) = f k := by
  have hlength : ∀ b : Byte, [b].length = 1 := fun _ => rfl
  rw [← List.flatMap_singleton' (List.ofFn f)] at h
  have hbyte := h.ofFn hlength k
  rw [Nat.one_mul] at hbyte
  exact hbyte.1

/-- A word depends on its four bytes only. -/
theorem wordAt_congr (h : ∀ k < 4, mm (pos + k) = mm' (pos + k)) :
    wordAt mm pos = wordAt mm' pos := by
  unfold wordAt
  rw [h 3 (by decide), h 2 (by decide), h 1 (by decide)]
  congr 1
  exact h 0 (by decide)

end Lib
