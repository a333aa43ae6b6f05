import Mathlib.Data.List.OfFn
import Usim.Lib.Bytes

/-!
# Files of tagged segments

A file open for reading is its bytes and a position in them. A segment is a tag, a
count of words and that many words; a file can consist of segments, one after the
other.
-/

namespace Lib

/-- A file open for reading. -/
structure ReadFile where
  /-- All bytes of the file. -/
  bytes : List Byte
  /-- The position of the next byte. -/
  pos : ℕ

namespace ReadFile

variable {fd : ReadFile} {bs tl : List Byte}

/-- What is still to be read. -/
def rest (fd : ReadFile) : List Byte := fd.bytes.drop fd.pos

/-- The file some bytes further on. -/
def advance (fd : ReadFile) (n : ℕ) : ReadFile := { fd with pos := fd.pos + n }

/-- The next bytes, fewer at the end of the file, and the file behind them. -/
def read (fd : ReadFile) (n : ℕ) : List Byte × ReadFile :=
  (fd.rest.take n, fd.advance (fd.rest.take n).length)

/-- Move by an offset; a position before the first byte is refused. -/
def seekCur (fd : ReadFile) (offset : ℤ) : ReadFile :=
  if 0 ≤ fd.pos + offset then { fd with pos := (fd.pos + offset).toNat } else fd

/-- Move forward. -/
theorem seekCur_natCast (fd : ReadFile) (n : ℕ) : fd.seekCur n = fd.advance n := by
  rw [seekCur, if_pos (by omega)]
  rfl

/-- Two steps forward. -/
@[simp] theorem advance_advance (fd : ReadFile) (n k : ℕ) :
    (fd.advance n).advance k = fd.advance (n + k) := by
  rw [advance, advance, advance, Nat.add_assoc]

/-- What is left further on. -/
theorem rest_advance (fd : ReadFile) (n : ℕ) : (fd.advance n).rest = fd.rest.drop n :=
  List.drop_drop.symm

/-- What is left behind a string. -/
theorem rest_advance_append (h : fd.rest = bs ++ tl) : (fd.advance bs.length).rest = tl := by
  rw [rest_advance, h, List.drop_left]

/-- Reading a string that comes next. -/
theorem read_append (h : fd.rest = bs ++ tl) : fd.read bs.length = (bs, fd.advance bs.length) := by
  rw [read, h, List.take_left]

end ReadFile

/-- A segment: what it is called, how many words its header announces, and its data,
short enough for its length to be a C `int`. -/
structure Segment where
  /-- The tag. -/
  tag : BitVec 32
  /-- The number of words in the header. -/
  size : BitVec 32
  /-- The bytes behind the header. -/
  data : List Byte
  /-- The header announces the words that follow. -/
  length_data : data.length = 4 * size.toNat
  /-- The length is a C `int`. -/
  length_lt : data.length < 2 ^ 31

namespace Segment

/-- The bytes of a segment, its header first. -/
def bytes (g : Segment) : List Byte := le32 g.tag ++ le32 g.size ++ g.data

/-- A segment takes its header and its data. -/
theorem length_bytes (g : Segment) : g.bytes.length = 8 + g.data.length := by
  rw [bytes, List.length_append, List.length_append, length_le32, length_le32]

/-- The length of the data, computed in words of 32 bits with a sign. -/
theorem toInt_size_mul (g : Segment) : (g.size * 4).toInt = g.data.length := by
  have hlength := g.length_data
  have hlt := g.length_lt
  have htoNat : (g.size * 4).toNat = g.data.length := by
    rw [BitVec.toNat_mul, hlength]
    change g.size.toNat * 4 % 2 ^ 32 = _
    omega
  rw [BitVec.toInt_eq_toNat_of_lt (by omega), htoNat]

end Segment

section Blocks

variable {α β : Type*} {f : α → List β} {n : ℕ}

/-- Equally long strings, one after the other. -/
theorem length_flatMap_const {l : List α} (hf : ∀ a ∈ l, (f a).length = n) :
    (l.flatMap f).length = n * l.length := by
  induction l with
  | nil => rfl
  | cons a l ih =>
    rw [List.flatMap_cons, List.length_append, ih fun b hb => hf b (List.mem_cons_of_mem a hb),
      hf a List.mem_cons_self, List.length_cons, Nat.mul_succ, Nat.add_comm]

/-- One of equally long strings is found by its number. -/
theorem take_drop_flatMap (hf : ∀ a, (f a).length = n) {l : List α} {i : ℕ} (hi : i < l.length) :
    ((l.flatMap f).drop (n * i)).take n = f l[i] := by
  induction l generalizing i with
  | nil => exact absurd hi (Nat.not_lt_zero i)
  | cons a l ih =>
    rw [List.flatMap_cons]
    cases i with
    | zero =>
      rw [Nat.mul_zero, List.drop_zero, ← hf a]
      exact List.take_left
    | succ i =>
      rw [Nat.mul_succ, Nat.add_comm, ← List.drop_drop, ← hf a, List.drop_left, hf a]
      exact ih (Nat.lt_of_succ_lt_succ hi)

end Blocks

end Lib
