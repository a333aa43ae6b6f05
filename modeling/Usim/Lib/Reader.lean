import Usim.Lib.Bytes

/-!
# Readers of byte strings

A reader takes bytes from the front of a string, or fails. It is compared with a writer, which
says what the bytes of a value are.
-/

namespace Lib

/-- A reader of values. -/
abbrev Reader (α : Type) := StateT (List Byte) Option α

namespace Reader

variable {α β : Type} {r : Reader α} {write : α → List Byte} {bytes rest : List Byte}

/-- The next byte. -/
def byte : Reader Byte := fun bytes =>
  match bytes with
  | [] => none
  | b :: rest => some (b, rest)

/-- The next two bytes, the low one first. -/
def halfWord : Reader (BitVec 16) := fun bytes =>
  match bytes with
  | b₀ :: b₁ :: rest => some (b₁ ++ b₀, rest)
  | _ => none

/-- The next bytes, as many as there are up to a number. -/
def upTo (count : ℕ) : Reader (List Byte) := fun bytes => some (bytes.take count, bytes.drop count)

/-- The reader takes just what was written. -/
def Inverts (r : Reader α) (write : α → List Byte) : Prop :=
  ∀ bytes a rest, r bytes = some (a, rest) ↔ bytes = write a ++ rest

/-- The next byte is read. -/
theorem inverts_byte : Inverts byte fun b => [b] := by
  intro bytes b rest
  cases bytes with
  | nil => exact iff_of_false (fun h => nomatch h) fun h => nomatch h
  | cons b' rest' =>
    rw [List.singleton_append, List.cons.injEq, byte, Option.some.injEq, Prod.mk.injEq]

/-- The next two bytes are read. -/
theorem inverts_halfWord : Inverts halfWord le16 := by
  intro bytes w rest
  constructor
  · intro h
    match bytes, h with
    | b₀ :: b₁ :: rest', h =>
      cases h
      rw [le16_append]
      rfl
  · rintro rfl
    exact congrArg (fun w => some (w, rest)) (append_le16 w)

/-- A reader that is followed by others. -/
theorem Inverts.bind_eq_some (h : r.Inverts write) {f : α → Reader β} {x : β × List Byte} :
    (r >>= f) bytes = some x ↔ ∃ a rest, bytes = write a ++ rest ∧ f a rest = some x := by
  have hbind : (r >>= f) bytes = (r bytes).bind fun p => f p.1 p.2 := rfl
  rw [hbind, Option.bind_eq_some_iff]
  constructor
  · rintro ⟨⟨a, rest⟩, hr, hf⟩
    exact ⟨a, rest, (h bytes a rest).mp hr, hf⟩
  · rintro ⟨a, rest, hwrite, hf⟩
    exact ⟨(a, rest), (h bytes a rest).mpr hwrite, hf⟩

/-- Two bytes are some half word. -/
theorem exists_le16 {n : ℕ} (h : n + 2 ≤ bytes.length) :
    ∃ w rest, bytes = le16 w ++ rest ∧ n ≤ rest.length := by
  match bytes, h with
  | b₀ :: b₁ :: rest, h =>
    refine ⟨b₁ ++ b₀, rest, ?_, Nat.le_of_add_le_add_right h⟩
    rw [le16_append]
    rfl

end Reader

end Lib
