import Mathlib.Data.List.DropRight
import Usim.Lib.Dictionary

/-!
# The parser of configuration files

`ConfigParser.cs`: what `Load` makes of a text and what `Save` writes. Texts are compared
character by character. `upper` is the case mapping of `StringComparer.OrdinalIgnoreCase`.
-/

namespace Usim

open Lib

namespace SharpConfig

/-- A string. -/
abbrev Text := List Char

/-! ### Strings -/

/-- `Char.IsWhiteSpace`. -/
def isWhiteSpace (c : Char) : Bool :=
  let n := c.toNat
  (0x09 ≤ n && n ≤ 0x0D) || n = 0x20 || n = 0x85 || n = 0xA0 || n = 0x1680 ||
    (0x2000 ≤ n && n ≤ 0x200A) || n = 0x2028 || n = 0x2029 || n = 0x202F || n = 0x205F || n = 0x3000

/-- `Trim`. -/
def trim (t : Text) : Text := (t.dropWhile isWhiteSpace).rdropWhile isWhiteSpace

/-- `Substring(1, Length - 2)`, which throws if there are fewer than two characters. -/
def inner (t : Text) : Option Text := if t.length < 2 then none else some (t.drop 1).dropLast

/-- `StartsWith` and `EndsWith` for one character each. -/
def enclosed (first last : Char) (t : Text) : Prop := t.head? = some first ∧ t.getLast? = some last

instance (first last : Char) (t : Text) : Decidable (enclosed first last t) :=
  inferInstanceAs (Decidable (_ ∧ _))

/-- `File.ReadAllLines`. `line` is what has been read of a line. -/
def readAllLines (line : Text) : Text → List Text
  | [] => if line = [] then [] else [line]
  | '\n' :: t => line :: readAllLines [] t
  | '\r' :: '\n' :: t => line :: readAllLines [] t
  | '\r' :: t => line :: readAllLines [] t
  | c :: t => readAllLines (line ++ [c]) t

/-! ### Load -/

/-- What a line is for. -/
inductive Line
  /-- Nothing, a comment, or a line without `=`. -/
  | skip
  | head (sectionName : Text)
  | pair (key value : Text)
  /-- An exception is thrown. -/
  | malformed
  deriving DecidableEq, Repr

/-- A value without its quotes, if it has some. -/
def unquote (value : Text) : Option Text :=
  if enclosed '"' '"' value then inner value else some value

/-- A line that is split at its first `=`. -/
def parsePair (trimmed : Text) : Line :=
  match trimmed.span (· ≠ '=') with
  | (_, []) => .skip
  | (key, _ :: value) =>
    match unquote (trim value) with
    | none => .malformed
    | some value => .pair (trim key) value

/-- The body of the loop of `Load`, without the assignments. -/
def parseLine (line : Text) : Line :=
  let trimmed := trim line
  if trimmed.all isWhiteSpace ∨ trimmed.head? = some '#' ∨ trimmed.head? = some ';' then .skip
  else if enclosed '[' ']' trimmed then
    match inner trimmed with
    | none => .malformed
    | some name => .head (trim name)
  else parsePair trimmed

section Load

variable (upper : Char → Char)

/-- A section or a dictionary of sections. -/
abbrev Table (V : Type) := Dictionary (List.map upper) V

/-- `_sections`. -/
abbrev Sections := Table upper (Table upper Text)

/-- `currentSection` and `_sections`. -/
structure Loading where
  currentSection : Text
  sections : Sections upper

variable {upper}

/-- A section is made unless it is there. -/
def addSection (sections : Sections upper) (name : Text) : Sections upper :=
  if (sections.find name).isSome then sections else sections.assign name .empty

/-- The assignments for a line. A section that is not there is an exception. -/
def Loading.apply (st : Loading upper) : Line → Option (Loading upper)
  | .skip => some st
  | .head name => some ⟨name, addSection st.sections name⟩
  | .pair key value =>
    match st.sections.find st.currentSection with
    | none => none
    | some table =>
      some { st with sections := st.sections.assign st.currentSection (table.assign key value) }
  | .malformed => none

/-- The loop of `Load`. After an exception the rest is not read. -/
def loadLines : List Text → Loading upper → Bool × Sections upper
  | [], st => (true, st.sections)
  | line :: lines, st =>
    match st.apply (parseLine line) with
    | none => (false, st.sections)
    | some st => loadLines lines st

/-- The section that pairs before any head belong to. -/
def general : Text := "General".toList

/-- `Load` of a file that exists. -/
def load (sections : Sections upper) (file : Text) : Bool × Sections upper :=
  loadLines (readAllLines [] file) ⟨general, addSection sections general⟩

/-! ### Save -/

/-- The lines for a section. -/
def sectionLines (name : Text) (table : Table upper Text) : List Text :=
  ('[' :: name ++ [']']) :: table.entries.map (fun e => e.1 ++ [' ', '=', ' '] ++ e.2) ++ [[]]

/-- `Save`. -/
def save (sections : Sections upper) : Text :=
  (sections.entries.flatMap fun e => sectionLines e.1 e.2).flatMap (· ++ ['\n'])

/-! ### What is read back -/

/-- The value of a key in a section. -/
def lookup (sections : Sections upper) (name key : Text) : Option Text :=
  (sections.find name).bind fun table => table.find key

/-- The same sections, keys and values. -/
structure Same (p q : Sections upper) : Prop where
  sections : ∀ name, (p.find name).isSome = (q.find name).isSome
  values : ∀ name key, lookup p name key = lookup q name key

/-- What a file gives comes back when it has been saved. -/
def RoundTrips (upper : Char → Char) (file : Text) : Prop :=
  ∀ sections : Sections upper, load .empty file = (true, sections) →
    ∃ sections' : Sections upper, load .empty (save sections) = (true, sections') ∧
      Same sections sections'

/-- A value that is not trimmed or unquoted once more, on a line that is no head of a section. -/
structure Stable (key value : Text) : Prop where
  trimmed : trim value = value
  unquoted : ¬enclosed '"' '"' value
  pair : ¬(key.head? = some '[' ∧ value.getLast? = some ']')

/-- All values that a file gives are stable. -/
def StableFile (upper : Char → Char) (file : Text) : Prop :=
  ∀ sections : Sections upper, load .empty file = (true, sections) →
    ∀ e ∈ sections.entries, ∀ kv ∈ e.2.entries, Stable kv.1 kv.2

end Load

end SharpConfig

end Usim
