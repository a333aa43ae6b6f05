import Mathlib.Data.List.DropRight
import Mathlib.Logic.Relation
import Usim.Lib.CText

/-!
# Configuration files

`ini.c`. Each line that `fgets` reads is looked at on its own, with the section and the name that
came before it, and then the handler is called or another file is parsed. What is written or read
outside of a line or an array is a fault.
-/

namespace Usim

open Lib

namespace Ini

/-! ### Characters -/

/-- `;`. -/
def semicolon : Byte := 0x3B

/-- `rstrip`. -/
def rstrip (s : List Byte) : List Byte := s.rdropWhile isSpace

/-- `find_chars_or_comment`: what is before the place that it finds, and what is there. -/
def findCharsOrComment (chars : List Byte) : Bool → List Byte → List Byte × List Byte
  | _, [] => ([], [])
  | wasSpace, c :: s =>
    if c ∈ chars ∨ wasSpace ∧ c = semicolon then ([], c :: s)
    else
      let (before, found) := findCharsOrComment chars (isSpace c) s
      (c :: before, found)

/-- What calls of `fgets` with a buffer of `INI_MAX_LINE` bytes read. `line` is what the call in
progress has read. -/
def readLines (line : List Byte) : List Byte → List (List Byte)
  | [] => if line = [] then [] else [line]
  | b :: bs =>
    if b = newline ∨ line.length = 198 then (line ++ [b]) :: readLines [] bs
    else readLines (line ++ [b]) bs

/-! ### A line -/

/-- What a line asks for. -/
inductive Entry
  /-- A comment, a blank line or the head of a section. -/
  | skip
  /-- A name and a value, or one more line of a value. -/
  | call (sectionName name value : List Byte)
  | includes (filename : List Byte)
  /-- No pair, no head of a section, or an unknown directive. -/
  | bad
  /-- A directive that is longer than `pcmd`. -/
  | overflow
  /-- An argument that is behind the end of the line. -/
  | stale
  deriving DecidableEq, Repr

/-- `section` and `prev_name`. -/
structure Context where
  sectionName : List Byte
  prevName : List Byte
  deriving DecidableEq, Repr

/-- A directive. If white space was stripped, there is a byte behind its end, and it is zero. -/
def directive (stripped : Bool) (s : List Byte) : Entry :=
  let (pcmd, rest) := findCharsOrComment (chars " ") false s
  if 32 < pcmd.length then .overflow
  else if pcmd = chars "include" then
    match rest with
    | [] => if stripped then .includes [] else .stale
    | _ :: fstart => .includes (findCharsOrComment [] false fstart).1
  else .bad

/-- The head of a section, behind `[`. -/
def sectionLine (ctx : Context) (s : List Byte) : Entry × Context :=
  match findCharsOrComment (chars "]") false s with
  | (name, c :: _) => if c = 0x5D then (.skip, ⟨name.take 49, []⟩) else (.bad, ctx)
  | (_, []) => (.bad, ctx)

/-- A name and a value. -/
def pairLine (ctx : Context) (s : List Byte) : Entry × Context :=
  match findCharsOrComment (chars "=:") false s with
  | (name, c :: value) =>
    if c ∈ chars "=:" then
      let value := rstrip (skipSpace (findCharsOrComment [] false value).1)
      (.call ctx.sectionName (rstrip name) value, { ctx with prevName := (rstrip name).take 49 })
    else (.bad, ctx)
  | (_, []) => (.bad, ctx)

/-- The body of the loop of `ini_parse_stream`, without the calls. -/
def parseLine (lineno : ℕ) (ctx : Context) (line : List Byte) : Entry × Context :=
  let s := cString line
  let bom := lineno = 1 && s.take 3 = [0xEF, 0xBB, 0xBF]
  let s := if bom then s.drop 3 else s
  match skipSpace (rstrip s) with
  | [] => (.skip, ctx)
  | c :: rest =>
    if c = semicolon ∨ c = 0x23 then (.skip, ctx)
    else if ctx.prevName ≠ [] ∧ (bom ∨ (c :: rest).length < (rstrip s).length) then
      (.call ctx.sectionName ctx.prevName (c :: rest), ctx)
    else if c = 0x25 then (directive ((rstrip s).length < s.length) rest, ctx)
    else if c = 0x5B then sectionLine ctx rest
    else pairLine ctx (c :: rest)

/-! ### A file -/

/-- What goes wrong. -/
inductive Fault
  | depth | lineno | overflow | stale
  deriving DecidableEq, Repr

/-- The variables of `ini_parse_stream`, with what the handler keeps. -/
structure Stream (σ : Type) where
  lineno : ℕ
  ctx : Context
  error : ℤ
  user : σ

section Parse

variable {σ : Type}

/-- The first line with an error is kept. -/
def Stream.fail (st : Stream σ) : Stream σ :=
  { st with error := if st.error = 0 then st.lineno else st.error }

/-- One turn of the loop of `ini_parse_stream`. `parse` is `ini_parse`. -/
def streamStep (handler : σ → List Byte → List Byte → List Byte → Bool × σ)
    (parse : List Byte → σ → Except Fault (ℤ × σ)) (st : Stream σ) (line : List Byte) :
    Except Fault (Stream σ) := do
  if st.lineno + 1 = 2 ^ 31 then throw .lineno
  let (entry, ctx) := parseLine (st.lineno + 1) st.ctx line
  let st := { st with lineno := st.lineno + 1, ctx := ctx }
  match entry with
  | .skip => return st
  | .call sectionName name value =>
    let (accepted, user) := handler st.user sectionName name value
    let st := { st with user := user }
    return if accepted then st else st.fail
  | .includes filename =>
    let (error2, user) ← parse filename st.user
    let st := { st with user := user }
    return if error2 < 0 then st.fail else st
  | .bad => return st.fail
  | .overflow => throw .overflow
  | .stale => throw .stale

/-- `ini_parse_stream`. -/
def parseStream (handler : σ → List Byte → List Byte → List Byte → Bool × σ)
    (parse : List Byte → σ → Except Fault (ℤ × σ)) (lines : List (List Byte)) (user : σ) :
    Except Fault (ℤ × σ) := do
  let st ← lines.foldlM (streamStep handler parse) ⟨0, ⟨[], []⟩, 0, user⟩
  return (st.error, st.user)

/-- `ini_parse`, with files that include each other at most `depth` times. -/
def iniParse (files : List Byte → Option (List Byte))
    (handler : σ → List Byte → List Byte → List Byte → Bool × σ) :
    ℕ → List Byte → σ → Except Fault (ℤ × σ)
  | 0, _, _ => .error .depth
  | depth + 1, filename, user =>
    match files filename with
    | none => .ok (-1, user)
    | some file => parseStream handler (iniParse files handler depth) (readLines [] file) user

end Parse

/-! ### What the lines of a file ask for -/

/-- What each line asks for. -/
def entriesFrom : ℕ → Context → List (List Byte) → List Entry
  | _, _, [] => []
  | lineno, ctx, line :: lines =>
    (parseLine (lineno + 1) ctx line).1 ::
      entriesFrom (lineno + 1) (parseLine (lineno + 1) ctx line).2 lines

/-- What the lines of a file ask for. -/
def entries (file : List Byte) : List Entry := entriesFrom 0 ⟨[], []⟩ (readLines [] file)

/-- One file includes another. -/
def Includes (files : List Byte → Option (List Byte)) (f g : List Byte) : Prop :=
  ∃ file, files f = some file ∧ .includes g ∈ entries file

end Ini

end Usim
