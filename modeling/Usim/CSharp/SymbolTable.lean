import Usim.Usym

/-!
# Symbol tables of the C# port

`SymbolTable.cs` keeps two dictionaries and is fed with the words of a symbol file, from which
`sym_read_file` makes the calls of `sym_add`.
-/

namespace Usim

open Lib

/-- The first three words of a line. -/
structure SymbolTokens where
  name : List Byte
  type : List Byte
  value : List Byte

/-! ### The words as `usym.c` reads them -/

/-- `sym_typeno`, which ends the program for another section. -/
def symTypeno (n : List Byte) : Option SymType :=
  if n = chars "I-MEM" then some .imem
  else if n = chars "D-MEM" then some .dmem
  else if n = chars "A-MEM" then some .amem
  else if n = chars "M-MEM" then some .mmem
  else if n = chars "NUMBER" then some .number
  else none

/-- `%o` of `sscanf` at digits, for an `unsigned long` of 64 bits. -/
def scanDigits (negative : Bool) (bs : List Byte) : Option Word :=
  let n := digitsNumber 8 bs
  if (bs.takeWhile (digitValue · < 8)).isEmpty then none
  else if 2 ^ 64 ≤ n then some (BitVec.ofNat 32 (2 ^ 64 - 1))
  else some (if negative then -BitVec.ofNat 32 n else BitVec.ofNat 32 n)

/-- `%o` of `sscanf` at a word. -/
def scanOctal (bs : List Byte) : Option Word :=
  if bs.head? = some 0x2D then scanDigits true bs.tail
  else if bs.head? = some 0x2B then scanDigits false bs.tail
  else scanDigits false bs

/-- The words lead to this call of `sym_add`. -/
structure SymbolTokens.Names (tokens : SymbolTokens) (s : Sym) : Prop where
  name : tokens.name = s.name
  mtype : symTypeno tokens.type = some s.mtype
  v : scanOctal tokens.value = some s.v

/-! ### The class -/

/-- `Convert.ToUInt32` with the base 8, which takes no `-` and no other characters. -/
def toUInt32 (bs : List Byte) : Option Word :=
  let digits := if bs.head? = some 0x2B then bs.tail else bs
  if digits.isEmpty ∨ digits.takeWhile (digitValue · < 8) ≠ digits ∨ 2 ^ 32 ≤ digitsNumber 8 digits
  then none
  else some (BitVec.ofNat 32 (digitsNumber 8 digits))

/-- The class `SymbolTable`. -/
structure SharpSymbolTable where
  byTypeAndValue : SymType → Word → Option (List Byte)
  byTypeAndName : SymType → List Byte → Option Word

namespace SharpSymbolTable

/-- The `switch` of `AddSymbolFromTokens`. -/
def symbolType (type : List Byte) : Option SymType :=
  if type = chars "I-MEM" then some .imem
  else if type = chars "D-MEM" then some .dmem
  else if type = chars "A-MEM" then some .amem
  else if type = chars "M-MEM" then some .mmem
  else if type = chars "NUMBER" then some .number
  else none

/-- The value of `AddSymbolFromTokens`. -/
def tokenValue (valueToken : List Byte) : Option Word :=
  if valueToken.head? = some 0x2D then (toUInt32 valueToken.tail).map fun magnitude => -magnitude
  else toUInt32 valueToken

/-- `AddSymbolFromTokens`. It throws where there is nothing. -/
def addSymbolFromTokens (table : SharpSymbolTable) (tokens : SymbolTokens) :
    Option SharpSymbolTable := do
  let type ← symbolType tokens.type
  let value ← tokenValue tokens.value
  return {
    byTypeAndValue := Function.update table.byTypeAndValue type
      (Function.update (table.byTypeAndValue type) value (some tokens.name))
    byTypeAndName := Function.update table.byTypeAndName type
      (Function.update (table.byTypeAndName type) tokens.name (some value)) }

/-- `FindByTypeValue`. -/
def findByTypeValue (table : SharpSymbolTable) (type : SymType) (value : Word) :
    Option (List Byte) :=
  table.byTypeAndValue type value

/-- A table after some lines. -/
def ofTokens (lines : List SymbolTokens) : Option SharpSymbolTable :=
  lines.foldlM addSymbolFromTokens ⟨fun _ _ => none, fun _ _ => none⟩

end SharpSymbolTable

/-! ### The same words -/

/-- A number of 32 bits is read up to the end of its word. -/
theorem scanDigits_eq {bs : List Byte} (hne : ¬bs.isEmpty)
    (hall : bs.takeWhile (digitValue · < 8) = bs) (hlt : digitsNumber 8 bs < 2 ^ 32)
    (negative : Bool) :
    scanDigits negative bs = some (if negative then -BitVec.ofNat 32 (digitsNumber 8 bs)
      else BitVec.ofNat 32 (digitsNumber 8 bs)) := by
  have hsmall : ¬2 ^ 64 ≤ digitsNumber 8 bs := by omega
  simp only [scanDigits, hall, if_neg hne, if_neg hsmall]

/-- What `Convert.ToUInt32` takes. -/
theorem scanDigits_of_toUInt32 {bs : List Byte} {v : Word} (h : toUInt32 bs = some v)
    (negative : Bool) :
    scanDigits negative (if bs.head? = some 0x2B then bs.tail else bs) =
      some (if negative then -v else v) := by
  unfold toUInt32 at h
  generalize (if bs.head? = some 0x2B then bs.tail else bs) = digits at h ⊢
  dsimp only at h
  split at h
  next => cases h
  next hdigits =>
    cases h
    push Not at hdigits
    exact scanDigits_eq (by simpa using hdigits.1) hdigits.2.1 hdigits.2.2 negative

/-- Both read the same number, if both read one. -/
theorem tokenValue_eq {bs : List Byte} {v w : Word}
    (hv : SharpSymbolTable.tokenValue bs = some v) (hw : scanOctal bs = some w) : v = w := by
  unfold SharpSymbolTable.tokenValue at hv
  unfold scanOctal at hw
  by_cases hminus : bs.head? = some 0x2D
  · rw [if_pos hminus] at hv hw
    obtain ⟨magnitude, hmagnitude, rfl⟩ := Option.map_eq_some_iff.mp hv
    have hscan := scanDigits_of_toUInt32 hmagnitude true
    by_cases hplus : bs.tail.head? = some 0x2B
    · -- no digit follows `-+`
      obtain ⟨rest, hrest⟩ : ∃ rest, bs.tail = 0x2B :: rest := by
        cases htail : bs.tail with
        | nil =>
          rw [htail] at hplus
          cases hplus
        | cons b rest =>
          rw [htail] at hplus
          cases hplus
          exact ⟨rest, rfl⟩
      rw [hrest] at hw
      cases hw
    · rw [if_neg hplus, hw] at hscan
      exact (Option.some.inj hscan).symm
  · rw [if_neg hminus] at hv hw
    have hscan := scanDigits_of_toUInt32 hv false
    by_cases hplus : bs.head? = some 0x2B
    · rw [if_pos hplus] at hscan hw
      rw [hw] at hscan
      exact (Option.some.inj hscan).symm
    · rw [if_neg hplus] at hscan hw
      rw [hw] at hscan
      exact (Option.some.inj hscan).symm

/-- A name that is added first is found if no other one is. -/
theorem newest_cons (s : Sym) (calls : List Sym) (memory : SymType) (u : Word) :
    newest (s :: calls) memory u =
      (newest calls memory u).or (if s.Is memory u then some s.name else none) := by
  rw [newest, newest, List.reverse_cons, List.find?_append, Option.map_or]
  congr 1
  by_cases hs : s.Is memory u
  · rw [if_pos hs, List.find?_cons_of_pos (by simpa using hs)]
    rfl
  · rw [if_neg hs, List.find?_cons_of_neg (by simpa using hs)]
    rfl

namespace SharpSymbolTable

variable {tokens : SymbolTokens} {s : Sym} {table table' : SharpSymbolTable}

/-- One line has the name found for its symbol, and changes nothing else. -/
theorem findByTypeValue_add (hnames : tokens.Names s)
    (h : table.addSymbolFromTokens tokens = some table') (memory : SymType) (u : Word) :
    table'.findByTypeValue memory u =
      (if s.Is memory u then some s.name else none).or (table.findByTypeValue memory u) := by
  obtain ⟨type, htype, h⟩ := Option.bind_eq_some_iff.mp h
  obtain ⟨value, hvalue, h⟩ := Option.bind_eq_some_iff.mp h
  cases h
  have hmtype : type = s.mtype := Option.some.inj (htype.symm.trans hnames.mtype)
  have hv : value = s.v := tokenValue_eq hvalue hnames.v
  subst hmtype hv
  change Function.update table.byTypeAndValue s.mtype _ memory u = _
  by_cases hm : memory = s.mtype
  · subst hm
    rw [Function.update_self]
    by_cases hu : u = s.v
    · subst hu
      rw [Function.update_self, if_pos ⟨rfl, rfl⟩, hnames.name]
      rfl
    · rw [Function.update_of_ne hu, if_neg fun h => hu h.2.symm]
      rfl
  · rw [Function.update_of_ne hm, if_neg fun h => hm h.1.symm]
    rfl

/-- The tables after the same calls. -/
theorem findByTypeValue_foldlM {lines : List SymbolTokens} {calls : List Sym}
    (hlines : List.Forall₂ SymbolTokens.Names lines calls)
    (h : lines.foldlM addSymbolFromTokens table = some table') (memory : SymType) (u : Word) :
    table'.findByTypeValue memory u =
      (newest calls memory u).or (table.findByTypeValue memory u) := by
  induction hlines generalizing table with
  | nil =>
    cases h
    rfl
  | cons hnames hlines ih =>
    rw [List.foldlM_cons] at h
    obtain ⟨table₁, htable₁, hrest⟩ := Option.bind_eq_some_iff.mp h
    rw [ih hrest, findByTypeValue_add hnames htable₁, newest_cons, Option.or_assoc]

end SharpSymbolTable

/-- The words for a value are read by both. -/
theorem read_numeral (v : Word) :
    scanOctal (numeral 8 v.toNat) = some v ∧
      SharpSymbolTable.tokenValue (numeral 8 v.toNat) = some v := by
  have hsign (b : Byte) (hb : b.toNat < 0x30) : (numeral 8 v.toNat).head? ≠ some b := by
    intro hhead
    have hdigit := toNat_of_mem_numeral (by decide) (by decide) (List.mem_of_mem_head? hhead)
    omega
  have hminus := hsign 0x2D (by decide)
  have hplus := hsign 0x2B (by decide)
  have hall : (numeral 8 v.toNat).takeWhile (digitValue · < 8) = numeral 8 v.toNat :=
    takeWhile_numeral (by decide) (by decide)
  have hnumber : digitsNumber 8 (numeral 8 v.toNat) = v.toNat :=
    digitsNumber_numeral (by decide) (by decide)
  have hne : ¬(numeral 8 v.toNat).isEmpty := by
    rw [List.isEmpty_iff]
    exact numeral_ne_nil
  have hsmall : ¬2 ^ 32 ≤ v.toNat := Nat.not_le.mpr v.isLt
  constructor
  · rw [scanOctal, if_neg hminus, if_neg hplus, scanDigits_eq hne hall (by omega), hnumber,
      BitVec.ofNat_toNat, BitVec.setWidth_eq]
    rfl
  · rw [SharpSymbolTable.tokenValue, if_neg hminus, toUInt32]
    simp only [if_neg hplus, hall, hnumber, hne, hsmall, ne_eq, not_true, or_false, if_false,
      Bool.false_eq_true, BitVec.ofNat_toNat, BitVec.setWidth_eq]

/-- The text of a type. -/
def SymType.text : SymType → List Byte
  | imem => chars "I-MEM"
  | dmem => chars "D-MEM"
  | amem => chars "A-MEM"
  | mmem => chars "M-MEM"
  | number => chars "NUMBER"

/-- There are words for every sequence of calls, and the class takes them. -/
theorem exists_tokens (calls : List Sym) :
    ∃ lines table, List.Forall₂ SymbolTokens.Names lines calls ∧
      SharpSymbolTable.ofTokens lines = some table := by
  have hfold (table₀ : SharpSymbolTable) :
      ∃ lines table, List.Forall₂ SymbolTokens.Names lines calls ∧
        lines.foldlM SharpSymbolTable.addSymbolFromTokens table₀ = some table := by
    induction calls generalizing table₀ with
    | nil => exact ⟨[], table₀, .nil, rfl⟩
    | cons s calls ih =>
      obtain ⟨hscan, hvalue⟩ := read_numeral s.v
      have htype : symTypeno s.mtype.text = some s.mtype := by
        cases s.mtype <;> decide
      have htype' : SharpSymbolTable.symbolType s.mtype.text = some s.mtype := htype
      obtain ⟨lines, table, hlines, htable⟩ := ih _
      refine ⟨⟨s.name, s.mtype.text, numeral 8 s.v.toNat⟩ :: lines, table,
        .cons ⟨rfl, htype, hscan⟩ hlines, ?_⟩
      rw [List.foldlM_cons, SharpSymbolTable.addSymbolFromTokens, htype', hvalue]
      exact htable
  exact hfold _

/-- The class can be fed with the words for the calls, and then finds at the value of every symbol
the name that `sym_find_by_type_val` finds. -/
def SharpAgrees (calls : List Sym) : Prop :=
  (∃ lines table, List.Forall₂ SymbolTokens.Names lines calls ∧
    SharpSymbolTable.ofTokens lines = some table) ∧
  ∀ lines table, List.Forall₂ SymbolTokens.Names lines calls →
    SharpSymbolTable.ofTokens lines = some table → ∀ s ∈ calls,
      table.findByTypeValue s.mtype s.v =
        ((Symtab.ofCalls calls).symFindByTypeVal s.mtype s.v true).map Prod.fst

theorem sharpAgrees (calls : List Sym) : SharpAgrees calls := by
  refine ⟨exists_tokens calls, fun lines table hlines htable s hs => ?_⟩
  have hgreatest : IsGreatest (valuesUpTo calls s.mtype s.v) s.v :=
    ⟨⟨BitVec.le_refl _, s, hs, rfl, rfl⟩, fun _ hw => hw.1⟩
  rw [Symtab.symFind_of_isGreatest hgreatest, if_pos (Eq.refl s.v),
    SharpSymbolTable.findByTypeValue_foldlM hlines htable, Option.map_map]
  change (newest calls s.mtype s.v).or none = (newest calls s.mtype s.v).map id
  rw [Option.or_none, Option.map_id]
  rfl

/-- The list of symbols is in the order of their values after all calls of `sym_add`. A lookup
finds the name added last for the greatest value that is not above the one it is called with, and
the distance, if and only if that is this value itself or else has one name only and is less
than 2 ^ 31 away. Where the value itself is there the table of the C# port finds the same name. -/
theorem symbol_lookup (calls : List Sym) :
    (Symtab.ofCalls calls).symbols.Pairwise Symtab.Le ∧
      (∀ memory v, FindsNewest calls memory v ↔ Unambiguous calls memory v) ∧
        SharpAgrees calls :=
  ⟨Symtab.pairwise_ofCalls calls, Symtab.findsNewest_iff calls, sharpAgrees calls⟩

/-- Of two names for 0 the one added first is found for 1. -/
theorem not_findsNewest_twoNames :
    ¬FindsNewest [⟨chars "A", 0, .imem⟩, ⟨chars "B", 0, .imem⟩] .imem 1 := by
  intro h
  have hgreatest :
      IsGreatest (valuesUpTo [⟨chars "A", 0, .imem⟩, ⟨chars "B", 0, .imem⟩] .imem 1) 0 := by
    constructor
    · exact ⟨by decide, _, List.mem_cons_self, rfl, rfl⟩
    · rintro w ⟨-, s, hs, -, rfl⟩
      have hzero : ∀ s ∈ [(⟨chars "A", 0, .imem⟩ : Sym), ⟨chars "B", 0, .imem⟩], s.v ≤ 0 := by
        decide
      exact hzero s hs
  obtain ⟨name, offset, hfind, hname, -⟩ := h.found 0 hgreatest
  have hname' : some (chars "B") = some name := hname
  have hfind' : some (chars "A", some 1) = some (name, some offset) := hfind
  rw [← Option.some.inj hname'] at hfind'
  have hne : chars "A" ≠ chars "B" := by decide
  exact hne (congrArg Prod.fst (Option.some.inj hfind'))

end Usim
