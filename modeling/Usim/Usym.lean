import Mathlib.Data.List.Sort
import Mathlib.Order.Bounds.Basic
import Mathlib.Data.Set.Finite.Lemmas
import Usim.Lib.CText
import Usim.M32

/-!
# Symbol tables

The list of `usym.c`, which is kept in the order of the values, and the search for the symbol
at a value or below it.
-/

namespace Usim

open Lib

/-- `symtype_t`. -/
inductive SymType
  | imem | dmem | amem | mmem | number
  deriving DecidableEq, Repr

/-- `sym_t`. -/
structure Sym where
  name : List Byte
  v : Word
  mtype : SymType
  deriving DecidableEq

/-- `symtab_t`, without its name. -/
structure Symtab where
  symCount : Word
  symbols : List Sym

namespace Symtab

/-- The loop of `sym_add`: the place of the last symbol with a smaller value. The first symbol of
the list is `i`, and `p` is the place found before it. -/
def lastSmaller (v : Word) : List Sym → ℕ → ℕ → ℕ
  | [], _, p => p
  | ss :: rest, i, p => lastSmaller v rest (i + 1) (if ss.v < v then i else p)

/-- `LIST_INSERT_AFTER`. -/
def insertAfter (p : ℕ) (s : Sym) (symbols : List Sym) : List Sym :=
  symbols.take (p + 1) ++ s :: symbols.drop (p + 1)

/-- `sym_add`. -/
def symAdd (tab : Symtab) (memory : SymType) (name : List Byte) (v : Word) : Symtab :=
  let s : Sym := ⟨name, v, memory⟩
  { symCount := tab.symCount + 1
    symbols :=
      match tab.symbols with
      | [] => [s]
      | p :: rest =>
        if v ≤ p.v then s :: p :: rest
        else insertAfter (lastSmaller v (p :: rest) 0 0) s (p :: rest) }

/-- The end of `sym_find_by_type_val`, with what is stored at `offset` if it is a pointer. -/
def closestResult (v : Word) (offset : Bool) (closest : Option Sym) :
    Option (List Byte × Option Word) :=
  match closest with
  | some closest => if offset then some (closest.name, some (v - closest.v)) else none
  | none => none

/-- The loop of `sym_find_by_type_val`. -/
def findLoop (memory : SymType) (v : Word) (offset : Bool) :
    List Sym → Option Sym → Option (List Byte × Option Word)
  | [], closest => closestResult v offset closest
  | s :: rest, closest =>
    if s.mtype ≠ memory then findLoop memory v offset rest closest
    else if s.v = v then some (s.name, if offset then some 0 else none)
    else if s.v < v then findLoop memory v offset rest (some s)
    else if v < s.v then closestResult v offset closest
    else findLoop memory v offset rest closest

/-- `sym_find_by_type_val`. -/
def symFindByTypeVal (tab : Symtab) (memory : SymType) (v : Word) (offset : Bool) :
    Option (List Byte × Option Word) :=
  findLoop memory v offset tab.symbols none

/-- A table after calls of `sym_add`. -/
def ofCalls (calls : List Sym) : Symtab :=
  calls.foldl (fun tab s => tab.symAdd s.mtype s.name s.v) ⟨0, []⟩

end Symtab

/-! ### What is looked for -/

/-- A symbol has a type and a value. -/
def Sym.Is (memory : SymType) (u : Word) (s : Sym) : Prop := s.mtype = memory ∧ s.v = u

instance (memory : SymType) (u : Word) : DecidablePred (Sym.Is memory u) := fun s =>
  inferInstanceAs (Decidable (s.mtype = memory ∧ s.v = u))

/-- The values of the symbols of a type that are not above `v`. -/
def valuesUpTo (calls : List Sym) (memory : SymType) (v : Word) : Set Word :=
  {u | u ≤ v ∧ ∃ s ∈ calls, s.Is memory u}

/-- The name that was added last. -/
def newest (calls : List Sym) (memory : SymType) (u : Word) : Option (List Byte) :=
  (calls.reverse.find? fun s => s.Is memory u).map Sym.name

/-- The name that was added first. -/
def oldest (calls : List Sym) (memory : SymType) (u : Word) : Option (List Byte) :=
  (calls.find? fun s => s.Is memory u).map Sym.name

/-- The lookup gives the name added last for the greatest value that is not above `v`, with the
distance, or nothing if there is no such value. -/
structure FindsNewest (calls : List Sym) (memory : SymType) (v : Word) : Prop where
  absent : (Symtab.ofCalls calls).symFindByTypeVal memory v true = none ↔
    valuesUpTo calls memory v = ∅
  found : ∀ u, IsGreatest (valuesUpTo calls memory v) u → ∃ name offset,
    (Symtab.ofCalls calls).symFindByTypeVal memory v true = some (name, some offset) ∧
      newest calls memory u = some name ∧ offset.toInt = v.toNat - u.toNat

/-- The greatest value that is not above `v` is `v`, or else the names that were added for it
first and last are the same, and it is less than 2 ^ 31 away. -/
def Unambiguous (calls : List Sym) (memory : SymType) (v : Word) : Prop :=
  ∀ u, IsGreatest (valuesUpTo calls memory v) u →
    u = v ∨ oldest calls memory u = newest calls memory u ∧ (v - u).toNat < 2 ^ 31

/-! ### The order of the list -/

namespace Symtab

/-- The order of the list. -/
def Le (s t : Sym) : Prop := s.v ≤ t.v

instance : DecidableRel Le := fun s t => inferInstanceAs (Decidable (s.v ≤ t.v))

instance : Std.Total Le := ⟨fun s t => BitVec.le_total s.v t.v⟩

instance : IsTrans Sym Le := ⟨fun _ _ _ => BitVec.le_trans⟩

variable {symbols : List Sym} {v : Word} {memory : SymType}

/-- The loop goes to the end of the smaller values. -/
theorem lastSmaller_eq (h : symbols.Pairwise Le) (v : Word) (i p : ℕ) :
    lastSmaller v symbols i p =
      if (symbols.takeWhile (·.v < v)).length = 0 then p
      else i + (symbols.takeWhile (·.v < v)).length - 1 := by
  induction symbols generalizing i p with
  | nil => rfl
  | cons s symbols ih =>
    obtain ⟨hs, hsymbols⟩ := List.pairwise_cons.mp h
    rw [lastSmaller, ih hsymbols]
    by_cases hlt : s.v < v
    · rw [List.takeWhile_cons_of_pos (by simpa using hlt), if_pos hlt, List.length_cons,
        if_neg (Nat.succ_ne_zero _)]
      split
      · omega
      · omega
    · have hnone : symbols.takeWhile (·.v < v) = [] := by
        rw [List.takeWhile_eq_nil_iff]
        intro hpos
        have hfirst := hs _ (List.getElem_mem hpos)
        simpa using BitVec.le_trans (BitVec.not_lt.mp hlt) hfirst
      rw [List.takeWhile_cons_of_neg (by simpa using hlt), if_neg hlt, hnone]
      rfl

/-- A symbol is put before the first one whose value is not smaller. -/
theorem symAdd_symbols (tab : Symtab) (h : tab.symbols.Pairwise Le) (s : Sym) :
    (tab.symAdd s.mtype s.name s.v).symbols = tab.symbols.orderedInsert Le s := by
  unfold symAdd
  cases hsymbols : tab.symbols with
  | nil => rfl
  | cons p rest =>
    rw [hsymbols] at h
    dsimp only
    by_cases hle : s.v ≤ p.v
    · rw [if_pos hle, List.orderedInsert_cons_of_le Le rest hle]
    · have hlt : p.v < s.v := BitVec.not_le.mp hle
      have hwhile : ((p :: rest).takeWhile (·.v < s.v)).length ≠ 0 := by
        rw [List.takeWhile_cons_of_pos (by simpa using hlt)]
        exact Nat.succ_ne_zero _
      have hpred : (fun t : Sym => decide ¬Le s t) = fun t => decide (t.v < s.v) := by
        funext t
        exact decide_eq_decide.mpr BitVec.not_le
      rw [if_neg hle, lastSmaller_eq h, if_neg hwhile, List.orderedInsert_eq_take_drop, hpred]
      have hlength : 0 + ((p :: rest).takeWhile (·.v < s.v)).length - 1 + 1 =
          ((p :: rest).takeWhile (·.v < s.v)).length := by
        omega
      have hall := List.takeWhile_append_dropWhile (p := fun t : Sym => decide (t.v < s.v))
        (l := p :: rest)
      have htake := congrArg (List.take ((p :: rest).takeWhile (·.v < s.v)).length) hall
      have hdrop := congrArg (List.drop ((p :: rest).takeWhile (·.v < s.v)).length) hall
      rw [List.take_left] at htake
      rw [List.drop_left] at hdrop
      rw [insertAfter, hlength, ← htake, ← hdrop]

/-- The list of all symbols that were added. -/
theorem ofCalls_concat (calls : List Sym) (s : Sym) :
    ofCalls (calls ++ [s]) = (ofCalls calls).symAdd s.mtype s.name s.v := by
  rw [ofCalls, List.foldl_append]
  rfl

/-- The list stays in order. -/
theorem pairwise_ofCalls (calls : List Sym) : (ofCalls calls).symbols.Pairwise Le := by
  induction calls using List.reverseRecOn with
  | nil => exact List.Pairwise.nil
  | append_singleton calls s ih =>
    rw [ofCalls_concat, symAdd_symbols _ ih]
    exact ih.orderedInsert s _

/-- Among the symbols of a type and a value a new one is the first. -/
theorem filter_orderedInsert (memory : SymType) (u : Word) (s : Sym) (symbols : List Sym) :
    (symbols.orderedInsert Le s).filter (Sym.Is memory u) =
      [s].filter (Sym.Is memory u) ++ symbols.filter (Sym.Is memory u) := by
  induction symbols with
  | nil => exact (List.append_nil _).symm
  | cons t symbols ih =>
    by_cases hle : Le s t
    · rw [List.orderedInsert_cons_of_le Le symbols hle, ← List.filter_append]
      rfl
    · rw [List.orderedInsert_of_not_le Le symbols hle]
      by_cases ht : t.Is memory u
      · have hs : ¬s.Is memory u := by
          rintro ⟨-, hs⟩
          rw [Le, hs, ht.2] at hle
          exact hle (BitVec.le_refl u)
        rw [List.filter_cons_of_pos (by simpa using ht), ih,
          List.filter_cons_of_neg (by simpa using hs), List.filter_cons_of_pos (by simpa using ht)]
        rfl
      · rw [List.filter_cons_of_neg (by simpa using ht), ih]
        congr 1
        exact (List.filter_cons_of_neg (by simpa using ht)).symm

/-- The symbols of a type and a value are in the list, the last one first. -/
theorem filter_ofCalls (memory : SymType) (u : Word) (calls : List Sym) :
    (ofCalls calls).symbols.filter (Sym.Is memory u) =
      (calls.filter (Sym.Is memory u)).reverse := by
  induction calls using List.reverseRecOn with
  | nil => rfl
  | append_singleton calls s ih =>
    rw [ofCalls_concat, symAdd_symbols _ (pairwise_ofCalls calls), filter_orderedInsert, ih,
      List.filter_append, List.reverse_append]
    by_cases hs : s.Is memory u
    · rw [List.filter_cons_of_pos (by simpa using hs)]
      rfl
    · rw [List.filter_cons_of_neg (by simpa using hs)]
      rfl

/-- The loop finds the first symbol at the value, or else the last one below it. -/
theorem findLoop_eq (h : symbols.Pairwise Le) (offset : Bool) (closest : Option Sym) :
    findLoop memory v offset symbols closest =
      match symbols.find? (Sym.Is memory v) with
      | some s => some (s.name, if offset then some 0 else none)
      | none => closestResult v offset
        ((symbols.filter fun s => s.mtype = memory ∧ s.v < v).getLast?.or closest) := by
  induction symbols generalizing closest with
  | nil => rfl
  | cons s symbols ih =>
    obtain ⟨hs, hsymbols⟩ := List.pairwise_cons.mp h
    rw [findLoop]
    by_cases htype : s.mtype = memory
    · rw [if_neg (not_not.mpr htype)]
      by_cases hexact : s.v = v
      · rw [if_pos hexact, List.find?_cons_of_pos (by simpa using ⟨htype, hexact⟩)]
      · have his : ¬s.Is memory v := fun h => hexact h.2
        rw [if_neg hexact, List.find?_cons_of_neg (by simpa using his)]
        by_cases hlt : s.v < v
        · rw [if_pos hlt, ih hsymbols, List.filter_cons_of_pos (by simpa using ⟨htype, hlt⟩),
            List.getLast?_cons]
          cases (symbols.filter fun s => s.mtype = memory ∧ s.v < v).getLast? with
          | none => rfl
          | some last => rfl
        · -- what is behind a symbol above `v` is above it, too
          have hgt : v < s.v := BitVec.lt_of_le_ne (BitVec.not_lt.mp hlt) (Ne.symm hexact)
          have habove (t : Sym) (ht : t ∈ s :: symbols) : v < t.v := by
            obtain rfl | ht := List.mem_cons.mp ht
            · exact hgt
            · exact Std.lt_of_lt_of_le hgt (hs t ht)
          have hfind : symbols.find? (Sym.Is memory v) = none := by
            rw [List.find?_eq_none]
            intro t ht his
            have ht' := habove t (List.mem_cons_of_mem s ht)
            rw [(of_decide_eq_true his).2] at ht'
            exact absurd ht' (BitVec.lt_irrefl v)
          have hfilter : (s :: symbols).filter (fun s => s.mtype = memory ∧ s.v < v) = [] := by
            rw [List.filter_eq_nil_iff]
            intro t ht hbelow
            exact BitVec.lt_asymm (habove t ht) (of_decide_eq_true hbelow).2
          rw [if_neg hlt, if_pos hgt, hfind, hfilter]
          rfl
    · have his : ¬s.Is memory v := fun h => htype h.1
      rw [if_pos htype, ih hsymbols, List.find?_cons_of_neg (by simpa using his),
        List.filter_cons_of_neg (by simp [htype])]

/-! ### What is found -/

variable {calls : List Sym} {u : Word}

/-- The list has what was added. -/
theorem mem_ofCalls {s : Sym} : s ∈ (ofCalls calls).symbols ↔ s ∈ calls := by
  have hmem : s ∈ (ofCalls calls).symbols.filter (Sym.Is s.mtype s.v) ↔
      s ∈ (calls.filter (Sym.Is s.mtype s.v)).reverse := by
    rw [filter_ofCalls]
  have his : decide (s.Is s.mtype s.v) = true := decide_eq_true ⟨rfl, rfl⟩
  rwa [List.mem_reverse, List.mem_filter, List.mem_filter, and_iff_left his,
    and_iff_left his] at hmem

/-- The name added last is the first one in the list. -/
theorem newest_eq (calls : List Sym) (memory : SymType) (u : Word) :
    newest calls memory u =
      ((ofCalls calls).symbols.find? (Sym.Is memory u)).map Sym.name := by
  rw [newest, ← List.head?_filter, ← List.head?_filter, List.filter_reverse, filter_ofCalls]

/-- The name added first is the last one in the list. -/
theorem oldest_eq (calls : List Sym) (memory : SymType) (u : Word) :
    oldest calls memory u =
      ((ofCalls calls).symbols.filter (Sym.Is memory u)).getLast?.map Sym.name := by
  rw [oldest, ← List.head?_filter, filter_ofCalls, List.getLast?_reverse]

/-- The last symbol below `v` is the last one of the greatest value below it. -/
theorem getLast?_below (h : IsGreatest (valuesUpTo calls memory v) u) (hne : u ≠ v) :
    ((ofCalls calls).symbols.filter fun s => s.mtype = memory ∧ s.v < v).getLast? =
      ((ofCalls calls).symbols.filter (Sym.Is memory u)).getLast? := by
  obtain ⟨⟨hle, t, ht, hmemory, rfl⟩, hupper⟩ := h
  have hlt : t.v < v := BitVec.lt_of_le_ne hle hne
  have hbelow : t ∈ (ofCalls calls).symbols.filter fun s => s.mtype = memory ∧ s.v < v :=
    List.mem_filter.mpr ⟨mem_ofCalls.mpr ht, decide_eq_true ⟨hmemory, hlt⟩⟩
  have hinner : (ofCalls calls).symbols.filter (Sym.Is memory t.v) =
      ((ofCalls calls).symbols.filter fun s => s.mtype = memory ∧ s.v < v).filter
        (Sym.Is memory t.v) := by
    rw [List.filter_filter]
    congr 1
    funext s
    rw [← Bool.decide_and, decide_eq_decide]
    constructor
    · intro his
      exact ⟨his, his.1, his.2 ▸ hlt⟩
    · exact And.left
  have hsorted : ((ofCalls calls).symbols.filter fun s =>
      s.mtype = memory ∧ s.v < v).Pairwise Le := (pairwise_ofCalls calls).filter _
  rw [hinner]
  cases hlast : ((ofCalls calls).symbols.filter fun s =>
      s.mtype = memory ∧ s.v < v).getLast? with
  | none =>
    rw [List.getLast?_eq_none_iff.mp hlast] at hbelow
    cases hbelow
  | some s =>
    obtain ⟨front, hfront⟩ := List.getLast?_eq_some_iff.mp hlast
    have hs : s ∈ (ofCalls calls).symbols.filter fun s => s.mtype = memory ∧ s.v < v := by
      rw [hfront]
      exact List.mem_append_right _ List.mem_cons_self
    obtain ⟨hs, hcond⟩ := List.mem_filter.mp hs
    obtain ⟨hsmemory, hslt⟩ := of_decide_eq_true hcond
    have hsle : s.v ≤ t.v :=
      hupper ⟨BitVec.le_of_lt hslt, s, mem_ofCalls.mp hs, hsmemory, rfl⟩
    have htle : t.v ≤ s.v := by
      rw [hfront] at hsorted hbelow
      obtain ht' | ht' := List.mem_append.mp hbelow
      · exact (List.pairwise_append.mp hsorted).2.2 t ht' s List.mem_cons_self
      · rw [List.mem_singleton.mp ht']
        exact BitVec.le_refl _
    have his : s.Is memory t.v := ⟨hsmemory, BitVec.le_antisymm hsle htle⟩
    rw [hfront, List.filter_append, List.filter_cons_of_pos (by simpa using his), List.filter_nil,
      List.getLast?_concat]

/-- The lookup finds the name added last for `v` itself, but the one added first for the greatest
value below it. -/
theorem symFind_of_isGreatest (h : IsGreatest (valuesUpTo calls memory v) u) :
    (ofCalls calls).symFindByTypeVal memory v true =
      (if u = v then newest calls memory u else oldest calls memory u).map
        fun name => (name, some (v - u)) := by
  rw [symFindByTypeVal, findLoop_eq (pairwise_ofCalls calls)]
  by_cases huv : u = v
  · subst huv
    rw [if_pos (Eq.refl u), newest_eq]
    cases hfind : (ofCalls calls).symbols.find? (Sym.Is memory u) with
    | none =>
      obtain ⟨-, s, hs, his⟩ := h.1
      have hnone := List.find?_eq_none.mp hfind s (mem_ofCalls.mpr hs)
      exact absurd his (of_decide_eq_false (Bool.eq_false_iff.mpr hnone))
    | some s =>
      rw [BitVec.sub_self]
      rfl
  · have hfind : (ofCalls calls).symbols.find? (Sym.Is memory v) = none := by
      rw [List.find?_eq_none]
      intro s hs his
      have hle := h.2 ⟨BitVec.le_refl v, s, mem_ofCalls.mp hs, of_decide_eq_true his⟩
      exact huv (BitVec.le_antisymm h.1.1 hle)
    rw [if_neg huv, hfind, getLast?_below h huv, oldest_eq]
    cases hlast : ((ofCalls calls).symbols.filter (Sym.Is memory u)).getLast? with
    | none =>
      obtain ⟨-, s, hs, his⟩ := h.1
      rw [List.getLast?_eq_none_iff, List.filter_eq_nil_iff] at hlast
      exact absurd (decide_eq_true his) (hlast s (mem_ofCalls.mpr hs))
    | some s =>
      have hs := List.mem_of_getLast? hlast
      have hv : s.v = u := (of_decide_eq_true (List.mem_filter.mp hs).2).2
      rw [← hv]
      rfl

/-- The lookup finds nothing where there is no value. -/
theorem symFind_of_empty (h : valuesUpTo calls memory v = ∅) :
    (ofCalls calls).symFindByTypeVal memory v true = none := by
  have hno (s : Sym) (hs : s ∈ (ofCalls calls).symbols) (hmemory : s.mtype = memory) :
      ¬s.v ≤ v := by
    intro hle
    have hmem : s.v ∈ valuesUpTo calls memory v := ⟨hle, s, mem_ofCalls.mp hs, hmemory, rfl⟩
    rw [h] at hmem
    exact hmem
  have hfind : (ofCalls calls).symbols.find? (Sym.Is memory v) = none := by
    rw [List.find?_eq_none]
    intro s hs his
    obtain ⟨hmemory, rfl⟩ := of_decide_eq_true his
    exact hno s hs hmemory (BitVec.le_refl _)
  have hfilter : (ofCalls calls).symbols.filter (fun s => s.mtype = memory ∧ s.v < v) = [] := by
    rw [List.filter_eq_nil_iff]
    intro s hs hbelow
    obtain ⟨hmemory, hlt⟩ := of_decide_eq_true hbelow
    exact hno s hs hmemory (BitVec.le_of_lt hlt)
  rw [symFindByTypeVal, findLoop_eq (pairwise_ofCalls calls), hfind, hfilter]
  rfl

/-- Values that are not above `v` have a greatest one. -/
theorem exists_isGreatest (h : (valuesUpTo calls memory v).Nonempty) :
    ∃ u, IsGreatest (valuesUpTo calls memory v) u := by
  have hfinite : Finite Word := Finite.of_injective BitVec.toFin fun _ _ => BitVec.eq_of_toFin_eq
  obtain ⟨u, hu, hmax⟩ :=
    Set.exists_max_image (valuesUpTo calls memory v) BitVec.toNat (Set.toFinite _) h
  exact ⟨u, hu, fun w hw => BitVec.le_def.mpr (hmax w hw)⟩

/-- The lookup is as it should be if and only if it is not ambiguous. -/
theorem findsNewest_iff (calls : List Sym) (memory : SymType) (v : Word) :
    FindsNewest calls memory v ↔ Unambiguous calls memory v := by
  have hadded {u : Word} (h : IsGreatest (valuesUpTo calls memory v) u) :
      ∃ first last, oldest calls memory u = some first ∧ newest calls memory u = some last := by
    obtain ⟨-, s, hs, his⟩ := h.1
    have hfirst : (calls.find? fun s => s.Is memory u).isSome :=
      List.find?_isSome.mpr ⟨s, hs, decide_eq_true his⟩
    have hlast : (calls.reverse.find? fun s => s.Is memory u).isSome :=
      List.find?_isSome.mpr ⟨s, List.mem_reverse.mpr hs, decide_eq_true his⟩
    obtain ⟨first, hfirst⟩ := Option.isSome_iff_exists.mp hfirst
    obtain ⟨last, hlast⟩ := Option.isSome_iff_exists.mp hlast
    refine ⟨first.name, last.name, ?_, ?_⟩
    · rw [oldest, hfirst]
      rfl
    · rw [newest, hlast]
      rfl
  constructor
  · rintro ⟨-, hfound⟩ u hu
    by_cases huv : u = v
    · exact .inl huv
    · obtain ⟨first, last, hfirst, hlast⟩ := hadded hu
      obtain ⟨name, offset, hfind, hname, hoffset⟩ := hfound u hu
      rw [symFind_of_isGreatest hu, if_neg huv, hfirst] at hfind
      cases hfind
      refine .inr ⟨hfirst.trans hname.symm, ?_⟩
      have hsub := BitVec.toNat_sub_of_le hu.1.1
      have hle := BitVec.le_def.mp hu.1.1
      rw [BitVec.toInt_eq_toNat_cond] at hoffset
      split at hoffset
      · omega
      · omega
  · intro h
    constructor
    · constructor
      · intro hnone
        by_contra hsome
        obtain ⟨u, hu⟩ := exists_isGreatest (Set.nonempty_iff_ne_empty.mpr hsome)
        obtain ⟨first, last, hfirst, hlast⟩ := hadded hu
        rw [symFind_of_isGreatest hu, hfirst, hlast] at hnone
        split at hnone
        · cases hnone
        · cases hnone
      · exact symFind_of_empty
    · intro u hu
      obtain ⟨first, last, hfirst, hlast⟩ := hadded hu
      have hsub := BitVec.toNat_sub_of_le hu.1.1
      have hle := BitVec.le_def.mp hu.1.1
      refine ⟨last, v - u, ?_, hlast, ?_⟩
      · rw [symFind_of_isGreatest hu]
        obtain rfl | ⟨hsame, -⟩ := h u hu
        · rw [if_pos (Eq.refl u), hlast]
          rfl
        · rw [hsame, hlast, ite_self]
          rfl
      · have hnear : (v - u).toNat < 2 ^ 31 := by
          obtain rfl | ⟨-, hnear⟩ := h u hu
          · rw [BitVec.sub_self]
            decide
          · exact hnear
        rw [BitVec.toInt_eq_toNat_of_lt (by omega)]
        omega

end Symtab

end Usim
