import Mathlib.Data.List.Chain
import Usim.Udiss

/-!
# Stripped texts

`uinst_strip` as a function of texts, what a tidy text is, and the texts that are tidy when they
have been stripped: they are read from left to right, with what stands behind the last character.
-/

namespace Usim

open Lib

namespace Udiss

/-- What `uinst_strip` leaves of a text. -/
def strip : List Byte → List Byte
  | [] => []
  | [c] => [c]
  | c :: d :: rest =>
    if c = openParen ∨ c = blank then
      if d = blank then c :: strip rest
      else if d = closeParen then strip (d :: rest)
      else c :: strip (d :: rest)
    else c :: strip (d :: rest)

/-- The parentheses that are open behind a text, with those before it, or nothing if too many are
closed. -/
def parens : ℕ → List Byte → Option ℕ
  | depth, [] => some depth
  | depth, c :: rest =>
    if c = openParen then parens (depth + 1) rest
    else if c = closeParen then if depth = 0 then none else parens (depth - 1) rest
    else parens depth rest

/-- Two characters that may stand side by side. -/
def Neat (a b : Byte) : Prop :=
  ¬(a = openParen ∧ b = blank) ∧ ¬(a = blank ∧ b = closeParen) ∧ ¬(a = blank ∧ b = blank)

/-- The parentheses are balanced, no blank is behind `(`, before `)` or beside another. -/
structure Tidy (t : List Byte) : Prop where
  balanced : parens 0 t = some 0
  neat : t.IsChain Neat

/-! ### Texts that become tidy -/

/-- What stands behind the last character: a word or `)`, one blank or two, `(`, `(` with a blank
before it, or `(` with one blank or two. -/
inductive Behind
  | word | blank | blanks | opening | blankOpening | openingBlank | openingBlanks
  deriving DecidableEq, Repr

/-- What is known of the part of a text that has been read. -/
structure Scan where
  behind : Behind
  /-- The parentheses that are open. -/
  depth : ℕ
  deriving DecidableEq, Repr

namespace Scan

/-- One parenthesis less. -/
def close (depth : ℕ) : Option Scan := if depth = 0 then none else some ⟨.word, depth - 1⟩

/-- One more character. Two blanks are followed by a word or `(`, and behind `(` by `)` alone; a
`(` that is closed at once does not count and has no blank before it. -/
def next (s : Scan) (c : Byte) : Option Scan :=
  if c = Udiss.blank then
    match s.behind with
    | .word => some ⟨.blank, s.depth⟩
    | .blank => some ⟨.blanks, s.depth⟩
    | .opening => some ⟨.openingBlank, s.depth⟩
    | .blankOpening => some ⟨.openingBlank, s.depth⟩
    | .openingBlank => some ⟨.openingBlanks, s.depth⟩
    | .blanks => none
    | .openingBlanks => none
  else if c = openParen then
    match s.behind with
    | .blank => some ⟨.blankOpening, s.depth + 1⟩
    | .blanks => some ⟨.blankOpening, s.depth + 1⟩
    | .openingBlanks => none
    | _ => some ⟨.opening, s.depth + 1⟩
  else if c = closeParen then
    match s.behind with
    | .opening => close (s.depth - 1)
    | .blanks => none
    | .blankOpening => none
    | _ => close s.depth
  else if s.behind = .openingBlanks then none
  else some ⟨.word, s.depth⟩

/-- Some more characters. -/
def run (s : Scan) (t : List Byte) : Option Scan := t.foldlM next s

/-- Nothing is open at the end. -/
def Done (s : Scan) : Prop := s.depth = 0 ∧ s.behind ≠ .openingBlanks

end Scan

/-- A text that becomes tidy. -/
def Strippable (t : List Byte) : Prop := ∃ s, Scan.run ⟨.word, 0⟩ t = some s ∧ s.Done

@[simp] theorem openParen_ne_blank : openParen ≠ blank := by decide

@[simp] theorem closeParen_ne_blank : closeParen ≠ blank := by decide

@[simp] theorem blank_ne_openParen : blank ≠ openParen := by decide

@[simp] theorem blank_ne_closeParen : blank ≠ closeParen := by decide

@[simp] theorem openParen_ne_closeParen : openParen ≠ closeParen := by decide

@[simp] theorem closeParen_ne_openParen : closeParen ≠ openParen := by decide

/-! ### Stripping -/

section Strip

variable {c : Byte} {t : List Byte}

/-- The first of two characters. -/
theorem strip_cons_cons (c d : Byte) (rest : List Byte) : strip (c :: d :: rest) =
    if c = openParen ∨ c = blank then
      if d = blank then c :: strip rest
      else if d = closeParen then strip (d :: rest)
      else c :: strip (d :: rest)
    else c :: strip (d :: rest) := rfl

/-- Another character stays. -/
theorem strip_cons (ho : c ≠ openParen) (hb : c ≠ blank) : strip (c :: t) = c :: strip t := by
  cases t with
  | nil => rfl
  | cons d rest => rw [strip_cons_cons, if_neg (not_or.mpr ⟨ho, hb⟩)]

/-- The blank behind a parenthesis or a blank goes. -/
theorem strip_blank (h : c = openParen ∨ c = blank) : strip (c :: blank :: t) = c :: strip t := by
  rw [strip_cons_cons, if_pos h, if_pos rfl]

/-- What is before a closing parenthesis goes. -/
theorem strip_close (h : c = openParen ∨ c = blank) :
    strip (c :: closeParen :: t) = strip (closeParen :: t) := by
  rw [strip_cons_cons, if_pos h, if_neg (by decide), if_pos rfl]

/-- What is before something else stays. -/
theorem strip_other (h : c = openParen ∨ c = blank) {d : Byte} (hb : d ≠ blank)
    (hc : d ≠ closeParen) : strip (c :: d :: t) = c :: strip (d :: t) := by
  rw [strip_cons_cons, if_pos h, if_neg hb, if_neg hc]

/-- A closing parenthesis stays. -/
theorem strip_closeParen : strip (closeParen :: t) = closeParen :: strip t :=
  strip_cons (by decide) (by decide)

/-- A blank becomes a blank, or what is behind it is a closing parenthesis. -/
theorem head_strip_blank (t : List Byte) :
    ∃ rest, strip (blank :: t) = blank :: rest ∨ strip (blank :: t) = closeParen :: rest := by
  match t with
  | [] => exact ⟨[], .inl rfl⟩
  | d :: rest =>
    by_cases hb : d = blank
    · rw [hb, strip_blank (.inr rfl)]
      exact ⟨_, .inl rfl⟩
    · by_cases hc : d = closeParen
      · rw [hc, strip_close (.inr rfl), strip_closeParen]
        exact ⟨_, .inr rfl⟩
      · rw [strip_other (.inr rfl) hb hc]
        exact ⟨_, .inl rfl⟩

/-- An opening parenthesis stays, or what is behind it is a closing one. -/
theorem head_strip_open (t : List Byte) :
    ∃ rest, strip (openParen :: t) = openParen :: rest ∨
      strip (openParen :: t) = closeParen :: rest := by
  match t with
  | [] => exact ⟨[], .inl rfl⟩
  | d :: rest =>
    by_cases hb : d = blank
    · rw [hb, strip_blank (.inl rfl)]
      exact ⟨_, .inl rfl⟩
    · by_cases hc : d = closeParen
      · rw [hc, strip_close (.inl rfl), strip_closeParen]
        exact ⟨_, .inr rfl⟩
      · rw [strip_other (.inl rfl) hb hc]
        exact ⟨_, .inl rfl⟩

/-- Anything may be behind a word. -/
theorem isChain_word (ho : c ≠ openParen) (hb : c ≠ blank) :
    (c :: t).IsChain Neat ↔ t.IsChain Neat := by
  cases t with
  | nil => simp
  | cons d rest =>
    rw [List.isChain_cons_cons, and_iff_right]
    exact ⟨fun h => ho h.1, fun h => hb h.1, fun h => hb h.1⟩

/-- Two blanks that are stripped do not become tidy. -/
theorem not_isChain_blank : ¬(blank :: strip (blank :: t)).IsChain Neat := by
  obtain ⟨rest, h | h⟩ := head_strip_blank t
  · rw [h, List.isChain_cons_cons]
    exact fun hchain => hchain.1.2.2 ⟨rfl, rfl⟩
  · rw [h, List.isChain_cons_cons]
    exact fun hchain => hchain.1.2.1 ⟨rfl, rfl⟩

/-- Two opening parentheses may be side by side. -/
theorem isChain_open :
    (openParen :: strip (openParen :: t)).IsChain Neat ↔
      (strip (openParen :: t)).IsChain Neat := by
  obtain ⟨rest, h | h⟩ := head_strip_open t
  · rw [h, List.isChain_cons_cons, and_iff_right]
    unfold Neat
    decide
  · rw [h, List.isChain_cons_cons, and_iff_right]
    unfold Neat
    decide

end Strip

/-! ### Reading a text -/

namespace Behind

/-- The characters that are read and wait for the next one. -/
def pending : Behind → List Byte
  | blank => [Udiss.blank]
  | opening => [openParen]
  | blankOpening => [openParen]
  | openingBlanks => [Udiss.blank]
  | _ => []

/-- The last character that stayed, where it matters. -/
def last : Behind → List Byte
  | blanks => [Udiss.blank]
  | blankOpening => [Udiss.blank]
  | openingBlank => [openParen]
  | openingBlanks => [openParen]
  | _ => []

end Behind

namespace Scan

variable {s s' : Scan} {c : Byte} {t t' : List Byte}

/-- The parentheses that were open before a pending one. -/
def settled (s : Scan) : ℕ := s.depth - s.behind.pending.count openParen

/-- What is open counts what is pending. -/
def Counts (s : Scan) : Prop := s.behind.pending.count openParen ≤ s.depth

/-- The pending characters and a text become tidy behind what stayed. -/
def Becomes (s : Scan) (t : List Byte) : Prop :=
  parens s.settled (strip (s.behind.pending ++ t)) = some 0 ∧
    (s.behind.last ++ strip (s.behind.pending ++ t)).IsChain Neat

section Reading

attribute [local simp] Becomes Done settled Counts Scan.next close Behind.pending Behind.last
  parens Neat

/-- The end of a text. -/
theorem becomes_nil (h : s.Counts) : s.Becomes [] ↔ s.Done := by
  obtain ⟨behind, depth⟩ := s
  cases behind <;> simp_all [strip, Udiss.blank, openParen, closeParen]

/-- A blank. -/
theorem becomes_blank (h : s.Counts) :
    s.Becomes (Udiss.blank :: t) ↔ ∃ s', s.next Udiss.blank = some s' ∧ s'.Becomes t := by
  obtain ⟨behind, depth⟩ := s
  cases behind <;> simp_all [strip_blank, not_isChain_blank]

/-- A closing parenthesis. -/
theorem becomes_close :
    s.Becomes (closeParen :: t) ↔ ∃ s', s.next closeParen = some s' ∧ s'.Becomes t := by
  obtain ⟨behind, depth⟩ := s
  cases behind <;> simp [strip_close, strip_closeParen, isChain_word, and_assoc]

/-- An opening parenthesis. -/
theorem becomes_open (h : s.Counts) :
    s.Becomes (openParen :: t) ↔ ∃ s', s.next openParen = some s' ∧ s'.Becomes t := by
  obtain ⟨behind, depth⟩ := s
  cases behind <;> simp_all [strip_other, isChain_open]

/-- Another character. -/
theorem becomes_word (h : s.Counts) (hb : c ≠ Udiss.blank) (ho : c ≠ openParen)
    (hc : c ≠ closeParen) :
    s.Becomes (c :: t) ↔ ∃ s', s.next c = some s' ∧ s'.Becomes t := by
  obtain ⟨behind, depth⟩ := s
  cases behind <;> simp_all [strip_other, strip_cons, isChain_word]

end Reading

/-- One character. -/
theorem becomes_cons (h : s.Counts) (c : Byte) :
    s.Becomes (c :: t) ↔ ∃ s', s.next c = some s' ∧ s'.Becomes t := by
  by_cases hb : c = Udiss.blank
  · rw [hb]
    exact becomes_blank h
  · by_cases ho : c = openParen
    · rw [ho]
      exact becomes_open h
    · by_cases hc : c = closeParen
      · rw [hc]
        exact becomes_close
      · exact becomes_word h hb ho hc

/-- What is pending is still open. -/
theorem Counts.next (h : s.Counts) (hnext : s.next c = some s') : s'.Counts := by
  obtain ⟨behind, depth⟩ := s
  obtain ⟨behind', depth'⟩ := s'
  have hopen : 1 ≤ depth' → Counts ⟨behind', depth'⟩ := by
    intro hdepth
    cases behind' <;> simp [Counts, Behind.pending, hdepth]
  unfold Scan.next at hnext
  split_ifs at hnext
  · cases behind <;> cases hnext <;> simp_all [Counts, Behind.pending]
  · cases behind <;> cases hnext <;> exact hopen (Nat.le_add_left 1 depth)
  · have hclose {n : ℕ} (hn : close n = some ⟨behind', depth'⟩) : behind' = .word := by
      unfold close at hn
      split at hn
      · cases hn
      · cases hn
        rfl
    cases behind <;> first | cases hnext | cases hclose hnext; exact Nat.zero_le _
  · cases hnext
    exact Nat.zero_le _

/-- A text is read to the end if and only if it becomes tidy. -/
theorem becomes_iff (h : s.Counts) : s.Becomes t ↔ ∃ s', s.run t = some s' ∧ s'.Done := by
  induction t generalizing s with
  | nil =>
    rw [becomes_nil h]
    constructor
    · exact fun hdone => ⟨s, rfl, hdone⟩
    · rintro ⟨s', hs', hdone⟩
      cases hs'
      exact hdone
  | cons c t ih =>
    rw [becomes_cons h]
    constructor
    · rintro ⟨s₁, hnext, hbecomes⟩
      obtain ⟨s', hrun, hdone⟩ := (ih (h.next hnext)).mp hbecomes
      refine ⟨s', ?_, hdone⟩
      rw [run, List.foldlM_cons, hnext]
      exact hrun
    · rintro ⟨s', hrun, hdone⟩
      rw [run, List.foldlM_cons] at hrun
      obtain ⟨s₁, hnext, hrun⟩ := Option.bind_eq_some_iff.mp hrun
      exact ⟨s₁, hnext, (ih (h.next hnext)).mpr ⟨s', hrun, hdone⟩⟩

end Scan

/-- The texts that become tidy. -/
theorem tidy_strip_iff (t : List Byte) : Tidy (strip t) ↔ Strippable t := by
  have hcounts : Scan.Counts ⟨.word, 0⟩ := Nat.le_refl 0
  unfold Strippable
  rw [← Scan.becomes_iff hcounts]
  constructor
  · exact fun h => ⟨h.balanced, h.neat⟩
  · exact fun h => ⟨h.1, h.2⟩

end Udiss

end Usim
