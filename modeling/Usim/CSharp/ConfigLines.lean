import Mathlib.Data.List.TakeDrop
import Usim.CSharp.ConfigParser

/-!
# Lines that are written

What `Load` reads in the lines that `Save` writes: the head of a section as it is, and a pair as
it is if and only if its value is stable.
-/

namespace Usim

open Lib

namespace SharpConfig

/-! ### Trimming -/

section Trim

variable {c : Char} {t t' : Text}

/-- White space at the end goes if all that follows goes. -/
theorem rdropWhile_cons (p : Char → Bool) (c : Char) (t : Text) :
    (c :: t).rdropWhile p = if t.rdropWhile p = [] ∧ p c then [] else c :: t.rdropWhile p := by
  unfold List.rdropWhile
  rw [List.reverse_cons, List.dropWhile_append]
  by_cases ht : t.reverse.dropWhile p = []
  · rw [ht]
    cases hc : p c with
    | true => simp [hc]
    | false => simp [hc]
  · have hempty : ¬(t.reverse.dropWhile p).isEmpty = true := by
      rwa [List.isEmpty_iff]
    rw [if_neg hempty, List.reverse_append, if_neg fun h => ht (List.reverse_eq_nil_iff.mp h.1)]
    rfl

/-- What is in front of a character that stays is kept. -/
theorem rdropWhile_append_cons {p : Char → Bool} (hc : p c = false) (t t' : Text) :
    (t ++ c :: t').rdropWhile p = t ++ c :: t'.rdropWhile p := by
  have hne : ¬((c :: t').rdropWhile p = [] ∧ p c = true) := by
    rw [hc]
    exact fun h => Bool.false_ne_true h.2
  have hcons : (c :: t').rdropWhile p = c :: t'.rdropWhile p := by
    rw [rdropWhile_cons, if_neg fun h => Bool.false_ne_true (hc ▸ h.2)]
  induction t with
  | nil => exact hcons
  | cons a t ih =>
    rw [List.cons_append, rdropWhile_cons, ih, if_neg]
    · rfl
    · rintro ⟨h, -⟩
      exact absurd h (by simp)

/-- The two ends are trimmed in any order. -/
theorem dropWhile_rdropWhile (p : Char → Bool) (t : Text) :
    (t.rdropWhile p).dropWhile p = (t.dropWhile p).rdropWhile p := by
  induction t with
  | nil => rfl
  | cons c t ih =>
    cases hc : p c with
    | true =>
      rw [rdropWhile_cons, List.dropWhile_cons_of_pos hc, ← ih]
      by_cases ht : t.rdropWhile p = []
      · rw [if_pos ⟨ht, hc⟩, ht]
      · rw [if_neg fun h => ht h.1, List.dropWhile_cons_of_pos hc]
    | false =>
      have hc' : ¬p c = true := by rw [hc]; exact Bool.false_ne_true
      rw [rdropWhile_cons, if_neg fun h => hc' h.2, List.dropWhile_cons_of_neg hc',
        List.dropWhile_cons_of_neg hc', rdropWhile_cons, if_neg fun h => hc' h.2]

/-- White space at the end is trimmed anyway. -/
theorem trim_rdropWhile (t : Text) : trim (t.rdropWhile isWhiteSpace) = trim t := by
  rw [trim, dropWhile_rdropWhile, List.rdropWhile_idempotent]
  rfl

/-- White space in front is trimmed anyway. -/
theorem trim_cons (hc : isWhiteSpace c = true) : trim (c :: t) = trim t := by
  rw [trim, List.dropWhile_cons_of_pos hc]
  rfl

/-- A text that begins and ends with other characters is not trimmed. -/
theorem trim_eq_self (hhead : ∀ c ∈ t.head?, isWhiteSpace c = false)
    (hlast : ∀ c ∈ t.getLast?, isWhiteSpace c = false) : trim t = t := by
  have hdrop : t.dropWhile isWhiteSpace = t := by
    cases t with
    | nil => rfl
    | cons c t =>
      rw [List.dropWhile_cons_of_neg]
      rw [hhead c rfl]
      exact Bool.false_ne_true
  rw [trim, hdrop, List.rdropWhile_eq_self_iff]
  intro hne
  rw [hlast _ (List.getLast?_eq_getLast_of_ne_nil hne)]
  exact Bool.false_ne_true

theorem head_trim (hc : (trim t).head? = some c) : isWhiteSpace c = false := by
  have hnot := List.head?_dropWhile_not isWhiteSpace (t.rdropWhile isWhiteSpace)
  rw [dropWhile_rdropWhile] at hnot
  have hhead : ((t.dropWhile isWhiteSpace).rdropWhile isWhiteSpace).head? = some c := hc
  rwa [hhead] at hnot

/-- A text without what is at its end ends with something else. -/
theorem getLast_rdropWhile {p : Char → Bool} (hc : (t.rdropWhile p).getLast? = some c) :
    p c = false := by
  have hne : t.rdropWhile p ≠ [] := by
    intro hnil
    rw [hnil] at hc
    cases hc
  have hnot := List.rdropWhile_last_not p t hne
  rw [List.getLast?_eq_getLast_of_ne_nil hne] at hc
  cases hc
  exact Bool.eq_false_iff.mpr hnot

theorem getLast_trim (hc : (trim t).getLast? = some c) : isWhiteSpace c = false :=
  getLast_rdropWhile hc

/-- The last character stays if it may. -/
theorem getLast?_dropWhile {p : Char → Bool} (h : ∀ c ∈ t.getLast?, p c = false) :
    (t.dropWhile p).getLast? = t.getLast? := by
  induction t with
  | nil => rfl
  | cons c t ih =>
    cases hc : p c with
    | false => rw [List.dropWhile_cons_of_neg (by rw [hc]; exact Bool.false_ne_true)]
    | true =>
      rw [List.dropWhile_cons_of_pos hc]
      cases t with
      | nil =>
        have hlast := h c rfl
        rw [hc] at hlast
        cases hlast
      | cons d t =>
        rw [List.getLast?_cons_cons] at h ⊢
        exact ih h

theorem trim_trim (t : Text) : trim (trim t) = trim t :=
  trim_eq_self (fun _ hc => head_trim hc) fun _ hc => getLast_trim hc

/-- Only what is there is left. -/
theorem mem_of_mem_trim (h : c ∈ trim t) : c ∈ t :=
  (List.dropWhile_sublist _).subset ((List.rdropWhile_prefix _ _).sublist.subset h)

end Trim

/-! ### Lines that are written -/

/-- A key that was read. -/
structure IsKey (key : Text) : Prop where
  trimmed : trim key = key
  equals : '=' ∉ key
  comment : key.head? ≠ some '#' ∧ key.head? ≠ some ';'

/-- The line for a pair. -/
def pairText (key value : Text) : Text := key ++ [' ', '=', ' '] ++ value

/-- What is in front of `=` when the line has been trimmed. -/
def front (key : Text) : Text := if key = [] then [] else key ++ [' ']

section Written

variable {key value : Text}

theorem trim_front (h : IsKey key) : trim (front key) = key := by
  unfold front
  split
  case isTrue hnil => exact hnil.symm
  case isFalse hne =>
    have hrdrop : (key ++ [' ']).rdropWhile isWhiteSpace = key.rdropWhile isWhiteSpace :=
      List.rdropWhile_concat_pos _ _ _ (by decide)
    rw [← trim_rdropWhile, hrdrop, trim_rdropWhile, h.trimmed]

/-- The trimmed line for a pair. -/
theorem trim_pairText (h : IsKey key) (value : Text) :
    trim (pairText key value) = front key ++ '=' :: (' ' :: value).rdropWhile isWhiteSpace := by
  have hequals : isWhiteSpace '=' = false := by decide
  have hfront : (pairText key value).dropWhile isWhiteSpace = front key ++ '=' :: ' ' :: value := by
    unfold pairText front
    cases key with
    | nil => rfl
    | cons c key =>
      have hc : isWhiteSpace c = false := head_trim (t := c :: key) (by rw [h.trimmed]; rfl)
      rw [if_neg (List.cons_ne_nil c key), List.cons_append, List.cons_append,
        List.dropWhile_cons_of_neg (by rw [hc]; exact Bool.false_ne_true)]
      simp
  rw [trim, hfront, rdropWhile_append_cons hequals]

/-- The head of a section is read as it is. -/
theorem parseLine_head {name : Text} (h : trim name = name) :
    parseLine ('[' :: name ++ [']']) = .head name := by
  have hlast : ('[' :: name ++ [']']).getLast? = some ']' := List.getLast?_concat
  have htrim : trim ('[' :: name ++ [']']) = '[' :: name ++ [']'] := by
    apply trim_eq_self
    · intro c hc
      cases hc
      decide
    · intro c hc
      rw [hlast] at hc
      cases hc
      decide
  have hinner : inner ('[' :: name ++ [']']) = some name := by
    rw [inner, if_neg (by simp)]
    simp
  have hskip : ¬(('[' :: name ++ [']']).all isWhiteSpace = true ∨
      ('[' :: name ++ [']']).head? = some '#' ∨ ('[' :: name ++ [']']).head? = some ';') := by
    rintro (hall | hhead | hhead)
    · exact absurd (List.all_eq_true.mp hall '[' List.mem_cons_self) (by decide)
    · cases hhead
    · cases hhead
  rw [parseLine, htrim, if_neg hskip, if_pos ⟨rfl, hlast⟩, hinner]
  change Line.head (trim name) = _
  rw [h]

/-- A line that is written for a pair ends with `]` if its value does. -/
theorem getLast_pairText (h : IsKey key) (value : Text) :
    (trim (pairText key value)).getLast? = some ']' ↔ (trim value).getLast? = some ']' := by
  have hvalue : trim value = (value.rdropWhile isWhiteSpace).dropWhile isWhiteSpace :=
    (dropWhile_rdropWhile _ _).symm
  rw [trim_pairText h, hvalue, getLast?_dropWhile fun _ hc => getLast_rdropWhile hc,
    rdropWhile_cons]
  by_cases hnil : value.rdropWhile isWhiteSpace = []
  · rw [if_pos ⟨hnil, by decide⟩, hnil, List.getLast?_concat]
    decide
  · rw [if_neg fun h => hnil h.1, List.getLast?_append_of_ne_nil _ (List.cons_ne_nil _ _),
      List.getLast?_cons_cons]
    obtain ⟨c, rest, hrest⟩ := List.exists_cons_of_ne_nil hnil
    rw [hrest, List.getLast?_cons_cons]

/-- It begins with its key. -/
theorem head_pairText (h : IsKey key) (value : Text) :
    (trim (pairText key value)).head? = if key = [] then some '=' else key.head? := by
  rw [trim_pairText h, front]
  cases key with
  | nil => rfl
  | cons c key => rfl

/-- What is read for a pair that was written. -/
theorem parseLine_pairText (h : IsKey key) (value : Text) :
    parseLine (pairText key value) =
      if key.head? = some '[' ∧ (trim value).getLast? = some ']' then
        match inner (trim (pairText key value)) with
        | none => .malformed
        | some name => .head (trim name)
      else
        match unquote (trim value) with
        | none => .malformed
        | some value => .pair key value := by
  have htrim := trim_pairText h value
  have hhead := head_pairText h value
  have hfirst {c : Char} (hc : c ≠ '=') :
      (trim (pairText key value)).head? = some c ↔ key.head? = some c := by
    rw [hhead]
    split
    case isTrue hnil =>
      rw [hnil]
      simp [hc.symm]
    case isFalse => exact Iff.rfl
  have hskip : ¬((trim (pairText key value)).all isWhiteSpace = true ∨
      (trim (pairText key value)).head? = some '#' ∨
      (trim (pairText key value)).head? = some ';') := by
    rw [hfirst (by decide), hfirst (by decide)]
    rintro (hall | hhash | hsemicolon)
    · rw [htrim] at hall
      exact absurd (List.all_eq_true.mp hall '=' (by simp)) (by decide)
    · exact h.comment.1 hhash
    · exact h.comment.2 hsemicolon
  have henclosed : enclosed '[' ']' (trim (pairText key value)) ↔
      key.head? = some '[' ∧ (trim value).getLast? = some ']' :=
    and_congr (hfirst (by decide)) (getLast_pairText h value)
  rw [parseLine, if_neg hskip]
  by_cases hline : enclosed '[' ']' (trim (pairText key value))
  · exact (if_pos hline).trans (if_pos (henclosed.mp hline)).symm
  · rw [if_neg hline, if_neg fun h => hline (henclosed.mpr h), htrim, parsePair]
    have hfront : ∀ c ∈ front key, (c ≠ '=' : Bool) = true := by
      intro c hc
      rw [decide_eq_true_iff]
      rintro rfl
      unfold front at hc
      split at hc
      · cases hc
      · obtain hc | hc := List.mem_append.mp hc
        · exact h.equals hc
        · exact absurd hc (by decide)
    have hspan : (front key ++ '=' :: (' ' :: value).rdropWhile isWhiteSpace).span (· ≠ '=') =
        (front key, '=' :: (' ' :: value).rdropWhile isWhiteSpace) := by
      rw [List.span_eq_takeWhile_dropWhile, List.takeWhile_append_of_pos hfront,
        List.dropWhile_append_of_pos hfront]
      simp
    have hvalue : trim ((' ' :: value).rdropWhile isWhiteSpace) = trim value := by
      rw [trim_rdropWhile, trim_cons (by decide)]
    rw [hspan]
    change (match unquote (trim ((' ' :: value).rdropWhile isWhiteSpace)) with
      | none => Line.malformed
      | some value => Line.pair (trim (front key)) value) = _
    rw [hvalue, trim_front h]

/-- A value that is read again as it is. -/
theorem unquote_trim_iff (value : Text) :
    unquote (trim value) = some value ↔ trim value = value ∧ ¬enclosed '"' '"' value := by
  have hlength : (trim value).length ≤ value.length :=
    ((List.rdropWhile_prefix _ _).sublist.trans (List.dropWhile_sublist _)).length_le
  constructor
  · intro h
    unfold unquote at h
    by_cases hquoted : enclosed '"' '"' (trim value)
    · rw [if_pos hquoted] at h
      unfold inner at h
      split_ifs at h with hshort
      have hinner := congrArg List.length (Option.some.inj h)
      rw [List.length_dropLast, List.length_drop] at hinner
      omega
    · rw [if_neg hquoted] at h
      have htrim := Option.some.inj h
      rw [htrim] at hquoted
      exact ⟨htrim, hquoted⟩
  · rintro ⟨htrim, hquoted⟩
    rw [htrim, unquote, if_neg hquoted]

/-- A pair is read as itself if and only if its value is stable. -/
theorem parseLine_pairText_iff (h : IsKey key) (value : Text) :
    parseLine (pairText key value) = .pair key value ↔ Stable key value := by
  rw [parseLine_pairText h]
  constructor
  · intro hpair
    split at hpair
    · split at hpair <;> cases hpair
    · rename_i hhead
      split at hpair
      · cases hpair
      · rename_i value' hunquote
        cases hpair
        obtain ⟨htrimmed, hunquoted⟩ := (unquote_trim_iff _).mp hunquote
        rw [htrimmed] at hhead
        exact ⟨htrimmed, hunquoted, hhead⟩
  · intro hstable
    have hhead : ¬(key.head? = some '[' ∧ (trim value).getLast? = some ']') := by
      rw [hstable.trimmed]
      exact hstable.pair
    rw [if_neg hhead, (unquote_trim_iff value).mpr ⟨hstable.trimmed, hstable.unquoted⟩]

end Written

end SharpConfig

end Usim
