import Mathlib.Data.List.TakeWhile
import Mathlib.Data.Nat.Digits.Lemmas
import Usim.Lib.Bytes

/-!
# Texts of C programs

Strings that end at a byte 0, arrays of characters without such an end, lines as
`fgets` reads them, words and numbers as `sscanf`, `strtol` and `printf` know them. A
`char` has a sign.
-/

namespace Lib

/-- The characters of a text. -/
def chars (s : String) : List Byte := s.toList.map fun c => BitVec.ofNat 8 c.toNat

/-- The characters of a text that is given by them. -/
theorem chars_ofList (l : List Char) :
    chars (String.ofList l) = l.map fun c => BitVec.ofNat 8 c.toNat := by
  rw [chars, String.toList_ofList]

/-- The characters of a text are counted. -/
theorem length_chars (l : List Char) : (chars (String.ofList l)).length = l.length := by
  rw [chars_ofList, List.length_map]

/-- The characters of a text are told one by one. -/
theorem forall_chars {P : Byte → Prop} {l : List Char}
    (h : ∀ c ∈ l, P (BitVec.ofNat 8 c.toNat)) : ∀ b ∈ chars (String.ofList l), P b := by
  rw [chars_ofList]
  intro b hb
  obtain ⟨c, hc, rfl⟩ := List.mem_map.mp hb
  exact h c hc

/-! ### Strings and arrays -/

section Strings

/-- The string that starts where these bytes do. -/
def cString (bs : List Byte) : List Byte := bs.takeWhile (· ≠ 0)

/-- An array of characters with a string stored in it, and zeros behind it: what
`strncpy` leaves in the array. -/
def padded (n : ℕ) (bs : List Byte) : Fin n → Byte := fun i => (bs[i.val]?).getD 0

/-- There are only zeros behind a zero. -/
def Padded {n : ℕ} (a : Fin n → Byte) : Prop := ∀ i j, i ≤ j → a i = 0 → a j = 0

variable {n : ℕ} {bs : List Byte}

/-- A string has no zeros. -/
theorem ne_zero_of_mem_cString {b : Byte} (h : b ∈ cString bs) : b ≠ 0 := by
  simpa using List.mem_takeWhile_imp h

/-- What all characters but the last one are, those of a string but its last one are. -/
theorem of_mem_dropLast_cString {P : Byte → Prop} (h : ∀ b ∈ bs.dropLast, P b) {b : Byte}
    (hb : b ∈ (cString bs).dropLast) : P b := by
  obtain ⟨tl, htl⟩ : cString bs <+: bs := List.takeWhile_prefix _
  cases tl with
  | nil =>
    rw [List.append_nil] at htl
    rw [htl] at hb
    exact h b hb
  | cons c tl =>
    rw [← htl, List.dropLast_append_of_ne_nil (List.cons_ne_nil c tl)] at h
    exact h b (List.mem_append_left _ (List.mem_of_mem_dropLast hb))

/-- A string without zeros is all of it. -/
theorem cString_of_forall (h : ∀ b ∈ bs, b ≠ 0) : cString bs = bs := by
  rw [cString, List.takeWhile_eq_self_iff]
  intro b hb
  simpa using h b hb

/-- A string ends before a zero. -/
theorem cString_append_zero (tl : List Byte) : cString (bs ++ 0 :: tl) = cString bs := by
  induction bs with
  | nil => rfl
  | cons b bs ih =>
    rw [cString, cString] at ih ⊢
    rw [List.cons_append, List.takeWhile_cons, List.takeWhile_cons, ih]

/-- A line without zeros, after its line end has been taken off. -/
theorem dropLast_cString_concat (h : ∀ b ∈ bs, b ≠ 0) {b : Byte} (hb : b ≠ 0) :
    (cString (bs ++ [b])).dropLast = bs := by
  rw [cString_of_forall, List.dropLast_concat]
  intro c hc
  rcases List.mem_append.mp hc with hc | hc
  · exact h c hc
  · rwa [List.mem_singleton.mp hc]

/-- A string in an array is followed by zeros. -/
theorem padded_padded (h : ∀ b ∈ bs, b ≠ 0) : Padded (padded n bs) := by
  intro i j hij hi
  have hlength : bs.length ≤ i.val := by
    by_contra hlt
    have hlt' : i.val < bs.length := Nat.lt_of_not_le hlt
    rw [padded, List.getElem?_eq_getElem hlt', Option.getD_some] at hi
    exact h _ (List.getElem_mem hlt') hi
  rw [padded, List.getElem?_eq_none (hlength.trans hij), Option.getD_none]

/-- What holds of zero and of all bytes of a string holds in an array with the string. -/
theorem forall_padded {P : Byte → Prop} (hzero : P 0) (h : ∀ b ∈ bs, P b) (i : Fin n) :
    P (padded n bs i) := by
  by_cases hlt : i.val < bs.length
  · rw [padded, List.getElem?_eq_getElem hlt, Option.getD_some]
    exact h _ (List.getElem_mem hlt)
  · rw [padded, List.getElem?_eq_none (Nat.le_of_not_lt hlt), Option.getD_none]
    exact hzero

/-- A string read from an array that is full, and goes on behind it, has the same
characters in an array of this size. -/
theorem padded_cString {a : Fin n → Byte} (ha : Padded a) (tl : List Byte) :
    padded n (cString (List.ofFn a ++ tl)) = a := by
  induction n with
  | zero =>
    funext i
    exact i.elim0
  | succ n ih =>
    rw [List.ofFn_succ, List.cons_append]
    funext i
    by_cases hzero : a 0 = 0
    · have hstring : cString (a 0 :: (List.ofFn (fun i => a i.succ) ++ tl)) = [] :=
        List.takeWhile_cons_of_neg (by simpa using hzero)
      rw [hstring, ha 0 i (Fin.zero_le i) hzero]
      rfl
    · have hstring : cString (a 0 :: (List.ofFn (fun i => a i.succ) ++ tl)) =
          a 0 :: cString (List.ofFn (fun i => a i.succ) ++ tl) :=
        List.takeWhile_cons_of_pos (by simpa using hzero)
      rw [hstring]
      refine Fin.cases rfl (fun i => ?_) i
      have htail : Padded fun i : Fin n => a i.succ := fun i j hij =>
        ha i.succ j.succ (Fin.succ_le_succ_iff.mpr hij)
      exact congrFun (ih htail) i

end Strings

/-! ### Lines -/

section Lines

/-- A line end. -/
def newline : Byte := 0x0A

/-- What calls of `fgets` with a buffer of 256 bytes read: lines with their line ends, cut
after 255 bytes. `line` is what the call in progress has read. -/
def fgetsLines (line : List Byte) : List Byte → List (List Byte)
  | [] => if line = [] then [] else [line]
  | b :: bs =>
    if b = newline ∨ line.length = 254 then (line ++ [b]) :: fgetsLines [] bs
    else fgetsLines (line ++ [b]) bs

/-- A line that fits is read as it is. -/
theorem fgetsLines_line {line bs tl : List Byte} (hline : ∀ b ∈ bs, b ≠ newline)
    (hlength : line.length + bs.length < 255) :
    fgetsLines line (bs ++ newline :: tl) = (line ++ bs ++ [newline]) :: fgetsLines [] tl := by
  induction bs generalizing line with
  | nil => rw [List.nil_append, fgetsLines, if_pos (Or.inl rfl), List.append_nil]
  | cons b bs ih =>
    have hb : ¬(b = newline ∨ line.length = 254) := by
      rw [List.length_cons] at hlength
      exact fun h => h.elim (hline b List.mem_cons_self) (by omega)
    have hrest : (line ++ [b]).length + bs.length < 255 := by
      rwa [List.length_append, List.length_singleton, Nat.add_assoc, Nat.add_comm 1]
    rw [List.cons_append, fgetsLines, if_neg hb,
      ih (fun c hc => hline c (List.mem_cons_of_mem b hc)) hrest,
      List.append_assoc line, List.singleton_append]

/-- Lines that fit are read as they are. -/
theorem fgetsLines_flatMap {lines : List (List Byte)}
    (h : ∀ line ∈ lines, (∀ b ∈ line, b ≠ newline) ∧ line.length < 255) :
    fgetsLines [] (lines.flatMap (· ++ [newline])) = lines.map (· ++ [newline]) := by
  induction lines with
  | nil => rfl
  | cons line lines ih =>
    obtain ⟨hline, hlength⟩ := h line List.mem_cons_self
    rw [List.flatMap_cons, List.append_assoc, List.singleton_append,
      fgetsLines_line hline (by rwa [List.length_nil, Nat.zero_add]), List.nil_append,
      ih fun line' h' => h line' (List.mem_cons_of_mem line h'), List.map_cons]

/-- Only the last character of what is read can be a line end. -/
theorem ne_newline_of_mem_fgetsLines {line file : List Byte} (hline : ∀ b ∈ line, b ≠ newline)
    {buffer : List Byte} (h : buffer ∈ fgetsLines line file) :
    ∀ b ∈ buffer.dropLast, b ≠ newline := by
  induction file generalizing line with
  | nil =>
    rw [fgetsLines] at h
    split at h
    · cases h
    · obtain rfl := List.mem_singleton.mp h
      exact fun b hb => hline b (List.mem_of_mem_dropLast hb)
  | cons b bs ih =>
    rw [fgetsLines] at h
    split at h
    case isTrue =>
      rcases List.mem_cons.mp h with rfl | h
      · rw [List.dropLast_concat]
        exact hline
      · exact ih (fun b hb => absurd hb List.not_mem_nil) h
    case isFalse hend =>
      refine ih (fun c hc => ?_) h
      rcases List.mem_append.mp hc with hc | hc
      · exact hline c hc
      · rw [List.mem_singleton.mp hc]
        exact fun hb => hend (Or.inl hb)

end Lines

/-! ### Words -/

section Words

/-- `isspace`. -/
def isSpace (b : Byte) : Bool := b = 0x20 || (0x09 ≤ b && b ≤ 0x0D)

/-- White space in a format: as much of it as there is. -/
def skipSpace (bs : List Byte) : List Byte := bs.dropWhile isSpace

/-- `%s`: the next word, and what follows it. -/
def scanWord (bs : List Byte) : List Byte × List Byte :=
  ((skipSpace bs).takeWhile (!isSpace ·), (skipSpace bs).dropWhile (!isSpace ·))

variable {bs tl : List Byte}

/-- No white space to skip. -/
theorem skipSpace_of_head (h : ∀ b ∈ bs.head?, isSpace b = false) : skipSpace bs = bs := by
  cases bs with
  | nil => rfl
  | cons b bs => exact List.dropWhile_cons_of_neg (by rw [h b rfl]; decide)

/-- A blank is skipped. -/
theorem skipSpace_blank : skipSpace (0x20 :: bs) = skipSpace bs :=
  List.dropWhile_cons_of_pos (by decide)

/-- What is left begins with no white space. -/
theorem isSpace_head_skipSpace {b : Byte} (h : b ∈ (skipSpace bs).head?) : isSpace b = false := by
  have hhead := List.head?_dropWhile_not isSpace bs
  rw [show List.dropWhile isSpace bs = skipSpace bs from rfl, Option.mem_def.mp h] at hhead
  exact hhead

/-- A word has no white space. -/
theorem isSpace_of_mem_scanWord {b : Byte} (h : b ∈ (scanWord bs).1) : isSpace b = false := by
  simpa using List.mem_takeWhile_imp h

/-- A word up to a blank. -/
theorem scanWord_blank (hword : ∀ b ∈ bs, isSpace b = false) (hne : bs ≠ []) :
    scanWord (bs ++ 0x20 :: tl) = (bs, 0x20 :: tl) := by
  have hskip : skipSpace (bs ++ 0x20 :: tl) = bs ++ 0x20 :: tl := by
    apply skipSpace_of_head
    intro b hb
    rw [List.head?_append_of_ne_nil _ hne] at hb
    exact hword b (List.mem_of_mem_head? hb)
  have hall : ∀ b ∈ bs, (!isSpace b) = true := fun b hb => by rw [hword b hb]; rfl
  rw [scanWord, hskip, List.takeWhile_append_of_pos hall, List.dropWhile_append_of_pos hall,
    List.takeWhile_cons_of_neg (by decide), List.dropWhile_cons_of_neg (by decide), List.append_nil]

/-- The last word. -/
theorem scanWord_of_forall (hword : ∀ b ∈ bs, isSpace b = false) : scanWord bs = (bs, []) := by
  have hskip : skipSpace bs = bs := skipSpace_of_head fun b hb =>
    hword b (List.mem_of_mem_head? hb)
  have hall : ∀ b ∈ bs, (!isSpace b) = true := fun b hb => by rw [hword b hb]; rfl
  rw [scanWord, hskip, List.takeWhile_eq_self_iff.mpr hall, List.dropWhile_eq_nil_iff.mpr hall]

/-- A word behind a blank. -/
theorem scanWord_cons_blank : scanWord (0x20 :: bs) = scanWord bs := by
  rw [scanWord, scanWord, skipSpace_blank]

end Words

/-! ### Numbers -/

section Numbers

/-- The value of a digit or a letter, and 36 of anything else. -/
def digitValue (b : Byte) : ℕ :=
  if 0x30 ≤ b ∧ b ≤ 0x39 then b.toNat - 0x30
  else if 0x41 ≤ b ∧ b ≤ 0x5A then b.toNat - 0x41 + 10
  else if 0x61 ≤ b ∧ b ≤ 0x7A then b.toNat - 0x61 + 10
  else 36

/-- The number that the digits at the beginning make up. -/
def digitsNumber (base : ℕ) (bs : List Byte) : ℕ :=
  (bs.takeWhile (digitValue · < base)).foldl (fun n b => digitValue b + base * n) 0

/-- An integer constant of C without a sign. -/
def constantNumber (bs : List Byte) : ℕ :=
  if bs.head? = some 0x30 then
    if (bs[1]? = some 0x78 ∨ bs[1]? = some 0x58) ∧ (bs[2]?).any (digitValue · < 16) then
      digitsNumber 16 (bs.drop 2)
    else digitsNumber 8 bs
  else digitsNumber 10 bs

/-- `strtol` with the base 0, for a `long` of 64 bits. -/
def strtol (bs : List Byte) : ℤ :=
  let bs := skipSpace bs
  if bs.head? = some 0x2D then max (-(constantNumber bs.tail : ℤ)) (-2 ^ 63)
  else if bs.head? = some 0x2B then min (constantNumber bs.tail : ℤ) (2 ^ 63 - 1)
  else min (constantNumber bs : ℤ) (2 ^ 63 - 1)

/-- A digit. -/
def digit (d : ℕ) : Byte := BitVec.ofNat 8 (0x30 + d)

/-- `%u` or `%o`: the digits of a number. -/
def numeral (base n : ℕ) : List Byte :=
  if n = 0 then [digit 0] else ((Nat.digits base n).map digit).reverse

variable {base n d : ℕ}

/-- The digits are the bytes from 48 to 57. -/
theorem toNat_digit (hd : d < 10) : (digit d).toNat = 0x30 + d := by
  rw [digit, BitVec.toNat_ofNat]
  omega

/-- The value of a digit. -/
theorem digitValue_digit (hd : d < 10) : digitValue (digit d) = d := by
  have hdigit := toNat_digit hd
  have hlow : (0x30 : Byte) ≤ digit d := by
    rw [BitVec.le_def, hdigit]
    exact Nat.le_add_right _ _
  have hhigh : digit d ≤ 0x39 := by
    rw [BitVec.le_def, hdigit]
    exact Nat.add_le_add_left (Nat.le_of_lt_succ hd) 0x30
  rw [digitValue, if_pos ⟨hlow, hhigh⟩, hdigit]
  exact Nat.add_sub_cancel_left ..

/-- A numeral consists of digits. -/
theorem exists_of_mem_numeral (h₁ : 1 < base) (h₁₀ : base ≤ 10) {b : Byte}
    (hb : b ∈ numeral base n) : ∃ d < base, b = digit d := by
  rw [numeral] at hb
  split at hb
  · exact ⟨0, by omega, List.mem_singleton.mp hb⟩
  · obtain ⟨d, hd, rfl⟩ := List.mem_map.mp (List.mem_reverse.mp hb)
    exact ⟨d, Nat.digits_lt_base h₁ hd, rfl⟩

/-- The bytes of a numeral. -/
theorem toNat_of_mem_numeral (h₁ : 1 < base) (h₁₀ : base ≤ 10) {b : Byte}
    (hb : b ∈ numeral base n) : 0x30 ≤ b.toNat ∧ b.toNat < 0x3A := by
  obtain ⟨d, hd, rfl⟩ := exists_of_mem_numeral h₁ h₁₀ hb
  rw [toNat_digit (by omega)]
  omega

/-- A numeral has a digit. -/
theorem numeral_ne_nil : numeral base n ≠ [] := by
  rw [numeral]
  split
  · exact List.cons_ne_nil _ _
  next hn =>
    rw [ne_eq, List.reverse_eq_nil_iff, List.map_eq_nil_iff]
    exact Nat.digits_ne_nil_iff_ne_zero.mpr hn

/-- A numeral has digits only. -/
theorem takeWhile_numeral (h₁ : 1 < base) (h₁₀ : base ≤ 10) :
    (numeral base n).takeWhile (digitValue · < base) = numeral base n := by
  rw [List.takeWhile_eq_self_iff]
  intro b hb
  obtain ⟨d, hd, rfl⟩ := exists_of_mem_numeral h₁ h₁₀ hb
  rw [digitValue_digit (by omega)]
  exact decide_eq_true hd

/-- The number of a numeral. -/
theorem digitsNumber_numeral (h₁ : 1 < base) (h₁₀ : base ≤ 10) :
    digitsNumber base (numeral base n) = n := by
  rw [digitsNumber, takeWhile_numeral h₁ h₁₀, numeral]
  split
  case isTrue h => rw [h]; rfl
  case isFalse =>
    rw [List.foldl_reverse, List.foldr_map]
    have hvalues (l : List ℕ) (hl : ∀ d ∈ l, d < base) :
        l.foldr (fun d n => digitValue (digit d) + base * n) 0 = Nat.ofDigits base l := by
      induction l with
      | nil => rfl
      | cons d l ih =>
        have hd := hl d List.mem_cons_self
        rw [List.foldr_cons, ih fun d' hd' => hl d' (List.mem_cons_of_mem d hd'),
          digitValue_digit (by omega), Nat.ofDigits_cons]
    rw [hvalues _ fun d hd => Nat.digits_lt_base h₁ hd, Nat.ofDigits_digits]

/-- A numeral other than 0 does not begin with 0. -/
theorem head?_numeral_ne (h₁ : 1 < base) (h₁₀ : base ≤ 10) (hn : n ≠ 0) :
    (numeral base n).head? ≠ some 0x30 := by
  have hne : Nat.digits base n ≠ [] := Nat.digits_ne_nil_iff_ne_zero.mpr hn
  rw [numeral, if_neg hn, List.head?_reverse, List.getLast?_map, List.getLast?_eq_some_getLast hne]
  intro h
  have hlast := Nat.getLast_digit_ne_zero base hn
  have hlt := Nat.digits_lt_base h₁ (List.getLast_mem hne)
  have hvalue := toNat_digit (hlt.trans_le h₁₀)
  rw [Option.some.inj h] at hvalue
  change 0x30 = _ at hvalue
  omega

/-- A byte from 48 on is no white space. -/
theorem isSpace_of_le {b : Byte} (h : 0x30 ≤ b.toNat) : isSpace b = false := by
  have hblank : b ≠ 0x20 := by
    rintro rfl
    exact absurd h (by decide)
  have hcontrol : ¬b ≤ 0x0D := by
    rw [BitVec.le_def]
    change ¬b.toNat ≤ 13
    omega
  rw [isSpace, decide_eq_false hblank, decide_eq_false hcontrol, Bool.and_false, Bool.or_false]

/-- A numeral of a 32 bit number has at most 11 digits. -/
theorem length_numeral (h₁ : 8 ≤ base) (hn : n < 2 ^ 32) : (numeral base n).length ≤ 11 := by
  rw [numeral]
  split
  · decide
  · rw [List.length_reverse, List.length_map, Nat.digits_length_le_iff (by omega)]
    calc
      n < 8 ^ 11 := hn.trans (by decide)
      _ ≤ base ^ 11 := Nat.pow_le_pow_left h₁ 11

/-- A digit is no white space and no sign. -/
theorem strtol_of_digit {bs : List Byte} (h : ∀ b ∈ bs.head?, 0x30 ≤ b.toNat ∧ b.toNat < 0x3A)
    (hlt : constantNumber bs < 2 ^ 63) : strtol bs = constantNumber bs := by
  have hskip : skipSpace bs = bs := by
    apply skipSpace_of_head
    intro b hb
    exact isSpace_of_le (h b hb).1
  have hsign (b : Byte) (hb : b.toNat < 0x30) : ¬bs.head? = some b := fun hhead => by
    have := h b (Option.mem_def.mpr hhead)
    omega
  simp only [strtol, hskip]
  rw [if_neg (hsign _ (by decide)), if_neg (hsign _ (by decide))]
  omega

/-- A decimal numeral is read back. -/
theorem strtol_numeral (hn : n < 2 ^ 63) : strtol (numeral 10 n) = n := by
  have hconstant : constantNumber (numeral 10 n) = n := by
    by_cases hzero : n = 0
    · subst hzero
      rfl
    · rw [constantNumber, if_neg (head?_numeral_ne (by decide) (by decide) hzero),
        digitsNumber_numeral (by decide) (by decide)]
  rw [strtol_of_digit, hconstant]
  · intro b hb
    exact toNat_of_mem_numeral (by decide) (by decide) (List.mem_of_mem_head? hb)
  · rwa [hconstant]

/-- An octal numeral behind a 0 is read back. -/
theorem strtol_octal (hn : n < 2 ^ 63) : strtol (0x30 :: numeral 8 n) = n := by
  have hconstant : constantNumber (0x30 :: numeral 8 n) = n := by
    have hsecond : ¬((numeral 8 n)[0]? = some 0x78 ∨ (numeral 8 n)[0]? = some 0x58) := by
      rw [← List.head?_eq_getElem?]
      rintro (h | h)
      all_goals
        have := toNat_of_mem_numeral (by decide) (by decide) (List.mem_of_mem_head? h)
        exact absurd this (by decide)
    have hzero (bs : List Byte) : digitsNumber 8 (0x30 :: bs) = digitsNumber 8 bs := rfl
    rw [constantNumber, if_pos List.head?_cons, List.getElem?_cons_succ,
      if_neg fun h => hsecond h.1, hzero, digitsNumber_numeral (by decide) (by decide)]
  rw [strtol_of_digit, hconstant]
  · rintro b ⟨⟩
    decide
  · rwa [hconstant]

end Numbers

end Lib
