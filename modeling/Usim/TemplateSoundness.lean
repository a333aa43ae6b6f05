import Usim.DiskTemplate
import Usim.Lib.Runs

/-!
# The labels of disk templates

`read_template` of `diskmaker.c`. Every label that it produces keeps what its fields
have from the template: what the characters of names and texts are, and how they are
filled up.
-/

namespace Usim

open Lib

namespace Diskmaker

/-! ### Characters with signs -/

section Str4

/-- What a character puts into the bytes above it. -/
def fill (c : Byte) : Byte := if c.msb then 0xFF else 0

variable {c₀ c₁ c₂ c₃ : Byte}

/-- The bits of a fill. -/
theorem getLsbD_fill (c : Byte) {i : ℕ} (hi : i < 8) : (fill c).getLsbD i = c.msb := by
  unfold fill
  cases c.msb
  · exact BitVec.getLsbD_zero
  · rw [if_pos rfl, show (0xFF : Byte) = BitVec.allOnes 8 from rfl, BitVec.getLsbD_allOnes]
    exact decide_eq_true hi

/-- The sign of a byte with a fill. -/
theorem msb_or_fill (b c : Byte) : (b ||| fill c).msb = (b.msb || c.msb) := by
  rw [BitVec.msb_or, BitVec.msb_eq_getLsbD_last (fill c), getLsbD_fill c (by decide)]

/-- A byte below a fill stays or is all ones. -/
theorem or_fill (b c : Byte) : b ||| fill c = b ∨ b ||| fill c = 0xFF := by
  unfold fill
  split
  · right
    rw [show (0xFF : Byte) = BitVec.allOnes 8 from rfl, BitVec.or_allOnes]
  · left
    exact BitVec.or_zero

/-- A byte with a fill is 0 if the byte is and the fill is none. -/
theorem or_fill_eq_zero (b c : Byte) : b ||| fill c = 0 ↔ b = 0 ∧ c.msb = false := by
  refine BitVec.or_eq_zero_iff.trans ?_
  unfold fill
  cases c.msb with
  | false => exact and_congr_right fun _ => iff_of_true rfl rfl
  | true => exact and_congr_right fun _ => iff_of_false (by decide) (by decide)

/-- The bits of a character with a sign, moved up. -/
theorem getLsbD_char (c : Byte) (k i : ℕ) :
    (c.signExtend 32 <<< k).getLsbD i =
      (decide (i < 32) && !decide (i < k) &&
        if i - k < 8 then c.getLsbD (i - k) else c.msb) := by
  rw [BitVec.getLsbD_shiftLeft, BitVec.getLsbD_signExtend]
  by_cases hi : i < 32
  · simp [hi, show i - k < 32 by omega]
  · simp [hi]

/-- The bits of four characters. -/
theorem getLsbD_str4 (c₀ c₁ c₂ c₃ : Byte) {i : ℕ} (hi : i < 8) :
    (str4 c₀ c₁ c₂ c₃).getLsbD i = c₀.getLsbD i ∧
      (str4 c₀ c₁ c₂ c₃).getLsbD (8 + i) = (c₁.getLsbD i || c₀.msb) ∧
      (str4 c₀ c₁ c₂ c₃).getLsbD (16 + i) = (c₂.getLsbD i || c₁.msb || c₀.msb) ∧
      (str4 c₀ c₁ c₂ c₃).getLsbD (24 + i) = (c₃.getLsbD i || c₂.msb || c₁.msb || c₀.msb) := by
  have hzero : c₀.signExtend 32 = c₀.signExtend 32 <<< 0 := (BitVec.shiftLeft_zero _).symm
  rw [str4, hzero]
  simp only [BitVec.getLsbD_or, getLsbD_char]
  refine ⟨?_, ?_, ?_, ?_⟩
  · simp [hi, show i < 32 by omega, show i < 24 by omega, show i < 16 by omega]
  · simp [hi, show 8 + i < 32 by omega, show 8 + i < 24 by omega, show 8 + i < 16 by omega]
  · simp [hi, show 16 + i < 32 by omega, show 16 + i < 24 by omega, show ¬16 + i < 8 by omega,
      show ¬16 + i - 8 < 8 by omega]
  · simp [hi, show 24 + i < 32 by omega, show ¬24 + i < 16 by omega, show ¬24 + i < 8 by omega,
      show ¬24 + i - 8 < 8 by omega, show ¬24 + i - 16 < 8 by omega]

/-- The four bytes of four characters. -/
theorem unstr4_str4 (c₀ c₁ c₂ c₃ : Byte) :
    unstr4 (str4 c₀ c₁ c₂ c₃) =
      [c₀, c₁ ||| fill c₀, c₂ ||| fill c₁ ||| fill c₀, c₃ ||| fill c₂ ||| fill c₁ ||| fill c₀] := by
  have hbits {i : ℕ} (hi : i < 8) := getLsbD_str4 c₀ c₁ c₂ c₃ hi
  rw [unstr4, le32, List.cons.injEq, List.cons.injEq, List.cons.injEq, List.cons.injEq]
  refine ⟨?_, ?_, ?_, ?_, rfl⟩
  all_goals
    apply BitVec.eq_of_getLsbD_eq
    intro i hi
    simp only [BitVec.getLsbD_setWidth, BitVec.getLsbD_ushiftRight, BitVec.getLsbD_or, hbits hi,
      getLsbD_fill _ hi, hi, decide_true, Bool.true_and]

/-- A word is determined by its bytes. -/
theorem unstr4_injective : Function.Injective unstr4 := by
  intro w w' h
  rw [unstr4, unstr4, le32, le32, List.cons.injEq, List.cons.injEq, List.cons.injEq,
    List.cons.injEq] at h
  obtain ⟨h₀, h₁, h₂, h₃, -⟩ := h
  rw [← append_le32 w, ← append_le32 w', h₀, h₁, h₂, h₃]

/-- The characters taken from a word and put together again. -/
theorem str4_or_fill (c₀ c₁ c₂ c₃ : Byte) :
    str4 c₀ (c₁ ||| fill c₀) (c₂ ||| fill c₁ ||| fill c₀)
      (c₃ ||| fill c₂ ||| fill c₁ ||| fill c₀) = str4 c₀ c₁ c₂ c₃ := by
  apply unstr4_injective
  rw [unstr4_str4, unstr4_str4, List.cons.injEq, List.cons.injEq, List.cons.injEq, List.cons.injEq]
  refine ⟨rfl, ?_, ?_, ?_, rfl⟩
  all_goals
    apply BitVec.eq_of_getLsbD_eq
    intro i hi
    simp only [BitVec.getLsbD_or, getLsbD_fill _ hi, msb_or_fill]
    grind

/-- A byte of four characters is one of them or all ones. -/
theorem of_mem_unstr4 {P : Byte → Prop} (hones : P 0xFF) (h₀ : P c₀) (h₁ : P c₁) (h₂ : P c₂)
    (h₃ : P c₃) : ∀ b ∈ unstr4 (str4 c₀ c₁ c₂ c₃), P b := by
  have hor {b : Byte} (hb : P b) (c : Byte) : P (b ||| fill c) := by
    rcases or_fill b c with h | h
    · rwa [h]
    · rwa [h]
  rw [unstr4_str4]
  simp only [List.forall_mem_cons, List.not_mem_nil, false_imp_iff, implies_true, and_true]
  exact ⟨h₀, hor h₁ _, hor (hor h₂ _) _, hor (hor (hor h₃ _) _) _⟩

end Str4

/-! ### What templates put into a label -/

section Fields

/-- A text that `strncpy` has stored: no line ends, and no white space before it. -/
structure IsText (a : Fin 32 → Byte) : Prop where
  padded : Padded a
  newline : ∀ i, a i ≠ newline
  head : isSpace (a 0) = false

/-- The characters of a band, of which none is missing. -/
structure IsBand (w : Word) : Prop where
  chars : ∀ b ∈ unstr4 w, b ≠ 0 ∧ b ≠ newline
  head : ∀ b ∈ (unstr4 w).head?, isSpace b = false
  again : bandOf (unstr4 w) = .ok w

/-- The characters of the name of a partition. Some of them can be missing. -/
structure IsName (w : Word) : Prop where
  newline : ∀ b ∈ unstr4 w, b ≠ newline
  head : (unstr4 w).head? ≠ some 0x23
  again : nameWord (unstr4 w) = w

/-- The characters of the comment of a partition. -/
structure IsComment (words : Fin 4 → Word) : Prop where
  word : ∀ b ∈ cString (unstr16 words), isSpace b = false
  again : labelWords (cString (unstr16 words)) = words

variable {value : List Byte}

/-- No text. -/
theorem isText_zero : IsText fun _ => 0 where
  padded := fun _ _ _ _ => rfl
  newline := fun _ => by decide
  head := rfl

/-- A stored text. -/
theorem isText_padded (h : ∀ b ∈ value, b ≠ 0 ∧ b ≠ newline)
    (hhead : ∀ b ∈ value.head?, isSpace b = false) : IsText (padded 32 value) where
  padded := padded_padded fun b hb => (h b hb).1
  newline := forall_padded (by decide) fun b hb => (h b hb).2
  head := by
    cases value with
    | nil => rfl
    | cons b value => exact hhead b rfl

/-- A stored band. -/
theorem isBand_of_bandOf {w : Word} (h : ∀ b ∈ value, b ≠ 0 ∧ b ≠ newline)
    (hhead : ∀ b ∈ value.head?, isSpace b = false) (hw : bandOf value = .ok w) : IsBand w := by
  unfold bandOf at hw
  split at hw
  · cases hw
    simp only [List.forall_mem_cons, List.not_mem_nil, false_imp_iff, implies_true,
      and_true] at h
    obtain ⟨h₀, h₁, h₂, h₃⟩ := h
    refine ⟨of_mem_unstr4 (by decide) h₀ h₁ h₂ h₃, ?_, ?_⟩
    · rw [unstr4_str4]
      exact hhead
    · rw [unstr4_str4, bandOf, str4_or_fill]
  · cases hw

/-- A stored name. -/
theorem isName_nameWord (h : ∀ b ∈ value, b ≠ newline) (hhead : value.head? ≠ some 0x23) :
    IsName (nameWord value) := by
  have hchar (i : ℕ) : (value[i]?).getD 0 ≠ newline := by
    cases hi : value[i]? with
    | none => decide
    | some b => exact h b (List.mem_of_getElem? hi)
  refine ⟨of_mem_unstr4 (by decide) (hchar 0) (hchar 1) (hchar 2) (hchar 3), ?_, ?_⟩
  · rw [nameWord, unstr4_str4, List.head?_cons]
    cases value with
    | nil => decide
    | cons b value => exact hhead
  · conv_lhs => rw [nameWord, nameWord, unstr4_str4]
    exact str4_or_fill _ _ _ _

/-- A character of `label[32]`. -/
def commentChar (label : List Byte) (i : ℕ) : Byte := (label[i]?).getD 0

/-- The byte `m` of the word `k` of a comment. -/
def commentByte (label : List Byte) (k m : ℕ) : Byte :=
  (unstr4 (str4 (commentChar label (4 * k)) (commentChar label (4 * k + 1))
    (commentChar label (4 * k + 2)) (commentChar label (4 * k + 3)))).getD m 0

/-- A byte of a comment is 0 if its character is and none before it in the word has a sign. -/
theorem commentByte_eq_zero (label : List Byte) (k : ℕ) {m : ℕ} (hm : m < 4) :
    commentByte label k m = 0 ↔ commentChar label (4 * k + m) = 0 ∧
      ∀ l < m, (commentChar label (4 * k + l)).msb = false := by
  rw [commentByte, unstr4_str4]
  match m with
  | 0 => exact (and_iff_left fun l hl => absurd hl (Nat.not_lt_zero l)).symm
  | 1 =>
    refine (or_fill_eq_zero _ _).trans (and_congr_right fun _ => ⟨fun h l hl => ?_, fun h => ?_⟩)
    · obtain rfl : l = 0 := by omega
      exact h
    · exact h 0 (by decide)
  | 2 =>
    refine (or_fill_eq_zero _ _).trans ?_
    rw [or_fill_eq_zero, and_assoc]
    refine and_congr_right fun _ => ⟨fun h l hl => ?_, fun h => ⟨h 1 (by decide), h 0 (by decide)⟩⟩
    obtain rfl | rfl : l = 0 ∨ l = 1 := by omega
    exacts [h.2, h.1]
  | 3 =>
    refine (or_fill_eq_zero _ _).trans ?_
    rw [or_fill_eq_zero, or_fill_eq_zero, and_assoc, and_assoc]
    refine and_congr_right fun _ => ⟨fun h l hl => ?_, fun h =>
      ⟨h 2 (by decide), h 1 (by decide), h 0 (by decide)⟩⟩
    obtain rfl | rfl | rfl : l = 0 ∨ l = 1 ∨ l = 2 := by omega
    exacts [h.2.2, h.2.1, h.1]

/-- The bytes of a comment. -/
def commentBytes (label : List Byte) : Fin 16 → Byte := fun i => commentByte label (i / 4) (i % 4)

/-- The bytes of a comment are those of its words. -/
theorem ofFn_commentBytes (label : List Byte) :
    List.ofFn (commentBytes label) = unstr16 (labelWords label) := rfl

/-- The signs do not fill up what is behind the end of a comment. -/
theorem padded_commentBytes {label : List Byte} (h : ∀ b ∈ label, b ≠ 0) :
    Padded (commentBytes label) := by
  have hpadded {i j : ℕ} (hij : i ≤ j) (hi : commentChar label i = 0) :
      commentChar label j = 0 :=
    padded_padded h (n := j + 1) ⟨i, Nat.lt_succ_of_le hij⟩ ⟨j, Nat.lt_succ_self j⟩ hij hi
  intro i j hij hi
  have hij : i.val ≤ j.val := hij
  have hmod (n : ℕ) : 4 * (n / 4) + n % 4 = n := by omega
  rw [commentBytes, commentByte_eq_zero _ _ (Nat.mod_lt _ (by decide)), hmod] at hi ⊢
  refine ⟨hpadded hij hi.1, fun l hl => ?_⟩
  by_cases hbefore : 4 * (j.val / 4) + l < i.val
  · have hword : j.val / 4 = i.val / 4 := by omega
    rw [hword] at hbefore ⊢
    exact hi.2 l (by omega)
  · rw [hpadded (Nat.le_of_not_lt hbefore) hi.1]
    rfl

/-- A stored comment. -/
theorem isComment_labelWords {label : List Byte} (h : ∀ b ∈ label, b ≠ 0)
    (hword : ∀ b ∈ label, isSpace b = false) : IsComment (labelWords label) where
  word := by
    intro b hb
    have hne := ne_zero_of_mem_cString hb
    have hchar (i : ℕ) : (label[i]?).getD 0 ≠ 0 → isSpace ((label[i]?).getD 0) = false := by
      cases hi : label[i]? with
      | none => exact fun h0 => absurd rfl h0
      | some b => exact fun _ => hword b (List.mem_of_getElem? hi)
    have hbyte (k : Fin 4) : ∀ b ∈ unstr4 (labelWords label k), b ≠ 0 → isSpace b = false :=
      of_mem_unstr4 (P := fun b => b ≠ 0 → isSpace b = false) (fun _ => by decide) (hchar _)
        (hchar _) (hchar _) (hchar _)
    have hmem := (List.takeWhile_prefix _).subset hb
    simp only [unstr16, List.mem_append] at hmem
    obtain ((hmem | hmem) | hmem) | hmem := hmem
    all_goals exact hbyte _ b hmem hne
  again := by
    have hstring := padded_cString (padded_commentBytes h) []
    rw [List.append_nil, ofFn_commentBytes] at hstring
    funext k
    have hbyte {m : ℕ} (hm : m < 4) :
        ((cString (unstr16 (labelWords label)))[4 * k.val + m]?).getD 0 =
          commentByte label k m := by
      have hdiv : (4 * k.val + m) / 4 = k := by omega
      have hmod : (4 * k.val + m) % 4 = m := by omega
      refine (congrFun hstring ⟨4 * k.val + m, by omega⟩).trans ?_
      rw [commentBytes, hdiv, hmod]
    calc
      labelWords (cString (unstr16 (labelWords label))) k
        = str4 (commentByte label k 0) (commentByte label k 1) (commentByte label k 2)
            (commentByte label k 3) := by
          rw [← hbyte (by decide), ← hbyte (by decide), ← hbyte (by decide), ← hbyte (by decide)]
          rfl
      _ = labelWords label k := by
          simp only [commentByte, unstr4_str4]
          exact str4_or_fill _ _ _ _

end Fields

/-! ### What every label that is read is like -/

section Sound

/-- The parameters of a label that `read_template` can produce. -/
structure SoundParameters (l : DiskLabelS) : Prop where
  magic : l.magic = emptyLabel.magic
  version : l.version = 1
  wordsPerPart : l.wordsPerPart = 7
  notUsed : l.notUsed = fun _ => 0
  cylinders : l.nCylinders < 4096
  heads : l.nHeads < 256
  blocksPerTrack : l.nBlocksPerTrack < 256
  microload : l.currentMicroload ≠ 0 → IsBand l.currentMicroload
  band : l.currentBand ≠ 0 → IsBand l.currentBand
  driveName : IsText l.driveName
  packName : IsText l.packName
  comment : IsText l.comment

/-- A partition that `read_template` can produce, on a disk of some capacity. -/
structure IsPart (blocks : BitVec 64) (p : PartS) : Prop where
  name : IsName p.name
  comment : IsComment p.label
  fits : ¬blocks < (p.start + p.size).setWidth 64

/-- A label that `read_template` can produce. -/
structure Sound (l : DiskLabelS) : Prop extends SoundParameters l where
  count : l.nPartitions.toNat ≤ 18
  part : ∀ i : Fin 18, i.val < l.nPartitions.toNat → IsPart (capacity l) (l.parts i)
  rest : ∀ i : Fin 18, l.nPartitions.toNat ≤ i.val → l.parts i = emptyLabel.parts i

/-- The label between two lines. -/
structure TemplateState.Sound (s : TemplateState) : Prop where
  label : Diskmaker.Sound s.label
  count : s.readingDiskParameters = true → s.label.nPartitions = 0

/-- The label before the first line. -/
theorem sound_templateStart : templateStart.Sound where
  label :=
    { magic := rfl, version := rfl, wordsPerPart := rfl, notUsed := rfl
      cylinders := by decide
      heads := by decide
      blocksPerTrack := by decide
      microload := fun h => absurd rfl h
      band := fun h => absurd rfl h
      driveName := isText_zero, packName := isText_zero, comment := isText_zero
      count := by decide
      part := fun i hi => absurd hi (Nat.not_lt_zero _)
      rest := fun _ _ => rfl }
  count := fun _ => rfl

variable {line : List Byte} {l l' : DiskLabelS}

/-- A parameter that is set. -/
theorem SoundParameters.setParameter {name value : List Byte} (h : SoundParameters l)
    (hvalue : ∀ b ∈ value, b ≠ 0 ∧ b ≠ newline) (hhead : ∀ b ∈ value.head?, isSpace b = false)
    (hl' : setParameter line name value l = .ok l') :
    SoundParameters l' ∧ l'.nPartitions = l.nPartitions ∧ l'.parts = l.parts := by
  have htext := isText_padded hvalue hhead
  unfold Diskmaker.setParameter at hl'
  by_cases hcylinders : name = chars "cylinders"
  · rw [if_pos hcylinders] at hl'
    dsimp only at hl'
    split at hl'
    · cases hl'
    · rename_i hlt
      cases hl'
      exact ⟨{ h with cylinders := BitVec.not_le.mp hlt }, rfl, rfl⟩
  rw [if_neg hcylinders] at hl'
  by_cases hheads : name = chars "heads"
  · rw [if_pos hheads] at hl'
    dsimp only at hl'
    split at hl'
    · cases hl'
    · rename_i hlt
      cases hl'
      exact ⟨{ h with heads := BitVec.not_le.mp hlt }, rfl, rfl⟩
  rw [if_neg hheads] at hl'
  by_cases hblocks : name = chars "blockspertrack"
  · rw [if_pos hblocks] at hl'
    dsimp only at hl'
    split at hl'
    · cases hl'
    · rename_i hlt
      cases hl'
      exact ⟨{ h with blocksPerTrack := BitVec.not_le.mp hlt }, rfl, rfl⟩
  rw [if_neg hblocks] at hl'
  by_cases hcylinder : name = chars "blockspercylinder"
  · rw [if_pos hcylinder] at hl'
    cases hl'
    exact ⟨{ h with }, rfl, rfl⟩
  rw [if_neg hcylinder] at hl'
  by_cases hmcr : name = chars "mcr"
  · rw [if_pos hmcr] at hl'
    obtain ⟨w, hw, rfl⟩ := exists_of_map_eq_ok hl'
    exact ⟨{ h with microload := fun _ => isBand_of_bandOf hvalue hhead hw }, rfl, rfl⟩
  rw [if_neg hmcr] at hl'
  by_cases hlod : name = chars "lod"
  · rw [if_pos hlod] at hl'
    obtain ⟨w, hw, rfl⟩ := exists_of_map_eq_ok hl'
    exact ⟨{ h with band := fun _ => isBand_of_bandOf hvalue hhead hw }, rfl, rfl⟩
  rw [if_neg hlod] at hl'
  by_cases hdrive : name = chars "brand" ∨ name = chars "drive"
  · rw [if_pos hdrive] at hl'
    cases hl'
    exact ⟨{ h with driveName := htext }, rfl, rfl⟩
  rw [if_neg hdrive] at hl'
  by_cases hpack : name = chars "text" ∨ name = chars "pack"
  · rw [if_pos hpack] at hl'
    cases hl'
    exact ⟨{ h with packName := htext }, rfl, rfl⟩
  rw [if_neg hpack] at hl'
  by_cases hcomment : name = chars "comment"
  · rw [if_pos hcomment] at hl'
    cases hl'
    exact ⟨{ h with comment := htext }, rfl, rfl⟩
  · rw [if_neg hcomment] at hl'
    cases hl'

/-- A line of the disk parameters. -/
theorem SoundParameters.parameterLine (h : SoundParameters l)
    (hline : ∀ b ∈ line, b ≠ 0 ∧ b ≠ newline) (hl' : parameterLine line l = .ok l') :
    SoundParameters l' ∧ l'.nPartitions = l.nPartitions ∧ l'.parts = l.parts := by
  refine h.setParameter (fun b hb => ?_) (fun b hb => ?_) hl'
  · have hmem := (List.takeWhile_prefix _).subset hb
    have hmem := (List.dropWhile_suffix _).subset hmem
    have hmem := (List.dropWhile_suffix _).subset hmem
    exact hline b ((List.dropWhile_suffix _).subset hmem)
  · obtain ⟨tl, htl⟩ := List.takeWhile_prefix (l := skipSpace (scanWord line).2) (· ≠ newline)
    apply isSpace_head_skipSpace
    rw [← htl, List.head?_append, Option.mem_def.mp hb]
    rfl

/-- The line `partitions:` of a template. -/
theorem Sound.partitionsLine (h : Sound l) {s' : TemplateState}
    (hs' : partitionsLine l = .ok s') : s'.Sound := by
  unfold Diskmaker.partitionsLine at hs'
  split at hs'
  · cases hs'
  · cases hs'
    exact ⟨{ h with }, fun hreading => absurd hreading Bool.false_ne_true⟩

/-- A label with one more partition, stored at an index. -/
def DiskLabelS.addPart (l : DiskLabelS) (i : Fin 18) (p : PartS) : DiskLabelS :=
  { l with nPartitions := l.nPartitions + 1, parts := Function.update l.parts i p }

/-- The partition that was added. -/
theorem DiskLabelS.addPart_self (l : DiskLabelS) (i : Fin 18) (p : PartS) :
    (l.addPart i p).parts i = p := by
  change Function.update l.parts i p i = p
  rw [Function.update_self]

/-- The other partitions. -/
theorem DiskLabelS.addPart_of_ne (l : DiskLabelS) {i j : Fin 18} (h : j ≠ i) (p : PartS) :
    (l.addPart i p).parts j = l.parts j := by
  change Function.update l.parts i p j = l.parts j
  rw [Function.update_of_ne h]

/-- The partitions are counted. -/
theorem DiskLabelS.toNat_addPart {l : DiskLabelS} (h : l.nPartitions.toNat < 18) (i : Fin 18)
    (p : PartS) : (l.addPart i p).nPartitions.toNat = l.nPartitions.toNat + 1 := by
  change (l.nPartitions + 1).toNat = _
  rw [BitVec.toNat_add_of_lt]
  · rfl
  · change _ + 1 < _
    omega

/-- What `partitionLine` adds to a label. -/
theorem exists_of_partitionLine {s s' : TemplateState} (hs' : partitionLine line s = .ok s') :
    ∃ (h : s.label.nPartitions.toNat < 18) (start size : Word) (comment : List Byte),
      ¬capacity s.label < (start + size).setWidth 64 ∧
      (∀ b ∈ comment, isSpace b = false ∧ b ∈ line) ∧
      s' = ⟨s.label.addPart ⟨s.label.nPartitions.toNat, h⟩
        ⟨nameWord (line.take 4), start, size, labelWords comment⟩,
        s.readingDiskParameters, (start + size).setWidth 64⟩ := by
  have hrest (bs : List Byte) : (scanWord bs).2 ⊆ bs := fun b hb =>
    (List.dropWhile_suffix _).subset ((List.dropWhile_suffix _).subset hb)
  have hword (bs : List Byte) : (scanWord bs).1 ⊆ bs := fun b hb =>
    (List.dropWhile_suffix _).subset ((List.takeWhile_prefix _).subset hb)
  unfold partitionLine at hs'
  simp only at hs'
  split at hs'
  case isFalse => cases hs'
  case isTrue h =>
    split at hs'
    · cases hs'
    generalize placement s.label _ _ = p at hs'
    split at hs'
    · cases hs'
    · rename_i hfits
      cases hs'
      exact ⟨h, _, _, _, hfits, fun b hb => ⟨isSpace_of_mem_scanWord hb,
        List.mem_of_mem_drop (hrest _ (hrest _ (hword _ hb)))⟩, rfl⟩

/-- A sound label with one more partition. -/
theorem Sound.addPart (h : Sound l) (hlt : l.nPartitions.toNat < 18) {p : PartS}
    (hp : IsPart (capacity l) p) : Sound (l.addPart ⟨l.nPartitions.toNat, hlt⟩ p) where
  toSoundParameters := { h with }
  count := (l.toNat_addPart hlt _ p).trans_le hlt
  part := by
    intro i hi
    rw [DiskLabelS.toNat_addPart hlt] at hi
    by_cases hnew : i = ⟨l.nPartitions.toNat, hlt⟩
    · rw [hnew, DiskLabelS.addPart_self]
      exact hp
    · have hne : i.val ≠ l.nPartitions.toNat := fun h => hnew (Fin.ext h)
      rw [DiskLabelS.addPart_of_ne _ hnew]
      exact h.part i (by omega)
  rest := by
    intro i hi
    rw [DiskLabelS.toNat_addPart hlt] at hi
    have hold : i ≠ ⟨l.nPartitions.toNat, hlt⟩ := by
      rintro rfl
      exact Nat.not_succ_le_self _ hi
    rw [DiskLabelS.addPart_of_ne _ hold]
    exact h.rest i (by omega)

/-- A line of the partition table. -/
theorem TemplateState.Sound.partitionLine {s s' : TemplateState} (h : s.Sound)
    (hline : ∀ b ∈ line, b ≠ 0 ∧ b ≠ newline) (hhead : line.head? ≠ some 0x23)
    (hreading : s.readingDiskParameters = false) (hs' : partitionLine line s = .ok s') :
    s'.Sound := by
  obtain ⟨hlt, start, size, comment, hfits, hcomment, rfl⟩ := exists_of_partitionLine hs'
  refine ⟨h.label.addPart hlt ?_, fun h' => absurd (h'.symm.trans hreading) (by decide)⟩
  exact
    { name := by
        refine isName_nameWord (fun b hb => (hline b (List.mem_of_mem_take hb)).2) ?_
        rwa [List.head?_take, if_neg (by decide)]
      comment := isComment_labelWords (fun b hb => (hline b (hcomment b hb).2).1)
        fun b hb => (hcomment b hb).1
      fits := hfits }

/-- A turn of the loop keeps the label sound. -/
theorem TemplateState.Sound.templateLine {s s' : TemplateState} {buffer : List Byte} (h : s.Sound)
    (hbuffer : ∀ b ∈ buffer.dropLast, b ≠ newline) (hs' : templateLine s buffer = .ok s') :
    s'.Sound := by
  have hline : ∀ b ∈ (cString buffer).dropLast, b ≠ 0 ∧ b ≠ newline := fun b hb =>
    ⟨ne_zero_of_mem_cString (List.mem_of_mem_dropLast hb), of_mem_dropLast_cString hbuffer hb⟩
  unfold Diskmaker.templateLine at hs'
  simp only at hs'
  split at hs'
  case isTrue =>
    cases hs'
    exact h
  case isFalse hhead =>
    split at hs'
    · exact h.label.partitionsLine hs'
    split at hs'
    case isTrue hreading =>
      obtain ⟨l, hl, rfl⟩ := exists_of_map_eq_ok hs'
      obtain ⟨hparameters, hcount, hparts⟩ := h.label.toSoundParameters.parameterLine hline hl
      have hzero := hcount.trans (h.count hreading)
      refine ⟨{ hparameters with count := ?_, part := ?_, rest := ?_ }, fun _ => hzero⟩
      · exact hcount ▸ h.label.count
      · intro i hi
        rw [hzero] at hi
        exact absurd hi (Nat.not_lt_zero _)
      · rw [hcount, hparts]
        exact h.label.rest
    case isFalse hreading =>
      exact h.partitionLine hline hhead (Bool.eq_false_iff.mpr hreading) hs'

/-- Every label that `read_template` produces is sound. -/
theorem sound_of_readTemplate {file : List Byte} (hl : readTemplate file = .ok l) : Sound l := by
  obtain ⟨s, hs, rfl⟩ := exists_of_map_eq_ok hl
  have hrun : s.Sound := of_foldlM_eq_ok
    (fun buffer hbuffer s s' h => h.templateLine
      (ne_newline_of_mem_fgetsLines (fun b hb => absurd hb List.not_mem_nil) hbuffer))
    sound_templateStart hs
  exact hrun.label

end Sound

end Diskmaker

end Usim
