import Usim.TemplateSoundness

/-!
# The round trip of a disk template

`print_template` and `read_template` of `diskmaker.c`: which labels come back when the
template that is printed for them is read.
-/

namespace Usim

open Lib

namespace Diskmaker

variable {l : DiskLabelS}

/-! ### The printed lines -/

section Lines

/-- A line of a text: no end in it, and short enough for the buffer. -/
structure IsLine (line : List Byte) : Prop where
  char : ∀ b ∈ line, b ≠ 0 ∧ b ≠ newline
  length : line.length < 255

/-- A text that is read. -/
theorem fgetsLines_text {lines : List (List Byte)} (h : ∀ line ∈ lines, IsLine line) :
    fgetsLines [] (lines.flatMap (· ++ [newline])) = lines.map (· ++ [newline]) :=
  fgetsLines_flatMap fun line hline =>
    ⟨fun b hb => ((h line hline).char b hb).2, (h line hline).length⟩

/-- The characters of a numeral. -/
theorem ne_of_mem_numeral {base n : ℕ} (h₁ : 1 < base) (h₁₀ : base ≤ 10) :
    ∀ b ∈ numeral base n, b ≠ 0 ∧ b ≠ newline := by
  intro b hb
  have hlow := (toNat_of_mem_numeral h₁ h₁₀ hb).1
  constructor
  all_goals
    rintro rfl
    exact absurd hlow (by decide)

/-- A number that is printed in decimal and read. -/
theorem ofInt_strtol_numeral (w : Word) : BitVec.ofInt 32 (strtol (numeral 10 w.toNat)) = w := by
  rw [strtol_numeral (by omega), BitVec.ofInt_natCast, BitVec.ofNat_toNat, BitVec.setWidth_eq]

/-- A number that is printed in octal and read. -/
theorem ofInt_strtol_octal (w : Word) :
    BitVec.ofInt 32 (strtol (0x30 :: numeral 8 w.toNat)) = w := by
  rw [strtol_octal (by omega), BitVec.ofInt_natCast, BitVec.ofNat_toNat, BitVec.setWidth_eq]

/-- A name in front of a value. -/
theorem IsLine.cons_blank {name value : List Byte} (hname : ∀ b ∈ name, b ≠ 0 ∧ b ≠ newline)
    (hvalue : ∀ b ∈ value, b ≠ 0 ∧ b ≠ newline) (hlength : name.length + value.length < 254) :
    IsLine (name ++ 0x20 :: value) where
  char := by
    intro b hb
    rcases List.mem_append.mp hb with hb | hb
    · exact hname b hb
    rcases List.mem_cons.mp hb with rfl | hb
    · decide
    · exact hvalue b hb
  length := by
    rw [List.length_append, List.length_cons]
    omega

/-- The characters from a text of a label on. -/
theorem ne_of_mem_cString {bs : List Byte} (h : ∀ b ∈ bs, b ≠ newline) :
    ∀ b ∈ cString bs, b ≠ 0 ∧ b ≠ newline := fun b hb =>
  ⟨ne_zero_of_mem_cString hb, h b ((List.takeWhile_prefix _).subset hb)⟩

/-- The characters of an array. -/
theorem ne_newline_of_mem_ofFn {a : Fin 32 → Byte} (h : IsText a) {tl : List Byte}
    (htl : ∀ b ∈ tl, b ≠ newline) : ∀ b ∈ List.ofFn a ++ tl, b ≠ newline := by
  intro b hb
  rcases List.mem_append.mp hb with hb | hb
  · obtain ⟨i, rfl⟩ := List.mem_ofFn.mp hb
    exact h.newline i
  · exact htl b hb

/-- The texts of a label are followed by zeros. -/
theorem exists_fromComment (h : SoundParameters l) :
    ∃ tl : List Byte, l.fromComment = List.ofFn l.comment ++ 0 :: tl := by
  refine ⟨[0, 0, 0] ++ (List.ofFn fun _ : Fin 95 => (0 : Word)).flatMap le32, ?_⟩
  rw [DiskLabelS.fromComment, h.notUsed]
  rfl

end Lines

/-! ### The lines of the parameters -/

section Parameters

/-- The names and the values of the printed parameters. -/
def parameters (l : DiskLabelS) : List (List Byte × List Byte) :=
  [(chars "cylinders", numeral 10 l.nCylinders.toNat),
    (chars "heads", numeral 10 l.nHeads.toNat),
    (chars "blockspertrack", numeral 10 l.nBlocksPerTrack.toNat),
    (chars "drive", cString l.fromDriveName),
    (chars "pack", cString l.fromPackName),
    (chars "comment", cString l.fromComment),
    (chars "mcr", cString (unstr4 l.currentMicroload)),
    (chars "lod", cString (unstr4 l.currentBand))]

/-- The line of a name and a value. -/
def parameterText (name value : List Byte) : List Byte := name ++ 0x20 :: value

/-- The lines above the partition table. -/
theorem parameterTexts_eq (l : DiskLabelS) :
    parameterTexts l = (parameters l).map fun p => parameterText p.1 p.2 := rfl

/-- The name of a parameter. -/
structure IsParameterName (name : List Byte) : Prop where
  char : ∀ b ∈ name, b ≠ 0 ∧ isSpace b = false
  ne_nil : name ≠ []
  head : name.head? ≠ some 0x23
  length : name.length < 20

/-- The value of a parameter. -/
structure IsParameterValue (value : List Byte) : Prop where
  char : ∀ b ∈ value, b ≠ 0 ∧ b ≠ newline
  head : ∀ b ∈ value.head?, isSpace b = false
  length : value.length < 200

/-- A byte that is no white space is no line end. -/
theorem ne_newline_of_isSpace {b : Byte} (h : isSpace b = false) : b ≠ newline := by
  rintro rfl
  exact absurd h (by decide)

/-- The line of a parameter. -/
theorem isLine_parameterText {name value : List Byte} (hname : IsParameterName name)
    (hvalue : IsParameterValue value) : IsLine (parameterText name value) := by
  refine IsLine.cons_blank (fun b hb => ?_) hvalue.char ?_
  · exact ⟨(hname.char b hb).1, ne_newline_of_isSpace (hname.char b hb).2⟩
  · have := hname.length
    have := hvalue.length
    omega

/-- A line with a blank in it is not `partitions:`. -/
theorem ne_partitions {bs tl : List Byte} : bs ++ 0x20 :: tl ≠ chars "partitions:" := by
  intro h
  have hblank : (0x20 : Byte) ∈ chars "partitions:" :=
    h ▸ List.mem_append_right bs List.mem_cons_self
  exact absurd hblank (by decide)

/-- The line of a parameter that is read. -/
theorem templateLine_parameterText {name value : List Byte} (hname : IsParameterName name)
    (hvalue : IsParameterValue value) (label : DiskLabelS) (nextStart : BitVec 64) :
    templateLine ⟨label, true, nextStart⟩ (parameterText name value ++ [newline]) =
      (setParameter (parameterText name value) name value label).map
        fun label => ⟨label, true, nextStart⟩ := by
  have hline : (cString (parameterText name value ++ [newline])).dropLast =
      parameterText name value :=
    dropLast_cString_concat (fun b hb => ((isLine_parameterText hname hvalue).char b hb).1)
      (by decide)
  have hhead : (parameterText name value).head? ≠ some 0x23 := by
    rw [parameterText, List.head?_append_of_ne_nil _ hname.ne_nil]
    exact hname.head
  have hvalue' : (skipSpace (0x20 :: value)).takeWhile (· ≠ newline) = value := by
    rw [skipSpace_blank, skipSpace_of_head hvalue.head, List.takeWhile_eq_self_iff]
    intro b hb
    exact decide_eq_true (hvalue.char b hb).2
  simp only [templateLine, hline]
  rw [if_neg hhead, if_neg (show parameterText name value ≠ _ from ne_partitions), if_pos trivial]
  simp only [parameterLine]
  rw [show scanWord (parameterText name value) = (name, 0x20 :: value) from
    scanWord_blank (fun b hb => (hname.char b hb).2) hname.ne_nil, hvalue']

/-- The names of the parameters. -/
theorem isParameterName_of_mem {p : List Byte × List Byte} (h : p ∈ parameters l) :
    IsParameterName p.1 := by
  have hname : p.1 ∈ [chars "cylinders", chars "heads", chars "blockspertrack", chars "drive",
      chars "pack", chars "comment", chars "mcr", chars "lod"] :=
    List.mem_map_of_mem (f := Prod.fst) h
  revert hname
  generalize p.1 = name
  intro hname
  have hall : ∀ name ∈ [chars "cylinders", chars "heads", chars "blockspertrack", chars "drive",
      chars "pack", chars "comment", chars "mcr", chars "lod"],
      (name.all fun b => b ≠ 0 ∧ isSpace b = false) ∧ name ≠ [] ∧ name.head? ≠ some 0x23 ∧
        name.length < 20 := by
    simp only [chars, String.reduceToList]
    decide
  obtain ⟨hchar, hne, hhead, hlength⟩ := hall name hname
  exact ⟨fun b hb => of_decide_eq_true (List.all_eq_true.mp hchar b hb), hne, hhead, hlength⟩

/-- The value of a number. -/
theorem isParameterValue_numeral (w : Word) : IsParameterValue (numeral 10 w.toNat) where
  char := ne_of_mem_numeral (by decide) (by decide)
  head := fun b hb =>
    isSpace_of_le (toNat_of_mem_numeral (by decide) (by decide) (List.mem_of_mem_head? hb)).1
  length := (length_numeral (by decide) w.isLt).trans_lt (by decide)

/-- The first character of a string is that of the bytes it starts with. -/
theorem head?_cString {bs : List Byte} {b : Byte} (h : b ∈ (cString bs).head?) : b ∈ bs.head? := by
  obtain ⟨tl, htl⟩ : cString bs <+: bs := List.takeWhile_prefix _
  rw [← htl, List.head?_append, Option.mem_def.mp h]
  rfl

/-- The value of a text, which zeros end after some more texts. -/
theorem isParameterValue_cString {a : Fin 32 → Byte} (ha : IsText a) {texts : List Byte}
    (htexts : ∀ b ∈ texts, b ≠ newline) (hlength : texts.length ≤ 64) (tl : List Byte) :
    IsParameterValue (cString (List.ofFn a ++ texts ++ 0 :: tl)) := by
  rw [cString_append_zero]
  refine ⟨ne_of_mem_cString (ne_newline_of_mem_ofFn ha htexts), fun b hb => ?_, ?_⟩
  · have hhead := head?_cString hb
    rw [List.ofFn_succ] at hhead
    obtain rfl := Option.some.inj hhead
    exact ha.head
  · have htaken := (List.takeWhile_prefix (l := List.ofFn a ++ texts) (· ≠ 0)).length_le
    rw [List.length_append, List.length_ofFn] at htaken
    exact (htaken.trans (Nat.add_le_add_left hlength 32)).trans_lt (by decide)

/-- The value of a band. -/
theorem isParameterValue_band {w : Word} (h : w ≠ 0 → IsBand w) :
    IsParameterValue (cString (unstr4 w)) := by
  by_cases hw : w = 0
  · subst hw
    exact ⟨by decide, by decide, by decide⟩
  · have hband := h hw
    rw [cString_of_forall fun b hb => (hband.chars b hb).1]
    exact ⟨hband.chars, hband.head, by rw [unstr4, length_le32]; decide⟩

/-- The values of the parameters. -/
theorem isParameterValue_of_mem (h : SoundParameters l) {p : List Byte × List Byte}
    (hp : p ∈ parameters l) : IsParameterValue p.2 := by
  obtain ⟨tl, htl⟩ := exists_fromComment h
  have hcomment : ∀ b ∈ List.ofFn l.comment ++ [], b ≠ newline :=
    ne_newline_of_mem_ofFn h.comment (by simp)
  have hpack := ne_newline_of_mem_ofFn h.packName hcomment
  simp only [parameters, List.mem_cons, List.not_mem_nil, or_false] at hp
  obtain rfl | rfl | rfl | rfl | rfl | rfl | rfl | rfl := hp
  · exact isParameterValue_numeral l.nCylinders
  · exact isParameterValue_numeral l.nHeads
  · exact isParameterValue_numeral l.nBlocksPerTrack
  · have hvalue := isParameterValue_cString h.driveName hpack (by simp) tl
    rwa [List.append_nil, List.append_assoc, List.append_assoc, ← htl] at hvalue
  · have hvalue := isParameterValue_cString h.packName hcomment (by simp) tl
    rwa [List.append_nil, List.append_assoc, ← htl] at hvalue
  · have hvalue : IsParameterValue (cString (List.ofFn l.comment ++ [] ++ 0 :: tl)) :=
      isParameterValue_cString h.comment (by simp) (by simp) tl
    rwa [List.append_nil, ← htl] at hvalue
  · exact isParameterValue_band h.microload
  · exact isParameterValue_band h.band

/-- A band that is printed and read. -/
theorem bandOf_cString {w : Word} (h : w ≠ 0 → IsBand w) :
    bandOf (cString (unstr4 w)) = if w = 0 then .error .assert else .ok w := by
  split
  case isTrue hw =>
    subst hw
    rfl
  case isFalse hw =>
    rw [cString_of_forall fun b hb => ((h hw).chars b hb).1]
    exact (h hw).again

/-- The lines of parameters are read one after the other. -/
theorem foldlM_parameterText {ps : List (List Byte × List Byte)}
    (h : ∀ p ∈ ps, IsParameterName p.1 ∧ IsParameterValue p.2) (label : DiskLabelS)
    (nextStart : BitVec 64) :
    ((ps.map fun p => parameterText p.1 p.2).map (· ++ [newline])).foldlM templateLine
        ⟨label, true, nextStart⟩ =
      (ps.foldlM (fun label p => setParameter (parameterText p.1 p.2) p.1 p.2 label) label).map
        fun label => ⟨label, true, nextStart⟩ := by
  induction ps generalizing label with
  | nil => rfl
  | cons p ps ih =>
    obtain ⟨hname, hvalue⟩ := h p List.mem_cons_self
    rw [List.map_cons, List.map_cons, List.foldlM_cons, List.foldlM_cons,
      templateLine_parameterText hname hvalue]
    cases setParameter (parameterText p.1 p.2) p.1 p.2 label with
    | error e => rfl
    | ok label => exact ih (fun p' hp' => h p' (List.mem_cons_of_mem p hp')) label

/-- The printed cylinders. -/
theorem setParameter_cylinders (line : List Byte) (label : DiskLabelS) {w : Word} (h : w < 4096) :
    setParameter line (chars "cylinders") (numeral 10 w.toNat) label =
      .ok { label with nCylinders := w } := by
  rw [setParameter, if_pos rfl, ofInt_strtol_numeral]
  exact if_neg (BitVec.not_le.mpr h)

/-- The printed heads. -/
theorem setParameter_heads (line : List Byte) (label : DiskLabelS) {w : Word} (h : w < 256) :
    setParameter line (chars "heads") (numeral 10 w.toNat) label =
      .ok { label with nHeads := w } := by
  rw [setParameter, if_neg (by decide), if_pos rfl, ofInt_strtol_numeral]
  exact if_neg (BitVec.not_le.mpr h)

/-- The printed blocks of a track. -/
theorem setParameter_blocksPerTrack (line : List Byte) (label : DiskLabelS) {w : Word}
    (h : w < 256) : setParameter line (chars "blockspertrack") (numeral 10 w.toNat) label =
      .ok { label with nBlocksPerTrack := w } := by
  rw [setParameter, if_neg (by decide), if_neg (by decide), if_pos rfl, ofInt_strtol_numeral]
  exact if_neg (BitVec.not_le.mpr h)

/-- A label with the printed parameters of another one. -/
def DiskLabelS.withParameters (label l : DiskLabelS) : DiskLabelS :=
  { label with
    nCylinders := l.nCylinders, nHeads := l.nHeads, nBlocksPerTrack := l.nBlocksPerTrack
    driveName := l.driveName, packName := l.packName, comment := l.comment
    currentMicroload := l.currentMicroload, currentBand := l.currentBand }

/-- The printed parameters are set. -/
theorem foldlM_setParameter (h : SoundParameters l) (label : DiskLabelS) :
    (parameters l).foldlM (fun label p => setParameter (parameterText p.1 p.2) p.1 p.2 label)
        label =
      if l.currentMicroload = 0 ∨ l.currentBand = 0 then .error .assert
      else .ok (label.withParameters l) := by
  have hdrive : padded 32 (cString l.fromDriveName) = l.driveName :=
    padded_cString h.driveName.padded _
  have hpack : padded 32 (cString l.fromPackName) = l.packName :=
    padded_cString h.packName.padded _
  have hcomment : padded 32 (cString l.fromComment) = l.comment :=
    padded_cString h.comment.padded _
  have htexts (line : List Byte) (label : DiskLabelS) :
      setParameter line (chars "drive") (cString l.fromDriveName) label =
          .ok { label with driveName := l.driveName } ∧
        setParameter line (chars "pack") (cString l.fromPackName) label =
          .ok { label with packName := l.packName } ∧
        setParameter line (chars "comment") (cString l.fromComment) label =
          .ok { label with comment := l.comment } := by
    rw [← hdrive, ← hpack, ← hcomment]
    exact ⟨rfl, rfl, rfl⟩
  have hbands (line : List Byte) (label : DiskLabelS) :
      setParameter line (chars "mcr") (cString (unstr4 l.currentMicroload)) label =
          (bandOf (cString (unstr4 l.currentMicroload))).map
            (fun w => { label with currentMicroload := w }) ∧
        setParameter line (chars "lod") (cString (unstr4 l.currentBand)) label =
          (bandOf (cString (unstr4 l.currentBand))).map fun w => { label with currentBand := w } :=
    ⟨rfl, rfl⟩
  simp only [parameters, List.foldlM_cons, List.foldlM_nil, setParameter_cylinders _ _ h.cylinders,
    setParameter_heads _ _ h.heads, setParameter_blocksPerTrack _ _ h.blocksPerTrack, htexts,
    hbands, bandOf_cString h.microload, bandOf_cString h.band, bind, Except.bind]
  by_cases hmicroload : l.currentMicroload = 0
  · rw [if_pos hmicroload, if_pos (Or.inl hmicroload)]
    rfl
  by_cases hband : l.currentBand = 0
  · rw [if_neg hmicroload, if_pos hband, if_pos (Or.inr hband)]
    rfl
  · rw [if_neg hmicroload, if_neg hband, if_neg (not_or.mpr ⟨hmicroload, hband⟩)]
    rfl

end Parameters

/-! ### The lines of the partitions -/

section Partitions

variable {p : PartS}

/-- A name without a missing character. -/
def FullName (name : Word) : Prop := ∀ b ∈ unstr4 name, b ≠ 0

instance (name : Word) : Decidable (FullName name) :=
  inferInstanceAs (Decidable (∀ b ∈ unstr4 name, b ≠ 0))

/-- The words in the line of a partition. -/
theorem partitionText_eq (p : PartS) :
    partitionText p = cString (unstr4 p.name) ++ 0x20 :: ((0x30 :: numeral 8 p.start.toNat) ++
      0x20 :: ((0x30 :: numeral 8 p.size.toNat) ++ 0x20 :: cString (unstr16 p.label))) := by
  have hchars : chars " 0" = [0x20, 0x30] ∧ chars " " = [0x20] := ⟨rfl, rfl⟩
  rw [partitionText, hchars.1, hchars.2]
  simp only [List.append_assoc, List.cons_append, List.nil_append]

/-- The characters of an octal number behind a 0. -/
theorem isSpace_of_mem_octal {n : ℕ} : ∀ b ∈ 0x30 :: numeral 8 n, isSpace b = false := by
  intro b hb
  rcases List.mem_cons.mp hb with rfl | hb
  · decide
  · exact isSpace_of_le (toNat_of_mem_numeral (by decide) (by decide) hb).1

/-- The characters in the line of a partition. -/
theorem char_partitionText (hname : IsName p.name) (hcomment : IsComment p.label) :
    ∀ b ∈ partitionText p, b ≠ 0 ∧ b ≠ newline := by
  have hoctal (n : ℕ) : ∀ b ∈ 0x30 :: numeral 8 n, b ≠ 0 ∧ b ≠ newline := by
    intro b hb
    rcases List.mem_cons.mp hb with rfl | hb
    · decide
    · exact ne_of_mem_numeral (by decide) (by decide) b hb
  intro b hb
  rw [partitionText_eq] at hb
  simp only [List.mem_append, List.mem_cons (a := b) (b := 0x20)] at hb
  rcases hb with hb | rfl | hb | rfl | hb | rfl | hb
  · exact ne_of_mem_cString hname.newline b hb
  · decide
  · exact hoctal _ b hb
  · decide
  · exact hoctal _ b hb
  · decide
  · exact ⟨ne_zero_of_mem_cString hb, ne_newline_of_isSpace (hcomment.word b hb)⟩

/-- The words of a comment have 16 bytes. -/
theorem length_cString_unstr16 (label : Fin 4 → Word) :
    (cString (unstr16 label)).length ≤ 16 :=
  (List.takeWhile_prefix _).length_le

/-- The line of a partition. -/
theorem isLine_partitionText (hname : IsName p.name) (hcomment : IsComment p.label) :
    IsLine (partitionText p) where
  char := char_partitionText hname hcomment
  length := by
    have hchars : (cString (unstr4 p.name)).length ≤ 4 := (List.takeWhile_prefix _).length_le
    have hstart : (numeral 8 p.start.toNat).length ≤ 11 := length_numeral le_rfl p.start.isLt
    have hsize : (numeral 8 p.size.toNat).length ≤ 11 := length_numeral le_rfl p.size.isLt
    have hlabel := length_cString_unstr16 p.label
    rw [partitionText_eq]
    simp only [List.length_append, List.length_cons]
    omega

/-- The line of a partition is read as one of the partition table. -/
theorem templateLine_partitionText (hname : IsName p.name) (hcomment : IsComment p.label)
    {s : TemplateState} (hs : s.readingDiskParameters = false) :
    templateLine s (partitionText p ++ [newline]) = partitionLine (partitionText p) s := by
  have hline : (cString (partitionText p ++ [newline])).dropLast = partitionText p :=
    dropLast_cString_concat (fun b hb => (char_partitionText hname hcomment b hb).1) (by decide)
  have hhead : (partitionText p).head? ≠ some 0x23 := by
    intro hhash
    rw [partitionText_eq, List.head?_append] at hhash
    cases hstring : (cString (unstr4 p.name)).head? with
    | none =>
      rw [hstring, Option.none_or, List.head?_cons] at hhash
      exact absurd hhash (by decide)
    | some b =>
      rw [hstring] at hhash
      obtain rfl := Option.some.inj hhash
      exact hname.head (head?_cString hstring)
  have hpartitions : partitionText p ≠ chars "partitions:" := by
    rw [partitionText_eq]
    exact ne_partitions
  simp only [templateLine, hline]
  rw [if_neg hhead, if_neg hpartitions, hs, if_neg Bool.false_ne_true]

/-- A partition with a full name that is printed and read. -/
theorem partitionLine_partitionText {s : TemplateState} (hlt : s.label.nPartitions.toNat < 18)
    (hp : IsPart (capacity s.label) p) (hfull : FullName p.name) :
    partitionLine (partitionText p) s =
      .ok ⟨s.label.addPart ⟨s.label.nPartitions.toNat, hlt⟩ p, s.readingDiskParameters,
        (p.start + p.size).setWidth 64⟩ := by
  have hword (n : ℕ) (tl : List Byte) :
      scanWord ((0x30 :: numeral 8 n) ++ 0x20 :: tl) = (0x30 :: numeral 8 n, 0x20 :: tl) :=
    scanWord_blank isSpace_of_mem_octal (List.cons_ne_nil _ _)
  have hcomment := scanWord_of_forall hp.comment.word
  have hlength : ¬32 ≤ (cString (unstr16 p.label)).length := by
    have := length_cString_unstr16 p.label
    omega
  have hplacement (start : Word) : placement s.label start (0x30 :: numeral 8 p.size.toNat) =
      (start, p.size) := by
    rw [placement, List.head?_cons, if_neg (by decide), ofInt_strtol_octal]
  have htake (bs : List Byte) : (unstr4 p.name ++ bs).take 4 = unstr4 p.name := rfl
  have hdrop (bs : List Byte) : (unstr4 p.name ++ bs).drop 4 = bs := rfl
  rw [partitionText_eq, cString_of_forall hfull]
  simp only [partitionLine]
  rw [dif_pos hlt, htake, hdrop]
  simp only [scanWord_cons_blank, hword, hcomment]
  have hdash : ¬(some (0x30 : Byte) = some 0x2D) := by decide
  rw [if_neg hlength, List.head?_cons, if_neg hdash, ofInt_strtol_octal, hplacement,
    if_neg hp.fits, hp.name.again, hp.comment.again]
  rfl

/-- A line of the partition table adds a full name and leaves the blocks of a cylinder. -/
theorem partitionLine_keeps {line : List Byte} (hline : ∀ b ∈ line, b ≠ 0)
    (hlength : 4 ≤ line.length) {s s' : TemplateState} (hs' : partitionLine line s = .ok s')
    (hnames : ∀ i : Fin 18, i.val < s.label.nPartitions.toNat → FullName (s.label.parts i).name) :
    s'.readingDiskParameters = s.readingDiskParameters ∧
      s'.label.nBlocksPerCylinder = s.label.nBlocksPerCylinder ∧
      ∀ i : Fin 18, i.val < s'.label.nPartitions.toNat → FullName (s'.label.parts i).name := by
  obtain ⟨hlt, start, size, comment, -, -, rfl⟩ := exists_of_partitionLine hs'
  refine ⟨rfl, rfl, fun i hi => ?_⟩
  rw [DiskLabelS.toNat_addPart hlt] at hi
  by_cases hnew : i = ⟨s.label.nPartitions.toNat, hlt⟩
  · have hchar (k : ℕ) (hk : k < 4) : ((line.take 4)[k]?).getD 0 ≠ 0 := by
      rw [List.getElem?_take_of_lt hk, List.getElem?_eq_getElem (hk.trans_le hlength),
        Option.getD_some]
      exact hline _ (List.getElem_mem _)
    rw [hnew, DiskLabelS.addPart_self]
    exact of_mem_unstr4 (by decide) (hchar 0 (by decide)) (hchar 1 (by decide))
      (hchar 2 (by decide)) (hchar 3 (by decide))
  · have hne : i.val ≠ s.label.nPartitions.toNat := fun h => hnew (Fin.ext h)
    rw [DiskLabelS.addPart_of_ne _ hnew]
    exact hnames i (by omega)

/-- The line of a partition has at least four characters. -/
theorem length_partitionText (p : PartS) : 4 ≤ (partitionText p).length := by
  rw [partitionText_eq]
  simp only [List.length_append, List.length_cons]
  omega

end Partitions

/-! ### The whole template -/

section Template

/-- The label has all parameters, the blocks of its cylinders are those of its tracks, and
the names of its partitions have four characters. -/
structure RoundTrips (l : DiskLabelS) : Prop where
  cylinders : l.nCylinders ≠ 0
  heads : l.nHeads ≠ 0
  blocksPerTrack : l.nBlocksPerTrack ≠ 0
  microload : l.currentMicroload ≠ 0
  band : l.currentBand ≠ 0
  blocksPerCylinder : l.nBlocksPerCylinder = l.nHeads * l.nBlocksPerTrack
  names : ∀ i : Fin 18, i.val < l.nPartitions.toNat → FullName (l.parts i).name

/-- The partitions of a label. -/
def DiskLabelS.table (l : DiskLabelS) : List PartS :=
  (List.ofFn l.parts).take l.nPartitions.toNat

/-- A partition of a label. -/
theorem DiskLabelS.exists_of_mem_table {p : PartS} (hp : p ∈ l.table) :
    ∃ i : Fin 18, i.val < l.nPartitions.toNat ∧ l.parts i = p := by
  obtain ⟨i, hi, hip⟩ := List.mem_iff_getElem.mp hp
  rw [DiskLabelS.table, List.length_take, List.length_ofFn] at hi
  refine ⟨⟨i, hi.trans_le (Nat.min_le_right _ _)⟩, hi.trans_le (Nat.min_le_left _ _), ?_⟩
  rw [← hip]
  simp only [DiskLabelS.table, List.getElem_take, List.getElem_ofFn]

/-- The lines of a template. -/
theorem isLine_of_mem (h : Sound l) : ∀ line ∈ parameterTexts l ++ [chars "partitions:"] ++
    l.table.map partitionText, IsLine line := by
  intro line hline
  rw [parameterTexts_eq] at hline
  simp only [List.mem_append, List.mem_map, List.mem_singleton] at hline
  obtain (⟨p, hp, rfl⟩ | rfl) | ⟨p, hp, rfl⟩ := hline
  · exact isLine_parameterText (isParameterName_of_mem hp)
      (isParameterValue_of_mem h.toSoundParameters hp)
  · have hall : ((chars "partitions:").all fun b => b ≠ 0 ∧ b ≠ newline) = true := by
      decide
    exact ⟨fun b hb => of_decide_eq_true (List.all_eq_true.mp hall b hb), by decide⟩
  · obtain ⟨i, hi, rfl⟩ := DiskLabelS.exists_of_mem_table hp
    exact isLine_partitionText (h.part i hi).name (h.part i hi).comment

/-- The lines of partitions are read one after the other. -/
theorem foldlM_partitionText {ps : List PartS}
    (h : ∀ p ∈ ps, IsName p.name ∧ IsComment p.label) {s : TemplateState}
    (hs : s.readingDiskParameters = false) :
    ((ps.map partitionText).map (· ++ [newline])).foldlM templateLine s =
      ps.foldlM (fun s p => partitionLine (partitionText p) s) s := by
  induction ps generalizing s with
  | nil => rfl
  | cons p ps ih =>
    obtain ⟨hname, hcomment⟩ := h p List.mem_cons_self
    rw [List.map_cons, List.map_cons, List.foldlM_cons, List.foldlM_cons,
      templateLine_partitionText hname hcomment hs]
    cases hline : partitionLine (partitionText p) s with
    | error e => rfl
    | ok s' =>
      obtain ⟨-, start, size, comment, -, -, rfl⟩ := exists_of_partitionLine hline
      exact ih (fun p' hp' => h p' (List.mem_cons_of_mem p hp')) hs

/-- The template of a label is read: its parameters, the line `partitions:`, and its
partitions. -/
theorem readTemplate_printTemplate (h : Sound l) : readTemplate (printTemplate l) =
    if l.currentMicroload = 0 ∨ l.currentBand = 0 then .error .assert
    else (partitionsLine (emptyLabel.withParameters l) >>= fun s =>
      l.table.foldlM (fun s p => partitionLine (partitionText p) s) s).map TemplateState.label := by
  have htable : ∀ p ∈ l.table, IsName p.name ∧ IsComment p.label := by
    intro p hp
    obtain ⟨i, hi, rfl⟩ := DiskLabelS.exists_of_mem_table hp
    exact ⟨(h.part i hi).name, (h.part i hi).comment⟩
  rw [readTemplate, printTemplate]
  change Except.map _ (((fgetsLines [] (List.flatMap _ (_ ++ l.table.map partitionText))).foldlM
    templateLine templateStart)) = _
  rw [fgetsLines_text (isLine_of_mem h), List.map_append, List.map_append, List.map_singleton,
    List.foldlM_append, List.foldlM_append, parameterTexts_eq, templateStart,
    foldlM_parameterText fun p hp => ⟨isParameterName_of_mem hp,
      isParameterValue_of_mem h.toSoundParameters hp⟩,
    foldlM_setParameter h.toSoundParameters]
  split
  · rfl
  · change Except.map _ (((partitionsLine (emptyLabel.withParameters l) >>= pure) >>= _)) = _
    rw [bind_pure]
    cases hline : partitionsLine (emptyLabel.withParameters l) with
    | error e => rfl
    | ok s =>
      have hreading : s.readingDiskParameters = false := by
        unfold partitionsLine at hline
        split at hline
        · cases hline
        · cases hline
          rfl
      exact congrArg (Except.map _) (foldlM_partitionText htable hreading)

/-- A label with the first partitions of another one. -/
def DiskLabelS.withTable (label l : DiskLabelS) (n : ℕ) : DiskLabelS :=
  { label with
    nPartitions := BitVec.ofNat 32 n
    parts := fun i => if i.val < n then l.parts i else label.parts i }

/-- The next partition. -/
theorem DiskLabelS.addPart_withTable (label l : DiskLabelS) {n : ℕ} (hn : n < 18) :
    (label.withTable l n).addPart ⟨n, hn⟩ (l.parts ⟨n, hn⟩) = label.withTable l (n + 1) := by
  have hcount : BitVec.ofNat 32 n + 1 = BitVec.ofNat 32 (n + 1) := (BitVec.ofNat_add n 1).symm
  have hparts : Function.update (label.withTable l n).parts ⟨n, hn⟩ (l.parts ⟨n, hn⟩) =
      (label.withTable l (n + 1)).parts := by
    funext i
    by_cases hi : i = ⟨n, hn⟩
    · subst hi
      rw [Function.update_self]
      exact (if_pos n.lt_succ_self).symm
    · have hne : i.val ≠ n := fun h => hi (Fin.ext h)
      rw [Function.update_of_ne hi]
      simp only [DiskLabelS.withTable, Nat.lt_succ_iff_lt_or_eq, hne, or_false]
  exact DiskLabelS.ext rfl rfl rfl rfl rfl rfl rfl rfl rfl rfl rfl rfl hcount rfl hparts

/-- The partitions of a label are read one after the other. -/
theorem foldlM_table (h : Sound l)
    (hnames : ∀ i : Fin 18, i.val < l.nPartitions.toNat → FullName (l.parts i).name)
    {label : DiskLabelS} (hlabel : capacity label = capacity l) (hnone : label.nPartitions = 0)
    (nextStart : BitVec 64) {n : ℕ} (hn : n ≤ l.nPartitions.toNat) :
    ∃ next, ((List.ofFn l.parts).take n).foldlM
        (fun s p => partitionLine (partitionText p) s) ⟨label, false, nextStart⟩ =
      .ok ⟨label.withTable l n, false, next⟩ := by
  induction n with
  | zero =>
    have hparts : label.parts = (label.withTable l 0).parts :=
      funext fun i => (if_neg (c := i.val < 0) (t := l.parts i) (Nat.not_lt_zero i.val)).symm
    have hzero : label = label.withTable l 0 :=
      DiskLabelS.ext rfl rfl rfl rfl rfl rfl rfl rfl rfl rfl rfl rfl hnone rfl hparts
    rw [← hzero]
    exact ⟨nextStart, rfl⟩
  | succ n ih =>
    obtain ⟨next, hnext⟩ := ih (n.le_succ.trans hn)
    have hlt : n < 18 := hn.trans h.count
    have hcount : (BitVec.ofNat 32 n).toNat = n := by
      rw [BitVec.toNat_ofNat, Nat.mod_eq_of_lt (by omega)]
    have hindex : (label.withTable l n).nPartitions.toNat < 18 := by
      change (BitVec.ofNat 32 n).toNat < 18
      rwa [hcount]
    have hfin : (⟨(label.withTable l n).nPartitions.toNat, hindex⟩ : Fin 18) = ⟨n, hlt⟩ :=
      Fin.ext hcount
    have hpart : IsPart (capacity (label.withTable l n)) (l.parts ⟨n, hlt⟩) := by
      rw [show capacity (label.withTable l n) = capacity l from hlabel]
      exact h.part ⟨n, hlt⟩ hn
    have hline := partitionLine_partitionText (s := ⟨label.withTable l n, false, next⟩) hindex hpart
      (hnames ⟨n, hlt⟩ hn)
    rw [hfin, DiskLabelS.addPart_withTable] at hline
    have hget : (List.ofFn l.parts)[n]? = some (l.parts ⟨n, hlt⟩) := by
      rw [List.getElem?_ofFn, dif_pos hlt]
    rw [List.take_add_one, hget, Option.toList_some, List.foldlM_append, hnext]
    refine ⟨((l.parts ⟨n, hlt⟩).start + (l.parts ⟨n, hlt⟩).size).setWidth 64, ?_⟩
    change (partitionLine _ _ >>= pure) = _
    rw [bind_pure]
    exact hline

/-- All partitions of a sound label. -/
theorem Sound.withTable (h : Sound l) {label : DiskLabelS}
    (hparts : label.parts = emptyLabel.parts) :
    (label.withTable l l.nPartitions.toNat).parts = l.parts := by
  funext i
  simp only [DiskLabelS.withTable, hparts]
  split
  · rfl
  · rename_i hi
    exact (h.rest i (Nat.le_of_not_lt hi)).symm

/-- The line `partitions:` below the printed parameters. -/
theorem partitionsLine_withParameters (l : DiskLabelS) :
    partitionsLine (emptyLabel.withParameters l) =
      if l.nCylinders = 0 ∨ l.nHeads = 0 ∨ l.nBlocksPerTrack = 0 ∨ l.currentMicroload = 0 ∨
          l.currentBand = 0 then
        .error (.err ⟨"missing disk parameters, please check the template file", []⟩ [])
      else .ok ⟨{ emptyLabel.withParameters l with
        nBlocksPerCylinder := l.nHeads * l.nBlocksPerTrack }, false,
        l.nBlocksPerTrack.setWidth 64⟩ := by
  have hmagic : emptyLabel.magic ≠ 0 := by decide
  have hversion : emptyLabel.version ≠ 0 := by decide
  have hcondition (P : Prop) : (emptyLabel.magic = 0 ∨ emptyLabel.version = 0 ∨ P) ↔ P := by
    rw [or_iff_right hmagic, or_iff_right hversion]
  exact if_congr (hcondition _) rfl rfl

/-- A label that meets the condition comes back. -/
theorem RoundTrips.readTemplate_printTemplate (hl : RoundTrips l) (h : Sound l) :
    readTemplate (printTemplate l) = .ok l := by
  have hzero : ¬(l.nCylinders = 0 ∨ l.nHeads = 0 ∨ l.nBlocksPerTrack = 0 ∨
      l.currentMicroload = 0 ∨ l.currentBand = 0) := by
    simp only [hl.cylinders, hl.heads, hl.blocksPerTrack, hl.microload, hl.band, or_false,
      not_false_eq_true]
  let label : DiskLabelS :=
    { emptyLabel.withParameters l with nBlocksPerCylinder := l.nHeads * l.nBlocksPerTrack }
  have hcapacity : capacity label = capacity l := rfl
  obtain ⟨next, hnext⟩ := foldlM_table h hl.names hcapacity rfl (l.nBlocksPerTrack.setWidth 64)
    le_rfl
  rw [Diskmaker.readTemplate_printTemplate h, if_neg (not_or.mpr ⟨hl.microload, hl.band⟩),
    partitionsLine_withParameters, if_neg hzero]
  refine (congrArg (Except.map TemplateState.label) hnext).trans (congrArg Except.ok ?_)
  exact DiskLabelS.ext h.magic.symm h.version.symm rfl rfl rfl hl.blocksPerCylinder.symm rfl rfl rfl
    rfl rfl h.notUsed.symm (BitVec.ofNat_toNat ..) h.wordsPerPart.symm (h.withTable rfl)

/-- A label that comes back meets the condition. -/
theorem roundTrips_of_readTemplate (h : Sound l) (hl : readTemplate (printTemplate l) = .ok l) :
    RoundTrips l := by
  rw [readTemplate_printTemplate h, partitionsLine_withParameters] at hl
  split at hl
  · cases hl
  split at hl
  · cases hl
  rename_i hzero
  simp only [not_or] at hzero
  obtain ⟨hcylinders, hheads, hblocks, hmicroload, hband⟩ := hzero
  obtain ⟨s, hs, hlabel⟩ := exists_of_map_eq_ok hl
  have hkept := of_foldlM_eq_ok
    (P := fun s : TemplateState => s.label.nBlocksPerCylinder = l.nHeads * l.nBlocksPerTrack ∧
      ∀ i : Fin 18, i.val < s.label.nPartitions.toNat → FullName (s.label.parts i).name)
    (fun p hp s s' hkept hline => by
      obtain ⟨i, hi, rfl⟩ := DiskLabelS.exists_of_mem_table hp
      obtain ⟨-, hblocks, hnames⟩ := partitionLine_keeps
        (fun b hb => (char_partitionText (h.part i hi).name (h.part i hi).comment b hb).1)
        (length_partitionText _) hline hkept.2
      exact ⟨hblocks.trans hkept.1, hnames⟩)
    ⟨rfl, fun i hi => absurd hi (Nat.not_lt_zero _)⟩ hs
  rw [← hlabel] at hkept
  exact ⟨hcylinders, hheads, hblocks, hmicroload, hband, hkept.1, hkept.2⟩

/-- The template that is printed for a label that was read gives back the label if and only
if all parameters are there, the blocks of a cylinder are those of its tracks, and the
names of the partitions have four characters. -/
theorem template_round_trip (file : List Byte) (l : DiskLabelS) (hl : readTemplate file = .ok l) :
    readTemplate (printTemplate l) = .ok l ↔ RoundTrips l :=
  ⟨roundTrips_of_readTemplate (sound_of_readTemplate hl),
    fun hround => hround.readTemplate_printTemplate (sound_of_readTemplate hl)⟩

instance (l : DiskLabelS) : Decidable (RoundTrips l) :=
  decidable_of_iff (l.nCylinders ≠ 0 ∧ l.nHeads ≠ 0 ∧ l.nBlocksPerTrack ≠ 0 ∧
      l.currentMicroload ≠ 0 ∧ l.currentBand ≠ 0 ∧
      l.nBlocksPerCylinder = l.nHeads * l.nBlocksPerTrack ∧
      ∀ i : Fin 18, i.val < l.nPartitions.toNat → FullName (l.parts i).name)
    ⟨fun ⟨h₁, h₂, h₃, h₄, h₅, h₆, h₇⟩ => ⟨h₁, h₂, h₃, h₄, h₅, h₆, h₇⟩,
      fun ⟨h₁, h₂, h₃, h₄, h₅, h₆, h₇⟩ => ⟨h₁, h₂, h₃, h₄, h₅, h₆, h₇⟩⟩

/-- A template of a disk with two partitions. -/
def exampleTemplate (parameters : String) : List Byte :=
  chars "# a disk\ncylinders 815\nheads 19\nblockspertrack 17\n" ++ chars parameters ++
    chars "drive Trident T-300\npack\ncomment\nmcr MCR1\nlod LOD1\npartitions:\n" ++
    chars "MCR1 - 0224 ucode\nLOD1 - c75\n"

/-- A template without other parameters is read, and the label comes back. -/
theorem template_round_trip_example : ∃ l, readTemplate (exampleTemplate "") = .ok l ∧
    RoundTrips l ∧ (readTemplate (printTemplate l) = .ok l ↔ RoundTrips l) := by
  have hread : ((readTemplate (exampleTemplate "")).toOption.any fun l => RoundTrips l) = true := by
    simp only [exampleTemplate, chars, String.reduceToList]
    decide
  cases hl : readTemplate (exampleTemplate "") with
  | error e =>
    rw [hl] at hread
    exact absurd hread Bool.false_ne_true
  | ok l =>
    rw [hl] at hread
    exact ⟨l, rfl, of_decide_eq_true hread, template_round_trip _ l hl⟩

/-- The blocks of a cylinder are not printed, so that a label with other ones does not come
back. -/
theorem not_template_round_trip : ¬∀ file l, readTemplate file = .ok l →
    readTemplate (printTemplate l) = .ok l := by
  intro hall
  have hread : ((readTemplate (exampleTemplate "blockspercylinder 400\n")).toOption.any
      fun l => !decide (RoundTrips l)) = true := by
    simp only [exampleTemplate, chars, String.reduceToList]
    decide
  cases hl : readTemplate (exampleTemplate "blockspercylinder 400\n") with
  | error e =>
    rw [hl] at hread
    exact absurd hread Bool.false_ne_true
  | ok l =>
    have hround := roundTrips_of_readTemplate (sound_of_readTemplate hl) (hall _ l hl)
    rw [hl] at hread
    change (!decide (RoundTrips l)) = true at hread
    rw [decide_eq_true hround] at hread
    exact Bool.false_ne_true hread

end Template

end Diskmaker

end Usim
