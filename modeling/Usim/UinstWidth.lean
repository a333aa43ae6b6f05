import Usim.UinstBuffer

/-!
# The width of an instruction

How long the text of an instruction is follows from its fields and the names of the symbols. What
is printed is made of words, which are plain, with blanks and parentheses.
-/

namespace Usim

open Lib

namespace Udiss

/-- The text that is printed. -/
def text (tab : Symtab) (u : BitVec 64) : List Byte := (pieces tab u).flatten

/-! ### Widths -/

/-- The characters of a name or a number, with a mark behind the number, and a blank. -/
def nameWidth (tab : Symtab) (type : SymType) (val mark : ℕ) : ℕ :=
  match label tab type val with
  | some lbl => lbl.length + 1
  | none => (octal val).length + mark + 1

/-- The characters of `type_field`. -/
def fieldWidth (tab : Symtab) (type : SymType) (u : BitVec 64) (pp ss : ℕ) : ℕ :=
  let val := loadByte u pp ss
  match type with
  | .imem => nameWidth tab type val 0
  | .dmem => nameWidth tab type val 0
  | .amem => if val = 0 then 0 else nameWidth tab type val 2
  | .mmem => if val = 0 then 0 else nameWidth tab type val 2
  | .number => (octal val).length + 1

/-- The characters of `byte_field_out`. -/
def byteFieldWidth (u : BitVec 64) (val : ℕ) (alwaysReflectMrot lengthIsMinusOne : Bool) : ℕ :=
  12 + ((octal (byteLength val lengthIsMinusOne)).length + 1) +
    (octal (byteRotation u val alwaysReflectMrot)).length + 2

/-- The characters of a bit's name and a blank. -/
def flagWidth (u : BitVec 64) (bit width : ℕ) : ℕ := if loadByte u bit 1 = 1 then width + 1 else 0

/-- The characters of `m_source_desc`. -/
def mSourceWidth (tab : Symtab) (u : BitVec 64) : ℕ :=
  if loadByte u 31 1 = 0 then fieldWidth tab .mmem u 26 6
  else (fsourceText (loadByte u 26 5)).length + 1

/-- The characters of `m_dest_desc`. -/
def mDestWidth (tab : Symtab) (u : BitVec 64) : ℕ :=
  fieldWidth tab .mmem u 14 5 +
    if loadByte u 19 5 = 0 then 0 else (fdestText (loadByte u 19 5)).length + 1

/-- The characters of `dest_desc`. -/
def destWidth (tab : Symtab) (u : BitVec 64) : ℕ :=
  if loadByte u 14 11 = 0 then if loadByte u 43 2 = 0 ∧ loadByte u 0 2 = 3 then 7 else 0
  else
    2 + (if loadByte u 25 1 = 0 then mDestWidth tab u else fieldWidth tab .amem u 14 10) +
      (if loadByte u 43 2 = 0 ∧ loadByte u 0 2 = 3 then 3 else 0) + 2

/-- The characters of the miscellaneous function. -/
def mfWidth (u : BitVec 64) : ℕ :=
  if loadByte u 10 2 = 0 then 0 else 3 + (octal (loadByte u 10 2)).length + 1

/-- The characters of the output selector. -/
def outputSelectorWidth : ℕ → ℕ
  | 1 => 0
  | 2 => 29
  | 3 => 28
  | outputSelector => 16 + (octal outputSelector).length + 1

/-- The characters of the Q control. -/
def qWidth : ℕ → ℕ
  | 1 => 13
  | 2 => 14
  | _ => 0

/-- The characters of the carry. -/
def carryWidth (u : BitVec 64) : ℕ :=
  if loadByte u 3 6 = 0o26 then if loadByte u 2 1 = 0 then 18 else 0
  else if loadByte u 2 1 = 1 then 17 else 0

/-- The characters behind the destination of `alu_desc`. -/
def aluRestWidth (tab : Symtab) (u : BitVec 64) : ℕ :=
  (if loadByte u 3 6 = 5 then 0 else (aluFunctionText (loadByte u 3 6)).length + 1) +
    carryWidth u + outputSelectorWidth (loadByte u 12 2) + qWidth (loadByte u 0 2) +
    mSourceWidth tab u + fieldWidth tab .amem u 32 10 + mfWidth u + flagWidth u 45 5

/-- The characters of `type_jump_condition`. -/
def jumpWidth (number : ℕ) : ℕ :=
  let xct := if 0o200 &&& number = 0 then 9 else 0
  (jumpText number).length +
    (if 0o40 &&& number = 0 then
      8 + (if 0o100 &&& number = 0 then 3 else 5) + xct + 15 +
        (octal (32 - (0o37 &&& number))).length + 1
    else if jumpCondition number = "T" then
      xct + 16 + (octal (0o7 &&& number)).length + if 0o100 &&& number = 0 then 10 else 0
    else
      (if jumpCondition number = "NIL" then 0 else (chars (jumpCondition number)).length) + xct) +
    1

/-- The characters of `jmp_desc`. -/
def jmpWidth (tab : Symtab) (u : BitVec 64) : ℕ :=
  jumpWidth (loadByte u 0 10) + mSourceWidth tab u + fieldWidth tab .amem u 32 10 +
    fieldWidth tab .imem u 12 14 + mfWidth u + flagWidth u 45 5

/-- The characters of the map. -/
def mapWidth : ℕ → ℕ
  | 1 => 7
  | 2 => 7
  | 3 => 19
  | _ => 0

/-- The characters of `dsp_desc`. -/
def dspWidth (tab : Symtab) (u : BitVec 64) : ℕ :=
  9 + (if loadByte u 32 10 = 0 then 0 else 2 + fieldWidth tab .number u 32 10 + 2) +
    byteFieldWidth u (loadByte u 0 8) true false + mSourceWidth tab u +
    fieldWidth tab .dmem u 12 11 + flagWidth u 25 16 + flagWidth u 24 6 +
    mapWidth (loadByte u 8 2) + mfWidth u + flagWidth u 45 5

/-- The characters of the byte operation. -/
def byteOperationWidth : ℕ → ℕ
  | 1 => 4
  | 2 => 18
  | 3 => 4
  | byteOperation => 15 + (octal byteOperation).length + 1

/-- The characters behind the destination of `byt_desc`. -/
def bytRestWidth (tab : Symtab) (u : BitVec 64) : ℕ :=
  byteOperationWidth (loadByte u 12 2) + byteFieldWidth u (loadByte u 0 10) false true +
    mSourceWidth tab u + fieldWidth tab .amem u 32 10 + mfWidth u + flagWidth u 45 5

/-- The characters of all fields, with the outer parentheses. -/
def width (tab : Symtab) (u : BitVec 64) : ℕ :=
  1 + flagWidth u 42 15 +
    (match loadByte u 43 2 with
      | 0 => destWidth tab u + aluRestWidth tab u
      | 1 => jmpWidth tab u
      | 2 => dspWidth tab u
      | _ => destWidth tab u + bytRestWidth tab u) +
    flagWidth u 46 8 + flagWidth u 47 6 + 1

/-! ### Plain names -/

/-- A word without parentheses. -/
def Plain (w : List Byte) : Prop :=
  w ≠ [] ∧ ∀ b ∈ w, b ≠ 0 ∧ b ≠ blank ∧ b ≠ openParen ∧ b ≠ closeParen

/-- All names of symbols are plain. -/
def PlainNames (tab : Symtab) : Prop := ∀ s ∈ tab.symbols, Plain s.name

/-- A letter, a digit or a mark, but no parenthesis. -/
def plainChar (c : Char) : Bool := 0x29 < c.toNat && c.toNat < 0x80

/-- A plain text. -/
theorem plain_chars {l : List Char} (h : (!l.isEmpty && l.all plainChar) = true) :
    Plain (chars (String.ofList l)) := by
  obtain ⟨hne, hall⟩ := Bool.and_eq_true_iff.mp h
  have hne : l ≠ [] := by simpa using hne
  constructor
  · rw [chars_ofList]
    exact fun hnil => hne (List.map_eq_nil_iff.mp hnil)
  · apply forall_chars
    intro c hc
    have hchar := List.all_eq_true.mp hall c hc
    rw [plainChar, Bool.and_eq_true_iff, decide_eq_true_iff, decide_eq_true_iff] at hchar
    have hvalue : (BitVec.ofNat 8 c.toNat).toNat = c.toNat := by
      rw [BitVec.toNat_ofNat]
      omega
    have hother (b : Byte) (hb : b.toNat ≤ 0x29) : BitVec.ofNat 8 c.toNat ≠ b := by
      rintro rfl
      omega
    exact ⟨hother _ (by decide), hother _ (by decide), hother _ (by decide), hother _ (by decide)⟩

/-- A number is plain. -/
theorem plain_octal (n : ℕ) : Plain (octal n) := by
  refine ⟨numeral_ne_nil, fun b hb => ?_⟩
  have hdigit := toNat_of_mem_numeral (by decide) (by decide) hb
  have hother (b' : Byte) (hb' : b'.toNat < 0x30) : b ≠ b' := by
    rintro rfl
    omega
  exact ⟨hother _ (by decide), hother _ (by decide), hother _ (by decide), hother _ (by decide)⟩

theorem Plain.append {w w' : List Byte} (h : Plain w) (h' : Plain w') : Plain (w ++ w') := by
  refine ⟨fun hnil => h.1 (List.append_eq_nil_iff.mp hnil).1, fun b hb => ?_⟩
  obtain hb | hb := List.mem_append.mp hb
  · exact h.2 b hb
  · exact h'.2 b hb

theorem Plain.ne_zero {w : List Byte} (h : Plain w) : ∀ b ∈ w, b ≠ 0 := fun b hb => (h.2 b hb).1

theorem plain_fsourceText (fsource : ℕ) : Plain (fsourceText fsource) := by
  unfold fsourceText
  split
  case h_15 => exact (plain_chars rfl).append (plain_octal fsource)
  all_goals exact plain_chars rfl

theorem plain_fdestText (fdest : ℕ) : Plain (fdestText fdest) := by
  unfold fdestText
  split
  case h_18 => exact (plain_chars rfl).append (plain_octal fdest)
  all_goals exact plain_chars rfl

theorem plain_aluFunctionText (aluFunction : ℕ) : Plain (aluFunctionText aluFunction) := by
  unfold aluFunctionText
  split
  case h_24 => exact (plain_chars rfl).append (plain_octal aluFunction)
  all_goals exact plain_chars rfl

theorem plain_jumpText (number : ℕ) : Plain (jumpText number) := by
  unfold jumpText
  split <;> exact plain_chars rfl

theorem plain_jumpCondition (number : ℕ) : Plain (chars (jumpCondition number)) := by
  unfold jumpCondition jumpConditionText
  split <;> exact plain_chars rfl

/-! ### What has which width -/

/-- What is printed has some width and no end of a string. -/
structure Sized (ps : List (List Byte)) (n : ℕ) : Prop where
  ne_zero : ∀ b ∈ ps.flatten, b ≠ 0
  length : ps.flatten.length = n

namespace Sized

variable {ps qs : List (List Byte)} {n m : ℕ} {w : List Byte}

theorem nil : Sized [] 0 := ⟨fun _ hb => (nomatch hb), rfl⟩

theorem append (hps : Sized ps n) (hqs : Sized qs m) : Sized (ps ++ qs) (n + m) := by
  constructor
  · intro b hb
    rw [List.flatten_append, List.mem_append] at hb
    obtain hb | hb := hb
    · exact hps.ne_zero b hb
    · exact hqs.ne_zero b hb
  · rw [List.flatten_append, List.length_append, hps.length, hqs.length]

theorem single (h : ∀ b ∈ w, b ≠ 0) : Sized [w] w.length := by
  constructor
  · rwa [List.flatten_singleton]
  · rw [List.flatten_singleton]

/-- A text is printed. -/
theorem text {l : List Char} (h : (l.all fun c => 0 < c.toNat && c.toNat < 0x80) = true) :
    Sized [chars (String.ofList l)] l.length := by
  rw [← length_chars l]
  apply single
  apply forall_chars
  intro c hc hzero
  have hchar := List.all_eq_true.mp h c hc
  rw [Bool.and_eq_true_iff, decide_eq_true_iff, decide_eq_true_iff] at hchar
  have hvalue := congrArg BitVec.toNat hzero
  rw [BitVec.toNat_ofNat] at hvalue
  change c.toNat % 2 ^ 8 = 0 at hvalue
  omega

theorem sp (h : ∀ b ∈ w, b ≠ 0) : Sized (prin1sp w) (w.length + 1) := (single h).append (text rfl)

/-- A text is printed with a blank. -/
theorem textSp {l : List Char} (h : (l.all fun c => 0 < c.toNat && c.toNat < 0x80) = true) :
    Sized (prin1sp (chars (String.ofList l))) (l.length + 1) := (text h).append (text rfl)

theorem ite {c : Prop} [Decidable c] (hps : Sized ps n) (hqs : Sized qs m) :
    Sized (if c then ps else qs) (if c then n else m) := by
  by_cases h : c
  · rwa [if_pos h, if_pos h]
  · rwa [if_neg h, if_neg h]

end Sized

variable {tab : Symtab} {u : BitVec 64}

/-- The name of a symbol comes from a string. -/
theorem label_ne_zero {type : SymType} {val : ℕ} {lbl : List Byte}
    (h : label tab type val = some lbl) : ∀ b ∈ lbl, b ≠ 0 := by
  obtain ⟨p, -, rfl⟩ := Option.map_eq_some_iff.mp h
  exact fun b hb => ne_zero_of_mem_cString hb

theorem sized_cOrDAdrOut (type : SymType) (val : ℕ) :
    Sized (cOrDAdrOut tab type val) (nameWidth tab type val 0) := by
  unfold cOrDAdrOut nameWidth
  cases hlabel : label tab type val with
  | some lbl => exact .sp (label_ne_zero hlabel)
  | none => exact .sp (plain_octal val).ne_zero

/-- A number with a mark. -/
theorem plain_marked (val : ℕ) (type : SymType) :
    Plain (octal val ++ chars (if type = .amem then "@A" else "@M")) := by
  apply (plain_octal val).append
  split <;> exact plain_chars rfl

theorem sized_aOrMAdrOut (type : SymType) (val : ℕ) :
    Sized (aOrMAdrOut tab type val) (if val = 0 then 0 else nameWidth tab type val 2) := by
  unfold aOrMAdrOut nameWidth
  refine Sized.nil.ite ?_
  cases hlabel : label tab type val with
  | some lbl => exact .sp (label_ne_zero hlabel)
  | none =>
    have hmark : (chars (if type = .amem then "@A" else "@M")).length = 2 := by
      split <;> exact length_chars _
    have hsized := Sized.sp (plain_marked val type).ne_zero
    rw [List.length_append, hmark] at hsized
    exact hsized

theorem sized_typeField (type : SymType) (pp ss : ℕ) :
    Sized (typeField tab type u pp ss) (fieldWidth tab type u pp ss) := by
  cases type with
  | imem => exact sized_cOrDAdrOut _ _
  | dmem => exact sized_cOrDAdrOut _ _
  | amem => exact sized_aOrMAdrOut _ _
  | mmem => exact sized_aOrMAdrOut _ _
  | number => exact .sp (plain_octal _).ne_zero

theorem sized_byteFieldOut (val : ℕ) (alwaysReflectMrot lengthIsMinusOne : Bool) :
    Sized (byteFieldOut u val alwaysReflectMrot lengthIsMinusOne)
      (byteFieldWidth u val alwaysReflectMrot lengthIsMinusOne) :=
  (((Sized.text rfl).append (.sp (plain_octal _).ne_zero)).append
    (.single (plain_octal _).ne_zero)).append (.text rfl)

theorem sized_mSourceDesc : Sized (mSourceDesc tab u) (mSourceWidth tab u) :=
  (sized_typeField _ _ _).ite (.sp (plain_fsourceText _).ne_zero)

theorem sized_destDesc : Sized (destDesc tab u) (destWidth tab u) := by
  have hm : Sized (mDestDesc tab u) (mDestWidth tab u) :=
    (sized_typeField _ _ _).append (Sized.nil.ite (.sp (plain_fdestText _).ne_zero))
  have hq : Sized (qDestDesc u) (if loadByte u 43 2 = 0 ∧ loadByte u 0 2 = 3 then 7 else 0) :=
    (Sized.text rfl).ite .nil
  exact hq.ite ((((Sized.text rfl).append (hm.ite (sized_typeField _ _ _))).append
    ((Sized.text rfl).ite .nil)).append (.text rfl))

/-- A bit has a name. -/
theorem sized_flagDesc (bit : ℕ) {l : List Char}
    (h : (l.all fun c => 0 < c.toNat && c.toNat < 0x80) = true) :
    Sized (flagDesc u bit (String.ofList l)) (flagWidth u bit l.length) :=
  (Sized.textSp h).ite .nil

/-- A text and a number. -/
theorem sized_numbered {l : List Char} (h : (!l.isEmpty && l.all plainChar) = true) (n : ℕ) :
    Sized (prin1sp (chars (String.ofList l) ++ octal n)) (l.length + (octal n).length + 1) := by
  have hsized := Sized.sp ((plain_chars h).append (plain_octal n)).ne_zero
  rwa [List.length_append, length_chars] at hsized

theorem sized_mfDesc : Sized (mfDesc u) (mfWidth u) := Sized.nil.ite (sized_numbered rfl _)

theorem sized_outputSelectorDesc (outputSelector : ℕ) :
    Sized (outputSelectorDesc outputSelector) (outputSelectorWidth outputSelector) := by
  match outputSelector with
  | 0 => exact sized_numbered rfl 0
  | 1 => exact .nil
  | 2 => exact .textSp rfl
  | 3 => exact .textSp rfl
  | n + 4 => exact sized_numbered rfl (n + 4)

theorem sized_qDesc (q : ℕ) : Sized (qDesc q) (qWidth q) := by
  match q with
  | 0 => exact .nil
  | 1 => exact .textSp rfl
  | 2 => exact .textSp rfl
  | n + 3 => exact .nil

/-- What `alu_desc` prints behind the destination. -/
def aluRest (tab : Symtab) (u : BitVec 64) : List (List Byte) :=
  (if loadByte u 3 6 = 5 then [] else prin1sp (aluFunctionText (loadByte u 3 6))) ++
    (if loadByte u 3 6 = 0o26 then subCarryDesc u else normalCarryDesc u) ++
    outputSelectorDesc (loadByte u 12 2) ++ qDesc (loadByte u 0 2) ++ mSourceDesc tab u ++
    typeField tab .amem u 32 10 ++ mfDesc u ++ flagDesc u 45 "ILONG"

theorem sized_aluRest : Sized (aluRest tab u) (aluRestWidth tab u) := by
  have hsub : Sized (subCarryDesc u) (if loadByte u 2 1 = 0 then 18 else 0) :=
    (Sized.textSp rfl).ite .nil
  have hnormal : Sized (normalCarryDesc u) (if loadByte u 2 1 = 1 then 17 else 0) :=
    (Sized.textSp rfl).ite .nil
  have hfunction : Sized
      (if loadByte u 3 6 = 5 then [] else prin1sp (aluFunctionText (loadByte u 3 6)))
      (if loadByte u 3 6 = 5 then 0 else (aluFunctionText (loadByte u 3 6)).length + 1) :=
    Sized.nil.ite (.sp (plain_aluFunctionText _).ne_zero)
  exact ((((((hfunction.append (hsub.ite hnormal)).append (sized_outputSelectorDesc _)).append
    (sized_qDesc _)).append sized_mSourceDesc).append (sized_typeField _ _ _)).append
    sized_mfDesc).append (sized_flagDesc 45 rfl)

theorem sized_typeJumpCondition (number : ℕ) :
    Sized (typeJumpCondition number) (jumpWidth number) := by
  have hxct : Sized (xctNext number) (if 0o200 &&& number = 0 then 9 else 0) :=
    (Sized.text rfl).ite .nil
  have hset : Sized [chars (if 0o100 &&& number = 0 then "Set" else "Clear")]
      (if 0o100 &&& number = 0 then 3 else 5) := by
    split
    · exact .text rfl
    · exact .text rfl
  have hbit : Sized
      ([chars "-IF-BIT-"] ++ [chars (if 0o100 &&& number = 0 then "Set" else "Clear")] ++
        xctNext number ++ [chars " (Byte-field 1 "] ++ [octal (32 - (0o37 &&& number))] ++
        [chars ")"])
      (8 + (if 0o100 &&& number = 0 then 3 else 5) + (if 0o200 &&& number = 0 then 9 else 0) +
        15 + (octal (32 - (0o37 &&& number))).length + 1) :=
    (((((Sized.text rfl).append hset).append hxct).append (.text rfl)).append
      (.single (plain_octal _).ne_zero)).append (.text rfl)
  have htrue : Sized
      (xctNext number ++ [chars " JUMP-CONDITION "] ++ [octal (0o7 &&& number)] ++
        if 0o100 &&& number = 0 then [chars "(Inverted)"] else [])
      ((if 0o200 &&& number = 0 then 9 else 0) + 16 + (octal (0o7 &&& number)).length +
        if 0o100 &&& number = 0 then 10 else 0) :=
    ((hxct.append (.text rfl)).append (.single (plain_octal _).ne_zero)).append
      ((Sized.text rfl).ite .nil)
  have hother : Sized
      ((if jumpCondition number = "NIL" then [] else [chars (jumpCondition number)]) ++
        xctNext number)
      ((if jumpCondition number = "NIL" then 0 else (chars (jumpCondition number)).length) +
        if 0o200 &&& number = 0 then 9 else 0) :=
    (Sized.nil.ite (.single (plain_jumpCondition number).ne_zero)).append hxct
  exact ((Sized.single (plain_jumpText number).ne_zero).append
    (hbit.ite (htrue.ite hother))).append (.text rfl)

theorem sized_jmpDesc : Sized (jmpDesc tab u) (jmpWidth tab u) :=
  (((((sized_typeJumpCondition _).append sized_mSourceDesc).append (sized_typeField _ _ _)).append
    (sized_typeField _ _ _)).append sized_mfDesc).append (sized_flagDesc 45 rfl)

theorem sized_mapDesc (map : ℕ) : Sized (mapDesc map) (mapWidth map) := by
  match map with
  | 0 => exact .nil
  | 1 => exact .textSp rfl
  | 2 => exact .textSp rfl
  | 3 => exact .textSp rfl
  | n + 4 => exact .nil

theorem sized_dspDesc : Sized (dspDesc tab u) (dspWidth tab u) := by
  have hconst : Sized (dspConstDesc tab u) (2 + fieldWidth tab .number u 32 10 + 2) :=
    ((Sized.text rfl).append (sized_typeField _ _ _)).append (.text rfl)
  exact (((((((((Sized.textSp rfl).append (Sized.nil.ite hconst)).append
    (sized_byteFieldOut _ _ _)).append sized_mSourceDesc).append (sized_typeField _ _ _)).append
    (sized_flagDesc 25 rfl)).append (sized_flagDesc 24 rfl)).append (sized_mapDesc _)).append
    sized_mfDesc).append (sized_flagDesc 45 rfl)

theorem sized_byteOperationDesc (byteOperation : ℕ) :
    Sized (byteOperationDesc byteOperation) (byteOperationWidth byteOperation) := by
  match byteOperation with
  | 0 => exact sized_numbered rfl 0
  | 1 => exact .textSp rfl
  | 2 => exact .textSp rfl
  | 3 => exact .textSp rfl
  | n + 4 => exact sized_numbered rfl (n + 4)

/-- What `byt_desc` prints behind the destination. -/
def bytRest (tab : Symtab) (u : BitVec 64) : List (List Byte) :=
  byteOperationDesc (loadByte u 12 2) ++ byteFieldOut u (loadByte u 0 10) false true ++
    mSourceDesc tab u ++ typeField tab .amem u 32 10 ++ mfDesc u ++ flagDesc u 45 "ILONG"

theorem sized_bytRest : Sized (bytRest tab u) (bytRestWidth tab u) :=
  (((((sized_byteOperationDesc _).append (sized_byteFieldOut _ _ _)).append
    sized_mSourceDesc).append (sized_typeField _ _ _)).append sized_mfDesc).append
    (sized_flagDesc 45 rfl)

theorem aluDesc_eq : aluDesc tab u = destDesc tab u ++ aluRest tab u := by
  simp only [aluDesc, aluRest, List.append_assoc]

theorem bytDesc_eq : bytDesc tab u = destDesc tab u ++ bytRest tab u := by
  simp only [bytDesc, bytRest, List.append_assoc]

/-- The width of an instruction is that of its text. -/
theorem sized_pieces (tab : Symtab) (u : BitVec 64) : Sized (pieces tab u) (width tab u) := by
  have hinstruction : Sized
      (match loadByte u 43 2 with
        | 0 => aluDesc tab u
        | 1 => jmpDesc tab u
        | 2 => dspDesc tab u
        | _ => bytDesc tab u)
      (match loadByte u 43 2 with
        | 0 => destWidth tab u + aluRestWidth tab u
        | 1 => jmpWidth tab u
        | 2 => dspWidth tab u
        | _ => destWidth tab u + bytRestWidth tab u) := by
    split
    · rw [aluDesc_eq]
      exact sized_destDesc.append sized_aluRest
    · exact sized_jmpDesc
    · exact sized_dspDesc
    · rw [bytDesc_eq]
      exact sized_destDesc.append sized_bytRest
  exact (((((Sized.text rfl).append (sized_flagDesc 42 rfl)).append hinstruction).append
    (sized_flagDesc 46 rfl)).append (sized_flagDesc 47 rfl)).append (.text rfl)

end Udiss

end Usim
