import Usim.UinstWidth

/-!
# The text of an instruction

If the names of the symbols are plain, what a field prints is read without a change of the open
parentheses and has a blank at its end. The exceptions are a destination without a name, and an
instruction of which nothing is printed.
-/

namespace Usim

open Lib

namespace Udiss

/-! ### Reading what is printed -/

/-- A word may stand there, and nothing waits for a closing parenthesis. -/
def Fresh (b : Behind) : Prop := b = .opening ∨ b = .blankOpening ∨ b = .blank

/-- From one place in a text to another. -/
def Leads (s : Scan) (ps : List (List Byte)) (s' : Scan) : Prop := s.run ps.flatten = some s'

/-- Nothing is printed, or words with a blank at the end. -/
def Field (ps : List (List Byte)) : Prop :=
  ps.flatten = [] ∨ ∀ b d, Fresh b → Leads ⟨b, d⟩ ps ⟨.blank, d⟩

section Leads

variable {s s' s'' : Scan} {ps qs : List (List Byte)} {w : List Byte} {b : Behind} {d : ℕ}

theorem run_append (s : Scan) (t t' : List Byte) :
    s.run (t ++ t') = s.run t >>= fun s' => s'.run t' := List.foldlM_append

theorem Leads.append (hps : Leads s ps s') (hqs : Leads s' qs s'') : Leads s (ps ++ qs) s'' := by
  have hrun : s.run ps.flatten = some s' := hps
  unfold Leads
  rw [List.flatten_append, run_append, hrun]
  exact hqs

theorem Leads.ite {c : Prop} [Decidable c] (hps : Leads s ps s') (hqs : Leads s qs s') :
    Leads s (if c then ps else qs) s' := by
  split
  · exact hps
  · exact hqs

/-- A text that the program contains. -/
theorem run_text (s : Scan) (l : List Char) :
    s.run (chars (String.ofList l)) =
      l.foldlM (fun s c => s.next (BitVec.ofNat 8 c.toNat)) s := by
  rw [chars_ofList, Scan.run, List.foldlM_map]

theorem leads_text {l : List Char}
    (h : l.foldlM (fun s c => s.next (BitVec.ofNat 8 c.toNat)) s = some s') :
    Leads s [chars (String.ofList l)] s' := by
  unfold Leads
  rw [List.flatten_singleton, run_text]
  exact h

/-- One character of a word. -/
theorem next_plain {c : Byte} (h : c ≠ 0 ∧ c ≠ blank ∧ c ≠ openParen ∧ c ≠ closeParen)
    (hb : b ≠ .openingBlanks) : Scan.next ⟨b, d⟩ c = some ⟨.word, d⟩ := by
  obtain ⟨-, hblank, hopen, hclose⟩ := h
  rw [Scan.next, if_neg hblank, if_neg hopen, if_neg hclose, if_neg hb]

/-- A word. -/
theorem Plain.leads (h : Plain w) (hb : b ≠ .openingBlanks) : Leads ⟨b, d⟩ [w] ⟨.word, d⟩ := by
  obtain ⟨hne, hall⟩ := h
  unfold Leads
  rw [List.flatten_singleton, Scan.run]
  induction w generalizing b with
  | nil => exact absurd rfl hne
  | cons c rest ih =>
    rw [List.foldlM_cons, next_plain (hall c List.mem_cons_self) hb]
    change List.foldlM Scan.next ⟨.word, d⟩ rest = _
    by_cases hrest : rest = []
    · rw [hrest]
      rfl
    · apply ih (by decide) hrest
      exact fun b' hb' => hall b' (List.mem_cons_of_mem c hb')

theorem Fresh.ne_openingBlanks (hb : Fresh b) : b ≠ .openingBlanks := by
  obtain rfl | rfl | rfl := hb <;> decide

end Leads

namespace Field

variable {ps qs : List (List Byte)} {w : List Byte}

theorem nil : Field [] := .inl rfl

theorem append (hps : Field ps) (hqs : Field qs) : Field (ps ++ qs) := by
  unfold Field Leads at *
  rw [List.flatten_append]
  obtain hps | hps := hps
  · rwa [hps, List.nil_append]
  · obtain hqs | hqs := hqs
    · rw [hqs, List.append_nil]
      exact .inr hps
    · right
      intro b d hb
      have happend := Leads.append (hps b d hb) (hqs .blank d (.inr (.inr rfl)))
      rwa [Leads, List.flatten_append] at happend

theorem ite {c : Prop} [Decidable c] (hps : Field ps) (hqs : Field qs) :
    Field (if c then ps else qs) := by
  split
  · exact hps
  · exact hqs

/-- A word and a blank. -/
theorem sp (h : Plain w) : Field (prin1sp w) :=
  .inr fun _ _ hb => (h.leads hb.ne_openingBlanks).append (leads_text rfl)

/-- A field is read behind a parenthesis or a blank. -/
theorem fresh (h : Field ps) {b : Behind} (hb : Fresh b) (d : ℕ) :
    ∃ b', Fresh b' ∧ Leads ⟨b, d⟩ ps ⟨b', d⟩ := by
  obtain hnil | hleads := h
  · refine ⟨b, hb, ?_⟩
    rw [Leads, hnil]
    rfl
  · exact ⟨.blank, .inr (.inr rfl), hleads b d hb⟩

end Field

/-! ### The fields -/

section Fields

variable {tab : Symtab} {u : BitVec 64}

/-- A name that is found is the name of a symbol. -/
theorem mem_of_findLoop {memory : SymType} {v : Word} {symbols : List Sym} {closest : Option Sym}
    {p : List Byte × Option Word}
    (h : Symtab.findLoop memory v false symbols closest = some p) :
    ∃ s ∈ symbols, s.name = p.1 := by
  have hclosest (closest : Option Sym) : Symtab.closestResult v false closest = none := by
    cases closest <;> rfl
  induction symbols generalizing closest with
  | nil =>
    rw [Symtab.findLoop, hclosest] at h
    cases h
  | cons s rest ih =>
    have hrest (closest : Option Sym)
        (h : Symtab.findLoop memory v false rest closest = some p) :
        ∃ s' ∈ s :: rest, s'.name = p.1 := by
      obtain ⟨s', hs', hname⟩ := ih h
      exact ⟨s', List.mem_cons_of_mem s hs', hname⟩
    rw [Symtab.findLoop, hclosest] at h
    simp only [Bool.false_eq_true, if_false] at h
    split_ifs at h
    · exact hrest _ h
    · cases h
      exact ⟨s, List.mem_cons_self, rfl⟩
    · exact hrest _ h
    · exact hrest _ h

/-- The name of a value is plain. -/
theorem PlainNames.label (h : PlainNames tab) {type : SymType} {val : ℕ} {lbl : List Byte}
    (hlabel : label tab type val = some lbl) : Plain lbl := by
  obtain ⟨p, hfind, rfl⟩ := Option.map_eq_some_iff.mp hlabel
  obtain ⟨s, hs, hname⟩ := mem_of_findLoop hfind
  rw [← hname, cString_of_forall (h s hs).ne_zero]
  exact h s hs

theorem field_cOrDAdrOut (h : PlainNames tab) (type : SymType) (val : ℕ) :
    Field (cOrDAdrOut tab type val) := by
  unfold cOrDAdrOut
  cases hlabel : Udiss.label tab type val with
  | some lbl => exact .sp (h.label hlabel)
  | none => exact .sp (plain_octal val)

theorem field_aOrMAdrOut (h : PlainNames tab) (type : SymType) (val : ℕ) :
    Field (aOrMAdrOut tab type val) := by
  unfold aOrMAdrOut
  apply Field.nil.ite
  cases hlabel : Udiss.label tab type val with
  | some lbl => exact .sp (h.label hlabel)
  | none => exact .sp (plain_marked val type)

theorem field_typeField (h : PlainNames tab) (type : SymType) (pp ss : ℕ) :
    Field (typeField tab type u pp ss) := by
  cases type with
  | imem => exact field_cOrDAdrOut h _ _
  | dmem => exact field_cOrDAdrOut h _ _
  | amem => exact field_aOrMAdrOut h _ _
  | mmem => exact field_aOrMAdrOut h _ _
  | number => exact .sp (plain_octal _)

theorem field_byteFieldOut (val : ℕ) (alwaysReflectMrot lengthIsMinusOne : Bool) :
    Field (byteFieldOut u val alwaysReflectMrot lengthIsMinusOne) := by
  right
  intro b d hb
  have hopen : Leads ⟨b, d⟩ [chars "(Byte-field "] ⟨.blank, d + 1⟩ := by
    obtain rfl | rfl | rfl := hb <;> exact leads_text rfl
  have hlength : Leads ⟨.blank, d + 1⟩ (prin1sp (octal (byteLength val lengthIsMinusOne)))
      ⟨.blank, d + 1⟩ := ((plain_octal _).leads (by decide)).append (leads_text rfl)
  have hrotation : Leads ⟨.blank, d + 1⟩ [octal (byteRotation u val alwaysReflectMrot)]
      ⟨.word, d + 1⟩ := (plain_octal _).leads (by decide)
  exact ((hopen.append hlength).append hrotation).append (leads_text rfl)

theorem field_mSourceDesc (h : PlainNames tab) : Field (mSourceDesc tab u) :=
  (field_typeField h _ _ _).ite (.sp (plain_fsourceText _))

theorem field_mDestDesc (h : PlainNames tab) : Field (mDestDesc tab u) :=
  (field_typeField h _ _ _).append (Field.nil.ite (.sp (plain_fdestText _)))

/-- A bit has a name. -/
theorem field_flagDesc (bit : ℕ) {l : List Char} (h : (!l.isEmpty && l.all plainChar) = true) :
    Field (flagDesc u bit (String.ofList l)) := (Field.sp (plain_chars h)).ite .nil

theorem field_mfDesc : Field (mfDesc u) :=
  Field.nil.ite (.sp ((plain_chars rfl).append (plain_octal _)))

theorem field_outputSelectorDesc (outputSelector : ℕ) :
    Field (outputSelectorDesc outputSelector) := by
  unfold outputSelectorDesc
  split
  · exact .nil
  · exact .sp (plain_chars rfl)
  · exact .sp (plain_chars rfl)
  · exact .sp ((plain_chars rfl).append (plain_octal _))

theorem field_qDesc (q : ℕ) : Field (qDesc q) := by
  unfold qDesc
  split
  · exact .sp (plain_chars rfl)
  · exact .sp (plain_chars rfl)
  · exact .nil

theorem field_aluRest (h : PlainNames tab) : Field (aluRest tab u) := by
  have hfunction :
      Field (if loadByte u 3 6 = 5 then [] else prin1sp (aluFunctionText (loadByte u 3 6))) :=
    Field.nil.ite (.sp (plain_aluFunctionText _))
  have hsub : Field (subCarryDesc u) := (Field.sp (plain_chars rfl)).ite .nil
  have hnormal : Field (normalCarryDesc u) := (Field.sp (plain_chars rfl)).ite .nil
  exact ((((((hfunction.append (hsub.ite hnormal)).append (field_outputSelectorDesc _)).append
    (field_qDesc _)).append (field_mSourceDesc h)).append (field_typeField h _ _ _)).append
    field_mfDesc).append (field_flagDesc 45 rfl)

theorem field_typeJumpCondition (number : ℕ) : Field (typeJumpCondition number) := by
  right
  intro b d hb
  have hxct : Leads ⟨.word, d⟩ (xctNext number) ⟨.word, d⟩ :=
    ((plain_chars rfl).leads (by decide)).ite rfl
  have hset : Leads ⟨.word, d⟩ [chars (if 0o100 &&& number = 0 then "Set" else "Clear")]
      ⟨.word, d⟩ := by
    split
    · exact (plain_chars rfl).leads (by decide)
    · exact (plain_chars rfl).leads (by decide)
  have hbit : Leads ⟨.word, d⟩
      ([chars "-IF-BIT-"] ++ [chars (if 0o100 &&& number = 0 then "Set" else "Clear")] ++
        xctNext number ++ [chars " (Byte-field 1 "] ++ [octal (32 - (0o37 &&& number))] ++
        [chars ")"])
      ⟨.word, d⟩ := by
    have hif : Leads ⟨.word, d⟩ [chars "-IF-BIT-"] ⟨.word, d⟩ := (plain_chars rfl).leads (by decide)
    have hopen : Leads ⟨.word, d⟩ [chars " (Byte-field 1 "] ⟨.blank, d + 1⟩ := leads_text rfl
    exact ((((hif.append hset).append hxct).append hopen).append
      ((plain_octal _).leads (by decide))).append (leads_text rfl)
  have htrue : Leads ⟨.word, d⟩
      (xctNext number ++ [chars " JUMP-CONDITION "] ++ [octal (0o7 &&& number)] ++
        if 0o100 &&& number = 0 then [chars "(Inverted)"] else [])
      ⟨.word, d⟩ := by
    have hcondition : Leads ⟨.word, d⟩ [chars " JUMP-CONDITION "] ⟨.blank, d⟩ := leads_text rfl
    have hinverted : Leads ⟨.word, d⟩ [chars "(Inverted)"] ⟨.word, d⟩ := leads_text rfl
    exact ((hxct.append hcondition).append ((plain_octal _).leads (by decide))).append
      (hinverted.ite rfl)
  have hother : Leads ⟨.word, d⟩
      ((if jumpCondition number = "NIL" then [] else [chars (jumpCondition number)]) ++
        xctNext number)
      ⟨.word, d⟩ := by
    have hname : Leads ⟨.word, d⟩ [chars (jumpCondition number)] ⟨.word, d⟩ :=
      (plain_jumpCondition number).leads (by decide)
    have hnil : Leads ⟨.word, d⟩ [] ⟨.word, d⟩ := rfl
    exact (hnil.ite hname).append hxct
  exact (((plain_jumpText number).leads hb.ne_openingBlanks).append
    (hbit.ite (htrue.ite hother))).append (leads_text rfl)

theorem field_jmpDesc (h : PlainNames tab) : Field (jmpDesc tab u) :=
  (((((field_typeJumpCondition _).append (field_mSourceDesc h)).append
    (field_typeField h _ _ _)).append (field_typeField h _ _ _)).append field_mfDesc).append
    (field_flagDesc 45 rfl)

/-- A parenthesis is opened behind a blank. -/
theorem leads_open {b : Behind} (hb : Fresh b) (d : ℕ) :
    ∃ b', (b' = .opening ∨ b' = .blankOpening) ∧ Leads ⟨b, d⟩ [chars " ("] ⟨b', d + 1⟩ := by
  obtain rfl | rfl | rfl := hb
  · exact ⟨_, .inl rfl, leads_text rfl⟩
  · exact ⟨_, .inl rfl, leads_text rfl⟩
  · exact ⟨_, .inr rfl, leads_text rfl⟩

theorem fresh_of_open {b : Behind} (hb : b = .opening ∨ b = .blankOpening) : Fresh b := by
  obtain hb | hb := hb
  · exact .inl hb
  · exact .inr (.inl hb)

theorem field_dspConstDesc : Field (dspConstDesc tab u) := by
  right
  intro b d hb
  obtain ⟨b', hb', hopen⟩ := leads_open hb d
  have hnumber : Leads ⟨b', d + 1⟩ (typeField tab .number u 32 10) ⟨.blank, d + 1⟩ :=
    ((plain_octal _).leads (fresh_of_open hb').ne_openingBlanks).append (leads_text rfl)
  exact (hopen.append hnumber).append (leads_text rfl)

theorem field_mapDesc (map : ℕ) : Field (mapDesc map) := by
  unfold mapDesc
  split
  · exact .sp (plain_chars rfl)
  · exact .sp (plain_chars rfl)
  · exact .sp (plain_chars rfl)
  · exact .nil

theorem field_dspDesc (h : PlainNames tab) : Field (dspDesc tab u) :=
  (((((((((Field.sp (plain_chars rfl)).append (Field.nil.ite field_dspConstDesc)).append
    (field_byteFieldOut _ _ _)).append (field_mSourceDesc h)).append
    (field_typeField h _ _ _)).append (field_flagDesc 25 rfl)).append
    (field_flagDesc 24 rfl)).append (field_mapDesc _)).append field_mfDesc).append
    (field_flagDesc 45 rfl)

theorem field_byteOperationDesc (byteOperation : ℕ) : Field (byteOperationDesc byteOperation) := by
  unfold byteOperationDesc
  split
  · exact .sp (plain_chars rfl)
  · exact .sp (plain_chars rfl)
  · exact .sp (plain_chars rfl)
  · exact .sp ((plain_chars rfl).append (plain_octal _))

theorem field_bytRest (h : PlainNames tab) : Field (bytRest tab u) :=
  (((((field_byteOperationDesc _).append (field_byteFieldOut _ _ _)).append
    (field_mSourceDesc h)).append (field_typeField h _ _ _)).append field_mfDesc).append
    (field_flagDesc 45 rfl)

end Fields

/-! ### The destination -/

/-- A destination is printed, and no name is in it. -/
def EmptyDestination (u : BitVec 64) : Prop :=
  (loadByte u 43 2 = 0 ∧ loadByte u 0 2 ≠ 3 ∨ loadByte u 43 2 = 3) ∧ loadByte u 14 10 = 0 ∧
    loadByte u 24 1 = 1

/-- The names of a destination. -/
def destNames (tab : Symtab) (u : BitVec 64) : List (List Byte) :=
  if loadByte u 25 1 = 0 then mDestDesc tab u else aDestDesc tab u

section Destination

variable {tab : Symtab} {u : BitVec 64}

theorem loadByte_eq (w : BitVec 64) (p : ℕ) {s : ℕ} (hs : s < 64) :
    loadByte w p s = w.toNat / 2 ^ p % 2 ^ s := by
  have hpos := Nat.two_pow_pos s
  have hmask : (BitVec.ofNat 64 (2 ^ s - 1)).toNat = 2 ^ s - 1 := by
    have hlt := Nat.pow_lt_pow_right (by decide : 1 < 2) hs
    rw [BitVec.toNat_ofNat, Nat.mod_eq_of_lt]
    omega
  rw [loadByte, BitVec.toNat_and, hmask, Nat.and_two_pow_sub_one_eq_mod, BitVec.toNat_ushiftRight,
    Nat.shiftRight_eq_div_pow]

/-- Something is printed for a number that is not zero. -/
theorem aOrMAdrOut_eq_nil {type : SymType} {val : ℕ} :
    (aOrMAdrOut tab type val).flatten = [] ↔ val = 0 := by
  have hsized : (aOrMAdrOut tab type val).flatten.length = _ := (sized_aOrMAdrOut type val).length
  rw [← List.length_eq_zero_iff, hsized]
  constructor
  · intro hwidth
    by_contra hval
    rw [if_neg hval, nameWidth] at hwidth
    split at hwidth <;> omega
  · exact fun hval => if_pos hval

theorem destNames_eq_nil : (destNames tab u).flatten = [] ↔ loadByte u 14 10 = 0 := by
  have hfield : loadByte u 14 10 = 0 ↔ loadByte u 14 5 = 0 ∧ loadByte u 19 5 = 0 := by
    rw [loadByte_eq u 14 (by decide), loadByte_eq u 14 (by decide), loadByte_eq u 19 (by decide)]
    omega
  have hfdest : (if loadByte u 19 5 = 0 then [] else
      prin1sp (fdestText (loadByte u 19 5))).flatten = [] ↔ loadByte u 19 5 = 0 := by
    split
    · exact iff_of_true rfl ‹_›
    · apply iff_of_false _ ‹_›
      exact fun hnil => (plain_fdestText _).1 (List.append_eq_nil_iff.mp hnil).1
  unfold destNames
  split
  · rw [hfield, mDestDesc, List.flatten_append, List.append_eq_nil_iff, hfdest]
    exact and_congr_left' aOrMAdrOut_eq_nil
  · exact aOrMAdrOut_eq_nil

theorem field_destNames (h : PlainNames tab) : Field (destNames tab u) :=
  (field_mDestDesc h).ite (field_typeField h _ _ _)

/-- A destination that has a name is a field. -/
theorem field_destDesc (h : PlainNames tab)
    (hname : loadByte u 14 11 = 0 ∨ loadByte u 14 10 ≠ 0 ∨
      loadByte u 43 2 = 0 ∧ loadByte u 0 2 = 3) : Field (destDesc tab u) := by
  unfold destDesc
  split
  case isTrue hzero =>
    have hq : Field [chars " (Q-R) "] := by
      right
      intro b d hb
      obtain rfl | rfl | rfl := hb <;> exact leads_text rfl
    exact hq.ite .nil
  case isFalse hzero =>
    have hname := hname.resolve_left hzero
    right
    intro b d hb
    obtain ⟨b₁, hb₁, hopen⟩ := leads_open hb d
    obtain ⟨b₂, hb₂, hnames⟩ := (field_destNames h).fresh (fresh_of_open hb₁) (d + 1)
    have hclose {b : Behind} (hb : b = .blank ∨ b = .word) :
        Leads ⟨b, d + 1⟩ [chars ") "] ⟨.blank, d⟩ := by
      obtain rfl | rfl := hb <;> exact leads_text rfl
    have hq : Leads ⟨b₂, d + 1⟩ [chars "Q-R"] ⟨.word, d + 1⟩ :=
      (plain_chars rfl).leads hb₂.ne_openingBlanks
    by_cases hqr : loadByte u 43 2 = 0 ∧ loadByte u 0 2 = 3
    · rw [destDesc1, if_pos hqr]
      exact ((hopen.append hnames).append hq).append (hclose (.inr rfl))
    · have hne := hname.resolve_right hqr
      have hleads := (field_destNames h).resolve_left fun hnil => hne (destNames_eq_nil.mp hnil)
      rw [destDesc1, if_neg hqr, List.append_nil]
      exact (hopen.append (hleads b₁ (d + 1) (fresh_of_open hb₁))).append (hclose (.inl rfl))

/-- A destination without a name closes the parenthesis before it, or nothing is read behind it. -/
theorem run_emptyDestination (h : EmptyDestination u) :
    Leads ⟨.opening, 1⟩ (destDesc tab u) ⟨.blank, 0⟩ ∧
      Scan.run ⟨.blank, 1⟩ (destDesc tab u).flatten = none := by
  obtain ⟨hclass, hname, hbit⟩ := h
  have hzero : loadByte u 14 11 ≠ 0 := by
    rw [loadByte_eq u _ (by decide)] at hbit hname ⊢
    omega
  have hqr : ¬(loadByte u 43 2 = 0 ∧ loadByte u 0 2 = 3) := by omega
  have hdest : (destDesc tab u).flatten = chars " (" ++ chars ") " := by
    have hnames : (destNames tab u).flatten = [] := destNames_eq_nil.mpr hname
    rw [destDesc, if_neg hzero, destDesc1, if_neg hqr, List.append_nil, List.flatten_append,
      List.flatten_append]
    change _ ++ (destNames tab u).flatten ++ _ = _
    rw [hnames, List.flatten_singleton, List.flatten_singleton, List.append_nil]
  unfold Leads
  rw [hdest, run_append, run_append, run_text, run_text]
  constructor
  · exact run_text ⟨.opening, 2⟩ _
  · exact run_text ⟨.blankOpening, 2⟩ _

end Destination

/-! ### The instruction -/

/-- What is printed for the class of the instruction. -/
def instruction (tab : Symtab) (u : BitVec 64) : List (List Byte) :=
  match loadByte u 43 2 with
  | 0 => aluDesc tab u
  | 1 => jmpDesc tab u
  | 2 => dspDesc tab u
  | _ => bytDesc tab u

/-- What is printed between the parentheses. -/
def body (tab : Symtab) (u : BitVec 64) : List (List Byte) :=
  flagDesc u 42 "POPJ-AFTER-NEXT" ++ instruction tab u ++ flagDesc u 46 "STAT-BIT" ++
    flagDesc u 47 "BIT-47"

section Instruction

variable {tab : Symtab} {u : BitVec 64}

theorem pieces_eq : pieces tab u = [chars "("] ++ body tab u ++ [chars ")"] := by
  change [chars "("] ++ flagDesc u 42 "POPJ-AFTER-NEXT" ++ instruction tab u ++
    flagDesc u 46 "STAT-BIT" ++ flagDesc u 47 "BIT-47" ++ [chars ")"] = _
  simp only [body, List.append_assoc]

theorem text_eq : text tab u = openParen :: (body tab u).flatten ++ [closeParen] := by
  have hopen : chars "(" = [openParen] := chars_ofList ['(']
  have hclose : chars ")" = [closeParen] := chars_ofList [')']
  rw [text, pieces_eq, List.flatten_append, List.flatten_append, List.flatten_singleton,
    List.flatten_singleton, hopen, hclose]
  rfl

/-- Nothing is printed between the parentheses. -/
theorem body_eq_nil : (body tab u).flatten = [] ↔ width tab u = 2 := by
  have hlength := (sized_pieces tab u).length
  change (text tab u).length = _ at hlength
  rw [text_eq, List.length_append, List.length_cons, List.length_singleton] at hlength
  rw [← List.length_eq_zero_iff]
  omega

theorem loadByte_class (u : BitVec 64) :
    loadByte u 43 2 = 0 ∨ loadByte u 43 2 = 1 ∨ loadByte u 43 2 = 2 ∨ loadByte u 43 2 = 3 := by
  rw [loadByte_eq u 43 (by decide)]
  omega

/-- Where a destination is printed, it is printed first. -/
theorem instruction_eq (h : PlainNames tab)
    (hclass : loadByte u 43 2 = 0 ∨ loadByte u 43 2 = 3) :
    ∃ rest, Field rest ∧ instruction tab u = destDesc tab u ++ rest := by
  unfold instruction
  obtain hclass | hclass := hclass
  · refine ⟨aluRest tab u, field_aluRest h, ?_⟩
    rw [hclass]
    exact aluDesc_eq
  · refine ⟨bytRest tab u, field_bytRest h, ?_⟩
    rw [hclass]
    exact bytDesc_eq

/-- All that is printed between the parentheses is a field. -/
theorem field_body (h : PlainNames tab) (hempty : ¬EmptyDestination u) : Field (body tab u) := by
  have hname (hclass : loadByte u 43 2 = 0 ∨ loadByte u 43 2 = 3) :
      loadByte u 14 11 = 0 ∨ loadByte u 14 10 ≠ 0 ∨ loadByte u 43 2 = 0 ∧ loadByte u 0 2 = 3 := by
    have hsplit : loadByte u 14 11 = 0 ↔ loadByte u 14 10 = 0 ∧ ¬loadByte u 24 1 = 1 := by
      rw [loadByte_eq u 14 (by decide), loadByte_eq u 14 (by decide), loadByte_eq u 24 (by decide)]
      omega
    unfold EmptyDestination at hempty
    rw [hsplit]
    omega
  have hdest (hclass : loadByte u 43 2 = 0 ∨ loadByte u 43 2 = 3) : Field (instruction tab u) := by
    obtain ⟨rest, hrest, hinstruction⟩ := instruction_eq h hclass
    rw [hinstruction]
    exact (field_destDesc h (hname hclass)).append hrest
  have hinstruction : Field (instruction tab u) := by
    obtain hclass | hclass | hclass | hclass := loadByte_class u
    · exact hdest (.inl hclass)
    · rw [instruction, hclass]
      exact field_jmpDesc h
    · rw [instruction, hclass]
      exact field_dspDesc h
    · exact hdest (.inr hclass)
  exact (((field_flagDesc 42 rfl).append hinstruction).append (field_flagDesc 46 rfl)).append
    (field_flagDesc 47 rfl)

/-- A destination without a name leaves a parenthesis at the end that was not opened, or nothing
is read behind it. -/
theorem not_strippable (h : PlainNames tab) (hempty : EmptyDestination u) :
    ¬Strippable (text tab u) := by
  obtain ⟨hdest, hnone⟩ : _ ∧ Scan.run ⟨.blank, 1⟩ (destDesc tab u).flatten = none :=
    run_emptyDestination hempty
  obtain ⟨rest, hrest, hinstruction⟩ := instruction_eq h (hempty.1.imp_left And.left)
  have htail : Field (rest ++ flagDesc u 46 "STAT-BIT" ++ flagDesc u 47 "BIT-47") :=
    (hrest.append (field_flagDesc 46 rfl)).append (field_flagDesc 47 rfl)
  have hpieces : pieces tab u =
      [chars "("] ++ flagDesc u 42 "POPJ-AFTER-NEXT" ++ destDesc tab u ++
        (rest ++ flagDesc u 46 "STAT-BIT" ++ flagDesc u 47 "BIT-47") ++ [chars ")"] := by
    rw [pieces_eq, body, hinstruction]
    simp only [List.append_assoc]
  have hopen : Leads ⟨.word, 0⟩ [chars "("] ⟨.opening, 1⟩ := leads_text rfl
  rintro ⟨s, hrun, -⟩
  rw [text, hpieces] at hrun
  by_cases hpopj : loadByte u 42 1 = 1
  · have hflag : Leads ⟨.opening, 1⟩ (flagDesc u 42 "POPJ-AFTER-NEXT") ⟨.blank, 1⟩ := by
      rw [flagDesc, if_pos hpopj]
      exact ((plain_chars rfl).leads (by decide)).append (leads_text rfl)
    have hblank : Scan.run ⟨.word, 0⟩ ([chars "("] ++ flagDesc u 42 "POPJ-AFTER-NEXT").flatten =
        some ⟨.blank, 1⟩ := hopen.append hflag
    rw [List.flatten_append, List.flatten_append, List.flatten_append, List.append_assoc,
      List.append_assoc, run_append, hblank] at hrun
    change Scan.run ⟨.blank, 1⟩ _ = _ at hrun
    rw [run_append, hnone] at hrun
    cases hrun
  · have hflag : Leads ⟨.opening, 1⟩ (flagDesc u 42 "POPJ-AFTER-NEXT") ⟨.opening, 1⟩ := by
      rw [flagDesc, if_neg hpopj]
      rfl
    obtain ⟨b, hb, hfield⟩ := htail.fresh (.inr (.inr rfl)) 0
    have hend : Scan.run ⟨.word, 0⟩ _ = some ⟨b, 0⟩ :=
      ((hopen.append hflag).append hdest).append hfield
    have hclose : Scan.run ⟨b, 0⟩ [chars ")"].flatten = none := by
      rw [List.flatten_singleton]
      obtain rfl | rfl | rfl := hb <;> exact run_text _ [')']
    rw [List.flatten_append, run_append, hend] at hrun
    change Scan.run ⟨b, 0⟩ _ = _ at hrun
    rw [hclose] at hrun
    cases hrun

/-- The text becomes tidy unless the destination has no name or nothing is printed. -/
theorem strippable_iff (h : PlainNames tab) :
    Strippable (text tab u) ↔ ¬EmptyDestination u ∧ width tab u ≠ 2 := by
  constructor
  · intro hstrippable
    refine ⟨fun hempty => not_strippable h hempty hstrippable, fun hwidth => ?_⟩
    obtain ⟨s, hrun, -⟩ := hstrippable
    rw [text_eq, body_eq_nil.mpr hwidth] at hrun
    cases hrun
  · rintro ⟨hempty, hwidth⟩
    have hne : ¬(body tab u).flatten = [] := fun hnil => hwidth (body_eq_nil.mp hnil)
    have hbody := (field_body h hempty).resolve_left hne
    have hopen : Leads ⟨.word, 0⟩ [chars "("] ⟨.opening, 1⟩ := leads_text rfl
    have hclose : Leads ⟨.blank, 1⟩ [chars ")"] ⟨.word, 0⟩ := leads_text rfl
    refine ⟨⟨.word, 0⟩, ?_, rfl, by decide⟩
    rw [text, pieces_eq]
    exact (hopen.append (hbody .opening 1 (.inl rfl))).append hclose

end Instruction

end Udiss

/-! ### What is described -/

open Udiss in
/-- The instruction is described by what is printed, stripped, and that is tidy. -/
structure Describes (d : Udiss) (tab : Symtab) (u : BitVec 64) (desc : List Byte) : Prop where
  returned : ∃ d', d.uinstDesc u (some tab) = .ok (desc, d')
  stripped : ∀ s, BytesAt s 0 (text tab u ++ [0]) →
    ∃ s', uinstStrip s = .ok s' ∧ BytesAt s' 0 (desc ++ [0])
  enclosed : ∃ inner, text tab u = openParen :: inner ++ [closeParen]
  fits : (text tab u).length + 1 ≤ ubufsz
  tidy : Tidy desc

namespace Udiss

variable (d : Udiss) (tab : Symtab) (u : BitVec 64)

-- elaboration would evaluate the text
attribute [local irreducible] pieces in
/-- What is returned is what is printed, stripped. -/
theorem describes_iff :
    (∃ desc, Describes d tab u desc) ↔ width tab u + 1 ≤ ubufsz ∧ Strippable (text tab u) := by
  have hsized := sized_pieces tab u
  constructor
  · rintro ⟨desc, h⟩
    have hfits : (pieces tab u).flatten.length + 1 ≤ ubufsz := h.fits
    rw [← hsized.length, ← tidy_strip_iff]
    refine ⟨hfits, ?_⟩
    obtain ⟨d', hd'⟩ := h.returned
    obtain ⟨d'', hd''⟩ := uinstDesc_of_fits d hsized.ne_zero hfits
    rw [hd''] at hd'
    cases hd'
    exact h.tidy
  · rintro ⟨hfits, hstrippable⟩
    rw [← hsized.length] at hfits
    refine ⟨strip (text tab u), uinstDesc_of_fits d hsized.ne_zero hfits, ?_, ⟨_, text_eq⟩, hfits,
      (tidy_strip_iff _).mpr hstrippable⟩
    intro s hs
    have hout : BytesAt s 0 [] := trivial
    exact stripLoop_eq hs hsized.ne_zero hout rfl (Nat.le_refl 0) hfits

/-- An instruction is described if and only if it fits into the buffer and its text becomes tidy,
which it does, if the names are plain, unless its destination has no name or nothing is printed. -/
theorem disassembly :
    ((∃ desc, Describes d tab u desc) ↔
      width tab u + 1 ≤ ubufsz ∧ Strippable (text tab u)) ∧
    (PlainNames tab → (Strippable (text tab u) ↔ ¬EmptyDestination u ∧ width tab u ≠ 2)) :=
  ⟨describes_iff d tab u, strippable_iff⟩

/-- An instruction that does nothing is described by one parenthesis, and another one is written
behind the buffer. -/
theorem not_describes :
    ¬(∃ desc, Describes ⟨fun _ => 0, 0, ⟨0, []⟩⟩ ⟨0, []⟩ 0o10050 desc) ∧
      ¬∃ desc, Describes ⟨fun _ => 0, 0, ⟨0, []⟩⟩ ⟨0, []⟩ 0o7177766023766776 desc := by
  have hplain : PlainNames ⟨0, []⟩ := fun _ hs => absurd hs List.not_mem_nil
  have hnothing : width ⟨0, []⟩ 0o10050 = 2 := by decide
  have hwide : width ⟨0, []⟩ 0o7177766023766776 = 193 := by decide
  rw [describes_iff, describes_iff, strippable_iff hplain, hnothing, hwide]
  constructor
  · exact fun h => h.2.2 rfl
  · exact fun h => absurd h.1 (by decide)

end Udiss

end Usim
