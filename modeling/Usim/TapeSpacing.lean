import Usim.TapeController
import Usim.TapeFormat

/-!
# Spacing over records

What SPACE FORWARD and SPACE REVERSE do on a well-formed image, from a boundary
between two items.
-/

namespace Usim

open Lib

/-- The records that spacing forward over `n` records is to pass, from a position on: it
ends before a mark, and with a record that reaches the end-of-tape marker. -/
def recordsAhead (eotpos : ℤ) : ℕ → ℕ → List TapeItem → List TapeItem
  | n + 1, pos, .record r :: rest =>
    .record r :: (if eotpos ≤ (pos + (r.val.length + 8) : ℕ) then []
      else recordsAhead eotpos n (pos + (r.val.length + 8)) rest)
  | _, _, _ => []

/-- There is a record to pass; the records to pass are the number asked for, or a mark or
the end-of-tape marker ends them; and four bytes of tape follow them. -/
structure ClearAhead (eotpos : ℤ) (mmsz n pos : ℕ) (rest : List TapeItem) : Prop where
  /-- The tape does not stand before a mark. -/
  ne_nil : recordsAhead eotpos n pos rest ≠ []
  /-- What ends the records to pass. -/
  stop : (recordsAhead eotpos n pos rest).length = n ∨
    (∃ rest', rest = recordsAhead eotpos n pos rest ++ .mark :: rest') ∨
    eotpos ≤ (pos + tapeSize (recordsAhead eotpos n pos rest) : ℕ)
  /-- The word looked at behind them. -/
  word_le : pos + tapeSize (recordsAhead eotpos n pos rest) + 4 ≤ mmsz

/-- Spacing forward over `n` records, between the items `pre` and `rest`, is to end at one
of these boundaries. -/
inductive ForwardStop (n : ℕ) (pre rest : List TapeItem) (t : TapeUnit) : Prop where
  /-- After exactly `n` records. -/
  | count (passed rest' : List TapeItem) (h : rest = passed ++ rest')
      (hrecords : ∀ i ∈ passed, i.IsRecord) (hcount : passed.length = n)
      (hpos : t.drive.pos = tapeSize (pre ++ passed)) (heof : t.mts.eof = false)
  /-- After the first mark. -/
  | mark (passed rest' : List TapeItem) (h : rest = passed ++ .mark :: rest')
      (hrecords : ∀ i ∈ passed, i.IsRecord) (hcount : passed.length ≤ n)
      (hpos : t.drive.pos = tapeSize (pre ++ passed ++ [.mark])) (heof : t.mts.eof = true)
  /-- After a record that reaches the end-of-tape marker. -/
  | endOfTape (passed rest' : List TapeItem) (h : rest = passed ++ rest')
      (hrecords : ∀ i ∈ passed, i.IsRecord) (hne : passed ≠ []) (hcount : passed.length ≤ n)
      (hpos : t.drive.pos = tapeSize (pre ++ passed)) (heof : t.mts.eof = false)
      (heot : t.mts.eot = true)

variable {n : ℕ} {pre rest : List TapeItem} {r : TapeRecord} {t : TapeUnit}

/-- Where the tape stops is told by its position and the status register. -/
theorem ForwardStop.congr {t' : TapeUnit} (h : ForwardStop n pre rest t)
    (hpos : t'.drive.pos = t.drive.pos) (hmts : t'.mts = t.mts) : ForwardStop n pre rest t' := by
  obtain ⟨passed, rest', hrest, hrecords, hcount, hend, heof⟩ |
    ⟨passed, rest', hrest, hrecords, hcount, hend, heof⟩ |
    ⟨passed, rest', hrest, hrecords, hne, hcount, hend, heof, heot⟩ := h
  · exact .count passed rest' hrest hrecords hcount (hpos.trans hend) (hmts ▸ heof)
  · exact .mark passed rest' hrest hrecords hcount (hpos.trans hend) (hmts ▸ heof)
  · exact .endOfTape passed rest' hrest hrecords hne hcount (hpos.trans hend) (hmts ▸ heof)
      (hmts ▸ heot)

/-- Nothing can be passed behind the last item. -/
theorem not_forwardStop_nil : ¬ForwardStop (n + 1) pre [] t := by
  rintro (⟨passed, rest', h, -, hcount, -, -⟩ | ⟨passed, rest', h, -, -, -, -⟩ |
    ⟨passed, rest', h, -, hne, -, -, -, -⟩)
  · cases passed with
    | nil => cases hcount
    | cons i passed => cases h
  · cases passed <;> cases h
  · cases passed with
    | nil => exact hne rfl
    | cons i passed => cases h

/-- Before a mark, only the mark can be passed. -/
theorem forwardStop_mark_iff :
    ForwardStop (n + 1) pre (.mark :: rest) t ↔
      t.drive.pos = tapeSize (pre ++ [.mark]) ∧ t.mts.eof = true := by
  constructor
  · rintro (⟨passed, rest', h, hrecords, hcount, -, -⟩ |
      ⟨passed, rest', h, hrecords, -, hpos, heof⟩ |
      ⟨passed, rest', h, hrecords, hne, -, -, -, -⟩)
    · cases passed with
      | nil => cases hcount
      | cons i passed =>
        cases h
        exact absurd (hrecords .mark List.mem_cons_self) id
    · cases passed with
      | nil =>
        rw [List.append_nil] at hpos
        exact ⟨hpos, heof⟩
      | cons i passed =>
        cases h
        exact absurd (hrecords .mark List.mem_cons_self) id
    · cases passed with
      | nil => exact absurd rfl hne
      | cons i passed =>
        cases h
        exact absurd (hrecords .mark List.mem_cons_self) id
  · rintro ⟨hpos, heof⟩
    refine .mark [] rest rfl (fun i hi => absurd hi List.not_mem_nil) (Nat.zero_le _) ?_ heof
    rwa [List.append_nil]

/-- A record is passed, and the mark behind it. -/
theorem ForwardStop.record_mark (hpos : t.drive.pos = tapeSize (pre ++ [.record r, .mark]))
    (heof : t.mts.eof = true) :
    ForwardStop (n + 1) pre (.record r :: .mark :: rest) t := by
  refine .mark [.record r] rest rfl (List.forall_mem_singleton.mpr trivial) (Nat.succ_pos n) ?_ heof
  rwa [List.append_assoc]

/-- One record is passed, and reaches the marker unless it is the only one asked for. -/
theorem ForwardStop.record (hpos : t.drive.pos = tapeSize (pre ++ [.record r]))
    (heof : t.mts.eof = false) (hend : n = 0 ∨ t.mts.eot = true) :
    ForwardStop (n + 1) pre (.record r :: rest) t := by
  have hrecords : ∀ i ∈ [TapeItem.record r], i.IsRecord := List.forall_mem_singleton.mpr trivial
  rcases hend with rfl | heot
  · exact .count [.record r] rest rfl hrecords rfl hpos heof
  · exact .endOfTape [.record r] rest rfl hrecords (List.cons_ne_nil _ _) (Nat.succ_pos n) hpos heof
      heot

/-- Over the first record. -/
theorem ForwardStop.cons (h : ForwardStop n (pre ++ [.record r]) rest t) :
    ForwardStop (n + 1) pre (.record r :: rest) t := by
  have hassoc (passed : List TapeItem) :
      pre ++ [.record r] ++ passed = pre ++ .record r :: passed :=
    List.append_assoc _ _ _
  have hrecord {passed : List TapeItem} (hrecords : ∀ i ∈ passed, i.IsRecord) :
      ∀ i ∈ .record r :: passed, i.IsRecord := List.forall_mem_cons.mpr ⟨trivial, hrecords⟩
  obtain ⟨passed, rest', hrest, hrecords, hcount, hpos, heof⟩ |
    ⟨passed, rest', hrest, hrecords, hcount, hpos, heof⟩ |
    ⟨passed, rest', hrest, hrecords, hne, hcount, hpos, heof, heot⟩ := h
  · rw [hassoc] at hpos
    exact .count (.record r :: passed) rest' (congrArg _ hrest) (hrecord hrecords)
      (congrArg (· + 1) hcount) hpos heof
  · rw [hassoc] at hpos
    exact .mark (.record r :: passed) rest' (congrArg _ hrest) (hrecord hrecords)
      (Nat.succ_le_succ hcount) hpos heof
  · rw [hassoc] at hpos
    exact .endOfTape (.record r :: passed) rest' (congrArg _ hrest) (hrecord hrecords)
      (List.cons_ne_nil _ _) (Nat.succ_le_succ hcount) hpos heof heot

/-- After the first record, unless the tape stops there. -/
theorem ForwardStop.tail (h : ForwardStop (n + 1) pre (.record r :: rest) t)
    (hne : t.drive.pos ≠ tapeSize (pre ++ [.record r]) ∨ t.mts.eot = false) :
    ForwardStop n (pre ++ [.record r]) rest t := by
  have hassoc (passed : List TapeItem) :
      pre ++ [.record r] ++ passed = pre ++ .record r :: passed :=
    List.append_assoc _ _ _
  obtain ⟨passed, rest', hrest, hrecords, hcount, hpos, heof⟩ |
    ⟨passed, rest', hrest, hrecords, hcount, hpos, heof⟩ |
    ⟨passed, rest', hrest, hrecords, hne', hcount, hpos, heof, heot⟩ := h
  · cases passed with
    | nil => cases hcount
    | cons i passed =>
      cases hrest
      rw [← hassoc] at hpos
      exact .count passed rest' rfl (List.forall_mem_cons.mp hrecords).2 (Nat.succ.inj hcount) hpos
        heof
  · cases passed with
    | nil => cases hrest
    | cons i passed =>
      cases hrest
      rw [← hassoc] at hpos
      exact .mark passed rest' rfl (List.forall_mem_cons.mp hrecords).2
        (Nat.le_of_succ_le_succ hcount)
        hpos heof
  · cases passed with
    | nil => exact absurd rfl hne'
    | cons i passed =>
      cases hrest
      cases passed with
      | nil =>
        rcases hne with hne | hne
        · exact absurd hpos hne
        · rw [heot] at hne
          cases hne
      | cons i' passed =>
        rw [← hassoc] at hpos
        exact .endOfTape (i' :: passed) rest' rfl (List.forall_mem_cons.mp hrecords).2
          (List.cons_ne_nil _ _) (Nat.le_of_succ_le_succ hcount) hpos heof heot

/-- The only record in front is followed by nothing else to pass. -/
theorem ForwardStop.pos_singleton (h : ForwardStop n pre [.record r] t) :
    t.drive.pos = tapeSize pre ∨ t.drive.pos = tapeSize (pre ++ [.record r]) := by
  have hsplit {passed rest' : List TapeItem} (hrest : [.record r] = passed ++ rest')
      (hpos : t.drive.pos = tapeSize (pre ++ passed)) :
      t.drive.pos = tapeSize pre ∨ t.drive.pos = tapeSize (pre ++ [.record r]) := by
    rcases List.append_eq_singleton_iff.mp hrest.symm with ⟨rfl, -⟩ | ⟨rfl, -⟩
    · rw [List.append_nil] at hpos
      exact Or.inl hpos
    · exact Or.inr hpos
  obtain ⟨passed, rest', hrest, -, -, hpos, -⟩ | ⟨passed, rest', hrest, -, -, -, -⟩ |
    ⟨passed, rest', hrest, -, -, -, hpos, -, -⟩ := h
  · exact hsplit hrest hpos
  · rcases List.append_eq_singleton_iff.mp hrest.symm with ⟨-, h⟩ | ⟨-, h⟩ <;> cases h
  · exact hsplit hrest hpos

/-- Nothing is to be passed before a mark. -/
theorem recordsAhead_mark (eotpos : ℤ) (n pos : ℕ) (rest : List TapeItem) :
    recordsAhead eotpos n pos (.mark :: rest) = [] := by
  cases n <;> rfl

/-- Nothing is to be passed behind the last item. -/
theorem recordsAhead_nil (eotpos : ℤ) (n pos : ℕ) : recordsAhead eotpos n pos [] = [] := by
  cases n <;> rfl

/-- The first record is the only one to pass. -/
theorem recordsAhead_single {eotpos : ℤ} {pos : ℕ}
    (hend : eotpos ≤ (pos + (r.val.length + 8) : ℕ) ∨ n = 0 ∨ rest = [] ∨
      ∃ rest', rest = .mark :: rest') :
    recordsAhead eotpos (n + 1) pos (.record r :: rest) = [.record r] := by
  rw [recordsAhead]
  split
  · rfl
  · rename_i hgo
    rcases hend.resolve_left hgo with rfl | rfl | ⟨rest', rfl⟩
    · rfl
    · rw [recordsAhead_nil]
    · rw [recordsAhead_mark]

/-- The way over the first record, if it is the only one to pass. -/
theorem clearAhead_single {eotpos : ℤ} {mmsz pos : ℕ}
    (hend : eotpos ≤ (pos + (r.val.length + 8) : ℕ) ∨ n = 0 ∨ ∃ rest', rest = .mark :: rest')
    (hroom : pos + (r.val.length + 8) + 4 ≤ mmsz) :
    ClearAhead eotpos mmsz (n + 1) pos (.record r :: rest) := by
  have hahead := recordsAhead_single (hend.imp_right (Or.imp_right Or.inr))
  refine ⟨?_, ?_, ?_⟩
  · rw [hahead]
    exact List.cons_ne_nil _ _
  · rw [hahead, tapeSize_record, tapeSize_nil]
    rcases hend with heot | rfl | ⟨rest', rfl⟩
    · exact Or.inr (Or.inr heot)
    · exact Or.inl rfl
    · exact Or.inr (Or.inl ⟨rest', rfl⟩)
  · rw [hahead, tapeSize_record, tapeSize_nil]
    omega

/-- Over the first record, if the tape does not stop there. -/
theorem clearAhead_cons {eotpos : ℤ} {mmsz pos : ℕ} (hn : n ≠ 0)
    (heot : ¬eotpos ≤ (pos + (r.val.length + 8) : ℕ)) (hrest : ¬∃ rest', rest = .mark :: rest') :
    ClearAhead eotpos mmsz (n + 1) pos (.record r :: rest) ↔
      ClearAhead eotpos mmsz n (pos + (r.val.length + 8)) rest := by
  have hahead : recordsAhead eotpos (n + 1) pos (.record r :: rest) =
      .record r :: recordsAhead eotpos n (pos + (r.val.length + 8)) rest := by
    rw [recordsAhead, if_neg heot]
  have hsize (items : List TapeItem) : pos + tapeSize (.record r :: items) =
      pos + (r.val.length + 8) + tapeSize items := by
    rw [tapeSize_record]
    omega
  constructor
  · rintro ⟨-, hstop, hword⟩
    rw [hahead, hsize] at hword
    rw [hahead, hsize, List.length_cons] at hstop
    have hstop' := hstop.imp Nat.succ.inj
      (Or.imp_left (Exists.imp fun rest' h => (List.cons_eq_cons.mp h).2))
    refine ⟨fun hnil => ?_, hstop', hword⟩
    rw [hnil, tapeSize_nil, Nat.add_zero] at hstop'
    rcases hstop' with hcount | hmark | hend
    · exact hn hcount.symm
    · exact hrest hmark
    · exact heot hend
  · rintro ⟨-, hstop, hword⟩
    refine ⟨?_, ?_, ?_⟩
    · rw [hahead]
      exact List.cons_ne_nil _ _
    · rw [hahead, hsize, List.length_cons]
      exact hstop.imp (congrArg (· + 1)) (Or.imp_left (Exists.imp fun rest' h => congrArg _ h))
    · rwa [hahead, hsize]

namespace TapeUnit

/-- The same image is loaded. -/
structure SameImage (t t' : TapeUnit) : Prop where
  /-- The bytes. -/
  mm : t'.drive.mm = t.drive.mm
  /-- The size. -/
  mmsz : t'.drive.mmsz = t.drive.mmsz
  /-- The drive is online as before. -/
  online : t'.drive.online = t.drive.online

/-- Spacing forward leaves the image, and looks at the marker. -/
theorem spaceForward_frame (h : t.drive.pos + 4 ≤ t.drive.mmsz) :
    SameImage t t.spaceForward ∧ t.spaceForward.drive.eotpos = t.drive.eotpos ∧
      t.spaceForward.mts.eot = decide ((t.spaceForward.drive.pos : ℤ) ≥ t.drive.eotpos) := by
  rw [spaceForward_eq h rfl]
  split_ifs <;> exact ⟨⟨rfl, rfl, rfl⟩, rfl, rfl⟩

/-- A mark that spacing forward passes lies behind eight bytes at least, and without a
mark the tape moves over four bytes or is near its end. -/
theorem pos_spaceForward (h : t.drive.pos + 4 ≤ t.drive.mmsz) :
    (t.spaceForward.mts.eof = true ∧ t.drive.pos + 8 ≤ t.spaceForward.drive.pos) ∨
      t.spaceForward.mts.eof = t.mts.eof ∧
        ((t.drive.pos + 4 ≤ t.spaceForward.drive.pos ∧
            t.spaceForward.drive.pos + 4 ≤ t.drive.mmsz) ∨
          t.spaceForward.drive.pos = t.drive.mmsz - 4) := by
  rw [spaceForward_eq h rfl]
  split_ifs with hword hmark
  · left
    refine ⟨rfl, ?_⟩
    change _ ≤ (t.moveTo _).drive.pos
    rw [pos_moveTo hword]
    omega
  · right
    refine ⟨rfl, Or.inl ?_⟩
    rw [pos_moveTo (by omega)]
    omega
  · right
    refine ⟨rfl, Or.inr ?_⟩
    exact pos_moveTo (by omega)

end TapeUnit

namespace TapeState

variable {δ : Type} {s : TapeState δ} {u : TapeUnit}

/-- One turn of the loop. -/
theorem spaceForwardLoop_succ (hu : s.unit.spaceForward = u) :
    spaceForwardLoop (n + 1) s =
      if u.mts.eof || u.mts.eot then { s with unit := u }
      else spaceForwardLoop n { s with unit := u, mtbrc := s.mtbrc + 1 } := by
  subst hu
  rfl

/-- The end-of-tape bit after spacing forward. -/
theorem eot_spaceForwardLoop (hmarker : s.unit.drive.eotpos + 4 ≤ s.unit.drive.mmsz)
    (hpos : s.unit.drive.pos + 4 ≤ s.unit.drive.mmsz) (hn : n ≠ 0) :
    (spaceForwardLoop n s).unit.mts.eot =
      decide (((spaceForwardLoop n s).unit.drive.pos : ℤ) ≥ s.unit.drive.eotpos) := by
  induction n generalizing s with
  | zero => exact absurd rfl hn
  | succ n ih =>
    obtain ⟨⟨-, hmmsz, -⟩, heotpos, heot⟩ := TapeUnit.spaceForward_frame hpos
    generalize hu : s.unit.spaceForward = u at *
    rw [spaceForwardLoop_succ hu]
    split
    · exact heot
    · rename_i hgo
      rw [Bool.or_eq_true, not_or, Bool.not_eq_true, Bool.not_eq_true] at hgo
      cases n with
      | zero => exact heot
      | succ n =>
        rw [heot, decide_eq_false_iff_not] at hgo
        rw [ih (by dsimp only; omega) (by dsimp only; omega) (Nat.succ_ne_zero n), heotpos]

/-- The loop leaves the image. -/
theorem sameImage_spaceForwardLoop (hmarker : s.unit.drive.eotpos + 4 ≤ s.unit.drive.mmsz)
    (hpos : s.unit.drive.pos + 4 ≤ s.unit.drive.mmsz) :
    s.unit.SameImage (spaceForwardLoop n s).unit := by
  induction n generalizing s with
  | zero => exact ⟨rfl, rfl, rfl⟩
  | succ n ih =>
    obtain ⟨hsame, heotpos, heot⟩ := TapeUnit.spaceForward_frame hpos
    have hmmsz := hsame.mmsz
    generalize hu : s.unit.spaceForward = u at *
    rw [spaceForwardLoop_succ hu]
    split
    · exact hsame
    · rename_i hgo
      rw [Bool.or_eq_true, not_or, Bool.not_eq_true, Bool.not_eq_true, heot,
        decide_eq_false_iff_not] at hgo
      have hrest := ih (s := { s with unit := u, mtbrc := s.mtbrc + 1 }) (by dsimp only; omega)
        (by dsimp only; omega)
      exact ⟨hrest.mm.trans hsame.mm, hrest.mmsz.trans hsame.mmsz, hrest.online.trans hsame.online⟩

/-- A mark that the loop passes lies behind eight bytes at least. -/
theorem pos_of_eof_spaceForwardLoop (hmarker : s.unit.drive.eotpos + 4 ≤ s.unit.drive.mmsz)
    (hpos : s.unit.drive.pos + 4 ≤ s.unit.drive.mmsz) (heof : s.unit.mts.eof = false)
    (hmark : (spaceForwardLoop n s).unit.mts.eof = true) :
    s.unit.drive.pos + 8 ≤ (spaceForwardLoop n s).unit.drive.pos := by
  induction n generalizing s with
  | zero =>
    rw [spaceForwardLoop, heof] at hmark
    cases hmark
  | succ n ih =>
    obtain ⟨⟨-, hmmsz, -⟩, heotpos, heot⟩ := TapeUnit.spaceForward_frame hpos
    have hmove := TapeUnit.pos_spaceForward hpos
    generalize hu : s.unit.spaceForward = u at *
    rw [spaceForwardLoop_succ hu] at hmark ⊢
    rcases hmove with ⟨hpassed, hle⟩ | ⟨hkept, hle⟩
    · rw [hpassed, Bool.true_or, if_pos rfl]
      exact hle
    · rw [heof] at hkept
      rw [hkept, Bool.false_or] at hmark ⊢
      split at hmark
      · rw [hkept] at hmark
        cases hmark
      · rename_i hgo
        rw [Bool.not_eq_true, heot, decide_eq_false_iff_not] at hgo
        rw [if_neg (by rwa [heot, decide_eq_true_iff])]
        have hrest := ih (by dsimp only; omega) (by dsimp only; omega) hkept hmark
        dsimp only at hrest
        omega

/-- Over a record that a mark follows, or that has room behind it. -/
theorem forwardStop_record_iff (hmarker : s.unit.drive.eotpos + 4 ≤ s.unit.drive.mmsz)
    (hitems : Recorded s.unit.drive (pre ++ .record r :: rest))
    (hpos : s.unit.drive.pos = tapeSize pre) (heof : s.unit.mts.eof = false)
    (hroom : tapeSize (pre ++ [.record r]) + 4 ≤ s.unit.drive.mmsz)
    (ih : ∀ s' : TapeState δ, s'.unit = s.unit.moveTo (tapeSize (pre ++ [.record r])) → n ≠ 0 →
      (ForwardStop n (pre ++ [.record r]) rest (spaceForwardLoop n s').unit ↔
        ClearAhead s.unit.drive.eotpos s.unit.drive.mmsz n (tapeSize (pre ++ [.record r])) rest)) :
    ForwardStop (n + 1) pre (.record r :: rest) (spaceForwardLoop (n + 1) s).unit ↔
      ClearAhead s.unit.drive.eotpos s.unit.drive.mmsz (n + 1) (tapeSize pre)
        (.record r :: rest) := by
  have hnext := tapeSize_snoc pre r
  have hroom' : tapeSize pre + (r.val.length + 8) + 4 ≤ s.unit.drive.mmsz := hnext ▸ hroom
  by_cases hmark : ∃ rest', rest = .mark :: rest'
  · refine iff_of_true ?_ (clearAhead_single (Or.inr (Or.inr hmark)) hroom')
    obtain ⟨rest', rfl⟩ := hmark
    have hle := hitems.le
    rw [spaceForwardLoop_succ (TapeUnit.spaceForward_record_mark hitems hpos)]
    refine .record_mark (TapeUnit.pos_moveTo ?_) rfl
    simp only [tapeSize_append, tapeSize_record, tapeSize_mark, tapeSize_nil] at hle ⊢
    omega
  have hin : tapeSize (pre ++ [.record r]) ≤ s.unit.drive.mmsz := by omega
  have hmove := TapeUnit.spaceForward_record_unmarked hitems hpos hmark hroom
  have hpos' := TapeUnit.pos_moveTo hin
  have heot := TapeUnit.eot_moveTo hin
  have heof' : (s.unit.moveTo (tapeSize (pre ++ [.record r]))).mts.eof = false := heof
  rw [spaceForwardLoop_succ hmove, heof', Bool.false_or]
  by_cases hend : s.unit.drive.eotpos ≤ (tapeSize pre + (r.val.length + 8) : ℕ)
  · rw [← hnext] at hend
    rw [decide_eq_true hend] at heot
    rw [if_pos heot]
    exact iff_of_true (.record hpos' heof' (Or.inr heot))
      (clearAhead_single (Or.inl (hnext ▸ hend)) hroom')
  · have hgo := hend
    rw [← hnext] at hgo
    rw [decide_eq_false hgo] at heot
    rw [heot, if_neg Bool.false_ne_true]
    rcases Nat.eq_zero_or_pos n with rfl | hn
    · exact iff_of_true (.record hpos' heof' (Or.inl rfl))
        (clearAhead_single (Or.inr (Or.inl rfl)) hroom')
    · rw [clearAhead_cons hn.ne' hend hmark, ← hnext]
      have hrest := ih { s with
        unit := s.unit.moveTo (tapeSize (pre ++ [.record r])), mtbrc := s.mtbrc + 1 } rfl hn.ne'
      have hflag := eot_spaceForwardLoop (n := n) (s := { s with
        unit := s.unit.moveTo (tapeSize (pre ++ [.record r])), mtbrc := s.mtbrc + 1 }) hmarker
        (hpos'.symm ▸ hroom) hn.ne'
      refine ⟨fun h => hrest.mp (h.tail ?_), fun h => (hrest.mpr h).cons⟩
      rw [or_iff_not_imp_left, not_not]
      intro hsame
      rw [hflag, hsame]
      exact decide_eq_false hgo

/-- Spacing forward ends where it is to end if and only if the way is clear. -/
theorem forwardStop_spaceForwardLoop_iff
    (hmarker : s.unit.drive.eotpos + 4 ≤ s.unit.drive.mmsz)
    (hitems : Recorded s.unit.drive (pre ++ rest)) (hpos : s.unit.drive.pos = tapeSize pre)
    (heof : s.unit.mts.eof = false) (hn : n ≠ 0) :
    ForwardStop n pre rest (spaceForwardLoop n s).unit ↔
      ClearAhead s.unit.drive.eotpos s.unit.drive.mmsz n (tapeSize pre) rest := by
  induction n generalizing s pre rest with
  | zero => exact absurd rfl hn
  | succ n ih =>
    cases rest with
    | nil => exact iff_of_false not_forwardStop_nil fun h => h.ne_nil (recordsAhead_nil _ _ _)
    | cons i rest =>
      have hle := hitems.le
      cases i with
      | mark =>
        rw [tapeSize_mark] at hle
        refine iff_of_false (fun h => ?_) fun h => h.ne_nil (recordsAhead_mark _ _ _ _)
        -- the mark is taken for a length, and a mark is looked for behind it only
        obtain ⟨hend, hmark⟩ := forwardStop_mark_iff.mp h
        have hfar := pos_of_eof_spaceForwardLoop hmarker (by omega) heof hmark
        rw [hend, tapeSize_append, tapeSize_mark, tapeSize_nil] at hfar
        omega
      | record r =>
        rw [tapeSize_record] at hle
        have hnext := tapeSize_snoc pre r
        by_cases hroom : tapeSize (pre ++ [.record r]) + 4 ≤ s.unit.drive.mmsz
        · refine forwardStop_record_iff hmarker hitems hpos heof hroom fun s' hs' hn' => ?_
          have hin : tapeSize (pre ++ [.record r]) ≤ s.unit.drive.mmsz := by omega
          rw [ih (s := s') (by rw [hs']; exact hmarker)
            (by rw [hs', ← List.append_cons]; exact hitems.congr rfl rfl)
            (by rw [hs']; exact TapeUnit.pos_moveTo hin) (by rw [hs']; exact heof) hn', hs']
          rfl
        · -- the tape ends with this record, and comes to stand inside it
          have hrest : rest = [] := by
            cases rest with
            | nil => rfl
            | cons i rest =>
              have hword := four_le_tapeSize i rest
              omega
          subst hrest
          have hmove := TapeUnit.spaceForward_record hitems hpos rfl
          have hstop := TapeUnit.pos_moveTo (t := s.unit) (q := s.unit.drive.mmsz - 4) (by omega)
          have heot := TapeUnit.eot_moveTo (t := s.unit) (q := s.unit.drive.mmsz - 4) (by omega)
          rw [if_neg hroom] at hmove
          have hend : (((s.unit.drive.mmsz - 4 : ℕ) : ℤ)) ≥ s.unit.drive.eotpos := by omega
          rw [decide_eq_true hend] at heot
          rw [spaceForwardLoop_succ hmove, heot, Bool.or_true, if_pos rfl]
          refine iff_of_false (fun h => ?_) fun h => ?_
          · rcases h.pos_singleton with hbad | hbad <;> rw [hstop] at hbad <;> omega
          · have hword := h.word_le
            rw [recordsAhead_single (Or.inr (Or.inr (Or.inl rfl))), tapeSize_record, tapeSize_nil]
              at hword
            omega

end TapeState

/-- Spacing reverse over `n` records, behind the items `pre`, is to end at one of these
boundaries. -/
inductive ReverseStop (n : ℕ) (pre : List TapeItem) (t : TapeUnit) : Prop where
  /-- Before exactly `n` records. -/
  | count (pre' passed : List TapeItem) (h : pre = pre' ++ passed)
      (hrecords : ∀ i ∈ passed, i.IsRecord) (hcount : passed.length = n)
      (hpos : t.drive.pos = tapeSize pre') (heof : t.mts.eof = false)
  /-- After a mark. -/
  | mark (pre' passed : List TapeItem) (h : pre = pre' ++ .mark :: passed)
      (hrecords : ∀ i ∈ passed, i.IsRecord) (hcount : passed.length < n)
      (hpos : t.drive.pos = tapeSize (pre' ++ [.mark])) (heof : t.mts.eof = true)
  /-- At the load point. -/
  | loadPoint (hrecords : ∀ i ∈ pre, i.IsRecord) (hcount : pre.length ≤ n)
      (hpos : t.drive.pos = 0) (hbot : t.drive.bot = true) (heof : t.mts.eof = false)

/-- Spacing reverse passes over a mark directly before the tape. -/
inductive PastMark : List TapeItem → List TapeItem → Prop where
  /-- A mark. -/
  | mark (pre : List TapeItem) : PastMark (pre ++ [.mark]) pre
  /-- No mark. -/
  | unmarked {pre : List TapeItem} (h : ¬∃ pre', pre = pre' ++ [.mark]) : PastMark pre pre

/-- A mark directly before the tape is passed over. -/
theorem pastMark_mark_iff {pre' : List TapeItem} : PastMark (pre ++ [.mark]) pre' ↔ pre' = pre := by
  constructor
  · intro h
    generalize hitems : pre ++ [TapeItem.mark] = items at h
    cases h with
    | mark pre'' => exact (List.append_inj_left' hitems rfl).symm
    | unmarked hno => exact absurd ⟨pre, hitems.symm⟩ hno
  · rintro rfl
    exact .mark pre'

/-- Where the tape stops is told by its position and the two flags. -/
theorem ReverseStop.congr {t' : TapeUnit} (h : ReverseStop n pre t)
    (hpos : t'.drive.pos = t.drive.pos) (hbot : t'.drive.bot = t.drive.bot)
    (hmts : t'.mts = t.mts) : ReverseStop n pre t' := by
  obtain ⟨pre', passed, hpre, hrecords, hcount, hend, heof⟩ |
    ⟨pre', passed, hpre, hrecords, hcount, hend, heof⟩ | ⟨hrecords, hcount, hend, hload, heof⟩ := h
  · exact .count pre' passed hpre hrecords hcount (hpos.trans hend) (hmts ▸ heof)
  · exact .mark pre' passed hpre hrecords hcount (hpos.trans hend) (hmts ▸ heof)
  · exact .loadPoint hrecords hcount (hpos.trans hend) (hbot.trans hload) (hmts ▸ heof)

/-- Over the last record. -/
theorem ReverseStop.snoc (h : ReverseStop n pre t) :
    ReverseStop (n + 1) (pre ++ [.record r]) t := by
  have hrecord {passed : List TapeItem} (hrecords : ∀ i ∈ passed, i.IsRecord) :
      ∀ i ∈ passed ++ [.record r], i.IsRecord :=
    List.forall_mem_append.mpr ⟨hrecords, List.forall_mem_singleton.mpr trivial⟩
  obtain ⟨pre', passed, rfl, hrecords, rfl, hpos, heof⟩ |
    ⟨pre', passed, rfl, hrecords, hcount, hpos, heof⟩ | ⟨hrecords, hcount, hpos, hbot, heof⟩ := h
  · exact .count pre' (passed ++ [.record r]) (List.append_assoc _ _ _) (hrecord hrecords)
      List.length_append hpos heof
  · refine .mark pre' (passed ++ [.record r]) (List.append_assoc _ _ _) (hrecord hrecords) ?_
      hpos heof
    rw [List.length_append]
    exact Nat.succ_lt_succ hcount
  · refine .loadPoint (hrecord hrecords) ?_ hpos hbot heof
    rw [List.length_append]
    exact Nat.succ_le_succ hcount

/-- A mark at the end of the items is not passed. -/
theorem ReverseStop.not_over_mark (h : ReverseStop n (pre ++ [.mark]) t) (hn : n ≠ 0) :
    t.drive.pos = tapeSize (pre ++ [.mark]) ∧ t.mts.eof = true := by
  have hnil {pre' passed : List TapeItem} (h : pre ++ [.mark] = pre' ++ passed)
      (hrecords : ∀ i ∈ passed, i.IsRecord) : passed = [] := by
    rcases List.eq_nil_or_concat passed with hpassed | ⟨passed', i, rfl⟩
    · exact hpassed
    · rw [List.concat_eq_append, ← List.append_assoc] at h
      have hlast := List.append_inj_right' h rfl
      cases hlast
      exact absurd (hrecords .mark (by simp)) id
  obtain ⟨pre', passed, h, hrecords, hcount, -, -⟩ |
    ⟨pre', passed, h, hrecords, -, hpos, heof⟩ | ⟨hrecords, -, -, -, -⟩ := h
  · rw [hnil h hrecords] at hcount
    exact absurd hcount.symm hn
  · have hsplit := h.trans (List.append_cons _ _ _)
    have hpassed := hnil hsplit hrecords
    rw [hpassed, List.append_nil] at hsplit
    rw [hsplit]
    exact ⟨hpos, heof⟩
  · exact absurd (hrecords .mark (by simp)) id

/-- Spacing reverse over as many records as stand directly before the tape. -/
theorem ReverseStop.pos_records {passed : List TapeItem} (h : ReverseStop n (pre ++ passed) t)
    (hrecords : ∀ i ∈ passed, i.IsRecord) (hcount : passed.length = n) :
    t.drive.pos = tapeSize pre := by
  obtain ⟨pre', passed', h, -, hcount', hpos, -⟩ |
    ⟨pre', passed', h, -, hcount', -, -⟩ | ⟨-, hcount', hpos, -, -⟩ := h
  · rw [hpos, List.append_inj_left' h (hcount.trans hcount'.symm)]
  · -- the mark would be one of the records passed
    have hmem : TapeItem.mark ∈ passed := by
      rcases List.append_eq_append_iff.mp h with ⟨as, -, rfl⟩ | ⟨cs, -, hcs⟩
      · exact List.mem_append_right _ List.mem_cons_self
      · have hlength := congrArg List.length hcs
        rw [List.length_append, List.length_cons] at hlength
        have hnil : cs = [] := List.length_eq_zero_iff.mp (by omega)
        rw [hnil, List.nil_append] at hcs
        exact hcs ▸ List.mem_cons_self
    exact absurd (hrecords _ hmem) id
  · rw [List.length_append] at hcount'
    have hpre : pre = [] := List.length_eq_zero_iff.mp (by omega)
    rw [hpos, hpre]
    rfl

namespace TapeState

variable {δ : Type} {s : TapeState δ} {u : TapeUnit}

/-- One turn of the loop. -/
theorem spaceReverseLoop_succ (hu : s.unit.spaceReverse true = u) :
    spaceReverseLoop (n + 1) s =
      if u.mts.eof || u.drive.bot then { s with unit := u }
      else spaceReverseLoop n { s with unit := u, mtbrc := s.mtbrc + 1 } := by
  rw [spaceReverseLoop, hu]

/-- Spacing reverse never goes forward, apart from the first word of the tape. -/
theorem pos_spaceReverseLoop_le (h : 4 ≤ s.unit.drive.mmsz) :
    (spaceReverseLoop n s).unit.drive.pos ≤ max s.unit.drive.pos 4 := by
  induction n generalizing s with
  | zero => exact le_max_left _ _
  | succ n ih =>
    have hle := s.unit.drive.pos_le
    have hmove : (s.unit.spaceReverse true).drive.pos ≤ max s.unit.drive.pos 4 ∧
        (s.unit.spaceReverse true).drive.mmsz = s.unit.drive.mmsz := by
      rw [TapeUnit.spaceReverse_eq true (by omega) rfl, if_pos rfl]
      split
      · refine ⟨(min_le_left _ _).trans ?_, rfl⟩
        omega
      · refine ⟨(min_le_left _ _).trans ?_, rfl⟩
        omega
    generalize hu : s.unit.spaceReverse true = u at hmove
    rw [spaceReverseLoop_succ hu]
    split
    · exact hmove.1
    · refine (ih (hmove.2.symm ▸ h)).trans ?_
      dsimp only
      omega

/-- After a record, the loop goes on unless the tape is at the load point. -/
theorem reverseStop_record (hitems : Recorded s.unit.drive (pre ++ .record r :: rest))
    (hu : s.unit = u.moveTo (tapeSize pre)) (heof : s.unit.mts.eof = false)
    (hrest : pre ≠ [] → ReverseStop n pre (spaceReverseLoop n s).unit) :
    ReverseStop (n + 1) (pre ++ [.record r])
      (if s.unit.drive.bot then s else spaceReverseLoop n s).unit := by
  have hin : tapeSize pre ≤ u.drive.mmsz := by
    have hle := hitems.le
    rw [hu] at hle
    exact (Nat.le_add_right _ _).trans hle
  have hbot : s.unit.drive.bot = decide (tapeSize pre = 0) := hu ▸ TapeUnit.bot_moveTo hin
  by_cases hpre : pre = []
  · subst hpre
    have hload : s.unit.drive.bot = true := hbot.trans (decide_eq_true tapeSize_nil)
    rw [if_pos hload]
    exact .loadPoint (List.forall_mem_singleton.mpr trivial) (Nat.succ_pos n)
      (s.unit.drive.pos_of_bot hload) hload heof
  · rw [if_neg (by rwa [hbot, decide_eq_true_iff, tapeSize_eq_zero_iff])]
    exact (hrest hpre).snoc

/-- The loop ends where it is to end. -/
theorem reverseStop_spaceReverseLoop (hitems : Recorded s.unit.drive (pre ++ rest))
    (hpos : s.unit.drive.pos = tapeSize pre) (hne : pre ≠ []) (heof : s.unit.mts.eof = false) :
    ReverseStop n pre (spaceReverseLoop n s).unit := by
  induction n generalizing s pre rest with
  | zero =>
    exact .count pre [] (List.append_nil _).symm (fun i hi => absurd hi List.not_mem_nil) rfl hpos
      heof
  | succ n ih =>
    obtain ⟨pre, i, rfl⟩ := (List.eq_nil_or_concat pre).resolve_left hne
    rw [List.concat_eq_append] at *
    rw [← List.append_cons] at hitems
    cases i with
    | mark =>
      rw [spaceReverseLoop_succ (TapeUnit.spaceReverse_mark hitems hpos)]
      refine .mark pre [] rfl (fun i hi => absurd hi List.not_mem_nil) (Nat.succ_pos n) ?_ rfl
      exact (TapeUnit.pos_moveTo s.unit.drive.pos_le).trans hpos
    | record r =>
      have hin : tapeSize pre ≤ s.unit.drive.mmsz := by
        have hle := hitems.le
        omega
      have heof' : (s.unit.moveTo (tapeSize pre)).mts.eof = false := heof
      have hitems' : Recorded (s.unit.moveTo (tapeSize pre)).drive (pre ++ .record r :: rest) :=
        hitems.congr rfl rfl
      rw [spaceReverseLoop_succ (TapeUnit.spaceReverse_record hitems hpos true), heof',
        Bool.false_or]
      have hstep := reverseStop_record (n := n)
        (s := { s with unit := s.unit.moveTo (tapeSize pre), mtbrc := s.mtbrc + 1 }) hitems' rfl
        heof'
        fun hne' => ih hitems' (TapeUnit.pos_moveTo hin) hne' heof'
      split at hstep
      · rename_i hbot
        rw [if_pos hbot]
        exact hstep
      · rename_i hbot
        rw [if_neg hbot]
        exact hstep

/-- SPACE REVERSE, if the tape is not at the load point. -/
theorem spaceReverse_eq (hbot : s.unit.drive.bot = false) (hm : s.mtbrc = -(n + 1 : ℕ))
    (hn : n < 2 ^ 15) (hu : s.unit.spaceReverse false = u) :
    s.spaceReverse =
      if u.drive.bot then { s with unit := u, mtbrc := -n }
      else spaceReverseLoop n { s with unit := u, mtbrc := -n } := by
  have hne : ¬s.mtbrc = 0 := by omega
  have hnext : Int.bmod (s.mtbrc + 1) (2 ^ 16) = -n := by
    rw [Int.bmod_eq_of_le (by omega) (by omega)]
    omega
  have hturns : (-(-(n : ℤ))).toNat = n := by omega
  unfold spaceReverse
  rw [hbot, if_neg Bool.false_ne_true]
  simp only [hu, if_neg hne, hnext, hturns]

/-- SPACE FORWARD, with records to count. -/
theorem spaceForward_eq (heot : s.unit.mts.eot = false) (hm : s.mtbrc = -(n : ℕ)) (hn : n ≠ 0) :
    s.spaceForward = spaceForwardLoop n s := by
  have hne : ¬s.mtbrc = 0 := by omega
  have hturns : (-s.mtbrc).toNat = n := by omega
  unfold spaceForward
  rw [heot, if_neg Bool.false_ne_true, if_neg hne, hturns]

/-- SPACE REVERSE over a record, and the mark behind it if there is one. -/
theorem reverseStop_spaceReverse_record (hitems : Recorded s.unit.drive (pre ++ .record r :: rest))
    (hbot : s.unit.drive.bot = false) (heof : s.unit.mts.eof = false)
    (hm : s.mtbrc = -(n + 1 : ℕ)) (hn : n < 2 ^ 15)
    (hmove : s.unit.spaceReverse false = s.unit.moveTo (tapeSize pre)) :
    ReverseStop (n + 1) (pre ++ [.record r]) s.spaceReverse.unit := by
  have hin : tapeSize pre ≤ s.unit.drive.mmsz := by
    have hle := hitems.le
    omega
  have hitems' : Recorded (s.unit.moveTo (tapeSize pre)).drive (pre ++ .record r :: rest) :=
    hitems.congr rfl rfl
  rw [spaceReverse_eq hbot hm hn hmove]
  refine reverseStop_record
    (s := { s with unit := s.unit.moveTo (tapeSize pre), mtbrc := -n }) hitems' rfl heof
    fun hne => ?_
  exact reverseStop_spaceReverseLoop hitems' (TapeUnit.pos_moveTo hin) hne heof

/-- SPACE REVERSE ends where it is to end if and only if two marks do not stand directly
before the tape. -/
theorem reverseStop_spaceReverse_iff (hitems : Recorded s.unit.drive (pre ++ rest))
    (hpos : s.unit.drive.pos = tapeSize pre) (heof : s.unit.mts.eof = false)
    (hm : s.mtbrc = -(n + 1 : ℕ)) (hn : n < 2 ^ 15) :
    (∃ pre', PastMark pre pre' ∧ ReverseStop (n + 1) pre' s.spaceReverse.unit) ↔
      ¬∃ pre', pre = pre' ++ [.mark, .mark] := by
  have hmark_inj {pre' pre'' : List TapeItem} {i : TapeItem} (h : pre' ++ [i] = pre'' ++ [.mark]) :
      pre' = pre'' ∧ i = .mark := by
    have hlast := List.append_inj' h rfl
    exact ⟨hlast.1, (List.cons.inj hlast.2).1⟩
  have hload (hpast : PastMark pre []) (hmove : s.unit.spaceReverse false = s.unit.moveTo 0) :
      ∃ pre', PastMark pre pre' ∧ ReverseStop (n + 1) pre' s.spaceReverse.unit := by
    refine ⟨[], hpast, ?_⟩
    have hnone : ∀ i ∈ ([] : List TapeItem), i.IsRecord := fun i hi => absurd hi List.not_mem_nil
    cases hbot : s.unit.drive.bot with
    | true =>
      have hstay : s.spaceReverse = s := if_pos hbot
      rw [hstay]
      exact .loadPoint hnone (Nat.zero_le _) (s.unit.drive.pos_of_bot hbot) hbot heof
    | false =>
      have hpos' := TapeUnit.pos_moveTo (t := s.unit) (Nat.zero_le _)
      have hbot' : (s.unit.moveTo 0).drive.bot = true := TapeUnit.bot_moveTo (Nat.zero_le _)
      rw [spaceReverse_eq hbot hm hn hmove, if_pos hbot']
      exact .loadPoint hnone (Nat.zero_le _) hpos' hbot' heof
  rcases pre.eq_nil_or_concat with rfl | ⟨pre, i, rfl⟩
  · refine iff_of_true (hload (.unmarked ?_) (TapeUnit.spaceReverse_load_point hpos)) ?_
    · rintro ⟨pre', h⟩
      simp at h
    · rintro ⟨pre', h⟩
      simp at h
  rw [List.concat_eq_append] at *
  have hbot : s.unit.drive.bot = false := by
    rw [← Bool.not_eq_true]
    intro hbot
    rw [s.unit.drive.pos_of_bot hbot, eq_comm, tapeSize_eq_zero_iff] at hpos
    simp at hpos
  rw [← List.append_cons] at hitems
  cases i with
  | record r =>
    refine iff_of_true ⟨_, .unmarked ?_, reverseStop_spaceReverse_record hitems hbot heof hm hn
      (TapeUnit.spaceReverse_record hitems hpos false)⟩ ?_
    · rintro ⟨pre', h⟩
      cases (hmark_inj h).2
    · rintro ⟨pre', h⟩
      rw [List.append_cons pre'] at h
      cases (hmark_inj h).2
  | mark =>
    rcases pre.eq_nil_or_concat with rfl | ⟨pre, i, rfl⟩
    · have hmove := TapeUnit.spaceReverse_over_mark hitems hpos
      rw [tapeSize_nil] at hmove
      refine iff_of_true (hload (.mark []) (hmove.trans ?_)) ?_
      · congr 1
        omega
      rintro ⟨pre', h⟩
      have hlength := congrArg List.length h
      simp at hlength
    rw [List.concat_eq_append] at *
    cases i with
    | record r =>
      have hitems' : Recorded s.unit.drive (pre ++ .record r :: .mark :: rest) := by
        rwa [List.append_cons]
      have hpos' : s.unit.drive.pos = tapeSize (pre ++ [.record r, .mark]) := by
        rw [hpos, List.append_assoc]
        rfl
      refine iff_of_true ⟨_, .mark _, reverseStop_spaceReverse_record hitems' hbot heof hm hn
        (TapeUnit.spaceReverse_record_mark hitems' hpos')⟩ ?_
      rintro ⟨pre', h⟩
      rw [List.append_cons pre'] at h
      cases (hmark_inj (hmark_inj h).1).2
    | mark =>
      refine iff_of_false ?_ fun h => h ⟨pre, List.append_assoc _ _ _⟩
      rintro ⟨pre', hpast, hstop⟩
      rw [pastMark_mark_iff] at hpast
      subst hpast
      obtain ⟨hend, hmark⟩ := hstop.not_over_mark (Nat.succ_ne_zero n)
      -- the mark before the first one is taken for a length
      have hmove := TapeUnit.spaceReverse_over_mark hitems hpos
      have hword : wordAt s.unit.drive.mm (tapeSize (pre ++ [.mark]) - 4) = tapeFileMark := by
        have hitems' : Recorded s.unit.drive (pre ++ .mark :: .mark :: rest) := by
          rwa [List.append_cons]
        exact hitems'.mark_last
      have hlength : tapeFileMark.toNat = 2 ^ 32 - 1 := rfl
      have hle := hitems.le
      rw [hword, hlength] at hmove
      rw [tapeSize_mark] at hle
      obtain ⟨q, hq⟩ : ∃ q, q = tapeSize (pre ++ [.mark]) - 4 + 4 - (2 ^ 32 - 1 + 8) := ⟨_, rfl⟩
      rw [← hq] at hmove
      have hin : q ≤ s.unit.drive.mmsz := by omega
      rw [spaceReverse_eq hbot hm hn hmove] at hend hmark
      cases hload' : (s.unit.moveTo q).drive.bot with
      | true =>
        rw [if_pos hload', TapeUnit.eof_moveTo, heof] at hmark
        cases hmark
      | false =>
        rw [if_neg (hload' ▸ Bool.false_ne_true)] at hend
        rw [TapeUnit.bot_moveTo hin, decide_eq_false_iff_not] at hload'
        have hback := pos_spaceReverseLoop_le (n := n)
          (s := { s with unit := s.unit.moveTo q, mtbrc := -n })
          (by dsimp only [TapeUnit.mmsz_moveTo]; omega)
        dsimp only at hback
        rw [hend, TapeUnit.pos_moveTo hin] at hback
        omega

end TapeState

end Usim
