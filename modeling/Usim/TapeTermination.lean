import Usim.Lib.Runs
import Usim.SpacingLaw
import Usim.TapeWrite

/-!
# Every tape command ends

Each command is run as the source has it, with loops that have no bound on their turns.
The loops are left whatever is on the tape: the spacing commands move the tape with each
turn, and the transfers count. The flag for the load point follows the tape with every
seek, but no drive is initialised with it.
-/

namespace Usim

open Lib

variable {δ : Type}

namespace TapeUnit

variable {t : TapeUnit}

/-! ### Spacing anywhere on the tape -/

/-- Less than a word before the end of the image no word is read. -/
theorem readUint32_short (h : t.drive.mmsz < t.drive.pos + 4) :
    t.readUint32.1 = none ∧ ∀ offset : ℤ,
      t.readUint32.2.seek offset .cur = t.moveTo (t.drive.mmsz + offset).toNat := by
  have hle := t.drive.pos_le
  rcases hle.eq_or_lt with hend | hlt
  · have hread : t.readUint32 = (none, t) := by
      unfold readUint32
      rw [readUint8_of_eq hend]
    rw [hread]
    refine ⟨rfl, fun offset => ?_⟩
    rw [seek_cur, hend]
  · have hread : t.readUint32 = (t.moveTo t.drive.pos).readUint32 := by
      unfold readUint32
      rw [readUint8_of_lt hlt, readUint8_moveTo hlt]
    rw [hread, readUint32_moveTo_short hle h]
    exact ⟨rfl, fun offset => seek_moveTo le_rfl offset⟩

/-- Spacing forward near the end of the image goes to four bytes before it. -/
theorem spaceForward_short (h : t.drive.mmsz < t.drive.pos + 4) :
    t.spaceForward = t.moveTo (t.drive.mmsz - 4) := by
  obtain ⟨hpreamble, hseek⟩ := readUint32_short h
  have hend : ((t.drive.mmsz : ℤ) + ((0 + 4 : Word).toNat : ℤ)).toNat = t.drive.mmsz + 4 := by
    have hfour : (0 + 4 : Word).toNat = 4 := rfl
    omega
  have hclamp : t.moveTo (t.drive.mmsz + 4) = t.moveTo t.drive.mmsz := by
    rw [← moveTo_min, Nat.min_eq_right (Nat.le_add_right _ 4)]
  have hlook := readUint32_moveTo_short (t := t) le_rfl (Nat.lt_add_of_pos_right four_pos)
  have hmark : (0 : Word) ≠ tapeFileMark := by decide
  have hback : ((t.drive.mmsz : ℤ) + -4).toNat = t.drive.mmsz - 4 := by omega
  unfold spaceForward
  simp only [hpreamble, Option.getD_none, hseek, hend, hclamp, hlook, if_neg hmark,
    seek_moveTo le_rfl, hback]

/-- On an image of less than a word, spacing reverse goes to its beginning. -/
theorem spaceReverse_short (h : t.drive.mmsz < 4) (stopAtFilemark : Bool) :
    t.spaceReverse stopAtFilemark = t.moveTo 0 := by
  have hle := t.drive.pos_le
  have hseek : t.seek (-4) .cur = t.moveTo 0 := by
    rw [seek_cur, show (t.drive.pos + -4 : ℤ).toNat = 0 by omega]
  have hmark : (0 : Word) ≠ tapeFileMark := by decide
  have hread := readUint32_moveTo_short (t := t) (Nat.zero_le _) (by omega : t.drive.mmsz < 0 + 4)
  have hzero : t.drive.mmsz - ((0 : Word).toNat + 8) = 0 := by omega
  unfold spaceReverse
  simp only [hseek, hread, Option.getD_none, hmark, false_and, if_false]
  have hmoved := @seek_reset_eot t t.drive.mmsz le_rfl 0
  rwa [hzero] at hmoved

/-- What spacing leaves: the tape was moved, and the image is the same. -/
structure Spaced (t t' : TapeUnit) : Prop where
  mmsz : t'.drive.mmsz = t.drive.mmsz
  eotpos : t'.drive.eotpos = t.drive.eotpos
  bot : t'.drive.bot = decide (t'.drive.pos = 0)
  eot : t'.mts.eot = decide ((t'.drive.pos : ℤ) ≥ t.drive.eotpos)

/-- A move is one. -/
theorem spaced_moveTo (t : TapeUnit) (q : ℕ) : Spaced t (t.moveTo q) := ⟨rfl, rfl, rfl, rfl⟩

/-- So is a move with the end-of-file bit set. -/
theorem spaced_setMtsEof (t : TapeUnit) (q : ℕ) : Spaced t (t.moveTo q).setMtsEof :=
  ⟨rfl, rfl, rfl, rfl⟩

/-- Spacing forward moves the tape. -/
theorem spaced_spaceForward (t : TapeUnit) : Spaced t t.spaceForward := by
  by_cases h : t.drive.pos + 4 ≤ t.drive.mmsz
  · rw [spaceForward_eq h rfl]
    split_ifs
    · exact spaced_setMtsEof t _
    · exact spaced_moveTo t _
    · exact spaced_moveTo t _
  · rw [spaceForward_short (Nat.lt_of_not_le h)]
    exact spaced_moveTo t _

/-- Spacing reverse moves the tape. -/
theorem spaced_spaceReverse (t : TapeUnit) (stopAtFilemark : Bool) :
    Spaced t (t.spaceReverse stopAtFilemark) := by
  have hle := t.drive.pos_le
  by_cases h : 4 ≤ t.drive.mmsz
  · rw [spaceReverse_eq stopAtFilemark (by omega) rfl]
    split_ifs
    · exact spaced_setMtsEof t _
    · exact spaced_moveTo t _
    · exact spaced_moveTo t _
  · rw [spaceReverse_short (Nat.lt_of_not_le h)]
    exact spaced_moveTo t _

/-- Spacing forward that does not stop has moved the tape forward. -/
theorem lt_pos_spaceForward (hmarker : t.drive.eotpos + 4 ≤ t.drive.mmsz)
    (hstop : t.spaceForward.stopsForward = false) :
    t.drive.pos < t.spaceForward.drive.pos := by
  have hspaced := spaced_spaceForward t
  have heot := (Bool.or_eq_false_iff.mp hstop).2
  rw [hspaced.eot, decide_eq_false_iff_not] at heot
  by_cases h : t.drive.pos + 4 ≤ t.drive.mmsz
  · obtain ⟨hmark, -⟩ | ⟨-, ⟨hmoved, -⟩ | hend⟩ := pos_spaceForward h
    · exact absurd (hmark.symm.trans (Bool.or_eq_false_iff.mp hstop).1) Bool.noConfusion
    · omega
    · omega
  · have hend : t.spaceForward.drive.pos = t.drive.mmsz - 4 := by
      rw [spaceForward_short (Nat.lt_of_not_le h)]
      exact pos_moveTo (Nat.sub_le _ _)
    omega

/-- Spacing reverse that does not stop has moved the tape back. -/
theorem pos_spaceReverse_lt (hstop : (t.spaceReverse true).stopsReverse = false) :
    (t.spaceReverse true).drive.pos < t.drive.pos := by
  have hle := t.drive.pos_le
  have hbot := (Bool.or_eq_false_iff.mp hstop).2
  rw [(spaced_spaceReverse t true).bot, decide_eq_false_iff_not] at hbot
  by_cases h : 4 ≤ t.drive.mmsz
  · have heof := (Bool.or_eq_false_iff.mp hstop).1
    rw [spaceReverse_eq true (by omega) rfl, if_pos rfl] at hbot heof ⊢
    split at hbot
    · rename_i hmark
      rw [if_pos hmark] at heof
      exact absurd heof Bool.noConfusion
    · rename_i hmark
      rw [if_neg hmark]
      have hpos := min_le_left (t.drive.pos - 4 + 4 -
        ((wordAt t.drive.mm (t.drive.pos - 4)).toNat + 8)) t.drive.mmsz
      change ¬min _ _ = 0 at hbot
      change min _ _ < _
      omega
  · rw [spaceReverse_short (Nat.lt_of_not_le h)] at hbot
    exact absurd (Nat.zero_min _) hbot

end TapeUnit

namespace TapeState

variable {space : TapeUnit → TapeUnit} {stops : TapeUnit → Bool} {n fuel : ℕ} {s s' : TapeState δ}
  {loop : ℕ → TapeState δ → TapeState δ}

/-! ### Loops over records and over files -/

/-- A loop over records has the result of its turns. -/
theorem recordsLoop_of_endsAfter (hzero : ∀ s, loop 0 s = s)
    (hsucc : ∀ n s, loop (n + 1) s = if stops (space s.unit) then { s with unit := space s.unit }
      else loop n { s with unit := space s.unit, mtbrc := s.mtbrc + 1 })
    (h : EndsAfter (recordsTurn space stops) n s s') : loop (-s.mtbrc).toNat s = s' := by
  have hfuel {s : TapeState δ} (hgoes : s.mtbrc < 0) :
      (-s.mtbrc).toNat = (-(s.mtbrc + 1)).toNat + 1 := by omega
  induction h with
  | @left s r h =>
    unfold recordsTurn at h
    simp only at h
    split_ifs at h with hgoes hstop
    · rw [hfuel hgoes, hsucc, if_pos hstop]
      exact Sum.inr.inj h
    · rw [show (-s.mtbrc).toNat = 0 by omega, hzero]
      exact Sum.inr.inj h
  | @next n s s' r h rest ih =>
    unfold recordsTurn at h
    simp only at h
    split_ifs at h with hgoes hstop
    cases h
    rw [hfuel hgoes, hsucc, if_neg hstop]
    exact ih

/-- A loop over a file has the result of its turns. -/
theorem fileLoop_of_endsAfter (hzero : ∀ s, loop 0 s = s)
    (hsucc : ∀ n s, loop (n + 1) s = if stops s.unit then s
      else loop n { s with unit := space s.unit })
    (h : EndsAfter (fileTurn space stops) n s s') (hfuel : n ≤ fuel) : loop fuel s = s' := by
  induction h generalizing fuel with
  | @left s r h =>
    unfold fileTurn at h
    split_ifs at h with hstop
    cases h
    cases fuel with
    | zero => exact hzero s
    | succ fuel => rw [hsucc, if_pos hstop]
  | @next n s s' r h rest ih =>
    unfold fileTurn at h
    split_ifs at h with hstop
    cases h
    obtain ⟨fuel, rfl⟩ : ∃ k, fuel = k + 1 := ⟨fuel - 1, by omega⟩
    rw [hsucc, if_neg hstop]
    exact ih (Nat.le_of_succ_le_succ hfuel)

/-- A loop over records is left after at most as many turns as records are asked for. -/
theorem exists_endsAfter_recordsTurn (space : TapeUnit → TapeUnit) (stops : TapeUnit → Bool)
    (s : TapeState δ) :
    ∃ n ≤ (-s.mtbrc).toNat, ∃ s', EndsAfter (recordsTurn space stops) n s s' := by
  have hmeasure (s s' : TapeState δ) (_ : True) (h : recordsTurn space stops s = .inl s') :
      True ∧ (-s'.mtbrc).toNat < (-s.mtbrc).toNat := by
    unfold recordsTurn at h
    simp only at h
    split_ifs at h with hgoes hstop
    cases h
    have hless : (-(s.mtbrc + 1)).toNat < (-s.mtbrc).toNat := by omega
    exact ⟨trivial, hless⟩
  exact exists_endsAfter hmeasure trivial

/-- A loop over a file is left if every turn that does not stop it shortens a distance. -/
theorem exists_endsAfter_fileTurn {I : TapeUnit → Prop} {d : TapeUnit → ℕ}
    (hkeep : ∀ t, I t → I (space t))
    (hturn : ∀ t, I t → stops (space t) = false → d (space t) < d t) (hs : I s.unit) :
    ∃ n ≤ d s.unit + 1, ∃ s', EndsAfter (fileTurn space stops) n s s' := by
  have hmeasure (s s' : TapeState δ) (hs : I s.unit) (h : fileTurn space stops s = .inl s') :
      I s'.unit ∧ (if stops s'.unit then 0 else d s'.unit + 1) <
        if stops s.unit then 0 else d s.unit + 1 := by
    unfold fileTurn at h
    split_ifs at h with hstop
    cases h
    refine ⟨hkeep _ hs, ?_⟩
    rw [if_neg hstop]
    split_ifs with hstop'
    · exact Nat.succ_pos _
    · exact Nat.succ_lt_succ (hturn _ hs (Bool.eq_false_iff.mpr hstop'))
  obtain ⟨n, hn, r, h⟩ := exists_endsAfter hmeasure hs
  refine ⟨n, hn.trans ?_, r, h⟩
  split_ifs
  · exact Nat.zero_le _
  · exact le_rfl

/-! ### Commands -/

/-- A command as the source runs it. Its loop, if it comes to one, is left after `n` turns. -/
inductive Runs (dev : BusDevices δ) (mtc : Mtc) (s : TapeState δ) :
    ℕ → Except ErrCall (TapeState δ) → Prop
  /-- REWIND AND OFFLINE, WRITE EOF and REWIND have no loop. -/
  | straight (h : mtc.function = 0 ∨ mtc.function = 3 ∨ mtc.function = 7) :
    Runs dev mtc s 0 (s.command dev mtc)
  /-- READ of a mark. -/
  | readMark (h : mtc.function = 1) (mark : s.preamble = tapeFileMark) :
    Runs dev mtc s 0 (.ok (s.reading.onMts ({ · with eof := true })))
  /-- READ of a record. -/
  | read {n : ℕ} {r : Except ErrCall (Word × TapeState δ)} (h : mtc.function = 1)
    (record : s.preamble ≠ tapeFileMark)
    (loop : EndsAfter (readTurn dev) n (s.preamble, s.reading) r) :
    Runs dev mtc s n (r.map readEnd)
  /-- WRITE that is illegal. -/
  | writeIllegal (h : mtc.function = 2 ∨ mtc.function = 6)
    (illegal : s.unit.drive.RejectsWrite s.mtbrc) :
    Runs dev mtc s 0 (.ok (s.onMts ({ · with ilc := true })))
  /-- WRITE of a record. -/
  | write {n : ℕ} {r : Except ErrCall (TapeState δ)} (h : mtc.function = 2 ∨ mtc.function = 6)
    (legal : ¬s.unit.drive.RejectsWrite s.mtbrc) (loop : EndsAfter (writeTurn dev) n s.writing r) :
    Runs dev mtc s n (r.map (writeEnd (BitVec.ofInt 32 (-s.mtbrc))))
  /-- SPACE FORWARD at the end of the tape. -/
  | forwardEnd (h : mtc.function = 4) (eot : s.unit.mts.eot = true) : Runs dev mtc s 0 (.ok s)
  /-- SPACE FORWARD over a file. -/
  | forwardFile {n : ℕ} {s' : TapeState δ} (h : mtc.function = 4) (eot : s.unit.mts.eot = false)
    (zero : s.mtbrc = 0)
    (loop : EndsAfter (fileTurn TapeUnit.spaceForward TapeUnit.stopsForward) n s s') :
    Runs dev mtc s n (.ok s')
  /-- SPACE FORWARD over records. -/
  | forwardRecords {n : ℕ} {s' : TapeState δ} (h : mtc.function = 4) (eot : s.unit.mts.eot = false)
    (count : s.mtbrc ≠ 0)
    (loop : EndsAfter (recordsTurn TapeUnit.spaceForward TapeUnit.stopsForward) n s s') :
    Runs dev mtc s n (.ok s')
  /-- SPACE REVERSE at the load point. -/
  | reverseStart (h : mtc.function = 5) (bot : s.unit.drive.bot = true) : Runs dev mtc s 0 (.ok s)
  /-- SPACE REVERSE over a file. -/
  | reverseFile {n : ℕ} {s' : TapeState δ} (h : mtc.function = 5) (bot : s.unit.drive.bot = false)
    (zero : s.mtbrc = 0)
    (loop : EndsAfter (fileTurn (TapeUnit.spaceReverse true) TapeUnit.stopsReverse) n
      { s with unit := s.unit.spaceReverse false } s') :
    Runs dev mtc s n (.ok s')
  /-- SPACE REVERSE that comes to the load point with its first record. -/
  | reverseRecord (h : mtc.function = 5) (bot : s.unit.drive.bot = false) (count : s.mtbrc ≠ 0)
    (load : (s.unit.spaceReverse false).drive.bot = true) :
    Runs dev mtc s 0 (.ok { s with
      unit := s.unit.spaceReverse false, mtbrc := Int.bmod (s.mtbrc + 1) (2 ^ 16) })
  /-- SPACE REVERSE over records. -/
  | reverseRecords {n : ℕ} {s' : TapeState δ} (h : mtc.function = 5)
    (bot : s.unit.drive.bot = false) (count : s.mtbrc ≠ 0)
    (load : (s.unit.spaceReverse false).drive.bot = false)
    (loop : EndsAfter (recordsTurn (TapeUnit.spaceReverse true) TapeUnit.stopsReverse) n
      { s with unit := s.unit.spaceReverse false, mtbrc := Int.bmod (s.mtbrc + 1) (2 ^ 16) } s') :
    Runs dev mtc s n (.ok s')

/-- What SPACE FORWARD does. -/
theorem runs_spaceForward (dev : BusDevices δ) {mtc : Mtc} (h : mtc.function = 4)
    (hlower : -2 ^ 15 ≤ s.mtbrc) (hmarker : s.unit.drive.eotpos + 4 ≤ s.unit.drive.mmsz) :
    ∃ n ≤ 2 ^ 15 + s.unit.drive.mmsz + 1, Runs dev mtc s n (.ok s.spaceForward) := by
  unfold spaceForward
  split_ifs with heot hzero
  · exact ⟨0, Nat.zero_le _, .forwardEnd h heot⟩
  · obtain ⟨n, hn, s', hends⟩ := @exists_endsAfter_fileTurn _ TapeUnit.spaceForward
      TapeUnit.stopsForward s (fun t => t.drive.eotpos + 4 ≤ t.drive.mmsz)
      (fun t => t.drive.mmsz - t.drive.pos)
      (fun t ht => by
        have hspaced := TapeUnit.spaced_spaceForward t
        rwa [hspaced.eotpos, hspaced.mmsz])
      (fun t ht hstop => by
        have hlt := TapeUnit.lt_pos_spaceForward ht hstop
        have hle := t.spaceForward.drive.pos_le
        rw [(TapeUnit.spaced_spaceForward t).mmsz] at hle ⊢
        omega) hmarker
    have hresult : spaceForwardFile (s.unit.drive.mmsz + 1) s = s' :=
      fileLoop_of_endsAfter (fun _ => rfl) (fun _ _ => rfl) hends (by omega)
    rw [hresult]
    exact ⟨n, by omega, .forwardFile h (Bool.eq_false_iff.mpr heot) hzero hends⟩
  · obtain ⟨n, hn, s', hends⟩ :=
      exists_endsAfter_recordsTurn TapeUnit.spaceForward TapeUnit.stopsForward s
    have hresult : spaceForwardLoop (-s.mtbrc).toNat s = s' :=
      @recordsLoop_of_endsAfter _ TapeUnit.spaceForward TapeUnit.stopsForward _ _ _ spaceForwardLoop
        (fun _ => rfl) (fun _ _ => spaceForwardLoop_succ rfl) hends
    rw [hresult]
    exact ⟨n, by omega, .forwardRecords h (Bool.eq_false_iff.mpr heot) hzero hends⟩

/-- What SPACE REVERSE does. -/
theorem runs_spaceReverse (dev : BusDevices δ) {mtc : Mtc} (h : mtc.function = 5) :
    ∃ n ≤ 2 ^ 15 + s.unit.drive.mmsz + 1, Runs dev mtc s n (.ok s.spaceReverse) := by
  have hspaced := TapeUnit.spaced_spaceReverse s.unit false
  have hle := (s.unit.spaceReverse false).drive.pos_le
  unfold spaceReverse
  simp only
  split_ifs with hbot hzero hload
  · exact ⟨0, Nat.zero_le _, .reverseStart h hbot⟩
  · obtain ⟨n, hn, s', hends⟩ := @exists_endsAfter_fileTurn _ (TapeUnit.spaceReverse true)
      TapeUnit.stopsReverse { s with unit := s.unit.spaceReverse false } (fun _ => True)
      (fun t => t.drive.pos) (fun _ _ => trivial)
      (fun t _ hstop => TapeUnit.pos_spaceReverse_lt hstop) trivial
    simp only at hn
    rw [hspaced.mmsz] at hle
    have hresult : spaceReverseFile (s.unit.drive.mmsz + 1)
        { s with unit := s.unit.spaceReverse false } = s' :=
      fileLoop_of_endsAfter (fun _ => rfl) (fun _ _ => rfl) hends (by omega)
    rw [hresult]
    exact ⟨n, by omega, .reverseFile h (Bool.eq_false_iff.mpr hbot) hzero hends⟩
  · exact ⟨0, Nat.zero_le _, .reverseRecord h (Bool.eq_false_iff.mpr hbot) hzero hload⟩
  · obtain ⟨n, hn, s', hends⟩ :=
      exists_endsAfter_recordsTurn (TapeUnit.spaceReverse true) TapeUnit.stopsReverse
        { s with unit := s.unit.spaceReverse false, mtbrc := Int.bmod (s.mtbrc + 1) (2 ^ 16) }
    have hresult : spaceReverseLoop (-Int.bmod (s.mtbrc + 1) (2 ^ 16)).toNat
        { s with unit := s.unit.spaceReverse false, mtbrc := Int.bmod (s.mtbrc + 1) (2 ^ 16) } =
          s' :=
      @recordsLoop_of_endsAfter _ (TapeUnit.spaceReverse true) TapeUnit.stopsReverse _ _ _
        spaceReverseLoop (fun _ => rfl) (fun _ _ => spaceReverseLoop_succ rfl) hends
    have hmod := @Int.le_bmod (s.mtbrc + 1) (2 ^ 16) (by decide)
    simp only at hn
    rw [hresult]
    exact ⟨n, by omega, .reverseRecords h (Bool.eq_false_iff.mpr hbot) hzero
      (Bool.eq_false_iff.mpr hload) hends⟩

/-- Every command ends, after at most as many turns as the count and the image allow. -/
theorem exists_runs (dev : BusDevices δ) (mtc : Mtc) (hlower : -2 ^ 15 ≤ s.mtbrc)
    (hupper : s.mtbrc < 2 ^ 15) (hmarker : s.unit.drive.eotpos + 4 ≤ s.unit.drive.mmsz) :
    ∃ n ≤ 2 ^ 15 + s.unit.drive.mmsz + 1, Runs dev mtc s n (s.command dev mtc) := by
  have hwrite (h : mtc.function = 2 ∨ mtc.function = 6) :
      ∃ n ≤ 2 ^ 15 + s.unit.drive.mmsz + 1, Runs dev mtc s n (s.write dev) := by
    by_cases hlegal : s.unit.drive.RejectsWrite s.mtbrc
    · rw [write_of_rejects dev hlower hupper hlegal]
      exact ⟨0, Nat.zero_le _, .writeIllegal h hlegal⟩
    · rw [write_of_not_rejects dev hlower hupper hlegal]
      obtain ⟨n, hn, hends⟩ := exists_endsAfter_writeTurn dev s.writing
      have hcount : (-s.writing.mtbrc).toNat = (-s.mtbrc).toNat := rfl
      exact ⟨n, by omega, .write h hlegal hends⟩
  unfold command
  split
  · rename_i h
    have hrun : Runs dev mtc s 0 (s.command dev mtc) := .straight (Or.inl h)
    unfold command at hrun
    rw [h] at hrun
    exact ⟨0, Nat.zero_le _, hrun⟩
  · rename_i h
    rw [read_eq]
    split_ifs with hmark
    · exact ⟨0, Nat.zero_le _, .readMark h hmark⟩
    · obtain ⟨n, hn, hends⟩ := exists_endsAfter_readTurn dev s.preamble s.reading
      have hcount : (-s.reading.mtbrc).toNat = (-s.mtbrc).toNat := rfl
      exact ⟨n, by omega, .read h hmark hends⟩
  · exact hwrite (Or.inl ‹_›)
  · exact hwrite (Or.inr ‹_›)
  · rename_i h
    have hrun : Runs dev mtc s 0 (s.command dev mtc) := .straight (Or.inr (Or.inl h))
    unfold command at hrun
    rw [h] at hrun
    exact ⟨0, Nat.zero_le _, hrun⟩
  · exact runs_spaceForward dev ‹_› hlower hmarker
  · exact runs_spaceReverse dev ‹_›
  · rename_i h
    have hrun : Runs dev mtc s 0 (s.command dev mtc) := .straight (Or.inr (Or.inr h))
    unfold command at hrun
    rw [h] at hrun
    exact ⟨0, Nat.zero_le _, hrun⟩

end TapeState

/-! ### The load point -/

/-- The flag tells whether the tape is at the load point. -/
def TapeDrive.BotTells (p : TapeDrive) : Prop := p.bot = true ↔ p.pos = 0

namespace TapeUnit

variable {t t' t'' : TapeUnit}

/-- Away from the load point the flag is never set. -/
theorem botTells_of_pos (h : 0 < t.drive.pos) : t.drive.BotTells :=
  ⟨t.drive.pos_of_bot, fun hzero => absurd hzero h.ne'⟩

/-- Every move looks at the position. -/
theorem botTells_moveTo (t : TapeUnit) (q : ℕ) : (t.moveTo q).drive.BotTells := decide_eq_true_iff

/-- So does spacing. -/
theorem Spaced.botTells (h : Spaced t t') : t'.drive.BotTells := by
  unfold TapeDrive.BotTells
  rw [h.bot, decide_eq_true_iff]

/-- The tape is spaced twice. -/
theorem Spaced.trans (h : Spaced t t') (h' : Spaced t' t'') : Spaced t t'' where
  mmsz := h'.mmsz.trans h.mmsz
  eotpos := h'.eotpos.trans h.eotpos
  bot := h'.bot
  eot := by rw [h'.eot, h.eotpos]

/-- An image of this size is loaded, and the flag tells. -/
structure Told (mmsz : ℕ) (t : TapeUnit) : Prop where
  mmsz : t.drive.mmsz = mmsz
  bot : t.drive.BotTells

/-- Reading a byte of an image that has some. -/
theorem told_readUint8 {m : ℕ} (hm : 0 < m) (h : t.drive.mmsz = m) : Told m t.readUint8.2 := by
  refine ⟨(ahead_readUint8 t).mmsz.trans h, ?_⟩
  unfold readUint8
  split
  · rename_i hend
    have hpos : 0 < t.drive.pos := by omega
    exact botTells_of_pos hpos
  · rw [seek_cur]
    exact botTells_moveTo t _

/-- Writing a byte to an image that has some. -/
theorem told_writeUint8 {m : ℕ} (hm : 0 < m) (h : t.drive.mmsz = m) (v : Byte) :
    Told m (t.writeUint8 v).2 := by
  refine ⟨(ahead_writeUint8 t v).mmsz.trans h, ?_⟩
  unfold writeUint8
  split
  · rename_i hend
    have hpos : 0 < t.drive.pos := by omega
    exact botTells_of_pos hpos
  · rw [seek_cur]
    exact botTells_moveTo _ _

/-- Reading a word. -/
theorem told_readUint32 {m : ℕ} (hm : 0 < m) (h : t.drive.mmsz = m) : Told m t.readUint32.2 := by
  rw [readUint32_eq]
  exact told_readUint8 hm (told_readUint8 hm (told_readUint8 hm
    (told_readUint8 hm h).mmsz).mmsz).mmsz

/-- Writing a word. -/
theorem told_writeUint32 {m : ℕ} (hm : 0 < m) (h : t.drive.mmsz = m) (v : Word) :
    Told m (t.writeUint32 v).2 := by
  rw [writeUint32_eq]
  exact told_writeUint8 hm (told_writeUint8 hm (told_writeUint8 hm
    (told_writeUint8 hm h _).mmsz _).mmsz _).mmsz _

/-- Spacing an image. -/
theorem Spaced.told {m : ℕ} (h : Spaced t t') (hm : t.drive.mmsz = m) : Told m t' :=
  ⟨h.mmsz.trans hm, h.botTells⟩

/-- Seeking. -/
theorem Told.seek {m : ℕ} (h : Told m t) (offset : ℤ) : Told m (t.seek offset .cur) := by
  rw [seek_cur]
  exact (spaced_moveTo t _).told h.mmsz

/-- Rewinding. -/
theorem told_rewind {m : ℕ} (h : t.drive.mmsz = m) : Told m t.rewind :=
  ⟨h, (botTells_moveTo t 0)⟩

end TapeUnit

namespace TapeState

variable {dev : BusDevices δ} {mtc : Mtc} {n m : ℕ} {s s' : TapeState δ} {t : TapeUnit}
  {space : TapeUnit → TapeUnit} {stops : TapeUnit → Bool}

/-- What READ leaves. -/
theorem told_read {r : Except ErrCall (Word × TapeState δ)} (hm : 0 < m)
    (hmmsz : s.unit.drive.mmsz = m) (h : EndsAfter (readTurn dev) n (s.preamble, s.reading) r)
    (hr : r.map readEnd = .ok s') : s'.unit.Told m := by
  have hstart : s.reading.unit.Told m := TapeUnit.told_readUint32 hm hmmsz
  obtain ⟨x, rfl, rfl⟩ := exists_of_map_eq_ok hr
  have hloop : x.2.unit.Told m := by
    refine h.of_turn (I := fun x => x.2.unit.Told m)
      (Q := fun r => ∀ x, r = .ok x → x.2.unit.Told m) ?_ ?_ hstart x rfl
    · intro x x' hx hturn
      cases readTurnCases dev x.1 x.2 with
      | leaves hover hturn' => cases hturn'.symm.trans hturn
      | failed hgoes e haccess hturn' => cases hturn'.symm.trans hturn
      | nxm hgoes pv bus haccess herror hturn' => cases hturn'.symm.trans hturn
      | next hgoes pv bus haccess hquiet hturn' =>
        cases hturn'.symm.trans hturn
        exact TapeUnit.told_readUint8 hm (TapeUnit.told_readUint8 hm hx.mmsz).mmsz
    · rintro x r hx hturn x' rfl
      cases readTurnCases dev x.1 x.2 with
      | leaves hover hturn' =>
        cases hturn'.symm.trans hturn
        exact hx
      | failed hgoes e haccess hturn' => cases hturn'.symm.trans hturn
      | nxm hgoes pv bus haccess herror hturn' =>
        cases hturn'.symm.trans hturn
        obtain ⟨hmmsz, hbot⟩ :=
          TapeUnit.told_readUint8 hm (TapeUnit.told_readUint8 hm hx.mmsz).mmsz
        exact ⟨hmmsz, hbot⟩
      | next hgoes pv bus haccess hquiet hturn' => cases hturn'.symm.trans hturn
  have hlook := TapeUnit.told_readUint32 hm (TapeUnit.told_readUint32 hm hloop.mmsz).mmsz
  unfold readEnd
  simp only
  split_ifs
  · exact hloop
  · exact ⟨hloop.mmsz, hloop.bot⟩
  · exact ⟨hlook.mmsz, hlook.bot⟩
  · exact hlook.seek (-4)

/-- What WRITE leaves of a record. -/
theorem told_write {r : Except ErrCall (TapeState δ)} (hm : 0 < m)
    (hmmsz : s.unit.drive.mmsz = m) (h : EndsAfter (writeTurn dev) n s.writing r) {length : Word}
    (hr : r.map (writeEnd length) = .ok s') : s'.unit.Told m := by
  have hstart : s.writing.unit.Told m := TapeUnit.told_writeUint32 hm hmmsz _
  obtain ⟨x, rfl, rfl⟩ := exists_of_map_eq_ok hr
  have hloop : x.unit.Told m := by
    refine h.of_turn (I := fun x => x.unit.Told m)
      (Q := fun r => ∀ x, r = .ok x → x.unit.Told m) ?_ ?_ hstart x rfl
    · intro x x' hx hturn
      cases writeTurnCases dev x with
      | leaves hover hturn' => cases hturn'.symm.trans hturn
      | failed hgoes e haccess hturn' => cases hturn'.symm.trans hturn
      | nxm hgoes data bus haccess herror hturn' => cases hturn'.symm.trans hturn
      | next hgoes data bus haccess hquiet hturn' =>
        cases hturn'.symm.trans hturn
        exact TapeUnit.told_writeUint8 hm (TapeUnit.told_writeUint8 hm hx.mmsz _).mmsz _
    · rintro x r hx hturn x' rfl
      cases writeTurnCases dev x with
      | leaves hover hturn' =>
        cases hturn'.symm.trans hturn
        exact hx
      | failed hgoes e haccess hturn' => cases hturn'.symm.trans hturn
      | nxm hgoes data bus haccess herror hturn' =>
        cases hturn'.symm.trans hturn
        exact ⟨hx.mmsz, hx.bot⟩
      | next hgoes data bus haccess hquiet hturn' => cases hturn'.symm.trans hturn
  unfold writeEnd
  split_ifs
  · exact hloop
  · exact TapeUnit.told_writeUint32 hm hloop.mmsz length
  · exact hloop

/-- What a loop over a file leaves, after a move. -/
theorem spaced_fileTurn (hspace : ∀ t, TapeUnit.Spaced t (space t)) (hs : t.Spaced s.unit)
    (h : EndsAfter (fileTurn space stops) n s s') : t.Spaced s'.unit := by
  refine h.of_turn (I := fun s => t.Spaced s.unit) (Q := fun s => t.Spaced s.unit) ?_ ?_ hs
  · intro s s' hs hturn
    unfold fileTurn at hturn
    split_ifs at hturn
    cases hturn
    exact hs.trans (hspace _)
  · intro s s' hs hturn
    unfold fileTurn at hturn
    split_ifs at hturn
    cases hturn
    exact hs

/-- What a loop over records leaves, after a move. -/
theorem spaced_recordsTurn (hspace : ∀ t, TapeUnit.Spaced t (space t)) (hs : t.Spaced s.unit)
    (h : EndsAfter (recordsTurn space stops) n s s') : t.Spaced s'.unit := by
  refine h.of_turn (I := fun s => t.Spaced s.unit) (Q := fun s => t.Spaced s.unit) ?_ ?_ hs
  · intro s s' hs hturn
    unfold recordsTurn at hturn
    simp only at hturn
    split_ifs at hturn
    cases hturn
    exact hs.trans (hspace _)
  · intro s s' hs hturn
    unfold recordsTurn at hturn
    simp only at hturn
    split_ifs at hturn
    · cases hturn
      exact hs.trans (hspace _)
    · cases hturn
      exact hs

/-- A loop over a file whose first turn goes on. -/
theorem spaced_file (hspace : ∀ t, TapeUnit.Spaced t (space t)) (hgoes : stops s.unit = false)
    (h : EndsAfter (fileTurn space stops) n s s') : s.unit.Spaced s'.unit := by
  have hturn : fileTurn space stops s = .inl { s with unit := space s.unit } := by
    unfold fileTurn
    rw [hgoes, if_neg Bool.false_ne_true]
  cases h with
  | left h => cases hturn.symm.trans h
  | next h rest =>
    cases hturn.symm.trans h
    exact spaced_fileTurn hspace (hspace s.unit) rest

/-- A loop over records that asks for one at least. -/
theorem spaced_records (hspace : ∀ t, TapeUnit.Spaced t (space t)) (hgoes : s.mtbrc < 0)
    (h : EndsAfter (recordsTurn space stops) n s s') : s.unit.Spaced s'.unit := by
  cases h with
  | left h =>
    unfold recordsTurn at h
    rw [if_pos hgoes] at h
    simp only at h
    split_ifs at h
    cases h
    exact hspace s.unit
  | next h rest =>
    unfold recordsTurn at h
    rw [if_pos hgoes] at h
    simp only at h
    split_ifs at h
    cases h
    exact spaced_recordsTurn hspace (hspace s.unit) rest

end TapeState

/-! ### What a command does to the flag -/

/-- The command moves the tape, or finds it at the load point: it is not WRITE or WRITE EOF that
is illegal, and not SPACE FORWARD with a positive count. -/
def TapeDrive.Moves (p : TapeDrive) (function : Fin 8) (mtbrc : ℤ) : Prop :=
  match function with
  | 2 | 6 => ¬p.RejectsWrite mtbrc
  | 3 => p.readOnly = false
  | 4 => mtbrc ≤ 0
  | _ => True

namespace TapeState

variable {dev : BusDevices δ} {mtc : Mtc} {n : ℕ} {s s' : TapeState δ}

/-- The command has looked at the position, or it has left the tape where it was. -/
inductive Ended (function : Fin 8) (s s' : TapeState δ) : Prop
  /-- The flag tells. -/
  | told (moves : s.unit.drive.Moves function s.mtbrc) (told : s'.unit.Told s.unit.drive.mmsz)
  /-- Nothing was moved. -/
  | stays (stays : ¬s.unit.drive.Moves function s.mtbrc) (drive : s'.unit.drive = s.unit.drive)

/-- A command without a loop. -/
theorem ended_straight (dev : BusDevices δ)
    (h : mtc.function = 0 ∨ mtc.function = 3 ∨ mtc.function = 7) (hm : 0 < s.unit.drive.mmsz)
    (hcommand : s.command dev mtc = .ok s') : Ended mtc.function s s' := by
  unfold command at hcommand
  rcases h with h | h | h <;> rw [h] at hcommand ⊢
  · cases hcommand
    obtain ⟨hmmsz, hbot⟩ := @TapeUnit.told_rewind s.unit _ rfl
    exact .told trivial ⟨hmmsz, hbot⟩
  · cases hcommand
    cases hwrite : s.unit.drive.readOnly with
    | true =>
      have hillegal : s.writeEof = s.onMts ({ · with ilc := true }) := if_pos hwrite
      rw [hillegal]
      exact .stays (fun hmoves => Bool.noConfusion (hmoves.symm.trans hwrite)) rfl
    | false =>
      have hmark : s.writeEof =
          { s with unit := s.unit.writeFileMark.2.onMts ({ · with eof := true }) } :=
        if_neg (Bool.eq_false_iff.mp hwrite)
      obtain ⟨hmmsz, hbot⟩ := @TapeUnit.told_writeUint32 s.unit _ hm rfl tapeFileMark
      rw [hmark]
      exact .told hwrite ⟨hmmsz, hbot⟩
  · cases hcommand
    have hunit : (s.rewind mtc.intEnb).unit = s.unit.rewind := by
      unfold rewind
      simp only
      split <;> rfl
    refine .told trivial ?_
    rw [hunit]
    exact TapeUnit.told_rewind rfl

/-- What a command leaves when it ends. -/
theorem Runs.ended {r : Except ErrCall (TapeState δ)} (h : Runs dev mtc s n r)
    (hm : 0 < s.unit.drive.mmsz) (hmts : s.unit.mts.eof = false ∧ s.unit.mts.eot = false)
    (hr : r = .ok s') : Ended mtc.function s s' := by
  have hmoves {function : Fin 8} (h : mtc.function = function)
      (hmoves : s.unit.drive.Moves function s.mtbrc) :
      s.unit.drive.Moves mtc.function s.mtbrc := h ▸ hmoves
  have hstays {function : Fin 8} (h : mtc.function = function)
      (hstays : ¬s.unit.drive.Moves function s.mtbrc) :
      ¬s.unit.drive.Moves mtc.function s.mtbrc := h ▸ hstays
  have hforward := TapeUnit.spaced_spaceForward
  have hreverse (t : TapeUnit) := TapeUnit.spaced_spaceReverse t true
  have hfirst := TapeUnit.spaced_spaceReverse s.unit false
  cases h with
  | straight h => exact ended_straight dev h hm hr
  | readMark h mark =>
    cases hr
    obtain ⟨hmmsz, hbot⟩ := TapeUnit.told_readUint32 hm (t := s.unit) rfl
    exact .told (hmoves h trivial) ⟨hmmsz, hbot⟩
  | read h record loop => exact .told (hmoves h trivial) (told_read hm rfl loop hr)
  | writeIllegal h illegal =>
    cases hr
    rcases h with h | h
    · exact .stays (hstays h (not_not.mpr illegal)) rfl
    · exact .stays (hstays h (not_not.mpr illegal)) rfl
  | write h legal loop =>
    have htold := told_write hm rfl loop hr
    rcases h with h | h
    · exact .told (hmoves h legal) htold
    · exact .told (hmoves h legal) htold
  | forwardEnd h eot => exact absurd (hmts.2.symm.trans eot) Bool.false_ne_true
  | forwardFile h eot zero loop =>
    cases hr
    have hgoes : s.unit.stopsForward = false := by
      unfold TapeUnit.stopsForward
      rw [hmts.1, hmts.2, Bool.or_false]
    exact .told (hmoves h zero.le) ((spaced_file hforward hgoes loop).told rfl)
  | forwardRecords h eot count loop =>
    cases hr
    by_cases hcount : s.mtbrc < 0
    · exact .told (hmoves h hcount.le) ((spaced_records hforward hcount loop).told rfl)
    · have hover : recordsTurn TapeUnit.spaceForward TapeUnit.stopsForward s = .inr s :=
        if_neg hcount
      have hsame : s' = s := by
        cases loop with
        | left h => exact (Sum.inr.inj (hover.symm.trans h)).symm
        | next h rest => cases hover.symm.trans h
      have hpositive : ¬s.mtbrc ≤ 0 := by omega
      exact .stays (hstays h hpositive) (congrArg (fun s => s.unit.drive) hsame)
  | reverseStart h bot =>
    cases hr
    have hpos := s.unit.drive.pos_of_bot bot
    exact .told (hmoves h trivial) ⟨rfl, iff_of_true bot hpos⟩
  | reverseFile h bot zero loop =>
    cases hr
    exact .told (hmoves h trivial) ((spaced_fileTurn hreverse hfirst loop).told rfl)
  | reverseRecord h bot count load =>
    cases hr
    exact .told (hmoves h trivial) (hfirst.told rfl)
  | reverseRecords h bot count load loop =>
    cases hr
    exact .told (hmoves h trivial) ((spaced_recordsTurn hreverse hfirst loop).told rfl)

end TapeState

/-! ### Runs of commands -/

/-- The controller is ready, and online drives have an image: an empty file is not mapped. -/
structure TapesLoaded (s : TapeSystem δ) : Prop where
  ready : s.controller.mtc.cur = true
  loaded : ∀ d, (s.controller.drives d).online = true → 0 < (s.controller.drives d).mmsz

/-- A command for an online drive ends, after a number of turns that the image bounds. -/
def CommandEnds (dev : BusDevices δ) (c : TapeCommand) (s : TapeSystem δ) : Prop :=
  c.Goes → (s.controller.drives c.slt).online = true →
    ∃ n ≤ 2 ^ 15 + (s.controller.drives c.slt).mmsz + 1,
      (s.found c).Runs dev c.register n ((s.found c).command dev c.register)

/-- A command for an online drive leaves the tape on its image, and the flag tells whether it is at
the load point. -/
def CommandTells (dev : BusDevices δ) (c : TapeCommand) (s : TapeSystem δ) : Prop :=
  c.Goes → (s.controller.drives c.slt).online = true → ∀ s', s.issue dev c = .ok s' →
    (s'.controller.drives c.slt).pos ≤ (s.controller.drives c.slt).mmsz ∧
      (s'.controller.drives c.slt).BotTells

/-- The flag tells before the command, or the command moves the tape. -/
def TellsOrMoves (c : TapeCommand) (s : TapeSystem δ) : Prop :=
  c.Goes → (s.controller.drives c.slt).online = true →
    (s.controller.drives c.slt).BotTells ∨
      (s.controller.drives c.slt).Moves c.function c.mtbrc.toInt

namespace TapeSystem

variable {dev : BusDevices δ} {c : TapeCommand} {s s' : TapeSystem δ}

/-- MTC without GO, or with power clear. -/
theorem updateMtc_of_not_goes (h : ¬c.Goes) (hcur : s.controller.mtc.cur = true) :
    (s.updateMtc c.mtc).1 = false ∧
      (s.updateMtc c.mtc).2.controller.drives = s.controller.drives ∧
      (s.updateMtc c.mtc).2.controller.mtc.cur = true := by
  unfold updateMtc
  simp only
  split_ifs with hclear hgoes
  · exact ⟨rfl, rfl, rfl⟩
  · exact absurd ⟨hgoes, Bool.eq_false_iff.mpr hclear⟩ h
  · exact ⟨rfl, rfl, hcur⟩

/-- Without GO, or for a drive that is offline, no tape is touched. -/
theorem issue_idle (dev : BusDevices δ) (hcur : s.controller.mtc.cur = true)
    (hidle : ¬(c.Goes ∧ (s.controller.drives c.slt).online = true)) :
    ∃ s', s.issue dev c = .ok s' ∧ s'.controller.drives = s.controller.drives ∧
      s'.controller.mtc.cur = true := by
  by_cases hgo : c.Goes
  · have hoffline : (s.controller.drives c.slt).online = false :=
      Bool.eq_false_iff.mpr fun honline => hidle ⟨hgo, honline⟩
    have hcur' : (s.going c).controller.mtc.cur = true := hcur
    have hselr : (s.going c).busy.controller.mts.selr = false := hoffline
    rw [issue_writes dev hgo]
    unfold run
    rw [hcur', if_neg (by decide)]
    unfold go
    change ∃ s', ((if (!(s.going c).busy.controller.mts.selr) = true then _ else _ :
      Except ErrCall (TapeSystem δ)).map _) = .ok s' ∧ _
    rw [hselr, if_pos (by decide)]
    exact ⟨_, rfl, rfl, rfl⟩
  · have hmtbrc : s.unibusWrite 0o772524 c.mtbrc =
        .ok (false, s.onController ({ · with mtbrc := c.mtbrc.toInt })) := rfl
    have hmtcma (s' : TapeSystem δ) : s'.unibusWrite 0o772526 c.mtcma =
        .ok (false, s'.onController fun k =>
          { k with mtcma := (k.mtcma &&& (0xFFFF0000 : Word)) ||| c.mtcma.setWidth 32 }) := rfl
    have hmtc (s' : TapeSystem δ) : s'.unibusWrite 0o772522 c.mtc = .ok (s'.updateMtc c.mtc) := rfl
    obtain ⟨hgo', hdrives, hcur'⟩ := @updateMtc_of_not_goes _ c
      ((s.onController ({ · with mtbrc := c.mtbrc.toInt })).onController fun k =>
        { k with mtcma := (k.mtcma &&& (0xFFFF0000 : Word)) ||| c.mtcma.setWidth 32 }) hgo hcur
    unfold issue
    rw [hmtbrc]
    simp only [bind, Except.bind, hmtcma, hmtc, hgo', Bool.false_eq_true, if_false]
    exact ⟨_, rfl, hdrives, hcur'⟩

/-- A command for an online drive ends. -/
theorem exists_runs_found (dev : BusDevices δ)
    (honline : (s.controller.drives c.slt).online = true) :
    ∃ n ≤ 2 ^ 15 + (s.controller.drives c.slt).mmsz + 1,
      (s.found c).Runs dev c.register n ((s.found c).command dev c.register) := by
  exact (s.found c).exists_runs dev c.register (BitVec.le_toInt c.mtbrc)
    (BitVec.toInt_lt (x := c.mtbrc)) (found_marker honline rfl).2

/-- A command that is executed leaves a tape on which it has ended. -/
theorem issue_ended (hs : TapesLoaded s) (hgo : c.Goes)
    (honline : (s.controller.drives c.slt).online = true) (hissue : s.issue dev c = .ok s') :
    ∃ t, s' = s.left c t ∧ (s.found c).Ended c.function t := by
  rw [issue_eq dev hgo hs.ready honline] at hissue
  obtain ⟨t, hcommand, rfl⟩ := exists_of_map_eq_ok hissue
  obtain ⟨n, -, hrun⟩ := exists_runs_found dev honline
  exact ⟨t, rfl, hrun.ended (hs.loaded _ honline) ⟨rfl, rfl⟩ hcommand⟩

/-- A command leaves an image as large as before. -/
theorem mmsz_of_ended {f : Fin 8} {t t' : TapeState δ} (h : t.Ended f t') :
    t'.unit.drive.mmsz = t.unit.drive.mmsz := by
  cases h with
  | told moves told => exact told.mmsz
  | stays stays drive => rw [drive]

/-- The images stay loaded. -/
theorem tapesLoaded_of_issue (hs : TapesLoaded s) (hissue : s.issue dev c = .ok s') :
    TapesLoaded s' := by
  by_cases hexecuted : c.Goes ∧ (s.controller.drives c.slt).online = true
  · obtain ⟨t, rfl, hended⟩ := issue_ended hs hexecuted.1 hexecuted.2 hissue
    refine ⟨rfl, fun d honline => ?_⟩
    by_cases hd : d = c.slt
    · subst hd
      rw [drives_left]
      have hm := hs.loaded c.slt hexecuted.2
      have hmmsz : t.unit.drive.mmsz = (s.controller.drives c.slt).mmsz := mmsz_of_ended hended
      exact hmmsz ▸ hm
    · have hother : (s.left c t).controller.drives d = s.controller.drives d :=
        Function.update_of_ne hd _ _
      rw [hother] at honline ⊢
      exact hs.loaded d honline
  · obtain ⟨s₁, hissue₁, hdrives, hcur⟩ := issue_idle dev hs.ready hexecuted
    cases hissue₁.symm.trans hissue
    refine ⟨hcur, ?_⟩
    rw [hdrives]
    exact hs.loaded

/-- The flag tells after a command if and only if it told before, or the command moves the
tape. -/
theorem commandTells_iff (hs : TapesLoaded s) (hissue : s.issue dev c = .ok s') :
    CommandTells dev c s ↔ TellsOrMoves c s := by
  constructor
  · intro h hgo honline
    obtain ⟨t, rfl, hended⟩ := issue_ended hs hgo honline hissue
    have htells := (h hgo honline _ hissue).2
    rw [drives_left] at htells
    cases hended with
    | told moves told => exact Or.inr moves
    | stays stays drive =>
      have htells' : t.unit.drive.BotTells := htells
      rw [drive] at htells'
      exact Or.inl htells'
  · intro h hgo honline s₁ hissue₁
    obtain ⟨t, rfl, hended⟩ := issue_ended hs hgo honline hissue₁
    have hmmsz : t.unit.drive.mmsz = (s.controller.drives c.slt).mmsz := mmsz_of_ended hended
    rw [drives_left]
    refine ⟨hmmsz ▸ t.unit.drive.pos_le, ?_⟩
    cases hended with
    | told moves told => exact told.bot
    | stays stays drive =>
      have htells : t.unit.drive.BotTells := by
        rw [drive]
        exact (h hgo honline).resolve_right stays
      exact htells

end TapeSystem

/-- In a run of commands, all of them end and leave their tapes on the images with the flag for
the load point right, if and only if the flag is right before each command that does not move
the tape. -/
theorem tape_commands_end (dev : BusDevices δ) {cs : List TapeCommand} {s : TapeSystem δ}
    (hs : TapesLoaded s) :
    (EveryAttempt (fun c s => s.issue dev c) (CommandEnds dev) cs s ∧
        EveryStep (fun c s => s.issue dev c) (CommandTells dev) cs s) ↔
      EveryStep (fun c s => s.issue dev c) TellsOrMoves cs s := by
  have hends : EveryAttempt (fun c s => TapeSystem.issue dev c s) (CommandEnds dev) cs s :=
    everyAttempt_of_forall fun _ _ _ honline => TapeSystem.exists_runs_found dev honline
  rw [and_iff_right hends]
  exact everyStep_iff (fun _ _ _ hs hissue => TapeSystem.commandTells_iff hs hissue)
    (fun _ _ _ hs hissue _ => TapeSystem.tapesLoaded_of_issue hs hissue) hs

/-- Blank tapes as the drives are initialised: at position 0, without the flag. -/
def initialTapes : TapeSystem XbusDevices :=
  TapeHandshake.blankTapes.onController fun k => { k with
    drives := fun d => { k.drives d with bot := false, pos_of_bot := Bool.noConfusion } }

/-- They are loaded. -/
theorem tapesLoaded_initialTapes : TapesLoaded initialTapes :=
  ⟨rfl, fun _ _ => Nat.succ_pos 191999⟩

/-- REWIND and then READ on tapes as they are initialised. -/
theorem tape_commands_end_rewind_read :
    EveryAttempt (fun c s => s.issue bareDevices c) (CommandEnds bareDevices)
        [⟨0, 0, 0o17⟩, ⟨0xFFF8, 0o140000, 0o3⟩] initialTapes ∧
      EveryStep (fun c s => s.issue bareDevices c) (CommandTells bareDevices)
        [⟨0, 0, 0o17⟩, ⟨0xFFF8, 0o140000, 0o3⟩] initialTapes :=
  (tape_commands_end bareDevices tapesLoaded_initialTapes).mpr fun _ _ =>
    ⟨fun _ _ => Or.inr trivial, fun _ _ => ⟨fun _ _ => Or.inr trivial, trivial⟩⟩

/-- SPACE FORWARD with a positive count leaves a tape at position 0 without the flag. -/
theorem not_tape_commands_end :
    ¬(EveryAttempt (fun c s => s.issue bareDevices c) (CommandEnds bareDevices) [⟨1, 0, 0o11⟩]
        initialTapes ∧
      EveryStep (fun c s => s.issue bareDevices c) (CommandTells bareDevices) [⟨1, 0, 0o11⟩]
        initialTapes) := by
  rintro ⟨-, h⟩
  have hgo : TapeCommand.Goes ⟨1, 0, 0o11⟩ := by decide
  have hissue := TapeSystem.issue_eq bareDevices hgo (s := initialTapes) rfl rfl
  have hcommand : (initialTapes.found ⟨1, 0, 0o11⟩).command bareDevices
      (TapeCommand.register ⟨1, 0, 0o11⟩) =
        .ok (initialTapes.found ⟨1, 0, 0o11⟩).spaceForward := rfl
  rw [hcommand] at hissue
  have htells := (TapeSystem.commandTells_iff tapesLoaded_initialTapes hissue).mp (h _ hissue).1
  rcases htells hgo rfl with hbot | hmoves
  · exact Bool.false_ne_true (hbot.mpr rfl)
  · exact absurd (show (1 : ℤ) ≤ 0 from hmoves) (by decide)

end Usim
