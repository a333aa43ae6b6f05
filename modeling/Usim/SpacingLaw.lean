import Usim.TapeCommands
import Usim.TapeSpacing
import Usim.UnibusMap

/-!
# The law of spacing

SPACE FORWARD and SPACE REVERSE, issued at a boundary between two items of a
well-formed image, are to end at a boundary. They do, unless one mark is taken for
a length.
-/

namespace Usim

open Lib

/-- The command spaces over `n` records of a drive. -/
structure TapeCommand.Spaces (c : TapeCommand) (function slt : Fin 8) (n : ℕ) : Prop where
  /-- The command is started. -/
  goes : c.Goes
  /-- Forward or reverse. -/
  function : c.function = function
  /-- The drive. -/
  slt : c.slt = slt
  /-- The number of records. -/
  mtbrc : c.mtbrc.toInt = -n

/-- The end-of-tape marker at the density of a command. -/
def TapeCommand.eotpos (c : TapeCommand) (p : TapeDrive) : ℤ :=
  (p.lengthFt - eotOffsetFt) * 12 * c.bpi.toNat

/-- The tape of a drive stands between two items. -/
structure TapeDrive.Between (p : TapeDrive) (pre rest : List TapeItem) : Prop where
  /-- The items. -/
  items : Recorded p (pre ++ rest)
  /-- The position. -/
  pos : p.pos = tapeSize pre

namespace TapeSystem

variable {δ : Type} (dev : BusDevices δ) {s : TapeSystem δ} {slt : Fin 8} {n : ℕ}
  {pre rest : List TapeItem} {c : TapeCommand}

/-- The drive after a command. -/
theorem unitOf_left (t : TapeState δ) :
    (s.left c t).unitOf c.slt = ⟨{ t.unit.drive with ready := true }, t.unit.mts⟩ := by
  rw [unitOf, drives_left]
  rfl

/-- The end-of-tape marker while a command is executed. -/
theorem found_marker (honline : (s.controller.drives slt).online = true) (hslt : c.slt = slt) :
    (s.found c).unit.drive.eotpos = c.eotpos (s.controller.drives slt) ∧
      (s.found c).unit.drive.eotpos + 4 ≤ (s.found c).unit.drive.mmsz := by
  subst hslt
  refine ⟨rfl, TapeUnit.eotpos_setBpi honline ?_⟩
  unfold TapeCommand.bpi
  split
  · exact Or.inl rfl
  · exact Or.inr rfl

variable (hcur : s.controller.mtc.cur = true) (honline : (s.controller.drives slt).online = true)

include hcur honline

/-- SPACE FORWARD is executed. -/
theorem issue_spaceForward (hc : c.Spaces 4 slt n) (hn : n ≠ 0) :
    s.issue dev c = .ok (s.left c (TapeState.spaceForwardLoop n (s.found c))) := by
  obtain ⟨hgoes, hfunction, rfl, hmtbrc⟩ := hc
  have hloop := TapeState.spaceForward_eq (s := s.found c) rfl hmtbrc hn
  have hcommand : (s.found c).command dev c.register =
      .ok (TapeState.spaceForwardLoop n (s.found c)) := by
    unfold TapeState.command TapeCommand.register
    dsimp only
    rw [hfunction, ← hloop]
  rw [issue_eq dev hgoes hcur honline, hcommand]
  rfl

/-- SPACE REVERSE is executed. -/
theorem issue_spaceReverse (hc : c.Spaces 5 slt n) :
    s.issue dev c = .ok (s.left c (s.found c).spaceReverse) := by
  obtain ⟨hgoes, hfunction, rfl, -⟩ := hc
  have hcommand : (s.found c).command dev c.register = .ok (s.found c).spaceReverse := by
    unfold TapeState.command TapeCommand.register
    dsimp only
    rw [hfunction]
  rw [issue_eq dev hgoes hcur honline, hcommand]
  rfl

omit hcur

/-- SPACE FORWARD ends where it is to end if and only if the way is clear. -/
theorem forwardStop_left_iff (hc : c.Spaces 4 slt n) (hn : n ≠ 0)
    (hbetween : (s.controller.drives slt).Between pre rest) :
    ForwardStop n pre rest ((s.left c (TapeState.spaceForwardLoop n (s.found c))).unitOf slt) ↔
      ClearAhead (c.eotpos (s.controller.drives slt)) (s.controller.drives slt).mmsz n
        (tapeSize pre) rest := by
  obtain ⟨-, -, rfl, -⟩ := hc
  obtain ⟨heotpos, hmarker⟩ := found_marker honline rfl
  have hiff := TapeState.forwardStop_spaceForwardLoop_iff (n := n) hmarker
    (hbetween.items.congr rfl rfl) hbetween.pos rfl hn
  rw [heotpos] at hiff
  rw [unitOf_left]
  exact ⟨fun h => hiff.mp (h.congr rfl rfl), fun h => (hiff.mpr h).congr rfl rfl⟩

omit honline

/-- SPACE REVERSE ends where it is to end if and only if two marks do not stand directly
before the tape. -/
theorem reverseStop_left_iff (hc : c.Spaces 5 slt (n + 1)) (hn : n < 2 ^ 15)
    (hbetween : (s.controller.drives slt).Between pre rest) :
    (∃ pre', PastMark pre pre' ∧
        ReverseStop (n + 1) pre' ((s.left c (s.found c).spaceReverse).unitOf slt)) ↔
      ¬∃ pre', pre = pre' ++ [.mark, .mark] := by
  obtain ⟨-, -, rfl, hmtbrc⟩ := hc
  rw [← TapeState.reverseStop_spaceReverse_iff (s := s.found c) (hbetween.items.congr rfl rfl)
    hbetween.pos rfl hmtbrc hn, unitOf_left]
  exact exists_congr fun pre' => and_congr_right fun _ =>
    ⟨fun h => h.congr rfl rfl rfl, fun h => h.congr rfl rfl rfl⟩

/-- Spacing reverse over records that stand before the tape, and over a mark behind them. -/
theorem pos_left_spaceReverse {passed : List TapeItem} (adjacent : List TapeItem)
    (hc : c.Spaces 5 slt (n + 1)) (hn : n < 2 ^ 15)
    (hbetween : (s.controller.drives slt).Between (pre ++ passed ++ adjacent) rest)
    (hadjacent : adjacent = [] ∨ adjacent = [.mark]) (hrecords : ∀ i ∈ passed, i.IsRecord)
    (hcount : passed.length = n + 1) :
    ((s.left c (s.found c).spaceReverse).controller.drives slt).pos = tapeSize pre := by
  have hlast (pre' : List TapeItem) : pre ++ passed ≠ pre' ++ [.mark] := by
    intro h
    obtain ⟨passed', i, rfl⟩ := (List.eq_nil_or_concat passed).resolve_left (by
      rintro rfl
      cases hcount)
    rw [List.concat_eq_append, ← List.append_assoc] at h
    have hi := List.append_inj_right' h rfl
    cases hi
    exact hrecords .mark (by simp)
  have htwo : ¬∃ pre', pre ++ passed ++ adjacent = pre' ++ [.mark, .mark] := by
    rintro ⟨pre', h⟩
    rw [List.append_cons pre'] at h
    rcases hadjacent with rfl | rfl
    · rw [List.append_nil] at h
      exact hlast _ h
    · exact hlast _ (List.append_inj_left' h rfl)
  obtain ⟨pre', hpast, hstop⟩ := (reverseStop_left_iff hc hn hbetween).mpr htwo
  have hpre : pre' = pre ++ passed := by
    rcases hadjacent with rfl | rfl
    · rw [List.append_nil] at hpast
      generalize hitems : pre ++ passed = items at hpast
      cases hpast with
      | mark => exact absurd hitems (hlast _)
      | unmarked => rfl
    · exact pastMark_mark_iff.mp hpast
  rw [hpre] at hstop
  exact hstop.pos_records hrecords hcount

/-- Spacing forward over records leaves the image. -/
theorem sameImage_left (honline : (s.controller.drives slt).online = true) (hslt : c.slt = slt)
    (hroom : (s.controller.drives slt).pos + 4 ≤ (s.controller.drives slt).mmsz) :
    (s.unitOf slt).SameImage
      ((s.left c (TapeState.spaceForwardLoop n (s.found c))).unitOf slt) := by
  subst hslt
  obtain ⟨-, hmarker⟩ := found_marker honline rfl
  obtain ⟨hmm, hmmsz, honline'⟩ :=
    TapeState.sameImage_spaceForwardLoop (n := n) (s := s.found c) hmarker hroom
  rw [unitOf_left]
  exact ⟨hmm, hmmsz, honline'⟩

end TapeSystem

/-- Where the commands that space over `n` records end, from a boundary between the items
`pre` and `rest`. -/
structure SpacingExact {δ : Type} (dev : BusDevices δ) (s : TapeSystem δ) (slt : Fin 8) (n : ℕ)
    (pre rest : List TapeItem) : Prop where
  /-- SPACE FORWARD ends after `n` records, after the first mark, or at the end of the tape,
  if and only if the way is clear. -/
  forward : ∀ {c : TapeCommand}, c.Spaces 4 slt n → ∃ s', s.issue dev c = .ok s' ∧
    (ForwardStop n pre rest (s'.unitOf slt) ↔
      ClearAhead (c.eotpos (s.controller.drives slt)) (s.controller.drives slt).mmsz n
        (tapeSize pre) rest)
  /-- SPACE REVERSE ends before `n` records, after a mark, or at the load point, if and only
  if two marks do not stand directly before the tape. A mark directly before the tape is
  passed over. -/
  reverse : ∀ {c : TapeCommand}, c.Spaces 5 slt n → ∃ s', s.issue dev c = .ok s' ∧
    ((∃ pre', PastMark pre pre' ∧ ReverseStop n pre' (s'.unitOf slt)) ↔
      ¬∃ pre', pre = pre' ++ [.mark, .mark])
  /-- When SPACE FORWARD has passed `n` records, with a mark behind them or not, SPACE
  REVERSE leads back. -/
  roundTrip : ∀ {c c' : TapeCommand}, c.Spaces 4 slt n → c'.Spaces 5 slt n →
    ∀ {passed rest' : List TapeItem}, rest = passed ++ rest' → (∀ i ∈ passed, i.IsRecord) →
    passed.length = n → ∃ s' s'', s.issue dev c = .ok s' ∧ s'.issue dev c' = .ok s'' ∧
      ((s'.controller.drives slt).pos = tapeSize (pre ++ passed) ∨
          (∃ rest'', rest' = .mark :: rest'') ∧
            (s'.controller.drives slt).pos = tapeSize (pre ++ passed ++ [.mark]) →
        (s''.controller.drives slt).pos = (s.controller.drives slt).pos)

open TapeSystem in
/-- The exact law of spacing, from every boundary of every well-formed image. -/
theorem tape_spacing_exact {δ : Type} (dev : BusDevices δ) {s : TapeSystem δ} {slt : Fin 8}
    {n : ℕ} {pre rest : List TapeItem} (hcur : s.controller.mtc.cur = true)
    (honline : (s.controller.drives slt).online = true)
    (hbetween : (s.controller.drives slt).Between pre rest) (hn : 1 ≤ n) (hn' : n ≤ 2 ^ 15) :
    SpacingExact dev s slt n pre rest := by
  obtain ⟨n, rfl⟩ : ∃ k, n = k + 1 := ⟨n - 1, by omega⟩
  have hlt : n < 2 ^ 15 := by omega
  refine ⟨fun hc => ⟨_, issue_spaceForward dev hcur honline hc (Nat.succ_ne_zero n),
    forwardStop_left_iff honline hc (Nat.succ_ne_zero n) hbetween⟩,
    fun hc => ⟨_, issue_spaceReverse dev hcur honline hc, reverseStop_left_iff hc hlt hbetween⟩, ?_⟩
  intro c c' hc hc' passed rest' hrest hrecords hcount
  subst hrest
  have hroom : (s.controller.drives slt).pos + 4 ≤ (s.controller.drives slt).mmsz := by
    have hle := hbetween.items.le
    cases passed with
    | nil => cases hcount
    | cons i passed =>
      have hfour := four_le_tapeSize i (passed ++ rest')
      rw [hbetween.pos]
      exact (Nat.add_le_add_left hfour _).trans hle
  have hforward := issue_spaceForward dev hcur honline hc (Nat.succ_ne_zero n)
  obtain ⟨hmm, hmmsz, honline'⟩ := sameImage_left (n := n + 1) honline hc.slt hroom
  generalize hs' : s.left c (TapeState.spaceForwardLoop (n + 1) (s.found c)) = s' at *
  have hcur' : s'.controller.mtc.cur = true := by
    rw [← hs']
    rfl
  refine ⟨s', _, hforward, issue_spaceReverse dev hcur' (honline'.trans honline) hc', ?_⟩
  have hitems (adjacent rest'' : List TapeItem) (h : rest' = adjacent ++ rest'') :
      Recorded (s'.controller.drives slt) (pre ++ passed ++ adjacent ++ rest'') := by
    rw [List.append_assoc, List.append_assoc, ← h]
    exact hbetween.items.congr hmm hmmsz
  rw [hbetween.pos]
  rintro (hend | ⟨⟨rest'', h⟩, hend⟩)
  · refine pos_left_spaceReverse [] hc' hlt ⟨hitems [] rest' rfl, ?_⟩ (Or.inl rfl)
      hrecords hcount
    rwa [List.append_nil]
  · exact pos_left_spaceReverse [.mark] hc' hlt ⟨hitems [.mark] rest'' h, hend⟩ (Or.inr rfl)
      hrecords hcount

/-- A tape that holds the items `pre` and `rest`, and nothing behind them, between the two. -/
def loadedTape (pre rest : List TapeItem) : TapeDrive where
  unit := 0
  lengthFt := 10
  readOnly := false
  mm := store (fun _ => 0) 0 (tapeBytes (pre ++ rest))
  mmsz := 192000 + tapeSize (pre ++ rest)
  online := true
  bpi := 1600
  eotpos := 115200
  pos := tapeSize pre
  bot := tapeSize pre = 0
  rws := false
  ready := true
  pos_le := by
    rw [tapeSize_append]
    omega
  pos_of_bot := of_decide_eq_true
  size_le := fun _ => by omega

/-- A ready controller with this tape on every drive. -/
def loadedSystem (pre rest : List TapeItem) : TapeSystem XbusDevices where
  controller := {
    mts := ⟨false, false, false, false, false, false, true⟩
    mtc := ⟨false, false, false, 0, true, false, 0⟩
    mtbrc := 0
    mtcma := 0
    mtd := 0
    mtrd := 0
    drives := fun _ => loadedTape pre rest }
  bus := mappedBus firstPages

/-- The loaded tape stands between its items. -/
theorem between_loadedTape (pre rest : List TapeItem) : (loadedTape pre rest).Between pre rest := by
  refine ⟨⟨bytesAt_store _, Nat.le_add_left _ _, fun _ => ?_⟩, rfl⟩
  have hblank (k : ℕ) : (loadedTape pre rest).mm (tapeSize (pre ++ rest) + k) = 0 :=
    store_of_notMem (Or.inr (by rw [Nat.zero_add]; exact Nat.le_add_right _ _))
  unfold wordAt
  rw [hblank 3, hblank 2, hblank 1, ← Nat.add_zero (tapeSize (pre ++ rest)), hblank 0]
  decide

/-- Four bytes of data. -/
def shortRecord : TapeRecord := ⟨[1, 2, 3, 4], by decide⟩

/-- From a record, over it and back. -/
theorem tape_spacing_exact_record :
    SpacingExact bareDevices (loadedSystem [.mark] [.record shortRecord]) 0 1 [.mark]
      [.record shortRecord] :=
  tape_spacing_exact bareDevices rfl rfl (between_loadedTape _ _) (by decide) (by decide)

/-- Before a mark, SPACE FORWARD takes the mark for a length and ends in the unused tape
behind it. Behind two marks, SPACE REVERSE takes the first one for a length and runs over
the record before it to the load point, without EOF. -/
theorem tape_spacing_over_marks :
    (∃ s', (loadedSystem [] [.mark]).issue bareDevices ⟨-1, 0, 0o11⟩ = .ok s' ∧
      (s'.controller.drives 0).pos = 7 ∧ ¬ForwardStop 1 [] [.mark] (s'.unitOf 0)) ∧
    ∃ s', (loadedSystem [.record shortRecord, .mark, .mark] []).issue bareDevices ⟨-1, 0, 0o13⟩ =
        .ok s' ∧ (s'.controller.drives 0).pos = 0 ∧ s'.controller.mts.eof = false ∧
      ¬∃ pre', PastMark [.record shortRecord, .mark, .mark] pre' ∧
        ReverseStop 1 pre' (s'.unitOf 0) := by
  constructor
  · refine ⟨_, rfl, rfl, fun h => ?_⟩
    exact absurd (forwardStop_mark_iff.mp h).1 (by decide)
  · have hc : TapeCommand.Spaces ⟨-1, 0, 0o13⟩ 5 0 1 := ⟨by decide, rfl, rfl, rfl⟩
    have hbetween := between_loadedTape [.record shortRecord, .mark, .mark] []
    refine ⟨_, rfl, rfl, rfl, ?_⟩
    exact (TapeSystem.reverseStop_left_iff (n := 0) hc (by decide) hbetween).not.mpr
      (not_not.mpr ⟨[.record shortRecord], rfl⟩)

end Usim
