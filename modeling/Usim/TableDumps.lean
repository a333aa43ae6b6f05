import Usim.MachineControl

/-!
# Dumps of the tables

`show_amem`, `show_pdl`, `show_l1_map` and `show_l2_map` of `dump.c`, which print a table in groups
of four words and skip groups that are like the one before. The four loops are alike. A table is
taken with what stands in memory behind it, since the loops read further than its end.
-/

namespace Usim

/-- A line of a dump. -/
inductive DumpLine
  /-- A text. -/
  | text (s : String)
  /-- `"\tPDL POINTER: %o, PDL INDEX: %o\n"`. -/
  | pointers (pdlPointer pdlIndex : Word)
  /-- `"\tA[%04o] %011o %011o %011o %011o\n"`, for the table `A`. -/
  | group (name : String) (i : ℕ) (w₀ w₁ w₂ w₃ : Word)
  /-- `"\t...\n"`. -/
  | ellipsis
  deriving DecidableEq

/-- The lines that a dump has printed, and the subscripts that it has read. -/
structure Dump where
  lines : List DumpLine
  reads : List ℕ

/-- A table, and the words in memory from its first one on. -/
structure DumpTable where
  name : String
  size : ℕ
  word : ℕ → Word

namespace DumpTable

/-- The line of four words. -/
def groupLine (t : DumpTable) (i : ℕ) : DumpLine :=
  .group t.name i (t.word i) (t.word (i + 1)) (t.word (i + 2)) (t.word (i + 3))

/-- The condition of the inner loop, and the subscripts that it reads until it is decided. -/
def skipTest (t : DumpTable) (i : ℕ) : Bool × List ℕ :=
  if t.word i ≠ t.word (i + 4) then (false, [i, i + 4])
  else if t.word (i + 1) ≠ t.word (i + 5) then (false, [i, i + 4, i + 1, i + 5])
  else if t.word (i + 2) ≠ t.word (i + 6) then (false, [i, i + 4, i + 1, i + 5, i + 2, i + 6])
  else (decide (t.word (i + 3) = t.word (i + 7) ∧ i < t.size),
    [i, i + 4, i + 1, i + 5, i + 2, i + 6, i + 3, i + 7])

/-- The four words at two places are the same. -/
def SameGroup (t : DumpTable) (i k : ℕ) : Prop := ∀ m < 4, t.word (i + m) = t.word (k + m)

variable {t : DumpTable} {i k skipped : ℕ}

/-- The loop goes on from a group within the table that is like the next one. -/
theorem skipTest_fst : (t.skipTest i).1 = true ↔ t.SameGroup i (i + 4) ∧ i < t.size := by
  have hgroup : t.SameGroup i (i + 4) ↔ t.word i = t.word (i + 4) ∧
      t.word (i + 1) = t.word (i + 5) ∧ t.word (i + 2) = t.word (i + 6) ∧
        t.word (i + 3) = t.word (i + 7) := by
    constructor
    · intro h
      exact ⟨h 0 (by omega), h 1 (by omega), h 2 (by omega), h 3 (by omega)⟩
    · rintro ⟨h0, h1, h2, h3⟩ m hm
      match m with
      | 0 => exact h0
      | 1 => exact h1
      | 2 => exact h2
      | 3 => exact h3
  rw [hgroup, skipTest]
  by_cases h0 : t.word i = t.word (i + 4)
  · by_cases h1 : t.word (i + 1) = t.word (i + 5)
    · by_cases h2 : t.word (i + 2) = t.word (i + 6)
      · simp [h0, h1, h2]
      · simp [h0, h1, h2]
    · simp [h0, h1]
  · simp [h0]

/-- The word four places on is read, however the test ends. -/
theorem add_four_mem_skipTest : i + 4 ∈ (t.skipTest i).2 := by
  unfold skipTest
  split_ifs <;> simp

/-- The inner loop from a group on: the place where it stops, what it prints and what it
reads. -/
def skip (t : DumpTable) (i skipped : ℕ) : ℕ × Dump :=
  if h : (t.skipTest i).1 = true then
    let rest := t.skip (i + 4) (skipped + 1)
    (rest.1, ⟨(if skipped = 0 then [.ellipsis] else []) ++ rest.2.lines,
      (t.skipTest i).2 ++ rest.2.reads⟩)
  else (i, ⟨[], (t.skipTest i).2⟩)
termination_by t.size - i
decreasing_by
  have hlt : i < t.size := (skipTest_fst.mp h).2
  omega

/-- The loop does not go back. -/
theorem le_skip : i ≤ (t.skip i skipped).1 := by
  fun_induction skip t i skipped with
  | case1 i skipped h rest ih => exact Nat.le_trans (Nat.le_add_right i 4) ih
  | case2 => exact Nat.le_refl _

/-- The outer loop from a group on. -/
def groups (t : DumpTable) (i : ℕ) : Dump :=
  if i < t.size then
    let skipped := t.skip i 0
    let rest := t.groups (skipped.1 + 4)
    ⟨t.groupLine i :: skipped.2.lines ++ rest.lines,
      [i, i + 1, i + 2, i + 3] ++ skipped.2.reads ++ rest.reads⟩
  else ⟨[], []⟩
termination_by t.size - i
decreasing_by
  have hle : i ≤ (t.skip i 0).1 := le_skip
  omega

/-- A dump of the table, below its headings. -/
def dump (t : DumpTable) (headings : List DumpLine) : Dump :=
  ⟨headings ++ (t.groups 0).lines ++ [.text ""], (t.groups 0).reads⟩

/-! ### The inner loop -/

/-- The groups up to the place where the loop stops are all the same. -/
theorem sameGroup_of_le_skip (hk : i ≤ k) (hstop : k ≤ (t.skip i skipped).1) (h4 : 4 ∣ k - i) :
    t.SameGroup i k := by
  fun_induction skip t i skipped with
  | case1 i skipped h rest ih =>
    have hnext : t.SameGroup i (i + 4) := (skipTest_fst.mp h).1
    by_cases hki : k = i
    · rw [hki]
      exact fun m _ => rfl
    · have hrest : t.SameGroup (i + 4) k := ih (by omega) hstop (by omega)
      intro m hm
      rw [hnext m hm, hrest m hm]
  | case2 i skipped h =>
    have hki : k = i := Nat.le_antisymm hstop hk
    rw [hki]
    exact fun m _ => rfl

/-- The dots are printed in the first turn only. -/
theorem lines_skip_of_ne_zero (h : skipped ≠ 0) : (t.skip i skipped).2.lines = [] := by
  fun_induction skip t i skipped with
  | case1 i skipped htest rest ih =>
    have hrest : rest.2.lines = [] := ih (Nat.succ_ne_zero skipped)
    rw [if_neg h, hrest]
    rfl
  | case2 => rfl

/-- The dots are printed if a group is skipped. -/
theorem lines_skip_zero :
    (t.skip i 0).2.lines = if (t.skip i 0).1 = i then [] else [.ellipsis] := by
  rw [skip]
  by_cases h : (t.skipTest i).1 = true
  · have hle : i + 4 ≤ (t.skip (i + 4) (0 + 1)).1 := le_skip
    rw [dif_pos h]
    dsimp only
    rw [lines_skip_of_ne_zero Nat.one_ne_zero, if_pos rfl, if_neg (by omega)]
    rfl
  · rw [dif_neg h]
    exact (if_pos rfl).symm

/-- The loop reads the word behind the table, or it stops before the last group. -/
theorem size_mem_reads_skip (hi : i + 4 ≤ t.size) (h4 : 4 ∣ t.size - i) :
    t.size ∈ (t.skip i skipped).2.reads ∨ (t.skip i skipped).1 + 8 ≤ t.size := by
  have hlast {i : ℕ} (hend : i + 4 = t.size) : t.size ∈ (t.skipTest i).2 := by
    have hmem : i + 4 ∈ (t.skipTest i).2 := add_four_mem_skipTest
    rwa [hend] at hmem
  fun_induction skip t i skipped with
  | case1 i skipped h rest ih =>
    by_cases hend : i + 4 = t.size
    · exact .inl (List.mem_append_left _ (hlast hend))
    · rcases ih (by omega) (by omega) with hmem | hstop
      · exact .inl (List.mem_append_right _ hmem)
      · exact .inr hstop
  | case2 i skipped h =>
    by_cases hend : i + 4 = t.size
    · exact .inl (hlast hend)
    · exact .inr (by omega)

/-- The loop stops at a group of the table. -/
theorem four_dvd_skip : 4 ∣ (t.skip i skipped).1 - i := by
  fun_induction skip t i skipped with
  | case1 i skipped h rest ih =>
    have hle : i + 4 ≤ (t.skip (i + 4) (skipped + 1)).1 := le_skip
    change 4 ∣ (t.skip (i + 4) (skipped + 1)).1 - i
    omega
  | case2 i skipped h => omega

/-! ### The outer loop -/

/-- The word behind the table is read, whatever stands in the table. -/
theorem size_mem_reads_groups (hi : i + 4 ≤ t.size) (h4 : 4 ∣ t.size - i) :
    t.size ∈ (t.groups i).reads := by
  fun_induction groups t i with
  | case1 i hlt skipped rest ih =>
    have hdvd : 4 ∣ skipped.1 - i := four_dvd_skip
    have hle : i ≤ skipped.1 := le_skip
    have hread : t.size ∈ skipped.2.reads ∨ skipped.1 + 8 ≤ t.size := size_mem_reads_skip hi h4
    rcases hread with hmem | hstop
    · exact List.mem_append_left _ (List.mem_append_right _ hmem)
    · exact List.mem_append_right _ (ih (by omega) (by omega))
  | case2 i hge => omega

/-- The groups that are printed from a place on stand there or behind it. -/
theorem le_of_group_mem {name : String} {w₀ w₁ w₂ w₃ : Word}
    (h : .group name k w₀ w₁ w₂ w₃ ∈ (t.groups i).lines) : i ≤ k := by
  fun_induction groups t i with
  | case1 i hlt skipped rest ih =>
    have hle : i ≤ skipped.1 := le_skip
    have hdots : skipped.2.lines = if skipped.1 = i then [] else [.ellipsis] := lines_skip_zero
    rw [List.cons_append, List.mem_cons, List.mem_append, hdots] at h
    rcases h with hfirst | hskip | hrest
    · rw [groupLine, DumpLine.group.injEq] at hfirst
      exact hfirst.2.1.ge
    · split_ifs at hskip
      · cases hskip
      · cases List.mem_singleton.mp hskip
    · have hk := ih hrest
      omega
  | case2 i hge => cases h

/-- The group is printed, or it is the same as the one above the dots that stand for it: all
groups below the dots are behind it. -/
def Shows (t : DumpTable) (lines : List DumpLine) (k : ℕ) : Prop :=
  t.groupLine k ∈ lines ∨ ∃ above j below, lines = above ++ t.groupLine j :: .ellipsis :: below ∧
    j < k ∧ t.SameGroup j k ∧
      ∀ name i w₀ w₁ w₂ w₃, .group name i w₀ w₁ w₂ w₃ ∈ below → k < i

/-- More lines above. -/
theorem Shows.append_left {lines : List DumpLine} (h : t.Shows lines k) (above : List DumpLine) :
    t.Shows (above ++ lines) k := by
  rcases h with hmem | ⟨above', j, below, rfl, hrest⟩
  · exact .inl (List.mem_append_right _ hmem)
  · exact .inr ⟨above ++ above', j, below, (List.append_assoc _ _ _).symm, hrest⟩

/-- Every group is printed or the same as the one above the dots. -/
theorem shows_groups (hi : i ≤ k) (hk : k < t.size) (h4 : 4 ∣ k - i) :
    t.Shows (t.groups i).lines k := by
  fun_induction groups t i with
  | case1 i hlt skipped rest ih =>
    have hdvd : 4 ∣ skipped.1 - i := four_dvd_skip
    have hle : i ≤ skipped.1 := le_skip
    have hdots : skipped.2.lines = if skipped.1 = i then [] else [.ellipsis] := lines_skip_zero
    by_cases hstop : k ≤ skipped.1
    · by_cases hki : k = i
      · rw [hki]
        exact .inl (List.mem_append_left _ List.mem_cons_self)
      · right
        refine ⟨[], i, rest.lines, ?_, by omega, sameGroup_of_le_skip hi hstop h4, ?_⟩
        · rw [hdots, if_neg (by omega)]
          rfl
        · intro name j w₀ w₁ w₂ w₃ hmem
          have hj := le_of_group_mem hmem
          omega
    · exact (ih (by omega) (by omega)).append_left _
  | case2 i hge => omega

/-- Lines below, none of which is a group. -/
theorem Shows.append_text {lines : List DumpLine} (h : t.Shows lines k) (s : String) :
    t.Shows (lines ++ [.text s]) k := by
  rcases h with hmem | ⟨above, j, below, rfl, hj, hsame, hbelow⟩
  · exact .inl (List.mem_append_left _ hmem)
  · refine .inr ⟨above, j, below ++ [.text s], ?_, hj, hsame, ?_⟩
    · rw [List.append_assoc]
      rfl
    · intro name i w₀ w₁ w₂ w₃ hmem
      rcases List.mem_append.mp hmem with hold | htext
      · exact hbelow name i w₀ w₁ w₂ w₃ hold
      · cases List.mem_singleton.mp htext

/-! ### The whole dump -/

/-- Every group of the table is shown. -/
theorem shows_dump (headings : List DumpLine) (hk : k < t.size) (h4 : 4 ∣ k) :
    t.Shows (t.dump headings).lines k :=
  ((shows_groups (Nat.zero_le k) hk h4).append_left headings).append_text ""

/-- The word behind the table is read. -/
theorem size_mem_reads_dump (headings : List DumpLine) (h0 : 0 < t.size) (h4 : 4 ∣ t.size) :
    t.size ∈ (t.dump headings).reads :=
  size_mem_reads_groups (by omega) h4

/-- Only elements of the table are read, and every group is shown. -/
structure DumpsSafely (t : DumpTable) (d : Dump) : Prop where
  reads : ∀ i ∈ d.reads, i < t.size
  shows : ∀ k < t.size, 4 ∣ k → t.Shows d.lines k

theorem not_dumpsSafely_dump (headings : List DumpLine) (h0 : 0 < t.size) (h4 : 4 ∣ t.size) :
    ¬t.DumpsSafely (t.dump headings) := by
  intro h
  exact Nat.lt_irrefl t.size (h.reads t.size (size_mem_reads_dump headings h0 h4))

end DumpTable

/-! ### The four dumps -/

variable {β : Type}

/-- An array of the processor, with what stands behind it. -/
def Engine.table {n : ℕ} (name : String) (a : Fin n → Word) (behind : ℕ → Word) : DumpTable :=
  ⟨name, n, fun i => if h : i < n then a ⟨i, h⟩ else behind i⟩

/-- `amem`. -/
def Engine.amemTable (behind : ArrayName → ℕ → Word) (s : Engine β) : DumpTable :=
  Engine.table "A" s.amem (behind .amem)

/-- `pdl`. -/
def Engine.pdlTable (behind : ArrayName → ℕ → Word) (s : Engine β) : DumpTable :=
  Engine.table "PDL" s.pdl (behind .pdl)

/-- `l1_map`. -/
def Engine.l1MapTable (behind : ArrayName → ℕ → Word) (s : Engine β) : DumpTable :=
  Engine.table "L1" s.l1Map (behind .l1Map)

/-- `l2_map`. -/
def Engine.l2MapTable (behind : ArrayName → ℕ → Word) (s : Engine β) : DumpTable :=
  Engine.table "L2" s.l2Map (behind .l2Map)

/-- `show_amem`. -/
def Engine.showAmem (behind : ArrayName → ℕ → Word) (s : Engine β) : Dump :=
  (s.amemTable behind).dump [.text "A-MEM:"]

/-- `show_pdl`. -/
def Engine.showPdl (behind : ArrayName → ℕ → Word) (s : Engine β) : Dump :=
  (s.pdlTable behind).dump [.text "PDL MEMORY:", .pointers s.pdlPointer s.pdlIndex]

/-- `show_l1_map`. -/
def Engine.showL1Map (behind : ArrayName → ℕ → Word) (s : Engine β) : Dump :=
  (s.l1MapTable behind).dump [.text "L1 MAP:"]

/-- `show_l2_map`. -/
def Engine.showL2Map (behind : ArrayName → ℕ → Word) (s : Engine β) : Dump :=
  (s.l2MapTable behind).dump [.text "L2 MAP:"]

/-- Whatever the arrays hold, and whatever stands behind them, every group is shown. -/
theorem Engine.shows_groups (behind : ArrayName → ℕ → Word) (s : Engine β) :
    (∀ k < 1024, 4 ∣ k → (s.amemTable behind).Shows (s.showAmem behind).lines k) ∧
      (∀ k < 1024, 4 ∣ k → (s.pdlTable behind).Shows (s.showPdl behind).lines k) ∧
      (∀ k < 2048, 4 ∣ k → (s.l1MapTable behind).Shows (s.showL1Map behind).lines k) ∧
      ∀ k < 1024, 4 ∣ k → (s.l2MapTable behind).Shows (s.showL2Map behind).lines k :=
  ⟨fun _ => DumpTable.shows_dump (t := s.amemTable behind) _,
    fun _ => DumpTable.shows_dump (t := s.pdlTable behind) _,
    fun _ => DumpTable.shows_dump (t := s.l1MapTable behind) _,
    fun _ => DumpTable.shows_dump (t := s.l2MapTable behind) _⟩

/-- None of the four dumps keeps to its array, whatever the arrays hold: the last group is compared
with the words behind it. -/
theorem Engine.not_dumpsSafely (behind : ArrayName → ℕ → Word) (s : Engine β) :
    ¬(s.amemTable behind).DumpsSafely (s.showAmem behind) ∧
      ¬(s.pdlTable behind).DumpsSafely (s.showPdl behind) ∧
      ¬(s.l1MapTable behind).DumpsSafely (s.showL1Map behind) ∧
      ¬(s.l2MapTable behind).DumpsSafely (s.showL2Map behind) := by
  have hdvd : 4 ∣ 1024 ∧ 4 ∣ 2048 := ⟨⟨256, rfl⟩, ⟨512, rfl⟩⟩
  exact ⟨DumpTable.not_dumpsSafely_dump _ (Nat.zero_lt_succ _) hdvd.1,
    DumpTable.not_dumpsSafely_dump _ (Nat.zero_lt_succ _) hdvd.1,
    DumpTable.not_dumpsSafely_dump _ (Nat.zero_lt_succ _) hdvd.2,
    DumpTable.not_dumpsSafely_dump _ (Nat.zero_lt_succ _) hdvd.1⟩

/-- The A memory of a machine that was just switched on, with zeros behind it. -/
theorem powerOn_not_dumpsSafely :
    ¬((powerOn (fun _ => 0) (fun _ => 0) ()).amemTable fun _ _ => 0).DumpsSafely
      ((powerOn (fun _ => 0) (fun _ => 0) ()).showAmem fun _ _ => 0) :=
  DumpTable.not_dumpsSafely_dump _ (Nat.zero_lt_succ _) ⟨256, rfl⟩

end Usim
