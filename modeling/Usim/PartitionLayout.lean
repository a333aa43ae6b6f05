import Usim.Lib.Runs
import Usim.TemplateRoundTrip

/-!
# The layout of the partitions

Where the partitions of a template lie that `read_template` accepts. A dash for a start means
the end of the partition before, a dash for a size the rest of the disk, and a size in
cylinders moves the start to a cylinder.
-/

namespace Usim

open Lib

namespace Diskmaker

/-- A line of a template, as it is looked at. -/
def templateText (buffer : List Byte) : List Byte := (cString buffer).dropLast

/-- The word for the start of a partition, and the word for its size. -/
def placeTexts (line : List Byte) : List Byte × List Byte :=
  ((scanWord (line.drop 4)).1, (scanWord (scanWord (line.drop 4)).2).1)

/-- What the lines of a template have for the starts and the sizes of partitions, above the
line `partitions:` if the disk parameters are being read. -/
def tableTexts : Bool → List (List Byte) → List (List Byte × List Byte)
  | _, [] => []
  | reading, buffer :: buffers =>
    if (templateText buffer).head? = some 0x23 then tableTexts reading buffers
    else if templateText buffer = chars "partitions:" then tableTexts false buffers
    else if reading then tableTexts reading buffers
    else placeTexts (templateText buffer) :: tableTexts reading buffers

/-- The blocks of the disk. -/
def DiskLabelS.blocks (l : DiskLabelS) : ℕ :=
  l.nCylinders.toNat * l.nHeads.toNat * l.nBlocksPerTrack.toNat

/-- The next multiple of `k`. -/
def roundUp (n k : ℕ) : ℕ := (n + (k - 1)) / k * k

/-- Where a partition goes that begins behind `n` blocks. A size in cylinders begins with `c`. -/
def DiskLabelS.behind (l : DiskLabelS) (ssize : List Byte) (n : ℕ) : ℕ :=
  if ssize.head? = some 0x63 then roundUp n l.nBlocksPerCylinder.toNat else n

/-- A partition, with the words that it comes from. -/
structure TableEntry where
  sstart : List Byte
  ssize : List Byte
  part : PartS

/-- The first block behind a partition. -/
def PartS.endBlock (p : PartS) : ℕ := p.start.toNat + p.size.toNat

/-- The partitions of a label with their words. -/
def DiskLabelS.entries (l : DiskLabelS) (texts : List (List Byte × List Byte)) : List TableEntry :=
  List.zipWith (fun t p => ⟨t.1, t.2, p⟩) texts l.table

/-- The partitions are on the disk. One with a dash for its start begins where the one before
ends, one with a dash for its size ends with the disk, and partitions with dashes for their
starts are disjoint from each other and from the one in front of them. -/
structure LaidOut (texts : List (List Byte × List Byte)) (l : DiskLabelS) : Prop where
  count : texts.length = l.table.length
  fits : ∀ e ∈ l.entries texts, e.part.endBlock ≤ l.blocks
  continues : (l.entries texts).IsChain fun e e' => e'.sstart = chars "-" →
    e'.part.start.toNat = l.behind e'.ssize e.part.endBlock
  fills : ∀ e ∈ l.entries texts, e.ssize = chars "-" → e.part.endBlock = l.blocks
  disjoint : ∀ front e es back, l.entries texts = front ++ e :: es ++ back →
    (∀ e' ∈ es, e'.sstart = chars "-") →
      (e :: es).Pairwise fun e e' => e.part.endBlock ≤ e'.part.start.toNat

/-- The template that is being read, and whether a line `partitions:` was the last one that
is no comment. -/
structure LayoutState where
  template : TemplateState
  restarted : Bool

/-- A line of the template. -/
def layoutStep (buffer : List Byte) (s : LayoutState) : Except TemplateFault LayoutState := do
  let template ← templateLine s.template buffer
  let line := templateText buffer
  pure ⟨template,
    if line.head? = some 0x23 then s.restarted else decide (line = chars "partitions:")⟩

/-- The start and the size for the line of a partition. -/
def placeOf (s : TemplateState) (line : List Byte) : Word × Word :=
  placement s.label
    (if (placeTexts line).1.head? = some 0x2D then s.nextStart.setWidth 32
      else BitVec.ofInt 32 (strtol (placeTexts line).1)) (placeTexts line).2

/-- The line of a partition: the sum of its start and its size is one of 32 bits, a dash for
the size comes where the disk ends, and a dash for the start behind another line
`partitions:` comes where the partition before ends with the first track. -/
def PlacedWell (buffer : List Byte) (s : LayoutState) : Prop :=
  let line := templateText buffer
  let l := s.template.label
  s.template.readingDiskParameters = false → line.head? ≠ some 0x23 → line ≠ chars "partitions:" →
    (placeOf s.template line).1.toNat + (placeOf s.template line).2.toNat < 2 ^ 32 ∧
      ((placeTexts line).2 = chars "-" → (placeOf s.template line).1.toNat = l.blocks) ∧
      ((placeTexts line).1 = chars "-" → s.restarted → ∀ p ∈ l.table.getLast?,
        l.behind (placeTexts line).2 l.nBlocksPerTrack.toNat =
          l.behind (placeTexts line).2 p.endBlock)

section Layout

variable {texts : List (List Byte × List Byte)} {l l' : DiskLabelS} {line buffer : List Byte}

/-! ### Numbers -/

/-- The next cylinder, as the code computes it. -/
theorem roundUp_eq (n : ℕ) {k : ℕ} (hk : 0 < k) :
    roundUp n k = n + if n % k > 0 then k - n % k else 0 := by
  have hdiv := Nat.div_add_mod n k
  have hlt := Nat.mod_lt n hk
  have hround : (n + (k - 1)) / k = n / k + (n % k + (k - 1)) / k := by
    calc (n + (k - 1)) / k = (k * (n / k) + (n % k + (k - 1))) / k := by
          rw [← Nat.add_assoc, hdiv]
      _ = n / k + (n % k + (k - 1)) / k := Nat.mul_add_div hk _ _
  rw [roundUp, hround, Nat.add_mul, Nat.mul_comm (n / k)]
  by_cases hrest : n % k > 0
  · have hone : (n % k + (k - 1)) / k = 1 := by
      apply Nat.div_eq_of_lt_le
      · omega
      · omega
    rw [hone, if_pos hrest]
    omega
  · have hzero : (n % k + (k - 1)) / k = 0 := Nat.div_eq_of_lt (by omega)
    rw [hzero, if_neg hrest]
    omega

/-- Rounding goes up. -/
theorem le_roundUp (n : ℕ) {k : ℕ} (hk : 0 < k) : n ≤ roundUp n k := by
  rw [roundUp_eq n hk]
  exact Nat.le_add_right _ _

/-- A place is moved up. -/
theorem DiskLabelS.le_behind (h : l.nBlocksPerCylinder ≠ 0) (ssize : List Byte) (n : ℕ) :
    n ≤ l.behind ssize n := by
  unfold DiskLabelS.behind
  split
  · apply le_roundUp
    exact Nat.pos_of_ne_zero fun hzero => h (BitVec.eq_of_toNat_eq hzero)
  · exact Nat.le_refl n

/-- The start of a partition, from a place on the disk on. -/
theorem placement_start (h : l.nBlocksPerCylinder ≠ 0) {start : Word} (hlt : start.toNat < 2 ^ 28)
    (ssize : List Byte) : (placement l start ssize).1.toNat = l.behind ssize start.toNat := by
  have hpos : 0 < l.nBlocksPerCylinder.toNat :=
    Nat.pos_of_ne_zero fun hzero => h (BitVec.eq_of_toNat_eq hzero)
  have hsmall := l.nBlocksPerCylinder.isLt
  unfold placement DiskLabelS.behind
  split
  · have hmod := Nat.mod_lt start.toNat hpos
    have hle := Nat.mod_le start.toNat l.nBlocksPerCylinder.toNat
    have hrest : start % l.nBlocksPerCylinder > 0 ↔
        start.toNat % l.nBlocksPerCylinder.toNat > 0 := by
      rw [gt_iff_lt, BitVec.lt_def, BitVec.toNat_umod]
      rfl
    have hsum : start.toNat % l.nBlocksPerCylinder.toNat > 0 → start.toNat +
        (l.nBlocksPerCylinder.toNat - start.toNat % l.nBlocksPerCylinder.toNat) < 2 ^ 32 := by
      intro hpos'
      by_cases hin : start.toNat < l.nBlocksPerCylinder.toNat
      · rw [Nat.mod_eq_of_lt hin]
        omega
      · omega
    rw [roundUp_eq _ hpos]
    change (start + if start % l.nBlocksPerCylinder > 0 then
      l.nBlocksPerCylinder - start % l.nBlocksPerCylinder else 0).toNat = _
    by_cases hr : start.toNat % l.nBlocksPerCylinder.toNat > 0
    · have hsum := hsum hr
      rw [if_pos (hrest.mpr hr), if_pos hr, BitVec.toNat_add, BitVec.toNat_sub_of_le,
        BitVec.toNat_umod, Nat.mod_eq_of_lt hsum]
      rw [BitVec.le_def, BitVec.toNat_umod]
      exact hmod.le
    · rw [if_neg (mt hrest.mp hr), if_neg hr]
      exact congrArg BitVec.toNat (BitVec.add_zero start)
  · rfl

/-- The capacity of the disk does not wrap. -/
theorem toNat_capacity (h : SoundParameters l) :
    (capacity l).toNat = l.blocks ∧ l.blocks < 2 ^ 28 := by
  have hcylinders : l.nCylinders.toNat < 4096 := h.cylinders
  have hheads : l.nHeads.toNat < 256 := h.heads
  have htracks : l.nBlocksPerTrack.toNat < 256 := h.blocksPerTrack
  have htwo : l.nCylinders.toNat * l.nHeads.toNat ≤ 4095 * 255 :=
    Nat.mul_le_mul (by omega) (by omega)
  have hthree : l.blocks ≤ 4095 * 255 * 255 := Nat.mul_le_mul htwo (by omega)
  refine ⟨?_, by omega⟩
  rw [capacity, BitVec.toNat_mul, BitVec.toNat_mul, BitVec.toNat_setWidth, BitVec.toNat_setWidth,
    BitVec.toNat_setWidth, Nat.mod_eq_of_lt (show l.nCylinders.toNat < 2 ^ 64 by omega),
    Nat.mod_eq_of_lt (show l.nHeads.toNat < 2 ^ 64 by omega),
    Nat.mod_eq_of_lt (show l.nBlocksPerTrack.toNat < 2 ^ 64 by omega),
    Nat.mod_eq_of_lt (show l.nCylinders.toNat * l.nHeads.toNat < 2 ^ 64 by omega)]
  exact Nat.mod_eq_of_lt (show l.blocks < 2 ^ 64 by omega)

/-! ### One more partition -/

/-- The partition is the last one. -/
theorem DiskLabelS.table_addPart (h : l.nPartitions.toNat < 18) (p : PartS) :
    (l.addPart ⟨l.nPartitions.toNat, h⟩ p).table = l.table ++ [p] := by
  have hold : l.table.length = l.nPartitions.toNat := by
    rw [DiskLabelS.table, List.length_take, List.length_ofFn, Nat.min_eq_left (by omega)]
  have hnew : (l.addPart ⟨l.nPartitions.toNat, h⟩ p).table.length = l.nPartitions.toNat + 1 := by
    rw [DiskLabelS.table, DiskLabelS.toNat_addPart h, List.length_take, List.length_ofFn,
      Nat.min_eq_left (by omega)]
  apply List.ext_getElem
  · rw [hnew, List.length_append, hold]
    rfl
  · intro i hi _
    rw [hnew] at hi
    have hget : (l.addPart ⟨l.nPartitions.toNat, h⟩ p).table[i] =
        (l.addPart ⟨l.nPartitions.toNat, h⟩ p).parts ⟨i, by omega⟩ := by
      simp only [DiskLabelS.table, List.getElem_take, List.getElem_ofFn]
    rw [hget]
    by_cases hlast : i = l.nPartitions.toNat
    · subst hlast
      rw [DiskLabelS.addPart_self, List.getElem_append_right hold.le]
      simp only [hold, Nat.sub_self, List.getElem_cons_zero]
    · rw [DiskLabelS.addPart_of_ne _ (fun heq => hlast (congrArg Fin.val heq)),
        List.getElem_append_left (by omega)]
      simp only [DiskLabelS.table, List.getElem_take, List.getElem_ofFn]

/-- The partitions of the entries. -/
theorem DiskLabelS.map_entries (h : texts.length = l.table.length) :
    (l.entries texts).map TableEntry.part = l.table := by
  apply List.ext_getElem
  · rw [List.length_map, DiskLabelS.entries, List.length_zipWith, h, Nat.min_self]
  · intro i _ _
    simp only [DiskLabelS.entries, List.getElem_map, List.getElem_zipWith]

/-- The entry of one more partition. -/
theorem DiskLabelS.entries_addPart (hcount : texts.length = l.table.length)
    (h : l.nPartitions.toNat < 18) (p : PartS) (t : List Byte × List Byte) :
    (l.addPart ⟨l.nPartitions.toNat, h⟩ p).entries (texts ++ [t]) =
      l.entries texts ++ [⟨t.1, t.2, p⟩] := by
  rw [DiskLabelS.entries, DiskLabelS.table_addPart, List.zipWith_append hcount]
  rfl

/-- Partitions that follow each other are disjoint. -/
theorem pairwise_of_isChain (h : l.nBlocksPerCylinder ≠ 0) {e : TableEntry} {es : List TableEntry}
    (hchain : (e :: es).IsChain fun e e' => e'.sstart = chars "-" →
      e'.part.start.toNat = l.behind e'.ssize e.part.endBlock)
    (hdash : ∀ e' ∈ es, e'.sstart = chars "-") :
    (e :: es).Pairwise fun e e' => e.part.endBlock ≤ e'.part.start.toNat := by
  induction es generalizing e with
  | nil => exact List.pairwise_singleton _ _
  | cons e₁ es ih =>
    obtain ⟨hfirst, hrest⟩ := List.isChain_cons_cons.mp hchain
    have hnext : e.part.endBlock ≤ e₁.part.start.toNat := by
      rw [hfirst (hdash e₁ List.mem_cons_self)]
      exact DiskLabelS.le_behind h _ _
    have htail := ih hrest fun e' he' => hdash e' (List.mem_cons_of_mem e₁ he')
    apply List.Pairwise.cons
    · intro e' he'
      obtain rfl | he' := List.mem_cons.mp he'
      · exact hnext
      · have hbehind := List.rel_of_pairwise_cons htail he'
        have hend : e₁.part.start.toNat ≤ e₁.part.endBlock := Nat.le_add_right _ _
        omega
    · exact htail

/-- The layout is one of the entries one by one, and of each with the one before. -/
theorem laidOut_iff (h : l.nBlocksPerCylinder ≠ 0) (hcount : texts.length = l.table.length) :
    LaidOut texts l ↔ (∀ e ∈ l.entries texts, e.part.endBlock ≤ l.blocks) ∧
      ((l.entries texts).IsChain fun e e' => e'.sstart = chars "-" →
        e'.part.start.toNat = l.behind e'.ssize e.part.endBlock) ∧
      ∀ e ∈ l.entries texts, e.ssize = chars "-" → e.part.endBlock = l.blocks := by
  constructor
  · intro hl
    exact ⟨hl.fits, hl.continues, hl.fills⟩
  · rintro ⟨hfits, hchain, hfills⟩
    refine ⟨hcount, hfits, hchain, hfills, fun front e es back heq hdash => ?_⟩
    apply pairwise_of_isChain h _ hdash
    rw [heq] at hchain
    exact hchain.left_of_append.right_of_append

/-- One more partition is laid out if it is on the disk, and where its words say. -/
theorem laidOut_addPart (h : l.nBlocksPerCylinder ≠ 0) (hcount : texts.length = l.table.length)
    (hlt : l.nPartitions.toNat < 18) (p : PartS) (t : List Byte × List Byte) :
    LaidOut (texts ++ [t]) (l.addPart ⟨l.nPartitions.toNat, hlt⟩ p) ↔
      LaidOut texts l ∧ p.endBlock ≤ l.blocks ∧
        (t.1 = chars "-" → ∀ q ∈ l.table.getLast?, p.start.toNat = l.behind t.2 q.endBlock) ∧
        (t.2 = chars "-" → p.endBlock = l.blocks) := by
  have hcount' : (texts ++ [t]).length =
      (l.addPart ⟨l.nPartitions.toNat, hlt⟩ p).table.length := by
    rw [DiskLabelS.table_addPart, List.length_append, List.length_append, hcount]
    rfl
  have hlast : l.table.getLast? = (l.entries texts).getLast?.map TableEntry.part := by
    rw [← List.getLast?_map, DiskLabelS.map_entries hcount]
  rw [laidOut_iff h hcount, laidOut_iff (l := l.addPart _ p) h hcount',
    DiskLabelS.entries_addPart hcount, List.isChain_append, hlast]
  simp only [List.forall_mem_append, List.forall_mem_singleton, List.isChain_singleton, true_and,
    List.head?_cons, Option.mem_some, forall_eq', Option.mem_map]
  change (_ ∧ p.endBlock ≤ l.blocks) ∧ (_ ∧ ∀ x : TableEntry, _ → t.1 = chars "-" →
    p.start.toNat = l.behind t.2 x.part.endBlock) ∧ (_ ∧ (t.2 = chars "-" → _)) ↔ _
  constructor
  · rintro ⟨⟨hfits, hp⟩, ⟨hchain, hstart⟩, hfills, hsize⟩
    refine ⟨⟨hfits, hchain, hfills⟩, hp, ?_, hsize⟩
    rintro hdash q ⟨e, he, rfl⟩
    exact hstart e he hdash
  · rintro ⟨⟨hfits, hchain, hfills⟩, hp, hstart, hsize⟩
    exact ⟨⟨hfits, hp⟩, ⟨hchain, fun e he hdash => hstart hdash _ ⟨e, he, rfl⟩⟩, hfills, hsize⟩

/-! ### A line -/

/-- What is known between two lines, with the words of the partitions so far. -/
structure LayoutState.Follows (s : LayoutState) (texts : List (List Byte × List Byte)) : Prop where
  sound : s.template.Sound
  count : texts.length = s.template.label.table.length
  cylinder : s.template.readingDiskParameters = false → s.template.label.nBlocksPerCylinder ≠ 0
  near : s.template.nextStart.toNat < 2 ^ 28
  first : s.template.readingDiskParameters = false → s.restarted →
    s.template.nextStart.toNat = s.template.label.nBlocksPerTrack.toNat
  next : s.template.readingDiskParameters = false → ¬s.restarted →
    ∀ p ∈ s.template.label.table.getLast?,
      s.template.nextStart.toNat = (p.start + p.size).toNat

/-- A label without partitions. -/
theorem laidOut_nil (h : l.table = []) : LaidOut [] l where
  count := congrArg List.length h.symm
  fits := fun e he => absurd he List.not_mem_nil
  continues := List.isChain_nil
  fills := fun e he => absurd he List.not_mem_nil
  disjoint := by
    intro front e es back heq
    have hlength := congrArg List.length heq
    simp [DiskLabelS.entries] at hlength

variable {s s' : LayoutState}

/-- Nothing is in the table while the disk parameters are read. -/
theorem LayoutState.Follows.eq_nil (h : s.Follows texts)
    (hreading : s.template.readingDiskParameters = true) :
    s.template.label.table = [] ∧ texts = [] := by
  have htable : s.template.label.table = [] := by
    rw [DiskLabelS.table, h.sound.count hreading]
    rfl
  refine ⟨htable, List.eq_nil_of_length_eq_zero ?_⟩
  rw [h.count, htable]
  rfl

/-- The line `partitions:`. -/
theorem LayoutState.Follows.partitions (h : s.Follows texts) {t : TemplateState}
    (ht : partitionsLine s.template.label = .ok t) :
    LayoutState.Follows ⟨t, true⟩ texts ∧ t.readingDiskParameters = false ∧
      (LaidOut texts t.label ↔ LaidOut texts s.template.label) := by
  have hsound := h.sound.label.partitionsLine ht
  unfold partitionsLine at ht
  split at ht
  · cases ht
  case isFalse hset =>
    simp only [not_or] at hset
    obtain ⟨-, -, -, hheads, htracks, -, -⟩ := hset
    have hheads' : s.template.label.nHeads.toNat < 256 := h.sound.label.heads
    have htracks' : s.template.label.nBlocksPerTrack.toNat < 256 := h.sound.label.blocksPerTrack
    simp only [Except.ok.injEq] at ht
    subst ht
    refine ⟨⟨hsound, h.count, fun _ => ?_, ?_, fun _ _ => ?_, fun _ hno => absurd rfl hno⟩, rfl, ?_⟩
    · change (if s.template.label.nBlocksPerCylinder = 0 then
        s.template.label.nHeads * s.template.label.nBlocksPerTrack
        else s.template.label.nBlocksPerCylinder) ≠ 0
      split
      · have hproduct : (s.template.label.nHeads * s.template.label.nBlocksPerTrack).toNat =
            s.template.label.nHeads.toNat * s.template.label.nBlocksPerTrack.toNat := by
          rw [BitVec.toNat_mul]
          apply Nat.mod_eq_of_lt
          calc s.template.label.nHeads.toNat * s.template.label.nBlocksPerTrack.toNat
              ≤ 255 * 255 := Nat.mul_le_mul (by omega) (by omega)
            _ < 2 ^ 32 := by decide
        intro hzero
        rw [hzero] at hproduct
        obtain hno | hno := Nat.mul_eq_zero.mp hproduct.symm
        · exact hheads (BitVec.eq_of_toNat_eq hno)
        · exact htracks (BitVec.eq_of_toNat_eq hno)
      · assumption
    · change (s.template.label.nBlocksPerTrack.setWidth 64).toNat < 2 ^ 28
      rw [BitVec.toNat_setWidth]
      omega
    · change (s.template.label.nBlocksPerTrack.setWidth 64).toNat = _
      rw [BitVec.toNat_setWidth]
      exact Nat.mod_eq_of_lt (by omega)
    · cases hreading : s.template.readingDiskParameters with
      | true =>
        obtain ⟨htable, rfl⟩ := h.eq_nil hreading
        exact iff_of_true (laidOut_nil htable) (laidOut_nil htable)
      | false =>
        rw [if_neg (h.cylinder hreading)]

/-- The line of a disk parameter. -/
theorem LayoutState.Follows.parameter (h : s.Follows texts)
    (hreading : s.template.readingDiskParameters = true)
    (hline : ∀ b ∈ line, b ≠ 0 ∧ b ≠ newline)
    (hl' : parameterLine line s.template.label = .ok l') :
    LayoutState.Follows ⟨{ s.template with label := l' }, false⟩ texts ∧
      (LaidOut texts l' ↔ LaidOut texts s.template.label) := by
  obtain ⟨hparameters, hcount, hparts⟩ := h.sound.label.toSoundParameters.parameterLine hline hl'
  obtain ⟨htable, rfl⟩ := h.eq_nil hreading
  have hzero := hcount.trans (h.sound.count hreading)
  have htable' : l'.table = [] := by
    rw [DiskLabelS.table, hzero]
    rfl
  refine ⟨⟨⟨{ hparameters with count := ?_, part := ?_, rest := ?_ }, fun _ => hzero⟩, ?_, ?_,
    h.near, ?_, ?_⟩, iff_of_true (laidOut_nil htable') (laidOut_nil htable)⟩
  · rw [hzero]
    decide
  · intro i hi
    rw [hzero] at hi
    exact absurd hi (Nat.not_lt_zero _)
  · rw [hcount, hparts]
    exact h.sound.label.rest
  · exact congrArg List.length htable'.symm
  · exact fun hno => absurd (hreading.symm.trans hno) (by decide)
  · exact fun hno => absurd (hreading.symm.trans hno) (by decide)
  · exact fun hno => absurd (hreading.symm.trans hno) (by decide)

/-- The partition that a line adds. -/
theorem partitionLine_eq {s t : TemplateState} (ht : partitionLine line s = .ok t) :
    ∃ (h : s.label.nPartitions.toNat < 18) (comment : List Byte),
      ¬capacity s.label < ((placeOf s line).1 + (placeOf s line).2).setWidth 64 ∧
      t = ⟨s.label.addPart ⟨s.label.nPartitions.toNat, h⟩
        ⟨nameWord (line.take 4), (placeOf s line).1, (placeOf s line).2, labelWords comment⟩,
        s.readingDiskParameters, ((placeOf s line).1 + (placeOf s line).2).setWidth 64⟩ := by
  unfold partitionLine at ht
  simp only at ht
  split at ht
  case isFalse => cases ht
  case isTrue h =>
    split at ht
    · cases ht
    change (if capacity s.label < ((placeOf s line).1 + (placeOf s line).2).setWidth 64 then _
      else _) = _ at ht
    by_cases hfits : capacity s.label < ((placeOf s line).1 + (placeOf s line).2).setWidth 64
    · rw [if_pos hfits] at ht
      cases ht
    · rw [if_neg hfits] at ht
      cases ht
      exact ⟨h, _, hfits, rfl⟩

/-- A dash for the size stands for no blocks. -/
theorem placement_dash (l : DiskLabelS) (start : Word) :
    placement l start (chars "-") = (start, 0) := rfl

/-- Where the line of a partition with a dash for its start puts it. -/
theorem LayoutState.Follows.placeOf_dash (h : s.Follows texts) (line : List Byte)
    (hreading : s.template.readingDiskParameters = false)
    (hdash : (placeTexts line).1 = chars "-") :
    (placeOf s.template line).1.toNat =
      s.template.label.behind (placeTexts line).2 s.template.nextStart.toNat := by
  have hnear := h.near
  have hword : (s.template.nextStart.setWidth 32).toNat = s.template.nextStart.toNat := by
    rw [BitVec.toNat_setWidth]
    exact Nat.mod_eq_of_lt (by omega)
  unfold placeOf
  rw [hdash, if_pos (show (chars "-").head? = some 0x2D from rfl),
    placement_start (h.cylinder hreading) (by rwa [hword]), hword]

/-- The line of a partition, which is laid out as it should if its words meet the condition. -/
theorem LayoutState.Follows.partition (h : s.Follows texts)
    (hreading : s.template.readingDiskParameters = false)
    (hline : ∀ b ∈ templateText buffer, b ≠ 0 ∧ b ≠ newline)
    (hhead : (templateText buffer).head? ≠ some 0x23)
    (htable : templateText buffer ≠ chars "partitions:") {t : TemplateState}
    (ht : partitionLine (templateText buffer) s.template = .ok t) :
    LayoutState.Follows ⟨t, false⟩ (texts ++ [placeTexts (templateText buffer)]) ∧
      t.readingDiskParameters = false ∧
      (LaidOut (texts ++ [placeTexts (templateText buffer)]) t.label ↔
        LaidOut texts s.template.label ∧ PlacedWell buffer s) := by
  have hsound := h.sound.partitionLine hline hhead hreading ht
  obtain ⟨hblocks, hsmall⟩ := toNat_capacity h.sound.label.toSoundParameters
  have hcylinder := h.cylinder hreading
  obtain ⟨hlt, comment, hfits, rfl⟩ := partitionLine_eq ht
  have hdash := h.placeOf_dash (templateText buffer) hreading
  have hsum : ((placeOf s.template (templateText buffer)).1 +
      (placeOf s.template (templateText buffer)).2).toNat ≤ s.template.label.blocks := by
    have hle := hfits
    rw [BitVec.lt_def, hblocks, BitVec.toNat_setWidth, Nat.mod_eq_of_lt (by omega)] at hle
    omega
  rw [BitVec.toNat_add] at hsum
  refine ⟨⟨hsound, ?_, fun _ => hcylinder, ?_, fun _ hno => absurd hno Bool.false_ne_true,
    fun _ _ p hp => ?_⟩, hreading, ?_⟩
  · rw [DiskLabelS.table_addPart, List.length_append, List.length_append, h.count]
    rfl
  · change (((placeOf s.template (templateText buffer)).1 +
      (placeOf s.template (templateText buffer)).2).setWidth 64).toNat < 2 ^ 28
    rw [BitVec.toNat_setWidth, BitVec.toNat_add]
    omega
  · rw [DiskLabelS.table_addPart, List.getLast?_concat] at hp
    obtain rfl := Option.some.inj hp
    change (((placeOf s.template (templateText buffer)).1 +
      (placeOf s.template (templateText buffer)).2).setWidth 64).toNat = _
    rw [BitVec.toNat_setWidth]
    exact Nat.mod_eq_of_lt (by omega)
  rw [laidOut_addPart hcylinder h.count hlt]
  apply and_congr_right
  intro hlaid
  -- the partition before is on the disk, so that its end does not wrap
  have hprevious : ¬s.restarted → ∀ q ∈ s.template.label.table.getLast?,
      s.template.nextStart.toNat = q.endBlock := by
    intro hno q hq
    have hon : q.endBlock ≤ s.template.label.blocks := by
      rw [← DiskLabelS.map_entries h.count] at hq
      rw [List.getLast?_map] at hq
      obtain ⟨e, he, rfl⟩ := Option.map_eq_some_iff.mp hq
      exact hlaid.fits e (List.mem_of_mem_getLast? he)
    rw [h.next hreading hno q hq, BitVec.toNat_add]
    exact Nat.mod_eq_of_lt (by unfold PartS.endBlock at hon; omega)
  unfold PlacedWell PartS.endBlock
  simp only
  generalize hplace : placeOf s.template (templateText buffer) = place at *
  have hzero : (placeTexts (templateText buffer)).2 = chars "-" → place.2.toNat = 0 := by
    intro hsize
    rw [← hplace, placeOf, hsize, placement_dash]
    rfl
  constructor
  · rintro ⟨hend, hstart, hsize⟩ - - -
    refine ⟨by omega, fun hd => ?_, fun hd hre q hq => ?_⟩
    · have := hsize hd
      have := hzero hd
      omega
    · rw [← h.first hreading hre, ← hdash hd]
      exact hstart hd q hq
  · intro hwell
    obtain ⟨hwrap, hsize, hstart⟩ := hwell hreading hhead htable
    rw [Nat.mod_eq_of_lt hwrap] at hsum
    refine ⟨hsum, fun hd q hq => ?_, fun hd => ?_⟩
    · rw [hdash hd]
      by_cases hre : s.restarted
      · rw [h.first hreading hre]
        exact hstart hd hre q hq
      · rw [hprevious hre q hq]
        rfl
    · rw [hzero hd, Nat.add_zero]
      exact hsize hd

/-- A line of an accepted template: the words it adds, and what is known behind it. -/
theorem LayoutState.Follows.step (h : s.Follows texts)
    (hbuffer : ∀ b ∈ buffer.dropLast, b ≠ newline) (hs' : layoutStep buffer s = .ok s') :
    ∃ new, (∀ buffers, tableTexts s.template.readingDiskParameters (buffer :: buffers) =
        new ++ tableTexts s'.template.readingDiskParameters buffers) ∧
      s'.Follows (texts ++ new) ∧
      (LaidOut (texts ++ new) s'.template.label ↔
        LaidOut texts s.template.label ∧ PlacedWell buffer s) := by
  obtain ⟨t, ht, hs'⟩ := exists_of_bind_eq_ok hs'
  have hline : ∀ b ∈ templateText buffer, b ≠ 0 ∧ b ≠ newline := fun b hb =>
    ⟨ne_zero_of_mem_cString (List.mem_of_mem_dropLast hb), of_mem_dropLast_cString hbuffer hb⟩
  obtain rfl := Except.ok.inj hs'
  change (if (templateText buffer).head? = some 0x23 then _ else
    if templateText buffer = chars "partitions:" then _ else _) = _ at ht
  by_cases hhead : (templateText buffer).head? = some 0x23
  · rw [if_pos hhead] at ht
    cases ht
    refine ⟨[], fun buffers => ?_, ?_, ?_⟩
    · rw [tableTexts, if_pos hhead, List.nil_append]
    · rw [List.append_nil, if_pos hhead]
      exact h
    · rw [List.append_nil]
      exact (and_iff_left fun _ hno => absurd hhead hno).symm
  rw [if_neg hhead] at ht
  simp only [if_neg hhead]
  by_cases htable : templateText buffer = chars "partitions:"
  · rw [if_pos htable] at ht
    obtain ⟨hfollows, hreading, hlaid⟩ := h.partitions ht
    refine ⟨[], fun buffers => ?_, ?_, ?_⟩
    · rw [tableTexts, if_neg hhead, if_pos htable, hreading, List.nil_append]
    · rw [List.append_nil, decide_eq_true htable]
      exact hfollows
    · rw [List.append_nil, hlaid]
      exact (and_iff_left fun _ _ hno => absurd htable hno).symm
  rw [if_neg htable] at ht
  rw [decide_eq_false htable]
  cases hreading : s.template.readingDiskParameters with
  | true =>
    rw [hreading, if_pos rfl] at ht
    obtain ⟨l', hl', rfl⟩ := exists_of_map_eq_ok ht
    obtain ⟨hfollows, hlaid⟩ := h.parameter hreading hline hl'
    refine ⟨[], fun buffers => ?_, ?_, ?_⟩
    · rw [tableTexts, if_neg hhead, if_neg htable, if_pos rfl, List.nil_append]
    · rw [List.append_nil]
      simpa only [hreading] using hfollows
    · rw [List.append_nil]
      refine hlaid.trans (and_iff_left fun hno => ?_).symm
      exact absurd (hreading.symm.trans hno) (by decide)
  | false =>
    rw [hreading, if_neg Bool.false_ne_true] at ht
    obtain ⟨hfollows, hreading', hlaid⟩ := h.partition hreading hline hhead htable ht
    refine ⟨[placeTexts (templateText buffer)], fun buffers => ?_, hfollows, hlaid⟩
    rw [tableTexts, if_neg hhead, if_neg htable, if_neg Bool.false_ne_true, hreading']
    rfl

/-- The rest of an accepted template. -/
theorem LayoutState.Follows.run {buffers : List (List Byte)} (h : s.Follows texts)
    (hbuffers : ∀ buffer ∈ buffers, ∀ b ∈ buffer.dropLast, b ≠ newline) {t : TemplateState}
    (ht : buffers.foldlM templateLine s.template = .ok t) :
    LaidOut (texts ++ tableTexts s.template.readingDiskParameters buffers) t.label ↔
      LaidOut texts s.template.label ∧ EveryStep layoutStep PlacedWell buffers s := by
  induction buffers generalizing s texts with
  | nil =>
    cases ht
    rw [tableTexts, List.append_nil]
    exact (and_iff_left trivial).symm
  | cons buffer buffers ih =>
    rw [List.foldlM_cons] at ht
    obtain ⟨t₁, ht₁, hrest⟩ := exists_of_bind_eq_ok ht
    obtain ⟨s', hs', hs't⟩ : ∃ s', layoutStep buffer s = .ok s' ∧ s'.template = t₁ := by
      unfold layoutStep
      rw [ht₁]
      exact ⟨_, rfl, rfl⟩
    obtain ⟨new, htexts, hfollows, hlaid⟩ := h.step (hbuffers buffer List.mem_cons_self) hs'
    rw [htexts, ← List.append_assoc,
      ih hfollows (fun b hb => hbuffers b (List.mem_cons_of_mem buffer hb)) (hs't ▸ hrest), hlaid,
      and_assoc]
    apply and_congr_right
    intro _
    constructor
    · rintro ⟨hwell, hevery⟩ s'' hs''
      obtain rfl := Except.ok.inj (hs'.symm.trans hs'')
      exact ⟨hwell, hevery⟩
    · intro hevery
      exact hevery s' hs'

/-- Nothing is in the table before the first line. -/
theorem follows_start : LayoutState.Follows ⟨templateStart, false⟩ [] where
  sound := sound_templateStart
  count := rfl
  cylinder := fun hno => absurd hno.symm Bool.false_ne_true
  near := by decide
  first := fun hno => absurd hno.symm Bool.false_ne_true
  next := fun hno => absurd hno.symm Bool.false_ne_true

/-- The partitions of an accepted template are laid out as its words say if and only if each line
of a partition is placed well. -/
theorem partitions_laid_out (file : List Byte) (l : DiskLabelS) (hl : readTemplate file = .ok l) :
    LaidOut (tableTexts true (fgetsLines [] file)) l ↔
      EveryStep layoutStep PlacedWell (fgetsLines [] file) ⟨templateStart, false⟩ := by
  obtain ⟨t, ht, rfl⟩ := exists_of_map_eq_ok hl
  have hrun := follows_start.run (fun buffer hbuffer => ne_newline_of_mem_fgetsLines
    (fun b hb => absurd hb List.not_mem_nil) hbuffer) ht
  rw [List.nil_append] at hrun
  exact hrun.trans (and_iff_right (laidOut_nil rfl))

/-- A template of a disk with a partition behind the microcode. -/
def bandTemplate (size : String) : List Byte :=
  chars "cylinders 815\nheads 19\nblockspertrack 17\nmcr MCR1\nlod LOD1\npartitions:\n" ++
    chars "MCR1 - 0224\nLOD1 - " ++ chars size ++ [newline]

/-- With a size in cylinders, the partitions are laid out. -/
theorem partitions_laid_out_cylinders : ∃ l, readTemplate (bandTemplate "c75") = .ok l ∧
    LaidOut (tableTexts true (fgetsLines [] (bandTemplate "c75"))) l ∧
      EveryStep layoutStep PlacedWell (fgetsLines [] (bandTemplate "c75"))
        ⟨templateStart, false⟩ := by
  have hread : ((readTemplate (bandTemplate "c75")).toOption.any fun l =>
      let texts := tableTexts true (fgetsLines [] (bandTemplate "c75"))
      decide (l.nBlocksPerCylinder ≠ 0 ∧ texts.length = l.table.length ∧
        (∀ e ∈ l.entries texts, e.part.endBlock ≤ l.blocks) ∧
        ((l.entries texts).IsChain fun e e' => e'.sstart = chars "-" →
          e'.part.start.toNat = l.behind e'.ssize e.part.endBlock) ∧
        ∀ e ∈ l.entries texts, e.ssize = chars "-" → e.part.endBlock = l.blocks)) = true := by
    decide
  cases hl : readTemplate (bandTemplate "c75") with
  | error e =>
    rw [hl] at hread
    exact absurd hread Bool.false_ne_true
  | ok l =>
    rw [hl] at hread
    obtain ⟨hcylinder, hcount, hlaid⟩ := of_decide_eq_true hread
    have hlaid' := (laidOut_iff hcylinder hcount).mpr hlaid
    exact ⟨l, rfl, hlaid', (partitions_laid_out _ l hl).mp hlaid'⟩

/-- With a dash for its size, the partition has no blocks and does not end with the disk. -/
theorem not_partitions_laid_out : ¬∀ file l, readTemplate file = .ok l →
    LaidOut (tableTexts true (fgetsLines [] file)) l := by
  intro hall
  have hread : ((readTemplate (bandTemplate "-")).toOption.any fun l =>
      !decide (∀ e ∈ l.entries (tableTexts true (fgetsLines [] (bandTemplate "-"))),
        e.ssize = chars "-" → e.part.endBlock = l.blocks)) = true := by
    decide
  cases hl : readTemplate (bandTemplate "-") with
  | error e =>
    rw [hl] at hread
    exact absurd hread Bool.false_ne_true
  | ok l =>
    have hfills := (hall _ l hl).fills
    rw [hl] at hread
    change (!decide _) = true at hread
    rw [decide_eq_true hfills] at hread
    exact Bool.false_ne_true hread

end Layout

end Diskmaker

end Usim
