import Usim.DiskLabel

/-!
# Bands of a disk pack

`restore_band` and `dump_band` of `diskmaker.c`. A `read` returns at least a byte of a file that
has one left, and may return less than it is asked for. The files are opened, and no `read` or
`write` fails.
-/

namespace Usim

open Lib

namespace Diskmaker

/-- `validate_band_name`. -/
def validateBandName (bandName : List Byte) : Except PackFault Unit :=
  if (cString bandName).length ≠ 4 then
    .error (.err ⟨"band name should have 4 characters but it is '%s'", []⟩ bandName)
  else .ok ()

/-- The loops over the partitions of a label. -/
def findPartition (diskLabel : DiskLabelS) (band : Word) : Option (Fin 18) :=
  Fin.find? fun i => i < diskLabel.nPartitions.toNat ∧ (diskLabel.parts i).name = band

/-- The partition that `restore_band` and `dump_band` take. -/
def findBand (diskPackFilename bandName pack : List Byte) :
    Except PackFault (DiskLabelS × Fin 18) := do
  validateBandName bandName
  let diskLabel ← readDiskLabel diskPackFilename pack
  match findPartition diskLabel (nameWord bandName) with
  | some i => pure (diskLabel, i)
  | none => throw (.err ⟨"disk does not contain a partition named: %s", []⟩ bandName)

/-- The byte of a pack where a partition begins. -/
def PartS.startByte (p : PartS) : ℕ := p.start.toNat * blocksize

/-- The bytes of a partition. -/
def PartS.bytesSize (p : PartS) : ℕ := p.size.toNat * blocksize

/-- How many bytes each `read` returns at most. -/
abbrev ReadSizes := ℕ → ℕ+

/-- The sizes of the reads behind the first one. -/
def ReadSizes.next (reads : ReadSizes) : ReadSizes := fun n => reads (n + 1)

/-- The loop of `restore_band`, with what is left of the source and the position in the pack. -/
def restoreLoop (reads : ReadSizes) : List Byte → ℕ → List Byte → List Byte
  | [], _, pack => pack
  | b :: bs, pos, pack =>
    let block := (b :: bs).take (min blocksize (reads 0).val)
    restoreLoop reads.next ((b :: bs).drop (min blocksize (reads 0).val)) (pos + block.length)
      (overwrite pack pos block)
termination_by src => src.length
decreasing_by
  have hpos := (reads 0).pos
  rw [List.length_drop, List.length_cons]
  unfold blocksize
  omega

/-- `basename` of a path. -/
def basename (path : List Byte) : List Byte :=
  if path = [] then chars "."
  else
    match path.reverse.dropWhile (· = 0x2F) with
    | [] => chars "/"
    | c :: cs => ((c :: cs).takeWhile (· ≠ 0x2F)).reverse

/-- `restore_band`: how it ends, and the pack it leaves. -/
def restoreBand (reads : ReadSizes) (srcFilename src diskPackFilename bandName pack : List Byte) :
    Except PackFault Unit × List Byte :=
  match findBand diskPackFilename bandName pack with
  | .error fault => (.error fault, pack)
  | .ok (diskLabel, i) =>
    if (diskLabel.parts i).bytesSize < src.length then
      (.error (.err ⟨"SRC_FILE is larger than the partition %s", []⟩ bandName), pack)
    else
      (.ok (), writeDiskLabel (diskLabel.withLabel i (basename srcFilename))
        (restoreLoop reads src (diskLabel.parts i).startByte pack))

/-- The loop of `dump_band`, with what is left of the pack and of the partition. -/
def dumpLoop (reads : ReadSizes) (pack : List Byte) (left : ℕ) : List Byte :=
  match left, pack with
  | 0, _ => []
  | _ + 1, [] => []
  | left + 1, b :: bs =>
    let toread := min (left + 1) blocksize
    let block := (b :: bs).take (min toread (reads 0).val)
    block ++ dumpLoop reads.next ((b :: bs).drop block.length) (left + 1 - block.length)
termination_by left
decreasing_by
  have hpos := (reads 0).pos
  rw [List.length_take, List.length_cons]
  unfold blocksize
  omega

/-- `dump_band`: what it writes to a new file. -/
def dumpBand (reads : ReadSizes) (diskPackFilename bandName pack : List Byte) :
    Except PackFault (List Byte) :=
  (findBand diskPackFilename bandName pack).map fun (diskLabel, i) =>
    dumpLoop reads (pack.drop (diskLabel.parts i).startByte) (diskLabel.parts i).bytesSize

/-- A disk pack with partitions that are behind the label, on the pack, and disjoint. -/
structure DiskPack where
  file : List Byte
  label : DiskLabelS
  accepted : ∀ filename, readDiskLabel filename file = .ok label
  inside : ∀ k : Fin 18, k < label.nPartitions.toNat →
    1 ≤ (label.parts k).start.toNat ∧
      (label.parts k).startByte + (label.parts k).bytesSize ≤ file.length
  disjoint : ∀ j k : Fin 18, j < label.nPartitions.toNat → k < label.nPartitions.toNat → j ≠ k →
    ∀ block, ¬(((label.parts j).start.toNat ≤ block ∧ block < (label.parts j).endBlock) ∧
      (label.parts k).start.toNat ≤ block ∧ block < (label.parts k).endBlock)

namespace DiskPack

/-- The first partition whose four characters are the name. -/
structure IsBand (d : DiskPack) (bandName : List Byte) (i : Fin 18) : Prop where
  partition : i < d.label.nPartitions.toNat
  name : unstr4 (d.label.parts i).name = bandName
  first : ∀ j < i, unstr4 (d.label.parts j).name ≠ bandName

/-- The bytes of the source are in the partition, and all others but those of its comment are as
they were. -/
structure Restored (d : DiskPack) (i : Fin 18) (src pack : List Byte) : Prop where
  length : pack.length = d.file.length
  data : ∀ k < src.length, pack[(d.label.parts i).startByte + k]? = src[k]?
  others : ∀ p, (p < (d.label.parts i).startByte ∨ (d.label.parts i).startByte + src.length ≤ p) →
    (p < labelPos i ∨ labelPos i + 16 ≤ p) → pack[p]? = d.file[p]?

/-- A source is refused if it is too large, and the pack stays. Any other is restored, and the
band that is dumped then has the size of the partition and begins with it. -/
structure RestoresBand (d : DiskPack) (bandName : List Byte) (i : Fin 18) : Prop where
  outcome : ∀ (reads dumpReads : ReadSizes) (srcFilename src diskPackFilename : List Byte),
    match restoreBand reads srcFilename src diskPackFilename bandName d.file with
    | (.error _, pack) => (d.label.parts i).bytesSize < src.length ∧ pack = d.file
    | (.ok (), pack) => src.length ≤ (d.label.parts i).bytesSize ∧ d.Restored i src pack ∧
      ∃ out, dumpBand dumpReads diskPackFilename bandName pack = .ok out ∧
        out.length = (d.label.parts i).bytesSize ∧ src <+: out

end DiskPack

/-- Every character from 128 on has only characters 255 behind it. -/
def SignsFill (bandName : List Byte) : Prop :=
  bandName.Pairwise fun c c' => c.msb → c' = 0xFF

instance (bandName : List Byte) : Decidable (SignsFill bandName) :=
  inferInstanceAs (Decidable (List.Pairwise _ _))

/-! ### The two loops -/

variable {reads : ReadSizes} {src pack : List Byte} {pos left : ℕ}

/-- The source is written, in whatever pieces. -/
theorem restoreLoop_eq (h : pos + src.length ≤ pack.length) :
    restoreLoop reads src pos pack = overwrite pack pos src := by
  fun_induction restoreLoop reads src pos pack with
  | case1 reads pos pack => exact (overwrite_nil h).symm
  | case2 reads b bs pos pack block ih =>
    have hsplit : block ++ (b :: bs).drop (min blocksize (reads 0).val) = b :: bs :=
      List.take_append_drop _ _
    have hlength := congrArg List.length hsplit
    rw [List.length_append] at hlength
    have hrest : pos + block.length + ((b :: bs).drop (min blocksize (reads 0).val)).length ≤
        pack.length := by omega
    rw [ih, overwrite_overwrite hrest, hsplit]
    rw [length_overwrite (by omega)]
    exact hrest

/-- The partition is read, in whatever pieces. -/
theorem dumpLoop_eq : dumpLoop reads pack left = pack.take left := by
  fun_induction dumpLoop reads pack left with
  | case1 => rfl
  | case2 => rfl
  | case3 reads left b bs toread block ih =>
    have hle : block.length ≤ left + 1 := by
      simp only [block, toread, List.length_take]
      omega
    have hblock : (b :: bs).take block.length = block := by
      simp only [block, List.length_take]
      exact List.take_eq_take_min.symm
    have hcut := List.take_add (l := b :: bs) (i := block.length) (j := left + 1 - block.length)
    rw [Nat.add_sub_cancel' hle, hblock] at hcut
    rw [ih, hcut]

/-! ### The name of a band -/

/-- A byte that is filled with signs stays. -/
theorem or_fill_eq_self (b c : Byte) : b ||| fill c = b ↔ (c.msb → b = 0xFF) := by
  unfold fill
  cases c.msb with
  | false => simp
  | true =>
    have hones : b ||| 0xFF = 0xFF := BitVec.or_allOnes
    rw [if_pos rfl, hones]
    simp [eq_comm]

/-- Bits that change nothing together change nothing each. -/
theorem or_or_eq_self (b m m' : Byte) : b ||| m ||| m' = b ↔ b ||| m = b ∧ b ||| m' = b := by
  constructor
  · intro h
    constructor
    · calc b ||| m = b ||| m ||| m' ||| m := by rw [h]
        _ = b ||| m ||| m' := by rw [BitVec.or_assoc, BitVec.or_comm m' m, ← BitVec.or_assoc,
          BitVec.or_assoc b m m, BitVec.or_self]
        _ = b := h
    · calc b ||| m' = b ||| m ||| m' ||| m' := by rw [h]
        _ = b ||| m ||| m' := by rw [BitVec.or_assoc, BitVec.or_self]
        _ = b := h
  · rintro ⟨hm, hm'⟩
    rw [hm, hm']

/-- The four characters of a name come back if no sign changes one. -/
theorem unstr4_nameWord {bandName : List Byte} (h : bandName.length = 4) :
    unstr4 (nameWord bandName) = bandName ↔ SignsFill bandName := by
  match bandName, h with
  | [c₀, c₁, c₂, c₃], _ =>
    have hword : nameWord [c₀, c₁, c₂, c₃] = str4 c₀ c₁ c₂ c₃ := rfl
    have h₂ : c₂ ||| fill c₁ ||| fill c₀ = c₂ ↔
        (c₁.msb → c₂ = 0xFF) ∧ (c₀.msb → c₂ = 0xFF) := by
      rw [or_or_eq_self, or_fill_eq_self, or_fill_eq_self]
    have h₃ : c₃ ||| fill c₂ ||| fill c₁ ||| fill c₀ = c₃ ↔
        ((c₂.msb → c₃ = 0xFF) ∧ (c₁.msb → c₃ = 0xFF)) ∧ (c₀.msb → c₃ = 0xFF) := by
      rw [BitVec.or_assoc c₃, or_or_eq_self, ← BitVec.or_assoc, or_or_eq_self, or_fill_eq_self,
        or_fill_eq_self, or_fill_eq_self]
    have hpairs : SignsFill [c₀, c₁, c₂, c₃] ↔
        ((c₀.msb → c₁ = 0xFF) ∧ (c₀.msb → c₂ = 0xFF) ∧ (c₀.msb → c₃ = 0xFF)) ∧
          ((c₁.msb → c₂ = 0xFF) ∧ (c₁.msb → c₃ = 0xFF)) ∧ (c₂.msb → c₃ = 0xFF) := by
      unfold SignsFill
      simp only [List.pairwise_cons, List.forall_mem_cons, List.not_mem_nil, false_imp_iff,
        implies_true, List.Pairwise.nil, and_true]
    rw [hword, unstr4_str4, List.cons.injEq, List.cons.injEq, List.cons.injEq, List.cons.injEq,
      or_fill_eq_self, h₂, h₃, hpairs]
    constructor
    · rintro ⟨-, h10, ⟨h21, h20⟩, ⟨⟨h32, h31⟩, h30⟩, -⟩
      exact ⟨⟨h10, h20, h30⟩, ⟨h21, h31⟩, h32⟩
    · rintro ⟨⟨h10, h20, h30⟩, ⟨h21, h31⟩, h32⟩
      exact ⟨rfl, h10, ⟨h21, h20⟩, ⟨⟨h32, h31⟩, h30⟩, rfl⟩

variable {l : DiskLabelS} {i : Fin 18} {band : Word} {bandName filename : List Byte}

/-- The first partition of a name. -/
theorem findPartition_eq_some :
    findPartition l band = some i ↔
      (i < l.nPartitions.toNat ∧ (l.parts i).name = band) ∧
        ∀ j < i, ¬(j < l.nPartitions.toNat ∧ (l.parts j).name = band) := by
  unfold findPartition
  rw [Fin.find?_eq_some_iff]
  simp only [decide_eq_true_eq, decide_eq_false_iff_not]

/-- Another comment does not change where a name is found. -/
theorem findPartition_withLabel (k : Fin 18) (label : List Byte) :
    findPartition (l.withLabel k label) band = findPartition l band := by
  have hname (j : Fin 18) : ((l.withLabel k label).parts j).name = (l.parts j).name := by
    by_cases hj : j = k
    · rw [hj, parts_withLabel_self]
      rfl
    · rw [parts_withLabel_of_ne hj]
  unfold findPartition
  simp only [hname]
  rfl

/-- Where a band is found. -/
theorem findBand_eq (hname : (cString bandName).length = 4)
    (hread : readDiskLabel filename pack = .ok l) :
    findBand filename bandName pack =
      match findPartition l (nameWord bandName) with
      | some i => .ok (l, i)
      | none => .error (.err ⟨"disk does not contain a partition named: %s", []⟩ bandName) := by
  unfold findBand validateBandName
  rw [if_neg (not_not_intro hname), hread]
  rfl

/-! ### What is restored -/

namespace DiskPack

variable {d : DiskPack} {srcFilename : List Byte}

/-- The label is the one in the first block. -/
theorem label_eq (d : DiskPack) :
    1024 ≤ d.file.length ∧ labelAt (fileMedium d.file) = d.label :=
  have h := readDiskLabel_eq_ok.mp (d.accepted [])
  ⟨h.1, h.2.2⟩

/-- A partition is behind the label and on the pack. -/
theorem startByte_le (hi : i < d.label.nPartitions.toNat) :
    1024 ≤ (d.label.parts i).startByte ∧
      (d.label.parts i).startByte + (d.label.parts i).bytesSize ≤ d.file.length := by
  obtain ⟨hstart, hend⟩ := d.inside i hi
  refine ⟨?_, hend⟩
  unfold PartS.startByte blocksize
  omega

/-- The pack that a source is restored to. -/
theorem restored_writeDiskLabel (hi : i < d.label.nPartitions.toNat)
    (hsize : src.length ≤ (d.label.parts i).bytesSize) (reads : ReadSizes) (label : List Byte) :
    d.Restored i src (writeDiskLabel (d.label.withLabel i label)
      (restoreLoop reads src (d.label.parts i).startByte d.file)) := by
  obtain ⟨hlength, hlabel⟩ := d.label_eq
  obtain ⟨hstart, hend⟩ := startByte_le hi
  have hinside : (d.label.parts i).startByte + src.length ≤ d.file.length := by omega
  rw [restoreLoop_eq hinside]
  have hpack := length_overwrite hinside
  have hlong : 1024 ≤ (overwrite d.file (d.label.parts i).startByte src).length := by omega
  -- the label was read before the source was written
  constructor
  · rw [length_writeDiskLabel hlong, hpack]
  · intro k hk
    rw [getElem?_writeDiskLabel_of_le hlong (by omega), getElem?_overwrite_add hinside hk]
  · intro p hdata hcomment
    by_cases hp : p < 1024
    · exact getElem?_writeDiskLabel_of_notMem hlabel hlength hlong hp hcomment
    · rw [getElem?_writeDiskLabel_of_le hlong (by omega),
        getElem?_overwrite_of_notMem hinside hdata]

/-- The band that is dumped then. -/
theorem dumpBand_writeDiskLabel (hi : i < d.label.nPartitions.toNat)
    (hname : (cString bandName).length = 4)
    (hfind : findPartition d.label (nameWord bandName) = some i)
    (hsize : src.length ≤ (d.label.parts i).bytesSize) (reads dumpReads : ReadSizes)
    (label filename : List Byte) :
    ∃ out, dumpBand dumpReads filename bandName (writeDiskLabel (d.label.withLabel i label)
        (restoreLoop reads src (d.label.parts i).startByte d.file)) = .ok out ∧
      out.length = (d.label.parts i).bytesSize ∧ src <+: out := by
  obtain ⟨hlength, hlabel⟩ := d.label_eq
  obtain ⟨hstart, hend⟩ := startByte_le hi
  have hrestored := restored_writeDiskLabel hi hsize reads label
  have hlong : 1024 ≤ (restoreLoop reads src (d.label.parts i).startByte d.file).length := by
    rw [restoreLoop_eq (by omega), length_overwrite (by omega)]
    exact hlength
  have haccepted := (readDiskLabel_eq_ok.mp (d.accepted [])).2.1
  have hread := readDiskLabel_writeDiskLabel hlong (haccepted.withLabel i label) filename
  generalize writeDiskLabel (d.label.withLabel i label)
    (restoreLoop reads src (d.label.parts i).startByte d.file) = pack at hrestored hread
  have hpart : (d.label.withLabel i label).parts i = (d.label.parts i).withLabel label :=
    parts_withLabel_self d.label i label
  refine ⟨(pack.drop (d.label.parts i).startByte).take (d.label.parts i).bytesSize, ?_, ?_, ?_⟩
  · unfold dumpBand
    rw [findBand_eq hname hread, findPartition_withLabel, hfind]
    change Except.ok (dumpLoop dumpReads
      (pack.drop ((d.label.withLabel i label).parts i).startByte)
      ((d.label.withLabel i label).parts i).bytesSize) = _
    rw [hpart, dumpLoop_eq]
    rfl
  · rw [List.length_take, List.length_drop, hrestored.length]
    omega
  · rw [List.prefix_iff_eq_take, List.take_take, Nat.min_eq_left hsize]
    apply List.ext_getElem?
    intro k
    rw [List.getElem?_take]
    by_cases hk : k < src.length
    · rw [if_pos hk, List.getElem?_drop, hrestored.data k hk]
    · rw [if_neg hk, List.getElem?_eq_none (by omega)]

/-- The bytes of the other bands stay. -/
theorem Restored.band_kept {k : Fin 18} (h : d.Restored i src pack)
    (hi : i < d.label.nPartitions.toNat) (hk : k < d.label.nPartitions.toNat) (hne : i ≠ k)
    (hsize : src.length ≤ (d.label.parts i).bytesSize) :
    (pack.drop (d.label.parts k).startByte).take (d.label.parts k).bytesSize =
      (d.file.drop (d.label.parts k).startByte).take (d.label.parts k).bytesSize := by
  have hdisjoint := d.disjoint i k hi hk hne
  have hstart := (startByte_le hk).1
  apply List.ext_getElem?
  intro o
  rw [List.getElem?_take, List.getElem?_take]
  by_cases ho : o < (d.label.parts k).bytesSize
  · rw [if_pos ho, if_pos ho, List.getElem?_drop, List.getElem?_drop]
    have hblock := hdisjoint (((d.label.parts k).startByte + o) / blocksize)
    unfold PartS.startByte PartS.bytesSize blocksize PartS.endBlock at *
    apply h.others
    · unfold PartS.startByte blocksize
      omega
    · unfold labelPos
      omega
  · rw [if_neg ho, if_neg ho]

/-- A name has four characters. -/
theorem IsBand.length_bandName (hi : d.IsBand bandName i) : bandName.length = 4 := by
  rw [← hi.name]
  rfl

/-- A name without a sign that fills another character is found. -/
theorem findPartition_of_isBand (hi : d.IsBand bandName i) (hsigns : SignsFill bandName) :
    findPartition d.label (nameWord bandName) = some i := by
  have hword : unstr4 (nameWord bandName) = bandName :=
    (unstr4_nameWord hi.length_bandName).mpr hsigns
  rw [findPartition_eq_some]
  refine ⟨⟨hi.partition, unstr4_injective (hi.name.trans hword.symm)⟩, fun j hj hfound => ?_⟩
  apply hi.first j hj
  rw [hfound.2, hword]

/-- What is done to a partition that is found. -/
theorem restoreBand_of_some (hname : (cString bandName).length = 4)
    (hfind : findPartition d.label (nameWord bandName) = some i) :
    restoreBand reads srcFilename src filename bandName d.file =
      if (d.label.parts i).bytesSize < src.length then
        (.error (.err ⟨"SRC_FILE is larger than the partition %s", []⟩ bandName), d.file)
      else
        (.ok (), writeDiskLabel (d.label.withLabel i (basename srcFilename))
          (restoreLoop reads src (d.label.parts i).startByte d.file)) := by
  unfold restoreBand
  rw [findBand_eq hname (d.accepted filename), hfind]

/-- The comment of a file with a name of one character begins with it. -/
theorem comment_singleton (h : 1024 ≤ pack.length) (hl : labelAt (fileMedium pack) = l) (c : Byte) :
    (writeDiskLabel (l.withLabel i [c]) pack)[labelPos i]? = some c := by
  have hplace : labelPos i < 1024 := by
    unfold labelPos
    omega
  have hwords : BytesAt (store (fileMedium pack) (labelPos i)
      ((List.ofFn (labelWords [c])).flatMap le32)) (labelPos i)
      (unstr4 (str4 c 0 0 0) ++ ((List.ofFn (labelWords [c])).tail.flatMap le32)) :=
    bytesAt_store _
  rw [unstr4_str4] at hwords
  rw [getElem?_writeDiskLabel_of_lt hl h hplace, hwords.1]

/-- A name that is found is stored as the word that is made of it. -/
theorem name_of_restoresBand (hi : d.IsBand bandName i) (hname : (cString bandName).length = 4)
    (h : d.RestoresBand bandName i) : (d.label.parts i).name = nameWord bandName := by
  by_contra hne
  cases hfind : findPartition d.label (nameWord bandName) with
  | none =>
    have hrefused := h.outcome (fun _ => 1) (fun _ => 1) [] [] []
    unfold restoreBand at hrefused
    rw [findBand_eq hname (d.accepted []), hfind] at hrefused
    exact absurd hrefused.1 (Nat.not_lt_zero _)
  | some j =>
    obtain ⟨⟨hj, hfound⟩, -⟩ := findPartition_eq_some.mp hfind
    have hji : j ≠ i := by
      rintro rfl
      exact hne hfound
    have hji' : j.val ≠ i.val := fun h => hji (Fin.ext h)
    obtain ⟨hlength, hlabel⟩ := d.label_eq
    obtain ⟨hstart, -⟩ := startByte_le hi.partition
    have hcomment (c : Byte) (hbase : basename [c] = [c]) : some c = d.file[labelPos j]? := by
      have hempty : ¬(d.label.parts j).bytesSize < ([] : List Byte).length := Nat.not_lt_zero _
      -- an empty source, which is never too large
      have hrestores := h.outcome (fun _ => 1) (fun _ => 1) [c] [] []
      rw [restoreBand_of_some hname hfind, if_neg hempty, hbase, restoreLoop] at hrestores
      rw [← comment_singleton hlength hlabel c]
      apply hrestores.2.1.others
      · unfold labelPos
        omega
      · unfold labelPos
        omega
    have hboth := (hcomment 0x61 (by decide)).trans (hcomment 0x62 (by decide)).symm
    exact absurd hboth (by decide)

/-- A band is restored and dumped as it should be, from whatever source, if and only if every
character of its name from 128 on has only characters 255 behind it. -/
theorem restoresBand_iff (hi : d.IsBand bandName i) (hchars : ∀ c ∈ bandName, c ≠ 0) :
    d.RestoresBand bandName i ↔ SignsFill bandName := by
  have hname : (cString bandName).length = 4 := by
    rw [cString_of_forall hchars]
    exact hi.length_bandName
  constructor
  · intro h
    have hword := name_of_restoresBand hi hname h
    rw [← unstr4_nameWord hi.length_bandName, ← hword]
    exact hi.name
  · intro hsigns
    constructor
    intro reads dumpReads srcFilename src filename
    have hfind := findPartition_of_isBand hi hsigns
    rw [restoreBand_of_some hname hfind]
    by_cases hlarge : (d.label.parts i).bytesSize < src.length
    · rw [if_pos hlarge]
      exact ⟨hlarge, rfl⟩
    · rw [if_neg hlarge]
      have hsize := Nat.le_of_not_lt hlarge
      exact ⟨hsize, restored_writeDiskLabel hi.partition hsize reads _,
        dumpBand_writeDiskLabel hi.partition hname hfind hsize reads dumpReads _ filename⟩

/-- A label with one partition of one block. -/
def oneBandLabel (name : Word) : DiskLabelS :=
  { emptyLabel with nPartitions := 1, parts := fun _ => ⟨name, 1, 1, 0⟩ }

/-- The bytes of a pack with it. -/
def oneBandFile (name : Word) : List Byte := (oneBandLabel name).bytes ++ List.replicate 1024 0

theorem length_oneBandFile (name : Word) : (oneBandFile name).length = 2048 := by
  rw [oneBandFile, List.length_append, length_bytes_label, List.length_replicate]

-- elaboration would unfold the 1024 bytes of a label
attribute [local irreducible] DiskLabelS.bytes in
/-- A pack with one partition of one block. -/
def oneBand (name : Word) : DiskPack where
  file := oneBandFile name
  label := oneBandLabel name
  accepted _ := by
    rw [readDiskLabel_eq_ok, length_oneBandFile]
    have hone : (1 : Word) ≤ 18 := by decide
    refine ⟨by decide, ⟨rfl, rfl, hone, rfl⟩,
      labelAt_of_bytesAt (bytesAt_fileMedium fun k hk => ?_)⟩
    rw [oneBandFile, Nat.zero_add, List.getElem?_append_left hk]
  inside _ _ := by
    have hblock : (1 : Word).toNat * blocksize = 1024 := rfl
    rw [length_oneBandFile]
    unfold PartS.startByte PartS.bytesSize oneBandLabel
    simp only [hblock]
    decide
  disjoint j k hj hk hne := by
    have hj' : j.val < 1 := hj
    have hk' : k.val < 1 := hk
    exact absurd (Fin.ext (by omega)) hne

/-- The only partition is the first one of its name. -/
theorem isBand_oneBand {name : Word} (h : unstr4 name = bandName) :
    (oneBand name).IsBand bandName 0 :=
  ⟨Nat.one_pos, h, fun j hj => absurd hj (Fin.not_lt_zero j)⟩

/-- The band LOD1 is restored. -/
theorem restoresBand_lod1 :
    (oneBand (nameWord (chars "LOD1"))).RestoresBand (chars "LOD1") 0 :=
  (restoresBand_iff (isBand_oneBand (by decide)) (by decide)).mpr (by decide)

/-- A band whose name begins with the character 128 is not found. -/
theorem not_restoresBand :
    ∃ (d : DiskPack) (bandName : List Byte) (i : Fin 18), d.IsBand bandName i ∧
      (∀ c ∈ bandName, c ≠ 0) ∧ ¬d.RestoresBand bandName i := by
  have hband : (oneBand 0x43424180).IsBand [0x80, 0x41, 0x42, 0x43] 0 :=
    isBand_oneBand (by decide)
  refine ⟨oneBand 0x43424180, [0x80, 0x41, 0x42, 0x43], 0, hband, by decide, fun h => ?_⟩
  have hname := name_of_restoresBand hband (by decide) h
  have hword : (0x43424180 : Word) ≠ nameWord [0x80, 0x41, 0x42, 0x43] := by decide
  exact hword hname

end DiskPack

end Diskmaker

end Usim
