import Usim.Lib.Files
import Usim.PartitionLayout

/-!
# The label block of a disk pack

`read_disk_label` and `write_disk_label` of `diskmaker.c`, which move a `struct disk_label_s`
between memory and the first block of a disk pack as it is. Reads are as long as the file allows
and writes are complete.
-/

namespace Usim

open Lib

namespace Diskmaker

/-- `BLOCKSIZE`. -/
def blocksize : ℕ := 1024

/-- What ends a command on a disk pack. -/
inductive PackFault
  /-- A call of `errx`, with the text that it prints first. -/
  | err (call : ErrCall) (text : List Byte)
  /-- An assertion fails. -/
  | assert
  deriving DecidableEq, Repr

/-- The bytes of a `struct part_s`. -/
def PartS.bytes (p : PartS) : List Byte :=
  le32 p.name ++ le32 p.start ++ le32 p.size ++ (List.ofFn p.label).flatMap le32

/-- The bytes of a `struct disk_label_s`. -/
def DiskLabelS.bytes (l : DiskLabelS) : List Byte :=
  le32 l.magic ++ le32 l.version ++ le32 l.nCylinders ++ le32 l.nHeads ++ le32 l.nBlocksPerTrack ++
    le32 l.nBlocksPerCylinder ++ le32 l.currentMicroload ++ le32 l.currentBand ++
    List.ofFn l.driveName ++ List.ofFn l.packName ++ List.ofFn l.comment ++
    (List.ofFn l.notUsed).flatMap le32 ++ le32 l.nPartitions ++ le32 l.wordsPerPart ++
    (List.ofFn l.parts).flatMap PartS.bytes

/-- The `struct part_s` that stands on a medium. -/
def partAt (mm : Medium) (pos : ℕ) : PartS where
  name := wordAt mm pos
  start := wordAt mm (pos + 4)
  size := wordAt mm (pos + 8)
  label k := wordAt mm (pos + 12 + 4 * k)

/-- The `struct disk_label_s` that stands at the start of a medium. -/
def labelAt (mm : Medium) : DiskLabelS where
  magic := wordAt mm 0
  version := wordAt mm 4
  nCylinders := wordAt mm 8
  nHeads := wordAt mm 12
  nBlocksPerTrack := wordAt mm 16
  nBlocksPerCylinder := wordAt mm 20
  currentMicroload := wordAt mm 24
  currentBand := wordAt mm 28
  driveName k := mm (32 + k)
  packName k := mm (64 + k)
  comment k := mm (96 + k)
  notUsed k := wordAt mm (128 + 4 * k)
  nPartitions := wordAt mm 512
  wordsPerPart := wordAt mm 516
  parts k := partAt mm (520 + 28 * k)

/-- `read_disk_label`. -/
def readDiskLabel (diskPackFilename pack : List Byte) : Except PackFault DiskLabelS :=
  let diskLabel := labelAt (fileMedium pack)
  if pack.length < 1024 then .error .assert
  else if diskLabel.magic ≠ str4 0x4C 0x41 0x42 0x4C then
    .error (.err ⟨"invalid disk pack file: %s (invalid magic)\n", []⟩ diskPackFilename)
  else if diskLabel.version ≠ 1 then
    .error (.err ⟨"invalid disk pack file: %s (invalid version %u)\n", [diskLabel.version.toNat]⟩
      diskPackFilename)
  else if 18 < diskLabel.nPartitions then
    .error (.err ⟨"invalid disk pack file: %s (invalid n_partitions %u)\n",
      [diskLabel.nPartitions.toNat]⟩ diskPackFilename)
  else if diskLabel.wordsPerPart ≠ 7 then
    .error (.err ⟨"invalid disk pack file: %s (invalid words per part %u)\n",
      [diskLabel.wordsPerPart.toNat]⟩ diskPackFilename)
  else .ok diskLabel

/-- `write_disk_label`. -/
def writeDiskLabel (diskLabel : DiskLabelS) (pack : List Byte) : List Byte :=
  overwrite pack 0 diskLabel.bytes

/-- A partition with another comment. -/
def PartS.withLabel (p : PartS) (label : List Byte) : PartS := { p with label := labelWords label }

/-- A label with another comment of a partition. -/
def DiskLabelS.withLabel (l : DiskLabelS) (i : Fin 18) (label : List Byte) : DiskLabelS :=
  { l with parts := Function.update l.parts i ((l.parts i).withLabel label) }

/-- The byte of the label block where the comment of a partition begins. -/
def labelPos (i : Fin 18) : ℕ := 532 + 28 * i

variable {mm mm' : Medium} {l : DiskLabelS} {i : Fin 18} {pack : List Byte}

@[simp] theorem parts_withLabel_self (l : DiskLabelS) (i : Fin 18) (label : List Byte) :
    (l.withLabel i label).parts i = (l.parts i).withLabel label :=
  Function.update_self i _ l.parts

theorem parts_withLabel_of_ne {k : Fin 18} (h : k ≠ i) {label : List Byte} :
    (l.withLabel i label).parts k = l.parts k :=
  Function.update_of_ne h _ l.parts

/-! ### The bytes of a label -/

/-- A partition is written as it is read. -/
theorem bytes_partAt (mm : Medium) (pos : ℕ) : (partAt mm pos).bytes = slice mm pos 28 := by
  have hlabel : (List.ofFn (partAt mm pos).label).flatMap le32 = slice mm (pos + 12) (4 * 4) :=
    flatMap_ofFn_eq_slice _ _ fun k => le32_wordAt mm (pos + 12 + 4 * k)
  unfold PartS.bytes
  rw [hlabel]
  simp only [partAt, le32_wordAt, slice_append, Nat.reduceAdd, Nat.reduceMul]

/-- A label is written as it is read. -/
theorem bytes_labelAt (mm : Medium) : (labelAt mm).bytes = slice mm 0 1024 := by
  have hnotUsed : (List.ofFn (labelAt mm).notUsed).flatMap le32 = slice mm 128 (4 * 96) :=
    flatMap_ofFn_eq_slice _ _ fun k => le32_wordAt mm (128 + 4 * k)
  have hparts : (List.ofFn (labelAt mm).parts).flatMap PartS.bytes = slice mm 520 (28 * 18) :=
    flatMap_ofFn_eq_slice _ _ fun k => bytes_partAt mm (520 + 28 * k)
  have hdriveName : List.ofFn (labelAt mm).driveName = slice mm 32 32 := ofFn_eq_slice mm 32 32
  have hpackName : List.ofFn (labelAt mm).packName = slice mm 64 32 := ofFn_eq_slice mm 64 32
  have hcomment : List.ofFn (labelAt mm).comment = slice mm 96 32 := ofFn_eq_slice mm 96 32
  unfold DiskLabelS.bytes
  rw [hnotUsed, hparts, hdriveName, hpackName, hcomment]
  have hjoin (n k : ℕ) : slice mm 0 n ++ slice mm n k = slice mm 0 (n + k) := by
    have happend := slice_append mm 0 n k
    rw [Nat.zero_add] at happend
    exact happend
  simp only [labelAt, le32_wordAt, hjoin, Nat.reduceAdd, Nat.reduceMul]

/-- A partition depends on its bytes only. -/
theorem partAt_congr {pos : ℕ} (h : ∀ k < 28, mm (pos + k) = mm' (pos + k)) :
    partAt mm pos = partAt mm' pos := by
  have hword (q : ℕ) (hq : q + 4 ≤ 28) : wordAt mm (pos + q) = wordAt mm' (pos + q) := by
    apply wordAt_congr
    intro k hk
    rw [Nat.add_assoc]
    exact h (q + k) (by omega)
  unfold partAt
  rw [hword 4 (by decide), hword 8 (by decide), show wordAt mm pos = wordAt mm' pos from
    hword 0 (by decide)]
  congr 1
  funext k
  rw [Nat.add_assoc]
  exact hword (12 + 4 * k) (by omega)

/-- The words of a comment, stored on a medium. -/
theorem wordAt_store_label (mm : Medium) (label : Fin 4 → Word) (pos : ℕ) (k : Fin 4) :
    wordAt (store mm pos ((List.ofFn label).flatMap le32)) (pos + 4 * k) = label k := by
  have hbytes : BytesAt (store mm pos ((List.ofFn label).flatMap le32)) pos
      (le32 (label 0) ++ (le32 (label 1) ++ (le32 (label 2) ++ le32 (label 3)))) :=
    bytesAt_store _
  rw [bytesAt_append, bytesAt_append, bytesAt_append] at hbytes
  obtain ⟨h0, h1, h2, h3⟩ := hbytes
  match k with
  | 0 => exact wordAt_of_bytesAt h0
  | 1 => exact wordAt_of_bytesAt h1
  | 2 => exact wordAt_of_bytesAt h2
  | 3 => exact wordAt_of_bytesAt h3

/-- A partition has 28 bytes. -/
theorem length_bytes_part (p : PartS) : p.bytes.length = 28 := by
  rw [PartS.bytes, List.length_append, length_flatMap_const fun w _ => length_le32 w,
    List.length_ofFn]
  rfl

/-- A label has 1024. -/
@[simp] theorem length_bytes_label (l : DiskLabelS) : l.bytes.length = 1024 := by
  unfold DiskLabelS.bytes
  simp only [List.length_append, length_le32, List.length_ofFn,
    length_flatMap_const fun w _ => length_le32 w,
    length_flatMap_const fun p _ => length_bytes_part p]

/-- A partition is read as it was written. -/
theorem partAt_of_bytesAt {p : PartS} {pos : ℕ} (h : BytesAt mm pos p.bytes) :
    partAt mm pos = p := by
  unfold PartS.bytes at h
  simp only [bytesAt_append, List.length_append, length_le32] at h
  obtain ⟨⟨⟨hname, hstart⟩, hsize⟩, hlabel⟩ := h
  unfold partAt
  rw [wordAt_of_bytesAt hname, wordAt_of_bytesAt hstart, wordAt_of_bytesAt hsize]
  congr 1
  funext k
  exact wordAt_of_bytesAt (hlabel.ofFn length_le32 k)

/-- A label is read as it was written. -/
theorem labelAt_of_bytesAt (h : BytesAt mm 0 l.bytes) : labelAt mm = l := by
  unfold DiskLabelS.bytes at h
  simp only [bytesAt_append, List.length_append, length_le32, List.length_ofFn,
    length_flatMap_const fun w _ => length_le32 w, Nat.reduceAdd, Nat.reduceMul] at h
  obtain ⟨⟨⟨⟨⟨⟨⟨⟨⟨⟨⟨⟨⟨⟨hmagic, hversion⟩, hcylinders⟩, hheads⟩, htrack⟩, hcylinder⟩, hmicroload⟩,
    hband⟩, hdrive⟩, hpack⟩, hcomment⟩, hunused⟩, hnumber⟩, hwords⟩, hparts⟩ := h
  apply DiskLabelS.ext
  case driveName =>
    funext k
    exact hdrive.byte k
  case packName =>
    funext k
    exact hpack.byte k
  case comment =>
    funext k
    exact hcomment.byte k
  case notUsed =>
    funext k
    exact wordAt_of_bytesAt (hunused.ofFn length_le32 k)
  case parts =>
    funext k
    exact partAt_of_bytesAt (hparts.ofFn length_bytes_part k)
  all_goals exact wordAt_of_bytesAt ‹_›

/-- Another comment of a partition is another comment on the medium. -/
theorem labelAt_store (mm : Medium) (i : Fin 18) (label : List Byte) :
    labelAt (store mm (labelPos i) ((List.ofFn (labelWords label)).flatMap le32)) =
      (labelAt mm).withLabel i label := by
  have hlength : ((List.ofFn (labelWords label)).flatMap le32).length = 16 := rfl
  have hwords := wordAt_store_label mm (labelWords label) (labelPos i)
  generalize (List.ofFn (labelWords label)).flatMap le32 = bs at hlength hwords
  have hbyte (q : ℕ) (hq : q < labelPos i ∨ labelPos i + 16 ≤ q) :
      store mm (labelPos i) bs q = mm q :=
    store_of_notMem (by omega)
  have hword (q : ℕ) (hq : q + 4 ≤ labelPos i ∨ labelPos i + 16 ≤ q) :
      wordAt (store mm (labelPos i) bs) q = wordAt mm q :=
    wordAt_congr fun k hk => hbyte (q + k) (by omega)
  unfold labelPos at hbyte hword hwords
  unfold labelPos
  apply DiskLabelS.ext
  case driveName =>
    funext k
    exact hbyte (32 + k) (by omega)
  case packName =>
    funext k
    exact hbyte (64 + k) (by omega)
  case comment =>
    funext k
    exact hbyte (96 + k) (by omega)
  case notUsed =>
    funext k
    exact hword (128 + 4 * k) (by omega)
  case parts =>
    funext k
    by_cases hk : k = i
    · rw [hk, parts_withLabel_self]
      have hname := hword (520 + 28 * i) (by omega)
      have hstart := hword (520 + 28 * i + 4) (by omega)
      have hsize := hword (520 + 28 * i + 8) (by omega)
      simp only [labelAt, partAt, PartS.withLabel, hname, hstart, hsize, PartS.mk.injEq, true_and]
      funext k
      rw [← hwords k]
      congr 1
      omega
    · have hne : k.val ≠ i.val := fun h => hk (Fin.ext h)
      rw [parts_withLabel_of_ne hk]
      exact partAt_congr fun q hq => hbyte (520 + 28 * k + q) (by omega)
  all_goals exact hword _ (by omega)

/-! ### Reading and writing it -/

/-- What `read_disk_label` asks of a label. -/
structure DiskLabelS.Accepted (l : DiskLabelS) : Prop where
  magic : l.magic = str4 0x4C 0x41 0x42 0x4C
  version : l.version = 1
  nPartitions : l.nPartitions ≤ 18
  wordsPerPart : l.wordsPerPart = 7

/-- The label of a pack that has one. -/
theorem readDiskLabel_eq_ok {filename : List Byte} :
    readDiskLabel filename pack = .ok l ↔
      1024 ≤ pack.length ∧ l.Accepted ∧ labelAt (fileMedium pack) = l := by
  unfold readDiskLabel
  simp only
  generalize labelAt (fileMedium pack) = label
  constructor
  · intro h
    split at h
    · cases h
    split at h
    · cases h
    split at h
    · cases h
    split at h
    · cases h
    split at h
    · cases h
    rename_i hlength hmagic hversion hnPartitions hwordsPerPart
    cases h
    exact ⟨Nat.le_of_not_lt hlength, ⟨of_not_not hmagic, of_not_not hversion,
      BitVec.not_lt.mp hnPartitions, of_not_not hwordsPerPart⟩, rfl⟩
  · rintro ⟨hlength, haccepted, rfl⟩
    rw [if_neg (Nat.not_lt_of_le hlength), if_neg (not_not_intro haccepted.magic),
      if_neg (not_not_intro haccepted.version),
      if_neg (BitVec.not_lt.mpr haccepted.nPartitions),
      if_neg (not_not_intro haccepted.wordsPerPart)]

/-- Another comment is accepted, too. -/
theorem DiskLabelS.Accepted.withLabel (h : l.Accepted) (i : Fin 18) (label : List Byte) :
    (l.withLabel i label).Accepted :=
  ⟨h.magic, h.version, h.nPartitions, h.wordsPerPart⟩

/-- A label is written within a pack. -/
theorem length_writeDiskLabel (h : 1024 ≤ pack.length) :
    (writeDiskLabel l pack).length = pack.length := by
  apply length_overwrite
  rw [length_bytes_label, Nat.zero_add]
  exact h

-- elaboration would unfold the 1024 bytes of a label
attribute [local irreducible] DiskLabelS.bytes in
/-- The label that was written is read again. -/
theorem readDiskLabel_writeDiskLabel (h : 1024 ≤ pack.length) (hl : l.Accepted)
    (filename : List Byte) : readDiskLabel filename (writeDiskLabel l pack) = .ok l := by
  rw [readDiskLabel_eq_ok, length_writeDiskLabel h]
  refine ⟨h, hl, labelAt_of_bytesAt (bytesAt_fileMedium fun k hk => ?_)⟩
  apply getElem?_overwrite_add _ hk
  rw [length_bytes_label, Nat.zero_add]
  exact h

/-- The blocks behind the label stay. -/
theorem getElem?_writeDiskLabel_of_le (h : 1024 ≤ pack.length) {p : ℕ} (hp : 1024 ≤ p) :
    (writeDiskLabel l pack)[p]? = pack[p]? := by
  apply getElem?_overwrite_of_notMem
  · rw [length_bytes_label, Nat.zero_add]
    exact h
  · rw [length_bytes_label]
    omega

section WriteDiskLabel

variable {file label : List Byte}

/-- A byte of a file that is long enough. -/
theorem getElem?_eq_fileMedium {p : ℕ} (h : p < file.length) :
    file[p]? = some (fileMedium file p) := by
  rw [fileMedium, List.getD_eq_getElem _ _ h, List.getElem?_eq_getElem h]

/-- The label block that is written is the one that was read, with another comment. -/
theorem bytes_withLabel (hl : labelAt (fileMedium file) = l) (i : Fin 18) (label : List Byte) :
    (l.withLabel i label).bytes =
      slice (store (fileMedium file) (labelPos i) ((List.ofFn (labelWords label)).flatMap le32))
        0 1024 := by
  rw [← hl, ← labelAt_store, bytes_labelAt]

/-- The label block is that of the label that was read, with the comment in it. -/
theorem getElem?_writeDiskLabel_of_lt (hl : labelAt (fileMedium file) = l)
    (h : 1024 ≤ pack.length) {p : ℕ} (hp : p < 1024) :
    (writeDiskLabel (l.withLabel i label) pack)[p]? =
      some (store (fileMedium file) (labelPos i)
        ((List.ofFn (labelWords label)).flatMap le32) p) := by
  have hlength := length_slice (store (fileMedium file) (labelPos i)
    ((List.ofFn (labelWords label)).flatMap le32)) 0 1024
  rw [writeDiskLabel, bytes_withLabel hl, getElem?_overwrite (by omega), if_pos (by omega),
    Nat.sub_zero, getElem?_slice hp, Nat.zero_add]

/-- The bytes of the label block outside the comment are those that were read. -/
theorem getElem?_writeDiskLabel_of_notMem (hl : labelAt (fileMedium file) = l)
    (hfile : 1024 ≤ file.length) (h : 1024 ≤ pack.length) {p : ℕ} (hp : p < 1024)
    (hlabel : p < labelPos i ∨ labelPos i + 16 ≤ p) :
    (writeDiskLabel (l.withLabel i label) pack)[p]? = file[p]? := by
  have hlength : ((List.ofFn (labelWords label)).flatMap le32).length = 16 := rfl
  rw [getElem?_writeDiskLabel_of_lt hl h hp, store_of_notMem (by omega),
    getElem?_eq_fileMedium (by omega)]

end WriteDiskLabel

end Diskmaker

end Usim
