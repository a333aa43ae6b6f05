import Usim.Lib.CText
import Usim.State

/-!
# Disk templates

`read_template` and `print_template` of `diskmaker.c`: the disk label that a template
describes, and the template that describes a label. The warning about the first
partition is left out.
-/

namespace Usim

open Lib

namespace Diskmaker

/-- `str4`. The characters have signs, so that one from 128 on fills the bytes above. -/
def str4 (c₀ c₁ c₂ c₃ : Byte) : Word :=
  (c₃.signExtend 32 <<< 24) ||| (c₂.signExtend 32 <<< 16) ||| (c₁.signExtend 32 <<< 8) |||
    c₀.signExtend 32

/-- `unstr4`, without the 0 behind the four characters. -/
def unstr4 (w : Word) : List Byte := le32 w

/-- `struct part_s`. -/
structure PartS where
  name : Word
  start : Word
  size : Word
  /-- Not terminated by a 0. -/
  label : Fin 4 → Word

/-- `unstr16`, without the 0 behind the characters. -/
def unstr16 (label : Fin 4 → Word) : List Byte :=
  unstr4 (label 0) ++ unstr4 (label 1) ++ unstr4 (label 2) ++ unstr4 (label 3)

/-- `struct disk_label_s`. -/
@[ext]
structure DiskLabelS where
  magic : Word
  version : Word
  nCylinders : Word
  nHeads : Word
  nBlocksPerTrack : Word
  nBlocksPerCylinder : Word
  currentMicroload : Word
  currentBand : Word
  /-- The three texts are not terminated by a 0. -/
  driveName : Fin 32 → Byte
  packName : Fin 32 → Byte
  comment : Fin 32 → Byte
  /-- `__not_used__`. -/
  notUsed : Fin 96 → Word
  nPartitions : Word
  wordsPerPart : Word
  parts : Fin 18 → PartS

/-- What ends the process, or leaves it undefined, while a template is read. -/
inductive TemplateFault
  /-- A call of `errx`, with the line that it prints. -/
  | err (call : ErrCall) (line : List Byte)
  /-- `assert (strlen(value) == 4)` fails. -/
  | assert
  /-- A word of 32 characters or more is stored in `label[32]`. -/
  | overflow
  deriving DecidableEq, Repr

/-- The local variables of `read_template` that it keeps from line to line. -/
structure TemplateState where
  label : DiskLabelS
  /-- `reading_disk_parameters`. -/
  readingDiskParameters : Bool
  /-- `next_start`, a `uint64_t`. -/
  nextStart : BitVec 64

/-- The label that `read_template` starts with. -/
def emptyLabel : DiskLabelS where
  magic := str4 0x4C 0x41 0x42 0x4C
  version := 1
  nCylinders := 0
  nHeads := 0
  nBlocksPerTrack := 0
  nBlocksPerCylinder := 0
  currentMicroload := 0
  currentBand := 0
  driveName := fun _ => 0
  packName := fun _ => 0
  comment := fun _ => 0
  notUsed := fun _ => 0
  nPartitions := 0
  wordsPerPart := 7
  parts := fun _ => ⟨0, 0, 0, fun _ => 0⟩

/-- The state before the first line. -/
def templateStart : TemplateState := ⟨emptyLabel, true, 0⟩

/-- The four characters of a band, behind `assert (strlen(value) == 4)`. -/
def bandOf : List Byte → Except TemplateFault Word
  | [c₀, c₁, c₂, c₃] => .ok (str4 c₀ c₁ c₂ c₃)
  | _ => .error .assert

/-- What `read_template` does with the name and the value of a disk parameter. -/
def setParameter (line name value : List Byte) (l : DiskLabelS) :
    Except TemplateFault DiskLabelS :=
  if name = chars "cylinders" then
    let cylinders := BitVec.ofInt 32 (strtol value)
    if 4096 ≤ cylinders then .error (.err ⟨"cylinders has to be <= 4095", []⟩ [])
    else .ok { l with nCylinders := cylinders }
  else if name = chars "heads" then
    let heads := BitVec.ofInt 32 (strtol value)
    if 256 ≤ heads then .error (.err ⟨"heads has to be <= 255", []⟩ [])
    else .ok { l with nHeads := heads }
  else if name = chars "blockspertrack" then
    let blocksPerTrack := BitVec.ofInt 32 (strtol value)
    if 256 ≤ blocksPerTrack then .error (.err ⟨"blockspertrack has to be <= 255", []⟩ [])
    else .ok { l with nBlocksPerTrack := blocksPerTrack }
  else if name = chars "blockspercylinder" then
    .ok { l with nBlocksPerCylinder := BitVec.ofInt 32 (strtol value) }
  else if name = chars "mcr" then
    (bandOf value).map fun w => { l with currentMicroload := w }
  else if name = chars "lod" then
    (bandOf value).map fun w => { l with currentBand := w }
  else if name = chars "brand" ∨ name = chars "drive" then
    .ok { l with driveName := padded 32 value }
  else if name = chars "text" ∨ name = chars "pack" then
    .ok { l with packName := padded 32 value }
  else if name = chars "comment" then .ok { l with comment := padded 32 value }
  else .error (.err ⟨"invalid line in template: %s", []⟩ line)

/-- A line of the disk parameters. -/
def parameterLine (line : List Byte) (l : DiskLabelS) : Except TemplateFault DiskLabelS :=
  setParameter line (scanWord line).1 ((skipSpace (scanWord line).2).takeWhile (· ≠ newline)) l

/-- The line `partitions:`. -/
def partitionsLine (l : DiskLabelS) : Except TemplateFault TemplateState :=
  if l.magic = 0 ∨ l.version = 0 ∨ l.nCylinders = 0 ∨ l.nHeads = 0 ∨ l.nBlocksPerTrack = 0 ∨
      l.currentMicroload = 0 ∨ l.currentBand = 0 then
    .error (.err ⟨"missing disk parameters, please check the template file", []⟩ [])
  else
    let nBlocksPerCylinder :=
      if l.nBlocksPerCylinder = 0 then l.nHeads * l.nBlocksPerTrack else l.nBlocksPerCylinder
    .ok ⟨{ l with nBlocksPerCylinder := nBlocksPerCylinder }, false,
      l.nBlocksPerTrack.setWidth 64⟩

/-- The blocks of the disk. -/
def capacity (l : DiskLabelS) : BitVec 64 :=
  l.nCylinders.setWidth 64 * l.nHeads.setWidth 64 * l.nBlocksPerTrack.setWidth 64

/-- The start and the size of a partition. A size in cylinders moves the start to the
next cylinder; the size that a dash sets is overwritten by that of `strtol`. -/
def placement (l : DiskLabelS) (start : Word) (ssize : List Byte) : Word × Word :=
  if ssize.head? = some 0x63 then
    let sizeInCyls := BitVec.ofInt 32 (strtol ssize.tail)
    let nblocksInLastCylinder := start % l.nBlocksPerCylinder
    (start +
        (if nblocksInLastCylinder > 0 then l.nBlocksPerCylinder - nblocksInLastCylinder else 0),
      sizeInCyls * l.nBlocksPerCylinder)
  else (start, BitVec.ofInt 32 (strtol ssize))

/-- The words of the comment of a partition, from `label[32]`. -/
def labelWords (label : List Byte) : Fin 4 → Word := fun k =>
  str4 ((label[4 * k.val]?).getD 0) ((label[4 * k.val + 1]?).getD 0)
    ((label[4 * k.val + 2]?).getD 0) ((label[4 * k.val + 3]?).getD 0)

/-- The word of `name[4]`. -/
def nameWord (name : List Byte) : Word :=
  str4 ((name[0]?).getD 0) ((name[1]?).getD 0) ((name[2]?).getD 0) ((name[3]?).getD 0)

/-- A line of the partition table. -/
def partitionLine (line : List Byte) (s : TemplateState) : Except TemplateFault TemplateState :=
  let l := s.label
  if h : l.nPartitions.toNat < 18 then
    let name := line.take 4
    let sstart := scanWord (line.drop 4)
    let ssize := scanWord sstart.2
    let label := (scanWord ssize.2).1
    if 32 ≤ label.length then .error .overflow
    else
      let start : Word :=
        if sstart.1.head? = some 0x2D then s.nextStart.setWidth 32
        else BitVec.ofInt 32 (strtol sstart.1)
      let p := placement l start ssize.1
      let nextStart : BitVec 64 := (p.1 + p.2).setWidth 64
      if capacity l < nextStart then
        .error (.err ⟨"invalid line: %s, disk capacity exceeded: %llu > %llu",
          [nextStart.toNat, (capacity l).toNat]⟩ line)
      else
        .ok { s with
          label := { l with
            nPartitions := l.nPartitions + 1
            parts := Function.update l.parts ⟨l.nPartitions.toNat, h⟩
              ⟨nameWord name, p.1, p.2, labelWords label⟩ }
          nextStart := nextStart }
  else .error (.err ⟨"maximum 18 partitions can be created", []⟩ [])

/-- A turn of the loop of `read_template`, for what `fgets` has read. -/
def templateLine (s : TemplateState) (buffer : List Byte) : Except TemplateFault TemplateState :=
  -- the last character, a line end if the line is not cut, is taken off
  let line := (cString buffer).dropLast
  if line.head? = some 0x23 then .ok s
  else if line = chars "partitions:" then partitionsLine s.label
  else if s.readingDiskParameters then
    (parameterLine line s.label).map fun l => { s with label := l }
  else partitionLine line s

/-- `read_template`, of a file that can be opened. -/
def readTemplate (file : List Byte) : Except TemplateFault DiskLabelS :=
  ((fgetsLines [] file).foldlM templateLine templateStart).map TemplateState.label

/-- The bytes from a text of the label on. -/
def DiskLabelS.fromComment (l : DiskLabelS) : List Byte :=
  List.ofFn l.comment ++ (List.ofFn l.notUsed).flatMap le32

/-- The bytes from `pack_name` on. -/
def DiskLabelS.fromPackName (l : DiskLabelS) : List Byte := List.ofFn l.packName ++ l.fromComment

/-- The bytes from `drive_name` on. -/
def DiskLabelS.fromDriveName (l : DiskLabelS) : List Byte :=
  List.ofFn l.driveName ++ l.fromPackName

/-- The line of a partition. -/
def partitionText (p : PartS) : List Byte :=
  cString (unstr4 p.name) ++ chars " 0" ++ numeral 8 p.start.toNat ++ chars " 0" ++
    numeral 8 p.size.toNat ++ chars " " ++ cString (unstr16 p.label)

/-- The lines above the partition table. A text that fills its array runs on into what
follows it. -/
def parameterTexts (l : DiskLabelS) : List (List Byte) :=
  [chars "cylinders " ++ numeral 10 l.nCylinders.toNat,
    chars "heads " ++ numeral 10 l.nHeads.toNat,
    chars "blockspertrack " ++ numeral 10 l.nBlocksPerTrack.toNat,
    chars "drive " ++ cString l.fromDriveName,
    chars "pack " ++ cString l.fromPackName,
    chars "comment " ++ cString l.fromComment,
    chars "mcr " ++ cString (unstr4 l.currentMicroload),
    chars "lod " ++ cString (unstr4 l.currentBand)]

/-- `print_template`, of a label with at most 18 partitions. -/
def printTemplate (l : DiskLabelS) : List Byte :=
  (parameterTexts l ++ [chars "partitions:"] ++
    ((List.ofFn l.parts).take l.nPartitions.toNat).map partitionText).flatMap (· ++ [newline])

end Diskmaker

end Usim
