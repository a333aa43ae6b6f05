import Mathlib.Tactic.Ring
import Usim.MainMemory

/-!
# Disk units

A Trident disk of `disk-unit.c`. The image is an array of blocks, each of the
256 words of a page; `disk_unit_init` accepts no image of another size than the
drive's. Opening and mapping the image file is left out.
-/

namespace Usim

/-- `struct disk_unit_type_s`. -/
structure DiskUnitType where
  /-- The full name. -/
  name : String
  /-- The name in the configuration. -/
  shortName : String
  /-- The number of cylinders. -/
  ncylinders : Word
  /-- The number of heads. -/
  nheads : Word
  /-- The number of blocks on a track. -/
  nblocksPerTrack : Word
  deriving DecidableEq, Repr

/-- `disk_unit_types`. -/
def diskUnitTypes : List DiskUnitType :=
  [⟨"Trident T-80", "T-80", 815, 5, 17⟩, ⟨"Trident T-300", "T-300", 815, 19, 17⟩]

/-- `struct disk_unit_s`. -/
structure DiskUnit where
  /-- The number of the unit. -/
  unit : Word
  /-- The number of cylinders. -/
  ncylinders : Word
  /-- The number of heads. -/
  nheads : Word
  /-- The number of blocks on a track. -/
  nblocksPerTrack : Word
  /-- The number of blocks in a cylinder. -/
  nblocksPerCylinder : Word
  /-- A disk pack is loaded. -/
  online : Bool
  /-- The disk is write-protected. -/
  readOnly : Bool
  /-- A seek failed. -/
  seekError : Bool
  /-- The unit has a fault. -/
  hasFault : Bool
  /-- The unit has attention. -/
  attention : Bool
  /-- The memory address register of the controller. -/
  lastMemoryAddress : Word
  /-- The blocks of the image `mm`. -/
  mm : Word → Page
  /-- The size of the image in bytes. -/
  mmsz : ℕ
  /-- The cylinder. -/
  cylinder : Word
  /-- The head. -/
  head : Word
  /-- The block on the track. -/
  sector : Word
  /-- The number of the block on the disk. -/
  lba : Word

/-- `disk_unit_init` for a unit that is not configured: offline, the rest zero. -/
def offlineUnit (unit : Word) : DiskUnit where
  unit := unit
  ncylinders := 0
  nheads := 0
  nblocksPerTrack := 0
  nblocksPerCylinder := 0
  online := false
  readOnly := false
  seekError := false
  hasFault := false
  attention := false
  lastMemoryAddress := 0
  mm := fun _ _ => 0
  mmsz := 0
  cylinder := 0
  head := 0
  sector := 0
  lba := 0

/-- `disk_unit_init` for a unit with a disk pack. -/
def diskUnitInit (unit : Word) (type : DiskUnitType) (mm : Word → Page) : DiskUnit :=
  { offlineUnit unit with
    ncylinders := type.ncylinders
    nheads := type.nheads
    nblocksPerTrack := type.nblocksPerTrack
    nblocksPerCylinder := type.nheads * type.nblocksPerTrack
    online := true
    mm := mm
    mmsz := type.ncylinders.toNat * (type.nheads * type.nblocksPerTrack).toNat * 1024 }

/-- `disk_unit_read`: the block at `lba`, unless it lies past the end of the image. -/
def diskUnitRead (p : DiskUnit) : Option Page :=
  if p.mmsz ≤ p.lba.toNat * 1024 then none else some (p.mm p.lba)

/-- `disk_unit_write`: the unit afterwards, unless `lba` lies past the end of the image. -/
def diskUnitWrite (p : DiskUnit) (buffer : Page) : Option DiskUnit :=
  if p.mmsz ≤ p.lba.toNat * 1024 then none
  else some { p with mm := Function.update p.mm p.lba buffer }

/-- `disk_unit_seek`: whether it succeeded, and the unit afterwards. -/
def diskUnitSeek (p : DiskUnit) (cylinder head sector : Word) : Bool × DiskUnit :=
  if cylinder = p.cylinder ∧ head = p.head ∧ sector = p.sector then (true, p)
  else if p.ncylinders ≤ cylinder then (false, { p with seekError := true })
  else if p.nheads ≤ head then (false, { p with seekError := true })
  else if p.nblocksPerTrack ≤ sector then (false, { p with seekError := true })
  else
    (true, { p with
      cylinder := cylinder
      head := head
      sector := sector
      lba := cylinder * p.nblocksPerCylinder + head * p.nblocksPerTrack + sector })

/-- The position that follows on the disk: cylinder, head and sector. -/
def nextPosition (p : DiskUnit) : Word × Word × Word :=
  if p.sector + 1 = p.nblocksPerTrack then
    if p.head + 1 = p.nheads then (p.cylinder + 1, 0, 0) else (p.cylinder, p.head + 1, 0)
  else (p.cylinder, p.head, p.sector + 1)

/-- `disk_unit_seek_next_lba`. -/
def diskUnitSeekNextLba (p : DiskUnit) : Bool × DiskUnit :=
  diskUnitSeek p (nextPosition p).1 (nextPosition p).2.1 (nextPosition p).2.2

/-- `disk_unit_rotate`: the platter turns by one block. -/
def diskUnitRotate (p : DiskUnit) : DiskUnit :=
  { p with sector := if p.nblocksPerTrack ≤ p.sector + 1 then 0 else p.sector + 1 }

/-- `disk_unit_da`. -/
def diskUnitDa (p : DiskUnit) : Word :=
  (p.unit <<< 28) ||| (p.cylinder <<< 16) ||| (p.head <<< 8) ||| p.sector

namespace DiskUnit

/-- The geometry of a unit: cylinders, heads, and blocks on a track. -/
def geometry (p : DiskUnit) : ℕ × ℕ × ℕ :=
  (p.ncylinders.toNat, p.nheads.toNat, p.nblocksPerTrack.toNat)

/-- A position of the drive. -/
structure InRange (p : DiskUnit) : Prop where
  /-- The cylinder exists. -/
  cylinder : p.cylinder.toNat < p.ncylinders.toNat
  /-- The head exists. -/
  head : p.head.toNat < p.nheads.toNat
  /-- The block exists. -/
  sector : p.sector.toNat < p.nblocksPerTrack.toNat

instance (p : DiskUnit) : Decidable p.InRange :=
  decidable_of_iff (p.cylinder.toNat < p.ncylinders.toNat ∧ p.head.toNat < p.nheads.toNat ∧
    p.sector.toNat < p.nblocksPerTrack.toNat)
    ⟨fun h => ⟨h.1, h.2.1, h.2.2⟩, fun h => ⟨h.cylinder, h.head, h.sector⟩⟩

/-- The number of the block at the position, counted along the tracks. -/
def index (p : DiskUnit) : ℕ :=
  (p.cylinder.toNat * p.nheads.toNat + p.head.toNat) * p.nblocksPerTrack.toNat + p.sector.toNat

/-- The number of blocks of the drive. -/
def capacity (p : DiskUnit) : ℕ :=
  p.ncylinders.toNat * p.nheads.toNat * p.nblocksPerTrack.toNat

/-- A position of the drive is below its capacity. -/
theorem InRange.index_lt {p : DiskUnit} (h : p.InRange) : p.index < p.capacity := by
  have htrack : p.cylinder.toNat * p.nheads.toNat + p.head.toNat + 1 ≤
      p.ncylinders.toNat * p.nheads.toNat := by
    calc p.cylinder.toNat * p.nheads.toNat + p.head.toNat + 1
        ≤ p.cylinder.toNat * p.nheads.toNat + p.nheads.toNat := by have := h.head; omega
      _ = (p.cylinder.toNat + 1) * p.nheads.toNat := by ring
      _ ≤ p.ncylinders.toNat * p.nheads.toNat := Nat.mul_le_mul_right _ h.cylinder
  unfold index capacity
  calc (p.cylinder.toNat * p.nheads.toNat + p.head.toNat) * p.nblocksPerTrack.toNat +
        p.sector.toNat
      < (p.cylinder.toNat * p.nheads.toNat + p.head.toNat) * p.nblocksPerTrack.toNat +
        p.nblocksPerTrack.toNat := by have := h.sector; omega
    _ = (p.cylinder.toNat * p.nheads.toNat + p.head.toNat + 1) * p.nblocksPerTrack.toNat := by ring
    _ ≤ p.ncylinders.toNat * p.nheads.toNat * p.nblocksPerTrack.toNat :=
      Nat.mul_le_mul_right _ htrack

/-- How many more blocks a unit can move on, at most. -/
def rank (p : DiskUnit) : ℕ := if p.InRange then p.capacity - p.index else p.capacity + 1

end DiskUnit

/-- Two states of the same drive: its number, geometry, pack and attention. -/
structure SameDrive (p p' : DiskUnit) : Prop where
  /-- The number. -/
  unit : p'.unit = p.unit
  /-- The cylinders. -/
  ncylinders : p'.ncylinders = p.ncylinders
  /-- The heads. -/
  nheads : p'.nheads = p.nheads
  /-- The blocks on a track. -/
  nblocksPerTrack : p'.nblocksPerTrack = p.nblocksPerTrack
  /-- The blocks in a cylinder. -/
  nblocksPerCylinder : p'.nblocksPerCylinder = p.nblocksPerCylinder
  /-- The disk pack. -/
  online : p'.online = p.online
  /-- The write protection. -/
  readOnly : p'.readOnly = p.readOnly
  /-- The attention. -/
  attention : p'.attention = p.attention
  /-- The size of the image. -/
  mmsz : p'.mmsz = p.mmsz

/-- Two states of the same drive, at the same position. -/
structure SamePlace (p p' : DiskUnit) : Prop extends SameDrive p p' where
  /-- The cylinder. -/
  cylinder : p'.cylinder = p.cylinder
  /-- The head. -/
  head : p'.head = p.head
  /-- The block on the track. -/
  sector : p'.sector = p.sector
  /-- The number of the block. -/
  lba : p'.lba = p.lba

/-- A state of a drive is one of the same drive. -/
theorem SameDrive.refl (p : DiskUnit) : SameDrive p p :=
  ⟨rfl, rfl, rfl, rfl, rfl, rfl, rfl, rfl, rfl⟩

/-- Two changes of a drive. -/
theorem SameDrive.trans {p p' p'' : DiskUnit} (h : SameDrive p p') (h' : SameDrive p' p'') :
    SameDrive p p'' where
  unit := h'.unit.trans h.unit
  ncylinders := h'.ncylinders.trans h.ncylinders
  nheads := h'.nheads.trans h.nheads
  nblocksPerTrack := h'.nblocksPerTrack.trans h.nblocksPerTrack
  nblocksPerCylinder := h'.nblocksPerCylinder.trans h.nblocksPerCylinder
  online := h'.online.trans h.online
  readOnly := h'.readOnly.trans h.readOnly
  attention := h'.attention.trans h.attention
  mmsz := h'.mmsz.trans h.mmsz

/-- Two changes of a drive that leave its place. -/
theorem SamePlace.trans {p p' p'' : DiskUnit} (h : SamePlace p p') (h' : SamePlace p' p'') :
    SamePlace p p'' where
  toSameDrive := h.toSameDrive.trans h'.toSameDrive
  cylinder := h'.cylinder.trans h.cylinder
  head := h'.head.trans h.head
  sector := h'.sector.trans h.sector
  lba := h'.lba.trans h.lba

/-- The place does not depend on the memory address, the fault and the blocks. -/
theorem samePlace_update (p : DiskUnit) (lastMemoryAddress : Word) (hasFault : Bool)
    (mm : Word → Page) : SamePlace p { p with
      lastMemoryAddress := lastMemoryAddress
      hasFault := hasFault
      mm := mm } where
  unit := rfl
  ncylinders := rfl
  nheads := rfl
  nblocksPerTrack := rfl
  nblocksPerCylinder := rfl
  online := rfl
  readOnly := rfl
  attention := rfl
  mmsz := rfl
  cylinder := rfl
  head := rfl
  sector := rfl
  lba := rfl

/-- The rank is a matter of the place. -/
theorem SamePlace.rank {p p' : DiskUnit} (h : SamePlace p p') : p'.rank = p.rank := by
  have hrange : p'.InRange ↔ p.InRange := by
    constructor
    · rintro ⟨hc, hh, hs⟩
      rw [h.cylinder, h.ncylinders] at hc
      rw [h.head, h.nheads] at hh
      rw [h.sector, h.nblocksPerTrack] at hs
      exact ⟨hc, hh, hs⟩
    · rintro ⟨hc, hh, hs⟩
      rw [← h.cylinder, ← h.ncylinders] at hc
      rw [← h.head, ← h.nheads] at hh
      rw [← h.sector, ← h.nblocksPerTrack] at hs
      exact ⟨hc, hh, hs⟩
  unfold DiskUnit.rank DiskUnit.capacity DiskUnit.index
  rw [h.cylinder, h.head, h.sector, h.ncylinders, h.nheads, h.nblocksPerTrack]
  simp only [hrange]

/-- The position that follows is another one. -/
theorem nextPosition_ne (p : DiskUnit) :
    ¬((nextPosition p).1 = p.cylinder ∧ (nextPosition p).2.1 = p.head ∧
      (nextPosition p).2.2 = p.sector) := by
  unfold nextPosition
  split
  · split
    · rintro ⟨h, -, -⟩
      exact absurd h (by bv_omega)
    · rintro ⟨-, h, -⟩
      exact absurd h (by bv_omega)
  · rintro ⟨-, -, h⟩
    exact absurd h (by bv_omega)

/-- A seek to another position that exists. -/
theorem diskUnitSeek_of_inRange {p : DiskUnit} {cylinder head sector : Word}
    (hne : ¬(cylinder = p.cylinder ∧ head = p.head ∧ sector = p.sector))
    (hcylinder : cylinder.toNat < p.ncylinders.toNat) (hhead : head.toNat < p.nheads.toNat)
    (hsector : sector.toNat < p.nblocksPerTrack.toNat) :
    diskUnitSeek p cylinder head sector = (true, { p with
      cylinder := cylinder
      head := head
      sector := sector
      lba := cylinder * p.nblocksPerCylinder + head * p.nblocksPerTrack + sector }) := by
  unfold diskUnitSeek
  rw [if_neg hne, if_neg (by simpa [BitVec.le_def] using hcylinder),
    if_neg (by simpa [BitVec.le_def] using hhead),
    if_neg (by simpa [BitVec.le_def] using hsector)]

/-- A successful seek to another position. -/
theorem diskUnitSeek_true {p : DiskUnit} {cylinder head sector : Word}
    (hne : ¬(cylinder = p.cylinder ∧ head = p.head ∧ sector = p.sector))
    (h : (diskUnitSeek p cylinder head sector).1 = true) :
    cylinder.toNat < p.ncylinders.toNat ∧ head.toNat < p.nheads.toNat ∧
      sector.toNat < p.nblocksPerTrack.toNat := by
  unfold diskUnitSeek at h
  rw [if_neg hne] at h
  split_ifs at h with hcylinder hhead hsector
  simp only [BitVec.le_def] at hcylinder hhead hsector
  omega

/-- A seek leaves the drive and its image. -/
theorem sameDrive_diskUnitSeek (p : DiskUnit) (cylinder head sector : Word) :
    SameDrive p (diskUnitSeek p cylinder head sector).2 := by
  unfold diskUnitSeek
  split_ifs <;> exact ⟨rfl, rfl, rfl, rfl, rfl, rfl, rfl, rfl, rfl⟩

/-- The block that follows has the next number, and its position exists. -/
theorem diskUnitSeekNextLba_index {p : DiskUnit} (h : (diskUnitSeekNextLba p).1 = true) :
    (diskUnitSeekNextLba p).2.InRange ∧
      (p.InRange → (diskUnitSeekNextLba p).2.index = p.index + 1) := by
  have hne := nextPosition_ne p
  obtain ⟨hcylinder, hhead, hsector⟩ := diskUnitSeek_true hne h
  unfold diskUnitSeekNextLba
  rw [diskUnitSeek_of_inRange hne hcylinder hhead hsector]
  refine ⟨⟨hcylinder, hhead, hsector⟩, ?_⟩
  rintro ⟨hc, hh, hs⟩
  unfold DiskUnit.index nextPosition
  have hone : (1 : Word).toNat = 1 := rfl
  have hzero : (0 : Word).toNat = 0 := rfl
  have hcyl := p.ncylinders.isLt
  have hheads := p.nheads.isLt
  have hblocks := p.nblocksPerTrack.isLt
  split_ifs with hlast hlastHead
  · have hs' : p.sector.toNat + 1 = p.nblocksPerTrack.toNat := by
      have := congrArg BitVec.toNat hlast
      rw [BitVec.toNat_add] at this
      omega
    have hh' : p.head.toNat + 1 = p.nheads.toNat := by
      have := congrArg BitVec.toNat hlastHead
      rw [BitVec.toNat_add] at this
      omega
    have hc' : (p.cylinder + 1).toNat = p.cylinder.toNat + 1 := by
      rw [BitVec.toNat_add]
      omega
    simp only [hc', hzero, ← hs', ← hh']
    ring
  · have hs' : p.sector.toNat + 1 = p.nblocksPerTrack.toNat := by
      have := congrArg BitVec.toNat hlast
      rw [BitVec.toNat_add] at this
      omega
    have hh' : (p.head + 1).toNat = p.head.toNat + 1 := by
      rw [BitVec.toNat_add]
      omega
    simp only [hh', hzero, ← hs']
    ring
  · have hs' : (p.sector + 1).toNat = p.sector.toNat + 1 := by
      rw [BitVec.toNat_add]
      omega
    simp only [hs']
    ring

/-- Moving on to the next block lowers the rank, so a transfer ends. -/
theorem rank_diskUnitSeekNextLba {p : DiskUnit} (h : (diskUnitSeekNextLba p).1 = true) :
    (diskUnitSeekNextLba p).2.rank < p.rank := by
  obtain ⟨hrange, hindex⟩ := diskUnitSeekNextLba_index h
  have hsame :=
    sameDrive_diskUnitSeek p (nextPosition p).1 (nextPosition p).2.1 (nextPosition p).2.2
  have hcapacity : (diskUnitSeekNextLba p).2.capacity = p.capacity := by
    unfold DiskUnit.capacity diskUnitSeekNextLba
    rw [hsame.ncylinders, hsame.nheads, hsame.nblocksPerTrack]
  have hlt := hrange.index_lt
  unfold DiskUnit.rank
  rw [if_pos hrange, hcapacity]
  by_cases hp : p.InRange
  · rw [if_pos hp, hindex hp]
    have := hindex hp
    omega
  · rw [if_neg hp]
    omega

end Usim
