import Usim.DiskEffects
import Usim.Lib.Runs

/-!
# The position of a disk unit

A unit keeps its position twice, as cylinder, head and sector and as the number
of a block. Seeks keep the two in step, and a turn of the platter does not.
-/

namespace Usim

open Lib

/-- A unit with a disk pack of a size that the program accepts. -/
structure Drive (p : DiskUnit) : Prop where
  /-- The blocks in a cylinder. -/
  nblocksPerCylinder : p.nblocksPerCylinder.toNat = p.nheads.toNat * p.nblocksPerTrack.toNat
  /-- The size of the image. -/
  mmsz : p.mmsz = p.capacity * 1024
  /-- The blocks have numbers of 32 bits. -/
  capacity_lt : p.capacity < 2 ^ 32
  /-- A track has more than one block. -/
  one_lt_nblocksPerTrack : 1 < p.nblocksPerTrack.toNat
  /-- A cylinder fits into its field of a disk address. -/
  ncylinders_le : p.ncylinders.toNat ≤ 2 ^ 12
  /-- A head fits into its field of a disk address. -/
  nheads_le : p.nheads.toNat ≤ 2 ^ 8
  /-- A block on a track fits into its field of a disk address. -/
  nblocksPerTrack_le : p.nblocksPerTrack.toNat ≤ 2 ^ 8

/-- The sizes of the drives that the program knows. -/
theorem diskUnitTypes_sizes : ∀ type ∈ diskUnitTypes,
    (type.nheads * type.nblocksPerTrack).toNat =
        type.nheads.toNat * type.nblocksPerTrack.toNat ∧
      type.ncylinders.toNat * type.nheads.toNat * type.nblocksPerTrack.toNat < 2 ^ 32 ∧
      1 < type.nblocksPerTrack.toNat ∧ 0 < type.ncylinders.toNat ∧ 0 < type.nheads.toNat ∧
      type.ncylinders.toNat ≤ 2 ^ 12 ∧ type.nheads.toNat ≤ 2 ^ 8 ∧
      type.nblocksPerTrack.toNat ≤ 2 ^ 8 := by
  decide

/-- The units that `disk_unit_init` brings online. -/
theorem drive_diskUnitInit {type : DiskUnitType} (htype : type ∈ diskUnitTypes) (unit : Word)
    (mm : Word → Page) : Drive (diskUnitInit unit type mm) := by
  obtain ⟨hcylinder, hcapacity, htrack, -, -, hfields⟩ := diskUnitTypes_sizes type htype
  refine ⟨hcylinder, ?_, hcapacity, htrack, hfields.1, hfields.2.1, hfields.2.2⟩
  simp only [diskUnitInit, DiskUnit.capacity, hcylinder]
  ring

/-- The size is the same in all states of a drive. -/
theorem SameDrive.drive {p p' : DiskUnit} (h : SameDrive p p') (hdrive : Drive p) : Drive p' := by
  have hcapacity : p'.capacity = p.capacity := by
    unfold DiskUnit.capacity
    rw [h.ncylinders, h.nheads, h.nblocksPerTrack]
  constructor
  · rw [h.nblocksPerCylinder, h.nheads, h.nblocksPerTrack]
    exact hdrive.nblocksPerCylinder
  · rw [h.mmsz, hcapacity]
    exact hdrive.mmsz
  · rw [hcapacity]
    exact hdrive.capacity_lt
  · rw [h.nblocksPerTrack]
    exact hdrive.one_lt_nblocksPerTrack
  · rw [h.ncylinders]
    exact hdrive.ncylinders_le
  · rw [h.nheads]
    exact hdrive.nheads_le
  · rw [h.nblocksPerTrack]
    exact hdrive.nblocksPerTrack_le

namespace DiskUnit

/-- The number of the block at a cylinder, head and sector. -/
def blockNumber (p : DiskUnit) (cylinder head sector : Word) : ℕ :=
  cylinder.toNat * p.nblocksPerCylinder.toNat + head.toNat * p.nblocksPerTrack.toNat +
    sector.toNat

/-- The place of a block in the image. -/
def blockAt (p : DiskUnit) (cylinder head sector : Word) : Word :=
  BitVec.ofNat 32 (p.blockNumber cylinder head sector)

/-- The two positions of a unit agree, and exist. -/
structure Positioned (p : DiskUnit) : Prop where
  /-- The position exists. -/
  inRange : p.InRange
  /-- The block number is that of the position. -/
  lba : p.lba.toNat = p.blockNumber p.cylinder p.head p.sector

end DiskUnit

/-- The block number counts along the tracks. -/
theorem Drive.blockNumber_eq_index {p : DiskUnit} (hdrive : Drive p) :
    p.blockNumber p.cylinder p.head p.sector = p.index := by
  rw [DiskUnit.blockNumber, DiskUnit.index, hdrive.nblocksPerCylinder]
  ring

/-- The positions agree at all states of the same place. -/
theorem SamePlace.positioned {p p' : DiskUnit} (h : SamePlace p p') (hp : p.Positioned) :
    p'.Positioned := by
  obtain ⟨⟨hcylinder, hhead, hsector⟩, hlba⟩ := hp
  refine ⟨⟨?_, ?_, ?_⟩, ?_⟩
  · rwa [h.cylinder, h.ncylinders]
  · rwa [h.head, h.nheads]
  · rwa [h.sector, h.nblocksPerTrack]
  · rw [h.lba, hlba, h.cylinder, h.head, h.sector]
    unfold DiskUnit.blockNumber
    rw [h.nblocksPerCylinder, h.nblocksPerTrack]

/-- A unit starts at the first block. -/
theorem positioned_diskUnitInit {type : DiskUnitType} (htype : type ∈ diskUnitTypes)
    (unit : Word) (mm : Word → Page) : (diskUnitInit unit type mm).Positioned := by
  obtain ⟨-, -, htrack, hcylinders, hheads, -⟩ := diskUnitTypes_sizes type htype
  refine ⟨⟨hcylinders, hheads, Nat.lt_of_succ_lt htrack⟩, ?_⟩
  simp [diskUnitInit, offlineUnit, DiskUnit.blockNumber]

/-- The block number of a position that exists is on the disk. -/
theorem Drive.blockNumber_lt {p : DiskUnit} (hdrive : Drive p) {cylinder head sector : Word}
    (hcylinder : cylinder.toNat < p.ncylinders.toNat) (hhead : head.toNat < p.nheads.toNat)
    (hsector : sector.toNat < p.nblocksPerTrack.toNat) :
    p.blockNumber cylinder head sector < p.capacity := by
  have hrange : DiskUnit.InRange { p with cylinder := cylinder, head := head, sector := sector } :=
    ⟨hcylinder, hhead, hsector⟩
  have hsame : SameDrive p { p with cylinder := cylinder, head := head, sector := sector } :=
    ⟨rfl, rfl, rfl, rfl, rfl, rfl, rfl, rfl, rfl⟩
  have hmoved := hsame.drive hdrive
  have hlt := hrange.index_lt
  rw [← hmoved.blockNumber_eq_index] at hlt
  exact hlt

/-- The block number of a position that exists is computed without overflow. -/
theorem Drive.toNat_lba {p : DiskUnit} (hdrive : Drive p) {cylinder head sector : Word}
    (hcylinder : cylinder.toNat < p.ncylinders.toNat) (hhead : head.toNat < p.nheads.toNat)
    (hsector : sector.toNat < p.nblocksPerTrack.toNat) :
    (cylinder * p.nblocksPerCylinder + head * p.nblocksPerTrack + sector).toNat =
      p.blockNumber cylinder head sector := by
  have hlt := (hdrive.blockNumber_lt hcylinder hhead hsector).trans hdrive.capacity_lt
  rw [BitVec.toNat_add, BitVec.toNat_add, BitVec.toNat_mul, BitVec.toNat_mul, Nat.mod_add_mod,
    Nat.add_assoc, Nat.mod_add_mod, Nat.add_left_comm, Nat.mod_add_mod, Nat.add_left_comm,
    ← Nat.add_assoc]
  exact Nat.mod_eq_of_lt hlt

/-- A seek that succeeds leads to a position that exists, and its block number. -/
theorem Drive.seek {p : DiskUnit} (hdrive : Drive p) (hp : p.Positioned)
    {cylinder head sector : Word} (h : (diskUnitSeek p cylinder head sector).1 = true) :
    (diskUnitSeek p cylinder head sector).2.Positioned ∧
      (diskUnitSeek p cylinder head sector).2.lba.toNat = p.blockNumber cylinder head sector ∧
      (diskUnitSeek p cylinder head sector).2.mm = p.mm := by
  by_cases hhere : cylinder = p.cylinder ∧ head = p.head ∧ sector = p.sector
  · have hseek : diskUnitSeek p cylinder head sector = (true, p) := if_pos hhere
    rw [hseek]
    obtain ⟨rfl, rfl, rfl⟩ := hhere
    exact ⟨hp, hp.lba, rfl⟩
  · obtain ⟨hcylinder, hhead, hsector⟩ := diskUnitSeek_true hhere h
    have hlba := hdrive.toNat_lba hcylinder hhead hsector
    rw [diskUnitSeek_of_inRange hhere hcylinder hhead hsector]
    exact ⟨⟨⟨hcylinder, hhead, hsector⟩, hlba⟩, hlba, rfl⟩

/-- A seek keeps the two positions in step. -/
theorem Drive.positioned_diskUnitSeek {p : DiskUnit} (hdrive : Drive p) (hp : p.Positioned)
    (cylinder head sector : Word) : (diskUnitSeek p cylinder head sector).2.Positioned := by
  cases h : (diskUnitSeek p cylinder head sector).1 with
  | true => exact (hdrive.seek hp h).1
  | false =>
    have hfailed : (diskUnitSeek p cylinder head sector).2 = { p with seekError := true } := by
      unfold diskUnitSeek at h ⊢
      split_ifs at h ⊢ <;> rfl
    rw [hfailed]
    exact ⟨⟨hp.inRange.cylinder, hp.inRange.head, hp.inRange.sector⟩, hp.lba⟩

/-- A transfer keeps the two positions in step. -/
theorem positioned_performXferLoop (read compare : Bool) (clp : Word) (clpOffset : HalfWord)
    (x : Xfer) (hdrive : Drive x.p) (hp : x.p.Positioned) :
    (performXferLoop read compare clp clpOffset x).2.p.Positioned := by
  fun_induction performXferLoop read compare clp clpOffset x with
  | case1 clpOffset x r hr => exact (blockFrame_xferCcw _ _ _ _).place.positioned hp
  | case2 clpOffset x r ccw hr hlast => exact (blockFrame_xferCcw _ _ _ _).place.positioned hp
  | case3 clpOffset x r ccw hr hlast hseek ih =>
    have hframe := blockFrame_xferCcw read compare (clp + clpOffset.setWidth 32) x
    have hdrive' : Drive r.2.p := hframe.place.toSameDrive.drive hdrive
    have hp' : r.2.p.Positioned := hframe.place.positioned hp
    exact ih ((sameDrive_diskUnitSeek _ _ _ _).drive hdrive')
      (hdrive'.positioned_diskUnitSeek hp' _ _ _)
  | case4 clpOffset x r ccw hr hlast hseek =>
    have hframe := blockFrame_xferCcw read compare (clp + clpOffset.setWidth 32) x
    exact (hframe.place.toSameDrive.drive hdrive).positioned_diskUnitSeek
      (hframe.place.positioned hp) _ _ _

/-- What moves a unit. -/
inductive DiskUnitEvent where
  /-- `disk_unit_seek`. -/
  | seek (cylinder head sector : Word)
  /-- `disk_unit_seek_next_lba`. -/
  | seekNextLba
  /-- `perform_xfer`, with such a status and memory. -/
  | transfer (read compare : Bool) (clp : Word) (status : DiskStatus) (memory : MainMemory)
  /-- `disk_unit_rotate`. -/
  | rotate

/-- One event. -/
def diskUnitStep : DiskUnitEvent → DiskUnit → Except ErrCall DiskUnit
  | .seek cylinder head sector, p => .ok (diskUnitSeek p cylinder head sector).2
  | .seekNextLba, p => .ok (diskUnitSeekNextLba p).2
  | .transfer read compare clp status memory, p =>
    .ok (performXfer read compare clp ⟨p, status, memory⟩).2.p
  | .rotate, p => .ok (diskUnitRotate p)

/-- The positions of a unit agree, its block is in the image, and what is read or
written after a successful seek is the block sought. -/
structure PositionLaw (p : DiskUnit) : Prop extends p.Positioned where
  /-- The block is in the image. -/
  within : p.lba.toNat * 1024 + 1024 ≤ p.mmsz
  /-- A block is read. -/
  read : ∀ cylinder head sector : Word, (diskUnitSeek p cylinder head sector).1 = true →
    diskUnitRead (diskUnitSeek p cylinder head sector).2 =
      some (p.mm (p.blockAt cylinder head sector))
  /-- A block is written. -/
  write : ∀ (cylinder head sector : Word) (buffer : Page),
    (diskUnitSeek p cylinder head sector).1 = true →
    (diskUnitWrite (diskUnitSeek p cylinder head sector).2 buffer).map DiskUnit.mm =
      some (Function.update p.mm (p.blockAt cylinder head sector) buffer)

/-- A unit whose positions agree reads and writes what was sought. -/
theorem Drive.positionLaw {p : DiskUnit} (hdrive : Drive p) (hp : p.Positioned) :
    PositionLaw p := by
  have hwithin {q : DiskUnit} (hsame : SameDrive p q) (hq : q.Positioned) :
      q.lba.toNat * 1024 + 1024 ≤ q.mmsz := by
    have hdrive' := hsame.drive hdrive
    have hlt := hdrive'.blockNumber_lt hq.inRange.cylinder hq.inRange.head hq.inRange.sector
    rw [← hq.lba] at hlt
    rw [hdrive'.mmsz]
    omega
  have hsought {cylinder head sector : Word}
      (h : (diskUnitSeek p cylinder head sector).1 = true) :
      ¬(diskUnitSeek p cylinder head sector).2.mmsz ≤
          (diskUnitSeek p cylinder head sector).2.lba.toNat * 1024 ∧
        (diskUnitSeek p cylinder head sector).2.lba = p.blockAt cylinder head sector ∧
        (diskUnitSeek p cylinder head sector).2.mm = p.mm := by
    obtain ⟨hq, hlba, hmm⟩ := hdrive.seek hp h
    have hbound := hwithin (sameDrive_diskUnitSeek p cylinder head sector) hq
    refine ⟨by omega, ?_, hmm⟩
    rw [DiskUnit.blockAt, ← hlba, BitVec.ofNat_toNat, BitVec.setWidth_eq]
  refine ⟨hp, hwithin (.refl p) hp, ?_, ?_⟩
  · intro cylinder head sector h
    obtain ⟨hbound, hlba, hmm⟩ := hsought h
    rw [diskUnitRead, if_neg hbound, hlba, hmm]
  · intro cylinder head sector buffer h
    obtain ⟨hbound, hlba, hmm⟩ := hsought h
    rw [diskUnitWrite, if_neg hbound, hlba, hmm]
    rfl

/-- A turn of the platter leaves the block number behind. -/
theorem not_positioned_diskUnitRotate {p : DiskUnit} (hdrive : Drive p) (hp : p.Positioned) :
    ¬(diskUnitRotate p).Positioned := by
  intro hrotated
  have htrack := hdrive.one_lt_nblocksPerTrack
  have hsector := hp.inRange.sector
  have hsame : (diskUnitRotate p).sector.toNat = p.sector.toNat := by
    have hlba := hrotated.lba
    have hbefore := hp.lba
    unfold DiskUnit.blockNumber at hlba hbefore
    simp only [diskUnitRotate] at hlba ⊢
    omega
  have hbound := p.nblocksPerTrack.isLt
  have hnext : (p.sector + 1).toNat = p.sector.toNat + 1 := by
    rw [BitVec.toNat_add]
    have hone : (1 : Word).toNat = 1 := rfl
    omega
  simp only [diskUnitRotate, BitVec.le_def, hnext] at hsame
  split at hsame
  · have hzero : (0 : Word).toNat = 0 := rfl
    omega
  · omega

/-- A state of a drive whose positions agree. -/
def OnPosition (p : DiskUnit) : Prop := Drive p ∧ p.Positioned

/-- An event other than a turn of the platter keeps the positions in step. -/
theorem onPosition_step {e : DiskUnitEvent} {p p' : DiskUnit} (h : OnPosition p)
    (he : diskUnitStep e p = .ok p') (hmove : e ≠ .rotate) : OnPosition p' := by
  obtain ⟨hdrive, hp⟩ := h
  cases e with
  | seek cylinder head sector =>
    cases he
    exact ⟨(sameDrive_diskUnitSeek _ _ _ _).drive hdrive, hdrive.positioned_diskUnitSeek hp _ _ _⟩
  | seekNextLba =>
    cases he
    exact ⟨(sameDrive_diskUnitSeek _ _ _ _).drive hdrive, hdrive.positioned_diskUnitSeek hp _ _ _⟩
  | transfer read compare clp status memory =>
    cases he
    exact ⟨(performXferLoop_frame _ _ _ _ _).1.drive hdrive,
      positioned_performXferLoop _ _ _ _ _ hdrive hp⟩
  | rotate => exact absurd rfl hmove

/-- A run without a turn of the platter is one whose steps all are something else. -/
theorem everyStep_ne_rotate (events : List DiskUnitEvent) (p : DiskUnit) :
    EveryStep diskUnitStep (fun e _ => e ≠ .rotate) events p ↔ .rotate ∉ events := by
  induction events generalizing p with
  | nil => exact iff_of_true trivial List.not_mem_nil
  | cons e events ih =>
    obtain ⟨p', he⟩ : ∃ p', diskUnitStep e p = .ok p' := by
      cases e <;> exact ⟨_, rfl⟩
    rw [List.mem_cons, not_or, ← ih p', @eq_comm _ DiskUnitEvent.rotate e]
    constructor
    · intro h
      exact h p' he
    · intro h p'' he'
      cases he.symm.trans he'
      exact h

/-- In every state of a run from `disk_unit_init` the two positions of the unit agree,
the block is in the image, and a successful seek is followed by the block sought,
exactly if the platter never turns in the run. -/
theorem disk_position (unit : Word) (type : DiskUnitType) (mm : Word → Page)
    (htype : type ∈ diskUnitTypes) (events : List DiskUnitEvent) :
    Always diskUnitStep PositionLaw events (diskUnitInit unit type mm) ↔ .rotate ∉ events := by
  have hdrive := drive_diskUnitInit htype unit mm
  have hstart := positioned_diskUnitInit htype unit mm
  rw [← everyStep_ne_rotate events (diskUnitInit unit type mm)]
  refine always_iff_everyStep (fun p h => h.1.positionLaw h.2)
    (fun e p p' h he hmove => onPosition_step h he hmove) ?_ ⟨hdrive, hstart⟩
  rintro e p p' h he hlaw rfl
  cases he
  exact not_positioned_diskUnitRotate h.1 h.2 hlaw.toPositioned

/-- The positions agree after a seek and a move to the next block. -/
theorem disk_position_after_seek :
    Always diskUnitStep PositionLaw [.seek 1 2 3, .seekNextLba]
      (diskUnitInit 0 ⟨"Trident T-80", "T-80", 815, 5, 17⟩ fun _ _ => 0) :=
  (disk_position 0 _ _ (by decide) _).mpr (by simp)

/-- After a turn of the platter the unit is at sector 1, and a seek there reads
block 0. -/
theorem disk_position_lost_by_rotation :
    ¬∀ events : List DiskUnitEvent, Always diskUnitStep PositionLaw events
      (diskUnitInit 0 ⟨"Trident T-80", "T-80", 815, 5, 17⟩ fun block _ => block) := by
  intro h
  have hrotated := (h [.rotate]).2 _ rfl
  have hread := hrotated.read 0 0 1 rfl
  exact absurd (congrFun (Option.some.inj hread) 0) (by decide)

end Usim
