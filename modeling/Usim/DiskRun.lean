import Usim.DiskTransfer

/-!
# The turns of a disk transfer

The loop of `perform_xfer`, turn by turn: the address that each command word is fetched
from, what the turn works on, and what the loop is left for. How many turns there are,
and what they move, whatever the command list is.
-/

namespace Usim

open Lib

/-! ### Turns -/

/-- A turn of the loop of `perform_xfer`, before its command word is fetched. -/
structure XferTurn where
  /-- `current_clp`. -/
  currentClp : Word
  /-- What the transfer works on. -/
  x : Xfer

/-- What the loop of `perform_xfer` is left for. -/
inductive XferExit
  /-- A command word or a block was not moved. -/
  | failed
  /-- The command word was the last one. -/
  | lastCcw
  /-- There is no next block. -/
  | endOfDisk
  deriving DecidableEq, Repr

/-- The turns of `performXferLoop`, and what it is left for. -/
def xferRun (read compare : Bool) (clp : Word) (clpOffset : HalfWord) (x : Xfer) :
    List XferTurn × XferExit :=
  let turn : XferTurn := ⟨clp + clpOffset.setWidth 32, x⟩
  let r := xferCcw read compare (clp + clpOffset.setWidth 32) x
  match r.1 with
  | none => ([turn], .failed)
  | some ccw =>
    if ccw &&& 1 = 0 then ([turn], .lastCcw)
    else if h : (diskUnitSeekNextLba r.2.p).1 = true then
      let rest := xferRun read compare clp (clpOffset + 1)
        { r.2 with p := (diskUnitSeekNextLba r.2.p).2 }
      (turn :: rest.1, rest.2)
    else ([turn], .endOfDisk)
termination_by x.p.rank
decreasing_by
  exact Nat.lt_of_lt_of_eq (rank_diskUnitSeekNextLba h) (blockFrame_xferCcw _ _ _ _).place.rank

/-- The state in which the loop of `perform_xfer` is entered. -/
def Xfer.cleared (x : Xfer) : Xfer :=
  { x with status := { x.status with
    readCompareDifference := false
    ccwCycle := false
    nonexistentMemoryError := false } }

/-- The turns of `performXfer`. -/
def performXferRun (read compare : Bool) (clp : Word) (x : Xfer) : List XferTurn × XferExit :=
  xferRun read compare clp 0 x.cleared

variable {read compare : Bool} {clp : Word} {clpOffset : HalfWord} {x : Xfer}

/-- The cases of a turn: the loop is left, or goes on with the next block. -/
inductive TurnCases (read compare : Bool) (clp : Word) (clpOffset : HalfWord) (x : Xfer) : Prop
  /-- The turn failed. -/
  | failed (x' : Xfer)
    (ccw : xferCcw read compare (clp + clpOffset.setWidth 32) x = (none, x'))
    (run : xferRun read compare clp clpOffset x =
      ([⟨clp + clpOffset.setWidth 32, x⟩], .failed))
    (result : performXferLoop read compare clp clpOffset x = (false, x'))
  /-- The turn was the last one. -/
  | lastCcw (ccw : Word) (x' : Xfer)
    (moved : xferCcw read compare (clp + clpOffset.setWidth 32) x = (some ccw, x'))
    (last : ccw &&& 1 = 0)
    (run : xferRun read compare clp clpOffset x =
      ([⟨clp + clpOffset.setWidth 32, x⟩], .lastCcw))
    (result : performXferLoop read compare clp clpOffset x = (true, x'))
  /-- There is no next block. -/
  | endOfDisk (ccw : Word) (x' : Xfer)
    (moved : xferCcw read compare (clp + clpOffset.setWidth 32) x = (some ccw, x'))
    (more : ¬ccw &&& 1 = 0) (seek : ¬(diskUnitSeekNextLba x'.p).1 = true)
    (run : xferRun read compare clp clpOffset x =
      ([⟨clp + clpOffset.setWidth 32, x⟩], .endOfDisk))
    (result : performXferLoop read compare clp clpOffset x =
      (false, { x' with p := (diskUnitSeekNextLba x'.p).2 }))
  /-- The loop goes on. -/
  | next (ccw : Word) (x' : Xfer)
    (moved : xferCcw read compare (clp + clpOffset.setWidth 32) x = (some ccw, x'))
    (more : ¬ccw &&& 1 = 0) (seek : (diskUnitSeekNextLba x'.p).1 = true)
    (run : xferRun read compare clp clpOffset x =
      (⟨clp + clpOffset.setWidth 32, x⟩ ::
        (xferRun read compare clp (clpOffset + 1)
          { x' with p := (diskUnitSeekNextLba x'.p).2 }).1,
        (xferRun read compare clp (clpOffset + 1)
          { x' with p := (diskUnitSeekNextLba x'.p).2 }).2))
    (result : performXferLoop read compare clp clpOffset x =
      performXferLoop read compare clp (clpOffset + 1)
        { x' with p := (diskUnitSeekNextLba x'.p).2 })

/-- What a turn can do. -/
theorem turnCases (read compare : Bool) (clp : Word) (clpOffset : HalfWord) (x : Xfer) :
    TurnCases read compare clp clpOffset x := by
  cases hccw : xferCcw read compare (clp + clpOffset.setWidth 32) x with
  | mk moved x' =>
    cases moved with
    | none =>
      refine .failed x' hccw ?_ ?_
      · rw [xferRun]
        simp only [hccw]
      · rw [performXferLoop]
        simp only [hccw]
    | some ccw =>
      by_cases hlast : ccw &&& 1 = 0
      · refine .lastCcw ccw x' hccw hlast ?_ ?_
        · rw [xferRun]
          simp only [hccw, if_pos hlast]
        · rw [performXferLoop]
          simp only [hccw, if_pos hlast]
      · by_cases hseek : (diskUnitSeekNextLba x'.p).1 = true
        · refine .next ccw x' hccw hlast hseek ?_ ?_
          · rw [xferRun]
            simp only [hccw, if_neg hlast, dif_pos hseek]
          · rw [performXferLoop]
            simp only [hccw, if_neg hlast, dif_pos hseek]
        · refine .endOfDisk ccw x' hccw hlast hseek ?_ ?_
          · rw [xferRun]
            simp only [hccw, if_neg hlast, dif_neg hseek]
          · rw [performXferLoop]
            simp only [hccw, if_neg hlast, dif_neg hseek]

/-- What holds of the loop from a state if it does from the next one holds of it from all
states. -/
theorem xfer_induction (read compare : Bool) (clp : Word) {motive : HalfWord → Xfer → Prop}
    (step : ∀ clpOffset x, (∀ ccw x', xferCcw read compare (clp + clpOffset.setWidth 32) x =
      (some ccw, x') → (diskUnitSeekNextLba x'.p).1 = true →
        motive (clpOffset + 1) { x' with p := (diskUnitSeekNextLba x'.p).2 }) →
      motive clpOffset x) (clpOffset : HalfWord) (x : Xfer) : motive clpOffset x := by
  generalize hrank : x.p.rank = rank
  induction rank using Nat.strongRecOn generalizing clpOffset x with
  | ind rank ih =>
    refine step clpOffset x fun ccw x' hccw hseek => ?_
    have hframe := blockFrame_xferCcw read compare (clp + clpOffset.setWidth 32) x
    rw [hccw] at hframe
    have hlt := rank_diskUnitSeekNextLba hseek
    rw [hframe.place.rank, hrank] at hlt
    exact ih _ hlt _ _ rfl

/-! ### The addresses of the command words -/

/-- The address in a turn of the loop. -/
theorem currentClp_of_xferRun {k : ℕ} {t : XferTurn}
    (ht : (xferRun read compare clp clpOffset x).1[k]? = some t) :
    t.currentClp = clp + (clpOffset + BitVec.ofNat 16 k).setWidth 32 := by
  induction clpOffset, x using xfer_induction read compare clp generalizing k with
  | step clpOffset x ih =>
    have hhead (x : Xfer) (n : ℕ)
        (hn : [(⟨clp + clpOffset.setWidth 32, x⟩ : XferTurn)][n]? = some t) :
        t.currentClp = clp + (clpOffset + BitVec.ofNat 16 n).setWidth 32 := by
      cases n with
      | zero =>
        cases hn
        rw [BitVec.add_zero]
      | succ n => cases hn
    cases turnCases read compare clp clpOffset x with
    | failed x' hccw hrun =>
      rw [hrun] at ht
      exact hhead x k ht
    | lastCcw ccw x' hccw hlast hrun =>
      rw [hrun] at ht
      exact hhead x k ht
    | endOfDisk ccw x' hccw hmore hseek hrun =>
      rw [hrun] at ht
      exact hhead x k ht
    | next ccw x' hccw hmore hseek hrun =>
      rw [hrun] at ht
      cases k with
      | zero =>
        cases ht
        rw [BitVec.add_zero]
      | succ k =>
        rw [ih ccw x' hccw hseek ht, BitVec.add_assoc, BitVec.add_comm 1, BitVec.ofNat_add k 1]
        rfl

/-- The (k+1)-th command word of a transfer comes from the address whose bits 15-0 count on
from those of the command list pointer and whose bits 21-16 are its own, if and only if the
count does not carry. -/
theorem command_list_address (read compare : Bool) (clp : Word) (hclp : clp.toNat < 2 ^ 22)
    (x : Xfer) (k : ℕ) (t : XferTurn) (ht : (performXferRun read compare clp x).1[k]? = some t) :
    t.currentClp.toNat % 2 ^ 22 = clp.toNat / 2 ^ 16 * 2 ^ 16 + (clp.toNat + k) % 2 ^ 16 ↔
      clp.toNat % 2 ^ 16 + k % 2 ^ 16 < 2 ^ 16 := by
  have haddress := currentClp_of_xferRun ht
  have hoffset : ((0 : HalfWord) + BitVec.ofNat 16 k).toNat = k % 2 ^ 16 := by
    rw [BitVec.toNat_add, BitVec.toNat_ofNat, show BitVec.toNat (0 : HalfWord) = 0 from rfl,
      Nat.zero_add, Nat.mod_mod]
  have hcurrent : t.currentClp.toNat = clp.toNat + k % 2 ^ 16 := by
    rw [haddress, BitVec.toNat_add, BitVec.toNat_setWidth, hoffset]
    omega
  rw [hcurrent]
  omega

/-- A memory of ones, so that no command word is the last one. -/
def endlessMemory : MainMemory := ⟨512, fun _ _ => 1⟩

/-- A transfer that starts on a drive, with a memory of ones. -/
def endlessXfer (p : DiskUnit) : Xfer := ⟨p, ⟨false, false, false, false, true⟩, endlessMemory⟩

/-- The first turn of a transfer. -/
theorem head?_xferRun (read compare : Bool) (clp : Word) (clpOffset : HalfWord) (x : Xfer) :
    (xferRun read compare clp clpOffset x).1[0]? = some ⟨clp + clpOffset.setWidth 32, x⟩ := by
  cases turnCases read compare clp clpOffset x with
  | failed x' hccw hrun => rw [hrun]; rfl
  | lastCcw ccw x' hccw hlast hrun => rw [hrun]; rfl
  | endOfDisk ccw x' hccw hmore hseek hrun => rw [hrun]; rfl
  | next ccw x' hccw hmore hseek hrun => rw [hrun]; rfl

/-- The first command word of a list comes from the command list pointer. -/
theorem command_list_address_first : (0x1FFFF : Word).toNat % 2 ^ 22 =
    (0x1FFFF : Word).toNat / 2 ^ 16 * 2 ^ 16 + ((0x1FFFF : Word).toNat + 0) % 2 ^ 16 :=
  (command_list_address true false 0x1FFFF (by decide) (endlessXfer (offlineUnit 0)) 0
    ⟨0x1FFFF, (endlessXfer (offlineUnit 0)).cleared⟩ (head?_xferRun _ _ _ _ _)).mpr (by decide)

/-- After the command word at 0177777 comes that at 0200000, not the one at 0. -/
theorem not_command_list_address : ∃ t,
    (performXferRun true false 0xFFFF (endlessXfer emptyDrive)).1[1]? = some t ∧
      ¬t.currentClp.toNat % 2 ^ 22 =
        (0xFFFF : Word).toNat / 2 ^ 16 * 2 ^ 16 + ((0xFFFF : Word).toNat + 1) % 2 ^ 16 := by
  have hmoved : (xferCcw true false (0xFFFF + (0 : HalfWord).setWidth 32)
      (endlessXfer emptyDrive).cleared).1 = some 1 := by
    decide
  have hseek : (diskUnitSeekNextLba (xferCcw true false (0xFFFF + (0 : HalfWord).setWidth 32)
      (endlessXfer emptyDrive).cleared).2.p).1 = true := by
    decide
  unfold performXferRun
  cases turnCases true false 0xFFFF 0 (endlessXfer emptyDrive).cleared with
  | failed x' hccw => rw [hccw] at hmoved; cases hmoved
  | lastCcw ccw x' hccw hlast =>
    rw [hccw] at hmoved
    cases hmoved
    exact absurd hlast (by decide)
  | endOfDisk ccw x' hccw hmore hlast => rw [hccw] at hseek; exact absurd hseek hlast
  | next ccw x' hccw hmore hnext hrun =>
    have haddress : ¬(0xFFFF + ((0 : HalfWord) + 1).setWidth 32 : Word).toNat % 2 ^ 22 =
        (0xFFFF : Word).toNat / 2 ^ 16 * 2 ^ 16 + ((0xFFFF : Word).toNat + 1) % 2 ^ 16 := by
      decide
    rw [hrun]
    exact ⟨_, head?_xferRun _ _ _ _ _, haddress⟩

/-! ### The number of turns -/

/-- The number of blocks is that of the drive. -/
theorem SameDrive.capacity {p p' : DiskUnit} (h : SameDrive p p') : p'.capacity = p.capacity := by
  rw [DiskUnit.capacity, DiskUnit.capacity, h.ncylinders, h.nheads, h.nblocksPerTrack]

/-- The position is that of the place. -/
theorem SamePlace.inRange_index {p p' : DiskUnit} (h : SamePlace p p') (hp : p.InRange) :
    p'.InRange ∧ p'.index = p.index := by
  refine ⟨⟨?_, ?_, ?_⟩, ?_⟩
  · rw [h.cylinder, h.ncylinders]
    exact hp.cylinder
  · rw [h.head, h.nheads]
    exact hp.head
  · rw [h.sector, h.nblocksPerTrack]
    exact hp.sector
  · rw [DiskUnit.index, DiskUnit.index, h.cylinder, h.nheads, h.head, h.nblocksPerTrack, h.sector]

/-- The drive after a turn, moved on to the next block. -/
theorem inRange_next {ccw : Word} {x' : Xfer} (hrange : x.p.InRange)
    (hccw : xferCcw read compare (clp + clpOffset.setWidth 32) x = (some ccw, x'))
    (hseek : (diskUnitSeekNextLba x'.p).1 = true) :
    (diskUnitSeekNextLba x'.p).2.InRange ∧
      (diskUnitSeekNextLba x'.p).2.index = x.p.index + 1 ∧
      (diskUnitSeekNextLba x'.p).2.capacity = x.p.capacity := by
  have hframe := blockFrame_xferCcw read compare (clp + clpOffset.setWidth 32) x
  rw [hccw] at hframe
  obtain ⟨hrange', hindex'⟩ := hframe.place.inRange_index hrange
  obtain ⟨hnext, hindex⟩ := diskUnitSeekNextLba_index hseek
  refine ⟨hnext, (hindex hrange').trans (congrArg (· + 1) hindex'), ?_⟩
  exact (hframe.place.toSameDrive.trans (sameDrive_diskUnitSeek _ _ _ _)).capacity

/-- A transfer has at most one turn for each block from its first one on, and just these
when it runs off the disk. -/
theorem length_xferRun (read compare : Bool) (clp : Word) (clpOffset : HalfWord) (x : Xfer)
    (hrange : x.p.InRange) :
    (xferRun read compare clp clpOffset x).1.length ≤ x.p.capacity - x.p.index ∧
      ((xferRun read compare clp clpOffset x).2 = .endOfDisk →
        (xferRun read compare clp clpOffset x).1.length = x.p.capacity - x.p.index) := by
  induction clpOffset, x using xfer_induction read compare clp with
  | step clpOffset x ih =>
    have hlt := hrange.index_lt
    cases turnCases read compare clp clpOffset x with
    | failed x' hccw hrun =>
      rw [hrun]
      exact ⟨Nat.sub_pos_of_lt hlt, fun h => nomatch h⟩
    | lastCcw ccw x' hccw hlast hrun =>
      rw [hrun]
      exact ⟨Nat.sub_pos_of_lt hlt, fun h => nomatch h⟩
    | endOfDisk ccw x' hccw hmore hseek hrun =>
      rw [hrun]
      have hframe := blockFrame_xferCcw read compare (clp + clpOffset.setWidth 32) x
      rw [hccw] at hframe
      obtain ⟨hrange', hindex⟩ := hframe.place.inRange_index hrange
      have hlast : ¬x'.p.index + 1 < x'.p.capacity := by
        intro hlt'
        rw [diskUnitSeekNextLba_of_lt hrange' hlt'] at hseek
        exact hseek rfl
      rw [hindex, hframe.place.toSameDrive.capacity] at hlast
      refine ⟨Nat.sub_pos_of_lt hlt, fun _ => ?_⟩
      rw [List.length_singleton]
      omega
    | next ccw x' hccw hmore hseek hrun =>
      obtain ⟨hrange', hindex, hcapacity⟩ := inRange_next hrange hccw hseek
      obtain ⟨hle, heq⟩ := ih ccw x' hccw hseek hrange'
      rw [hindex, hcapacity] at hle heq
      rw [hrun, List.length_cons]
      refine ⟨by omega, fun hexit => ?_⟩
      rw [heq hexit]
      omega

/-! ### What is moved -/

namespace XferTurn

/-- The command word of a turn. -/
def ccw (t : XferTurn) : Word := (mainMemoryRead t.x.memory t.currentClp).2

/-- The page of a turn. -/
def target (t : XferTurn) : Fin 16384 := targetPage t.ccw

end XferTurn

/-- The blocks of the disk and the pages of the memory after a turn that moves a block. -/
structure TurnMoves (read compare : Bool) (t : XferTurn) (x' : Xfer) : Prop where
  blocks : x'.p.mm = if read then t.x.p.mm
    else Function.update t.x.p.mm t.x.p.lba (t.x.memory.pages t.target)
  pages : x'.memory.pages = if read && !compare then
    Function.update t.x.memory.pages t.target (t.x.p.mm t.x.p.lba) else t.x.memory.pages

/-- A block that is moved between the disk and a page. -/
theorem xferBlock_moves {paddr : Word} {x' : Xfer}
    (h : xferBlock read compare paddr x = (true, x')) :
    x'.p.mm = (if read then x.p.mm
        else Function.update x.p.mm x.p.lba (x.memory.pages (pageOf paddr))) ∧
      x'.memory.pages = if read && !compare then
        Function.update x.memory.pages (pageOf paddr) (x.p.mm x.p.lba) else x.memory.pages := by
  cases read with
  | true =>
    simp only [xferBlock, if_true] at h
    split at h
    case h_2 => cases h
    case h_1 buffer hbuffer =>
      have hblock : buffer = x.p.mm x.p.lba := by
        unfold diskUnitRead at hbuffer
        split at hbuffer
        · cases hbuffer
        · exact (Option.some.inj hbuffer).symm
      cases compare with
      | true =>
        simp only [compareBlock, if_true] at h
        split at h
        · split at h <;> · cases h; exact ⟨rfl, rfl⟩
        · cases h
      | false =>
        simp only [readBlock, Bool.false_eq_true, if_false] at h
        split at h
        · rename_i memory hmemory
          cases h
          refine ⟨rfl, ?_⟩
          unfold mainMemoryWritePage at hmemory
          split at hmemory
          · cases hmemory
            rw [hblock]
            rfl
          · cases hmemory
        · cases h
  | false =>
    simp only [xferBlock, writeBlock, Bool.false_eq_true, if_false] at h
    split at h
    case h_2 => cases h
    case h_1 buffer hbuffer =>
      have hpage : buffer = x.memory.pages (pageOf paddr) := by
        unfold mainMemoryReadPage at hbuffer
        split at hbuffer
        · exact (Option.some.inj hbuffer).symm
        · cases hbuffer
      split at h
      · rename_i p hp
        cases h
        unfold diskUnitWrite at hp
        split at hp
        · cases hp
        · cases hp
          rw [hpage]
          exact ⟨rfl, rfl⟩
      · cases h

/-- What a turn leaves that moves its block. -/
theorem turnMoves_of_xferCcw {t : XferTurn} {ccw : Word} {x' : Xfer}
    (h : xferCcw read compare t.currentClp t.x = (some ccw, x')) : TurnMoves read compare t x' := by
  unfold xferCcw at h
  simp only at h
  split at h
  · cases h
  · obtain ⟨hccw, hx'⟩ := Prod.mk.inj h
    split at hccw
    · rename_i hmoved
      cases hx'
      have hmoves := xferBlock_moves (Prod.ext hmoved rfl)
      exact ⟨hmoves.1, hmoves.2⟩
    · cases hccw

/-- What the turns of a transfer have moved is kept: a block that was written is on the disk, and
a page that was stored is in memory, unless a later turn stored another block there. -/
structure Kept (read compare : Bool) (x x' : Xfer) (run : List XferTurn) : Prop where
  written : read = false → ∀ t ∈ run, x'.p.mm t.x.p.lba = x.memory.pages t.target
  stored : read = true → compare = false → ∀ (i : ℕ) (t : XferTurn), run[i]? = some t →
    (∀ (j : ℕ) (t' : XferTurn), i < j → run[j]? = some t' → t'.target ≠ t.target) →
    x'.memory.pages t.target = x.p.mm t.x.p.lba
  otherBlocks : ∀ lba, read = true ∨ (∀ t ∈ run, t.x.p.lba ≠ lba) → x'.p.mm lba = x.p.mm lba
  otherPages : ∀ page, read = false ∨ compare = true ∨ (∀ t ∈ run, t.target ≠ page) →
    x'.memory.pages page = x.memory.pages page

/-- Nothing is moved in no turns. -/
theorem Kept.nil {x' : Xfer} (hmm : x'.p.mm = x.p.mm) (hpages : x'.memory.pages = x.memory.pages) :
    Kept read compare x x' [] where
  written := fun _ _ ht => absurd ht List.not_mem_nil
  stored := fun _ _ _ _ ht => nomatch ht
  otherBlocks := fun lba _ => congrFun hmm lba
  otherPages := fun page _ => congrFun hpages page

/-- A turn before the other ones. -/
theorem Kept.cons {t : XferTurn} {y x' x'' : Xfer} {run : List XferTurn}
    (h : Kept read compare x' x'' run) (hmoves : TurnMoves read compare t y)
    (hmm : x'.p.mm = y.p.mm) (hmemory : x'.memory = y.memory)
    (hapart : ∀ t' ∈ run, t'.x.p.lba ≠ t.x.p.lba) : Kept read compare t.x x'' (t :: run) := by
  have hblocks := hmm.trans hmoves.blocks
  have hpages := (congrArg MainMemory.pages hmemory).trans hmoves.pages
  constructor
  · rintro rfl t' ht'
    rcases List.mem_cons.mp ht' with rfl | ht'
    · rw [h.otherBlocks _ (Or.inr hapart), hblocks, if_neg Bool.false_ne_true,
        Function.update_self]
    · rw [h.written rfl t' ht', hpages]
      rfl
  · rintro rfl rfl i t' ht' hlater
    cases i with
    | zero =>
      cases ht'
      have hrest : ∀ t' ∈ run, t'.target ≠ t.target := by
        intro t' ht'
        obtain ⟨j, hj, rfl⟩ := List.mem_iff_getElem.mp ht'
        exact hlater (j + 1) _ (Nat.succ_pos j) (List.getElem?_eq_getElem hj)
      rw [h.otherPages _ (Or.inr (Or.inr hrest)), hpages, if_pos (by rfl), Function.update_self]
    | succ i =>
      rw [h.stored rfl rfl i t' ht' fun j t'' hj ht'' =>
        hlater (j + 1) t'' (Nat.succ_lt_succ hj) ht'', hblocks, if_pos rfl]
  · intro lba hlba
    have hrest : read = true ∨ ∀ t' ∈ run, t'.x.p.lba ≠ lba :=
      hlba.imp_right fun h t' ht' => h t' (List.mem_cons_of_mem t ht')
    rw [h.otherBlocks lba hrest, hblocks]
    split
    · rfl
    · rename_i hread
      rcases hlba with hlba | hlba
      · exact absurd hlba hread
      · exact Function.update_of_ne (hlba t List.mem_cons_self).symm _ _
  · intro page hpage
    have hrest : read = false ∨ compare = true ∨ ∀ t' ∈ run, t'.target ≠ page :=
      hpage.imp_right (Or.imp_right fun h t' ht' => h t' (List.mem_cons_of_mem t ht'))
    rw [h.otherPages page hrest, hpages]
    split
    · rename_i hread
      rw [Bool.and_eq_true, Bool.not_eq_true'] at hread
      rcases hpage with hpage | hpage | hpage
      · exact absurd (hpage.symm.trans hread.1) Bool.false_ne_true
      · exact absurd (hread.2.symm.trans hpage) Bool.false_ne_true
      · exact Function.update_of_ne (hpage t List.mem_cons_self).symm _ _
    · rfl

/-- The next block of a drive whose positions agree. -/
theorem onPosition_next {ccw : Word} {x' : Xfer} (hx : OnPosition x.p)
    (hccw : xferCcw read compare (clp + clpOffset.setWidth 32) x = (some ccw, x'))
    (hseek : (diskUnitSeekNextLba x'.p).1 = true) :
    OnPosition (diskUnitSeekNextLba x'.p).2 ∧
      (diskUnitSeekNextLba x'.p).2.lba.toNat = x.p.lba.toNat + 1 := by
  obtain ⟨hdrive, hp⟩ := hx
  have hframe := blockFrame_xferCcw read compare (clp + clpOffset.setWidth 32) x
  rw [hccw] at hframe
  have hdrive' : Drive x'.p := hframe.place.toSameDrive.drive hdrive
  have hp' : x'.p.Positioned := hframe.place.positioned hp
  have hpnext : (diskUnitSeekNextLba x'.p).2.Positioned := (hdrive'.seek hp' hseek).1
  have hdrivenext : Drive (diskUnitSeekNextLba x'.p).2 :=
    (sameDrive_diskUnitSeek _ _ _ _).drive hdrive'
  obtain ⟨-, hindex, -⟩ := inRange_next hp.inRange hccw hseek
  refine ⟨⟨hdrivenext, hpnext⟩, ?_⟩
  rw [hpnext.lba, hdrivenext.blockNumber_eq_index, hp.lba, hdrive.blockNumber_eq_index]
  exact hindex

/-- The blocks of the turns follow each other. -/
theorem lba_le_of_mem_xferRun (hx : OnPosition x.p) {t : XferTurn}
    (ht : t ∈ (xferRun read compare clp clpOffset x).1) : x.p.lba.toNat ≤ t.x.p.lba.toNat := by
  induction clpOffset, x using xfer_induction read compare clp with
  | step clpOffset x ih =>
    cases turnCases read compare clp clpOffset x with
    | failed x' hccw hrun =>
      rw [hrun] at ht
      cases List.mem_singleton.mp ht
      exact le_rfl
    | lastCcw ccw x' hccw hlast hrun =>
      rw [hrun] at ht
      cases List.mem_singleton.mp ht
      exact le_rfl
    | endOfDisk ccw x' hccw hmore hseek hrun =>
      rw [hrun] at ht
      cases List.mem_singleton.mp ht
      exact le_rfl
    | next ccw x' hccw hmore hseek hrun =>
      obtain ⟨hnext, hlba⟩ := onPosition_next hx hccw hseek
      rw [hrun] at ht
      rcases List.mem_cons.mp ht with rfl | ht
      · exact le_rfl
      · have hle := ih ccw x' hccw hseek hnext ht
        rw [hlba] at hle
        exact Nat.le_of_succ_le hle

/-- A seek leaves the blocks of the disk. -/
theorem mm_diskUnitSeek (p : DiskUnit) (cylinder head sector : Word) :
    (diskUnitSeek p cylinder head sector).2.mm = p.mm := by
  unfold diskUnitSeek
  split_ifs <;> rfl

/-- The loop keeps what its turns have moved, unless one of them fails. -/
theorem kept_performXferLoop (hx : OnPosition x.p)
    (hexit : (xferRun read compare clp clpOffset x).2 ≠ .failed) :
    Kept read compare x (performXferLoop read compare clp clpOffset x).2
      (xferRun read compare clp clpOffset x).1 := by
  induction clpOffset, x using xfer_induction read compare clp with
  | step clpOffset x ih =>
    cases turnCases read compare clp clpOffset x with
    | failed x' hccw hrun =>
      rw [hrun] at hexit
      exact absurd rfl hexit
    | lastCcw ccw x' hccw hlast hrun hresult =>
      have hmoves : TurnMoves read compare ⟨clp + clpOffset.setWidth 32, x⟩ x' :=
        turnMoves_of_xferCcw hccw
      rw [hrun, hresult]
      exact (Kept.nil rfl rfl).cons hmoves rfl rfl fun t ht => absurd ht List.not_mem_nil
    | endOfDisk ccw x' hccw hmore hseek hrun hresult =>
      have hmoves : TurnMoves read compare ⟨clp + clpOffset.setWidth 32, x⟩ x' :=
        turnMoves_of_xferCcw hccw
      rw [hrun, hresult]
      exact (Kept.nil rfl rfl).cons hmoves (mm_diskUnitSeek _ _ _ _) rfl
        fun t ht => absurd ht List.not_mem_nil
    | next ccw x' hccw hmore hseek hrun hresult =>
      have hmoves : TurnMoves read compare ⟨clp + clpOffset.setWidth 32, x⟩ x' :=
        turnMoves_of_xferCcw hccw
      obtain ⟨hnext, hlba⟩ := onPosition_next hx hccw hseek
      rw [hrun] at hexit
      rw [hrun, hresult]
      refine (ih ccw x' hccw hseek hnext hexit).cons hmoves (mm_diskUnitSeek _ _ _ _) rfl ?_
      intro t ht heq
      have hle := lba_le_of_mem_xferRun hnext ht
      rw [heq, hlba] at hle
      exact Nat.not_succ_le_self _ hle

/-- The loop is left with a seek error at the end of the disk. -/
theorem seekError_performXferLoop (hexit : (xferRun read compare clp clpOffset x).2 = .endOfDisk) :
    (performXferLoop read compare clp clpOffset x).1 = false ∧
      (performXferLoop read compare clp clpOffset x).2.p.seekError = true := by
  induction clpOffset, x using xfer_induction read compare clp with
  | step clpOffset x ih =>
    cases turnCases read compare clp clpOffset x with
    | failed x' hccw hrun =>
      rw [hrun] at hexit
      cases hexit
    | lastCcw ccw x' hccw hlast hrun hresult =>
      rw [hrun] at hexit
      cases hexit
    | endOfDisk ccw x' hccw hmore hseek hrun hresult =>
      rw [hresult]
      exact ⟨rfl, seekError_of_diskUnitSeek hseek⟩
    | next ccw x' hccw hmore hseek hrun hresult =>
      rw [hrun] at hexit
      rw [hresult]
      exact ih ccw x' hccw hseek hexit

/-- A transfer from a position of the drive takes at most as many turns as there are blocks from
there on, whatever the memory holds. Where it stops at the end of the disk, it took just these,
the unit has a seek error, and what was moved is kept. -/
theorem transfer_terminates (read compare : Bool) (clp : Word) (x : Xfer) (hx : OnPosition x.p) :
    (performXferRun read compare clp x).1.length ≤ x.p.capacity - x.p.lba.toNat ∧
      ((performXferRun read compare clp x).2 = .endOfDisk →
        (performXferRun read compare clp x).1.length = x.p.capacity - x.p.lba.toNat ∧
        (performXfer read compare clp x).1 = false ∧
        (performXfer read compare clp x).2.p.seekError = true ∧
        Kept read compare x (performXfer read compare clp x).2
          (performXferRun read compare clp x).1) := by
  have hlba : x.p.lba.toNat = x.p.index := hx.2.lba.trans hx.1.blockNumber_eq_index
  obtain ⟨hle, heq⟩ := length_xferRun read compare clp 0 x.cleared hx.2.inRange
  rw [hlba]
  refine ⟨hle, fun hexit => ?_⟩
  obtain ⟨hresult, herror⟩ := seekError_performXferLoop hexit
  have hkept := kept_performXferLoop (x := x.cleared) hx
    (fun h => XferExit.noConfusion (h.symm.trans hexit))
  exact ⟨heq hexit, hresult, herror, ⟨hkept.written, hkept.stored, hkept.otherBlocks,
    hkept.otherPages⟩⟩

/-- A T-80 at its last block. -/
def lastBlock : DiskUnit :=
  (diskUnitSeek (diskUnitInit 0 ⟨"Trident T-80", "T-80", 815, 5, 17⟩ fun _ _ => 0) 814 4 16).2

/-- The positions of the drive agree at its last block. -/
theorem onPosition_lastBlock : OnPosition lastBlock :=
  onPosition_step (e := .seek 814 4 16)
    ⟨drive_diskUnitInit (by decide) 0 _, positioned_diskUnitInit (by decide) 0 _⟩ rfl
    fun h => nomatch h

/-- A list without an end is left after one turn at the last block of the disk. -/
theorem transfer_terminates_at_lastBlock :
    (performXferRun true false 0 (endlessXfer lastBlock)).1.length ≤ 1 :=
  (transfer_terminates true false 0 (endlessXfer lastBlock) onPosition_lastBlock).1

end Usim
