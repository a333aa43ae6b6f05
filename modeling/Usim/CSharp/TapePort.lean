import Usim.CSharp.TapeMoves
import Usim.Lib.Lockstep
import Usim.TapeCommands

/-!
# The registers of the two tape controllers

A list of register accesses finds the two controllers in lockstep, from the time the
tapes are loaded, as long as no access meets one of the differences between them.
-/

namespace Usim

open Lib

/-- An access to a register, by its offset from MTS. -/
inductive TapeAccess
  | read (offset : Word)
  | write (offset : Word) (v : HalfWord)
  deriving DecidableEq, Repr

variable {δ : Type}

/-- An access of the processor. The thread takes its turn at once after GO. -/
def TapeSystem.access (dev : BusDevices δ) (e : TapeAccess) (s : TapeSystem δ) :
    Except ErrCall (Option HalfWord × TapeSystem δ) :=
  match e with
  | .read offset => (s.unibusRead (0o772520 + offset)).map fun v => (some v, s)
  | .write offset v =>
    match s.unibusWrite (0o772520 + offset) v with
    | .error e => .error e
    | .ok (go, s) => (if go then s.run dev else .ok s).map fun s => (none, s)

/-- An access of the processor of the port. -/
def SharpTapeSystem.access (dev : SharpDevices δ) (e : TapeAccess) (s : SharpTapeSystem δ) :
    Except Thrown (Option HalfWord × SharpTapeSystem δ) :=
  match e with
  | .read offset => (s.read offset).map fun v => (some v, s)
  | .write offset v => (s.write dev offset v).map fun s => (none, s)

/-- The tape systems are in the same state, with the controller ready. -/
structure SameTapes (s : TapeSystem δ) (s' : SharpTapeSystem δ) : Prop where
  /-- The controller is ready. -/
  cur : s.controller.mtc.cur = true
  mts : s'.controller.mts = s.controller.mts
  mtc : s'.controller.mtc = s.controller.mtc
  mtbrc : s'.controller.mtbrc = s.controller.mtbrc
  mtcma : s'.controller.mtcma = s.controller.mtcma
  mtd : s'.controller.mtd = s.controller.mtd
  mtrd : s'.controller.mtrd = s.controller.mtrd
  /-- The tapes and their positions. -/
  drives : ∀ slt, SameTapeDrive (s.controller.drives slt) (s'.controller.units slt)
  ready : ∀ slt, s'.controller.ready slt = (s.controller.drives slt).ready
  /-- The memory, the map and the error status. -/
  bus : Ported s.bus s'.bus
  /-- The count is an `int16_t`. -/
  lower : -2 ^ 15 ≤ s.controller.mtbrc
  upper : s.controller.mtbrc < 2 ^ 15

/-- The command that an access starts, and what it finds, satisfy `P`. -/
def TapeAccess.Starts (P : Mtc → TapeState δ → Prop) (e : TapeAccess) (s : TapeSystem δ) : Prop :=
  ∀ v, e = .write 2 v → v.getLsbD 0 = true → v.getLsbD 12 = false →
    (s.updateMtc v).2.controller.mts.selr = true →
      P (s.updateMtc v).2.busy.controller.mtc (s.updateMtc v).2.busy.start

/-- The access starts no command that reads a word past the end of an image. -/
def TapeAccess.Inside (dev : BusDevices δ) (e : TapeAccess) (s : TapeSystem δ) : Prop :=
  e.Starts (fun mtc t => t.CommandInside dev mtc) s

/-- The access starts no command that the programs execute differently, and it does not read
the status of a drive whose tape was never moved. -/
structure TapeAccess.Portable (dev : BusDevices δ) (e : TapeAccess) (s : TapeSystem δ) : Prop where
  command : e.Starts (fun mtc t => t.CommandPortable dev mtc) s
  status : e = .read 0 → s.controller.selectedDrive.ready = true →
    s.controller.selectedDrive.pos = 0 → s.controller.selectedDrive.bot = true

variable {dev : BusDevices δ} {dev' : SharpDevices δ} {s : TapeSystem δ} {s' : SharpTapeSystem δ}

/-- The two controllers encode the same status. -/
theorem SameTapes.encodeMts (h : SameTapes s s')
    (hknown : s.controller.selectedDrive.ready = true →
      s.controller.selectedDrive.pos = 0 → s.controller.selectedDrive.bot = true) :
    s'.controller.encodeMts = s.controller.encodeMts := by
  have hdrive := h.drives s.controller.mtc.slt
  have hready := h.ready s.controller.mtc.slt
  have hbot : (s'.controller.units s.controller.mtc.slt).bot = s.controller.selectedDrive.bot := by
    rcases hdrive.bot with hbot | ⟨hloaded, hpos, hunmoved, -⟩
    · exact hbot
    · exact absurd (hknown hloaded hpos) (Bool.eq_false_iff.mp hunmoved)
  unfold SharpTapeController.encodeMts TapeController.encodeMts SharpTapeController.selectedDrive
  simp only [h.mts, h.mtc, hready, hbot, hdrive.readOnly, hdrive.rws]
  simp only [TapeController.selectedDrive, hdrive.rws]

/-- The two controllers encode the same command register. -/
theorem SameTapes.encodeMtc (h : SameTapes s s') :
    s'.controller.encodeMtc = s.controller.encodeMtc := by
  unfold SharpTapeController.encodeMtc TapeController.encodeMtc
  rw [h.mts, h.mtc, h.mtcma]

/-- The registers of the C program, by their offsets. -/
theorem uaddr_offset (offset k : Word) : (0o772520 + offset = 0o772520 + k) = (offset = k) := by
  rw [add_right_inj]

/-- A register is read alike. -/
theorem SameTapes.read (h : SameTapes s s') (offset : Word)
    (hknown : offset = 0 → s.controller.selectedDrive.ready = true →
      s.controller.selectedDrive.pos = 0 → s.controller.selectedDrive.bot = true) :
    AgreesUpTo (· = ·) (s.unibusRead (0o772520 + offset)) (s'.read offset) := by
  unfold TapeSystem.unibusRead SharpTapeSystem.read
  change AgreesUpTo _ (if 0o772520 + offset = 0o772520 + 0 then _
    else if 0o772520 + offset = 0o772520 + 2 then _
    else if 0o772520 + offset = 0o772520 + 4 then _
    else if 0o772520 + offset = 0o772520 + 6 then _
    else if 0o772520 + offset = 0o772520 + 8 then _
    else if 0o772520 + offset = 0o772520 + 10 then _ else _) _
  simp only [uaddr_offset]
  by_cases hmts : offset = 0
  · rw [if_pos hmts, if_pos hmts]
    exact (h.encodeMts (hknown hmts)).symm
  rw [if_neg hmts, if_neg hmts]
  by_cases hmtc : offset = 2
  · rw [if_pos hmtc, if_pos hmtc]
    exact h.encodeMtc.symm
  rw [if_neg hmtc, if_neg hmtc, h.mtbrc, h.mtcma, h.mtd, h.mtrd]
  split_ifs <;> trivial

/-! ### Writes -/

/-- The fields of MTC are stored, and the drive is asked whether it is online. -/
def TapeSystem.storingMtc (v : HalfWord) (s : TapeSystem δ) : TapeSystem δ :=
  (s.onController fun c =>
    { c with
      mtc := { c.mtc with
        den8 := v.getLsbD 14
        den5 := v.getLsbD 13
        pevn := v.getLsbD 11
        slt := Fin.ofNat 8 (v >>> 8).toNat
        intEnb := v.getLsbD 6
        function := Fin.ofNat 8 (v >>> 1).toNat }
      mtcma := (c.mtcma &&& (0x0000FFFF : Word)) ||| (((v >>> 4) &&& 0b11).setWidth 32 <<< 16)
    }).onController fun c => { c with mts.selr := c.selectedDrive.online }

/-- `tape_controller_update_mtc`, by what the word asks for. -/
theorem TapeSystem.updateMtc_eq (v : HalfWord) (s : TapeSystem δ) :
    s.updateMtc v =
      if v.getLsbD 12 then (false, (s.storingMtc v).onController TapeController.busReset)
      else if v.getLsbD 0 then (true, s.storingMtc v)
      else (false, (s.storingMtc v).assertInterrupt) := rfl

namespace SharpTapeSystem

/-- The fields of MTC are stored, and the drive is asked whether it is online. -/
def storingMtc (v : HalfWord) (s : SharpTapeSystem δ) : SharpTapeSystem δ :=
  (s.onController fun c =>
    { c with
      mtc := { c.mtc with
        den8 := v.getLsbD 14
        den5 := v.getLsbD 13
        pevn := v.getLsbD 11
        slt := Fin.ofNat 8 (v >>> 8).toNat
        intEnb := v.getLsbD 6
        function := Fin.ofNat 8 (v >>> 1).toNat }
      mtcma := (c.mtcma &&& (0x0000FFFF : Word)) ||| (((v >>> 4) &&& 0x3).setWidth 32 <<< 16)
    }).onController fun c => { c with mts.selr := c.selectedDrive.online }

/-- The controller is not ready, and the errors of the last command are reset. -/
def busy (s : SharpTapeSystem δ) : SharpTapeSystem δ :=
  s.onController fun c => { c with mtc.cur := false, mts := c.mts.resetMtcErr }

/-- The controller is ready again. -/
def done (s : SharpTapeSystem δ) : SharpTapeSystem δ :=
  (s.onController fun c => { c with mtc.cur := true }).assertInterrupt

/-- `UpdateMtc`, by what the word asks for, if the controller is ready. -/
theorem updateMtc_eq (dev : SharpDevices δ) (v : HalfWord) (s : SharpTapeSystem δ)
    (hcur : s.controller.mtc.cur = true) :
    s.updateMtc dev v =
      if v.getLsbD 12 then .ok ((s.storingMtc v).onController SharpTapeController.busReset)
      else if v.getLsbD 0 then
        (SharpTapeSystem.go dev ((s.storingMtc v).onController fun c =>
          { c with mtc.cur := false })).map done
      else .ok (s.storingMtc v).assertInterrupt := by
  have hready : (s.storingMtc v).controller.mtc.cur = true := hcur
  unfold updateMtc
  change (if v.getLsbD 12 = true then _ else if v.getLsbD 0 = true then
    if (!(s.storingMtc v).controller.mtc.cur) = true then _ else _ else _) = _
  rw [hready, Bool.not_true, if_neg Bool.false_ne_true]
  rfl

/-- `Go`, by whether the drive is online. -/
theorem go_eq (dev : SharpDevices δ) (s : SharpTapeSystem δ) :
    SharpTapeSystem.go dev (s.onController fun c => { c with mtc.cur := false }) =
      if s.controller.mts.selr then
        (s.busy.start.command dev s.busy.controller.mtc).map s.busy.finish
      else .ok (s.busy.onController fun c => { c with mts.ilc := true }) := by
  unfold go
  change (if (!s.controller.mts.selr) = true then _ else _) = _
  cases s.controller.mts.selr <;> rfl

end SharpTapeSystem

/-- The controller is ready again. -/
def TapeSystem.done (s : TapeSystem δ) : TapeSystem δ :=
  (s.onController fun c => { c with mtc.cur := true }).assertInterrupt

/-- A turn of the thread, by whether the drive is online. -/
theorem TapeSystem.run_ready (dev : BusDevices δ) (hcur : s.controller.mtc.cur = true) :
    s.run dev =
      if s.controller.mts.selr then
        (s.busy.start.command dev s.busy.controller.mtc).map fun t => (s.busy.finish t).done
      else .ok (s.busy.onController fun c => { c with mts.ilc := true }).done := by
  cases hselr : s.controller.mts.selr with
  | true => exact TapeSystem.run_eq dev hcur hselr
  | false =>
    have hgo : TapeSystem.go dev (s.onController fun k => { k with mtc.cur := false }) =
        .ok (s.busy.onController fun c => { c with mts.ilc := true }) := by
      unfold TapeSystem.go
      change (if (!s.controller.mts.selr) = true then _ else _) = _
      rw [hselr]
      rfl
    unfold TapeSystem.run
    rw [hcur, Bool.not_true, if_neg Bool.false_ne_true, hgo]
    rfl

/-- The interrupt of the controller is requested in both. -/
theorem SameTapes.assertInterrupt (h : SameTapes s s') :
    SameTapes s.assertInterrupt s'.assertInterrupt := by
  have hbus : Ported s.assertInterrupt.bus s'.assertInterrupt.bus := by
    have hported := h.bus.tapeInterruptIfEnabled s.controller.mtc.intEnb
    unfold TapeSystem.assertInterrupt SharpTapeSystem.assertInterrupt
    rw [h.mtc]
    exact hported
  exact ⟨h.cur, h.mts, h.mtc, h.mtbrc, h.mtcma, h.mtd, h.mtrd, h.drives, h.ready, hbus, h.lower,
    h.upper⟩

/-- MTC is stored in both. -/
theorem SameTapes.storingMtc (h : SameTapes s s') (v : HalfWord) :
    SameTapes (s.storingMtc v) (s'.storingMtc v) := by
  have honline := (h.drives (Fin.ofNat 8 (v >>> 8).toNat)).online
  have hmts : (s'.storingMtc v).controller.mts = (s.storingMtc v).controller.mts := by
    unfold SharpTapeSystem.storingMtc TapeSystem.storingMtc SharpTapeSystem.onController
      TapeSystem.onController SharpTapeController.selectedDrive TapeController.selectedDrive
    simp only [h.mts, honline]
  have hmtc : (s'.storingMtc v).controller.mtc = (s.storingMtc v).controller.mtc := by
    unfold SharpTapeSystem.storingMtc TapeSystem.storingMtc SharpTapeSystem.onController
      TapeSystem.onController
    simp only [h.mtc]
  have hmtcma : (s'.storingMtc v).controller.mtcma = (s.storingMtc v).controller.mtcma := by
    unfold SharpTapeSystem.storingMtc TapeSystem.storingMtc SharpTapeSystem.onController
      TapeSystem.onController
    simp only [h.mtcma]
  exact ⟨h.cur, hmts, hmtc, h.mtbrc, hmtcma, h.mtd, h.mtrd, h.drives, h.ready, h.bus, h.lower,
    h.upper⟩

/-- The density of an open drive is set in both. -/
theorem SameTapeDrive.setBpi {p : TapeDrive} {p' : SharpTapeDrive} (h : SameTapeDrive p p')
    (honline : p.online = true) (bpi : Word) (mts : Mts) :
    p'.setBpi bpi =
      (TapeUnit.setBpi bpi ⟨{ p with ready := false }, mts⟩).standing p'.bot p'.eot := by
  obtain ⟨hopened, hlength, hsize, -⟩ := h.opened honline
  unfold SharpTapeDrive.setBpi TapeUnit.standing TapeUnit.sharp TapeUnit.setBpi
  simp only [h.online, h.readOnly, h.rws, h.pos, h.image, hopened, hlength, hsize]
  rfl

/-- What a command finds in both. -/
theorem SameTapes.start (h : SameTapes s s') (honline : s.controller.selectedDrive.online = true) :
    TapesAlike s.busy.start s'.busy.start := by
  have hdrive := h.drives s.controller.mtc.slt
  obtain ⟨-, -, -, hword⟩ := hdrive.opened honline
  have hfound : s'.busy.start.drive = s.busy.start.unit.standing
      (s'.controller.units s.controller.mtc.slt).bot
      (s'.controller.units s.controller.mtc.slt).eot := by
    have hslt : s'.busy.start.drive = SharpTapeDrive.setBpi
        (if s.controller.mtc.den8 then 800 else 1600)
        (s'.controller.units s.controller.mtc.slt) := by
      rw [← h.mtc]
      rfl
    rw [hslt, hdrive.setBpi honline]
    rfl
  have hmts : s'.busy.start.mts = s.busy.start.unit.mts :=
    congrArg Mts.resetMtcErr h.mts
  exact ⟨⟨_, _, hfound, hdrive.bot.imp id fun h => ⟨h.2.2.1, h.2.1, h.2.2.2⟩⟩, hmts, h.mtbrc,
    h.mtcma, h.bus, hdrive.rws.1, hword, h.lower, h.upper⟩

/-- Both controllers become ready again. -/
theorem done_alike {k : TapeController} {k' : SharpTapeController} {bus : BusGlobals δ}
    {bus' : SharpGlobals δ}
    (h : SameTapes ⟨{ k with mtc.cur := true }, bus⟩ ⟨{ k' with mtc.cur := true }, bus'⟩) :
    SameTapes (TapeSystem.done ⟨k, bus⟩) (SharpTapeSystem.done ⟨k', bus'⟩) :=
  h.assertInterrupt

/-- What a command leaves in both. -/
theorem SameTapes.finish (h : SameTapes s s') {t : TapeState δ} {t' : SharpTapeState δ}
    (ht : LeftAlike t t') : SameTapes (s.busy.finish t).done (s'.busy.finish t').done := by
  have hslt : s'.controller.mtc.slt = s.controller.mtc.slt := congrArg Mtc.slt h.mtc
  have hmtc : { s'.busy.controller.mtc with cur := true } =
      { s.busy.controller.mtc with cur := true } := by
    change { s'.controller.mtc with cur := true } = { s.controller.mtc with cur := true }
    rw [h.mtc]
  refine done_alike ⟨rfl, ht.mts, hmtc, ht.mtbrc, ht.mtcma, h.mtd, h.mtrd, ?_, ?_, ht.bus, ht.lower,
    ht.upper⟩
  · intro slt
    change SameTapeDrive (Function.update s.controller.drives s.controller.mtc.slt
        { t.unit.drive with ready := true } slt)
      (Function.update s'.controller.units s'.controller.mtc.slt t'.drive slt)
    rw [hslt]
    by_cases hselected : slt = s.controller.mtc.slt
    · subst hselected
      rw [Function.update_self, Function.update_self]
      exact ht.drive
    · rw [Function.update_of_ne hselected, Function.update_of_ne hselected]
      exact h.drives slt
  · intro slt
    change Function.update s'.controller.ready s'.controller.mtc.slt true slt =
      (Function.update s.controller.drives s.controller.mtc.slt
        { t.unit.drive with ready := true } slt).ready
    rw [hslt]
    by_cases hselected : slt = s.controller.mtc.slt
    · subst hselected
      rw [Function.update_self, Function.update_self]
    · rw [Function.update_of_ne hselected, Function.update_of_ne hselected]
      exact h.ready slt

/-- GO, in both. -/
theorem SameTapes.go (hdev : AttachedIdentically dev dev')
    (hmode : OnlyModeDisablesProm dev'.diagnosticInterface) (h : SameTapes s s')
    (honline : s.controller.mts.selr = true → s.controller.selectedDrive.online = true)
    (hinside : s.controller.mts.selr = true →
      s.busy.start.CommandInside dev s.busy.controller.mtc)
    (hportable : s.controller.mts.selr = true →
      s.busy.start.CommandPortable dev s.busy.controller.mtc) :
    AgreesUpTo SameTapes (s.run dev) ((SharpTapeSystem.go dev' (s'.onController fun c =>
      { c with mtc.cur := false })).map SharpTapeSystem.done) := by
  have hselr : s'.controller.mts.selr = s.controller.mts.selr := congrArg Mts.selr h.mts
  rw [TapeSystem.run_ready dev h.cur, SharpTapeSystem.go_eq, hselr]
  cases hselected : s.controller.mts.selr with
  | false =>
    rw [if_neg Bool.false_ne_true, if_neg Bool.false_ne_true]
    have hmts : { s'.controller.mts.resetMtcErr with ilc := true } =
        { s.controller.mts.resetMtcErr with ilc := true } := by rw [h.mts]
    have hmtc : { { s'.controller.mtc with cur := false } with cur := true } =
        { { s.controller.mtc with cur := false } with cur := true } := by rw [h.mtc]
    exact done_alike ⟨rfl, hmts, hmtc, h.mtbrc, h.mtcma, h.mtd, h.mtrd, h.drives, h.ready, h.bus,
      h.lower, h.upper⟩
  | true =>
    rw [if_pos rfl, if_pos rfl]
    have hmtc : s'.busy.controller.mtc = s.busy.controller.mtc := by
      change { s'.controller.mtc with cur := false } = { s.controller.mtc with cur := false }
      rw [h.mtc]
    have hcommand := command_alike hdev hmode s.busy.controller.mtc
      (h.start (honline hselected)) rfl (hinside hselected) (hportable hselected)
    rw [hmtc]
    rcases hcommand.cases with ⟨t, t', ht, ht', hleft⟩ | ⟨e, d, ht, ht'⟩
    · rw [ht, ht']
      exact h.finish hleft
    · rw [ht, ht']
      trivial

/-- MTC is written alike. -/
theorem SameTapes.writeMtc (hdev : AttachedIdentically dev dev')
    (hmode : OnlyModeDisablesProm dev'.diagnosticInterface) (h : SameTapes s s') (v : HalfWord)
    (hinside : TapeAccess.Inside dev (.write 2 v) s)
    (hportable : TapeAccess.Portable dev (.write 2 v) s) :
    AgreesUpTo SameTapes
      (if (s.updateMtc v).1 then (s.updateMtc v).2.run dev else .ok (s.updateMtc v).2)
      (s'.updateMtc dev' v) := by
  have hstored := h.storingMtc v
  have hcommand := hportable.command v rfl
  replace hinside := hinside v rfl
  rw [SharpTapeSystem.updateMtc_eq dev' v s' ((congrArg Mtc.cur h.mtc).trans h.cur)]
  rw [TapeSystem.updateMtc_eq] at hinside hcommand ⊢
  cases hclear : v.getLsbD 12 with
  | true =>
    rw [if_pos rfl, if_pos rfl]
    exact ⟨rfl, rfl, rfl, rfl, hstored.mtcma, h.mtd, h.mtrd, h.drives, h.ready, h.bus,
      show (-2 ^ 15 : ℤ) ≤ 0 by decide, show (0 : ℤ) < 2 ^ 15 by decide⟩
  | false =>
    rw [hclear, if_neg Bool.false_ne_true] at hinside hcommand
    rw [if_neg Bool.false_ne_true, if_neg Bool.false_ne_true]
    cases hgo : v.getLsbD 0 with
    | true =>
      rw [hgo, if_pos rfl] at hinside hcommand
      rw [if_pos rfl, if_pos rfl]
      exact hstored.go hdev hmode (fun honline => honline) (hinside rfl rfl) (hcommand rfl rfl)
    | false =>
      rw [if_neg Bool.false_ne_true, if_neg Bool.false_ne_true]
      exact hstored.assertInterrupt

/-- The registers that can be written, by their offsets. -/
theorem unibusWrite_offset (offset : Word) (v : HalfWord) (s : TapeSystem δ) :
    s.unibusWrite (0o772520 + offset) v =
      if offset = 2 then .ok (s.updateMtc v)
      else if offset = 4 then .ok (false, s.onController ({ · with mtbrc := v.toInt }))
      else if offset = 6 then
        .ok (false, s.onController fun c =>
          { c with mtcma := (c.mtcma &&& (0xFFFF0000 : Word)) ||| v.setWidth 32 })
      else if offset = 10 then .ok (false, s.onController ({ · with mtrd := v }))
      else .error ⟨"tape: unknown write uaddr=%06o\n", [(0o772520 + offset).toNat]⟩ := by
  unfold TapeSystem.unibusWrite
  change (if 0o772520 + offset = 0o772520 + 2 then _
    else if 0o772520 + offset = 0o772520 + 4 then _
    else if 0o772520 + offset = 0o772520 + 6 then _
    else if 0o772520 + offset = 0o772520 + 10 then _ else _) = _
  simp only [uaddr_offset]

/-- A register is written alike. -/
theorem SameTapes.write (hdev : AttachedIdentically dev dev')
    (hmode : OnlyModeDisablesProm dev'.diagnosticInterface) (h : SameTapes s s') (offset : Word)
    (v : HalfWord) (hinside : TapeAccess.Inside dev (.write offset v) s)
    (hportable : TapeAccess.Portable dev (.write offset v) s) :
    AgreeOn (TapeSystem.access dev) (SharpTapeSystem.access dev') SameTapes (.write offset v) s
      s' := by
  unfold AgreeOn TapeSystem.access SharpTapeSystem.access SharpTapeSystem.write
  simp only [unibusWrite_offset]
  by_cases hmtc : offset = 2
  · subst hmtc
    rw [if_pos rfl, if_pos rfl]
    exact agreesUpTo_map.mpr ((h.writeMtc hdev hmode v hinside hportable).mono fun _ _ hsame =>
      ⟨rfl, hsame⟩)
  rw [if_neg hmtc, if_neg hmtc]
  by_cases hmtbrc : offset = 4
  · rw [if_pos hmtbrc, if_pos hmtbrc]
    exact ⟨rfl, h.cur, h.mts, h.mtc, rfl, h.mtcma, h.mtd, h.mtrd, h.drives, h.ready, h.bus,
      BitVec.le_toInt v, BitVec.toInt_lt⟩
  rw [if_neg hmtbrc, if_neg hmtbrc]
  by_cases hmtcma : offset = 6
  · rw [if_pos hmtcma, if_pos hmtcma]
    exact ⟨rfl, h.cur, h.mts, h.mtc, h.mtbrc,
      congrArg (fun m : Word => (m &&& 0xFFFF0000) ||| v.setWidth 32) h.mtcma, h.mtd, h.mtrd,
      h.drives, h.ready, h.bus, h.lower, h.upper⟩
  rw [if_neg hmtcma, if_neg hmtcma]
  by_cases hmtrd : offset = 10
  · rw [if_pos hmtrd, if_pos hmtrd]
    exact ⟨rfl, h.cur, h.mts, h.mtc, h.mtbrc, h.mtcma, h.mtd, rfl, h.drives, h.ready, h.bus,
      h.lower, h.upper⟩
  · rw [if_neg hmtrd, if_neg hmtrd]
    trivial

namespace TapeDrive

/-- `tape_drive_init`, with a mode that is "ro" or "rw" and a file that can be opened. -/
def init (unit : Word) (config : TapeConfig) : TapeDrive :=
  let p := unconfigured unit
  if config.lengthFt = 0 then p
  else if hsize : (config.mmsz : ℤ) < config.lengthFt * 12 * 1600 then
    { p with lengthFt := config.lengthFt, readOnly := config.readOnly, size_le := Bool.noConfusion }
  -- an empty file cannot be mapped
  else if config.mmsz = 0 then
    { p with lengthFt := config.lengthFt, readOnly := config.readOnly, size_le := Bool.noConfusion }
  else
    { p with
      lengthFt := config.lengthFt
      readOnly := config.readOnly
      mm := config.image
      mmsz := config.mmsz
      ready := true
      online := true
      pos_le := Nat.zero_le _
      size_le := fun _ => not_lt.mp hsize }

end TapeDrive

/-- Both programs accept the image. -/
def TapeConfig.Accepted (config : TapeConfig) : Prop :=
  0 < config.lengthFt ∧ config.lengthFt * 12 * 1600 ≤ config.mmsz

instance (config : TapeConfig) : Decidable config.Accepted :=
  inferInstanceAs (Decidable (_ ∧ _))

/-- The tapes of the configuration after the first reset of the bus, from which on the controller
is ready. -/
def TapeSystem.loaded (configs : Fin 8 → Option TapeConfig) (bus : BusGlobals δ) :
    TapeSystem δ where
  controller := TapeController.busReset {
    mts := ⟨false, false, false, false, false, false, false⟩
    mtc := ⟨false, false, false, 0, false, false, 0⟩
    mtbrc := 0
    mtcma := 0
    mtd := 0
    mtrd := 0
    drives := fun slt => (configs slt).elim (TapeDrive.unconfigured (BitVec.ofNat 32 slt))
      (TapeDrive.init (BitVec.ofNat 32 slt)) }
  bus := bus

/-- `new TapeController`, and `ConfigureUnit` for the tapes of the configuration. -/
def SharpTapeSystem.loaded (configs : Fin 8 → Option TapeConfig) (bus : SharpGlobals δ) :
    SharpTapeSystem δ where
  controller :=
    let units : Fin 8 → SharpTapeDrive := fun slt =>
      (configs slt).elim SharpTapeDrive.init fun config => SharpTapeDrive.init.configure config
    SharpTapeController.busReset {
      mts := ⟨false, false, false, false, false, false, false⟩
      mtc := ⟨false, false, false, 0, false, false, 0⟩
      mtbrc := 0
      mtcma := 0
      mtd := 0
      mtrd := 0
      units := units
      ready := fun slt => (units slt).online }
  bus := bus

end Usim
