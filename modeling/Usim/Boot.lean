import Usim.Invariants

/-!
# Booting a running machine

`machine_control_boot` inhibits the prefetched microinstruction and restarts
the micro PC, but the OA registers that are armed and the memory read in
progress survive it. The first microinstruction executed after the boot is the
first one of the PROM exactly when none of these has an effect on it.
-/

namespace Usim

open Lib

variable {β : Type} {port : VmPort β}

/-- `u` is the state in which the first microinstruction after a boot in `s` is
executed: the one after the inhibited prefetch. -/
def FirstExecuted (s u : Engine β) : Prop :=
  ∃ t, fetch (machineControlBoot s) = .ok false t ∧ fetch t = .ok true u

/-- The state without pipeline flags. -/
def Engine.quiet (s : Engine β) : Engine β :=
  { s with oal := false, oah := false, newMdDelay := 0, inhibit := false }

/-- A boot in `s` starts the PROM as it should: the first microinstruction
executed is the first one of the PROM as stored, MD is still that at the boot,
and the run is that from the state without pipeline flags. -/
structure BootsFromProm (port : VmPort β) (s : Engine β) : Prop where
  /-- The first microinstruction executed, and MD at that time. -/
  first : ∃ u, FirstExecuted s u ∧ u.p0 = s.prom 0 ∧ u.mdReg = s.mdReg
  /-- The run does not depend on the pipeline flags. -/
  sameRun : ∀ acts, perform port (.step :: .step :: acts) (machineControlBoot s) =
    perform port (.step :: .step :: acts) (machineControlBoot s.quiet)

/-- Nothing that was armed before the boot can be seen: an OA register to be
merged has no bit that the first microinstruction of the PROM lacks, and a
memory read in progress brings the word that MD already has. -/
structure NothingArmed (s : Engine β) : Prop where
  /-- The low modifier. -/
  low : s.oal = true → s.prom 0 ||| s.oaRegLow.setWidth 64 = s.prom 0
  /-- The high modifier. -/
  high : s.oah = true → s.prom 0 ||| (s.oaRegHigh.setWidth 64 <<< 26) = s.prom 0
  /-- The memory read. -/
  md : s.newMdDelay ≠ 0 → s.newMd = s.mdReg

/-- A tick takes one cycle off a delay. -/
theorem toNat_tickedDelay (delay : Word) : (tickedDelay delay).toNat = delay.toNat - 1 := by
  unfold tickedDelay
  split
  · rename_i h
    rw [h]
    rfl
  · rename_i h
    have hpos : delay.toNat ≠ 0 := fun hzero => h (BitVec.eq_of_toNat_eq hzero)
    have hle : (1 : Word) ≤ delay := BitVec.le_def.mpr (Nat.one_le_iff_ne_zero.mpr hpos)
    rw [BitVec.toNat_sub_of_le hle]
    rfl

/-- Register effects leave the delay, or set it to two cycles. -/
theorem RegisterEffect.newMdDelay {c c' : Core} (h : RegisterEffect c c') :
    c'.newMdDelay = c.newMdDelay ∨ c'.newMdDelay = 2 := by
  cases h with
  | startRead => exact .inr rfl
  | advance =>
    show (if _ then _ else _) = _ ∨ (if _ then _ else _) = _
    split
    · exact .inr rfl
    · exact .inl rfl
  | _ => exact .inl rfl

/-- The memory read in progress takes two cycles at most. -/
def Core.ReadDue (c : Core) : Prop := c.newMdDelay.toNat ≤ 2

/-- Register effects keep a read due. -/
theorem RegisterEffect.readDue {c c' : Core} (h : RegisterEffect c c') (hc : c.ReadDue) :
    c'.ReadDue := by
  rcases h.newMdDelay with hsame | htwo
  · rw [Core.ReadDue, hsame]
    exact hc
  · rw [Core.ReadDue, htwo]
    exact Nat.le_refl 2

/-- A memory read in progress always takes two cycles at most. -/
theorem Reached.newMdDelay_le {s : Engine β} (hs : Reached port (fun _ => True) s) :
    s.newMdDelay.toNat ≤ 2 := by
  have hcore : s.core.ReadDue := by
    refine hs.core_induction (fun _ _ _ => Nat.zero_le 2) (fun _ hc => hc) (fun c _ hc => ?_)
      fun _ _ => Effect.keeps (fun _ _ h hc => h.readDue hc) (fun _ _ hc => hc) fun _ _ hc => hc
    rw [Core.ReadDue, Core.fetched, toNat_tickedDelay]
    exact (Nat.sub_le _ _).trans hc
  exact hcore

/-- The state after the inhibited prefetch of a boot in `s`. -/
def Engine.bootSkipped (s : Engine β) : Engine β := (machineControlBoot s).skipped (s.prom 0)

/-- The state in which the first microinstruction after a boot in `s` is executed. -/
def Engine.bootIssued (s : Engine β) : Engine β := s.bootSkipped.issued (s.prom 1)

/-- After a boot the prefetched microinstruction is inhibited. -/
theorem fetch_boot (s : Engine β) : fetch (machineControlBoot s) = .ok false s.bootSkipped :=
  fetch_skipped rfl rfl

/-- The next microinstruction is executed. -/
theorem fetch_bootSkipped (s : Engine β) : fetch s.bootSkipped = .ok true s.bootIssued := by
  have hnext : s.bootSkipped.nextWord = .ok (s.prom 1) := by
    rw [Engine.bootSkipped, Engine.skipped, Engine.ticked_eq]
    rfl
  exact fetch_issued hnext rfl

/-- The state in which the first microinstruction is executed is determined. -/
theorem firstExecuted_iff {s u : Engine β} : FirstExecuted s u ↔ u = s.bootIssued := by
  constructor
  · rintro ⟨t, ht, hu⟩
    rw [fetch_boot] at ht
    obtain ⟨-, rfl⟩ := EStateM.Result.ok.inj ht
    rw [fetch_bootSkipped] at hu
    exact (EStateM.Result.ok.inj hu).2.symm
  · rintro rfl
    exact ⟨s.bootSkipped, fetch_boot s, fetch_bootSkipped s⟩

/-- The state in which the first microinstruction after a boot in `s` is
executed, for a merged microinstruction and a word of MD. -/
def Engine.promStarted (s : Engine β) (p0 : BitVec 64) (md : Word) : Engine β :=
  { machineControlBoot s with
    p0Imem := false
    p0 := p0
    p0Pc := 0
    p1Imem := false
    p1 := s.prom 1
    p1Pc := 1
    npc := 2
    opc := 0
    inhibit := false
    oal := false
    oah := false
    newMdDelay := 0
    mdReg := md }

/-- The microinstruction that a boot in `s` makes of the first word of the PROM. -/
def Engine.bootWord (s : Engine β) : BitVec 64 := { s with p0 := s.prom 0 }.mergedWord

/-- MD when the first microinstruction after a boot in `s` is executed. -/
def Engine.bootMd (s : Engine β) : Word := if s.newMdDelay = 0 then s.mdReg else s.newMd

/-- What is left of the state before a boot. -/
theorem bootIssued_eq {s : Engine β} (hdelay : s.newMdDelay.toNat ≤ 2) :
    s.bootIssued = s.promStarted s.bootWord s.bootMd := by
  have hcases : s.newMdDelay = 0 ∨ s.newMdDelay = 1 ∨ s.newMdDelay = 2 := by
    have hofNat : s.newMdDelay = BitVec.ofNat 32 s.newMdDelay.toNat := by
      rw [BitVec.ofNat_toNat, BitVec.setWidth_eq]
    have hsmall : s.newMdDelay.toNat = 0 ∨ s.newMdDelay.toNat = 1 ∨ s.newMdDelay.toNat = 2 := by
      omega
    rcases hsmall with h | h | h <;> rw [h] at hofNat
    · exact .inl hofNat
    · exact .inr (.inl hofNat)
    · exact .inr (.inr hofNat)
  have hdone : tickedDelay (tickedDelay s.newMdDelay) = 0 := by
    rcases hcases with h | h | h <;> rw [h] <;> rfl
  have hmd : (if tickedDelay s.newMdDelay = 1 then s.newMd else s.tickedMd) = s.bootMd := by
    unfold Engine.tickedMd Engine.bootMd
    rcases hcases with h | h | h <;> rw [h] <;> rfl
  have hissued : s.bootIssued = { s.promStarted s.bootWord
      (if tickedDelay s.newMdDelay = 1 then s.newMd else s.tickedMd) with
      newMdDelay := tickedDelay (tickedDelay s.newMdDelay) } := by
    rw [Engine.bootIssued, Engine.bootSkipped, Engine.issued, Engine.skipped, Engine.ticked_eq,
      Engine.ticked_eq]
    rfl
  rw [hissued, hdone, hmd]
  rfl

/-- Joining bits that are all there changes nothing. -/
theorem or_or_eq_left {a b c : BitVec 64} : a ||| b ||| c = a ↔ a ||| b = a ∧ a ||| c = a := by
  constructor
  · intro h
    constructor
    · calc a ||| b = a ||| b ||| c ||| b := by rw [h]
        _ = a ||| b ||| c := by
          rw [BitVec.or_assoc, BitVec.or_comm c b, ← BitVec.or_assoc, BitVec.or_assoc a b b,
            BitVec.or_self]
        _ = a := h
    · calc a ||| c = a ||| b ||| c ||| c := by rw [h]
        _ = a ||| b ||| c := by rw [BitVec.or_assoc, BitVec.or_self]
        _ = a := h
  · rintro ⟨hb, hc⟩
    rw [hb, hc]

/-- The first microinstruction is as stored, and MD is kept, when nothing is armed. -/
theorem nothingArmed_iff {s : Engine β} :
    NothingArmed s ↔ s.bootWord = s.prom 0 ∧ s.bootMd = s.mdReg := by
  have hword : s.bootWord = s.prom 0 ↔
      (s.oal = true → s.prom 0 ||| s.oaRegLow.setWidth 64 = s.prom 0) ∧
      (s.oah = true → s.prom 0 ||| (s.oaRegHigh.setWidth 64 <<< 26) = s.prom 0) := by
    unfold Engine.bootWord Engine.mergedWord
    cases s.oal <;> cases s.oah <;> simp [or_or_eq_left]
  have hmd : s.bootMd = s.mdReg ↔ (s.newMdDelay ≠ 0 → s.newMd = s.mdReg) := by
    unfold Engine.bootMd
    split
    · rename_i h
      exact iff_of_true rfl fun hne => absurd h hne
    · rename_i h
      exact ⟨fun heq _ => heq, fun heq => heq h⟩
  rw [hword, hmd]
  exact ⟨fun h => ⟨⟨h.low, h.high⟩, h.md⟩, fun h => ⟨h.1.1, h.1.2, h.2⟩⟩

/-- After a boot the machine goes on from the first executed microinstruction. -/
theorem perform_boot (s : Engine β) (acts : List (Action β)) :
    perform port (.step :: .step :: acts) (machineControlBoot s) =
      (match execute port s.bootIssued with
        | .ok _ t => some t
        | .error _ _ => none).bind (perform port acts) := by
  have hskip : uexecStep port (machineControlBoot s) = .ok () s.bootSkipped :=
    uexecStep_of_fetch (fetch_boot s)
  have hissue : uexecStep port s.bootSkipped = execute port s.bootIssued :=
    uexecStep_of_fetch (fetch_bootSkipped s)
  have hfirst : act port .step (machineControlBoot s) = some s.bootSkipped := by
    rw [act, hskip]
  have hsecond : act port .step s.bootSkipped =
      match execute port s.bootIssued with
      | .ok _ t => some t
      | .error _ _ => none :=
    congrArg (fun r => match r with
      | .ok _ t => some t
      | .error _ _ => none) hissue
  change (act port .step (machineControlBoot s)).bind (fun t => (act port .step t).bind _) = _
  rw [hfirst, Option.bind_some]
  exact congrArg (Option.bind · (perform port acts)) hsecond

/-- In every state that the machine reaches, a boot starts the PROM as it
should exactly when nothing is armed that can be seen. -/
theorem boots_from_prom_iff {s : Engine β} (hs : Reached port (fun _ => True) s) :
    BootsFromProm port s ↔ NothingArmed s := by
  have hissued := bootIssued_eq hs.newMdDelay_le
  rw [nothingArmed_iff]
  constructor
  · rintro ⟨⟨u, hu, hp0, hmd⟩, -⟩
    obtain rfl := firstExecuted_iff.mp hu
    rw [hissued] at hp0 hmd
    exact ⟨hp0, hmd⟩
  · rintro ⟨hp0, hmd⟩
    refine ⟨⟨s.bootIssued, firstExecuted_iff.mpr rfl, ?_, ?_⟩, fun acts => ?_⟩
    · rw [hissued]
      exact hp0
    · rw [hissued]
      exact hmd
    · have hquiet : s.quiet.bootIssued = s.promStarted (s.prom 0) s.mdReg :=
        bootIssued_eq (s := s.quiet) (Nat.zero_le 2)
      rw [perform_boot, perform_boot, hissued, hquiet, hp0, hmd]

/-- A PROM whose first microinstruction arms the low OA register with ones. -/
def armingProm : Fin 512 → BitVec 64 :=
  promOf [(0o700#64 <<< 14) ||| (1#64 <<< 12) ||| (0o17#64 <<< 3)]

/-- Booted again after its first microinstruction, the machine executes
another word than the first of the PROM. -/
theorem boot_executes_merged_word :
    ∃ s : Engine Unit, Reached noBus (fun _ => True) s ∧ ¬ BootsFromProm noBus s := by
  have hrun : (perform noBus [.step, .step]
      (machineControlBoot (powerOn armingProm (fun _ => 0) ()))).map
      (fun s => (s.bootIssued.p0, s.prom 0)) =
      some (0o377777777#64, (0o700#64 <<< 14) ||| (1#64 <<< 12) ||| (0o17#64 <<< 3)) := by
    decide
  obtain ⟨s, hs, hwords⟩ := reached_of_perform hrun
  obtain ⟨hp0, hprom⟩ := Prod.mk.inj hwords
  refine ⟨s, hs, ?_⟩
  rintro ⟨⟨u, hu, hsame, -⟩, -⟩
  rw [firstExecuted_iff.mp hu, hp0, hprom] at hsame
  exact absurd hsame (by decide)

/-- Booted again while nothing is armed, it starts the PROM as it should. -/
theorem boots_from_prom_at_once :
    ∃ s : Engine Unit, Reached noBus (fun _ => True) s ∧ s.inhibit = true ∧
      BootsFromProm noBus s := by
  have hs : Reached noBus (fun _ => True)
      (machineControlBoot (powerOn armingProm (fun _ => 0) ())) := ⟨_, _, _, .refl⟩
  exact ⟨_, hs, rfl, (boots_from_prom_iff hs).mpr
    ⟨fun h => absurd h Bool.false_ne_true, fun h => absurd h Bool.false_ne_true,
      fun h => absurd rfl h⟩⟩

end Usim
