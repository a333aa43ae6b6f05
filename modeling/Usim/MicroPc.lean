import Usim.Invariants

/-!
# The range of the micro PC

Every transfer masks its target to 14 bits and the increment wraps. Only
DISPATCH steps the micro PC back, and with P and R it does not overwrite it, so
the micro PC stays in range unless such a DISPATCH is executed at 0.
-/

namespace Usim

open Lib

variable {β : Type} {port : VmPort β}

/-- The micro PC is an address of the control memory. -/
def Core.PcInRange (c : Core) : Prop := c.npc.toNat < 2 ^ 14

/-- The step from `s` executes a DISPATCH with `IR<25>` set whose dispatch word
has N, P and R, when the micro PC is 0: it leaves the micro PC one below. -/
def DispatchUnderflows (s : Engine β) : Prop :=
  s.inhibit = false ∧ s.npc = 0o37777 ∧ ∃ p1 t word u, s.nextWord = .ok p1 ∧
    decode (s.issued p1) = .ok () t ∧ t.op.toNat = 2 ∧ ir t.p0 10 2 ≠ 2 ∧
    dispatchWord t = .ok word u ∧ ir u.p0 25 1 ≠ 0 ∧
    word.getLsbD 14 = true ∧ word.getLsbD 15 = true ∧ word.getLsbD 16 = true

/-- The increment of the micro PC wraps. -/
theorem toNat_nextPc {npc : Word} (h : npc.toNat < 2 ^ 14) :
    (nextPc npc).toNat = (npc.toNat + 1) % 2 ^ 14 := by
  unfold nextPc
  split
  · rename_i hlast
    rw [hlast]
    rfl
  · rename_i hlast
    have hne : npc.toNat ≠ 0o37777 := fun heq => hlast (BitVec.eq_of_toNat_eq heq)
    have hadd : (npc + 1).toNat = (npc.toNat + 1) % 2 ^ 32 := BitVec.toNat_add npc 1
    rw [hadd]
    omega

/-- The micro PC after an increment is in range. -/
theorem nextPc_lt {npc : Word} (h : npc.toNat < 2 ^ 14) : (nextPc npc).toNat < 2 ^ 14 := by
  rw [toNat_nextPc h]
  exact Nat.mod_lt _ (by decide)

/-- The micro PC is 0 after the last address only. -/
theorem nextPc_eq_zero {npc : Word} (h : npc.toNat < 2 ^ 14) (hzero : nextPc npc = 0) :
    npc = 0o37777 := by
  have hsum := toNat_nextPc h
  rw [hzero, show (0 : Word).toNat = 0 from rfl] at hsum
  apply BitVec.eq_of_toNat_eq
  show npc.toNat = 0o37777
  omega

/-- Register effects leave the micro PC. -/
theorem RegisterEffect.npc_eq {c c' : Core} (h : RegisterEffect c c') : c'.npc = c.npc := by
  cases h <;> rfl

/-- Effects leave the microinstruction. -/
theorem Effect.p0_eq {c c' : Core} (h : Effect c c') : c'.p0 = c.p0 := by
  cases h with
  | decrement => rfl
  | transfer h =>
    cases h with
    | register h => cases h <;> rfl
    | resume => rfl
    | transfer => rfl

/-- Transfers keep the micro PC in range. -/
theorem TransferEffect.pcInRange {c c' : Core} (h : TransferEffect c c') (hc : c.PcInRange) :
    c'.PcInRange := by
  cases h with
  | register h =>
    rw [Core.PcInRange, h.npc_eq]
    exact hc
  | resume => exact hc
  | transfer h => exact h

/-- Register effects leave a micro PC. -/
theorem Moves.npc {α : Type} {s : Engine β} {m : Micro β α}
    (hm : Moves port RegisterEffect s m) {npc : Word} (hs : s.npc = npc) :
    Post m s (fun _ t => t.npc = npc) fun _ _ => True :=
  (hm.keeps (P := fun c => c.npc = npc) (fun _ _ h hc => h.npc_eq.trans hc) hs).mono
    (fun _ _ h => h) fun _ _ _ => trivial

/-- Transfers keep the micro PC in range. -/
theorem Moves.pcInRange {α : Type} {s : Engine β} {m : Micro β α}
    (hm : Moves port TransferEffect s m) (hs : s.npc.toNat < 2 ^ 14) :
    Post m s (fun _ t => t.npc.toNat < 2 ^ 14) fun _ _ => True :=
  (hm.keeps (P := Core.PcInRange) (fun _ _ h hc => h.pcInRange hc) hs).mono
    (fun _ _ h => h) fun _ _ _ => trivial

/-- The micro PC when DISPATCH steps it back. -/
theorem toNat_stepped_lt {npc : Word} (h : npc.toNat < 2 ^ 14) (hpos : npc ≠ 0) :
    (npc - 1).toNat < 2 ^ 14 := by
  have hne : npc.toNat ≠ 0 := fun heq => hpos (BitVec.eq_of_toNat_eq heq)
  have hle : (1 : Word) ≤ npc := BitVec.le_def.mpr (Nat.one_le_iff_ne_zero.mpr hne)
  rw [BitVec.toNat_sub_of_le hle]
  exact (Nat.sub_le _ _).trans_lt h

/-- The transfer at the end of a DISPATCH puts the micro PC in range. -/
theorem post_transfer_npc {s : Engine β} {p n : Bool} {r : Prop} [Decidable r] {word : Word} :
    Post (do
      doWhen p (pushReturn n)
      let target ← (if r then popTarget port else pure (word &&& 0o37777))
      modify fun s => { s with npc := target, popj := false }) s
      (fun _ t => t.npc.toNat < 2 ^ 14) fun _ _ => True := by
  refine Post.bind (Post.always (fun _ _ => trivial) fun _ _ => trivial) fun _ t _ => ?_
  refine Post.bind (Q := fun w _ => w.toNat < 2 ^ 14) ?_ fun w t hw => post_modify.mpr hw
  exact post_ite.mpr ⟨fun _ => post_popTarget_lt,
    fun _ => (post_pure _).mpr (toNat_and_037777_lt word)⟩

/-- The second half of a DISPATCH leaves the micro PC in range, unless it steps
back from 0 and does not transfer. -/
theorem post_dispatchTransfer_npc {s : Engine β} {word : Word} (hs : s.npc.toNat < 2 ^ 14)
    (hslip : s.npc = 0 → ir s.p0 25 1 ≠ 0 → word.getLsbD 14 = true →
      ¬ (word.getLsbD 15 = true ∧ word.getLsbD 16 = true)) :
    Post (dispatchTransfer port word) s (fun _ t => t.npc.toNat < 2 ^ 14) fun _ _ => True := by
  by_cases htransfer : word.getLsbD 15 = true ∧ word.getLsbD 16 = true
  · have hstep (t : Engine β) (ht : t.npc = s.npc) : ir s.p0 25 1 ≠ 0 ∧ word.getLsbD 14 = true →
        (t.npc - 1).toNat < 2 ^ 14 := by
      rintro ⟨hback, hn⟩
      rw [ht]
      exact toNat_stepped_lt hs fun hzero => hslip hzero hback hn htransfer
    refine post_bind.mpr (post_get.mpr ?_)
    refine Post.bind (Q := fun _ t => t.npc.toNat < 2 ^ 14) ?_ fun _ t ht => ?_
    · exact post_doWhen.mpr ⟨fun h => post_modify.mpr (hstep s rfl h), fun _ => hs⟩
    refine Post.bind (Q := fun _ t => t.npc.toNat < 2 ^ 14) ?_ fun _ t ht => ?_
    · refine post_doWhen.mpr ⟨fun _ => post_bind.mpr ?_, fun _ => ht⟩
      exact ((moves_advanceLC 0).register.pcInRange ht).mono (fun _ _ h => (post_pure ()).mpr h)
        fun _ _ h => h
    refine Post.bind (Q := fun _ t => t.npc.toNat < 2 ^ 14) ?_ fun _ t ht => ?_
    · exact post_doWhen.mpr ⟨fun _ => post_modify.mpr ht, fun _ => ht⟩
    · exact post_doWhen.mpr ⟨fun h => absurd htransfer h, fun _ => ht⟩
  · refine post_bind.mpr (post_get.mpr ?_)
    refine Post.bind (Post.always (fun _ _ => trivial) fun _ _ => trivial) fun _ t _ => ?_
    refine Post.bind (Post.always (fun _ _ => trivial) fun _ _ => trivial) fun _ t _ => ?_
    refine Post.bind (Post.always (fun _ _ => trivial) fun _ _ => trivial) fun _ t _ => ?_
    exact post_doWhen.mpr ⟨fun _ => post_transfer_npc, fun h => absurd htransfer h⟩

/-- DISPATCH leaves the micro PC in range, unless it steps back from 0 and does
not transfer. -/
theorem post_dsp_npc {s : Engine β} (hs : s.npc.toNat < 2 ^ 14)
    (hslip : s.npc = 0 → ir s.p0 10 2 ≠ 2 → ∀ word u, dispatchWord s = .ok word u →
      ir u.p0 25 1 ≠ 0 → word.getLsbD 14 = true →
      ¬ (word.getLsbD 15 = true ∧ word.getLsbD 16 = true)) :
    Post (dsp port) s (fun _ t => t.npc.toNat < 2 ^ 14) fun _ _ => True := by
  refine post_bind.mpr (post_get.mpr (post_ite.mpr ⟨fun _ => ?_, fun hread => ?_⟩))
  · refine post_bind.mpr (post_fromExcept.mpr ⟨fun dmem _ => ?_, fun _ _ => trivial⟩)
    exact post_modify.mpr hs
  · have hword : Post dispatchWord s (fun word u => dispatchWord s = .ok word u ∧ u.npc = s.npc)
        fun _ _ => True :=
      ((Post.self dispatchWord s).and
        (Moves.npc (moves_dispatchWord : Moves port _ s dispatchWord) rfl)).mono
        (fun _ _ h => h) fun _ _ _ => trivial
    refine hword.bind fun word u ⟨hok, hnpc⟩ => post_dispatchTransfer_npc ?_ fun hzero => ?_
    · rw [hnpc]
      exact hs
    · exact hslip (hnpc ▸ hzero) hread word u hok

/-- The operation of a microinstruction leaves the micro PC in range, unless a
DISPATCH steps it back from 0 and does not transfer. -/
theorem post_operate_npc {s : Engine β} (hs : s.npc.toNat < 2 ^ 14) (hop : s.op = ir s.p0 43 2)
    (hslip : s.npc = 0 → s.op.toNat = 2 → ir s.p0 10 2 ≠ 2 → ∀ word u,
      dispatchWord s = .ok word u → ir u.p0 25 1 ≠ 0 → word.getLsbD 14 = true →
      ¬ (word.getLsbD 15 = true ∧ word.getLsbD 16 = true)) :
    Post (operate port) s (fun _ t => t.npc.toNat < 2 ^ 14) fun _ _ => True := by
  by_cases hdsp : s.op.toNat = 2
  · refine post_bind.mpr (post_get.mpr ?_)
    rw [hdsp]
    exact post_dsp_npc hs fun hzero => hslip hzero hdsp
  · exact (moves_operate_of_ne hop hdsp).pcInRange hs

/-- A step leaves the micro PC in range, unless a DISPATCH steps it back from 0
and does not transfer. -/
theorem post_uexecStep_npc {s : Engine β} (hs : s.npc.toNat < 2 ^ 14)
    (hslip : ¬ DispatchUnderflows s) :
    Post (uexecStep port) s (fun _ t => t.npc.toNat < 2 ^ 14) fun _ _ => True := by
  refine post_uexecStep.mpr ⟨fun p1 hp1 => ?_, fun _ _ => trivial⟩
  have hskipped : (s.skipped p1).npc = nextPc s.npc := congrArg Core.npc (s.core_skipped p1)
  have hissued : (s.issued p1).npc = nextPc s.npc := congrArg Core.npc (s.core_issued p1)
  have hnext := nextPc_lt hs
  cases hinhibit : s.inhibit with
  | true =>
    show (s.skipped p1).npc.toNat < 2 ^ 14
    rw [hskipped]
    exact hnext
  | false =>
    have hdecode : Post decode (s.issued p1) (fun _ t => decode (s.issued p1) = .ok () t ∧
        t.npc = nextPc s.npc ∧ t.op = ir t.p0 43 2) fun _ _ => True :=
      ((Post.self decode (s.issued p1)).and
        ((Moves.npc (moves_decode : Moves port _ (s.issued p1) decode) hissued).and
          post_decode_op)).mono (fun _ _ h => h) fun _ _ _ => trivial
    refine hdecode.bind fun _ t ⟨hok, hnpc, hop⟩ => ?_
    have hoperate : Post (operate port) t (fun _ u => u.npc.toNat < 2 ^ 14) fun _ _ => True := by
      refine post_operate_npc (hnpc ▸ hnext) hop
        fun hzero hdsp hread word u hword hback hn hpr => ?_
      have hlast : s.npc = 0o37777 := nextPc_eq_zero hs (hnpc ▸ hzero)
      exact hslip ⟨hinhibit, hlast, p1, t, word, u, hp1, hok, hdsp, hread, hword, hback, hn, hpr⟩
    exact hoperate.bind fun _ u hu => moves_finishPopj.pcInRange hu

/-- The micro PC is in range in every state reached by a run in which no
DISPATCH steps it back from 0 without a transfer. -/
theorem Reached.npc_lt {guard : Engine β → Prop} (hguard : ∀ s, guard s → ¬ DispatchUnderflows s)
    {s : Engine β} (hs : Reached port guard s) : s.npc.toNat < 2 ^ 14 :=
  hs.induction (fun _ _ _ => Nat.two_pow_pos 14)
    (fun s _ hs hg h => (post_uexecStep_npc hs (hguard s hg)).ok h)
    (fun _ _ => Nat.two_pow_pos 14) fun _ _ hs => hs

end Usim
