import Usim.CSharp.Operations
import Usim.CSharp.Step
import Usim.Lib.Masks

/-!
# The byte instructions

`byt` of `uexec.c` and `Byt` of `UCode.cs`: the deposit, the selective deposit and the
load of a field, bit by bit. The mask is that of the field for every field of a word.
-/

namespace Usim

open Lib

variable {β : Type}

/-! ### The mask and the rotation -/

/-- The bits of the mask of a field. -/
theorem getLsbD_msk {p0 : BitVec 64} {pos : Word} {w : ℕ} (hw : 1 ≤ w)
    (hwidth : (ir p0 5 5).toNat = w - 1) (hpos : pos.toNat + w ≤ 32) {i : ℕ} (hi : i < 32) :
    (msk p0 pos).getLsbD i = decide (pos.toNat ≤ i ∧ i < pos.toNat + w) := by
  have hleft : ((pos + ir p0 5 5) &&& 0o37).toNat = pos.toNat + w - 1 := by
    rw [toNat_and_mask (n := 5) _ _ rfl, BitVec.toNat_add, hwidth]
    omega
  have hshift : (31 - ((pos + ir p0 5 5) &&& 0o37)).toNat = 32 - (pos.toNat + w) := by
    rw [BitVec.toNat_sub, hleft, show BitVec.toNat (31 : Word) = 31 from rfl]
    omega
  have hones (k : ℕ) : (~~~0#32).getLsbD k = decide (k < 32) := by
    rw [BitVec.getLsbD_not, BitVec.getLsbD_zero, Bool.not_false, Bool.and_true]
  simp only [msk, BitVec.getLsbD_and, BitVec.getLsbD_ushiftRight, BitVec.getLsbD_shiftLeft, hshift,
    hones]
  grind

/-- The rotation that brings a field down. -/
theorem getLsbD_rol32_down (v : Word) {p i : ℕ} (hpi : p + i < 32) :
    (rol32 v ((32 - p) % 32)).getLsbD i = v.getLsbD (p + i) := by
  rw [rol32_eq_rotateLeft _ (Nat.mod_lt _ (by decide)),
    BitVec.getLsbD_rotateLeft_of_le (Nat.mod_lt _ (by decide))]
  rcases Nat.eq_zero_or_pos p with rfl | hpos
  · rw [Nat.zero_add] at hpi ⊢
    simp [hpi]
  · have hrotation : (32 - p) % 32 = 32 - p := Nat.mod_eq_of_lt (by omega)
    have hsource : 32 - (32 - p) + i = p + i := by omega
    rw [hrotation, decide_eq_true (show i < 32 - p by omega), cond_true, hsource]

/-- The rotation that brings a field up. -/
theorem getLsbD_rol32_up (v : Word) {p i : ℕ} (hp : p ≤ i) (hi : i < 32) :
    (rol32 v p).getLsbD i = v.getLsbD (i - p) := by
  rw [rol32_eq_rotateLeft _ (by omega), BitVec.getLsbD_rotateLeft_of_le (by omega)]
  grind

/-! ### The instructions -/

/-- The rotation of a byte instruction: a field of the instruction, or the byte that the
location counter points at. -/
def bytePosition (p0 : BitVec 64) (lc interruptControl : Word) : Word :=
  if ir p0 10 2 = 3 then lcbytemode p0 lc interruptControl else ir p0 0 5

/-- Every byte instruction of a mode, with a rotation and a width, writes a word that `P` relates
to its operands. -/
def BytWrites (port : VmPort β) (mrSrBits rotate w : ℕ) (P : Word → Word → Word → Prop) : Prop :=
  ∀ s : Engine β, (ir s.p0 12 2).toNat = mrSrBits → (ir s.p0 5 5).toNat = w - 1 →
    (bytePosition s.p0 s.lc s.interruptControl).toNat = rotate →
    ∃ mdata out, P s.mdata s.adata out ∧
      byt port s = writeDest port (ir s.p0 14 12) { s with mdata := mdata, out := out }

/-- The rotation in the C# port. -/
def UCode.bytePosition (p0 : BitVec 64) (lc interruptControl : Word) : Word :=
  if UCode.ir p0 10 2 = 3 then UCode.lcByteMode p0 lc interruptControl
  else (UCode.ir p0 0 5).setWidth 32

/-- The same of `Byt`. -/
def UCode.BytWrites (port : VmPort β) (mrSrBits rotate w : ℕ) (P : Word → Word → Word → Prop) :
    Prop :=
  ∀ u : UCode β, (UCode.ir u.p0 12 2).toNat = mrSrBits → (UCode.ir u.p0 5 5).toNat = w - 1 →
    (UCode.bytePosition u.p0 u.lc u.interruptControl).toNat = rotate →
    ∃ mData out, P u.mData u.aData out ∧ UCode.byt port u =
      UCode.writeDest port ((UCode.ir u.p0 14 12).setWidth 32) { u with mData := mData, out := out }

/-- `out` is `a` with the bits from `p` to `p + w - 1` replaced. -/
def FieldReplaced (p w : ℕ) (field : ℕ → Bool) (a out : Word) : Prop :=
  ∀ i < 32, out.getLsbD i = if p ≤ i ∧ i < p + w then field i else a.getLsbD i

/-- DPB: the field gets the low bits of M. -/
def Deposited (p w : ℕ) (m a out : Word) : Prop :=
  FieldReplaced p w (fun i => m.getLsbD (i - p)) a out

/-- SEL-DEP: the field gets the bits of M in their places. -/
def SelectDeposited (p w : ℕ) (m a out : Word) : Prop :=
  FieldReplaced p w (fun i => m.getLsbD i) a out

/-- LDB: the low bits are those of the field of M. -/
def Loaded (p w : ℕ) (m a out : Word) : Prop :=
  FieldReplaced 0 w (fun i => m.getLsbD (p + i)) a out

/-- What a byte instruction puts out. -/
def byteOut (p0 : BitVec 64) (mrSrBits pos m a : Word) : Word :=
  let mask := msk p0 (if mrSrBits &&& 2 ≠ 0 then pos else 0)
  ((if mrSrBits &&& 1 ≠ 0 then rol32 m pos.toNat else m) &&& mask) ||| (a &&& ~~~mask)

variable {p w : ℕ} {p0 : BitVec 64} {k pos : Word}

/-- The word of a mode that shifts the mask replaces the field at its position. -/
theorem fieldReplaced_byteOut (hw : 1 ≤ w) (hwidth : (ir p0 5 5).toNat = w - 1) (m a : Word)
    (hpos : (if k &&& 2 ≠ 0 then pos else 0).toNat = p) (hfield : p + w ≤ 32) :
    FieldReplaced p w (fun i => (if k &&& 1 ≠ 0 then rol32 m pos.toNat else m).getLsbD i) a
      (byteOut p0 k pos m a) := by
  intro i hi
  have hbound : (if k &&& 2 ≠ 0 then pos else 0).toNat + w ≤ 32 := hpos.symm ▸ hfield
  have hmask := getLsbD_msk hw hwidth hbound hi
  rw [hpos] at hmask
  rw [byteOut, BitVec.or_comm, Lib.getLsbD_merge _ _ _ hi, hmask]
  simp only [decide_eq_true_eq]

/-- A field with other bits that are the same ones. -/
theorem FieldReplaced.congr {f g : ℕ → Bool} {a out : Word} (h : FieldReplaced p w f a out)
    (hfg : ∀ i, p ≤ i → i < p + w → i < 32 → f i = g i) : FieldReplaced p w g a out := by
  intro i hi
  rw [h i hi]
  split
  · rename_i hin
    exact hfg i hin.1 hin.2 hi
  · rfl

/-- The three instructions, as they compute their words. -/
theorem byteOut_laws (hw : 1 ≤ w) (hfield : p + w ≤ 32) (hwidth : (ir p0 5 5).toNat = w - 1)
    (m a : Word) :
    (pos.toNat = p → Deposited p w m a (byteOut p0 3 pos m a)) ∧
      (pos.toNat = p → SelectDeposited p w m a (byteOut p0 2 pos m a)) ∧
      (pos.toNat = (32 - p) % 32 → Loaded p w m a (byteOut p0 1 pos m a)) := by
  refine ⟨fun hpos => ?_, fun hpos => ?_, fun hpos => ?_⟩
  · have hout := fieldReplaced_byteOut (k := 3) hw hwidth m a hpos hfield
    refine hout.congr fun i hlo _ hi => ?_
    change (rol32 m pos.toNat).getLsbD i = _
    rw [hpos]
    exact getLsbD_rol32_up m hlo hi
  · exact fieldReplaced_byteOut (k := 2) hw hwidth m a hpos hfield
  · have hunshifted : (if (1 : Word) &&& 2 ≠ 0 then pos else 0).toNat = 0 := rfl
    have hout := fieldReplaced_byteOut hw hwidth m a hunshifted (by omega)
    refine hout.congr fun i _ hhi hi => ?_
    change (rol32 m pos.toNat).getLsbD i = _
    rw [hpos]
    exact getLsbD_rol32_down m (by omega)

/-- `byt` writes that word. -/
theorem byt_eq (port : VmPort β) (s : Engine β) (h : ir s.p0 12 2 ≠ 0) :
    ∃ mdata, byt port s = writeDest port (ir s.p0 14 12)
      { s with
        mdata := mdata
        out := byteOut s.p0 (ir s.p0 12 2) (bytePosition s.p0 s.lc s.interruptControl)
          s.mdata s.adata } := by
  refine ⟨if ir s.p0 12 2 &&& 1 ≠ 0 then
    rol32 s.mdata (bytePosition s.p0 s.lc s.interruptControl).toNat else s.mdata, ?_⟩
  change writeDest port _ _ = _
  rw [if_neg h]
  rfl

/-- The modes of the three instructions. -/
theorem mode_cases {k : Word} (hlt : k.toNat < 4) (h : k ≠ 0) : k = 1 ∨ k = 2 ∨ k = 3 := by
  have hvalue (n : ℕ) (hn : n < 4) : k = BitVec.ofNat 32 n ↔ k.toNat = n := by
    rw [← BitVec.toNat_inj, BitVec.toNat_ofNat, Nat.mod_eq_of_lt (by omega)]
  have hzero : ¬k.toNat = 0 := fun h0 => h ((hvalue 0 (by decide)).mpr h0)
  have hcases : k.toNat = 1 ∨ k.toNat = 2 ∨ k.toNat = 3 := by omega
  exact hcases.imp (hvalue 1 (by decide)).mpr
    (Or.imp (hvalue 2 (by decide)).mpr (hvalue 3 (by decide)).mpr)

/-- `Byt` writes that word. -/
theorem UCode.byt_eq (port : VmPort β) (u : UCode β) (h : Usim.ir u.p0 12 2 ≠ 0) :
    ∃ mData, UCode.byt port u = UCode.writeDest port ((UCode.ir u.p0 14 12).setWidth 32)
      { u with
        mData := mData
        out := byteOut u.p0 (Usim.ir u.p0 12 2)
          (UCode.bytePosition u.p0 u.lc u.interruptControl) u.mData u.aData } := by
  have hmode : (UCode.ir u.p0 12 2).setWidth 32 = Usim.ir u.p0 12 2 :=
    UCode.ir_cast rfl 12 2 (by decide) (by decide)
  have hmask (pos : Word) : UCode.msk u.p0 pos = Usim.msk u.p0 pos := UCode.msk_eq rfl pos
  generalize hpos : UCode.bytePosition u.p0 u.lc u.interruptControl = pos
  refine ⟨if Usim.ir u.p0 12 2 &&& 1 ≠ 0 then rol32 u.mData pos.toNat else u.mData, ?_⟩
  unfold UCode.bytePosition at hpos
  have hget (f : UCode β → Sharp β Unit) : (get >>= f) u = f u u := rfl
  obtain hk | hk | hk := mode_cases (ir_lt u.p0 12 (show 2 < 32 by decide)) h
  all_goals
    rw [UCode.byt, hget]
    simp only [hmode, hmask, hpos, hk, UCode.rol32_eq, byteOut]
    rfl

/-- A mode is known by its number. -/
theorem mode_eq {k : Word} {n : ℕ} (hk : k.toNat = n) : k = BitVec.ofNat 32 n := by
  rw [← hk, BitVec.ofNat_toNat, BitVec.setWidth_eq]

/-- What the word of a mode is like, both programs write. -/
theorem bytWrites_of_byteOut (port : VmPort β) {n rotate w : ℕ} (hn : BitVec.ofNat 32 n ≠ 0)
    {P : Word → Word → Word → Prop}
    (h : ∀ (p0 : BitVec 64) (pos m a : Word), (ir p0 5 5).toNat = w - 1 → pos.toNat = rotate →
      P m a (byteOut p0 (BitVec.ofNat 32 n) pos m a)) :
    BytWrites port n rotate w P ∧ UCode.BytWrites port n rotate w P := by
  constructor
  · intro s hmode hwidth hpos
    have hk := mode_eq hmode
    obtain ⟨mdata, hbyt⟩ := byt_eq port s (hk ▸ hn)
    exact ⟨mdata, _, hk ▸ h s.p0 _ s.mdata s.adata hwidth hpos, hbyt⟩
  · intro u hmode hwidth hpos
    rw [UCode.toNat_ir_eq rfl 12 2 (by decide) (by decide)] at hmode
    rw [UCode.toNat_ir_eq rfl 5 5 (by decide) (by decide)] at hwidth
    have hk := mode_eq hmode
    obtain ⟨mData, hbyt⟩ := UCode.byt_eq port u (hk ▸ hn)
    exact ⟨mData, _, hk ▸ h u.p0 _ u.mData u.aData hwidth hpos, hbyt⟩

/-- DPB, SEL-DEP and LDB on a field write the words that deposit and load it, in both programs. A
field that was deposited is loaded as it was, and a deposit leaves the other bits. -/
theorem byte_laws (port : VmPort β) {p w : ℕ} (hw : 1 ≤ w) (hfield : p + w ≤ 32) :
    (BytWrites port 3 p w (Deposited p w) ∧ UCode.BytWrites port 3 p w (Deposited p w)) ∧
    (BytWrites port 2 p w (SelectDeposited p w) ∧
      UCode.BytWrites port 2 p w (SelectDeposited p w)) ∧
    (BytWrites port 1 ((32 - p) % 32) w (Loaded p w) ∧
      UCode.BytWrites port 1 ((32 - p) % 32) w (Loaded p w)) ∧
    ∀ m a out : Word, Deposited p w m a out →
      (∀ a' out' : Word, Loaded p w out a' out' → ∀ i < w, out'.getLsbD i = m.getLsbD i) ∧
      ∀ i < 32, i < p ∨ p + w ≤ i → out.getLsbD i = a.getLsbD i := by
  refine ⟨bytWrites_of_byteOut port (by decide) fun p0 pos m a hwidth hpos => ?_,
    bytWrites_of_byteOut port (by decide) fun p0 pos m a hwidth hpos => ?_,
    bytWrites_of_byteOut port (by decide) fun p0 pos m a hwidth hpos => ?_,
    fun m a out hout => ⟨fun a' out' hout' i hi => ?_, fun i hi houtside => ?_⟩⟩
  · exact (byteOut_laws hw hfield hwidth m a).1 hpos
  · exact (byteOut_laws hw hfield hwidth m a).2.1 hpos
  · exact (byteOut_laws hw hfield hwidth m a).2.2 hpos
  · have hloaded : out'.getLsbD i = out.getLsbD (p + i) := by
      rw [hout' i (by omega), if_pos (by omega)]
    have hdeposited : out.getLsbD (p + i) = m.getLsbD (p + i - p) := by
      rw [hout (p + i) (by omega), if_pos (by omega)]
    rw [hloaded, hdeposited, Nat.add_sub_cancel_left]
  · rw [hout i hi, if_neg (by omega)]

/-- The field of all 32 bits at position 0. -/
theorem byte_laws_whole_word : BytWrites noBus 3 0 32 (Deposited 0 32) ∧
    UCode.BytWrites noBus 3 0 32 (Deposited 0 32) :=
  (byte_laws noBus (by decide) (by decide)).1

end Usim
