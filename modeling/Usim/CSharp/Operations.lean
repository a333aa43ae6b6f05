import Usim.CSharp.Step
import Usim.Translation
import Usim.Uexec.Step

/-!
# The operations of the C# port agree with those of the C engine

The pure parts of `UCode.cs` on a microinstruction whose bits 47-0 are those of
the microinstruction of the C engine.
-/

namespace Usim

/-- Two microinstructions with the same bits 47-0. -/
def SameWord (p q : BitVec 64) : Prop := p.setWidth 48 = q.setWidth 48

namespace UCode

/-- A field of the port as a number. -/
theorem toNat_ir (p : BitVec 64) (pos len : ℕ) (hlen : len < 32) :
    (ir p pos len).toNat = p.toNat / 2 ^ pos % 2 ^ len := by
  have hpow : 2 ^ len < 2 ^ 64 := Nat.pow_lt_pow_right (by decide) (by omega)
  have hmask : ((1#64 <<< len) - 1).toNat = 2 ^ len - 1 := by
    have hpos : 0 < 2 ^ len := Nat.two_pow_pos len
    rw [BitVec.toNat_sub, BitVec.toNat_shiftLeft, Nat.shiftLeft_eq,
      show BitVec.toNat 1#64 = 1 from rfl, one_mul,
      show BitVec.toNat (1 : BitVec 64) = 1 from rfl, Nat.mod_eq_of_lt hpow]
    omega
  rw [ir, BitVec.toNat_and, hmask, Nat.and_two_pow_sub_one_eq_mod, BitVec.toNat_ushiftRight,
    Nat.shiftRight_eq_div_pow]

variable {p q : BitVec 64}

/-- A field below bit 48 is that of the C engine. -/
theorem toNat_ir_eq (h : SameWord p q) (pos len : ℕ) (hlen : len < 32)
    (hfield : pos + len ≤ 48) : (ir p pos len).toNat = (Usim.ir q pos len).toNat := by
  have hlow : p.toNat % 2 ^ 48 = q.toNat % 2 ^ 48 := by
    have hnat := congrArg BitVec.toNat h
    rwa [BitVec.toNat_setWidth, BitVec.toNat_setWidth] at hnat
  have hfields (x : ℕ) : x / 2 ^ pos % 2 ^ len = x % 2 ^ 48 % 2 ^ (pos + len) / 2 ^ pos := by
    rw [Nat.mod_mod_of_dvd _ (Nat.pow_dvd_pow 2 hfield), Nat.pow_add, Nat.mod_mul_right_div_self]
  rw [toNat_ir p pos len hlen, ir_toNat q pos hlen, hfields, hlow, ← hfields]

/-- A field below bit 48, cast to `uint`. -/
theorem ir_cast (h : SameWord p q) (pos len : ℕ) (hlen : len < 32) (hfield : pos + len ≤ 48) :
    (ir p pos len).setWidth 32 = Usim.ir q pos len := by
  apply BitVec.eq_of_toNat_eq
  have hlt := (Usim.ir q pos len).isLt
  rw [BitVec.toNat_setWidth, toNat_ir_eq h pos len hlen hfield, Nat.mod_eq_of_lt hlt]

/-- A field below bit 48 compared with a constant. -/
theorem ir_eq_iff (h : SameWord p q) (pos len : ℕ) (hlen : len < 32) (hfield : pos + len ≤ 48)
    {k : ℕ} (hk : k < 2 ^ 32) :
    ir p pos len = BitVec.ofNat 64 k ↔ Usim.ir q pos len = BitVec.ofNat 32 k := by
  have hk' : k < 2 ^ 64 := by omega
  rw [← BitVec.toNat_inj, ← BitVec.toNat_inj, toNat_ir_eq h pos len hlen hfield, BitVec.toNat_ofNat,
    BitVec.toNat_ofNat, Nat.mod_eq_of_lt hk, Nat.mod_eq_of_lt hk']

/-- `Rol32` is `rol32`. -/
theorem rol32_eq (v : Word) (bits : ℕ) : rol32 v bits = Usim.rol32 v bits := by
  unfold rol32 Usim.rol32
  by_cases h : bits = 0
  · subst h
    simp
  · simp only [if_neg h]

/-- `LogiOps` is `logiOps`. -/
theorem logiOps_eq (op mData aData aluOut : Word) :
    logiOps op mData aData aluOut = Usim.logiOps op mData aData aluOut := rfl

/-- `ArithOps` is `arithOps`. -/
theorem arithOps_eq (op mData aData : Word) (cin : Bool) (aluOut aluCarry : Word) :
    arithOps op mData aData cin aluOut aluCarry =
      Usim.arithOps op mData aData cin aluOut aluCarry := rfl

/-- `DivOps` is `divOps`. -/
theorem divOps_eq (op mData aData : Word) (cin : Bool) (q aluOut aluCarry : Word) :
    divOps op mData aData cin q aluOut aluCarry =
      Usim.divOps op mData aData cin q aluOut aluCarry := rfl

/-- The selection of the operation is that of `alu`. -/
theorem aluResult_eq (aluop mData aData : Word) (cin : Bool) (q aluOut : Word) :
    aluResult aluop mData aData cin q aluOut = Usim.aluResult aluop mData aData cin q aluOut := by
  unfold aluResult Usim.aluResult
  by_cases hlogi : aluop ≤ 15
  · rw [if_pos hlogi, if_pos hlogi, logiOps_eq]
  · have hlow : 16 ≤ aluop := by
      have hnat : ¬ aluop.toNat ≤ 15 := hlogi
      show 16 ≤ aluop.toNat
      omega
    rw [if_neg hlogi, if_neg hlogi]
    by_cases harith : aluop ≤ 31
    · rw [if_pos ⟨hlow, harith⟩, if_pos harith, arithOps_eq]
    · rw [if_neg (fun h => harith h.2), if_neg harith]
      split
      · exact divOps_eq aluop mData aData cin q aluOut 0
      · rename_i hnone
        have hne (k : ℕ) (hk : BitVec.ofNat 32 k = 32 ∨ BitVec.ofNat 32 k = 33 ∨
            BitVec.ofNat 32 k = 37 ∨ BitVec.ofNat 32 k = 41) : aluop.toNat ≠ k := by
          rintro rfl
          rw [BitVec.ofNat_toNat, BitVec.setWidth_eq] at hk
          exact hnone hk
        unfold Usim.divOps
        split
        · rename_i h
          exact absurd h (hne 32 (by decide))
        · rename_i h
          exact absurd h (hne 33 (by decide))
        · rename_i h
          exact absurd h (hne 37 (by decide))
        · rename_i h
          exact absurd h (hne 41 (by decide))
        · rfl

/-- `QControl` is `qControl`. -/
theorem nextQ_eq (h : SameWord p q) (aluOut r : Word) :
    nextQ p aluOut r = Usim.nextQ q aluOut r := by
  unfold nextQ Usim.nextQ
  rw [toNat_ir_eq h 0 2 (by decide) (by decide)]
  generalize (Usim.ir q 0 2).toNat = control
  match control with
  | 0 => rfl
  | 1 =>
    show (if _ then _ else _) = _ ||| (if _ then _ else _)
    split
    · rfl
    · exact BitVec.or_zero.symm
  | 2 =>
    show (if _ then _ else _) = _ ||| (if _ then _ else _)
    split
    · rfl
    · exact BitVec.or_zero.symm
  | 3 => rfl
  | _ + 4 => rfl

/-- Bits 13-12 of the microinstruction. -/
theorem outSelect_eq (h : SameWord p q) : ((p >>> 12) &&& 3).toNat = ((q >>> 12) &&& 3).toNat := by
  have hmask (x : BitVec 64) : ((x >>> 12) &&& 3).toNat = x.toNat / 2 ^ 12 % 2 ^ 2 :=
    toNat_ir x 12 2 (by decide)
  have hfield := toNat_ir_eq h 12 2 (by decide) (by decide)
  rw [toNat_ir p 12 2 (by decide), ir_toNat q 12 (by decide)] at hfield
  rw [hmask, hmask, hfield]

/-- Bits 4-0 of the microinstruction. -/
theorem rotation_eq (h : SameWord p q) : (p &&& 0x1F).toNat = (q &&& 0o37).toNat := by
  have hmask (x : BitVec 64) : (x &&& 0x1F).toNat = x.toNat / 2 ^ 0 % 2 ^ 5 := by
    rw [pow_zero, Nat.div_one]
    exact (BitVec.toNat_and _ _).trans (Nat.and_two_pow_sub_one_eq_mod _ 5)
  have hfield := toNat_ir_eq h 0 5 (by decide) (by decide)
  rw [toNat_ir p 0 5 (by decide), ir_toNat q 0 (by decide)] at hfield
  exact (hmask p).trans (hfield.trans (hmask q).symm)

/-- `OutControl` is `outControl`. -/
theorem nextOut_eq (h : SameWord p q) (mData aluOut aluCarry oldQ out : Word) :
    nextOut p mData aluOut aluCarry oldQ out = Usim.nextOut q mData aluOut aluCarry oldQ := by
  have hselect : ((q >>> 12) &&& 3).toNat < 4 := by
    rw [← outSelect_eq h]
    exact (toNat_ir p 12 2 (by decide)).trans_lt (Nat.mod_lt _ (by decide))
  unfold nextOut Usim.nextOut
  rw [outSelect_eq h, rotation_eq h, rol32_eq]
  generalize ((q >>> 12) &&& 3).toNat = select at hselect
  match select with
  | 0 => rfl
  | 1 => rfl
  | 2 => rfl
  | 3 => rfl
  | k + 4 => omega

/-- A bit of the microinstruction, as `LcByteMode` reads it. -/
theorem lcByteMode_bit (h : SameWord p q) (pos : ℕ) (hpos : pos < 48) :
    (p >>> pos).setWidth 32 &&& 1#32 = ((q >>> pos) &&& 1).setWidth 32 := by
  have hone : (1 : BitVec 64).setWidth 32 = 1#32 := by decide
  have hp : (p >>> pos).setWidth 32 &&& 1#32 = (ir p pos 1).setWidth 32 := by
    rw [ir, BitVec.setWidth_and]
    rfl
  have hq : ((q >>> pos) &&& 1).setWidth 32 = Usim.ir q pos 1 := rfl
  rw [hp, hq]
  exact ir_cast h pos 1 (by decide) hpos

/-- Low bits of the microinstruction. -/
theorem low_eq (h : SameWord p q) (len : ℕ) (hlen : len < 32) {mask : BitVec 64}
    (hmask : (1#64 <<< len) - 1 = mask) : (p &&& mask).setWidth 32 = (q &&& mask).setWidth 32 := by
  have hfield := ir_cast h 0 len hlen (by omega)
  rw [ir, Usim.ir, hmask, BitVec.ushiftRight_zero, BitVec.ushiftRight_zero] at hfield
  exact hfield

/-- `LcByteMode` is `lcbytemode`. -/
theorem lcByteMode_eq (h : SameWord p q) (lc interruptControl : Word) :
    lcByteMode p lc interruptControl = lcbytemode q lc interruptControl := by
  have hlow3 : (p &&& 7).setWidth 32 = ((q &&& 0o07).setWidth 32 : Word) :=
    low_eq h 3 (by decide) (by decide)
  have hlow4 : (p &&& 0xF).setWidth 32 = ((q &&& 0o17).setWidth 32 : Word) :=
    low_eq h 4 (by decide) (by decide)
  have hbit4 := lcByteMode_bit h 4 (by decide)
  have hbit3 := lcByteMode_bit h 3 (by decide)
  have hflip (x : Word) : (if x = 0 then 1#32 else 0#32) = if x ≠ 0 then 0#32 else 1#32 := by
    by_cases hx : x = 0
    · rw [if_pos hx, if_neg (fun hne => hne hx)]
    · rw [if_neg hx, if_pos hx]
  unfold lcByteMode lcbytemode
  split
  · dsimp only
    rw [hlow3, BitVec.ushiftRight_zero]
    rw [show (1 : Word) = 1#32 from rfl, hbit4, hbit3]
  · dsimp only
    rw [hlow4, hflip]
    rw [show (1 : Word) = 1#32 from rfl, hbit4]

/-- `Msk` is `msk`. -/
theorem msk_eq (h : SameWord p q) (pos : Word) : msk p pos = Usim.msk q pos := by
  unfold msk
  rw [ir_cast h 5 5 (by decide) (by decide)]
  rfl

/-- The rotation of `Dsp` and `Byt` is that of `dsp` and `byt`. -/
theorem position_eq (h : SameWord p q) (lc interruptControl : Word) :
    (if ir p 10 2 = 3 then lcByteMode p lc interruptControl else (ir p 0 5).setWidth 32) =
      if Usim.ir q 10 2 = 3 then lcbytemode q lc interruptControl else Usim.ir q 0 5 := by
  rw [lcByteMode_eq h, ir_cast h 0 5 (by decide) (by decide)]
  exact if_congr (ir_eq_iff h 10 2 (by decide) (by decide) (by decide)) rfl rfl

/-- The exception of the port in the place of a fault of the C engine. -/
def thrown : Fault → Thrown
  | .subscript _ index => .indexOutOfRange index
  | .err call => .bus (.err call)

/-- Changing the errors of a sequence. -/
theorem mapError_bind {ε δ α γ : Type} (x : Except ε α) (f : α → Except ε γ) (g : ε → δ) :
    (x >>= f).mapError g = x.mapError g >>= fun a => (f a).mapError g := by
  cases x <;> rfl

/-- Reading an element. -/
theorem item_eq {n : ℕ} {α : Type} (name : ArrayName) (a : Fin n → α) (i : Word) :
    item a i = (subscript name a i).mapError thrown := by
  unfold item subscript
  split <;> rfl

/-- Writing an element. -/
theorem setItem_eq {n : ℕ} {α : Type} (name : ArrayName) (a : Fin n → α) (i : Word) (v : α) :
    setItem a i v = (assign name a i v).mapError thrown := by
  unfold setItem assign
  split <;> rfl

/-- `Uvmem.Vtop` is `uvmem_vtop`. -/
theorem vtop_eq (m : Maps) (vaddr : Word) :
    vtop m vaddr = (uvmemVtop m vaddr).mapError thrown := by
  simp only [vtop, uvmemVtop, item_eq .l1Map m.l1Map, item_eq .l2Map m.l2Map, mapError_bind]
  rfl

/-- Changing the errors of a conditional. -/
theorem mapError_ite {ε δ α : Type} {c : Prop} [Decidable c] (x y : Except ε α) (g : ε → δ) :
    (if c then x else y).mapError g = if c then x.mapError g else y.mapError g := by
  split <;> rfl

/-- `Uvmem.WriteMap` is `uvmem_write_map`. -/
theorem writeMap_eq (m : Maps) (vma md : Word) :
    writeMap m vma md = (uvmemWriteMap m vma md).mapError thrown := by
  simp only [writeMap, uvmemWriteMap, item_eq .l1Map, setItem_eq .l1Map m.l1Map,
    setItem_eq .l2Map (_ : Fin 1024 → Word), mapError_bind, mapError_ite]
  rfl

/-- The mask of `Dsp` is that of `dsp`. -/
theorem dispatchMask_eq (len : Word) : dispatchMask len = Usim.dispatchMask len := rfl

/-- The map bits of `Dsp` are those of `dsp`. -/
theorem dispatchMapBits_eq (h : SameWord p q) (bits : Word) :
    dispatchMapBits (ir p 8 2).toNat bits = Usim.dispatchMapBits (Usim.ir q 8 2) bits := by
  rw [toNat_ir_eq h 8 2 (by decide) (by decide)]
  rfl

/-- A bit of a word, as `Dsp` tests it. -/
theorem shift_and_one_ne_zero (w : Word) (n : ℕ) : (w >>> n) &&& 1 ≠ 0 ↔ w.getLsbD n = true := by
  have hbit : (w >>> n) &&& 1 = (BitVec.ofBool (w.getLsbD n)).setWidth 32 := by
    rw [show (1 : Word) = 1#32 from rfl, BitVec.and_one_eq_setWidth_ofBool_getLsbD,
      BitVec.getLsbD_ushiftRight, add_zero]
  rw [hbit]
  cases w.getLsbD n <;> decide

end UCode

end Usim
