import Usim.CSharp.Mouse

/-!
# The mouse registers

The registers at 764106 and 764104 hold the position of the mouse with the raw encoder
inputs and the buttons. `iob.c` packs them twice: where the processor reads them, with an
octal mask, and where SDL3 reports the mouse, with the same digits in hexadecimal. The C# port
follows the latter.
-/

namespace Usim

/-- The IOB without SDL3, and the variables of `mouse.c`. -/
structure PolledIob where
  /-- `iob_csr`. -/
  csr : Word
  mouse : MouseReport

namespace PolledIob

/-- `iob_unibus_read` of 0764104, which clears CSR<4>. -/
def readMouseY (i : PolledIob) : HalfWord × PolledIob :=
  (((i.mouse.mouseTail <<< 12) ||| (i.mouse.mouseMiddle <<< 13) ||| (i.mouse.mouseHead <<< 14) |||
      (i.mouse.mouseY &&& 0o7777)).setWidth 16,
    { i with csr := i.csr &&& ~~~((1 : Word) <<< 4) })

/-- `iob_unibus_read` of 0764106. -/
def readMouseX (i : PolledIob) : HalfWord :=
  ((i.mouse.mouseRawx <<< 12) ||| (i.mouse.mouseRawy <<< 14) |||
    (i.mouse.mouseX &&& 0o7777)).setWidth 16

end PolledIob

/-- A mouse at any position. -/
structure MouseInput where
  x : ℤ
  y : ℤ
  /-- The raw encoder inputs. -/
  rawx : BitVec 2
  rawy : BitVec 2
  tail : Bool
  middle : Bool
  head : Bool

/-- A button as a C `int`. -/
def buttonLevel (b : Bool) : Word := if b then 1 else 0

namespace MouseInput

/-- The mouse as `mouse.c` has it. -/
def report (i : MouseInput) : MouseReport where
  mouseX := BitVec.ofInt 32 i.x
  mouseRawx := i.rawx.setWidth 32
  mouseY := BitVec.ofInt 32 i.y
  mouseRawy := i.rawy.setWidth 32
  mouseHead := buttonLevel i.head
  mouseMiddle := buttonLevel i.middle
  mouseTail := buttonLevel i.tail

/-- The registers at 764106 and 764104 as the processor reads them, without SDL3. -/
def polled (i : MouseInput) (csr : Word) : HalfWord × HalfWord :=
  ((PolledIob.mk csr i.report).readMouseX, (PolledIob.mk csr i.report).readMouseY.1)

/-- The registers after SDL3 has reported the mouse. -/
def pushed (i : MouseInput) (iob : Sdl3Iob) : HalfWord × HalfWord :=
  ((iob.setMouseReady i.report).mouseX, (iob.setMouseReady i.report).readMouseY.1)

/-- The registers of the C# port, which has no raw encoder inputs. -/
def sharp (i : MouseInput) (iob : SharpIob) : HalfWord × HalfWord :=
  let iob := iob.setMouseReady (BitVec.ofInt 32 i.x) (BitVec.ofInt 32 i.y) i.tail i.middle i.head
  (iob.mouseX.setWidth 16, iob.readMouseY.1)

end MouseInput

/-- The fields of the two registers. -/
structure DecodesTo (i : MouseInput) (registers : HalfWord × HalfWord) : Prop where
  x : ((registers.1.toNat % 4096 : ℕ) : ℤ) = i.x % 4096
  rawx : registers.1.extractLsb' 12 2 = i.rawx
  rawy : registers.1.extractLsb' 14 2 = i.rawy
  y : ((registers.2.toNat % 4096 : ℕ) : ℤ) = i.y % 4096
  tail : registers.2.getLsbD 12 = i.tail
  middle : registers.2.getLsbD 13 = i.middle
  head : registers.2.getLsbD 14 = i.head

/-- The low twelve bits of a register that has a position under the octal mask. -/
theorem low_bits_mod {w : HalfWord} {v : ℤ}
    (h : ∀ k < 12, w.getLsbD k = (BitVec.ofInt 32 v).getLsbD k) :
    ((w.toNat % 4096 : ℕ) : ℤ) = v % 4096 := by
  have hlow : w.setWidth 12 = (BitVec.ofInt 32 v).setWidth 12 := by
    apply BitVec.eq_of_getLsbD_eq
    intro k hk
    rw [BitVec.getLsbD_setWidth, BitVec.getLsbD_setWidth, h k hk]
  have hnat := congrArg BitVec.toNat hlow
  rw [BitVec.toNat_setWidth, BitVec.toNat_setWidth, BitVec.toNat_ofInt] at hnat
  omega

/-- A button in its bit. -/
theorem getLsbD_buttonLevel (b : Bool) (k : ℕ) :
    (buttonLevel b).getLsbD k = (b && decide (k = 0)) := by
  cases b with
  | false => exact BitVec.getLsbD_zero
  | true =>
    change Nat.testBit (2 ^ 1 - 1) k = _
    rw [Nat.testBit_two_pow_sub_one, Bool.true_and, decide_eq_decide]
    exact Nat.lt_one_iff

/-- The octal mask. -/
theorem getLsbD_octalMask (k : ℕ) : (0o7777 : Word).getLsbD k = decide (k < 12) :=
  Nat.testBit_two_pow_sub_one 12 k

/-- The bits of the register at 764106, without SDL3. -/
theorem getLsbD_polled_x (i : MouseInput) (csr : Word) {k : ℕ} (hk : k < 16) :
    (i.polled csr).1.getLsbD k =
      ((!decide (k < 12) && i.rawx.getLsbD (k - 12)) ||
        (!decide (k < 14) && i.rawy.getLsbD (k - 14)) ||
        ((BitVec.ofInt 32 i.x).getLsbD k && decide (k < 12))) := by
  have h32 : k < 32 ∧ k - 12 < 32 ∧ k - 14 < 32 := by omega
  simp only [MouseInput.polled, PolledIob.readMouseX, MouseInput.report, BitVec.getLsbD_setWidth,
    BitVec.getLsbD_or, BitVec.getLsbD_shiftLeft, BitVec.getLsbD_and, getLsbD_octalMask, hk, h32.1,
    h32.2.1, h32.2.2, decide_true, Bool.true_and]

/-- The bits of the register at 764104. -/
theorem getLsbD_polled_y (i : MouseInput) (csr : Word) {k : ℕ} (hk : k < 16) :
    (i.polled csr).2.getLsbD k =
      ((!decide (k < 12) && (i.tail && decide (k - 12 = 0))) ||
        (!decide (k < 13) && (i.middle && decide (k - 13 = 0))) ||
        (!decide (k < 14) && (i.head && decide (k - 14 = 0))) ||
        ((BitVec.ofInt 32 i.y).getLsbD k && decide (k < 12))) := by
  have h32 : k < 32 := by omega
  simp only [MouseInput.polled, PolledIob.readMouseY, MouseInput.report, BitVec.getLsbD_setWidth,
    BitVec.getLsbD_or, BitVec.getLsbD_shiftLeft, BitVec.getLsbD_and, getLsbD_octalMask,
    getLsbD_buttonLevel, hk, h32, decide_true, Bool.true_and]

/-- The registers without SDL3 decode to every mouse. -/
theorem decodesTo_polled (i : MouseInput) (csr : Word) : DecodesTo i (i.polled csr) := by
  refine ⟨low_bits_mod fun k hk => ?_, ?_, ?_, low_bits_mod fun k hk => ?_, ?_, ?_, ?_⟩
  · rw [getLsbD_polled_x i csr (by omega)]
    simp [hk, show k < 14 by omega]
  · apply BitVec.eq_of_getLsbD_eq
    intro k hk
    rw [BitVec.getLsbD_extractLsb', getLsbD_polled_x i csr (by omega)]
    simp [hk, show 12 + k < 14 by omega, show ¬12 + k < 12 by omega]
  · apply BitVec.eq_of_getLsbD_eq
    intro k hk
    have hover : i.rawx.getLsbD (14 + k - 12) = false := BitVec.getLsbD_of_ge _ _ (by omega)
    rw [BitVec.getLsbD_extractLsb', getLsbD_polled_x i csr (by omega), hover]
    simp [hk, show ¬14 + k < 12 by omega]
  · rw [getLsbD_polled_y i csr (by omega)]
    simp [hk, show k < 13 by omega, show k < 14 by omega]
  · rw [getLsbD_polled_y i csr (by decide)]
    simp
  · rw [getLsbD_polled_y i csr (by decide)]
    simp
  · rw [getLsbD_polled_y i csr (by decide)]
    simp

namespace MouseInput

/-- The raw encoder inputs in the register at 764106. -/
def rawField (i : MouseInput) : HalfWord :=
  ((i.rawx.setWidth 32 <<< 12) ||| (i.rawy.setWidth 32 <<< 14) : Word).setWidth 16

/-- The buttons in the register at 764104. -/
def buttonField (i : MouseInput) : HalfWord :=
  ((buttonLevel i.tail <<< 12) ||| (buttonLevel i.middle <<< 13) |||
    (buttonLevel i.head <<< 14)).setWidth 16

/-- The hexadecimal mask takes what the octal one does: a position has none of the bits 3, 7
and 11, which only the octal mask has, and of the bits 12, 13 and 14 none that the other fields
do not have. -/
structure MasksAgree (i : MouseInput) : Prop where
  x : (BitVec.ofInt 32 i.x).setWidth 16 &&& 0x7888 &&& ~~~i.rawField = 0
  y : (BitVec.ofInt 32 i.y).setWidth 16 &&& 0x7888 &&& ~~~i.buttonField = 0

instance (i : MouseInput) : Decidable i.MasksAgree :=
  decidable_of_iff (_ ∧ _) ⟨fun h => ⟨h.1, h.2⟩, fun h => ⟨h.x, h.y⟩⟩

/-- SDL3 reports the same registers if and only if the masks agree. -/
theorem pushed_eq_polled_iff (i : MouseInput) (csr : Word) (iob : Sdl3Iob) :
    i.pushed iob = i.polled csr ↔ i.MasksAgree := by
  have hor (r v m : Word) : (r ||| (v &&& m)).setWidth 16 =
      r.setWidth 16 ||| (v.setWidth 16 &&& m.setWidth 16) := by
    rw [BitVec.setWidth_or, BitVec.setWidth_and]
  have hx : (i.pushed iob).1 = i.rawField ||| ((BitVec.ofInt 32 i.x).setWidth 16 &&& 0x7777) :=
    hor ((i.rawx.setWidth 32 <<< 12) ||| (i.rawy.setWidth 32 <<< 14)) (BitVec.ofInt 32 i.x) 0x7777
  have hx' : (i.polled csr).1 = i.rawField ||| ((BitVec.ofInt 32 i.x).setWidth 16 &&& 0o7777) :=
    hor ((i.rawx.setWidth 32 <<< 12) ||| (i.rawy.setWidth 32 <<< 14)) (BitVec.ofInt 32 i.x) 0o7777
  have hy : (i.pushed iob).2 = i.buttonField ||| ((BitVec.ofInt 32 i.y).setWidth 16 &&& 0x7777) :=
    hor ((buttonLevel i.tail <<< 12) ||| (buttonLevel i.middle <<< 13) |||
      (buttonLevel i.head <<< 14)) (BitVec.ofInt 32 i.y) 0x7777
  have hy' : (i.polled csr).2 =
      i.buttonField ||| ((BitVec.ofInt 32 i.y).setWidth 16 &&& 0o7777) :=
    hor ((buttonLevel i.tail <<< 12) ||| (buttonLevel i.middle <<< 13) |||
      (buttonLevel i.head <<< 14)) (BitVec.ofInt 32 i.y) 0o7777
  have hdiffer : (0x7777 : HalfWord) ^^^ 0o7777 = 0x7888 := by decide
  rw [Prod.ext_iff, hx, hx', hy, hy', Lib.or_and_eq_iff, Lib.or_and_eq_iff, hdiffer]
  exact ⟨fun h => ⟨h.1, h.2⟩, fun h => ⟨h.x, h.y⟩⟩

/-- The C# port has the registers of SDL3 without raw encoder inputs. -/
theorem sharp_eq_pushed {i : MouseInput} (hx : i.rawx = 0) (hy : i.rawy = 0) (iob : SharpIob)
    (iob' : Sdl3Iob) : i.sharp iob = i.pushed iob' := by
  have hraw : ((0 : BitVec 2).setWidth 32 <<< 12) ||| ((0 : BitVec 2).setWidth 32 <<< 14) =
      (0#32 : Word) := by decide
  have hword : (BitVec.ofInt 32 i.x &&& 0x7777).setWidth 16 =
      (((i.rawx.setWidth 32 <<< 12) ||| (i.rawy.setWidth 32 <<< 14) |||
        (BitVec.ofInt 32 i.x &&& 0x7777) : Word)).setWidth 16 := by
    rw [hx, hy, hraw, BitVec.zero_or]
  exact Prod.ext hword rfl

end MouseInput

/-- The registers decode and are the same in the three programs. The C# port is one without raw
encoder inputs. -/
structure RegistersDecode (i : MouseInput) (csr : Word) (iob : Sdl3Iob) (sharp : SharpIob) :
    Prop where
  polled : DecodesTo i (i.polled csr)
  pushed : DecodesTo i (i.pushed iob)
  same : i.pushed iob = i.polled csr
  sharp : i.rawx = 0 → i.rawy = 0 → i.sharp sharp = i.polled csr

/-- The registers decode and are the same in the three programs if and only if the masks agree. -/
theorem mouse_registers_decode (i : MouseInput) (csr : Word) (iob : Sdl3Iob) (sharp : SharpIob) :
    RegistersDecode i csr iob sharp ↔ i.MasksAgree := by
  rw [← i.pushed_eq_polled_iff csr iob]
  constructor
  · exact fun h => h.same
  · intro h
    have hdecodes := decodesTo_polled i csr
    refine ⟨hdecodes, h ▸ hdecodes, h, fun hx hy => ?_⟩
    rw [MouseInput.sharp_eq_pushed hx hy sharp iob, h]

/-- At position 8 the only bit of the position is lost. -/
theorem not_mouse_registers_decode :
    ¬RegistersDecode ⟨8, 0, 0, 0, false, false, false⟩ 0 ⟨⟨0, 0, ⟨0, false⟩, 0⟩, 0, 0⟩
      ⟨0, 0, 0, 0, ⟨0, false⟩⟩ := by
  intro h
  exact absurd h.pushed.x (by decide)

end Usim
