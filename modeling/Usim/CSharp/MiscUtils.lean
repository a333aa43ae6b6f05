import Usim.Misc

/-!
# The utilities of the C# port

`Read32PDP`, `Str4`, `UnStr4`, `Ldb` and `Dpb` of `MiscUtils.cs`. A `Read` of a stream takes as many
bytes as there are. The count of a shift is taken modulo 32.
-/

namespace Usim

open Lib

namespace MiscUtils

/-- `Read32PDP`. What is not read stays 0. -/
def read32Pdp (stream : List Byte) : Word × List Byte :=
  let buffer (i : ℕ) : Word := ((stream[i]?).getD 0).setWidth 32
  ((buffer 1 <<< 8) ||| buffer 0 ||| (buffer 3 <<< 24) ||| (buffer 2 <<< 16), stream.drop 4)

/-- `Str4`. -/
def str4 (str : List (BitVec 16)) : Word :=
  let str := if str.length < 4 then str ++ List.replicate (4 - str.length) 0x20 else str
  let char (i : ℕ) : Word := ((str[i]?).getD 0).setWidth 32
  (char 0 <<< 24) ||| (char 1 <<< 16) ||| (char 2 <<< 8) ||| char 3

/-- `UnStr4`. -/
def unStr4 (value : Word) : List (BitVec 16) :=
  [(value >>> 24 &&& 0xFF).setWidth 16, (value >>> 16 &&& 0xFF).setWidth 16,
    (value >>> 8 &&& 0xFF).setWidth 16, (value &&& 0xFF).setWidth 16]

/-- `(ppss >> 6) & 0x3f`. -/
def pos (ppss : Word) : ℕ := (ppss.sshiftRight 6 &&& 0x3F).toNat

/-- `ppss & 0x3f`. -/
def size (ppss : Word) : ℕ := (ppss &&& 0x3F).toNat

/-- `(uint)((1 << size) - 1)`. -/
def mask (ppss : Word) : Word := (1 <<< (size ppss % 32)) - 1

/-- `Ldb`. -/
def ldb (ppss word : Word) : Word := word >>> (pos ppss % 32) &&& mask ppss

/-- `Dpb`. -/
def dpb (value ppss word : Word) : Word :=
  let word := word &&& ~~~(mask ppss <<< (pos ppss % 32))
  word ||| (value &&& mask ppss) <<< (pos ppss % 32)

/-- A string of four ASCII characters in the port. -/
def portString (s : Fin 4 → BitVec 7) : List (BitVec 16) := List.ofFn fun i => (s i).setWidth 16

/-- The utilities do what those of `misc.c` do, and what these are for. -/
structure Agrees (stream : List Byte) (s : Fin 4 → BitVec 7) (x v ppss w : Word) : Prop where
  reads : .ok (read32Pdp stream) = Misc.read32pdp stream
  packs : (str4 (portString s)).setWidth 64 = Misc.str4 fun i => (s i).setWidth 8
  unpacks : unStr4 x = (Misc.unstr4 (x.setWidth 64)).map (BitVec.setWidth 16)
  loads : ∀ r, Misc.ldb ppss w = some r → ldb ppss w = r
  deposits : ∀ r, Misc.dpb v ppss w = some r → dpb v ppss w = r
  loaded : (ldb ppss w).toNat = w.toNat / 2 ^ pos ppss % 2 ^ size ppss
  deposited : ∀ i < 32, (dpb v ppss w).getLsbD i =
    if pos ppss ≤ i ∧ i < pos ppss + size ppss then v.getLsbD (i - pos ppss) else w.getLsbD i
  unpacks_packed : unStr4 (str4 (portString s)) = portString s
  loads_deposited : (ldb ppss (dpb v ppss w)).toNat = v.toNat % 2 ^ size ppss

/-- Inputs on which what the utilities do otherwise does not show: the bytes that are read come
twice by pairs, the characters and the bytes of `x` are the same from behind, and a field of all 32
bits is 0 and stays 0. -/
structure Symmetric (stream : List Byte) (s : Fin 4 → BitVec 7) (x v ppss w : Word) : Prop where
  stream : ∃ b0 b1 rest, stream = b0 :: b1 :: b0 :: b1 :: rest
  string : s 0 = s 3 ∧ s 1 = s 2
  bytes : (le32 x).reverse = le32 x
  field : size ppss < 32 ∨ v = 0 ∧ w = 0

variable {stream : List Byte} {s : Fin 4 → BitVec 7} {x v ppss w : Word}

/-! ### Words and characters -/

/-- Four bytes are the bytes of their word. -/
theorem append_inj {b3 b2 b1 b0 c3 c2 c1 c0 : Byte} :
    b3 ++ b2 ++ b1 ++ b0 = c3 ++ c2 ++ c1 ++ c0 ↔ b0 = c0 ∧ b1 = c1 ∧ b2 = c2 ∧ b3 = c3 := by
  constructor
  · intro h
    have hbytes := congrArg le32 h
    simpa only [le32_append, List.cons.injEq, and_true] using hbytes
  · rintro ⟨rfl, rfl, rfl, rfl⟩
    rfl

/-- `Read32PDP` takes the low byte first. -/
theorem read32Pdp_cons (b0 b1 b2 b3 : Byte) (rest : List Byte) :
    read32Pdp (b0 :: b1 :: b2 :: b3 :: rest) = (b3 ++ b2 ++ b1 ++ b0, rest) := by
  have hword : (b1.setWidth 32 <<< 8) ||| b0.setWidth 32 ||| (b3.setWidth 32 <<< 24) |||
      (b2.setWidth 32 <<< 16) = b3 ++ b2 ++ b1 ++ b0 := by
    rw [← or_shiftLeft_eq_append, BitVec.shiftLeft_zero, BitVec.or_assoc,
      BitVec.or_assoc (b3.setWidth 32 <<< 24 ||| _), BitVec.or_comm]
  exact congrArg (fun word => (word, rest)) hword

/-- A word is read as by `read32pdp` if its bytes come twice by pairs. -/
theorem read32Pdp_eq_iff :
    .ok (read32Pdp stream) = Misc.read32pdp stream ↔
      ∃ b0 b1 rest, stream = b0 :: b1 :: b0 :: b1 :: rest := by
  constructor
  · intro h
    rcases stream with _ | ⟨b0, _ | ⟨b1, _ | ⟨b2, _ | ⟨b3, rest⟩⟩⟩⟩
    case cons.cons.cons.cons =>
      rw [read32Pdp_cons, Misc.read32pdp_cons, Except.ok.injEq, Prod.mk.injEq, append_inj] at h
      obtain ⟨⟨h02, h13, -, -⟩, -⟩ := h
      exact ⟨b0, b1, rest, by rw [h02, h13]⟩
    all_goals cases h
  · rintro ⟨b0, b1, rest, rfl⟩
    rw [read32Pdp_cons, Misc.read32pdp_cons]

/-- `UnStr4` takes the high byte first. -/
theorem unStr4_eq (x : Word) : unStr4 x = (le32 x).reverse.map (BitVec.setWidth 16) := by
  have hbyte (y : Word) : (y &&& 0xFF).setWidth 16 = (y.setWidth 8).setWidth 16 := by
    have hlow : y &&& 0xFF = (y.setWidth 8).setWidth 32 := and_lowBits y 0xFF rfl
    rw [hlow, BitVec.setWidth_setWidth_of_le _ (by decide)]
  simp only [unStr4, le32, hbyte]
  rfl

/-- `unstr4` takes the low byte first. -/
theorem unstr4_setWidth (x : Word) : Misc.unstr4 (x.setWidth 64) = le32 x := by
  have hx := x.isLt
  simp only [Misc.unstr4, le32, List.cons.injEq, ← BitVec.toNat_inj, BitVec.toNat_setWidth,
    BitVec.toNat_ushiftRight, Nat.shiftRight_eq_div_pow, and_true]
  omega

/-- The characters come back as they do from `unstr4` if they are the same from behind. -/
theorem unStr4_eq_iff :
    unStr4 x = (Misc.unstr4 (x.setWidth 64)).map (BitVec.setWidth 16) ↔
      (le32 x).reverse = le32 x := by
  have hinj : Function.Injective (BitVec.setWidth 16 : Byte → BitVec 16) := by
    intro b c h
    have hback := congrArg (BitVec.setWidth 8) h
    simpa using hback
  rw [unStr4_eq, unstr4_setWidth]
  exact (List.map_injective_iff.mpr hinj).eq_iff

/-- The bytes of a string of four ASCII characters, the first one highest. -/
theorem str4_portString (s : Fin 4 → BitVec 7) :
    str4 (portString s) = (s 0).setWidth 8 ++ (s 1).setWidth 8 ++ (s 2).setWidth 8 ++
      ((s 3).setWidth 8 : Byte) := by
  have hchar (c : BitVec 7) : (c.setWidth 16).setWidth 32 = (c.setWidth 8).setWidth 32 := by
    have hc := c.isLt
    apply BitVec.eq_of_toNat_eq
    simp only [BitVec.toNat_setWidth]
    omega
  have hword : str4 (portString s) = (((s 0).setWidth 16).setWidth 32 <<< 24) |||
      (((s 1).setWidth 16).setWidth 32 <<< 16) ||| (((s 2).setWidth 16).setWidth 32 <<< 8) |||
      ((s 3).setWidth 16).setWidth 32 := rfl
  rw [hword, ← or_shiftLeft_eq_append, BitVec.shiftLeft_zero]
  simp only [hchar]

/-- The word of four ASCII characters in `misc.c`, the first one lowest. -/
theorem str4_ascii (s : Fin 4 → BitVec 7) :
    Misc.str4 (fun i => (s i).setWidth 8) = ((s 3).setWidth 8 ++ (s 2).setWidth 8 ++
      (s 1).setWidth 8 ++ ((s 0).setWidth 8 : Byte)).setWidth 64 := by
  have hmsb (c : BitVec 7) : (c.setWidth 8 : Byte).msb = false := by
    rw [BitVec.msb_setWidth, BitVec.getLsbD_of_ge c _ (Nat.le_refl 7), Bool.and_false]
  have hchar (c : BitVec 7) : (c.setWidth 8 : Byte).signExtend 32 = (c.setWidth 8).setWidth 32 :=
    BitVec.signExtend_eq_setWidth_of_msb_false (hmsb c)
  have hword : ((s 3).setWidth 8 ++ (s 2).setWidth 8 ++ (s 1).setWidth 8 ++
      ((s 0).setWidth 8 : Byte)).msb = false := by
    rw [BitVec.msb_append, if_neg (by decide), BitVec.msb_append, if_neg (by decide),
      BitVec.msb_append, if_neg (by decide), hmsb]
  rw [← BitVec.signExtend_eq_setWidth_of_msb_false hword, ← or_shiftLeft_eq_append,
    BitVec.shiftLeft_zero, Misc.str4]
  simp only [hchar]

/-- ASCII characters are packed as by `str4` if they are the same from behind. -/
theorem str4_eq_iff :
    (str4 (portString s)).setWidth 64 = Misc.str4 (fun i => (s i).setWidth 8) ↔
      s 0 = s 3 ∧ s 1 = s 2 := by
  have hwide {x y : Word} : x.setWidth 64 = y.setWidth 64 ↔ x = y := by
    constructor
    · intro h
      have hback := congrArg (BitVec.setWidth 32) h
      simpa using hback
    · rintro rfl
      rfl
  have hchar {c d : BitVec 7} : (c.setWidth 8 : Byte) = d.setWidth 8 ↔ c = d := by
    constructor
    · intro h
      have hback := congrArg (BitVec.setWidth 7) h
      simpa using hback
    · rintro rfl
      rfl
  rw [str4_portString, str4_ascii, hwide, append_inj, hchar, hchar, hchar, hchar]
  constructor
  · rintro ⟨h30, h21, -, -⟩
    exact ⟨h30.symm, h21.symm⟩
  · rintro ⟨h03, h12⟩
    exact ⟨h03.symm, h12.symm, h12, h03⟩

/-- Characters that are packed and unpacked by the port come back. -/
theorem unStr4_str4 (s : Fin 4 → BitVec 7) : unStr4 (str4 (portString s)) = portString s := by
  have hchar (c : BitVec 7) : (c.setWidth 8 : Byte).setWidth 16 = c.setWidth 16 := by
    have hc := c.isLt
    apply BitVec.eq_of_toNat_eq
    simp only [BitVec.toNat_setWidth]
    omega
  rw [str4_portString, unStr4_eq, le32_append]
  simp only [List.reverse_cons, List.reverse_nil, List.nil_append, List.cons_append, List.map_cons,
    List.map_nil, hchar]
  rfl

/-! ### Fields -/

/-- The position and the size are those of `misc.c`. -/
theorem pos_eq (ppss : Word) : pos ppss = Misc.fieldPos ppss := rfl

theorem size_eq (ppss : Word) : size ppss = Misc.fieldSize ppss := rfl

/-- The mask of a field of less than 32 bits. -/
theorem mask_of_lt (h : size ppss < 32) : mask ppss = lowMask 32 (size ppss) := by
  rw [mask, Nat.mod_eq_of_lt h]
  exact shiftLeft_sub_one h

/-- The mask of a field of 32 bits is empty. -/
theorem mask_of_eq (h : size ppss = 32) : mask ppss = 0 := by
  rw [mask, h]
  rfl

/-- `Ldb` takes out a field of less than 32 bits. -/
theorem ldb_of_lt (hsize : size ppss < 32) (hfield : pos ppss + size ppss ≤ 32) :
    ldb ppss w = field (pos ppss) (size ppss) w := by
  rw [ldb, mask_of_lt hsize]
  by_cases hpos : pos ppss < 32
  · rw [Nat.mod_eq_of_lt hpos]
    rfl
  · have hzero : size ppss = 0 := by omega
    rw [hzero, field, lowMask_zero, BitVec.and_zero, BitVec.and_zero]

/-- `Dpb` replaces a field of less than 32 bits. -/
theorem dpb_of_lt (hsize : size ppss < 32) (hfield : pos ppss + size ppss ≤ 32) :
    dpb v ppss w = setField (pos ppss) (size ppss) v w := by
  rw [dpb, mask_of_lt hsize]
  by_cases hpos : pos ppss < 32
  · rw [Nat.mod_eq_of_lt hpos]
    rfl
  · have hzero : size ppss = 0 := by omega
    rw [hzero, setField, lowMask_zero]
    simp

/-- `Ldb` takes nothing out of a field of 32 bits. -/
theorem ldb_of_eq (hsize : size ppss = 32) : ldb ppss w = 0 := by
  rw [ldb, mask_of_eq hsize]
  exact BitVec.and_zero

/-- `Dpb` leaves a field of 32 bits. -/
theorem dpb_of_eq (hsize : size ppss = 32) : dpb v ppss w = w := by
  have hshift : (0 : Word) <<< (pos ppss % 32) = 0#32 := BitVec.zero_shiftLeft _
  have hand : v &&& (0 : Word) = 0 := BitVec.and_zero
  rw [dpb, mask_of_eq hsize, hand, hshift, BitVec.not_zero, BitVec.and_allOnes, BitVec.or_zero]

/-- What the utilities are for holds for a field of less than 32 bits. -/
theorem agrees_of_lt (hlt : size ppss < 32) (hfield : pos ppss + size ppss ≤ 32)
    (h : Symmetric stream s x v ppss w) : Agrees stream s x v ppss w where
  reads := read32Pdp_eq_iff.mpr h.stream
  packs := str4_eq_iff.mpr h.string
  unpacks := unStr4_eq_iff.mpr h.bytes
  loads r hr := by
    rw [Misc.ldb_of_lt hlt, Option.some.injEq] at hr
    rw [ldb_of_lt hlt hfield, ← hr, pos_eq, size_eq]
  deposits r hr := by
    rw [Misc.dpb_of_lt hlt (Misc.lt_of_dpb_eq_some hr).2, Option.some.injEq] at hr
    rw [dpb_of_lt hlt hfield, ← hr, pos_eq, size_eq]
  loaded := by rw [ldb_of_lt hlt hfield, toNat_field]
  deposited i hi := by rw [dpb_of_lt hlt hfield, getLsbD_setField _ _ hi]
  unpacks_packed := unStr4_str4 s
  loads_deposited := by
    rw [dpb_of_lt hlt hfield, ldb_of_lt hlt hfield, field_setField hfield, toNat_field, pow_zero,
      Nat.div_one]

/-- It holds for a field of 32 bits if it is 0 and stays 0. -/
theorem agrees_of_eq (heq : size ppss = 32) (hv : v = 0) (hw : w = 0)
    (h : Symmetric stream s x v ppss w) : Agrees stream s x v ppss w where
  reads := read32Pdp_eq_iff.mpr h.stream
  packs := str4_eq_iff.mpr h.string
  unpacks := unStr4_eq_iff.mpr h.bytes
  loads r hr := by
    rw [Misc.ldb_of_eq heq] at hr
    cases hr
  deposits r hr := by
    have hlt : size ppss < 32 := (Misc.lt_of_dpb_eq_some hr).1
    omega
  loaded := by
    have hzero : (0 : Word).toNat = 0 := rfl
    rw [ldb_of_eq heq, hw, hzero, Nat.zero_div, Nat.zero_mod]
  deposited i hi := by
    rw [dpb_of_eq heq, hv, hw]
    simp
  unpacks_packed := unStr4_str4 s
  loads_deposited := by
    rw [ldb_of_eq heq, hv]
    exact (Nat.zero_mod _).symm

/-- The fields of 32 bits that are taken out and replaced as they should be. -/
theorem eq_zero_of_agrees (heq : size ppss = 32) (hfield : pos ppss + size ppss ≤ 32)
    (h : Agrees stream s x v ppss w) : v = 0 ∧ w = 0 := by
  have hpos : pos ppss = 0 := by omega
  have hloaded := h.loaded
  have hback := h.loads_deposited
  rw [ldb_of_eq heq, hpos, heq, pow_zero, Nat.div_one, Nat.mod_eq_of_lt w.isLt] at hloaded
  rw [ldb_of_eq heq, heq, Nat.mod_eq_of_lt v.isLt] at hback
  exact ⟨BitVec.eq_of_toNat_eq hback.symm, BitVec.eq_of_toNat_eq hloaded.symm⟩

/-- The utilities agree with those of `misc.c` just on the inputs that do not show the
difference. -/
theorem agrees_iff (stream : List Byte) (s : Fin 4 → BitVec 7) (x v ppss w : Word)
    (hsize : size ppss ≤ 32) (hfield : pos ppss + size ppss ≤ 32) :
    Agrees stream s x v ppss w ↔ Symmetric stream s x v ppss w := by
  constructor
  · intro h
    refine ⟨read32Pdp_eq_iff.mp h.reads, str4_eq_iff.mp h.packs, unStr4_eq_iff.mp h.unpacks, ?_⟩
    rcases Nat.lt_or_eq_of_le hsize with hlt | heq
    · exact .inl hlt
    · exact .inr (eq_zero_of_agrees heq hfield h)
  · intro h
    rcases Nat.lt_or_eq_of_le hsize with hlt | heq
    · exact agrees_of_lt hlt hfield h
    · rcases h.field with hlt | ⟨hv, hw⟩
      · omega
      · exact agrees_of_eq heq hv hw h

/-- A word of two equal halves, a string that is the same from behind, and the field of 8 bits at
8. -/
theorem agrees_symmetric :
    Agrees [1, 2, 1, 2] (fun i => if i = 0 ∨ i = 3 then 0x41 else 0x42) 0x41424241 0xFF 0o1010 0 :=
  (agrees_iff [1, 2, 1, 2] _ 0x41424241 0xFF 0o1010 0 (by decide) (by decide)).mpr
    ⟨⟨1, 2, [], rfl⟩, ⟨rfl, rfl⟩, by decide, .inl (by decide)⟩

/-- The word 1, whose bytes in a file are 0, 0, 1, 0. -/
theorem not_agrees :
    ¬Agrees [0, 0, 1, 0] (fun i => BitVec.ofNat 7 (0x41 + i)) 0x44434241 0x1234 0o40 0 := by
  intro h
  obtain ⟨b0, b1, rest, hstream⟩ := read32Pdp_eq_iff.mp h.reads
  cases hstream

end MiscUtils

end Usim
