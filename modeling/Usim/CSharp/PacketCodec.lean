import Usim.CSharp.ChaosNetwork
import Usim.Lib.Reader

/-!
# Packets as bytes

`ToBytes` and `FromBytes` of `ChaosPacket`. A `BinaryReader` fails where a field of fixed width
is not complete, but hands out fewer data bytes than it was asked for.
-/

namespace Usim

open Lib

namespace SharpPacket

/-- The fields in front of the data. -/
def header (p : SharpPacket) (reserved : Byte) (length : HalfWord) : List Byte :=
  [p.opcode] ++ ([reserved] ++ (le16 length ++ (le16 p.destAddress ++ (le16 p.destIndex ++
    (le16 p.sourceAddress ++ (le16 p.sourceIndex ++ (le16 p.packetNumber ++ le16 p.ackNumber)))))))

/-- `ToBytes`. -/
def toBytes (p : SharpPacket) : List Byte :=
  p.header 0 (BitVec.ofNat 16 p.data.length) ++ p.data

/-- The data, which is empty without `ReadBytes`. -/
def readData (length : HalfWord) : Reader (List Byte) :=
  if 0 < length then Reader.upTo length.toNat else pure []

/-- The `try` block of `FromBytes`. -/
def read : Reader SharpPacket := do
  let opcode ← Reader.byte
  let _ ← Reader.byte
  let length ← Reader.halfWord
  let destAddress ← Reader.halfWord
  let destIndex ← Reader.halfWord
  let sourceAddress ← Reader.halfWord
  let sourceIndex ← Reader.halfWord
  let packetNumber ← Reader.halfWord
  let ackNumber ← Reader.halfWord
  let data ← readData length
  return ⟨opcode, destAddress, destIndex, sourceAddress, sourceIndex, packetNumber, ackNumber, data⟩

/-- `FromBytes`. -/
def fromBytes (bytes : List Byte) : Option SharpPacket := (read bytes).map Prod.fst

/-- The length that the bytes declare. -/
def declaredLength (bytes : List Byte) : ℕ := (bytes.getD 3 0 ++ bytes.getD 2 0).toNat

/-- Every packet with data of at most 65535 bytes comes back. -/
def RoundTrips : Prop :=
  ∀ p : SharpPacket, p.data.length ≤ 65535 → fromBytes p.toBytes = some p

/-- What is accepted has the data that it declares, and is written as it was, but for the reserved
byte. -/
def DecodesAll (bytes : List Byte) : Prop :=
  ∀ p, fromBytes bytes = some p →
    declaredLength bytes = p.data.length ∧ p.toBytes <+: bytes.set 1 0

/-- All fields are there, and as many bytes as they declare. -/
def Complete (bytes : List Byte) : Prop := 16 + declaredLength bytes ≤ bytes.length

theorem length_header (p : SharpPacket) (reserved : Byte) (length : HalfWord) :
    (p.header reserved length).length = 16 := rfl

/-- The data is read up to the length or the end. -/
theorem readData_eq (length : HalfWord) (rest : List Byte) :
    readData length rest = some (rest.take length.toNat, rest.drop length.toNat) := by
  unfold readData
  by_cases hlength : 0 < length
  · rw [if_pos hlength]
    rfl
  · have hzero : length.toNat = 0 := Nat.eq_zero_of_not_pos hlength
    rw [if_neg hlength, hzero, List.take_zero, List.drop_zero]
    rfl

/-- What `FromBytes` accepts: the fields, and of the rest as much as there is. -/
theorem fromBytes_eq_some {bytes : List Byte} {p : SharpPacket} :
    fromBytes bytes = some p ↔ ∃ reserved length rest,
      bytes = p.header reserved length ++ rest ∧ p.data = rest.take length.toNat := by
  have hread : fromBytes bytes = some p ↔ ∃ rest, read bytes = some (p, rest) := by
    rw [fromBytes, Option.map_eq_some_iff, Prod.exists]
    simp only [exists_and_right, exists_eq_right]
  have hdata (length : HalfWord) (rest : List Byte) (make : List Byte → SharpPacket) :
      (readData length >>= fun data => pure (make data) : Reader SharpPacket) rest =
        some (make (rest.take length.toNat), rest.drop length.toNat) :=
    congrArg (fun r => r.bind fun p => some (make p.1, p.2)) (readData_eq length rest)
  rw [hread]
  unfold read
  simp only [Reader.inverts_byte.bind_eq_some, Reader.inverts_halfWord.bind_eq_some, hdata,
    Option.some.injEq, Prod.mk.injEq]
  constructor
  · rintro ⟨-, opcode, _, rfl, reserved, _, rfl, length, _, rfl, destAddress, _, rfl, destIndex, _,
      rfl, sourceAddress, _, rfl, sourceIndex, _, rfl, packetNumber, _, rfl, ackNumber, rest, rfl,
      rfl, -⟩
    refine ⟨reserved, length, rest, ?_, rfl⟩
    simp only [header, List.append_assoc]
  · rintro ⟨reserved, length, rest, rfl, hp⟩
    obtain ⟨opcode, destAddress, destIndex, sourceAddress, sourceIndex, packetNumber, ackNumber,
      data⟩ := p
    subst hp
    refine ⟨_, opcode, _, ?_, reserved, _, rfl, length, _, rfl, destAddress, _, rfl, destIndex, _,
      rfl, sourceAddress, _, rfl, sourceIndex, _, rfl, packetNumber, _, rfl, ackNumber, rest, rfl,
      rfl, rfl⟩
    simp only [header, List.append_assoc]

/-- The length that was read is the one that is declared. -/
theorem declaredLength_header (p : SharpPacket) (reserved : Byte) (length : HalfWord)
    (rest : List Byte) : declaredLength (p.header reserved length ++ rest) = length.toNat :=
  congrArg BitVec.toNat (append_le16 length)

/-- Sixteen bytes hold all fields. -/
theorem exists_header {bytes : List Byte} (h : 16 ≤ bytes.length) :
    ∃ (p : SharpPacket) (reserved : Byte) (length : HalfWord) (rest : List Byte),
      bytes = p.header reserved length ++ rest := by
  match bytes, h with
  | opcode :: reserved :: bytes, h =>
    have h : 14 ≤ bytes.length := Nat.le_of_succ_le_succ (Nat.le_of_succ_le_succ h)
    obtain ⟨length, bytes₁, rfl, h₁⟩ := Reader.exists_le16 h
    obtain ⟨destAddress, bytes₂, rfl, h₂⟩ := Reader.exists_le16 h₁
    obtain ⟨destIndex, bytes₃, rfl, h₃⟩ := Reader.exists_le16 h₂
    obtain ⟨sourceAddress, bytes₄, rfl, h₄⟩ := Reader.exists_le16 h₃
    obtain ⟨sourceIndex, bytes₅, rfl, h₅⟩ := Reader.exists_le16 h₄
    obtain ⟨packetNumber, bytes₆, rfl, h₆⟩ := Reader.exists_le16 h₅
    obtain ⟨ackNumber, rest, rfl, -⟩ := Reader.exists_le16 h₆
    exact ⟨⟨opcode, destAddress, destIndex, sourceAddress, sourceIndex, packetNumber, ackNumber,
      []⟩, reserved, length, rest, rfl⟩

/-- The reserved byte is written as 0. -/
theorem set_header (p : SharpPacket) (reserved : Byte) (length : HalfWord) (rest : List Byte) :
    (p.header reserved length ++ rest).set 1 0 = p.header 0 length ++ rest := rfl

/-- With fewer than sixteen bytes there is no packet. -/
theorem fromBytes_eq_none {bytes : List Byte} (h : bytes.length < 16) : fromBytes bytes = none := by
  rw [Option.eq_none_iff_forall_ne_some]
  intro p hp
  obtain ⟨reserved, length, rest, rfl, -⟩ := fromBytes_eq_some.mp hp
  rw [List.length_append, length_header] at h
  omega

/-- Every packet with as much data as can be declared comes back. -/
theorem roundTrips : RoundTrips := by
  intro p hp
  refine fromBytes_eq_some.mpr ⟨0, BitVec.ofNat 16 p.data.length, p.data, rfl, ?_⟩
  rw [BitVec.toNat_ofNat, Nat.mod_eq_of_lt (by omega), List.take_length]

/-- Sixteen bytes and more are a packet with what is declared if and only if they are complete. -/
theorem decodesAll_iff_complete {bytes : List Byte} (h : 16 ≤ bytes.length) :
    DecodesAll bytes ↔ Complete bytes := by
  obtain ⟨p, reserved, length, rest, rfl⟩ := exists_header h
  have hlength := declaredLength_header p reserved length rest
  unfold Complete
  rw [hlength, List.length_append, length_header]
  constructor
  · intro hdecodes
    have hp : fromBytes (p.header reserved length ++ rest) =
        some { p with data := rest.take length.toNat } :=
      fromBytes_eq_some.mpr ⟨reserved, length, rest, rfl, rfl⟩
    have hdata := (hdecodes _ hp).1
    rw [hlength, List.length_take] at hdata
    omega
  · intro hcomplete q hq
    obtain ⟨reserved', length', rest', hbytes, hdata⟩ := fromBytes_eq_some.mp hq
    rw [hbytes, set_header, declaredLength_header]
    have hlength' : length'.toNat = length.toNat := by
      rw [← declaredLength_header q reserved' length' rest', ← hbytes, hlength]
    have hrest : rest'.length = rest.length := by
      have hall := congrArg List.length hbytes
      rw [List.length_append, List.length_append, length_header, length_header] at hall
      omega
    have hall : q.data.length = length'.toNat := by
      rw [hdata, List.length_take]
      omega
    refine ⟨hall.symm, rest'.drop length'.toNat, ?_⟩
    rw [toBytes, hall, BitVec.ofNat_toNat, BitVec.setWidth_eq, hdata, List.append_assoc,
      List.take_append_drop]

/-- Every packet with data of at most 65535 bytes comes back from its bytes. Of all strings of
bytes just those are rejected, or accepted with the data that they declare and written as they
were, that have fewer than sixteen bytes or are complete. -/
theorem packet_codec (bytes : List Byte) :
    RoundTrips ∧ (DecodesAll bytes ↔ bytes.length < 16 ∨ Complete bytes) := by
  refine ⟨roundTrips, ?_⟩
  by_cases hshort : bytes.length < 16
  · refine iff_of_true ?_ (.inl hshort)
    intro p hp
    rw [fromBytes_eq_none hshort] at hp
    cases hp
  · rw [or_iff_right hshort, decodesAll_iff_complete (by omega)]

/-- One byte is declared, and none is there. -/
theorem truncated_accepted :
    ¬(RoundTrips ∧ ∀ bytes : List Byte, DecodesAll bytes) := by
  intro h
  have haccepted : fromBytes ([1, 0, 1] ++ List.replicate 13 0) = some ⟨1, 0, 0, 0, 0, 0, 0, []⟩ :=
    rfl
  have hlength := (h.2 _ _ haccepted).1
  exact absurd hlength (by decide)

end SharpPacket

end Usim
