import Usim.TapeDrive

/-!
# Records and file marks

A well-formed image is a sequence of records, which carry their length before and
after the data, and of file marks. The drive at the beginning or the end of an
item finds its words.
-/

namespace Usim

open Lib

/-- The data of a record. -/
abbrev TapeRecord := { data : List Byte // 4 ≤ data.length ∧ data.length < 2 ^ 31 }

/-- What stands on a tape. -/
inductive TapeItem where
  /-- A record. -/
  | record (r : TapeRecord)
  /-- A file mark. -/
  | mark

/-- The word before and after the data of a record. -/
def TapeRecord.lengthWord (r : TapeRecord) : Word := BitVec.ofNat 32 r.val.length

/-- The item is a record. -/
def TapeItem.IsRecord : TapeItem → Prop
  | .record _ => True
  | .mark => False

/-- The bytes of an item. -/
def TapeItem.bytes : TapeItem → List Byte
  | .record r => le32 r.lengthWord ++ (r.val ++ le32 r.lengthWord)
  | .mark => le32 tapeFileMark

/-- The bytes of a sequence of items. -/
def tapeBytes (items : List TapeItem) : List Byte := items.flatMap TapeItem.bytes

/-- The position after a sequence of items. -/
def tapeSize (items : List TapeItem) : ℕ := (tapeBytes items).length

/-- The tape of a drive holds a sequence of items, from the load point on. What follows
the last item is not a mark. -/
structure Recorded (p : TapeDrive) (items : List TapeItem) : Prop where
  /-- The items. -/
  bytes : BytesAt p.mm 0 (tapeBytes items)
  /-- They lie in the image. -/
  size_le : tapeSize items ≤ p.mmsz
  /-- No mark follows. -/
  unmarked : tapeSize items + 4 ≤ p.mmsz → wordAt p.mm (tapeSize items) ≠ tapeFileMark

/-- The length of a record as a number. -/
theorem TapeRecord.toNat_lengthWord (r : TapeRecord) : r.lengthWord.toNat = r.val.length := by
  have hlt := r.2.2
  exact Nat.mod_eq_of_lt (by omega)

/-- No record is as long as a mark says. -/
theorem TapeRecord.lengthWord_ne (r : TapeRecord) : r.lengthWord ≠ tapeFileMark := by
  have hlt := r.2.2
  intro heq
  have hnat := congrArg BitVec.toNat heq
  rw [r.toNat_lengthWord] at hnat
  have hmark : tapeFileMark.toNat = 2 ^ 32 - 1 := rfl
  omega

/-- The distance from the data of a record to the end of the record. -/
theorem TapeRecord.toNat_lengthWord_add (r : TapeRecord) :
    (r.lengthWord + 4).toNat = r.val.length + 4 := by
  have hlt := r.2.2
  have hfour : (4 : Word).toNat = 4 := rfl
  rw [BitVec.toNat_add, r.toNat_lengthWord, hfour, Nat.mod_eq_of_lt (by omega)]

section

variable {pre rest items : List TapeItem} {p : TapeDrive} {r : TapeRecord}

/-- The sizes of two sequences. -/
@[simp] theorem tapeSize_append (pre rest : List TapeItem) :
    tapeSize (pre ++ rest) = tapeSize pre + tapeSize rest := by
  unfold tapeSize tapeBytes
  rw [List.flatMap_append, List.length_append]

/-- The size of a nonempty sequence. -/
theorem tapeSize_cons (i : TapeItem) (rest : List TapeItem) :
    tapeSize (i :: rest) = i.bytes.length + tapeSize rest := by
  unfold tapeSize tapeBytes
  rw [List.flatMap_cons, List.length_append]

/-- Nothing has size 0. -/
@[simp] theorem tapeSize_nil : tapeSize [] = 0 := rfl

/-- A record has its data and two lengths. -/
@[simp] theorem tapeSize_record (r : TapeRecord) (rest : List TapeItem) :
    tapeSize (.record r :: rest) = r.val.length + 8 + tapeSize rest := by
  rw [tapeSize_cons, TapeItem.bytes, List.length_append, List.length_append, length_le32]
  omega

/-- The position after one more record. -/
theorem tapeSize_snoc (pre : List TapeItem) (r : TapeRecord) :
    tapeSize (pre ++ [.record r]) = tapeSize pre + (r.val.length + 8) := by
  rw [tapeSize_append, tapeSize_record, tapeSize_nil, Nat.add_zero]

/-- A mark has four bytes. -/
@[simp] theorem tapeSize_mark (rest : List TapeItem) :
    tapeSize (.mark :: rest) = 4 + tapeSize rest := by
  rw [tapeSize_cons]
  rfl

/-- Every item has four bytes or more. -/
theorem four_le_tapeSize (i : TapeItem) (rest : List TapeItem) : 4 ≤ tapeSize (i :: rest) := by
  cases i with
  | record r =>
    rw [tapeSize_record]
    omega
  | mark =>
    rw [tapeSize_mark]
    omega

/-- Only the empty sequence ends at the load point. -/
theorem tapeSize_eq_zero_iff : tapeSize items = 0 ↔ items = [] := by
  constructor
  · intro h
    cases items with
    | nil => rfl
    | cons i rest =>
      have hsize := four_le_tapeSize i rest
      omega
  · rintro rfl
    rfl

/-- An item stands at the position after those before it. -/
theorem Recorded.item {i : TapeItem} (h : Recorded p (pre ++ i :: rest)) :
    BytesAt p.mm (tapeSize pre) i.bytes := by
  have hbytes := h.bytes
  unfold tapeBytes at hbytes
  rw [List.flatMap_append, bytesAt_append, List.flatMap_cons, bytesAt_append, Nat.zero_add]
    at hbytes
  exact hbytes.2.1

/-- The word at the beginning of a record. -/
theorem Recorded.preamble (h : Recorded p (pre ++ .record r :: rest)) :
    wordAt p.mm (tapeSize pre) = r.lengthWord :=
  wordAt_of_bytesAt (bytesAt_append.mp h.item).1

/-- The word at the end of a record. -/
theorem Recorded.postamble (h : Recorded p (pre ++ .record r :: rest)) :
    wordAt p.mm (tapeSize pre + 4 + r.val.length) = r.lengthWord :=
  wordAt_of_bytesAt (bytesAt_append.mp (bytesAt_append.mp h.item).2).2

/-- The word at a mark. -/
theorem Recorded.mark (h : Recorded p (pre ++ .mark :: rest)) :
    wordAt p.mm (tapeSize pre) = tapeFileMark :=
  wordAt_of_bytesAt h.item

/-- The word at the end of a record, seen from behind. -/
theorem Recorded.postamble_last (h : Recorded p (pre ++ .record r :: rest)) :
    wordAt p.mm (tapeSize (pre ++ [.record r]) - 4) = r.lengthWord := by
  have hpos : tapeSize (pre ++ [.record r]) - 4 = tapeSize pre + 4 + r.val.length := by
    rw [tapeSize_append, tapeSize_record, tapeSize_nil]
    omega
  rw [hpos]
  exact h.postamble

/-- A mark, seen from behind. -/
theorem Recorded.mark_last (h : Recorded p (pre ++ .mark :: rest)) :
    wordAt p.mm (tapeSize (pre ++ [.mark]) - 4) = tapeFileMark := by
  have hpos : tapeSize (pre ++ [.mark]) - 4 = tapeSize pre := by
    rw [tapeSize_append, tapeSize_mark, tapeSize_nil]
    omega
  rw [hpos]
  exact h.mark

/-- Every boundary lies in the image. -/
theorem Recorded.le (h : Recorded p (pre ++ rest)) : tapeSize pre + tapeSize rest ≤ p.mmsz := by
  rw [← tapeSize_append]
  exact h.size_le

/-- The word at a boundary is a mark if and only if a mark stands there. -/
theorem Recorded.mark_iff (h : Recorded p (pre ++ rest)) (hword : tapeSize pre + 4 ≤ p.mmsz) :
    wordAt p.mm (tapeSize pre) = tapeFileMark ↔ ∃ rest', rest = .mark :: rest' := by
  cases rest with
  | nil =>
    rw [List.append_nil] at h
    exact ⟨fun hmark => absurd hmark (h.unmarked hword), fun ⟨_, hrest⟩ => nomatch hrest⟩
  | cons i rest =>
    cases i with
    | record r =>
      rw [h.preamble]
      exact ⟨fun hmark => absurd hmark r.lengthWord_ne, fun ⟨_, hrest⟩ => nomatch hrest⟩
    | mark => exact ⟨fun _ => ⟨rest, rfl⟩, fun _ => h.mark⟩

/-- Another drive with the same bytes holds the same items. -/
theorem Recorded.congr {p' : TapeDrive} (h : Recorded p items) (hmm : p'.mm = p.mm)
    (hmmsz : p'.mmsz = p.mmsz) : Recorded p' items := by
  refine ⟨?_, ?_, ?_⟩
  · rw [hmm]
    exact h.bytes
  · rw [hmmsz]
    exact h.size_le
  · rw [hmm, hmmsz]
    exact h.unmarked

/-- The marker lies more than a word before the end of the image of an online drive. -/
theorem TapeUnit.eotpos_setBpi {t : TapeUnit} (h : t.drive.online = true) {bpi : Word}
    (hbpi : bpi = 800 ∨ bpi = 1600) :
    (t.setBpi bpi).drive.eotpos + 4 ≤ (t.setBpi bpi).drive.mmsz := by
  have hsize := t.drive.size_le h
  have h800 : (800 : Word).toNat = 800 := rfl
  have h1600 : (1600 : Word).toNat = 1600 := rfl
  rcases hbpi with rfl | rfl
  · simp only [TapeUnit.setBpi, eotOffsetFt, h800]
    omega
  · simp only [TapeUnit.setBpi, eotOffsetFt, h1600]
    omega

end

namespace TapeUnit

variable {t : TapeUnit} {pre rest : List TapeItem} {r : TapeRecord}

/-- Spacing forward over a record, by what stands behind it. -/
theorem spaceForward_record (h : Recorded t.drive (pre ++ .record r :: rest))
    (hpos : t.drive.pos = tapeSize pre) {next : ℕ} (hnext : next = tapeSize (pre ++ [.record r])) :
    t.spaceForward =
      if next + 4 ≤ t.drive.mmsz then
        if wordAt t.drive.mm next = tapeFileMark then (t.moveTo (next + 4)).setMtsEof
        else t.moveTo next
      else t.moveTo (t.drive.mmsz - 4) := by
  have hle := h.le
  rw [tapeSize_record] at hle
  have hq : next =
      min (t.drive.pos + 4 + (wordAt t.drive.mm t.drive.pos + 4).toNat) t.drive.mmsz := by
    rw [hnext, hpos, h.preamble, r.toNat_lengthWord_add, tapeSize_append, tapeSize_record,
      tapeSize_nil]
    omega
  exact spaceForward_eq (by omega) hq

/-- Spacing forward over a record and the mark behind it. -/
theorem spaceForward_record_mark (h : Recorded t.drive (pre ++ .record r :: .mark :: rest))
    (hpos : t.drive.pos = tapeSize pre) :
    t.spaceForward = (t.moveTo (tapeSize (pre ++ [.record r, .mark]))).setMtsEof := by
  have hnext : tapeSize (pre ++ [.record r]) + 4 = tapeSize (pre ++ [.record r, .mark]) := by
    simp only [tapeSize_append, tapeSize_record, tapeSize_mark, tapeSize_nil]
    omega
  have hitem : Recorded t.drive ((pre ++ [.record r]) ++ .mark :: rest) := by
    rwa [List.append_assoc]
  have hword : tapeSize (pre ++ [.record r]) + 4 ≤ t.drive.mmsz := by
    have hle := hitem.le
    rw [tapeSize_mark] at hle
    omega
  rw [spaceForward_record h hpos rfl, if_pos hword, if_pos hitem.mark, hnext]

/-- Spacing forward over a record that no mark follows. -/
theorem spaceForward_record_unmarked (h : Recorded t.drive (pre ++ .record r :: rest))
    (hpos : t.drive.pos = tapeSize pre) (hrest : ¬∃ rest', rest = .mark :: rest')
    (hword : tapeSize (pre ++ [.record r]) + 4 ≤ t.drive.mmsz) :
    t.spaceForward = t.moveTo (tapeSize (pre ++ [.record r])) := by
  have hitem : Recorded t.drive ((pre ++ [.record r]) ++ rest) := by
    rwa [List.append_assoc]
  have hmark := (hitem.mark_iff hword).not.mpr hrest
  rw [spaceForward_record h hpos rfl, if_pos hword, if_neg hmark]

/-- Spacing reverse over a record. -/
theorem spaceReverse_record (h : Recorded t.drive (pre ++ .record r :: rest))
    (hpos : t.drive.pos = tapeSize (pre ++ [.record r])) (stopAtFilemark : Bool) :
    t.spaceReverse stopAtFilemark = t.moveTo (tapeSize pre) := by
  have hlast := h.postamble_last
  have hle := t.drive.pos_le
  rw [← hpos] at hlast
  rw [tapeSize_append, tapeSize_record, tapeSize_nil] at hpos
  have hmark : wordAt t.drive.mm (t.drive.pos - 4) ≠ tapeFileMark := hlast ▸ r.lengthWord_ne
  rw [spaceReverse_eq stopAtFilemark (by omega) rfl, if_neg hmark, hlast, r.toNat_lengthWord]
  congr 1
  omega

/-- Spacing reverse stops at a mark. -/
theorem spaceReverse_mark (h : Recorded t.drive (pre ++ .mark :: rest))
    (hpos : t.drive.pos = tapeSize (pre ++ [.mark])) :
    t.spaceReverse true = (t.moveTo t.drive.pos).setMtsEof := by
  have hlast := h.mark_last
  have hle := t.drive.pos_le
  rw [← hpos] at hlast
  rw [tapeSize_append, tapeSize_mark, tapeSize_nil] at hpos
  rw [spaceReverse_eq true (by omega) rfl, if_pos hlast, if_pos rfl]
  congr 2
  omega

/-- The first spacing reverse passes a mark, and takes the word before it for a length. -/
theorem spaceReverse_over_mark (h : Recorded t.drive (pre ++ .mark :: rest))
    (hpos : t.drive.pos = tapeSize (pre ++ [.mark])) :
    t.spaceReverse false = t.moveTo (tapeSize pre - 4 + 4 -
      ((wordAt t.drive.mm (tapeSize pre - 4)).toNat + 8)) := by
  have hlast := h.mark_last
  have hle := t.drive.pos_le
  rw [← hpos] at hlast
  rw [tapeSize_append, tapeSize_mark, tapeSize_nil] at hpos
  have hpre : t.drive.pos - 4 = tapeSize pre := by omega
  rw [spaceReverse_eq false (by omega) rfl, if_pos hlast, if_neg Bool.false_ne_true, hpre]

/-- The first spacing reverse passes a mark and the record before it. -/
theorem spaceReverse_record_mark (h : Recorded t.drive (pre ++ .record r :: .mark :: rest))
    (hpos : t.drive.pos = tapeSize (pre ++ [.record r, .mark])) :
    t.spaceReverse false = t.moveTo (tapeSize pre) := by
  have hitem : Recorded t.drive ((pre ++ [.record r]) ++ .mark :: rest) := by
    rwa [List.append_assoc]
  have hlast := h.postamble_last
  have hstart : t.drive.pos = tapeSize ((pre ++ [.record r]) ++ [.mark]) := by
    rw [hpos, List.append_assoc]
    rfl
  rw [spaceReverse_over_mark hitem hstart, hlast, r.toNat_lengthWord, tapeSize_append,
    tapeSize_record, tapeSize_nil]
  congr 1
  omega

/-- Spacing reverse at the load point stays there. -/
theorem spaceReverse_load_point (hpos : t.drive.pos = 0) : t.spaceReverse false = t.moveTo 0 := by
  have hseek : t.seek (-4) .cur = t.moveTo 0 := by
    rw [seek_cur, hpos]
    rfl
  by_cases hword : 4 ≤ t.drive.mmsz
  · have hback (w : Word) : 0 + 4 - (w.toNat + 8) = 0 := by omega
    rw [spaceReverse_eq (q := 0) false (by omega) (by omega), if_neg Bool.false_ne_true, hback,
      ite_self]
  · have hshort := readUint32_moveTo_short (t := t) (q := 0) (Nat.zero_le _) (by omega)
    have hmark : (0 : Word) ≠ tapeFileMark := by decide
    have hback : t.drive.mmsz - ((0 : Word).toNat + 8) = 0 := by omega
    have hreset := seek_reset_eot (t := t) le_rfl 0
    rw [hback] at hreset
    unfold spaceReverse
    simp only [hseek, hshort, Option.getD_none, hmark, false_and, if_false]
    exact hreset

end TapeUnit

end Usim
