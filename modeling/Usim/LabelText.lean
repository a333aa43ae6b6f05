import Usim.BandRestore

/-!
# The text of a partition

`set_partition_comment` of `diskmaker.c`, and the two ways in which it and `restore_band` pack a
text of at most 16 bytes into the four words of a partition. Characters have signs. A name of a
band with less than three characters is taken with zeros behind it.
-/

namespace Usim

open Lib

namespace Diskmaker

/-- The inner loop of `set_partition_comment` from turn `k` on, with `n` turns to go: the word, and
what is left of the comment. -/
def commentWord : ℕ → ℕ → Word → List Byte → Word × List Byte
  | 0, _, v, cs => (v, cs)
  | _ + 1, _, v, [] => (v, [])
  | n + 1, k, v, c :: cs => commentWord n (k + 1) (v ||| c.signExtend 32 <<< (k * 8)) cs

/-- A turn of the outer loop. -/
def commentTurn (s : (Fin 4 → Word) × List Byte) (j : Fin 4) : (Fin 4 → Word) × List Byte :=
  if s.2 = [] then s
  else
    let (v, cs) := commentWord 4 0 0 s.2
    (Function.update s.1 j v, cs)

/-- The words that `set_partition_comment` makes of a comment. -/
def commentWords (comment : List Byte) : Fin 4 → Word :=
  ((List.finRange 4).foldl commentTurn (fun _ => 0, cString comment)).1

/-- A label with other words in a partition. -/
def DiskLabelS.withWords (l : DiskLabelS) (i : Fin 18) (words : Fin 4 → Word) : DiskLabelS :=
  { l with parts := Function.update l.parts i { l.parts i with label := words } }

/-- `set_partition_comment`: how it ends, and the pack it leaves. -/
def setPartitionComment (diskPackFilename bandName comment pack : List Byte) :
    Except PackFault Unit × List Byte :=
  if 16 < (cString comment).length then
    (.error (.err ⟨"COMMENT should be less than 16 characters", []⟩ []), pack)
  else
    match readDiskLabel diskPackFilename pack with
    | .error fault => (.error fault, pack)
    | .ok diskLabel =>
      match findPartition diskLabel (nameWord bandName) with
      | some i => (.ok (), writeDiskLabel (diskLabel.withWords i (commentWords comment)) pack)
      | none =>
        (.error (.err ⟨"disk does not contain a partition named: %s", []⟩ bandName), pack)

/-- `restore_band` stores the words in the partition of a band, for a source of this name. -/
def RestoreStores (text : List Byte) (words : Fin 4 → Word) : Prop :=
  ∃ reads srcFilename src filename bandName pack pack' l i, basename srcFilename = cString text ∧
    findBand filename bandName pack = .ok (l, i) ∧
    restoreBand reads srcFilename src filename bandName pack = (.ok (), pack') ∧
    ((labelAt (fileMedium pack')).parts i).label = words

/-- `set_partition_comment` stores the words in the partition of a band, for this comment. -/
def CommentStores (text : List Byte) (words : Fin 4 → Word) : Prop :=
  ∃ filename bandName pack pack' l i, readDiskLabel filename pack = .ok l ∧
    findPartition l (nameWord bandName) = some i ∧
    setPartitionComment filename bandName text pack = (.ok (), pack') ∧
    ((labelAt (fileMedium pack')).parts i).label = words

/-- The words that are stored for a text decode to it with zeros behind it, and both commands store
the same. -/
structure StoresText (text : List Byte) : Prop where
  decoded : ∀ words, RestoreStores text words ∨ CommentStores text words →
    unstr16 words = List.ofFn (padded 16 text)
  same : ∀ words words', RestoreStores text words → CommentStores text words' → words = words'

/-- The characters that share a word. -/
def labelGroup (a : Fin 16 → Byte) (k : Fin 4) : List Byte :=
  List.ofFn fun m : Fin 4 => a ⟨4 * k + m, by omega⟩

/-- Zeros are at the end only, and every character from 128 on has only characters 255 behind it
in its word. -/
structure KeepsText (text : List Byte) : Prop where
  zeros : Padded (padded 16 text)
  signs : ∀ k, SignsFill (labelGroup (padded 16 text) k)

variable {text cs : List Byte} {words : Fin 4 → Word} {a b : Fin 16 → Byte}

/-! ### The loops of `set_partition_comment` -/

/-- The inner loop puts the next four characters together, as `str4` does. -/
theorem commentWord_eq (cs : List Byte) :
    commentWord 4 0 0 cs = (nameWord cs, cs.drop 4) := by
  have hfirst (c : Byte) : (0 : Word) ||| c.signExtend 32 <<< 0 = c.signExtend 32 := by simp
  have hpad (w : Word) (k : ℕ) : ((0 : Byte).signExtend 32 <<< k) ||| w = w := by simp
  match cs with
  | [] => rfl
  | [c₀] =>
    have hword : nameWord [c₀] = str4 c₀ 0 0 0 := rfl
    have hloop : commentWord 4 0 0 [c₀] = ((0 : Word) ||| c₀.signExtend 32 <<< 0, []) := rfl
    rw [hword, hloop, hfirst, str4, hpad, hpad, hpad]
    rfl
  | [c₀, c₁] =>
    have hword : nameWord [c₀, c₁] = str4 c₀ c₁ 0 0 := rfl
    have hloop : commentWord 4 0 0 [c₀, c₁] =
        ((0 : Word) ||| c₀.signExtend 32 <<< 0 ||| c₁.signExtend 32 <<< 8, []) := rfl
    rw [hword, hloop, hfirst, str4, hpad, hpad, BitVec.or_comm]
    rfl
  | [c₀, c₁, c₂] =>
    have hword : nameWord [c₀, c₁, c₂] = str4 c₀ c₁ c₂ 0 := rfl
    have hloop : commentWord 4 0 0 [c₀, c₁, c₂] =
        ((0 : Word) ||| c₀.signExtend 32 <<< 0 ||| c₁.signExtend 32 <<< 8 |||
          c₂.signExtend 32 <<< 16, []) := rfl
    rw [hword, hloop, hfirst, str4, hpad, BitVec.or_comm, BitVec.or_comm (c₀.signExtend 32),
      BitVec.or_assoc]
    rfl
  | c₀ :: c₁ :: c₂ :: c₃ :: cs =>
    have hword : nameWord (c₀ :: c₁ :: c₂ :: c₃ :: cs) = str4 c₀ c₁ c₂ c₃ := rfl
    have hloop : commentWord 4 0 0 (c₀ :: c₁ :: c₂ :: c₃ :: cs) =
        ((0 : Word) ||| c₀.signExtend 32 <<< 0 ||| c₁.signExtend 32 <<< 8 |||
          c₂.signExtend 32 <<< 16 ||| c₃.signExtend 32 <<< 24, cs) := rfl
    rw [hword, hloop, hfirst, str4, BitVec.or_comm,
      BitVec.or_comm (_ ||| _) (c₂.signExtend 32 <<< 16), BitVec.or_comm (c₀.signExtend 32),
      BitVec.or_assoc, BitVec.or_assoc]
    rfl

/-- A turn of the outer loop fills the word of its turn. -/
theorem commentTurn_eq {label : Fin 4 → Word} {j : Fin 4} (h : label j = 0) :
    commentTurn (label, cs.drop (4 * j)) j =
      (Function.update label j (labelWords cs j), cs.drop (4 * (j + 1))) := by
  have hword : nameWord (cs.drop (4 * j)) = labelWords cs j := by
    simp only [nameWord, labelWords, List.getElem?_drop, Nat.add_zero]
  have hdrop : (cs.drop (4 * j)).drop 4 = cs.drop (4 * (j + 1)) := by
    rw [List.drop_drop, Nat.mul_add]
  unfold commentTurn
  by_cases hempty : cs.drop (4 * j.val) = []
  · -- the words of the turns that are left out stay 0
    have hzero : labelWords cs j = label j := by
      rw [← hword, hempty, h]
      rfl
    rw [if_pos hempty, ← hdrop, hempty, hzero, Function.update_eq_self]
    rfl
  · rw [if_neg hempty]
    simp only [commentWord_eq, hword, hdrop]

/-- The first turns fill the first words. -/
theorem foldl_commentTurn {m : ℕ} (hm : m ≤ 4) :
    ((List.finRange 4).take m).foldl commentTurn (fun _ => 0, cs) =
      (fun j => if j.val < m then labelWords cs j else 0, cs.drop (4 * m)) := by
  induction m with
  | zero => rfl
  | succ m ih =>
    have hlt : m < (List.finRange 4).length := by
      rw [List.length_finRange]
      omega
    have hturn : (List.finRange 4)[m] = ⟨m, by omega⟩ := List.getElem_finRange _
    rw [List.take_succ_eq_append_getElem hlt, List.foldl_append, ih (by omega), hturn,
      List.foldl_cons, List.foldl_nil, commentTurn_eq (j := ⟨m, by omega⟩) (if_neg (by simp))]
    congr 1
    funext j
    by_cases hj : j = ⟨m, by omega⟩
    · rw [hj, Function.update_self, if_pos (Nat.lt_succ_self m)]
    · have hne : j.val ≠ m := fun h => hj (Fin.ext h)
      rw [Function.update_of_ne hj]
      by_cases hjm : j.val < m
      · rw [if_pos hjm, if_pos (by omega)]
      · rw [if_neg hjm, if_neg (by omega)]

/-- Both commands make the same words of a text. -/
theorem commentWords_eq (comment : List Byte) :
    commentWords comment = labelWords (cString comment) := by
  have hall : (List.finRange 4).take 4 = List.finRange 4 := rfl
  rw [commentWords, ← hall, foldl_commentTurn (Nat.le_refl 4)]
  funext j
  exact if_pos j.isLt

/-! ### The words on a pack -/

variable {pack : List Byte} {l : DiskLabelS} {i : Fin 18}

attribute [local irreducible] DiskLabelS.bytes in
/-- The label of a pack to which one is written. -/
theorem labelAt_writeDiskLabel (l : DiskLabelS) (pack : List Byte) :
    labelAt (fileMedium (writeDiskLabel l pack)) = l := by
  have hstart : writeDiskLabel l pack = l.bytes ++ pack.drop (0 + l.bytes.length) := by
    rw [writeDiskLabel, overwrite, List.take_zero, Nat.zero_sub, List.replicate_zero,
      List.nil_append, List.nil_append]
  have hbytes : BytesAt (fileMedium (writeDiskLabel l pack)) 0 l.bytes := by
    have hfile (k : ℕ) (hk : k < l.bytes.length) :
        (l.bytes ++ pack.drop (0 + l.bytes.length))[0 + k]? = l.bytes[k]? := by
      rw [List.getElem?_append_left (by omega), Nat.zero_add]
    rw [hstart]
    exact bytesAt_fileMedium hfile
  exact labelAt_of_bytesAt hbytes

@[simp] theorem label_withWords_self (l : DiskLabelS) (i : Fin 18) (words : Fin 4 → Word) :
    ((l.withWords i words).parts i).label = words :=
  congrArg PartS.label (Function.update_self i _ l.parts)

/-- The words that `restore_band` stores. -/
theorem RestoreStores.eq (h : RestoreStores text words) : words = labelWords (cString text) := by
  obtain ⟨reads, srcFilename, src, filename, bandName, pack, pack', l, i, hname, hfind, hrun,
    rfl⟩ := h
  unfold restoreBand at hrun
  rw [hfind] at hrun
  dsimp only at hrun
  by_cases hlarge : (l.parts i).bytesSize < src.length
  · rw [if_pos hlarge] at hrun
    cases hrun
  · rw [if_neg hlarge] at hrun
    cases hrun
    rw [labelAt_writeDiskLabel, parts_withLabel_self, ← hname]
    rfl

/-- What `set_partition_comment` does to a band that is found. -/
theorem setPartitionComment_of_some {filename bandName : List Byte}
    (hshort : (cString text).length ≤ 16) (hread : readDiskLabel filename pack = .ok l)
    (hfind : findPartition l (nameWord bandName) = some i) :
    setPartitionComment filename bandName text pack =
      (.ok (), writeDiskLabel (l.withWords i (labelWords (cString text))) pack) := by
  unfold setPartitionComment
  rw [if_neg (Nat.not_lt_of_le hshort), hread]
  dsimp only
  rw [hfind, commentWords_eq]

/-- The words that `set_partition_comment` stores. -/
theorem CommentStores.eq (hshort : (cString text).length ≤ 16) (h : CommentStores text words) :
    words = labelWords (cString text) := by
  obtain ⟨filename, bandName, pack, pack', l, i, hread, hfind, hrun, rfl⟩ := h
  rw [setPartitionComment_of_some hshort hread hfind] at hrun
  cases hrun
  rw [labelAt_writeDiskLabel, label_withWords_self]

/-- There is a pack on which it stores them. -/
theorem commentStores (hshort : (cString text).length ≤ 16) :
    CommentStores text (labelWords (cString text)) := by
  have hread := (DiskPack.oneBand (nameWord (chars "LOD1"))).accepted []
  have hfind : findPartition (DiskPack.oneBand (nameWord (chars "LOD1"))).label
      (nameWord (chars "LOD1")) = some 0 :=
    findPartition_eq_some.mpr ⟨⟨Nat.one_pos, rfl⟩, fun j hj => absurd hj (Fin.not_lt_zero j)⟩
  have hrun := setPartitionComment_of_some hshort hread hfind
  refine ⟨[], _, _, _, _, 0, hread, hfind, hrun, ?_⟩
  rw [labelAt_writeDiskLabel, label_withWords_self]

/-! ### Decoding -/

/-- The words decode to a text if each of them decodes to its four characters. -/
theorem unstr16_eq_iff :
    unstr16 words = List.ofFn b ↔ ∀ k, unstr4 (words k) = labelGroup b k := by
  have hgroups : List.ofFn b =
      labelGroup b 0 ++ labelGroup b 1 ++ labelGroup b 2 ++ labelGroup b 3 := rfl
  have hlength (k k' : Fin 4) : (unstr4 (words k)).length = (labelGroup b k').length := rfl
  rw [unstr16, hgroups]
  constructor
  · intro h
    obtain ⟨h012, h3⟩ := List.append_inj' h (hlength 3 3)
    obtain ⟨h01, h2⟩ := List.append_inj' h012 (hlength 2 2)
    obtain ⟨h0, h1⟩ := List.append_inj' h01 (hlength 1 1)
    intro k
    obtain rfl | rfl | rfl | rfl : k = 0 ∨ k = 1 ∨ k = 2 ∨ k = 3 := by omega
    · exact h0
    · exact h1
    · exact h2
    · exact h3
  · intro h
    rw [h 0, h 1, h 2, h 3]

/-- The word of four characters. -/
theorem labelWords_eq (text : List Byte) (k : Fin 4) :
    labelWords text k = nameWord (labelGroup (padded 16 text) k) := rfl

/-- What four characters decode to decodes to itself. -/
theorem signsFill_unstr4 (name : List Byte) : SignsFill (unstr4 (nameWord name)) := by
  have hagain : nameWord (unstr4 (nameWord name)) = nameWord name := by
    rw [nameWord, nameWord, unstr4_str4]
    exact str4_or_fill _ _ _ _
  rw [← unstr4_nameWord rfl, hagain]

/-- The signs of the characters of a word fill no other one. -/
theorem signsFill_labelGroup {k : Fin 4} :
    SignsFill (labelGroup a k) ↔ ∀ m m' : Fin 4, m < m' →
      (a ⟨4 * k + m, by omega⟩).msb → a ⟨4 * k + m', by omega⟩ = 0xFF := by
  rw [SignsFill, labelGroup, List.pairwise_ofFn]

/-- A character of a string in an array, before and behind its end. -/
theorem padded_cString_eq (text : List Byte) (i : Fin 16) :
    padded 16 (cString text) i = if i < (cString text).length then padded 16 text i else 0 := by
  obtain ⟨tl, htl⟩ : cString text <+: text := List.takeWhile_prefix _
  unfold padded
  by_cases hi : i.val < (cString text).length
  · have hfront : text[i.val]? = (cString text)[i.val]? := by
      conv_lhs => rw [← htl]
      exact List.getElem?_append_left hi
    rw [if_pos hi, hfront]
  · rw [if_neg hi, List.getElem?_eq_none (Nat.le_of_not_lt hi), Option.getD_none]

/-- The string ends at a zero, or with the array. -/
theorem padded_of_eq_length_cString {i : Fin 16} (hi : i.val = (cString text).length) :
    padded 16 text i = 0 := by
  have hsplit : cString text ++ text.dropWhile (· ≠ 0) = text := List.takeWhile_append_dropWhile
  have hhead := List.head?_dropWhile_not (· ≠ 0) text
  have hplace : text[i.val]? = (text.dropWhile (· ≠ 0)).head? := by
    conv_lhs => rw [← hsplit]
    rw [hi, List.getElem?_append_right (Nat.le_refl _), Nat.sub_self, List.head?_eq_getElem?]
  rw [padded, hplace]
  cases hrest : (text.dropWhile (· ≠ 0)).head? with
  | none => rfl
  | some c =>
    rw [hrest] at hhead
    simpa using hhead

/-- A text that is decoded from its words has its zeros at the end and no sign that fills another
character. -/
theorem keepsText_of_decoded
    (h : unstr16 (labelWords (cString text)) = List.ofFn (padded 16 text)) : KeepsText text := by
  have hgroup (k : Fin 4) : unstr4 (nameWord (labelGroup (padded 16 (cString text)) k)) =
      labelGroup (padded 16 text) k := by
    rw [← labelWords_eq]
    exact unstr16_eq_iff.mp h k
  have hsigns (k : Fin 4) : SignsFill (labelGroup (padded 16 text) k) := by
    rw [← hgroup k]
    exact signsFill_unstr4 _
  -- what is cut off behind a zero has filled no other character
  have hcut (k : Fin 4) : SignsFill (labelGroup (padded 16 (cString text)) k) := by
    rw [signsFill_labelGroup]
    intro m m' hlt hmsb
    have hlt' : m.val < m'.val := hlt
    have hpair := signsFill_labelGroup.mp (hsigns k) m
    rw [padded_cString_eq] at hmsb ⊢
    dsimp only at hmsb ⊢
    by_cases hm : 4 * k.val + m.val < (cString text).length
    · rw [if_pos hm] at hmsb
      by_cases hm' : 4 * k.val + m'.val < (cString text).length
      · rw [if_pos hm']
        exact hpair m' hlt hmsb
      · have hend : (cString text).length - 4 * k.val < 4 := by omega
        have hones := hpair ⟨(cString text).length - 4 * k.val, hend⟩
          (Fin.lt_def.mpr (by dsimp only; omega)) hmsb
        rw [padded_of_eq_length_cString (by dsimp only; omega)] at hones
        exact absurd hones (by decide)
    · rw [if_neg hm] at hmsb
      exact absurd hmsb (by decide)
  have hsame : padded 16 (cString text) = padded 16 text := by
    have hwhole : unstr16 (labelWords (cString text)) = List.ofFn (padded 16 (cString text)) := by
      rw [unstr16_eq_iff]
      intro k
      rw [labelWords_eq]
      exact (unstr4_nameWord rfl).mpr (hcut k)
    exact List.ofFn_injective (hwhole.symm.trans h)
  have hzeros : Padded (padded 16 (cString text)) :=
    padded_padded fun b hb => ne_zero_of_mem_cString hb
  rw [hsame] at hzeros
  exact ⟨hzeros, hsigns⟩

/-- Such a text is decoded from its words. -/
theorem KeepsText.decoded (h : KeepsText text) :
    unstr16 (labelWords (cString text)) = List.ofFn (padded 16 text) := by
  have hsame : padded 16 (cString text) = padded 16 text := by
    funext i
    rw [padded_cString_eq]
    by_cases hi : i.val < (cString text).length
    · exact if_pos hi
    · rw [if_neg hi]
      have hle : (cString text).length ≤ i.val := Nat.le_of_not_lt hi
      have hend : (cString text).length < 16 := Nat.lt_of_le_of_lt hle i.isLt
      exact (h.zeros ⟨_, hend⟩ i hle (padded_of_eq_length_cString rfl)).symm
  rw [unstr16_eq_iff]
  intro k
  rw [labelWords_eq, hsame]
  exact (unstr4_nameWord rfl).mpr (h.signs k)

/-- A text of at most 16 bytes is kept by both commands if and only if its zeros are at its end and
every character from 128 on has only characters 255 behind it in its word. -/
theorem storesText_iff (text : List Byte) (h : text.length ≤ 16) :
    StoresText text ↔ KeepsText text := by
  have hshort : (cString text).length ≤ 16 :=
    Nat.le_trans (List.takeWhile_prefix _).length_le h
  constructor
  · intro hstores
    exact keepsText_of_decoded (hstores.decoded _ (.inr (commentStores hshort)))
  · intro hkeeps
    constructor
    · rintro words (hrestore | hcomment)
      · rw [hrestore.eq]
        exact hkeeps.decoded
      · rw [hcomment.eq hshort]
        exact hkeeps.decoded
    · intro words words' hrestore hcomment
      rw [hrestore.eq, hcomment.eq hshort]

/-- A text of ASCII characters. -/
theorem storesText_exp1 : StoresText (chars "EXP 1") :=
  (storesText_iff (chars "EXP 1") (by decide)).mpr
    ⟨padded_padded (by decide), by decide⟩

/-- The text of the one character 128. -/
theorem not_storesText : ¬StoresText [0x80] := by
  intro h
  have hkeeps := keepsText_of_decoded (h.decoded _ (.inr (commentStores (by decide))))
  exact absurd (hkeeps.signs 0) (by decide)

end Diskmaker

end Usim
