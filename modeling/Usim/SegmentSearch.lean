import Usim.Lib.Loop
import Usim.StateFile

/-!
# The search for a segment

`dump_find_segment` follows the headers of a file by the sizes in them. A size is one of 32
bits with a sign, so that the search can go back; it ends unless it comes back to a header.
-/

namespace Usim

open Lib

/-- A word is at a position of a file. -/
def HasWord (bytes : List Byte) (pos : ℕ) (w : Word) : Prop := le32 w <+: bytes.drop pos

/-- The header at a position leads on to another one: it has neither the tag nor `EOF_`, and
four times its size, as a number of 32 bits with a sign, is the way to go. A way to before
the first byte is not gone. -/
def LeadsTo (bytes : List Byte) (tag : Word) (pos pos' : ℕ) : Prop :=
  ∃ t size : Word, HasWord bytes pos t ∧ HasWord bytes (pos + 4) size ∧ t ≠ tag ∧
    t ≠ str4 "EOF_" ∧
      (pos' : ℤ) = if 0 ≤ (pos + 8 : ℤ) + (size * 4).toInt then pos + 8 + (size * 4).toInt
        else pos + 8

/-- What `read32le` says when `n` bytes are left. -/
def shortRead (n : ℕ) : FileFault := .err ⟨"read32le: read error; ret %d, size %d", [n, 4]⟩

/-- The search returns, or fails because the file is too short. -/
def SearchEnds (r : Except FileFault (Word × ReadFile)) : Prop :=
  (∃ v, r = .ok v) ∨ ∃ n < 4, r = .error (shortRead n)

/-- What `write` transfers at most. A longer array is a write error. -/
def writeLimit : ℕ := 0x7FFFF000

/-- A segment as it is given to `dump_write_value`, or to `dump_write_segment` with its words in
memory. -/
inductive WrittenSegment
  | value (type value : Word)
  | array (type size : Word) (data : List Byte) (hdata : (size * 4).toNat ≤ data.length)
    (hwrite : (size * 4).toNat ≤ writeLimit)

namespace WrittenSegment

/-- The tag of the header. -/
def tag : WrittenSegment → Word
  | value type _ => type
  | array type .. => type

/-- The size in the header. -/
def size : WrittenSegment → Word
  | value .. => 1
  | array _ size .. => size

/-- The bytes behind the header. -/
def data : WrittenSegment → List Byte
  | value _ v => le32 v
  | array _ size data .. => data.take (size * 4).toNat

/-- The segment is written. -/
def write (fd : List Byte) : WrittenSegment → List Byte
  | value type v => dumpWriteValue fd type v
  | array type size data .. => dumpWriteSegment fd type size data

/-- The bytes of the segment. -/
def bytes (g : WrittenSegment) : List Byte := le32 g.tag ++ le32 g.size ++ g.data

end WrittenSegment

/-- A file of the header, some segments and `EOF_`. -/
def segmentFile (magic version : Word) (segments : List WrittenSegment) : List Byte :=
  dumpWriteHeader (segments.foldl WrittenSegment.write (write32le (write32le [] magic) version))
    (str4 "EOF_") 0

/-- The first segment with the tag is found: its size is returned, with the file at its data. If
there is none, -1 is returned. -/
def FindsFirst (magic version : Word) (segments : List WrittenSegment) (tag : Word) (pos : ℕ) :
    Prop :=
  (∀ front g back, segments = front ++ g :: back → g.tag = tag → (∀ g' ∈ front, g'.tag ≠ tag) →
    ∃ fuel size, dumpFindSegment fuel ⟨segmentFile magic version segments, pos⟩ tag =
        .ok (size, ⟨segmentFile magic version segments,
          8 + (front.flatMap WrittenSegment.bytes).length + 8⟩) ∧
      size.toInt = g.size.toNat) ∧
  ((∀ g ∈ segments, g.tag ≠ tag) →
    ∃ fuel fd, dumpFindSegment fuel ⟨segmentFile magic version segments, pos⟩ tag = .ok (-1, fd))

/-- No segment in front of the first one with the tag is called `EOF_`, and its size is less than
2 ^ 31. If there is none, the tag is not `EOF_`. -/
def Findable (segments : List WrittenSegment) (tag : Word) : Prop :=
  (∀ front g back, segments = front ++ g :: back → g.tag = tag → (∀ g' ∈ front, g'.tag ≠ tag) →
    (∀ g' ∈ front, g'.tag ≠ str4 "EOF_") ∧ g.size.toNat < 2 ^ 31) ∧
  ((∀ g ∈ segments, g.tag ≠ tag) → tag ≠ str4 "EOF_")

section Search

variable {bytes : List Byte} {tag : Word} {pos fuel : ℕ}

/-! ### A turn -/

/-- A turn of the search: the next position, or what the search ends with. -/
def findSegmentTurn (bytes : List Byte) (tag : Word) (pos : ℕ) :
    ℕ ⊕ Except FileFault (Word × ReadFile) :=
  match read32le ⟨bytes, pos⟩ with
  | .error e => .inr (.error e)
  | .ok (t, fd) =>
    match read32le fd with
    | .error e => .inr (.error e)
    | .ok (size, fd) =>
      if t = tag then .inr (.ok (size, fd))
      else if t ≠ str4 "EOF_" then .inl (fd.seekCur (size * 4).toInt).pos
      else .inr (.ok (-1, fd.seekCur (size * 4).toInt))

/-- A word is there and is read, or the read is short. -/
theorem read32le_cases (bytes : List Byte) (pos : ℕ) :
    (∃ w, HasWord bytes pos w ∧ read32le ⟨bytes, pos⟩ = .ok (w, ⟨bytes, pos + 4⟩)) ∨
      (∀ w, ¬HasWord bytes pos w) ∧ ∃ n < 4, read32le ⟨bytes, pos⟩ = .error (shortRead n) := by
  by_cases hlength : 4 ≤ (bytes.drop pos).length
  · left
    obtain ⟨b₀, b₁, b₂, b₃, tl, htl⟩ : ∃ b₀ b₁ b₂ b₃ tl, bytes.drop pos =
        b₀ :: b₁ :: b₂ :: b₃ :: tl := by
      generalize bytes.drop pos = rest at hlength
      match rest, hlength with
      | b₀ :: b₁ :: b₂ :: b₃ :: tl, _ => exact ⟨b₀, b₁, b₂, b₃, tl, rfl⟩
    have hrest : (⟨bytes, pos⟩ : ReadFile).rest = le32 (b₃ ++ b₂ ++ b₁ ++ b₀) ++ tl := by
      rw [le32_append]
      exact htl
    exact ⟨b₃ ++ b₂ ++ b₁ ++ b₀, ⟨tl, hrest.symm⟩, read32le_append hrest⟩
  · right
    constructor
    · rintro w ⟨tl, htl⟩
      rw [← htl, List.length_append, length_le32] at hlength
      omega
    · have hread : ((⟨bytes, pos⟩ : ReadFile).read 4).1 = bytes.drop pos :=
        List.take_of_length_le (by change (bytes.drop pos).length ≤ 4; omega)
      refine ⟨(bytes.drop pos).length, by omega, ?_⟩
      unfold read32le
      split
      · rename_i hfour
        rw [hfour] at hread
        rw [← hread] at hlength
        exact absurd (Nat.le_refl 4) hlength
      · rename_i hother
        rw [hother] at hread
        change _ = bytes.drop pos at hread
        rw [← hread]
        rfl

/-- A word is read. -/
theorem HasWord.read32le {w : Word} (h : HasWord bytes pos w) :
    read32le ⟨bytes, pos⟩ = .ok (w, ⟨bytes, pos + 4⟩) := by
  obtain ⟨tl, htl⟩ := h
  exact read32le_append htl.symm

/-- Moving keeps the bytes. -/
theorem seekCur_bytes (fd : ReadFile) (offset : ℤ) : (fd.seekCur offset).bytes = fd.bytes := by
  unfold ReadFile.seekCur
  split <;> rfl

/-- What a turn finds: the file ends in the header, or there is a tag and a size. -/
theorem findSegmentTurn_cases (bytes : List Byte) (tag : Word) (pos : ℕ) :
    (∃ t size, HasWord bytes pos t ∧ HasWord bytes (pos + 4) size ∧
      findSegmentTurn bytes tag pos =
        if t = tag then .inr (.ok (size, ⟨bytes, pos + 8⟩))
        else if t ≠ str4 "EOF_" then
          .inl ((⟨bytes, pos + 8⟩ : ReadFile).seekCur (size * 4).toInt).pos
        else .inr (.ok (-1, (⟨bytes, pos + 8⟩ : ReadFile).seekCur (size * 4).toInt))) ∨
      (¬∃ t size, HasWord bytes pos t ∧ HasWord bytes (pos + 4) size) ∧
        ∃ n < 4, findSegmentTurn bytes tag pos = .inr (.error (shortRead n)) := by
  unfold findSegmentTurn
  obtain ⟨t, ht, hread⟩ | ⟨hno, n, hn, hread⟩ := read32le_cases bytes pos
  · obtain ⟨size, hsize, hread'⟩ | ⟨hno, n, hn, hread'⟩ := read32le_cases bytes (pos + 4)
    · left
      refine ⟨t, size, ht, hsize, ?_⟩
      simp only [hread, hread']
    · right
      refine ⟨fun ⟨_, size, _, hsize⟩ => hno size hsize, n, hn, ?_⟩
      simp only [hread, hread']
  · right
    refine ⟨fun ⟨t, _, ht, _⟩ => hno t ht, n, hn, ?_⟩
    simp only [hread]

/-- There is one word at a position. -/
theorem HasWord.unique {w w' : Word} (h : HasWord bytes pos w) (h' : HasWord bytes pos w') :
    w = w' := by
  have hread := h.read32le.symm.trans h'.read32le
  exact (Prod.mk.inj (Except.ok.inj hread)).1

/-- The search goes on from a header to the one that it leads to. -/
theorem findSegmentTurn_eq_inl {pos' : ℕ} :
    findSegmentTurn bytes tag pos = .inl pos' ↔ LeadsTo bytes tag pos pos' := by
  have hseek (size : Word) : (((⟨bytes, pos + 8⟩ : ReadFile).seekCur (size * 4).toInt).pos : ℤ) =
      if 0 ≤ (pos + 8 : ℤ) + (size * 4).toInt then pos + 8 + (size * 4).toInt else pos + 8 := by
    unfold ReadFile.seekCur
    simp only [Nat.cast_add, Nat.cast_ofNat]
    split
    · exact Int.toNat_of_nonneg ‹_›
    · rfl
  constructor
  · intro h
    obtain ⟨t, size, ht, hsize, hturn⟩ | ⟨-, n, -, hturn⟩ := findSegmentTurn_cases bytes tag pos
    · rw [hturn] at h
      split at h
      · cases h
      split at h
      · refine ⟨t, size, ht, hsize, ‹_›, ‹_›, ?_⟩
        rw [← hseek, Sum.inl.inj h]
      · cases h
    · rw [hturn] at h
      cases h
  · rintro ⟨t, size, ht, hsize, htag, heof, hpos⟩
    obtain ⟨t', size', ht', hsize', hturn⟩ | ⟨hno, -⟩ := findSegmentTurn_cases bytes tag pos
    · obtain rfl := ht.unique ht'
      obtain rfl := hsize.unique hsize'
      rw [hturn, if_neg htag, if_pos heof]
      rw [← hseek] at hpos
      exact congrArg Sum.inl (Int.ofNat_inj.mp hpos).symm
    · exact absurd ⟨t, size, ht, hsize⟩ hno

/-- What the search ends with. -/
theorem searchEnds_of_inr {r : Except FileFault (Word × ReadFile)}
    (h : findSegmentTurn bytes tag pos = .inr r) : SearchEnds r := by
  obtain ⟨t, size, -, -, hturn⟩ | ⟨-, n, hn, hturn⟩ := findSegmentTurn_cases bytes tag pos
  · rw [hturn] at h
    split at h
    · exact .inl ⟨_, (Sum.inr.inj h).symm⟩
    split at h
    · cases h
    · exact .inl ⟨_, (Sum.inr.inj h).symm⟩
  · rw [hturn] at h
    exact .inr ⟨n, hn, (Sum.inr.inj h).symm⟩

/-- The loop with a header that is read. -/
theorem findSegmentLoop_eq {t size : Word} (ht : read32le ⟨bytes, pos⟩ = .ok (t, ⟨bytes, pos + 4⟩))
    (hsize : read32le ⟨bytes, pos + 4⟩ = .ok (size, ⟨bytes, pos + 8⟩)) :
    findSegmentLoop tag (fuel + 1) ⟨bytes, pos⟩ =
      if t = tag then .ok (size, ⟨bytes, pos + 8⟩)
      else if t ≠ str4 "EOF_" then
        findSegmentLoop tag fuel ((⟨bytes, pos + 8⟩ : ReadFile).seekCur (size * 4).toInt)
      else .ok (-1, (⟨bytes, pos + 8⟩ : ReadFile).seekCur (size * 4).toInt) := by
  rw [findSegmentLoop, ht]
  change ((read32le ⟨bytes, pos + 4⟩).bind _ : Except FileFault (Word × ReadFile)) = _
  rw [hsize]
  rfl

/-- The loop with a header that the file does not have. -/
theorem findSegmentLoop_short {n : ℕ}
    (h : findSegmentTurn bytes tag pos = .inr (.error (shortRead n))) :
    findSegmentLoop tag (fuel + 1) ⟨bytes, pos⟩ = .error (shortRead n) := by
  unfold findSegmentTurn at h
  rw [findSegmentLoop]
  obtain ⟨t, -, hread⟩ | ⟨-, m, -, hread⟩ := read32le_cases bytes pos
  · obtain ⟨size, -, hread'⟩ | ⟨-, m, -, hread'⟩ := read32le_cases bytes (pos + 4)
    · simp only [hread, hread'] at h
      split at h
      · cases h
      split at h
      · cases h
      · cases h
    · simp only [hread, hread'] at h
      rw [hread]
      change ((read32le ⟨bytes, pos + 4⟩).bind _ : Except FileFault (Word × ReadFile)) = _
      rw [hread', Sum.inr.inj h]
      rfl
  · simp only [hread] at h
    rw [hread, Sum.inr.inj h]
    rfl

/-- The loop takes a turn. -/
theorem findSegmentLoop_succ (bytes : List Byte) (tag : Word) (fuel pos : ℕ) :
    (∀ pos', findSegmentTurn bytes tag pos = .inl pos' →
      findSegmentLoop tag (fuel + 1) ⟨bytes, pos⟩ = findSegmentLoop tag fuel ⟨bytes, pos'⟩) ∧
    ∀ r, findSegmentTurn bytes tag pos = .inr r →
      findSegmentLoop tag (fuel + 1) ⟨bytes, pos⟩ = r := by
  obtain ⟨t, size, ht, hsize, hturn⟩ | ⟨-, n, -, hturn⟩ := findSegmentTurn_cases bytes tag pos
  · rw [hturn, findSegmentLoop_eq ht.read32le hsize.read32le]
    by_cases htag : t = tag
    · rw [if_pos htag, if_pos htag]
      exact ⟨fun _ h => (nomatch h), fun r h => Sum.inr.inj h⟩
    · by_cases heof : t ≠ str4 "EOF_"
      · rw [if_neg htag, if_neg htag, if_pos heof, if_pos heof]
        refine ⟨fun pos' h => ?_, fun _ h => nomatch h⟩
        obtain rfl := Sum.inl.inj h
        exact congrArg (findSegmentLoop tag fuel)
          (congrArg (ReadFile.mk · _) (seekCur_bytes ⟨bytes, pos + 8⟩ _))
      · rw [if_neg htag, if_neg htag, if_neg heof, if_neg heof]
        exact ⟨fun _ h => (nomatch h), fun r h => Sum.inr.inj h⟩
  · refine ⟨fun _ h => (nomatch hturn.symm.trans h), fun r h => ?_⟩
    rw [findSegmentLoop_short hturn]
    exact Sum.inr.inj (hturn.symm.trans h)

/-! ### Every file -/

/-- The loop ends as its turns do. -/
theorem findSegmentLoop_of_endsAfter {n : ℕ} {r : Except FileFault (Word × ReadFile)}
    (h : EndsAfter (findSegmentTurn bytes tag) n pos r) (k : ℕ) :
    findSegmentLoop tag (n + 1 + k) ⟨bytes, pos⟩ = r := by
  induction h with
  | left h =>
    rw [Nat.add_right_comm]
    exact (findSegmentLoop_succ bytes tag _ _).2 _ h
  | next h rest ih =>
    rw [Nat.add_right_comm, (findSegmentLoop_succ bytes tag _ _).1 _ h]
    exact ih

/-- A loop that has enough turns ends as they do. -/
theorem endsAfter_of_findSegmentLoop {r : Except FileFault (Word × ReadFile)}
    (h : findSegmentLoop tag fuel ⟨bytes, pos⟩ = r) (hr : SearchEnds r) :
    ∃ n, EndsAfter (findSegmentTurn bytes tag) n pos r := by
  induction fuel generalizing pos with
  | zero =>
    obtain ⟨v, hv⟩ | ⟨n, -, hn⟩ := hr
    · exact nomatch h.trans hv
    · exact nomatch h.trans hn
  | succ fuel ih =>
    cases hturn : findSegmentTurn bytes tag pos with
    | inl pos' =>
      rw [(findSegmentLoop_succ bytes tag fuel pos).1 pos' hturn] at h
      obtain ⟨n, hn⟩ := ih h
      exact ⟨n + 1, .next hturn hn⟩
    | inr r' =>
      rw [(findSegmentLoop_succ bytes tag fuel pos).2 r' hturn] at h
      exact ⟨0, .left (h ▸ hturn)⟩

/-- The search of a file ends if and only if no header leads back to itself. -/
theorem searchEnds_iff (fd : ReadFile) (tag : Word) :
    (∃ fuel, SearchEnds (dumpFindSegment fuel fd tag)) ↔
      ∀ pos, Relation.ReflTransGen (LeadsTo fd.bytes tag) 8 pos →
        ¬Relation.TransGen (LeadsTo fd.bytes tag) pos pos := by
  have hrelation : (fun pos pos' => findSegmentTurn fd.bytes tag pos = .inl pos') =
      LeadsTo fd.bytes tag := by
    funext pos pos'
    exact propext findSegmentTurn_eq_inl
  have hfinite : {pos | ∃ pos', findSegmentTurn fd.bytes tag pos = .inl pos'}.Finite := by
    apply (Set.finite_lt_nat fd.bytes.length).subset
    rintro pos ⟨pos', hpos'⟩
    obtain ⟨t, -, ⟨tl, htl⟩, -⟩ := findSegmentTurn_eq_inl.mp hpos'
    have hlength := congrArg List.length htl
    rw [List.length_append, length_le32, List.length_drop] at hlength
    change pos < fd.bytes.length
    omega
  have hloop := exists_endsAfter_iff hfinite (s := 8)
  unfold Visits at hloop
  rw [hrelation] at hloop
  rw [← hloop]
  constructor
  · rintro ⟨fuel, hends⟩
    have hloop : findSegmentLoop tag fuel ⟨fd.bytes, 8⟩ = findSegmentLoop tag fuel ⟨fd.bytes, 8⟩ :=
      rfl
    obtain ⟨n, hn⟩ := endsAfter_of_findSegmentLoop hloop hends
    exact ⟨n, _, hn⟩
  · rintro ⟨n, r, h⟩
    refine ⟨n + 1, ?_⟩
    have hends : SearchEnds r := h.of_turn (I := fun _ => True) (fun _ _ _ _ => trivial)
      (fun _ _ _ hturn => searchEnds_of_inr hturn) trivial
    have hresult : dumpFindSegment (n + 1) fd tag = r := findSegmentLoop_of_endsAfter h 0
    rwa [hresult]

/-! ### Files that are written -/

namespace WrittenSegment

variable {g : WrittenSegment} {tl : List Byte}

/-- The bytes that are written. -/
theorem write_eq (fd : List Byte) (g : WrittenSegment) : g.write fd = fd ++ g.bytes := by
  cases g with
  | value type v =>
    simp only [write, dumpWriteValue, dumpWriteHeader, write32le, bytes, tag, size, data,
      List.append_assoc]
  | array type size' data' hdata hwrite =>
    simp only [write, dumpWriteSegment, dumpWriteData, dumpWriteHeader, write32le, bytes, tag, size,
      data, List.append_assoc]

/-- The data is as long as the search takes it to be. -/
theorem toInt_size_mul (g : WrittenSegment) : (g.size * 4).toInt = g.data.length := by
  have hlength : g.data.length = (g.size * 4).toNat ∧ (g.size * 4).toNat ≤ writeLimit := by
    cases g with
    | value type v => exact ⟨rfl, show 4 ≤ writeLimit by decide⟩
    | array type size' data' hdata hwrite => exact ⟨List.length_take_of_le hdata, hwrite⟩
  unfold writeLimit at hlength
  rw [BitVec.toInt_eq_toNat_of_lt (by omega), hlength.1]

/-- A turn at a segment. -/
theorem turn (h : bytes.drop pos = g.bytes ++ tl) :
    findSegmentTurn bytes tag pos =
      if g.tag = tag then .inr (.ok (g.size, ⟨bytes, pos + 8⟩))
      else if g.tag ≠ str4 "EOF_" then .inl (pos + g.bytes.length)
      else .inr (.ok (-1, ⟨bytes, pos + g.bytes.length⟩)) := by
  have hword : HasWord bytes pos g.tag := by
    refine ⟨le32 g.size ++ g.data ++ tl, ?_⟩
    rw [h, WrittenSegment.bytes]
    simp only [List.append_assoc]
  have hsize : HasWord bytes (pos + 4) g.size := by
    refine ⟨g.data ++ tl, ?_⟩
    rw [← List.drop_drop, h, WrittenSegment.bytes, List.append_assoc, List.append_assoc]
    exact (List.drop_left' (by rfl)).symm
  have hend : (⟨bytes, pos + 8⟩ : ReadFile).seekCur (g.size * 4).toInt =
      ⟨bytes, pos + g.bytes.length⟩ := by
    rw [g.toInt_size_mul, ReadFile.seekCur_natCast, ReadFile.advance, WrittenSegment.bytes,
      List.length_append, List.length_append, length_le32, length_le32, Nat.add_assoc]
  obtain ⟨t, size, ht, hs, hturn⟩ | ⟨hno, -⟩ := findSegmentTurn_cases bytes tag pos
  · obtain rfl := hword.unique ht
    obtain rfl := hsize.unique hs
    rw [hturn, hend]
  · exact absurd ⟨_, _, hword, hsize⟩ hno

/-- The search comes to the first segment with the tag or with `EOF_`. -/
theorem endsAfter {r : Except FileFault (Word × ReadFile)} {front : List WrittenSegment} {n : ℕ}
    (hfront : ∀ g' ∈ front, g'.tag ≠ tag ∧ g'.tag ≠ str4 "EOF_")
    (h : bytes.drop pos = front.flatMap WrittenSegment.bytes ++ tl)
    (hr : EndsAfter (findSegmentTurn bytes tag) n
      (pos + (front.flatMap WrittenSegment.bytes).length) r) :
    EndsAfter (findSegmentTurn bytes tag) (front.length + n) pos r := by
  induction front generalizing pos with
  | nil =>
    rw [List.length_nil, Nat.zero_add]
    exact hr
  | cons g front ih =>
    rw [List.flatMap_cons, List.append_assoc] at h
    rw [List.flatMap_cons, List.length_append, ← Nat.add_assoc] at hr
    obtain ⟨htag, heof⟩ := hfront g List.mem_cons_self
    have hturn : findSegmentTurn bytes tag pos = .inl (pos + g.bytes.length) := by
      rw [turn h, if_neg htag, if_pos heof]
    have hrest : bytes.drop (pos + g.bytes.length) =
        front.flatMap WrittenSegment.bytes ++ tl := by
      rw [← List.drop_drop, h, List.drop_left]
    rw [List.length_cons, Nat.add_right_comm]
    exact .next hturn (ih (fun g' hg' => hfront g' (List.mem_cons_of_mem g hg')) hrest hr)

end WrittenSegment

/-- The header behind the segments. -/
def eofSegment : WrittenSegment :=
  .array (str4 "EOF_") 0 [] (by decide) (by decide)

/-- The bytes of a file of segments. -/
theorem drop_segmentFile (magic version : Word) (segments : List WrittenSegment) :
    (segmentFile magic version segments).drop 8 =
      (segments ++ [eofSegment]).flatMap WrittenSegment.bytes := by
  have hfold (fd : List Byte) : segments.foldl WrittenSegment.write fd =
      fd ++ segments.flatMap WrittenSegment.bytes := by
    induction segments generalizing fd with
    | nil => exact (List.append_nil fd).symm
    | cons g segments ih =>
      rw [List.foldl_cons, ih, WrittenSegment.write_eq, List.flatMap_cons, List.append_assoc]
  rw [segmentFile, hfold, List.flatMap_append, List.flatMap_singleton]
  simp only [dumpWriteHeader, write32le, List.nil_append, List.append_assoc]
  rfl

section Written

variable {magic version : Word} {segments front back : List WrittenSegment} {g : WrittenSegment}

/-- What the search of a file of segments ends with. -/
theorem endsAfter_segmentFile (magic version : Word)
    (h : segments ++ [eofSegment] = front ++ g :: back)
    (hfront : ∀ g' ∈ front, g'.tag ≠ tag ∧ g'.tag ≠ str4 "EOF_")
    (hg : g.tag = tag ∨ g.tag = str4 "EOF_") :
    ∃ fd, EndsAfter (findSegmentTurn (segmentFile magic version segments) tag) front.length 8
      (.ok (if g.tag = tag then
        (g.size, ⟨segmentFile magic version segments,
          8 + (front.flatMap WrittenSegment.bytes).length + 8⟩)
        else (-1, fd))) := by
  have hdrop := drop_segmentFile magic version segments
  rw [h, List.flatMap_append, List.flatMap_cons] at hdrop
  have hrest : (segmentFile magic version segments).drop
      (8 + (front.flatMap WrittenSegment.bytes).length) =
        g.bytes ++ back.flatMap WrittenSegment.bytes := by
    rw [← List.drop_drop, hdrop, List.drop_left]
  refine ⟨⟨segmentFile magic version segments,
    8 + (front.flatMap WrittenSegment.bytes).length + g.bytes.length⟩, ?_⟩
  apply WrittenSegment.endsAfter hfront hdrop (n := 0)
  apply EndsAfter.left
  rw [WrittenSegment.turn hrest]
  by_cases htag : g.tag = tag
  · rw [if_pos htag, if_pos htag]
  · rw [if_neg htag, if_neg htag, if_neg (not_not_intro (hg.resolve_left htag))]

/-- The search returns what it ends with. -/
theorem result_unique {n pos : ℕ} {v v' : Word × ReadFile}
    (h : dumpFindSegment fuel ⟨bytes, pos⟩ tag = .ok v)
    (h' : EndsAfter (findSegmentTurn bytes tag) n 8 (.ok v')) : v = v' := by
  obtain ⟨m, hm⟩ := endsAfter_of_findSegmentLoop (r := .ok v) h (.inl ⟨v, rfl⟩)
  exact Except.ok.inj (hm.unique h').2

/-- A list has a first element of a kind, or none. -/
theorem exists_first {p : WrittenSegment → Prop} {gs : List WrittenSegment}
    (h : ∃ g ∈ gs, p g) :
    ∃ front g back, gs = front ++ g :: back ∧ p g ∧ ∀ g' ∈ front, ¬p g' := by
  induction gs with
  | nil =>
    obtain ⟨g, hg, -⟩ := h
    exact absurd hg List.not_mem_nil
  | cons g gs ih =>
    by_cases hp : p g
    · exact ⟨[], g, gs, rfl, hp, fun g' hg' => absurd hg' List.not_mem_nil⟩
    · obtain ⟨g', hg', hp'⟩ := h
      have hmem : g' ∈ gs := (List.mem_cons.mp hg').resolve_left fun heq => hp (heq ▸ hp')
      obtain ⟨front, g₁, back, rfl, hg₁, hfront⟩ := ih ⟨g', hmem, hp'⟩
      refine ⟨g :: front, g₁, back, rfl, hg₁, fun g₂ hg₂ => ?_⟩
      obtain rfl | hg₂ := List.mem_cons.mp hg₂
      · exact hp
      · exact hfront g₂ hg₂

/-- A file of segments is searched as it should be if and only if the tag can be found. -/
theorem findsFirst_iff (magic version : Word) (segments : List WrittenSegment) (tag : Word)
    (pos : ℕ) : FindsFirst magic version segments tag pos ↔ Findable segments tag := by
  constructor
  · rintro ⟨hfinds, hnone⟩
    constructor
    · intro front g back heq hg hfront
      obtain ⟨fuel, size, hfound, hsize⟩ := hfinds front g back heq hg hfront
      have heof : ∀ g' ∈ front, g'.tag ≠ str4 "EOF_" := by
        by_contra hno
        push Not at hno
        obtain ⟨front₁, e, front₂, rfl, he, hfront₁⟩ := exists_first hno
        have hfile : segments ++ [eofSegment] =
            front₁ ++ e :: (front₂ ++ g :: back ++ [eofSegment]) := by
          rw [heq]
          simp only [List.append_assoc, List.cons_append]
        obtain ⟨fd, hend⟩ := endsAfter_segmentFile magic version hfile
          (fun g' hg' => ⟨hfront g' (List.mem_append_left _ hg'), hfront₁ g' hg'⟩) (.inr he)
        rw [if_neg (hfront e (by simp))] at hend
        have hresult := congrArg Prod.fst (result_unique hfound hend)
        change size = -1 at hresult
        rw [hresult] at hsize
        change (-1 : ℤ) = _ at hsize
        omega
      refine ⟨heof, ?_⟩
      have hfile : segments ++ [eofSegment] = front ++ g :: (back ++ [eofSegment]) := by
        rw [heq]
        simp only [List.append_assoc, List.cons_append]
      obtain ⟨fd, hend⟩ := endsAfter_segmentFile magic version hfile
        (fun g' hg' => ⟨hfront g' hg', heof g' hg'⟩) (.inl hg)
      rw [if_pos hg] at hend
      have hresult := congrArg Prod.fst (result_unique hfound hend)
      change size = g.size at hresult
      rw [hresult, BitVec.toInt_eq_toNat_cond] at hsize
      have hlt := g.size.isLt
      split at hsize
      · omega
      · omega
    · intro hno htag
      obtain ⟨fuel, fd, hfound⟩ := hnone hno
      have hfile : segments ++ [eofSegment] = segments ++ eofSegment :: [] := rfl
      obtain ⟨fd', hend⟩ := endsAfter_segmentFile magic version hfile
        (fun g' hg' => ⟨hno g' hg', htag ▸ hno g' hg'⟩) (.inr rfl)
      rw [if_pos (show eofSegment.tag = tag from htag.symm)] at hend
      have hresult := congrArg Prod.fst (result_unique hfound hend)
      change (-1 : Word) = 0 at hresult
      exact absurd hresult (by decide)
  · rintro ⟨hfinds, hnone⟩
    constructor
    · intro front g back heq hg hfront
      obtain ⟨heof, hsize⟩ := hfinds front g back heq hg hfront
      have hfile : segments ++ [eofSegment] = front ++ g :: (back ++ [eofSegment]) := by
        rw [heq]
        simp only [List.append_assoc, List.cons_append]
      obtain ⟨fd, hend⟩ := endsAfter_segmentFile magic version hfile
        (fun g' hg' => ⟨hfront g' hg', heof g' hg'⟩) (.inl hg)
      rw [if_pos hg] at hend
      exact ⟨_, g.size, findSegmentLoop_of_endsAfter hend 0, BitVec.toInt_eq_toNat_of_lt (by omega)⟩
    · intro hno
      have htag := hnone hno
      have hexists : ∃ g ∈ segments ++ [eofSegment], g.tag = str4 "EOF_" :=
        ⟨eofSegment, List.mem_append_right _ List.mem_cons_self, rfl⟩
      obtain ⟨front, g, back, hfile, hg, hfront⟩ := exists_first hexists
      have hapart : ∀ g' ∈ segments ++ [eofSegment], g'.tag ≠ tag := by
        intro g' hg'
        obtain hg' | hg' := List.mem_append.mp hg'
        · exact hno g' hg'
        · rw [List.mem_singleton.mp hg']
          exact htag.symm
      obtain ⟨fd, hend⟩ := endsAfter_segmentFile magic version hfile
        (fun g' hg' => ⟨hapart g' (hfile ▸ List.mem_append_left _ hg'), hfront g' hg'⟩) (.inr hg)
      rw [if_neg (hapart g (hfile ▸ List.mem_append_right _ List.mem_cons_self))] at hend
      exact ⟨_, fd, findSegmentLoop_of_endsAfter hend 0⟩

end Written

end Search

/-- The search ends in every file whose headers do not lead back to a header, and in no other. In
a file of the header, any segments that were written, and `EOF_`, it finds the first segment
with the tag, or none, if and only if `EOF_` is not in the way. -/
theorem segment_search (fd : ReadFile) (magic version : Word) (segments : List WrittenSegment)
    (tag : Word) (pos : ℕ) :
    ((∃ fuel, SearchEnds (dumpFindSegment fuel fd tag)) ↔
      ∀ pos, Relation.ReflTransGen (LeadsTo fd.bytes tag) 8 pos →
        ¬Relation.TransGen (LeadsTo fd.bytes tag) pos pos) ∧
    (FindsFirst magic version segments tag pos ↔ Findable segments tag) :=
  ⟨searchEnds_iff fd tag, findsFirst_iff magic version segments tag pos⟩

/-- A file with a header of size -2. -/
def backwardFile : List Byte := write32le (write32le [] dumpFileMagic) dumpFileVersion ++
  le32 (str4 "PDLI") ++ le32 (-2)

/-- The header leads back to itself. -/
theorem not_searchEnds_backwardFile :
    ¬∃ fuel, SearchEnds (dumpFindSegment fuel ⟨backwardFile, 0⟩ (str4 "PMEM")) := by
  rw [searchEnds_iff]
  intro hnever
  apply hnever 8 .refl
  apply Relation.TransGen.single
  exact ⟨str4 "PDLI", -2, ⟨le32 (-2), rfl⟩, ⟨[], rfl⟩, by decide, by decide, by decide⟩

end Usim
