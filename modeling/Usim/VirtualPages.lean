import Usim.Lib.Files
import Usim.State

/-!
# The words of a band

`read_virt_fd` of `misc.c`, which keeps one block of a file. A read takes as many bytes as the file
has at the position of the descriptor and leaves the rest of the buffer as it was; a descriptor
that is not open reads like an empty file. The machine keeps the low byte of a word first, and its
`int`s wrap around.
-/

namespace Usim

open Lib

/-- A call of `read_virt_fd`. -/
structure VirtCall where
  fd : ℕ
  addr : Word
  addroff : Word

/-- The static variables of `read_virt_fd`, and the positions of the descriptors. -/
structure VirtState where
  bnum : Word
  bbuf : Medium
  pos : ℕ → ℕ

namespace VirtCall

/-- The address, of which 24 bits count. -/
def address (c : VirtCall) : Word := c.addr &&& 0o77777777

/-- `b`, the page of the address. -/
def page (c : VirtCall) : Word := c.address / 256

/-- The place of the word in its page. -/
def index (c : VirtCall) : ℕ := (c.address % 256).toNat

/-- `offset`, before it is widened. -/
def offset (c : VirtCall) : Word := (c.page + c.addroff) * 1024

/-- The block that is asked for. -/
def block (c : VirtCall) : ℤ := c.page.toNat + c.addroff.toInt

end VirtCall

/-- The variables at the start. -/
def VirtState.start : VirtState := ⟨-1, fun _ => 0, fun _ => 0⟩

/-- The `lseek` and the `read` of a call. -/
def VirtState.readBlock (files : ℕ → List Byte) (c : VirtCall) (s : VirtState) : VirtState :=
  -- an `lseek` to a negative offset fails
  let pos := if c.offset.msb then s.pos c.fd else c.offset.toNat
  let count := min 1024 ((files c.fd).length - pos)
  { bnum := c.page
    bbuf := fun q => if q < count then fileMedium (files c.fd) (pos + q) else s.bbuf q
    pos := Function.update s.pos c.fd (pos + count) }

/-- `read_virt_fd`. -/
def readVirtFd (files : ℕ → List Byte) (c : VirtCall) (s : VirtState) : Word × VirtState :=
  let s := if c.page ≠ s.bnum then s.readBlock files c else s
  (wordAt s.bbuf (4 * c.index), s)

/-- The variables after a number of calls. -/
def stateAfter (files : ℕ → List Byte) (calls : List VirtCall) : VirtState :=
  calls.foldl (fun s c => (readVirtFd files c s).2) VirtState.start

/-- A call returns the word of the block that it asks for, if the file has it. -/
def ReturnsWord (files : ℕ → List Byte) (c : VirtCall) (s : VirtState) : Prop :=
  0 ≤ c.block → 1024 * c.block.toNat + 4 * c.index + 4 ≤ (files c.fd).length →
    (readVirtFd files c s).1 =
      wordAt (fileMedium (files c.fd)) (1024 * c.block.toNat + 4 * c.index)

/-- Every call returns its word, whatever is in the files. -/
def Transparent (calls : List VirtCall) : Prop :=
  ∀ (files : ℕ → List Byte) (before : List VirtCall) (c : VirtCall) (after : List VirtCall),
    calls = before ++ c :: after → ReturnsWord files c (stateAfter files before)

/-- A block that was read: the page that it was read for, its descriptor and its number. -/
structure ReadBlock where
  page : Word
  fd : ℕ
  block : ℕ
  deriving DecidableEq

/-- What the calls alone say about the variables: the block that was read last, and the one that is
next at each descriptor. -/
structure BlockTrace where
  last : Option ReadBlock
  next : ℕ → ℕ

namespace BlockTrace

/-- The block that a call reads if it reads one: the one at its offset, or the next one of its
descriptor if the offset is negative. -/
def reads (g : BlockTrace) (c : VirtCall) : ℕ :=
  if c.offset.msb then g.next c.fd else c.offset.toNat / 1024

/-- A call reads a block if its page is not the one of the block that was read last. -/
def step (g : BlockTrace) (c : VirtCall) : BlockTrace :=
  if g.last.map ReadBlock.page = some c.page then g
  else ⟨some ⟨c.page, c.fd, g.reads c⟩, Function.update g.next c.fd (g.reads c + 1)⟩

/-- The trace of a number of calls. -/
def after (calls : List VirtCall) : BlockTrace := calls.foldl step ⟨none, fun _ => 0⟩

/-- The block that was read last is the one that the call asks for. -/
def Finds (g : BlockTrace) (c : VirtCall) : Prop :=
  ∃ page, g.last = some ⟨page, c.fd, c.block.toNat⟩

end BlockTrace

/-- Every call that asks for a block finds it as the one that was read last, by itself or by a call
before it. -/
def FindsBlocks (calls : List VirtCall) : Prop :=
  ∀ before c after, calls = before ++ c :: after → 0 ≤ c.block →
    (BlockTrace.after (before ++ [c])).Finds c

/-! ### The trace and the variables -/

/-- The variables are as the trace says, as far as the files have the blocks. -/
structure BlockTrace.Describes (files : ℕ → List Byte) (g : BlockTrace) (s : VirtState) : Prop where
  bnum : s.bnum = (g.last.map ReadBlock.page).getD (-1)
  pos : ∀ f, 1024 * g.next f ≤ (files f).length → s.pos f = 1024 * g.next f
  bbuf : ∀ r, g.last = some r → ∀ q < 1024, 1024 * r.block + q < (files r.fd).length →
    s.bbuf q = fileMedium (files r.fd) (1024 * r.block + q)

variable {files : ℕ → List Byte} {g : BlockTrace} {s : VirtState} {c : VirtCall}
  {calls : List VirtCall}

/-- A page is never -1. -/
theorem VirtCall.page_ne (c : VirtCall) : c.page ≠ -1 := by
  have hmask : (0o77777777 : Word).toNat = 2 ^ 24 - 1 := rfl
  have hpage : (256 : Word).toNat = 256 := rfl
  intro h
  have hnat := congrArg BitVec.toNat h
  have hminus : (-1 : Word).toNat = 4294967295 := rfl
  rw [VirtCall.page, VirtCall.address, BitVec.toNat_udiv, BitVec.toNat_and, hmask, hpage, hminus,
    Nat.and_two_pow_sub_one_eq_mod] at hnat
  omega

/-- An offset is that of a block. -/
theorem VirtCall.offset_eq (c : VirtCall) : c.offset.toNat = 1024 * (c.offset.toNat / 1024) := by
  have hblock : (1024 : Word).toNat = 1024 := rfl
  rw [VirtCall.offset, BitVec.toNat_mul, hblock]
  omega

/-- A block is read in the trace when it is read. -/
theorem BlockTrace.Describes.page_iff (h : g.Describes files s) :
    g.last.map ReadBlock.page = some c.page ↔ c.page = s.bnum := by
  rw [h.bnum]
  cases g.last with
  | none =>
    constructor
    · intro hnone
      cases hnone
    · intro hpage
      exact absurd hpage c.page_ne
  | some r => exact Option.some_inj.trans eq_comm

/-- A call keeps the trace right. -/
theorem BlockTrace.Describes.step (h : g.Describes files s) (c : VirtCall) :
    (g.step c).Describes files (readVirtFd files c s).2 := by
  unfold BlockTrace.step readVirtFd
  by_cases hpage : c.page = s.bnum
  · rw [if_pos (h.page_iff.mpr hpage), if_neg (not_not_intro hpage)]
    exact h
  rw [if_neg fun hsame => hpage (h.page_iff.mp hsame), if_pos hpage]
  -- where the block is read, if the file reaches as far
  have hpos : 1024 * g.reads c ≤ (files c.fd).length →
      (if c.offset.msb then s.pos c.fd else c.offset.toNat) = 1024 * g.reads c := by
    intro hlength
    unfold BlockTrace.reads at hlength ⊢
    by_cases hmsb : c.offset.msb = true
    · rw [if_pos hmsb] at hlength ⊢
      rw [if_pos hmsb]
      exact h.pos c.fd hlength
    · rw [if_neg hmsb, if_neg hmsb]
      exact c.offset_eq
  unfold VirtState.readBlock
  generalize (if c.offset.msb then s.pos c.fd else c.offset.toNat) = pos at hpos
  constructor
  · rfl
  · intro f hlength
    dsimp only at hlength ⊢
    by_cases hf : f = c.fd
    · subst hf
      rw [Function.update_self] at hlength ⊢
      rw [Function.update_self, hpos (by omega)]
      omega
    · rw [Function.update_of_ne hf] at hlength ⊢
      rw [Function.update_of_ne hf]
      exact h.pos f hlength
  · intro r hr q hq hlength
    cases hr
    dsimp only at hlength ⊢
    rw [hpos (by omega), if_pos (by omega)]

/-- The trace is right after any calls. -/
theorem describes_after (files : ℕ → List Byte) (calls : List VirtCall) :
    (BlockTrace.after calls).Describes files (stateAfter files calls) := by
  induction calls using List.reverseRecOn with
  | nil => exact ⟨rfl, fun _ _ => rfl, fun r hr => nomatch hr⟩
  | append_singleton calls c ih =>
    unfold BlockTrace.after stateAfter at ih ⊢
    rw [List.foldl_append, List.foldl_append]
    exact ih.step c

/-! ### Calls that find their blocks -/

/-- The place of a word in its page. -/
theorem VirtCall.index_lt (c : VirtCall) : c.index < 256 := by
  have hpage : (256 : Word).toNat = 256 := rfl
  rw [VirtCall.index, BitVec.toNat_umod, hpage]
  exact Nat.mod_lt _ (by decide)

/-- The same four bytes at two places. -/
theorem wordAt_eq_wordAt {mm mm' : Medium} {p p' : ℕ} (h : ∀ k < 4, mm (p + k) = mm' (p' + k)) :
    wordAt mm p = wordAt mm' p' := by
  have h0 := h 0 (by decide)
  rw [Nat.add_zero, Nat.add_zero] at h0
  rw [wordAt, wordAt, h0, h 1 (by decide), h 2 (by decide), h 3 (by decide)]

/-- A call whose block was read last returns its word. -/
theorem BlockTrace.Describes.returnsWord (h : g.Describes files s) (hfinds : (g.step c).Finds c) :
    ReturnsWord files c s := by
  intro hblock hlength
  obtain ⟨page, hlast⟩ := hfinds
  have hindex := c.index_lt
  have hbbuf := (h.step c).bbuf _ hlast
  have hword : (readVirtFd files c s).1 = wordAt (readVirtFd files c s).2.bbuf (4 * c.index) := rfl
  rw [hword]
  apply wordAt_eq_wordAt
  intro k hk
  rw [hbbuf (4 * c.index + k) (by omega) (by dsimp only; omega), Nat.add_assoc]

/-- The block after a call is the one that was read for its page. -/
theorem BlockTrace.exists_last_step (g : BlockTrace) (c : VirtCall) :
    ∃ r, (g.step c).last = some r := by
  unfold BlockTrace.step
  by_cases hpage : g.last.map ReadBlock.page = some c.page
  · obtain ⟨r, hr, -⟩ := Option.map_eq_some_iff.mp hpage
    rw [if_pos hpage]
    exact ⟨r, hr⟩
  · rw [if_neg hpage]
    exact ⟨_, rfl⟩

/-- How far the blocks of a trace can reach. -/
structure BlockTrace.Below (g : BlockTrace) (n : ℕ) : Prop where
  last : ∀ r, g.last = some r → r.block < n
  next : ∀ f, g.next f ≤ n

/-- A call reads a block below 2 ^ 21, or one more than before. -/
theorem BlockTrace.Below.step {n : ℕ} (h : g.Below n) (hn : 2 ^ 21 ≤ n) (c : VirtCall) :
    (g.step c).Below (n + 1) := by
  have hreads : g.reads c ≤ n := by
    unfold BlockTrace.reads
    by_cases hmsb : c.offset.msb = true
    · rw [if_pos hmsb]
      exact h.next c.fd
    · rw [if_neg hmsb]
      have hsmall := BitVec.toNat_lt_of_msb_false (Bool.eq_false_iff.mpr hmsb)
      omega
  unfold BlockTrace.step
  by_cases hpage : g.last.map ReadBlock.page = some c.page
  · rw [if_pos hpage]
    exact ⟨fun r hr => Nat.lt_succ_of_lt (h.last r hr), fun f => Nat.le_succ_of_le (h.next f)⟩
  · rw [if_neg hpage]
    constructor
    · intro r hr
      cases hr
      exact Nat.lt_succ_of_le hreads
    · intro f
      dsimp only
      by_cases hf : f = c.fd
      · rw [hf, Function.update_self]
        exact Nat.succ_le_succ hreads
      · rw [Function.update_of_ne hf]
        exact Nat.le_succ_of_le (h.next f)

/-- The blocks of a trace after some calls. -/
theorem below_after (calls : List VirtCall) :
    (BlockTrace.after calls).Below (2 ^ 21 + calls.length) := by
  induction calls using List.reverseRecOn with
  | nil => exact ⟨fun r hr => (nomatch hr), fun _ => Nat.zero_le _⟩
  | append_singleton calls c ih =>
    unfold BlockTrace.after at ih ⊢
    rw [List.foldl_append, List.length_append, ← Nat.add_assoc]
    exact ih.step (by omega) c

/-- Files with ones in one block of one descriptor, and zeros elsewhere. -/
def oneBlock (fd block n : ℕ) : ℕ → List Byte := fun f =>
  slice (fun p => if f = fd ∧ p / 1024 = block then 1 else 0) 0 (1024 * n)

/-- A byte of such a file. -/
theorem fileMedium_oneBlock {fd block n f p : ℕ} (h : p < 1024 * n) :
    fileMedium (oneBlock fd block n f) p = if f = fd ∧ p / 1024 = block then 1 else 0 := by
  rw [fileMedium, oneBlock, List.getD_eq_getElem?_getD, getElem?_slice h, Nat.zero_add,
    Option.getD_some]

/-- A call whose block was not read last returns another word for some files. -/
theorem exists_not_returnsWord (before : List VirtCall) (hblock : 0 ≤ c.block)
    (h : ¬(BlockTrace.after (before ++ [c])).Finds c) :
    ∃ files, ¬ReturnsWord files c (stateAfter files before) := by
  obtain ⟨n, hn⟩ : ∃ n, n = 2 ^ 21 + (before.length + 1) + c.block.toNat + 1 := ⟨_, rfl⟩
  refine ⟨oneBlock c.fd c.block.toNat n, fun hreturns => ?_⟩
  have hindex := c.index_lt
  have hlength (f : ℕ) : (oneBlock c.fd c.block.toNat n f).length = 1024 * n := length_slice _ _ _
  have hstep : BlockTrace.after (before ++ [c]) = (BlockTrace.after before).step c := by
    rw [BlockTrace.after, List.foldl_append]
    rfl
  have hbelow := below_after (before ++ [c])
  rw [List.length_append, List.length_singleton] at hbelow
  rw [hstep] at h hbelow
  obtain ⟨r, hr⟩ := (BlockTrace.after before).exists_last_step c
  have hr' := hbelow.last r hr
  have hother : ¬(r.fd = c.fd ∧ r.block = c.block.toNat) := by
    rintro ⟨hfd, hnumber⟩
    exact h ⟨r.page, by rw [hr, ← hfd, ← hnumber]⟩
  have hbbuf := ((describes_after (oneBlock c.fd c.block.toNat n) before).step c).bbuf r hr
  have hzero (q : ℕ) (hq : q < 1024) : (readVirtFd (oneBlock c.fd c.block.toNat n) c
      (stateAfter (oneBlock c.fd c.block.toNat n) before)).2.bbuf q = 0 := by
    rw [hbbuf q hq (by rw [hlength]; omega), fileMedium_oneBlock (by omega), if_neg]
    rintro ⟨hfd, hnumber⟩
    exact hother ⟨hfd, by omega⟩
  have hone (k : ℕ) (hk : k < 4) : fileMedium (oneBlock c.fd c.block.toNat n c.fd)
      (1024 * c.block.toNat + 4 * c.index + k) = 1 := by
    rw [fileMedium_oneBlock (by omega), if_pos ⟨rfl, by omega⟩]
  have hword := hreturns hblock (by rw [hlength]; omega)
  have hleft : (readVirtFd (oneBlock c.fd c.block.toNat n) c
      (stateAfter (oneBlock c.fd c.block.toNat n) before)).1 = wordAt (fun _ => 0) 0 :=
    wordAt_eq_wordAt fun k hk => hzero (4 * c.index + k) (by omega)
  have hright : wordAt (fileMedium (oneBlock c.fd c.block.toNat n c.fd))
      (1024 * c.block.toNat + 4 * c.index) = wordAt (fun _ => 1) 0 := wordAt_eq_wordAt hone
  rw [hleft, hright] at hword
  exact absurd hword (by decide)

/-- The block of every call of a run that is transparent was read last. -/
theorem findsBlocks_of_transparent (h : Transparent calls) : FindsBlocks calls := by
  intro before c after hsplit hblock
  by_contra hfinds
  obtain ⟨files, hother⟩ := exists_not_returnsWord before hblock hfinds
  exact hother (h files before c after hsplit)

/-- Calls whose blocks were read last return their words. -/
theorem transparent_of_findsBlocks (h : FindsBlocks calls) : Transparent calls := by
  intro files before c after hsplit hblock
  have hfinds := h before c after hsplit hblock
  rw [BlockTrace.after, List.foldl_append] at hfinds
  exact (describes_after files before).returnsWord hfinds hblock

/-- Every call returns its word, whatever is in the files, if and only if the block that it asks
for is the one that was read last. -/
theorem transparent_iff (calls : List VirtCall) : Transparent calls ↔ FindsBlocks calls :=
  ⟨findsBlocks_of_transparent, transparent_of_findsBlocks⟩

/-- Two descriptors, asked for the same page. -/
theorem not_transparent : ¬Transparent [⟨3, 0, 0⟩, ⟨4, 0, 0⟩] := by
  intro h
  obtain ⟨page, hlast⟩ := findsBlocks_of_transparent h [⟨3, 0, 0⟩] ⟨4, 0, 0⟩ [] rfl (by decide)
  have hfd : (BlockTrace.after [⟨3, 0, 0⟩, ⟨4, 0, 0⟩]).last.map ReadBlock.fd = some 4 :=
    congrArg (Option.map ReadBlock.fd) hlast
  exact absurd hfd (by decide)

/-! ### One band -/

/-- A call that asks for one of the first 2 ^ 21 blocks seeks it. -/
theorem BlockTrace.reads_of_block_lt (g : BlockTrace) (hblock : 0 ≤ c.block)
    (hsmall : c.block < 2 ^ 21) : g.reads c = c.block.toNat := by
  have hpages : (1024 : Word).toNat = 1024 := rfl
  have hoffset : c.offset.toNat = 1024 * c.block.toNat := by
    have haddroff := BitVec.toInt_eq_toNat_cond c.addroff
    unfold VirtCall.block at hblock hsmall ⊢
    rw [VirtCall.offset, BitVec.toNat_mul, BitVec.toNat_add, hpages]
    split at haddroff <;> omega
  have hmsb : c.offset.msb = false := by
    rw [BitVec.msb_eq_false_iff_two_mul_lt, hoffset]
    omega
  unfold BlockTrace.reads
  rw [hmsb, hoffset]
  exact Nat.mul_div_cancel_left _ (by decide)

/-- Every block of the trace is the one of its page in the band. -/
def BlockTrace.InBand (g : BlockTrace) (fd : ℕ) (addroff : Word) : Prop :=
  ∀ r, g.last = some r → r.fd = fd ∧ (r.block : ℤ) = r.page.toNat + addroff.toInt

/-- A call for a block of the band finds it. -/
theorem BlockTrace.InBand.step {fd : ℕ} {addroff : Word} (h : g.InBand fd addroff)
    (hfd : c.fd = fd) (haddroff : c.addroff = addroff) (hblock : 0 ≤ c.block)
    (hsmall : c.block < 2 ^ 21) : (g.step c).InBand fd addroff ∧ (g.step c).Finds c := by
  have hnumber : (c.block.toNat : ℤ) = c.page.toNat + addroff.toInt := by
    rw [Int.toNat_of_nonneg hblock, VirtCall.block, haddroff]
  unfold BlockTrace.step
  by_cases hpage : g.last.map ReadBlock.page = some c.page
  · rw [if_pos hpage]
    obtain ⟨r, hr, hpage⟩ := Option.map_eq_some_iff.mp hpage
    obtain ⟨hrfd, hrblock⟩ := h r hr
    have hsame : r.block = c.block.toNat := by
      rw [hpage] at hrblock
      omega
    refine ⟨h, r.page, ?_⟩
    rw [hr, hfd, ← hrfd, ← hsame]
  · rw [if_neg hpage]
    have hreads := g.reads_of_block_lt hblock hsmall
    refine ⟨?_, c.page, by rw [hreads]⟩
    intro r hr
    cases hr
    exact ⟨hfd, by rw [hreads]; exact hnumber⟩

/-- The calls for the words of one band return them. -/
theorem transparent_of_one_band {fd : ℕ} {addroff : Word}
    (h : ∀ c ∈ calls, c.fd = fd ∧ c.addroff = addroff ∧ 0 ≤ c.block ∧ c.block < 2 ^ 21) :
    Transparent calls := by
  have hband (before : List VirtCall) (hbefore : ∀ c ∈ before, c ∈ calls) :
      (BlockTrace.after before).InBand fd addroff := by
    induction before using List.reverseRecOn with
    | nil => exact fun r hr => nomatch hr
    | append_singleton before c ih =>
      obtain ⟨hfd, haddroff, hblock, hsmall⟩ := h c (hbefore c (by simp))
      have hstart := ih fun c' hc' => hbefore c' (List.mem_append_left _ hc')
      rw [BlockTrace.after, List.foldl_append]
      exact (hstart.step hfd haddroff hblock hsmall).1
  apply transparent_of_findsBlocks
  rintro before c after rfl -
  obtain ⟨hfd, haddroff, hblock, hsmall⟩ := h c (by simp)
  have hstart := hband before fun c' hc' => List.mem_append_left _ hc'
  rw [BlockTrace.after, List.foldl_append]
  exact (hstart.step hfd haddroff hblock hsmall).2

end Usim
