import Usim.Lib.Segments
import Usim.MachineControl
import Usim.MainMemory

/-!
# State files

`save_state` and `restore_state` of `dump.c` with the segments of `misc.c` and the
pages of `main-memory.c`. Arrays are written as they stand in memory, so that their
bytes depend on the machine that the emulator runs on; all else is written with the
low byte first. Reads are as long as the file allows and writes are complete. The log
messages and the choice of the file's name are left out.
-/

namespace Usim

open Lib

/-- The order in which the machine keeps the bytes of a word. -/
inductive ByteOrder
  | little | big
  deriving DecidableEq, Repr

namespace ByteOrder

/-- The bytes of a word in memory. -/
def bytes (o : ByteOrder) (w : Word) : List Byte :=
  match o with
  | little => le32 w
  | big => (le32 w).reverse

/-- A `uint64_t` in memory, as two words. -/
def halves (o : ByteOrder) (w : BitVec 64) : List Word :=
  match o with
  | little => [w.setWidth 32, (w >>> 32).setWidth 32]
  | big => [(w >>> 32).setWidth 32, w.setWidth 32]

/-- The word that four bytes in memory make up. -/
def word (o : ByteOrder) : List Byte → Word
  | [b₀, b₁, b₂, b₃] =>
    match o with
    | little => b₃ ++ b₂ ++ b₁ ++ b₀
    | big => b₀ ++ b₁ ++ b₂ ++ b₃
  | _ => 0

/-- The bytes of an array in memory. -/
def arrayBytes (o : ByteOrder) {n : ℕ} (a : Fin n → Word) : List Byte :=
  (List.ofFn a).flatMap o.bytes

/-- The page that bytes in memory make up. -/
def page (o : ByteOrder) (bs : List Byte) : Page := fun k => o.word ((bs.drop (4 * k)).take 4)

/-- The four bytes of a word. -/
theorem length_bytes (o : ByteOrder) (w : Word) : (o.bytes w).length = 4 := by
  cases o <;> rfl

/-- The two words of a `uint64_t`. -/
theorem length_halves (o : ByteOrder) (w : BitVec 64) : (o.halves w).length = 2 := by
  cases o <;> rfl

/-- A word is made up of its bytes. -/
theorem word_bytes (o : ByteOrder) (w : Word) : o.word (o.bytes w) = w := by
  cases o <;> exact append_le32 w

/-- An array takes four bytes for each word. -/
theorem length_arrayBytes (o : ByteOrder) {n : ℕ} (a : Fin n → Word) :
    (o.arrayBytes a).length = 4 * n := by
  rw [arrayBytes, length_flatMap_const fun w _ => o.length_bytes w, List.length_ofFn]

/-- A page is made up of its bytes. -/
theorem page_arrayBytes (o : ByteOrder) (p : Page) : o.page (o.arrayBytes p) = p := by
  funext k
  have hk : k.val < (List.ofFn p).length := by
    rw [List.length_ofFn]
    exact k.isLt
  rw [page, arrayBytes, take_drop_flatMap o.length_bytes hk, List.getElem_ofFn]
  exact o.word_bytes (p k)

end ByteOrder

/-- `str4`: four characters, the first one lowest. -/
def str4 (s : String) : Word :=
  match s.toList with
  | [c₀, c₁, c₂, c₃] =>
    (BitVec.ofNat 32 c₃.toNat <<< 24) ||| (BitVec.ofNat 32 c₂.toNat <<< 16) |||
      (BitVec.ofNat 32 c₁.toNat <<< 8) ||| BitVec.ofNat 32 c₀.toNat
  | _ => 0

/-- `DUMP_FILE_MAGIC`. -/
def dumpFileMagic : Word := str4 "LMDF"

/-- `DUMP_FILE_VERSION`. -/
def dumpFileVersion : Word := 1

/-- What ends the process, or the model, while a state file is written or read. -/
inductive FileFault
  /-- A call of `errx`. -/
  | err (call : ErrCall)
  /-- `assert (pn < main_memory_npages)` fails. -/
  | assert (pn : ℕ)
  /-- A subscript of the page array at or beyond its size. -/
  | subscript (pn : ℕ)
  /-- A search takes more turns than it was given. -/
  | unfinished
  deriving DecidableEq, Repr

/-- One of the histories of `dump.c`: its entries, and where the next one goes. -/
structure RingHistory (α : Type) (max : ℕ) where
  /-- The array. -/
  entries : Fin max → α
  /-- The index of the next entry, a `size_t`. -/
  head : BitVec 64

namespace RingHistory

variable {α : Type} {max : ℕ} [NeZero max]

/-- The entry at `i % max`. -/
def entry (h : RingHistory α max) (i : BitVec 64) : α :=
  h.entries ⟨i.toNat % max, Nat.mod_lt _ (Nat.pos_of_neZero max)⟩

/-- The entry at `(head - 1 + max) % max`. -/
def newest (h : RingHistory α max) : α := h.entry (h.head - 1 + BitVec.ofNat 64 max)

/-- The entry at `(head - i - 1 + max) % max`. -/
def back (h : RingHistory α max) (i : ℕ) : α :=
  h.entry (h.head - BitVec.ofNat 64 i - 1 + BitVec.ofNat 64 max)

end RingHistory

/-- An entry of `pdl_history`. -/
structure PdlRecord where
  readWriteIndexerNpc : Word
  index : Word
  value : Word
  lc : Word

/-- What `save_state` saves. Of `pc_history` and `lc_history` it saves the addresses only. -/
structure SavedState (β : Type) where
  /-- The processor and its maps. -/
  engine : Engine β
  /-- `pc_history` and `pc_history_head`. -/
  pcHistory : RingHistory Word 4096
  /-- `lc_history` and `lc_history_head`. -/
  lcHistory : RingHistory Word 20000
  /-- `pdl_history` and `pdl_history_next`. -/
  pdlHistory : RingHistory PdlRecord 4096
  /-- The pages of `main-memory.c`. -/
  memory : MainMemory

/-- `write32le`. -/
def write32le (fd : List Byte) (v : Word) : List Byte := fd ++ le32 v

/-- `dump_write_header`. -/
def dumpWriteHeader (fd : List Byte) (type size : Word) : List Byte :=
  write32le (write32le fd type) size

/-- `dump_write_data`, of an array. -/
def dumpWriteData (fd : List Byte) (size : ℕ) (data : List Byte) : List Byte := fd ++ data.take size

/-- `dump_write_segment`, of an array. -/
def dumpWriteSegment (fd : List Byte) (type size : Word) (data : List Byte) : List Byte :=
  dumpWriteData (dumpWriteHeader fd type size) (size * 4).toNat data

/-- `dump_write_value`. -/
def dumpWriteValue (fd : List Byte) (type value : Word) : List Byte :=
  write32le (dumpWriteHeader fd type 1) value

/-- `main_memory_save_page_to_file`. -/
def mainMemorySavePageToFile (o : ByteOrder) (mm : MainMemory) (fd : List Byte) (pn : ℕ) :
    Except FileFault (List Byte) :=
  if pn < mm.npages then
    if h : pn < 16384 then .ok (fd ++ (o.arrayBytes (mm.pages ⟨pn, h⟩)).take 1024)
    else .error (.subscript pn)
  else .error (.assert pn)

/-- `sizeof(a) / 4`, of an array in memory. -/
def sizeof4 (a : List Byte) : Word := BitVec.ofNat 32 (a.length / 4)

/-- `imem` in memory. -/
def imemBytes (o : ByteOrder) (imem : Fin 16384 → BitVec 64) : List Byte :=
  (List.ofFn imem).flatMap fun w => (o.halves w).flatMap o.bytes

section Save

variable {β : Type} (o : ByteOrder) (s : SavedState β)

/-- `dump_ucode_things`. -/
def dumpUcodeThings (fd : List Byte) : List Byte :=
  let e := s.engine
  let fd := dumpWriteValue fd (str4 "MCPC") s.pcHistory.newest
  let fd := dumpWriteValue fd (str4 "USTP") e.spcptr
  let fd := dumpWriteValue fd (str4 "RMD_") e.mdReg
  let fd := dumpWriteValue fd (str4 "RVMA") e.vmaReg
  let fd := dumpWriteValue fd (str4 "RQ__") e.q
  let fd := dumpWriteValue fd (str4 "ROPC") e.opc
  let fd := dumpWriteValue fd (str4 "ROAL") e.oaRegLow
  let fd := dumpWriteValue fd (str4 "ROAH") e.oaRegHigh
  let dmem := o.arrayBytes e.dmem
  let fd := dumpWriteSegment fd (str4 "DMEM") (sizeof4 dmem) dmem
  let imem := imemBytes o e.imem
  let fd := dumpWriteSegment fd (str4 "IMEM") (sizeof4 imem) imem
  let spc := o.arrayBytes e.spc
  let fd := dumpWriteSegment fd (str4 "USTK") (sizeof4 spc) spc
  let fd := dumpWriteHeader fd (str4 "PCHL") 4096
  let fd := (List.range 4096).foldl (fun fd i => write32le fd (s.pcHistory.back i)) fd
  let fd := dumpWriteHeader fd (str4 "PDHL") (4 * 4096)
  (List.range 4096).foldl (fun fd i =>
    let fd := write32le fd (s.pdlHistory.back i).readWriteIndexerNpc
    let fd := write32le fd (s.pdlHistory.back i).index
    let fd := write32le fd (s.pdlHistory.back i).value
    write32le fd (s.pdlHistory.back i).lc) fd

/-- `save_state`: the file written. -/
def saveState : Except FileFault (List Byte) := do
  let e := s.engine
  let fd := write32le [] dumpFileMagic
  let fd := write32le fd dumpFileVersion
  let fd := dumpWriteValue fd (str4 "PDLI") e.pdlIndex
  let fd := dumpWriteValue fd (str4 "PDLP") e.pdlPointer
  let fd := dumpWriteValue fd (str4 "LCLV") e.lc
  let fd := dumpWriteHeader fd (str4 "LCHL") 20000
  let fd := (List.range 20000).foldl (fun fd i => write32le fd (s.lcHistory.back i)) fd
  let fd := dumpUcodeThings o s fd
  let l1Map := o.arrayBytes e.l1Map
  let fd := dumpWriteSegment fd (str4 "L1MP") (sizeof4 l1Map) l1Map
  let l2Map := o.arrayBytes e.l2Map
  let fd := dumpWriteSegment fd (str4 "L2MP") (sizeof4 l2Map) l2Map
  let pdl := o.arrayBytes e.pdl
  let fd := dumpWriteSegment fd (str4 "PDLM") (sizeof4 pdl) pdl
  let amem := o.arrayBytes e.amem
  let fd := dumpWriteSegment fd (str4 "AMEM") (sizeof4 amem) amem
  let mmem := o.arrayBytes e.mmem
  let fd := dumpWriteSegment fd (str4 "MMEM") (sizeof4 mmem) mmem
  let fd := dumpWriteHeader fd (str4 "PMEM") (BitVec.ofNat 32 s.memory.npages * 256)
  let fd ← (List.range s.memory.npages).foldlM (mainMemorySavePageToFile o s.memory) fd
  pure (dumpWriteHeader fd (str4 "EOF_") 0)

end Save

/-- `read32le`. -/
def read32le (fd : ReadFile) : Except FileFault (Word × ReadFile) :=
  match fd.read 4 with
  | ([b₀, b₁, b₂, b₃], fd) =>
    .ok ((b₃.setWidth 32 <<< 24) ||| (b₂.setWidth 32 <<< 16) ||| (b₁.setWidth 32 <<< 8) |||
      (b₀.setWidth 32 <<< 0), fd)
  | (bs, _) => .error (.err ⟨"read32le: read error; ret %d, size %d", [bs.length, 4]⟩)

/-- The loop of `dump_find_segment`. -/
def findSegmentLoop (tag : Word) : ℕ → ReadFile → Except FileFault (Word × ReadFile)
  | 0, _ => .error .unfinished
  | fuel + 1, fd => do
    let (t, fd) ← read32le fd
    let (size, fd) ← read32le fd
    if t = tag then pure (size, fd)
    else
      let fd := fd.seekCur (size * 4).toInt
      if t ≠ str4 "EOF_" then findSegmentLoop tag fuel fd else pure (-1, fd)

/-- `dump_find_segment`: the size of the segment, or -1. -/
def dumpFindSegment (fuel : ℕ) (fd : ReadFile) (tag : Word) : Except FileFault (Word × ReadFile) :=
  findSegmentLoop tag fuel { fd with pos := 4 * 2 }

/-- `main_memory_load_page_from_file`. What a short file does not have stays in the page. -/
def mainMemoryLoadPageFromFile (o : ByteOrder) (m : MainMemory × ReadFile) (pn : ℕ) :
    Except FileFault (MainMemory × ReadFile) :=
  let mm := m.1
  if pn < mm.npages then
    if h : pn < 16384 then
      let r := m.2.read 1024
      let bs := r.1 ++ (o.arrayBytes (mm.pages ⟨pn, h⟩)).drop r.1.length
      .ok ({ mm with pages := Function.update mm.pages ⟨pn, h⟩ (o.page bs) }, r.2)
    else .error (.subscript pn)
  else .error (.assert pn)

/-- The part of a process that `restore_state` reads and changes. -/
structure RestoreProcess where
  /-- `restored`. -/
  restored : Bool
  /-- The pages of `main-memory.c`. -/
  memory : MainMemory

/-- `restore_state`; the file is there when it can be opened. -/
def restoreState (o : ByteOrder) (fuel : ℕ) (file : Option (List Byte)) (p : RestoreProcess) :
    Except FileFault RestoreProcess :=
  if p.restored then .ok p
  else
    let p := { p with restored := true }
    match file with
    | none => .ok p
    | some bytes => do
      let (magic, fd) ← read32le ⟨bytes, 0⟩
      let (version, fd) ← read32le fd
      if magic ≠ dumpFileMagic then return p
      if version ≠ dumpFileVersion then return p
      let (s, fd) ← dumpFindSegment fuel fd (str4 "PMEM")
      if s.slt 0 then return p
      if s &&& 0xFF ≠ 0 then return p
      if BitVec.slt (16384 * 256) s then return p
      -- `s` is not negative here
      let numMemoryPages := (s / 256).toNat
      let memory := if p.memory.npages ≠ numMemoryPages then
          { p.memory with npages := numMemoryPages } else p.memory
      let (memory, _) ←
        (List.range memory.npages).foldlM (mainMemoryLoadPageFromFile o) (memory, fd)
      return { p with memory := memory }

/-! ### The segments of a state file -/

section Segments

variable {β : Type}

/-- The segment of a list of words. -/
def wordsSegment (f : Word → List Byte) (hf : ∀ w, (f w).length = 4) (tag : String)
    (ws : List Word) (h : ws.length < 2 ^ 29) : Segment where
  tag := str4 tag
  size := BitVec.ofNat 32 ws.length
  data := ws.flatMap f
  length_data := by
    rw [length_flatMap_const fun w _ => hf w, BitVec.toNat_ofNat]
    omega
  length_lt := by
    rw [length_flatMap_const fun w _ => hf w]
    omega

/-- The segment of a value. -/
def valueSegment (tag : String) (v : Word) : Segment :=
  wordsSegment le32 length_le32 tag [v] (show 1 < 2 ^ 29 by decide)

/-- The words of an entry of `pdl_history`, in the order in which they are saved. -/
def PdlRecord.words (r : PdlRecord) : List Word := [r.readWriteIndexerNpc, r.index, r.value, r.lc]

/-- The segment of a history of `n` entries, each with `k` words. -/
def historySegment (tag : String) (n k : ℕ) (words : ℕ → List Word)
    (hk : ∀ i, (words i).length = k) (h : k * n < 2 ^ 29) : Segment :=
  wordsSegment le32 length_le32 tag ((List.range n).flatMap words) (by
    rwa [length_flatMap_const fun i _ => hk i, List.length_range])

/-- The words of a page. -/
def pageWords (mm : MainMemory) (pn : ℕ) : List Word :=
  if h : pn < 16384 then List.ofFn (mm.pages ⟨pn, h⟩) else []

theorem length_pageWords (mm : MainMemory) {pn : ℕ} (h : pn < 16384) :
    (pageWords mm pn).length = 256 := by
  rw [pageWords, dif_pos h, List.length_ofFn]

/-- The number of words of the populated pages. -/
theorem length_flatMap_pageWords {mm : MainMemory} (h : mm.npages ≤ 16384) :
    ((List.range mm.npages).flatMap (pageWords mm)).length = 256 * mm.npages := by
  rw [length_flatMap_const (n := 256), List.length_range]
  intro pn hpn
  exact length_pageWords mm ((List.mem_range.mp hpn).trans_le h)

variable (o : ByteOrder)

/-- The segment of an array in memory. -/
def arraySegment (tag : String) {n : ℕ} (a : Fin n → Word) (h : n < 2 ^ 29) : Segment :=
  wordsSegment o.bytes o.length_bytes tag (List.ofFn a) (by rwa [List.length_ofFn])

/-- The segment of the control memory. -/
def imemSegment (imem : Fin 16384 → BitVec 64) : Segment :=
  wordsSegment o.bytes o.length_bytes "IMEM" ((List.ofFn imem).flatMap o.halves) (by
    rw [length_flatMap_const fun w _ => o.length_halves w, List.length_ofFn]
    decide)

/-- The segment of the populated pages. -/
def pmemSegment (mm : MainMemory) (h : mm.npages ≤ 16384) : Segment :=
  wordsSegment o.bytes o.length_bytes "PMEM" ((List.range mm.npages).flatMap (pageWords mm)) (by
    rw [length_flatMap_pageWords h]
    omega)

variable (s : SavedState β) (hn : s.memory.npages ≤ 16384)

/-- The segments that `dump_ucode_things` writes. -/
def ucodeSegments : List Segment :=
  let e := s.engine
  [valueSegment "MCPC" s.pcHistory.newest, valueSegment "USTP" e.spcptr,
    valueSegment "RMD_" e.mdReg, valueSegment "RVMA" e.vmaReg, valueSegment "RQ__" e.q,
    valueSegment "ROPC" e.opc, valueSegment "ROAL" e.oaRegLow, valueSegment "ROAH" e.oaRegHigh,
    arraySegment o "DMEM" e.dmem (by decide), imemSegment o e.imem,
    arraySegment o "USTK" e.spc (by decide),
    historySegment "PCHL" 4096 1 (fun i => [s.pcHistory.back i]) (fun _ => rfl) (by decide),
    historySegment "PDHL" 4096 4 (fun i => (s.pdlHistory.back i).words) (fun _ => rfl) (by decide)]

/-- The segments of a state file, the words of each from the state saved in it. -/
def stateSegments : List Segment :=
  let e := s.engine
  [valueSegment "PDLI" e.pdlIndex, valueSegment "PDLP" e.pdlPointer, valueSegment "LCLV" e.lc,
    historySegment "LCHL" 20000 1 (fun i => [s.lcHistory.back i]) (fun _ => rfl) (by decide)] ++
  ucodeSegments o s ++
  [arraySegment o "L1MP" e.l1Map (by decide), arraySegment o "L2MP" e.l2Map (by decide),
    arraySegment o "PDLM" e.pdl (by decide), arraySegment o "AMEM" e.amem (by decide),
    arraySegment o "MMEM" e.mmem (by decide),
    pmemSegment o s.memory hn, wordsSegment le32 length_le32 "EOF_" [] (by decide)]

/-- The tags of a state file, in their order. -/
def stateTags : List String :=
  ["PDLI", "PDLP", "LCLV", "LCHL", "MCPC", "USTP", "RMD_", "RVMA", "RQ__", "ROPC", "ROAL", "ROAH",
    "DMEM", "IMEM", "USTK", "PCHL", "PDHL", "L1MP", "L2MP", "PDLM", "AMEM", "MMEM", "PMEM", "EOF_"]

/-- The segments bear the tags in their order. -/
theorem map_tag_stateSegments : (stateSegments o s hn).map Segment.tag = stateTags.map str4 := rfl

/-- No tag is used twice. -/
theorem nodup_stateTags : (stateTags.map str4).Nodup := by decide

variable {fd : List Byte} {tag : String}

/-- A written value is its segment. -/
theorem dumpWriteValue_eq (v : Word) :
    dumpWriteValue fd (str4 tag) v = fd ++ (valueSegment tag v).bytes := by
  simp only [dumpWriteValue, dumpWriteHeader, write32le, valueSegment, wordsSegment, Segment.bytes,
    List.append_assoc, List.flatMap_singleton, List.length_singleton, BitVec.ofNat_eq_ofNat]

/-- A history written in a loop, behind its header. -/
theorem foldl_write32le_history (n k : ℕ) (words : ℕ → List Word) {size : Word}
    (hk : ∀ i, (words i).length = k) (h : k * n < 2 ^ 29) (hsize : size = BitVec.ofNat 32 (k * n)) :
    (List.range n).foldl (fun fd i => (words i).foldl write32le fd)
        (dumpWriteHeader fd (str4 tag) size) =
      fd ++ (historySegment tag n k words hk h).bytes := by
  have hwrite (fd : List Byte) (ws : List Word) : ws.foldl write32le fd = fd ++ ws.flatMap le32 :=
    List.foldl_append_eq_append
  have hlength : ((List.range n).flatMap words).length = k * n := by
    rw [length_flatMap_const fun i _ => hk i, List.length_range]
  rw [← List.foldl_flatMap, hwrite, hsize]
  simp only [dumpWriteHeader, write32le, historySegment, wordsSegment, Segment.bytes, hlength,
    List.append_assoc]

/-- The segment of words in memory. -/
theorem dumpWriteSegment_eq {ws : List Word} (h : ws.length < 2 ^ 29) :
    dumpWriteSegment fd (str4 tag) (sizeof4 (ws.flatMap o.bytes)) (ws.flatMap o.bytes) =
      fd ++ (wordsSegment o.bytes o.length_bytes tag ws h).bytes := by
  have hlength : (ws.flatMap o.bytes).length = 4 * ws.length :=
    length_flatMap_const fun w _ => o.length_bytes w
  have hsize : sizeof4 (ws.flatMap o.bytes) = BitVec.ofNat 32 ws.length := by
    rw [sizeof4, hlength, Nat.mul_div_cancel_left _ (by decide)]
  have htake : (BitVec.ofNat 32 ws.length * 4).toNat = (ws.flatMap o.bytes).length := by
    rw [BitVec.toNat_mul, BitVec.toNat_ofNat, hlength]
    change ws.length % 2 ^ 32 * 4 % 2 ^ 32 = _
    omega
  rw [dumpWriteSegment, dumpWriteData, hsize, htake, List.take_length]
  simp only [dumpWriteHeader, write32le, wordsSegment, Segment.bytes, List.append_assoc]

/-- The segment of an array. -/
theorem dumpWriteSegment_arrayBytes {n : ℕ} (a : Fin n → Word) (h : n < 2 ^ 29) :
    dumpWriteSegment fd (str4 tag) (sizeof4 (o.arrayBytes a)) (o.arrayBytes a) =
      fd ++ (arraySegment o tag a h).bytes :=
  dumpWriteSegment_eq o _

/-- The segment of the control memory. -/
theorem dumpWriteSegment_imemBytes (imem : Fin 16384 → BitVec 64) :
    dumpWriteSegment fd (str4 "IMEM") (sizeof4 (imemBytes o imem)) (imemBytes o imem) =
      fd ++ (imemSegment o imem).bytes := by
  have himem : imemBytes o imem = ((List.ofFn imem).flatMap o.halves).flatMap o.bytes :=
    List.flatMap_assoc.symm
  rw [himem]
  exact dumpWriteSegment_eq o _

/-- `dump_ucode_things` writes its segments. -/
theorem dumpUcodeThings_eq (fd : List Byte) :
    dumpUcodeThings o s fd = fd ++ (ucodeSegments o s).flatMap Segment.bytes := by
  have hpc (fd : List Byte) : (List.range 4096).foldl
      (fun fd i => write32le fd (s.pcHistory.back i)) (dumpWriteHeader fd (str4 "PCHL") 4096) =
      fd ++ (historySegment "PCHL" 4096 1 (fun i => [s.pcHistory.back i]) (fun _ => rfl)
        (by decide)).bytes :=
    foldl_write32le_history 4096 1 (fun i => [s.pcHistory.back i]) (fun _ => rfl) (by decide) rfl
  have hpdl (fd : List Byte) : (List.range 4096).foldl
      (fun fd i => write32le (write32le (write32le (write32le fd
        (s.pdlHistory.back i).readWriteIndexerNpc) (s.pdlHistory.back i).index)
        (s.pdlHistory.back i).value) (s.pdlHistory.back i).lc)
      (dumpWriteHeader fd (str4 "PDHL") (4 * 4096)) =
      fd ++ (historySegment "PDHL" 4096 4 (fun i => (s.pdlHistory.back i).words) (fun _ => rfl)
        (by decide)).bytes :=
    foldl_write32le_history 4096 4 (fun i => (s.pdlHistory.back i).words) (fun _ => rfl)
      (by decide) rfl
  simp (disch := decide) only [dumpUcodeThings, ucodeSegments, dumpWriteValue_eq,
    dumpWriteSegment_arrayBytes, dumpWriteSegment_imemBytes, hpc, hpdl, List.flatMap_cons,
    List.flatMap_nil, List.append_assoc, List.append_nil]

/-- Pages written in a loop. -/
theorem foldlM_savePage {mm : MainMemory} (hmm : mm.npages ≤ 16384) {pns : List ℕ}
    (hpns : ∀ pn ∈ pns, pn < mm.npages) (fd : List Byte) :
    pns.foldlM (mainMemorySavePageToFile o mm) fd =
      .ok (fd ++ (pns.flatMap (pageWords mm)).flatMap o.bytes) := by
  induction pns generalizing fd with
  | nil => exact congrArg Except.ok (List.append_nil fd).symm
  | cons pn pns ih =>
    have hpn := hpns pn List.mem_cons_self
    have h : pn < 16384 := hpn.trans_le hmm
    have hpage : mainMemorySavePageToFile o mm fd pn =
        .ok (fd ++ (pageWords mm pn).flatMap o.bytes) := by
      rw [mainMemorySavePageToFile, if_pos hpn, dif_pos h, pageWords, dif_pos h,
        List.take_of_length_le]
      · rfl
      · rw [o.length_arrayBytes]
    rw [List.foldlM_cons, hpage]
    change pns.foldlM _ _ = _
    rw [ih (fun pn' hpn' => hpns pn' (List.mem_cons_of_mem pn hpn')), List.flatMap_cons,
      List.flatMap_append, List.append_assoc]

/-- `save_state` writes the magic number, the version and its segments. -/
theorem saveState_eq : saveState o s =
    .ok (le32 dumpFileMagic ++ le32 dumpFileVersion ++
      (stateSegments o s hn).flatMap Segment.bytes) := by
  have hlc (fd : List Byte) : (List.range 20000).foldl
      (fun fd i => write32le fd (s.lcHistory.back i)) (dumpWriteHeader fd (str4 "LCHL") 20000) =
      fd ++ (historySegment "LCHL" 20000 1 (fun i => [s.lcHistory.back i]) (fun _ => rfl)
        (by decide)).bytes :=
    foldl_write32le_history 20000 1 (fun i => [s.lcHistory.back i]) (fun _ => rfl) (by decide) rfl
  have hsize : BitVec.ofNat 32 s.memory.npages * 256 =
      BitVec.ofNat 32 ((List.range s.memory.npages).flatMap (pageWords s.memory)).length := by
    rw [length_flatMap_pageWords hn, Nat.mul_comm, BitVec.ofNat_mul]
    rfl
  have hpages (fd : List Byte) : (List.range s.memory.npages).foldlM
      (mainMemorySavePageToFile o s.memory) fd = _ :=
    foldlM_savePage o hn (fun pn hpn => List.mem_range.mp hpn) fd
  simp (disch := decide) only [saveState, stateSegments, dumpWriteValue_eq, dumpUcodeThings_eq,
    dumpWriteSegment_arrayBytes, hlc, hpages, hsize]
  change Except.ok _ = Except.ok _
  simp only [dumpWriteHeader, write32le, pmemSegment, wordsSegment, Segment.bytes,
    List.flatMap_append, List.flatMap_cons, List.flatMap_nil, List.nil_append, List.append_nil,
    List.append_assoc]
  rfl

end Segments

/-! ### Searching a file of segments -/

section Search

variable {fd : ReadFile} {tl : List Byte} {tag : Word} {g : Segment} {fuel : ℕ}

/-- A word that comes next is read. -/
theorem read32le_append {w : Word} (h : fd.rest = le32 w ++ tl) :
    read32le fd = .ok (w, fd.advance 4) := by
  have hread : fd.read 4 = (le32 w, fd.advance 4) := ReadFile.read_append h
  rw [read32le, hread]
  dsimp only [le32]
  rw [or_shiftLeft_eq_append]
  exact congrArg (fun w => Except.ok (w, _)) (append_le32 w)

/-- What is left behind a word. -/
theorem rest_advance_le32 {w : Word} (h : fd.rest = le32 w ++ tl) : (fd.advance 4).rest = tl :=
  ReadFile.rest_advance_append h

/-- One turn of the search reads the header of the segment that comes next. -/
theorem findSegmentLoop_header (h : fd.rest = g.bytes ++ tl) :
    findSegmentLoop tag (fuel + 1) fd =
      if g.tag = tag then .ok (g.size, fd.advance 8)
      else if g.tag ≠ str4 "EOF_" then findSegmentLoop tag fuel (fd.advance g.bytes.length)
      else .ok (-1, fd.advance g.bytes.length) := by
  rw [Segment.bytes, List.append_assoc, List.append_assoc] at h
  have hsize : (fd.advance 4).rest = le32 g.size ++ (g.data ++ tl) :=
    rest_advance_le32 h
  rw [findSegmentLoop, read32le_append h]
  change ((read32le (fd.advance 4)).bind _ : Except FileFault (Word × ReadFile)) = _
  rw [read32le_append hsize, ReadFile.advance_advance]
  change (if g.tag = tag then _ else _) = _
  rw [g.toInt_size_mul, ReadFile.seekCur_natCast, ReadFile.advance_advance, g.length_bytes]
  rfl

/-- The search passes the segments before the one that it is for. -/
theorem findSegmentLoop_append {before : List Segment}
    (hbefore : ∀ b ∈ before, b.tag ≠ tag ∧ b.tag ≠ str4 "EOF_")
    (h : fd.rest = before.flatMap Segment.bytes ++ tl) :
    findSegmentLoop tag (before.length + fuel) fd =
      findSegmentLoop tag fuel (fd.advance (before.flatMap Segment.bytes).length) := by
  induction before generalizing fd with
  | nil => rw [List.length_nil, Nat.zero_add]; rfl
  | cons b before ih =>
    rw [List.flatMap_cons, List.append_assoc] at h
    obtain ⟨htag, heof⟩ := hbefore b List.mem_cons_self
    rw [List.length_cons, Nat.add_right_comm, findSegmentLoop_header h, if_neg htag, if_pos heof,
      ih (fun b' hb' => hbefore b' (List.mem_cons_of_mem b hb')) (ReadFile.rest_advance_append h),
      ReadFile.advance_advance, List.flatMap_cons, List.length_append]

/-- Segments that can be searched: no tag is used twice, and the last one is `EOF_`. -/
structure Searchable (segments : List Segment) : Prop where
  nodup : (segments.map Segment.tag).Nodup
  last : (segments.map Segment.tag).getLast? = some (str4 "EOF_")

/-- The segments before another one bear neither its tag nor the last one. -/
theorem Searchable.before {before after : List Segment} (h : Searchable (before ++ g :: after)) :
    ∀ b ∈ before, b.tag ≠ g.tag ∧ b.tag ≠ str4 "EOF_" := by
  intro b hb
  have hnodup := h.nodup
  have hlast := h.last
  rw [List.map_append] at hnodup hlast
  rw [List.map_cons, List.getLast?_append_of_ne_nil _ (List.cons_ne_nil _ _)] at hlast
  have hapart := (List.nodup_append.mp hnodup).2.2 _ (List.mem_map_of_mem hb)
  exact ⟨hapart _ List.mem_cons_self, hapart _ (List.mem_of_getLast? hlast)⟩

/-- In a file of such segments every segment is found by its tag, from any position, and
its data comes next. -/
theorem dumpFindSegment_eq (head : List Byte) {segments : List Segment} (hhead : head.length = 8)
    (h : Searchable segments) (hg : g ∈ segments) (hfuel : segments.length ≤ fuel) (pos : ℕ) :
    ∃ fd' tl, dumpFindSegment fuel ⟨head ++ segments.flatMap Segment.bytes, pos⟩ g.tag =
      .ok (g.size, fd') ∧ fd'.rest = g.data ++ tl := by
  obtain ⟨before, after, rfl⟩ := List.append_of_mem hg
  set fd : ReadFile := ⟨head ++ (before ++ g :: after).flatMap Segment.bytes, 8⟩ with hfd
  have hrest : fd.rest = before.flatMap Segment.bytes ++
      (g.bytes ++ after.flatMap Segment.bytes) := by
    rw [hfd, ReadFile.rest, ← hhead]
    change List.drop head.length _ = _
    rw [List.drop_left, List.flatMap_append, List.flatMap_cons]
  obtain ⟨k, rfl⟩ : ∃ k, fuel = before.length + (k + 1) := by
    rw [List.length_append, List.length_cons] at hfuel
    exact ⟨fuel - before.length - 1, by omega⟩
  have hat := ReadFile.rest_advance_append hrest
  refine ⟨(fd.advance (before.flatMap Segment.bytes).length).advance 8,
    after.flatMap Segment.bytes, ?_, ?_⟩
  · change findSegmentLoop g.tag _ fd = _
    rw [findSegmentLoop_append h.before hrest, findSegmentLoop_header hat, if_pos rfl]
  · rw [Segment.bytes, List.append_assoc, List.append_assoc] at hat
    have hdata := rest_advance_le32 (rest_advance_le32 hat)
    rwa [ReadFile.advance_advance] at hdata

end Search

/-! ### Restoring a saved state -/

section Restore

variable {β : Type} (o : ByteOrder)

/-- The pages of one memory put into another one. -/
def MainMemory.withPages (mm : MainMemory) (saved : MainMemory) (pns : List ℕ) : MainMemory :=
  { mm with pages := fun pn => if pn.val ∈ pns then saved.pages pn else mm.pages pn }

/-- One more page. -/
theorem MainMemory.withPages_cons (mm saved : MainMemory) (pn : Fin 16384) (pns : List ℕ) :
    { mm with pages := Function.update mm.pages pn (saved.pages pn) }.withPages saved pns =
      mm.withPages saved (pn :: pns) := by
  unfold withPages
  congr 1
  funext pn'
  by_cases h : pn' = pn
  · subst h
    simp only [List.mem_cons, true_or, if_true, Function.update_self, ite_self]
  · have hval : pn'.val ≠ pn.val := fun hval => h (Fin.ext hval)
    simp only [List.mem_cons, hval, false_or, Function.update_of_ne h]

/-- A page that comes next is loaded. -/
theorem mainMemoryLoadPageFromFile_eq {mm saved : MainMemory} {fd : ReadFile} {tl : List Byte}
    {pn : ℕ} (hpn : pn < mm.npages) (hlt : pn < 16384)
    (h : fd.rest = (pageWords saved pn).flatMap o.bytes ++ tl) :
    mainMemoryLoadPageFromFile o (mm, fd) pn =
      .ok ({ mm with pages := Function.update mm.pages ⟨pn, hlt⟩ (saved.pages ⟨pn, hlt⟩) },
        fd.advance 1024) := by
  rw [pageWords, dif_pos hlt] at h
  have hread : fd.read 1024 = (o.arrayBytes (saved.pages ⟨pn, hlt⟩), fd.advance 1024) := by
    have hlength := o.length_arrayBytes (saved.pages ⟨pn, hlt⟩)
    rw [← show 4 * 256 = 1024 from rfl, ← hlength]
    exact ReadFile.read_append h
  have hold : (o.arrayBytes (mm.pages ⟨pn, hlt⟩)).drop
      (o.arrayBytes (saved.pages ⟨pn, hlt⟩)).length = [] := by
    rw [o.length_arrayBytes]
    exact List.drop_of_length_le (o.length_arrayBytes _).le
  simp only [mainMemoryLoadPageFromFile, if_pos hpn, dif_pos hlt, hread, hold, List.append_nil,
    o.page_arrayBytes]

/-- Pages loaded in a loop. -/
theorem foldlM_loadPage (mm : MainMemory) {saved : MainMemory} {pns : List ℕ} {fd : ReadFile}
    {tl : List Byte}
    (hmm : mm.npages ≤ 16384) (hpns : ∀ pn ∈ pns, pn < mm.npages)
    (h : fd.rest = (pns.flatMap (pageWords saved)).flatMap o.bytes ++ tl) :
    ∃ fd', pns.foldlM (mainMemoryLoadPageFromFile o) (mm, fd) =
      .ok (mm.withPages saved pns, fd') := by
  induction pns generalizing mm fd with
  | nil => exact ⟨fd, rfl⟩
  | cons pn pns ih =>
    have hpn := hpns pn List.mem_cons_self
    have hlt : pn < 16384 := hpn.trans_le hmm
    rw [List.flatMap_cons, List.flatMap_append, List.append_assoc] at h
    have hlength : ((pageWords saved pn).flatMap o.bytes).length = 1024 := by
      rw [length_flatMap_const fun w _ => o.length_bytes w, length_pageWords saved hlt]
    have hrest := ReadFile.rest_advance_append h
    rw [hlength] at hrest
    rw [List.foldlM_cons, mainMemoryLoadPageFromFile_eq o hpn hlt h, ← MainMemory.withPages_cons mm
      saved ⟨pn, hlt⟩]
    exact ih _ hmm (fun pn' hpn' => hpns pn' (List.mem_cons_of_mem pn hpn')) hrest

/-- The announced size of the saved pages passes the checks of `restore_state`. -/
theorem pmemSegment_size {mm : MainMemory} (h : mm.npages ≤ 16384) :
    (pmemSegment o mm h).size.slt 0 = false ∧ (pmemSegment o mm h).size &&& 0xFF = 0 ∧
      BitVec.slt (16384 * 256) (pmemSegment o mm h).size = false ∧
      ((pmemSegment o mm h).size / 256).toNat = mm.npages := by
  obtain ⟨size, hsize⟩ : ∃ size : Word, size = (pmemSegment o mm h).size := ⟨_, rfl⟩
  rw [← hsize]
  have htoNat : size.toNat = 256 * mm.npages := by
    rw [hsize]
    change (BitVec.ofNat 32 _).toNat = _
    rw [length_flatMap_pageWords h, BitVec.toNat_ofNat]
    omega
  have htoInt : size.toInt = 256 * mm.npages := by
    rw [BitVec.toInt_eq_toNat_of_lt (by omega), htoNat]
    rfl
  refine ⟨?_, ?_, ?_, ?_⟩
  · rw [BitVec.slt_eq_decide, htoInt]
    exact decide_eq_false (by change ¬_ < (0 : ℤ); omega)
  · apply BitVec.eq_of_toNat_eq
    rw [toNat_and_mask _ _ (n := 8) rfl, htoNat]
    exact Nat.mul_mod_right 256 mm.npages
  · rw [BitVec.slt_eq_decide, htoInt]
    exact decide_eq_false (by change ¬(4194304 : ℤ) < _; omega)
  · rw [BitVec.toNat_udiv, htoNat]
    exact Nat.mul_div_cancel_left _ (by decide)

variable (s : SavedState β) (hn : s.memory.npages ≤ 16384)

/-- The segments of a state file can be searched. -/
theorem searchable_stateSegments : Searchable (stateSegments o s hn) where
  nodup := by
    rw [map_tag_stateSegments]
    exact nodup_stateTags
  last := rfl

/-- The saved file in a process that has restored none: the populated pages are those
saved, and the number of pages too. -/
theorem restoreState_eq {fuel : ℕ} (hfuel : 24 ≤ fuel) {p : RestoreProcess}
    (hp : p.restored = false) :
    restoreState o fuel (some (le32 dumpFileMagic ++ le32 dumpFileVersion ++
        (stateSegments o s hn).flatMap Segment.bytes)) p =
      .ok { restored := true
            memory := { p.memory with npages := s.memory.npages }.withPages s.memory
              (List.range s.memory.npages) } := by
  set tl := (stateSegments o s hn).flatMap Segment.bytes with htl
  have hg : pmemSegment o s.memory hn ∈ stateSegments o s hn :=
    List.mem_append_right _ (by simp only [List.mem_cons, true_or, or_true])
  obtain ⟨fd', tl', hfind, hdata⟩ := dumpFindSegment_eq (le32 dumpFileMagic ++ le32 dumpFileVersion)
    rfl (searchable_stateSegments o s hn) hg hfuel 8
  obtain ⟨hneg, hpage, hmax, hdiv⟩ := pmemSegment_size o hn
  obtain ⟨fd'', hload⟩ := foldlM_loadPage o { p.memory with npages := s.memory.npages } hn
    (fun pn hpn => List.mem_range.mp hpn) hdata
  set fd : ReadFile := ⟨le32 dumpFileMagic ++ le32 dumpFileVersion ++ tl, 0⟩ with hfd
  have hmagic : fd.rest = le32 dumpFileMagic ++ (le32 dumpFileVersion ++ tl) :=
    List.append_assoc _ _ _
  have hversion : (fd.advance 4).rest = le32 dumpFileVersion ++ tl :=
    rest_advance_le32 hmagic
  have hfind' : dumpFindSegment fuel (fd.advance (4 + 4)) (str4 "PMEM") =
      .ok ((pmemSegment o s.memory hn).size, fd') := hfind
  have hmemory : (if ¬p.memory.npages = s.memory.npages then
      { p.memory with npages := s.memory.npages } else p.memory) =
      { p.memory with npages := s.memory.npages } := by
    split
    case isTrue => rfl
    case isFalse h => rw [← not_not.mp h]
  have hbind {α : Type} (a : α) (f : α → Except FileFault RestoreProcess) :
      (Except.ok a >>= f) = f a := rfl
  have hsigned : ¬(pmemSegment o s.memory hn).size.slt 0 = true := by rw [hneg]; decide
  have hbounded : ¬BitVec.slt (16384 * 256) (pmemSegment o s.memory hn).size = true := by
    rw [hmax]
    decide
  rw [restoreState, if_neg (by rw [hp]; decide)]
  simp only [← hfd, read32le_append hmagic, hbind, read32le_append hversion,
    ReadFile.advance_advance, ne_eq, not_true_eq_false, if_false, hfind', if_neg hsigned, hpage,
    if_neg hbounded, hdiv]
  simp only [hmemory, hload, hbind]
  rfl

/-- A machine with two pages, whose words are numbered. -/
def twoPages : SavedState Unit where
  engine := powerOn (fun _ => 0) (fun _ => 0) ()
  pcHistory := ⟨fun _ => 0, 0⟩
  lcHistory := ⟨fun _ => 0, 0⟩
  pdlHistory := ⟨fun _ => ⟨0, 0, 0, 0⟩, 0⟩
  memory := ⟨2, fun pn k => BitVec.ofNat 32 (256 * pn.val + k.val)⟩

/-- The round trip of a state file, whatever the byte order of the machine: `save_state`
writes its magic number, its version and the segments, of which each has as many words as
its header announces and the last is `EOF_`; `dump_find_segment` finds each of them with
its data; and `restore_state` of the file, in a process of any memory size that has
restored none, sets the number of pages and every word of them to what was saved. -/
theorem state_file_round_trip :
    ∃ file, saveState o s = .ok file ∧
      file = le32 dumpFileMagic ++ le32 dumpFileVersion ++
        (stateSegments o s hn).flatMap Segment.bytes ∧
      (stateSegments o s hn).map Segment.tag = stateTags.map str4 ∧
      (∀ g ∈ stateSegments o s hn, g.data.length = 4 * g.size.toNat) ∧
      (∀ g ∈ stateSegments o s hn, ∀ fuel pos, 24 ≤ fuel →
        ∃ fd', dumpFindSegment fuel ⟨file, pos⟩ g.tag = .ok (g.size, fd') ∧
          (fd'.read g.data.length).1 = g.data) ∧
      ∀ fuel (p : RestoreProcess), 24 ≤ fuel → p.restored = false →
        restoreState o fuel (some file) p = .ok
          { restored := true
            memory :=
              { npages := s.memory.npages
                pages := fun pn => if pn.val < s.memory.npages then s.memory.pages pn
                  else p.memory.pages pn } } := by
  refine ⟨_, saveState_eq o s hn, rfl, map_tag_stateSegments o s hn, fun g _ => g.length_data,
    ?_, ?_⟩
  · intro g hg fuel pos hfuel
    have hsearch := searchable_stateSegments o s hn
    obtain ⟨fd', tl, hfind, hdata⟩ := dumpFindSegment_eq
      (le32 dumpFileMagic ++ le32 dumpFileVersion) rfl hsearch hg hfuel pos
    refine ⟨fd', hfind, ?_⟩
    rw [ReadFile.read_append hdata]
  · intro fuel p hfuel hp
    rw [restoreState_eq o s hn hfuel hp]
    simp only [MainMemory.withPages, List.mem_range]

/-- Two pages come back in a process of 8192 pages. -/
theorem state_file_round_trip_two_pages :
    ∃ file p, saveState .little twoPages = .ok file ∧
      restoreState .little 24 (some file) ⟨false, ⟨8192, fun _ _ => 0⟩⟩ = .ok p ∧
      p.memory.npages = 2 ∧ p.memory.pages 1 255 = 511 := by
  obtain ⟨file, hfile, -, -, -, -, hrestore⟩ :=
    state_file_round_trip .little twoPages (show 2 ≤ 16384 by decide)
  exact ⟨file, _, hfile, hrestore 24 ⟨false, ⟨8192, fun _ _ => 0⟩⟩ le_rfl rfl, rfl, rfl⟩

end Restore

end Usim
