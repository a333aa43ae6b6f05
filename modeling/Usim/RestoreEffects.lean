import Usim.Lib.CText
import Usim.StateFile

/-!
# What restoring a state changes

`restore_state` of `dump.c` and `RestoreState` of `MachineControl.cs` for any content of the file:
when they restore all that the file is for, when they change nothing, and when they stop half-way.
-/

namespace Usim

open Lib

/-! ### The C function -/

/-- The pages that a state file announces and where they begin, or nothing if `restore_state`
refuses it. -/
def announcedPages (fuel : ℕ) (bytes : List Byte) : Except FileFault (Option (ℕ × ReadFile)) := do
  let (magic, fd) ← read32le ⟨bytes, 0⟩
  let (version, fd) ← read32le fd
  if magic ≠ dumpFileMagic then return none
  if version ≠ dumpFileVersion then return none
  let (s, fd) ← dumpFindSegment fuel fd (str4 "PMEM")
  if s.slt 0 then return none
  if s &&& 0xFF ≠ 0 then return none
  if BitVec.slt (16384 * 256) s then return none
  return some ((s / 256).toNat, fd)

/-- What a file has for a page. -/
def pageChunk (fd : ReadFile) (pn : ℕ) : List Byte := (fd.rest.drop (1024 * pn)).take 1024

/-- All that a file announces is in memory. -/
def Restored (o : ByteOrder) (fuel : ℕ) (bytes : List Byte) (memory : MainMemory) : Prop :=
  ∃ n fd, announcedPages fuel bytes = .ok (some (n, fd)) ∧
    1024 * n ≤ fd.rest.length ∧ memory.npages = n ∧
    ∀ pn : Fin 16384, pn.val < n → memory.pages pn = o.page (pageChunk fd pn)

/-- `restore_state` restores all or leaves the memory as it is. It stores nothing before it ends the
process with `errx`, or while it searches. -/
def AllOrNothing (o : ByteOrder) (file : Option (List Byte)) (p : RestoreProcess) : Prop :=
  ∀ fuel, match restoreState o fuel file p with
    | .ok p' => p'.memory = p.memory ∨ ∃ bytes ∈ file, Restored o fuel bytes p'.memory
    | .error (.err _) => True
    | .error .unfinished => True
    | .error _ => False

/-- A file has all pages that it announces, or those that it has are in memory. -/
def Complete (o : ByteOrder) (bytes : List Byte) (memory : MainMemory) : Prop :=
  ∀ fuel n fd, announcedPages fuel bytes = .ok (some (n, fd)) → 1024 * n ≤ fd.rest.length ∨
    memory.npages = n ∧
      ∀ pn : Fin 16384, pn.val < n → pageChunk fd pn <+: o.arrayBytes (memory.pages pn)

section Restore

variable {o : ByteOrder} {fuel : ℕ} {bytes : List Byte} {p : RestoreProcess}

/-- What `restore_state` does with the pages that a file announces. -/
theorem restoreState_eq_announced (hp : p.restored = false) :
    restoreState o fuel (some bytes) p =
      match announcedPages fuel bytes with
      | .error fault => .error fault
      | .ok none => .ok ⟨true, p.memory⟩
      | .ok (some (n, fd)) =>
        match (List.range n).foldlM (mainMemoryLoadPageFromFile o) (⟨n, p.memory.pages⟩, fd) with
        | .error fault => .error fault
        | .ok (memory, _) => .ok ⟨true, memory⟩ := by
  have hbind {α γ : Type} (a : α) (f : α → Except FileFault γ) : (Except.ok a >>= f) = f a := rfl
  have hmemory (n : ℕ) : (if p.memory.npages ≠ n then { p.memory with npages := n } else p.memory) =
      ⟨n, p.memory.pages⟩ := by
    split
    · rfl
    · rename_i hn
      rw [← not_not.mp hn]
  rw [restoreState, if_neg (by rw [hp]; exact Bool.false_ne_true)]
  unfold announcedPages
  dsimp only
  cases hmagic : read32le ⟨bytes, 0⟩ with
  | error fault => rfl
  | ok r =>
    simp only [hbind]
    cases hversion : read32le r.2 with
    | error fault => rfl
    | ok r' =>
      simp only [hbind]
      by_cases h₁ : r.1 ≠ dumpFileMagic
      · rw [if_pos h₁, if_pos h₁]
        rfl
      · rw [if_neg h₁, if_neg h₁]
        by_cases h₂ : r'.1 ≠ dumpFileVersion
        · rw [if_pos h₂, if_pos h₂]
          rfl
        · rw [if_neg h₂, if_neg h₂]
          cases hfind : dumpFindSegment fuel r'.2 (str4 "PMEM") with
          | error fault => rfl
          | ok r'' =>
            simp only [hbind, hmemory]
            split_ifs
            · rfl
            · rfl
            · rfl
            · change _ = match (List.range (r''.1 / 256).toNat).foldlM
                (mainMemoryLoadPageFromFile o) (⟨_, p.memory.pages⟩, r''.2) with
                | .error fault => _
                | .ok (memory, _) => _
              cases (List.range (r''.1 / 256).toNat).foldlM (mainMemoryLoadPageFromFile o)
                (⟨(r''.1 / 256).toNat, p.memory.pages⟩, r''.2) with
              | error fault => rfl
              | ok m => rfl

/-- A word is not read only if the process ends. -/
theorem read32le_error {fd : ReadFile} {fault : FileFault} (h : read32le fd = .error fault) :
    ∃ call, fault = .err call := by
  unfold read32le at h
  split at h
  · cases h
  · cases h
    exact ⟨_, rfl⟩

/-- A segment is not found only if the process ends or the search goes on. -/
theorem findSegmentLoop_error {tag : Word} {fd : ReadFile} {fault : FileFault}
    (h : findSegmentLoop tag fuel fd = .error fault) :
    (∃ call, fault = .err call) ∨ fault = .unfinished := by
  induction fuel generalizing fd with
  | zero =>
    cases h
    exact .inr rfl
  | succ fuel ih =>
    rw [findSegmentLoop] at h
    cases ht : read32le fd with
    | error fault' =>
      rw [ht] at h
      cases h
      exact .inl (read32le_error ht)
    | ok r =>
      rw [ht] at h
      change (read32le r.2 >>= _) = _ at h
      cases hsize : read32le r.2 with
      | error fault' =>
        rw [hsize] at h
        cases h
        exact .inl (read32le_error hsize)
      | ok r' =>
        rw [hsize] at h
        change (if r.1 = tag then _ else if r.1 ≠ str4 "EOF_" then _ else _) = _ at h
        split_ifs at h
        · cases h
        · exact ih h
        · cases h

/-- What goes wrong before anything is stored, or how many pages there are at most. -/
theorem announcedPages_cases (fuel : ℕ) (bytes : List Byte) :
    match announcedPages fuel bytes with
    | .error fault => (∃ call, fault = .err call) ∨ fault = .unfinished
    | .ok none => True
    | .ok (some (n, _)) => n ≤ 16384 := by
  have hbind {α γ : Type} (a : α) (f : α → Except FileFault γ) : (Except.ok a >>= f) = f a := rfl
  unfold announcedPages
  cases hmagic : read32le ⟨bytes, 0⟩ with
  | error fault => exact .inl (read32le_error hmagic)
  | ok r =>
    simp only [hbind]
    cases hversion : read32le r.2 with
    | error fault => exact .inl (read32le_error hversion)
    | ok r' =>
      simp only [hbind]
      by_cases h₁ : r.1 ≠ dumpFileMagic
      · rw [if_pos h₁]
        trivial
      · rw [if_neg h₁]
        by_cases h₂ : r'.1 ≠ dumpFileVersion
        · rw [if_pos h₂]
          trivial
        · rw [if_neg h₂]
          cases hfind : dumpFindSegment fuel r'.2 (str4 "PMEM") with
          | error fault => exact findSegmentLoop_error hfind
          | ok r'' =>
            simp only [hbind]
            split_ifs with hneg hpage hmax
            · trivial
            · trivial
            · trivial
            · change (r''.1 / 256).toNat ≤ 16384
              rw [BitVec.slt_eq_decide, decide_eq_true_iff, Int.not_lt] at hneg hmax
              have hbound : (16384 * 256 : Word).toInt = 4194304 := by decide
              have hzero : (0 : Word).toInt = 0 := by decide
              rw [hzero, BitVec.toInt_eq_toNat_cond] at hneg
              rw [hbound, BitVec.toInt_eq_toNat_cond] at hmax
              have hdiv : (r''.1 / 256).toNat = r''.1.toNat / 256 := BitVec.toNat_udiv
              rw [hdiv]
              split_ifs at hneg hmax <;> omega

/-! ### Loading pages -/

/-- The four bytes of a word that is made up of them. -/
theorem ByteOrder.bytes_word (o : ByteOrder) {bs : List Byte} (h : bs.length = 4) :
    o.bytes (o.word bs) = bs := by
  match bs, h with
  | [b₀, b₁, b₂, b₃], _ =>
    cases o with
    | little => exact le32_append b₃ b₂ b₁ b₀
    | big => exact congrArg List.reverse (le32_append b₀ b₁ b₂ b₃)

/-- The bytes of a page that is made up of them. -/
theorem ByteOrder.arrayBytes_page (o : ByteOrder) {bs : List Byte} (h : bs.length = 1024) :
    o.arrayBytes (o.page bs) = bs := by
  have hlength : (List.ofFn (o.page bs)).length = 256 := List.length_ofFn
  -- a byte of the list is a byte of the word that it belongs to
  have hbyte (l : List Byte) (j : ℕ) : l[j]? = ((l.drop (4 * (j / 4))).take 4)[j % 4]? := by
    rw [List.getElem?_take_of_lt (Nat.mod_lt j (by decide)), List.getElem?_drop, Nat.div_add_mod]
  apply List.ext_getElem?
  intro j
  by_cases hj : j < 1024
  · have hk : j / 4 < (List.ofFn (o.page bs)).length := by omega
    have hword : ((bs.drop (4 * (j / 4))).take 4).length = 4 := by
      rw [List.length_take, List.length_drop]
      omega
    rw [hbyte, hbyte bs, arrayBytes, take_drop_flatMap o.length_bytes hk, List.getElem_ofFn, page,
      o.bytes_word hword]
  · rw [List.getElem?_eq_none, List.getElem?_eq_none]
    · omega
    · rw [o.length_arrayBytes]
      omega

/-- What a page becomes. -/
def loadedPage (o : ByteOrder) (memory : MainMemory) (fd : ReadFile) (pn : Fin 16384) : Page :=
  o.page (pageChunk fd pn ++ (o.arrayBytes (memory.pages pn)).drop (pageChunk fd pn).length)

/-- Pages are loaded one after the other, as far as the file goes. -/
theorem foldlM_loadPages (o : ByteOrder) (memory : MainMemory) (fd : ReadFile) {n : ℕ}
    (hn : n ≤ memory.npages) (hmax : n ≤ 16384) :
    ∃ memory' fd', (List.range n).foldlM (mainMemoryLoadPageFromFile o) (memory, fd) =
        .ok (memory', fd') ∧ fd'.rest = fd.rest.drop (1024 * n) ∧ memory'.npages = memory.npages ∧
      ∀ pn, memory'.pages pn =
        if pn.val < n then loadedPage o memory fd pn else memory.pages pn := by
  induction n with
  | zero => exact ⟨memory, fd, rfl, rfl, rfl, fun _ => rfl⟩
  | succ n ih =>
    obtain ⟨memory', fd', hfold, hrest, hnpages, hpages⟩ := ih (by omega) (by omega)
    have hpn : n < memory'.npages := by omega
    have hlt : n < 16384 := by omega
    have hchunk : fd'.rest.take 1024 = pageChunk fd n := by rw [hrest, pageChunk]
    have hold : memory'.pages ⟨n, hlt⟩ = memory.pages ⟨n, hlt⟩ := by
      rw [hpages, if_neg (Nat.lt_irrefl n)]
    have hload : mainMemoryLoadPageFromFile o (memory', fd') n = .ok
        ((⟨memory'.npages, Function.update memory'.pages ⟨n, hlt⟩
            (loadedPage o memory fd ⟨n, hlt⟩)⟩ : MainMemory),
          fd'.advance (pageChunk fd n).length) := by
      rw [mainMemoryLoadPageFromFile, if_pos hpn, dif_pos hlt, ReadFile.read, hchunk, hold]
      rfl
    refine ⟨⟨memory'.npages, Function.update memory'.pages ⟨n, hlt⟩
      (loadedPage o memory fd ⟨n, hlt⟩)⟩, fd'.advance (pageChunk fd n).length, ?_, ?_, hnpages, ?_⟩
    · rw [List.range_succ, List.foldlM_append, hfold]
      change (mainMemoryLoadPageFromFile o (memory', fd') n >>= pure) = _
      rw [hload]
      rfl
    · rw [ReadFile.rest_advance, hrest, List.drop_drop]
      have hlength : (pageChunk fd n).length = min 1024 (fd.rest.length - 1024 * n) := by
        rw [pageChunk, List.length_take, List.length_drop]
      by_cases hend : 1024 * n + 1024 ≤ fd.rest.length
      · have hfull : (pageChunk fd n).length = 1024 := by omega
        rw [hfull, Nat.mul_succ]
      · rw [List.drop_eq_nil_of_le (by omega), List.drop_eq_nil_of_le (by omega)]
    · intro pn
      by_cases heq : pn = ⟨n, hlt⟩
      · subst heq
        rw [if_pos (Nat.lt_succ_self n)]
        exact Function.update_self _ _ _
      · have hne : pn.val ≠ n := fun h => heq (Fin.ext h)
        have hiff : pn.val < n + 1 ↔ pn.val < n := by omega
        simp only [hiff]
        rw [Function.update_of_ne heq, hpages]

theorem length_pageChunk_le (fd : ReadFile) (pn : ℕ) : (pageChunk fd pn).length ≤ 1024 :=
  List.length_take_le _ _

/-- A page that the file has is loaded as it is there. -/
theorem loadedPage_of_length {memory : MainMemory} {fd : ReadFile} {pn : Fin 16384}
    (h : 1024 * (pn.val + 1) ≤ fd.rest.length) :
    loadedPage o memory fd pn = o.page (pageChunk fd pn) := by
  have hlength : (pageChunk fd pn).length = 1024 := by
    rw [pageChunk, List.length_take, List.length_drop]
    omega
  have hold := o.length_arrayBytes (memory.pages pn)
  rw [loadedPage, List.drop_eq_nil_of_le (by omega), List.append_nil]

/-- A page stays as it is if what the file has of it is there already. -/
theorem loadedPage_eq_iff {memory : MainMemory} {fd : ReadFile} {pn : Fin 16384} :
    loadedPage o memory fd pn = memory.pages pn ↔
      pageChunk fd pn <+: o.arrayBytes (memory.pages pn) := by
  have hchunk := length_pageChunk_le fd pn
  have hold := o.length_arrayBytes (memory.pages pn)
  rw [List.prefix_iff_eq_append, loadedPage]
  constructor
  · intro h
    have hbytes := congrArg o.arrayBytes h
    rwa [o.arrayBytes_page] at hbytes
    rw [List.length_append, List.length_drop]
    omega
  · intro h
    rw [h, o.page_arrayBytes]

/-- A state file is restored in full or without effect exactly if it has all pages that it announces
or what it has of them is in memory already. -/
theorem allOrNothing_iff {file : Option (List Byte)} :
    AllOrNothing o file p ↔
      p.restored = true ∨ ∀ bytes ∈ file, Complete o bytes p.memory := by
  cases hp : p.restored with
  | true =>
    refine ⟨fun _ => .inl rfl, fun _ fuel => ?_⟩
    rw [restoreState, if_pos hp]
    exact .inl rfl
  | false =>
    cases file with
    | none =>
      refine ⟨fun _ => .inr (fun _ h => absurd h (Option.not_mem_none _)), fun _ fuel => ?_⟩
      rw [restoreState, if_neg (by rw [hp]; exact Bool.false_ne_true)]
      exact .inl rfl
    | some bytes =>
      have hload {fuel n : ℕ} {fd : ReadFile} (h : announcedPages fuel bytes = .ok (some (n, fd))) :
          ∃ memory', restoreState o fuel (some bytes) p = .ok ⟨true, memory'⟩ ∧
            memory'.npages = n ∧ ∀ pn, memory'.pages pn =
              if pn.val < n then loadedPage o p.memory fd pn else p.memory.pages pn := by
        have hmax := announcedPages_cases fuel bytes
        rw [h] at hmax
        obtain ⟨memory', fd', hfold, -, hnpages, hpages⟩ :=
          foldlM_loadPages o ⟨n, p.memory.pages⟩ fd (le_refl n) hmax
        refine ⟨memory', ?_, hnpages, hpages⟩
        rw [restoreState_eq_announced hp, h]
        dsimp only
        rw [hfold]
      constructor
      · intro hall
        right
        intro _ hmem fuel n fd hannounced
        cases hmem
        obtain ⟨memory', hrestore, hnpages, hpages⟩ := hload hannounced
        have hcase := hall fuel
        rw [hrestore] at hcase
        obtain hsame | ⟨_, hmem, n', fd', hannounced', hlength, -, -⟩ := hcase
        · right
          change memory' = p.memory at hsame
          subst hsame
          refine ⟨hnpages, fun pn hpn => loadedPage_eq_iff.mp ?_⟩
          have hpage := hpages pn
          rw [if_pos hpn] at hpage
          exact hpage.symm
        · cases hmem
          rw [hannounced] at hannounced'
          cases hannounced'
          exact .inl hlength
      · intro hcomplete fuel
        obtain hfalse | hcomplete := hcomplete
        · cases hfalse
        have hcases := announcedPages_cases fuel bytes
        cases hannounced : announcedPages fuel bytes with
        | error fault =>
          rw [hannounced] at hcases
          rw [restoreState_eq_announced hp, hannounced]
          obtain ⟨call, rfl⟩ | rfl := hcases
          · trivial
          · trivial
        | ok r =>
          cases r with
          | none =>
            rw [restoreState_eq_announced hp, hannounced]
            exact .inl rfl
          | some r =>
            obtain ⟨memory', hrestore, hnpages, hpages⟩ := hload hannounced
            rw [hrestore]
            obtain hlength | ⟨hsame, hchunks⟩ := hcomplete bytes rfl fuel r.1 r.2 hannounced
            · refine .inr ⟨bytes, rfl, r.1, r.2, hannounced, hlength, hnpages, fun pn hpn => ?_⟩
              rw [hpages, if_pos hpn, loadedPage_of_length (by omega)]
            · left
              have hpages' : memory'.pages = p.memory.pages := by
                funext pn
                rw [hpages]
                split
                · exact loadedPage_eq_iff.mpr (hchunks pn ‹_›)
                · rfl
              change (⟨memory'.npages, memory'.pages⟩ : MainMemory) = _
              rw [hnpages, hpages', ← hsame]

end Restore

/-! ### The C# function -/

/-- The part of the class `UCode` that `RestoreState` assigns to. -/
structure SavedRegisters where
  /-- `MachineCycles`, a `ulong`. -/
  machineCycles : BitVec 64
  /-- `Npc`. -/
  npc : Word
  /-- `PdlPointer`. -/
  pdlPointer : Word
  /-- `VmaReg`. -/
  vmaReg : Word
  /-- `MdReg`. -/
  mdReg : Word
  deriving DecidableEq, Repr

/-- `EndOfStreamException`. -/
inductive EndOfStream
  | endOfStream
  deriving DecidableEq, Repr

/-- A statement of `RestoreState`, with what its `BinaryReader` has not read. -/
abbrev Restoring := EStateM EndOfStream (SavedRegisters × List Byte)

namespace SavedRegisters

/-- `ReadChars(4)`, as the bytes read. They stand for the characters `USIM` only if they are their
codes. -/
def readChars4 : Restoring (List Byte) := fun s => .ok (s.2.take 4) (s.1, s.2.drop 4)

/-- `ReadUInt32`. -/
def readUInt32 : Restoring Word := fun s =>
  match s.2 with
  | b₀ :: b₁ :: b₂ :: b₃ :: rest => .ok (b₃ ++ b₂ ++ b₁ ++ b₀) (s.1, rest)
  | _ => .error .endOfStream s

/-- `ReadUInt64`. -/
def readUInt64 : Restoring (BitVec 64) := fun s =>
  match s.2 with
  | b₀ :: b₁ :: b₂ :: b₃ :: b₄ :: b₅ :: b₆ :: b₇ :: rest =>
    .ok (b₇ ++ b₆ ++ b₅ ++ b₄ ++ (b₃ ++ b₂ ++ b₁ ++ b₀)) (s.1, rest)
  | _ => .error .endOfStream s

/-- An assignment to a property of `UCode`. -/
def assign (f : SavedRegisters → SavedRegisters) : Restoring Unit :=
  modify fun s => (f s.1, s.2)

/-- The `try` block of `RestoreState`. -/
def restoreBlock : Restoring Unit := do
  let magic ← readChars4
  if magic ≠ chars "USIM" then
    return ()
  let _ ← readUInt32
  let machineCycles ← readUInt64
  assign fun m => { m with machineCycles }
  let npc ← readUInt32
  assign fun m => { m with npc }
  let pdlPointer ← readUInt32
  assign fun m => { m with pdlPointer }
  let vmaReg ← readUInt32
  assign fun m => { m with vmaReg }
  let mdReg ← readUInt32
  assign fun m => { m with mdReg }

/-- The machine after a `try` block. An exception is caught and what was assigned before it
stays. -/
def caught : EStateM.Result EndOfStream (SavedRegisters × List Byte) Unit → SavedRegisters
  | .ok _ s => s.1
  | .error _ s => s.1

/-- `RestoreState`; the file is there when it exists. -/
def restoreState (file : Option (List Byte)) (m : SavedRegisters) : SavedRegisters :=
  match file with
  | none => m
  | some bytes => caught (restoreBlock.run (m, bytes))

/-- The word at an offset in a state file. -/
def stateWord (bytes : List Byte) (k : ℕ) : Word := ByteOrder.little.word ((bytes.drop k).take 4)

/-- The count of cycles in a state file. -/
def stateCycles (bytes : List Byte) : BitVec 64 := stateWord bytes 12 ++ stateWord bytes 8

/-- All that a state file has. -/
def ofState (bytes : List Byte) : SavedRegisters where
  machineCycles := stateCycles bytes
  npc := stateWord bytes 16
  pdlPointer := stateWord bytes 20
  vmaReg := stateWord bytes 24
  mdReg := stateWord bytes 28

/-- The addresses that a state file has are those of a control memory and of a pdl buffer. -/
def InRange (bytes : List Byte) : Prop :=
  (stateWord bytes 16).toNat < 16384 ∧ (stateWord bytes 20).toNat < 1024

/-- `RestoreState` restores all, every register in its range, or leaves the machine as it is. -/
def AllOrNothing (file : Option (List Byte)) (m : SavedRegisters) : Prop :=
  restoreState file m = m ∨
    ∃ bytes ∈ file, chars "USIM" <+: bytes ∧ 32 ≤ bytes.length ∧ InRange bytes ∧
      restoreState file m = ofState bytes

/-- The registers with the values that a state file has in full. -/
def withPart (m : SavedRegisters) (bytes : List Byte) : SavedRegisters where
  machineCycles := if 16 ≤ bytes.length then stateCycles bytes else m.machineCycles
  npc := if 20 ≤ bytes.length then stateWord bytes 16 else m.npc
  pdlPointer := if 24 ≤ bytes.length then stateWord bytes 20 else m.pdlPointer
  vmaReg := if 28 ≤ bytes.length then stateWord bytes 24 else m.vmaReg
  mdReg := if 32 ≤ bytes.length then stateWord bytes 28 else m.mdReg

/-- Those values that a state file has in full are in the registers. -/
structure Agrees (bytes : List Byte) (m : SavedRegisters) : Prop where
  machineCycles : 16 ≤ bytes.length → stateCycles bytes = m.machineCycles
  npc : 20 ≤ bytes.length → stateWord bytes 16 = m.npc
  pdlPointer : 24 ≤ bytes.length → stateWord bytes 20 = m.pdlPointer
  vmaReg : 28 ≤ bytes.length → stateWord bytes 24 = m.vmaReg
  mdReg : 32 ≤ bytes.length → stateWord bytes 28 = m.mdReg

variable {m : SavedRegisters} {bytes : List Byte} {k : ℕ}

/-- A word is read if the file has it. -/
theorem readUInt32_drop : readUInt32 (m, bytes.drop k) =
    if k + 4 ≤ bytes.length then .ok (stateWord bytes k) (m, bytes.drop (k + 4))
    else .error .endOfStream (m, bytes.drop k) := by
  have hlength : (bytes.drop k).length = bytes.length - k := List.length_drop
  rw [← List.drop_drop, stateWord]
  match hrest : bytes.drop k with
  | [] | [_] | [_, _] | [_, _, _] =>
    rw [hrest] at hlength
    simp only [List.length_nil, List.length_cons] at hlength
    rw [if_neg (by omega)]
    rfl
  | _ :: _ :: _ :: _ :: _ =>
    rw [hrest] at hlength
    simp only [List.length_cons] at hlength
    rw [if_pos (by omega)]
    rfl

/-- A count is read if the file has it. -/
theorem readUInt64_drop : readUInt64 (m, bytes.drop k) =
    if k + 8 ≤ bytes.length then
      .ok (stateWord bytes (k + 4) ++ stateWord bytes k) (m, bytes.drop (k + 8))
    else .error .endOfStream (m, bytes.drop k) := by
  have hlength : (bytes.drop k).length = bytes.length - k := List.length_drop
  rw [← List.drop_drop, stateWord, stateWord, ← List.drop_drop]
  match hrest : bytes.drop k with
  | [] | [_] | [_, _] | [_, _, _] | [_, _, _, _] | [_, _, _, _, _] | [_, _, _, _, _, _]
  | [_, _, _, _, _, _, _] =>
    rw [hrest] at hlength
    simp only [List.length_nil, List.length_cons] at hlength
    rw [if_neg (by omega)]
    rfl
  | _ :: _ :: _ :: _ :: _ :: _ :: _ :: _ :: _ =>
    rw [hrest] at hlength
    simp only [List.length_cons] at hlength
    rw [if_pos (by omega)]
    rfl

/-- What follows a read has no effect if the file ends in what is read. -/
theorem caught_bind {α : Type} {read : Restoring α} {next : α → Restoring Unit} {size : ℕ} {v : α}
    (h : read (m, bytes.drop k) = if k + size ≤ bytes.length then
      .ok v (m, bytes.drop (k + size)) else .error .endOfStream (m, bytes.drop k)) :
    caught ((read >>= next) (m, bytes.drop k)) =
      if k + size ≤ bytes.length then caught (next v (m, bytes.drop (k + size))) else m := by
  change caught (EStateM.bind read next (m, bytes.drop k)) = _
  rw [EStateM.bind, h]
  by_cases hsize : k + size ≤ bytes.length
  · rw [if_pos hsize, if_pos hsize]
  · rw [if_neg hsize, if_neg hsize]
    rfl

/-- A word is read and assigned if the file has it. -/
theorem caught_readUInt32 {set : Word → SavedRegisters → SavedRegisters} {next : Restoring Unit} :
    caught ((readUInt32 >>= fun v => assign (set v) >>= fun _ => next) (m, bytes.drop k)) =
      if k + 4 ≤ bytes.length then
        caught (next (set (stateWord bytes k) m, bytes.drop (k + 4))) else m :=
  caught_bind readUInt32_drop

/-- What `RestoreState` makes of a file with the right header. -/
theorem restoreState_eq (h : chars "USIM" <+: bytes) :
    restoreState (some bytes) m = m.withPart bytes := by
  have hmagic : bytes.take 4 = chars "USIM" := (List.prefix_iff_eq_take.mp h).symm
  have hblock : restoreState (some bytes) m = caught ((readUInt32 >>= fun _ => do
      let machineCycles ← readUInt64
      assign fun m => { m with machineCycles }
      let npc ← readUInt32
      assign fun m => { m with npc }
      let pdlPointer ← readUInt32
      assign fun m => { m with pdlPointer }
      let vmaReg ← readUInt32
      assign fun m => { m with vmaReg }
      let mdReg ← readUInt32
      assign fun m => { m with mdReg }) (m, bytes.drop 4)) := by
    change caught ((if bytes.take 4 ≠ chars "USIM" then _ else _ : Restoring Unit) _) = _
    rw [if_neg (not_not.mpr hmagic)]
  have hcycles {next : Restoring Unit} {m : SavedRegisters} :
      caught ((readUInt64 >>= fun machineCycles =>
          assign (fun m => { m with machineCycles }) >>= fun _ => next) (m, bytes.drop 8)) =
        if 16 ≤ bytes.length then
          caught (next ({ m with machineCycles := stateCycles bytes }, bytes.drop 16)) else m :=
    caught_bind readUInt64_drop
  have hlast {m : SavedRegisters} :
      caught ((readUInt32 >>= fun mdReg => assign fun m => { m with mdReg }) (m, bytes.drop 28)) =
        if 32 ≤ bytes.length then { m with mdReg := stateWord bytes 28 } else m :=
    caught_bind readUInt32_drop
  rw [hblock, caught_bind readUInt32_drop, hcycles, caught_readUInt32, caught_readUInt32,
    caught_readUInt32, hlast]
  unfold withPart
  by_cases h₁₆ : 16 ≤ bytes.length
  · rw [if_pos (by omega), if_pos h₁₆, if_pos h₁₆]
    by_cases h₂₀ : 20 ≤ bytes.length
    · rw [if_pos h₂₀, if_pos h₂₀]
      by_cases h₂₄ : 24 ≤ bytes.length
      · rw [if_pos h₂₄, if_pos h₂₄]
        by_cases h₂₈ : 28 ≤ bytes.length
        · rw [if_pos h₂₈, if_pos h₂₈]
          split
          · rfl
          · rfl
        · rw [if_neg h₂₈, if_neg h₂₈, if_neg (by omega)]
      · rw [if_neg h₂₄, if_neg h₂₄, if_neg (by omega), if_neg (by omega)]
    · rw [if_neg h₂₀, if_neg h₂₀, if_neg (by omega), if_neg (by omega), if_neg (by omega)]
  · rw [if_neg h₁₆, ite_self, if_neg h₁₆, if_neg (by omega), if_neg (by omega), if_neg (by omega),
      if_neg (by omega)]

/-- A file with another header is not read. -/
theorem restoreState_of_header (h : ¬ chars "USIM" <+: bytes) :
    restoreState (some bytes) m = m := by
  have hlength : (chars "USIM").length = 4 := length_chars _
  have hmagic : bytes.take 4 ≠ chars "USIM" := by
    intro heq
    apply h
    rw [List.prefix_iff_eq_take, hlength, heq]
  change caught ((if bytes.take 4 ≠ chars "USIM" then _ else _ : Restoring Unit) _) = _
  rw [if_pos hmagic]
  rfl

/-- What a file has is in the registers already exactly if restoring it changes none of them. -/
theorem withPart_eq_iff : m.withPart bytes = m ↔ Agrees bytes m := by
  constructor
  · intro h
    constructor
    · intro hsize
      have hfield := congrArg SavedRegisters.machineCycles h
      rwa [withPart, if_pos hsize] at hfield
    · intro hsize
      have hfield := congrArg SavedRegisters.npc h
      rwa [withPart, if_pos hsize] at hfield
    · intro hsize
      have hfield := congrArg SavedRegisters.pdlPointer h
      rwa [withPart, if_pos hsize] at hfield
    · intro hsize
      have hfield := congrArg SavedRegisters.vmaReg h
      rwa [withPart, if_pos hsize] at hfield
    · intro hsize
      have hfield := congrArg SavedRegisters.mdReg h
      rwa [withPart, if_pos hsize] at hfield
  · intro h
    have hite {α : Type} {c : Prop} [Decidable c] {v a : α} (h : c → v = a) :
        (if c then v else a) = a := by
      split
      · exact h ‹_›
      · rfl
    rw [withPart, hite h.machineCycles, hite h.npc, hite h.pdlPointer, hite h.vmaReg, hite h.mdReg]

/-- A file that has all values is restored in full. -/
theorem withPart_of_length (h : 32 ≤ bytes.length) : m.withPart bytes = ofState bytes := by
  rw [withPart, if_pos (by omega), if_pos (by omega), if_pos (by omega), if_pos (by omega),
    if_pos h, ofState]

/-- The registers are restored in full and in range or not at all exactly if the file has another
header, or all values and addresses in range, or nothing that is not in the registers. -/
theorem allOrNothing_iff {file : Option (List Byte)} :
    AllOrNothing file m ↔ ∀ bytes ∈ file, chars "USIM" <+: bytes →
      32 ≤ bytes.length ∧ InRange bytes ∨ Agrees bytes m := by
  cases file with
  | none => exact ⟨fun _ _ h => absurd h (Option.not_mem_none _), fun _ => .inl rfl⟩
  | some bytes =>
    constructor
    · intro h _ hmem hheader
      cases hmem
      rw [AllOrNothing, restoreState_eq hheader] at h
      obtain hsame | ⟨_, hmem, -, hlength, hrange, -⟩ := h
      · exact .inr (withPart_eq_iff.mp hsame)
      · cases hmem
        exact .inl ⟨hlength, hrange⟩
    · intro h
      by_cases hheader : chars "USIM" <+: bytes
      · obtain ⟨hlength, hrange⟩ | hagrees := h bytes rfl hheader
        · refine .inr ⟨bytes, rfl, hheader, hlength, hrange, ?_⟩
          rw [restoreState_eq hheader, withPart_of_length hlength]
        · left
          rw [restoreState_eq hheader]
          exact withPart_eq_iff.mpr hagrees
      · exact .inl (restoreState_of_header hheader)

end SavedRegisters

/-! ### Both -/

/-- Loading a state file is all or nothing exactly if the file has all that it announces, in range,
or has nothing that is not there already. -/
theorem restoring_all_or_nothing (o : ByteOrder) (file : Option (List Byte)) (p : RestoreProcess)
    (m : SavedRegisters) :
    (AllOrNothing o file p ↔ p.restored = true ∨ ∀ bytes ∈ file, Complete o bytes p.memory) ∧
    (m.AllOrNothing file ↔ ∀ bytes ∈ file, chars "USIM" <+: bytes →
      32 ≤ bytes.length ∧ SavedRegisters.InRange bytes ∨ SavedRegisters.Agrees bytes m) :=
  ⟨allOrNothing_iff, SavedRegisters.allOrNothing_iff⟩

/-- A state file that ends after the header of its `PMEM` segment, of one page. -/
def cutStateFile : List Byte := le32 dumpFileMagic ++ le32 1 ++ le32 (str4 "PMEM") ++ le32 256

/-- A state file of the C# port with a count of cycles and nothing after it. -/
def cutRegisters : List Byte := chars "USIM" ++ le32 1 ++ le32 7 ++ le32 0

/-- A file that ends too soon has half of its effect. -/
theorem not_allOrNothing :
    ¬ AllOrNothing .little (some cutStateFile) ⟨false, ⟨0, fun _ _ => 0⟩⟩ ∧
    ¬ SavedRegisters.AllOrNothing (some cutRegisters) ⟨0, 0, 0, 0, 0⟩ := by
  constructor
  · rw [allOrNothing_iff]
    rintro (hrestored | hcomplete)
    · cases hrestored
    · have hannounced : announcedPages 1 cutStateFile = .ok (some (1, ⟨cutStateFile, 16⟩)) := by
        rfl
      obtain hlength | ⟨hnpages, -⟩ := hcomplete _ rfl _ _ _ hannounced
      · exact absurd hlength (by decide)
      · exact absurd hnpages (by decide)
  · rw [SavedRegisters.allOrNothing_iff]
    intro h
    obtain ⟨hlength, -⟩ | hagrees := h _ rfl ⟨le32 1 ++ le32 7 ++ le32 0, rfl⟩
    · exact absurd hlength (by decide)
    · exact absurd (hagrees.machineCycles (by decide)) (by decide)

end Usim
