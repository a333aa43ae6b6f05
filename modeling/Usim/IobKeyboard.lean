import Usim.Interrupts
import Usim.Lib.Accounting

/-!
# Delivery of scan codes to the IOB

The keyboard registers of `iob.c` with SDL3, to which a queue delivers scan codes, and a
record of the codes that are given to the queue. Codes are numbered in the order in
which they are given.
-/

namespace Usim

/-- The keyboard registers of the IOB. -/
structure IobKeyboard where
  /-- `iob_csr`. -/
  csr : Word
  /-- `iob_scancode`. -/
  scancode : Word
  interrupts : Interrupts
  /-- The calls of `machine_control_boot`. -/
  boots : ℕ

/-- `cold_boot_scancode`. The source compares `0b111111` with 10 where a shift is due. -/
def coldBootScancode : Word :=
  (0b11111 <<< 19 ||| 0b111 <<< 16 ||| (if 0b111111 < 10 then 1 else 0) ||| 0o46 : ℕ)

/-- `warm_boot_scancode`, with the same comparison. -/
def warmBootScancode : Word :=
  (0b11111 <<< 19 ||| 0b111 <<< 16 ||| (if 0b111111 < 10 then 1 else 0) ||| 0o62 : ℕ)

namespace IobKeyboard

/-- `iob_is_keyboard_ready_set`: CSR<5>. -/
def isKeyboardReadySet (i : IobKeyboard) : Bool := i.csr.getLsbD 5

/-- Store a scan code, set CSR<5>, and interrupt if CSR<2> is set. -/
def present (i : IobKeyboard) (scancode : Word) : IobKeyboard :=
  { i with
    scancode := scancode
    csr := i.csr ||| 0o40
    interrupts := if i.csr.getLsbD 2 then assertUnibusInterrupt 0o260 i.interrupts
      else i.interrupts }

/-- `iob_set_keyboard_ready`. -/
def setKeyboardReady (i : IobKeyboard) (scancode : Word) : IobKeyboard :=
  if scancode = coldBootScancode ∨ scancode = warmBootScancode then
    { i with boots := i.boots + 1 }.present scancode
  else i.present scancode

/-- `iob_unibus_read` of 0764100, which clears CSR<5>. -/
def readLow (i : IobKeyboard) : HalfWord × IobKeyboard :=
  (i.scancode.setWidth 16, { i with csr := i.csr &&& ~~~0o40 })

/-- `iob_unibus_read` of 0764102. -/
def readHigh (i : IobKeyboard) : HalfWord × IobKeyboard := ((i.scancode >>> 16).setWidth 16, i)

/-- `iob_unibus_read` of 0764112. -/
def readCsr (i : IobKeyboard) : HalfWord × IobKeyboard := (i.csr.setWidth 16, i)

/-- `iob_unibus_write` of 0764112. -/
def writeCsr (i : IobKeyboard) (v : HalfWord) : IobKeyboard :=
  { i with csr := (i.csr &&& ~~~0o17) ||| (v.setWidth 32 &&& 0o17) }

@[simp] theorem isKeyboardReadySet_present (i : IobKeyboard) (scancode : Word) :
    (i.present scancode).isKeyboardReadySet = true := by
  have h : (0o40 : Word).getLsbD 5 = true := by decide
  simp only [isKeyboardReadySet, present, BitVec.getLsbD_or, h, Bool.or_true]

@[simp] theorem isKeyboardReadySet_setKeyboardReady (i : IobKeyboard) (scancode : Word) :
    (i.setKeyboardReady scancode).isKeyboardReadySet = true := by
  unfold setKeyboardReady
  split <;> exact isKeyboardReadySet_present _ _

@[simp] theorem isKeyboardReadySet_readLow (i : IobKeyboard) :
    i.readLow.2.isKeyboardReadySet = false := by
  have h : (0o40 : Word).getLsbD 5 = true := by decide
  simp only [isKeyboardReadySet, readLow, BitVec.getLsbD_and, BitVec.getLsbD_not, h,
    Bool.not_true, Bool.and_false]

@[simp] theorem isKeyboardReadySet_writeCsr (i : IobKeyboard) (v : HalfWord) :
    (i.writeCsr v).isKeyboardReadySet = i.isKeyboardReadySet := by
  have h : (0o17 : Word).getLsbD 5 = false := by decide
  simp only [isKeyboardReadySet, writeCsr, BitVec.getLsbD_or, BitVec.getLsbD_and,
    BitVec.getLsbD_not, h, Bool.not_false, Bool.and_false, Bool.or_false]
  simp

end IobKeyboard

/-- What the processor does with the keyboard registers. -/
inductive ProcessorAccess
  | readLow
  | readHigh
  | readCsr
  | writeCsr (v : HalfWord)

/-- The registers after an access. -/
def IobKeyboard.access (i : IobKeyboard) : ProcessorAccess → IobKeyboard
  | .readLow => i.readLow.2
  | .readHigh => i.readHigh.2
  | .readCsr => i.readCsr.2
  | .writeCsr v => i.writeCsr v

/-- The processor never sets CSR<5>. -/
theorem IobKeyboard.ready_of_access {i : IobKeyboard} {a : ProcessorAccess}
    (h : (i.access a).isKeyboardReadySet) : i.isKeyboardReadySet := by
  cases a with
  | readLow => exact absurd h (by simp [access])
  | readHigh => exact h
  | readCsr => exact h
  | writeCsr v => exact isKeyboardReadySet_writeCsr i v ▸ h

/-- What becomes of the codes given to a queue. -/
structure KeyLog where
  /-- The codes given, in order. -/
  codes : List Word
  /-- The numbers of those delivered, with the code delivered. -/
  delivered : List (ℕ × Word)
  /-- Those that wait, in order. -/
  waiting : List (ℕ × Word)
  /-- Those dropped. -/
  dropped : List ℕ
  /-- The processor has not read the last code delivered. -/
  unread : Bool

namespace KeyLog

/-- No code has been given. -/
def start (unread : Bool) : KeyLog :=
  { codes := [], delivered := [], waiting := [], dropped := [], unread := unread }

/-- A code is queued. -/
def queue (l : KeyLog) (code : Word) : KeyLog :=
  { l with codes := l.codes ++ [code], waiting := l.waiting ++ [(l.codes.length, code)] }

/-- A code is dropped on arrival. -/
def refuse (l : KeyLog) (code : Word) : KeyLog :=
  { l with codes := l.codes ++ [code], dropped := l.dropped ++ [l.codes.length] }

/-- The code that waits longest is delivered as `code`. -/
def deliver (l : KeyLog) (code : Word) : KeyLog :=
  { l with
    delivered := l.delivered ++ (l.waiting.take 1).map fun e => (e.1, code)
    waiting := l.waiting.tail
    unread := true }

/-- The code that waits longest is dropped. -/
def miss (l : KeyLog) : KeyLog :=
  { l with
    waiting := l.waiting.tail
    dropped := l.dropped ++ (l.waiting.take 1).map Prod.fst }

/-- An access of the processor, which reads a code with its low word. -/
def access (l : KeyLog) : ProcessorAccess → KeyLog
  | .readLow => { l with unread := false }
  | _ => l

/-- An access of the processor leaves all but the note of what is read. -/
theorem access_eq (l : KeyLog) (a : ProcessorAccess) :
    l.access a = { l with unread := (l.access a).unread } := by
  cases a <;> rfl

/-- A code counts as unread only while CSR<5> is set, whatever the processor does. -/
theorem unread_access {l : KeyLog} {i : IobKeyboard} (h : l.unread → i.isKeyboardReadySet)
    (a : ProcessorAccess) (hu : (l.access a).unread) : (i.access a).isKeyboardReadySet := by
  cases a with
  | readLow => exact absurd hu Bool.false_ne_true
  | readHigh => exact h hu
  | readCsr => exact h hu
  | writeCsr v => exact (i.isKeyboardReadySet_writeCsr v).symm ▸ h hu

/-- The codes that are not dropped. -/
def kept (l : KeyLog) : List ℕ := (l.delivered ++ l.waiting).map Prod.fst

/-- The codes delivered and waiting are in the order in which they were given, each once,
the codes delivered are those given, and all others were dropped. -/
structure InOrder (l : KeyLog) : Prop where
  inOrder : l.kept.Pairwise (· < ·)
  codes : ∀ e ∈ l.delivered, l.codes[e.1]? = some e.2
  complete : ∀ k < l.codes.length, k ∈ l.kept ∨ k ∈ l.dropped

/-- The order as an invariant. -/
structure Inv (l : KeyLog) : Prop where
  accounted : Lib.Accounted l.codes.length l.kept l.dropped
  codes : ∀ e ∈ l.delivered ++ l.waiting, l.codes[e.1]? = some e.2

variable {l : KeyLog}

theorem Inv.inOrder (h : l.Inv) : l.InOrder where
  inOrder := h.accounted.inOrder
  codes := fun e he => h.codes e (List.mem_append_left _ he)
  complete := h.accounted.complete

theorem inv_start (unread : Bool) : (start unread).Inv :=
  ⟨Lib.accounted_zero, fun _ he => absurd he List.not_mem_nil⟩

theorem Inv.access (h : l.Inv) (a : ProcessorAccess) : (l.access a).Inv := by
  cases a <;> exact ⟨h.accounted, h.codes⟩

/-- A code stays with its number when another one is given. -/
theorem getElem?_concat_of_some {codes : List Word} {k : ℕ} {w : Word} (c : Word)
    (h : codes[k]? = some w) : (codes ++ [c])[k]? = some w := by
  rw [List.getElem?_append_left (List.getElem?_eq_some_iff.mp h).1]
  exact h

theorem Inv.queue (h : l.Inv) (code : Word) : (l.queue code).Inv := by
  constructor
  · have hkept : (l.queue code).kept = l.kept ++ [l.codes.length] := by
      simp [kept, KeyLog.queue]
    rw [hkept, show (l.queue code).codes.length = l.codes.length + 1 from List.length_append]
    exact h.accounted.keep
  · intro e he
    rw [KeyLog.queue, ← List.append_assoc, List.mem_append, List.mem_singleton] at he
    rcases he with he | rfl
    · exact getElem?_concat_of_some code (h.codes e he)
    · exact List.getElem?_concat_length

theorem Inv.refuse (h : l.Inv) (code : Word) : (l.refuse code).Inv := by
  constructor
  · rw [show (l.refuse code).codes.length = l.codes.length + 1 from List.length_append]
    exact h.accounted.refuse
  · exact fun e he => getElem?_concat_of_some code (h.codes e he)

/-- The code delivered has to be the one that waits longest. -/
theorem Inv.deliver (h : l.Inv) {e : ℕ × Word} {rest : List (ℕ × Word)}
    (hw : l.waiting = e :: rest) : (l.deliver e.2).Inv := by
  have hall : (l.deliver e.2).delivered ++ (l.deliver e.2).waiting =
      l.delivered ++ l.waiting := by
    rw [KeyLog.deliver, hw]
    simp
  refine ⟨?_, fun e' he => h.codes e' (hall ▸ he)⟩
  have hkept : (l.deliver e.2).kept = l.kept := by rw [kept, hall, kept]
  rw [hkept]
  exact h.accounted

theorem Inv.miss (h : l.Inv) {e : ℕ × Word} {rest : List (ℕ × Word)}
    (hw : l.waiting = e :: rest) : l.miss.Inv := by
  have haccounted := h.accounted
  have hcodes := h.codes
  rw [kept, hw, List.map_append, List.map_cons] at haccounted
  rw [hw] at hcodes
  constructor
  · rw [kept, KeyLog.miss, hw, List.tail_cons, List.map_append]
    exact haccounted.drop
  · intro e' he
    rw [KeyLog.miss, hw, List.tail_cons] at he
    refine hcodes e' ?_
    rcases List.mem_append.mp he with he | he
    · exact List.mem_append_left _ he
    · exact List.mem_append_right _ (List.mem_cons_of_mem _ he)

end KeyLog

end Usim
