import Usim.Interrupts
import Mathlib.Logic.Function.Basic

/-!
# The event-driven keyboard

The key queue of `kbd.c` and the keyboard registers of `iob.c` as they are
without SDL3. The queue lies in front of the register `kbd_scancode`, which the
processor reads when CSR<5> is set.
-/

namespace Usim

/-- `KEY_QUEUE_LEN`. -/
def keyQueueLen : ℕ := 10

/-- The globals of `kbd.c`, with `iob_csr` and the interrupts. -/
structure Kbd where
  /-- `iob_csr`. -/
  csr : Word
  /-- `kbd_scancode`. -/
  scancode : Word
  interrupts : Interrupts
  /-- `key_queue`. -/
  keyQueue : ℕ → Word
  /-- The cell that the next event goes to. -/
  keyQueueOptr : ℕ
  /-- The cell of the oldest event. -/
  keyQueueIptr : ℕ
  keyQueueFree : ℕ

namespace Kbd

/-- CSR<5>, something is there to be read. -/
def ready (k : Kbd) : Bool := k.csr.getLsbD 5

/-- CSR<2>, the keyboard interrupt is enabled. -/
def interruptEnabled (k : Kbd) : Bool := k.csr.getLsbD 2

/-- Set CSR<5> and interrupt. -/
def interrupt (k : Kbd) : Kbd :=
  { k with csr := k.csr ||| 0o40, interrupts := assertUnibusInterrupt 0o260 k.interrupts }

/-- Put a code in the register, and flag it if the interrupt is enabled. -/
def present (k : Kbd) (scancode : Word) : Kbd :=
  let k := { k with scancode := scancode }
  if k.interruptEnabled then k.interrupt else k

/-- Clear CSR<5>. -/
def clearReady (k : Kbd) : Kbd := { k with csr := k.csr &&& ~~~0o40 }

/-- `kbd_queue_key_event`. -/
def queueKeyEvent (k : Kbd) (ev : Word) : Kbd :=
  let v := 0x10000 ||| ev
  if 0 < k.keyQueueFree then
    { k with
      keyQueueFree := k.keyQueueFree - 1
      keyQueue := Function.update k.keyQueue k.keyQueueOptr v
      keyQueueOptr := (k.keyQueueOptr + 1) % keyQueueLen }
  else if !k.ready && k.interruptEnabled then k.interrupt
  else k

/-- `kbd_dequeue_key_event`. -/
def dequeueKeyEvent (k : Kbd) : Kbd :=
  if k.ready then k
  else if k.keyQueueFree < keyQueueLen then
    let v := k.keyQueue k.keyQueueIptr
    { k with
      keyQueueIptr := (k.keyQueueIptr + 1) % keyQueueLen
      keyQueueFree := k.keyQueueFree + 1 }.present (0x10000 ||| v)
  else k

/-- The code of a key event. -/
def eventCode (code : Word) (keydown : Bool) : Word := (if keydown then 0 else 0o400) ||| code

/-- `kbd_event`. -/
def event (k : Kbd) (code : Word) (keydown : Bool) : Kbd :=
  if k.ready then k.queueKeyEvent (eventCode code keydown)
  else k.present (0x10000 ||| eventCode code keydown)

/-- `iob_unibus_read` of 0764100, the low word of the scan code. -/
def readLow (k : Kbd) : HalfWord × Kbd := (k.scancode.setWidth 16, k.clearReady)

/-- `iob_unibus_read` of 0764102, the high word, which clears CSR<5> too. -/
def readHigh (k : Kbd) : HalfWord × Kbd := ((k.scancode >>> 16).setWidth 16, k.clearReady)

/-- `iob_unibus_read` of 0764112. -/
def readCsr (k : Kbd) : HalfWord × Kbd := (k.csr.setWidth 16, k)

/-- `iob_unibus_write` of 0764112. -/
def writeCsr (k : Kbd) (v : HalfWord) : Kbd :=
  { k with csr := (k.csr &&& ~~~0o17) ||| (v.setWidth 32 &&& 0o17) }

/-- The keyboard when the program starts. -/
def powerOn (interrupts : Interrupts) : Kbd :=
  { csr := 0, scancode := 0, interrupts := interrupts, keyQueue := fun _ => 0, keyQueueOptr := 0
    keyQueueIptr := 0, keyQueueFree := keyQueueLen }

@[simp] theorem ready_interrupt (k : Kbd) : k.interrupt.ready = true := by
  have h : (0o40 : Word).getLsbD 5 = true := by decide
  simp only [ready, interrupt, BitVec.getLsbD_or, h, Bool.or_true]

@[simp] theorem ready_clearReady (k : Kbd) : k.clearReady.ready = false := by
  have h : (0o40 : Word).getLsbD 5 = true := by decide
  simp only [ready, clearReady, BitVec.getLsbD_and, BitVec.getLsbD_not, h, Bool.not_true,
    Bool.and_false]

/-- The low bits of the CSR can be written, and CSR<5> is none of them. -/
@[simp] theorem ready_writeCsr (k : Kbd) (v : HalfWord) : (k.writeCsr v).ready = k.ready := by
  have h : (0o17 : Word).getLsbD 5 = false := by decide
  simp only [ready, writeCsr, BitVec.getLsbD_or, BitVec.getLsbD_and, BitVec.getLsbD_not, h,
    Bool.not_false, Bool.and_false, Bool.or_false]
  simp

/-- Presenting a code changes nothing of the queue. -/
theorem present_queue (k : Kbd) (w : Word) :
    (k.present w).scancode = w ∧ (k.present w).keyQueue = k.keyQueue ∧
      (k.present w).keyQueueOptr = k.keyQueueOptr ∧
      (k.present w).keyQueueIptr = k.keyQueueIptr ∧
      (k.present w).keyQueueFree = k.keyQueueFree := by
  unfold present
  simp only
  split <;> exact ⟨rfl, rfl, rfl, rfl, rfl⟩

/-- A code presented is flagged if the interrupt is enabled. -/
theorem ready_present (k : Kbd) (w : Word) :
    (k.present w).ready = (k.ready || k.interruptEnabled) := by
  unfold present
  simp only
  split
  · rename_i h
    rw [ready_interrupt, show k.interruptEnabled = true from h, Bool.or_true]
  · rename_i h
    rw [show k.interruptEnabled = false from Bool.eq_false_iff.mpr h, Bool.or_false]
    rfl

/-- A key event that finds a code waiting is queued while there is room. -/
theorem event_of_room {k : Kbd} (hr : k.ready) (hfree : 0 < k.keyQueueFree) (code : Word)
    (keydown : Bool) :
    k.event code keydown = { k with
      keyQueueFree := k.keyQueueFree - 1
      keyQueue := Function.update k.keyQueue k.keyQueueOptr
        (0x10000 ||| eventCode code keydown)
      keyQueueOptr := (k.keyQueueOptr + 1) % keyQueueLen } := by
  rw [event, if_pos hr, queueKeyEvent, if_pos hfree]

/-- It is refused when the queue is full. -/
theorem event_of_full {k : Kbd} (hr : k.ready) (hfree : ¬0 < k.keyQueueFree) (code : Word)
    (keydown : Bool) : k.event code keydown = k := by
  rw [event, if_pos hr, queueKeyEvent, if_neg hfree, hr]
  rfl

/-- With no code waiting a key event goes to the register. -/
theorem event_of_not_ready {k : Kbd} (hr : ¬k.ready) (code : Word) (keydown : Bool) :
    k.event code keydown = k.present (0x10000 ||| eventCode code keydown) := by
  rw [event, if_neg hr]

/-- The queue is left alone while a code waits or when it is empty. -/
theorem dequeue_of_idle {k : Kbd} (h : k.ready ∨ k.keyQueueFree = keyQueueLen) :
    k.dequeueKeyEvent = k := by
  unfold dequeueKeyEvent
  by_cases hr : k.ready
  · rw [if_pos hr]
  · rw [if_neg hr, if_neg (h.resolve_left hr).not_lt]

/-- Otherwise its oldest code is put in the register. -/
theorem dequeue_of_not_idle {k : Kbd} (hr : ¬k.ready) (hfree : k.keyQueueFree < keyQueueLen) :
    k.dequeueKeyEvent = { k with
      keyQueueIptr := (k.keyQueueIptr + 1) % keyQueueLen
      keyQueueFree := k.keyQueueFree + 1 }.present (0x10000 ||| k.keyQueue k.keyQueueIptr) := by
  rw [dequeueKeyEvent, if_neg hr, if_pos hfree]

end Kbd

end Usim
