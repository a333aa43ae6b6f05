import Usim.IobKeyboard
import Usim.Lib.RingBuffer
import Usim.Lib.Runs

/-!
# The keyboard thread

The key queue of `sdl3-keyboard.c` and the thread that delivers its codes to the IOB.
Between two steps of the thread the producer may enqueue codes and the processor may
access the registers.
-/

namespace Usim

/-- `QUEUE_CAPACITY`. -/
def queueCapacity : ℕ := 100

/-- A scan code that is not `cadet_scancode_null`. The codes that the source enqueues all
have the header of the new keyboard. -/
abbrev Scancode : Type := { w : Word // w ≠ 0 }

/-- The queue of `sdl3-keyboard.c`. -/
structure Sdl3Queue where
  queue : ℕ → Word
  queueRead : ℕ
  queueWrite : ℕ
  queueNelem : ℕ
  /-- The count of `thread_sem`. -/
  threadSem : ℕ

namespace Sdl3Queue

/-- `sdl3_keyboard_enqueue`. -/
def enqueue (q : Sdl3Queue) (scancode : Word) : Sdl3Queue :=
  if q.queueNelem = queueCapacity then q
  else
    let queueWrite := q.queueWrite + 1
    { q with
      queue := Function.update q.queue q.queueWrite scancode
      queueWrite := if queueWrite = queueCapacity then 0 else queueWrite
      queueNelem := q.queueNelem + 1
      threadSem := q.threadSem + 1 }

/-- `sdl3_keyboard_dequeue`. -/
def dequeue (q : Sdl3Queue) : Word × Sdl3Queue :=
  if 0 < q.queueNelem then
    let queueRead := q.queueRead + 1
    (q.queue q.queueRead,
      { q with
        queueRead := if queueRead = queueCapacity then 0 else queueRead
        queueNelem := q.queueNelem - 1 })
  else (0, q)

/-- The queue when the program starts. -/
def init : Sdl3Queue :=
  { queue := fun _ => 0, queueRead := 0, queueWrite := 0, queueNelem := 0, threadSem := 0 }

/-- An index goes around the ring. -/
theorem wrap_eq_mod {i : ℕ} (h : i < queueCapacity) :
    (if i + 1 = queueCapacity then 0 else i + 1) = (i + 1) % queueCapacity := by
  split
  · rename_i heq
    rw [heq, Nat.mod_self]
  · rename_i hne
    rw [Nat.mod_eq_of_lt (by omega)]

/-- A full queue refuses a code. -/
theorem enqueue_of_full {q : Sdl3Queue} (h : q.queueNelem = queueCapacity) (scancode : Word) :
    q.enqueue scancode = q := by
  rw [enqueue, if_pos h]

/-- Otherwise the code is stored at the write index. -/
theorem enqueue_of_room {q : Sdl3Queue} (h : q.queueNelem ≠ queueCapacity)
    (hw : q.queueWrite < queueCapacity) (scancode : Word) :
    q.enqueue scancode = { q with
      queue := Function.update q.queue q.queueWrite scancode
      queueWrite := (q.queueWrite + 1) % queueCapacity
      queueNelem := q.queueNelem + 1
      threadSem := q.threadSem + 1 } := by
  rw [enqueue, if_neg h, ← wrap_eq_mod hw]

/-- The code at the read index is taken from a queue that is not empty. -/
theorem dequeue_of_pos {q : Sdl3Queue} (h : 0 < q.queueNelem) (hr : q.queueRead < queueCapacity) :
    q.dequeue = (q.queue q.queueRead, { q with
      queueRead := (q.queueRead + 1) % queueCapacity
      queueNelem := q.queueNelem - 1 }) := by
  rw [dequeue, if_pos h, ← wrap_eq_mod hr]

end Sdl3Queue

/-- Where `sdl3_keyboard_thread_run` stands. -/
inductive ThreadState
  /-- Waiting for the semaphore. -/
  | waiting
  /-- About to take a code from the queue. -/
  | woken
  /-- At turn `i` of the loop that waits for the IOB. -/
  | checking (scancode : Word) (i : ℕ)
  /-- After the loop. -/
  | last (scancode : Word)
  /-- About to deliver the code. -/
  | delivering (scancode : Word)

/-- The queue, the thread and the IOB, with the record of the codes. -/
structure Sdl3System where
  queue : Sdl3Queue
  thread : ThreadState
  iob : IobKeyboard
  log : KeyLog
  /-- The IOB has been busy ever since the thread took its code. -/
  busy : Bool
  /-- The milliseconds that the thread has slept since. -/
  slept : ℕ

/-- What happens to the system, other than the end of the program. -/
inductive Sdl3Event
  | enqueue (scancode : Scancode)
  | thread
  | access (a : ProcessorAccess)

namespace Sdl3System

/-- One step of the thread. -/
def threadStep (s : Sdl3System) : Sdl3System :=
  match s.thread with
  | .waiting =>
    if 0 < s.queue.threadSem then
      { s with
        queue := { s.queue with threadSem := s.queue.threadSem - 1 }, thread := .woken }
    else s
  | .woken =>
    let (scancode, queue) := s.queue.dequeue
    { s with
      queue := queue
      thread := if scancode ≠ 0 then .checking scancode 1 else .waiting
      busy := s.iob.isKeyboardReadySet, slept := 0 }
  | .checking scancode i =>
    if i ≤ 8 then
      if !s.iob.isKeyboardReadySet then { s with thread := .last scancode }
      else { s with thread := .checking scancode (i + 1), slept := s.slept + 2 ^ i }
    else { s with thread := .last scancode }
  | .last scancode =>
    if s.iob.isKeyboardReadySet then { s with thread := .waiting, log := s.log.miss }
    else { s with thread := .delivering scancode }
  | .delivering scancode =>
    { s with
      thread := .waiting, iob := s.iob.setKeyboardReady scancode
      log := s.log.deliver scancode }

/-- One event, without the record of the busy time. -/
def act (s : Sdl3System) : Sdl3Event → Sdl3System
  | .enqueue scancode =>
    { s with
      queue := s.queue.enqueue scancode.1
      log := if s.queue.queueNelem = queueCapacity then s.log.refuse scancode.1
        else s.log.queue scancode.1 }
  | .thread => s.threadStep
  | .access a => { s with iob := s.iob.access a, log := s.log.access a }

/-- One event. -/
def next (s : Sdl3System) (e : Sdl3Event) : Sdl3System :=
  { s.act e with busy := (s.act e).busy && (s.act e).iob.isKeyboardReadySet }

/-- One event, as a step of a run. -/
def step (e : Sdl3Event) (s : Sdl3System) : Except Empty Sdl3System := .ok (s.next e)

/-- The system when the thread starts. -/
def start (iob : IobKeyboard) : Sdl3System :=
  { queue := .init, thread := .waiting, iob := iob, log := .start iob.isKeyboardReadySet
    busy := false, slept := 0 }

end Sdl3System

/-- What is known of the back-off of the thread, whether the IOB is ready, whether it has
been busy and how long the thread has slept. -/
def ThreadState.Backoff (ready busy : Bool) (slept : ℕ) : ThreadState → Prop
  | .waiting | .woken => True
  | .checking _ i => 1 ≤ i ∧ i ≤ 9 ∧ (ready → busy) ∧ (ready → slept + 2 = 2 ^ i)
  | .last _ => ready → busy ∧ slept = 510
  | .delivering _ => ¬ready

/-- The processor only makes the IOB free, and a free IOB needs no back-off. -/
theorem ThreadState.Backoff.mono {t : ThreadState} {ready ready' busy : Bool} {slept : ℕ}
    (h : t.Backoff ready busy slept) (hr : ready' → ready) : t.Backoff ready' busy slept := by
  cases t with
  | waiting => trivial
  | woken => trivial
  | checking scancode i =>
    exact ⟨h.1, h.2.1, fun h' => h.2.2.1 (hr h'), fun h' => h.2.2.2 (hr h')⟩
  | last scancode => exact fun h' => h (hr h')
  | delivering scancode => exact fun h' => h (hr h')

/-- The record of the busy time goes on while the IOB is busy. -/
theorem ThreadState.Backoff.settle {t : ThreadState} {ready busy : Bool} {slept : ℕ}
    (h : t.Backoff ready busy slept) : t.Backoff ready (busy && ready) slept := by
  cases ready with
  | true => rwa [Bool.and_true]
  | false => cases t <;> simp_all [Backoff]

/-- The code that the thread has taken. -/
def ThreadState.hand : ThreadState → Option Word
  | .waiting | .woken => none
  | .checking scancode _ | .last scancode | .delivering scancode => some scancode

/-- The number of signals taken for which no code is taken yet. -/
def ThreadState.owed : ThreadState → ℕ
  | .woken => 1
  | _ => 0

namespace Sdl3System

/-- The codes that wait are the one that the thread has taken and those in the ring. -/
structure Holds (s : Sdl3System) (hand queued : List (ℕ × Word)) : Prop where
  waiting : s.log.waiting = hand ++ queued
  hand : hand.map Prod.snd = s.thread.hand.toList
  ring : Lib.RingHolds queueCapacity s.queue.queue s.queue.queueRead (queued.map Prod.snd)
  nelem : s.queue.queueNelem = queued.length
  write : s.queue.queueWrite = (s.queue.queueRead + queued.length) % queueCapacity

/-- The invariant of the system. -/
structure Inv (s : Sdl3System) : Prop where
  log : s.log.Inv
  holds : ∃ hand queued, s.Holds hand queued
  nonzero : ∀ e ∈ s.log.waiting, e.2 ≠ 0
  sem : s.queue.threadSem + s.thread.owed = s.queue.queueNelem
  unread : s.log.unread → s.iob.isKeyboardReadySet
  backoff : s.thread.Backoff s.iob.isKeyboardReadySet s.busy s.slept

variable {s : Sdl3System}

/-- Nothing has been enqueued at the start. -/
theorem inv_start (iob : IobKeyboard) : (start iob).Inv where
  log := KeyLog.inv_start _
  holds := ⟨[], [], rfl, rfl, Lib.ringHolds_nil (Nat.zero_lt_succ 99), rfl, rfl⟩
  nonzero := fun _ he => absurd he List.not_mem_nil
  sem := rfl
  unread := id
  backoff := trivial

/-- A code is put in the ring, or refused. -/
theorem Inv.enqueue (h : s.Inv) (scancode : Scancode) : (s.act (.enqueue scancode)).Inv := by
  obtain ⟨hand, queued, hh⟩ := h.holds
  by_cases hfull : s.queue.queueNelem = queueCapacity
  · have hact : s.act (.enqueue scancode) = { s with log := s.log.refuse scancode.1 } := by
      rw [act, Sdl3Queue.enqueue_of_full hfull, if_pos hfull]
    rw [hact]
    exact { h with
      log := h.log.refuse _
      holds := ⟨hand, queued, { hh with waiting := hh.waiting }⟩ }
  · have hact : s.act (.enqueue scancode) = { s with
        queue := s.queue.enqueue scancode.1, log := s.log.queue scancode.1 } := by
      rw [act, if_neg hfull]
    have hroom : (queued.map Prod.snd).length < queueCapacity :=
      lt_of_le_of_ne hh.ring.length_le (by rw [List.length_map, ← hh.nelem]; exact hfull)
    have hpush := hh.ring.push (a := scancode.1) hroom
    have hwrite : s.queue.queueWrite < queueCapacity :=
      hh.write ▸ Nat.mod_lt _ (by decide)
    rw [List.length_map, ← hh.write] at hpush
    rw [hact, Sdl3Queue.enqueue_of_room hfull hwrite]
    constructor
    case log => exact h.log.queue _
    case holds =>
      refine ⟨hand, queued ++ [(s.log.codes.length, scancode.1)], ?_⟩
      constructor
      case waiting => rw [KeyLog.queue, hh.waiting, List.append_assoc]
      case hand => exact hh.hand
      case ring => rwa [List.map_append]
      case nelem => rw [hh.nelem, List.length_append, List.length_singleton]
      case write =>
        rw [hh.write, Nat.mod_add_mod, List.length_append, List.length_singleton, Nat.add_assoc]
    case nonzero =>
      intro e he
      rcases List.mem_append.mp he with he | he
      · exact h.nonzero e he
      · rw [List.mem_singleton.mp he]
        exact scancode.2
    case sem =>
      have hsem := h.sem
      change s.queue.threadSem + 1 + s.thread.owed = s.queue.queueNelem + 1
      omega
    case unread => exact h.unread
    case backoff => exact h.backoff

/-- The processor accesses a register. -/
theorem Inv.access (h : s.Inv) (a : ProcessorAccess) : (s.act (.access a)).Inv := by
  obtain ⟨hand, queued, hh⟩ := h.holds
  have hwaiting : (s.log.access a).waiting = s.log.waiting := by cases a <;> rfl
  constructor
  case log => exact h.log.access a
  case holds => exact ⟨hand, queued, { hh with waiting := hwaiting.trans hh.waiting }⟩
  case nonzero => exact hwaiting ▸ h.nonzero
  case sem => exact h.sem
  case unread => exact KeyLog.unread_access h.unread a
  case backoff => exact h.backoff.mono IobKeyboard.ready_of_access

/-- The code that the thread has taken waits longest. -/
theorem Holds.hand_eq {hand queued : List (ℕ × Word)} (hh : s.Holds hand queued)
    {scancode : Word} (ht : s.thread.hand = some scancode) :
    ∃ k, s.log.waiting = (k, scancode) :: queued := by
  have hhand := hh.hand
  rw [ht, Option.toList_some] at hhand
  obtain ⟨e, rfl, he⟩ := List.map_eq_singleton_iff.mp hhand
  exact ⟨e.1, by rw [hh.waiting, ← he]; rfl⟩

/-- The thread moves on with the code that it has. -/
theorem Inv.advance (h : s.Inv) {t : ThreadState} {slept : ℕ} (hhand : t.hand = s.thread.hand)
    (howed : t.owed = s.thread.owed)
    (hb : t.Backoff s.iob.isKeyboardReadySet s.busy slept) :
    Inv { s with thread := t, slept := slept } where
  log := h.log
  holds := h.holds.imp fun _ => .imp fun _ hh => { hh with hand := hhand ▸ hh.hand }
  nonzero := h.nonzero
  sem := howed ▸ h.sem
  unread := h.unread
  backoff := hb

/-- The thread takes the oldest code. -/
theorem Inv.take (h : s.Inv) (ht : s.thread = .woken) : s.threadStep.Inv := by
  obtain ⟨hand, queued, hh⟩ := h.holds
  have hsem := h.sem
  have hhand := hh.hand
  rw [ht, ThreadState.owed] at hsem
  rw [ht, ThreadState.hand, Option.toList_none, List.map_eq_nil_iff] at hhand
  have hpos : 0 < queued.length := by
    rw [← hh.nelem]
    omega
  obtain ⟨e, rest, rfl⟩ := List.exists_cons_of_length_pos hpos
  have hwaiting : s.log.waiting = e :: rest := by rw [hh.waiting, hhand, List.nil_append]
  have hring := hh.ring
  rw [List.map_cons] at hring
  have hne : e.2 ≠ 0 := h.nonzero e (by rw [hwaiting]; exact List.mem_cons_self)
  have hstep : s.threadStep = { s with
      queue := { s.queue with
        queueRead := (s.queue.queueRead + 1) % queueCapacity
        queueNelem := s.queue.queueNelem - 1 }
      thread := .checking e.2 1
      busy := s.iob.isKeyboardReadySet, slept := 0 } := by
    rw [Sdl3System.threadStep, ht]
    simp only [Sdl3Queue.dequeue_of_pos (hh.nelem ▸ hpos) hring.read_lt, hring.head, if_pos hne]
  have hnelem := hh.nelem
  rw [List.length_cons] at hnelem
  rw [hstep]
  constructor
  case log => exact h.log
  case holds =>
    refine ⟨[e], rest, ⟨hwaiting, rfl, hring.pop, ?_, ?_⟩⟩
    · change s.queue.queueNelem - 1 = rest.length
      omega
    · change s.queue.queueWrite = ((s.queue.queueRead + 1) % queueCapacity + rest.length) % _
      rw [hh.write, Nat.mod_add_mod, List.length_cons, Nat.add_assoc, Nat.add_comm 1]
  case nonzero => exact h.nonzero
  case sem =>
    change s.queue.threadSem + 0 = s.queue.queueNelem - 1
    omega
  case unread => exact h.unread
  case backoff => exact ⟨Nat.le_refl 1, by omega, id, fun _ => rfl⟩

/-- The thread has done with its code, which is delivered or dropped. -/
theorem Inv.finish (h : s.Inv) {scancode : Word} (hhand : s.thread.hand = some scancode)
    (howed : s.thread.owed = 0) {log : KeyLog} {iob : IobKeyboard} (hlog : log.Inv)
    (hw : log.waiting = s.log.waiting.tail) (hu : log.unread → iob.isKeyboardReadySet) :
    Inv { s with thread := .waiting, log := log, iob := iob } := by
  obtain ⟨hand, queued, hh⟩ := h.holds
  obtain ⟨k, hwaiting⟩ := hh.hand_eq hhand
  have hsem := h.sem
  rw [howed] at hsem
  rw [hwaiting, List.tail_cons] at hw
  constructor
  case log => exact hlog
  case holds => exact ⟨[], queued, { hh with waiting := hw, hand := rfl }⟩
  case nonzero =>
    intro e he
    refine h.nonzero e ?_
    rw [hwaiting]
    exact List.mem_cons_of_mem _ (hw ▸ he)
  case sem => exact hsem
  case unread => exact hu
  case backoff => trivial

/-- The thread takes a step. -/
theorem Inv.threadStep (h : s.Inv) : s.threadStep.Inv := by
  have hsem := h.sem
  have hbackoff := h.backoff
  cases ht : s.thread with
  | waiting =>
    rw [Sdl3System.threadStep, ht]
    rw [ht] at hsem
    change s.queue.threadSem + 0 = s.queue.queueNelem at hsem
    by_cases hpos : 0 < s.queue.threadSem
    · simp only [if_pos hpos]
      obtain ⟨hand, queued, hh⟩ := h.holds
      have hhand := hh.hand
      rw [ht] at hhand
      refine { h with
        holds := ⟨hand, queued, { hh with hand := hhand }⟩, sem := ?_, backoff := trivial }
      change s.queue.threadSem - 1 + 1 = s.queue.queueNelem
      omega
    · simp only [if_neg hpos]
      exact h
  | woken => exact h.take ht
  | checking scancode i =>
    rw [ht] at hbackoff
    obtain ⟨hone, hnine, hbusy, hslept⟩ := hbackoff
    rw [Sdl3System.threadStep, ht]
    by_cases hi : i ≤ 8
    · cases hr : s.iob.isKeyboardReadySet with
      | false =>
        simp only [if_pos hi, Bool.not_false, if_true]
        exact h.advance (by rw [ht]; rfl) (by rw [ht]; rfl) fun hr' => absurd hr' (by simp [hr])
      | true =>
        simp only [if_pos hi, Bool.not_true, Bool.false_eq_true, if_false]
        refine h.advance (by rw [ht]; rfl) (by rw [ht]; rfl)
          ⟨by omega, by omega, hbusy, fun _ => ?_⟩
        have := hslept hr
        rw [Nat.pow_succ]
        omega
    · have hi' : i = 9 := by omega
      simp only [if_neg hi]
      refine h.advance (by rw [ht]; rfl) (by rw [ht]; rfl) fun hr => ⟨hbusy hr, ?_⟩
      have := hslept hr
      rw [hi'] at this
      omega
  | last scancode =>
    rw [Sdl3System.threadStep, ht]
    cases hr : s.iob.isKeyboardReadySet with
    | true =>
      obtain ⟨hand, queued, hh⟩ := h.holds
      obtain ⟨k, hwaiting⟩ := hh.hand_eq (by rw [ht]; rfl)
      simp only [if_true]
      exact h.finish (by rw [ht]; rfl) (by rw [ht]; rfl) (h.log.miss hwaiting) rfl h.unread
    | false =>
      simp only [Bool.false_eq_true, if_false]
      exact h.advance (by rw [ht]; rfl) (by rw [ht]; rfl) (by rw [hr]; exact Bool.false_ne_true)
  | delivering scancode =>
    rw [Sdl3System.threadStep, ht]
    obtain ⟨hand, queued, hh⟩ := h.holds
    obtain ⟨k, hwaiting⟩ := hh.hand_eq (by rw [ht]; rfl)
    exact h.finish (by rw [ht]; rfl) (by rw [ht]; rfl) (h.log.deliver hwaiting) rfl
      fun _ => IobKeyboard.isKeyboardReadySet_setKeyboardReady _ _

/-- The record of the busy time. -/
theorem Inv.settle (h : s.Inv) :
    Inv { s with busy := s.busy && s.iob.isKeyboardReadySet } :=
  { h with backoff := h.backoff.settle, holds := h.holds.imp fun _ => .imp fun _ hh => { hh with } }

/-- The invariant holds after every event. -/
theorem Inv.next (h : s.Inv) (e : Sdl3Event) : (s.next e).Inv := by
  cases e with
  | enqueue scancode => exact (h.enqueue scancode).settle
  | thread => exact h.threadStep.settle
  | access a => exact (h.access a).settle

end Sdl3System

end Usim
