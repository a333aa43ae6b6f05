import Usim.Kbd
import Usim.Lib.Accounting
import Usim.Lib.RingBuffer
import Usim.Lib.Runs

/-!
# The order of key events

Key events are numbered in order of occurrence. The state records which event is
where: in the key queue, in the scan code register, or obtained by the processor,
which reads the low word of the register while CSR<5> is set.
-/

namespace Usim

/-- What happens to the keyboard. -/
inductive KeyEvent
  /-- `kbd_event`. -/
  | key (code : Word) (keydown : Bool)
  /-- `kbd_dequeue_key_event`. -/
  | dequeue
  | readLow
  | readHigh
  | readCsr
  | writeCsr (v : HalfWord)

/-- The low word of a scan code. -/
def lowWord (w : Word) : HalfWord := w.setWidth 16

/-- The keyboard, with the number and the code of each event that it holds. -/
structure KeyFifo where
  kbd : Kbd
  /-- The codes of the events so far. -/
  codes : List HalfWord
  /-- The events that came when the queue was full. -/
  full : List ℕ
  /-- The events in the queue. -/
  queued : List (ℕ × HalfWord)
  /-- The event whose code is in the register. -/
  register : Option (ℕ × HalfWord)
  /-- The events obtained, with what was read of them. -/
  obtained : List (ℕ × HalfWord)

namespace KeyFifo

/-- Nothing has happened yet. -/
def start (interrupts : Interrupts) : KeyFifo :=
  { kbd := .powerOn interrupts, codes := [], full := [], queued := [], register := none
    obtained := [] }

/-- One event. -/
def next (s : KeyFifo) : KeyEvent → KeyFifo
  | .key code keydown =>
    let event := (s.codes.length, lowWord (Kbd.eventCode code keydown))
    { s with
      kbd := s.kbd.event code keydown
      codes := s.codes ++ [event.2]
      full := if s.kbd.keyQueueFree = 0 then s.full ++ [event.1] else s.full
      queued := if s.kbd.ready ∧ 0 < s.kbd.keyQueueFree then s.queued ++ [event] else s.queued
      register := if s.kbd.ready then s.register else some event }
  | .dequeue =>
    { s with
      kbd := s.kbd.dequeueKeyEvent
      queued := if s.kbd.ready then s.queued else s.queued.tail
      register := if s.kbd.ready then s.register else s.queued.head?.or s.register }
  | .readLow =>
    { s with
      kbd := s.kbd.readLow.2
      obtained := if s.kbd.ready then
          s.obtained ++ s.register.toList.map fun event => (event.1, s.kbd.readLow.1)
        else s.obtained }
  | .readHigh => { s with kbd := s.kbd.readHigh.2 }
  | .readCsr => { s with kbd := s.kbd.readCsr.2 }
  | .writeCsr v => { s with kbd := s.kbd.writeCsr v }

/-- One event, as a step of a run. -/
def step (e : KeyEvent) (s : KeyFifo) : Except Empty KeyFifo := .ok (s.next e)

/-- The events that the processor can still obtain. -/
def pending (s : KeyFifo) : List (ℕ × HalfWord) :=
  (if s.kbd.ready then s.register.toList else []) ++ s.queued

/-- The events that are not lost. -/
def kept (s : KeyFifo) : List ℕ := s.obtained.map Prod.fst ++ s.pending.map Prod.fst

/-- The processor obtains the codes of the events in their order, each once, and only
those that found the queue full are lost. -/
structure FirstInFirstOut (s : KeyFifo) : Prop where
  inOrder : s.kept.Pairwise (· < ·)
  complete : ∀ k < s.codes.length, k ∈ s.kept ∨ k ∈ s.full
  codes : ∀ event ∈ s.obtained, s.codes[event.1]? = some event.2
  free : s.kbd.keyQueueFree + s.queued.length = keyQueueLen

/-- A key event comes while CSR<5> is set, or finds the interrupt enabled and the queue
empty, or the interrupt disabled and the queue full; a code is taken from the queue only
with the interrupt enabled; and the high word is not read while CSR<5> is set. -/
def Orderly : KeyEvent → KeyFifo → Prop
  | .key _ _, s => s.kbd.ready ∨ (s.kbd.interruptEnabled ∧ s.kbd.keyQueueFree = keyQueueLen) ∨
      (¬s.kbd.interruptEnabled ∧ s.kbd.keyQueueFree = 0)
  | .dequeue, s => s.kbd.ready ∨ s.kbd.keyQueueFree = keyQueueLen ∨ s.kbd.interruptEnabled
  | .readHigh, s => ¬s.kbd.ready
  | _, _ => True

/-- The recorded events are those in the queue and in the register. -/
structure Tracks (s : KeyFifo) : Prop where
  ring : Lib.RingHolds keyQueueLen (lowWord ∘ s.kbd.keyQueue) s.kbd.keyQueueIptr
    (s.queued.map Prod.snd)
  optr : s.kbd.keyQueueOptr = (s.kbd.keyQueueIptr + s.queued.length) % keyQueueLen
  free : s.kbd.keyQueueFree + s.queued.length = keyQueueLen
  register : ∀ event, s.register = some event → lowWord s.kbd.scancode = event.2
  ready : s.kbd.ready → s.register.isSome
  codes : ∀ event ∈ s.obtained ++ s.register.toList ++ s.queued,
    s.codes[event.1]? = some event.2

/-- The mark above a code does not show in its low word. -/
theorem lowWord_mark (w : Word) : lowWord (0x10000 ||| w) = lowWord w := by
  rw [lowWord, BitVec.setWidth_or]
  exact BitVec.zero_or

variable {s : KeyFifo}

/-- A code stays with its event when another event occurs. -/
theorem getElem?_append_of_some {codes : List HalfWord} {k : ℕ} {w : HalfWord} (c : HalfWord)
    (h : codes[k]? = some w) : (codes ++ [c])[k]? = some w := by
  rw [List.getElem?_append_left (List.getElem?_eq_some_iff.mp h).1]
  exact h

/-- At the start nothing is recorded. -/
theorem tracks_start (interrupts : Interrupts) : Tracks (start interrupts) where
  ring := Lib.ringHolds_nil (Nat.zero_lt_succ 9)
  optr := rfl
  free := rfl
  register := fun _ h => nomatch h
  ready := fun h => absurd h (by simp [start, Kbd.powerOn, Kbd.ready])
  codes := fun _ h => nomatch h

/-- An empty queue has all cells free. -/
theorem Tracks.queued_eq_nil_iff (ht : Tracks s) :
    s.queued = [] ↔ s.kbd.keyQueueFree = keyQueueLen := by
  rw [← List.length_eq_zero_iff, ← ht.free]
  omega

/-- The event that a key event makes. -/
def newEvent (s : KeyFifo) (code : Word) (keydown : Bool) : ℕ × HalfWord :=
  (s.codes.length, lowWord (Kbd.eventCode code keydown))

/-- A key event is queued. -/
theorem next_key_of_room (hr : s.kbd.ready) (hfree : 0 < s.kbd.keyQueueFree) (code : Word)
    (keydown : Bool) :
    s.next (.key code keydown) = { s with
      kbd := s.kbd.event code keydown
      codes := s.codes ++ [(s.newEvent code keydown).2]
      queued := s.queued ++ [s.newEvent code keydown] } := by
  simp only [next, if_pos hr, if_neg hfree.ne', if_pos (And.intro hr hfree), newEvent]

/-- A key event is refused. -/
theorem next_key_of_full (hr : s.kbd.ready) (hfree : ¬0 < s.kbd.keyQueueFree) (code : Word)
    (keydown : Bool) :
    s.next (.key code keydown) = { s with
      codes := s.codes ++ [(s.newEvent code keydown).2]
      full := s.full ++ [s.codes.length] } := by
  simp only [next, Kbd.event_of_full hr hfree, if_pos hr, if_pos (Nat.eq_zero_of_not_pos hfree),
    hfree, and_false, if_false, newEvent]

/-- A key event is put in the register. -/
theorem next_key_of_not_ready (hr : ¬s.kbd.ready) (code : Word) (keydown : Bool) :
    s.next (.key code keydown) = { s with
      kbd := s.kbd.present (0x10000 ||| Kbd.eventCode code keydown)
      codes := s.codes ++ [(s.newEvent code keydown).2]
      full := if s.kbd.keyQueueFree = 0 then s.full ++ [s.codes.length] else s.full
      register := some (s.newEvent code keydown) } := by
  have hnot : ¬(s.kbd.ready ∧ 0 < s.kbd.keyQueueFree) := fun h => hr h.1
  simp only [next, Kbd.event_of_not_ready hr, if_neg hr, if_neg hnot, newEvent]

/-- The recorded events stay right after a key event. -/
theorem Tracks.next_key (ht : Tracks s) (code : Word) (keydown : Bool) :
    Tracks (s.next (.key code keydown)) := by
  have hcodes : ∀ event ∈ s.obtained ++ s.register.toList ++ s.queued,
      (s.codes ++ [(s.newEvent code keydown).2])[event.1]? = some event.2 :=
    fun event he => getElem?_append_of_some _ (ht.codes event he)
  have hnew : (s.codes ++ [(s.newEvent code keydown).2])[(s.newEvent code keydown).1]? =
      some (s.newEvent code keydown).2 := List.getElem?_concat_length
  by_cases hr : s.kbd.ready
  · by_cases hfree : 0 < s.kbd.keyQueueFree
    · have hlen := ht.free
      have hroom : (s.queued.map Prod.snd).length < keyQueueLen := by
        rw [List.length_map]
        omega
      have hpush := ht.ring.push (a := (s.newEvent code keydown).2) hroom
      rw [List.length_map, ← ht.optr, newEvent, ← lowWord_mark,
        ← Function.comp_update] at hpush
      rw [next_key_of_room hr hfree, Kbd.event_of_room hr hfree]
      constructor
      case ring => rwa [List.map_append, newEvent, ← lowWord_mark]
      case optr => simp only [ht.optr, Nat.mod_add_mod, List.length_append, List.length_singleton,
        Nat.add_assoc]
      case free =>
        simp only [List.length_append, List.length_singleton]
        omega
      case register => exact ht.register
      case ready => exact ht.ready
      case codes =>
        intro event he
        rw [← List.append_assoc, List.mem_append, List.mem_singleton] at he
        rcases he with he | rfl
        · exact hcodes event he
        · exact hnew
    · rw [next_key_of_full hr hfree]
      exact { ht with codes := hcodes }
  · rw [next_key_of_not_ready hr]
    obtain ⟨hscan, hqueue, hoptr, hiptr, hfree⟩ :=
      s.kbd.present_queue (0x10000 ||| Kbd.eventCode code keydown)
    constructor
    case ring => rw [hqueue, hiptr]; exact ht.ring
    case optr => rw [hoptr, hiptr]; exact ht.optr
    case free => rw [hfree]; exact ht.free
    case register =>
      rintro event ⟨⟩
      rw [hscan, lowWord_mark, newEvent]
    case ready => exact fun _ => rfl
    case codes =>
      intro event he
      simp only [Option.toList_some, List.mem_append, List.mem_singleton] at he
      rcases he with (he | rfl) | he
      · exact hcodes event (by simp [he])
      · exact hnew
      · exact hcodes event (by simp [he])

/-- Nothing is taken from the queue while a code waits, nor from an empty one. -/
theorem Tracks.next_dequeue_of_idle (ht : Tracks s) (h : s.kbd.ready ∨ s.queued = []) :
    s.next .dequeue = s := by
  have hidle : s.kbd.ready ∨ s.kbd.keyQueueFree = keyQueueLen :=
    h.imp_right ht.queued_eq_nil_iff.mp
  rw [next, Kbd.dequeue_of_idle hidle]
  rcases h with hr | hq
  · rw [if_pos hr, if_pos hr]
  · rw [hq, List.tail_nil, List.head?_nil, Option.none_or, ite_self, ite_self, ← hq]

/-- The oldest event of the queue is put in the register. -/
theorem Tracks.next_dequeue_cons (ht : Tracks s) (hr : ¬s.kbd.ready) {q : ℕ × HalfWord}
    {qs : List (ℕ × HalfWord)} (hq : s.queued = q :: qs) :
    s.next .dequeue = { s with
      kbd := { s.kbd with
        keyQueueIptr := (s.kbd.keyQueueIptr + 1) % keyQueueLen
        keyQueueFree := s.kbd.keyQueueFree + 1 }.present
          (0x10000 ||| s.kbd.keyQueue s.kbd.keyQueueIptr)
      queued := qs
      register := some q } := by
  have hlen := ht.free
  rw [hq, List.length_cons] at hlen
  have hfree : s.kbd.keyQueueFree < keyQueueLen := by omega
  rw [next, Kbd.dequeue_of_not_idle hr hfree, if_neg hr, if_neg hr, hq]
  rfl

/-- The recorded events stay right when the next code is taken from the queue. -/
theorem Tracks.next_dequeue (ht : Tracks s) : Tracks (s.next .dequeue) := by
  by_cases hr : s.kbd.ready
  · rw [ht.next_dequeue_of_idle (.inl hr)]
    exact ht
  · cases hq : s.queued with
    | nil =>
      rw [ht.next_dequeue_of_idle (.inr hq)]
      exact ht
    | cons q qs =>
      rw [ht.next_dequeue_cons hr hq]
      obtain ⟨hscan, hqueue, hoptr, hiptr, hfree⟩ := Kbd.present_queue { s.kbd with
        keyQueueIptr := (s.kbd.keyQueueIptr + 1) % keyQueueLen
        keyQueueFree := s.kbd.keyQueueFree + 1 } (0x10000 ||| s.kbd.keyQueue s.kbd.keyQueueIptr)
      have hring := ht.ring
      have hlen := ht.free
      rw [hq, List.map_cons] at hring
      rw [hq, List.length_cons] at hlen
      constructor
      case ring => rw [hqueue, hiptr]; exact hring.pop
      case optr =>
        rw [hoptr, hiptr, ht.optr, hq, List.length_cons, Nat.mod_add_mod, Nat.add_assoc,
          Nat.add_comm 1]
      case free =>
        rw [hfree]
        change s.kbd.keyQueueFree + 1 + qs.length = keyQueueLen
        omega
      case register =>
        rintro event ⟨⟩
        rw [hscan, lowWord_mark]
        exact hring.head
      case ready => exact fun _ => rfl
      case codes =>
        intro event he
        simp only [Option.toList_some, List.mem_append, List.mem_singleton] at he
        refine ht.codes event ?_
        rw [hq]
        rcases he with (he | rfl) | he <;> simp [*]

/-- Reading the low word while CSR<5> is set obtains the event in the register. -/
theorem Tracks.next_readLow_ready (ht : Tracks s) (hr : s.kbd.ready) :
    ∃ event, s.register = some event ∧
      s.next .readLow =
        { s with kbd := s.kbd.clearReady, obtained := s.obtained ++ [event] } := by
  obtain ⟨event, he⟩ := Option.isSome_iff_exists.mp (ht.ready hr)
  refine ⟨event, he, ?_⟩
  have hread : s.kbd.readLow.1 = event.2 := ht.register event he
  rw [next, if_pos hr, he, Option.toList_some, List.map_singleton, hread]
  rfl

/-- Otherwise it obtains nothing. -/
theorem next_readLow_not_ready (hr : ¬s.kbd.ready) :
    s.next .readLow = { s with kbd := s.kbd.clearReady } := by
  rw [next, if_neg hr]
  rfl

/-- Clearing CSR<5> keeps the records. -/
theorem Tracks.clearReady (ht : Tracks s) : Tracks { s with kbd := s.kbd.clearReady } :=
  { ht with ready := fun h => absurd h (by simp) }

/-- The recorded events are right after every event. -/
theorem Tracks.next (ht : Tracks s) (e : KeyEvent) : Tracks (s.next e) := by
  cases e with
  | key code keydown => exact ht.next_key code keydown
  | dequeue => exact ht.next_dequeue
  | readLow =>
    by_cases hr : s.kbd.ready
    · obtain ⟨event, he, hnext⟩ := ht.next_readLow_ready hr
      rw [hnext]
      refine { ht.clearReady with codes := fun event' he' => ht.codes event' ?_ }
      simp only [List.mem_append, List.mem_singleton] at he' ⊢
      rcases he' with ((he' | rfl) | he') | he'
      · exact .inl (.inl he')
      · exact .inl (.inr (by rw [he]; exact List.mem_singleton_self _))
      · exact .inl (.inr he')
      · exact .inr he'
    · rw [next_readLow_not_ready hr]
      exact ht.clearReady
  | readHigh => exact ht.clearReady
  | readCsr => exact ht
  | writeCsr v => exact { ht with ready := fun h => ht.ready (Kbd.ready_writeCsr s.kbd v ▸ h) }

/-- The recorded events are those held, and every event is kept or found the queue full. -/
structure Inv (s : KeyFifo) : Prop extends Tracks s where
  accounted : Lib.Accounted s.codes.length s.kept s.full

/-- The invariant implies the order of the events. -/
theorem Inv.firstInFirstOut (h : Inv s) : FirstInFirstOut s where
  inOrder := h.accounted.inOrder
  complete := h.accounted.complete
  codes := fun event he => h.codes event (by simp [he])
  free := h.free

/-- Nothing is there at the start. -/
theorem inv_start (interrupts : Interrupts) : Inv (start interrupts) :=
  { tracks_start interrupts with
    accounted := by
      have hkept : (start interrupts).kept = [] := by
        simp [kept, pending, start, Kbd.powerOn, Kbd.ready]
      rw [hkept]
      exact Lib.accounted_zero }

/-- What is kept while a code waits in the register. -/
theorem Tracks.kept_of_ready (ht : Tracks s) (hr : s.kbd.ready) :
    ∃ event, s.register = some event ∧
      s.kept = s.obtained.map Prod.fst ++ event.1 :: s.queued.map Prod.fst := by
  obtain ⟨event, he⟩ := Option.isSome_iff_exists.mp (ht.ready hr)
  exact ⟨event, he, by rw [kept, pending, if_pos hr, he]; rfl⟩

/-- What is kept while no code waits. -/
theorem kept_of_not_ready (hr : ¬s.kbd.ready) :
    s.kept = s.obtained.map Prod.fst ++ s.queued.map Prod.fst := by
  rw [kept, pending, if_neg hr, List.nil_append]

/-- A key event that is queued is kept behind all others. -/
theorem kept_key_of_room (hr : s.kbd.ready) (hfree : 0 < s.kbd.keyQueueFree) (code : Word)
    (keydown : Bool) :
    (s.next (.key code keydown)).kept = s.kept ++ [s.codes.length] := by
  rw [next_key_of_room hr hfree, Kbd.event_of_room hr hfree]
  simp only [kept, pending, newEvent, List.map_append, List.append_assoc]
  rfl

/-- A key event that goes to the register is kept before those queued, if it is flagged. -/
theorem kept_key_of_not_ready (hr : ¬s.kbd.ready) (code : Word) (keydown : Bool) :
    (s.next (.key code keydown)).kept = s.obtained.map Prod.fst ++
      ((if s.kbd.interruptEnabled then [s.codes.length] else []) ++ s.queued.map Prod.fst) := by
  rw [next_key_of_not_ready hr, kept, pending, Kbd.ready_present, Bool.eq_false_iff.mpr hr,
    Bool.false_or, List.map_append]
  by_cases hen : s.kbd.interruptEnabled
  · rw [if_pos hen, if_pos hen]
    rfl
  · rw [if_neg hen, if_neg hen]
    rfl

/-- The oldest event of the queue is kept in the register, if it is flagged. -/
theorem Tracks.kept_dequeue_cons (ht : Tracks s) (hr : ¬s.kbd.ready) {q : ℕ × HalfWord}
    {qs : List (ℕ × HalfWord)} (hq : s.queued = q :: qs) :
    (s.next .dequeue).kept = s.obtained.map Prod.fst ++
      ((if s.kbd.interruptEnabled then [q.1] else []) ++ qs.map Prod.fst) := by
  have hready : (s.next .dequeue).kbd.ready = s.kbd.interruptEnabled := by
    rw [ht.next_dequeue_cons hr hq]
    refine (Kbd.ready_present _ _).trans ?_
    change (s.kbd.ready || s.kbd.interruptEnabled) = s.kbd.interruptEnabled
    rw [Bool.eq_false_iff.mpr hr, Bool.false_or]
  rw [kept, pending, hready, ht.next_dequeue_cons hr hq, List.map_append]
  by_cases hen : s.kbd.interruptEnabled
  · rw [if_pos hen, if_pos hen]
    rfl
  · rw [if_neg hen, if_neg hen]
    rfl

/-- Clearing CSR<5> leaves what is obtained and queued. -/
theorem kept_clearReady (obtained : List (ℕ × HalfWord)) :
    kept { s with kbd := s.kbd.clearReady, obtained := obtained } =
      obtained.map Prod.fst ++ s.queued.map Prod.fst := by
  rw [kept, pending, if_neg (by simp), List.nil_append]

/-- What an event leaves of those kept and refused, if it is orderly. -/
theorem Inv.next (h : Inv s) {e : KeyEvent} (he : Orderly e s) : Inv (s.next e) := by
  refine { h.toTracks.next e with accounted := ?_ }
  cases e with
  | key code keydown =>
    have hlen : (s.next (.key code keydown)).codes.length = s.codes.length + 1 :=
      List.length_append
    rw [hlen]
    by_cases hr : s.kbd.ready
    · by_cases hfree : 0 < s.kbd.keyQueueFree
      · rw [kept_key_of_room hr hfree, next_key_of_room hr hfree]
        exact h.accounted.keep
      · rw [next_key_of_full hr hfree]
        exact h.accounted.refuse
    · rw [kept_key_of_not_ready hr, next_key_of_not_ready hr]
      have haccounted := h.accounted
      rw [kept_of_not_ready hr] at haccounted
      rcases he.resolve_left hr with ⟨hen, hfree⟩ | ⟨hen, hfree⟩
      · have hne : s.kbd.keyQueueFree ≠ 0 := by rw [hfree]; decide
        rw [h.queued_eq_nil_iff.mpr hfree, List.map_nil, List.append_nil] at haccounted ⊢
        rw [if_pos hen, if_neg hne]
        exact haccounted.keep
      · rw [if_neg hen, if_pos hfree, List.nil_append]
        exact haccounted.refuse
  | dequeue =>
    by_cases hidle : s.kbd.ready ∨ s.queued = []
    · rw [h.next_dequeue_of_idle hidle]
      exact h.accounted
    · obtain ⟨hr, hne⟩ := not_or.mp hidle
      obtain ⟨q, qs, hq⟩ := List.exists_cons_of_ne_nil hne
      have hen : s.kbd.interruptEnabled :=
        (he.resolve_left hr).resolve_left (h.queued_eq_nil_iff.not.mp hne)
      have haccounted := h.accounted
      rw [kept_of_not_ready hr, hq] at haccounted
      rw [h.kept_dequeue_cons hr hq, if_pos hen, h.next_dequeue_cons hr hq]
      exact haccounted
  | readLow =>
    by_cases hr : s.kbd.ready
    · obtain ⟨event, hreg, hnext⟩ := h.next_readLow_ready hr
      obtain ⟨event', hreg', hkept⟩ := h.kept_of_ready hr
      obtain rfl : event = event' := Option.some.inj (hreg.symm.trans hreg')
      have haccounted := h.accounted
      rw [hkept, List.append_cons] at haccounted
      rw [hnext, kept_clearReady, List.map_append]
      exact haccounted
    · rw [next_readLow_not_ready hr, kept_clearReady s.obtained, ← kept_of_not_ready hr]
      exact h.accounted
  | readHigh =>
    have hnext : (s.next .readHigh).kept = s.kept :=
      (kept_clearReady s.obtained).trans (kept_of_not_ready he).symm
    rw [hnext]
    exact h.accounted
  | readCsr => exact h.accounted
  | writeCsr v =>
    have hnext : (s.next (.writeCsr v)).kept = s.kept := by
      rw [kept, kept, pending, pending, KeyFifo.next, Kbd.ready_writeCsr]
    rw [hnext]
    exact h.accounted

/-- An event that is not orderly loses an event or lets one overtake another. -/
theorem Inv.orderly (h : Inv s) {e : KeyEvent} (he : FirstInFirstOut (s.next e)) :
    Orderly e s := by
  cases e with
  | key code keydown =>
    by_contra hnot
    rw [Orderly, not_or, not_or] at hnot
    obtain ⟨hr, hempty, hfull⟩ := hnot
    have hkept := kept_key_of_not_ready hr code keydown
    have haccounted := h.accounted
    rw [kept_of_not_ready hr] at haccounted
    by_cases hen : s.kbd.interruptEnabled
    · -- the event overtakes one in the queue
      have hne : s.queued ≠ [] := fun hq => hempty ⟨hen, h.queued_eq_nil_iff.mp hq⟩
      obtain ⟨q, qs, hq⟩ := List.exists_cons_of_ne_nil hne
      have horder := he.inOrder
      rw [hkept, if_pos hen, hq] at horder
      rw [hq] at haccounted
      have hlt : s.codes.length < q.1 :=
        List.rel_of_pairwise_cons (List.pairwise_append.mp horder).2.1 List.mem_cons_self
      exact Nat.lt_asymm hlt (haccounted.kept_lt q.1 (by simp))
    · -- the event is neither flagged nor queued
      have hfree : s.kbd.keyQueueFree ≠ 0 := fun hfree => hfull ⟨hen, hfree⟩
      have hlen : s.codes.length < (s.next (.key code keydown)).codes.length := by
        rw [KeyFifo.next, List.length_append]
        exact Nat.lt_succ_self _
      have hcomplete := he.complete s.codes.length hlen
      rw [hkept, if_neg hen, List.nil_append, next_key_of_not_ready hr, if_neg hfree] at hcomplete
      rcases hcomplete with hmem | hmem
      · exact Nat.lt_irrefl _ (haccounted.kept_lt _ hmem)
      · exact Nat.lt_irrefl _ (haccounted.lost_lt _ hmem)
  | dequeue =>
    by_contra hnot
    rw [Orderly, not_or, not_or] at hnot
    obtain ⟨hr, hempty, hen⟩ := hnot
    obtain ⟨q, qs, hq⟩ :=
      List.exists_cons_of_ne_nil fun hq => hempty (h.queued_eq_nil_iff.mp hq)
    have haccounted := h.accounted
    rw [kept_of_not_ready hr, hq, List.map_cons] at haccounted
    have hcomplete := he.complete
    rw [h.kept_dequeue_cons hr hq, if_neg hen, List.nil_append, h.next_dequeue_cons hr hq]
      at hcomplete
    exact haccounted.not_complete hcomplete
  | readHigh =>
    intro hr
    obtain ⟨event, -, hkept⟩ := h.kept_of_ready hr
    have haccounted := h.accounted
    rw [hkept] at haccounted
    have hcomplete := he.complete
    rw [show (s.next .readHigh).kept = _ from kept_clearReady s.obtained] at hcomplete
    exact haccounted.not_complete hcomplete
  | readLow => trivial
  | readCsr => trivial
  | writeCsr v => trivial

/-- The processor obtains the key events first in, first out, and loses only those that
find the queue full, in exactly those runs whose events are all orderly. -/
theorem key_fifo (interrupts : Interrupts) (es : List KeyEvent) :
    Lib.Always step FirstInFirstOut es (start interrupts) ↔
      Lib.EveryStep step Orderly es (start interrupts) := by
  refine Lib.always_iff_everyStep (I := Inv) (fun _ h => h.firstInFirstOut) ?_ ?_
    (inv_start interrupts)
  · rintro e s s' h ⟨⟩ he
    exact h.next he
  · rintro e s s' h ⟨⟩ he
    exact h.orderly he

/-- With the keyboard interrupt disabled, the code of a key is never flagged. -/
theorem key_fifo_unflagged :
    ¬Lib.Always step FirstInFirstOut [.key 0o23 true] (start (setInterruptStatusReg 0)) := by
  rintro ⟨-, h⟩
  have hfifo : FirstInFirstOut _ := h _ rfl
  exact absurd (hfifo.complete 0 (by decide)) (by decide)

/-- A key event that finds the register read overtakes one in the queue. -/
example : ((((((start (setInterruptStatusReg 0)).next (.writeCsr 4)).next (.key 1 true)).next
    (.key 2 true)).next .readLow).next (.key 3 true)).kept = [0, 2, 1] := by decide

end KeyFifo

end Usim
