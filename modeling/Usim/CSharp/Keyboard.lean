import Usim.Sdl3Keyboard

/-!
# The keyboard of the C# port

The class `Keyboard` with its queue, and the delivery of the codes by `Pump`, which looks
at the clock where the thread of `sdl3-keyboard.c` sleeps. The IOB is wired from the
start. The count `KeysPressed`, the log messages and `Initialize` are left out.
-/

namespace Usim

/-- `BusyTimeoutMs`. -/
def busyTimeoutMs : ℤ := 2 + 4 + 8 + 16 + 32 + 64 + 128 + 256

/-- The class `Keyboard`. -/
structure SharpKeyboard where
  /-- `_queue`. -/
  queue : List Word
  /-- `_busySinceMs`. -/
  busySinceMs : ℤ

/-- A code dropped because the IOB was busy. -/
structure BusyDrop where
  number : ℕ
  since : ℤ
  droppedAt : ℤ

/-- The keyboard and the IOB, with the record of the codes. -/
structure SharpKeyboardSystem where
  keyboard : SharpKeyboard
  iob : IobKeyboard
  log : KeyLog
  /-- The IOB has been busy ever since `_busySinceMs` was set. -/
  busy : Bool
  drops : List BusyDrop

/-- What happens to the system. A pump reads the clock once for each turn of its loop. -/
inductive SharpKeyboardEvent
  /-- `Enqueue`. -/
  | enqueue (scancode : Word) (now : ℕ → ℕ)
  /-- `Tick`. -/
  | tick (now : ℕ → ℕ)
  | access (a : ProcessorAccess)

namespace SharpKeyboardSystem

/-- The loop of `Pump`, at turn `i`. -/
def pumpLoop (now : ℕ → ℕ) : List Word → ℕ → SharpKeyboardSystem → SharpKeyboardSystem
  | [], _, s => { s with keyboard := { queue := [], busySinceMs := -1 } }
  | scancode :: queue, i, s =>
    if !s.iob.isKeyboardReadySet then
      { s with
        keyboard := { queue := queue, busySinceMs := -1 }
        -- `SetKeyboardReady` of the port does not boot
        iob := s.iob.present scancode
        log := s.log.deliver scancode }
    else if s.keyboard.busySinceMs < 0 then
      { s with keyboard := { queue := scancode :: queue, busySinceMs := now i }, busy := true }
    else if now i - s.keyboard.busySinceMs < busyTimeoutMs then
      { s with keyboard := { s.keyboard with queue := scancode :: queue } }
    else
      pumpLoop now queue (i + 1)
        { s with
          keyboard := { queue := queue, busySinceMs := now i }
          log := s.log.miss
          drops := s.drops ++ (s.log.waiting.take 1).map fun e =>
            { number := e.1, since := s.keyboard.busySinceMs, droppedAt := now i } }

/-- `Pump`. -/
def pump (now : ℕ → ℕ) (s : SharpKeyboardSystem) : SharpKeyboardSystem :=
  pumpLoop now s.keyboard.queue 0 s

/-- `Enqueue`. -/
def enqueue (scancode : Word) (now : ℕ → ℕ) (s : SharpKeyboardSystem) : SharpKeyboardSystem :=
  if s.keyboard.queue.length = queueCapacity then { s with log := s.log.refuse scancode }
  else
    { s with
      keyboard := { s.keyboard with queue := s.keyboard.queue ++ [scancode] }
      log := s.log.queue scancode }.pump now

/-- One event, without the record of the busy time. -/
def act (s : SharpKeyboardSystem) : SharpKeyboardEvent → SharpKeyboardSystem
  | .enqueue scancode now => s.enqueue scancode now
  | .tick now => s.pump now
  | .access a => { s with iob := s.iob.access a, log := s.log.access a }

/-- One event. -/
def next (s : SharpKeyboardSystem) (e : SharpKeyboardEvent) : SharpKeyboardSystem :=
  { s.act e with busy := (s.act e).busy && (s.act e).iob.isKeyboardReadySet }

/-- One event, as a step of a run. -/
def step (e : SharpKeyboardEvent) (s : SharpKeyboardSystem) :
    Except Empty SharpKeyboardSystem :=
  .ok (s.next e)

/-- The system when the keyboard is wired to the IOB. -/
def start (iob : IobKeyboard) : SharpKeyboardSystem :=
  { keyboard := { queue := [], busySinceMs := -1 }, iob := iob
    log := .start iob.isKeyboardReadySet, busy := false, drops := [] }

/-- The invariant of the system, with `codes` for the queue of the keyboard. -/
structure Inv (codes : List Word) (s : SharpKeyboardSystem) : Prop where
  log : s.log.Inv
  queue : s.log.waiting.map Prod.snd = codes
  length_le : codes.length ≤ queueCapacity
  unread : s.log.unread → s.iob.isKeyboardReadySet
  busy : 0 ≤ s.keyboard.busySinceMs → s.iob.isKeyboardReadySet → s.busy

/-- What a pump does: it keeps the invariant and drops codes only after the timeout. -/
structure Pumped (s t : SharpKeyboardSystem) : Prop where
  inv : t.Inv t.keyboard.queue
  drops : ∃ drops, t.log.dropped = s.log.dropped ++ drops.map BusyDrop.number ∧
    t.drops = s.drops ++ drops ∧
    ∀ d ∈ drops, s.busy ∧ s.iob.isKeyboardReadySet ∧ busyTimeoutMs ≤ d.droppedAt - d.since
  delivered : t.iob = s.iob ∧ t.log.delivered = s.log.delivered ∧ t.log.unread = s.log.unread ∨
    ¬s.iob.isKeyboardReadySet

variable {s : SharpKeyboardSystem}

/-- Turns of the loop that drop nothing and deliver nothing. -/
theorem Pumped.idle {codes : List Word} (h : Inv codes s) {keyboard : SharpKeyboard}
    (busy : Bool) (hq : keyboard.queue = codes)
    (hb : 0 ≤ keyboard.busySinceMs → s.iob.isKeyboardReadySet → busy) :
    Pumped s { s with keyboard := keyboard, busy := busy } where
  inv := hq ▸ ⟨h.log, h.queue, h.length_le, h.unread, hb⟩
  drops := ⟨[], (List.append_nil _).symm, (List.append_nil _).symm,
    fun _ hd => absurd hd List.not_mem_nil⟩
  delivered := .inl ⟨rfl, rfl, rfl⟩

/-- The loop of a pump, by induction on the queue. -/
theorem Inv.pumpLoop {codes : List Word} (h : Inv codes s) (now : ℕ → ℕ) (i : ℕ) :
    Pumped s (pumpLoop now codes i s) := by
  induction codes generalizing i s with
  | nil => exact Pumped.idle h s.busy rfl fun h0 => absurd h0 (by decide)
  | cons scancode codes ih =>
    obtain ⟨e, rest, hw, rfl, rfl⟩ := List.map_eq_cons_iff.mp h.queue
    have hlen := h.length_le
    rw [List.length_cons] at hlen
    rw [SharpKeyboardSystem.pumpLoop]
    cases hr : s.iob.isKeyboardReadySet with
    | false =>
      simp only [Bool.not_false, if_true]
      refine ⟨⟨h.log.deliver hw, ?_, ?_, fun _ => ?_, ?_⟩, ⟨[], ?_, ?_, ?_⟩, .inr (by simp [hr])⟩
      · rw [KeyLog.deliver, hw, List.tail_cons]
      · exact Nat.le_of_succ_le hlen
      · exact IobKeyboard.isKeyboardReadySet_present _ _
      · exact fun h0 => absurd h0 (Int.not_le.mpr (Int.negSucc_lt_zero 0))
      · exact (List.append_nil _).symm
      · exact (List.append_nil _).symm
      · exact fun _ hd => absurd hd List.not_mem_nil
    | true =>
      simp only [Bool.not_true, Bool.false_eq_true, if_false]
      by_cases hunset : s.keyboard.busySinceMs < 0
      · rw [if_pos hunset]
        exact Pumped.idle h true rfl fun _ _ => rfl
      · rw [if_neg hunset]
        by_cases htime : now i - s.keyboard.busySinceMs < busyTimeoutMs
        · rw [if_pos htime]
          exact Pumped.idle h s.busy rfl h.busy
        · rw [if_neg htime]
          have hbusy := h.busy (Int.not_lt.mp hunset) hr
          -- the code is dropped, and the loop goes on with the rest
          set d : BusyDrop :=
            { number := e.1, since := s.keyboard.busySinceMs, droppedAt := now i } with hd
          have htake : ((s.log.waiting.take 1).map fun e : ℕ × Word => BusyDrop.mk e.1
              s.keyboard.busySinceMs (now i)) = [d] := by rw [hw]; rfl
          rw [htake]
          have hmiss : s.log.miss.dropped = s.log.dropped ++ [d.number] := by
            rw [KeyLog.miss, hw]
            rfl
          set s' : SharpKeyboardSystem := { s with
            keyboard := { queue := rest.map Prod.snd, busySinceMs := now i }
            log := s.log.miss
            drops := s.drops ++ [d] } with hs'
          have hinv : Inv (rest.map Prod.snd) s' := by
            refine ⟨h.log.miss hw, ?_, Nat.le_of_succ_le hlen, h.unread, fun _ _ => hbusy⟩
            rw [hs', KeyLog.miss, hw, List.tail_cons]
          have hpumped := ih hinv (i + 1)
          obtain ⟨drops, hdropped, hdrops, hall⟩ := hpumped.drops
          refine ⟨hpumped.inv, ⟨d :: drops, ?_, ?_, ?_⟩, hpumped.delivered⟩
          · rw [hdropped, hs', hmiss, List.append_assoc]
            rfl
          · rw [hdrops, hs', List.append_assoc]
            rfl
          · intro d' hd'
            rcases List.mem_cons.mp hd' with rfl | hd'
            · exact ⟨hbusy, hr, Int.not_lt.mp htime⟩
            · exact hall d' hd'

/-- A pump. -/
theorem Inv.pump (h : Inv s.keyboard.queue s) (now : ℕ → ℕ) : Pumped s (s.pump now) :=
  h.pumpLoop now 0

/-- A code is queued, before the pump that `Enqueue` ends with. -/
theorem Inv.queued (h : Inv s.keyboard.queue s) (scancode : Word)
    (hroom : s.keyboard.queue.length ≠ queueCapacity) :
    Inv (s.keyboard.queue ++ [scancode])
      { s with
        keyboard := { s.keyboard with queue := s.keyboard.queue ++ [scancode] }
        log := s.log.queue scancode } where
  log := h.log.queue scancode
  queue := by
    rw [KeyLog.queue, List.map_append, h.queue]
    rfl
  length_le := by
    rw [List.length_append, List.length_singleton]
    exact lt_of_le_of_ne h.length_le hroom
  unread := h.unread
  busy := h.busy

/-- The record of the busy time. -/
theorem Inv.settle (h : Inv s.keyboard.queue s) :
    Inv s.keyboard.queue { s with busy := s.busy && s.iob.isKeyboardReadySet } :=
  { h with busy := fun h0 hr => by rw [h.busy h0 hr, hr]; rfl }

/-- The invariant holds after every event. -/
theorem Inv.next (h : Inv s.keyboard.queue s) (e : SharpKeyboardEvent) :
    Inv (s.next e).keyboard.queue (s.next e) := by
  cases e with
  | enqueue scancode now =>
    refine Inv.settle (s := s.enqueue scancode now) ?_
    rw [SharpKeyboardSystem.enqueue]
    by_cases hfull : s.keyboard.queue.length = queueCapacity
    · rw [if_pos hfull]
      exact { h with log := h.log.refuse scancode }
    · rw [if_neg hfull]
      exact ((h.queued scancode hfull).pump now).inv
  | tick now => exact (h.pump now).inv.settle
  | access a =>
    refine Inv.settle (s := s.act (.access a)) ?_
    have hwaiting : (s.log.access a).waiting = s.log.waiting := by cases a <;> rfl
    exact ⟨h.log.access a, hwaiting ▸ h.queue, h.length_le, KeyLog.unread_access h.unread a,
      fun h0 hr => h.busy h0 (IobKeyboard.ready_of_access hr)⟩

/-- Nothing has been enqueued at the start. -/
theorem inv_start (iob : IobKeyboard) : Inv [] (start iob) where
  log := KeyLog.inv_start _
  queue := rfl
  length_le := Nat.zero_le _
  unread := id
  busy := fun h0 => absurd h0 (by simp [start])

end SharpKeyboardSystem

end Usim
