import Usim.CSharp.ChaosNetwork
import Usim.Lib.Runs

/-!
# Sessions of the C# FILE server

`HandleConnection` starts the task `HandleSession` and returns, and `HandleRFC` accepts the
connection after that. The processing loop and the task take their steps in any order. What
`ProcessCommand` does to files is left out; it sends any replies.
-/

namespace Usim

open Lib

/-- Where `HandleSession` is. -/
inductive SessionPhase
  /-- It is about to test whether the connection is open. -/
  | testing
  /-- It is about to call `HasDataAvailable`. -/
  | polling
  /-- It is about to call `Receive`. -/
  | receiving
  /-- It is about to call `ProcessCommand`. -/
  | processing (data : List Byte)
  /-- It waits in `Task.Delay`. -/
  | delaying
  /-- `CloseSession` has been called. -/
  | closed
  deriving DecidableEq

/-- A connection to the FILE server, its session, and what was received and processed on it. -/
structure FileConnection where
  conn : SharpConnection
  /-- `HandleRFC` has called `Accept`. -/
  accepted : Bool
  session : SessionPhase
  /-- The data of the packets that were received while the connection was open. -/
  received : List (List Byte)
  /-- What was handed to `ProcessCommand`. -/
  processed : List (List Byte)
  /-- The connection has left the open state. -/
  left : Bool

/-- What the processing loop and the session task do. -/
inductive FileEvent
  /-- `HandleRFC` goes on after the listener has returned. -/
  | accept
  /-- The loop processes a packet for the connection. -/
  | incoming (packet : SharpPacket)
  /-- The loop processes the transmit queue. -/
  | iteration
  /-- The task takes a step. If that calls `ProcessCommand`, it sends the replies. -/
  | session (replies : List (List Byte))

namespace FileConnection

variable {s : FileConnection} {e : FileEvent} {es : List FileEvent}

/-- The connection of an RFC, just after its session was started. -/
def start (net : SharpNetwork) (rfc : SharpPacket) : FileConnection :=
  { conn := (net.requested rfc).objects net.created, accepted := false, session := .testing
    received := [], processed := [], left := false }

/-- What a packet adds to the commands received. -/
def arriving (packet : SharpPacket) (s : FileConnection) : List (List Byte) :=
  if (packet.opcode = PacketOpcode.datop ∨ packet.opcode = PacketOpcode.eofop) ∧
    s.conn.state = .csopen then [packet.data] else []

/-- The loop processes a packet. -/
def incoming (packet : SharpPacket) (s : FileConnection) : FileConnection :=
  { s with
    conn := SharpNetwork.deliver packet s.conn
    received := s.received ++ s.arriving packet
    left := s.left || s.conn.state = .csopen &&
      (SharpNetwork.deliver packet s.conn).state ≠ .csopen }

/-- A step of `HandleSession`. -/
def sessionStep (replies : List (List Byte)) (s : FileConnection) : FileConnection :=
  match s.session with
  | .testing => { s with session := if s.conn.state = .csopen then .polling else .closed }
  | .polling => { s with session := if s.conn.hasDataAvailable then .receiving else .delaying }
  | .receiving =>
    { s with
      conn := s.conn.receive.2
      session := match s.conn.receive.1 with
        | some data => .processing data
        | none => .delaying }
  | .processing data =>
    { s with
      conn := replies.foldl (fun conn reply => (conn.send reply).2) s.conn
      processed := s.processed ++ [data]
      session := .delaying }
  | .delaying => { s with session := .testing }
  | .closed => s

/-- One event. The loop is in `HandleRFC` until it accepts the connection, and that is once. -/
def step (e : FileEvent) (s : FileConnection) : Except Unit FileConnection :=
  match e with
  | .accept =>
    if s.accepted then .error () else .ok { s with conn := s.conn.accept, accepted := true }
  | .incoming packet =>
    if s.accepted then .ok (s.incoming packet) else .error ()
  | .iteration =>
    if s.accepted then .ok { s with conn := s.conn.processConnection.2 } else .error ()
  | .session replies => .ok (s.sessionStep replies)

/-- Further steps of the task alone. -/
def sessionSteps (replies : List (List (List Byte))) (s : FileConnection) : FileConnection :=
  replies.foldl (fun s r => s.sessionStep r) s

/-- The commands received were processed once and in their order, some number of further steps
of the task processes all of them, and the session is closed only after the connection has left
the open state. -/
structure Serves (s : FileConnection) : Prop where
  inOrder : s.processed <+: s.received
  drains : ∃ n, ∀ replies : List (List (List Byte)), replies.length = n →
    (s.sessionSteps replies).processed = s.received
  closedAfter : s.session = .closed → s.left = true

/-- The command that the task has taken from the queue. -/
def inHand (s : FileConnection) : List (List Byte) :=
  match s.session with
  | .processing data => [data]
  | _ => []

/-- The number of queued commands that the task takes without a test of the state. -/
def taking (s : FileConnection) : ℕ :=
  match s.session with
  | .polling | .receiving => 1
  | _ => 0

/-- The task will take all queued commands. -/
def Attended (s : FileConnection) : Prop :=
  s.conn.state = .csopen ∧ s.session ≠ .closed ∨ s.conn.receiveQueue.length ≤ s.taking

/-- The steps that the task needs for the queued commands. -/
def work (s : FileConnection) : ℕ :=
  match s.session with
  | .testing => 5 * s.conn.receiveQueue.length - 1
  | .polling => 5 * s.conn.receiveQueue.length - 2
  | .receiving => 5 * s.conn.receiveQueue.length - 3
  | .processing _ => 5 * s.conn.receiveQueue.length + 1
  | .delaying => 5 * s.conn.receiveQueue.length
  | .closed => 0

/-- The commands received are those processed, in hand and queued. -/
def Recorded (s : FileConnection) : Prop :=
  s.processed ++ s.inHand ++ s.conn.receiveQueue.map SharpPacket.data = s.received

/-- Replies do not change the state or the packets received. -/
theorem foldl_send (replies : List (List Byte)) (c : SharpConnection) :
    (replies.foldl (fun conn reply => (conn.send reply).2) c).state = c.state ∧
      (replies.foldl (fun conn reply => (conn.send reply).2) c).receiveQueue = c.receiveQueue := by
  induction replies generalizing c with
  | nil => exact ⟨rfl, rfl⟩
  | cons reply replies ih =>
    have hsend : (c.send reply).2.state = c.state ∧
        (c.send reply).2.receiveQueue = c.receiveQueue := by
      unfold SharpConnection.send
      split
      · exact ⟨rfl, rfl⟩
      · exact ⟨rfl, rfl⟩
    obtain ⟨hstate, hqueue⟩ := ih (c.send reply).2
    exact ⟨hstate.trans hsend.1, hqueue.trans hsend.2⟩

/-- A step of the task leaves what the loop decides. -/
structure SameLoop (s s' : FileConnection) : Prop where
  state : s'.conn.state = s.conn.state
  received : s'.received = s.received
  accepted : s'.accepted = s.accepted
  left : s'.left = s.left

theorem sameLoop_sessionStep (replies : List (List Byte)) (s : FileConnection) :
    SameLoop s (s.sessionStep replies) := by
  unfold sessionStep
  cases s.session with
  | receiving =>
    refine ⟨?_, rfl, rfl, rfl⟩
    unfold SharpConnection.receive
    cases s.conn.receiveQueue <;> rfl
  | processing data => exact ⟨(foldl_send replies s.conn).1, rfl, rfl, rfl⟩
  | _ => exact ⟨rfl, rfl, rfl, rfl⟩

/-- Nothing is queued. -/
theorem receiveQueue_of_no_data {c : SharpConnection} (h : c.hasDataAvailable = false) :
    c.receiveQueue = [] := by
  unfold SharpConnection.hasDataAvailable at h
  exact List.isEmpty_iff.mp (Bool.not_eq_eq_eq_not.mp h)

/-- A step of the task takes the commands from the queue in their order. -/
theorem Recorded.sessionStep (h : Recorded s) (replies : List (List Byte)) :
    Recorded (s.sessionStep replies) := by
  unfold Recorded inHand at h ⊢
  cases hsession : s.session with
  | testing =>
    simp only [hsession, FileConnection.sessionStep] at h ⊢
    by_cases hopen : s.conn.state = .csopen
    · rw [if_pos hopen]
      exact h
    · rw [if_neg hopen]
      exact h
  | polling =>
    simp only [hsession, FileConnection.sessionStep] at h ⊢
    cases s.conn.hasDataAvailable <;> exact h
  | receiving =>
    simp only [hsession, FileConnection.sessionStep, SharpConnection.receive] at h ⊢
    cases hqueue : s.conn.receiveQueue with
    | nil =>
      dsimp only
      rw [hqueue] at h ⊢
      exact h
    | cons packet rest =>
      rw [hqueue, List.append_nil] at h
      dsimp only
      rw [List.append_assoc]
      exact h
  | processing data =>
    simp only [hsession, FileConnection.sessionStep] at h ⊢
    rw [(foldl_send replies s.conn).2, List.append_nil]
    exact h
  | delaying =>
    simp only [hsession, FileConnection.sessionStep] at h ⊢
    exact h
  | closed =>
    simp only [hsession, FileConnection.sessionStep] at h ⊢
    exact h

/-- The task goes on with the queued commands that it will take. -/
theorem Attended.sessionStep (h : Attended s) (replies : List (List Byte)) :
    Attended (s.sessionStep replies) ∧ (s.sessionStep replies).work ≤ s.work - 1 := by
  unfold Attended taking work at *
  cases hsession : s.session with
  | testing =>
    simp only [hsession, FileConnection.sessionStep] at h ⊢
    by_cases hopen : s.conn.state = .csopen
    · simp only [if_pos hopen]
      exact ⟨Or.inl ⟨hopen, by decide⟩, by omega⟩
    · simp only [if_neg hopen]
      exact ⟨Or.inr (h.resolve_left fun hstate => hopen hstate.1), by omega⟩
  | polling =>
    simp only [hsession, FileConnection.sessionStep] at h ⊢
    cases hdata : s.conn.hasDataAvailable with
    | false =>
      rw [receiveQueue_of_no_data hdata]
      exact ⟨Or.inr (le_refl 0), by simp⟩
    | true =>
      simp only [if_true]
      exact ⟨h.imp (fun hopen => ⟨hopen.1, by decide⟩) id, by omega⟩
  | receiving =>
    simp only [hsession, FileConnection.sessionStep, SharpConnection.receive] at h ⊢
    cases hqueue : s.conn.receiveQueue with
    | nil =>
      dsimp only
      rw [hqueue]
      exact ⟨Or.inr (le_refl 0), by simp⟩
    | cons packet rest =>
      rw [hqueue, List.length_cons] at h
      dsimp only
      rw [List.length_cons]
      exact ⟨h.imp (fun hopen => ⟨hopen.1, fun heq => nomatch heq⟩) (by omega), by omega⟩
  | processing data =>
    simp only [hsession, FileConnection.sessionStep] at h ⊢
    rw [(foldl_send replies s.conn).1, (foldl_send replies s.conn).2]
    exact ⟨h.imp (fun hopen => ⟨hopen.1, by decide⟩) id, by omega⟩
  | delaying =>
    simp only [hsession, FileConnection.sessionStep] at h ⊢
    exact ⟨h.imp (fun hopen => ⟨hopen.1, by decide⟩) id, by omega⟩
  | closed =>
    simp only [hsession, FileConnection.sessionStep] at h ⊢
    exact ⟨h, by omega⟩

/-- Once it will not, it never does. -/
theorem not_attended_sessionStep (h : ¬Attended s) (replies : List (List Byte)) :
    ¬Attended (s.sessionStep replies) := by
  unfold Attended taking at *
  push Not at h ⊢
  obtain ⟨hclosed, hlength⟩ := h
  cases hsession : s.session with
  | testing =>
    simp only [hsession, FileConnection.sessionStep] at hclosed hlength ⊢
    have hopen : s.conn.state ≠ .csopen := fun hopen => nomatch hclosed hopen
    rw [if_neg hopen]
    exact ⟨fun _ => rfl, hlength⟩
  | polling =>
    simp only [hsession, FileConnection.sessionStep] at hclosed hlength ⊢
    cases hdata : s.conn.hasDataAvailable with
    | false =>
      rw [receiveQueue_of_no_data hdata] at hlength
      cases hlength
    | true =>
      simp only [if_true]
      exact ⟨fun hopen => (nomatch hclosed hopen), hlength⟩
  | receiving =>
    simp only [hsession, FileConnection.sessionStep, SharpConnection.receive] at hclosed hlength ⊢
    cases hqueue : s.conn.receiveQueue with
    | nil =>
      rw [hqueue] at hlength
      cases hlength
    | cons packet rest =>
      rw [hqueue, List.length_cons] at hlength
      exact ⟨fun hopen => (nomatch hclosed hopen), by dsimp only; omega⟩
  | processing data =>
    simp only [hsession, FileConnection.sessionStep] at hclosed hlength ⊢
    rw [(foldl_send replies s.conn).1, (foldl_send replies s.conn).2]
    exact ⟨fun hopen => (nomatch hclosed hopen), hlength⟩
  | delaying =>
    simp only [hsession, FileConnection.sessionStep] at hclosed hlength ⊢
    exact ⟨fun hopen => (nomatch hclosed hopen), hlength⟩
  | closed =>
    simp only [hsession, FileConnection.sessionStep] at hclosed hlength ⊢
    exact ⟨hclosed, hlength⟩

/-- With no work left, all that was received is processed. -/
theorem Recorded.processed_eq (h : Recorded s) (hattended : Attended s) (hwork : s.work = 0) :
    s.processed = s.received := by
  unfold Recorded inHand at h
  unfold Attended taking at hattended
  unfold work at hwork
  cases hsession : s.session with
  | processing data =>
    rw [hsession] at hwork
    cases hwork
  | _ =>
    simp only [hsession] at h hattended hwork
    have hlength : s.conn.receiveQueue.length = 0 := by
      first
        | omega
        | exact Nat.le_zero.mp (hattended.resolve_left fun hopen => hopen.2 rfl)
    rw [List.length_eq_zero_iff.mp hlength, List.append_nil, List.map_nil, List.append_nil] at h
    exact h

/-- As many steps as there is work process all that was received. -/
theorem Recorded.sessionSteps (h : Recorded s) (hattended : Attended s)
    {replies : List (List (List Byte))} (hwork : s.work ≤ replies.length) :
    (s.sessionSteps replies).processed = s.received := by
  induction replies generalizing s with
  | nil => exact h.processed_eq hattended (Nat.le_zero.mp hwork)
  | cons reply replies ih =>
    obtain ⟨hattended, hless⟩ := hattended.sessionStep reply
    rw [List.length_cons] at hwork
    have hrest := ih (h.sessionStep reply) hattended (by omega)
    exact hrest.trans (sameLoop_sessionStep reply s).received

/-- A queue that the task will not take is never processed. -/
theorem Recorded.sessionSteps_ne (h : Recorded s) (hattended : ¬Attended s)
    (replies : List (List (List Byte))) : (s.sessionSteps replies).processed ≠ s.received := by
  induction replies generalizing s with
  | nil =>
    intro heq
    change s.processed = s.received at heq
    unfold Attended at hattended
    push Not at hattended
    unfold Recorded at h
    have hlength := congrArg List.length h
    rw [← heq, List.length_append, List.length_append, List.length_map] at hlength
    have hless := hattended.2
    omega
  | cons reply replies ih =>
    have hrest := ih (h.sessionStep reply) (not_attended_sessionStep hattended reply)
    rwa [(sameLoop_sessionStep reply s).received] at hrest

/-- The server serves the connection in exactly those states where the task will take all queued
commands and has not given up before the connection was open. -/
theorem Recorded.serves_iff (h : Recorded s) :
    Serves s ↔ Attended s ∧ (s.session = .closed → s.left = true) := by
  constructor
  · intro hserves
    refine ⟨?_, hserves.closedAfter⟩
    by_contra hattended
    obtain ⟨n, hn⟩ := hserves.drains
    exact h.sessionSteps_ne hattended (List.replicate n []) (hn _ List.length_replicate)
  · rintro ⟨hattended, hclosed⟩
    refine ⟨⟨s.inHand ++ s.conn.receiveQueue.map SharpPacket.data, ?_⟩, ⟨s.work, ?_⟩, hclosed⟩
    · rw [← List.append_assoc]
      exact h
    · exact fun replies hlength => h.sessionSteps hattended hlength.ge

/-- The task does not test the state before the connection is accepted, no close arrives while
there are more commands queued than the task takes without another test, and none arrives after
the session was closed. -/
def Prompt : FileEvent → FileConnection → Prop
  | .session _, s => s.session = .testing → s.accepted = true
  | .incoming packet, s => s.conn.state = .csopen →
    (packet.opcode = PacketOpcode.clsop → s.conn.receiveQueue.length ≤ s.taking) ∧
    (packet.opcode = PacketOpcode.datop ∨ packet.opcode = PacketOpcode.eofop →
      s.session ≠ .closed)
  | _, _ => True

/-- The record of a connection, and its states. -/
structure Going (s : FileConnection) : Prop where
  recorded : Recorded s
  requested : s.accepted = false → s.conn.state = .csrfcrcvd ∧ s.left = false
  wasOpen : s.accepted = true → s.conn.state ≠ .csopen → s.left = true

theorem going_start (net : SharpNetwork) (rfc : SharpPacket) : Going (start net rfc) := by
  unfold start
  rw [SharpNetwork.objects_requested]
  exact ⟨rfl, fun _ => ⟨rfl, rfl⟩, fun h => nomatch h⟩

/-- Nothing is queued yet. -/
theorem attended_start (net : SharpNetwork) (rfc : SharpPacket) : Attended (start net rfc) := by
  have hrecorded := (going_start net rfc).recorded
  have hlength := congrArg List.length hrecorded
  rw [List.length_append, List.length_map] at hlength
  exact Or.inr (by change _ + _ = 0 at hlength; omega)

/-- A packet opens or closes the connection, or is one of data, or none of these. -/
theorem deliver_cases (packet : SharpPacket) (s : FileConnection) :
    (packet.opcode = PacketOpcode.opnop ∧ s.arriving packet = [] ∧
      (SharpNetwork.deliver packet s.conn).state = .csopen ∧
      (SharpNetwork.deliver packet s.conn).receiveQueue = s.conn.receiveQueue) ∨
    (packet.opcode = PacketOpcode.clsop ∧ s.arriving packet = [] ∧
      (SharpNetwork.deliver packet s.conn).state = .csclosed ∧
      (SharpNetwork.deliver packet s.conn).receiveQueue = s.conn.receiveQueue) ∨
    ((packet.opcode = PacketOpcode.datop ∨ packet.opcode = PacketOpcode.eofop) ∧
      s.conn.state = .csopen ∧ s.arriving packet = [packet.data] ∧
      SharpNetwork.deliver packet s.conn =
        { s.conn with receiveQueue := s.conn.receiveQueue ++ [packet] }) ∨
    packet.opcode ≠ PacketOpcode.opnop ∧ packet.opcode ≠ PacketOpcode.clsop ∧
      (s.conn.state = .csopen →
        ¬(packet.opcode = PacketOpcode.datop ∨ packet.opcode = PacketOpcode.eofop)) ∧
      s.arriving packet = [] ∧ SharpNetwork.deliver packet s.conn = s.conn := by
  unfold SharpNetwork.deliver arriving
  by_cases hopn : packet.opcode = PacketOpcode.opnop
  · have hdata : ¬(packet.opcode = PacketOpcode.datop ∨ packet.opcode = PacketOpcode.eofop) := by
      rw [hopn]
      decide
    rw [if_pos hopn, if_neg fun h => hdata h.1]
    exact Or.inl ⟨hopn, rfl, rfl, rfl⟩
  by_cases hcls : packet.opcode = PacketOpcode.clsop
  · have hdata : ¬(packet.opcode = PacketOpcode.datop ∨ packet.opcode = PacketOpcode.eofop) := by
      rw [hcls]
      decide
    rw [if_neg hopn, if_pos hcls, if_neg fun h => hdata h.1]
    exact Or.inr (Or.inl ⟨hcls, rfl, rfl, rfl⟩)
  rw [if_neg hopn, if_neg hcls]
  by_cases hdata : packet.opcode = PacketOpcode.datop ∨ packet.opcode = PacketOpcode.eofop
  · by_cases hopen : s.conn.state = .csopen
    · rw [if_pos hdata, if_pos hopen, if_pos ⟨hdata, hopen⟩]
      exact Or.inr (Or.inr (Or.inl ⟨hdata, hopen, rfl, rfl⟩))
    · rw [if_pos hdata, if_neg hopen, if_neg fun h => hopen h.2]
      exact Or.inr (Or.inr (Or.inr ⟨hopn, hcls, fun h => absurd h hopen, rfl, rfl⟩))
  · rw [if_neg hdata, if_neg fun h => hdata h.1]
    exact Or.inr (Or.inr (Or.inr ⟨hopn, hcls, fun _ => hdata, rfl, rfl⟩))

/-- The commands received are queued. -/
theorem Recorded.incoming (h : Recorded s) (packet : SharpPacket) :
    Recorded (s.incoming packet) := by
  unfold Recorded at h ⊢
  change s.processed ++ s.inHand ++
    (SharpNetwork.deliver packet s.conn).receiveQueue.map SharpPacket.data =
      s.received ++ s.arriving packet
  rw [← h]
  obtain ⟨-, harriving, -, hqueue⟩ | ⟨-, harriving, -, hqueue⟩ | ⟨-, -, harriving, hdeliver⟩ |
    ⟨-, -, -, harriving, hdeliver⟩ := deliver_cases packet s
  · rw [harriving, hqueue, List.append_nil]
  · rw [harriving, hqueue, List.append_nil]
  · rw [harriving, hdeliver, List.map_append, List.append_assoc _ _ [packet.data]]
    rfl
  · rw [harriving, hdeliver, List.append_nil]

/-- A packet for the connection. -/
theorem Going.incoming (h : Going s) (haccepted : s.accepted = true) (packet : SharpPacket) :
    Going (s.incoming packet) := by
  refine ⟨h.recorded.incoming packet, fun hnot => absurd (haccepted.symm.trans hnot) (by decide),
    fun _ hstate => ?_⟩
  change (s.left || s.conn.state = .csopen && _) = true
  by_cases hopen : s.conn.state = .csopen
  · change (SharpNetwork.deliver packet s.conn).state ≠ .csopen at hstate
    simp [hopen, hstate]
  · rw [h.wasOpen haccepted hopen, Bool.true_or]

/-- It leaves the queued commands attended exactly if it comes in time. -/
theorem Attended.incoming_iff (h : Attended s) (packet : SharpPacket) :
    Attended (s.incoming packet) ↔ Prompt (.incoming packet) s := by
  have htaking : (s.incoming packet).taking = s.taking := rfl
  have hqueued : s.conn.state = .csopen ∧ s.session ≠ .closed ∨
      s.conn.receiveQueue.length ≤ s.taking := h
  change (SharpNetwork.deliver packet s.conn).state = .csopen ∧ s.session ≠ .closed ∨
    (SharpNetwork.deliver packet s.conn).receiveQueue.length ≤ s.taking ↔ _
  unfold Prompt
  obtain ⟨hopn, -, hstate, hqueue⟩ | ⟨hcls, -, hstate, hqueue⟩ | ⟨hdata, hopen, -, hdeliver⟩ |
    ⟨-, hcls, hdata, -, hdeliver⟩ := deliver_cases packet s
  · rw [hstate, hqueue]
    have hno : packet.opcode ≠ PacketOpcode.clsop ∧
        ¬(packet.opcode = PacketOpcode.datop ∨ packet.opcode = PacketOpcode.eofop) := by
      rw [hopn]
      decide
    refine ⟨fun _ _ => ⟨fun hcls => absurd hcls hno.1, fun hdata => absurd hdata hno.2⟩,
      fun _ => ?_⟩
    exact hqueued.imp (fun hopen => ⟨rfl, hopen.2⟩) id
  · rw [hstate, hqueue]
    have hno : ¬(packet.opcode = PacketOpcode.datop ∨ packet.opcode = PacketOpcode.eofop) := by
      rw [hcls]
      decide
    constructor
    · intro hattended _
      exact ⟨fun _ => hattended.resolve_left fun hopen => (nomatch hopen.1),
        fun hdata => absurd hdata hno⟩
    · intro hprompt
      by_cases hopen : s.conn.state = .csopen
      · exact Or.inr ((hprompt hopen).1 hcls)
      · exact Or.inr (hqueued.resolve_left fun h => hopen h.1)
  · have hno : packet.opcode ≠ PacketOpcode.clsop := by
      intro hcls
      rw [hcls] at hdata
      exact absurd hdata (by decide)
    rw [hdeliver]
    dsimp only
    rw [List.length_append, List.length_singleton]
    constructor
    · intro hattended _
      refine ⟨fun hcls => absurd hcls hno, fun _ hclosed => ?_⟩
      obtain hopen | hlength := hattended
      · exact hopen.2 hclosed
      · unfold taking at hlength
        rw [hclosed] at hlength
        exact absurd hlength (Nat.not_succ_le_zero _)
    · exact fun hprompt => Or.inl ⟨hopen, (hprompt hopen).2 hdata⟩
  · rw [hdeliver]
    exact ⟨fun _ hopen => ⟨fun h => absurd h hcls, fun h => absurd h (hdata hopen)⟩,
      fun _ => hqueued⟩

/-- The task. -/
theorem Going.sessionStep (h : Going s) (replies : List (List Byte)) :
    Going (s.sessionStep replies) := by
  have hsame := sameLoop_sessionStep replies s
  refine ⟨h.recorded.sessionStep replies, fun haccepted => ?_, fun haccepted hstate => ?_⟩
  · rw [hsame.state, hsame.left]
    exact h.requested (hsame.accepted ▸ haccepted)
  · rw [hsame.left]
    exact h.wasOpen (hsame.accepted ▸ haccepted) (hsame.state ▸ hstate)

/-- The task ends the session only in its test of the state. -/
theorem closed_of_sessionStep {replies : List (List Byte)}
    (h : (s.sessionStep replies).session = .closed) :
    s.session = .closed ∨ s.session = .testing ∧ s.conn.state ≠ .csopen := by
  unfold FileConnection.sessionStep at h
  cases hsession : s.session with
  | testing =>
    simp only [hsession] at h
    refine Or.inr ⟨rfl, fun hopen => ?_⟩
    rw [if_pos hopen] at h
    cases h
  | polling =>
    simp only [hsession] at h
    cases hdata : s.conn.hasDataAvailable <;> simp [hdata] at h
  | receiving =>
    simp only [hsession, SharpConnection.receive] at h
    cases hqueue : s.conn.receiveQueue <;> simp [hqueue] at h
  | processing data =>
    simp only [hsession] at h
    cases h
  | delaying =>
    simp only [hsession] at h
    cases h
  | closed => exact Or.inl rfl

/-- A step of the task goes on serving exactly if it is prompt. -/
theorem Going.session_iff (h : Going s) (hclosed : s.session = .closed → s.left = true)
    (replies : List (List Byte)) :
    ((s.sessionStep replies).session = .closed → (s.sessionStep replies).left = true) ↔
      Prompt (.session replies) s := by
  rw [(sameLoop_sessionStep replies s).left]
  constructor
  · intro hleft htesting
    by_contra haccepted
    obtain ⟨hstate, hnever⟩ := h.requested (Bool.not_eq_true _ ▸ haccepted)
    have hends : (s.sessionStep replies).session = .closed := by
      unfold FileConnection.sessionStep
      rw [htesting, hstate]
      rfl
    exact Bool.false_ne_true (hnever.symm.trans (hleft hends))
  · intro hprompt hends
    obtain hended | ⟨htesting, hstate⟩ := closed_of_sessionStep hends
    · exact hclosed hended
    · exact h.wasOpen (hprompt htesting) hstate

/-- A step keeps the record, and goes on serving exactly if it is prompt. -/
theorem Going.step (h : Going s) (hattended : Attended s)
    (hclosed : s.session = .closed → s.left = true) {s' : FileConnection}
    (hstep : step e s = .ok s') :
    Going s' ∧ (Attended s' ∧ (s'.session = .closed → s'.left = true) ↔ Prompt e s) := by
  cases e with
  | accept =>
    cases haccepted : s.accepted with
    | true => simp [FileConnection.step, haccepted] at hstep
    | false =>
      simp only [FileConnection.step, haccepted, Bool.false_eq_true, if_false,
        Except.ok.injEq] at hstep
      subst hstep
      obtain ⟨hstate, -⟩ := h.requested haccepted
      have haccept : s.conn.accept.state = .csopen ∧
          s.conn.accept.receiveQueue = s.conn.receiveQueue := by
        unfold SharpConnection.accept
        rw [if_neg (not_not.mpr hstate)]
        exact ⟨rfl, rfl⟩
      refine ⟨⟨?_, fun h => (nomatch h), fun _ hne => absurd haccept.1 hne⟩,
        fun _ => trivial, fun _ => ⟨?_, hclosed⟩⟩
      · have hrecorded := h.recorded
        unfold Recorded at hrecorded ⊢
        dsimp only
        rw [haccept.2]
        exact hrecorded
      · refine Or.inr ?_
        dsimp only
        rw [haccept.2]
        exact hattended.resolve_left fun hopen => by rw [hstate] at hopen; exact nomatch hopen.1
  | incoming packet =>
    cases haccepted : s.accepted with
    | false => simp [FileConnection.step, haccepted] at hstep
    | true =>
      simp only [FileConnection.step, haccepted, if_true, Except.ok.injEq] at hstep
      subst hstep
      refine ⟨h.incoming haccepted packet, (and_iff_left fun hends => ?_).trans
        (hattended.incoming_iff packet)⟩
      change (s.left || _) = true
      rw [hclosed hends, Bool.true_or]
  | iteration =>
    cases haccepted : s.accepted with
    | false => simp [FileConnection.step, haccepted] at hstep
    | true =>
      simp only [FileConnection.step, haccepted, if_true, Except.ok.injEq] at hstep
      subst hstep
      exact ⟨⟨h.recorded, fun hnot => (nomatch hnot),
        fun _ hstate => h.wasOpen haccepted hstate⟩, fun _ => trivial,
        fun _ => ⟨hattended, hclosed⟩⟩
  | session replies =>
    cases hstep
    exact ⟨h.sessionStep replies, (and_iff_right (hattended.sessionStep replies).1).trans
      (h.session_iff hclosed replies)⟩

/-- In every run after an RFC that is accepted, the session serves the connection in every state
if and only if every step is prompt. -/
theorem sessions_serve (net : SharpNetwork) (rfc : SharpPacket) :
    Lib.Always step Serves es (start net rfc) ↔ Lib.EveryStep step Prompt es (start net rfc) := by
  refine Lib.always_iff_everyStep
    (I := fun s => Going s ∧ Attended s ∧ (s.session = .closed → s.left = true))
    (fun s hs => hs.1.recorded.serves_iff.mpr hs.2) ?_ ?_
    ⟨going_start net rfc, attended_start net rfc, fun h => nomatch h⟩
  · rintro e s s' ⟨hs, hattended, hclosed⟩ hstep hc
    obtain ⟨hgoing, hiff⟩ := hs.step hattended hclosed hstep
    exact ⟨hgoing, hiff.mpr hc⟩
  · rintro e s s' ⟨hs, hattended, hclosed⟩ hstep hserves
    obtain ⟨hgoing, hiff⟩ := hs.step hattended hclosed hstep
    exact hiff.mp (hgoing.recorded.serves_iff.mp hserves)

/-- An RFC to the FILE server. -/
def exampleRfc : SharpPacket :=
  { opcode := PacketOpcode.rfcop, destAddress := 0o177001, destIndex := 0, sourceAddress := 0o401
    sourceIndex := 7, packetNumber := 0, ackNumber := 0, data := asciiBytes "FILE" }

/-- The task tests the state before `HandleRFC` accepts the connection. -/
theorem session_ends_before_accept : ¬Lib.Always step Serves [.session [], .accept]
    (start (.start 0o177001) exampleRfc) := by
  intro h
  have hleft := (h.2 _ rfl).head.closedAfter rfl
  exact Bool.false_ne_true hleft

end FileConnection

end Usim
