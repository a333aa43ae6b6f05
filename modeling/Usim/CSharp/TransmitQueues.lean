import Usim.CSharp.ChaosNetwork
import Usim.Lib.Runs

/-!
# The transmit queues of the C# Chaos network

`ProcessConnection` hands the packets of a connection over only while the connection is
open and the queue is shorter than the transmit window. The record keeps, for every
connection, the packets that calls enqueued and those that were handed to `SendPacket`.
-/

namespace Usim

open Lib

namespace SharpConnection

variable {c c' : SharpConnection}

/-- The next iteration empties the queue. -/
def Ready (c : SharpConnection) : Prop :=
  c.transmitQueue = [] ∨ c.state = .csopen ∧ c.transmitQueue.length < c.transmitWindowSize.toNat

/-! ### When a call leaves the connection ready -/

/-- A connection that is not open is ready only with nothing queued. -/
theorem Ready.queue_eq (h : c.Ready) (hstate : c.state ≠ .csopen) : c.transmitQueue = [] := by
  obtain h | h := h
  · exact h
  · exact absurd h.1 hstate

/-- With a packet just enqueued. -/
theorem ready_enqueue (p : SharpPacket) : (c.enqueue p).Ready ↔
    c.state = .csopen ∧ c.transmitQueue.length + 1 < c.transmitWindowSize.toNat := by
  unfold Ready enqueue
  rw [List.length_append, List.length_singleton]
  simp

theorem not_ready_open (remoteHost : HalfWord) (contactName : String) (data : Option (List Byte)) :
    ¬(c.open remoteHost contactName data).Ready := by
  unfold «open»
  rw [ready_enqueue]
  exact fun h => nomatch h.1

theorem Ready.accept (h : c.Ready) (hwindow : c.transmitWindowSize = 8) : c.accept.Ready := by
  unfold SharpConnection.accept
  split
  · exact h
  case isFalse hstate =>
    have hqueue := h.queue_eq (fun hopen => hstate (by rw [hopen]; decide))
    rw [ready_enqueue]
    refine ⟨rfl, ?_⟩
    change c.transmitQueue.length + 1 < c.transmitWindowSize.toNat
    rw [hqueue, hwindow]
    decide

theorem Ready.reject_iff (h : c.Ready) (reason : String) :
    (c.reject reason).Ready ↔ c.state ≠ .csrfcrcvd := by
  unfold SharpConnection.reject
  split
  case isTrue hstate => exact ⟨fun _ => hstate, fun _ => h⟩
  case isFalse hstate =>
    rw [ready_enqueue]
    exact ⟨fun hready => (nomatch hready.1), fun hne => absurd hne hstate⟩

theorem Ready.close_iff (h : c.Ready) (reason : Option String) :
    (c.close reason).Ready ↔ c.state = .csclosed := by
  unfold SharpConnection.close
  split
  case isTrue hstate => exact ⟨fun _ => hstate, fun _ => h⟩
  case isFalse hstate =>
    rw [ready_enqueue]
    exact ⟨fun hready => (nomatch hready.1), fun heq => absurd heq hstate⟩

theorem Ready.send_iff (h : c.Ready) (hwindow : c.transmitWindowSize = 8) (data : List Byte) :
    (c.send data).2.Ready ↔ (c.state = .csopen → c.transmitQueue.length < 7) := by
  have height : (8 : HalfWord).toNat = 8 := rfl
  unfold SharpConnection.send
  split
  case isTrue hstate => exact ⟨fun _ hopen => absurd hopen hstate, fun _ => h⟩
  case isFalse hstate =>
    have hopen := not_not.mp hstate
    rw [ready_enqueue, hwindow, height]
    exact ⟨fun hready _ => by omega, fun hlt => ⟨hopen, by have := hlt hopen; omega⟩⟩

theorem Ready.receive (h : c.Ready) : c.receive.2.Ready := by
  unfold SharpConnection.receive
  split
  · exact h
  · exact h

theorem Ready.deliver_iff (h : c.Ready) (packet : SharpPacket) :
    (SharpNetwork.deliver packet c).Ready ↔
      (packet.opcode = PacketOpcode.clsop → c.transmitQueue = []) := by
  unfold SharpNetwork.deliver
  split_ifs with hopn hcls hdat hopen
  · have hne : packet.opcode ≠ PacketOpcode.clsop := by rw [hopn]; decide
    refine ⟨fun _ hc => absurd hc hne, fun _ => ?_⟩
    obtain hempty | ⟨-, hlength⟩ := h
    · exact Or.inl hempty
    · exact Or.inr ⟨rfl, hlength⟩
  · exact ⟨fun hready _ => hready.queue_eq (fun hopen => (nomatch hopen)),
      fun hempty => Or.inl (hempty hcls)⟩
  · exact ⟨fun _ hc => absurd hc hcls, fun _ => h⟩
  · exact ⟨fun _ hc => absurd hc hcls, fun _ => h⟩
  · exact ⟨fun _ hc => absurd hc hcls, fun _ => h⟩

/-! ### The loop over the queue -/

/-- The packets handed over, and those left after them. -/
theorem sendQueued_append (c : SharpConnection) (queue : List SharpPacket) :
    (c.sendQueued queue).1 ++ (c.sendQueued queue).2 = queue := by
  induction queue with
  | nil => rfl
  | cons p rest ih =>
    unfold sendQueued
    split
    · exact congrArg (p :: ·) ih
    · rfl

/-- While the connection is open and the queue is shorter than the window, all are handed
over. -/
theorem sendQueued_of_lt (hopen : c.state = .csopen) {queue : List SharpPacket}
    (hlength : queue.length < c.transmitWindowSize.toNat) : c.sendQueued queue = (queue, []) := by
  induction queue with
  | nil => rfl
  | cons p rest ih =>
    have hcan : { c with transmitQueue := p :: rest }.canSend = true := by
      simp only [canSend, hopen, decide_true, Bool.true_and, decide_eq_true_eq]
      exact hlength
    rw [List.length_cons] at hlength
    unfold sendQueued
    rw [if_pos hcan, ih (by omega)]

/-- A ready connection hands over its whole queue. -/
theorem Ready.processConnection (h : c.Ready) :
    c.processConnection = (c.transmitQueue, { c with transmitQueue := [] }) := by
  unfold SharpConnection.processConnection
  obtain hempty | ⟨hopen, hlength⟩ := h
  · rw [hempty]
    rfl
  · rw [sendQueued_of_lt hopen hlength]

/-- Any other keeps it. -/
theorem processConnection_of_not_ready (h : ¬c.Ready) : c.processConnection = ([], c) := by
  unfold Ready at h
  push Not at h
  obtain ⟨hne, hlength⟩ := h
  have hloop : c.sendQueued c.transmitQueue = ([], c.transmitQueue) := by
    cases hqueue : c.transmitQueue with
    | nil => exact absurd hqueue hne
    | cons p rest =>
      have hcannot : ¬{ c with transmitQueue := p :: rest }.canSend = true := by
        simp only [canSend, Bool.and_eq_true, decide_eq_true_eq, not_and, not_lt]
        rw [← hqueue]
        exact hlength
      unfold sendQueued
      rw [if_neg hcannot]
  unfold SharpConnection.processConnection
  rw [hloop]

end SharpConnection

namespace SharpNetwork

variable {net net' : SharpNetwork} {k : ℕ} {index : HalfWord}
  {f : SharpConnection → SharpConnection}

/-- The table and the objects belong together. -/
structure Sound (net : SharpNetwork) : Prop where
  registered : ∀ index k, net.connections index = some k →
    k < net.created ∧ (net.objects k).localIndex = index
  fresh : ∀ k, net.created ≤ k → (net.objects k).transmitQueue = []
  window : ∀ k, (net.objects k).transmitWindowSize = 8

/-- Every registered connection is ready. -/
def AllReady (net : SharpNetwork) : Prop := ∀ k, net.Registered k → (net.objects k).Ready

/-- Packets may follow those in the queues. -/
def Grows (net net' : SharpNetwork) : Prop :=
  ∀ k, (net.objects k).transmitQueue <+: (net'.objects k).transmitQueue

theorem Grows.rfl : Grows net net := fun _ => List.prefix_rfl

theorem Grows.trans {net'' : SharpNetwork} (h : Grows net net') (h' : Grows net' net'') :
    Grows net net'' := fun k => (h k).trans (h' k)

theorem Sound.lt_created (h : net.Sound) (hk : net.Registered k) : k < net.created := by
  obtain ⟨index, hindex⟩ := hk
  exact (h.registered index k hindex).1

/-! ### A change of one connection -/

theorem Sound.modify (h : net.Sound) (hk : k < net.created)
    (hlocal : (f (net.objects k)).localIndex = (net.objects k).localIndex)
    (hwindow : (f (net.objects k)).transmitWindowSize = (net.objects k).transmitWindowSize) :
    (net.modify k f).Sound where
  registered := by
    intro index j hj
    obtain ⟨hlt, hindex⟩ := h.registered index j hj
    refine ⟨hlt, ?_⟩
    by_cases hjk : j = k
    · subst hjk
      rw [objects_modify_self, hlocal, hindex]
    · rw [objects_modify_of_ne hjk, hindex]
  fresh := by
    intro j hj
    change net.created ≤ j at hj
    rw [objects_modify_of_ne (by omega)]
    exact h.fresh j hj
  window := by
    intro j
    by_cases hjk : j = k
    · subst hjk
      rw [objects_modify_self, hwindow, h.window]
    · rw [objects_modify_of_ne hjk, h.window]

theorem grows_modify (hf : (net.objects k).Extends (f (net.objects k))) :
    Grows net (net.modify k f) := by
  intro j
  by_cases hjk : j = k
  · subst hjk
    rw [objects_modify_self]
    exact hf.queue
  · rw [objects_modify_of_ne hjk]

/-- It leaves all ready exactly if it leaves that one ready, if that is registered. -/
theorem AllReady.modify_iff (h : net.AllReady) :
    (net.modify k f).AllReady ↔ (net.Registered k → (f (net.objects k)).Ready) := by
  constructor
  · intro hready hk
    have hone := hready k hk
    rwa [objects_modify_self] at hone
  · intro hready j hj
    by_cases hjk : j = k
    · subst hjk
      rw [objects_modify_self]
      exact hready hj
    · rw [objects_modify_of_ne hjk]
      exact h j hj

theorem AllReady.call_iff (h : net.AllReady) (hs : net.Sound) :
    (net.call k f).AllReady ↔ (net.Registered k → (f (net.objects k)).Ready) := by
  unfold call
  split
  · exact h.modify_iff
  case isFalse hk => exact ⟨fun _ hreg => absurd (hs.lt_created hreg) hk, fun _ => h⟩

theorem Sound.call (h : net.Sound) (hf : (net.objects k).Extends (f (net.objects k))) :
    (net.call k f).Sound := by
  unfold SharpNetwork.call
  split
  case isTrue hk => exact h.modify hk hf.localIndex hf.window
  · exact h

theorem grows_call (hf : (net.objects k).Extends (f (net.objects k))) :
    Grows net (net.call k f) := by
  unfold call
  split
  · exact grows_modify hf
  · exact .rfl

/-! ### A new connection -/

theorem Sound.createConnection (h : net.Sound) : net.createConnection.Sound where
  registered := by
    intro index k hk
    obtain ⟨rfl, rfl⟩ | hk := connections_createConnection hk
    · rw [objects_createConnection]
      exact ⟨Nat.lt_succ_self _, rfl⟩
    · obtain ⟨hlt, hlocal⟩ := h.registered index k hk
      rw [objects_createConnection_of_ne (by omega)]
      exact ⟨Nat.lt_succ_of_lt hlt, hlocal⟩
  fresh := by
    intro k hk
    change net.created + 1 ≤ k at hk
    rw [objects_createConnection_of_ne (by omega)]
    exact h.fresh k (by omega)
  window := by
    intro k
    by_cases hk : k = net.created
    · subst hk
      rw [objects_createConnection]
      rfl
    · rw [objects_createConnection_of_ne hk, h.window]

theorem Sound.grows_createConnection (h : net.Sound) : Grows net net.createConnection := by
  intro k
  by_cases hk : k = net.created
  · subst hk
    rw [h.fresh net.created (le_refl _)]
    exact List.nil_prefix
  · rw [objects_createConnection_of_ne hk]

theorem AllReady.createConnection (h : net.AllReady) (hs : net.Sound) :
    net.createConnection.AllReady := by
  rintro k ⟨index, hk⟩
  obtain ⟨rfl, rfl⟩ | hk := connections_createConnection hk
  · rw [objects_createConnection]
    exact Or.inl rfl
  · have hlt := (hs.registered index k hk).1
    rw [objects_createConnection_of_ne (by omega)]
    exact h k ⟨index, hk⟩

/-! ### The table loses an entry -/

theorem Sound.tryRemove (h : net.Sound) : (net.tryRemove index).Sound :=
  ⟨fun j k hk => h.registered j k (connections_tryRemove hk).2, h.fresh, h.window⟩

theorem AllReady.tryRemove (h : net.AllReady) : (net.tryRemove index).AllReady := by
  rintro k ⟨j, hk⟩
  exact h k ⟨j, (connections_tryRemove hk).2⟩

/-- The connection that was registered there is registered no more. -/
theorem Sound.not_registered_tryRemove (h : net.Sound) (hk : net.connections index = some k) :
    ¬(net.tryRemove index).Registered k := by
  rintro ⟨j, hj⟩
  obtain ⟨hne, hj⟩ := connections_tryRemove hj
  exact hne ((h.registered j k hj).2.symm.trans (h.registered index k hk).2)

/-! ### The events -/

theorem Sound.requested (h : net.Sound) (packet : SharpPacket) : (net.requested packet).Sound :=
  h.createConnection.modify (Nat.lt_succ_self _) rfl rfl

theorem Sound.grows_requested (h : net.Sound) (packet : SharpPacket) :
    Grows net (net.requested packet) :=
  h.grows_createConnection.trans (grows_modify (SharpConnection.extends_update _ _ _ _ _))

theorem AllReady.requested (h : net.AllReady) (hs : net.Sound) (packet : SharpPacket) :
    (net.requested packet).AllReady := by
  refine (h.createConnection hs).modify_iff.mpr fun _ => ?_
  rw [objects_createConnection]
  exact Or.inl rfl

theorem Sound.handleRFC (h : net.Sound) (packet : SharpPacket) (answer : Option Bool) :
    (net.handleRFC packet answer).Sound ∧ Grows net (net.handleRFC packet answer) := by
  have hrequested := h.requested packet
  have hlt : net.created < (net.requested packet).created := Nat.lt_succ_self _
  match answer with
  | some true =>
    have hf := SharpConnection.extends_accept ((net.requested packet).objects net.created)
    exact ⟨hrequested.modify hlt hf.localIndex hf.window,
      (h.grows_requested packet).trans (grows_modify hf)⟩
  | some false =>
    have hf := SharpConnection.extends_reject "Connection refused"
      ((net.requested packet).objects net.created)
    exact ⟨hrequested.modify hlt hf.localIndex hf.window,
      (h.grows_requested packet).trans (grows_modify hf)⟩
  | none => exact ⟨⟨h.registered, h.fresh, h.window⟩, .rfl⟩

/-- Only a refusal leaves a connection that is not ready. -/
theorem AllReady.handleRFC_iff (h : net.AllReady) (hs : net.Sound) (packet : SharpPacket)
    (answer : Option Bool) : (net.handleRFC packet answer).AllReady ↔ answer ≠ some false := by
  have hrequested := h.requested hs packet
  have hregistered : (net.requested packet).Registered net.created := registered_createConnection
  have hready := hrequested net.created hregistered
  match answer with
  | some true =>
    refine ⟨fun _ => by decide, fun _ => hrequested.modify_iff.mpr fun _ => ?_⟩
    exact hready.accept ((hs.requested packet).window _)
  | some false =>
    refine ⟨fun hall => absurd (hrequested.modify_iff.mp hall hregistered) ?_,
      fun hne => absurd rfl hne⟩
    rw [hready.reject_iff, objects_requested]
    exact fun hne => hne rfl
  | none => exact ⟨fun _ => by decide, fun _ => h⟩

/-- The condition under which an event leaves all registered connections ready. -/
def Draining : NetworkEvent → SharpNetwork → Prop
  | .open k _ _ _, net => ¬net.Registered k
  | .reject k _, net => net.Registered k → (net.objects k).state ≠ .csrfcrcvd
  | .close k _, net => net.Registered k → (net.objects k).state = .csclosed
  | .send k _, net => net.Registered k → (net.objects k).state = .csopen →
      (net.objects k).transmitQueue.length < 7
  | .incoming packet answer, net =>
    if packet.opcode = PacketOpcode.rfcop then answer ≠ some false
    else packet.opcode = PacketOpcode.clsop →
      ∀ k, net.destination packet = some k → (net.objects k).transmitQueue = []
  | _, _ => True

/-- The connection that a packet is for is registered. -/
theorem registered_of_destination {packet : SharpPacket} (h : net.destination packet = some k) :
    net.Registered k := by
  unfold destination at h
  split at h
  · exact ⟨_, h⟩
  · cases h

theorem Sound.processIncomingPacket (h : net.Sound) (packet : SharpPacket)
    (answer : Option Bool) : (net.processIncomingPacket packet answer).Sound ∧
      Grows net (net.processIncomingPacket packet answer) := by
  unfold SharpNetwork.processIncomingPacket
  split_ifs
  · exact h.handleRFC packet answer
  · exact ⟨⟨h.registered, h.fresh, h.window⟩, .rfl⟩
  · cases hdestination : net.destination packet with
    | none => exact ⟨h, .rfl⟩
    | some k =>
      have hlt := h.lt_created (registered_of_destination hdestination)
      have hf := extends_deliver packet (net.objects k)
      exact ⟨h.modify hlt hf.localIndex hf.window, grows_modify hf⟩

theorem AllReady.processIncomingPacket_iff (h : net.AllReady) (hs : net.Sound)
    (packet : SharpPacket) (answer : Option Bool) :
    (net.processIncomingPacket packet answer).AllReady ↔
      Draining (.incoming packet answer) net := by
  simp only [SharpNetwork.processIncomingPacket, Draining]
  split_ifs with hrfc hsns
  · exact h.handleRFC_iff hs packet answer
  · have hne : packet.opcode ≠ PacketOpcode.clsop := by rw [hsns]; decide
    exact ⟨fun _ hcls => absurd hcls hne, fun _ => h⟩
  · cases hdestination : net.destination packet with
    | none => exact ⟨fun _ _ k hk => (nomatch hk), fun _ => h⟩
    | some k =>
      have hregistered := registered_of_destination hdestination
      have hdeliver := (h k hregistered).deliver_iff packet
      refine h.modify_iff.trans ⟨fun hready hcls j hj => ?_, fun hempty _ => ?_⟩
      · cases hj
        exact hdeliver.mp (hready hregistered) hcls
      · exact hdeliver.mpr fun hcls => hempty hcls k rfl

theorem Sound.closeConnection (h : net.Sound) :
    (net.closeConnection index).Sound ∧ Grows net (net.closeConnection index) := by
  unfold SharpNetwork.closeConnection
  cases hk : net.connections index with
  | none => exact ⟨h, .rfl⟩
  | some k =>
    have hf := SharpConnection.extends_close none (net.objects k)
    exact ⟨h.tryRemove.modify (h.registered index k hk).1 hf.localIndex hf.window,
      @grows_modify (net.tryRemove index) _ _ hf⟩

theorem AllReady.closeConnection (h : net.AllReady) (hs : net.Sound) :
    (net.closeConnection index).AllReady := by
  unfold SharpNetwork.closeConnection
  cases hk : net.connections index with
  | none => exact h
  | some k =>
    exact h.tryRemove.modify_iff.mpr fun hreg => absurd hreg (hs.not_registered_tryRemove hk)

theorem Sound.cleanupConnection (h : net.Sound) :
    (net.cleanupConnection index).Sound ∧ Grows net (net.cleanupConnection index) := by
  unfold SharpNetwork.cleanupConnection
  cases net.connections index with
  | none => exact ⟨h, .rfl⟩
  | some k =>
    dsimp only
    split_ifs
    · exact ⟨h.tryRemove, .rfl⟩
    · exact ⟨h, .rfl⟩

theorem AllReady.cleanupConnection (h : net.AllReady) : (net.cleanupConnection index).AllReady := by
  unfold SharpNetwork.cleanupConnection
  cases net.connections index with
  | none => exact h
  | some k =>
    dsimp only
    split_ifs
    · exact h.tryRemove
    · exact h

/-- Every event but an iteration keeps the table and lets the queues grow. -/
theorem Sound.next_grows (h : net.Sound) {e : NetworkEvent} (he : ∀ index, e ≠ .iteration index) :
    (net.next e).Sound ∧ Grows net (net.next e) := by
  have hcall : ∀ {k f}, (net.objects k).Extends (f (net.objects k)) →
      (net.call k f).Sound ∧ Grows net (net.call k f) := fun hf => ⟨h.call hf, grows_call hf⟩
  cases e with
  | createConnection => exact ⟨h.createConnection, h.grows_createConnection⟩
  | «open» k remoteHost contactName data => exact hcall (SharpConnection.extends_open _ _ _ _)
  | accept k => exact hcall (SharpConnection.extends_accept _)
  | reject k reason => exact hcall (SharpConnection.extends_reject _ _)
  | close k reason => exact hcall (SharpConnection.extends_close _ _)
  | send k data => exact hcall (SharpConnection.extends_send data _)
  | receive k => exact hcall (SharpConnection.extends_receive _)
  | closeConnection index => exact h.closeConnection
  | incoming packet answer => exact h.processIncomingPacket packet answer
  | outgoing => exact ⟨⟨h.registered, h.fresh, h.window⟩, .rfl⟩
  | iteration index => exact absurd rfl (he index)
  | cleanup index => exact h.cleanupConnection

theorem AllReady.next_iff (h : net.AllReady) (hs : net.Sound) {e : NetworkEvent}
    (he : ∀ index, e ≠ .iteration index) : (net.next e).AllReady ↔ Draining e net := by
  have hready : ∀ {k}, net.Registered k → (net.objects k).Ready := fun hk => h _ hk
  cases e with
  | createConnection => exact ⟨fun _ => trivial, fun _ => h.createConnection hs⟩
  | «open» k remoteHost contactName data =>
    exact (h.call_iff hs).trans (forall_congr' fun _ =>
      iff_false_intro (SharpConnection.not_ready_open remoteHost contactName data))
  | accept k =>
    exact ⟨fun _ => trivial,
      fun _ => (h.call_iff hs).mpr fun hk => (hready hk).accept (hs.window k)⟩
  | reject k reason =>
    exact (h.call_iff hs).trans (forall_congr' fun hk => (hready hk).reject_iff reason)
  | close k reason =>
    exact (h.call_iff hs).trans (forall_congr' fun hk => (hready hk).close_iff reason)
  | send k data =>
    exact (h.call_iff hs).trans
      (forall_congr' fun hk => (hready hk).send_iff (hs.window k) data)
  | receive k =>
    exact ⟨fun _ => trivial, fun _ => (h.call_iff hs).mpr fun hk => (hready hk).receive⟩
  | closeConnection index => exact ⟨fun _ => trivial, fun _ => h.closeConnection hs⟩
  | incoming packet answer => exact h.processIncomingPacket_iff hs packet answer
  | outgoing => exact ⟨fun _ => trivial, fun _ => h⟩
  | iteration index => exact absurd rfl (he index)
  | cleanup index => exact ⟨fun _ => trivial, fun _ => h.cleanupConnection⟩

/-- An iteration keeps the table. -/
theorem Sound.processConnection (h : net.Sound) : (net.processConnection index).Sound := by
  unfold SharpNetwork.processConnection
  cases hk : net.connections index with
  | none => exact h
  | some k =>
    have hsent : ({ net with outgoingPackets :=
        net.outgoingPackets ++ (net.objects k).processConnection.1 } : SharpNetwork).Sound :=
      ⟨h.registered, h.fresh, h.window⟩
    exact hsent.modify (h.registered index k hk).1 rfl rfl

/-- It leaves all ready. -/
theorem AllReady.processConnection (h : net.AllReady) : (net.processConnection index).AllReady := by
  unfold SharpNetwork.processConnection
  cases hk : net.connections index with
  | none => exact h
  | some k =>
    have hsent : ({ net with outgoingPackets :=
        net.outgoingPackets ++ (net.objects k).processConnection.1 } : SharpNetwork).AllReady := h
    refine hsent.modify_iff.mpr fun hregistered => ?_
    rw [(h k hregistered).processConnection]
    exact Or.inl rfl

end SharpNetwork

/-- The network, the packets that calls enqueued on every connection, and those that the loop
handed to `SendPacket`. -/
structure NetworkRun where
  net : SharpNetwork
  enqueued : ℕ → List SharpPacket
  handed : ℕ → List SharpPacket

namespace NetworkRun

variable {s : NetworkRun} {e : NetworkEvent} {es : List NetworkEvent} {k : ℕ} {index : HalfWord}

def start (localAddress : HalfWord) : NetworkRun :=
  { net := .start localAddress, enqueued := fun _ => [], handed := fun _ => [] }

/-- The packets handed over by an event. -/
def handedAfter (s : NetworkRun) : NetworkEvent → ℕ → List SharpPacket
  | .iteration index =>
    match s.net.connections index with
    | none => s.handed
    | some k => Function.update s.handed k (s.handed k ++ (s.net.objects k).processConnection.1)
  | _ => s.handed

/-- One event. What a call enqueues is what follows the queue as it was. -/
def next (e : NetworkEvent) (s : NetworkRun) : NetworkRun :=
  { net := s.net.next e
    enqueued := fun k => s.enqueued k ++
      ((s.net.next e).objects k).transmitQueue.drop (s.net.objects k).transmitQueue.length
    handed := s.handedAfter e }

/-- One event, as a step of a run. -/
def step (e : NetworkEvent) (s : NetworkRun) : Except Empty NetworkRun := .ok (s.next e)

/-- On every connection packets were handed over once and in the order of the calls, and on a
registered one some number of further iterations hands over all that were enqueued. -/
structure Delivers (s : NetworkRun) : Prop where
  inOrder : ∀ k, s.handed k <+: s.enqueued k
  drains : ∀ index k, s.net.connections index = some k →
    ∃ n, ((next (.iteration index))^[n] s).handed k = s.enqueued k

/-- The record and the queues belong together. -/
structure Recorded (s : NetworkRun) : Prop where
  sound : s.net.Sound
  sent : ∀ k, s.handed k ++ (s.net.objects k).transmitQueue = s.enqueued k

theorem recorded_start (localAddress : HalfWord) : Recorded (start localAddress) where
  sound := ⟨fun _ _ hk => (nomatch hk), fun _ _ => rfl, fun _ => rfl⟩
  sent := fun _ => rfl

/-- No connection is registered. -/
theorem allReady_start (localAddress : HalfWord) : (start localAddress).net.AllReady := by
  rintro k ⟨index, hk⟩
  cases hk

/-- An iteration of a connection that is registered. -/
theorem Recorded.iteration (h : Recorded s) : Recorded (s.next (.iteration index)) := by
  refine ⟨h.sound.processConnection, fun j => ?_⟩
  change s.handedAfter (.iteration index) j ++
      ((s.net.processConnection index).objects j).transmitQueue = s.enqueued j ++
      ((s.net.processConnection index).objects j).transmitQueue.drop
        (s.net.objects j).transmitQueue.length
  cases hk : s.net.connections index with
  | none =>
    simp only [handedAfter, SharpNetwork.processConnection, hk, List.drop_length, List.append_nil]
    exact h.sent j
  | some k =>
    simp only [handedAfter, SharpNetwork.processConnection, hk]
    by_cases hj : j = k
    · subst hj
      have happend := SharpConnection.sendQueued_append (s.net.objects j)
        (s.net.objects j).transmitQueue
      have hlength := congrArg List.length happend
      rw [List.length_append] at hlength
      rw [Function.update_self, SharpNetwork.objects_modify_self]
      dsimp only [SharpConnection.processConnection]
      rw [List.drop_of_length_le (by omega), List.append_nil, List.append_assoc, happend]
      exact h.sent j
    · rw [Function.update_of_ne hj, SharpNetwork.objects_modify_of_ne hj, List.drop_length,
        List.append_nil]
      exact h.sent j

/-- Every event keeps the record. -/
theorem Recorded.next (h : Recorded s) (e : NetworkEvent) : Recorded (s.next e) := by
  by_cases he : ∀ index, e ≠ .iteration index
  · obtain ⟨hsound, hgrows⟩ := h.sound.next_grows he
    have hhanded : s.handedAfter e = s.handed := by
      cases e with
      | iteration index => exact absurd rfl (he index)
      | _ => rfl
    refine ⟨hsound, fun k => ?_⟩
    change s.handedAfter e k ++ ((s.net.next e).objects k).transmitQueue = s.enqueued k ++
      ((s.net.next e).objects k).transmitQueue.drop (s.net.objects k).transmitQueue.length
    rw [hhanded, ← h.sent k, List.append_assoc]
    exact congrArg _ (List.prefix_iff_eq_append.mp (hgrows k)).symm
  · push Not at he
    obtain ⟨index, rfl⟩ := he
    exact h.iteration

/-- All registered connections are ready after an event exactly if it meets the condition. -/
theorem Recorded.allReady_iff (h : Recorded s) (hready : s.net.AllReady) :
    (s.next e).net.AllReady ↔ SharpNetwork.Draining e s.net := by
  by_cases he : ∀ index, e ≠ .iteration index
  · exact hready.next_iff h.sound he
  · push Not at he
    obtain ⟨index, rfl⟩ := he
    exact ⟨fun _ => trivial, fun _ => hready.processConnection⟩

/-- An iteration of a connection that is not ready changes nothing. -/
theorem next_of_not_ready (hk : s.net.connections index = some k)
    (hready : ¬(s.net.objects k).Ready) : s.next (.iteration index) = s := by
  have hprocess := SharpConnection.processConnection_of_not_ready hready
  have hnet : s.net.next (.iteration index) = s.net := by
    change s.net.processConnection index = s.net
    unfold SharpNetwork.processConnection
    simp only [hk, SharpNetwork.modify, hprocess, List.append_nil, Function.update_eq_self]
  have hhanded : s.handedAfter (.iteration index) = s.handed := by
    unfold handedAfter
    simp only [hk, hprocess, List.append_nil, Function.update_eq_self]
  unfold next
  rw [hnet, hhanded]
  simp only [List.drop_length, List.append_nil]

/-- The packets are delivered in exactly those states where all registered connections are
ready. -/
theorem Recorded.delivers_iff_allReady (h : Recorded s) : Delivers s ↔ s.net.AllReady := by
  constructor
  · rintro hdelivers k ⟨index, hk⟩
    obtain ⟨n, hn⟩ := hdelivers.drains index k hk
    by_contra hready
    rw [Function.iterate_fixed (next_of_not_ready hk hready), ← h.sent k] at hn
    have hempty : (s.net.objects k).transmitQueue = [] := by simpa using hn
    exact hready (Or.inl hempty)
  · intro hready
    refine ⟨fun k => ⟨_, h.sent k⟩, fun index k hk => ⟨1, ?_⟩⟩
    change s.handedAfter (.iteration index) k = s.enqueued k
    simp only [handedAfter, hk]
    rw [Function.update_self, (hready k ⟨index, hk⟩).processConnection]
    exact h.sent k

/-- In every run of the network the packets are delivered in every state if and only if every
event leaves the registered connections able to send. -/
theorem transmit_queues_drain (localAddress : HalfWord) :
    Lib.Always step Delivers es (start localAddress) ↔
      Lib.EveryStep step (fun e s => SharpNetwork.Draining e s.net) es (start localAddress) := by
  refine Lib.always_iff_everyStep (I := fun s => Recorded s ∧ s.net.AllReady)
    (fun s hs => hs.1.delivers_iff_allReady.mpr hs.2) ?_ ?_
    ⟨recorded_start localAddress, allReady_start localAddress⟩
  · rintro e s s' ⟨hs, hready⟩ hstep hc
    cases hstep
    exact ⟨hs.next e, (hs.allReady_iff hready).mpr hc⟩
  · rintro e s s' ⟨hs, hready⟩ hstep hdelivers
    cases hstep
    exact (hs.allReady_iff hready).mp ((hs.next e).delivers_iff_allReady.mp hdelivers)

/-- The RFC of `Open` stays in the queue. -/
theorem transmit_queue_of_open : ¬Lib.Always step Delivers
    [.createConnection, .open 0 0o401 "FILE" none] (start 0o177001) := by
  intro h
  have hdelivers := ((h.2 _ rfl).2 _ rfl).head
  have hrecorded := ((recorded_start 0o177001).next .createConnection).next
    (.open 0 0o401 "FILE" none)
  obtain hempty | hopen := hrecorded.delivers_iff_allReady.mp hdelivers 0 ⟨1, rfl⟩
  · exact List.cons_ne_nil _ _ hempty
  · exact SharpConnectionState.noConfusion hopen.1

end NetworkRun

end Usim
