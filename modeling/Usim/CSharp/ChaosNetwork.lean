import Mathlib.Data.List.Infix
import Mathlib.Logic.Function.Basic
import Usim.Interrupts
import Usim.Lib.Bytes

/-!
# The Chaos network of the C# port

The classes `ChaosConnection` and `ChaosNetwork`. Connection objects are numbered in the
order of their creation. The queue of the incoming packets, the times and the statistics
are left out: a packet arrives when the loop processes it, and a closed connection may be
cleaned up at any time.
-/

namespace Usim

open Lib

/-- The bytes of a text in ASCII. -/
def asciiBytes (s : String) : List Byte := s.toList.map fun c => BitVec.ofNat 8 c.toNat

/-- `enum ConnectionState`. -/
inductive SharpConnectionState
  | csclosed | cslisten | csrfcrcvd | csrfcsent | csopen | cslost | csinct
  deriving DecidableEq, Repr

/-! The values of `enum PacketOpcode` that the network tells apart. -/

namespace PacketOpcode

/-- Request for connection. -/
def rfcop : Byte := 1

/-- Open connection. -/
def opnop : Byte := 2

/-- Close connection. -/
def clsop : Byte := 3

/-- Sense packet. -/
def snsop : Byte := 6

/-- Status packet. -/
def stsop : Byte := 7

/-- End of file packet. -/
def eofop : Byte := 12

/-- Ordinary character data. -/
def datop : Byte := 128

end PacketOpcode

/-- The class `ChaosPacket`. -/
structure SharpPacket where
  opcode : Byte
  destAddress : HalfWord
  destIndex : HalfWord
  sourceAddress : HalfWord
  sourceIndex : HalfWord
  packetNumber : HalfWord
  ackNumber : HalfWord
  data : List Byte
  deriving DecidableEq

/-- The class `ChaosConnection`. -/
structure SharpConnection where
  localIndex : HalfWord
  remoteIndex : HalfWord
  localAddress : HalfWord
  remoteAddress : HalfWord
  state : SharpConnectionState
  transmitWindowSize : HalfWord
  localPacketNumber : HalfWord
  remotePacketNumber : HalfWord
  receiveQueue : List SharpPacket
  transmitQueue : List SharpPacket

namespace SharpConnection

/-- The constructor, with the index and the address that `CreateConnection` sets. -/
def construct (localIndex localAddress : HalfWord) : SharpConnection :=
  { localIndex := localIndex, remoteIndex := 0, localAddress := localAddress, remoteAddress := 0
    state := .csclosed, transmitWindowSize := 8, localPacketNumber := 0, remotePacketNumber := 0
    receiveQueue := [], transmitQueue := [] }

/-- The packet that `Accept`, `Reject`, `Close` and `Send` make. -/
def packet (c : SharpConnection) (opcode : Byte) (data : List Byte) : SharpPacket :=
  { opcode := opcode, destAddress := c.remoteAddress, destIndex := c.remoteIndex
    sourceAddress := c.localAddress, sourceIndex := c.localIndex
    packetNumber := c.localPacketNumber, ackNumber := c.remotePacketNumber, data := data }

/-- `TransmitQueue.Enqueue` of a packet that took the next packet number. -/
def enqueue (c : SharpConnection) (p : SharpPacket) : SharpConnection :=
  { c with
    localPacketNumber := c.localPacketNumber + 1
    transmitQueue := c.transmitQueue ++ [p] }

/-- `Open`. -/
def «open» (remoteHost : HalfWord) (contactName : String) (data : Option (List Byte))
    (c : SharpConnection) : SharpConnection :=
  let contactBytes := asciiBytes contactName
  { c with remoteAddress := remoteHost, state := .csrfcsent }.enqueue
    { opcode := PacketOpcode.rfcop, destAddress := remoteHost, destIndex := 0
      sourceAddress := c.localAddress, sourceIndex := c.localIndex
      packetNumber := c.localPacketNumber, ackNumber := 0
      data := match data with
        | some data => contactBytes ++ 0 :: data
        | none => contactBytes }

/-- `Accept`. -/
def accept (c : SharpConnection) : SharpConnection :=
  if c.state ≠ .csrfcrcvd then c
  else { c with state := .csopen }.enqueue (c.packet PacketOpcode.opnop [])

/-- `Reject`. -/
def reject (reason : String) (c : SharpConnection) : SharpConnection :=
  if c.state ≠ .csrfcrcvd then c
  else { c with state := .csclosed }.enqueue (c.packet PacketOpcode.clsop (asciiBytes reason))

/-- `Close`. -/
def close (reason : Option String) (c : SharpConnection) : SharpConnection :=
  if c.state = .csclosed then c
  else { c with state := .csclosed }.enqueue
    (c.packet PacketOpcode.clsop ((reason.map asciiBytes).getD []))

/-- `Send`, with the length that it returns. -/
def send (data : List Byte) (c : SharpConnection) : ℤ × SharpConnection :=
  if c.state ≠ .csopen then (-1, c)
  else (data.length, c.enqueue (c.packet PacketOpcode.datop data))

/-- `HasDataAvailable`. -/
def hasDataAvailable (c : SharpConnection) : Bool := !c.receiveQueue.isEmpty

/-- `Receive`. -/
def receive (c : SharpConnection) : Option (List Byte) × SharpConnection :=
  match c.receiveQueue with
  | [] => (none, c)
  | packet :: rest => (some packet.data, { c with receiveQueue := rest })

/-- `CanSend`. -/
def canSend (c : SharpConnection) : Bool :=
  c.state = .csopen && c.transmitQueue.length < c.transmitWindowSize.toNat

/-- The loop of `ProcessConnection`, on the packets of the queue: the packets it hands to
`SendPacket`, and those left. -/
def sendQueued (c : SharpConnection) : List SharpPacket → List SharpPacket × List SharpPacket
  | [] => ([], [])
  | packet :: rest =>
    if { c with transmitQueue := packet :: rest }.canSend then
      let (sent, left) := c.sendQueued rest
      (packet :: sent, left)
    else ([], packet :: rest)

/-- `ProcessConnection`. -/
def processConnection (c : SharpConnection) : List SharpPacket × SharpConnection :=
  let (sent, left) := c.sendQueued c.transmitQueue
  (sent, { c with transmitQueue := left })

/-! ### What a call leaves -/

variable {c c' : SharpConnection}

/-- What a call leaves of a connection: packets may follow those in the queue. -/
structure Extends (c c' : SharpConnection) : Prop where
  localIndex : c'.localIndex = c.localIndex
  window : c'.transmitWindowSize = c.transmitWindowSize
  queue : c.transmitQueue <+: c'.transmitQueue

theorem Extends.rfl : Extends c c := ⟨Eq.refl _, Eq.refl _, List.prefix_rfl⟩

/-- A packet is enqueued. -/
theorem Extends.enqueue (h : Extends c c') (p : SharpPacket) : Extends c (c'.enqueue p) :=
  ⟨h.localIndex, h.window, h.queue.trans (List.prefix_append _ _)⟩

/-- A change of the state, the other side or the packets received. -/
theorem extends_update (c : SharpConnection) (state : SharpConnectionState)
    (remoteAddress remoteIndex : HalfWord) (receiveQueue : List SharpPacket) :
    Extends c { c with
      state := state, remoteAddress := remoteAddress, remoteIndex := remoteIndex
      receiveQueue := receiveQueue } :=
  ⟨Eq.refl _, Eq.refl _, List.prefix_rfl⟩

theorem extends_open (remoteHost : HalfWord) (contactName : String) (data : Option (List Byte))
    (c : SharpConnection) : Extends c (c.open remoteHost contactName data) :=
  (extends_update c .csrfcsent remoteHost c.remoteIndex c.receiveQueue).enqueue _

theorem extends_accept (c : SharpConnection) : Extends c c.accept := by
  unfold accept
  split
  · exact .rfl
  · exact (extends_update c .csopen c.remoteAddress c.remoteIndex c.receiveQueue).enqueue _

theorem extends_reject (reason : String) (c : SharpConnection) : Extends c (c.reject reason) := by
  unfold reject
  split
  · exact .rfl
  · exact (extends_update c .csclosed c.remoteAddress c.remoteIndex c.receiveQueue).enqueue _

theorem extends_close (reason : Option String) (c : SharpConnection) :
    Extends c (c.close reason) := by
  unfold close
  split
  · exact .rfl
  · exact (extends_update c .csclosed c.remoteAddress c.remoteIndex c.receiveQueue).enqueue _

theorem extends_send (data : List Byte) (c : SharpConnection) : Extends c (c.send data).2 := by
  unfold send
  split
  · exact .rfl
  · exact Extends.rfl.enqueue _

theorem extends_receive (c : SharpConnection) : Extends c c.receive.2 := by
  unfold receive
  split
  · exact .rfl
  · exact extends_update c c.state c.remoteAddress c.remoteIndex _

end SharpConnection

/-- The class `ChaosNetwork`. -/
structure SharpNetwork where
  localAddress : HalfWord
  /-- The number of connections created. -/
  created : ℕ
  /-- The connection objects. -/
  objects : ℕ → SharpConnection
  /-- `_connections`. -/
  connections : HalfWord → Option ℕ
  /-- `_nextConnectionIndex`. -/
  nextConnectionIndex : HalfWord
  /-- `_outgoingPackets`. -/
  outgoingPackets : List SharpPacket

/-- What happens in the network. -/
inductive NetworkEvent
  | createConnection
  /-- `Open` of connection `k`. -/
  | «open» (k : ℕ) (remoteHost : HalfWord) (contactName : String) (data : Option (List Byte))
  | accept (k : ℕ)
  | reject (k : ℕ) (reason : String)
  | close (k : ℕ) (reason : Option String)
  | send (k : ℕ) (data : List Byte)
  | receive (k : ℕ)
  | closeConnection (index : HalfWord)
  /-- The loop processes a packet. If it is an RFC, the listener for its contact name, if
  there is one, returns `answer`. -/
  | incoming (packet : SharpPacket) (answer : Option Bool)
  /-- The loop processes an outgoing packet. -/
  | outgoing
  /-- The loop processes the connection that is registered under an index. -/
  | iteration (index : HalfWord)
  /-- The loop removes a connection that has been closed for long. -/
  | cleanup (index : HalfWord)

namespace SharpNetwork

/-- `Initialize`, before the first connection. -/
def start (localAddress : HalfWord) : SharpNetwork :=
  { localAddress := localAddress, created := 0, objects := fun _ => .construct 0 localAddress
    connections := fun _ => none, nextConnectionIndex := 1, outgoingPackets := [] }

/-- Connection `k` changes. -/
def modify (k : ℕ) (f : SharpConnection → SharpConnection) (net : SharpNetwork) : SharpNetwork :=
  { net with objects := Function.update net.objects k (f (net.objects k)) }

/-- A method of connection `k` is called, if it exists. -/
def call (k : ℕ) (f : SharpConnection → SharpConnection) (net : SharpNetwork) : SharpNetwork :=
  if k < net.created then net.modify k f else net

/-- `CreateConnection`. The new connection is the one numbered `net.created`. -/
def createConnection (net : SharpNetwork) : SharpNetwork :=
  { net with
    created := net.created + 1
    objects := Function.update net.objects net.created
      (.construct net.nextConnectionIndex net.localAddress)
    connections := Function.update net.connections net.nextConnectionIndex (some net.created)
    nextConnectionIndex := net.nextConnectionIndex + 1 }

/-- `_connections.TryRemove`. -/
def tryRemove (index : HalfWord) (net : SharpNetwork) : SharpNetwork :=
  { net with connections := Function.update net.connections index none }

/-- `CloseConnection`. -/
def closeConnection (index : HalfWord) (net : SharpNetwork) : SharpNetwork :=
  match net.connections index with
  | none => net
  | some k => (net.tryRemove index).modify k (.close none)

/-- `SendPacket`. -/
def sendPacket (packet : SharpPacket) (net : SharpNetwork) : SharpNetwork :=
  { net with outgoingPackets := net.outgoingPackets ++ [packet] }

/-- The packet that `HandleSNS` and `SendRejection` send. -/
def response (opcode : Byte) (packet : SharpPacket) (data : List Byte) (net : SharpNetwork) :
    SharpPacket :=
  { opcode := opcode, destAddress := packet.sourceAddress, destIndex := packet.sourceIndex
    sourceAddress := net.localAddress, sourceIndex := 0, packetNumber := 0, ackNumber := 0
    data := data }

/-- The connection of an RFC, before its listener is called. -/
def requested (packet : SharpPacket) (net : SharpNetwork) : SharpNetwork :=
  net.createConnection.modify net.created fun c =>
    { c with
      state := .csrfcrcvd
      remoteAddress := packet.sourceAddress
      remoteIndex := packet.sourceIndex }

/-- `HandleRFC`. -/
def handleRFC (packet : SharpPacket) (answer : Option Bool) (net : SharpNetwork) : SharpNetwork :=
  match answer with
  | some true => (net.requested packet).modify net.created .accept
  | some false => (net.requested packet).modify net.created (.reject "Connection refused")
  | none => net.sendPacket
      (net.response PacketOpcode.clsop packet (asciiBytes "No such contact name"))

/-- The connection that a packet is for. -/
def destination (packet : SharpPacket) (net : SharpNetwork) : Option ℕ :=
  if packet.destIndex ≠ 0 then net.connections packet.destIndex else none

/-- What a packet does to the connection it is for. -/
def deliver (packet : SharpPacket) (c : SharpConnection) : SharpConnection :=
  if packet.opcode = PacketOpcode.opnop then
    { c with
      state := .csopen
      remoteAddress := packet.sourceAddress
      remoteIndex := packet.sourceIndex }
  else if packet.opcode = PacketOpcode.clsop then { c with state := .csclosed }
  else if packet.opcode = PacketOpcode.datop ∨ packet.opcode = PacketOpcode.eofop then
    if c.state = .csopen then { c with receiveQueue := c.receiveQueue ++ [packet] } else c
  else c

/-- `ProcessIncomingPacket`. `HandleSTS` does nothing, nor does any other opcode. -/
def processIncomingPacket (packet : SharpPacket) (answer : Option Bool) (net : SharpNetwork) :
    SharpNetwork :=
  if packet.opcode = PacketOpcode.rfcop then net.handleRFC packet answer
  else if packet.opcode = PacketOpcode.snsop then
    net.sendPacket (net.response PacketOpcode.stsop packet [])
  else match net.destination packet with
    | none => net
    | some k => net.modify k (deliver packet)

/-- `ProcessConnection`, for the connection that is registered under an index. -/
def processConnection (index : HalfWord) (net : SharpNetwork) : SharpNetwork :=
  match net.connections index with
  | none => net
  | some k =>
    { net with outgoingPackets := net.outgoingPackets ++ (net.objects k).processConnection.1 }
      |>.modify k fun c => c.processConnection.2

/-- `CleanupConnections`, for one entry of the table. -/
def cleanupConnection (index : HalfWord) (net : SharpNetwork) : SharpNetwork :=
  match net.connections index with
  | none => net
  | some k => if (net.objects k).state = .csclosed then net.tryRemove index else net

/-- One event. -/
def next (e : NetworkEvent) (net : SharpNetwork) : SharpNetwork :=
  match e with
  | .createConnection => net.createConnection
  | .open k remoteHost contactName data => net.call k (.open remoteHost contactName data)
  | .accept k => net.call k .accept
  | .reject k reason => net.call k (.reject reason)
  | .close k reason => net.call k (.close reason)
  | .send k data => net.call k fun c => (c.send data).2
  | .receive k => net.call k fun c => c.receive.2
  | .closeConnection index => net.closeConnection index
  | .incoming packet answer => net.processIncomingPacket packet answer
  | .outgoing => { net with outgoingPackets := net.outgoingPackets.tail }
  | .iteration index => net.processConnection index
  | .cleanup index => net.cleanupConnection index

/-- The connection is in the table. -/
def Registered (net : SharpNetwork) (k : ℕ) : Prop := ∃ index, net.connections index = some k

/-! ### The operations, on the objects and the table -/

variable {net : SharpNetwork} {k : ℕ} {index : HalfWord} {f : SharpConnection → SharpConnection}

theorem extends_deliver (packet : SharpPacket) (c : SharpConnection) :
    c.Extends (deliver packet c) := by
  unfold deliver
  split_ifs
  · exact SharpConnection.extends_update c .csopen packet.sourceAddress packet.sourceIndex
      c.receiveQueue
  · exact SharpConnection.extends_update c .csclosed c.remoteAddress c.remoteIndex c.receiveQueue
  · exact SharpConnection.extends_update c c.state c.remoteAddress c.remoteIndex _
  · exact .rfl
  · exact .rfl

@[simp] theorem objects_modify_self : (net.modify k f).objects k = f (net.objects k) :=
  Function.update_self _ _ _

theorem objects_modify_of_ne {j : ℕ} (h : j ≠ k) : (net.modify k f).objects j = net.objects j :=
  Function.update_of_ne h _ _

theorem objects_createConnection : net.createConnection.objects net.created =
    .construct net.nextConnectionIndex net.localAddress := Function.update_self _ _ _

theorem objects_createConnection_of_ne (h : k ≠ net.created) :
    net.createConnection.objects k = net.objects k := Function.update_of_ne h _ _

/-- It is registered, and what was registered under its index no more. -/
theorem connections_createConnection (h : net.createConnection.connections index = some k) :
    index = net.nextConnectionIndex ∧ k = net.created ∨ net.connections index = some k := by
  by_cases hindex : index = net.nextConnectionIndex
  · subst hindex
    refine Or.inl ⟨rfl, ?_⟩
    change Function.update _ _ _ _ = _ at h
    rw [Function.update_self] at h
    exact (Option.some.inj h).symm
  · change Function.update _ _ _ _ = _ at h
    rw [Function.update_of_ne hindex] at h
    exact Or.inr h

theorem registered_createConnection : net.createConnection.Registered net.created :=
  ⟨net.nextConnectionIndex, Function.update_self _ _ _⟩

/-- The connection of an RFC. -/
theorem objects_requested (packet : SharpPacket) : (net.requested packet).objects net.created =
    { SharpConnection.construct net.nextConnectionIndex net.localAddress with
      state := .csrfcrcvd
      remoteAddress := packet.sourceAddress
      remoteIndex := packet.sourceIndex } := by
  unfold requested
  rw [objects_modify_self, objects_createConnection]

theorem connections_tryRemove {j : HalfWord} (h : (net.tryRemove index).connections j = some k) :
    j ≠ index ∧ net.connections j = some k := by
  change Function.update _ _ _ _ = _ at h
  by_cases hj : j = index
  · subst hj
    rw [Function.update_self] at h
    cases h
  · rw [Function.update_of_ne hj] at h
    exact ⟨hj, h⟩

end SharpNetwork

end Usim
