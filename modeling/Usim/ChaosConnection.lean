import Usim.Interrupts

/-!
# Connections of the local Chaosnet program

The packets and connections of `chncp.h`, the numbering of outgoing packets in
`chutil.c`, and the queues of a connection in `uch11-local.c`. Where a thread of
the source waits on a condition variable, the function returns nothing.
-/

namespace Usim

/-- The opcodes that `chaos_send_to_local` tells apart, from `chaos.h`. -/
def rfcop : Word := 0o1

/-- Close connection. -/
def clsop : Word := 0o3

/-- Sense packet. -/
def snsop : Word := 0o6

/-- Status packet. -/
def stsop : Word := 0o7

/-- A packet as the local program holds it, with the fields of `struct pkt_header`. -/
structure ChaosPacket where
  /-- Protocol type. -/
  type : BitVec 8
  /-- Opcode. -/
  op : BitVec 8
  /-- The low 12 bits of the length word. -/
  len : BitVec 12
  /-- The forwarding count above them. -/
  fc : BitVec 4
  daddr : HalfWord
  didx : HalfWord
  saddr : HalfWord
  sidx : HalfWord
  /-- Packet number. -/
  pkn : HalfWord
  /-- Acknowledged packet number. -/
  ackn : HalfWord
  /-- The words of its memory from `pk_cdata` on. -/
  cdata : ℕ → HalfWord

/-- The cleared memory that `pkalloc` returns. -/
def pkalloc : ChaosPacket :=
  { type := 0, op := 0, len := 0, fc := 0, daddr := 0, didx := 0, saddr := 0, sidx := 0,
    pkn := 0, ackn := 0, cdata := fun _ => 0 }

/-- The states of a connection, from `chaos.h`. -/
inductive ConnectionState
  | closed | listen | rfcrcvd | rfcsent | opened
  deriving DecidableEq, Repr

/-- `struct connection`, the fields that the local backend uses. -/
structure ChaosConnection where
  state : ConnectionState
  faddr : HalfWord
  fidx : HalfWord
  laddr : HalfWord
  lidx : HalfWord
  /-- Transmit window size. -/
  twsize : HalfWord
  /-- Last packet sent. -/
  tlast : HalfWord
  /-- Last packet acknowledged by the other side. -/
  tacked : HalfWord
  /-- Receive window size. -/
  rwsize : HalfWord
  /-- Last packet received in order. -/
  rlast : HalfWord
  /-- Last packet acknowledged by this side. -/
  racked : HalfWord
  packetnumber : HalfWord
  queuehead : List ChaosPacket
  orderhead : List ChaosPacket
  lastpacket : Option ChaosPacket

/-- `cmp_gt`: bit 15 of the difference. -/
def cmpGt (a b : HalfWord) : Bool := (b - a).msb

/-- `allconn`, which is given the local address and the next index. -/
def allconn (serveraddr index : HalfWord) : ChaosConnection :=
  { state := .closed, faddr := 0, fidx := 0, laddr := serveraddr, lidx := index, twsize := 5,
    tlast := 0, tacked := 0, rwsize := 5, rlast := 0, racked := 0, packetnumber := 0,
    queuehead := [], orderhead := [], lastpacket := none }

namespace ChaosConnection

/-- `chtfull`: the other side has not acknowledged a whole window. -/
def chtfull (c : ChaosConnection) : Bool :=
  c.state = .opened && decide ((c.twsize.toNat : ℤ) ≤ (c.tlast - c.tacked).toInt)

/-- `chaos_allocate_packet`: the number of an outgoing packet. An `STSOP` takes the
connection's number, any other opcode the next one, and 1 stands in for 0. -/
def nextNumber (c : ChaosConnection) (opcode : Word) : HalfWord :=
  let number := if opcode = stsop then c.packetnumber else c.packetnumber + 1
  if number = 0 then 1 else number

/-- `chaos_allocate_packet`. -/
def allocatePacket (c : ChaosConnection) (opcode : Word) (len : ℕ) :
    ChaosPacket × ChaosConnection :=
  ({ pkalloc with
      op := opcode.setWidth 8, len := BitVec.ofNat 12 len, daddr := c.faddr, didx := c.fidx,
      saddr := c.laddr, sidx := c.lidx, pkn := c.nextNumber opcode, ackn := c.rlast },
    { c with packetnumber := c.nextNumber opcode, racked := c.rlast })

end ChaosConnection

/-- The two words of data that the local program puts in a status packet. -/
def ChaosPacket.withReceipt (p : ChaosPacket) (receipt rwsize : HalfWord) : ChaosPacket :=
  { p with cdata := fun i => if i = 0 then receipt else if i = 1 then rwsize else p.cdata i }

/-- A connection and the queue of packets on their way to the machine, `queuehead`. -/
structure ChaosHost where
  conn : ChaosConnection
  recvqueue : List ChaosPacket

namespace ChaosHost

/-- `chaos_queue`. -/
def chaosQueue (h : ChaosHost) (packet : ChaosPacket) : ChaosHost :=
  { h with recvqueue := h.recvqueue ++ [packet] }

/-- `chaos_connection_queue`. A packet for the remote waits until the window has room;
one for this side is queued for the server if it is the next one, and set aside in
the ordered queue if it is later. -/
def connectionQueue (h : ChaosHost) (packet : ChaosPacket) : Option ChaosHost :=
  if packet.daddr = h.conn.faddr then
    if h.conn.chtfull && packet.op ≠ stsop.setWidth 8 then
      none
    else
      let tlast := if packet.op ≠ stsop.setWidth 8 ∧ packet.didx = h.conn.fidx ∧
          cmpGt packet.pkn h.conn.tlast then packet.pkn else h.conn.tlast
      some ({ h with conn := { h.conn with tlast := tlast, lastpacket := some packet } }
        |>.chaosQueue packet)
  else
    let nextpacket := h.conn.rlast + 1
    if cmpGt packet.pkn nextpacket then
      some { h with conn := { h.conn with orderhead := h.conn.orderhead ++ [packet] } }
    else
      some { h with conn := { h.conn with queuehead := h.conn.queuehead ++ [packet] } }

/-- What `chaos_connection_dequeue` does with a packet that it has taken from the queue:
the acknowledgments move, and a status is sent when a third of the window is open. -/
def acknowledge (h : ChaosHost) (packet : ChaosPacket) : ChaosHost :=
  let conn := { h.conn with
    rlast := if cmpGt packet.pkn h.conn.rlast then packet.pkn else h.conn.rlast
    tacked := packet.ackn }
  if (conn.rwsize.toNat : ℤ) < 3 * (conn.rlast - conn.racked).toInt then
    let (status, conn) := conn.allocatePacket stsop 4
    { h with conn := { conn with racked := conn.rlast } }
      |>.chaosQueue (status.withReceipt conn.rlast conn.rwsize)
  else { h with conn := conn }

/-- `chaos_connection_dequeue`: no packet from a closed connection, the first packet of
the queue, or nothing while the thread waits. The packets set aside in the ordered
queue are never looked at, since the code that would is compiled out. -/
def connectionDequeue (h : ChaosHost) : Option (Option ChaosPacket × ChaosHost) :=
  if h.conn.state = .closed then some (none, h)
  else match h.conn.queuehead with
    | [] => none
    | packet :: rest =>
      some (some packet,
        { h with conn := { h.conn with queuehead := rest } } |>.acknowledge packet)

/-- The end of `chaos_send_to_local`, for a packet to an existing connection whose
opcode is none of those handled before: a duplicate is answered with a status, and
any other packet queued. -/
def receiveData (h : ChaosHost) (packet : ChaosPacket) : Option ChaosHost :=
  if cmpGt h.conn.rlast packet.pkn || h.conn.rlast = packet.pkn then
    let (status, conn) := h.conn.allocatePacket stsop 4
    let status := { status with pkn := packet.pkn }
    { h with conn := { conn with racked := conn.rlast } }
      |>.connectionQueue (status.withReceipt conn.rlast conn.rwsize)
  else h.connectionQueue packet

/-- `chaos_send_to_local`, the part after `chaos_find_connection` found the connection.
A `CLSOP` also wakes the server and releases the connection. -/
def sendToLocal (h : ChaosHost) (packet : ChaosPacket) : Option ChaosHost :=
  if packet.op = rfcop.setWidth 8 then
    if h.conn.state = .listen then some h else h.connectionQueue packet
  else if packet.op = snsop.setWidth 8 then
    let conn := { h.conn with
      faddr := packet.saddr, fidx := packet.sidx
      tacked := if cmpGt packet.ackn h.conn.tacked then packet.ackn else h.conn.tacked }
    let sts := { pkalloc with
      op := stsop.setWidth 8, len := 4, daddr := packet.saddr, didx := packet.sidx
      saddr := conn.laddr, sidx := conn.lidx, pkn := packet.pkn, ackn := conn.racked }
    { h with conn := conn }.connectionQueue (sts.withReceipt conn.racked conn.rwsize)
  else if packet.op = stsop.setWidth 8 then
    let tacked := if cmpGt packet.ackn h.conn.tacked then packet.ackn else h.conn.tacked
    let lastpacket := h.conn.lastpacket.filter fun p => tacked ≠ p.pkn
    some { h with conn := { h.conn with
      tacked := tacked, lastpacket := lastpacket, state := .opened, twsize := packet.cdata 1 } }
  else if packet.op = clsop.setWidth 8 then
    some { h with conn := { h.conn with state := .closed } }
  else h.receiveData packet

end ChaosHost

end Usim
