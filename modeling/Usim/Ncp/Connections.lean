import Usim.Interrupts
import Usim.Lib.CText
import Usim.Lib.NumberedLists

/-!
# Connections of the Chaosnet NCP

The packets and connections of `chncp.h`, and what `chrcv.c`, `chsend.c`, `chuser.c`,
`chclock.c` and `chutil.c` do to one connection. The numbers of packets are an
`unsigned short` in the source. Here they are of any type of serial numbers, so that the
same program also runs on numbers that never wrap. Packets that a function hands to
`sendctl` or `senddata` are returned as effects, in their order.
-/

namespace Usim.Ncp

open Lib

/-! ### Packets -/

/-- Request for connection. -/
def rfcop : Byte := 0o1

/-- Open connection. -/
def opnop : Byte := 0o2

/-- Close connection. -/
def clsop : Byte := 0o3

/-- Forward this packet. -/
def fwdop : Byte := 0o4

/-- Answer packet. -/
def ansop : Byte := 0o5

/-- Sense packet. -/
def snsop : Byte := 0o6

/-- Status packet. -/
def stsop : Byte := 0o7

/-- Routing information packet. -/
def rutop : Byte := 0o10

/-- Losing connection packet. -/
def losop : Byte := 0o11

/-- Listen packet, which is never transmitted. -/
def lsnop : Byte := 0o12

/-- Maintenance packet. -/
def mntop : Byte := 0o13

/-- End of file packet. -/
def eofop : Byte := 0o14

/-- Uncontrolled data packet. -/
def uncop : Byte := 0o15

/-- Broadcast RFC. -/
def brdop : Byte := 0o16

/-- Ordinary character data, and the bit of all data opcodes. -/
def datop : Byte := 0o200

/-- What a packet carries for the user. -/
structure Message where
  op : Byte
  data : List Byte
  deriving DecidableEq, Repr

/-- `ISDATOP`, of an opcode. -/
def isdatop (op : Byte) : Bool := op &&& datop ≠ 0

/-- `CONTPKT`, of an opcode: the packets that are numbered and receipted. -/
def contpkt (op : Byte) : Bool := isdatop op || op = rfcop || op = opnop || op = eofop

/-- `struct packet`. The words of a status packet are kept apart from its text. -/
structure Packet (S : Type) where
  op : Byte
  /-- Forwarding count. -/
  fc : BitVec 4
  /-- Length of the data in bytes. -/
  len : ℕ
  daddr : HalfWord
  didx : HalfWord
  saddr : HalfWord
  sidx : HalfWord
  /-- Packet number. -/
  pkn : S
  /-- Acknowledged packet number. -/
  ackn : S
  /-- Receipt of a status packet. -/
  receipt : S
  /-- Receive window size of a status packet. -/
  rwsize : HalfWord
  cdata : List Byte
  /-- Last time the packet was processed. -/
  time : HalfWord
  /-- Routed destination address. -/
  xdest : HalfWord

variable {S : Type}

/-- What the user sees of a packet. -/
def Packet.message (p : Packet S) : Message := ⟨p.op, p.cdata⟩

/-- `CHMAXDATA`. -/
def chmaxdata : ℕ := 488

/-- `CHDRWSIZE`. -/
def chdrwsize : HalfWord := 5

/-- `CHSTATNAME`. -/
def chstatname : ℕ := 32

/-! ### Connections -/

/-- The states of a connection, from `chaos.h`. -/
inductive ConnState
  | closed | listen | rfcrcvd | rfcsent | opened
  /-- Broken by receipt of a LOS. -/
  | lost
  /-- Broken by incomplete transmission. -/
  | inct
  deriving DecidableEq, Repr

/-- `struct connection`. The tails of the lists and what belongs to the operating system are
left out. -/
structure Connection (S : Type) where
  /-- `CHEOFSEEN` in `cn_flags`. -/
  eofseen : Bool
  /-- `CHANSWER` in `cn_flags`. -/
  answer : Bool
  state : ConnState
  /-- Last time the connection was active. -/
  active : HalfWord
  faddr : HalfWord
  fidx : HalfWord
  lidx : HalfWord
  laddr : HalfWord
  /-- Transmit window size. -/
  twsize : HalfWord
  /-- Last packet we sent. -/
  tlast : S
  /-- Last packet receipted by him. -/
  trecvd : S
  /-- Last packet acked by him. -/
  tacked : S
  /-- The packets transmitted and not receipted. -/
  thead : List (Packet S)
  /-- Packet being filled for output. -/
  toutput : Option (Packet S)
  /-- Room left in it. -/
  troom : ℕ
  /-- Receive window size. -/
  rwsize : HalfWord
  /-- Last packet received in order. -/
  rlast : S
  /-- Last packet acked by us. -/
  racked : S
  /-- Last packet read by our user. -/
  rread : S
  rsts : HalfWord
  /-- Read offset in the first received packet. -/
  roffset : ℕ
  /-- The packets received in order. -/
  rhead : List (Packet S)
  /-- The packets received out of order. -/
  routorder : List (Packet S)

/-- What a function does besides changing the connection. -/
inductive Effect (S : Type)
  /-- `sendctl` is called. -/
  | ctl (p : Packet S)
  /-- `senddata` is called with a new packet that has been given a number. -/
  | write (p : Packet S)
  /-- `senddata` is called with other packets. -/
  | data (ps : List (Packet S))
  /-- A packet is consumed by the user. -/
  | read (p : Packet S)
  /-- `CHWCOPY`: bytes of the user are taken. -/
  | accept (bs : List Byte)
  /-- `CHRCOPY`: bytes are handed to the user. -/
  | stream (bs : List Byte)

variable [SerialNumber S]

/-- The cleared memory of a packet. -/
def Packet.cleared : Packet S :=
  { op := 0, fc := 0, len := 0, daddr := 0, didx := 0, saddr := 0, sidx := 0
    pkn := SerialNumber.start, ackn := SerialNumber.start, receipt := SerialNumber.start
    rwsize := 0, cdata := [], time := 0, xdest := 0 }

/-- The cleared memory of a connection with an index, as `allconn` returns it. -/
def Connection.cleared (lidx : HalfWord) : Connection S :=
  { eofseen := false, answer := false, state := .closed, active := 0, faddr := 0, fidx := 0
    lidx := lidx, laddr := 0, twsize := 0, tlast := SerialNumber.start
    trecvd := SerialNumber.start, tacked := SerialNumber.start, thead := [], toutput := none
    troom := 0, rwsize := 0, rlast := SerialNumber.start, racked := SerialNumber.start
    rread := SerialNumber.start, rsts := 0, roffset := 0, rhead := [], routorder := [] }

omit [SerialNumber S] in
/-- `reflect`, up to the call of `sendctl`: a control packet goes back to its source. -/
def Packet.reflect (p : Packet S) : Packet S :=
  { p with sidx := p.didx, didx := p.sidx, saddr := p.daddr, daddr := p.saddr }

/-- `sendlos`: a LOS in response to a packet, with the name of the host behind the text. A LOS
or a CLS is not responded to. -/
def Packet.sendlos (myname : List Byte) (p : Packet S) (str : List Byte) : List (Effect S) :=
  if p.op = losop ∨ p.op = clsop then []
  else
    let text := str ++ chars "(from " ++ (cString myname).take chstatname ++ chars ")"
    [.ctl { p with op := losop, cdata := text, len := text.length }.reflect]

namespace Connection

/-- `chtfull`: a whole window is not acknowledged. -/
def chtfull (c : Connection S) : Bool :=
  c.state = .opened && decide ((c.twsize.toNat : ℤ) ≤ diff c.tlast c.tacked)

omit [SerialNumber S] in
/-- `setpkt`. -/
def setpkt (c : Connection S) (p : Packet S) : Packet S :=
  { p with daddr := c.faddr, didx := c.fidx, saddr := c.laddr, sidx := c.lidx, fc := 0 }

omit [SerialNumber S] in
/-- `makests`, up to `setack`. -/
def makests (c : Connection S) (p : Packet S) : Packet S :=
  { p with op := stsop, len := 4, ackn := c.rread, receipt := c.rlast, rwsize := c.rwsize }

omit [SerialNumber S] in
/-- `makests`, which sets `cn_racked`, and `reflect`: a packet is answered with our status. -/
def replySts (c : Connection S) (p : Packet S) : Connection S × List (Effect S) :=
  ({ c with racked := c.rread }, [.ctl (c.makests p).reflect])

/-- `sendsts`. -/
def sendsts (c : Connection S) : Connection S × List (Effect S) :=
  ({ c with racked := c.rread }, [.ctl (c.makests (c.setpkt Packet.cleared))])

omit [SerialNumber S] in
/-- `clsconn`: the connection is closed with a state, and a packet is left for the user. -/
def clsconn (c : Connection S) (state : ConnState) (p : Option (Packet S)) : Connection S :=
  { c with thead := [], state := state, rhead := c.rhead ++ p.toList }

/-- `receipt`: the packets up to the receipt are freed, and a new acknowledgement of what was
sent is noted. -/
def receipt (c : Connection S) (acknum recnum : S) : Connection S :=
  let c := if Later recnum c.trecvd then
      { c with thead := dropThrough Packet.pkn recnum c.thead, trecvd := recnum }
    else c
  if Later acknum c.tacked ∧ ¬ Later acknum c.tlast then { c with tacked := acknum } else c

/-- The packet was sent so many ticks ago. -/
def due (clock : HalfWord) (age : ℕ) (p : Packet S) : Bool :=
  decide (Later clock (p.time + BitVec.ofNat 16 age))

/-- `chretran`: what was sent before a time is sent again, with a new acknowledgement. -/
def chretran (c : Connection S) (clock : HalfWord) (age : ℕ) :
    Connection S × List (Effect S) :=
  match c.thead.filter (due clock age) with
  | [] => (c, [])
  | p :: ps =>
    ({ c with
        thead := c.thead.filter fun q => !due clock age q
        racked := c.rread },
      [.data ((p :: ps).map fun q => { q with ackn := c.rread })])

omit [SerialNumber S] in
/-- `lsnmatch`: a listener is given the RFC that matches it. -/
def lsnmatch (c : Connection S) (clock myaddr : HalfWord) (rfc : Packet S) : Connection S :=
  { c with
    active := clock, state := .rfcrcvd
    rwsize := if c.rwsize = 0 then chdrwsize else c.rwsize
    faddr := rfc.saddr, fidx := rfc.sidx
    laddr := if rfc.daddr = 0 then rfc.daddr else myaddr
    rhead := [rfc], rlast := rfc.pkn, rread := rfc.pkn }

variable [DecidableEq S]

/-- `rcvdata`, once the acknowledgement is noted: a packet of data is queued in order or out of
order. A duplicate is answered with our status. -/
def enqueue (c : Connection S) (p : Packet S) : Connection S × List (Effect S) :=
  if ¬ Later p.pkn c.rlast then c.replySts p
  else if (inOrder Packet.pkn c.rlast (p :: c.routorder)).1 = [] then
    -- an out of order packet
    match insertNew Packet.pkn p c.routorder with
    | none => c.replySts p
    | some routorder => ({ c with routorder := routorder }, [])
  else
    let (ordered, rest) := inOrder Packet.pkn c.rlast (p :: c.routorder)
    ({ c with
        rhead := c.rhead ++ ordered, rlast := advance c.rlast ordered.length
        routorder := rest }, [])

/-- `rcvdata`. Data out of the window are discarded. -/
def rcvdata (c : Connection S) (p : Packet S) : Connection S × List (Effect S) :=
  if Later p.pkn (advance c.rread c.rwsize.toNat) then (c, [])
  else (c.receipt p.ackn p.ackn).enqueue p

/-- `rcvpkt`, the OPN that answers our RFC. The RFC is received and acknowledged, and the OPN
counts as read. -/
def rcvopn (c : Connection S) (clock : HalfWord) (p : Packet S) :
    Connection S × List (Effect S) :=
  let c := { c with
    state := .opened, fidx := p.sidx, active := clock, rread := p.pkn, rlast := p.pkn
    twsize := p.rwsize }
  (c.receipt p.ackn p.ackn).replySts p

/-- `rcvpkt`, for an open connection. -/
def rcvopened (c : Connection S) (clock : HalfWord) (shorttime : ℕ) (myname : List Byte)
    (p : Packet S) : Connection S × List (Effect S) :=
  if isdatop p.op ∨ p.op = eofop then c.rcvdata p
  -- a duplicate
  else if p.op = opnop then (c, [])
  else if p.op = snsop then (c.receipt p.ackn p.ackn).replySts p
  else if p.op = losop ∨ p.op = clsop then
    (c.clsconn (if p.op = clsop then .closed else .lost) p, [])
  else if p.op = uncop then
    ({ c with rhead := p :: c.rhead }.receipt p.ackn p.ackn, [])
  else if p.op = stsop then
    ({ c with twsize := p.rwsize }.receipt p.ackn p.receipt).chretran clock shorttime
  else (c, p.sendlos myname (chars "Bad opcode"))

/-- `rcvpkt`, for a packet with the index of the connection. -/
def rcvpkt (c : Connection S) (clock : HalfWord) (shorttime : ℕ) (myname : List Byte)
    (p : Packet S) : Connection S × List (Effect S) :=
  match c.state with
  | .rfcsent =>
    if p.op = opnop then c.rcvopn clock p
    else if p.op = clsop ∨ p.op = ansop ∨ p.op = fwdop then (c.clsconn .closed p, [])
    else (c, p.sendlos myname (chars "Bad packet type reponse to RFC"))
  | .opened => { c with active := clock }.rcvopened clock shorttime myname p
  | _ => (c, p.sendlos myname (chars "Connection is closed"))

/-! ### Calls of the user -/

/-- `ch_read`: the first packet received is consumed. The status goes back at the end of a file
and when a third of the window is read. -/
def chRead (c : Connection S) : Connection S × List (Effect S) :=
  match c.rhead with
  | [] => (c, [])
  | p :: ps =>
    let c := { c with rhead := ps }
    if contpkt p.op then
      let c := { c with rread := p.pkn }
      if p.op = eofop ∨ (c.rwsize.toNat : ℤ) < 3 * diff c.rread c.racked then
        ((c.replySts p).1, .read p :: (c.replySts p).2)
      else (c, [.read p])
    else (c, [.read p])

/-- `ch_close`, but for a listener: a CLS or an ANS is sent, and the connection closed. -/
def chClose (c : Connection S) (p : Option (Packet S)) : Connection S × List (Effect S) :=
  if c.state = .opened ∨ c.state = .rfcrcvd then
    (c.clsconn .closed none,
      p.toList.map fun p =>
        .ctl { c.setpkt p with ackn := SerialNumber.start, pkn := SerialNumber.start })
  else if c.state = .rfcsent then (c.clsconn .closed none, [])
  else (c, [])

/-- The end of `ch_write`: the packet is given the next number and sent. -/
def number (c : Connection S) (p : Packet S) : Connection S × List (Effect S) :=
  ({ c with tlast := advance c.tlast 1 }, [.write { c.setpkt p with pkn := advance c.tlast 1 }])

/-- `ch_write`. Nothing is returned in case of an error. -/
def chWrite (c : Connection S) (p : Packet S) : Option (Connection S × List (Effect S)) :=
  if p.op = ansop ∨ p.op = fwdop then
    if c.state = .rfcrcvd ∧ c.answer then some (c.chClose p) else none
  else if p.op = rfcop ∨ p.op = brdop then
    if c.state = .rfcsent then some (c.number p) else none
  else if p.op = uncop then
    some (c, [.data [c.setpkt { p with pkn := SerialNumber.start }]])
  else if isdatop p.op ∨ p.op = opnop ∨ p.op = eofop then
    if c.state = .opened then
      some ({ c with racked := c.rread }.number { p with ackn := c.rread })
    else none
  else none

/-- `ch_accept`: the RFC is read, and an OPN is the first packet sent. -/
def chAccept (c : Connection S) : Connection S × List (Effect S) :=
  if c.state = .rfcrcvd then
    let (c, es) := if (c.rhead.head?.map Packet.op) = some rfcop then c.chRead else (c, [])
    let c := { c with
      state := .opened, tlast := SerialNumber.start, rsts := c.rwsize >>> 1 }
    let opn := { Packet.cleared with
      op := opnop, len := 4, receipt := c.rlast, rwsize := c.rwsize }
    let (c, es') := (c.chWrite opn).getD (c, [])
    (c, es ++ es')
  else (c, [])

end Connection

end Usim.Ncp
