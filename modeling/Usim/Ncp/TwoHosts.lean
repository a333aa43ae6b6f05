import Usim.Ncp.Streams

/-!
# Two hosts of the Chaosnet

Two hosts with one connection between them, opened by a user of the one and listened for by
a user of the other. What a host transmits may be delivered to the other any number of
times and in any order, or never. The users call the NCP at any time, clocks tick, and the
tables of routes change.
-/

namespace Usim.Ncp

open Lib

/-- The two ends of the connection. -/
inductive Side
  | opener | acceptor
  deriving DecidableEq, Repr

/-- The other end. -/
def Side.other : Side → Side
  | .opener => .acceptor
  | .acceptor => .opener

@[simp] theorem Side.other_other (i : Side) : i.other.other = i := by cases i <;> rfl

theorem Side.other_ne (i : Side) : i.other ≠ i := by cases i <;> decide

theorem Side.eq_or_other (i j : Side) : i = j ∨ i = j.other := by cases i <;> cases j <;> decide

/-- What the user of a host has written and read. -/
structure Log where
  /-- The numbered packets written. -/
  written : List Message
  /-- The data and the ends of files read. -/
  taken : List Message
  /-- The bytes that `ch_swrite` has taken. -/
  accepted : List Byte
  /-- The bytes that `ch_sread` has handed over. -/
  streamed : List Byte

/-- A host, and what has happened at it. -/
structure Station (S : Type) where
  host : Host S
  /-- The packets transmitted. -/
  wire : List (Packet S)
  log : Log

/-- What happens at a host. -/
inductive Action
  /-- The user writes a packet, as in record mode: only if the window is not full. -/
  | write (op : Byte) (data : List Byte)
  /-- The user reads a packet. -/
  | read
  /-- The user writes bytes. -/
  | swrite (bs : List Byte)
  | sflush
  /-- The user reads bytes. -/
  | sread (nchars : ℕ)
  | accept
  | close (data : List Byte)
  /-- The interface begins to transmit a packet. -/
  | start
  /-- It is done. -/
  | done
  /-- The interface receives the packet that the other host transmitted as number `n`. -/
  | deliver (n : ℕ)
  /-- A tick of the clock. -/
  | tick
  /-- Routing packets of other hosts. -/
  | reroute (routetab : ℕ → Route)

/-- The opcode is that of data or of the end of a file. -/
def isData (op : Byte) : Bool := isdatop op || op = eofop

/-- The packets written, of some effects. -/
def writtenOf {S : Type} (es : List (Effect S)) : List Message :=
  es.filterMap fun
    | .write p => some p.message
    | _ => none

/-- The data read, of some effects. -/
def takenOf {S : Type} (es : List (Effect S)) : List Message :=
  es.filterMap fun
    | .read p => if isData p.op then some p.message else none
    | _ => none

/-- The bytes taken from the user, of some effects. -/
def acceptedOf {S : Type} (es : List (Effect S)) : List Byte :=
  es.flatMap fun
    | .accept bs => bs
    | _ => []

/-- The bytes handed to the user, of some effects. -/
def streamedOf {S : Type} (es : List (Effect S)) : List Byte :=
  es.flatMap fun
    | .stream bs => bs
    | _ => []

/-- The log after some effects. -/
def Log.note {S : Type} (l : Log) (es : List (Effect S)) : Log where
  written := l.written ++ writtenOf es
  taken := l.taken ++ takenOf es
  accepted := l.accepted ++ acceptedOf es
  streamed := l.streamed ++ streamedOf es

variable {S : Type} [SerialNumber S] [DecidableEq S]

namespace Station

omit [SerialNumber S] [DecidableEq S] in
/-- The host after a call, and what it did. -/
def note (s : Station S) (r : Host S × List (Effect S)) : Station S :=
  { s with host := r.1, log := s.log.note r.2 }

/-- The user may write data of this length now. -/
def canWrite (s : Station S) (op : Byte) (data : List Byte) : Bool :=
  isData op && decide (data.length ≤ chmaxdata) &&
    ((s.host.conntab 0).elim false fun c => !c.chtfull)

/-- What an action does, with the packets transmitted by the other host. -/
def act (s : Station S) (incoming : List (Packet S)) : Action → Station S
  | .write op data =>
    if s.canWrite op data then
      s.note (s.host.onConn 0 fun c =>
        (c.chWrite { Packet.cleared with op := op, cdata := data, len := data.length }).getD
          (c, []))
    else s
  | .read => s.note (s.host.onConn 0 Connection.chRead)
  | .swrite bs =>
    let (h, es, _) := s.host.chSwrite 0 bs
    s.note (h, es)
  | .sflush => s.note (s.host.onConn 0 Connection.chSflush)
  | .sread nchars =>
    let (h, es, _) := s.host.chSread 0 nchars
    s.note (h, es)
  | .accept => s.note (s.host.onConn 0 Connection.chAccept)
  | .close data =>
    s.note (s.host.chClose 0
      (some { Packet.cleared with op := clsop, cdata := data, len := data.length }))
  | .start =>
    if s.host.xcTpkt.isNone then
      { s with host := s.host.xmitnext, wire := s.wire ++ s.host.xmitnext.xcTpkt.toList }
    else s
  | .done =>
    match s.host.xcTpkt with
    | none => s
    | some p => { s with host := { s.host with xcTpkt := none }.xmitdone p }
  | .deliver n =>
    match incoming[n]? with
    | none => s
    | some p => { s with host := s.host.rcvpkt p }
  | .tick => s.note s.host.chClock
  | .reroute routetab => { s with host := { s.host with routetab := routetab } }

end Station

/-- What happens at one of the hosts. -/
structure Event where
  side : Side
  action : Action

/-- The two hosts. -/
structure Net (S : Type) where
  opener : Station S
  acceptor : Station S

namespace Net

omit [SerialNumber S] [DecidableEq S] in
/-- The station at one end. -/
def get (net : Net S) : Side → Station S
  | .opener => net.opener
  | .acceptor => net.acceptor

omit [SerialNumber S] [DecidableEq S] in
/-- The net with another station at one end. -/
def set (net : Net S) (s : Station S) : Side → Net S
  | .opener => { net with opener := s }
  | .acceptor => { net with acceptor := s }

omit [SerialNumber S] [DecidableEq S] in
@[simp] theorem get_set (net : Net S) (s : Station S) (i : Side) : (net.set s i).get i = s := by
  cases i <;> rfl

omit [SerialNumber S] [DecidableEq S] in
@[simp] theorem get_other_set (net : Net S) (s : Station S) (i : Side) :
    (net.set s i).get i.other = net.get i.other := by
  cases i <;> rfl

/-- One step. -/
def step (net : Net S) (e : Event) : Net S :=
  net.set ((net.get e.side).act (net.get e.side.other).wire e.action) e.side

/-- A run. -/
def run (net : Net S) (es : List Event) : Net S := es.foldl step net

end Net

/-- A host before it has any connection. -/
structure Site where
  myaddr : HalfWord
  myname : List Byte
  clock : HalfWord
  hz : ℕ
  uniq : Word
  rfcrcv : Bool
  services : List (List Byte × List Byte)
  routetab : ℕ → Route
  xcCost : HalfWord
  nextclk : HalfWord
  nextprobe : HalfWord
  nextroute : HalfWord
  /-- The receive window that its user asks for. -/
  rwsize : HalfWord

/-- The host, with nothing in its tables and queues. -/
def Site.boot (t : Site) : Host S :=
  { myaddr := t.myaddr, myname := t.myname, clock := t.clock, hz := t.hz
    conntab := fun _ => none, uniq := t.uniq, lsnlist := [], rfclist := [], rfcrcv := t.rfcrcv
    services := t.services, routetab := t.routetab, xcAddr := t.myaddr, xcCost := t.xcCost
    xcList := [], xcTpkt := none, nextclk := t.nextclk, nextprobe := t.nextprobe
    nextroute := t.nextroute }

/-- A station where nothing has happened yet. -/
def Station.idle (h : Host S) : Station S :=
  { host := h, wire := [], log := { written := [], taken := [], accepted := [], streamed := [] } }

/-- Two hosts with different addresses, and a contact name that the one asks for and the other
listens for. -/
structure Setup where
  site : Side → Site
  rfc : List Byte
  contact : List Byte
  matched : concmp rfc contact = true
  addr_ne : (site .opener).myaddr ≠ (site .acceptor).myaddr
  addr_ne_zero : ∀ i, (site i).myaddr ≠ 0

/-- The users have called `ch_listen` and `ch_open`. -/
def Setup.start (u : Setup) : Net S where
  opener :=
    (Station.idle (u.site .opener).boot).note
      ((u.site .opener).boot.chOpen (u.site .acceptor).myaddr (u.site .opener).rwsize
        { Packet.cleared with cdata := u.rfc, len := u.rfc.length })
  acceptor :=
    Station.idle ((u.site .acceptor).boot.chListen (u.site .acceptor).rwsize
      { Packet.cleared with cdata := u.contact, len := u.contact.length })

/-! ### Two hosts on one subnet -/

/-- A host with a direct path to all subnets. -/
def neighbour (myaddr : HalfWord) : Site where
  myaddr := myaddr
  myname := chars "MIT-LISPM-1"
  clock := 0
  hz := 60
  uniq := 0
  rfcrcv := true
  services := []
  routetab := fun _ => { type := .direct, cost := 10, addr := 0 }
  xcCost := 10
  nextclk := 30
  nextprobe := 480
  nextroute := 240
  rwsize := 5

/-- Two such hosts. -/
def neighbours : Setup where
  site
    | .opener => neighbour 0o401
    | .acceptor => neighbour 0o402
  rfc := chars "FILE 1"
  contact := chars "FILE"
  matched := by decide
  addr_ne := by decide
  addr_ne_zero i := by cases i <;> decide

/-- The RFC, the OPN and the status are transmitted, and the first two delivered. -/
def handshake : List Event :=
  [⟨.opener, .start⟩, ⟨.opener, .done⟩, ⟨.acceptor, .deliver 0⟩, ⟨.acceptor, .accept⟩,
    ⟨.acceptor, .start⟩, ⟨.acceptor, .done⟩, ⟨.opener, .deliver 0⟩, ⟨.opener, .start⟩,
    ⟨.opener, .done⟩]

/-- Then the status is delivered, and the opener writes bytes, of which the acceptor reads the
first after a duplicate has arrived. -/
def conversation : List Event :=
  handshake ++
    [⟨.acceptor, .deliver 1⟩, ⟨.opener, .swrite [1, 2, 3]⟩, ⟨.opener, .sflush⟩,
      ⟨.opener, .start⟩, ⟨.acceptor, .deliver 2⟩, ⟨.acceptor, .deliver 2⟩,
      ⟨.acceptor, .sread 2⟩]

end Usim.Ncp
