import Usim.Ncp.Connections

/-!
# Hosts of the Chaosnet NCP

A host with one network interface: its table of connections, its listeners and its table of
routes, the queue of packets to be transmitted, and the clock. Packets that a host sends to
itself are left out, as are broadcasts.
-/

namespace Usim.Ncp

open Lib

/-- The values of `rt_type`. -/
inductive RouteType
  | nopath | direct | fixed | bridge
  deriving DecidableEq, Repr

/-- `struct chroute`. -/
structure Route where
  type : RouteType
  cost : HalfWord
  /-- Bridge address. -/
  addr : HalfWord
  deriving DecidableEq, Repr

/-- `CHNCONNS`. -/
def chnconns : ℕ := 20

/-- `CHNSUBNET`. -/
def chnsubnet : ℕ := 122

/-- `CHHCOST`. -/
def chhcost : ℕ := 1024

/-- The globals of the NCP and the interface `struct chxcvr`. -/
structure Host (S : Type) where
  myaddr : HalfWord
  myname : List Byte
  /-- `Chclock`. -/
  clock : HalfWord
  /-- `Chhz`, ticks in a second. -/
  hz : ℕ
  /-- `Chconntab`. The entries from `CHNCONNS` on are not used. -/
  conntab : ℕ → Option (Connection S)
  /-- `uniq` of `chutil.c`. -/
  uniq : Word
  lsnlist : List (Packet S)
  /-- The unmatched RFCs. -/
  rfclist : List (Packet S)
  /-- There is a reader of unmatched RFCs. -/
  rfcrcv : Bool
  /-- The contact names that the NCP serves by itself, with the answers at this time. -/
  services : List (List Byte × List Byte)
  /-- `Chroutetab`. The entries from `CHNSUBNET` on are not used. -/
  routetab : ℕ → Route
  /-- Address of the interface. -/
  xcAddr : HalfWord
  xcCost : HalfWord
  /-- Packets to be transmitted. -/
  xcList : List (Packet S)
  /-- Packet being transmitted. -/
  xcTpkt : Option (Packet S)
  /-- The times of `ch_clock` at which something is to be done. -/
  nextclk : HalfWord
  nextprobe : HalfWord
  nextroute : HalfWord

/-- `concmp`: the contact name of an RFC against that of a listener. -/
def concmp : List Byte → List Byte → Bool
  | [], lsn => lsn.isEmpty
  | _ :: _, [] => true
  | r :: rfc, l :: lsn => r = l && concmp rfc lsn

/-- The pairs of words in a routing packet. -/
def rutPairs : List Byte → List (HalfWord × HalfWord)
  | s₀ :: s₁ :: c₀ :: c₁ :: bs => (s₁ ++ s₀, c₁ ++ c₀) :: rutPairs bs
  | _ => []

namespace Host

variable {S : Type}

/-- The address is `Chmyaddr`, a `short`. -/
def isMe (h : Host S) (a : HalfWord) : Bool := decide ((a.toNat : ℤ) = h.myaddr.toInt)

/-- Stores an entry of the table of connections. -/
def setConn (h : Host S) (k : ℕ) (c : Connection S) : Host S :=
  { h with conntab := Function.update h.conntab k (some c) }

/-- The connection with an index: the low byte is the place in the table. -/
def lookup (h : Host S) (idx : HalfWord) : Option (ℕ × Connection S) :=
  let k := idx.toNat % 256
  if k < chnconns then
    ((h.conntab k).filter fun c => decide (c.lidx = idx)).map fun c => (k, c)
  else none

/-- The next hop to an address, if there is a path. -/
def route (h : Host S) (daddr : HalfWord) : Option HalfWord :=
  let subnet := daddr.toNat / 256
  if chnsubnet ≤ subnet then none
  else
    let r := h.routetab subnet
    if r.type = .nopath ∨ chhcost ≤ r.cost.toNat then none
    else if r.type = .fixed ∨ r.type = .bridge then some r.addr
    else some daddr

/-- `sendctl`, with the packet at the head of the transmit queue. Without a path it is thrown
away. -/
def sendctl (h : Host S) (p : Packet S) : Host S :=
  if h.isMe p.daddr then h
  else match h.route p.daddr with
    | none => h
    | some dest => { h with xcList := { p with xdest := dest } :: h.xcList }

/-- `xmitnext`: the next packet to be transmitted. -/
def xmitnext (h : Host S) : Host S :=
  { h with xcTpkt := h.xcList.head?, xcList := h.xcList.tail }

variable [SerialNumber S]

/-- `xmitdone`: a numbered packet of ours that is not receipted is kept for retransmission, any
other packet is freed. -/
def xmitdone (h : Host S) (p : Packet S) : Host S :=
  match h.lookup p.sidx with
  | none => h
  | some (k, c) =>
    if p.fc = 0 ∧ contpkt p.op ∧ (c.state = .opened ∨ c.state = .rfcsent) ∧
        Later p.pkn c.trecvd then
      h.setConn k
        { c with thead := insertByNumber Packet.pkn { p with time := h.clock } c.thead }
    else h

/-- `senddata`, with the packets at the end of the transmit queue. Without a path transmission
is faked. -/
def senddata (h : Host S) (ps : List (Packet S)) : Host S :=
  match ps with
  | [] => h
  | p :: _ =>
    if h.isMe p.daddr then h
    else match h.route p.daddr with
      | none => ps.foldl xmitdone h
      | some dest =>
        { h with xcList := h.xcList ++ ps.map fun q => { q with time := h.clock, xdest := dest } }

/-- Carries out an effect. -/
def perform (h : Host S) : Effect S → Host S
  | .ctl p => h.sendctl p
  | .write p => h.senddata [p]
  | .data ps => h.senddata ps
  | _ => h

/-- Calls a function on an entry of the table of connections. -/
def onConn (h : Host S) (k : ℕ) (f : Connection S → Connection S × List (Effect S)) :
    Host S × List (Effect S) :=
  match h.conntab k with
  | none => (h, [])
  | some c => ((f c).2.foldl perform (h.setConn k (f c).1), (f c).2)

/-- `rcvrut`. Of a length that is no multiple of 4, with which the source runs past the packet,
the rest is left out. -/
def rcvrut (h : Host S) (p : Packet S) : Host S :=
  let ssubnet := p.saddr.toNat / 256
  if chnsubnet ≤ ssubnet then h
  else if (h.routetab ssubnet).type ≠ .direct then h
  else
    let entry (routetab : ℕ → Route) (rd : HalfWord × HalfWord) : ℕ → Route :=
      let r := routetab rd.1.toNat
      if chnsubnet ≤ rd.1.toNat ∨ r.type = .fixed ∨ r.cost ≤ rd.2 then routetab
      else Function.update routetab rd.1.toNat
        { type := .bridge, cost := rd.2, addr := p.saddr }
    { h with routetab := (rutPairs p.cdata).foldl entry h.routetab }

/-- The connection that an RFC has been sent for already. -/
def rfcConn (h : Host S) (p : Packet S) : Option (ℕ × Connection S) :=
  (List.range chnconns).findSome? fun k =>
    ((h.conntab k).filter fun c => decide (c.fidx = p.sidx ∧ c.faddr = p.saddr)).map
      fun c => (k, c)

/-- `rcvrfc`: an RFC is a duplicate, or is for a listener or a service, or is queued. -/
def rcvrfc (h : Host S) (p : Packet S) : Host S :=
  match h.rfcConn p with
  | some (k, c) =>
    if c.state = .opened then (h.onConn k fun c => c.chretran h.clock (h.hz >>> 4)).1 else h
  | none =>
    match h.lsnlist.find? fun l => concmp p.cdata l.cdata with
    | some l =>
      let k := l.sidx.toNat % 256
      let h' := { h with lsnlist := h.lsnlist.eraseP fun l => concmp p.cdata l.cdata }
      (h'.onConn k fun c => (c.lsnmatch h.clock h.myaddr p, [])).1
    | none =>
      match h.services.find? fun s => concmp p.cdata s.1 with
      | some s =>
        h.sendctl
          { p with
            op := ansop, pkn := SerialNumber.start, ackn := SerialNumber.start
            cdata := s.2, len := s.2.length }.reflect
      | none =>
        if h.rfcrcv = false then
          (p.sendlos h.myname (chars "All servers disabled")).foldl perform h
        else if h.rfclist.any fun q => q.sidx = p.sidx && q.saddr = p.saddr then h
        else { h with rfclist := h.rfclist ++ [{ p with ackn := SerialNumber.start }] }

variable [DecidableEq S]

/-- The interface has an address, so that there is a direct path to its subnet. -/
def heard (h : Host S) : Host S :=
  if h.xcAddr = 0 then h
  else { h with
    routetab := Function.update h.routetab (h.xcAddr.toNat / 256)
      { h.routetab (h.xcAddr.toNat / 256) with type := .direct, cost := h.xcCost } }

/-- `rcvpkt`. -/
def rcvpkt (h : Host S) (p : Packet S) : Host S :=
  let h := h.heard
  if ¬ h.isMe p.daddr ∧ p.daddr ≠ h.xcAddr ∧ p.daddr ≠ 0 then
    if p.fc + 1 = 0 then h
    else if h.isMe p.saddr ∨ p.saddr = h.xcAddr then h
    else if h.myaddr = -1 then h
    else h.sendctl { p with fc := p.fc + 1 }
  else if p.op = rutop then h.rcvrut p
  else if p.op = mntop then h
  else if p.op = rfcop then h.rcvrfc p
  -- a broadcast is left out
  else if p.op = brdop then h
  else
    match h.lookup p.didx with
    | none => (p.sendlos h.myname (chars "Connection doesn't exist")).foldl perform h
    | some (k, _) => (h.onConn k fun c => c.rcvpkt h.clock (h.hz >>> 4) h.myname p).1

/-! ### Calls of the user -/

omit [DecidableEq S] [SerialNumber S] in
/-- The first free place of the table. -/
def freeConn (h : Host S) : Option ℕ :=
  (List.range chnconns).find? fun k => (h.conntab k).isNone

omit [DecidableEq S] in
/-- `allconn`: a cleared connection at the first free place, with a new index. -/
def allconn (h : Host S) : Option (ℕ × Connection S × Host S) :=
  h.freeConn.map fun k =>
    let uniq := if h.uniq + 1 = 0 then 1 else h.uniq + 1
    (k, Connection.cleared (uniq.setWidth 8 ++ BitVec.ofNat 8 k), { h with uniq := uniq })

/-- `ch_open`. -/
def chOpen (h : Host S) (destaddr rwsize : HalfWord) (p : Packet S) :
    Host S × List (Effect S) :=
  match h.allconn with
  | none => (h, [])
  | some (k, c, h) =>
    let c := { c with
      laddr := h.myaddr, faddr := destaddr, state := .rfcsent, rwsize := rwsize
      rsts := rwsize >>> 1, active := h.clock }
    (h.setConn k c).onConn k fun c =>
      (c.chWrite { p with op := rfcop, fc := 0, ackn := SerialNumber.start }).getD (c, [])

omit [DecidableEq S] in
/-- `ch_listen`. -/
def chListen (h : Host S) (rwsize : HalfWord) (p : Packet S) : Host S :=
  match h.allconn with
  | none => h
  | some (k, c, h) =>
    let c := { c with state := .listen, rwsize := rwsize }
    match h.rfclist.find? fun q => concmp q.cdata p.cdata with
    | some rfc =>
      { h with rfclist := h.rfclist.eraseP fun q => concmp q.cdata p.cdata }.setConn k
        (c.lsnmatch h.clock h.myaddr rfc)
    | none => { h with lsnlist := c.setpkt { p with op := lsnop } :: h.lsnlist }.setConn k c

/-- `ch_close`, without release. A listener is taken off the list. -/
def chClose (h : Host S) (k : ℕ) (p : Option (Packet S)) : Host S × List (Effect S) :=
  match h.conntab k with
  | none => (h, [])
  | some c =>
    if c.state = .listen then
      ({ h with lsnlist := h.lsnlist.eraseP fun l => l.sidx.toNat % 256 = k }, [])
    else h.onConn k fun c => c.chClose p

/-! ### The clock -/

omit [DecidableEq S] [SerialNumber S] in
/-- `chroutage`: the costs of the routes grow. -/
def chroutage (h : Host S) : Host S :=
  { h with
    routetab := fun i =>
      let r := h.routetab i
      if (r.type = .bridge ∨ r.type = .direct) ∧ r.cost.toNat < chhcost then
        { r with cost := r.cost + 1 }
      else r }

/-- `ch_clock` sends the packet being filled if it was not touched for a while. -/
def flushOutput (clock : HalfWord) (hz : ℕ) (c : Connection S) :
    Connection S × List (Effect S) :=
  match c.toutput with
  | none => (c, [])
  | some p =>
    if Later clock (p.time + BitVec.ofNat 16 (hz >>> 1)) ∧ ¬ c.chtfull then
      ({ c with toutput := none }.chWrite p).getD ({ c with toutput := none }, [])
    else (c, [])

omit [SerialNumber S] [DecidableEq S] in
/-- `ch_clock` breaks a connection that was not active for long. A probe would be sent by
`sendsns`, which does nothing. -/
def probe (clock : HalfWord) (hz : ℕ) (c : Connection S) : Connection S × List (Effect S) :=
  if (if c.state = .opened then 3 * (hz * 45) else hz * 15) ≤ (clock - c.active).toNat then
    (c.clsconn .inct none, [])
  else (c, [])

/-- `ch_clock`, for one entry of the table of connections. -/
def clockConn (probing : Bool) (h : Host S) (k : ℕ) : Host S × List (Effect S) :=
  match h.conntab k with
  | none => (h, [])
  | some c =>
    if c.state = .opened ∨ c.state = .rfcsent then
      let (h, es) := h.onConn k (flushOutput h.clock h.hz)
      let (h, es') := h.onConn k fun c => c.chretran h.clock h.hz
      let (h, es'') := if probing then h.onConn k (probe h.clock h.hz) else (h, [])
      (h, es ++ es' ++ es'')
    else (h, [])

/-- `ch_clock`, over the table of connections. -/
def clockConns (probing : Bool) (h : Host S) (ks : List ℕ) : Host S × List (Effect S) :=
  ks.foldl (fun (h, es) k => ((clockConn probing h k).1, es ++ (clockConn probing h k).2)) (h, [])

omit [SerialNumber S] [DecidableEq S] in
/-- `Chclock` goes on. -/
def tick (h : Host S) : Host S := { h with clock := h.clock + 1 }

omit [SerialNumber S] [DecidableEq S] in
/-- `ch_clock`, when something is to be done: whether connections are probed, and the host with
the next times, at which the costs of the routes have grown. -/
def nextTimes (h : Host S) : Bool × Host S :=
  let h := { h with nextclk := h.nextclk + BitVec.ofNat 16 (h.hz >>> 1) }
  let probing := decide (Later h.clock h.nextprobe)
  let h := if probing then
      { h with nextprobe := h.nextprobe + BitVec.ofNat 16 (h.hz <<< 3) }
    else h
  let h := if Later h.clock h.nextroute then
      { h with nextroute := h.nextroute + BitVec.ofNat 16 (h.hz <<< 2) }.chroutage
    else h
  (probing, h)

/-- `ch_clock`. Checks of the interface and packets of `chbridge` are left out: neither does
anything in this configuration. -/
def chClock (h : Host S) : Host S × List (Effect S) :=
  if h.tick.nextclk ≠ h.tick.clock then (h.tick, [])
  else clockConns h.tick.nextTimes.1 h.tick.nextTimes.2 (List.range chnconns)

end Host

end Usim.Ncp
