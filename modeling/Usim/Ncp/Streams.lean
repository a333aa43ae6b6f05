import Usim.Ncp.Hosts

/-!
# The stream interface of the Chaosnet NCP

`chstream.c`: bytes are collected in a packet that is sent when it is full or flushed, and
are read out of the packets received, which may be left partly read.
-/

namespace Usim.Ncp

open Lib

variable {S : Type} [SerialNumber S] [DecidableEq S]

/-- What `ch_sread` returns. -/
inductive SreadResult
  /-- So many bytes. -/
  | count (n : ℕ)
  /-- `CHEOF`. -/
  | eof
  /-- `CHERROR`. -/
  | error
  deriving DecidableEq, Repr

namespace Connection

omit [SerialNumber S] [DecidableEq S] in
/-- The room in the packet being filled, or in a new one. -/
def outputRoom (c : Connection S) : ℕ := if c.toutput.isSome then c.troom else chmaxdata

omit [DecidableEq S] in
/-- `ch_swrite` takes bytes as long as the connection is in this state. -/
def writable (c : Connection S) : Bool :=
  c.state = .opened || c.state = .rfcrcvd && c.answer

/-- `ch_swrite`, one turn of its loop: the bytes that fit are added to the packet being filled,
and the packet is sent if it is full. -/
def swriteTurn (clock : HalfWord) (bs : List Byte) (c : Connection S) :
    Connection S × List (Effect S) :=
  let p := c.toutput.getD { Packet.cleared with op := if c.answer then ansop else datop }
  let count := min bs.length c.outputRoom
  let p := { p with cdata := p.cdata ++ bs.take count, len := p.len + count }
  let c' := { c with toutput := none, troom := c.outputRoom - count }
  let r := if c.outputRoom - count = 0 then (c'.chWrite p).getD (c', [])
    else ({ c' with toutput := some { p with time := clock } }, [])
  (r.1, .accept (bs.take count) :: r.2)

/-- `ch_sflush`: the packet being filled is sent, unless the window is full. -/
def chSflush (c : Connection S) : Connection S × List (Effect S) :=
  match c.toutput with
  | none => (c, [])
  | some p =>
    if c.chtfull then (c, [])
    else ({ c with toutput := none }.chWrite p).getD ({ c with toutput := none }, [])

/-- `ch_sread`, for some bytes of the first packet. The packet is consumed at its end. -/
def sreadTurn (ntodo : ℕ) (c : Connection S) : Connection S × List (Effect S) :=
  match c.rhead with
  | [] => (c, [])
  | p :: ps =>
    let count := min p.len ntodo
    let bs := (p.cdata.drop c.roffset).take count
    let p := { p with len := p.len - count }
    let c := { c with eofseen := false, rhead := p :: ps }
    if p.len = 0 then
      let (c, es) := c.chRead
      ({ c with roffset := 0, eofseen := p.op = ansop }, .stream bs :: es)
    else ({ c with roffset := c.roffset + count }, [.stream bs])

end Connection

namespace Host

/-- `ch_swrite`, its loop, which takes a turn for at least one byte. Returned are the effects
and the bytes that are not written. -/
def swriteLoop (k : ℕ) : ℕ → Host S → List Byte → Host S × List (Effect S) × List Byte
  | 0, h, bs => (h, [], bs)
  | n + 1, h, bs =>
    match h.conntab k with
    | none => (h, [], bs)
    | some c =>
      if c.writable = false ∨ bs = [] ∨ c.chtfull then (h, [], bs)
      else
        let (h, es) := h.onConn k (Connection.swriteTurn h.clock bs)
        let (h, es', bs) := swriteLoop k n h (bs.drop c.outputRoom)
        (h, es ++ es', bs)

/-- `ch_swrite`. -/
def chSwrite (h : Host S) (k : ℕ) (bs : List Byte) : Host S × List (Effect S) × List Byte :=
  swriteLoop k (bs.length + 1) h bs

omit [SerialNumber S] [DecidableEq S] in
/-- The end of `ch_sread`, with the count of bytes read. -/
def sreadEnd (h : Host S) (k n : ℕ) : SreadResult :=
  if n ≠ 0 then .count n
  else match h.conntab k with
    | none => .error
    | some c =>
      if c.eofseen then .eof else if c.state = .opened then .count 0 else .error

/-- `ch_sread`, its loop, which takes at most a turn for each packet received, with the count of
bytes read so far. Returned are the effects and the result. -/
def sreadLoop (k nchars : ℕ) : ℕ → Host S → ℕ → Host S × List (Effect S) × SreadResult
  | 0, h, done => (h, [], h.sreadEnd k done)
  | n + 1, h, done =>
    match (h.conntab k).bind fun c => c.rhead.head? with
    | none => (h, [], h.sreadEnd k done)
    | some p =>
      let ntodo := nchars - done
      if ntodo = 0 then (h, [], h.sreadEnd k done)
      else if p.op = eofop then
        if ntodo ≠ nchars then (h, [], .count done)
        else
          let (h, es) := h.onConn k Connection.chRead
          let (h, es') := h.onConn k Connection.sendsts
          let (h, _) := h.onConn k fun c => ({ c with eofseen := true }, [])
          (h, es ++ es', .eof)
      else if isdatop p.op ∨ p.op = ansop ∨ p.op = uncop then
        let (h, es) := h.onConn k (Connection.sreadTurn ntodo)
        let (h, es', r) := sreadLoop k nchars n h (done + min p.len ntodo)
        (h, es ++ es', r)
      else
        let (h, es) := h.onConn k Connection.chRead
        let (h, es', r) := sreadLoop k nchars n h done
        (h, es ++ es', r)

/-- `ch_sread`. -/
def chSread (h : Host S) (k nchars : ℕ) : Host S × List (Effect S) × SreadResult :=
  sreadLoop k nchars (((h.conntab k).elim 0 fun c => c.rhead.length) + 1) h 0

end Host

end Usim.Ncp
