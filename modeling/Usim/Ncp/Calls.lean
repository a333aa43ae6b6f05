import Mathlib.Logic.Relation
import Usim.Ncp.UserCalls

/-!
# What a host calls on its connection

All that a host does to its connection is a path of calls, after which the packets sent move
to the interface. What each call keeps is kept by the paths.
-/

namespace Usim.Ncp

open Lib

/-! ### Logs -/

section Logs

variable {S : Type} (l : Log) (es es' : List (Effect S))

@[simp] theorem Log.note_nil : l.note ([] : List (Effect S)) = l := by
  simp [Log.note, acceptedOf, streamedOf]

theorem Log.note_append : l.note (es ++ es') = (l.note es).note es' := by
  simp [Log.note, acceptedOf, streamedOf]

/-- The effects are nothing that the user writes or reads. -/
def Silent : Prop := ∀ l : Log, l.note es = l

theorem silent_nil : Silent ([] : List (Effect S)) := fun l => l.note_nil

theorem silent_ctl (p : Packet S) : Silent [Effect.ctl p] := fun l => by
  simp [Log.note, writtenOf, takenOf, acceptedOf, streamedOf]

theorem silent_data (ps : List (Packet S)) : Silent [Effect.data ps] := fun l => by
  simp [Log.note, writtenOf, takenOf, acceptedOf, streamedOf]

end Logs

/-! ### Calls -/

/-- What is known at one end: its fixed data, what the other end has sent, has read and has
received, and which packets may be delivered. -/
structure View where
  ends : Ends
  sent : List Message
  peerRead : ℤ
  peerLast : ℤ
  arrives : Packet ℤ → Prop
  own : ∀ p, arrives p → Own ends.flip peerRead peerLast sent p
  /-- The user reads and writes packets, as in record mode. -/
  record : Bool

/-- A packet that `ch_sread` takes bytes from. -/
def streamop (op : Byte) : Bool := isdatop op || op = ansop || op = uncop

/-- What a host calls on its connection. -/
inductive Call (v : View) (c : Connection ℤ) : Connection ℤ × List (Effect ℤ) → Prop
  | write (p : Packet ℤ) (hmode : v.record = true ∨ p.op = eofop) (hdata : isData p.op = true)
      (hlen : p.len = p.cdata.length) (hfull : c.chtfull = false) :
      Call v c ((c.chWrite p).getD (c, []))
  | read (hmode : v.record = true ∨ ∀ p ∈ c.rhead.head?, streamop p.op = false) :
      Call v c c.chRead
  /-- The end of a file has been read, which is not the first packet of the other end. -/
  | sendsts (hread : 1 < c.rread) : Call v c c.sendsts
  | eofSeen : Call v c ({ c with eofseen := true }, [])
  | swriteTurn (clock : HalfWord) (bs : List Byte) (hwritable : c.writable = true)
      (hfull : c.chtfull = false) : Call v c (c.swriteTurn clock bs)
  | sflush : Call v c c.chSflush
  | sreadTurn (ntodo : ℕ) (hhead : ∀ p ∈ c.rhead.head?, streamop p.op = true) :
      Call v c (c.sreadTurn ntodo)
  | accept : Call v c c.chAccept
  | close (p : Packet ℤ) (hop : p.op = clsop) : Call v c (c.chClose (some p))
  | lsnmatch (clock : HalfWord) (p : Packet ℤ) (harrives : v.arrives p) (hop : p.op = rfcop)
      (hstate : c.state = .listen) : Call v c (c.lsnmatch clock v.ends.me p, [])
  | flushOutput (clock : HalfWord) (hz : ℕ) : Call v c (Host.flushOutput clock hz c)
  | chretran (clock : HalfWord) (age : ℕ) : Call v c (c.chretran clock age)
  | probe (clock : HalfWord) (hz : ℕ) (hstate : c.state ≠ .listen) :
      Call v c (Host.probe clock hz c)
  | rcvpkt (clock : HalfWord) (shorttime : ℕ) (myname : List Byte) (p : Packet ℤ)
      (harrives : v.arrives p) : Call v c (c.rcvpkt clock shorttime myname p)
  | sendlos (myname text : List Byte) (p : Packet ℤ) (harrives : v.arrives p) :
      Call v c (c, p.sendlos myname text)
  | answer (data : List Byte) (p : Packet ℤ) (harrives : v.arrives p) :
      Call v c (c, [.ctl { p with
        op := ansop, pkn := SerialNumber.start, ackn := SerialNumber.start
        cdata := data, len := data.length }.reflect])

/-- A connection, the packets on their way to the interface, and what the user has done. -/
structure EndState where
  conn : Connection ℤ
  bag : List (Packet ℤ)
  log : Log

/-- What holds of one end. -/
def View.Sound (v : View) (s : EndState) : Prop :=
  Ncp.Sound v.ends v.sent v.peerRead v.peerLast s.conn s.bag s.log.written s.log.taken

/-- What is known of the other end. -/
def View.Peer (v : View) (l : Log) : Prop :=
  Ncp.Peer v.ends v.sent l.written v.peerRead v.peerLast

variable {v : View} {c : Connection ℤ} {bag : List (Packet ℤ)} {log : Log}
  {r : Connection ℤ × List (Effect ℤ)}

/-- More is written. -/
theorem View.Peer.note (h : v.Peer log) (es : List (Effect ℤ)) : v.Peer (log.note es) where
  read_le := h.read_le
  last_le := by
    refine h.last_le.trans ?_
    rw [show (log.note es).written = log.written ++ writtenOf es from rfl, List.length_append]
    omega
  ops := h.ops

/-- Each call keeps what holds of the end. -/
theorem Call.outcome (hcall : Call v c r) (h : v.Sound ⟨c, bag, log⟩) (hpeer : v.Peer log) :
    Outcome v.ends v.sent v.peerRead v.peerLast c bag log.written log.taken r := by
  rw [View.Sound] at h
  cases hcall with
  | write p _ hdata hlen hfull => exact h.chWrite hdata hlen hfull
  | read => exact h.chRead
  | sendsts hread =>
    have hlast := h.receive.rread_le
    exact h.sendsts fun hstate => by
      have := (h.receive.fresh (Or.inl hstate)).1
      dsimp only at this hlast
      omega
  | eofSeen =>
    have hseen : Ncp.Sound v.ends v.sent v.peerRead v.peerLast { c with eofseen := true } bag
        log.written log.taken :=
      h.congr rfl rfl rfl rfl h.transmit.twsize rfl rfl rfl rfl rfl rfl rfl rfl rfl rfl rfl rfl
        h.toutput
    exact hseen.unchanged.of_le le_rfl le_rfl
  | swriteTurn clock bs _ hfull => exact h.swriteTurn hfull clock bs
  | sflush => exact h.chSflush
  | sreadTurn ntodo => exact h.sreadTurn ntodo
  | accept => exact h.chAccept
  | close p hop => exact h.chClose hop
  | lsnmatch clock p harrives hop hstate =>
    exact h.lsnmatch hpeer (v.own p harrives) hop hstate clock
  | flushOutput clock hz => exact h.flushOutput clock hz
  | chretran clock age => exact h.chretran clock age
  | probe clock hz hstate => exact h.probe hstate clock hz
  | rcvpkt clock shorttime myname p harrives =>
    exact h.rcvpkt hpeer (v.own p harrives) clock shorttime myname
  | sendlos myname text p harrives => exact h.sendlos (v.own p harrives).fromPeer myname text
  | answer data p harrives =>
    have hp := v.own p harrives
    exact h.control (Own.unnumbered hp.daddr hp.saddr hp.fc (Or.inr (Or.inr rfl)))
      (by decide : contpkt ansop = false)

/-! ### Paths -/

/-- A call, or what happens to a packet on its way to the interface. -/
inductive Step (v : View) : EndState → EndState → Prop
  | call {c : Connection ℤ} {bag : List (Packet ℤ)} {log : Log}
      {r : Connection ℤ × List (Effect ℤ)} (hcall : Call v c r) :
      Step v ⟨c, bag, log⟩ ⟨r.1, sending r.2 ++ bag, log.note r.2⟩
  /-- Packets are queued, with what the interface adds to them. -/
  | rearrange {c : Connection ℤ} {bag bag' : List (Packet ℤ)} {log : Log}
      (hbag : (bag'.map Packet.plain).Perm (bag.map Packet.plain)) :
      Step v ⟨c, bag, log⟩ ⟨c, bag', log⟩
  | free {c : Connection ℤ} {bag : List (Packet ℤ)} {log : Log} (p : Packet ℤ) :
      Step v ⟨c, p :: bag, log⟩ ⟨c, bag, log⟩
  /-- A packet is kept for retransmission. -/
  | keep {c : Connection ℤ} {bag : List (Packet ℤ)} {log : Log} (p : Packet ℤ)
      (clock : HalfWord) :
      Step v ⟨c, p :: bag, log⟩
        ⟨{ c with thead := insertByNumber Packet.pkn { p with time := clock } c.thead }, bag,
          log⟩

/-- One step after another, from states of which holds what holds of an end. -/
def Path (v : View) : EndState → EndState → Prop :=
  Relation.ReflTransGen fun s s' => v.Sound s ∧ v.Peer s.log ∧ Step v s s'

/-- What each step keeps is kept by a path. -/
theorem Path.keeps {P : EndState → Prop} {s s' : EndState} (h : Path v s s')
    (hstep : ∀ s s', v.Sound s → v.Peer s.log → Step v s s' → P s → P s') (hs : P s) : P s' := by
  induction h with
  | refl => exact hs
  | tail _ hlast ih => exact hstep _ _ hlast.1 hlast.2.1 hlast.2.2 ih

end Usim.Ncp
